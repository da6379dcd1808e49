/-
User code and the lock of a connection. `after_read` takes care to call the input handler without
the lock; the callbacks of a send and the shutdown handler are called wherever they become due, and
in most of these places the lock is held. What is called then cannot send through its connection
without taking a lock that its own thread holds.
-/
import Opio.Net.Cases
import Opio.Net.Locking
import Opio.Net.WriteQueue

namespace Opio.Net

open scoped List
open Mutex (Op Parties Apart locked)

/-! ## User callables -/

/-- Calls a user callable, or goes on with its body. -/
def Frame.isCallable : Frame → Bool
  | .runCallbacks _ (_ :: _) => true
  | .shutdownHandler _ => true
  | .inputHandler => true
  | .reaction _ => true
  | _ => false

def Work.isCallable : Work → Bool
  | .handler _ => false
  | .frame f => f.isCallable

/-- A shutdown calls the shutdown handler. -/
def Notifies (env : ConnectionEnv) (c : Connection) : Prop :=
  env.hasShutdownHandler = true ∧ c.shutdownWasCalled = false

instance (env : ConnectionEnv) (c : Connection) : Decidable (Notifies env c) := inferInstanceAs (Decidable (_ ∧ _))

/-- The work comes to a user callable right away: a group with a callback is refused, or was written
directly to its end; the front of the queue has callbacks and is written synchronously, or cannot be;
or a shutdown calls its handler. -/
def ComesToCall (env : ConnectionEnv) (c : Connection) : Work → Connection.Input → Prop
  | .frame (.call (.send s)), _ => s.cb = true ∧ s.direct = false ∧ c.scheduleForWriteIsEnabled = false
  | .frame (.call .shutdown), _ => Notifies env c
  | .frame (.append [] true _ cb), _ => cb = true
  | .frame .syncWrite, .result ⟨none, _⟩ => (Connection.front c.writeQueue).sendCompletionCbs ≠ []
  | .frame .syncWrite, .result ⟨some ec, _⟩ =>
    ec ≠ .wouldBlock ∧ ((Connection.front c.writeQueue).sendCompletionCbs ≠ [] ∨ Notifies env c)
  | .handler (.readDone (some ec)), _ => ec ≠ .operationAborted ∧ Notifies env c
  | .handler (.writeTimeout timeoutKey), _ =>
    c.isWriteOperationRunning = true ∧ timeoutKey = c.timeoutKey ∧ Notifies env c
  | _, _ => False

instance (env : ConnectionEnv) (c : Connection) (w : Work) (i : Connection.Input) :
    Decidable (ComesToCall env c w i) := by
  unfold ComesToCall
  split <;> infer_instance

/-! ## What is put on the stack -/

section Frames

variable {env : ConnectionEnv} {c c' : Connection}

/-- What stands on the stack of a connection neither calls user code nor waits for the lock. -/
def Plain (c : Connection) : Prop := ∀ g ∈ c.stack, g.hasGuard = false ∧ g.isCallable = false

theorem Plain.push {f : Frame} (h : Plain c) (hf : f.hasGuard = false ∧ f.isCallable = false) : Plain (c.push f) := by
  intro g hg
  rcases List.mem_cons.1 hg with rfl | hg
  · exact hf
  · exact h g hg

theorem Plain.of_stack (h : Plain c) (hstack : c'.stack = c.stack) : Plain c' := by
  unfold Plain
  rw [hstack]
  exact h

theorem shutdownImpl_plain (reason : ConnectionShutdownReason) (h : Plain c) (hno : ¬ Notifies env c) :
    Plain (Connection.shutdownImpl env reason c) := by
  refine Connection.shutdownImpl_elim env reason c ?again ?first
  case again => exact fun _ => h
  case first =>
    intro hwas c₁ hflags
    rw [if_neg fun hhandler => hno ⟨hhandler, hwas⟩]
    rcases hflags with ⟨-, rfl⟩ | ⟨-, rfl⟩
    · exact h.of_stack rfl
    · exact h.of_stack rfl

theorem handleIoError_plain (ec : ErrorCode) (h : Plain c) (hno : ec ≠ .operationAborted → ¬ Notifies env c) :
    Plain (Connection.handleIoError env ec c) := by
  unfold Connection.handleIoError
  by_cases hab : ec = .operationAborted
  · rw [if_pos hab]
    exact h
  · rw [if_neg hab]
    exact shutdownImpl_plain _ h (hno hab)

theorem afterWrite_plain (ec : Option ErrorCode) (h : Plain c)
    (hcbs : (Connection.front c.writeQueue).sendCompletionCbs = [])
    (hno : ec ≠ none → ¬ Notifies env c) : Plain (Connection.afterWrite env ec c) := by
  unfold Connection.afterWrite
  dsimp only
  rw [hcbs]
  have hpush : Plain ({ c with timeoutKey := c.timeoutKey + 1 }) := h.of_stack rfl
  cases ec with
  | none =>
    refine Plain.push (Plain.push ?_ ⟨rfl, rfl⟩) ⟨rfl, rfl⟩
    exact hpush.of_stack rfl
  | some ec =>
    apply handleIoError_plain
    · refine Plain.push ?_ ⟨rfl, rfl⟩
      exact hpush.of_stack rfl
    · intro _
      exact hno (by simp)

theorem plain_idle (c : Connection) : Plain { c with stack := [] } := fun _ hg => nomatch hg

theorem scheduleSend_plain {s : SendCall} (h : Plain c)
    (hno : ¬ (s.cb = true ∧ s.direct = false ∧ c.scheduleForWriteIsEnabled = false)) :
    Plain (Connection.scheduleSend s c) := by
  refine Connection.scheduleSend_elim s c ?accepted ?rejected ?ignored
  case accepted => exact fun _ => Plain.push (h.of_stack rfl) ⟨rfl, rfl⟩
  case rejected => exact fun hdisabled hcb hdirect => absurd ⟨hcb, hdirect, hdisabled⟩ hno
  case ignored => exact fun _ _ => h.of_stack rfl

theorem append_plain {bufs : List Bytes} {beAggressive cb : Bool} {id : Nat} (h : Plain c)
    (hno : bufs = [] → beAggressive = true → cb = false) :
    Plain (Connection.append env bufs beAggressive id cb c) := by
  refine Connection.append_elim env bufs beAggressive id cb c ?delivered ?ended ?noted ?queued ?direct ?buffered
  case delivered =>
    intro hnil hdirect hcb
    exact absurd (hcb.symm.trans (hno hnil hdirect)) (by decide)
  case ended => exact fun _ _ _ => h
  case noted =>
    intro _ _ _
    refine Plain.push ?_ ⟨rfl, rfl⟩
    exact h.of_stack rfl
  case queued => exact fun _ _ _ => h.push ⟨rfl, rfl⟩
  case direct => exact fun _ _ _ _ _ _ => h.push ⟨rfl, rfl⟩
  case buffered =>
    intro _ _ _ _
    refine Plain.push ?_ ⟨rfl, rfl⟩
    exact h.of_stack rfl

theorem initiateWrite_plain (h : Plain c) : Plain (Connection.initiateWriteIfNecessary env c) := by
  refine Connection.initiateWrite_elim env c ?running ?nothing ?sync ?async
  case running => exact fun _ => h
  case nothing => exact fun _ _ => h.of_stack rfl
  case sync =>
    intro _ _ _
    refine Plain.push ?_ ⟨rfl, rfl⟩
    exact h.of_stack rfl
  case async => exact fun _ _ => h.of_stack rfl

theorem syncWritten_plain {r : WriteResult} (h : Plain c)
    (hr : r.PossibleSync (Connection.front c.writeQueue).totalSize)
    (hno : ¬ ComesToCall env c (.frame .syncWrite) (.result r)) : Plain (Connection.syncWritten env r c) := by
  have htaken : Plain (c.emit (.taken ((Connection.front c.writeQueue).asioBufs.flatten.take r.transferred))) :=
    h.of_stack rfl
  obtain ⟨ec, transferred⟩ := r
  refine Connection.syncWritten_elim env hr ?completed ?blocked
  case completed =>
    intro hblock
    have hcalls : (Connection.front c.writeQueue).sendCompletionCbs = [] ∧ (ec ≠ none → ¬ Notifies env c) := by
      cases ec with
      | none => exact ⟨not_not.1 hno, fun h => absurd rfl h⟩
      | some ec =>
        have hec : ec ≠ .wouldBlock := fun heq => hblock (congrArg some heq)
        exact ⟨by_contra fun hcbs => hno ⟨hec, .inl hcbs⟩, fun _ hnotifies => hno ⟨hec, .inr hnotifies⟩⟩
    apply afterWrite_plain
    · refine Plain.push ?_ ⟨rfl, rfl⟩
      exact htaken.of_stack rfl
    · show (Connection.front (Connection.freezeFirst c.writeQueue)).sendCompletionCbs = []
      rw [Connection.front_freezeFirst, hcalls.1]
    · exact hcalls.2
  case blocked => exact fun _ _ => htaken.of_stack rfl

/-- What does not come to a call leaves nothing on the stack that makes one. -/
theorem resume_plain {f : Frame} {i : Connection.Input} (hf : f.isCallable = false)
    (hno : ¬ ComesToCall env c (.frame f) i) (h : Connection.resume env { c with stack := [] } f i = some c') :
    Plain c' := by
  have hidle := plain_idle c
  cases Connection.continues_of_resume h with
  | call call =>
    cases call with
    | send s => exact scheduleSend_plain hidle hno
    | shutdown => exact shutdownImpl_plain _ hidle hno
    | startReading =>
      simp only [Connection.exec, Connection.startReading]
      split
      · exact hidle
      · exact hidle.of_stack rfl
    | stopReading => exact hidle.of_stack rfl
  | append bufs beAggressive id cb =>
    apply append_plain hidle
    rintro rfl rfl
    exact Bool.eq_false_iff.2 hno
  | aggressiveWrite buf bufs id cb r =>
    refine Connection.aggressiveWritten_elim env buf bufs id cb r _ ?whole ?partly
    all_goals
      intro _
      refine Plain.push ?_ ⟨rfl, rfl⟩
      exact hidle.of_stack rfl
  | initiateWrite => exact initiateWrite_plain hidle
  | syncWrite r possible =>
    apply syncWritten_plain hidle possible
    -- the frames below are not looked at
    intro hcomes
    obtain ⟨_ | ec, transferred⟩ := r <;> exact hno hcomes
  | callbacksDone res => exact hidle
  | called res id ids cs => cases hf
  | popWritten =>
    refine Plain.push ?_ ⟨rfl, rfl⟩
    exact hidle.of_stack rfl
  | markShutdown => exact hidle.of_stack rfl
  | afterInput =>
    unfold Connection.afterInput
    split
    · exact hidle.of_stack rfl
    · exact hidle
  | incBytesTxSync n => exact hidle.of_stack rfl
  | incBytesTxAsync n => exact hidle.of_stack rfl
  | shutdownHandler reason => cases hf
  | inputHandler => cases hf
  | reactionDone => cases hf
  | reaction call calls => cases hf

theorem begin_plain {item : Connection.Item}
    (hitem : (∃ ec, item = .readDone (some ec)) ∨ ∃ key, item = .writeTimeout key)
    (hno : ¬ ComesToCall env c (.handler item) .none) (h : Connection.begin env { c with stack := [] } item = some c') :
    Plain c' := by
  have hidle := plain_idle c
  have henters := Connection.enters_of_begin h
  rcases hitem with ⟨ec, rfl⟩ | ⟨key, rfl⟩
  · cases henters
    apply handleIoError_plain
    · exact hidle.of_stack rfl
    · exact fun hab hnotifies => hno ⟨hab, hnotifies⟩
  · cases henters with
    | timedOut timeoutKey current =>
      apply shutdownImpl_plain _ hidle
      exact fun hnotifies => hno ⟨current.1, current.2, hnotifies⟩
    | late => exact hidle

/-- A user callable stands on top of the stack. -/
def CallsNext (c : Connection) : Prop := ∃ g gs, c.stack = g :: gs ∧ g.hasGuard = false ∧ g.isCallable = true

theorem shutdownImpl_callsNext (reason : ConnectionShutdownReason) (h : Notifies env c) :
    CallsNext (Connection.shutdownImpl env reason c) := by
  obtain ⟨hhandler, hwas⟩ := h
  refine Connection.shutdownImpl_elim env reason c ?again ?first
  case again => exact fun hcalled => absurd (hcalled.symm.trans hwas) (by decide)
  case first =>
    intro _ c₁ _
    rw [if_pos hhandler]
    exact ⟨_, _, rfl, rfl, rfl⟩

/-- A shutdown that calls no handler leaves the stack as it is. -/
theorem shutdownImpl_stack (reason : ConnectionShutdownReason) (h : ¬ Notifies env c) :
    (Connection.shutdownImpl env reason c).stack = c.stack := by
  refine Connection.shutdownImpl_elim env reason c ?again ?first
  case again => exact fun _ => rfl
  case first =>
    intro hwas c₁ hflags
    rw [if_neg fun hhandler => h ⟨hhandler, hwas⟩]
    rcases hflags with ⟨-, rfl⟩ | ⟨-, rfl⟩
    · rfl
    · rfl

theorem handleIoError_callsNext {ec : ErrorCode} (hab : ec ≠ .operationAborted) (h : CallsNext c ∨ Notifies env c) :
    CallsNext (Connection.handleIoError env ec c) := by
  unfold Connection.handleIoError
  rw [if_neg hab]
  by_cases hnotifies : Notifies env c
  · exact shutdownImpl_callsNext _ hnotifies
  · obtain ⟨g, gs, hstack, hg⟩ := h.resolve_right hnotifies
    exact ⟨g, gs, (shutdownImpl_stack _ hnotifies).trans hstack, hg⟩

theorem afterWrite_callsNext {ec : Option ErrorCode} (hab : ec ≠ some .operationAborted)
    (h : (Connection.front c.writeQueue).sendCompletionCbs ≠ [] ∨ ec ≠ none ∧ Notifies env c) :
    CallsNext (Connection.afterWrite env ec c) := by
  have hcbs : ∀ res, (Connection.front c.writeQueue).sendCompletionCbs ≠ [] →
      (Frame.runCallbacks res (Connection.front c.writeQueue).sendCompletionCbs).isCallable = true := by
    intro res hne
    obtain ⟨cb, cbs, hcons⟩ := List.exists_cons_of_ne_nil hne
    rw [hcons]
    rfl
  unfold Connection.afterWrite
  cases ec with
  | none =>
    have hne := h.resolve_right fun h => h.1 rfl
    exact ⟨_, _, rfl, rfl, hcbs .success hne⟩
  | some ec =>
    apply handleIoError_callsNext (fun heq => hab (by rw [heq]))
    rcases h with hne | ⟨-, hnotifies⟩
    · exact .inl ⟨_, _, rfl, rfl, hcbs .ioError hne⟩
    · exact .inr hnotifies

theorem syncWritten_callsNext {r : WriteResult} (hr : r.PossibleSync (Connection.front c.writeQueue).totalSize)
    (h : ComesToCall env c (.frame .syncWrite) (.result r)) : CallsNext (Connection.syncWritten env r c) := by
  have hfront : (Connection.front (Connection.freezeFirst c.writeQueue)).sendCompletionCbs =
      (Connection.front c.writeQueue).sendCompletionCbs := by rw [Connection.front_freezeFirst]
  obtain ⟨ec, transferred⟩ := r
  refine Connection.syncWritten_elim env hr ?completed ?blocked
  case completed =>
    intro hblock
    cases ec with
    | none =>
      refine afterWrite_callsNext (by simp) (.inl ?_)
      exact hfront ▸ h
    | some ec =>
      have hab : ec ≠ .operationAborted := by
        rintro rfl
        exact hr
      apply afterWrite_callsNext (by simpa using hab)
      rcases h.2 with hne | hnotifies
      · exact .inl (hfront ▸ hne)
      · exact .inr ⟨by simp, hnotifies⟩
  case blocked =>
    rintro hec -
    obtain rfl : ec = some .wouldBlock := hec
    exact absurd rfl h.1

theorem resume_callsNext {f : Frame} {i : Connection.Input} (hcomes : ComesToCall env c (.frame f) i)
    (h : Connection.resume env { c with stack := [] } f i = some c') : CallsNext c' := by
  cases Connection.continues_of_resume h with
  | call call =>
    cases call with
    | send s =>
      obtain ⟨hcb, hdirect, henabled⟩ := hcomes
      show CallsNext (Connection.scheduleSend s { c with stack := [] })
      refine Connection.scheduleSend_elim s { c with stack := [] } ?accepted ?rejected ?ignored
      case accepted => exact fun henabled' => absurd (henabled'.symm.trans henabled) (by decide)
      case rejected => exact fun _ _ _ => ⟨_, _, rfl, rfl, rfl⟩
      case ignored => exact fun _ hsilent => absurd ((hsilent hcb).symm.trans hdirect) (by decide)
    | shutdown => exact shutdownImpl_callsNext _ hcomes
    | startReading => cases hcomes
    | stopReading => cases hcomes
  | append bufs beAggressive id cb =>
    cases bufs with
    | cons buf bufs => cases hcomes
    | nil =>
      cases beAggressive with
      | false => cases hcomes
      | true =>
        obtain rfl : cb = true := hcomes
        exact ⟨_, _, rfl, rfl, rfl⟩
  | syncWrite r possible =>
    have hcomes' : ComesToCall env { c with stack := [] } (.frame .syncWrite) (.result r) := by
      obtain ⟨_ | ec, transferred⟩ := r <;> exact hcomes
    exact syncWritten_callsNext possible hcomes'
  | _ => cases hcomes

theorem begin_callsNext {item : Connection.Item} (hcomes : ComesToCall env c (.handler item) .none)
    (h : Connection.begin env { c with stack := [] } item = some c') : CallsNext c' := by
  cases Connection.enters_of_begin h with
  | readFailed ec => exact handleIoError_callsNext hcomes.1 (.inr hcomes.2)
  | timedOut timeoutKey current => exact shutdownImpl_callsNext _ hcomes.2.2
  | late timeoutKey outdated => exact absurd ⟨hcomes.1, hcomes.2.1⟩ outdated
  | _ => cases hcomes

end Frames

/-! ## Programs -/

/-- What is done without the lock only: user callables, and the handlers that call them first of all. -/
def Work.runsUnlocked : Work → Bool
  | .handler (.readDone (some _)) => false
  | .handler (.writeTimeout _) => false
  | .handler _ => true
  | .frame f => f.isCallable

theorem runsUnlocked_of_isCallable (w : Work) (h : w.isCallable = true) : w.runsUnlocked = true := by
  cases w with
  | handler item => cases h
  | frame f => exact h

section Programs

variable {τ : Type} {env : ConnectionEnv} {p : Party τ} {c c' : Connection} {held : Prop} {ops : List (Op Work)}

/-- A frame that the party runs without the lock. -/
theorem apart_guarded (f : Frame) (h : Apart Work.runsUnlocked held ops) (hfree : ¬ held) :
    Apart Work.runsUnlocked held (guarded f ++ ops) := by
  unfold guarded
  by_cases hguard : f.hasGuard = true
  · rw [if_pos hguard]
    apply Mutex.apart_locked h hfree
    cases f <;> first | rfl | cases hguard
  · rw [if_neg hguard]
    exact Mutex.apart_work h fun _ => hfree

/-- Work that comes to no call while the lock is held keeps user code apart from the lock. -/
theorem apart_exec {w : Work} {i : Connection.Input} {more : List (Op Work)} (h : exec env p c w i = some (c', more))
    (hw : w.runsUnlocked = true → ¬ held) (hno : held → ¬ ComesToCall env c w i)
    (hops : Apart Work.runsUnlocked held ops) : Apart Work.runsUnlocked held (more ++ ops) := by
  have hpushed : ∀ c₁ : Connection, more = (unload c₁).2 → (held → Plain c₁) →
      Apart Work.runsUnlocked held (more ++ ops) := by
    rintro c₁ rfl hplain
    apply Mutex.apart_flatMap hops
    intro f hf ops hops
    by_cases hheld : held
    · -- what is left under the lock is neither guarded nor calls user code
      obtain ⟨hguard, hcallable⟩ := hplain hheld f hf
      rw [guarded, if_neg (by simp [hguard])]
      refine Mutex.apart_work hops fun hkind => ?_
      rw [show (Work.frame f).runsUnlocked = false from hcallable] at hkind
      cases hkind
    · exact apart_guarded f hops hheld
  cases w with
  | handler item =>
    cases i with
    | none =>
      obtain ⟨c₁, hbegin, heq⟩ := Option.map_eq_some_iff.1 h
      refine hpushed c₁ (congrArg Prod.snd heq).symm fun hheld => begin_plain ?_ (hno hheld) hbegin
      cases item with
      | readDone ec =>
        cases ec with
        | none => exact absurd hheld (hw rfl)
        | some ec => exact .inl ⟨ec, rfl⟩
      | writeTimeout key => exact .inr ⟨key, rfl⟩
      | _ => exact absurd hheld (hw rfl)
    | _ => cases h
  | frame f =>
    unfold exec at h
    dsimp only at h
    split at h
    · -- a user callback makes a call
      rename_i call calls
      cases h
      have hfree : ¬ held := hw rfl
      rw [List.append_assoc]
      have hrest : Apart Work.runsUnlocked held ([.work (.frame (.reaction calls))] ++ ops) :=
        Mutex.apart_work hops fun _ => hfree
      unfold callbackOps
      split
      · exact apart_guarded _ hrest hfree
      · split
        · exact apart_guarded _ hrest hfree
        · exact hrest
      · exact hrest
    · obtain ⟨c₁, hresume, heq⟩ := Option.map_eq_some_iff.1 h
      refine hpushed c₁ (congrArg Prod.snd heq).symm fun hheld => ?_
      apply resume_plain _ (hno hheld) hresume
      exact Bool.eq_false_iff.2 fun hcallable => hw hcallable hheld

/-- What comes to a call puts it first. -/
theorem exec_of_comesToCall {w : Work} {i : Connection.Input} {more : List (Op Work)} (hcomes : ComesToCall env c w i)
    (h : exec env p c w i = some (c', more)) : ∃ w' more', more = .work w' :: more' ∧ w'.isCallable = true := by
  have hnext : ∀ c₁ : Connection, CallsNext c₁ → unload c₁ = (c', more) →
      ∃ w' more', more = .work w' :: more' ∧ w'.isCallable = true := by
    rintro c₁ ⟨g, gs, hstack, hguard, hcallable⟩ heq
    refine ⟨.frame g, gs.flatMap guarded, ?_, hcallable⟩
    have hmore : more = (unload c₁).2 := (congrArg Prod.snd heq).symm
    have hplain : guarded g = [.work (.frame g)] := if_neg (by simp [hguard])
    rw [hmore, unload, hstack, List.flatMap_cons, hplain]
    rfl
  cases w with
  | handler item =>
    cases i with
    | none =>
      obtain ⟨c₁, hbegin, heq⟩ := Option.map_eq_some_iff.1 h
      exact hnext c₁ (begin_callsNext hcomes hbegin) heq
    | _ => cases h
  | frame f =>
    unfold exec at h
    dsimp only at h
    split at h
    · cases hcomes
    · obtain ⟨c₁, hresume, heq⟩ := Option.map_eq_some_iff.1 h
      exact hnext c₁ (resume_callsNext hcomes hresume) heq

theorem apart_handlerOps (item : Connection.Item) : Apart Work.runsUnlocked False (handlerOps item) := by
  have hnil : Apart Work.runsUnlocked False [] := not_false
  rw [← List.append_nil (handlerOps item)]
  cases item with
  | call call => exact apart_guarded _ hnil not_false
  | asyncWriteDone r => exact Mutex.apart_work hnil fun _ => not_false
  | readDone ec =>
    cases ec with
    | none => exact Mutex.apart_work hnil fun _ => not_false
    | some ec => exact Mutex.apart_locked hnil not_false rfl
  | writeTimeout timeoutKey => exact Mutex.apart_locked hnil not_false rfl
  | destroy transferred => exact hnil

end Programs

/-! ## Runs -/

namespace Locked

variable {τ : Type} {env : ConnectionEnv} {s s' : Locked τ}

/-- No party that holds the lock calls user code, and none takes the lock that it holds. -/
structure CallsUnlocked (s : Locked τ) : Prop where
  unlocked : ∀ p, s.parties.Inside Work.isCallable p → s.parties.holder ≠ some p
  acquires : ∀ p ops, s.parties.running p = .acquire :: ops → s.parties.holder ≠ some p

/-- A party that holds the lock does not come to a call. -/
def AvoidsCalls (env : ConnectionEnv) (s : Locked τ) : Action τ → Prop
  | .moves p i =>
    match s.parties.running p with
    | .work w :: _ => s.parties.holder = some p → ¬ ComesToCall env s.parties.shared w i
    | _ => True
  | _ => True

def KeptApart (s : Locked τ) : Prop :=
  ∀ p, Apart Work.runsUnlocked (s.parties.holder = some p) (s.parties.running p)

theorem keptApart_init : KeptApart ({} : Locked τ) := by
  intro p h
  cases h

theorem KeptApart.callsUnlocked (h : KeptApart s) : s.CallsUnlocked := by
  constructor
  · rintro p ⟨w, ops, hops, hw⟩
    have hp := h p
    rw [hops] at hp
    exact hp.1 (runsUnlocked_of_isCallable w hw)
  · intro p ops hops
    have hp := h p
    rw [hops] at hp
    exact hp.1

variable [DecidableEq τ]

instance (env : ConnectionEnv) (s : Locked τ) (a : Action τ) : Decidable (AvoidsCalls env s a) := by
  unfold AvoidsCalls
  split <;> (try split) <;> infer_instance

/-- A party with nothing to do begins. -/
theorem KeptApart.setRunning {p : Party τ} {ops : List (Op Work)} {completing : Bool} (h : KeptApart s)
    (hidle : s.parties.running p = []) (hops : Apart Work.runsUnlocked False ops) :
    KeptApart ⟨s.parties.setRunning p ops, completing⟩ := by
  have hfree : ¬ s.parties.holder = some p := by
    have hp := h p
    rwa [hidle] at hp
  intro q
  by_cases hq : q = p
  · subst hq
    change Apart Work.runsUnlocked (s.parties.holder = some q) ((s.parties.setRunning q ops).running q)
    rw [Parties.setRunning_running_self]
    exact hops.congr (iff_of_false not_false hfree)
  · change Apart Work.runsUnlocked (s.parties.holder = some q) ((s.parties.setRunning p ops).running q)
    rw [Parties.setRunning_running_of_ne hq]
    exact h q

theorem KeptApart.step {a : Action τ} (h : KeptApart s) (hcond : AvoidsCalls env s a)
    (hstep : s.step env a = some s') : KeptApart s' := by
  cases a with
  | begins item =>
    simp only [Locked.step] at hstep
    split at hstep
    · rename_i hidle
      rw [← Option.some.inj hstep]
      exact h.setRunning hidle.1 (apart_handlerOps item)
    · cases hstep
  | sends t bufs cb =>
    simp only [Locked.step] at hstep
    split at hstep
    · rename_i hidle
      rw [← Option.some.inj hstep]
      apply h.setRunning hidle
      rw [← List.append_nil (guarded _)]
      exact apart_guarded _ not_false not_false
    · cases hstep
  | moves p i =>
    simp only [Locked.step] at hstep
    split at hstep
    · rename_i parties hmove
      rw [← Option.some.inj hstep]
      intro q
      by_cases hq : q = p
      · subst hq
        refine Parties.apart_of_move (h q) hmove fun w ops shared more hrunning hexec hw hops => ?_
        refine apart_exec hexec hw (fun hheld => ?_) hops
        simp only [AvoidsCalls, hrunning] at hcond
        exact hcond hheld
      · have hother := (h q).congr (Parties.holder_of_move hmove hq).symm
        rw [← Parties.running_of_move hmove hq] at hother
        exact hother
    · cases hstep

theorem not_callsUnlocked {a : Action τ} (hcond : ¬ AvoidsCalls env s a) (hstep : s.step env a = some s') :
    ¬ s'.CallsUnlocked := by
  cases a with
  | begins item => exact absurd trivial hcond
  | sends t bufs cb => exact absurd trivial hcond
  | moves p i =>
    simp only [AvoidsCalls] at hcond
    split at hcond
    · rename_i w ops hrunning
      obtain ⟨hheld, hcomes⟩ : s.parties.holder = some p ∧ ComesToCall env s.parties.shared w i := by
        simpa using hcond
      simp only [Locked.step] at hstep
      split at hstep
      · rename_i parties hmove
        rw [← Option.some.inj hstep]
        rcases Parties.move_cases hmove with
          ⟨ops', hops, -⟩ | ⟨ops', hops, -⟩ | ⟨w', ops', shared, more, hops, hexec, rfl⟩
        · rw [hrunning] at hops
          cases hops
        · rw [hrunning] at hops
          cases hops
        · rw [hrunning] at hops
          obtain ⟨⟨⟩, rfl⟩ := List.cons.inj hops
          obtain ⟨w', more', rfl, hcallable⟩ := exec_of_comesToCall hcomes hexec
          intro h
          apply h.unlocked p _ hheld
          exact ⟨w', more' ++ ops, Parties.setRunning_running_self .., hcallable⟩
      · cases hstep
    · exact absurd trivial hcond

/-- In a run no user callable is called under the lock by the party that holds it, and no party takes
the lock that it holds, if and only if no party comes to a call while it holds the lock. -/
theorem callables_called_unlocked (env : ConnectionEnv) {actions : List (Action τ)} {s : Locked τ}
    (hrun : execute (step env) {} actions = some s) :
    Along (step env) (AvoidsCalls env) {} actions ↔
      ∀ before s₁, before <+: actions → execute (step env) {} before = some s₁ → s₁.CallsUnlocked :=
  along_iff_reached (I := KeptApart) (fun _ _ _ h hcond hstep => h.step hcond hstep) (fun _ h => h.callsUnlocked)
    (fun _ _ _ _ hcond hstep => not_callsUnlocked hcond hstep) actions keptApart_init hrun

/-- Input comes in, and the input handler sends. -/
def sendsFromInputHandler : List (Action Nat) :=
  [.begins (.call .startReading)] ++ List.replicate 3 (.moves .strand .none) ++
    [.begins (.readDone none), .moves .strand .none, .moves .strand (.calls [.send { bufs := [[1, 2, 3, 4, 5]] }])] ++
    List.replicate 8 (.moves .strand .none)

theorem callables_called_unlocked_input : ∃ s,
    execute (step ⟨4, 64, by decide, false, false⟩) {} sendsFromInputHandler = some s ∧
    ∀ before s₁, before <+: sendsFromInputHandler →
      execute (step ⟨4, 64, by decide, false, false⟩) {} before = some s₁ → s₁.CallsUnlocked := by
  have hruns : (execute (step ⟨4, 64, by decide, false, false⟩) {} sendsFromInputHandler).isSome = true := by
    decide +kernel
  obtain ⟨s, hs⟩ := Option.isSome_iff_exists.1 hruns
  exact ⟨s, hs, (callables_called_unlocked _ hs).1 (by decide +kernel)⟩

/-- A byte is written directly, and the callback of its group, still under the lock, sends another. -/
theorem callback_under_lock : ∃ s, execute (step (τ := Nat) ⟨4, 64, by decide, false, false⟩) {}
    ([.begins (.call (.send { bufs := [[1]], cb := true }))] ++ List.replicate 3 (.moves .strand .none) ++
      [.moves .strand (.result ⟨none, 1⟩), .moves .strand .none, .moves .strand (.calls [.send { bufs := [[2]] }]),
        .moves .strand .none]) = some s ∧
    ¬ s.CallsUnlocked := by
  obtain ⟨s, hs, hheld, hnext⟩ := exists_execute (step (τ := Nat) ⟨4, 64, by decide, false, false⟩) {}
    ([.begins (.call (.send { bufs := [[1]], cb := true }))] ++ List.replicate 3 (.moves .strand .none) ++
      [.moves .strand (.result ⟨none, 1⟩), .moves .strand .none, .moves .strand (.calls [.send { bufs := [[2]] }]),
        .moves .strand .none])
    (fun s : Locked Nat =>
      s.parties.holder = some .strand ∧
      s.parties.running .strand = [.acquire, .work (.frame (.call (.send { bufs := [[2]] }))), .release,
        .work (.frame (.reaction [])), .work (.frame (.runCallbacks .success [])), .release])
    (by decide +kernel)
  exact ⟨s, hs, fun h => h.acquires .strand _ hnext hheld⟩

end Locked

end Opio.Net
