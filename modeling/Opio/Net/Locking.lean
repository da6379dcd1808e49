/-
A connection with `mutex_locking_t`: the handlers of the strand and any number of threads that send
aggressively, with the steps that take and give back `m_lock`. All handlers but one take the lock
for what they do to the write side, and as long as that one runs apart from the senders nobody gets
into anybody's way.
-/
import Opio.Lib.Mutex
import Opio.Lib.Runs
import Opio.Net.Cases

namespace Opio.Net

open Mutex (Op Parties Guarded locked)

/-! ## Programs of the entry points -/

inductive Party (τ : Type)
  | strand
  | sender (t : τ)
  deriving DecidableEq, Repr

/-- What is done between taking and giving back the lock, or without it. -/
inductive Work
  | handler (i : Connection.Item)
  | frame (f : Frame)
  deriving DecidableEq, Repr

/-- Reads or modifies `m_write_queue`, `m_is_write_operation_running` or the socket's write side. -/
def Frame.touchesWriteSide : Frame → Bool
  | .call .shutdown => true
  | .append .. => true
  | .aggressiveWrite .. => true
  | .initiateWrite => true
  | .syncWrite => true
  | .popWritten => true
  | _ => false

def Work.touchesWriteSide : Work → Bool
  | .handler (.asyncWriteDone _) => true
  | .handler (.readDone (some _)) => true
  | .handler (.writeTimeout _) => true
  | .handler _ => false
  | .frame f => f.touchesWriteSide

/-- The scope has a guard of its own: the work item of a call, and the end of `after_read`. -/
def Frame.hasGuard : Frame → Bool
  | .call _ => true
  | .afterInput => true
  | _ => false

def guarded (f : Frame) : List (Op Work) := if f.hasGuard then locked (.frame f) else [.work (.frame f)]

/-- Everything but what leads to user callbacks and statistics only. -/
def Frame.needsLock : Frame → Bool
  | .runCallbacks .. => false
  | .shutdownHandler _ => false
  | .markShutdown => false
  | .inputHandler => false
  | .reaction _ => false
  | .incBytesTxSync _ => false
  | .incBytesTxAsync _ => false
  | _ => true

def Work.needsLock : Work → Bool
  | .handler (.call _) => false
  | .handler (.readDone none) => false
  | .handler _ => true
  | .frame f => f.needsLock

/-- What a handler of the strand does. -/
def handlerOps : Connection.Item → List (Op Work)
  | .call call => guarded (.call call)
  -- the completion of `async_write` takes no lock
  | .asyncWriteDone r => [.work (.handler (.asyncWriteDone r))]
  | .readDone (some ec) => locked (.handler (.readDone (some ec)))
  | .readDone none => [.work (.handler (.readDone none))]
  | .writeTimeout timeoutKey => locked (.handler (.writeTimeout timeoutKey))
  -- who holds no reference runs no handler
  | .destroy _ => []

/-- What the frames of a connection become in the program of the party that runs them. -/
def unload (c : Connection) : Connection × List (Op Work) := ({ c with stack := [] }, c.stack.flatMap guarded)

/-- A call from a user callback: on the strand it is made at once. Another thread makes only the
aggressive ones itself and posts the rest. -/
def callbackOps {τ : Type} : Party τ → Call → List (Op Work)
  | .strand, call => guarded (.call call)
  | .sender _, .send s => if s.direct then guarded (.call (.send s)) else []
  | .sender _, _ => []

def exec {τ : Type} (env : ConnectionEnv) (p : Party τ) (c : Connection) (w : Work) (i : Connection.Input) :
    Option (Connection × List (Op Work)) :=
  match w with
  | .handler item =>
    match i with
    | .none => (Connection.begin env { c with stack := [] } item).map unload
    | _ => none
  | .frame f =>
    match f, i with
    | .reaction (call :: calls), .none => some (c, callbackOps p call ++ [.work (.frame (.reaction calls))])
    | f, i => (Connection.resume env { c with stack := [] } f i).map unload

/-! ## Steps -/

/-- The completion of `async_write`. -/
def isCompletion : Connection.Item → Bool
  | .asyncWriteDone _ => true
  | _ => false

structure Locked (τ : Type) where
  parties : Parties (Party τ) Connection Work := { shared := {} }
  /-- The last handler of the strand was the completion of `async_write`. -/
  completing : Bool := false

namespace Locked

inductive Action (τ : Type)
  /-- The strand begins a handler. -/
  | begins (i : Connection.Item)
  /-- A thread calls `aggressive_dispatch_send` or a variant of it. -/
  | sends (t : τ) (bufs : List Bytes) (cb : Bool)
  | moves (p : Party τ) (i : Connection.Input)

variable {τ : Type}

def step [DecidableEq τ] (env : ConnectionEnv) (s : Locked τ) : Action τ → Option (Locked τ)
  | .begins item =>
    if s.parties.running .strand = [] ∧ (Connection.begin env s.parties.shared item).isSome then
      some
        { parties := s.parties.setRunning .strand (handlerOps item)
          completing := isCompletion item }
    else none
  | .sends t bufs cb =>
    if s.parties.running (.sender t) = [] then
      some { s with
        parties := s.parties.setRunning (.sender t) (guarded (.call (.send { bufs, cb, direct := true }))) }
    else none
  | .moves p i =>
    match s.parties.move (exec env) p i with
    | some parties => some { s with parties }
    | none => none

/-- The completion handler of `async_write` runs. -/
def inCompletion (s : Locked τ) : Bool := s.completing ∧ s.parties.running .strand ≠ []

/-- No sender holds the lock while the completion handler of `async_write` runs. -/
def KeepsApart (s : Locked τ) : Action τ → Prop
  | .begins (.asyncWriteDone _) => s.parties.holder = none
  | .moves (.sender t) _ => (s.parties.running (.sender t)).head? = some .acquire → s.inCompletion = false
  | _ => True

instance [DecidableEq τ] (s : Locked τ) : ∀ a, Decidable (s.KeepsApart a)
  | .begins (.asyncWriteDone _) => inferInstanceAs (Decidable (_ = _))
  | .begins (.call _) => isTrue trivial
  | .begins (.readDone _) => isTrue trivial
  | .begins (.writeTimeout _) => isTrue trivial
  | .begins (.destroy _) => isTrue trivial
  | .sends .. => isTrue trivial
  | .moves .strand _ => isTrue trivial
  | .moves (.sender _) _ => inferInstanceAs (Decidable (_ → _))

/-- No two parties are both at the write side, and who is there holds the lock, but for the
completion handler of `async_write`. -/
structure Disciplined (s : Locked τ) : Prop where
  exclusive : ∀ p q, s.parties.Inside Work.touchesWriteSide p → s.parties.Inside Work.touchesWriteSide q → p = q
  held : ∀ p, s.parties.Inside Work.touchesWriteSide p →
    s.parties.holder = some p ∨ p = .strand ∧ s.inCompletion = true

/-! ## Programs stay guarded -/

theorem needsLock_of_touchesWriteSide (w : Work) (h : w.touchesWriteSide = true) : w.needsLock = true := by
  cases w with
  | handler item =>
    cases item with
    | readDone ec =>
      cases ec with
      | none => cases h
      | some ec => rfl
    | call call => cases h
    | _ => rfl
  | frame f => cases f <;> first | rfl | cases h

section Guarded

variable {env : ConnectionEnv} {p : Party τ} {c c' : Connection} {counts held : Prop} {ops : List (Op Work)}

theorem guarded_guarded (f : Frame) (h : Guarded Work.needsLock counts held ops)
    (hf : f.hasGuard = false → counts → f.needsLock = true → held) :
    Guarded Work.needsLock counts held (guarded f ++ ops) := by
  unfold guarded
  by_cases hguard : f.hasGuard = true
  · rw [if_pos hguard]
    exact Mutex.guarded_locked _ h
  · rw [if_neg hguard]
    exact Mutex.guarded_work h (hf (Bool.eq_false_iff.2 hguard))

theorem guarded_unload (h : Guarded Work.needsLock counts held ops)
    (hframes : ∀ f ∈ c'.stack, f.hasGuard = false → counts → f.needsLock = true → held) :
    Guarded Work.needsLock counts held ((unload c').2 ++ ops) :=
  Mutex.guarded_flatMap h fun f hf _ hops => guarded_guarded f hops (hframes f hf)

/-- What does not need the lock leads to nothing that needs it and has no guard of its own. -/
theorem stack_of_resume {f : Frame} {i : Connection.Input} (hf : f.needsLock = false)
    (h : Connection.resume env { c with stack := [] } f i = some c') :
    ∀ g ∈ c'.stack, g.hasGuard = false → g.needsLock = false := by
  intro g hg hguard
  cases Connection.continues_of_resume h with
  | callbacksDone res => cases hg
  | called res id ids cs =>
    simp [Connection.push, Connection.emit] at hg
    rcases hg with rfl | rfl <;> rfl
  | shutdownHandler reason cs =>
    simp [Connection.push, Connection.emit] at hg
    rw [hg]
    rfl
  | markShutdown => cases hg
  | inputHandler cs =>
    simp [Connection.push, Connection.emit] at hg
    rw [hg]
    rfl
  | reactionDone => cases hg
  | reaction call calls =>
    simp [Connection.push] at hg
    rcases hg with rfl | rfl
    · cases hguard
    · rfl
  | incBytesTxSync n => cases hg
  | incBytesTxAsync n => cases hg
  | _ => cases hf

theorem stack_of_begin {item : Connection.Item} (hitem : (Work.handler item).needsLock = false)
    (h : Connection.begin env { c with stack := [] } item = some c') :
    ∀ g ∈ c'.stack, g.hasGuard = false → g.needsLock = false := by
  intro g hg hguard
  cases Connection.enters_of_begin h with
  | call call =>
    simp [Connection.push] at hg
    rw [hg] at hguard
    cases hguard
  | read =>
    simp [Connection.push] at hg
    rcases hg with rfl | rfl
    · rfl
    · cases hguard
  | _ => cases hitem

/-- Work puts in its place what needs the lock no more than it does itself. -/
theorem guarded_exec {w : Work} {i : Connection.Input} {more : List (Op Work)} (h : exec env p c w i = some (c', more))
    (hw : counts → w.needsLock = true → held) (hops : Guarded Work.needsLock counts held ops) :
    Guarded Work.needsLock counts held (more ++ ops) := by
  have hpushed : ∀ c₁ : Connection, more = (unload c₁).2 →
      (w.needsLock = false → ∀ g ∈ c₁.stack, g.hasGuard = false → g.needsLock = false) →
      Guarded Work.needsLock counts held (more ++ ops) := by
    rintro c₁ rfl hstack
    refine guarded_unload hops fun g hg hguard hcounts hneeds => ?_
    -- work that needs the lock has it; what other work leaves needs it no more
    by_cases hw' : w.needsLock = true
    · exact hw hcounts hw'
    · have hno := hstack (Bool.eq_false_iff.2 hw') g hg hguard
      rw [hno] at hneeds
      cases hneeds
  cases w with
  | handler item =>
    cases i with
    | none =>
      obtain ⟨c₁, hbegin, heq⟩ := Option.map_eq_some_iff.1 h
      exact hpushed c₁ (congrArg Prod.snd heq).symm fun hitem => stack_of_begin hitem hbegin
    | _ => cases h
  | frame f =>
    have hresumes : ∀ (c₁ : Connection), Connection.resume env { c with stack := [] } f i = some c₁ →
        unload c₁ = (c', more) → Guarded Work.needsLock counts held (more ++ ops) := fun c₁ hresume heq =>
      hpushed c₁ (congrArg Prod.snd heq).symm fun hf => stack_of_resume hf hresume
    unfold exec at h
    dsimp only at h
    split at h
    · -- a user callback makes a call
      rename_i call calls
      cases h
      rw [List.append_assoc]
      have hrest : Guarded Work.needsLock counts held ([.work (.frame (.reaction calls))] ++ ops) :=
        Mutex.guarded_work hops fun _ hneeds => nomatch hneeds
      unfold callbackOps
      split
      · exact guarded_guarded _ hrest fun hguard => nomatch hguard
      · split
        · exact guarded_guarded _ hrest fun hguard => nomatch hguard
        · exact hrest
      · exact hrest
    · obtain ⟨c₁, hresume, heq⟩ := Option.map_eq_some_iff.1 h
      exact hresumes c₁ hresume heq

end Guarded

/-! ## The invariant -/

section Serialized

variable {env : ConnectionEnv} {s s' : Locked τ}

/-- The program of the party has to be guarded. -/
def Counts (s : Locked τ) : Party τ → Prop
  | .strand => s.inCompletion = false
  | .sender _ => True

structure Serialized (s : Locked τ) : Prop where
  guarded : ∀ p, Guarded Work.needsLock (s.Counts p) (s.parties.holder = some p) (s.parties.running p)
  completion : s.inCompletion = true → ∀ t, s.parties.holder ≠ some (.sender t)

theorem serialized_init : Serialized ({} : Locked τ) := by
  constructor
  · intro p h
    cases h
  · intro h
    cases h

theorem Serialized.disciplined (h : Serialized s) : s.Disciplined := by
  have hsender : ∀ t, s.parties.Inside Work.touchesWriteSide (.sender t) → s.parties.holder = some (.sender t) :=
    fun t ht => ht.holder needsLock_of_touchesWriteSide (h.guarded _) trivial
  have hstrand : s.parties.Inside Work.touchesWriteSide .strand → s.inCompletion = false →
      s.parties.holder = some .strand :=
    fun hin hno => hin.holder needsLock_of_touchesWriteSide (h.guarded _) hno
  have hapart : ∀ t, s.parties.Inside Work.touchesWriteSide (.sender t) →
      ¬ s.parties.Inside Work.touchesWriteSide .strand := by
    intro t ht hin
    by_cases hcompletion : s.inCompletion = true
    · exact h.completion hcompletion t (hsender t ht)
    · have hheld := hstrand hin (Bool.eq_false_iff.2 hcompletion)
      rw [hsender t ht] at hheld
      cases hheld
  constructor
  · intro p q hp hq
    cases p with
    | strand =>
      cases q with
      | strand => rfl
      | sender t => exact absurd hp (hapart t hq)
    | sender t =>
      cases q with
      | strand => exact absurd hq (hapart t hp)
      | sender t' => exact Option.some.inj ((hsender t hp).symm.trans (hsender t' hq))
  · intro p hp
    cases p with
    | strand =>
      by_cases hcompletion : s.inCompletion = true
      · exact .inr ⟨rfl, hcompletion⟩
      · exact .inl (hstrand hp (Bool.eq_false_iff.2 hcompletion))
    | sender t => exact .inl (hsender t hp)

/-- Of all handlers only the completion of `async_write` is not guarded. -/
theorem guarded_handlerOps {counts : Prop} (item : Connection.Item) (h : counts → isCompletion item = false) :
    Guarded Work.needsLock counts False (handlerOps item) := by
  have hnil : Guarded Work.needsLock counts False [] := not_false
  rw [← List.append_nil (handlerOps item)]
  cases item with
  | call call => exact Mutex.guarded_locked _ hnil
  | asyncWriteDone r => exact Mutex.guarded_work hnil fun hcounts => nomatch h hcounts
  | readDone ec =>
    cases ec with
    | none => exact Mutex.guarded_work hnil fun _ hneeds => nomatch hneeds
    | some ec => exact Mutex.guarded_locked _ hnil
  | writeTimeout timeoutKey => exact Mutex.guarded_locked _ hnil
  | destroy transferred => exact hnil

/-- What holds the handlers of the strand apart only depends on the strand. -/
theorem inCompletion_congr (hrunning : s'.parties.running .strand = s.parties.running .strand)
    (hcompleting : s'.completing = s.completing) : s'.inCompletion = s.inCompletion := by
  rw [inCompletion, inCompletion, hrunning, hcompleting]

theorem Counts.congr (hcompletion : s'.inCompletion = s.inCompletion) (p : Party τ) : s'.Counts p = s.Counts p := by
  cases p with
  | strand => exact congrArg (· = false) hcompletion
  | sender t => rfl

variable [DecidableEq τ]

theorem inCompletion_begins (parties : Parties (Party τ) Connection Work) (item : Connection.Item) :
    inCompletion ⟨parties.setRunning .strand (handlerOps item), isCompletion item⟩ = isCompletion item := by
  cases item <;> simp [inCompletion, isCompletion, handlerOps]

theorem Serialized.begins {item : Connection.Item} (h : Serialized s) (hcond : s.KeepsApart (.begins item))
    (hstep : s.step env (.begins item) = some s') : Serialized s' := by
  simp only [step] at hstep
  split at hstep
  · rename_i hidle
    cases hstep
    have hfree : ¬ s.parties.holder = some .strand := by
      have hstrand := h.guarded .strand
      rwa [hidle.1] at hstrand
    constructor
    · intro p
      cases p with
      | strand =>
        rw [Parties.setRunning_running_self]
        refine (guarded_handlerOps item fun hcounts => ?_).congr (iff_of_false not_false hfree)
        exact (inCompletion_begins s.parties item).symm.trans hcounts
      | sender t =>
        rw [Parties.setRunning_running_of_ne (by simp)]
        exact h.guarded (.sender t)
    · intro hcompletion t hheld
      rw [inCompletion_begins] at hcompletion
      cases item with
      | asyncWriteDone r =>
        have hnone : s.parties.holder = none := hcond
        exact nomatch hnone.symm.trans hheld
      | _ => cases hcompletion
  · cases hstep

theorem Serialized.sends {t : τ} {bufs : List Bytes} {cb : Bool} (h : Serialized s)
    (hstep : s.step env (.sends t bufs cb) = some s') : Serialized s' := by
  simp only [step] at hstep
  split at hstep
  · rename_i hidle
    have hstep := Option.some.inj hstep
    have hcompletion : s'.inCompletion = s.inCompletion := by
      rw [← hstep]
      exact inCompletion_congr (Parties.setRunning_running_of_ne (by simp) _) rfl
    constructor
    · intro p
      rw [Counts.congr hcompletion, ← hstep]
      by_cases hp : p = .sender t
      · subst hp
        have hnil := h.guarded (.sender t)
        rw [hidle] at hnil
        rw [Parties.setRunning_running_self, ← List.append_nil (Net.guarded _)]
        exact guarded_guarded _ hnil fun hguard => nomatch hguard
      · rw [Parties.setRunning_running_of_ne hp]
        exact h.guarded p
    · intro hc
      rw [← hstep]
      exact h.completion (hcompletion.symm.trans hc)
  · cases hstep

/-- A party that makes a step leaves the programs guarded, and no sender takes the lock from the
completion of `async_write`. -/
theorem Serialized.moves {p : Party τ} {i : Connection.Input} (h : Serialized s) (hcond : s.KeepsApart (.moves p i))
    (hstep : s.step env (.moves p i) = some s') : Serialized s' := by
  simp only [step] at hstep
  split at hstep
  · rename_i parties hmove
    have hstep := Option.some.inj hstep
    -- the completion goes on, or it is through
    have hends : s'.inCompletion = s.inCompletion ∨ p = .strand ∧ s'.parties.running .strand = [] := by
      by_cases hp : p = .strand
      · subst hp
        by_cases hnil : s'.parties.running .strand = []
        · exact .inr ⟨rfl, hnil⟩
        · left
          have hran := Parties.running_ne_nil_of_move hmove
          have hcompleting : s'.completing = s.completing := by rw [← hstep]
          simp [inCompletion, hnil, hran, hcompleting]
      · left
        refine inCompletion_congr ?_ (by rw [← hstep])
        rw [← hstep]
        exact Parties.running_of_move hmove fun heq => hp heq.symm
    constructor
    · intro q
      by_cases hq : q = p
      · subst hq
        have hguarded := Parties.guarded_of_move (h.guarded q) hmove fun a ops shared more hexec ha hops =>
          guarded_exec hexec ha hops
        rcases hends with hcompletion | ⟨rfl, hnil⟩
        · rw [Counts.congr hcompletion, ← hstep]
          exact hguarded
        · rw [← hstep] at hnil ⊢
          rw [hnil] at hguarded ⊢
          exact hguarded
      · have hguarded := (h.guarded q).congr (Parties.holder_of_move hmove hq).symm
        have hcounts : s'.Counts q = s.Counts q := by
          rcases hends with hcompletion | ⟨rfl, -⟩
          · exact Counts.congr hcompletion q
          · cases q with
            | strand => exact absurd rfl hq
            | sender t => rfl
        rw [hcounts, ← hstep, Parties.running_of_move hmove hq]
        exact hguarded
    · intro hcompletion t hheld
      have hbefore : s.inCompletion = true := by
        rcases hends with heq | ⟨-, hnil⟩
        · rwa [← heq]
        · simp [inCompletion, hnil] at hcompletion
      rw [← hstep] at hheld
      by_cases hp : p = .sender t
      · subst hp
        rcases Parties.move_cases hmove with ⟨ops, hops, -, rfl⟩ | ⟨ops, -, -, rfl⟩ | ⟨a, ops, shared, more, -, -, rfl⟩
        · have hno := hcond (by rw [hops]; rfl)
          exact nomatch hbefore.symm.trans hno
        · cases hheld
        · exact h.completion hbefore t hheld
      · exact h.completion hbefore t ((Parties.holder_of_move hmove fun heq => hp heq.symm).1 hheld)
  · cases hstep

theorem Serialized.step {a : Action τ} (h : Serialized s) (hcond : s.KeepsApart a) (hstep : s.step env a = some s') :
    Serialized s' := by
  cases a with
  | begins item => exact h.begins hcond hstep
  | sends t bufs cb => exact h.sends hstep
  | moves p i => exact h.moves hcond hstep

end Serialized

/-! ## Runs -/

/-- As long as no sender holds the lock while a completion of `async_write` is handled, no two
parties are at the write side, and who is there otherwise holds the lock. -/
theorem lock_disciplines {τ : Type} [DecidableEq τ] (env : ConnectionEnv) (actions : List (Action τ)) {s : Locked τ}
    (hcond : Along (step env) KeepsApart {} actions) (hrun : execute (step env) {} actions = some s) : s.Disciplined :=
  (execute_invariant (fun _ _ _ h hcond hstep => h.step hcond hstep) actions serialized_init hcond hrun).disciplined

/-- A write is under way, a thread sends, and the write completes. -/
def sendsThenCompletes : List (Action Nat) :=
  [.begins (.call (.send { bufs := [[1, 2, 3, 4, 5]] }))] ++ List.replicate 6 (.moves .strand .none) ++
    [.sends 0 [[9]] false] ++ List.replicate 6 (.moves (.sender 0) .none) ++
    [.begins (.asyncWriteDone ⟨none, 5⟩)] ++ List.replicate 3 (.moves .strand .none)

theorem lock_disciplines_completion :
    ∃ s, execute (step ⟨4, 64, by decide, false, false⟩) {} sendsThenCompletes = some s ∧ s.Disciplined := by
  have hruns : (execute (step ⟨4, 64, by decide, false, false⟩) {} sendsThenCompletes).isSome = true := by
    decide +kernel
  obtain ⟨s, hs⟩ := Option.isSome_iff_exists.1 hruns
  exact ⟨s, hs, lock_disciplines _ sendsThenCompletes (by decide +kernel) hs⟩

/-- The write completes while a thread that holds the lock appends its buffers. -/
theorem lock_not_held_by_completion : ∃ s, execute (step ⟨4, 64, by decide, false, false⟩) {}
    ([.begins (.call (.send { bufs := [[1, 2, 3, 4, 5]] }))] ++ List.replicate 6 (.moves .strand .none) ++
      [.begins (.asyncWriteDone ⟨none, 5⟩), .sends 0 [[9]] false] ++ List.replicate 2 (.moves (.sender 0) .none)) =
        some s ∧
    ¬ s.Disciplined := by
  obtain ⟨s, hs, hstrand, hsender⟩ := exists_execute (step ⟨4, 64, by decide, false, false⟩) {}
    ([.begins (.call (.send { bufs := [[1, 2, 3, 4, 5]] }))] ++ List.replicate 6 (.moves .strand .none) ++
      [.begins (.asyncWriteDone ⟨none, 5⟩), .sends 0 [[9]] false] ++ List.replicate 2 (.moves (.sender 0) .none))
    (fun s : Locked Nat =>
      s.parties.running .strand = [.work (.handler (.asyncWriteDone ⟨none, 5⟩))] ∧
      s.parties.running (.sender 0) = [.work (.frame (.append [[9]] true 1 false)), .release])
    (by decide +kernel)
  refine ⟨s, hs, fun h => ?_⟩
  exact nomatch h.exclusive .strand (.sender 0) ⟨_, _, hstrand, rfl⟩ ⟨_, _, hsender, rfl⟩

/-- The strand begins to handle a completion of `async_write`. -/
def Action.completes : Action τ → Bool
  | .begins item => isCompletion item
  | _ => false

theorem inCompletion_eq_false {s : Locked τ} (h : s.completing = false) : s.inCompletion = false := by
  simp [inCompletion, h]

/-- Nothing has to be kept apart from a completion that there is not. -/
theorem keepsApart_of_not_completes {s : Locked τ} {a : Action τ} (h : s.completing = false)
    (ha : a.completes = false) : s.KeepsApart a := by
  cases a with
  | begins item =>
    cases item with
    | asyncWriteDone r => cases ha
    | _ => trivial
  | sends => trivial
  | moves p i =>
    cases p with
    | strand => trivial
    | sender t => exact fun _ => inCompletion_eq_false h

theorem completing_of_step [DecidableEq τ] {env : ConnectionEnv} {s s' : Locked τ} {a : Action τ}
    (h : s.completing = false) (ha : a.completes = false) (hstep : s.step env a = some s') : s'.completing = false := by
  cases a with
  | begins item =>
    simp only [step] at hstep
    split at hstep
    · exact Option.some.inj hstep ▸ ha
    · cases hstep
  | sends t bufs cb =>
    simp only [step] at hstep
    split at hstep
    · exact Option.some.inj hstep ▸ h
    · cases hstep
  | moves p i =>
    simp only [step] at hstep
    split at hstep
    · exact Option.some.inj hstep ▸ h
    · cases hstep

/-- Where no `async_write` completes, whoever is at the write side holds the lock. -/
theorem holds_lock_without_completions [DecidableEq τ] (env : ConnectionEnv) (actions : List (Action τ)) {s : Locked τ}
    (hnone : ∀ a ∈ actions, a.completes = false) (hrun : execute (step env) {} actions = some s) {p : Party τ}
    (hinside : s.parties.Inside Work.touchesWriteSide p) : s.parties.holder = some p := by
  have hinv : s.Serialized ∧ s.completing = false := by
    refine execute_invariant (I := fun s : Locked τ => s.Serialized ∧ s.completing = false)
      (P := fun _ a => a.completes = false) ?_ actions ⟨serialized_init, rfl⟩ (Along.of_forall hnone) hrun
    intro s a s' h ha hstep
    exact ⟨h.1.step (keepsApart_of_not_completes h.2 ha) hstep, completing_of_step h.2 ha hstep⟩
  refine (hinv.1.disciplined.held p hinside).resolve_right fun hcompletion => ?_
  exact absurd hcompletion.2 (Bool.eq_false_iff.1 (inCompletion_eq_false hinv.2))

end Locked

end Opio.Net
