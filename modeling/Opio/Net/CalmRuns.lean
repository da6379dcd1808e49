/-
Runs in which no user callback calls back into the connection. A group is then queued with nothing
else at work, so that no send overtakes anything: the socket takes what was accepted, in order, and
all of it once nothing is being written.
-/
import Opio.Net.NestedSends

namespace Opio.Net

/-- The frame puts a group of buffers into the queue or the socket. -/
def Frame.isSending : Frame → Bool
  | .call (.send _) => true
  | .append _ _ _ _ => true
  | .aggressiveWrite _ _ _ _ => true
  | _ => false

/-- The frame has callbacks to call. -/
def Frame.isReporting : Frame → Bool
  | .runCallbacks _ _ => true
  | _ => false

theorem Frame.isSending_of_isBystander {f : Frame} (h : f.isBystander = true) : f.isSending = false := by
  cases f with
  | call call => cases call <;> first | rfl | cases h
  | _ => first | rfl | cases h

namespace Connection

variable {env : ConnectionEnv} {c c' : Connection}

/-- If the input is what a user callback does, the callback makes no calls. -/
def Input.callsNothing : Input → Bool
  | .calls cs => cs.isEmpty
  | _ => true

/-! ## One group at a time -/

/-- No callback has a call to make, a group that is being sent is all there is to do, and callbacks
are called before anything else goes on. -/
structure Calm (c : Connection) : Prop where
  silent : ∀ calls, .reaction calls ∈ c.stack → calls = []
  alone : ∀ f ∈ c.stack, f.isSending = true → c.stack = [f]
  reportsFirst : ∀ f ∈ (c.stack.dropWhile Frame.isBystander).tail, f.isReporting = false

/-- What may come in the place of a frame. -/
structure TakesPlace (f : Frame) (gs : List Frame) : Prop where
  silent : ∀ calls, .reaction calls ∈ gs → calls = []
  sending : (∀ g ∈ gs, g.isSending = false) ∨ f.isSending = true ∧ ∃ g, gs = [g]
  bystanders : f.isBystander = true → ∀ g ∈ gs, g.isBystander = true
  reportsFirst : ∀ g ∈ (gs.dropWhile Frame.isBystander).tail, g.isReporting = false

theorem isReporting_of_isBystander {f : Frame} (h : f.isBystander = true) : f.isReporting = false := by
  cases f <;> first | rfl | cases h

theorem tail_dropWhile_append (p : Frame → Bool) : ∀ (gs base : List Frame),
    (gs.dropWhile p).tail = [] ∧ (∀ g ∈ gs, p g = true) ∧ (gs ++ base).dropWhile p = base.dropWhile p ∨
      ((gs ++ base).dropWhile p).tail = (gs.dropWhile p).tail ++ base
  | [], base => .inl ⟨rfl, by simp, rfl⟩
  | g :: gs, base => by
    cases hg : p g with
    | true =>
      rw [List.cons_append, List.dropWhile_cons_of_pos hg, List.dropWhile_cons_of_pos hg]
      refine (tail_dropWhile_append p gs base).imp_left ?_
      rintro ⟨hnil, hall, heq⟩
      refine ⟨hnil, ?_, heq⟩
      simpa [hg] using hall
    | false =>
      refine .inr ?_
      rw [List.cons_append, List.dropWhile_cons_of_neg (by simp [hg]), List.dropWhile_cons_of_neg (by simp [hg])]
      rfl

theorem takesPlace_nil (f : Frame) : TakesPlace f [] := ⟨by simp, .inl (by simp), by simp, by simp⟩

theorem takesPlace_one {f g : Frame} (hf : f.isBystander = false) (hsending : f.isSending = true ∨ g.isSending = false)
    (hsilent : ∀ calls, g ≠ .reaction calls) : TakesPlace f [g] := by
  refine ⟨?_, ?_, by simp [hf], ?_⟩
  · intro calls hmem
    exact absurd (List.mem_singleton.1 hmem).symm (hsilent calls)
  · rcases hsending with hf | hg
    · exact .inr ⟨hf, g, rfl⟩
    · exact .inl (List.forall_mem_singleton.2 hg)
  · cases hg : g.isBystander <;> simp [List.dropWhile, hg]

theorem Calm.below {f : Frame} (h : Calm (c.push f)) : ∀ g ∈ c.stack, g.isSending = false := by
  intro g hg
  by_contra hne
  have hone := h.alone g (List.mem_cons_of_mem f hg) (by simpa using hne)
  rw [(List.cons.inj hone).2] at hg
  cases hg

theorem Calm.reports_below {f : Frame} (h : Calm (c.push f)) (hf : f.isBystander = false) :
    ∀ g ∈ c.stack, g.isReporting = false := by
  have hreports : ∀ g ∈ ((f :: c.stack).dropWhile Frame.isBystander).tail, g.isReporting = false := h.reportsFirst
  rw [List.dropWhile_cons_of_neg (by simp [hf])] at hreports
  exact hreports

/-- Frames that have come in the place of `f`. -/
theorem Calm.replace {f : Frame} {gs : List Frame} (h : Calm (c.push f)) (hgs : TakesPlace f gs)
    (hstack : c'.stack = gs ++ c.stack) : Calm c' := by
  constructor
  · intro calls hmem
    rw [hstack] at hmem
    rcases List.mem_append.1 hmem with hmem | hmem
    · exact hgs.silent calls hmem
    · exact h.silent calls (List.mem_cons_of_mem f hmem)
  · intro g hg hsends
    rw [hstack] at hg
    rcases List.mem_append.1 hg with hg | hg
    · rcases hgs.sending with hnone | ⟨hf, g', rfl⟩
      · rw [hnone g hg] at hsends
        cases hsends
      · have hone := h.alone f (List.mem_cons_self ..) hf
        rw [hstack, (List.cons.inj hone).2, List.mem_singleton.1 hg, List.append_nil]
    · rw [h.below g hg] at hsends
      cases hsends
  · intro g hg
    rw [hstack] at hg
    by_cases hf : f.isBystander = true
    · have hreports : ∀ g ∈ ((f :: c.stack).dropWhile Frame.isBystander).tail, g.isReporting = false := h.reportsFirst
      rw [List.dropWhile_cons_of_pos hf] at hreports
      rw [List.dropWhile_append_of_pos (hgs.bystanders hf)] at hg
      exact hreports g hg
    · have hbelow := h.reports_below (by simpa using hf)
      rcases tail_dropWhile_append Frame.isBystander gs c.stack with ⟨-, -, heq⟩ | heq
      · rw [heq] at hg
        exact hbelow g ((List.dropWhile_sublist _).subset (List.mem_of_mem_tail hg))
      · rw [heq] at hg
        exact (List.mem_append.1 hg).elim (hgs.reportsFirst g) (hbelow g)

theorem calm_of_stack (gs : List Frame) (hstack : c'.stack = gs) (hsilent : ∀ calls, .reaction calls ∉ gs)
    (hsending : (∀ g ∈ gs, g.isSending = false) ∨ ∃ g, gs = [g])
    (hreports : ∀ g ∈ (gs.dropWhile Frame.isBystander).tail, g.isReporting = false) : Calm c' := by
  constructor
  · intro calls hmem
    rw [hstack] at hmem
    exact absurd hmem (hsilent calls)
  · intro g hg hsends
    rw [hstack] at hg ⊢
    rcases hsending with hnone | ⟨g', rfl⟩
    · rw [hnone g hg] at hsends
      cases hsends
    · rw [List.mem_singleton.1 hg]
  · rw [hstack]
    exact hreports

/-- What the end of a write leaves to do, with the frame that was there before. -/
theorem afterWrite_stack (env : ConnectionEnv) (ec : Option ErrorCode) (c : Connection) {f g : Frame}
    (hf : f.isBystander = false) (hg : g.isBystander = true) (hreaction : ∀ calls, g ≠ .reaction calls) :
    ∃ gs, (afterWrite env ec c).stack = gs ++ c.stack ∧ TakesPlace f (gs ++ [g]) := by
  have hother : g.isSending = false ∧ g.isReporting = false ∧ ∀ calls, .reaction calls ≠ g :=
    ⟨Frame.isSending_of_isBystander hg, isReporting_of_isBystander hg, fun calls hcalls => hreaction calls hcalls.symm⟩
  cases ec with
  | none =>
    refine ⟨[.runCallbacks .success _, .popWritten], rfl, ⟨?_, .inl ?_, ?_, ?_⟩⟩
    · simp [hother]
    · exact List.forall_mem_cons.2 ⟨rfl, List.forall_mem_cons.2 ⟨rfl, List.forall_mem_singleton.2 hother.1⟩⟩
    · simp [hf]
    · show ∀ g' ∈ [Frame.popWritten, g], g'.isReporting = false
      exact List.forall_mem_cons.2 ⟨rfl, List.forall_mem_singleton.2 hother.2.1⟩
  | some ec =>
    -- the end of the connection leaves its frames above the callbacks of the failed write
    obtain ⟨gs, hfails⟩ := afterWrite_fails env ec c
    refine ⟨gs ++ [.runCallbacks .ioError (front c.writeQueue).sendCompletionCbs], ?_, ⟨?_, .inl ?_, ?_, ?_⟩⟩
    · rw [List.append_assoc]
      exact hfails.stack
    · intro calls hmem
      simp only [List.append_assoc, List.cons_append, List.nil_append, List.mem_append, List.mem_cons, reduceCtorEq,
        hother, List.not_mem_nil, or_false] at hmem
      exact absurd rfl ((hfails.frames.noReaction _ hmem).2 calls)
    · intro g' hg'
      rcases List.mem_append.1 hg' with hg' | hg'
      · rcases List.mem_append.1 hg' with hg' | hg'
        · exact Frame.isSending_of_isBystander (hfails.frames.bystanders g' hg')
        · rw [List.mem_singleton.1 hg']
          rfl
      · rw [List.mem_singleton.1 hg']
        exact hother.1
    · simp [hf]
    · rw [List.append_assoc, List.dropWhile_append_of_pos hfails.frames.bystanders]
      exact List.forall_mem_singleton.2 hother.2.1

theorem resume_calm {f : Frame} {i : Input} (h : Calm (c.push f)) (hi : i.callsNothing = true)
    (hstep : Resumes env c f i c') : ∃ gs, c'.stack = gs ++ c.stack ∧ TakesPlace f gs := by
  cases hstep with
  | bystander isBystander still pushed =>
    have hpushed : ∀ g, Pushed f i g → g.isBystander = true ∧ ∀ calls, g = .reaction calls → calls = [] := by
      intro g hg
      have hcalls : ∀ call calls, f ≠ .reaction (call :: calls) := by
        rintro call calls rfl
        cases h.silent _ (List.mem_cons_self ..)
      rcases hg with ⟨hg, hreaction⟩ | ⟨call, calls, hf, -⟩
      · refine ⟨hg, fun calls hcs => ?_⟩
        rcases hreaction calls hcs with hin | ⟨call, hf⟩
        · rw [hin] at hi
          exact List.isEmpty_iff.1 hi
        · exact absurd hf (hcalls call calls)
      · exact absurd hf (hcalls call calls)
    refine ⟨_, still.stack, ⟨?_, .inl ?_, ?_, ?_⟩⟩
    · intro calls hmem
      exact (hpushed _ (pushed _ hmem)).2 calls rfl
    · intro g hg
      exact Frame.isSending_of_isBystander (hpushed g (pushed g hg)).1
    · intro _ g hg
      exact (hpushed g (pushed g hg)).1
    · intro g hg
      refine isReporting_of_isBystander (hpushed g (pushed g ?_)).1
      exact (List.dropWhile_sublist _).subset (List.mem_of_mem_tail hg)
  | send s =>
    refine scheduleSend_elim s c ?accepted ?rejected ?ignored
    case accepted =>
      intro _
      exact ⟨[.append s.bufs true c.groups s.cb], rfl, takesPlace_one rfl (.inl rfl) (by simp)⟩
    case rejected =>
      intro _ _ _
      exact ⟨[.runCallbacks .rejectedScheduleSend [c.groups]], rfl, takesPlace_one rfl (.inl rfl) (by simp)⟩
    case ignored => exact fun _ _ => ⟨[], rfl, takesPlace_nil _⟩
  | append bufs beAggressive id cb =>
    refine append_elim env bufs beAggressive id cb c ?delivered ?ended ?noted ?queued ?direct ?buffered
    case delivered => exact fun _ _ _ => ⟨[.runCallbacks .success [id]], rfl, takesPlace_one rfl (.inl rfl) (by simp)⟩
    case ended => exact fun _ _ _ => ⟨[], rfl, takesPlace_nil _⟩
    case noted => exact fun _ _ _ => ⟨[.initiateWrite], rfl, takesPlace_one rfl (.inl rfl) (by simp)⟩
    case queued => exact fun _ _ _ => ⟨[.initiateWrite], rfl, takesPlace_one rfl (.inl rfl) (by simp)⟩
    case direct =>
      intro buf rest _ _ _ _
      exact ⟨[.aggressiveWrite buf rest id cb], rfl, takesPlace_one rfl (.inl rfl) (by simp)⟩
    case buffered =>
      intro buf rest _ _
      exact ⟨[.append rest false id cb], rfl, takesPlace_one rfl (.inl rfl) (by simp)⟩
  | aggressiveWrite buf bufs id cb r possible =>
    refine aggressiveWritten_elim env buf bufs id cb r c ?whole ?partly
    case whole => exact fun _ => ⟨[.append bufs true id cb], rfl, takesPlace_one rfl (.inl rfl) (by simp)⟩
    case partly => exact fun _ => ⟨[.append bufs false id cb], rfl, takesPlace_one rfl (.inl rfl) (by simp)⟩
  | initiateWrite =>
    refine initiateWrite_elim env c ?running ?nothing ?sync ?async
    case running => exact fun _ => ⟨[], rfl, takesPlace_nil _⟩
    case nothing => exact fun _ _ => ⟨[], rfl, takesPlace_nil _⟩
    case sync => exact fun _ _ _ => ⟨[.syncWrite], rfl, takesPlace_one rfl (.inr rfl) (by simp)⟩
    case async => exact fun _ _ => ⟨[], rfl, takesPlace_nil _⟩
  | syncWrite r possible =>
    refine syncWritten_elim env possible ?completed ?blocked
    case completed =>
      intro _
      obtain ⟨gs, hgs, hplace⟩ := afterWrite_stack env r.ec
        ({ c.emit (.taken ((front c.writeQueue).asioBufs.flatten.take r.transferred)) with
          writeQueue := freezeFirst c.writeQueue }.push (.incBytesTxSync r.transferred)) (f := .syncWrite)
        (g := .incBytesTxSync r.transferred) rfl rfl (by simp)
      refine ⟨gs ++ [.incBytesTxSync r.transferred], ?_, hplace⟩
      rw [List.append_assoc]
      exact hgs
    case blocked => exact fun _ _ => ⟨[], rfl, takesPlace_nil _⟩
  | called res id ids cs =>
    refine ⟨[.reaction cs, .runCallbacks res ids], rfl, ?_,
      .inl (by simp [Frame.isSending]), by simp [Frame.isBystander], by simp [List.dropWhile, Frame.isBystander]⟩
    intro calls hmem
    obtain rfl : calls = cs := by simpa using hmem
    exact List.isEmpty_iff.1 hi
  | callbacksDone res => exact ⟨[], rfl, takesPlace_nil _⟩
  | popWritten => exact ⟨[.initiateWrite], rfl, takesPlace_one rfl (.inr rfl) (by simp)⟩

theorem handleRemainigWriteQueue_stack (c : Connection) : (handleRemainigWriteQueue c).stack = c.stack := by
  unfold handleRemainigWriteQueue
  dsimp only
  split <;> rfl

theorem destroy_stack (hstack : c.stack = []) (n : Nat) : (destroy n c).stack = [] := by
  refine (handleRemainigWriteQueue_stack _).trans ?_
  split <;> exact hstack

theorem step_calm {i : Input} (h : Calm c) (hi : i.callsNothing = true) (hstep : step env c i = some c') : Calm c' := by
  rcases step_cases hstep with ⟨item, rfl, hstack, -, hbegin⟩ | ⟨f, c₀, rfl, hresume⟩
  · cases hbegin with
    | call call => exact calm_of_stack [.call call] (by rw [push, hstack]) (by simp) (.inr ⟨_, rfl⟩) (by
        cases call <;> simp [List.dropWhile, Frame.isBystander])
    | bystander still bystanders =>
      refine calm_of_stack _ (still.stack.trans (by rw [hstack, List.append_nil])) ?_ (.inl ?_) ?_
      · intro calls hmem
        exact (bystanders _ hmem).2 calls rfl
      · intro g hg
        exact Frame.isSending_of_isBystander (bystanders g hg).1
      · intro g hg
        refine isReporting_of_isBystander (bystanders g ?_).1
        exact (List.dropWhile_sublist _).subset (List.mem_of_mem_tail hg)
    | asyncWrite bufs r inFlight possible =>
      -- as if the frame of a write were resumed
      obtain ⟨gs, hgs, hplace⟩ := afterWrite_stack env r.ec
        (({ c with asyncWrite := none }.emit (.taken (bufs.flatten.take r.transferred))).push
          (.incBytesTxAsync r.transferred)) (f := .syncWrite) (g := .incBytesTxAsync r.transferred) rfl rfl (by simp)
      have hcalm : Calm (({ c with stack := [] } : Connection).push .syncWrite) :=
        calm_of_stack [.syncWrite] rfl (by simp) (.inr ⟨_, rfl⟩) (by simp [List.dropWhile, Frame.isBystander])
      refine hcalm.replace hplace ?_
      rw [List.append_assoc, List.append_nil]
      refine hgs.trans ?_
      show gs ++ .incBytesTxAsync r.transferred :: c.stack = _
      rw [hstack]
    | destroy n =>
      exact calm_of_stack [] (destroy_stack hstack n) (by simp) (.inl (by simp)) (by simp)
  · obtain ⟨gs, hgs, hplace⟩ := resume_calm h hi hresume
    exact h.replace hplace hgs

/-! ## Wire integrity -/

/-- With one group at a time there is no send while callbacks run. -/
theorem Calm.overtakesNothing (h : Calm c) (i : Input) : OvertakesNothing env c i := by
  intro _ hpop
  have hnone : ∀ f ∈ c.stack, f.isSending = false := by
    intro f hf
    by_contra hne
    have hone := h.alone f hf (by simpa using hne)
    rw [hone, List.mem_singleton] at hpop
    subst hpop
    exact hne rfl
  cases hstack : c.stack with
  | nil => trivial
  | cons f fs =>
    have hf := hnone f (by rw [hstack]; exact List.mem_cons_self ..)
    cases f with
    | call call =>
      cases call with
      | send s => cases hf
      | _ => trivial
    | append bufs beAggressive id cb => cases hf
    | aggressiveWrite buf bufs id cb => cases hf
    | _ => trivial

theorem calm_init : Calm {} := ⟨by simp, by simp, by simp⟩

/-- What holds of a connection whose callbacks call nothing. -/
theorem step_calm_holds {i : Input} (h : Calm c ∧ Holds c) (hi : i.callsNothing = true)
    (hstep : step env c i = some c') :
    Calm c' ∧ Holds c' := ⟨step_calm h.1 hi hstep, step_holds h.2 (h.1.overtakesNothing i) hstep⟩

/-- The socket takes a prefix of what was accepted, and all of it once no work item is running, no
write is running and no write has failed. -/
theorem taken_is_accepted (env : ConnectionEnv) (inputs : List Input) (c : Connection)
    (hinputs : ∀ i ∈ inputs, i.callsNothing = true) (hrun : execute (step env) {} inputs = some c) :
    taken c.log <+: accepted c.log ∧
      (c.stack = [] → c.isWriteOperationRunning = false → failedEntries c.log = [] → taken c.log = accepted c.log) := by
  have h := (execute_invariant (fun _ _ _ h hi hstep => step_calm_holds h hi hstep) inputs
    ⟨calm_init, .inl stands_init⟩ (Along.of_forall hinputs) hrun).2
  exact ⟨h.intact.order, h.whole⟩

/-- A group of three buffers: the first goes out directly, half of the second, and the rest of it
with the third by a gather write and then an asynchronous one. -/
theorem taken_is_accepted_three : ∃ inputs c, execute (step ⟨64, 64, by decide, false, false⟩) {} inputs = some c ∧
    taken c.log = [1, 2, 3, 4, 5] ∧ taken c.log = accepted c.log := by
  obtain ⟨c, hc, htaken, hstack, hrun, hfailed⟩ := exists_execute (step ⟨64, 64, by decide, false, false⟩) {}
    [.item (.call (.send { bufs := [[1], [2, 3], [4, 5]] })), .none, .none, .result ⟨none, 1⟩, .none,
      .result ⟨some .wouldBlock, 1⟩, .none, .none, .none, .result ⟨some .wouldBlock, 2⟩,
      .item (.asyncWriteDone ⟨none, 1⟩), .none, .none, .none, .none]
    (fun c => taken c.log = [1, 2, 3, 4, 5] ∧ c.stack = [] ∧ c.isWriteOperationRunning = false ∧
      failedEntries c.log = []) (by decide +kernel)
  exact ⟨_, c, hc, htaken, (taken_is_accepted _ _ c (by decide) hc).2 hstack hrun hfailed⟩

end Connection

end Opio.Net
