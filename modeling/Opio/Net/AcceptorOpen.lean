/-
`open_impl` call by call. The acceptor is open from the first call on, and what one of the later calls
throws is caught where nothing closes it again: an open that failed there leaves an acceptor that is open
and accepts nothing, and the next open takes it for one that was started.
-/
import Opio.Lib.Program
import Opio.Net.Acceptor

namespace Opio.Net

/-- The calls of `open_impl` on the asio acceptor. -/
inductive OpenStep
  /-- `m_acceptor.local_endpoint()`, for the warning that it is open already. -/
  | localEndpoint
  /-- `m_acceptor.open( m_endpoint.protocol() )`. -/
  | openProtocol
  | setOption
  | bind
  | listen
  /-- `m_acceptor.async_accept` of `accept_next`. -/
  | asyncAccept
  deriving DecidableEq, Repr

/-- Which of the calls throw when they are made. -/
abbrev Throws := OpenStep → Bool

namespace Acceptor

/-- A call on the asio acceptor throws, or has its effect. -/
def call (throws : Throws) (c : OpenStep) (effect : Acceptor → Acceptor) : EStateM OpenStep Acceptor Unit :=
  if throws c then throw c else modify effect

/-- What `open_impl` does inside of its `try`. -/
def openSteps (throws : Throws) : EStateM OpenStep Acceptor Unit := do
  if (← get).isOpen then
    call throws .localEndpoint id
    modify (callOpencloseCb (some .openAcceptorFailedAlreadyStarted))
  else
    call throws .openProtocol fun s => { s with isOpen := true }
    call throws .setOption id
    call throws .bind id
    call throws .listen id
    call throws .asyncAccept acceptNext
    modify (callOpencloseCb none)

/-- `open_impl`, with what it throws. -/
def openImplThrows (throws : Throws) (s : Acceptor) : Acceptor :=
  finalState ((MonadExcept.tryCatch (openSteps throws) fun _ =>
    modify (callOpencloseCb (some .openAcceptorFailedExceptionHappened))).run s)

/-- The calls behind the one that opens the acceptor. -/
def setupThrows (throws : Throws) : Bool :=
  throws .setOption || throws .bind || throws .listen || throws .asyncAccept

/-- What matters of it to `openImpl`. -/
def openCalls (throws : Throws) (s : Acceptor) : OpenCalls :=
  if s.isOpen then
    if throws .localEndpoint then .localEndpointThrows else .fine
  else if throws .openProtocol then .openThrows
  else if setupThrows throws then .setupThrows
  else .fine

/-! ## Opens that fail -/

/-- The open, as a step of a sequence of opens. -/
def attempt (s : Acceptor) (throws : Throws) : Option Acceptor := some (s.openImplThrows throws)

/-- The callback of the open is told of a failure. -/
def Fails (s : Acceptor) (throws : Throws) : Prop :=
  ∃ e, (s.openImplThrows throws).openCloseCbs = s.openCloseCbs ++ [some e]

/-- The open leaves the acceptor open or closed as it was, with the accepts that were outstanding. -/
def LeftAsItWas (s : Acceptor) (throws : Throws) : Prop :=
  (s.openImplThrows throws).isOpen = s.isOpen ∧ (s.openImplThrows throws).accepts.pending = s.accepts.pending

/-- The open is told to have succeeded, and has started one accept. -/
def Succeeds (s : Acceptor) (throws : Throws) : Prop :=
  (s.openImplThrows throws).openCloseCbs = s.openCloseCbs ++ [none] ∧ (s.openImplThrows throws).isOpen = true ∧
    (s.openImplThrows throws).accepts = s.accepts.start

/-- What is promised of opens that fail: none changes the acceptor, so that a closed one can be opened
after them. -/
structure CanBeRetried (s : Acceptor) (attempts : List Throws) : Prop where
  unchanged : Along attempt LeftAsItWas s attempts
  retry : s.isOpen = false → ∀ s', execute attempt s attempts = some s' → ∀ throws : Throws,
    (∀ c, throws c = false) → s'.Succeeds throws ∧ s'.accepts = s.accepts

/-! ## What an open does -/

variable {s s' : Acceptor} {throws : Throws} {attempts : List Throws}

/-- A call that throws stops the calls behind it. -/
theorem run_call_bind (throws : Throws) (c : OpenStep) (effect : Acceptor → Acceptor)
    (k : EStateM OpenStep Acceptor Unit) (s : Acceptor) :
    (call throws c effect >>= fun _ => k).run s = if throws c then .error c s else k.run (effect s) := by
  unfold call
  cases throws c <;> rfl

/-- Of an open acceptor only the endpoint is asked for. -/
theorem openImplThrows_open (hopen : s.isOpen = true) (throws : Throws) :
    s.openImplThrows throws = s.openImpl (if throws .localEndpoint then .localEndpointThrows else .fine) := by
  have hrun : (openSteps throws).run s = (call throws .localEndpoint id >>= fun _ =>
      modify (callOpencloseCb (some .openAcceptorFailedAlreadyStarted))).run s := by
    change EStateM.run (if s.isOpen = true then _ else _) s = _
    rw [if_pos hopen]
  unfold openImplThrows openImpl
  rw [run_tryCatch, hrun, run_call_bind, if_pos hopen]
  cases throws .localEndpoint <;> rfl

/-- A closed acceptor is as far as the first call that throws. -/
theorem openImplThrows_closed (hclosed : s.isOpen = false) (throws : Throws) :
    s.openImplThrows throws = s.openImpl (if throws .openProtocol then .openThrows
      else if setupThrows throws then .setupThrows else .fine) := by
  have hno : ¬ s.isOpen = true := by simp [hclosed]
  have hrun : (openSteps throws).run s = (call throws .openProtocol (fun s => { s with isOpen := true }) >>= fun _ =>
      call throws .setOption id >>= fun _ => call throws .bind id >>= fun _ => call throws .listen id >>= fun _ =>
      call throws .asyncAccept acceptNext >>= fun _ => modify (callOpencloseCb none)).run s := by
    change EStateM.run (if s.isOpen = true then _ else _) s = _
    rw [if_neg hno]
  unfold openImplThrows openImpl setupThrows
  rw [run_tryCatch, hrun, if_neg hno]
  simp only [run_call_bind]
  cases throws .openProtocol with
  | true => rfl
  | false =>
    -- behind it the acceptor is open, whichever call throws
    cases throws .setOption <;> cases throws .bind <;> cases throws .listen <;> cases throws .asyncAccept <;> rfl

/-- It is the open of the acceptor's machine. -/
theorem openImplThrows_eq (throws : Throws) (s : Acceptor) :
    s.openImplThrows throws = s.openImpl (s.openCalls throws) := by
  cases hopen : s.isOpen with
  | true => rw [openImplThrows_open hopen, openCalls, if_pos hopen]
  | false =>
    have hno : ¬ s.isOpen = true := by simp [hopen]
    rw [openImplThrows_closed hopen, openCalls, if_neg hno]

/-- An open acceptor stays as it is, and the callback is told of a failure. -/
theorem openImplThrows_started (hopen : s.isOpen = true) (throws : Throws) :
    ∃ e, s.openImplThrows throws = s.callOpencloseCb (some e) := by
  rw [openImplThrows_open hopen]
  unfold openImpl
  rw [if_pos hopen]
  cases throws .localEndpoint with
  | true => exact ⟨_, rfl⟩
  | false => exact ⟨_, rfl⟩

/-- What a closed acceptor is like after an open. -/
theorem openImplThrows_cases (hclosed : s.isOpen = false) (throws : Throws) :
    (throws .openProtocol = true ∧
      s.openImplThrows throws = s.callOpencloseCb (some .openAcceptorFailedExceptionHappened)) ∨
    (throws .openProtocol = false ∧ setupThrows throws = true ∧ s.openImplThrows throws =
      { s with isOpen := true }.callOpencloseCb (some .openAcceptorFailedExceptionHappened)) ∨
    (throws .openProtocol = false ∧ setupThrows throws = false ∧ s.openImplThrows throws =
      { s with isOpen := true, accepts := s.accepts.start }.callOpencloseCb none) := by
  have hno : ¬ s.isOpen = true := by simp [hclosed]
  rw [openImplThrows_closed hclosed]
  unfold openImpl
  rw [if_neg hno]
  cases throws .openProtocol with
  | true => exact .inl ⟨rfl, rfl⟩
  | false =>
    right
    cases setupThrows throws with
    | true => exact .inl ⟨rfl, rfl, rfl⟩
    | false => exact .inr ⟨rfl, rfl, rfl⟩

theorem fails_open (hopen : s.isOpen = true) (throws : Throws) : s.Fails throws := by
  obtain ⟨e, heq⟩ := openImplThrows_started hopen throws
  exact ⟨e, by rw [heq]; rfl⟩

theorem leftAsItWas_open (hopen : s.isOpen = true) (throws : Throws) : s.LeftAsItWas throws := by
  obtain ⟨e, heq⟩ := openImplThrows_started hopen throws
  rw [LeftAsItWas, heq]
  exact ⟨rfl, rfl⟩

/-- An open of a closed acceptor fails and leaves it as it was exactly when it stops at the first call. -/
theorem leftAsItWas_iff (hclosed : s.isOpen = false) (hfails : s.Fails throws) :
    s.LeftAsItWas throws ↔ throws .openProtocol = true := by
  obtain ⟨e, hcbs⟩ := hfails
  rcases openImplThrows_cases hclosed throws with ⟨hthrows, heq⟩ | ⟨hfine, -, heq⟩ | ⟨-, -, heq⟩
  · rw [LeftAsItWas, heq]
    exact iff_of_true ⟨rfl, rfl⟩ hthrows
  · rw [LeftAsItWas, heq, hfine, hclosed]
    refine iff_of_false ?_ (by decide)
    rintro ⟨hsame, -⟩
    cases hsame
  · rw [heq] at hcbs
    exact absurd (List.append_cancel_left hcbs) (by simp)

/-- Nothing throws, and the acceptor was closed. -/
theorem succeeds_closed (hclosed : s.isOpen = false) (hfine : ∀ c, throws c = false) : s.Succeeds throws := by
  have hsetup : setupThrows throws = false := by simp [setupThrows, hfine]
  rcases openImplThrows_cases hclosed throws with ⟨hthrows, -⟩ | ⟨-, hthrows, -⟩ | ⟨-, -, heq⟩
  · exact absurd (hthrows.symm.trans (hfine _)) (by decide)
  · exact absurd (hthrows.symm.trans hsetup) (by decide)
  · rw [Succeeds, heq]
    exact ⟨rfl, rfl, rfl⟩

/-! ## Sequences of opens -/

theorem isOpen_of_attempt (hopen : s.isOpen = true) (hstep : attempt s throws = some s') : s'.isOpen = true := by
  rw [← Option.some.inj hstep, (leftAsItWas_open hopen throws).1, hopen]

/-- What an open acceptor does on each open it does on all of them. -/
theorem along_open {P : Acceptor → Throws → Prop} (hP : ∀ s throws, s.isOpen = true → P s throws)
    (hopen : s.isOpen = true) (attempts : List Throws) : Along attempt P s attempts := by
  refine Along.of_invariant (P := fun _ _ => True) (I := fun s => s.isOpen = true)
    (fun s throws hopen _ => hP s throws hopen) ?_ attempts s hopen (Along.of_forall fun _ _ => trivial)
  rintro s throws s' hopen - hstep
  exact isOpen_of_attempt hopen hstep

theorem execute_open (hopen : s.isOpen = true) (hrun : execute attempt s attempts = some s') :
    s'.isOpen = true ∧ s'.accepts = s.accepts := by
  refine execute_invariant (P := fun _ _ => True) (I := fun s₁ => s₁.isOpen = true ∧ s₁.accepts = s.accepts) ?_
    attempts ⟨hopen, rfl⟩ (Along.of_forall fun _ _ => trivial) hrun
  rintro s₁ throws s₂ ⟨hopen₁, haccepts⟩ - hstep
  obtain ⟨e, heq⟩ := openImplThrows_started hopen₁ throws
  rw [← Option.some.inj hstep, heq]
  exact ⟨hopen₁, haccepts⟩

/-- An open that stops at its first call. -/
theorem openImplThrows_throws (hclosed : s.isOpen = false) (hthrows : throws .openProtocol = true) :
    s.openImplThrows throws = s.callOpencloseCb (some .openAcceptorFailedExceptionHappened) := by
  rcases openImplThrows_cases hclosed throws with ⟨-, heq⟩ | ⟨hfine, -⟩ | ⟨hfine, -⟩
  · exact heq
  · exact absurd (hthrows.symm.trans hfine) (by decide)
  · exact absurd (hthrows.symm.trans hfine) (by decide)

/-- A closed acceptor stays as it is, however often its open stops at the first call. -/
theorem along_closed (hclosed : s.isOpen = false) (hthrows : ∀ throws ∈ attempts, throws .openProtocol = true) :
    Along attempt LeftAsItWas s attempts := by
  refine Along.of_invariant (P := fun _ throws => throws .openProtocol = true) (I := fun s => s.isOpen = false)
    ?_ ?_ attempts s hclosed (Along.of_forall hthrows)
  · rintro s throws hclosed hthrows
    rw [LeftAsItWas, openImplThrows_throws hclosed hthrows]
    exact ⟨rfl, rfl⟩
  · rintro s throws s' hclosed hthrows hstep
    rw [← Option.some.inj hstep, openImplThrows_throws hclosed hthrows]
    exact hclosed

theorem execute_closed (hclosed : s.isOpen = false) (hthrows : ∀ throws ∈ attempts, throws .openProtocol = true)
    (hrun : execute attempt s attempts = some s') : s'.isOpen = false ∧ s'.accepts = s.accepts := by
  refine execute_invariant (P := fun _ throws => throws .openProtocol = true)
    (I := fun s₁ => s₁.isOpen = false ∧ s₁.accepts = s.accepts) ?_ attempts ⟨hclosed, rfl⟩
    (Along.of_forall hthrows) hrun
  rintro s₁ throws s₂ ⟨hclosed₁, haccepts⟩ hthrows hstep
  rw [← Option.some.inj hstep, openImplThrows_throws hclosed₁ hthrows]
  exact ⟨hclosed₁, haccepts⟩

/-- Opens that fail and leave a closed acceptor as it was each stop at their first call. -/
theorem throws_of_along : ∀ (attempts : List Throws) {s : Acceptor}, s.isOpen = false →
    Along attempt Fails s attempts → Along attempt LeftAsItWas s attempts →
      ∀ throws ∈ attempts, throws .openProtocol = true
  | [], _, _, _, _ => by rintro throws ⟨⟩
  | throws :: attempts, s, hclosed, hfails, hleft => by
    have hrest := throws_of_along attempts (hleft.1.1.trans hclosed) hfails.2 hleft.2
    exact List.forall_mem_cons.2 ⟨(leftAsItWas_iff hclosed hfails.1).1 hleft.1, hrest⟩

/-- Opens that fail can be retried exactly when the acceptor was open before, or each of them stopped before
it opened the acceptor. -/
theorem failed_opens_can_be_retried_iff (s : Acceptor) (attempts : List Throws)
    (hfails : Along attempt Fails s attempts) :
    CanBeRetried s attempts ↔ s.isOpen = true ∨ ∀ throws ∈ attempts, throws .openProtocol = true := by
  cases hopen : s.isOpen with
  | true =>
    refine iff_of_true ⟨along_open (fun _ throws h => leftAsItWas_open h throws) hopen attempts, ?_⟩ (.inl rfl)
    intro hclosed
    exact absurd (hopen.symm.trans hclosed) (by decide)
  | false =>
    constructor
    · intro h
      exact .inr (throws_of_along attempts hopen hfails h.unchanged)
    · rintro (hopen' | hthrows)
      · cases hopen'
      · refine ⟨along_closed hopen hthrows, ?_⟩
        rintro - s' hrun throws hfine
        obtain ⟨hclosed, haccepts⟩ := execute_closed hopen hthrows hrun
        exact ⟨succeeds_closed hclosed hfine, haccepts⟩

/-- Twice the acceptor could not be opened, then it is. -/
theorem failed_opens_can_be_retried_iff_twice : ∃ s' : Acceptor,
    execute attempt {} (List.replicate 2 fun c => c = .openProtocol) = some s' ∧ s'.Succeeds fun _ => false := by
  let attempts : List Throws := List.replicate 2 fun c => c = .openProtocol
  have hfails : Along attempt Fails {} attempts := ⟨⟨_, rfl⟩, ⟨_, rfl⟩, trivial⟩
  have hretry := (failed_opens_can_be_retried_iff {} attempts hfails).2 (.inr (by decide))
  exact ⟨_, rfl, (hretry.retry rfl _ rfl _ fun _ => rfl).1⟩

/-- The address is in use when the acceptor is opened first. It is free when the acceptor is opened next,
but then the acceptor is taken for one that was started, and it accepts nothing. -/
theorem failed_bind_is_started : ∃ s' : Acceptor, Along attempt Fails {} [fun c => c = .bind] ∧
    execute attempt {} [fun c => c = .bind, fun _ => false] = some s' ∧
    s'.openCloseCbs = [some .openAcceptorFailedExceptionHappened, some .openAcceptorFailedAlreadyStarted] ∧
    s'.isOpen = true ∧ s'.accepts.pending = 0 ∧ ¬ CanBeRetried {} [fun c => c = .bind] := by
  refine ⟨_, ⟨⟨_, rfl⟩, trivial⟩, rfl, rfl, rfl, rfl, ?_⟩
  intro h
  exact absurd h.unchanged.1.1 (by decide)

/-! ## What is left of an open that failed -/

/-- An acceptor that a failed open has left open stays so, and what is opened on it is told of a failure. -/
theorem started_by_failure (hclosed : s.isOpen = false) (hfine : throws .openProtocol = false)
    (hsetup : setupThrows throws = true) (attempts : List Throws) :
    Along attempt Fails s (throws :: attempts) ∧ ∀ s', execute attempt s (throws :: attempts) = some s' →
      s'.isOpen = true ∧ s'.accepts = s.accepts := by
  rcases openImplThrows_cases hclosed throws with ⟨hthrows, -⟩ | ⟨-, -, heq⟩ | ⟨-, hnone, -⟩
  · exact absurd (hfine.symm.trans hthrows) (by decide)
  · have hstep : attempt s throws = some _ := congrArg some heq
    refine ⟨⟨⟨_, by rw [heq]; rfl⟩, ?_⟩, ?_⟩
    · rw [hstep]
      exact along_open (fun _ throws h => fails_open h throws) rfl attempts
    · intro s' hrun
      rw [execute_cons hstep] at hrun
      obtain ⟨hopen, haccepts⟩ := execute_open (by rfl) hrun
      exact ⟨hopen, haccepts⟩
  · exact absurd (hnone.symm.trans hsetup) (by decide)

/-- A close brings it back: whatever the opens before it did, the next one that nothing throws in succeeds. -/
theorem succeeds_after_close (s : Acceptor) (hfine : ∀ c, throws c = false) :
    (s.closeImpl .fine).Succeeds throws := by
  refine succeeds_closed ?_ hfine
  unfold closeImpl
  split
  · rfl
  next hclosed => exact eq_false_of_ne_true hclosed

end Acceptor

end Opio.Net
