/-
The acceptor. Each completion of an accept starts the next one, unless it says that its own was
called off, which is the only thing that ends the loop. A close calls off what is outstanding; a
completion that is queued by then goes on with a closed acceptor.
-/
import Opio.Lib.AsyncOps
import Opio.Lib.Runs

namespace Opio.Net

open scoped List

/-! ## The acceptor -/

/-- What `on_connection` is called with. -/
inductive AcceptResult
  | accepted
  | operationAborted
  | failed
  deriving DecidableEq, Repr

/-- The part of `error_codes` that is the acceptor's. -/
inductive AcceptorError
  | openAcceptorFailedAlreadyStarted
  | openAcceptorFailedExceptionHappened
  | closeAcceptorFailedNotRunning
  | closeAcceptorFailedExceptionHappened
  deriving DecidableEq, Repr

/-- Which call of `open_impl` on the asio acceptor throws. -/
inductive OpenCalls
  | fine
  | localEndpointThrows
  | openThrows
  /-- `set_option`, `bind` or `listen`. -/
  | setupThrows
  deriving DecidableEq, Repr

/-- Which call of `close_impl` on the asio acceptor throws. -/
inductive CloseCalls
  | fine
  | localEndpointThrows
  /-- The descriptor is closed all the same. -/
  | closeThrows
  deriving DecidableEq, Repr

/-- How `on_connection` gets on with a new connection. -/
inductive AcceptCalls
  | fine
  | setSocketOptionsThrows
  | onAcceptCbThrows
  deriving DecidableEq, Repr

structure Acceptor where
  isOpen : Bool := false
  /-- The accepts of `m_acceptor`. -/
  accepts : AsyncOps AcceptResult := {}
  destroyed : Bool := false
  /-- How often `m_on_accept_cb` was called. -/
  acceptCbs : Nat := 0
  /-- What `call_openclose_cb` was called with. -/
  openCloseCbs : List (Option AcceptorError) := []
  /-- How many completions were handled. -/
  handled : Nat := 0
  /-- How many accepts were started while the acceptor was closed. -/
  startedClosed : Nat := 0
  deriving DecidableEq, Repr

namespace Acceptor

def callOpencloseCb (ec : Option AcceptorError) (s : Acceptor) : Acceptor :=
  { s with openCloseCbs := s.openCloseCbs ++ [ec] }

/-- An accept on a closed acceptor fails right away, which its handler is told through the queue. -/
def acceptNext (s : Acceptor) : Acceptor :=
  if s.isOpen then { s with accepts := s.accepts.start }
  else { s with accepts := s.accepts.startOver .failed, startedClosed := s.startedClosed + 1 }

def openImpl (calls : OpenCalls) (s : Acceptor) : Acceptor :=
  if s.isOpen then
    match calls with
    | .localEndpointThrows => s.callOpencloseCb (some .openAcceptorFailedExceptionHappened)
    | _ => s.callOpencloseCb (some .openAcceptorFailedAlreadyStarted)
  else
    match calls with
    | .openThrows => s.callOpencloseCb (some .openAcceptorFailedExceptionHappened)
    | .setupThrows => { s with isOpen := true }.callOpencloseCb (some .openAcceptorFailedExceptionHappened)
    | _ => { s with isOpen := true }.acceptNext.callOpencloseCb none

/-- `m_acceptor.close()`. -/
def close (s : Acceptor) : Acceptor :=
  { s with isOpen := false, accepts := s.accepts.cancel .operationAborted }

def closeImpl (calls : CloseCalls) (s : Acceptor) : Acceptor :=
  if s.isOpen then
    match calls with
    | .fine => s.close.callOpencloseCb none
    | .localEndpointThrows => s.callOpencloseCb (some .closeAcceptorFailedExceptionHappened)
    | .closeThrows => s.close.callOpencloseCb (some .closeAcceptorFailedExceptionHappened)
  else s.callOpencloseCb (some .closeAcceptorFailedNotRunning)

/-- An exception of the callback is caught, and the next accept is started as without it. -/
def onConnection (ec : AcceptResult) (calls : AcceptCalls) (s : Acceptor) : Acceptor :=
  let s := { s with handled := s.handled + 1 }
  match ec with
  | .accepted =>
    match calls with
    | .setSocketOptionsThrows => s.acceptNext
    | _ => { s with acceptCbs := s.acceptCbs + 1 }.acceptNext
  | .operationAborted => s
  | .failed => s.acceptNext

inductive Action
  | openImpl (calls : OpenCalls)
  | closeImpl (calls : CloseCalls)
  /-- An outstanding accept is over. -/
  | completes (ec : AcceptResult)
  /-- A queued completion is handled. -/
  | handles (ec : AcceptResult) (calls : AcceptCalls)
  | destroys
  deriving DecidableEq, Repr

/-- Whatever is posted or called back finds the acceptor through a weak pointer. -/
def step (s : Acceptor) : Action → Option Acceptor
  | .openImpl calls => some (if s.destroyed then s else s.openImpl calls)
  | .closeImpl calls => some (if s.destroyed then s else s.closeImpl calls)
  | .completes ec => (s.accepts.complete ec).map fun accepts => { s with accepts }
  | .handles ec calls => (s.accepts.take ec).map fun accepts =>
      if s.destroyed then { s with accepts } else { s with accepts }.onConnection ec calls
  | .destroys => some { s.close with destroyed := true }

/-! ## One loop -/

/-- The action is a close that closes. -/
def Action.closes : Action → Bool
  | .closeImpl calls => calls ≠ .localEndpointThrows
  | _ => false

def Action.opens : Action → Bool
  | .openImpl _ => true
  | _ => false

/-- The acceptor is not closed while a completion is queued that does not say it was called off. -/
def Tidy (s : Acceptor) (i : Action) : Prop :=
  s.destroyed = false → s.isOpen = true → i.closes = true → s.accepts.OnlyAborted .operationAborted

instance (s : Acceptor) (i : Action) : Decidable (Tidy s i) := by
  unfold Tidy
  infer_instance

/-- What is promised of the accept loop in a state: at most one accept is outstanding, none was started
while the acceptor was closed, and as long as a closed acceptor is not opened it handles no more
completions than are queued. -/
structure OneLoop (s : Acceptor) : Prop where
  outstanding : s.accepts.pending ≤ 1
  startedOpen : s.startedClosed = 0
  stops : s.isOpen = false → ∀ is s', (∀ i ∈ is, Action.opens i = false) → execute step s is = some s' →
    s'.handled ≤ s.handled + s.accepts.queued.length

/-- The acceptor is done: no accept is started any more unless it is opened. -/
structure Done (s : Acceptor) : Prop where
  closed : s.isOpen = false
  idle : s.accepts.pending = 0
  ended : s.destroyed = true ∨ s.accepts.loops .operationAborted = 0

/-- The invariant: there is one loop at most, and none of a closed acceptor. -/
structure Looping (s : Acceptor) : Prop where
  loops : s.accepts.loops .operationAborted ≤ 1
  startedOpen : s.startedClosed = 0
  done : s.isOpen = false → s.Done

/-! ## What a step does -/

variable {s s' : Acceptor} {i : Action}

theorem acceptNext_open (h : s.isOpen = true) : s.acceptNext = { s with accepts := s.accepts.start } := if_pos h

theorem acceptNext_closed (h : s.isOpen = false) : s.acceptNext =
    { s with accepts := s.accepts.startOver .failed, startedClosed := s.startedClosed + 1 } := if_neg (by simp [h])

theorem openImpl_open (h : s.isOpen = true) (calls : OpenCalls) : ∃ ec, s.openImpl calls = s.callOpencloseCb ec := by
  unfold openImpl
  rw [if_pos h]
  cases calls <;> exact ⟨_, rfl⟩

/-- A closed acceptor stays closed, or is open without or with a new loop. -/
theorem openImpl_closed (h : s.isOpen = false) (calls : OpenCalls) : ∃ ec,
    s.openImpl calls = s.callOpencloseCb ec ∨
    s.openImpl calls = { s with isOpen := true }.callOpencloseCb ec ∨
    s.openImpl calls = { s with isOpen := true, accepts := s.accepts.start }.callOpencloseCb ec := by
  have hno : ¬ s.isOpen = true := by simp [h]
  unfold openImpl
  rw [if_neg hno]
  cases calls with
  | fine => exact ⟨_, .inr (.inr rfl)⟩
  | localEndpointThrows => exact ⟨_, .inr (.inr rfl)⟩
  | openThrows => exact ⟨_, .inl rfl⟩
  | setupThrows => exact ⟨_, .inr (.inl rfl)⟩

/-- A close changes nothing, or closes an open acceptor. -/
theorem closeImpl_cases (s : Acceptor) (calls : CloseCalls) : ∃ ec,
    s.closeImpl calls = s.callOpencloseCb ec ∨
    s.isOpen = true ∧ (Action.closeImpl calls).closes = true ∧ s.closeImpl calls = s.close.callOpencloseCb ec := by
  unfold closeImpl
  split
  next hopen =>
    cases calls with
    | fine => exact ⟨_, .inr ⟨hopen, rfl, rfl⟩⟩
    | localEndpointThrows => exact ⟨_, .inl rfl⟩
    | closeThrows => exact ⟨_, .inr ⟨hopen, rfl, rfl⟩⟩
  · exact ⟨_, .inl rfl⟩

/-- A completion that was called off is handled and nothing else; any other starts the next accept. -/
theorem onConnection_cases (s : Acceptor) (ec : AcceptResult) (calls : AcceptCalls) : ∃ n,
    s.onConnection ec calls =
      if ec = .operationAborted then { s with handled := s.handled + 1 }
      else { s with handled := s.handled + 1, acceptCbs := n }.acceptNext := by
  cases ec with
  | accepted => cases calls <;> exact ⟨_, rfl⟩
  | operationAborted => exact ⟨0, rfl⟩
  | failed => exact ⟨s.acceptCbs, rfl⟩

/-! ## The invariant -/

theorem looping_init : Looping {} where
  loops := Nat.zero_le 1
  startedOpen := rfl
  done := fun _ => ⟨rfl, rfl, .inr rfl⟩

theorem Done.callOpencloseCb (h : s.Done) (ec : Option AcceptorError) : (s.callOpencloseCb ec).Done :=
  ⟨h.closed, h.idle, h.ended⟩

theorem Looping.callOpencloseCb (h : Looping s) (ec : Option AcceptorError) : Looping (s.callOpencloseCb ec) :=
  ⟨h.loops, h.startedOpen, fun hclosed => (h.done hclosed).callOpencloseCb ec⟩

theorem Looping.openImpl (h : Looping s) (hlive : s.destroyed = false) (calls : OpenCalls) :
    Looping (s.openImpl calls) := by
  cases hopen : s.isOpen with
  | true =>
    obtain ⟨ec, heq⟩ := openImpl_open hopen calls
    rw [heq]
    exact h.callOpencloseCb ec
  | false =>
    have hnone : s.accepts.loops .operationAborted = 0 := by simpa [hlive] using (h.done hopen).ended
    obtain ⟨ec, heq | heq | heq⟩ := openImpl_closed hopen calls
    · rw [heq]
      exact h.callOpencloseCb ec
    · rw [heq]
      exact ⟨h.loops, h.startedOpen, nofun⟩
    · rw [heq]
      refine ⟨?_, h.startedOpen, nofun⟩
      exact Nat.le_of_eq ((AsyncOps.loops_start _).trans (congrArg (· + 1) hnone))

theorem Looping.close (h : Looping s) (honly : s.accepts.OnlyAborted .operationAborted) : Looping s.close := by
  have hnone : s.close.accepts.loops .operationAborted = 0 := AsyncOps.loops_cancel_eq_zero honly
  exact ⟨Nat.le_trans (Nat.le_of_eq hnone) (Nat.zero_le 1), h.startedOpen, fun _ => ⟨rfl, rfl, .inr hnone⟩⟩

theorem Looping.closeImpl (h : Looping s) (hlive : s.destroyed = false) {calls : CloseCalls}
    (htidy : Tidy s (.closeImpl calls)) : Looping (s.closeImpl calls) := by
  obtain ⟨ec, heq | ⟨hopen, hcloses, heq⟩⟩ := closeImpl_cases s calls
  · rw [heq]
    exact h.callOpencloseCb ec
  · rw [heq]
    exact (h.close (htidy hlive hopen hcloses)).callOpencloseCb ec

theorem Looping.complete (h : Looping s) {ec : AcceptResult} {accepts : AsyncOps AcceptResult}
    (hcomplete : s.accepts.complete ec = some accepts) : Looping { s with accepts } := by
  have hle : accepts.loops .operationAborted ≤ s.accepts.loops .operationAborted := AsyncOps.loops_complete hcomplete
  refine ⟨Nat.le_trans hle h.loops, h.startedOpen, ?_⟩
  intro hclosed
  rw [AsyncOps.complete_eq_none (h.done hclosed).idle] at hcomplete
  cases hcomplete

/-- The loop that is alive goes on: what starts the next accept was all that was left of it. -/
theorem Looping.handle (h : Looping s) (hlive : s.destroyed = false) {ec : AcceptResult}
    {accepts : AsyncOps AcceptResult} (htake : s.accepts.take ec = some accepts) (calls : AcceptCalls) :
    Looping ({ s with accepts }.onConnection ec calls) := by
  obtain ⟨n, heq⟩ := onConnection_cases { s with accepts } ec calls
  rw [heq]
  by_cases hec : ec = .operationAborted
  · subst hec
    rw [if_pos rfl]
    have hloops := AsyncOps.loops_take_aborted htake
    refine ⟨Nat.le_trans (Nat.le_of_eq hloops) h.loops, h.startedOpen, ?_⟩
    intro hclosed
    have hdone := h.done hclosed
    exact ⟨hclosed, (AsyncOps.pending_take htake).trans hdone.idle, hdone.ended.imp_right hloops.trans⟩
  · rw [if_neg hec]
    have hloops := AsyncOps.loops_take_ne hec htake
    have hopen : s.isOpen = true := by
      by_contra hclosed
      have hnone : s.accepts.loops .operationAborted = 0 := by
        simpa [hlive] using (h.done (eq_false_of_ne_true hclosed)).ended
      omega
    rw [acceptNext_open (by exact hopen)]
    refine ⟨?_, h.startedOpen, ?_⟩
    · exact Nat.le_trans (Nat.le_of_eq ((AsyncOps.loops_start _).trans hloops)) h.loops
    · intro hclosed
      exact absurd (hopen.symm.trans hclosed) (by decide)

theorem Looping.destroy (h : Looping s) : Looping { s.close with destroyed := true } where
  loops := Nat.le_trans (AsyncOps.loops_cancel_le s.accepts) h.loops
  startedOpen := h.startedOpen
  done := fun _ => ⟨rfl, rfl, .inl rfl⟩

theorem Looping.step (h : Looping s) (htidy : Tidy s i) (hstep : step s i = some s') : Looping s' := by
  cases i with
  | openImpl calls =>
    rw [← Option.some.inj hstep]
    split
    · exact h
    next hlive => exact h.openImpl (eq_false_of_ne_true hlive) calls
  | closeImpl calls =>
    rw [← Option.some.inj hstep]
    split
    · exact h
    next hlive => exact h.closeImpl (eq_false_of_ne_true hlive) htidy
  | completes ec =>
    obtain ⟨accepts, hcomplete, rfl⟩ := Option.map_eq_some_iff.1 hstep
    exact h.complete hcomplete
  | handles ec calls =>
    obtain ⟨accepts, htake, rfl⟩ := Option.map_eq_some_iff.1 hstep
    split
    next hdestroyed =>
      refine ⟨Nat.le_trans (AsyncOps.loops_take_le htake) h.loops, h.startedOpen, ?_⟩
      intro hclosed
      exact ⟨hclosed, (AsyncOps.pending_take htake).trans (h.done hclosed).idle, .inl hdestroyed⟩
    next hlive => exact h.handle (eq_false_of_ne_true hlive) htake calls
  | destroys =>
    rw [← Option.some.inj hstep]
    exact h.destroy

/-! ## After a close -/

theorem Done.close (h : s.Done) : s.close = s := by
  unfold Acceptor.close
  rw [AsyncOps.cancel_of_idle h.idle]
  exact congrArg (fun isOpen => { s with isOpen }) h.closed.symm

/-- Each completion that is handled is one of those that were queued. -/
theorem Done.step (h : s.Done) (hi : i.opens = false) (hstep : step s i = some s') :
    s'.Done ∧ s'.handled + s'.accepts.queued.length ≤ s.handled + s.accepts.queued.length := by
  have hno : ¬ s.isOpen = true := by simp [h.closed]
  cases i with
  | openImpl calls => cases hi
  | closeImpl calls =>
    rw [← Option.some.inj hstep]
    unfold closeImpl
    rw [if_neg hno]
    split
    · exact ⟨h, Nat.le_refl _⟩
    · exact ⟨h.callOpencloseCb _, Nat.le_refl _⟩
  | completes ec =>
    rw [Acceptor.step, AsyncOps.complete_eq_none h.idle] at hstep
    cases hstep
  | handles ec calls =>
    obtain ⟨accepts, htake, rfl⟩ := Option.map_eq_some_iff.1 hstep
    have hidle := (AsyncOps.pending_take htake).trans h.idle
    have hlength := AsyncOps.length_take htake
    split
    next hdestroyed =>
      refine ⟨⟨h.closed, hidle, .inl hdestroyed⟩, ?_⟩
      change s.handled + accepts.queued.length ≤ _
      omega
    next hlive =>
      have hnone : s.accepts.loops .operationAborted = 0 := by simpa [hlive] using h.ended
      obtain rfl := AsyncOps.eq_aborted_of_take hnone htake
      refine ⟨⟨h.closed, hidle, .inr ((AsyncOps.loops_take_aborted htake).trans hnone)⟩, ?_⟩
      change s.handled + 1 + accepts.queued.length ≤ _
      omega
  | destroys =>
    rw [← Option.some.inj hstep, h.close]
    exact ⟨⟨h.closed, h.idle, .inl rfl⟩, Nat.le_refl _⟩

theorem Done.run (h : s.Done) {is : List Action} (his : ∀ i ∈ is, i.opens = false)
    (hrun : execute Acceptor.step s is = some s') : s'.handled ≤ s.handled + s.accepts.queued.length := by
  have hinv := execute_invariant (P := fun _ i => Action.opens i = false)
    (I := fun s₁ => s₁.Done ∧ s₁.handled + s₁.accepts.queued.length ≤ s.handled + s.accepts.queued.length)
    (fun s₁ i s₂ hs₁ hi hstep =>
      have hnext := hs₁.1.step hi hstep
      ⟨hnext.1, Nat.le_trans hnext.2 hs₁.2⟩)
    is ⟨h, Nat.le_refl _⟩ (Along.of_forall his) hrun
  exact Nat.le_trans (Nat.le_add_right ..) hinv.2

theorem Looping.oneLoop (h : Looping s) : OneLoop s where
  outstanding := Nat.le_trans (AsyncOps.pending_le_loops s.accepts) h.loops
  startedOpen := h.startedOpen
  stops := fun hclosed _ _ his hrun => (h.done hclosed).run his hrun

/-- Whatever the order of opens, closes and completions: if the acceptor is closed only while all that
is queued was called off, there is one accept loop at most, which works on an open acceptor and stops
when it is closed. -/
theorem one_accept_loop {is : List Action} (htidy : Along step Tidy {} is) (hrun : execute step {} is = some s) :
    OneLoop s :=
  have hlooping : Looping s :=
    execute_invariant (I := Looping) (fun _ _ _ hs hi hstep => hs.step hi hstep) is looping_init htidy hrun
  hlooping.oneLoop

/-- The acceptor is opened, takes one connection, is closed, and is opened again. -/
theorem one_accept_loop_reopened : ∃ s : Acceptor, s.accepts.pending = 1 ∧ OneLoop s := by
  let is : List Action := [.openImpl .fine, .completes .accepted, .handles .accepted .fine, .closeImpl .fine,
    .openImpl .fine, .handles .operationAborted .fine]
  obtain ⟨s, hrun, hpending⟩ := exists_execute step {} is (fun s => s.accepts.pending = 1) (by decide +kernel)
  exact ⟨s, hpending, one_accept_loop (by decide +kernel) hrun⟩

/-- A connection is accepted, and before that is handled the acceptor is closed: the handler starts the
next accept all the same. -/
theorem accept_after_close : ∃ is s, execute step {} is = some s ∧ ¬ OneLoop s := by
  let is : List Action := [.openImpl .fine, .completes .accepted, .closeImpl .fine, .handles .accepted .fine]
  obtain ⟨s, hrun, hclosed⟩ := exists_execute step {} is (fun s => s.startedClosed = 1) (by decide +kernel)
  refine ⟨is, s, hrun, ?_⟩
  intro h
  exact absurd (hclosed.symm.trans h.startedOpen) (by decide)

/-! ## A loop that was not stopped -/

/-- A completion that was not called off, handled on a closed acceptor, leaves another one. -/
theorem handle_closed (hclosed : s.isOpen = false) (hlive : s.destroyed = false) {ec : AcceptResult}
    (hec : ec ∈ s.accepts.queued) (hne : ec ≠ .operationAborted) : ∃ s', step s (.handles ec .fine) = some s' ∧
      s'.isOpen = false ∧ s'.destroyed = false ∧ .failed ∈ s'.accepts.queued ∧
      s'.handled = s.handled + 1 ∧ s'.startedClosed = s.startedClosed + 1 := by
  obtain ⟨accepts, htake⟩ : ∃ accepts, s.accepts.take ec = some accepts := ⟨_, if_pos hec⟩
  obtain ⟨n, heq⟩ := onConnection_cases { s with accepts } ec .fine
  rw [if_neg hne, acceptNext_closed (by exact hclosed)] at heq
  let s' : Acceptor :=
    { s with
      accepts := accepts.startOver .failed
      acceptCbs := n
      handled := s.handled + 1
      startedClosed := s.startedClosed + 1 }
  have hstep : step s (.handles ec .fine) = some s' :=
    (congrArg (Option.map _) htake).trans (congrArg some ((if_neg (by simp [hlive])).trans heq))
  exact ⟨s', hstep, hclosed, hlive, List.mem_concat_self, rfl, rfl⟩

/-- Nothing stops the loop of a closed acceptor: it starts accepts for as long as its completions are
handled. -/
theorem closed_loop_goes_on (n : Nat) : ∀ {s : Acceptor} {ec : AcceptResult}, s.isOpen = false → s.destroyed = false →
    ec ∈ s.accepts.queued → ec ≠ .operationAborted → ∃ is s', (∀ i ∈ is, Action.opens i = false) ∧
      execute step s is = some s' ∧ s'.handled = s.handled + n ∧ s'.startedClosed = s.startedClosed + n := by
  induction n with
  | zero => exact fun _ _ _ _ => ⟨[], _, nofun, rfl, rfl, rfl⟩
  | succ n ih =>
    intro s ec hclosed hlive hec hne
    obtain ⟨s₁, hstep, hclosed₁, hlive₁, hfailed, hhandled, hstarted⟩ := handle_closed hclosed hlive hec hne
    obtain ⟨is, s', his, hrun, hhandled', hstarted'⟩ := ih hclosed₁ hlive₁ hfailed (by decide)
    refine ⟨.handles ec .fine :: is, s', List.forall_mem_cons.2 ⟨rfl, his⟩, ?_, ?_, ?_⟩
    · exact (execute_cons hstep is).trans hrun
    · omega
    · omega

/-- After a close that is not tidy there is no bound on the completions that are handled. -/
theorem not_tidy_goes_on (hno : ¬ Tidy s i) (hstep : step s i = some s') (n : Nat) : ∃ is s'',
    (∀ i ∈ is, Action.opens i = false) ∧ execute step s' is = some s'' ∧
      s''.handled = s'.handled + n ∧ s''.startedClosed = s'.startedClosed + n := by
  unfold Tidy AsyncOps.OnlyAborted at hno
  push Not at hno
  obtain ⟨hlive, hopen, hcloses, ec, hec, hne⟩ := hno
  cases i with
  | closeImpl calls =>
    have heq : s' = s.closeImpl calls := (Option.some.inj hstep).symm.trans (if_neg (by simp [hlive]))
    have hclose : ∃ r, s' = s.close.callOpencloseCb r := by
      unfold closeImpl at heq
      rw [if_pos hopen] at heq
      rw [heq]
      cases calls with
      | fine => exact ⟨_, rfl⟩
      | localEndpointThrows => cases hcloses
      | closeThrows => exact ⟨_, rfl⟩
    obtain ⟨r, rfl⟩ := hclose
    exact closed_loop_goes_on n rfl hlive (AsyncOps.mem_queued_cancel hec _) hne
  | openImpl calls => cases hcloses
  | completes ec => cases hcloses
  | handles ec calls => cases hcloses
  | destroys => cases hcloses

end Acceptor

end Opio.Net
