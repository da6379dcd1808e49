/-
The receiver of UDP messages. A start and a stop set a flag where they are called and post what is
to be done to the thread that receives, which never looks at the flag. There a completion hands its
datagram on, then all others the socket has, and starts the next receive, unless it says that its
own was called off.
-/
import Opio.Lib.AsyncOps
import Opio.Lib.LittleEndian
import Opio.Lib.Runs

namespace Opio.Net

open scoped List

/-! ## The receiver -/

/-- What a receive gives. -/
inductive ReceiveResult
  | received (datagram : Bytes)
  | operationAborted
  | wouldBlock
  | failed
  deriving DecidableEq, Repr

inductive ListenCall
  | startListening
  | stopListening
  deriving DecidableEq, Repr

/-- What a call posts. -/
inductive ListenPost
  | asyncReceive
  | cancel
  deriving DecidableEq, Repr

structure UdpMessageReceiver where
  /-- `m_receiving` -/
  receiving : Bool := false
  posted : List ListenPost := []
  /-- The receives of `m_socket`. -/
  receives : AsyncOps ReceiveResult := {}
  /-- The datagrams that were passed to `m_message_handler`. -/
  handed : List Bytes := []
  /-- How many receives were started. -/
  started : Nat := 0
  /-- `std::abort()` was called. -/
  aborted : Bool := false
  deriving DecidableEq, Repr

namespace UdpMessageReceiver

def startListening (s : UdpMessageReceiver) : UdpMessageReceiver :=
  if s.receiving then s else { s with posted := s.posted ++ [.asyncReceive], receiving := true }

def stopListening (s : UdpMessageReceiver) : UdpMessageReceiver :=
  if s.receiving then { s with receiving := false, posted := s.posted ++ [.cancel] } else s

def call (s : UdpMessageReceiver) : ListenCall → UdpMessageReceiver
  | .startListening => s.startListening
  | .stopListening => s.stopListening

def asyncReceive (s : UdpMessageReceiver) : UdpMessageReceiver :=
  { s with receives := s.receives.start, started := s.started + 1 }

/-- `m_socket.cancel()` -/
def cancel (s : UdpMessageReceiver) : UdpMessageReceiver :=
  { s with receives := s.receives.cancel .operationAborted }

/-- `m_message_handler( raw_message )` -/
def hand (s : UdpMessageReceiver) (datagram : Bytes) : UdpMessageReceiver :=
  { s with handed := s.handed ++ [datagram] }

/-- A turn of the loop in `handle_received`: what is called meanwhile, by the handler or elsewhere,
whether the handler throws, and what `receive_from` gives then. -/
structure Turn where
  calls : List ListenCall
  throws : Bool
  next : ReceiveResult
  deriving DecidableEq, Repr

/-- `handle_received`, which takes as many turns as there are datagrams. -/
def handleReceived (s : UdpMessageReceiver) : ReceiveResult → List Turn → Option UdpMessageReceiver
  | .received datagram, turn :: turns =>
    let s := turn.calls.foldl call (s.hand datagram)
    if turn.throws then some { s with aborted := true }
    else if turn.next = .wouldBlock then some s.asyncReceive
    else handleReceived s turn.next turns
  | .received _, [] => none
  | .operationAborted, _ => some s
  | _, _ => some s.asyncReceive

inductive Action
  | calls (c : ListenCall)
  /-- What was posted first is run. -/
  | runs
  /-- An outstanding receive is over. -/
  | completes (r : ReceiveResult)
  /-- A queued completion is handled. -/
  | handles (r : ReceiveResult) (turns : List Turn)
  deriving DecidableEq, Repr

def act (s : UdpMessageReceiver) : Action → Option UdpMessageReceiver
  | .calls c => some (s.call c)
  | .runs =>
    match s.posted with
    | [] => none
    | .asyncReceive :: posted => some { s with posted }.asyncReceive
    | .cancel :: posted => some { s with posted }.cancel
  | .completes r => (s.receives.complete r).map fun receives => { s with receives }
  | .handles r turns => (s.receives.take r).bind fun receives => { s with receives }.handleReceived r turns

/-- A process that was aborted does nothing. -/
def step (s : UdpMessageReceiver) (i : Action) : Option UdpMessageReceiver := if s.aborted then none else s.act i

/-! ## One loop -/

def Turn.starts (turn : Turn) : Bool := decide (.startListening ∈ turn.calls)

/-- Someone calls `start_listening`. -/
def Action.starts : Action → Bool
  | .calls c => c = .startListening
  | .handles _ turns => turns.any Turn.starts
  | _ => false

/-- What is run is not a cancel while a completion is queued that does not say it was called off. -/
def Tidy (s : UdpMessageReceiver) (i : Action) : Prop :=
  i = .runs → s.posted.head? = some .cancel → s.receives.OnlyAborted .operationAborted

instance (s : UdpMessageReceiver) (i : Action) : Decidable (Tidy s i) := by
  unfold Tidy
  infer_instance

/-- The last call was a stop, if there was one, and its cancel has run. -/
def Stopped (s : UdpMessageReceiver) : Prop := s.receiving = false ∧ s.posted = []

instance (s : UdpMessageReceiver) : Decidable s.Stopped := inferInstanceAs (Decidable (_ ∧ _))

/-- What is promised of the receive loop in a state: at most one receive is outstanding, and after a
stop whose cancel has run no datagram is passed on and no receive is started until the next start. -/
structure OneLoop (s : UdpMessageReceiver) : Prop where
  outstanding : s.receives.pending ≤ 1
  stops : s.Stopped → ∀ is s', (∀ i ∈ is, Action.starts i = false) → execute step s is = some s' →
    s'.handed = s.handed ∧ s'.started = s.started

/-- Starts and cancels take turns, from a thread that is to receive or not to what the flag says. -/
def Alternates : (phase : Bool) → List ListenPost → (receiving : Bool) → Prop
  | phase, [], receiving => phase = receiving
  | phase, p :: posted, receiving =>
    p = (if phase then .cancel else .asyncReceive) ∧ Alternates (!phase) posted receiving

/-- The invariant: there is one loop at most, and none while the thread is not to receive. -/
structure Looping (s : UdpMessageReceiver) (phase : Bool) : Prop where
  alternates : Alternates phase s.posted s.receiving
  loops : s.receives.loops .operationAborted ≤ 1
  idle : phase = false → s.receives.loops .operationAborted = 0

variable {s s' : UdpMessageReceiver} {i : Action} {phase : Bool}

theorem alternates_concat : ∀ {phase receiving : Bool} {posted : List ListenPost}, Alternates phase posted receiving →
    Alternates phase (posted ++ [if receiving then .cancel else .asyncReceive]) (!receiving)
  | phase, receiving, [], h => by
    obtain rfl : phase = receiving := h
    exact ⟨rfl, rfl⟩
  | phase, receiving, p :: posted, h => ⟨h.1, alternates_concat h.2⟩

/-! ## What a step does -/

theorem act_of_step (hstep : step s i = some s') : s.act i = some s' := by
  unfold step at hstep
  split at hstep
  · cases hstep
  · exact hstep

theorem handleReceived_aborted (s : UdpMessageReceiver) (turns : List Turn) :
    s.handleReceived .operationAborted turns = some s := by
  cases turns <;> rfl

theorem Looping.startListening (h : Looping s phase) : Looping s.startListening phase := by
  unfold UdpMessageReceiver.startListening
  split
  · exact h
  next hno =>
    have hnext := alternates_concat h.alternates
    rw [eq_false_of_ne_true hno] at hnext
    exact ⟨hnext, h.loops, h.idle⟩

theorem Looping.stopListening (h : Looping s phase) : Looping s.stopListening phase := by
  unfold UdpMessageReceiver.stopListening
  split
  next hreceiving =>
    have hnext := alternates_concat h.alternates
    rw [hreceiving] at hnext
    exact ⟨hnext, h.loops, h.idle⟩
  · exact h

theorem Looping.call (h : Looping s phase) (c : ListenCall) : Looping (s.call c) phase := by
  cases c with
  | startListening => exact h.startListening
  | stopListening => exact h.stopListening

theorem Looping.calls (h : Looping s phase) (cs : List ListenCall) :
    Looping (cs.foldl UdpMessageReceiver.call s) phase := by
  induction cs generalizing s with
  | nil => exact h
  | cons c cs ih => exact ih (h.call c)

/-- Calls leave the receives alone. -/
theorem call_receives (s : UdpMessageReceiver) (c : ListenCall) : (s.call c).receives = s.receives := by
  cases c with
  | startListening => exact (apply_ite receives ..).trans (ite_self _)
  | stopListening => exact (apply_ite receives ..).trans (ite_self _)

theorem calls_receives (cs : List ListenCall) (s : UdpMessageReceiver) : (cs.foldl call s).receives = s.receives := by
  induction cs generalizing s with
  | nil => rfl
  | cons c cs ih => exact (ih (s.call c)).trans (call_receives s c)

/-- A loop that is started where there was none. -/
theorem Looping.asyncReceive (h : Looping s phase) (hphase : phase = true)
    (hnone : s.receives.loops .operationAborted = 0) : Looping s.asyncReceive phase where
  alternates := h.alternates
  loops := Nat.le_of_eq ((AsyncOps.loops_start s.receives).trans (congrArg (· + 1) hnone))
  idle := fun hno => absurd (hphase.symm.trans hno) (by decide)

/-- The handler of the only loop starts the next receive, or none. -/
theorem Looping.handleReceived (hphase : phase = true) : ∀ {turns : List Turn} {r : ReceiveResult}
    {s : UdpMessageReceiver}, Looping s phase → s.receives.loops .operationAborted = 0 →
      s.handleReceived r turns = some s' → Looping s' phase := by
  intro turns
  induction turns with
  | nil =>
    intro r s h hnone hhandle
    cases r with
    | received datagram => cases hhandle
    | operationAborted => exact Option.some.inj hhandle ▸ h
    | wouldBlock => exact Option.some.inj hhandle ▸ h.asyncReceive hphase hnone
    | failed => exact Option.some.inj hhandle ▸ h.asyncReceive hphase hnone
  | cons turn turns ih =>
    intro r s h hnone hhandle
    cases r with
    | received datagram =>
      have hhand : Looping (s.hand datagram) phase := ⟨h.alternates, h.loops, h.idle⟩
      have hcalls := hhand.calls turn.calls
      have hnone' : (turn.calls.foldl UdpMessageReceiver.call (s.hand datagram)).receives.loops
          .operationAborted = 0 := by
        rw [calls_receives]
        exact hnone
      unfold UdpMessageReceiver.handleReceived at hhandle
      dsimp only at hhandle
      split at hhandle
      · rw [← Option.some.inj hhandle]
        exact ⟨hcalls.alternates, hcalls.loops, hcalls.idle⟩
      · split at hhandle
        · rw [← Option.some.inj hhandle]
          exact hcalls.asyncReceive hphase hnone'
        · exact ih hcalls hnone' hhandle
    | operationAborted => exact Option.some.inj hhandle ▸ h
    | wouldBlock => exact Option.some.inj hhandle ▸ h.asyncReceive hphase hnone
    | failed => exact Option.some.inj hhandle ▸ h.asyncReceive hphase hnone

/-- What is run is what the phase waits for. -/
theorem Looping.runs (h : Looping s phase) (htidy : Tidy s .runs) (hact : s.act .runs = some s') :
    Looping s' (!phase) := by
  have halternates := h.alternates
  unfold act at hact
  cases hposted : s.posted with
  | nil => simp [hposted] at hact
  | cons p posted =>
    rw [hposted] at halternates
    obtain ⟨hp, hrest⟩ := halternates
    cases phase with
    | false =>
      obtain rfl : p = .asyncReceive := hp
      simp only [hposted] at hact
      have hnext : Looping { s with posted } true := ⟨hrest, h.loops, nofun⟩
      rw [← Option.some.inj hact]
      exact hnext.asyncReceive rfl (h.idle rfl)
    | true =>
      obtain rfl : p = .cancel := hp
      simp only [hposted] at hact
      have hnone := AsyncOps.loops_cancel_eq_zero (htidy rfl (by rw [hposted]; rfl))
      rw [← Option.some.inj hact]
      exact ⟨hrest, Nat.le_trans (Nat.le_of_eq hnone) (Nat.zero_le 1), fun _ => hnone⟩

theorem Looping.complete (h : Looping s phase) {r : ReceiveResult} {receives : AsyncOps ReceiveResult}
    (hcomplete : s.receives.complete r = some receives) : Looping { s with receives } phase := by
  have hle : receives.loops .operationAborted ≤ s.receives.loops .operationAborted := AsyncOps.loops_complete hcomplete
  refine ⟨h.alternates, Nat.le_trans hle h.loops, ?_⟩
  intro hphase
  exact Nat.le_zero.1 (h.idle hphase ▸ hle)

theorem Looping.handle (h : Looping s phase) {r : ReceiveResult} {turns : List Turn} {receives : AsyncOps ReceiveResult}
    (htake : s.receives.take r = some receives) (hhandle : { s with receives }.handleReceived r turns = some s') :
    Looping s' phase := by
  by_cases hr : r = .operationAborted
  · subst hr
    have hloops := AsyncOps.loops_take_aborted htake
    rw [handleReceived_aborted] at hhandle
    rw [← Option.some.inj hhandle]
    exact ⟨h.alternates, Nat.le_trans (Nat.le_of_eq hloops) h.loops, fun hphase => hloops.trans (h.idle hphase)⟩
  · have hloops := AsyncOps.loops_take_ne hr htake
    have hle := h.loops
    have hnone : receives.loops .operationAborted = 0 := by omega
    have hphase : phase = true := by
      by_contra hno
      have hidle := h.idle (eq_false_of_ne_true hno)
      omega
    have hnext : Looping { s with receives } phase :=
      ⟨h.alternates, Nat.le_trans (Nat.le_of_eq hnone) (Nat.zero_le 1), fun _ => hnone⟩
    exact hnext.handleReceived hphase hnone hhandle

theorem Looping.step (h : Looping s phase) (htidy : Tidy s i) (hstep : step s i = some s') :
    ∃ phase', Looping s' phase' := by
  have hact := act_of_step hstep
  cases i with
  | calls c => exact ⟨phase, Option.some.inj hact ▸ h.call c⟩
  | runs => exact ⟨!phase, h.runs htidy hact⟩
  | completes r =>
    obtain ⟨receives, hcomplete, rfl⟩ := Option.map_eq_some_iff.1 hact
    exact ⟨phase, h.complete hcomplete⟩
  | handles r turns =>
    obtain ⟨receives, htake, hhandle⟩ := Option.bind_eq_some_iff.1 hact
    exact ⟨phase, h.handle htake hhandle⟩

/-! ## After a stop -/

/-- Once it was stopped, more stops change nothing. -/
theorem calls_stopped (h : s.receiving = false) {cs : List ListenCall} (hcs : .startListening ∉ cs) :
    cs.foldl call s = s := by
  induction cs with
  | nil => rfl
  | cons c cs ih =>
    rw [List.mem_cons, not_or] at hcs
    obtain ⟨hc, hcs⟩ := hcs
    cases c with
    | startListening => exact absurd rfl hc
    | stopListening =>
      have hsame : s.call .stopListening = s := if_neg (by simp [h])
      rw [List.foldl_cons, hsame]
      exact ih hcs

theorem handleReceived_stopped : ∀ {turns : List Turn} {r : ReceiveResult} {s : UdpMessageReceiver},
    s.receiving = false → turns.any Turn.starts = false → s.handleReceived r turns = some s' →
    s'.receiving = false ∧ s'.posted = s.posted := by
  intro turns
  induction turns with
  | nil =>
    intro r s h _ hhandle
    cases r with
    | received datagram => cases hhandle
    | operationAborted => exact Option.some.inj hhandle ▸ ⟨h, rfl⟩
    | wouldBlock => exact Option.some.inj hhandle ▸ ⟨h, rfl⟩
    | failed => exact Option.some.inj hhandle ▸ ⟨h, rfl⟩
  | cons turn turns ih =>
    intro r s h hturns hhandle
    rw [List.any_cons, Bool.or_eq_false_iff] at hturns
    cases r with
    | received datagram =>
      have hsame : turn.calls.foldl call (s.hand datagram) = s.hand datagram :=
        calls_stopped (s := s.hand datagram) h (of_decide_eq_false hturns.1)
      unfold handleReceived at hhandle
      dsimp only at hhandle
      rw [hsame] at hhandle
      split at hhandle
      · exact Option.some.inj hhandle ▸ ⟨h, rfl⟩
      · split at hhandle
        · exact Option.some.inj hhandle ▸ ⟨h, rfl⟩
        · exact ih (s := s.hand datagram) h hturns.2 hhandle
    | operationAborted => exact Option.some.inj hhandle ▸ ⟨h, rfl⟩
    | wouldBlock => exact Option.some.inj hhandle ▸ ⟨h, rfl⟩
    | failed => exact Option.some.inj hhandle ▸ ⟨h, rfl⟩

/-- What was posted is run, and as long as nobody calls a start nothing is posted after it. -/
theorem step_posted (h : s.receiving = false) (hi : i.starts = false) (hstep : step s i = some s') :
    s'.receiving = false ∧ s'.posted.length + (if i = .runs then 1 else 0) = s.posted.length := by
  have hact := act_of_step hstep
  cases i with
  | calls c =>
    cases c with
    | startListening => cases hi
    | stopListening =>
      have hsame : s.call .stopListening = s := if_neg (by simp [h])
      rw [← Option.some.inj hact, hsame]
      exact ⟨h, rfl⟩
  | runs =>
    unfold act at hact
    cases hposted : s.posted with
    | nil => simp [hposted] at hact
    | cons p posted =>
      cases p with
      | asyncReceive =>
        simp only [hposted] at hact
        exact Option.some.inj hact ▸ ⟨h, rfl⟩
      | cancel =>
        simp only [hposted] at hact
        exact Option.some.inj hact ▸ ⟨h, rfl⟩
  | completes r =>
    obtain ⟨receives, -, rfl⟩ := Option.map_eq_some_iff.1 hact
    exact ⟨h, rfl⟩
  | handles r turns =>
    obtain ⟨receives, -, hhandle⟩ := Option.bind_eq_some_iff.1 hact
    obtain ⟨hreceiving, hposted⟩ := handleReceived_stopped (s := { s with receives }) h hi hhandle
    exact ⟨hreceiving, congrArg List.length hposted⟩

theorem run_posted : ∀ {is : List Action} {s : UdpMessageReceiver}, s.receiving = false → (∀ i ∈ is, i.starts = false) →
    execute step s is = some s' → s'.receiving = false ∧ s'.posted.length + is.count .runs = s.posted.length := by
  intro is
  induction is with
  | nil =>
    intro s h _ hrun
    exact Option.some.inj hrun ▸ ⟨h, rfl⟩
  | cons i is ih =>
    intro s h his hrun
    obtain ⟨hi, his⟩ := List.forall_mem_cons.1 his
    rw [execute] at hrun
    cases hstep : step s i with
    | none =>
      rw [hstep] at hrun
      cases hrun
    | some s₁ =>
      rw [hstep] at hrun
      obtain ⟨hreceiving, hlength⟩ := step_posted h hi hstep
      obtain ⟨hreceiving', hlength'⟩ := ih hreceiving his hrun
      refine ⟨hreceiving', ?_⟩
      rw [List.count_cons]
      simp only [beq_iff_eq]
      omega

/-- After a stop that no start follows, the receiver counts as stopped as soon as the cancel has run,
behind all that was posted before it. -/
theorem stopped_of_cancel (h : s.receiving = true) {is : List Action} (his : ∀ i ∈ is, i.starts = false)
    (hcount : is.count .runs = s.posted.length + 1) (hrun : execute step s.stopListening is = some s') :
    s'.Stopped := by
  have hstop : s.stopListening = { s with receiving := false, posted := s.posted ++ [.cancel] } := if_pos h
  rw [hstop] at hrun
  obtain ⟨hreceiving, hlength⟩ := run_posted rfl his hrun
  rw [List.length_append, List.length_singleton] at hlength
  exact ⟨hreceiving, List.length_eq_zero_iff.1 (by omega)⟩

theorem Looping.stopped (h : Looping s phase) (hstopped : s.Stopped) : s.receives.loops .operationAborted = 0 := by
  have halternates := h.alternates
  rw [hstopped.1, hstopped.2] at halternates
  exact h.idle halternates

/-- All that is left to a receiver that was stopped is to handle the completions that were called off. -/
theorem step_stopped (hstopped : s.Stopped) (hnone : s.receives.loops .operationAborted = 0) (hi : i.starts = false)
    (hstep : step s i = some s') : s'.Stopped ∧ s'.receives.loops .operationAborted = 0 ∧
      s'.handed = s.handed ∧ s'.started = s.started := by
  have hact := act_of_step hstep
  cases i with
  | calls c =>
    cases c with
    | startListening => cases hi
    | stopListening =>
      have hsame : s.call .stopListening = s := if_neg (by simp [hstopped.1])
      rw [← Option.some.inj hact, hsame]
      exact ⟨hstopped, hnone, rfl, rfl⟩
  | runs =>
    simp only [act, hstopped.2] at hact
    cases hact
  | completes r =>
    rw [act, AsyncOps.complete_eq_none (AsyncOps.pending_eq_zero hnone)] at hact
    cases hact
  | handles r turns =>
    obtain ⟨receives, htake, hhandle⟩ := Option.bind_eq_some_iff.1 hact
    obtain rfl := AsyncOps.eq_aborted_of_take hnone htake
    rw [handleReceived_aborted] at hhandle
    rw [← Option.some.inj hhandle]
    exact ⟨hstopped, (AsyncOps.loops_take_aborted htake).trans hnone, rfl, rfl⟩

theorem run_stopped (hstopped : s.Stopped) (hnone : s.receives.loops .operationAborted = 0) {is : List Action}
    (his : ∀ i ∈ is, i.starts = false) (hrun : execute step s is = some s') :
    s'.handed = s.handed ∧ s'.started = s.started := by
  have hinv := execute_invariant (P := fun _ i => Action.starts i = false)
    (I := fun s₁ => s₁.Stopped ∧ s₁.receives.loops .operationAborted = 0 ∧
      s₁.handed = s.handed ∧ s₁.started = s.started)
    (fun s₁ i s₂ hs₁ hi hstep =>
      have hnext := step_stopped hs₁.1 hs₁.2.1 hi hstep
      ⟨hnext.1, hnext.2.1, hnext.2.2.1.trans hs₁.2.2.1, hnext.2.2.2.trans hs₁.2.2.2⟩)
    is ⟨hstopped, hnone, rfl, rfl⟩ (Along.of_forall his) hrun
  exact hinv.2.2

theorem looping_init : Looping {} false := ⟨rfl, Nat.zero_le 1, fun _ => rfl⟩

theorem Looping.oneLoop (h : Looping s phase) : OneLoop s where
  outstanding := Nat.le_trans (AsyncOps.pending_le_loops s.receives) h.loops
  stops := fun hstopped _ _ his hrun => run_stopped hstopped (h.stopped hstopped) his hrun

/-- Whatever the order of calls, posted items, datagrams and completions: if a cancel runs only while
all that is queued was called off, there is one receive loop at most, and a stop stops it. -/
theorem one_receive_loop {is : List Action} (htidy : Along step Tidy {} is) (hrun : execute step {} is = some s) :
    OneLoop s := by
  have hlooping : ∃ phase, Looping s phase :=
    execute_invariant (I := fun s => ∃ phase, Looping s phase)
      (fun _ _ _ hs hi hstep => hs.elim fun _ h => h.step hi hstep) is ⟨false, looping_init⟩ htidy hrun
  obtain ⟨phase, h⟩ := hlooping
  exact h.oneLoop

/-- Two datagrams come in one go, the handler of the second one stops the receiver, and it is started
again before the cancel has run. -/
theorem one_receive_loop_restarted : ∃ s : UdpMessageReceiver, s.handed = [[1], [2]] ∧ OneLoop s := by
  let is : List Action := [.calls .startListening, .runs, .completes (.received [1]),
    .handles (.received [1]) [⟨[], false, .received [2]⟩, ⟨[.stopListening], false, .wouldBlock⟩],
    .calls .startListening, .runs, .runs]
  obtain ⟨s, hrun, hhanded⟩ := exists_execute step {} is (fun s => s.handed = [[1], [2]]) (by decide +kernel)
  exact ⟨s, hhanded, one_receive_loop (by decide +kernel) hrun⟩

/-- A datagram is there as soon as the receiver is started, and the receiver is stopped at once: when
the cancel runs, the completion is queued, and its handler passes the datagram on and receives again. -/
theorem datagram_after_stop : ∃ is s, execute step {} is = some s ∧ ¬ OneLoop s := by
  let is : List Action := [.calls .startListening, .calls .stopListening, .runs, .completes (.received [1]), .runs]
  obtain ⟨s, hrun, hs⟩ := exists_execute step {} is
    (fun s => s.Stopped ∧
      (execute step s [.handles (.received [1]) [⟨[], false, .wouldBlock⟩]]).any (·.handed ≠ s.handed))
    (by decide +kernel)
  refine ⟨is, s, hrun, ?_⟩
  intro h
  obtain ⟨s', hrun', hhanded⟩ := exists_execute step s _ (fun s' => s'.handed ≠ s.handed) hs.2
  exact hhanded (h.stops hs.1 _ s' (List.forall_mem_singleton.2 rfl) hrun').1

/-! ## A loop that was not stopped -/

/-- A completion that was not called off starts the next receive when it is handled. -/
theorem handle_goes_on (hlive : s.aborted = false) {r : ReceiveResult} (hr : r ∈ s.receives.queued)
    (hne : r ≠ .operationAborted) : ∃ i s', i.starts = false ∧ step s i = some s' ∧ s'.started = s.started + 1 ∧
      s'.receives.pending = s.receives.pending + 1 := by
  obtain ⟨receives, htake⟩ : ∃ receives, s.receives.take r = some receives := ⟨_, if_pos hr⟩
  have hpending := AsyncOps.pending_take htake
  have hgoes : ∃ turns : List Turn, turns.any Turn.starts = false ∧
      ∃ s', { s with receives }.handleReceived r turns = some s' ∧ s'.started = s.started + 1 ∧
        s'.receives.pending = receives.pending + 1 := by
    cases r with
    | received datagram => exact ⟨[⟨[], false, .wouldBlock⟩], rfl, _, rfl, rfl, rfl⟩
    | operationAborted => exact absurd rfl hne
    | wouldBlock => exact ⟨[], rfl, _, rfl, rfl, rfl⟩
    | failed => exact ⟨[], rfl, _, rfl, rfl, rfl⟩
  obtain ⟨turns, hturns, s', hhandle, hstarted, hnext⟩ := hgoes
  refine ⟨.handles r turns, s', hturns, ?_, hstarted, hnext.trans (congrArg (· + 1) hpending)⟩
  rw [step, if_neg (by simp [hlive]), act, htake]
  exact hhandle

/-- After a cancel that is not tidy the loop goes on, next to that of the next start if there is one. -/
theorem not_tidy_goes_on (h : Looping s phase) (hno : ¬ Tidy s i) (hstep : step s i = some s') :
    ∃ is s'', execute step s' is = some s'' ∧ ¬ OneLoop s'' := by
  have hact := act_of_step hstep
  have hlive : s.aborted = false := by
    unfold step at hstep
    split at hstep
    · cases hstep
    next hlive => exact eq_false_of_ne_true hlive
  unfold Tidy AsyncOps.OnlyAborted at hno
  push Not at hno
  obtain ⟨rfl, hcancel, r, hr, hne⟩ := hno
  obtain ⟨posted, hposted⟩ : ∃ posted, s.posted = .cancel :: posted := List.head?_eq_some_iff.1 hcancel
  have halternates := h.alternates
  rw [hposted] at halternates
  simp only [act, hposted] at hact
  obtain rfl := Option.some.inj hact
  obtain ⟨hphase, hrest⟩ := halternates
  have hqueued := AsyncOps.mem_queued_cancel hr ReceiveResult.operationAborted
  cases posted with
  | nil =>
    -- no start follows: this is the state of a receiver that was stopped
    obtain ⟨i, s', hi, hstep', hstarted, -⟩ := handle_goes_on (s := { s with posted := [] }.cancel) hlive hqueued hne
    refine ⟨[], _, rfl, ?_⟩
    intro hone
    have hphase' : phase = true := by
      cases phase with
      | false => cases hphase
      | true => rfl
    have hreceiving : s.receiving = false := by
      rw [hphase'] at hrest
      exact hrest.symm
    have hrun : execute step ({ s with posted := [] }.cancel) [i] = some s' := execute_cons hstep' []
    have hsame := (hone.stops ⟨hreceiving, rfl⟩ [i] s' (List.forall_mem_singleton.2 hi) hrun).2
    exact absurd (hstarted.symm.trans hsame) (Nat.succ_ne_self _)
  | cons p posted =>
    -- the receive that is started next comes to stand beside that of the queued completion
    obtain ⟨hp, -⟩ := hrest
    have hp' : p = .asyncReceive := by
      cases phase with
      | false => cases hphase
      | true => exact hp
    subst hp'
    let s₁ : UdpMessageReceiver := { { s with posted := .asyncReceive :: posted }.cancel with posted }
    have hruns : step ({ s with posted := .asyncReceive :: posted }.cancel) .runs = some s₁.asyncReceive :=
      if_neg (by simp [UdpMessageReceiver.cancel, hlive])
    obtain ⟨i, s', -, hstep', -, hpending⟩ := handle_goes_on (s := s₁.asyncReceive) hlive hqueued hne
    refine ⟨[.runs, i], s', ?_, ?_⟩
    · exact (execute_cons hruns [i]).trans (execute_cons hstep' [])
    · intro hone
      have hle := hone.outstanding
      rw [hpending] at hle
      have htwo : s₁.asyncReceive.receives.pending = 1 := rfl
      omega

end UdpMessageReceiver

end Opio.Net
