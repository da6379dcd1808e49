/-
What is reported of the bytes that were transmitted. A direct write reports what the socket took as
soon as it is over, a synchronous gather write and an asynchronous one when the work item that ended
them does. Only of a gather write that would block, and that an asynchronous one goes on with, the
first part is reported nowhere.
-/
import Opio.Net.CalmRuns

namespace Opio.Net

/-! ## What is reported -/

/-- `inc_bytes_tx_sync` and `inc_bytes_tx_async`. -/
def Event.reportedBytes : Event → Nat
  | .incBytesTxSync n => n
  | .incBytesTxAsync n => n
  | _ => 0

/-- What is still to be reported. -/
def Frame.reportsBytes : Frame → Nat
  | .incBytesTxSync n => n
  | .incBytesTxAsync n => n
  | _ => 0

/-- The sum of all amounts that were reported. -/
def reportedBytes (log : List Event) : Nat := (log.map Event.reportedBytes).sum

theorem WriteResult.PossibleSync.le {size : Nat} {r : WriteResult} (h : r.PossibleSync size) :
    r.transferred ≤ size := by
  unfold WriteResult.PossibleSync at h
  split at h
  · exact Nat.le_of_eq h
  · exact Nat.le_of_lt h
  · cases h
  · exact h

theorem WriteResult.PossibleAsync.le {size : Nat} {r : WriteResult} (h : r.PossibleAsync size) :
    r.transferred ≤ size := by
  unfold WriteResult.PossibleAsync at h
  split at h
  · exact Nat.le_of_eq h
  · exact h

namespace Connection

variable {env : ConnectionEnv} {c c' : Connection}

/-- The bytes that the socket took and that were not reported nor will be. -/
def unreported (c : Connection) : Int :=
  (taken c.log).length - (reportedBytes c.log + (c.stack.map Frame.reportsBytes).sum : Nat)

/-- What a gather write that would block has transferred. -/
def partlyWritten (c : Connection) (i : Input) : Option Nat :=
  match c.stack, i with
  | .syncWrite :: _, .result ⟨some .wouldBlock, transferred⟩ => some transferred
  | _, _ => none

/-- If a gather write would block, it has transferred nothing. -/
def BlocksAtOnce (c : Connection) (i : Input) : Prop := ∀ transferred ∈ partlyWritten c i, transferred = 0

instance (c : Connection) (i : Input) : Decidable (BlocksAtOnce c i) := by
  unfold BlocksAtOnce
  infer_instance

/-! ## What the functions leave unreported -/

@[simp] theorem unreported_push (f : Frame) (c : Connection) :
    unreported (c.push f) = unreported c - f.reportsBytes := by
  change ((taken c.log).length : Int) - (reportedBytes c.log + ((f :: c.stack).map Frame.reportsBytes).sum : Nat) = _
  unfold unreported
  rw [List.map_cons, List.sum_cons]
  omega

@[simp] theorem unreported_emit (ev : Event) (c : Connection) :
    unreported (c.emit ev) = unreported c + ev.takenBytes.length - ev.reportedBytes := by
  have htaken : taken (c.log ++ [ev]) = taken c.log ++ ev.takenBytes :=
    (taken_append ..).trans (congrArg _ (List.append_nil _))
  have hreported : reportedBytes (c.log ++ [ev]) = reportedBytes c.log + ev.reportedBytes := by
    unfold reportedBytes
    rw [List.map_append, List.sum_append, List.map_singleton, List.sum_singleton]
  change ((taken (c.log ++ [ev])).length : Int) -
    (reportedBytes (c.log ++ [ev]) + (c.stack.map Frame.reportsBytes).sum : Nat) = _
  rw [htaken, hreported, List.length_append]
  unfold unreported
  omega

theorem unreported_of_eq (hlog : c'.log = c.log) (hstack : c'.stack = c.stack) : unreported c' = unreported c := by
  unfold unreported
  rw [hlog, hstack]

theorem unreported_shutdownImpl (env : ConnectionEnv) (reason : ConnectionShutdownReason) (c : Connection) :
    unreported (shutdownImpl env reason c) = unreported c := by
  refine shutdownImpl_elim env reason c ?again ?first
  case again => exact fun _ => rfl
  case first =>
    intro _ c₁ hflags
    have hsame : unreported c₁ = unreported c := by
      rcases hflags with ⟨-, rfl⟩ | ⟨-, rfl⟩
      · exact unreported_of_eq rfl rfl
      · rfl
    split
    · simp [hsame, Frame.reportsBytes]
    · exact (unreported_of_eq rfl rfl).trans hsame

theorem unreported_handleIoError (env : ConnectionEnv) (ec : ErrorCode) (c : Connection) :
    unreported (handleIoError env ec c) = unreported c := by
  unfold handleIoError
  split
  · rfl
  · exact unreported_shutdownImpl env _ c

theorem unreported_afterWrite (env : ConnectionEnv) (ec : Option ErrorCode) (c : Connection) :
    unreported (afterWrite env ec c) = unreported c := by
  have hkey : unreported { c with timeoutKey := c.timeoutKey + 1 } = unreported c := unreported_of_eq rfl rfl
  unfold afterWrite
  cases ec with
  | none => simp [hkey, Frame.reportsBytes, Event.takenBytes, Event.reportedBytes]
  | some ec =>
    refine (unreported_handleIoError env ec _).trans ?_
    simp [hkey, Frame.reportsBytes, Event.takenBytes, Event.reportedBytes]

theorem unreported_scheduleSend (s : SendCall) (c : Connection) : unreported (scheduleSend s c) = unreported c := by
  have hgroups : unreported { c with groups := c.groups + 1 } = unreported c := unreported_of_eq rfl rfl
  refine scheduleSend_elim s c ?accepted ?rejected ?ignored
  case accepted =>
    intro _
    simp [hgroups, Frame.reportsBytes, Event.takenBytes, Event.reportedBytes]
  case rejected =>
    intro _ _ _
    simp [hgroups, Frame.reportsBytes, Event.takenBytes, Event.reportedBytes]
  case ignored =>
    intro _ _
    simp [hgroups, Event.takenBytes, Event.reportedBytes]

theorem unreported_append (bufs : List Bytes) (be : Bool) (id : Nat) (cb : Bool) (c : Connection) :
    unreported (append env bufs be id cb c) = unreported c := by
  have hqueue : ∀ queue, unreported { c with writeQueue := queue } = unreported c :=
    fun queue => unreported_of_eq rfl rfl
  refine append_elim env bufs be id cb c ?delivered ?ended ?noted ?queued ?direct ?buffered
  case ended => exact fun _ _ _ => rfl
  all_goals
    intros
    simp [hqueue, Frame.reportsBytes]

/-- A direct write reports what it transferred. -/
theorem unreported_aggressiveWritten (buf : Bytes) (bufs : List Bytes) (id : Nat) (cb : Bool) {r : WriteResult}
    (hr : r.transferred ≤ buf.length) (c : Connection) :
    unreported (aggressiveWritten env buf bufs id cb r c) = unreported c := by
  have hwritten : unreported ((c.emit (.taken (buf.take r.transferred))).emit (.incBytesTxSync r.transferred)) =
      unreported c := by
    simp [Event.takenBytes, Event.reportedBytes, hr]
  refine aggressiveWritten_elim env buf bufs id cb r c ?whole ?partly
  case whole =>
    intro _
    rw [unreported_push, hwritten]
    exact Int.sub_zero _
  case partly =>
    intro _
    rw [unreported_push]
    exact (Int.sub_zero _).trans ((unreported_of_eq rfl rfl).trans hwritten)

theorem unreported_initiateWrite (c : Connection) : unreported (initiateWriteIfNecessary env c) = unreported c := by
  have hstarted : ∀ seq, unreported ({ c with writeQueue := setFront seq c.writeQueue }.emit (.writeStarted c.popped)) =
      unreported c := by
    intro seq
    refine (unreported_emit ..).trans ?_
    exact (Int.sub_zero _).trans ((Int.add_zero _).trans (unreported_of_eq rfl rfl))
  refine initiateWrite_elim env c ?running ?nothing ?sync ?async
  case running => exact fun _ => rfl
  case nothing => exact fun _ _ => unreported_of_eq rfl rfl
  case sync =>
    intro _ _ _
    rw [unreported_push]
    exact (Int.sub_zero _).trans (hstarted _)
  case async => exact fun _ _ => (unreported_of_eq rfl rfl).trans (hstarted _)

/-- What the socket took in the end of a write is left to be reported. -/
theorem unreported_taken {bs : Bytes} {n : Nat} (hn : n ≤ bs.length) (c : Connection) :
    unreported (c.emit (.taken (bs.take n))) = unreported c + n := by
  simp [Event.takenBytes, Event.reportedBytes, hn]

/-- A gather write that would block is not reported. -/
theorem unreported_syncWritten {r : WriteResult} (hr : r.PossibleSync (front c.writeQueue).totalSize) :
    unreported (syncWritten env r c) = unreported c + if r.ec = some .wouldBlock then (r.transferred : Int) else 0 := by
  have hle : r.transferred ≤ (front c.writeQueue).asioBufs.flatten.length := totalSize_eq (front c.writeQueue) ▸ hr.le
  have htaken := unreported_taken hle c
  have hcomplete : ∀ ec, unreported (completeOperationNow env ec r.transferred
      (c.emit (.taken ((front c.writeQueue).asioBufs.flatten.take r.transferred)))) = unreported c := by
    intro ec
    refine (unreported_afterWrite env ec _).trans ?_
    rw [unreported_push]
    refine (congrArg (· - _) ((unreported_of_eq rfl rfl).trans htaken)).trans ?_
    exact Int.add_sub_cancel _ _
  refine syncWritten_elim env hr ?completed ?blocked
  case completed =>
    intro hec
    rw [if_neg hec, hcomplete, Int.add_zero]
  case blocked =>
    intro hec _
    rw [if_pos hec]
    exact (unreported_of_eq rfl rfl).trans htaken

theorem unreported_asyncWritten {bufs : List Bytes} {r : WriteResult} (hr : r.PossibleAsync (bufs.map List.length).sum)
    (c : Connection) : unreported (asyncWritten env bufs r c) = unreported c := by
  have hle : r.transferred ≤ bufs.flatten.length := List.length_flatten ▸ hr.le
  unfold asyncWritten
  rw [unreported_afterWrite]
  refine (unreported_push ..).trans ((congrArg (· - _) (unreported_taken hle _)).trans ?_)
  refine (Int.add_sub_cancel _ _).trans (unreported_of_eq rfl rfl)

/-- Callbacks that are called in the end take no bytes and report none. -/
theorem unreported_destroy (hasync : c.asyncWrite = none) (n : Nat) : unreported (destroy n c) = unreported c := by
  have hcalled : ∀ (ids : List Nat) (res : SendBuffersResult) (c₁ : Connection),
      unreported { c₁ with log := c₁.log ++ ids.map (Event.called · res) } = unreported c₁ := by
    intro ids res
    induction ids with
    | nil =>
      intro c₁
      exact unreported_of_eq (List.append_nil _) rfl
    | cons id ids ih =>
      intro c₁
      have hone : unreported (c₁.emit (.called id res)) = unreported c₁ := by
        simp [Event.takenBytes, Event.reportedBytes]
      refine Eq.trans ?_ ((ih (c₁.emit (.called id res))).trans hone)
      exact unreported_of_eq (List.append_cons ..) rfl
  unfold destroy handleRemainigWriteQueue
  rw [hasync]
  dsimp only
  split
  · exact (unreported_of_eq rfl rfl).trans ((hcalled _ _ { c with log := _ }).trans (hcalled _ _ c))
  · exact unreported_of_eq rfl rfl

theorem destroy_asyncWrite (n : Nat) (c : Connection) : (destroy n c).asyncWrite = c.asyncWrite := by
  have hhandle : ∀ c₁ : Connection, (handleRemainigWriteQueue c₁).asyncWrite = c₁.asyncWrite := by
    intro c₁
    unfold handleRemainigWriteQueue
    dsimp only
    split <;> rfl
  unfold destroy
  cases hasync : c.asyncWrite with
  | none => exact (hhandle c).trans hasync
  | some bufs => exact (hhandle (c.emit _)).trans hasync

/-! ## Steps -/

/-- What a frame leaves unreported is what a gather write that would block has transferred. -/
theorem continues_unreported {f : Frame} {i : Input} (h : Continues env c f i c') :
    unreported c' = unreported (c.push f) + ((partlyWritten (c.push f) i).getD 0 : Nat) := by
  have hkept : unreported c' = unreported (c.push f) →
      unreported c' = unreported (c.push f) + ((none : Option Nat).getD 0 : Nat) :=
    fun hsame => hsame.trans (Int.add_zero _).symm
  have hplain : f.reportsBytes = 0 → unreported c' = unreported c →
      unreported c' = unreported (c.push f) + ((none : Option Nat).getD 0 : Nat) := by
    intro hf hsame
    refine hkept (hsame.trans ?_)
    rw [unreported_push, hf]
    exact (Int.sub_zero _).symm
  cases h with
  | call call =>
    refine hplain rfl ?_
    cases call with
    | send s => exact unreported_scheduleSend s c
    | shutdown => exact unreported_shutdownImpl env _ c
    | startReading =>
      show unreported (startReading c) = unreported c
      unfold startReading
      split <;> exact unreported_of_eq rfl rfl
    | stopReading => exact unreported_of_eq rfl rfl
  | append bufs be id cb => exact hplain rfl (unreported_append bufs be id cb c)
  | aggressiveWrite buf bufs id cb r possible =>
    exact hplain rfl (unreported_aggressiveWritten buf bufs id cb possible.le c)
  | initiateWrite => exact hplain rfl (unreported_initiateWrite c)
  | syncWrite r possible =>
    obtain ⟨ec, transferred⟩ := r
    rw [unreported_syncWritten possible, unreported_push]
    cases ec with
    | none => exact congrArg (· + (0 : Int)) (Int.sub_zero _).symm
    | some ec =>
      cases ec with
      | wouldBlock => exact congrArg (· + (transferred : Int)) (Int.sub_zero _).symm
      | _ => exact congrArg (· + (0 : Int)) (Int.sub_zero _).symm
  | callbacksDone res => exact hplain rfl rfl
  | called res id ids cs =>
    refine hplain rfl ?_
    simp [Frame.reportsBytes, Event.takenBytes, Event.reportedBytes]
  | popWritten =>
    refine hplain rfl ?_
    have hpopped : unreported (c.emit (.popped c.popped)) = unreported c := by
      simp [Event.takenBytes, Event.reportedBytes]
    rw [popWritten, unreported_push]
    exact (Int.sub_zero _).trans ((unreported_of_eq rfl rfl).trans hpopped)
  | shutdownHandler reason cs =>
    refine hplain rfl ?_
    simp [Frame.reportsBytes, Event.takenBytes, Event.reportedBytes]
  | markShutdown => exact hplain rfl (unreported_of_eq rfl rfl)
  | inputHandler cs =>
    refine hplain rfl ?_
    simp [Frame.reportsBytes, Event.takenBytes, Event.reportedBytes]
  | afterInput =>
    refine hplain rfl ?_
    unfold afterInput
    split <;> exact unreported_of_eq rfl rfl
  | reactionDone => exact hplain rfl rfl
  | reaction call calls =>
    refine hplain rfl ?_
    simp [Frame.reportsBytes]
  | incBytesTxSync n =>
    -- the bytes that the frame was to report it reports now
    refine hkept ?_
    simp [Frame.reportsBytes, Event.takenBytes, Event.reportedBytes]
  | incBytesTxAsync n =>
    refine hkept ?_
    simp [Frame.reportsBytes, Event.takenBytes, Event.reportedBytes]

/-- Only the bytes of a write that is in flight when the connection goes are counted by nobody. -/
theorem enters_unreported {item : Item} (hstack : c.stack = []) (h : Enters env c item c') :
    unreported c' = unreported c ∨ c'.destroyed = true ∧ c'.stack = [] ∧ c'.asyncWrite ≠ none := by
  have hread : unreported { c with readsInFlight := c.readsInFlight - 1 } = unreported c := unreported_of_eq rfl rfl
  cases h with
  | call call => exact .inl ((unreported_push ..).trans (Int.sub_zero _))
  | asyncWriteDone bufs r inFlight possible => exact .inl (unreported_asyncWritten possible c)
  | readFailed ec => exact .inl ((unreported_handleIoError env ec _).trans hread)
  | read => exact .inl (by simp [hread, Frame.reportsBytes])
  | timedOut timeoutKey => exact .inl (unreported_shutdownImpl env _ c)
  | late timeoutKey => exact .inl rfl
  | destroy n =>
    cases hasync : c.asyncWrite with
    | none => exact .inl (unreported_destroy hasync n)
    | some bufs =>
      refine .inr ⟨rfl, destroy_stack hstack n, ?_⟩
      rw [destroy_asyncWrite, hasync]
      exact Option.some_ne_none bufs

/-- The bytes that were left unreported so far are `unreported`, unless the connection went away from a
write. -/
def Reckons (c : Connection) (transferred : List Nat) : Prop :=
  unreported c = (transferred.sum : Nat) ∨ c.destroyed = true ∧ c.stack = [] ∧ c.asyncWrite ≠ none

theorem step_reckons {i : Input} {transferred : List Nat} (h : Reckons c transferred)
    (hstep : step env c i = some c') : Reckons c' (transferred ++ (partlyWritten c i).toList) := by
  have hsum : (transferred ++ (partlyWritten c i).toList).sum = transferred.sum + (partlyWritten c i).getD 0 := by
    cases partlyWritten c i <;> simp
  rcases step_inversion hstep with ⟨item, rfl, hstack, halive, henters⟩ | ⟨f, c₀, rfl, hcontinues⟩
  · have hnone : partlyWritten c (.item item) = none := by
      unfold partlyWritten
      rw [hstack]
    rw [hnone, Option.toList_none, List.append_nil]
    have hreckons := h.resolve_right fun hgone => absurd (halive.symm.trans hgone.1) Bool.false_ne_true
    rcases enters_unreported hstack henters with hsame | hgone
    · exact .inl (hsame.trans hreckons)
    · exact .inr hgone
  · have hreckons := h.resolve_right fun hgone => absurd hgone.2.1 (List.cons_ne_nil f c₀.stack)
    refine .inl ?_
    rw [continues_unreported hcontinues, hreckons, hsum]
    exact (Int.natCast_add ..).symm

/-- Once nothing is being written and all completions were handled, all bytes the socket took were
reported if and only if every gather write that would block had transferred nothing. -/
theorem transmit_stats_iff (env : ConnectionEnv) {inputs : List Input} (hrun : execute (step env) {} inputs = some c)
    (hstack : c.stack = []) (hasync : c.asyncWrite = none) :
    reportedBytes c.log = (taken c.log).length ↔ Along (step env) BlocksAtOnce {} inputs := by
  have hall : Along (step env) (fun _ _ => True) {} inputs := Along.of_forall fun _ _ => trivial
  have hreckons : Reckons c ([] ++ collect (step env) partlyWritten {} inputs) :=
    execute_collect (I := Reckons) (fun _ _ _ _ h _ hstep => step_reckons h hstep) inputs (.inl rfl) hall hrun
  rw [List.nil_append] at hreckons
  have hsum := hreckons.resolve_right fun hgone => hgone.2.2 hasync
  have hzero : (collect (step env) partlyWritten {} inputs).sum = 0 ↔ Along (step env) BlocksAtOnce {} inputs :=
    List.sum_eq_zero_iff_forall_eq_nat.trans forall_mem_collect
  unfold unreported at hsum
  rw [hstack] at hsum
  rw [← hzero]
  simp only [List.map_nil, List.sum_nil] at hsum
  omega

/-- The socket is full when a buffer is sent, and has room for it as soon as it is queued. -/
theorem transmit_stats_sync : ∃ c : Connection, taken c.log = [1, 2] ∧ reportedBytes c.log = 2 := by
  let env : ConnectionEnv := ⟨64, 64, by decide, false, false⟩
  let inputs : List Input := [.item (.call (.send { bufs := [[1, 2]] })), .none, .none, .result ⟨some .wouldBlock, 0⟩,
    .none, .none, .result ⟨none, 2⟩, .none, .none, .none, .none]
  obtain ⟨c, hrun, htaken, hstack, hasync⟩ := exists_execute (step env) {} inputs
    (fun c => taken c.log = [1, 2] ∧ c.stack = [] ∧ c.asyncWrite = none) (by decide +kernel)
  have hiff := transmit_stats_iff env hrun hstack hasync
  exact ⟨c, htaken, (hiff.2 (by decide +kernel)).trans (congrArg List.length htaken)⟩

/-- The synchronous write of a queued buffer takes its first byte, the asynchronous one the second, and
only the second is reported. -/
theorem partial_write_unreported : ∃ (env : ConnectionEnv) (inputs : List Input) (c : Connection),
    (∀ i ∈ inputs, i.callsNothing = true) ∧ execute (step env) {} inputs = some c ∧ c.stack = [] ∧
      c.isWriteOperationRunning = false ∧ c.asyncWrite = none ∧ reportedBytes c.log ≠ (taken c.log).length := by
  let env : ConnectionEnv := ⟨64, 64, by decide, false, false⟩
  let inputs : List Input := [.item (.call (.send { bufs := [[1, 2]] })), .none, .none, .result ⟨some .wouldBlock, 0⟩,
    .none, .none, .result ⟨some .wouldBlock, 1⟩, .item (.asyncWriteDone ⟨none, 1⟩), .none, .none, .none, .none]
  obtain ⟨c, hrun, hc⟩ := exists_execute (step env) {} inputs (fun c => c.stack = [] ∧
    c.isWriteOperationRunning = false ∧ c.asyncWrite = none ∧ reportedBytes c.log ≠ (taken c.log).length)
    (by decide +kernel)
  exact ⟨env, inputs, c, by decide, hrun, hc⟩

end Connection

end Opio.Net
