/-
The read loop. The flag says that the loop is wanted, not that a read is in flight: a loop that was
stopped and is started again before its last read has ended is two loops. In a run in which that does
not happen at most one read is outstanding.
-/
import Opio.Lib.Runs
import Opio.Net.Cases

namespace Opio.Net

namespace Connection

variable {env : ConnectionEnv} {c c' : Connection}

/-- The reads in flight, and the ones whose input is being handled. -/
def outstandingReads (c : Connection) : Nat := c.readsInFlight + c.stack.count .afterInput

/-- Reading is not started (again) while a read is in flight or its input is being handled. -/
def ReadNotRestarted (c : Connection) (_ : Input) : Prop :=
  c.stack.head? = some (.call .startReading) → c.readIsEnabled = false → outstandingReads c = 0

instance (c : Connection) (i : Input) : Decidable (ReadNotRestarted c i) := by
  unfold ReadNotRestarted
  infer_instance

/-! ## What leaves the reads alone -/

@[simp] theorem outstandingReads_emit (ev : Event) (c : Connection) :
    outstandingReads (c.emit ev) = outstandingReads c := rfl

@[simp] theorem outstandingReads_push (f : Frame) (c : Connection) :
    outstandingReads (c.push f) = outstandingReads c + if f = .afterInput then 1 else 0 := by
  unfold outstandingReads push
  rw [List.count_cons, Nat.add_assoc]
  simp [beq_iff_eq]

theorem outstandingReads_of_eq (hreads : c'.readsInFlight = c.readsInFlight) (hstack : c'.stack = c.stack) :
    outstandingReads c' = outstandingReads c := by
  unfold outstandingReads
  rw [hreads, hstack]

theorem outstandingReads_shutdownImpl (env : ConnectionEnv) (reason : ConnectionShutdownReason) (c : Connection) :
    outstandingReads (shutdownImpl env reason c) = outstandingReads c := by
  refine shutdownImpl_elim env reason c ?again ?first
  case again => exact fun _ => rfl
  case first =>
    intro _ c₁ hflags
    have hsame : outstandingReads c₁ = outstandingReads c := by
      rcases hflags with ⟨-, rfl⟩ | ⟨-, rfl⟩
      · exact outstandingReads_of_eq rfl rfl
      · rfl
    split
    · simp [hsame]
    · exact (outstandingReads_of_eq rfl rfl).trans hsame

theorem outstandingReads_handleIoError (env : ConnectionEnv) (ec : ErrorCode) (c : Connection) :
    outstandingReads (handleIoError env ec c) = outstandingReads c := by
  unfold handleIoError
  split
  · rfl
  · exact outstandingReads_shutdownImpl env _ c

theorem outstandingReads_afterWrite (env : ConnectionEnv) (ec : Option ErrorCode) (c : Connection) :
    outstandingReads (afterWrite env ec c) = outstandingReads c := by
  have hkey : outstandingReads { c with timeoutKey := c.timeoutKey + 1 } = outstandingReads c :=
    outstandingReads_of_eq rfl rfl
  unfold afterWrite
  cases ec with
  | none => simp [hkey]
  | some ec =>
    refine (outstandingReads_handleIoError env ec _).trans ?_
    simp [hkey]

theorem outstandingReads_scheduleSend (s : SendCall) (c : Connection) :
    outstandingReads (scheduleSend s c) = outstandingReads c := by
  have hgroups : outstandingReads { c with groups := c.groups + 1 } = outstandingReads c :=
    outstandingReads_of_eq rfl rfl
  refine scheduleSend_elim s c ?accepted ?rejected ?ignored
  all_goals
    intros
    simp [hgroups]

theorem outstandingReads_append (bufs : List Bytes) (be : Bool) (id : Nat) (cb : Bool) (c : Connection) :
    outstandingReads (append env bufs be id cb c) = outstandingReads c := by
  have hqueue : ∀ queue, outstandingReads { c with writeQueue := queue } = outstandingReads c :=
    fun queue => outstandingReads_of_eq rfl rfl
  refine append_elim env bufs be id cb c ?delivered ?ended ?noted ?queued ?direct ?buffered
  case ended => exact fun _ _ _ => rfl
  all_goals
    intros
    simp [hqueue]

theorem outstandingReads_aggressiveWritten (buf : Bytes) (bufs : List Bytes) (id : Nat) (cb : Bool) (r : WriteResult)
    (c : Connection) : outstandingReads (aggressiveWritten env buf bufs id cb r c) = outstandingReads c := by
  refine aggressiveWritten_elim env buf bufs id cb r c ?whole ?partly
  case whole =>
    intro _
    simp
  case partly =>
    intro _
    rw [outstandingReads_push]
    exact outstandingReads_of_eq rfl rfl

theorem outstandingReads_initiateWrite (c : Connection) :
    outstandingReads (initiateWriteIfNecessary env c) = outstandingReads c := by
  refine initiateWrite_elim env c ?running ?nothing ?sync ?async
  case running => exact fun _ => rfl
  case nothing => exact fun _ _ => outstandingReads_of_eq rfl rfl
  case sync =>
    intro _ _ _
    rw [outstandingReads_push]
    exact outstandingReads_of_eq rfl rfl
  case async => exact fun _ _ => outstandingReads_of_eq rfl rfl

theorem outstandingReads_syncWritten {r : WriteResult} (hr : r.PossibleSync (front c.writeQueue).totalSize) :
    outstandingReads (syncWritten env r c) = outstandingReads c := by
  refine syncWritten_elim env hr ?completed ?blocked
  case completed =>
    intro _
    refine (outstandingReads_afterWrite env r.ec _).trans ?_
    rw [outstandingReads_push]
    exact outstandingReads_of_eq rfl rfl
  case blocked => exact fun _ _ => outstandingReads_of_eq rfl rfl

theorem outstandingReads_destroy (n : Nat) (c : Connection) : outstandingReads (destroy n c) = outstandingReads c := by
  have hhandle : ∀ c₁ : Connection, outstandingReads { handleRemainigWriteQueue c₁ with destroyed := true } =
      outstandingReads c₁ := by
    intro c₁
    unfold handleRemainigWriteQueue
    dsimp only
    split <;> exact outstandingReads_of_eq rfl rfl
  unfold destroy
  cases c.asyncWrite with
  | none => exact hhandle c
  | some bufs => exact hhandle (c.emit _)

/-! ## Steps -/

/-- A step adds no read to the ones that are outstanding, unless reading is started. -/
theorem continues_reads {f : Frame} {i : Input} (hf : f = .call .startReading → c.readIsEnabled = true)
    (h : Continues env c f i c') : outstandingReads c' ≤ outstandingReads (c.push f) := by
  have hle : outstandingReads c ≤ outstandingReads (c.push f) := by
    rw [outstandingReads_push]
    exact Nat.le_add_right _ _
  cases h with
  | call call =>
    cases call with
    | send s => exact (outstandingReads_scheduleSend s c).trans_le hle
    | shutdown => exact (outstandingReads_shutdownImpl env _ c).trans_le hle
    | startReading =>
      -- reading is enabled already, and starting it again does nothing
      show outstandingReads (startReading c) ≤ _
      rw [startReading, if_pos (hf rfl)]
      exact hle
    | stopReading => exact hle
  | append bufs be id cb => exact (outstandingReads_append bufs be id cb c).trans_le hle
  | aggressiveWrite buf bufs id cb r => exact (outstandingReads_aggressiveWritten buf bufs id cb r c).trans_le hle
  | initiateWrite => exact (outstandingReads_initiateWrite c).trans_le hle
  | syncWrite r possible => exact (outstandingReads_syncWritten possible).trans_le hle
  | callbacksDone res => exact hle
  | called res id ids cs => simp
  | popWritten =>
    refine le_trans (le_of_eq ?_) hle
    rw [popWritten, outstandingReads_push]
    exact outstandingReads_of_eq rfl rfl
  | shutdownHandler reason cs => simp
  | markShutdown => exact hle
  | inputHandler cs => simp
  | afterInput =>
    rw [outstandingReads_push, if_pos rfl]
    unfold afterInput
    split
    · -- the next read takes the place of the one that was handled
      unfold initiateRead outstandingReads
      dsimp only
      omega
    · omega
  | reactionDone => exact hle
  | reaction call calls => simp
  | incBytesTxSync n => exact hle
  | incBytesTxAsync n => exact hle

theorem enters_reads {item : Item} (h : Enters env c item c') : outstandingReads c' ≤ outstandingReads c := by
  have hdone : c.readsInFlight ≠ 0 →
      outstandingReads { c with readsInFlight := c.readsInFlight - 1 } + 1 = outstandingReads c := by
    intro hflight
    unfold outstandingReads
    dsimp only
    omega
  cases h with
  | call call => simp
  | asyncWriteDone bufs r =>
    refine le_of_eq ((outstandingReads_afterWrite env r.ec _).trans ?_)
    rw [outstandingReads_push]
    exact outstandingReads_of_eq rfl rfl
  | readFailed ec inFlight =>
    rw [outstandingReads_handleIoError, ← hdone inFlight]
    omega
  | read inFlight => simp [hdone inFlight]
  | timedOut timeoutKey => exact le_of_eq (outstandingReads_shutdownImpl env _ c)
  | late timeoutKey => exact le_refl _
  | destroy n => exact le_of_eq (outstandingReads_destroy n c)

/-- At most one read is outstanding. -/
theorem step_reads {i : Input} (h : outstandingReads c ≤ 1) (hrestart : ReadNotRestarted c i)
    (hstep : step env c i = some c') : outstandingReads c' ≤ 1 := by
  rcases step_inversion hstep with ⟨item, rfl, -, -, henters⟩ | ⟨f, c₀, rfl, hcontinues⟩
  · exact (enters_reads henters).trans h
  · by_cases hstart : f = .call .startReading ∧ c₀.readIsEnabled = false
    · -- the first read of a loop
      obtain ⟨rfl, hdisabled⟩ := hstart
      have hnone : outstandingReads (c₀.push (.call .startReading)) = 0 := hrestart rfl hdisabled
      cases hcontinues
      rw [outstandingReads_push] at hnone
      simp only [exec, startReading]
      rw [if_neg (by simp [hdisabled])]
      unfold outstandingReads initiateRead at *
      dsimp only at *
      omega
    · refine (continues_reads (fun hf => ?_) hcontinues).trans h
      by_contra hne
      exact hstart ⟨hf, by simpa using hne⟩

/-- In every run in which reading is not started again while a read is in flight or its input is being
handled, at most one read is in flight, and none while input is being handled. -/
theorem one_read_outstanding (env : ConnectionEnv) (inputs : List Input) (c : Connection)
    (hrestart : Along (step env) ReadNotRestarted {} inputs) (hrun : execute (step env) {} inputs = some c) :
    c.readsInFlight ≤ 1 ∧ (.afterInput ∈ c.stack → c.readsInFlight = 0) ∧ c.stack.count .afterInput ≤ 1 := by
  have h := execute_invariant (fun _ _ _ h hi hstep => step_reads h hi hstep) inputs
    (show outstandingReads {} ≤ 1 by decide) hrestart hrun
  unfold outstandingReads at h
  refine ⟨by omega, fun hmem => ?_, by omega⟩
  have hpos := List.count_pos_iff.2 hmem
  omega

/-- The input handler stops the loop; it is started again once the handler has returned. -/
theorem one_read_outstanding_restart : ∃ c,
    execute (step ⟨64, 64, by decide, false, false⟩) {}
      [.item (.call .startReading), .none, .item (.readDone none), .calls [.stopReading], .none, .none, .none, .none,
        .item (.call .startReading), .none] = some c ∧ c.readsInFlight = 1 ∧ c.stack.count .afterInput ≤ 1 := by
  obtain ⟨c, hc, hreads⟩ := exists_execute (step ⟨64, 64, by decide, false, false⟩) {}
    [.item (.call .startReading), .none, .item (.readDone none), .calls [.stopReading], .none, .none, .none, .none,
      .item (.call .startReading), .none] (fun c => c.readsInFlight = 1) (by decide +kernel)
  exact ⟨c, hc, hreads, (one_read_outstanding _ _ c (by decide +kernel) hc).2.2⟩

/-- The loop is stopped and started again while its read is in flight: there are two reads. From within
the input handler, a read is in flight while input is being handled, and then two. -/
theorem two_reads_outstanding :
    (∃ c, execute (step ⟨64, 64, by decide, false, false⟩) {}
      [.item (.call .startReading), .none, .item (.call .stopReading), .none, .item (.call .startReading), .none] =
        some c ∧ c.readsInFlight = 2) ∧
    ∃ c, execute (step ⟨64, 64, by decide, false, false⟩) {}
      [.item (.call .startReading), .none, .item (.readDone none), .calls [.stopReading, .startReading],
        .none, .none, .none, .none] = some c ∧ .afterInput ∈ c.stack ∧ c.readsInFlight = 1 := by
  refine ⟨⟨_, rfl, ?_⟩, ⟨_, rfl, ?_, ?_⟩⟩
  · decide +kernel
  · decide +kernel
  · decide +kernel

end Connection

end Opio.Net
