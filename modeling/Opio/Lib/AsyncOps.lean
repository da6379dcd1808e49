/-
The asynchronous operations of one object. An operation is outstanding until it is over; its
completion then waits in a queue for its handler to run, where a cancel no longer reaches it. Some
results end the loop of whoever starts the next operation from the handler of the last one, all
others keep it alive.
-/
import Mathlib.Tactic.Common
import Mathlib.Data.List.Count

namespace Opio

variable {ρ : Type}

structure AsyncOps (ρ : Type) where
  pending : Nat := 0
  /-- The results of the operations that are over and whose handlers have not run. -/
  queued : List ρ := []
  deriving DecidableEq, Repr

namespace AsyncOps

/-! ## Operations -/

def start (o : AsyncOps ρ) : AsyncOps ρ := { o with pending := o.pending + 1 }

/-- An operation that is over as soon as it is started. -/
def startOver (r : ρ) (o : AsyncOps ρ) : AsyncOps ρ := { o with queued := o.queued ++ [r] }

def complete (r : ρ) (o : AsyncOps ρ) : Option (AsyncOps ρ) :=
  if 0 < o.pending then some { pending := o.pending - 1, queued := o.queued ++ [r] } else none

/-- The outstanding operations are over with the result that says so; what is queued stays. -/
def cancel (aborted : ρ) (o : AsyncOps ρ) : AsyncOps ρ :=
  { pending := 0, queued := o.queued ++ List.replicate o.pending aborted }

variable [DecidableEq ρ]

/-- The handler of a completion runs. -/
def take (r : ρ) (o : AsyncOps ρ) : Option (AsyncOps ρ) :=
  if r ∈ o.queued then some { o with queued := o.queued.erase r } else none

/-! ## Loops -/

variable (aborted : ρ)

/-- The loops that are alive: each has an operation outstanding or a completion that will start the
next one. -/
def loops (o : AsyncOps ρ) : Nat := o.pending + o.queued.countP (· ≠ aborted)

/-- All that is queued says that its operation was called off. -/
def OnlyAborted (o : AsyncOps ρ) : Prop := ∀ r ∈ o.queued, r = aborted

instance (o : AsyncOps ρ) : Decidable (o.OnlyAborted aborted) :=
  inferInstanceAs (Decidable (∀ r ∈ o.queued, r = aborted))

variable {aborted} {o o' : AsyncOps ρ} {r : ρ}

theorem pending_le_loops (o : AsyncOps ρ) : o.pending ≤ o.loops aborted := Nat.le_add_right ..

@[simp] theorem loops_start (o : AsyncOps ρ) : o.start.loops aborted = o.loops aborted + 1 := by
  unfold loops start
  exact Nat.add_right_comm ..

theorem loops_complete (h : o.complete r = some o') : o'.loops aborted ≤ o.loops aborted := by
  unfold complete at h
  split at h
  · obtain rfl := Option.some.inj h
    have hone : [r].countP (· ≠ aborted) ≤ 1 := List.countP_le_length
    change o.pending - 1 + (o.queued ++ [r]).countP (· ≠ aborted) ≤ o.pending + o.queued.countP (· ≠ aborted)
    rw [List.countP_append]
    omega
  · cases h

theorem loops_take (aborted : ρ) (h : o.take r = some o') :
    o'.loops aborted + (if r = aborted then 0 else 1) = o.loops aborted := by
  unfold take at h
  split at h
  next hr =>
    obtain rfl := Option.some.inj h
    have hcount := (List.perm_cons_erase hr).countP_eq (· ≠ aborted)
    rw [List.countP_cons] at hcount
    unfold loops
    rw [hcount]
    by_cases hra : r = aborted
    · simp [hra]
    · simp [hra, Nat.add_assoc]
  · cases h

theorem loops_take_le (h : o.take r = some o') : o'.loops aborted ≤ o.loops aborted :=
  loops_take aborted h ▸ Nat.le_add_right ..

theorem loops_take_aborted (h : o.take aborted = some o') : o'.loops aborted = o.loops aborted := by
  have hloops := loops_take aborted h
  rwa [if_pos rfl] at hloops

theorem loops_take_ne (hr : r ≠ aborted) (h : o.take r = some o') : o'.loops aborted + 1 = o.loops aborted := by
  have hloops := loops_take aborted h
  rwa [if_neg hr] at hloops

/-- What a cancel leaves are the completions that were queued. -/
@[simp] theorem loops_cancel (o : AsyncOps ρ) : (o.cancel aborted).loops aborted = o.queued.countP (· ≠ aborted) := by
  have hcancelled : (List.replicate o.pending aborted).countP (· ≠ aborted) = 0 := by simp [List.countP_replicate]
  unfold loops cancel
  rw [List.countP_append, hcancelled, Nat.zero_add, Nat.add_zero]

theorem loops_cancel_le (o : AsyncOps ρ) : (o.cancel aborted).loops aborted ≤ o.loops aborted := by
  rw [loops_cancel]
  exact Nat.le_add_left ..

/-- A cancel ends all loops when it finds no completion that will go on. -/
theorem loops_cancel_eq_zero (h : o.OnlyAborted aborted) : (o.cancel aborted).loops aborted = 0 := by
  rw [loops_cancel, List.countP_eq_zero]
  intro r hr
  simpa using h r hr

omit [DecidableEq ρ] in
theorem mem_queued_cancel (h : r ∈ o.queued) (aborted : ρ) : r ∈ (o.cancel aborted).queued :=
  List.mem_append_left _ h

/-! ## No loop left -/

theorem pending_eq_zero (h : o.loops aborted = 0) : o.pending = 0 := by
  have hle : o.pending ≤ o.loops aborted := o.pending_le_loops
  omega

theorem onlyAborted_of_loops (h : o.loops aborted = 0) : o.OnlyAborted aborted := by
  intro r hr
  have hqueued : o.queued.countP (· ≠ aborted) = 0 := by
    unfold loops at h
    omega
  simpa using List.countP_eq_zero.1 hqueued r hr

omit [DecidableEq ρ] in
theorem complete_eq_none (h : o.pending = 0) (r : ρ) : o.complete r = none := by
  unfold complete
  rw [h]
  exact if_neg (Nat.lt_irrefl 0)

theorem eq_aborted_of_take (h : o.loops aborted = 0) (htake : o.take r = some o') : r = aborted := by
  unfold take at htake
  split at htake
  next hr => exact onlyAborted_of_loops h r hr
  · cases htake

omit [DecidableEq ρ] in
theorem cancel_of_idle (h : o.pending = 0) (aborted : ρ) : o.cancel aborted = o := by
  unfold cancel
  rw [h, List.replicate_zero, List.append_nil]
  exact congrArg (AsyncOps.mk · o.queued) h.symm

theorem pending_take (h : o.take r = some o') : o'.pending = o.pending := by
  unfold take at h
  split at h
  · rw [← Option.some.inj h]
  · cases h

/-- Each handler that runs takes its completion off the queue. -/
theorem length_take (h : o.take r = some o') : o'.queued.length + 1 = o.queued.length := by
  unfold take at h
  split at h
  next hr =>
    obtain rfl := Option.some.inj h
    exact (List.perm_cons_erase hr).length_eq.symm
  · cases h

end AsyncOps

end Opio
