/-
What the log of a connection says: the bytes that were accepted and taken, how far the entries of
the queue got, and the callbacks that are due and that were called.
-/
import Opio.Net.Connection

namespace Opio.Net

/-! ## Bytes and queue entries -/

def Event.acceptedBytes : Event → Bytes
  | .accepted _ bufs _ => bufs.flatten
  | _ => []

def Event.takenBytes : Event → Bytes
  | .taken bs => bs
  | _ => []

def Event.started? : Event → Option Nat
  | .writeStarted entry => some entry
  | _ => none

def Event.written? : Event → Option Nat
  | .written entry => some entry
  | _ => none

def Event.failed? : Event → Option Nat
  | .writeFailed entry => some entry
  | _ => none

def Event.popped? : Event → Option Nat
  | .popped entry => some entry
  | _ => none

/-- The bytes of the accepted groups, in the order they were accepted in. -/
def accepted (log : List Event) : Bytes := log.flatMap Event.acceptedBytes

/-- The bytes the socket took. -/
def taken (log : List Event) : Bytes := log.flatMap Event.takenBytes

/-- The queue entries a write of which was started, was done, failed, and which left the queue. -/
def startedEntries (log : List Event) : List Nat := log.filterMap Event.started?
def writtenEntries (log : List Event) : List Nat := log.filterMap Event.written?
def failedEntries (log : List Event) : List Nat := log.filterMap Event.failed?
def poppedEntries (log : List Event) : List Nat := log.filterMap Event.popped?

/-- The event says nothing about queue entries. -/
def Event.KeepsEntries (ev : Event) : Prop :=
  ev.started? = none ∧ ev.written? = none ∧ ev.failed? = none ∧ ev.popped? = none

/-- The event says nothing about bytes or queue entries. -/
def Event.IsInert (ev : Event) : Prop := ev.acceptedBytes = [] ∧ ev.takenBytes = [] ∧ ev.KeepsEntries

@[simp] theorem accepted_append (log evs : List Event) : accepted (log ++ evs) = accepted log ++ accepted evs :=
  List.flatMap_append

@[simp] theorem taken_append (log evs : List Event) : taken (log ++ evs) = taken log ++ taken evs := List.flatMap_append

@[simp] theorem startedEntries_append (log evs : List Event) :
    startedEntries (log ++ evs) = startedEntries log ++ startedEntries evs := List.filterMap_append

@[simp] theorem writtenEntries_append (log evs : List Event) :
    writtenEntries (log ++ evs) = writtenEntries log ++ writtenEntries evs := List.filterMap_append

@[simp] theorem failedEntries_append (log evs : List Event) :
    failedEntries (log ++ evs) = failedEntries log ++ failedEntries evs := List.filterMap_append

@[simp] theorem poppedEntries_append (log evs : List Event) :
    poppedEntries (log ++ evs) = poppedEntries log ++ poppedEntries evs := List.filterMap_append

theorem entries_eq_nil {evs : List Event} (h : ∀ ev ∈ evs, ev.KeepsEntries) :
    startedEntries evs = [] ∧ writtenEntries evs = [] ∧ failedEntries evs = [] ∧ poppedEntries evs = [] := by
  refine ⟨?_, ?_, ?_, ?_⟩
  · exact List.filterMap_eq_nil_iff.2 fun ev hev => (h ev hev).1
  · exact List.filterMap_eq_nil_iff.2 fun ev hev => (h ev hev).2.1
  · exact List.filterMap_eq_nil_iff.2 fun ev hev => (h ev hev).2.2.1
  · exact List.filterMap_eq_nil_iff.2 fun ev hev => (h ev hev).2.2.2

theorem bytes_eq_nil {evs : List Event} (h : ∀ ev ∈ evs, ev.IsInert) : accepted evs = [] ∧ taken evs = [] :=
  ⟨List.flatMap_eq_nil_iff.2 fun ev hev => (h ev hev).1, List.flatMap_eq_nil_iff.2 fun ev hev => (h ev hev).2.1⟩

/-! ## Callbacks -/

def Event.accepted? : Event → Option Nat
  | .accepted id _ _ => some id
  | _ => none

def Event.scheduled? : Event → Option Nat
  | .accepted id _ true => some id
  | .refused id true => some id
  | _ => none

def Event.called? (p : SendBuffersResult → Bool) : Event → Option Nat
  | .called id res => if p res then some id else none
  | _ => none

/-- The groups that were accepted. -/
def acceptedIds (log : List Event) : List Nat := log.filterMap Event.accepted?

/-- The groups with a callback that were accepted or refused. -/
def scheduledIds (log : List Event) : List Nat := log.filterMap Event.scheduled?

/-- The groups whose callback was called with one of these results. -/
def calledIds (p : SendBuffersResult → Bool) (log : List Event) : List Nat := log.filterMap (Event.called? p)

@[simp] theorem acceptedIds_append (log evs : List Event) :
    acceptedIds (log ++ evs) = acceptedIds log ++ acceptedIds evs :=
  List.filterMap_append

@[simp] theorem scheduledIds_append (log evs : List Event) :
    scheduledIds (log ++ evs) = scheduledIds log ++ scheduledIds evs := List.filterMap_append

@[simp] theorem calledIds_append (p : SendBuffersResult → Bool) (log evs : List Event) :
    calledIds p (log ++ evs) = calledIds p log ++ calledIds p evs := List.filterMap_append

/-! ## The bytes of groups -/

def Event.groupBytes (p : Nat → Bool) : Event → Bytes
  | .accepted id bufs _ => if p id then bufs.flatten else []
  | _ => []

/-- The bytes of the accepted groups with such a number, in the order they were accepted in. -/
def acceptedOf (p : Nat → Bool) (log : List Event) : Bytes := log.flatMap (Event.groupBytes p)

/-- The bytes of the groups before this one, and from this one on. -/
def acceptedBefore (id : Nat) (log : List Event) : Bytes := acceptedOf (· < id) log
def acceptedFrom (id : Nat) (log : List Event) : Bytes := acceptedOf (id ≤ ·) log

@[simp] theorem acceptedOf_append (p : Nat → Bool) (log evs : List Event) :
    acceptedOf p (log ++ evs) = acceptedOf p log ++ acceptedOf p evs := List.flatMap_append

/-- Where the groups are all of one kind. -/
theorem acceptedOf_of_forall {p : Nat → Bool} : ∀ {log : List Event}, (∀ id ∈ acceptedIds log, p id = true) →
    acceptedOf p log = accepted log
  | [], _ => rfl
  | ev :: log, h => by
    have hlog : acceptedOf p log = accepted log := by
      refine acceptedOf_of_forall fun id hid => h id ?_
      rw [← List.singleton_append, acceptedIds_append]
      exact List.mem_append_right _ hid
    have hev : ev.groupBytes p = ev.acceptedBytes := by
      cases ev with
      | accepted id bufs cb => exact if_pos (h id (List.mem_cons_self ..))
      | _ => rfl
    show ev.groupBytes p ++ acceptedOf p log = ev.acceptedBytes ++ accepted log
    rw [hev, hlog]

theorem acceptedOf_eq_nil {p : Nat → Bool} {log : List Event} (h : ∀ id ∈ acceptedIds log, p id = false) :
    acceptedOf p log = [] := by
  refine List.flatMap_eq_nil_iff.2 fun ev hev => ?_
  cases ev with
  | accepted id bufs cb =>
    have hid : id ∈ acceptedIds log := List.mem_filterMap.2 ⟨_, hev, rfl⟩
    show (if p id = true then bufs.flatten else []) = []
    rw [h id hid]
    rfl
  | _ => rfl

/-- Groups that were accepted in the order of their numbers. -/
theorem acceptedBefore_append_acceptedFrom (id : Nat) {log : List Event} (h : (acceptedIds log).Pairwise (· < ·)) :
    acceptedBefore id log ++ acceptedFrom id log = accepted log := by
  induction log with
  | nil => rfl
  | cons ev log ih =>
    have hone : ∀ p : Nat → Bool, acceptedOf p (ev :: log) = ev.groupBytes p ++ acceptedOf p log := fun _ => rfl
    have haccepted : accepted (ev :: log) = ev.acceptedBytes ++ accepted log := rfl
    cases ev with
    | accepted id' bufs cb =>
      obtain ⟨hlater, hlog⟩ := List.pairwise_cons.1 h
      by_cases hid : id' < id
      · rw [haccepted, ← ih hlog, acceptedBefore, acceptedFrom, hone, hone]
        simp [Event.groupBytes, Event.acceptedBytes, hid, Nat.not_le.2 hid, acceptedBefore, acceptedFrom]
      · -- the groups that follow have greater numbers
        have hbefore : acceptedOf (fun n => decide (n < id)) log = [] :=
          acceptedOf_eq_nil fun n hn => decide_eq_false fun hlt => hid ((hlater n hn).trans hlt)
        have hfrom : acceptedOf (fun n => decide (id ≤ n)) log = accepted log :=
          acceptedOf_of_forall fun n hn => decide_eq_true ((Nat.not_lt.1 hid).trans (hlater n hn).le)
        rw [haccepted, acceptedBefore, acceptedFrom, hone, hone, hbefore, hfrom]
        simp [Event.groupBytes, Event.acceptedBytes, hid, Nat.not_lt.1 hid]
    | _ => exact ih h

theorem acceptedBefore_isPrefix (id : Nat) {log : List Event} (h : (acceptedIds log).Pairwise (· < ·)) :
    acceptedBefore id log <+: accepted log := ⟨_, acceptedBefore_append_acceptedFrom id h⟩

/-! ## Events that are neither -/

/-- The event says nothing about groups, bytes, queue entries or callbacks. -/
def Event.isStill : Event → Bool
  | .shutdownHandlerCalled _ => true
  | .inputHandlerCalled => true
  | .incBytesTxSync _ => true
  | .incBytesTxAsync _ => true
  | _ => false

theorem Event.isInert_of_isStill {ev : Event} (h : ev.isStill = true) : ev.IsInert := by
  cases ev <;> first | exact ⟨rfl, rfl, rfl, rfl, rfl, rfl⟩ | cases h

theorem ids_eq_nil {evs : List Event} (h : ∀ ev ∈ evs, ev.isStill = true) :
    acceptedIds evs = [] ∧ scheduledIds evs = [] ∧ ∀ p, calledIds p evs = [] := by
  have hnone : ∀ ev ∈ evs, ev.accepted? = none ∧ ev.scheduled? = none ∧ ∀ p, ev.called? p = none := by
    intro ev hev
    have hstill := h ev hev
    cases ev <;> first | exact ⟨rfl, rfl, fun _ => rfl⟩ | cases hstill
  refine ⟨?_, ?_, fun p => ?_⟩
  · exact List.filterMap_eq_nil_iff.2 fun ev hev => (hnone ev hev).1
  · exact List.filterMap_eq_nil_iff.2 fun ev hev => (hnone ev hev).2.1
  · exact List.filterMap_eq_nil_iff.2 fun ev hev => (hnone ev hev).2.2 p

end Opio.Net
