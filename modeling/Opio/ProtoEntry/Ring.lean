/-
The live part of the ring of `pkg_input_t`: the blocks its slots still hold, the invariant that
ties the counters to them, and what each operation does to the blocks.
-/
import Opio.Lib.Blocks
import Opio.ProtoEntry.PkgInput
import Mathlib.Data.Nat.ModEq

namespace Opio.ProtoEntry.PkgInput

variable {cap : Nat} [NeZero cap]

/-! ## Positions -/

theorem ofNat_val (p : Fin cap) : Fin.ofNat cap p = p := Fin.ext (Nat.mod_eq_of_lt p.isLt)

theorem ofNat_nextPos_add (p : Fin cap) (i : Nat) :
    Fin.ofNat cap (nextPos p + i) = Fin.ofNat cap (p + (i + 1)) := by
  apply Fin.ext
  simp only [nextPos, Fin.val_ofNat, Nat.mod_add_mod]
  congr 1
  omega

/-- Within one lap no position comes twice. -/
theorem ofNat_add_inj {p i j : Nat} (hi : i < cap) (hj : j < cap)
    (h : Fin.ofNat cap (p + i) = Fin.ofNat cap (p + j)) : i = j := by
  have hm : p + i ≡ p + j [MOD cap] := congrArg Fin.val h
  exact (Nat.ModEq.add_left_cancel' p hm).eq_of_lt_of_lt hi hj

/-! ## The live slots -/

/-- The `i`-th slot from the first buffer on. -/
def slot (q : PkgInput cap) (i : Nat) : Bytes := q.bufs (Fin.ofNat cap (q.firstBufferPos + i))

/-- What is left of a slot: the first one is read from the offset on. -/
def remained (q : PkgInput cap) (i : Nat) : Bytes := (q.slot i).drop (if i = 0 then q.firstBufferOffset else 0)

/-- The remaining parts of the live slots, the first buffer first. -/
def blocks (q : PkgInput cap) : List Bytes := (List.range q.buffersCount).map q.remained

/-- The bytes not yet confirmed as consumed. -/
def contents (q : PkgInput cap) : Bytes := q.blocks.flatten

/-- The blocks the zero-copy stream has not given out. -/
def view (q : PkgInput cap) : List Bytes := if q.firstBufferServed then q.blocks.tail else q.blocks

/-- The representation invariant. -/
structure Inv (q : PkgInput cap) : Prop where
  count : q.buffersCount ≤ cap
  total : q.totalSize = q.contents.length
  offset : q.firstBufferOffset ≤ (q.slot 0).length
  empty : q.buffersCount = 0 → q.firstBufferOffset = 0
  served : q.firstBufferServed = true → 0 < q.buffersCount

theorem inv_init : Inv ({} : PkgInput cap) :=
  ⟨Nat.zero_le _, rfl, by simp, by simp, by simp⟩

theorem slot_zero (q : PkgInput cap) : q.slot 0 = q.bufs q.firstBufferPos := by
  simp only [slot, Nat.add_zero, ofNat_val]

theorem blocks_succ {q : PkgInput cap} {n : Nat} (h : q.buffersCount = n + 1) :
    q.blocks = (q.slot 0).drop q.firstBufferOffset :: (List.range n).map fun i => q.slot (i + 1) := by
  simp [blocks, h, List.range_succ_eq_map, remained, Function.comp_def]

theorem blocks_pos {q : PkgInput cap} (h : 0 < q.buffersCount) :
    q.blocks = (q.bufs q.firstBufferPos).drop q.firstBufferOffset :: q.blocks.tail := by
  obtain ⟨n, hn⟩ := Nat.exists_eq_succ_of_ne_zero h.ne'
  rw [blocks_succ hn, slot_zero, List.tail_cons]

theorem contents_pos {q : PkgInput cap} (h : 0 < q.buffersCount) :
    q.contents = (q.bufs q.firstBufferPos).drop q.firstBufferOffset ++ q.blocks.tail.flatten := by
  unfold contents
  rw [blocks_pos h, List.flatten_cons, List.tail_cons]

theorem view_served {q : PkgInput cap} (h : q.firstBufferServed = true) : q.view = q.blocks.tail := by
  rw [view, if_pos h]

theorem view_not_served {q : PkgInput cap} (h : q.firstBufferServed = false) : q.view = q.blocks := by
  rw [view, if_neg (by simp [h])]

theorem Inv.count_pos {q : PkgInput cap} (hq : q.Inv) (h : 0 < q.totalSize) : 0 < q.buffersCount := by
  rcases Nat.eq_zero_or_pos q.buffersCount with h0 | h0
  · have := hq.total
    simp [contents, blocks, h0] at this
    omega
  · exact h0

/-! ## Pop -/

/-- The state `pop_buffer` leaves. -/
def popped (q : PkgInput cap) : PkgInput cap :=
  { q with buffersCount := q.buffersCount - 1, firstBufferPos := nextPos q.firstBufferPos, firstBufferOffset := 0 }

theorem popBuffer_eq {q : PkgInput cap} (h : 0 < q.buffersCount) : popBuffer q = .ok q.popped := by
  rw [popBuffer, assertThat_ok h]
  rfl

theorem slot_popped (q : PkgInput cap) (i : Nat) : q.popped.slot i = q.slot (i + 1) :=
  congrArg q.bufs (ofNat_nextPos_add _ _)

theorem blocks_popped {q : PkgInput cap} (h : 0 < q.buffersCount) : q.popped.blocks = q.blocks.tail := by
  obtain ⟨n, hn⟩ := Nat.exists_eq_succ_of_ne_zero h.ne'
  have hc : q.popped.buffersCount = n := by simp [popped, hn]
  rw [blocks_succ hn, List.tail_cons, blocks, hc]
  refine List.map_congr_left fun i _ => ?_
  rw [remained, show q.popped.firstBufferOffset = 0 from rfl, ite_self, List.drop_zero, slot_popped]

theorem contents_popped {q : PkgInput cap} (h : 0 < q.buffersCount) :
    q.contents = (q.bufs q.firstBufferPos).drop q.firstBufferOffset ++ q.popped.contents := by
  rw [contents_pos h, contents, blocks_popped h]

/-- Popping keeps the invariant once the total no longer counts the first buffer. -/
theorem Inv.pop {q : PkgInput cap} (hq : q.Inv) (h : 0 < q.buffersCount) :
    Inv { q.popped with totalSize := q.totalSize - q.remainedInTheFirstBuffer, firstBufferServed := false } := by
  refine ⟨by have := hq.count; simp [popped]; omega, ?_, by simp [popped], by simp [popped], by simp⟩
  have ht := hq.total
  have hc := congrArg List.length (contents_popped h)
  simp only [List.length_append, List.length_drop] at hc
  change q.totalSize - q.remainedInTheFirstBuffer = q.popped.contents.length
  unfold remainedInTheFirstBuffer
  omega

theorem Inv.remained_le {q : PkgInput cap} (hq : q.Inv) (h : 0 < q.buffersCount) :
    q.remainedInTheFirstBuffer ≤ q.totalSize := by
  rw [hq.total, contents_pos h]
  simp [remainedInTheFirstBuffer]

end Opio.ProtoEntry.PkgInput
