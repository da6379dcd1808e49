/-
Does a direct read come back? `copy_n_bytes_to` goes on to the next slot whenever the rest of a slot is not
larger than what is still to be copied, also when that is nothing. What ends it then is the size of some
slot further round the ring, live or left over from before, and not the count, which may be zero already.
So it ends unless there is nothing to copy and every slot is empty; `skip_bytes` always ends.
-/
import Opio.Lib.Fuel
import Opio.ProtoEntry.SkipContract

namespace Opio.ProtoEntry.PkgInput

variable {cap : Nat} [NeZero cap] {q : PkgInput cap} {fuel n bufOffset : Nat} {bufPos : Fin cap}

/-! ## The reads of a copy -/

/-- One `memcpy` of a copy: so many bytes of a slot, from an offset on. -/
structure CopyRead (cap : Nat) where
  bufPos : Fin cap
  bufOffset : Nat
  count : Nat

/-- The bytes a read copies. -/
def CopyRead.bytes (q : PkgInput cap) (r : CopyRead cap) : Bytes := ((q.bufs r.bufPos).drop r.bufOffset).take r.count

/-- A read stays within its slot, and what it reads of it, if anything, is of a live slot. -/
def CopyRead.Inside (q : PkgInput cap) (r : CopyRead cap) : Prop :=
  r.bufOffset + r.count ≤ (q.bufs r.bufPos).length ∧
    (0 < r.count → ∃ i < q.buffersCount, r.bufPos = Fin.ofNat cap (q.firstBufferPos + i))

/-- `copy_n_bytes_to` again, by what it reads. It stops where the rest of a slot would be below zero. -/
def copyReads (q : PkgInput cap) : Nat → Nat × Fin cap × Nat → Except Fault (List (CopyRead cap))
  | 0, _ => .error .outOfFuel
  | fuel + 1, (n, bufPos, bufOffset) => do
    assertThat (n ≤ q.totalSize) Fault.copyShort
    let remainedInThisBuffer ← sizeSub (q.bufs bufPos).length bufOffset Fault.underflow
    if n < remainedInThisBuffer then
      return [⟨bufPos, bufOffset, n⟩]
    else
      let reads ← copyReads q fuel (n - remainedInThisBuffer, nextPos bufPos, 0)
      return ⟨bufPos, bufOffset, remainedInThisBuffer⟩ :: reads

/-- The calls of `skip_bytes`. -/
def skips (fuel : Nat) (s : PkgInput cap × Nat) : Except Fault (PkgInput cap) := skipBytesRec fuel s.1 s.2

/-- What a direct read of `n` bytes is to do: both recursions of `read_buffer` end, it writes as many bytes as it
was asked for, and all of them are read inside the slots. -/
def ReadsExactly (q : PkgInput cap) (n : Nat) : Prop :=
  ∃ reads bytes q', Fuel.Returns q.copyReads (n, q.firstBufferPos, q.firstBufferOffset) reads ∧
    Fuel.Returns skips (q, n) q' ∧ q.readBuffer n = .ok (bytes, q') ∧
    bytes = reads.flatMap (CopyRead.bytes q) ∧ bytes.length = n ∧ ∀ r ∈ reads, r.Inside q

/-! ## One level of the copy -/

variable {reads : List (CopyRead cap)}

/-- What a level does whose checks hold. -/
theorem copyReads_succ (ht : n ≤ q.totalSize) (hoff : bufOffset ≤ (q.bufs bufPos).length) :
    q.copyReads (fuel + 1) (n, bufPos, bufOffset) =
      if n < (q.bufs bufPos).length - bufOffset then .ok [⟨bufPos, bufOffset, n⟩]
      else (q.copyReads fuel (n - ((q.bufs bufPos).length - bufOffset), nextPos bufPos, 0)).map
        (⟨bufPos, bufOffset, (q.bufs bufPos).length - bufOffset⟩ :: ·) := by
  rw [copyReads, assertThat_ok ht, ok_bind, sizeSub_ok hoff, ok_bind]
  rfl

/-- What a level did that returned. -/
theorem copyReads_cases (h : q.copyReads (fuel + 1) (n, bufPos, bufOffset) = .ok reads) :
    n ≤ q.totalSize ∧ bufOffset ≤ (q.bufs bufPos).length ∧
      (n < (q.bufs bufPos).length - bufOffset ∧ reads = [⟨bufPos, bufOffset, n⟩] ∨
        (q.bufs bufPos).length - bufOffset ≤ n ∧
          ∃ rest, q.copyReads fuel (n - ((q.bufs bufPos).length - bufOffset), nextPos bufPos, 0) = .ok rest ∧
            reads = ⟨bufPos, bufOffset, (q.bufs bufPos).length - bufOffset⟩ :: rest) := by
  rw [copyReads] at h
  obtain ⟨_, hassert, h⟩ := bind_eq_ok.1 h
  obtain ⟨remained, hsub, h⟩ := bind_eq_ok.1 h
  have hoff := of_sizeSub hsub
  rw [sizeSub_ok hoff] at hsub
  obtain rfl := Except.ok.inj hsub
  refine ⟨of_assertThat hassert, hoff, ?_⟩
  split at h
  · rename_i hlt
    exact .inl ⟨hlt, (Except.ok.inj h).symm⟩
  · rename_i hge
    obtain ⟨rest, hrest, h⟩ := bind_eq_ok.1 h
    exact .inr ⟨Nat.not_lt.1 hge, rest, hrest, (Except.ok.inj h).symm⟩

/-- What holds of the last read of a copy, and of a list of reads once it holds of its tail, holds of every copy
that returns. -/
@[elab_as_elim]
theorem copyReads_elim {motive : Nat → Fin cap → Nat → List (CopyRead cap) → Prop}
    (last : ∀ n bufPos bufOffset, n < (q.bufs bufPos).length - bufOffset →
      motive n bufPos bufOffset [⟨bufPos, bufOffset, n⟩])
    (next : ∀ n bufPos bufOffset rest, bufOffset ≤ (q.bufs bufPos).length → (q.bufs bufPos).length - bufOffset ≤ n →
      motive (n - ((q.bufs bufPos).length - bufOffset)) (nextPos bufPos) 0 rest →
        motive n bufPos bufOffset (⟨bufPos, bufOffset, (q.bufs bufPos).length - bufOffset⟩ :: rest)) :
    ∀ {fuel n : Nat} {bufPos : Fin cap} {bufOffset : Nat} {reads : List (CopyRead cap)},
      q.copyReads fuel (n, bufPos, bufOffset) = .ok reads → motive n bufPos bufOffset reads
  | 0, _, _, _, _, h => nomatch h
  | fuel + 1, n, bufPos, bufOffset, _, h => by
    obtain ⟨-, hoff, ⟨hlt, rfl⟩ | ⟨hge, rest, hrest, rfl⟩⟩ := copyReads_cases h
    · exact last n bufPos bufOffset hlt
    · exact next n bufPos bufOffset rest hoff hge (copyReads_elim last next hrest)

/-- A copy that ended at some depth ends at every greater one, with the same reads. -/
theorem copyReads_stable (q : PkgInput cap) : Fuel.Stable q.copyReads := by
  intro fuel
  induction fuel with
  | zero =>
    intro s reads h
    cases h
  | succ fuel ih =>
    rintro ⟨n, bufPos, bufOffset⟩ reads h
    obtain ⟨ht, hoff, ⟨hlt, rfl⟩ | ⟨hge, rest, hrest, rfl⟩⟩ := copyReads_cases h
    · rw [copyReads_succ ht hoff, if_pos hlt]
    · rw [copyReads_succ ht hoff, if_neg (Nat.not_lt.2 hge), ih _ _ hrest]
      rfl

theorem skips_stable : Fuel.Stable (skips : Nat → PkgInput cap × Nat → Except Fault (PkgInput cap)) := by
  intro fuel
  induction fuel with
  | zero =>
    rintro ⟨q, n⟩ q' h
    cases h
  | succ fuel ih =>
    rintro ⟨q, n⟩ q' h
    change skipBytesRec (fuel + 1) q n = .ok q' at h
    change skipBytesRec (fuel + 1 + 1) q n = .ok q'
    unfold skipBytesRec at h ⊢
    obtain ⟨_, hserved, h⟩ := bind_eq_ok.1 h
    obtain ⟨_, hshort, h⟩ := bind_eq_ok.1 h
    rw [hserved, ok_bind, hshort, ok_bind]
    split at h
    · rename_i h0
      rwa [if_pos h0]
    rename_i h0
    rw [if_neg h0]
    dsimp only at h ⊢
    split at h
    · rename_i hlt
      rwa [if_pos hlt]
    · rename_i hge
      obtain ⟨q₁, hpop, h⟩ := bind_eq_ok.1 h
      obtain ⟨total, hsub, h⟩ := bind_eq_ok.1 h
      rw [if_neg hge, hpop, ok_bind, hsub, ok_bind]
      exact ih ({ q₁ with totalSize := total }, _) q' h

/-! ## What a copy reads -/

/-- The bytes a copy writes are those it reads, as long as it starts inside its slot. -/
theorem copyNBytesTo_eq (q : PkgInput cap) : ∀ (fuel n : Nat) (bufPos : Fin cap) (bufOffset : Nat),
    bufOffset ≤ (q.bufs bufPos).length →
      q.copyNBytesTo fuel n bufPos bufOffset =
        (q.copyReads fuel (n, bufPos, bufOffset)).map (List.flatMap (CopyRead.bytes q))
  | 0, _, _, _, _ => rfl
  | fuel + 1, n, bufPos, bufOffset, hoff => by
    by_cases ht : n ≤ q.totalSize
    · rw [copyReads_succ ht hoff, copyNBytesTo, assertThat_ok ht, ok_bind]
      dsimp only
      split
      · simp [Except.map, CopyRead.bytes]
      · -- the rest of the slot is one read, and the offset of the next one is zero
        have hall : ((q.bufs bufPos).drop bufOffset).take ((q.bufs bufPos).length - bufOffset) =
            (q.bufs bufPos).drop bufOffset := by
          rw [← List.length_drop, List.take_length]
        rw [copyNBytesTo_eq q fuel _ (nextPos bufPos) 0 (Nat.zero_le _)]
        cases q.copyReads fuel (n - ((q.bufs bufPos).length - bufOffset), nextPos bufPos, 0) with
        | error e => rfl
        | ok rest => simp [Except.map, CopyRead.bytes, hall]
    · rw [copyReads, copyNBytesTo, assertThat_error ht]
      rfl

/-- A copy reads what it was asked for. -/
theorem copyReads_sum (h : q.copyReads fuel (n, bufPos, bufOffset) = .ok reads) :
    (reads.map CopyRead.count).sum = n := by
  refine copyReads_elim ?last ?next h
  case last =>
    intro n bufPos bufOffset _
    exact List.sum_singleton
  case next =>
    intro n bufPos bufOffset rest _ hge ih
    rw [List.map_cons, List.sum_cons, ih]
    exact Nat.add_sub_cancel' hge

/-- No read goes beyond its slot. -/
theorem copyReads_bound (h : q.copyReads fuel (n, bufPos, bufOffset) = .ok reads) :
    ∀ r ∈ reads, r.bufOffset + r.count ≤ (q.bufs r.bufPos).length := by
  refine copyReads_elim ?last ?next h
  case last =>
    rintro n bufPos bufOffset hlt r hr
    obtain rfl := List.mem_singleton.1 hr
    show bufOffset + n ≤ (q.bufs bufPos).length
    omega
  case next =>
    rintro n bufPos bufOffset rest hoff _ ih r hr
    rcases List.mem_cons.1 hr with rfl | hr
    · show bufOffset + ((q.bufs bufPos).length - bufOffset) ≤ (q.bufs bufPos).length
      omega
    · exact ih r hr

/-- Where the copy starts to read the `i`-th slot. -/
def startOffset (q : PkgInput cap) (i : Nat) : Nat := if i = 0 then q.firstBufferOffset else 0

/-- What the live slots hold from one on is what is left of it and what they hold from the next one on. -/
theorem length_drop_blocks (q : PkgInput cap) (i : Nat) :
    (q.blocks.drop i).flatten.length ≤
      (q.slot i).length - q.startOffset i + (q.blocks.drop (i + 1)).flatten.length := by
  by_cases hi : i < q.blocks.length
  · have hblock : (q.blocks[i]).length = (q.slot i).length - q.startOffset i := by
      simp [blocks, remained, startOffset]
    rw [List.drop_eq_getElem_cons hi, List.flatten_cons, List.length_append, hblock]
  · rw [List.drop_eq_nil_of_le (Nat.not_lt.1 hi)]
    exact Nat.zero_le _

/-- Where the live slots still hold something the slot is a live one. -/
theorem lt_buffersCount {i : Nat} (hn : n ≤ (q.blocks.drop i).flatten.length) (hpos : 0 < n) : i < q.buffersCount := by
  by_contra hi
  have hnil : q.blocks.drop i = [] := by
    apply List.drop_eq_nil_of_le
    simpa [blocks] using hi
  rw [hnil] at hn
  exact absurd hn (Nat.not_le.2 hpos)

/-- A copy of no more than the live slots hold from one on reads no byte of any other slot. -/
theorem copyReads_live (h : q.copyReads fuel (n, bufPos, bufOffset) = .ok reads) :
    ∀ i, bufPos = Fin.ofNat cap (q.firstBufferPos + i) → bufOffset = q.startOffset i →
      n ≤ (q.blocks.drop i).flatten.length → ∀ r ∈ reads, 0 < r.count →
        ∃ i < q.buffersCount, r.bufPos = Fin.ofNat cap (q.firstBufferPos + i) := by
  refine copyReads_elim ?last ?next h
  case last =>
    rintro n bufPos bufOffset _ i hpos _ hn r hr hcount
    obtain rfl := List.mem_singleton.1 hr
    exact ⟨i, lt_buffersCount hn hcount, hpos⟩
  case next =>
    rintro n bufPos bufOffset rest _ hge ih i rfl rfl hn r hr hcount
    have hle := hn.trans (q.length_drop_blocks i)
    rcases List.mem_cons.1 hr with rfl | hr
    · exact ⟨i, lt_buffersCount hn (hcount.trans_le hge), rfl⟩
    · refine ih (i + 1) ?_ rfl ?_ r hr hcount
      · apply Fin.ext
        simp [nextPos, Nat.add_assoc]
      · exact Nat.sub_le_of_le_add (by rwa [Nat.add_comm] at hle)

/-! ## Copying nothing -/

/-- From any position the ring leads to any other within a lap. -/
theorem exists_ofNat_add (p p' : Fin cap) : ∃ d < cap, Fin.ofNat cap (p + d) = p' := by
  rcases Nat.lt_or_ge p' p with hlt | hge
  · refine ⟨cap - p + p', by omega, Fin.ext ?_⟩
    have hsum : (p : Nat) + (cap - p + p') = p' + cap := by omega
    rw [Fin.val_ofNat, hsum, Nat.add_mod_right, Nat.mod_eq_of_lt p'.isLt]
  · refine ⟨p' - p, by omega, Fin.ext ?_⟩
    rw [Fin.val_ofNat, Nat.add_sub_cancel' hge, Nat.mod_eq_of_lt p'.isLt]

/-- With nothing to copy one slot that is not empty is enough, wherever in the ring it is. -/
theorem copyNBytesTo_nothing {pos : Fin cap} (hne : q.bufs pos ≠ []) :
    q.copyNBytesTo (copyFuel cap) 0 q.firstBufferPos q.firstBufferOffset = .ok [] := by
  rw [copyFuel, copyNBytesTo, assertThat_ok (Nat.zero_le _), ok_bind]
  dsimp only
  split
  · rfl
  · rename_i hge
    -- nothing is left of the first slot; within a lap the walk is at the slot that is not empty
    obtain ⟨d, hd, rfl⟩ := exists_ofNat_add (nextPos q.firstBufferPos) pos
    have hrest := q.copyNBytesTo_zero d (2 * cap) (nextPos q.firstBufferPos) (by omega) hne
    have hnil : (q.bufs q.firstBufferPos).drop q.firstBufferOffset = [] := by
      apply List.drop_eq_nil_of_le
      omega
    rw [Nat.zero_sub, hrest, hnil]
    rfl

/-- With nothing to copy and nothing in the slots every level calls the next one. -/
theorem copyReads_endless (hnil : ∀ pos, q.bufs pos = []) :
    ∀ (fuel : Nat) (pos : Fin cap), q.copyReads fuel (0, pos, 0) = .error .outOfFuel
  | 0, _ => rfl
  | fuel + 1, pos => by
    -- the rest of the slot is not larger than the nothing that is asked for
    rw [copyReads_succ (Nat.zero_le _) (Nat.zero_le _), hnil, List.length_nil, Nat.sub_self,
      if_neg (Nat.lt_irrefl 0), copyReads_endless hnil fuel (nextPos pos)]
    rfl

/-! ## When a direct read comes back -/

theorem Inv.bufs_offset (hq : q.Inv) : q.firstBufferOffset ≤ (q.bufs q.firstBufferPos).length :=
  q.slot_zero ▸ hq.offset

/-- A copy from the head of the input ends if there is something to copy or something in the slots. -/
theorem copyReads_ends (hq : q.Inv) (hn : n ≤ q.totalSize) (h : 0 < n ∨ ∃ pos, q.bufs pos ≠ []) :
    ∃ reads, q.copyReads (copyFuel cap) (n, q.firstBufferPos, q.firstBufferOffset) = .ok reads := by
  have hcopy : ∃ bytes, q.copyNBytesTo (copyFuel cap) n q.firstBufferPos q.firstBufferOffset = .ok bytes := by
    rcases Nat.eq_zero_or_pos n with rfl | hpos
    · rcases h with h | ⟨pos, hne⟩
      · exact absurd h (Nat.lt_irrefl 0)
      · exact ⟨[], copyNBytesTo_nothing hne⟩
    · exact ⟨q.contents.take n, copyNBytesTo_spec hq hpos hn⟩
  obtain ⟨bytes, hcopy⟩ := hcopy
  rw [copyNBytesTo_eq q _ n _ _ hq.bufs_offset] at hcopy
  cases hreads : q.copyReads (copyFuel cap) (n, q.firstBufferPos, q.firstBufferOffset) with
  | error e =>
    rw [hreads] at hcopy
    cases hcopy
  | ok reads => exact ⟨reads, rfl⟩

/-- It does not end if there is neither. -/
theorem copyReads_never_ends (hq : q.Inv) (hnil : ∀ pos, q.bufs pos = []) :
    ¬ Fuel.Returns q.copyReads (0, q.firstBufferPos, q.firstBufferOffset) reads := by
  have hoff := hq.bufs_offset
  rw [hnil] at hoff
  rw [Nat.le_zero.1 hoff]
  exact Fuel.not_returns (fun fuel => copyReads_endless hnil fuel q.firstBufferPos) reads

theorem exists_of_copyReads_returns (hq : q.Inv)
    (h : Fuel.Returns q.copyReads (n, q.firstBufferPos, q.firstBufferOffset) reads) :
    0 < n ∨ ∃ pos, q.bufs pos ≠ [] := by
  by_contra hcond
  push Not at hcond
  obtain ⟨h0, hnil⟩ := hcond
  obtain rfl := Nat.le_zero.1 h0
  exact copyReads_never_ends hq hnil h

/-- So a copy that ends at all ends within two laps. -/
theorem copyReads_two_laps (hq : q.Inv) (hn : n ≤ q.totalSize)
    (h : Fuel.Returns q.copyReads (n, q.firstBufferPos, q.firstBufferOffset) reads) :
    q.copyReads (copyFuel cap) (n, q.firstBufferPos, q.firstBufferOffset) = .ok reads := by
  obtain ⟨reads', hreads⟩ := copyReads_ends hq hn (exists_of_copyReads_returns hq h)
  rw [hreads, h.eq_of_ok q.copyReads_stable hreads]

/-- The skip ends whatever there is in the slots. -/
theorem skips_end (hq : q.Inv) (hs : q.firstBufferServed = false) (hn : n ≤ q.totalSize) :
    ∃ q', q.skipBytes n = .ok q' ∧ Fuel.Returns skips (q, n) q' := by
  obtain ⟨q', hskip, -⟩ := skipBytes_spec hq hs hn
  exact ⟨q', hskip, skips_stable.returns hskip⟩

/-- Where the copy ends the read is as it is to be. -/
theorem readsExactly_of_copyReads (hq : q.Inv) (hs : q.firstBufferServed = false) (hn : n ≤ q.totalSize)
    (h : q.copyReads (copyFuel cap) (n, q.firstBufferPos, q.firstBufferOffset) = .ok reads) : ReadsExactly q n := by
  obtain ⟨q', hskip, hends⟩ := skips_end hq hs hn
  have hbound := copyReads_bound h
  refine ⟨reads, reads.flatMap (CopyRead.bytes q), q', q.copyReads_stable.returns h, hends, ?_, rfl, ?_,
    fun r hr => ⟨hbound r hr, ?_⟩⟩
  · have hcopy := copyNBytesTo_eq q (copyFuel cap) n q.firstBufferPos q.firstBufferOffset hq.bufs_offset
    rw [h] at hcopy
    rw [readBuffer, assertThat_ok hs, ok_bind, assertThat_ok hn, ok_bind, hcopy]
    change (q.skipBytes n >>= _) = _
    rw [hskip]
    rfl
  · have hlength : ∀ r ∈ reads, (CopyRead.bytes q r).length = r.count := by
      intro r hr
      have := hbound r hr
      simp only [CopyRead.bytes, List.length_take, List.length_drop]
      omega
    rw [List.length_flatMap, List.map_congr_left hlength, copyReads_sum h]
  · refine copyReads_live h 0 (ofNat_val _).symm rfl ?_ r hr
    exact hq.total ▸ hn

/-- In every reachable state a direct read of bytes that are there comes back, with as many bytes, just where it is
one of at least a byte or some slot of the ring is not empty. -/
theorem reads_exactly_iff (q : PkgInput cap) (hq : Reachable q) (hs : q.firstBufferServed = false) (n : Nat)
    (hn : n ≤ q.size) : ReadsExactly q n ↔ 0 < n ∨ ∃ pos, q.bufs pos ≠ [] := by
  constructor
  · rintro ⟨reads, bytes, q', hcopy, -⟩
    exact exists_of_copyReads_returns hq.inv hcopy
  · intro h
    obtain ⟨reads, hreads⟩ := copyReads_ends hq.inv hn h
    exact readsExactly_of_copyReads hq.inv hs hn hreads

/-- A read that ends with its buffer, and a read of nothing after it, which the buffer left over brings to an end. -/
theorem reads_exactly_iff_left_over :
    (∃ q : PkgInput 2, Reachable q ∧ q.size = 2 ∧ ReadsExactly q 2) ∧
      ∃ q : PkgInput 2, Reachable q ∧ q.buffersCount = 0 ∧ ReadsExactly q 0 := by
  constructor
  · obtain ⟨q, hrun, hs, hsize⟩ := exists_execute (nextState call) ({} : PkgInput 2) [.append [1, 2]]
      (fun q => q.firstBufferServed = false ∧ q.size = 2) (by decide)
    have hq : Reachable q := ⟨_, hrun⟩
    exact ⟨q, hq, hsize, (reads_exactly_iff q hq hs 2 hsize.ge).2 (.inl (by decide))⟩
  · obtain ⟨q, hrun, hs, hcount, hne⟩ := exists_execute (nextState call) ({} : PkgInput 2)
      [.append [1, 2], .readBuffer 2] (fun q => q.firstBufferServed = false ∧ q.buffersCount = 0 ∧ q.bufs 0 ≠ [])
      (by decide)
    have hq : Reachable q := ⟨_, hrun⟩
    exact ⟨q, hq, hcount, (reads_exactly_iff q hq hs 0 (Nat.zero_le _)).2 (.inr ⟨0, hne⟩)⟩

/-- No bytes are there and none are asked for: the copy of a new input goes round its slots for ever, and so does
that of an input with an empty buffer in it. -/
theorem read_nothing_endless :
    (Reachable ({} : PkgInput 4) ∧ (∀ fuel, ({} : PkgInput 4).copyNBytesTo fuel 0 0 0 = .error .outOfFuel) ∧
      ¬ ReadsExactly ({} : PkgInput 4) 0) ∧
    ∃ q : PkgInput 4, Reachable q ∧ q.firstBufferServed = false ∧ q.buffersCount = 1 ∧ ¬ ReadsExactly q 0 := by
  have hends : ∀ {q : PkgInput 4}, Reachable q → (∀ pos, q.bufs pos = []) → ¬ ReadsExactly q 0 := by
    rintro q hq hnil ⟨reads, bytes, q', hcopy, -⟩
    exact copyReads_never_ends hq.inv hnil hcopy
  constructor
  · have hq : Reachable ({} : PkgInput 4) := ⟨[], rfl⟩
    refine ⟨hq, fun fuel => ?_, hends hq fun _ => rfl⟩
    rw [copyNBytesTo_eq _ fuel 0 0 0 (Nat.zero_le _), copyReads_endless (fun _ => rfl) fuel 0]
    rfl
  · have hq : Reachable (({} : PkgInput 4).appendedNew []) := ⟨[.append []], rfl⟩
    refine ⟨_, hq, rfl, rfl, hends hq fun pos => ?_⟩
    show Function.update (fun _ => []) _ [] pos = ([] : Bytes)
    rw [Function.update_apply, ite_self]

end Opio.ProtoEntry.PkgInput
