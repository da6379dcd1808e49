/-
What each operation of `pkg_input_t` does on a state that keeps the invariant: no check fails, the
invariant is kept, and the blocks change as the description of the operation says.
-/
import Opio.ProtoEntry.Ring

namespace Opio.ProtoEntry.PkgInput

variable {cap : Nat} [NeZero cap] {q : PkgInput cap}

theorem toInt_eq {n : Nat} (h : n < 2 ^ 31) : toInt n = n := by
  unfold toInt
  rw [Int.bmod_def]
  split <;> omega

/-! ## Confirming a served block -/

theorem resetFirstBufferServed_spec (hq : q.Inv) :
    ∃ q', q.resetFirstBufferServed = .ok q' ∧ q'.Inv ∧ q'.firstBufferServed = false ∧ q'.blocks = q.view ∧
      q'.byteSizeCounter = q.byteSizeCounter ∧ q'.bufs = q.bufs := by
  unfold resetFirstBufferServed
  rcases Bool.eq_false_or_eq_true q.firstBufferServed with hs | hs
  · have hc := hq.served hs
    have hpop := popBuffer_eq (q := { q with totalSize := q.totalSize - q.remainedInTheFirstBuffer }) hc
    rw [if_pos hs, sizeSub_ok (hq.remained_le hc), ok_bind, hpop]
    exact ⟨_, rfl, hq.pop hc, rfl, (blocks_popped hc).trans (view_served hs).symm, rfl, rfl⟩
  · rw [if_neg (by simp [hs])]
    exact ⟨q, rfl, hq, hs, (view_not_served hs).symm, rfl, rfl⟩

/-! ## Append -/

theorem slot_update (q : PkgInput cap) {i k : Nat} (hi : i < cap) (hk : k < cap) (b : Bytes) :
    Function.update q.bufs (Fin.ofNat cap (q.firstBufferPos + k)) b (Fin.ofNat cap (q.firstBufferPos + i)) =
      if i = k then b else q.slot i := by
  rcases eq_or_ne i k with rfl | hik
  · simp
  · rw [Function.update_of_ne (fun h => hik (ofNat_add_inj hi hk h)), if_neg hik]
    rfl

/-- The state after an append into a free slot. -/
def appendedNew (q : PkgInput cap) (buf : Bytes) : PkgInput cap :=
  { q with
    totalSize := q.totalSize + buf.length
    bufs := Function.update q.bufs (Fin.ofNat cap (q.firstBufferPos + q.buffersCount)) buf
    buffersCount := q.buffersCount + 1 }

/-- The state after an append into the last slot of a full ring. -/
def appendedFull (q : PkgInput cap) (buf : Bytes) : PkgInput cap :=
  { q with
    totalSize := q.totalSize + buf.length
    bufs := Function.update q.bufs (Fin.ofNat cap (q.firstBufferPos + q.buffersCount - 1))
      (q.bufs (Fin.ofNat cap (q.firstBufferPos + q.buffersCount - 1)) ++ buf) }

theorem append_eq (hs : q.firstBufferServed = false) (buf : Bytes) :
    q.append buf = .ok (if q.buffersCount < cap then q.appendedNew buf else q.appendedFull buf) := by
  rw [append, assertThat_ok hs, ok_bind]
  dsimp only
  split <;> rfl

theorem slot_appendedNew (hlt : q.buffersCount < cap) (buf : Bytes) {i : Nat} (hi : i < cap) :
    (q.appendedNew buf).slot i = if i = q.buffersCount then buf else q.slot i :=
  slot_update q hi hlt buf

theorem slot_appendedFull {n : Nat} (hfull : q.buffersCount = n + 1) (hn : n < cap) (buf : Bytes) {i : Nat}
    (hi : i < cap) : (q.appendedFull buf).slot i = if i = n then q.slot n ++ buf else q.slot i := by
  have hpos : (q.firstBufferPos : Nat) + q.buffersCount - 1 = q.firstBufferPos + n := by omega
  simp only [slot, appendedFull, hpos]
  exact slot_update q hi hn _

theorem contents_appendedNew (hq : q.Inv) (hlt : q.buffersCount < cap) (buf : Bytes) :
    (q.appendedNew buf).contents = q.contents ++ buf := by
  have hold : ∀ i ∈ List.range q.buffersCount, (q.appendedNew buf).remained i = q.remained i := by
    intro i hi
    have hi := List.mem_range.1 hi
    rw [remained, slot_appendedNew hlt buf (hi.trans hlt), if_neg hi.ne]
    rfl
  have hnew : (q.appendedNew buf).remained q.buffersCount = buf := by
    rw [remained, slot_appendedNew hlt buf hlt, if_pos rfl]
    split
    · rename_i h0
      exact congrArg (List.drop · buf) (hq.empty h0)
    · rfl
  rw [contents, blocks, show (q.appendedNew buf).buffersCount = q.buffersCount + 1 from rfl, List.range_succ,
    List.map_append, List.map_congr_left hold, List.map_singleton, hnew]
  simp [contents, blocks]

theorem contents_appendedFull (hq : q.Inv) {n : Nat} (hfull : q.buffersCount = n + 1) (hn : n < cap) (buf : Bytes) :
    (q.appendedFull buf).contents = q.contents ++ buf := by
  have hold : ∀ i ∈ List.range n, (q.appendedFull buf).remained i = q.remained i := by
    intro i hi
    have hi := List.mem_range.1 hi
    rw [remained, slot_appendedFull hfull hn buf (hi.trans hn), if_neg hi.ne]
    rfl
  have hnew : (q.appendedFull buf).remained n = q.remained n ++ buf := by
    rw [remained, slot_appendedFull hfull hn buf hn, if_pos rfl]
    apply List.drop_append_of_le_length
    split
    · rename_i h0
      subst h0
      exact hq.offset
    · exact Nat.zero_le _
  have hblocks : q.blocks = (List.range n).map q.remained ++ [q.remained n] := by
    rw [blocks, hfull, List.range_succ, List.map_append, List.map_singleton]
  rw [contents, blocks, show (q.appendedFull buf).buffersCount = n + 1 from hfull, List.range_succ,
    List.map_append, List.map_congr_left hold, List.map_singleton, hnew, contents, hblocks]
  simp

/-- Appending adds the bytes at the end, also when they are merged into the last buffer. -/
theorem append_spec (hq : q.Inv) (hs : q.firstBufferServed = false) (buf : Bytes) :
    ∃ q', q.append buf = .ok q' ∧ q'.Inv ∧ q'.firstBufferServed = false ∧ q'.contents = q.contents ++ buf ∧
      q'.byteSizeCounter = q.byteSizeCounter := by
  refine ⟨_, append_eq hs buf, ?_⟩
  by_cases hlt : q.buffersCount < cap
  · rw [if_pos hlt]
    have hcont := contents_appendedNew hq hlt buf
    refine ⟨⟨hlt, ?_, ?_, by simp [appendedNew], by simp [appendedNew]⟩, hs, hcont, rfl⟩
    · rw [hcont, List.length_append, ← hq.total]
      rfl
    · rw [slot_appendedNew hlt buf (Nat.pos_of_ne_zero (NeZero.ne cap))]
      split
      · rename_i h
        exact (hq.empty h.symm).trans_le (Nat.zero_le _)
      · exact hq.offset
  · rw [if_neg hlt]
    obtain ⟨n, hn⟩ := Nat.exists_eq_succ_of_ne_zero (NeZero.ne cap)
    have hfull : q.buffersCount = n + 1 := by have := hq.count; omega
    have hcont := contents_appendedFull hq hfull (by omega) buf
    refine ⟨⟨hq.count, ?_, ?_, hq.empty, by simp [appendedFull, hs]⟩, hs, hcont, rfl⟩
    · rw [hcont, List.length_append, ← hq.total]
      rfl
    · rw [slot_appendedFull hfull (by omega) buf (Nat.pos_of_ne_zero (NeZero.ne cap))]
      split
      · rename_i h
        rw [← h, List.length_append]
        exact hq.offset.trans (Nat.le_add_right _ _)
      · exact hq.offset

/-! ## Skipping -/

theorem blocks_offset (hc : 0 < q.buffersCount) (n total : Nat) :
    blocks { q with firstBufferOffset := q.firstBufferOffset + n, totalSize := total } =
      ((q.bufs q.firstBufferPos).drop q.firstBufferOffset).drop n :: q.blocks.tail := by
  rw [blocks_pos (q := { q with firstBufferOffset := q.firstBufferOffset + n, totalSize := total }) hc,
    List.drop_drop]
  obtain ⟨k, hk⟩ := Nat.exists_eq_succ_of_ne_zero hc.ne'
  rw [blocks_succ (q := { q with firstBufferOffset := q.firstBufferOffset + n, totalSize := total }) hk, blocks_succ hk]
  rfl

/-- Moving the offset within the first buffer keeps the invariant. -/
theorem Inv.advance (hq : q.Inv) (hc : 0 < q.buffersCount) {n : Nat} (hn : n ≤ q.remainedInTheFirstBuffer) :
    Inv { q with firstBufferOffset := q.firstBufferOffset + n, totalSize := q.totalSize - n } := by
  have ho := hq.offset
  have ht := hq.total
  rw [slot_zero] at ho
  rw [contents_pos hc, List.length_append, List.length_drop] at ht
  unfold remainedInTheFirstBuffer at hn
  refine ⟨hq.count, ?_, ?_, fun h => absurd h hc.ne', hq.served⟩
  · rw [contents, blocks_offset hc, List.flatten_cons, List.length_append, List.length_drop, List.length_drop]
    change q.totalSize - n = _
    omega
  · rw [slot_zero]
    change q.firstBufferOffset + n ≤ (q.bufs q.firstBufferPos).length
    omega

theorem skipBytesRec_spec : ∀ (fuel : Nat) (q : PkgInput cap) (n : Nat), q.Inv → q.firstBufferServed = false →
    n ≤ q.totalSize → q.buffersCount < fuel →
      ∃ q', skipBytesRec fuel q n = .ok q' ∧ q'.Inv ∧ q'.firstBufferServed = false ∧
        q'.blocks = Blocks.drop n q.blocks ∧ q'.byteSizeCounter = q.byteSizeCounter
  | 0, _, _, _, _, _, hf => absurd hf (Nat.not_lt_zero _)
  | fuel + 1, q, n, hq, hs, hn, hf => by
    rw [skipBytesRec, assertThat_ok hs, ok_bind, assertThat_ok hn, ok_bind]
    rcases Nat.eq_zero_or_pos n with rfl | hpos
    · exact ⟨q, if_pos rfl, hq, hs, (Blocks.drop_zero _).symm, rfl⟩
    rw [if_neg hpos.ne']
    have hc := hq.count_pos (hpos.trans_le hn)
    have hlen : q.remainedInTheFirstBuffer = ((q.bufs q.firstBufferPos).drop q.firstBufferOffset).length :=
      List.length_drop.symm
    dsimp only
    split
    · rename_i hlt
      refine ⟨_, rfl, hq.advance hc hlt.le, hs, ?_, rfl⟩
      rw [blocks_offset hc, blocks_pos hc, List.tail_cons, Blocks.drop_cons_lt hpos (hlen ▸ hlt)]
    · rename_i hge
      -- the first buffer goes, and the recursion works on what is behind it
      rw [popBuffer_eq hc, ok_bind]
      change ∃ q', (sizeSub q.totalSize q.remainedInTheFirstBuffer Fault.underflow >>= _) = _ ∧ _
      rw [sizeSub_ok (hq.remained_le hc), ok_bind]
      have hpop := hq.pop hc
      rw [← hs] at hpop
      obtain ⟨q', h, hi, hs', hb, hcnt⟩ := skipBytesRec_spec fuel _ (n - q.remainedInTheFirstBuffer) hpop hs
        (Nat.sub_le_sub_right hn _) (by change q.buffersCount - 1 < fuel; omega)
      refine ⟨q', h, hi, hs', hb.trans ?_, hcnt⟩
      rw [blocks_pos hc, Blocks.drop_cons_ge hpos (hlen ▸ not_lt.1 hge), ← hlen]
      exact congrArg _ (blocks_popped hc)

theorem skipBytes_spec (hq : q.Inv) (hs : q.firstBufferServed = false) {n : Nat} (hn : n ≤ q.totalSize) :
    ∃ q', q.skipBytes n = .ok q' ∧ q'.Inv ∧ q'.firstBufferServed = false ∧ q'.blocks = Blocks.drop n q.blocks ∧
      q'.byteSizeCounter = q.byteSizeCounter :=
  skipBytesRec_spec _ q n hq hs hn (Nat.lt_succ_self _)

/-! ## Copying -/

/-- With nothing left to copy the recursion walks on to the next slot that holds bytes. -/
theorem copyNBytesTo_zero (q : PkgInput cap) : ∀ (d fuel : Nat) (pos : Fin cap), d < fuel →
    q.bufs (Fin.ofNat cap (pos + d)) ≠ [] → q.copyNBytesTo fuel 0 pos 0 = .ok []
  | _, 0, _, hf, _ => absurd hf (Nat.not_lt_zero _)
  | d, fuel + 1, pos, hf, hd => by
    rw [copyNBytesTo, assertThat_ok (Nat.zero_le _), ok_bind]
    dsimp only
    split
    · rfl
    · rename_i hlt
      have hnil : q.bufs pos = [] := by
        rw [← List.length_eq_zero_iff]
        omega
      cases d with
      | zero =>
        rw [Nat.add_zero, ofNat_val] at hd
        exact absurd hnil hd
      | succ d =>
        rw [← ofNat_nextPos_add] at hd
        rw [hnil, show 0 - (List.length ([] : Bytes) - 0) = 0 from rfl,
          copyNBytesTo_zero q d fuel (nextPos pos) (by omega) hd]
        rfl

/-- One step on and a lap less one step lead back to the same position. -/
theorem ofNat_nextPos_lap (p : Fin cap) : Fin.ofNat cap (nextPos p + (cap - 1)) = p := by
  have h0 := Nat.pos_of_ne_zero (NeZero.ne cap)
  rw [ofNat_nextPos_add, Nat.sub_add_cancel h0]
  apply Fin.ext
  rw [Fin.val_ofNat, Nat.add_mod_right, Nat.mod_eq_of_lt p.isLt]

/-- The copy follows the slots from a position on. -/
theorem copyNBytesTo_along (q : PkgInput cap) : ∀ (rest : List Bytes) (p : Fin cap) (off fuel n : Nat),
    (∀ j (h : j < rest.length), rest[j] = q.bufs (Fin.ofNat cap (nextPos p + j))) →
      0 < n → n ≤ ((q.bufs p).drop off ++ rest.flatten).length → n ≤ q.totalSize → rest.length + 1 + cap ≤ fuel →
        q.copyNBytesTo fuel n p off = .ok (((q.bufs p).drop off ++ rest.flatten).take n)
  | _, _, _, 0, _, _, _, _, _, hf => by omega
  | rest, p, off, fuel + 1, n, hr, hn, hle, ht, hf => by
    rw [copyNBytesTo, assertThat_ok ht, ok_bind]
    dsimp only
    have hlen : (q.bufs p).length - off = ((q.bufs p).drop off).length := List.length_drop.symm
    rw [hlen]
    split
    · rename_i hlt
      rw [List.take_append_of_le_length hlt.le]
      rfl
    · rename_i hge
      rcases Nat.eq_zero_or_pos (n - ((q.bufs p).drop off).length) with hz | hz
      · -- the block ends where the copy does: the recursion comes back to this block at the latest
        have hne : q.bufs p ≠ [] := by
          rintro h
          rw [h] at hge hz
          simp at hge hz
          omega
        have h0 := Nat.pos_of_ne_zero (NeZero.ne cap)
        rw [hz, copyNBytesTo_zero q (cap - 1) fuel (nextPos p) (by omega) (by rwa [ofNat_nextPos_lap]), ok_bind]
        have : n = ((q.bufs p).drop off).length := by omega
        rw [this, List.take_append_of_le_length le_rfl, List.take_length, List.append_nil]
        rfl
      · cases rest with
        | nil =>
          rw [List.flatten_nil, List.append_nil] at hle
          omega
        | cons c rest =>
          have hc : c = q.bufs (nextPos p) := by
            have := hr 0 (Nat.succ_pos _)
            rwa [Nat.add_zero, ofNat_val] at this
          rw [List.flatten_cons, List.length_append] at hle
          have ih := copyNBytesTo_along q rest (nextPos p) 0 fuel (n - ((q.bufs p).drop off).length)
            (fun j hj => by rw [ofNat_nextPos_add]; exact hr (j + 1) (Nat.succ_lt_succ hj)) hz
            (by rw [List.drop_zero, ← hc]; omega) (by omega) (by rw [List.length_cons] at hf; omega)
          have htake : ((q.bufs p).drop off ++ (c :: rest).flatten).take n =
              (q.bufs p).drop off ++ (c ++ rest.flatten).take (n - ((q.bufs p).drop off).length) := by
            have happend : ((q.bufs p).drop off ++ (c ++ rest.flatten)).take n =
                ((q.bufs p).drop off).take n ++ (c ++ rest.flatten).take (n - ((q.bufs p).drop off).length) :=
              List.take_append
            rw [List.flatten_cons, happend, List.take_of_length_le (not_lt.1 hge)]
          rw [ih, ok_bind, htake, List.drop_zero, ← hc]
          rfl

/-- What a copy from the head of the input returns. -/
theorem copyNBytesTo_spec (hq : q.Inv) {n : Nat} (h0 : 0 < n) (hn : n ≤ q.totalSize) :
    q.copyNBytesTo (copyFuel cap) n q.firstBufferPos q.firstBufferOffset = .ok (q.contents.take n) := by
  have hc := hq.count_pos (h0.trans_le hn)
  obtain ⟨k, hk⟩ := Nat.exists_eq_succ_of_ne_zero hc.ne'
  have htail : q.blocks.tail = (List.range k).map fun i => q.slot (i + 1) := by rw [blocks_succ hk, List.tail_cons]
  rw [contents_pos hc]
  apply copyNBytesTo_along q _ _ _ _ _ _ h0 _ hn
  · rw [htail, List.length_map, List.length_range, copyFuel]
    have := hq.count
    omega
  · intro j hj
    simp only [htail, List.getElem_map, List.getElem_range, slot, ofNat_nextPos_add]
  · rw [← contents_pos hc, ← hq.total]
    exact hn

/-! ## Direct reading -/

theorem viewPkgHeader_spec (hq : q.Inv) (hs : q.firstBufferServed = false) (hn : sizeofPkgHeader ≤ q.totalSize) :
    q.viewPkgHeader = .ok (PkgHeader.ofImage q.contents) := by
  rw [viewPkgHeader, assertThat_ok hs, ok_bind, assertThat_ok hn, ok_bind, copyNBytesTo_spec hq (by decide) hn,
    ok_bind, PkgHeader.ofImage_take]
  rfl

theorem readBuffer_spec (hq : q.Inv) (hs : q.firstBufferServed = false) {n : Nat} (h0 : 0 < n)
    (hn : n ≤ q.totalSize) :
    ∃ q', q.readBuffer n = .ok (q.contents.take n, q') ∧ q'.Inv ∧ q'.firstBufferServed = false ∧
      q'.blocks = Blocks.drop n q.blocks ∧ q'.byteSizeCounter = q.byteSizeCounter := by
  obtain ⟨q', h, hi⟩ := skipBytes_spec hq hs hn
  refine ⟨q', ?_, hi⟩
  rw [readBuffer, assertThat_ok hs, ok_bind, assertThat_ok hn, ok_bind, copyNBytesTo_spec hq h0 hn, ok_bind, h]
  rfl

/-! ## The zero-copy stream -/

theorem next_none_spec (hq : q.Inv) (h : q.view.flatten = []) :
    ∃ q', q.next = .ok (none, q') ∧ q'.Inv ∧ q'.firstBufferServed = false ∧ q'.blocks = q.view ∧
      q'.byteSizeCounter = q.byteSizeCounter := by
  obtain ⟨q', hr, hi, hs, hb, hbyte, -⟩ := resetFirstBufferServed_spec hq
  have ht : q'.totalSize = 0 := by rw [hi.total, contents, hb, h, List.length_nil]
  refine ⟨q', ?_, hi, hs, hb, hbyte⟩
  rw [next, hr, ok_bind, if_pos ht]
  rfl

/-- While bytes remain the block given out is the first one, empty or not. -/
theorem next_some_spec (hq : q.Inv) {b : Bytes} {bs : List Bytes} (hv : q.view = b :: bs)
    (h : (b :: bs).flatten ≠ []) :
    ∃ q', q.next = .ok (some (b, toInt b.length), q') ∧ q'.Inv ∧ q'.firstBufferServed = true ∧
      q'.blocks = b :: bs ∧ q'.byteSizeCounter = q.byteSizeCounter + toInt b.length := by
  obtain ⟨q', hr, hi, -, hb, hbyte, -⟩ := resetFirstBufferServed_spec hq
  rw [hv] at hb
  have ht : q'.totalSize ≠ 0 := by
    rw [hi.total, contents, hb]
    exact mt List.length_eq_zero_iff.1 h
  have hc := hi.count_pos (Nat.pos_of_ne_zero ht)
  have hdata : (q'.bufs q'.firstBufferPos).drop q'.firstBufferOffset = b := by
    rw [blocks_pos hc] at hb
    exact (List.cons.inj hb).1
  have hrem : q'.remainedInTheFirstBuffer = b.length := by rw [← hdata, List.length_drop, remainedInTheFirstBuffer]
  refine ⟨{ q' with byteSizeCounter := q'.byteSizeCounter + toInt b.length, firstBufferServed := true }, ?_,
    ⟨hi.count, hi.total, hi.offset, hi.empty, fun _ => hc⟩, rfl, hb, by rw [hbyte]⟩
  rw [next, hr, ok_bind, if_neg ht, hdata, hrem]
  rfl

/-- The end of the block last given out goes back; with nothing to give back the block is popped. -/
theorem backUp_spec (hq : q.Inv) (hs : q.firstBufferServed = true) {b : Bytes} {bs : List Bytes}
    (hb : q.blocks = b :: bs) {count : Nat} (hle : count ≤ b.length) :
    ∃ q', q.backUp count = .ok q' ∧ q'.Inv ∧ q'.firstBufferServed = false ∧
      q'.blocks = (if 0 < count then b.drop (b.length - count) :: bs else bs) ∧
      q'.byteSizeCounter = q.byteSizeCounter - count := by
  have hc := hq.served hs
  have hbp := blocks_pos hc
  rw [hb] at hbp
  have hdata := (List.cons.inj hbp).1
  have htail : q.blocks.tail = bs := by rw [hb, List.tail_cons]
  have hrem : q.remainedInTheFirstBuffer = b.length := by rw [hdata, List.length_drop, remainedInTheFirstBuffer]
  have htot := hq.remained_le hc
  rw [hrem] at htot
  rw [backUp, assertThat_ok hs, ok_bind]
  dsimp only
  rw [show remainedInTheFirstBuffer { q with firstBufferServed := false } = b.length from hrem, sizeSub_ok hle, ok_bind,
    sizeSub_ok (by omega), ok_bind]
  split
  · have hadv := hq.advance hc (n := b.length - count) (by omega)
    refine ⟨_, rfl, ⟨hadv.count, hadv.total, hadv.offset, hadv.empty, by simp⟩, rfl, ?_, rfl⟩
    have := blocks_offset hc (b.length - count) (q.totalSize - (b.length - count))
    rw [← hdata, htail] at this
    exact this
  · rename_i h0
    obtain rfl := Nat.eq_zero_of_not_pos h0
    have hpop := hq.pop hc
    rw [popBuffer_eq (q := { q with
      totalSize := q.totalSize - (b.length - 0)
      firstBufferServed := false
      byteSizeCounter := q.byteSizeCounter - (0 : Nat) }) hc]
    rw [hrem] at hpop
    refine ⟨_, rfl, ⟨hpop.count, ?_, hpop.offset, hpop.empty, by simp [popped]⟩, rfl, ?_, rfl⟩
    · rw [Nat.sub_zero]
      exact hpop.total
    · exact (blocks_popped hc).trans htail

theorem skip_spec (hq : q.Inv) {count : Nat} (hle : count ≤ q.view.flatten.length) :
    ∃ q', q.skip count = .ok (true, q') ∧ q'.Inv ∧ q'.firstBufferServed = false ∧
      q'.blocks = Blocks.drop count q.view ∧ q'.byteSizeCounter = q.byteSizeCounter + count := by
  obtain ⟨q₁, hr, hi, hs, hb, hbyte, -⟩ := resetFirstBufferServed_spec hq
  have ht : count ≤ q₁.totalSize := by rw [hi.total, contents, hb]; exact hle
  have hi' : Inv { q₁ with byteSizeCounter := q₁.byteSizeCounter + count } :=
    ⟨hi.count, hi.total, hi.offset, hi.empty, hi.served⟩
  obtain ⟨q', hsk, hi₂, hs₂, hb₂, hbyte₂⟩ := skipBytes_spec hi' hs ht
  refine ⟨q', ?_, hi₂, hs₂, hb₂.trans (congrArg _ hb), hbyte₂.trans (by rw [hbyte])⟩
  rw [skip, hr, ok_bind]
  dsimp only
  rw [if_neg (Nat.not_lt.2 ht), hsk]
  rfl

end Opio.ProtoEntry.PkgInput
