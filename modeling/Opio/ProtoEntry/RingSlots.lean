/-
The buffers in the ring of `pkg_input_t`, read or not: every call but `append` leaves the last of
them and writes to none. As long as none of them grows too large for an `int`, the zero-copy stream
tells its reader the sizes its blocks have.
-/
import Opio.ProtoEntry.ZeroCopy

namespace Opio.ProtoEntry.PkgInput

open scoped List

variable {cap : Nat} [NeZero cap] {q q' : PkgInput cap}

/-- The buffers of the live slots, with what was already read of the first one. -/
def slots (q : PkgInput cap) : List Bytes := (List.range q.buffersCount).map q.slot

theorem slots_popped (q : PkgInput cap) : q.popped.slots = q.slots.tail := by
  unfold slots
  cases h : q.buffersCount with
  | zero =>
    have hc : q.popped.buffersCount = 0 := by simp [popped, h]
    rw [hc]
    rfl
  | succ n =>
    have hc : q.popped.buffersCount = n := by simp [popped, h]
    rw [hc, List.range_succ_eq_map, List.map_cons, List.tail_cons, List.map_map]
    exact List.map_congr_left fun i _ => slot_popped q i

/-- What is left of a slot is no longer than the slot. -/
theorem exists_slot_of_mem_blocks {b : Bytes} (h : b ∈ q.blocks) : ∃ s ∈ q.slots, b.length ≤ s.length := by
  obtain ⟨i, hi, rfl⟩ := List.mem_map.1 h
  refine ⟨q.slot i, List.mem_map_of_mem hi, ?_⟩
  rw [remained, List.length_drop]
  exact Nat.sub_le _ _

/-! ## What the calls leave -/

theorem popBuffer_slots (h : popBuffer q = .ok q') : q'.slots <:+ q.slots := by
  obtain ⟨-, -, hk⟩ := bind_eq_ok.1 h
  obtain rfl : q.popped = q' := Except.ok.inj hk
  rw [slots_popped]
  exact List.tail_suffix _

theorem resetFirstBufferServed_slots (h : q.resetFirstBufferServed = .ok q') : q'.slots <:+ q.slots := by
  unfold resetFirstBufferServed at h
  split at h
  · obtain ⟨total, -, hk⟩ := bind_eq_ok.1 h
    obtain ⟨q₁, hpop, hk⟩ := bind_eq_ok.1 hk
    obtain rfl : { q₁ with firstBufferServed := false } = q' := Except.ok.inj hk
    have hsuffix : q₁.slots <:+ PkgInput.slots { q with totalSize := total } := popBuffer_slots hpop
    exact hsuffix
  · obtain rfl : q = q' := Except.ok.inj h
    exact List.suffix_rfl

theorem skipBytesRec_slots : ∀ (fuel : Nat) (q : PkgInput cap) (n : Nat) {q' : PkgInput cap},
    skipBytesRec fuel q n = .ok q' → q'.slots <:+ q.slots
  | 0, _, _, _, h => nomatch h
  | fuel + 1, q, n, q', h => by
    obtain ⟨-, -, h⟩ := bind_eq_ok.1 h
    obtain ⟨-, -, h⟩ := bind_eq_ok.1 h
    split at h
    · obtain rfl : q = q' := Except.ok.inj h
      exact List.suffix_rfl
    dsimp only at h
    split at h
    · rw [← Except.ok.inj h]
      exact List.suffix_rfl
    · obtain ⟨q₁, hpop, h⟩ := bind_eq_ok.1 h
      obtain ⟨total, -, h⟩ := bind_eq_ok.1 h
      have hrest := skipBytesRec_slots fuel { q₁ with totalSize := total } _ h
      exact hrest.trans (show q₁.slots <:+ q.slots from popBuffer_slots hpop)

theorem skipBytes_slots {n : Nat} (h : q.skipBytes n = .ok q') : q'.slots <:+ q.slots :=
  skipBytesRec_slots _ q n h

theorem readBuffer_slots {n : Nat} {bytes : Bytes} (h : q.readBuffer n = .ok (bytes, q')) : q'.slots <:+ q.slots := by
  obtain ⟨-, -, h⟩ := bind_eq_ok.1 h
  obtain ⟨-, -, h⟩ := bind_eq_ok.1 h
  obtain ⟨bytes', -, h⟩ := bind_eq_ok.1 h
  obtain ⟨q₁, hskip, h⟩ := bind_eq_ok.1 h
  obtain rfl : q₁ = q' := congrArg Prod.snd (Except.ok.inj h)
  exact skipBytes_slots hskip

theorem next_slots {b : Option (Bytes × Int)} (h : q.next = .ok (b, q')) : q'.slots <:+ q.slots := by
  obtain ⟨q₁, hreset, h⟩ := bind_eq_ok.1 h
  have hsuffix := resetFirstBufferServed_slots hreset
  split at h
  · obtain rfl : q₁ = q' := congrArg Prod.snd (Except.ok.inj h)
    exact hsuffix
  · obtain rfl := congrArg Prod.snd (Except.ok.inj h)
    exact hsuffix

theorem backUp_slots {count : Nat} (h : q.backUp count = .ok q') : q'.slots <:+ q.slots := by
  obtain ⟨-, -, h⟩ := bind_eq_ok.1 h
  obtain ⟨consumedSize, -, h⟩ := bind_eq_ok.1 h
  obtain ⟨totalSize, -, h⟩ := bind_eq_ok.1 h
  dsimp only at h
  split at h
  · rw [← Except.ok.inj h]
    exact List.suffix_rfl
  · exact popBuffer_slots (q := { q with
      firstBufferServed := false, totalSize := totalSize, byteSizeCounter := q.byteSizeCounter - count }) h

theorem skip_slots {count : Nat} {all : Bool} (h : q.skip count = .ok (all, q')) : q'.slots <:+ q.slots := by
  obtain ⟨q₁, hreset, h⟩ := bind_eq_ok.1 h
  have hsuffix := resetFirstBufferServed_slots hreset
  dsimp only at h
  split at h
  · obtain rfl := congrArg Prod.snd (Except.ok.inj h)
    exact hsuffix
  · obtain ⟨q₂, hskip, h⟩ := bind_eq_ok.1 h
    obtain rfl : q₂ = q' := congrArg Prod.snd (Except.ok.inj h)
    exact (skipBytes_slots hskip).trans hsuffix

theorem zeroCopyCall_slots {c : ZeroCopyCall} (h : q.zeroCopyCall c = .ok q') : q'.slots <:+ q.slots := by
  cases c with
  | skip count =>
    obtain ⟨⟨all, q₁⟩, hskip, h⟩ := bind_eq_ok.1 h
    obtain rfl : q₁ = q' := Except.ok.inj h
    exact skip_slots hskip
  | next backUp =>
    cases backUp with
    | none =>
      obtain ⟨⟨b, q₁⟩, hnext, h⟩ := bind_eq_ok.1 h
      obtain rfl : q₁ = q' := Except.ok.inj h
      exact next_slots hnext
    | some count =>
      obtain ⟨⟨b, q₁⟩, hnext, h⟩ := bind_eq_ok.1 h
      exact (backUp_slots h).trans (next_slots hnext)

theorem zeroCopyCalls_slots : ∀ (calls : List ZeroCopyCall) (q : PkgInput cap) {q' : PkgInput cap},
    q.zeroCopyCalls calls = .ok q' → q'.slots <:+ q.slots
  | [], q, q', h => by
    obtain rfl : q = q' := Except.ok.inj h
    exact List.suffix_rfl
  | c :: calls, q, q', h => by
    obtain ⟨q₁, hcall, h⟩ := bind_eq_ok.1 h
    exact (zeroCopyCalls_slots calls q₁ h).trans (zeroCopyCall_slots hcall)

/-! ## What an append leaves -/

/-- In a full ring the last slot grows, and all of it is still to be read. -/
theorem append_slots (hq : q.Inv) (hcap : 1 < cap) {buf : Bytes} (h : q.append buf = .ok q') {s : Bytes}
    (hs : s ∈ q'.slots) : s ∈ q.slots ∨ s.length ≤ q'.size := by
  rcases Bool.eq_false_or_eq_true q.firstBufferServed with hserved | hserved
  · rw [append, assertThat_error (by simp [hserved])] at h
    cases h
  obtain ⟨q₁, h₁, hi, -, hcont, -⟩ := append_spec hq hserved buf
  obtain rfl : q₁ = q' := Except.ok.inj (h₁.symm.trans h)
  have hsize : q₁.size = q.contents.length + buf.length := by
    rw [size, hi.total, hcont, List.length_append]
  rw [append_eq hserved] at h
  obtain ⟨i, hi', rfl⟩ := List.mem_map.1 hs
  have hi' := List.mem_range.1 hi'
  have hcount := hq.count
  by_cases hlt : q.buffersCount < cap
  · rw [if_pos hlt] at h
    obtain rfl := Except.ok.inj h
    have hi' : i < q.buffersCount + 1 := hi'
    rw [slot_appendedNew hlt buf (by omega)]
    by_cases hlast : i = q.buffersCount
    · rw [if_pos hlast, hsize]
      exact .inr (Nat.le_add_left _ _)
    · rw [if_neg hlast]
      exact .inl (List.mem_map_of_mem (List.mem_range.2 (by omega)))
  · rw [if_neg hlt] at h
    obtain rfl := Except.ok.inj h
    obtain ⟨n, hn⟩ := Nat.exists_eq_succ_of_ne_zero (show q.buffersCount ≠ 0 by omega)
    have hi' : i < q.buffersCount := hi'
    rw [slot_appendedFull hn (by omega) buf (by omega)]
    by_cases hlast : i = n
    · rw [if_pos hlast, hsize, List.length_append]
      right
      -- the last slot is not the first one, so none of it has been read
      have hmem : q.slot n ∈ q.blocks := by
        refine List.mem_map.2 ⟨n, List.mem_range.2 (by omega), ?_⟩
        rw [remained, if_neg (by omega), List.drop_zero]
      have := (List.sublist_flatten_of_mem hmem).length_le
      unfold contents
      omega
    · rw [if_neg hlast]
      exact .inl (List.mem_map_of_mem (List.mem_range.2 hi'))

/-! ## Blocks whose sizes fit an `int` -/

/-- No buffer in the ring reaches `2 ^ 31` bytes. -/
def Fits (q : PkgInput cap) : Prop := ∀ s ∈ q.slots, s.length < 2 ^ 31

/-- What `Next` stores for the size of its block is the size of the block. -/
def NextIsExact (q : PkgInput cap) : Prop := ∀ b n q', q.next = .ok (some (b, n), q') → n = b.length

theorem Fits.of_suffix (h : q.Fits) (hs : q'.slots <:+ q.slots) : q'.Fits := fun s hmem => h s (hs.subset hmem)

theorem Fits.blocks (h : q.Fits) {b : Bytes} (hb : b ∈ q.blocks) : b.length < 2 ^ 31 := by
  obtain ⟨s, hs, hle⟩ := exists_slot_of_mem_blocks hb
  exact hle.trans_lt (h s hs)

theorem next_inv (hq : q.Inv) {r : Option (Bytes × Int)} (h : q.next = .ok (r, q')) :
    q'.Inv ∧ ∀ b n, r = some (b, n) → n = toInt b.length ∧ b ∈ q.blocks := by
  rcases hv : q.view.flatten with _ | ⟨x, xs⟩
  · obtain ⟨q₁, hnext, hi, -⟩ := next_none_spec hq hv
    obtain ⟨rfl, rfl⟩ := Prod.mk.inj (Except.ok.inj (hnext.symm.trans h))
    exact ⟨hi, nofun⟩
  · obtain ⟨b, bs, hview⟩ : ∃ b bs, q.view = b :: bs := by
      cases hcons : q.view with
      | nil =>
        rw [hcons] at hv
        cases hv
      | cons b bs => exact ⟨b, bs, rfl⟩
    have hne : (b :: bs).flatten ≠ [] := by
      rw [← hview, hv]
      exact List.cons_ne_nil x xs
    obtain ⟨q₁, hnext, hi, -⟩ := next_some_spec hq hview hne
    obtain ⟨rfl, rfl⟩ := Prod.mk.inj (Except.ok.inj (hnext.symm.trans h))
    refine ⟨hi, fun b' n heq => ?_⟩
    obtain ⟨rfl, rfl⟩ := Prod.mk.inj (Option.some.inj heq)
    have hmem : b ∈ q.view := by
      rw [hview]
      exact List.mem_cons_self ..
    unfold view at hmem
    split at hmem
    · exact ⟨rfl, List.mem_of_mem_tail hmem⟩
    · exact ⟨rfl, hmem⟩

theorem Fits.nextIsExact (h : q.Fits) (hq : q.Inv) : q.NextIsExact := by
  intro b n q' hnext
  obtain ⟨hn, hb⟩ := (next_inv hq hnext).2 b n rfl
  rw [hn, toInt_eq (h.blocks hb)]

/-! ## Calls that return keep the input well-formed -/

theorem skipBytes_inv (hq : q.Inv) {n : Nat} (h : q.skipBytes n = .ok q') : q'.Inv := by
  obtain ⟨hs, hn⟩ : q.firstBufferServed = false ∧ n ≤ q.totalSize := by
    obtain ⟨_, hs, h⟩ := bind_eq_ok.1 h
    obtain ⟨_, hn, -⟩ := bind_eq_ok.1 h
    exact ⟨of_assertThat hs, of_assertThat hn⟩
  obtain ⟨q₁, hskip, hi, -⟩ := skipBytes_spec hq hs hn
  obtain rfl : q₁ = q' := Except.ok.inj (hskip.symm.trans h)
  exact hi

theorem backUp_inv (hq : q.Inv) {count : Nat} (h : q.backUp count = .ok q') : q'.Inv := by
  obtain ⟨hs, hle⟩ : q.firstBufferServed = true ∧ count ≤ q.remainedInTheFirstBuffer := by
    obtain ⟨_, hs, h⟩ := bind_eq_ok.1 h
    obtain ⟨consumedSize, hle, -⟩ := bind_eq_ok.1 h
    exact ⟨of_assertThat hs, of_sizeSub hle⟩
  have hlen : q.remainedInTheFirstBuffer = ((q.bufs q.firstBufferPos).drop q.firstBufferOffset).length := by
    rw [List.length_drop, remainedInTheFirstBuffer]
  obtain ⟨q₁, hback, hi, -⟩ := backUp_spec hq hs (blocks_pos (hq.served hs)) (hle.trans hlen.le)
  obtain rfl : q₁ = q' := Except.ok.inj (hback.symm.trans h)
  exact hi

theorem skip_inv (hq : q.Inv) {count : Nat} {all : Bool} (h : q.skip count = .ok (all, q')) : q'.Inv := by
  obtain ⟨q₁, hreset, h⟩ := bind_eq_ok.1 h
  obtain ⟨q₂, hreset', hi, -⟩ := resetFirstBufferServed_spec hq
  obtain rfl : q₂ = q₁ := Except.ok.inj (hreset'.symm.trans hreset)
  have hi' : Inv { q₂ with byteSizeCounter := q₂.byteSizeCounter + count } :=
    ⟨hi.count, hi.total, hi.offset, hi.empty, hi.served⟩
  dsimp only at h
  split at h
  · obtain rfl := congrArg Prod.snd (Except.ok.inj h)
    exact hi'
  · obtain ⟨q₃, hskip, h⟩ := bind_eq_ok.1 h
    obtain rfl : q₃ = q' := congrArg Prod.snd (Except.ok.inj h)
    exact skipBytes_inv hi' hskip

theorem zeroCopyCall_inv (hq : q.Inv) {c : ZeroCopyCall} (h : q.zeroCopyCall c = .ok q') : q'.Inv := by
  cases c with
  | skip count =>
    obtain ⟨⟨all, q₁⟩, hskip, h⟩ := bind_eq_ok.1 h
    obtain rfl : q₁ = q' := Except.ok.inj h
    exact skip_inv hq hskip
  | next backUp =>
    cases backUp with
    | none =>
      obtain ⟨⟨b, q₁⟩, hnext, h⟩ := bind_eq_ok.1 h
      obtain rfl : q₁ = q' := Except.ok.inj h
      exact (next_inv hq hnext).1
    | some count =>
      obtain ⟨⟨b, q₁⟩, hnext, h⟩ := bind_eq_ok.1 h
      exact backUp_inv (next_inv hq hnext).1 h

theorem zeroCopyCalls_inv : ∀ (calls : List ZeroCopyCall) {q q' : PkgInput cap}, q.Inv →
    q.zeroCopyCalls calls = .ok q' → q'.Inv
  | [], q, q', hq, h => by
    obtain rfl : q = q' := Except.ok.inj h
    exact hq
  | c :: calls, q, q', hq, h => by
    obtain ⟨q₁, hcall, h⟩ := bind_eq_ok.1 h
    exact zeroCopyCalls_inv calls (zeroCopyCall_inv hq hcall) h

/-- Wherever a parse gets to behind a header, the sizes it is told are exact. -/
theorem Fits.parse_exact (h : q.Fits) (hq : q.Inv) {n : Nat} {calls : List ZeroCopyCall} {q₁ q₂ : PkgInput cap}
    (hskip : q.skipBytes n = .ok q₁) (hcalls : q₁.zeroCopyCalls calls = .ok q₂) : q₂.NextIsExact :=
  ((h.of_suffix (skipBytes_slots hskip)).of_suffix (zeroCopyCalls_slots calls q₁ hcalls)).nextIsExact
    (zeroCopyCalls_inv calls (skipBytes_inv hq hskip) hcalls)

end Opio.ProtoEntry.PkgInput
