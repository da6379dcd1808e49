/-
`concat_small_buffers` in place: three cursors move over the buffers while the descriptors that were
taken before go on being read. What is left are the greedy groups of the buffers.
-/
import Opio.Lib.Greedy
import Opio.Lib.Heap
import Opio.Net.SkipTransferredPart

namespace Opio.Net

open ConstBuffer (subscript)

/-- `m_bufs_storage`: what each of the buffers owns, with the memory it owns it in. A buffer that was moved
from owns nothing, one of no bytes an empty block. -/
structure OwnedBuffers where
  heap : Heap UInt8
  bufs : List (Option Nat)
  deriving DecidableEq, Repr

/-- The buffers and cursors of `concat_small_buffers`. -/
structure Compaction extends OwnedBuffers where
  resultsFirst : Nat
  firstToConcat : Nat
  lastToConcat : Nat
  newSeqSize : Nat
  deriving DecidableEq, Repr

namespace OwnedBuffers

/-- `make_asio_const_buffer`. -/
def makeAsioConstBuffer (heap : Heap UInt8) : Option Nat → ConstBuffer
  | some b => ⟨b, 0, ((heap.find b).getD []).length⟩
  | none => ⟨0, 0, 0⟩

/-- `asio_bufs().bufs`. -/
def asioBufs (s : OwnedBuffers) : List ConstBuffer := s.bufs.map (makeAsioConstBuffer s.heap)

/-- What `std::memcpy` reads. -/
def read (heap : Heap UInt8) (d : ConstBuffer) : Except DescriptorFault Bytes :=
  match heap.find d.data with
  | none => .error .freed
  | some block => if d.offset + d.size ≤ block.length then .ok ((block.drop d.offset).take d.size) else .error
    .outOfRange

/-- A new buffer is assigned to a place. -/
def assign (i : Nat) (block : Bytes) (s : OwnedBuffers) : Except DescriptorFault OwnedBuffers :=
  match s.bufs[i]? with
  | none => .error .outOfRange
  | some old => do
    assertThat (s.heap.Releasable old) .doubleFree
    pure ⟨(s.heap.allocate block).release old, s.bufs.set i (some s.heap.length)⟩

/-- A buffer is moved from one place to another. -/
def move (i j : Nat) (s : OwnedBuffers) : Except DescriptorFault OwnedBuffers :=
  match s.bufs[j]?, (s.bufs.set j none)[i]? with
  | some (some b), some old => do
    assertThat (s.heap.Releasable old) .doubleFree
    pure ⟨s.heap.release old, (s.bufs.set j none).set i (some b)⟩
  | some none, _ => .error .movedFrom
  | _, _ => .error .outOfRange

/-- Buffers give back what they own, one after another. -/
def releaseAll : List (Option Nat) → Heap UInt8 → Except DescriptorFault (Heap UInt8)
  | [], heap => .ok heap
  | p :: ptrs, heap => do
    assertThat (heap.Releasable p) .doubleFree
    releaseAll ptrs (heap.release p)

/-- `resize`, which no longer has the last buffers. -/
def resize (n : Nat) (s : OwnedBuffers) : Except DescriptorFault OwnedBuffers := do
  let heap ← releaseAll (s.bufs.drop n) s.heap
  pure ⟨heap, s.bufs.take n⟩

/-- Searches for the end of a group that was begun: its size, and the position behind it. -/
def findLastToConcat (maxSize : Nat) (bufs : List ConstBuffer) (n : Nat) :
    Nat → Nat → Nat → Except DescriptorFault (Nat × Nat)
  | 0, _, _ => .error .diverged
  | fuel + 1, concatenatedSize, last =>
    if last < n then do
      let d ← subscript bufs last
      if concatenatedSize + d.size ≤ maxSize then
        findLastToConcat maxSize bufs n fuel (concatenatedSize + d.size) (last + 1)
      else pure (concatenatedSize, last)
    else pure (concatenatedSize, last)

/-- Copies a number of buffers from `i` on behind what is already in a new buffer of a size. -/
def copyBuffers (heap : Heap UInt8) (bufs : List ConstBuffer) (size : Nat) :
    Nat → Nat → Bytes → Except DescriptorFault Bytes
  | 0, _, copied => .ok copied
  | n + 1, i, copied => do
    let bufFrom ← subscript bufs i
    let bytes ← read heap bufFrom
    assertThat (copied.length + bytes.length ≤ size) .overflow
    copyBuffers heap bufs size n (i + 1) (copied ++ bytes)

/-- The buffer of a group is put where the results end. -/
def storeGroup (bufs : List ConstBuffer) (resultsFirst first last concatenatedSize : Nat) (s : OwnedBuffers) :
    Except DescriptorFault OwnedBuffers :=
  if 1 < last - first then do
    let copied ← copyBuffers s.heap bufs concatenatedSize (last - first) first []
    assign resultsFirst (copied ++ List.replicate (concatenatedSize - copied.length) 0) s
  else if resultsFirst ≠ first then move resultsFirst first s
  else pure s

end OwnedBuffers

namespace Compaction

/-- One group. -/
def step (maxSize fuel : Nat) (bufs : List ConstBuffer) (c : Compaction) : Except DescriptorFault Compaction := do
  let d ← subscript bufs c.firstToConcat
  let (concatenatedSize, last) ←
    OwnedBuffers.findLastToConcat maxSize bufs c.bufs.length fuel d.size c.lastToConcat
  let s ← c.storeGroup bufs c.resultsFirst c.firstToConcat last concatenatedSize
  let concatenated ← sizeSub last (c.firstToConcat + 1) .assertion
  let newSeqSize ← sizeSub c.newSeqSize concatenated .assertion
  pure ⟨s, c.resultsFirst + 1, last, last + 1, newSeqSize⟩

/-- Group after group. -/
def loop (maxSize : Nat) (bufs : List ConstBuffer) : Nat → Compaction → Except DescriptorFault Compaction
  | 0, _ => .error .diverged
  | fuel + 1, c => if c.firstToConcat < c.bufs.length then step maxSize fuel bufs c >>= loop maxSize bufs fuel else
    pure c

end Compaction

/-- `concat_small_buffers`. -/
def OwnedBuffers.concatSmallBuffers (maxSize fuel : Nat) (s : OwnedBuffers) : Except DescriptorFault OwnedBuffers := do
  assertThat (s.bufs.length ≠ 0) .assertion
  let c ← Compaction.loop maxSize s.asioBufs fuel ⟨s, 0, 0, 1, s.bufs.length⟩
  assertThat (c.newSeqSize ≤ c.bufs.length) .assertion
  c.resize c.newSeqSize

namespace OwnedBuffers

/-- The buffers have these contents, each in a block of its own. -/
structure Holds (s : OwnedBuffers) (contents : List Bytes) : Prop where
  owned : s.heap.Owned s.bufs
  values : s.heap.values s.bufs = contents.map some

variable {s : OwnedBuffers} {contents : List Bytes}

theorem Holds.length (h : s.Holds contents) : s.bufs.length = contents.length := by
  rw [← Heap.length_values s.heap, h.values, List.length_map]

/-- Each buffer owns a block, and its descriptor describes the whole of it. -/
theorem Holds.get (h : s.Holds contents) {i : Nat} {bytes : Bytes} (hi : contents[i]? = some bytes) :
    ∃ b, s.bufs[i]? = some (some b) ∧ s.heap.find b = some bytes ∧
      subscript s.asioBufs i = .ok ⟨b, 0, bytes.length⟩ := by
  have hvalue : (s.heap.values s.bufs)[i]? = some (some bytes) := by
    rw [h.values, List.getElem?_map, hi]
    rfl
  rw [Heap.getElem?_values] at hvalue
  obtain ⟨p, hp, hfind⟩ := Option.map_eq_some_iff.1 hvalue
  cases p with
  | none => cases hfind
  | some b =>
    have hfind : s.heap.find b = some bytes := hfind
    refine ⟨b, hp, hfind, ?_⟩
    rw [subscript, asioBufs, List.getElem?_map, hp]
    simp [makeAsioConstBuffer, hfind]

/-! ## Operations -/

theorem assign_spec (ho : s.heap.Owned s.bufs) {i : Nat} (hi : i < s.bufs.length) (block : Bytes) :
    ∃ s', s.assign i block = .ok s' ∧ s'.heap.Owned s'.bufs ∧ s'.bufs = s.bufs.set i (some s.heap.length) ∧
      s'.heap.values s'.bufs = (s.heap.values s.bufs).set i (some block) := by
  have hnew := ho.allocate block
  refine ⟨⟨(s.heap.allocate block).release s.bufs[i], s.bufs.set i (some s.heap.length)⟩, ?_, hnew.put hi, rfl, ?_⟩
  · rw [assign, List.getElem?_eq_getElem hi]
    dsimp only
    rw [assertThat_ok (ho.releasable (List.getElem_mem hi))]
    rfl
  · rw [Heap.values_put hnew hi, Heap.values_allocate ho, Heap.value_some, Heap.find_allocate_self]

theorem move_spec (ho : s.heap.Owned s.bufs) {i j b : Nat} (hi : i < s.bufs.length) (hj : s.bufs[j]? = some (some b)) :
    ∃ s', s.move i j = .ok s' ∧ s'.heap.Owned s'.bufs ∧ s'.bufs = (s.bufs.set j none).set i (some b) ∧
      s'.heap.values s'.bufs = ((s.heap.values s.bufs).set j none).set i (s.heap.find b) := by
  obtain ⟨hlt, hget⟩ := List.getElem?_eq_some_iff.1 hj
  have htaken := ho.take hlt
  rw [hget] at htaken
  have hi' : i < (s.bufs.set j none).length := by rwa [List.length_set]
  refine ⟨⟨s.heap.release (s.bufs.set j none)[i], (s.bufs.set j none).set i (some b)⟩, ?_, htaken.put hi', rfl, ?_⟩
  · rw [move, hj, List.getElem?_eq_getElem hi']
    dsimp only
    rw [assertThat_ok (htaken.releasable (List.mem_cons_of_mem _ (List.getElem_mem hi')))]
    rfl
  · rw [Heap.values_put htaken hi', Heap.value_some, Heap.values, List.map_set, Heap.value_none]
    rfl

theorem releaseAll_spec (kept : List (Option Nat)) : ∀ (dropped : List (Option Nat)) (heap : Heap UInt8),
    heap.Owned (dropped ++ kept) → ∃ heap', releaseAll dropped heap = .ok heap' ∧ heap'.Owned kept ∧
      heap'.values kept = heap.values kept
  | [], heap, ho => ⟨heap, rfl, ho, rfl⟩
  | p :: dropped, heap, ho => by
    obtain ⟨heap', hrelease, howned, hvalues⟩ := releaseAll_spec kept dropped (heap.release p) ho.release
    refine ⟨heap', ?_, howned, hvalues.trans (Heap.values_release ?_)⟩
    · rw [releaseAll, assertThat_ok (ho.releasable List.mem_cons_self), ok_bind, hrelease]
    · exact ho.sublist ((List.sublist_append_right ..).cons_cons p)

theorem resize_spec (ho : s.heap.Owned s.bufs) (n : Nat) :
    ∃ s', s.resize n = .ok s' ∧ s'.heap.Owned s'.bufs ∧ s'.bufs = s.bufs.take n ∧
      s'.heap.values s'.bufs = (s.heap.values s.bufs).take n := by
  have hperm : (s.bufs.drop n ++ s.bufs.take n).Perm s.bufs := by
    refine List.perm_append_comm.trans ?_
    rw [List.take_append_drop]
  obtain ⟨heap, hrelease, howned, hvalues⟩ := releaseAll_spec _ _ s.heap (ho.perm hperm.symm)
  refine ⟨⟨heap, s.bufs.take n⟩, by rw [resize, hrelease]; rfl, howned, rfl, hvalues.trans ?_⟩
  rw [Heap.values, Heap.values, List.map_take]

theorem resize_full {n : Nat} (hn : s.bufs.length ≤ n) : s.resize n = .ok s := by
  rw [resize, List.drop_of_length_le hn, List.take_of_length_le hn]
  rfl

theorem findLastToConcat_spec (maxSize : Nat) (h : s.Holds contents) : ∀ (rest group before : List Bytes) (fuel : Nat),
    contents = before ++ group ++ rest → rest.length < fuel →
      ∃ more rest', rest = more ++ rest' ∧
        findLastToConcat maxSize s.asioBufs contents.length fuel (weight List.length group)
          (before ++ group).length =
            .ok (weight List.length (group ++ more), (before ++ (group ++ more)).length) ∧
        (more ≠ [] → weight List.length (group ++ more) ≤ maxSize) ∧
        Overflows List.length maxSize (group ++ more) rest'
  | [], group, before, fuel, hcontents, hfuel => by
    obtain ⟨fuel, rfl⟩ := Nat.exists_eq_succ_of_ne_zero (Nat.ne_zero_of_lt hfuel)
    refine ⟨[], [], rfl, ?_, fun hne => absurd rfl hne, by rintro a ⟨⟩⟩
    rw [findLastToConcat, if_neg (by rw [hcontents, List.append_nil]; exact lt_irrefl _), List.append_nil]
    rfl
  | bytes :: rest, group, before, fuel, hcontents, hfuel => by
    obtain ⟨fuel, rfl⟩ := Nat.exists_eq_succ_of_ne_zero (Nat.ne_zero_of_lt hfuel)
    have hget : contents[(before ++ group).length]? = some bytes := by
      rw [hcontents, List.getElem?_append_right (Nat.le_refl _), Nat.sub_self, List.getElem?_cons_zero]
    obtain ⟨b, -, -, hsub⟩ := h.get hget
    rw [findLastToConcat, if_pos (List.getElem?_eq_some_iff.1 hget).1, hsub, ok_bind]
    dsimp only
    by_cases hle : weight List.length group + bytes.length ≤ maxSize
    · obtain ⟨more, rest', rfl, hfind, hfits, hover⟩ := findLastToConcat_spec maxSize h rest
        (group ++ [bytes]) before fuel (by rw [hcontents]; simp) (Nat.lt_of_succ_lt_succ hfuel)
      rw [weight_concat, ← List.append_assoc before, List.length_append, List.length_singleton] at hfind
      rw [List.append_assoc, List.singleton_append] at hfind hfits hover
      refine ⟨bytes :: more, rest', rfl, ?_, fun _ => ?_, hover⟩
      · rw [if_pos hle, hfind]
      · cases more with
        | nil =>
          rw [weight_concat]
          exact hle
        | cons _ _ => exact hfits (List.cons_ne_nil _ _)
    · refine ⟨[], bytes :: rest, rfl, ?_, fun hne => absurd rfl hne, ?_⟩
      · rw [if_neg hle, List.append_nil]
        rfl
      · rintro _ ⟨⟩
        rw [List.append_nil]
        exact Nat.not_le.1 hle

theorem copyBuffers_spec (heap : Heap UInt8) (bufs : List ConstBuffer) {size : Nat} :
    ∀ (group : List Bytes) (i : Nat) (copied : Bytes),
      (∀ k bytes, group[k]? = some bytes → ∃ b, subscript bufs (i + k) = .ok ⟨b, 0, bytes.length⟩ ∧
        heap.find b = some bytes) →
      copied.length + weight List.length group ≤ size →
      copyBuffers heap bufs size group.length i copied = .ok (copied ++ group.flatten)
  | [], _, copied, _, _ => by rw [List.length_nil, copyBuffers, List.flatten_nil, List.append_nil]
  | bytes :: group, i, copied, hget, hsize => by
    obtain ⟨b, hsub, hfind⟩ := hget 0 bytes rfl
    have hread : read heap ⟨b, 0, bytes.length⟩ = .ok bytes := by simp [read, hfind]
    rw [weight_cons] at hsize
    have hsize' : (copied ++ bytes).length + weight List.length group ≤ size := by
      rw [List.length_append]
      omega
    have hrest := copyBuffers_spec heap bufs group (i + 1) (copied ++ bytes)
      (fun k rest hk => by
        have hnext := hget (k + 1) rest hk
        rwa [← Nat.add_assoc, Nat.add_right_comm] at hnext) hsize'
    rw [Nat.add_zero] at hsub
    rw [List.length_cons, copyBuffers, hsub, ok_bind, hread, ok_bind, assertThat_ok (by omega), ok_bind, hrest,
      List.append_assoc, List.flatten_cons]

/-- A group of the contents is put where the results end. The results before it and what comes after the group
stay as they were; a buffer that is a group by itself is the one it was. -/
structure StoresGroup (s₀ s s' : OwnedBuffers) (before group : List Bytes) (resultsFirst : Nat) : Prop where
  owned : s'.heap.Owned s'.bufs
  length : s'.bufs.length = s.bufs.length
  frame : ∀ i, i < resultsFirst ∨ (before ++ group).length ≤ i →
    s'.bufs[i]? = s.bufs[i]? ∧ (s'.heap.values s'.bufs)[i]? = (s.heap.values s.bufs)[i]?
  result : (s'.heap.values s'.bufs)[resultsFirst]? = some (some group.flatten)
  alone : group.length = 1 → s'.bufs[resultsFirst]? = s₀.bufs[before.length]?
  still : group.length = 1 → resultsFirst = before.length → s' = s

/-- What the code stores for a group is the group. -/
theorem storeGroup_spec {s₀ : OwnedBuffers} (h : s₀.Holds contents) (ho : s.heap.Owned s.bufs)
    (hlen : s.bufs.length = contents.length) {before group rest : List Bytes} {resultsFirst : Nat}
    (hcontents : contents = before ++ group ++ rest) (hne : group ≠ []) (hle : resultsFirst ≤ before.length)
    (hahead : ∀ i, before.length ≤ i → s.bufs[i]? = s₀.bufs[i]? ∧
      (s.heap.values s.bufs)[i]? = contents[i]?.map some) :
    ∃ s', s.storeGroup s₀.asioBufs resultsFirst before.length (before ++ group).length (weight List.length group) =
        .ok s' ∧ StoresGroup s₀ s s' before group resultsFirst := by
  have hpos : 0 < group.length := List.length_pos_iff.2 hne
  have hend : (before ++ group).length = before.length + group.length := List.length_append
  have hgroup : ∀ k bytes, group[k]? = some bytes → contents[before.length + k]? = some bytes := by
    intro k bytes hk
    rw [hcontents, List.append_assoc, List.getElem?_append_right (Nat.le_add_right ..), Nat.add_sub_cancel_left]
    exact List.getElem?_append_left (List.getElem?_eq_some_iff.1 hk).1 ▸ hk
  have hresults : resultsFirst < s.bufs.length := by
    rw [hlen, hcontents, List.length_append, hend]
    omega
  rw [storeGroup, hend, Nat.add_sub_cancel_left]
  by_cases hmany : 1 < group.length
  · -- a copy of all buffers of the group
    have hcopy := copyBuffers_spec s.heap s₀.asioBufs group before.length [] (fun k bytes hk => ?_)
      (Nat.zero_add _).le
    · obtain ⟨s', hassign, howned, hbufs, hvalues⟩ := assign_spec ho hresults group.flatten
      have hlength : group.flatten.length = weight List.length group := List.length_flatten
      refine ⟨s', ?_, howned, ?_, fun i hi => ?_, ?_, fun hone => absurd hone hmany.ne',
        fun hone => absurd hone hmany.ne'⟩
      · rw [if_pos hmany, hcopy, ok_bind, List.nil_append, hlength, Nat.sub_self, List.replicate_zero, List.append_nil,
          hassign]
      · rw [hbufs, List.length_set]
      · have hi : resultsFirst ≠ i := by omega
        rw [hvalues, hbufs, List.getElem?_set_ne hi, List.getElem?_set_ne hi]
        exact ⟨rfl, rfl⟩
      · rw [hvalues, List.getElem?_set_self (by rwa [Heap.length_values])]
    · obtain ⟨b, hb, -, hsub⟩ := h.get (hgroup k bytes hk)
      obtain ⟨hsame, hvalue⟩ := hahead _ (Nat.le_add_right before.length k)
      rw [Heap.getElem?_values, hsame, hb, hgroup k bytes hk] at hvalue
      exact ⟨b, hsub, Option.some.inj hvalue⟩
  · -- a buffer by itself
    obtain ⟨bytes, rfl⟩ := List.length_eq_one_iff.1 (Nat.le_antisymm (Nat.not_lt.1 hmany) hpos)
    have hbytes := hgroup 0 bytes rfl
    rw [Nat.add_zero] at hbytes
    obtain ⟨b, hb, -, -⟩ := h.get hbytes
    obtain ⟨hsame, hvalue⟩ := hahead _ (Nat.le_refl before.length)
    rw [hbytes, ← (List.flatten_singleton : [bytes].flatten = bytes)] at hvalue
    rw [if_neg hmany]
    by_cases hmove : resultsFirst = before.length
    · subst hmove
      exact ⟨s, if_neg (fun hne => hne rfl), ho, rfl, fun i _ => ⟨rfl, rfl⟩, hvalue, fun _ => hsame, fun _ _ => rfl⟩
    · have hmine := hsame.trans hb
      obtain ⟨s', hmoved, howned, hbufs, hvalues⟩ := move_spec ho hresults hmine
      rw [Heap.getElem?_values, hmine] at hvalue
      have hfind : s.heap.find b = some [bytes].flatten := Option.some.inj hvalue
      refine ⟨s', ?_, howned, ?_, fun i hi => ?_, ?_, fun _ => ?_, fun _ heq => absurd heq hmove⟩
      · rw [if_pos hmove, hmoved]
      · rw [hbufs, List.length_set, List.length_set]
      · have hi₁ : resultsFirst ≠ i := by omega
        have hi₂ : before.length ≠ i := by
          rw [List.length_singleton] at hend
          omega
        rw [hvalues, hbufs, List.getElem?_set_ne hi₁, List.getElem?_set_ne hi₁, List.getElem?_set_ne hi₂,
          List.getElem?_set_ne hi₂]
        exact ⟨rfl, rfl⟩
      · rw [hvalues, List.getElem?_set_self (by rwa [List.length_set, Heap.length_values]), hfind]
      · rw [hbufs, List.getElem?_set_self (by rwa [List.length_set]), hb]

end OwnedBuffers

/-! ## Groups -/

namespace Compaction

/-- The first groups are made, and the rest is as it was. -/
structure Compacts (maxSize : Nat) (s₀ : OwnedBuffers) (groups : List (List Bytes)) (rest : List Bytes)
    (c : Compaction) : Prop where
  owned : c.heap.Owned c.bufs
  length : c.bufs.length = (groups.flatten ++ rest).length
  resultsFirst : c.resultsFirst = groups.length
  firstToConcat : c.firstToConcat = groups.flatten.length
  lastToConcat : c.lastToConcat = c.firstToConcat + 1
  newSeqSize : c.newSeqSize = groups.length + rest.length
  greedy : GreedyGroups List.length maxSize groups.flatten groups
  full : ∀ g ∈ groups.getLast?, Overflows List.length maxSize g rest
  ahead : ∀ i : Nat, groups.flatten.length ≤ i → c.bufs[i]? = s₀.bufs[i]? ∧
    (c.heap.values c.bufs)[i]? = (groups.flatten ++ rest)[i]?.map some
  results : ∀ (i : Nat) (g : List Bytes), groups[i]? = some g → (c.heap.values c.bufs)[i]? = some (some g.flatten)
  untouched : ∀ (i : Nat) (g : List Bytes), groups[i]? = some g → g.length = 1 →
    c.bufs[i]? = s₀.bufs[(groups.take i).flatten.length]?
  still : groups.flatten.length = groups.length → c.toOwnedBuffers = s₀

variable {maxSize : Nat} {s₀ : OwnedBuffers} {groups : List (List Bytes)} {rest : List Bytes} {c : Compaction}

theorem compacts_init (maxSize : Nat) {contents : List Bytes} (h : s₀.Holds contents) :
    Compacts maxSize s₀ [] contents ⟨s₀, 0, 0, 1, s₀.bufs.length⟩ where
  owned := h.owned
  length := h.length
  resultsFirst := rfl
  firstToConcat := rfl
  lastToConcat := rfl
  newSeqSize := h.length.trans (Nat.zero_add _).symm
  greedy := .nil
  full := by simp
  ahead := by
    rintro i -
    refine ⟨rfl, ?_⟩
    rw [h.values, List.getElem?_map]
    rfl
  results := by simp
  untouched := by simp
  still _ := rfl

/-- Of each group there is one buffer at least. -/
theorem Compacts.length_le (h : Compacts maxSize s₀ groups rest c) : groups.length ≤ groups.flatten.length :=
  h.greedy.length_le

/-- The groups with one more are those before and the new one. -/
theorem of_getElem?_concat {group g : List Bytes} {i : Nat} (hg : (groups ++ [group])[i]? = some g) :
    i < groups.length ∧ groups[i]? = some g ∨ i = groups.length ∧ g = group := by
  rcases Nat.lt_trichotomy i groups.length with hi | rfl | hi
  · rw [List.getElem?_append_left hi] at hg
    exact .inl ⟨hi, hg⟩
  · rw [List.getElem?_concat_length] at hg
    exact .inr ⟨rfl, (Option.some.inj hg).symm⟩
  · rw [List.getElem?_eq_none (List.length_append.trans_le hi)] at hg
    cases hg

/-- With the next group stored there is one more, and what is left is what comes after it. -/
theorem Compacts.concat {group : List Bytes} {s' : OwnedBuffers} (h : Compacts maxSize s₀ groups (group ++ rest) c)
    (hne : group ≠ []) (hfits : 1 < group.length → weight List.length group ≤ maxSize)
    (hover : Overflows List.length maxSize group rest)
    (hstored : s₀.StoresGroup c.toOwnedBuffers s' groups.flatten group groups.length) :
    Compacts maxSize s₀ (groups ++ [group]) rest ⟨s', groups.length + 1, (groups.flatten ++ group).length,
      (groups.flatten ++ group).length + 1, groups.length + 1 + rest.length⟩ := by
  have hend : (groups.flatten ++ group).length = groups.flatten.length + group.length := List.length_append
  have hflat : (groups ++ [group]).flatten = groups.flatten ++ group := by
    rw [List.flatten_append, List.flatten_singleton]
  have hcount : (groups ++ [group]).length = groups.length + 1 := by simp
  exact {
    owned := hstored.owned
    length := by rw [hstored.length, h.length, hflat, List.append_assoc]
    resultsFirst := hcount.symm
    firstToConcat := by rw [hflat]
    lastToConcat := rfl
    newSeqSize := by rw [hcount]
    greedy := by
      rw [hflat]
      refine h.greedy.concat hne hfits fun g hg a ha => h.full g hg a ?_
      rw [List.head?_append, ha]
      rfl
    full := by
      intro g hg
      rw [List.getLast?_concat] at hg
      rw [← Option.some.inj hg]
      exact hover
    ahead := fun i hi => by
      rw [hflat] at hi ⊢
      obtain ⟨hbufs, hvalues⟩ := hstored.frame i (.inr hi)
      rw [hend] at hi
      obtain ⟨hbufs', hvalues'⟩ := h.ahead i (by omega)
      rw [← List.append_assoc] at hvalues'
      exact ⟨hbufs.trans hbufs', hvalues.trans hvalues'⟩
    results := fun i g hg => by
      rcases of_getElem?_concat hg with ⟨hi, hg⟩ | ⟨rfl, rfl⟩
      · exact (hstored.frame i (.inl hi)).2.trans (h.results i g hg)
      · exact hstored.result
    untouched := fun i g hg hlen => by
      rcases of_getElem?_concat hg with ⟨hi, hg⟩ | ⟨rfl, rfl⟩
      · rw [List.take_append_of_le_length hi.le]
        exact (hstored.frame i (.inl hi)).1.trans (h.untouched i g hg hlen)
      · rw [List.take_left]
        exact hstored.alone hlen
    still := fun hsingle => by
      -- as many buffers as groups: this group too is of one buffer, which is where its result goes
      rw [hflat, hend, hcount] at hsingle
      have hle := h.length_le
      have hpos := List.length_pos_iff.2 hne
      exact (hstored.still (by omega) (by omega)).trans (h.still (by omega)) }

/-- A group is made, and there is less left. -/
theorem step_compacts {contents : List Bytes} (h₀ : s₀.Holds contents) (h : Compacts maxSize s₀ groups rest c)
    (hcontents : contents = groups.flatten ++ rest) (hne : rest ≠ []) {fuel : Nat} (hfuel : rest.length ≤ fuel) :
    ∃ group rest' c', rest = group ++ rest' ∧ group ≠ [] ∧ step maxSize fuel s₀.asioBufs c = .ok c' ∧
      Compacts maxSize s₀ (groups ++ [group]) rest' c' := by
  obtain ⟨bytes, rest, rfl⟩ := List.exists_cons_of_ne_nil hne
  have hget : contents[c.firstToConcat]? = some bytes := by
    rw [hcontents, h.firstToConcat, List.getElem?_append_right (Nat.le_refl _), Nat.sub_self, List.getElem?_cons_zero]
  obtain ⟨b, -, -, hsub⟩ := h₀.get hget
  obtain ⟨more, rest', rfl, hfind, hfits, hover⟩ := OwnedBuffers.findLastToConcat_spec maxSize h₀ rest
    [bytes] groups.flatten fuel (by rw [hcontents, List.append_assoc, List.singleton_append]) hfuel
  let group := bytes :: more
  have hgroup : contents = groups.flatten ++ group ++ rest' := by
    rw [hcontents, List.append_assoc, List.cons_append]
  have hlen : c.bufs.length = contents.length := hcontents ▸ h.length
  obtain ⟨s', hstore, hstored⟩ := OwnedBuffers.storeGroup_spec h₀ h.owned hlen hgroup (List.cons_ne_nil _ _)
    h.length_le (hcontents ▸ h.ahead)
  refine ⟨group, rest', _, rfl, List.cons_ne_nil _ _, ?_, h.concat (List.cons_ne_nil _ _) (fun hmany => hfits ?_)
    hover hstored⟩
  · have hlast : (groups.flatten ++ [bytes]).length = c.lastToConcat := by
      rw [h.lastToConcat, h.firstToConcat, List.length_append, List.length_singleton]
    rw [weight_singleton, hlast, List.singleton_append, ← hlen] at hfind
    have hnew : c.newSeqSize = groups.length + (more ++ rest').length + 1 := h.newSeqSize
    rw [List.length_append] at hnew
    have hend : (groups.flatten ++ group).length = groups.flatten.length + group.length := List.length_append
    have hgrouplen : group.length = more.length + 1 := rfl
    rw [step, hsub, ok_bind, hfind, ok_bind]
    dsimp only
    rw [h.resultsFirst, h.firstToConcat, hstore, ok_bind, hend, sizeSub_ok (by omega), ok_bind, sizeSub_ok (by omega),
      ok_bind]
    refine congrArg Except.ok ?_
    congr 1
    omega
  · rintro rfl
    exact absurd hmany (by simp [group])

theorem loop_compacts {contents : List Bytes} (h₀ : s₀.Holds contents) : ∀ (fuel : Nat) (groups : List (List Bytes))
    (rest : List Bytes) (c : Compaction), Compacts maxSize s₀ groups rest c → contents = groups.flatten ++ rest →
      rest.length < fuel → ∃ groups' c', loop maxSize s₀.asioBufs fuel c = .ok c' ∧ contents = groups'.flatten ∧
        Compacts maxSize s₀ groups' [] c'
  | 0, _, _, _, _, _, hfuel => absurd hfuel (Nat.not_lt_zero _)
  | fuel + 1, groups, rest, c, h, hcontents, hfuel => by
    unfold loop
    have hlen := h.length
    rw [List.length_append] at hlen
    cases rest with
    | nil =>
      refine ⟨groups, c, if_neg ?_, hcontents.trans (List.append_nil _), h⟩
      rw [hlen, h.firstToConcat]
      exact lt_irrefl _
    | cons bytes rest =>
      obtain ⟨group, rest', c', hrest, hne, hstep, hc'⟩ :=
        step_compacts h₀ h hcontents (List.cons_ne_nil _ _) (Nat.le_of_lt_succ hfuel)
      have hpos : 0 < group.length := List.length_pos_iff.2 hne
      have hsplit := congrArg List.length hrest
      rw [List.length_append] at hsplit
      obtain ⟨groups', c'', hloop, hcontents', hc''⟩ := loop_compacts h₀ fuel (groups ++ [group]) rest' c' hc'
        (by rw [hcontents, hrest, List.flatten_append, List.flatten_singleton, List.append_assoc]) (by omega)
      refine ⟨groups', c'', ?_, hcontents', hc''⟩
      rw [if_pos (by rw [hlen, h.firstToConcat, List.length_cons]; omega), hstep, ok_bind, hloop]

end Compaction

namespace OwnedBuffers

variable {s : OwnedBuffers} {contents : List Bytes}

theorem concatSmallBuffers_spec (maxSize : Nat) (h : s.Holds contents) (hne : contents ≠ []) (fuel : Nat)
    (hfuel : contents.length < fuel) :
    ∃ s' groups, s.concatSmallBuffers maxSize fuel = .ok s' ∧ GreedyGroups List.length maxSize contents groups ∧
      s'.Holds (groups.map List.flatten) ∧
      (∀ (i : Nat) (g : List Bytes), groups[i]? = some g → g.length = 1 →
        s'.bufs[i]? = s.bufs[(groups.take i).flatten.length]?) ∧
      (contents.length = groups.length → s' = s) := by
  obtain ⟨groups, c, hloop, rfl, hc⟩ :=
    Compaction.loop_compacts h fuel [] contents _ (Compaction.compacts_init maxSize h) rfl hfuel
  have hlen := hc.length
  have hsize : c.newSeqSize = groups.length := hc.newSeqSize
  rw [List.append_nil] at hlen
  have hle : groups.length ≤ c.bufs.length := hlen ▸ hc.length_le
  obtain ⟨s', hresize, howned, hbufs, hvalues⟩ := resize_spec hc.owned groups.length
  have hpos : s.bufs.length ≠ 0 := by
    rw [h.length]
    exact fun hnil => hne (List.length_eq_zero_iff.1 hnil)
  refine ⟨s', groups, ?_, hc.greedy, ⟨howned, ?_⟩, fun i g hg hone => ?_, fun hall => ?_⟩
  · rw [concatSmallBuffers, assertThat_ok hpos, ok_bind, hloop, ok_bind, hsize, assertThat_ok hle, ok_bind, hresize]
  · rw [hvalues]
    refine List.ext_getElem? fun i => ?_
    rw [List.map_map, List.getElem?_map]
    cases hg : groups[i]? with
    | none =>
      rw [List.getElem?_eq_none]
      · rfl
      · rw [List.length_take, Heap.length_values]
        exact (Nat.min_le_left ..).trans (List.getElem?_eq_none_iff.1 hg)
    | some g => rw [List.getElem?_take_of_lt (List.getElem?_eq_some_iff.1 hg).1, hc.results i g hg]; rfl
  · rw [hbufs, List.getElem?_take_of_lt (List.getElem?_eq_some_iff.1 hg).1, hc.untouched i g hg hone]
  · have hsame := hc.still hall
    have hfull : c.bufs.length ≤ groups.length := by rw [hlen, hall]
    rw [resize_full hfull] at hresize
    exact (Except.ok.inj hresize).symm.trans hsame

/-- The sizes of two groups in a row. -/
theorem isChain_flatten {maxSize : Nat} {groups : List (List Bytes)}
    (h : GreedyGroups List.length maxSize contents groups) :
    (groups.map List.flatten).IsChain fun a b => maxSize < a.length + b.length := by
  refine (List.isChain_map _).2 (h.adjacent.imp fun g g' hlt => ?_)
  rwa [List.length_flatten, List.length_flatten]

/-- The buffers become the greedy groups of what they held: no byte is lost or moved, a buffer is small or
was there before, two in a row are too large for one, and once is enough. -/
theorem concatSmallBuffers_greedy (maxSize : Nat) (s : OwnedBuffers) (contents : List Bytes) (h : s.Holds contents)
    (hne : contents ≠ []) (fuel : Nat) (hfuel : contents.length < fuel) :
    ∃ s' groups, s.concatSmallBuffers maxSize fuel = .ok s' ∧ GreedyGroups List.length maxSize contents groups ∧
      s'.Holds (groups.map List.flatten) ∧ (groups.map List.flatten).flatten = contents.flatten ∧
      (∀ (i : Nat) (bytes : Bytes), (groups.map List.flatten)[i]? = some bytes →
        bytes.length ≤ maxSize ∨ ∃ k : Nat, contents[k]? = some bytes ∧ s'.bufs[i]? = s.bufs[k]?) ∧
      ((groups.map List.flatten).IsChain fun a b => maxSize < a.length + b.length) ∧
      s'.concatSmallBuffers maxSize fuel = .ok s' := by
  obtain ⟨s', groups, hrun, hgreedy, hholds, huntouched, -⟩ := concatSmallBuffers_spec maxSize h hne fuel hfuel
  have hchain := isChain_flatten hgreedy
  refine ⟨s', groups, hrun, hgreedy, hholds, ?_, fun i bytes hi => ?_, hchain, ?_⟩
  · rw [← hgreedy.flatten, List.flatten_flatten]
  · rw [List.getElem?_map] at hi
    obtain ⟨g, hg, rfl⟩ := Option.map_eq_some_iff.1 hi
    by_cases hone : g.length = 1
    · obtain ⟨bytes, rfl⟩ := List.length_eq_one_iff.1 hone
      refine .inr ⟨(groups.take i).flatten.length, ?_, huntouched i _ hg hone⟩
      rw [hgreedy.items_eq hg, List.getElem?_append_right (Nat.le_refl _), Nat.sub_self]
      simp
    · have hpos : 0 < g.length := List.length_pos_iff.2 (hgreedy.nonempty g (List.mem_of_getElem? hg))
      refine .inl ?_
      rw [List.length_flatten]
      exact hgreedy.fits g (List.mem_of_getElem? hg) (by omega)
  · have hcount := hgreedy.length_le
    have hne' : groups.map List.flatten ≠ [] := by
      intro hnil
      rw [List.map_eq_nil_iff.1 hnil] at hgreedy
      exact hne hgreedy.flatten.symm
    obtain ⟨s'', groups', hrun', hgreedy', -, -, hstill⟩ :=
      concatSmallBuffers_spec maxSize hholds hne' fuel (by rw [List.length_map]; omega)
    obtain rfl := hgreedy'.unique (GreedyGroups.singletons hchain)
    rw [hrun', hstill (List.length_map _).symm]

/-- Two small buffers, one that is too large, an empty one behind it, and one that is small. -/
theorem concatSmallBuffers_greedy_mixed : ∃ s', concatSmallBuffers 3 6
    ⟨[some [1], some [2, 3], some [4, 5, 6, 7], some [], some [8]], [some 0, some 1, some 2, some 3, some 4]⟩ = .ok s' ∧
      s'.concatSmallBuffers 3 6 = .ok s' := by
  have hholds : Holds ⟨[some [1], some [2, 3], some [4, 5, 6, 7], some [], some [8]],
      [some 0, some 1, some 2, some 3, some 4]⟩ [[1], [2, 3], [4, 5, 6, 7], [], [8]] := by
    refine ⟨⟨?_, ?_⟩, by decide⟩
    · simp [Heap.Apart]
    · simp [Heap.find]
  obtain ⟨s', _, hrun, -, -, -, -, -, hagain⟩ :=
    concatSmallBuffers_greedy 3 _ _ hholds (List.cons_ne_nil _ _) 6 (by decide)
  exact ⟨s', hrun, hagain⟩

/-! ## The sequence -/

theorem concatGroups_extend (maxSize : Nat) : ∀ (more rest : List Bytes) (group : Bytes),
    (more ≠ [] → group.length + weight List.length more ≤ maxSize) →
      SingleWritableSequence.concatGroups maxSize group (more ++ rest) =
        SingleWritableSequence.concatGroups maxSize (group ++ more.flatten) rest
  | [], rest, group, _ => by rw [List.nil_append, List.flatten_nil, List.append_nil]
  | bytes :: more, rest, group, hfits => by
    have hle := hfits (List.cons_ne_nil _ _)
    rw [weight_cons] at hle
    rw [List.cons_append, SingleWritableSequence.concatGroups, if_pos (by omega), concatGroups_extend maxSize more,
      List.append_assoc, List.flatten_cons]
    rintro -
    rw [List.length_append]
    omega

/-- The groups of the sequence are the greedy ones. -/
theorem concatGroups_greedy {maxSize : Nat} : ∀ {groups : List (List Bytes)} {buf : Bytes} {bufs : List Bytes},
    GreedyGroups List.length maxSize (buf :: bufs) groups →
      SingleWritableSequence.concatGroups maxSize buf bufs = groups.map List.flatten
  | [], _, _, h => by cases h.flatten
  | [] :: _, _, _, h => absurd rfl (h.nonempty [] List.mem_cons_self)
  | (a :: more) :: groups, buf, bufs, h => by
    have hflat : a :: (more ++ groups.flatten) = buf :: bufs := h.flatten
    obtain ⟨rfl, rfl⟩ := List.cons.inj hflat
    rw [concatGroups_extend]
    · rw [List.map_cons, List.flatten_cons]
      cases hgroups : groups with
      | nil => rfl
      | cons next groups' =>
        subst hgroups
        have htail := h.tail
        cases hnext : next with
        | nil => exact absurd hnext (h.nonempty next (by simp))
        | cons b next' =>
          subst hnext
          have hover : maxSize < weight List.length (a :: more) + b.length :=
            (List.isChain_cons_cons.1 h.maximal).1 b rfl
          have hrest : SingleWritableSequence.concatGroups maxSize b (next' ++ groups'.flatten) =
              ((b :: next') :: groups').map List.flatten := concatGroups_greedy htail
          have hlen : (a ++ more.flatten).length = weight List.length (a :: more) := by
            rw [weight_cons, List.length_append, List.length_flatten, weight]
          rw [List.flatten_cons, List.cons_append, SingleWritableSequence.concatGroups, if_neg (by omega), hrest]
    · intro hne
      have hfits := h.fits _ List.mem_cons_self (by simpa using List.length_pos_iff.2 hne)
      rwa [weight_cons] at hfits

/-- In place the buffers become what the sequence says they become. -/
theorem concatSmallBuffers_refines {maxSize fuel : Nat} {seq : SingleWritableSequence} (h : s.Holds seq.bufsStorage)
    (hne : seq.bufsStorage ≠ []) (hfuel : seq.bufsStorage.length < fuel) :
    ∃ s', s.concatSmallBuffers maxSize fuel = .ok s' ∧ s'.Holds (seq.concatSmallBuffers maxSize).bufsStorage := by
  obtain ⟨s', groups, hrun, hgreedy, hholds, -⟩ := concatSmallBuffers_spec maxSize h hne fuel hfuel
  refine ⟨s', hrun, ?_⟩
  obtain ⟨buf, bufs, hbufs⟩ := List.exists_cons_of_ne_nil hne
  rw [hbufs] at hgreedy
  rw [SingleWritableSequence.concatSmallBuffers, hbufs]
  dsimp only
  rwa [concatGroups_greedy hgreedy]

end OwnedBuffers

end Opio.Net
