/-
`skip_transferred_part` on the descriptors themselves: a scan with no bound of its own, which ends
within the list as long as something is left to be written.
-/
import Opio.Lib.Checked
import Opio.Net.WritableSequence

namespace Opio.Net

/-- `asio_ns::const_buffer`: a number of bytes from a place in a block of memory on. -/
structure ConstBuffer where
  data : Nat
  offset : Nat
  size : Nat
  deriving DecidableEq, Repr

/-- What working with descriptors must not come to. -/
inductive DescriptorFault where
  | assertion
  | outOfRange
  | freed
  | movedFrom
  | overflow
  | doubleFree
  | diverged
  deriving DecidableEq, Repr

/-- `std::span`: the part of an array from `first` on. -/
structure BufDescriptorsSpan where
  array : List ConstBuffer
  first : Nat
  deriving DecidableEq, Repr

namespace BufDescriptorsSpan

def bufs (span : BufDescriptorsSpan) : List ConstBuffer := span.array.drop span.first

end BufDescriptorsSpan

namespace ConstBuffer

/-- `bufs[ i ]`. -/
def subscript (bufs : List ConstBuffer) (i : Nat) : Except DescriptorFault ConstBuffer :=
  match bufs[i]? with
  | some d => .ok d
  | none => .error .outOfRange

/-- The places a descriptor describes, each with its block. -/
def places (d : ConstBuffer) : List (Nat × Nat) := (List.range' d.offset d.size).map fun i => (d.data, i)

/-- The places a list of descriptors describes. -/
def allPlaces (bufs : List ConstBuffer) : List (Nat × Nat) := bufs.flatMap places

def totalSize (bufs : List ConstBuffer) : Nat := (bufs.map size).sum

/-- The first `n` bytes are no longer described. -/
def advance (d : ConstBuffer) (n : Nat) : ConstBuffer := { d with offset := d.offset + n, size := d.size - n }

/-- The loop of `skip_transferred_part`: the first descriptor to keep, and what was transferred of it. -/
def firstBuffToKeep (bufs : List ConstBuffer) : Nat → Nat → Nat → Except DescriptorFault (Nat × Nat)
  | 0, _, _ => .error .diverged
  | fuel + 1, transferred, i => do
    let d ← subscript bufs i
    if d.size ≤ transferred then firstBuffToKeep bufs fuel (transferred - d.size) (i + 1)
    else pure (i, transferred)

/-- `skip_transferred_part`. The array of the descriptors is changed in place. -/
def skipTransferredPart (fuel : Nat) (bufs : List ConstBuffer) (transferred : Nat) :
    Except DescriptorFault BufDescriptorsSpan := do
  assertThat (0 < bufs.length) .assertion
  let (first, transferred) ← firstBuffToKeep bufs fuel transferred 0
  assertThat (first ≤ bufs.length) .outOfRange
  let d ← subscript (bufs.drop first) 0
  pure ⟨bufs.set first (d.advance transferred), first⟩

/-! ## Descriptors -/

theorem subscript_append (before : List ConstBuffer) (d : ConstBuffer) (after : List ConstBuffer) :
    subscript (before ++ d :: after) before.length = .ok d := by
  rw [subscript, List.getElem?_append_right (Nat.le_refl _), Nat.sub_self, List.getElem?_cons_zero]

@[simp] theorem length_places (d : ConstBuffer) : d.places.length = d.size := by
  rw [places, List.length_map, List.length_range']

@[simp] theorem totalSize_cons (d : ConstBuffer) (bufs : List ConstBuffer) :
    totalSize (d :: bufs) = d.size + totalSize bufs := by
  rw [totalSize, List.map_cons, List.sum_cons, totalSize]

@[simp] theorem length_allPlaces : ∀ bufs : List ConstBuffer, (allPlaces bufs).length = totalSize bufs
  | [] => rfl
  | d :: bufs => by
    rw [allPlaces, List.flatMap_cons, List.length_append, length_places, totalSize_cons, ← length_allPlaces bufs,
      allPlaces]

theorem places_advance (d : ConstBuffer) (n : Nat) : (d.advance n).places = d.places.drop n := by
  rw [places, places, ← List.map_drop, List.drop_range']
  simp [advance]

/-! ## The scan -/

/-- As long as more is described than was transferred, the scan stops at a descriptor that has some of it. -/
theorem firstBuffToKeep_stops : ∀ (rest before : List ConstBuffer) (transferred : Nat), transferred < totalSize rest →
    ∃ mid d after transferred', rest = mid ++ d :: after ∧ transferred = totalSize mid + transferred' ∧
      transferred' < d.size ∧ ∀ fuel, mid.length < fuel →
        firstBuffToKeep (before ++ rest) fuel transferred before.length =
          .ok (before.length + mid.length, transferred')
  | [], _, _, h => absurd h (Nat.not_lt_zero _)
  | d :: rest, before, transferred, h => by
    by_cases hle : d.size ≤ transferred
    · have hrest : transferred - d.size < totalSize rest := by
        rw [totalSize_cons] at h
        omega
      obtain ⟨mid, d', after, transferred', rfl, htotal, hlt, hscan⟩ :=
        firstBuffToKeep_stops rest (before ++ [d]) _ hrest
      refine ⟨d :: mid, d', after, transferred', rfl, ?_, hlt, fun fuel hfuel => ?_⟩
      · rw [totalSize_cons]
        omega
      · obtain ⟨fuel, rfl⟩ := Nat.exists_eq_succ_of_ne_zero (Nat.ne_zero_of_lt hfuel)
        have hnext := hscan fuel (Nat.lt_of_succ_lt_succ hfuel)
        rw [List.append_assoc, List.singleton_append, List.length_append, List.length_singleton] at hnext
        rw [firstBuffToKeep, subscript_append, ok_bind, if_pos hle, hnext, List.length_cons]
        congr 2
        omega
    · refine ⟨[], d, rest, transferred, rfl, (Nat.zero_add _).symm, Nat.not_le.1 hle, fun fuel hfuel => ?_⟩
      obtain ⟨fuel, rfl⟩ := Nat.exists_eq_succ_of_ne_zero (Nat.ne_zero_of_lt hfuel)
      rw [firstBuffToKeep, subscript_append, ok_bind, if_neg hle]
      rfl

/-- Where the scan stops, and what is left there. -/
theorem skipTransferredPart_stops {bufs : List ConstBuffer} {transferred : Nat} (h : transferred < totalSize bufs) :
    ∃ mid d after transferred', bufs = mid ++ d :: after ∧ transferred = totalSize mid + transferred' ∧
      transferred' < d.size ∧ ∀ fuel, bufs.length ≤ fuel →
        skipTransferredPart fuel bufs transferred = .ok ⟨mid ++ d.advance transferred' :: after, mid.length⟩ := by
  obtain ⟨mid, d, after, transferred', rfl, htotal, hlt, hscan⟩ := firstBuffToKeep_stops bufs [] transferred h
  refine ⟨mid, d, after, transferred', rfl, htotal, hlt, fun fuel hfuel => ?_⟩
  have hlen : mid.length < (mid ++ d :: after).length := by simp
  have hscan := hscan fuel (hlen.trans_le hfuel)
  rw [List.nil_append, List.length_nil, Nat.zero_add] at hscan
  have hfirst : subscript ((mid ++ d :: after).drop mid.length) 0 = .ok d := by
    rw [List.drop_left]
    rfl
  rw [skipTransferredPart, assertThat_ok (Nat.zero_lt_of_lt hlen), ok_bind, hscan, ok_bind]
  dsimp only
  rw [assertThat_ok hlen.le, ok_bind, hfirst, ok_bind, List.set_append_right _ _ (Nat.le_refl _), Nat.sub_self,
    List.set_cons_zero]
  rfl

/-- The scan stays within the list, what it leaves describes the places behind the transferred ones, begins
with a descriptor of some, and goes on with those that were there. -/
theorem skipTransferredPart_spec (bufs : List ConstBuffer) (transferred : Nat) (h : transferred < totalSize bufs) :
    ∃ res : BufDescriptorsSpan, (∀ fuel, bufs.length ≤ fuel → skipTransferredPart fuel bufs transferred = .ok res) ∧
      allPlaces res.bufs = (allPlaces bufs).drop transferred ∧ (∃ d ∈ res.bufs.head?, 0 < d.size) ∧
      res.first < bufs.length ∧ res.bufs.tail = bufs.drop (res.first + 1) := by
  obtain ⟨mid, d, after, transferred', rfl, rfl, hlt, hskip⟩ := skipTransferredPart_stops h
  have hbufs : BufDescriptorsSpan.bufs ⟨mid ++ d.advance transferred' :: after, mid.length⟩ =
      d.advance transferred' :: after := List.drop_left
  refine ⟨_, hskip, ?_, ⟨_, by rw [hbufs]; rfl, Nat.sub_pos_of_lt hlt⟩, by simp, ?_⟩
  · have hmid : (allPlaces mid).length = totalSize mid := length_allPlaces mid
    have hle : transferred' ≤ d.places.length := by
      rw [length_places]
      exact hlt.le
    rw [hbufs, ← List.drop_drop, allPlaces, allPlaces, List.flatMap_append, ← hmid, allPlaces, List.drop_left,
      List.flatMap_cons, List.flatMap_cons, List.drop_append_of_le_length hle, places_advance]
  · change _ = (mid ++ d :: after).drop (mid.length + 1)
    rw [hbufs, List.tail_cons, List.append_cons, List.drop_left' (by simp)]

/-- Two empty descriptors and one that was written whole come before the one that was written in part. -/
theorem skipTransferredPart_spec_boundary : ∃ res : BufDescriptorsSpan,
    skipTransferredPart 5 [⟨0, 0, 0⟩, ⟨1, 0, 3⟩, ⟨2, 0, 0⟩, ⟨3, 0, 4⟩, ⟨4, 0, 0⟩] 3 = .ok res ∧
      (∃ d ∈ res.bufs.head?, 0 < d.size) := by
  obtain ⟨res, hskip, -, hhead, -⟩ :=
    skipTransferredPart_spec [⟨0, 0, 0⟩, ⟨1, 0, 3⟩, ⟨2, 0, 0⟩, ⟨3, 0, 4⟩, ⟨4, 0, 0⟩] 3 (by decide)
  exact ⟨res, hskip 5 (by decide), hhead⟩

/-! ## Bytes -/

/-- The bytes a descriptor describes in a memory. -/
def bytes (memory : Nat × Nat → UInt8) (d : ConstBuffer) : Bytes := d.places.map memory

/-- On the descriptors the scan does what it does on the bytes they describe. -/
theorem bytes_skipTransferredPart (memory : Nat × Nat → UInt8) {fuel transferred : Nat} {bufs : List ConstBuffer}
    (h : transferred < totalSize bufs) (hfuel : bufs.length ≤ fuel) :
    ∃ res, skipTransferredPart fuel bufs transferred = .ok res ∧
      res.bufs.map (bytes memory) = Net.skipTransferredPart (bufs.map (bytes memory)) transferred := by
  obtain ⟨mid, d, after, transferred', rfl, rfl, hlt, hskip⟩ := skipTransferredPart_stops h
  refine ⟨_, hskip fuel hfuel, ?_⟩
  have hscan : ∀ mid : List ConstBuffer,
      Net.skipTransferredPart ((mid ++ d :: after).map (bytes memory)) (totalSize mid + transferred') =
        bytes memory (d.advance transferred') :: after.map (bytes memory) := by
    intro mid
    induction mid with
    | nil =>
      have hnot : ¬ (bytes memory d).length ≤ transferred' := by
        rw [bytes, List.length_map, length_places]
        exact Nat.not_le.2 hlt
      rw [List.nil_append, List.map_cons, Net.skipTransferredPart, totalSize, List.map_nil, List.sum_nil, Nat.zero_add,
        if_neg hnot, bytes, bytes, places_advance, List.map_drop]
    | cons e mid ih =>
      have hlen : (bytes memory e).length = e.size := by rw [bytes, List.length_map, length_places]
      rw [List.cons_append, List.map_cons, Net.skipTransferredPart, hlen, totalSize_cons, if_pos (by omega),
        Nat.add_assoc, Nat.add_sub_cancel_left, ih]
  rw [hscan, BufDescriptorsSpan.bufs, List.drop_left, List.map_cons]

end ConstBuffer

end Opio.Net
