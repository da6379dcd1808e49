/-
`simple_buffer_t`: a size, a capacity and a block of memory kept by hand. However buffers are made, moved
and resized, they are vectors of bytes that do not share anything.
-/
import Opio.Lib.Checked
import Opio.Lib.Heap
import Opio.Lib.LittleEndian
import Opio.Lib.Runs

namespace Opio.Net

/-- What a call on buffers must not come to. -/
inductive BufferFault where
  | assertion
  | noSuchBuffer
  | outOfBounds
  | doubleFree
  deriving DecidableEq, Repr

/-- `simple_buffer_t`. -/
structure SimpleBuffer where
  size : Nat := 0
  capacity : Nat := 0
  buf : Option Nat := none
  deriving DecidableEq, Repr

/-- `empty()`. -/
def SimpleBuffer.empty (b : SimpleBuffer) : Bool := 0 ≠ b.size

/-- Buffers, named by their place in the order they were made, and the memory they own. -/
structure SimpleBuffers where
  heap : Heap UInt8 := []
  bufs : List SimpleBuffer := []
  deriving DecidableEq, Repr

/-- What is done with the buffers. A new one gets the next place. -/
inductive BufferOp where
  | construct
  | constructSize (n : Nat)
  | constructFilled (n : Nat) (v : UInt8)
  | constructFrom (src : Bytes)
  | makeFrom (init : Bytes)
  | moveConstruct (j : Nat)
  | moveAssign (i j : Nat)
  | makeCopy (j : Nat)
  | shrinkSize (i n : Nat)
  | resize (i n : Nat)
  | resizeWithDoubleCapacityGrowth (i n : Nat)
  | incrementSizeWithDoubleCapacityGrowth (i k : Nat)
  | write (i pos : Nat) (v : UInt8)
  deriving DecidableEq, Repr

/-- The buffers whose bytes an operation may change. -/
def BufferOp.targets : BufferOp → List Nat
  | .construct | .constructSize _ | .constructFilled _ _ | .constructFrom _ | .makeFrom _ | .makeCopy _ => []
  | .moveConstruct i | .shrinkSize i _ | .resize i _ | .resizeWithDoubleCapacityGrowth i _
  | .incrementSizeWithDoubleCapacityGrowth i _ | .write i _ _ => [i]
  | .moveAssign i j => [i, j]

namespace SimpleBuffers

def get (s : SimpleBuffers) (i : Nat) : Except BufferFault SimpleBuffer :=
  match s.bufs[i]? with
  | some b => .ok b
  | none => .error .noSuchBuffer

/-- The first bytes behind `data()`. -/
def read (heap : Heap UInt8) : Option Nat → Nat → Except BufferFault Bytes
  | _, 0 => .ok []
  | none, _ + 1 => .error .outOfBounds
  | some b, n + 1 =>
    match heap.find b with
    | some block => if n + 1 ≤ block.length then .ok (block.take (n + 1)) else .error .outOfBounds
    | none => .error .outOfBounds

/-- `simple_buffer_t( n )` with what the constructor then writes to all of its bytes. There is no block for
no bytes. -/
def constructWith (data : Bytes) (s : SimpleBuffers) : SimpleBuffers :=
  if data.length ≠ 0 then
    ⟨s.heap.allocate data, s.bufs ++ [⟨data.length, data.length, some s.heap.length⟩]⟩
  else { s with bufs := s.bufs ++ [{}] }

def moveConstruct (j : Nat) (s : SimpleBuffers) : Except BufferFault SimpleBuffers := do
  let sb ← s.get j
  pure { s with bufs := s.bufs.set j {} ++ [sb] }

/-- The source is left empty before anything is given to the target, which may be the source. -/
def moveAssign (i j : Nat) (s : SimpleBuffers) : Except BufferFault SimpleBuffers := do
  let sb ← s.get j
  let s := { s with bufs := s.bufs.set j {} }
  let b ← s.get i
  assertThat (s.heap.Releasable b.buf) .doubleFree
  pure ⟨s.heap.release b.buf, s.bufs.set i sb⟩

def makeCopy (j : Nat) (s : SimpleBuffers) : Except BufferFault SimpleBuffers := do
  let b ← s.get j
  let data ← read s.heap b.buf b.size
  pure (s.constructWith data)

def shrinkSize (i n : Nat) (s : SimpleBuffers) : Except BufferFault SimpleBuffers := do
  let b ← s.get i
  assertThat (n ≤ b.size) .assertion
  pure { s with bufs := s.bufs.set i { b with size := n } }

/-- A size within the capacity is only noted, and for another one the data goes to a new block. -/
def resizeTo (i n newCapacity : Nat) (s : SimpleBuffers) : Except BufferFault SimpleBuffers := do
  let b ← s.get i
  if n ≤ b.capacity then pure { s with bufs := s.bufs.set i { b with size := n } }
  else do
    let data ← read s.heap b.buf b.size
    assertThat (b.size ≤ newCapacity) .outOfBounds
    assertThat (s.heap.Releasable b.buf) .doubleFree
    pure ⟨(s.heap.allocate (data ++ List.replicate (newCapacity - b.size) 0)).release b.buf,
      s.bufs.set i ⟨n, newCapacity, some s.heap.length⟩⟩

def resize (i n : Nat) (s : SimpleBuffers) : Except BufferFault SimpleBuffers := resizeTo i n n s

def resizeWithDoubleCapacityGrowth (i n : Nat) (s : SimpleBuffers) : Except BufferFault SimpleBuffers := do
  let b ← s.get i
  resizeTo i n (max (b.capacity * 2 % 2 ^ 64) n) s

def incrementSizeWithDoubleCapacityGrowth (i k : Nat) (s : SimpleBuffers) : Except BufferFault SimpleBuffers := do
  let b ← s.get i
  resizeWithDoubleCapacityGrowth i ((b.size + k) % 2 ^ 64) s

/-- `data()[ pos ] = v`. -/
def write (i pos : Nat) (v : UInt8) (s : SimpleBuffers) : Except BufferFault SimpleBuffers := do
  let b ← s.get i
  assertThat (pos < b.size) .outOfBounds
  match b.buf with
  | some p => pure { s with heap := s.heap.modify p fun block => block.set pos v }
  | none => .error .outOfBounds

def call (s : SimpleBuffers) : BufferOp → Except BufferFault SimpleBuffers
  | .construct => pure { s with bufs := s.bufs ++ [{}] }
  | .constructSize n => pure (s.constructWith (List.replicate n 0))
  | .constructFilled n v => pure (s.constructWith (List.replicate n v))
  | .constructFrom src => pure (s.constructWith src)
  | .makeFrom init => pure (s.constructWith init)
  | .moveConstruct j => s.moveConstruct j
  | .moveAssign i j => s.moveAssign i j
  | .makeCopy j => s.makeCopy j
  | .shrinkSize i n => s.shrinkSize i n
  | .resize i n => s.resize i n
  | .resizeWithDoubleCapacityGrowth i n => s.resizeWithDoubleCapacityGrowth i n
  | .incrementSizeWithDoubleCapacityGrowth i k => s.incrementSizeWithDoubleCapacityGrowth i k
  | .write i pos v => s.write i pos v

def step (s : SimpleBuffers) (op : BufferOp) : Option SimpleBuffers := (s.call op).toOption

/-- The buffers named exist, one is shrunk to no more than its size, and written to within it. -/
def Pre (s : SimpleBuffers) : BufferOp → Prop
  | .construct | .constructSize _ | .constructFilled _ _ | .constructFrom _ | .makeFrom _ => True
  | .moveConstruct j | .makeCopy j => j < s.bufs.length
  | .moveAssign i j => i < s.bufs.length ∧ j < s.bufs.length
  | .shrinkSize i n => ∃ b ∈ s.bufs[i]?, n ≤ b.size
  | .resize i _ | .resizeWithDoubleCapacityGrowth i _ | .incrementSizeWithDoubleCapacityGrowth i _ => i < s.bufs.length
  | .write i pos _ => ∃ b ∈ s.bufs[i]?, pos < b.size

instance (s : SimpleBuffers) : ∀ op, Decidable (s.Pre op)
  | .construct | .constructSize _ | .constructFilled _ _ | .constructFrom _ | .makeFrom _ =>
    inferInstanceAs (Decidable True)
  | .moveConstruct j | .makeCopy j => inferInstanceAs (Decidable (j < s.bufs.length))
  | .moveAssign i j => inferInstanceAs (Decidable (i < s.bufs.length ∧ j < s.bufs.length))
  | .shrinkSize i n => inferInstanceAs (Decidable (∃ b ∈ s.bufs[i]?, n ≤ b.size))
  | .resize i _ | .resizeWithDoubleCapacityGrowth i _ | .incrementSizeWithDoubleCapacityGrowth i _ =>
    inferInstanceAs (Decidable (i < s.bufs.length))
  | .write i pos _ => inferInstanceAs (Decidable (∃ b ∈ s.bufs[i]?, pos < b.size))

/-- What each of the buffers owns. -/
def ptrs (s : SimpleBuffers) : List (Option Nat) := s.bufs.map SimpleBuffer.buf

/-- The bytes that `data()` and `size()` give of a buffer. -/
def bytes (s : SimpleBuffers) (i : Nat) : Bytes :=
  match s.bufs[i]? with
  | some b => ((s.heap.value b.buf).getD []).take b.size
  | none => []

end SimpleBuffers

/-! ## Vectors of bytes -/

/-- A vector of bytes: its storage, of which the first bytes are in use. -/
structure ByteVector where
  storage : Bytes
  size : Nat
  le : size ≤ storage.length

namespace ByteVector

def bytes (v : ByteVector) : Bytes := v.storage.take v.size

def nil : ByteVector := ⟨[], 0, Nat.le_refl 0⟩

def ofBytes (data : Bytes) : ByteVector := ⟨data, data.length, Nat.le_refl _⟩

def shrink (v : ByteVector) (n : Nat) : ByteVector := ⟨v.storage, min n v.size, Nat.le_trans (Nat.min_le_right ..) v.le⟩

@[simp] theorem length_bytes (v : ByteVector) : v.bytes.length = v.size := by
  rw [bytes, List.length_take, Nat.min_eq_left v.le]

/-- Storage of a new length, which begins with the bytes in use. -/
def resizeTo (v : ByteVector) (n newCapacity : Nat) : ByteVector :=
  if h : n ≤ v.storage.length then ⟨v.storage, n, h⟩
  else ⟨v.bytes ++ List.replicate (max newCapacity n - v.size) 0, n, by
    rw [List.length_append, List.length_replicate, length_bytes]
    omega⟩

def resize (v : ByteVector) (n : Nat) : ByteVector := v.resizeTo n n

def resizeWithDoubleCapacityGrowth (v : ByteVector) (n : Nat) : ByteVector :=
  v.resizeTo n (v.storage.length * 2 % 2 ^ 64)

def write (v : ByteVector) (pos : Nat) (x : UInt8) : ByteVector :=
  ⟨v.storage.set pos x, v.size, by rw [List.length_set]; exact v.le⟩

@[simp] theorem size_resizeTo (v : ByteVector) (n newCapacity : Nat) : (v.resizeTo n newCapacity).size = n := by
  unfold resizeTo
  split <;> rfl

/-- As many bytes as before and after are in use stay. -/
theorem take_resizeTo (v : ByteVector) (n newCapacity : Nat) :
    (v.resizeTo n newCapacity).bytes.take (min v.size n) = v.bytes.take (min v.size n) := by
  have hle : min v.size n ≤ v.size := Nat.min_le_left ..
  have hle' : min v.size n ≤ n := Nat.min_le_right ..
  unfold resizeTo
  split
  · rw [bytes, bytes, List.take_take, List.take_take, Nat.min_eq_left hle, Nat.min_eq_left hle']
  · have hlen : min v.size n ≤ v.bytes.length := by rwa [length_bytes]
    rw [bytes, List.take_take, Nat.min_eq_left hle', List.take_append_of_le_length hlen]

/-- Bytes that a vector was shrunk to are there when it grows again. -/
theorem take_resizeTo_shrink (v : ByteVector) {m : Nat} (hm : m ≤ v.size) (n newCapacity : Nat) :
    ((v.shrink m).resizeTo n newCapacity).bytes.take (min m n) = v.bytes.take (min m n) := by
  have hsize : (v.shrink m).size = m := Nat.min_eq_left hm
  have hkept := (v.shrink m).take_resizeTo n newCapacity
  rw [hsize] at hkept
  rw [hkept, bytes, bytes, List.take_take, List.take_take, hsize]
  congr 1
  omega

/-- What is done with a vector of a list. -/
def update (i : Nat) (f : ByteVector → ByteVector) (vs : List ByteVector) : List ByteVector :=
  match vs[i]? with
  | some v => vs.set i (f v)
  | none => vs

theorem getElem?_update {vs : List ByteVector} {i : Nat} {v : ByteVector} (hv : vs[i]? = some v)
    (f : ByteVector → ByteVector) : (update i f vs)[i]? = some (f v) := by
  rw [update, hv]
  exact List.getElem?_set_self (List.getElem?_eq_some_iff.1 hv).1

theorem getElem?_update_ne {i k : Nat} (hne : i ≠ k) (f : ByteVector → ByteVector) (vs : List ByteVector) :
    (update i f vs)[k]? = vs[k]? := by
  unfold update
  split
  · exact List.getElem?_set_ne hne
  · rfl

/-- The same operations on vectors. -/
def apply (vs : List ByteVector) : BufferOp → List ByteVector
  | .construct => vs ++ [nil]
  | .constructSize n => vs ++ [ofBytes (List.replicate n 0)]
  | .constructFilled n v => vs ++ [ofBytes (List.replicate n v)]
  | .constructFrom src => vs ++ [ofBytes src]
  | .makeFrom init => vs ++ [ofBytes init]
  | .moveConstruct j => vs.set j nil ++ vs[j]?.toList
  | .moveAssign i j => update i (fun v => vs[j]?.getD v) (vs.set j nil)
  | .makeCopy j => vs ++ (vs[j]?.map fun v => ofBytes v.bytes).toList
  | .shrinkSize i n => update i (fun v => v.shrink n) vs
  | .resize i n => update i (fun v => v.resize n) vs
  | .resizeWithDoubleCapacityGrowth i n => update i (fun v => v.resizeWithDoubleCapacityGrowth n) vs
  | .incrementSizeWithDoubleCapacityGrowth i k =>
    update i (fun v => v.resizeWithDoubleCapacityGrowth ((v.size + k) % 2 ^ 64)) vs
  | .write i pos x => update i (fun v => v.write pos x) vs

/-- The other vectors stay as they are. -/
theorem getElem?_apply {vs : List ByteVector} {op : BufferOp} {k : Nat} (hk : k < vs.length) (hop : k ∉ op.targets) :
    (apply vs op)[k]? = vs[k]? := by
  cases op with
  | construct | constructSize | constructFilled | constructFrom | makeFrom | makeCopy =>
    exact List.getElem?_append_left hk
  | moveConstruct j =>
    have hne : j ≠ k := fun heq => hop (List.mem_singleton.2 heq.symm)
    rw [apply, List.getElem?_append_left (by rwa [List.length_set]), List.getElem?_set_ne hne]
  | moveAssign i j =>
    have hi : i ≠ k := fun heq => hop (by simp [BufferOp.targets, heq])
    have hj : j ≠ k := fun heq => hop (by simp [BufferOp.targets, heq])
    rw [apply, getElem?_update_ne hi, List.getElem?_set_ne hj]
  | shrinkSize i | resize i | resizeWithDoubleCapacityGrowth i | incrementSizeWithDoubleCapacityGrowth i | write i =>
    exact getElem?_update_ne (fun heq => hop (List.mem_singleton.2 heq.symm)) _ _

end ByteVector

namespace SimpleBuffers

open scoped List

/-! ## Refinement -/

/-- The buffers are the vectors, each in a block of its own. -/
structure Represents (s : SimpleBuffers) (vs : List ByteVector) : Prop where
  owned : s.heap.Owned s.ptrs
  sizes : s.bufs.map (fun b => (b.size, b.capacity)) = vs.map fun v => (v.size, v.storage.length)
  storage : (s.heap.values s.ptrs).map (·.getD []) = vs.map ByteVector.storage

variable {s s' : SimpleBuffers} {vs : List ByteVector} {v : ByteVector} {b : SimpleBuffer} {i : Nat}

theorem represents_init : Represents {} [] := ⟨Heap.owned_nil _, rfl, rfl⟩

theorem Represents.length (h : s.Represents vs) : s.bufs.length = vs.length := by
  have hlen := congrArg List.length h.sizes
  rwa [List.length_map, List.length_map] at hlen

theorem length_ptrs (s : SimpleBuffers) : s.ptrs.length = s.bufs.length := List.length_map _

/-- A buffer and its vector. -/
theorem Represents.get (h : s.Represents vs) (hi : s.bufs[i]? = some b) :
    ∃ v, vs[i]? = some v ∧ b.size = v.size ∧ b.capacity = v.storage.length ∧
      (s.heap.value b.buf).getD [] = v.storage := by
  have hsizes := congrArg (·[i]?) h.sizes
  have hstorage := congrArg (·[i]?) h.storage
  simp only [List.getElem?_map, Heap.getElem?_values, ptrs, hi, Option.map_some] at hsizes hstorage
  obtain ⟨v, hv, hsize⟩ := Option.map_eq_some_iff.1 hsizes.symm
  rw [hv] at hstorage
  exact ⟨v, hv, (congrArg Prod.fst hsize).symm, (congrArg Prod.snd hsize).symm, Option.some.inj hstorage⟩

theorem set_same {α : Type} {l : List α} {a : α} (hi : l[i]? = some a) : l.set i a = l := by
  obtain ⟨hlt, rfl⟩ := List.getElem?_eq_some_iff.1 hi
  exact List.set_getElem_self hlt

theorem get_ok (hi : s.bufs[i]? = some b) : s.get i = .ok b := by rw [SimpleBuffers.get, hi]

theorem of_get (h : s.get i = .ok b) : s.bufs[i]? = some b := by
  unfold SimpleBuffers.get at h
  cases hi : s.bufs[i]? with
  | none => rw [hi] at h; cases h
  | some b' => rw [hi] at h; rw [Except.ok.inj h]

theorem Represents.bytes (h : s.Represents vs) (i : Nat) : s.bytes i = (vs[i]?.map ByteVector.bytes).getD [] := by
  unfold SimpleBuffers.bytes
  cases hi : s.bufs[i]? with
  | none =>
    have hnone : vs[i]? = none := by
      rw [List.getElem?_eq_none_iff, ← h.length]
      exact List.getElem?_eq_none_iff.1 hi
    rw [hnone]
    rfl
  | some b =>
    obtain ⟨v, hv, hsize, -, hstorage⟩ := h.get hi
    rw [hv]
    dsimp only
    rw [hsize, hstorage]
    rfl

/-- The bytes in use are all there to be read. -/
theorem read_ok (hsize : b.size = v.size) (hstorage : (s.heap.value b.buf).getD [] = v.storage) :
    read s.heap b.buf b.size = .ok v.bytes := by
  have hle := v.le
  rw [ByteVector.bytes, ← hsize]
  rw [← hsize] at hle
  cases hn : b.size with
  | zero => rfl
  | succ n =>
    rw [hn] at hle
    cases hbuf : b.buf with
    | none =>
      rw [hbuf] at hstorage
      rw [← hstorage] at hle
      exact absurd hle (Nat.not_succ_le_zero n)
    | some p =>
      rw [hbuf, Heap.value_some] at hstorage
      cases hfind : s.heap.find p with
      | none =>
        rw [hfind] at hstorage
        rw [← hstorage] at hle
        exact absurd hle (Nat.not_succ_le_zero n)
      | some block =>
        rw [hfind] at hstorage
        obtain rfl : block = v.storage := hstorage
        rw [read, hfind]
        exact if_pos hle

/-! ## Operations -/

theorem constructWith_represents (h : s.Represents vs) (data : Bytes) :
    (s.constructWith data).Represents (vs ++ [.ofBytes data]) := by
  unfold constructWith
  split
  · have hptrs : ptrs ⟨s.heap.allocate data, s.bufs ++ [⟨data.length, data.length, some s.heap.length⟩]⟩ =
        s.ptrs ++ [some s.heap.length] := List.map_append
    refine ⟨?_, ?_, ?_⟩
    · rw [hptrs]
      exact (h.owned.allocate data).perm (List.perm_append_singleton ..).symm
    · rw [List.map_append, List.map_append, h.sizes]
      rfl
    · rw [hptrs, Heap.values, List.map_append, List.map_append, List.map_append, ← h.storage]
      congr 1
      · exact congrArg _ (Heap.values_allocate h.owned data)
      · rw [List.map_singleton, List.map_singleton, Heap.value_some, Heap.find_allocate_self]
        rfl
  next hnil =>
    obtain rfl := List.length_eq_zero_iff.1 (not_not.1 hnil)
    have hptrs : ptrs { s with bufs := s.bufs ++ [{}] } = s.ptrs ++ [none] := List.map_append
    refine ⟨?_, ?_, ?_⟩
    · rw [hptrs]
      exact h.owned.cons_none.perm (List.perm_append_singleton ..).symm
    · rw [List.map_append, List.map_append, h.sizes]
      rfl
    · rw [hptrs, Heap.values, List.map_append, List.map_append, List.map_append, ← h.storage]
      rfl

/-- A buffer is given another size within its capacity. -/
theorem setSize_represents (h : s.Represents vs) (hi : s.bufs[i]? = some b) (hv : vs[i]? = some v) (v' : ByteVector)
    (hcapacity : b.capacity = v.storage.length) (hstorage : v'.storage = v.storage) :
    Represents { s with bufs := s.bufs.set i { b with size := v'.size } } (vs.set i v') := by
  have hptrs : ptrs { s with bufs := s.bufs.set i { b with size := v'.size } } = s.ptrs := by
    rw [ptrs, List.map_set]
    exact set_same (by rw [List.getElem?_map, hi]; rfl)
  refine ⟨?_, ?_, ?_⟩
  · rw [hptrs]
    exact h.owned
  · rw [List.map_set, List.map_set, h.sizes, hstorage, hcapacity]
  · rw [hptrs, List.map_set, ← h.storage, hstorage]
    refine (set_same ?_).symm
    rw [h.storage, List.getElem?_map, hv, Option.map_some]

/-- A buffer is given a new block. -/
theorem setBlock_represents (h : s.Represents vs) (hi : s.bufs[i]? = some b) (v' : ByteVector) :
    Represents ⟨(s.heap.allocate v'.storage).release b.buf,
      s.bufs.set i ⟨v'.size, v'.storage.length, some s.heap.length⟩⟩ (vs.set i v') := by
  obtain ⟨hlt, hget⟩ := List.getElem?_eq_some_iff.1 hi
  have hlt' : i < s.ptrs.length := by rwa [length_ptrs]
  have hbuf : s.ptrs[i] = b.buf := by rw [← hget]; exact List.getElem_map ..
  have hnew := h.owned.allocate v'.storage
  have hput := hnew.put hlt'
  have hvalues := Heap.values_put hnew hlt'
  rw [Heap.values_allocate h.owned, Heap.value_some, Heap.find_allocate_self] at hvalues
  rw [hbuf] at hput hvalues
  have hptrs : ptrs ⟨(s.heap.allocate v'.storage).release b.buf,
      s.bufs.set i ⟨v'.size, v'.storage.length, some s.heap.length⟩⟩ = s.ptrs.set i (some s.heap.length) := List.map_set
  refine ⟨?_, ?_, ?_⟩
  · rw [hptrs]
    exact hput
  · rw [List.map_set, List.map_set, h.sizes]
  · rw [hptrs, hvalues, List.map_set, List.map_set, h.storage]
    rfl

/-- What a buffer owns is its own to give back. -/
theorem Represents.releasable (h : s.Represents vs) (hi : s.bufs[i]? = some b) : s.heap.Releasable b.buf :=
  h.owned.releasable (List.mem_map.2 ⟨b, List.mem_of_getElem? hi, rfl⟩)

theorem resizeTo_represents (h : s.Represents vs) (hi : i < s.bufs.length) (n newCapacity : Nat) :
    ∃ s', s.resizeTo i n (max newCapacity n) = .ok s' ∧
      s'.Represents (ByteVector.update i (fun v => v.resizeTo n newCapacity) vs) := by
  obtain ⟨b, hb⟩ : ∃ b, s.bufs[i]? = some b := ⟨_, List.getElem?_eq_getElem hi⟩
  obtain ⟨v, hv, hsize, hcapacity, hstorage⟩ := h.get hb
  rw [resizeTo, get_ok hb, ok_bind, ByteVector.update, hv]
  dsimp only
  by_cases hn : n ≤ v.storage.length
  · rw [if_pos (hcapacity.symm ▸ hn), ByteVector.resizeTo, dif_pos hn]
    exact ⟨_, rfl, setSize_represents h hb hv ⟨v.storage, n, hn⟩ hcapacity rfl⟩
  · have hle := v.le
    have hlen : (v.bytes ++ List.replicate (max newCapacity n - v.size) 0).length = max newCapacity n := by
      rw [List.length_append, List.length_replicate, ByteVector.length_bytes]
      omega
    have hset := setBlock_represents h hb (v.resizeTo n newCapacity)
    rw [ByteVector.resizeTo, dif_neg hn] at hset ⊢
    dsimp only at hset
    rw [hlen] at hset
    rw [if_neg (hcapacity.symm ▸ hn), read_ok hsize hstorage, ok_bind, hsize, assertThat_ok (by omega), ok_bind,
      assertThat_ok (h.releasable hb), ok_bind]
    exact ⟨_, rfl, hset⟩

theorem resizeWithDoubleCapacityGrowth_represents (h : s.Represents vs) (hb : s.bufs[i]? = some b) (n : Nat) :
    ∃ s', s.resizeWithDoubleCapacityGrowth i n = .ok s' ∧
      s'.Represents (ByteVector.update i (fun v => v.resizeWithDoubleCapacityGrowth n) vs) := by
  obtain ⟨v, hv, -, hcapacity, -⟩ := h.get hb
  obtain ⟨s', hcall, hs'⟩ :=
    resizeTo_represents h (List.getElem?_eq_some_iff.1 hb).1 n (b.capacity * 2 % 2 ^ 64)
  rw [ByteVector.update, hv, hcapacity] at hs'
  rw [resizeWithDoubleCapacityGrowth, get_ok hb, ok_bind, hcall, ByteVector.update, hv]
  exact ⟨s', rfl, hs'⟩

theorem incrementSizeWithDoubleCapacityGrowth_represents (h : s.Represents vs) (hb : s.bufs[i]? = some b) (k : Nat) :
    ∃ s', s.incrementSizeWithDoubleCapacityGrowth i k = .ok s' ∧ s'.Represents (ByteVector.update i
      (fun v => v.resizeWithDoubleCapacityGrowth ((v.size + k) % 2 ^ 64)) vs) := by
  obtain ⟨v, hv, hsize, -, -⟩ := h.get hb
  obtain ⟨s', hcall, hs'⟩ := resizeWithDoubleCapacityGrowth_represents h hb ((b.size + k) % 2 ^ 64)
  rw [ByteVector.update, hv, hsize] at hs'
  rw [incrementSizeWithDoubleCapacityGrowth, get_ok hb, ok_bind, hcall, ByteVector.update, hv]
  exact ⟨s', rfl, hs'⟩

theorem moveConstruct_represents (h : s.Represents vs) {j : Nat} (hj : j < s.bufs.length) :
    ∃ s', s.moveConstruct j = .ok s' ∧ s'.Represents (vs.set j .nil ++ vs[j]?.toList) := by
  obtain ⟨sb, hsb⟩ : ∃ b, s.bufs[j]? = some b := ⟨_, List.getElem?_eq_getElem hj⟩
  obtain ⟨v, hv, hsize, hcapacity, hstorage⟩ := h.get hsb
  rw [moveConstruct, get_ok hsb, ok_bind, hv, Option.toList_some]
  have hlt : j < s.ptrs.length := by rwa [length_ptrs]
  have hbuf : s.ptrs[j] = sb.buf := by
    rw [← (List.getElem?_eq_some_iff.1 hsb).2]
    exact List.getElem_map ..
  have htaken := h.owned.take hlt
  rw [hbuf] at htaken
  have hptrs : ptrs { s with bufs := s.bufs.set j {} ++ [sb] } = s.ptrs.set j none ++ [sb.buf] := by
    rw [ptrs, List.map_append, List.map_set]
    rfl
  refine ⟨_, rfl, ?_, ?_, ?_⟩
  · rw [hptrs]
    exact htaken.perm (List.perm_append_singleton ..).symm
  · rw [List.map_append, List.map_append, List.map_set, List.map_set, h.sizes, List.map_singleton, List.map_singleton,
      hsize, hcapacity]
    rfl
  · rw [hptrs, Heap.values, List.map_append, List.map_append, List.map_append, List.map_set, List.map_set, List.map_set,
      ← h.storage, List.map_singleton, List.map_singleton, List.map_singleton, hstorage]
    rfl

theorem moveAssign_represents (h : s.Represents vs) {j : Nat} (hi : i < s.bufs.length) (hj : j < s.bufs.length) :
    ∃ s', s.moveAssign i j = .ok s' ∧
      s'.Represents (ByteVector.update i (fun v => vs[j]?.getD v) (vs.set j .nil)) := by
  obtain ⟨sb, hsb⟩ : ∃ b, s.bufs[j]? = some b := ⟨_, List.getElem?_eq_getElem hj⟩
  obtain ⟨v, hv, hsize, hcapacity, hstorage⟩ := h.get hsb
  obtain ⟨b, hb⟩ : ∃ b, (s.bufs.set j {})[i]? = some b := ⟨_, List.getElem?_eq_getElem (by rwa [List.length_set])⟩
  obtain ⟨u, hu⟩ : ∃ u, (vs.set j .nil)[i]? = some u :=
    ⟨_, List.getElem?_eq_getElem (by rw [List.length_set, ← h.length]; exact hi)⟩
  rw [moveAssign, get_ok hsb, ok_bind]
  dsimp only
  rw [get_ok (s := { s with bufs := s.bufs.set j {} }) hb, ok_bind, ByteVector.update, hu, hv]
  have hlt : j < s.ptrs.length := by rwa [length_ptrs]
  have hbufj : s.ptrs[j] = sb.buf := by
    rw [← (List.getElem?_eq_some_iff.1 hsb).2]
    exact List.getElem_map ..
  have hset : (s.bufs.set j {}).map SimpleBuffer.buf = s.ptrs.set j none := List.map_set
  have hlt' : i < (s.ptrs.set j none).length := by rwa [List.length_set, length_ptrs]
  have hbufi : (s.ptrs.set j none)[i] = b.buf := by
    have hget := congrArg (Option.map SimpleBuffer.buf) hb
    rw [← List.getElem?_map, hset] at hget
    exact (List.getElem?_eq_some_iff.1 hget).2
  -- the pointer that was taken out is an owner like the others until it is put in
  have htaken := h.owned.take hlt
  have hput := htaken.put hlt'
  have hvalues := Heap.values_put htaken hlt'
  rw [hbufi, hbufj] at hput hvalues
  have hptrs : ptrs ⟨s.heap.release b.buf, (s.bufs.set j {}).set i sb⟩ = (s.ptrs.set j none).set i sb.buf := by
    rw [ptrs, List.map_set, hset]
  rw [assertThat_ok (htaken.releasable (List.mem_cons_of_mem _ (hbufi ▸ List.getElem_mem hlt'))), ok_bind]
  refine ⟨_, rfl, ?_, ?_, ?_⟩
  · rw [hptrs]
    exact hput
  · rw [List.map_set, List.map_set, List.map_set, List.map_set, h.sizes, hsize, hcapacity]
    rfl
  · rw [hptrs, hvalues, Heap.values, List.map_set, List.map_set, List.map_set, List.map_set, List.map_set,
      ← h.storage, hstorage]
    rfl

theorem makeCopy_represents (h : s.Represents vs) {j : Nat} (hj : j < s.bufs.length) :
    ∃ s', s.makeCopy j = .ok s' ∧ s'.Represents (vs ++ (vs[j]?.map fun v => .ofBytes v.bytes).toList) := by
  obtain ⟨b, hb⟩ : ∃ b, s.bufs[j]? = some b := ⟨_, List.getElem?_eq_getElem hj⟩
  obtain ⟨v, hv, hsize, -, hstorage⟩ := h.get hb
  rw [makeCopy, get_ok hb, ok_bind, read_ok hsize hstorage, ok_bind, hv, Option.map_some, Option.toList_some]
  exact ⟨_, rfl, constructWith_represents h v.bytes⟩

theorem shrinkSize_represents (h : s.Represents vs) (hb : s.bufs[i]? = some b) {n : Nat} (hn : n ≤ b.size) :
    ∃ s', s.shrinkSize i n = .ok s' ∧ s'.Represents (ByteVector.update i (fun v => v.shrink n) vs) := by
  obtain ⟨v, hv, hsize, hcapacity, -⟩ := h.get hb
  have hmin : (v.shrink n).size = n := Nat.min_eq_left (hsize ▸ hn)
  have hset := setSize_represents h hb hv (v.shrink n) hcapacity rfl
  rw [hmin] at hset
  rw [shrinkSize, get_ok hb, ok_bind, assertThat_ok hn, ok_bind, ByteVector.update, hv]
  exact ⟨_, rfl, hset⟩

theorem write_represents (h : s.Represents vs) (hb : s.bufs[i]? = some b) {pos : Nat} (hpos : pos < b.size)
    (x : UInt8) :
    ∃ s', s.write i pos x = .ok s' ∧ s'.Represents (ByteVector.update i (fun v => v.write pos x) vs) := by
  obtain ⟨v, hv, hsize, hcapacity, hstorage⟩ := h.get hb
  have hle := v.le
  rw [write, get_ok hb, ok_bind, assertThat_ok hpos, ok_bind, ByteVector.update, hv]
  cases hbuf : b.buf with
  | none =>
    rw [hbuf] at hstorage
    rw [← hstorage] at hle
    exact absurd (Nat.le_trans (hsize ▸ hpos) hle) (Nat.not_succ_le_zero pos)
  | some p =>
    have hlt : i < s.ptrs.length := by
      rw [length_ptrs]
      exact (List.getElem?_eq_some_iff.1 hb).1
    have hptr : s.ptrs[i] = some p := by
      rw [← hbuf, ← (List.getElem?_eq_some_iff.1 hb).2]
      exact List.getElem_map ..
    obtain ⟨block, hblock⟩ := h.owned.live p (hptr ▸ List.getElem_mem hlt)
    rw [hbuf, Heap.value_some, hblock] at hstorage
    obtain rfl : block = v.storage := hstorage
    refine ⟨_, rfl, h.owned.modify _ _, ?_, ?_⟩
    · rw [List.map_set, h.sizes]
      refine (set_same ?_).symm
      rw [List.getElem?_map, hv, Option.map_some, ByteVector.write, List.length_set]
    · have hvalues := Heap.values_modify h.owned hlt hptr hblock fun block => block.set pos x
      change ((s.heap.modify p fun block => block.set pos x).values s.ptrs).map (·.getD []) = _
      rw [hvalues, List.map_set, List.map_set, h.storage]
      rfl

/-- A call that may be made is one on vectors. -/
theorem call_represents (h : s.Represents vs) {op : BufferOp} (hpre : s.Pre op) :
    ∃ s', s.call op = .ok s' ∧ s'.Represents (ByteVector.apply vs op) := by
  cases op with
  | construct => exact ⟨_, rfl, constructWith_represents h []⟩
  | constructSize n => exact ⟨_, rfl, constructWith_represents h _⟩
  | constructFilled n v => exact ⟨_, rfl, constructWith_represents h _⟩
  | constructFrom src => exact ⟨_, rfl, constructWith_represents h _⟩
  | makeFrom init => exact ⟨_, rfl, constructWith_represents h _⟩
  | moveConstruct j => exact moveConstruct_represents h hpre
  | moveAssign i j => exact moveAssign_represents h hpre.1 hpre.2
  | makeCopy j => exact makeCopy_represents h hpre
  | shrinkSize i n =>
    obtain ⟨b, hb, hn⟩ := hpre
    exact shrinkSize_represents h hb hn
  | resize i n =>
    obtain ⟨s', hcall, hs'⟩ := resizeTo_represents h hpre n n
    rw [Nat.max_self] at hcall
    exact ⟨s', hcall, hs'⟩
  | resizeWithDoubleCapacityGrowth i n =>
    exact resizeWithDoubleCapacityGrowth_represents h (List.getElem?_eq_getElem hpre) n
  | incrementSizeWithDoubleCapacityGrowth i k =>
    exact incrementSizeWithDoubleCapacityGrowth_represents h (List.getElem?_eq_getElem hpre) k
  | write i pos x =>
    obtain ⟨b, hb, hpos⟩ := hpre
    exact write_represents h hb hpos x

theorem run_represents : ∀ (ops : List BufferOp) (s : SimpleBuffers) (vs : List ByteVector), s.Represents vs →
    Along step Pre s ops → ∃ s', execute step s ops = some s' ∧ s'.Represents (ops.foldl ByteVector.apply vs)
  | [], s, _, h, _ => ⟨s, rfl, h⟩
  | op :: ops, s, vs, h, hpre => by
    obtain ⟨s₁, hcall, hs₁⟩ := call_represents h hpre.1
    have hstep : s.step op = some s₁ := by rw [step, hcall]; rfl
    have hrest := hpre.2
    rw [hstep] at hrest
    obtain ⟨s', hrun, hs'⟩ := run_represents ops s₁ _ hs₁ hrest
    exact ⟨s', (execute_cons hstep ops).trans hrun, hs'⟩

/-! ## What vectors promise -/

/-- What must hold for a call to be made holds of one that was. -/
theorem pre_of_call {op : BufferOp} (hcall : s.call op = .ok s') : s.Pre op := by
  have hlt : ∀ {i : Nat} {b : SimpleBuffer}, s.get i = .ok b → i < s.bufs.length :=
    fun hget => (List.getElem?_eq_some_iff.1 (of_get hget)).1
  cases op with
  | construct | constructSize | constructFilled | constructFrom | makeFrom => trivial
  | moveConstruct j | makeCopy j | resize i | resizeWithDoubleCapacityGrowth i
  | incrementSizeWithDoubleCapacityGrowth i =>
    obtain ⟨b, hget, -⟩ := bind_eq_ok.1 hcall
    exact hlt hget
  | moveAssign i j =>
    obtain ⟨sb, hget, hcall⟩ := bind_eq_ok.1 hcall
    obtain ⟨b, hget', -⟩ := bind_eq_ok.1 hcall
    have hi : i < (s.bufs.set j {}).length := (List.getElem?_eq_some_iff.1 (of_get hget')).1
    rw [List.length_set] at hi
    exact ⟨hi, hlt hget⟩
  | shrinkSize i n =>
    obtain ⟨b, hget, hcall⟩ := bind_eq_ok.1 hcall
    obtain ⟨_, hassert, -⟩ := bind_eq_ok.1 hcall
    exact ⟨b, of_get hget, of_assertThat hassert⟩
  | write i pos v =>
    obtain ⟨b, hget, hcall⟩ := bind_eq_ok.1 hcall
    obtain ⟨_, hassert, -⟩ := bind_eq_ok.1 hcall
    exact ⟨b, of_get hget, of_assertThat hassert⟩

theorem Represents.of_call (h : s.Represents vs) {op : BufferOp} (hcall : s.call op = .ok s') :
    s'.Represents (ByteVector.apply vs op) := by
  obtain ⟨s'', hcall', hs'⟩ := call_represents h (pre_of_call hcall)
  obtain rfl : s' = s'' := Except.ok.inj (hcall.symm.trans hcall')
  exact hs'

/-! ## What the buffers promise -/

/-- What buffers promise apart from `empty()`. -/
structure KeepsPromises (s : SimpleBuffers) : Prop where
  bounded : ∀ b ∈ s.bufs, b.size ≤ b.capacity
  sized : ∀ (i : Nat) (b : SimpleBuffer), s.bufs[i]? = some b → (s.bytes i).length = b.size
  resized : ∀ (i n : Nat) (op : BufferOp) (s' : SimpleBuffers),
    op = .resize i n ∨ op = .resizeWithDoubleCapacityGrowth i n → s.call op = .ok s' →
      (s'.bytes i).length = n ∧
        (s'.bytes i).take (min (s.bytes i).length n) = (s.bytes i).take (min (s.bytes i).length n)
  incremented : ∀ (i k : Nat) (s' : SimpleBuffers), s.call (.incrementSizeWithDoubleCapacityGrowth i k) = .ok s' →
    (s'.bytes i).length = ((s.bytes i).length + k) % 2 ^ 64 ∧
      (s'.bytes i).take (min (s.bytes i).length (s'.bytes i).length) =
        (s.bytes i).take (min (s.bytes i).length (s'.bytes i).length)
  regrown : ∀ (i m n : Nat) (s₁ s' : SimpleBuffers), s.call (.shrinkSize i m) = .ok s₁ →
    s₁.call (.resize i n) = .ok s' → (s'.bytes i).take (min m n) = (s.bytes i).take (min m n)
  moveConstructed : ∀ (j : Nat) (s' : SimpleBuffers), s.call (.moveConstruct j) = .ok s' →
    s'.bufs[j]? = some {} ∧ s'.bytes s.bufs.length = s.bytes j
  moveAssigned : ∀ (i j : Nat) (s' : SimpleBuffers), i ≠ j → s.call (.moveAssign i j) = .ok s' →
    s'.bufs[j]? = some {} ∧ s'.bytes i = s.bytes j
  selfMoved : ∀ (i : Nat) (s' : SimpleBuffers), s.call (.moveAssign i i) = .ok s' → s' = s
  copied : ∀ (j : Nat) (s' : SimpleBuffers), s.call (.makeCopy j) = .ok s' → s'.bytes s.bufs.length = s.bytes j
  independent : ∀ (k : Nat) (op : BufferOp) (s' : SimpleBuffers), k < s.bufs.length → k ∉ op.targets →
    s.call op = .ok s' → s'.bytes k = s.bytes k

theorem Represents.exists_vector (h : s.Represents vs) (hi : i < s.bufs.length) : ∃ v, vs[i]? = some v := by
  rw [h.length] at hi
  exact ⟨_, List.getElem?_eq_getElem hi⟩

theorem Represents.bytes_of (h : s.Represents vs) (hv : vs[i]? = some v) : s.bytes i = v.bytes := by
  rw [h.bytes, hv]
  rfl

/-- What a change of the size keeps. -/
theorem Represents.resized (h : s.Represents vs) (n newCapacity : Nat) (hi : i < s.bufs.length)
    {f : ByteVector → ByteVector} (hs' : s'.Represents (ByteVector.update i f vs))
    (hf : ∀ v, vs[i]? = some v → f v = v.resizeTo n newCapacity) :
    (s'.bytes i).length = n ∧
      (s'.bytes i).take (min (s.bytes i).length n) = (s.bytes i).take (min (s.bytes i).length n) := by
  obtain ⟨v, hv⟩ := h.exists_vector hi
  rw [h.bytes_of hv, hs'.bytes_of (ByteVector.getElem?_update hv f), hf v hv, ByteVector.length_bytes,
    ByteVector.length_bytes, ByteVector.size_resizeTo]
  exact ⟨rfl, v.take_resizeTo n newCapacity⟩

theorem moveAssign_self (hcall : s.call (.moveAssign i i) = .ok s') : s' = s := by
  obtain ⟨sb, hget, hcall⟩ := bind_eq_ok.1 hcall
  obtain ⟨b, hget', hcall⟩ := bind_eq_ok.1 hcall
  obtain ⟨_, -, hcall⟩ := bind_eq_ok.1 hcall
  have hi := of_get hget
  have hb := of_get hget'
  have hlt := (List.getElem?_eq_some_iff.1 hi).1
  -- what is released was left empty before
  rw [List.getElem?_set_self hlt] at hb
  obtain rfl : ({} : SimpleBuffer) = b := Option.some.inj hb
  have hset : (s.bufs.set i {}).set i sb = s.bufs := by rw [List.set_set, set_same hi]
  rw [← Except.ok.inj hcall, hset]
  rfl

theorem Represents.keepsPromises (h : s.Represents vs) : s.KeepsPromises where
  bounded b hb := by
    obtain ⟨i, hi⟩ := List.mem_iff_getElem?.1 hb
    obtain ⟨v, -, hsize, hcapacity, -⟩ := h.get hi
    rw [hsize, hcapacity]
    exact v.le
  sized i b hb := by
    obtain ⟨v, hv, hsize, -⟩ := h.get hb
    rw [h.bytes_of hv, ByteVector.length_bytes, hsize]
  resized i n op s' hop hcall := by
    have hpre := pre_of_call hcall
    have hs' := h.of_call hcall
    rcases hop with rfl | rfl
    · exact h.resized _ _ hpre hs' fun v _ => rfl
    · obtain ⟨v, hv⟩ := h.exists_vector hpre
      refine h.resized _ (v.storage.length * 2 % 2 ^ 64) hpre hs' fun u hu => ?_
      rw [Option.some.inj (hu.symm.trans hv)]
      rfl
  incremented i k s' hcall := by
    have hpre := pre_of_call hcall
    obtain ⟨v, hv⟩ := h.exists_vector hpre
    have hkept := h.resized ((v.size + k) % 2 ^ 64) (v.storage.length * 2 % 2 ^ 64) hpre
      (h.of_call hcall) fun u hu => by
        rw [Option.some.inj (hu.symm.trans hv)]
        rfl
    rw [h.bytes_of hv, ByteVector.length_bytes] at hkept ⊢
    exact ⟨hkept.1, by rw [hkept.1]; exact hkept.2⟩
  regrown i m n s₁ s' hcall₁ hcall := by
    obtain ⟨b, hb, hm⟩ := pre_of_call hcall₁
    obtain ⟨v, hv, hsize, -⟩ := h.get hb
    have h₁ := h.of_call hcall₁
    have hv₁ := ByteVector.getElem?_update hv fun v => v.shrink m
    have hv' := ByteVector.getElem?_update hv₁ fun v => v.resize n
    rw [h.bytes_of hv, (h₁.of_call hcall).bytes_of hv']
    exact v.take_resizeTo_shrink (hsize ▸ hm) n n
  moveConstructed j s' hcall := by
    have hj : j < s.bufs.length := pre_of_call hcall
    obtain ⟨v, hv⟩ := h.exists_vector hj
    have hs' := h.of_call hcall
    constructor
    · obtain ⟨sb, -, hcall⟩ := bind_eq_ok.1 hcall
      rw [← Except.ok.inj hcall]
      change (s.bufs.set j {} ++ [sb])[j]? = _
      rw [List.getElem?_append_left (by rwa [List.length_set]), List.getElem?_set_self hj]
    · rw [h.bytes_of hv]
      refine hs'.bytes_of ?_
      have hlength : s.bufs.length = (vs.set j .nil).length := h.length.trans List.length_set.symm
      rw [ByteVector.apply, hv, Option.toList_some, hlength]
      exact List.getElem?_concat_length
  moveAssigned i j s' hne hcall := by
    obtain ⟨hi, hj⟩ := pre_of_call hcall
    obtain ⟨v, hv⟩ := h.exists_vector hj
    obtain ⟨u, hu⟩ := h.exists_vector hi
    have hs' := h.of_call hcall
    constructor
    · obtain ⟨sb, -, hcall⟩ := bind_eq_ok.1 hcall
      obtain ⟨b, -, hcall⟩ := bind_eq_ok.1 hcall
      obtain ⟨_, -, hcall⟩ := bind_eq_ok.1 hcall
      rw [← Except.ok.inj hcall]
      change ((s.bufs.set j {}).set i sb)[j]? = _
      rw [List.getElem?_set_ne hne, List.getElem?_set_self hj]
    · have hu' : (vs.set j .nil)[i]? = some u := by rwa [List.getElem?_set_ne (Ne.symm hne)]
      rw [h.bytes_of hv]
      refine hs'.bytes_of ?_
      rw [ByteVector.apply, ByteVector.getElem?_update hu', hv]
      rfl
  selfMoved i s' hcall := moveAssign_self hcall
  copied j s' hcall := by
    have hj : j < s.bufs.length := pre_of_call hcall
    obtain ⟨v, hv⟩ := h.exists_vector hj
    rw [h.bytes_of hv, h.length, (h.of_call hcall).bytes_of (v := .ofBytes v.bytes)]
    · exact List.take_length
    · rw [ByteVector.apply, hv]
      exact List.getElem?_concat_length
  independent k op s' hk hop hcall := by
    rw [h.length] at hk
    rw [h.bytes, (h.of_call hcall).bytes, ByteVector.getElem?_apply hk hop]

theorem empty_iff (b : SimpleBuffer) : ¬ (b.empty = true ↔ b.size = 0) := by
  rw [SimpleBuffer.empty, decide_eq_true_iff]
  omega

/-- In every run the buffers are vectors of bytes that keep what they promise, but for `empty()`, which
is wrong of each of them. -/
theorem simple_buffers_are_vectors (ops : List BufferOp) (h : Along step Pre {} ops) :
    ∃ s, execute step {} ops = some s ∧ s.Represents (ops.foldl ByteVector.apply []) ∧ s.KeepsPromises ∧
      ((∀ b ∈ s.bufs, b.empty = true ↔ b.size = 0) ↔ s.bufs = []) := by
  obtain ⟨s, hrun, hs⟩ := run_represents ops {} [] represents_init h
  refine ⟨s, hrun, hs, hs.keepsPromises, fun hempty => ?_, fun hnil => ?_⟩
  · cases hbufs : s.bufs with
    | nil => rfl
    | cons b bufs =>
      rw [hbufs] at hempty
      exact absurd (hempty b List.mem_cons_self) (empty_iff b)
  · rw [hnil]
    simp

/-- A buffer is copied, the copy shrunk, grown and written to, and the first one moved to itself and away. -/
theorem simple_buffers_are_vectors_moved : ∃ s, execute step {} [.makeFrom [1, 2, 3], .makeCopy 0, .shrinkSize 1 2,
    .resizeWithDoubleCapacityGrowth 1 4, .write 1 0 9, .moveAssign 0 0, .moveConstruct 0] = some s ∧
      s.KeepsPromises := by
  obtain ⟨s, hrun, -, hkeeps, -⟩ := simple_buffers_are_vectors [.makeFrom [1, 2, 3], .makeCopy 0, .shrinkSize 1 2,
    .resizeWithDoubleCapacityGrowth 1 4, .write 1 0 9, .moveAssign 0 0, .moveConstruct 0] (by decide)
  exact ⟨s, hrun, hkeeps⟩

/-- A buffer of one byte is empty, and one of none is not. -/
theorem simple_buffers_empty : ∃ s, execute step {} [.construct, .constructSize 1] = some s ∧
    ∃ b₀ b₁, s.bufs = [b₀, b₁] ∧ b₀.size = 0 ∧ b₀.empty = false ∧ b₁.size = 1 ∧ b₁.empty = true ∧
      ¬ ∀ b ∈ s.bufs, b.empty = true ↔ b.size = 0 :=
  ⟨_, rfl, _, _, rfl, rfl, rfl, rfl, rfl, by decide⟩

end SimpleBuffers

end Opio.Net
