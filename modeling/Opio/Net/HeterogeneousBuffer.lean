/-
`heterogeneous_buffer_t`: storage of a fixed size in which buffers of different types are made, moved and
destroyed by hand. It is looked at with everything such buffers share memory with: the `simple_buffer_t`
and the shared pointers of the program that uses them.

Of the classes that the storage is for there are their sizes and alignments, and what is made in the storage
must be no larger. Moves on the way into a buffer, of parameters that are gone after the call, are one move.
Making an object or a block of memory does not fail.
-/
import Mathlib.Data.List.MinMax
import Opio.Lib.Program
import Opio.Lib.SharedObjects
import Opio.Net.Reading

namespace Opio.Net

variable {δ : Type}

/-! ## Buffers -/

/-- `sizeof` and `alignof` of a class. An alignment is a power of two. -/
structure Layout where
  size : Nat
  align : Nat
  deriving DecidableEq, Repr

/-- A `Datasizeable`: a `simple_buffer_t`, by its place, or a buffer of another type. -/
inductive Datasizeable (δ : Type) where
  | simple (place : Nat)
  | custom (buf : δ)
  deriving DecidableEq, Repr

def Datasizeable.isSimple : Datasizeable δ → Bool
  | .simple _ => true
  | .custom _ => false

/-- The types of buffers besides `simple_buffer_t`, and the adjusters, with the classes that wrap them. -/
structure HeterogeneousEnv (δ : Type) where
  /-- What `data()` and `size()` give. -/
  bytes : δ → Bytes
  /-- What a move leaves of a buffer. -/
  movedFrom : δ → δ
  /-- Writes to the first of its bytes. -/
  overwrite : Bytes → δ → δ
  bytes_overwrite : ∀ bs buf, bs.length ≤ (bytes buf).length →
    bytes (overwrite bs buf) = bs ++ (bytes buf).drop bs.length
  /-- `is_mutable_datasizeable_v` of its type. -/
  isMutable : δ → Bool
  /-- What an adjuster makes of the bytes it is called with, and of itself. -/
  adjust : Nat → Bytes → Bytes × Nat
  length_adjust : ∀ adjuster bs, (adjust adjuster bs).1.length = bs.length
  constBuffer : Layout
  /-- `datasizeable_buffer_t< std::string >`. -/
  stringBuffer : Layout
  /-- `datasizeable_buffer_t< simple_buffer_t >`. -/
  simpleBuffer : Layout
  /-- `shared_datasizeable_buffer_t`, of whatever type. -/
  sharedBuffer : Layout
  /-- `adjustable_content_buffer_t< details::etalon_adjuster_t >`. -/
  etalonBuffer : Layout
  /-- `datasizeable_buffer_t` of its type. -/
  customBuffer : δ → Layout
  customBuffer_movedFrom : ∀ buf, customBuffer (movedFrom buf) = customBuffer buf
  customBuffer_overwrite : ∀ bs buf, customBuffer (overwrite bs buf) = customBuffer buf
  /-- `adjustable_content_buffer_t` of the types of an adjuster and of a buffer. -/
  adjustableBuffer : Nat → Datasizeable δ → Layout

/-- What is stored: the class of the buffer, with its members. A pointer or an adjuster that was moved from
is none. -/
inductive StoredBuffer (δ : Type) where
  | constBuffer (data : Option Nat) (size : Nat)
  | datasizeableBuffer (customBuffer : Datasizeable δ)
  | sharedDatasizeableBuffer (ofSimple : Bool) (customBuffer : Option Nat)
  | adjustableContentBuffer (layout : Layout) (buffer : Datasizeable δ) (adjuster : Option Nat)
  deriving DecidableEq, Repr

namespace HeterogeneousEnv

variable (env : HeterogeneousEnv δ)

/-- The classes that the storage is made for. -/
def classes : List Layout :=
  [env.constBuffer, env.stringBuffer, env.simpleBuffer, env.sharedBuffer, env.etalonBuffer]

def bufferStorageAlign : Nat := (env.classes.map Layout.align).foldr max 0

def neededStorageMaxSize : Nat := (env.classes.map Layout.size).foldr max 0

/-- An object of the class has room in the storage. -/
def Fits (layout : Layout) : Prop :=
  layout.size ≤ env.neededStorageMaxSize ∧ layout.align ≤ env.bufferStorageAlign

instance (layout : Layout) : Decidable (env.Fits layout) :=
  inferInstanceAs (Decidable (layout.size ≤ env.neededStorageMaxSize ∧ layout.align ≤ env.bufferStorageAlign))

def datasizeableLayout : Datasizeable δ → Layout
  | .simple _ => env.simpleBuffer
  | .custom buf => env.customBuffer buf

/-- The layout of what is stored. -/
def layoutOf : StoredBuffer δ → Layout
  | .constBuffer _ _ => env.constBuffer
  | .datasizeableBuffer buf => env.datasizeableLayout buf
  | .sharedDatasizeableBuffer _ _ => env.sharedBuffer
  | .adjustableContentBuffer layout _ _ => layout

theorem fits_of_mem {layout : Layout} (h : layout ∈ env.classes) : env.Fits layout :=
  ⟨List.le_max_of_le' 0 (List.mem_map_of_mem h) le_rfl, List.le_max_of_le' 0 (List.mem_map_of_mem h) le_rfl⟩

theorem fits_constBuffer : env.Fits env.constBuffer := env.fits_of_mem (by simp [classes])

theorem fits_simpleBuffer : env.Fits env.simpleBuffer := env.fits_of_mem (by simp [classes])

theorem fits_sharedBuffer : env.Fits env.sharedBuffer := env.fits_of_mem (by simp [classes])

end HeterogeneousEnv

/-- What buffers refer to: memory of somebody else, or bytes. -/
inductive BufferContent where
  | elsewhere (data : Option Nat) (size : Nat)
  | bytes (bs : Bytes)
  deriving DecidableEq, Repr

def BufferContent.size : BufferContent → Nat
  | .elsewhere _ size => size
  | .bytes bs => bs.length

/-- The heterogeneous buffers in the order they were made; one that was destroyed is none. -/
structure HeterogeneousBuffers (δ : Type) where
  /-- Every `simple_buffer_t` there is or was. -/
  simple : SimpleBuffers := {}
  /-- What shared pointers point to. -/
  objects : SharedObjects (Datasizeable δ) := []
  bufs : List (Option (StoredBuffer δ)) := []
  /-- The `simple_buffer_t` that the program has itself. -/
  vars : List Nat := []
  /-- The shared pointers of the program. -/
  ptrs : List (Option Nat) := []
  deriving DecidableEq, Repr

inductive HeterogeneousStop where
  | noSuchBuffer
  | nullPointer
  | outOfStorage
  | simple (fault : BufferFault)
  /-- `throw_exception`. -/
  | exception (what : String)
  deriving DecidableEq, Repr

/-- What the code does. -/
abbrev Heterogeneous (δ : Type) := EStateM HeterogeneousStop (HeterogeneousBuffers δ)

namespace Heterogeneous

variable (env : HeterogeneousEnv δ)

def bufAt (i : Nat) : Heterogeneous δ (StoredBuffer δ) := do
  match (← get).bufs[i]? with
  | some (some buf) => pure buf
  | _ => throw .noSuchBuffer

/-- A buffer takes the place at the end. -/
def emplace (buf : StoredBuffer δ) : Heterogeneous δ Unit := modify fun s => { s with bufs := s.bufs ++ [some buf] }

def onSimple (f : SimpleBuffers → Except BufferFault SimpleBuffers) : Heterogeneous δ Unit := do
  let s ← get
  match f s.simple with
  | .ok simple => set { s with simple }
  | .error fault => throw (.simple fault)

def objectAt (k : Nat) : Heterogeneous δ (Shared (Datasizeable δ)) := do
  match (← get).objects.find k with
  | some object => pure object
  | none => throw .nullPointer

/-! ## Datasizeables -/

/-- Move construction: the new buffer, and what is left of the old one. -/
def moveDatasizeable : Datasizeable δ → Heterogeneous δ (Datasizeable δ × Datasizeable δ)
  | .simple place => do
    let new := (← get).simple.bufs.length
    onSimple (·.call (.moveConstruct place))
    pure (.simple new, .simple place)
  | .custom buf => pure (.custom buf, .custom (env.movedFrom buf))

def destroyDatasizeable : Datasizeable δ → Heterogeneous δ Unit
  | .simple place => onSimple (·.discard place)
  | .custom _ => pure ()

/-- `data()` and `size()`. -/
def datasizeableBytes (s : HeterogeneousBuffers δ) : Datasizeable δ → Bytes
  | .simple place => s.simple.bytes place
  | .custom buf => env.bytes buf

/-- Writes to the first bytes, and gives the buffer that is then there. -/
def overwriteDatasizeable (bs : Bytes) : Datasizeable δ → Heterogeneous δ (Datasizeable δ)
  | .simple place => do
    let s ← get
    match s.simple.bufs[place]? with
    | some b => onSimple (·.fill b.buf bs)
    | none => throw .noSuchBuffer
    pure (.simple place)
  | .custom buf => pure (.custom (env.overwrite bs buf))

/-! ## Shared pointers -/

/-- The end of a shared pointer, and of the object when it was the last one. -/
def letGo : Option Nat → Heterogeneous δ Unit
  | none => pure ()
  | some k => do
    let object ← objectAt k
    modify fun s => { s with objects := s.objects.drop k }
    if object.useCount ≤ 1 then destroyDatasizeable object.value

/-! ## Stored buffers -/

/-- `new( m_storage.data() )`: an object is made in the storage, however large it is. -/
def placementNew (buf : StoredBuffer δ) : Heterogeneous δ (StoredBuffer δ) :=
  if env.Fits (env.layoutOf buf) then pure buf else throw .outOfStorage

/-- `relocate_to`: the new buffer, and what is left of the old one. -/
def relocateTo : StoredBuffer δ → Heterogeneous δ (StoredBuffer δ × StoredBuffer δ)
  | .constBuffer data size => do
    let new ← placementNew env (.constBuffer data size)
    pure (new, .constBuffer data size)
  | .datasizeableBuffer buf => do
    let (moved, left) ← moveDatasizeable env buf
    let new ← placementNew env (.datasizeableBuffer moved)
    pure (new, .datasizeableBuffer left)
  | .sharedDatasizeableBuffer ofSimple ptr => do
    let new ← placementNew env (.sharedDatasizeableBuffer ofSimple ptr)
    pure (new, .sharedDatasizeableBuffer ofSimple none)
  | .adjustableContentBuffer layout buf adjuster => do
    let (moved, left) ← moveDatasizeable env buf
    let new ← placementNew env (.adjustableContentBuffer layout moved adjuster)
    pure (new, .adjustableContentBuffer layout left none)

def destroyStoredBuffer : StoredBuffer δ → Heterogeneous δ Unit
  | .constBuffer _ _ => pure ()
  | .datasizeableBuffer buf => destroyDatasizeable buf
  | .sharedDatasizeableBuffer _ ptr => letGo ptr
  | .adjustableContentBuffer _ buf _ => destroyDatasizeable buf

/-- What a stored buffer refers to, unless its pointer is null. An adjuster was not called. -/
def contentOf (s : HeterogeneousBuffers δ) : StoredBuffer δ → Option BufferContent
  | .constBuffer data size => some (.elsewhere data size)
  | .datasizeableBuffer buf => some (.bytes (datasizeableBytes env s buf))
  | .sharedDatasizeableBuffer _ ptr =>
    (ptr.bind s.objects.find).map fun object => .bytes (datasizeableBytes env s object.value)
  | .adjustableContentBuffer _ buf _ => some (.bytes (datasizeableBytes env s buf))

/-- What the heterogeneous buffer refers to. -/
def content (s : HeterogeneousBuffers δ) (i : Nat) : Option BufferContent := s.bufs[i]?.join.bind (contentOf env s)

/-! ## `heterogeneous_buffer_t` -/

def constructConst (data : Option Nat) (size : Nat) : Heterogeneous δ Unit := do
  let new ← placementNew env (.constBuffer data size)
  emplace new

def construct : Heterogeneous δ Unit := constructConst env none 0

/-- From a buffer of the program, or from a string or another one that was made for the call. A class that is
too large does not compile; its alignment is not asked for. -/
def constructDatasizeable (buf : Datasizeable δ) : Heterogeneous δ Unit := do
  let (moved, _) ← moveDatasizeable env buf
  let new ← placementNew env (.datasizeableBuffer moved)
  emplace new

/-- Whether the class is too large is not asked here. -/
def constructAdjustable (buf : Datasizeable δ) (adjuster : Nat) : Heterogeneous δ Unit := do
  let (moved, _) ← moveDatasizeable env buf
  let new ← placementNew env (.adjustableContentBuffer (env.adjustableBuffer adjuster buf) moved (some adjuster))
  emplace new

/-- From a copy of a shared pointer of the program. -/
def constructShared (q : Nat) : Heterogeneous δ Unit := do
  match (← get).ptrs[q]? with
  | none => throw .noSuchBuffer
  | some none => throw (.exception "empty shared_ptr cannot be used as buffer")
  | some (some k) =>
    let object ← objectAt k
    modify fun s => { s with objects := s.objects.copy k }
    let new ← placementNew env (.sharedDatasizeableBuffer (object.value.isSimple) (some k))
    emplace new

def setBuf (i : Nat) (buf : Option (StoredBuffer δ)) : Heterogeneous δ Unit :=
  modify fun s => { s with bufs := s.bufs.set i buf }

def moveConstruct (j : Nat) : Heterogeneous δ Unit := do
  let buf ← bufAt j
  let (new, left) ← relocateTo env buf
  setBuf j (some left)
  emplace new

/-- What is stored is destroyed before the other buffer is moved in its place. -/
def moveAssign (i j : Nat) : Heterogeneous δ Unit := do
  let old ← bufAt i
  if i ≠ j then
    destroyStoredBuffer old
    let buf ← bufAt j
    let (new, left) ← relocateTo env buf
    setBuf j (some left)
    setBuf i (some new)

def destroy (i : Nat) : Heterogeneous δ Unit := do
  let buf ← bufAt i
  destroyStoredBuffer buf
  setBuf i none

/-- The adjuster is called on the bytes of the buffer. -/
def callAdjuster : StoredBuffer δ → Heterogeneous δ (StoredBuffer δ)
  | .adjustableContentBuffer layout buf (some adjuster) => do
    let adjusted := env.adjust adjuster (datasizeableBytes env (← get) buf)
    let buf ← overwriteDatasizeable env adjusted.1 buf
    pure (.adjustableContentBuffer layout buf (some adjusted.2))
  | .adjustableContentBuffer _ _ none => throw .nullPointer
  | buf => pure buf

/-- What is to be sent, which the adjuster of a buffer is called for every time. -/
def makeAsioConstBuffer (i : Nat) : Heterogeneous δ BufferContent := do
  let buf ← bufAt i
  let buf ← callAdjuster env buf
  setBuf i (some buf)
  match contentOf env (← get) buf with
  | some content => pure content
  | none => throw .nullPointer

def getSize (i : Nat) : Heterogeneous δ Nat := do
  let buf ← bufAt i
  match contentOf env (← get) buf with
  | some content => pure content.size
  | none => throw .nullPointer

def isMutable : Datasizeable δ → Bool
  | .simple _ => true
  | .custom buf => env.isMutable buf

/-- `make_asio_mutable_buffer`, and writing to the first of its bytes. -/
def writeStoredBuffer (bs : Bytes) : StoredBuffer δ → Heterogeneous δ (StoredBuffer δ)
  | .constBuffer _ _ => throw (.exception "const_buffer_t cannot act as a write to buffer")
  | .datasizeableBuffer buf => do
    let buf ← overwriteDatasizeable env bs buf
    pure (.datasizeableBuffer buf)
  | .sharedDatasizeableBuffer _ none => throw .nullPointer
  | .sharedDatasizeableBuffer ofSimple (some k) => do
    let object ← objectAt k
    if isMutable env object.value then
      let value ← overwriteDatasizeable env bs object.value
      modify fun s => { s with objects := s.objects.modify k fun _ => value }
      pure (.sharedDatasizeableBuffer ofSimple (some k))
    else throw (.exception "constant buffer cannot act as a write to buffer")
  | .adjustableContentBuffer layout buf adjuster => do
    let buf ← overwriteDatasizeable env bs buf
    pure (.adjustableContentBuffer layout buf adjuster)

def writeMutableBuffer (i : Nat) (bs : Bytes) : Heterogeneous δ Unit := do
  let buf ← bufAt i
  let buf ← writeStoredBuffer env bs buf
  setBuf i (some buf)

/-- `extract_reusable_simple_buffer` to a buffer of the program. -/
def extractReusableSimpleBuffer (i p : Nat) : Heterogeneous δ Bool := do
  match ← bufAt i with
  | .datasizeableBuffer (.simple place) | .adjustableContentBuffer _ (.simple place) _ =>
    onSimple (·.call (.moveAssign p place))
    pure true
  | .sharedDatasizeableBuffer true none => throw .nullPointer
  | .sharedDatasizeableBuffer true (some k) =>
    let object ← objectAt k
    if 1 < object.useCount then pure false
    else match object.value with
      | .simple place =>
        onSimple (·.call (.moveAssign p place))
        pure true
      | .custom _ => pure false
  | _ => pure false

/-! ## What the program does with its own -/

/-- Works with its own buffers. A new one is its own. -/
def program (op : BufferOp) : Heterogeneous δ Unit := do
  let size := (← get).simple.bufs.length
  onSimple (·.call op)
  modify fun s => { s with vars := s.vars ++ List.range' size (s.simple.bufs.length - size) }

def destroyVar (p : Nat) : Heterogeneous δ Unit := do
  onSimple (·.discard p)
  modify fun s => { s with vars := s.vars.erase p }

/-- `std::make_shared`. -/
def makeShared (buf : Datasizeable δ) : Heterogeneous δ Unit := do
  let (new, _) ← moveDatasizeable env buf
  modify fun s => { s with ptrs := s.ptrs ++ [some s.objects.length], objects := s.objects.make new }

def copyPtr (q : Nat) : Heterogeneous δ Unit := do
  match (← get).ptrs[q]? with
  | none => throw .noSuchBuffer
  | some none => modify fun s => { s with ptrs := s.ptrs ++ [none] }
  | some (some k) => modify fun s => { s with ptrs := s.ptrs ++ [some k], objects := s.objects.copy k }

def resetPtr (q : Nat) : Heterogeneous δ Unit := do
  match (← get).ptrs[q]? with
  | none => throw .noSuchBuffer
  | some ptr =>
    modify fun s => { s with ptrs := s.ptrs.set q none }
    letGo ptr

/-! ## `heterogeneous_buffer_driver_t` -/

/-- `reallocate_output`: a buffer of a size, in the memory of the old one where it can be had. -/
def reallocateOutput (i n : Nat) : Heterogeneous δ Unit := do
  let buf := (← get).simple.bufs.length
  program .construct
  let _ ← extractReusableSimpleBuffer i buf
  program (.resize buf n)
  constructDatasizeable env (.simple buf)
  destroyVar buf

end Heterogeneous

/-! ## Runs -/

/-- What a program does with heterogeneous buffers, and with what they are made from. -/
inductive HeterogeneousOp (δ : Type) where
  | construct
  | constructConst (data : Option Nat) (size : Nat)
  | constructDatasizeable (buf : Datasizeable δ)
  | constructAdjustable (buf : Datasizeable δ) (adjuster : Nat)
  | constructShared (q : Nat)
  | moveConstruct (j : Nat)
  | moveAssign (i j : Nat)
  | destroy (i : Nat)
  | makeAsioConstBuffer (i : Nat)
  | getSize (i : Nat)
  | writeMutableBuffer (i : Nat) (bs : Bytes)
  | extractReusableSimpleBuffer (i p : Nat)
  | reallocateOutput (i n : Nat)
  | program (op : BufferOp)
  | destroyVar (p : Nat)
  | makeShared (buf : Datasizeable δ)
  | copyPtr (q : Nat)
  | resetPtr (q : Nat)
  deriving DecidableEq, Repr

/-- Neither its pointer nor its adjuster was moved from it. -/
def StoredBuffer.isWhole : StoredBuffer δ → Bool
  | .sharedDatasizeableBuffer _ none => false
  | .adjustableContentBuffer _ _ none => false
  | _ => true

namespace HeterogeneousBuffers

variable (env : HeterogeneousEnv δ)

def call : HeterogeneousOp δ → Heterogeneous δ Unit
  | .construct => Heterogeneous.construct env
  | .constructConst data size => Heterogeneous.constructConst env data size
  | .constructDatasizeable buf => Heterogeneous.constructDatasizeable env buf
  | .constructAdjustable buf adjuster => Heterogeneous.constructAdjustable env buf adjuster
  | .constructShared q => Heterogeneous.constructShared env q
  | .moveConstruct j => Heterogeneous.moveConstruct env j
  | .moveAssign i j => Heterogeneous.moveAssign env i j
  | .destroy i => Heterogeneous.destroy i
  | .makeAsioConstBuffer i => do let _ ← Heterogeneous.makeAsioConstBuffer env i
  | .getSize i => do let _ ← Heterogeneous.getSize env i
  | .writeMutableBuffer i bs => Heterogeneous.writeMutableBuffer env i bs
  | .extractReusableSimpleBuffer i p => do let _ ← Heterogeneous.extractReusableSimpleBuffer i p
  | .reallocateOutput i n => Heterogeneous.reallocateOutput env i n
  | .program op => Heterogeneous.program op
  | .destroyVar p => Heterogeneous.destroyVar p
  | .makeShared buf => Heterogeneous.makeShared env buf
  | .copyPtr q => Heterogeneous.copyPtr q
  | .resetPtr q => Heterogeneous.resetPtr q

/-- A call returns or throws. -/
def step (s : HeterogeneousBuffers δ) (op : HeterogeneousOp δ) : Option (HeterogeneousBuffers δ) :=
  match (call env op).run s with
  | .ok _ s' => some s'
  | .error (.exception _) s' => some s'
  | .error _ _ => none

/-- The program has it itself. -/
def Has (s : HeterogeneousBuffers δ) : Datasizeable δ → Prop
  | .simple place => place ∈ s.vars
  | .custom _ => True

/-- The program works with what it has and was not moved from, and writes to what is there. What it puts in
buffers has room there; the code asserts the size of a datasizeable, but neither its alignment nor anything of an
adjustable buffer. -/
def Pre (s : HeterogeneousBuffers δ) : HeterogeneousOp δ → Prop
  | .construct | .constructConst _ _ => True
  | .constructDatasizeable buf => s.Has buf ∧ env.Fits (env.datasizeableLayout buf)
  | .constructAdjustable buf adjuster => s.Has buf ∧ env.Fits (env.adjustableBuffer adjuster buf)
  | .makeShared buf => s.Has buf
  | .constructShared q | .copyPtr q | .resetPtr q => q < s.ptrs.length
  | .moveConstruct j | .destroy j => s.bufs[j]?.join.isSome
  | .moveAssign i j => s.bufs[i]?.join.isSome ∧ s.bufs[j]?.join.isSome
  | .makeAsioConstBuffer i | .getSize i | .reallocateOutput i _ => ∃ buf ∈ s.bufs[i]?.join, buf.isWhole
  | .writeMutableBuffer i bs => (∃ buf ∈ s.bufs[i]?.join, buf.isWhole) ∧
    ∀ content ∈ Heterogeneous.content env s i, bs.length ≤ content.size
  | .extractReusableSimpleBuffer i p => (∃ buf ∈ s.bufs[i]?.join, buf.isWhole) ∧ p ∈ s.vars
  | .program op => (∀ p ∈ op.names, p ∈ s.vars) ∧ s.simple.Pre op
  | .destroyVar p => p ∈ s.vars

instance (s : HeterogeneousBuffers δ) : ∀ buf, Decidable (s.Has buf)
  | .simple place => inferInstanceAs (Decidable (place ∈ s.vars))
  | .custom _ => inferInstanceAs (Decidable True)

instance (s : HeterogeneousBuffers δ) : ∀ op, Decidable (s.Pre env op)
  | .construct | .constructConst _ _ => inferInstanceAs (Decidable True)
  | .constructDatasizeable buf =>
    inferInstanceAs (Decidable (s.Has buf ∧ env.Fits (env.datasizeableLayout buf)))
  | .constructAdjustable buf adjuster =>
    inferInstanceAs (Decidable (s.Has buf ∧ env.Fits (env.adjustableBuffer adjuster buf)))
  | .makeShared buf => inferInstanceAs (Decidable (s.Has buf))
  | .constructShared q | .copyPtr q | .resetPtr q => inferInstanceAs (Decidable (q < s.ptrs.length))
  | .moveConstruct j | .destroy j => inferInstanceAs (Decidable (s.bufs[j]?.join.isSome = true))
  | .moveAssign i j =>
    inferInstanceAs (Decidable (s.bufs[i]?.join.isSome = true ∧ s.bufs[j]?.join.isSome = true))
  | .makeAsioConstBuffer i | .getSize i | .reallocateOutput i _ =>
    inferInstanceAs (Decidable (∃ buf ∈ s.bufs[i]?.join, buf.isWhole = true))
  | .writeMutableBuffer i bs => inferInstanceAs (Decidable ((∃ buf ∈ s.bufs[i]?.join, buf.isWhole = true) ∧
    ∀ content ∈ Heterogeneous.content env s i, bs.length ≤ content.size))
  | .extractReusableSimpleBuffer i p =>
    inferInstanceAs (Decidable ((∃ buf ∈ s.bufs[i]?.join, buf.isWhole = true) ∧ p ∈ s.vars))
  | .program op => inferInstanceAs (Decidable ((∀ p ∈ op.names, p ∈ s.vars) ∧ s.simple.Pre op))
  | .destroyVar p => inferInstanceAs (Decidable (p ∈ s.vars))

end HeterogeneousBuffers

end Opio.Net
