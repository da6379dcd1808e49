/-
The read loop and its memory. The buffer of the connection is lent to the socket while a read is in
flight, and then handed to the user, who may keep it, replace it, or leave it for the next read.
-/
import Opio.Net.ReadLoop
import Opio.Net.SimpleBuffer

namespace Opio.Net

/-! ## Buffers that are lent and let go -/

/-- The buffers an operation works with. -/
def BufferOp.names : BufferOp → List Nat
  | .makeCopy j => [j]
  | op => op.targets

theorem BufferOp.targets_subset_names (op : BufferOp) : op.targets ⊆ op.names := by
  cases op with
  | makeCopy j => exact List.nil_subset _
  | _ => exact List.Subset.refl _

/-- Bytes are put in the place of the first ones. -/
def ByteVector.overwrite (v : ByteVector) (bs : Bytes) : ByteVector :=
  ⟨bs ++ v.storage.drop bs.length, v.size, by
    rw [List.length_append, List.length_drop]
    have := v.le
    omega⟩

theorem ByteVector.take_overwrite (v : ByteVector) {bs : Bytes} (hle : bs.length ≤ v.size) :
    (v.overwrite bs).bytes.take bs.length = bs := by
  show ((bs ++ v.storage.drop bs.length).take v.size).take bs.length = bs
  rw [List.take_take, Nat.min_eq_left hle, List.take_left]

@[simp] theorem ByteVector.length_update (i : Nat) (f : ByteVector → ByteVector) (vs : List ByteVector) :
    (update i f vs).length = vs.length := by
  unfold update
  split
  · exact List.length_set
  · rfl

theorem ByteVector.length_le_apply (vs : List ByteVector) (op : BufferOp) : vs.length ≤ (apply vs op).length := by
  cases op with
  | construct | constructSize | constructFilled | constructFrom | makeFrom | makeCopy =>
    rw [apply, List.length_append]
    exact Nat.le_add_right _ _
  | moveConstruct j =>
    rw [apply, List.length_append, List.length_set]
    exact Nat.le_add_right _ _
  | moveAssign i j =>
    rw [apply, length_update, List.length_set]
  | shrinkSize | resize | resizeWithDoubleCapacityGrowth | incrementSizeWithDoubleCapacityGrowth | write =>
    exact le_of_eq (length_update ..).symm

namespace SimpleBuffers

variable {s s' : SimpleBuffers} {vs : List ByteVector} {v : ByteVector} {b : SimpleBuffer} {i k : Nat}

theorem Represents.exists_buffer (h : s.Represents vs) (hi : i < vs.length) : ∃ b, s.bufs[i]? = some b :=
  ⟨_, List.getElem?_eq_getElem (h.length ▸ hi)⟩

/-- The socket writes to memory that it was lent. -/
def fill (buf : Option Nat) (bs : Bytes) (s : SimpleBuffers) : Except BufferFault SimpleBuffers :=
  match buf.bind s.heap.find with
  | some block =>
    if bs.length ≤ block.length then
      .ok { s with heap := s.heap.modify (buf.getD 0) fun block => bs ++ block.drop bs.length }
    else .error .outOfBounds
  | none => if bs = [] then .ok s else .error .outOfBounds

/-- The destructor. -/
def discard (i : Nat) (s : SimpleBuffers) : Except BufferFault SimpleBuffers := do
  let b ← s.get i
  assertThat (s.heap.Releasable b.buf) .doubleFree
  pure ⟨s.heap.release b.buf, s.bufs.set i {}⟩

theorem fill_represents (h : s.Represents vs) (hb : s.bufs[i]? = some b) (hv : vs[i]? = some v) {bs : Bytes}
    (hle : bs.length ≤ b.size) :
    ∃ s', s.fill b.buf bs = .ok s' ∧ s'.bufs = s.bufs ∧ s'.Represents (vs.set i (v.overwrite bs)) := by
  obtain ⟨v', hv', hsize, -, hstorage⟩ := h.get hb
  obtain rfl : v = v' := Option.some.inj (hv.symm.trans hv')
  have hroom : bs.length ≤ v.storage.length := (hsize ▸ hle).trans v.le
  cases hbuf : b.buf with
  | none =>
    -- a buffer without memory has no room
    rw [hbuf] at hstorage
    change [] = v.storage at hstorage
    rw [← hstorage] at hroom
    obtain rfl : bs = [] := List.eq_nil_of_length_eq_zero (Nat.le_zero.1 hroom)
    refine ⟨s, rfl, rfl, ?_⟩
    rw [show v.overwrite [] = v from rfl, set_same hv]
    exact h
  | some p =>
    have hlt : i < s.ptrs.length := by
      rw [length_ptrs]
      exact (List.getElem?_eq_some_iff.1 hb).1
    have hptr : s.ptrs[i] = some p := by
      rw [← hbuf, ← (List.getElem?_eq_some_iff.1 hb).2]
      exact List.getElem_map ..
    obtain ⟨block, hblock⟩ := h.owned.live p (hptr ▸ List.getElem_mem hlt)
    rw [hbuf, Heap.value_some, hblock] at hstorage
    obtain rfl : block = v.storage := hstorage
    have hfill : s.fill (some p) bs =
        .ok { s with heap := s.heap.modify p fun block => bs ++ block.drop bs.length } := by
      rw [fill, Option.bind_some, hblock]
      exact if_pos hroom
    refine ⟨_, hfill, rfl, h.owned.modify _ _, ?_, ?_⟩
    · have hlength : (v.overwrite bs).storage.length = v.storage.length := by
        show (bs ++ v.storage.drop bs.length).length = _
        rw [List.length_append, List.length_drop]
        omega
      rw [List.map_set, h.sizes, hlength]
      refine (set_same ?_).symm
      rw [List.getElem?_map, hv]
      rfl
    · have hvalues := Heap.values_modify h.owned hlt hptr hblock fun block => bs ++ block.drop bs.length
      change ((s.heap.modify p fun block => bs ++ block.drop bs.length).values s.ptrs).map (·.getD []) = _
      rw [hvalues, List.map_set, List.map_set, h.storage]
      rfl

theorem discard_represents (h : s.Represents vs) (hb : s.bufs[i]? = some b) :
    ∃ s', s.discard i = .ok s' ∧ s'.bufs = s.bufs.set i {} ∧ s'.Represents (vs.set i .nil) := by
  have hlt : i < s.ptrs.length := by
    rw [length_ptrs]
    exact (List.getElem?_eq_some_iff.1 hb).1
  have hbuf : s.ptrs[i] = b.buf := by
    rw [← (List.getElem?_eq_some_iff.1 hb).2]
    exact List.getElem_map ..
  have htaken := h.owned.take hlt
  rw [hbuf] at htaken
  have hptrs : ptrs ⟨s.heap.release b.buf, s.bufs.set i {}⟩ = s.ptrs.set i none := List.map_set
  have hdiscard : s.discard i = .ok ⟨s.heap.release b.buf, s.bufs.set i {}⟩ := by
    rw [discard, get_ok hb, ok_bind, assertThat_ok (h.releasable hb)]
    rfl
  refine ⟨_, hdiscard, rfl, ?_, ?_, ?_⟩
  · rw [hptrs]
    exact htaken.release
  · rw [List.map_set, List.map_set, h.sizes]
    rfl
  · rw [hptrs, Heap.values_release htaken, Heap.values, List.map_set, List.map_set, List.map_set, ← h.storage]
    rfl

theorem resizeTo_frame {n newCapacity : Nat} (hcall : s.resizeTo i n newCapacity = .ok s') (hne : i ≠ k) :
    s'.bufs[k]? = s.bufs[k]? := by
  obtain ⟨b, -, hcall⟩ := bind_eq_ok.1 hcall
  split at hcall
  · rw [← Except.ok.inj hcall]
    exact List.getElem?_set_ne hne
  · obtain ⟨data, -, hcall⟩ := bind_eq_ok.1 hcall
    obtain ⟨_, -, hcall⟩ := bind_eq_ok.1 hcall
    obtain ⟨_, -, hcall⟩ := bind_eq_ok.1 hcall
    rw [← Except.ok.inj hcall]
    exact List.getElem?_set_ne hne

theorem constructWith_frame (data : Bytes) (hk : k < s.bufs.length) :
    (s.constructWith data).bufs[k]? = s.bufs[k]? := by
  unfold constructWith
  split <;> exact List.getElem?_append_left hk

/-- An operation leaves the buffers alone that are not its targets. -/
theorem call_frame {op : BufferOp} (hcall : s.call op = .ok s') (hk : k < s.bufs.length) (hop : k ∉ op.targets) :
    s'.bufs[k]? = s.bufs[k]? := by
  cases op with
  | construct =>
    rw [← Except.ok.inj hcall]
    exact List.getElem?_append_left hk
  | constructSize | constructFilled | constructFrom | makeFrom =>
    rw [← Except.ok.inj hcall]
    exact constructWith_frame _ hk
  | moveConstruct j =>
    obtain ⟨sb, -, hcall⟩ := bind_eq_ok.1 hcall
    have hne : j ≠ k := fun heq => hop (List.mem_singleton.2 heq.symm)
    rw [← Except.ok.inj hcall]
    show (s.bufs.set j {} ++ [sb])[k]? = _
    rw [List.getElem?_append_left (by rwa [List.length_set]), List.getElem?_set_ne hne]
  | moveAssign i j =>
    obtain ⟨sb, -, hcall⟩ := bind_eq_ok.1 hcall
    obtain ⟨b, -, hcall⟩ := bind_eq_ok.1 hcall
    obtain ⟨_, -, hcall⟩ := bind_eq_ok.1 hcall
    have hi : i ≠ k := fun heq => hop (by simp [BufferOp.targets, heq])
    have hj : j ≠ k := fun heq => hop (by simp [BufferOp.targets, heq])
    rw [← Except.ok.inj hcall]
    show ((s.bufs.set j {}).set i sb)[k]? = _
    rw [List.getElem?_set_ne hi, List.getElem?_set_ne hj]
  | makeCopy j =>
    obtain ⟨b, -, hcall⟩ := bind_eq_ok.1 hcall
    obtain ⟨data, -, hcall⟩ := bind_eq_ok.1 hcall
    rw [← Except.ok.inj hcall]
    exact constructWith_frame _ hk
  | shrinkSize i n =>
    obtain ⟨b, -, hcall⟩ := bind_eq_ok.1 hcall
    obtain ⟨_, -, hcall⟩ := bind_eq_ok.1 hcall
    rw [← Except.ok.inj hcall]
    exact List.getElem?_set_ne fun heq => hop (List.mem_singleton.2 heq.symm)
  | resize i n => exact resizeTo_frame hcall fun heq => hop (List.mem_singleton.2 heq.symm)
  | resizeWithDoubleCapacityGrowth i n =>
    obtain ⟨b, -, hcall⟩ := bind_eq_ok.1 hcall
    exact resizeTo_frame hcall fun heq => hop (List.mem_singleton.2 heq.symm)
  | incrementSizeWithDoubleCapacityGrowth i n =>
    obtain ⟨b, -, hcall⟩ := bind_eq_ok.1 hcall
    obtain ⟨b', -, hcall⟩ := bind_eq_ok.1 hcall
    exact resizeTo_frame hcall fun heq => hop (List.mem_singleton.2 heq.symm)
  | write i pos x =>
    obtain ⟨b, -, hcall⟩ := bind_eq_ok.1 hcall
    obtain ⟨_, -, hcall⟩ := bind_eq_ok.1 hcall
    cases hbuf : b.buf with
    | none =>
      rw [hbuf] at hcall
      cases hcall
    | some p =>
      rw [hbuf] at hcall
      rw [← Except.ok.inj hcall]

end SimpleBuffers

/-! ## The connection and the buffers it reads to -/

/-- A buffer lent to the socket for a read, and what came in, once something did. -/
structure ReadView where
  buf : Option Nat
  size : Nat
  data : Option Bytes := none
  deriving DecidableEq, Repr

structure ReadingEnv where
  connection : ConnectionEnv
  inputBufferSize : Nat

/-- A connection with the memory it reads to. The first buffer is its `m_read_buffer`, the next two are of
the input context, and the others belong to the user. -/
structure Reading where
  conn : Connection := {}
  buffers : SimpleBuffers
  views : List ReadView := []
  bytesRx : Nat := 0
  fault : Option BufferFault := none
  /-- What the socket put into buffers so far. -/
  received : Bytes := []
  /-- What the input handler was given so far. -/
  handed : Bytes := []
  deriving DecidableEq, Repr

def Frame.isReading : Frame → Bool
  | .inputHandler => true
  | .afterInput => true
  | _ => false

/-- The end of a read, and the end of the connection, which no read outlives. -/
def Connection.Input.endsReading : Connection.Input → Bool
  | .item (.readDone _) => true
  | .item (.destroy _) => true
  | _ => false

inductive ReadingAction where
  /-- The connection takes a step other than the end of a read. -/
  | proceeds (i : Connection.Input)
  /-- The socket puts bytes into the buffer of a read in flight. -/
  | fills (k : Nat) (bs : Bytes)
  | completes (k : Nat)
  | fails (k : Nat) (ec : ErrorCode)
  /-- The user does something with buffers. -/
  | user (op : BufferOp)
  deriving DecidableEq, Repr

namespace Reading

/-- `m_read_buffer`. -/
def readBuffer : Nat := 0

/-- `m_buffer` of the input context. -/
def inputBuffer : Nat := 1

/-- `m_next_read_buffer` of the input context; not to be set is to be empty. -/
def nextReadBuffer : Nat := 2

def init (env : ReadingEnv) : Reading where
  buffers :=
    (((({} : SimpleBuffers).constructWith (List.replicate env.inputBufferSize 0)).constructWith []).constructWith [])

/-- The buffer as it is lent. -/
def lend (s : SimpleBuffers) : ReadView :=
  match s.bufs[readBuffer]? with
  | some b => ⟨b.buf, b.size, none⟩
  | none => ⟨none, 0, none⟩

/-- `reduce_size_input( std::move( m_read_buffer ), length )`, which the input context keeps. -/
def reduceSizeInput (length : Nat) (s : SimpleBuffers) : Except BufferFault SimpleBuffers := do
  let b ← s.get readBuffer
  assertThat (length ≤ b.size) .assertion
  let s ← s.call (.moveAssign inputBuffer readBuffer)
  s.call (.shrinkSize inputBuffer length)

/-- The buffer for the next read: the one that the user set, or what is left of the last one, made as large
as configured. -/
def prepareNext (inputBufferSize : Nat) (s : SimpleBuffers) : Except BufferFault SimpleBuffers := do
  let next ← s.get nextReadBuffer
  if 0 < next.size then s.call (.moveAssign readBuffer nextReadBuffer)
  else do
    let s ← s.call (.moveAssign readBuffer inputBuffer)
    s.call (.resize readBuffer inputBufferSize)

/-- The end of the input context. -/
def endContext (s : SimpleBuffers) : Except BufferFault SimpleBuffers := do
  let s ← s.discard inputBuffer
  s.discard nextReadBuffer

def onBuffers (f : SimpleBuffers → Except BufferFault SimpleBuffers) (s : Reading) : Reading :=
  match f s.buffers with
  | .ok buffers => { s with buffers }
  | .error fault => { s with fault := some fault }

/-- What the frame that goes on does apart from what it does to the connection. The input context ends after
the next read begins, which makes no difference to it. -/
def besides (env : ReadingEnv) (s : Reading) : Reading :=
  match s.conn.stack.head? with
  | some .inputHandler => { s with handed := s.handed ++ s.buffers.bytes inputBuffer }
  | some .afterInput => s.onBuffers fun buffers => do
    let buffers ← prepareNext env.inputBufferSize buffers
    endContext buffers
  | _ => s

/-- The user has the input context. -/
def InputIsHandled (c : Connection) : Prop := .afterInput ∈ c.stack ∧ .inputHandler ∉ c.stack

/-- The user works with buffers of his own, and while input is handled with the ones of the input context. -/
def UserMay (s : Reading) (op : BufferOp) : Prop :=
  s.buffers.Pre op ∧ ∀ i ∈ op.names, i ≠ readBuffer ∧ (nextReadBuffer < i ∨ InputIsHandled s.conn)

instance (c : Connection) : Decidable (InputIsHandled c) := inferInstanceAs (Decidable (_ ∧ _))

instance (s : Reading) (op : BufferOp) : Decidable (UserMay s op) := inferInstanceAs (Decidable (_ ∧ _))

def step (env : ReadingEnv) (s : Reading) : ReadingAction → Option Reading
  | .proceeds i =>
    if i.endsReading then none
    else (Connection.step env.connection s.conn i).map fun conn =>
      let s' := besides env s
      { s' with
        conn
        views := s'.views ++ List.replicate (conn.readsInFlight - s.conn.readsInFlight) (lend s'.buffers) }
  | .fills k bs =>
    match s.views[k]? with
    | some ⟨buf, size, none⟩ =>
      if bs.length ≤ size then
        let s := s.onBuffers (SimpleBuffers.fill buf bs)
        some { s with views := s.views.set k ⟨buf, size, some bs⟩, received := s.received ++ bs }
      else none
    | _ => none
  | .completes k =>
    match s.views[k]? with
    | some ⟨_, _, some bs⟩ => (Connection.step env.connection s.conn (.item (.readDone none))).map fun conn =>
      let s := s.onBuffers (reduceSizeInput bs.length)
      { s with conn, views := s.views.eraseIdx k, bytesRx := s.bytesRx + bs.length }
    | _ => none
  | .fails k ec =>
    match s.views[k]? with
    | some ⟨_, _, none⟩ => (Connection.step env.connection s.conn (.item (.readDone (some ec)))).map fun conn =>
      { s with conn, views := s.views.eraseIdx k }
    | _ => none
  | .user op => if UserMay s op then some (s.onBuffers fun buffers => buffers.call op) else none

/-- What a step does. -/
inductive Moves (env : ReadingEnv) (s : Reading) : ReadingAction → Reading → Prop
  | proceeds (i : Connection.Input) (conn : Connection) (other : i.endsReading = false)
    (moved : Connection.step env.connection s.conn i = some conn) :
    Moves env s (.proceeds i) { besides env s with
      conn
      views := (besides env s).views ++
        List.replicate (conn.readsInFlight - s.conn.readsInFlight) (lend (besides env s).buffers) }
  | fills (k : Nat) (buf : Option Nat) (size : Nat) (bs : Bytes) (view : s.views[k]? = some ⟨buf, size, none⟩)
    (fits : bs.length ≤ size) :
    Moves env s (.fills k bs) { s.onBuffers (SimpleBuffers.fill buf bs) with
      views := (s.onBuffers (SimpleBuffers.fill buf bs)).views.set k ⟨buf, size, some bs⟩
      received := (s.onBuffers (SimpleBuffers.fill buf bs)).received ++ bs }
  | completes (k : Nat) (buf : Option Nat) (size : Nat) (bs : Bytes) (conn : Connection)
    (view : s.views[k]? = some ⟨buf, size, some bs⟩)
    (moved : Connection.step env.connection s.conn (.item (.readDone none)) = some conn) :
    Moves env s (.completes k) { s.onBuffers (reduceSizeInput bs.length) with
      conn
      views := (s.onBuffers (reduceSizeInput bs.length)).views.eraseIdx k
      bytesRx := (s.onBuffers (reduceSizeInput bs.length)).bytesRx + bs.length }
  | fails (k : Nat) (buf : Option Nat) (size : Nat) (ec : ErrorCode) (conn : Connection)
    (view : s.views[k]? = some ⟨buf, size, none⟩)
    (moved : Connection.step env.connection s.conn (.item (.readDone (some ec))) = some conn) :
    Moves env s (.fails k ec) { s with conn, views := s.views.eraseIdx k }
  | user (op : BufferOp) (may : UserMay s op) :
    Moves env s (.user op) (s.onBuffers fun buffers => buffers.call op)

variable {env : ReadingEnv} {s s' : Reading}

theorem moves_of_step {a : ReadingAction} (h : step env s a = some s') : Moves env s a s' := by
  cases a with
  | proceeds i =>
    simp only [step] at h
    split at h
    next => cases h
    next hother =>
      obtain ⟨conn, hconn, rfl⟩ := Option.map_eq_some_iff.1 h
      exact .proceeds i conn (eq_false_of_ne_true hother) hconn
  | fills k bs =>
    simp only [step] at h
    split at h
    next buf size hview =>
      split at h
      next hfits => exact Option.some.inj h ▸ .fills k buf size bs hview hfits
      next => cases h
    next => cases h
  | completes k =>
    simp only [step] at h
    split at h
    next buf size bs hview =>
      obtain ⟨conn, hconn, rfl⟩ := Option.map_eq_some_iff.1 h
      exact .completes k buf size bs conn hview hconn
    next => cases h
  | fails k ec =>
    simp only [step] at h
    split at h
    next buf size hview =>
      obtain ⟨conn, hconn, rfl⟩ := Option.map_eq_some_iff.1 h
      exact .fails k buf size ec conn hview hconn
    next => cases h
  | user op =>
    simp only [step] at h
    split at h
    next hmay => exact Option.some.inj h ▸ .user op hmay
    next => cases h

end Reading

end Opio.Net
