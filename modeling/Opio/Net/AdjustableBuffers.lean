/-
The buffers of a connection as objects in memory. A buffer may be adjustable: whenever it is asked for
its data, the adjuster writes its content anew, and whoever was given the data before sees that too,
since descriptors only point into the memory of a buffer. The connection is that of the other modules,
which needs only the sizes of the buffers; here each of its steps goes together with what it does to
the memory, and the socket takes what is in the memory at that time.
-/
import Opio.Lib.Snapshots
import Opio.Net.Connection

namespace Opio.Net

open Connection (Input)

/-! ## Memory -/

/-- A buffer as it was sent: the number of its group, its place in it, and its bytes. -/
structure SentBuffer where
  group : Nat
  index : Nat
  bytes : Bytes
  deriving DecidableEq, Repr

/-- A byte in memory: of which buffer it is, and in which call of the adjuster it was written, if in one. -/
structure Cell where
  origin : SentBuffer
  call : Option Nat
  byte : UInt8
  deriving DecidableEq, Repr

structure AdjusterEnv extends ConnectionEnv where
  isAdjustable : SentBuffer → Bool
  /-- What the adjuster of a buffer writes: the call, and the place in the buffer. -/
  adjuster : SentBuffer → Nat → Nat → UInt8
  /-- The log level is trace. -/
  traces : Bool

variable (env : AdjusterEnv)

/-- The memory of a buffer as it was sent, or as a call of its adjuster left it. -/
def bufferContents (b : SentBuffer) : Option Nat → List Cell
  | none => b.bytes.map (⟨b, none, ·⟩)
  | some call => (List.range b.bytes.length).map fun place => ⟨b, some call, env.adjuster b call place⟩

inductive OutputBuffer
  /-- Also one that was made of others, or of the rest of one. -/
  | plain (cells : List Cell)
  /-- `adjustable_content_buffer_t`, with the number of calls of its adjuster so far. -/
  | adjustable (b : SentBuffer) (calls : Nat)
  deriving DecidableEq, Repr

namespace OutputBuffer

def make (b : SentBuffer) : OutputBuffer :=
  if env.isAdjustable b then adjustable b 0 else plain (bufferContents env b none)

def cells : OutputBuffer → List Cell
  | plain cells => cells
  | adjustable b 0 => bufferContents env b none
  | adjustable b (calls + 1) => bufferContents env b (some calls)

/-- The buffer after a `make_asio_const_buffer`. -/
def asioConstBuffer : OutputBuffer → OutputBuffer
  | plain cells => plain cells
  | adjustable b calls => adjustable b (calls + 1)

end OutputBuffer

/-! ## Sequences -/

/-- `m_bufs_storage` of a `single_writable_sequence_t`. -/
abbrev BufsStorage := List OutputBuffer

namespace BufsStorage

def cells (storage : BufsStorage) : List Cell := storage.flatMap (OutputBuffer.cells env)

/-- One buffer stays as it is, several are copied to a new one. -/
def merge : BufsStorage → OutputBuffer
  | [buf] => buf
  | group => .plain (cells env group)

def concatGroups (maxSize : Nat) : BufsStorage → List OutputBuffer → BufsStorage
  | group, [] => [merge env group]
  | group, buf :: bufs =>
    if (cells env group).length + (buf.cells env).length ≤ maxSize then concatGroups maxSize (group ++ [buf]) bufs
    else merge env group :: concatGroups maxSize [buf] bufs

/-- `concat_small_buffers`, which asks all buffers for their data. -/
def concatSmallBuffers (maxSize : Nat) (storage : BufsStorage) : BufsStorage :=
  match storage.map OutputBuffer.asioConstBuffer with
  | [] => []
  | buf :: bufs => concatGroups env maxSize [buf] bufs

end BufsStorage

/-- A descriptor of a buffer of the sequence in front: which one, and how much of it is skipped. -/
structure Descriptor where
  index : Nat
  skipped : Nat
  deriving DecidableEq, Repr

namespace Descriptor

/-- What the memory that the descriptor points to holds now. -/
def cells (front : BufsStorage) (d : Descriptor) : List Cell :=
  ((front.getD d.index (.plain [])).cells env).drop d.skipped

def readAll (front : BufsStorage) (ds : List Descriptor) : List Cell := ds.flatMap (cells env front)

/-- `asio_bufs`, once the buffers were asked for their data. -/
def all (front : BufsStorage) : List Descriptor := (List.range front.length).map (⟨·, 0⟩)

/-- `skip_transferred_part` -/
def skipTransferredPart (front : BufsStorage) : List Descriptor → Nat → List Descriptor
  | [], _ => []
  | d :: ds, transferred =>
    if (d.cells env front).length ≤ transferred then
      skipTransferredPart front ds (transferred - (d.cells env front).length)
    else { d with skipped := d.skipped + transferred } :: ds

end Descriptor

/-! ## The queue -/

/-- The memory of `m_write_queue`. -/
abbrev StorageQueue := List BufsStorage

namespace StorageQueue

def front (queue : StorageQueue) : BufsStorage := queue.headD []

def back (queue : StorageQueue) : BufsStorage := queue.getLastD []

def setFront (storage : BufsStorage) (queue : StorageQueue) : StorageQueue := storage :: queue.tail

def setBack (storage : BufsStorage) (queue : StorageQueue) : StorageQueue := queue.dropLast ++ [storage]

def cells (queue : StorageQueue) : List Cell := queue.flatMap (BufsStorage.cells env)

def appendOutgoingBuffer (buf : OutputBuffer) (queue : StorageQueue) : StorageQueue :=
  -- the buffer is written to the log
  let buf := if env.traces then buf.asioConstBuffer else buf
  if (back queue).length + 1 ≤ env.maxSeqLength then
    setBack (back queue ++ [buf]) queue
  else if queue.length ≤ 1 then
    queue ++ [[buf]]
  else
    let seq := (back queue).concatSmallBuffers env concatenatedBufferMaxSize
    if seq.length + 1 ≤ env.maxSeqLength then setBack (seq ++ [buf]) queue else setBack seq queue ++ [[buf]]

def freezeFirst (queue : StorageQueue) : StorageQueue := if queue.length = 1 then queue ++ [[]] else queue

end StorageQueue

/-! ## The connection and its memory -/

structure BufferedConnection where
  conn : Connection := {}
  /-- What is left of the group that is being sent. -/
  group : List OutputBuffer := []
  queue : StorageQueue := [[]]
  /-- The descriptors that the write at hand was given. -/
  asioBufs : List Descriptor := []
  /-- What the asynchronous write has transferred so far. -/
  transferred : Nat := 0
  /-- What the socket took. -/
  taken : List Cell := []
  deriving DecidableEq, Repr

namespace BufferedConnection

open StorageQueue

/-- What is in the memory that the write at hand was given. -/
def given (s : BufferedConnection) : List Cell := Descriptor.readAll env (front s.queue) s.asioBufs

def take (cells : List Cell) (s : BufferedConnection) : BufferedConnection := { s with taken := s.taken ++ cells }

def enqueue (buf : OutputBuffer) (s : BufferedConnection) : BufferedConnection :=
  { s with queue := appendOutgoingBuffer env buf s.queue }

def outputBuffers (group : Nat) : Nat → List Bytes → List OutputBuffer
  | _, [] => []
  | index, bytes :: bufs => .make env ⟨group, index, bytes⟩ :: outputBuffers group (index + 1) bufs

def scheduleSend (call : SendCall) (s : BufferedConnection) : BufferedConnection :=
  if s.conn.scheduleForWriteIsEnabled then { s with group := outputBuffers env s.conn.groups 0 call.bufs } else s

/-- `append_outgoing_buffer_try_aggressive_write`, up to the write. -/
def append (beAggressive : Bool) (s : BufferedConnection) : BufferedConnection :=
  match s.group with
  | [] => s
  | buf :: bufs =>
    if beAggressive ∧ ¬ s.conn.isWriteOperationRunning then
      let buf := buf.asioConstBuffer
      if env.quikSyncWriteHeuristicSize ≤ (buf.cells env).length then { s with group := bufs }.enqueue env buf
      else { s with group := buf :: bufs }
    else { s with group := bufs }.enqueue env buf

/-- The end of `append_outgoing_buffer_try_aggressive_write`. -/
def aggressiveWritten (r : WriteResult) (s : BufferedConnection) : BufferedConnection :=
  match s.group with
  | [] => s
  | buf :: bufs =>
    let s := { s with group := bufs }.take ((buf.cells env).take r.transferred)
    if r.transferred = (buf.cells env).length then s
    else if r.transferred ≠ 0 then s.enqueue env (.plain ((buf.cells env).drop r.transferred))
    else s.enqueue env buf

/-- `initiate_write_if_necessary`, up to the synchronous write. -/
def initiateWriteIfNecessary (s : BufferedConnection) : BufferedConnection :=
  if s.conn.isWriteOperationRunning then
    s
  else
    let seq := (front s.queue).map OutputBuffer.asioConstBuffer
    let s := { s with queue := setFront seq s.queue, asioBufs := Descriptor.all seq }
    if seq = [] then s
    else if (s.given env).length ≤ env.quikSyncWriteHeuristicSize then s
    else { s with queue := freezeFirst s.queue }

/-- What follows the synchronous write in `initiate_write_if_necessary`. -/
def syncWritten (r : WriteResult) (s : BufferedConnection) : BufferedConnection :=
  let rest := Descriptor.skipTransferredPart env (front s.queue) s.asioBufs r.transferred
  let asioBufs := if r.ec ≠ some .wouldBlock ∨ (s.given env).length ≤ r.transferred then s.asioBufs else rest
  { s.take ((s.given env).take r.transferred) with queue := freezeFirst s.queue, asioBufs }

/-- The socket takes more of the asynchronous write in flight. -/
def asyncTakes (n : Nat) (s : BufferedConnection) : Option BufferedConnection :=
  if s.conn.asyncWrite ≠ none ∧ s.conn.destroyed = false ∧ s.transferred + n ≤ (s.given env).length then
    some { s.take (((s.given env).drop s.transferred).take n) with transferred := s.transferred + n }
  else none

/-- The asynchronous write is over, with so much transferred all in all. -/
def asyncOver (transferred : Nat) (s : BufferedConnection) : Option BufferedConnection :=
  if s.transferred ≤ transferred then
    some { s.take (((s.given env).drop s.transferred).take (transferred - s.transferred)) with transferred := 0 }
  else none

/-- `handle_remainig_write_queue` -/
def handleRemainigWriteQueue (s : BufferedConnection) : BufferedConnection :=
  let first := (front s.queue).map OutputBuffer.asioConstBuffer
  let queue := if 1 < s.queue.length ∨ 0 < (BufsStorage.cells env first).length then [] else setFront first s.queue
  { s with queue }

/-- What a step of the connection does to the memory. -/
def memory (s : BufferedConnection) (i : Input) : Option BufferedConnection :=
  match s.conn.stack, i with
  | [], .item (.asyncWriteDone r) => s.asyncOver env r.transferred
  | [], .item (.destroy transferred) =>
    match s.conn.asyncWrite with
    | some _ => (s.asyncOver env transferred).map (handleRemainigWriteQueue env)
    | none => some (s.handleRemainigWriteQueue env)
  | .call (.send call) :: _, _ => some (s.scheduleSend env call)
  | .append _ beAggressive _ _ :: _, _ => some (s.append env beAggressive)
  | .aggressiveWrite _ _ _ _ :: _, .result r => some (s.aggressiveWritten env r)
  | .initiateWrite :: _, _ => some (s.initiateWriteIfNecessary env)
  | .syncWrite :: _, .result r => some (s.syncWritten env r)
  | .popWritten :: _, _ => some { s with queue := s.queue.tail }
  | _, _ => some s

inductive Action
  /-- The connection makes a step. -/
  | goesOn (i : Input)
  | takes (n : Nat)
  deriving DecidableEq, Repr

def step (s : BufferedConnection) : Action → Option BufferedConnection
  | .goesOn i =>
    match Connection.step env.toConnectionEnv s.conn i, s.memory env i with
    | some conn, some s => some { s with conn }
    | _, _ => none
  | .takes n => s.asyncTakes env n

/-- The bytes of a buffer that the socket took. -/
def takenOf (b : SentBuffer) (s : BufferedConnection) : Bytes := (s.taken.filter (·.origin = b)).map Cell.byte

/-- What a call of the adjuster of a buffer writes. -/
def adjusted (b : SentBuffer) (call : Nat) : Bytes :=
  (List.range b.bytes.length).map (env.adjuster b call)

end BufferedConnection

end Opio.Net
