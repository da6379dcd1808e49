/-
`connection_t`, the part that writes: a queue of sequences of buffers, written to the socket
directly, by synchronous gather writes or by one asynchronous write at a time, and the callbacks
of the user in between.

Control is explicit: a stack of frames says what the running work item still has to do, and each
step takes the top frame one stretch further, up to the next point where something from outside
comes in (the result of a write, the calls a user callback makes, the next work item of the
strand). A user callback that calls the connection is carried out right there, as `dispatch` does
on the strand. An assertion that fails is passed over, as in a release build. Logging is left out.
-/
import Opio.Net.WritableSequence

namespace Opio.Net

/-! ## Results -/

inductive ConnectionShutdownReason
  | userInitiated
  | ioError
  | eof
  | writeTimeout
  | readTsNotSupportedOnThisPlatform
  deriving DecidableEq, Repr

inductive SendBuffersResult
  | success
  | ioError
  | didntSend
  | rejectedScheduleSend
  deriving DecidableEq, Repr

/-- The errors that are told apart. -/
inductive ErrorCode
  | wouldBlock
  | operationAborted
  | eof
  | syncWriteUnexpectedResults
  | other
  deriving DecidableEq, Repr

/-- What a write reports: an error, if any, and how many bytes the socket took. -/
structure WriteResult where
  ec : Option ErrorCode
  transferred : Nat
  deriving DecidableEq, Repr

/-- What a synchronous write of so many bytes may report. -/
def WriteResult.PossibleSync (size : Nat) (r : WriteResult) : Prop :=
  match r.ec with
  | none => r.transferred = size
  | some .wouldBlock => r.transferred < size
  | some .operationAborted => False
  | some _ => r.transferred ≤ size

/-- What an asynchronous write of so many bytes may report. -/
def WriteResult.PossibleAsync (size : Nat) (r : WriteResult) : Prop :=
  match r.ec with
  | none => r.transferred = size
  | some _ => r.transferred ≤ size

instance (size : Nat) (r : WriteResult) : Decidable (r.PossibleSync size) := by
  unfold WriteResult.PossibleSync
  split <;> infer_instance

instance (size : Nat) (r : WriteResult) : Decidable (r.PossibleAsync size) := by
  unfold WriteResult.PossibleAsync
  split <;> infer_instance

/-! ## State -/

/-- A group of buffers to send, with or without a callback. A direct call takes the lock of the
connection instead of its strand. -/
structure SendCall where
  bufs : List Bytes
  cb : Bool := false
  direct : Bool := false
  deriving DecidableEq, Repr

inductive Call
  | send (s : SendCall)
  | shutdown
  | startReading
  | stopReading
  deriving DecidableEq, Repr

/-- What the running work item has yet to do. -/
inductive Frame
  /-- A call on the connection. -/
  | call (c : Call)
  /-- Of a group: the rest of its buffers, and whether the ones before were written directly. -/
  | append (bufs : List Bytes) (beAggressive : Bool) (id : Nat) (cb : Bool)
  /-- Waits for the direct write of a buffer, the first of the rest of its group. -/
  | aggressiveWrite (buf : Bytes) (bufs : List Bytes) (id : Nat) (cb : Bool)
  | initiateWrite
  /-- Waits for the gather write of the front of the queue. -/
  | syncWrite
  | runCallbacks (res : SendBuffersResult) (cbs : List Nat)
  /-- What `after_write` does once the callbacks were told of the success. -/
  | popWritten
  | shutdownHandler (reason : ConnectionShutdownReason)
  | markShutdown
  | inputHandler
  /-- What `after_read` does once the input was handled. -/
  | afterInput
  /-- The calls a user callback has yet to make. -/
  | reaction (calls : List Call)
  | incBytesTxSync (n : Nat)
  | incBytesTxAsync (n : Nat)
  deriving DecidableEq, Repr

/-- What can be seen from outside, and the life of the queue's entries, which are numbered in the
order they are in the queue. -/
inductive Event
  /-- A group is taken for sending, or not. -/
  | accepted (id : Nat) (bufs : List Bytes) (cb : Bool)
  | refused (id : Nat) (cb : Bool)
  /-- The socket took these bytes. -/
  | taken (bs : Bytes)
  | called (id : Nat) (res : SendBuffersResult)
  | shutdownHandlerCalled (reason : ConnectionShutdownReason)
  | inputHandlerCalled
  | incBytesTxSync (n : Nat)
  | incBytesTxAsync (n : Nat)
  | writeStarted (entry : Nat)
  | written (entry : Nat)
  | writeFailed (entry : Nat)
  | popped (entry : Nat)
  deriving DecidableEq, Repr

structure ConnectionEnv where
  quikSyncWriteHeuristicSize : Nat
  maxIovLen : Nat
  maxIovLen_pos : 0 < maxIovLen
  /-- A shutdown handler was supplied. -/
  hasShutdownHandler : Bool
  /-- The shutdown closes the socket, as on Windows. -/
  closesOnShutdown : Bool

def ConnectionEnv.maxSeqLength (env : ConnectionEnv) : Nat := reasonableMaxIovLen env.maxIovLen

structure Connection where
  writeQueue : List SingleWritableSequence := [.empty]
  isWriteOperationRunning : Bool := false
  readIsEnabled : Bool := false
  scheduleForWriteIsEnabled : Bool := true
  shutdownWasCalled : Bool := false
  socketIsOpen : Bool := true
  /-- `m_timeout_key` of the write watchdog. -/
  timeoutKey : Nat := 0
  /-- What the asynchronous write in flight was given. -/
  asyncWrite : Option (List Bytes) := none
  readsInFlight : Nat := 0
  destroyed : Bool := false
  /-- How many groups came so far; the next one gets this number. -/
  groups : Nat := 0
  /-- How many entries left the queue so far; the front has this number. -/
  popped : Nat := 0
  stack : List Frame := []
  log : List Event := []
  deriving DecidableEq, Repr

namespace Connection

def push (f : Frame) (c : Connection) : Connection := { c with stack := f :: c.stack }

def emit (ev : Event) (c : Connection) : Connection := { c with log := c.log ++ [ev] }

/-! ## The queue -/

def front (queue : List SingleWritableSequence) : SingleWritableSequence := queue.headD .empty

def back (queue : List SingleWritableSequence) : SingleWritableSequence := queue.getLastD .empty

def setFront (seq : SingleWritableSequence) (queue : List SingleWritableSequence) : List SingleWritableSequence :=
  seq :: queue.tail

def setBack (seq : SingleWritableSequence) (queue : List SingleWritableSequence) : List SingleWritableSequence :=
  queue.dropLast ++ [seq]

def appendOutgoingBuffer (env : ConnectionEnv) (buf : Bytes) (queue : List SingleWritableSequence) :
    List SingleWritableSequence :=
  let seq := back queue
  if seq.canAppendBuffer env.maxSeqLength then
    setBack (seq.appendBuffer buf) queue
  else if queue.length ≤ 1 then
    queue ++ [SingleWritableSequence.empty.appendBuffer buf]
  else
    let seq := seq.concatSmallBuffers concatenatedBufferMaxSize
    if seq.canAppendBuffer env.maxSeqLength then
      setBack (seq.appendBuffer buf) queue
    else
      setBack seq queue ++ [SingleWritableSequence.empty.appendBuffer buf]

/-- `freeze_first_buf_sequece_in_queue`. -/
def freezeFirst (queue : List SingleWritableSequence) : List SingleWritableSequence :=
  if queue.length = 1 then queue ++ [.empty] else queue

/-! ## Shutdown and reading -/

def shutdownImpl (env : ConnectionEnv) (reason : ConnectionShutdownReason) (c : Connection) : Connection :=
  if c.shutdownWasCalled then
    c
  else
    let c :=
      if c.socketIsOpen then
        { c with
          readIsEnabled := false
          scheduleForWriteIsEnabled := false
          socketIsOpen := !env.closesOnShutdown
          timeoutKey := c.timeoutKey + 1 }
      else c
    if env.hasShutdownHandler then (c.push .markShutdown).push (.shutdownHandler reason)
    else { c with shutdownWasCalled := true }

def handleIoError (env : ConnectionEnv) (ec : ErrorCode) (c : Connection) : Connection :=
  if ec = .operationAborted then c else shutdownImpl env (if ec = .eof then .eof else .ioError) c

def initiateRead (c : Connection) : Connection := { c with readsInFlight := c.readsInFlight + 1 }

def startReading (c : Connection) : Connection :=
  if c.readIsEnabled then c else initiateRead { c with readIsEnabled := true }

def stopReading (c : Connection) : Connection := { c with readIsEnabled := false }

/-- The end of `after_read`. -/
def afterInput (c : Connection) : Connection := if c.readIsEnabled then initiateRead c else c

/-! ## Writing -/

/-- `schedule_send_impl` and its variants, up to the first buffer. -/
def scheduleSend (s : SendCall) (c : Connection) : Connection :=
  let id := c.groups
  let c := { c with groups := id + 1 }
  if c.scheduleForWriteIsEnabled then
    (c.emit (.accepted id s.bufs s.cb)).push (.append s.bufs true id s.cb)
  else if s.cb ∧ ¬ s.direct then
    -- a direct call returns without a word
    (c.emit (.refused id s.cb)).push (.runCallbacks .rejectedScheduleSend [id])
  else
    c.emit (.refused id s.cb)

/-- The buffers of a group one after another (`append_outgoing_buffer_try_aggressive_write`), and
then its callback. -/
def append (env : ConnectionEnv) (bufs : List Bytes) (beAggressive : Bool) (id : Nat) (cb : Bool) (c : Connection) :
    Connection :=
  match bufs with
  | [] =>
    if beAggressive then
      if cb then c.push (.runCallbacks .success [id]) else c
    else
      let c :=
        if cb then
          { c with writeQueue := setBack ((back c.writeQueue).appendCompletionCb id) c.writeQueue }
        else c
      c.push .initiateWrite
  | buf :: bufs =>
    if beAggressive ∧ ¬ c.isWriteOperationRunning ∧ buf.length < env.quikSyncWriteHeuristicSize then
      c.push (.aggressiveWrite buf bufs id cb)
    else
      { c with writeQueue := appendOutgoingBuffer env buf c.writeQueue }.push (.append bufs false id cb)

/-- What follows the direct write of a buffer. -/
def aggressiveWritten (env : ConnectionEnv) (buf : Bytes) (bufs : List Bytes) (id : Nat) (cb : Bool) (r : WriteResult)
    (c : Connection) : Connection :=
  let c := (c.emit (.taken (buf.take r.transferred))).emit (.incBytesTxSync r.transferred)
  if r.transferred = buf.length then
    c.push (.append bufs true id cb)
  else
    -- a half-sent buffer leaves a copy of its tail
    let rest := if r.transferred ≠ 0 then buf.drop r.transferred else buf
    { c with writeQueue := appendOutgoingBuffer env rest c.writeQueue }.push (.append bufs false id cb)

/-- `start_async_write`. -/
def startAsyncWrite (bufs : List Bytes) (c : Connection) : Connection :=
  { c with
    timeoutKey := c.timeoutKey + 1
    asyncWrite := some bufs
    isWriteOperationRunning := true
    writeQueue := freezeFirst c.writeQueue }

/-- `initiate_write_if_necessary`, up to the synchronous write. -/
def initiateWriteIfNecessary (env : ConnectionEnv) (c : Connection) : Connection :=
  if c.isWriteOperationRunning then
    c
  else
    let seq := (front c.writeQueue).makeAsioBufs
    let c := { c with writeQueue := setFront seq c.writeQueue }
    if seq.asioBufs = [] then
      c
    else if seq.totalSize ≤ env.quikSyncWriteHeuristicSize then
      (c.emit (.writeStarted c.popped)).push .syncWrite
    else
      startAsyncWrite seq.asioBufs (c.emit (.writeStarted c.popped))

def afterWrite (env : ConnectionEnv) (ec : Option ErrorCode) (c : Connection) : Connection :=
  let c := { c with timeoutKey := c.timeoutKey + 1 }
  let cbs := (front c.writeQueue).sendCompletionCbs
  match ec with
  | some ec => handleIoError env ec ((c.emit (.writeFailed c.popped)).push (.runCallbacks .ioError cbs))
  | none => ((c.emit (.written c.popped)).push .popWritten).push (.runCallbacks .success cbs)

/-- What follows once the callbacks of a written sequence have run. -/
def popWritten (c : Connection) : Connection :=
  let c := c.emit (.popped c.popped)
  { c with
    writeQueue := c.writeQueue.tail
    isWriteOperationRunning := false
    popped := c.popped + 1 }.push .initiateWrite

/-- `complete_operation_now`. -/
def completeOperationNow (env : ConnectionEnv) (ec : Option ErrorCode) (transferred : Nat) (c : Connection) :
    Connection :=
  afterWrite env ec ({ c with writeQueue := freezeFirst c.writeQueue }.push (.incBytesTxSync transferred))

/-- What follows the synchronous write in `initiate_write_if_necessary`. -/
def syncWritten (env : ConnectionEnv) (r : WriteResult) (c : Connection) : Connection :=
  let seq := front c.writeQueue
  let c := c.emit (.taken (seq.asioBufs.flatten.take r.transferred))
  if r.ec ≠ some .wouldBlock then
    completeOperationNow env r.ec r.transferred c
  else if seq.totalSize ≤ r.transferred then
    completeOperationNow env (some .syncWriteUnexpectedResults) r.transferred c
  else
    let rest := skipTransferredPart seq.asioBufs r.transferred
    let asioBufs := seq.asioBufs.take (seq.asioBufs.length - rest.length) ++ rest
    startAsyncWrite rest { c with writeQueue := setFront { seq with asioBufs } c.writeQueue }

/-- The completion handler of the asynchronous write. -/
def asyncWritten (env : ConnectionEnv) (bufs : List Bytes) (r : WriteResult) (c : Connection) : Connection :=
  let c := { c with asyncWrite := none }.emit (.taken (bufs.flatten.take r.transferred))
  afterWrite env r.ec (c.push (.incBytesTxAsync r.transferred))

/-! ## The end -/

/-- `handle_remainig_write_queue`, what the destructor does. -/
def handleRemainigWriteQueue (c : Connection) : Connection :=
  let first := (front c.writeQueue).makeAsioBufs
  if 1 < c.writeQueue.length ∨ 0 < first.totalSize then
    let inProgress := if c.isWriteOperationRunning then first.sendCompletionCbs else []
    let rest := if c.isWriteOperationRunning then c.writeQueue.tail else c.writeQueue
    { c with
      writeQueue := []
      log := c.log ++ inProgress.map (Event.called · .ioError) ++
        (rest.flatMap SingleWritableSequence.sendCompletionCbs).map (Event.called · .didntSend) }
  else c

/-- The destructor. With an asynchronous write in flight (its handler never ran) the socket has taken some
of its bytes, which nobody is told. -/
def destroy (transferred : Nat) (c : Connection) : Connection :=
  let c :=
    match c.asyncWrite with
    | some bufs => c.emit (.taken (bufs.flatten.take transferred))
    | none => c
  { handleRemainigWriteQueue c with destroyed := true }

/-! ## Steps -/

/-- The work items of the strand. -/
inductive Item
  | call (c : Call)
  | asyncWriteDone (r : WriteResult)
  | readDone (ec : Option ErrorCode)
  | writeTimeout (timeoutKey : Nat)
  | destroy (transferred : Nat)
  deriving DecidableEq, Repr

/-- What a step gets from outside. -/
inductive Input
  | item (i : Item)
  | result (r : WriteResult)
  /-- A user callback makes these calls. -/
  | calls (cs : List Call)
  | none
  deriving DecidableEq, Repr

/-- A work item begins. -/
def begin (env : ConnectionEnv) (c : Connection) : Item → Option Connection
  | .call call => some (c.push (.call call))
  | .asyncWriteDone r =>
    match c.asyncWrite with
    | some bufs => if r.PossibleAsync (bufs.map List.length).sum then some (asyncWritten env bufs r c) else none
    | none => none
  | .readDone ec =>
    if c.readsInFlight = 0 then none
    else
      let c := { c with readsInFlight := c.readsInFlight - 1 }
      match ec with
      | some ec => some (handleIoError env ec c)
      | none => some ((c.push .afterInput).push .inputHandler)
  | .writeTimeout timeoutKey =>
    if c.isWriteOperationRunning ∧ timeoutKey = c.timeoutKey then some (shutdownImpl env .writeTimeout c) else some c
  | .destroy transferred => some (destroy transferred c)

def exec (env : ConnectionEnv) (c : Connection) : Call → Connection
  | .send s => scheduleSend s c
  | .shutdown => shutdownImpl env .userInitiated c
  | .startReading => startReading c
  | .stopReading => stopReading c

/-- The frame at the top goes on with what comes in; the frames below wait. -/
def resume (env : ConnectionEnv) (c : Connection) : Frame → Input → Option Connection
  | .call call, .none => some (exec env c call)
  | .append bufs beAggressive id cb, .none => some (append env bufs beAggressive id cb c)
  | .aggressiveWrite buf bufs id cb, .result r =>
    if r.PossibleSync buf.length then some (aggressiveWritten env buf bufs id cb r c) else none
  | .initiateWrite, .none => some (initiateWriteIfNecessary env c)
  | .syncWrite, .result r =>
    if r.PossibleSync (front c.writeQueue).totalSize then some (syncWritten env r c) else none
  | .runCallbacks _ [], .none => some c
  | .runCallbacks res (cb :: cbs), .calls cs =>
    some (((c.emit (.called cb res)).push (.runCallbacks res cbs)).push (.reaction cs))
  | .popWritten, .none => some (popWritten c)
  | .shutdownHandler reason, .calls cs => some ((c.emit (.shutdownHandlerCalled reason)).push (.reaction cs))
  | .markShutdown, .none => some { c with shutdownWasCalled := true }
  | .inputHandler, .calls cs => some ((c.emit .inputHandlerCalled).push (.reaction cs))
  | .afterInput, .none => some (afterInput c)
  | .reaction [], .none => some c
  | .reaction (call :: calls), .none => some ((c.push (.reaction calls)).push (.call call))
  | .incBytesTxSync n, .none => some (c.emit (.incBytesTxSync n))
  | .incBytesTxAsync n, .none => some (c.emit (.incBytesTxAsync n))
  | _, _ => none

/-- One step, if it can get this from outside: with no work item running the next one begins. -/
def step (env : ConnectionEnv) (c : Connection) (i : Input) : Option Connection :=
  match c.stack with
  | [] =>
    match i with
    | .item item => if c.destroyed then none else begin env c item
    | _ => none
  | f :: fs => resume env { c with stack := fs } f i

end Connection

end Opio.Net
