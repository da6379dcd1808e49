/-
The send functions from end to end: `schedule_send_impl`, `schedule_send_vec_impl` and the two that
take a callback, each with a body that runs under the lock in the thread that calls and one that is
put on the strand. What the socket does to each synchronous write is given beforehand, and no
callback calls the connection.
-/
import Opio.Net.StreamLog
import Opio.Lib.Runs

namespace Opio.Net

/-- A connection, and what will come of its synchronous writes. -/
structure Writing where
  conn : Connection
  results : List WriteResult
  deriving DecidableEq, Repr

def Writing.push (f : Frame) (w : Writing) : Writing := { w with conn := w.conn.push f }

def Event.callbackCall? : Event → Option (Nat × SendBuffersResult)
  | .called id res => some (id, res)
  | _ => none

namespace Connection

/-! ## What a body calls -/

/-- `run_send_completion_callback`. -/
def runSendCompletionCallback (res : SendBuffersResult) (cb : Bool) (id : Nat) (c : Connection) : Connection :=
  if cb then c.emit (.called id res) else c

def runSendCompletionCallbacks (res : SendBuffersResult) (cbs : List Nat) (c : Connection) : Connection :=
  cbs.foldl (fun c id => c.emit (.called id res)) c

def closeSocket (env : ConnectionEnv) (c : Connection) : Connection :=
  if c.socketIsOpen then
    { c with
      readIsEnabled := false
      scheduleForWriteIsEnabled := false
      socketIsOpen := !env.closesOnShutdown
      timeoutKey := c.timeoutKey + 1 }
  else c

/-- `shutdown_impl`, with the shutdown handler. -/
def shutdownNow (env : ConnectionEnv) (reason : ConnectionShutdownReason) (c : Connection) : Connection :=
  if c.shutdownWasCalled then
    c
  else
    let c := closeSocket env c
    let c := if env.hasShutdownHandler then c.emit (.shutdownHandlerCalled reason) else c
    { c with shutdownWasCalled := true }

def handleIoErrorNow (env : ConnectionEnv) (ec : ErrorCode) (c : Connection) : Connection :=
  if ec = .operationAborted then c else shutdownNow env (if ec = .eof then .eof else .ioError) c

/-- `after_write` of a failed write. -/
def writeFailedNow (env : ConnectionEnv) (ec : ErrorCode) (c : Connection) : Connection :=
  let cbs := (front c.writeQueue).sendCompletionCbs
  let c := { c with timeoutKey := c.timeoutKey + 1 }.emit (.writeFailed c.popped)
  runSendCompletionCallbacks .ioError cbs (handleIoErrorNow env ec c)

def popFront (c : Connection) : Connection :=
  { c.emit (.popped c.popped) with
    writeQueue := c.writeQueue.tail
    isWriteOperationRunning := false
    popped := c.popped + 1 }

/-- `after_write` of a write that succeeded, up to the next write. -/
def writtenNow (c : Connection) : Connection :=
  let cbs := (front c.writeQueue).sendCompletionCbs
  let c := { c with timeoutKey := c.timeoutKey + 1 }.emit (.written c.popped)
  popFront (runSendCompletionCallbacks .success cbs c)

def freezeFront (c : Connection) : Connection := { c with writeQueue := freezeFirst c.writeQueue }

def withFront (seq : SingleWritableSequence) (c : Connection) : Connection :=
  { c with writeQueue := setFront seq c.writeQueue }

/-- `start_async_write`, or whatever else `initiate_write_if_necessary` does without writing. -/
inductive WriteBegun
  | done (c : Connection)
  | syncWrite (c : Connection)

/-- `initiate_write_if_necessary`, up to the synchronous write. -/
def beginWrite (env : ConnectionEnv) (c : Connection) : WriteBegun :=
  if c.isWriteOperationRunning then
    .done c
  else
    let seq := (front c.writeQueue).makeAsioBufs
    let c := withFront seq c
    if seq.asioBufs = [] then
      .done c
    else
      let c := c.emit (.writeStarted c.popped)
      if env.quikSyncWriteHeuristicSize < seq.totalSize then .done (startAsyncWrite seq.asioBufs c) else .syncWrite c

/-- What `initiate_write_if_necessary` does after the synchronous write; a write that succeeded goes
on with `next`. -/
def endSyncWrite (env : ConnectionEnv) (r : WriteResult) (next : Connection → Option Writing)
    (results : List WriteResult) (c : Connection) : Option Writing :=
  let seq := front c.writeQueue
  let c := c.emit (.taken (seq.asioBufs.flatten.take r.transferred))
  let completed (w : Writing) : Writing := { w with conn := w.conn.emit (.incBytesTxSync r.transferred) }
  match r.ec with
  | none => (next (writtenNow (freezeFront c))).map completed
  | some ec =>
    if ec ≠ .wouldBlock then
      some (completed ⟨writeFailedNow env ec (freezeFront c), results⟩)
    else if seq.totalSize ≤ r.transferred then
      some (completed ⟨writeFailedNow env .syncWriteUnexpectedResults (freezeFront c), results⟩)
    else
      let rest := skipTransferredPart seq.asioBufs r.transferred
      let asioBufs := seq.asioBufs.take (seq.asioBufs.length - rest.length) ++ rest
      some ⟨startAsyncWrite rest (withFront { seq with asioBufs } c), results⟩

/-- `initiate_write_if_necessary`, as far as the synchronous writes lead. -/
def initiateWrites (env : ConnectionEnv) : List WriteResult → Connection → Option Writing
  | [], c =>
    match beginWrite env c with
    | .done c => some ⟨c, []⟩
    | .syncWrite _ => none
  | r :: results, c =>
    match beginWrite env c with
    | .done c => some ⟨c, r :: results⟩
    | .syncWrite c =>
      if r.PossibleSync (front c.writeQueue).totalSize then
        endSyncWrite env r (initiateWrites env results) results c
      else none

/-- `append_outgoing_buffer_try_aggressive_write`: whether the buffer was written, and what is then. -/
def tryAggressiveWrite (env : ConnectionEnv) (buf : Bytes) (beAggressive : Bool) (w : Writing) :
    Option (Bool × Writing) :=
  let queued (c : Connection) (buf : Bytes) := { c with writeQueue := appendOutgoingBuffer env buf c.writeQueue }
  let beAggressive := beAggressive && !w.conn.isWriteOperationRunning
  if beAggressive then
    if env.quikSyncWriteHeuristicSize ≤ buf.length then
      some (false, { w with conn := queued w.conn buf })
    else
      match w.results with
      | [] => none
      | r :: results =>
        if r.PossibleSync buf.length then
          let c := (w.conn.emit (.taken (buf.take r.transferred))).emit (.incBytesTxSync r.transferred)
          if r.transferred = buf.length then
            some (true, ⟨c, results⟩)
          else if r.transferred ≠ 0 then
            some (false, ⟨queued c (buf.drop r.transferred), results⟩)
          else
            some (false, ⟨queued c buf, results⟩)
        else none
  else
    some (false, { w with conn := queued w.conn buf })

/-- Over the buffers of a pack. -/
def tryAggressiveWrites (env : ConnectionEnv) : List Bytes → Bool → Writing → Option (Bool × Writing)
  | [], beAggressive, w => some (beAggressive, w)
  | buf :: bufs, beAggressive, w => do
    let (beAggressive, w) ← tryAggressiveWrite env buf beAggressive w
    tryAggressiveWrites env bufs beAggressive w

/-- Over the buffers of a container. -/
def tryAggressiveWritesVec (env : ConnectionEnv) (bufs : List Bytes) (beAggressive : Bool) (w : Writing) :
    Option (Bool × Writing) :=
  bufs.foldlM (fun (beAggressive, w) buf => tryAggressiveWrite env buf beAggressive w) (beAggressive, w)

/-! ## The bodies -/

inductive SendBufferStrategy
  | dispatch
  | aggressiveDispatch
  | post
  deriving DecidableEq, Repr

/-- What a body does once it went over the buffers. -/
def afterBuffers (env : ConnectionEnv) (cb : Bool) (id : Nat) (allAggressive : Bool) (w : Writing) : Option Writing :=
  if allAggressive then
    some { w with conn := runSendCompletionCallback .success cb id w.conn }
  else
    let queue := w.conn.writeQueue
    let queue := if cb then setBack ((back queue).appendCompletionCb id) queue else queue
    initiateWrites env w.results { w.conn with writeQueue := queue }

/-- The body that all send functions have, with or without a callback: `appendAll` goes over the
buffers, and `whenRefused` says what is done once the connection no longer takes them. -/
def sendBody (env : ConnectionEnv) (appendAll : List Bytes → Bool → Writing → Option (Bool × Writing))
    (whenRefused : Nat → Connection → Connection) (cb : Bool) (bufs : List Bytes) (w : Writing) : Option Writing :=
  let id := w.conn.groups
  let c := { w.conn with groups := id + 1 }
  if c.scheduleForWriteIsEnabled then do
    let (allAggressive, w) ← appendAll bufs true { w with conn := c.emit (.accepted id bufs cb) }
    afterBuffers env cb id allAggressive w
  else
    some { w with conn := whenRefused id (c.emit (.refused id cb)) }

/-- Returns without a word. -/
def refuseSilently (_id : Nat) (c : Connection) : Connection := c

/-- With `locking_t::noop_lock` there is no direct body. What is posted to the strand runs there later. -/
def scheduleSendImpl (env : ConnectionEnv) (noopLock : Bool) (strategy : SendBufferStrategy) (bufs : List Bytes) :
    Writing → Option Writing :=
  if strategy = .aggressiveDispatch ∧ ¬ noopLock then
    sendBody env (tryAggressiveWrites env) refuseSilently false bufs
  else
    sendBody env (tryAggressiveWrites env) refuseSilently false bufs

def scheduleSendVecImpl (env : ConnectionEnv) (noopLock : Bool) (strategy : SendBufferStrategy) (bufs : List Bytes) :
    Writing → Option Writing :=
  if strategy = .aggressiveDispatch ∧ ¬ noopLock then
    sendBody env (tryAggressiveWritesVec env) refuseSilently false bufs
  else
    sendBody env (tryAggressiveWritesVec env) refuseSilently false bufs

def scheduleSendImplWithCb (env : ConnectionEnv) (noopLock : Bool) (strategy : SendBufferStrategy) (cb : Bool)
    (bufs : List Bytes) : Writing → Option Writing :=
  if strategy = .aggressiveDispatch ∧ ¬ noopLock then
    sendBody env (tryAggressiveWrites env) refuseSilently cb bufs
  else
    sendBody env (tryAggressiveWrites env) (runSendCompletionCallback .rejectedScheduleSend cb) cb bufs

def scheduleSendVecImplWithCb (env : ConnectionEnv) (noopLock : Bool) (strategy : SendBufferStrategy) (cb : Bool)
    (bufs : List Bytes) : Writing → Option Writing :=
  if strategy = .aggressiveDispatch ∧ ¬ noopLock then
    sendBody env (tryAggressiveWritesVec env) refuseSilently cb bufs
  else
    sendBody env (tryAggressiveWritesVec env) (runSendCompletionCallback .rejectedScheduleSend cb) cb bufs

/-! ## Bodies and steps -/

/-- The running work item comes to its end, its synchronous writes with these results, and no user
callback makes a call. -/
inductive Settles (env : ConnectionEnv) : Connection → List WriteResult → Connection → Prop
  | idle {c : Connection} (h : c.stack = []) : Settles env c [] c
  | goesOn {c c₁ c' : Connection} {results : List WriteResult} (hstack : c.stack ≠ [])
      (h : step env c .none = some c₁) (hrest : Settles env c₁ results c') : Settles env c results c'
  | calls {c c₁ c' : Connection} {results : List WriteResult} (hstack : c.stack ≠ [])
      (h : step env c (.calls []) = some c₁) (hrest : Settles env c₁ results c') : Settles env c results c'
  | writes {c c₁ c' : Connection} {r : WriteResult} {results : List WriteResult} (hstack : c.stack ≠ [])
      (h : step env c (.result r) = some c₁) (hrest : Settles env c₁ results c') : Settles env c (r :: results) c'

section Settles

variable {env : ConnectionEnv} {c c₁ c' : Connection} {f : Frame} {results : List WriteResult}

/-- A frame that needs nothing from outside. -/
theorem settles_goesOn (h : resume env c f .none = some c₁) (hcalls : resume env c f (.calls []) = none)
    (hwrites : ∀ r, resume env c f (.result r) = none) :
    Settles env (c.push f) results c' ↔ Settles env c₁ results c' := by
  constructor
  · rintro (hidle | ⟨-, hstep, hrest⟩ | ⟨-, hstep, -⟩ | ⟨-, hstep, -⟩)
    · cases hidle
    · rwa [← Option.some.inj (h.symm.trans hstep)] at hrest
    · exact nomatch hcalls.symm.trans hstep
    · exact nomatch (hwrites _).symm.trans hstep
  · intro hrest
    exact .goesOn (List.cons_ne_nil f c.stack) h hrest

/-- A frame that calls user code. -/
theorem settles_calls (h : resume env c f (.calls []) = some c₁) (hnone : resume env c f .none = none)
    (hwrites : ∀ r, resume env c f (.result r) = none) :
    Settles env (c.push f) results c' ↔ Settles env c₁ results c' := by
  constructor
  · rintro (hidle | ⟨-, hstep, -⟩ | ⟨-, hstep, hrest⟩ | ⟨-, hstep, -⟩)
    · cases hidle
    · exact nomatch hnone.symm.trans hstep
    · rwa [← Option.some.inj (h.symm.trans hstep)] at hrest
    · exact nomatch (hwrites _).symm.trans hstep
  · intro hrest
    exact .calls (List.cons_ne_nil f c.stack) h hrest

/-- A frame that waits for a synchronous write does not go on without its result. -/
theorem not_settles_writes (hnone : resume env c f .none = none) (hcalls : resume env c f (.calls []) = none) :
    ¬ Settles env (c.push f) [] c' := by
  rintro (hidle | ⟨-, hstep, -⟩ | ⟨-, hstep, -⟩)
  · cases hidle
  · exact nomatch hnone.symm.trans hstep
  · exact nomatch hcalls.symm.trans hstep

/-- It goes on with the next result. -/
theorem settles_writes {r : WriteResult} (hnone : resume env c f .none = none)
    (hcalls : resume env c f (.calls []) = none) :
    Settles env (c.push f) (r :: results) c' ↔
      ∃ c₁, resume env c f (.result r) = some c₁ ∧ Settles env c₁ results c' := by
  constructor
  · rintro (_ | ⟨-, hstep, -⟩ | ⟨-, hstep, -⟩ | ⟨-, hstep, hrest⟩)
    · exact nomatch hnone.symm.trans hstep
    · exact nomatch hcalls.symm.trans hstep
    · exact ⟨_, hstep, hrest⟩
  · rintro ⟨c₁, hstep, hrest⟩
    exact .writes (List.cons_ne_nil f c.stack) hstep hrest

theorem settles_aggressiveWrite {buf : Bytes} {bufs : List Bytes} {id : Nat} {cb : Bool} {r : WriteResult} :
    Settles env (c.push (.aggressiveWrite buf bufs id cb)) (r :: results) c' ↔
      r.PossibleSync buf.length ∧ Settles env (aggressiveWritten env buf bufs id cb r c) results c' := by
  rw [settles_writes rfl rfl, resume]
  by_cases hr : r.PossibleSync buf.length <;> simp [hr]

theorem settles_syncWrite {r : WriteResult} :
    Settles env (c.push .syncWrite) (r :: results) c' ↔
      r.PossibleSync (front c.writeQueue).totalSize ∧ Settles env (syncWritten env r c) results c' := by
  rw [settles_writes rfl rfl, resume]
  by_cases hr : r.PossibleSync (front c.writeQueue).totalSize <;> simp [hr]

theorem settles_runCallbacks (res : SendBuffersResult) : ∀ {cbs : List Nat} {c : Connection},
    Settles env (c.push (.runCallbacks res cbs)) results c' ↔
      Settles env (runSendCompletionCallbacks res cbs c) results c'
  | [], c => settles_goesOn rfl rfl fun _ => rfl
  | cb :: cbs, c => by
    rw [settles_calls (f := .runCallbacks res (cb :: cbs)) rfl rfl fun _ => rfl]
    rw [settles_goesOn (f := .reaction []) rfl rfl fun _ => rfl]
    exact settles_runCallbacks res

theorem settles_shutdownImpl (reason : ConnectionShutdownReason) :
    Settles env (shutdownImpl env reason c) results c' ↔ Settles env (shutdownNow env reason c) results c' := by
  unfold shutdownImpl shutdownNow
  by_cases hwas : c.shutdownWasCalled = true
  · rw [if_pos hwas, if_pos hwas]
  · rw [if_neg hwas, if_neg hwas]
    by_cases hhandler : env.hasShutdownHandler = true
    · dsimp only
      rw [if_pos hhandler, if_pos hhandler]
      rw [settles_calls (f := .shutdownHandler reason) rfl rfl fun _ => rfl]
      rw [settles_goesOn (f := .reaction []) rfl rfl fun _ => rfl]
      change Settles env (push .markShutdown (emit (.shutdownHandlerCalled reason) (closeSocket env c))) _ _ ↔ _
      exact settles_goesOn rfl rfl fun _ => rfl
    · dsimp only
      rw [if_neg hhandler, if_neg hhandler]
      rfl

theorem settles_handleIoError (ec : ErrorCode) :
    Settles env (handleIoError env ec c) results c' ↔ Settles env (handleIoErrorNow env ec c) results c' := by
  unfold handleIoError handleIoErrorNow
  split
  · exact Iff.rfl
  · exact settles_shutdownImpl _

/-! ### What lies below on the stack -/

theorem emit_push (ev : Event) (c : Connection) : (c.push f).emit ev = (c.emit ev).push f := rfl

theorem freezeFront_push (c : Connection) : freezeFront (c.push f) = (freezeFront c).push f := rfl

theorem popFront_push (c : Connection) : popFront (c.push f) = (popFront c).push f := rfl

theorem runSendCompletionCallbacks_push (res : SendBuffersResult) : ∀ (cbs : List Nat) (c : Connection),
    runSendCompletionCallbacks res cbs (c.push f) = (runSendCompletionCallbacks res cbs c).push f
  | [], _ => rfl
  | cb :: cbs, c => runSendCompletionCallbacks_push res cbs (c.emit (.called cb res))

theorem closeSocket_push (c : Connection) : closeSocket env (c.push f) = (closeSocket env c).push f := by
  unfold closeSocket
  change (if c.socketIsOpen = true then _ else _) = _
  split <;> rfl

theorem shutdownNow_push (reason : ConnectionShutdownReason) (c : Connection) :
    shutdownNow env reason (c.push f) = (shutdownNow env reason c).push f := by
  unfold shutdownNow
  change (if c.shutdownWasCalled = true then _ else _) = _
  split
  · rfl
  · dsimp only
    rw [closeSocket_push]
    by_cases hhandler : env.hasShutdownHandler = true
    · rw [if_pos hhandler, if_pos hhandler]
      rfl
    · rw [if_neg hhandler, if_neg hhandler]
      rfl

theorem handleIoErrorNow_push (ec : ErrorCode) (c : Connection) :
    handleIoErrorNow env ec (c.push f) = (handleIoErrorNow env ec c).push f := by
  unfold handleIoErrorNow
  split
  · rfl
  · exact shutdownNow_push _ c

theorem writeFailedNow_push (ec : ErrorCode) (c : Connection) :
    writeFailedNow env ec (c.push f) = (writeFailedNow env ec c).push f := by
  unfold writeFailedNow
  rw [← runSendCompletionCallbacks_push, ← handleIoErrorNow_push]
  rfl

theorem writtenNow_push (c : Connection) : writtenNow (c.push f) = (writtenNow c).push f := by
  unfold writtenNow
  rw [← popFront_push, ← runSendCompletionCallbacks_push]
  rfl

theorem beginWrite_push (c : Connection) :
    beginWrite env (c.push f) =
      match beginWrite env c with
      | .done c => .done (c.push f)
      | .syncWrite c => .syncWrite (c.push f) := by
  unfold beginWrite
  change (if c.isWriteOperationRunning = true then _ else _) = _
  by_cases hrunning : c.isWriteOperationRunning = true
  · rw [if_pos hrunning, if_pos hrunning]
  · rw [if_neg hrunning, if_neg hrunning]
    dsimp only
    change (if (front c.writeQueue).makeAsioBufs.asioBufs = [] then _ else _) = _
    by_cases hnil : (front c.writeQueue).makeAsioBufs.asioBufs = []
    · rw [if_pos hnil, if_pos hnil]
      rfl
    · rw [if_neg hnil, if_neg hnil]
      change (if env.quikSyncWriteHeuristicSize < (front c.writeQueue).makeAsioBufs.totalSize then _ else _) = _
      by_cases hlarge : env.quikSyncWriteHeuristicSize < (front c.writeQueue).makeAsioBufs.totalSize
      · rw [if_pos hlarge, if_pos hlarge]
        rfl
      · rw [if_neg hlarge, if_neg hlarge]
        rfl

theorem endSyncWrite_push (r : WriteResult) {next : Connection → Option Writing} (c : Connection)
    (hnext : ∀ c, next (c.push f) = (next c).map (Writing.push f)) :
    endSyncWrite env r next results (c.push f) = (endSyncWrite env r next results c).map (Writing.push f) := by
  unfold endSyncWrite
  dsimp only
  rw [emit_push, freezeFront_push]
  obtain ⟨_ | ec, transferred⟩ := r
  · dsimp only
    rw [writtenNow_push, hnext, Option.map_map, Option.map_map]
    rfl
  · dsimp only
    rw [writeFailedNow_push, writeFailedNow_push]
    by_cases hblock : ec ≠ .wouldBlock
    · rw [if_pos hblock, if_pos hblock]
      rfl
    · rw [if_neg hblock, if_neg hblock]
      change (if (front c.writeQueue).totalSize ≤ transferred then _ else _) = _
      by_cases hall : (front c.writeQueue).totalSize ≤ transferred
      · rw [if_pos hall, if_pos hall]
        rfl
      · rw [if_neg hall, if_neg hall]
        rfl

/-- What follows on the stack neither changes what is written nor is changed. -/
theorem initiateWrites_push : ∀ (results : List WriteResult) (c : Connection),
    initiateWrites env results (c.push f) = (initiateWrites env results c).map (Writing.push f)
  | [], c => by
    unfold initiateWrites
    rw [beginWrite_push]
    cases beginWrite env c <;> rfl
  | r :: results, c => by
    unfold initiateWrites
    rw [beginWrite_push]
    cases beginWrite env c with
    | done c => rfl
    | syncWrite c =>
      dsimp only
      change (if r.PossibleSync (front c.writeQueue).totalSize then _ else _) = _
      split
      · exact endSyncWrite_push r c (initiateWrites_push results)
      · rfl

/-! ### Writes -/

theorem settles_writeFailed (ec : ErrorCode) :
    Settles env (afterWrite env (some ec) c) results c' ↔ Settles env (writeFailedNow env ec c) results c' := by
  unfold afterWrite writeFailedNow
  dsimp only
  rw [settles_handleIoError, handleIoErrorNow_push, settles_runCallbacks]

theorem settles_written :
    Settles env (afterWrite env none c) results c' ↔ Settles env ((writtenNow c).push .initiateWrite) results c' := by
  unfold afterWrite
  dsimp only
  rw [settles_runCallbacks, runSendCompletionCallbacks_push]
  exact settles_goesOn (f := .popWritten) rfl rfl fun _ => rfl

theorem settles_syncWritten {r : WriteResult} {next : Connection → Option Writing}
    (hpush : ∀ f c, next (c.push f) = (next c).map (Writing.push f))
    (hnext : ∀ c, Settles env (c.push .initiateWrite) results c' ↔
      ∃ w, next c = some w ∧ Settles env w.conn w.results c') :
    Settles env (syncWritten env r c) results c' ↔
      ∃ w, endSyncWrite env r next results c = some w ∧ Settles env w.conn w.results c' := by
  have hcompleted : ∀ {results : List WriteResult} (n : Nat) (c : Connection),
      Settles env (c.push (.incBytesTxSync n)) results c' ↔ Settles env (c.emit (.incBytesTxSync n)) results c' :=
    fun n c => settles_goesOn rfl rfl fun _ => rfl
  have hfailed : ∀ (ec : ErrorCode) (c : Connection),
      Settles env (completeOperationNow env (some ec) r.transferred c) results c' ↔
        Settles env ((writeFailedNow env ec (freezeFront c)).emit (.incBytesTxSync r.transferred)) results c' := by
    intro ec c
    rw [completeOperationNow, settles_writeFailed, writeFailedNow_push]
    exact hcompleted ..
  obtain ⟨_ | ec, transferred⟩ := r
  · unfold syncWritten endSyncWrite
    dsimp only
    rw [if_pos (by simp), completeOperationNow, settles_written, writtenNow_push, hnext, hpush, ← freezeFront]
    constructor
    · rintro ⟨_, hpushed, hrest⟩
      obtain ⟨w, hw, rfl⟩ := Option.map_eq_some_iff.1 hpushed
      rw [hw]
      exact ⟨_, rfl, (hcompleted transferred w.conn).1 hrest⟩
    · rintro ⟨_, hcompletes, hrest⟩
      obtain ⟨w, hw, rfl⟩ := Option.map_eq_some_iff.1 hcompletes
      rw [hw]
      exact ⟨_, rfl, (hcompleted transferred w.conn).2 hrest⟩
  · unfold syncWritten endSyncWrite
    dsimp only
    by_cases hblock : ec ≠ .wouldBlock
    · rw [if_pos hblock, if_pos (by simpa using hblock), hfailed]
      simp
    · rw [if_neg hblock, if_neg (by simpa using hblock)]
      split
      · rw [hfailed]
        simp
      · simp [withFront]

theorem initiateWriteIfNecessary_eq (c : Connection) :
    initiateWriteIfNecessary env c =
      match beginWrite env c with
      | .done c => c
      | .syncWrite c => c.push .syncWrite := by
  unfold initiateWriteIfNecessary beginWrite
  by_cases hrunning : c.isWriteOperationRunning = true
  · rw [if_pos hrunning, if_pos hrunning]
  · rw [if_neg hrunning, if_neg hrunning]
    dsimp only
    by_cases hnil : (front c.writeQueue).makeAsioBufs.asioBufs = []
    · rw [if_pos hnil, if_pos hnil]
      rfl
    · rw [if_neg hnil, if_neg hnil]
      by_cases hlarge : env.quikSyncWriteHeuristicSize < (front c.writeQueue).makeAsioBufs.totalSize
      · rw [if_pos hlarge, if_neg (Nat.not_le.2 hlarge)]
        rfl
      · rw [if_neg hlarge, if_pos (Nat.not_lt.1 hlarge)]
        rfl

/-- The writes of a work item, one after another, are the steps of its frames. -/
theorem settles_initiateWrite : ∀ {results : List WriteResult} {c : Connection},
    Settles env (c.push .initiateWrite) results c' ↔
      ∃ w, initiateWrites env results c = some w ∧ Settles env w.conn w.results c' := by
  intro results
  induction results with
  | nil =>
    intro c
    rw [settles_goesOn (f := .initiateWrite) rfl rfl fun _ => rfl, initiateWriteIfNecessary_eq, initiateWrites]
    cases beginWrite env c with
    | done c => simp
    | syncWrite c => exact iff_of_false (not_settles_writes rfl rfl) (by simp)
  | cons r results ih =>
    intro c
    rw [settles_goesOn (f := .initiateWrite) rfl rfl fun _ => rfl, initiateWriteIfNecessary_eq, initiateWrites]
    cases beginWrite env c with
    | done c => simp
    | syncWrite c =>
      rw [settles_syncWrite]
      dsimp only
      by_cases hr : r.PossibleSync (front c.writeQueue).totalSize
      · rw [if_pos hr, ← settles_syncWritten (fun f => initiateWrites_push results) fun c => ih]
        exact and_iff_right hr
      · rw [if_neg hr]
        simp [hr]

/-! ### Buffers -/

theorem tryAggressiveWrites_cons (buf : Bytes) (bufs : List Bytes) (beAggressive : Bool) (w : Writing) :
    tryAggressiveWrites env (buf :: bufs) beAggressive w =
      (tryAggressiveWrite env buf beAggressive w).bind fun (beAggressive, w) =>
        tryAggressiveWrites env bufs beAggressive w := rfl

/-- A pack and a container are gone over in the same way. -/
theorem tryAggressiveWritesVec_eq (bufs : List Bytes) (beAggressive : Bool) (w : Writing) :
    tryAggressiveWritesVec env bufs beAggressive w = tryAggressiveWrites env bufs beAggressive w := by
  unfold tryAggressiveWritesVec
  induction bufs generalizing beAggressive w with
  | nil => rfl
  | cons buf bufs ih =>
    rw [List.foldlM_cons, tryAggressiveWrites_cons]
    exact congrArg _ (funext fun (beAggressive, w) => ih beAggressive w)

theorem settles_append_cons {buf : Bytes} {bufs : List Bytes} {beAggressive cb : Bool} {id : Nat} :
    Settles env (c.push (.append (buf :: bufs) beAggressive id cb)) results c' ↔
      ∃ beAggressive' w, tryAggressiveWrite env buf beAggressive ⟨c, results⟩ = some (beAggressive', w) ∧
        Settles env (w.conn.push (.append bufs beAggressive' id cb)) w.results c' := by
  rw [settles_goesOn (f := .append (buf :: bufs) beAggressive id cb) rfl rfl fun _ => rfl, append, tryAggressiveWrite]
  dsimp only
  by_cases hdirect : (beAggressive && !c.isWriteOperationRunning) = true
  · rw [if_pos hdirect]
    obtain ⟨hbe, hidle⟩ : beAggressive = true ∧ c.isWriteOperationRunning = false := by simpa using hdirect
    by_cases hlarge : env.quikSyncWriteHeuristicSize ≤ buf.length
    · rw [if_pos hlarge, if_neg (by omega)]
      simp
    · rw [if_neg hlarge, if_pos ⟨hbe, by simp [hidle], by omega⟩]
      cases results with
      | nil => exact iff_of_false (not_settles_writes rfl rfl) (by simp)
      | cons r results =>
        rw [settles_aggressiveWrite]
        dsimp only
        by_cases hr : r.PossibleSync buf.length
        · -- what the write did not take is queued, and the rest of the group with it
          rw [if_pos hr, and_iff_right hr, aggressiveWritten]
          dsimp only
          by_cases hall : r.transferred = buf.length
          · rw [if_pos hall, if_pos hall]
            simp
          · rw [if_neg hall, if_neg hall]
            by_cases hsome : r.transferred ≠ 0
            · rw [if_pos hsome, if_pos hsome]
              simp [emit]
            · rw [if_neg hsome, if_neg hsome]
              simp [emit]
        · rw [if_neg hr]
          simp [hr]
  · rw [if_neg hdirect, if_neg]
    · simp
    · rintro ⟨hbe, hidle, -⟩
      exact hdirect (by simp [hbe, hidle])

theorem settles_append {bufs : List Bytes} {beAggressive cb : Bool} {id : Nat} :
    Settles env (c.push (.append bufs beAggressive id cb)) results c' ↔
      ∃ allAggressive w, tryAggressiveWrites env bufs beAggressive ⟨c, results⟩ = some (allAggressive, w) ∧
        Settles env (w.conn.push (.append [] allAggressive id cb)) w.results c' := by
  induction bufs generalizing beAggressive c results with
  | nil => simp [tryAggressiveWrites]
  | cons buf bufs ih =>
    rw [settles_append_cons, tryAggressiveWrites_cons]
    constructor
    · rintro ⟨beAggressive', w, hw, hrest⟩
      rw [hw]
      exact ih.1 hrest
    · rintro ⟨allAggressive, w, hw, hrest⟩
      obtain ⟨⟨beAggressive', w₁⟩, hw₁, hw⟩ := Option.bind_eq_some_iff.1 hw
      exact ⟨beAggressive', w₁, hw₁, ih.2 ⟨allAggressive, w, hw, hrest⟩⟩

/-- What a group does once its buffers were gone over. -/
theorem settles_append_nil {allAggressive cb : Bool} {id : Nat} :
    Settles env (c.push (.append [] allAggressive id cb)) results c' ↔
      ∃ w, afterBuffers env cb id allAggressive ⟨c, results⟩ = some w ∧ Settles env w.conn w.results c' := by
  rw [settles_goesOn (f := .append [] allAggressive id cb) rfl rfl fun _ => rfl, append, afterBuffers]
  dsimp only
  cases allAggressive with
  | true =>
    cases cb with
    | false => simp [runSendCompletionCallback]
    | true =>
      rw [if_pos rfl, if_pos rfl, if_pos rfl, settles_runCallbacks]
      simp [runSendCompletionCallback, runSendCompletionCallbacks]
  | false =>
    rw [if_neg Bool.false_ne_true, if_neg Bool.false_ne_true, settles_initiateWrite]
    cases cb <;> rfl

/-- The body of a send, run from end to end, is what the steps of its frames lead to: a direct call
says nothing when it is refused, and a call on the strand tells its callback. -/
theorem settles_send (s : SendCall) :
    Settles env (c.push (.call (.send s))) results c' ↔
      ∃ w, sendBody env (tryAggressiveWrites env)
          (if s.direct then refuseSilently else runSendCompletionCallback .rejectedScheduleSend s.cb) s.cb s.bufs
          ⟨c, results⟩ = some w ∧
        Settles env w.conn w.results c' := by
  rw [settles_goesOn (f := .call (.send s)) rfl rfl fun _ => rfl]
  change Settles env (scheduleSend s c) results c' ↔ _
  unfold scheduleSend sendBody
  dsimp only
  by_cases henabled : c.scheduleForWriteIsEnabled = true
  · rw [if_pos henabled, if_pos henabled, settles_append]
    constructor
    · rintro ⟨allAggressive, w, hw, hrest⟩
      obtain ⟨w', hw', hrest'⟩ := settles_append_nil.1 hrest
      exact ⟨w', Option.bind_eq_some_iff.2 ⟨⟨allAggressive, w⟩, hw, hw'⟩, hrest'⟩
    · rintro ⟨w', hbody, hrest'⟩
      obtain ⟨⟨allAggressive, w⟩, hw, hw'⟩ := Option.bind_eq_some_iff.1 hbody
      exact ⟨allAggressive, w, hw, settles_append_nil.2 ⟨w', hw', hrest'⟩⟩
  · rw [if_neg henabled, if_neg henabled]
    cases hdirect : s.direct with
    | true => simp [refuseSilently]
    | false =>
      cases hcb : s.cb with
      | false => simp [runSendCompletionCallback]
      | true =>
        rw [if_pos (by simp), settles_runCallbacks]
        simp [runSendCompletionCallback, runSendCompletionCallbacks]

end Settles

/-! ## Direct and on the strand -/

/-- What is left of a send: the queue, the flags, what the socket took and what the callbacks were told. -/
structure Outcome where
  writeQueue : List SingleWritableSequence
  isWriteOperationRunning : Bool
  readIsEnabled : Bool
  scheduleForWriteIsEnabled : Bool
  shutdownWasCalled : Bool
  socketIsOpen : Bool
  asyncWrite : Option (List Bytes)
  taken : Bytes
  called : List (Nat × SendBuffersResult)
  deriving DecidableEq

def outcome (w : Writing) : Outcome where
  writeQueue := w.conn.writeQueue
  isWriteOperationRunning := w.conn.isWriteOperationRunning
  readIsEnabled := w.conn.readIsEnabled
  scheduleForWriteIsEnabled := w.conn.scheduleForWriteIsEnabled
  shutdownWasCalled := w.conn.shutdownWasCalled
  socketIsOpen := w.conn.socketIsOpen
  asyncWrite := w.conn.asyncWrite
  taken := Opio.Net.taken w.conn.log
  called := w.conn.log.filterMap Event.callbackCall?

theorem sendBody_vec (env : ConnectionEnv) (whenRefused : Nat → Connection → Connection) (cb : Bool)
    (bufs : List Bytes) (w : Writing) :
    sendBody env (tryAggressiveWritesVec env) whenRefused cb bufs w =
      sendBody env (tryAggressiveWrites env) whenRefused cb bufs w := by
  unfold sendBody
  simp only [tryAggressiveWritesVec_eq]

/-- A connection that takes sends runs a body that does not say otherwise; one that does not, tells
the callback or does not. -/
theorem outcome_sendBody_iff (env : ConnectionEnv) (cb : Bool) (bufs : List Bytes) (w : Writing) :
    (sendBody env (tryAggressiveWrites env) refuseSilently cb bufs w).map outcome =
        (sendBody env (tryAggressiveWrites env) (runSendCompletionCallback .rejectedScheduleSend cb) cb bufs w).map
          outcome ↔
      ¬ (cb = true ∧ w.conn.scheduleForWriteIsEnabled = false) := by
  unfold sendBody
  dsimp only
  cases henabled : w.conn.scheduleForWriteIsEnabled with
  | true =>
    rw [if_pos rfl, if_pos rfl]
    simp
  | false =>
    rw [if_neg Bool.false_ne_true, if_neg Bool.false_ne_true]
    cases cb with
    | false => simp [refuseSilently, runSendCompletionCallback]
    | true =>
      constructor
      · intro heq
        have hone : ∀ (log : List Event) (id : Nat) (res : SendBuffersResult),
            log.filterMap Event.callbackCall? ≠ (log ++ [Event.called id res]).filterMap Event.callbackCall? := by
          intro log id res h
          rw [List.filterMap_append] at h
          simpa [Event.callbackCall?] using congrArg List.length h
        exact absurd (congrArg Outcome.called (Option.some.inj heq)) (hone _ _ _)
      · rintro hno
        exact absurd ⟨rfl, rfl⟩ hno

/-- With a mutex a direct send has the outcome of the send on the strand, whatever the buffers are
passed in and whatever comes of the writes, unless it brings a callback to a connection that no longer
takes buffers. -/
theorem direct_send_agrees_iff (env : ConnectionEnv) (cb : Bool) (bufs : List Bytes) (w : Writing) :
    (scheduleSendImpl env false .aggressiveDispatch bufs w).map outcome =
        (scheduleSendImpl env false .dispatch bufs w).map outcome ∧
    (scheduleSendVecImpl env false .aggressiveDispatch bufs w).map outcome =
        (scheduleSendVecImpl env false .dispatch bufs w).map outcome ∧
    ((scheduleSendImplWithCb env false .aggressiveDispatch cb bufs w).map outcome =
        (scheduleSendImplWithCb env false .dispatch cb bufs w).map outcome ↔
      ¬ (cb = true ∧ w.conn.scheduleForWriteIsEnabled = false)) ∧
    ((scheduleSendVecImplWithCb env false .aggressiveDispatch cb bufs w).map outcome =
        (scheduleSendVecImplWithCb env false .dispatch cb bufs w).map outcome ↔
      ¬ (cb = true ∧ w.conn.scheduleForWriteIsEnabled = false)) := by
  refine ⟨rfl, rfl, outcome_sendBody_iff env cb bufs w, ?_⟩
  have hvec := outcome_sendBody_iff env cb bufs w
  rw [← sendBody_vec, ← sendBody_vec] at hvec
  exact hvec

/-- A send with a callback, after the user shut the connection down. -/
theorem direct_send_drops_callback : ∃ c, execute (step ⟨64, 64, by decide, false, false⟩) {}
    [.item (.call .shutdown), .none] = some c ∧ c.stack = [] ∧
    (scheduleSendImplWithCb ⟨64, 64, by decide, false, false⟩ false .aggressiveDispatch true [[1]] ⟨c, []⟩).map
      outcome ≠
    (scheduleSendImplWithCb ⟨64, 64, by decide, false, false⟩ false .dispatch true [[1]] ⟨c, []⟩).map outcome := by
  obtain ⟨c, hc, hstack, henabled⟩ := exists_execute (step ⟨64, 64, by decide, false, false⟩) {}
    [.item (.call .shutdown), .none]
    (fun c : Connection => c.stack = [] ∧ c.scheduleForWriteIsEnabled = false)
    (by decide +kernel)
  refine ⟨c, hc, hstack, fun heq => ?_⟩
  exact (outcome_sendBody_iff _ true [[1]] ⟨c, []⟩).1 heq ⟨rfl, henabled⟩

end Connection

end Opio.Net
