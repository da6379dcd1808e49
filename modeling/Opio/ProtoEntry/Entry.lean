/-
`entry_base_t` and the message dispatch of the generated `core_entry_t`: how an entry takes its
input apart into packages, answers heartbeats, and terminates.

Work items run one at a time on the strand of the entry. What user code does in between, the
message consumer and the shutdown handler, enters as whether it throws, which may depend on all
that happened before. Logging and statistics are left out.
-/
import Opio.Lib.Program
import Opio.Net.Connection
import Opio.ProtoEntry.ZeroCopy

namespace Opio.ProtoEntry

export Net (ConnectionShutdownReason)

/-! ## Shutdown contexts -/

inductive EntryShutdownReason
  | underlyingConnection
  | userInitiated
  | exceptionHandlingInput
  | invalidInputPackage
  | unexpectedInputPackageSize
  | invalidInputPackageSize
  | invalidHeartbeatPackage
  | unknownPkgContentType
  | hearbeatReplyTimeout
  deriving DecidableEq, Repr

structure ConnectionShutdownContext where
  reason : EntryShutdownReason
  underlyingReason : Option ConnectionShutdownReason := none
  errMessage : String := ""
  deriving DecidableEq, Repr

/-- The alternatives of `shutdown_handler_variant_t`, with what the handler itself is left out. -/
inductive ShutdownHandler
  | notSupplied
  | wasCalled
  | handler
  | handler2
  deriving DecidableEq, Repr

/-! ## State -/

/-- What an entry does that can be seen from outside, and the headers it looks at. -/
inductive Event (μ : Type)
  /-- "Consider next header", with the size of the input it was found in. -/
  | considerHeader (header : PkgHeader) (size : Nat)
  /-- The consumer gets a message: its id, the bytes it was parsed from, the message, what is attached. -/
  | message (id : UInt16) (content : Bytes) (msg : μ) (attachedBinary : Bytes)
  | scheduleSend (buf : Bytes)
  | connectionShutdown
  | terminate (ctx : ConnectionShutdownContext)
  | shutdownHandlerCalled (ctx : Option ConnectionShutdownContext)
  /-- The connection is no longer active. -/
  | inactive
  deriving DecidableEq, Repr

structure EntryCfg where
  maxValidPackageSize : UInt32
  initiateHeartbeatTimeout : Int
  awaitHeartbeatReplyTimeout : Int

/-- What an entry is built with: the parser for each message type it accepts, and the user code. -/
structure EntryEnv (μ : Type) where
  cfg : EntryCfg
  engines : UInt16 → Option (ProtobufEngine μ)
  /-- The exception the consumer throws when it is handed the last message of the events. -/
  onMessage : List (Event μ) → Option String
  /-- The exception the shutdown handler throws. -/
  onShutdown : List (Event μ) → Option String

/-- The capacity `pkg_input_t` has by default is a capacity. -/
instance neZeroEight : NeZero 8 := ⟨by decide⟩

structure Entry (μ : Type) where
  connectionIsActive : Bool := true
  pkgInput : PkgInput 8 := {}
  shutdownHandler : ShutdownHandler
  lastInputAt : Int
  heartbeatSentCount : UInt32 := 0
  /-- When the pending heartbeat wait expires. -/
  heartbeatTimer : Option Int
  events : List (Event μ) := []

/-- Why a work item ends before its end: an exception, an assertion that fails, or a loop that is
not through when the steps given to it are used up. -/
inductive Stop
  | thrown (what : String)
  | fault (f : Fault)
  | diverged
  deriving DecidableEq, Repr

abbrev EntryM (μ : Type) := EStateM Stop (Entry μ)

variable {μ : Type}

def emit (ev : Event μ) : EntryM μ Unit := modify fun e => { e with events := e.events ++ [ev] }

/-- A call on `m_pkg_input`. -/
def onInput {α : Type} (f : PkgInput 8 → Except Fault (α × PkgInput 8)) : EntryM μ α := fun e =>
  match f e.pkgInput with
  | .ok (a, q) => .ok a { e with pkgInput := q }
  | .error f => .error (.fault f) e

/-- A user callback: it throws or it returns. -/
def callUser (throws : List (Event μ) → Option String) : EntryM μ Unit := do
  match throws (← get).events with
  | some what => throw (.thrown what)
  | none => return ()

namespace Entry

/-! ## Heartbeat timer -/

def updateLastInputAt (now : Int) : EntryM μ Unit :=
  modify fun e => { e with lastInputAt := now, heartbeatSentCount := 0 }

def scheduleNextHeartbeatCheck (now delay : Int) : EntryM μ Unit :=
  modify fun e => { e with heartbeatTimer := some (now + delay) }

def cancelHeartbeatTimer : EntryM μ Unit := modify fun e => { e with heartbeatTimer := none }

/-- An entry whose underlying connection has just been started. -/
def init (env : EntryEnv μ) (shutdownHandler : ShutdownHandler) (now : Int) : Entry μ where
  shutdownHandler
  lastInputAt := now
  heartbeatTimer := some (now + env.cfg.initiateHeartbeatTimeout)

/-! ## Termination -/

/-- The visit of the shutdown handler variant. -/
def visitShutdownHandler (env : EntryEnv μ) (ctx : ConnectionShutdownContext) : ShutdownHandler → EntryM μ Unit
  | .notSupplied => cancelHeartbeatTimer
  | .wasCalled => return ()
  | .handler => do
    emit (.shutdownHandlerCalled none)
    callUser env.onShutdown
    cancelHeartbeatTimer
  | .handler2 => do
    emit (.shutdownHandlerCalled (some ctx))
    callUser env.onShutdown
    cancelHeartbeatTimer

def terminate (env : EntryEnv μ) (ctx : ConnectionShutdownContext) : EntryM μ Unit := do
  if (← get).connectionIsActive = false then
    throw (.fault .terminateInactive)
  else
    emit (.terminate ctx)
    visitShutdownHandler env ctx (← get).shutdownHandler
    modify fun e => { e with shutdownHandler := .wasCalled }

def deactivate : EntryM μ Unit := do
  modify fun e => { e with connectionIsActive := false }
  emit .inactive

def shutdownAndTerminate (env : EntryEnv μ) (ctx : ConnectionShutdownContext) : EntryM μ Unit := do
  if (← get).connectionIsActive = false then
    return ()
  else
    emit .connectionShutdown
    terminate env ctx
    deactivate

def handleShutdown (env : EntryEnv μ) (reason : ConnectionShutdownReason) : EntryM μ Unit := do
  if (← get).connectionIsActive = false then
    return ()
  else
    terminate env { reason := .underlyingConnection, underlyingReason := some reason }
    deactivate

/-! ## Packages -/

inductive PackageHandlingResult
  | fullyConsumed
  | needsMoreInputData
  | invalidPackage
  deriving DecidableEq, Repr

/-- Gives the entry up because of a package. -/
def invalidPackage (env : EntryEnv μ) (reason : EntryShutdownReason) : EntryM μ PackageHandlingResult := do
  shutdownAndTerminate env { reason }
  return .invalidPackage

def pkgHasValidSize (env : EntryEnv μ) (header : PkgHeader) : Bool :=
  !(env.cfg.maxValidPackageSize < header.contentSize)

/-- The bytes of a package, as its header states them. -/
def packageSize (header : PkgHeader) : Nat :=
  header.advertizedHeaderSize + header.contentSize.toNat + header.attachedBinarySize.toNat

def pkgHasAllTheData (e : Entry μ) (header : PkgHeader) : Bool := !(e.pkgInput.size < packageSize header)

/-- The parse of a message behind a `LimitingInputStream`; nothing comes of it unless exactly the
content was consumed. -/
def parsePackage (engine : ProtobufEngine μ) (contentSize : Nat) : EntryM μ (Option μ) := do
  let before := (← get).pkgInput
  onInput fun q => do return ((), ← q.zeroCopyCalls (engine.calls before.view contentSize))
  if (← get).pkgInput.byteCount - before.byteCount ≠ contentSize then
    return none
  else
    return engine.result before.view contentSize

def consumeMessage (env : EntryEnv μ) (id : UInt16) (content : Bytes) (msg : μ) (attachedBinary : Bytes) :
    EntryM μ Unit := do
  emit (.message id content msg attachedBinary)
  callUser env.onMessage

/-- `handle_incoming_message_custom`. -/
def handleIncomingMessage (env : EntryEnv μ) (header : PkgHeader) : EntryM μ PackageHandlingResult := do
  match env.engines header.contentSpecificValue with
  | none => invalidPackage env .unexpectedInputPackageSize
  | some engine =>
    let content := (← get).pkgInput.view.flatten.take header.contentSize.toNat
    match ← parsePackage engine header.contentSize.toNat with
    | none => invalidPackage env .invalidInputPackage
    | some msg =>
      -- avoid any hanging bytes in terms of the zero-copy stream
      let _ ← onInput fun q => q.skip 0
      let attachedBinary ←
        if header.attachedBinarySize = 0 then pure []
        else onInput fun q => q.readBuffer header.attachedBinarySize.toNat
      consumeMessage env header.contentSpecificValue content msg attachedBinary
      return .fullyConsumed

def handleMessagePkg (env : EntryEnv μ) (header : PkgHeader) : EntryM μ PackageHandlingResult := do
  if !pkgHasValidSize env header then
    invalidPackage env .invalidInputPackageSize
  else if !pkgHasAllTheData (← get) header then
    return .needsMoreInputData
  else
    onInput fun q => do
      assertThat (4 * imageSizeDwords.toNat ≤ header.advertizedHeaderSize) Fault.headerShort
      return ((), ← q.skipBytes header.advertizedHeaderSize)
    handleIncomingMessage env header

def hasContent (header : PkgHeader) : Bool := header.contentSize ≠ 0 || header.attachedBinarySize ≠ 0

def handleHeartbeatRequestPkg (env : EntryEnv μ) (header : PkgHeader) : EntryM μ PackageHandlingResult := do
  if hasContent header then
    invalidPackage env .invalidHeartbeatPackage
  else
    onInput fun q => do return ((), ← q.skipBytes header.advertizedHeaderSize)
    if (← get).connectionIsActive then
      emit (.scheduleSend (PkgHeader.make pkgContentHeartbeatReply).image)
    return .fullyConsumed

def handleHeartbeatReplyPkg (env : EntryEnv μ) (header : PkgHeader) : EntryM μ PackageHandlingResult := do
  if hasContent header then
    invalidPackage env .invalidHeartbeatPackage
  else
    onInput fun q => do return ((), ← q.skipBytes header.advertizedHeaderSize)
    return .fullyConsumed

def handleUnknownPkgContentType (env : EntryEnv μ) : EntryM μ PackageHandlingResult :=
  invalidPackage env .unknownPkgContentType

/-! ## The input loop -/

/-- The switch on the content type. -/
def handlePackage (env : EntryEnv μ) (header : PkgHeader) : EntryM μ PackageHandlingResult :=
  if header.pkgContentType = pkgContentMessage then
    handleMessagePkg env header
  else if header.pkgContentType = pkgContentHeartbeatRequest then
    handleHeartbeatRequestPkg env header
  else if header.pkgContentType = pkgContentHeartbeatReply then
    handleHeartbeatReplyPkg env header
  else
    handleUnknownPkgContentType env

def handleSinglePackage (env : EntryEnv μ) : EntryM μ PackageHandlingResult := do
  if sizeofPkgHeader ≤ (← get).pkgInput.size then
    let header ← onInput fun q => do return (← q.viewPkgHeader, q)
    emit (.considerHeader header (← get).pkgInput.size)
    handlePackage env header
  else
    return .needsMoreInputData

/-- `run_input_stream_loop`, for at most the given number of iterations. -/
def runInputStreamLoop (env : EntryEnv μ) : Nat → EntryM μ Unit
  | 0 => throw .diverged
  | fuel + 1 => do
    match ← handleSinglePackage env with
    | .fullyConsumed => runInputStreamLoop env fuel
    | _ => return ()

/-- What `handle_input` does with an exception. -/
def handleInputException (env : EntryEnv μ) : Stop → EntryM μ Unit
  | .thrown what => shutdownAndTerminate env { reason := .exceptionHandlingInput, errMessage := what }
  | stop => throw stop

def handleInput (env : EntryEnv μ) (fuel : Nat) (now : Int) (buf : Bytes) : EntryM μ Unit :=
  tryCatch (do
    onInput fun q => do return ((), ← q.append buf)
    runInputStreamLoop env fuel
    updateLastInputAt now) (handleInputException env)

/-! ## The heartbeat check -/

def sendHeartbeatRequest : EntryM μ Unit := do
  emit (.scheduleSend (PkgHeader.make pkgContentHeartbeatRequest).image)
  modify fun e => { e with heartbeatSentCount := e.heartbeatSentCount + 1 }

def onCheckHeartbeat (env : EntryEnv μ) (now : Int) : EntryM μ Unit := do
  let e ← get
  if e.connectionIsActive = false then
    return ()
  else
    let sinceLastInput := now - e.lastInputAt
    if sinceLastInput < env.cfg.initiateHeartbeatTimeout then
      scheduleNextHeartbeatCheck now (env.cfg.initiateHeartbeatTimeout - sinceLastInput)
    else if e.heartbeatSentCount ≠ 0 ∧ env.cfg.awaitHeartbeatReplyTimeout ≤ sinceLastInput then
      shutdownAndTerminate env { reason := .hearbeatReplyTimeout }
    else
      sendHeartbeatRequest
      if sinceLastInput < env.cfg.awaitHeartbeatReplyTimeout then
        scheduleNextHeartbeatCheck now (env.cfg.awaitHeartbeatReplyTimeout - sinceLastInput)
      else
        scheduleNextHeartbeatCheck now env.cfg.initiateHeartbeatTimeout

/-! ## Runs -/

/-- The work items of the strand. -/
inductive Item
  | input (now : Int) (buf : Bytes)
  /-- What `close` posts. -/
  | close
  /-- What the shutdown handler of the underlying connection posts. -/
  | connectionShutdown (reason : ConnectionShutdownReason)
  | checkHeartbeat (now : Int)

def exec (env : EntryEnv μ) (fuel : Nat) : Item → EntryM μ Unit
  | .input now buf => handleInput env fuel now buf
  | .close => shutdownAndTerminate env { reason := .userInitiated }
  | .connectionShutdown reason => handleShutdown env reason
  | .checkHeartbeat now => onCheckHeartbeat env now

/-- The state in which the next work item finds the entry. An exception ends only the item it
leaves; nothing comes after a failed assertion or a loop that does not end. -/
def after (env : EntryEnv μ) (fuel : Nat) (e : Entry μ) (i : Item) : Option (Entry μ) :=
  match (exec env fuel i).run e with
  | .ok _ e' => some e'
  | .error (.thrown _) e' => some e'
  | .error _ _ => none

/-- The state a run of work items ends in. -/
def run (env : EntryEnv μ) (fuel : Nat) : Entry μ → List Item → Entry μ
  | e, [] => e
  | e, i :: is =>
    match after env fuel e i with
    | some e' => run env fuel e' is
    | none => finalState ((exec env fuel i).run e)

/-- An entry that takes one type of message, with user code that throws nothing. -/
def plainEnv (engine : ProtobufEngine μ) : EntryEnv μ where
  cfg := { maxValidPackageSize := 100, initiateHeartbeatTimeout := 10, awaitHeartbeatReplyTimeout := 20 }
  engines id := if id = 1 then some engine else none
  onMessage _ := none
  onShutdown _ := none

end Entry

end Opio.ProtoEntry
