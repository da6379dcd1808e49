/-
An entry together with its connection: what `init_underlying_connection` makes of the two, with the
strands of both and any number of threads that send.

The strands are different ones, as they are when each is made from the executor of the socket. A call on
the connection from the strand of the entry, or from any thread, comes behind the calls that were queued
before it, and so does what the connection hands to the strand of the entry. Where a strand is idle a
dispatch to it may run at once; that is a queue from which the call is taken before anything else
happens, so the queue covers it. Callbacks of sends make no calls.

Only sends that make one call are looked at. `send_vec` makes a second one for what is attached; `Senders` is
about that.
-/
import Opio.Net.QuietSteps
import Opio.ProtoEntry.Delivery
import Opio.ProtoEntry.Senders

namespace Opio.ProtoEntry

open Net (Connection ConnectionEnv SendCall Call Frame)
open Entry (Item)

variable {τ ι ο : Type}

/-! ## State -/

/-- What a node is built with: `ι` are the messages it receives, `ο` those it sends. -/
structure NodeEnv (ι ο : Type) where
  entry : EntryEnv ι
  connection : ConnectionEnv
  /-- The entry supplies its connection with one. -/
  hasShutdownHandler : connection.hasShutdownHandler = true
  serialize : ο → Bytes

/-- A call on the connection that its strand is to run. -/
inductive Work (τ ο : Type)
  /-- The call of a send that a thread made. -/
  | send (t : τ) (s : Send ο) (call : SendCall)
  /-- A heartbeat of the entry. -/
  | heartbeat (buf : Bytes)
  | shutdown
  | startReading

/-- A work item on the strand of the entry, without the time it is going to run at. -/
inductive Posted
  /-- What `raw_bytes_handler_t` dispatches. -/
  | input (buf : Bytes)
  /-- What the shutdown handler of the connection posts. -/
  | connectionShutdown (reason : ConnectionShutdownReason)
  | close
  deriving DecidableEq

structure Node (τ ι ο : Type) where
  entry : Entry ι
  connection : Connection := {}
  /-- The send for which a thread found the entry active, before it calls the connection. -/
  checked : τ → Option (Send ο × SendCall) := fun _ => none
  /-- The calls that the running work item of the entry has yet to make. -/
  outbox : List (Work τ ο) := []
  /-- The strand of the connection. -/
  strand : List (Work τ ο) := [.startReading]
  /-- `m_read_buffer`, with what the last read left in it. -/
  readBuffer : Bytes := []
  /-- The strand of the entry. -/
  posted : List Posted := []
  /-- The sends each thread made. -/
  called : τ → List (Send ο) := fun _ => []
  /-- The sends and heartbeats that the connection accepted. -/
  sent : List (Work τ ο) := []
  /-- The bytes that were read, and of these the ones that `handle_input` was called with. -/
  read : Bytes := []
  handled : Bytes := []

/-! ## Calls and items -/

/-- Not a heartbeat. -/
def Send.isMessage : Send ο → Bool
  | heartbeatRequest => false
  | heartbeatReply => false
  | _ => true

/-- The image of the package can be made. -/
def Send.hasImage (serialize : ο → Bytes) (s : Send ο) : Bool := !(s.calls serialize).isEmpty

namespace Work

def call : Work τ ο → Call
  | send _ _ call => .send call
  | heartbeat buf => .send { bufs := [buf] }
  | shutdown => .shutdown
  | startReading => .startReading

/-- There are bytes to send. -/
def isSend : Work τ ο → Bool
  | send _ _ _ => true
  | heartbeat _ => true
  | _ => false

def bytes : Work τ ο → Bytes
  | send _ _ call => call.bufs.flatten
  | heartbeat buf => buf
  | _ => []

/-- The call an event of the entry stands for. -/
def ofEvent : Event ι → Option (Work τ ο)
  | .scheduleSend buf => some (heartbeat buf)
  | .connectionShutdown => some shutdown
  | _ => none

end Work

namespace Posted

def item (now : Int) : Posted → Item
  | input buf => .input now buf
  | connectionShutdown reason => .connectionShutdown reason
  | close => .close

def bytes : Posted → Bytes
  | input buf => buf
  | _ => []

/-- What goes to the strand of the entry from a frame of the connection. -/
def ofFrame (readBuffer : Bytes) : Option Frame → List Posted
  | some (.shutdownHandler reason) => [connectionShutdown reason]
  | some .inputHandler => [input readBuffer]
  | _ => []

end Posted

/-! ## Steps -/

inductive NodeAction (τ ο : Type)
  /-- The thread calls `send`, which goes on if it finds the entry active. -/
  | calls (t : τ) (s : Send ο)
  /-- The thread calls the connection. -/
  | schedules (t : τ)
  /-- The running work item of the entry makes its next call on the connection. -/
  | places
  /-- The strand of the connection runs the next call. -/
  | takesCall
  | connection (i : Connection.Input)
  /-- A read is done. -/
  | reads (bs : Bytes)
  /-- `close` is called. -/
  | closes
  /-- The strand of the entry runs the next work item. -/
  | runs (now : Int)
  | checksHeartbeat (now : Int)

namespace Node

/-- A node whose connection has just been made. -/
def init (env : NodeEnv ι ο) (sh : ShutdownHandler) (now : Int) : Node τ ι ο where
  entry := Entry.init env.entry sh now

/-- The iterations of the input loop that the bytes of a chunk and those before it allow. -/
def fuel (n : Node τ ι ο) : Item → Nat
  | .input _ buf => (n.entry.pkgInput.contents ++ buf).length + 1
  | _ => 0

/-- The entry once a work item has run, with the calls that it is to make. -/
def ran (n : Node τ ι ο) (e : Entry ι) : Node τ ι ο :=
  { n with
    entry := e
    outbox := (e.events.drop n.entry.events.length).filterMap Work.ofEvent }

/-- The strand of the entry runs a work item. -/
def runItem (env : NodeEnv ι ο) (n : Node τ ι ο) (i : Item) : Option (Node τ ι ο) :=
  (Entry.after env.entry (n.fuel i) n.entry i).map n.ran

/-- The next work item leaves the strand of the entry. -/
def tookItem (n : Node τ ι ο) (p : Posted) (posted : List Posted) : Node τ ι ο :=
  { n with posted, handled := n.handled ++ p.bytes }

section Step

variable [DecidableEq τ]

/-- A thread has called `send`. -/
def calling (n : Node τ ι ο) (t : τ) (s : Send ο) : Node τ ι ο :=
  { n with called := Function.update n.called t (n.called t ++ [s]) }

/-- `send` in a thread that runs no other send. -/
def call (env : NodeEnv ι ο) (n : Node τ ι ο) (t : τ) (s : Send ο) : Option (Node τ ι ο) :=
  if n.checked t = none ∧ s.isMessage = true then
    match s.calls env.serialize with
    -- the image of the package cannot be made
    | [] => some (n.calling t s)
    | [call] =>
      if n.entry.connectionIsActive then
        some { n.calling t s with checked := Function.update n.checked t (some (s, call)) }
      else some (n.calling t s)
    | _ => none
  else none

/-- The thread has called the connection. -/
def scheduling (n : Node τ ι ο) (t : τ) (s : Send ο) (call : SendCall) : Node τ ι ο :=
  { n with
    checked := Function.update n.checked t none
    strand := n.strand ++ [.send t s call] }

/-- The strand of the connection has taken a call. -/
def tookCall (n : Node τ ι ο) (w : Work τ ο) (strand : List (Work τ ο)) (c : Connection) : Node τ ι ο :=
  { n with
    strand
    connection := c
    sent := if w.isSend ∧ n.connection.scheduleForWriteIsEnabled then n.sent ++ [w] else n.sent }

def step (env : NodeEnv ι ο) (n : Node τ ι ο) : NodeAction τ ο → Option (Node τ ι ο)
  | .calls t s => n.call env t s
  | .schedules t =>
    match n.checked t with
    | none => none
    | some (s, call) => some (n.scheduling t s call)
  | .places =>
    match n.outbox with
    | [] => none
    | w :: outbox => some { n with outbox, strand := n.strand ++ [w] }
  | .takesCall =>
    match n.strand with
    | [] => none
    | w :: strand => do
      let c ← Connection.step env.connection n.connection (.item (.call w.call))
      let c ← Connection.step env.connection c .none
      return n.tookCall w strand c
  | .connection i =>
    if i.isInner then do
      let c ← Connection.step env.connection n.connection i
      return { n with
        connection := c
        posted := n.posted ++ Posted.ofFrame n.readBuffer n.connection.stack.head? }
    else none
  | .reads bs => do
    let c ← Connection.step env.connection n.connection (.item (.readDone none))
    return { n with connection := c, readBuffer := bs, read := n.read ++ bs }
  | .closes => some { n with posted := n.posted ++ [.close] }
  | .runs now =>
    match n.posted with
    | [] => none
    | p :: posted => if n.outbox.isEmpty then (n.tookItem p posted).runItem env (p.item now) else none
  | .checksHeartbeat now => if n.outbox.isEmpty then n.runItem env (.checkHeartbeat now) else none

/-! ## The ways through a step -/

/-- One case for each branch, with the state that it leaves. -/
inductive Moves (env : NodeEnv ι ο) (n : Node τ ι ο) : NodeAction τ ο → Node τ ι ο → Prop
  | dropped (t : τ) (s : Send ο) (gone : s.calls env.serialize = [] ∨ n.entry.connectionIsActive = false) :
    Moves env n (.calls t s) (n.calling t s)
  | calls (t : τ) (s : Send ο) (call : SendCall) (idle : n.checked t = none) (message : s.isMessage = true)
    (one : s.calls env.serialize = [call]) :
    Moves env n (.calls t s) { n.calling t s with checked := Function.update n.checked t (some (s, call)) }
  | schedules (t : τ) (s : Send ο) (call : SendCall) (found : n.checked t = some (s, call)) :
    Moves env n (.schedules t) (n.scheduling t s call)
  | places (w : Work τ ο) (outbox : List (Work τ ο)) (next : n.outbox = w :: outbox) :
    Moves env n .places { n with outbox, strand := n.strand ++ [w] }
  | takesCall (w : Work τ ο) (strand : List (Work τ ο)) (c₁ c : Connection) (next : n.strand = w :: strand)
    (begins : Connection.step env.connection n.connection (.item (.call w.call)) = some c₁)
    (goesOn : Connection.step env.connection c₁ .none = some c) : Moves env n .takesCall (n.tookCall w strand c)
  | connection (i : Connection.Input) (c : Connection) (inner : i.isInner = true)
    (goesOn : Connection.step env.connection n.connection i = some c) :
    Moves env n (.connection i) { n with
      connection := c
      posted := n.posted ++ Posted.ofFrame n.readBuffer n.connection.stack.head? }
  | reads (bs : Bytes) (c : Connection)
    (done : Connection.step env.connection n.connection (.item (.readDone none)) = some c) :
    Moves env n (.reads bs) { n with connection := c, readBuffer := bs, read := n.read ++ bs }
  | closes : Moves env n .closes { n with posted := n.posted ++ [.close] }
  | runs (now : Int) (p : Posted) (posted : List Posted) (e : Entry ι) (next : n.posted = p :: posted)
    (idle : n.outbox = []) (after : Entry.after env.entry (n.fuel (p.item now)) n.entry (p.item now) = some e) :
    Moves env n (.runs now) ((n.tookItem p posted).ran e)
  | checksHeartbeat (now : Int) (e : Entry ι) (idle : n.outbox = [])
    (after : Entry.after env.entry 0 n.entry (.checkHeartbeat now) = some e) :
    Moves env n (.checksHeartbeat now) (n.ran e)

theorem moves_of_step {env : NodeEnv ι ο} {n n' : Node τ ι ο} {a : NodeAction τ ο} (h : step env n a = some n') :
    Moves env n a n' := by
  cases a with
  | calls t s =>
    simp only [step, call] at h
    split at h
    next hfree =>
      split at h
      next hcalls => exact Option.some.inj h ▸ .dropped t s (.inl hcalls)
      next call hcalls =>
        split at h
        next => exact Option.some.inj h ▸ .calls t s call hfree.1 hfree.2 hcalls
        next hactive => exact Option.some.inj h ▸ .dropped t s (.inr (Bool.not_eq_true _ ▸ hactive))
      next => cases h
    next => cases h
  | schedules t =>
    simp only [step] at h
    split at h
    next => cases h
    next s call hfound => exact Option.some.inj h ▸ .schedules t s call hfound
  | places =>
    simp only [step] at h
    split at h
    next => cases h
    next w outbox hnext => exact Option.some.inj h ▸ .places w outbox hnext
  | takesCall =>
    simp only [step] at h
    split at h
    next => cases h
    next w strand hnext =>
      obtain ⟨c₁, hbegins, h⟩ := Option.bind_eq_some_iff.1 h
      obtain ⟨c, hgoesOn, h⟩ := Option.bind_eq_some_iff.1 h
      exact Option.some.inj h ▸ .takesCall w strand c₁ c hnext hbegins hgoesOn
  | connection i =>
    simp only [step] at h
    split at h
    next hinner =>
      obtain ⟨c, hgoesOn, h⟩ := Option.bind_eq_some_iff.1 h
      exact Option.some.inj h ▸ .connection i c hinner hgoesOn
    next => cases h
  | reads bs =>
    obtain ⟨c, hdone, h⟩ := Option.bind_eq_some_iff.1 h
    exact Option.some.inj h ▸ .reads bs c hdone
  | closes => exact Option.some.inj h ▸ .closes
  | runs now =>
    simp only [step] at h
    split at h
    next => cases h
    next p posted hnext =>
      split at h
      next hidle =>
        obtain ⟨e, hafter, rfl⟩ := Option.map_eq_some_iff.1 h
        cases p <;> exact .runs now _ posted e hnext (List.isEmpty_iff.1 hidle) hafter
      next => cases h
  | checksHeartbeat now =>
    simp only [step] at h
    split at h
    next hidle =>
      obtain ⟨e, hafter, rfl⟩ := Option.map_eq_some_iff.1 h
      exact .checksHeartbeat now e (List.isEmpty_iff.1 hidle) hafter
    next => cases h

end Step

end Node

end Opio.ProtoEntry
