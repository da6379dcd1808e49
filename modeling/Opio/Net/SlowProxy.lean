/-
The slow proxy, an example program: a session relays what it reads from a client to a server and the other way
round, and after a read waits for as long as the bytes take at the rate that it was given.

What an input handler calls on its own connection is done at once. Its send on the other one is dispatched, and in
a program of one thread runs at once too; here it is put in a queue, which covers that: the send may be taken from
it before anything else happens. Who shuts a connection down is left open, and so is when: a shutdown handler shuts
both down, maybe while an input handler runs. Times are in microseconds.
-/
import Opio.Net.NoNestedSends

namespace Opio.Net

open Connection (Input)

inductive Side
  | client
  | server
  deriving DecidableEq, Repr

def Side.other : Side → Side
  | client => server
  | server => client

/-- `app_cfg_t`, with what the connections are built with. -/
structure ProxyEnv where
  connection : ConnectionEnv
  kbPerSec : Nat
  one_le_kbPerSec : 1 ≤ kbPerSec
  kbPerSec_le : kbPerSec ≤ 1024 * 1024
  /-- `m_limit_after`. -/
  limitAfter : Int

namespace ProxyEnv

/-- `read_buf_len`. -/
def readBufLen (env : ProxyEnv) : Nat := 1024 * env.kbPerSec % 2 ^ 32 / 16

/-- `usec_to_wait`, with 32 bits. -/
def usecToWait (env : ProxyEnv) (sizeJustRead : Nat) : Nat :=
  sizeJustRead * 1000 * 1000 % 2 ^ 32 / (env.kbPerSec * 1024 % 2 ^ 32)

end ProxyEnv

/-- `connection_ctx_t`. -/
structure ConnectionCtx where
  con : Connection
  /-- When the wait of the timer ends. -/
  nextRead : Option Int := none
  /-- The sends on the connection that the handler of the other one has made and that have not run. -/
  sends : List Bytes := []
  /-- `m_read_buffer`, with what the last read left in it. -/
  readBuffer : Bytes := []
  /-- The bytes that were read, and of these the ones that the handler has sent. -/
  read : Bytes := []
  relayed : Bytes := []
  /-- When the handler was called, and for how many bytes. -/
  handled : List (Int × Nat) := []

structure Session where
  ctx : Side → ConnectionCtx
  /-- It is in the registry, or somebody else has it. -/
  alive : Bool := true
  /-- `std::chrono::steady_clock`. -/
  clock : Int

inductive SessionAction
  /-- The input handler runs, while the connection is shut down so many times. It reads the clock up to two
  times. -/
  | handles (x : Side) (now later : Int) (closes : Nat)
  /-- The next send that the handler of the other side made. -/
  | sends (x : Side)
  | connection (x : Side) (i : Input)
  | reads (x : Side) (bs : Bytes)
  /-- The timer is through. -/
  | elapses (x : Side) (now : Int)
  | closes (x : Side)
  /-- Nobody has the session any more. -/
  | ends
  deriving DecidableEq

/-- What comes from outside, and is no call, no input and no end, and has callbacks shut down at most. -/
def Connection.Input.isRelayed : Input → Bool
  | .item (.call _) => false
  | .item (.readDone .none) => false
  | .item (.destroy _) => false
  | .calls cs => cs.all (· == .shutdown)
  | _ => true

namespace Session

variable (env : ProxyEnv)

/-- Both connections read. -/
def init (now : Int) : Session where
  ctx _ := { con := Connection.startReading {} }
  clock := now

def set (s : Session) (x : Side) (e : ConnectionCtx) : Session := { s with ctx := Function.update s.ctx x e }

/-- `schedule_next_read_from`. -/
def scheduleNextReadFrom (now later : Int) (sizeJustRead closes : Nat) (e : ConnectionCtx) : Option ConnectionCtx :=
  let shutdowns := List.replicate closes Call.shutdown
  if now ≤ env.limitAfter then do
    let c ← Connection.step env.connection e.con (.calls shutdowns)
    return { e with con := c }
  else do
    let c ← Connection.step env.connection e.con (.calls (.stopReading :: shutdowns))
    let c ← Connection.step env.connection c .none
    let c ← Connection.step env.connection c .none
    return { e with con := c, nextRead := some (later + env.usecToWait sizeJustRead) }

/-- The buffer is sent on the other connection. -/
def relay (s : Session) (x : Side) (now later : Int) (e : ConnectionCtx) : Session :=
  let buf := (s.ctx x).readBuffer
  let e := { e with
    relayed := e.relayed ++ buf
    handled := e.handled ++ [(now, buf.length)] }
  let o := s.ctx x.other
  { (s.set x e).set x.other { o with sends := o.sends ++ [buf] } with clock := later }

/-- The input handler. -/
def handle (s : Session) (x : Side) (now later : Int) (closes : Nat) : Option Session :=
  if (s.ctx x).con.stack.head? = some .inputHandler ∧ s.clock ≤ now ∧ now ≤ later then
    if s.alive then
      (scheduleNextReadFrom env now later (s.ctx x).readBuffer.length closes (s.ctx x)).map (s.relay x now later)
    else do
      let c ← Connection.step env.connection (s.ctx x).con (.calls [])
      return { s.set x { s.ctx x with con := c } with clock := later }
  else none

def step (s : Session) : SessionAction → Option Session
  | .handles x now later closes => s.handle env x now later closes
  | .sends x =>
    match (s.ctx x).sends with
    | [] => none
    | buf :: sends => do
      let c ← Connection.step env.connection (s.ctx x).con (.item (.call (.send { bufs := [buf] })))
      let c ← Connection.step env.connection c .none
      return s.set x { s.ctx x with con := c, sends }
  | .connection x i =>
    if i.isRelayed ∧ (s.ctx x).con.stack.head? ≠ some .inputHandler then do
      let c ← Connection.step env.connection (s.ctx x).con i
      return s.set x { s.ctx x with con := c }
    else none
  | .reads x bs =>
    if bs.length ≤ env.readBufLen then do
      let c ← Connection.step env.connection (s.ctx x).con (.item (.readDone none))
      return s.set x { s.ctx x with con := c, readBuffer := bs, read := (s.ctx x).read ++ bs }
    else none
  | .elapses x now =>
    match (s.ctx x).nextRead with
    | none => none
    | some expiry =>
      if expiry ≤ now ∧ s.clock ≤ now then
        if s.alive then do
          let c ← Connection.step env.connection (s.ctx x).con (.item (.call .startReading))
          let c ← Connection.step env.connection c .none
          return { s.set x { s.ctx x with con := c, nextRead := none } with clock := now }
        else some { s.set x { s.ctx x with nextRead := none } with clock := now }
      else none
  | .closes x => do
    let c ← Connection.step env.connection (s.ctx x).con (.item (.call .shutdown))
    return s.set x { s.ctx x with con := c }
  | .ends => some { s with alive := false }

/-! ## The ways through a step -/

/-- What the input handler does with its own connection: nothing before the limit applies, and after that it stops
reading and waits. -/
inductive Schedules (now later : Int) (sizeJustRead : Nat) (e : ConnectionCtx) : ConnectionCtx → Prop
  | unlimited (cs : List Call) (c : Connection) (early : now ≤ env.limitAfter)
    (closing : ∀ call ∈ cs, call = .shutdown)
    (goesOn : Connection.step env.connection e.con (.calls cs) = some c) :
    Schedules now later sizeJustRead e { e with con := c }
  | waits (cs : List Call) (c₁ c₂ c : Connection) (late : env.limitAfter < now)
    (closing : ∀ call ∈ cs, call = .shutdown)
    (calls : Connection.step env.connection e.con (.calls (.stopReading :: cs)) = some c₁)
    (begins : Connection.step env.connection c₁ .none = some c₂)
    (stops : Connection.step env.connection c₂ .none = some c) :
    Schedules now later sizeJustRead e { e with con := c, nextRead := some (later + env.usecToWait sizeJustRead) }

theorem schedules_of_some {env : ProxyEnv} {now later : Int} {sizeJustRead closes : Nat} {e e' : ConnectionCtx}
    (h : scheduleNextReadFrom env now later sizeJustRead closes e = some e') :
    Schedules env now later sizeJustRead e e' := by
  have hclosing : ∀ call ∈ List.replicate closes Call.shutdown, call = .shutdown := fun call hcall =>
    List.eq_of_mem_replicate hcall
  unfold scheduleNextReadFrom at h
  dsimp only at h
  split at h
  next hearly =>
    obtain ⟨c, hc, h⟩ := Option.bind_eq_some_iff.1 h
    exact Option.some.inj h ▸ .unlimited _ c hearly hclosing hc
  next hlate =>
    obtain ⟨c₁, hc₁, h⟩ := Option.bind_eq_some_iff.1 h
    obtain ⟨c₂, hc₂, h⟩ := Option.bind_eq_some_iff.1 h
    obtain ⟨c, hc, h⟩ := Option.bind_eq_some_iff.1 h
    exact Option.some.inj h ▸ .waits _ c₁ c₂ c (Int.not_le.1 hlate) hclosing hc₁ hc₂ hc

/-- One case for each branch, with the state that it leaves. -/
inductive Moves (s : Session) : SessionAction → Session → Prop
  | handles (x : Side) (now later : Int) (closes : Nat) (e : ConnectionCtx) (alive : s.alive = true)
    (head : (s.ctx x).con.stack.head? = some .inputHandler) (clock : s.clock ≤ now) (goes : now ≤ later)
    (schedules : Schedules env now later (s.ctx x).readBuffer.length (s.ctx x) e) :
    Moves s (.handles x now later closes) (s.relay x now later e)
  | ignores (x : Side) (now later : Int) (closes : Nat) (c : Connection) (gone : s.alive = false)
    (head : (s.ctx x).con.stack.head? = some .inputHandler) (clock : s.clock ≤ now) (goes : now ≤ later)
    (goesOn : Connection.step env.connection (s.ctx x).con (.calls []) = some c) :
    Moves s (.handles x now later closes) { s.set x { s.ctx x with con := c } with clock := later }
  | sends (x : Side) (buf : Bytes) (sends : List Bytes) (c₁ c : Connection) (next : (s.ctx x).sends = buf :: sends)
    (begins : Connection.step env.connection (s.ctx x).con (.item (.call (.send { bufs := [buf] }))) = some c₁)
    (goesOn : Connection.step env.connection c₁ .none = some c) :
    Moves s (.sends x) (s.set x { s.ctx x with con := c, sends })
  | connection (x : Side) (i : Input) (c : Connection) (inner : i.isRelayed = true)
    (head : (s.ctx x).con.stack.head? ≠ some .inputHandler)
    (goesOn : Connection.step env.connection (s.ctx x).con i = some c) :
    Moves s (.connection x i) (s.set x { s.ctx x with con := c })
  | reads (x : Side) (bs : Bytes) (c : Connection) (fits : bs.length ≤ env.readBufLen)
    (done : Connection.step env.connection (s.ctx x).con (.item (.readDone none)) = some c) :
    Moves s (.reads x bs) (s.set x { s.ctx x with con := c, readBuffer := bs, read := (s.ctx x).read ++ bs })
  | elapses (x : Side) (now expiry : Int) (c₁ c : Connection) (waiting : (s.ctx x).nextRead = some expiry)
    (expired : expiry ≤ now) (clock : s.clock ≤ now)
    (begins : Connection.step env.connection (s.ctx x).con (.item (.call .startReading)) = some c₁)
    (goesOn : Connection.step env.connection c₁ .none = some c) :
    Moves s (.elapses x now) { s.set x { s.ctx x with con := c, nextRead := none } with clock := now }
  | elapsesLate (x : Side) (now expiry : Int) (waiting : (s.ctx x).nextRead = some expiry) (expired : expiry ≤ now)
    (clock : s.clock ≤ now) :
    Moves s (.elapses x now) { s.set x { s.ctx x with nextRead := none } with clock := now }
  | closes (x : Side) (c : Connection)
    (begins : Connection.step env.connection (s.ctx x).con (.item (.call .shutdown)) = some c) :
    Moves s (.closes x) (s.set x { s.ctx x with con := c })
  | ends : Moves s .ends { s with alive := false }

theorem moves_of_step {env : ProxyEnv} {s s' : Session} {a : SessionAction} (h : s.step env a = some s') :
    Moves env s a s' := by
  cases a with
  | handles x now later closes =>
    simp only [step, handle] at h
    split at h
    next hnow =>
      split at h
      next halive =>
        obtain ⟨e, he, rfl⟩ := Option.map_eq_some_iff.1 h
        exact .handles x now later closes e halive hnow.1 hnow.2.1 hnow.2.2 (schedules_of_some he)
      next hgone =>
        obtain ⟨c, hc, h⟩ := Option.bind_eq_some_iff.1 h
        exact Option.some.inj h ▸
          .ignores x now later closes c (Bool.not_eq_true _ ▸ hgone) hnow.1 hnow.2.1 hnow.2.2 hc
    next => cases h
  | sends x =>
    simp only [step] at h
    split at h
    next => cases h
    next buf sends hnext =>
      obtain ⟨c₁, hc₁, h⟩ := Option.bind_eq_some_iff.1 h
      obtain ⟨c, hc, h⟩ := Option.bind_eq_some_iff.1 h
      exact Option.some.inj h ▸ .sends x buf sends c₁ c hnext hc₁ hc
  | connection x i =>
    simp only [step] at h
    split at h
    next hi =>
      obtain ⟨c, hc, h⟩ := Option.bind_eq_some_iff.1 h
      exact Option.some.inj h ▸ .connection x i c hi.1 hi.2 hc
    next => cases h
  | reads x bs =>
    simp only [step] at h
    split at h
    next hfits =>
      obtain ⟨c, hc, h⟩ := Option.bind_eq_some_iff.1 h
      exact Option.some.inj h ▸ .reads x bs c hfits hc
    next => cases h
  | elapses x now =>
    simp only [step] at h
    split at h
    next => cases h
    next expiry hwaiting =>
      split at h
      next hnow =>
        split at h
        next =>
          obtain ⟨c₁, hc₁, h⟩ := Option.bind_eq_some_iff.1 h
          obtain ⟨c, hc, h⟩ := Option.bind_eq_some_iff.1 h
          exact Option.some.inj h ▸ .elapses x now expiry c₁ c hwaiting hnow.1 hnow.2 hc₁ hc
        next => exact Option.some.inj h ▸ .elapsesLate x now expiry hwaiting hnow.1 hnow.2
      next => cases h
  | closes x =>
    obtain ⟨c, hc, h⟩ := Option.bind_eq_some_iff.1 h
    exact Option.some.inj h ▸ .closes x c hc
  | ends => exact Option.some.inj h ▸ .ends

end Session

end Opio.Net
