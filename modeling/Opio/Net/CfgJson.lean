/-
The configuration of TCP endpoints and its JSON. A record is written and read by one list of fields; only
the protocol has a reader and a writer of its own, and these two disagree about IPv6.
-/
import Mathlib.Algebra.Ring.Int.Defs
import Mathlib.Data.List.Nodup
import Opio.Lib.Checked
import Opio.Lib.Fields

namespace Opio.Net

/-! ## The JSON library -/

/-- What is thrown while JSON is read. -/
inductive JsonFault
  | fieldNotDefined (name : String)
  | wrongValue
  | runtimeError (text : String)
  deriving DecidableEq, Repr

/-- The objects of the library, and the values it reads and writes by itself. -/
structure JsonDto (J : Type) extends Members J where
  bool : Codec J JsonFault Bool
  int : Codec J JsonFault Int32
  uint16 : Codec J JsonFault UInt16
  uint32 : Codec J JsonFault UInt32
  string : Codec J JsonFault String

/-- The library reads back what it writes. -/
structure JsonDto.Lawful {J : Type} (dto : JsonDto J) : Prop where
  members : dto.toMembers.Lawful
  bool : ∀ b, dto.bool.ReadsBack b
  int : ∀ n, dto.int.ReadsBack n
  uint16 : ∀ n, dto.uint16.ReadsBack n
  uint32 : ∀ n, dto.uint32.ReadsBack n
  string : ∀ s, dto.string.ReadsBack s

/-- The values of the library, without those that nothing here is written as. -/
inductive Json
  | bool (b : Bool)
  | num (n : Int)
  | str (s : String)
  | obj (members : List (String × Json))

namespace Json

def members : Json → List (String × Json)
  | obj members => members
  | _ => []

/-- A type of numbers with its limits. -/
def number {α : Type} (lo hi : Int) (toInt : α → Int) (ofInt : Int → α) : Codec Json JsonFault α where
  write a := num (toInt a)
  read
    | num n, _ => if lo ≤ n ∧ n < hi then .ok (ofInt n) else .error .wrongValue
    | _, _ => .error .wrongValue

/-- The library on these values. -/
def dto : JsonDto Json where
  empty := obj []
  add object name member := obj (object.members ++ [(name, member)])
  find object name := object.members.lookup name
  bool :=
    { write := bool
      read := fun
        | bool b, _ => .ok b
        | _, _ => .error .wrongValue }
  int := number (-2 ^ 31) (2 ^ 31) Int32.toInt Int32.ofInt
  uint16 := number 0 (2 ^ 16) (fun n => n.toNat) fun n => UInt16.ofNat n.toNat
  uint32 := number 0 (2 ^ 32) (fun n => n.toNat) fun n => UInt32.ofNat n.toNat
  string :=
    { write := str
      read := fun
        | str s, _ => .ok s
        | _, _ => .error .wrongValue }

theorem number_readsBack {α : Type} {lo hi : Int} {toInt : α → Int} {ofInt : Int → α} {a : α} (hlo : lo ≤ toInt a)
    (hhi : toInt a < hi) (hback : ofInt (toInt a) = a) : (number lo hi toInt ofInt).ReadsBack a := by
  intro old
  simp only [number]
  rw [if_pos ⟨hlo, hhi⟩, hback]

theorem lawful_dto : dto.Lawful where
  members :=
    { find_empty := fun _ => rfl
      find_add := by
        intro object name member hnone
        change List.lookup name (object.members ++ [(name, member)]) = some member
        have hnone : List.lookup name object.members = none := hnone
        rw [List.lookup_append, hnone, Option.none_or]
        exact List.lookup_cons_self
      find_add_of_ne := by
        intro object name member name' hne
        change List.lookup name' (object.members ++ [(name, member)]) = List.lookup name' object.members
        have hother : List.lookup name' [(name, member)] = none := by
          rw [List.lookup_cons, beq_false_of_ne hne]
          rfl
        rw [List.lookup_append, hother, Option.or_none] }
  bool := fun _ _ => rfl
  int := fun n => number_readsBack n.le_toInt n.toInt_lt (Int32.ofInt_toInt n)
  uint16 := fun n => by
    have hlt := n.toNat_lt
    refine number_readsBack (by omega) (by omega) ?_
    rw [Int.toNat_natCast, UInt16.ofNat_toNat]
  uint32 := fun n => by
    have hlt := n.toNat_lt
    refine number_readsBack (by omega) (by omega) ?_
    rw [Int.toNat_natCast, UInt32.ofNat_toNat]
  string := fun _ _ => rfl

end Json

/-! ## Endpoints -/

/-- The values of `asio_ns::ip::tcp`. -/
inductive TcpProtocol
  | v4
  | v6
  deriving DecidableEq, Repr

structure SocketOptionsCfg where
  noDelay : Option Bool := none
  keepAlive : Option Bool := none
  linger : Option Int32 := none
  receiveBufferSize : Option Int32 := none
  sendBufferSize : Option Int32 := none
  deriving DecidableEq

def defaultHost : String := "localhost"

structure TcpEndpointCfg where
  protocol : TcpProtocol := .v4
  host : String := defaultHost
  port : UInt16 := 0
  socketOptions : SocketOptionsCfg := {}
  deriving DecidableEq

variable {J : Type}

/-- What `read_json_value` takes for a protocol. -/
def protocolOf (str : String) : Except JsonFault TcpProtocol :=
  if str = "v4" then
    .ok .v4
  else if str = "v6" then
    .ok .v6
  else
    .error (.runtimeError s!"unknown protocol '{str}'")

namespace JsonDto

variable (dto : JsonDto J)

/-- `write_json_value` and `read_json_value` of a protocol. Whatever is thrown is replaced; the text has no place
for the reason. -/
def protocol : Codec J JsonFault TcpProtocol where
  write v := dto.string.write (if v = .v4 then "v4" else "v5")
  read object _ :=
    match dto.string.read object "" >>= protocolOf with
    | .ok v => .ok v
    | .error _ => .error (.runtimeError "unable to read asio_ns::ip::tcp: ")

/-- `json_io` of the socket options. -/
def socketOptionsFields : List (Field J JsonFault SocketOptionsCfg) :=
  [.optionalNullopt "no_delay" dto.bool (·.noDelay) fun v cfg => { cfg with noDelay := v },
    .optionalNullopt "keep_alive" dto.bool (·.keepAlive) fun v cfg => { cfg with keepAlive := v },
    .optionalNullopt "linger" dto.int (·.linger) fun v cfg => { cfg with linger := v },
    .optionalNullopt "receive_buffer_size" dto.int (·.receiveBufferSize)
      fun v cfg => { cfg with receiveBufferSize := v },
    .optionalNullopt "send_buffer_size" dto.int (·.sendBufferSize) fun v cfg => { cfg with sendBufferSize := v }]

def socketOptions : Codec J JsonFault SocketOptionsCfg := .record dto.toMembers dto.socketOptionsFields

/-- `json_io` of an endpoint. -/
def tcpEndpointFields : List (Field J JsonFault TcpEndpointCfg) :=
  [.mandatory "port" (·.port) (fun v cfg => { cfg with port := v }) dto.uint16 (.fieldNotDefined "port"),
    .optional "host" (·.host) (fun v cfg => { cfg with host := v }) dto.string defaultHost,
    .optional "protocol" (·.protocol) (fun v cfg => { cfg with protocol := v }) dto.protocol .v4,
    .optionalNoDefault "socket_options" (·.socketOptions) (fun v cfg => { cfg with socketOptions := v })
      dto.socketOptions]

def tcpEndpoint : Codec J JsonFault TcpEndpointCfg := .record dto.toMembers dto.tcpEndpointFields

/-! ## What is read back -/

variable {dto}

/-- IPv4 is read back when it is written, which it is not, as it is the default. -/
theorem protocol_readsBack (h : dto.Lawful) : dto.protocol.ReadsBack .v4 := by
  intro old
  simp only [protocol, if_true, h.string "v4" ""]
  rfl

/-- No reader knows what IPv6 is written as. -/
theorem protocol_refuses (h : dto.Lawful) : dto.protocol.Refuses .v6 := by
  intro old
  refine ⟨.runtimeError "unable to read asio_ns::ip::tcp: ", ?_⟩
  have hread : dto.string.read (dto.string.write "v5") "" = .ok "v5" := h.string "v5" ""
  have hv5 : protocolOf "v5" = .error (.runtimeError "unknown protocol 'v5'") := by decide
  unfold protocol
  dsimp only
  rw [if_neg (by decide), hread, ok_bind, hv5]

theorem socketOptions_readsBack (h : dto.Lawful) (cfg : SocketOptionsCfg) : dto.socketOptions.ReadsBack cfg := by
  refine Codec.record_readsBack h.members (by simp [socketOptionsFields, Field.optionalNullopt]) ?_ fun _ => rfl
  simp only [socketOptionsFields, List.forall_mem_cons]
  refine ⟨?_, ?_, ?_, ?_, ?_, by rintro f ⟨⟩⟩
  · exact Field.optionalNullopt_readsBack h.bool
  · exact Field.optionalNullopt_readsBack h.bool
  · exact Field.optionalNullopt_readsBack h.int
  · exact Field.optionalNullopt_readsBack h.int
  · exact Field.optionalNullopt_readsBack h.int

theorem names_tcpEndpointFields (dto : JsonDto J) : (dto.tcpEndpointFields.map Field.name).Nodup := by
  simp [tcpEndpointFields, Field.mandatory, Field.optional, Field.optionalNoDefault]

theorem tcpEndpoint_readsBack (h : dto.Lawful) {cfg : TcpEndpointCfg} (hprotocol : cfg.protocol = .v4) :
    dto.tcpEndpoint.ReadsBack cfg := by
  refine Codec.record_readsBack h.members (names_tcpEndpointFields dto) ?_ fun _ => rfl
  simp only [tcpEndpointFields, List.forall_mem_cons]
  refine ⟨?_, ?_, ?_, ?_, by rintro f ⟨⟩⟩
  · exact Field.mandatory_readsBack (h.uint16 _)
  · exact Field.optional_readsBack fun _ => h.string _
  · exact Field.optional_readsBack fun _ => hprotocol ▸ protocol_readsBack h
  · exact Field.optionalNoDefault_readsBack (socketOptions_readsBack h _)

theorem tcpEndpoint_refuses (h : dto.Lawful) {cfg : TcpEndpointCfg} (hprotocol : cfg.protocol = .v6) :
    dto.tcpEndpoint.Refuses cfg := by
  refine Codec.record_refuses h.members (names_tcpEndpointFields dto)
    (List.mem_cons_of_mem _ (List.mem_cons_of_mem _ List.mem_cons_self)) ?_
  refine Field.optional_refuses ?_ ?_
  · rw [hprotocol]
    decide
  · exact hprotocol ▸ protocol_refuses h

end JsonDto

end Opio.Net
