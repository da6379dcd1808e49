/-
The configuration of an entry and its JSON: the endpoint, and settings with defaults.
-/
import Opio.Net.CfgJson
import Opio.ProtoEntry.HeartbeatReply

namespace Opio.ProtoEntry

open Opio.Net

/-! ## The configuration -/

def defaultReconnectTimeoutMsec : UInt32 := 10000
def defaultInitiateHeartbeatTimeoutMsec : UInt32 := 10000
def defaultAwaitHeartbeatReplyTimeoutMsec : UInt32 := 20000
def defaultMaxValidPackageSize : UInt32 := 100 * 1024 * 1024
def defaultInputBufferSize : UInt32 := 256 * 1024
def defaultWriteTimeoutPer1mbMsec : UInt32 := 1000

/-- `entry_full_cfg_t` with all that is read and written of it. -/
structure EntryJsonCfg extends EntryFullCfg where
  endpoint : TcpEndpointCfg := {}
  reconnectTimeoutMsec : UInt32 := defaultReconnectTimeoutMsec
  initiateHeartbeatTimeoutMsec := defaultInitiateHeartbeatTimeoutMsec
  awaitHeartbeatReplyTimeoutMsec := defaultAwaitHeartbeatReplyTimeoutMsec
  maxValidPackageSize := defaultMaxValidPackageSize
  inputBufferSize : UInt32 := defaultInputBufferSize
  writeTimeoutPer1mbMsec : UInt32 := defaultWriteTimeoutPer1mbMsec

variable {J : Type}

/-- `json_io` of the configuration. -/
def entryFields (dto : JsonDto J) : List (Field J JsonFault EntryJsonCfg) :=
  [.mandatory "endpoint" (·.endpoint) (fun v cfg => { cfg with endpoint := v }) dto.tcpEndpoint
      (.fieldNotDefined "endpoint"),
    .optional "reconnect_timeout_msec" (·.reconnectTimeoutMsec) (fun v cfg => { cfg with reconnectTimeoutMsec := v })
      dto.uint32 defaultReconnectTimeoutMsec,
    .optional "initiate_heartbeat_timeout_msec" (·.initiateHeartbeatTimeoutMsec)
      (fun v cfg => { cfg with initiateHeartbeatTimeoutMsec := v }) dto.uint32 defaultInitiateHeartbeatTimeoutMsec,
    .optional "await_heartbeat_reply_timeout_msec" (·.awaitHeartbeatReplyTimeoutMsec)
      (fun v cfg => { cfg with awaitHeartbeatReplyTimeoutMsec := v }) dto.uint32 defaultAwaitHeartbeatReplyTimeoutMsec,
    .optional "max_valid_package_size" (·.maxValidPackageSize) (fun v cfg => { cfg with maxValidPackageSize := v })
      dto.uint32 defaultMaxValidPackageSize,
    .optional "input_buffer_size" (·.inputBufferSize) (fun v cfg => { cfg with inputBufferSize := v }) dto.uint32
      defaultInputBufferSize,
    .optional "write_timeout_per_1mb_msec" (·.writeTimeoutPer1mbMsec)
      (fun v cfg => { cfg with writeTimeoutPer1mbMsec := v }) dto.uint32 defaultWriteTimeoutPer1mbMsec]

namespace EntryJsonCfg

/-- `to_json`. -/
def toJson (dto : JsonDto J) (cfg : EntryJsonCfg) : J := (Codec.record dto.toMembers (entryFields dto)).write cfg

/-- `from_json`, into a configuration that has the defaults. -/
def fromJson (dto : JsonDto J) (object : J) : Except JsonFault EntryJsonCfg :=
  (Codec.record dto.toMembers (entryFields dto)).read object {}

/-! ## The round trip -/

theorem names_entryFields (dto : JsonDto J) : ((entryFields dto).map Field.name).Nodup := by
  simp [entryFields, Field.mandatory, Field.optional]

theorem fromJson_toJson {dto : JsonDto J} (h : dto.Lawful) {cfg : EntryJsonCfg}
    (hprotocol : cfg.endpoint.protocol = .v4) :
    fromJson dto (cfg.toJson dto) = .ok cfg := by
  refine Codec.record_readsBack h.members (names_entryFields dto) ?_ (fun _ => rfl) {}
  simp only [entryFields, List.forall_mem_cons]
  have hsetting : ∀ n, dto.uint32.ReadsBack n := h.uint32
  refine ⟨?_, ?_, ?_, ?_, ?_, ?_, ?_, by rintro f ⟨⟩⟩
  · exact Field.mandatory_readsBack (JsonDto.tcpEndpoint_readsBack h hprotocol)
  all_goals exact Field.optional_readsBack fun _ => hsetting _

theorem fromJson_refuses {dto : JsonDto J} (h : dto.Lawful) (cfg : EntryJsonCfg)
    (hprotocol : cfg.endpoint.protocol = .v6) :
    ∃ e, fromJson dto (cfg.toJson dto) = .error e :=
  Codec.record_refuses h.members (names_entryFields dto) List.mem_cons_self
    (Field.mandatory_refuses (JsonDto.tcpEndpoint_refuses h hprotocol)) {}

/-- A configuration survives JSON exactly when its protocol is IPv4. -/
theorem survives_json_iff (dto : JsonDto J) (h : dto.Lawful) (cfg : EntryJsonCfg) :
    fromJson dto (cfg.toJson dto) = .ok cfg ↔ cfg.endpoint.protocol = .v4 := by
  constructor
  · intro hread
    cases hprotocol : cfg.endpoint.protocol with
    | v4 => rfl
    | v6 =>
      obtain ⟨e, he⟩ := fromJson_refuses h cfg hprotocol
      rw [hread] at he
      cases he
  · exact fromJson_toJson h

/-- An endpoint with a host of its own and one socket option, and a setting that is not the default. -/
theorem survives_json_iff_jazz2 : ∃ cfg : EntryJsonCfg, cfg.endpoint.host = "jazz2" ∧
    cfg.endpoint.socketOptions.linger = some 5 ∧ cfg.inputBufferSize = 8000000 ∧
    fromJson Json.dto (cfg.toJson Json.dto) = .ok cfg := by
  let cfg : EntryJsonCfg :=
    { endpoint := { host := "jazz2", port := 1234, socketOptions := { linger := some 5 } }
      inputBufferSize := 8000000 }
  exact ⟨cfg, rfl, rfl, rfl, (survives_json_iff Json.dto Json.lawful_dto cfg).2 rfl⟩

/-- An endpoint with IPv6, and defaults otherwise. -/
def ip6Cfg : EntryJsonCfg where
  endpoint := { protocol := .v6, host := "::1", port := 33322 }

/-- What is written of an endpoint with IPv6 is not read. -/
theorem v6_not_read :
    ip6Cfg.toJson Json.dto = .obj [("endpoint", .obj [("port", .num 33322), ("host", .str "::1"),
      ("protocol", .str "v5"), ("socket_options", .obj [])])] ∧
    fromJson Json.dto (ip6Cfg.toJson Json.dto) = .error (.runtimeError "unable to read asio_ns::ip::tcp: ") ∧
    fromJson Json.dto (ip6Cfg.toJson Json.dto) ≠ .ok ip6Cfg := by
  refine ⟨rfl, rfl, ?_⟩
  intro h
  obtain ⟨e, he⟩ := fromJson_refuses Json.lawful_dto ip6Cfg rfl
  rw [h] at he
  cases he

end EntryJsonCfg

end Opio.ProtoEntry
