/-
The generator of protocol entries: which messages an entry sends and receives is read off the options
of their descriptors, for the server, and swapped for the client. A message is named on the wire by
the number of its enumerator, in 16 bits. The generator sees to it that no two messages have the same
enumerator, but not that their numbers differ or fit.
-/
import Mathlib.Algebra.Ring.Int.Defs
import Opio.Lib.Checked
import Opio.Lib.Dispatch

namespace Opio.ProtoEntry

/-! ## Descriptions -/

/-- With respect to the server. -/
inductive ProtoEntryIODirection
  | incoming
  | outgoing
  | incomingOutgoing
  deriving DecidableEq, Repr

structure EnumDescriptor where
  values : List (String × Int)
  nodup : (values.map Prod.fst).Nodup
  int32 : ∀ v ∈ values, -2 ^ 31 ≤ v.2 ∧ v.2 < 2 ^ 31

structure MessageDescriptor where
  fullName : String
  ioDirection : Option ProtoEntryIODirection
  enumId : Option String
  deriving DecidableEq, Repr

/-- A module generated by protobuf: its messages that have options, and the enumeration `MessageType`. -/
structure ProtocolDescription where
  messages : List MessageDescriptor
  messageType : Option EnumDescriptor

inductive GeneratorError
  | enumIdUsedOrMissing (enumId : String)
  | noMessageType
  deriving DecidableEq, Repr

def GeneratorError.text : GeneratorError → String
  | .enumIdUsedOrMissing enumId =>
    s!"{enumId} is already used by other message or not exist in protocol enumeration"
  | .noMessageType =>
    "PROTO_ENTRY Protocol must define enum called 'MessageType' " ++
      "(which is missing in a proto file of a given protocol)"

/-! ## The generator -/

structure ProtoEntryMessage where
  cppType : String
  enumId : String
  ioDirection : ProtoEntryIODirection
  deriving DecidableEq, Repr

/-- `get_enum_id`: the enumerator that the message asks for, and those that are left. -/
def getEnumId (remaining : List String) (m : MessageDescriptor) :
    Except GeneratorError (Option String × List String) :=
  match m.enumId with
  | none => .ok (none, remaining)
  | some v =>
    if v ∈ remaining then .ok (some v, remaining.erase v) else .error (.enumIdUsedOrMissing v)

/-- The loop of `scan_spec_from_message_descriptors`. -/
def scanMessages : List String → List MessageDescriptor → Except GeneratorError (List ProtoEntryMessage)
  | _, [] => .ok []
  | remaining, m :: ms => do
    let (enumId, remaining) ← getEnumId remaining m
    let rest ← scanMessages remaining ms
    match m.ioDirection, enumId with
    | some ioDirection, some enumId => .ok (⟨m.fullName, enumId, ioDirection⟩ :: rest)
    | _, _ => .ok rest

/-- What the template is filled in with. -/
structure ProtoSpec where
  messageType : EnumDescriptor
  incoming : List ProtoEntryMessage
  outgoing : List ProtoEntryMessage

def scanSpecFromMessageDescriptors (messages : List MessageDescriptor) (messageType : EnumDescriptor) :
    Except GeneratorError ProtoSpec := do
  let msgs ← scanMessages (messageType.values.map Prod.fst) messages
  .ok
    { messageType
      incoming := msgs.filter fun m => m.ioDirection ∈ [.incoming, .incomingOutgoing]
      outgoing := msgs.filter fun m => m.ioDirection ∈ [.outgoing, .incomingOutgoing] }

def scanSpecProtofile (d : ProtocolDescription) : Except GeneratorError ProtoSpec :=
  match d.messageType with
  | none => .error .noMessageType
  | some messageType => scanSpecFromMessageDescriptors d.messages messageType

inductive Role
  | client
  | server
  deriving DecidableEq, Repr

def Role.opposite : Role → Role
  | .client => .server
  | .server => .client

/-- What `main` makes of the specification for a role. -/
def ProtoSpec.forRole (role : Role) (spec : ProtoSpec) : ProtoSpec :=
  if role = .client then { spec with incoming := spec.outgoing, outgoing := spec.incoming } else spec

/-! ## The generated entry -/

namespace ProtoSpec

/-- The number of the message's enumerator. -/
def number (spec : ProtoSpec) (m : ProtoEntryMessage) : Option Int := spec.messageType.values.lookup m.enumId

/-- What `send` writes to the header. -/
def contentSpecificValue (spec : ProtoSpec) (m : ProtoEntryMessage) : Option UInt16 :=
  (spec.number m).map UInt16.ofInt

/-- The case that `handle_incoming_message_custom` takes for this value in the header, if not the
default. -/
def caseOf (spec : ProtoSpec) (contentSpecificValue : UInt16) : Option ProtoEntryMessage :=
  dispatch spec.number spec.incoming (some (contentSpecificValue.toNat : Int))

end ProtoSpec

/-! ## What is scanned -/

/-- The message of the protocol that a descriptor stands for. -/
def MessageDescriptor.entry? (m : MessageDescriptor) : Option ProtoEntryMessage :=
  match m.ioDirection, m.enumId with
  | some ioDirection, some enumId => some ⟨m.fullName, enumId, ioDirection⟩
  | _, _ => none

theorem getEnumId_ok {remaining remaining' : List String} {m : MessageDescriptor} {enumId : Option String}
    (h : getEnumId remaining m = .ok (enumId, remaining')) :
    enumId = m.enumId ∧ (∀ v, m.enumId = some v → v ∈ remaining ∧ remaining' = remaining.erase v) ∧
      (m.enumId = none → remaining' = remaining) := by
  unfold getEnumId at h
  cases hid : m.enumId with
  | none =>
    rw [hid] at h
    cases h
    exact ⟨rfl, nofun, fun _ => rfl⟩
  | some v =>
    rw [hid] at h
    dsimp only at h
    split at h
    · rename_i hmem
      cases h
      refine ⟨rfl, ?_, nofun⟩
      rintro _ ⟨⟩
      exact ⟨hmem, rfl⟩
    · cases h

/-- The messages of the protocol are those with both options, and no two have the same enumerator. -/
theorem scanMessages_ok : ∀ {ms : List MessageDescriptor} {remaining : List String} {msgs : List ProtoEntryMessage},
    remaining.Nodup → scanMessages remaining ms = .ok msgs →
      msgs = ms.filterMap MessageDescriptor.entry? ∧ (msgs.map ProtoEntryMessage.enumId).Nodup ∧
        ∀ m ∈ msgs, m.enumId ∈ remaining
  | [], remaining, msgs, _, h => by
    cases h
    exact ⟨rfl, List.nodup_nil, nofun⟩
  | m :: ms, remaining, msgs, hnodup, h => by
    obtain ⟨⟨enumId, remaining'⟩, hget, h⟩ := bind_eq_ok.1 h
    obtain ⟨rest, hrest, h⟩ := bind_eq_ok.1 h
    obtain ⟨rfl, hsome, hnone⟩ := getEnumId_ok hget
    have hsub : remaining'.Sublist remaining := by
      cases hid : m.enumId with
      | none => rw [hnone hid]
      | some v =>
        rw [(hsome v hid).2]
        exact List.erase_sublist
    obtain ⟨heq, hids, hmem⟩ := scanMessages_ok (hnodup.sublist hsub) hrest
    have hskip : m.entry? = none → rest = (m :: ms).filterMap MessageDescriptor.entry? := by
      intro hentry
      rw [List.filterMap_cons_none hentry]
      exact heq
    -- a message is one of the protocol just where it has both options
    cases hdir : m.ioDirection with
    | none =>
      rw [hdir] at h
      cases h
      refine ⟨hskip ?_, hids, fun m' hm' => hsub.subset (hmem m' hm')⟩
      rw [MessageDescriptor.entry?, hdir]
    | some ioDirection =>
      cases hid : m.enumId with
      | none =>
        rw [hdir, hid] at h
        cases h
        refine ⟨hskip ?_, hids, fun m' hm' => hsub.subset (hmem m' hm')⟩
        rw [MessageDescriptor.entry?, hdir, hid]
      | some v =>
        rw [hdir, hid] at h
        cases h
        obtain ⟨hv, hremaining⟩ := hsome v hid
        have hentry : m.entry? = some ⟨m.fullName, v, ioDirection⟩ := by rw [MessageDescriptor.entry?, hdir, hid]
        refine ⟨?_, ?_, ?_⟩
        · rw [List.filterMap_cons_some hentry, ← heq]
        · -- the enumerator was taken from those that are left
          refine List.nodup_cons.2 ⟨?_, hids⟩
          rintro hmem'
          obtain ⟨m', hm', hsame⟩ := List.mem_map.1 hmem'
          have hleft := hmem m' hm'
          rw [hsame, hremaining] at hleft
          exact hnodup.not_mem_erase hleft
        · intro m' hm'
          rcases List.mem_cons.1 hm' with rfl | hm'
          · exact hv
          · exact hsub.subset (hmem m' hm')

/-- A specification is made of the messages of its description. -/
theorem scanSpecProtofile_ok {d : ProtocolDescription} {spec : ProtoSpec} (h : scanSpecProtofile d = .ok spec) :
    ∃ messageType msgs, d.messageType = some messageType ∧ msgs = d.messages.filterMap MessageDescriptor.entry? ∧
      (msgs.map ProtoEntryMessage.enumId).Nodup ∧ (∀ m ∈ msgs, m.enumId ∈ messageType.values.map Prod.fst) ∧
      spec =
        { messageType
          incoming := msgs.filter fun m => m.ioDirection ∈ [.incoming, .incomingOutgoing]
          outgoing := msgs.filter fun m => m.ioDirection ∈ [.outgoing, .incomingOutgoing] } := by
  unfold scanSpecProtofile at h
  cases htype : d.messageType with
  | none =>
    rw [htype] at h
    cases h
  | some messageType =>
    rw [htype] at h
    obtain ⟨msgs, hscan, hspec⟩ := bind_eq_ok.1 h
    obtain ⟨hmsgs, hids, hmem⟩ := scanMessages_ok messageType.nodup hscan
    exact ⟨messageType, msgs, rfl, hmsgs, hids, hmem, (Except.ok.inj hspec).symm⟩

/-! ## Who sends what -/

def ProtoEntryIODirection.sentBy : Role → ProtoEntryIODirection → Bool
  | .server, .outgoing => true
  | .client, .incoming => true
  | _, .incomingOutgoing => true
  | _, _ => false

/-- The role may send the message. -/
def MessageDescriptor.sentBy (role : Role) (m : MessageDescriptor) : Bool :=
  m.enumId.isSome && m.ioDirection.any (·.sentBy role)

/-- The messages the role may send. -/
def ProtocolDescription.sentBy (role : Role) (d : ProtocolDescription) : List MessageDescriptor :=
  d.messages.filter (·.sentBy role)

/-- The number that the description gives the message. -/
def ProtocolDescription.number (d : ProtocolDescription) (m : MessageDescriptor) : Option Int :=
  d.messageType.bind fun messageType => m.enumId.bind fun v => messageType.values.lookup v

variable {d : ProtocolDescription} {spec : ProtoSpec}

theorem entry?_of_sentBy {role : Role} {m : MessageDescriptor} (h : m.sentBy role = true) :
    ∃ e, m.entry? = some e ∧ m.enumId = some e.enumId := by
  obtain ⟨fullName, ioDirection, enumId⟩ := m
  cases enumId with
  | none => cases h
  | some v =>
    cases ioDirection with
    | none => cases h
    | some dir => exact ⟨_, rfl, rfl⟩

theorem ioDirection_of_entry {m : MessageDescriptor} {e : ProtoEntryMessage} (h : m.entry? = some e) :
    m.ioDirection = some e.ioDirection := by
  obtain ⟨fullName, ioDirection, enumId⟩ := m
  cases enumId with
  | none => cases ioDirection <;> cases h
  | some v =>
    cases ioDirection with
    | none => cases h
    | some dir =>
      cases h
      rfl

theorem outgoing_forRole {msgs : List ProtoEntryMessage} {ms : List MessageDescriptor} (role : Role)
    (messageType : EnumDescriptor) (hmsgs : msgs = ms.filterMap MessageDescriptor.entry?) :
    (ProtoSpec.forRole role
      { messageType
        incoming := msgs.filter fun m => m.ioDirection ∈ [.incoming, .incomingOutgoing]
        outgoing := msgs.filter fun m => m.ioDirection ∈ [.outgoing, .incomingOutgoing] }).outgoing =
      (ms.filter (·.sentBy role)).filterMap MessageDescriptor.entry? := by
  have hdir : ∀ p : ProtoEntryMessage → Bool, (∀ m : ProtoEntryMessage, p m = m.ioDirection.sentBy role) →
      msgs.filter p = (ms.filter (·.sentBy role)).filterMap MessageDescriptor.entry? := by
    intro p hp
    rw [hmsgs, List.filter_filterMap, List.filterMap_filter]
    refine List.filterMap_congr fun m _ => ?_
    obtain ⟨fullName, ioDirection, enumId⟩ := m
    cases enumId with
    | none => cases ioDirection <;> rfl
    | some v =>
      cases ioDirection with
      | none => rfl
      | some dir =>
        change Option.filter p (some ⟨fullName, v, dir⟩) =
          if dir.sentBy role = true then some ⟨fullName, v, dir⟩ else none
        rw [Option.filter_some, hp]
  cases role with
  | client => exact hdir _ fun m => by cases m.ioDirection <;> rfl
  | server => exact hdir _ fun m => by cases m.ioDirection <;> rfl

theorem incoming_opposite (role : Role) (spec : ProtoSpec) :
    (spec.forRole role.opposite).incoming = (spec.forRole role).outgoing := by
  cases role <;> rfl

/-- The messages that the generator makes of those a role may send, with their numbers. -/
structure Outgoing (d : ProtocolDescription) (role : Role) (spec : ProtoSpec) : Prop where
  numbers : (spec.forRole role).outgoing.map spec.number = (d.sentBy role).map d.number
  distinct : (spec.forRole role).outgoing.Nodup
  known : ∀ m ∈ (spec.forRole role).outgoing, ∃ n, spec.number m = some n

theorem outgoing_of_scan (role : Role) (h : scanSpecProtofile d = .ok spec) : Outgoing d role spec := by
  obtain ⟨messageType, msgs, htype, hmsgs, hids, hmem, rfl⟩ := scanSpecProtofile_ok h
  have hout := outgoing_forRole role messageType hmsgs
  generalize hspec : ProtoSpec.mk messageType _ _ = spec at *
  have hspecType : spec.messageType = messageType := by rw [← hspec]
  have hsent : (spec.forRole role).outgoing.Sublist msgs := by
    rw [← hspec]
    cases role <;> exact List.filter_sublist
  constructor
  · have hnumbers : ∀ ms : List MessageDescriptor, (∀ m ∈ ms, m.sentBy role = true) →
        (ms.filterMap MessageDescriptor.entry?).map spec.number = ms.map d.number := by
      intro ms hms
      rw [List.map_filterMap, ← List.filterMap_eq_map]
      refine List.filterMap_congr fun m hm => ?_
      obtain ⟨e, hentry, hid⟩ := entry?_of_sentBy (hms m hm)
      rw [hentry]
      simp [ProtoSpec.number, ProtocolDescription.number, htype, hid, hspecType]
    rw [hout]
    exact hnumbers _ fun m hm => (List.mem_filter.1 hm).2
  · exact (List.Nodup.of_map _ hids).sublist hsent
  · intro m hm
    rw [ProtoSpec.number, hspecType]
    apply Option.isSome_iff_exists.1
    rw [List.lookup_isSome_iff]
    simpa using hmem m (hsent.subset hm)

/-! ## Dispatch -/

/-- The number that a number is on the wire. -/
def onWire (k : Option Int) : Option Int := k.map fun n => ((UInt16.ofInt n).toNat : Int)

theorem onWire_eq_iff {n : Int} : onWire (some n) = some n ↔ 0 ≤ n ∧ n < 2 ^ 16 := by
  have hwire : ((UInt16.ofInt n).toNat : Int) = n % 2 ^ 16 := by
    rw [UInt16.ofInt, UInt16.toNat_ofNat']
    have hlt : (n % 2 ^ 16).toNat < 2 ^ 16 := by omega
    rw [Nat.mod_eq_of_lt hlt]
    omega
  simp only [onWire, Option.map_some, Option.some.injEq, hwire]
  omega

/-- The roles agree on the messages that one of them may send if and only if the numbers of these
messages fit into 16 bits and no two of them are equal. -/
theorem dispatch_agrees_iff (sender : Role) (h : scanSpecProtofile d = .ok spec) :
    (∀ m ∈ (spec.forRole sender).outgoing,
      ((spec.forRole sender).contentSpecificValue m).bind (spec.forRole sender.opposite).caseOf = some m) ↔
    (∀ m ∈ d.sentBy sender, ∃ n, d.number m = some n ∧ 0 ≤ n ∧ n < 2 ^ 16) ∧
      ((d.sentBy sender).map d.number).Nodup := by
  have hout := outgoing_of_scan sender h
  have hnumber : ∀ role, (spec.forRole role).number = spec.number := by
    intro role
    cases role <;> rfl
  have hcase : ∀ m ∈ (spec.forRole sender).outgoing,
      ((spec.forRole sender).contentSpecificValue m).bind (spec.forRole sender.opposite).caseOf =
        dispatch spec.number (spec.forRole sender).outgoing (onWire (spec.number m)) := by
    intro m hm
    obtain ⟨n, hn⟩ := hout.known m hm
    unfold ProtoSpec.contentSpecificValue ProtoSpec.caseOf
    rw [hnumber, hnumber, hn, incoming_opposite]
    rfl
  have hfits : (∀ m ∈ (spec.forRole sender).outgoing, onWire (spec.number m) = spec.number m) ↔
      ∀ m ∈ d.sentBy sender, ∃ n, d.number m = some n ∧ 0 ≤ n ∧ n < 2 ^ 16 := by
    have hknown : ∀ k ∈ (spec.forRole sender).outgoing.map spec.number,
        (onWire k = k ↔ ∃ n, k = some n ∧ 0 ≤ n ∧ n < 2 ^ 16) := by
      intro k hk
      obtain ⟨m, hm, rfl⟩ := List.mem_map.1 hk
      obtain ⟨n, hn⟩ := hout.known m hm
      rw [hn, onWire_eq_iff]
      simp
    rw [← List.forall_mem_map (P := fun k => onWire k = k), ← List.forall_mem_map
      (P := fun k => ∃ n, k = some n ∧ 0 ≤ n ∧ n < 2 ^ 16), ← hout.numbers]
    exact forall₂_congr hknown
  rw [← hfits, ← hout.numbers, ← dispatches_iff hout.distinct]
  exact forall₂_congr fun m hm => by rw [hcase m hm]

/-- A request of the client, and two messages of the server, the second with the number given. -/
def pingPong (notify : Int) (hnotify : -2 ^ 31 ≤ notify ∧ notify < 2 ^ 31) : ProtocolDescription where
  messages := [⟨"Notify", some .outgoing, some "NOTIFY"⟩, ⟨"Ping", some .incoming, some "PING"⟩,
    ⟨"Pong", some .outgoing, some "PONG"⟩]
  messageType := some
    { values := [("UNKNOWN", 0), ("PING", 1), ("PONG", 2), ("NOTIFY", notify)]
      nodup := by simp
      int32 := by simpa using hnotify }

theorem dispatch_agrees_fits : ∃ spec, scanSpecProtofile (pingPong 3 (by decide)) = .ok spec ∧
    ∀ m ∈ (spec.forRole .server).outgoing,
      ((spec.forRole .server).contentSpecificValue m).bind (spec.forRole Role.server.opposite).caseOf = some m := by
  have hsent : (pingPong 3 (by decide)).sentBy .server =
      [⟨"Notify", some .outgoing, some "NOTIFY"⟩, ⟨"Pong", some .outgoing, some "PONG"⟩] := rfl
  refine ⟨_, rfl, (dispatch_agrees_iff (d := pingPong 3 (by decide)) .server rfl).2 ⟨?_, ?_⟩⟩
  · rw [hsent]
    rintro m hm
    rcases List.mem_pair.1 hm with rfl | rfl
    · exact ⟨3, rfl, by decide⟩
    · exact ⟨2, rfl, by decide⟩
  · rw [hsent]
    decide +kernel

/-- 65538 is 2 on the wire: what the server sends as `Notify` the client takes for `Pong`. -/
theorem dispatch_narrows : ∃ spec, scanSpecProtofile (pingPong 65538 (by decide)) = .ok spec ∧
    ∃ m ∈ (spec.forRole .server).outgoing, ∃ m',
      ((spec.forRole .server).contentSpecificValue m).bind (spec.forRole Role.server.opposite).caseOf = some m' ∧
        m'.cppType = "Pong" ∧ m' ≠ m := by
  refine ⟨_, rfl, ⟨"Notify", "NOTIFY", .outgoing⟩, List.mem_cons_self .., ⟨"Pong", "PONG", .outgoing⟩, ?_, rfl,
    ?_⟩
  · decide +kernel
  · decide

end Opio.ProtoEntry
