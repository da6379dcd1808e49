/-
The lookup tables that the template generates for the types of messages: three counters go through a loop
over the incoming messages and one over the outgoing messages that are not incoming too. The lists of
enumerators that the indices are for are those of the specification, in its order.
-/
import Mathlib.Data.List.Dedup
import Mathlib.Data.Set.Function
import Opio.ProtoEntry.Generator

namespace Opio.ProtoEntry

/-- A specialization of `msg_type_lut_t`, for the type of the message. -/
structure MsgTypeLut where
  msg : ProtoEntryMessage
  protocolIndex : Int
  protocolIndexIn : Int
  protocolIndexOut : Int
  deriving DecidableEq, Repr

/-- `idx_all`, `idx_incoming` and `idx_outgoing`. -/
structure IdxCounters where
  idxAll : Nat := 0
  idxIncoming : Nat := 0
  idxOutgoing : Nat := 0
  deriving DecidableEq, Repr

/-! ## The loops -/

/-- The body of the loop over the incoming messages. -/
def incomingLut (outgoingFields : List String) (idx : IdxCounters) (msg : ProtoEntryMessage) :
    MsgTypeLut × IdxCounters :=
  let lut : MsgTypeLut :=
    { msg
      protocolIndex := idx.idxAll
      protocolIndexIn := idx.idxIncoming
      protocolIndexOut := if msg.enumId ∈ outgoingFields then idx.idxOutgoing else -1 }
  let idx := if msg.enumId ∈ outgoingFields then { idx with idxOutgoing := idx.idxOutgoing + 1 } else idx
  (lut, { idx with idxAll := idx.idxAll + 1, idxIncoming := idx.idxIncoming + 1 })

/-- The body of the loop over the outgoing messages, for those that are not incoming. -/
def outgoingLut (idx : IdxCounters) (msg : ProtoEntryMessage) : MsgTypeLut × IdxCounters :=
  let lut : MsgTypeLut :=
    { msg
      protocolIndex := idx.idxAll
      protocolIndexIn := -1
      protocolIndexOut := idx.idxOutgoing }
  let idx := { idx with idxAll := idx.idxAll + 1, idxOutgoing := idx.idxOutgoing + 1 }
  -- behind the strings the counters are moved on as in the first loop
  (lut, { idx with idxAll := idx.idxAll + 1, idxIncoming := idx.idxIncoming + 1 })

def incomingLuts (outgoingFields : List String) : List ProtoEntryMessage → IdxCounters → List MsgTypeLut × IdxCounters
  | [], idx => ([], idx)
  | msg :: msgs, idx =>
    let (lut, idx) := incomingLut outgoingFields idx msg
    let (luts, idx) := incomingLuts outgoingFields msgs idx
    (lut :: luts, idx)

def outgoingLuts (incomingFields : List String) : List ProtoEntryMessage → IdxCounters → List MsgTypeLut × IdxCounters
  | [], idx => ([], idx)
  | msg :: msgs, idx =>
    if msg.enumId ∈ incomingFields then
      outgoingLuts incomingFields msgs idx
    else
      let (lut, idx) := outgoingLut idx msg
      let (luts, idx) := outgoingLuts incomingFields msgs idx
      (lut :: luts, idx)

namespace ProtoSpec

def incomingFields (spec : ProtoSpec) : List String := spec.incoming.map ProtoEntryMessage.enumId

def outgoingFields (spec : ProtoSpec) : List String := spec.outgoing.map ProtoEntryMessage.enumId

/-- The specializations in their order. -/
def msgTypeLuts (spec : ProtoSpec) : List MsgTypeLut :=
  let (luts, idx) := incomingLuts spec.outgoingFields spec.incoming {}
  luts ++ (outgoingLuts spec.incomingFields spec.outgoing idx).1

def incomingEnumsList (spec : ProtoSpec) : List String := spec.incoming.map ProtoEntryMessage.enumId

def outgoingEnumsList (spec : ProtoSpec) : List String := spec.outgoing.map ProtoEntryMessage.enumId

/-- The specialization for a message. -/
def msgTypeLut (spec : ProtoSpec) (m : ProtoEntryMessage) : Option MsgTypeLut :=
  dispatch MsgTypeLut.msg spec.msgTypeLuts m

def protocolIndex (spec : ProtoSpec) (m : ProtoEntryMessage) : Option Int :=
  (spec.msgTypeLut m).map MsgTypeLut.protocolIndex

/-- The messages of the protocol, each once. -/
def messages (spec : ProtoSpec) : List ProtoEntryMessage := (spec.incoming ++ spec.outgoing).dedup

end ProtoSpec

/-- What is promised of an index into a list of enumerators: it leads to that of the message, or it is -1
where the message does not belong to the list. -/
def LeadsTo (msgs : List ProtoEntryMessage) (enumsList : List String) (m : ProtoEntryMessage) (index : Int) : Prop :=
  if m ∈ msgs then ∃ i : Nat, index = i ∧ enumsList[i]? = some m.enumId else index = -1

/-- What is promised of the indices of all messages. -/
structure ConsistentLuts (spec : ProtoSpec) : Prop where
  generated : ∀ m ∈ spec.messages, ∃ lut, spec.msgTypeLut m = some lut ∧ lut.msg = m
  indexIn : ∀ m ∈ spec.messages, ∀ lut, spec.msgTypeLut m = some lut →
    LeadsTo spec.incoming spec.incomingEnumsList m lut.protocolIndexIn
  indexOut : ∀ m ∈ spec.messages, ∀ lut, spec.msgTypeLut m = some lut →
    LeadsTo spec.outgoing spec.outgoingEnumsList m lut.protocolIndexOut
  index : Set.BijOn spec.protocolIndex {m | m ∈ spec.messages}
    {index | ∃ i : Nat, i < spec.messages.length ∧ index = some (i : Int)}

/-! ## What the loops generate -/

/-- A message of the first loop, by its position. -/
theorem getElem?_incomingLuts (outgoingFields : List String) : ∀ (msgs : List ProtoEntryMessage) (idx : IdxCounters)
    (k : Nat), (incomingLuts outgoingFields msgs idx).1[k]? = msgs[k]?.map fun msg =>
      { msg
        protocolIndex := (idx.idxAll + k : Nat)
        protocolIndexIn := (idx.idxIncoming + k : Nat)
        protocolIndexOut := if msg.enumId ∈ outgoingFields then
          ((idx.idxOutgoing + (msgs.take k).countP (·.enumId ∈ outgoingFields) : Nat) : Int) else -1 }
  | [], _, _ => rfl
  | msg :: msgs, idx, 0 => rfl
  | msg :: msgs, idx, k + 1 => by
    rw [incomingLuts]
    dsimp only
    rw [List.getElem?_cons_succ, List.getElem?_cons_succ, getElem?_incomingLuts outgoingFields msgs _ k]
    congr 1
    funext m
    rw [List.take_succ_cons, List.countP_cons, incomingLut]
    by_cases hmem : msg.enumId ∈ outgoingFields
    · simp only [hmem, if_true, decide_true]
      congr 2 <;> omega
    · simp only [hmem, if_false, decide_false]
      congr 2 <;> omega

theorem map_msg_incomingLuts (outgoingFields : List String) (msgs : List ProtoEntryMessage) (idx : IdxCounters) :
    (incomingLuts outgoingFields msgs idx).1.map MsgTypeLut.msg = msgs := by
  refine List.ext_getElem? fun k => ?_
  rw [List.getElem?_map, getElem?_incomingLuts, Option.map_map]
  exact Option.map_id_apply

/-- The counters behind the first loop. -/
theorem incomingLuts_counters (outgoingFields : List String) : ∀ (msgs : List ProtoEntryMessage) (idx : IdxCounters),
    (incomingLuts outgoingFields msgs idx).2 =
      { idxAll := idx.idxAll + msgs.length
        idxIncoming := idx.idxIncoming + msgs.length
        idxOutgoing := idx.idxOutgoing + msgs.countP (·.enumId ∈ outgoingFields) }
  | [], idx => rfl
  | msg :: msgs, idx => by
    rw [incomingLuts]
    dsimp only
    rw [incomingLuts_counters outgoingFields msgs, List.countP_cons, incomingLut, List.length_cons]
    by_cases hmem : msg.enumId ∈ outgoingFields
    · simp only [hmem, if_true, decide_true]
      congr 1 <;> omega
    · simp only [hmem, if_false, decide_false]
      congr 1 <;> omega

/-- The second loop counts every message of its own twice. -/
theorem getElem?_outgoingLuts (incomingFields : List String) : ∀ (msgs : List ProtoEntryMessage) (idx : IdxCounters)
    (k : Nat), (outgoingLuts incomingFields msgs idx).1[k]? =
      (msgs.filter (·.enumId ∉ incomingFields))[k]?.map fun msg =>
        { msg
          protocolIndex := (idx.idxAll + 2 * k : Nat)
          protocolIndexIn := -1
          protocolIndexOut := (idx.idxOutgoing + k : Nat) }
  | [], _, _ => rfl
  | msg :: msgs, idx, k => by
    rw [outgoingLuts]
    by_cases hmem : msg.enumId ∈ incomingFields
    · rw [if_pos hmem, List.filter_cons_of_neg (by simpa using hmem)]
      exact getElem?_outgoingLuts incomingFields msgs idx k
    · rw [if_neg hmem, List.filter_cons_of_pos (by simpa using hmem)]
      dsimp only
      cases k with
      | zero => rfl
      | succ k =>
        rw [List.getElem?_cons_succ, List.getElem?_cons_succ, getElem?_outgoingLuts incomingFields msgs _ k]
        congr 1
        funext m
        rw [outgoingLut]
        dsimp only
        congr 2 <;> omega

theorem map_msg_outgoingLuts (incomingFields : List String) (msgs : List ProtoEntryMessage) (idx : IdxCounters) :
    (outgoingLuts incomingFields msgs idx).1.map MsgTypeLut.msg = msgs.filter (·.enumId ∉ incomingFields) := by
  refine List.ext_getElem? fun k => ?_
  rw [List.getElem?_map, getElem?_outgoingLuts, Option.map_map]
  exact Option.map_id_apply

/-! ## The lists of a specification -/

section

variable {α : Type} {p : α → Bool} {a : α} {k : Nat}

/-- Where an element of the list comes among those that are filtered out of it. -/
theorem getElem?_filter_take : ∀ {l : List α} {k : Nat}, l[k]? = some a → p a = true →
    (l.filter p)[((l.take k).filter p).length]? = some a
  | b :: l, 0, hk, hp => by
    obtain rfl : b = a := Option.some.inj hk
    rw [List.filter_cons_of_pos hp]
    rfl
  | b :: l, k + 1, hk, hp => by
    have ih := getElem?_filter_take (by simpa using hk : l[k]? = some a) hp
    rw [List.take_succ_cons]
    by_cases hb : p b = true
    · rw [List.filter_cons_of_pos hb, List.filter_cons_of_pos hb, List.length_cons, List.getElem?_cons_succ]
      exact ih
    · rw [List.filter_cons_of_neg hb, List.filter_cons_of_neg hb]
      exact ih

theorem exists_of_getElem?_filter : ∀ {l : List α} {j : Nat}, (l.filter p)[j]? = some a →
    ∃ k : Nat, l[k]? = some a ∧ ((l.take k).filter p).length = j
  | [], j, hj => by cases hj
  | b :: l, j, hj => by
    by_cases hb : p b = true
    · rw [List.filter_cons_of_pos hb] at hj
      cases j with
      | zero => exact ⟨0, hj, rfl⟩
      | succ j =>
        obtain ⟨k, hk, hcount⟩ := exists_of_getElem?_filter (List.getElem?_cons_succ.symm.trans hj)
        refine ⟨k + 1, hk, ?_⟩
        rw [List.take_succ_cons, List.filter_cons_of_pos hb, List.length_cons, hcount]
    · rw [List.filter_cons_of_neg hb] at hj
      obtain ⟨k, hk, hcount⟩ := exists_of_getElem?_filter hj
      refine ⟨k + 1, hk, ?_⟩
      rw [List.take_succ_cons, List.filter_cons_of_neg hb, hcount]

/-- All but the last element have the property. -/
theorem forall_dropLast_iff (l : List α) : (∀ a ∈ l.dropLast, p a = true) ↔
    l = l.filter p ++ l.filter (!p ·) ∧ (l.filter (!p ·)).length ≤ 1 := by
  constructor
  · intro h
    rcases List.eq_nil_or_concat l with rfl | ⟨init, last, rfl⟩
    · exact ⟨rfl, Nat.zero_le 1⟩
    · rw [List.concat_eq_append] at h ⊢
      rw [List.dropLast_concat] at h
      have hinit : init.filter p = init := List.filter_eq_self.2 h
      have hnone : init.filter (!p ·) = [] := List.filter_eq_nil_iff.2 fun a ha => by simp [h a ha]
      rw [List.filter_append, List.filter_append, hinit, hnone]
      by_cases hlast : p last = true
      · simp [hlast]
      · simp [hlast]
  · rintro ⟨hsplit, hone⟩ a ha
    generalize l.filter (!p ·) = rest at hsplit hone
    match rest, hone with
    | [], _ =>
      rw [hsplit, List.append_nil] at ha
      exact List.of_mem_filter (List.dropLast_subset _ ha)
    | [last], _ =>
      rw [hsplit, List.dropLast_concat] at ha
      exact List.of_mem_filter ha

end

/-- The messages that are only sent. -/
def ProtoSpec.outgoingOnly (spec : ProtoSpec) : List ProtoEntryMessage := spec.outgoing.filter (· ∉ spec.incoming)

/-- The messages that are sent and received, in the order in which they are among those that are sent. -/
def ProtoSpec.bothWays (spec : ProtoSpec) : List ProtoEntryMessage := spec.outgoing.filter (· ∈ spec.incoming)

/-- What the scan sees to: an enumerator stands for one message, and both lists are in one order. -/
structure Scanned (spec : ProtoSpec) : Prop where
  nodupIncoming : spec.incoming.Nodup
  nodupOutgoing : spec.outgoing.Nodup
  enumId : ∀ m ∈ spec.incoming ++ spec.outgoing, ∀ m' ∈ spec.incoming ++ spec.outgoing, m.enumId = m'.enumId → m = m'
  order : spec.incoming.filter (· ∈ spec.outgoing) = spec.bothWays

theorem scanned_of_filters {spec : ProtoSpec} {msgs : List ProtoEntryMessage} {p q : ProtoEntryMessage → Bool}
    (hids : (msgs.map ProtoEntryMessage.enumId).Nodup) (hincoming : spec.incoming = msgs.filter p)
    (houtgoing : spec.outgoing = msgs.filter q) : Scanned spec := by
  have hnodup : msgs.Nodup := hids.of_map
  have hmem : ∀ m ∈ spec.incoming ++ spec.outgoing, m ∈ msgs := by
    intro m hm
    rw [hincoming, houtgoing] at hm
    rcases List.mem_append.1 hm with hm | hm
    · exact List.mem_of_mem_filter hm
    · exact List.mem_of_mem_filter hm
  constructor
  · rw [hincoming]
    exact hnodup.filter p
  · rw [houtgoing]
    exact hnodup.filter q
  · intro m hm m' hm' heq
    exact List.inj_on_of_nodup_map hids (hmem m hm) (hmem m' hm') heq
  · rw [ProtoSpec.bothWays, hincoming, houtgoing, List.filter_filter, List.filter_filter]
    refine List.filter_congr fun m hm => ?_
    simp [List.mem_filter, hm, Bool.and_comm]

theorem scanned_forRole {d : ProtocolDescription} {spec : ProtoSpec} (role : Role)
    (h : scanSpecProtofile d = .ok spec) :
    Scanned (spec.forRole role) := by
  obtain ⟨messageType, msgs, -, -, hids, -, rfl⟩ := scanSpecProtofile_ok h
  cases role with
  | client => exact scanned_of_filters hids rfl rfl
  | server => exact scanned_of_filters hids rfl rfl

namespace Scanned

variable {spec : ProtoSpec} {m : ProtoEntryMessage} {k : Nat}

theorem mem_outgoingFields (h : Scanned spec) (hm : m ∈ spec.incoming) :
    m.enumId ∈ spec.outgoingFields ↔ m ∈ spec.outgoing := by
  constructor
  · intro hmem
    obtain ⟨m', hm', heq⟩ := List.mem_map.1 hmem
    rwa [← h.enumId m' (List.mem_append_right _ hm') m (List.mem_append_left _ hm) heq]
  · exact List.mem_map_of_mem

theorem mem_incomingFields (h : Scanned spec) (hm : m ∈ spec.outgoing) :
    m.enumId ∈ spec.incomingFields ↔ m ∈ spec.incoming := by
  constructor
  · intro hmem
    obtain ⟨m', hm', heq⟩ := List.mem_map.1 hmem
    rwa [← h.enumId m' (List.mem_append_left _ hm') m (List.mem_append_right _ hm) heq]
  · exact List.mem_map_of_mem

theorem filter_incomingFields (h : Scanned spec) :
    spec.outgoing.filter (·.enumId ∉ spec.incomingFields) = spec.outgoingOnly :=
  List.filter_congr fun _ hm => by simp [h.mem_incomingFields hm]

/-- What the first loop has counted of the messages that are sent. -/
theorem countP_outgoingFields (h : Scanned spec) {msgs : List ProtoEntryMessage} (hsub : msgs ⊆ spec.incoming) :
    msgs.countP (·.enumId ∈ spec.outgoingFields) = (msgs.filter (· ∈ spec.outgoing)).length := by
  rw [List.countP_eq_length_filter]
  exact congrArg List.length (List.filter_congr fun m hm => by simp [h.mem_outgoingFields (hsub hm)])

theorem nodup_generated (h : Scanned spec) : (spec.incoming ++ spec.outgoingOnly).Nodup := by
  refine h.nodupIncoming.append (h.nodupOutgoing.filter _) ?_
  intro m hin hout
  have hnot : m ∉ spec.incoming := by simpa using (List.mem_filter.1 hout).2
  exact hnot hin

/-- Each message of the protocol is generated once. -/
theorem perm_messages (h : Scanned spec) : spec.messages.Perm (spec.incoming ++ spec.outgoingOnly) := by
  refine (List.perm_ext_iff_of_nodup (List.nodup_dedup _) h.nodup_generated).2 fun m => ?_
  rw [List.mem_dedup, List.mem_append, List.mem_append, ProtoSpec.outgoingOnly, List.mem_filter]
  by_cases hm : m ∈ spec.incoming
  · simp [hm]
  · simp [hm]

theorem length_outgoing (spec : ProtoSpec) : spec.outgoing.length =
    spec.bothWays.length + spec.outgoingOnly.length := by
  have hlen := List.length_eq_length_filter_add (l := spec.outgoing) (· ∈ spec.incoming)
  rw [hlen]
  simp [ProtoSpec.bothWays, ProtoSpec.outgoingOnly]

/-! ## The specialization of a message -/

theorem getElem?_luts_incoming (h : Scanned spec) (hk : spec.incoming[k]? = some m) : spec.msgTypeLuts[k]? = some
    { msg := m
      protocolIndex := k
      protocolIndexIn := k
      protocolIndexOut := if m ∈ spec.outgoing then
        (((spec.incoming.take k).filter (· ∈ spec.outgoing)).length : Int) else -1 } := by
  have hfirst := getElem?_incomingLuts spec.outgoingFields spec.incoming {} k
  rw [hk, Option.map_some] at hfirst
  have hlt := (List.getElem?_eq_some_iff.1 hfirst).1
  rw [ProtoSpec.msgTypeLuts]
  dsimp only
  rw [List.getElem?_append_left hlt, hfirst]
  simp [h.mem_outgoingFields (List.mem_of_getElem? hk), h.countP_outgoingFields (List.take_subset k _)]

theorem getElem?_luts_outgoing (h : Scanned spec) (hk : spec.outgoingOnly[k]? = some m) :
    spec.msgTypeLuts[spec.incoming.length + k]? = some
      { msg := m
        protocolIndex := (spec.incoming.length + 2 * k : Nat)
        protocolIndexIn := -1
        protocolIndexOut := (spec.bothWays.length + k : Nat) } := by
  have hlen : (incomingLuts spec.outgoingFields spec.incoming {}).1.length = spec.incoming.length := by
    rw [← List.length_map MsgTypeLut.msg, map_msg_incomingLuts]
  have hcounters := incomingLuts_counters spec.outgoingFields spec.incoming {}
  rw [h.countP_outgoingFields (List.Subset.refl _), h.order] at hcounters
  rw [ProtoSpec.msgTypeLuts]
  dsimp only
  rw [List.getElem?_append_right (by omega), hlen, Nat.add_sub_cancel_left, getElem?_outgoingLuts,
    h.filter_incomingFields, hk, hcounters]
  simp

theorem map_msg_luts (h : Scanned spec) : spec.msgTypeLuts.map MsgTypeLut.msg = spec.incoming ++ spec.outgoingOnly := by
  rw [ProtoSpec.msgTypeLuts]
  dsimp only
  rw [List.map_append, map_msg_incomingLuts, map_msg_outgoingLuts, h.filter_incomingFields]

/-- A specialization is the one for its message. -/
theorem msgTypeLut_eq (h : Scanned spec) {lut : MsgTypeLut} (hlut : spec.msgTypeLuts[k]? = some lut) :
    spec.msgTypeLut lut.msg = some lut := by
  refine dispatch_key ?_ (List.mem_of_getElem? hlut)
  rw [h.map_msg_luts]
  exact h.nodup_generated

theorem mem_messages (h : Scanned spec) :
    m ∈ spec.messages ↔ (∃ k : Nat, spec.incoming[k]? = some m) ∨ ∃ k : Nat, spec.outgoingOnly[k]? = some m := by
  rw [h.perm_messages.mem_iff, List.mem_append, List.mem_iff_getElem?, List.mem_iff_getElem?]

theorem not_incoming (hk : spec.outgoingOnly[k]? = some m) : m ∉ spec.incoming ∧ m ∈ spec.outgoing := by
  obtain ⟨hm, hnot⟩ := List.mem_filter.1 (List.mem_of_getElem? hk)
  exact ⟨by simpa using hnot, hm⟩

theorem generated (h : Scanned spec) (hm : m ∈ spec.messages) : ∃ lut, spec.msgTypeLut m = some lut ∧ lut.msg = m := by
  rcases h.mem_messages.1 hm with ⟨k, hk⟩ | ⟨k, hk⟩
  · exact ⟨_, h.msgTypeLut_eq (h.getElem?_luts_incoming hk), rfl⟩
  · exact ⟨_, h.msgTypeLut_eq (h.getElem?_luts_outgoing hk), rfl⟩

/-! ## The indices -/

/-- The index into the list of the incoming enumerators is always right. -/
theorem indexIn (h : Scanned spec) (hm : m ∈ spec.messages) {lut : MsgTypeLut} (hlut : spec.msgTypeLut m = some lut) :
    LeadsTo spec.incoming spec.incomingEnumsList m lut.protocolIndexIn := by
  rcases h.mem_messages.1 hm with ⟨k, hk⟩ | ⟨k, hk⟩
  · obtain rfl := Option.some.inj ((h.msgTypeLut_eq (h.getElem?_luts_incoming hk)).symm.trans hlut)
    rw [LeadsTo, if_pos (List.mem_of_getElem? hk)]
    exact ⟨k, rfl, by rw [ProtoSpec.incomingEnumsList, List.getElem?_map, hk]; rfl⟩
  · obtain rfl := Option.some.inj ((h.msgTypeLut_eq (h.getElem?_luts_outgoing hk)).symm.trans hlut)
    rw [LeadsTo, if_neg (not_incoming hk).1]

/-- An index into the list of the outgoing enumerators is right when the message is there. -/
theorem leadsTo_outgoing (h : Scanned spec) (hm : m ∈ spec.outgoing) (i : Nat) :
    LeadsTo spec.outgoing spec.outgoingEnumsList m i ↔ spec.outgoing[i]? = some m := by
  rw [LeadsTo, if_pos hm]
  constructor
  · rintro ⟨j, hj, hget⟩
    obtain rfl : i = j := Int.ofNat.inj hj
    obtain ⟨m', hget', heq⟩ := Option.map_eq_some_iff.1 ((List.getElem?_map ..).symm.trans hget)
    have hm' := List.mem_of_getElem? hget'
    rw [hget', h.enumId m' (List.mem_append_right _ hm') m (List.mem_append_right _ hm) heq]
  · intro hget
    exact ⟨i, rfl, by rw [ProtoSpec.outgoingEnumsList, List.getElem?_map, hget]; rfl⟩

/-- The messages that are sent and received come first in the count, those that are only sent behind them. -/
theorem indexOut_iff (h : Scanned spec) :
    (∀ m ∈ spec.messages, ∀ lut, spec.msgTypeLut m = some lut →
      LeadsTo spec.outgoing spec.outgoingEnumsList m lut.protocolIndexOut) ↔
    spec.outgoing = spec.bothWays ++ spec.outgoingOnly := by
  constructor
  · intro hout
    refine (List.ext_getElem? fun j => ?_)
    rcases Nat.lt_or_ge j spec.bothWays.length with hj | hj
    · -- it was counted in the first loop
      obtain ⟨m, hboth⟩ : ∃ m, spec.bothWays[j]? = some m := ⟨_, List.getElem?_eq_getElem hj⟩
      have hmem := (List.mem_filter.1 (List.mem_of_getElem? hboth)).1
      rw [List.getElem?_append_left hj, hboth]
      rw [← h.order] at hboth
      obtain ⟨k, hk, hcount⟩ := exists_of_getElem?_filter hboth
      have hlut := h.msgTypeLut_eq (h.getElem?_luts_incoming hk)
      have hleads := hout _ (h.mem_messages.2 (.inl ⟨k, hk⟩)) _ hlut
      rwa [if_pos hmem, hcount, h.leadsTo_outgoing hmem] at hleads
    · -- it was counted in the second loop, behind those of the first
      rw [List.getElem?_append_right hj]
      cases hk : spec.outgoingOnly[j - spec.bothWays.length]? with
      | none =>
        have hlength := length_outgoing spec
        have hle := List.getElem?_eq_none_iff.1 hk
        exact List.getElem?_eq_none (by omega)
      | some m =>
        have hlut := h.msgTypeLut_eq (h.getElem?_luts_outgoing hk)
        have hleads := hout m (h.mem_messages.2 (.inr ⟨_, hk⟩)) _ hlut
        rwa [h.leadsTo_outgoing (not_incoming hk).2, Nat.add_sub_cancel' hj] at hleads
  · intro hsplit m hm lut hlut
    rcases h.mem_messages.1 hm with ⟨k, hk⟩ | ⟨k, hk⟩
    · obtain rfl := Option.some.inj ((h.msgTypeLut_eq (h.getElem?_luts_incoming hk)).symm.trans hlut)
      by_cases hmem : m ∈ spec.outgoing
      · have hget := getElem?_filter_take hk (p := (· ∈ spec.outgoing)) (by simpa using hmem)
        rw [h.order] at hget
        rw [if_pos hmem, h.leadsTo_outgoing hmem]
        generalize ((spec.incoming.take k).filter (· ∈ spec.outgoing)).length = i at hget ⊢
        rw [hsplit, List.getElem?_append_left (List.getElem?_eq_some_iff.1 hget).1, hget]
      · rw [LeadsTo, if_neg hmem, if_neg hmem]
    · obtain rfl := Option.some.inj ((h.msgTypeLut_eq (h.getElem?_luts_outgoing hk)).symm.trans hlut)
      rw [h.leadsTo_outgoing (not_incoming hk).2, hsplit, List.getElem?_append_right (Nat.le_add_right ..),
        Nat.add_sub_cancel_left]
      exact hk

theorem protocolIndex_incoming (h : Scanned spec) (hk : spec.incoming[k]? = some m) :
    spec.protocolIndex m = some (k : Int) := by
  rw [ProtoSpec.protocolIndex, h.msgTypeLut_eq (h.getElem?_luts_incoming hk), Option.map_some]

theorem protocolIndex_outgoing (h : Scanned spec) (hk : spec.outgoingOnly[k]? = some m) :
    spec.protocolIndex m = some ((spec.incoming.length + 2 * k : Nat) : Int) := by
  rw [ProtoSpec.protocolIndex, h.msgTypeLut_eq (h.getElem?_luts_outgoing hk), Option.map_some]

/-- With one message that is only sent at most, the index is the position among what is generated. -/
theorem protocolIndex_eq (h : Scanned spec) (hone : spec.outgoingOnly.length ≤ 1)
    (hk : (spec.incoming ++ spec.outgoingOnly)[k]? = some m) : spec.protocolIndex m = some (k : Int) := by
  rcases Nat.lt_or_ge k spec.incoming.length with hlt | hge
  · rw [List.getElem?_append_left hlt] at hk
    exact h.protocolIndex_incoming hk
  · rw [List.getElem?_append_right hge] at hk
    have hlt := (List.getElem?_eq_some_iff.1 hk).1
    rw [h.protocolIndex_outgoing hk]
    congr 2
    omega

/-- The indices of all messages. -/
theorem index_iff (h : Scanned spec) :
    Set.BijOn spec.protocolIndex {m | m ∈ spec.messages}
      {index | ∃ i : Nat, i < spec.messages.length ∧ index = some (i : Int)} ↔ spec.outgoingOnly.length ≤ 1 := by
  have hlength := h.perm_messages.length_eq
  constructor
  · rintro ⟨hmaps, -, -⟩
    by_contra hmany
    -- the index of the last one is beyond the messages
    obtain ⟨m, hk⟩ : ∃ m, spec.outgoingOnly[spec.outgoingOnly.length - 1]? = some m :=
      ⟨_, List.getElem?_eq_getElem (by omega)⟩
    obtain ⟨i, hi, heq⟩ := hmaps (h.mem_messages.2 (.inr ⟨_, hk⟩))
    rw [h.protocolIndex_outgoing hk] at heq
    have hindex := Int.ofNat.inj (Option.some.inj heq)
    rw [List.length_append] at hlength
    omega
  · intro hone
    refine ⟨?_, ?_, ?_⟩
    · rintro m hm
      obtain ⟨k, hk⟩ := List.mem_iff_getElem?.1 (h.perm_messages.mem_iff.1 hm)
      exact ⟨k, hlength ▸ (List.getElem?_eq_some_iff.1 hk).1, h.protocolIndex_eq hone hk⟩
    · rintro m hm m' hm' heq
      obtain ⟨k, hk⟩ := List.mem_iff_getElem?.1 (h.perm_messages.mem_iff.1 hm)
      obtain ⟨k', hk'⟩ := List.mem_iff_getElem?.1 (h.perm_messages.mem_iff.1 hm')
      rw [h.protocolIndex_eq hone hk, h.protocolIndex_eq hone hk'] at heq
      obtain rfl : k = k' := Int.ofNat.inj (Option.some.inj heq)
      exact Option.some.inj (hk.symm.trans hk')
    · rintro index ⟨i, hi, rfl⟩
      have hget := List.getElem?_eq_getElem (hlength ▸ hi)
      exact ⟨_, h.perm_messages.mem_iff.2 (List.mem_of_getElem? hget), h.protocolIndex_eq hone hget⟩

theorem consistent_iff (h : Scanned spec) :
    ConsistentLuts spec ↔ ∀ m ∈ spec.outgoing.dropLast, m ∈ spec.incoming := by
  have hlast := forall_dropLast_iff (p := (· ∈ spec.incoming)) spec.outgoing
  simp only [decide_eq_true_eq] at hlast
  rw [hlast]
  have honly : spec.outgoing.filter (fun m => !decide (m ∈ spec.incoming)) = spec.outgoingOnly :=
    List.filter_congr fun m _ => (decide_not).symm
  rw [honly]
  constructor
  · intro hc
    exact ⟨h.indexOut_iff.1 hc.indexOut, h.index_iff.1 hc.index⟩
  · rintro ⟨hsplit, hone⟩
    exact
      { generated := fun m hm => h.generated hm
        indexIn := fun m hm lut hlut => h.indexIn hm hlut
        indexOut := h.indexOut_iff.2 hsplit
        index := h.index_iff.2 hone }

end Scanned

/-! ## The description -/

variable {d : ProtocolDescription} {spec : ProtoSpec}

/-- What a role sends is received too exactly when it goes both ways. -/
theorem mem_incoming_iff {role : Role} (h : scanSpecProtofile d = .ok spec) {m : ProtoEntryMessage}
    (hm : m ∈ (spec.forRole role).outgoing) :
    m ∈ (spec.forRole role).incoming ↔ m.ioDirection = .incomingOutgoing := by
  obtain ⟨messageType, msgs, -, -, -, -, rfl⟩ := scanSpecProtofile_ok h
  obtain ⟨cppType, enumId, dir⟩ := m
  cases role with
  | client =>
    obtain ⟨hmsgs, hdir⟩ := List.mem_filter.1 hm
    change _ ∈ msgs.filter _ ↔ _
    rw [List.mem_filter]
    cases dir <;> simp_all
  | server =>
    obtain ⟨hmsgs, hdir⟩ := List.mem_filter.1 hm
    change _ ∈ msgs.filter _ ↔ _
    rw [List.mem_filter]
    cases dir <;> simp_all

/-- The messages a role sends, in the order in which they are generated. -/
theorem outgoing_eq (role : Role) (h : scanSpecProtofile d = .ok spec) :
    (spec.forRole role).outgoing = (d.sentBy role).filterMap MessageDescriptor.entry? := by
  obtain ⟨messageType, msgs, -, hmsgs, -, -, rfl⟩ := scanSpecProtofile_ok h
  exact outgoing_forRole role messageType hmsgs

/-- All but the last message that a role sends are those of all but the last descriptor. -/
theorem dropLast_outgoing (role : Role) (h : scanSpecProtofile d = .ok spec) :
    (spec.forRole role).outgoing.dropLast = (d.sentBy role).dropLast.filterMap MessageDescriptor.entry? := by
  have hsent : ∀ m ∈ d.sentBy role, m.sentBy role = true := fun m hm => (List.mem_filter.1 hm).2
  rw [outgoing_eq role h]
  rcases List.eq_nil_or_concat (d.sentBy role) with hnil | ⟨init, last, hlast⟩
  · rw [hnil]
    rfl
  · rw [List.concat_eq_append] at hlast
    rw [hlast] at hsent ⊢
    obtain ⟨e, hentry, -⟩ := entry?_of_sentBy (hsent last List.mem_concat_self)
    rw [List.filterMap_append, List.filterMap_cons_some hentry, List.filterMap_nil, List.dropLast_concat,
      List.dropLast_concat]

/-- The indices of a role are consistent exactly when all that the role sends goes both ways, up to the last
message. -/
theorem luts_consistent_iff (role : Role) (h : scanSpecProtofile d = .ok spec) :
    ConsistentLuts (spec.forRole role) ↔
      ∀ m ∈ (d.sentBy role).dropLast, m.ioDirection = some .incomingOutgoing := by
  have hboth : (∀ m ∈ (spec.forRole role).outgoing.dropLast, m ∈ (spec.forRole role).incoming) ↔
      ∀ m ∈ (spec.forRole role).outgoing.dropLast, m.ioDirection = .incomingOutgoing :=
    forall₂_congr fun m hm => mem_incoming_iff h (List.dropLast_subset _ hm)
  rw [(scanned_forRole role h).consistent_iff, hboth, dropLast_outgoing role h]
  constructor
  · intro hall m hm
    have hsent := (List.mem_filter.1 (List.dropLast_subset _ hm)).2
    obtain ⟨e, hentry, -⟩ := entry?_of_sentBy hsent
    rw [ioDirection_of_entry hentry, hall e (List.mem_filterMap.2 ⟨m, hm, hentry⟩)]
  · intro hall e he
    obtain ⟨m, hm, hentry⟩ := List.mem_filterMap.1 he
    exact Option.some.inj ((ioDirection_of_entry hentry).symm.trans (hall m hm))

/-- Messages with enumerators of their own. -/
def chat (messages : List MessageDescriptor) : ProtocolDescription where
  messages := messages
  messageType := some
    { values := [("UNKNOWN", 0), ("CHAT", 1), ("LOGIN", 2), ("NOTICE", 3), ("ALERT", 4)]
      nodup := by simp
      int32 := by simp }

/-- The only message that is only sent is the last one. -/
theorem luts_consistent_iff_notice : ∃ spec,
    scanSpecProtofile (chat [⟨"Chat", some .incomingOutgoing, some "CHAT"⟩, ⟨"Login", some .incoming, some "LOGIN"⟩,
      ⟨"Notice", some .outgoing, some "NOTICE"⟩]) = .ok spec ∧ ConsistentLuts (spec.forRole .server) := by
  obtain ⟨spec, hspec⟩ : ∃ spec, scanSpecProtofile (chat [⟨"Chat", some .incomingOutgoing, some "CHAT"⟩,
    ⟨"Login", some .incoming, some "LOGIN"⟩, ⟨"Notice", some .outgoing, some "NOTICE"⟩]) = .ok spec := ⟨_, rfl⟩
  refine ⟨spec, hspec, (luts_consistent_iff .server hspec).2 ?_⟩
  rintro m hm
  obtain rfl : m = ⟨"Chat", some .incomingOutgoing, some "CHAT"⟩ := List.mem_singleton.1 hm
  rfl

/-- Of two messages that are only sent the second has an index beyond the messages. -/
theorem luts_beyond : ∃ spec, scanSpecProtofile (chat [⟨"Alert", some .outgoing, some "ALERT"⟩,
      ⟨"Login", some .incoming, some "LOGIN"⟩, ⟨"Notice", some .outgoing, some "NOTICE"⟩]) = .ok spec ∧
    (spec.forRole .server).messages.length = 3 ∧ ∃ m ∈ (spec.forRole .server).messages,
      (spec.forRole .server).protocolIndex m = some 3 :=
  ⟨_, rfl, by decide +kernel, ⟨"Notice", "NOTICE", .outgoing⟩, by decide +kernel, by decide +kernel⟩

/-- A message that is received too is counted first, wherever it is in the list. -/
theorem luts_misled : ∃ spec, scanSpecProtofile (chat [⟨"Alert", some .outgoing, some "ALERT"⟩,
      ⟨"Chat", some .incomingOutgoing, some "CHAT"⟩]) = .ok spec ∧
    (spec.forRole .server).outgoingEnumsList = ["ALERT", "CHAT"] ∧ ∃ m ∈ (spec.forRole .server).messages,
      m.enumId = "CHAT" ∧ m ∈ (spec.forRole .server).outgoing ∧
        ((spec.forRole .server).msgTypeLut m).map MsgTypeLut.protocolIndexOut = some 0 :=
  ⟨_, rfl, by decide +kernel, ⟨"Chat", "CHAT", .incomingOutgoing⟩, by decide +kernel, rfl, by decide +kernel,
    by decide +kernel⟩

/-- Neither of the two is consistent. -/
theorem luts_not_consistent :
    (∃ spec, scanSpecProtofile (chat [⟨"Alert", some .outgoing, some "ALERT"⟩, ⟨"Login", some .incoming, some "LOGIN"⟩,
        ⟨"Notice", some .outgoing, some "NOTICE"⟩]) = .ok spec ∧ ¬ ConsistentLuts (spec.forRole .server)) ∧
    (∃ spec, scanSpecProtofile (chat [⟨"Alert", some .outgoing, some "ALERT"⟩,
        ⟨"Chat", some .incomingOutgoing, some "CHAT"⟩]) = .ok spec ∧ ¬ ConsistentLuts (spec.forRole .server)) := by
  constructor
  · obtain ⟨spec, hspec, hlength, m, hm, hindex⟩ := luts_beyond
    refine ⟨spec, hspec, fun h => ?_⟩
    obtain ⟨i, hi, heq⟩ := h.index.mapsTo hm
    have hthree : (3 : Int) = i := Option.some.inj (hindex.symm.trans heq)
    omega
  · obtain ⟨spec, hspec, hlist, m, hm, hid, hout, hindex⟩ := luts_misled
    refine ⟨spec, hspec, fun h => ?_⟩
    obtain ⟨lut, hlut, hzero⟩ := Option.map_eq_some_iff.1 hindex
    have hleads := h.indexOut m hm lut hlut
    rw [LeadsTo, if_pos hout, hzero, hlist, hid] at hleads
    obtain ⟨i, hi, hget⟩ := hleads
    obtain rfl : i = 0 := by omega
    exact absurd hget (by decide)

end Opio.ProtoEntry
