/-
Two nodes, each the peer of the other. The bytes that the socket of the one takes arrive at the other in
order, in pieces of any size and after any time; what either of them has not read yet is on its way.
Where each end takes what the other sends and its consumer throws nothing, every message comes to the consumer
of the other end, once and in the order the connection took it, and neither end ever gives the connection up
for its input.

The sends are those that make one call, as they are everywhere in a node. What `send_vec` puts behind the
header for attached buffers is not what the header announces, and the other end loses its place.
-/
import Mathlib.Data.List.Forall2
import Opio.ProtoEntry.NodeRuns

namespace Opio.ProtoEntry

open Incremental
open Net (Connection SendCall Frame accepted taken failedEntries)
open Net.Connection (Driven)
open scoped List

variable {τ τ' ι ο : Type}

/-! ## What is sent -/

namespace Send

/-- The message of a send with its type, and the bytes attached to it. -/
def message? : Send ο → Option (UInt16 × ο × Bytes)
  | send id msg => some (id, msg, [])
  | sendAttached id msg attachedBinary => some (id, msg, attachedBinary)
  | sendVec id msg attachedBinaries => some (id, msg, attachedBinaries.bufs.flatten)
  | sendWithCb id msg => some (id, msg, [])
  | sendWithCbAttached id msg attachedBinary => some (id, msg, attachedBinary)
  | sendVecWithCb id msg attachedBinaries => some (id, msg, attachedBinaries.bufs.flatten)
  | heartbeatRequest => none
  | heartbeatReply => none

/-- What the consumer at the other end is handed for a send. -/
def event (serialize : ο → Bytes) (s : Send ο) : Option (Event ο) :=
  s.message?.map fun (id, msg, attached) => .message id (serialize msg) msg attached

theorem package_of_message {serialize : ο → Bytes} {s : Send ο} {id : UInt16} {msg : ο} {attached : Bytes}
    (h : s.message? = some (id, msg, attached)) :
    s.package serialize =
      (sendHeader id (serialize msg).length attached.length).image ++ serialize msg ++ attached := by
  cases s <;> cases h <;> simp [package]

end Send

/-- What the consumer at the other end is handed for a call. -/
def Work.message (serialize : ο → Bytes) : Work τ ο → Option (Event ο)
  | send _ s _ => s.event serialize
  | _ => none

/-- What the entry at the other end does about a call. -/
def Work.events (serialize : ο → Bytes) : Work τ ο → List (Event ο)
  | send _ s _ => (s.event serialize).toList
  | heartbeat buf =>
    if buf = (PkgHeader.make pkgContentHeartbeatRequest).image then
      [.scheduleSend (PkgHeader.make pkgContentHeartbeatReply).image]
    else []
  | _ => []

/-- The one end reads what the other writes: it has a parser for each type of message that the other sends, which
gives back what was serialized, and a consumer that throws nothing. The limit is one on what is sent, and what is
left of 2 GiB besides a package of that size is one on what is read at once. -/
structure Contract (sender : NodeEnv ι ο) (receiver : NodeEnv ο ι) where
  parsers : Decoder.Parsers ο
  ofType : UInt16 → ο → Prop
  /-- No package is longer. -/
  packageLimit : Nat
  parses : ParsesAs receiver.entry parsers
  inverts : ParseInvertsSerialize parsers ofType sender.serialize
  consumer : ∀ evs, receiver.entry.onMessage evs = none
  heartbeatFits : sizeofPkgHeader ≤ packageLimit

namespace Contract

variable {sender : NodeEnv ι ο} {receiver : NodeEnv ο ι} (c : Contract sender receiver)

/-- The receiver takes messages of this type and size: the content is no longer than its `max_valid_package_size`,
and the package no longer than the limit. -/
def Takes (s : Send ο) : Prop :=
  (∀ id msg attached, s.message? = some (id, msg, attached) → attached.length < 2 ^ 32 ∧
    Package.MessageOk c.parsers c.ofType receiver.entry.cfg.maxValidPackageSize sender.serialize id msg) ∧
  (s.package sender.serialize).length ≤ c.packageLimit

/-- A chunk that is no problem behind the front of a package. -/
def Reads (bs : Bytes) : Prop := c.packageLimit + bs.length ≤ 2 ^ 31

/-- The sends are such that the receiver takes them, and the chunks such that the sender takes them. -/
def Sends : NodeAction τ ο → Prop
  | .calls _ s => c.Takes s
  | _ => True

def Receives : NodeAction τ ι → Prop
  | .reads bs => c.Reads bs
  | _ => True

def TakesWork : Work τ ο → Prop
  | .send _ s _ => c.Takes s
  | _ => True

/-- The decoder of the receiver. -/
abbrev head : Bytes → Head (Event ο) := Decoder.head receiver.entry.cfg.maxValidPackageSize c.parsers

theorem encodes_send {s : Send ο} (h : c.Takes s) (hmessage : s.isMessage = true) :
    Encodes c.head Decoder.WellFormed (s.package sender.serialize) (s.event sender.serialize).toList := by
  obtain ⟨id, msg, attached, hs⟩ : ∃ id msg attached, s.message? = some (id, msg, attached) := by
    cases s <;> first | exact ⟨_, _, _, rfl⟩ | cases hmessage
  obtain ⟨hattached, hok⟩ := h.1 id msg attached hs
  have hsize : attached.length = (UInt32.ofNat attached.length).toNat := by
    rw [UInt32.toNat_ofNat', Nat.mod_eq_of_lt hattached]
  have hencodes := encodes_messageHeader c.inverts hok [] rfl (Nat.zero_le _) ⟨attached, _, hsize⟩
  rw [Send.package_of_message hs, Send.event, hs]
  rw [List.append_nil] at hencodes
  exact hencodes

theorem encodes_work {w : Work τ ο} (h : c.TakesWork w) (hsend : w.isSend = true)
    (hwhole : w.IsWhole sender.serialize) :
    Encodes c.head Decoder.WellFormed (w.package sender.serialize) (w.events sender.serialize) := by
  cases w with
  | send t s call => exact c.encodes_send h hwhole.1
  | heartbeat buf =>
    rcases hwhole with rfl | rfl
    · show Encodes _ _ (PkgHeader.make pkgContentHeartbeatRequest).image _
      exact encodes_heartbeat rfl rfl rfl (.inl ⟨rfl, by simp [Work.events]⟩)
    · show Encodes _ _ (PkgHeader.make pkgContentHeartbeatReply).image _
      refine encodes_heartbeat rfl rfl rfl (.inr ⟨rfl, ?_⟩)
      have hne : (PkgHeader.make pkgContentHeartbeatReply).image ≠
          (PkgHeader.make pkgContentHeartbeatRequest).image := by
        decide
      simp [Work.events, hne]
  | shutdown => cases hsend
  | startReading => cases hsend

theorem length_package_le {w : Work τ ο} (h : c.TakesWork w) (hwhole : w.IsWhole sender.serialize) :
    (w.package sender.serialize).length ≤ c.packageLimit := by
  cases w with
  | send t s call => exact h.2
  | heartbeat buf =>
    refine le_trans (le_of_eq ?_) c.heartbeatFits
    rcases hwhole with rfl | rfl <;> rfl
  | shutdown => exact Nat.zero_le _
  | startReading => exact Nat.zero_le _

theorem allGood_nil : AllGood c.head Decoder.WellFormed [] := fun ys hys => by
  cases hys with
  | here => exact Decoder.wellFormed_nil
  | next hx => cases hx

theorem forall₂_encodes {ws : List (Work τ ο)}
    (h : ∀ w ∈ ws, c.TakesWork w ∧ w.isSend = true ∧ w.IsWhole sender.serialize) :
    List.Forall₂ (Encodes c.head Decoder.WellFormed) (ws.map (Work.package sender.serialize))
      (ws.map (Work.events sender.serialize)) := by
  refine List.forall₂_map_left_iff.2 (List.forall₂_map_right_iff.2 (List.forall₂_same.2 ?_))
  exact fun w hw => c.encodes_work (h w hw).1 (h w hw).2.1 (h w hw).2.2

/-- What the receiver makes of the front of what was sent. -/
theorem decodes {ws : List (Work τ ο)}
    (h : ∀ w ∈ ws, c.TakesWork w ∧ w.isSend = true ∧ w.IsWhole sender.serialize) {bs : Bytes}
    (hbs : bs <+: ws.flatMap (Work.package sender.serialize)) :
    AllGood c.head Decoder.WellFormed bs ∧ ∃ k rest,
      bs = (ws.take k).flatMap (Work.package sender.serialize) ++ rest ∧
      decodeAll c.head bs = ((ws.take k).flatMap (Work.events sender.serialize), some rest) ∧
      rest.length < c.packageLimit := by
  have hs := Decoder.stable_head receiver.entry.cfg.maxValidPackageSize c.parsers
  have hitems := c.forall₂_encodes h
  rw [List.flatMap_def] at hbs
  refine ⟨?_, ?_⟩
  · have hgood := allGood_flatten c.allGood_nil hitems
    obtain ⟨more, hmore⟩ := hbs
    rw [← hmore] at hgood
    exact hgood.of_append hs
  · obtain ⟨k, rest, hfront, hdecode, hrest⟩ := decodeAll_isPrefix hs rfl c.allGood_nil hitems hbs
    rw [← List.map_take, ← List.flatMap_def] at hfront hdecode
    refine ⟨k, rest, hfront, hdecode, ?_⟩
    rcases hrest with rfl | ⟨part, hpart, hlt⟩
    · exact lt_of_lt_of_le (by decide) c.heartbeatFits
    · obtain ⟨w, hw, rfl⟩ := List.mem_map.1 hpart
      exact hlt.trans_le (c.length_package_le (h w hw).1 (h w hw).2.2)

/-- All of what was sent is taken. -/
theorem decodes_all {ws : List (Work τ ο)}
    (h : ∀ w ∈ ws, c.TakesWork w ∧ w.isSend = true ∧ w.IsWhole sender.serialize) :
    decodeAll c.head (ws.flatMap (Work.package sender.serialize)) =
      (ws.flatMap (Work.events sender.serialize), some []) := by
  rw [List.flatMap_def, List.flatMap_def]
  exact decodeAll_flatten (Decoder.stable_head _ _) rfl c.allGood_nil (c.forall₂_encodes h)

end Contract

/-! ## One direction -/

namespace Node

variable {env : NodeEnv ι ο}

section Step

variable [DecidableEq τ] {n n' : Node τ ι ο}

/-- What the socket took stays taken. -/
theorem Moves.taken_grows {a : NodeAction τ ο} (h : Moves env n a n') :
    taken n.connection.log <+: taken n'.connection.log := by
  cases h with
  | takesCall w strand c₁ c next begins goesOn =>
    exact (Net.Connection.taken_grows (by simp) begins).trans (Net.Connection.taken_grows (by simp) goesOn)
  | connection i c inner goesOn =>
    exact Net.Connection.taken_grows (Net.Connection.Input.ne_destroy_of_isInner inner) goesOn
  | reads bs c done => exact Net.Connection.taken_grows (by simp) done
  | _ => exact List.prefix_rfl

end Step

end Node

section Hears

variable {sender : NodeEnv ι ο} {receiver : NodeEnv ο ι} (c : Contract sender receiver)

/-- The entry has taken these bytes, and has found nothing wrong with any input. -/
structure Heard (handled : Bytes) (e : Entry ο) : Prop where
  ready : Entry.Ready e.pkgInput
  decoded : ∃ evs, decodeAll c.head handled = (evs, some e.pkgInput.contents) ∧ messages e.events = messages evs
  healthy : ∀ ctx, .terminate ctx ∈ e.events → ctx.reason.isOfInput = false

/-- What has come from the one node to the other. -/
structure Hears (s : Node τ ι ο) (r : Node τ' ο ι) : Prop where
  arrived : r.read <+: taken s.connection.log
  takes : ∀ w ∈ s.sent ++ s.strand, c.TakesWork w
  takesChecked : ∀ t send call, s.checked t = some (send, call) → c.Takes send
  chunks : ∀ buf, .input buf ∈ r.posted ++ Posted.ofFrame r.readBuffer r.connection.stack.head? → c.Reads buf
  heard : Heard c r.handled r.entry

variable {c} {s s' : Node τ ι ο} {r r' : Node τ' ο ι}

/-- The sender takes a step. -/
theorem Hears.sends [DecidableEq τ] {a : NodeAction τ ο} (h : Hears c s r) (hs : s.Sound sender) (ha : c.Sends a)
    (hstep : Node.Moves sender s a s') : Hears c s' r := by
  have harrived := h.arrived.trans hstep.taken_grows
  cases hstep with
  | dropped t send gone => exact { h with }
  | calls t send call idle message one =>
    refine { h with takesChecked := ?_ }
    intro t' send' call' hchecked
    dsimp only at hchecked
    rcases eq_or_ne t' t with rfl | hne
    · rw [Function.update_self] at hchecked
      cases hchecked
      exact ha
    · rw [Function.update_of_ne hne] at hchecked
      exact h.takesChecked t' send' call' hchecked
  | schedules t send call found =>
    refine { h with takes := ?_, takesChecked := ?_ }
    · intro w hw
      simp only [Node.scheduling, ← List.append_assoc, List.mem_append, List.mem_singleton] at hw
      rcases hw with hw | rfl
      · exact h.takes w (List.mem_append.2 hw)
      · exact h.takesChecked t send call found
    · intro t' send' call' hchecked
      dsimp only [Node.scheduling] at hchecked
      rcases eq_or_ne t' t with rfl | hne
      · rw [Function.update_self] at hchecked
        cases hchecked
      · rw [Function.update_of_ne hne] at hchecked
        exact h.takesChecked t' send' call' hchecked
  | places w outbox next =>
    refine { h with takes := ?_ }
    intro w' hw'
    simp only [← List.append_assoc, List.mem_append, List.mem_singleton] at hw'
    rcases hw' with hw' | rfl
    · exact h.takes w' (List.mem_append.2 hw')
    · -- the entry calls for no sends of threads
      have hwhole := hs.own w' (by simp [next])
      cases w' with
      | send t send call =>
        have hnone := hwhole t
        simp [Work.sendOf] at hnone
      | _ => trivial
  | takesCall w strand c₁ c' next begins goesOn =>
    refine { h with arrived := harrived, takes := ?_ }
    intro w' hw'
    refine h.takes w' ?_
    rw [next]
    simp only [Node.tookCall, List.mem_append, List.mem_cons] at hw' ⊢
    split at hw'
    · simp only [List.mem_append, List.mem_singleton] at hw'
      tauto
    · tauto
  | connection i c' inner goesOn => exact { h with arrived := harrived }
  | reads bs c' done => exact { h with arrived := harrived }
  | closes => exact { h with }
  | runs now p posted e next idle after => exact { h with }
  | checksHeartbeat now e idle after => exact { h with }

/-- More of what was sent comes to the entry. -/
theorem Heard.input {handled buf : Bytes} {e : Entry ο} {ws : List (Work τ ο)} (h : Heard c handled e)
    (hws : ∀ w ∈ ws, c.TakesWork w ∧ w.isSend = true ∧ w.IsWhole sender.serialize)
    (hfront : handled ++ buf <+: ws.flatMap (Work.package sender.serialize)) (hchunk : c.Reads buf) (now : Int) :
    ∃ e' evs, Entry.after receiver.entry ((e.pkgInput.contents ++ buf).length + 1) e (.input now buf) = some e' ∧
      Heard c (handled ++ buf) e' ∧ Entry.Takes e e' evs e'.pkgInput.contents ∧
      (decodeAll c.head (handled ++ buf)).1 = (decodeAll c.head handled).1 ++ evs := by
  have hstable := Decoder.stable_head receiver.entry.cfg.maxValidPackageSize c.parsers
  obtain ⟨evs, hdecode, hmessages⟩ := h.decoded
  -- what is left is the front of a package
  obtain ⟨-, _, rest, -, hbefore, hshort⟩ := c.decodes hws ((List.prefix_append handled buf).trans hfront)
  obtain ⟨hgood, _, rest', -, hwhole, -⟩ := c.decodes hws hfront
  rw [hdecode] at hbefore
  obtain rfl := Option.some.inj (Prod.mk.inj hbefore).2
  have hreaches := reaches_of_decodeAll hstable handled (hgood.of_append hstable) (congrArg Prod.snd hdecode)
  have hgood' := hgood.reaches (hreaches.append hstable hgood)
  have hfeed := decodeAll_append hstable buf handled hgood
  rw [hdecode, hwhole] at hfeed
  have hnext : decodeAll c.head (e.pkgInput.contents ++ buf) =
      ((decodeAll c.head (e.pkgInput.contents ++ buf)).1, some rest') :=
    Prod.ext rfl (Prod.mk.inj hfeed).2.symm
  have hsmall : (e.pkgInput.contents ++ buf).length < 2 ^ 31 := by
    unfold Contract.Reads at hchunk
    rw [List.length_append]
    omega
  obtain ⟨e', hafter, htakes⟩ := Entry.after_input_takes c.parses c.consumer now h.ready hsmall hgood' hnext
    (Nat.lt_succ_self _)
  refine ⟨e', _, hafter, ⟨htakes.ready, ⟨evs ++ (decodeAll c.head (e.pkgInput.contents ++ buf)).1, ?_, ?_⟩, ?_⟩,
    htakes.contents.symm ▸ htakes, by rw [hwhole, hdecode]; exact (Prod.mk.inj hfeed).1⟩
  · rw [hwhole, htakes.contents, (Prod.mk.inj hfeed).1]
  · rw [htakes.messages, hmessages, messages_append]
  · obtain ⟨new, hnew, -, htaking⟩ := htakes.events
    intro ctx hctx
    rw [hnew] at hctx
    exact (List.mem_append.1 hctx).elim (h.healthy ctx) fun hmem => (htaking _ hmem).elim

/-- What else the entry does has nothing to do with its input. -/
theorem Heard.other {handled : Bytes} {e : Entry ο} {i : Entry.Item} (h : Heard c handled e) (hi : i.IsOther)
    (fuel : Nat) : ∃ e', Entry.after receiver.entry fuel e i = some e' ∧ Heard c handled e' := by
  obtain ⟨e', hafter, hinput, new, hnew, hother, -⟩ := Entry.after_other hi e
  refine ⟨e', hafter, ?_, ?_, ?_⟩
  · rw [hinput]
    exact h.ready
  · obtain ⟨evs, hdecode, hmessages⟩ := h.decoded
    refine ⟨evs, hinput ▸ hdecode, ?_⟩
    rw [hnew, messages_append, messages_eq_nil hother, List.append_nil, hmessages]
  · intro ctx hctx
    rw [hnew] at hctx
    exact (List.mem_append.1 hctx).elim (h.healthy ctx) fun hmem => hother _ hmem

/-- The next work item of the receiver can be run, whatever it is. -/
theorem Hears.runs [DecidableEq τ] {p : Posted} {posted : List Posted} (h : Hears c s r) (hs : s.Sound sender)
    (hr : ∃ unhandled, r.read = r.handled ++ p.bytes ++ unhandled) (next : r.posted = p :: posted) (now : Int) :
    ∃ e, Entry.after receiver.entry (r.fuel (p.item now)) r.entry (p.item now) = some e ∧
      Heard c (r.handled ++ p.bytes) e := by
  cases p with
  | input buf =>
    obtain ⟨unhandled, hread⟩ := hr
    have hread : r.handled ++ buf <+: r.read := ⟨unhandled, hread.symm⟩
    have hfront := (hread.trans h.arrived).trans hs.driven.stands.intact.order
    rw [hs.accepted_eq] at hfront
    obtain ⟨e, -, hafter, hheard, -⟩ := h.heard.input (fun w hw =>
      ⟨h.takes w (by simp [hw]), hs.sends w hw, hs.whole w (by simp [hw])⟩) hfront (h.chunks buf (by simp [next])) now
    exact ⟨e, hafter, hheard⟩
  | connectionShutdown reason =>
    rw [show (Posted.connectionShutdown reason).bytes = [] from rfl, List.append_nil]
    exact h.heard.other (i := .connectionShutdown reason) trivial _
  | close =>
    rw [show Posted.close.bytes = [] from rfl, List.append_nil]
    exact h.heard.other (i := .close) trivial _

/-- The receiver takes a step; what it reads is on its way from the sender. -/
theorem Hears.receives [DecidableEq τ] [DecidableEq τ'] {a : NodeAction τ' ι} (h : Hears c s r) (hs : s.Sound sender)
    (hr : r.Sound receiver) (ha : c.Receives a)
    (harrives : ∀ bs, a = .reads bs → r.read ++ bs <+: taken s.connection.log)
    (hstep : Node.Moves receiver r a r') : Hears c s r' := by
  have hquiet : ∀ {stack : List Frame}, (∀ g ∈ stack, g.isEntering = false) → ∀ readBuffer buf,
      .input buf ∉ Posted.ofFrame readBuffer stack.head? := fun hframes =>
    Node.input_notMem_ofFrame (Node.not_input_of_quiet hframes)
  cases hstep with
  | takesCall w strand c₁ c' next begins goesOn =>
    obtain ⟨-, -, -, -, hframes⟩ := hr.driven.takesCall begins goesOn
    refine { h with chunks := fun buf hbuf => ?_ }
    rcases List.mem_append.1 hbuf with hbuf | hbuf
    · exact h.chunks buf (List.mem_append_left _ hbuf)
    · exact absurd hbuf (hquiet hframes _ buf)
  | connection i c' inner goesOn =>
    obtain ⟨-, -, hframes⟩ := hr.driven.inner inner goesOn
    refine { h with chunks := fun buf hbuf => ?_ }
    rcases List.mem_append.1 hbuf with hbuf | hbuf
    · exact h.chunks buf hbuf
    · exact absurd hbuf (hquiet hframes _ buf)
  | reads bs c' done =>
    obtain ⟨hstack, hstack', -, -⟩ := hr.driven.reads done
    refine { h with arrived := harrives bs rfl, chunks := fun buf hbuf => ?_ }
    dsimp only at hbuf
    rw [hstack'] at hbuf
    rcases List.mem_append.1 hbuf with hbuf | hbuf
    · exact h.chunks buf (List.mem_append_left _ hbuf)
    · cases List.mem_singleton.1 hbuf
      exact ha
  | closes =>
    refine { h with chunks := fun buf hbuf => h.chunks buf ?_ }
    simpa using hbuf
  | runs now p posted e next idle after =>
    obtain ⟨e', hafter, hheard⟩ := h.runs hs (hr.read_next next) next now
    cases after.symm.trans hafter
    refine ⟨h.arrived, h.takes, h.takesChecked, fun buf hbuf => h.chunks buf ?_, hheard⟩
    rw [next]
    exact List.mem_cons_of_mem _ hbuf
  | checksHeartbeat now e idle after =>
    obtain ⟨e', hafter, hheard⟩ := h.heard.other (i := .checkHeartbeat now) trivial 0
    cases after.symm.trans hafter
    exact { h with heard := hheard }
  | _ => exact { h with }

/-! ## What has come to the consumer -/

end Hears

/-! ## Both directions -/

structure LinkEnv (ι ο : Type) where
  left : NodeEnv ι ο
  right : NodeEnv ο ι

structure Link (τ τ' ι ο : Type) where
  left : Node τ ι ο
  right : Node τ' ο ι

inductive LinkAction (τ τ' ι ο : Type)
  | left (a : NodeAction τ ο)
  | right (a : NodeAction τ' ι)

theorem hears_init {sender : NodeEnv ι ο} {receiver : NodeEnv ο ι} (c : Contract sender receiver)
    (sh sh' : ShutdownHandler) (now : Int) :
    Hears c (Node.init sender sh now : Node τ ι ο) (Node.init receiver sh' now : Node τ' ο ι) where
  arrived := List.nil_prefix
  takes w hw := by
    obtain rfl : w = .startReading := by simpa [Node.init] using hw
    trivial
  takesChecked t send call h := by cases h
  chunks buf h := by simp [Node.init, Posted.ofFrame] at h
  heard := ⟨Entry.ready_init _ _ _, ⟨[], rfl, rfl⟩, fun ctx h => by cases h⟩

/-- What is read comes next in what the socket of the peer took. -/
def Node.arrives (n : Node τ ι ο) (peer : Connection) : NodeAction τ ο → Bool
  | .reads bs => decide (n.read ++ bs <+: taken peer.log)
  | _ => true

theorem Node.reads_of_arrives {n : Node τ ι ο} {peer : Connection} {a : NodeAction τ ο} (h : n.arrives peer a = true)
    {bs : Bytes} (ha : a = .reads bs) : n.read ++ bs <+: taken peer.log := by
  rw [ha] at h
  exact of_decide_eq_true h

namespace Link

section Step

variable [DecidableEq τ] [DecidableEq τ']

def init (env : LinkEnv ι ο) (leftHandler rightHandler : ShutdownHandler) (now : Int) : Link τ τ' ι ο where
  left := .init env.left leftHandler now
  right := .init env.right rightHandler now

def step (env : LinkEnv ι ο) (l : Link τ τ' ι ο) : LinkAction τ τ' ι ο → Option (Link τ τ' ι ο)
  | .left a =>
    if l.left.arrives l.right.connection a then (Node.step env.left l.left a).map fun n => { l with left := n }
    else none
  | .right a =>
    if l.right.arrives l.left.connection a then (Node.step env.right l.right a).map fun n => { l with right := n }
    else none

variable {env : LinkEnv ι ο} {rightward : Contract env.left env.right} {leftward : Contract env.right env.left}
  {l l' : Link τ τ' ι ο}

/-- What is sent and read is as both ends expect it. -/
def Expected (env : LinkEnv ι ο) (rightward : Contract env.left env.right) (leftward : Contract env.right env.left) :
    LinkAction τ τ' ι ο → Prop
  | .left a => rightward.Sends a ∧ leftward.Receives a
  | .right a => leftward.Sends a ∧ rightward.Receives a

structure Sound (rightward : Contract env.left env.right) (leftward : Contract env.right env.left)
    (l : Link τ τ' ι ο) : Prop where
  left : l.left.Sound env.left
  right : l.right.Sound env.right
  rightward : Hears rightward l.left l.right
  leftward : Hears leftward l.right l.left

theorem Sound.step {a : LinkAction τ τ' ι ο} (h : l.Sound rightward leftward) (ha : Expected env rightward leftward a)
    (hstep : step env l a = some l') : l'.Sound rightward leftward := by
  cases a with
  | left a =>
    simp only [Link.step] at hstep
    split at hstep
    next harrives =>
      obtain ⟨n, hn, rfl⟩ := Option.map_eq_some_iff.1 hstep
      have hmoves := Node.moves_of_step hn
      exact ⟨hmoves.sound h.left, h.right, h.rightward.sends h.left ha.1 hmoves,
        h.leftward.receives h.right h.left ha.2 (fun _ => Node.reads_of_arrives harrives) hmoves⟩
    next => cases hstep
  | right a =>
    simp only [Link.step] at hstep
    split at hstep
    next harrives =>
      obtain ⟨n, hn, rfl⟩ := Option.map_eq_some_iff.1 hstep
      have hmoves := Node.moves_of_step hn
      exact ⟨h.left, hmoves.sound h.right,
        h.rightward.receives h.left h.right ha.2 (fun _ => Node.reads_of_arrives harrives) hmoves,
        h.leftward.sends h.right ha.1 hmoves⟩
    next => cases hstep

theorem sound_run {leftHandler rightHandler : ShutdownHandler} {now : Int} {actions : List (LinkAction τ τ' ι ο)}
    (hactions : ∀ a ∈ actions, Expected env rightward leftward a)
    (hrun : execute (step env) (init env leftHandler rightHandler now) actions = some l) :
    l.Sound rightward leftward :=
  execute_invariant (P := fun _ => Expected env rightward leftward) (fun _ _ _ h ha hstep => h.step ha hstep) actions
    ⟨Node.sound_init _ _ _, Node.sound_init _ _ _, hears_init rightward _ _ _, hears_init leftward _ _ _⟩
    (Along.of_forall hactions) hrun

end Step

def plainLink : LinkEnv Bytes Bytes := ⟨Node.plainNode, Node.plainNode⟩

/-- Each end takes messages of bytes of the one type. -/
def plainContract : Contract Node.plainNode Node.plainNode where
  parsers := Entry.rawParsers
  ofType _ _ := True
  packageLimit := 100
  parses := Entry.parsesAs_raw
  inverts id parse msg hparse _ := by
    unfold Entry.rawParsers at hparse
    split at hparse
    · cases hparse
      rfl
    · cases hparse
  consumer _ := rfl
  heartbeatFits := by decide

/-- A message to the right that is read in two chunks. -/
def oneMessage : List (LinkAction Unit Unit Bytes Bytes) :=
  [.left .takesCall, .right .takesCall, .left (.calls () (.send 1 [7])), .left (.schedules ()), .left .takesCall,
    .left (.connection .none), .left (.connection (.result ⟨none, 13⟩)), .left (.connection .none),
    .right (.reads [0, 3, 1]), .right (.connection (.calls [])), .right (.connection .none),
    .right (.connection .none), .right (.runs 1), .right (.reads [0, 1, 0, 0, 0, 0, 0, 0, 0, 7]),
    .right (.connection (.calls [])), .right (.runs 2)]

theorem expected_oneMessage : ∀ a ∈ oneMessage, Expected plainLink plainContract plainContract a := by
  simp [oneMessage, Expected, Contract.Sends, Contract.Receives, Contract.Reads, Contract.Takes, Send.message?,
    Package.MessageOk, plainContract, Entry.rawParsers, Send.package, plainLink, Node.plainNode, Entry.plainEnv]
  refine ⟨?_, by decide⟩
  rintro id msg attached rfl rfl rfl
  decide

/-- The entry has not given up for its input, and what is next on its strand can be run. -/
structure Untroubled (env : NodeEnv ι ο) [DecidableEq τ] (n : Node τ ι ο) : Prop where
  reasons : ∀ ctx, .terminate ctx ∈ n.entry.events → ctx.reason.isOfInput = false
  runs : n.posted ≠ [] → n.outbox = [] → ∀ now, (Node.step env n (.runs now)).isSome
  checks : n.outbox = [] → ∀ now, (Node.step env n (.checksHeartbeat now)).isSome

end Link

section Untroubled

variable {sender : NodeEnv ι ο} {receiver : NodeEnv ο ι} {c : Contract sender receiver} {s : Node τ ι ο}
  {r : Node τ' ο ι}

theorem Hears.untroubled [DecidableEq τ] [DecidableEq τ'] (h : Hears c s r) (hs : s.Sound sender)
    (hr : r.Sound receiver) : Link.Untroubled receiver r := by
  refine ⟨h.heard.healthy, fun hposted hidle now => ?_, fun hidle now => ?_⟩
  · obtain ⟨p, posted, next⟩ := List.exists_cons_of_ne_nil hposted
    obtain ⟨e, hafter, -⟩ := h.runs hs (hr.read_next next) next now
    have hrun : ∀ i : Entry.Item, i = p.item now → ((r.tookItem p posted).runItem receiver i).isSome := by
      rintro i rfl
      exact (congrArg Option.isSome (congrArg (Option.map (r.tookItem p posted).ran) hafter)).trans rfl
    simp only [Node.step, next, hidle, List.isEmpty_nil, if_true]
    cases p <;> exact hrun _ rfl
  · obtain ⟨e, hafter, -⟩ := h.heard.other (i := .checkHeartbeat now) trivial 0
    simp only [Node.step, hidle, List.isEmpty_nil, if_true]
    exact (congrArg Option.isSome (congrArg (Option.map r.ran) hafter)).trans rfl

end Untroubled

namespace Link

variable [DecidableEq τ] [DecidableEq τ'] {l : Link τ τ' ι ο}

/-- However they take turns, neither end gives up for its input, and no assertion of either entry fails: where the
consumers throw nothing, every send makes one call, of a package that the other end takes, and no chunk is longer than
a package of the limit leaves of 2 GiB. -/
theorem input_is_never_the_reason (env : LinkEnv ι ο) (rightward : Contract env.left env.right)
    (leftward : Contract env.right env.left) (leftHandler rightHandler : ShutdownHandler) (now : Int)
    {actions : List (LinkAction τ τ' ι ο)} (hactions : ∀ a ∈ actions, Expected env rightward leftward a)
    (hrun : execute (step env) (init env leftHandler rightHandler now) actions = some l) :
    Untroubled env.left l.left ∧ Untroubled env.right l.right := by
  have h := sound_run hactions hrun
  exact ⟨h.leftward.untroubled h.right h.left, h.rightward.untroubled h.left h.right⟩

theorem input_is_never_the_reason_one : ∃ l : Link Unit Unit Bytes Bytes,
    execute (step plainLink) (init plainLink .notSupplied .notSupplied 0)
      oneMessage = some l ∧ l.right.handled.length = 13 ∧
      Untroubled Node.plainNode l.left ∧ Untroubled Node.plainNode l.right := by
  obtain ⟨l, hrun, hhandled⟩ := exists_execute (step plainLink)
    (init plainLink .notSupplied .notSupplied 0 : Link Unit Unit Bytes Bytes) oneMessage
    (fun l => l.right.handled.length = 13) (by decide +kernel)
  exact ⟨l, hrun, hhandled, input_is_never_the_reason plainLink plainContract plainContract
    .notSupplied .notSupplied 0 expected_oneMessage hrun⟩

end Link

end Opio.ProtoEntry
