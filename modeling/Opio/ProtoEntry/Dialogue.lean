/-
Two entries in time, each the peer of the other. What one of them sends is on its way for a time that is
bounded, and comes to the other in order, in pieces of any size. An entry asks for a sign of life when it has
had no input for a while, and the other one answers what it was asked as soon as it reads it; so where the
configured times leave enough for the way there and back, neither is given up for want of a reply while the
other is up. As on a link, each end takes what the other sends; consumers and shutdown handlers throw nothing.
-/
import Opio.ProtoEntry.Link
import Opio.ProtoEntry.ResponsivePeer

namespace Opio.ProtoEntry

open Incremental
open Entry (SendsHeartbeats)
open scoped List

variable {ι ο : Type}

/-! ## The two ends -/

/-- An entry in time, the calls that it made and when, and the bytes it read of what was sent to it. -/
structure Party (ι ο : Type) where
  watched : Watched ι
  sent : List (Int × Work Unit ο) := []
  handled : Bytes := []

inductive PartyAction (ο : Type)
  /-- The entry or its timer takes a turn without input. -/
  | turns (turn : Turn)
  /-- `send` is called. -/
  | sends (s : Send ο)
  /-- The next bytes of what is on its way are read. -/
  | reads (n : Nat)

/-- Neither time nor input. -/
def Turn.isOwn : Turn → Bool
  | .pass _ => false
  | .input _ => false
  | _ => true

/-- The bytes that were sent, each with the time it was sent at. -/
def stamped (serialize : ο → Bytes) (sent : List (Int × Work Unit ο)) : List (Int × UInt8) :=
  sent.flatMap fun x => (x.2.package serialize).map (x.1, ·)

namespace Party

def entry (p : Party ι ο) : Entry ι := p.watched.timed.entry

def clock (p : Party ι ο) : Int := p.watched.timed.clock

/-- What the one has sent and the other has not read. -/
def onTheWay (serialize : ο → Bytes) (sender : Party ι ο) (receiver : Party ο ι) : List (Int × UInt8) :=
  (stamped serialize sender.sent).drop receiver.handled.length

/-- After a turn, with the calls that the entry made in it. -/
def ran (p : Party ι ο) (w : Watched ι) : Party ι ο :=
  { p with
    watched := w
    sent := p.sent ++ (((w.timed.entry.events.drop p.entry.events.length).filterMap Work.ofEvent).filter
      Work.isSend).map (p.clock, ·) }

/-- `send`, which goes on if it finds the entry active. -/
def call (env : NodeEnv ι ο) (p : Party ι ο) (s : Send ο) : Option (Party ι ο) :=
  if s.isMessage then
    match s.calls env.serialize with
    -- the image of the package cannot be made
    | [] => some p
    | [call] =>
      some (if p.entry.connectionIsActive then { p with sent := p.sent ++ [(p.clock, .send () s call)] } else p)
    | _ => none
  else none

def step (env : NodeEnv ι ο) (arriving : Bytes) (p : Party ι ο) : PartyAction ο → Option (Party ι ο)
  | .turns turn => if turn.isOwn then (Watched.step env.entry 0 p.watched turn).map p.ran else none
  | .sends s => p.call env s
  | .reads n =>
    let buf := arriving.take n
    (Watched.step env.entry ((p.entry.pkgInput.contents ++ buf).length + 1) p.watched (.input buf)).map fun w =>
      { p.ran w with handled := p.handled ++ buf }

end Party

structure Dialogue (ι ο : Type) where
  left : Party ι ο
  right : Party ο ι

inductive DialogueAction (ι ο : Type)
  | pass (d : Nat)
  | left (a : PartyAction ο)
  | right (a : PartyAction ι)

/-- How long what is sent is on its way, and how late the checks run. There and back is no longer than the time to
reply of either pace. -/
structure Timing (env : LinkEnv ι ο) where
  delay : Int
  delay_pos : 0 < delay
  left : Pace env.left.entry
  right : Pace env.right.entry
  thereAndBack : 2 * delay ≤ left.reply
  backAndThere : 2 * delay ≤ right.reply

namespace Dialogue

open Party

def init (env : LinkEnv ι ο) (leftHandler rightHandler : ShutdownHandler) (now : Int) : Dialogue ι ο where
  left := { watched := .start env.left.entry leftHandler now }
  right := { watched := .start env.right.entry rightHandler now }

def toLeft (env : LinkEnv ι ο) (d : Dialogue ι ο) : List (Int × UInt8) :=
  onTheWay env.right.serialize d.right d.left

def toRight (env : LinkEnv ι ο) (d : Dialogue ι ο) : List (Int × UInt8) :=
  onTheWay env.left.serialize d.left d.right

def step (env : LinkEnv ι ο) (d : Dialogue ι ο) : DialogueAction ι ο → Option (Dialogue ι ο)
  | .pass n => do
    let l ← Watched.step env.left.entry 0 d.left.watched (.pass n)
    let r ← Watched.step env.right.entry 0 d.right.watched (.pass n)
    return { left := { d.left with watched := l }, right := { d.right with watched := r } }
  | .left a => (Party.step env.left ((d.toLeft env).map Prod.snd) d.left a).map fun p => { d with left := p }
  | .right a => (Party.step env.right ((d.toRight env).map Prod.snd) d.right a).map fun p => { d with right := p }

/-- As long as both ends are up, time passes only as long as no check is overdue and nothing is on its way for
too long. -/
def InTime {env : LinkEnv ι ο} (t : Timing env) (d : Dialogue ι ο) : DialogueAction ι ο → Prop
  | .pass n => d.left.entry.connectionIsActive = true → d.right.entry.connectionIsActive = true →
    d.left.clock + n ≤ d.left.watched.due + t.left.late ∧ d.right.clock + n ≤ d.right.watched.due + t.right.late ∧
    (∀ x ∈ d.toLeft env, d.left.clock + n < x.1 + t.delay) ∧ ∀ x ∈ d.toRight env, d.left.clock + n < x.1 + t.delay
  | _ => True

instance {env : LinkEnv ι ο} (t : Timing env) (d : Dialogue ι ο) : ∀ a, Decidable (InTime t d a)
  | .pass n => inferInstanceAs (Decidable (d.left.entry.connectionIsActive = true →
    d.right.entry.connectionIsActive = true →
    d.left.clock + n ≤ d.left.watched.due + t.left.late ∧ d.right.clock + n ≤ d.right.watched.due + t.right.late ∧
    (∀ x ∈ d.toLeft env, d.left.clock + n < x.1 + t.delay) ∧ ∀ x ∈ d.toRight env, d.left.clock + n < x.1 + t.delay))
  | .left _ => isTrue trivial
  | .right _ => isTrue trivial

end Dialogue

/-! ## What is on its way -/

section Stamped

variable {serialize : ο → Bytes}

@[simp] theorem stamped_append (sent sent' : List (Int × Work Unit ο)) :
    stamped serialize (sent ++ sent') = stamped serialize sent ++ stamped serialize sent' := List.flatMap_append

/-- The packages without their times. -/
theorem map_snd_stamped (sent : List (Int × Work Unit ο)) :
    (stamped serialize sent).map Prod.snd = (sent.map Prod.snd).flatMap (Work.package serialize) := by
  unfold stamped
  rw [List.map_flatMap, List.flatMap_map]
  refine List.flatMap_congr fun x _ => ?_
  rw [List.map_map]
  exact List.map_id _

theorem length_stamped (sent : List (Int × Work Unit ο)) :
    (stamped serialize sent).length = ((sent.map Prod.snd).flatMap (Work.package serialize)).length := by
  rw [← map_snd_stamped, List.length_map]

theorem stamp_of_mem {t : Int} {ws : List (Work Unit ο)} {x : Int × UInt8}
    (h : x ∈ stamped serialize (ws.map (t, ·))) : x.1 = t := by
  obtain ⟨y, hy, hx⟩ := List.mem_flatMap.1 h
  obtain ⟨w, -, rfl⟩ := List.mem_map.1 hy
  obtain ⟨b, -, rfl⟩ := List.mem_map.1 hx
  rfl

/-- Bytes that were sent and are not among the first that were read. -/
theorem mem_drop_stamped {before : List (Int × Work Unit ο)} {t : Int} {w : Work Unit ο} {n : Nat}
    (after : List (Int × Work Unit ο))
    (hn : n < (stamped serialize (before ++ [(t, w)])).length) (hpos : w.package serialize ≠ []) :
    ∃ x ∈ (stamped serialize (before ++ (t, w) :: after)).drop n, x.1 = t := by
  have hsplit : before ++ (t, w) :: after = (before ++ [(t, w)]) ++ after := by simp
  -- the last of its bytes
  obtain ⟨bs, b, hb⟩ : ∃ bs b, w.package serialize = bs ++ [b] :=
    ⟨_, _, (List.dropLast_append_getLast hpos).symm⟩
  have hlast : stamped serialize (before ++ [(t, w)]) = stamped serialize before ++ bs.map (t, ·) ++ [(t, b)] := by
    simp [stamped, hb]
  rw [hlast, List.length_append, List.length_singleton] at hn
  refine ⟨(t, b), ?_, rfl⟩
  rw [hsplit, stamped_append, hlast, List.append_assoc, List.drop_append_of_le_length (by omega)]
  simp

end Stamped

/-! ## Answers -/

section Answers

variable {sender : NodeEnv ι ο} {receiver : NodeEnv ο ι} {c : Contract sender receiver}

/-- A package that is read to its end is taken. -/
theorem Contract.taken_of_whole {before after : List (Work Unit ο)} {w : Work Unit ο}
    (hws : ∀ w' ∈ before ++ w :: after, c.TakesWork w' ∧ w'.isSend = true ∧ w'.IsWhole sender.serialize)
    {handled buf : Bytes} (hfront : handled ++ buf <+: (before ++ w :: after).flatMap (Work.package sender.serialize))
    (hnot : handled.length < ((before ++ [w]).flatMap (Work.package sender.serialize)).length)
    (hdone : ((before ++ [w]).flatMap (Work.package sender.serialize)).length ≤ (handled ++ buf).length)
    {evs : List (Event ο)} (hevs : (decodeAll c.head (handled ++ buf)).1 = (decodeAll c.head handled).1 ++ evs) :
    ∀ ev ∈ w.events sender.serialize, ev ∈ evs := by
  have hs := Decoder.stable_head receiver.entry.cfg.maxValidPackageSize c.parsers
  have hsplit : before ++ w :: after = (before ++ [w]) ++ after := by simp
  -- before, only packages in front of this one were taken
  obtain ⟨-, k, rest, hhandled, hdecode, -⟩ := c.decodes hws ((List.prefix_append handled buf).trans hfront)
  have hk : k ≤ before.length := by
    by_contra hlt
    have hprefix : before ++ [w] <+: (before ++ w :: after).take k := by
      rw [hsplit, List.take_append]
      have hall : (before ++ [w]).take k = before ++ [w] :=
        List.take_of_length_le (by simp only [List.length_append, List.length_singleton]; omega)
      exact List.prefix_append_of_prefix ⟨[], by rw [List.append_nil, hall]⟩
    obtain ⟨more, hmore⟩ := hprefix
    rw [hhandled, ← hmore, List.flatMap_append, List.length_append, List.length_append] at hnot
    omega
  rw [List.take_append_of_le_length hk] at hdecode
  -- and now this one is among the ones that are
  have hwhole : (before ++ [w]).flatMap (Work.package sender.serialize) <+: handled ++ buf := by
    refine List.prefix_of_prefix_length_le ⟨after.flatMap (Work.package sender.serialize), ?_⟩ hfront hdone
    rw [← List.flatMap_append, ← hsplit]
  obtain ⟨more, hmore⟩ := hwhole
  obtain ⟨hgood, -⟩ := c.decodes hws hfront
  rw [← hmore] at hgood
  have hall := decodeAll_append hs more _ hgood
  rw [c.decodes_all fun w' hw' => hws w' (hsplit ▸ List.mem_append_left _ hw')] at hall
  rw [← hmore, hall, hdecode, List.flatMap_append] at hevs
  change (before.flatMap _ ++ List.flatMap _ [w]) ++ _ = _ at hevs
  nth_rewrite 1 [← List.take_append_drop k before] at hevs
  rw [List.flatMap_append, List.append_assoc, List.append_assoc, List.append_cancel_left_eq] at hevs
  intro ev hev
  rw [← hevs]
  simp [hev]

end Answers

/-! ## The invariant -/

section Invariant

variable {own : NodeEnv ι ο} {peer : NodeEnv ο ι} {there : Contract own peer} {back : Contract peer own} {delay : Int}
  {pace : Pace own.entry} {peerPace : Pace peer.entry} {p p' : Party ι ο} {q q' : Party ο ι}

/-- What the one sends to the other: it comes in time, and the other takes it. -/
structure Way (c : Contract own peer) (delay : Int) (s : Party ι ο) (r : Party ο ι) : Prop where
  front : r.handled <+: (s.sent.map Prod.snd).flatMap (Work.package own.serialize)
  takes : ∀ x ∈ s.sent, c.TakesWork x.2 ∧ x.2.isSend = true ∧ x.2.IsWhole own.serialize
  heartbeats : SendsHeartbeats s.entry
  heard : Heard c r.handled r.entry
  soon : ∀ x ∈ s.onTheWay own.serialize r, s.clock < x.1 + delay

/-- The request of that time is on its way to the peer, or something that the peer sent soon after it is on its way
back. -/
def Awaits (own : NodeEnv ι ο) (peer : NodeEnv ο ι) (delay : Int) (p : Party ι ο) (q : Party ο ι) (asked : Int) :
    Prop :=
  (∃ before after, p.sent = before ++ (asked, .heartbeat (PkgHeader.make pkgContentHeartbeatRequest).image) :: after ∧
    q.handled.length < (stamped own.serialize
      (before ++ [(asked, .heartbeat (PkgHeader.make pkgContentHeartbeatRequest).image)])).length) ∨
  ∃ x ∈ q.onTheWay peer.serialize p, x.1 < asked + delay

/-- Two parties that are up. -/
structure Good (there : Contract own peer) (back : Contract peer own) (delay : Int) (pace : Pace own.entry)
    (peerPace : Pace peer.entry) (p : Party ι ο) (q : Party ο ι) : Prop where
  clock : q.clock = p.clock
  there : Way there delay p q
  back : Way back delay q p
  kept : Watched.Kept pace p.watched
  peerKept : Watched.Kept peerPace q.watched
  asks : ∀ asked ∈ p.watched.asked, Awaits own peer delay p q asked
  peerAsks : ∀ asked ∈ q.watched.asked, Awaits peer own delay q p asked

theorem Good.symm (h : Good there back delay pace peerPace p q) : Good back there delay peerPace pace q p where
  clock := h.clock.symm
  there := h.back
  back := h.there
  kept := h.peerKept
  peerKept := h.kept
  asks := h.peerAsks
  peerAsks := h.asks

theorem Way.handled_le (h : Way there delay p q) : q.handled.length ≤ (stamped own.serialize p.sent).length := by
  rw [length_stamped]
  exact h.front.length_le

/-- More is sent, and none of it is read yet. -/
theorem onTheWay_grows (h : Way there delay p q) {sent : List (Int × Work Unit ο)} (hsent : p'.sent = p.sent ++ sent) :
    p'.onTheWay own.serialize q = p.onTheWay own.serialize q ++ stamped own.serialize sent := by
  unfold Party.onTheWay
  rw [hsent, stamped_append, List.drop_append_of_le_length h.handled_le]

theorem Way.grows (h : Way there delay p q) (hdelay : 0 < delay) {ws : List (Work Unit ο)}
    (hsent : p'.sent = p.sent ++ ws.map (p.clock, ·)) (hclock : p'.clock = p.clock)
    (hws : ∀ w ∈ ws, there.TakesWork w ∧ w.isSend = true ∧ w.IsWhole own.serialize)
    (hheartbeats : SendsHeartbeats p'.entry) : Way there delay p' q := by
  refine ⟨?_, fun x hx => ?_, hheartbeats, h.heard, fun x hx => ?_⟩
  · rw [hsent, List.map_append, List.flatMap_append]
    exact h.front.trans (List.prefix_append _ _)
  · rw [hsent] at hx
    rcases List.mem_append.1 hx with hx | hx
    · exact h.takes x hx
    · obtain ⟨w, hw, rfl⟩ := List.mem_map.1 hx
      exact hws w hw
  · rw [onTheWay_grows h hsent] at hx
    rw [hclock]
    rcases List.mem_append.1 hx with hx | hx
    · exact h.soon x hx
    · rw [stamp_of_mem hx]
      omega

/-- The next bytes are read. -/
theorem Way.reads (h : Way back delay q p) {buf : Bytes} (hhandled : p'.handled = p.handled ++ buf)
    (hfront : p.handled ++ buf <+: (q.sent.map Prod.snd).flatMap (Work.package peer.serialize))
    (hheard : Heard back p'.handled p'.entry) : Way back delay q p' := by
  refine ⟨hhandled ▸ hfront, h.takes, h.heartbeats, hheard, fun x hx => h.soon x ?_⟩
  unfold Party.onTheWay at hx ⊢
  rw [hhandled, List.length_append, ← List.drop_drop] at hx
  exact List.mem_of_mem_drop hx

/-- The one that asked sends more. -/
theorem Awaits.grows {asked : Int} (h : Awaits own peer delay p q asked) {sent : List (Int × Work Unit ο)}
    (hsent : p'.sent = p.sent ++ sent) (hhandled : p'.handled = p.handled) : Awaits own peer delay p' q asked := by
  rcases h with ⟨before, after, hasked, hnot⟩ | hanswered
  · refine .inl ⟨before, after ++ sent, ?_, hnot⟩
    rw [hsent, hasked, List.append_assoc]
    rfl
  · refine .inr ?_
    unfold Party.onTheWay at hanswered ⊢
    rwa [hhandled]

/-- The one that was asked sends more. -/
theorem Awaits.peer_grows {asked : Int} (h : Awaits peer own delay q p asked) (hway : Way there delay p q)
    {sent : List (Int × Work Unit ο)} (hsent : p'.sent = p.sent ++ sent) (hhandled : p'.handled = p.handled) :
    Awaits peer own delay q p' asked := by
  rcases h with ⟨before, after, hasked, hnot⟩ | ⟨x, hx, hlt⟩
  · exact .inl ⟨before, after, hasked, hhandled.symm ▸ hnot⟩
  · refine .inr ⟨x, ?_, hlt⟩
    rw [onTheWay_grows hway hsent]
    exact List.mem_append_left _ hx

theorem request_ne_nil : (PkgHeader.make pkgContentHeartbeatRequest).image ≠ [] := by decide

theorem reply_ne_nil : (PkgHeader.make pkgContentHeartbeatReply).image ≠ [] := by decide

/-- A request that is read to its end is answered. -/
theorem Awaits.peer_reads {asked : Int} (h : Awaits peer own delay q p asked) (hclock : q.clock = p.clock)
    (hthere : Way there delay p q) (hback : Way back delay q p) {ws : List (Work Unit ο)} {buf : Bytes}
    (hsent : p'.sent = p.sent ++ ws.map (p.clock, ·)) (hhandled : p'.handled = p.handled ++ buf)
    (hfront : p.handled ++ buf <+: (q.sent.map Prod.snd).flatMap (Work.package peer.serialize)) {evs : List (Event ι)}
    (hevs : (decodeAll back.head (p.handled ++ buf)).1 = (decodeAll back.head p.handled).1 ++ evs)
    (hreplies : .scheduleSend (PkgHeader.make pkgContentHeartbeatReply).image ∈ evs →
      .heartbeat (PkgHeader.make pkgContentHeartbeatReply).image ∈ ws) : Awaits peer own delay q p' asked := by
  rcases h with ⟨before, after, hasked, hnot⟩ | ⟨x, hx, hlt⟩
  · rcases Nat.lt_or_ge p'.handled.length (stamped peer.serialize
        (before ++ [(asked, .heartbeat (PkgHeader.make pkgContentHeartbeatRequest).image)])).length with hpart | hdone
    · exact .inl ⟨before, after, hasked, hpart⟩
    · -- the request was on its way until now, so it is answered soon
      obtain ⟨x, hx, hstamp⟩ := mem_drop_stamped after hnot request_ne_nil
      have hsoon : q.clock < asked + delay := by
        rw [← hstamp]
        refine hback.soon x ?_
        unfold Party.onTheWay
        rwa [hasked]
      have hreply : .heartbeat (PkgHeader.make pkgContentHeartbeatReply).image ∈ ws := by
        refine hreplies ?_
        rw [length_stamped, List.map_append] at hnot hdone
        rw [hhandled] at hdone
        rw [hasked, List.map_append, List.map_cons] at hfront
        refine Contract.taken_of_whole (fun w hw => ?_) hfront hnot hdone hevs _ ?_
        · have hmem : w ∈ q.sent.map Prod.snd := by rwa [hasked, List.map_append, List.map_cons]
          obtain ⟨y, hy, rfl⟩ := List.mem_map.1 hmem
          exact hback.takes y hy
        · simp [Work.events]
      obtain ⟨b, bs, hb⟩ := List.exists_cons_of_ne_nil reply_ne_nil
      refine .inr ⟨(p.clock, b), ?_, hclock ▸ hsoon⟩
      rw [onTheWay_grows hthere hsent]
      refine List.mem_append_right _ (List.mem_flatMap.2 ⟨_, List.mem_map_of_mem hreply, ?_⟩)
      refine List.mem_map_of_mem ?_
      show b ∈ (PkgHeader.make pkgContentHeartbeatReply).image
      rw [hb]
      exact List.mem_cons_self
  · refine .inr ⟨x, ?_, hlt⟩
    rw [onTheWay_grows hthere hsent]
    exact List.mem_append_left _ hx

/-- What is asked is answered in time. -/
theorem Awaits.inTime {asked now : Int} (h : Awaits own peer delay p q asked)
    (hthere : ∀ x ∈ p.onTheWay own.serialize q, now < x.1 + delay)
    (hback : ∀ x ∈ q.onTheWay peer.serialize p, now < x.1 + delay) (hdelay : 0 < delay) : now < asked + 2 * delay := by
  rcases h with ⟨before, after, hasked, hnot⟩ | ⟨x, hx, hlt⟩
  · obtain ⟨x, hx, rfl⟩ := mem_drop_stamped after hnot request_ne_nil
    rw [← hasked] at hx
    have := hthere x hx
    omega
  · have := hback x hx
    omega

/-! ## Turns -/

/-- What a turn without input leaves alone. -/
theorem own_turn {c : Contract peer own} {handled : Bytes} {s s' : Timed ι} {turn : Turn} (hown : turn.isOwn = true)
    (hheard : Heard c handled s.entry) (hsends : SendsHeartbeats s.entry)
    (hstep : Timed.step own.entry 0 s turn = some s') :
    Heard c handled s'.entry ∧ SendsHeartbeats s'.entry ∧ s'.clock = s.clock := by
  have hitem : ∀ {s₁ : Timed ι} {i : Entry.Item}, i.IsOther → Heard c handled s₁.entry → SendsHeartbeats s₁.entry →
      s₁.runItem own.entry 0 i = some s' →
        Heard c handled s'.entry ∧ SendsHeartbeats s'.entry ∧ s'.clock = s₁.clock := by
    intro s₁ i hi hheard hsends hrun
    obtain ⟨e, hafter, rfl⟩ := Timed.runItem_cases hrun
    obtain ⟨e', hafter', hheard'⟩ := hheard.other hi 0
    obtain rfl := Option.some.inj (hafter.symm.trans hafter')
    exact ⟨hheard', Entry.after_heartbeats hsends hafter, rfl⟩
  have htimer : ∀ t : Timer, Heard c handled (s.withTimer t).entry := fun t =>
    ⟨hheard.ready, hheard.decoded, hheard.healthy⟩
  cases turn with
  | pass d => cases hown
  | input buf => cases hown
  | expire =>
    obtain ⟨t, ht, rfl⟩ := Option.map_eq_some_iff.1 hstep
    obtain ⟨-, -, -, rfl⟩ := Timer.expire_cases ht
    exact ⟨htimer _, hsends, rfl⟩
  | check =>
    cases ht : s.timer.take with
    | none =>
      rw [Timed.step, ht] at hstep
      cases hstep
    | some t =>
      rw [Timed.step, ht] at hstep
      obtain ⟨hheard', hsends', hclock⟩ := hitem (i := .checkHeartbeat s.clock) trivial (htimer t) hsends hstep
      exact ⟨hheard', hsends', hclock.trans (Timer.clock_take ht)⟩
  | close => exact hitem (i := .close) trivial hheard hsends hstep
  | connectionShutdown reason => exact hitem (i := .connectionShutdown reason) trivial hheard hsends hstep

/-- A request that is not answered yet stays the one that is. -/
theorem asked_watch {w : Watched ι} (h : Watched.Kept pace w) {s : Timed ι}
    (hsent : s.entry.heartbeatSentCount = w.timed.entry.heartbeatSentCount) : (w.watch s).asked = w.asked := by
  by_cases hzero : w.timed.entry.heartbeatSentCount = 0
  · rw [(h.unasked hzero).1]
    exact Watched.asked_watch_of_none (hsent.trans hzero)
  · obtain ⟨asked, hasked, -⟩ := h.asked hzero
    show (if s.entry.heartbeatSentCount = 0 then none else some (w.asked.getD s.clock)) = w.asked
    rw [if_neg (hsent ▸ hzero), hasked]
    rfl

/-- The calls of a turn are heartbeats. -/
theorem calls_of_turn {e e' : Entry ι} (h : SendsHeartbeats e') (c : Contract own peer) :
    ∀ w ∈ ((e'.events.drop e.events.length).filterMap Work.ofEvent : List (Work Unit ο)).filter Work.isSend,
      c.TakesWork w ∧ w.isSend = true ∧ w.IsWhole own.serialize := by
  intro w hw
  obtain ⟨hw, hsend⟩ := List.mem_filter.1 hw
  obtain ⟨ev, hev, hof⟩ := List.mem_filterMap.1 hw
  cases ev with
  | scheduleSend buf =>
    cases hof
    exact ⟨trivial, rfl, h buf (List.mem_of_mem_drop hev)⟩
  | connectionShutdown =>
    cases hof
    cases hsend
  | _ => cases hof

theorem handlerReturns {env : EntryEnv ι} (hret : ∀ evs, env.onShutdown evs = none) : ¬ Entry.HandlerMayThrow env := by
  rintro ⟨evs, what, hthrow⟩
  rw [hret] at hthrow
  cases hthrow

/-- Time passes for both. -/
theorem Good.pass (h : Good there back delay pace peerPace p q) (hdelay : 0 < delay) (hpace : 2 * delay ≤ pace.reply)
    (hpeerPace : 2 * delay ≤ peerPace.reply) (hret : ∀ evs, own.entry.onShutdown evs = none)
    (hpeerRet : ∀ evs, peer.entry.onShutdown evs = none) (hact : p.entry.connectionIsActive = true)
    (hpeerAct : q.entry.connectionIsActive = true) {n : Nat} (hdue : p.clock + n ≤ p.watched.due + pace.late)
    (hpeerDue : q.clock + n ≤ q.watched.due + peerPace.late)
    (hthere : ∀ x ∈ p.onTheWay own.serialize q, p.clock + n < x.1 + delay)
    (hback : ∀ x ∈ q.onTheWay peer.serialize p, p.clock + n < x.1 + delay) :
    Good there back delay pace peerPace
      { p with watched := p.watched.watch (p.watched.timed.withTimer (p.watched.timed.timer.pass n)) }
      { q with watched := q.watched.watch (q.watched.timed.withTimer (q.watched.timed.timer.pass n)) } := by
  have hasks : ∀ asked ∈ p.watched.asked, p.clock + n < asked + pace.reply := fun asked hasked =>
    ((h.asks asked hasked).inTime hthere hback hdelay).trans_le (Int.add_le_add_left hpace asked)
  have hpeerAsks : ∀ asked ∈ q.watched.asked, q.clock + n < asked + peerPace.reply := by
    intro asked hasked
    rw [h.clock]
    exact ((h.peerAsks asked hasked).inTime hback hthere hdelay).trans_le (Int.add_le_add_left hpeerPace asked)
  have hsame := asked_watch h.kept (s := p.watched.timed.withTimer (p.watched.timed.timer.pass n)) rfl
  have hpeerSame := asked_watch h.peerKept (s := q.watched.timed.withTimer (q.watched.timed.timer.pass n)) rfl
  refine ⟨?_, ⟨h.there.front, h.there.takes, h.there.heartbeats, ?_, hthere⟩,
    ⟨h.back.front, h.back.takes, h.back.heartbeats, ?_, ?_⟩, ?_, ?_, ?_, ?_⟩
  · show q.clock + n = p.clock + n
    rw [h.clock]
  · exact ⟨h.there.heard.ready, h.there.heard.decoded, h.there.heard.healthy⟩
  · exact ⟨h.back.heard.ready, h.back.heard.decoded, h.back.heard.healthy⟩
  · intro x hx
    show q.clock + n < _
    rw [h.clock]
    exact hback x hx
  · have hintime : Watched.InTime pace p.watched (.pass n) := fun _ => ⟨hdue, hasks⟩
    have heffect : Timed.TurnEffect own.entry 0 p.watched.timed _ (.pass n) := .pass rfl
    exact h.kept.turn (handlerReturns hret) hintime hact heffect
  · have hintime : Watched.InTime peerPace q.watched (.pass n) := fun _ => ⟨hpeerDue, hpeerAsks⟩
    have heffect : Timed.TurnEffect peer.entry 0 q.watched.timed _ (.pass n) := .pass rfl
    exact h.peerKept.turn (handlerReturns hpeerRet) hintime hpeerAct heffect
  · exact fun asked hasked => h.asks asked (hsame ▸ hasked)
  · exact fun asked hasked => h.peerAsks asked (hpeerSame ▸ hasked)

/-- A party acts: what it sends comes behind what it has sent, and what it reads behind what it has read. -/
theorem Good.acts (h : Good there back delay pace peerPace p q) (hdelay : 0 < delay) {ws : List (Work Unit ο)}
    {buf : Bytes} (hsent : p'.sent = p.sent ++ ws.map (p.clock, ·)) (hhandled : p'.handled = p.handled ++ buf)
    (hclock : p'.clock = p.clock) (hws : ∀ w ∈ ws, there.TakesWork w ∧ w.isSend = true ∧ w.IsWhole own.serialize)
    (hsends : SendsHeartbeats p'.entry) (hkept : Watched.Kept pace p'.watched)
    (hfront : p.handled ++ buf <+: (q.sent.map Prod.snd).flatMap (Work.package peer.serialize))
    (hheard : Heard back p'.handled p'.entry)
    (hasks : ∀ asked ∈ p'.watched.asked, Awaits own peer delay p' q asked)
    (hanswers : ∀ asked ∈ q.watched.asked, Awaits peer own delay q p' asked) :
    Good there back delay pace peerPace p' q where
  clock := h.clock.trans hclock.symm
  there := h.there.grows hdelay hsent hclock hws hsends
  back := h.back.reads hhandled hfront hheard
  kept := hkept
  peerKept := h.peerKept
  asks := hasks
  peerAsks := hanswers

/-- A turn without input. -/
theorem Good.turns (h : Good there back delay pace peerPace p q) (hdelay : 0 < delay)
    (hret : ∀ evs, own.entry.onShutdown evs = none) {turn : Turn} (hown : turn.isOwn = true) {s : Timed ι}
    (hstep : Timed.step own.entry 0 p.watched.timed turn = some s) (hact : p.entry.connectionIsActive = true)
    (hact' : s.entry.connectionIsActive = true) :
    Good there back delay pace peerPace (p.ran (p.watched.watch s)) q := by
  obtain ⟨hheard, hsends, hclock⟩ := own_turn hown h.back.heard h.there.heartbeats hstep
  have heffect := Timed.step_effect hstep hact hact'
  have hintime : Watched.InTime pace p.watched turn := by
    cases turn with
    | pass d => cases hown
    | _ => trivial
  have hkept := h.kept.turn (handlerReturns hret) hintime hact heffect
  have hnil : (p.ran (p.watched.watch s)).handled = p.handled ++ [] := (List.append_nil _).symm
  have hfront : p.handled ++ [] <+: (q.sent.map Prod.snd).flatMap (Work.package peer.serialize) := by
    rw [List.append_nil]
    exact h.back.front
  refine h.acts hdelay rfl hnil hclock (calls_of_turn hsends there) hsends hkept hfront hheard ?_ fun asked hasked =>
    (h.peerAsks asked hasked).peer_grows h.there rfl rfl
  have hsame : s.entry.heartbeatSentCount = p.entry.heartbeatSentCount →
      ∀ asked ∈ (p.watched.watch s).asked, Awaits own peer delay (p.ran (p.watched.watch s)) q asked := by
    intro hsent asked hasked
    rw [asked_watch h.kept hsent] at hasked
    exact (h.asks asked hasked).grows rfl rfl
  cases heffect with
  | pass hs => cases hown
  | input => cases hown
  | expire ht hs =>
    subst hs
    exact hsame rfl
  | early ht hearly htimer hlast hsent => exact hsame hsent
  | @request t ht hlate hunsent hentry htimer =>
    -- the request goes out behind all that was sent
    have hzero : p.watched.timed.entry.heartbeatSentCount = 0 := (h.kept.unsent ht).1
    have hcalls : ((s.entry.events.drop p.entry.events.length).filterMap Work.ofEvent : List (Work Unit ο)).filter
        Work.isSend = [.heartbeat (PkgHeader.make pkgContentHeartbeatRequest).image] := by
      rw [hentry]
      show (((p.entry.events ++ [_]).drop p.entry.events.length).filterMap Work.ofEvent).filter Work.isSend = _
      rw [List.drop_left]
      rfl
    intro asked hasked
    have hnow : asked = p.clock := by
      have hcount : s.entry.heartbeatSentCount = p.watched.timed.entry.heartbeatSentCount + 1 := by
        rw [hentry]
        rfl
      have hne : s.entry.heartbeatSentCount ≠ 0 := by
        rw [hcount, hzero]
        decide
      change asked ∈ (if s.entry.heartbeatSentCount = 0 then none else some (p.watched.asked.getD s.clock)) at hasked
      rw [if_neg hne, (h.kept.unasked hzero).1] at hasked
      rw [← Option.some.inj hasked]
      exact hclock
    subst hnow
    refine .inl ⟨p.sent, [], ?_, ?_⟩
    · show p.sent ++ List.map _ (List.filter Work.isSend _) = _
      exact congrArg (fun ws => p.sent ++ ws.map (p.clock, ·)) hcalls
    · rw [stamped_append, List.length_append]
      refine h.there.handled_le.trans_lt (Nat.lt_add_of_pos_right ?_)
      rw [length_stamped]
      show 0 < ((PkgHeader.make pkgContentHeartbeatRequest).image ++ []).length
      decide
  | threw hthrow => exact absurd hthrow (handlerReturns hret)

/-- `send` is called, and goes on. -/
theorem Good.sends (h : Good there back delay pace peerPace p q) (hdelay : 0 < delay) {s : Send ο}
    {call : Net.SendCall} (htakes : there.Takes s) (hmessage : s.isMessage = true)
    (hcalls : s.calls own.serialize = [call]) :
    Good there back delay pace peerPace { p with sent := p.sent ++ [(p.clock, .send () s call)] } q := by
  have hws : ∀ w ∈ [Work.send () s call], there.TakesWork w ∧ w.isSend = true ∧ w.IsWhole own.serialize := by
    intro w hw
    rw [List.mem_singleton.1 hw]
    exact ⟨htakes, rfl, hmessage, hcalls⟩
  have hfront : p.handled ++ [] <+: (q.sent.map Prod.snd).flatMap (Work.package peer.serialize) := by
    rw [List.append_nil]
    exact h.back.front
  have hsent : ({ p with sent := p.sent ++ [(p.clock, .send () s call)] } : Party ι ο).sent =
      p.sent ++ [Work.send () s call].map (p.clock, ·) := rfl
  exact h.acts hdelay hsent (List.append_nil _).symm rfl hws h.there.heartbeats h.kept hfront h.back.heard
    (fun asked hasked => (h.asks asked hasked).grows hsent rfl)
    fun asked hasked => (h.peerAsks asked hasked).peer_grows h.there hsent rfl

/-- The next bytes are read. -/
theorem Good.reads (h : Good there back delay pace peerPace p q) (hdelay : 0 < delay)
    (hret : ∀ evs, own.entry.onShutdown evs = none) {buf : Bytes} (hchunk : back.Reads buf)
    (hfront : p.handled ++ buf <+: (q.sent.map Prod.snd).flatMap (Work.package peer.serialize)) {s : Timed ι}
    (hstep : Timed.step own.entry ((p.entry.pkgInput.contents ++ buf).length + 1) p.watched.timed (.input buf) = some s)
    (hact : p.entry.connectionIsActive = true) (hact' : s.entry.connectionIsActive = true) :
    Good there back delay pace peerPace { p.ran (p.watched.watch s) with handled := p.handled ++ buf } q := by
  have heffect := Timed.step_effect hstep hact hact'
  have hintime : Watched.InTime pace p.watched (.input buf) := trivial
  have hkept := h.kept.turn (handlerReturns hret) hintime hact heffect
  obtain ⟨e, hafter, rfl⟩ := Timed.runItem_cases hstep
  have hwork : ∀ w ∈ q.sent.map Prod.snd, back.TakesWork w ∧ w.isSend = true ∧ w.IsWhole peer.serialize := by
    intro w hw
    obtain ⟨x, hx, rfl⟩ := List.mem_map.1 hw
    exact h.back.takes x hx
  obtain ⟨e', evs, hafter', hheard, htakes, hevs⟩ := h.back.heard.input hwork hfront hchunk p.clock
  obtain rfl := Option.some.inj (hafter.symm.trans hafter')
  have hsends : SendsHeartbeats e := Entry.after_heartbeats h.there.heartbeats hafter
  refine h.acts hdelay rfl rfl rfl (calls_of_turn hsends there) hsends hkept hfront hheard ?_ fun asked hasked => ?_
  · -- with input there is nothing left to wait for
    intro asked hasked
    cases heffect with
    | input htimer hlast hsent =>
      change asked ∈ (p.watched.watch _).asked at hasked
      rw [Watched.asked_watch_of_none hsent] at hasked
      cases hasked
    | threw hthrow => exact absurd hthrow (handlerReturns hret)
  · refine (h.peerAsks asked hasked).peer_reads h.clock h.there h.back rfl rfl hfront hevs fun hreply => ?_
    obtain ⟨new, hnew, hobs, -⟩ := htakes.events
    have hmem : .scheduleSend (PkgHeader.make pkgContentHeartbeatReply).image ∈ new := by
      refine List.mem_of_mem_filter (p := Event.isObserved) ?_
      rw [hobs, show p.entry.connectionIsActive = true from hact]
      exact hreply
    refine List.mem_filter.2 ⟨List.mem_filterMap.2 ⟨.scheduleSend _, ?_, rfl⟩, rfl⟩
    show _ ∈ e.events.drop p.entry.events.length
    rw [hnew, List.drop_left]
    exact hmem

/-- What a party does, if both are up before, leaves them so that they do well if both are up behind it, and gives
nobody up for want of a reply. -/
theorem Good.step (h : p.entry.connectionIsActive = true → q.entry.connectionIsActive = true →
      Good there back delay pace peerPace p q)
    (hdelay : 0 < delay) (hret : ∀ evs, own.entry.onShutdown evs = none) {a : PartyAction ο}
    (hsends : ∀ s, a = .sends s → there.Takes s) (hreads : ∀ n, a = .reads n → back.packageLimit + n ≤ 2 ^ 31)
    (hstep : Party.step own ((q.onTheWay peer.serialize p).map Prod.snd) p a = some p') :
    (p'.entry.connectionIsActive = true → p.entry.connectionIsActive = true) ∧
      (p'.entry.connectionIsActive = true → q.entry.connectionIsActive = true →
        Good there back delay pace peerPace p' q) ∧
      (q.entry.connectionIsActive = true ∨ p.entry.connectionIsActive = false → Watched.NotTimedOut p.entry →
        Watched.NotTimedOut p'.entry) := by
  have hturn : ∀ {fuel : Nat} {turn : Turn} {s : Timed ι}, Timed.step own.entry fuel p.watched.timed turn = some s →
      (s.entry.connectionIsActive = true → p.entry.connectionIsActive = true) ∧
        (q.entry.connectionIsActive = true ∨ p.entry.connectionIsActive = false → Watched.NotTimedOut p.entry →
          Watched.NotTimedOut s.entry) := by
    intro fuel turn s hs
    rcases Timed.step_terminations hret hs with ⟨heq, hsame⟩ | ⟨hact, hgone, -⟩
    · refine ⟨fun hact' => heq ▸ hact', fun _ hnot ctx hctx => hnot ctx ?_⟩
      exact hsame ▸ hctx
    · refine ⟨fun _ => hact, fun hup hnot => ?_⟩
      have hpeer := hup.resolve_right (by rw [show p.entry.connectionIsActive = true from hact]; simp)
      exact Watched.Kept.notTimedOut hret (fun hact => (h hact hpeer).kept) hnot hs
  cases a with
  | turns turn =>
    simp only [Party.step] at hstep
    split at hstep
    next hown =>
      obtain ⟨w, hw, rfl⟩ := Option.map_eq_some_iff.1 hstep
      obtain ⟨s, hs, rfl⟩ := Option.map_eq_some_iff.1 hw
      obtain ⟨hup, hnot⟩ := hturn hs
      refine ⟨hup, fun hact' hpeer => ?_, hnot⟩
      have hact := hup hact'
      exact (h hact hpeer).turns hdelay hret hown hs hact hact'
    next => cases hstep
  | sends s =>
    simp only [Party.step, Party.call] at hstep
    split at hstep
    next hmessage =>
      split at hstep
      next => exact Option.some.inj hstep ▸ ⟨id, h, fun _ => id⟩
      next call hcalls =>
        rw [← Option.some.inj hstep]
        split
        · exact ⟨id, fun hact hpeer => (h hact hpeer).sends hdelay (hsends s rfl) hmessage hcalls, fun _ => id⟩
        · exact ⟨id, h, fun _ => id⟩
      next => cases hstep
    next => cases hstep
  | reads n =>
    obtain ⟨w, hw, rfl⟩ := Option.map_eq_some_iff.1 hstep
    obtain ⟨s, hs, rfl⟩ := Option.map_eq_some_iff.1 hw
    obtain ⟨hup, hnot⟩ := hturn hs
    refine ⟨hup, fun hact' hpeer => ?_, hnot⟩
    have hact := hup hact'
    have hgood := h hact hpeer
    refine hgood.reads hdelay hret ?_ ?_ hs hact hact'
    · have hlimit := hreads n rfl
      show back.packageLimit + (List.take n _).length ≤ 2 ^ 31
      rw [List.length_take]
      omega
    · -- the bytes that are read are the next ones that were sent
      obtain ⟨rest, hrest⟩ := hgood.back.front
      have harriving : (q.onTheWay peer.serialize p).map Prod.snd = rest := by
        unfold Party.onTheWay
        rw [List.map_drop, map_snd_stamped, ← hrest, List.drop_left]
      rw [harriving, ← hrest]
      exact (List.prefix_append_right_inj _).2 (List.take_prefix n rest)

end Invariant

/-! ## Runs -/

namespace Dialogue

variable {env : LinkEnv ι ο} {rightward : Contract env.left env.right} {leftward : Contract env.right env.left}
  {t : Timing env} {d d' : Dialogue ι ο}

/-- What is sent and read is as both ends expect it. -/
def Expected (env : LinkEnv ι ο) (rightward : Contract env.left env.right) (leftward : Contract env.right env.left) :
    DialogueAction ι ο → Prop
  | .left (.sends s) => rightward.Takes s
  | .left (.reads n) => leftward.packageLimit + n ≤ 2 ^ 31
  | .right (.sends s) => leftward.Takes s
  | .right (.reads n) => rightward.packageLimit + n ≤ 2 ^ 31
  | _ => True

/-- Neither end is given up for want of a reply while the other one is up, nor are both. -/
structure Lasts (d : Dialogue ι ο) : Prop where
  left : d.right.entry.connectionIsActive = true → Watched.NotTimedOut d.left.entry
  right : d.left.entry.connectionIsActive = true → Watched.NotTimedOut d.right.entry
  one : Watched.NotTimedOut d.left.entry ∨ Watched.NotTimedOut d.right.entry

structure Sound (rightward : Contract env.left env.right) (leftward : Contract env.right env.left) (t : Timing env)
    (d : Dialogue ι ο) : Prop where
  good : d.left.entry.connectionIsActive = true → d.right.entry.connectionIsActive = true →
    Good rightward leftward t.delay t.left t.right d.left d.right
  lasts : Lasts d

theorem sound_init (leftHandler rightHandler : ShutdownHandler) (now : Int) :
    Sound rightward leftward t (init env leftHandler rightHandler now) where
  good _ _ :=
    { clock := rfl
      there := ⟨List.nil_prefix, fun _ h => (List.not_mem_nil h).elim, fun _ h => (List.not_mem_nil h).elim,
        ⟨Entry.ready_init _ _ _, ⟨[], rfl, rfl⟩, fun _ h => (List.not_mem_nil h).elim⟩,
        fun _ h => (List.not_mem_nil h).elim⟩
      back := ⟨List.nil_prefix, fun _ h => (List.not_mem_nil h).elim, fun _ h => (List.not_mem_nil h).elim,
        ⟨Entry.ready_init _ _ _, ⟨[], rfl, rfl⟩, fun _ h => (List.not_mem_nil h).elim⟩,
        fun _ h => (List.not_mem_nil h).elim⟩
      kept := Watched.kept_start _ _ _
      peerKept := Watched.kept_start _ _ _
      asks := fun _ h => by cases h
      peerAsks := fun _ h => by cases h }
  lasts := ⟨fun _ _ h => (List.not_mem_nil h).elim, fun _ _ h => (List.not_mem_nil h).elim,
    .inl fun _ h => (List.not_mem_nil h).elim⟩

/-- One of the parties has acted. -/
theorem lasts_of_step {p p' : Party ι ο} {q : Party ο ι} (h : Lasts ⟨p, q⟩)
    (hup : p'.entry.connectionIsActive = true → p.entry.connectionIsActive = true)
    (hnot : q.entry.connectionIsActive = true ∨ p.entry.connectionIsActive = false → Watched.NotTimedOut p.entry →
      Watched.NotTimedOut p'.entry) : Lasts ⟨p', q⟩ := by
  refine ⟨fun hpeer => hnot (.inl hpeer) (h.left hpeer), fun hact => h.right (hup hact), ?_⟩
  rcases Bool.eq_false_or_eq_true p.entry.connectionIsActive with hact | hgone
  · exact .inr (h.right hact)
  · exact h.one.imp_left (hnot (.inr hgone))

theorem Lasts.symm {p : Party ι ο} {q : Party ο ι} (h : Lasts ⟨p, q⟩) : Lasts ⟨q, p⟩ := ⟨h.right, h.left, h.one.symm⟩

theorem Sound.step (hleft : ∀ evs, env.left.entry.onShutdown evs = none)
    (hright : ∀ evs, env.right.entry.onShutdown evs = none) {a : DialogueAction ι ο} (h : Sound rightward leftward t d)
    (hintime : InTime t d a) (ha : Expected env rightward leftward a) (hstep : step env d a = some d') :
    Sound rightward leftward t d' := by
  cases a with
  | pass n =>
    have hpass : Dialogue.step env d (.pass n) = some
        { left := { d.left with
            watched := d.left.watched.watch (d.left.watched.timed.withTimer (d.left.watched.timed.timer.pass n)) }
          right := { d.right with
            watched :=
              d.right.watched.watch (d.right.watched.timed.withTimer (d.right.watched.timed.timer.pass n)) } } :=
      rfl
    obtain rfl := Option.some.inj (hpass.symm.trans hstep)
    refine ⟨fun hact hpeer => ?_, h.lasts.left, h.lasts.right, h.lasts.one⟩
    obtain ⟨hdue, hpeerDue, hback, hthere⟩ := hintime hact hpeer
    exact (h.good hact hpeer).pass t.delay_pos t.thereAndBack t.backAndThere hleft hright hact hpeer hdue hpeerDue
      hthere hback
  | left a =>
    obtain ⟨p, hp, rfl⟩ := Option.map_eq_some_iff.1 hstep
    obtain ⟨hup, hgood, hnot⟩ := Good.step h.good t.delay_pos hleft (fun s hs => by subst hs; exact ha)
      (fun n hn => by subst hn; exact ha) hp
    exact ⟨hgood, lasts_of_step h.lasts hup hnot⟩
  | right a =>
    obtain ⟨p, hp, rfl⟩ := Option.map_eq_some_iff.1 hstep
    obtain ⟨hup, hgood, hnot⟩ := Good.step (fun hact hpeer => (h.good hpeer hact).symm) t.delay_pos hright
      (fun s hs => by subst hs; exact ha) (fun n hn => by subst hn; exact ha) hp
    exact ⟨fun hact hpeer => (hgood hpeer hact).symm, (lasts_of_step h.lasts.symm hup hnot).symm⟩

/-- In every run in which nothing is on its way for longer than the timing says and no check is overdue, whoever closes
his end, an end is given up for want of a reply only when the other one is gone for another reason: where consumers and
shutdown handlers throw nothing, every send makes one call, of a package that the other end takes, and no chunk is
longer than a package of the limit leaves of 2 GiB. -/
theorem dialogue_lasts (env : LinkEnv ι ο) (rightward : Contract env.left env.right)
    (leftward : Contract env.right env.left) (t : Timing env) (hleft : ∀ evs, env.left.entry.onShutdown evs = none)
    (hright : ∀ evs, env.right.entry.onShutdown evs = none) (leftHandler rightHandler : ShutdownHandler) (now : Int)
    {actions : List (DialogueAction ι ο)} (hactions : ∀ a ∈ actions, Expected env rightward leftward a)
    (hintime : Along (step env) (InTime t) (init env leftHandler rightHandler now) actions)
    (hrun : execute (step env) (init env leftHandler rightHandler now) actions = some d) : Lasts d :=
  (execute_invariant (P := fun d a => InTime t d a ∧ Expected env rightward leftward a)
    (fun _ _ _ h ha hstep => Sound.step hleft hright h ha.1 ha.2 hstep) actions
    (sound_init leftHandler rightHandler now)
    (hintime.and (Along.of_forall hactions)) hrun).lasts

/-- An exchange in which both ends ask and both answer, in pieces. -/
def twoRequests : List (DialogueAction Bytes Bytes) :=
  [.pass 10, .left (.turns .expire), .right (.turns .expire), .left (.turns .check), .pass 1, .right (.turns .check),
    .right (.reads 5), .pass 1, .right (.reads 7), .left (.reads 12), .pass 1, .right (.reads 1), .left (.reads 20),
    .pass 2, .right (.reads 100), .pass 5, .left (.turns .expire), .left (.turns .check)]

def plainTiming : Timing Link.plainLink where
  delay := 4
  delay_pos := by decide
  left := ⟨1, 8, by decide, by decide, by decide, by decide⟩
  right := ⟨1, 8, by decide, by decide, by decide, by decide⟩
  thereAndBack := by decide
  backAndThere := by decide

theorem expected_twoRequests : ∀ a ∈ twoRequests, Expected Link.plainLink Link.plainContract Link.plainContract a := by
  simp [twoRequests, Expected, Link.plainContract]

theorem dialogue_lasts_twice :
    ∃ d, execute (step Link.plainLink) (init Link.plainLink .handler .handler 0) twoRequests = some d ∧
      d.left.sent.length = 2 ∧ d.right.sent.length = 2 ∧ d.left.handled.length = 24 ∧ Lasts d := by
  obtain ⟨d, hrun, hl, hr, hhandled⟩ := exists_execute (step Link.plainLink) (init Link.plainLink .handler .handler 0)
    twoRequests (fun d => d.left.sent.length = 2 ∧ d.right.sent.length = 2 ∧ d.left.handled.length = 24)
    (by decide +kernel)
  exact ⟨d, hrun, hl, hr, hhandled, dialogue_lasts Link.plainLink Link.plainContract Link.plainContract plainTiming
    (fun _ => rfl) (fun _ => rfl) .handler .handler 0 expected_twoRequests (by decide +kernel) hrun⟩

end Dialogue

end Opio.ProtoEntry
