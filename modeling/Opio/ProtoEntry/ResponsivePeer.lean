/-
A peer that answers in time is kept. An entry gives its peer up for want of a reply only if the peer lets a
request go unanswered for longer than the configured times leave it, whatever else happens to the entry. Its
shutdown handler is taken to throw nothing.
-/
import Opio.ProtoEntry.Heartbeat

namespace Opio.ProtoEntry

open Entry

variable {μ : Type}

/-! ## What is asked of the peer -/

/-- An entry in time, with what can be told from outside: when its next check is due, and when it sent the request that
is not yet answered. -/
structure Watched (μ : Type) where
  timed : Timed μ
  due : Int
  asked : Option Int := none

/-- The checks run at most `late` after they are due, and input follows a request in less than `reply`: an allowance
and a time to reply for which the configured times leave enough. -/
structure Pace (env : EntryEnv μ) where
  late : Int
  reply : Int
  late_nonneg : 0 ≤ late
  reply_pos : 0 < reply
  replyInInitiate : reply ≤ env.cfg.initiateHeartbeatTimeout
  /-- Where the time to reply goes beyond that to the first request, the entry waits for the rest of it only. -/
  replyInAwait : env.cfg.initiateHeartbeatTimeout < env.cfg.awaitHeartbeatReplyTimeout →
    env.cfg.initiateHeartbeatTimeout + late + reply ≤ env.cfg.awaitHeartbeatReplyTimeout ∧
      late + reply ≤ env.cfg.initiateHeartbeatTimeout

namespace Watched

variable {env : EntryEnv μ} {fuel : Nat} {w w' : Watched μ}

/-- The entry after a turn, watched. -/
def watch (w : Watched μ) (s : Timed μ) : Watched μ where
  timed := s
  due := s.entry.heartbeatTimer.getD w.due
  asked := if s.entry.heartbeatSentCount = 0 then none else some (w.asked.getD s.clock)

def step (env : EntryEnv μ) (fuel : Nat) (w : Watched μ) (turn : Turn) : Option (Watched μ) :=
  (Timed.step env fuel w.timed turn).map w.watch

def start (env : EntryEnv μ) (sh : ShutdownHandler) (now : Int) : Watched μ where
  timed := Timed.start env sh now
  due := now + env.cfg.initiateHeartbeatTimeout

/-- Time passes only as long as the pace allows it. -/
def InTime (p : Pace env) (w : Watched μ) : Turn → Prop
  | .pass d => w.timed.entry.connectionIsActive = true →
    w.timed.clock + d ≤ w.due + p.late ∧ ∀ asked ∈ w.asked, w.timed.clock + d < asked + p.reply
  | _ => True

instance (p : Pace env) (w : Watched μ) : ∀ turn, Decidable (InTime p w turn)
  | .pass d => inferInstanceAs (Decidable (w.timed.entry.connectionIsActive = true →
    w.timed.clock + d ≤ w.due + p.late ∧ ∀ asked ∈ w.asked, w.timed.clock + d < asked + p.reply))
  | .expire => isTrue trivial
  | .check => isTrue trivial
  | .input _ => isTrue trivial
  | .close => isTrue trivial
  | .connectionShutdown _ => isTrue trivial

/-! ## The invariant -/

/-- The longest time from the last input, or from the request that is not yet answered, to the next check. -/
def span (env : EntryEnv μ) : Int :=
  max env.cfg.initiateHeartbeatTimeout (env.cfg.awaitHeartbeatReplyTimeout - env.cfg.initiateHeartbeatTimeout)

/-- The next check is under way and not overdue. It finds no request, or comes only when that is answered. -/
structure Kept (p : Pace env) (w : Watched μ) : Prop where
  waits : w.timed.timer.waits = 1
  pending : ∀ deadline, w.timed.timer.pending = some deadline → deadline = w.due
  expired : w.timed.timer.pending = none → w.due ≤ w.timed.clock
  late : w.timed.clock ≤ w.due + p.late
  last : w.timed.entry.lastInputAt ≤ w.timed.clock
  unasked : w.timed.entry.heartbeatSentCount = 0 → w.asked = none ∧ w.due ≤ w.timed.entry.lastInputAt + span env
  asked : w.timed.entry.heartbeatSentCount ≠ 0 → ∃ asked, w.asked = some asked ∧ asked ≤ w.timed.clock ∧
    asked + p.reply ≤ w.due ∧ w.timed.clock < asked + p.reply ∧ w.due ≤ asked + span env

theorem kept_start (p : Pace env) (sh : ShutdownHandler) (now : Int) : Kept p (start env sh now) where
  waits := rfl
  pending deadline h := (Option.some.inj h).symm
  expired h := by cases h
  late := by
    show now ≤ now + env.cfg.initiateHeartbeatTimeout + p.late
    have := p.late_nonneg
    have := p.reply_pos
    have := p.replyInInitiate
    omega
  last := le_rfl
  unasked _ := ⟨rfl, Int.add_le_add_left (le_max_left _ _) now⟩
  asked h := absurd rfl h

/-- A check that runs finds all requests answered. -/
theorem Kept.unsent {p : Pace env} (h : Kept p w) {t : Timer} (ht : w.timed.timer.take = some t) :
    w.timed.entry.heartbeatSentCount = 0 ∧ w.due ≤ w.timed.clock := by
  have hpending : w.timed.timer.pending = none := by
    obtain ⟨-, rfl⟩ := Timer.take_cases ht
    exact (Timer.expired_of_take h.waits.le ht).2
  have hover := h.expired hpending
  refine ⟨?_, hover⟩
  by_contra hsent
  obtain ⟨asked, -, -, hdue, hclock, -⟩ := h.asked hsent
  omega

/-! ## Turns -/

theorem due_watch_of_set {s : Timed μ} {deadline : Int} (h : s.timer.pending = some deadline) :
    (w.watch s).due = deadline := by
  show s.entry.heartbeatTimer.getD w.due = deadline
  rw [show s.entry.heartbeatTimer = some deadline from h]
  rfl

theorem asked_watch_of_none {s : Timed μ} (h : s.entry.heartbeatSentCount = 0) : (w.watch s).asked = none := if_pos h

/-- What is pending is what was pending. -/
theorem Kept.due_watch {p : Pace env} (h : Kept p w) {s : Timed μ}
    (hpending : s.timer.pending = w.timed.timer.pending ∨ s.timer.pending = none) : (w.watch s).due = w.due := by
  show s.timer.pending.getD w.due = w.due
  cases hs : s.timer.pending with
  | none => rfl
  | some deadline =>
    rw [hs] at hpending
    exact h.pending deadline (hpending.resolve_right (by simp)).symm

/-- The watched entry when nothing was sent and no input came. -/
theorem Kept.waiting {p : Pace env} (h : Kept p w) {s : Timed μ} (hwaits : s.timer.waits = 1)
    (hpending : s.timer.pending = w.timed.timer.pending ∨ s.timer.pending = none ∧ w.due ≤ w.timed.clock)
    (hclock : w.timed.clock ≤ s.clock) (hlate : s.clock ≤ w.due + p.late)
    (hasked : ∀ asked ∈ w.asked, s.clock < asked + p.reply)
    (hlast : s.entry.lastInputAt = w.timed.entry.lastInputAt)
    (hsent : s.entry.heartbeatSentCount = w.timed.entry.heartbeatSentCount) : Kept p (w.watch s) := by
  have hdue : (w.watch s).due = w.due := h.due_watch (hpending.imp_right And.left)
  refine ⟨hwaits, fun deadline hdeadline => ?_, fun hnone => ?_, hdue ▸ hlate, ?_, fun hzero => ?_, fun hne => ?_⟩
  · exact (due_watch_of_set hdeadline).symm
  · rw [hdue]
    refine (hpending.elim (fun heq => h.expired (heq ▸ hnone)) And.right).trans hclock
  · exact hlast ▸ h.last.trans hclock
  · refine ⟨asked_watch_of_none hzero, ?_⟩
    rw [hdue]
    exact (h.unasked (hsent ▸ hzero)).2.trans_eq (by rw [← hlast]; rfl)
  · have hne : s.entry.heartbeatSentCount ≠ 0 := hne
    obtain ⟨asked, heq, hle, hbefore, -, hspan⟩ := h.asked (hsent ▸ hne)
    rw [hdue]
    refine ⟨asked, ?_, hle.trans hclock, hbefore, hasked asked heq, hspan⟩
    show (if s.entry.heartbeatSentCount = 0 then none else some (w.asked.getD s.clock)) = some asked
    rw [if_neg hne, heq]
    rfl

/-- A check has set the timer anew. -/
theorem Kept.checked {p : Pace env} (h : Kept p w) {t : Timer} {s : Timed μ} {deadline : Int}
    (ht : w.timed.timer.take = some t) (htimer : s.timer = t.set deadline) (hdeadline : w.timed.clock ≤ deadline)
    (hlast : s.entry.lastInputAt = w.timed.entry.lastInputAt)
    (hunasked : s.entry.heartbeatSentCount = 0 → deadline ≤ w.timed.entry.lastInputAt + span env)
    (hasked : s.entry.heartbeatSentCount ≠ 0 →
      w.timed.clock + p.reply ≤ deadline ∧ deadline ≤ w.timed.clock + span env) : Kept p (w.watch s) := by
  have hclock : s.clock = w.timed.clock := by
    show s.timer.clock = w.timed.timer.clock
    rw [htimer, Timer.clock_set, Timer.clock_take ht]
  have hpending : s.timer.pending = some deadline := by rw [htimer]; rfl
  have hdue : (w.watch s).due = deadline := due_watch_of_set hpending
  have hlate := p.late_nonneg
  have hreply := p.reply_pos
  refine ⟨?_, fun deadline' h' => ?_, fun hnone => ?_, ?_, ?_, fun hzero => ⟨asked_watch_of_none hzero, ?_⟩,
    fun hne => ?_⟩
  · show s.timer.waits = 1
    rw [htimer, Timer.waits_set, (Timer.expired_of_take h.waits.le ht).1]
  · exact (due_watch_of_set h').symm
  · change s.timer.pending = none at hnone
    rw [hpending] at hnone
    cases hnone
  · rw [hdue]
    show s.clock ≤ _
    omega
  · show s.entry.lastInputAt ≤ s.clock
    rw [hlast, hclock]
    exact h.last
  · rw [hdue]
    show deadline ≤ s.entry.lastInputAt + _
    rw [hlast]
    exact hunasked hzero
  · have hne : s.entry.heartbeatSentCount ≠ 0 := hne
    obtain ⟨hbefore, hspan⟩ := hasked hne
    have hnone : w.asked = none := (h.unasked (h.unsent ht).1).1
    rw [hdue]
    refine ⟨w.timed.clock, ?_, hclock.ge, hbefore, ?_, hspan⟩
    · show (if s.entry.heartbeatSentCount = 0 then none else some (w.asked.getD s.clock)) = _
      rw [if_neg hne, hnone, hclock]
      rfl
    · show s.clock < _
      omega

/-- What a turn makes of an entry that stays active. -/
theorem Kept.turn {p : Pace env} (hret : ¬ HandlerMayThrow env) (h : Kept p w) {turn : Turn} {s : Timed μ}
    (hpace : InTime p w turn) (hact : w.timed.entry.connectionIsActive = true)
    (heffect : Timed.TurnEffect env fuel w.timed s turn) : Kept p (w.watch s) := by
  have hasked : ∀ asked ∈ w.asked, w.timed.clock < asked + p.reply := by
    intro asked hmem
    by_cases hsent : w.timed.entry.heartbeatSentCount = 0
    · rw [(h.unasked hsent).1] at hmem
      cases hmem
    · obtain ⟨asked', heq, -, -, hlt, -⟩ := h.asked hsent
      rw [heq] at hmem
      exact Option.some.inj hmem ▸ hlt
  have hspan : env.cfg.initiateHeartbeatTimeout ≤ span env := le_max_left _ _
  have hspan' : env.cfg.awaitHeartbeatReplyTimeout - env.cfg.initiateHeartbeatTimeout ≤ span env := le_max_right _ _
  cases heffect with
  | @pass d hs =>
    obtain ⟨hlate, hreply⟩ := hpace hact
    subst hs
    have hclock : w.timed.clock ≤ w.timed.clock + d := by omega
    exact h.waiting h.waits (.inl rfl) hclock hlate hreply rfl rfl
  | @expire t ht hs =>
    obtain ⟨deadline, hpending, hle, rfl⟩ := Timer.expire_cases ht
    subst hs
    refine h.waiting ((Timer.waits_expire ht).trans h.waits) (.inr ⟨rfl, ?_⟩) le_rfl h.late hasked rfl rfl
    exact h.pending deadline hpending ▸ hle
  | input htimer hlast hsent =>
    -- input answers what was asked
    have hdue : (w.watch s).due = w.due := h.due_watch (.inl (by rw [htimer]))
    have hclock : s.clock = w.timed.clock := congrArg Timer.clock htimer
    refine ⟨by rw [← h.waits, ← htimer]; rfl, fun deadline hdeadline => (due_watch_of_set hdeadline).symm,
      fun hnone => ?_, ?_, ?_, fun _ => ⟨asked_watch_of_none hsent, ?_⟩, fun hne => absurd hsent hne⟩
    · rw [hdue]
      show w.due ≤ s.clock
      rw [hclock]
      exact h.expired (htimer ▸ hnone)
    · rw [hdue]
      show s.clock ≤ _
      rw [hclock]
      exact h.late
    · show s.entry.lastInputAt ≤ s.clock
      rw [hlast, hclock]
    · rw [hdue]
      show w.due ≤ s.entry.lastInputAt + span env
      rw [hlast]
      by_cases hzero : w.timed.entry.heartbeatSentCount = 0
      · have hunasked := (h.unasked hzero).2
        have hbefore := h.last
        omega
      · obtain ⟨asked, -, hle, -, -, hdueLe⟩ := h.asked hzero
        omega
  | @early t ht hearly htimer hlast hsent =>
    refine h.checked ht htimer (by omega) hlast (fun _ => by omega) fun hne => ?_
    exact absurd (hsent.trans (h.unsent ht).1) hne
  | @request t ht hlate hunsent hentry htimer =>
    have hsent : s.entry.heartbeatSentCount = w.timed.entry.heartbeatSentCount + 1 := by
      rw [hentry]
      rfl
    have hlast : s.entry.lastInputAt = w.timed.entry.lastInputAt := by
      rw [hentry]
      rfl
    obtain ⟨hzero, -⟩ := h.unsent ht
    have hne : s.entry.heartbeatSentCount ≠ 0 := by
      rw [hsent, hzero]
      decide
    have hunasked := (h.unasked hzero).2
    have hoverdue := h.late
    have hreply := p.replyInInitiate
    have hpos := p.reply_pos
    by_cases hawait : w.timed.clock - w.timed.entry.lastInputAt < env.cfg.awaitHeartbeatReplyTimeout
    · -- the reply has come when the time since the last input is up
      rw [if_pos hawait] at htimer
      obtain ⟨hwait, hrest⟩ := p.replyInAwait (hlate.trans_lt hawait)
      have hspanLe : span env + p.late + p.reply ≤ env.cfg.awaitHeartbeatReplyTimeout := by
        unfold span
        omega
      exact h.checked ht htimer (by omega) hlast (fun h0 => absurd h0 hne) fun _ => ⟨by omega, by omega⟩
    · rw [if_neg hawait] at htimer
      exact h.checked ht htimer (by omega) hlast (fun h0 => absurd h0 hne) fun _ => ⟨by omega, by omega⟩
  | threw hthrow => exact absurd hthrow hret

/-! ## Runs -/

/-- An item ends the entry with the context of its cause, or does not end it. -/
theorem terminations_after (hret : ∀ evs, env.onShutdown evs = none) {e e' : Entry μ} {i : Item}
    (h : after env fuel e i = some e') : terminations e'.events = terminations e.events ∨
      e.connectionIsActive = true ∧ ∃ ctx e₁, Cause env e i ctx e₁ ∧
        terminations e'.events = terminations e.events ++ [ctx] := by
  rcases after_passes h with hp | ⟨hact, ctx, e₁, hc⟩
  · exact .inl (Timed.terminations_of_passes hp)
  · refine .inr ⟨hact, ctx, e₁, hc, ?_⟩
    rw [Timed.terminations_of_gone (Timed.Ended.gone_of_returns (hc.ended hact h) hret),
      Timed.terminations_of_passes hc.passes]

/-- Only a check that finds a request ends the entry for want of a reply. -/
theorem sent_of_cause {e e' : Entry μ} {i : Item} {ctx : ConnectionShutdownContext} (h : Cause env e i ctx e')
    (hreason : ctx.reason = .hearbeatReplyTimeout) : e.heartbeatSentCount ≠ 0 ∧ ∃ now, i = .checkHeartbeat now := by
  cases h with
  | heartbeat _ hsent _ => exact ⟨hsent, _, rfl⟩
  | input happ hl hgoes hgive =>
    cases hgive with
    | rejected hrej =>
      obtain ⟨header, -, hfor⟩ := hrej
      cases hfor <;> cases hreason
    | exception => cases hreason
  | _ => cases hreason

/-- The entry was not given up for want of a reply. -/
def NotTimedOut (e : Entry μ) : Prop := ∀ ctx ∈ terminations e.events, ctx.reason ≠ .hearbeatReplyTimeout

theorem notTimedOut_after (hret : ∀ evs, env.onShutdown evs = none) {e e' : Entry μ} {i : Item} (he : NotTimedOut e)
    (hsent : e.connectionIsActive = true → ∀ now, i = .checkHeartbeat now → e.heartbeatSentCount = 0)
    (h : after env fuel e i = some e') : NotTimedOut e' := by
  rcases terminations_after hret h with heq | ⟨hact, ctx, e₁, hc, heq⟩
  · exact fun ctx hctx => he ctx (heq ▸ hctx)
  · intro ctx' hctx' hreason
    rw [heq, List.mem_append, List.mem_singleton] at hctx'
    rcases hctx' with hctx' | rfl
    · exact he ctx' hctx' hreason
    · obtain ⟨hne, now, hi⟩ := sent_of_cause hc hreason
      exact hne (hsent hact now hi)

theorem Kept.notTimedOut {p : Pace env} (hret : ∀ evs, env.onShutdown evs = none)
    (h : w.timed.entry.connectionIsActive = true → Kept p w) {turn : Turn} {s : Timed μ}
    (he : NotTimedOut w.timed.entry) (hstep : Timed.step env fuel w.timed turn = some s) : NotTimedOut s.entry := by
  cases turn with
  | pass d =>
    obtain rfl := Option.some.inj hstep
    exact he
  | expire =>
    obtain ⟨t, -, rfl⟩ := Option.map_eq_some_iff.1 hstep
    exact he
  | check =>
    cases ht : w.timed.timer.take with
    | none =>
      rw [Timed.step, ht] at hstep
      cases hstep
    | some t =>
      rw [Timed.step, ht] at hstep
      obtain ⟨e, hafter, rfl⟩ := Timed.runItem_cases hstep
      exact notTimedOut_after hret (e := (w.timed.withTimer t).entry) he
        (fun hact _ _ => ((h hact).unsent ht).1) hafter
  | input buf =>
    obtain ⟨e, hafter, rfl⟩ := Timed.runItem_cases hstep
    exact notTimedOut_after hret he (fun _ _ hi => by cases hi) hafter
  | close =>
    obtain ⟨e, hafter, rfl⟩ := Timed.runItem_cases hstep
    exact notTimedOut_after hret he (fun _ _ hi => by cases hi) hafter
  | connectionShutdown reason =>
    obtain ⟨e, hafter, rfl⟩ := Timed.runItem_cases hstep
    exact notTimedOut_after hret he (fun _ _ hi => by cases hi) hafter

/-- In every run in which time keeps a pace that the configured times leave enough for, whatever comes in and whoever
closes the entry, the peer is not given up for want of a reply, where the shutdown handler throws nothing. -/
theorem responsive_peer_is_kept (env : EntryEnv μ) (hret : ∀ evs, env.onShutdown evs = none) (p : Pace env) (fuel : Nat)
    (sh : ShutdownHandler) (now : Int) {turns : List Turn}
    (hpace : Along (step env fuel) (InTime p) (start env sh now) turns)
    (hrun : execute (step env fuel) (start env sh now) turns = some w) : NotTimedOut w.timed.entry := by
  have hret' : ¬ HandlerMayThrow env := by
    rintro ⟨evs, what, hthrow⟩
    rw [hret] at hthrow
    cases hthrow
  have hstep : ∀ (w : Watched μ) turn w', (w.timed.entry.connectionIsActive = true → Kept p w) ∧
      NotTimedOut w.timed.entry → InTime p w turn → step env fuel w turn = some w' →
        (w'.timed.entry.connectionIsActive = true → Kept p w') ∧ NotTimedOut w'.timed.entry := by
    intro w turn w' h hpace hstep
    obtain ⟨s, hs, rfl⟩ := Option.map_eq_some_iff.1 hstep
    refine ⟨fun hact' => ?_, Kept.notTimedOut hret h.1 h.2 hs⟩
    have hact : w.timed.entry.connectionIsActive = true := by
      rcases Timed.step_terminations hret hs with ⟨heq, -⟩ | ⟨-, hgone, -⟩
      · exact heq ▸ hact'
      · change s.entry.connectionIsActive = true at hact'
        rw [hgone] at hact'
        cases hact'
    exact (h.1 hact).turn hret' hpace hact (Timed.step_effect hs hact hact')
  exact (execute_invariant hstep turns ⟨fun _ => kept_start p sh now, fun _ hctx => by cases hctx⟩ hpace hrun).2

/-- Two requests that are answered in time, with checks that run late. -/
theorem responsive_peer_is_kept_twice : ∃ w,
    execute (step (plainEnv .raw) 20) (start (plainEnv .raw) .handler 0)
      [.pass 12, .expire, .check, .pass 4, .input (PkgHeader.make pkgContentHeartbeatReply).image, .pass 5, .expire,
        .check, .pass 6, .expire, .pass 1, .check, .pass 4, .input (PkgHeader.make pkgContentHeartbeatReply).image,
        .pass 4, .expire, .check] = some w ∧
      w.timed.entry.connectionIsActive = true ∧ NotTimedOut w.timed.entry := by
  obtain ⟨w, hrun, hact⟩ := exists_execute (step (plainEnv .raw) 20) (start (plainEnv .raw) .handler 0)
    [.pass 12, .expire, .check, .pass 4, .input (PkgHeader.make pkgContentHeartbeatReply).image, .pass 5, .expire,
      .check, .pass 6, .expire, .pass 1, .check, .pass 4, .input (PkgHeader.make pkgContentHeartbeatReply).image,
      .pass 4, .expire, .check]
    (fun w => w.timed.entry.connectionIsActive = true) (by decide +kernel)
  exact ⟨w, hrun, hact, responsive_peer_is_kept (plainEnv .raw) (fun _ => rfl)
    ⟨2, 5, by decide, by decide, by decide, by decide⟩ 20 .handler 0 (by decide +kernel) hrun⟩

end Watched

end Opio.ProtoEntry
