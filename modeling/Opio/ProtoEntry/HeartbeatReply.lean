/-
How long a peer is given to answer a heartbeat request. The config of an entry counts the time to
reply from the last input on, so a request that is sent late leaves less of it: the peer has the
time the full config means it to have exactly if the check that sends the request is not later
than the longer one of the two timeouts, or so late that the time to reply has run out by then.
-/
import Opio.ProtoEntry.Heartbeat

namespace Opio.ProtoEntry

open Entry

variable {μ : Type}

/-! ## The config of an entry -/

/-- `entry_full_cfg_t`, as far as the config of an entry is made from it. -/
structure EntryFullCfg where
  initiateHeartbeatTimeoutMsec : UInt32
  awaitHeartbeatReplyTimeoutMsec : UInt32
  maxValidPackageSize : UInt32

/-- `std::chrono::milliseconds` in the ticks of the steady clock, which are nanoseconds. -/
def milliseconds (n : UInt32) : Int := 1000000 * n.toNat

/-- The sum is one of two `std::uint32_t`. -/
def EntryFullCfg.makeShortCfg (cfg : EntryFullCfg) : EntryCfg where
  maxValidPackageSize := cfg.maxValidPackageSize
  initiateHeartbeatTimeout := milliseconds cfg.initiateHeartbeatTimeoutMsec
  awaitHeartbeatReplyTimeout := milliseconds (cfg.initiateHeartbeatTimeoutMsec + cfg.awaitHeartbeatReplyTimeoutMsec)

def EntryEnv.withCfg (env : EntryEnv μ) (cfg : EntryFullCfg) : EntryEnv μ := { env with cfg := cfg.makeShortCfg }

namespace EntryFullCfg

/-- The time a peer has to answer at the least. -/
def timeToReply (cfg : EntryFullCfg) : Int :=
  min (milliseconds cfg.initiateHeartbeatTimeoutMsec) (milliseconds cfg.awaitHeartbeatReplyTimeoutMsec)

/-- With a sum that does not wrap, a request leaves the time to reply if it is sent no later than
the longer timeout. -/
theorem makeShortCfg_no_wrap (cfg : EntryFullCfg)
    (h : cfg.initiateHeartbeatTimeoutMsec.toNat + cfg.awaitHeartbeatReplyTimeoutMsec.toNat < 2 ^ 32) :
    cfg.makeShortCfg.awaitHeartbeatReplyTimeout - cfg.timeToReply =
      max (milliseconds cfg.initiateHeartbeatTimeoutMsec) (milliseconds cfg.awaitHeartbeatReplyTimeoutMsec) := by
  have hsum : (cfg.initiateHeartbeatTimeoutMsec + cfg.awaitHeartbeatReplyTimeoutMsec).toNat =
      cfg.initiateHeartbeatTimeoutMsec.toNat + cfg.awaitHeartbeatReplyTimeoutMsec.toNat := by
    rw [UInt32.toNat_add, Nat.mod_eq_of_lt h]
  simp only [makeShortCfg, timeToReply, milliseconds, hsum]
  omega

/-- With a sum that wraps, the time to reply has run out before it is time for a request. -/
theorem makeShortCfg_wrap (cfg : EntryFullCfg)
    (h : 2 ^ 32 ≤ cfg.initiateHeartbeatTimeoutMsec.toNat + cfg.awaitHeartbeatReplyTimeoutMsec.toNat) :
    cfg.makeShortCfg.awaitHeartbeatReplyTimeout < cfg.makeShortCfg.initiateHeartbeatTimeout := by
  have hi := cfg.initiateHeartbeatTimeoutMsec.toNat_lt
  have ha := cfg.awaitHeartbeatReplyTimeoutMsec.toNat_lt
  have hsum : (cfg.initiateHeartbeatTimeoutMsec + cfg.awaitHeartbeatReplyTimeoutMsec).toNat + 2 ^ 32 =
      cfg.initiateHeartbeatTimeoutMsec.toNat + cfg.awaitHeartbeatReplyTimeoutMsec.toNat := by
    rw [UInt32.toNat_add]
    omega
  simp only [makeShortCfg, milliseconds]
  omega

end EntryFullCfg

/-! ## Requests and timeouts -/

namespace Timed

variable {env : EntryEnv μ} {fuel : Nat} {s s' : Timed μ}

/-- The entry is given up because its peer did not answer. -/
def TimesOut (s s' : Timed μ) : Prop :=
  terminations s'.entry.events = terminations s.entry.events ++ [{ reason := .hearbeatReplyTimeout }]

/-- A heartbeat request was sent in the run at the time given, and no input was handled since. -/
def RequestSentAt (env : EntryEnv μ) (fuel : Nat) (s₀ : Timed μ) (turns : List Turn) (s : Timed μ) (sentAt : Int) :
    Prop :=
  ∃ before later s₁ s₂, turns = before ++ .check :: later ∧ execute (step env fuel) s₀ before = some s₁ ∧
    s₁.clock = sentAt ∧ step env fuel s₁ .check = some s₂ ∧
    s₂.entry.events = s₁.entry.events ++ [.scheduleSend (PkgHeader.make pkgContentHeartbeatRequest).image] ∧
    execute (step env fuel) s₂ later = some s ∧
    Along (step env fuel) (fun s turn => ¬ HandlesInput env fuel s turn) s₂ later

/-- The peer was sent a request so long ago, and no input was handled since. -/
def GivenTime (env : EntryEnv μ) (fuel : Nat) (time : Int) (s₀ : Timed μ) (turns : List Turn) (s : Timed μ) : Prop :=
  ∃ sentAt, RequestSentAt env fuel s₀ turns s sentAt ∧ time ≤ s.clock - sentAt

/-- The first request since the last input is sent no later than the longer timeout after that
input, or when the deadline for a reply is over already. -/
def RequestInTime (cfg : EntryFullCfg) (s : Timed μ) : Turn → Prop
  | .check => s.entry.heartbeatSentCount = 0 →
    cfg.makeShortCfg.initiateHeartbeatTimeout ≤ s.clock - s.entry.lastInputAt →
      s.clock - s.entry.lastInputAt < cfg.makeShortCfg.awaitHeartbeatReplyTimeout →
        s.clock - s.entry.lastInputAt ≤
          max (milliseconds cfg.initiateHeartbeatTimeoutMsec) (milliseconds cfg.awaitHeartbeatReplyTimeoutMsec)
  | _ => True

instance (cfg : EntryFullCfg) (s : Timed μ) (turn : Turn) : Decidable (RequestInTime cfg s turn) :=
  match turn with
  | .check => inferInstanceAs (Decidable (_ → _ → _ → _))
  | .pass _ => isTrue trivial
  | .expire => isTrue trivial
  | .input _ => isTrue trivial
  | .close => isTrue trivial
  | .connectionShutdown _ => isTrue trivial

/-- An entry that is not active any more stays so. -/
theorem active_of_step {turn : Turn} (h : step env fuel s turn = some s') (hact' : s'.entry.connectionIsActive = true) :
    s.entry.connectionIsActive = true := by
  have hitem : ∀ (s₁ : Timed μ) {i : Item}, s₁.runItem env fuel i = some s' → s₁.entry.connectionIsActive = true := by
    intro s₁ i h
    obtain ⟨e, he, rfl⟩ := runItem_cases h
    exact active_of_after he hact'
  cases turn with
  | pass d =>
    obtain rfl := Option.some.inj h
    exact hact'
  | expire =>
    obtain ⟨t, -, rfl⟩ := Option.map_eq_some_iff.1 h
    exact hact'
  | check =>
    cases ht : s.timer.take with
    | none =>
      rw [step, ht] at h
      cases h
    | some t =>
      rw [step, ht] at h
      exact hitem (s.withTimer t) h
  | input buf => exact hitem s h
  | close => exact hitem s h
  | connectionShutdown reason => exact hitem s h

/-- The check that gives an entry up has a request without an answer. -/
theorem timesOut_cases (h : step env fuel s .check = some s') (htimeout : TimesOut s s') :
    s.entry.connectionIsActive = true ∧ s.entry.heartbeatSentCount ≠ 0 ∧ ∃ t, s.timer.take = some t := by
  cases ht : s.timer.take with
  | none =>
    rw [step, ht] at h
    cases h
  | some t =>
    rw [step, ht] at h
    obtain ⟨e, he, rfl⟩ := runItem_cases h
    rcases after_passes he with hp | ⟨hact, ctx, e₁, hc⟩
    · have hterm := terminations_of_passes hp
      have hterm' : terminations e.events = terminations s.entry.events ++ [{ reason := .hearbeatReplyTimeout }] :=
        htimeout
      rw [hterm] at hterm'
      exact absurd (congrArg List.length hterm') (by simp [withTimer])
    · cases hc with
      | heartbeat _ hsent _ => exact ⟨hact, hsent, t, rfl⟩

/-! ## Every check after a request -/

/-- While the entry is active there is one wait at most; and when a request was counted, one was
sent, and no check that is under way runs before the peer has had its time. -/
def Waiting (env : EntryEnv μ) (fuel : Nat) (time : Int) (s₀ : Timed μ) (turns : List Turn) (s : Timed μ) : Prop :=
  s.entry.connectionIsActive = true → s.timer.waits ≤ 1 ∧
    (s.entry.heartbeatSentCount ≠ 0 →
      ∃ sentAt, RequestSentAt env fuel s₀ turns s sentAt ∧ s.timer.NotBefore (sentAt + time))

variable {time : Int} {s₀ : Timed μ} {turns : List Turn}

theorem RequestSentAt.concat {sentAt : Int} (h : RequestSentAt env fuel s₀ turns s sentAt) {turn : Turn}
    (hstep : step env fuel s turn = some s') (hinput : ¬ HandlesInput env fuel s turn) :
    RequestSentAt env fuel s₀ (turns ++ [turn]) s' sentAt := by
  obtain ⟨before, later, s₁, s₂, rfl, hbefore, hclock, hcheck, hevents, hlater, hnone⟩ := h
  refine ⟨before, later ++ [turn], s₁, s₂, by simp, hbefore, hclock, hcheck, hevents, ?_, ?_⟩
  · exact (execute_concat _ _ _ _).2 ⟨s, hlater, hstep⟩
  · exact along_concat hinput hnone hlater

/-- A check under way finds that the peer has had its time, and so does whatever is scheduled then. -/
theorem notBefore_of_take {t : Timer} (hone : s.timer.waits ≤ 1) (ht : s.timer.take = some t)
    (hclock : s'.timer.clock = s.clock) {x : Int} (h : s.timer.NotBefore x) : s'.timer.NotBefore x := by
  apply Timer.NotBefore.of_le
  rw [hclock]
  exact h.take hone ht

/-- A request that is sent in time leaves its peer the time. -/
theorem notBefore_of_request {cfg : EntryFullCfg} {t : Timer}
    (hlate : cfg.makeShortCfg.initiateHeartbeatTimeout ≤ s.clock - s.entry.lastInputAt)
    (htime : s.clock - s.entry.lastInputAt < cfg.makeShortCfg.awaitHeartbeatReplyTimeout →
      s.clock - s.entry.lastInputAt ≤
        max (milliseconds cfg.initiateHeartbeatTimeoutMsec) (milliseconds cfg.awaitHeartbeatReplyTimeoutMsec)) :
    (t.set (if s.clock - s.entry.lastInputAt < cfg.makeShortCfg.awaitHeartbeatReplyTimeout then
        s.entry.lastInputAt + cfg.makeShortCfg.awaitHeartbeatReplyTimeout
      else s.clock + cfg.makeShortCfg.initiateHeartbeatTimeout)).NotBefore (s.clock + cfg.timeToReply) := by
  apply Timer.notBefore_set
  right
  by_cases hawait : s.clock - s.entry.lastInputAt < cfg.makeShortCfg.awaitHeartbeatReplyTimeout
  · rw [if_pos hawait]
    have hle := htime hawait
    by_cases hwrap : cfg.initiateHeartbeatTimeoutMsec.toNat + cfg.awaitHeartbeatReplyTimeoutMsec.toNat < 2 ^ 32
    · have := cfg.makeShortCfg_no_wrap hwrap
      omega
    · -- no deadline is ahead of a request when the sum wraps
      have := cfg.makeShortCfg_wrap (Nat.not_lt.1 hwrap)
      omega
  · rw [if_neg hawait]
    have : cfg.timeToReply ≤ cfg.makeShortCfg.initiateHeartbeatTimeout := min_le_left _ _
    omega

theorem waiting_step {cfg : EntryFullCfg} (hrun : execute (step (env.withCfg cfg) fuel) s₀ turns = some s)
    (hw : Waiting (env.withCfg cfg) fuel cfg.timeToReply s₀ turns s) {turn : Turn} (htime : RequestInTime cfg s turn)
    (hstep : step (env.withCfg cfg) fuel s turn = some s') :
    Waiting (env.withCfg cfg) fuel cfg.timeToReply s₀ (turns ++ [turn]) s' := by
  intro hact'
  have hact := active_of_step hstep hact'
  obtain ⟨hone, hsent⟩ := hw hact
  -- what is left to show when the turn handles no input and sends no first request
  have hgoes : ¬ HandlesInput (env.withCfg cfg) fuel s turn →
      (∀ x, s.timer.NotBefore x → s'.timer.NotBefore x) → s.entry.heartbeatSentCount ≠ 0 →
        ∃ sentAt, RequestSentAt (env.withCfg cfg) fuel s₀ (turns ++ [turn]) s' sentAt ∧
          s'.timer.NotBefore (sentAt + cfg.timeToReply) := by
    intro hinput htimer h0
    obtain ⟨sentAt, hat, hnot⟩ := hsent h0
    exact ⟨sentAt, hat.concat hstep hinput, htimer _ hnot⟩
  cases step_effect hstep hact hact' with
  | pass heq =>
    rw [heq] at hgoes ⊢
    exact ⟨hone, hgoes id fun x hx => hx.pass _⟩
  | @expire t ht heq =>
    rw [heq] at hgoes ⊢
    exact ⟨(Timer.waits_expire ht).trans_le hone, hgoes id fun x hx => hx.expire ht⟩
  | input htimer hlast h0 =>
    rw [htimer]
    exact ⟨hone, fun h => absurd h0 h⟩
  | @early t ht hearly htimer hlast hcount =>
    obtain ⟨hexpired, -⟩ := Timer.expired_of_take hone ht
    refine ⟨by rw [htimer, Timer.waits_set, hexpired], fun h0 => hgoes id (fun x hx => ?_) (hcount ▸ h0)⟩
    apply notBefore_of_take hone ht _ hx
    rw [htimer, Timer.clock_set, Timer.clock_take ht]
    rfl
  | @request t ht hlate hunsent hentry htimer =>
    obtain ⟨hexpired, -⟩ := Timer.expired_of_take hone ht
    refine ⟨by rw [htimer, Timer.waits_set, hexpired], fun _ => ?_⟩
    by_cases h0 : s.entry.heartbeatSentCount = 0
    · refine ⟨s.clock, ⟨turns, [], s, s', rfl, hrun, rfl, hstep, by rw [hentry]; rfl, rfl, trivial⟩, ?_⟩
      rw [htimer]
      exact notBefore_of_request hlate (htime h0 hlate)
    · refine hgoes id (fun x hx => ?_) h0
      apply notBefore_of_take hone ht _ hx
      rw [htimer, Timer.clock_set, Timer.clock_take ht]
      rfl
  | threw hthrow hinput htimer hlast hcount =>
    rcases htimer with heq | ⟨rfl, ht⟩
    · rw [heq] at hgoes ⊢
      exact ⟨hone, fun h0 => hgoes hinput (fun _ => id) (hcount ▸ h0)⟩
    · refine ⟨by have := Timer.waits_take ht; omega, fun h0 => hgoes hinput (fun x hx => ?_) (hcount ▸ h0)⟩
      exact notBefore_of_take hone ht (Timer.clock_take ht) hx

theorem waiting_run {cfg : EntryFullCfg} {sh : ShutdownHandler} {now : Int} :
    ∀ {turns : List Turn} {s : Timed μ},
      execute (step (env.withCfg cfg) fuel) (start (env.withCfg cfg) sh now) turns = some s →
        Along (step (env.withCfg cfg) fuel) (RequestInTime cfg) (start (env.withCfg cfg) sh now) turns →
          Waiting (env.withCfg cfg) fuel cfg.timeToReply (start (env.withCfg cfg) sh now) turns s := by
  intro turns
  induction turns using List.reverseRecOn with
  | nil =>
    rintro s hrun -
    obtain rfl := Option.some.inj hrun
    exact fun _ => ⟨le_rfl, fun h0 => absurd rfl h0⟩
  | append_singleton turns turn ih =>
    intro s hrun htime
    obtain ⟨s₁, hrun₁, hstep⟩ := (execute_concat _ _ _ _).1 hrun
    obtain ⟨htime₁, hlast⟩ := along_of_concat htime hrun₁
    exact waiting_step hrun₁ (ih hrun₁ htime₁) hlast hstep

/-! ## Requests that come late -/

theorem after_request {e : Entry μ} {now : Int} (hact : e.connectionIsActive = true)
    (hlate : env.cfg.initiateHeartbeatTimeout ≤ now - e.lastInputAt) (h0 : e.heartbeatSentCount = 0) :
    after env fuel e (.checkHeartbeat now) = some (e.requested env now) := by
  have heffect := onCheckHeartbeat_effect env now e
  unfold after exec
  generalize (onCheckHeartbeat env now).run e = r at heffect ⊢
  cases heffect with
  | inactive hinactive => simp [hact] at hinactive
  | early _ hearly => omega
  | timeout _ _ hsent _ => exact absurd h0 hsent
  | request => rfl

theorem after_timeout (hret : ¬ HandlerMayThrow env) {e : Entry μ} {now : Int} (hact : e.connectionIsActive = true)
    (hlate : env.cfg.initiateHeartbeatTimeout ≤ now - e.lastInputAt) (hsent : e.heartbeatSentCount ≠ 0)
    (hawait : env.cfg.awaitHeartbeatReplyTimeout ≤ now - e.lastInputAt) :
    ∃ e', after env fuel e (.checkHeartbeat now) = some e' ∧ e'.connectionIsActive = false := by
  have heffect := onCheckHeartbeat_effect env now e
  unfold after exec
  generalize (onCheckHeartbeat env now).run e = r at heffect ⊢
  cases heffect with
  | inactive hinactive => simp [hact] at hinactive
  | early _ hearly => omega
  | timeout =>
    have hends := shutdownAndTerminate_heartbeat env { reason := .hearbeatReplyTimeout } e
    cases hrun : (shutdownAndTerminate env { reason := .hearbeatReplyTimeout }).run e with
    | ok _ e' =>
      rw [hrun] at hends
      exact ⟨e', rfl, hends⟩
    | error s e' =>
      rw [hrun] at hends
      exact absurd hends.2.2 hret
  | request _ _ hunsent =>
    rcases hunsent with h0 | hlt
    · exact absurd h0 hsent
    · omega

/-- A first request that is not sent in time is given less than its time, if no input follows. -/
theorem late_request_times_out (env : EntryEnv μ) (hret : ∀ evs, env.onShutdown evs = none) {cfg : EntryFullCfg}
    {s : Timed μ} {t : Timer} (hact : s.entry.connectionIsActive = true) (hone : s.timer.waits ≤ 1)
    (ht : s.timer.take = some t) (hlate : ¬ RequestInTime cfg s .check) :
    ∃ d s₁ s₂ s', step (env.withCfg cfg) fuel s .check = some s₁ ∧
      execute (step (env.withCfg cfg) fuel) s₁ [.pass d, .expire] = some s₂ ∧
      step (env.withCfg cfg) fuel s₂ .check = some s' ∧ TimesOut s₂ s' ∧ s₂.clock - s.clock < cfg.timeToReply := by
  obtain ⟨h0, hinitiate, hlt, hmax⟩ : s.entry.heartbeatSentCount = 0 ∧
      cfg.makeShortCfg.initiateHeartbeatTimeout ≤ s.clock - s.entry.lastInputAt ∧
      s.clock - s.entry.lastInputAt < cfg.makeShortCfg.awaitHeartbeatReplyTimeout ∧
      max (milliseconds cfg.initiateHeartbeatTimeoutMsec) (milliseconds cfg.awaitHeartbeatReplyTimeoutMsec) <
        s.clock - s.entry.lastInputAt := by
    simp only [RequestInTime, Classical.not_imp, Int.not_le] at hlate
    exact hlate
  -- the request leaves until the deadline, which is counted from the last input
  have hshort : cfg.makeShortCfg.awaitHeartbeatReplyTimeout - (s.clock - s.entry.lastInputAt) < cfg.timeToReply := by
    by_cases hwrap : cfg.initiateHeartbeatTimeoutMsec.toNat + cfg.awaitHeartbeatReplyTimeoutMsec.toNat < 2 ^ 32
    · have := cfg.makeShortCfg_no_wrap hwrap
      omega
    · have := cfg.makeShortCfg_wrap (Nat.not_lt.1 hwrap)
      omega
  obtain ⟨d, hd⟩ := Int.eq_ofNat_of_zero_le
    (show 0 ≤ cfg.makeShortCfg.awaitHeartbeatReplyTimeout - (s.clock - s.entry.lastInputAt) by omega)
  obtain ⟨hexpired, -⟩ := Timer.expired_of_take hone ht
  have hclock : t.clock = s.clock := Timer.clock_take ht
  have hrequest : after (env.withCfg cfg) fuel (s.withTimer t).entry (.checkHeartbeat s.clock) =
      some ((s.withTimer t).entry.requested (env.withCfg cfg) s.clock) := after_request hact hinitiate h0
  have hdeadline : ((s.withTimer t).entry.requested (env.withCfg cfg) s.clock).heartbeatTimer = some (s.clock + d) := by
    rw [← hd]
    exact congrArg (fun x => some (s.clock + x)) (if_pos hlt)
  let s₁ : Timed μ := { s.withTimer t with entry := (s.withTimer t).entry.requested (env.withCfg cfg) s.clock }
  let s₂ : Timed μ :=
    { entry := { s₁.entry with heartbeatTimer := none }, clock := s.clock + d, expired := 1 }
  have hs₁ : step (env.withCfg cfg) fuel s .check = some s₁ := by
    rw [step, ht]
    exact congrArg (Option.map _) hrequest
  have hexpire : (s₁.withTimer (s₁.timer.pass d)).timer.expire = some ⟨s.clock + d, none, 1⟩ := by
    have htimer : (s₁.withTimer (s₁.timer.pass d)).timer = ⟨s.clock + d, some (s.clock + d), 0⟩ := by
      change (⟨t.clock + d, s₁.entry.heartbeatTimer, t.expired⟩ : Timer) = _
      rw [hclock, hexpired, hdeadline]
    rw [htimer]
    exact if_pos le_rfl
  have hs₂ : execute (step (env.withCfg cfg) fuel) s₁ [.pass d, .expire] = some s₂ := by
    have hstep : step (env.withCfg cfg) fuel (s₁.withTimer (s₁.timer.pass d)) .expire = some s₂ := by
      rw [step, hexpire]
      rfl
    rw [execute, step]
    dsimp only
    rw [execute, hstep]
    rfl
  have hsent : s₂.entry.heartbeatSentCount ≠ 0 := by
    change s.entry.heartbeatSentCount + 1 ≠ 0
    rw [h0]
    decide
  have hret' : ∀ evs, (env.withCfg cfg).onShutdown evs = none := hret
  have hthrow : ¬ HandlerMayThrow (env.withCfg cfg) := by
    rintro ⟨evs, what, hthrow⟩
    rw [hret'] at hthrow
    cases hthrow
  obtain ⟨e', hcheck, hgone⟩ : ∃ e', after (env.withCfg cfg) fuel s₂.entry (.checkHeartbeat (s.clock + d)) = some e' ∧
      e'.connectionIsActive = false := by
    have hact₂ : s₂.entry.connectionIsActive = true := hact
    apply after_timeout hthrow hact₂ _ hsent
    · change cfg.makeShortCfg.awaitHeartbeatReplyTimeout ≤ s.clock + d - s.entry.lastInputAt
      omega
    · change cfg.makeShortCfg.initiateHeartbeatTimeout ≤ s.clock + d - s.entry.lastInputAt
      omega
  have hs' : step (env.withCfg cfg) fuel s₂ .check = some { s₂ with entry := e', expired := 0 } := by
    rw [step]
    exact congrArg (Option.map _) hcheck
  refine ⟨d, s₁, s₂, _, hs₁, hs₂, hs', ?_, ?_⟩
  · rcases step_terminations hret' hs' with ⟨hsame, -⟩ | ⟨-, -, ctx, hterm, hctx⟩
    · have hact' : e'.connectionIsActive = true := hsame.trans hact
      simp [hgone] at hact'
    · obtain rfl : ({ reason := .hearbeatReplyTimeout } : ConnectionShutdownContext) = ctx :=
        Option.some.inj (hctx rfl)
      exact hterm
  · change s.clock + d - s.clock < cfg.timeToReply
    omega

/-! ## Peers that do not answer -/

/-- In a run whose requests are sent in time, an entry that gives its peer up has sent it a request
and handled no input for the shorter one of the two timeouts, whatever the sum of the two. -/
theorem peer_is_given_time (env : EntryEnv μ) (cfg : EntryFullCfg) (fuel : Nat) (sh : ShutdownHandler) (now : Int)
    {turns : List Turn} {s s' : Timed μ}
    (hrun : execute (step (env.withCfg cfg) fuel) (start (env.withCfg cfg) sh now) turns = some s)
    (htime : Along (step (env.withCfg cfg) fuel) (RequestInTime cfg) (start (env.withCfg cfg) sh now) turns)
    (hcheck : step (env.withCfg cfg) fuel s .check = some s') (htimeout : TimesOut s s') :
    GivenTime (env.withCfg cfg) fuel cfg.timeToReply (start (env.withCfg cfg) sh now) turns s := by
  obtain ⟨hact, hsent, t, ht⟩ := timesOut_cases hcheck htimeout
  obtain ⟨hone, hwaiting⟩ := waiting_run hrun htime hact
  obtain ⟨sentAt, hat, hnot⟩ := hwaiting hsent
  refine ⟨sentAt, hat, ?_⟩
  have hle : sentAt + cfg.timeToReply ≤ s.clock := hnot.take hone ht
  omega

/-- Both timeouts are ten milliseconds long. -/
def tenMsec : EntryFullCfg where
  initiateHeartbeatTimeoutMsec := 10
  awaitHeartbeatReplyTimeoutMsec := 10
  maxValidPackageSize := 100

/-- The request is sent when it is due, and the peer gets the ten milliseconds. -/
theorem peer_is_given_time_on_time :
    ∃ s, execute (step ((plainEnv .raw).withCfg tenMsec) 5) (start ((plainEnv .raw).withCfg tenMsec) .handler 0)
        [.pass 10000000, .expire, .check, .pass 10000000, .expire] = some s ∧
      GivenTime ((plainEnv .raw).withCfg tenMsec) 5 tenMsec.timeToReply
        (start ((plainEnv .raw).withCfg tenMsec) .handler 0)
        [.pass 10000000, .expire, .check, .pass 10000000, .expire] s := by
  obtain ⟨s, hrun, hchecks⟩ := exists_execute (step ((plainEnv .raw).withCfg tenMsec) 5)
    (start ((plainEnv .raw).withCfg tenMsec) .handler 0) [.pass 10000000, .expire, .check, .pass 10000000, .expire]
    (fun s => (step ((plainEnv .raw).withCfg tenMsec) 5 s .check).any fun s' =>
      terminations s'.entry.events = terminations s.entry.events ++ [{ reason := .hearbeatReplyTimeout }])
    (by decide +kernel)
  cases hcheck : step ((plainEnv .raw).withCfg tenMsec) 5 s .check with
  | none =>
    rw [hcheck] at hchecks
    cases hchecks
  | some s' =>
    rw [hcheck] at hchecks
    have htimeout :
        terminations s'.entry.events = terminations s.entry.events ++ [{ reason := .hearbeatReplyTimeout }] :=
      of_decide_eq_true hchecks
    exact ⟨s, hrun, peer_is_given_time (plainEnv .raw) tenMsec 5 .handler 0 hrun (by decide +kernel) hcheck htimeout⟩

/-- The check that sends the request is five milliseconds late, and the peer gets five. -/
theorem peer_is_given_up_early :
    ∃ s s', execute (step ((plainEnv .raw).withCfg tenMsec) 5) (start ((plainEnv .raw).withCfg tenMsec) .handler 0)
        [.pass 15000000, .expire, .check, .pass 5000000, .expire] = some s ∧
      step ((plainEnv .raw).withCfg tenMsec) 5 s .check = some s' ∧ TimesOut s s' ∧
      ¬ GivenTime ((plainEnv .raw).withCfg tenMsec) 5 tenMsec.timeToReply
        (start ((plainEnv .raw).withCfg tenMsec) .handler 0)
        [.pass 15000000, .expire, .check, .pass 5000000, .expire] s := by
  obtain ⟨s, hrun, hclock, hchecks⟩ := exists_execute (step ((plainEnv .raw).withCfg tenMsec) 5)
    (start ((plainEnv .raw).withCfg tenMsec) .handler 0) [.pass 15000000, .expire, .check, .pass 5000000, .expire]
    (fun s => s.clock = 20000000 ∧ (step ((plainEnv .raw).withCfg tenMsec) 5 s .check).any fun s' =>
      terminations s'.entry.events = terminations s.entry.events ++ [{ reason := .hearbeatReplyTimeout }])
    (by decide +kernel)
  obtain ⟨s₀, hbefore, hclock₀⟩ := exists_execute (step ((plainEnv .raw).withCfg tenMsec) 5)
    (start ((plainEnv .raw).withCfg tenMsec) .handler 0) [.pass 15000000, .expire] (fun s => s.clock = 15000000)
    (by decide +kernel)
  cases hcheck : step ((plainEnv .raw).withCfg tenMsec) 5 s .check with
  | none =>
    rw [hcheck] at hchecks
    cases hchecks
  | some s' =>
    rw [hcheck] at hchecks
    have htimeout :
        terminations s'.entry.events = terminations s.entry.events ++ [{ reason := .hearbeatReplyTimeout }] :=
      of_decide_eq_true hchecks
    refine ⟨s, s', hrun, hcheck, htimeout, ?_⟩
    rintro ⟨sentAt, ⟨before, later, s₁, s₂, heq, hbefore', hsent, -⟩, htime⟩
    -- there is one check in the run
    obtain rfl : before = [.pass 15000000, .expire] := by
      rcases before with _ | ⟨t₁, _ | ⟨t₂, _ | ⟨t₃, _ | ⟨t₄, _ | ⟨t₅, before⟩⟩⟩⟩⟩ <;> simp_all
    obtain rfl : s₀ = s₁ := Option.some.inj (hbefore.symm.trans hbefore')
    have htime' : tenMsec.timeToReply = 10000000 := by decide
    omega

end Timed

end Opio.ProtoEntry
