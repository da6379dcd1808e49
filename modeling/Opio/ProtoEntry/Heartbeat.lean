/-
The heartbeat of an entry in time. The strand runs the work items of the entry one at a time, and
the handler of the heartbeat timer is one of them: it is queued when the wait is over, runs when
its turn comes, and can no longer be called off by then.

However late the handlers run, three checks without input in between are enough for the entry to
find that its peer is gone: the first may come too early for a request, the second sends one, and
the third finds it unanswered.
-/
import Opio.Lib.Timer
import Opio.ProtoEntry.ShutdownReport

namespace Opio.ProtoEntry

open Entry

variable {μ : Type}

/-- An entry with the clock it reads and the timer handlers queued on its strand; its timer is the
one of the entry. -/
structure Timed (μ : Type) where
  entry : Entry μ
  clock : Int
  expired : Nat

/-- What happens next: time passes, the wait of the timer is over, or the strand runs a work item. -/
inductive Turn
  | pass (d : Nat)
  | expire
  | check
  | input (buf : Bytes)
  | close
  | connectionShutdown (reason : ConnectionShutdownReason)
  deriving DecidableEq

def Turn.isInput : Turn → Bool
  | .input _ => true
  | _ => false

/-- The context an entry is given up with in a turn without input. -/
def Turn.context : Turn → Option ConnectionShutdownContext
  | .check => some { reason := .hearbeatReplyTimeout }
  | .close => some { reason := .userInitiated }
  | .connectionShutdown reason => some { reason := .underlyingConnection, underlyingReason := some reason }
  | _ => none

/-- The contexts the entry was given up with. -/
def terminations (evs : List (Event μ)) : List ConnectionShutdownContext :=
  evs.filterMap fun
    | .terminate ctx => some ctx
    | _ => none

namespace Timed

def timer (s : Timed μ) : Timer := ⟨s.clock, s.entry.heartbeatTimer, s.expired⟩

def withTimer (s : Timed μ) (t : Timer) : Timed μ :=
  { entry := { s.entry with heartbeatTimer := t.pending }, clock := t.clock, expired := t.expired }

/-- The strand runs a work item. -/
def runItem (env : EntryEnv μ) (fuel : Nat) (s : Timed μ) (i : Item) : Option (Timed μ) :=
  (after env fuel s.entry i).map fun e => { s with entry := e }

def step (env : EntryEnv μ) (fuel : Nat) (s : Timed μ) : Turn → Option (Timed μ)
  | .pass d => some (s.withTimer (s.timer.pass d))
  | .expire => s.timer.expire.map s.withTimer
  | .check =>
    match s.timer.take with
    | some t => (s.withTimer t).runItem env fuel (.checkHeartbeat s.clock)
    | none => none
  | .input buf => s.runItem env fuel (.input s.clock buf)
  | .close => s.runItem env fuel .close
  | .connectionShutdown reason => s.runItem env fuel (.connectionShutdown reason)

/-- An entry whose heartbeat has just been started. -/
def start (env : EntryEnv μ) (sh : ShutdownHandler) (now : Int) : Timed μ where
  entry := init env sh now
  clock := now
  expired := 0

end Timed

/-! ## What a work item does to the heartbeat -/

namespace Entry

variable {env : EntryEnv μ} {e e' e₁ : Entry μ}

/-- What the heartbeat check reads is as before. -/
structure SameHeartbeat (e e' : Entry μ) : Prop where
  connectionIsActive : e'.connectionIsActive = e.connectionIsActive
  lastInputAt : e'.lastInputAt = e.lastInputAt
  heartbeatSentCount : e'.heartbeatSentCount = e.heartbeatSentCount
  heartbeatTimer : e'.heartbeatTimer = e.heartbeatTimer

theorem SameHeartbeat.refl (e : Entry μ) : SameHeartbeat e e := ⟨rfl, rfl, rfl, rfl⟩

theorem SameHeartbeat.trans {e'' : Entry μ} (h : SameHeartbeat e e') (h' : SameHeartbeat e' e'') :
    SameHeartbeat e e'' :=
  ⟨h'.1.trans h.1, h'.2.trans h.2, h'.3.trans h.3, h'.4.trans h.4⟩

/-- The shutdown handler throws at some time. -/
def HandlerMayThrow (env : EntryEnv μ) : Prop := ∃ evs what, env.onShutdown evs = some what

/-- The entry is gone, or its handler has thrown and its heartbeat is as it was. -/
def GoneOrSame (env : EntryEnv μ) (e : Entry μ) : EStateM.Result Stop (Entry μ) Unit → Prop
  | .ok _ e' => e'.connectionIsActive = false
  | .error s e' => s.IsThrown ∧ SameHeartbeat e e' ∧ HandlerMayThrow env

theorem giveUp_heartbeat (env : EntryEnv μ) (ctx : ConnectionShutdownContext) (e : Entry μ) :
    GoneOrSame env e (giveUp env ctx e) := by
  unfold giveUp
  cases hthrows : e.shutdownHandler.throws env (e.calling ctx).events with
  | none => rfl
  | some what =>
    refine ⟨⟨what, rfl⟩, ⟨rfl, rfl, rfl, rfl⟩, (e.calling ctx).events, what, ?_⟩
    cases hsh : e.shutdownHandler with
    | handler => rwa [hsh] at hthrows
    | handler2 => rwa [hsh] at hthrows
    | notSupplied =>
      rw [hsh] at hthrows
      cases hthrows
    | wasCalled =>
      rw [hsh] at hthrows
      cases hthrows

theorem GoneOrSame.of_same {r : EStateM.Result Stop (Entry μ) Unit} (hsame : SameHeartbeat e e₁)
    (h : GoneOrSame env e₁ r) : GoneOrSame env e r := by
  cases r with
  | ok _ e' => exact h
  | error s e' => exact ⟨h.1, hsame.trans h.2.1, h.2.2⟩

theorem GoneOrSame.of_leaves {r : EStateM.Result Stop (Entry μ) Unit} (h : GoneOrSame env e r) (hleaves : Leaves r e') :
    e'.connectionIsActive = false ∨ SameHeartbeat e e' ∧ HandlerMayThrow env := by
  rcases hleaves with rfl | ⟨what, rfl⟩
  · exact .inl h
  · exact .inr h.2

theorem shutdownAndTerminate_heartbeat (env : EntryEnv μ) (ctx : ConnectionShutdownContext) (e : Entry μ) :
    GoneOrSame env e ((shutdownAndTerminate env ctx).run e) := by
  rcases Bool.eq_false_or_eq_true e.connectionIsActive with hact | hact
  · rw [run_shutdownAndTerminate env ctx hact]
    have hsame : SameHeartbeat e e.shutDown := ⟨rfl, rfl, rfl, rfl⟩
    exact .of_same hsame (giveUp_heartbeat env ctx e.shutDown)
  · rw [shutdownAndTerminate_inactive env ctx hact]
    exact hact

theorem handleShutdown_heartbeat (env : EntryEnv μ) (reason : ConnectionShutdownReason) (e : Entry μ) :
    GoneOrSame env e ((handleShutdown env reason).run e) := by
  rcases Bool.eq_false_or_eq_true e.connectionIsActive with hact | hact
  · rw [run_handleShutdown env reason hact]
    exact giveUp_heartbeat env _ e
  · rw [handleShutdown_inactive env reason hact]
    exact hact

theorem GivenUp.heartbeat {now : Int} {ctx : ConnectionShutdownContext} {r : EStateM.Result Stop (Entry μ) Unit}
    (h : GivenUp env now e ctx r) : GoneOrSame env e r := by
  have hfirst := shutdownAndTerminate_heartbeat env ctx e
  cases h with
  | rejected h =>
    rw [h] at hfirst
    exact hfirst
  | exception => exact hfirst
  | rejectedThrew h =>
    rw [h] at hfirst
    exact .of_same hfirst.2.1 (shutdownAndTerminate_heartbeat env _ _)

/-- A chunk is handled, and the count of requests begins anew; or the entry is gone; or its handler
has thrown and its heartbeat is as it was. -/
theorem after_input_heartbeat {fuel : Nat} {now : Int} {buf : Bytes} (h : after env fuel e (.input now buf) = some e') :
    e'.connectionIsActive = false ∨ SameHeartbeat { e with lastInputAt := now, heartbeatSentCount := 0 } e' ∨
      SameHeartbeat e e' ∧ HandlerMayThrow env ∧
        ∃ what, (handleInput env fuel now buf).run e = .error (.thrown what) e' := by
  have hleaves : Leaves ((handleInput env fuel now buf).run e) e' := after_leaves h
  rcases handleInput_cases hleaves with
    ⟨_, e₁, ⟨q, -, rfl⟩, hgoes, rfl⟩ | ⟨_, e₁, e₂, ctx, ⟨q, -, rfl⟩, -, hgoes, -, hgiven⟩
  · exact .inr (.inl ⟨hgoes.connectionIsActive, rfl, rfl, hgoes.heartbeatTimer⟩)
  · have hsame : SameHeartbeat e e₂ :=
      ⟨hgoes.connectionIsActive, hgoes.lastInputAt, hgoes.heartbeatSentCount, hgoes.heartbeatTimer⟩
    have hends := hgiven.heartbeat
    rcases hleaves with hrun | ⟨what, hrun⟩
    · rw [hrun] at hends
      exact .inl hends
    · rw [hrun] at hends
      exact .inr (.inr ⟨hsame.trans hends.2.1, hends.2.2, what, hrun⟩)

end Entry

/-! ## Turns -/

namespace Timed

variable {env : EntryEnv μ} {fuel : Nat} {s s' : Timed μ}

/-- `handle_input` returns. -/
def HandlesInput (env : EntryEnv μ) (fuel : Nat) (s : Timed μ) : Turn → Prop
  | .input buf => ∃ e, (handleInput env fuel s.clock buf).run s.entry = .ok () e
  | _ => False

/-- What a turn does to the heartbeat of an active entry, unless the entry terminates. -/
inductive TurnEffect (env : EntryEnv μ) (fuel : Nat) (s s' : Timed μ) : Turn → Prop
  | pass {d : Nat} (h : s' = s.withTimer (s.timer.pass d)) : TurnEffect env fuel s s' (.pass d)
  | expire {t : Timer} (ht : s.timer.expire = some t) (h : s' = s.withTimer t) : TurnEffect env fuel s s' .expire
  | input {buf : Bytes} (htimer : s'.timer = s.timer) (hlast : s'.entry.lastInputAt = s.clock)
    (hsent : s'.entry.heartbeatSentCount = 0) : TurnEffect env fuel s s' (.input buf)
  | early {t : Timer} (ht : s.timer.take = some t)
    (hearly : s.clock - s.entry.lastInputAt < env.cfg.initiateHeartbeatTimeout)
    (htimer : s'.timer = t.set (s.entry.lastInputAt + env.cfg.initiateHeartbeatTimeout))
    (hlast : s'.entry.lastInputAt = s.entry.lastInputAt)
    (hsent : s'.entry.heartbeatSentCount = s.entry.heartbeatSentCount) : TurnEffect env fuel s s' .check
  | request {t : Timer} (ht : s.timer.take = some t)
    (hlate : env.cfg.initiateHeartbeatTimeout ≤ s.clock - s.entry.lastInputAt)
    (hunsent : s.entry.heartbeatSentCount = 0 ∨
      s.clock - s.entry.lastInputAt < env.cfg.awaitHeartbeatReplyTimeout)
    (hentry : s'.entry = requested env s.clock { s.entry with heartbeatTimer := t.pending })
    (htimer : s'.timer = t.set
      (if s.clock - s.entry.lastInputAt < env.cfg.awaitHeartbeatReplyTimeout then
        s.entry.lastInputAt + env.cfg.awaitHeartbeatReplyTimeout
      else s.clock + env.cfg.initiateHeartbeatTimeout)) : TurnEffect env fuel s s' .check
  /-- The shutdown handler has thrown: a chunk is not handled to its end, a check uses its wait up. -/
  | threw {turn : Turn} (hthrow : HandlerMayThrow env) (hinput : ¬ HandlesInput env fuel s turn)
    (htimer : s'.timer = s.timer ∨ turn = .check ∧ s.timer.take = some s'.timer)
    (hlast : s'.entry.lastInputAt = s.entry.lastInputAt)
    (hsent : s'.entry.heartbeatSentCount = s.entry.heartbeatSentCount) : TurnEffect env fuel s s' turn

theorem runItem_cases {i : Item} (h : s.runItem env fuel i = some s') :
    ∃ e, after env fuel s.entry i = some e ∧ s' = { s with entry := e } := by
  obtain ⟨e, he, rfl⟩ := Option.map_eq_some_iff.1 h
  exact ⟨e, he, rfl⟩

/-- An item that gives the entry up ends it, or leaves its heartbeat as it is. -/
theorem givesUp_effect {turn : Turn} {e' : Entry μ} (hinput : ¬ HandlesInput env fuel s turn)
    (h : e'.connectionIsActive = false ∨ SameHeartbeat s.entry e' ∧ HandlerMayThrow env) :
    e'.connectionIsActive = true → TurnEffect env fuel s { s with entry := e' } turn := by
  intro hact
  rcases h with hgone | ⟨hsame, hthrow⟩
  · simp [hact] at hgone
  · refine .threw hthrow hinput (.inl ?_) hsame.lastInputAt hsame.heartbeatSentCount
    rw [timer, timer, hsame.heartbeatTimer]

theorem check_effect {t : Timer} (ht : s.timer.take = some t) (hact : s.entry.connectionIsActive = true)
    {e : Entry μ} (h : after env fuel (s.withTimer t).entry (.checkHeartbeat s.clock) = some e)
    (hact' : e.connectionIsActive = true) : TurnEffect env fuel s { s.withTimer t with entry := e } .check := by
  have hclock : t.clock = s.clock := Timer.clock_take ht
  have hleaves := after_leaves h
  have heffect := onCheckHeartbeat_effect env s.clock (s.withTimer t).entry
  change Leaves ((onCheckHeartbeat env s.clock).run (s.withTimer t).entry) e at hleaves
  generalize (onCheckHeartbeat env s.clock).run (s.withTimer t).entry = r at heffect hleaves
  cases heffect with
  | inactive hinactive =>
    have hinactive : s.entry.connectionIsActive = false := hinactive
    simp [hact] at hinactive
  | early _ hearly =>
    obtain rfl := hleaves.of_ok
    refine .early ht hearly ?_ rfl rfl
    have hsum : s.clock + (env.cfg.initiateHeartbeatTimeout - (s.clock - s.entry.lastInputAt)) =
        s.entry.lastInputAt + env.cfg.initiateHeartbeatTimeout := by omega
    rw [← hsum]
    rfl
  | timeout _ hlate hsent hawait =>
    -- active after a timeout: the shutdown handler threw
    rcases (shutdownAndTerminate_heartbeat env _ _).of_leaves hleaves with hgone | ⟨hsame, hthrow⟩
    · simp [hact'] at hgone
    · refine .threw hthrow id (.inr ⟨rfl, ?_⟩) hsame.lastInputAt hsame.heartbeatSentCount
      rw [ht]
      congr 1
      rw [timer, hsame.heartbeatTimer]
      rfl
  | request _ hlate hunsent =>
    obtain rfl := hleaves.of_ok
    refine .request ht hlate hunsent rfl ?_
    have hsum : s.clock + (env.cfg.awaitHeartbeatReplyTimeout - (s.clock - s.entry.lastInputAt)) =
        s.entry.lastInputAt + env.cfg.awaitHeartbeatReplyTimeout := by omega
    have hdeadline : (requested env s.clock (s.withTimer t).entry).heartbeatTimer =
        some (if s.clock - s.entry.lastInputAt < env.cfg.awaitHeartbeatReplyTimeout then
          s.entry.lastInputAt + env.cfg.awaitHeartbeatReplyTimeout
        else s.clock + env.cfg.initiateHeartbeatTimeout) := by
      by_cases hawait : s.clock - s.entry.lastInputAt < env.cfg.awaitHeartbeatReplyTimeout
      · rw [if_pos hawait, ← hsum]
        exact congrArg (fun x => some (s.clock + x)) (if_pos hawait)
      · rw [if_neg hawait]
        exact congrArg (fun x => some (s.clock + x)) (if_neg hawait)
    rw [timer, hdeadline]
    rfl

/-- Said once: what a turn makes of an active entry that stays active. -/
theorem step_effect {turn : Turn} (h : step env fuel s turn = some s') (hact : s.entry.connectionIsActive = true)
    (hact' : s'.entry.connectionIsActive = true) : TurnEffect env fuel s s' turn := by
  cases turn with
  | pass d => exact .pass (Option.some.inj h).symm
  | expire =>
    obtain ⟨t, ht, heq⟩ := Option.map_eq_some_iff.1 h
    exact .expire ht heq.symm
  | check =>
    cases ht : s.timer.take with
    | none =>
      rw [step, ht] at h
      cases h
    | some t =>
      rw [step, ht] at h
      obtain ⟨e, he, rfl⟩ := runItem_cases h
      exact check_effect ht hact he hact'
  | input buf =>
    obtain ⟨e, he, rfl⟩ := runItem_cases h
    rcases after_input_heartbeat he with hgone | hsame | ⟨hsame, hthrow, what, hrun⟩
    · have hact' : e.connectionIsActive = true := hact'
      simp [hact'] at hgone
    · refine .input ?_ hsame.lastInputAt hsame.heartbeatSentCount
      rw [timer, timer, hsame.heartbeatTimer]
    · refine givesUp_effect ?_ (.inr ⟨hsame, hthrow⟩) hact'
      rintro ⟨e', hok⟩
      rw [hrun] at hok
      cases hok
  | close =>
    obtain ⟨e, he, rfl⟩ := runItem_cases h
    exact givesUp_effect id ((shutdownAndTerminate_heartbeat env _ s.entry).of_leaves (after_leaves he)) hact'
  | connectionShutdown reason =>
    obtain ⟨e, he, rfl⟩ := runItem_cases h
    exact givesUp_effect id ((handleShutdown_heartbeat env reason s.entry).of_leaves (after_leaves he)) hact'

/-! ## How an entry ends when its handler does not throw -/

theorem terminations_append (evs evs' : List (Event μ)) :
    terminations (evs ++ evs') = terminations evs ++ terminations evs' := List.filterMap_append

theorem terminations_eq_nil {evs : List (Event μ)} (h : ∀ ev ∈ evs, ∀ ctx, ev ≠ .terminate ctx) :
    terminations evs = [] := by
  apply List.filterMap_eq_nil_iff.2
  intro ev hev
  cases ev with
  | terminate ctx => exact absurd rfl (h _ hev ctx)
  | _ => rfl

theorem terminations_of_passes {e e' : Entry μ} (h : Passes e e') : terminations e'.events = terminations e.events := by
  obtain ⟨evs, hevs, hend⟩ := h.events
  have hnil : terminations evs = [] := by
    apply terminations_eq_nil
    rintro ev hev ctx rfl
    exact hend _ hev trivial
  rw [hevs, terminations_append, hnil, List.append_nil]

theorem terminations_of_gone {e e' : Entry μ} {ctx : ConnectionShutdownContext} (h : Gone env ctx e e') :
    terminations e'.events = terminations e.events ++ [ctx] := by
  obtain ⟨evs, hevs, heq, -⟩ := h.events
  have hcall : terminations (e.shutdownHandler.call ctx : List (Event μ)) = [] := by
    cases e.shutdownHandler <;> rfl
  have hevs' : terminations evs = [] := by
    apply terminations_eq_nil
    intro ev hev ctx' hctx
    rw [hevs ev hev] at hctx
    cases hctx
  simp only [heq, terminations_append, hcall, hevs', List.append_nil]
  exact List.append_nil _

theorem Ended.gone_of_returns {e e' : Entry μ} {ctx : ConnectionShutdownContext} (h : Ended env ctx e e')
    (hret : ∀ evs, env.onShutdown evs = none) : Gone env ctx e e' := by
  have hnone : ∀ (sh : ShutdownHandler) evs, sh.throws env evs = none := by
    intro sh evs
    cases sh with
    | handler => exact hret evs
    | handler2 => exact hret evs
    | _ => rfl
  have hthrew : ∀ {ctx' e₁}, ¬ Threw env ctx' e e₁ := fun h => by
    obtain ⟨-, -, -, hthrows⟩ := h.events
    exact hthrows (hnone _ _)
  cases h with
  | gone h => exact h
  | threw h => exact absurd h hthrew
  | threwThenGone h h' => exact absurd h hthrew
  | threwTwice h h' => exact absurd h hthrew

/-- A turn leaves the entry as active as it was, or gives it up with a context of its own. -/
theorem step_terminations (hret : ∀ evs, env.onShutdown evs = none) {turn : Turn}
    (h : step env fuel s turn = some s') :
    s'.entry.connectionIsActive = s.entry.connectionIsActive ∧
        terminations s'.entry.events = terminations s.entry.events ∨
      s.entry.connectionIsActive = true ∧ s'.entry.connectionIsActive = false ∧ ∃ ctx,
        terminations s'.entry.events = terminations s.entry.events ++ [ctx] ∧
          (turn.isInput = false → turn.context = some ctx) := by
  have hitem : ∀ (s₁ : Timed μ) {i : Item} (hcontext : ∀ ctx e₁, Cause env s₁.entry i ctx e₁ →
      turn.isInput = false → turn.context = some ctx), s₁.runItem env fuel i = some s' →
        s'.entry.connectionIsActive = s₁.entry.connectionIsActive ∧
            terminations s'.entry.events = terminations s₁.entry.events ∨
          s₁.entry.connectionIsActive = true ∧ s'.entry.connectionIsActive = false ∧ ∃ ctx,
            terminations s'.entry.events = terminations s₁.entry.events ++ [ctx] ∧
              (turn.isInput = false → turn.context = some ctx) := by
    intro s₁ i hcontext h
    obtain ⟨e, he, rfl⟩ := runItem_cases h
    -- an item passes over the entry or is the cause of its one termination
    rcases after_passes he with hp | ⟨hact, ctx, e₁, hc⟩
    · exact .inl ⟨hp.connectionIsActive, terminations_of_passes hp⟩
    · have hgone := Ended.gone_of_returns (hc.ended hact he) hret
      refine .inr ⟨hact, hgone.inactive, ctx, ?_, hcontext ctx e₁ hc⟩
      rw [terminations_of_gone hgone, terminations_of_passes hc.passes]
  cases turn with
  | pass d =>
    obtain rfl := Option.some.inj h
    exact .inl ⟨rfl, rfl⟩
  | expire =>
    obtain ⟨t, -, rfl⟩ := Option.map_eq_some_iff.1 h
    exact .inl ⟨rfl, rfl⟩
  | check =>
    cases ht : s.timer.take with
    | none =>
      rw [step, ht] at h
      cases h
    | some t =>
      rw [step, ht] at h
      refine hitem (s.withTimer t) ?_ h
      rintro ctx e₁ ⟨⟩ -
      rfl
  | input buf => exact hitem s (fun _ _ _ hinput => by simp [Turn.isInput] at hinput) h
  | close =>
    refine hitem s ?_ h
    rintro ctx e₁ ⟨⟩ -
    rfl
  | connectionShutdown reason =>
    refine hitem s ?_ h
    rintro ctx e₁ ⟨⟩ -
    rfl

/-! ## The countdown -/

/-- How far an entry is from finding its peer dead, in checks. -/
inductive Stage (env : EntryEnv μ) (s : Timed μ) : Nat → Prop
  /-- The check that is due may come too early for a request. -/
  | first {n : Nat} (hsent : s.entry.heartbeatSentCount = 0) : Stage env s (n + 3)
  /-- The check that is due sends a request. -/
  | second {n : Nat} (hsent : s.entry.heartbeatSentCount = 0)
    (hinitiate : s.timer.NotBefore (s.entry.lastInputAt + env.cfg.initiateHeartbeatTimeout)) : Stage env s (n + 2)
  /-- The check that is due finds a request unanswered for long enough. -/
  | third {n : Nat} (hsent : s.entry.heartbeatSentCount ≠ 0)
    (hinitiate : s.timer.NotBefore (s.entry.lastInputAt + env.cfg.initiateHeartbeatTimeout))
    (hawait : s.timer.NotBefore (s.entry.lastInputAt + env.cfg.awaitHeartbeatReplyTimeout)) : Stage env s (n + 1)

theorem Stage.mono {m n : Nat} (h : Stage env s m) (hle : m ≤ n) : Stage env s n := by
  obtain ⟨k, rfl⟩ := Nat.exists_eq_add_of_le hle
  cases h with
  | @first n hsent => exact Nat.add_right_comm n 3 k ▸ .first hsent
  | @second n hsent hinitiate => exact Nat.add_right_comm n 2 k ▸ .second hsent hinitiate
  | @third n hsent hinitiate hawait => exact Nat.add_right_comm n 1 k ▸ .third hsent hinitiate hawait

/-- A turn that leaves alone what the check reads, and lets no handler run earlier. -/
theorem Stage.congr {n : Nat} (h : Stage env s n) (hsent : s'.entry.heartbeatSentCount = s.entry.heartbeatSentCount)
    (hlast : s'.entry.lastInputAt = s.entry.lastInputAt)
    (htimer : ∀ x, s.timer.NotBefore x → s'.timer.NotBefore x) : Stage env s' n := by
  cases h with
  | first h => exact .first (hsent.trans h)
  | second h hinitiate => exact .second (hsent.trans h) (by rw [hlast]; exact htimer _ hinitiate)
  | third h hinitiate hawait =>
    refine .third (by rw [hsent]; exact h) ?_ ?_
    · rw [hlast]
      exact htimer _ hinitiate
    · rw [hlast]
      exact htimer _ hawait

/-- As long as the entry is active one wait is under way, and the entry is at most as many checks
from finding its peer dead. -/
def Countdown (env : EntryEnv μ) (n : Nat) (s : Timed μ) : Prop :=
  s.entry.connectionIsActive = true → s.timer.waits = 1 ∧ Stage env s n

theorem countdown_start (env : EntryEnv μ) (sh : ShutdownHandler) (now : Int) : Countdown env 3 (start env sh now) :=
  fun _ => ⟨rfl, .first rfl⟩

/-- A check takes one off the countdown. -/
theorem stage_check {n : Nat} {t : Timer} (hone : s.timer.waits = 1) (hstage : Stage env s (n + 1))
    (ht : s.timer.take = some t) (hret : ¬ HandlerMayThrow env) (h : TurnEffect env fuel s s' .check) :
    s'.timer.waits = 1 ∧ Stage env s' n := by
  have hclock : t.clock = s.clock := Timer.clock_take ht
  obtain ⟨hexpired, -⟩ := Timer.expired_of_take hone.le ht
  cases h with
  | @early t' ht' hearly htimer hlast hsent =>
    obtain rfl := Option.some.inj (ht'.symm.trans ht)
    refine ⟨by rw [htimer, Timer.waits_set, hexpired], ?_⟩
    have htoo_early : ¬ s.timer.NotBefore (s.entry.lastInputAt + env.cfg.initiateHeartbeatTimeout) := by
      intro hnot
      have hle : s.entry.lastInputAt + env.cfg.initiateHeartbeatTimeout ≤ s.clock := hnot.take hone.le ht
      omega
    -- only the first check can be early, and the next one is due in time for a request
    generalize hm : n + 1 = m at hstage
    cases hstage with
    | second _ hinitiate => exact absurd hinitiate htoo_early
    | third _ hinitiate _ => exact absurd hinitiate htoo_early
    | @first k h =>
      obtain rfl : n = k + 2 := by omega
      refine .second (hsent.trans h) ?_
      rw [htimer, hlast]
      exact Timer.notBefore_set (.inr le_rfl)
  | @request t' ht' hlate hunsent hentry htimer =>
    obtain rfl := Option.some.inj (ht'.symm.trans ht)
    refine ⟨by rw [htimer, Timer.waits_set, hexpired], ?_⟩
    have hlast : s'.entry.lastInputAt = s.entry.lastInputAt := by rw [hentry]; rfl
    have hsent' : s'.entry.heartbeatSentCount = s.entry.heartbeatSentCount + 1 := by rw [hentry]; rfl
    -- a request is not repeated: the check after it comes when the time to reply has run out
    have hsent : s.entry.heartbeatSentCount = 0 ∧ 1 ≤ n := by
      generalize hm : n + 1 = m at hstage
      cases hstage with
      | first h => exact ⟨h, by omega⟩
      | second h _ => exact ⟨h, by omega⟩
      | third h _ hawait =>
        have hle : s.entry.lastInputAt + env.cfg.awaitHeartbeatReplyTimeout ≤ s.clock := hawait.take hone.le ht
        rcases hunsent with h0 | hlt
        · exact absurd h0 h
        · omega
    obtain ⟨k, rfl⟩ := Nat.exists_eq_add_of_le' hsent.2
    refine .third (by rw [hsent', hsent.1]; decide) ?_ ?_
    · rw [htimer, hlast]
      refine Timer.notBefore_set (.inl ?_)
      rw [hclock]
      omega
    · rw [htimer, hlast]
      apply Timer.notBefore_set
      by_cases hawait : s.clock - s.entry.lastInputAt < env.cfg.awaitHeartbeatReplyTimeout
      · rw [if_pos hawait]
        exact .inr le_rfl
      · left
        rw [hclock]
        omega
  | threw hthrow => exact absurd hthrow hret

theorem countdown_step (hret : ∀ evs, env.onShutdown evs = none) {turn : Turn} (hinput : turn.isInput = false) {n : Nat}
    (hc : Countdown env (n + if turn = .check then 1 else 0) s) (h : step env fuel s turn = some s') :
    Countdown env n s' := by
  intro hact'
  have hact : s.entry.connectionIsActive = true := by
    rcases step_terminations hret h with ⟨heq, -⟩ | ⟨-, hgone, -⟩
    · exact heq ▸ hact'
    · simp [hact'] at hgone
  have hret' : ¬ HandlerMayThrow env := by
    rintro ⟨evs, what, hthrow⟩
    rw [hret] at hthrow
    cases hthrow
  obtain ⟨hone, hstage⟩ := hc hact
  have heffect := step_effect h hact hact'
  -- only a check counts down; the rest keeps what is known of the next check
  cases turn with
  | check =>
    rw [if_pos rfl] at hstage
    cases ht : s.timer.take with
    | none =>
      rw [step, ht] at h
      cases h
    | some t => exact stage_check hone hstage ht hret' heffect
  | input buf => cases hinput
  | pass d =>
    rw [if_neg (by simp), Nat.add_zero] at hstage
    cases heffect with
    | pass h => rw [h]; exact ⟨hone, hstage.congr rfl rfl fun x hx => hx.pass d⟩
    | threw hthrow => exact absurd hthrow hret'
  | expire =>
    rw [if_neg (by simp), Nat.add_zero] at hstage
    cases heffect with
    | @expire t ht h =>
      rw [h]
      exact ⟨(Timer.waits_expire ht).trans hone, hstage.congr rfl rfl fun x hx => hx.expire ht⟩
    | threw hthrow => exact absurd hthrow hret'
  | close =>
    cases heffect with
    | threw hthrow => exact absurd hthrow hret'
  | connectionShutdown reason =>
    cases heffect with
    | threw hthrow => exact absurd hthrow hret'

/-- A chunk of input starts the countdown anew. -/
theorem countdown_input (hret : ∀ evs, env.onShutdown evs = none) {buf : Bytes} {n : Nat} (hc : Countdown env n s)
    (h : step env fuel s (.input buf) = some s') : Countdown env 3 s' := by
  intro hact'
  have hact : s.entry.connectionIsActive = true := by
    rcases step_terminations hret h with ⟨heq, -⟩ | ⟨-, hgone, -⟩
    · exact heq ▸ hact'
    · simp [hact'] at hgone
  cases step_effect h hact hact' with
  | input htimer hlast hsent =>
    rw [htimer]
    exact ⟨(hc hact).1, .first hsent⟩
  | threw hthrow =>
    obtain ⟨evs, what, hthrow⟩ := hthrow
    rw [hret] at hthrow
    cases hthrow

/-- Every state of a run is at most three checks from the end of the countdown. -/
theorem countdown_run (hret : ∀ evs, env.onShutdown evs = none) {sh : ShutdownHandler} {now : Int} {turns : List Turn}
    (h : execute (step env fuel) (start env sh now) turns = some s) : Countdown env 3 s := by
  refine execute_history (I := fun _ => Countdown env 3) (countdown_start env sh now) ?_ h
  intro _ turn s s' _ hc hstep
  by_cases hinput : turn.isInput = false
  · apply countdown_step hret hinput _ hstep
    intro hact
    exact ⟨(hc hact).1, (hc hact).2.mono (Nat.le_add_right _ _)⟩
  · cases turn with
    | input buf => exact countdown_input hret hc hstep
    | _ => simp [Turn.isInput] at hinput

/-- Turns without input, the checks among them counted. -/
theorem countdown_turns (hret : ∀ evs, env.onShutdown evs = none) {n : Nat} :
    ∀ (turns : List Turn) {s s' : Timed μ}, (∀ turn ∈ turns, turn.isInput = false) →
      Countdown env (turns.count .check + n) s → execute (step env fuel) s turns = some s' → Countdown env n s'
  | [], s, s', _, hc, h => by
    rw [← Option.some.inj h]
    simpa using hc
  | turn :: turns, s, s', hinput, hc, h => by
    rw [execute] at h
    cases hstep : step env fuel s turn with
    | none =>
      rw [hstep] at h
      cases h
    | some s₁ =>
      rw [hstep] at h
      refine countdown_turns hret turns (fun t ht => hinput t (List.mem_cons_of_mem _ ht)) ?_ h
      apply countdown_step hret (hinput turn (List.mem_cons_self ..)) _ hstep
      have hcount : (turn :: turns).count .check + n =
          turns.count .check + n + if turn = .check then 1 else 0 := by
        rw [List.count_cons, beq_eq_decide]
        by_cases hcheck : turn = .check
        · simp [hcheck]
          omega
        · simp [hcheck]
      rwa [hcount] at hc

/-! ## Dead peers -/

/-- The turn that found the entry active and gave it up has the context for its own: the peer did
not answer, the user closed the entry, or its connection was shut down. -/
def EndedBy (env : EntryEnv μ) (fuel : Nat) (s : Timed μ) (turns : List Turn) (ctx : ConnectionShutdownContext) :
    Prop :=
  ∃ before turn later s₁, turns = before ++ turn :: later ∧ execute (step env fuel) s before = some s₁ ∧
    s₁.entry.connectionIsActive = true ∧ turn.context = some ctx

theorem terminations_run (hret : ∀ evs, env.onShutdown evs = none) {sh : ShutdownHandler} {now : Int}
    {turns : List Turn} (h : execute (step env fuel) (start env sh now) turns = some s) :
    s.entry.connectionIsActive = true → terminations s.entry.events = [] := by
  refine execute_history (I := fun _ s => s.entry.connectionIsActive = true → terminations s.entry.events = [])
    (fun _ => rfl) ?_ h
  intro _ turn s s' _ hnil hstep hact'
  rcases step_terminations hret hstep with ⟨hact, hterm⟩ | ⟨-, hgone, -⟩
  · rw [hterm]
    exact hnil (hact ▸ hact')
  · simp [hact'] at hgone

/-- In turns without input an entry stays active, or is given up once, by one of the turns. -/
theorem ended_run (hret : ∀ evs, env.onShutdown evs = none) {turns : List Turn}
    (hact : s.entry.connectionIsActive = true) (hterm : terminations s.entry.events = [])
    (hinput : ∀ turn ∈ turns, turn.isInput = false) (h : execute (step env fuel) s turns = some s') :
    s'.entry.connectionIsActive = true ∧ terminations s'.entry.events = [] ∨
      s'.entry.connectionIsActive = false ∧ ∃ ctx, terminations s'.entry.events = [ctx] ∧
        EndedBy env fuel s turns ctx := by
  revert hinput
  refine execute_history (I := fun turns s' => (∀ turn ∈ turns, turn.isInput = false) →
    s'.entry.connectionIsActive = true ∧ terminations s'.entry.events = [] ∨
      s'.entry.connectionIsActive = false ∧ ∃ ctx, terminations s'.entry.events = [ctx] ∧
        EndedBy env fuel s turns ctx) (fun _ => .inl ⟨hact, hterm⟩) ?_ h
  intro turns turn s₁ s₂ hrun ih hstep hinput
  rcases ih fun t ht => hinput t (List.mem_append_left _ ht) with ⟨hact₁, hterm₁⟩ | ⟨hgone₁, ctx, hterm₁, hby⟩
  · rcases step_terminations hret hstep with ⟨hact₂, hterm₂⟩ | ⟨-, hgone₂, ctx, hterm₂, hctx⟩
    · exact .inl ⟨hact₂.trans hact₁, hterm₂.trans hterm₁⟩
    · refine .inr ⟨hgone₂, ctx, by rw [hterm₂, hterm₁, List.nil_append], ?_⟩
      exact ⟨turns, turn, [], s₁, rfl, hrun, hact₁, hctx (hinput turn (by simp))⟩
  · rcases step_terminations hret hstep with ⟨hact₂, hterm₂⟩ | ⟨hact₂, -⟩
    · obtain ⟨before, turn', later, s₀, rfl, hbefore⟩ := hby
      exact .inr ⟨hact₂.trans hgone₁, ctx, hterm₂.trans hterm₁, before, turn', later ++ [turn], s₀, by simp, hbefore⟩
    · simp [hgone₁] at hact₂

/-- While the entry is active one heartbeat wait is under way: it is pending, or its handler is
queued. From any state of a run on, three checks without input in between terminate the entry,
because of the peer unless something else came first. -/
theorem dead_peer_is_detected (env : EntryEnv μ) (hret : ∀ evs, env.onShutdown evs = none) (fuel : Nat)
    (sh : ShutdownHandler) (now : Int) {turns : List Turn} {s : Timed μ}
    (hrun : execute (step env fuel) (start env sh now) turns = some s) :
    (s.entry.connectionIsActive = true → s.timer.waits = 1) ∧
      ∀ {turns' : List Turn} {s' : Timed μ}, execute (step env fuel) s turns' = some s' →
        (∀ turn ∈ turns', turn.isInput = false) → 3 ≤ turns'.count .check →
          s'.entry.connectionIsActive = false ∧
            (s.entry.connectionIsActive = true →
              ∃ ctx, terminations s'.entry.events = [ctx] ∧ EndedBy env fuel s turns' ctx) := by
  have hcountdown := countdown_run hret hrun
  constructor
  · exact fun hact => (hcountdown hact).1
  intro turns' s' hrun' hinput hchecks
  have hgone : s'.entry.connectionIsActive = false := by
    rcases Bool.eq_false_or_eq_true s'.entry.connectionIsActive with hact | hact
    · have hc : Countdown env (turns'.count .check + 0) s := fun h => ⟨(hcountdown h).1, (hcountdown h).2.mono hchecks⟩
      -- no stage is left at zero checks
      obtain ⟨-, hstage⟩ := countdown_turns hret turns' hinput hc hrun' hact
      cases hstage
    · exact hact
  refine ⟨hgone, fun hact => ?_⟩
  rcases ended_run hret hact (terminations_run hret hrun hact) hinput hrun' with ⟨hact', -⟩ | ⟨-, h⟩
  · simp [hgone] at hact'
  · exact h

/-- A first check that comes late and a reply to its request, and then nothing any more. -/
theorem dead_peer_is_detected_late :
    ∃ s s', execute (step (plainEnv .raw) 5) (start (plainEnv .raw) .handler 0)
        [.pass 13, .expire, .pass 2, .check, .input (PkgHeader.make pkgContentHeartbeatReply).image] = some s ∧
      execute (step (plainEnv .raw) 5) s
        [.pass 5, .expire, .check, .pass 5, .expire, .check, .pass 10, .expire, .pass 100, .check] = some s' ∧
      s.timer.waits = 1 ∧ s'.entry.connectionIsActive = false := by
  obtain ⟨s, hrun, hact, s', hrun'⟩ : ∃ s, execute (step (plainEnv .raw) 5) (start (plainEnv .raw) .handler 0)
        [.pass 13, .expire, .pass 2, .check, .input (PkgHeader.make pkgContentHeartbeatReply).image] = some s ∧
      s.entry.connectionIsActive = true ∧ ∃ s', execute (step (plainEnv .raw) 5) s
        [.pass 5, .expire, .check, .pass 5, .expire, .check, .pass 10, .expire, .pass 100, .check] = some s' := by
    obtain ⟨s, hrun, hact, hruns⟩ := exists_execute (step (plainEnv .raw) 5) (start (plainEnv .raw) .handler 0)
      [.pass 13, .expire, .pass 2, .check, .input (PkgHeader.make pkgContentHeartbeatReply).image]
      (fun s => s.entry.connectionIsActive = true ∧ (execute (step (plainEnv .raw) 5) s
        [.pass 5, .expire, .check, .pass 5, .expire, .check, .pass 10, .expire, .pass 100, .check]).isSome = true)
      (by decide +kernel)
    exact ⟨s, hrun, hact, Option.isSome_iff_exists.1 hruns⟩
  have hdead := dead_peer_is_detected (plainEnv .raw) (fun _ => rfl) 5 .handler 0 hrun
  exact ⟨s, s', hrun, hrun', hdead.1 hact, (hdead.2 hrun' (by decide) (by decide)).1⟩

end Timed

end Opio.ProtoEntry
