/-
How the shutdown of an entry is reported. The marker that the handler was called and the flag that
the connection is no longer active are both set after the handler has returned, so the report is
made once, with the first cause, exactly in the runs in which no call of the handler throws.
-/
import Opio.ProtoEntry.EventLog
import Opio.ProtoEntry.GivingUp

namespace Opio.ProtoEntry

open scoped List

variable {μ : Type}

/-! ## Calls of the handler -/

/-- What the shutdown handler was given, call by call. -/
def handlerCalls (evs : List (Event μ)) : List (Option ConnectionShutdownContext) :=
  evs.filterMap fun
    | .shutdownHandlerCalled ctx => some ctx
    | _ => none

/-- No call of the shutdown handler throws. -/
def HandlerReturns (env : EntryEnv μ) (evs : List (Event μ)) : Prop :=
  ∀ before ctx, before ++ [.shutdownHandlerCalled ctx] <+: evs →
    env.onShutdown (before ++ [.shutdownHandlerCalled ctx]) = none

/-- What a handler of the kind is given. -/
def ShutdownHandler.argument (ctx : ConnectionShutdownContext) : ShutdownHandler → Option ConnectionShutdownContext
  | .handler2 => some ctx
  | _ => none

/-- There is a handler, plain or context-aware. -/
def ShutdownHandler.IsSupplied (sh : ShutdownHandler) : Prop := sh = .handler ∨ sh = .handler2

theorem ShutdownHandler.IsSupplied.call_eq {sh : ShutdownHandler} (h : sh.IsSupplied)
    (ctx : ConnectionShutdownContext) :
    (sh.call ctx : List (Event μ)) = [.shutdownHandlerCalled (sh.argument ctx)] := by
  rcases h with rfl | rfl <;> rfl

theorem ShutdownHandler.IsSupplied.throws_eq {sh : ShutdownHandler} (h : sh.IsSupplied) (env : EntryEnv μ)
    (evs : List (Event μ)) : sh.throws env evs = env.onShutdown evs := by
  rcases h with rfl | rfl <;> rfl

theorem handlerCalls_append (evs evs' : List (Event μ)) :
    handlerCalls (evs ++ evs') = handlerCalls evs ++ handlerCalls evs' := List.filterMap_append

theorem handlerCalls_eq_nil {evs : List (Event μ)} (h : ∀ ev ∈ evs, ¬ ev.IsHandlerCall) : handlerCalls evs = [] := by
  apply List.filterMap_eq_nil_iff.2
  intro ev hev
  have := h ev hev
  cases ev <;> first | rfl | exact absurd trivial this

theorem HandlerReturns.of_isPrefix {env : EntryEnv μ} {evs evs' : List (Event μ)} (h : HandlerReturns env evs')
    (hp : evs <+: evs') : HandlerReturns env evs :=
  fun before ctx hb => h before ctx (hb.trans hp)

theorem handlerReturns_concat {env : EntryEnv μ} {evs : List (Event μ)} {ev : Event μ} (h : HandlerReturns env evs)
    (hev : ev.IsHandlerCall → env.onShutdown (evs ++ [ev]) = none) : HandlerReturns env (evs ++ [ev]) := by
  intro before ctx hp
  rcases List.prefix_concat_iff.1 hp with heq | hp
  · obtain ⟨rfl, hev'⟩ := List.append_inj' heq rfl
    rw [heq]
    apply hev
    rw [← List.cons.inj hev' |>.1]
    trivial
  · exact h before ctx hp

theorem handlerReturns_append {env : EntryEnv μ} {evs : List (Event μ)} (h : HandlerReturns env evs) :
    ∀ {evs' : List (Event μ)}, (∀ ev ∈ evs', ¬ ev.IsHandlerCall) → HandlerReturns env (evs ++ evs') := by
  intro evs'
  induction evs' generalizing evs with
  | nil =>
    intro _
    rwa [List.append_nil]
  | cons ev evs' ih =>
    intro hev
    rw [List.append_cons]
    apply ih
    · exact handlerReturns_concat h fun hcall => absurd hcall (hev ev (List.mem_cons_self ..))
    · exact fun ev' hev' => hev ev' (List.mem_cons_of_mem _ hev')

theorem Event.IsHandlerCall.isEnding {ev : Event μ} (h : ev.IsHandlerCall) : ev.IsEnding := by
  cases ev <;> first | exact h | trivial

namespace Entry

variable {env : EntryEnv μ} {e e' e₁ : Entry μ} {ctx : ConnectionShutdownContext}

/-! ## How giving up ends -/

/-- The entry is gone: its handler, if it has one to be called, was called and returned. -/
structure Gone (env : EntryEnv μ) (ctx : ConnectionShutdownContext) (e e' : Entry μ) : Prop where
  inactive : e'.connectionIsActive = false
  events : ∃ evs, (∀ ev ∈ evs, ev = .connectionShutdown) ∧
    e'.events = e.events ++ evs ++ [.terminate ctx] ++ e.shutdownHandler.call ctx ++ [.inactive] ∧
    e.shutdownHandler.throws env (e.events ++ evs ++ [.terminate ctx] ++ e.shutdownHandler.call ctx) = none

/-- The entry is still there, with its handler: it was called and threw. -/
structure Threw (env : EntryEnv μ) (ctx : ConnectionShutdownContext) (e e' : Entry μ) : Prop where
  active : e'.connectionIsActive = true
  shutdownHandler : e'.shutdownHandler = e.shutdownHandler
  events : ∃ evs, (∀ ev ∈ evs, ev = .connectionShutdown) ∧
    e'.events = e.events ++ evs ++ [.terminate ctx] ++ e.shutdownHandler.call ctx ∧
    e.shutdownHandler.throws env e'.events ≠ none

theorem giveUp_ends (env : EntryEnv μ) (ctx : ConnectionShutdownContext) (hact : e.connectionIsActive = true)
    (evs : List (Event μ)) (hevs : ∀ ev ∈ evs, ev = .connectionShutdown) {e₀ : Entry μ}
    (h₀ : e = { e₀ with events := e₀.events ++ evs }) :
    match giveUp env ctx e with
    | .ok _ e' => Gone env ctx e₀ e'
    | .error s e' => s.IsThrown ∧ Threw env ctx e₀ e' := by
  have hcalling : (e.calling ctx).events = e₀.events ++ evs ++ [.terminate ctx] ++ e₀.shutdownHandler.call ctx := by
    rw [h₀]
    simp [calling]
  have hsh : e.shutdownHandler = e₀.shutdownHandler := by rw [h₀]
  unfold giveUp
  cases hthrows : e.shutdownHandler.throws env (e.calling ctx).events with
  | none =>
    refine ⟨rfl, evs, hevs, ?_, ?_⟩
    · rw [← hcalling]
      rfl
    · rw [← hcalling, ← hsh]
      exact hthrows
  | some what =>
    refine ⟨⟨what, rfl⟩, hact, hsh, evs, hevs, hcalling, ?_⟩
    rw [← hsh, hthrows]
    exact Option.some_ne_none what

theorem shutdownAndTerminate_ends (hact : e.connectionIsActive = true) :
    Sat (shutdownAndTerminate env ctx) e (fun _ e' => Gone env ctx e e') fun s e' =>
      s.IsThrown ∧ Threw env ctx e e' := by
  unfold Sat
  rw [run_shutdownAndTerminate env ctx hact]
  have hact' : e.shutDown.connectionIsActive = true := hact
  have := giveUp_ends env ctx hact' [.connectionShutdown] (by simp) rfl
  cases hr : giveUp env ctx e.shutDown <;> rw [hr] at this <;> exact this

theorem handleShutdown_ends {reason : ConnectionShutdownReason} (hact : e.connectionIsActive = true) :
    Sat (handleShutdown env reason) e
      (fun _ e' => Gone env { reason := .underlyingConnection, underlyingReason := some reason } e e') fun s e' =>
        s.IsThrown ∧ Threw env { reason := .underlyingConnection, underlyingReason := some reason } e e' := by
  unfold Sat
  rw [run_handleShutdown env reason hact]
  have h₀ : e = { e with events := e.events ++ [] } := by rw [List.append_nil]
  have := giveUp_ends env { reason := .underlyingConnection, underlyingReason := some reason } hact [] (by simp) h₀
  cases hr : giveUp env { reason := .underlyingConnection, underlyingReason := some reason } e <;>
    rw [hr] at this <;> exact this

/-! ## Causes -/

/-- Why a work item gives an active entry up: the context that belongs to the cause, and the state
the entry is in by then. -/
inductive Cause (env : EntryEnv μ) (e : Entry μ) : Item → ConnectionShutdownContext → Entry μ → Prop
  | close : Cause env e .close { reason := .userInitiated } e
  | connectionShutdown (reason : ConnectionShutdownReason) :
    Cause env e (.connectionShutdown reason) { reason := .underlyingConnection, underlyingReason := some reason } e
  | heartbeat {now : Int} (h : env.cfg.initiateHeartbeatTimeout ≤ now - e.lastInputAt)
    (hsent : e.heartbeatSentCount ≠ 0) (hawait : env.cfg.awaitHeartbeatReplyTimeout ≤ now - e.lastInputAt) :
    Cause env e (.checkHeartbeat now) { reason := .hearbeatReplyTimeout } e
  | input {now : Int} {buf : Bytes} {e₀ e₁ e' : Entry μ} {ctx : ConnectionShutdownContext} (happ : appended e buf e₀)
    (hl : LoopState env e₀ e₁) (h : GoesOn e₀ e') (hgive : GivesUp env e₁ e' ctx) :
    Cause env e (.input now buf) ctx e'

/-- The item is no cause to give the entry up. -/
def NoCause (env : EntryEnv μ) (e : Entry μ) (i : Item) : Prop := ∀ ctx e', ¬ Cause env e i ctx e'

/-- The context of the first item of the run that is a cause. -/
def FirstCause (env : EntryEnv μ) (fuel : Nat) (e₀ : Entry μ) (items : List Item) (ctx : ConnectionShutdownContext) :
    Prop :=
  ∃ before i later e e', items = before ++ i :: later ∧ execute (after env fuel) e₀ before = some e ∧
    Along (after env fuel) (NoCause env) e₀ before ∧ Cause env e i ctx e'

/-- The entry is as active as before, with the same handler, and did nothing that belongs to a shutdown. -/
structure Passes (e e' : Entry μ) : Prop where
  connectionIsActive : e'.connectionIsActive = e.connectionIsActive
  shutdownHandler : e'.shutdownHandler = e.shutdownHandler
  events : ∃ evs, e'.events = e.events ++ evs ∧ ∀ ev ∈ evs, ¬ ev.IsEnding

theorem Passes.refl (e : Entry μ) : Passes e e := ⟨rfl, rfl, [], (List.append_nil _).symm, by simp⟩

theorem Passes.trans {e'' : Entry μ} (h : Passes e e') (h' : Passes e' e'') : Passes e e'' := by
  obtain ⟨evs, hevs, hend⟩ := h.events
  obtain ⟨evs', hevs', hend'⟩ := h'.events
  refine ⟨h'.1.trans h.1, h'.2.trans h.2, evs ++ evs', by rw [hevs', hevs, List.append_assoc], ?_⟩
  intro ev hev
  rcases List.mem_append.1 hev with hev | hev
  · exact hend ev hev
  · exact hend' ev hev

theorem GoesOn.passes (h : GoesOn e e') : Passes e e' := ⟨h.connectionIsActive, h.shutdownHandler, h.events⟩

theorem passes_of_appended {buf : Bytes} {e₀ : Entry μ} (happ : appended e buf e₀) (h : GoesOn e₀ e') :
    Passes e e' := by
  obtain ⟨q, -, rfl⟩ := happ
  exact ⟨h.connectionIsActive, h.shutdownHandler, h.events⟩

theorem Passes.handlerCalls (h : Passes e e') : handlerCalls e'.events = handlerCalls e.events := by
  obtain ⟨evs, hevs, hend⟩ := h.events
  rw [hevs, handlerCalls_append, handlerCalls_eq_nil fun ev hev hcall => hend ev hev hcall.isEnding, List.append_nil]

theorem Passes.handlerReturns (h : Passes e e') (hret : HandlerReturns env e.events) :
    HandlerReturns env e'.events := by
  obtain ⟨evs, hevs, hend⟩ := h.events
  rw [hevs]
  exact handlerReturns_append hret fun ev hev hcall => hend ev hev hcall.isEnding

theorem Cause.passes {i : Item} (h : Cause env e i ctx e') : Passes e e' := by
  cases h with
  | close => exact .refl e
  | connectionShutdown reason => exact .refl e
  | heartbeat => exact .refl e
  | input happ hl h hgive => exact passes_of_appended happ h

/-- How a work item that is a cause ends. What the handler throws inside `handle_input` is caught
there, and the entry is given up once more. -/
inductive Ended (env : EntryEnv μ) (ctx : ConnectionShutdownContext) (e e' : Entry μ) : Prop
  | gone (h : Gone env ctx e e')
  | threw (h : Threw env ctx e e')
  | threwThenGone {e₁ : Entry μ} {ctx' : ConnectionShutdownContext} (h : Threw env ctx e e₁) (h' : Gone env ctx' e₁ e')
  | threwTwice {e₁ : Entry μ} {ctx' : ConnectionShutdownContext} (h : Threw env ctx e e₁) (h' : Threw env ctx' e₁ e')

/-- What a computation leaves that ends as giving up does. -/
theorem ended_of_leaves {x : EntryM μ Unit} (h : Leaves (x.run e) e')
    (hends : Sat x e (fun _ e' => Gone env ctx e e') fun s e' => s.IsThrown ∧ Threw env ctx e e') :
    Ended env ctx e e' := by
  rcases h.sat hends with hgone | hthrew
  · exact .gone hgone
  · exact .threw hthrew

theorem GivenUp.ended {now : Int} {r : EStateM.Result Stop (Entry μ) Unit} (h : GivenUp env now e ctx r)
    (hact : e.connectionIsActive = true) (hleaves : Leaves r e') : Ended env ctx e e' := by
  cases h with
  | rejected h =>
    have hgone := (shutdownAndTerminate_ends hact).ok h
    rw [hleaves.of_ok]
    exact .gone ⟨hgone.inactive, hgone.events⟩
  | exception => exact ended_of_leaves hleaves (shutdownAndTerminate_ends hact)
  | rejectedThrew h =>
    have hthrew := ((shutdownAndTerminate_ends hact).error h).2
    -- the catch of `handle_input` finds the entry active and its handler in place
    rcases hleaves.sat (shutdownAndTerminate_ends hthrew.active) with hgone | hthrew'
    · exact .threwThenGone hthrew hgone
    · exact .threwTwice hthrew hthrew'

/-- An item that is a cause gives the active entry up, with the context of the cause. -/
theorem Cause.ended {fuel : Nat} {i : Item} (hc : Cause env e i ctx e₁) (hact : e.connectionIsActive = true)
    (h : after env fuel e i = some e') : Ended env ctx e₁ e' := by
  have hleaves := after_leaves h
  have hact₁ : e₁.connectionIsActive = true := hc.passes.connectionIsActive.trans hact
  cases hc with
  | close => exact ended_of_leaves hleaves (shutdownAndTerminate_ends hact)
  | connectionShutdown reason => exact ended_of_leaves hleaves (handleShutdown_ends hact)
  | @heartbeat now hlate hsent hawait =>
    have heffect := onCheckHeartbeat_effect env now e
    change Leaves ((onCheckHeartbeat env now).run e) e' at hleaves
    generalize (onCheckHeartbeat env now).run e = r at heffect hleaves
    cases heffect with
    | inactive hact' => simp [hact'] at hact
    | early _ hearly => omega
    | timeout => exact ended_of_leaves hleaves (shutdownAndTerminate_ends hact)
    | request _ _ hsent' => exact absurd hsent' (not_or.2 ⟨hsent, not_lt.2 hawait⟩)
  | input happ hl hgoes hgive => exact (handleInput_givesUp happ hl hgive hleaves).ended hact₁ hleaves

/-- An entry that is not active any more is not given up again. -/
theorem GivenUp.passes {now : Int} {r : EStateM.Result Stop (Entry μ) Unit} (h : GivenUp env now e ctx r)
    (hact : e.connectionIsActive = false) (hleaves : Leaves r e') : Passes e e' := by
  cases h with
  | rejected h =>
    rw [shutdownAndTerminate_inactive env _ hact] at h
    rw [hleaves.of_ok, ← (EStateM.Result.ok.inj h).2]
    exact ⟨rfl, rfl, [], (List.append_nil _).symm, by simp⟩
  | rejectedThrew h =>
    rw [shutdownAndTerminate_inactive env _ hact] at h
    cases h
  | exception =>
    rw [shutdownAndTerminate_inactive env _ hact] at hleaves
    rw [hleaves.of_ok]
    exact .refl e

/-- A work item passes, or it is a cause and the entry was active. -/
theorem after_passes {fuel : Nat} {i : Item} (h : after env fuel e i = some e') :
    Passes e e' ∨ e.connectionIsActive = true ∧ ∃ ctx e₁, Cause env e i ctx e₁ := by
  have hleaves := after_leaves h
  cases i with
  | input now buf =>
    rcases handleInput_cases hleaves with ⟨e₀, e₁, happ, hgoes, rfl⟩ | ⟨e₀, e₁, e₂, ctx, happ, hl, hgoes, hgive, hgiven⟩
    · have hp := passes_of_appended happ hgoes
      exact .inl ⟨hp.connectionIsActive, hp.shutdownHandler, hp.events⟩
    · rcases Bool.eq_false_or_eq_true e.connectionIsActive with hact | hact
      · exact .inr ⟨hact, ctx, e₂, .input happ hl hgoes hgive⟩
      · have hp := passes_of_appended happ hgoes
        exact .inl (hp.trans (hgiven.passes (hp.connectionIsActive.trans hact) hleaves))
  | close =>
    rcases Bool.eq_false_or_eq_true e.connectionIsActive with hact | hact
    · exact .inr ⟨hact, _, e, .close⟩
    · change Leaves ((shutdownAndTerminate env _).run e) e' at hleaves
      rw [shutdownAndTerminate_inactive env _ hact] at hleaves
      rw [hleaves.of_ok]
      exact .inl (.refl e)
  | connectionShutdown reason =>
    rcases Bool.eq_false_or_eq_true e.connectionIsActive with hact | hact
    · exact .inr ⟨hact, _, e, .connectionShutdown reason⟩
    · change Leaves ((handleShutdown env reason).run e) e' at hleaves
      rw [handleShutdown_inactive env reason hact] at hleaves
      rw [hleaves.of_ok]
      exact .inl (.refl e)
  | checkHeartbeat now =>
    have heffect := onCheckHeartbeat_effect env now e
    change Leaves ((onCheckHeartbeat env now).run e) e' at hleaves
    generalize (onCheckHeartbeat env now).run e = r at heffect hleaves
    cases heffect with
    | inactive hact =>
      rw [hleaves.of_ok]
      exact .inl (.refl e)
    | early hact hearly =>
      rw [hleaves.of_ok]
      exact .inl ⟨rfl, rfl, [], (List.append_nil _).symm, by simp⟩
    | timeout hact hlate hsent hawait => exact .inr ⟨hact, _, e, .heartbeat hlate hsent hawait⟩
    | request hact hlate hsent =>
      rw [hleaves.of_ok]
      exact .inl ⟨rfl, rfl, _, rfl, by simp [Event.IsEnding]⟩

/-- An entry that is not active any more stays so. -/
theorem active_of_after {fuel : Nat} {i : Item} (h : after env fuel e i = some e')
    (hact' : e'.connectionIsActive = true) : e.connectionIsActive = true := by
  rcases after_passes h with hp | ⟨hact, -⟩
  · exact hp.connectionIsActive ▸ hact'
  · exact hact

/-! ## The ledger of a run -/

theorem handlerCalls_terminate {evs : List (Event μ)} (h : ∀ ev ∈ evs, ev = .connectionShutdown)
    (ctx : ConnectionShutdownContext) : ∀ ev ∈ evs ++ [.terminate ctx], ¬ ev.IsHandlerCall := by
  intro ev hev
  rcases List.mem_append.1 hev with hev | hev
  · rw [h ev hev]
    exact not_false
  · rw [List.mem_singleton.1 hev]
    exact not_false

theorem Gone.handlerCalls (h : Gone env ctx e e') (hsh : e.shutdownHandler.IsSupplied) :
    handlerCalls e'.events = handlerCalls e.events ++ [e.shutdownHandler.argument ctx] := by
  obtain ⟨evs, hevs, heq, -⟩ := h.events
  rw [heq, hsh.call_eq, List.append_assoc e.events]
  rw [handlerCalls_append, handlerCalls_append, handlerCalls_append,
    handlerCalls_eq_nil (handlerCalls_terminate hevs ctx), List.append_nil]
  exact List.append_nil _

theorem Gone.handlerReturns (h : Gone env ctx e e') (hsh : e.shutdownHandler.IsSupplied)
    (hret : HandlerReturns env e.events) : HandlerReturns env e'.events := by
  obtain ⟨evs, hevs, heq, hthrows⟩ := h.events
  rw [hsh.throws_eq, hsh.call_eq] at hthrows
  rw [heq, hsh.call_eq]
  apply handlerReturns_concat
  · refine handlerReturns_concat ?_ fun _ => hthrows
    rw [List.append_assoc]
    exact handlerReturns_append hret (handlerCalls_terminate hevs ctx)
  · exact fun hcall => hcall.elim

theorem Threw.handlerCalls (h : Threw env ctx e e') (hsh : e.shutdownHandler.IsSupplied) :
    handlerCalls e'.events = handlerCalls e.events ++ [e.shutdownHandler.argument ctx] := by
  obtain ⟨evs, hevs, heq, -⟩ := h.events
  rw [heq, hsh.call_eq, List.append_assoc e.events]
  rw [handlerCalls_append, handlerCalls_append, handlerCalls_eq_nil (handlerCalls_terminate hevs ctx), List.append_nil]
  rfl

theorem Threw.not_handlerReturns (h : Threw env ctx e e') (hsh : e.shutdownHandler.IsSupplied) :
    ¬ HandlerReturns env e'.events := by
  obtain ⟨evs, -, heq, hthrows⟩ := h.events
  rw [hsh.throws_eq] at hthrows
  rw [hsh.call_eq] at heq
  intro hret
  rw [heq] at hthrows hret
  exact hthrows (hret _ _ List.prefix_rfl)

/-- What a run has come to, as far as the report of the shutdown goes. -/
inductive Ledger (env : EntryEnv μ) (fuel : Nat) (e₀ : Entry μ) (items : List Item) (e : Entry μ) : Prop
  /-- Nothing happened that gives the entry up. -/
  | untouched (hact : e.connectionIsActive = true) (hsh : e.shutdownHandler = e₀.shutdownHandler)
    (hcalls : handlerCalls e.events = []) (hret : HandlerReturns env e.events)
    (hnone : Along (after env fuel) (NoCause env) e₀ items)
  /-- The handler threw: it is still in place, or was called again. -/
  | threw (hthrew : ¬ HandlerReturns env e.events)
    (h : e.connectionIsActive = true ∧ e.shutdownHandler = e₀.shutdownHandler ∧ handlerCalls e.events ≠ [] ∨
      e.connectionIsActive = false ∧ 2 ≤ (handlerCalls e.events).length)
  | reported {ctx : ConnectionShutdownContext} (hact : e.connectionIsActive = false)
    (hfirst : FirstCause env fuel e₀ items ctx)
    (hcalls : handlerCalls e.events = [e₀.shutdownHandler.argument ctx]) (hret : HandlerReturns env e.events)

variable {fuel : Nat} {e₀ : Entry μ} {items : List Item} {i : Item}

theorem FirstCause.concat (h : FirstCause env fuel e₀ items ctx) (i : Item) :
    FirstCause env fuel e₀ (items ++ [i]) ctx := by
  obtain ⟨before, i', later, e, e', rfl, hrun, hnone, hc⟩ := h
  exact ⟨before, i', later ++ [i], e, e', by simp, hrun, hnone, hc⟩

/-- An item that is the first cause. -/
theorem Ledger.of_ended (hsh : e₀.shutdownHandler.IsSupplied) (hsh₁ : e₁.shutdownHandler = e₀.shutdownHandler)
    (hcalls : handlerCalls e₁.events = []) (hret : HandlerReturns env e₁.events)
    (hfirst : FirstCause env fuel e₀ items ctx) (h : Ended env ctx e₁ e') : Ledger env fuel e₀ items e' := by
  have hsupplied : e₁.shutdownHandler.IsSupplied := hsh₁ ▸ hsh
  cases h with
  | gone h =>
    refine .reported h.inactive hfirst ?_ (h.handlerReturns hsupplied hret)
    rw [h.handlerCalls hsupplied, hcalls, hsh₁, List.nil_append]
  | threw h =>
    refine .threw (h.not_handlerReturns hsupplied) (.inl ⟨h.active, h.shutdownHandler.trans hsh₁, ?_⟩)
    rw [h.handlerCalls hsupplied]
    simp
  | @threwThenGone e₂ ctx' h h' =>
    have hsupplied' : e₂.shutdownHandler.IsSupplied := h.shutdownHandler ▸ hsupplied
    obtain ⟨evs, -, heq, -⟩ := h'.events
    refine .threw ?_ (.inr ⟨h'.inactive, ?_⟩)
    · intro hret'
      refine h.not_handlerReturns hsupplied (hret'.of_isPrefix ?_)
      rw [heq]
      simp only [List.append_assoc]
      exact List.prefix_append _ _
    · rw [h'.handlerCalls hsupplied', h.handlerCalls hsupplied]
      simp
  | @threwTwice e₂ ctx' h h' =>
    have hsupplied' : e₂.shutdownHandler.IsSupplied := h.shutdownHandler ▸ hsupplied
    refine .threw (h'.not_handlerReturns hsupplied')
      (.inl ⟨h'.active, (h'.shutdownHandler.trans h.shutdownHandler).trans hsh₁, ?_⟩)
    rw [h'.handlerCalls hsupplied']
    simp

/-- A call of a handler that threw before is at least the second one. -/
theorem Ledger.of_threw (hsh : e₀.shutdownHandler.IsSupplied) (hsh₁ : e₁.shutdownHandler = e₀.shutdownHandler)
    (hcalls : handlerCalls e₁.events ≠ []) (hthrew : ¬ HandlerReturns env e'.events) (h : Ended env ctx e₁ e') :
    Ledger env fuel e₀ items e' := by
  have hsupplied : e₁.shutdownHandler.IsSupplied := hsh₁ ▸ hsh
  have hpos : 0 < (handlerCalls e₁.events).length := List.length_pos_iff.2 hcalls
  cases h with
  | gone h =>
    refine .threw hthrew (.inr ⟨h.inactive, ?_⟩)
    rw [h.handlerCalls hsupplied, List.length_append, List.length_singleton]
    omega
  | threw h =>
    refine .threw hthrew (.inl ⟨h.active, h.shutdownHandler.trans hsh₁, ?_⟩)
    rw [h.handlerCalls hsupplied]
    simp
  | @threwThenGone e₂ ctx' h h' =>
    have hsupplied' : e₂.shutdownHandler.IsSupplied := h.shutdownHandler ▸ hsupplied
    refine .threw hthrew (.inr ⟨h'.inactive, ?_⟩)
    rw [h'.handlerCalls hsupplied', h.handlerCalls hsupplied]
    simp
  | @threwTwice e₂ ctx' h h' =>
    have hsupplied' : e₂.shutdownHandler.IsSupplied := h.shutdownHandler ▸ hsupplied
    refine .threw hthrew (.inl ⟨h'.active, (h'.shutdownHandler.trans h.shutdownHandler).trans hsh₁, ?_⟩)
    rw [h'.handlerCalls hsupplied']
    simp

/-- Whatever the next item is, the ledger stays one. -/
theorem Ledger.step (hsh : e₀.shutdownHandler.IsSupplied) (hrun : execute (after env fuel) e₀ items = some e)
    (hl : Ledger env fuel e₀ items e) (h : after env fuel e i = some e') : Ledger env fuel e₀ (items ++ [i]) e' := by
  cases hl with
  | untouched hact hsh₁ hcalls hret hnone =>
    by_cases hc : ∃ ctx e₁, Cause env e i ctx e₁
    · obtain ⟨ctx, e₁, hc⟩ := hc
      have hp := hc.passes
      refine .of_ended hsh (hp.shutdownHandler.trans hsh₁) (hp.handlerCalls.trans hcalls) (hp.handlerReturns hret) ?_
        (hc.ended hact h)
      exact ⟨items, i, [], e, e₁, rfl, hrun, hnone, hc⟩
    · have hp : Passes e e' := (after_passes h).resolve_right fun hact' => hc hact'.2
      refine .untouched (hp.connectionIsActive.trans hact) (hp.shutdownHandler.trans hsh₁)
        (hp.handlerCalls.trans hcalls) (hp.handlerReturns hret) (along_concat ?_ hnone hrun)
      exact fun ctx e₁ hc' => hc ⟨ctx, e₁, hc'⟩
  | threw hthrew hcases =>
    have hthrew' : ¬ HandlerReturns env e'.events := fun hret => hthrew (hret.of_isPrefix (after_grows h))
    rcases hcases with ⟨hact, hsh₁, hcalls⟩ | ⟨hact, hcalls⟩
    · rcases after_passes h with hp | ⟨-, ctx, e₁, hc⟩
      · refine .threw hthrew' (.inl ⟨hp.connectionIsActive.trans hact, hp.shutdownHandler.trans hsh₁, ?_⟩)
        rwa [hp.handlerCalls]
      · have hp := hc.passes
        refine .of_threw hsh (hp.shutdownHandler.trans hsh₁) ?_ hthrew' (hc.ended hact h)
        rwa [hp.handlerCalls]
    · have hp : Passes e e' := (after_passes h).resolve_right fun hact' => by simp [hact] at hact'
      refine .threw hthrew' (.inr ⟨hp.connectionIsActive.trans hact, ?_⟩)
      rwa [hp.handlerCalls]
  | reported hact hfirst hcalls hret =>
    have hp : Passes e e' := (after_passes h).resolve_right fun hact' => by simp [hact] at hact'
    exact .reported (hp.connectionIsActive.trans hact) (hfirst.concat i) (hp.handlerCalls.trans hcalls)
      (hp.handlerReturns hret)

theorem ledger (env : EntryEnv μ) (fuel : Nat) {sh : ShutdownHandler} (hsh : sh.IsSupplied) (now : Int)
    (h : execute (after env fuel) (init env sh now) items = some e) : Ledger env fuel (init env sh now) items e := by
  refine execute_history ?_ (fun items i e e' hrun hl hstep => hl.step hsh hrun hstep) h
  refine .untouched rfl rfl rfl ?_ trivial
  intro before ctx hp
  simp [init] at hp

/-! ## The report -/

/-- As long as the entry is active its handler has not been called. Once it is not, the handler was
called once, with the context of the first cause, and no heartbeat check does anything any more. -/
structure ReportedOnce (env : EntryEnv μ) (fuel : Nat) (e₀ : Entry μ) (items : List Item) (e : Entry μ) : Prop where
  active : e.connectionIsActive = true → handlerCalls e.events = []
  inactive : e.connectionIsActive = false →
    ∃ ctx, FirstCause env fuel e₀ items ctx ∧ handlerCalls e.events = [e₀.shutdownHandler.argument ctx]
  quiet : e.connectionIsActive = false → ∀ now, (exec env fuel (.checkHeartbeat now)).run e = .ok () e

/-- In every state of a run the shutdown is reported once and with its first cause, or not at all,
exactly if no call of the shutdown handler up to there has thrown. -/
theorem shutdown_reported_once (env : EntryEnv μ) (fuel : Nat) {sh : ShutdownHandler} (hsh : sh.IsSupplied) (now : Int)
    {items : List Item} {e : Entry μ} (h : execute (after env fuel) (init env sh now) items = some e) :
    ReportedOnce env fuel (init env sh now) items e ↔ HandlerReturns env e.events := by
  have hquiet : e.connectionIsActive = false → ∀ now, (exec env fuel (.checkHeartbeat now)).run e = .ok () e :=
    fun hact now => onCheckHeartbeat_inactive env now hact
  cases ledger env fuel hsh now h with
  | untouched hact hsh' hcalls hret hnone =>
    constructor
    · exact fun _ => hret
    · exact fun _ => ⟨fun _ => hcalls, fun hact' => by simp [hact] at hact', hquiet⟩
  | threw hthrew hcases =>
    constructor
    · intro hreported
      rcases hcases with ⟨hact, -, hcalls⟩ | ⟨hact, hcalls⟩
      · exact absurd (hreported.active hact) hcalls
      · obtain ⟨ctx, -, heq⟩ := hreported.inactive hact
        rw [heq] at hcalls
        exact absurd hcalls (by simp)
    · exact fun hret => absurd hret hthrew
  | reported hact hfirst hcalls hret =>
    constructor
    · exact fun _ => hret
    · exact fun _ => ⟨fun hact' => by simp [hact] at hact', fun _ => ⟨_, hfirst, hcalls⟩, hquiet⟩

/-- A heartbeat that is not answered, and a close that comes after the entry has terminated. -/
theorem shutdown_reported_once_heartbeat :
    ∃ e, execute (after (plainEnv .raw) 5) (init (plainEnv .raw) .handler2 0)
        [.checkHeartbeat 10, .checkHeartbeat 20, .close] = some e ∧ e.connectionIsActive = false ∧
      (ReportedOnce (plainEnv .raw) 5 (init (plainEnv .raw) .handler2 0)
        [.checkHeartbeat 10, .checkHeartbeat 20, .close] e ↔ HandlerReturns (plainEnv .raw) e.events) := by
  obtain ⟨e, hrun, hact⟩ := exists_execute (after (plainEnv .raw) 5) (init (plainEnv .raw) .handler2 0)
    [.checkHeartbeat 10, .checkHeartbeat 20, .close] (fun e => e.connectionIsActive = false) (by decide +kernel)
  exact ⟨e, hrun, hact, shutdown_reported_once _ _ (.inr rfl) _ hrun⟩

/-- User code whose shutdown handler throws the first time it is called. -/
def throwsOnceEnv : EntryEnv Bytes :=
  { plainEnv .raw with onShutdown := fun evs => if (handlerCalls evs).length = 1 then some "not now" else none }

/-- The handler that throws on a package of an unknown type is called again with its own exception. -/
theorem shutdown_reported_twice :
    ∃ e, execute (after throwsOnceEnv 5) (init throwsOnceEnv .handler2 0)
        [.input 1 [9, 3, 0, 0, 0, 0, 0, 0, 0, 0, 0, 0]] = some e ∧
      handlerCalls e.events = [some { reason := .unknownPkgContentType },
        some { reason := .exceptionHandlingInput, errMessage := "not now" }] ∧
      ¬ ReportedOnce throwsOnceEnv 5 (init throwsOnceEnv .handler2 0)
        [.input 1 [9, 3, 0, 0, 0, 0, 0, 0, 0, 0, 0, 0]] e := by
  obtain ⟨e, hrun, hact, hcalls⟩ := exists_execute (after throwsOnceEnv 5) (init throwsOnceEnv .handler2 0)
    [.input 1 [9, 3, 0, 0, 0, 0, 0, 0, 0, 0, 0, 0]]
    (fun e => e.connectionIsActive = false ∧ handlerCalls e.events = [some { reason := .unknownPkgContentType },
      some { reason := .exceptionHandlingInput, errMessage := "not now" }]) (by decide +kernel)
  refine ⟨e, hrun, hcalls, fun hreported => ?_⟩
  obtain ⟨ctx, -, honce⟩ := hreported.inactive hact
  rw [hcalls] at honce
  cases honce

end Entry

end Opio.ProtoEntry
