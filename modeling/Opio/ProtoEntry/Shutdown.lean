/-
What giving an entry up does: the input is left alone, the context of the shutdown is among the
events, and only the shutdown handler's exception can stop it.
-/
import Opio.ProtoEntry.Entry

namespace Opio.ProtoEntry

variable {μ : Type}

/-- The stop is an exception, not a failed assertion and not a loop that does not end. -/
def Stop.IsThrown (s : Stop) : Prop := ∃ what, s = .thrown what

/-- The events a shutdown handler leaves behind. -/
def Event.IsHandlerCall : Event μ → Prop
  | .shutdownHandlerCalled _ => True
  | _ => False

namespace Entry

/-! ## The steps a handler is made of -/

theorem onInput_ok {α : Type} {f : PkgInput 8 → Except Fault (α × PkgInput 8)} {e : Entry μ} {a : α} {q : PkgInput 8}
    (h : f e.pkgInput = .ok (a, q)) : (onInput f).run e = .ok a { e with pkgInput := q } := by
  simp only [onInput, EStateM.run, h]

theorem onInput_error {α : Type} {f : PkgInput 8 → Except Fault (α × PkgInput 8)} {e : Entry μ} {fault : Fault}
    (h : f e.pkgInput = .error fault) : (onInput f).run e = .error (.fault fault) e := by
  simp only [onInput, EStateM.run, h]

/-- A call on the input changes nothing else, and fails only by an assertion. -/
theorem onInput_sat {α : Type} (f : PkgInput 8 → Except Fault (α × PkgInput 8)) (e : Entry μ) :
    Sat (onInput f) e (fun a e' => ∃ q, f e.pkgInput = .ok (a, q) ∧ e' = { e with pkgInput := q })
      fun s e' => e' = e ∧ ∃ fault, s = .fault fault := by
  unfold Sat
  cases h : f e.pkgInput with
  | ok p =>
    rw [onInput_ok h]
    exact ⟨p.2, rfl, rfl⟩
  | error fault =>
    rw [onInput_error h]
    exact ⟨rfl, fault, rfl⟩

theorem run_callUser (throws : List (Event μ) → Option String) (e : Entry μ) :
    (callUser throws).run e =
      match throws e.events with
      | some what => .error (.thrown what) e
      | none => .ok () e := by
  rw [callUser, run_bind_of_ok (EStateM.run_get e)]
  cases throws e.events <;> rfl

/-- Two states of an entry with the same input, one at most events further. -/
structure Extends (e e' : Entry μ) (evs : List (Event μ)) : Prop where
  pkgInput : e'.pkgInput = e.pkgInput
  connectionIsActive : e'.connectionIsActive = e.connectionIsActive
  events : e'.events = e.events ++ evs

theorem Extends.refl (e : Entry μ) : Extends e e [] := ⟨rfl, rfl, (List.append_nil _).symm⟩

theorem Extends.trans {e e' e'' : Entry μ} {evs evs' : List (Event μ)} (h : Extends e e' evs)
    (h' : Extends e' e'' evs') : Extends e e'' (evs ++ evs') :=
  ⟨h'.pkgInput.trans h.pkgInput, h'.connectionIsActive.trans h.connectionIsActive,
    by rw [h'.events, h.events, List.append_assoc]⟩

theorem emit_extends (ev : Event μ) (e : Entry μ) :
    Sat (emit ev) e (fun _ e' => Extends e e' [ev]) fun _ _ => False :=
  Sat.modify ⟨rfl, rfl, rfl⟩

theorem callUser_extends (throws : List (Event μ) → Option String) (e : Entry μ) :
    Sat (callUser throws) e (fun _ e' => Extends e e' []) fun s e' => s.IsThrown ∧ Extends e e' [] := by
  unfold Sat
  rw [run_callUser]
  cases throws e.events with
  | none => exact Extends.refl e
  | some what => exact ⟨⟨what, rfl⟩, Extends.refl e⟩

theorem cancelHeartbeatTimer_extends (e : Entry μ) :
    Sat cancelHeartbeatTimer e (fun _ e' => Extends e e' []) fun _ _ => False :=
  Sat.modify ⟨rfl, rfl, (List.append_nil _).symm⟩

theorem visitShutdownHandler_extends (env : EntryEnv μ) (ctx : ConnectionShutdownContext) (sh : ShutdownHandler)
    (e : Entry μ) :
    Sat (visitShutdownHandler env ctx sh) e
      (fun _ e' => ∃ evs, (∀ ev ∈ evs, ev.IsHandlerCall) ∧ Extends e e' evs)
      fun s e' => s.IsThrown ∧ ∃ evs, (∀ ev ∈ evs, ev.IsHandlerCall) ∧ Extends e e' evs := by
  have hcall : ∀ ctx', Sat (do
      emit (.shutdownHandlerCalled ctx')
      callUser env.onShutdown
      cancelHeartbeatTimer : EntryM μ Unit) e
      (fun _ e' => ∃ evs, (∀ ev ∈ evs, ev.IsHandlerCall) ∧ Extends e e' evs)
      fun s e' => s.IsThrown ∧ ∃ evs, (∀ ev ∈ evs, ev.IsHandlerCall) ∧ Extends e e' evs := by
    intro ctx'
    have hev : ∀ ev ∈ [(Event.shutdownHandlerCalled ctx' : Event μ)], ev.IsHandlerCall := by simp [Event.IsHandlerCall]
    refine Sat.bind ((emit_extends _ e).mono (fun _ _ h => h) fun _ _ h => h.elim) fun _ e₁ h₁ => ?_
    refine Sat.bind ((callUser_extends _ e₁).mono (fun _ _ h => h₁.trans h) fun _ _ h =>
      ⟨h.1, _, hev, h₁.trans h.2⟩) fun _ e₂ h₂ => ?_
    exact (cancelHeartbeatTimer_extends e₂).mono (fun _ _ h => ⟨_, hev, h₂.trans h⟩) fun _ _ h => h.elim
  have hnone : ∃ evs : List (Event μ), (∀ ev ∈ evs, ev.IsHandlerCall) ∧ Extends e e evs := ⟨[], by simp, .refl e⟩
  cases sh with
  | notSupplied =>
    exact (cancelHeartbeatTimer_extends e).mono (fun _ _ h => ⟨[], by simp, h⟩) fun _ _ h => h.elim
  | wasCalled => exact Sat.pure hnone
  | handler => exact hcall none
  | handler2 => exact hcall (some ctx)

/-! ## Termination -/

theorem terminate_spec (env : EntryEnv μ) (ctx : ConnectionShutdownContext) {e : Entry μ}
    (hact : e.connectionIsActive = true) :
    Sat (terminate env ctx) e
      (fun _ e' => ∃ evs, (∀ ev ∈ evs, ev.IsHandlerCall) ∧ Extends e e' (.terminate ctx :: evs))
      fun s e' => s.IsThrown ∧ ∃ evs, (∀ ev ∈ evs, ev.IsHandlerCall) ∧ Extends e e' (.terminate ctx :: evs) := by
  refine Sat.get_bind ?_
  rw [if_neg (by simp [hact])]
  refine Sat.bind ((emit_extends _ _).mono (fun _ _ h => h) fun _ _ h => h.elim) fun _ e₁ h₁ => ?_
  refine Sat.get_bind ?_
  refine Sat.bind ((visitShutdownHandler_extends env ctx _ _).mono (fun _ _ h => h) ?_) fun _ e₂ h₂ => ?_
  · rintro s e' ⟨hs, evs, hevs, h⟩
    exact ⟨hs, evs, hevs, h₁.trans h⟩
  · obtain ⟨evs, hevs, h₂⟩ := h₂
    have h := h₁.trans h₂
    exact Sat.modify ⟨evs, hevs, h.pkgInput, h.connectionIsActive, h.events⟩

/-- An entry that is given up is no longer active at the end; if its handler throws it stays as it
is, with the shutdown among its events. -/
theorem shutdownAndTerminate_spec (env : EntryEnv μ) (ctx : ConnectionShutdownContext) {e : Entry μ}
    (hact : e.connectionIsActive = true) :
    Sat (shutdownAndTerminate env ctx) e
      (fun _ e' => e'.pkgInput = e.pkgInput ∧ e'.connectionIsActive = false ∧ ∃ evs, (∀ ev ∈ evs, ev.IsHandlerCall) ∧
        e'.events = e.events ++ .connectionShutdown :: .terminate ctx :: (evs ++ [.inactive]))
      fun s e' => s.IsThrown ∧ ∃ evs, (∀ ev ∈ evs, ev.IsHandlerCall) ∧
        Extends e e' (.connectionShutdown :: .terminate ctx :: evs) := by
  refine Sat.get_bind ?_
  rw [if_neg (by simp [hact])]
  refine Sat.bind ((emit_extends _ _).mono (fun _ _ h => h) fun _ _ h => h.elim) fun _ e₁ h₁ => ?_
  refine Sat.bind ((terminate_spec env ctx (h₁.connectionIsActive.trans hact)).mono (fun _ _ h => h) ?_)
    fun _ e₂ h₂ => ?_
  · rintro s e' ⟨hs, evs, hevs, h⟩
    exact ⟨hs, evs, hevs, h₁.trans h⟩
  · obtain ⟨evs, hevs, h₂⟩ := h₂
    have h := h₁.trans h₂
    refine Sat.modify_bind ?_
    refine Sat.modify ⟨h.pkgInput, rfl, evs, hevs, ?_⟩
    rw [h.events]
    simp

theorem handleShutdown_spec (env : EntryEnv μ) (reason : ConnectionShutdownReason) {e : Entry μ}
    (hact : e.connectionIsActive = true) :
    Sat (handleShutdown env reason) e
      (fun _ e' => e'.pkgInput = e.pkgInput ∧ e'.connectionIsActive = false ∧ ∃ evs, (∀ ev ∈ evs, ev.IsHandlerCall) ∧
        e'.events = e.events ++
          .terminate { reason := .underlyingConnection, underlyingReason := some reason } :: (evs ++ [.inactive]))
      fun s e' => s.IsThrown ∧ ∃ evs, (∀ ev ∈ evs, ev.IsHandlerCall) ∧
        Extends e e' (.terminate { reason := .underlyingConnection, underlyingReason := some reason } :: evs) := by
  refine Sat.get_bind ?_
  rw [if_neg (by simp [hact])]
  refine Sat.bind ((terminate_spec env _ hact).mono (fun _ _ h => h) fun _ _ h => h) fun _ e₁ h₁ => ?_
  obtain ⟨evs, hevs, h⟩ := h₁
  refine Sat.modify_bind ?_
  refine Sat.modify ⟨h.pkgInput, rfl, evs, hevs, ?_⟩
  rw [h.events]
  simp

theorem handleShutdown_inactive (env : EntryEnv μ) (reason : ConnectionShutdownReason) {e : Entry μ}
    (hact : e.connectionIsActive = false) : (handleShutdown env reason).run e = .ok () e := by
  rw [handleShutdown, run_bind_of_ok (EStateM.run_get e), if_pos hact]
  rfl

theorem shutdownAndTerminate_inactive (env : EntryEnv μ) (ctx : ConnectionShutdownContext) {e : Entry μ}
    (hact : e.connectionIsActive = false) : (shutdownAndTerminate env ctx).run e = .ok () e := by
  rw [shutdownAndTerminate, run_bind_of_ok (EStateM.run_get e), if_pos hact]
  rfl

end Entry

end Opio.ProtoEntry
