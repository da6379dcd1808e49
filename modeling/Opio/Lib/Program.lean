/-
Stateful computations that may stop early: what holds of the outcome and of the state it leaves.
The rules follow the way a computation is put together.
-/
import Mathlib.Tactic.Common

namespace Opio

variable {ε σ α β : Type}

/-- The state a computation leaves, however it ends. -/
def finalState : EStateM.Result ε σ α → σ
  | .ok _ s => s
  | .error _ s => s

/-- What stopped a computation, if anything did. -/
def stopped : EStateM.Result ε σ α → Option ε
  | .ok _ _ => none
  | .error e _ => some e

theorem exists_of_stopped {r : EStateM.Result ε σ α} {e : ε} (h : stopped r = some e) : ∃ s, r = .error e s := by
  cases r with
  | ok a s => cases h
  | error e' s => exact ⟨s, by rw [Option.some.inj h]⟩

/-- Run from `s`, the computation returns with `Q` or stops with `E`. -/
def Sat (x : EStateM ε σ α) (s : σ) (Q : α → σ → Prop) (E : ε → σ → Prop) : Prop :=
  match x.run s with
  | .ok a s' => Q a s'
  | .error e s' => E e s'

theorem run_bind_of_ok {x : EStateM ε σ α} {k : α → EStateM ε σ β} {s s' : σ} {a : α} (h : x.run s = .ok a s') :
    (x >>= k).run s = (k a).run s' := by
  rw [EStateM.run_bind, h]

theorem run_get_bind {k : σ → EStateM ε σ α} (s : σ) : (MonadState.get >>= k).run s = (k s).run s := rfl

theorem run_bind_of_error {x : EStateM ε σ α} {k : α → EStateM ε σ β} {s s' : σ} {e : ε}
    (h : x.run s = .error e s') : (x >>= k).run s = .error e s' := by
  rw [EStateM.run_bind, h]

theorem run_tryCatch (x : EStateM ε σ α) (handler : ε → EStateM ε σ α) (s : σ) :
    (MonadExcept.tryCatch x handler).run s =
      match x.run s with
      | .ok a s' => .ok a s'
      | .error e s' => (handler e).run s' := by
  change EStateM.tryCatch x handler s = _
  unfold EStateM.tryCatch EStateM.run
  cases x s <;> rfl

namespace Sat

variable {x : EStateM ε σ α} {k : α → EStateM ε σ β} {s : σ} {Q Q' : α → σ → Prop} {E E' : ε → σ → Prop}

theorem pure {a : α} (h : Q a s) : Sat (Pure.pure a : EStateM ε σ α) s Q E := h

theorem throw {e : ε} (h : E e s) : Sat (MonadExcept.throw e : EStateM ε σ α) s Q E := h

theorem get_bind {k : σ → EStateM ε σ α} (h : Sat (k s) s Q E) : Sat (MonadState.get >>= k) s Q E := h

theorem modify_bind {f : σ → σ} {k : PUnit → EStateM ε σ α} (h : Sat (k ⟨⟩) (f s) Q E) :
    Sat (modify f >>= k) s Q E := h

theorem modify {f : σ → σ} {Q : PUnit → σ → Prop} (h : Q ⟨⟩ (f s)) : Sat (modify f : EStateM ε σ PUnit) s Q E := h

theorem mono (h : Sat x s Q E) (hQ : ∀ a s', Q a s' → Q' a s') (hE : ∀ e s', E e s' → E' e s') : Sat x s Q' E' := by
  unfold Sat at *
  cases hx : x.run s with
  | ok a s' => rw [hx] at h; exact hQ a s' h
  | error e s' => rw [hx] at h; exact hE e s' h

theorem bind_iff {Q : β → σ → Prop} : Sat (x >>= k) s Q E ↔ Sat x s (fun a s' => Sat (k a) s' Q E) E := by
  unfold Sat
  rw [EStateM.run_bind]
  cases x.run s <;> rfl

/-- First the computation, then what comes after it from any state it may return in. -/
theorem bind {R : β → σ → Prop} (h : Sat x s Q E) (hk : ∀ a s', Q a s' → Sat (k a) s' R E) :
    Sat (x >>= k) s R E :=
  bind_iff.2 (h.mono hk fun _ _ h => h)

theorem tryCatch {handler : ε → EStateM ε σ α} {F : ε → σ → Prop} (h : Sat x s Q F)
    (hh : ∀ e s', F e s' → Sat (handler e) s' Q E) : Sat (MonadExcept.tryCatch x handler) s Q E := by
  unfold Sat at h ⊢
  rw [run_tryCatch]
  cases hx : x.run s with
  | ok a s' => rw [hx] at h; exact h
  | error e s' => rw [hx] at h; exact hh e s' h

theorem of_run_ok {a : α} {t : σ} (hx : x.run s = .ok a t) (h : Q a t) : Sat x s Q E := by
  unfold Sat
  rw [hx]
  exact h

theorem of_run_eq {y : EStateM ε σ α} {t : σ} (hx : x.run s = y.run t) (h : Sat y t Q E) : Sat x s Q E := by
  unfold Sat at *
  rw [hx]
  exact h

theorem ok {a : α} {s' : σ} (h : Sat x s Q E) (hx : x.run s = .ok a s') : Q a s' := by
  unfold Sat at h
  rw [hx] at h
  exact h

theorem error {e : ε} {s' : σ} (h : Sat x s Q E) (hx : x.run s = .error e s') : E e s' := by
  unfold Sat at h
  rw [hx] at h
  exact h

/-- What holds of the state on every outcome holds of the final state. -/
theorem final {P : σ → Prop} (h : Sat x s (fun _ => P) fun _ => P) : P (finalState (x.run s)) := by
  unfold Sat at h
  cases hx : x.run s <;> rw [hx] at h <;> exact h

end Sat

/-! ## Logs -/

/-- However the computation ends, it only adds to the log. -/
def Grows {τ : Type} (log : σ → List τ) (x : EStateM ε σ α) : Prop := ∀ s, log s <+: log (finalState (x.run s))

namespace Grows

variable {τ : Type} {log : σ → List τ} {x : EStateM ε σ α}

theorem pure (a : α) : Grows log (Pure.pure a : EStateM ε σ α) := fun _ => List.prefix_rfl

theorem throw (e : ε) : Grows log (MonadExcept.throw e : EStateM ε σ α) := fun _ => List.prefix_rfl

theorem get : Grows log (MonadState.get : EStateM ε σ σ) := fun _ => List.prefix_rfl

theorem modify {f : σ → σ} (h : ∀ s, log s <+: log (f s)) : Grows log (modify f : EStateM ε σ PUnit) := h

theorem bind {k : α → EStateM ε σ β} (h : Grows log x) (hk : ∀ a, Grows log (k a)) : Grows log (x >>= k) := by
  intro s
  have hx := h s
  cases hrun : x.run s with
  | ok a s' =>
    rw [hrun] at hx
    rw [run_bind_of_ok hrun]
    exact hx.trans (hk a s')
  | error e s' =>
    rw [hrun] at hx
    rw [run_bind_of_error hrun]
    exact hx

theorem tryCatch {handler : ε → EStateM ε σ α} (h : Grows log x) (hh : ∀ e, Grows log (handler e)) :
    Grows log (MonadExcept.tryCatch x handler) := by
  intro s
  have hx := h s
  rw [run_tryCatch]
  cases hrun : x.run s with
  | ok a s' =>
    rw [hrun] at hx
    exact hx
  | error e s' =>
    rw [hrun] at hx
    exact hx.trans (hh e s')

end Grows

/-! ## Invariants -/

/-- However the computation ends, what held of the state still holds. -/
def Keeps (P : σ → Prop) (x : EStateM ε σ α) : Prop := ∀ s, P s → P (finalState (x.run s))

namespace Keeps

variable {P : σ → Prop} {x : EStateM ε σ α}

theorem pure (a : α) : Keeps P (Pure.pure a : EStateM ε σ α) := fun _ h => h

theorem throw (e : ε) : Keeps P (MonadExcept.throw e : EStateM ε σ α) := fun _ h => h

theorem get : Keeps P (MonadState.get : EStateM ε σ σ) := fun _ h => h

theorem modify {f : σ → σ} (h : ∀ s, P s → P (f s)) : Keeps P (modify f : EStateM ε σ PUnit) := h

theorem bind {k : α → EStateM ε σ β} (h : Keeps P x) (hk : ∀ a, Keeps P (k a)) : Keeps P (x >>= k) := by
  intro s hs
  have hx := h s hs
  cases hrun : x.run s with
  | ok a s' =>
    rw [hrun] at hx
    rw [run_bind_of_ok hrun]
    exact hk a s' hx
  | error e s' =>
    rw [hrun] at hx
    rw [run_bind_of_error hrun]
    exact hx

theorem tryCatch {handler : ε → EStateM ε σ α} (h : Keeps P x) (hh : ∀ e, Keeps P (handler e)) :
    Keeps P (MonadExcept.tryCatch x handler) := by
  intro s hs
  have hx := h s hs
  rw [run_tryCatch]
  cases hrun : x.run s with
  | ok a s' =>
    rw [hrun] at hx
    exact hx
  | error e s' =>
    rw [hrun] at hx
    exact hh e s' hx

end Keeps

end Opio
