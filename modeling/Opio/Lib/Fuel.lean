/-
Recursion on fuel: a function that is cut off below a given depth of recursion, and what it returns once
it may go deep enough. What a recursion returns does not depend on the depth it was allowed, as long as
one more level does not change what fewer levels returned.
-/
import Mathlib.Order.Nat
import Mathlib.Tactic.Common

namespace Opio.Fuel

universe u v w

variable {ε : Type u} {α : Type v} {σ : Type w} {f : Nat → σ → Except ε α} {s : σ} {a b : α} {depth depth' : Nat}

/-- One level more does not change what was returned. -/
def Stable (f : Nat → σ → Except ε α) : Prop :=
  ∀ depth s a, f depth s = .ok a → f (depth + 1) s = .ok a

/-- The recursion returns `a` from some depth on. -/
def Returns (f : Nat → σ → Except ε α) (s : σ) (a : α) : Prop :=
  ∃ levels, ∀ depth, levels ≤ depth → f depth s = .ok a

theorem Stable.le (hf : Stable f) (hle : depth ≤ depth') (h : f depth s = .ok a) : f depth' s = .ok a := by
  induction hle with
  | refl => exact h
  | step _ ih => exact hf _ s a ih

/-- One depth at which the recursion returns is enough. -/
theorem Stable.returns (hf : Stable f) (h : f depth s = .ok a) : Returns f s a :=
  ⟨depth, fun _ hle => hf.le hle h⟩

/-- A recursion returns one value. -/
theorem Returns.unique (ha : Returns f s a) (hb : Returns f s b) : a = b := by
  obtain ⟨m, ha⟩ := ha
  obtain ⟨n, hb⟩ := hb
  have h := (ha (max m n) (Nat.le_max_left m n)).symm.trans (hb (max m n) (Nat.le_max_right m n))
  exact Except.ok.inj h

/-- What returns at one depth is what the recursion returns. -/
theorem Returns.eq_of_ok (hf : Stable f) (ha : Returns f s a) (h : f depth s = .ok b) : b = a :=
  (hf.returns h).unique ha

/-- A recursion that fails at every depth does not return. -/
theorem not_returns {e : ε} (h : ∀ depth, f depth s = .error e) (a : α) : ¬ Returns f s a := by
  rintro ⟨levels, hok⟩
  have := (h levels).symm.trans (hok levels le_rfl)
  cases this

end Opio.Fuel
