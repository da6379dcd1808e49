/-
Calls with assertions: a computation that either returns or stops at the first check that fails.
The rules that run one forward, check by check, and the rule that takes one apart.
-/
import Mathlib.Tactic.Common

namespace Opio

universe u v

variable {ε : Type u} {α β : Type v}

/-- A check that stops with `f` when `p` does not hold. -/
def assertThat (p : Prop) [Decidable p] (f : ε) : Except ε Unit :=
  if p then .ok () else .error f

/-- Subtraction of unsigned numbers that stops with `f` below zero. -/
def sizeSub (a b : Nat) (f : ε) : Except ε Nat :=
  if b ≤ a then .ok (a - b) else .error f

@[simp] theorem ok_bind (a : α) (k : α → Except ε β) : (Except.ok a >>= k) = k a := rfl

@[simp] theorem error_bind (e : ε) (k : α → Except ε β) : (Except.error e >>= k) = Except.error e := rfl

@[simp] theorem pure_ok (a : α) : (pure a : Except ε α) = Except.ok a := rfl

theorem assertThat_ok {p : Prop} [Decidable p] (h : p) (f : ε) : assertThat p f = .ok () := if_pos h

theorem assertThat_error {p : Prop} [Decidable p] (h : ¬ p) (f : ε) : assertThat p f = .error f := if_neg h

theorem sizeSub_ok {a b : Nat} (h : b ≤ a) (f : ε) : sizeSub a b f = .ok (a - b) := if_pos h

/-- A check that was passed. -/
theorem of_assertThat {p : Prop} [Decidable p] {f : ε} {a : Unit} (h : assertThat p f = .ok a) : p := by
  by_contra hp
  rw [assertThat_error hp] at h
  cases h

theorem of_sizeSub {a b c : Nat} {f : ε} (h : sizeSub a b f = .ok c) : b ≤ a := by
  by_contra hlt
  rw [sizeSub, if_neg hlt] at h
  cases h

theorem bind_eq_ok {x : Except ε α} {k : α → Except ε β} {b : β} :
    x >>= k = .ok b ↔ ∃ a, x = .ok a ∧ k a = .ok b := by
  cases x with
  | error e => simp
  | ok a => simp

end Opio
