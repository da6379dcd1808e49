/-
A waitable timer on a clock that does not go back. Setting the timer calls off the wait that is
pending; the handler of a wait that is over runs later, when its turn comes, and cannot be called
off any more. So a handler may run late, but not early.
-/
import Opio.Lib.Checked

namespace Opio

structure Timer where
  clock : Int
  /-- When the pending wait is over. -/
  pending : Option Int
  /-- The handlers of waits that are over which have not run. -/
  expired : Nat

namespace Timer

variable {t t' : Timer} {x : Int}

/-! ## Operations -/

def pass (t : Timer) (d : Nat) : Timer := { t with clock := t.clock + d }

/-- The pending wait is over. -/
def expire (t : Timer) : Option Timer :=
  match t.pending with
  | some deadline => if deadline ≤ t.clock then some { t with pending := none, expired := t.expired + 1 } else none
  | none => none

/-- A handler whose wait is over starts to run. -/
def take (t : Timer) : Option Timer := if 0 < t.expired then some { t with expired := t.expired - 1 } else none

def set (t : Timer) (deadline : Int) : Timer := { t with pending := some deadline }

def cancel (t : Timer) : Timer := { t with pending := none }

/-- How many waits there are whose handlers are still to run. -/
def waits (t : Timer) : Nat := (if t.pending.isSome then 1 else 0) + t.expired

/-- No handler of a pending wait runs before the time given. -/
def NotBefore (t : Timer) (x : Int) : Prop := x ≤ t.clock ∨ ∃ deadline, t.pending = some deadline ∧ x ≤ deadline

/-! ## What an operation changes -/

theorem expire_cases (h : t.expire = some t') : ∃ deadline, t.pending = some deadline ∧ deadline ≤ t.clock ∧
    t' = { t with pending := none, expired := t.expired + 1 } := by
  unfold expire at h
  split at h
  · rename_i deadline hpending
    split at h
    · rename_i hle
      exact ⟨deadline, hpending, hle, (Option.some.inj h).symm⟩
    · cases h
  · cases h

theorem take_cases (h : t.take = some t') : 0 < t.expired ∧ t' = { t with expired := t.expired - 1 } := by
  unfold take at h
  split at h
  · rename_i hpos
    exact ⟨hpos, (Option.some.inj h).symm⟩
  · cases h

@[simp] theorem clock_pass (t : Timer) (d : Nat) : (t.pass d).clock = t.clock + d := rfl

@[simp] theorem clock_set (t : Timer) (x : Int) : (t.set x).clock = t.clock := rfl

@[simp] theorem waits_pass (t : Timer) (d : Nat) : (t.pass d).waits = t.waits := rfl

theorem waits_expire (h : t.expire = some t') : t'.waits = t.waits := by
  obtain ⟨deadline, hpending, -, rfl⟩ := expire_cases h
  simp [waits, hpending, Nat.add_comm]

theorem clock_take (h : t.take = some t') : t'.clock = t.clock := by
  obtain ⟨-, rfl⟩ := take_cases h
  rfl

theorem waits_take (h : t.take = some t') : t.waits = t'.waits + 1 := by
  obtain ⟨hpos, rfl⟩ := take_cases h
  unfold waits
  dsimp only
  omega

/-- Once the only handler has started to run, setting the timer makes for one wait again. -/
theorem waits_set (t : Timer) (x : Int) : (t.set x).waits = 1 + t.expired := rfl

theorem expired_of_take (hone : t.waits ≤ 1) (h : t.take = some t') : t'.expired = 0 ∧ t'.pending = none := by
  obtain ⟨hpos, rfl⟩ := take_cases h
  unfold waits at hone
  cases hpending : t.pending with
  | none =>
    rw [hpending] at hone
    simp at hone
    simp
    omega
  | some deadline =>
    rw [hpending] at hone
    simp at hone
    omega

/-! ## What a deadline promises -/

theorem NotBefore.pass (h : t.NotBefore x) (d : Nat) : (t.pass d).NotBefore x := by
  rcases h with h | h
  · exact .inl (by simp; omega)
  · exact .inr h

theorem NotBefore.expire (h : t.NotBefore x) (hexpire : t.expire = some t') : t'.NotBefore x := by
  obtain ⟨deadline, hpending, hle, rfl⟩ := expire_cases hexpire
  rcases h with h | ⟨deadline', hpending', h⟩
  · exact .inl h
  · rw [hpending] at hpending'
    obtain rfl := Option.some.inj hpending'
    exact .inl (Int.le_trans h hle)

/-- With one wait only, the handler that runs is the one the deadline was set for. -/
theorem NotBefore.take (h : t.NotBefore x) (hone : t.waits ≤ 1) (htake : t.take = some t') : x ≤ t.clock := by
  rcases h with h | ⟨deadline, hpending, h⟩
  · exact h
  · have hpos := (take_cases htake).1
    unfold waits at hone
    rw [hpending] at hone
    simp at hone
    omega

theorem notBefore_set {deadline : Int} (h : x ≤ t.clock ∨ x ≤ deadline) : (t.set deadline).NotBefore x :=
  h.imp id fun h => ⟨deadline, rfl, h⟩

theorem NotBefore.of_le (h : x ≤ t.clock) : t.NotBefore x := .inl h

end Timer

end Opio
