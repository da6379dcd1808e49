/-
A sequence held as a list of blocks and consumed from the front: dropping elements without
merging the blocks, and what that does to the sequence.
-/
import Mathlib.Data.List.Basic
import Mathlib.Order.Nat
import Mathlib.Tactic.Common

namespace Opio.Blocks

variable {α : Type*}

/-- The blocks left when the first `n` elements are gone. A block is given up as soon as nothing
of it is left; with nothing to drop the blocks stay as they are, empty ones included. -/
def drop : Nat → List (List α) → List (List α)
  | 0, bs => bs
  | _ + 1, [] => []
  | n + 1, b :: bs => if n + 1 < b.length then b.drop (n + 1) :: bs else drop (n + 1 - b.length) bs

@[simp] theorem drop_zero (bs : List (List α)) : drop 0 bs = bs := by
  cases bs <;> rfl

theorem drop_cons_lt {n : Nat} {b : List α} (hn : 0 < n) (h : n < b.length) (bs : List (List α)) :
    drop n (b :: bs) = b.drop n :: bs := by
  obtain ⟨n, rfl⟩ := Nat.exists_eq_succ_of_ne_zero hn.ne'
  rw [drop, if_pos h]

theorem drop_cons_ge {n : Nat} {b : List α} (hn : 0 < n) (h : b.length ≤ n) (bs : List (List α)) :
    drop n (b :: bs) = drop (n - b.length) bs := by
  obtain ⟨n, rfl⟩ := Nat.exists_eq_succ_of_ne_zero hn.ne'
  rw [drop, if_neg (by omega)]

theorem flatten_drop : ∀ (bs : List (List α)) (n : Nat), (drop n bs).flatten = bs.flatten.drop n
  | [], n => by cases n <;> simp [drop]
  | b :: bs, n => by
    rcases Nat.eq_zero_or_pos n with rfl | hn
    · simp
    rcases Nat.lt_or_ge n b.length with h | h
    · rw [drop_cons_lt hn h, List.flatten_cons, List.flatten_cons, List.drop_append_of_le_length h.le]
    · rw [drop_cons_ge hn h, flatten_drop bs, List.flatten_cons, List.drop_append,
        List.drop_eq_nil_of_le h, List.nil_append]

theorem length_drop_le : ∀ (bs : List (List α)) (n : Nat), (drop n bs).length ≤ bs.length
  | [], n => by cases n <;> simp [drop]
  | b :: bs, n => by
    rcases Nat.eq_zero_or_pos n with rfl | hn
    · simp
    rcases Nat.lt_or_ge n b.length with h | h
    · simp [drop_cons_lt hn h]
    · rw [drop_cons_ge hn h]
      exact (length_drop_le bs _).trans (Nat.le_succ _)

/-- Every block that is left is the end of an old one. -/
theorem length_le_of_mem_drop : ∀ {bs : List (List α)} {n : Nat} {c : List α}, c ∈ drop n bs →
    ∃ b ∈ bs, c.length ≤ b.length
  | [], n, c, hc => by cases n <;> simp [drop] at hc
  | b :: bs, n, c, hc => by
    rcases Nat.eq_zero_or_pos n with rfl | hn
    · exact ⟨c, by simpa using hc, le_rfl⟩
    rcases Nat.lt_or_ge n b.length with h | h
    · rw [drop_cons_lt hn h] at hc
      rcases List.mem_cons.1 hc with rfl | hc
      · exact ⟨b, List.mem_cons_self .., by simp⟩
      · exact ⟨c, List.mem_cons_of_mem _ hc, le_rfl⟩
    · rw [drop_cons_ge hn h] at hc
      obtain ⟨d, hd, hle⟩ := length_le_of_mem_drop hc
      exact ⟨d, List.mem_cons_of_mem _ hd, hle⟩

end Opio.Blocks
