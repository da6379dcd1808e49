/-
Dispatch by key: what is sent names its entry of a table by a code of the entry's key, and the first
entry whose key is that code is taken. All entries are found if and only if the code says every key
as it is and no two keys are equal.
-/
import Mathlib.Data.List.Nodup
import Mathlib.Tactic.Common

namespace Opio

variable {α κ : Type} [DecidableEq κ]

/-- The entry that a code leads to. -/
def dispatch (key : α → κ) (table : List α) (code : κ) : Option α := table.find? fun a => key a = code

variable {key : α → κ} {code : κ → κ} {table : List α} {a : α} {k : κ}

theorem key_of_dispatch (h : dispatch key table k = some a) : key a = k := by
  simpa using List.find?_some h

/-- An entry is found by its own key when no other has it. -/
theorem dispatch_key : ∀ {table : List α}, (table.map key).Nodup → a ∈ table →
    dispatch key table (key a) = some a
  | [], _, ha => nomatch ha
  | b :: table, hkeys, ha => by
    obtain ⟨hb, hkeys⟩ := List.nodup_cons.1 hkeys
    unfold dispatch
    rcases List.mem_cons.1 ha with rfl | ha
    · exact List.find?_cons_of_pos (by simp)
    · have hne : key b ≠ key a := by
        rintro heq
        exact hb (heq ▸ List.mem_map_of_mem ha)
      rw [List.find?_cons_of_neg (by simpa using hne)]
      exact dispatch_key hkeys ha

theorem dispatches_iff (hnodup : table.Nodup) :
    (∀ a ∈ table, dispatch key table (code (key a)) = some a) ↔
      (∀ a ∈ table, code (key a) = key a) ∧ (table.map key).Nodup := by
  constructor
  · intro h
    refine ⟨fun a ha => (key_of_dispatch (h a ha)).symm, hnodup.map_on fun a ha b hb heq => ?_⟩
    have hfound := h a ha
    rw [heq, h b hb] at hfound
    exact (Option.some.inj hfound).symm
  · rintro ⟨hcode, hkeys⟩ a ha
    rw [hcode a ha]
    exact dispatch_key hkeys ha

end Opio
