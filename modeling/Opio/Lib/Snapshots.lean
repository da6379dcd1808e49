/-
A stream that is made of the contents of objects. Each object has several versions of the same
length, and as long as it lies in the stream as a whole one version may be put in the place of
another. What was read off the front of the stream is, of each object, the beginning of one version.
-/
import Mathlib.Tactic.Common
import Mathlib.Data.List.Basic

namespace Opio

open scoped List

/-- The versions of objects, as elements that know the object they are of. -/
structure Versions (α κ υ : Type) where
  origin : α → κ
  contents : κ → υ → List α
  origin_eq : ∀ b v, ∀ a ∈ contents b v, origin a = b
  length_eq : ∀ b v v', (contents b v).length = (contents b v').length

namespace Versions

variable {α κ υ : Type} (V : Versions α κ υ)

/-! ## Rewriting -/

/-- Versions of objects were put in the place of others. -/
inductive Rewritten (stream : List α) : List α → Prop
  | refl : Rewritten stream stream
  | step (before : List α) (b : κ) (v v' : υ) (after : List α)
    (h : Rewritten stream (before ++ V.contents b v ++ after)) : Rewritten stream (before ++ V.contents b v' ++ after)

section Rewriting

variable {V} {stream stream' stream'' : List α}

theorem Rewritten.trans (h : V.Rewritten stream stream') (h' : V.Rewritten stream' stream'') :
    V.Rewritten stream stream'' := by
  induction h' with
  | refl => exact h
  | step before b v v' after _ ih => exact .step before b v v' after ih

theorem rewritten_contents (b : κ) (v v' : υ) : V.Rewritten (V.contents b v) (V.contents b v') := by
  have h : V.Rewritten (V.contents b v) ([] ++ V.contents b v ++ []) := by
    rw [List.nil_append, List.append_nil]
    exact .refl
  have h' := Rewritten.step [] b v v' [] h
  rwa [List.nil_append, List.append_nil] at h'

theorem Rewritten.append_left (h : V.Rewritten stream stream') (before : List α) :
    V.Rewritten (before ++ stream) (before ++ stream') := by
  induction h with
  | refl => exact .refl
  | step before' b v v' after _ ih =>
    rw [List.append_assoc before', ← List.append_assoc before, ← List.append_assoc] at ih ⊢
    exact .step (before ++ before') b v v' after ih

theorem Rewritten.append_right (h : V.Rewritten stream stream') (after : List α) :
    V.Rewritten (stream ++ after) (stream' ++ after) := by
  induction h with
  | refl => exact .refl
  | step before b v v' after' _ ih =>
    rw [List.append_assoc _ after'] at ih ⊢
    exact .step before b v v' (after' ++ after) ih

theorem Rewritten.append {more more' : List α} (h : V.Rewritten stream stream') (h' : V.Rewritten more more') :
    V.Rewritten (stream ++ more) (stream' ++ more') := (h.append_right more).trans (h'.append_left stream')

theorem Rewritten.length (h : V.Rewritten stream stream') : stream'.length = stream.length := by
  induction h with
  | refl => rfl
  | step before b v v' after _ ih =>
    rw [← ih]
    simp [V.length_eq b v' v]

/-- Other versions, but of no other objects. -/
theorem Rewritten.origin (h : V.Rewritten stream stream') : ∀ a ∈ stream', ∃ a' ∈ stream, V.origin a' = V.origin a := by
  induction h with
  | refl => exact fun a ha => ⟨a, ha, rfl⟩
  | step before b v v' after _ ih =>
    intro a ha
    rcases List.mem_append.1 ha with ha | ha
    · rcases List.mem_append.1 ha with ha | ha
      · exact ih a (List.mem_append_left _ (List.mem_append_left _ ha))
      · have hpos : 0 < (V.contents b v).length := V.length_eq b v' v ▸ List.length_pos_of_mem ha
        obtain ⟨a', ha'⟩ := List.exists_mem_of_length_pos hpos
        obtain ⟨a'', ha'', horigin⟩ := ih a' (List.mem_append_left _ (List.mem_append_right _ ha'))
        exact ⟨a'', ha'', horigin.trans ((V.origin_eq b v a' ha').trans (V.origin_eq b v' a ha).symm)⟩
    · exact ih a (List.mem_append_right _ ha)

end Rewriting

/-! ## Elements of an object -/

variable [DecidableEq κ]

/-- The elements of an object. -/
def of (b : κ) (stream : List α) : List α := stream.filter (V.origin · = b)

/-- All that the stream has of an object is one version of it. -/
def Whole (stream : List α) : Prop := ∀ b, V.of b stream = [] ∨ ∃ v, V.of b stream = V.contents b v

variable {V} {stream stream' : List α}

@[simp] theorem of_append (b : κ) (stream stream' : List α) :
    V.of b (stream ++ stream') = V.of b stream ++ V.of b stream' := List.filter_append ..

theorem of_contents (b : κ) (v : υ) : V.of b (V.contents b v) = V.contents b v := by
  refine List.filter_eq_self.2 ?_
  intro a ha
  exact decide_eq_true (V.origin_eq b v a ha)

theorem of_eq_nil {b : κ} (h : ∀ a ∈ stream, V.origin a ≠ b) : V.of b stream = [] := by
  refine List.filter_eq_nil_iff.2 ?_
  intro a ha
  simpa using h a ha

theorem of_contents_ne {b b' : κ} (h : b ≠ b') (v : υ) : V.of b' (V.contents b v) = [] := by
  apply of_eq_nil
  intro a ha heq
  exact h ((V.origin_eq b v a ha).symm.trans heq)

/-! ## Whole objects -/

theorem whole_nil : V.Whole [] := fun _ => .inl rfl

/-- One version in the place of another: the rest of the stream has nothing of the object. -/
theorem Whole.step {before after : List α} {b : κ} {v : υ} (h : V.Whole (before ++ V.contents b v ++ after)) (v' : υ) :
    V.Whole (before ++ V.contents b v' ++ after) := by
  intro b'
  by_cases hb : b = b'
  · subst hb
    have hb := h b
    rw [of_append, of_append, of_contents] at hb ⊢
    rcases hb with hnil | ⟨w, hw⟩
    · -- an object without elements
      rw [List.append_eq_nil_iff, List.append_eq_nil_iff] at hnil
      have hnil' : V.contents b v' = [] := by
        rw [← List.length_eq_zero_iff, V.length_eq b v' v, hnil.1.2]
        rfl
      rw [hnil.1.1, hnil', hnil.2]
      exact .inl rfl
    · have hlength := congrArg List.length hw
      rw [List.length_append, List.length_append, V.length_eq b w v] at hlength
      have hbefore : V.of b before = [] := List.length_eq_zero_iff.1 (by omega)
      have hafter : V.of b after = [] := List.length_eq_zero_iff.1 (by omega)
      rw [hbefore, hafter, List.nil_append, List.append_nil]
      exact .inr ⟨v', rfl⟩
  · have hb' := h b'
    rw [of_append, of_append, of_contents_ne hb] at hb' ⊢
    exact hb'

theorem Whole.rewritten (h : V.Whole stream) (hrewritten : V.Rewritten stream stream') : V.Whole stream' := by
  induction hrewritten with
  | refl => exact h
  | step before b v v' after _ ih => exact ih.step v'

/-- An object that comes. -/
theorem Whole.fresh (h : V.Whole stream) {b : κ} (hfresh : ∀ a ∈ stream, V.origin a ≠ b) (v : υ) :
    V.Whole (stream ++ V.contents b v) := by
  intro b'
  rw [of_append]
  by_cases hb : b = b'
  · subst hb
    rw [of_eq_nil hfresh, of_contents, List.nil_append]
    exact .inr ⟨v, rfl⟩
  · rw [of_contents_ne hb, List.append_nil]
    exact h b'

/-- What was read off the front has the beginning of one version of an object, or nothing of it. -/
theorem Whole.of_prefix {read : List α} (h : V.Whole stream) (hread : read <+: stream) (b : κ) :
    V.of b read = [] ∨ ∃ v, V.of b read <+: V.contents b v := by
  have hprefix : V.of b read <+: V.of b stream := hread.filter _
  rcases h b with hnil | ⟨v, hv⟩
  · exact .inl (List.prefix_nil.1 (hnil ▸ hprefix))
  · exact .inr ⟨v, hv ▸ hprefix⟩

end Versions

end Opio
