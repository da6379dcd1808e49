/-
Objects that any number of pointers hold, each with the number of its holders. An object is there for as
long as somebody holds it, and whoever is the only one to hold it may take what is in it.
-/
import Mathlib.Data.List.Perm.Basic
import Mathlib.Tactic.Common

namespace Opio

/-- An object, and how many hold it. -/
structure Shared (α : Type*) where
  value : α
  useCount : Nat
  deriving DecidableEq, Repr

/-- The objects by their numbers. One that nobody holds any more is none. -/
abbrev SharedObjects (α : Type*) := List (Option (Shared α))

namespace SharedObjects

open scoped List

variable {α : Type*}

/-- The object of a number, unless it is gone. -/
def find (objects : SharedObjects α) (k : Nat) : Option (Shared α) := objects[k]?.join

/-- How many hold the object of a number. -/
def uses (objects : SharedObjects α) (k : Nat) : Nat := ((objects.find k).map Shared.useCount).getD 0

/-- A new object. Its number is the next one. -/
def make (value : α) (objects : SharedObjects α) : SharedObjects α := objects ++ [some ⟨value, 1⟩]

/-- One more holds an object. -/
def copy (k : Nat) (objects : SharedObjects α) : SharedObjects α :=
  objects.set k ((objects.find k).map fun o => { o with useCount := o.useCount + 1 })

/-- One less does, and the last one is the end of it. -/
def drop (k : Nat) (objects : SharedObjects α) : SharedObjects α :=
  objects.set k ((objects.find k).bind fun o =>
    if o.useCount ≤ 1 then none else some { o with useCount := o.useCount - 1 })

/-- What is in an object is changed. -/
def modify (k : Nat) (f : α → α) (objects : SharedObjects α) : SharedObjects α :=
  objects.set k ((objects.find k).map fun o => { o with value := f o.value })

/-- What is in the objects that are there. -/
def values (objects : SharedObjects α) : List α := objects.filterMap fun o => o.map Shared.value

/-! ## Numbers -/

variable {objects : SharedObjects α} {o : Shared α} {k j : Nat}

theorem getElem?_of_find (h : objects.find k = some o) : objects[k]? = some (some o) := Option.join_eq_some_iff.1 h

theorem lt_of_find (h : objects.find k = some o) : k < objects.length :=
  (List.getElem?_eq_some_iff.1 (getElem?_of_find h)).1

theorem find_make_self (value : α) (objects : SharedObjects α) :
    (objects.make value).find objects.length = some ⟨value, 1⟩ := by
  rw [find, make, List.getElem?_concat_length]
  rfl

theorem find_make (value : α) (h : k < objects.length) : (objects.make value).find k = objects.find k := by
  rw [find, make, List.getElem?_append_left h, find]

theorem find_set_self (h : objects.find k = some o) (o' : Option (Shared α)) : find (objects.set k o') k = o' := by
  rw [find, List.getElem?_set_self (lt_of_find h)]
  rfl

theorem find_set_ne (h : k ≠ j) (o' : Option (Shared α)) : find (objects.set k o') j = objects.find j := by
  rw [find, List.getElem?_set_ne h, find]

theorem uses_of_find (h : objects.find k = some o) : objects.uses k = o.useCount := by
  rw [uses, h]
  rfl

theorem find_of_uses (h : 0 < objects.uses k) : ∃ o, objects.find k = some o := by
  unfold uses at h
  cases hfind : objects.find k with
  | none =>
    rw [hfind] at h
    exact absurd h (Nat.lt_irrefl 0)
  | some o => exact ⟨o, rfl⟩

theorem uses_of_ge (h : objects.length ≤ k) : objects.uses k = 0 := by
  rw [uses, find, List.getElem?_eq_none h]
  rfl

theorem uses_set_ne (h : k ≠ j) (o' : Option (Shared α)) : uses (objects.set k o') j = objects.uses j := by
  rw [uses, find_set_ne h, uses]

theorem uses_set_self (h : objects.find k = some o) (o' : Option (Shared α)) :
    uses (objects.set k o') k = (o'.map Shared.useCount).getD 0 := by
  rw [uses, find_set_self h]

theorem find_copy (h : objects.find k = some o) :
    (objects.copy k).find k = some { o with useCount := o.useCount + 1 } := by
  rw [copy, find_set_self h, h]
  rfl

/-- An object that others still hold, and one that nobody does. -/
theorem find_drop (h : objects.find k = some o) : (objects.drop k).find k =
    if o.useCount ≤ 1 then none else some { o with useCount := o.useCount - 1 } := by
  rw [drop, find_set_self h, h]
  rfl

theorem find_modify (h : objects.find k = some o) (f : α → α) :
    (objects.modify k f).find k = some { o with value := f o.value } := by
  rw [modify, find_set_self h, h]
  rfl

/-! ## Values -/

theorem values_make (value : α) (objects : SharedObjects α) : (objects.make value).values = objects.values ++ [value] :=
  List.filterMap_append

/-- The object of a number comes first. -/
theorem values_perm (h : objects.find k = some o) : objects.values ~ o.value :: values (objects.set k none) := by
  have hk := lt_of_find h
  have hget : objects[k] = some o := (List.getElem?_eq_some_iff.1 (getElem?_of_find h)).2
  have hfront : objects.values ~ values (some o :: objects.eraseIdx k) :=
    (hget ▸ List.getElem_cons_eraseIdx_perm hk).symm.filterMap _
  have hrest : values (objects.set k none) ~ values (none :: objects.eraseIdx k) :=
    (List.set_perm_cons_eraseIdx hk none).filterMap _
  exact hfront.trans (hrest.symm.cons _)

theorem mem_values (h : objects.find k = some o) : o.value ∈ objects.values :=
  (values_perm h).mem_iff.2 List.mem_cons_self

theorem exists_of_mem_values {a : α} (h : a ∈ objects.values) : ∃ k o, objects.find k = some o ∧ o.value = a := by
  obtain ⟨entry, hentry, hmap⟩ := List.mem_filterMap.1 h
  obtain ⟨o, rfl, hvalue⟩ := Option.map_eq_some_iff.1 hmap
  obtain ⟨k, hk⟩ := List.mem_iff_getElem?.1 hentry
  exact ⟨k, o, Option.join_eq_some_iff.2 hk, hvalue⟩

theorem values_set_perm (h : objects.find k = some o) (o' : Shared α) :
    values (objects.set k (some o')) ~ o'.value :: values (objects.set k none) := by
  have hfront := values_perm (find_set_self h (some o'))
  rwa [List.set_set] at hfront

theorem values_copy (h : objects.find k = some o) : (objects.copy k).values ~ objects.values := by
  rw [copy, h]
  exact (values_set_perm h _).trans (values_perm h).symm

theorem values_drop (h : objects.find k = some o) (hlast : 1 < o.useCount) :
    (objects.drop k).values ~ objects.values := by
  rw [drop, h, Option.bind_some, if_neg (Nat.not_le.2 hlast)]
  exact (values_set_perm h _).trans (values_perm h).symm

/-- What was in the object is left when the last one lets go. -/
theorem values_drop_last (h : objects.find k = some o) (hlast : o.useCount ≤ 1) :
    objects.values ~ o.value :: (objects.drop k).values := by
  rw [drop, h, Option.bind_some, if_pos hlast]
  exact values_perm h

theorem values_modify (h : objects.find k = some o) (f : α → α) :
    (objects.modify k f).values ~ f o.value :: values (objects.set k none) := by
  rw [modify, h]
  exact values_set_perm h _

/-! ## Holders -/

/-- Every object is held as often as it counts, and there as long as it is held. -/
structure Counted (objects : SharedObjects α) (holders : List Nat) : Prop where
  uses : ∀ k, objects.uses k = holders.count k
  held : ∀ k o, objects.find k = some o → 0 < o.useCount

variable {holders holders' : List Nat}

theorem counted_nil : Counted ([] : SharedObjects α) [] := by
  refine ⟨fun _ => rfl, ?_⟩
  rintro k o ⟨⟩

theorem Counted.perm (h : objects.Counted holders) (hp : holders ~ holders') : objects.Counted holders' :=
  ⟨fun k => (h.uses k).trans (hp.count_eq k), h.held⟩

/-- What is held is there. -/
theorem Counted.find (h : objects.Counted holders) (hk : k ∈ holders) : ∃ o, objects.find k = some o := by
  apply find_of_uses
  rw [h.uses]
  exact List.count_pos_iff.2 hk

/-- Nothing is there that nobody holds. -/
theorem Counted.find_nil (h : objects.Counted []) (k : Nat) : objects.find k = none := by
  cases hfind : objects.find k with
  | none => rfl
  | some o =>
    have hpos := h.held k o hfind
    rw [← uses_of_find hfind, h.uses] at hpos
    exact absurd hpos (Nat.lt_irrefl 0)

theorem Counted.make (h : objects.Counted holders) (value : α) :
    (objects.make value).Counted (objects.length :: holders) := by
  have hnew : objects.length ∉ holders := fun hmem => by
    obtain ⟨o, ho⟩ := h.find hmem
    exact absurd (lt_of_find ho) (Nat.lt_irrefl _)
  constructor
  · intro j
    rcases Nat.lt_trichotomy j objects.length with hlt | rfl | hgt
    · rw [SharedObjects.uses, find_make value hlt, List.count_cons_of_ne (Nat.ne_of_gt hlt)]
      exact h.uses j
    · rw [uses_of_find (find_make_self value objects), List.count_cons_self, List.count_eq_zero.2 hnew]
    · rw [List.count_cons_of_ne (Nat.ne_of_lt hgt), ← h.uses, uses_of_ge (Nat.le_of_lt hgt), uses_of_ge]
      rwa [SharedObjects.make, List.length_append]
  · intro j o hj
    rcases Nat.lt_trichotomy j objects.length with hlt | rfl | hgt
    · rw [find_make value hlt] at hj
      exact h.held j o hj
    · rw [find_make_self] at hj
      rw [← Option.some.inj hj]
      exact Nat.one_pos
    · have := lt_of_find hj
      rw [SharedObjects.make, List.length_append, List.length_singleton] at this
      omega

/-- An object whose count is the number of its holders, with the others as they were. -/
theorem Counted.set (h : objects.Counted holders) (hk : objects.find k = some o) {o' : Option (Shared α)}
    (hself : (o'.map Shared.useCount).getD 0 = holders'.count k) (hpos : ∀ o ∈ o', 0 < o.useCount)
    (hothers : ∀ j, j ≠ k → holders'.count j = holders.count j) : Counted (objects.set k o') holders' := by
  constructor
  · intro j
    by_cases hj : k = j
    · subst hj
      rw [uses_set_self hk, hself]
    · rw [uses_set_ne hj, h.uses, hothers j (Ne.symm hj)]
  · intro j o₁ hfind
    by_cases hj : k = j
    · subst hj
      rw [find_set_self hk] at hfind
      exact hpos o₁ hfind
    · rw [find_set_ne hj] at hfind
      exact h.held j o₁ hfind

theorem Counted.copy (h : objects.Counted holders) (hk : k ∈ holders) : (objects.copy k).Counted (k :: holders) := by
  obtain ⟨o, ho⟩ := h.find hk
  rw [SharedObjects.copy, ho]
  refine h.set ho ?_ ?_ fun j hj => List.count_cons_of_ne (Ne.symm hj)
  · rw [List.count_cons_self, ← h.uses, uses_of_find ho]
    rfl
  · rintro _ ⟨⟩
    exact Nat.succ_pos _

theorem Counted.drop (h : objects.Counted (k :: holders)) : (objects.drop k).Counted holders := by
  obtain ⟨o, ho⟩ := h.find List.mem_cons_self
  have hcount : o.useCount = holders.count k + 1 := by
    rw [← uses_of_find ho, h.uses, List.count_cons_self]
  have hothers : ∀ j, j ≠ k → holders.count j = (k :: holders).count j :=
    fun j hj => (List.count_cons_of_ne (Ne.symm hj)).symm
  rw [SharedObjects.drop, ho, Option.bind_some]
  split
  next hlast =>
    refine h.set ho ?_ ?_ hothers
    · show 0 = _
      omega
    · rintro _ ⟨⟩
  next hlast =>
    refine h.set ho ?_ ?_ hothers
    · show o.useCount - 1 = _
      omega
    · rintro _ ⟨⟩
      show 0 < o.useCount - 1
      omega

theorem Counted.modify (h : objects.Counted holders) (ho : objects.find k = some o) (f : α → α) :
    (objects.modify k f).Counted holders := by
  rw [SharedObjects.modify, ho]
  refine h.set ho ?_ ?_ fun _ _ => rfl
  · rw [← h.uses, uses_of_find ho]
    rfl
  · rintro _ ⟨⟩
    exact h.held k o ho

/-- The only holder of an object is told so. -/
theorem Counted.alone_iff (h : objects.Counted (k :: holders)) (ho : objects.find k = some o) :
    o.useCount ≤ 1 ↔ k ∉ holders := by
  rw [← List.count_eq_zero, ← uses_of_find ho, h.uses, List.count_cons_self]
  omega

end SharedObjects

end Opio
