/-
Grouping a list from left to right, where a group is extended as long as its weight with the next item
stays within a bound. There is one such grouping, and grouping the groups again does nothing.
-/
import Mathlib.Data.List.Chain
import Mathlib.Algebra.BigOperators.Group.List.Basic
import Mathlib.Algebra.Ring.Nat
import Mathlib.Tactic.Common

namespace Opio

variable {α : Type*} {w : α → Nat} {bound : Nat}

/-- The weight of a group. -/
def weight (w : α → Nat) (group : List α) : Nat := (group.map w).sum

@[simp] theorem weight_singleton (w : α → Nat) (a : α) : weight w [a] = w a := List.sum_singleton

theorem weight_cons (w : α → Nat) (a : α) (as : List α) : weight w (a :: as) = w a + weight w as := by
  rw [weight, List.map_cons, List.sum_cons, weight]

theorem weight_append (w : α → Nat) (as bs : List α) : weight w (as ++ bs) = weight w as + weight w bs := by
  rw [weight, List.map_append, List.sum_append, weight, weight]

theorem weight_concat (w : α → Nat) (as : List α) (a : α) : weight w (as ++ [a]) = weight w as + w a := by
  rw [weight_append, weight_singleton]

/-- The next group does not fit in with its first item. -/
def Overflows (w : α → Nat) (bound : Nat) (group next : List α) : Prop :=
  ∀ a ∈ next.head?, bound < weight w group + w a

/-- The items in groups that are within the bound, or of one item, and that could not be extended. -/
structure GreedyGroups (w : α → Nat) (bound : Nat) (items : List α) (groups : List (List α)) : Prop where
  flatten : groups.flatten = items
  nonempty : ∀ g ∈ groups, g ≠ []
  fits : ∀ g ∈ groups, 1 < g.length → weight w g ≤ bound
  maximal : groups.IsChain (Overflows w bound)

namespace GreedyGroups

variable {items : List α} {groups groups' : List (List α)} {group : List α}

theorem nil : GreedyGroups w bound [] [] := ⟨rfl, by simp, by simp, List.IsChain.nil⟩

/-- One more group at the end. -/
theorem concat (h : GreedyGroups w bound items groups) (hne : group ≠ [])
    (hfits : 1 < group.length → weight w group ≤ bound)
    (hover : ∀ g ∈ groups.getLast?, Overflows w bound g group) :
    GreedyGroups w bound (items ++ group) (groups ++ [group]) where
  flatten := by rw [List.flatten_append, h.flatten, List.flatten_singleton]
  nonempty := List.forall_mem_append.2 ⟨h.nonempty, by simpa using hne⟩
  fits := List.forall_mem_append.2 ⟨h.fits, by simpa using hfits⟩
  maximal := by
    refine List.isChain_append.2 ⟨h.maximal, List.isChain_singleton _, ?_⟩
    rintro g hg _ ⟨⟩
    exact hover g hg

theorem tail (h : GreedyGroups w bound items (group :: groups)) : GreedyGroups w bound groups.flatten groups where
  flatten := rfl
  nonempty g hg := h.nonempty g (List.mem_cons_of_mem _ hg)
  fits g hg := h.fits g (List.mem_cons_of_mem _ hg)
  maximal := h.maximal.tail

/-- Each group has an item. -/
theorem length_le (h : GreedyGroups w bound items groups) : groups.length ≤ items.length := by
  rw [← h.flatten, List.length_flatten, ← List.length_map List.length]
  refine List.length_le_sum_of_one_le _ fun n hn => ?_
  obtain ⟨g, hg, rfl⟩ := List.mem_map.1 hn
  exact List.length_pos_iff.2 (h.nonempty g hg)

/-- The items before a group are those of the groups before it. -/
theorem items_eq (h : GreedyGroups w bound items groups) {i : Nat} (hi : groups[i]? = some group) :
    items = (groups.take i).flatten ++ (group ++ (groups.drop (i + 1)).flatten) := by
  obtain ⟨hlt, hget⟩ := List.getElem?_eq_some_iff.1 hi
  rw [← hget, ← List.flatten_cons, ← List.drop_eq_getElem_cons hlt, ← List.flatten_append, List.take_append_drop,
    h.flatten]

/-- A group is not shorter than it could be. -/
theorem length_le_of_prefix {group' : List α} (h : GreedyGroups w bound items (group :: groups))
    (hpre : group' <+: items) (hfits : 1 < group'.length → weight w group' ≤ bound) :
    group'.length ≤ group.length := by
  by_contra hlt
  rw [Nat.not_le] at hlt
  have hflat : group ++ groups.flatten = items := h.flatten
  obtain ⟨rest, hrest⟩ : group <+: group' :=
    List.prefix_of_prefix_length_le ⟨_, hflat⟩ hpre hlt.le
  cases rest with
  | nil => exact absurd (congrArg List.length hrest) (by rw [List.append_nil]; exact hlt.ne)
  | cons a rest =>
    obtain ⟨after, hafter⟩ := hpre
    -- the item behind the group is the first of the next one
    have hnext : groups.flatten = a :: (rest ++ after) := by
      refine List.append_cancel_left (?_ : group ++ groups.flatten = group ++ _)
      rw [hflat, ← hafter, ← hrest, List.append_assoc, List.cons_append]
    cases groups with
    | nil => cases hnext
    | cons next groups =>
      have hne : next ≠ [] := h.nonempty next (by simp)
      cases next with
      | nil => exact hne rfl
      | cons b next =>
        obtain rfl : b = a := (List.cons.inj hnext).1
        have hover : bound < weight w group + w b := (List.isChain_cons_cons.1 h.maximal).1 b rfl
        have hpos : 0 < group.length := List.length_pos_iff.2 (h.nonempty group List.mem_cons_self)
        have hle : weight w group' ≤ bound := hfits (by omega)
        rw [← hrest, List.append_cons, weight_append, weight_concat] at hle
        omega

/-- There is one way to group the items. -/
theorem unique (h : GreedyGroups w bound items groups) (h' : GreedyGroups w bound items groups') :
    groups = groups' := by
  induction groups generalizing items groups' with
  | nil =>
    cases groups' with
    | nil => rfl
    | cons g' groups' =>
      have hnil : g' ++ groups'.flatten = [] := h'.flatten.trans h.flatten.symm
      exact absurd (List.append_eq_nil_iff.1 hnil).1 (h'.nonempty g' List.mem_cons_self)
  | cons g groups ih =>
    cases groups' with
    | nil =>
      have hnil : g ++ groups.flatten = [] := h.flatten.trans h'.flatten.symm
      exact absurd (List.append_eq_nil_iff.1 hnil).1 (h.nonempty g List.mem_cons_self)
    | cons g' groups' =>
      have hflat : g ++ groups.flatten = items := h.flatten
      have hflat' : g' ++ groups'.flatten = items := h'.flatten
      have hle := h'.length_le_of_prefix ⟨_, hflat⟩ (h.fits g List.mem_cons_self)
      have hge := h.length_le_of_prefix ⟨_, hflat'⟩ (h'.fits g' List.mem_cons_self)
      obtain ⟨rfl, hrest⟩ := List.append_inj (hflat.trans hflat'.symm) (Nat.le_antisymm hle hge)
      rw [ih h.tail (hrest ▸ h'.tail)]

/-- Two groups in a row are more than the bound. -/
theorem adjacent (h : GreedyGroups w bound items groups) :
    groups.IsChain fun g g' => bound < weight w g + weight w g' := by
  refine (List.isChain_iff_getElem.2 fun i hi => ?_)
  have hover := List.isChain_iff_getElem.1 h.maximal i hi
  have hne := h.nonempty _ (List.getElem_mem hi)
  cases hg : groups[i + 1] with
  | nil => exact absurd hg hne
  | cons a rest =>
    have hlt : bound < weight w groups[i] + w a := hover a (by rw [hg]; rfl)
    rw [weight_cons]
    omega

/-- Items that are too heavy two by two stay by themselves. -/
theorem singletons (h : items.IsChain fun a b => bound < w a + w b) :
    GreedyGroups w bound items (items.map fun a => [a]) where
  flatten := by rw [← List.flatMap_def, List.flatMap_singleton']
  nonempty := by simp
  fits := by simp
  maximal := by
    refine (List.isChain_map _).2 (h.imp ?_)
    rintro a b hab _ ⟨⟩
    rw [weight_singleton]
    exact hab

end GreedyGroups

end Opio
