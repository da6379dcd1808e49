/-
Memory that is handed out in blocks, each owned by at most one pointer. What such pointers own are
values that do not depend on each other: moving a pointer moves a value, and giving a block back
touches no other one.
-/
import Mathlib.Data.List.Perm.Basic
import Mathlib.Tactic.Common

namespace Opio

/-- The blocks of memory by their numbers. A block that was given back is none. -/
abbrev Heap (α : Type*) := List (Option (List α))

namespace Heap

open scoped List

variable {α : Type*}

/-- What a block holds, unless it was given back. -/
def find (h : Heap α) (b : Nat) : Option (List α) := h[b]?.join

/-- Hands out a block. Its number is the next one. -/
def allocate (h : Heap α) (block : List α) : Heap α := h ++ [some block]

/-- A pointer gives back what it owns. -/
def release (h : Heap α) : Option Nat → Heap α
  | none => h
  | some b => h.set b none

/-- What a pointer owns is there to be given back. To give back what is gone is undefined. -/
def Releasable (h : Heap α) (p : Option Nat) : Prop := ∀ b ∈ p, (h.find b).isSome

instance (h : Heap α) (p : Option Nat) : Decidable (h.Releasable p) :=
  inferInstanceAs (Decidable (∀ b ∈ p, (h.find b).isSome = true))

/-- Rewrites what a block holds. -/
def modify (h : Heap α) (b : Nat) (f : List α → List α) : Heap α := h.set b ((h.find b).map f)

/-- What a pointer owns. -/
def value (h : Heap α) (p : Option Nat) : Option (List α) := p.bind h.find

def values (h : Heap α) (ptrs : List (Option Nat)) : List (Option (List α)) := ptrs.map h.value

/-! ## Blocks -/

theorem lt_of_find {h : Heap α} {b : Nat} {block : List α} (hb : h.find b = some block) : b < h.length := by
  have hget : h[b]? = some (some block) := Option.join_eq_some_iff.1 hb
  exact (List.getElem?_eq_some_iff.1 hget).1

theorem find_allocate_self (h : Heap α) (block : List α) : (h.allocate block).find h.length = some block := by
  rw [find, allocate, List.getElem?_concat_length]
  rfl

theorem find_allocate {h : Heap α} {b : Nat} (hb : b < h.length) (block : List α) :
    (h.allocate block).find b = h.find b := by
  rw [find, allocate, List.getElem?_append_left hb, find]

theorem find_release {h : Heap α} {p : Option Nat} {b : Nat} (hp : p ≠ some b) : (h.release p).find b = h.find b := by
  cases p with
  | none => rfl
  | some c =>
    have hne : c ≠ b := fun heq => hp (congrArg some heq)
    rw [find, release, List.getElem?_set_ne hne, find]

theorem find_modify_self {h : Heap α} {b : Nat} {block : List α} (hb : h.find b = some block) (f : List α → List α) :
    (h.modify b f).find b = some (f block) := by
  rw [find, modify, List.getElem?_set_self (lt_of_find hb), hb]
  rfl

theorem find_modify {h : Heap α} {b c : Nat} (hne : b ≠ c) (f : List α → List α) :
    (h.modify b f).find c = h.find c := by
  rw [find, modify, List.getElem?_set_ne hne, find]

@[simp] theorem value_none (h : Heap α) : h.value none = none := rfl

@[simp] theorem value_some (h : Heap α) (b : Nat) : h.value (some b) = h.find b := rfl

@[simp] theorem length_values (h : Heap α) (ptrs : List (Option Nat)) : (h.values ptrs).length = ptrs.length :=
  List.length_map _

theorem getElem?_values (h : Heap α) (ptrs : List (Option Nat)) (i : Nat) :
    (h.values ptrs)[i]? = ptrs[i]?.map h.value := List.getElem?_map

/-! ## Ownership -/

/-- Two pointers do not own the same block. -/
def Apart (p q : Option Nat) : Prop := ∀ b, p = some b → q ≠ some b

theorem Apart.symm {p q : Option Nat} (h : Apart p q) : Apart q p := fun b hq hp => h b hp hq

theorem Apart.of_none (q : Option Nat) : Apart none q := by
  rintro b ⟨⟩

/-- Every block has one owner, and is there as long as it has. -/
structure Owned (h : Heap α) (ptrs : List (Option Nat)) : Prop where
  apart : ptrs.Pairwise Apart
  live : ∀ b, some b ∈ ptrs → ∃ block, h.find b = some block

theorem owned_nil (h : Heap α) : Owned h [] := ⟨List.Pairwise.nil, by simp⟩

variable {h : Heap α} {ptrs : List (Option Nat)} {p : Option Nat} {i : Nat}

/-- What has an owner can be given back. -/
theorem Owned.releasable (ho : Owned h ptrs) (hp : p ∈ ptrs) : h.Releasable p := by
  rintro b ⟨⟩
  obtain ⟨block, hblock⟩ := ho.live b hp
  rw [hblock]
  rfl

theorem Owned.perm {ptrs' : List (Option Nat)} (ho : Owned h ptrs) (hp : ptrs ~ ptrs') : Owned h ptrs' :=
  ⟨hp.pairwise ho.apart fun hpq => Apart.symm hpq, fun b hb => ho.live b (hp.mem_iff.2 hb)⟩

theorem Owned.sublist {ptrs' : List (Option Nat)} (ho : Owned h ptrs) (hs : ptrs'.Sublist ptrs) : Owned h ptrs' :=
  ⟨ho.apart.sublist hs, fun b hb => ho.live b (hs.subset hb)⟩

theorem Owned.tail (ho : Owned h (p :: ptrs)) : Owned h ptrs := ho.sublist (List.sublist_cons_self ..)

/-- A pointer that owns nothing is no matter. -/
theorem Owned.cons_none (ho : Owned h ptrs) : Owned h (none :: ptrs) := by
  refine ⟨List.pairwise_cons.2 ⟨fun q _ => Apart.of_none q, ho.apart⟩, ?_⟩
  rintro b (_ | ⟨_, hb⟩)
  exact ho.live b hb

/-- The pointer at a place comes first. -/
theorem Owned.at (ho : Owned h ptrs) (hi : i < ptrs.length) : Owned h (ptrs[i] :: ptrs.eraseIdx i) :=
  ho.perm (List.getElem_cons_eraseIdx_perm hi).symm

theorem Owned.apart_at (ho : Owned h ptrs) {j : Nat} {q : Option Nat} (hi : i < ptrs.length) (hne : j ≠ i)
    (hj : ptrs[j]? = some q) : Apart ptrs[i] q := by
  have hall := (List.pairwise_cons.1 (ho.at hi).apart).1
  exact hall q (List.mem_eraseIdx_iff_getElem?.2 ⟨j, hne, hj⟩)

/-- Giving back what no other pointer owns. -/
theorem value_release {q : Option Nat} (hpq : Apart p q) : (h.release p).value q = h.value q := by
  cases q with
  | none => rfl
  | some b => exact find_release fun hp => hpq b hp rfl

theorem Owned.release (ho : Owned h (p :: ptrs)) : Owned (h.release p) ptrs := by
  refine ⟨ho.tail.apart, fun b hb => ?_⟩
  have hne : p ≠ some b := fun hp => (List.pairwise_cons.1 ho.apart).1 _ hb b hp rfl
  rw [find_release hne]
  exact ho.tail.live b hb

theorem values_release (ho : Owned h (p :: ptrs)) : (h.release p).values ptrs = h.values ptrs :=
  List.map_congr_left fun q hq => value_release ((List.pairwise_cons.1 ho.apart).1 q hq)

/-- A new block belongs to a new pointer. -/
theorem Owned.allocate (ho : Owned h ptrs) (block : List α) : Owned (h.allocate block) (some h.length :: ptrs) := by
  have hlt : ∀ b, some b ∈ ptrs → b < h.length := by
    intro b hb
    obtain ⟨_, hfind⟩ := ho.live b hb
    exact lt_of_find hfind
  refine ⟨List.pairwise_cons.2 ⟨?_, ho.apart⟩, ?_⟩
  · rintro q hq b ⟨⟩ rfl
    exact absurd (hlt _ hq) (Nat.lt_irrefl _)
  · rintro b (_ | ⟨_, hb⟩)
    · exact ⟨block, find_allocate_self h block⟩
    · rw [find_allocate (hlt b hb)]
      exact ho.live b hb

theorem values_allocate (ho : Owned h ptrs) (block : List α) : (h.allocate block).values ptrs = h.values ptrs := by
  refine List.map_congr_left fun q hq => ?_
  cases q with
  | none => rfl
  | some b =>
    obtain ⟨_, hfind⟩ := ho.live b hq
    exact find_allocate (lt_of_find hfind) block

/-- What a pointer owned is taken out of it. -/
theorem Owned.take (ho : Owned h ptrs) (hi : i < ptrs.length) : Owned h (ptrs[i] :: ptrs.set i none) := by
  have hperm : ptrs[i] :: ptrs.set i none ~ none :: ptrs[i] :: ptrs.eraseIdx i :=
    ((List.set_perm_cons_eraseIdx hi none).cons _).trans (List.Perm.swap ..)
  exact (ho.at hi).cons_none.perm hperm.symm

/-- A pointer is given something else to own, and gives back what it had. -/
theorem Owned.put (ho : Owned h (p :: ptrs)) (hi : i < ptrs.length) : Owned (h.release ptrs[i]) (ptrs.set i p) := by
  have hperm : ptrs[i] :: p :: ptrs.eraseIdx i ~ p :: ptrs :=
    (List.Perm.swap ..).trans ((List.getElem_cons_eraseIdx_perm hi).cons p)
  exact (ho.perm hperm.symm).release.perm (List.set_perm_cons_eraseIdx hi p).symm

theorem values_put (ho : Owned h (p :: ptrs)) (hi : i < ptrs.length) :
    (h.release ptrs[i]).values (ptrs.set i p) = (h.values ptrs).set i (h.value p) := by
  have hp : (h.release ptrs[i]).value p = h.value p :=
    value_release ((List.pairwise_cons.1 ho.apart).1 _ (List.getElem_mem hi)).symm
  refine List.ext_getElem? fun k => ?_
  rw [getElem?_values]
  by_cases hk : i = k
  · subst hk
    rw [List.getElem?_set_self hi, List.getElem?_set_self (by rwa [length_values]), Option.map_some, hp]
  · rw [List.getElem?_set_ne hk, List.getElem?_set_ne hk, getElem?_values]
    cases hq : ptrs[k]? with
    | none => rfl
    | some q => rw [Option.map_some, Option.map_some, value_release (ho.tail.apart_at hi (Ne.symm hk) hq)]

/-- Writing to a block is seen by its owner only. -/
theorem values_modify (ho : Owned h ptrs) (hi : i < ptrs.length) {b : Nat} {block : List α} (hb : ptrs[i] = some b)
    (hblock : h.find b = some block) (f : List α → List α) :
    (h.modify b f).values ptrs = (h.values ptrs).set i (some (f block)) := by
  refine List.ext_getElem? fun k => ?_
  rw [getElem?_values]
  by_cases hk : i = k
  · subst hk
    rw [List.getElem?_eq_getElem hi, hb, List.getElem?_set_self (by rwa [length_values]), Option.map_some, value_some,
      find_modify_self hblock]
  · rw [List.getElem?_set_ne hk, getElem?_values]
    cases hq : ptrs[k]? with
    | none => rfl
    | some q =>
      cases q with
      | none => rfl
      | some c =>
        have hne : b ≠ c := fun hbc => ho.apart_at hi (Ne.symm hk) hq b hb (congrArg some hbc.symm)
        rw [Option.map_some, Option.map_some, value_some, value_some, find_modify hne]

theorem Owned.modify (ho : Owned h ptrs) (b : Nat) (f : List α → List α) : Owned (h.modify b f) ptrs := by
  refine ⟨ho.apart, fun c hc => ?_⟩
  obtain ⟨block, hblock⟩ := ho.live c hc
  by_cases hbc : b = c
  · subst hbc
    exact ⟨f block, find_modify_self hblock f⟩
  · exact ⟨block, (find_modify hbc f).trans hblock⟩

/-- A block is owned once at most. -/
theorem count_le_one {b : Nat} : ∀ {ptrs : List (Option Nat)}, ptrs.Pairwise Apart → ptrs.count (some b) ≤ 1
  | [], _ => Nat.zero_le 1
  | p :: ptrs, h => by
    obtain ⟨hp, hrest⟩ := List.pairwise_cons.1 h
    by_cases heq : p = some b
    · have hnot : some b ∉ ptrs := fun hmem => hp _ hmem b heq rfl
      have hone : (p :: ptrs).count (some b) = 1 := by
        rw [heq, List.count_cons_self, List.count_eq_zero.2 hnot]
      exact Nat.le_of_eq hone
    · rw [List.count_cons_of_ne heq]
      exact count_le_one hrest

/-! ## Leaks -/

theorem find_release_self (h : Heap α) (b : Nat) : (h.release (some b)).find b = none := by
  rw [find, release, List.getElem?_set]
  split
  · split <;> rfl
  · exact absurd rfl ‹¬ b = b›

/-- Every block that was not given back has an owner. -/
def NoLeak (h : Heap α) (ptrs : List (Option Nat)) : Prop := ∀ b block, h.find b = some block → some b ∈ ptrs

theorem noLeak_nil : NoLeak ([] : Heap α) [] := by
  rintro b block ⟨⟩

theorem NoLeak.perm {ptrs' : List (Option Nat)} (hn : NoLeak h ptrs) (hp : ptrs ~ ptrs') : NoLeak h ptrs' :=
  fun b block hb => hp.mem_iff.1 (hn b block hb)

theorem NoLeak.cons (hn : NoLeak h ptrs) (p : Option Nat) : NoLeak h (p :: ptrs) :=
  fun b block hb => List.mem_cons_of_mem p (hn b block hb)

theorem NoLeak.allocate (hn : NoLeak h ptrs) (block : List α) : NoLeak (h.allocate block) (some h.length :: ptrs) := by
  intro b block' hb
  by_cases hlt : b < h.length
  · rw [find_allocate hlt] at hb
    exact List.mem_cons_of_mem _ (hn b block' hb)
  · have hle := lt_of_find hb
    rw [Heap.allocate, List.length_append, List.length_singleton] at hle
    obtain rfl : b = h.length := by omega
    exact List.mem_cons_self

theorem NoLeak.release (hn : NoLeak h (p :: ptrs)) : NoLeak (h.release p) ptrs := by
  intro b block hb
  have hne : p ≠ some b := by
    rintro rfl
    rw [find_release_self] at hb
    cases hb
  rw [find_release hne] at hb
  rcases List.mem_cons.1 (hn b block hb) with heq | hmem
  · exact absurd heq.symm hne
  · exact hmem

theorem NoLeak.modify (hn : NoLeak h ptrs) (b : Nat) (f : List α → List α) : NoLeak (h.modify b f) ptrs := by
  intro c block hc
  by_cases hbc : b = c
  · subst hbc
    rw [find, Heap.modify, List.getElem?_set, if_pos rfl] at hc
    split at hc
    · obtain ⟨block', hblock', -⟩ := Option.map_eq_some_iff.1 (Option.join_eq_some_iff.1 hc |> Option.some.inj)
      exact hn b block' hblock'
    · cases hc
  · rw [find_modify hbc] at hc
    exact hn c block hc

theorem NoLeak.take (hn : NoLeak h ptrs) (hi : i < ptrs.length) : NoLeak h (ptrs[i] :: ptrs.set i none) := by
  have hperm : ptrs[i] :: ptrs.set i none ~ none :: ptrs[i] :: ptrs.eraseIdx i :=
    ((List.set_perm_cons_eraseIdx hi none).cons _).trans (List.Perm.swap ..)
  exact ((hn.perm (List.getElem_cons_eraseIdx_perm hi).symm).cons none).perm hperm.symm

theorem NoLeak.put (hn : NoLeak h (p :: ptrs)) (hi : i < ptrs.length) : NoLeak (h.release ptrs[i]) (ptrs.set i p) := by
  have hperm : ptrs[i] :: p :: ptrs.eraseIdx i ~ p :: ptrs :=
    (List.Perm.swap ..).trans ((List.getElem_cons_eraseIdx_perm hi).cons p)
  exact (hn.perm hperm.symm).release.perm (List.set_perm_cons_eraseIdx hi p).symm

end Heap

end Opio
