/-
Parties that share a state and one mutex. Each party has a program of operations; an operation that
does work on the shared state may put others in its place. Work that needs the mutex is guarded when
it stands between an acquire and the release that goes with it, and guarded work excludes itself.
-/
import Mathlib.Logic.Function.Basic
import Mathlib.Tactic.Common

namespace Opio.Mutex

variable {π σ α ι : Type}

/-! ## Programs -/

inductive Op (α : Type)
  | acquire
  | release
  | work (a : α)
  deriving DecidableEq, Repr

/-- In the program of a party that holds the mutex or does not, acquires and releases come in turn,
the mutex is free at the end, and, where that counts, work that needs the mutex is done with it.
A party that acquires what it holds is stuck. -/
def Guarded (needs : α → Bool) (counts : Prop) : Prop → List (Op α) → Prop
  | held, [] => ¬ held
  | held, .acquire :: ops => held ∨ Guarded needs counts True ops
  | held, .release :: ops => held ∧ Guarded needs counts False ops
  | held, .work a :: ops => (counts → needs a = true → held) ∧ Guarded needs counts held ops

section Guarded

variable {needs : α → Bool} {counts held : Prop} {ops : List (Op α)}

theorem Guarded.acquire (h : Guarded needs counts held (.acquire :: ops)) (hfree : ¬ held) :
    Guarded needs counts True ops := h.resolve_left hfree

theorem Guarded.congr {held' : Prop} (h : Guarded needs counts held ops) (hheld : held ↔ held') :
    Guarded needs counts held' ops := propext hheld ▸ h

/-- What did not count does so from here on, and nothing is left. -/
theorem Guarded.nil {counts' : Prop} (h : Guarded needs counts held ([] : List (Op α))) :
    Guarded needs counts' held [] := h

/-- Work under the mutex, on its own. -/
def locked (a : α) : List (Op α) := [.acquire, .work a, .release]

theorem guarded_locked (a : α) (h : Guarded needs counts held ops) : Guarded needs counts held (locked a ++ ops) := by
  by_cases hheld : held
  · exact .inl hheld
  · refine .inr ⟨fun _ _ => trivial, trivial, ?_⟩
    exact h.congr (iff_of_false hheld not_false)

theorem guarded_work {a : α} (h : Guarded needs counts held ops) (ha : counts → needs a = true → held) :
    Guarded needs counts held ([.work a] ++ ops) := ⟨ha, h⟩

/-- Programs that are guarded before any program are so one after another. -/
theorem guarded_flatMap {β : Type} {f : β → List (Op α)} (h : Guarded needs counts held ops) :
    ∀ {bs : List β}, (∀ b ∈ bs, ∀ {ops}, Guarded needs counts held ops → Guarded needs counts held (f b ++ ops)) →
      Guarded needs counts held (bs.flatMap f ++ ops)
  | [], _ => h
  | b :: bs, hf => by
    rw [List.flatMap_cons, List.append_assoc]
    exact hf b (List.mem_cons_self ..) (guarded_flatMap h fun b' hb' => hf b' (List.mem_cons_of_mem b hb'))

end Guarded

/-- In the program of a party that holds the mutex or does not, acquires and releases come in turn,
the mutex is free at the end, and work of a kind is done without it. -/
def Apart (kind : α → Bool) : Prop → List (Op α) → Prop
  | held, [] => ¬ held
  | held, .acquire :: ops => ¬ held ∧ Apart kind True ops
  | held, .release :: ops => held ∧ Apart kind False ops
  | held, .work a :: ops => (kind a = true → ¬ held) ∧ Apart kind held ops

section Apart

variable {kind : α → Bool} {held : Prop} {ops : List (Op α)}

theorem Apart.congr {held' : Prop} (h : Apart kind held ops) (hheld : held ↔ held') : Apart kind held' ops :=
  propext hheld ▸ h

theorem apart_locked {a : α} (h : Apart kind held ops) (hfree : ¬ held) (ha : kind a = false) :
    Apart kind held (locked a ++ ops) := by
  refine ⟨hfree, fun hkind => ?_, trivial, ?_⟩
  · rw [ha] at hkind
    cases hkind
  · exact h.congr (iff_of_false hfree not_false)

theorem apart_work {a : α} (h : Apart kind held ops) (ha : kind a = true → ¬ held) :
    Apart kind held ([.work a] ++ ops) := ⟨ha, h⟩

theorem apart_flatMap {β : Type} {f : β → List (Op α)} (h : Apart kind held ops) :
    ∀ {bs : List β}, (∀ b ∈ bs, ∀ {ops}, Apart kind held ops → Apart kind held (f b ++ ops)) →
      Apart kind held (bs.flatMap f ++ ops)
  | [], _ => h
  | b :: bs, hf => by
    rw [List.flatMap_cons, List.append_assoc]
    exact hf b (List.mem_cons_self ..) (apart_flatMap h fun b' hb' => hf b' (List.mem_cons_of_mem b hb'))

end Apart

/-! ## Parties -/

structure Parties (π σ α : Type) where
  shared : σ
  holder : Option π := none
  running : π → List (Op α) := fun _ => []

namespace Parties

variable [DecidableEq π]

def setRunning (p : π) (ops : List (Op α)) (s : Parties π σ α) : Parties π σ α :=
  { s with running := Function.update s.running p ops }

/-- The next operation of a party. `exec` says what work does to the shared state and what it puts
in its place. -/
def move (exec : π → σ → α → ι → Option (σ × List (Op α))) (s : Parties π σ α) (p : π) (i : ι) :
    Option (Parties π σ α) :=
  match s.running p with
  | [] => none
  | .acquire :: ops => if s.holder.isNone then some { s.setRunning p ops with holder := some p } else none
  | .release :: ops => if s.holder = some p then some { s.setRunning p ops with holder := none } else none
  | .work a :: ops =>
    match exec p s.shared a i with
    | some (shared, more) => some { s.setRunning p (more ++ ops) with shared }
    | none => none

variable {s s' : Parties π σ α} {p q : π} {i : ι} {needs : α → Bool} {exec : π → σ → α → ι → Option (σ × List (Op α))}

@[simp] theorem setRunning_running_self (p : π) (ops : List (Op α)) : (s.setRunning p ops).running p = ops :=
  Function.update_self ..

theorem setRunning_running_of_ne (h : q ≠ p) (ops : List (Op α)) : (s.setRunning p ops).running q = s.running q :=
  Function.update_of_ne h ..

/-- What a party does with its next operation. -/
theorem move_cases (h : s.move exec p i = some s') :
    (∃ ops, s.running p = .acquire :: ops ∧ s.holder = none ∧ s' = { s.setRunning p ops with holder := some p }) ∨
    (∃ ops, s.running p = .release :: ops ∧ s.holder = some p ∧ s' = { s.setRunning p ops with holder := none }) ∨
    ∃ a ops shared more, s.running p = .work a :: ops ∧ exec p s.shared a i = some (shared, more) ∧
      s' = { s.setRunning p (more ++ ops) with shared } := by
  unfold move at h
  split at h
  · cases h
  · rename_i ops hops
    split at h
    · rename_i hfree
      exact .inl ⟨ops, hops, Option.isNone_iff_eq_none.1 hfree, (Option.some.inj h).symm⟩
    · cases h
  · rename_i ops hops
    split at h
    · rename_i hheld
      exact .inr (.inl ⟨ops, hops, hheld, (Option.some.inj h).symm⟩)
    · cases h
  · rename_i a ops hops
    split at h
    · rename_i shared more hexec
      exact .inr (.inr ⟨a, ops, shared, more, hops, hexec, (Option.some.inj h).symm⟩)
    · cases h

theorem running_ne_nil_of_move (h : s.move exec p i = some s') : s.running p ≠ [] := by
  intro hnil
  simp only [move, hnil] at h
  cases h

/-- The party moved, and the others stand where they stood. -/
theorem running_of_move (h : s.move exec p i = some s') (hne : q ≠ p) : s'.running q = s.running q := by
  rcases move_cases h with ⟨ops, -, -, rfl⟩ | ⟨ops, -, -, rfl⟩ | ⟨a, ops, shared, more, -, -, rfl⟩
  · exact setRunning_running_of_ne hne ops
  · exact setRunning_running_of_ne hne ops
  · exact setRunning_running_of_ne hne _

/-- For the others the mutex is held, or not, as it was. -/
theorem holder_of_move (h : s.move exec p i = some s') (hne : q ≠ p) : s'.holder = some q ↔ s.holder = some q := by
  have hpq : p ≠ q := fun heq => hne heq.symm
  rcases move_cases h with ⟨ops, -, hfree, rfl⟩ | ⟨ops, -, hheld, rfl⟩ | ⟨a, ops, shared, more, -, -, rfl⟩
  · simp [hfree, hpq]
  · simp [hheld, hpq]
  · exact Iff.rfl

/-- The program of a party that moves stays guarded when work puts a guarded program in its place. -/
theorem guarded_of_move {counts : Prop} (hs : Guarded needs counts (s.holder = some p) (s.running p))
    (h : s.move exec p i = some s')
    (hwork : ∀ a ops shared more, exec p s.shared a i = some (shared, more) →
      (counts → needs a = true → s.holder = some p) → Guarded needs counts (s.holder = some p) ops →
        Guarded needs counts (s.holder = some p) (more ++ ops)) :
    Guarded needs counts (s'.holder = some p) (s'.running p) := by
  rcases move_cases h with ⟨ops, hops, hfree, rfl⟩ | ⟨ops, hops, hheld, rfl⟩ | ⟨a, ops, shared, more, hops, hexec, rfl⟩
  · rw [hops] at hs
    have hrest := hs.acquire (by rw [hfree]; exact fun h => nomatch h)
    show Guarded needs counts (some p = some p) ((s.setRunning p ops).running p)
    rw [setRunning_running_self]
    exact hrest.congr (iff_of_true trivial rfl)
  · rw [hops] at hs
    show Guarded needs counts (none = some p) ((s.setRunning p ops).running p)
    rw [setRunning_running_self]
    exact hs.2.congr (iff_of_false not_false fun h => nomatch h)
  · rw [hops] at hs
    show Guarded needs counts (s.holder = some p) ((s.setRunning p (more ++ ops)).running p)
    rw [setRunning_running_self]
    exact hwork a ops shared more hexec hs.1 hs.2

/-- The program of a party that moves keeps work of a kind apart from the mutex when work puts such a
program in its place. -/
theorem apart_of_move {kind : α → Bool} (hs : Apart kind (s.holder = some p) (s.running p))
    (h : s.move exec p i = some s')
    (hwork : ∀ a ops shared more, s.running p = .work a :: ops → exec p s.shared a i = some (shared, more) →
      (kind a = true → s.holder ≠ some p) → Apart kind (s.holder = some p) ops →
        Apart kind (s.holder = some p) (more ++ ops)) :
    Apart kind (s'.holder = some p) (s'.running p) := by
  rcases move_cases h with ⟨ops, hops, hfree, rfl⟩ | ⟨ops, hops, hheld, rfl⟩ | ⟨a, ops, shared, more, hops, hexec, rfl⟩
  · rw [hops] at hs
    show Apart kind (some p = some p) ((s.setRunning p ops).running p)
    rw [setRunning_running_self]
    exact hs.2.congr (iff_of_true trivial rfl)
  · rw [hops] at hs
    show Apart kind (none = some p) ((s.setRunning p ops).running p)
    rw [setRunning_running_self]
    exact hs.2.congr (iff_of_false not_false fun h => nomatch h)
  · have hs' := hs
    rw [hops] at hs'
    show Apart kind (s.holder = some p) ((s.setRunning p (more ++ ops)).running p)
    rw [setRunning_running_self]
    exact hwork a ops shared more hops hexec hs'.1 hs'.2

/-- The party is about to do work of a kind. -/
def Inside (kind : α → Bool) (s : Parties π σ α) (p : π) : Prop := ∃ a ops, s.running p = .work a :: ops ∧ kind a = true

omit [DecidableEq π] in
/-- Who does work that needs the mutex holds it. -/
theorem Inside.holder {kind : α → Bool} {counts : Prop} (h : s.Inside kind p)
    (hkind : ∀ a, kind a = true → needs a = true)
    (hs : Guarded needs counts (s.holder = some p) (s.running p)) (hcounts : counts) : s.holder = some p := by
  obtain ⟨a, ops, hops, ha⟩ := h
  rw [hops] at hs
  exact hs.1 hcounts (hkind a ha)

end Parties

end Opio.Mutex
