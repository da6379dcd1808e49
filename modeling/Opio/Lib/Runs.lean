/-
Runs of a machine over a list of inputs. What each step needs and what each step gives are stated
along the run, and a fact about one step becomes a fact about all runs.
-/
import Opio.Lib.Checked
import Mathlib.Data.List.Induction

namespace Opio

open scoped List

variable {σ τ ι ω ε : Type}

/-! ## Along a run -/

/-- `P` holds of every step of the run, for as long as the run goes on. -/
def Along (step : σ → ι → Option σ) (P : σ → ι → Prop) : σ → List ι → Prop
  | _, [] => True
  | s, i :: is => P s i ∧
    match step s i with
    | some s' => Along step P s' is
    | none => True

instance Along.decidable (step : σ → ι → Option σ) (P : σ → ι → Prop) [∀ s i, Decidable (P s i)] :
    ∀ s is, Decidable (Along step P s is)
  | _, [] => isTrue trivial
  | s, i :: is =>
    have : Decidable (match step s i with
        | some s' => Along step P s' is
        | none => True) :=
      match step s i with
      | some s' => Along.decidable step P s' is
      | none => isTrue trivial
    inferInstanceAs (Decidable (_ ∧ _))

/-- What every step gives as long as an invariant holds that every step keeps. -/
theorem Along.of_invariant {step : σ → ι → Option σ} {P Q : σ → ι → Prop} {I : σ → Prop}
    (hQ : ∀ s i, I s → P s i → Q s i) (hI : ∀ s i s', I s → P s i → step s i = some s' → I s') :
    ∀ (is : List ι) (s : σ), I s → Along step P s is → Along step Q s is
  | [], _, _, _ => trivial
  | i :: is, s, hs, hP => by
    refine ⟨hQ s i hs hP.1, ?_⟩
    have his := hP.2
    cases hstep : step s i with
    | none => trivial
    | some s' =>
      rw [hstep] at his
      exact Along.of_invariant hQ hI is s' (hI s i s' hs hP.1 hstep) his

theorem Along.mono {step : σ → ι → Option σ} {P Q : σ → ι → Prop} (hPQ : ∀ s i, P s i → Q s i) {s : σ} {is : List ι}
    (h : Along step P s is) : Along step Q s is :=
  Along.of_invariant (I := fun _ => True) (fun s i _ => hPQ s i) (fun _ _ _ _ _ _ => trivial) is s trivial h

theorem Along.and {step : σ → ι → Option σ} {P Q : σ → ι → Prop} : ∀ {is : List ι} {s : σ},
    Along step P s is → Along step Q s is → Along step (fun s i => P s i ∧ Q s i) s is
  | [], _, _, _ => trivial
  | i :: is, s, hP, hQ => by
    refine ⟨⟨hP.1, hQ.1⟩, ?_⟩
    have hP' := hP.2
    have hQ' := hQ.2
    cases hstep : step s i with
    | none => trivial
    | some s' =>
      rw [hstep] at hP' hQ'
      exact Along.and hP' hQ'

/-- What holds of every input holds along the run. -/
theorem Along.of_forall {step : σ → ι → Option σ} {P : ι → Prop} :
    ∀ {is : List ι} {s : σ}, (∀ i ∈ is, P i) → Along step (fun _ => P) s is
  | [], _, _ => trivial
  | i :: is, s, h => by
    refine ⟨h i (List.mem_cons_self ..), ?_⟩
    cases step s i with
    | none => trivial
    | some s' => exact Along.of_forall fun i' hi' => h i' (List.mem_cons_of_mem i hi')

/-! ## Where a run leads -/

/-- The state a run leads to, if every step can be taken. -/
def execute (step : σ → ι → Option σ) : σ → List ι → Option σ
  | s, [] => some s
  | s, i :: is =>
    match step s i with
    | some s' => execute step s' is
    | none => none

theorem execute_cons {step : σ → ι → Option σ} {s s' : σ} {i : ι} (h : step s i = some s') (is : List ι) :
    execute step s (i :: is) = execute step s' is := by rw [execute, h]

/-- A run that goes on. -/
theorem execute_append {step : σ → ι → Option σ} {s s' : σ} (is' : List ι) :
    ∀ {is : List ι}, execute step s is = some s' → execute step s (is ++ is') = execute step s' is' := by
  intro is
  induction is generalizing s with
  | nil =>
    intro h
    rw [Option.some.inj h, List.nil_append]
  | cons i is ih =>
    intro h
    rw [List.cons_append, execute]
    rw [execute] at h
    cases hstep : step s i with
    | none =>
      rw [hstep] at h
      cases h
    | some s₁ =>
      rw [hstep] at h
      exact ih h

/-- A run that was tried out. -/
theorem exists_execute (step : σ → ι → Option σ) (s : σ) (is : List ι) (P : σ → Prop) [DecidablePred P]
    (h : (execute step s is).any (P ·) = true) : ∃ s', execute step s is = some s' ∧ P s' := by
  cases hs : execute step s is with
  | none =>
    rw [hs] at h
    cases h
  | some s' =>
    rw [hs] at h
    exact ⟨s', rfl, of_decide_eq_true h⟩

/-- An invariant that every step of the run keeps holds where the run leads. -/
theorem execute_invariant {step : σ → ι → Option σ} {P : σ → ι → Prop} {I : σ → Prop}
    (hI : ∀ s i s', I s → P s i → step s i = some s' → I s') :
    ∀ (is : List ι) {s s' : σ}, I s → Along step P s is → execute step s is = some s' → I s'
  | [], s, s', hs, _, h => Option.some.inj h ▸ hs
  | i :: is, s, s', hs, hP, h => by
    have his := hP.2
    rw [execute] at h
    cases hstep : step s i with
    | none =>
      rw [hstep] at h
      cases h
    | some s₁ =>
      rw [hstep] at his h
      exact execute_invariant hI is (hI s i s₁ hs hP.1 hstep) his h

theorem execute_concat (step : σ → ι → Option σ) (s : σ) (i : ι) : ∀ (is : List ι) {s' : σ},
    execute step s (is ++ [i]) = some s' ↔ ∃ s₁, execute step s is = some s₁ ∧ step s₁ i = some s'
  | [], s' => by
    rw [List.nil_append, execute]
    cases hstep : step s i with
    | none => simp [execute, hstep]
    | some s₁ => simp [execute, hstep]
  | i' :: is, s' => by
    rw [List.cons_append, execute, execute]
    cases step s i' with
    | none => simp
    | some s₁ => exact execute_concat step s₁ i is

/-- An invariant that may speak about the inputs taken so far. -/
theorem execute_history {step : σ → ι → Option σ} {s : σ} {I : List ι → σ → Prop} (h0 : I [] s)
    (hI : ∀ is i s' s'', execute step s is = some s' → I is s' → step s' i = some s'' → I (is ++ [i]) s'') :
    ∀ {is : List ι} {s' : σ}, execute step s is = some s' → I is s' := by
  intro is
  induction is using List.reverseRecOn with
  | nil =>
    intro s' h
    rw [← Option.some.inj h]
    exact h0
  | append_singleton is i ih =>
    intro s' h
    obtain ⟨s₁, hrun, hstep⟩ := (execute_concat step s i is).1 h
    exact hI is i s₁ s' hrun (ih hrun) hstep

/-- What holds of every step of a run and of the step after it. -/
theorem along_concat {step : σ → ι → Option σ} {P : σ → ι → Prop} {s' : σ} {i : ι} (hP : P s' i) :
    ∀ {is : List ι} {s : σ}, Along step P s is → execute step s is = some s' → Along step P s (is ++ [i])
  | [], s, _, h => by
    rw [← Option.some.inj h] at hP
    refine ⟨hP, ?_⟩
    cases step s i <;> trivial
  | i' :: is, s, hal, h => by
    refine ⟨hal.1, ?_⟩
    have his := hal.2
    rw [execute] at h
    cases hstep : step s i' with
    | none =>
      rw [hstep] at h
      cases h
    | some s₁ =>
      rw [hstep] at h his
      exact along_concat hP his h

theorem along_of_concat {step : σ → ι → Option σ} {P : σ → ι → Prop} {s' : σ} {i : ι} :
    ∀ {is : List ι} {s : σ}, Along step P s (is ++ [i]) → execute step s is = some s' → Along step P s is ∧ P s' i
  | [], s, hal, h => by
    rw [← Option.some.inj h]
    exact ⟨trivial, hal.1⟩
  | i' :: is, s, hal, h => by
    have his := hal.2
    rw [execute] at h
    cases hstep : step s i' with
    | none =>
      rw [hstep] at h
      cases h
    | some s₁ =>
      rw [hstep] at h his
      obtain ⟨his', hi⟩ := along_of_concat his h
      refine ⟨⟨hal.1, ?_⟩, hi⟩
      rw [hstep]
      exact his'

/-- A condition on the steps is just what keeps all states of a run good, when each step that meets it
keeps an invariant of good states and each step that does not leaves a state that is not good. -/
theorem along_iff_reached {step : σ → ι → Option σ} {P : σ → ι → Prop} {I G : σ → Prop}
    (hI : ∀ s i s', I s → P s i → step s i = some s' → I s') (hG : ∀ s, I s → G s)
    (hbad : ∀ s i s', I s → ¬ P s i → step s i = some s' → ¬ G s') :
    ∀ (is : List ι) {s s' : σ}, I s → execute step s is = some s' →
      (Along step P s is ↔ ∀ before s₁, before <+: is → execute step s before = some s₁ → G s₁)
  | [], s, s', hs, _ => by
    refine iff_of_true trivial ?_
    intro before s₁ hbefore h
    rw [List.prefix_nil.1 hbefore] at h
    exact Option.some.inj h ▸ hG s hs
  | i :: is, s, s', hs, h => by
    rw [execute] at h
    cases hstep : step s i with
    | none =>
      rw [hstep] at h
      cases h
    | some s₁ =>
      rw [hstep] at h
      have hcons := execute_cons hstep
      constructor
      · rintro ⟨hi, his⟩
        rw [hstep] at his
        have hrest := (along_iff_reached hI hG hbad is (hI s i s₁ hs hi hstep) h).1 his
        intro before s₂ hbefore hrun
        cases before with
        | nil => exact Option.some.inj hrun ▸ hG s hs
        | cons i' before =>
          obtain ⟨rfl, hrest'⟩ := List.cons_prefix_cons.1 hbefore
          rw [hcons] at hrun
          exact hrest before s₂ hrest' hrun
      · intro hgood
        have hi : P s i := by
          by_contra hno
          exact hbad s i s₁ hs hno hstep (hgood [i] s₁ ⟨is, rfl⟩ (hcons []))
        refine ⟨hi, ?_⟩
        rw [hstep]
        apply (along_iff_reached hI hG hbad is (hI s i s₁ hs hi hstep) h).2
        intro before s₂ hbefore hrun
        exact hgood (i :: before) s₂ (List.cons_prefix_cons.2 ⟨rfl, hbefore⟩) ((hcons before).trans hrun)

/-! ## What a run collects -/

/-- What the steps of a run give, one after another. -/
def collect (step : σ → ι → Option σ) (gives : σ → ι → Option ω) : σ → List ι → List ω
  | _, [] => []
  | s, i :: is => (gives s i).toList ++
    match step s i with
    | some s' => collect step gives s' is
    | none => []

/-- A condition on what a run collects is one on its steps. -/
theorem forall_mem_collect {step : σ → ι → Option σ} {gives : σ → ι → Option ω} {P : ω → Prop} :
    ∀ {is : List ι} {s : σ}, (∀ o ∈ collect step gives s is, P o) ↔ Along step (fun s i => ∀ o ∈ gives s i, P o) s is
  | [], _ => by simp [collect, Along]
  | i :: is, s => by
    rw [collect, Along, List.forall_mem_append]
    refine and_congr ?_ ?_
    · simp
    · cases step s i with
      | none => simp
      | some s' => exact forall_mem_collect

/-- An invariant about the state and what was collected so far. -/
theorem execute_collect {step : σ → ι → Option σ} {gives : σ → ι → Option ω} {P : σ → ι → Prop} {I : σ → List ω → Prop}
    (hI : ∀ s os i s', I s os → P s i → step s i = some s' → I s' (os ++ (gives s i).toList)) :
    ∀ (is : List ι) {s s' : σ} {os : List ω}, I s os → Along step P s is → execute step s is = some s' →
      I s' (os ++ collect step gives s is)
  | [], s, s', os, hs, _, h => by
    rw [← Option.some.inj h, collect, List.append_nil]
    exact hs
  | i :: is, s, s', os, hs, hP, h => by
    have his := hP.2
    rw [execute] at h
    rw [collect]
    cases hstep : step s i with
    | none =>
      rw [hstep] at h
      cases h
    | some s₁ =>
      rw [hstep] at his h
      have hrest := execute_collect hI is (hI s os i s₁ hs hP.1 hstep) his h
      rwa [List.append_assoc] at hrest

/-! ## Simulation -/

/-- The state a call that may fail leads to. -/
def nextState (step : σ → ι → Except ε (ω × σ)) (s : σ) (i : ι) : Option σ :=
  match step s i with
  | .ok (_, s') => some s'
  | .error _ => none

/-- No call of the run fails; each has an output the relation allows and leads to related states. -/
def Follows (step : σ → ι → Except ε (ω × σ)) (allowed : τ → ι → ω → τ → Prop) (R : σ → τ → Prop) :
    σ → τ → List ι → Prop
  | _, _, [] => True
  | s, t, i :: is => ∃ o s' t', step s i = .ok (o, s') ∧ allowed t i o t' ∧ R s' t' ∧ Follows step allowed R s' t' is

theorem follows_of_step {step : σ → ι → Except ε (ω × σ)} {pre : σ → ι → Prop} {allowed : τ → ι → ω → τ → Prop}
    {R : σ → τ → Prop}
    (hstep : ∀ s t i, R s t → pre s i → ∃ o s' t', step s i = .ok (o, s') ∧ allowed t i o t' ∧ R s' t') :
    ∀ (is : List ι) (s : σ) (t : τ), R s t → Along (nextState step) pre s is → Follows step allowed R s t is
  | [], _, _, _, _ => trivial
  | i :: is, s, t, hR, hpre => by
    obtain ⟨hi, his⟩ := hpre
    obtain ⟨o, s', t', hs, ht, hR'⟩ := hstep s t i hR hi
    have hnext : nextState step s i = some s' := by rw [nextState, hs]
    rw [hnext] at his
    exact ⟨o, s', t', hs, ht, hR', follows_of_step hstep is s' t' hR' his⟩

end Opio
