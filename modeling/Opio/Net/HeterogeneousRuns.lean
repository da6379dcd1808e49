/-
Runs of programs that use heterogeneous buffers: nothing is freed twice or lost, and a buffer refers to what
it was made from wherever it is moved.
-/
import Mathlib.Data.List.Nodup
import Opio.Net.HeterogeneousSteps

namespace Opio.Net

variable {δ : Type} {env : HeterogeneousEnv δ} {s s' : HeterogeneousBuffers δ}

/-! ## Runs -/

namespace HeterogeneousBuffers

open Heterogeneous (content adjustedContent)

variable {op : HeterogeneousOp δ}

theorem exists_whole {i : Nat} (h : ∃ buf ∈ s.bufs[i]?.join, buf.isWhole = true) :
    ∃ buf, s.bufs[i]? = some (some buf) ∧ buf.isWhole = true := by
  obtain ⟨buf, hbuf, hwhole⟩ := h
  exact ⟨buf, Option.join_eq_some_iff.1 hbuf, hwhole⟩

/-- A call that may be made returns, or throws and leaves everything as it is. -/
theorem call_spec (h : s.Sound env) (hpre : s.Pre env op) :
    Sat (call env op) s (fun _ s' => s'.Sound env) fun e s' => (∃ what, e = .exception what) ∧ s' = s := by
  cases op with
  | construct | constructConst =>
    exact (Heterogeneous.constructConst_spec h _ _).mono (fun _ _ h => h.1) fun _ _ h => h
  | constructDatasizeable buf =>
    exact (Heterogeneous.constructDatasizeable_spec h hpre.1 hpre.2).mono (fun _ _ h => h.1) fun _ _ h => h
  | constructAdjustable buf adjuster =>
    exact (Heterogeneous.constructAdjustable_spec h hpre.1 hpre.2).mono (fun _ _ h => h.1) fun _ _ h => h
  | constructShared q =>
    refine (Heterogeneous.constructShared_spec h hpre).mono (fun _ _ h => h.1) ?_
    rintro e s' ⟨he, -, hs'⟩
    exact ⟨⟨_, he⟩, hs'⟩
  | moveConstruct j => exact (Heterogeneous.moveConstruct_spec h hpre).mono (fun _ _ h => h.1) fun _ _ h => h
  | moveAssign i j => exact (Heterogeneous.moveAssign_spec h hpre.1 hpre.2).mono (fun _ _ h => h.1) fun _ _ h => h
  | destroy i => exact (Heterogeneous.destroy_spec h hpre).mono (fun _ _ h => h.1) fun _ _ h => h
  | makeAsioConstBuffer i =>
    obtain ⟨buf, hbuf, hbufWhole⟩ := exists_whole hpre
    exact Sat.bind (Heterogeneous.makeAsioConstBuffer_spec h hbuf hbufWhole) fun _ _ h => Sat.pure h.1
  | getSize i =>
    obtain ⟨buf, hbuf, hbufWhole⟩ := exists_whole hpre
    exact Sat.bind (Heterogeneous.getSize_spec h hbuf hbufWhole) fun _ _ heq => Sat.pure (heq.1 ▸ h)
  | writeMutableBuffer i bs =>
    obtain ⟨buf, hbuf, hbufWhole⟩ := exists_whole hpre.1
    exact (Heterogeneous.writeMutableBuffer_spec h hbuf hbufWhole hpre.2).mono (fun _ _ h => h.1) fun _ _ h => h.2
  | extractReusableSimpleBuffer i p =>
    obtain ⟨buf, hbuf, hbufWhole⟩ := exists_whole hpre.1
    exact Sat.bind (Heterogeneous.extractReusableSimpleBuffer_spec h hbuf hbufWhole hpre.2)
      fun _ _ h => Sat.pure h.sound
  | reallocateOutput i n =>
    obtain ⟨buf, hbuf, hbufWhole⟩ := exists_whole hpre
    exact (Heterogeneous.reallocateOutput_spec h hbuf hbufWhole n).mono (fun _ _ h => h.1) fun _ _ h => h
  | program op => exact (Heterogeneous.program_spec h op hpre.1 hpre.2).mono (fun _ _ h => h.1) fun _ _ h => h
  | destroyVar p => exact (Heterogeneous.destroyVar_spec h hpre).mono (fun _ _ h => h.1) fun _ _ h => h
  | makeShared buf => exact (Heterogeneous.makeShared_spec h hpre).mono (fun _ _ h => h.1) fun _ _ h => h
  | copyPtr q => exact (Heterogeneous.copyPtr_spec h hpre).mono (fun _ _ h => h.1) fun _ _ h => h
  | resetPtr q => exact (Heterogeneous.resetPtr_spec h hpre).mono (fun _ _ h => h.1) fun _ _ h => h

theorem sound_init : Sound env {} where
  owned := ⟨SimpleBuffers.belong_nil, SharedObjects.counted_nil⟩
  fit := by rintro buf ⟨⟩

theorem step_sound (h : s.Sound env) (hpre : s.Pre env op) : ∃ s', step env s op = some s' ∧ s'.Sound env := by
  have hcall := call_spec h hpre
  unfold Sat at hcall
  unfold step
  cases hrun : (call env op).run s with
  | ok _ s' =>
    rw [hrun] at hcall
    exact ⟨s', rfl, hcall⟩
  | error e s' =>
    rw [hrun] at hcall
    obtain ⟨⟨what, rfl⟩, rfl⟩ := hcall
    exact ⟨s', rfl, h⟩

theorem run_sound : ∀ (ops : List (HeterogeneousOp δ)) (s : HeterogeneousBuffers δ), s.Sound env →
    Along (step env) (Pre env) s ops → ∃ s', execute (step env) s ops = some s' ∧ s'.Sound env
  | [], s, h, _ => ⟨s, rfl, h⟩
  | op :: ops, s, h, hpre => by
    obtain ⟨s₁, hstep, hs₁⟩ := step_sound h hpre.1
    have hrest := hpre.2
    rw [hstep] at hrest
    obtain ⟨s', hrun, hs'⟩ := run_sound ops s₁ hs₁ hrest
    exact ⟨s', (execute_cons hstep ops).trans hrun, hs'⟩

/-- Every block of memory is in one `simple_buffer_t`, and that in one place; every shared object is held as often
as it counts; and when the program has given everything up nothing is left. What is stored has room, but only
because the program keeps to it: an adjustable buffer that is too large is undefined. -/
structure Accounted (env : HeterogeneousEnv δ) (s : HeterogeneousBuffers δ) : Prop where
  blocks : ∀ b block, s.simple.heap.find b = some block → s.simple.ptrs.count (some b) = 1
  places : ∀ p buf, s.simple.bufs[p]? = some buf → buf.buf ≠ none → (s.vars ++ placesOf s.bufs ++ s.inside).count p = 1
  objects : ∀ k object, s.objects.find k = some object →
    object.useCount = (s.ptrs.flatMap Option.toList ++ holdsOf s.bufs).count k
  pointers : ∀ k ∈ s.ptrs.flatMap Option.toList ++ holdsOf s.bufs, ∃ object, s.objects.find k = some object
  nothingLeft : s.vars = [] → (∀ buf ∈ s.bufs, buf = none) → (∀ ptr ∈ s.ptrs, ptr = none) →
    (∀ b, s.simple.heap.find b = none) ∧ ∀ k, s.objects.find k = none
  room : ∀ buf, some buf ∈ s.bufs →
    (env.layoutOf buf).size ≤ env.neededStorageMaxSize ∧ (env.layoutOf buf).align ≤ env.bufferStorageAlign
  tooLarge : ∀ buf adjuster, s.Has buf → ¬ env.Fits (env.adjustableBuffer adjuster buf) →
    step env s (.constructAdjustable buf adjuster) = none

theorem step_tooLarge (h : s.Sound env) {buf : Datasizeable δ} (hhas : s.Has buf) {adjuster : Nat}
    (hfits : ¬ env.Fits (env.adjustableBuffer adjuster buf)) :
    step env s (.constructAdjustable buf adjuster) = none := by
  have hcall := Heterogeneous.constructAdjustable_outOfStorage h hhas hfits
  unfold Sat at hcall
  unfold step call
  cases hrun : (Heterogeneous.constructAdjustable env buf adjuster).run s with
  | ok _ s' =>
    rw [hrun] at hcall
    exact hcall.elim
  | error e s' =>
    rw [hrun] at hcall
    obtain rfl : e = .outOfStorage := hcall
    rfl

theorem Sound.accounted (h : s.Sound env) : s.Accounted env where
  blocks b block hb := by
    obtain ⟨vs, hvs⟩ := h.owned.simple.represents
    exact le_antisymm (Heap.count_le_one hvs.owned.apart) (List.count_pos_iff.2 (h.owned.simple.noLeak b block hb))
  places p buf hbuf hne := by
    have hmem : p ∈ s.vars ++ placesOf s.bufs ++ s.inside := by
      by_contra hnot
      rw [h.owned.simple.gone p (List.getElem?_eq_some_iff.1 hbuf).1 hnot] at hbuf
      exact hne (Option.some.inj hbuf ▸ rfl)
    exact List.count_eq_one_of_mem h.owned.simple.once hmem
  objects k object hk := by
    rw [← SharedObjects.uses_of_find hk]
    exact h.owned.objects.uses k
  pointers k hk := h.owned.objects.find hk
  nothingLeft hvars hbufs hptrs := by
    have hholds : s.ptrs.flatMap Option.toList ++ holdsOf s.bufs = [] := by
      rw [List.append_eq_nil_iff]
      refine ⟨List.flatMap_eq_nil_iff.2 fun ptr hptr => ?_, List.flatMap_eq_nil_iff.2 fun buf hbuf => ?_⟩
      · rw [hptrs ptr hptr]
        rfl
      · rw [hbufs buf hbuf]
        rfl
    have hplaces : placesOf s.bufs = [] := List.flatMap_eq_nil_iff.2 fun buf hbuf => by rw [hbufs buf hbuf]; rfl
    have hobjects := h.owned.objects
    rw [hholds] at hobjects
    have hinside : s.inside = [] := by
      refine List.flatMap_eq_nil_iff.2 fun value hvalue => ?_
      obtain ⟨k, o, hk, -⟩ := SharedObjects.exists_of_mem_values hvalue
      rw [hobjects.find_nil] at hk
      cases hk
    have hsimple := h.owned.simple
    rw [hvars, hplaces, hinside] at hsimple
    exact ⟨hsimple.find_nil, hobjects.find_nil⟩
  room := h.fit
  tooLarge _ _ hhas hfits := step_tooLarge h hhas hfits

/-- However a program makes, moves, shares, takes apart and destroys buffers of different types, as long as it puts
nothing in them that is too large and does not use what it moved from, it never comes to what is undefined, nothing
is freed twice, and nothing is lost. -/
theorem memory_is_accounted_for (env : HeterogeneousEnv δ) (ops : List (HeterogeneousOp δ))
    (h : Along (step env) (Pre env) {} ops) : ∃ s, execute (step env) {} ops = some s ∧ s.Accounted env := by
  obtain ⟨s, hrun, hs⟩ := run_sound ops {} sound_init h
  exact ⟨s, hrun, hs.accounted⟩

/-- Strings besides `simple_buffer_t`, and one adjuster, a function that counts its calls in the first byte. With
a string it is larger than the storage. -/
def plainBuffers : HeterogeneousEnv Bytes where
  bytes := id
  movedFrom _ := []
  overwrite bs buf := bs ++ buf.drop bs.length
  bytes_overwrite _ _ _ := rfl
  isMutable _ := true
  adjust n bs := (bs.set 0 (UInt8.ofNat n), n + 1)
  length_adjust _ _ := List.length_set
  constBuffer := ⟨24, 8⟩
  stringBuffer := ⟨40, 8⟩
  simpleBuffer := ⟨32, 8⟩
  sharedBuffer := ⟨24, 8⟩
  etalonBuffer := ⟨64, 8⟩
  customBuffer _ := ⟨40, 8⟩
  customBuffer_movedFrom _ := rfl
  customBuffer_overwrite _ _ := rfl
  adjustableBuffer
    | _, .simple _ => ⟨64, 8⟩
    | _, .custom _ => ⟨72, 8⟩

/-- A buffer is shared, moved over another one and taken apart once its other holder is gone; then everything is
given up. -/
def sharedAndTaken : List (HeterogeneousOp Bytes) :=
  [.program (.makeFrom [1, 2, 3]), .program (.makeFrom [4, 5]), .makeShared (.simple 1), .constructShared 0,
    .constructDatasizeable (.simple 0), .moveAssign 1 0, .extractReusableSimpleBuffer 1 0, .resetPtr 0,
    .extractReusableSimpleBuffer 1 0, .constructAdjustable (.simple 0) 7, .makeAsioConstBuffer 2, .getSize 2,
    .reallocateOutput 2 4, .moveConstruct 3, .destroy 0, .destroy 1, .destroy 2, .destroy 3, .destroy 4,
    .destroyVar 0, .destroyVar 1]

theorem memory_is_accounted_for_taken :
    ∃ s, execute (step plainBuffers) {} sharedAndTaken = some s ∧ s.Accounted plainBuffers :=
  memory_is_accounted_for plainBuffers sharedAndTaken (by decide +kernel)

end HeterogeneousBuffers

/-! ## What buffers refer to -/

/-- The heterogeneous buffers that an operation works on. -/
def HeterogeneousOp.targets : HeterogeneousOp δ → List Nat
  | .moveConstruct i | .destroy i | .makeAsioConstBuffer i | .getSize i | .writeMutableBuffer i _
  | .extractReusableSimpleBuffer i _ | .reallocateOutput i _ => [i]
  | .moveAssign i j => [i, j]
  | _ => []

/-- The buffers of the program that it works on. -/
def HeterogeneousOp.vars : HeterogeneousOp δ → List Nat
  | .constructDatasizeable buf | .constructAdjustable buf _ | .makeShared buf => buf.places
  | .extractReusableSimpleBuffer _ p | .destroyVar p => [p]
  | .program op => op.targets
  | _ => []

namespace HeterogeneousBuffers

open Heterogeneous (content adjustedContent writable reusable Others pointee datasizeableBytes)

variable {op : HeterogeneousOp δ}

/-- Two buffers hold the same shared object. -/
def Share (s : HeterogeneousBuffers δ) (i m : Nat) : Prop :=
  ∃ buf buf' k, s.bufs[i]? = some (some buf) ∧ s.bufs[m]? = some (some buf') ∧ k ∈ buf.holds ∧ k ∈ buf'.holds

/-- What is not worked on stays, but for buffers that share what is written to. -/
structure Stays (env : HeterogeneousEnv δ) (s : HeterogeneousBuffers δ) (op : HeterogeneousOp δ)
    (s' : HeterogeneousBuffers δ) : Prop where
  bufs : ∀ m, m < s.bufs.length → m ∉ op.targets → (∀ i bs, op = .writeMutableBuffer i bs → ¬ s.Share i m) →
    content env s' m = content env s m
  vars : ∀ p ∈ s.vars, p ∉ op.vars → s'.simple.bytes p = s.simple.bytes p

theorem Stays.of_others (h : Others env s s' op.targets op.vars) : Stays env s op s' :=
  ⟨fun m hm hnot _ => h.bufs m hm hnot, h.vars⟩

theorem Stays.refl : Stays env s op s := ⟨fun _ _ _ _ => rfl, fun _ _ _ => rfl⟩

/-- Where a call is known to do something or to throw and do nothing, so is the step. -/
theorem of_step {Q : Unit → HeterogeneousBuffers δ → Prop} {E : HeterogeneousStop → HeterogeneousBuffers δ → Prop}
    (hstep : step env s op = some s') (h : Sat (call env op) s Q E) : Q () s' ∨ ∃ e, E e s' := by
  unfold Sat at h
  unfold step at hstep
  cases hrun : (call env op).run s with
  | ok _ s₁ =>
    rw [hrun] at h hstep
    exact .inl (Option.some.inj hstep ▸ h)
  | error e s₁ =>
    rw [hrun] at h hstep
    cases e with
    | exception what => exact .inr ⟨_, Option.some.inj hstep ▸ h⟩
    | noSuchBuffer | nullPointer | outOfStorage | simple => cases hstep

/-- The same where it does not throw. -/
theorem of_returned {Q : Unit → HeterogeneousBuffers δ → Prop} (hstep : step env s op = some s')
    (h : Sat (call env op) s Q fun _ _ => False) : Q () s' :=
  (of_step hstep h).elim id fun ⟨_, h⟩ => h.elim

/-- No call is seen anywhere but where it works. -/
theorem step_stays (h : s.Sound env) (hpre : s.Pre env op) (hstep : step env s op = some s') : Stays env s op s' := by
  cases op with
  | construct =>
    exact .of_others (of_returned hstep (Heterogeneous.constructConst_spec h none 0)).2.1
  | constructConst data size =>
    exact .of_others (of_returned hstep (Heterogeneous.constructConst_spec h data size)).2.1
  | constructDatasizeable buf =>
    exact .of_others (of_returned hstep (Heterogeneous.constructDatasizeable_spec h hpre.1 hpre.2)).2.1
  | constructAdjustable buf adjuster =>
    exact .of_others (of_returned hstep (Heterogeneous.constructAdjustable_spec h hpre.1 hpre.2)).2.1
  | constructShared q =>
    rcases of_step hstep (Heterogeneous.constructShared_spec h hpre) with hs' | ⟨_, -, -, rfl⟩
    · exact .of_others hs'.2.1
    · exact .refl
  | moveConstruct j => exact .of_others (of_returned hstep (Heterogeneous.moveConstruct_spec h hpre)).2.1
  | moveAssign i j => exact .of_others (of_returned hstep (Heterogeneous.moveAssign_spec h hpre.1 hpre.2)).2.1
  | destroy i => exact .of_others (of_returned hstep (Heterogeneous.destroy_spec h hpre)).2.1
  | makeAsioConstBuffer i =>
    obtain ⟨buf, hbuf, hwhole⟩ := exists_whole hpre
    refine .of_others (of_returned (Q := fun _ s' => Others env s s' [i] []) hstep ?_)
    exact Sat.bind (Heterogeneous.makeAsioConstBuffer_spec h hbuf hwhole) fun _ _ hr => Sat.pure hr.2.1
  | getSize i =>
    obtain ⟨buf, hbuf, hwhole⟩ := exists_whole hpre
    obtain rfl : s' = s := by
      refine of_returned (Q := fun _ s' => s' = s) hstep ?_
      exact Sat.bind (Heterogeneous.getSize_spec h hbuf hwhole) fun _ _ hr => Sat.pure hr.1
    exact .refl
  | writeMutableBuffer i bs =>
    obtain ⟨buf, hbuf, hwhole⟩ := exists_whole hpre.1
    rcases of_step hstep (Heterogeneous.writeMutableBuffer_spec h hbuf hwhole hpre.2) with hs' | ⟨_, -, -, rfl⟩
    · obtain ⟨-, -, hbufs, hvars, -⟩ := hs'
      refine ⟨fun m hm hnot hshare => ?_, fun p hp _ => hvars p hp⟩
      have hne : m ≠ i := fun heq => hnot (List.mem_singleton.2 heq)
      refine hbufs m hne fun buf' hbuf' k hk hmem => ?_
      exact hshare i bs rfl ⟨buf, buf', k, hbuf, hbuf', hmem, hk⟩
    · exact .refl
  | extractReusableSimpleBuffer i p =>
    obtain ⟨buf, hbuf, hwhole⟩ := exists_whole hpre.1
    refine .of_others (of_returned (Q := fun _ s' => Others env s s' [i] [p]) hstep ?_)
    exact Sat.bind (Heterogeneous.extractReusableSimpleBuffer_spec h hbuf hwhole hpre.2)
      fun _ _ hr => Sat.pure hr.others
  | reallocateOutput i n =>
    obtain ⟨buf, hbuf, hwhole⟩ := exists_whole hpre
    exact .of_others (of_returned hstep (Heterogeneous.reallocateOutput_spec h hbuf hwhole n)).2.1
  | program op => exact .of_others (of_returned hstep (Heterogeneous.program_spec h op hpre.1 hpre.2)).2.1
  | destroyVar p => exact .of_others (of_returned hstep (Heterogeneous.destroyVar_spec h hpre)).2.1
  | makeShared buf => exact .of_others (of_returned hstep (Heterogeneous.makeShared_spec h hpre)).2.1
  | copyPtr q => exact .of_others (of_returned hstep (Heterogeneous.copyPtr_spec h hpre)).2.1
  | resetPtr q => exact .of_others (of_returned hstep (Heterogeneous.resetPtr_spec h hpre)).2

/-- What a buffer refers to is what it was made of, or what was moved into it, and is not changed but where it is
worked on. -/
structure KeepsContent (env : HeterogeneousEnv δ) (s : HeterogeneousBuffers δ) : Prop where
  others : ∀ op s', s.Pre env op → step env s op = some s' → Stays env s op s'
  constructedDefault : ∀ s', step env s .construct = some s' → content env s' s.bufs.length = some (.elsewhere none 0)
  constructedConst : ∀ data size s', step env s (.constructConst data size) = some s' →
    content env s' s.bufs.length = some (.elsewhere data size)
  constructed : ∀ buf s', s.Pre env (.constructDatasizeable buf) →
    step env s (.constructDatasizeable buf) = some s' →
      content env s' s.bufs.length = some (.bytes (datasizeableBytes env s buf))
  adjustable : ∀ buf adjuster s', s.Pre env (.constructAdjustable buf adjuster) →
    step env s (.constructAdjustable buf adjuster) = some s' →
      content env s' s.bufs.length = some (.bytes (datasizeableBytes env s buf))
  /-- An empty pointer throws. -/
  shared : ∀ q s', q < s.ptrs.length → step env s (.constructShared q) = some s' →
    match pointee env s q with
    | none => s' = s
    | some bs => content env s' s.bufs.length = some (.bytes bs)
  moveConstructed : ∀ j s', s.Pre env (.moveConstruct j) → step env s (.moveConstruct j) = some s' →
    content env s' s.bufs.length = content env s j
  moveAssigned : ∀ i j s', s.Pre env (.moveAssign i j) → step env s (.moveAssign i j) = some s' →
    content env s' i = content env s j ∧ (i = j → s' = s)
  /-- What is sent is what the adjuster made of it. -/
  asked : ∀ i buf, s.bufs[i]? = some (some buf) → buf.isWhole → ∃ r s',
    (Heterogeneous.makeAsioConstBuffer env i).run s = .ok r s' ∧ some r = adjustedContent env s buf ∧
      content env s' i = some r
  sized : ∀ i buf, s.bufs[i]? = some (some buf) → buf.isWhole → ∃ c,
    content env s i = some c ∧ (Heterogeneous.getSize env i).run s = .ok c.size s
  /-- What must not be written to throws. -/
  written : ∀ i bs buf s', s.bufs[i]? = some (some buf) → s.Pre env (.writeMutableBuffer i bs) →
    step env s (.writeMutableBuffer i bs) = some s' →
    if writable env s buf then
      ∃ old, content env s i = some (.bytes old) ∧ content env s' i = some (.bytes (bs ++ old.drop bs.length))
    else s' = s
  /-- Memory that can be had is taken with what is in it. -/
  extracted : ∀ i p buf, s.bufs[i]? = some (some buf) → buf.isWhole → p ∈ s.vars → ∃ s',
    (Heterogeneous.extractReusableSimpleBuffer i p).run s = .ok (reusable s buf) s' ∧
      if reusable s buf then content env s i = some (.bytes (s'.simple.bytes p)) ∧ content env s' i = some (.bytes [])
      else s' = s
  /-- The new buffer begins with the bytes of the old one only where it has the memory of that one. -/
  reallocated : ∀ i n buf s', s.bufs[i]? = some (some buf) → buf.isWhole →
    step env s (.reallocateOutput i n) = some s' →
    ∃ bs, content env s' s.bufs.length = some (.bytes bs) ∧ bs.length = n ∧
      if reusable s buf then
        ∃ old, content env s i = some (.bytes old) ∧ content env s' i = some (.bytes []) ∧
          bs.take (min old.length n) = old.take (min old.length n)
      else content env s' i = content env s i

/-- What does not throw returns. -/
theorem exists_run {α : Type} {x : Heterogeneous δ α} {Q : α → HeterogeneousBuffers δ → Prop}
    (h : Sat x s Q fun _ _ => False) : ∃ r s', x.run s = .ok r s' ∧ Q r s' := by
  unfold Sat at h
  cases hrun : x.run s with
  | ok r s' =>
    rw [hrun] at h
    exact ⟨r, s', rfl, h⟩
  | error e s' =>
    rw [hrun] at h
    exact h.elim

theorem Sound.keepsContent (env : HeterogeneousEnv δ) (h : s.Sound env) : KeepsContent env s where
  others op s' hpre hstep := step_stays h hpre hstep
  constructedDefault s' hstep := (of_returned hstep (Heterogeneous.constructConst_spec h none 0)).2.2
  constructedConst data size s' hstep := (of_returned hstep (Heterogeneous.constructConst_spec h data size)).2.2
  constructed buf s' hpre hstep :=
    (of_returned hstep (Heterogeneous.constructDatasizeable_spec h hpre.1 hpre.2)).2.2.2
  adjustable buf adjuster s' hpre hstep :=
    (of_returned hstep (Heterogeneous.constructAdjustable_spec h hpre.1 hpre.2)).2.2
  shared q s' hq hstep := by
    rcases of_step hstep (Heterogeneous.constructShared_spec h hq) with
      ⟨-, -, k, object, hptr, hobject, hcontent⟩ | ⟨_, -, hptr, hs'⟩
    · have hpointee : pointee env s q = some (datasizeableBytes env s object.value) := by
        rw [pointee, hptr, Option.join_some, Option.bind_some, hobject, Option.map_some]
      rw [hpointee]
      exact hcontent
    · have hpointee : pointee env s q = none := by
        rw [pointee, hptr]
        rfl
      rw [hpointee]
      exact hs'
  moveConstructed j s' hpre hstep := (of_returned hstep (Heterogeneous.moveConstruct_spec h hpre)).2.2
  moveAssigned i j s' hpre hstep := (of_returned hstep (Heterogeneous.moveAssign_spec h hpre.1 hpre.2)).2.2
  asked i buf hbuf hwhole := by
    obtain ⟨r, s', hrun, -, -, hcontent, hr⟩ := exists_run (Heterogeneous.makeAsioConstBuffer_spec h hbuf hwhole)
    exact ⟨r, s', hrun, hr, hcontent⟩
  sized i buf hbuf hwhole := by
    obtain ⟨n, s', hrun, rfl, c, hc, rfl⟩ := exists_run (Heterogeneous.getSize_spec h hbuf hwhole)
    exact ⟨c, hc, hrun⟩
  written i bs buf s' hbuf hpre hstep := by
    obtain ⟨buf', hbuf', hwhole⟩ := exists_whole hpre.1
    obtain rfl : buf = buf' := Option.some.inj (Option.some.inj (hbuf.symm.trans hbuf'))
    rcases of_step hstep (Heterogeneous.writeMutableBuffer_spec h hbuf hwhole hpre.2) with
      ⟨-, hwritable, -, -, hwritten⟩ | ⟨_, hwritable, -, hs'⟩
    · rw [if_pos hwritable]
      exact hwritten
    · rw [hwritable]
      exact hs'
  extracted i p buf hbuf hwhole hp := by
    obtain ⟨r, s', hrun, hr⟩ :=
      exists_run (Heterogeneous.extractReusableSimpleBuffer_spec h hbuf hwhole hp)
    rw [← hr.result]
    refine ⟨s', hrun, ?_⟩
    cases r with
    | false => exact hr.kept rfl
    | true => exact hr.taken rfl
  reallocated i n buf s' hbuf hwhole hstep :=
    (of_returned hstep (Heterogeneous.reallocateOutput_spec h hbuf hwhole n)).2.2

/-- Wherever a program that keeps to the same comes with its buffers, they keep what they refer to. -/
theorem contents_are_kept (env : HeterogeneousEnv δ) (ops : List (HeterogeneousOp δ))
    (h : Along (step env) (Pre env) {} ops) : ∃ s, execute (step env) {} ops = some s ∧ s.KeepsContent env := by
  obtain ⟨s, hrun, hs⟩ := run_sound ops {} sound_init h
  exact ⟨s, hrun, hs.keepsContent env⟩

/-- A buffer is shared and adjusted before it is moved. -/
def adjustedAndMoved : List (HeterogeneousOp Bytes) :=
  [.program (.makeFrom [7, 8, 9]), .constructAdjustable (.simple 0) 1, .makeAsioConstBuffer 0,
    .makeShared (.custom [3]), .constructShared 0, .moveConstruct 0]

theorem contents_are_kept_moved : ∃ s, execute (step plainBuffers) {} adjustedAndMoved = some s ∧
    s.KeepsContent plainBuffers :=
  contents_are_kept plainBuffers adjustedAndMoved (by decide +kernel)

end HeterogeneousBuffers

end Opio.Net
