/-
What the operations of heterogeneous buffers do, one by one: who owns what afterwards, and what the buffers
refer to.
-/
import Opio.Net.BufferOwnership

namespace Opio.Net

open scoped List

variable {δ : Type} {env : HeterogeneousEnv δ} {s s' s'' : HeterogeneousBuffers δ} {buf : StoredBuffer δ}
  {i j m : Nat}

namespace HeterogeneousBuffers

theorem Owned.with (h : s.Owned places holders) (bufs : List (Option (StoredBuffer δ))) (vars : List Nat)
    (ptrs : List (Option Nat)) : Owned { s with bufs, vars, ptrs } places holders :=
  ⟨h.simple, h.objects⟩

theorem mem_placesOf {bufs : List (Option (StoredBuffer δ))} (hbuf : bufs[i]? = some (some buf)) {q : Nat}
    (hq : q ∈ buf.places) : q ∈ placesOf bufs :=
  List.mem_flatMap.2 ⟨some buf, List.mem_of_getElem? hbuf, hq⟩

theorem mem_holdsOf {bufs : List (Option (StoredBuffer δ))} (hbuf : bufs[i]? = some (some buf)) {k : Nat}
    (hk : k ∈ buf.holds) : k ∈ holdsOf bufs :=
  List.mem_flatMap.2 ⟨some buf, List.mem_of_getElem? hbuf, hk⟩

theorem Sound.fits_at (h : s.Sound env) (hbuf : s.bufs[i]? = some (some buf)) : env.Fits (env.layoutOf buf) :=
  h.fit buf (List.mem_of_getElem? hbuf)

theorem exists_of_isSome (h : s.bufs[i]?.join.isSome) : ∃ buf, s.bufs[i]? = some (some buf) := by
  obtain ⟨buf, hbuf⟩ := Option.isSome_iff_exists.1 h
  exact ⟨buf, Option.join_eq_some_iff.1 hbuf⟩

end HeterogeneousBuffers

namespace Heterogeneous

open HeterogeneousBuffers (Owned AllFit Sound placesOf holdsOf)

variable {places holders : List Nat} {E : HeterogeneousStop → HeterogeneousBuffers δ → Prop}

/-- The stored buffers that stay have the room that they had. -/
theorem Rest.fit (hrest : Rest s s') (h : s.Sound env) : AllFit env s'.bufs := hrest.bufs ▸ h.fit

theorem Same.with (h : Same env s s' places holders) (bufs : List (Option (StoredBuffer δ))) (vars : List Nat)
    (ptrs : List (Option Nat)) : Same env s { s' with bufs, vars, ptrs } places holders :=
  ⟨h.bytes, h.values⟩

/-- A buffer of which nothing changed, in its place. -/
theorem content_of_same (hm : s'.bufs[m]? = s.bufs[m]?) (h : Same env s s' places holders)
    (hplaces : ∀ buf, s.bufs[m]? = some (some buf) → ∀ q ∈ buf.places, q ∈ places)
    (hholders : ∀ buf, s.bufs[m]? = some (some buf) → ∀ k ∈ buf.holds, k ∈ holders) :
    content env s' m = content env s m := by
  unfold content
  rw [hm]
  cases hbuf : s.bufs[m]?.join with
  | none => rfl
  | some buf =>
    have hbuf' := Option.join_eq_some_iff.1 hbuf
    exact (h.mono (hplaces buf hbuf') (hholders buf hbuf')).contentOf

theorem content_eq (hbuf : s.bufs[i]? = some (some buf)) : content env s i = contentOf env s buf := by
  rw [content, hbuf]
  rfl

theorem run_bufAt (hbuf : s.bufs[i]? = some (some buf)) : (bufAt i).run s = .ok buf s := by
  rw [bufAt, run_get_bind, hbuf]
  rfl

/-- Nothing is seen of an operation besides some heterogeneous buffers and some of the program's own. -/
structure Others (env : HeterogeneousEnv δ) (s s' : HeterogeneousBuffers δ) (named vars : List Nat) : Prop where
  length : s.bufs.length ≤ s'.bufs.length
  bufs : ∀ m, m < s.bufs.length → m ∉ named → content env s' m = content env s m
  kept : ∀ p ∈ s.vars, p ∉ vars → p ∈ s'.vars
  vars : ∀ p ∈ s.vars, p ∉ vars → s'.simple.bytes p = s.simple.bytes p

theorem Others.refl (s : HeterogeneousBuffers δ) (named vars : List Nat) : Others env s s named vars :=
  ⟨le_rfl, fun _ _ _ => rfl, fun _ hp _ => hp, fun _ _ _ => rfl⟩

theorem Others.trans {named vars : List Nat} (h : Others env s s' named vars) (h' : Others env s' s'' named vars) :
    Others env s s'' named vars where
  length := h.length.trans h'.length
  bufs m hm hnot := (h'.bufs m (hm.trans_le h.length) hnot).trans (h.bufs m hm hnot)
  kept p hp hnot := h'.kept p (h.kept p hp hnot) hnot
  vars p hp hnot := (h'.vars p (h.kept p hp hnot) hnot).trans (h.vars p hp hnot)

/-- It is no less when more is left out. -/
theorem Others.mono {named vars named' vars' : List Nat} (h : Others env s s' named vars)
    (hnamed : ∀ m ∈ named, m ∈ named') (hvars : ∀ p ∈ s.vars, p ∈ vars → p ∈ vars') :
    Others env s s' named' vars' where
  length := h.length
  bufs m hm hnot := h.bufs m hm fun hmem => hnot (hnamed m hmem)
  kept p hp hnot := h.kept p hp fun hmem => hnot (hvars p hp hmem)
  vars p hp hnot := h.vars p hp fun hmem => hnot (hvars p hp hmem)

/-! ## Construction -/

/-- A new buffer of what belongs to nobody yet. -/
theorem emplace_sound (h : s.Owned (buf.places ++ (s.vars ++ placesOf s.bufs))
    (buf.holds ++ (s.ptrs.flatMap Option.toList ++ holdsOf s.bufs))) (hfit : AllFit env s.bufs)
    (hfits : env.Fits (env.layoutOf buf)) : Sound env { s with bufs := s.bufs ++ [some buf] } := by
  refine ⟨(h.perm ?_ ?_).with _ _ _, hfit.concat hfits⟩
  · rw [List.perm_iff_count]
    intro a
    have := (HeterogeneousBuffers.placesOf_concat s.bufs buf).count_eq a
    simp only [List.count_append] at this ⊢
    omega
  · rw [List.perm_iff_count]
    intro a
    have := (HeterogeneousBuffers.holdsOf_concat s.bufs buf).count_eq a
    simp only [List.count_append] at this ⊢
    omega

theorem length_concat (s : HeterogeneousBuffers δ) : s.bufs.length ≤ (s.bufs ++ [some buf]).length := by
  rw [List.length_append]
  exact Nat.le_add_right _ _

theorem content_concat (hm : m < s.bufs.length) :
    content env { s with bufs := s.bufs ++ [some buf] } m = content env s m := by
  unfold content
  rw [List.getElem?_append_left hm]
  rfl

variable (env) in
theorem content_new (s : HeterogeneousBuffers δ) (buf : StoredBuffer δ) :
    content env { s with bufs := s.bufs ++ [some buf] } s.bufs.length = contentOf env s buf := by
  unfold content
  rw [List.getElem?_concat_length]
  rfl

theorem constructConst_spec (h : s.Sound env) (data : Option Nat) (size : Nat) :
    Sat (constructConst env data size) s (fun _ s' => s'.Sound env ∧ Others env s s' [] [] ∧
      content env s' s.bufs.length = some (.elsewhere data size)) E := by
  have hothers : Others env s { s with bufs := s.bufs ++ [some (.constBuffer data size)] } [] [] :=
    ⟨length_concat s, fun m hm _ => content_concat hm, fun _ hp _ => hp, fun _ _ _ => rfl⟩
  refine Sat.bind (placementNew_spec (.constBuffer data size) env.fits_constBuffer) ?_
  rintro _ s ⟨rfl, rfl⟩
  exact Sat.modify ⟨emplace_sound h.owned h.fit env.fits_constBuffer, hothers,
    content_new env s (.constBuffer data size)⟩

/-- A buffer of the program, with what else is there. -/
theorem exists_rest {buf : Datasizeable δ} (hhas : s.Has buf) : ∃ rest, s.vars ~ buf.places ++ rest := by
  cases buf with
  | custom buf => exact ⟨s.vars, List.Perm.refl _⟩
  | simple place => exact ⟨s.vars.erase place, List.perm_cons_erase hhas⟩

/-- Something is made from a buffer of the program, which keeps what is left of it. -/
theorem moveVar_spec (h : s.Sound env) {buf : Datasizeable δ} (hhas : s.Has buf) :
    Sat (moveDatasizeable env buf) s (fun r s' => Rest s s' ∧
      s'.Owned (r.1.places ++ (s'.vars ++ placesOf s'.bufs)) (s'.ptrs.flatMap Option.toList ++ holdsOf s'.bufs) ∧
      Others env s s' [] buf.places ∧ datasizeableBytes env s' r.1 = datasizeableBytes env s buf ∧
      env.datasizeableLayout r.1 = env.datasizeableLayout buf) E := by
  obtain ⟨rest, hvars⟩ := exists_rest hhas
  have howned : s.Owned (buf.places ++ (rest ++ placesOf s.bufs))
      (s.ptrs.flatMap Option.toList ++ holdsOf s.bufs) := by
    refine h.owned.perm ?_ (List.Perm.refl _)
    rw [← List.append_assoc]
    exact hvars.append_right _
  refine (moveDatasizeable_spec howned).mono ?_ fun _ _ h => h
  rintro ⟨new, left⟩ s' ⟨hrest, hs', hleft, hsame, hbytes, hlayout, -⟩
  dsimp only at hs' hleft hbytes
  refine ⟨hrest, hs'.perm (List.Perm.append_left _ ?_) ?_, ⟨hrest.bufs ▸ le_rfl, fun m _ _ => ?_,
    fun p hp _ => hrest.vars ▸ hp, fun p hp hnot => ?_⟩, hbytes, hlayout⟩
  · rw [hleft, hrest.vars, hrest.bufs, ← List.append_assoc]
    exact hvars.symm.append_right _
  · rw [hrest.ptrs, hrest.bufs]
  · refine content_of_same (by rw [hrest.bufs]) hsame (fun buf hbuf q hq => ?_) fun buf hbuf k hk => ?_
    · exact List.mem_append_right _ (HeterogeneousBuffers.mem_placesOf hbuf hq)
    · exact List.mem_append_right _ (HeterogeneousBuffers.mem_holdsOf hbuf hk)
  · refine hsame.bytes p (List.mem_append_left _ ?_)
    exact (List.mem_append.1 (hvars.mem_iff.1 hp)).resolve_left hnot

/-- The buffer that was made last, and the ones before it. -/
theorem emplaced (hrest : Rest s s') {vars : List Nat} (hothers : Others env s s' [] vars) (buf : StoredBuffer δ) :
    Others env s { s' with bufs := s'.bufs ++ [some buf] } [] vars ∧
      content env { s' with bufs := s'.bufs ++ [some buf] } s.bufs.length = contentOf env s' buf := by
  refine ⟨⟨hothers.length.trans (length_concat s'), fun m hm hnot => ?_, hothers.kept, hothers.vars⟩, ?_⟩
  · rw [content_concat (by rwa [hrest.bufs])]
    exact hothers.bufs m hm hnot
  · rw [← hrest.bufs]
    exact content_new env s' buf

theorem constructDatasizeable_spec (h : s.Sound env) {buf : Datasizeable δ} (hhas : s.Has buf)
    (hfits : env.Fits (env.datasizeableLayout buf)) :
    Sat (constructDatasizeable env buf) s (fun _ s' => s'.Sound env ∧ Others env s s' [] buf.places ∧ s'.vars = s.vars ∧
      content env s' s.bufs.length = some (.bytes (datasizeableBytes env s buf))) E := by
  refine Sat.bind (moveVar_spec h hhas) ?_
  rintro ⟨new, left⟩ s' ⟨hrest, hs', hothers, hbytes, hlayout⟩
  have hfits' : env.Fits (env.layoutOf (.datasizeableBuffer new)) :=
    show env.Fits (env.datasizeableLayout new) from hlayout ▸ hfits
  refine Sat.bind (placementNew_spec _ hfits') ?_
  rintro _ s' ⟨rfl, rfl⟩
  obtain ⟨hothers', hnew⟩ := emplaced hrest hothers (.datasizeableBuffer new)
  exact Sat.modify ⟨emplace_sound hs' (hrest.fit h) hfits', hothers', hrest.vars,
    hnew.trans (congrArg (fun bs => some (BufferContent.bytes bs)) hbytes)⟩

theorem constructAdjustable_spec (h : s.Sound env) {buf : Datasizeable δ} (hhas : s.Has buf) {adjuster : Nat}
    (hfits : env.Fits (env.adjustableBuffer adjuster buf)) :
    Sat (constructAdjustable env buf adjuster) s (fun _ s' => s'.Sound env ∧ Others env s s' [] buf.places ∧
      content env s' s.bufs.length = some (.bytes (datasizeableBytes env s buf))) E := by
  refine Sat.bind (moveVar_spec h hhas) ?_
  rintro ⟨new, left⟩ s' ⟨hrest, hs', hothers, hbytes, -⟩
  refine Sat.bind (placementNew_spec
    (.adjustableContentBuffer (env.adjustableBuffer adjuster buf) new (some adjuster)) hfits) ?_
  rintro _ s' ⟨rfl, rfl⟩
  obtain ⟨hothers', hnew⟩ := emplaced hrest hothers
    (.adjustableContentBuffer (env.adjustableBuffer adjuster buf) new (some adjuster))
  exact Sat.modify ⟨emplace_sound hs' (hrest.fit h) hfits, hothers',
    hnew.trans (congrArg (fun bs => some (BufferContent.bytes bs)) hbytes)⟩

/-- An adjustable buffer that is too large for the storage is made there all the same. -/
theorem constructAdjustable_outOfStorage (h : s.Sound env) {buf : Datasizeable δ} (hhas : s.Has buf) {adjuster : Nat}
    (hfits : ¬ env.Fits (env.adjustableBuffer adjuster buf)) :
    Sat (constructAdjustable env buf adjuster) s (fun _ _ => False) fun e _ => e = .outOfStorage := by
  refine Sat.bind (moveVar_spec h hhas) ?_
  rintro ⟨new, left⟩ s' -
  refine Sat.bind (Q := fun _ _ => False) ?_ fun _ _ => False.elim
  exact Sat.of_run_eq (congrArg (EStateM.run · s') (if_neg hfits)) (Sat.throw rfl)

variable (env) in
/-- One more pointer to an object. -/
theorem copy_owned {k : Nat} (h : s.Owned places holders) (hk : k ∈ holders) :
    Owned { s with objects := s.objects.copy k } places (k :: holders) ∧
      Same env s { s with objects := s.objects.copy k } places holders := by
  obtain ⟨object, hobject⟩ := h.objects.find hk
  refine ⟨⟨?_, h.objects.copy hk⟩, fun _ _ => rfl, fun j _ => ?_⟩
  · exact h.simple.perm (((SharedObjects.values_copy hobject).flatMap_right _).symm.append_left places)
  · by_cases hjk : k = j
    · subst hjk
      rw [SharedObjects.find_copy hobject, hobject]
      rfl
    · rw [SharedObjects.copy, SharedObjects.find_set_ne hjk]
      rfl

/-- The program holds what its pointers point to. -/
theorem mem_ptrs {q k : Nat} (hq : s.ptrs[q]? = some (some k)) : k ∈ s.ptrs.flatMap Option.toList :=
  List.mem_flatMap.2 ⟨some k, List.mem_of_getElem? hq, List.mem_singleton.2 rfl⟩

/-- Nothing but what the objects count is another. -/
theorem others_of_same (hbufs : s'.bufs = s.bufs) (hvars : s'.vars = s.vars)
    (h : Same env s s' (s.vars ++ placesOf s.bufs) (s.ptrs.flatMap Option.toList ++ holdsOf s.bufs)) :
    Others env s s' [] [] where
  length := hbufs ▸ le_rfl
  kept p hp _ := hvars ▸ hp
  bufs m _ _ := by
    refine content_of_same (by rw [hbufs]) h (fun buf hbuf q hq => ?_) fun buf hbuf k hk => ?_
    · exact List.mem_append_right _ (HeterogeneousBuffers.mem_placesOf hbuf hq)
    · exact List.mem_append_right _ (HeterogeneousBuffers.mem_holdsOf hbuf hk)
  vars p hp _ := h.bytes p (List.mem_append_left _ hp)

/-- A buffer from a shared pointer refers to what the pointer points to; from an empty one there is none. -/
theorem constructShared_spec (h : s.Sound env) {q : Nat} (hq : q < s.ptrs.length) :
    Sat (constructShared env q) s (fun _ s' => s'.Sound env ∧ Others env s s' [] [] ∧
        ∃ k object, s.ptrs[q]? = some (some k) ∧ s.objects.find k = some object ∧
          content env s' s.bufs.length = some (.bytes (datasizeableBytes env s object.value)))
      fun e s' => e = .exception "empty shared_ptr cannot be used as buffer" ∧ s.ptrs[q]? = some none ∧ s' = s := by
  obtain ⟨ptr, hptr⟩ : ∃ ptr, s.ptrs[q]? = some ptr := ⟨_, List.getElem?_eq_getElem hq⟩
  cases ptr with
  | none =>
    have hrun : (constructShared env q).run s =
        .error (.exception "empty shared_ptr cannot be used as buffer") s := by
      rw [constructShared, run_get_bind, hptr]
      rfl
    unfold Sat
    rw [hrun]
    exact ⟨rfl, hptr, rfl⟩
  | some k =>
    have hheld := mem_ptrs hptr
    obtain ⟨object, hobject⟩ := h.owned.objects.find (List.mem_append_left _ hheld)
    refine Sat.of_run_eq (t := { s with objects := s.objects.copy k })
      (y := placementNew env (.sharedDatasizeableBuffer object.value.isSimple (some k)) >>= emplace) ?_ ?_
    · rw [constructShared, run_get_bind, hptr]
      dsimp only
      rw [run_bind_of_ok (run_objectAt hobject)]
      rfl
    obtain ⟨howned, hsame⟩ := copy_owned env h.owned (List.mem_append_left _ hheld)
    have hothers : Others env s { s with objects := s.objects.copy k } [] [] := others_of_same rfl rfl hsame
    have hrest : Rest s { s with objects := s.objects.copy k } := ⟨rfl, rfl, rfl⟩
    obtain ⟨hothers', hnew⟩ := emplaced hrest hothers (.sharedDatasizeableBuffer object.value.isSimple (some k))
    refine Sat.bind (placementNew_spec _ env.fits_sharedBuffer) ?_
    rintro _ s' ⟨rfl, rfl⟩
    refine Sat.modify ⟨emplace_sound howned h.fit env.fits_sharedBuffer, hothers', k, object, hptr, hobject,
      hnew.trans ?_⟩
    have hvalue := hsame.values k (List.mem_append_left _ hheld)
    rw [hobject] at hvalue
    have hvalue' := congrArg (Option.map BufferContent.bytes) hvalue
    rw [Option.map_map] at hvalue'
    exact hvalue'

/-! ## Moves -/

/-- What a buffer is made of, and what is there besides. -/
theorem owned_at (h : s.Sound env) (hbuf : s.bufs[i]? = some (some buf)) :
    s.Owned (buf.places ++ (s.vars ++ placesOf (s.bufs.set i none)))
      (buf.holds ++ (s.ptrs.flatMap Option.toList ++ holdsOf (s.bufs.set i none))) := by
  refine h.owned.perm ?_ ?_
  · rw [List.perm_iff_count]
    intro a
    have := (HeterogeneousBuffers.placesOf_take hbuf).count_eq a
    simp only [List.count_append] at this ⊢
    omega
  · rw [List.perm_iff_count]
    intro a
    have := (HeterogeneousBuffers.holdsOf_take hbuf).count_eq a
    simp only [List.count_append] at this ⊢
    omega

/-- A buffer is put at an index that had one, of which nothing is left. -/
theorem setBuf_sound (hi : i < s.bufs.length)
    (h : s.Owned (buf.places ++ (s.vars ++ placesOf (s.bufs.set i none)))
      (buf.holds ++ (s.ptrs.flatMap Option.toList ++ holdsOf (s.bufs.set i none)))) (hfit : AllFit env s.bufs)
    (hfits : env.Fits (env.layoutOf buf)) : Sound env { s with bufs := s.bufs.set i (some buf) } := by
  refine ⟨(h.perm ?_ ?_).with _ _ _, hfit.set hfits i⟩
  · rw [List.perm_iff_count]
    intro a
    have := (HeterogeneousBuffers.placesOf_set hi buf).count_eq a
    simp only [List.count_append] at this ⊢
    omega
  · rw [List.perm_iff_count]
    intro a
    have := (HeterogeneousBuffers.holdsOf_set hi buf).count_eq a
    simp only [List.count_append] at this ⊢
    omega

theorem length_setBuf (hbufs : s'.bufs = s.bufs) (i : Nat) (buf : Option (StoredBuffer δ)) :
    (s'.bufs.set i buf).length = s.bufs.length := by
  rw [List.length_set, hbufs]

theorem content_setBuf (hne : i ≠ m) (buf : Option (StoredBuffer δ)) :
    content env { s with bufs := s.bufs.set i buf } m = content env s m := by
  unfold content
  rw [List.getElem?_set_ne hne]
  rfl

theorem content_setBuf_self (hi : i < s.bufs.length) (buf : StoredBuffer δ) :
    content env { s with bufs := s.bufs.set i (some buf) } i = contentOf env s buf := by
  unfold content
  rw [List.getElem?_set_self hi]
  rfl

/-- The buffers at other indices are what they were when their parts are. -/
theorem content_besides (hbufs : s'.bufs = s.bufs) (hne : i ≠ m) (h : Same env s s'
    (s.vars ++ placesOf (s.bufs.set i none)) (s.ptrs.flatMap Option.toList ++ holdsOf (s.bufs.set i none))) :
    content env s' m = content env s m := by
  have hm : (s.bufs.set i none)[m]? = s.bufs[m]? := List.getElem?_set_ne hne
  refine content_of_same (by rw [hbufs]) h (fun buf hbuf q hq => ?_) fun buf hbuf k hk => ?_
  · exact List.mem_append_right _ (HeterogeneousBuffers.mem_placesOf (hm.trans hbuf) hq)
  · exact List.mem_append_right _ (HeterogeneousBuffers.mem_holdsOf (hm.trans hbuf) hk)

/-- A buffer made from another one refers to what that one did. -/
theorem moveConstruct_spec (h : s.Sound env) (hj : s.bufs[j]?.join.isSome) :
    Sat (moveConstruct env j) s (fun _ s' => s'.Sound env ∧ Others env s s' [j] [] ∧
      content env s' s.bufs.length = content env s j) E := by
  obtain ⟨buf, hbuf⟩ := HeterogeneousBuffers.exists_of_isSome hj
  have hlt : j < s.bufs.length := (List.getElem?_eq_some_iff.1 hbuf).1
  have hfits := h.fits_at hbuf
  refine Sat.of_run_eq (run_bind_of_ok (run_bufAt hbuf)) (Sat.bind (relocateTo_spec (owned_at h hbuf) hfits) ?_)
  rintro ⟨new, left⟩ s' ⟨hrest, hs', hsame, hcontent, hnew, hleft⟩
  dsimp only at hs' hcontent hnew hleft
  have hlt' : j < s'.bufs.length := by rwa [hrest.bufs]
  rw [← hrest.vars, ← hrest.bufs, ← hrest.ptrs] at hs'
  -- what is left goes back to the index, and the new buffer to the end
  refine Sat.modify_bind (Sat.modify ⟨?_, ⟨?_, fun m hm hnot => ?_, fun p hp _ => hrest.vars ▸ hp, fun p hp _ => ?_⟩,
    ?_⟩)
  · refine emplace_sound (Owned.perm (hs'.with (s'.bufs.set j (some left)) s'.vars s'.ptrs) ?_ ?_)
      ((hrest.fit h).set (hleft ▸ hfits) j) (hnew ▸ hfits)
    · rw [List.perm_iff_count]
      intro a
      have := (HeterogeneousBuffers.placesOf_set hlt' left).count_eq a
      simp only [List.count_append] at this ⊢
      omega
    · rw [List.perm_iff_count]
      intro a
      have := (HeterogeneousBuffers.holdsOf_set hlt' left).count_eq a
      simp only [List.count_append] at this ⊢
      omega
  · show s.bufs.length ≤ (s'.bufs.set j (some left) ++ [some new]).length
    rw [List.length_append, List.length_set, hrest.bufs]
    exact Nat.le_add_right _ _
  · have hne : j ≠ m := fun heq => hnot (heq ▸ List.mem_singleton.2 rfl)
    rw [content_concat (by simpa [hrest.bufs] using hm), content_setBuf hne]
    exact content_besides hrest.bufs hne hsame
  · exact hsame.bytes p (List.mem_append_left _ hp)
  · have hnew := content_new env { s' with bufs := s'.bufs.set j (some left) } new
    rw [List.length_set, hrest.bufs] at hnew
    rw [content_eq hbuf, ← hcontent, hrest.bufs]
    exact hnew

/-- A buffer is destroyed, and nothing else. -/
theorem destroy_spec (h : s.Sound env) (hi : s.bufs[i]?.join.isSome) :
    Sat (destroy i) s (fun _ s' => s'.Sound env ∧ Others env s s' [i] [] ∧ content env s' i = none) E := by
  obtain ⟨buf, hbuf⟩ := HeterogeneousBuffers.exists_of_isSome hi
  have hlt : i < s.bufs.length := (List.getElem?_eq_some_iff.1 hbuf).1
  refine Sat.of_run_eq (run_bind_of_ok (run_bufAt hbuf))
    (Sat.bind (destroyStoredBuffer_spec env (owned_at h hbuf)) ?_)
  rintro _ s' ⟨hrest, hs', hsame⟩
  refine Sat.modify ⟨⟨?_, ?_⟩, ⟨?_, fun m hm hnot => ?_, fun p hp _ => hrest.vars ▸ hp, fun p hp _ => ?_⟩, ?_⟩
  · rw [← hrest.vars, ← hrest.bufs, ← hrest.ptrs] at hs'
    exact hs'.with _ _ _
  · exact (hrest.fit h).destroy i
  · exact (length_setBuf hrest.bufs i none).ge
  · have hne : i ≠ m := fun heq => hnot (heq ▸ List.mem_singleton.2 rfl)
    rw [content_setBuf hne]
    exact content_besides hrest.bufs hne hsame
  · exact hsame.bytes p (List.mem_append_left _ hp)
  · unfold content
    rw [List.getElem?_set_self (by rwa [hrest.bufs])]
    rfl

/-- What another buffer referred to is found where it is moved, whatever was there before. -/
theorem moveAssign_spec (h : s.Sound env) (hi : s.bufs[i]?.join.isSome) (hj : s.bufs[j]?.join.isSome) :
    Sat (moveAssign env i j) s (fun _ s' => s'.Sound env ∧ Others env s s' [i, j] [] ∧
      content env s' i = content env s j ∧ (i = j → s' = s)) E := by
  obtain ⟨old, hold⟩ := HeterogeneousBuffers.exists_of_isSome hi
  obtain ⟨buf, hbuf⟩ := HeterogeneousBuffers.exists_of_isSome hj
  refine Sat.of_run_eq (run_bind_of_ok (run_bufAt hold)) ?_
  by_cases hij : i = j
  · rw [if_neg (not_not.2 hij)]
    exact Sat.pure ⟨h, Others.refl .., hij ▸ rfl, fun _ => rfl⟩
  rw [if_pos hij]
  -- what the two are made of comes apart from the rest
  have hbuf' : (s.bufs.set i none)[j]? = some (some buf) := (List.getElem?_set_ne hij).trans hbuf
  have howned : s.Owned (old.places ++ (buf.places ++ (s.vars ++ placesOf ((s.bufs.set i none).set j none))))
      (old.holds ++ (buf.holds ++ (s.ptrs.flatMap Option.toList ++ holdsOf ((s.bufs.set i none).set j none)))) := by
    refine (owned_at h hold).perm (List.Perm.append_left _ ?_) (List.Perm.append_left _ ?_)
    · rw [List.perm_iff_count]
      intro a
      have := (HeterogeneousBuffers.placesOf_take hbuf').count_eq a
      simp only [List.count_append] at this ⊢
      omega
    · rw [List.perm_iff_count]
      intro a
      have := (HeterogeneousBuffers.holdsOf_take hbuf').count_eq a
      simp only [List.count_append] at this ⊢
      omega
  refine Sat.bind (destroyStoredBuffer_spec env howned) ?_
  rintro _ s₁ ⟨hrest₁, hs₁, hsame₁⟩
  have hfits := h.fits_at hbuf
  refine Sat.of_run_eq (run_bind_of_ok (run_bufAt (hrest₁.bufs ▸ hbuf))) (Sat.bind (relocateTo_spec hs₁ hfits) ?_)
  rintro ⟨new, left⟩ s₂ ⟨hrest₂, hs₂, hsame₂, hcontent, hnew, hleft⟩
  dsimp only at hs₂ hcontent hnew hleft
  have hrest := hrest₁.trans hrest₂
  have hsame : Same env s s₂ (s.vars ++ placesOf ((s.bufs.set i none).set j none))
      (s.ptrs.flatMap Option.toList ++ holdsOf ((s.bufs.set i none).set j none)) :=
    (hsame₁.mono (fun _ => List.mem_append_right _) fun _ => List.mem_append_right _).trans hsame₂
  have hilt : i < s.bufs.length := (List.getElem?_eq_some_iff.1 hold).1
  have hjlt : j < (s.bufs.set i none).length := (List.getElem?_eq_some_iff.1 hbuf').1
  refine Sat.modify_bind (Sat.modify ⟨?_, ⟨?_, fun m hm hnot => ?_, fun p hp _ => hrest.vars ▸ hp, fun p hp _ => ?_⟩,
    ?_, fun heq => absurd heq hij⟩)
  · refine setBuf_sound (by rw [List.length_set, hrest.bufs]; exact hilt)
      (Owned.perm (hs₂.with (s₂.bufs.set j (some left)) s₂.vars s₂.ptrs) (List.Perm.append_left _ ?_)
        (List.Perm.append_left _ ?_))
      ((hrest.fit h).set (hleft ▸ hfits) j) (hnew ▸ hfits)
    · rw [hrest.vars, hrest.bufs, List.set_comm _ _ (Ne.symm hij), List.perm_iff_count]
      intro a
      have := (HeterogeneousBuffers.placesOf_set hjlt left).count_eq a
      simp only [List.count_append] at this ⊢
      omega
    · rw [hrest.ptrs, hrest.bufs, List.set_comm _ _ (Ne.symm hij), List.perm_iff_count]
      intro a
      have := (HeterogeneousBuffers.holdsOf_set hjlt left).count_eq a
      simp only [List.count_append] at this ⊢
      omega
  · show s.bufs.length ≤ ((s₂.bufs.set j (some left)).set i (some new)).length
    rw [List.length_set, List.length_set, hrest.bufs]
  · simp only [List.mem_cons, List.not_mem_nil, or_false, not_or] at hnot
    have hmi : (s.bufs.set i none)[m]? = s.bufs[m]? := List.getElem?_set_ne (Ne.symm hnot.1)
    have hmj : ((s.bufs.set i none).set j none)[m]? = s.bufs[m]? := (List.getElem?_set_ne (Ne.symm hnot.2)).trans hmi
    rw [content_setBuf (Ne.symm hnot.1), content_setBuf (Ne.symm hnot.2)]
    refine content_of_same (by rw [hrest.bufs]) hsame (fun buf hbuf q hq => ?_) fun buf hbuf k hk => ?_
    · exact List.mem_append_right _ (HeterogeneousBuffers.mem_placesOf (hmj.trans hbuf) hq)
    · exact List.mem_append_right _ (HeterogeneousBuffers.mem_holdsOf (hmj.trans hbuf) hk)
  · exact hsame.bytes p (List.mem_append_left _ hp)
  · rw [content_setBuf_self (by rw [List.length_set, hrest.bufs]; exact hilt), content_eq hbuf]
    refine Eq.trans hcontent (hsame₁.mono (fun _ => ?_) fun _ => ?_).contentOf
    · exact List.mem_append_left _
    · exact List.mem_append_left _

/-! ## What is sent and written -/

/-- What belongs to one is not found with another. -/
theorem not_mem_of_owned {places' : List Nat} (h : s.Owned (places' ++ places) holders) {q : Nat}
    (hq : q ∈ places ++ s.inside) : q ∉ places' := by
  have honce := h.simple.once
  rw [List.append_assoc] at honce
  exact fun hmem => (List.nodup_append.1 honce).2.2 q hmem q hq rfl

/-- What is in an object is nowhere else. -/
theorem not_mem_of_object (h : s.Owned places holders) {k q : Nat} {object : Shared (Datasizeable δ)}
    (hk : s.objects.find k = some object) (hq : q ∈ places) : q ∉ object.value.places :=
  fun hmem => (List.nodup_append.1 h.simple.once).2.2 q hq q (mem_inside hk hmem) rfl

/-- Different objects have different buffers in them. -/
theorem not_mem_of_objects (h : s.Owned places holders) {k q : Nat} {object other : Shared (Datasizeable δ)}
    (hk : s.objects.find k = some object) (hj : s.objects.find j = some other) (hne : k ≠ j)
    (hq : q ∈ other.value.places) : q ∉ object.value.places := by
  have hperm := (SharedObjects.values_perm hk).flatMap_right Datasizeable.places
  rw [List.flatMap_cons] at hperm
  have honce := hperm.nodup_iff.1 (List.nodup_append.1 h.simple.once).2.1
  have hmem : q ∈ (SharedObjects.values (s.objects.set k none)).flatMap Datasizeable.places :=
    List.mem_flatMap.2 ⟨other.value, SharedObjects.mem_values ((SharedObjects.find_set_ne hne none).trans hj), hq⟩
  exact fun hmem' => (List.nodup_append.1 honce).2.2 q hmem' q hmem rfl

variable (env) in
/-- Writing to a buffer of one's own is seen by nobody else. -/
theorem overwriteOwn_spec {buf : Datasizeable δ} (h : s.Owned (buf.places ++ places) holders) {bs : Bytes}
    (hle : bs.length ≤ (datasizeableBytes env s buf).length) :
    Sat (overwriteDatasizeable env bs buf) s (fun r s' => Rest s s' ∧ r.places = buf.places ∧
      s'.Owned (buf.places ++ places) holders ∧ (∀ holders', Same env s s' places holders') ∧
      datasizeableBytes env s' r = bs ++ (datasizeableBytes env s buf).drop bs.length ∧
      env.datasizeableLayout r = env.datasizeableLayout buf) E := by
  have hplaces : ∀ q ∈ buf.places, q ∈ buf.places ++ places ++ s.inside := fun q hq =>
    List.mem_append_left _ (List.mem_append_left _ hq)
  refine (overwriteDatasizeable_spec env h hplaces hle).mono ?_ fun _ _ h => h
  rintro r s' ⟨hrest, hobjects, hplaces, hs', hframe, hbytes, hlayout⟩
  refine ⟨hrest, hplaces, hs', fun _ => Same.of_bytes hobjects fun q hq => ?_, hbytes, hlayout⟩
  refine hframe q ?_ (not_mem_of_owned h hq)
  rw [List.append_assoc]
  exact List.mem_append_right _ hq

variable (env) in
/-- What a buffer that nothing was moved from refers to is there. -/
theorem exists_content (h : s.Owned places (buf.holds ++ holders)) (hwhole : buf.isWhole) :
    ∃ content, contentOf env s buf = some content := by
  cases buf with
  | constBuffer data size => exact ⟨_, rfl⟩
  | datasizeableBuffer buf | adjustableContentBuffer _ buf adjuster => exact ⟨_, rfl⟩
  | sharedDatasizeableBuffer ofSimple ptr =>
    cases ptr with
    | none => cases hwhole
    | some k =>
      obtain ⟨object, hk⟩ := h.objects.find (List.mem_append_left _ (List.mem_singleton.2 rfl))
      refine ⟨.bytes (datasizeableBytes env s object.value), ?_⟩
      rw [contentOf, Option.bind_some, hk]
      rfl

/-- What a buffer refers to once its adjuster was called. -/
def adjustedContent (env : HeterogeneousEnv δ) (s : HeterogeneousBuffers δ) : StoredBuffer δ → Option BufferContent
  | .adjustableContentBuffer _ buf (some adjuster) =>
    some (.bytes (env.adjust adjuster (datasizeableBytes env s buf)).1)
  | buf => contentOf env s buf

theorem callAdjuster_spec (h : s.Owned (buf.places ++ places) (buf.holds ++ holders)) (hwhole : buf.isWhole) :
    Sat (callAdjuster env buf) s (fun r s' => Rest s s' ∧ r.places = buf.places ∧ r.holds = buf.holds ∧ r.isWhole ∧
      s'.Owned (buf.places ++ places) (buf.holds ++ holders) ∧ Same env s s' places holders ∧
      contentOf env s' r = adjustedContent env s buf ∧ env.layoutOf r = env.layoutOf buf) E := by
  cases buf with
  | constBuffer data size => exact Sat.pure ⟨Rest.refl s, rfl, rfl, rfl, h, Same.refl .., rfl, rfl⟩
  | datasizeableBuffer buf => exact Sat.pure ⟨Rest.refl s, rfl, rfl, rfl, h, Same.refl .., rfl, rfl⟩
  | sharedDatasizeableBuffer ofSimple ptr =>
    exact Sat.pure ⟨Rest.refl s, rfl, rfl, hwhole, h, Same.refl .., rfl, rfl⟩
  | adjustableContentBuffer _ buf adjuster =>
    cases adjuster with
    | none => cases hwhole
    | some adjuster =>
      have hlength := env.length_adjust adjuster (datasizeableBytes env s buf)
      refine Sat.get_bind (Sat.bind (overwriteOwn_spec env h hlength.le) ?_)
      rintro r s' ⟨hrest, hplaces, hs', hsame, hbytes, -⟩
      rw [List.drop_of_length_le hlength.ge, List.append_nil] at hbytes
      exact Sat.pure ⟨hrest, hplaces, rfl, rfl, hs', hsame _,
        congrArg (fun bs => some (BufferContent.bytes bs)) hbytes, rfl⟩

/-- Asked for what to send, a buffer gives its bytes, after its adjuster worked on them. -/
theorem makeAsioConstBuffer_spec (h : s.Sound env) (hbuf : s.bufs[i]? = some (some buf)) (hwhole : buf.isWhole) :
    Sat (makeAsioConstBuffer env i) s (fun r s' => s'.Sound env ∧ Others env s s' [i] [] ∧
      content env s' i = some r ∧ some r = adjustedContent env s buf) E := by
  have hlt : i < s.bufs.length := (List.getElem?_eq_some_iff.1 hbuf).1
  refine Sat.of_run_eq (run_bind_of_ok (run_bufAt hbuf)) (Sat.bind (callAdjuster_spec (owned_at h hbuf) hwhole) ?_)
  rintro r s' ⟨hrest, hplaces, hholds, hwhole', hs', hsame, hcontent, hlayout⟩
  have hlt' : i < s'.bufs.length := by rwa [hrest.bufs]
  obtain ⟨content, hc⟩ := exists_content env (hholds ▸ hs') hwhole'
  refine Sat.modify_bind (Sat.get_bind ?_)
  have hc' : contentOf env { s' with bufs := s'.bufs.set i (some r) } r = some content := hc
  rw [hc']
  refine Sat.pure ⟨?_, ⟨(length_setBuf hrest.bufs i _).ge, fun m hm hnot => ?_, fun p hp _ => hrest.vars ▸ hp,
    fun p hp _ => ?_⟩, ?_, hc.symm.trans hcontent⟩
  · refine setBuf_sound hlt' ?_ (hrest.fit h) (hlayout ▸ h.fits_at hbuf)
    rw [hplaces, hholds, hrest.vars, hrest.bufs, hrest.ptrs]
    exact hs'
  · have hne : i ≠ m := fun heq => hnot (heq ▸ List.mem_singleton.2 rfl)
    rw [content_setBuf hne]
    exact content_besides hrest.bufs hne hsame
  · exact hsame.bytes p (List.mem_append_left _ hp)
  · rw [content_setBuf_self hlt', hc]

/-- The size is that of what the buffer refers to. -/
theorem getSize_spec (h : s.Sound env) (hbuf : s.bufs[i]? = some (some buf)) (hwhole : buf.isWhole) :
    Sat (getSize env i) s (fun n s' => s' = s ∧ ∃ c, content env s i = some c ∧ n = c.size) E := by
  obtain ⟨c, hc⟩ := exists_content env (owned_at h hbuf) hwhole
  refine Sat.of_run_eq (run_bind_of_ok (run_bufAt hbuf)) (Sat.get_bind ?_)
  rw [hc]
  exact Sat.pure ⟨rfl, c, (content_eq hbuf).trans hc, rfl⟩

/-- Its bytes may be written to. -/
def writable (env : HeterogeneousEnv δ) (s : HeterogeneousBuffers δ) : StoredBuffer δ → Bool
  | .constBuffer _ _ => false
  | .sharedDatasizeableBuffer _ ptr => (ptr.bind s.objects.find).any fun object => isMutable env object.value
  | .datasizeableBuffer _ | .adjustableContentBuffer _ _ _ => true

/-- Bytes are written to the ones a buffer refers to. The other buffers that see it share the object. -/
theorem writeStoredBuffer_spec (h : s.Owned (buf.places ++ places) (buf.holds ++ holders)) (hwhole : buf.isWhole)
    {bs : Bytes} (hle : ∀ content ∈ contentOf env s buf, bs.length ≤ content.size) :
    Sat (writeStoredBuffer env bs buf) s (fun r s' => writable env s buf = true ∧ Rest s s' ∧
        r.places = buf.places ∧ r.holds = buf.holds ∧ env.layoutOf r = env.layoutOf buf ∧
        s'.Owned (buf.places ++ places) (buf.holds ++ holders) ∧
        (∀ holders', (∀ k ∈ holders', k ∉ buf.holds) → Same env s s' places holders') ∧
        ∃ old, contentOf env s buf = some (.bytes old) ∧
          contentOf env s' r = some (.bytes (bs ++ old.drop bs.length)))
      fun e s' => writable env s buf = false ∧ (∃ what, e = .exception what) ∧ s' = s := by
  cases buf with
  | constBuffer data size => exact Sat.throw ⟨rfl, ⟨_, rfl⟩, rfl⟩
  | datasizeableBuffer buf =>
    refine Sat.bind (overwriteOwn_spec env h (hle _ rfl)) ?_
    rintro r s' ⟨hrest, hplaces, hs', hsame, hbytes, hlayout⟩
    exact Sat.pure ⟨rfl, hrest, hplaces, rfl, hlayout, hs', fun _ _ => hsame _, _, rfl,
      congrArg (fun bs => some (BufferContent.bytes bs)) hbytes⟩
  | adjustableContentBuffer layout buf adjuster =>
    refine Sat.bind (overwriteOwn_spec env h (hle _ rfl)) ?_
    rintro r s' ⟨hrest, hplaces, hs', hsame, hbytes, -⟩
    exact Sat.pure ⟨rfl, hrest, hplaces, rfl, rfl, hs', fun _ _ => hsame _, _, rfl,
      congrArg (fun bs => some (BufferContent.bytes bs)) hbytes⟩
  | sharedDatasizeableBuffer ofSimple ptr =>
    cases ptr with
    | none => cases hwhole
    | some k =>
      obtain ⟨object, hk⟩ := h.objects.find (List.mem_append_left _ (List.mem_singleton.2 rfl))
      have hcontent : contentOf env s (.sharedDatasizeableBuffer ofSimple (some k)) =
          some (.bytes (datasizeableBytes env s object.value)) := by
        rw [contentOf, Option.bind_some, hk]
        rfl
      refine Sat.of_run_eq (run_bind_of_ok (run_objectAt hk)) ?_
      have hwritable : writable env s (.sharedDatasizeableBuffer ofSimple (some k)) = isMutable env object.value := by
        rw [writable, Option.bind_some, hk]
        rfl
      rw [hwritable]
      split
      next hmutable =>
        refine Sat.bind (overwriteDatasizeable_spec env h
          (fun q hq => List.mem_append_right _ (mem_inside hk hq)) (hle _ hcontent)) ?_
        rintro value s' ⟨hrest, hobjects, hplaces, hs', hframe, hbytes, -⟩
        have hk' : s'.objects.find k = some object := by rw [hobjects, hk]
        refine Sat.modify_bind (Sat.pure ⟨hmutable, ⟨hrest.bufs, hrest.vars, hrest.ptrs⟩, rfl, rfl, rfl, ⟨?_, ?_⟩, ?_,
          _, hcontent, ?_⟩)
        · -- the same buffers are in the objects
          refine hs'.simple.perm (List.Perm.append_left _ ?_)
          have hbefore := (SharedObjects.values_perm hk').flatMap_right Datasizeable.places
          have hafter := (SharedObjects.values_modify hk' fun _ => value).flatMap_right Datasizeable.places
          rw [List.flatMap_cons] at hbefore hafter
          rw [hplaces] at hafter
          exact hbefore.trans hafter.symm
        · exact hs'.objects.modify hk' fun _ => value
        · intro holders' hnot
          refine ⟨fun q hq => ?_, fun j hj => ?_⟩
          · exact hframe q (List.mem_append_left _ hq) fun hmem =>
              not_mem_of_object h hk (List.mem_append_right _ hq) hmem
          · have hne : k ≠ j := fun heq => hnot j hj (List.mem_singleton.2 heq.symm)
            show ((s'.objects.modify k fun _ => value).find j).map _ = _
            rw [SharedObjects.modify, SharedObjects.find_set_ne hne, hobjects]
            cases hother : s.objects.find j with
            | none => rfl
            | some other =>
              refine congrArg some (datasizeableBytes_congr fun q hq => ?_)
              exact hframe q (List.mem_append_right _ (mem_inside hother hq)) (not_mem_of_objects h hk hother hne hq)
        · have hnew := SharedObjects.find_modify hk' fun _ => value
          show ((s'.objects.modify k fun _ => value).find k).map _ = _
          rw [hnew]
          exact congrArg (fun bs => some (BufferContent.bytes bs)) hbytes
      next hmutable => exact Sat.throw ⟨Bool.not_eq_true _ ▸ hmutable, ⟨_, rfl⟩, rfl⟩

theorem writeMutableBuffer_spec (h : s.Sound env) (hbuf : s.bufs[i]? = some (some buf)) (hwhole : buf.isWhole)
    {bs : Bytes} (hle : ∀ c ∈ content env s i, bs.length ≤ c.size) :
    Sat (writeMutableBuffer env i bs) s (fun _ s' => s'.Sound env ∧ writable env s buf = true ∧
        (∀ m, m ≠ i → (∀ buf', s.bufs[m]? = some (some buf') → ∀ k ∈ buf'.holds, k ∉ buf.holds) →
          content env s' m = content env s m) ∧
        (∀ p ∈ s.vars, s'.simple.bytes p = s.simple.bytes p) ∧
        ∃ old, content env s i = some (.bytes old) ∧ content env s' i = some (.bytes (bs ++ old.drop bs.length)))
      fun e s' => writable env s buf = false ∧ (∃ what, e = .exception what) ∧ s' = s := by
  have hlt : i < s.bufs.length := (List.getElem?_eq_some_iff.1 hbuf).1
  rw [content_eq hbuf] at hle ⊢
  refine Sat.of_run_eq (run_bind_of_ok (run_bufAt hbuf))
    (Sat.bind (writeStoredBuffer_spec (owned_at h hbuf) hwhole hle) ?_)
  rintro r s' ⟨hwritable, hrest, hplaces, hholds, hlayout, hs', hsame, old, hold, hnew⟩
  have hlt' : i < s'.bufs.length := by rwa [hrest.bufs]
  refine Sat.modify ⟨?_, hwritable, fun m hne hapart => ?_, fun p hp => ?_, old, hold, ?_⟩
  · refine setBuf_sound hlt' ?_ (hrest.fit h) (hlayout ▸ h.fits_at hbuf)
    rw [hplaces, hholds, hrest.vars, hrest.bufs, hrest.ptrs]
    exact hs'
  · rw [content_setBuf (Ne.symm hne)]
    have hm : (s.bufs.set i none)[m]? = s.bufs[m]? := List.getElem?_set_ne (Ne.symm hne)
    have hsame' : Same env s s' (s.vars ++ placesOf (s.bufs.set i none))
        ((s.bufs[m]?.join.map StoredBuffer.holds).getD []) := by
      refine hsame _ fun k hk => ?_
      cases hbuf' : s.bufs[m]?.join with
      | none =>
        rw [hbuf'] at hk
        cases hk
      | some buf' =>
        rw [hbuf'] at hk
        exact hapart buf' (Option.join_eq_some_iff.1 hbuf') k hk
    refine content_of_same (by rw [hrest.bufs]) hsame' (fun buf hbuf q hq => ?_) fun buf hbuf k hk => ?_
    · exact List.mem_append_right _ (HeterogeneousBuffers.mem_placesOf (hm.trans hbuf) hq)
    · rw [hbuf]
      exact hk
  · exact (hsame [] (by simp)).bytes p (List.mem_append_left _ hp)
  · rw [content_setBuf_self hlt']
    exact hnew

/-! ## Memory that is taken out -/

/-- The memory of a buffer goes to a buffer of the program. -/
theorem moveOut_owned (h : s.Owned places holders) {p q : Nat} (hp : p ∈ places) (hq : q ∈ places ++ s.inside)
    (hne : p ≠ q) :
    ∃ simple, s.simple.call (.moveAssign p q) = .ok simple ∧ Owned { s with simple } places holders ∧
      (∀ r ∈ places ++ s.inside, r ≠ p → r ≠ q → simple.bytes r = s.simple.bytes r) ∧
      simple.bytes p = s.simple.bytes q ∧ simple.bytes q = [] := by
  obtain ⟨simple, hcall, hsimple, hframe, hbytes⟩ := h.simple.moveAssign (List.mem_append_left _ hp) hq hne
  exact ⟨simple, hcall, h.setSimple hsimple, hframe, hbytes⟩

/-- What the memory was taken from is seen by nobody else. -/
theorem moveOut_others (h : s.Sound env) (hbuf : s.bufs[i]? = some (some buf)) {p q : Nat} (hp : p ∈ s.vars)
    {simple : SimpleBuffers} (hframe : ∀ r ∈ s.vars ++ placesOf s.bufs ++ s.inside, r ≠ p → r ≠ q →
      simple.bytes r = s.simple.bytes r) (hvars : q ∉ s.vars) (hplaces : q ∉ placesOf (s.bufs.set i none))
    (hobjects : ∀ k ∈ holdsOf (s.bufs.set i none), ∀ object, s.objects.find k = some object →
      q ∉ object.value.places) : Others env s { s with simple } [i] [p] := by
  have honce := h.owned.simple.once
  have hpbufs : ∀ r ∈ placesOf s.bufs, r ≠ p := fun r hr heq =>
    (List.nodup_append.1 (List.nodup_append.1 honce).1).2.2 p hp r hr heq.symm
  have hpinside : ∀ r ∈ s.inside, r ≠ p := fun r hr heq =>
    (List.nodup_append.1 honce).2.2 p (List.mem_append_left _ hp) r hr heq.symm
  have hsub : ∀ r ∈ placesOf (s.bufs.set i none), r ∈ placesOf s.bufs := fun r hr =>
    (HeterogeneousBuffers.placesOf_take hbuf).mem_iff.2 (List.mem_append_right _ hr)
  have hsame : Same env s { s with simple } (placesOf (s.bufs.set i none)) (holdsOf (s.bufs.set i none)) := by
    refine ⟨fun r hr => ?_, fun k hk => ?_⟩
    · refine hframe r (List.mem_append_left _ (List.mem_append_right _ (hsub r hr))) (hpbufs r (hsub r hr)) ?_
      rintro rfl
      exact hplaces hr
    · show (s.objects.find k).map _ = (s.objects.find k).map _
      cases hobject : s.objects.find k with
      | none => rfl
      | some object =>
        refine congrArg some (datasizeableBytes_congr fun r hr => ?_)
        have hr' := mem_inside hobject hr
        refine hframe r (List.mem_append_right _ hr') (hpinside r hr') ?_
        rintro rfl
        exact hobjects k hk object hobject hr
  refine ⟨le_rfl, fun m hm hnot => ?_, fun _ hr _ => hr, fun r hr hnot => ?_⟩
  · have hne : i ≠ m := fun heq => hnot (heq ▸ List.mem_singleton.2 rfl)
    have hm : (s.bufs.set i none)[m]? = s.bufs[m]? := List.getElem?_set_ne hne
    exact content_of_same rfl hsame (fun buf hbuf q hq => HeterogeneousBuffers.mem_placesOf (hm.trans hbuf) hq)
      fun buf hbuf k hk => HeterogeneousBuffers.mem_holdsOf (hm.trans hbuf) hk
  · refine hframe r (List.mem_append_left _ (List.mem_append_left _ hr)) ?_ ?_
    · rintro rfl
      exact hnot (List.mem_singleton.2 rfl)
    · rintro rfl
      exact hvars hr

/-- Its memory can be had: that of a `simple_buffer_t` which it stores, or which only it points to. -/
def reusable (s : HeterogeneousBuffers δ) : StoredBuffer δ → Bool
  | .constBuffer _ _ => false
  | .datasizeableBuffer buf | .adjustableContentBuffer _ buf _ => buf.isSimple
  | .sharedDatasizeableBuffer ofSimple ptr =>
    ofSimple && (ptr.bind s.objects.find).any fun object => object.useCount ≤ 1 && object.value.isSimple

/-- What comes of asking a buffer for memory. -/
structure Extracts (env : HeterogeneousEnv δ) (s : HeterogeneousBuffers δ) (buf : StoredBuffer δ) (i p : Nat) (r : Bool)
    (s' : HeterogeneousBuffers δ) : Prop where
  rest : Rest s s'
  sound : s'.Sound env
  others : Others env s s' [i] [p]
  result : r = reusable s buf
  kept : r = false → s' = s
  taken : r = true → content env s i = some (.bytes (s'.simple.bytes p)) ∧ content env s' i = some (.bytes [])

theorem extracts_nothing (h : s.Sound env) (hbuf : reusable s buf = false) (i p : Nat) :
    Extracts env s buf i p false s where
  rest := Rest.refl s
  sound := h
  others := Others.refl ..
  result := hbuf.symm
  kept _ := rfl
  taken heq := Bool.noConfusion heq

/-- Memory can be taken out of a `simple_buffer_t` that nobody else sees, which is then gone from there. -/
theorem extractReusableSimpleBuffer_spec (h : s.Sound env) (hbuf : s.bufs[i]? = some (some buf)) (hwhole : buf.isWhole)
    {p : Nat} (hp : p ∈ s.vars) : Sat (extractReusableSimpleBuffer i p) s (Extracts env s buf i p) E := by
  have honce := h.owned.simple.once
  have hat := owned_at h hbuf
  -- the buffer of the program is none of those that others have
  have happart : ∀ q ∈ placesOf s.bufs ++ s.inside, p ≠ q := by
    rintro q hq rfl
    rw [List.append_assoc] at honce
    exact (List.nodup_append.1 honce).2.2 p hp p hq rfl
  -- a buffer that nobody else sees
  have htake : ∀ q, q ∈ placesOf s.bufs ++ s.inside → reusable s buf = true →
      (∀ simple, content env { s with simple } i = some (.bytes (simple.bytes q))) →
      q ∉ s.vars → q ∉ placesOf (s.bufs.set i none) →
      (∀ k ∈ holdsOf (s.bufs.set i none), ∀ object, s.objects.find k = some object → q ∉ object.value.places) →
      Sat (onSimple (·.call (.moveAssign p q)) >>= fun _ => pure true : Heterogeneous δ Bool) s
        (Extracts env s buf i p) E := by
    intro q hq hreusable hcontent hvars hplaces hobjects
    have hq' : q ∈ s.vars ++ placesOf s.bufs ++ s.inside := by
      rw [List.append_assoc]
      exact List.mem_append_right _ hq
    obtain ⟨simple, hcall, hs', hframe, hbytes, hleft⟩ :=
      moveOut_owned h.owned (List.mem_append_left _ hp) hq' (happart q hq)
    refine Sat.of_run_eq (run_bind_of_ok (run_onSimple hcall)) (Sat.pure ?_)
    exact {
      rest := ⟨rfl, rfl, rfl⟩
      sound := ⟨hs', h.fit⟩
      others := moveOut_others h hbuf hp hframe hvars hplaces hobjects
      result := hreusable.symm
      kept := fun heq => Bool.noConfusion heq
      taken := fun _ => ⟨hbytes ▸ hcontent s.simple, hleft ▸ hcontent simple⟩ }
  have hown : ∀ q, buf.places = [q] → reusable s buf = true →
      (∀ simple, content env { s with simple } i = some (.bytes (simple.bytes q))) →
      Sat (onSimple (·.call (.moveAssign p q)) >>= fun _ => pure true : Heterogeneous δ Bool) s
        (Extracts env s buf i p) E := by
    intro q hq hreusable hcontent
    have hmem : q ∈ buf.places := hq ▸ List.mem_singleton.2 rfl
    refine htake q (List.mem_append_left _ (HeterogeneousBuffers.mem_placesOf hbuf hmem)) hreusable hcontent
      (fun hv => ?_) (fun hb => ?_) fun k _ object hobject hv => ?_
    · exact not_mem_of_owned hat (List.mem_append_left _ (List.mem_append_left _ hv)) hmem
    · exact not_mem_of_owned hat (List.mem_append_left _ (List.mem_append_right _ hb)) hmem
    · exact not_mem_of_owned hat (List.mem_append_right _ (mem_inside hobject hv)) hmem
  refine Sat.of_run_eq (run_bind_of_ok (run_bufAt hbuf)) ?_
  cases buf with
  | constBuffer data size => exact Sat.pure (extracts_nothing h rfl i p)
  | datasizeableBuffer buf =>
    cases buf with
    | custom buf => exact Sat.pure (extracts_nothing h rfl i p)
    | simple q => exact hown q rfl rfl fun simple => content_eq (s := { s with simple }) hbuf
  | adjustableContentBuffer _ buf adjuster =>
    cases buf with
    | custom buf => exact Sat.pure (extracts_nothing h rfl i p)
    | simple q => exact hown q rfl rfl fun simple => content_eq (s := { s with simple }) hbuf
  | sharedDatasizeableBuffer ofSimple ptr =>
    cases ptr with
    | none => cases hwhole
    | some k =>
      cases ofSimple with
      | false => exact Sat.pure (extracts_nothing h rfl i p)
      | true =>
        obtain ⟨object, hk⟩ := hat.objects.find (List.mem_append_left _ (List.mem_singleton.2 rfl))
        have hreusable : reusable s (.sharedDatasizeableBuffer true (some k)) =
            (decide (object.useCount ≤ 1) && object.value.isSimple) := by
          rw [reusable, Option.bind_some, hk]
          rfl
        refine Sat.of_run_eq (run_bind_of_ok (run_objectAt hk)) ?_
        split
        next hshared =>
          refine Sat.pure (extracts_nothing h ?_ i p)
          rw [hreusable, decide_eq_false (Nat.not_le.2 hshared)]
          rfl
        next hlast =>
          -- this is the only pointer to the object
          have halone : k ∉ s.ptrs.flatMap Option.toList ++ holdsOf (s.bufs.set i none) :=
            (hat.objects.alone_iff hk).1 (Nat.not_lt.1 hlast)
          rw [decide_eq_true (Nat.not_lt.1 hlast), Bool.true_and] at hreusable
          cases hvalue : object.value with
          | custom buf =>
            refine Sat.pure (extracts_nothing h ?_ i p)
            rw [hreusable, hvalue]
            rfl
          | simple q =>
            have hmem : q ∈ object.value.places := hvalue ▸ List.mem_singleton.2 rfl
            have hcontent : ∀ simple, content env { s with simple } i = some (.bytes (simple.bytes q)) := by
              intro simple
              rw [content_eq (s := { s with simple }) hbuf, contentOf, Option.bind_some, hk, Option.map_some, hvalue]
              rfl
            have hreusable' : reusable s (.sharedDatasizeableBuffer true (some k)) = true := by
              rw [hreusable, hvalue]
              rfl
            refine htake q (List.mem_append_right _ (mem_inside hk hmem)) hreusable' hcontent (fun hv => ?_)
              (fun hb => ?_) fun j hj other hother hv => ?_
            · exact not_mem_of_object hat hk (List.mem_append_right _ (List.mem_append_left _ hv)) hmem
            · exact not_mem_of_object hat hk (List.mem_append_right _ (List.mem_append_right _ hb)) hmem
            · have hne : k ≠ j := by
                rintro rfl
                exact halone (List.mem_append_right _ hj)
              exact not_mem_of_objects hat hk hother hne hv hmem

/-! ## What the program has itself -/

/-- The program works with its own buffers. -/
theorem program_spec (h : s.Sound env) (op : BufferOp) (hnames : ∀ p ∈ op.names, p ∈ s.vars) (hpre : s.simple.Pre op) :
    Sat (program op) s (fun _ s' => s'.Sound env ∧ Others env s s' [] op.targets ∧ s'.bufs = s.bufs ∧
      s'.objects = s.objects ∧ s.simple.call op = .ok s'.simple ∧
      s'.vars = s.vars ++ List.range' s.simple.bufs.length (s'.simple.bufs.length - s.simple.bufs.length)) E := by
  have honce := h.owned.simple.once
  rw [List.append_assoc] at honce
  obtain ⟨simple, hcall, -, hsimple, hframe⟩ := h.owned.simple.call op hpre fun p hp =>
    List.mem_append_left _ (List.mem_append_left _ (hnames p hp))
  -- the buffers that others have are none of its own
  have hothers : ∀ q ∈ placesOf s.bufs ++ s.inside, simple.bytes q = s.simple.bytes q := by
    intro q hq
    refine hframe q (by rw [List.append_assoc]; exact List.mem_append_right _ hq) fun hop => ?_
    exact (List.nodup_append.1 honce).2.2 q (hnames q (op.targets_subset_names hop)) q hq rfl
  have hsame : Same env s { s with simple } (placesOf s.bufs) (holdsOf s.bufs) := Same.of_bytes rfl hothers
  refine Sat.get_bind (Sat.of_run_eq (run_bind_of_ok (run_onSimple hcall)) (Sat.modify ⟨⟨⟨?_, h.owned.objects⟩, h.fit⟩,
    ⟨le_rfl, fun m hm _ => ?_, fun p hp _ => List.mem_append_left _ hp, fun p hp hnot => ?_⟩, rfl, rfl, hcall, rfl⟩))
  · refine hsimple.perm ?_
    rw [List.perm_iff_count]
    intro a
    show _ = ((s.vars ++ List.range' s.simple.bufs.length (simple.bufs.length - s.simple.bufs.length) ++
      placesOf s.bufs) ++ s.inside).count a
    simp only [List.count_append]
    omega
  · exact content_of_same rfl (hsame.with _ _ _) (fun _ hbuf q hq => HeterogeneousBuffers.mem_placesOf hbuf hq)
      fun _ hbuf k hk => HeterogeneousBuffers.mem_holdsOf hbuf hk
  · exact hframe p (List.mem_append_left _ (List.mem_append_left _ hp)) hnot

theorem destroyVar_spec (h : s.Sound env) {p : Nat} (hp : p ∈ s.vars) :
    Sat (destroyVar p) s (fun _ s' => s'.Sound env ∧ Others env s s' [] [p] ∧ s'.bufs = s.bufs) E := by
  have hvars : s.vars ~ [p] ++ s.vars.erase p := List.perm_cons_erase hp
  have howned : s.Owned ((Datasizeable.simple p : Datasizeable δ).places ++ (s.vars.erase p ++ placesOf s.bufs))
      (s.ptrs.flatMap Option.toList ++ holdsOf s.bufs) := by
    refine h.owned.perm ?_ (List.Perm.refl _)
    show _ ~ [p] ++ _
    rw [← List.append_assoc]
    exact hvars.append_right _
  refine Sat.bind (destroyDatasizeable_spec env howned) ?_
  rintro _ s' ⟨hrest, hs', hsame⟩
  have hmem : ∀ q ∈ s.vars, q ∉ [p] → q ∈ s.vars.erase p := fun q hq hnot =>
    (List.mem_append.1 (hvars.mem_iff.1 hq)).resolve_left hnot
  refine Sat.modify ⟨⟨?_, hrest.fit h⟩,
    ⟨hrest.bufs ▸ le_rfl, fun m _ _ => ?_, fun q hq hnot => ?_, fun q hq hnot => ?_⟩, hrest.bufs⟩
  · rw [← hrest.vars, ← hrest.bufs, ← hrest.ptrs] at hs'
    exact hs'.with _ _ _
  · refine content_of_same (show s'.bufs[m]? = _ by rw [hrest.bufs]) (hsame.with _ _ _) (fun buf hbuf q hq => ?_)
      fun buf hbuf k hk => ?_
    · exact List.mem_append_right _ (HeterogeneousBuffers.mem_placesOf hbuf hq)
    · exact List.mem_append_right _ (HeterogeneousBuffers.mem_holdsOf hbuf hk)
  · show q ∈ s'.vars.erase p
    rw [hrest.vars]
    exact hmem q hq hnot
  · exact hsame.bytes q (List.mem_append_left _ (hmem q hq hnot))

/-- What a shared pointer points to. -/
def pointee (env : HeterogeneousEnv δ) (s : HeterogeneousBuffers δ) (q : Nat) : Option Bytes :=
  (s.ptrs[q]?.join.bind s.objects.find).map fun object => datasizeableBytes env s object.value

theorem makeShared_spec (h : s.Sound env) {buf : Datasizeable δ} (hhas : s.Has buf) :
    Sat (makeShared env buf) s (fun _ s' => s'.Sound env ∧ Others env s s' [] buf.places ∧
      pointee env s' s.ptrs.length = some (datasizeableBytes env s buf)) E := by
  refine Sat.bind (moveVar_spec h hhas) ?_
  rintro ⟨new, left⟩ s' ⟨hrest, hs', hothers, hbytes, -⟩
  dsimp only at hs' hbytes
  have hold : ∀ k o, s'.objects.find k = some o → (s'.objects.make new).find k = some o := by
    intro k o hk
    rw [SharedObjects.find_make new (SharedObjects.lt_of_find hk), hk]
  refine Sat.modify ⟨⟨⟨?_, (hs'.objects.make new).perm ?_⟩, hrest.fit h⟩,
    ⟨hothers.length, fun m hm hnot => ?_, hothers.kept, hothers.vars⟩, ?_⟩
  · refine hs'.simple.perm ?_
    rw [List.perm_iff_count]
    intro a
    have hvalues : (s'.objects.make new).values.flatMap Datasizeable.places = s'.inside ++ new.places := by
      rw [SharedObjects.values_make, List.flatMap_append, List.flatMap_singleton]
      rfl
    show _ = ((s'.vars ++ placesOf s'.bufs) ++ (s'.objects.make new).values.flatMap Datasizeable.places).count a
    rw [hvalues]
    simp only [List.count_append]
    omega
  · show _ ~ (s'.ptrs ++ [some s'.objects.length]).flatMap Option.toList ++ holdsOf s'.bufs
    rw [List.flatMap_append, List.perm_iff_count]
    intro a
    simp only [List.count_append, List.count_cons, List.flatMap_singleton, Option.toList_some, List.count_nil]
    omega
  · -- the buffers before hold objects that were there
    rw [← hothers.bufs m hm hnot]
    have hsame : Same env s' { s' with objects := s'.objects.make new } (placesOf s'.bufs) (holdsOf s'.bufs) := by
      refine ⟨fun _ _ => rfl, fun k hk => ?_⟩
      obtain ⟨object, hobject⟩ := hs'.objects.find (List.mem_append_right _ hk)
      show ((s'.objects.make new).find k).map _ = _
      rw [hold k object hobject, hobject]
      rfl
    exact content_of_same rfl (hsame.with _ _ _) (fun _ hbuf q hq => HeterogeneousBuffers.mem_placesOf hbuf hq)
      fun _ hbuf k hk => HeterogeneousBuffers.mem_holdsOf hbuf hk
  · have hptr : (s'.ptrs ++ [some s'.objects.length])[s.ptrs.length]? = some (some s'.objects.length) := by
      rw [← hrest.ptrs, List.getElem?_concat_length]
    rw [pointee]
    dsimp only
    rw [hptr, Option.join_some, Option.bind_some, SharedObjects.find_make_self]
    exact congrArg some hbytes

/-- Nothing but the count of an object, and the pointers of the program. -/
theorem copyPtr_spec (h : s.Sound env) {q : Nat} (hq : q < s.ptrs.length) :
    Sat (copyPtr q) s (fun _ s' => s'.Sound env ∧ Others env s s' [] [] ∧
      pointee env s' s.ptrs.length = pointee env s q) E := by
  obtain ⟨ptr, hptr⟩ : ∃ ptr, s.ptrs[q]? = some ptr := ⟨_, List.getElem?_eq_getElem hq⟩
  cases ptr with
  | none =>
    refine Sat.of_run_eq (y := modify fun s => { s with ptrs := s.ptrs ++ [none] }) (t := s) ?_
      (Sat.modify ⟨⟨?_, h.fit⟩, ⟨le_rfl, fun _ _ _ => rfl, fun _ hp _ => hp, fun _ _ _ => rfl⟩, ?_⟩)
    · rw [copyPtr, run_get_bind, hptr]
    · refine ⟨h.owned.simple, ?_⟩
      show s.objects.Counted ((s.ptrs ++ [none]).flatMap Option.toList ++ holdsOf s.bufs)
      rw [List.flatMap_append]
      simpa using h.owned.objects
    · rw [pointee, pointee, hptr]
      dsimp only
      rw [List.getElem?_concat_length]
      rfl
  | some k =>
    obtain ⟨howned, hsame⟩ := copy_owned env h.owned (List.mem_append_left _ (mem_ptrs hptr))
    have hothers : Others env s { s with objects := s.objects.copy k } [] [] := others_of_same rfl rfl hsame
    refine Sat.of_run_eq (y := modify fun s => { s with ptrs := s.ptrs ++ [some k], objects := s.objects.copy k })
      (t := s) ?_ (Sat.modify ⟨⟨?_, h.fit⟩, ⟨le_rfl, hothers.bufs, fun _ hp _ => hp, fun _ _ _ => rfl⟩, ?_⟩)
    · rw [copyPtr, run_get_bind, hptr]
    · refine (Owned.perm howned (List.Perm.refl _) ?_).with _ _ _
      show _ ~ (s.ptrs ++ [some k]).flatMap Option.toList ++ holdsOf s.bufs
      rw [List.flatMap_append, List.perm_iff_count]
      intro a
      simp only [List.count_append, List.count_cons, List.flatMap_singleton, Option.toList_some, List.count_nil]
      omega
    · rw [pointee, pointee, hptr]
      dsimp only
      rw [List.getElem?_concat_length]
      exact hsame.values k (List.mem_append_left _ (mem_ptrs hptr))

theorem resetPtr_spec (h : s.Sound env) {q : Nat} (hq : q < s.ptrs.length) :
    Sat (resetPtr q) s (fun _ s' => s'.Sound env ∧ Others env s s' [] []) E := by
  obtain ⟨ptr, hptr⟩ : ∃ ptr, s.ptrs[q]? = some ptr := ⟨_, List.getElem?_eq_getElem hq⟩
  refine Sat.of_run_eq (y := letGo ptr) (t := { s with ptrs := s.ptrs.set q none }) ?_ ?_
  · rw [resetPtr, run_get_bind, hptr]
    rfl
  have htake := HeterogeneousBuffers.flatMap_set_perm Option.toList rfl hq ptr
  rw [SimpleBuffers.set_same hptr] at htake
  have howned : Owned { s with ptrs := s.ptrs.set q none } (s.vars ++ placesOf s.bufs)
      (ptr.toList ++ ((s.ptrs.set q none).flatMap Option.toList ++ holdsOf s.bufs)) := by
    refine (h.owned.perm (List.Perm.refl _) ?_).with _ _ _
    rw [← List.append_assoc]
    exact htake.append_right _
  refine (letGo_spec env howned).mono ?_ fun _ _ h => h
  rintro _ s' ⟨hrest, hs', hsame⟩
  refine ⟨⟨?_, hrest.bufs ▸ h.fit⟩, hrest.bufs ▸ le_rfl, fun m _ _ => ?_, fun p hp _ => hrest.vars ▸ hp, fun p hp _ =>
    hsame.bytes p (List.mem_append_left _ hp)⟩
  · rw [hrest.vars, hrest.bufs, hrest.ptrs]
    exact hs'
  · refine (content_of_same (by rw [hrest.bufs]) hsame (fun buf hbuf r hr => ?_) fun buf hbuf k hk => ?_).trans rfl
    · exact List.mem_append_right _ (HeterogeneousBuffers.mem_placesOf hbuf hr)
    · exact List.mem_append_right _ (HeterogeneousBuffers.mem_holdsOf hbuf hk)

theorem lt_of_content {c : BufferContent} (hc : content env s m = some c) : m < s.bufs.length := by
  by_contra hge
  rw [content, List.getElem?_eq_none (Nat.not_lt.1 hge)] at hc
  cases hc

/-- The new buffer has the size. Where the memory of the old one can be had it begins with the bytes of that one,
which is left empty, and otherwise the old one stays as it is. -/
theorem reallocateOutput_spec (h : s.Sound env) (hbuf : s.bufs[i]? = some (some buf)) (hwhole : buf.isWhole) (n : Nat) :
    Sat (reallocateOutput env i n) s (fun _ s' => s'.Sound env ∧ Others env s s' [i] [] ∧
      ∃ bs, content env s' s.bufs.length = some (.bytes bs) ∧ bs.length = n ∧
        if reusable s buf then
          ∃ old, content env s i = some (.bytes old) ∧ content env s' i = some (.bytes []) ∧
            bs.take (min old.length n) = old.take (min old.length n)
        else content env s' i = content env s i) E := by
  have hnew : s.simple.bufs.length ∉ s.vars := fun hmem =>
    absurd (h.owned.simple.here _ (List.mem_append_left _ (List.mem_append_left _ hmem))) (Nat.lt_irrefl _)
  -- a buffer of its own
  refine Sat.get_bind (Sat.bind (program_spec h .construct (by rintro p ⟨⟩) trivial) ?_)
  rintro _ s₁ ⟨hs₁, hothers₁, hbufs₁, hobjects₁, hcall₁, hvars₁⟩
  have hlength₁ : s₁.simple.bufs.length = s.simple.bufs.length + 1 := by
    rw [← Except.ok.inj hcall₁]
    exact List.length_append
  have hmem₁ : s.simple.bufs.length ∈ s₁.vars := by
    rw [hvars₁, hlength₁, Nat.add_sub_cancel_left]
    exact List.mem_append_right _ (List.mem_singleton.2 rfl)
  -- the memory of the old buffer, if it can be had
  refine Sat.bind (extractReusableSimpleBuffer_spec hs₁ (hbufs₁ ▸ hbuf) hwhole hmem₁) ?_
  intro r s₂ hr
  have hmem₂ : s.simple.bufs.length ∈ s₂.vars := hr.rest.vars ▸ hmem₁
  have hlt₂ := hr.sound.owned.simple.here _ (List.mem_append_left _ (List.mem_append_left _ hmem₂))
  refine Sat.bind (program_spec hr.sound (.resize s.simple.bufs.length n)
    (fun p hp => List.mem_singleton.1 hp ▸ hmem₂) hlt₂) ?_
  rintro _ s₃ ⟨hs₃, hothers₃, hbufs₃, -, hcall₃, hvars₃⟩
  obtain ⟨vs, hvs⟩ := hr.sound.owned.simple.represents
  obtain ⟨hsize, hkeeps⟩ := hvs.keepsPromises.resized _ n _ s₃.simple (.inl rfl) hcall₃
  have hmem₃ : s.simple.bufs.length ∈ s₃.vars := by
    rw [hvars₃]
    exact List.mem_append_left _ hmem₂
  -- and the new buffer is made from it
  have hhas₃ : s₃.Has (.simple s.simple.bufs.length) := hmem₃
  refine Sat.bind (constructDatasizeable_spec hs₃ hhas₃ env.fits_simpleBuffer) ?_
  rintro _ s₄ ⟨hs₄, hothers₄, hvars₄, hcontent₄⟩
  refine (destroyVar_spec hs₄ (hvars₄ ▸ hmem₃)).mono ?_ fun _ _ h => h
  rintro _ s₅ ⟨hs₅, hothers₅, hbufs₅⟩
  have hothers : Others env s s₅ [i] [s.simple.bufs.length] := by
    have hnil : ∀ m ∈ ([] : List Nat), m ∈ [i] := by rintro m ⟨⟩
    refine ((((hothers₁.mono hnil ?_).trans (hr.others.mono (fun _ h => h) fun _ _ h => h)).trans
      (hothers₃.mono hnil fun _ _ h => h)).trans (hothers₄.mono hnil fun _ _ h => h)).trans
      (hothers₅.mono hnil fun _ _ h => h)
    rintro p - ⟨⟩
  have hindex : s₃.bufs.length = s.bufs.length := by rw [hbufs₃, hr.rest.bufs, hbufs₁]
  rw [hindex] at hcontent₄
  refine ⟨hs₅, hothers.mono (fun _ h => h) fun p hp hmem => absurd (List.mem_singleton.1 hmem ▸ hp) hnew,
    _, (hothers₅.bufs _ (lt_of_content hcontent₄) List.not_mem_nil).trans hcontent₄, hsize, ?_⟩
  -- what is left of the old buffer
  have hlt := (List.getElem?_eq_some_iff.1 hbuf).1
  have hbefore := hothers₁.bufs i hlt List.not_mem_nil
  have hafter : content env s₅ i = content env s₂ i := by
    have hlt₂' : i < s₂.bufs.length := by rwa [hr.rest.bufs, hbufs₁]
    have hothers₃₄ : Others env s₂ s₄ [] [s.simple.bufs.length] :=
      (hothers₃.mono (fun _ h => h) fun _ _ h => h).trans (hothers₄.mono (fun _ h => h) fun _ _ h => h)
    have hrest := hothers₃₄.trans hothers₅
    exact hrest.bufs i hlt₂' List.not_mem_nil
  have hreusable : reusable s₁ buf = reusable s buf := by
    cases buf <;> simp only [reusable, hobjects₁]
  rw [← hreusable, ← hr.result, hafter]
  cases r with
  | false =>
    rw [hr.kept rfl]
    exact hbefore
  | true =>
    obtain ⟨htaken, hleft⟩ := hr.taken rfl
    exact ⟨_, hbefore.symm.trans htaken, hleft, hkeeps⟩

end Heterogeneous

end Opio.Net
