/-
Who owns what heterogeneous buffers are made of: every `simple_buffer_t` belongs to one heterogeneous
buffer, one shared object or the program, every block of memory to one `simple_buffer_t`, and a shared
object is there for as long as a pointer to it is.
-/
import Opio.Net.HeterogeneousBuffer

namespace Opio.Net

open scoped List

/-! ## Memory is not lost -/

namespace SimpleBuffers

variable {s s' : SimpleBuffers} {vs : List ByteVector} {b : SimpleBuffer} {i : Nat}

theorem getElem_ptrs (hb : s.bufs[i]? = some b) : ∃ hi : i < s.ptrs.length, s.ptrs[i] = b.buf := by
  obtain ⟨hlt, hget⟩ := List.getElem?_eq_some_iff.1 hb
  refine ⟨by rwa [length_ptrs], ?_⟩
  rw [← hget]
  exact List.getElem_map ..

/-- Another size is no other memory. -/
theorem ptrs_setSize (hb : s.bufs[i]? = some b) (n : Nat) :
    ptrs { s with bufs := s.bufs.set i { b with size := n } } = s.ptrs := by
  rw [ptrs, List.map_set]
  exact set_same (by rw [List.getElem?_map, hb]; rfl)

theorem constructWith_noLeak (h : s.heap.NoLeak s.ptrs) (data : Bytes) :
    (s.constructWith data).heap.NoLeak (s.constructWith data).ptrs := by
  unfold constructWith
  split
  · have hptrs : ptrs ⟨s.heap.allocate data, s.bufs ++ [⟨data.length, data.length, some s.heap.length⟩]⟩ =
        s.ptrs ++ [some s.heap.length] := List.map_append
    rw [hptrs]
    exact (h.allocate data).perm (List.perm_append_singleton ..).symm
  · have hptrs : ptrs { s with bufs := s.bufs ++ [{}] } = s.ptrs ++ [none] := List.map_append
    rw [hptrs]
    exact (h.cons none).perm (List.perm_append_singleton ..).symm

theorem resizeTo_noLeak (h : s.heap.NoLeak s.ptrs) {n newCapacity : Nat} (hcall : s.resizeTo i n newCapacity = .ok s') :
    s'.heap.NoLeak s'.ptrs := by
  obtain ⟨b, hget, hcall⟩ := bind_eq_ok.1 hcall
  have hb := of_get hget
  split at hcall
  · rw [← Except.ok.inj hcall, ptrs_setSize hb]
    exact h
  · obtain ⟨data, -, hcall⟩ := bind_eq_ok.1 hcall
    obtain ⟨_, -, hcall⟩ := bind_eq_ok.1 hcall
    obtain ⟨_, -, hcall⟩ := bind_eq_ok.1 hcall
    obtain ⟨hlt, hbuf⟩ := getElem_ptrs hb
    have hput := (h.allocate (data ++ List.replicate (newCapacity - b.size) 0)).put hlt
    rw [hbuf] at hput
    rw [← Except.ok.inj hcall, ptrs, List.map_set]
    exact hput

/-- However buffers are made, moved and resized, no block is lost. -/
theorem call_noLeak (h : s.heap.NoLeak s.ptrs) {op : BufferOp} (hcall : s.call op = .ok s') :
    s'.heap.NoLeak s'.ptrs := by
  cases op with
  | construct =>
    rw [← Except.ok.inj hcall]
    exact constructWith_noLeak h []
  | constructSize | constructFilled | constructFrom | makeFrom =>
    rw [← Except.ok.inj hcall]
    exact constructWith_noLeak h _
  | moveConstruct j =>
    obtain ⟨sb, hget, hcall⟩ := bind_eq_ok.1 hcall
    obtain ⟨hlt, hbuf⟩ := getElem_ptrs (of_get hget)
    have htaken := h.take hlt
    rw [hbuf] at htaken
    have hptrs : ptrs { s with bufs := s.bufs.set j {} ++ [sb] } = s.ptrs.set j none ++ [sb.buf] := by
      rw [ptrs, List.map_append, List.map_set]
      rfl
    rw [← Except.ok.inj hcall, hptrs]
    exact htaken.perm (List.perm_append_singleton ..).symm
  | moveAssign i j =>
    obtain ⟨sb, hget, hcall⟩ := bind_eq_ok.1 hcall
    obtain ⟨b, hget', hcall⟩ := bind_eq_ok.1 hcall
    obtain ⟨_, -, hcall⟩ := bind_eq_ok.1 hcall
    obtain ⟨hlt, hbuf⟩ := getElem_ptrs (of_get hget)
    have htaken := h.take hlt
    rw [hbuf] at htaken
    have hptrs : ptrs { s with bufs := s.bufs.set j {} } = s.ptrs.set j none := List.map_set
    obtain ⟨hlt', hbuf'⟩ := getElem_ptrs (of_get hget')
    rw [← hptrs] at htaken
    have hput := htaken.put hlt'
    rw [hbuf'] at hput
    rw [← Except.ok.inj hcall, ptrs, List.map_set]
    exact hput
  | makeCopy j =>
    obtain ⟨b, -, hcall⟩ := bind_eq_ok.1 hcall
    obtain ⟨data, -, hcall⟩ := bind_eq_ok.1 hcall
    rw [← Except.ok.inj hcall]
    exact constructWith_noLeak h data
  | shrinkSize i n =>
    obtain ⟨b, hget, hcall⟩ := bind_eq_ok.1 hcall
    obtain ⟨_, -, hcall⟩ := bind_eq_ok.1 hcall
    rw [← Except.ok.inj hcall, ptrs_setSize (of_get hget)]
    exact h
  | resize i n => exact resizeTo_noLeak h hcall
  | resizeWithDoubleCapacityGrowth i n =>
    obtain ⟨b, -, hcall⟩ := bind_eq_ok.1 hcall
    exact resizeTo_noLeak h hcall
  | incrementSizeWithDoubleCapacityGrowth i n =>
    obtain ⟨b, -, hcall⟩ := bind_eq_ok.1 hcall
    obtain ⟨b', -, hcall⟩ := bind_eq_ok.1 hcall
    exact resizeTo_noLeak h hcall
  | write i pos x =>
    obtain ⟨b, -, hcall⟩ := bind_eq_ok.1 hcall
    obtain ⟨_, -, hcall⟩ := bind_eq_ok.1 hcall
    cases hbuf : b.buf with
    | none =>
      rw [hbuf] at hcall
      cases hcall
    | some p =>
      rw [hbuf] at hcall
      rw [← Except.ok.inj hcall]
      exact h.modify _ _

theorem fill_noLeak (h : s.heap.NoLeak s.ptrs) {buf : Option Nat} {bs : Bytes} (hcall : s.fill buf bs = .ok s') :
    s'.heap.NoLeak s'.ptrs := by
  unfold fill at hcall
  split at hcall
  · split at hcall
    · rw [← Except.ok.inj hcall]
      exact h.modify _ _
    · cases hcall
  · split at hcall
    · rwa [← Except.ok.inj hcall]
    · cases hcall

theorem discard_noLeak (h : s.heap.NoLeak s.ptrs) (hcall : s.discard i = .ok s') : s'.heap.NoLeak s'.ptrs := by
  obtain ⟨b, hget, hcall⟩ := bind_eq_ok.1 hcall
  obtain ⟨_, -, hcall⟩ := bind_eq_ok.1 hcall
  obtain ⟨hlt, hbuf⟩ := getElem_ptrs (of_get hget)
  have htaken := h.take hlt
  rw [hbuf] at htaken
  rw [← Except.ok.inj hcall, ptrs, List.map_set]
  exact htaken.release

/-! ## Places -/

/-- The buffers at some places are still there, each in one place. The others were destroyed, and have nothing. -/
structure Belong (s : SimpleBuffers) (places : List Nat) : Prop where
  represents : ∃ vs, s.Represents vs
  noLeak : s.heap.NoLeak s.ptrs
  once : places.Nodup
  here : ∀ p ∈ places, p < s.bufs.length
  gone : ∀ p < s.bufs.length, p ∉ places → s.bufs[p]? = some {}

variable {places places' : List Nat} {p : Nat}

theorem belong_nil : Belong {} [] where
  represents := ⟨[], represents_init⟩
  noLeak := Heap.noLeak_nil
  once := List.nodup_nil
  here := by rintro p ⟨⟩
  gone := by rintro p ⟨⟩

theorem Belong.perm (h : s.Belong places) (hp : places ~ places') : s.Belong places' where
  represents := h.represents
  noLeak := h.noLeak
  once := hp.nodup_iff.1 h.once
  here p hmem := h.here p (hp.mem_iff.2 hmem)
  gone p hlt hnot := h.gone p hlt fun hmem => hnot (hp.mem_iff.1 hmem)

theorem Belong.exists_buffer (h : s.Belong places) (hp : p ∈ places) : ∃ b, s.bufs[p]? = some b :=
  ⟨_, List.getElem?_eq_getElem (h.here p hp)⟩

/-- An operation on buffers that belong somewhere. New buffers have yet to be given to somebody. -/
theorem Belong.call (h : s.Belong places) (op : BufferOp) (hpre : s.Pre op) (hnames : ∀ p ∈ op.names, p ∈ places) :
    ∃ s', s.call op = .ok s' ∧ s.bufs.length ≤ s'.bufs.length ∧
      s'.Belong (List.range' s.bufs.length (s'.bufs.length - s.bufs.length) ++ places) ∧
      ∀ q ∈ places, q ∉ op.targets → s'.bytes q = s.bytes q := by
  obtain ⟨vs, hvs⟩ := h.represents
  obtain ⟨s', hcall, hs'⟩ := call_represents hvs hpre
  have hlength : s.bufs.length ≤ s'.bufs.length := by
    rw [hvs.length, hs'.length]
    exact ByteVector.length_le_apply vs op
  have hnew : ∀ q, q ∈ List.range' s.bufs.length (s'.bufs.length - s.bufs.length) ↔
      s.bufs.length ≤ q ∧ q < s'.bufs.length := by
    intro q
    rw [List.mem_range'_1]
    omega
  refine ⟨s', hcall, hlength, ⟨⟨_, hs'⟩, call_noLeak h.noLeak hcall, ?_, ?_, ?_⟩, fun q hq hop =>
    hvs.keepsPromises.independent q op s' (h.here q hq) hop hcall⟩
  · refine List.nodup_append.2 ⟨List.nodup_range', h.once, ?_⟩
    rintro q hq _ hmem rfl
    exact absurd (h.here q hmem) (Nat.not_lt.2 ((hnew q).1 hq).1)
  · intro q hq
    rcases List.mem_append.1 hq with hq | hq
    · exact ((hnew q).1 hq).2
    · exact (h.here q hq).trans_le hlength
  · intro q hq hnot
    rw [List.mem_append, not_or, hnew] at hnot
    have hlt : q < s.bufs.length := by
      by_contra hge
      exact hnot.1 ⟨Nat.not_lt.1 hge, hq⟩
    have hop : q ∉ op.targets := fun hmem => hnot.2 (hnames q (op.targets_subset_names hmem))
    rw [call_frame hcall hlt hop]
    exact h.gone q hlt hnot.2

theorem Belong.moveConstruct (h : s.Belong places) (hp : p ∈ places) :
    ∃ s', s.call (.moveConstruct p) = .ok s' ∧ s'.Belong (s.bufs.length :: places) ∧
      (∀ q ∈ places, q ≠ p → s'.bytes q = s.bytes q) ∧ s'.bytes s.bufs.length = s.bytes p := by
  obtain ⟨s', hcall, -, hs', hframe⟩ := h.call (.moveConstruct p) (h.here p hp)
    fun q hq => List.mem_singleton.1 hq ▸ hp
  have hlength : s'.bufs.length = s.bufs.length + 1 := by
    obtain ⟨sb, -, hcall⟩ := bind_eq_ok.1 hcall
    rw [← Except.ok.inj hcall]
    show (s.bufs.set p {} ++ [sb]).length = _
    rw [List.length_append, List.length_set]
    rfl
  obtain ⟨vs, hvs⟩ := h.represents
  rw [hlength, Nat.add_sub_cancel_left] at hs'
  exact ⟨s', hcall, hs', fun q hq hne => hframe q hq fun hmem => hne (List.mem_singleton.1 hmem),
    (hvs.keepsPromises.moveConstructed p s' hcall).2⟩

theorem Belong.moveAssign (h : s.Belong places) {q : Nat} (hp : p ∈ places) (hq : q ∈ places) (hne : p ≠ q) :
    ∃ s', s.call (.moveAssign p q) = .ok s' ∧ s'.Belong places ∧
      (∀ r ∈ places, r ≠ p → r ≠ q → s'.bytes r = s.bytes r) ∧ s'.bytes p = s.bytes q ∧ s'.bytes q = [] := by
  obtain ⟨s', hcall, -, hs', hframe⟩ := h.call (.moveAssign p q) ⟨h.here p hp, h.here q hq⟩
    (by simp only [BufferOp.names, BufferOp.targets, List.mem_cons, List.not_mem_nil, or_false]
        rintro r (rfl | rfl) <;> assumption)
  have hlength : s'.bufs.length = s.bufs.length := by
    obtain ⟨sb, -, hcall⟩ := bind_eq_ok.1 hcall
    obtain ⟨b, -, hcall⟩ := bind_eq_ok.1 hcall
    obtain ⟨_, -, hcall⟩ := bind_eq_ok.1 hcall
    rw [← Except.ok.inj hcall]
    show ((s.bufs.set q {}).set p sb).length = _
    rw [List.length_set, List.length_set]
  obtain ⟨vs, hvs⟩ := h.represents
  rw [hlength, Nat.sub_self] at hs'
  obtain ⟨hleft, hbytes⟩ := hvs.keepsPromises.moveAssigned p q s' hne hcall
  refine ⟨s', hcall, hs', fun r hr hrp hrq => hframe r hr ?_, hbytes, by rw [bytes, hleft]; rfl⟩
  simp only [BufferOp.targets, List.mem_cons, List.not_mem_nil, or_false, not_or]
  exact ⟨hrp, hrq⟩

/-- The end of a buffer is the end of its place. -/
theorem Belong.discard (h : s.Belong (p :: places)) :
    ∃ s', s.discard p = .ok s' ∧ s'.Belong places ∧ ∀ q ∈ places, s'.bytes q = s.bytes q := by
  obtain ⟨vs, hvs⟩ := h.represents
  obtain ⟨b, hb⟩ := h.exists_buffer List.mem_cons_self
  obtain ⟨s', hdiscard, hbufs, hs'⟩ := discard_represents hvs hb
  obtain ⟨hnot, honce⟩ := List.nodup_cons.1 h.once
  have hlength : s'.bufs.length = s.bufs.length := by rw [hbufs, List.length_set]
  refine ⟨s', hdiscard, ⟨⟨_, hs'⟩, discard_noLeak h.noLeak hdiscard, honce, fun q hq => ?_, fun q hq hq' => ?_⟩,
    fun q hq => ?_⟩
  · rw [hlength]
    exact h.here q (List.mem_cons_of_mem p hq)
  · rw [hlength] at hq
    by_cases hqp : p = q
    · rw [hbufs, ← hqp, List.getElem?_set_self (hqp ▸ hq)]
    · rw [hbufs, List.getElem?_set_ne hqp]
      exact h.gone q hq fun hmem => (List.mem_cons.1 hmem).elim (fun heq => hqp heq.symm) hq'
  · have hne : p ≠ q := fun heq => hnot (heq ▸ hq)
    rw [hvs.bytes, hs'.bytes, List.getElem?_set_ne hne]

theorem bytes_overwrite (v : ByteVector) {bs : Bytes} (hle : bs.length ≤ v.size) :
    (v.overwrite bs).bytes = bs ++ v.bytes.drop bs.length := by
  show (bs ++ v.storage.drop bs.length).take v.size = bs ++ (v.storage.take v.size).drop bs.length
  rw [List.take_append, List.take_of_length_le hle, List.drop_take]

/-- What is written to a buffer is seen there only. -/
theorem Belong.fill (h : s.Belong places) (hb : s.bufs[p]? = some b) {bs : Bytes}
    (hle : bs.length ≤ (s.bytes p).length) :
    ∃ s', s.fill b.buf bs = .ok s' ∧ s'.Belong places ∧ (∀ q ∈ places, q ≠ p → s'.bytes q = s.bytes q) ∧
      s'.bytes p = bs ++ (s.bytes p).drop bs.length := by
  obtain ⟨vs, hvs⟩ := h.represents
  obtain ⟨v, hv, hsize, -, -⟩ := hvs.get hb
  rw [hvs.bytes_of hv, ByteVector.length_bytes] at hle
  obtain ⟨s', hfill, hbufs, hs'⟩ := fill_represents hvs hb hv (hsize ▸ hle)
  refine ⟨s', hfill, ⟨⟨_, hs'⟩, fill_noLeak h.noLeak hfill, h.once, ?_, ?_⟩, fun q hq hne => ?_, ?_⟩
  · rw [hbufs]
    exact h.here
  · rw [hbufs]
    exact h.gone
  · rw [hvs.bytes, hs'.bytes, List.getElem?_set_ne (Ne.symm hne)]
  · have hlt := (List.getElem?_eq_some_iff.1 hv).1
    rw [hvs.bytes_of hv, hs'.bytes_of (List.getElem?_set_self hlt)]
    exact bytes_overwrite v hle

/-- Where nobody has a buffer, no memory is left. -/
theorem Belong.find_nil (h : s.Belong []) (b : Nat) : s.heap.find b = none := by
  cases hfind : s.heap.find b with
  | none => rfl
  | some block =>
    obtain ⟨i, hi⟩ := List.mem_iff_getElem?.1 (h.noLeak b block hfind)
    rw [ptrs, List.getElem?_map] at hi
    obtain ⟨buf, hbuf, hptr⟩ := Option.map_eq_some_iff.1 hi
    rw [h.gone i (List.getElem?_eq_some_iff.1 hbuf).1 List.not_mem_nil] at hbuf
    rw [← Option.some.inj hbuf] at hptr
    cases hptr

end SimpleBuffers

/-! ## What heterogeneous buffers are made of -/

variable {δ : Type}

/-- The `simple_buffer_t` it is. -/
def Datasizeable.places : Datasizeable δ → List Nat
  | .simple place => [place]
  | .custom _ => []

/-- The `simple_buffer_t` it stores. -/
def StoredBuffer.places : StoredBuffer δ → List Nat
  | .constBuffer _ _ => []
  | .datasizeableBuffer buf => buf.places
  | .sharedDatasizeableBuffer _ _ => []
  | .adjustableContentBuffer _ buf _ => buf.places

/-- The shared object it holds. -/
def StoredBuffer.holds : StoredBuffer δ → List Nat
  | .sharedDatasizeableBuffer _ ptr => ptr.toList
  | _ => []

namespace HeterogeneousBuffers

def placesOf (bufs : List (Option (StoredBuffer δ))) : List Nat :=
  bufs.flatMap fun buf => (buf.map StoredBuffer.places).getD []

def holdsOf (bufs : List (Option (StoredBuffer δ))) : List Nat :=
  bufs.flatMap fun buf => (buf.map StoredBuffer.holds).getD []

/-- The `simple_buffer_t` in shared objects. -/
def inside (s : HeterogeneousBuffers δ) : List Nat := s.objects.values.flatMap Datasizeable.places

/-- Every `simple_buffer_t` is in one of some places or in one shared object, and every shared object is held
as often as it counts. -/
structure Owned (s : HeterogeneousBuffers δ) (places holders : List Nat) : Prop where
  simple : s.simple.Belong (places ++ s.inside)
  objects : s.objects.Counted holders

/-- What is stored has room in its storage. -/
def AllFit (env : HeterogeneousEnv δ) (bufs : List (Option (StoredBuffer δ))) : Prop :=
  ∀ buf, some buf ∈ bufs → env.Fits (env.layoutOf buf)

/-- Nothing belongs to two, and nothing to nobody, and what is stored has room. -/
structure Sound (env : HeterogeneousEnv δ) (s : HeterogeneousBuffers δ) : Prop where
  owned : s.Owned (s.vars ++ placesOf s.bufs) (s.ptrs.flatMap Option.toList ++ holdsOf s.bufs)
  fit : AllFit env s.bufs

variable {s s' s'' : HeterogeneousBuffers δ} {places places' holders holders' : List Nat}

theorem Owned.perm (h : s.Owned places holders) (hp : places ~ places') (hh : holders ~ holders') :
    s.Owned places' holders' :=
  ⟨h.simple.perm (hp.append_right _), h.objects.perm hh⟩

/-- Only the `simple_buffer_t` and their places are others. -/
theorem Owned.setSimple (h : s.Owned places holders) {simple : SimpleBuffers} {places' : List Nat}
    (hs : simple.Belong (places' ++ s.inside)) : Owned { s with simple } places' holders :=
  ⟨hs, h.objects⟩

/-- The buffer at an index comes first. -/
theorem flatMap_set_perm {α β : Type} (f : Option α → List β) (hnone : f none = []) {l : List (Option α)} {i : Nat}
    (hi : i < l.length) (a : Option α) : (l.set i a).flatMap f ~ f a ++ (l.set i none).flatMap f := by
  have hset := (List.set_perm_cons_eraseIdx hi a).flatMap_right f
  have hnone' := (List.set_perm_cons_eraseIdx hi none).flatMap_right f
  rw [List.flatMap_cons] at hset hnone'
  rw [hnone, List.nil_append] at hnone'
  exact hset.trans (hnone'.symm.append_left _)

variable {bufs : List (Option (StoredBuffer δ))} {buf : StoredBuffer δ} {i : Nat}

theorem placesOf_set (hi : i < bufs.length) (buf : StoredBuffer δ) :
    placesOf (bufs.set i (some buf)) ~ buf.places ++ placesOf (bufs.set i none) :=
  flatMap_set_perm _ rfl hi (some buf)

theorem holdsOf_set (hi : i < bufs.length) (buf : StoredBuffer δ) :
    holdsOf (bufs.set i (some buf)) ~ buf.holds ++ holdsOf (bufs.set i none) :=
  flatMap_set_perm _ rfl hi (some buf)

theorem AllFit.concat {env : HeterogeneousEnv δ} (h : AllFit env bufs) (hbuf : env.Fits (env.layoutOf buf)) :
    AllFit env (bufs ++ [some buf]) := by
  intro b hb
  rcases List.mem_append.1 hb with hb | hb
  · exact h b hb
  · obtain rfl := Option.some.inj (List.mem_singleton.1 hb)
    exact hbuf

theorem AllFit.set {env : HeterogeneousEnv δ} (h : AllFit env bufs) (hbuf : env.Fits (env.layoutOf buf)) (i : Nat) :
    AllFit env (bufs.set i (some buf)) := by
  intro b hb
  rcases List.mem_or_eq_of_mem_set hb with hb | hb
  · exact h b hb
  · obtain rfl := Option.some.inj hb
    exact hbuf

theorem AllFit.destroy {env : HeterogeneousEnv δ} (h : AllFit env bufs) (i : Nat) : AllFit env (bufs.set i none) := by
  intro b hb
  rcases List.mem_or_eq_of_mem_set hb with hb | hb
  · exact h b hb
  · cases hb

theorem placesOf_take (hbuf : bufs[i]? = some (some buf)) :
    placesOf bufs ~ buf.places ++ placesOf (bufs.set i none) := by
  have hset := placesOf_set (List.getElem?_eq_some_iff.1 hbuf).1 buf
  rwa [SimpleBuffers.set_same hbuf] at hset

theorem holdsOf_take (hbuf : bufs[i]? = some (some buf)) : holdsOf bufs ~ buf.holds ++ holdsOf (bufs.set i none) := by
  have hset := holdsOf_set (List.getElem?_eq_some_iff.1 hbuf).1 buf
  rwa [SimpleBuffers.set_same hbuf] at hset

theorem placesOf_concat (bufs : List (Option (StoredBuffer δ))) (buf : StoredBuffer δ) :
    placesOf (bufs ++ [some buf]) ~ buf.places ++ placesOf bufs := by
  rw [placesOf, List.flatMap_append, List.flatMap_singleton]
  exact List.perm_append_comm

theorem holdsOf_concat (bufs : List (Option (StoredBuffer δ))) (buf : StoredBuffer δ) :
    holdsOf (bufs ++ [some buf]) ~ buf.holds ++ holdsOf bufs := by
  rw [holdsOf, List.flatMap_append, List.flatMap_singleton]
  exact List.perm_append_comm

end HeterogeneousBuffers

/-! ## Moving, destroying, writing -/

namespace Heterogeneous

open HeterogeneousBuffers (Owned)

variable {env : HeterogeneousEnv δ} {s s' s'' : HeterogeneousBuffers δ} {places holders : List Nat}
  {E : HeterogeneousStop → HeterogeneousBuffers δ → Prop}

/-- Nothing was done but to what buffers are made of. -/
structure Rest (s s' : HeterogeneousBuffers δ) : Prop where
  bufs : s'.bufs = s.bufs
  vars : s'.vars = s.vars
  ptrs : s'.ptrs = s.ptrs

theorem Rest.refl (s : HeterogeneousBuffers δ) : Rest s s := ⟨rfl, rfl, rfl⟩

theorem Rest.trans (h : Rest s s') (h' : Rest s' s'') : Rest s s'' :=
  ⟨h'.bufs.trans h.bufs, h'.vars.trans h.vars, h'.ptrs.trans h.ptrs⟩

/-- What is at some places and in some objects is what was. -/
structure Same (env : HeterogeneousEnv δ) (s s' : HeterogeneousBuffers δ) (places holders : List Nat) : Prop where
  bytes : ∀ q ∈ places, s'.simple.bytes q = s.simple.bytes q
  values : ∀ k ∈ holders, (s'.objects.find k).map (fun object => datasizeableBytes env s' object.value) =
    (s.objects.find k).map fun object => datasizeableBytes env s object.value

theorem Same.refl (s : HeterogeneousBuffers δ) (places holders : List Nat) : Same env s s places holders :=
  ⟨fun _ _ => rfl, fun _ _ => rfl⟩

theorem Same.trans (h : Same env s s' places holders) (h' : Same env s' s'' places holders) :
    Same env s s'' places holders :=
  ⟨fun q hq => (h'.bytes q hq).trans (h.bytes q hq), fun k hk => (h'.values k hk).trans (h.values k hk)⟩

theorem Same.mono {places' holders' : List Nat} (h : Same env s s' places holders) (hp : ∀ q ∈ places', q ∈ places)
    (hh : ∀ k ∈ holders', k ∈ holders) : Same env s s' places' holders' :=
  ⟨fun q hq => h.bytes q (hp q hq), fun k hk => h.values k (hh k hk)⟩

theorem datasizeableBytes_congr {buf : Datasizeable δ}
    (h : ∀ q ∈ buf.places, s'.simple.bytes q = s.simple.bytes q) :
    datasizeableBytes env s' buf = datasizeableBytes env s buf := by
  cases buf with
  | simple place => exact h place (List.mem_singleton.2 rfl)
  | custom buf => rfl

/-- A stored buffer refers to the same as long as what it is made of is the same. -/
theorem Same.contentOf {buf : StoredBuffer δ} (h : Same env s s' buf.places buf.holds) :
    contentOf env s' buf = contentOf env s buf := by
  cases buf with
  | constBuffer data size => rfl
  | datasizeableBuffer buf | adjustableContentBuffer _ buf adjuster =>
    exact congrArg (fun bs => some (BufferContent.bytes bs)) (datasizeableBytes_congr h.bytes)
  | sharedDatasizeableBuffer ofSimple ptr =>
    cases ptr with
    | none => rfl
    | some k =>
      have hvalue := congrArg (Option.map BufferContent.bytes) (h.values k (List.mem_singleton.2 rfl))
      rw [Option.map_map, Option.map_map] at hvalue
      exact hvalue

theorem mem_inside {k q : Nat} {object : Shared (Datasizeable δ)} (hk : s.objects.find k = some object)
    (hq : q ∈ object.value.places) : q ∈ s.inside :=
  List.mem_flatMap.2 ⟨object.value, SharedObjects.mem_values hk, hq⟩

/-- The same bytes in the same objects. -/
theorem Same.of_bytes (hobjects : s'.objects = s.objects)
    (h : ∀ q ∈ places ++ s.inside, s'.simple.bytes q = s.simple.bytes q) : Same env s s' places holders := by
  refine ⟨fun q hq => h q (List.mem_append_left _ hq), fun k _ => ?_⟩
  rw [hobjects]
  cases hk : s.objects.find k with
  | none => rfl
  | some object =>
    refine congrArg some (datasizeableBytes_congr fun q hq => ?_)
    exact h q (List.mem_append_right _ (mem_inside hk hq))

theorem run_onSimple {f : SimpleBuffers → Except BufferFault SimpleBuffers} {simple : SimpleBuffers}
    (h : f s.simple = .ok simple) : (onSimple f).run s = .ok () { s with simple } := by
  rw [onSimple, run_get_bind, h]
  rfl

theorem run_objectAt {k : Nat} {object : Shared (Datasizeable δ)} (h : s.objects.find k = some object) :
    (objectAt k).run s = .ok object s := by
  rw [objectAt, run_get_bind, h]
  rfl

theorem moveDatasizeable_spec {buf : Datasizeable δ} (h : s.Owned (buf.places ++ places) holders) :
    Sat (moveDatasizeable env buf) s (fun r s' => Rest s s' ∧ s'.Owned (r.1.places ++ (r.2.places ++ places)) holders ∧
      r.2.places = buf.places ∧ Same env s s' places holders ∧
      datasizeableBytes env s' r.1 = datasizeableBytes env s buf ∧
      env.datasizeableLayout r.1 = env.datasizeableLayout buf ∧
      env.datasizeableLayout r.2 = env.datasizeableLayout buf) E := by
  cases buf with
  | custom buf => exact Sat.pure ⟨Rest.refl s, h, rfl, Same.refl .., rfl, rfl, env.customBuffer_movedFrom buf⟩
  | simple place =>
    have hbelong : s.simple.Belong (place :: (places ++ s.inside)) := h.simple
    obtain ⟨simple, hcall, hsimple, hframe, hnew⟩ := hbelong.moveConstruct List.mem_cons_self
    refine Sat.of_run_ok (a := (.simple s.simple.bufs.length, .simple place)) (t := { s with simple }) ?_ ?_
    · show ((onSimple (·.call (.moveConstruct place))) >>= fun _ =>
        pure (.simple s.simple.bufs.length, .simple place) :
          Heterogeneous δ (Datasizeable δ × Datasizeable δ)).run s = _
      rw [run_bind_of_ok (run_onSimple hcall)]
      rfl
    · refine ⟨⟨rfl, rfl, rfl⟩, h.setSimple hsimple, rfl, Same.of_bytes rfl fun q hq => ?_, hnew, rfl, rfl⟩
      refine hframe q (List.mem_cons_of_mem _ hq) ?_
      rintro rfl
      exact (List.nodup_cons.1 hbelong.once).1 hq

variable (env) in
theorem destroyDatasizeable_spec {buf : Datasizeable δ} (h : s.Owned (buf.places ++ places) holders) :
    Sat (destroyDatasizeable buf) s (fun _ s' => Rest s s' ∧ s'.Owned places holders ∧
      Same env s s' places holders) E := by
  cases buf with
  | custom buf => exact Sat.pure ⟨Rest.refl s, h, Same.refl ..⟩
  | simple place =>
    obtain ⟨simple, hcall, hsimple, hframe⟩ := SimpleBuffers.Belong.discard h.simple
    refine Sat.of_run_ok (run_onSimple hcall) ⟨⟨rfl, rfl, rfl⟩, h.setSimple hsimple, Same.of_bytes rfl hframe⟩

variable (env) in
theorem overwriteDatasizeable_spec {buf : Datasizeable δ} (h : s.Owned places holders)
    (hplaces : ∀ q ∈ buf.places, q ∈ places ++ s.inside) {bs : Bytes}
    (hle : bs.length ≤ (datasizeableBytes env s buf).length) :
    Sat (overwriteDatasizeable env bs buf) s (fun r s' => Rest s s' ∧ s'.objects = s.objects ∧ r.places = buf.places ∧
      s'.Owned places holders ∧ (∀ q ∈ places ++ s.inside, q ∉ buf.places → s'.simple.bytes q = s.simple.bytes q) ∧
      datasizeableBytes env s' r = bs ++ (datasizeableBytes env s buf).drop bs.length ∧
      env.datasizeableLayout r = env.datasizeableLayout buf) E := by
  cases buf with
  | custom buf =>
    exact Sat.pure ⟨Rest.refl s, rfl, rfl, h, fun _ _ _ => rfl, env.bytes_overwrite bs buf hle,
      env.customBuffer_overwrite bs buf⟩
  | simple place =>
    obtain ⟨b, hb⟩ := h.simple.exists_buffer (hplaces place (List.mem_singleton.2 rfl))
    obtain ⟨simple, hfill, hsimple, hframe, hbytes⟩ := h.simple.fill hb hle
    refine Sat.of_run_ok (a := .simple place) (t := { s with simple }) ?_ ?_
    · rw [overwriteDatasizeable, run_get_bind, hb]
      dsimp only
      rw [run_bind_of_ok (run_onSimple hfill)]
      rfl
    · refine ⟨⟨rfl, rfl, rfl⟩, rfl, rfl, h.setSimple hsimple, fun q hq hne => hframe q hq ?_, hbytes, rfl⟩
      rintro rfl
      exact hne (List.mem_singleton.2 rfl)

variable (env) in
/-- The object goes with its last pointer, and what is in it. -/
theorem letGo_spec {ptr : Option Nat} (h : s.Owned places (ptr.toList ++ holders)) :
    Sat (letGo ptr) s (fun _ s' => Rest s s' ∧ s'.Owned places holders ∧ Same env s s' places holders) E := by
  cases ptr with
  | none => exact Sat.pure ⟨Rest.refl s, h, Same.refl ..⟩
  | some k =>
    have hcounted : s.objects.Counted (k :: holders) := h.objects
    obtain ⟨object, hk⟩ := hcounted.find List.mem_cons_self
    refine Sat.of_run_eq (t := { s with objects := s.objects.drop k })
      (y := if object.useCount ≤ 1 then destroyDatasizeable object.value else pure ()) ?_ ?_
    · show (objectAt k >>= fun object => modify (fun s => { s with objects := s.objects.drop k }) >>= fun _ =>
        if object.useCount ≤ 1 then destroyDatasizeable object.value else pure () : Heterogeneous δ Unit).run s = _
      rw [run_bind_of_ok (run_objectAt hk)]
      rfl
    have hvalues : ∀ j ∈ holders, ((s.objects.drop k).find j).map (·.value) = (s.objects.find j).map (·.value) := by
      intro j hj
      by_cases hjk : k = j
      · subst hjk
        have hlast : ¬ object.useCount ≤ 1 := fun hle => (hcounted.alone_iff hk).1 hle hj
        rw [SharedObjects.find_drop hk, if_neg hlast, hk]
        rfl
      · rw [SharedObjects.drop, SharedObjects.find_set_ne hjk]
    have hsame : Same env s { s with objects := s.objects.drop k } places holders := by
      refine ⟨fun _ _ => rfl, fun j hj => ?_⟩
      have heq := congrArg (Option.map (datasizeableBytes env s)) (hvalues j hj)
      rw [Option.map_map, Option.map_map] at heq
      exact heq
    split
    next hlast =>
      have hperm := (SharedObjects.values_drop_last hk hlast).flatMap_right Datasizeable.places
      rw [List.flatMap_cons] at hperm
      have howned : HeterogeneousBuffers.Owned { s with objects := s.objects.drop k } (object.value.places ++ places)
          holders := by
        refine ⟨h.simple.perm ((hperm.append_left places).trans ?_), hcounted.drop⟩
        rw [← List.append_assoc]
        exact List.perm_append_comm.append_right _
      refine (destroyDatasizeable_spec env howned).mono ?_ fun _ _ h => h
      rintro _ s' ⟨hrest, hs', hsame'⟩
      exact ⟨⟨hrest.bufs, hrest.vars, hrest.ptrs⟩, hs', hsame.trans hsame'⟩
    next hlast =>
      have hperm := (SharedObjects.values_drop hk (Nat.not_le.1 hlast)).flatMap_right Datasizeable.places
      exact Sat.pure ⟨⟨rfl, rfl, rfl⟩, ⟨h.simple.perm (hperm.symm.append_left places), hcounted.drop⟩, hsame⟩

variable (env) in
theorem destroyStoredBuffer_spec {buf : StoredBuffer δ} (h : s.Owned (buf.places ++ places) (buf.holds ++ holders)) :
    Sat (destroyStoredBuffer buf) s (fun _ s' => Rest s s' ∧ s'.Owned places holders ∧
      Same env s s' places holders) E := by
  cases buf with
  | constBuffer data size => exact Sat.pure ⟨Rest.refl s, h, Same.refl ..⟩
  | datasizeableBuffer buf | adjustableContentBuffer _ buf adjuster => exact destroyDatasizeable_spec env h
  | sharedDatasizeableBuffer ofSimple ptr => exact letGo_spec env h

/-- What has room is made, and nothing else. -/
theorem placementNew_spec (buf : StoredBuffer δ) (hfits : env.Fits (env.layoutOf buf)) :
    Sat (placementNew env buf) s (fun r s' => r = buf ∧ s' = s) E := by
  rw [placementNew, if_pos hfits]
  exact Sat.pure ⟨rfl, rfl⟩

/-- What a buffer refers to goes with it to its new place. -/
theorem relocateTo_spec {buf : StoredBuffer δ} (h : s.Owned (buf.places ++ places) (buf.holds ++ holders))
    (hfits : env.Fits (env.layoutOf buf)) :
    Sat (relocateTo env buf) s (fun r s' => Rest s s' ∧
      s'.Owned (r.1.places ++ (r.2.places ++ places)) (r.1.holds ++ (r.2.holds ++ holders)) ∧
      Same env s s' places holders ∧ contentOf env s' r.1 = contentOf env s buf ∧
      env.layoutOf r.1 = env.layoutOf buf ∧ env.layoutOf r.2 = env.layoutOf buf) E := by
  cases buf with
  | constBuffer data size =>
    refine Sat.bind (placementNew_spec _ hfits) ?_
    rintro _ _ ⟨rfl, rfl⟩
    exact Sat.pure ⟨Rest.refl _, h, Same.refl .., rfl, rfl, rfl⟩
  | sharedDatasizeableBuffer ofSimple ptr =>
    refine Sat.bind (placementNew_spec _ hfits) ?_
    rintro _ _ ⟨rfl, rfl⟩
    exact Sat.pure ⟨Rest.refl _, h, Same.refl .., rfl, rfl, rfl⟩
  | datasizeableBuffer buf =>
    refine Sat.bind (moveDatasizeable_spec h) ?_
    rintro ⟨new, left⟩ s' ⟨hrest, hs', -, hsame, hbytes, hnew, hleft⟩
    refine Sat.bind (placementNew_spec _ (show env.Fits (env.datasizeableLayout new) from hnew ▸ hfits)) ?_
    rintro _ _ ⟨rfl, rfl⟩
    exact Sat.pure ⟨hrest, hs', hsame, congrArg (fun bs => some (BufferContent.bytes bs)) hbytes, hnew, hleft⟩
  | adjustableContentBuffer layout buf adjuster =>
    refine Sat.bind (moveDatasizeable_spec h) ?_
    rintro ⟨new, left⟩ s' ⟨hrest, hs', -, hsame, hbytes, -, -⟩
    refine Sat.bind (placementNew_spec (.adjustableContentBuffer layout new adjuster) hfits) ?_
    rintro _ _ ⟨rfl, rfl⟩
    exact Sat.pure ⟨hrest, hs', hsame, congrArg (fun bs => some (BufferContent.bytes bs)) hbytes, rfl, rfl⟩

end Heterogeneous

end Opio.Net
