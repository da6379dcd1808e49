/-
`pkg_input_t` as a queue: whatever the capacity of its ring and whatever order its operations come
in, as long as each meets its precondition the ring behaves as a plain list of bytes with a stream
on its front.
-/
import Opio.Lib.Runs
import Opio.Lib.StreamFifo
import Opio.ProtoEntry.RingOps

namespace Opio.ProtoEntry.PkgInput

variable {cap : Nat} [NeZero cap]

/-! ## Calls -/

/-- A call of one of the operations. -/
inductive Call
  | append (buf : Bytes)
  | next
  | backUp (count : Nat)
  | skip (count : Nat)
  | skipBytes (n : Nat)
  | viewPkgHeader
  | readBuffer (n : Nat)

/-- The operation of the byte queue a call stands for. -/
def Call.toOp : Call → StreamFifo.Op UInt8
  | .append buf => .append buf
  | .next => .next
  | .backUp count => .backUp count
  | .skip count => .skip count
  | .skipBytes n => .drop n
  | .viewPkgHeader => .view sizeofPkgHeader
  | .readBuffer n => .read n

/-- Makes a call; a header comes out as the bytes of its memory. -/
def call (q : PkgInput cap) : Call → Except Fault (StreamFifo.Out UInt8 × PkgInput cap)
  | .append buf => do return (.done, ← q.append buf)
  | .next => do
    let (b, q) ← q.next
    return (.block b, q)
  | .backUp count => do return (.done, ← q.backUp count)
  | .skip count => do
    let (all, q) ← q.skip count
    return (.skipped all, q)
  | .skipBytes n => do return (.done, ← q.skipBytes n)
  | .viewPkgHeader => do return (.elems (← q.viewPkgHeader).image, q)
  | .readBuffer n => do
    let (bytes, q) ← q.readBuffer n
    return (.elems bytes, q)

/-- The preconditions of the operations, over what a slot may hold for its size to fit an `int`. -/
def Pre (q : PkgInput cap) (c : Call) : Prop :=
  (∀ i < q.buffersCount, (q.slot i).length < 2 ^ 31) ∧
    match c with
    | .append _ => q.firstBufferServed = false
    | .next => True
    | .backUp count => q.firstBufferServed = true ∧ count ≤ q.remainedInTheFirstBuffer
    | .skip count => count ≤ q.view.flatten.length
    | .skipBytes n => q.firstBufferServed = false ∧ n ≤ q.size
    | .viewPkgHeader => q.firstBufferServed = false ∧ sizeofPkgHeader ≤ q.size
    | .readBuffer n => q.firstBufferServed = false ∧ 1 ≤ n ∧ n ≤ q.size

instance (q : PkgInput cap) (c : Call) : Decidable (Pre q c) :=
  have : Decidable (match c with
      | .append _ => q.firstBufferServed = false
      | .next => True
      | .backUp count => q.firstBufferServed = true ∧ count ≤ q.remainedInTheFirstBuffer
      | .skip count => count ≤ q.view.flatten.length
      | .skipBytes n => q.firstBufferServed = false ∧ n ≤ q.size
      | .viewPkgHeader => q.firstBufferServed = false ∧ sizeofPkgHeader ≤ q.size
      | .readBuffer n => q.firstBufferServed = false ∧ 1 ≤ n ∧ n ≤ q.size) := by
    cases c <;> infer_instance
  inferInstanceAs (Decidable (_ ∧ _))

/-- The ring holds what the byte queue holds, and its counters say so. -/
structure Refines (q : PkgInput cap) (f : StreamFifo UInt8) : Prop where
  inv : q.Inv
  contents : q.contents = f.pending
  size : q.size = f.pending.length
  outstanding : f.outstanding = if q.firstBufferServed then some q.remainedInTheFirstBuffer else none
  byteCount : q.byteCount = f.counter

/-! ## Each call refines its operation -/

variable {q : PkgInput cap} {f : StreamFifo UInt8}

theorem refines_init : Refines ({} : PkgInput cap) {} :=
  ⟨inv_init, rfl, rfl, rfl, rfl⟩

theorem Inv.refines (hq : q.Inv) (hs : q.firstBufferServed = false) {l : Bytes} (hc : q.contents = l) {n : Int}
    (hn : q.byteSizeCounter = n) : Refines q { pending := l, outstanding := none, counter := n } :=
  ⟨hq, hc, by rw [size, hq.total, hc], by rw [hs]; rfl, hn⟩

theorem Refines.outstanding_none (h : Refines q f) (hs : q.firstBufferServed = false) : f.outstanding = none := by
  rw [h.outstanding, hs]
  rfl

/-- What the queue still has to give out is what the ring has not given out. -/
theorem Refines.available (h : Refines q f) : f.available = q.view.flatten := by
  rcases Bool.eq_false_or_eq_true q.firstBufferServed with hs | hs
  · have hc := h.inv.served hs
    rw [StreamFifo.available, h.outstanding, if_pos hs, Option.getD_some, ← h.contents, contents_pos hc,
      view_served hs, remainedInTheFirstBuffer, ← List.length_drop, List.drop_left]
  · rw [StreamFifo.available_none (h.outstanding_none hs), ← h.contents, view_not_served hs, PkgInput.contents]

theorem append_refines (h : Refines q f) (hs : q.firstBufferServed = false) (buf : Bytes) :
    ∃ q', q.append buf = .ok q' ∧ Refines q' { f with pending := f.pending ++ buf } := by
  obtain ⟨q', hc, hi, hs', hcont, hbyte⟩ := append_spec h.inv hs buf
  have := hi.refines hs' (hcont.trans (by rw [h.contents])) (hbyte.trans h.byteCount)
  rw [← h.outstanding_none hs] at this
  exact ⟨q', hc, this⟩

theorem next_refines (h : Refines q f) (hsmall : ∀ i < q.buffersCount, (q.slot i).length < 2 ^ 31) :
    ∃ b q' f', q.next = .ok (b, q') ∧ StreamFifo.Step f .next (.block b) f' ∧ Refines q' f' := by
  rcases hv : q.view.flatten with _ | ⟨x, xs⟩
  · obtain ⟨q', hc, hi, hs', hb, hbyte⟩ := next_none_spec h.inv hv
    exact ⟨none, q', _, hc, .nextNone (h.available.trans hv),
      hi.refines hs' (by rw [contents, hb, hv]) (hbyte.trans h.byteCount)⟩
  · obtain ⟨b, bs, hview⟩ : ∃ b bs, q.view = b :: bs := by
      cases hq : q.view with
      | nil => rw [hq] at hv; cases hv
      | cons b bs => exact ⟨b, bs, rfl⟩
    have hne : (b :: bs).flatten ≠ [] := by rw [← hview, hv]; exact List.cons_ne_nil x xs
    obtain ⟨q', hc, hi, hs', hb, hbyte⟩ := next_some_spec h.inv hview hne
    have hlen : b.length < 2 ^ 31 := by
      have hmem : b ∈ q.blocks := by
        rcases Bool.eq_false_or_eq_true q.firstBufferServed with hs | hs
        · exact List.mem_of_mem_tail (by rw [← view_served hs, hview]; exact List.mem_cons_self ..)
        · rw [← view_not_served hs, hview]
          exact List.mem_cons_self ..
      obtain ⟨i, hi, rfl⟩ := List.mem_map.1 hmem
      refine lt_of_le_of_lt ?_ (hsmall i (List.mem_range.1 hi))
      rw [remained, List.length_drop]
      exact Nat.sub_le _ _
    have hav : f.available = b ++ bs.flatten := by rw [h.available, hview, List.flatten_cons]
    have hav' : f.available ≠ [] := by rw [hav]; exact hne
    rw [toInt_eq hlen] at hc hbyte
    have hpos := hi.served hs'
    have hfirst := blocks_pos hpos
    rw [hb] at hfirst
    have hrem : q'.remainedInTheFirstBuffer = b.length := by
      rw [remainedInTheFirstBuffer, ← List.length_drop, ← (List.cons.inj hfirst).1]
    have hcont : q'.contents = f.available := by rw [contents, hb, hav, List.flatten_cons]
    exact ⟨_, q', _, hc, .nextSome hav hav', hi, hcont, by rw [size, hi.total, hcont],
      by rw [hs', if_pos rfl, hrem], hbyte.trans (congrArg (· + (b.length : Int)) h.byteCount)⟩

theorem backUp_refines (h : Refines q f) (hs : q.firstBufferServed = true) {count : Nat}
    (hle : count ≤ q.remainedInTheFirstBuffer) :
    ∃ q' f', q.backUp count = .ok q' ∧ StreamFifo.Step f (.backUp count) .done f' ∧ Refines q' f' := by
  have hc := h.inv.served hs
  have hb := blocks_pos hc
  have hlen : q.remainedInTheFirstBuffer = ((q.bufs q.firstBufferPos).drop q.firstBufferOffset).length := by
    rw [List.length_drop, remainedInTheFirstBuffer]
  obtain ⟨q', hcall, hi, hs', hb', hbyte⟩ := backUp_spec h.inv hs hb (hlen ▸ hle)
  have hout : f.outstanding = some q.remainedInTheFirstBuffer := by rw [h.outstanding, if_pos hs]
  refine ⟨q', _, hcall, .backUp hout hle, hi.refines hs' ?_ (hbyte.trans (congrArg (· - (count : Int)) h.byteCount))⟩
  rw [contents, hb', ← h.contents, contents_pos hc, hlen, List.drop_append_of_le_length (Nat.sub_le _ _)]
  split
  · rw [List.flatten_cons]
  · rename_i h0
    rw [Nat.eq_zero_of_not_pos h0, Nat.sub_zero, List.drop_length, List.nil_append]

theorem skip_refines (h : Refines q f) {count : Nat} (hle : count ≤ q.view.flatten.length) :
    ∃ q' f', q.skip count = .ok (true, q') ∧ StreamFifo.Step f (.skip count) (.skipped true) f' ∧ Refines q' f' := by
  obtain ⟨q', hc, hi, hs', hb, hbyte⟩ := skip_spec h.inv hle
  refine ⟨q', _, hc, .skip (by rw [h.available]; exact hle), hi.refines hs' ?_
    (hbyte.trans (congrArg (· + (count : Int)) h.byteCount))⟩
  rw [contents, hb, Blocks.flatten_drop, h.available]

theorem skipBytes_refines (h : Refines q f) (hs : q.firstBufferServed = false) {n : Nat} (hn : n ≤ q.size) :
    ∃ q', q.skipBytes n = .ok q' ∧ Refines q' { f with pending := f.pending.drop n } := by
  obtain ⟨q', hc, hi, hs', hb, hbyte⟩ := skipBytes_spec h.inv hs hn
  have := hi.refines hs' (l := f.pending.drop n) (by rw [contents, hb, Blocks.flatten_drop, ← h.contents, contents])
    (hbyte.trans h.byteCount)
  rw [← h.outstanding_none hs] at this
  exact ⟨q', hc, this⟩

theorem viewPkgHeader_refines (h : Refines q f) (hs : q.firstBufferServed = false) (hn : sizeofPkgHeader ≤ q.size) :
    ∃ header, q.viewPkgHeader = .ok header ∧ header.image = f.pending.take sizeofPkgHeader := by
  refine ⟨_, viewPkgHeader_spec h.inv hs hn, ?_⟩
  rw [← PkgHeader.ofImage_take, h.contents]
  apply PkgHeader.image_ofImage
  rw [List.length_take, ← h.size, Nat.min_eq_left hn]

theorem readBuffer_refines (h : Refines q f) (hs : q.firstBufferServed = false) {n : Nat} (h0 : 1 ≤ n)
    (hn : n ≤ q.size) :
    ∃ q', q.readBuffer n = .ok (f.pending.take n, q') ∧ Refines q' { f with pending := f.pending.drop n } := by
  obtain ⟨q', hc, hi, hs', hb, hbyte⟩ := readBuffer_spec h.inv hs h0 hn
  have := hi.refines hs' (l := f.pending.drop n) (by rw [contents, hb, Blocks.flatten_drop, ← h.contents, contents])
    (hbyte.trans h.byteCount)
  rw [← h.outstanding_none hs] at this
  rw [h.contents] at hc
  exact ⟨q', hc, this⟩

/-- A call made where its precondition holds returns what the byte queue may return. -/
theorem call_refines (q : PkgInput cap) (f : StreamFifo UInt8) (c : Call) (h : Refines q f) (hpre : Pre q c) :
    ∃ out q' f', q.call c = .ok (out, q') ∧ StreamFifo.Step f c.toOp out f' ∧ Refines q' f' := by
  obtain ⟨hsmall, hc⟩ := hpre
  cases c with
  | append buf =>
    obtain ⟨q', hcall, hr⟩ := append_refines h hc buf
    exact ⟨.done, q', _, by rw [call, hcall]; rfl, .append buf (h.outstanding_none hc), hr⟩
  | next =>
    obtain ⟨b, q', f', hcall, hstep, hr⟩ := next_refines h hsmall
    exact ⟨.block b, q', f', by rw [call, hcall]; rfl, hstep, hr⟩
  | backUp count =>
    obtain ⟨q', f', hcall, hstep, hr⟩ := backUp_refines h hc.1 hc.2
    exact ⟨.done, q', f', by rw [call, hcall]; rfl, hstep, hr⟩
  | skip count =>
    obtain ⟨q', f', hcall, hstep, hr⟩ := skip_refines h hc
    exact ⟨.skipped true, q', f', by rw [call, hcall]; rfl, hstep, hr⟩
  | skipBytes n =>
    obtain ⟨q', hcall, hr⟩ := skipBytes_refines h hc.1 hc.2
    exact ⟨.done, q', _, by rw [call, hcall]; rfl, .drop (h.outstanding_none hc.1) (h.size ▸ hc.2), hr⟩
  | viewPkgHeader =>
    obtain ⟨header, hcall, himage⟩ := viewPkgHeader_refines h hc.1 hc.2
    refine ⟨.elems (f.pending.take sizeofPkgHeader), q, f, by rw [call, hcall, ← himage]; rfl, ?_, h⟩
    exact .view (h.outstanding_none hc.1) (h.size ▸ hc.2)
  | readBuffer n =>
    obtain ⟨q', hcall, hr⟩ := readBuffer_refines h hc.1 hc.2.1 hc.2.2
    exact ⟨_, q', _, by rw [call, hcall]; rfl, .read (h.outstanding_none hc.1) (h.size ▸ hc.2.2), hr⟩

/-! ## Whole runs -/

/-- Every run that respects the preconditions returns what a queue of bytes may return, call after
call, and keeps the invariant. -/
theorem run_follows_queue (cap : Nat) [NeZero cap] (calls : List Call)
    (h : Along (nextState call) Pre ({} : PkgInput cap) calls) :
    Follows call (fun f c out f' => StreamFifo.Step f c.toOp out f') Refines ({} : PkgInput cap) {} calls :=
  follows_of_step call_refines calls {} {} refines_init h

/-- Two slots, an append into the full ring, a stream that gives some bytes back, and direct reads. -/
theorem run_follows_queue_two : Follows call (fun f c out f' => StreamFifo.Step f c.toOp out f') Refines
    ({} : PkgInput 2) {}
    [.append [1, 2, 3], .append [], .append [4, 5, 6, 7], .next, .backUp 2, .skip 1, .next, .next, .backUp 3,
      .append [8, 9, 10, 11, 12, 13, 14, 15, 16, 17, 18, 19], .viewPkgHeader, .skipBytes 4, .readBuffer 11, .next] :=
  run_follows_queue 2 _ (by decide)

end Opio.ProtoEntry.PkgInput
