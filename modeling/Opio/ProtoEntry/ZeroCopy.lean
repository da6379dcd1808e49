/-
The protobuf side of the input: a parser behind a `LimitingInputStream` as the calls that reach
`pkg_input_t`, and the contract these calls keep.

The parser and the limiting stream are not part of the repository. What is assumed of them is the
interface they are written against: a block is asked for only while the limit is not reached, what
is given back belongs to the block given out last, what lies behind the limit is given back, and
the sizes of the blocks fit an `int`.
-/
import Opio.ProtoEntry.RingOps

namespace Opio.ProtoEntry

/-! ## The calls -/

/-- A block that is asked for, with what is given back of it right after, or a skip. -/
inductive ZeroCopyCall
  | next (backUp : Option Nat)
  | skip (count : Nat)
  deriving DecidableEq, Repr

namespace ZeroCopyCall

/-- How many bytes a call consumes. -/
def amount (blocks : List Bytes) : ZeroCopyCall → Nat
  | .next backUp => (blocks.headD []).length - backUp.getD 0
  | .skip count => count

/-- The blocks left after a call. -/
def rest (blocks : List Bytes) : ZeroCopyCall → List Bytes
  | .next backUp =>
    let b := blocks.headD []
    if 0 < backUp.getD 0 then b.drop (b.length - backUp.getD 0) :: blocks.tail else blocks.tail
  | .skip count => Blocks.drop count blocks

/-- A block is asked for only before the limit, and no more is given back than there was in it. -/
def Allowed (limit : Nat) (blocks : List Bytes) : ZeroCopyCall → Prop
  | .next backUp => 0 < limit ∧ backUp.getD 0 ≤ (blocks.headD []).length
  | .skip _ => True

/-- The calls stay within the limit and give back no more than they got. -/
def Legal : Nat → List Bytes → List ZeroCopyCall → Prop
  | _, _, [] => True
  | limit, blocks, c :: calls =>
    c.Allowed limit blocks ∧ c.amount blocks ≤ limit ∧ Legal (limit - c.amount blocks) (c.rest blocks) calls

/-- How many bytes a list of calls consumes. -/
def consumed : List Bytes → List ZeroCopyCall → Nat
  | _, [] => 0
  | blocks, c :: calls => c.amount blocks + consumed (c.rest blocks) calls

end ZeroCopyCall

/-- A parser of messages: which calls it makes on the blocks of the input under a limit, and what
it returns. -/
structure ProtobufEngine (μ : Type) where
  calls : List Bytes → Nat → List ZeroCopyCall
  result : List Bytes → Nat → Option μ
  legal : ∀ blocks limit, (∀ b ∈ blocks, b.length < 2 ^ 31) → limit ≤ blocks.flatten.length →
    ZeroCopyCall.Legal limit blocks (calls blocks limit)

namespace PkgInput

variable {cap : Nat} [NeZero cap]

def zeroCopyCall (q : PkgInput cap) : ZeroCopyCall → Except Fault (PkgInput cap)
  | .next none => do
    let (_, q) ← q.next
    return q
  | .next (some count) => do
    let (_, q) ← q.next
    q.backUp count
  | .skip count => do
    let (_, q) ← q.skip count
    return q

def zeroCopyCalls : PkgInput cap → List ZeroCopyCall → Except Fault (PkgInput cap)
  | q, [] => return q
  | q, c :: calls => do
    let q ← q.zeroCopyCall c
    zeroCopyCalls q calls

/-! ## What the calls do to the input -/

theorem zeroCopyCall_spec {q : PkgInput cap} (hq : q.Inv) (c : ZeroCopyCall) {limit : Nat}
    (hlen : limit ≤ q.view.flatten.length) (hsmall : ∀ b ∈ q.view, b.length < 2 ^ 31)
    (hc : c.Allowed limit q.view) (ha : c.amount q.view ≤ limit) :
    ∃ q', q.zeroCopyCall c = .ok q' ∧ q'.Inv ∧ q'.view = c.rest q.view ∧
      q'.byteCount = q.byteCount + c.amount q.view ∧
      q'.view.flatten = q.view.flatten.drop (c.amount q.view) := by
  cases c with
  | skip count =>
    obtain ⟨q', h, hi, hs, hb, hbyte⟩ := skip_spec hq (show count ≤ _ from ha.trans hlen)
    have hv : q'.view = Blocks.drop count q.view := (view_not_served hs).trans hb
    refine ⟨q', by rw [zeroCopyCall, h]; rfl, hi, hv, hbyte, ?_⟩
    rw [hv, Blocks.flatten_drop]
    rfl
  | next backUp =>
    obtain ⟨hpos, hback⟩ := hc
    obtain ⟨b, bs, hview⟩ : ∃ b bs, q.view = b :: bs := by
      cases hv : q.view with
      | nil => rw [hv, List.flatten_nil] at hlen; exact absurd hlen (Nat.not_le.2 hpos)
      | cons b bs => exact ⟨b, bs, rfl⟩
    have hne : (b :: bs).flatten ≠ [] := by
      rintro h
      rw [hview, h] at hlen
      exact absurd hlen (Nat.not_le.2 hpos)
    -- the first block is given out, and part of it may be taken back
    obtain ⟨q₁, h₁, hi₁, hs₁, hb₁, hbyte₁⟩ := next_some_spec hq hview hne
    rw [hview] at hsmall hback ⊢
    rw [toInt_eq (hsmall b (List.mem_cons_self ..))] at h₁ hbyte₁
    cases backUp with
    | none =>
      have hv₁ : q₁.view = bs := by rw [view_served hs₁, hb₁, List.tail_cons]
      refine ⟨q₁, by rw [zeroCopyCall, h₁]; rfl, hi₁, hv₁, hbyte₁, ?_⟩
      rw [hv₁, List.flatten_cons]
      exact (List.drop_left).symm
    | some count =>
      have hle : count ≤ b.length := hback
      obtain ⟨q₂, h₂, hi₂, hs₂, hb₂, hbyte₂⟩ := backUp_spec hi₁ hs₁ hb₁ hle
      have hv₂ : q₂.view = ZeroCopyCall.rest (b :: bs) (.next (some count)) := (view_not_served hs₂).trans hb₂
      refine ⟨q₂, by rw [zeroCopyCall, h₁]; exact h₂, hi₂, hv₂, ?_, ?_⟩
      · change q₂.byteSizeCounter = q.byteSizeCounter + ((b.length - count : Nat) : Int)
        rw [hbyte₂, hbyte₁]
        omega
      · change _ = (b :: bs).flatten.drop (b.length - count)
        rw [view_not_served hs₂, hb₂, List.flatten_cons, List.drop_append_of_le_length (Nat.sub_le _ _)]
        split
        · rw [List.flatten_cons]
        · rename_i h0
          rw [Nat.eq_zero_of_not_pos h0, Nat.sub_zero, List.drop_length, List.nil_append]

/-- No call makes a block longer. -/
theorem length_rest_lt {blocks : List Bytes} {n : Nat} (hn : 0 < n) (hlt : ∀ b ∈ blocks, b.length < n)
    (c : ZeroCopyCall) : ∀ b ∈ c.rest blocks, b.length < n := by
  intro b hb
  cases c with
  | skip count =>
    obtain ⟨b', hb', hle⟩ := Blocks.length_le_of_mem_drop hb
    exact hle.trans_lt (hlt b' hb')
  | next backUp =>
    have htail : b ∈ blocks.tail → b.length < n := fun h => hlt b (List.mem_of_mem_tail h)
    have hhead : (blocks.headD []).length < n := by
      cases blocks with
      | nil => exact hn
      | cons a bs => exact hlt a (List.mem_cons_self ..)
    simp only [ZeroCopyCall.rest] at hb
    split at hb
    · rcases List.mem_cons.1 hb with rfl | hb
      · rw [List.length_drop]
        exact (Nat.sub_le _ _).trans_lt hhead
      · exact htail hb
    · exact htail hb

/-- A parser that keeps the contract drives the stream to no failure and takes bytes off its front. -/
theorem zeroCopyCalls_spec : ∀ (calls : List ZeroCopyCall) (q : PkgInput cap) (limit : Nat), q.Inv →
    limit ≤ q.view.flatten.length → (∀ b ∈ q.view, b.length < 2 ^ 31) → ZeroCopyCall.Legal limit q.view calls →
      ∃ q', q.zeroCopyCalls calls = .ok q' ∧ q'.Inv ∧
        q'.byteCount = q.byteCount + ZeroCopyCall.consumed q.view calls ∧
        q'.view.flatten = q.view.flatten.drop (ZeroCopyCall.consumed q.view calls)
  | [], q, _, hq, _, _, _ => ⟨q, rfl, hq, (Int.add_zero _).symm, List.drop_zero.symm⟩
  | c :: calls, q, limit, hq, hlen, hsmall, hl => by
    obtain ⟨hc, ha, hrest⟩ := hl
    obtain ⟨q₁, h₁, hi₁, hv₁, hbyte₁, hf₁⟩ := zeroCopyCall_spec hq c hlen hsmall hc ha
    have hlen₁ : limit - c.amount q.view ≤ q₁.view.flatten.length := by
      rw [hf₁, List.length_drop]
      omega
    have hsmall₁ : ∀ b ∈ q₁.view, b.length < 2 ^ 31 := hv₁ ▸ length_rest_lt (by decide) hsmall c
    obtain ⟨q', h', hi', hbyte', hf'⟩ :=
      zeroCopyCalls_spec calls q₁ _ hi₁ hlen₁ hsmall₁ (by rw [hv₁]; exact hrest)
    refine ⟨q', by rw [zeroCopyCalls, h₁]; exact h', hi', ?_, ?_⟩
    · rw [hbyte', hbyte₁, hv₁, ZeroCopyCall.consumed]
      push_cast
      rw [Int.add_assoc]
    · rw [hf', hf₁, hv₁, List.drop_drop, ZeroCopyCall.consumed]

end PkgInput

/-! ## A parser -/

namespace ProtobufEngine

/-- Asks for blocks up to the limit and gives the rest of the last one back. -/
def readCalls : Nat → List Bytes → List ZeroCopyCall
  | _, [] => []
  | n, b :: bs =>
    if n = 0 then []
    else if n < b.length then [.next (some (b.length - n))]
    else .next none :: readCalls (n - b.length) bs

theorem legal_readCalls : ∀ (blocks : List Bytes) (n : Nat), ZeroCopyCall.Legal n blocks (readCalls n blocks)
  | [], _ => trivial
  | b :: bs, n => by
    unfold readCalls
    split
    · trivial
    rename_i h0
    split
    · rename_i hlt
      have hamount : ZeroCopyCall.amount (b :: bs) (.next (some (b.length - n))) = n := by
        simp only [ZeroCopyCall.amount, List.headD_cons, Option.getD_some]
        omega
      exact ⟨⟨Nat.pos_of_ne_zero h0, Nat.sub_le _ _⟩, hamount.le, trivial⟩
    · rename_i hge
      exact ⟨⟨Nat.pos_of_ne_zero h0, Nat.zero_le _⟩, Nat.not_lt.1 hge, legal_readCalls bs _⟩

/-- The parser of a message that is its own content: it reads all of it and accepts. -/
def raw : ProtobufEngine Bytes where
  calls blocks n := readCalls n blocks
  result blocks n := some (blocks.flatten.take n)
  legal blocks n _ _ := legal_readCalls blocks n

/-- A parser that reads the content and rejects it. -/
def rejecting : ProtobufEngine Bytes := { raw with result := fun _ _ => none }

theorem consumed_readCalls : ∀ (blocks : List Bytes) (n : Nat), n ≤ blocks.flatten.length →
    ZeroCopyCall.consumed blocks (readCalls n blocks) = n
  | [], n, h => (Nat.le_zero.1 h).symm
  | b :: bs, n, h => by
    rw [List.flatten_cons, List.length_append] at h
    unfold readCalls
    split
    · rename_i h0
      exact h0.symm
    split
    · rename_i hlt
      simp only [ZeroCopyCall.consumed, ZeroCopyCall.amount, List.headD_cons, Option.getD_some]
      omega
    · rename_i hge
      have ih := consumed_readCalls bs (n - b.length) (by omega)
      have hrest : ZeroCopyCall.rest (b :: bs) (.next none) = bs := rfl
      have hamount : ZeroCopyCall.amount (b :: bs) (.next none) = b.length := rfl
      rw [ZeroCopyCall.consumed, hrest, hamount, ih]
      omega

end ProtobufEngine

end Opio.ProtoEntry
