/-
`Skip` against the contract of the zero-copy stream. In any state that calls lead to it does what the
contract says as long as there is enough to skip. At the end of the stream it moves the counter only.
-/
import Opio.ProtoEntry.InputFifo
import Opio.ProtoEntry.RingSlots

namespace Opio.ProtoEntry.PkgInput

variable {cap : Nat} [NeZero cap] {q q' : PkgInput cap}

/-- Some calls, none of which failed an assertion, lead to the state. -/
def Reachable (q : PkgInput cap) : Prop := ∃ calls, execute (nextState call) ({} : PkgInput cap) calls = some q

/-- The bytes of the stream that are left once the block last given out is confirmed. -/
def remaining (q : PkgInput cap) : Nat := q.view.flatten.length

/-- What a stream promises of `Skip( count )`: it tells whether there were as many bytes, and goes on by them
or to its end, and its counter with it. -/
def SkipContract (q : PkgInput cap) (count : Nat) : Prop :=
  ∃ all q', q.skip count = .ok (all, q') ∧ (all = true ↔ count ≤ q.remaining) ∧
    q'.view.flatten = q.view.flatten.drop (min count q.remaining) ∧
    q'.byteCount = q.byteCount + (min count q.remaining : Nat)

/-! ## Reachable states -/

/-- A skip that goes beyond the end confirms the block last given out and counts. -/
theorem skip_short_spec {count : Nat} (hq : q.Inv) (hlt : q.remaining < count) :
    ∃ q', q.skip count = .ok (false, q') ∧ q'.Inv ∧ q'.view = q.view ∧ q'.byteCount = q.byteCount + count := by
  obtain ⟨q₁, hreset, hi, hs, hb, hbyte, -⟩ := resetFirstBufferServed_spec hq
  have htotal : q₁.totalSize < count := by
    rw [hi.total, contents, hb]
    exact hlt
  refine ⟨{ q₁ with byteSizeCounter := q₁.byteSizeCounter + count }, ?_,
    ⟨hi.count, hi.total, hi.offset, hi.empty, hi.served⟩, (view_not_served hs).trans hb, ?_⟩
  · rw [skip, hreset, ok_bind]
    exact if_pos htotal
  · exact congrArg (· + (count : Int)) hbyte

/-- A call that does not fail keeps the invariant. -/
theorem call_inv {c : Call} {out : StreamFifo.Out UInt8} (hq : q.Inv) (h : q.call c = .ok (out, q')) : q'.Inv := by
  cases c with
  | append buf =>
    obtain ⟨q₁, hcall, hk⟩ := bind_eq_ok.1 h
    obtain rfl : q₁ = q' := congrArg Prod.snd (Except.ok.inj hk)
    obtain ⟨_, hserved, -⟩ := bind_eq_ok.1 hcall
    obtain ⟨q₂, happend, hi, -⟩ := append_spec hq (of_assertThat hserved) buf
    obtain rfl := Except.ok.inj (happend.symm.trans hcall)
    exact hi
  | next =>
    obtain ⟨⟨b, q₁⟩, hcall, hk⟩ := bind_eq_ok.1 h
    obtain rfl : q₁ = q' := congrArg Prod.snd (Except.ok.inj hk)
    exact (next_inv hq hcall).1
  | backUp count =>
    obtain ⟨q₁, hcall, hk⟩ := bind_eq_ok.1 h
    obtain rfl : q₁ = q' := congrArg Prod.snd (Except.ok.inj hk)
    exact backUp_inv hq hcall
  | skip count =>
    obtain ⟨⟨all, q₁⟩, hcall, hk⟩ := bind_eq_ok.1 h
    obtain rfl : q₁ = q' := congrArg Prod.snd (Except.ok.inj hk)
    exact skip_inv hq hcall
  | skipBytes n =>
    obtain ⟨q₁, hcall, hk⟩ := bind_eq_ok.1 h
    obtain rfl : q₁ = q' := congrArg Prod.snd (Except.ok.inj hk)
    exact skipBytes_inv hq hcall
  | viewPkgHeader =>
    obtain ⟨header, -, hk⟩ := bind_eq_ok.1 h
    obtain rfl : q = q' := congrArg Prod.snd (Except.ok.inj hk)
    exact hq
  | readBuffer n =>
    obtain ⟨⟨bytes, q₁⟩, hcall, hk⟩ := bind_eq_ok.1 h
    obtain rfl : q₁ = q' := congrArg Prod.snd (Except.ok.inj hk)
    obtain ⟨_, -, hcall⟩ := bind_eq_ok.1 hcall
    obtain ⟨_, -, hcall⟩ := bind_eq_ok.1 hcall
    obtain ⟨_, -, hcall⟩ := bind_eq_ok.1 hcall
    obtain ⟨q₂, hskip, hk⟩ := bind_eq_ok.1 hcall
    obtain rfl : q₂ = q₁ := congrArg Prod.snd (Except.ok.inj hk)
    exact skipBytes_inv hq hskip

theorem Reachable.inv (h : Reachable q) : q.Inv := by
  obtain ⟨calls, hrun⟩ := h
  refine execute_invariant (P := fun _ _ => True) (I := Inv) ?_ calls inv_init ?_ hrun
  · intro q c q' hq _ hstep
    unfold nextState at hstep
    split at hstep
    next out q₁ hcall =>
      obtain rfl := Option.some.inj hstep
      exact call_inv hq hcall
    · cases hstep
  · exact Along.of_forall (P := fun _ => True) fun _ _ => trivial

/-! ## The contract -/

/-- Where there is not enough to skip the counter goes on by more than there is. -/
theorem not_skipContract {count : Nat} (hq : q.Inv) (hlt : q.remaining < count) : ¬ SkipContract q count := by
  rintro ⟨all, q', hskip, -, -, hcount⟩
  obtain ⟨q₁, hshort, -, -, hbyte⟩ := skip_short_spec hq hlt
  obtain rfl := congrArg Prod.snd (Except.ok.inj (hshort.symm.trans hskip))
  rw [hbyte, Nat.min_eq_right hlt.le] at hcount
  omega

/-- In every reachable state `Skip` keeps its contract just where as many bytes remain as are to be skipped. -/
theorem skip_contract_iff (q : PkgInput cap) (hq : Reachable q) (count : Nat) :
    SkipContract q count ↔ count ≤ q.remaining := by
  constructor
  · intro hcontract
    by_contra hlt
    exact not_skipContract hq.inv (Nat.not_le.1 hlt) hcontract
  · intro hle
    obtain ⟨q', hskip, -, hs, hb, hbyte⟩ := skip_spec hq.inv hle
    refine ⟨true, q', hskip, iff_of_true rfl hle, ?_, ?_⟩
    · rw [view_not_served hs, hb, Blocks.flatten_drop, Nat.min_eq_left hle]
    · rw [Nat.min_eq_left hle]
      exact hbyte

/-- Two buffers, of which the first is given out: four bytes are left to skip. -/
theorem skip_contract_iff_outstanding :
    ∃ q : PkgInput 2, Reachable q ∧ q.firstBufferServed = true ∧ SkipContract q 4 := by
  obtain ⟨q, hrun, hserved, hrest⟩ := exists_execute (nextState call) ({} : PkgInput 2)
    [.append [1, 2, 3], .append [4, 5, 6, 7], .next] (fun q => q.firstBufferServed = true ∧ 4 ≤ q.remaining) (by decide)
  have hq : Reachable q := ⟨_, hrun⟩
  exact ⟨q, hq, hserved, (skip_contract_iff q hq 4).2 hrest⟩

/-- Three bytes are there and five are to be skipped: the stream says that it is at its end and has counted
five, and the three are still there. -/
theorem skip_short_breaks_contract : ∃ q q' : PkgInput 2, Reachable q ∧ q.remaining = 3 ∧ q.byteCount = 0 ∧
    q.skip 5 = .ok (false, q') ∧ q'.remaining = 3 ∧ q'.byteCount = 5 ∧ ¬ SkipContract q 5 := by
  obtain ⟨q, hrun, hrest, hzero⟩ := exists_execute (nextState call) ({} : PkgInput 2) [.append [1, 2, 3]]
    (fun q => q.remaining = 3 ∧ q.byteCount = 0) (by decide)
  have hq : Reachable q := ⟨_, hrun⟩
  have hlt : q.remaining < 5 := by omega
  obtain ⟨q', hskip, -, hview, hbyte⟩ := skip_short_spec hq.inv hlt
  refine ⟨q, q', hq, hrest, hzero, hskip, ?_, by rw [hbyte, hzero]; rfl, not_skipContract hq.inv hlt⟩
  rw [remaining, hview]
  exact hrest

end Opio.ProtoEntry.PkgInput
