/-
`raw_bytes_handler_t`: how large the buffer of the next read is made. The sizes double from the configured
one and are cut at a maximum, so they stay below it only where the configured size doubles into it.
-/
import Opio.Lib.Runs
import Mathlib.Data.Nat.Prime.Basic
import Mathlib.Order.Nat

namespace Opio.ProtoEntry

/-- The most that is read in one go. -/
def sizeBuf32mb : Nat := 32 * 1024 * 1024

/-- What choosing a size must not come to. -/
inductive ReadSizeFault where
  | assertion
  | diverged
  deriving DecidableEq, Repr

/-- What the handler remembers, and the size of the buffer the connection reads to. -/
structure ReadSizes where
  latestExplicitlyAllocatedReadBufSize : Nat
  readBufferSize : Nat
  deriving DecidableEq, Repr

namespace ReadSizes

/-- At first the connection reads to a buffer of the configured size. -/
def init (configured : Nat) : ReadSizes := ⟨0, configured⟩

/-- The loop that doubles a size until what was read fits in. -/
def growTo (inputBufferSize : Nat) : Nat → Nat → Except ReadSizeFault Nat
  | 0, _ => .error .diverged
  | fuel + 1, size =>
    if size < inputBufferSize then do
      let size := size * 2 % 2 ^ 64
      assertThat (size ≤ sizeBuf32mb) .assertion
      growTo inputBufferSize fuel size
    else pure size

/-- The read is compared to what was allocated for it, if anything was, and to the configured size otherwise. -/
def ReadBufWasFullyUtilized (configured latest inputBufferSize : Nat) : Prop :=
  if latest ≠ 0 then latest = inputBufferSize else configured = inputBufferSize

instance (configured latest inputBufferSize : Nat) :
    Decidable (ReadBufWasFullyUtilized configured latest inputBufferSize) :=
  inferInstanceAs (Decidable (if latest ≠ 0 then latest = inputBufferSize else configured = inputBufferSize))

/-- The size to allocate for the next read, or zero. -/
def nextSize (fuel configured latest inputBufferSize : Nat) : Except ReadSizeFault Nat :=
  if ReadBufWasFullyUtilized configured latest inputBufferSize then pure
    (min (inputBufferSize * 2 % 2 ^ 64) sizeBuf32mb)
  else if configured ≤ inputBufferSize then growTo inputBufferSize fuel (configured * 2 % 2 ^ 64)
  else pure 0

/-- A read, and what the connection reads to after it: the buffer given to `next_read_buffer`, or one of
the configured size. -/
def handle (fuel configured : Nat) (s : ReadSizes) (inputBufferSize : Nat) : Except ReadSizeFault ReadSizes := do
  let latest ← nextSize fuel configured s.latestExplicitlyAllocatedReadBufSize inputBufferSize
  pure ⟨latest, if latest ≠ 0 then latest else configured⟩

def step (fuel configured : Nat) (s : ReadSizes) (inputBufferSize : Nat) : Option ReadSizes :=
  (s.handle fuel configured inputBufferSize).toOption

/-- A read returns something, and no more than there is room for. -/
def Fits (s : ReadSizes) (inputBufferSize : Nat) : Prop := 1 ≤ inputBufferSize ∧ inputBufferSize ≤ s.readBufferSize

instance (s : ReadSizes) (inputBufferSize : Nat) : Decidable (Fits s inputBufferSize) :=
  inferInstanceAs (Decidable (_ ∧ _))

/-- The handler returns. What it requests is within the bounds, and after a short read the connection reads
to a buffer of the configured size again. -/
def Safe (fuel configured : Nat) (s : ReadSizes) (inputBufferSize : Nat) : Prop :=
  ∃ s', s.handle fuel configured inputBufferSize = .ok s' ∧
    (s'.latestExplicitlyAllocatedReadBufSize ≠ 0 →
      s'.readBufferSize = s'.latestExplicitlyAllocatedReadBufSize ∧
        s'.readBufferSize ≤ max configured sizeBuf32mb ∧
        (inputBufferSize ≤ s'.readBufferSize ∨ s'.readBufferSize = sizeBuf32mb)) ∧
    (inputBufferSize < configured → inputBufferSize ≠ s.readBufferSize → s'.readBufferSize = configured)

/-- The configured size doubles into the maximum, or is as large already (and does not wrap to one that is
not when it is doubled). -/
def DoublesInto (configured : Nat) : Prop :=
  configured ∣ sizeBuf32mb ∨
    sizeBuf32mb ≤ configured ∧ ¬ (2 ^ 63 < configured ∧ configured < 2 ^ 63 + sizeBuf32mb / 2)

instance (configured : Nat) : Decidable (DoublesInto configured) := inferInstanceAs (Decidable (_ ∨ _))

variable {fuel configured : Nat} {s s' : ReadSizes} {n : Nat}

/-- The connection reads to what was allocated last, or to a buffer of the configured size. -/
def Consistent (configured : Nat) (s : ReadSizes) : Prop :=
  s.readBufferSize =
    if s.latestExplicitlyAllocatedReadBufSize ≠ 0 then s.latestExplicitlyAllocatedReadBufSize else configured

theorem consistent_init (configured : Nat) : Consistent configured (init configured) := rfl

theorem consistent_handle (h : s.handle fuel configured n = .ok s') : Consistent configured s' := by
  obtain ⟨latest, -, h⟩ := bind_eq_ok.1 h
  rw [← Except.ok.inj h]
  rfl

theorem handle_of_nextSize {size : Nat} (h : nextSize fuel configured s.latestExplicitlyAllocatedReadBufSize n =
    .ok size) :
    s.handle fuel configured n = .ok ⟨size, if size ≠ 0 then size else configured⟩ := by
  rw [handle, h, ok_bind]
  rfl

theorem readBufWasFullyUtilized_iff (hs : Consistent configured s) :
    ReadBufWasFullyUtilized configured s.latestExplicitlyAllocatedReadBufSize n ↔ n = s.readBufferSize := by
  unfold ReadBufWasFullyUtilized
  rw [hs]
  split <;> exact eq_comm

/-- A read that fills the buffer. -/
theorem nextSize_full (fuel : Nat) (hs : Consistent configured s) :
    nextSize fuel configured s.latestExplicitlyAllocatedReadBufSize s.readBufferSize =
      .ok (min (s.readBufferSize * 2 % 2 ^ 64) sizeBuf32mb) :=
  if_pos ((readBufWasFullyUtilized_iff hs).2 rfl)

/-- A read that does not, of no less than the configured size. -/
theorem nextSize_part (hs : Consistent configured s) (hn : n ≠ s.readBufferSize) (hle : configured ≤ n) :
    nextSize fuel configured s.latestExplicitlyAllocatedReadBufSize n = growTo n fuel (configured * 2 % 2 ^ 64) := by
  rw [nextSize, if_neg (fun hfull => hn ((readBufWasFullyUtilized_iff hs).1 hfull)), if_pos hle]

/-- A read of less. -/
theorem nextSize_short (hs : Consistent configured s) (hn : n ≠ s.readBufferSize) (hlt : n < configured) :
    nextSize fuel configured s.latestExplicitlyAllocatedReadBufSize n = .ok 0 := by
  rw [nextSize, if_neg (fun hfull => hn ((readBufWasFullyUtilized_iff hs).1 hfull)), if_neg (Nat.not_le.2 hlt)]
  rfl

/-- Whatever is requested becomes the size of the buffer. -/
theorem safe_of_nextSize {size : Nat} (h : nextSize fuel configured s.latestExplicitlyAllocatedReadBufSize n = .ok size)
    (hsize : size ≠ 0 → size ≤ max configured sizeBuf32mb ∧ (n ≤ size ∨ size = sizeBuf32mb))
    (hshort : n < configured → n ≠ s.readBufferSize → size = 0) : Safe fuel configured s n := by
  refine ⟨_, handle_of_nextSize h, fun hne => ?_, fun hlt hne => ?_⟩
  · dsimp only at hne ⊢
    rw [if_pos hne]
    exact ⟨rfl, hsize hne⟩
  · dsimp only
    rw [hshort hlt hne]
    rfl

/-! ## The loop -/

theorem sizeBuf32mb_eq : sizeBuf32mb = 2 ^ 25 := by decide

theorem pow_le_sizeBuf32mb {i : Nat} (hi : i ≤ 25) : 2 ^ i ≤ sizeBuf32mb := by
  rw [sizeBuf32mb_eq]
  exact Nat.pow_le_pow_right (by decide) hi

theorem pow_mul_two_mod {i : Nat} (hi : i ≤ 25) : 2 ^ i * 2 % 2 ^ 64 = 2 ^ (i + 1) := by
  rw [← Nat.pow_succ]
  exact Nat.mod_eq_of_lt (Nat.pow_lt_pow_right (by decide) (by omega))

/-- Powers of two are doubled up to the maximum, and no further. -/
theorem growTo_pow : ∀ (k i fuel : Nat), n ≤ 2 ^ (i + k) → i + k ≤ 25 → k < fuel →
    ∃ j, i ≤ j ∧ j ≤ i + k ∧ n ≤ 2 ^ j ∧ growTo n fuel (2 ^ i) = .ok (2 ^ j)
  | k, i, 0, _, _, hfuel => absurd hfuel (Nat.not_lt_zero k)
  | k, i, fuel + 1, hn, hle, hfuel => by
    unfold growTo
    by_cases hlt : 2 ^ i < n
    · cases k with
      | zero => exact absurd hn (Nat.not_le.2 hlt)
      | succ k =>
        have hnext : i + 1 + k = i + (k + 1) := by omega
        have hpow : 2 ^ (i + 1) ≤ sizeBuf32mb := pow_le_sizeBuf32mb (by omega)
        obtain ⟨j, hij, hjk, hnj, hgrow⟩ := growTo_pow k (i + 1) fuel (hnext ▸ hn) (hnext ▸ hle) (by omega)
        refine ⟨j, by omega, by omega, hnj, ?_⟩
        rw [if_pos hlt, pow_mul_two_mod (by omega)]
        dsimp only
        rw [assertThat_ok hpow, ok_bind, hgrow]
    · exact ⟨i, Nat.le_refl i, Nat.le_add_right i k, Nat.not_lt.1 hlt, if_neg hlt⟩

/-- What the loop returns is the size it began with doubled some times. -/
theorem growTo_doubles : ∀ (fuel size : Nat) {r : Nat}, size ≤ 2 ^ 26 → growTo n fuel size = .ok r →
    ∃ k, r = size * 2 ^ k
  | 0, _, _, _, h => nomatch h
  | fuel + 1, size, r, hsize, h => by
    unfold growTo at h
    split at h
    · obtain ⟨_, hassert, h⟩ := bind_eq_ok.1 h
      have hle : size * 2 % 2 ^ 64 ≤ sizeBuf32mb := of_assertThat hassert
      obtain ⟨k, rfl⟩ := growTo_doubles fuel _ (hle.trans (by decide)) h
      have hdouble : size * 2 % 2 ^ 64 = size * 2 := Nat.mod_eq_of_lt (by omega)
      exact ⟨k + 1, by rw [hdouble, Nat.mul_assoc, ← Nat.pow_succ']⟩
    · exact ⟨0, by rw [Nat.pow_zero, Nat.mul_one, Except.ok.inj h]⟩

/-! ## Sizes that double into the maximum -/

/-- The sizes in use when the configured one is a power of two. -/
def PowerOfTwo (m : Nat) (s : ReadSizes) : Prop :=
  Consistent (2 ^ m) s ∧ ∃ j, m ≤ j ∧ j ≤ 25 ∧ s.readBufferSize = 2 ^ j

theorem nextSize_powerOfTwo {m : Nat} (hs : PowerOfTwo m s) (hm : m ≤ 25) (hn : Fits s n) (hfuel : 26 ≤ fuel) :
    ∃ size, nextSize fuel (2 ^ m) s.latestExplicitlyAllocatedReadBufSize n = .ok size ∧
      (size = 0 ∧ n < 2 ^ m ∨ ∃ j, m ≤ j ∧ j ≤ 25 ∧ size = 2 ^ j ∧ n ≤ size ∧ (n < 2 ^ m → n = s.readBufferSize)) := by
  obtain ⟨hc, j, hmj, hj, hsize⟩ := hs
  by_cases hfull : n = s.readBufferSize
  · subst hfull
    have hnext : nextSize fuel (2 ^ m) s.latestExplicitlyAllocatedReadBufSize s.readBufferSize =
        .ok (min (2 ^ (j + 1)) (2 ^ 25)) := by
      rw [nextSize_full fuel hc, hsize, pow_mul_two_mod hj, sizeBuf32mb_eq]
    rcases Nat.lt_or_ge j 25 with hlt | hge
    · have hle : 2 ^ (j + 1) ≤ 2 ^ 25 := Nat.pow_le_pow_right (by decide) hlt
      rw [Nat.min_eq_left hle] at hnext
      refine ⟨_, hnext, .inr ⟨j + 1, by omega, hlt, rfl, ?_, fun _ => rfl⟩⟩
      rw [hsize]
      exact Nat.pow_le_pow_right (by decide) (Nat.le_succ j)
    · obtain rfl : j = 25 := Nat.le_antisymm hj hge
      rw [Nat.min_eq_right (by decide)] at hnext
      exact ⟨_, hnext, .inr ⟨25, hmj, hj, rfl, hsize.le, fun _ => rfl⟩⟩
  rcases Nat.lt_or_ge n (2 ^ m) with hlt | hle
  · exact ⟨0, nextSize_short hc hfull hlt, .inl ⟨rfl, hlt⟩⟩
  · have hlt : n < 2 ^ j := by
      have hle := hn.2
      omega
    have hmlt : m < j := (Nat.pow_lt_pow_iff_right (by decide)).1 (hle.trans_lt hlt)
    obtain ⟨i, hmi, hij, hni, hgrow⟩ := growTo_pow (n := n) (j - (m + 1)) (m + 1) fuel
      (by rw [Nat.add_sub_cancel' hmlt]; exact hlt.le) (by omega) (by omega)
    refine ⟨2 ^ i, ?_, .inr ⟨i, by omega, by omega, rfl, hni, fun hlt => absurd hlt (Nat.not_lt.2 hle)⟩⟩
    rw [nextSize_part hc hfull hle, pow_mul_two_mod hm, hgrow]

theorem powerOfTwo_init {m : Nat} (hm : m ≤ 25) : PowerOfTwo m (init (2 ^ m)) :=
  ⟨rfl, m, Nat.le_refl m, hm, rfl⟩

theorem powerOfTwo_safe {m : Nat} (hm : m ≤ 25) (hs : PowerOfTwo m s) (hn : Fits s n) (hfuel : 26 ≤ fuel) :
    Safe fuel (2 ^ m) s n := by
  obtain ⟨size, hnext, ⟨rfl, hlt⟩ | ⟨j, -, hj, rfl, hle, hshort⟩⟩ := nextSize_powerOfTwo hs hm hn hfuel
  · exact safe_of_nextSize hnext (fun hne => absurd rfl hne) fun _ _ => rfl
  · have hbound := pow_le_sizeBuf32mb hj
    exact safe_of_nextSize hnext (fun _ => ⟨hbound.trans (Nat.le_max_right ..), .inl hle⟩)
      fun hlt hne => absurd (hshort hlt) hne

theorem powerOfTwo_step {m : Nat} (hm : m ≤ 25) (hs : PowerOfTwo m s) (hn : Fits s n) (hfuel : 26 ≤ fuel)
    (h : s.handle fuel (2 ^ m) n = .ok s') : PowerOfTwo m s' := by
  refine ⟨consistent_handle h, ?_⟩
  obtain ⟨size, hnext, hsize⟩ := nextSize_powerOfTwo hs hm hn hfuel
  rw [handle_of_nextSize hnext] at h
  rw [← Except.ok.inj h]
  rcases hsize with ⟨rfl, -⟩ | ⟨j, hmj, hj, rfl, -⟩
  · exact ⟨m, Nat.le_refl m, hm, rfl⟩
  · exact ⟨j, hmj, hj, if_pos (Nat.two_pow_pos j).ne'⟩

/-! ## Sizes that are as large already -/

/-- The sizes in use when the configured one is no less than the maximum. -/
def Large (configured : Nat) (s : ReadSizes) : Prop :=
  Consistent configured s ∧ (s.readBufferSize = configured ∨ s.readBufferSize = sizeBuf32mb)

theorem nextSize_large (fuel : Nat) (hs : Large configured s) (hle : sizeBuf32mb ≤ configured)
    (hlt : configured < 2 ^ 64)
    (hwrap : ¬ (2 ^ 63 < configured ∧ configured < 2 ^ 63 + sizeBuf32mb / 2)) (hn : Fits s n) :
    nextSize fuel configured s.latestExplicitlyAllocatedReadBufSize n = .ok 0 ∨
      nextSize fuel configured s.latestExplicitlyAllocatedReadBufSize n = .ok sizeBuf32mb ∧ n = s.readBufferSize := by
  obtain ⟨hc, hsize⟩ := hs
  by_cases hfull : n = s.readBufferSize
  · subst hfull
    rw [nextSize_full fuel hc]
    have hmin : min (s.readBufferSize * 2 % 2 ^ 64) sizeBuf32mb = 0 ∨
        min (s.readBufferSize * 2 % 2 ^ 64) sizeBuf32mb = sizeBuf32mb := by
      rw [sizeBuf32mb_eq] at *
      omega
    exact hmin.imp (fun h => by rw [h]) fun h => ⟨by rw [h], rfl⟩
  · have hn := hn.2
    exact .inl (nextSize_short hc hfull (by omega))

theorem large_safe (hs : Large configured s) (hle : sizeBuf32mb ≤ configured) (hlt : configured < 2 ^ 64)
    (hwrap : ¬ (2 ^ 63 < configured ∧ configured < 2 ^ 63 + sizeBuf32mb / 2)) (hn : Fits s n) :
    Safe fuel configured s n := by
  rcases nextSize_large fuel hs hle hlt hwrap hn with hnext | ⟨hnext, hfull⟩
  · exact safe_of_nextSize hnext (fun hne => absurd rfl hne) fun _ _ => rfl
  · exact safe_of_nextSize hnext (fun _ => ⟨Nat.le_max_right .., .inr rfl⟩) fun _ hne => absurd hfull hne

theorem large_step (hs : Large configured s) (hle : sizeBuf32mb ≤ configured) (hlt : configured < 2 ^ 64)
    (hwrap : ¬ (2 ^ 63 < configured ∧ configured < 2 ^ 63 + sizeBuf32mb / 2)) (hn : Fits s n)
    (h : s.handle fuel configured n = .ok s') : Large configured s' := by
  refine ⟨consistent_handle h, ?_⟩
  rcases nextSize_large fuel hs hle hlt hwrap hn with hnext | ⟨hnext, -⟩
  · rw [handle_of_nextSize hnext] at h
    rw [← Except.ok.inj h]
    exact .inl rfl
  · rw [handle_of_nextSize hnext] at h
    rw [← Except.ok.inj h]
    exact .inr rfl

/-! ## Other sizes -/

/-- Where every read of every run is safe, so is one in a state that a run leads to. -/
def Reached (fuel configured : Nat) (s : ReadSizes) : Prop :=
  ∃ reads, Along (step fuel configured) Fits (init configured) reads ∧
    execute (step fuel configured) (init configured) reads = some s

theorem step_of_handle (h : s.handle fuel configured n = .ok s') : step fuel configured s n = some s' := by
  rw [step, h]
  rfl

theorem Reached.step (h : Reached fuel configured s) (hn : Fits s n) (hhandle : s.handle fuel configured n = .ok s') :
    Reached fuel configured s' := by
  obtain ⟨reads, hfits, hrun⟩ := h
  exact ⟨reads ++ [n], along_concat hn hfits hrun, (execute_concat ..).2 ⟨s, hrun, step_of_handle hhandle⟩⟩

theorem Reached.safe (h : Reached fuel configured s) (hn : Fits s n)
    (hsafe : ∀ reads, Along (ReadSizes.step fuel configured) Fits (init configured) reads →
      Along (ReadSizes.step fuel configured) (Safe fuel configured) (init configured) reads) :
    Safe fuel configured s n := by
  obtain ⟨reads, hfits, hrun⟩ := h
  exact (along_of_concat (hsafe _ (along_concat hn hfits hrun)) hrun).2

/-- Reads that fill their buffers double its size, until it is at the maximum. -/
theorem reached_doubled (fuel : Nat) (hpos : 0 < configured) : ∀ k, configured * 2 ^ k < sizeBuf32mb →
    ∃ s, Reached fuel configured s ∧ Consistent configured s ∧ s.readBufferSize = configured * 2 ^ k
  | 0, _ => ⟨init configured, ⟨[], trivial, rfl⟩, rfl, (Nat.mul_one configured).symm⟩
  | k + 1, hlt => by
    rw [Nat.pow_succ, ← Nat.mul_assoc] at hlt ⊢
    obtain ⟨s, hs, hc, hsize⟩ := reached_doubled fuel hpos k (by omega)
    have hdouble : min (s.readBufferSize * 2 % 2 ^ 64) sizeBuf32mb = configured * 2 ^ k * 2 := by
      rw [hsize]
      rw [sizeBuf32mb_eq] at hlt ⊢
      omega
    have hone : 0 < configured * 2 ^ k := Nat.mul_pos hpos (Nat.two_pow_pos k)
    have hnext := nextSize_full fuel hc
    rw [hdouble] at hnext
    have hhandle := handle_of_nextSize hnext
    rw [if_pos (by omega)] at hhandle
    exact ⟨_, hs.step ⟨by omega, Nat.le_refl _⟩ hhandle, consistent_handle hhandle, rfl⟩

theorem reached_maximum (fuel : Nat) (hpos : 0 < configured) (hlt : configured < sizeBuf32mb) :
    ∃ s, Reached fuel configured s ∧ Consistent configured s ∧ s.readBufferSize = sizeBuf32mb := by
  have hex : ∃ k, sizeBuf32mb ≤ configured * 2 ^ k := ⟨25, Nat.le_mul_of_pos_left _ hpos⟩
  obtain ⟨k, hk⟩ : ∃ k, Nat.find hex = k + 1 := by
    refine Nat.exists_eq_succ_of_ne_zero fun hzero => ?_
    have hfound := Nat.find_spec hex
    rw [hzero, Nat.pow_zero, Nat.mul_one] at hfound
    omega
  have hbelow : configured * 2 ^ k < sizeBuf32mb := Nat.not_le.1 (Nat.find_min hex (by omega))
  have habove := Nat.find_spec hex
  rw [hk, Nat.pow_succ, ← Nat.mul_assoc] at habove
  obtain ⟨s, hs, hc, hsize⟩ := reached_doubled fuel hpos k hbelow
  have hdouble : min (s.readBufferSize * 2 % 2 ^ 64) sizeBuf32mb = sizeBuf32mb := by
    rw [hsize]
    rw [sizeBuf32mb_eq] at hbelow habove ⊢
    omega
  have hone : 0 < configured * 2 ^ k := Nat.mul_pos hpos (Nat.two_pow_pos k)
  have hnext := nextSize_full fuel hc
  rw [hdouble] at hnext
  have hhandle := handle_of_nextSize hnext
  exact ⟨_, hs.step ⟨by omega, Nat.le_refl _⟩ hhandle, consistent_handle hhandle, rfl⟩

/-- A read that fills all but a byte of the maximum is not safe. -/
theorem not_safe_at_maximum (hpos : 0 < configured) (hlt : configured < sizeBuf32mb)
    (hne : ∀ k, configured * 2 ^ k ≠ sizeBuf32mb) (hc : Consistent configured s)
    (hsize : s.readBufferSize = sizeBuf32mb) : ¬ Safe fuel configured s (sizeBuf32mb - 1) := by
  rintro ⟨s', hhandle, hrequested, -⟩
  have hpart : sizeBuf32mb - 1 ≠ s.readBufferSize := by
    rw [hsize]
    exact by decide
  obtain ⟨size, hnext, hs'⟩ := bind_eq_ok.1 hhandle
  rw [nextSize_part hc hpart (by omega)] at hnext
  have hdouble : configured * 2 % 2 ^ 64 = configured * 2 := Nat.mod_eq_of_lt (by rw [sizeBuf32mb_eq] at hlt; omega)
  rw [hdouble] at hnext
  obtain ⟨k, rfl⟩ := growTo_doubles fuel _ (by rw [sizeBuf32mb_eq] at hlt; omega) hnext
  have hsize' : s'.latestExplicitlyAllocatedReadBufSize = configured * 2 * 2 ^ k := by rw [← Except.ok.inj hs']
  have hmul : configured * 2 * 2 ^ k = configured * 2 ^ k * 2 := Nat.mul_right_comm ..
  have hone : 0 < configured * 2 ^ k := Nat.mul_pos hpos (Nat.two_pow_pos k)
  obtain ⟨hbuf, hbound, hroom⟩ := hrequested (by omega)
  -- between the maximum less one and the maximum there is no even size but the maximum
  refine hne (k + 1) ?_
  rw [Nat.pow_succ, ← Nat.mul_assoc]
  rw [hbuf, hsize', hmul] at hbound hroom
  rw [sizeBuf32mb_eq] at *
  omega

/-- However the reads come, what is requested is within the bounds just where the configured size doubles
into the maximum. -/
theorem read_sizes_are_safe_iff (configured : Nat) (hpos : 0 < configured) (hlt : configured < 2 ^ 64) (fuel : Nat)
    (hfuel : 26 ≤ fuel) :
    (∀ reads, Along (step fuel configured) Fits (init configured) reads →
      Along (step fuel configured) (Safe fuel configured) (init configured) reads) ↔ DoublesInto configured := by
  constructor
  · intro hsafe
    by_contra hnot
    obtain ⟨hdvd, hlarge⟩ := not_or.1 hnot
    by_cases hle : sizeBuf32mb ≤ configured
    · -- doubled it wraps to a size that is too small
      obtain ⟨hwrap, hwrap'⟩ := not_not.1 (fun h => hlarge ⟨hle, h⟩)
      have hinit : Reached fuel configured (init configured) := ⟨[], trivial, rfl⟩
      obtain ⟨s', hhandle, hrequested, -⟩ := hinit.safe (n := configured) ⟨hpos, Nat.le_refl _⟩ hsafe
      have hnext : nextSize fuel configured 0 configured = .ok (min (configured * 2 % 2 ^ 64) sizeBuf32mb) :=
        nextSize_full fuel (consistent_init configured)
      rw [handle_of_nextSize hnext] at hhandle
      rw [← Except.ok.inj hhandle] at hrequested
      dsimp only at hrequested
      rw [sizeBuf32mb_eq] at *
      obtain ⟨hbuf, -, hroom⟩ := hrequested (by omega)
      rw [hbuf] at hroom
      omega
    · -- its doublings miss the maximum, and there a read of one byte less is not safe
      have hne : ∀ k, configured * 2 ^ k ≠ sizeBuf32mb := fun k hk => hdvd ⟨2 ^ k, hk.symm⟩
      obtain ⟨s, hs, hc, hsize⟩ := reached_maximum fuel hpos (Nat.not_le.1 hle)
      have hfits : Fits s (sizeBuf32mb - 1) := by
        rw [Fits, hsize]
        exact by decide
      exact not_safe_at_maximum hpos (Nat.not_le.1 hle) hne hc hsize (hs.safe hfits hsafe)
  · rintro (hdvd | ⟨hle, hwrap⟩) reads hfits
    · -- the sizes are powers of two up to the maximum
      rw [sizeBuf32mb_eq] at hdvd
      obtain ⟨m, hm, rfl⟩ := (Nat.dvd_prime_pow Nat.prime_two).1 hdvd
      refine Along.of_invariant (I := PowerOfTwo m) (fun s n hs hn => powerOfTwo_safe hm hs hn hfuel) ?_ reads _
        (powerOfTwo_init hm) hfits
      intro s n s' hs hn hstep
      obtain ⟨size, hnext, -⟩ := nextSize_powerOfTwo hs hm hn hfuel
      have hhandle := handle_of_nextSize hnext
      obtain rfl := Option.some.inj ((step_of_handle hhandle).symm.trans hstep)
      exact powerOfTwo_step hm hs hn hfuel hhandle
    · refine Along.of_invariant (I := Large configured) (fun s n hs hn => large_safe hs hle hlt hwrap hn) ?_ reads _
        ⟨rfl, .inl rfl⟩ hfits
      intro s n s' hs hn hstep
      rcases nextSize_large fuel hs hle hlt hwrap hn with hnext | ⟨hnext, -⟩ <;>
      · have hhandle := handle_of_nextSize hnext
        obtain rfl := Option.some.inj ((step_of_handle hhandle).symm.trans hstep)
        exact large_step hs hle hlt hwrap hn hhandle

/-- 64 KiB double into the maximum. -/
theorem read_sizes_are_safe_iff_64k :
    64 * 1024 ∣ sizeBuf32mb ∧ ∀ reads, Along (step 26 (64 * 1024)) Fits (init (64 * 1024)) reads →
      Along (step 26 (64 * 1024)) (Safe 26 (64 * 1024)) (init (64 * 1024)) reads := by
  have hdvd : 64 * 1024 ∣ sizeBuf32mb := by decide
  exact ⟨hdvd, (read_sizes_are_safe_iff (64 * 1024) (by decide) (by decide) 26 (by decide)).2 (.inl hdvd)⟩

/-- 20 MiB do not: when a whole buffer of them was read the next one has 32 MiB, and when 25 MiB of these are
read the next one has 40 MiB. From 10 MiB on the assertion of the loop fails there. -/
theorem read_sizes_not_safe :
    (∃ s, execute (step 26 (20 * 1024 * 1024)) (init (20 * 1024 * 1024)) [20 * 1024 * 1024, 25 * 1024 * 1024] = some s ∧
      s.readBufferSize = 40 * 1024 * 1024) ∧
    (∃ s, execute (step 26 (10 * 1024 * 1024)) (init (10 * 1024 * 1024)) [10 * 1024 * 1024, 20 * 1024 * 1024] = some s ∧
      s.handle 26 (10 * 1024 * 1024) (25 * 1024 * 1024) = .error .assertion) ∧
    ¬ (∀ reads, Along (step 26 (20 * 1024 * 1024)) Fits (init (20 * 1024 * 1024)) reads →
      Along (step 26 (20 * 1024 * 1024)) (Safe 26 (20 * 1024 * 1024)) (init (20 * 1024 * 1024)) reads) := by
  refine ⟨⟨_, rfl, rfl⟩, ⟨_, rfl, rfl⟩, fun hsafe => ?_⟩
  obtain ⟨-, hsecond⟩ := hsafe [20 * 1024 * 1024, 25 * 1024 * 1024] ⟨by decide, by decide, trivial⟩
  obtain ⟨⟨s', hhandle, hrequested, -⟩, -⟩ := hsecond
  obtain rfl := Except.ok.inj hhandle
  exact absurd (hrequested (by decide)) (by decide)

end ReadSizes

end Opio.ProtoEntry
