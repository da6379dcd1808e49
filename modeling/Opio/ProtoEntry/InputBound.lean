/-
How much input an entry keeps. A message that is not complete waits for all the bytes its header
states, and of these only the content is held against the valid size: what is stated as attached is
waited for whatever its size. The input stays bounded, and its buffers within the range of an
`int`, as long as no header states more than fits.
-/
import Opio.ProtoEntry.ShutdownReport

namespace Opio.ProtoEntry

open scoped List

variable {μ : Type}

namespace Entry

variable {env : EntryEnv μ} {e e' e₁ : Entry μ}

/-! ## Headers that were handled -/

theorem skipBytes_fault (h : Ready e.pkgInput) {n : Nat} (hn : e.pkgInput.blocks.flatten.length < n) :
    (onInput fun q => do return ((), ← q.skipBytes n)).run e = .error (.fault .skipShort) e := by
  refine onInput_error ?_
  have hlt : ¬ n ≤ e.pkgInput.totalSize := by
    rw [h.inv.total]
    exact Nat.not_le.2 hn
  rw [PkgInput.skipBytes, PkgInput.skipBytesRec, assertThat_ok h.notServed, ok_bind, assertThat_error hlt]
  rfl

theorem handleMessagePkg_fault {header : PkgHeader} (h : Ready e.pkgInput) (hv : pkgHasValidSize env header = true)
    (hle : packageSize header ≤ e.pkgInput.blocks.flatten.length)
    (hshort : header.advertizedHeaderSize < sizeofPkgHeader) :
    (handleMessagePkg env header).run e = .error (.fault .headerShort) e := by
  have hdata : pkgHasAllTheData e header = true := by
    rw [pkgHasAllTheData, h.size]
    simpa using hle
  have hlt : ¬ 4 * imageSizeDwords.toNat ≤ header.advertizedHeaderSize := Nat.not_le.2 hshort
  have hon : (onInput fun q => do
      assertThat (4 * imageSizeDwords.toNat ≤ header.advertizedHeaderSize) Fault.headerShort
      return ((), ← q.skipBytes header.advertizedHeaderSize)).run e = .error (.fault .headerShort) e :=
    onInput_error (by rw [assertThat_error hlt]; rfl)
  simp only [handleMessagePkg, hv, hdata, EStateM.run_bind, EStateM.run_get, hon, Bool.not_true, Bool.false_eq_true,
    if_false]

theorem heartbeat_fault (env : EntryEnv μ) {header : PkgHeader} (h : Ready e.pkgInput)
    (hcontent : hasContent header = false) (hshort : e.pkgInput.blocks.flatten.length < header.advertizedHeaderSize) :
    (handleHeartbeatRequestPkg env header).run e = .error (.fault .skipShort) e ∧
      (handleHeartbeatReplyPkg env header).run e = .error (.fault .skipShort) e := by
  have hskip := skipBytes_fault h hshort
  constructor
  · simp only [handleHeartbeatRequestPkg, hcontent, Bool.false_eq_true, if_false, EStateM.run_bind, hskip]
  · simp only [handleHeartbeatReplyPkg, hcontent, Bool.false_eq_true, if_false, EStateM.run_bind, hskip]

/-- A header that was handled without a failed assertion was in order. -/
theorem headerOk_of_run (h : Ready e.pkgInput) (hfits : e.pkgInput.Fits)
    (hrun : ∀ f e', (handleSinglePackage env).run e ≠ .error (.fault f) e') : HeaderOk env e.pkgInput.blocks := by
  intro hle
  have hready : Ready e.considered.pkgInput := by
    rw [considered_pkgInput]
    exact h
  have hblocks : e.considered.pkgInput.blocks = e.pkgInput.blocks := by rw [considered_pkgInput]
  rw [run_handleSinglePackage env h (by rw [h.size]; exact hle)] at hrun
  rw [← hblocks] at hrun ⊢
  generalize PkgHeader.ofImage e.considered.pkgInput.blocks.flatten = header at hrun ⊢
  dsimp only
  unfold handlePackage at hrun
  by_cases hmessage : header.pkgContentType = pkgContentMessage
  · rw [if_pos hmessage] at hrun ⊢
    intro hvalid hcomplete
    constructor
    · by_contra hshort
      exact hrun _ _ (handleMessagePkg_fault hready hvalid hcomplete (Nat.not_le.1 hshort))
    · intro _ b hb
      obtain ⟨b', hb', hlen⟩ := Blocks.length_le_of_mem_drop hb
      rw [hblocks] at hb'
      exact hlen.trans_lt (hfits.blocks hb')
  rw [if_neg hmessage] at hrun ⊢
  by_cases hheartbeat : header.pkgContentType = pkgContentHeartbeatRequest ∨
      header.pkgContentType = pkgContentHeartbeatReply
  · rw [if_pos hheartbeat]
    intro hcontent
    by_contra hshort
    obtain ⟨hrequest, hreply⟩ := heartbeat_fault env hready (by simpa using hcontent) (Nat.not_le.1 hshort)
    by_cases hreq : header.pkgContentType = pkgContentHeartbeatRequest
    · rw [if_pos hreq] at hrun
      exact hrun _ _ hrequest
    · rw [if_neg hreq, if_pos (hheartbeat.resolve_left hreq)] at hrun
      exact hrun _ _ hreply
  · rw [if_neg hheartbeat]
    trivial

theorem headerOk_of_ok {r : PackageHandlingResult} (h : Ready e.pkgInput) (hfits : e.pkgInput.Fits)
    (hrun : (handleSinglePackage env).run e = .ok r e') : HeaderOk env e.pkgInput.blocks := by
  apply headerOk_of_run h hfits
  intro f e₂ hfault
  rw [hrun] at hfault
  cases hfault

/-! ## The loop -/

/-- The states the loop passes through have no block outstanding and no buffer that is too large. -/
theorem loopState_fits (h : Ready e.pkgInput) (hfits : e.pkgInput.Fits) (hl : LoopState env e e₁) :
    Ready e₁.pkgInput ∧ e₁.pkgInput.Fits := by
  induction hl with
  | start e => exact ⟨h, hfits⟩
  | @next e e' e'' hrun _ ih =>
    have hok : HeaderOk env e.pkgInput.blocks := headerOk_of_ok h hfits hrun
    have hready : Ready e'.pkgInput := (((handleSinglePackage_sat h hok).ok hrun).2 rfl).1
    have heffect := handleSinglePackage_effect env e
    generalize (handleSinglePackage env).run e = r at hrun heffect
    cases heffect with
    | goesOn _ hgoes =>
      obtain ⟨-, rfl⟩ := EStateM.Result.ok.inj hrun
      exact ih hready (hfits.of_suffix hgoes.slots)
    | rejected =>
      obtain ⟨hinvalid, -⟩ := (invalidPackage_pkgInput env _ _).ok hrun
      cases hinvalid
    | exception => cases hrun
    | fault => cases hrun

/-- A loop that returns has stopped at a package. -/
theorem runInputStreamLoop_stops : ∀ {fuel : Nat} {e : Entry μ}, (runInputStreamLoop env fuel).run e = .ok () e' →
    ∃ e₁ r, LoopState env e e₁ ∧ r ≠ .fullyConsumed ∧ (handleSinglePackage env).run e₁ = .ok r e'
  | 0, e, h => nomatch h
  | fuel + 1, e, h => by
    rw [runInputStreamLoop] at h
    cases hrun : (handleSinglePackage env).run e with
    | error s e₂ =>
      rw [run_bind_of_error hrun] at h
      cases h
    | ok r e₂ =>
      rw [run_bind_of_ok hrun] at h
      cases r with
      | fullyConsumed =>
        obtain ⟨e₁, r, hl, hr, hlast⟩ := runInputStreamLoop_stops h
        exact ⟨e₁, r, .next hrun hl, hr, hlast⟩
      | needsMoreInputData =>
        obtain rfl : e₂ = e' := (EStateM.Result.ok.inj h).2
        exact ⟨e, _, .start e, by simp, hrun⟩
      | invalidPackage =>
        obtain rfl : e₂ = e' := (EStateM.Result.ok.inj h).2
        exact ⟨e, _, .start e, by simp, hrun⟩

/-- An iteration that waits for more leaves the input as it is. -/
theorem verdict_of_more (h : Ready e.pkgInput) (hok : HeaderOk env e.pkgInput.blocks)
    (hrun : (handleSinglePackage env).run e = .ok .needsMoreInputData e') :
    verdict env e.pkgInput.blocks = .more ∧ e'.pkgInput = e.pkgInput := by
  obtain ⟨handler, hhandler, hc⟩ := handleSinglePackage_spec env h hok
  rw [hhandler] at hrun
  cases hv : verdict env e.pkgInput.blocks with
  | more =>
    rw [hv] at hc
    obtain ⟨-, rfl⟩ := EStateM.Result.ok.inj (hc.symm.trans hrun)
    exact ⟨rfl, considered_pkgInput e⟩
  | invalid reason =>
    rw [hv] at hc
    obtain ⟨q, -, hr⟩ := hc
    obtain ⟨hinvalid, -⟩ := (invalidPackage_pkgInput env reason _).ok (hr.symm.trans hrun)
    cases hinvalid
  | heartbeatRequest n =>
    rw [hv] at hc
    obtain ⟨q, -, -, hr⟩ := hc
    cases hr.symm.trans hrun
  | heartbeatReply n =>
    rw [hv] at hc
    obtain ⟨q, -, -, hr⟩ := hc
    cases hr.symm.trans hrun
  | message id content msg attachedBinary n =>
    rw [hv] at hc
    obtain ⟨q, -, -, hr⟩ := hc
    have hconsumed : Sat (consumeMessage env id content msg attachedBinary >>= fun _ =>
        pure PackageHandlingResult.fullyConsumed) { e.considered with pkgInput := q }
        (fun r _ => r = .fullyConsumed) fun _ _ => True :=
      ((consumeMessage_pkgInput env id content msg attachedBinary _).mono (fun _ _ h => h) fun _ _ _ => trivial).bind
        fun _ _ _ => Sat.pure rfl
    cases hconsumed.ok (hr.symm.trans hrun)

/-- An entry whose package is rejected is gone when the loop goes on to return. -/
theorem inactive_of_invalidPackage (hrun : (handleSinglePackage env).run e = .ok .invalidPackage e') :
    e'.connectionIsActive = false := by
  have heffect := handleSinglePackage_effect env e
  generalize (handleSinglePackage env).run e = r at hrun heffect
  cases heffect with
  | goesOn hr _ => exact absurd (EStateM.Result.ok.inj hrun).1 hr
  | @rejected e₁ reason =>
    rcases Bool.eq_false_or_eq_true e₁.connectionIsActive with hact | hact
    · refine (((shutdownAndTerminate_spec env { reason } hact).mono (fun _ _ h => h.2.1) fun _ _ _ => trivial).bind
        (R := fun _ e' => e'.connectionIsActive = false) (E := fun _ _ => True) fun _ _ h => Sat.pure h).ok hrun
    · rw [invalidPackage, run_bind_of_ok (shutdownAndTerminate_inactive env _ hact)] at hrun
      obtain ⟨-, rfl⟩ := EStateM.Result.ok.inj hrun
      exact hact
  | exception => cases hrun
  | fault => cases hrun

/-! ## The bound -/

/-- The most input an entry keeps that waits for a package with nothing attached; `C` is the size of
the largest chunk. -/
def maxBuffered (env : EntryEnv μ) (C : Nat) : Nat := 1020 + env.cfg.maxValidPackageSize.toNat + C

/-- A message that is waited for has a size within the bound, and does not reach `2 ^ 31` bytes with
one chunk more. -/
def StatesAtMost (env : EntryEnv μ) (C : Nat) (blocks : List Bytes) : Prop :=
  sizeofPkgHeader ≤ blocks.flatten.length →
    let header := PkgHeader.ofImage blocks.flatten
    header.pkgContentType = pkgContentMessage → pkgHasValidSize env header = true →
      blocks.flatten.length < packageSize header →
        packageSize header ≤ maxBuffered env C + 1 ∧ packageSize header + C ≤ 2 ^ 31

instance (env : EntryEnv μ) (C : Nat) (blocks : List Bytes) : Decidable (StatesAtMost env C blocks) :=
  inferInstanceAs (Decidable (_ → _ → _ → _ → _ ∧ _))

/-- A chunk is no larger than `C`, and an active entry finds no header in it that states too much. -/
def ChunkOk (env : EntryEnv μ) (C : Nat) (e : Entry μ) : Item → Prop
  | .input _ buf => buf.length ≤ C ∧ (e.connectionIsActive = true →
    ∀ e₀ e₁, appended e buf e₀ → LoopState env e₀ e₁ → StatesAtMost env C e₁.pkgInput.blocks)
  | _ => True

/-- The shutdown handler does not throw when `handle_input` calls it because of an exception. -/
def ReturnsInCatch (env : EntryEnv μ) : Prop :=
  ∀ evs what ctx, env.onShutdown (evs ++
    [.terminate { reason := .exceptionHandlingInput, errMessage := what }, .shutdownHandlerCalled ctx]) = none

/-- With a valid content, only what is attached takes a package over the bound. -/
theorem statesAtMost_of_attachedBinarySize {C : Nat} {blocks : List Bytes}
    (hattached : (PkgHeader.ofImage blocks.flatten).attachedBinarySize.toNat ≤ C + 1)
    (hmax : maxBuffered env C + C < 2 ^ 31) : StatesAtMost env C blocks := by
  intro _ header _ hvalid _
  have hcontent : header.contentSize.toNat ≤ env.cfg.maxValidPackageSize.toNat := by
    simpa [pkgHasValidSize, UInt32.le_iff_toNat_le] using hvalid
  have hheader := header.advertizedHeaderSize_le
  have hsize : packageSize header ≤ maxBuffered env C + 1 := by
    unfold packageSize maxBuffered
    have : header.attachedBinarySize.toNat ≤ C + 1 := hattached
    omega
  exact ⟨hsize, by omega⟩

/-- The input of an entry that waits for more. -/
structure Kept (env : EntryEnv μ) (C : Nat) (e : Entry μ) : Prop where
  ready : Ready e.pkgInput
  fits : e.pkgInput.Fits
  size : e.pkgInput.size ≤ maxBuffered env C
  room : e.pkgInput.size + C < 2 ^ 31

variable {C : Nat}

theorem kept_init (env : EntryEnv μ) (sh : ShutdownHandler) (now : Int) (hC : C ≤ 32 * 1024 * 1024) :
    Kept env C (init env sh now) := by
  refine ⟨⟨PkgInput.inv_init, rfl⟩, ?_, Nat.zero_le _, ?_⟩
  · intro s hs
    cases hs
  · change 0 + C < 2 ^ 31
    omega

/-- One chunk more fits. -/
theorem Kept.appended (hk : Kept env C e) {buf : Bytes} (hlen : buf.length ≤ C) {e₀ : Entry μ}
    (happ : appended e buf e₀) : Ready e₀.pkgInput ∧ e₀.pkgInput.Fits := by
  obtain ⟨q, hq, rfl⟩ := happ
  obtain ⟨q', hq', hready, hbytes⟩ := append_ready hk.ready.inv hk.ready.notServed buf
  obtain rfl : q' = q := Except.ok.inj (hq'.symm.trans hq)
  have hsize : q'.size = e.pkgInput.size + buf.length := by
    rw [hready.size, hbytes, List.length_append, hk.ready.size]
  refine ⟨hready, fun s hs => ?_⟩
  rcases PkgInput.append_slots hk.ready.inv (by decide) hq hs with hold | hnew
  · exact hk.fits s hold
  · have := hk.room
    omega

/-- A header that does not state too much is waited for within the bound. -/
theorem kept_of_more (hready : Ready e.pkgInput) (hfits : e.pkgInput.Fits)
    (hstates : StatesAtMost env C e.pkgInput.blocks)
    (hC : C ≤ 32 * 1024 * 1024) (hrun : (handleSinglePackage env).run e = .ok .needsMoreInputData e') :
    Kept env C e' := by
  have hok : HeaderOk env e.pkgInput.blocks := headerOk_of_ok hready hfits hrun
  obtain ⟨hmore, hinput⟩ := verdict_of_more hready hok hrun
  have hsize : e.pkgInput.size < sizeofPkgHeader ∨
      e.pkgInput.size ≤ maxBuffered env C ∧ e.pkgInput.size + C < 2 ^ 31 := by
    rw [hready.size]
    unfold verdict at hmore
    split at hmore
    · left
      assumption
    rename_i hge
    have hstates := hstates (Nat.not_lt.1 hge)
    dsimp only at hmore hstates
    split at hmore
    · rename_i hmessage
      split at hmore
      · cases hmore
      rename_i hvalid
      split at hmore
      · rename_i hlt
        obtain ⟨hmax, hroom⟩ := hstates hmessage (by simpa using hvalid) hlt
        right
        omega
      · rcases messageVerdict_cases env (PkgHeader.ofImage e.pkgInput.blocks.flatten)
          (Blocks.drop (PkgHeader.ofImage e.pkgInput.blocks.flatten).advertizedHeaderSize e.pkgInput.blocks) with
          ⟨reason, h⟩ | ⟨id, content, msg, attachedBinary, h⟩ <;> rw [h] at hmore <;> cases hmore
    · -- no other package is waited for
      unfold heartbeatVerdict at hmore
      split at hmore
      · split at hmore <;> cases hmore
      · split at hmore
        · split at hmore <;> cases hmore
        · cases hmore
  rw [← hinput] at hready hfits hsize
  have hsmall : sizeofPkgHeader = 12 := rfl
  refine ⟨hready, hfits, ?_, ?_⟩
  · unfold maxBuffered at hsize ⊢
    omega
  · omega

theorem shutdown_in_catch (hret : ReturnsInCatch env) (what : String) (e : Entry μ) :
    ∃ e', (shutdownAndTerminate env { reason := .exceptionHandlingInput, errMessage := what }).run e = .ok () e' ∧
      e'.connectionIsActive = false := by
  rcases Bool.eq_false_or_eq_true e.connectionIsActive with hact | hact
  · have hcall : e.shutDown.shutdownHandler.throws env
        (e.shutDown.calling { reason := .exceptionHandlingInput, errMessage := what }).events = none := by
      unfold calling
      cases e.shutDown.shutdownHandler with
      | notSupplied => rfl
      | wasCalled => rfl
      | handler => exact hret _ what none
      | handler2 => exact hret _ what _
    rw [run_shutdownAndTerminate env _ hact, giveUp, hcall]
    exact ⟨_, rfl, rfl⟩
  · exact ⟨e, shutdownAndTerminate_inactive env _ hact, hact⟩

/-! ## Every item of a run -/

theorem kept_input (hret : ReturnsInCatch env) (hC : C ≤ 32 * 1024 * 1024) {fuel : Nat} {now : Int} {buf : Bytes}
    (hk : Kept env C e) (hact : e.connectionIsActive = true) (hok : ChunkOk env C e (.input now buf))
    (h : after env fuel e (.input now buf) = some e') (hact' : e'.connectionIsActive = true) : Kept env C e' := by
  obtain ⟨hlen, hstates⟩ := hok
  obtain ⟨q, hq, -⟩ := append_ready hk.ready.inv hk.ready.notServed buf
  have happ : appended e buf { e with pkgInput := q } := ⟨q, hq, rfl⟩
  obtain ⟨hready, hfits⟩ := hk.appended hlen happ
  have hleaves : Leaves ((handleInput env fuel now buf).run e) e' := after_leaves h
  rw [run_handleInput happ] at hleaves
  cases hloop : (runInputStreamLoop env fuel).run { e with pkgInput := q } with
  | ok _ e₁ =>
    rw [hloop] at hleaves
    obtain rfl : e' = { e₁ with lastInputAt := now, heartbeatSentCount := 0 } := hleaves.of_ok
    obtain ⟨e₂, r, hl, hr, hlast⟩ := runInputStreamLoop_stops hloop
    obtain ⟨hready₂, hfits₂⟩ := loopState_fits hready hfits hl
    cases r with
    | fullyConsumed => exact absurd rfl hr
    | invalidPackage =>
      have hgone := inactive_of_invalidPackage hlast
      simp [hgone] at hact'
    | needsMoreInputData =>
      obtain ⟨hready₁, hfits₁, hsize, hroom⟩ := kept_of_more hready₂ hfits₂ (hstates hact _ _ happ hl) hC hlast
      exact ⟨hready₁, hfits₁, hsize, hroom⟩
  | error s e₁ =>
    rw [hloop] at hleaves
    cases s with
    | thrown what =>
      obtain ⟨e₂, hcatch, hgone⟩ := shutdown_in_catch hret what e₁
      change Leaves ((shutdownAndTerminate env _).run e₁) e' at hleaves
      rw [hcatch] at hleaves
      rw [hleaves.of_ok, hgone] at hact'
      cases hact'
    | fault f =>
      obtain ⟨what, heq⟩ := hleaves.isThrown
      cases heq
    | diverged =>
      obtain ⟨what, heq⟩ := hleaves.isThrown
      cases heq

/-- Other items leave the input alone. -/
theorem kept_step (hret : ReturnsInCatch env) (hC : C ≤ 32 * 1024 * 1024) {fuel : Nat} {i : Item}
    (hk : e.connectionIsActive = true → Kept env C e) (hok : ChunkOk env C e i) (h : after env fuel e i = some e')
    (hact' : e'.connectionIsActive = true) : Kept env C e' := by
  have hact := active_of_after h hact'
  obtain ⟨hready, hfits, hsize, hroom⟩ := hk hact
  have hsame : e'.pkgInput = e.pkgInput → Kept env C e' := by
    intro heq
    rw [← heq] at hready hfits hsize hroom
    exact ⟨hready, hfits, hsize, hroom⟩
  cases i with
  | input now buf => exact kept_input hret hC ⟨hready, hfits, hsize, hroom⟩ hact hok h hact'
  | close => exact hsame (((after_leaves h).sat (shutdownAndTerminate_pkgInput env _ e)).elim id id)
  | connectionShutdown reason => exact hsame (((after_leaves h).sat (handleShutdown_pkgInput env reason e)).elim id id)
  | checkHeartbeat now => exact hsame (((after_leaves h).sat (onCheckHeartbeat_pkgInput env now e)).elim id id)

/-- As long as the entry is active its input is within the bound after the item; and in a chunk no
buffer of the ring reaches `2 ^ 31` bytes, so that `Next` is exact wherever a parse gets to. -/
structure InputBounded (env : EntryEnv μ) (fuel : Nat) (C : Nat) (e : Entry μ) (i : Item) : Prop where
  size : ∀ e', after env fuel e i = some e' → e'.connectionIsActive = true → e'.pkgInput.size ≤ maxBuffered env C
  fits : e.connectionIsActive = true → ∀ now buf e₀ e₁, i = .input now buf → appended e buf e₀ → LoopState env e₀ e₁ →
    e₁.pkgInput.Fits ∧ ∀ n calls q₁ q₂, e₁.pkgInput.skipBytes n = .ok q₁ → q₁.zeroCopyCalls calls = .ok q₂ →
      q₂.NextIsExact

/-- The input of an entry is bounded in every run in which no header that is waited for states too
much, unless the shutdown handler throws and keeps an entry from terminating. -/
theorem input_is_bounded (env : EntryEnv μ) (hret : ReturnsInCatch env) (fuel : Nat) (sh : ShutdownHandler) (now : Int)
    (hC : C ≤ 32 * 1024 * 1024) {items : List Item}
    (h : Along (after env fuel) (ChunkOk env C) (init env sh now) items) :
    Along (after env fuel) (InputBounded env fuel C) (init env sh now) items := by
  refine Along.of_invariant (I := fun e => e.connectionIsActive = true → Kept env C e) ?_ ?_ items _
    (fun _ => kept_init env sh now hC) h
  · intro e i hk hok
    constructor
    · intro e' hafter hact'
      exact (kept_step hret hC hk hok hafter hact').size
    · rintro hact now buf e₀ e₁ rfl happ hl
      obtain ⟨hready, hfits⟩ := (hk hact).appended hok.1 happ
      obtain ⟨hready₁, hfits₁⟩ := loopState_fits hready hfits hl
      exact ⟨hfits₁, fun n calls q₁ q₂ hskip hcalls => hfits₁.parse_exact hready₁.inv hskip hcalls⟩
  · intro e i e' hk hok hafter hact'
    exact kept_step hret hC hk hok hafter hact'

/-- `ChunkOk`, as far as the given number of iterations shows it. -/
def checkChunk (env : EntryEnv μ) (C fuel : Nat) (e : Entry μ) : Item → Bool
  | .input now buf => decide (buf.length ≤ C) && checkInput (StatesAtMost env C) env fuel e (.input now buf)
  | _ => true

theorem chunkOk_of_checkChunk {fuel : Nat} {i : Item} (h : checkChunk env C fuel e i = true) : ChunkOk env C e i := by
  cases i with
  | input now buf =>
    obtain ⟨hlen, hinput⟩ := Bool.and_eq_true_iff.1 h
    exact ⟨of_decide_eq_true hlen, fun _ => (inputOk_of_checkInput hinput).2⟩
  | _ => trivial

/-- A message that comes in two chunks with its attachment. -/
theorem input_is_bounded_message :
    Along (after (plainEnv .raw) 5) (InputBounded (plainEnv .raw) 5 20) (init (plainEnv .raw) .notSupplied 0)
      [.input 1 ((PkgHeader.make pkgContentHeartbeatRequest).image ++ [0, 3, 1, 0, 2]),
        .input 2 [0, 0, 0, 1, 0, 0, 0, 7, 8, 9, 2], .close] :=
  input_is_bounded _ (fun _ _ _ => rfl) _ _ _ (by decide)
    (Along.mono (P := fun e i => checkChunk (plainEnv .raw) 20 5 e i = true) (fun _ _ => chunkOk_of_checkChunk)
      (by decide +kernel))

/-- The first bytes of a message without content that states sixteen megabytes of attached binary. -/
def attachedHeader : Bytes := [0, 3, 1, 0, 0, 0, 0, 0, 0, 0, 0, 1]

/-- The entry goes on waiting for what is attached, past the bound. -/
theorem input_is_not_bounded :
    ∃ e, execute (after (plainEnv .raw) 5) (init (plainEnv .raw) .notSupplied 0)
        [.input 1 (attachedHeader ++ List.replicate 1109 0), .input 2 (List.replicate 1121 0)] = some e ∧
      (attachedHeader ++ List.replicate 1109 0).length = 1121 ∧ e.connectionIsActive = true ∧
      maxBuffered (plainEnv .raw) 1121 < e.pkgInput.size := by
  obtain ⟨e, hrun, hact, hsize⟩ := exists_execute (after (plainEnv .raw) 5) (init (plainEnv .raw) .notSupplied 0)
    [.input 1 (attachedHeader ++ List.replicate 1109 0), .input 2 (List.replicate 1121 0)]
    (fun e => e.connectionIsActive = true ∧ maxBuffered (plainEnv .raw) 1121 < e.pkgInput.size) (by decide +kernel)
  exact ⟨e, hrun, by rw [List.length_append, List.length_replicate]; rfl, hact, hsize⟩

end Entry

end Opio.ProtoEntry
