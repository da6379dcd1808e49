/-
One iteration of the input loop, said once: what the head of the input asks for, read off its
blocks, and that `handle_single_package` does just that as long as the header keeps the
assertions. Everything about the input loop follows from this.
-/
import Opio.ProtoEntry.Shutdown

namespace Opio.ProtoEntry

variable {μ : Type}

/-- What the head of the input asks for. -/
inductive Verdict (μ : Type)
  | more
  | invalid (reason : EntryShutdownReason)
  | heartbeatRequest (n : Nat)
  | heartbeatReply (n : Nat)
  | message (id : UInt16) (content : Bytes) (msg : μ) (attachedBinary : Bytes) (n : Nat)
  deriving DecidableEq

namespace Entry

/-- The body of a message, parsed over the blocks that hold it; `size` is what is consumed in all. -/
def messageVerdict (env : EntryEnv μ) (header : PkgHeader) (body : List Bytes) (size : Nat) : Verdict μ :=
  match env.engines header.contentSpecificValue with
  | none => .invalid .unexpectedInputPackageSize
  | some engine =>
    let n := header.contentSize.toNat
    if ZeroCopyCall.consumed body (engine.calls body n) ≠ n then
      .invalid .invalidInputPackage
    else
      match engine.result body n with
      | none => .invalid .invalidInputPackage
      | some msg =>
        .message header.contentSpecificValue (body.flatten.take n) msg
          ((body.flatten.drop n).take header.attachedBinarySize.toNat) size

def heartbeatVerdict (header : PkgHeader) (v : Nat → Verdict μ) : Verdict μ :=
  if hasContent header then .invalid .invalidHeartbeatPackage else v header.advertizedHeaderSize

def verdict (env : EntryEnv μ) (blocks : List Bytes) : Verdict μ :=
  if blocks.flatten.length < sizeofPkgHeader then
    .more
  else
    let header := PkgHeader.ofImage blocks.flatten
    if header.pkgContentType = pkgContentMessage then
      if !pkgHasValidSize env header then
        .invalid .invalidInputPackageSize
      else if blocks.flatten.length < packageSize header then
        .more
      else
        messageVerdict env header (Blocks.drop header.advertizedHeaderSize blocks) (packageSize header)
    else if header.pkgContentType = pkgContentHeartbeatRequest then
      heartbeatVerdict header .heartbeatRequest
    else if header.pkgContentType = pkgContentHeartbeatReply then
      heartbeatVerdict header .heartbeatReply
    else
      .invalid .unknownPkgContentType

/-- A complete message header keeps its assertion, and its parser gets blocks whose sizes fit an `int`. -/
def MessageHeaderOk (env : EntryEnv μ) (header : PkgHeader) (blocks : List Bytes) : Prop :=
  pkgHasValidSize env header → packageSize header ≤ blocks.flatten.length →
    sizeofPkgHeader ≤ header.advertizedHeaderSize ∧
      ((env.engines header.contentSpecificValue).isSome →
        ∀ b ∈ Blocks.drop header.advertizedHeaderSize blocks, b.length < 2 ^ 31)

/-- The header of a heartbeat advertises no more than is there. -/
def HeartbeatHeaderOk (header : PkgHeader) (blocks : List Bytes) : Prop :=
  ¬ hasContent header → header.advertizedHeaderSize ≤ blocks.flatten.length

instance (env : EntryEnv μ) (header : PkgHeader) (blocks : List Bytes) :
    Decidable (MessageHeaderOk env header blocks) :=
  inferInstanceAs (Decidable (_ → _ → _ ∧ _))

instance (header : PkgHeader) (blocks : List Bytes) : Decidable (HeartbeatHeaderOk header blocks) :=
  inferInstanceAs (Decidable (_ → _))

/-- The header at the head of the input drives no call on it outside its precondition. -/
def HeaderOk (env : EntryEnv μ) (blocks : List Bytes) : Prop :=
  sizeofPkgHeader ≤ blocks.flatten.length →
    let header := PkgHeader.ofImage blocks.flatten
    if header.pkgContentType = pkgContentMessage then
      MessageHeaderOk env header blocks
    else if header.pkgContentType = pkgContentHeartbeatRequest ∨ header.pkgContentType = pkgContentHeartbeatReply then
      HeartbeatHeaderOk header blocks
    else True

instance (env : EntryEnv μ) (blocks : List Bytes) : Decidable (HeaderOk env blocks) :=
  inferInstanceAs (Decidable (_ → ite _ _ _))

/-! ## Calls on the input -/

/-- An input with no block outstanding, ready for the next header. -/
structure Ready (q : PkgInput 8) : Prop where
  inv : q.Inv
  notServed : q.firstBufferServed = false

theorem Ready.view {q : PkgInput 8} (h : Ready q) : q.view = q.blocks := PkgInput.view_not_served h.notServed

theorem Ready.size {q : PkgInput 8} (h : Ready q) : q.size = q.blocks.flatten.length := h.inv.total

theorem skipBytes_ready {e : Entry μ} (h : Ready e.pkgInput) {n : Nat} (hn : n ≤ e.pkgInput.blocks.flatten.length) :
    ∃ q, e.pkgInput.skipBytes n = .ok q ∧ Ready q ∧ q.blocks = Blocks.drop n e.pkgInput.blocks := by
  obtain ⟨q, hq, hi, hs, hb, -⟩ := PkgInput.skipBytes_spec h.inv h.notServed (n := n) (by rw [h.inv.total]; exact hn)
  exact ⟨q, hq, ⟨hi, hs⟩, hb⟩

/-- What a parse leaves, and what comes of it. -/
theorem parsePackage_spec (engine : ProtobufEngine μ) {e : Entry μ} (h : Ready e.pkgInput) {n : Nat}
    (hn : n ≤ e.pkgInput.blocks.flatten.length) (hsmall : ∀ b ∈ e.pkgInput.blocks, b.length < 2 ^ 31) :
    ∃ q, q.Inv ∧
      q.view.flatten = e.pkgInput.blocks.flatten.drop
        (ZeroCopyCall.consumed e.pkgInput.blocks (engine.calls e.pkgInput.blocks n)) ∧
      (parsePackage engine n).run e =
        .ok (if ZeroCopyCall.consumed e.pkgInput.blocks (engine.calls e.pkgInput.blocks n) ≠ n then none
          else engine.result e.pkgInput.blocks n) { e with pkgInput := q } := by
  obtain ⟨q, hcalls, hi, hbyte, hf⟩ := PkgInput.zeroCopyCalls_spec (engine.calls e.pkgInput.blocks n) e.pkgInput n
    h.inv (by rw [h.view]; exact hn) (by rw [h.view]; exact hsmall)
    (by rw [h.view]; exact engine.legal _ _ hsmall hn)
  rw [h.view] at hbyte hf
  refine ⟨q, hi, hf, ?_⟩
  have hon : (onInput fun q => do return ((), ← q.zeroCopyCalls (engine.calls e.pkgInput.blocks n))).run e =
      .ok () { e with pkgInput := q } := onInput_ok (by rw [hcalls]; rfl)
  have hcount : q.byteCount - e.pkgInput.byteCount ≠ (n : Int) ↔
      ZeroCopyCall.consumed e.pkgInput.blocks (engine.calls e.pkgInput.blocks n) ≠ n := by
    rw [hbyte]
    omega
  simp only [parsePackage, EStateM.run_bind, EStateM.run_get, h.view, hon, hcount]
  split <;> rfl

/-! ## The handlers -/

/-- The entry after the header at the head of its input, if there is one, was looked at. -/
def considered (e : Entry μ) : Entry μ :=
  if sizeofPkgHeader ≤ e.pkgInput.size then
    { e with events := e.events ++ [.considerHeader (PkgHeader.ofImage e.pkgInput.blocks.flatten) e.pkgInput.size] }
  else e

/-- How a handler, run from `e`, carries a verdict out. -/
def CarriesOut (env : EntryEnv μ) (handler : EntryM μ PackageHandlingResult) (e : Entry μ) : Verdict μ → Prop
  | .more => handler.run e = .ok .needsMoreInputData e
  | .invalid reason => ∃ q, q.Inv ∧ handler.run e = (invalidPackage env reason).run { e with pkgInput := q }
  | .heartbeatRequest n => ∃ q, Ready q ∧ q.blocks.flatten = e.pkgInput.blocks.flatten.drop n ∧
    handler.run e = .ok .fullyConsumed { e with
      pkgInput := q
      events := if e.connectionIsActive then
        e.events ++ [.scheduleSend (PkgHeader.make pkgContentHeartbeatReply).image] else e.events }
  | .heartbeatReply n => ∃ q, Ready q ∧ q.blocks.flatten = e.pkgInput.blocks.flatten.drop n ∧
    handler.run e = .ok .fullyConsumed { e with pkgInput := q }
  | .message id content msg attachedBinary n =>
    ∃ q, Ready q ∧ q.blocks.flatten = e.pkgInput.blocks.flatten.drop n ∧
      handler.run e = (consumeMessage env id content msg attachedBinary >>= fun _ =>
        pure PackageHandlingResult.fullyConsumed).run { e with pkgInput := q }

variable {env : EntryEnv μ} {e : Entry μ} {header : PkgHeader}

/-- What is read behind the content: first the block that is outstanding is confirmed, then come the bytes attached,
which are read only if there are any. -/
theorem attachedBinary_spec (hi : e.pkgInput.Inv) (size : UInt32) (hlen : size.toNat ≤ e.pkgInput.view.flatten.length) :
    ∃ q₁ q₂, (onInput fun q => q.skip 0).run e = .ok true { e with pkgInput := q₁ } ∧
      (if size = 0 then pure [] else onInput fun q => q.readBuffer size.toNat : EntryM μ Bytes).run
          { e with pkgInput := q₁ } = .ok (e.pkgInput.view.flatten.take size.toNat) { e with pkgInput := q₂ } ∧
      Ready q₂ ∧ q₂.blocks.flatten = e.pkgInput.view.flatten.drop size.toNat := by
  obtain ⟨q₁, hskip, hi₁, hs₁, hb₁, -⟩ := PkgInput.skip_spec hi (Nat.zero_le _)
  rw [Blocks.drop_zero] at hb₁
  have hcont : q₁.contents = e.pkgInput.view.flatten := congrArg List.flatten hb₁
  refine ⟨q₁, ?_⟩
  rcases eq_or_ne size 0 with rfl | h0
  · refine ⟨q₁, onInput_ok hskip, ?_, ⟨hi₁, hs₁⟩, hcont⟩
    rw [if_pos rfl]
    rfl
  · have hpos : 0 < size.toNat := by
      rw [Nat.pos_iff_ne_zero]
      exact fun h => h0 (UInt32.toNat_inj.1 h)
    obtain ⟨q₂, hread, hi₂, hs₂, hb₂, -⟩ := PkgInput.readBuffer_spec hi₁ hs₁ hpos (by rwa [hi₁.total, hcont])
    rw [hcont] at hread
    refine ⟨q₂, onInput_ok hskip, ?_, ⟨hi₂, hs₂⟩, ?_⟩
    · rw [if_neg h0]
      exact onInput_ok hread
    · rw [hb₂, Blocks.flatten_drop, ← hcont]
      rfl

theorem handleIncomingMessage_spec (h : Ready e.pkgInput)
    (hlen : header.contentSize.toNat + header.attachedBinarySize.toNat ≤ e.pkgInput.blocks.flatten.length)
    (hsmall : (env.engines header.contentSpecificValue).isSome → ∀ b ∈ e.pkgInput.blocks, b.length < 2 ^ 31) :
    CarriesOut env (handleIncomingMessage env header) e
      (messageVerdict env header e.pkgInput.blocks (header.contentSize.toNat + header.attachedBinarySize.toNat)) := by
  unfold messageVerdict
  cases hengine : env.engines header.contentSpecificValue with
  | none =>
    refine ⟨e.pkgInput, h.inv, ?_⟩
    simp only [handleIncomingMessage, hengine]
  | some engine =>
    obtain ⟨q, hi, hf, hparse⟩ := parsePackage_spec engine h ((Nat.le_add_right _ _).trans hlen)
      (hsmall (by rw [hengine]; rfl))
    dsimp only
    split_ifs with hne
    · rw [if_pos hne] at hparse
      refine ⟨q, hi, ?_⟩
      simp only [handleIncomingMessage, hengine, EStateM.run_bind, EStateM.run_get, hparse]
    · rw [if_neg hne] at hparse
      rw [not_not.1 hne] at hf
      cases hresult : engine.result e.pkgInput.blocks header.contentSize.toNat with
      | none =>
        rw [hresult] at hparse
        refine ⟨q, hi, ?_⟩
        simp only [handleIncomingMessage, hengine, EStateM.run_bind, EStateM.run_get, hparse]
      | some msg =>
        rw [hresult] at hparse
        dsimp only
        obtain ⟨q₁, q₂, hskip, hread, hq₂, hd⟩ := attachedBinary_spec (e := { e with pkgInput := q }) hi
          header.attachedBinarySize (by rw [hf, List.length_drop]; omega)
        rw [hf] at hread hd
        refine ⟨q₂, hq₂, hd.trans (List.drop_drop ..), ?_⟩
        by_cases h0 : header.attachedBinarySize = 0
        · rw [if_pos h0] at hread
          simp only [handleIncomingMessage, hengine, EStateM.run_bind, EStateM.run_get, hparse, hskip, if_pos h0,
            h.view, hread]
        · rw [if_neg h0] at hread
          simp only [handleIncomingMessage, hengine, EStateM.run_bind, EStateM.run_get, hparse, hskip, if_neg h0,
            h.view, hread]

/-- A message is given up or delivered, whatever its size is counted from. -/
theorem messageVerdict_cases (env : EntryEnv μ) (header : PkgHeader) (body : List Bytes) :
    (∃ reason, ∀ size, messageVerdict env header body size = .invalid reason) ∨
      ∃ id content msg attachedBinary, ∀ size,
        messageVerdict env header body size = .message id content msg attachedBinary size := by
  unfold messageVerdict
  cases env.engines header.contentSpecificValue with
  | none => exact .inl ⟨_, fun _ => rfl⟩
  | some engine =>
    dsimp only
    split
    · exact .inl ⟨_, fun _ => rfl⟩
    · cases engine.result body header.contentSize.toNat with
      | none => exact .inl ⟨_, fun _ => rfl⟩
      | some msg => exact .inr ⟨_, _, _, _, fun _ => rfl⟩

theorem handleMessagePkg_spec (h : Ready e.pkgInput) (hok : MessageHeaderOk env header e.pkgInput.blocks) :
    CarriesOut env (handleMessagePkg env header) e
      (if !pkgHasValidSize env header then .invalid .invalidInputPackageSize
        else if e.pkgInput.blocks.flatten.length < packageSize header then .more
        else messageVerdict env header (Blocks.drop header.advertizedHeaderSize e.pkgInput.blocks)
          (packageSize header)) := by
  split
  · rename_i hvalid
    exact ⟨e.pkgInput, h.inv, by simp only [handleMessagePkg, hvalid, if_true]⟩
  rename_i hvalid
  have hv : pkgHasValidSize env header = true := by simpa using hvalid
  split
  · rename_i hlt
    have hdata : pkgHasAllTheData e header = false := by
      rw [pkgHasAllTheData, h.size]
      simpa using hlt
    simp [CarriesOut, handleMessagePkg, hv, hdata]
  rename_i hge
  have hle := Nat.not_lt.1 hge
  have hdata : pkgHasAllTheData e header = true := by
    rw [pkgHasAllTheData, h.size]
    simpa using hge
  -- all of the package is there, so its header is skipped and what follows is read
  obtain ⟨hadv, hsmall⟩ := hok hv hle
  have hsum : header.advertizedHeaderSize ≤ packageSize header := by unfold packageSize; omega
  obtain ⟨q, hskip, hq, hb⟩ := skipBytes_ready h (hsum.trans hle)
  have hon : (onInput fun q => do
      assertThat (4 * imageSizeDwords.toNat ≤ header.advertizedHeaderSize) Fault.headerShort
      return ((), ← q.skipBytes header.advertizedHeaderSize)).run e = .ok () { e with pkgInput := q } :=
    onInput_ok (by rw [assertThat_ok (show 4 * imageSizeDwords.toNat ≤ _ from hadv), hskip]; rfl)
  have hrun :
      (handleMessagePkg env header).run e = (handleIncomingMessage env header).run { e with pkgInput := q } := by
    simp only [handleMessagePkg, hv, hdata, EStateM.run_bind, EStateM.run_get, hon, Bool.not_true, Bool.false_eq_true,
      if_false]
  have hlen : header.contentSize.toNat + header.attachedBinarySize.toNat ≤ q.blocks.flatten.length := by
    rw [hb, Blocks.flatten_drop, List.length_drop]
    unfold packageSize at hle
    omega
  have hspec : CarriesOut env (handleIncomingMessage env header) { e with pkgInput := q } (messageVerdict env header
      q.blocks (header.contentSize.toNat + header.attachedBinarySize.toNat)) :=
    handleIncomingMessage_spec hq hlen (by rw [hb]; exact hsmall)
  rw [← hb]
  rcases messageVerdict_cases env header q.blocks with ⟨reason, hmv⟩ | ⟨id, content, msg, attachedBinary, hmv⟩
  · rw [hmv] at hspec ⊢
    obtain ⟨q', hi', hr⟩ := hspec
    exact ⟨q', hi', hrun.trans hr⟩
  · rw [hmv] at hspec ⊢
    obtain ⟨q', hq', hd, hr⟩ := hspec
    refine ⟨q', hq', ?_, hrun.trans hr⟩
    dsimp only at hd
    rw [hd, hb, Blocks.flatten_drop, List.drop_drop, packageSize, Nat.add_assoc]

theorem handleHeartbeatRequestPkg_spec (h : Ready e.pkgInput) (hok : HeartbeatHeaderOk header e.pkgInput.blocks) :
    CarriesOut env (handleHeartbeatRequestPkg env header) e (heartbeatVerdict header .heartbeatRequest) := by
  unfold heartbeatVerdict
  split
  · rename_i hcontent
    exact ⟨e.pkgInput, h.inv, by simp only [handleHeartbeatRequestPkg, hcontent, if_true]⟩
  · rename_i hcontent
    obtain ⟨q, hskip, hq, hb⟩ := skipBytes_ready h (hok hcontent)
    have hon : (onInput fun q => do return ((), ← q.skipBytes header.advertizedHeaderSize)).run e =
        .ok () { e with pkgInput := q } := onInput_ok (by rw [hskip]; rfl)
    refine ⟨q, hq, by rw [hb, Blocks.flatten_drop], ?_⟩
    rcases Bool.eq_false_or_eq_true e.connectionIsActive with hact | hact
    · simp only [handleHeartbeatRequestPkg, hcontent, Bool.false_eq_true, if_false, EStateM.run_bind, hon,
        EStateM.run_get, hact, if_true, emit, EStateM.run_modify, EStateM.run_pure]
    · simp only [handleHeartbeatRequestPkg, hcontent, if_false, EStateM.run_bind, hon, EStateM.run_get, hact,
        EStateM.run_pure, Bool.false_eq_true]

theorem handleHeartbeatReplyPkg_spec (h : Ready e.pkgInput) (hok : HeartbeatHeaderOk header e.pkgInput.blocks) :
    CarriesOut env (handleHeartbeatReplyPkg env header) e (heartbeatVerdict header .heartbeatReply) := by
  unfold heartbeatVerdict
  split
  · rename_i hcontent
    exact ⟨e.pkgInput, h.inv, by simp only [handleHeartbeatReplyPkg, hcontent, if_true]⟩
  · rename_i hcontent
    obtain ⟨q, hskip, hq, hb⟩ := skipBytes_ready h (hok hcontent)
    have hon : (onInput fun q => do return ((), ← q.skipBytes header.advertizedHeaderSize)).run e =
        .ok () { e with pkgInput := q } := onInput_ok (by rw [hskip]; rfl)
    refine ⟨q, hq, by rw [hb, Blocks.flatten_drop], ?_⟩
    simp only [handleHeartbeatReplyPkg, hcontent, if_false, EStateM.run_bind, hon, EStateM.run_pure, Bool.false_eq_true]

/-! ## One iteration -/

/-- A header that is there is looked at, and decides what comes next. -/
theorem run_handleSinglePackage (env : EntryEnv μ) {e : Entry μ} (h : Ready e.pkgInput)
    (hle : sizeofPkgHeader ≤ e.pkgInput.size) :
    (handleSinglePackage env).run e =
      (handlePackage env (PkgHeader.ofImage e.pkgInput.blocks.flatten)).run e.considered := by
  have hcons : e.considered = { e with
      events := e.events ++ [.considerHeader (PkgHeader.ofImage e.pkgInput.blocks.flatten) e.pkgInput.size] } :=
    if_pos hle
  have hview : (onInput fun q => do return (← q.viewPkgHeader, q)).run e =
      .ok (PkgHeader.ofImage e.pkgInput.blocks.flatten) e :=
    onInput_ok (by rw [PkgInput.viewPkgHeader_spec h.inv h.notServed hle]; rfl)
  rw [hcons]
  simp only [handleSinglePackage, EStateM.run_bind, EStateM.run_get, hle, if_true, hview, emit, EStateM.run_modify]

/-- The head of a ready input is handled as its verdict says. -/
theorem handleSinglePackage_spec (env : EntryEnv μ) {e : Entry μ} (h : Ready e.pkgInput)
    (hok : HeaderOk env e.pkgInput.blocks) :
    ∃ handler, (handleSinglePackage env).run e = handler.run e.considered ∧
      CarriesOut env handler e.considered (verdict env e.pkgInput.blocks) := by
  unfold verdict
  split
  · rename_i hlt
    rw [← h.size] at hlt
    have hcons : e.considered = e := if_neg (Nat.not_le.2 hlt)
    refine ⟨handleSinglePackage env, by rw [hcons], ?_⟩
    rw [hcons]
    simp [CarriesOut, handleSinglePackage, Nat.not_le.2 hlt]
  · rename_i hge
    have hle := Nat.not_lt.1 hge
    have hok := hok hle
    rw [← h.size] at hle
    have hcons : e.considered = { e with
        events := e.events ++ [.considerHeader (PkgHeader.ofImage e.pkgInput.blocks.flatten) e.pkgInput.size] } :=
      if_pos hle
    have hready : Ready e.considered.pkgInput := by rw [hcons]; exact h
    have hblocks : e.considered.pkgInput.blocks = e.pkgInput.blocks := by rw [hcons]
    refine ⟨handlePackage env (PkgHeader.ofImage e.pkgInput.blocks.flatten), run_handleSinglePackage env h hle, ?_⟩
    dsimp only at hok ⊢
    rw [← hblocks] at hok ⊢
    unfold handlePackage
    by_cases hmessage : (PkgHeader.ofImage e.considered.pkgInput.blocks.flatten).pkgContentType = pkgContentMessage
    · rw [if_pos hmessage] at hok
      rw [if_pos hmessage, if_pos hmessage]
      exact handleMessagePkg_spec hready hok
    rw [if_neg hmessage] at hok
    rw [if_neg hmessage, if_neg hmessage]
    by_cases hrequest :
      (PkgHeader.ofImage e.considered.pkgInput.blocks.flatten).pkgContentType = pkgContentHeartbeatRequest
    · rw [if_pos (.inl hrequest)] at hok
      rw [if_pos hrequest, if_pos hrequest]
      exact handleHeartbeatRequestPkg_spec hready hok
    rw [if_neg hrequest, if_neg hrequest]
    by_cases hreply : (PkgHeader.ofImage e.considered.pkgInput.blocks.flatten).pkgContentType = pkgContentHeartbeatReply
    · rw [if_pos (.inr hreply)] at hok
      rw [if_pos hreply, if_pos hreply]
      exact handleHeartbeatReplyPkg_spec hready hok
    rw [if_neg hreply, if_neg hreply]
    exact ⟨e.considered.pkgInput, hready.inv, rfl⟩

end Entry

end Opio.ProtoEntry
