/-
A decoder of the package protocol that reads bytes, with no queue of blocks and no state: what
the input loop comes to when the parsers look at nothing but the content of a message.
-/
import Opio.Lib.Incremental
import Opio.ProtoEntry.InputLoop

namespace Opio.ProtoEntry

open Incremental

variable {μ : Type}

namespace Decoder

/-! ## The reference -/

/-- The end of a connection that carries something else than packages. -/
def shutdown (reason : EntryShutdownReason) : Head (Event μ) := .stop [.terminate { reason }]

/-- The types a decoder accepts, with the messages their contents stand for. -/
abbrev Parsers (μ : Type) := UInt16 → Option (Bytes → Option μ)

/-- The message behind a header, once all of it is there. -/
def message (parsers : Parsers μ) (header : PkgHeader) (body : Bytes) : Head (Event μ) :=
  match parsers header.contentSpecificValue with
  | none => shutdown .unexpectedInputPackageSize
  | some parse =>
    match parse (body.take header.contentSize.toNat) with
    | none => shutdown .invalidInputPackage
    | some msg =>
      .item [.message header.contentSpecificValue (body.take header.contentSize.toNat) msg
        ((body.drop header.contentSize.toNat).take header.attachedBinarySize.toNat)] (Entry.packageSize header)

/-- A heartbeat is a header and nothing else. -/
def heartbeat (header : PkgHeader) (evs : List (Event μ)) : Head (Event μ) :=
  if header.contentSize = 0 ∧ header.attachedBinarySize = 0 then .item evs sizeofPkgHeader
  else shutdown .invalidHeartbeatPackage

/-- The package at the head of the bytes. -/
def head (maxValidPackageSize : UInt32) (parsers : Parsers μ) (bs : Bytes) : Head (Event μ) :=
  if bs.length < sizeofPkgHeader then
    .more
  else
    let header := PkgHeader.ofImage bs
    if header.pkgContentType = pkgContentMessage then
      if maxValidPackageSize < header.contentSize then
        shutdown .invalidInputPackageSize
      else if bs.length < Entry.packageSize header then
        .more
      else
        message parsers header (bs.drop header.advertizedHeaderSize)
    else if header.pkgContentType = pkgContentHeartbeatRequest then
      heartbeat header [.scheduleSend (PkgHeader.make pkgContentHeartbeatReply).image]
    else if header.pkgContentType = pkgContentHeartbeatReply then
      heartbeat header []
    else
      shutdown .unknownPkgContentType

/-- A header advertises its own three dwords at least, that of a heartbeat no more. -/
def WellFormed (bs : Bytes) : Prop :=
  sizeofPkgHeader ≤ bs.length →
    let header := PkgHeader.ofImage bs
    imageSizeDwords ≤ header.headerSizeDwords ∧
      (header.pkgContentType = pkgContentHeartbeatRequest ∨ header.pkgContentType = pkgContentHeartbeatReply →
        header.headerSizeDwords = imageSizeDwords)

instance (bs : Bytes) : Decidable (WellFormed bs) := inferInstanceAs (Decidable (_ → _ ∧ (_ → _)))

/-! ## Bytes that come later -/

variable {maxValidPackageSize : UInt32} {parsers : Parsers μ}

theorem wellFormed_nil : WellFormed [] := fun h => absurd h (by decide)

theorem WellFormed.of_append {xs ys : Bytes} (h : WellFormed (xs ++ ys)) : WellFormed xs := by
  intro hlen
  have h := h (hlen.trans (by rw [List.length_append]; exact Nat.le_add_right _ _))
  rw [PkgHeader.ofImage_append hlen] at h
  exact h

theorem sizeofPkgHeader_le_of_dwords {header : PkgHeader} (h : imageSizeDwords ≤ header.headerSizeDwords) :
    sizeofPkgHeader ≤ header.advertizedHeaderSize := by
  have h : 3 ≤ header.headerSizeDwords.toNat := h
  unfold sizeofPkgHeader PkgHeader.advertizedHeaderSize
  omega

/-- A message takes nothing behind its package into account. -/
theorem message_append (header : PkgHeader) {body : Bytes}
    (h : header.contentSize.toNat + header.attachedBinarySize.toNat ≤ body.length) (ys : Bytes) :
    message parsers header (body ++ ys) = message parsers header body := by
  have hcontent : header.contentSize.toNat ≤ body.length := (Nat.le_add_right _ _).trans h
  have hattached : header.attachedBinarySize.toNat ≤ (body.drop header.contentSize.toNat).length := by
    rw [List.length_drop]
    omega
  unfold message
  rw [List.take_append_of_le_length hcontent, List.drop_append_of_le_length hcontent,
    List.take_append_of_le_length hattached]

/-- A decided head stays decided. -/
theorem head_append {xs : Bytes} (h : head maxValidPackageSize parsers xs ≠ .more) (ys : Bytes) :
    head maxValidPackageSize parsers (xs ++ ys) = head maxValidPackageSize parsers xs := by
  unfold head at h ⊢
  by_cases hshort : xs.length < sizeofPkgHeader
  · rw [if_pos hshort] at h
    exact absurd rfl h
  have hlen := Nat.not_lt.1 hshort
  have hlen' : xs.length ≤ (xs ++ ys).length := by rw [List.length_append]; exact Nat.le_add_right _ _
  rw [if_neg hshort] at h ⊢
  rw [if_neg (Nat.not_lt.2 (hlen.trans hlen')), PkgHeader.ofImage_append hlen]
  dsimp only at h ⊢
  by_cases hmessage : (PkgHeader.ofImage xs).pkgContentType = pkgContentMessage
  · rw [if_pos hmessage] at h
    rw [if_pos hmessage, if_pos hmessage]
    by_cases hvalid : maxValidPackageSize < (PkgHeader.ofImage xs).contentSize
    · rw [if_pos hvalid, if_pos hvalid]
    rw [if_neg hvalid] at h
    rw [if_neg hvalid, if_neg hvalid]
    by_cases hall : xs.length < Entry.packageSize (PkgHeader.ofImage xs)
    · rw [if_pos hall] at h
      exact absurd rfl h
    have hle := Nat.not_lt.1 hall
    have hsum := hle
    unfold Entry.packageSize at hsum
    have hbody : (PkgHeader.ofImage xs).contentSize.toNat + (PkgHeader.ofImage xs).attachedBinarySize.toNat ≤
        (xs.drop (PkgHeader.ofImage xs).advertizedHeaderSize).length := by
      rw [List.length_drop]
      omega
    rw [if_neg (Nat.not_lt.2 (hle.trans hlen')), if_neg hall, List.drop_append_of_le_length (by omega),
      message_append _ hbody]
  · simp only [if_neg hmessage]

theorem heartbeat_item {header : PkgHeader} {evs evs' : List (Event μ)} {n : Nat}
    (h : heartbeat header evs = .item evs' n) : n = sizeofPkgHeader := by
  unfold heartbeat at h
  split at h
  · cases h
    rfl
  · cases h

theorem message_item {header : PkgHeader} {body : Bytes} {evs : List (Event μ)} {n : Nat}
    (h : message parsers header body = .item evs n) : n = Entry.packageSize header := by
  unfold message at h
  split at h
  · cases h
  split at h
  · cases h
  · cases h
    rfl

/-- A package is there as a whole, its header included. -/
theorem head_item {bs : Bytes} (hwf : WellFormed bs) {evs : List (Event μ)} {n : Nat}
    (h : head maxValidPackageSize parsers bs = .item evs n) : sizeofPkgHeader ≤ n ∧ n ≤ bs.length := by
  unfold head at h
  split at h
  · cases h
  rename_i hshort
  have hlen := Nat.not_lt.1 hshort
  dsimp only at h
  split at h
  · split at h
    · cases h
    split at h
    · cases h
    rename_i hall
    rw [message_item h]
    refine ⟨?_, Nat.not_lt.1 hall⟩
    have := sizeofPkgHeader_le_of_dwords (hwf hlen).1
    unfold Entry.packageSize
    omega
  split at h
  · rw [heartbeat_item h]
    exact ⟨le_rfl, hlen⟩
  split at h
  · rw [heartbeat_item h]
    exact ⟨le_rfl, hlen⟩
  · cases h

theorem stable_head (maxValidPackageSize : UInt32) (parsers : Parsers μ) :
    Stable (head maxValidPackageSize parsers) WellFormed where
  of_append _ _ h := h.of_append
  stable _ ys _ h := head_append h ys
  progress xs evs n hwf h := by
    obtain ⟨hpos, hle⟩ := head_item hwf h
    exact ⟨Nat.lt_of_lt_of_le (by decide) hpos, hle⟩

end Decoder

/-! ## The verdict of an entry -/

/-- The parser looks at the content alone, and consumes all of it when it accepts. -/
structure ParsesContent (engine : ProtobufEngine μ) (parse : Bytes → Option μ) : Prop where
  result : ∀ blocks n, (∀ b ∈ blocks, b.length < 2 ^ 31) → n ≤ blocks.flatten.length →
    engine.result blocks n = parse (blocks.flatten.take n)
  consumed : ∀ blocks n, (∀ b ∈ blocks, b.length < 2 ^ 31) → n ≤ blocks.flatten.length →
    (parse (blocks.flatten.take n)).isSome → ZeroCopyCall.consumed blocks (engine.calls blocks n) = n

/-- An entry accepts what the parsers accept. -/
def ParsesAs (env : EntryEnv μ) (parsers : Decoder.Parsers μ) : Prop :=
  ∀ id, Option.Rel ParsesContent (env.engines id) (parsers id)

/-- The events of a verdict that is carried out by an active entry. -/
def Verdict.toHead : Verdict μ → Head (Event μ)
  | .more => .more
  | .invalid reason => Decoder.shutdown reason
  | .heartbeatRequest n => .item [.scheduleSend (PkgHeader.make pkgContentHeartbeatReply).image] n
  | .heartbeatReply n => .item [] n
  | .message id content msg attachedBinary n => .item [.message id content msg attachedBinary] n

namespace Entry

variable {env : EntryEnv μ} {parsers : Decoder.Parsers μ}

theorem toHead_messageVerdict (hparse : ParsesAs env parsers) {header : PkgHeader} {body : List Bytes}
    (hlen : header.contentSize.toNat ≤ body.flatten.length) (hsmall : ∀ b ∈ body, b.length < 2 ^ 31) :
    (messageVerdict env header body (packageSize header)).toHead = Decoder.message parsers header body.flatten := by
  unfold messageVerdict Decoder.message
  have hrel := hparse header.contentSpecificValue
  generalize env.engines header.contentSpecificValue = engine? at hrel ⊢
  generalize parsers header.contentSpecificValue = parse? at hrel ⊢
  cases hrel with
  | none => rfl
  | some hcontent =>
    rename_i engine parse
    have hresult := hcontent.result body _ hsmall hlen
    have hconsumed := hcontent.consumed body _ hsmall hlen
    dsimp only
    rw [hresult]
    cases hmsg : parse (body.flatten.take header.contentSize.toNat) with
    | none => split <;> rfl
    | some msg =>
      rw [if_neg (not_not.2 (hconsumed (by rw [hmsg]; rfl)))]
      rfl

theorem toHead_heartbeatVerdict {header : PkgHeader} (h : header.headerSizeDwords = imageSizeDwords)
    {v : Nat → Verdict μ} {evs : List (Event μ)} (hv : ∀ n, (v n).toHead = .item evs n) :
    (heartbeatVerdict header v).toHead = Decoder.heartbeat header evs := by
  have hsize : header.advertizedHeaderSize = sizeofPkgHeader := by
    rw [PkgHeader.advertizedHeaderSize, h]
    rfl
  unfold heartbeatVerdict Decoder.heartbeat hasContent
  by_cases hcontent : header.contentSize = 0 ∧ header.attachedBinarySize = 0
  · rw [if_neg (by simp [hcontent]), if_pos hcontent, hsize, hv]
  · rw [if_pos (by simpa [imp_iff_not_or] using hcontent), if_neg hcontent]
    rfl

/-- What the head of the input asks for is what the decoder makes of its bytes. -/
theorem toHead_verdict (hparse : ParsesAs env parsers) {blocks : List Bytes}
    (hsmall : ∀ b ∈ blocks, b.length < 2 ^ 31) (hwf : Decoder.WellFormed blocks.flatten) :
    (verdict env blocks).toHead = Decoder.head env.cfg.maxValidPackageSize parsers blocks.flatten := by
  unfold verdict Decoder.head
  by_cases hshort : blocks.flatten.length < sizeofPkgHeader
  · rw [if_pos hshort, if_pos hshort]
    rfl
  rw [if_neg hshort, if_neg hshort]
  obtain ⟨-, hheartbeat⟩ := hwf (Nat.not_lt.1 hshort)
  dsimp only at hheartbeat ⊢
  by_cases hmessage : (PkgHeader.ofImage blocks.flatten).pkgContentType = pkgContentMessage
  · rw [if_pos hmessage, if_pos hmessage]
    by_cases hvalid : env.cfg.maxValidPackageSize < (PkgHeader.ofImage blocks.flatten).contentSize
    · rw [if_pos (by simp [pkgHasValidSize, hvalid]), if_pos hvalid]
      rfl
    rw [if_neg (by simp [pkgHasValidSize, hvalid]), if_neg hvalid]
    by_cases hall : blocks.flatten.length < packageSize (PkgHeader.ofImage blocks.flatten)
    · rw [if_pos hall, if_pos hall]
      rfl
    rw [if_neg hall, if_neg hall, ← Blocks.flatten_drop]
    apply toHead_messageVerdict hparse
    · unfold packageSize at hall
      rw [Blocks.flatten_drop, List.length_drop]
      omega
    · intro b hb
      obtain ⟨b', hb', hle⟩ := Blocks.length_le_of_mem_drop hb
      exact hle.trans_lt (hsmall b' hb')
  rw [if_neg hmessage, if_neg hmessage]
  by_cases hrequest : (PkgHeader.ofImage blocks.flatten).pkgContentType = pkgContentHeartbeatRequest
  · rw [if_pos hrequest, if_pos hrequest]
    exact toHead_heartbeatVerdict (hheartbeat (.inl hrequest)) fun _ => rfl
  rw [if_neg hrequest, if_neg hrequest]
  by_cases hreply : (PkgHeader.ofImage blocks.flatten).pkgContentType = pkgContentHeartbeatReply
  · rw [if_pos hreply, if_pos hreply]
    exact toHead_heartbeatVerdict (hheartbeat (.inr hreply)) fun _ => rfl
  rw [if_neg hreply, if_neg hreply]
  rfl

/-- Headers that are well-formed drive no call on the input outside its precondition. -/
theorem headerOk_of_wellFormed {blocks : List Bytes} (hsmall : ∀ b ∈ blocks, b.length < 2 ^ 31)
    (hwf : Decoder.WellFormed blocks.flatten) : HeaderOk env blocks := by
  intro hlen
  obtain ⟨hdwords, hheartbeat⟩ := hwf hlen
  dsimp only at hdwords hheartbeat ⊢
  split
  · rintro - -
    refine ⟨Decoder.sizeofPkgHeader_le_of_dwords hdwords, fun _ b hb => ?_⟩
    obtain ⟨b', hb', hle⟩ := Blocks.length_le_of_mem_drop hb
    exact hle.trans_lt (hsmall b' hb')
  · split
    · rename_i hbeat
      intro _
      rw [PkgHeader.advertizedHeaderSize, hheartbeat hbeat]
      exact hlen
    · trivial

end Entry

end Opio.ProtoEntry
