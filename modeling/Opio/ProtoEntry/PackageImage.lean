/-
The packages an entry sends: their images in memory, and that the entry of the peer makes of them
what they were made of, however the bytes are cut on the way.
-/
import Opio.ProtoEntry.WholeStream

namespace Opio.ProtoEntry

open Incremental

variable {μ : Type}

/-! ## Images -/

/-- The assertions of the image makers. -/
inductive ImageFault
  | additionalSpace
  | serialization
  deriving DecidableEq, Repr

/-- `SerializeToArray` with the given size: it fails when the message is longer, and where its size is no `int`. -/
def serializeToArray (content : Bytes) (size : UInt32) : Except ImageFault Bytes := do
  assertThat (content.length < 2 ^ 31 ∧ content.length ≤ size.toNat) ImageFault.serialization
  return content

/-- A header and behind it the content, in one buffer. -/
def makePackageImage (serialize : μ → Bytes) (messageTypeId : UInt16) (msg : μ) (attachedBinarySize : UInt32 := 0) :
    Except ImageFault Bytes := do
  let header := PkgHeader.make pkgContentMessage messageTypeId (UInt32.ofNat (serialize msg).length) attachedBinarySize
  return header.image ++ (← serializeToArray (serialize msg) header.contentSize)

/-- A buffer for the header, with whatever is in the additional space, and one for the content. -/
def makeSeparatePackageImage (serialize : μ → Bytes) (messageTypeId : UInt16) (msg : μ)
    (attachedBinarySize : UInt32 := 0) (additionalSpace : Bytes := []) : Except ImageFault (Bytes × Bytes) := do
  assertThat (additionalSpace.length % 4 = 0) ImageFault.additionalSpace
  let header := PkgHeader.make pkgContentMessage messageTypeId (UInt32.ofNat (serialize msg).length) attachedBinarySize
  let header :=
    { header with headerSizeDwords := header.headerSizeDwords + UInt8.ofNat (additionalSpace.length / 4) }
  return (header.image ++ additionalSpace, ← serializeToArray (serialize msg) header.contentSize)

/-- An attached binary and the size that is advertised for it. -/
structure AttachedBinary where
  bytes : Bytes
  size : UInt32
  length_eq : bytes.length = size.toNat

/-- What an entry sends. -/
inductive Package (μ : Type)
  | message (id : UInt16) (msg : μ) (attached : AttachedBinary)
  | separateMessage (id : UInt16) (msg : μ) (additionalSpace : Bytes) (attached : AttachedBinary)
  | heartbeatRequest
  | heartbeatReply

namespace Package

/-- The bytes of a package. -/
def image (serialize : μ → Bytes) : Package μ → Except ImageFault Bytes
  | message id msg attached => do return (← makePackageImage serialize id msg attached.size) ++ attached.bytes
  | separateMessage id msg additionalSpace attached => do
    let (headerBuf, msgBuf) ← makeSeparatePackageImage serialize id msg attached.size additionalSpace
    return headerBuf ++ msgBuf ++ attached.bytes
  | heartbeatRequest => return (PkgHeader.make pkgContentHeartbeatRequest).image
  | heartbeatReply => return (PkgHeader.make pkgContentHeartbeatReply).image

/-- What the entry of the peer does about a package. -/
def events (serialize : μ → Bytes) : Package μ → List (Event μ)
  | message id msg attached => [.message id (serialize msg) msg attached.bytes]
  | separateMessage id msg _ attached => [.message id (serialize msg) msg attached.bytes]
  | heartbeatRequest => [.scheduleSend (PkgHeader.make pkgContentHeartbeatReply).image]
  | heartbeatReply => []

/-- The message is one of the type its id stands for that can be serialized, and the peer takes messages of this
type and size. -/
def MessageOk (parsers : Decoder.Parsers μ) (ofType : UInt16 → μ → Prop) (maxValidPackageSize : UInt32)
    (serialize : μ → Bytes) (id : UInt16) (msg : μ) : Prop :=
  (parsers id).isSome ∧ ofType id msg ∧ (serialize msg).length < 2 ^ 31 ∧
    (serialize msg).length ≤ maxValidPackageSize.toNat

/-- The package is one the peer takes, and what is added to its header fits one. -/
def Ok (parsers : Decoder.Parsers μ) (ofType : UInt16 → μ → Prop) (maxValidPackageSize : UInt32)
    (serialize : μ → Bytes) : Package μ → Prop
  | message id msg _ => MessageOk parsers ofType maxValidPackageSize serialize id msg
  | separateMessage id msg additionalSpace _ => MessageOk parsers ofType maxValidPackageSize serialize id msg ∧
    additionalSpace.length % 4 = 0 ∧ additionalSpace.length ≤ 1008
  | heartbeatRequest => True
  | heartbeatReply => True

end Package

/-- The parser of a type gives back the messages of the type from what they are serialized to. -/
def ParseInvertsSerialize (parsers : Decoder.Parsers μ) (ofType : UInt16 → μ → Prop) (serialize : μ → Bytes) : Prop :=
  ∀ id parse msg, parsers id = some parse → ofType id msg → parse (serialize msg) = some msg

/-! ## Images are decoded to what they are made of -/

section Decode

variable {maxValidPackageSize : UInt32} {parsers : Decoder.Parsers μ}

theorem ofImage_image_append (header : PkgHeader) (bs : Bytes) : PkgHeader.ofImage (header.image ++ bs) = header := by
  rw [PkgHeader.ofImage_append header.length_image.ge, PkgHeader.ofImage_image]

theorem wellFormed_image_append {header : PkgHeader} (hdwords : imageSizeDwords ≤ header.headerSizeDwords)
    (hbeat : header.pkgContentType = pkgContentHeartbeatRequest ∨ header.pkgContentType = pkgContentHeartbeatReply →
      header.headerSizeDwords = imageSizeDwords) (bs : Bytes) : Decoder.WellFormed (header.image ++ bs) := by
  intro _
  rw [ofImage_image_append]
  exact ⟨hdwords, hbeat⟩

/-- A header, space behind it, a content and an attachment of the sizes the header states. -/
theorem encodes_message (header : PkgHeader) {space content attached : Bytes} {parse : Bytes → Option μ} {msg : μ}
    (htype : header.pkgContentType = pkgContentMessage)
    (hspace : header.advertizedHeaderSize = sizeofPkgHeader + space.length)
    (hcontent : content.length = header.contentSize.toNat)
    (hattached : attached.length = header.attachedBinarySize.toNat) (hmax : header.contentSize ≤ maxValidPackageSize)
    (hparser : parsers header.contentSpecificValue = some parse) (hparse : parse content = some msg) :
    Encodes (Decoder.head maxValidPackageSize parsers) Decoder.WellFormed (header.image ++ space ++ content ++ attached)
      [.message header.contentSpecificValue content msg attached] := by
  have hsize : (header.image ++ space ++ content ++ attached).length = Entry.packageSize header := by
    simp only [List.length_append, PkgHeader.length_image, Entry.packageSize, hspace, hcontent, hattached]
  constructor
  · intro ys
    have hlong : ¬ (header.image ++ space ++ content ++ attached ++ ys).length < sizeofPkgHeader := by
      rw [List.length_append, hsize, Entry.packageSize, hspace]
      omega
    have hall : ¬ (header.image ++ space ++ content ++ attached ++ ys).length < Entry.packageSize header := by
      rw [List.length_append, hsize]
      omega
    have hheader : PkgHeader.ofImage (header.image ++ space ++ content ++ attached ++ ys) = header := by
      simp only [List.append_assoc, ofImage_image_append]
    have hbody : (header.image ++ space ++ content ++ attached ++ ys).drop header.advertizedHeaderSize =
        content ++ (attached ++ ys) := by
      have hlen : (header.image ++ space).length = header.advertizedHeaderSize := by
        rw [List.length_append, PkgHeader.length_image, hspace]
      rw [← hlen, List.append_assoc, List.append_assoc, List.drop_left]
    rw [Decoder.head, if_neg hlong]
    dsimp only
    rw [hheader, if_pos htype, if_neg (UInt32.not_lt.2 hmax), if_neg hall, hbody, hsize]
    simp only [Decoder.message, hparser, ← hcontent, List.take_left, List.drop_left, ← hattached, hparse]
  · intro ys
    rw [List.append_assoc, List.append_assoc, List.append_assoc]
    refine wellFormed_image_append ?_ ?_ _
    · have : sizeofPkgHeader ≤ header.advertizedHeaderSize := by rw [hspace]; exact Nat.le_add_right _ _
      unfold sizeofPkgHeader PkgHeader.advertizedHeaderSize at this
      change 3 ≤ header.headerSizeDwords.toNat
      omega
    · rw [htype]
      rintro (h | h) <;> exact absurd h (by decide)

/-- A heartbeat is its header. -/
theorem encodes_heartbeat {header : PkgHeader} {evs : List (Event μ)}
    (hdwords : header.headerSizeDwords = imageSizeDwords) (hcontent : header.contentSize = 0)
    (hattached : header.attachedBinarySize = 0)
    (htype : header.pkgContentType = pkgContentHeartbeatRequest ∧
        evs = [.scheduleSend (PkgHeader.make pkgContentHeartbeatReply).image] ∨
      header.pkgContentType = pkgContentHeartbeatReply ∧ evs = []) :
    Encodes (Decoder.head maxValidPackageSize parsers) Decoder.WellFormed header.image evs := by
  constructor
  · intro ys
    have hlong : ¬ (header.image ++ ys).length < sizeofPkgHeader := by
      rw [List.length_append, PkgHeader.length_image]
      omega
    have hbeat : Decoder.heartbeat header evs = .item evs header.image.length := by
      rw [Decoder.heartbeat, if_pos ⟨hcontent, hattached⟩, PkgHeader.length_image]
    rw [Decoder.head, if_neg hlong, ofImage_image_append, ← hbeat]
    rcases htype with ⟨htype, rfl⟩ | ⟨htype, rfl⟩
    · simp only [htype]
      rfl
    · simp only [htype]
      rfl
  · intro ys
    exact wellFormed_image_append (by rw [hdwords]; exact UInt8.le_refl _) (fun _ => hdwords) ys

variable {ofType : UInt16 → μ → Prop} {serialize : μ → Bytes}

/-- The size of a content that is no longer than a package may be is not cut off. -/
theorem contentSize_toNat {n : Nat} (h : n ≤ maxValidPackageSize.toNat) : (UInt32.ofNat n).toNat = n := by
  have := maxValidPackageSize.toNat_lt
  rw [UInt32.toNat_ofNat', Nat.mod_eq_of_lt (by omega)]

/-- A message is serialized as long as its size is an `int`. -/
theorem serializeToArray_ok {content : Bytes} (h : content.length < 2 ^ 31) :
    serializeToArray content (UInt32.ofNat content.length) = .ok content := by
  have hsize : (UInt32.ofNat content.length).toNat = content.length := by
    rw [UInt32.toNat_ofNat', Nat.mod_eq_of_lt (by omega)]
  rw [serializeToArray, assertThat_ok ⟨h, hsize.ge⟩]
  rfl

theorem serializeToArray_error {content : Bytes} (h : ¬ content.length < 2 ^ 31) (size : UInt32) :
    serializeToArray content size = .error .serialization := by
  rw [serializeToArray, assertThat_error fun hfits => h hfits.1]
  rfl

/-- The header of a message with additional space behind it. -/
def messageHeader (id : UInt16) (content space : Bytes) (attachedBinarySize : UInt32) : PkgHeader :=
  { PkgHeader.make pkgContentMessage id (UInt32.ofNat content.length) attachedBinarySize with
    headerSizeDwords := imageSizeDwords + UInt8.ofNat (space.length / 4) }

/-- Eight bits of dwords are ten bits of bytes. -/
theorem advertizedHeaderSize_messageHeader_mod (id : UInt16) (content : Bytes) {space : Bytes}
    (attachedBinarySize : UInt32) (h4 : space.length % 4 = 0) :
    (messageHeader id content space attachedBinarySize).advertizedHeaderSize =
      (sizeofPkgHeader + space.length) % 1024 := by
  have hdwords : (messageHeader id content space attachedBinarySize).headerSizeDwords.toNat =
      (3 + space.length / 4) % 256 := by
    change (imageSizeDwords + UInt8.ofNat (space.length / 4)).toNat = _
    rw [UInt8.toNat_add, UInt8.toNat_ofNat']
    change (3 + space.length / 4 % 256) % 256 = _
    omega
  rw [PkgHeader.advertizedHeaderSize, hdwords, sizeofPkgHeader]
  omega

theorem advertizedHeaderSize_messageHeader (id : UInt16) (content : Bytes) {space : Bytes} (attachedBinarySize : UInt32)
    (h4 : space.length % 4 = 0) (hle : space.length ≤ 1008) :
    (messageHeader id content space attachedBinarySize).advertizedHeaderSize = sizeofPkgHeader + space.length := by
  rw [advertizedHeaderSize_messageHeader_mod id content attachedBinarySize h4]
  unfold sizeofPkgHeader
  omega

theorem encodes_messageHeader (hinv : ParseInvertsSerialize parsers ofType serialize) {id : UInt16} {msg : μ}
    (h : Package.MessageOk parsers ofType maxValidPackageSize serialize id msg) (space : Bytes)
    (h4 : space.length % 4 = 0) (hle : space.length ≤ 1008) (attached : AttachedBinary) :
    Encodes (Decoder.head maxValidPackageSize parsers) Decoder.WellFormed
      ((messageHeader id (serialize msg) space attached.size).image ++ space ++ serialize msg ++ attached.bytes)
      [.message id (serialize msg) msg attached.bytes] := by
  obtain ⟨hsome, htype, -, hlen⟩ := h
  obtain ⟨parse, hparser⟩ := Option.isSome_iff_exists.1 hsome
  have hto := contentSize_toNat hlen
  refine encodes_message (messageHeader id (serialize msg) space attached.size) rfl
    (advertizedHeaderSize_messageHeader _ _ _ h4 hle) hto.symm attached.length_eq ?_ hparser
    (hinv id parse msg hparser htype)
  rw [UInt32.le_iff_toNat_le]
  exact hto.trans_le hlen

/-- A package the peer takes has an image, and the image stands for the package. -/
theorem Package.exists_image (hinv : ParseInvertsSerialize parsers ofType serialize) {p : Package μ}
    (h : p.Ok parsers ofType maxValidPackageSize serialize) :
    ∃ bs, p.image serialize = .ok bs ∧
      Encodes (Decoder.head maxValidPackageSize parsers) Decoder.WellFormed bs (p.events serialize) := by
  cases p with
  | message id msg attached =>
    refine ⟨_, ?_, encodes_messageHeader hinv h [] rfl (Nat.zero_le _) attached⟩
    simp only [image, makePackageImage, PkgHeader.make, serializeToArray_ok h.2.2.1]
    rw [List.append_nil]
    rfl
  | separateMessage id msg additionalSpace attached =>
    obtain ⟨hmsg, h4, hle⟩ := h
    refine ⟨_, ?_, encodes_messageHeader hinv hmsg additionalSpace h4 hle attached⟩
    simp only [image, makeSeparatePackageImage, PkgHeader.make, assertThat_ok h4, serializeToArray_ok hmsg.2.2.1]
    rfl
  | heartbeatRequest => exact ⟨_, rfl, encodes_heartbeat rfl rfl rfl (.inl ⟨rfl, rfl⟩)⟩
  | heartbeatReply => exact ⟨_, rfl, encodes_heartbeat rfl rfl rfl (.inr ⟨rfl, rfl⟩)⟩

theorem exists_images (hinv : ParseInvertsSerialize parsers ofType serialize) : ∀ (packages : List (Package μ)),
    (∀ p ∈ packages, p.Ok parsers ofType maxValidPackageSize serialize) →
      ∃ images, packages.mapM (Package.image serialize) = .ok images ∧
        List.Forall₂ (Encodes (Decoder.head maxValidPackageSize parsers) Decoder.WellFormed) images
          (packages.map (Package.events serialize))
  | [], _ => ⟨[], rfl, .nil⟩
  | p :: packages, h => by
    obtain ⟨bs, hbs, hp⟩ := Package.exists_image hinv (h p (List.mem_cons_self ..))
    obtain ⟨images, himages, hrest⟩ := exists_images hinv packages fun p' hp' => h p' (List.mem_cons_of_mem _ hp')
    refine ⟨bs :: images, ?_, .cons hp hrest⟩
    rw [List.mapM_cons, hbs, himages]
    rfl

end Decode

/-! ## The round trip -/

namespace Entry

/-- The entry does what the packages are about, takes all of the bytes, and stays active. -/
structure Delivers (serialize : μ → Bytes) (env : EntryEnv μ) (fuel : Nat) (e : Entry μ) (chunks : List (Int × Bytes))
    (packages : List (Package μ)) : Prop where
  events : ((run env fuel e (inputs chunks)).events.drop e.events.length).filter Event.isObserved =
    (packages.map (Package.events serialize)).flatten
  consumed : (run env fuel e (inputs chunks)).pkgInput.size = 0
  active : (run env fuel e (inputs chunks)).connectionIsActive = true

/-- Packages the peer takes arrive as they were sent at an active entry with nothing in its input
and a consumer that does not throw, however their bytes are cut. -/
theorem run_delivers_packages (env : EntryEnv μ) (parsers : Decoder.Parsers μ) (hparse : ParsesAs env parsers)
    (hconsumer : ∀ evs, env.onMessage evs = none) (ofType : UInt16 → μ → Prop) (serialize : μ → Bytes)
    (hinv : ParseInvertsSerialize parsers ofType serialize) (e : Entry μ) (hact : e.connectionIsActive = true)
    (hready : Ready e.pkgInput) (hempty : e.pkgInput.contents = []) (packages : List (Package μ))
    (hok : ∀ p ∈ packages, p.Ok parsers ofType env.cfg.maxValidPackageSize serialize) :
    ∃ images, packages.mapM (Package.image serialize) = .ok images ∧
      (images.flatten.length < 2 ^ 31 → ∀ chunks, bytesOf chunks = images.flatten →
        ∀ fuel, images.flatten.length < fuel → Delivers serialize env fuel e chunks packages) := by
  obtain ⟨images, himages, hencodes⟩ := exists_images hinv packages hok
  refine ⟨images, himages, fun hsmall chunks hcut fuel hfuel => ?_⟩
  have hs := Decoder.stable_head env.cfg.maxValidPackageSize parsers
  have hmore : Decoder.head env.cfg.maxValidPackageSize parsers [] = .more := rfl
  have hnil : AllGood (Decoder.head env.cfg.maxValidPackageSize parsers) Decoder.WellFormed [] := by
    intro ys hys
    cases hys with
    | here => exact Decoder.wellFormed_nil
    | next hx _ => cases hx
  have hbytes : e.pkgInput.contents ++ bytesOf chunks = images.flatten := by rw [hempty, hcut, List.nil_append]
  have hshows := run_inputs_shows_decodeAll hparse hconsumer fuel chunks hact hready
    (by rw [hempty]; exact hmore) (by rw [hbytes]; exact allGood_flatten hnil hencodes) (by rw [hbytes]; exact hsmall)
    (by rw [hbytes]; exact hfuel)
  rw [hbytes, decodeAll_flatten hs hmore hnil hencodes] at hshows
  have hwaits : Waits e.events (run env fuel e (inputs chunks)) (packages.map (Package.events serialize)).flatten [] :=
    hshows
  obtain ⟨new, hnew, hobs⟩ := hwaits.events
  refine ⟨by rw [hnew, List.drop_left, hobs], ?_, hwaits.active⟩
  rw [hwaits.ready.size]
  exact congrArg List.length hwaits.contents

/-- A message with an attachment, one whose header has space behind it, and both heartbeats, in three chunks. -/
theorem run_delivers_packages_four :
    Delivers id (plainEnv .raw) 60 (init (plainEnv .raw) .notSupplied 0)
      [(1, [0, 3, 1, 0, 2, 0, 0, 0, 1]), (2, [0, 0, 0, 7, 8, 9, 0, 4, 1, 0, 0, 0, 0, 0, 0, 0, 0, 0, 5, 5]),
        (3, [5, 5] ++ (PkgHeader.make pkgContentHeartbeatRequest).image ++
          (PkgHeader.make pkgContentHeartbeatReply).image)]
      [.message 1 [7, 8] ⟨[9], 1, rfl⟩, .separateMessage 1 [] [5, 5, 5, 5] ⟨[], 0, rfl⟩, .heartbeatRequest,
        .heartbeatReply] := by
  obtain ⟨images, himages, h⟩ := run_delivers_packages (plainEnv .raw) rawParsers parsesAs_raw (fun _ => rfl)
    (fun _ _ => True) id (fun i parse msg hparser _ => by
      unfold rawParsers at hparser
      split at hparser
      · exact Option.some.inj hparser ▸ rfl
      · cases hparser) (init (plainEnv .raw) .notSupplied 0) rfl (ready_init ..) rfl
    [.message 1 [7, 8] ⟨[9], 1, rfl⟩, .separateMessage 1 [] [5, 5, 5, 5] ⟨[], 0, rfl⟩, .heartbeatRequest,
      .heartbeatReply] (by simp [Package.Ok, Package.MessageOk, rawParsers, plainEnv])
  have himages' : [.message 1 [7, 8] ⟨[9], 1, rfl⟩, .separateMessage 1 [] [5, 5, 5, 5] ⟨[], 0, rfl⟩, .heartbeatRequest,
      .heartbeatReply].mapM (Package.image id) = .ok [[0, 3, 1, 0, 2, 0, 0, 0, 1, 0, 0, 0, 7, 8, 9],
        [0, 4, 1, 0, 0, 0, 0, 0, 0, 0, 0, 0, 5, 5, 5, 5], (PkgHeader.make pkgContentHeartbeatRequest).image,
        (PkgHeader.make pkgContentHeartbeatReply).image] := by decide +kernel
  obtain rfl := Except.ok.inj (himages'.symm.trans himages)
  exact h (by decide) _ (by decide) _ (by decide)

/-- A consumer that throws when it is handed a message. -/
def throwingEnv : EntryEnv Bytes := { plainEnv .raw with onMessage := fun _ => some "rejected" }

/-- The exception of the consumer shuts the entry down, and a byte that came before is taken for
the first one of the package. -/
theorem packages_not_delivered :
    Package.image id (.message 1 [] ⟨[], 0, rfl⟩) = .ok [0, 3, 1, 0, 0, 0, 0, 0, 0, 0, 0, 0] ∧
    ¬ Delivers id throwingEnv 60 (init throwingEnv .notSupplied 0) [(1, [0, 3, 1, 0, 0, 0, 0, 0, 0, 0, 0, 0])]
      [.message 1 [] ⟨[], 0, rfl⟩] ∧
    ¬ Delivers id (plainEnv .raw) 60 (run (plainEnv .raw) 60 (init (plainEnv .raw) .notSupplied 0) [.input 0 [0]])
      [(1, [0, 3, 1, 0, 0, 0, 0, 0, 0, 0, 0, 0])] [.message 1 [] ⟨[], 0, rfl⟩] := by
  refine ⟨by decide +kernel, fun h => ?_, fun h => ?_⟩
  · exact absurd h.active (by decide +kernel)
  · exact absurd h.consumed (by decide +kernel)

end Entry

end Opio.ProtoEntry
