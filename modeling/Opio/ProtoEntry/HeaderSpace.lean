/-
The image of a message in two buffers, with additional space behind the header. The header counts its
dwords in eight bits, the buffer has the size that was asked for, and the decoder goes by the count.
-/
import Opio.ProtoEntry.PackageImage

namespace Opio.ProtoEntry

open Incremental

variable {μ : Type}

/-! ## The two buffers -/

/-- `allocate_output` of a buffer driver: as many bytes as are asked for, with anything in them. -/
structure OutputDriver where
  allocateOutput : Nat → Bytes
  length_allocateOutput : ∀ size, (allocateOutput size).length = size

/-- The space that is behind the header in its buffer. -/
def OutputDriver.space (driver : OutputDriver) (size : Nat) : Bytes :=
  (driver.allocateOutput (sizeofPkgHeader + size)).drop sizeofPkgHeader

@[simp] theorem OutputDriver.length_space (driver : OutputDriver) (size : Nat) : (driver.space size).length = size := by
  rw [OutputDriver.space, List.length_drop, driver.length_allocateOutput, Nat.add_sub_cancel_left]

inductive SeparateFault
  | image (f : ImageFault)
  /-- The buffer is shorter than the header that is copied into it. -/
  | memcpy
  deriving DecidableEq, Repr

/-- `memcpy` of a header to the front of a buffer. -/
def memcpyHeader (headerBuf : Bytes) (header : PkgHeader) : Except SeparateFault Bytes := do
  assertThat (sizeofPkgHeader ≤ headerBuf.length) SeparateFault.memcpy
  return header.image ++ headerBuf.drop sizeofPkgHeader

/-- `make_separate_package_image` with its sizes as they are computed: the size of the buffer is a `size_t`,
and a `size_t` is added to the eight bits of `header_size_dwords`. -/
def makeSeparatePackageImageOf (driver : OutputDriver) (serialize : μ → Bytes) (messageTypeId : UInt16) (msg : μ)
    (attachedBinarySize : UInt32) (additionalSpaceForHeaderBuf : UInt64) : Except SeparateFault (Bytes × Bytes) := do
  assertThat (additionalSpaceForHeaderBuf % 4 = 0) (SeparateFault.image .additionalSpace)
  let header := PkgHeader.make pkgContentMessage messageTypeId (UInt32.ofNat (serialize msg).length) attachedBinarySize
  let header :=
    { header with headerSizeDwords := header.headerSizeDwords + (additionalSpaceForHeaderBuf / 4).toUInt8 }
  let headerBuf := driver.allocateOutput (UInt64.ofNat sizeofPkgHeader + additionalSpaceForHeaderBuf).toNat
  let headerBuf ← memcpyHeader headerBuf header
  let msgBuf ← (serializeToArray (serialize msg) header.contentSize).mapError SeparateFault.image
  return (headerBuf, msgBuf)

/-- What is promised of the two buffers: the size the header advertises is that of the buffer it is in, and a
peer that takes messages of the type and size makes the message of them. -/
structure Advertises (serialize : μ → Bytes) (id : UInt16) (msg : μ) (attachedBinarySize : UInt32)
    (headerBuf msgBuf : Bytes) : Prop where
  size : (PkgHeader.ofImage headerBuf).advertizedHeaderSize = headerBuf.length
  recovers : ∀ (maxValidPackageSize : UInt32) (parsers : Decoder.Parsers μ) (ofType : UInt16 → μ → Prop),
    ParseInvertsSerialize parsers ofType serialize →
      Package.MessageOk parsers ofType maxValidPackageSize serialize id msg →
        ∀ attached : AttachedBinary, attached.size = attachedBinarySize →
          Encodes (Decoder.head maxValidPackageSize parsers) Decoder.WellFormed
            (headerBuf ++ msgBuf ++ attached.bytes) [.message id (serialize msg) msg attached.bytes]

/-! ## The buffers that are made -/

section

variable {driver : OutputDriver} {serialize : μ → Bytes} {id : UInt16} {msg : μ} {attachedBinarySize : UInt32}
  {space : UInt64}

theorem toNat_mod_four (h4 : space % 4 = 0) : space.toNat % 4 = 0 := by
  have h := congrArg UInt64.toNat h4
  rwa [UInt64.toNat_mod] at h

/-- The size of the buffer, as long as it is not cut off. -/
theorem toNat_bufferSize (hspace : sizeofPkgHeader + space.toNat < 2 ^ 64) :
    (UInt64.ofNat sizeofPkgHeader + space).toNat = sizeofPkgHeader + space.toNat := by
  rw [UInt64.toNat_add, UInt64.toNat_ofNat']
  unfold sizeofPkgHeader at *
  omega

theorem memcpyHeader_ok {headerBuf : Bytes} (h : sizeofPkgHeader ≤ headerBuf.length) (header : PkgHeader) :
    memcpyHeader headerBuf header = .ok (header.image ++ headerBuf.drop sizeofPkgHeader) := by
  rw [memcpyHeader, assertThat_ok h]
  rfl

/-- Where the size of the buffer is not cut off, it is the image with what is behind the header as its space. -/
theorem makeSeparatePackageImageOf_eq (hspace : sizeofPkgHeader + space.toNat < 2 ^ 64) :
    makeSeparatePackageImageOf driver serialize id msg attachedBinarySize space =
      (makeSeparatePackageImage serialize id msg attachedBinarySize (driver.space space.toNat)).mapError
        SeparateFault.image := by
  have hdwords : (space / 4).toUInt8 = UInt8.ofNat ((driver.space space.toNat).length / 4) := by
    rw [driver.length_space, ← UInt8.ofNat_uInt64ToNat, UInt64.toNat_div]
    rfl
  have hfour : space % 4 = 0 ↔ (driver.space space.toNat).length % 4 = 0 := by
    rw [driver.length_space, ← UInt64.toNat_inj, UInt64.toNat_mod]
    rfl
  have hbuf : sizeofPkgHeader ≤ (driver.allocateOutput (sizeofPkgHeader + space.toNat)).length := by
    rw [driver.length_allocateOutput]
    exact Nat.le_add_right ..
  unfold makeSeparatePackageImageOf makeSeparatePackageImage
  rw [toNat_bufferSize hspace, hdwords]
  by_cases h4 : space % 4 = 0
  · rw [assertThat_ok h4, assertThat_ok (hfour.1 h4), ok_bind, ok_bind]
    dsimp only
    rw [memcpyHeader_ok hbuf, ok_bind]
    cases serializeToArray (serialize msg) _ with
    | error f => rfl
    | ok content => rfl
  · rw [assertThat_error h4, assertThat_error (mt hfour.2 h4)]
    rfl

/-- The buffers of a message that can be serialized. -/
theorem makeSeparatePackageImageOf_ok (driver : OutputDriver) (id : UInt16) (attachedBinarySize : UInt32)
    (hspace : sizeofPkgHeader + space.toNat < 2 ^ 64) (h4 : space % 4 = 0)
    (hserialize : (serialize msg).length < 2 ^ 31) :
    makeSeparatePackageImageOf driver serialize id msg attachedBinarySize space =
      .ok ((messageHeader id (serialize msg) (driver.space space.toNat) attachedBinarySize).image ++
        driver.space space.toNat, serialize msg) := by
  have hfour : (driver.space space.toNat).length % 4 = 0 := by rw [driver.length_space, toNat_mod_four h4]
  rw [makeSeparatePackageImageOf_eq hspace]
  simp only [makeSeparatePackageImage, PkgHeader.make, assertThat_ok hfour, serializeToArray_ok hserialize]
  rfl

/-- A message that cannot be serialized has none. -/
theorem makeSeparatePackageImageOf_large (hspace : sizeofPkgHeader + space.toNat < 2 ^ 64) (h4 : space % 4 = 0)
    (hserialize : ¬ (serialize msg).length < 2 ^ 31) :
    makeSeparatePackageImageOf driver serialize id msg attachedBinarySize space =
      .error (.image .serialization) := by
  have hfour : (driver.space space.toNat).length % 4 = 0 := by rw [driver.length_space, toNat_mod_four h4]
  rw [makeSeparatePackageImageOf_eq hspace]
  simp only [makeSeparatePackageImage, PkgHeader.make, assertThat_ok hfour, serializeToArray_error hserialize]
  rfl

/-- Where it is cut off, the buffer is shorter than the header. -/
theorem makeSeparatePackageImageOf_short (h4 : space % 4 = 0) (hspace : ¬ sizeofPkgHeader + space.toNat < 2 ^ 64) :
    makeSeparatePackageImageOf driver serialize id msg attachedBinarySize space = .error .memcpy := by
  have hshort : ¬ sizeofPkgHeader ≤ (driver.allocateOutput (UInt64.ofNat sizeofPkgHeader + space).toNat).length := by
    have hlt := space.toNat_lt
    rw [driver.length_allocateOutput, UInt64.toNat_add, UInt64.toNat_ofNat']
    unfold sizeofPkgHeader at *
    omega
  rw [makeSeparatePackageImageOf, assertThat_ok h4, ok_bind]
  dsimp only
  rw [memcpyHeader, assertThat_error hshort]
  rfl

/-! ## What the peer makes of it -/

theorem heartbeat_events {header : PkgHeader} {evs evs' : List (Event μ)} {n : Nat}
    (h : Decoder.heartbeat header evs = .item evs' n) : evs = evs' := by
  unfold Decoder.heartbeat at h
  split at h
  · cases h
    rfl
  · cases h

/-- A peer that takes all of the bytes as one message goes by the sizes in the header. -/
theorem length_of_encodes {maxValidPackageSize : UInt32} {parsers : Decoder.Parsers μ} {bs : Bytes} {i : UInt16}
    {content attached : Bytes} {m : μ}
    (h : Encodes (Decoder.head maxValidPackageSize parsers) Decoder.WellFormed bs [.message i content m attached]) :
    bs.length = Entry.packageSize (PkgHeader.ofImage bs) := by
  have hitem := h.item []
  rw [List.append_nil] at hitem
  unfold Decoder.head at hitem
  split at hitem
  · cases hitem
  dsimp only at hitem
  split at hitem
  · split at hitem
    · cases hitem
    split at hitem
    · cases hitem
    exact Decoder.message_item hitem
  -- what a heartbeat comes to is no message
  split at hitem
  · cases heartbeat_events hitem
  split at hitem
  · cases heartbeat_events hitem
  · cases hitem

/-- A buffer that is longer than its header advertises is not taken for the message. -/
theorem size_of_recovers {maxValidPackageSize : UInt32} {parsers : Decoder.Parsers μ} (header : PkgHeader)
    {rest : Bytes} {attached : AttachedBinary} (hcontent : (serialize msg).length = header.contentSize.toNat)
    (hattached : attached.size = header.attachedBinarySize)
    (h : Encodes (Decoder.head maxValidPackageSize parsers) Decoder.WellFormed
      (header.image ++ rest ++ serialize msg ++ attached.bytes) [.message id (serialize msg) msg attached.bytes]) :
    header.advertizedHeaderSize = (header.image ++ rest).length := by
  have hlength := length_of_encodes h
  simp only [List.append_assoc, ofImage_image_append] at hlength
  simp only [Entry.packageSize, List.length_append, attached.length_eq, hattached, hcontent] at hlength
  rw [List.length_append]
  omega

/-- There are two buffers where neither the size of the first one is cut off nor the message is too large. -/
theorem sizes_of_makeSeparatePackageImageOf (h4 : space % 4 = 0) {headerBuf msgBuf : Bytes}
    (himage : makeSeparatePackageImageOf driver serialize id msg attachedBinarySize space = .ok (headerBuf, msgBuf)) :
    sizeofPkgHeader + space.toNat < 2 ^ 64 ∧ (serialize msg).length < 2 ^ 31 := by
  have hspace : sizeofPkgHeader + space.toNat < 2 ^ 64 := by
    by_contra hspace
    rw [makeSeparatePackageImageOf_short h4 hspace] at himage
    cases himage
  refine ⟨hspace, ?_⟩
  by_contra hserialize
  rw [makeSeparatePackageImageOf_large hspace h4 hserialize] at himage
  cases himage

/-- With more space than the dwords have room for, no peer takes the two buffers for the message. -/
theorem not_recovered (h4 : space % 4 = 0) (hlarge : 1008 < space.toNat) {headerBuf msgBuf : Bytes}
    (himage : makeSeparatePackageImageOf driver serialize id msg attachedBinarySize space = .ok (headerBuf, msgBuf))
    (maxValidPackageSize : UInt32) (parsers : Decoder.Parsers μ) (attached : AttachedBinary)
    (hattached : attached.size = attachedBinarySize) :
    ¬ Encodes (Decoder.head maxValidPackageSize parsers) Decoder.WellFormed (headerBuf ++ msgBuf ++ attached.bytes)
      [.message id (serialize msg) msg attached.bytes] := by
  intro h
  obtain ⟨hspace, hserialize⟩ := sizes_of_makeSeparatePackageImageOf h4 himage
  have hlength := driver.length_space space.toNat
  have hfour : (driver.space space.toNat).length % 4 = 0 := hlength.symm ▸ toNat_mod_four h4
  rw [makeSeparatePackageImageOf_ok driver id attachedBinarySize hspace h4 hserialize] at himage
  obtain ⟨rfl, rfl⟩ := Prod.mk.inj (Except.ok.inj himage)
  have hcontent : (UInt32.ofNat (serialize msg).length).toNat = (serialize msg).length := by
    rw [UInt32.toNat_ofNat', Nat.mod_eq_of_lt (by omega)]
  have hsize := size_of_recovers (messageHeader id (serialize msg) (driver.space space.toNat) attachedBinarySize)
    hcontent.symm hattached h
  rw [advertizedHeaderSize_messageHeader_mod _ _ _ hfour, List.length_append, PkgHeader.length_image, hlength] at hsize
  unfold sizeofPkgHeader at hsize
  omega

/-- The two buffers advertise the size of the first one, and are taken for the message, exactly when the
additional space is no more than eight bits of dwords have room for and the message can be serialized. Only
space in dwords gets past the assertion. -/
theorem separate_image_advertises_iff (driver : OutputDriver) (serialize : μ → Bytes) (id : UInt16) (msg : μ)
    (attachedBinarySize : UInt32) (additionalSpaceForHeaderBuf : UInt64) (h4 : additionalSpaceForHeaderBuf % 4 = 0) :
    (∃ headerBuf msgBuf, makeSeparatePackageImageOf driver serialize id msg attachedBinarySize
        additionalSpaceForHeaderBuf = .ok (headerBuf, msgBuf) ∧
      Advertises serialize id msg attachedBinarySize headerBuf msgBuf) ↔
    additionalSpaceForHeaderBuf ≤ 1008 ∧ (serialize msg).length < 2 ^ 31 := by
  have hlength := driver.length_space additionalSpaceForHeaderBuf.toNat
  have hfour : (driver.space additionalSpaceForHeaderBuf.toNat).length % 4 = 0 := hlength.symm ▸ toNat_mod_four h4
  rw [UInt64.le_iff_toNat_le]
  change _ ↔ additionalSpaceForHeaderBuf.toNat ≤ 1008 ∧ _
  constructor
  · rintro ⟨headerBuf, msgBuf, himage, hadv⟩
    obtain ⟨hspace, hserialize⟩ := sizes_of_makeSeparatePackageImageOf h4 himage
    have hok := makeSeparatePackageImageOf_ok driver id attachedBinarySize hspace h4 hserialize
    obtain ⟨rfl, rfl⟩ := Prod.mk.inj (Except.ok.inj (hok.symm.trans himage))
    have hsize := hadv.size
    rw [ofImage_image_append, advertizedHeaderSize_messageHeader_mod _ _ _ hfour, List.length_append,
      PkgHeader.length_image, hlength] at hsize
    unfold sizeofPkgHeader at hsize
    exact ⟨by omega, hserialize⟩
  · rintro ⟨hle, hserialize⟩
    have hle' : (driver.space additionalSpaceForHeaderBuf.toNat).length ≤ 1008 := hlength.symm ▸ hle
    have hspace : sizeofPkgHeader + additionalSpaceForHeaderBuf.toNat < 2 ^ 64 := by
      unfold sizeofPkgHeader
      omega
    refine ⟨_, _, makeSeparatePackageImageOf_ok driver id attachedBinarySize hspace h4 hserialize, ?_, ?_⟩
    · rw [ofImage_image_append, advertizedHeaderSize_messageHeader _ _ _ hfour hle', List.length_append,
        PkgHeader.length_image]
    · rintro max parsers ofType hinv hmsg attached rfl
      exact encodes_messageHeader hinv hmsg _ hfour hle' attached

end

/-- A driver whose buffers have the same byte everywhere. -/
def OutputDriver.filled (b : UInt8) : OutputDriver where
  allocateOutput size := List.replicate size b
  length_allocateOutput _ := List.length_replicate

/-- A message with an attachment and eight dwords of space. -/
theorem separate_image_advertises_iff_32 : ∃ headerBuf msgBuf,
    makeSeparatePackageImageOf (.filled 5) id 1 [7, 8] 1 32 = .ok (headerBuf, msgBuf) ∧
      Advertises id 1 [7, 8] 1 headerBuf msgBuf :=
  (separate_image_advertises_iff (.filled 5) id 1 [7, 8] 1 32 (by decide)).2 (by decide)

/-- A kilobyte is as no space at all: the header advertises its own twelve bytes, and the peer takes the space
behind them for the message. With three dwords less nothing at all is advertised. -/
theorem separate_image_wraps :
    (∃ headerBuf, makeSeparatePackageImageOf (.filled 5) id 1 [7] 0 1024 = .ok (headerBuf, [7]) ∧
      headerBuf.length = 1036 ∧ (PkgHeader.ofImage headerBuf).advertizedHeaderSize = 12 ∧
      Decoder.head 10 Entry.rawParsers (headerBuf ++ [7]) = .item [.message 1 [5] [5] []] 13 ∧
      ¬ Advertises id 1 [7] 0 headerBuf [7]) ∧
    (∃ headerBuf, makeSeparatePackageImageOf (.filled 5) id 1 [7] 0 1012 = .ok (headerBuf, [7]) ∧
      (PkgHeader.ofImage headerBuf).advertizedHeaderSize = 0) := by
  have hfirst : Encodes (Decoder.head 10 Entry.rawParsers) Decoder.WellFormed
      ((PkgHeader.make pkgContentMessage 1 1).image ++ [] ++ [5] ++ []) [.message 1 [5] [5] []] :=
    encodes_message _ rfl rfl rfl rfl (by decide) rfl rfl
  refine ⟨⟨[0, 3, 1, 0, 1, 0, 0, 0, 0, 0, 0, 0] ++ List.replicate 1024 5, ?_, ?_, ?_, ?_, fun h => ?_⟩,
    ⟨[0, 0, 1, 0, 1, 0, 0, 0, 0, 0, 0, 0] ++ List.replicate 1012 5, ?_, ?_⟩⟩
  · decide +kernel
  · decide +kernel
  · decide +kernel
  · have hbytes : [0, 3, 1, 0, 1, 0, 0, 0, 0, 0, 0, 0] ++ List.replicate 1024 5 ++ [7] =
        (PkgHeader.make pkgContentMessage 1 1).image ++ [] ++ [5] ++ [] ++ (List.replicate 1023 5 ++ [7]) := by
      decide +kernel
    rw [hbytes]
    exact hfirst.item _
  · exact absurd h.size (by decide +kernel)
  · decide +kernel
  · decide +kernel

end Opio.ProtoEntry
