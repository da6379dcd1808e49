/-
The package header of the binary protocol: twelve bytes copied to and from memory as they are,
so the fields stand one after another in little-endian order.
-/
import Opio.Lib.LittleEndian

namespace Opio.ProtoEntry

/-! ## Content types -/

def pkgContentMessage : UInt8 := 0
def pkgContentHeartbeatRequest : UInt8 := 1
def pkgContentHeartbeatReply : UInt8 := 2

/-! ## The header -/

/-- `sizeof( pkg_header_t )`. -/
def sizeofPkgHeader : Nat := 12

/-- The size of the header's image in dwords. -/
def imageSizeDwords : UInt8 := 3

structure PkgHeader where
  pkgContentType : UInt8
  headerSizeDwords : UInt8 := imageSizeDwords
  contentSpecificValue : UInt16 := 0
  contentSize : UInt32 := 0
  attachedBinarySize : UInt32 := 0
  deriving DecidableEq, Repr

namespace PkgHeader

/-- The size of the header in bytes, as the header itself states it. -/
def advertizedHeaderSize (h : PkgHeader) : Nat := h.headerSizeDwords.toNat * 4

def make (pkgContentType : UInt8) (contentSpecificValue : UInt16 := 0) (contentSize : UInt32 := 0)
    (attachedBinarySize : UInt32 := 0) : PkgHeader :=
  { pkgContentType, headerSizeDwords := imageSizeDwords, contentSpecificValue, contentSize, attachedBinarySize }

/-- The bytes `memcpy` takes from a header. -/
def image (h : PkgHeader) : Bytes :=
  h.pkgContentType :: h.headerSizeDwords :: (LittleEndian.write 2 h.contentSpecificValue.toNat ++
    LittleEndian.write 4 h.contentSize.toNat ++ LittleEndian.write 4 h.attachedBinarySize.toNat)

/-- The header `memcpy` makes of twelve bytes. -/
def ofImage (bs : Bytes) : PkgHeader where
  pkgContentType := bs.getD 0 0
  headerSizeDwords := bs.getD 1 0
  contentSpecificValue := UInt16.ofNat (LittleEndian.read ((bs.drop 2).take 2))
  contentSize := UInt32.ofNat (LittleEndian.read ((bs.drop 4).take 4))
  attachedBinarySize := UInt32.ofNat (LittleEndian.read ((bs.drop 8).take 4))

@[simp] theorem length_image (h : PkgHeader) : h.image.length = sizeofPkgHeader := by
  simp [image, sizeofPkgHeader]

/-- A header copied out and back is the same header. -/
theorem ofImage_image (h : PkgHeader) : ofImage h.image = h := by
  obtain ⟨ty, dwords, value, content, attached⟩ := h
  have hv := LittleEndian.read_write (w := 2) value.toNat_lt
  have hc := LittleEndian.read_write (w := 4) content.toNat_lt
  have ha := LittleEndian.read_write (w := 4) attached.toNat_lt
  have drop2 : ((image ⟨ty, dwords, value, content, attached⟩).drop 2).take 2 =
      LittleEndian.write 2 value.toNat := by
    simp [image]
  have drop4 : ((image ⟨ty, dwords, value, content, attached⟩).drop 4).take 4 =
      LittleEndian.write 4 content.toNat := by
    simp [image]
  have drop8 : ((image ⟨ty, dwords, value, content, attached⟩).drop 8).take 4 =
      LittleEndian.write 4 attached.toNat := by
    simp [image, List.drop_append, List.drop_eq_nil_of_le, List.take_of_length_le]
  simp [ofImage, drop2, drop4, drop8, hv, hc, ha]
  simp [image]

/-- A header copied in has the twelve bytes it was copied from. -/
theorem image_ofImage {bs : Bytes} (h : bs.length = sizeofPkgHeader) : (ofImage bs).image = bs := by
  obtain ⟨b0, b1, b2, b3, b4, b5, b6, b7, b8, b9, b10, b11, rfl⟩ :
      ∃ b0 b1 b2 b3 b4 b5 b6 b7 b8 b9 b10 b11, bs = [b0, b1, b2, b3, b4, b5, b6, b7, b8, b9, b10, b11] := by
    rcases bs with _ | ⟨b0, _ | ⟨b1, _ | ⟨b2, _ | ⟨b3, _ | ⟨b4, _ | ⟨b5, _ | ⟨b6, _ | ⟨b7, _ | ⟨b8, _ | ⟨b9,
      _ | ⟨b10, _ | ⟨b11, _ | ⟨b12, bs⟩⟩⟩⟩⟩⟩⟩⟩⟩⟩⟩⟩⟩ <;> simp [sizeofPkgHeader] at h
    exact ⟨b0, b1, b2, b3, b4, b5, b6, b7, b8, b9, b10, b11, rfl⟩
  have hv := LittleEndian.read_lt [b2, b3]
  have hc := LittleEndian.read_lt [b4, b5, b6, b7]
  have ha := LittleEndian.read_lt [b8, b9, b10, b11]
  have wv := LittleEndian.write_read [b2, b3]
  have wc := LittleEndian.write_read [b4, b5, b6, b7]
  have wa := LittleEndian.write_read [b8, b9, b10, b11]
  simp only [List.length_cons, List.length_nil, Nat.zero_add, Nat.reduceAdd, Nat.reducePow] at hv hc ha wv wc wa
  simp only [image, ofImage, List.drop_succ_cons, List.drop_zero, List.take_succ_cons, List.take_zero,
    UInt16.toNat_ofNat', UInt32.toNat_ofNat', Nat.reducePow, Nat.mod_eq_of_lt hv, Nat.mod_eq_of_lt hc,
    Nat.mod_eq_of_lt ha, wv, wc, wa]
  rfl

/-- Only the first twelve bytes count. -/
theorem ofImage_take (bs : Bytes) : ofImage (bs.take sizeofPkgHeader) = ofImage bs := by
  simp only [ofImage, sizeofPkgHeader, List.drop_take, List.take_take]
  congr 1 <;> simp [List.getD_eq_getElem?_getD]

theorem ofImage_append {bs : Bytes} (h : sizeofPkgHeader ≤ bs.length) (cs : Bytes) :
    ofImage (bs ++ cs) = ofImage bs := by
  rw [← ofImage_take (bs ++ cs), List.take_append_of_le_length h, ofImage_take]

theorem advertizedHeaderSize_le (h : PkgHeader) : h.advertizedHeaderSize ≤ 1020 := by
  have := h.headerSizeDwords.toNat_lt
  unfold advertizedHeaderSize
  omega

end PkgHeader

end Opio.ProtoEntry
