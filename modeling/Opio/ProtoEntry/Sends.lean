/-
`send` and its overloads of the generated `core_entry_t`: what each hands to the connection, and
which of them put the same package on the wire.
-/
import Opio.ProtoEntry.PackageImage

namespace Opio.ProtoEntry

open Net (SendCall)

variable {μ : Type}

/-! ## Scheduling calls -/

/-- A container of buffers. Its `data()` points to the representation of its elements, which takes
at least a byte for each. -/
structure BufferVec where
  bufs : List Bytes
  memory : Bytes
  length_le : bufs.length ≤ memory.length

/-- `heterogeneous_buffer_t( Datasizeable )`: `size()` bytes from where `data()` points to. -/
def BufferVec.asBuffer (v : BufferVec) : Bytes := v.memory.take v.bufs.length

/-- The calls of `schedule_send_raw_bufs` and its variants. -/
inductive Scheduling
  | rawBufs (bufs : List Bytes)
  | vecRawBufs (bufs : BufferVec)
  | rawBufsWithCb (bufs : List Bytes)
  | vecRawBufsWithCb (bufs : BufferVec)

/-- What the connection is called with. `vecBuffers` is what becomes of a container that is passed
where a buffer is expected. -/
def Scheduling.sendCall (vecBuffers : BufferVec → List Bytes) : Scheduling → SendCall
  | rawBufs bufs => { bufs }
  -- `schedule_send`, not `schedule_send_vec`
  | vecRawBufs bufs => { bufs := vecBuffers bufs }
  | rawBufsWithCb bufs => { bufs, cb := true }
  | vecRawBufsWithCb bufs => { bufs := bufs.bufs, cb := true }

/-- A scheduling call on an entry that is active or not. -/
def schedule (vecBuffers : BufferVec → List Bytes) (connectionIsActive : Bool) (s : Scheduling) : Option SendCall :=
  if connectionIsActive then some (s.sendCall vecBuffers) else none

/-! ## Overloads -/

section Overloads

variable (serialize : μ → Bytes) (id : UInt16) (msg : μ)

def send : Except ImageFault (List Scheduling) := do
  let buf ← makePackageImage serialize id msg
  return [.rawBufs [buf]]

/-- `send` with an attached binary. -/
def sendAttached (attachedBinary : Bytes) : Except ImageFault (List Scheduling) := do
  let buf ← makePackageImage serialize id msg (UInt32.ofNat attachedBinary.length)
  return [.rawBufs [buf, attachedBinary]]

def attachedBinarySize (bufs : List Bytes) : Nat := bufs.foldl (fun memo buf => memo + buf.length) 0

def sendVec (attachedBinaries : BufferVec) : Except ImageFault (List Scheduling) := do
  let buf ← makePackageImage serialize id msg (UInt32.ofNat (attachedBinarySize attachedBinaries.bufs))
  return [.rawBufs [buf], .vecRawBufs attachedBinaries]

def sendWithCb : Except ImageFault (List Scheduling) := do
  let buf ← makePackageImage serialize id msg
  return [.rawBufsWithCb [buf]]

/-- `send_with_cb` with an attached binary. -/
def sendWithCbAttached (attachedBinary : Bytes) : Except ImageFault (List Scheduling) := do
  let buf ← makePackageImage serialize id msg (UInt32.ofNat attachedBinary.length)
  return [.rawBufsWithCb [buf, attachedBinary]]

def sendVecWithCb (attachedBinaries : BufferVec) : Except ImageFault (List Scheduling) := do
  let buf ← makePackageImage serialize id msg (UInt32.ofNat (attachedBinarySize attachedBinaries.bufs))
  return [.rawBufs [buf], .vecRawBufsWithCb attachedBinaries]

end Overloads

/-! ## What is handed over -/

/-- The bytes the connection is handed by the calls of a send on an active entry when nobody else sends. -/
def handed (schedulings : Except ImageFault (List Scheduling)) : Except ImageFault Bytes := do
  let calls := (← schedulings).filterMap (schedule (fun bufs => [bufs.asBuffer]) true)
  return calls.flatMap (·.bufs.flatten)

/-- One package with this content: the sizes in its header are those of the content and of all that follows. -/
structure Framed (content bs : Bytes) : Prop where
  contentSize : (PkgHeader.ofImage bs).contentSize.toNat = content.length
  contentFollows : (bs.drop sizeofPkgHeader).take content.length = content
  attachedBinarySize : (PkgHeader.ofImage bs).attachedBinarySize.toNat =
    (bs.drop (sizeofPkgHeader + content.length)).length

/-- All overloads hand over the same package for a message and the same attached bytes. -/
def SendsAgree (serialize : μ → Bytes) (id : UInt16) (msg : μ) (attached : BufferVec) : Prop :=
  ∃ bs, handed (sendVec serialize id msg attached) = .ok bs ∧
    handed (sendVecWithCb serialize id msg attached) = .ok bs ∧
    handed (sendAttached serialize id msg attached.bufs.flatten) = .ok bs ∧
    handed (sendWithCbAttached serialize id msg attached.bufs.flatten) = .ok bs ∧ Framed (serialize msg) bs

theorem attachedBinarySize_eq (bufs : List Bytes) : attachedBinarySize bufs = bufs.flatten.length := by
  have hfold : ∀ (bufs : List Bytes) (n : Nat),
      bufs.foldl (fun memo buf => memo + buf.length) n = n + bufs.flatten.length := by
    intro bufs
    induction bufs with
    | nil => simp
    | cons buf bufs ih =>
      intro n
      rw [List.foldl_cons, ih, List.flatten_cons, List.length_append]
      omega
  rw [attachedBinarySize, hfold, Nat.zero_add]

/-- The header of a message whose content has this size, and an attachment of this size. -/
def sendHeader (id : UInt16) (contentSize attachedBinarySize : Nat) : PkgHeader :=
  PkgHeader.make pkgContentMessage id (UInt32.ofNat contentSize) (UInt32.ofNat attachedBinarySize)

section Handed

variable {serialize : μ → Bytes} {id : UInt16} {msg : μ}

/-- A message that can be serialized has an image. -/
theorem makePackageImage_ok (hmsg : (serialize msg).length < 2 ^ 31) (n : Nat) :
    makePackageImage serialize id msg (UInt32.ofNat n) =
      .ok ((sendHeader id (serialize msg).length n).image ++ serialize msg) := by
  simp only [makePackageImage, PkgHeader.make, serializeToArray_ok hmsg]
  rfl

theorem makePackageImage_error (hmsg : ¬ (serialize msg).length < 2 ^ 31) (n : Nat) :
    makePackageImage serialize id msg (UInt32.ofNat n) = .error .serialization := by
  simp only [makePackageImage, PkgHeader.make, serializeToArray_error hmsg]
  rfl

/-- A header with the sizes of what follows frames it. -/
theorem framed_sendHeader {content attached : Bytes} (hcontent : content.length < 2 ^ 32)
    (hattached : attached.length < 2 ^ 32) :
    Framed content ((sendHeader id content.length attached.length).image ++ content ++ attached) := by
  have hheader : PkgHeader.ofImage ((sendHeader id content.length attached.length).image ++ content ++ attached) =
      sendHeader id content.length attached.length := by
    rw [List.append_assoc, ofImage_image_append]
  have hlen : ((sendHeader id content.length attached.length).image ++ content).length =
      sizeofPkgHeader + content.length := by
    rw [List.length_append, PkgHeader.length_image]
  constructor
  · rw [hheader]
    exact (UInt32.toNat_ofNat' ..).trans (Nat.mod_eq_of_lt hcontent)
  · rw [List.append_assoc, List.drop_left' (PkgHeader.length_image _), List.take_left]
  · rw [hheader, ← hlen, List.drop_left]
    exact (UInt32.toNat_ofNat' ..).trans (Nat.mod_eq_of_lt hattached)

variable (hmsg : (serialize msg).length < 2 ^ 31)
include hmsg

theorem handed_sendAttached (attached : Bytes) : handed (sendAttached serialize id msg attached) =
    .ok ((sendHeader id (serialize msg).length attached.length).image ++ serialize msg ++ attached) := by
  rw [sendAttached, makePackageImage_ok hmsg]
  simp [handed, schedule, Scheduling.sendCall, ok_bind, pure_ok]

theorem handed_sendWithCbAttached (attached : Bytes) : handed (sendWithCbAttached serialize id msg attached) =
    .ok ((sendHeader id (serialize msg).length attached.length).image ++ serialize msg ++ attached) := by
  rw [sendWithCbAttached, makePackageImage_ok hmsg]
  simp [handed, schedule, Scheduling.sendCall, ok_bind, pure_ok]

theorem handed_sendVecWithCb (attached : BufferVec) : handed (sendVecWithCb serialize id msg attached) =
    .ok ((sendHeader id (serialize msg).length attached.bufs.flatten.length).image ++ serialize msg ++
      attached.bufs.flatten) := by
  rw [sendVecWithCb, makePackageImage_ok hmsg, attachedBinarySize_eq]
  simp [handed, schedule, Scheduling.sendCall, ok_bind, pure_ok]

/-- Behind the header comes the representation of the container. -/
theorem handed_sendVec (attached : BufferVec) : handed (sendVec serialize id msg attached) =
    .ok ((sendHeader id (serialize msg).length attached.bufs.flatten.length).image ++ serialize msg ++
      attached.asBuffer) := by
  rw [sendVec, makePackageImage_ok hmsg, attachedBinarySize_eq]
  simp [handed, schedule, Scheduling.sendCall, ok_bind, pure_ok]

/-- The overloads agree when the container happens to look like its buffers. -/
theorem sendsAgree_iff_asBuffer {attached : BufferVec} (hattached : attached.bufs.flatten.length < 2 ^ 32) :
    SendsAgree serialize id msg attached ↔ attached.asBuffer = attached.bufs.flatten := by
  constructor
  · rintro ⟨bs, hvec, hcb, -⟩
    rw [handed_sendVec hmsg] at hvec
    rw [handed_sendVecWithCb hmsg] at hcb
    exact List.append_cancel_left (Except.ok.inj (hvec.trans hcb.symm))
  · intro h
    refine ⟨_, ?_, handed_sendVecWithCb hmsg attached, handed_sendAttached hmsg _, handed_sendWithCbAttached hmsg _,
      framed_sendHeader (by omega) hattached⟩
    rw [handed_sendVec hmsg, h]

end Handed

/-- A message that an overload hands over can be serialized. -/
theorem SendsAgree.serialized {serialize : μ → Bytes} {id : UInt16} {msg : μ} {attached : BufferVec}
    (h : SendsAgree serialize id msg attached) : (serialize msg).length < 2 ^ 31 := by
  obtain ⟨bs, hvec, -⟩ := h
  by_contra hmsg
  rw [sendVec, makePackageImage_error hmsg] at hvec
  cases hvec

/-- The overloads put the same package on the wire, whatever a container looks like in memory, for
the messages without attached buffers that can be serialized. -/
theorem sends_agree (serialize : μ → Bytes) (id : UInt16) (msg : μ) (bufs : List Bytes)
    (hbufs : bufs.flatten.length < 2 ^ 32) :
    (∀ attached : BufferVec, attached.bufs = bufs → SendsAgree serialize id msg attached) ↔
      bufs = [] ∧ (serialize msg).length < 2 ^ 31 := by
  constructor
  · intro h
    have hmsg := (h ⟨bufs, List.replicate bufs.length 0, by simp⟩ rfl).serialized
    refine ⟨?_, hmsg⟩
    -- two containers with the same buffers that look different
    have hlooks : ∀ b : UInt8, List.replicate bufs.length b = bufs.flatten := by
      intro b
      have hagree := h ⟨bufs, List.replicate bufs.length b, by simp⟩ rfl
      have hlooks := (sendsAgree_iff_asBuffer hmsg hbufs).1 hagree
      simpa [BufferVec.asBuffer] using hlooks
    have hsame := (hlooks 0).trans (hlooks 1).symm
    by_contra hne
    have hpos : bufs.length ≠ 0 := fun h => hne (List.length_eq_zero_iff.1 h)
    have hzero : (0 : UInt8) ∈ List.replicate bufs.length 1 := hsame ▸ List.mem_replicate.2 ⟨hpos, rfl⟩
    exact absurd (List.mem_replicate.1 hzero).2 (by decide)
  · rintro ⟨rfl, hmsg⟩ attached hattached
    apply (sendsAgree_iff_asBuffer hmsg (by rw [hattached]; decide)).2
    rw [BufferVec.asBuffer, hattached]
    rfl

theorem sends_agree_nil : SendsAgree id 1 [7, 8] ⟨[], [160, 32], by decide⟩ :=
  (sends_agree id 1 [7, 8] [] (by decide)).2 ⟨rfl, by decide⟩ _ rfl

/-- One buffer of three bytes: `send_vec` announces three bytes and sends one, of the container. -/
theorem sends_differ : ¬ SendsAgree id 1 [7] ⟨[[1, 2, 3]], [160, 32, 4, 0], by decide⟩ := by
  intro h
  have hlooks := (sendsAgree_iff_asBuffer (by decide) (by decide)).1 h
  exact absurd hlooks (by decide)

end Opio.ProtoEntry
