/-
`single_writable_sequence_t`: the buffers of one gather write with the callbacks that wait for it,
how small buffers in it are concatenated, and how a half-done write goes on.
-/
import Opio.Lib.LittleEndian
import Mathlib.Data.List.Basic
import Mathlib.Order.Nat
import Mathlib.Tactic.Common

namespace Opio.Net

/-- How many buffers a gather write takes at most. -/
def reasonableMaxIovLen (maxIovLen : Nat) : Nat := min maxIovLen 16

/-- Buffers are concatenated up to this size. -/
def concatenatedBufferMaxSize : Nat := 16 * 1024

/-- A sequence of buffers to write at once. Descriptors are the bytes they describe; callbacks are
named by the group of buffers they were passed with. -/
structure SingleWritableSequence where
  bufsStorage : List Bytes := []
  asioBufs : List Bytes := []
  sendCompletionCbs : List Nat := []
  deriving DecidableEq, Repr, Inhabited

namespace SingleWritableSequence

abbrev empty : SingleWritableSequence := {}

/-- `can_append_buffer( 1 )`. -/
def canAppendBuffer (maxSeqLength : Nat) (seq : SingleWritableSequence) : Bool :=
  seq.bufsStorage.length + 1 ≤ maxSeqLength

def appendBuffer (buf : Bytes) (seq : SingleWritableSequence) : SingleWritableSequence :=
  { seq with bufsStorage := seq.bufsStorage ++ [buf] }

def appendCompletionCb (cb : Nat) (seq : SingleWritableSequence) : SingleWritableSequence :=
  { seq with sendCompletionCbs := seq.sendCompletionCbs ++ [cb] }

/-- `asio_bufs()`: the descriptors are made anew. -/
def makeAsioBufs (seq : SingleWritableSequence) : SingleWritableSequence := { seq with asioBufs := seq.bufsStorage }

/-- The number of bytes the descriptors describe. -/
def totalSize (seq : SingleWritableSequence) : Nat := (seq.asioBufs.map List.length).sum

/-- Extends a group of buffers as long as the next one fits in, then begins another. -/
def concatGroups (maxSize : Nat) : Bytes → List Bytes → List Bytes
  | group, [] => [group]
  | group, buf :: bufs =>
    if group.length + buf.length ≤ maxSize then concatGroups maxSize (group ++ buf) bufs
    else group :: concatGroups maxSize buf bufs

def concatSmallBuffers (maxSize : Nat) (seq : SingleWritableSequence) : SingleWritableSequence :=
  match seq.bufsStorage with
  | [] => seq
  | buf :: bufs => { seq.makeAsioBufs with bufsStorage := concatGroups maxSize buf bufs }

/-- The bytes of the buffers. -/
def bytes (seq : SingleWritableSequence) : Bytes := seq.bufsStorage.flatten

@[simp] theorem bytes_empty : bytes empty = [] := rfl

@[simp] theorem bytes_appendBuffer (buf : Bytes) (seq : SingleWritableSequence) :
    (seq.appendBuffer buf).bytes = seq.bytes ++ buf := by
  simp [bytes, appendBuffer]

@[simp] theorem bytes_appendCompletionCb (cb : Nat) (seq : SingleWritableSequence) :
    (seq.appendCompletionCb cb).bytes = seq.bytes := rfl

@[simp] theorem bytes_makeAsioBufs (seq : SingleWritableSequence) : seq.makeAsioBufs.bytes = seq.bytes := rfl

theorem flatten_concatGroups (maxSize : Nat) : ∀ (bufs : List Bytes) (group : Bytes),
    (concatGroups maxSize group bufs).flatten = group ++ bufs.flatten
  | [], group => by simp [concatGroups]
  | buf :: bufs, group => by
    unfold concatGroups
    split
    · rw [flatten_concatGroups maxSize bufs, List.flatten_cons, List.append_assoc]
    · rw [List.flatten_cons, flatten_concatGroups maxSize bufs, List.flatten_cons]

theorem concatGroups_ne_nil (maxSize : Nat) : ∀ (bufs : List Bytes) (group : Bytes),
    concatGroups maxSize group bufs ≠ []
  | [], group => by simp [concatGroups]
  | buf :: bufs, group => by
    unfold concatGroups
    split
    · exact concatGroups_ne_nil maxSize bufs _
    · simp

theorem length_concatGroups (maxSize : Nat) : ∀ (bufs : List Bytes) (group : Bytes),
    (concatGroups maxSize group bufs).length ≤ bufs.length + 1
  | [], _ => Nat.le_refl 1
  | buf :: bufs, group => by
    unfold concatGroups
    split
    · exact Nat.le_succ_of_le (length_concatGroups maxSize bufs _)
    · exact Nat.succ_le_succ (length_concatGroups maxSize bufs _)

/-- Concatenation leaves no more buffers than there were. -/
theorem length_concatSmallBuffers (maxSize : Nat) (seq : SingleWritableSequence) :
    (seq.concatSmallBuffers maxSize).bufsStorage.length ≤ seq.bufsStorage.length := by
  unfold concatSmallBuffers
  split
  · exact Nat.le_refl _
  next h =>
    rw [h]
    exact length_concatGroups maxSize _ _

/-- Concatenation leaves a buffer of some. -/
theorem bufsStorage_concatSmallBuffers_eq_nil {maxSize : Nat} {seq : SingleWritableSequence}
    (h : (seq.concatSmallBuffers maxSize).bufsStorage = []) : seq.bufsStorage = [] := by
  unfold concatSmallBuffers at h
  split at h
  · exact h
  · exact absurd h (concatGroups_ne_nil maxSize _ _)

/-- Concatenation moves bytes between buffers, and nothing else. -/
@[simp] theorem bytes_concatSmallBuffers (maxSize : Nat) (seq : SingleWritableSequence) :
    (seq.concatSmallBuffers maxSize).bytes = seq.bytes := by
  unfold concatSmallBuffers bytes
  split
  · rfl
  · rename_i h
    rw [h]
    exact flatten_concatGroups maxSize _ _

@[simp] theorem sendCompletionCbs_concatSmallBuffers (maxSize : Nat) (seq : SingleWritableSequence) :
    (seq.concatSmallBuffers maxSize).sendCompletionCbs = seq.sendCompletionCbs := by
  unfold concatSmallBuffers
  split <;> rfl

end SingleWritableSequence

/-- `skip_transferred_part`: the descriptors of what is yet to be written. -/
def skipTransferredPart : List Bytes → Nat → List Bytes
  | [], _ => []
  | buf :: bufs, transferred =>
    if buf.length ≤ transferred then skipTransferredPart bufs (transferred - buf.length)
    else buf.drop transferred :: bufs

theorem flatten_skipTransferredPart : ∀ (bufs : List Bytes) (transferred : Nat),
    (skipTransferredPart bufs transferred).flatten = bufs.flatten.drop transferred
  | [], transferred => by simp [skipTransferredPart]
  | buf :: bufs, transferred => by
    unfold skipTransferredPart
    split
    · rename_i hle
      rw [flatten_skipTransferredPart, List.flatten_cons, List.drop_append, List.drop_eq_nil_of_le hle, List.nil_append]
    · rename_i hlt
      rw [List.flatten_cons, List.flatten_cons, List.drop_append_of_le_length (Nat.not_le.1 hlt).le]

end Opio.Net
