/-
`pkg_input_t`: the input bytes of an entry, kept in a ring of buffers that is read in two ways,
as a zero-copy stream (`Next`, `BackUp`, `Skip`) whose last block is confirmed only by the call
after it, and directly (header view, copy, skip).

An assertion of the source that does not hold ends the call with the fault that names it, and so
does a subtraction below zero; the copy recursion runs on fuel.
-/
import Opio.Lib.Checked
import Opio.ProtoEntry.PkgHeader
import Mathlib.Data.Fin.Basic
import Mathlib.Logic.Function.Basic

namespace Opio.ProtoEntry

/-- How a call leaves the domain it was written for. -/
inductive Fault
  | appendServed
  | backUpNotServed
  | viewServed
  | viewShort
  | readServed
  | readShort
  | skipServed
  | skipShort
  | copyShort
  | popEmpty
  | headerShort
  | terminateInactive
  | underflow
  | outOfFuel
  deriving DecidableEq, Repr

/-- The `int` a `size_t` becomes when it is stored in one. -/
def toInt (n : Nat) : Int := Int.bmod n (2 ^ 32)

/-- The state of `pkg_input_t< Buffer, Buffer_Queue_Capacity >`. -/
structure PkgInput (cap : Nat) [NeZero cap] where
  totalSize : Nat := 0
  buffersCount : Nat := 0
  firstBufferPos : Fin cap := 0
  firstBufferOffset : Nat := 0
  bufs : Fin cap → Bytes := fun _ => []
  firstBufferServed : Bool := false
  byteSizeCounter : Int := 0

namespace PkgInput

variable {cap : Nat} [NeZero cap]

/-- Size of the accumulated unconsumed input. -/
def size (q : PkgInput cap) : Nat := q.totalSize

/-- Total number of bytes the zero-copy stream gave out. -/
def byteCount (q : PkgInput cap) : Int := q.byteSizeCounter

/-! ## The ring -/

/-- The next bucket in the ring storage. -/
def nextPos (pos : Fin cap) : Fin cap := Fin.ofNat cap (pos + 1)

def remainedInTheFirstBuffer (q : PkgInput cap) : Nat :=
  (q.bufs q.firstBufferPos).length - q.firstBufferOffset

def popBuffer (q : PkgInput cap) : Except Fault (PkgInput cap) := do
  assertThat (0 < q.buffersCount) Fault.popEmpty
  return { q with
    buffersCount := q.buffersCount - 1
    firstBufferPos := nextPos q.firstBufferPos
    firstBufferOffset := 0 }

/-- Confirms the block the last `Next` gave out. -/
def resetFirstBufferServed (q : PkgInput cap) : Except Fault (PkgInput cap) := do
  if q.firstBufferServed then
    let totalSize ← sizeSub q.totalSize q.remainedInTheFirstBuffer Fault.underflow
    let q ← popBuffer { q with totalSize }
    return { q with firstBufferServed := false }
  else
    return q

def append (q : PkgInput cap) (buf : Bytes) : Except Fault (PkgInput cap) := do
  assertThat (q.firstBufferServed = false) Fault.appendServed
  let q := { q with totalSize := q.totalSize + buf.length }
  if q.buffersCount < cap then
    let nextPos := Fin.ofNat cap (q.firstBufferPos + q.buffersCount)
    return { q with bufs := Function.update q.bufs nextPos buf, buffersCount := q.buffersCount + 1 }
  else
    -- the ring is full: the bytes go behind those of the last buffer
    let lastBufPos := Fin.ofNat cap (q.firstBufferPos + q.buffersCount - 1)
    return { q with bufs := Function.update q.bufs lastBufPos (q.bufs lastBufPos ++ buf) }

/-- `skip_bytes`; each level of its recursion pops a buffer. -/
def skipBytesRec : Nat → PkgInput cap → Nat → Except Fault (PkgInput cap)
  | 0, _, _ => .error .outOfFuel
  | fuel + 1, q, n => do
    assertThat (q.firstBufferServed = false) Fault.skipServed
    assertThat (n ≤ q.totalSize) Fault.skipShort
    if n = 0 then
      return q
    else
      let bytesInTheFirstBuffer := q.remainedInTheFirstBuffer
      if n < bytesInTheFirstBuffer then
        return { q with
          firstBufferOffset := q.firstBufferOffset + n
          totalSize := q.totalSize - n }
      else
        let q ← popBuffer q
        let totalSize ← sizeSub q.totalSize bytesInTheFirstBuffer Fault.underflow
        skipBytesRec fuel { q with totalSize } (n - bytesInTheFirstBuffer)

/-- The recursion stops at the latest when no buffer is left to pop. -/
def skipBytes (q : PkgInput cap) (n : Nat) : Except Fault (PkgInput cap) :=
  skipBytesRec (q.buffersCount + 1) q n

/-- `copy_n_bytes_to`: the bytes it writes to its destination. A buffer whose rest is not larger
than what is asked for is copied whole and the recursion goes on, also when nothing is left to copy. -/
def copyNBytesTo (q : PkgInput cap) : Nat → Nat → Fin cap → Nat → Except Fault Bytes
  | 0, _, _, _ => .error .outOfFuel
  | fuel + 1, n, bufPos, bufOffset => do
    assertThat (n ≤ q.totalSize) Fault.copyShort
    let buf := q.bufs bufPos
    let remainedInThisBuffer := buf.length - bufOffset
    if n < remainedInThisBuffer then
      return (buf.drop bufOffset).take n
    else
      let rest ← copyNBytesTo q fuel (n - remainedInThisBuffer) (nextPos bufPos) 0
      return buf.drop bufOffset ++ rest

/-- One lap to collect the bytes and one to find a buffer to stop at: a copy that needs more
levels of recursion never ends. -/
def copyFuel (cap : Nat) : Nat := 2 * cap + 1

/-! ## Direct reading -/

def viewPkgHeader (q : PkgInput cap) : Except Fault PkgHeader := do
  assertThat (q.firstBufferServed = false) Fault.viewServed
  assertThat (sizeofPkgHeader ≤ q.totalSize) Fault.viewShort
  let image ← q.copyNBytesTo (copyFuel cap) sizeofPkgHeader q.firstBufferPos q.firstBufferOffset
  return PkgHeader.ofImage image

def readBuffer (q : PkgInput cap) (n : Nat) : Except Fault (Bytes × PkgInput cap) := do
  assertThat (q.firstBufferServed = false) Fault.readServed
  assertThat (n ≤ q.totalSize) Fault.readShort
  let bytes ← q.copyNBytesTo (copyFuel cap) n q.firstBufferPos q.firstBufferOffset
  let q ← q.skipBytes n
  return (bytes, q)

/-! ## The zero-copy stream -/

/-- `Next`: the block it gives out, if any, and the `int` it stores as its size. -/
def next (q : PkgInput cap) : Except Fault (Option (Bytes × Int) × PkgInput cap) := do
  let q ← q.resetFirstBufferServed
  if q.totalSize = 0 then
    return (none, q)
  else
    let data := (q.bufs q.firstBufferPos).drop q.firstBufferOffset
    let size := toInt q.remainedInTheFirstBuffer
    return (some (data, size),
      { q with byteSizeCounter := q.byteSizeCounter + size, firstBufferServed := true })

def backUp (q : PkgInput cap) (count : Nat) : Except Fault (PkgInput cap) := do
  assertThat (q.firstBufferServed = true) Fault.backUpNotServed
  let q := { q with firstBufferServed := false }
  let consumedSize ← sizeSub q.remainedInTheFirstBuffer count Fault.underflow
  let totalSize ← sizeSub q.totalSize consumedSize Fault.underflow
  let q := { q with totalSize, byteSizeCounter := q.byteSizeCounter - count }
  if 0 < count then
    return { q with firstBufferOffset := q.firstBufferOffset + consumedSize }
  else
    popBuffer q

def skip (q : PkgInput cap) (count : Nat) : Except Fault (Bool × PkgInput cap) := do
  let q ← q.resetFirstBufferServed
  let q := { q with byteSizeCounter := q.byteSizeCounter + count }
  if q.totalSize < count then
    return (false, q)
  else
    let q ← q.skipBytes count
    return (true, q)

end PkgInput

end Opio.ProtoEntry
