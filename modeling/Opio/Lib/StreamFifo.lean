/-
A first-in first-out queue with a stream on its front: the stream gives out the front in blocks
of its own choice, the last block counts as consumed only with the call after it, and until then
its end can be given back. The queue is a plain list; which blocks it is cut into is left open.
-/
import Mathlib.Data.List.Basic

namespace Opio

structure StreamFifo (α : Type) where
  /-- What is not yet confirmed as consumed, oldest first. -/
  pending : List α := []
  /-- The size of the block at the front that is given out and not confirmed. -/
  outstanding : Option Nat := none
  /-- How much was consumed through the stream. -/
  counter : Int := 0

namespace StreamFifo

variable {α : Type}

/-- What the stream has not given out. -/
def available (f : StreamFifo α) : List α := f.pending.drop (f.outstanding.getD 0)

theorem available_none {f : StreamFifo α} (h : f.outstanding = none) : f.available = f.pending := by
  rw [available, h, Option.getD_none, List.drop_zero]

inductive Op (α : Type)
  | append (xs : List α)
  | next
  | backUp (count : Nat)
  | skip (count : Nat)
  | drop (n : Nat)
  | view (n : Nat)
  | read (n : Nat)

inductive Out (α : Type)
  | done
  | block (b : Option (List α × Int))
  | skipped (all : Bool)
  | elems (xs : List α)

/-- What each operation returns and leaves. -/
inductive Step : StreamFifo α → Op α → Out α → StreamFifo α → Prop
  | append {f : StreamFifo α} (xs : List α) (h : f.outstanding = none) :
    Step f (.append xs) .done { f with pending := f.pending ++ xs }
  | nextNone {f : StreamFifo α} (h : f.available = []) :
    Step f .next (.block none) { f with pending := [], outstanding := none }
  | nextSome {f : StreamFifo α} {b rest : List α} (h : f.available = b ++ rest) (hne : f.available ≠ []) :
    Step f .next (.block (some (b, b.length)))
      { pending := f.available, outstanding := some b.length, counter := f.counter + b.length }
  | backUp {f : StreamFifo α} {k count : Nat} (h : f.outstanding = some k) (hle : count ≤ k) :
    Step f (.backUp count) .done
      { pending := f.pending.drop (k - count), outstanding := none, counter := f.counter - count }
  | skip {f : StreamFifo α} {count : Nat} (hle : count ≤ f.available.length) :
    Step f (.skip count) (.skipped true)
      { pending := f.available.drop count, outstanding := none, counter := f.counter + count }
  | drop {f : StreamFifo α} {n : Nat} (h : f.outstanding = none) (hle : n ≤ f.pending.length) :
    Step f (.drop n) .done { f with pending := f.pending.drop n }
  | view {f : StreamFifo α} {n : Nat} (h : f.outstanding = none) (hle : n ≤ f.pending.length) :
    Step f (.view n) (.elems (f.pending.take n)) f
  | read {f : StreamFifo α} {n : Nat} (h : f.outstanding = none) (hle : n ≤ f.pending.length) :
    Step f (.read n) (.elems (f.pending.take n)) { f with pending := f.pending.drop n }

end StreamFifo

end Opio
