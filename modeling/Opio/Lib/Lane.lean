/-
A lane sends one value at a time, and of the values that come meanwhile it keeps the last. What is
sent is always the freshest value there is, so that values go out in order, none twice, and the last
one that came is not lost.
-/
import Mathlib.Tactic.Common
import Mathlib.Data.List.Basic

namespace Opio

variable {β : Type}

inductive Lane (β : Type)
  | idle
  | busy (waiting : Option β)
  deriving DecidableEq, Repr

namespace Lane

/-! ## Operations -/

/-- A value comes; the lane sends it if it is idle. -/
def submit (b : β) : Lane β → Lane β × Option β
  | idle => (busy none, some b)
  | busy _ => (busy (some b), none)

/-- The value that was sent is done with; the one that waits is sent. -/
def finish : Lane β → Lane β × Option β
  | idle => (idle, none)
  | busy none => (idle, none)
  | busy (some b) => (busy none, some b)

def waiting : Lane β → Option β
  | idle => none
  | busy waiting => waiting

/-! ## Freshness -/

/-- Values were sent in the order they came in, and either the last one that came was sent or it waits. -/
structure Fresh (lane : Lane β) (submitted sent : List β) : Prop where
  inOrder : sent.Sublist submitted
  last : lane.waiting = none → sent.getLast? = submitted.getLast?
  waits : ∀ b, lane.waiting = some b → ∃ before, submitted = before ++ [b] ∧ sent.Sublist before

variable {lane : Lane β} {submitted sent : List β}

theorem fresh_init : Fresh (idle : Lane β) [] [] where
  inOrder := .slnil
  last := fun _ => rfl
  waits := by rintro b ⟨⟩

/-- A value that was sent as soon as it was the last to come. -/
theorem fresh_sent {before : List β} (b : β) (h : sent.Sublist before) (hwaiting : lane.waiting = none) :
    Fresh lane (before ++ [b]) (sent ++ [b]) := by
  constructor
  · exact h.append (.refl [b])
  · intro _
    rw [List.getLast?_concat, List.getLast?_concat]
  · intro b' hb'
    rw [hwaiting] at hb'
    cases hb'

theorem Fresh.submit (h : Fresh lane submitted sent) (b : β) :
    Fresh (lane.submit b).1 (submitted ++ [b]) (sent ++ (lane.submit b).2.toList) := by
  cases lane with
  | idle => exact fresh_sent b h.inOrder rfl
  | busy waiting =>
    change Fresh (busy (some b)) (submitted ++ [b]) (sent ++ [])
    rw [List.append_nil]
    constructor
    · exact h.inOrder.trans (List.sublist_append_left submitted [b])
    · rintro ⟨⟩
    · rintro _ ⟨⟩
      exact ⟨submitted, rfl, h.inOrder⟩

theorem Fresh.finish (h : Fresh lane submitted sent) :
    Fresh lane.finish.1 submitted (sent ++ lane.finish.2.toList) := by
  cases lane with
  | idle =>
    change Fresh idle submitted (sent ++ [])
    rwa [List.append_nil]
  | busy waiting =>
    cases waiting with
    | none =>
      change Fresh idle submitted (sent ++ [])
      rw [List.append_nil]
      exact ⟨h.inOrder, h.last, nofun⟩
    | some b =>
      obtain ⟨before, rfl, hbefore⟩ := h.waits b rfl
      exact fresh_sent b hbefore rfl

/-- What is sent next is the last value that came. -/
theorem Fresh.finish_last (h : Fresh lane submitted sent) {b : β} (hb : lane.finish.2 = some b) :
    submitted.getLast? = some b := by
  cases lane with
  | idle => cases hb
  | busy waiting =>
    cases waiting with
    | none => cases hb
    | some b' =>
      obtain rfl := Option.some.inj hb
      obtain ⟨before, rfl, -⟩ := h.waits b' rfl
      exact List.getLast?_concat

theorem submit_last {b b' : β} (hb : (lane.submit b).2 = some b') : b' = b := by
  cases lane with
  | idle => exact (Option.some.inj hb).symm
  | busy waiting => cases hb

end Lane

end Opio
