/-
Decoding a sequence that comes in chunks. A decoder looks at the head of what is there and asks
for more, gives up, or takes an item off; it is run until it can do no more, and again when the
next chunk is there. Where the head is decided only when no later element can change it, the
items do not depend on where the chunks are cut.
-/
import Mathlib.Data.List.Basic
import Mathlib.Order.Nat
import Mathlib.Tactic.Common

namespace Opio

/-- What the head of a sequence asks for: an item that takes `n` elements, or the end of all decoding. -/
inductive Head (ε : Type)
  | more
  | item (evs : List ε) (n : Nat)
  | stop (evs : List ε)

namespace Incremental

variable {α ε : Type} (head : List α → Head ε)

/-! ## Decoding -/

/-- The events of the items at the front and what is left of the sequence, nothing after a stop. -/
def decode : Nat → List α → List ε × Option (List α)
  | 0, xs => ([], some xs)
  | fuel + 1, xs =>
    match head xs with
    | .more => ([], some xs)
    | .stop evs => (evs, none)
    | .item evs n => (evs ++ (decode fuel (xs.drop n)).1, (decode fuel (xs.drop n)).2)

/-- Decodes as far as the sequence goes. -/
def decodeAll (xs : List α) : List ε × Option (List α) := decode head (xs.length + 1) xs

/-- Adds a chunk behind what is left. -/
def feed (st : List ε × Option (List α)) (chunk : List α) : List ε × Option (List α) :=
  match st.2 with
  | none => st
  | some rest => (st.1 ++ (decodeAll head (rest ++ chunk)).1, (decodeAll head (rest ++ chunk)).2)

/-- The sequences a decoder looks at the head of. -/
inductive Reaches : List α → List α → Prop
  | here (xs : List α) : Reaches xs xs
  | next {xs ys : List α} {evs : List ε} {n : Nat} (h : head xs = .item evs n) (h' : Reaches (xs.drop n) ys) :
    Reaches xs ys

/-- A `Good` sequence keeps its head when elements are added behind it, and its items take
something, but no more than is there. -/
structure Stable (Good : List α → Prop) : Prop where
  of_append : ∀ xs ys, Good (xs ++ ys) → Good xs
  stable : ∀ xs ys, Good (xs ++ ys) → head xs ≠ .more → head (xs ++ ys) = head xs
  progress : ∀ xs evs n, Good xs → head xs = .item evs n → 0 < n ∧ n ≤ xs.length

/-- Every sequence the decoder looks at is `Good`. -/
def AllGood (Good : List α → Prop) (xs : List α) : Prop := ∀ ys, Reaches head xs ys → Good ys

variable {head} {Good : List α → Prop}

/-! ## What is reached -/

theorem AllGood.here {xs : List α} (h : AllGood head Good xs) : Good xs := h xs (.here xs)

theorem AllGood.next {xs : List α} (h : AllGood head Good xs) {evs : List ε} {n : Nat} (hx : head xs = .item evs n) :
    AllGood head Good (xs.drop n) := fun ys hys => h ys (.next hx hys)

theorem Reaches.trans {xs ys zs : List α} (h : Reaches head xs ys) (h' : Reaches head ys zs) : Reaches head xs zs := by
  induction h with
  | here xs => exact h'
  | next hx _ ih => exact .next hx (ih h')

theorem AllGood.reaches {xs ys : List α} (h : AllGood head Good xs) (hr : Reaches head xs ys) :
    AllGood head Good ys := fun zs hzs => h zs (hr.trans hzs)

theorem Reaches.length_le {xs ys : List α} (h : Reaches head xs ys) : ys.length ≤ xs.length := by
  induction h with
  | here xs => exact le_rfl
  | next _ _ ih => exact ih.trans (by rw [List.length_drop]; exact Nat.sub_le _ _)

/-- An item at the front of a longer good sequence. -/
theorem Stable.item_append (hs : Stable head Good) {xs ys : List α} (hg : Good (xs ++ ys)) {evs : List ε} {n : Nat}
    (hx : head xs = .item evs n) : head (xs ++ ys) = .item evs n ∧ (xs ++ ys).drop n = xs.drop n ++ ys := by
  obtain ⟨-, hle⟩ := hs.progress xs evs n (hs.of_append xs ys hg) hx
  refine ⟨?_, List.drop_append_of_le_length hle⟩
  rw [hs.stable xs ys hg (by rw [hx]; simp), hx]

/-- What is reached in the front of a good sequence is reached in the whole. -/
theorem Reaches.append (hs : Stable head Good) {xs zs : List α} (h : Reaches head xs zs) {ys : List α}
    (hg : AllGood head Good (xs ++ ys)) : Reaches head (xs ++ ys) (zs ++ ys) := by
  induction h with
  | here xs => exact .here _
  | next hx _ ih =>
    obtain ⟨hitem, hdrop⟩ := hs.item_append hg.here hx
    have hnext := hg.next hitem
    rw [hdrop] at hnext
    refine .next hitem ?_
    rw [hdrop]
    exact ih hnext

theorem AllGood.of_append (hs : Stable head Good) {xs ys : List α} (hg : AllGood head Good (xs ++ ys)) :
    AllGood head Good xs := fun zs hzs => hs.of_append zs ys (hg _ (hzs.append hs hg))

/-- Looks at what is reached, for at most the given number of items. -/
def checkGood (head : List α → Head ε) (Good : List α → Prop) [DecidablePred Good] : Nat → List α → Bool
  | 0, _ => false
  | fuel + 1, xs => decide (Good xs) &&
    match head xs with
    | .item _ n => checkGood head Good fuel (xs.drop n)
    | _ => true

theorem allGood_of_checkGood [DecidablePred Good] : ∀ (fuel : Nat) (xs : List α), checkGood head Good fuel xs = true →
    AllGood head Good xs
  | 0, _, h => by cases h
  | fuel + 1, xs, h => by
    obtain ⟨hxs, hnext⟩ := Bool.and_eq_true_iff.1 h
    intro ys hys
    cases hys with
    | here => exact of_decide_eq_true hxs
    | next hx hys =>
      rw [hx] at hnext
      exact allGood_of_checkGood fuel _ hnext ys hys

/-! ## Decoding step by step -/

/-- More fuel than elements makes no difference. -/
theorem decode_fuel (hs : Stable head Good) : ∀ (fuel : Nat) (xs : List α), AllGood head Good xs →
    xs.length < fuel → decode head fuel xs = decodeAll head xs
  | 0, _, _, h => absurd h (Nat.not_lt_zero _)
  | fuel + 1, xs, hgood, h => by
    rw [decodeAll, decode, decode]
    cases hhead : head xs with
    | more => rfl
    | stop evs => rfl
    | item evs n =>
      obtain ⟨hpos, hle⟩ := hs.progress xs evs n hgood.here hhead
      have hlen : (xs.drop n).length < xs.length := by rw [List.length_drop]; omega
      have hfuel : (xs.drop n).length < fuel := by omega
      dsimp only
      rw [decode_fuel hs fuel _ (hgood.next hhead) hfuel, decode_fuel hs xs.length _ (hgood.next hhead) hlen]
termination_by _ xs => xs.length

theorem decodeAll_more {xs : List α} (h : head xs = .more) : decodeAll head xs = ([], some xs) := by
  rw [decodeAll, decode, h]

theorem decodeAll_stop {xs : List α} {evs : List ε} (h : head xs = .stop evs) : decodeAll head xs = (evs, none) := by
  rw [decodeAll, decode, h]

/-- One item, then the rest. -/
theorem decodeAll_item (hs : Stable head Good) {xs : List α} (hgood : AllGood head Good xs) {evs : List ε} {n : Nat}
    (h : head xs = .item evs n) :
    decodeAll head xs = (evs ++ (decodeAll head (xs.drop n)).1, (decodeAll head (xs.drop n)).2) := by
  obtain ⟨hpos, hle⟩ := hs.progress xs evs n hgood.here h
  have hlen : (xs.drop n).length < xs.length := by rw [List.length_drop]; omega
  rw [decodeAll, decode, h]
  dsimp only
  rw [decode_fuel hs _ _ (hgood.next h) hlen]

/-- What is left is looked at last. -/
theorem reaches_of_decodeAll (hs : Stable head Good) : ∀ (xs : List α), AllGood head Good xs → ∀ {rest : List α},
    (decodeAll head xs).2 = some rest → Reaches head xs rest
  | xs, hgood, rest, h => by
    cases hhead : head xs with
    | more =>
      rw [decodeAll_more hhead] at h
      exact Option.some.inj h ▸ .here xs
    | stop evs =>
      rw [decodeAll_stop hhead] at h
      cases h
    | item evs n =>
      obtain ⟨hpos, hle⟩ := hs.progress xs evs n hgood.here hhead
      have hlen : (xs.drop n).length < xs.length := by rw [List.length_drop]; omega
      rw [decodeAll_item hs hgood hhead] at h
      exact .next hhead (reaches_of_decodeAll hs _ (hgood.next hhead) h)
termination_by xs => xs.length

/-! ## Chunks -/

theorem feed_append_left (evs : List ε) (st : List ε × Option (List α)) (chunk : List α) :
    feed head (evs ++ st.1, st.2) chunk = (evs ++ (feed head st chunk).1, (feed head st chunk).2) := by
  obtain ⟨evs', _ | rest⟩ := st
  · rfl
  · simp only [feed, List.append_assoc]

/-- Decoding a sequence is decoding its front and feeding the rest. -/
theorem decodeAll_append (hs : Stable head Good) (ys : List α) : ∀ (xs : List α), AllGood head Good (xs ++ ys) →
    decodeAll head (xs ++ ys) = feed head (decodeAll head xs) ys
  | xs, hgood => by
    have hfront := hgood.of_append hs
    cases hhead : head xs with
    | more => rw [decodeAll_more hhead]; rfl
    | stop evs =>
      have hstop : head (xs ++ ys) = .stop evs := by rw [hs.stable xs ys hgood.here (by rw [hhead]; simp), hhead]
      rw [decodeAll_stop hstop, decodeAll_stop hhead]
      rfl
    | item evs n =>
      obtain ⟨hpos, hle⟩ := hs.progress xs evs n hfront.here hhead
      have hlen : (xs.drop n).length < xs.length := by rw [List.length_drop]; omega
      obtain ⟨hitem, hdrop⟩ := hs.item_append hgood.here hhead
      have hnext := hgood.next hitem
      rw [hdrop] at hnext
      rw [decodeAll_item hs hgood hitem, decodeAll_item hs hfront hhead, hdrop, decodeAll_append hs ys _ hnext,
        feed_append_left]
termination_by xs => xs.length

theorem foldl_feed_none (evs : List ε) : ∀ (chunks : List (List α)),
    chunks.foldl (feed head) (evs, none) = (evs, none)
  | [] => rfl
  | _ :: chunks => foldl_feed_none evs chunks

/-- However a sequence is cut into chunks, feeding them one after another decodes the whole. -/
theorem foldl_feed (hs : Stable head Good) : ∀ (chunks : List (List α)) (xs : List α),
    AllGood head Good (xs ++ chunks.flatten) →
      chunks.foldl (feed head) (decodeAll head xs) = decodeAll head (xs ++ chunks.flatten)
  | [], xs, _ => by rw [List.flatten_nil, List.append_nil, List.foldl_nil]
  | chunk :: chunks, xs, hgood => by
    rw [List.flatten_cons, ← List.append_assoc] at hgood ⊢
    rw [List.foldl_cons, ← decodeAll_append hs chunk xs (hgood.of_append hs), foldl_feed hs chunks _ hgood]

/-! ## Sequences put together from items -/

/-- The elements of an item and its events, whatever comes behind it. -/
structure Encodes (head : List α → Head ε) (Good : List α → Prop) (xs : List α) (evs : List ε) : Prop where
  item : ∀ ys, head (xs ++ ys) = .item evs xs.length
  good : ∀ ys, Good (xs ++ ys)

/-- The items of a sequence are what is looked at. -/
theorem allGood_flatten (hnil : AllGood head Good []) {parts : List (List α)} {evss : List (List ε)}
    (h : List.Forall₂ (Encodes head Good) parts evss) : AllGood head Good parts.flatten := by
  induction h with
  | nil => exact hnil
  | cons hpart hparts ih =>
    rw [List.flatten_cons]
    intro ys hys
    cases hys with
    | here => exact hpart.good _
    | next hx hys =>
      rw [hpart.item] at hx
      cases hx
      rw [List.drop_left] at hys
      exact ih ys hys

/-- A sequence put together from items is decoded to the events of the items. -/
theorem decodeAll_flatten (hs : Stable head Good) (hmore : head [] = .more) (hnil : AllGood head Good [])
    {parts : List (List α)} {evss : List (List ε)} (h : List.Forall₂ (Encodes head Good) parts evss) :
    decodeAll head parts.flatten = (evss.flatten, some []) := by
  induction h with
  | nil => exact decodeAll_more hmore
  | @cons part evs parts evss hpart hparts ih =>
    have hgood := allGood_flatten hnil (.cons hpart hparts)
    rw [List.flatten_cons] at hgood
    rw [List.flatten_cons, List.flatten_cons, decodeAll_item hs hgood (hpart.item _), List.drop_left, ih]

/-! ## The front of a sequence of items -/

/-- Of an item that is not all there, nothing can be taken off. -/
theorem Encodes.more (hs : Stable head Good) {xs ys : List α} {evs : List ε} (h : Encodes head Good (xs ++ ys) evs)
    (hys : ys ≠ []) : head xs = .more := by
  by_contra hne
  have hgood : Good (xs ++ ys) := by simpa using h.good []
  have hitem : head (xs ++ ys) = .item evs (xs ++ ys).length := by simpa using h.item []
  -- the head of the front would be that of the whole item, which takes more than is there
  rw [hs.stable xs ys hgood hne] at hitem
  obtain ⟨-, hle⟩ := hs.progress xs evs _ (hs.of_append xs ys hgood) hitem
  have hpos := List.length_pos_iff.2 hys
  rw [List.length_append] at hle
  omega

/-- Of the front of a sequence of items the complete ones are decoded; a front of the next one is left. -/
theorem decodeAll_isPrefix (hs : Stable head Good) (hmore : head [] = .more) (hnil : AllGood head Good [])
    {parts : List (List α)} {evss : List (List ε)} (h : List.Forall₂ (Encodes head Good) parts evss) :
    ∀ {xs : List α}, xs <+: parts.flatten → ∃ k rest,
      xs = (parts.take k).flatten ++ rest ∧ decodeAll head xs = ((evss.take k).flatten, some rest) ∧
        (rest = [] ∨ ∃ part ∈ parts, rest.length < part.length) := by
  induction h with
  | nil =>
    intro xs hxs
    rw [List.prefix_nil.1 hxs]
    exact ⟨0, [], rfl, decodeAll_more hmore, .inl rfl⟩
  | @cons part evs parts evss hpart hparts ih =>
    intro xs hxs
    rw [List.flatten_cons] at hxs
    rcases List.prefix_or_prefix_of_prefix hxs (List.prefix_append part parts.flatten) with hshort | ⟨ys, rfl⟩
    · obtain ⟨ys, rfl⟩ := hshort
      by_cases hys : ys = []
      · subst hys
        rw [List.append_nil] at hpart ⊢
        refine ⟨1, [], by simp, ?_, .inl rfl⟩
        have hgood : AllGood head Good xs := by simpa using allGood_flatten hnil (.cons hpart .nil)
        have hitem : head xs = .item evs xs.length := by simpa using hpart.item []
        rw [decodeAll_item hs hgood hitem, List.drop_length, decodeAll_more hmore]
        simp
      · refine ⟨0, xs, by simp, ?_, .inr ⟨xs ++ ys, List.mem_cons_self .., ?_⟩⟩
        · rw [decodeAll_more (hpart.more hs hys), List.take_zero, List.flatten_nil]
        · have hpos := List.length_pos_iff.2 hys
          rw [List.length_append]
          omega
    · obtain ⟨k, rest, rfl, hdecode, hrest⟩ := ih ((List.prefix_append_right_inj part).1 hxs)
      have hgood : AllGood head Good (part ++ ((parts.take k).flatten ++ rest)) := by
        have hall := allGood_flatten hnil (.cons hpart hparts)
        obtain ⟨zs, hzs⟩ := hxs
        rw [List.flatten_cons, ← hzs] at hall
        exact hall.of_append hs
      refine ⟨k + 1, rest, by simp, ?_, hrest.imp_right ?_⟩
      · rw [decodeAll_item hs hgood (hpart.item _), List.drop_left, hdecode]
        rfl
      · rintro ⟨part', hmem, hlt⟩
        exact ⟨part', List.mem_cons_of_mem part hmem, hlt⟩

end Incremental

end Opio
