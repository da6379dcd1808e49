/-
Records that are written to objects field by field and read back in the same way. What a field is written
as, and what is read when it is not there, is its own; a record reads back when its fields do, their names
differ, and there are no other fields.
-/
import Mathlib.Data.List.Nodup
import Mathlib.Tactic.Common

namespace Opio

variable {J ε α σ : Type}

/-! ## Objects and values -/

/-- Objects with named members. -/
structure Members (J : Type) where
  empty : J
  add : J → String → J → J
  find : J → String → Option J

/-- A member that was added is found, and adding it hides no other. -/
structure Members.Lawful (ms : Members J) : Prop where
  find_empty : ∀ name, ms.find ms.empty name = none
  find_add : ∀ object name member, ms.find object name = none → ms.find (ms.add object name member) name = some member
  find_add_of_ne : ∀ object name member name', name' ≠ name →
    ms.find (ms.add object name member) name' = ms.find object name'

/-- How a value is written, and how it is read into the place of another one. -/
structure Codec (J ε α : Type) where
  write : α → J
  read : J → α → Except ε α

/-- What is written is read as what it was, whatever was in its place. -/
def Codec.ReadsBack (c : Codec J ε α) (a : α) : Prop := ∀ old, c.read (c.write a) old = .ok a

/-- What is written cannot be read. -/
def Codec.Refuses (c : Codec J ε α) (a : α) : Prop := ∀ old, ∃ e, c.read (c.write a) old = .error e

/-! ## Fields -/

/-- A field of a record, with the member it is written to, unless it is left out. -/
structure Field (J ε σ : Type) where
  name : String
  write : σ → Option J
  read : Option J → σ → Except ε σ
  /-- The second record with the field of the first. -/
  copy : σ → σ → σ

namespace Field

/-- What is written of the field is read into any record as what it was. -/
def ReadsBack (f : Field J ε σ) (s : σ) : Prop := ∀ record, f.read (f.write s) record = .ok (f.copy s record)

def Refuses (f : Field J ε σ) (s : σ) : Prop := ∀ record, ∃ e, f.read (f.write s) record = .error e

variable (name : String) (get : σ → α) (set : α → σ → σ) (codec : Codec J ε α)

/-- A field that has to be there. -/
def mandatory (notDefined : ε) : Field J ε σ where
  name := name
  write s := some (codec.write (get s))
  read
    | some member, s => return set (← codec.read member (get s)) s
    | none, _ => throw notDefined
  copy s := set (get s)

/-- A field that is left out when it has its default value. -/
def optional [DecidableEq α] (default : α) : Field J ε σ where
  name := name
  write s := if get s = default then none else some (codec.write (get s))
  read
    | some member, s => return set (← codec.read member (get s)) s
    | none, s => return set default s
  copy s := set (get s)

/-- A field that is written always, and stays as it is when it is not there. -/
def optionalNoDefault : Field J ε σ where
  name := name
  write s := some (codec.write (get s))
  read
    | some member, s => return set (← codec.read member (get s)) s
    | none, s => return s
  copy s := set (get s)

/-- A field that is left out when it has no value. -/
def optionalNullopt [Inhabited α] (get : σ → Option α) (set : Option α → σ → σ) : Field J ε σ where
  name := name
  write s := (get s).map codec.write
  read
    | some member, s => return set (some (← codec.read member default)) s
    | none, s => return set none s
  copy s := set (get s)

variable {name get set codec} {s : σ}

theorem mandatory_readsBack {notDefined : ε} (h : codec.ReadsBack (get s)) :
    (mandatory name get set codec notDefined).ReadsBack s := by
  intro record
  simp only [mandatory, h (get record)]
  rfl

theorem mandatory_refuses {notDefined : ε} (h : codec.Refuses (get s)) :
    (mandatory name get set codec notDefined).Refuses s := by
  intro record
  obtain ⟨e, he⟩ := h (get record)
  refine ⟨e, ?_⟩
  simp only [mandatory, he]
  rfl

theorem optional_readsBack [DecidableEq α] {default : α} (h : get s ≠ default → codec.ReadsBack (get s)) :
    (optional name get set codec default).ReadsBack s := by
  intro record
  by_cases hdefault : get s = default
  · simp only [optional, hdefault]
    rfl
  · simp only [optional, if_neg hdefault, h hdefault (get record)]
    rfl

theorem optional_refuses [DecidableEq α] {default : α} (hne : get s ≠ default) (h : codec.Refuses (get s)) :
    (optional name get set codec default).Refuses s := by
  intro record
  obtain ⟨e, he⟩ := h (get record)
  refine ⟨e, ?_⟩
  simp only [optional, if_neg hne, he]
  rfl

theorem optionalNoDefault_readsBack (h : codec.ReadsBack (get s)) :
    (optionalNoDefault name get set codec).ReadsBack s := by
  intro record
  simp only [optionalNoDefault, h (get record)]
  rfl

theorem optionalNullopt_readsBack [Inhabited α] {get : σ → Option α} {set : Option α → σ → σ}
    (h : ∀ a, codec.ReadsBack a) : (optionalNullopt name codec get set).ReadsBack s := by
  intro record
  cases hget : get s with
  | none =>
    simp only [optionalNullopt, hget]
    rfl
  | some a =>
    simp only [optionalNullopt, hget, Option.map_some, h a default]
    rfl

end Field

/-! ## Records -/

/-- The fields are added to an object in their order. -/
def writeFields (ms : Members J) (fields : List (Field J ε σ)) (s : σ) : J :=
  fields.foldl (fun object f => ((f.write s).map (ms.add object f.name)).getD object) ms.empty

/-- The fields are read into a record in their order. -/
def readFields (ms : Members J) (fields : List (Field J ε σ)) (object : J) (s : σ) : Except ε σ :=
  fields.foldlM (fun record f => f.read (ms.find object f.name) record) s

def Codec.record (ms : Members J) (fields : List (Field J ε σ)) : Codec J ε σ where
  write := writeFields ms fields
  read := readFields ms fields

variable {ms : Members J} {fields : List (Field J ε σ)} {f : Field J ε σ} {s : σ}

/-- What a field adds to an object. -/
theorem find_addField (hms : ms.Lawful) (f : Field J ε σ) (s : σ) {object : J} (hnone : ms.find object f.name = none) :
    ms.find (((f.write s).map (ms.add object f.name)).getD object) f.name = f.write s := by
  cases f.write s with
  | none => exact hnone
  | some member => exact hms.find_add object f.name member hnone

theorem find_addField_of_ne (hms : ms.Lawful) (f : Field J ε σ) (s : σ) (object : J) {name : String}
    (hne : name ≠ f.name) : ms.find (((f.write s).map (ms.add object f.name)).getD object) name =
    ms.find object name := by
  cases f.write s with
  | none => rfl
  | some member => exact hms.find_add_of_ne object f.name member name hne

theorem find_addFields_of_ne (hms : ms.Lawful) (s : σ) {name : String} : ∀ (fields : List (Field J ε σ)) (object : J),
    name ∉ fields.map Field.name →
      ms.find (fields.foldl (fun object f => ((f.write s).map (ms.add object f.name)).getD object) object) name =
        ms.find object name
  | [], _, _ => rfl
  | f :: fields, object, hname => by
    obtain ⟨hne, hname⟩ := not_or.1 (List.mem_cons.not.1 hname)
    rw [List.foldl_cons, find_addFields_of_ne hms s fields _ hname, find_addField_of_ne hms f s object hne]

theorem find_addFields (hms : ms.Lawful) (s : σ) : ∀ (fields : List (Field J ε σ)) (object : J),
    (fields.map Field.name).Nodup → (∀ f ∈ fields, ms.find object f.name = none) → ∀ f ∈ fields,
      ms.find (fields.foldl (fun object f => ((f.write s).map (ms.add object f.name)).getD object) object) f.name =
        f.write s
  | [], _, _, _ => by rintro f ⟨⟩
  | g :: fields, object, hnames, hnone => by
    obtain ⟨hg, hnames⟩ := List.nodup_cons.1 hnames
    obtain ⟨hgnone, hnone⟩ := List.forall_mem_cons.1 hnone
    rintro f hf
    rw [List.foldl_cons]
    rcases List.mem_cons.1 hf with rfl | hf
    · rw [find_addFields_of_ne hms s fields _ hg, find_addField hms f s hgnone]
    · refine find_addFields hms s fields _ hnames (fun f' hf' => ?_) f hf
      have hne : f'.name ≠ g.name := by
        rintro heq
        exact hg (heq ▸ List.mem_map_of_mem hf')
      rw [find_addField_of_ne hms g s object hne]
      exact hnone f' hf'

/-- Every field is found as it was written. -/
theorem find_writeFields (hms : ms.Lawful) (hnames : (fields.map Field.name).Nodup) (s : σ) (hf : f ∈ fields) :
    ms.find (writeFields ms fields s) f.name = f.write s :=
  find_addFields hms s fields ms.empty hnames (fun f _ => hms.find_empty f.name) f hf

theorem foldlM_read {object : J} : ∀ {fields : List (Field J ε σ)} (record : σ),
    (∀ f ∈ fields, ms.find object f.name = f.write s ∧ f.ReadsBack s) →
      readFields ms fields object record = .ok (fields.foldl (fun record f => f.copy s record) record)
  | [], _, _ => rfl
  | f :: fields, record, h => by
    obtain ⟨⟨hfind, hreads⟩, hrest⟩ := List.forall_mem_cons.1 h
    rw [readFields, List.foldlM_cons, hfind, hreads record]
    exact foldlM_read (f.copy s record) hrest

theorem foldlM_refuses {object : J} : ∀ {fields : List (Field J ε σ)} (record : σ), f ∈ fields →
    ms.find object f.name = f.write s → f.Refuses s → ∃ e, readFields ms fields object record = .error e
  | g :: fields, record, hf, hfind, hrefuses => by
    rw [readFields, List.foldlM_cons]
    rcases List.mem_cons.1 hf with rfl | hf
    · obtain ⟨e, he⟩ := hrefuses record
      rw [hfind, he]
      exact ⟨e, rfl⟩
    · cases g.read (ms.find object g.name) record with
      | error e => exact ⟨e, rfl⟩
      | ok record' => exact foldlM_refuses record' hf hfind hrefuses

/-- A record reads back when its fields do and there is nothing else in it. -/
theorem Codec.record_readsBack (hms : ms.Lawful) (hnames : (fields.map Field.name).Nodup)
    (hfields : ∀ f ∈ fields, f.ReadsBack s)
    (hcopy : ∀ record, fields.foldl (fun record f => f.copy s record) record = s) :
    (Codec.record ms fields).ReadsBack s := by
  intro record
  refine (foldlM_read record fun f hf => ⟨find_writeFields hms hnames s hf, hfields f hf⟩).trans ?_
  rw [hcopy]

/-- A record with a field that cannot be read cannot be read. -/
theorem Codec.record_refuses (hms : ms.Lawful) (hnames : (fields.map Field.name).Nodup) (hf : f ∈ fields)
    (hrefuses : f.Refuses s) : (Codec.record ms fields).Refuses s :=
  fun record => foldlM_refuses record hf (find_writeFields hms hnames s hf) hrefuses

end Opio
