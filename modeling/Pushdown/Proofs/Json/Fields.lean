/-
  Pushdown/Proofs/Json/Fields.lean
  ================================
  **Taking JSON values apart.**  Whoever reads a value asks an object for its fields by
  their names.  The order in which an object has its fields makes no difference to that
  (`field?_record`), as long as no name stands twice in one object (`NamesApart`): readers do
  not agree on which of two fields of one name counts.

  The readers of single values are partial inverses of what writes them, one lemma each.
-/
import Pushdown.Text.Json

namespace Pushdown.Text.Json

/-! ### Fields by name -/

/-- The field of this name. -/
def field? (name : String) : Json → Option Json
  | .object fields => fields.lookup name
  | _ => none

theorem lookup_insertField (name n : String) (v : Json) (fields : List (String × Json)) :
    (insertField n v fields).lookup name = ((n, v) :: fields).lookup name := by
  induction fields with
  | nil => rfl
  | cons f fields ih =>
    obtain ⟨m, w⟩ := f
    rw [insertField]
    split
    · rfl
    · next hafter =>
      have hne : m ≠ n := fun heq => hafter (heq ▸ String.le_refl m)
      rw [List.lookup_cons, ih]
      by_cases hname : name = m
      · subst hname
        simp [List.lookup_cons, beq_eq_false_iff_ne.mpr hne]
      · simp [List.lookup_cons, beq_eq_false_iff_ne.mpr hname]

theorem field?_record (name : String) (fields : List (String × Json)) :
    (record fields).field? name = fields.lookup name := by
  rw [record, field?]
  induction fields with
  | nil => rfl
  | cons f fields ih =>
    rw [List.foldr_cons, lookup_insertField, List.lookup_cons, ih, List.lookup_cons]

/-! ### Names that stand once -/

/-- No object in the value has two fields of one name. -/
inductive NamesApart : Json → Prop
  | null : NamesApart .null
  | bool (b : Bool) : NamesApart (.bool b)
  | number (n : Int) : NamesApart (.number n)
  | text (s : String) : NamesApart (.text s)
  | array {items : List Json} (parts : ∀ v ∈ items, NamesApart v) : NamesApart (.array items)
  | object {fields : List (String × Json)} (names : (fields.map Prod.fst).Nodup)
      (parts : ∀ f ∈ fields, NamesApart f.2) : NamesApart (.object fields)

attribute [simp] NamesApart.text

theorem perm_insertField (n : String) (v : Json) (fields : List (String × Json)) :
    (insertField n v fields).Perm ((n, v) :: fields) := by
  induction fields with
  | nil => exact .refl _
  | cons f fields ih =>
    rw [insertField]
    split
    · exact .refl _
    · exact (ih.cons f).trans (.swap ..)

/-- A record has the fields it is made of. -/
theorem perm_record (fields : List (String × Json)) :
    ∃ fields', record fields = .object fields' ∧ fields'.Perm fields := by
  refine ⟨_, rfl, ?_⟩
  induction fields with
  | nil => exact .refl _
  | cons f fields ih => exact (perm_insertField f.1 f.2 _).trans (ih.cons f)

@[simp] theorem namesApart_record {fields : List (String × Json)} :
    NamesApart (record fields) ↔
      (fields.map Prod.fst).Nodup ∧ ∀ f ∈ fields, NamesApart f.2 := by
  obtain ⟨fields', hrecord, hperm⟩ := perm_record fields
  rw [hrecord, ← (hperm.map Prod.fst).nodup_iff]
  constructor
  · intro apart
    cases apart with
    | object names parts => exact ⟨names, fun f hf => parts f (hperm.mem_iff.mpr hf)⟩
  · rintro ⟨names, parts⟩
    exact .object names fun f hf => parts f (hperm.mem_iff.mp hf)

@[simp] theorem namesApart_ofNat (n : Nat) : NamesApart (ofNat n) := .number n

theorem namesApart_map {α : Type} {write : α → Json} (parts : ∀ a, NamesApart (write a))
    (as : List α) : NamesApart (.array (as.map write)) := by
  refine .array fun v hv => ?_
  obtain ⟨a, -, rfl⟩ := List.mem_map.mp hv
  exact parts a

@[simp] theorem namesApart_texts (items : List String) : NamesApart (texts items) :=
  namesApart_map .text items

theorem namesApart_ofOption {α : Type} {write : α → Json} (parts : ∀ a, NamesApart (write a))
    (o : Option α) : NamesApart (ofOption write o) := by
  cases o with
  | none => exact .null
  | some a => exact parts a

/-! ### Readers of values -/

def text? : Json → Option String
  | .text s => some s
  | _ => none

def nat? : Json → Option Nat
  | .number (.ofNat n) => some n
  | _ => none

/-- A number of 64 bits. -/
def word? (v : Json) : Option UInt64 :=
  (v.nat?.filter (· < UInt64.size)).map UInt64.ofNat

section

variable {α β : Type}

/-- Nothing for `null`. -/
def option? (read : Json → Option α) : Json → Option (Option α)
  | .null => some none
  | v => (read v).map some

def list? (read : Json → Option α) : Json → Option (List α)
  | .array items => items.mapM read
  | _ => none

/-- The first of these that has the text as its name. -/
def named? (name : α → String) (all : List α) (v : Json) : Option α :=
  v.text?.bind fun s => all.find? fun a => name a == s

/-- What is read of the field of this name. -/
def get? (name : String) (read : Json → Option α) (v : Json) : Option α :=
  (v.field? name).bind read

@[simp] theorem text?_text (s : String) : text? (.text s) = some s := rfl

@[simp] theorem nat?_ofNat (n : Nat) : nat? (ofNat n) = some n := rfl

@[simp] theorem word?_ofNat (n : UInt64) : word? (ofNat n.toNat) = some n := by
  have hfits : decide (n.toNat < UInt64.size) = true := decide_eq_true n.toNat_lt_size
  rw [word?, nat?_ofNat, Option.filter_some, if_pos hfits, Option.map_some, UInt64.ofNat_toNat]

/-- Nothing and something are told apart if nothing that is there is written as `null`. -/
theorem option?_ofOption {read : Json → Option α} {write : α → Json}
    (inverse : ∀ a, read (write a) = some a) (visible : ∀ a, write a ≠ .null) (o : Option α) :
    option? read (ofOption write o) = some o := by
  cases o with
  | none => rfl
  | some a =>
    rw [ofOption, option?, inverse]
    · rfl
    · exact visible a

theorem list?_array {read : Json → Option β} {write : α → Json} {f : α → β}
    (inverse : ∀ a, read (write a) = some (f a)) (as : List α) :
    list? read (.array (as.map write)) = some (as.map f) := by
  rw [list?]
  induction as with
  | nil => rfl
  | cons a as ih => simp [inverse, ih]

@[simp] theorem list?_texts (items : List String) : list? text? (texts items) = some items := by
  have h := list?_array (f := id) text?_text items
  rwa [List.map_id] at h

@[simp] theorem get?_record (name : String) (read : Json → Option α)
    (fields : List (String × Json)) :
    (record fields).get? name read = (fields.lookup name).bind read := by
  rw [get?, field?_record]

@[simp] theorem named?_record (name : α → String) (all : List α) (fields : List (String × Json)) :
    named? name all (record fields) = none := rfl

@[simp] theorem get?_text (name : String) (read : Json → Option α) (s : String) :
    (text s).get? name read = none := rfl

end

end Pushdown.Text.Json
