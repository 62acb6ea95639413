import Mulac.Postgres
import Mulac.Uuid

/-!
# Reading and writing JSON with serde

The repositories read `jsonb` columns as text and hand the text to serde_json,
once into a struct and once into an untyped `Value`. The two readers disagree
on purpose: a struct reader skips unknown fields without looking at their
numbers or their depth, an untyped reader must represent everything. How
serde_json rounds a number that is no 64-bit integer is its own business and
stays a parameter.
-/

namespace Mulac.SerdeJson

open JsonValue Identifiers Postgres

/-- The part of serde_json's number handling that is floating point: the decimal
it writes for a number it had to read as an `f64`, if the number is in range. -/
structure FloatReader where
  /-- The number read and written back. -/
  read : Decimal → Option Decimal

/-- A reader that finds every number that is no 64-bit integer out of range. -/
def FloatReader.integersOnly : FloatReader := ⟨fun _ => none⟩

/-- A JSON number as a `serde_json::Number`: integers from `i64::MIN` to
`u64::MAX` are exact. -/
def readNumber (float : FloatReader) (n : Decimal) : Option Decimal :=
  if n.scale = 0 ∧ -2^63 ≤ n.mantissa ∧ n.mantissa < 2^64 then some n else float.read n

/-- serde_json's recursion limit: 128 nested values are refused. -/
def recursionLimit : ℕ := 128

/-- `serde_json::from_str::<Value>` on the text of a `jsonb` value. -/
def fromStrValue (float : FloatReader) (v : Json) : Option Json :=
  if v.depth < recursionLimit then v.readNumbers (readNumber float) else none

theorem fromStrValue_texts {float : FloatReader} {v v' : Json} (h : fromStrValue float v = some v')
    (p : String → Bool) (hp : v.allTexts p = true) : v'.allTexts p = true := by
  unfold fromStrValue at h
  split at h
  · exact Json.allTexts_readNumbers _ p h hp
  · cases h

section Fields

variable {α : Type}

/-- A `String`. -/
def stringOf : Json → Option String
  | .string s => some s
  | _ => none

theorem stringOf_eq_some {v : Json} {s : String} : stringOf v = some s ↔ v = .string s := by
  constructor
  · intro h
    cases v with
    | string t => cases h; rfl
    | null => cases h
    | bool b => cases h
    | number n => cases h
    | array items => cases h
    | object fields => cases h
  · rintro rfl
    rfl

/-- A `Uuid`, written as a string. -/
def uuidOf (v : Json) : Option Uuid := (stringOf v).bind Uuid.parseStr

/-- A `u64`: an integer literal in range. -/
def u64Of : Json → Option ℕ
  | .number n => if n.scale = 0 ∧ 0 ≤ n.mantissa ∧ n.mantissa < 2^64 then some n.mantissa.toNat
      else none
  | _ => none

/-- An `Option`: `null` is `None`. -/
def optionOf (read : Json → Option α) : Json → Option (Option α)
  | .null => some none
  | v => (read v).map some

/-- A `Vec`. -/
def vecOf (read : Json → Option α) : Json → Option (List α)
  | .array items => items.mapM read
  | _ => none

/-- The value of a struct field in an object: a field that occurs twice is an
error, and one that does not occur is missing. -/
def structField (fields : List (String × Json)) (name : String) : Option (Option Json) :=
  match fields.filter fun f => f.1 = name with
  | [] => some none
  | [f] => some (some f.2)
  | _ => none

/-- Where every name occurs once, a struct field is the field of its name. -/
theorem structField_of_nodup {fields : List (String × Json)} (h : (fields.map Prod.fst).Nodup)
    (name : String) : structField fields name = some (Json.field fields name) := by
  induction fields with
  | nil => rfl
  | cons f fields ih =>
    rw [List.map_cons,List.nodup_cons] at h
    rw [Json.field_cons,structField]
    by_cases hf : f.1 = name
    · have hrest : (fields.filter fun g => g.1 = name) = [] := by
        rw [List.filter_eq_nil_iff]
        intro g hg hname
        exact h.1 (List.mem_map.mpr ⟨g,hg,(of_decide_eq_true hname).trans hf.symm⟩)
      rw [List.filter_cons_of_pos (by simpa using hf),hrest,if_pos hf]
    · rw [List.filter_cons_of_neg (by simpa using hf),if_neg hf]
      exact ih h.2

/-- A struct field that is read is the field of its name. -/
theorem field_of_structField {fields : List (String × Json)} {name : String} {v : Option Json}
    (h : structField fields name = some v) : Json.field fields name = v := by
  unfold structField at h
  rw [Json.field,← List.head?_filter]
  split at h
  · next hf => cases h; rw [hf]; rfl
  · next f hf => cases h; rw [hf]; rfl
  · cases h

/-- A struct field that must occur. -/
def requiredField (read : Json → Option α) (fields : List (String × Json)) (name : String) :
    Option α :=
  (structField fields name).bind fun v => v.bind read

/-- A struct field of type `Option`: a missing one is `None`. -/
def optionalField (read : Json → Option α) (fields : List (String × Json)) (name : String) :
    Option (Option α) :=
  (structField fields name).bind fun v =>
    match v with
    | none => some none
    | some v => optionOf read v

/-- `sequence` accepts what `validate_sequence` accepts: nothing, or a revision
from 1 to `i64::MAX`. -/
def validSequence (value : Option ℕ) : Bool :=
  match value with
  | none => true
  | some n => 1 ≤ n && n < 2^63

/-- `deserialize_with = "sequence"`. -/
def sequenceOf (v : Json) : Option (Option ℕ) :=
  (optionOf u64Of v).bind fun value => if validSequence value then some value else none

/-- A `sequence` field, which defaults to `None`. -/
def sequenceField (fields : List (String × Json)) (name : String) : Option (Option ℕ) :=
  (structField fields name).bind fun v =>
    match v with
    | none => some none
    | some v => sequenceOf v

theorem sequenceField_of_some {fields : List (String × Json)} {name : String} {v : Json}
    (h : structField fields name = some (some v)) : sequenceField fields name = sequenceOf v := by
  rw [sequenceField,h]
  rfl

/-- An `Option` written as a value or `null`. -/
def optionJson (write : α → Json) : Option α → Json
  | none => .null
  | some a => write a

/-- A `Uuid` written as a string. -/
def uuidJson (u : Uuid) : Json := .string u.display

/-- A `u64` written as a number. -/
def u64Json (n : ℕ) : Json := .number ⟨n,0⟩

@[simp] theorem uuidOf_uuidJson (u : Uuid) : uuidOf (uuidJson u) = some u := by
  simp [uuidOf,uuidJson,stringOf]

@[simp] theorem optionOf_uuidJson (u : Option Uuid) :
    optionOf uuidOf (optionJson uuidJson u) = some u := by
  cases u with
  | none => rfl
  | some u =>
    change (uuidOf (uuidJson u)).map some = some (some u)
    rw [uuidOf_uuidJson]
    rfl

@[simp] theorem optionOf_string (s : Option String) :
    optionOf stringOf (optionJson .string s) = some s := by
  cases s <;> rfl

theorem sequenceOf_u64Json {n : ℕ} (h : validSequence (some n) = true) :
    sequenceOf (u64Json n) = some (some n) := by
  have hn : n < 2^63 := by
    simp only [validSequence,Bool.and_eq_true,decide_eq_true_eq] at h
    exact h.2
  have hu : u64Of (u64Json n) = some n := by
    have hr : n < 18446744073709551616 := by omega
    simp [u64Of,u64Json,hr]
  change ((u64Of (u64Json n)).map some).bind _ = _
  rw [hu]
  simp [h]

/-- A text that Postgres stores is written as a value that it stores. -/
theorem optionJson_string_storable {s : Option String} :
    (optionJson .string s).allTexts nulFree = true ↔ ∀ t, s = some t → nulFree t = true := by
  cases s with
  | none => simp [optionJson,Json.allTexts]
  | some t => simp [optionJson,Json.allTexts]

theorem uuidJson_storable (u : Uuid) : (uuidJson u).allTexts nulFree = true :=
  nulFree_iff.mpr u.display_no_nul

theorem optionJson_uuid_storable (u : Option Uuid) :
    (optionJson uuidJson u).allTexts nulFree = true := by
  cases u with
  | none => rfl
  | some u => exact uuidJson_storable u

end Fields

section Writing

/-- The part of serde_json's number handling that is floating point: the text it
writes for a number that is no 64-bit integer. A `Decimal` has no negative zero. -/
structure FloatWriter where
  /-- The text that is written. -/
  write : Decimal → List Char

/-- A writer that writes all digits. -/
def FloatWriter.allDigits : FloatWriter := ⟨renderDecimal⟩

variable (float : FloatWriter)

/-- `Display for Number`. -/
def writeNumber (n : Decimal) : List Char :=
  if n.scale = 0 ∧ -2^63 ≤ n.mantissa ∧ n.mantissa < 2^64 then renderDecimal n else float.write n

mutual
/-- The compact form of a value: no blanks, and every object in the order of its fields. Strings
are escaped as Postgres escapes them. -/
def write : Json → List Char
  | .null => "null".toList
  | .bool b => if b then "true".toList else "false".toList
  | .number n => writeNumber float n
  | .string s => renderString s
  | .array items => '['::[','].intercalate (writeItems items)++[']']
  | .object fields => '{'::[','].intercalate (writeFields fields)++['}']

/-- Every item. -/
def writeItems : List Json → List (List Char)
  | [] => []
  | v::items => write v::writeItems items

/-- Every field, after its key. -/
def writeFields : List (String × Json) → List (List Char)
  | [] => []
  | (k,v)::fields => (renderString k++ ':'::write v)::writeFields fields
end

/-- `Display for Value`. -/
def displayValue (v : Json) : String := String.ofList (write float v)

theorem intercalate_no_nul {items : List (List Char)} (h : ∀ i ∈ items, '\x00' ∉ i) :
    '\x00' ∉ [','].intercalate items := by
  induction items with
  | nil => simp
  | cons item items ih =>
    have hitem := h item (List.mem_cons_self ..)
    have hrest := ih fun i hi => h i (List.mem_cons_of_mem item hi)
    cases items with
    | nil => simpa using hitem
    | cons next items =>
      rw [List.intercalate_cons_cons,List.mem_append,List.mem_append]
      rintro ((hin | hin) | hin)
      · exact hitem hin
      · exact absurd hin (by decide)
      · exact hrest hin

variable {float}

mutual
/-- Control characters are escaped, so no value is written with U+0000. -/
theorem write_no_nul (h : ∀ d, '\x00' ∉ float.write d) : ∀ v, '\x00' ∉ write float v
  | .null => (by decide : '\x00' ∉ "null".toList)
  | .bool true => (by decide : '\x00' ∉ "true".toList)
  | .bool false => (by decide : '\x00' ∉ "false".toList)
  | .number n => by
    rw [write,writeNumber]
    split
    · exact renderDecimal_no_nul n
    · exact h n
  | .string s => renderString_no_nul s
  | .array items => by
    simp only [write,List.cons_append,List.mem_cons,List.mem_append,List.not_mem_nil,or_false,
      not_or]
    exact ⟨by decide,intercalate_no_nul (writeItems_no_nul h items),by decide⟩
  | .object fields => by
    simp only [write,List.cons_append,List.mem_cons,List.mem_append,List.not_mem_nil,or_false,
      not_or]
    exact ⟨by decide,intercalate_no_nul (writeFields_no_nul h fields),by decide⟩

theorem writeItems_no_nul (h : ∀ d, '\x00' ∉ float.write d) :
    ∀ items, ∀ i ∈ writeItems float items, '\x00' ∉ i
  | [],_,hi => by cases hi
  | v::items,i,hi => by
    rcases List.mem_cons.mp hi with rfl | hi
    · exact write_no_nul h v
    · exact writeItems_no_nul h items i hi

theorem writeFields_no_nul (h : ∀ d, '\x00' ∉ float.write d) :
    ∀ fields, ∀ i ∈ writeFields float fields, '\x00' ∉ i
  | [],_,hi => by cases hi
  | (k,v)::fields,i,hi => by
    rcases List.mem_cons.mp hi with rfl | hi
    · simp only [List.mem_append,List.mem_cons,not_or]
      exact ⟨renderString_no_nul k,by decide,write_no_nul h v⟩
    · exact writeFields_no_nul h fields i hi
end

end Writing

end Mulac.SerdeJson
