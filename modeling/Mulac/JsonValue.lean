import Mathlib.Data.Int.Notation
import Mathlib.Data.List.Basic
import Mathlib.Tactic.Common

/-!
# JSON values

A tree of JSON values with exact decimal numbers. Objects are lists of fields;
a lookup takes the first field of a name, and a field that is set replaces all
of its name. The recursions below run over a value, its items and its fields
together.
-/

namespace Mulac.JsonValue

/-- A decimal number: the mantissa divided by ten to the scale. -/
structure Decimal where
  /-- All digits, with the sign. -/
  mantissa : ℤ
  /-- How many of the digits stand behind the point. -/
  scale : ℕ
  deriving DecidableEq

/-- A JSON value. -/
inductive Json where
  /-- The literal `null`. -/
  | null
  /-- `true` or `false`. -/
  | bool (b : Bool)
  /-- A number. -/
  | number (n : Decimal)
  /-- A string. -/
  | string (s : String)
  /-- An array. -/
  | array (items : List Json)
  /-- An object. -/
  | object (fields : List (String × Json))

namespace Json

section Fields

/-- The value of the first field of a name. -/
def field (fields : List (String × Json)) (name : String) : Option Json :=
  (fields.find? fun f => f.1 = name).map Prod.snd

/-- Every field but those of a name. -/
def removeField (fields : List (String × Json)) (name : String) : List (String × Json) :=
  fields.filter fun f => f.1 ≠ name

/-- The fields with one of a name set to a value. -/
def setField (fields : List (String × Json)) (name : String) (value : Json) :
    List (String × Json) :=
  removeField fields name++[(name,value)]

/-- The set field is the only one of its name. -/
theorem filter_setField (fields : List (String × Json)) (name : String) (value : Json) :
    ((setField fields name value).filter fun f => f.1 = name) = [(name,value)] := by
  simp only [setField,removeField,List.filter_append,List.filter_filter]
  simp

/-- A lookup in a list of fields, one field at a time. -/
theorem field_cons (f : String × Json) (fields : List (String × Json)) (name : String) :
    field (f::fields) name = if f.1 = name then some f.2 else field fields name := by
  by_cases h : f.1 = name <;> simp [field,h]

/-- A name that no field has. -/
theorem field_eq_none {fields : List (String × Json)} {name : String} :
    field fields name = none ↔ name ∉ fields.map Prod.fst := by
  simp only [field,Option.map_eq_none_iff,List.find?_eq_none,decide_eq_true_eq,List.mem_map,
    not_exists,not_and]

/-- Where every name occurs once, each field is found under its name. -/
theorem field_of_mem {fields : List (String × Json)} (h : (fields.map Prod.fst).Nodup)
    {f : String × Json} (hf : f ∈ fields) : field fields f.1 = some f.2 := by
  induction fields with
  | nil => cases hf
  | cons g fields ih =>
    rw [List.map_cons,List.nodup_cons] at h
    rw [field_cons]
    rcases List.mem_cons.mp hf with rfl | hf
    · rw [if_pos rfl]
    · rw [if_neg fun hg => h.1 (List.mem_map.mpr ⟨f,hf,hg.symm⟩)]
      exact ih h.2 hf

/-- Setting a field changes no other. -/
theorem field_setField (fields : List (String × Json)) (name : String) (value : Json)
    (other : String) : field (setField fields name value) other =
      if other = name then some value else field fields other := by
  rw [setField,removeField]
  induction fields with
  | nil => rw [List.filter_nil,List.nil_append,field_cons]; simp only [eq_comm]
  | cons f fields ih =>
    by_cases hf : f.1 = name
    · rw [List.filter_cons_of_neg (by simpa using hf),ih,field_cons,hf]
      split
      · rfl
      · next h => rw [if_neg fun he => h he.symm]
    · rw [List.filter_cons_of_pos (by simpa using hf),List.cons_append,field_cons,ih,field_cons]
      by_cases ho : f.1 = other
      · rw [if_pos ho,if_pos ho,if_neg fun he => hf (ho.trans he)]
      · rw [if_neg ho,if_neg ho]

end Fields

section Same

mutual
/-- Two values are the same, where numbers are compared by what they are worth. -/
def same : Json → Json → Bool
  | .null,.null => true
  | .bool a,.bool b => a == b
  | .number a,.number b => a.mantissa*10^b.scale == b.mantissa*10^a.scale
  | .string a,.string b => a == b
  | .array items,.array items' => sameItems items items'
  | .object fields,.object fields' => sameFields fields fields'
  | _,_ => false

/-- The same items in the same order. -/
def sameItems : List Json → List Json → Bool
  | [],[] => true
  | v::items,v'::items' => same v v' && sameItems items items'
  | _,_ => false

/-- The same fields in the same order. -/
def sameFields : List (String × Json) → List (String × Json) → Bool
  | [],[] => true
  | (k,v)::fields,(k',v')::fields' => k == k' && same v v' && sameFields fields fields'
  | _,_ => false
end

mutual
theorem same_refl : ∀ v : Json, same v v = true
  | .null => rfl
  | .bool b => beq_self_eq_true b
  | .number _ => beq_self_eq_true _
  | .string s => beq_self_eq_true s
  | .array items => sameItems_refl items
  | .object fields => sameFields_refl fields

theorem sameItems_refl : ∀ items : List Json, sameItems items items = true
  | [] => rfl
  | v::items => by rw [sameItems,same_refl v,sameItems_refl items]; rfl

theorem sameFields_refl : ∀ fields : List (String × Json), sameFields fields fields = true
  | [] => rfl
  | (k,v)::fields => by rw [sameFields,beq_self_eq_true,same_refl v,sameFields_refl fields]; rfl
end

/-- Only a string is the same as a string. -/
theorem same_string {v : Json} {s : String} (h : same v (.string s) = true) : v = .string s := by
  cases v with
  | string t => rw [beq_iff_eq.mp h]
  | null => cases h
  | bool b => cases h
  | number n => cases h
  | array items => cases h
  | object fields => cases h

end Same

section Depth

mutual
/-- How many arrays and objects are nested in a value. -/
def depth : Json → ℕ
  | .array items => 1+depthItems items
  | .object fields => 1+depthFields fields
  | _ => 0

/-- The depth of the deepest item. -/
def depthItems : List Json → ℕ
  | [] => 0
  | v::items => max (depth v) (depthItems items)

/-- The depth of the deepest field. -/
def depthFields : List (String × Json) → ℕ
  | [] => 0
  | (_,v)::fields => max (depth v) (depthFields fields)
end

theorem depthItems_strings (ss : List String) : depthItems (ss.map .string) = 0 := by
  induction ss with
  | nil => rfl
  | cons s ss ih => simp [depthItems,depth,ih]

/-- Fields are as deep as the deepest of them. -/
theorem depthFields_le {fields : List (String × Json)} {d : ℕ} :
    depthFields fields ≤ d ↔ ∀ f ∈ fields, depth f.2 ≤ d := by
  induction fields with
  | nil => simp [depthFields]
  | cons f fields ih =>
    obtain ⟨k,v⟩ := f
    rw [depthFields,Nat.max_le,ih]
    simp

/-- A field that is set adds its own depth at most. -/
theorem depthFields_setField {fields : List (String × Json)} {d : ℕ} (h : depthFields fields ≤ d)
    (name : String) {value : Json} (hv : depth value ≤ d) :
    depthFields (setField fields name value) ≤ d := by
  rw [depthFields_le] at h ⊢
  intro f hf
  rcases List.mem_append.mp hf with hf | hf
  · exact h f (List.mem_filter.mp hf).1
  · rw [List.mem_singleton.mp hf]
    exact hv

end Depth

section Texts

variable (p : String → Bool)

mutual
/-- Every string and every key of a value passes a test. -/
def allTexts : Json → Bool
  | .string s => p s
  | .array items => allTextsItems items
  | .object fields => allTextsFields fields
  | _ => true

/-- Every text of the items passes the test. -/
def allTextsItems : List Json → Bool
  | [] => true
  | v::items => allTexts v && allTextsItems items

/-- Every key and every text of the fields passes the test. -/
def allTextsFields : List (String × Json) → Bool
  | [] => true
  | (k,v)::fields => p k && allTexts v && allTextsFields fields
end

theorem allTextsItems_iff {items : List Json} :
    allTextsItems p items = true ↔ ∀ v ∈ items, allTexts p v = true := by
  induction items with
  | nil => simp [allTextsItems]
  | cons v items ih => simp [allTextsItems,ih]

theorem allTextsFields_iff {fields : List (String × Json)} :
    allTextsFields p fields = true ↔ ∀ f ∈ fields, p f.1 = true ∧ allTexts p f.2 = true := by
  induction fields with
  | nil => simp [allTextsFields]
  | cons f fields ih =>
    obtain ⟨k,v⟩ := f
    simp [allTextsFields,ih]

theorem allTextsFields_append (left right : List (String × Json)) :
    allTextsFields p (left++right) = (allTextsFields p left && allTextsFields p right) := by
  rw [Bool.eq_iff_iff]
  simp only [Bool.and_eq_true,allTextsFields_iff,List.mem_append]
  exact ⟨fun h => ⟨fun f hf => h f (.inl hf),fun f hf => h f (.inr hf)⟩,
    fun h f hf => hf.elim (h.1 f) (h.2 f)⟩

/-- A field's value passes a test that its object passes. -/
theorem allTexts_field {fields : List (String × Json)} {name : String} {v : Json}
    (h : allTexts p (.object fields) = true) (hv : field fields name = some v) :
    allTexts p v = true := by
  obtain ⟨f,hf,rfl⟩ : ∃ f, fields.find? (fun f => f.1 = name) = some f ∧ f.2 = v := by
    simpa [field] using hv
  exact ((allTextsFields_iff p).mp h f (List.mem_of_find?_eq_some hf)).2

/-- Setting a field keeps a test that the name and the value pass. -/
theorem allTextsFields_setField {fields : List (String × Json)} {name : String} {value : Json}
    (h : allTextsFields p fields = true) (hn : p name = true)
    (hv : allTexts p value = true) : allTextsFields p (setField fields name value) = true := by
  rw [allTextsFields_iff] at h ⊢
  intro f hf
  rcases List.mem_append.mp hf with hf | hf
  · exact h f (List.mem_filter.mp hf).1
  · rw [List.mem_singleton.mp hf]
    exact ⟨hn,hv⟩

end Texts

section Numbers

variable (read : Decimal → Option Decimal)

mutual
/-- Replace every number by what a reader makes of it, if it can read all. -/
def readNumbers : Json → Option Json
  | .number n => (read n).map .number
  | .array items => (readNumbersItems items).map .array
  | .object fields => (readNumbersFields fields).map .object
  | v => some v

/-- Read the numbers of every item. -/
def readNumbersItems : List Json → Option (List Json)
  | [] => some []
  | v::items => (readNumbers v).bind fun v' => (readNumbersItems items).map (v'::·)

/-- Read the numbers of every field. -/
def readNumbersFields : List (String × Json) → Option (List (String × Json))
  | [] => some []
  | (k,v)::fields =>
    (readNumbers v).bind fun v' => (readNumbersFields fields).map ((k,v')::·)
end

theorem readNumbersItems_cons {v : Json} {items out : List Json}
    (h : readNumbersItems read (v::items) = some out) :
    ∃ v' rest, readNumbers read v = some v' ∧ readNumbersItems read items = some rest ∧
      out = v'::rest := by
  simp only [readNumbersItems,Option.bind_eq_some_iff,Option.map_eq_some_iff] at h
  obtain ⟨v',hv,rest,hr,rfl⟩ := h
  exact ⟨v',rest,hv,hr,rfl⟩

theorem readNumbersFields_cons {k : String} {v : Json} {fields out : List (String × Json)}
    (h : readNumbersFields read ((k,v)::fields) = some out) :
    ∃ v' rest, readNumbers read v = some v' ∧ readNumbersFields read fields = some rest ∧
      out = (k,v')::rest := by
  simp only [readNumbersFields,Option.bind_eq_some_iff,Option.map_eq_some_iff] at h
  obtain ⟨v',hv,rest,hr,rfl⟩ := h
  exact ⟨v',rest,hv,hr,rfl⟩

/-- A field that is read is found under its name. -/
theorem field_readNumbers {fields out : List (String × Json)}
    (h : readNumbersFields read fields = some out) {name : String} {v : Json}
    (hv : field fields name = some v) :
    ∃ v', readNumbers read v = some v' ∧ field out name = some v' := by
  induction fields generalizing out with
  | nil => cases hv
  | cons f fields ih =>
    obtain ⟨k,w⟩ := f
    obtain ⟨w',rest,hw,hr,rfl⟩ := readNumbersFields_cons read h
    rw [field_cons] at hv ⊢
    by_cases hk : k = name
    · rw [if_pos hk] at hv ⊢
      cases hv
      exact ⟨w',hw,rfl⟩
    · rw [if_neg hk] at hv ⊢
      exact ih hr hv

/-- Reading keeps the names. -/
theorem names_readNumbers {fields out : List (String × Json)}
    (h : readNumbersFields read fields = some out) : out.map Prod.fst = fields.map Prod.fst := by
  induction fields generalizing out with
  | nil => cases h; rfl
  | cons f fields ih =>
    obtain ⟨k,v⟩ := f
    obtain ⟨v',rest,_,hr,rfl⟩ := readNumbersFields_cons read h
    rw [List.map_cons,List.map_cons,ih hr]

/-- Fields are read as the same fields when each is, name by name. -/
theorem sameFields_readNumbers {fields out : List (String × Json)}
    (hkeys : (fields.map Prod.fst).Nodup) (h : readNumbersFields read fields = some out) :
    sameFields fields out = true ↔ ∀ name v v', field fields name = some v →
      field out name = some v' → same v v' = true := by
  induction fields generalizing out with
  | nil => cases h; simp [sameFields,field]
  | cons f fields ih =>
    obtain ⟨k,v⟩ := f
    obtain ⟨v',rest,_,hr,rfl⟩ := readNumbersFields_cons read h
    rw [List.map_cons,List.nodup_cons] at hkeys
    rw [sameFields,beq_self_eq_true,Bool.true_and,Bool.and_eq_true,ih hkeys.2 hr]
    constructor
    · rintro ⟨hv,hall⟩ name w w' hw hw'
      rw [field_cons] at hw hw'
      by_cases hk : k = name
      · rw [if_pos hk] at hw hw'
        cases hw
        cases hw'
        exact hv
      · rw [if_neg hk] at hw hw'
        exact hall name w w' hw hw'
    · intro hall
      refine ⟨hall k v v' (by rw [field_cons,if_pos rfl]) (by rw [field_cons,if_pos rfl]),?_⟩
      intro name w w' hw hw'
      have hk : k ≠ name := by
        rintro rfl
        rw [field_eq_none.mpr hkeys.1] at hw
        cases hw
      exact hall name w w' (by rw [field_cons,if_neg hk,hw]) (by rw [field_cons,if_neg hk,hw'])

/-- The fields of other names are read into the other fields. -/
theorem readNumbersFields_removeField {fields out : List (String × Json)}
    (h : readNumbersFields read fields = some out) (name : String) :
    readNumbersFields read (removeField fields name) = some (removeField out name) := by
  induction fields generalizing out with
  | nil => cases h; rfl
  | cons f fields ih =>
    obtain ⟨k,w⟩ := f
    obtain ⟨w',rest,hw,hr,rfl⟩ := readNumbersFields_cons read h
    by_cases hk : k = name
    · have hl : removeField ((k,w)::fields) name = removeField fields name := by
        simp [removeField,hk]
      have hr' : removeField ((k,w')::rest) name = removeField rest name := by
        simp [removeField,hk]
      rw [hl,hr',ih hr]
    · have hl : removeField ((k,w)::fields) name = (k,w)::removeField fields name := by
        simp [removeField,hk]
      have hr' : removeField ((k,w')::rest) name = (k,w')::removeField rest name := by
        simp [removeField,hk]
      rw [hl,hr',readNumbersFields,hw,ih hr]
      rfl

/-- An array of strings is read as it stands. -/
theorem readNumbersItems_strings (ss : List String) :
    readNumbersItems read (ss.map .string) = some (ss.map .string) := by
  induction ss with
  | nil => rfl
  | cons s ss ih => simp [readNumbersItems,readNumbers,ih]

mutual
/-- Reading numbers leaves every text in place. -/
theorem allTexts_readNumbers (p : String → Bool) : ∀ {v v' : Json},
    readNumbers read v = some v' → allTexts p v = true → allTexts p v' = true
  | .null,_,h,ht => by cases h; exact ht
  | .bool _,_,h,ht => by cases h; exact ht
  | .string _,_,h,ht => by cases h; exact ht
  | .number n,v',h,_ => by
    obtain ⟨m,_,rfl⟩ := Option.map_eq_some_iff.mp h
    rfl
  | .array items,v',h,ht => by
    obtain ⟨out,ho,rfl⟩ := Option.map_eq_some_iff.mp h
    exact allTextsItems_readNumbers p ho ht
  | .object fields,v',h,ht => by
    obtain ⟨out,ho,rfl⟩ := Option.map_eq_some_iff.mp h
    exact allTextsFields_readNumbers p ho ht

theorem allTextsItems_readNumbers (p : String → Bool) : ∀ {items out : List Json},
    readNumbersItems read items = some out → allTextsItems p items = true →
      allTextsItems p out = true
  | [],_,h,_ => by cases h; rfl
  | v::items,out,h,ht => by
    obtain ⟨v',rest,hv,hr,rfl⟩ := readNumbersItems_cons read h
    simp only [allTextsItems,Bool.and_eq_true] at ht ⊢
    exact ⟨allTexts_readNumbers p hv ht.1,allTextsItems_readNumbers p hr ht.2⟩

theorem allTextsFields_readNumbers (p : String → Bool) : ∀ {fields out : List (String × Json)},
    readNumbersFields read fields = some out → allTextsFields p fields = true →
      allTextsFields p out = true
  | [],_,h,_ => by cases h; rfl
  | (k,v)::fields,out,h,ht => by
    obtain ⟨v',rest,hv,hr,rfl⟩ := readNumbersFields_cons read h
    simp only [allTextsFields,Bool.and_eq_true] at ht ⊢
    exact ⟨⟨ht.1.1,allTexts_readNumbers p hv ht.1.2⟩,allTextsFields_readNumbers p hr ht.2⟩
end

mutual
/-- Reading numbers leaves every value as deep as it was. -/
theorem depth_readNumbers : ∀ {v v' : Json}, readNumbers read v = some v' → depth v' = depth v
  | .null,_,h => by cases h; rfl
  | .bool _,_,h => by cases h; rfl
  | .string _,_,h => by cases h; rfl
  | .number n,v',h => by
    obtain ⟨m,_,rfl⟩ := Option.map_eq_some_iff.mp h
    rfl
  | .array items,v',h => by
    obtain ⟨out,ho,rfl⟩ := Option.map_eq_some_iff.mp h
    rw [depth,depth,depthItems_readNumbers ho]
  | .object fields,v',h => by
    obtain ⟨out,ho,rfl⟩ := Option.map_eq_some_iff.mp h
    rw [depth,depth,depthFields_readNumbers ho]

theorem depthItems_readNumbers : ∀ {items out : List Json},
    readNumbersItems read items = some out → depthItems out = depthItems items
  | [],_,h => by cases h; rfl
  | v::items,out,h => by
    obtain ⟨v',rest,hv,hr,rfl⟩ := readNumbersItems_cons read h
    rw [depthItems,depthItems,depth_readNumbers hv,depthItems_readNumbers hr]

theorem depthFields_readNumbers : ∀ {fields out : List (String × Json)},
    readNumbersFields read fields = some out → depthFields out = depthFields fields
  | [],_,h => by cases h; rfl
  | (k,v)::fields,out,h => by
    obtain ⟨v',rest,hv,hr,rfl⟩ := readNumbersFields_cons read h
    rw [depthFields,depthFields,depth_readNumbers hv,depthFields_readNumbers hr]
end

mutual
/-- The numbers of a value, in order. -/
def numbers : Json → List Decimal
  | .number n => [n]
  | .array items => numbersItems items
  | .object fields => numbersFields fields
  | _ => []

/-- The numbers of every item. -/
def numbersItems : List Json → List Decimal
  | [] => []
  | v::items => numbers v++numbersItems items

/-- The numbers of every field. -/
def numbersFields : List (String × Json) → List Decimal
  | [] => []
  | (_,v)::fields => numbers v++numbersFields fields
end

theorem mem_numbersFields {fields : List (String × Json)} {n : Decimal} :
    n ∈ numbersFields fields ↔ ∃ f ∈ fields, n ∈ numbers f.2 := by
  induction fields with
  | nil => simp [numbersFields]
  | cons f fields ih => simp [numbersFields,ih]

/-- Strings hold no numbers. -/
theorem numbers_strings (ss : List String) : numbers (.array (ss.map .string)) = [] := by
  rw [numbers]
  induction ss with
  | nil => rfl
  | cons s ss ih =>
    rw [List.map_cons,numbersItems,ih]
    rfl

mutual
/-- The numbers of what is read are what is read of the numbers. -/
theorem numbers_readNumbers : ∀ v : Json,
    (readNumbers read v).map numbers = (numbers v).mapM read
  | .null => rfl
  | .bool _ => rfl
  | .string _ => rfl
  | .number n => by
    rw [readNumbers,numbers,List.mapM_cons,List.mapM_nil]
    cases read n <;> rfl
  | .array items => by
    rw [readNumbers,numbers,← numbersItems_readNumbers items,Option.map_map]
    rfl
  | .object fields => by
    rw [readNumbers,numbers,← numbersFields_readNumbers fields,Option.map_map]
    rfl

theorem numbersItems_readNumbers : ∀ items : List Json,
    (readNumbersItems read items).map numbersItems = (numbersItems items).mapM read
  | [] => rfl
  | v::items => by
    rw [readNumbersItems,numbersItems,List.mapM_append,← numbers_readNumbers v,
      ← numbersItems_readNumbers items]
    cases readNumbers read v <;> cases readNumbersItems read items <;> rfl

theorem numbersFields_readNumbers : ∀ fields : List (String × Json),
    (readNumbersFields read fields).map numbersFields = (numbersFields fields).mapM read
  | [] => rfl
  | (k,v)::fields => by
    rw [readNumbersFields,numbersFields,List.mapM_append,← numbers_readNumbers v,
      ← numbersFields_readNumbers fields]
    cases readNumbers read v <;> cases readNumbersFields read fields <;> rfl
end

/-- A reader that reads every element reads the list. -/
theorem mapM_of_all {l : List Decimal} (h : ∀ n ∈ l, ∃ m, read n = some m) :
    ∃ out, l.mapM read = some out := by
  induction l with
  | nil => exact ⟨[],rfl⟩
  | cons n l ih =>
    obtain ⟨m,hm⟩ := h n List.mem_cons_self
    obtain ⟨out,hout⟩ := ih fun n hn => h n (List.mem_cons_of_mem _ hn)
    exact ⟨m::out,by rw [List.mapM_cons,hm,hout]; rfl⟩

/-- What is read of a list are its elements as they are read. -/
theorem mem_of_mapM {l out : List Decimal} (h : l.mapM read = some out) :
    (∀ n ∈ l, ∃ m ∈ out, read n = some m) ∧ ∀ m ∈ out, ∃ n ∈ l, read n = some m := by
  induction l generalizing out with
  | nil =>
    cases h
    simp
  | cons n l ih =>
    rw [List.mapM_cons,Option.bind_eq_bind,Option.bind_eq_some_iff] at h
    obtain ⟨m,hm,h⟩ := h
    rw [Option.bind_eq_bind,Option.bind_eq_some_iff] at h
    obtain ⟨rest,hrest,h⟩ := h
    cases h
    have hih := ih hrest
    constructor
    · intro k hk
      rcases List.mem_cons.mp hk with rfl | hk
      · exact ⟨m,List.mem_cons_self,hm⟩
      · obtain ⟨j,hj,hread⟩ := hih.1 k hk
        exact ⟨j,List.mem_cons_of_mem _ hj,hread⟩
    · intro k hk
      rcases List.mem_cons.mp hk with rfl | hk
      · exact ⟨n,List.mem_cons_self,hm⟩
      · obtain ⟨j,hj,hread⟩ := hih.2 k hk
        exact ⟨j,List.mem_cons_of_mem _ hj,hread⟩

/-- Fields are read if all their numbers are. -/
theorem readNumbersFields_of_all {fields : List (String × Json)}
    (h : ∀ n ∈ numbersFields fields, ∃ m, read n = some m) :
    ∃ out, readNumbersFields read fields = some out := by
  obtain ⟨ms,hms⟩ := mapM_of_all read h
  rw [← numbersFields_readNumbers] at hms
  obtain ⟨out,hout,_⟩ := Option.map_eq_some_iff.mp hms
  exact ⟨out,hout⟩

/-- The numbers of read fields. -/
theorem numbersFields_of_read {fields out : List (String × Json)}
    (h : readNumbersFields read fields = some out) :
    (∀ n ∈ numbersFields fields, ∃ m ∈ numbersFields out, read n = some m) ∧
      ∀ m ∈ numbersFields out, ∃ n ∈ numbersFields fields, read n = some m := by
  refine mem_of_mapM read ?_
  rw [← numbersFields_readNumbers,h]
  rfl

/-- The numbers of a read value. -/
theorem numbers_of_read {v v' : Json} (h : readNumbers read v = some v') :
    (∀ n ∈ numbers v, ∃ m ∈ numbers v', read n = some m) ∧
      ∀ m ∈ numbers v', ∃ n ∈ numbers v, read n = some m := by
  refine mem_of_mapM read ?_
  rw [← numbers_readNumbers,h]
  rfl

end Numbers

end Json

end Mulac.JsonValue
