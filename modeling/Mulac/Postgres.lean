import Mulac.JsonValue
import Mathlib.Data.List.Sort
import Mathlib.Data.Nat.Digits.Defs

/-!
# What Postgres does with the values it is given

`text` and `jsonb` columns hold every character but U+0000. The operators the
repositories' statements apply to `jsonb` follow Postgres: `->`, `||`,
`jsonb_build_array`, `jsonb_set`, and the `::text` form that `jsonb` is read
back in. A `Jsonb` cannot hold a text that Postgres refuses.
-/

namespace Mulac.Postgres

open JsonValue

/-- `diesel::result::Error`, as far as the repositories tell its cases apart. -/
inductive DieselError where
  /-- No row answered. -/
  | notFound
  /-- Postgres refused the statement. -/
  | database (message : String)
  /-- A returned value did not decode. -/
  | deserialization (message : String)
  deriving DecidableEq

/-- `Display for diesel::result::Error`. -/
def DieselError.display : DieselError → String
  | notFound => "Record not found"
  | database message => message
  | deserialization message => message

section Text

/-- A text without U+0000. -/
def nulFree (s : String) : Bool := !s.toList.contains '\x00'

theorem nulFree_iff {s : String} : nulFree s = true ↔ '\x00' ∉ s.toList := by
  simp [nulFree]

theorem nulFree_append {s t : String} :
    nulFree (s++t) = true ↔ nulFree s = true ∧ nulFree t = true := by
  simp [nulFree_iff,String.toList_append]

/-- Bind a text parameter: U+0000 has no encoding in a Postgres text. -/
def bindText (s : String) : Except DieselError String :=
  if nulFree s then .ok s
  else .error (.database "invalid byte sequence for encoding \"UTF8\": 0x00")

/-- Bind several text parameters of one statement. -/
def bindTexts (ss : List String) : Except DieselError Unit :=
  ss.forM fun s => do let _ ← bindText s

theorem bindText_of_nulFree {s : String} (h : nulFree s = true) : bindText s = .ok s := by
  simp [bindText,h]

/-- A statement binds its texts when none of them holds U+0000. -/
theorem bindTexts_of_nulFree {ss : List String} (h : ∀ s ∈ ss, nulFree s = true) :
    bindTexts ss = .ok () := by
  induction ss with
  | nil => rfl
  | cons s ss ih =>
    have hs := bindText_of_nulFree (h s (by simp))
    have hr := ih fun s' hs' => h s' (by simp [hs'])
    simp only [bindTexts,List.forM_eq_forM,List.forM_cons,hs] at hr ⊢
    exact hr

/-- One text with U+0000 fails the statement. -/
theorem bindTexts_error {ss : List String} {s : String} (hs : s ∈ ss)
    (h : nulFree s = false) : ∃ e, bindTexts ss = .error e := by
  induction ss with
  | nil => cases hs
  | cons s' ss ih =>
    simp only [bindTexts,List.forM_eq_forM,List.forM_cons] at ih ⊢
    cases h' : nulFree s' with
    | false => simp [bindText,h']; exact ⟨_,rfl⟩
    | true =>
      rcases List.mem_cons.mp hs with rfl | hs
      · rw [h] at h'; cases h'
      · obtain ⟨e,he⟩ := ih hs
        rw [bindText_of_nulFree h']
        exact ⟨e,he⟩

end Text

/-- A value of a `jsonb` column. -/
structure Jsonb where
  /-- The JSON value. -/
  value : Json
  /-- No string and no key holds U+0000. -/
  storable : value.allTexts nulFree = true

theorem Jsonb.ext {a b : Jsonb} (h : a.value = b.value) : a = b := by
  cases a
  cases b
  congr

/-- Cast a JSON text to `jsonb`; `\u0000` cannot be converted to text. -/
def castJsonb (v : Json) : Except DieselError Jsonb :=
  if h : v.allTexts nulFree = true then .ok ⟨v,h⟩
  else .error (.database "unsupported Unicode escape sequence")

theorem castJsonb_ok {v : Json} (h : v.allTexts nulFree = true) : castJsonb v = .ok ⟨v,h⟩ := by
  simp [castJsonb,h]

theorem castJsonb_eq_ok {v : Json} {j : Jsonb} : castJsonb v = .ok j ↔ v = j.value := by
  constructor
  · intro h
    unfold castJsonb at h
    split at h
    · cases h; rfl
    · cases h
  · rintro rfl
    exact castJsonb_ok j.storable

theorem castJsonb_error {v : Json} (h : v.allTexts nulFree = false) :
    ∃ e, castJsonb v = .error e := by
  refine ⟨.database "unsupported Unicode escape sequence",?_⟩
  simp [castJsonb,h]

section Operators

/-- The SQL literal `'{}'::jsonb`. -/
def emptyObject : Jsonb := ⟨.object [],rfl⟩

/-- The SQL literal `'[]'::jsonb`. -/
def emptyArray : Jsonb := ⟨.array [],rfl⟩

/-- `value -> name`; NULL unless the value is an object with that field. -/
def arrow (value : Option Jsonb) (name : String) : Option Jsonb :=
  match value with
  | some ⟨.object fields,h⟩ =>
    match hv : Json.field fields name with
    | some v => some ⟨v,Json.allTexts_field nulFree h hv⟩
    | none => none
  | _ => none

/-- The field of an object. -/
theorem arrow_object {fields : List (String × Json)} {name : String} {v : Json}
    (h : (Json.object fields).allTexts nulFree = true) (hv : Json.field fields name = some v) :
    ∃ hs, arrow (some ⟨.object fields,h⟩) name = some ⟨v,hs⟩ := by
  unfold arrow
  dsimp only
  split
  · next w hw =>
    obtain rfl : v = w := Option.some.inj (hv.symm.trans hw)
    exact ⟨Json.allTexts_field nulFree h hv,rfl⟩
  · next hn =>
    rw [hv] at hn
    cases hn

/-- A field that an object does not have. -/
theorem arrow_missing {fields : List (String × Json)} {name : String}
    (h : (Json.object fields).allTexts nulFree = true) (hv : Json.field fields name = none) :
    arrow (some ⟨.object fields,h⟩) name = none := by
  unfold arrow
  dsimp only
  split
  · next w hw =>
    rw [hv] at hw
    cases hw
  · rfl

/-- The items `||` takes from an operand that is not concatenated as an object. -/
def concatItems : Json → List Json
  | .array items => items
  | v => [v]

/-- `||` of two JSON values: objects merge, and anything else is concatenated as
arrays after a value that is none is wrapped into one. -/
def concatValues : Json → Json → Json
  | .object left,.object right => .object (right.foldl (fun fs f => Json.setField fs f.1 f.2) left)
  | left,right => .array (concatItems left++concatItems right)

theorem concatItems_storable {v : Json} (h : v.allTexts nulFree = true) :
    Json.allTextsItems nulFree (concatItems v) = true := by
  cases v <;> simp_all [concatItems,Json.allTexts,Json.allTextsItems]

theorem concatValues_array (left : Json) (right : List Json) :
    concatValues left (.array right) = .array (concatItems left++right) := by
  cases left <;> rfl

/-- `left || right` for an array on the right. -/
def concatArray (left : Jsonb) (right : List Json)
    (h : Json.allTextsItems nulFree right = true) : Jsonb :=
  ⟨concatValues left.value (.array right),by
    rw [concatValues_array]
    have hl := concatItems_storable left.storable
    simp only [Json.allTexts]
    rw [Json.allTextsItems_iff] at h hl ⊢
    intro v hv
    exact (List.mem_append.mp hv).elim (hl v) (h v)⟩

/-- `jsonb_set(target, '{name}', value, true)` for a name that is no integer:
an object gets the field, an array and a scalar raise an error. -/
def jsonbSet (target : Jsonb) (name : String) (hn : nulFree name = true) (value : Jsonb) :
    Except DieselError Jsonb :=
  match target with
  | ⟨.object fields,h⟩ => .ok ⟨.object (Json.setField fields name value.value),
      Json.allTextsFields_setField nulFree h hn value.storable⟩
  | ⟨.array _,_⟩ => .error (.database
      ("path element at position 1 is not an integer: \""++name++"\""))
  | _ => .error (.database "cannot set path in scalar")

end Operators

section Rendering

/-- The key order of `jsonb`: shorter keys first, then by their characters. -/
def keyLe (a b : String) : Bool :=
  a.utf8ByteSize < b.utf8ByteSize || (a.utf8ByteSize == b.utf8ByteSize && a ≤ b)

/-- `numeric_out`: all digits, with the point in place. -/
def renderDecimal (n : Decimal) : List Char :=
  let digits := (Nat.repr n.mantissa.natAbs).toList
  let padded := List.replicate (n.scale+1-digits.length) '0'++digits
  let sign := if n.mantissa < 0 then ['-'] else []
  if n.scale = 0 then sign++digits
  else sign++padded.take (padded.length-n.scale)++ '.'::padded.drop (padded.length-n.scale)

/-- `escape_json` of one character. -/
def escapeChar (c : Char) : List Char :=
  if c = '"' then ['\\', '"']
  else if c = '\\' then ['\\', '\\']
  else if c = '\x08' then ['\\', 'b']
  else if c = '\x0c' then ['\\', 'f']
  else if c = '\n' then ['\\', 'n']
  else if c = '\r' then ['\\', 'r']
  else if c = '\t' then ['\\', 't']
  else if c.toNat < 32 then ['\\', 'u','0','0',Nat.digitChar (c.toNat/16),Nat.digitChar (c.toNat%16)]
  else [c]

/-- A quoted JSON string. -/
def renderString (s : String) : List Char := '"'::s.toList.flatMap escapeChar++['"']

/-- Items between brackets, separated by a comma and a blank. -/
def renderSeparated : List (List Char) → List Char
  | [] => []
  | [item] => item
  | item::next::items => item++ ',':: ' '::renderSeparated (next::items)

mutual
/-- `jsonb_out`. -/
def render : Json → List Char
  | .null => "null".toList
  | .bool b => if b then "true".toList else "false".toList
  | .number n => renderDecimal n
  | .string s => renderString s
  | .array items => '['::renderSeparated (renderItems items)++[']']
  | .object fields =>
    '{'::renderSeparated (((renderFields fields).insertionSort
      fun a b => keyLe a.1 b.1 = true).map Prod.snd)++['}']

/-- Every item. -/
def renderItems : List Json → List (List Char)
  | [] => []
  | v::items => render v::renderItems items

/-- Every field, under its key. -/
def renderFields : List (String × Json) → List (String × List Char)
  | [] => []
  | (k,v)::fields => (k,renderString k++[':',' ']++render v)::renderFields fields
end

/-- `value::text`. -/
def Jsonb.text (j : Jsonb) : String := String.ofList (render j.value)

theorem renderDecimal_no_nul (n : Decimal) : '\x00' ∉ renderDecimal n := by
  have hd : '\x00' ∉ (Nat.repr n.mantissa.natAbs).toList := by
    intro h
    have := Nat.isDigit_of_mem_toDigits (b:=10) (by decide) (by decide)
      (by simpa [Nat.repr] using h)
    revert this
    decide
  have hp : ∀ k, '\x00' ∉ List.replicate k '0'++(Nat.repr n.mantissa.natAbs).toList := by
    intro k
    simp only [List.mem_append,List.mem_replicate,not_or]
    exact ⟨by simp,hd⟩
  have hs : '\x00' ∉ (if n.mantissa < 0 then ['-'] else []) := by
    split <;> simp
  unfold renderDecimal
  dsimp only
  split
  · simp only [List.mem_append,not_or]
    exact ⟨hs,hd⟩
  · simp only [List.mem_append,List.mem_cons,not_or]
    exact ⟨⟨hs,fun h => hp _ (List.mem_of_mem_take h)⟩,by decide,
      fun h => hp _ (List.mem_of_mem_drop h)⟩

theorem escapeChar_no_nul (c : Char) : '\x00' ∉ escapeChar c := by
  have hdig : ∀ n < 16, '\x00' ≠ Nat.digitChar n := by decide
  unfold escapeChar
  repeat' split
  all_goals first | decide | skip
  · next h =>
    have h1 := hdig (c.toNat/16) (by omega)
    have h2 := hdig (c.toNat%16) (Nat.mod_lt _ (by decide))
    simp [h1,h2]
  · next h =>
    intro hc
    rw [List.mem_singleton] at hc
    subst hc
    exact h (by decide)

theorem renderString_no_nul (s : String) : '\x00' ∉ renderString s := by
  unfold renderString
  simp only [List.cons_append,List.mem_cons,List.mem_append,List.mem_flatMap,List.not_mem_nil,
    or_false,not_or,not_exists,not_and]
  exact ⟨by decide,fun c _ => escapeChar_no_nul c,by decide⟩

theorem renderSeparated_no_nul {items : List (List Char)} (h : ∀ i ∈ items, '\x00' ∉ i) :
    '\x00' ∉ renderSeparated items := by
  fun_induction renderSeparated items with
  | case1 => simp
  | case2 item => exact h item (by simp)
  | case3 item next items ih =>
    simp only [List.mem_append,List.mem_cons,not_or]
    exact ⟨h item (by simp),by decide,by decide,ih fun i hi => h i (by simp [hi])⟩

mutual
/-- Control characters are escaped, so no rendered value holds U+0000. -/
theorem render_no_nul : ∀ v : Json, '\x00' ∉ render v
  | .null => by decide
  | .bool b => by cases b <;> decide
  | .number n => renderDecimal_no_nul n
  | .string s => renderString_no_nul s
  | .array items => by
    simp only [render,List.cons_append,List.mem_cons,List.mem_append,List.not_mem_nil,or_false,
      not_or]
    exact ⟨by decide,renderSeparated_no_nul (renderItems_no_nul items),by decide⟩
  | .object fields => by
    simp only [render,List.cons_append,List.mem_cons,List.mem_append,List.not_mem_nil,or_false,
      not_or]
    refine ⟨by decide,renderSeparated_no_nul ?_,by decide⟩
    intro i hi
    obtain ⟨f,hf,rfl⟩ := List.mem_map.mp hi
    exact renderFields_no_nul fields f ((List.perm_insertionSort _ _).mem_iff.mp hf)

theorem renderItems_no_nul : ∀ (items : List Json), ∀ i ∈ renderItems items, '\x00' ∉ i
  | [],_,h => by cases h
  | v::items,i,h => by
    rcases List.mem_cons.mp h with rfl | h
    · exact render_no_nul v
    · exact renderItems_no_nul items i h

theorem renderFields_no_nul : ∀ (fields : List (String × Json)),
    ∀ f ∈ renderFields fields, '\x00' ∉ f.2
  | [],_,h => by cases h
  | (k,v)::fields,f,h => by
    rcases List.mem_cons.mp h with rfl | h
    · simp only [List.mem_append,List.mem_cons,List.not_mem_nil,or_false,not_or]
      exact ⟨⟨renderString_no_nul k,by decide,by decide⟩,render_no_nul v⟩
    · exact renderFields_no_nul fields f h
end

/-- The text of a stored value can be stored again. -/
theorem Jsonb.text_nulFree (j : Jsonb) : nulFree j.text = true := by
  rw [nulFree_iff,Jsonb.text,String.toList_ofList]
  exact render_no_nul j.value

end Rendering

end Mulac.Postgres
