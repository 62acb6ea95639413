import Mulac.FailureHistory

/-!
# The diagnostics that a failure keeps

Two readers judge a stored `extra_info`. The struct reader decides whether it
decodes; it skips unknown fields unseen and takes the positional form of a
struct. `append_failure` edits what serde's `Value` makes of the same text,
which must represent every number and every level of nesting. Where the two
agree the history and the other fields are kept; the terminal transition of the
outbox writes the decoded history back and keeps no other field at all.
-/

namespace Mulac.FailureDiagnostics

open JsonValue Identifiers Postgres SerdeJson QueueDomain KeyedTable QueueRow Repository
  RepositoryContracts FourQueues QueueCalls QueueRuns

section Readers

variable {fields out : List (String × Json)} {v v' : Json} {read : Decimal → Option Decimal}

/-- An object decodes to its string errors. -/
theorem decodeExtraInfo_object (h : (fields.map Prod.fst).Nodup) :
    decodeExtraInfo (.object fields) = (stringErrors fields).map ExtraInfo.mk := by
  rw [decodeExtraInfo,structField_of_nodup h,stringErrors,Option.bind_some]
  cases Json.field fields "errors" <;> rfl

/-- What an object decodes to are its string errors. -/
theorem stringErrors_of_decode {info : ExtraInfo}
    (h : decodeExtraInfo (.object fields) = some info) :
    stringErrors fields = some info.errors := by
  rw [decodeExtraInfo] at h
  obtain ⟨o,ho,h⟩ := Option.bind_eq_some_iff.mp h
  rw [stringErrors,field_of_structField ho]
  cases o with
  | none => cases h; rfl
  | some w =>
    obtain ⟨ss,hss,rfl⟩ := Option.map_eq_some_iff.mp h
    exact hss

/-- Reading numbers changes no string and makes none. -/
theorem stringOf_readNumbers (h : v.readNumbers read = some v') : stringOf v' = stringOf v := by
  cases v with
  | string s => cases h; rfl
  | null => cases h; rfl
  | bool b => cases h; rfl
  | number n =>
    obtain ⟨m,_,rfl⟩ := Option.map_eq_some_iff.mp h
    rfl
  | array items =>
    obtain ⟨out,_,rfl⟩ := Option.map_eq_some_iff.mp h
    rfl
  | object fields =>
    obtain ⟨out,_,rfl⟩ := Option.map_eq_some_iff.mp h
    rfl

/-- Nor does it change a list of strings. -/
theorem vecOf_readNumbers (h : v.readNumbers read = some v') :
    vecOf stringOf v' = vecOf stringOf v := by
  cases v with
  | array items =>
    obtain ⟨out,ho,rfl⟩ := Option.map_eq_some_iff.mp h
    rw [vecOf,vecOf]
    clear h
    induction items generalizing out with
    | nil => cases ho; rfl
    | cons w items ih =>
      obtain ⟨w',rest,hw,hr,rfl⟩ := Json.readNumbersItems_cons read ho
      rw [List.mapM_cons,List.mapM_cons,stringOf_readNumbers hw,ih rest hr]
  | string s => cases h; rfl
  | null => cases h; rfl
  | bool b => cases h; rfl
  | number n =>
    obtain ⟨m,_,rfl⟩ := Option.map_eq_some_iff.mp h
    rfl
  | object fields =>
    obtain ⟨out,_,rfl⟩ := Option.map_eq_some_iff.mp h
    rfl

/-- The errors of an object are read as they stand. -/
theorem stringErrors_readNumbers (h : Json.readNumbersFields read fields = some out) :
    stringErrors out = stringErrors fields := by
  unfold stringErrors
  cases hf : Json.field fields "errors" with
  | none =>
    have hnone : Json.field out "errors" = none := by
      rw [Json.field_eq_none,Json.names_readNumbers read h]
      exact Json.field_eq_none.mp hf
    rw [hnone]
  | some w =>
    obtain ⟨w',hw,hfield⟩ := Json.field_readNumbers read h hf
    rw [hfield]
    exact vecOf_readNumbers hw

/-- What `Value` reads. -/
theorem fromStrValue_eq_some {float : FloatReader} : fromStrValue float v = some v' ↔
    v.depth < recursionLimit ∧ v.readNumbers (readNumber float) = some v' := by
  rw [fromStrValue]
  split
  · next h => exact ⟨fun hv => ⟨h,hv⟩,And.right⟩
  · next h => exact ⟨fun hv => (by cases hv),fun hv => absurd hv.1 h⟩

/-- An array of strings, as `Value` reads it. -/
theorem readNumbers_strings (ss : List String) :
    (Json.array (ss.map .string)).readNumbers read = some (.array (ss.map .string)) := by
  rw [Json.readNumbers,Json.readNumbersItems_strings]
  rfl

/-- An array of strings is one level deep. -/
theorem depth_strings (ss : List String) : (Json.array (ss.map .string)).depth = 1 := by
  rw [Json.depth,Json.depthItems_strings]

end Readers

section Appending

variable {float : FloatReader} {original : Option Jsonb} {reason : String} {v v' : Json}

/-- What a failure makes of a value whose shape it does not know. -/
def quarantine (reason : String) (v : Json) : Json :=
  .object [("errors",.array [.string reason]),("quarantined_extra_info",v)]

/-- A value is quarantined unless it is an object with string errors. -/
theorem appendFailure_quarantine (h : ∀ fields, v = .object fields → stringErrors fields = none)
    (reason : String) : appendFailure (some v) reason = quarantine reason v := by
  cases v with
  | object fields => rw [appendFailure,h fields rfl]; rfl
  | null => rfl
  | bool b => rfl
  | number n => rfl
  | string s => rfl
  | array items => rfl

/-- To an object with string errors the reason is appended. -/
theorem appendFailure_append {fields : List (String × Json)} {errors : List String}
    (h : stringErrors fields = some errors) (reason : String) :
    appendFailure (some (.object fields)) reason =
      .object (Json.setField fields "errors" (.array ((errors++[reason]).map .string))) := by
  rw [appendFailure,h]

theorem decode_quarantine (reason : String) (v : Json) :
    decodeExtraInfo (quarantine reason v) = some ⟨[reason]⟩ := by
  simp [quarantine,decodeExtraInfo,structField,vecOf,stringOf]

theorem decode_setField (fields : List (String × Json)) (errors : List String) :
    decodeExtraInfo (.object (Json.setField fields "errors" (.array (errors.map .string)))) =
      some ⟨errors⟩ := by
  rw [decodeExtraInfo,structField_setField,Option.bind_some]
  dsimp only
  rw [vecOf_strings]
  rfl

/-- Text that `Value` cannot represent is appended to as the string that it is. -/
theorem rawExtraInfo_none {j : Jsonb} (h : fromStrValue float j.value = none) :
    rawExtraInfo float (some j) = some (.string j.text) := by
  rw [rawExtraInfo,Option.map_some,h]
  rfl

/-- Anything else is appended to as the value that was read. -/
theorem rawExtraInfo_some {j : Jsonb} (h : fromStrValue float j.value = some v) :
    rawExtraInfo float (some j) = some v := by
  rw [rawExtraInfo,Option.map_some,h]
  rfl

end Appending

section Retention

variable {float : FloatReader} {original : Option Jsonb} {reason : String} {v v' : Json}

/-- The top-level fields of a value; a value that is no object has none. -/
def fieldsOf : Json → List (String × Json)
  | .object fields => fields
  | _ => []

/-- The top-level fields of a stored value. -/
def topFields (extraInfo : Option Jsonb) : List (String × Json) :=
  extraInfo.elim [] fun j => fieldsOf j.value

/-- The error history of a stored value; one that does not decode has none. -/
def oldErrors (extraInfo : Option Jsonb) : List String :=
  (readExtraInfo extraInfo).elim [] fun history => history.elim [] ExtraInfo.errors

/-- Every field but `errors` is still there with the same value. -/
def KeepsFields (before after : List (String × Json)) : Prop :=
  ∀ name v, name ≠ "errors" → Json.field before name = some v →
    ∃ w, Json.field after name = some w ∧ Json.same v w = true

/-- The whole old content stands under `quarantined_extra_info`, as a value or as its text. -/
def Quarantines (j : Jsonb) (new : Json) : Prop :=
  ∃ w, Json.field (fieldsOf new) "quarantined_extra_info" = some w ∧
    (Json.same j.value w = true ∨ w = .string j.text)

/-- What a failure must leave: the old history with the reason, the other fields of a value
that decodes, and the whole content of a value that does not. -/
structure Retained (original : Option Jsonb) (reason : String) (new : Json) : Prop where
  /-- The history is the old one with the reason. -/
  history : decodeExtraInfo new = some ⟨oldErrors original++[reason]⟩
  /-- A value that decodes keeps its other fields. -/
  fields : readExtraInfo original ≠ none → KeepsFields (topFields original) (fieldsOf new)
  /-- A value that does not decode is kept whole. -/
  quarantined : ∀ j, original = some j → readExtraInfo original = none → Quarantines j new

/-- What is stored after failures with these reasons. -/
def afterFailures (float : FloatReader) : Option Jsonb → List String →
    Except DieselError (Option Jsonb)
  | original,[] => .ok original
  | original,reason::reasons => do
    let next ← failureExtraInfo float original (some reason)
    afterFailures float next reasons

/-- No failure loses diagnostics: the next one retains them, whatever its reason, and after
any further ones the history is the old one with all their reasons. -/
structure DiagnosticsKept (float : FloatReader) (original : Option Jsonb) : Prop where
  /-- The next failure retains them. -/
  retained : ∀ reason, Retained original reason (appendFailure (rawExtraInfo float original) reason)
  /-- The history after any number of failures whose reasons can be stored. -/
  accumulated : ∀ reason reasons, (∀ s ∈ reason::reasons, nulFree s = true) →
    ∃ j, afterFailures float original (reason::reasons) = .ok (some j) ∧
      decodeExtraInfo j.value = some ⟨oldErrors original++reason::reasons⟩

/-- A number read, written and read again so many times. -/
def reread (float : FloatReader) : ℕ → Decimal → Option Decimal
  | 0,n => some n
  | k+1,n => (readNumber float n).bind (reread float k)

/-- A number that serde_json can read, however often it has written it. -/
def Lasting (float : FloatReader) (n : Decimal) : Prop := ∀ k, reread float k n ≠ none

/-- serde's `Value` is the stored value, and can read again what it writes of it. -/
def ReadsBack (float : FloatReader) (j : Jsonb) : Prop :=
  (∃ v, fromStrValue float j.value = some v ∧ Json.same j.value v = true) ∧
    ∀ n ∈ Json.numbers j.value, Lasting float n

/-- The stored values on which the two readers agree. -/
structure Lossless (float : FloatReader) (j : Jsonb) : Prop where
  /-- An object that decodes is read as it stands. -/
  object : ∀ fields, j.value = .object fields → readExtraInfo (some j) ≠ none → ReadsBack float j
  /-- An array, if it decodes, holds no errors. -/
  array : ∀ items, j.value = .array items → oldErrors (some j) = []
  /-- What does not decode is not read at all, or is read as it stands and one more level
  leaves it readable. -/
  undecoded : readExtraInfo (some j) = none → fromStrValue float j.value = none ∨
    (ReadsBack float j ∧ j.value.depth+1 < recursionLimit)

/-- A lasting number is read as one. -/
theorem Lasting.read {float : FloatReader} {n : Decimal} (h : Lasting float n) :
    ∃ m, readNumber float n = some m ∧ Lasting float m := by
  cases hn : readNumber float n with
  | none => exact absurd (by rw [reread,hn]; rfl) (h 1)
  | some m =>
    refine ⟨m,rfl,fun k hk => h (k+1) ?_⟩
    rw [reread,hn,Option.bind_some,hk]

/-- A number that is written as it was lasts. -/
theorem lasting_of_exact {float : FloatReader} {n : Decimal} (h : readNumber float n = some n) :
    Lasting float n := by
  intro k
  induction k with
  | zero => simp [reread]
  | succ k ih =>
    rw [reread,h,Option.bind_some]
    exact ih

/-- What is read of lasting numbers lasts. -/
theorem lasting_of_read {float : FloatReader} {l out : List Decimal}
    (hl : ∀ n ∈ l, Lasting float n) (h : ∀ m ∈ out, ∃ n ∈ l, readNumber float n = some m) :
    ∀ m ∈ out, Lasting float m := by
  intro m hm
  obtain ⟨n,hn,hread⟩ := h m hm
  obtain ⟨m',hm',hlasting⟩ := (hl n hn).read
  cases hread.symm.trans hm'
  exact hlasting

end Retention

section Accumulation

variable {float : FloatReader} {original : Option Jsonb} {errors : List String} {v : Json}

/-- A value that every later failure can append to: an object with room for its nesting, whose
numbers last. -/
def Settled (float : FloatReader) (v : Json) (errors : List String) : Prop :=
  ∃ fields, v = .object fields ∧ decodeExtraInfo v = some ⟨errors⟩ ∧
    1+Json.depthFields fields < recursionLimit ∧
    ∀ n ∈ Json.numbersFields fields, Lasting float n

/-- A history holds no numbers, so those of an object with a new one stand in the other fields. -/
theorem numbers_setErrors {fields : List (String × Json)} {errors : List String} {n : Decimal} :
    n ∈ Json.numbersFields (Json.setField fields "errors" (.array (errors.map .string))) ↔
      n ∈ Json.numbersFields (Json.removeField fields "errors") := by
  rw [Json.mem_numbersFields,Json.mem_numbersFields,Json.setField]
  constructor
  · intro h
    obtain ⟨f,hf,hn⟩ := h
    rcases List.mem_append.mp hf with hf | hf
    · exact ⟨f,hf,hn⟩
    · rw [List.mem_singleton.mp hf,Json.numbers_strings] at hn
      cases hn
  · intro h
    obtain ⟨f,hf,hn⟩ := h
    exact ⟨f,List.mem_append_left _ hf,hn⟩

/-- The numbers of the other fields are numbers of the object. -/
theorem numbers_removeField {fields : List (String × Json)} {name : String} {n : Decimal}
    (h : n ∈ Json.numbersFields (Json.removeField fields name)) :
    n ∈ Json.numbersFields fields := by
  rw [Json.mem_numbersFields] at h ⊢
  obtain ⟨f,hf,hn⟩ := h
  exact ⟨f,(List.mem_filter.mp hf).1,hn⟩

/-- All numbers of an object that decodes stand in its other fields. -/
theorem numbers_of_decode {fields : List (String × Json)} {info : ExtraInfo}
    (h : decodeExtraInfo (.object fields) = some info) {n : Decimal}
    (hn : n ∈ Json.numbersFields fields) :
    n ∈ Json.numbersFields (Json.removeField fields "errors") := by
  rw [Json.mem_numbersFields] at hn ⊢
  obtain ⟨f,hf,hn⟩ := hn
  refine ⟨f,List.mem_filter.mpr ⟨hf,?_⟩,hn⟩
  by_contra hname
  have hname : f.1 = "errors" := by simpa using hname
  have hmem : f ∈ fields.filter fun g => g.1 = "errors" :=
    List.mem_filter.mpr ⟨hf,decide_eq_true hname⟩
  rw [decodeExtraInfo] at h
  obtain ⟨o,ho,h⟩ := Option.bind_eq_some_iff.mp h
  unfold structField at ho
  split at ho
  · next he =>
    rw [he] at hmem
    cases hmem
  · next g he =>
    -- the only field of that name is a list of strings
    cases ho
    rw [he,List.mem_singleton] at hmem
    obtain ⟨ss,hss,_⟩ := Option.map_eq_some_iff.mp h
    rw [hmem,vecOf_eq_strings hss,Json.numbers_strings] at hn
    cases hn
  · cases ho

/-- A longer history nests no deeper. -/
theorem depth_setErrors {fields : List (String × Json)}
    (h : 1+Json.depthFields fields < recursionLimit) (errors : List String) :
    1+Json.depthFields (Json.setField fields "errors" (.array (errors.map .string))) <
      recursionLimit := by
  rw [recursionLimit] at h ⊢
  have hstrings : (Json.array (errors.map .string)).depth ≤ 126 := by
    rw [depth_strings]
    omega
  have hfields : Json.depthFields fields ≤ 126 := by omega
  have hset := Json.depthFields_setField hfields "errors" hstrings
  omega

/-- Fields whose numbers last are read, and lasting numbers are what is read. -/
theorem read_lasting {fields : List (String × Json)}
    (h : ∀ n ∈ Json.numbersFields fields, Lasting float n) :
    ∃ out, Json.readNumbersFields (readNumber float) fields = some out ∧
      ∀ m ∈ Json.numbersFields out, Lasting float m := by
  obtain ⟨out,hout⟩ := Json.readNumbersFields_of_all (readNumber float) fun n hn => by
    obtain ⟨m,hm,_⟩ := (h n hn).read
    exact ⟨m,hm⟩
  exact ⟨out,hout,lasting_of_read h (Json.numbersFields_of_read (readNumber float) hout).2⟩

/-- The next failure appends its reason to it. -/
theorem Settled.next {j : Jsonb} (h : Settled float j.value errors) (reason : String) :
    Settled float (appendFailure (rawExtraInfo float (some j)) reason) (errors++[reason]) := by
  obtain ⟨fields,hv,hdecode,hdepth,hlasting⟩ := h
  obtain ⟨out,hout,hlast⟩ := read_lasting hlasting
  have hread : fromStrValue float j.value = some (.object out) := by
    rw [fromStrValue_eq_some,hv]
    refine ⟨by rw [Json.depth]; exact hdepth,?_⟩
    rw [Json.readNumbers,hout]
    rfl
  have herrors : stringErrors out = some errors := by
    rw [stringErrors_readNumbers hout]
    exact stringErrors_of_decode (hv ▸ hdecode)
  rw [rawExtraInfo_some hread,appendFailure_append herrors]
  refine ⟨_,rfl,decode_setField _ _,?_,fun n hn =>
    hlast n (numbers_removeField (numbers_setErrors.mp hn))⟩
  refine depth_setErrors ?_ (errors++[reason])
  rw [Json.depthFields_readNumbers (readNumber float) hout]
  exact hdepth

/-- After any further failures a value holds a history that ends with their reasons. -/
def Accumulates (float : FloatReader) (j : Jsonb) (errors : List String) : Prop :=
  ∀ reasons, (∀ s ∈ reasons, nulFree s = true) →
    ∃ j', afterFailures float (some j) reasons = .ok (some j') ∧
      decodeExtraInfo j'.value = some ⟨errors++reasons⟩

/-- So do all further ones. -/
theorem Settled.accumulates {j : Jsonb} (h : Settled float j.value errors) :
    Accumulates float j errors := by
  intro reasons hr
  induction reasons generalizing j errors with
  | nil =>
    obtain ⟨_,_,hdecode,_⟩ := h
    exact ⟨j,rfl,by rw [List.append_nil]; exact hdecode⟩
  | cons reason reasons ih =>
    have hnul := hr reason (by simp)
    obtain ⟨j',hj',hdecode⟩ := ih (j:=recordedExtraInfo float (some j) reason hnul)
      (h.next reason) fun s hs => hr s (by simp [hs])
    refine ⟨j',?_,?_⟩
    · rw [afterFailures,failureExtraInfo_eq float (some j) hnul]
      exact hj'
    · rw [hdecode,List.append_assoc]
      rfl

/-- A quarantined value has settled if one more level leaves it readable. -/
theorem settled_quarantine (hlasting : ∀ n ∈ Json.numbers v, Lasting float n)
    (hdepth : v.depth+1 < recursionLimit) (reason : String) :
    Settled float (quarantine reason v) [reason] := by
  refine ⟨_,rfl,decode_quarantine reason v,?_,fun n hn => hlasting n ?_⟩
  · rw [recursionLimit] at hdepth ⊢
    simp only [Json.depthFields,Json.depth,Json.depthItems]
    omega
  · simpa [Json.numbersFields,Json.numbers,Json.numbersItems] using hn

/-- An object is read as an object with the same errors. -/
theorem read_object {fields : List (String × Json)}
    (h : fromStrValue float (.object fields) = some v) :
    ∃ out, v = .object out ∧ Json.readNumbersFields (readNumber float) fields = some out ∧
      1+Json.depthFields out < recursionLimit ∧ stringErrors out = stringErrors fields := by
  obtain ⟨hdepth,hread⟩ := fromStrValue_eq_some.mp h
  obtain ⟨out,hout,rfl⟩ := Option.map_eq_some_iff.mp hread
  refine ⟨out,rfl,hout,?_,stringErrors_readNumbers hout⟩
  rw [Json.depthFields_readNumbers (readNumber float) hout]
  exact hdepth

/-- What is read of a value that does not decode is quarantined. -/
theorem undecoded_quarantine {j : Jsonb} (hkeys : ((topFields (some j)).map Prod.fst).Nodup)
    (hd : decodeExtraInfo j.value = none) (hread : fromStrValue float j.value = some v)
    (reason : String) : appendFailure (some v) reason = quarantine reason v := by
  refine appendFailure_quarantine ?_ reason
  rintro out rfl
  obtain ⟨w,hw⟩ := j
  cases w with
  | object fields =>
    obtain ⟨out',he,_,_,herrors⟩ := read_object hread
    cases he
    have hnames : (fields.map Prod.fst).Nodup := hkeys
    have hnone : decodeExtraInfo (.object fields) = none := hd
    rw [decodeExtraInfo_object hnames,Option.map_eq_none_iff] at hnone
    rw [herrors,hnone]
  | string s => cases (fromStrValue_eq_some.mp hread).2
  | null => cases (fromStrValue_eq_some.mp hread).2
  | bool b => cases (fromStrValue_eq_some.mp hread).2
  | number n =>
    obtain ⟨m,_,hm⟩ := Option.map_eq_some_iff.mp (fromStrValue_eq_some.mp hread).2
    cases hm
  | array items =>
    obtain ⟨m,_,hm⟩ := Option.map_eq_some_iff.mp (fromStrValue_eq_some.mp hread).2
    cases hm

/-- The errors of a positional struct. -/
theorem decode_array {items : List Json} {info : ExtraInfo}
    (h : decodeExtraInfo (.array items) = some info) :
    (items = [] ∧ info.errors = []) ∨ items = [.array (info.errors.map .string)] := by
  rcases items with _ | ⟨w,_ | ⟨w',items⟩⟩
  · cases h
    exact .inl ⟨rfl,rfl⟩
  · obtain ⟨ss,hss,rfl⟩ := Option.map_eq_some_iff.mp h
    rw [vecOf_eq_strings hss]
    exact .inr rfl
  · cases h

/-- They hold no numbers. -/
theorem numbers_of_decoded_array {items : List Json} {info : ExtraInfo}
    (h : decodeExtraInfo (.array items) = some info) : Json.numbers (.array items) = [] := by
  rcases decode_array h with ⟨rfl,_⟩ | rfl
  · rfl
  · rw [Json.numbers,Json.numbersItems,Json.numbers_strings]
    rfl

/-- A positional struct is read as it stands, and quarantined. -/
theorem read_array (float : FloatReader) {items : List Json} {info : ExtraInfo}
    (h : decodeExtraInfo (.array items) = some info) :
    (Json.array items).depth ≤ 2 ∧
      (Json.array items).readNumbers (readNumber float) = some (.array items) ∧
      fromStrValue float (.array items) = some (.array items) := by
  have hboth : (Json.array items).depth ≤ 2 ∧
      (Json.array items).readNumbers (readNumber float) = some (.array items) := by
    rcases decode_array h with ⟨rfl,_⟩ | rfl
    · exact ⟨by decide,rfl⟩
    · refine ⟨?_,?_⟩
      · simp only [Json.depth,Json.depthItems,Json.depthItems_strings]
        omega
      · rw [Json.readNumbers,Json.readNumbersItems,readNumbers_strings]
        rfl
  refine ⟨hboth.1,hboth.2,fromStrValue_eq_some.mpr ⟨?_,hboth.2⟩⟩
  rw [recursionLimit]
  have := hboth.1
  omega

theorem oldErrors_of_decode {j : Jsonb} {info : ExtraInfo}
    (h : decodeExtraInfo j.value = some info) : oldErrors (some j) = info.errors := by
  rw [oldErrors,readExtraInfo,h]
  rfl

theorem oldErrors_of_undecoded {j : Jsonb} (h : decodeExtraInfo j.value = none) :
    oldErrors (some j) = [] := by
  rw [oldErrors,readExtraInfo,h]
  rfl

theorem read_ne_none {j : Jsonb} : readExtraInfo (some j) ≠ none ↔
    decodeExtraInfo j.value ≠ none := by
  rw [readExtraInfo,ne_eq,ne_eq,Option.map_eq_none_iff]

/-- What decodes is an object or an array. -/
theorem decoded_shape {v : Json} {info : ExtraInfo} (h : decodeExtraInfo v = some info) :
    (∃ fields, v = .object fields) ∨ ∃ items, v = .array items := by
  cases v with
  | object fields => exact .inl ⟨fields,rfl⟩
  | array items => exact .inr ⟨items,rfl⟩
  | null => cases h
  | bool b => cases h
  | number n => cases h
  | string s => cases h

/-- The first failure of a value on which the two readers agree settles it. -/
theorem settled_first {j : Jsonb} (h : Lossless float j)
    (hkeys : ((topFields (some j)).map Prod.fst).Nodup) (reason : String) :
    Settled float (appendFailure (rawExtraInfo float (some j)) reason)
      (oldErrors (some j)++[reason]) := by
  cases hd : decodeExtraInfo j.value with
  | none =>
    rw [oldErrors_of_undecoded hd,List.nil_append]
    rcases h.undecoded (by rw [readExtraInfo,hd]; rfl) with hnone | ⟨⟨⟨v,hv,_⟩,hlasting⟩,hdepth⟩
    · rw [rawExtraInfo_none hnone]
      exact settled_quarantine (fun _ hn => by cases hn) (by simp [Json.depth,recursionLimit]) reason
    · rw [rawExtraInfo_some hv,undecoded_quarantine hkeys hd hv]
      have hread := (fromStrValue_eq_some.mp hv).2
      exact settled_quarantine
        (lasting_of_read hlasting (Json.numbers_of_read (readNumber float) hread).2)
        (by rw [Json.depth_readNumbers (readNumber float) hread]; exact hdepth) reason
  | some info =>
    rw [oldErrors_of_decode hd]
    rcases decoded_shape hd with ⟨fields,hj⟩ | ⟨items,hj⟩
    · obtain ⟨⟨v,hv,_⟩,hlasting⟩ := h.object fields hj (read_ne_none.mpr (by rw [hd]; simp))
      rw [rawExtraInfo_some hv]
      rw [hj] at hv hd hlasting
      obtain ⟨out,rfl,hout,hdepth,herrors⟩ := read_object hv
      have hlast := lasting_of_read hlasting (Json.numbersFields_of_read (readNumber float) hout).2
      rw [appendFailure_append (herrors.trans (stringErrors_of_decode hd))]
      exact ⟨_,rfl,decode_setField _ _,depth_setErrors hdepth (info.errors++[reason]),fun n hn =>
        hlast n (numbers_removeField (numbers_setErrors.mp hn))⟩
    · have hempty := h.array items hj
      rw [oldErrors_of_decode hd] at hempty
      rw [hempty,List.nil_append]
      rw [hj] at hd
      obtain ⟨hdepth,_,hvalue⟩ := read_array float hd
      rw [rawExtraInfo_some (by rw [hj]; exact hvalue),
        appendFailure_quarantine fun _ he => by cases he]
      refine settled_quarantine (fun n hn => ?_) ?_ reason
      · rw [numbers_of_decoded_array hd] at hn
        cases hn
      · rw [recursionLimit]
        omega

end Accumulation

section Guarantee

variable {float : FloatReader} {reason : String} {j : Jsonb} {v : Json}

/-- The fields of an object are its top-level fields. -/
theorem topFields_of_object {fields : List (String × Json)} (hj : j.value = .object fields) :
    topFields (some j) = fields := by rw [topFields,Option.elim_some,hj,fieldsOf]

theorem decode_of_read_none (h : readExtraInfo (some j) = none) :
    decodeExtraInfo j.value = none := by
  rw [readExtraInfo,Option.map_eq_none_iff] at h
  exact h

/-- Where the two readers agree, one failure retains everything. -/
theorem retained_of_lossless (h : Lossless float j)
    (hkeys : ((topFields (some j)).map Prod.fst).Nodup) (reason : String) :
    Retained (some j) reason (appendFailure (rawExtraInfo float (some j)) reason) := by
  obtain ⟨_,_,hhistory,_⟩ := settled_first h hkeys reason
  refine ⟨hhistory,fun hread name w hne hw => ?_,?_⟩
  · -- a field occurs in an object only, and that is read as it stands
    obtain ⟨info,hd⟩ := Option.ne_none_iff_exists'.mp (read_ne_none.mp hread)
    rcases decoded_shape hd with ⟨fields,hj⟩ | ⟨items,hj⟩
    · obtain ⟨⟨u,hu,hsame⟩,_⟩ := h.object fields hj hread
      rw [topFields_of_object hj] at hkeys hw
      rw [rawExtraInfo_some hu]
      rw [hj] at hu hd hsame
      obtain ⟨out,rfl,hout,_,herrors⟩ := read_object hu
      rw [appendFailure_append (herrors.trans (stringErrors_of_decode hd)),fieldsOf,
        Json.field_setField,if_neg hne]
      obtain ⟨w',_,hw'⟩ := Json.field_readNumbers (readNumber float) hout hw
      exact ⟨w',hw',(Json.sameFields_readNumbers (readNumber float) hkeys hout).mp hsame
        name w w' hw hw'⟩
    · rw [topFields,Option.elim_some,hj] at hw
      cases hw
  · intro j' hj' hnone
    cases hj'
    have hd : decodeExtraInfo j.value = none := decode_of_read_none hnone
    rcases h.undecoded hnone with hv | ⟨⟨⟨u,hu,hsame⟩,_⟩,_⟩
    · rw [rawExtraInfo_none hv]
      exact ⟨_,rfl,.inr rfl⟩
    · rw [rawExtraInfo_some hu,undecoded_quarantine hkeys hd hu]
      exact ⟨u,rfl,.inl hsame⟩

/-- Fields of which every other than the errors is a string are always read. -/
theorem fromStrValue_strings (float : FloatReader) {fields : List (String × Json)}
    {errors : List String} (hkeys : (fields.map Prod.fst).Nodup)
    (he : stringErrors fields = some errors)
    (h : ∀ name v, name ≠ "errors" → Json.field fields name = some v → ∃ s, v = .string s) :
    ∃ v, fromStrValue float (.object fields) = some v := by
  have hall : ∀ f ∈ fields, f.2.depth ≤ 1 ∧ ∃ u, f.2.readNumbers (readNumber float) = some u := by
    intro f hf
    have hfield := Json.field_of_mem hkeys hf
    by_cases hn : f.1 = "errors"
    · rw [hn] at hfield
      rw [stringErrors,hfield] at he
      rw [vecOf_eq_strings he,depth_strings]
      exact ⟨Nat.le_refl 1,_,readNumbers_strings errors⟩
    · obtain ⟨s,hs⟩ := h f.1 f.2 hn hfield
      rw [hs]
      exact ⟨Nat.zero_le 1,_,rfl⟩
  have hread : ∃ out, Json.readNumbersFields (readNumber float) fields = some out := by
    clear hkeys he h
    induction fields with
    | nil => exact ⟨[],rfl⟩
    | cons f fields ih =>
      obtain ⟨_,u,hu⟩ := hall f (by simp)
      obtain ⟨out,hout⟩ := ih fun g hg => hall g (by simp [hg])
      exact ⟨(f.1,u)::out,by rw [Json.readNumbersFields,hu,hout]; rfl⟩
  obtain ⟨out,hout⟩ := hread
  refine ⟨.object out,fromStrValue_eq_some.mpr ⟨?_,by rw [Json.readNumbers,hout]; rfl⟩⟩
  have hdepth := Json.depthFields_le.mpr fun f hf => (hall f hf).1
  rw [Json.depth,recursionLimit]
  omega

/-- An object whose other fields a failure retains is read as it stands. -/
theorem read_of_retained {fields : List (String × Json)} {info : ExtraInfo}
    (hj : j.value = .object fields) (hd : decodeExtraInfo j.value = some info)
    (hkeys : (fields.map Prod.fst).Nodup)
    (h : Retained (some j) reason (appendFailure (rawExtraInfo float (some j)) reason)) :
    ∃ v, fromStrValue float j.value = some v ∧ Json.same j.value v = true := by
  have hkeeps := h.fields (read_ne_none.mpr (by rw [hd]; simp))
  have herrors : stringErrors fields = some info.errors := stringErrors_of_decode (hj ▸ hd)
  rw [topFields_of_object hj] at hkeeps
  cases hv : fromStrValue float j.value with
  | none =>
    -- then only a text is left, so every other field was a string, and is read
    rw [rawExtraInfo_none hv,appendFailure_quarantine fun _ he => by cases he] at hkeeps
    obtain ⟨u,hu⟩ := fromStrValue_strings float hkeys herrors (by
      intro name w hne hw
      obtain ⟨w',hw',hsame⟩ := hkeeps name w hne hw
      rw [quarantine,fieldsOf,Json.field_cons,if_neg (Ne.symm hne),Json.field_cons] at hw'
      split at hw'
      · cases hw'
        exact ⟨j.text,Json.same_string hsame⟩
      · cases hw')
    rw [hj,hu] at hv
    cases hv
  | some u =>
    refine ⟨u,rfl,?_⟩
    rw [rawExtraInfo_some hv] at hkeeps
    rw [hj] at hv ⊢
    obtain ⟨out,rfl,hout,_,hsame⟩ := read_object hv
    rw [appendFailure_append (hsame.trans herrors),fieldsOf] at hkeeps
    refine (Json.sameFields_readNumbers (readNumber float) hkeys hout).mpr ?_
    intro name w w' hw hw'
    by_cases hne : name = "errors"
    · -- the errors are strings
      subst hne
      rw [stringErrors,hw] at herrors
      have hs := vecOf_eq_strings herrors
      obtain ⟨w₁,hr,hw₁⟩ := Json.field_readNumbers (readNumber float) hout hw
      rw [hs,readNumbers_strings] at hr
      rw [hw'] at hw₁
      cases hw₁
      cases hr
      rw [hs]
      exact Json.same_refl _
    · obtain ⟨w₁,hw₁,hsame₁⟩ := hkeeps name w hne hw
      rw [Json.field_setField,if_neg hne,hw'] at hw₁
      cases hw₁
      exact hsame₁

/-- A value that is read as a string is that string. -/
theorem eq_string_of_read {s : String} (h : fromStrValue float v = some (.string s)) :
    v = .string s := by
  have hread := stringOf_readNumbers (fromStrValue_eq_some.mp h).2
  exact stringOf_eq_some.mp hread.symm

theorem recorded_value (float : FloatReader) (original : Option Jsonb) (reason : String)
    (h : nulFree reason = true) : (recordedExtraInfo float original reason h).value =
      appendFailure (rawExtraInfo float original) reason := rfl

/-- Nested as deep as `Value` allows, a quarantined value is text to the next failure, which
drops the history that the first began. -/
theorem quarantine_too_deep (hkeys : ((topFields (some j)).map Prod.fst).Nodup)
    (hd : decodeExtraInfo j.value = none) (hv : fromStrValue float j.value = some v)
    (hdeep : ¬j.value.depth+1 < recursionLimit) : ¬DiagnosticsKept float (some j) := by
  intro h
  have ha : nulFree "a" = true := by decide
  have hb : nulFree "b" = true := by decide
  obtain ⟨j₂,hj₂,hdecode⟩ := h.accumulated "a" ["b"] (by simp [ha,hb])
  have hfirst : (recordedExtraInfo float (some j) "a" ha).value = quarantine "a" v := by
    rw [recorded_value,rawExtraInfo_some hv,undecoded_quarantine hkeys hd hv]
  have hnone : fromStrValue float (recordedExtraInfo float (some j) "a" ha).value = none := by
    rw [hfirst,fromStrValue,if_neg]
    have hdepth := Json.depth_readNumbers (readNumber float) (fromStrValue_eq_some.mp hv).2
    rw [recursionLimit] at hdeep ⊢
    simp only [quarantine,Json.depth,Json.depthFields,hdepth]
    omega
  rw [afterFailures,failureExtraInfo_eq float (some j) ha] at hj₂
  change afterFailures float (some _) ["b"] = _ at hj₂
  rw [afterFailures,failureExtraInfo_eq float _ hb] at hj₂
  cases hj₂
  rw [recorded_value,rawExtraInfo_none hnone,appendFailure_quarantine (fun _ he => by cases he),
    decode_quarantine,oldErrors_of_undecoded hd] at hdecode
  simp at hdecode

/-- Further failures continue where the first one has begun. -/
theorem accumulates_recorded {errors : List String} (h : Accumulates float j errors)
    {reason : String} (hnul : nulFree reason = true) :
    Accumulates float (recordedExtraInfo float (some j) reason hnul) (errors++[reason]) := by
  intro reasons hr
  obtain ⟨j',hj',hdecode⟩ := h (reason::reasons) fun s hs => by
    rcases List.mem_cons.mp hs with rfl | hs
    · exact hnul
    · exact hr s hs
  rw [afterFailures,failureExtraInfo_eq float (some j) hnul] at hj'
  refine ⟨j',hj',?_⟩
  rw [hdecode,List.append_assoc]
  rfl

theorem lasting_of_next {n m : Decimal} (hread : readNumber float n = some m)
    (h : Lasting float m) : Lasting float n := by
  intro k
  cases k with
  | zero => simp [reread]
  | succ k =>
    rw [reread,hread]
    exact h k

/-- A history that accumulates stands beside lasting numbers: one that is read no more makes the
whole text a string to the next failure, which drops the history. -/
theorem lasting_of_accumulates {fields : List (String × Json)} {errors : List String}
    (hj : j.value = .object fields) (hd : decodeExtraInfo j.value = some ⟨errors⟩)
    (hne : errors ≠ []) (h : Accumulates float j errors) :
    ∀ n ∈ Json.numbersFields fields, Lasting float n := by
  intro n hn k
  induction k generalizing j fields errors n with
  | zero => simp [reread]
  | succ k ih =>
    have ha : nulFree "a" = true := by decide
    have hnext := accumulates_recorded h ha
    obtain ⟨j',hj',hdecode⟩ := hnext [] (by simp)
    cases hj'
    rw [List.append_nil,recorded_value] at hdecode
    cases hv : fromStrValue float j.value with
    | none =>
      rw [rawExtraInfo_none hv,appendFailure_quarantine (fun _ he => by cases he),
        decode_quarantine] at hdecode
      have hlen := congrArg (fun o : Option ExtraInfo => (o.elim [] ExtraInfo.errors).length) hdecode
      simp only [Option.elim_some,List.length_append,List.length_singleton] at hlen
      exact absurd (List.eq_nil_of_length_eq_zero (by omega)) hne
    | some v =>
      have hread := hv
      rw [hj] at hread hd
      obtain ⟨out,rfl,hout,_,herrors⟩ := read_object hread
      have hvalue : (recordedExtraInfo float (some j) "a" ha).value =
          .object (Json.setField out "errors" (.array ((errors++["a"]).map .string))) := by
        rw [recorded_value,rawExtraInfo_some hv,
          appendFailure_append (herrors.trans (stringErrors_of_decode hd))]
      have hother := Json.readNumbersFields_removeField (readNumber float) hout "errors"
      obtain ⟨m,hm,hnm⟩ := (Json.numbersFields_of_read (readNumber float) hother).1 n
        (numbers_of_decode hd hn)
      have hlast := ih hvalue (by rw [hvalue]; exact decode_setField _ _) (by simp) hnext m
        (numbers_setErrors.mpr hm)
      rw [reread,hnm]
      exact hlast

/-- What keeps its diagnostics after a first failure accumulates them. -/
theorem accumulates_of_kept (h : DiagnosticsKept float (some j)) {reason : String}
    (hnul : nulFree reason = true) :
    Accumulates float (recordedExtraInfo float (some j) reason hnul)
      (oldErrors (some j)++[reason]) := by
  intro reasons hr
  obtain ⟨j',hj',hdecode⟩ := h.accumulated reason reasons fun s hs => by
    rcases List.mem_cons.mp hs with rfl | hs
    · exact hnul
    · exact hr s hs
  rw [afterFailures,failureExtraInfo_eq float (some j) hnul] at hj'
  refine ⟨j',hj',?_⟩
  rw [hdecode,List.append_assoc]
  rfl

/-- What keeps its diagnostics holds lasting numbers, if `Value` reads it. -/
theorem lasting_of_kept (hkeys : ((topFields (some j)).map Prod.fst).Nodup)
    (h : DiagnosticsKept float (some j)) (hv : fromStrValue float j.value = some v) :
    ∀ n ∈ Json.numbers j.value, Lasting float n := by
  have ha : nulFree "a" = true := by decide
  have hnext := accumulates_of_kept h ha
  have hdecode := (h.retained "a").history
  have hread := (fromStrValue_eq_some.mp hv).2
  intro n hn
  cases hd : decodeExtraInfo j.value with
  | none =>
    -- the value stands as it was read in the quarantine
    have hvalue : (recordedExtraInfo float (some j) "a" ha).value = quarantine "a" v := by
      rw [recorded_value,rawExtraInfo_some hv,undecoded_quarantine hkeys hd hv]
    obtain ⟨m,hm,hnm⟩ := (Json.numbers_of_read (readNumber float) hread).1 n hn
    refine lasting_of_next hnm (lasting_of_accumulates hvalue hdecode (by simp) hnext m ?_)
    simpa [Json.numbersFields,Json.numbers,Json.numbersItems] using hm
  | some info =>
    rcases decoded_shape hd with ⟨fields,hj⟩ | ⟨items,hj⟩
    · -- its fields stand as they were read beside the history
      have hobject := hv
      rw [hj] at hobject hd hn
      obtain ⟨out,rfl,hout,_,herrors⟩ := read_object hobject
      have hvalue : (recordedExtraInfo float (some j) "a" ha).value =
          .object (Json.setField out "errors" (.array ((info.errors++["a"]).map .string))) := by
        rw [recorded_value,rawExtraInfo_some hv,
          appendFailure_append (herrors.trans (stringErrors_of_decode hd))]
      have hother := Json.readNumbersFields_removeField (readNumber float) hout "errors"
      obtain ⟨m,hm,hnm⟩ := (Json.numbersFields_of_read (readNumber float) hother).1 n
        (numbers_of_decode hd hn)
      exact lasting_of_next hnm (lasting_of_accumulates hvalue hdecode (by simp) hnext m
        (numbers_setErrors.mpr hm))
    · rw [hj] at hd hn
      rw [numbers_of_decoded_array hd] at hn
      cases hn

/-- What keeps its diagnostics is read alike by both readers. -/
theorem lossless_of_kept (hkeys : ((topFields (some j)).map Prod.fst).Nodup)
    (h : DiagnosticsKept float (some j)) : Lossless float j := by
  refine ⟨fun fields hj hread => ?_,fun items hj => ?_,fun hnone => ?_⟩
  · obtain ⟨info,hd⟩ := Option.ne_none_iff_exists'.mp (read_ne_none.mp hread)
    have hfields := hkeys
    rw [topFields_of_object hj] at hfields
    obtain ⟨v,hv,hsame⟩ := read_of_retained hj hd hfields (h.retained "")
    exact ⟨⟨v,hv,hsame⟩,lasting_of_kept hkeys h hv⟩
  · cases hd : decodeExtraInfo j.value with
    | none => exact oldErrors_of_undecoded hd
    | some info =>
      have hhistory := (h.retained "").history
      rw [hj] at hd
      rw [rawExtraInfo_some (by rw [hj]; exact (read_array float hd).2.2),
        appendFailure_quarantine (fun _ he => by cases he),decode_quarantine] at hhistory
      have hlen :=
        congrArg (fun o : Option ExtraInfo => (o.elim [] ExtraInfo.errors).length) hhistory
      simp only [Option.elim_some,List.length_append,List.length_singleton] at hlen
      exact List.eq_nil_of_length_eq_zero (by omega)
  · have hd : decodeExtraInfo j.value = none := decode_of_read_none hnone
    cases hv : fromStrValue float j.value with
    | none => exact .inl rfl
    | some u =>
      refine .inr ⟨⟨⟨u,hv,?_⟩,lasting_of_kept hkeys h hv⟩,?_⟩
      · obtain ⟨w,hw,hsame⟩ := (h.retained "").quarantined j rfl hnone
        rw [rawExtraInfo_some hv,undecoded_quarantine hkeys hd hv] at hw
        obtain rfl : u = w := Option.some.inj hw
        rcases hsame with hsame | rfl
        · exact hsame
        · rw [eq_string_of_read hv]
          exact Json.same_refl _
      · by_contra hdeep
        exact quarantine_too_deep hkeys hd hv hdeep h

/-- The first failure of a row without diagnostics settles it. -/
theorem settled_fresh (float : FloatReader) (reason : String) :
    Settled float (appendFailure (rawExtraInfo float none) reason) [reason] := by
  refine ⟨_,rfl,decodeExtraInfo_appendFailure none reason,?_,fun n hn => ?_⟩
  · simp [Json.depthFields,Json.depth,Json.depthItems,recursionLimit]
  · simp [Json.numbersFields,Json.numbers,Json.numbersItems] at hn

/-- What settles with its first failure accumulates from there. -/
theorem accumulated_of_settled {original : Option Jsonb}
    (h : ∀ reason, Settled float (appendFailure (rawExtraInfo float original) reason)
      (oldErrors original++[reason])) (reason : String) (reasons : List String)
    (hr : ∀ s ∈ reason::reasons, nulFree s = true) :
    ∃ j, afterFailures float original (reason::reasons) = .ok (some j) ∧
      decodeExtraInfo j.value = some ⟨oldErrors original++reason::reasons⟩ := by
  have hnul := hr reason (by simp)
  have hsettled : Settled float (recordedExtraInfo float original reason hnul).value
      (oldErrors original++[reason]) := h reason
  obtain ⟨j,hj,hdecode⟩ := hsettled.accumulates reasons fun s hs => hr s (by simp [hs])
  refine ⟨j,?_,?_⟩
  · rw [afterFailures,failureExtraInfo_eq float original hnul]
    exact hj
  · rw [hdecode,List.append_assoc]
    rfl

/-- Failure diagnostics: no failure of a row loses any if and only if the two readers agree on
what it holds. -/
theorem diagnostics_kept_iff (float : FloatReader) (original : Option Jsonb)
    (hkeys : ((topFields original).map Prod.fst).Nodup) :
    DiagnosticsKept float original ↔ ∀ j, original = some j → Lossless float j := by
  cases original with
  | none =>
    refine ⟨fun _ j hj => (by cases hj),fun _ =>
      ⟨fun reason => ?_,accumulated_of_settled (settled_fresh float)⟩⟩
    refine ⟨decodeExtraInfo_appendFailure none reason,fun _ name w _ hw => (by cases hw),?_⟩
    exact fun j hj => by cases hj
  | some j =>
    refine ⟨fun h j' hj' => ?_,fun h =>
      ⟨retained_of_lossless (h j rfl) hkeys,
        accumulated_of_settled (settled_first (h j rfl) hkeys)⟩⟩
    cases hj'
    exact lossless_of_kept hkeys h

/-- A history next to a number. -/
def withNumber (n : ℤ) : Jsonb :=
  ⟨.object [("errors",.array [.string "old"]),("limit",.number ⟨n,0⟩)],by rfl⟩

/-- A number that no `f64` holds, here 1e310, makes `Value` refuse the text: the history is lost. -/
theorem diagnostics_lost : ¬DiagnosticsKept .integersOnly (some (withNumber (10^155*10^155))) := by
  intro h
  have hhistory := (h.retained "new").history
  have hlost : decodeExtraInfo (appendFailure (rawExtraInfo .integersOnly
      (some (withNumber (10^155*10^155)))) "new") = some ⟨["new"]⟩ := by rfl
  rw [hlost] at hhistory
  exact absurd hhistory (by decide)

theorem lossless_withNumber : Lossless .integersOnly (withNumber 42) := by
  refine ⟨fun _ _ _ => ⟨⟨_,rfl,by decide⟩,fun n hn => ?_⟩,fun _ h => (by cases h),
    fun h => (by cases h)⟩
  rw [List.mem_singleton.mp hn]
  exact lasting_of_exact rfl

theorem diagnostics_kept_withNumber : DiagnosticsKept .integersOnly (some (withNumber 42)) :=
  (diagnostics_kept_iff .integersOnly (some (withNumber 42)) (by decide)).mpr fun j hj => by
      cases hj
      exact lossless_withNumber

end Guarantee

section Terminal

variable {float : FloatReader} {t : Rows (outboxQueue float)} {id token : Uuid}
  {r : Row (outboxQueue float).Own}

/-- What the terminal transition must leave of a row: every other field, and the old history
with the reason if one was given. -/
def DeadRetains (t' : Rows (outboxQueue float)) (r : Row (outboxQueue float).Own)
    (reason : Option String) : Prop :=
  ∃ r', t'.find? r.id = some r' ∧
    KeepsFields (topFields r.extraInfo) (topFields r'.extraInfo) ∧
    readExtraInfo r'.extraInfo ≠ none ∧
    oldErrors r'.extraInfo = oldErrors r.extraInfo++reason.toList

/-- A typed history is written without any other field. -/
theorem field_bindHistory {history : Option ExtraInfo} {extraInfo : Option Jsonb}
    (h : bindHistory history = .ok extraInfo) {name : String} (hne : name ≠ "errors") :
    Json.field (topFields extraInfo) name = none := by
  cases history with
  | none => cases h; rfl
  | some info =>
    rw [bindHistory] at h
    cases hc : castJsonb (encodeExtraInfo info) with
    | error e => rw [hc] at h; cases h
    | ok j =>
      rw [hc] at h
      cases h
      rw [topFields,Option.elim_some,← castJsonb_eq_ok.mp hc,encodeExtraInfo]
      split
      · rfl
      · rw [fieldsOf,Json.field_cons,if_neg hne.symm]
        rfl

/-- The terminal transition of the outbox retains the diagnostics of the row it ends if and
only if they have no field but the errors. -/
theorem dead_retains_iff (float : FloatReader) (t : Rows (outboxQueue float)) {id token : Uuid}
    {r : Row (outboxQueue float).Own} (hf : t.find? id = some r) (hr : r.heldBy token = true)
    (hread : readExtraInfo r.extraInfo ≠ none) {reason : Option String} {now : Timestamp}
    (hok : (dead t id token reason now).1 = .ok ()) :
    DeadRetains (dead t id token reason now).2 r reason ↔
      ∀ name, name ≠ "errors" → Json.field (topFields r.extraInfo) name = none := by
  obtain ⟨history,hh⟩ := Option.ne_none_iff_exists'.mp hread
  have hs : ∀ s, reason = some s → nulFree s = true := by
    rintro s rfl
    cases hn : nulFree s with
    | true => rfl
    | false =>
      obtain ⟨e,he⟩ : ∃ e, dead t id token (some s) now = (.error e,t) := dead_of_nul hn now
      rw [he] at hok
      cases hok
  obtain ⟨extraInfo,hx,hb,hdead⟩ := dead_of_held hf hr hh hs now
  have hid := Table.key_of_find? hf
  have hfound : (dead t id token reason now).2.find? r.id =
      some (deadRow extraInfo reason now r) := by
    rw [hdead,hid]
    exact Table.find?_updateAt_self hf _ (deadRow_id extraInfo reason now)
  constructor
  · rintro ⟨r',hr',hkeeps,_⟩ name hne
    rw [hfound] at hr'
    cases hr'
    cases hfield : Json.field (topFields r.extraInfo) name with
    | none => rfl
    | some v =>
      obtain ⟨w,hw,_⟩ := hkeeps name v hne hfield
      have hgone : Json.field (topFields extraInfo) name = none := field_bindHistory hb hne
      rw [deadRow,hgone] at hw
      cases hw
  · intro hnone
    refine ⟨_,hfound,fun name v hne hv => ?_,?_,?_⟩
    · rw [hnone name hne] at hv
      cases hv
    · rw [deadRow,hx]
      simp
    · rw [oldErrors,deadRow,hx,Option.elim_some,oldErrors,hh,Option.elim_some,
        FailureHistory.deadHistory_errors]

/-- A reserved entry with diagnostics. -/
def diagnosed (extraInfo : Jsonb) : Row (Option String) :=
  ⟨.fromU128 1,2,"{}",none,0,1,some (.fromU128 7),some 0,0,0,none,some extraInfo,none⟩

/-- The entry alone in its table. -/
def diagnosedTable (extraInfo : Jsonb) : Rows (outboxQueue .integersOnly) :=
  ⟨[diagnosed extraInfo],List.nodup_singleton _⟩

/-- A field that a failure retains is gone after the terminal transition. -/
theorem dead_drops_fields :
    Retained (some (withNumber 42)) "gave up"
      (appendFailure (rawExtraInfo .integersOnly (some (withNumber 42))) "gave up") ∧
    (dead (diagnosedTable (withNumber 42)) (.fromU128 1) (.fromU128 7) (some "gave up") 1).1 =
      .ok () ∧
    ¬DeadRetains (dead (diagnosedTable (withNumber 42)) (.fromU128 1) (.fromU128 7)
      (some "gave up") 1).2 (diagnosed (withNumber 42)) (some "gave up") := by
  refine ⟨retained_of_lossless lossless_withNumber (by decide) "gave up",rfl,?_⟩
  rintro ⟨r',hr',hkeeps,_⟩
  cases hr'
  obtain ⟨w,hw,_⟩ := hkeeps "limit" (.number ⟨42,0⟩) (by decide) rfl
  cases hw

theorem dead_retains_errors :
    DeadRetains (dead (diagnosedTable ⟨.object [("errors",.array [.string "old"])],by rfl⟩)
      (.fromU128 1) (.fromU128 7) (some "gave up") 1).2
        (diagnosed ⟨.object [("errors",.array [.string "old"])],by rfl⟩) (some "gave up") :=
  (dead_retains_iff .integersOnly (diagnosedTable ⟨.object [("errors",.array [.string "old"])],
    by rfl⟩) (r:=diagnosed ⟨.object [("errors",.array [.string "old"])],by rfl⟩) rfl rfl
      (fun h => by cases h) rfl).mpr fun name hne => by
        rw [topFields,diagnosed,Option.elim_some,fieldsOf,Json.field_cons,if_neg hne.symm]
        rfl

end Terminal

end Mulac.FailureDiagnostics
