import Mulac.Envelopes
import Mulac.KeyedTable

/-!
# Rows, quarantined errors and queue profiles

A row of one of the four queue tables, the error history a failure leaves in
its `extra_info`, and the profile that says where the four hand-written
repositories differ: their own column, their metadata, their conversions, their
delays, their timeout rule and their errors.
-/

namespace Mulac.QueueRow

open JsonValue Identifiers Postgres SerdeJson QueueDomain KeyedTable

/-- A row of `command_entries`, `event_entries`, `inbox_entries` or
`outbox_entries`; `own` is the column that only that table has. -/
@[ext] structure Row (χ : Type) where
  /-- The primary key. -/
  id : Uuid
  /-- The status code. -/
  status : ℤ
  /-- The serialized message. -/
  payload : String
  /-- The metadata. -/
  metadata : Option Jsonb
  /-- When the row is due. -/
  scheduledAt : Timestamp
  /-- How often the row was reserved. -/
  attempts : ℤ
  /-- The token that owns the row. -/
  reservationId : Option Uuid
  /-- When the row was reserved. -/
  reservedAt : Option Timestamp
  /-- When the message was received. -/
  receivedAt : Timestamp
  /-- When the row was last changed. -/
  updatedAt : Timestamp
  /-- When the row was completed. -/
  processedAt : Option Timestamp
  /-- The error history, in whatever JSON it holds. -/
  extraInfo : Option Jsonb
  /-- The table's own column. -/
  own : χ

variable {χ : Type}

/-- The guard `reservation_id = token AND status = Reserved`. -/
def Row.heldBy (r : Row χ) (token : Uuid) : Bool :=
  r.reservationId = some token && r.status = Status.reserved.code

theorem Row.heldBy_iff {r : Row χ} {token : Uuid} :
    r.heldBy token = true ↔ r.reservationId = some token ∧ r.status = Status.reserved.code := by
  simp [heldBy]

/-- A row has one owner. -/
theorem Row.heldBy_unique {r : Row χ} {a b : Uuid} (ha : r.heldBy a = true)
    (hb : r.heldBy b = true) : a = b := by
  rw [heldBy_iff] at ha hb
  exact Option.some.inj (ha.1.symm.trans hb.1)

section Failure

/-- The error history a row reads as, if its `extra_info` decodes. -/
def readExtraInfo (extraInfo : Option Jsonb) : Option (Option ExtraInfo) :=
  match extraInfo with
  | none => some none
  | some j => (decodeExtraInfo j.value).map some

/-- `raw_extra_info`: what a serde `Value` cannot represent is kept as its text. -/
def rawExtraInfo (float : FloatReader) (original : Option Jsonb) : Option Json :=
  original.map fun j => (fromStrValue float j.value).getD (.string j.text)

/-- The errors of an object whose `errors` is absent or an array of strings. -/
def stringErrors (fields : List (String × Json)) : Option (List String) :=
  match Json.field fields "errors" with
  | none => some []
  | some v => vecOf stringOf v

/-- `append_failure`. -/
def appendFailure (original : Option Json) (reason : String) : Json :=
  match original with
  | none => .object [("errors",.array [.string reason])]
  | some (.object fields) =>
    match stringErrors fields with
    | some errors =>
      .object (Json.setField fields "errors" (.array ((errors++[reason]).map .string)))
    | none => .object [("errors",.array [.string reason]),
        ("quarantined_extra_info",.object fields)]
  | some original => .object [("errors",.array [.string reason]),
      ("quarantined_extra_info",original)]

/-- An appended failure is an object. -/
theorem appendFailure_object (original : Option Json) (reason : String) :
    ∃ fields, appendFailure original reason = .object fields := by
  cases original with
  | none => exact ⟨_,rfl⟩
  | some v =>
    cases v with
    | object fields => cases h : stringErrors fields <;> exact ⟨_,by rw [appendFailure,h]⟩
    | null => exact ⟨_,rfl⟩
    | bool b => exact ⟨_,rfl⟩
    | number n => exact ⟨_,rfl⟩
    | string s => exact ⟨_,rfl⟩
    | array items => exact ⟨_,rfl⟩

/-- The errors that `append_failure` keeps. -/
def keptErrors : Option Json → List String
  | some (.object fields) => (stringErrors fields).getD []
  | _ => []

theorem structField_setField (fields : List (String × Json)) (name : String) (v : Json) :
    structField (Json.setField fields name v) name = some (some v) := by
  rw [structField,Json.filter_setField]

/-- Whatever stood there, an appended failure decodes, and its last error is the
reason. -/
theorem decodeExtraInfo_appendFailure (original : Option Json) (reason : String) :
    decodeExtraInfo (appendFailure original reason) = some ⟨keptErrors original++[reason]⟩ := by
  have hq : ∀ v, decodeExtraInfo (.object [("errors",.array [.string reason]),
      ("quarantined_extra_info",v)]) = some ⟨[reason]⟩ := by
    intro v
    simp [decodeExtraInfo,structField,vecOf,stringOf]
  have hfresh : decodeExtraInfo (.object [("errors",.array [.string reason])]) =
      some ⟨[reason]⟩ := by
    simp [decodeExtraInfo,structField,vecOf,stringOf]
  cases original with
  | none => exact hfresh
  | some v =>
    cases v with
    | object fields =>
      cases hs : stringErrors fields with
      | none =>
        simp only [appendFailure,hs,keptErrors,Option.getD_none,List.nil_append]
        exact hq _
      | some errors =>
        simp only [appendFailure,hs,keptErrors,Option.getD_some,decodeExtraInfo,
          structField_setField,Option.bind_some,vecOf_strings,Option.map_some]
    | null => exact hq _
    | bool b => exact hq _
    | number n => exact hq _
    | string s => exact hq _
    | array items => exact hq _

/-- An appended failure can be stored exactly when its reason can, provided what
stood there can. -/
theorem appendFailure_storable {original : Option Json}
    (ho : ∀ v, original = some v → v.allTexts nulFree = true) (reason : String) :
    (appendFailure original reason).allTexts nulFree = nulFree reason := by
  have hk : nulFree "errors" = true ∧ nulFree "quarantined_extra_info" = true := by decide
  have hq : ∀ v : Json, v.allTexts nulFree = true →
      (Json.object [("errors",.array [.string reason]),
        ("quarantined_extra_info",v)]).allTexts nulFree = nulFree reason := by
    intro v hv
    simp [Json.allTexts,Json.allTextsFields,Json.allTextsItems,hk,hv]
  cases original with
  | none => simp [appendFailure,Json.allTexts,Json.allTextsFields,Json.allTextsItems,hk]
  | some v =>
    have hv := ho v rfl
    cases v with
    | object fields =>
      cases hs : stringErrors fields with
      | none => simp only [appendFailure,hs]; exact hq _ hv
      | some errors =>
        have he : ∀ s ∈ errors, nulFree s = true := by
          unfold stringErrors at hs
          split at hs
          · cases hs; simp
          · next w hw =>
            have := Json.allTexts_field nulFree hv hw
            rw [vecOf_eq_strings hs] at this
            exact allTextsItems_strings.mp this
        have hr : Json.allTextsFields nulFree (Json.removeField fields "errors") = true := by
          have hf := (Json.allTextsFields_iff nulFree).mp hv
          exact (Json.allTextsFields_iff nulFree).mpr fun f h => hf f (List.mem_filter.mp h).1
        simp only [appendFailure,hs,Json.allTexts,Json.setField,Json.allTextsFields_append,hr,
          Json.allTextsFields,hk,Bool.true_and,Bool.and_true]
        rw [Bool.eq_iff_iff,allTextsItems_strings]
        simp only [List.mem_append,List.mem_singleton]
        exact ⟨fun h => h reason (.inr rfl),fun h s hs => hs.elim (he s) (fun e => e ▸ h)⟩
    | null => exact hq _ hv
    | bool b => exact hq _ hv
    | number n => exact hq _ hv
    | string s => exact hq _ hv
    | array items => exact hq _ hv

/-- What `raw_extra_info` makes of a stored value can be stored. -/
theorem rawExtraInfo_storable (float : FloatReader) (original : Option Jsonb) :
    ∀ v, rawExtraInfo float original = some v → v.allTexts nulFree = true := by
  intro v hv
  obtain ⟨j,_,rfl⟩ := Option.map_eq_some_iff.mp hv
  cases h : fromStrValue float j.value with
  | none => simpa [Json.allTexts] using j.text_nulFree
  | some w => exact fromStrValue_texts h nulFree j.storable

/-- The `extra_info` that `write_failure` writes: the original cast back and
forth, or the original with the reason appended. -/
def failureExtraInfo (float : FloatReader) (original : Option Jsonb) (reason : Option String) :
    Except DieselError (Option Jsonb) :=
  match reason with
  | none => .ok original
  | some reason => (castJsonb (appendFailure (rawExtraInfo float original) reason)).map some

/-- A reason that can be stored is recorded. -/
theorem failureExtraInfo_ok (float : FloatReader) (original : Option Jsonb)
    {reason : Option String} (h : ∀ s, reason = some s → nulFree s = true) :
    ∃ e, failureExtraInfo float original reason = .ok e := by
  cases reason with
  | none => exact ⟨original,rfl⟩
  | some s =>
    have hs := appendFailure_storable (rawExtraInfo_storable float original) s
    rw [h s rfl] at hs
    exact ⟨_,by rw [failureExtraInfo,castJsonb_ok hs]; rfl⟩

/-- A reason that cannot be stored fails the statement. -/
theorem failureExtraInfo_error (float : FloatReader) (original : Option Jsonb) {reason : String}
    (h : nulFree reason = false) :
    ∃ e, failureExtraInfo float original (some reason) = .error e := by
  have hs := appendFailure_storable (rawExtraInfo_storable float original) reason
  obtain ⟨e,he⟩ := castJsonb_error (hs.trans h)
  exact ⟨e,by rw [failureExtraInfo,he]; rfl⟩

/-- What was recorded for a reason. -/
theorem failureExtraInfo_some {float : FloatReader} {original : Option Jsonb} {reason : String}
    {e : Option Jsonb} (h : failureExtraInfo float original (some reason) = .ok e) :
    ∃ j, e = some j ∧ j.value = appendFailure (rawExtraInfo float original) reason := by
  rw [failureExtraInfo] at h
  cases hc : castJsonb (appendFailure (rawExtraInfo float original) reason) with
  | error d => rw [hc] at h; cases h
  | ok j =>
    rw [hc] at h
    cases h
    exact ⟨j,rfl,(castJsonb_eq_ok.mp hc).symm⟩

/-- The recorded history decodes and ends with the reason. -/
theorem readExtraInfo_failure {float : FloatReader} {original : Option Jsonb} {reason : String}
    {e : Option Jsonb} (h : failureExtraInfo float original (some reason) = .ok e) :
    readExtraInfo e = some (some ⟨keptErrors (rawExtraInfo float original)++[reason]⟩) := by
  obtain ⟨j,rfl,hj⟩ := failureExtraInfo_some h
  simp [readExtraInfo,hj,decodeExtraInfo_appendFailure]

end Failure

section Profile

/-- Why a reserved row does not decode. -/
inductive DecodeError where
  /-- The error history does not decode. -/
  | invalidExtraInfo
  /-- The row has no token. -/
  | missingReservation
  /-- The row has no metadata. -/
  | missingMetadata
  /-- The metadata does not decode. -/
  | invalidMetadata
  /-- The status code is unknown. -/
  | invalidStatus
  deriving DecidableEq

/-- The static text of a decode error. -/
def DecodeError.text : DecodeError → String
  | invalidExtraInfo => "invalid extra_info"
  | missingReservation => "missing reservation"
  | missingMetadata => "missing metadata"
  | invalidMetadata => "invalid metadata"
  | invalidStatus => "invalid status"

theorem DecodeError.text_nulFree (e : DecodeError) : nulFree e.text = true := by
  cases e <;> decide

/-- The fields that the envelopes of all four queues carry. -/
@[ext] structure Handed (μ : Type) where
  /-- The row's id. -/
  id : Uuid
  /-- The token the row is reserved by. -/
  reservationId : Option Uuid
  /-- The stored payload. -/
  payload : String
  /-- The stored metadata. -/
  metadata : μ
  /-- The row's error history. -/
  extraInfo : Option ExtraInfo
  /-- How often the row was reserved. -/
  attempts : ℤ

/-- A row as a `record` or `store` call inserts it: the status, the attempts and
the columns left NULL are the table's defaults. -/
structure NewRow (χ : Type) where
  /-- The primary key. -/
  id : Uuid
  /-- The serialized message. -/
  payload : String
  /-- The serialized metadata. -/
  metadata : Json
  /-- When the row is due. -/
  scheduledAt : Timestamp
  /-- When the message was received. -/
  receivedAt : Timestamp
  /-- When the row was last changed. -/
  updatedAt : Timestamp
  /-- The table's own column. -/
  own : χ

/-- Where the four repositories differ. -/
structure Queue where
  /-- The type of the table's own column. -/
  Own : Type
  /-- The metadata of an envelope. -/
  Metadata : Type
  /-- What a reservation hands out. -/
  Envelope : Type
  /-- What a caller records. -/
  NewEntry : Type
  /-- The library's error type. -/
  Error : Type
  /-- How serde_json reads the numbers it needs floating point for. -/
  float : FloatReader
  /-- `Display for` the error type. -/
  display : Error → String
  /-- The conversion of a new entry into the row to insert, given the
  application's clock and the database's. -/
  newRow : NewEntry → Timestamp → Timestamp → Except Error (NewRow Own)
  /-- The text parameters of the own column. -/
  ownTexts : Own → List String
  /-- The metadata a row reads as. -/
  readMetadata : Option Jsonb → Except DecodeError Metadata
  /-- The envelope of a row, once its token, its metadata and its history are read. -/
  envelope : Row Own → Uuid → Metadata → Option ExtraInfo → Except DecodeError Envelope
  /-- The fields of an envelope that all queues have. -/
  handed : Envelope → Handed Metadata
  /-- A reserved row always makes an envelope, from its own fields. -/
  envelope_reserved : ∀ (r : Row Own) token metadata history,
    r.status = Status.reserved.code → ∃ e, envelope r token metadata history = .ok e ∧
      handed e = ⟨r.id,some token,r.payload,metadata,history,r.attempts⟩
  /-- The seconds a failed row waits, from its attempts. -/
  failureDelay : ℤ → ℤ
  /-- When a failed row is due again: retry limit, attempts, delay, now, old schedule. -/
  failureSchedule : ℤ → ℤ → ℤ → Timestamp → Timestamp → Timestamp
  /-- The text parameters that a failure binds besides the history. -/
  failureTexts : Option String → List String
  /-- Every text a failure binds is its reason. -/
  failureTexts_reason : ∀ reason, ∀ s ∈ failureTexts reason, reason = some s
  /-- The own column after a failure or a terminal transition with a reason. -/
  setLastError : Option String → Own → Own
  /-- The own column after completion. -/
  clearLastError : Own → Own
  /-- The status and the schedule after a timeout. -/
  timeoutOutcome : ReservationTimeoutPolicy → ℤ → Timestamp → Timestamp → Status × Timestamp
  /-- A timed-out row is `Failed`. -/
  timeoutOutcome_failed : ∀ policy attempts now previous,
    (timeoutOutcome policy attempts now previous).1 = .failed
  /-- What a timeout appends to the history. -/
  timeoutMessage : String
  /-- The message can be stored. -/
  timeoutMessage_nulFree : nulFree timeoutMessage = true
  /-- The error of a failed statement. -/
  storageError : String → Error
  /-- The error of a failed reservation. -/
  reserveError : String → Error
  /-- The error of a finalization without the reservation. -/
  notOwned : Uuid → Uuid → Error
  /-- Whether the port of the queue has `dead`. -/
  hasDead : Bool

end Profile

end Mulac.QueueRow
