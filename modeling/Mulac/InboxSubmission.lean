import Mulac.Envelopes
import Mulac.CallTrace

/-!
# Submissions over HTTP

A body is read into a `SubmitInboxRequest` by serde's derived reader, and what
the reader lets through is checked before the store is called. The reader takes
an object by name and an array by position, so the contract is kept for every
body but an array that holds the five fields in their order.
-/

namespace Mulac.InboxSubmission

open JsonValue Identifiers SerdeJson Envelopes PanicProgram CallTrace

section Errors

/-- `JoinError`: the task never ran, or it panicked. -/
inductive JoinError where
  /-- The runtime is shutting down. -/
  | cancelled
  /-- The panic was caught. -/
  | panicked
  deriving DecidableEq

/-- What a reported error has as its source. -/
inductive Cause where
  /-- The body does not read as the struct. -/
  | json
  /-- The store refused the message. -/
  | inbox (error : InboxError)
  /-- The task came to nothing. -/
  | join (error : JoinError)
  deriving DecidableEq

/-- `ReportedError`. -/
structure ReportedError where
  /-- What the cause is logged under. -/
  id : Uuid
  /-- The cause. -/
  cause : Cause
  deriving DecidableEq

/-- `Display for ReportedError`. -/
def ReportedError.display (e : ReportedError) : String := e.id.display

/-- `InboxApiError`, as far as a submission fails; nothing reads the errors of `uuid`. -/
inductive InboxApiError where
  /-- The body does not read as the struct. -/
  | malformedRequest (report : ReportedError)
  /-- There is no payload. -/
  | payloadRequired
  /-- The payload holds nothing. -/
  | payloadEmpty
  /-- There is no source, or it holds no text. -/
  | sourceBlank
  /-- The routing key holds no text. -/
  | routingKeyBlank
  /-- The message id does not parse. -/
  | messageIdNotUuid
  /-- The correlation id does not parse. -/
  | correlationIdNotUuid
  /-- The store refused the message. -/
  | storageFailed (report : ReportedError)
  /-- The task came to nothing. -/
  | submissionTaskFailed (report : ReportedError)
  deriving DecidableEq

namespace InboxApiError

/-- `Display for InboxApiError`. -/
def display : InboxApiError → String
  | malformedRequest report => report.display
  | payloadRequired => "payload is required"
  | payloadEmpty => "payload must not be empty"
  | sourceBlank => "source must contain non-whitespace text"
  | routingKeyBlank => "routing_key must contain non-whitespace text"
  | messageIdNotUuid => "message_id must be a UUID"
  | correlationIdNotUuid => "correlation_id must be a UUID"
  | storageFailed report => report.display
  | submissionTaskFailed report => report.display

/-- `is_client_error`. -/
def isClientError : InboxApiError → Bool
  | malformedRequest _ => true
  | payloadRequired => true
  | payloadEmpty => true
  | sourceBlank => true
  | routingKeyBlank => true
  | messageIdNotUuid => true
  | correlationIdNotUuid => true
  | storageFailed _ => false
  | submissionTaskFailed _ => false

/-- A server failure shows its id and nothing of its cause. -/
theorem display_of_server {e : InboxApiError} (h : e.isClientError = false) :
    ∃ id : Uuid, e.display = id.display := by
  cases e with
  | storageFailed report => exact ⟨report.id,rfl⟩
  | submissionTaskFailed report => exact ⟨report.id,rfl⟩
  | malformedRequest report => cases h
  | payloadRequired => cases h
  | payloadEmpty => cases h
  | sourceBlank => cases h
  | routingKeyBlank => cases h
  | messageIdNotUuid => cases h
  | correlationIdNotUuid => cases h

end InboxApiError

/-- `err_malformed_request`. -/
def errMalformedRequest (reported : Uuid) : InboxApiError := .malformedRequest ⟨reported,.json⟩

/-- `err_storage_failed`. -/
def errStorageFailed (reported : Uuid) (error : InboxError) : InboxApiError :=
  .storageFailed ⟨reported,.inbox error⟩

/-- `err_submission_task_failed`. -/
def errSubmissionTaskFailed (reported : Uuid) (error : JoinError) : InboxApiError :=
  .submissionTaskFailed ⟨reported,.join error⟩

end Errors

section Reading

/-- `SubmitInboxRequest`. -/
structure SubmitInboxRequest where
  /-- The payload, if there is one; it may be `null`. -/
  payload : Option Json
  /-- The command type. -/
  routingKey : String
  /-- What deduplicates the message. -/
  messageId : Option String
  /-- The conversation the message belongs to. -/
  correlationId : Option String
  /-- Where the message came from. -/
  source : Option String

/-- `present_value`: a payload that is there, also when it is `null`. -/
def presentValue (v : Json) : Option (Option Json) := some (some v)

/-- `next_element` of a sequence, or what stands for an element that is missing. -/
def nextElement {α : Type} (read : Json → Option α) (missing : Option α) :
    List Json → Option (α × List Json)
  | [] => missing.map (·,[])
  | v::items => (read v).map (·,items)

/-- `Deserialize for SubmitInboxRequest`: an object by name and an array by position. -/
def SubmitInboxRequest.ofValue : Json → Option SubmitInboxRequest
  | .object fields => do
    let payload ← (structField fields "payload").bind fun v => v.elim (some none) presentValue
    let routingKey ← requiredField stringOf fields "routing_key"
    let messageId ← optionalField stringOf fields "message_id"
    let correlationId ← optionalField stringOf fields "correlation_id"
    let source ← optionalField stringOf fields "source"
    return ⟨payload,routingKey,messageId,correlationId,source⟩
  | .array items => do
    let (payload,items) ← nextElement presentValue (some none) items
    let (routingKey,items) ← nextElement stringOf none items
    let (messageId,items) ← nextElement (optionOf stringOf) (some none) items
    let (correlationId,items) ← nextElement (optionOf stringOf) (some none) items
    let (source,items) ← nextElement (optionOf stringOf) (some none) items
    if items.isEmpty then return ⟨payload,routingKey,messageId,correlationId,source⟩ else none
  | _ => none

end Reading

section Validation

/-- Whether a payload holds nothing, as `guard` tells it. -/
def emptyPayload : Json → Bool
  | .null => true
  | .string s => blank s
  | .array items => items.isEmpty
  | .object fields => fields.isEmpty
  | .bool _ => false
  | .number _ => false

/-- `parse_uuid`. -/
def parseUuid : Option String → Option (Option Uuid)
  | none => some none
  | some s => (Uuid.parseStr s).map some

namespace SubmitInboxRequest

/-- `guard`. -/
def guard (r : SubmitInboxRequest) : Except InboxApiError Unit :=
  match r.payload with
  | none => .error .payloadRequired
  | some payload =>
    if emptyPayload payload then .error .payloadEmpty
    else if blank r.routingKey then .error .routingKeyBlank
    else if r.source.all blank then .error .sourceBlank
    else .ok ()

/-- `parsed_ids`. -/
def parsedIds (r : SubmitInboxRequest) : Except InboxApiError (Option Uuid × Option Uuid) := do
  r.guard
  let messageId ← (parseUuid r.messageId).elim (.error .messageIdNotUuid) .ok
  let correlationId ← (parseUuid r.correlationId).elim (.error .correlationIdNotUuid) .ok
  return (messageId,correlationId)

/-- `validate`. -/
def validate (r : SubmitInboxRequest) : Except InboxApiError Unit := do
  let _ ← r.parsedIds

/-- `parse_json`; `reported` is the id that a failure is reported under. -/
def parseJson (reported : Uuid) (body : Json) : Except InboxApiError SubmitInboxRequest :=
  (ofValue body).elim (.error (errMalformedRequest reported)) .ok

/-- `from_json`. -/
def fromJson (reported : Uuid) (body : Json) : Except InboxApiError SubmitInboxRequest := do
  let request ← parseJson reported body
  request.validate
  return request

/-- `TryFrom<SubmitInboxRequest> for NewInboxMessageEnvelope`; `drawn` is what `Uuid::now_v7`
returns when the body gave no id. -/
def tryFrom (float : FloatWriter) (drawn : Uuid) (r : SubmitInboxRequest) :
    Except InboxApiError NewInboxMessageEnvelope := do
  let (messageId,correlationId) ← r.parsedIds
  let payload := r.payload.getD .null
  return .ofInbound drawn
    ⟨displayValue float payload,messageId,correlationId,r.source,some r.routingKey⟩

end SubmitInboxRequest

end Validation

section Service

/-- What a submission asks for outside. -/
inductive ServiceOp where
  /-- `tokio::task::spawn_blocking`. -/
  | spawnBlocking
  /-- `InboxStorePort::store`. -/
  | store (m : NewInboxMessageEnvelope)
  deriving DecidableEq

/-- What comes back; for a task, whether the blocking pool runs it. -/
abbrev ServiceOp.Reply : ServiceOp → Type
  | spawnBlocking => Bool
  | store _ => Except InboxError Unit

/-- `SubmitInboxResponse`. -/
structure SubmitInboxResponse where
  /-- The id of the stored message. -/
  messageId : String
  deriving DecidableEq

/-- What a submission comes to. -/
abbrev Submitted : Type := Except InboxApiError SubmitInboxResponse

/-- The `submit` closure of `AsyncInboxService::new`. -/
def submitTask (float : FloatWriter) (drawn reported : Uuid) (request : SubmitInboxRequest) :
    Prog ServiceOp ServiceOp.Reply Submitted :=
  match request.tryFrom float drawn with
  | .error e => return .error e
  | .ok envelope => do
    let messageId := envelope.messageId.display
    match ← Prog.perform (ServiceOp.store envelope) with
    | .error e => return .error (errStorageFailed reported e)
    | .ok () => return .ok ⟨messageId⟩

/-- `AsyncInboxService::submit`. -/
def submit (float : FloatWriter) (drawn reported : Uuid) (request : SubmitInboxRequest) :
    Prog ServiceOp ServiceOp.Reply Submitted := do
  match ← Prog.perform ServiceOp.spawnBlocking with
  | false => return .error (errSubmissionTaskFailed reported .cancelled)
  | true =>
    match ← (submitTask float drawn reported request).catchUnwind with
    | none => return .error (errSubmissionTaskFailed reported .panicked)
    | some result => return result

/-- What an adapter does with a body: the extractor's `parse_json`, then `submit`. -/
def submitBody (float : FloatWriter) (drawn reported : Uuid) (body : Json) :
    Prog ServiceOp ServiceOp.Reply Submitted :=
  match SubmitInboxRequest.parseJson reported body with
  | .error e => return .error e
  | .ok request => submit float drawn reported request

end Service

section Statements

/-- A text that is more than whitespace. -/
def HasText (s : String) : Prop := ∃ c ∈ s.toList, isWhitespace c = false

/-- A payload that holds nothing. -/
inductive HoldsNothing : Json → Prop where
  /-- `null`. -/
  | null : HoldsNothing .null
  /-- A blank string. -/
  | string {s : String} : ¬HasText s → HoldsNothing (.string s)
  /-- An array without items. -/
  | array : HoldsNothing (.array [])
  /-- An object without fields. -/
  | object : HoldsNothing (.object [])

/-- An id that may be left out, and what it is. -/
inductive OptionalId : Option Json → Option Uuid → Prop where
  /-- It is left out. -/
  | absent : OptionalId none none
  /-- It is `null`. -/
  | null : OptionalId (some .null) none
  /-- It is a string that parses. -/
  | parsed {s : String} {id : Uuid} : Uuid.parseStr s = some id →
      OptionalId (some (.string s)) (some id)

/-- What a client asks to store. -/
structure Submission where
  /-- The payload. -/
  payload : Json
  /-- The command type. -/
  routingKey : String
  /-- Where the message comes from. -/
  source : String
  /-- What deduplicates the message, if the client says. -/
  messageId : Option Uuid
  /-- The conversation, if the client says. -/
  correlationId : Option Uuid

/-- Values under names ask for a submission, and for one that the contract allows. -/
structure Asks (lookup : String → Option Json) (x : Submission) : Prop where
  /-- The payload is there. -/
  payload : lookup "payload" = some x.payload
  /-- It holds something. -/
  filled : ¬HoldsNothing x.payload
  /-- The routing key is a string. -/
  routingKey : lookup "routing_key" = some (.string x.routingKey)
  /-- It is more than whitespace. -/
  routed : HasText x.routingKey
  /-- The source is a string. -/
  source : lookup "source" = some (.string x.source)
  /-- It is more than whitespace. -/
  sourced : HasText x.source
  /-- The message id may be left out. -/
  messageId : OptionalId (lookup "message_id") x.messageId
  /-- The correlation id may be left out. -/
  correlationId : OptionalId (lookup "correlation_id") x.correlationId

/-- The message that a submission stores; without an id it gets the one that is drawn. -/
def Submission.message (float : FloatWriter) (drawn : Uuid) (x : Submission) :
    NewInboxMessageEnvelope where
  payload := displayValue float x.payload
  messageId := x.messageId.getD drawn
  correlationId := x.correlationId
  source := some x.source
  routingKey := some x.routingKey

/-- A body that asks for a submission by name. -/
def Fulfils (body : Json) : Prop :=
  ∃ fields x, body = .object fields ∧ Asks (Json.field fields) x

/-- The names of the fields, as `SubmitInboxRequest` declares them. -/
def fieldNames : List String :=
  ["payload","routing_key","message_id","correlation_id","source"]

/-- A body that asks for a submission by position. -/
def Positional (body : Json) : Prop :=
  ∃ items x, body = .array items ∧ items.length = fieldNames.length ∧
    Asks (Json.field (fieldNames.zip items)) x

/-- A body as `serde_json` holds it: an object has every name once. -/
structure Body where
  /-- The value. -/
  value : Json
  /-- No name occurs twice. -/
  distinct : ∀ fields, value = .object fields → (fields.map Prod.fst).Nodup

end Statements

section Requests

variable {lookup : String → Option Json} {x : Submission} {r : SubmitInboxRequest}
  {fields : List (String × Json)} {items : List Json}

theorem blank_eq_true {s : String} : blank s = true ↔ ¬HasText s := by
  simp [blank,HasText]

theorem emptyPayload_eq_true {v : Json} : emptyPayload v = true ↔ HoldsNothing v := by
  constructor
  · intro h
    cases v with
    | null => exact .null
    | string s => exact .string (blank_eq_true.mp h)
    | array items =>
      obtain rfl := List.isEmpty_iff.mp h
      exact .array
    | object fields =>
      obtain rfl := List.isEmpty_iff.mp h
      exact .object
    | bool b => cases h
    | number n => cases h
  · intro h
    cases h with
    | null => rfl
    | string hs => exact blank_eq_true.mpr hs
    | array => rfl
    | object => rfl

/-- What passes `guard`. -/
theorem guard_eq_ok : r.guard = .ok () ↔ ∃ payload source, r.payload = some payload ∧
    ¬HoldsNothing payload ∧ HasText r.routingKey ∧ r.source = some source ∧ HasText source := by
  have htext : ∀ {s}, ¬blank s = true ↔ HasText s := by
    intro s
    rw [blank_eq_true,not_not]
  constructor
  · intro h
    rw [SubmitInboxRequest.guard] at h
    split at h
    · cases h
    · next payload hp =>
      split at h
      · cases h
      · next hempty =>
        split at h
        · cases h
        · next hkey =>
          cases hs : r.source with
          | none => rw [hs] at h; cases h
          | some source =>
            rw [hs,Option.all_some] at h
            split at h
            · cases h
            · next hsource =>
              exact ⟨payload,source,hp,fun hn => hempty (emptyPayload_eq_true.mpr hn),
                htext.mp hkey,rfl,htext.mp hsource⟩
  · rintro ⟨payload,source,hp,hempty,hkey,hs,hsource⟩
    rw [SubmitInboxRequest.guard,hp]
    dsimp only
    rw [if_neg fun h => hempty (emptyPayload_eq_true.mp h),if_neg (htext.mpr hkey),hs,
      Option.all_some,if_neg (htext.mpr hsource)]

/-- What passes `parsed_ids`. -/
theorem parsedIds_eq_ok {ids : Option Uuid × Option Uuid} : r.parsedIds = .ok ids ↔
    r.guard = .ok () ∧ parseUuid r.messageId = some ids.1 ∧
      parseUuid r.correlationId = some ids.2 := by
  obtain ⟨id,id'⟩ := ids
  rw [SubmitInboxRequest.parsedIds]
  cases r.guard with
  | error e => simp [bind,Except.bind]
  | ok u =>
    cases parseUuid r.messageId <;> cases parseUuid r.correlationId <;>
      simp [bind,Except.bind,pure,Except.pure]

/-- An optional string that stands under a name, or nothing when the name is missing. -/
def optionalString : Option Json → Option (Option String)
  | none => some none
  | some v => optionOf stringOf v

/-- The request that stands under the names of its fields. -/
def readFields (lookup : String → Option Json) : Option SubmitInboxRequest := do
  let routingKey ← (lookup "routing_key").bind stringOf
  let messageId ← optionalString (lookup "message_id")
  let correlationId ← optionalString (lookup "correlation_id")
  let source ← optionalString (lookup "source")
  return ⟨lookup "payload",routingKey,messageId,correlationId,source⟩

/-- An object is read by name. -/
theorem ofValue_object (h : (fields.map Prod.fst).Nodup) :
    SubmitInboxRequest.ofValue (.object fields) = readFields (Json.field fields) := by
  have hoptional : ∀ name, optionalField stringOf fields name =
      optionalString (Json.field fields name) := by
    intro name
    rw [optionalField,structField_of_nodup h,Option.bind_some]
    cases Json.field fields name <;> rfl
  have hpayload : (Json.field fields "payload").elim (some none) presentValue =
      some (Json.field fields "payload") := by
    cases Json.field fields "payload" <;> rfl
  simp only [SubmitInboxRequest.ofValue,readFields,requiredField,hoptional,
    structField_of_nodup h,Option.bind_some,hpayload,Option.bind_eq_bind]

/-- The next element is the one at the position that was reached. -/
theorem nextElement_drop {α : Type} (read : Json → Option α) (missing : Option α)
    (items : List Json) (i : ℕ) : nextElement read missing (items.drop i) =
      (items[i]?.elim missing read).map (·,items.drop (i+1)) := by
  rw [← List.head?_drop,← List.tail_drop]
  cases items.drop i <;> rfl

/-- Under the `i`-th of the names stands the `i`-th of the items. -/
theorem field_zip {names : List String} (hn : names.Nodup) (items : List Json) {i : ℕ}
    (hi : i < names.length) : Json.field (names.zip items) names[i] = items[i]? := by
  induction names generalizing items i with
  | nil => cases hi
  | cons name names ih =>
    cases items with
    | nil => rfl
    | cons item items =>
      rw [List.nodup_cons] at hn
      rw [List.zip_cons_cons,Json.field_cons]
      cases i with
      | zero => exact if_pos rfl
      | succ i =>
        have hi : i < names.length := Nat.lt_of_succ_lt_succ hi
        have hne : name ≠ names[i] := fun h => hn.1 (h ▸ List.getElem_mem hi)
        exact (if_neg hne).trans (ih hn.2 items hi)

/-- An array is read as if its items stood under the names, and not at all when it has more. -/
theorem ofValue_array (items : List Json) : SubmitInboxRequest.ofValue (.array items) =
    if items.length ≤ fieldNames.length then readFields (Json.field (fieldNames.zip items))
    else none := by
  have hfield : ∀ {i} (hi : i < fieldNames.length),
      Json.field (fieldNames.zip items) fieldNames[i] = items[i]? :=
    fun hi => field_zip (by decide) items hi
  have hread : readFields (Json.field (fieldNames.zip items)) = (do
      let routingKey ← items[1]?.bind stringOf
      let messageId ← optionalString items[2]?
      let correlationId ← optionalString items[3]?
      let source ← optionalString items[4]?
      return ⟨items[0]?,routingKey,messageId,correlationId,source⟩) := by
    rw [← hfield (i:=0) (by decide),← hfield (i:=1) (by decide),← hfield (i:=2) (by decide),
      ← hfield (i:=3) (by decide),← hfield (i:=4) (by decide)]
    rfl
  have hoptional : ∀ i : ℕ, items[i]?.elim (some none) (optionOf stringOf) =
      optionalString items[i]? := by
    intro i
    cases items[i]? <;> rfl
  have hkey : items[1]?.elim none stringOf = items[1]?.bind stringOf := by
    cases items[1]? <;> rfl
  have hpayload : items[0]?.elim (some none) presentValue = some items[0]? := by
    cases items[0]? <;> rfl
  have hend : (items.drop 5).isEmpty = true ↔ items.length ≤ fieldNames.length := by
    rw [List.isEmpty_iff,List.drop_eq_nil_iff]
    rfl
  have hstart : SubmitInboxRequest.ofValue (.array items) =
      SubmitInboxRequest.ofValue (.array (items.drop 0)) := rfl
  rw [hstart,SubmitInboxRequest.ofValue]
  simp only [nextElement_drop,hoptional,hkey,hpayload,Option.bind_eq_bind,Option.bind_map,
    Option.map_some,Option.bind_some,Function.comp_def,Nat.reduceAdd,hend]
  split
  · rw [hread]
    rfl
  · simp only [Option.bind_fun_none]

/-- What a short array leaves out is `None`. -/
example : SubmitInboxRequest.ofValue (.array [.number ⟨1,0⟩,.string "x"]) =
    some ⟨some (.number ⟨1,0⟩),"x",none,none,none⟩ := rfl

/-- An optional string is absent, `null` or a string. -/
theorem optionalString_eq_some {v : Option Json} {s : Option String} :
    optionalString v = some s ↔
      s = none ∧ (v = none ∨ v = some .null) ∨ ∃ t, s = some t ∧ v = some (.string t) := by
  cases v with
  | none => cases s <;> simp [optionalString]
  | some v =>
    by_cases hv : v = .null
    · subst hv
      cases s <;> simp [optionalString,optionOf]
    · have ho : optionalString (some v) = (stringOf v).map some := by
        rw [optionalString]
        exact optionOf.eq_2 _ _ hv
      simp only [ho,Option.map_eq_some_iff,stringOf_eq_some,Option.some.injEq,hv,or_false,
        reduceCtorEq,and_false,false_or]
      exact exists_congr fun t => by rw [and_comm,eq_comm]

theorem optionalId_iff {v : Option Json} {id : Option Uuid} :
    OptionalId v id ↔ ∃ s, optionalString v = some s ∧ parseUuid s = some id := by
  constructor
  · intro h
    cases h with
    | absent => exact ⟨none,rfl,rfl⟩
    | null => exact ⟨none,rfl,rfl⟩
    | parsed hs => exact ⟨_,rfl,congrArg (Option.map some) hs⟩
  · rintro ⟨s,hs,hid⟩
    obtain ⟨rfl,rfl | rfl⟩ | ⟨t,rfl,rfl⟩ := optionalString_eq_some.mp hs
    · cases hid
      exact .absent
    · cases hid
      exact .null
    · obtain ⟨u,hu,rfl⟩ := Option.map_eq_some_iff.mp hid
      exact .parsed hu

/-- A request that carries what a submission asks for. -/
structure Carries (r : SubmitInboxRequest) (x : Submission) : Prop where
  /-- The payload. -/
  payload : r.payload = some x.payload
  /-- The command type. -/
  routingKey : r.routingKey = x.routingKey
  /-- Where the message comes from. -/
  source : r.source = some x.source
  /-- The ids, once they are parsed. -/
  ids : r.parsedIds = .ok (x.messageId,x.correlationId)

/-- What is asked for under the names is carried by the request that is read there. -/
theorem Asks.carries (h : Asks lookup x) : ∃ r, readFields lookup = some r ∧ Carries r x := by
  obtain ⟨messageId,hmessage,hm⟩ := optionalId_iff.mp h.messageId
  obtain ⟨correlationId,hcorrelation,hc⟩ := optionalId_iff.mp h.correlationId
  refine ⟨⟨some x.payload,x.routingKey,messageId,correlationId,some x.source⟩,?_,?_⟩
  · rw [readFields,h.payload,h.routingKey,h.source,hmessage,hcorrelation]
    rfl
  · exact ⟨rfl,rfl,rfl,parsedIds_eq_ok.mpr
      ⟨guard_eq_ok.mpr ⟨x.payload,x.source,rfl,h.filled,h.routed,rfl,h.sourced⟩,hm,hc⟩⟩

/-- A request whose ids are parsed carries what is asked for under the names. -/
theorem asks_of_readFields (h : readFields lookup = some r) {ids : Option Uuid × Option Uuid}
    (hids : r.parsedIds = .ok ids) : ∃ x, Asks lookup x ∧ Carries r x := by
  obtain ⟨hguard,hm,hc⟩ := parsedIds_eq_ok.mp hids
  obtain ⟨payload,source,hp,hfilled,hrouted,hs,hsourced⟩ := guard_eq_ok.mp hguard
  simp only [readFields,Option.bind_eq_bind,Option.bind_eq_some_iff,Option.pure_def,
    Option.some.injEq] at h
  obtain ⟨routingKey,⟨key,hkey,hstring⟩,messageId,hmessage,correlationId,hcorrelation,source',
    hsource,rfl⟩ := h
  obtain rfl := stringOf_eq_some.mp hstring
  cases hs
  obtain ⟨hnone,_⟩ | ⟨_,ht,hsource⟩ := optionalString_eq_some.mp hsource
  · cases hnone
  · cases ht
    exact ⟨⟨payload,routingKey,source,ids.1,ids.2⟩,
      ⟨hp,hfilled,hkey,hrouted,hsource,hsourced,optionalId_iff.mpr ⟨messageId,hmessage,hm⟩,
        optionalId_iff.mpr ⟨correlationId,hcorrelation,hc⟩⟩,⟨hp,rfl,rfl,hids⟩⟩

/-- Whatever `parsed_ids` refuses is the client's to correct. -/
theorem isClientError_of_parsedIds {e : InboxApiError} (h : r.parsedIds = .error e) :
    e.isClientError = true := by
  rw [SubmitInboxRequest.parsedIds] at h
  cases hguard : r.guard with
  | error e' =>
    rw [hguard] at h
    cases h
    rw [SubmitInboxRequest.guard] at hguard
    repeat' split at hguard
    all_goals cases hguard
    all_goals rfl
  | ok _ =>
    rw [hguard] at h
    cases hm : parseUuid r.messageId <;> rw [hm] at h
    · cases h
      rfl
    · cases hc : parseUuid r.correlationId <;> rw [hc] at h
      · cases h
        rfl
      · cases h

/-- What `parse_json` returns is what is read. -/
theorem parseJson_eq_ok {reported : Uuid} {v : Json} :
    SubmitInboxRequest.parseJson reported v = .ok r ↔ SubmitInboxRequest.ofValue v = some r := by
  rw [SubmitInboxRequest.parseJson]
  cases SubmitInboxRequest.ofValue v <;> simp

/-- A body that is read goes on to its ids. -/
theorem fromJson_of_read {reported : Uuid} {v : Json}
    (h : SubmitInboxRequest.ofValue v = some r) :
    SubmitInboxRequest.fromJson reported v = r.parsedIds.map fun _ => r := by
  rw [SubmitInboxRequest.fromJson,SubmitInboxRequest.parseJson,h]
  cases hids : r.parsedIds <;>
    simp [bind,Except.bind,SubmitInboxRequest.validate,hids,Except.map,pure,Except.pure]

/-- What `from_json` returns is what is read, once its ids are parsed. -/
theorem fromJson_eq_ok {reported : Uuid} {v : Json} :
    SubmitInboxRequest.fromJson reported v = .ok r ↔
      SubmitInboxRequest.ofValue v = some r ∧ ∃ ids, r.parsedIds = .ok ids := by
  cases hread : SubmitInboxRequest.ofValue v with
  | none => simp [SubmitInboxRequest.fromJson,SubmitInboxRequest.parseJson,hread,bind,Except.bind]
  | some request =>
    rw [fromJson_of_read hread,Option.some.injEq]
    constructor
    · intro h
      cases hids : request.parsedIds with
      | error e =>
        rw [hids] at h
        cases h
      | ok ids =>
        rw [hids] at h
        cases h
        exact ⟨rfl,ids,hids⟩
    · rintro ⟨rfl,ids,hids⟩
      rw [hids]
      rfl

/-- Every body that `from_json` rejects is the client's to correct. -/
theorem isClientError_of_fromJson {reported : Uuid} {v : Json} {e : InboxApiError}
    (h : SubmitInboxRequest.fromJson reported v = .error e) : e.isClientError = true := by
  cases hread : SubmitInboxRequest.ofValue v with
  | none =>
    rw [SubmitInboxRequest.fromJson,SubmitInboxRequest.parseJson,hread] at h
    cases h
    rfl
  | some request =>
    rw [fromJson_of_read hread] at h
    cases hids : request.parsedIds with
    | error e' =>
      rw [hids] at h
      cases h
      exact isClientError_of_parsedIds hids
    | ok ids =>
      rw [hids] at h
      cases h

/-- A request is converted once its ids are parsed. -/
theorem exists_tryFrom {float : FloatWriter} {drawn : Uuid} :
    (∃ m, r.tryFrom float drawn = .ok m) ↔ ∃ ids, r.parsedIds = .ok ids := by
  rw [SubmitInboxRequest.tryFrom]
  cases r.parsedIds <;> simp [bind,Except.bind,pure,Except.pure]

/-- It is converted into the message that it carries. -/
theorem Carries.tryFrom (h : Carries r x) (float : FloatWriter) (drawn : Uuid) :
    r.tryFrom float drawn = .ok (x.message float drawn) := by
  rw [SubmitInboxRequest.tryFrom,h.ids,h.payload,h.source,h.routingKey]
  rfl

/-- A submission in five elements has all of them. -/
theorem Asks.length (h : Asks (Json.field (fieldNames.zip items)) x) :
    fieldNames.length ≤ items.length := by
  have hsource : items[4]? = some (.string x.source) :=
    (field_zip (by decide) items (by decide : 4 < fieldNames.length)).symm.trans h.source
  exact (List.getElem?_eq_some_iff.mp hsource).1

/-- The bodies that are accepted ask for a submission by name or by position. -/
theorem asks_of_accepted (body : Body) (h : SubmitInboxRequest.ofValue body.value = some r)
    {ids : Option Uuid × Option Uuid} (hids : r.parsedIds = .ok ids) :
    ∃ x, Carries r x ∧ ((∃ fields, body.value = .object fields ∧ Asks (Json.field fields) x) ∨
      Positional body.value) := by
  cases hv : body.value with
  | object fields =>
    rw [hv,ofValue_object (body.distinct fields hv)] at h
    obtain ⟨x,hx,hc⟩ := asks_of_readFields h hids
    exact ⟨x,hc,.inl ⟨fields,rfl,hx⟩⟩
  | array items =>
    rw [hv,ofValue_array] at h
    split at h
    · next hlen =>
      obtain ⟨x,hx,hc⟩ := asks_of_readFields h hids
      exact ⟨x,hc,.inr ⟨items,x,rfl,hlen.antisymm hx.length,hx⟩⟩
    · cases h
  | null => rw [hv] at h; cases h
  | bool b => rw [hv] at h; cases h
  | number n => rw [hv] at h; cases h
  | string s => rw [hv] at h; cases h

/-- A body that asks by name is read. -/
theorem Fulfils.carries {body : Body} (h : Fulfils body.value) :
    ∃ r x, SubmitInboxRequest.ofValue body.value = some r ∧ Carries r x := by
  obtain ⟨fields,x,hv,hx⟩ := h
  obtain ⟨r,hr,hc⟩ := hx.carries
  exact ⟨r,x,by rw [hv,ofValue_object (body.distinct fields hv),hr],hc⟩

/-- So is one that asks by position. -/
theorem Positional.carries {v : Json} (h : Positional v) :
    ∃ r x, SubmitInboxRequest.ofValue v = some r ∧ Carries r x := by
  obtain ⟨items,x,rfl,hlen,hx⟩ := h
  obtain ⟨r,hr,hc⟩ := hx.carries
  exact ⟨r,x,by rw [ofValue_array,if_pos hlen.le,hr],hc⟩

end Requests

section Contracts

/-- How the blocking pool and the store answer, in a world of their own. -/
abbrev Service (σ : Type) : Type := (op : ServiceOp) → σ → Option op.Reply × σ

/-- A call of the store, with what came back. -/
abbrev StoreCall : Type := NewInboxMessageEnvelope × Option (Except InboxError Unit)

/-- The call of the store in an observed call. -/
def storeCall? : Observed ServiceOp ServiceOp.Reply → Option StoreCall
  | ⟨.spawnBlocking,_⟩ => none
  | ⟨.store m,reply⟩ => some (m,reply)

variable {α σ : Type}

/-- The calls of the store in a run. -/
def storeCalls (handle : Service σ) (prog : Prog ServiceOp ServiceOp.Reply α) (s : σ) :
    List StoreCall :=
  (trace handle prog s).filterMap storeCall?

/-- A run that calls the store once, and whose answer is the id of what it stored. -/
structure StoresOnce (m : NewInboxMessageEnvelope) (calls : List StoreCall)
    (result : Option Submitted) : Prop where
  /-- The store is called for this message and for nothing else. -/
  once : calls.map Prod.fst = [m]
  /-- The client is given its id, and only when the store has it. -/
  answered : ∀ response, result = some (.ok response) ↔
    response = ⟨m.messageId.display⟩ ∧ calls = [(m,some (.ok ()))]

/-- What a submission promises for a body; `drawn` and `reported` are the ids that are drawn for
the message and for a failure. -/
structure Contract (float : FloatWriter) (drawn reported : Uuid) (body : Json) : Prop where
  /-- `from_json` accepts the bodies that ask for a submission by name. -/
  accepted : (∃ r, SubmitInboxRequest.fromJson reported body = .ok r) ↔ Fulfils body
  /-- So does `parse_json` with the conversion inside `submit`. -/
  staged : (∃ r m, SubmitInboxRequest.parseJson reported body = .ok r ∧
    r.tryFrom float drawn = .ok m) ↔ Fulfils body
  /-- A body that is rejected causes no call of the store. -/
  rejected : (∀ r, SubmitInboxRequest.fromJson reported body ≠ .ok r) →
    ∀ {σ : Type} (handle : Service σ) (s : σ),
      storeCalls handle (submitBody float drawn reported body) s = []
  /-- For one that is accepted, the closure stores what it asks for, and so does an adapter once
  the pool runs the task. -/
  stored : ∀ r, SubmitInboxRequest.fromJson reported body = .ok r → ∃ fields x,
    body = .object fields ∧ Asks (Json.field fields) x ∧
      ∀ {σ : Type} (handle : Service σ) (s : σ),
        StoresOnce (x.message float drawn)
          (storeCalls handle (submitTask float drawn reported r) s)
          ((submitTask float drawn reported r).run handle s).1 ∧
        ((handle .spawnBlocking s).1 = some true →
          StoresOnce (x.message float drawn)
            (storeCalls handle (submitBody float drawn reported body) s)
            ((submitBody float drawn reported body).run handle s).1)

end Contracts

section Runs

variable {σ : Type} {float : FloatWriter} {drawn reported : Uuid} {r : SubmitInboxRequest}
  {m : NewInboxMessageEnvelope} {handle : Service σ} {s : σ}

/-- A request that converts is stored by the closure. -/
theorem submitTask_stores (h : r.tryFrom float drawn = .ok m) :
    StoresOnce m (storeCalls handle (submitTask float drawn reported r) s)
      ((submitTask float drawn reported r).run handle s).1 := by
  rw [submitTask,h]
  dsimp only
  cases hreply : handle (.store m) s with
  | mk reply s' =>
    rw [storeCalls,trace_bind,trace_perform,Prog.run_bind,Prog.run_perform,hreply]
    rcases reply with _ | e | _
    · exact ⟨rfl,by simp [storeCall?]⟩
    · exact ⟨rfl,by simp [storeCall?]⟩
    · exact ⟨rfl,fun response => by simp [storeCall?,eq_comm (a:=response)]⟩

/-- A caught panic is no success. -/
theorem StoresOnce.caught {calls : List StoreCall} {result : Option Submitted}
    (h : StoresOnce m calls result) (e : InboxApiError) :
    StoresOnce m calls (some (result.getD (.error e))) where
  once := h.once
  answered := by
    intro response
    rw [← h.answered response]
    cases result <;> simp

variable (float drawn reported r) in
/-- Once the pool runs the task, the service makes its calls and returns what it returns. -/
theorem submit_runs (hstart : (handle .spawnBlocking s).1 = some true) : ∃ s' e,
    storeCalls handle (submit float drawn reported r) s =
      storeCalls handle (submitTask float drawn reported r) s' ∧
    ((submit float drawn reported r).run handle s).1 =
      some (((submitTask float drawn reported r).run handle s').1.getD (.error e)) := by
  cases hspawn : handle .spawnBlocking s with
  | mk reply s' =>
    obtain rfl : reply = some true := by rw [← hstart,hspawn]
    have hstarted : (Prog.perform ServiceOp.spawnBlocking : Prog _ ServiceOp.Reply _).run handle s
        = (some true,s') := (Prog.run_perform _ _ _).trans hspawn
    refine ⟨s',errSubmissionTaskFailed reported .panicked,?_,?_⟩
    · have hcalls : trace handle (submit float drawn reported r) s =
          ⟨.spawnBlocking,some true⟩::trace handle (submitTask float drawn reported r) s' := by
        rw [submit,trace_bind_of_some hstarted,trace_perform,hspawn,trace_bind,
          trace_catchUnwind,Prog.run_catchUnwind]
        dsimp only
        cases ((submitTask float drawn reported r).run handle s').1 <;>
          exact congrArg _ (List.append_nil _)
      rw [storeCalls,hcalls]
      rfl
    · rw [submit,Prog.run_bind_of_some _ hstarted]
      dsimp only
      rw [Prog.run_bind,Prog.run_catchUnwind]
      dsimp only
      cases ((submitTask float drawn reported r).run handle s').1 <;> rfl

/-- A request that does not convert never reaches the store. -/
theorem submit_rejected {e : InboxApiError} (h : r.tryFrom float drawn = .error e) :
    storeCalls handle (submit float drawn reported r) s = [] := by
  have htask : submitTask float drawn reported r = .ret (.error e) := by
    rw [submitTask,h]
    rfl
  rw [storeCalls,submit,htask,trace_bind,trace_perform,Prog.run_perform]
  rcases handle .spawnBlocking s with ⟨_ | _ | _,s'⟩ <;> rfl

/-- Both paths accept the same bodies. -/
theorem staged_iff {v : Json} : (∃ r m, SubmitInboxRequest.parseJson reported v = .ok r ∧
    r.tryFrom float drawn = .ok m) ↔ ∃ r, SubmitInboxRequest.fromJson reported v = .ok r := by
  simp only [exists_and_left,exists_tryFrom,parseJson_eq_ok,fromJson_eq_ok]

/-- A body that `from_json` rejects never reaches the store. -/
theorem submitBody_rejected {v : Json}
    (h : ∀ r, SubmitInboxRequest.fromJson reported v ≠ .ok r) :
    storeCalls handle (submitBody float drawn reported v) s = [] := by
  rw [submitBody]
  cases hparse : SubmitInboxRequest.parseJson reported v with
  | error e => rfl
  | ok r =>
    cases hconvert : r.tryFrom float drawn with
    | error e => exact submit_rejected hconvert
    | ok m =>
      obtain ⟨r',hr'⟩ := staged_iff.mp ⟨r,m,hparse,hconvert⟩
      exact absurd hr' (h r')

/-- A body that converts is stored by an adapter once the pool runs the task. -/
theorem submitBody_stores {v : Json} (hr : SubmitInboxRequest.parseJson reported v = .ok r)
    (hm : r.tryFrom float drawn = .ok m) (hstart : (handle .spawnBlocking s).1 = some true) :
    StoresOnce m (storeCalls handle (submitBody float drawn reported v) s)
      ((submitBody float drawn reported v).run handle s).1 := by
  obtain ⟨s',e,hcalls,hresult⟩ := submit_runs float drawn reported r hstart
  rw [submitBody,hr]
  dsimp only
  rw [hcalls,hresult]
  exact (submitTask_stores hm).caught e

/-- A body that is no positional submission is accepted when it asks by name. -/
theorem accepted_iff {body : Body} (hbody : ¬Positional body.value) :
    (∃ r, SubmitInboxRequest.fromJson reported body.value = .ok r) ↔ Fulfils body.value := by
  constructor
  · rintro ⟨r,hr⟩
    obtain ⟨hread,ids,hids⟩ := fromJson_eq_ok.mp hr
    obtain ⟨x,-,⟨fields,hv,hx⟩ | hpositional⟩ := asks_of_accepted body hread hids
    · exact ⟨fields,x,hv,hx⟩
    · exact absurd hpositional hbody
  · intro h
    obtain ⟨r,x,hr,hc⟩ := h.carries
    exact ⟨r,fromJson_eq_ok.mpr ⟨hr,_,hc.ids⟩⟩

end Runs

section Results

/-- A submission keeps its contract for a body exactly when the body does not ask by position. -/
theorem submission_contract (float : FloatWriter) (drawn reported : Uuid) (body : Body) :
    Contract float drawn reported body.value ↔ ¬Positional body.value := by
  constructor
  · intro h hbody
    obtain ⟨r,x,hr,hc⟩ := hbody.carries
    obtain ⟨fields,_,hobject,_⟩ := h.accepted.mp ⟨r,fromJson_eq_ok.mpr ⟨hr,_,hc.ids⟩⟩
    obtain ⟨items,_,harray,_⟩ := hbody
    cases harray.symm.trans hobject
  · intro hbody
    refine ⟨accepted_iff hbody,staged_iff.trans (accepted_iff hbody),
      fun h _ _ _ => submitBody_rejected h,?_⟩
    intro r hr
    obtain ⟨hread,ids,hids⟩ := fromJson_eq_ok.mp hr
    obtain ⟨x,hc,⟨fields,hv,hx⟩ | hpositional⟩ := asks_of_accepted body hread hids
    · have hm := hc.tryFrom float drawn
      exact ⟨fields,x,hv,hx,fun handle s => ⟨submitTask_stores hm,
        submitBody_stores (parseJson_eq_ok.mpr hread) hm⟩⟩
    · exact absurd hpositional hbody

/-- An array of the five fields is accepted, which is no object. -/
theorem array_breaks_contract : ¬Contract .allDigits (Uuid.fromU128 1) (Uuid.fromU128 2)
    (.array [.number ⟨1,0⟩,.string "x",.null,.null,.string "crawler"]) := by
  intro h
  obtain ⟨fields,_,hobject,_⟩ := h.accepted.mp
    ⟨⟨some (.number ⟨1,0⟩),"x",none,none,some "crawler"⟩,rfl⟩
  cases hobject

end Results

end Mulac.InboxSubmission
