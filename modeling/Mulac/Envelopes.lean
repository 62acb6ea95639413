import Mulac.QueueDomain

/-!
# Metadata, envelopes and errors

The application types of the four libraries: what a caller records, what a
reservation hands out, and how each metadata struct is written to and read from
its `jsonb` column. A struct is read from an object by name or from an array by
position, as serde does; a positional field is missing only at an array's end.
-/

namespace Mulac.Envelopes

open JsonValue Identifiers Postgres SerdeJson QueueDomain

section Commands

/-- `NewCommandMetadata` and `CommandMetadata`, which have the same fields. -/
@[ext] structure CommandMetadata where
  /-- The identity of the command and of its row. -/
  commandId : Uuid
  /-- The conversation the command belongs to. -/
  correlationId : Option Uuid
  /-- The message that caused the command. -/
  causationId : Option Uuid
  /-- Where the command came from. -/
  source : Option String
  deriving DecidableEq

/-- `Serialize for NewCommandMetadata`. -/
def CommandMetadata.toValue (m : CommandMetadata) : Json :=
  .object [("command_id",uuidJson m.commandId),
    ("correlation_id",optionJson uuidJson m.correlationId),
    ("causation_id",optionJson uuidJson m.causationId),
    ("source",optionJson .string m.source)]

/-- `Deserialize for CommandMetadata`. -/
def CommandMetadata.ofValue : Json → Option CommandMetadata
  | .object fields => do
    let commandId ← requiredField uuidOf fields "command_id"
    let correlationId ← optionalField uuidOf fields "correlation_id"
    let causationId ← optionalField uuidOf fields "causation_id"
    let source ← optionalField stringOf fields "source"
    return ⟨commandId,correlationId,causationId,source⟩
  | .array [commandId,correlationId,causationId,source] => do
    let commandId ← uuidOf commandId
    let correlationId ← optionOf uuidOf correlationId
    let causationId ← optionOf uuidOf causationId
    let source ← optionOf stringOf source
    return ⟨commandId,correlationId,causationId,source⟩
  | _ => none

/-- Stored command metadata reads back as what was stored. -/
@[simp] theorem CommandMetadata.ofValue_toValue (m : CommandMetadata) :
    ofValue m.toValue = some m := by
  simp [toValue,ofValue,requiredField,optionalField,structField]

/-- The metadata of a command can be stored when its source can. -/
theorem CommandMetadata.toValue_storable {m : CommandMetadata} :
    m.toValue.allTexts nulFree = true ↔ ∀ s, m.source = some s → nulFree s = true := by
  have hk : nulFree "command_id" = true ∧ nulFree "correlation_id" = true ∧
      nulFree "causation_id" = true ∧ nulFree "source" = true := by decide
  simp [toValue,Json.allTexts,Json.allTextsFields,hk,uuidJson_storable,optionJson_uuid_storable,
    optionJson_string_storable]

/-- `NewCommandEnvelope`. -/
structure NewCommandEnvelope where
  /-- The key of the handler. -/
  commandType : String
  /-- The serialized command. -/
  payload : String
  /-- The caller's metadata. -/
  metadata : Option CommandMetadata
  deriving DecidableEq

/-- `CommandEnvelope`, with the fields of its `Command`. -/
structure CommandEnvelope where
  /-- The row's id. -/
  id : Uuid
  /-- The token the row is reserved by. -/
  reservationId : Uuid
  /-- The key of the handler. -/
  commandType : String
  /-- The serialized command. -/
  payload : String
  /-- How often the row was reserved. -/
  attempts : ℤ
  /-- The row's error history. -/
  extraInfo : Option ExtraInfo
  /-- The stored metadata. -/
  metadata : Option CommandMetadata
  deriving DecidableEq

/-- `From<&CommandEnvelope> for NewCommandEnvelope`. -/
def NewCommandEnvelope.ofEnvelope (e : CommandEnvelope) : NewCommandEnvelope :=
  ⟨e.commandType,e.payload,e.metadata⟩

end Commands

section Events

/-- `NewEventMetadata` and `EventMetadata`, which have the same fields. -/
@[ext] structure EventMetadata where
  /-- The event's revision in its stream. -/
  sequence : Option ℕ
  /-- The identity of the event and of its row. -/
  eventId : Uuid
  /-- The conversation the event belongs to. -/
  correlationId : Option Uuid
  /-- The command that caused the event. -/
  causationId : Option Uuid
  /-- Where the event came from. -/
  source : Option String
  deriving DecidableEq

/-- The field of a sequence, which is skipped when there is none. -/
def sequenceFields (sequence : Option ℕ) : List (String × Json) :=
  match sequence with
  | none => []
  | some n => [("sequence",u64Json n)]

/-- A sequence that was written reads back, also before other fields. -/
theorem sequenceField_sequenceFields {sequence : Option ℕ} (h : validSequence sequence = true)
    (rest : List (String × Json)) (hr : structField rest "sequence" = some none) :
    sequenceField (sequenceFields sequence++rest) "sequence" = some sequence := by
  cases sequence with
  | none => simp only [sequenceFields,List.nil_append,sequenceField,hr,Option.bind_some]
  | some n =>
    have hrest : rest.filter (fun f => f.1 = "sequence") = [] := by
      unfold structField at hr
      split at hr
      · next hf => exact hf
      · cases hr
      · cases hr
    have hs : structField (sequenceFields (some n)++rest) "sequence" = some (some (u64Json n)) := by
      simp only [structField,sequenceFields,List.singleton_append,List.filter_cons,hrest]
      rfl
    rw [sequenceField_of_some hs,sequenceOf_u64Json h]

/-- A written sequence does not hide the other fields. -/
theorem structField_sequenceFields (sequence : Option ℕ) (rest : List (String × Json))
    {name : String} (h : "sequence" ≠ name) :
    structField (sequenceFields sequence++rest) name = structField rest name := by
  cases sequence with
  | none => rfl
  | some n => simp only [structField,sequenceFields,List.singleton_append,List.filter_cons,h,
      decide_false,Bool.false_eq_true,if_false]

/-- `Serialize for NewEventMetadata`. -/
def EventMetadata.toValue (m : EventMetadata) : Json :=
  .object (sequenceFields m.sequence++[("event_id",uuidJson m.eventId),
    ("correlation_id",optionJson uuidJson m.correlationId),
    ("causation_id",optionJson uuidJson m.causationId),
    ("source",optionJson .string m.source)])

/-- `Deserialize for EventMetadata`. -/
def EventMetadata.ofValue : Json → Option EventMetadata
  | .object fields => do
    let sequence ← sequenceField fields "sequence"
    let eventId ← requiredField uuidOf fields "event_id"
    let correlationId ← optionalField uuidOf fields "correlation_id"
    let causationId ← optionalField uuidOf fields "causation_id"
    let source ← optionalField stringOf fields "source"
    return ⟨sequence,eventId,correlationId,causationId,source⟩
  | .array [sequence,eventId,correlationId,causationId,source] => do
    let sequence ← sequenceOf sequence
    let eventId ← uuidOf eventId
    let correlationId ← optionOf uuidOf correlationId
    let causationId ← optionOf uuidOf causationId
    let source ← optionOf stringOf source
    return ⟨sequence,eventId,correlationId,causationId,source⟩
  | _ => none

/-- Stored event metadata with a valid sequence reads back as what was stored. -/
theorem EventMetadata.ofValue_toValue {m : EventMetadata}
    (h : validSequence m.sequence = true) : ofValue m.toValue = some m := by
  have hs := sequenceField_sequenceFields h
  have ho := structField_sequenceFields m.sequence
  simp only [toValue,ofValue,requiredField,optionalField]
  rw [hs _ (by simp [structField]),ho _ (by decide),ho _ (by decide),ho _ (by decide),
    ho _ (by decide)]
  simp [structField]

theorem sequenceFields_storable (sequence : Option ℕ) :
    Json.allTextsFields nulFree (sequenceFields sequence) = true := by
  cases sequence with
  | none => rfl
  | some n =>
    have hk : nulFree "sequence" = true := by decide
    simp [sequenceFields,Json.allTextsFields,hk,u64Json,Json.allTexts]

/-- The metadata of an event can be stored when its source can. -/
theorem EventMetadata.toValue_storable {m : EventMetadata} :
    m.toValue.allTexts nulFree = true ↔ ∀ s, m.source = some s → nulFree s = true := by
  have hk : nulFree "event_id" = true ∧ nulFree "correlation_id" = true ∧
      nulFree "causation_id" = true ∧ nulFree "source" = true := by decide
  simp [toValue,Json.allTexts,Json.allTextsFields_append,sequenceFields_storable,
    Json.allTextsFields,hk,uuidJson_storable,optionJson_uuid_storable,optionJson_string_storable]

/-- `NewEventEnvelope`. -/
structure NewEventEnvelope where
  /-- The key of the subscribers. -/
  eventType : String
  /-- The serialized event. -/
  payload : String
  /-- The dispatcher's metadata. -/
  metadata : Option EventMetadata
  deriving DecidableEq

/-- `EventEnvelope`. -/
structure EventEnvelope where
  /-- The row's id. -/
  id : Uuid
  /-- The token the row is reserved by. -/
  reservationId : Uuid
  /-- The key of the subscribers. -/
  eventType : String
  /-- The serialized event. -/
  payload : String
  /-- How often the row was reserved. -/
  attempts : ℤ
  /-- The stored metadata. -/
  metadata : Option EventMetadata
  /-- The row's error history. -/
  extraInfo : Option ExtraInfo
  deriving DecidableEq

/-- `From<&EventEnvelope> for NewEventEnvelope`. -/
def NewEventEnvelope.ofEnvelope (e : EventEnvelope) : NewEventEnvelope :=
  ⟨e.eventType,e.payload,e.metadata⟩

end Events

section Inbox

/-- `InboundMessageEnvelope`: what a transport hands over. -/
structure InboundMessageEnvelope where
  /-- The body. -/
  payload : String
  /-- The transport's message id. -/
  messageId : Option Uuid
  /-- The conversation the message belongs to. -/
  correlationId : Option Uuid
  /-- The sender. -/
  source : Option String
  /-- The key of the route. -/
  routingKey : Option String
  deriving DecidableEq

/-- `NewInboxMessageEnvelope`, with the fields of its metadata. -/
structure NewInboxMessageEnvelope where
  /-- The body. -/
  payload : String
  /-- The message's identity. -/
  messageId : Uuid
  /-- The conversation the message belongs to. -/
  correlationId : Option Uuid
  /-- The sender. -/
  source : Option String
  /-- The key of the route. -/
  routingKey : Option String
  deriving DecidableEq

/-- `From<InboundMessageEnvelope> for NewInboxMessageEnvelope`; `drawn` is what
`Uuid::now_v7` returns when the transport gave no id. -/
def NewInboxMessageEnvelope.ofInbound (drawn : Uuid) (m : InboundMessageEnvelope) :
    NewInboxMessageEnvelope :=
  ⟨m.payload,m.messageId.getD drawn,m.correlationId,m.source,m.routingKey⟩

/-- `InboxMessageMetadata`. -/
@[ext] structure InboxMessageMetadata where
  /-- The message's identity. -/
  messageId : Option Uuid
  /-- The conversation the message belongs to. -/
  correlationId : Option Uuid
  /-- The sender. -/
  source : Option String
  /-- The key of the route. -/
  routingKey : Option String
  deriving DecidableEq

/-- `From<NewInboxMessageMetadata> for InboxMessageMetadata`. -/
def InboxMessageMetadata.ofNew (m : NewInboxMessageEnvelope) : InboxMessageMetadata :=
  ⟨some m.messageId,m.correlationId,m.source,m.routingKey⟩

/-- `Serialize for InboxMessageMetadata`. -/
def InboxMessageMetadata.toValue (m : InboxMessageMetadata) : Json :=
  .object [("message_id",optionJson uuidJson m.messageId),
    ("correlation_id",optionJson uuidJson m.correlationId),
    ("source",optionJson .string m.source),
    ("routing_key",optionJson .string m.routingKey)]

/-- `Deserialize for InboxMessageMetadata`. -/
def InboxMessageMetadata.ofValue : Json → Option InboxMessageMetadata
  | .object fields => do
    let messageId ← optionalField uuidOf fields "message_id"
    let correlationId ← optionalField uuidOf fields "correlation_id"
    let source ← optionalField stringOf fields "source"
    let routingKey ← optionalField stringOf fields "routing_key"
    return ⟨messageId,correlationId,source,routingKey⟩
  | .array [messageId,correlationId,source,routingKey] => do
    let messageId ← optionOf uuidOf messageId
    let correlationId ← optionOf uuidOf correlationId
    let source ← optionOf stringOf source
    let routingKey ← optionOf stringOf routingKey
    return ⟨messageId,correlationId,source,routingKey⟩
  | _ => none

/-- Stored message metadata reads back as what was stored. -/
@[simp] theorem InboxMessageMetadata.ofValue_toValue (m : InboxMessageMetadata) :
    ofValue m.toValue = some m := by
  simp [toValue,ofValue,optionalField,structField]

/-- The metadata of a message can be stored when its source and key can. -/
theorem InboxMessageMetadata.toValue_storable {m : InboxMessageMetadata} :
    m.toValue.allTexts nulFree = true ↔ (∀ s, m.source = some s → nulFree s = true) ∧
      ∀ s, m.routingKey = some s → nulFree s = true := by
  have hk : nulFree "message_id" = true ∧ nulFree "correlation_id" = true ∧
      nulFree "source" = true ∧ nulFree "routing_key" = true := by decide
  simp [toValue,Json.allTexts,Json.allTextsFields,hk,optionJson_uuid_storable,
    optionJson_string_storable]

/-- `InboxMessageEnvelope`, with the fields of its `InboxMessage`. -/
structure InboxMessageEnvelope where
  /-- The row's id. -/
  id : Uuid
  /-- The body. -/
  payload : String
  /-- The row's status. -/
  status : Status
  /-- When the row is due. -/
  scheduledAt : Timestamp
  /-- How often the row was reserved. -/
  attempts : ℤ
  /-- The token the row is reserved by. -/
  reservationId : Option Uuid
  /-- When the row was reserved. -/
  reservedAt : Option Timestamp
  /-- The row's error history. -/
  extraInfo : Option ExtraInfo
  /-- The stored metadata. -/
  metadata : InboxMessageMetadata
  deriving DecidableEq

end Inbox

section Outbox

/-- `OutboxEntryMetadata`. -/
@[ext] structure OutboxEntryMetadata where
  /-- The event's revision in its stream. -/
  sequence : Option ℕ
  /-- The event's identity. -/
  eventId : Uuid
  /-- The message's identity. -/
  messageId : Uuid
  /-- The conversation the event belongs to. -/
  correlationId : Option Uuid
  /-- The command that caused the event. -/
  causationId : Option Uuid
  /-- The event's type. -/
  eventType : String
  /-- The key of the route. -/
  routingKey : String
  /-- Where the event came from. -/
  source : Option String
  /-- The MIME type of the payload. -/
  contentType : Option String
  deriving DecidableEq

/-- `Serialize for OutboxEntryMetadata`. -/
def OutboxEntryMetadata.toValue (m : OutboxEntryMetadata) : Json :=
  .object (sequenceFields m.sequence++[("event_id",uuidJson m.eventId),
    ("message_id",uuidJson m.messageId),
    ("correlation_id",optionJson uuidJson m.correlationId),
    ("causation_id",optionJson uuidJson m.causationId),
    ("event_type",.string m.eventType),
    ("routing_key",.string m.routingKey),
    ("source",optionJson .string m.source),
    ("content_type",optionJson .string m.contentType)])

/-- `Deserialize for OutboxEntryMetadata`. -/
def OutboxEntryMetadata.ofValue : Json → Option OutboxEntryMetadata
  | .object fields => do
    let sequence ← sequenceField fields "sequence"
    let eventId ← requiredField uuidOf fields "event_id"
    let messageId ← requiredField uuidOf fields "message_id"
    let correlationId ← optionalField uuidOf fields "correlation_id"
    let causationId ← optionalField uuidOf fields "causation_id"
    let eventType ← requiredField stringOf fields "event_type"
    let routingKey ← requiredField stringOf fields "routing_key"
    let source ← optionalField stringOf fields "source"
    let contentType ← optionalField stringOf fields "content_type"
    return ⟨sequence,eventId,messageId,correlationId,causationId,eventType,routingKey,source,
      contentType⟩
  | .array [sequence,eventId,messageId,correlationId,causationId,eventType,routingKey,source,
      contentType] => do
    let sequence ← sequenceOf sequence
    let eventId ← uuidOf eventId
    let messageId ← uuidOf messageId
    let correlationId ← optionOf uuidOf correlationId
    let causationId ← optionOf uuidOf causationId
    let eventType ← stringOf eventType
    let routingKey ← stringOf routingKey
    let source ← optionOf stringOf source
    let contentType ← optionOf stringOf contentType
    return ⟨sequence,eventId,messageId,correlationId,causationId,eventType,routingKey,source,
      contentType⟩
  | _ => none

/-- Stored entry metadata with a valid sequence reads back as what was stored. -/
theorem OutboxEntryMetadata.ofValue_toValue {m : OutboxEntryMetadata}
    (h : validSequence m.sequence = true) : ofValue m.toValue = some m := by
  have hs := sequenceField_sequenceFields h
  have ho := structField_sequenceFields m.sequence
  simp only [toValue,ofValue,requiredField,optionalField]
  rw [hs _ (by simp [structField]),ho _ (by decide),ho _ (by decide),ho _ (by decide),
    ho _ (by decide),ho _ (by decide),ho _ (by decide),ho _ (by decide),ho _ (by decide)]
  simp [structField,stringOf]

/-- The texts of an entry's metadata. -/
def OutboxEntryMetadata.texts (m : OutboxEntryMetadata) : List String :=
  m.eventType::m.routingKey::(m.source.toList++m.contentType.toList)

/-- The metadata of an entry can be stored when each of its texts can. -/
theorem OutboxEntryMetadata.toValue_storable {m : OutboxEntryMetadata} :
    m.toValue.allTexts nulFree = true ↔ ∀ s ∈ m.texts, nulFree s = true := by
  have hk : nulFree "event_id" = true ∧ nulFree "message_id" = true ∧
      nulFree "correlation_id" = true ∧ nulFree "causation_id" = true ∧
      nulFree "event_type" = true ∧ nulFree "routing_key" = true ∧
      nulFree "source" = true ∧ nulFree "content_type" = true := by decide
  simp only [toValue,texts,Json.allTexts,Json.allTextsFields_append,sequenceFields_storable,
    Json.allTextsFields,hk,uuidJson_storable,optionJson_uuid_storable,Bool.true_and,Bool.and_true,
    Bool.and_eq_true,optionJson_string_storable,List.mem_cons,List.mem_append,Option.mem_toList,
    or_imp,forall_and,forall_eq]

/-- `NewOutboxMetadata`. -/
structure NewOutboxMetadata where
  /-- The event's revision in its stream. -/
  sequence : Option ℕ
  /-- The event's identity. -/
  eventId : Uuid
  /-- The message's identity, if it has one of its own. -/
  messageId : Option Uuid
  /-- The conversation the event belongs to. -/
  correlationId : Option Uuid
  /-- The command that caused the event. -/
  causationId : Option Uuid
  /-- The event's type. -/
  eventType : String
  /-- The key of the route. -/
  routingKey : String
  /-- Where the event came from. -/
  source : Option String
  /-- The MIME type of the payload. -/
  contentType : Option String
  deriving DecidableEq

/-- `NewOutboxEnvelope`. -/
structure NewOutboxEnvelope where
  /-- The body. -/
  payload : String
  /-- The caller's metadata. -/
  metadata : NewOutboxMetadata
  deriving DecidableEq

/-- `From<NewOutboxMetadata> for OutboxEntryMetadata`. -/
def OutboxEntryMetadata.ofNew (m : NewOutboxMetadata) : OutboxEntryMetadata :=
  ⟨m.sequence,m.eventId,m.messageId.getD m.eventId,m.correlationId,m.causationId,m.eventType,
    m.routingKey,m.source,m.contentType⟩

/-- `NewOutboxEntry`. -/
structure NewOutboxEntry where
  /-- The identity of the entry. -/
  id : Uuid
  /-- The body. -/
  payload : String
  /-- The entry's metadata. -/
  metadata : OutboxEntryMetadata
  /-- When the entry is due. -/
  scheduledAt : Timestamp
  /-- When the entry was made. -/
  receivedAt : Timestamp
  deriving DecidableEq

/-- `From<&NewOutboxEnvelope> for NewOutboxEntry`; `now` is what `Utc::now` returns. -/
def NewOutboxEntry.ofEnvelope (now : Timestamp) (e : NewOutboxEnvelope) : NewOutboxEntry :=
  ⟨(OutboxEntryMetadata.ofNew e.metadata).eventId,e.payload,.ofNew e.metadata,now,now⟩

/-- `OutboxEntryEnvelope`, with the fields of its `OutboxEntry`. -/
structure OutboxEntryEnvelope where
  /-- The row's id. -/
  id : Uuid
  /-- The row's status. -/
  status : Status
  /-- The body. -/
  payload : String
  /-- The stored metadata. -/
  metadata : OutboxEntryMetadata
  /-- When the row is due. -/
  scheduledAt : Timestamp
  /-- How often the row was reserved. -/
  attempts : ℤ
  /-- The token the row is reserved by. -/
  reservationId : Option Uuid
  /-- When the row was reserved. -/
  reservedAt : Option Timestamp
  /-- When the row was made. -/
  receivedAt : Timestamp
  /-- When the row was last changed. -/
  updatedAt : Timestamp
  /-- When the row was published. -/
  processedAt : Option Timestamp
  /-- The latest error. -/
  lastError : Option String
  /-- The row's error history. -/
  extraInfo : Option ExtraInfo
  deriving DecidableEq

/-- `OutboundMessageEnvelope`. -/
structure OutboundMessageEnvelope where
  /-- The body, whose UTF-8 bytes are sent. -/
  payload : String
  /-- The entry's metadata. -/
  metadata : OutboxEntryMetadata
  deriving DecidableEq

/-- `char::is_whitespace`: the characters with the property White_Space. -/
def isWhitespace (c : Char) : Bool :=
  let n := c.toNat
  (9 ≤ n && n ≤ 13) || n == 32 || n == 133 || n == 160 || n == 5760 || (8192 ≤ n && n ≤ 8202) ||
    n == 8232 || n == 8233 || n == 8239 || n == 8287 || n == 12288

/-- `s.trim().is_empty()`. -/
def blank (s : String) : Bool := s.toList.all isWhitespace

end Outbox

section Errors

/-- `EventError`. -/
inductive EventError where
  /-- A storage failure. -/
  | storage (message : String)
  /-- A reservation failure. -/
  | reservation (message : String)
  /-- No subscriber of the type. -/
  | subscriberNotFound (eventType : String)
  /-- A subscriber failed. -/
  | subscriberExecution (message : String)
  /-- The entry is not reserved by the caller. -/
  | missingReservation (id : Uuid)
  /-- The envelope does not convert. -/
  | conversion (message : String)
  /-- The dispatch port refused the event. -/
  | eventDispatch (message : String)
  deriving DecidableEq

/-- `Display for EventError`. -/
def EventError.display : EventError → String
  | storage message => "storage error: "++message
  | reservation message => "reservation error: "++message
  | subscriberNotFound eventType =>
    "no subscriber registered for event type '"++eventType++"'"
  | subscriberExecution message => "subscriber execution error: "++message
  | missingReservation id => "missing reservation for entry "++id.display
  | conversion message => "conversion error: "++message
  | eventDispatch message => "event dispatch error: "++message

/-- `CommandError`. -/
inductive CommandError where
  /-- A storage failure. -/
  | storage (message : String)
  /-- A reservation failure. -/
  | reservation (message : String)
  /-- No handler of the type. -/
  | handlerNotFound (commandType : String)
  /-- The handler failed. -/
  | handlerExecution (message : String)
  /-- The entry is not reserved by the caller. -/
  | missingReservation (id : Uuid)
  /-- The envelope does not convert. -/
  | conversion (message : String)
  /-- An event of the command could not be dispatched. -/
  | eventing (error : EventError)
  deriving DecidableEq

/-- `Display for CommandError`. -/
def CommandError.display : CommandError → String
  | storage message => "storage error: "++message
  | reservation message => "reservation error: "++message
  | handlerNotFound commandType =>
    "no handler registered for command type '"++commandType++"'"
  | handlerExecution message => "handler execution error: "++message
  | missingReservation id => "missing reservation for entry "++id.display
  | conversion message => "conversion error: "++message
  | eventing error => "eventing error: "++error.display

/-- `InboxError`. -/
inductive InboxError where
  /-- A storage failure. -/
  | storage (message : String)
  /-- A transport failure. -/
  | transport (message : String)
  /-- A failed acknowledgement. -/
  | acknowledgement (message : String)
  /-- A recording failure. -/
  | recording (message : String)
  /-- The entry is not reserved by the caller. -/
  | reservationNotOwned (id reservationId : Uuid)
  /-- The command gateway refused the message. -/
  | publishFailed (message : String)
  /-- The reserved message carries no token. -/
  | missingReservation (id : Uuid)
  /-- The message does not convert. -/
  | conversion (message : String)
  deriving DecidableEq

/-- `Display for InboxError`. -/
def InboxError.display : InboxError → String
  | storage message => "storage error: "++message
  | transport message => "transport error: "++message
  | acknowledgement message => "acknowledgement error: "++message
  | recording message => "recording error: "++message
  | reservationNotOwned id reservationId =>
    "inbox entry "++id.display++" is not reserved by reservation "++reservationId.display
  | publishFailed message => "Publish failed: "++message
  | missingReservation id => "Missing reservation for message "++id.display
  | conversion message => "conversion error: "++message

/-- `OutboxError`. -/
inductive OutboxError where
  /-- A storage failure. -/
  | storage (message : String)
  /-- The entry cannot be routed. -/
  | routing (message : String)
  /-- The payload does not serialize. -/
  | serialization (message : String)
  /-- A transport failure. -/
  | transport (message : String)
  /-- The entry is not reserved by the caller. -/
  | reservation (message : String)
  /-- The publisher failed. -/
  | publish (message : String)
  /-- The reserved entry carries no token. -/
  | missingReservation (id : Uuid)
  /-- The entry does not convert. -/
  | conversion (message : String)
  deriving DecidableEq

/-- `Display for OutboxError`. -/
def OutboxError.display : OutboxError → String
  | storage message => "storage error: "++message
  | routing message => "routing error: "++message
  | serialization message => "serialization error: "++message
  | transport message => "transport error: "++message
  | reservation message => "reservation error: "++message
  | publish message => "publish error: "++message
  | missingReservation id => "missing reservation for entry "++id.display
  | conversion message => "conversion error: "++message

end Errors

section Conversions

/-- `TryFrom<InboxMessageEnvelope> for NewCommandEnvelope`; `drawn` is what
`Uuid::now_v7` returns for the command's id. -/
def NewCommandEnvelope.ofInbox (drawn : Uuid) (e : InboxMessageEnvelope) :
    Except InboxError NewCommandEnvelope :=
  match e.metadata.routingKey with
  | none => .error (.conversion "missing routing_key")
  | some commandType => .ok ⟨commandType,e.payload,
      some ⟨drawn,e.metadata.correlationId,e.metadata.messageId,e.metadata.source⟩⟩

/-- `TryFrom<&OutboxEntryEnvelope> for OutboundMessageEnvelope`. -/
def OutboundMessageEnvelope.ofEntry (e : OutboxEntryEnvelope) :
    Except OutboxError OutboundMessageEnvelope :=
  if blank e.metadata.routingKey then .error (.conversion "missing routing_key")
  else .ok ⟨e.payload,e.metadata⟩

end Conversions

end Mulac.Envelopes
