import Mulac.Repository

/-!
# The four queues

The profiles of `commanding`, `eventing`, `inbox` and `outbox`. Everything the
four repositories do differently stands here; what they share stands in the
repository they instantiate.
-/

namespace Mulac.FourQueues

open JsonValue Identifiers Postgres SerdeJson QueueDomain Envelopes QueueRow Repository

section Conversions

/-- The message of `invalid_event_sequence` and `validate_sequence`. -/
def invalidSequence : String := "sequence must be between 1 and i64::MAX"

/-- `TryFrom<&NewCommandEnvelope> for NewCommandEntry`. -/
def newCommandEntry (e : NewCommandEnvelope) (appNow now : Timestamp) :
    Except CommandError (NewRow String) :=
  match e.metadata with
  | none => .error (.conversion "command_id is required: metadata is missing")
  | some m => .ok ⟨m.commandId,e.payload,m.toValue,appNow,appNow,now,e.commandType⟩

/-- `TryFrom<&NewEventEnvelope> for NewEventEntry`. -/
def newEventEntry (e : NewEventEnvelope) (appNow now : Timestamp) :
    Except EventError (NewRow String) :=
  match e.metadata with
  | none => .error (.conversion "event_id is required: metadata is missing")
  | some m =>
    if validSequence m.sequence then
      .ok ⟨m.eventId,e.payload,m.toValue,appNow,appNow,now,e.eventType⟩
    else .error (.conversion invalidSequence)

/-- `From<NewInboxMessageEnvelope> for NewInboxEntry`. -/
def newInboxEntry (e : NewInboxMessageEnvelope) (appNow _now : Timestamp) :
    Except InboxError (NewRow Unit) :=
  .ok ⟨e.messageId,e.payload,(InboxMessageMetadata.ofNew e).toValue,appNow,appNow,appNow,()⟩

/-- `record` of outbox up to `From<&NewOutboxEntry> for NewOutboxEntryRecord`. -/
def newOutboxEntry (e : NewOutboxEntry) (_appNow _now : Timestamp) :
    Except OutboxError (NewRow (Option String)) :=
  if validSequence e.metadata.sequence then
    .ok ⟨e.id,e.payload,e.metadata.toValue,e.scheduledAt,e.receivedAt,e.receivedAt,none⟩
  else .error (.routing invalidSequence)

/-- Metadata that commanding and eventing may find missing. -/
def optionalMetadata {μ : Type} (ofValue : Json → Option μ) (metadata : Option Jsonb) :
    Except DecodeError (Option μ) :=
  match metadata with
  | none => .ok none
  | some j => (ofValue j.value).elim (.error .invalidMetadata) fun m => .ok (some m)

/-- Metadata that inbox and outbox require. -/
def requiredMetadata {μ : Type} (ofValue : Json → Option μ) (metadata : Option Jsonb) :
    Except DecodeError μ :=
  match metadata with
  | none => .error .missingMetadata
  | some j => (ofValue j.value).elim (.error .invalidMetadata) .ok

/-- The envelope of a command row. -/
def commandEnvelope (r : Row String) (token : Uuid) (metadata : Option CommandMetadata)
    (extraInfo : Option ExtraInfo) : Except DecodeError CommandEnvelope :=
  .ok ⟨r.id,token,r.own,r.payload,r.attempts,extraInfo,metadata⟩

/-- The envelope of an event row. -/
def eventEnvelope (r : Row String) (token : Uuid) (metadata : Option EventMetadata)
    (extraInfo : Option ExtraInfo) : Except DecodeError EventEnvelope :=
  .ok ⟨r.id,token,r.own,r.payload,r.attempts,metadata,extraInfo⟩

/-- The envelope of an inbox row. -/
def inboxEnvelope (r : Row Unit) (token : Uuid) (metadata : InboxMessageMetadata)
    (extraInfo : Option ExtraInfo) : Except DecodeError InboxMessageEnvelope :=
  match Status.tryFrom r.status with
  | none => .error .invalidStatus
  | some status => .ok ⟨r.id,r.payload,status,r.scheduledAt,r.attempts,some token,r.reservedAt,
      extraInfo,metadata⟩

/-- The envelope of an outbox row. -/
def outboxEnvelope (r : Row (Option String)) (token : Uuid) (metadata : OutboxEntryMetadata)
    (extraInfo : Option ExtraInfo) : Except DecodeError OutboxEntryEnvelope :=
  match Status.tryFrom r.status with
  | none => .error .invalidStatus
  | some status => .ok ⟨r.id,status,r.payload,metadata,r.scheduledAt,r.attempts,some token,
      r.reservedAt,r.receivedAt,r.updatedAt,r.processedAt,r.own,extraInfo⟩

end Conversions

section Profiles

variable (float : FloatReader)

/-- The schedule of a failed row in commanding, eventing and inbox. -/
def delayedSchedule (_maxAttempts _attempts delay : ℤ) (now _previous : Timestamp) : Timestamp :=
  now+seconds delay

/-- The schedule of a failed row in outbox, where an exhausted row keeps its own. -/
def outboxSchedule (maxAttempts attempts delay : ℤ) (now previous : Timestamp) : Timestamp :=
  if maxAttempts ≤ attempts then previous else now+seconds delay

/-- `DieselPgCommandRepository`. -/
def commandQueue : Queue where
  Own := String
  Metadata := Option CommandMetadata
  Envelope := CommandEnvelope
  NewEntry := NewCommandEnvelope
  Error := CommandError
  float := float
  display := CommandError.display
  newRow := newCommandEntry
  ownTexts := fun commandType => [commandType]
  readMetadata := optionalMetadata CommandMetadata.ofValue
  envelope := commandEnvelope
  handed := fun e => ⟨e.id,some e.reservationId,e.payload,e.metadata,e.extraInfo,e.attempts⟩
  envelope_reserved := fun _ _ _ _ _ => ⟨_,rfl,rfl⟩
  failureDelay := cappedDelay
  failureSchedule := delayedSchedule
  failureTexts := fun _ => []
  failureTexts_reason := fun _ _ h => by cases h
  setLastError := fun _ own => own
  clearLastError := id
  timeoutOutcome := commandOutcome
  timeoutOutcome_failed := fun _ _ _ _ => rfl
  timeoutMessage := "command reservation timed out"
  timeoutMessage_nulFree := by decide
  storageError := .storage
  reserveError := .reservation
  notOwned := fun id _ => .missingReservation id
  hasDead := false

/-- `DieselPgEventRepository`. -/
def eventQueue : Queue where
  Own := String
  Metadata := Option EventMetadata
  Envelope := EventEnvelope
  NewEntry := NewEventEnvelope
  Error := EventError
  float := float
  display := EventError.display
  newRow := newEventEntry
  ownTexts := fun eventType => [eventType]
  readMetadata := optionalMetadata EventMetadata.ofValue
  envelope := eventEnvelope
  handed := fun e => ⟨e.id,some e.reservationId,e.payload,e.metadata,e.extraInfo,e.attempts⟩
  envelope_reserved := fun _ _ _ _ _ => ⟨_,rfl,rfl⟩
  failureDelay := cappedDelay
  failureSchedule := delayedSchedule
  failureTexts := fun _ => []
  failureTexts_reason := fun _ _ h => by cases h
  setLastError := fun _ own => own
  clearLastError := id
  timeoutOutcome := eventOutcome
  timeoutOutcome_failed := fun _ _ _ _ => rfl
  timeoutMessage := "event reservation timed out"
  timeoutMessage_nulFree := by decide
  storageError := .storage
  reserveError := .reservation
  notOwned := fun id _ => .missingReservation id
  hasDead := false

/-- `DieselPgInboxRepository`. -/
def inboxQueue : Queue where
  Own := Unit
  Metadata := InboxMessageMetadata
  Envelope := InboxMessageEnvelope
  NewEntry := NewInboxMessageEnvelope
  Error := InboxError
  float := float
  display := InboxError.display
  newRow := newInboxEntry
  ownTexts := fun _ => []
  readMetadata := requiredMetadata InboxMessageMetadata.ofValue
  envelope := inboxEnvelope
  handed := fun e => ⟨e.id,e.reservationId,e.payload,e.metadata,e.extraInfo,e.attempts⟩
  envelope_reserved := by
    intro r token metadata history hs
    refine ⟨_,by rw [inboxEnvelope,hs,Status.tryFrom_code],rfl⟩
  failureDelay := uncappedDelay
  failureSchedule := delayedSchedule
  failureTexts := fun _ => []
  failureTexts_reason := fun _ _ h => by cases h
  setLastError := fun _ own => own
  clearLastError := id
  timeoutOutcome := inboxOutcome
  timeoutOutcome_failed := fun _ _ _ _ => rfl
  timeoutMessage := "inbox reservation timed out"
  timeoutMessage_nulFree := by decide
  storageError := .storage
  reserveError := .storage
  notOwned := .reservationNotOwned
  hasDead := false

/-- `DieselPgOutboxRepository`. -/
def outboxQueue : Queue where
  Own := Option String
  Metadata := OutboxEntryMetadata
  Envelope := OutboxEntryEnvelope
  NewEntry := NewOutboxEntry
  Error := OutboxError
  float := float
  display := OutboxError.display
  newRow := newOutboxEntry
  ownTexts := Option.toList
  readMetadata := requiredMetadata OutboxEntryMetadata.ofValue
  envelope := outboxEnvelope
  handed := fun e => ⟨e.id,e.reservationId,e.payload,e.metadata,e.extraInfo,e.attempts⟩
  envelope_reserved := by
    intro r token metadata history hs
    refine ⟨_,by rw [outboxEnvelope,hs,Status.tryFrom_code],rfl⟩
  failureDelay := cappedDelay
  failureSchedule := outboxSchedule
  failureTexts := Option.toList
  failureTexts_reason := fun _ _ h => by simpa using h
  setLastError := fun reason _ => reason
  clearLastError := fun _ => none
  timeoutOutcome := outboxOutcome
  timeoutOutcome_failed := fun _ _ _ _ => rfl
  timeoutMessage := "publication reservation timed out"
  timeoutMessage_nulFree := by decide
  storageError := .storage
  reserveError := .storage
  notOwned := fun id token => .reservation
    ("outbox entry "++id.display++" is not reserved by reservation "++token.display)
  hasDead := true

end Profiles

/-- The four queues. -/
inductive QueueName where
  /-- `command_entries`. -/
  | commands
  /-- `event_entries`. -/
  | events
  /-- `inbox_entries`. -/
  | inbox
  /-- `outbox_entries`. -/
  | outbox
  deriving DecidableEq

/-- The profile of a queue. -/
def QueueName.queue (name : QueueName) (float : FloatReader) : Queue :=
  match name with
  | commands => commandQueue float
  | events => eventQueue float
  | inbox => inboxQueue float
  | outbox => outboxQueue float

end Mulac.FourQueues
