import Mulac.Envelopes
import Mulac.PanicProgram

/-!
# Publication over AMQP

`amqp_publisher.rs` and `confirmed_amqp_publisher.rs`: the request that each
publisher sends for a message, and the calls on runtime, connection and channel
around it. Each awaited call of the client may fail, and under the timeout of
the confirmed publisher it may also be given up.
-/

namespace Mulac.AmqpPublishing

open Identifiers Envelopes PanicProgram

section Client

/-- `FieldTable`, whose values are long strings here, in the order of their names. -/
abbrev FieldTable := List (String × String)

/-- `FieldTable::insert`. -/
def FieldTable.insert (name value : String) : FieldTable → FieldTable
  | [] => [(name,value)]
  | (n,v)::fields =>
    if name < n then (name,value)::(n,v)::fields
    else if name = n then (name,value)::fields
    else (n,v)::insert name value fields

/-- `BasicProperties`, as far as a publisher sets them. -/
structure BasicProperties where
  /-- The MIME type of the body. -/
  contentType : Option String
  /-- The headers. -/
  headers : Option FieldTable
  /-- Two for a persistent message. -/
  deliveryMode : Option ℕ
  /-- The conversation. -/
  correlationId : Option String
  /-- The message's identity. -/
  messageId : Option String
  deriving DecidableEq

/-- `BasicProperties::default`. -/
def BasicProperties.default : BasicProperties := ⟨none,none,none,none,none⟩

/-- The arguments of `basic_publish`. -/
structure PublishRequest where
  /-- The exchange; the empty name is the default one. -/
  exchange : String
  /-- The routing key. -/
  routingKey : String
  /-- Whether the broker returns what it cannot route. -/
  mandatory : Bool
  /-- The body. -/
  payload : ByteArray
  /-- The properties. -/
  properties : BasicProperties

/-- `BasicReturnMessage`. -/
structure BasicReturnMessage where
  /-- The reply code. -/
  replyCode : ℕ
  /-- The reply text. -/
  replyText : String
  deriving DecidableEq

/-- `Confirmation`. -/
inductive Confirmation where
  /-- The broker took the message; it returned what it could not route. -/
  | ack (returned : Option BasicReturnMessage)
  /-- The broker refused the message. -/
  | nack (returned : Option BasicReturnMessage)
  /-- The channel does not confirm. -/
  | notRequested
  deriving DecidableEq

/-- `lapin::Error`, by what it displays. -/
structure LapinError where
  /-- The text. -/
  display : String
  deriving DecidableEq

/-- `PublisherConfirm`, by what awaiting it returns. -/
abbrev PublisherConfirm := Except LapinError Confirmation

/-- `lapin::Connection`. -/
structure Connection where
  /-- Its number. -/
  number : ℕ
  deriving DecidableEq

/-- `lapin::Channel`. -/
structure Channel where
  /-- Its number. -/
  number : ℕ
  deriving DecidableEq

/-- The awaited calls of the client. -/
inductive ClientOp where
  /-- `Connection::connect`. -/
  | connect (url : String)
  /-- `create_channel`. -/
  | createChannel (connection : Connection)
  /-- `confirm_select`. -/
  | confirmSelect (channel : Channel)
  /-- `basic_publish`, and then its confirm. -/
  | basicPublish (channel : Channel) (request : PublishRequest)

/-- What a call of the client is awaited for. -/
abbrev ClientOp.Answer : ClientOp → Type
  | connect _ => Connection
  | createChannel _ => Channel
  | confirmSelect _ => Unit
  | basicPublish _ _ => PublisherConfirm

/-- What is awaited under a timeout. -/
inductive Timed (α : Type) where
  /-- In time. -/
  | done (a : α)
  /-- `Elapsed`. -/
  | elapsed

/-- What the confirmed publisher keeps between publications. -/
abbrev Held := Option (Connection × Channel)

/-- The calls of a publisher. -/
inductive PublisherOp where
  /-- `Handle::try_current`, and whether there is a runtime. -/
  | tryCurrent
  /-- `Builder::build`. -/
  | buildRuntime
  /-- `connection.lock`, and what is kept there. -/
  | lock
  /-- The guard is dropped over what it leaves. -/
  | unlock (connection : Held)
  /-- A call of the client. -/
  | client (op : ClientOp)
  /-- A call of the client under the timeout. -/
  | timed (op : ClientOp)

/-- What a call returns. -/
abbrev PublisherOp.Reply : PublisherOp → Type
  | tryCurrent => Bool
  | buildRuntime => Except String Unit
  | lock => Held
  | unlock _ => Unit
  | client op => Except LapinError op.Answer
  | timed op => Timed (Except LapinError op.Answer)

end Client

section Amqp

/-- `AmqpPublishConfig`. -/
structure AmqpPublishConfig where
  /-- The exchange. -/
  exchange : String
  /-- Whether the broker returns what it cannot route. -/
  mandatory : Bool
  /-- The content type of a message without one. -/
  defaultContentType : String
  deriving DecidableEq

/-- `AmqpPublishConfig::default`. -/
def AmqpPublishConfig.default : AmqpPublishConfig := ⟨"",false,"application/json"⟩

/-- `AmqpPublisher`. -/
structure AmqpPublisher where
  /-- The channel it publishes on. -/
  channel : Channel
  /-- How it publishes. -/
  config : AmqpPublishConfig

namespace AmqpPublisher

/-- `headers_for`. -/
def headersFor (metadata : OutboxEntryMetadata) : FieldTable :=
  let headers := FieldTable.insert "event_type" metadata.eventType
    (FieldTable.insert "event_id" metadata.eventId.display [])
  let headers :=
    match metadata.causationId with
    | some causationId => FieldTable.insert "causation_id" causationId.display headers
    | none => headers
  match metadata.source with
  | some source => FieldTable.insert "source" source headers
  | none => headers

/-- `properties_for`. -/
def propertiesFor (config : AmqpPublishConfig) (envelope : OutboundMessageEnvelope) :
    BasicProperties :=
  let properties := { BasicProperties.default with
    messageId := some envelope.metadata.messageId.display
    contentType := some (envelope.metadata.contentType.getD config.defaultContentType)
    headers := some (headersFor envelope.metadata) }
  match envelope.metadata.correlationId with
  | some correlationId => { properties with correlationId := some correlationId.display }
  | none => properties

/-- What is published for a message. -/
def request (p : AmqpPublisher) (envelope : OutboundMessageEnvelope) : PublishRequest :=
  ⟨p.config.exchange,envelope.metadata.routingKey,p.config.mandatory,envelope.payload.toUTF8,
    propertiesFor p.config envelope⟩

/-- `transport_error`. -/
def transportError (err : LapinError) : OutboxError := .transport err.display

/-- What a confirmation means. -/
def outcome : Confirmation → Except OutboxError Unit
  | .ack _ => .ok ()
  | .notRequested => .ok ()
  | .nack _ => .error (.transport "broker negatively acknowledged publish")

variable {Op : Type} {Reply : Op → Type} (call : (op : PublisherOp) → Prog Op Reply op.Reply)

/-- `publish_async`. -/
def publishAsync (p : AmqpPublisher) (envelope : OutboundMessageEnvelope) :
    Prog Op Reply (Except OutboxError Unit) := do
  match ← call (.client (.confirmSelect p.channel)) with
  | .error err => .ret (.error (transportError err))
  | .ok () =>
    match ← call (.client (.basicPublish p.channel (p.request envelope))) with
    | .error err => .ret (.error (transportError err))
    | .ok (.error err) => .ret (.error (transportError err))
    | .ok (.ok confirmation) => .ret (outcome confirmation)

/-- `OutboxPublisherPort::publish`: without a runtime it builds one. -/
def publish (p : AmqpPublisher) (envelope : OutboundMessageEnvelope) :
    Prog Op Reply (Except OutboxError Unit) := do
  if ← call .tryCurrent then p.publishAsync call envelope
  else
    match ← call .buildRuntime with
    | .error err => .ret (.error (.transport err))
    | .ok () => p.publishAsync call envelope

end AmqpPublisher

end Amqp

section Confirmed

/-- `ConfirmedAmqpPublisher`, beside the connection it keeps. -/
structure ConfirmedAmqpPublisher where
  /-- Where it connects to. -/
  url : String
  /-- The exchange. -/
  exchange : String

namespace ConfirmedAmqpPublisher

/-- `PERSISTENT_DELIVERY_MODE`. -/
def persistentDeliveryMode : ℕ := 2

/-- `DEFAULT_CONTENT_TYPE`. -/
def defaultContentType : String := "application/json"

/-- `err_transport`. -/
def errTransport : OutboxError := .transport "RabbitMQ connection or publication failed"

/-- `err_timeout`. -/
def errTimeout : OutboxError := .transport "RabbitMQ publication timed out"

/-- `err_runtime`. -/
def errRuntime : OutboxError :=
  .transport "RabbitMQ publication requires the application runtime"

/-- `err_unroutable`. -/
def errUnroutable : OutboxError := .routing "RabbitMQ returned an unroutable message"

/-- `err_rejected`. -/
def errRejected : OutboxError := .publish "RabbitMQ negatively acknowledged publication"

/-- `err_unconfirmed`. -/
def errUnconfirmed : OutboxError := .publish "RabbitMQ did not confirm publication"

/-- `require_confirmation`. -/
def requireConfirmation : Confirmation → Except OutboxError Unit
  | .ack none => .ok ()
  | .ack (some _) => .error errUnroutable
  | .nack _ => .error errRejected
  | .notRequested => .error errUnconfirmed

/-- The headers, of which those without a value are left out. -/
def headersFor (metadata : OutboxEntryMetadata) : FieldTable :=
  [("event_id",some metadata.eventId.display),("event_type",some metadata.eventType),
    ("causation_id",metadata.causationId.map Uuid.display),("source",metadata.source)].foldl
    (fun headers (name,value) =>
      match value with
      | some value => FieldTable.insert name value headers
      | none => headers) []

/-- `properties_for`. -/
def propertiesFor (envelope : OutboundMessageEnvelope) : BasicProperties :=
  let properties := { BasicProperties.default with
    deliveryMode := some persistentDeliveryMode
    messageId := some envelope.metadata.messageId.display
    contentType := some (envelope.metadata.contentType.getD defaultContentType)
    headers := some (headersFor envelope.metadata) }
  match envelope.metadata.correlationId with
  | some id => { properties with correlationId := some id.display }
  | none => properties

/-- What is published for a message. -/
def request (p : ConfirmedAmqpPublisher) (envelope : OutboundMessageEnvelope) : PublishRequest :=
  ⟨p.exchange,envelope.metadata.routingKey,true,envelope.payload.toUTF8,propertiesFor envelope⟩

variable {Op : Type} {Reply : Op → Type} (call : (op : PublisherOp) → Prog Op Reply op.Reply)

/-- A call of the client under the timeout, with the errors of the publisher. -/
def awaited (op : ClientOp) : Prog Op Reply (Except OutboxError op.Answer) := do
  match ← call (.timed op) with
  | .elapsed => .ret (.error errTimeout)
  | .done (.error _) => .ret (.error errTransport)
  | .done (.ok answer) => .ret (.ok answer)

/-- `connect`. -/
def connect (p : ConfirmedAmqpPublisher) :
    Prog Op Reply (Except OutboxError (Connection × Channel)) := do
  let opened : Except OutboxError Connection ← awaited call (.connect p.url)
  match opened with
  | .error err => .ret (.error err)
  | .ok connection =>
    let created : Except OutboxError Channel ← awaited call (.createChannel connection)
    match created with
    | .error err => .ret (.error err)
    | .ok channel =>
      let selected : Except OutboxError Unit ← awaited call (.confirmSelect channel)
      .ret (selected.map fun _ => (connection,channel))

/-- The connection that is kept, or a new one. -/
def connected (p : ConfirmedAmqpPublisher) :
    Held → Prog Op Reply (Except OutboxError (Connection × Channel))
  | some connection => .ret (.ok connection)
  | none => p.connect call

/-- The block under the timeout: what it leaves to be kept, and its result. -/
def attempt (p : ConfirmedAmqpPublisher) (envelope : OutboundMessageEnvelope)
    (connection : Held) : Prog Op Reply (Held × Except OutboxError Unit) := do
  match ← p.connected call connection with
  | .error err => .ret (none,.error err)
  | .ok connection =>
    match ← awaited call (.basicPublish connection.2 (p.request envelope)) with
    | .error err => .ret (some connection,.error err)
    | .ok (.error _) => .ret (some connection,.error errTransport)
    | .ok (.ok confirmation) => .ret (some connection,requireConfirmation confirmation)

/-- `publish_async`: after an error nothing is kept. -/
def publishAsync (p : ConfirmedAmqpPublisher) (envelope : OutboundMessageEnvelope) :
    Prog Op Reply (Except OutboxError Unit) := do
  let connection ← call .lock
  let attempted ← p.attempt call envelope connection
  call (.unlock (if attempted.2.isOk then attempted.1 else none))
  .ret attempted.2

/-- `OutboxPublisherPort::publish`. -/
def publish (p : ConfirmedAmqpPublisher) (envelope : OutboundMessageEnvelope) :
    Prog Op Reply (Except OutboxError Unit) := do
  if ← call .tryCurrent then p.publishAsync call envelope
  else .ret (.error errRuntime)

end ConfirmedAmqpPublisher

end Confirmed

section Requests

/-- The two publishers write the same headers. -/
theorem headersFor_eq (metadata : OutboxEntryMetadata) :
    ConfirmedAmqpPublisher.headersFor metadata = AmqpPublisher.headersFor metadata := by
  unfold ConfirmedAmqpPublisher.headersFor AmqpPublisher.headersFor
  cases metadata.causationId <;> cases metadata.source <;> rfl

/-- Under one default content type their properties differ in the delivery mode alone. -/
theorem propertiesFor_eq {config : AmqpPublishConfig}
    (h : config.defaultContentType = ConfirmedAmqpPublisher.defaultContentType)
    (envelope : OutboundMessageEnvelope) :
    ConfirmedAmqpPublisher.propertiesFor envelope =
      { AmqpPublisher.propertiesFor config envelope with
        deliveryMode := some ConfirmedAmqpPublisher.persistentDeliveryMode } := by
  unfold ConfirmedAmqpPublisher.propertiesFor AmqpPublisher.propertiesFor
  rw [h,headersFor_eq]
  cases envelope.metadata.correlationId <;> rfl

/-- A publisher. -/
inductive Publisher where
  /-- `AmqpPublisher`. -/
  | amqp (p : AmqpPublisher)
  /-- `ConfirmedAmqpPublisher`. -/
  | confirmed (p : ConfirmedAmqpPublisher)

/-- What a publisher publishes for a message. -/
def Publisher.request : Publisher → OutboundMessageEnvelope → PublishRequest
  | amqp p => p.request
  | confirmed p => p.request

/-- What a confirmation means to a publisher. -/
def Publisher.outcome : Publisher → Confirmation → Except OutboxError Unit
  | amqp _ => AmqpPublisher.outcome
  | confirmed _ => ConfirmedAmqpPublisher.requireConfirmation

/-- `OutboxPublisherPort::publish` of a publisher. -/
def Publisher.publish {Op : Type} {Reply : Op → Type}
    (call : (op : PublisherOp) → Prog Op Reply op.Reply) :
    Publisher → OutboundMessageEnvelope → Prog Op Reply (Except OutboxError Unit)
  | amqp p => p.publish call
  | confirmed p => p.publish call

end Requests

section Agreement

/-- What a client answers that works, and gives this answer to a publication. -/
def clientAnswer (answer : Except LapinError PublisherConfirm) :
    (op : ClientOp) → Except LapinError op.Answer
  | .connect _ => .ok ⟨0⟩
  | .createChannel _ => .ok ⟨0⟩
  | .confirmSelect _ => .ok ()
  | .basicPublish _ _ => answer

/-- The request of a call of the client. -/
def ClientOp.sent : ClientOp → List PublishRequest
  | .basicPublish _ request => [request]
  | _ => []

/-- A runtime and a client that work, where `connection` is kept; the requests are
remembered. -/
def answering (connection : Held) (answer : Except LapinError PublisherConfirm) :
    (op : PublisherOp) → List PublishRequest → Option op.Reply × List PublishRequest
  | .tryCurrent,sent => (some true,sent)
  | .buildRuntime,sent => (some (.ok ()),sent)
  | .lock,sent => (some connection,sent)
  | .unlock _,sent => (some (),sent)
  | .client op,sent => (some (clientAnswer answer op),sent++op.sent)
  | .timed op,sent => (some (.done (clientAnswer answer op)),sent++op.sent)

/-- One publication, by a publisher whose calls are answered so. -/
def publishes (p : Publisher) (connection : Held) (answer : Except LapinError PublisherConfirm)
    (envelope : OutboundMessageEnvelope) :
    Option (Except OutboxError Unit) × List PublishRequest :=
  (p.publish (Prog.perform : (op : PublisherOp) → Prog PublisherOp PublisherOp.Reply op.Reply)
    envelope).run (answering connection answer) []

/-- A publication sends one request, and succeeds if its confirmation means success. -/
theorem publishes_eq (p : Publisher) (connection : Held)
    (answer : Except LapinError PublisherConfirm) (envelope : OutboundMessageEnvelope) :
    ∃ result, publishes p connection answer envelope = (some result,[p.request envelope]) ∧
      (result = .ok () ↔ ∃ c, answer = .ok (.ok c) ∧ p.outcome c = .ok ()) := by
  rcases p with p | p
  · rcases answer with e | e | c
    all_goals exact ⟨_,rfl,by simp [Publisher.outcome]⟩
  · rcases connection with _ | connection <;> rcases answer with e | e | c
    all_goals exact ⟨_,rfl,by simp [Publisher.outcome]⟩

end Agreement

end Mulac.AmqpPublishing
