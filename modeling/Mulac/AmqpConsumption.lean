import Mulac.RepositoryContracts
import Mulac.FourQueues

/-!
# Deliveries of the broker

`amqp_consumption.rs` up to the settlement of one delivery: the delivery is
unpacked into an inbound message, stored, and acknowledged or refused by the
outcome of the store.
-/

namespace Mulac.AmqpConsumption

open Identifiers QueueDomain QueueRow Repository Envelopes FourQueues

/-- What the client reads of a lapin `Delivery`. -/
structure Delivery where
  /-- The body. -/
  data : ByteArray
  /-- The exchange it was published to. -/
  exchange : String
  /-- The routing key it was published with. -/
  routingKey : String
  /-- The `message_id` property. -/
  messageId : Option String
  /-- The `correlation_id` property. -/
  correlationId : Option String

/-- `AmqpMessage`, with the fields of its metadata. -/
structure AmqpMessage where
  /-- The body. -/
  payload : String
  /-- The message id, if it is a UUID. -/
  messageId : Option Uuid
  /-- The correlation id, if it is a UUID. -/
  correlationId : Option Uuid
  /-- The exchange, unless it is the default one. -/
  source : Option String
  /-- The routing key, unless it is empty. -/
  routingKey : Option String
  deriving DecidableEq

/-- `Some(s).filter(|s| !s.is_empty())`. -/
def nonempty (s : String) : Option String := if s.isEmpty then none else some s

/-- `unpack`: a body that is not UTF-8 has no message. -/
def unpack (d : Delivery) : Option AmqpMessage :=
  (String.fromUTF8? d.data).map fun payload =>
    ⟨payload,d.messageId.bind Uuid.parseStr,d.correlationId.bind Uuid.parseStr,
      nonempty d.exchange,nonempty d.routingKey⟩

/-- `From<&AmqpMessage> for InboundMessageEnvelope`. -/
def inboundOf (m : AmqpMessage) : InboundMessageEnvelope :=
  ⟨m.payload,m.messageId,m.correlationId,m.source,m.routingKey⟩

/-- How a delivery is settled. -/
inductive Settlement where
  /-- `ack`. -/
  | ack
  /-- `nack` with requeue: the broker delivers it again. -/
  | requeue
  /-- `nack` without requeue. -/
  | discard
  deriving DecidableEq

/-- A delivery is acknowledged once it is stored, and delivered again otherwise. -/
def settlementOf : Except InboxError Unit → Settlement
  | .ok () => .ack
  | .error _ => .requeue

theorem settlementOf_eq_ack {result : Except InboxError Unit} :
    settlementOf result = .ack ↔ result = .ok () := by
  cases result <;> simp [settlementOf]

/-- One delivery through `AmqpClient::next` and `WorkerLoop::run`; `drawn` is what
`Uuid::now_v7` returns for a delivery without an id. -/
def settle {float : SerdeJson.FloatReader} (t : Rows (inboxQueue float)) (d : Delivery)
    (drawn : Uuid) (appNow now : Timestamp) : Settlement × Rows (inboxQueue float) :=
  match unpack d with
  | none => (.discard,t)
  | some m =>
    let outcome := record t (NewInboxMessageEnvelope.ofInbound drawn (inboundOf m)) appNow now
    (settlementOf outcome.1,outcome.2)

end Mulac.AmqpConsumption
