import Mulac.AmqpPublishing
import Mulac.CallTrace
import Mulac.InboxDeduplication

/-!
# From the outbox to the inbox

A publisher writes an entry into a request, a client reads a delivery into an
inbox message, in two libraries that know nothing of each other. Over a broker
that preserves what it is given they agree on the payload, on both ids and on
the routing key, so that every redelivery of an entry finds the row of the first
one and becomes the same command.
-/

namespace Mulac.MessageTransfer

open Identifiers QueueDomain KeyedTable Envelopes QueueRow Repository RepositoryContracts
  FourQueues CallSequence QueueCalls RowLifetimes Pipeline PanicProgram CallTrace AmqpPublishing
  AmqpConsumption Recording

section Publishing

/-- The requests that a call hands to the client. -/
def requestsOf : PublisherOp → List PublishRequest
  | .client op => op.sent
  | .timed op => op.sent
  | _ => []

variable {σ : Type} {handle : (op : PublisherOp) → σ → Option op.Reply × σ}

/-- A call hands over one request at most, this one. -/
def OnlySends (request : PublishRequest) (o : Observed PublisherOp PublisherOp.Reply) : Prop :=
  ∀ r ∈ requestsOf o.1, r = request

/-- A call that hands over no other request. -/
theorem onlySends_perform {request : PublishRequest} {op : PublisherOp}
    (h : ∀ r ∈ requestsOf op, r = request) (s : σ) :
    ∀ o ∈ trace handle (Prog.perform op : Prog PublisherOp PublisherOp.Reply op.Reply) s,
      OnlySends request o := by
  intro o ho
  rw [trace_perform] at ho
  rw [List.mem_singleton.mp ho]
  exact h

/-- An awaited call of the client hands over what the call does. -/
theorem onlySends_awaited {request : PublishRequest} {op : ClientOp}
    (h : ∀ r ∈ op.sent, r = request) (s : σ) :
    ∀ o ∈ trace handle (ConfirmedAmqpPublisher.awaited
      (Prog.perform : (op : PublisherOp) → Prog PublisherOp PublisherOp.Reply op.Reply) op) s,
      OnlySends request o := by
  have htimed : ∀ r ∈ requestsOf (.timed op), r = request := h
  refine forall_trace_bind (onlySends_perform htimed s) fun reply s' o ho => ?_
  rcases reply with ⟨_ | answer⟩ | _ <;> cases ho

/-- The calls of a publication, as the program itself. -/
abbrev call : (op : PublisherOp) → Prog PublisherOp PublisherOp.Reply op.Reply := Prog.perform

/-- `AmqpPublisher` hands over the request for the message and no other. -/
theorem onlySends_amqp (p : AmqpPublisher) (message : OutboundMessageEnvelope) (s : σ) :
    ∀ o ∈ trace handle (p.publish call message) s, OnlySends (p.request message) o := by
  have hasync : ∀ s : σ, ∀ o ∈ trace handle (p.publishAsync call message) s,
      OnlySends (p.request message) o := by
    intro s
    refine forall_trace_bind (onlySends_perform (by simp [requestsOf,ClientOp.sent]) s) ?_
    rintro (e | _) s₁
    · exact fun o ho => by cases ho
    · refine forall_trace_bind (onlySends_perform (by simp [requestsOf,ClientOp.sent]) s₁) ?_
      rintro (e | e | confirmation) s₂ o ho <;> cases ho
  refine forall_trace_bind (onlySends_perform (by simp [requestsOf]) s) fun running s₁ => ?_
  cases running with
  | true => exact hasync s₁
  | false =>
    refine forall_trace_bind (onlySends_perform (by simp [requestsOf]) s₁) ?_
    rintro (e | _) s₂
    · exact fun o ho => by cases ho
    · exact hasync s₂

/-- So does `ConfirmedAmqpPublisher`, also over a new connection. -/
theorem onlySends_confirmed (p : ConfirmedAmqpPublisher) (message : OutboundMessageEnvelope)
    (s : σ) : ∀ o ∈ trace handle (p.publish call message) s, OnlySends (p.request message) o := by
  have hconnect : ∀ s : σ, ∀ o ∈ trace handle (p.connect call) s,
      OnlySends (p.request message) o := by
    intro s
    refine forall_trace_bind (onlySends_awaited (by simp [ClientOp.sent]) s) ?_
    rintro (e | connection) s₁
    · exact fun o ho => by cases ho
    · refine forall_trace_bind (onlySends_awaited (by simp [ClientOp.sent]) s₁) ?_
      rintro (e | channel) s₂
      · exact fun o ho => by cases ho
      · refine forall_trace_bind (onlySends_awaited (by simp [ClientOp.sent]) s₂) ?_
        exact fun selected s₃ o ho => by cases ho
  have hconnected : ∀ held (s : σ), ∀ o ∈ trace handle (p.connected call held) s,
      OnlySends (p.request message) o := by
    intro held s
    cases held with
    | none => exact hconnect s
    | some connection => exact fun o ho => by cases ho
  have hattempt : ∀ held (s : σ), ∀ o ∈ trace handle (p.attempt call message held) s,
      OnlySends (p.request message) o := by
    intro held s
    refine forall_trace_bind (hconnected held s) ?_
    rintro (e | connection) s₁
    · exact fun o ho => by cases ho
    · refine forall_trace_bind (onlySends_awaited (by simp [ClientOp.sent]) s₁) ?_
      rintro (e | e | confirmation) s₂ o ho <;> cases ho
  refine forall_trace_bind (onlySends_perform (by simp [requestsOf]) s) fun running s₁ => ?_
  cases running with
  | false => exact fun o ho => by cases ho
  | true =>
    refine forall_trace_bind (onlySends_perform (by simp [requestsOf]) s₁) fun held s₂ => ?_
    refine forall_trace_bind (hattempt held s₂) fun attempted s₃ => ?_
    refine forall_trace_bind (onlySends_perform (by simp [requestsOf]) s₃) ?_
    exact fun _ s₄ o ho => by cases ho

/-- The requests of a publication, in a run of it. -/
def sentBy (handle : (op : PublisherOp) → σ → Option op.Reply × σ) (p : Publisher)
    (message : OutboundMessageEnvelope) (s : σ) : List PublishRequest :=
  (trace handle (p.publish call message) s).flatMap fun o => requestsOf o.1

/-- Whatever the client answers, a publication sends the request for its message. -/
theorem eq_of_sent {p : Publisher} {message : OutboundMessageEnvelope} {s : σ}
    {request : PublishRequest} (h : request ∈ sentBy handle p message s) :
    request = p.request message := by
  obtain ⟨o,ho,hr⟩ := List.mem_flatMap.mp h
  cases p with
  | amqp p => exact onlySends_amqp p message s o ho request hr
  | confirmed p => exact onlySends_confirmed p message s o ho request hr

/-- When the client answers, the request is sent once. -/
theorem sentBy_answering (p : Publisher) (connection : Held)
    (answer : Except LapinError PublisherConfirm) (message : OutboundMessageEnvelope) :
    sentBy (answering connection answer) p message [] = [p.request message] := by
  rcases p with p | p
  · rcases answer with e | e | c <;> rfl
  · rcases connection with _ | connection <;> rcases answer with e | e | c <;> rfl

end Publishing

section Delivering

/-- A delivery of a request by a broker that preserves the body, the exchange, the routing key
and the properties. -/
def delivered (request : PublishRequest) : Delivery :=
  ⟨request.payload,request.exchange,request.routingKey,request.properties.messageId,
    request.properties.correlationId⟩

/-- The exchange a publisher publishes to. -/
def exchangeOf : Publisher → String
  | .amqp p => p.config.exchange
  | .confirmed p => p.exchange

/-- What the client reads of a message that was published. -/
def received (p : Publisher) (message : OutboundMessageEnvelope) : AmqpMessage :=
  ⟨message.payload,some message.metadata.messageId,message.metadata.correlationId,
    nonempty (exchangeOf p),nonempty message.metadata.routingKey⟩

/-- The properties of a request carry both ids as texts. -/
theorem delivered_request (p : Publisher) (message : OutboundMessageEnvelope) :
    delivered (p.request message) = ⟨message.payload.toUTF8,exchangeOf p,
      message.metadata.routingKey,some message.metadata.messageId.display,
      message.metadata.correlationId.map Uuid.display⟩ := by
  cases p with
  | amqp p =>
    change delivered (p.request message) = _
    unfold delivered AmqpPublisher.request AmqpPublisher.propertiesFor
    cases message.metadata.correlationId <;> rfl
  | confirmed p =>
    change delivered (p.request message) = _
    unfold delivered ConfirmedAmqpPublisher.request ConfirmedAmqpPublisher.propertiesFor
    cases message.metadata.correlationId <;> rfl

/-- The client reads it back. -/
theorem unpack_delivered (p : Publisher) (message : OutboundMessageEnvelope) :
    unpack (delivered (p.request message)) = some (received p message) := by
  have hcorrelation : (message.metadata.correlationId.map Uuid.display).bind Uuid.parseStr =
      message.metadata.correlationId := by
    cases message.metadata.correlationId with
    | none => rfl
    | some id => rw [Option.map_some,Option.bind_some,Uuid.parseStr_display]
  have hbody : String.fromUTF8? message.payload.toUTF8 = some message.payload :=
    TextFaults.fromUTF8?_toByteArray message.payload
  rw [delivered_request,unpack]
  dsimp only
  rw [hbody,Option.map_some,hcorrelation,Option.bind_some,Uuid.parseStr_display,received]

/-- The routing key of an entry that converts is not empty. -/
theorem nonempty_of_ofEntry {entry : OutboxEntryEnvelope} {message : OutboundMessageEnvelope}
    (h : OutboundMessageEnvelope.ofEntry entry = .ok message) :
    message = ⟨entry.payload,entry.metadata⟩ ∧
      nonempty entry.metadata.routingKey = some entry.metadata.routingKey := by
  rw [OutboundMessageEnvelope.ofEntry] at h
  by_cases hblank : blank entry.metadata.routingKey = true
  · rw [if_pos hblank] at h
    cases h
  · rw [if_neg hblank] at h
    refine ⟨(Except.ok.inj h).symm,?_⟩
    rw [nonempty,if_neg]
    intro hempty
    rw [String.isEmpty_iff.mp hempty] at hblank
    exact hblank (by decide)

end Delivering

section Receiving

variable {float : SerdeJson.FloatReader} {entry : OutboxEntryEnvelope} {m : AmqpMessage}

/-- The rows of the inbox. -/
abbrev InboxRows (float : SerdeJson.FloatReader) := Rows (QueueName.inbox.queue float)

/-- The settlement of a delivery to the inbox, and the rows after it. -/
def settled (t : InboxRows float) (d : Delivery) (drawn : Uuid) (appNow now : Timestamp) :
    Settlement × InboxRows float := settle t d drawn appNow now

/-- The command of an entry. -/
def commandOf (entry : OutboxEntryEnvelope) (source : Option String) (drawn : Uuid) :
    NewCommandEnvelope :=
  ⟨entry.metadata.routingKey,entry.payload,
    some ⟨drawn,entry.metadata.correlationId,some entry.metadata.messageId,source⟩⟩

/-- What a delivery of an entry says. -/
def carriedOf (float : SerdeJson.FloatReader) (entry : OutboxEntryEnvelope)
    (source : Option String) : Carried .inbox float :=
  ⟨entry.metadata.messageId,none,entry.payload,
    (⟨some entry.metadata.messageId,entry.metadata.correlationId,source,
      some entry.metadata.routingKey⟩ : InboxMessageMetadata)⟩

/-- The inbox has the row of an entry, under its message id. -/
def HasRow (entry : OutboxEntryEnvelope) (source : Option String) (t : InboxRows float) : Prop :=
  ∃ r, t.find? entry.metadata.messageId = some r ∧
    Matches (carriedOf float entry source) (contentOf .inbox r)

/-- A delivery preserves the entry that was published; `m` is what the client reads of it. -/
structure Preserved (float : SerdeJson.FloatReader) (entry : OutboxEntryEnvelope) (d : Delivery)
    (m : AmqpMessage) : Prop where
  /-- The body is a text. -/
  unpacked : unpack d = some m
  /-- The message has the payload, both ids and the routing key, whatever id is drawn. -/
  message : ∀ drawn, NewInboxMessageEnvelope.ofInbound drawn (inboundOf m) =
    ⟨entry.payload,entry.metadata.messageId,entry.metadata.correlationId,m.source,
      some entry.metadata.routingKey⟩
  /-- Storing it is a call of the inbox, which leaves the rows under other ids alone. -/
  step : ∀ (t : InboxRows float) drawn appNow now,
    (settled t d drawn appNow now).2 = runStep t (.record (inboundOf m,drawn) appNow now) ∧
      ∀ id, id ≠ entry.metadata.messageId → (settled t d drawn appNow now).2.find? id = t.find? id
  /-- The first delivery that is stored gets the row. -/
  first : ∀ (t : InboxRows float) drawn appNow now, t.find? entry.metadata.messageId = none →
    (settled t d drawn appNow now).1 = .ack → HasRow entry m.source (settled t d drawn appNow now).2
  /-- The row is kept, and every redelivery finds it. -/
  kept : ∀ t : InboxRows float, HasRow entry m.source t →
    (∀ (steps : List (RunStep .inbox float)), ∀ i ≤ steps.length,
      HasRow entry m.source (stateAt runStep t steps i)) ∧
    ∀ drawn appNow now, (settled t d drawn appNow now).2 = t
  /-- It is handed out as the command of the entry. -/
  command : ∀ t : InboxRows float, HasRow entry m.source t → ∀ s : RunStep .inbox float,
    ∀ e ∈ handedOut t s.call, e.id = entry.metadata.messageId →
      ∀ drawn, NewCommandEnvelope.ofInbox drawn e = .ok (commandOf entry m.source drawn)

/-- No call of the inbox changes what the row holds. -/
theorem hasRow_step {source : Option String} {t : InboxRows float} (h : HasRow entry source t)
    (s : RunStep .inbox float) : HasRow entry source (runStep t s) := by
  obtain ⟨r,hf,hm⟩ := h
  obtain ⟨r',hf',hmove⟩ := row_move s.call hf
  exact ⟨r',hf',RowMove.content hmove ▸ hm⟩

/-- Nor does any sequence of calls. -/
theorem hasRow_run {source : Option String} {t : InboxRows float} (h : HasRow entry source t)
    (steps : List (RunStep .inbox float)) {i : ℕ} (hi : i ≤ steps.length) :
    HasRow entry source (stateAt runStep t steps i) :=
  invariant runStep (HasRow entry source) h (fun i hi ih => hasRow_step ih steps[i]) i hi

/-- The row is handed out as the command of the entry. -/
theorem command_of_hasRow {source : Option String} {t : InboxRows float}
    (h : HasRow entry source t) {s : RunStep .inbox float} {e : InboxMessageEnvelope}
    (he : e ∈ handedOut t s.call) (hid : e.id = entry.metadata.messageId) (drawn : Uuid) :
    NewCommandEnvelope.ofInbox drawn e = .ok (commandOf entry source drawn) := by
  obtain ⟨spec,draw,r,_,hf,_,hd,_,hr,_⟩ := handedOut_row he
  obtain ⟨r',hf',hm⟩ := h
  have hkey : e.id = r.id := hr
  rw [← hkey,hid,hf'] at hf
  obtain rfl : r' = r := Option.some.inj hf
  have hc := carries_of_decode (reservedRow_heldBy draw.token draw.now r') (hkey.symm.trans hid)
    ((content_reservedRow draw.token draw.now r').symm ▸ hm) hd
  have hpayload : e.payload = entry.payload := hc.payload
  have hmeta : e.metadata = ⟨some entry.metadata.messageId,entry.metadata.correlationId,source,
    some entry.metadata.routingKey⟩ := hc.metadata
  rw [NewCommandEnvelope.ofInbox,hmeta,hpayload]
  rfl

/-- A message of an entry is stored, as its row unless there is one, or it is delivered again. -/
theorem settled_cases {d : Delivery} (hunpack : unpack d = some m)
    (hcarried : ∀ drawn, carriedBy float .inbox (inboundOf m,drawn) =
      some (carriedOf float entry m.source))
    (t : InboxRows float) (drawn : Uuid) (appNow now : Timestamp) :
    (∃ r, settled t d drawn appNow now = (.ack,t.insertNew r) ∧
      r.id = entry.metadata.messageId ∧
      Matches (carriedOf float entry m.source) (contentOf .inbox r)) ∨
    settled t d drawn appNow now = (.requeue,t) := by
  let x : Submission .inbox := (inboundOf m,drawn)
  rcases record_submission x t appNow now with ⟨r,carried,he,hc,hid,hmatch,_⟩ | ⟨e,he⟩
  · left
    rw [hcarried] at hc
    obtain rfl := Option.some.inj hc
    refine ⟨r,?_,hid,hmatch⟩
    simp only [settled,settle,hunpack]
    exact congrArg (fun o => (settlementOf o.1,o.2)) he
  · right
    simp only [settled,settle,hunpack]
    exact congrArg (fun o => (settlementOf o.1,o.2)) he

/-- A delivery of the request for an entry preserves the entry. -/
theorem preserved_of_request (float : SerdeJson.FloatReader) (p : Publisher)
    {message : OutboundMessageEnvelope} (h : OutboundMessageEnvelope.ofEntry entry = .ok message) :
    Preserved float entry (delivered (p.request message)) (received p message) := by
  have hunpack := unpack_delivered p message
  obtain ⟨rfl,hkey⟩ := nonempty_of_ofEntry h
  generalize delivered (p.request ⟨entry.payload,entry.metadata⟩) = d at hunpack
  generalize hm : received p ⟨entry.payload,entry.metadata⟩ = m at hunpack
  have hinbound : inboundOf m = ⟨entry.payload,some entry.metadata.messageId,
      entry.metadata.correlationId,m.source,some entry.metadata.routingKey⟩ := by
    rw [← hm,inboundOf,received]
    dsimp only
    rw [hkey]
  have hcarried : ∀ drawn, carriedBy float .inbox (inboundOf m,drawn) =
      some (carriedOf float entry m.source) := by
    intro drawn
    rw [hinbound]
    rfl
  refine ⟨hunpack,fun drawn => by rw [hinbound]; rfl,fun t drawn appNow now => ⟨?_,?_⟩,?_,?_,?_⟩
  · simp only [settled,settle,hunpack]
    rfl
  · intro id hid
    rcases settled_cases hunpack hcarried t drawn appNow now with ⟨r,he,hr,_⟩ | he
    · have hother : r.id ≠ id := fun hk => hid (hk.symm.trans hr)
      rw [he,Table.find?_insertNew,if_neg hother]
      cases t.find? id <;> rfl
    · rw [he]
  · intro t drawn appNow now hnone hack
    rcases settled_cases hunpack hcarried t drawn appNow now with ⟨r,he,hr,hmatch⟩ | he
    · refine ⟨r,?_,hmatch⟩
      rw [he,Table.find?_insertNew,hnone]
      exact if_pos hr
    · rw [he] at hack
      cases hack
  · intro t hrow
    refine ⟨fun steps i hi => hasRow_run hrow steps hi,fun drawn appNow now => ?_⟩
    obtain ⟨r₀,hf,_⟩ := hrow
    rcases settled_cases hunpack hcarried t drawn appNow now with ⟨r,he,hr,_⟩ | he
    · rw [he]
      exact Table.insertNew_of_find? (hr ▸ hf)
    · rw [he]
  · exact fun t hrow s e he hid drawn => command_of_hasRow hrow he hid drawn

/-- Publishing and consuming preserve the message: whatever the client answers, every delivery
of what a publisher sent for an entry preserves the entry. -/
theorem message_preserved (float : SerdeJson.FloatReader) (p : Publisher)
    {message : OutboundMessageEnvelope} (h : OutboundMessageEnvelope.ofEntry entry = .ok message)
    {σ : Type} (handle : (op : PublisherOp) → σ → Option op.Reply × σ) (s : σ)
    {request : PublishRequest} (hsent : request ∈ sentBy handle p message s) :
    ∃ m, Preserved float entry (delivered request) m := by
  rw [eq_of_sent hsent]
  exact ⟨_,preserved_of_request float p h⟩

/-- An entry with a correlation id and without a source. -/
def invoiceEntry : OutboxEntryEnvelope :=
  ⟨.fromU128 3,.reserved,"[7]",.ofNew ⟨none,.fromU128 3,none,some (.fromU128 9),none,
    "InvoiceSent","billing.send",none,none⟩,0,1,some (.fromU128 7),some 0,0,0,none,none,none⟩

/-- Its message, over the default exchange. -/
theorem message_preserved_invoice : ∃ m, Preserved .integersOnly invoiceEntry
    (delivered ((Publisher.confirmed ⟨"amqp://broker",""⟩).request
      ⟨invoiceEntry.payload,invoiceEntry.metadata⟩)) m := by
  have hok : OutboundMessageEnvelope.ofEntry invoiceEntry =
      .ok ⟨invoiceEntry.payload,invoiceEntry.metadata⟩ := if_neg (by decide)
  refine message_preserved .integersOnly (.confirmed ⟨"amqp://broker",""⟩) hok
    (answering none (.ok (.ok (.ack none)))) [] ?_
  rw [sentBy_answering]
  exact List.mem_singleton_self _

end Receiving

end Mulac.MessageTransfer
