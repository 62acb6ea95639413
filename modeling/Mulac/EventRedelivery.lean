import Mulac.HandoffRules
import Mulac.QueueRuns

/-!
# Redelivered events

An event consumer with a subscriber that records an outbox message for each
event, beside the outbox consumers. However often the event is delivered, the
outbox has one row for it, which keeps the message that was recorded first, and
every publication of the row shows the same message id.
-/

namespace Mulac.EventRedelivery

open Identifiers Postgres SerdeJson QueueDomain KeyedTable Envelopes QueueRow Repository
  RepositoryContracts FourQueues QueueCalls QueueRuns PanicProgram Interference Consumers PortCalls
  ItemRules Dispatch Pipeline Handoffs HandoffRules

section Programs

/-- `validate_routing_key`. -/
def validateRoutingKey (envelope : NewOutboxEnvelope) : Except OutboxError Unit :=
  if ¬validSequence envelope.metadata.sequence then .error (.routing invalidSequence)
  else if blank envelope.metadata.routingKey then .error (.routing "routing_key is required")
  else .ok ()

/-- `OutboxRecorder::record`. -/
def OutboxRecorder.record {Op : Type} {Reply : Op → Type} (utcNow : Prog Op Reply Timestamp)
    (store : NewOutboxEntry → Prog Op Reply (Except OutboxError Unit))
    (envelope : NewOutboxEnvelope) : Prog Op Reply (Except OutboxError Unit) :=
  match validateRoutingKey envelope with
  | .error error => .ret (.error error)
  | .ok () => do
    let now ← utcNow
    store (.ofEnvelope now envelope)

variable (app : Application) (float : SerdeJson.FloatReader)

/-- The subscriber of an application that records a message for each event. -/
structure Relay where
  /-- Which of the registered subscribers it is. -/
  isRelay : app.Subscriber → Bool
  /-- The message of an event. -/
  envelope : NewEventEnvelope → NewOutboxEnvelope
  /-- The message has the id of its event. -/
  envelope_eventId : ∀ event m, event.metadata = some m →
    (envelope event).metadata.eventId = m.eventId
  /-- How it reports that the outbox refused the message. -/
  error : OutboxError → EventError

/-- The calls of the two consumers. -/
inductive RelayOp where
  /-- A call on a table or the application. -/
  | system (op : SystemOp app float)
  /-- `Utc::now`. -/
  | utcNow

variable {app float}

/-- What a call returns. -/
abbrev RelayOp.Reply : RelayOp app float → Type
  | system op => op.Reply
  | utcNow => Timestamp

variable (app float)

/-- A program of the two consumers. -/
abbrev RelayProgram (α : Type) := Prog (RelayOp app float) RelayOp.Reply α

variable {app float}

/-- Make a call. -/
def system (op : SystemOp app float) : RelayProgram app float op.Reply :=
  Prog.perform (RelayOp.system op)

/-- Read the clock. -/
def utcNow : RelayProgram app float Timestamp := Prog.perform RelayOp.utcNow

/-- The ports of a consumer. -/
def relayPorts (name : QueueName) : Ports (name.queue float) (RelayOp app float) RelayOp.Reply where
  reserve := fun spec => system (.port name (.reserve spec))
  completed := fun id token => system (.port name (.completed id token))
  failed := fun id token maxAttempts reason =>
    system (.port name (.failed id token maxAttempts reason))

/-- `OutboxStorePort::record`. -/
def storeEntry (entry : NewOutboxEntry) : RelayProgram app float (Except OutboxError Unit) :=
  system (.record .outbox entry)

/-- `EventSubscriberPort::handle` of a subscriber of the application. -/
def callSubscriber (subscriber : app.Subscriber) (event : NewEventEnvelope) :
    RelayProgram app float (Except EventError Unit) := system (.handle subscriber event)

/-- `EventSubscriberPort::handle`: the relay records, the others do what they like. -/
def Relay.handle (relay : Relay app) (subscriber : app.Subscriber) (event : NewEventEnvelope) :
    RelayProgram app float (Except EventError Unit) :=
  if relay.isRelay subscriber then do
    let result ← OutboxRecorder.record utcNow storeEntry (relay.envelope event)
    .ret (result.mapError relay.error)
  else callSubscriber subscriber event

/-- The dispatcher of `EventConsumer`. -/
def Relay.dispatcher (relay : Relay app) (envelope : NewEventEnvelope) :
    RelayProgram app float (Except EventError Unit) :=
  EventDispatcher.dispatch (EventSubscriberRegistry.handle app.subscribers relay.handle) envelope

/-- The publisher of `OutboxConsumer`. -/
def relayPublisher (message : OutboundMessageEnvelope) :
    RelayProgram app float (Except OutboxError Unit) := system (.publish message)

/-- One batch of one of the two consumers. -/
inductive Relay.Runs (relay : Relay app) : RelayProgram app float Unit → Prop
  /-- `EventConsumer::consume`. -/
  | events (spec : ReservableSpec) : Runs relay
    (consumeEvents float (relayPorts .events) relay.dispatcher spec >>= fun _ => .ret ())
  /-- `OutboxConsumer::publish_batch`. -/
  | outbox (spec : ReservableSpec) : Runs relay
    (publishBatch float (relayPorts .outbox) relayPublisher spec >>= fun _ => .ret ())

end Programs

section System

variable {app : Application} {float : SerdeJson.FloatReader}

/-- What a call may answer and leave. -/
inductive RelayPerforms (i : ℕ) (w : World app float) :
    (op : RelayOp app float) → Option op.Reply → World app float → Prop
  /-- A call of the system. -/
  | system {op : SystemOp app float} {reply : Option op.Reply} {w' : World app float} :
    Performs i w op reply w' → RelayPerforms i w (.system op) reply w'
  /-- The clock shows anything. -/
  | utcNow (now : Timestamp) : RelayPerforms i w .utcNow (some now) w

/-- What others may record, if an event is the relay's: no outbox message for it. -/
def Foreign (k : Uuid) : (name : QueueName) → (name.queue float).NewEntry → Prop
  | .outbox => fun (entry : NewOutboxEntry) => entry.id ≠ k ∧ entry.metadata.eventId ≠ k
  | _ => fun _ => True

/-- What everyone else does: any call on any table. -/
def Elsewhere (k : Uuid) (w w' : World app float) : Prop :=
  ∃ (name : QueueName) (c : Call (name.queue float)),
    (∀ entry appNow now, c = .record entry appNow now → Foreign k name entry) ∧
      w' = w.commit none name (step (w.tables name) c)

/-- The two consumers, where only the relay records outbox messages for an event. -/
def relayTeam (float : SerdeJson.FloatReader) (relay : Relay app) (k : Uuid) :
    Team (RelayOp app float) RelayOp.Reply (World app float) where
  perform := fun i op w reply w' => RelayPerforms i w op reply w'
  outside := Elsewhere k
  programs := relay.Runs

end System

section Invariant

variable {app : Application} {float : SerdeJson.FloatReader} {relay : Relay app} {k : Uuid}
  {w w' : World app float} {i : ℕ}

/-- The row under an id holds the event. -/
def IsEvent (w : World app float) (k : Uuid) (event : NewEventEnvelope) : Prop :=
  ∃ c, w.content .events k = some c ∧ c.type = some event.eventType ∧ c.payload = event.payload ∧
    optionalMetadata EventMetadata.ofValue c.metadata = .ok event.metadata

theorem IsEvent.mono {event : NewEventEnvelope} (h : IsEvent w k event) (hk : Keeps w w') :
    IsEvent w' k event := by
  obtain ⟨c,hc,hrest⟩ := h
  exact ⟨c,hk _ _ _ hc,hrest⟩

/-- A row holds one event. -/
theorem IsEvent.unique {event event' : NewEventEnvelope} (h : IsEvent w k event)
    (h' : IsEvent w k event') : event = event' := by
  obtain ⟨c,hc,ht,hp,hm⟩ := h
  obtain ⟨c',hc',ht',hp',hm'⟩ := h'
  rw [hc] at hc'
  cases hc'
  obtain ⟨type,payload,metadata⟩ := event
  obtain ⟨type',payload',metadata'⟩ := event'
  have htype : type = type' := Option.some.inj (ht.symm.trans ht')
  have hpayload : payload = payload' := hp.symm.trans hp'
  have hmetadata : metadata = metadata' := Except.ok.inj (hm.symm.trans hm')
  rw [htype,hpayload,hmetadata]

/-- The message that the outbox publishes for an event. -/
def Relay.message (relay : Relay app) (event : NewEventEnvelope) : OutboundMessageEnvelope :=
  ⟨(relay.envelope event).payload,.ofNew (relay.envelope event).metadata⟩

/-- The row of an outbox entry. -/
theorem outbox_row (float : SerdeJson.FloatReader) {entry : NewOutboxEntry}
    {appNow now : Timestamp} {n : NewRow (Option String)} {metadata : Jsonb}
    (hn : newOutboxEntry entry appNow now = .ok n) (hm : metadata.value = n.metadata) :
    n.id = entry.id ∧
      contentOf .outbox (storedRow n metadata : Row (QueueName.outbox.queue float).Own) =
        ⟨none,entry.payload,some metadata⟩ ∧
      requiredMetadata OutboxEntryMetadata.ofValue (some metadata) = .ok entry.metadata := by
  unfold newOutboxEntry at hn
  split at hn
  · next hs =>
    cases hn
    refine ⟨rfl,rfl,?_⟩
    rw [requiredMetadata,hm,OutboxEntryMetadata.ofValue_toValue hs]
    rfl
  · cases hn

/-- What may be recorded: outbox messages for other events, and the relay's own. -/
def Recordable (relay : Relay app) (k : Uuid) (w : World app float) :
    (name : QueueName) → (name.queue float).NewEntry → Prop
  | .outbox => fun (entry : NewOutboxEntry) => (entry.id ≠ k ∧ entry.metadata.eventId ≠ k) ∨
    ∃ event now, IsEvent w k event ∧ entry = .ofEnvelope now (relay.envelope event)
  | _ => fun _ => True

theorem Foreign.recordable {name : QueueName} {entry : (name.queue float).NewEntry}
    (h : Foreign k name entry) : Recordable relay k w name entry := by
  cases name with
  | outbox => exact .inl h
  | commands => trivial
  | events => trivial
  | inbox => trivial

/-- What may be published: for the event, nothing but its message. -/
def Publishable (relay : Relay app) (k : Uuid) (w : World app float)
    (message : OutboundMessageEnvelope) : Prop :=
  message.metadata.eventId = k → ∃ event, IsEvent w k event ∧ message = relay.message event

theorem Publishable.mono {message : OutboundMessageEnvelope} (h : Publishable relay k w message)
    (hk : Keeps w w') : Publishable relay k w' message := by
  intro hid
  obtain ⟨event,he,hm⟩ := h hid
  exact ⟨event,he.mono hk,hm⟩

/-- What holds of every world. -/
structure Inv (relay : Relay app) (k : Uuid) (w : World app float) : Prop where
  /-- An event's id is its row's. -/
  events : ∀ j c, w.content .events j = some c →
    ∃ m, optionalMetadata EventMetadata.ofValue c.metadata = .ok (some m) ∧ m.eventId = j
  /-- A message for the event stands under the event's id. -/
  outbox : ∀ j c m, w.content .outbox j = some c →
    requiredMetadata OutboxEntryMetadata.ofValue c.metadata = .ok m → m.eventId = k → j = k
  /-- It is the message of the event. -/
  recorded : ∀ c, w.content .outbox k = some c → ∃ event, IsEvent w k event ∧
    c.payload = (relay.message event).payload ∧
    requiredMetadata OutboxEntryMetadata.ofValue c.metadata = .ok (relay.message event).metadata
  /-- Nothing else was published for it. -/
  published : ∀ i message reply, .published message reply ∈ w.log i →
    Publishable relay k w message

/-- The message of a stored event has the event's id. -/
theorem Inv.envelope_eventId (h : Inv relay k w) {j : Uuid} {event : NewEventEnvelope}
    (he : IsEvent w j event) : (relay.envelope event).metadata.eventId = j := by
  obtain ⟨c,hc,_,_,hm⟩ := he
  obtain ⟨m,hread,hid⟩ := h.events j c hc
  exact (relay.envelope_eventId event m (Except.ok.inj (hm.symm.trans hread))).trans hid

/-- A step that records and publishes nothing wrong keeps the invariant. -/
theorem Inv.evolve (h : Inv relay k w) {doer : Option ℕ}
    {inserts : (name : QueueName) → (name.queue float).NewEntry → Prop}
    {completes : QueueName → Uuid → Prop} (hev : Evolves doer inserts completes w w')
    (hi : ∀ name entry, inserts name entry → Recordable relay k w name entry)
    (hl : ∀ i message reply, .published message reply ∈ w'.log i →
      .published message reply ∈ w.log i ∨ Publishable relay k w message) : Inv relay k w' := by
  have hk := hev.keeps
  -- an outbox row is as old as the step, or holds what the step may record
  have hrow : ∀ j c, w'.content .outbox j = some c → w.content .outbox j = some c ∨
      ∃ entry : NewOutboxEntry, j = entry.id ∧ c.payload = entry.payload ∧
        requiredMetadata OutboxEntryMetadata.ofValue c.metadata = .ok entry.metadata ∧
        Recordable relay k w .outbox entry := by
    intro j c hc
    refine (Evolves.content_cases hev hc).imp_right ?_
    rintro ⟨_,_,entry,appNow,now,n,metadata,hins,hn,hm,hid,rfl⟩
    change newOutboxEntry entry appNow now = .ok n at hn
    obtain ⟨hn',hcontent,hread⟩ := outbox_row float hn hm
    refine ⟨entry,hid.symm.trans hn',?_,?_,hi _ _ hins⟩
    · exact congrArg Content.payload hcontent
    · rw [hcontent]
      exact hread
  refine ⟨fun j c hc => ?_,fun j c m hc hm hid => ?_,fun c hc => ?_,fun i message reply hp => ?_⟩
  · rcases Evolves.content_cases hev hc with
      hold | ⟨_,_,entry,appNow,now,n,metadata,_,hn,hm,hid,rfl⟩
    · exact h.events j c hold
    · obtain ⟨m,_,hn',hcontent,hread⟩ := event_row float hn hm
      rw [hcontent]
      exact ⟨m,hread,hn'.symm.trans hid⟩
  · rcases hrow j c hc with hold | ⟨entry,rfl,_,hread,hforeign | ⟨event,now,he,rfl⟩⟩
    · exact h.outbox j c m hold hm hid
    · rw [hm] at hread
      cases hread
      exact absurd hid hforeign.2
    · exact h.envelope_eventId he
  · rcases hrow k c hc with hold | ⟨entry,hid,hpayload,hread,hforeign | ⟨event,now,he,rfl⟩⟩
    · obtain ⟨event,he,hrest⟩ := h.recorded c hold
      exact ⟨event,he.mono hk,hrest⟩
    · exact absurd hid.symm hforeign.1
    · exact ⟨event,he.mono hk,hpayload,hread⟩
  · rcases hl i message reply hp with hold | hnew
    · exact (h.published i message reply hold).mono hk
    · exact hnew.mono hk

/-- Only a publication adds to what was published. -/
theorem Performs.published {op : SystemOp app float} {reply : Option op.Reply}
    (h : Performs i w op reply w') {j : ℕ} {message : OutboundMessageEnvelope}
    {answer : Option (Except OutboxError Unit)} (hm : .published message answer ∈ w'.log j) :
    .published message answer ∈ w.log j ∨ op = .publish message := by
  have hobserve : ∀ o, .published message answer ∈ (w.observe i o).log j →
      .published message answer ∈ w.log j ∨ o = .published message answer := by
    intro o hin
    by_cases hj : j = i
    · subst hj
      rw [observe_log,List.mem_append,List.mem_singleton] at hin
      exact hin.imp_right Eq.symm
    · have hlog : (w.observe i o).log j = w.log j := Function.update_of_ne hj ..
      exact .inl (hlog ▸ hin)
  cases h with
  | record name entry appNow now hl => exact .inl hm
  | reserve name spec draw hl => exact .inl hm
  | completed name id token now hl => exact .inl hm
  | failed name id token maxAttempts reason now hl => exact .inl hm
  | nowV7 u hd hk => exact .inl hm
  | execute handler command reply => exact (hobserve _ hm).imp_right nofun
  | handle subscriber envelope reply => exact (hobserve _ hm).imp_right nofun
  | publish message' reply =>
    refine (hobserve _ hm).imp_right fun ho => ?_
    cases ho
    rfl

/-- What happens elsewhere, as such a step. -/
theorem Elsewhere.evolves (h : Elsewhere k w w') :
    Evolves none (Foreign k) (fun _ _ => True) w w' := by
  obtain ⟨name,c,hc,rfl⟩ := h
  exact evolves_commit c (.inl rfl) hc fun _ _ _ _ => trivial

/-- What a run owes before a call. -/
def Owes (relay : Relay app) (k : Uuid) : RelayOp app float → World app float → Prop
  | .system (.record name entry),w => Recordable relay k w name entry
  | .system (.publish message),w => Publishable relay k w message
  | _,_ => True

theorem RelayPerforms.keeps {op : RelayOp app float} {reply : Option op.Reply}
    (h : RelayPerforms i w op reply w') : Keeps w w' := by
  cases h with
  | utcNow now => exact fun _ _ _ hc => hc
  | system hs => exact hs.evolves.keeps

/-- What the runs owe to and expect of each other. -/
def discipline (float : SerdeJson.FloatReader) (relay : Relay app) (k : Uuid) :
    (relayTeam float relay k).Discipline where
  rely := fun _ => Keeps
  inv := Inv relay k
  owes := fun _ => Owes relay k
  new := fun _ _ => True
  rely_refl := fun _ _ _ _ _ hc => hc
  rely_trans := fun h h' name k c hc => h' name k c (h name k c hc)
  new_rely := fun _ _ => trivial
  call_inv := by
    rintro i op w reply w' hi ho hs
    cases hs with
    | utcNow now => exact hi
    | system hs =>
      refine hi.evolve hs.evolves ?_ fun j message answer hp => ?_
      · rintro name entry rfl
        exact ho
      · refine (Performs.published hs hp).imp_right ?_
        rintro rfl
        exact ho
  call_rely := fun _ _ hs _ => RelayPerforms.keeps hs
  outside_inv := by
    intro w w' hi ho
    refine hi.evolve (Elsewhere.evolves ho) (fun _ _ => Foreign.recordable) ?_
    obtain ⟨name,c,_,rfl⟩ := ho
    exact fun _ _ _ hp => .inl hp
  outside_rely := fun _ ho => (Elsewhere.evolves ho).keeps

end Invariant

section Rules

variable {app : Application} {float : SerdeJson.FloatReader} {relay : Relay app} {k : Uuid}
  {w w' : World app float} {i : ℕ}

/-- The rule of a call. -/
theorem safe_system {op : SystemOp app float}
    (ho : ∀ v, Keeps w v → Inv relay k v → Owes relay k (.system op) v) :
    Safe ((discipline float relay k).rules i) (system op) (fun _ _ => True) w :=
  Safe.perform fun v hv hi => ⟨ho v hv hi,fun _ _ _ _ _ _ _ => trivial⟩

/-- The rule of the subscribers: the relay records the message of the event. -/
theorem safe_handle {j : Uuid} {event : NewEventEnvelope} (he : IsEvent w j event)
    (subscriber : app.Subscriber) :
    Safe ((discipline float relay k).rules i) (relay.handle subscriber event) (fun _ _ => True)
      w := by
  have hstore : ∀ now v, IsEvent v j event → Safe ((discipline float relay k).rules i)
      (storeEntry (.ofEnvelope now (relay.envelope event))) (fun _ _ => True) v := by
    refine fun now v hv => safe_system fun u hu hi => ?_
    have hu' := hv.mono hu
    have hid := hi.envelope_eventId hu'
    by_cases hj : j = k
    · exact .inr ⟨event,now,hj ▸ hu',rfl⟩
    · exact .inl ⟨fun h => hj (hid.symm.trans h),fun h => hj (hid.symm.trans h)⟩
  have hrecord : Safe ((discipline float relay k).rules i)
      (OutboxRecorder.record utcNow storeEntry (relay.envelope event)) (fun _ _ => True) w := by
    unfold OutboxRecorder.record
    split
    · exact fun _ _ _ => trivial
    · refine Safe.bind (Safe.perform fun v hv _ => ⟨trivial,fun reply u hs _ x hx _ => ?_⟩)
      have hkeeps : Keeps v u := RelayPerforms.keeps hs
      cases reply with
      | none => trivial
      | some now => exact hstore now x (((he.mono hv).mono hkeeps).mono hx)
  by_cases hr : relay.isRelay subscriber = true
  · rw [Relay.handle,if_pos hr]
    exact hrecord.bind_ret
  · rw [Relay.handle,if_neg hr]
    exact safe_system fun _ _ _ => trivial

/-- The rule of the loop over the subscribers. -/
theorem safe_handleAll {j : Uuid} {event : NewEventEnvelope} (subscribers : List app.Subscriber)
    (he : IsEvent w j event) :
    Safe ((discipline float relay k).rules i) (handleAll relay.handle event subscribers)
      (fun _ _ => True) w := by
  induction subscribers generalizing w with
  | nil => exact fun _ _ _ => trivial
  | cons subscriber subscribers ih =>
    have hturn := Safe.frame (R:=(discipline float relay k).rules i)
      (F:=fun v => IsEvent v j event) (fun a b ha hr => ha.mono hr)
      (fun a op reply b ha _ _ hs => ha.mono (RelayPerforms.keeps hs)) (safe_handle he subscriber)
      he
    exact Safe.bind_ok (hturn.mono fun o v hv a _ => ih hv.2) (fun _ => trivial)
      fun _ _ _ _ _ => trivial

theorem HandedOut.mono {name : QueueName} {e : (name.queue float).Envelope}
    (h : HandedOut w name e) (hk : Keeps w w') : HandedOut w' name e := by
  obtain ⟨c,token,hc,hrest⟩ := h
  exact ⟨c,token,hk _ _ _ hc,hrest⟩

/-- The rule of a consumer, from the rule of its work. -/
theorem safe_relayConsume (name : QueueName)
    (work : (name.queue float).Envelope →
      RelayProgram app float (Except (name.queue float).Error Unit)) (spec : ReservableSpec)
    (hwork : ∀ e v, HandedOut v name e →
      Safe ((discipline float relay k).rules i) (work e) (fun _ _ => True) v) :
    Safe ((discipline float relay k).rules i)
      (consume (itemsOf name float) (relayPorts name) work spec) (fun _ _ => True) w := by
  refine safe_entries (fun e v => HandedOut v name e) (fun _ _ _ => True) ?_ ?_ ?_ ?_
  · exact fun e a b h hr => HandedOut.mono h hr
  · exact fun _ e' _ a op reply b h _ _ _ hs => HandedOut.mono h (RelayPerforms.keeps hs)
  · refine Safe.perform fun v hv _ => ⟨trivial,?_⟩
    rintro reply u hs _ x hx _ entries rfl
    cases hs with
    | system hs =>
      obtain ⟨hn,hout⟩ := Performs.reserved hs
      exact ⟨hn,fun e he => HandedOut.mono (hout e he) hx⟩
  · rintro e errors v _ hout
    have hport : ∀ op v, Safe ((discipline float relay k).rules i) (system (.port name op))
        (fun _ _ => True) v := fun op v => safe_system fun _ _ _ => trivial
    obtain ⟨_,token,_,_,ht⟩ := id hout
    refine safe_processEntry (fun _ => True) ht ?_ ?_ ?_
    · refine ((hwork e v hout).also fun _ _ => trivial).mono ?_
      exact fun _ _ _ _ _ _ _ => trivial
    · exact fun v' _ _ => (hport _ v').also fun _ _ => trivial
    · exact fun reason v' => (hport _ v').also fun _ _ => trivial

/-- The rule of the two consumers. -/
theorem safe_runs {p : RelayProgram app float Unit} (h : relay.Runs p) :
    Safe ((discipline float relay k).rules i) p (fun _ _ => True) w := by
  cases h with
  | events spec =>
    refine Safe.bind_ret (safe_relayConsume .events (dispatchEvent relay.dispatcher) spec ?_)
    rintro e v ⟨c,_,hc,⟨htype,hpayload,hmeta⟩,_⟩
    exact safe_handleAll _ ⟨c,hc,htype,hpayload,hmeta⟩
  | outbox spec =>
    refine Safe.bind_ret (safe_relayConsume .outbox (publishEntry relayPublisher) spec ?_)
    rintro e v ⟨c,_,hc,⟨hpayload,hmeta⟩,_⟩
    unfold publishEntry OutboundMessageEnvelope.ofEntry
    split
    · exact fun _ _ _ => trivial
    · next message hmessage =>
      split at hmessage
      · cases hmessage
      · cases hmessage
        refine safe_system fun u hu hi hid => ?_
        have hcu := hu _ _ _ hc
        obtain rfl := hi.outbox _ c _ hcu hmeta hid
        obtain ⟨event,he,hpayload',hmeta'⟩ := hi.recorded c hcu
        have hmetadata : e.metadata = (relay.message event).metadata :=
          Except.ok.inj (hmeta.symm.trans hmeta')
        refine ⟨event,he,?_⟩
        rw [hmetadata,← hpayload,hpayload']

/-- The invariant holds of every world that the consumers reach. -/
theorem reaches_inv {s : Pool (RelayOp app float) RelayOp.Reply (World app float)}
    (h : (relayTeam float relay k).Reaches (World.empty app float) s) : Inv relay k s.world := by
  refine ((discipline float relay k).reaches_safe ?_ (fun _ => trivial) ?_ h).inv
  · -- the tables and the logs are empty
    refine ⟨?_,?_,?_,?_⟩
    · exact fun _ _ hc => by cases hc
    · exact fun _ _ _ hc => by cases hc
    · exact fun _ hc => by cases hc
    · exact fun _ _ _ ho => by cases ho
  · exact fun i p w hp _ _ => safe_runs hp

end Rules

section Lifetime

variable {app : Application} {float : SerdeJson.FloatReader} {relay : Relay app} {k : Uuid}
  {w w' : World app float} {i : ℕ} {name : QueueName}

/-- Each table is left alone, or has one more call. -/
def TableStep (w w' : World app float) : Prop :=
  ∀ name, w'.tables name = w.tables name ∨
    ∃ c : Call (name.queue float), w'.tables name = step (w.tables name) c

theorem tableStep_commit {doer : Option ℕ} {t : Rows (name.queue float)}
    (c : Call (name.queue float)) (h : t = step (w.tables name) c ∨ t = w.tables name) :
    TableStep w (w.commit doer name t) := by
  intro name'
  by_cases hn : name' = name
  · subst hn
    have htab : (w.commit doer name' t).tables name' = t := Function.update_self ..
    rw [htab]
    exact h.symm.imp_right fun ht => ⟨c,ht⟩
  · exact .inl (Function.update_of_ne hn ..)

theorem Performs.tables {op : SystemOp app float} {reply : Option op.Reply}
    (h : Performs i w op reply w') : TableStep w w' := by
  cases h with
  | record name entry appNow now hl => exact tableStep_commit (.record entry appNow now) hl.table
  | reserve name spec draw hl => exact tableStep_commit (.reserve spec draw) hl.table
  | completed name id token now hl =>
    exact tableStep_commit (.finalize .completed id token now) hl.table
  | failed name id token maxAttempts reason now hl =>
    exact tableStep_commit (.finalize (.failed maxAttempts reason) id token now) hl.table
  | nowV7 u hd hk => exact fun _ => .inl rfl
  | execute handler command reply => exact fun _ => .inl rfl
  | handle subscriber envelope reply => exact fun _ => .inl rfl
  | publish message reply => exact fun _ => .inl rfl

/-- A step of the two consumers does no more to the tables. -/
theorem step_tables {s s' : Pool (RelayOp app float) RelayOp.Reply (World app float)}
    (h : (relayTeam float relay k).Step s s') : TableStep s.world s'.world := by
  cases h with
  | call _ hp =>
    cases hp with
    | system hs => exact Performs.tables hs
    | utcNow now => exact fun _ => .inl rfl
  | crash i => exact fun _ => .inl rfl
  | start hp => exact fun _ => .inl rfl
  | outside ho =>
    obtain ⟨name,c,_,rfl⟩ := ho
    exact tableStep_commit c (.inl rfl)

/-- From any state on, a row keeps what it holds, and stays what it is once it is
terminal. -/
theorem later {s s' : Pool (RelayOp app float) RelayOp.Reply (World app float)}
    (h : Relation.ReflTransGen (relayTeam float relay k).Step s s') {id : Uuid}
    {r : Row (name.queue float).Own} (hf : (s.world.tables name).find? id = some r) :
    ∃ r', (s'.world.tables name).find? id = some r' ∧ contentOf name r' = contentOf name r ∧
      (Terminal r → r' = r) := by
  induction h with
  | refl => exact ⟨r,hf,rfl,fun _ => rfl⟩
  | @tail s₁ s₂ _ hstep ih =>
    obtain ⟨r₁,hf₁,hc₁,ht₁⟩ := ih
    rcases step_tables hstep name with he | ⟨c,he⟩ <;> rw [he]
    · exact ⟨r₁,hf₁,hc₁,ht₁⟩
    · obtain ⟨r₂,hf₂⟩ := step_keeps (c:=c) hf₁
      refine ⟨r₂,hf₂,?_,fun ht => ?_⟩
      · have hchange : RowChange name (fun _ => True) True id
            ((s₁.world.tables name).find? id) ((step (s₁.world.tables name) c).find? id) :=
          step_change _ c id (fun _ _ _ _ => trivial) fun _ _ _ => trivial
        rw [hf₁,hf₂] at hchange
        generalize ha : some r₂ = after at hchange
        cases hchange with
        | same =>
          cases ha
          exact hc₁
        | rewritten hcontent _ =>
          cases ha
          exact hcontent.trans hc₁
      · obtain rfl := ht₁ ht
        exact Option.some.inj (hf₂.symm.trans (terminal_step hf₁ ht))

end Lifetime

section Absorption

variable {app : Application} {float : SerdeJson.FloatReader}

/-- A message for the event, by the id in its metadata. -/
def IsMessageFor (k : Uuid) (r : Row (QueueName.outbox.queue float).Own) : Prop :=
  ∃ m : OutboxEntryMetadata, (QueueName.outbox.queue float).readMetadata r.metadata = .ok m ∧
    m.eventId = k

/-- What the outbox has and publishes for an event. -/
structure Absorbed (relay : Relay app) (k : Uuid) (event : NewEventEnvelope)
    (w : World app float) : Prop where
  /-- A message for the event stands under the event's id. -/
  id : ∀ r ∈ (w.tables .outbox).rows, IsMessageFor k r → r.id = k
  /-- There is at most one. -/
  unique : ∀ r ∈ (w.tables .outbox).rows, ∀ r' ∈ (w.tables .outbox).rows,
    IsMessageFor k r → IsMessageFor k r' → r = r'
  /-- It is the one that is recorded for the event. -/
  recorded : ∀ r, (w.tables .outbox).find? k = some r →
    r.payload = (relay.envelope event).payload ∧
    (QueueName.outbox.queue float).readMetadata r.metadata =
      .ok (OutboxEntryMetadata.ofNew (relay.envelope event).metadata)
  /-- Every publication of it shows the same message id, which defaults to the event's. -/
  published : ∀ i message reply, .published message reply ∈ w.log i →
    message.metadata.eventId = k → message = relay.message event ∧
      message.metadata.messageId = (relay.envelope event).metadata.messageId.getD k

/-- The row of a message keeps its message, and once it is completed no reservation
hands it out. -/
def Settled (k : Uuid) (r : Row (QueueName.outbox.queue float).Own) (w : World app float) : Prop :=
  ∃ r', (w.tables .outbox).find? k = some r' ∧ r'.payload = r.payload ∧ r'.metadata = r.metadata ∧
    (r.status = Status.completed.code → r' = r ∧ ∀ spec draw,
      ∀ e ∈ handedOut (w.tables .outbox) (.reserve spec draw),
        ((QueueName.outbox.queue float).handed e).id ≠ k)

/-- Redelivered events are absorbed: however often an event is delivered, and however
the two consumers, sweeps, crashes and others interleave, the outbox has at most one
message for it, under its id, which is the message recorded first; every publication
shows the same message id; and from then on the message stays, and is not
handed out again once it is completed. -/
theorem redelivery_absorbed (float : SerdeJson.FloatReader) (relay : Relay app) (k : Uuid)
    {s : Pool (RelayOp app float) RelayOp.Reply (World app float)}
    (h : (relayTeam float relay k).Reaches (World.empty app float) s) {event : NewEventEnvelope}
    (he : IsEvent s.world k event) :
    Absorbed relay k event s.world ∧
      ∀ s', Relation.ReflTransGen (relayTeam float relay k).Step s s' →
        ∀ r, (s.world.tables .outbox).find? k = some r → Settled k r s'.world := by
  have hi := reaches_inv h
  have hid : ∀ r ∈ (s.world.tables .outbox).rows, IsMessageFor k r → r.id = k := by
    rintro r hr ⟨m,hm,hk⟩
    exact hi.outbox r.id _ m (content_of_find? (Table.find?_key hr)) hm hk
  refine ⟨⟨hid,?_,?_,?_⟩,?_⟩
  · intro r hr r' hr' hm hm'
    exact Table.row_eq _ hr hr' ((hid r hr hm).trans (hid r' hr' hm').symm)
  · intro r hf
    obtain ⟨event',he',hpayload,hmeta⟩ := hi.recorded _ (content_of_find? hf)
    obtain rfl := he.unique he'
    exact ⟨hpayload,hmeta⟩
  · intro i message reply hlog hm
    obtain ⟨event',he',rfl⟩ := hi.published i message reply hlog hm
    obtain rfl := he.unique he'
    refine ⟨rfl,?_⟩
    rw [← hi.envelope_eventId he]
    rfl
  · intro s' hs r hf
    obtain ⟨r',hf',hcontent,hterminal⟩ := later hs hf
    refine ⟨r',hf',congrArg Content.payload hcontent,congrArg Content.metadata hcontent,?_⟩
    intro hst
    have hdone : Terminal r := by simp [Terminal,hst,Status.code]
    refine ⟨hterminal hdone,fun spec draw e hout hk => ?_⟩
    obtain ⟨_,_,r₀,hcall,hf₀,helig,_,_,hid₀,_⟩ := handedOut_row hout
    cases hcall
    rw [← hid₀,hk,hf',hterminal hdone] at hf₀
    cases hf₀
    simp only [eligible,Bool.and_eq_true,Bool.or_eq_true,decide_eq_true_eq] at helig
    exact absurd helig.1.1 (by simp [hdone.1,hdone.2.1])

/-- An application whose only subscriber mails what was renamed. -/
def mailApp : Application where
  Command := Unit
  Event := Unit
  Handler := Unit
  Subscriber := Unit
  handlers := []
  fromStr := fun _ _ => .ok ()
  events := ⟨fun _ => "Renamed",fun _ => none,fun _ => .ok "{}"⟩
  subscribers := [("Renamed",())]

/-- The id of an event, if it has one. -/
def eventIdOf (event : NewEventEnvelope) : Uuid :=
  match event.metadata with
  | some m => m.eventId
  | none => .fromU128 0

/-- Its subscriber records the event as it is. -/
def mailRelay : Relay mailApp where
  isRelay := fun _ => true
  envelope := fun event => ⟨event.payload,
    ⟨none,eventIdOf event,none,none,none,event.eventType,"renames",none,none⟩⟩
  envelope_eventId := fun _ _ h => by simp only [eventIdOf,h]
  error := fun e => .subscriberExecution e.display

/-- Something was renamed. -/
def renamed : NewEventEnvelope := ⟨"Renamed","{}",some ⟨none,.fromU128 1,none,none,none⟩⟩

/-- The event waits. -/
def waitingEvent : Rows (QueueName.events.queue .integersOnly) :=
  (record Table.empty renamed 0 0).2

/-- The event is reserved. -/
def reservedEvent : Rows (QueueName.events.queue .integersOnly) :=
  (reserve waitingEvent singleSpec (plainDraw (.fromU128 7) 0)).2

/-- Its message is recorded. -/
def recordedMail : Rows (QueueName.outbox.queue .integersOnly) :=
  (record Table.empty (NewOutboxEntry.ofEnvelope 0 (mailRelay.envelope renamed)) 0 0).2

/-- The stale reservation is swept. -/
def sweptEvent : Rows (QueueName.events.queue .integersOnly) :=
  (sweep reservedEvent ⟨60000000000,6⟩ 100000000).2

/-- The event is reserved again. -/
def retriedEvent : Rows (QueueName.events.queue .integersOnly) :=
  (reserve sweptEvent singleSpec (plainDraw (.fromU128 8) 300000000)).2

/-- Its message is recorded again. -/
def recordedAgain : Rows (QueueName.outbox.queue .integersOnly) :=
  (record recordedMail (NewOutboxEntry.ofEnvelope 300000000 (mailRelay.envelope renamed)) 0 0).2

/-- The event as a reservation hands it out. -/
def renamedEnvelope (token : Uuid) (attempts : ℤ) (extraInfo : Option ExtraInfo) : EventEnvelope :=
  ⟨.fromU128 1,token,"Renamed","{}",attempts,renamed.metadata,extraInfo⟩

theorem reserve_renamed : (reserve waitingEvent singleSpec (plainDraw (.fromU128 7) 0)).1 =
    .ok [renamedEnvelope (.fromU128 7) 1 none] := rfl

theorem reserve_again : (reserve sweptEvent singleSpec (plainDraw (.fromU128 8) 300000000)).1 =
    .ok [renamedEnvelope (.fromU128 8) 2 (some ⟨["event reservation timed out"]⟩)] := rfl

/-- The event waits, and the outbox is empty. -/
def eventWorld : World mailApp .integersOnly :=
  (World.empty mailApp .integersOnly).commit none .events waitingEvent

/-- A run has recorded the message. -/
def mailWorld : World mailApp .integersOnly :=
  (eventWorld.commit (some 0) .events reservedEvent).commit (some 0) .outbox recordedMail

/-- The run is gone, and the event swept. -/
def sweptWorld : World mailApp .integersOnly := mailWorld.commit none .events sweptEvent

/-- Another run has recorded the message again. -/
def mailedAgain : World mailApp .integersOnly :=
  (sweptWorld.commit (some 1) .events retriedEvent).commit (some 1) .outbox recordedAgain

/-- One batch of the event consumer. -/
def eventBatch : RelayProgram mailApp .integersOnly Unit :=
  consumeEvents .integersOnly (relayPorts .events) mailRelay.dispatcher singleSpec >>= fun _ =>
    .ret ()

/-- A finalization that gets no connection. -/
theorem lost_connection (i : ℕ) (w : World mailApp .integersOnly) (id token : Uuid) :
    RelayPerforms i w (.system (.port .events (.completed id token)))
      (some (Except.error (EventError.storage "connection lost"))) w ∧
    ∀ maxAttempts reason,
      RelayPerforms i w (.system (.port .events (.failed id token maxAttempts reason)))
        (some (Except.error (EventError.storage "connection lost"))) w := by
  have hself := w.commit_self (some i) .events
  refine ⟨.system ?_,fun maxAttempts reason => .system ?_⟩
  · have hs : Performs i w (.port .events (.completed id token))
        (some (Except.error (EventError.storage "connection lost")))
        (w.commit (some i) .events (w.tables .events)) :=
      .completed .events id token 0 (.refused nofun)
    rwa [hself] at hs
  · have hs : Performs i w (.port .events (.failed id token maxAttempts reason))
        (some (Except.error (EventError.storage "connection lost")))
        (w.commit (some i) .events (w.tables .events)) :=
      .failed .events id token maxAttempts reason 0 (.refused nofun)
    rwa [hself] at hs

/-- A producer records the event. -/
theorem stored_elsewhere :
    Elsewhere (.fromU128 1) (World.empty mailApp .integersOnly) eventWorld :=
  ⟨.events,.record renamed 0 0,fun _ _ _ _ => trivial,rfl⟩

/-- The event is delivered twice: after the first delivery the connection is lost. -/
theorem delivered_twice : ∃ s, (relayTeam .integersOnly mailRelay (.fromU128 1)).Reaches
    (World.empty mailApp .integersOnly) s ∧ s.world = mailedAgain := by
  have hstart : (relayTeam .integersOnly mailRelay (.fromU128 1)).Reaches
      (World.empty mailApp .integersOnly)
      ⟨eventWorld,Function.update (fun _ => none) 0 (some eventBatch),1⟩ :=
    (Team.Reaches.start.step (.outside stored_elsewhere)).step (.start (.events singleSpec))
  have hreserve : Performs 0 eventWorld (.port .events (.reserve singleSpec))
      (some (Except.ok [renamedEnvelope (.fromU128 7) 1 none]))
      (eventWorld.commit (some 0) .events reservedEvent) :=
    .reserve .events singleSpec (plainDraw (.fromU128 7) 0)
      (.of_result reserve_renamed waitingEvent)
  have hrecord : Performs 0 (eventWorld.commit (some 0) .events reservedEvent)
      (.record .outbox (NewOutboxEntry.ofEnvelope 0 (mailRelay.envelope renamed)))
      (some (Except.ok ())) mailWorld :=
    .record .outbox _ 0 0 .acts
  have hfirst : Exec ((relayTeam .integersOnly mailRelay (.fromU128 1)).alone 0) eventBatch
      eventWorld (some ()) mailWorld :=
    .call rfl (.system hreserve) (.call rfl (.utcNow 0) (.call rfl (.system hrecord)
      (.call rfl (lost_connection 0 _ _ _).1 (.call rfl ((lost_connection 0 _ _ _).2 _ _)
        (.ret rfl)))))
  obtain ⟨⟨_,workers,_⟩,hs,rfl,rfl⟩ := hstart.alone rfl hfirst
  have hswept : (relayTeam .integersOnly mailRelay (.fromU128 1)).Reaches
      (World.empty mailApp .integersOnly)
      ⟨sweptWorld,Function.update workers 1 (some eventBatch),2⟩ :=
    (hs.step (.outside ⟨.events,.sweep ⟨60000000000,6⟩ 100000000,nofun,rfl⟩)).step
      (.start (.events singleSpec))
  have hretry : Performs 1 sweptWorld (.port .events (.reserve singleSpec))
      (some (Except.ok [renamedEnvelope (.fromU128 8) 2
        (some ⟨["event reservation timed out"]⟩)]))
      (sweptWorld.commit (some 1) .events retriedEvent) :=
    .reserve .events singleSpec (plainDraw (.fromU128 8) 300000000)
      (.of_result reserve_again sweptEvent)
  have hrecord' : Performs 1 (sweptWorld.commit (some 1) .events retriedEvent)
      (.record .outbox (NewOutboxEntry.ofEnvelope 300000000 (mailRelay.envelope renamed)))
      (some (Except.ok ())) mailedAgain :=
    .record .outbox _ 0 0 .acts
  have hsecond : Exec ((relayTeam .integersOnly mailRelay (.fromU128 1)).alone 1) eventBatch
      sweptWorld (some ()) mailedAgain :=
    .call rfl (.system hretry) (.call rfl (.utcNow 300000000) (.call rfl (.system hrecord')
      (.call rfl (lost_connection 1 _ _ _).1 (.call rfl ((lost_connection 1 _ _ _).2 _ _)
        (.ret rfl)))))
  obtain ⟨s,hreach,hw,_⟩ := hswept.alone (Function.update_self ..) hsecond
  exact ⟨s,hreach,hw⟩

theorem redelivery_absorbed_renamed : ∃ s,
    (relayTeam .integersOnly mailRelay (.fromU128 1)).Reaches
      (World.empty mailApp .integersOnly) s ∧
    ((s.world.tables .outbox).find? (.fromU128 1)).isSome = true ∧
    Absorbed mailRelay (.fromU128 1) renamed s.world := by
  obtain ⟨s,hs,hw⟩ := delivered_twice
  have hevent : IsEvent s.world (.fromU128 1) renamed := by
    rw [hw]
    exact ⟨_,rfl,rfl,rfl,rfl⟩
  refine ⟨s,hs,by rw [hw]; decide +kernel,?_⟩
  exact (redelivery_absorbed .integersOnly mailRelay (.fromU128 1) hs hevent).1

end Absorption

end Mulac.EventRedelivery
