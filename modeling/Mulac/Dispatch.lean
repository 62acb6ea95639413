import Mulac.Consumers

/-!
# Gateways, dispatchers and registries

What a consumer hands its entries to: the two gateways, the dispatchers behind
them, the wrapper that decodes a command for its handler and wraps the events it
returns, and the kernel's registries of handlers and subscribers. Everything the
application supplies (handlers, subscribers, stores) is a program.
-/

namespace Mulac.Dispatch

open Identifiers SerdeJson Envelopes FourQueues PanicProgram

variable {Op : Type} {Reply : Op → Type}

section Gateways

/-- `CommandGateway`: its dispatcher, or the store it records to. -/
inductive CommandGateway (Op : Type) (Reply : Op → Type) where
  /-- `Direct`. -/
  | direct (dispatcher : NewCommandEnvelope → Prog Op Reply (Except CommandError Unit))
  /-- `TwoPhased`. -/
  | twoPhased (store : NewCommandEnvelope → Prog Op Reply (Except CommandError Unit))

/-- `CommandGateway::dispatch`. -/
def CommandGateway.dispatch (gateway : CommandGateway Op Reply) (envelope : NewCommandEnvelope) :
    Prog Op Reply (Except CommandError Unit) :=
  if envelope.metadata.isNone then
    .ret (.error (.conversion "command_id is required: metadata is missing"))
  else
    match gateway with
    | direct dispatcher => dispatcher envelope
    | twoPhased store => store envelope

/-- `EventGateway`: its dispatcher, or the store it records to. -/
inductive EventGateway (Op : Type) (Reply : Op → Type) where
  /-- `Direct`. -/
  | direct (dispatcher : NewEventEnvelope → Prog Op Reply (Except EventError Unit))
  /-- `TwoPhased`. -/
  | twoPhased (store : NewEventEnvelope → Prog Op Reply (Except EventError Unit))

/-- `EventDispatchPort for EventGateway`. -/
def EventGateway.dispatch (gateway : EventGateway Op Reply) (event : NewEventEnvelope) :
    Prog Op Reply (Except EventError Unit) :=
  if event.metadata.isNone then
    .ret (.error (.eventDispatch "event_id is required: metadata is missing"))
  else do
    let result ← match gateway with
      | direct dispatcher => dispatcher event
      | twoPhased store => store event
    .ret (result.mapError fun e => .eventDispatch e.display)

end Gateways

section Commands

/-- `ApplicationEvent`, with serde's `Serialize`. -/
structure ApplicationEvent (E : Type) where
  /-- `event_type`. -/
  eventType : E → String
  /-- `sequence`. -/
  sequence : E → Option ℕ
  /-- `serde_json::to_string`, or the text of its error. -/
  toJson : E → Except String String

variable {C E : Type}

/-- The metadata that `HandlerWrapper` gives an event. -/
def eventMetadata (command : Option CommandMetadata) (sequence : Option ℕ) (eventId : Uuid) :
    EventMetadata :=
  let causationId := command.map CommandMetadata.commandId
  let correlationId := (command.bind CommandMetadata.correlationId).or causationId
  ⟨sequence,eventId,correlationId,causationId,none⟩

/-- The `map` and `collect` of `HandlerWrapper::execute`: the first event that
cannot be wrapped ends it. -/
def wrapEvents (events : ApplicationEvent E) (nowV7 : Prog Op Reply Uuid)
    (command : Option CommandMetadata) :
    List E → Prog Op Reply (Except CommandError (List NewEventEnvelope))
  | [] => .ret (.ok [])
  | event::rest =>
    let sequence := events.sequence event
    if validSequence sequence then
      match events.toJson event with
      | .error e => .ret (.error (.conversion e))
      | .ok payload => do
        let eventId ← nowV7
        let wrapped ← wrapEvents events nowV7 command rest
        .ret (wrapped.map fun envelopes =>
          ⟨events.eventType event,payload,some (eventMetadata command sequence eventId)⟩::envelopes)
    else .ret (.error (.conversion invalidSequence))

/-- `HandlerWrapper::execute`; `fromStr` is `serde_json::from_str`, or the text of
its error. -/
def HandlerWrapper.execute (fromStr : String → Except String C)
    (inner : C → Prog Op Reply (Except CommandError (List E))) (events : ApplicationEvent E)
    (nowV7 : Prog Op Reply Uuid) (envelope : NewCommandEnvelope) :
    Prog Op Reply (Except CommandError (List NewEventEnvelope)) :=
  match fromStr envelope.payload with
  | .error e => .ret (.error (.conversion e))
  | .ok command => do
    match ← inner command with
    | .error e => .ret (.error e)
    | .ok produced => wrapEvents events nowV7 envelope.metadata produced

/-- `CommandHandlerRegistry::from_handlers` and its lookup: a later handler of a
type replaces an earlier one. -/
def CommandHandlerRegistry.get {H : Type} (handlers : List (String × H)) (commandType : String) :
    Option H :=
  (handlers.reverse.find? fun entry => entry.1 = commandType).map Prod.snd

/-- `CommandHandlerRegistry::execute`. -/
def CommandHandlerRegistry.execute {H : Type} (handlers : List (String × H))
    (execute : H → NewCommandEnvelope →
      Prog Op Reply (Except CommandError (List NewEventEnvelope)))
    (envelope : NewCommandEnvelope) :
    Prog Op Reply (Except CommandError (List NewEventEnvelope)) :=
  match CommandHandlerRegistry.get handlers envelope.commandType with
  | none => .ret (.error (.handlerNotFound envelope.commandType))
  | some handler => execute handler envelope

/-- The loop of `CommandDispatcher::dispatch`. -/
def dispatchEvents (dispatch : NewEventEnvelope → Prog Op Reply (Except EventError Unit)) :
    List NewEventEnvelope → Prog Op Reply (Except CommandError Unit)
  | [] => .ret (.ok ())
  | event::events => do
    match ← dispatch event with
    | .error e => .ret (.error (.eventing e))
    | .ok () => dispatchEvents dispatch events

/-- `CommandDispatcher::dispatch`. -/
def CommandDispatcher.dispatch
    (handler : NewCommandEnvelope → Prog Op Reply (Except CommandError (List NewEventEnvelope)))
    (eventDispatcher : NewEventEnvelope → Prog Op Reply (Except EventError Unit))
    (envelope : NewCommandEnvelope) : Prog Op Reply (Except CommandError Unit) := do
  match ← handler envelope with
  | .error e => .ret (.error e)
  | .ok events => dispatchEvents eventDispatcher events

end Commands

section Events

variable {S : Type}

/-- `EventSubscriberRegistry::from_subscribers` and its lookup: the subscribers of
a type, in the order of their registration. -/
def EventSubscriberRegistry.get (subscribers : List (String × S)) (eventType : String) : List S :=
  (subscribers.filter fun entry => entry.1 = eventType).map Prod.snd

/-- The loop of `EventSubscriberRegistry::handle`. -/
def handleAll (handle : S → NewEventEnvelope → Prog Op Reply (Except EventError Unit))
    (envelope : NewEventEnvelope) : List S → Prog Op Reply (Except EventError Unit)
  | [] => .ret (.ok ())
  | subscriber::subscribers => do
    match ← handle subscriber envelope with
    | .error e => .ret (.error e)
    | .ok () => handleAll handle envelope subscribers

/-- `EventSubscriberRegistry::handle`, which is what `EventDispatcher::dispatch` calls. -/
def EventSubscriberRegistry.handle (subscribers : List (String × S))
    (handle : S → NewEventEnvelope → Prog Op Reply (Except EventError Unit))
    (envelope : NewEventEnvelope) : Prog Op Reply (Except EventError Unit) :=
  handleAll handle envelope (EventSubscriberRegistry.get subscribers envelope.eventType)

/-- `EventDispatcher::dispatch`. -/
def EventDispatcher.dispatch
    (subscriber : NewEventEnvelope → Prog Op Reply (Except EventError Unit))
    (envelope : NewEventEnvelope) : Prog Op Reply (Except EventError Unit) := subscriber envelope

end Events

end Mulac.Dispatch
