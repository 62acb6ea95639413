import Mulac.CallTrace
import Mulac.Dispatch

/-!
# Assembling a kernel

`KernelBuilder` collects registrations, and both of its startup modes check all of
them before anything is built: two handlers of one command type, two subscribers
of one name for one event type, the reserved subscriber name and the options that
a mode does not support are errors. What is built are two maps, from command types
to handlers and from event types to subscribers.
-/

namespace Mulac.KernelAssembly

open Envelopes PanicProgram CallTrace Dispatch

section Builder

/-- `EventSubscriberRegistration`. -/
inductive EventSubscriberRegistration (S F : Type) where
  /-- `Direct`. -/
  | direct (eventType subscriberName : String) (subscriber : S)
  /-- `WithCommandGateway`. -/
  | withCommandGateway (eventType subscriberName : String) (factory : F)

variable {H S F I : Type}

/-- `event_type`. -/
def EventSubscriberRegistration.eventType : EventSubscriberRegistration S F → String
  | direct eventType _ _ => eventType
  | withCommandGateway eventType _ _ => eventType

/-- `subscriber_name`. -/
def EventSubscriberRegistration.subscriberName : EventSubscriberRegistration S F → String
  | direct _ subscriberName _ => subscriberName
  | withCommandGateway _ subscriberName _ => subscriberName

/-- The factory of a registration that has one. -/
def EventSubscriberRegistration.factory? : EventSubscriberRegistration S F → Option F
  | direct _ _ _ => none
  | withCommandGateway _ _ factory => some factory

/-- `KernelBuilder`, less its configuration, which nothing reads. -/
structure KernelBuilder (H S F I : Type) where
  /-- The inbox store of direct startup. -/
  inboxStore : Option I
  /-- The command handlers. -/
  commandHandlers : List (String × H)
  /-- The subscribers and their factories. -/
  eventSubscribers : List (EventSubscriberRegistration S F)
  /-- The event types with automatic outbox recording. -/
  outboxSubscribers : List String

/-- A call on the builder. -/
inductive BuilderCall (H S F I : Type) where
  /-- `inbox_store`. -/
  | inboxStore (store : I)
  /-- `command_handler`. -/
  | commandHandler (commandType : String) (handler : H)
  /-- `event_subscriber`. -/
  | eventSubscriber (eventType subscriberName : String) (subscriber : S)
  /-- `event_subscriber_with_command_gateway`. -/
  | eventSubscriberWithCommandGateway (eventType subscriberName : String) (factory : F)
  /-- `outbox_subscriber`. -/
  | outboxSubscriber (eventType : String)

/-- The builder after a call. -/
def KernelBuilder.apply (b : KernelBuilder H S F I) : BuilderCall H S F I → KernelBuilder H S F I
  | .inboxStore store => { b with inboxStore := some store }
  | .commandHandler commandType handler =>
    { b with commandHandlers := b.commandHandlers++[(commandType,handler)] }
  | .eventSubscriber eventType subscriberName subscriber =>
    { b with eventSubscribers := b.eventSubscribers++[.direct eventType subscriberName subscriber] }
  | .eventSubscriberWithCommandGateway eventType subscriberName factory =>
    { b with eventSubscribers :=
        b.eventSubscribers++[.withCommandGateway eventType subscriberName factory] }
  | .outboxSubscriber eventType =>
    { b with outboxSubscribers := b.outboxSubscribers++[eventType] }

/-- `KernelBuilder::new`. -/
def KernelBuilder.new : KernelBuilder H S F I := ⟨none,[],[],[]⟩

/-- The builder after a list of calls. -/
def built (calls : List (BuilderCall H S F I)) : KernelBuilder H S F I :=
  calls.foldl KernelBuilder.apply .new

end Builder

section Errors

/-- `KernelError`, as far as the kernel itself raises it. -/
inductive KernelError where
  /-- Direct startup without a store. -/
  | inboxStoreRequired
  /-- Persistent startup with a store. -/
  | inboxStoreUnsupportedInPersistentMode
  /-- Automatic outbox recording. -/
  | outboxSubscriberUnsupported (eventType : String)
  /-- A factory in direct startup. -/
  | commandGatewaySubscriberRequiresPersistence (eventType subscriber : String)
  /-- Two handlers of one type. -/
  | duplicateCommandHandler (commandType : String)
  /-- Two subscribers of one name. -/
  | duplicateEventSubscriber (eventType subscriber : String)
  /-- The name of the outbox subscriber. -/
  | reservedSubscriberName (subscriber : String)
  /-- A failed worker. -/
  | worker (message : String)
  /-- An error of commanding. -/
  | command (error : CommandError)
  /-- An error of eventing. -/
  | event (error : EventError)
  deriving DecidableEq

/-- `Display for KernelError`. -/
def KernelError.display : KernelError → String
  | inboxStoreRequired =>
    "direct startup requires an inbox store; configure KernelBuilder::inbox_store"
  | inboxStoreUnsupportedInPersistentMode => "inbox_store is only supported by start(); "++
      "configure inbox ingestion separately when using start_persistent()"
  | outboxSubscriberUnsupported eventType =>
    "automatic outbox recording for event type '"++eventType++
      "' is not supported; register a recorder-backed event_subscriber instead"
  | commandGatewaySubscriberRequiresPersistence eventType subscriber =>
    "event subscriber '"++subscriber++"' for event type '"++eventType++
      "' requires start_persistent() to receive a command gateway"
  | duplicateCommandHandler commandType =>
    "command handler already registered for type '"++commandType++"'"
  | duplicateEventSubscriber eventType subscriber =>
    "event subscriber '"++subscriber++"' already registered for event type '"++eventType++"'"
  | reservedSubscriberName subscriber => "subscriber name '"++subscriber++"' is reserved"
  | worker message => "worker task failed: "++message
  | command error => "command error: "++error.display
  | event error => "event error: "++error.display

end Errors

section Validate

variable {H S F I : Type}

/-- `OUTBOX_SUBSCRIBER`. -/
def outboxSubscriber : String := "_outbox"

/-- The loop of `validate` over the handlers; `seen` is its set of command types. -/
def validateHandlers (seen : List String) : List (String × H) → Except KernelError Unit
  | [] => .ok ()
  | (commandType,_)::rest =>
    if commandType ∈ seen then .error (.duplicateCommandHandler commandType)
    else validateHandlers (commandType::seen) rest

/-- The loop of `validate` over the subscribers. -/
def validateSubscribers (seen : List (String × String)) :
    List (EventSubscriberRegistration S F) → Except KernelError Unit
  | [] => .ok ()
  | registration::rest =>
    let eventType := registration.eventType
    let subscriber := registration.subscriberName
    if subscriber = outboxSubscriber then .error (.reservedSubscriberName subscriber)
    else if (eventType,subscriber) ∈ seen then
      .error (.duplicateEventSubscriber eventType subscriber)
    else validateSubscribers ((eventType,subscriber)::seen) rest

/-- The loop of `validate` over the outbox registrations. -/
def validateOutbox (seen : List String) : List String → Except KernelError Unit
  | [] => .ok ()
  | eventType::rest =>
    if eventType ∈ seen then .error (.reservedSubscriberName outboxSubscriber)
    else validateOutbox (eventType::seen) rest

/-- `validate`. -/
def KernelBuilder.validate (b : KernelBuilder H S F I) : Except KernelError Unit := do
  validateHandlers [] b.commandHandlers
  validateSubscribers [] b.eventSubscribers
  validateOutbox [] b.outboxSubscribers
  match b.outboxSubscribers.head? with
  | some eventType => .error (.outboxSubscriberUnsupported eventType)
  | none => .ok ()

end Validate

section Start

variable {H S F I : Type}

/-- `CommandHandlerRegistry::from_handlers`: a later handler of a type replaces an
earlier one. -/
def fromHandlers (handlers : List (String × H)) : String → Option H :=
  handlers.foldl (fun map entry => Function.update map entry.1 (some entry.2)) fun _ => none

/-- `EventSubscriberRegistry::from_subscribers`: every subscriber is pushed to the
list of its event type. -/
def fromSubscribers (subscribers : List (String × String × S)) : String → List (String × S) :=
  subscribers.foldl (fun map entry =>
    Function.update map entry.1 (map entry.1++[(entry.2.1,entry.2.2)])) fun _ => []

/-- What a started kernel dispatches by. -/
structure Registries (H S : Type) where
  /-- `CommandHandlerRegistry`. -/
  commands : String → Option H
  /-- `EventSubscriberRegistry`. -/
  events : String → List (String × S)

/-- The subscriber of a registration in direct startup. -/
def directSubscriber : EventSubscriberRegistration S F → Except KernelError (String × String × S)
  | .direct eventType subscriberName subscriber => .ok (eventType,subscriberName,subscriber)
  | .withCommandGateway eventType subscriberName _ =>
    .error (.commandGatewaySubscriberRequiresPersistence eventType subscriberName)

/-- `start`: the store and the registries of the handle. -/
def KernelBuilder.start (b : KernelBuilder H S F I) : Except KernelError (I × Registries H S) := do
  b.validate
  let subscribers ← b.eventSubscribers.mapM directSubscriber
  let inboxStore ← b.inboxStore.elim (.error .inboxStoreRequired) .ok
  return (inboxStore,⟨fromHandlers b.commandHandlers,fromSubscribers subscribers⟩)

/-- A factory is called with the two-phased command gateway. -/
inductive FactoryOp (F : Type) where
  /-- `factory(command_gateway.clone())`. -/
  | invoke (factory : F)

/-- What a factory returns. -/
abbrev FactoryOp.Reply (S : Type) : FactoryOp F → Type := fun _ => S

/-- The `map` and `collect` of `start_persistent`. -/
def makeSubscribers : List (EventSubscriberRegistration S F) →
    Prog (FactoryOp F) (FactoryOp.Reply S) (List (String × String × S))
  | [] => .ret []
  | .direct eventType subscriberName subscriber::rest => do
    let subscribers ← makeSubscribers rest
    .ret ((eventType,subscriberName,subscriber)::subscribers)
  | .withCommandGateway eventType subscriberName factory::rest => do
    let subscriber ← Prog.perform (FactoryOp.invoke factory)
    let subscribers ← makeSubscribers rest
    .ret ((eventType,subscriberName,subscriber)::subscribers)

/-- `start_persistent`: the registries of the handle. -/
def KernelBuilder.startPersistent (b : KernelBuilder H S F I) :
    Prog (FactoryOp F) (FactoryOp.Reply S) (Except KernelError (Registries H S)) :=
  match b.validate with
  | .error e => .ret (.error e)
  | .ok () =>
    if b.inboxStore.isSome then .ret (.error .inboxStoreUnsupportedInPersistentMode)
    else do
      let subscribers ← makeSubscribers b.eventSubscribers
      .ret (.ok ⟨fromHandlers b.commandHandlers,fromSubscribers subscribers⟩)

end Start

section Dispatching

variable {H S : Type}

/-- The calls of a started kernel. -/
inductive KernelOp (H S : Type) where
  /-- `ErasedCommandHandler::execute` of a handler. -/
  | execute (handler : H) (envelope : NewCommandEnvelope)
  /-- `EventSubscriberPort::handle` of a subscriber. -/
  | handle (subscriber : S) (envelope : NewEventEnvelope)
  /-- `record` of the event repository. -/
  | record (event : NewEventEnvelope)

/-- What a call returns. -/
abbrev KernelOp.Reply : KernelOp H S → Type
  | execute _ _ => Except CommandError (List NewEventEnvelope)
  | handle _ _ => Except EventError Unit
  | record _ => Except EventError Unit

/-- `CommandHandlerRegistry::execute`. -/
def Registries.execute (r : Registries H S) (envelope : NewCommandEnvelope) :
    Prog (KernelOp H S) KernelOp.Reply (Except CommandError (List NewEventEnvelope)) :=
  match r.commands envelope.commandType with
  | none => .ret (.error (.handlerNotFound envelope.commandType))
  | some handler => Prog.perform (KernelOp.execute handler envelope)

/-- `EventSubscriberRegistry::handle`. -/
def Registries.handle (r : Registries H S) (envelope : NewEventEnvelope) :
    Prog (KernelOp H S) KernelOp.Reply (Except EventError Unit) :=
  handleAll (fun entry envelope => Prog.perform (KernelOp.handle entry.2 envelope)) envelope
    (r.events envelope.eventType)

/-- The event dispatcher of both modes. -/
def Registries.eventDispatcher (r : Registries H S) (envelope : NewEventEnvelope) :
    Prog (KernelOp H S) KernelOp.Reply (Except EventError Unit) :=
  EventDispatcher.dispatch r.handle envelope

/-- The event gateway of direct startup. -/
def Registries.directGateway (r : Registries H S) : EventGateway (KernelOp H S) KernelOp.Reply :=
  .direct r.eventDispatcher

/-- The event gateway of persistent startup. -/
def durableGateway : EventGateway (KernelOp H S) KernelOp.Reply :=
  .twoPhased fun event => Prog.perform (KernelOp.record event)

/-- The command dispatcher of a mode. -/
def Registries.commandDispatcher (r : Registries H S)
    (gateway : EventGateway (KernelOp H S) KernelOp.Reply) (envelope : NewCommandEnvelope) :
    Prog (KernelOp H S) KernelOp.Reply (Except CommandError Unit) :=
  CommandDispatcher.dispatch r.execute gateway.dispatch envelope

end Dispatching

section Calls

variable {H S F I : Type}

/-- The registered handlers, in order. -/
def handlersOf (calls : List (BuilderCall H S F I)) : List (String × H) :=
  calls.filterMap fun
    | .commandHandler commandType handler => some (commandType,handler)
    | _ => none

/-- The registrations of subscribers and of factories, in order. -/
def registrationsOf (calls : List (BuilderCall H S F I)) : List (EventSubscriberRegistration S F) :=
  calls.filterMap fun
    | .eventSubscriber eventType subscriberName subscriber =>
      some (.direct eventType subscriberName subscriber)
    | .eventSubscriberWithCommandGateway eventType subscriberName factory =>
      some (.withCommandGateway eventType subscriberName factory)
    | _ => none

/-- The outbox registrations. -/
def outboxOf (calls : List (BuilderCall H S F I)) : List String :=
  calls.filterMap fun
    | .outboxSubscriber eventType => some eventType
    | _ => none

/-- The supplied inbox stores. -/
def storesOf (calls : List (BuilderCall H S F I)) : List I :=
  calls.filterMap fun
    | .inboxStore store => some store
    | _ => none

/-- The builder collects what it is given, and keeps the last store. -/
theorem foldl_apply (calls : List (BuilderCall H S F I)) (b : KernelBuilder H S F I) :
    calls.foldl KernelBuilder.apply b =
      ⟨(storesOf calls).getLast?.or b.inboxStore,b.commandHandlers++handlersOf calls,
        b.eventSubscribers++registrationsOf calls,b.outboxSubscribers++outboxOf calls⟩ := by
  induction calls generalizing b with
  | nil => simp [storesOf,handlersOf,registrationsOf,outboxOf]
  | cons c calls ih =>
    rw [List.foldl_cons,ih]
    cases c <;> simp [KernelBuilder.apply,storesOf,handlersOf,registrationsOf,outboxOf,
      List.getLast?_cons]

theorem built_eq (calls : List (BuilderCall H S F I)) :
    built calls = ⟨(storesOf calls).getLast?,handlersOf calls,registrationsOf calls,
      outboxOf calls⟩ := by
  rw [built,foldl_apply]
  simp [KernelBuilder.new]

end Calls

section Validation

variable {H S F I : Type}

/-- The loop over the handlers accepts distinct types that are not yet taken. -/
theorem validateHandlers_ok {seen : List String} {handlers : List (String × H)} :
    validateHandlers seen handlers = .ok () ↔
      (handlers.map Prod.fst).Nodup ∧ ∀ t ∈ handlers.map Prod.fst, t ∉ seen := by
  induction handlers generalizing seen with
  | nil => simp [validateHandlers]
  | cons entry rest ih =>
    obtain ⟨commandType,handler⟩ := entry
    rw [validateHandlers]
    by_cases h : commandType ∈ seen
    · simp [h]
    · rw [if_neg h,ih]
      simp only [List.map_cons,List.nodup_cons,List.mem_cons,not_or,forall_eq_or_imp]
      grind

/-- The key under which a subscriber may be registered once. -/
def subscriberKey (r : EventSubscriberRegistration S F) : String × String :=
  (r.eventType,r.subscriberName)

/-- So does the loop over the subscribers, which refuses the reserved name. -/
theorem validateSubscribers_ok {seen : List (String × String)}
    {registrations : List (EventSubscriberRegistration S F)} :
    validateSubscribers seen registrations = .ok () ↔
      (∀ r ∈ registrations, r.subscriberName ≠ outboxSubscriber) ∧
        (registrations.map subscriberKey).Nodup ∧
        ∀ k ∈ registrations.map subscriberKey, k ∉ seen := by
  induction registrations generalizing seen with
  | nil => simp [validateSubscribers]
  | cons r rest ih =>
    rw [validateSubscribers]
    by_cases hn : r.subscriberName = outboxSubscriber
    · simp [hn]
    · by_cases h : (r.eventType,r.subscriberName) ∈ seen
      · simp [hn,h,subscriberKey]
      · rw [if_neg hn,if_neg h,ih]
        simp only [List.map_cons,List.nodup_cons,List.mem_cons,not_or,forall_eq_or_imp]
        grind [subscriberKey]

/-- What both modes ask of the registrations. -/
structure Startable (calls : List (BuilderCall H S F I)) : Prop where
  /-- No command type is registered twice. -/
  handlers : ((handlersOf calls).map Prod.fst).Nodup
  /-- No subscriber has the reserved name. -/
  names : ∀ r ∈ registrationsOf calls, r.subscriberName ≠ "_outbox"
  /-- No name is registered twice for an event type, directly or with a factory. -/
  subscribers : ((registrationsOf calls).map subscriberKey).Nodup
  /-- There is no outbox registration. -/
  outbox : outboxOf calls = []

/-- Validation accepts exactly these. -/
theorem validate_ok (calls : List (BuilderCall H S F I)) :
    (built calls).validate = .ok () ↔ Startable calls := by
  rw [built_eq,KernelBuilder.validate]
  dsimp only
  constructor
  · intro h
    cases hh : validateHandlers [] (handlersOf calls) with
    | error e => rw [hh] at h; cases h
    | ok u =>
      cases hs : validateSubscribers [] (registrationsOf calls) with
      | error e => rw [hh,hs] at h; cases h
      | ok u =>
        have ho : outboxOf calls = [] := by
          rw [hh,hs] at h
          cases ho : outboxOf calls with
          | nil => rfl
          | cons eventType rest =>
            rw [ho] at h
            cases hv : validateOutbox [] (eventType::rest) with
            | error e => rw [hv] at h; cases h
            | ok u => rw [hv] at h; cases h
        obtain ⟨hnames,hkeys,_⟩ := validateSubscribers_ok.mp hs
        exact ⟨(validateHandlers_ok.mp hh).1,hnames,hkeys,ho⟩
  · rintro ⟨hh,hn,hk,ho⟩
    rw [validateHandlers_ok.mpr ⟨hh,by simp⟩,validateSubscribers_ok.mpr ⟨hn,hk,by simp⟩,ho]
    rfl

end Validation

section Subscribers

variable {S F σ : Type}

/-- The factories of registrations. -/
def factories (registrations : List (EventSubscriberRegistration S F)) : List F :=
  registrations.filterMap EventSubscriberRegistration.factory?

/-- The subscribers of registrations, whose factories made these in order. -/
def supplied : List (EventSubscriberRegistration S F) → List S → List (String × String × S)
  | [],_ => []
  | .direct eventType subscriberName subscriber::rest,made =>
    (eventType,subscriberName,subscriber)::supplied rest made
  | .withCommandGateway eventType subscriberName _::rest,subscriber::made =>
    (eventType,subscriberName,subscriber)::supplied rest made
  | .withCommandGateway _ _ _::_,[] => []

/-- Direct startup takes registrations without factories. -/
theorem mapM_directSubscriber {registrations : List (EventSubscriberRegistration S F)}
    (h : factories registrations = []) :
    registrations.mapM directSubscriber = .ok (supplied registrations []) := by
  induction registrations with
  | nil => rfl
  | cons r rest ih =>
    cases r with
    | direct eventType subscriberName subscriber =>
      rw [List.mapM_cons,ih (by simpa [factories,EventSubscriberRegistration.factory?] using h)]
      rfl
    | withCommandGateway eventType subscriberName factory =>
      simp [factories,EventSubscriberRegistration.factory?] at h

/-- It refuses any other. -/
theorem mapM_directSubscriber_error {registrations : List (EventSubscriberRegistration S F)}
    (h : factories registrations ≠ []) : ∃ e, registrations.mapM directSubscriber = .error e := by
  induction registrations with
  | nil => exact absurd rfl h
  | cons r rest ih =>
    rw [List.mapM_cons]
    cases r with
    | direct eventType subscriberName subscriber =>
      obtain ⟨e,he⟩ := ih (by simpa [factories,EventSubscriberRegistration.factory?] using h)
      rw [he]
      exact ⟨e,rfl⟩
    | withCommandGateway eventType subscriberName factory => exact ⟨_,rfl⟩

/-- A factory that was called and made a subscriber. -/
def madeBy (factory : F) (subscriber : S) : Observed (FactoryOp F) (FactoryOp.Reply S) :=
  ⟨.invoke factory,some subscriber⟩

/-- Persistent startup calls every factory once, in order, unless one of them panics. -/
theorem makeSubscribers_outcome
    (handle : (op : FactoryOp F) → σ → Option (FactoryOp.Reply S op) × σ)
    (registrations : List (EventSubscriberRegistration S F)) (s : σ) :
    (((makeSubscribers registrations).run handle s).1 = none ∧
        ∃ o ∈ trace handle (makeSubscribers registrations) s, o.2 = none) ∨
      ∃ made s', made.length = (factories registrations).length ∧
        (makeSubscribers registrations).run handle s = (some (supplied registrations made),s') ∧
        trace handle (makeSubscribers registrations) s =
          List.zipWith madeBy (factories registrations) made := by
  induction registrations generalizing s with
  | nil => exact .inr ⟨[],s,rfl,rfl,rfl⟩
  | cons r rest ih =>
    cases r with
    | direct eventType subscriberName subscriber =>
      rw [makeSubscribers,trace_bind]
      rcases ih s with ⟨hnone,o,ho,hpanic⟩ | ⟨made,s',hlen,hrun,htrace⟩
      · exact .inl ⟨Prog.run_bind_panicked handle hnone _,o,List.mem_append_left _ ho,hpanic⟩
      · rw [Prog.run_bind,hrun,htrace]
        exact .inr ⟨made,s',hlen,rfl,List.append_nil _⟩
    | withCommandGateway eventType subscriberName factory =>
      obtain ⟨reply,s₁,hrun₁,htrace₁⟩ := perform_outcome handle (.invoke factory) s
      rw [makeSubscribers,trace_bind,Prog.run_bind,hrun₁,htrace₁]
      cases reply with
      | none => exact .inl ⟨rfl,_,List.mem_cons_self ..,rfl⟩
      | some subscriber =>
        dsimp only
        rw [trace_bind]
        rcases ih s₁ with ⟨hnone,o,ho,hpanic⟩ | ⟨made,s',hlen,hrun,htrace⟩
        · exact .inl ⟨Prog.run_bind_panicked handle hnone _,o,
            List.mem_append_right _ (List.mem_append_left _ ho),hpanic⟩
        · rw [Prog.run_bind,hrun,htrace]
          refine .inr ⟨subscriber::made,s',congrArg (·+1) hlen,rfl,?_⟩
          dsimp only
          rw [trace_ret,List.append_nil]
          rfl

end Subscribers

section Registered

variable {H S : Type}

/-- The map of handlers looks up the last one of a type. -/
theorem fromHandlers_eq (handlers : List (String × H)) :
    fromHandlers handlers = CommandHandlerRegistry.get handlers := by
  funext commandType
  rw [fromHandlers,CommandHandlerRegistry.get,← List.foldr_reverse]
  induction handlers.reverse with
  | nil => rfl
  | cons entry rest ih =>
    rw [List.foldr_cons,List.find?_cons]
    by_cases h : entry.1 = commandType
    · subst h
      simp
    · rw [Function.update_of_ne (fun hc => h hc.symm),ih]
      simp [h]

/-- Among distinct types, every handler is the one of its type. -/
theorem fromHandlers_of_mem {handlers : List (String × H)} (hn : (handlers.map Prod.fst).Nodup)
    {commandType : String} {handler : H} (h : (commandType,handler) ∈ handlers) :
    fromHandlers handlers commandType = some handler := by
  rw [fromHandlers_eq,CommandHandlerRegistry.get,Option.map_eq_some_iff]
  cases hf : handlers.reverse.find? fun entry => entry.1 = commandType with
  | none =>
    have hne := List.find?_eq_none.mp hf (commandType,handler) (List.mem_reverse.mpr h)
    simp at hne
  | some entry =>
    have hm := List.mem_reverse.mp (List.mem_of_find?_eq_some hf)
    have ht : entry.1 = commandType := by simpa using List.find?_some hf
    have he : entry = (commandType,handler) := List.inj_on_of_nodup_map hn hm h ht
    exact ⟨entry,rfl,by rw [he]⟩

/-- A type without a handler has none. -/
theorem fromHandlers_of_not_mem {handlers : List (String × H)} {commandType : String}
    (h : ∀ handler, (commandType,handler) ∉ handlers) :
    fromHandlers handlers commandType = none := by
  rw [fromHandlers_eq,CommandHandlerRegistry.get,Option.map_eq_none_iff,List.find?_eq_none]
  intro entry he ht
  obtain rfl : entry.1 = commandType := by simpa using ht
  exact h entry.2 (List.mem_reverse.mp he)

/-- The map of subscribers keeps those of a type in order. -/
theorem fromSubscribers_eq (subscribers : List (String × String × S)) (eventType : String) :
    fromSubscribers subscribers eventType =
      (subscribers.filter fun entry => entry.1 = eventType).map Prod.snd := by
  suffices h : ∀ map : String → List (String × S),
      subscribers.foldl (fun map entry => Function.update map entry.1
        (map entry.1++[(entry.2.1,entry.2.2)])) map eventType =
          map eventType++(subscribers.filter fun entry => entry.1 = eventType).map Prod.snd from h _
  induction subscribers with
  | nil => simp
  | cons entry rest ih =>
    intro map
    rw [List.foldl_cons,ih]
    by_cases h : entry.1 = eventType
    · subst h
      simp
    · rw [Function.update_of_ne (fun hc => h hc.symm)]
      simp [h]

end Registered

section Traces

variable {H S σ : Type} {handle : (op : KernelOp H S) → σ → Option (KernelOp.Reply op) × σ}
  {r : Registries H S}

/-- The executions of handlers among the calls of a run. -/
def executions (calls : List (Observed (KernelOp H S) KernelOp.Reply)) :
    List (H × NewCommandEnvelope) :=
  calls.filterMap fun
    | ⟨.execute handler envelope,_⟩ => some (handler,envelope)
    | _ => none

/-- The calls of subscribers among those of a run, with their replies. -/
def subscriberCalls (calls : List (Observed (KernelOp H S) KernelOp.Reply)) :
    List ((S × NewEventEnvelope) × Option (Except EventError Unit)) :=
  calls.filterMap fun
    | ⟨.handle subscriber envelope,reply⟩ => some ((subscriber,envelope),reply)
    | _ => none

/-- A call that executes a handler. -/
def Executes (o : Observed (KernelOp H S) KernelOp.Reply) : Prop :=
  ∃ handler envelope, o.1 = .execute handler envelope

theorem executions_eq_nil {calls : List (Observed (KernelOp H S) KernelOp.Reply)}
    (h : ∀ o ∈ calls, ¬Executes o) : executions calls = [] := by
  rw [executions,List.filterMap_eq_nil_iff]
  intro o ho
  obtain ⟨op,reply⟩ := o
  cases op with
  | execute handler envelope => exact absurd ⟨handler,envelope,rfl⟩ (h _ ho)
  | handle subscriber envelope => rfl
  | record event => rfl

/-- Subscribers are called in order until one of them fails. -/
theorem handleAll_outcome (envelope : NewEventEnvelope) (entries : List (String × S)) (s : σ) :
    InOrder (A:=S × NewEventEnvelope) (fun e : EventError => e)
      (entries.map fun entry => (entry.2,envelope))
      (subscriberCalls (trace handle (handleAll (fun (entry : String × S) envelope =>
        (Prog.perform (KernelOp.handle entry.2 envelope) :
          Prog (KernelOp H S) KernelOp.Reply (Except EventError Unit))) envelope entries) s))
      ((handleAll (fun (entry : String × S) envelope =>
        (Prog.perform (KernelOp.handle entry.2 envelope) :
          Prog (KernelOp H S) KernelOp.Reply (Except EventError Unit))) envelope entries).run handle
            s).1 := by
  induction entries generalizing s with
  | nil => exact .nil _
  | cons entry rest ih =>
    obtain ⟨reply,s₁,hrun,htrace⟩ := perform_outcome handle (.handle entry.2 envelope) s
    rw [handleAll,trace_bind,Prog.run_bind,htrace,hrun]
    match reply with
    | none => exact .panicked_at (entry.2,envelope) _
    | some (.error e) => exact .refused_at (entry.2,envelope) _ e
    | some (.ok ()) => exact (ih s₁).cons (entry.2,envelope)

/-- Subscribers execute no handler. -/
theorem not_executes_eventDispatcher (envelope : NewEventEnvelope) (s : σ) :
    ∀ o ∈ trace handle (r.eventDispatcher envelope) s, ¬Executes o := by
  unfold Registries.eventDispatcher EventDispatcher.dispatch Registries.handle
  induction r.events envelope.eventType generalizing s with
  | nil =>
    intro o ho
    cases ho
  | cons entry rest ih =>
    rw [handleAll]
    refine forall_trace_bind ?_ ?_
    · rw [trace_perform]
      rintro o ho ⟨handler,command,he⟩
      rw [List.mem_singleton.mp ho] at he
      cases he
    · intro result s'
      match result with
      | .error e =>
        intro o ho
        cases ho
      | .ok () => exact ih s'

/-- A gateway that executes no handler. -/
def Passive (gateway : EventGateway (KernelOp H S) KernelOp.Reply) : Prop :=
  ∀ (σ : Type) (handle : (op : KernelOp H S) → σ → Option (KernelOp.Reply op) × σ)
    (event : NewEventEnvelope) (s : σ),
    ∀ o ∈ trace handle (gateway.dispatch event) s, ¬Executes o

theorem passive_directGateway (r : Registries H S) : Passive r.directGateway := by
  intro σ handle event s
  unfold EventGateway.dispatch
  split
  · intro o ho
    cases ho
  · refine forall_trace_bind (not_executes_eventDispatcher event s) ?_
    intro result s' o ho
    cases ho

theorem passive_durableGateway : Passive (durableGateway : EventGateway (KernelOp H S) _) := by
  intro σ handle event s
  unfold EventGateway.dispatch
  split
  · intro o ho
    cases ho
  · obtain ⟨reply,s₁,hrun,htrace⟩ := perform_outcome handle (.record event) s
    have hrecord : ∀ o ∈ trace handle (Prog.perform (KernelOp.record event)) s, ¬Executes o := by
      rw [htrace]
      rintro o ho ⟨handler,command,he⟩
      rw [List.mem_singleton.mp ho] at he
      cases he
    refine forall_trace_bind hrecord ?_
    intro result s' o ho
    cases ho

/-- Dispatching the events of a command executes no handler. -/
theorem not_executes_dispatchEvents {gateway : EventGateway (KernelOp H S) KernelOp.Reply}
    (hg : Passive gateway) (events : List NewEventEnvelope) (s : σ) :
    ∀ o ∈ trace handle (dispatchEvents gateway.dispatch events) s, ¬Executes o := by
  induction events generalizing s with
  | nil =>
    intro o ho
    cases ho
  | cons event events ih =>
    rw [dispatchEvents]
    refine forall_trace_bind (hg σ handle event s) ?_
    intro result s'
    match result with
    | .error e =>
      intro o ho
      cases ho
    | .ok () => exact ih s'

/-- The dispatcher executes the handler of a command's type once. -/
theorem executions_commandDispatcher {gateway : EventGateway (KernelOp H S) KernelOp.Reply}
    (hg : Passive gateway) {envelope : NewCommandEnvelope} {handler : H}
    (h : r.commands envelope.commandType = some handler) (s : σ) :
    executions (trace handle (r.commandDispatcher gateway envelope) s) = [(handler,envelope)] := by
  obtain ⟨reply,s₁,hrun,htrace⟩ := perform_outcome handle (.execute handler envelope) s
  have hx : r.execute envelope = Prog.perform (KernelOp.execute handler envelope) := by
    rw [Registries.execute,h]
  rw [Registries.commandDispatcher,CommandDispatcher.dispatch,hx,trace_bind,htrace,hrun]
  match reply with
  | none => rfl
  | some (.error e) => rfl
  | some (.ok events) =>
    rw [executions,List.singleton_append,List.filterMap_cons]
    exact congrArg _ (executions_eq_nil (not_executes_dispatchEvents hg events s₁))

end Traces

section Assembly

variable {H S F I : Type}

/-- A kernel that dispatches by what was registered. -/
structure Dispatches (handlers : List (String × H)) (subscribers : List (String × String × S))
    (r : Registries H S) (gateway : EventGateway (KernelOp H S) KernelOp.Reply) : Prop where
  /-- A command goes to the handler of its type, once, and to no other. -/
  registered : ∀ (envelope : NewCommandEnvelope) (handler : H),
    (envelope.commandType,handler) ∈ handlers → ∀ (σ : Type)
      (handle : (op : KernelOp H S) → σ → Option (KernelOp.Reply op) × σ) (s : σ),
      executions (trace handle (r.commandDispatcher gateway envelope) s) = [(handler,envelope)]
  /-- A command without a handler is an error, and calls nothing. -/
  missing : ∀ envelope : NewCommandEnvelope,
    (∀ handler, (envelope.commandType,handler) ∉ handlers) →
      r.commandDispatcher gateway envelope = .ret (.error (.handlerNotFound envelope.commandType))
  /-- An event goes to the subscribers of its type in the order of their registration,
  once each, until one of them fails: what is returned is its error, if any, and nothing else. -/
  events : ∀ (envelope : NewEventEnvelope) (σ : Type)
    (handle : (op : KernelOp H S) → σ → Option (KernelOp.Reply op) × σ) (s : σ),
    InOrder (A:=S × NewEventEnvelope) (fun e : EventError => e)
      ((subscribers.filter fun entry => entry.1 = envelope.eventType).map
        fun entry => (entry.2.2,envelope))
      (subscriberCalls (trace handle (r.eventDispatcher envelope) s))
      ((r.eventDispatcher envelope).run handle s).1

/-- The maps of a kernel dispatch by what they were made from. -/
theorem dispatches {handlers : List (String × H)} (hn : (handlers.map Prod.fst).Nodup)
    (subscribers : List (String × String × S))
    {gateway : EventGateway (KernelOp H S) KernelOp.Reply} (hg : Passive gateway) :
    Dispatches handlers subscribers ⟨fromHandlers handlers,fromSubscribers subscribers⟩
      gateway where
  registered := fun envelope handler h σ handle s =>
    executions_commandDispatcher hg (fromHandlers_of_mem hn h) s
  missing := by
    intro envelope h
    have hnone := fromHandlers_of_not_mem h
    unfold Registries.commandDispatcher CommandDispatcher.dispatch Registries.execute
    dsimp only
    rw [hnone]
    rfl
  events := by
    intro envelope σ handle s
    have hentries : ((fromSubscribers subscribers envelope.eventType).map
        fun entry => (entry.2,envelope)) =
          (subscribers.filter fun entry => entry.1 = envelope.eventType).map
            fun entry => (entry.2.2,envelope) := by
      rw [fromSubscribers_eq,List.map_map]
      rfl
    rw [← hentries]
    exact handleAll_outcome envelope _ s

/-- What validation refuses is an error. -/
theorem validate_error {calls : List (BuilderCall H S F I)} (h : ¬Startable calls) :
    ∃ e, (built calls).validate = .error e := by
  cases hv : (built calls).validate with
  | error e => exact ⟨e,rfl⟩
  | ok u => exact absurd ((validate_ok calls).mp hv) h

/-- Direct startup of a kernel that it supports. -/
theorem start_of_supported {calls : List (BuilderCall H S F I)} (h : Startable calls)
    (hf : factories (registrationsOf calls) = []) {store : I}
    (hs : (storesOf calls).getLast? = some store) :
    (built calls).start = .ok (store,⟨fromHandlers (handlersOf calls),
      fromSubscribers (supplied (registrationsOf calls) [])⟩) := by
  rw [KernelBuilder.start,(validate_ok calls).mpr h,built_eq]
  dsimp only
  rw [mapM_directSubscriber hf,hs]
  rfl

/-- Direct startup of any other. -/
theorem start_of_unsupported {calls : List (BuilderCall H S F I)}
    (h : ¬(Startable calls ∧ factories (registrationsOf calls) = [] ∧ storesOf calls ≠ [])) :
    ∃ e, (built calls).start = .error e := by
  by_cases hv : Startable calls
  · rw [KernelBuilder.start,(validate_ok calls).mpr hv,built_eq]
    dsimp only
    by_cases hf : factories (registrationsOf calls) = []
    · have hs : storesOf calls = [] := by
        by_contra hs
        exact h ⟨hv,hf,hs⟩
      rw [mapM_directSubscriber hf,hs]
      exact ⟨_,rfl⟩
    · obtain ⟨e,he⟩ := mapM_directSubscriber_error hf
      rw [he]
      exact ⟨e,rfl⟩
  · obtain ⟨e,he⟩ := validate_error hv
    rw [KernelBuilder.start,he]
    exact ⟨e,rfl⟩

/-- Persistent startup of a kernel that it does not support. -/
theorem startPersistent_of_unsupported {calls : List (BuilderCall H S F I)}
    (h : ¬(Startable calls ∧ storesOf calls = [])) :
    ∃ e, (built calls).startPersistent = .ret (.error e) := by
  unfold KernelBuilder.startPersistent
  by_cases hv : Startable calls
  · have hs : storesOf calls ≠ [] := fun hs => h ⟨hv,hs⟩
    have hsome : (built calls).inboxStore.isSome = true := by
      rw [built_eq]
      exact List.getLast?_isSome.mpr hs
    rw [(validate_ok calls).mpr hv]
    dsimp only
    rw [if_pos hsome]
    exact ⟨_,rfl⟩
  · obtain ⟨e,he⟩ := validate_error hv
    rw [he]
    exact ⟨e,rfl⟩

/-- Persistent startup of a kernel that it supports. -/
theorem startPersistent_of_supported {calls : List (BuilderCall H S F I)} (h : Startable calls)
    (hs : storesOf calls = []) :
    (built calls).startPersistent = makeSubscribers (registrationsOf calls) >>= fun subscribers =>
      .ret (.ok ⟨fromHandlers (handlersOf calls),fromSubscribers subscribers⟩) := by
  have hnone : (built calls).inboxStore.isSome = false := by
    rw [built_eq,hs]
    rfl
  unfold KernelBuilder.startPersistent
  rw [(validate_ok calls).mpr h]
  dsimp only
  rw [if_neg (by simp [hnone]),built_eq]

/-- Kernel assembly is all or nothing: each mode starts exactly the kernels whose
registrations it supports, calls no factory before all of them are checked and each
factory once after that, and what it starts dispatches by what was registered. -/
theorem kernel_assembly (calls : List (BuilderCall H S F I)) :
    ((∃ kernel, (built calls).start = .ok kernel) ↔
        Startable calls ∧ factories (registrationsOf calls) = [] ∧ storesOf calls ≠ []) ∧
      (∀ store r, (built calls).start = .ok (store,r) → (storesOf calls).getLast? = some store ∧
        Dispatches (handlersOf calls) (supplied (registrationsOf calls) []) r r.directGateway) ∧
      ∀ (σ : Type) (handle : (op : FactoryOp F) → σ → Option (FactoryOp.Reply S op) × σ) (s : σ),
        let result := ((built calls).startPersistent.run handle s).1
        let invoked := trace handle (built calls).startPersistent s
        (¬(Startable calls ∧ storesOf calls = []) →
          (∃ e, result = some (.error e)) ∧ invoked = []) ∧
        (Startable calls ∧ storesOf calls = [] →
          (result = none ∧ ∃ o ∈ invoked, o.2 = none) ∨ ∃ made r, result = some (.ok r) ∧
            made.length = (factories (registrationsOf calls)).length ∧
            invoked = List.zipWith madeBy (factories (registrationsOf calls)) made ∧
            Dispatches (handlersOf calls) (supplied (registrationsOf calls) made) r
              durableGateway) := by
  refine ⟨⟨?_,?_⟩,?_,?_⟩
  · rintro ⟨kernel,hk⟩
    by_contra h
    obtain ⟨e,he⟩ := start_of_unsupported h
    rw [he] at hk
    cases hk
  · rintro ⟨hv,hf,hs⟩
    cases hl : (storesOf calls).getLast? with
    | none => exact absurd (List.getLast?_eq_none_iff.mp hl) hs
    | some store => exact ⟨_,start_of_supported hv hf hl⟩
  · intro store r hk
    by_cases h : Startable calls ∧ factories (registrationsOf calls) = [] ∧ storesOf calls ≠ []
    · obtain ⟨hv,hf,hs⟩ := h
      cases hl : (storesOf calls).getLast? with
      | none => exact absurd (List.getLast?_eq_none_iff.mp hl) hs
      | some last =>
        rw [start_of_supported hv hf hl] at hk
        cases hk
        exact ⟨rfl,dispatches hv.handlers _ (passive_directGateway _)⟩
    · obtain ⟨e,he⟩ := start_of_unsupported h
      rw [he] at hk
      cases hk
  · intro σ handle s
    refine ⟨fun h => ?_,fun ⟨hv,hs⟩ => ?_⟩
    · obtain ⟨e,he⟩ := startPersistent_of_unsupported h
      rw [he]
      exact ⟨⟨e,rfl⟩,rfl⟩
    · rw [startPersistent_of_supported hv hs,trace_bind]
      rcases makeSubscribers_outcome handle (registrationsOf calls) s with
        ⟨hnone,o,ho,hpanic⟩ | ⟨made,s',hlen,hrun,htrace⟩
      · exact .inl ⟨Prog.run_bind_panicked handle hnone _,o,List.mem_append_left _ ho,hpanic⟩
      · rw [Prog.run_bind,hrun,htrace]
        exact .inr ⟨made,_,rfl,hlen,List.append_nil _,
          dispatches hv.handlers _ passive_durableGateway⟩

end Assembly

end Mulac.KernelAssembly
