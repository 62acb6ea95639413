import Mulac.CallTrace
import Mulac.HandoffRules
import Mulac.Recording

/-!
# Executing a command

One command through `CommandDispatcher::dispatch`: its handler is asked first,
then every event it returned is checked and wrapped, and only then does the event
gateway see any of them. The ids that the wrapper gives an event continue the
chain that starts at an inbox message and goes through the command table.
-/

namespace Mulac.CommandExecution

open Identifiers SerdeJson QueueDomain KeyedTable Envelopes QueueRow Repository RepositoryContracts
  FourQueues CallSequence QueueCalls PanicProgram CallTrace Dispatch Pipeline Handoffs HandoffRules
  RowLifetimes Recording

section Calls

variable {C E : Type}

/-- The calls of one execution. -/
inductive ExecutionOp (C : Type) where
  /-- `Uuid::now_v7`. -/
  | nowV7
  /-- `CommandHandlerPort::execute`. -/
  | execute (command : C)
  /-- `EventDispatchPort::dispatch`. -/
  | dispatch (event : NewEventEnvelope)

/-- What a call returns. -/
abbrev ExecutionOp.Reply (E : Type) : ExecutionOp C → Type
  | nowV7 => Uuid
  | execute _ => Except CommandError (List E)
  | dispatch _ => Except EventError Unit

/-- `CommandDispatcher::dispatch` with one handler in its wrapper. -/
def executeCommand (fromStr : String → Except String C) (events : ApplicationEvent E)
    (envelope : NewCommandEnvelope) :
    Prog (ExecutionOp C) (ExecutionOp.Reply E) (Except CommandError Unit) :=
  CommandDispatcher.dispatch
    (HandlerWrapper.execute fromStr (fun command => Prog.perform (ExecutionOp.execute command))
      events (Prog.perform ExecutionOp.nowV7))
    (fun event => Prog.perform (ExecutionOp.dispatch event)) envelope

/-- A call of the gateway, with its reply. -/
def gatewayCall : Observed (ExecutionOp C) (ExecutionOp.Reply E) →
    Option (NewEventEnvelope × Option (Except EventError Unit))
  | ⟨.dispatch event,reply⟩ => some (event,reply)
  | _ => none

/-- The calls of the gateway among those of a run. -/
def gatewayCalls (calls : List (Observed (ExecutionOp C) (ExecutionOp.Reply E))) :
    List (NewEventEnvelope × Option (Except EventError Unit)) := calls.filterMap gatewayCall

/-- An event whose sequence is no revision, or that does not serialize. -/
def Unfit (events : ApplicationEvent E) (event : E) : Prop :=
  OutOfRange (events.sequence event) ∨ ∃ e, events.toJson event = .error e

/-- The envelope that an event is dispatched in. -/
structure Wrapped (events : ApplicationEvent E) (command : Option CommandMetadata) (event : E)
    (envelope : NewEventEnvelope) : Prop where
  /-- The event's own type. -/
  type : envelope.eventType = events.eventType event
  /-- The serialized event. -/
  payload : events.toJson event = .ok envelope.payload
  /-- The event's own sequence, a drawn id, the command's conversation or else the
  command itself, the command as the cause, and no source. -/
  metadata : ∃ eventId, envelope.metadata = some ⟨events.sequence event,eventId,
    command.map fun m => m.correlationId.getD m.commandId,
    command.map CommandMetadata.commandId,none⟩

end Calls

section Wrapping

variable {C E σ : Type} {events : ApplicationEvent E}
  {handle : (op : ExecutionOp C) → σ → Option (ExecutionOp.Reply E op) × σ}

theorem gatewayCalls_append (left right : List (Observed (ExecutionOp C) (ExecutionOp.Reply E))) :
    gatewayCalls (left++right) = gatewayCalls left++gatewayCalls right := List.filterMap_append

/-- An event that is not unfit passes both checks. -/
theorem fit_iff {event : E} : ¬Unfit events event ↔
    validSequence (events.sequence event) = true ∧
      ∃ payload, events.toJson event = .ok payload := by
  rw [Unfit,not_or,← validSequence_eq_false,Bool.not_eq_false]
  refine and_congr_right fun _ => ?_
  cases events.toJson event <;> simp

/-- What the wrapper makes of an event. -/
theorem wrapped_eventMetadata (command : Option CommandMetadata) {event : E} {payload : String}
    (h : events.toJson event = .ok payload) (eventId : Uuid) :
    Wrapped events command event ⟨events.eventType event,payload,
      some (eventMetadata command (events.sequence event) eventId)⟩ where
  type := rfl
  payload := h
  metadata := by
    refine ⟨eventId,?_⟩
    cases command with
    | none => rfl
    | some m => cases hc : m.correlationId <;> simp [eventMetadata,hc]

/-- Wrapping draws ids and calls nothing else. -/
theorem gatewayCalls_wrapEvents (command : Option CommandMetadata) (produced : List E) (s : σ) :
    gatewayCalls (trace handle (wrapEvents events (Prog.perform ExecutionOp.nowV7) command produced)
      s) = [] := by
  induction produced generalizing s with
  | nil => rfl
  | cons event rest ih =>
    rw [wrapEvents]
    split
    · split
      · rfl
      · rw [trace_bind,trace_perform,gatewayCalls_append]
        rcases (Prog.perform ExecutionOp.nowV7).run handle s with ⟨_ | eventId,s₁⟩
        · rfl
        · dsimp only
          rw [trace_bind,gatewayCalls_append,ih]
          rcases (wrapEvents events _ command rest).run handle s₁ with ⟨_ | wrapped,s₂⟩ <;> rfl
    · rfl

/-- An event that passes both checks is wrapped before the rest of the list. -/
theorem run_wrapEvents_cons {command : Option CommandMetadata} {event : E} {rest : List E}
    {payload : String} {eventId : Uuid} {wrapped : Except CommandError (List NewEventEnvelope)}
    {s s₁ s₂ : σ} (hvalid : validSequence (events.sequence event) = true)
    (hjson : events.toJson event = .ok payload) (hid : handle .nowV7 s = (some eventId,s₁))
    (hrest : (wrapEvents events (Prog.perform ExecutionOp.nowV7) command rest).run handle s₁ =
      (some wrapped,s₂)) :
    (wrapEvents events (Prog.perform ExecutionOp.nowV7) command (event::rest)).run handle s =
      (some (wrapped.map fun envelopes => ⟨events.eventType event,payload,
        some (eventMetadata command (events.sequence event) eventId)⟩::envelopes),s₂) := by
  rw [wrapEvents,if_pos hvalid,hjson]
  dsimp only
  rw [Prog.run_bind,Prog.run_perform,hid]
  dsimp only
  rw [Prog.run_bind,hrest]
  rfl

/-- Events that are all fit are all wrapped. -/
theorem run_wrapEvents_of_fit (hdraw : ∀ s, ∃ u s', handle .nowV7 s = (some u,s'))
    (command : Option CommandMetadata) {produced : List E}
    (h : ∀ event ∈ produced, ¬Unfit events event) (s : σ) :
    ∃ envelopes s', (wrapEvents events (Prog.perform ExecutionOp.nowV7) command produced).run handle
        s = (some (.ok envelopes),s') ∧
      List.Forall₂ (Wrapped events command) produced envelopes := by
  induction produced generalizing s with
  | nil => exact ⟨[],s,rfl,.nil⟩
  | cons event rest ih =>
    obtain ⟨hvalid,payload,hjson⟩ := fit_iff.mp (h event (by simp))
    obtain ⟨eventId,s₁,hid⟩ := hdraw s
    obtain ⟨envelopes,s₂,hrest,hwrapped⟩ := ih (fun e he => h e (by simp [he])) s₁
    exact ⟨_,s₂,run_wrapEvents_cons hvalid hjson hid hrest,
      .cons (wrapped_eventMetadata command hjson eventId) hwrapped⟩

/-- One unfit event fails them all. -/
theorem run_wrapEvents_of_unfit (hdraw : ∀ s, ∃ u s', handle .nowV7 s = (some u,s'))
    (command : Option CommandMetadata) {produced : List E}
    (h : ∃ event ∈ produced, Unfit events event) (s : σ) :
    ∃ e s', (wrapEvents events (Prog.perform ExecutionOp.nowV7) command produced).run handle s =
      (some (.error e),s') := by
  induction produced generalizing s with
  | nil => simp at h
  | cons event rest ih =>
    by_cases hfit : Unfit events event
    · rw [wrapEvents]
      split
      · next hvalid =>
        cases hj : events.toJson event with
        | error e => exact ⟨_,_,rfl⟩
        | ok payload => exact absurd hfit (fit_iff.mpr ⟨hvalid,payload,hj⟩)
      · exact ⟨_,_,rfl⟩
    · obtain ⟨hvalid,payload,hjson⟩ := fit_iff.mp hfit
      obtain ⟨eventId,s₁,hid⟩ := hdraw s
      obtain ⟨bad,hbad,hunfit⟩ := h
      rcases List.mem_cons.mp hbad with rfl | hbad
      · exact absurd hunfit hfit
      · obtain ⟨e,s₂,hrest⟩ := ih ⟨bad,hbad,hunfit⟩ s₁
        exact ⟨e,s₂,run_wrapEvents_cons hvalid hjson hid hrest⟩

end Wrapping

section Dispatching

variable {C E σ : Type} {handle : (op : ExecutionOp C) → σ → Option (ExecutionOp.Reply E op) × σ}

/-- The loop over the events of a command. -/
theorem dispatchEvents_outcome (envelopes : List NewEventEnvelope) (s : σ) :
    InOrder CommandError.eventing envelopes
      (gatewayCalls (trace handle (dispatchEvents (fun event =>
        Prog.perform (ExecutionOp.dispatch event)) envelopes) s))
      ((dispatchEvents (fun event => Prog.perform (ExecutionOp.dispatch event)) envelopes).run
        handle s).1 := by
  induction envelopes generalizing s with
  | nil => exact .nil CommandError.eventing
  | cons event rest ih =>
    obtain ⟨reply,s₁,hrun,htrace⟩ := perform_outcome handle (.dispatch event) s
    rw [dispatchEvents,trace_bind,Prog.run_bind,htrace,hrun]
    rcases reply with _ | e | _
    · exact .panicked_at event rest
    · exact .refused_at event rest e
    · exact (ih s₁).cons event

end Dispatching

section Execution

variable {C E σ : Type} {fromStr : String → Except String C} {events : ApplicationEvent E}
  {handle : (op : ExecutionOp C) → σ → Option (ExecutionOp.Reply E op) × σ}
  {envelope : NewCommandEnvelope}

/-- A handler in its wrapper. -/
def wrapped (fromStr : String → Except String C) (events : ApplicationEvent E)
    (envelope : NewCommandEnvelope) :
    Prog (ExecutionOp C) (ExecutionOp.Reply E) (Except CommandError (List NewEventEnvelope)) :=
  HandlerWrapper.execute fromStr (fun command => Prog.perform (ExecutionOp.execute command)) events
    (Prog.perform ExecutionOp.nowV7) envelope

/-- A wrapped handler does not call the gateway. -/
theorem gatewayCalls_wrapped (s : σ) :
    gatewayCalls (trace handle (wrapped fromStr events envelope) s) = [] := by
  unfold wrapped HandlerWrapper.execute
  split
  · rfl
  · next command _ =>
    obtain ⟨reply,s₁,hrun,htrace⟩ := perform_outcome handle (.execute command) s
    rw [trace_bind,htrace,hrun,gatewayCalls_append]
    match reply with
    | none => rfl
    | some (.error e) => rfl
    | some (.ok produced) => exact gatewayCalls_wrapEvents envelope.metadata produced s₁

/-- A command whose handler failed dispatches nothing. -/
theorem executeCommand_of_error {s s' : σ} {e : CommandError}
    (h : (wrapped fromStr events envelope).run handle s = (some (.error e),s')) :
    ((executeCommand fromStr events envelope).run handle s).1 = some (.error e) ∧
      gatewayCalls (trace handle (executeCommand fromStr events envelope) s) = [] := by
  have hcalls : gatewayCalls (trace handle (wrapped fromStr events envelope) s) = [] :=
    gatewayCalls_wrapped s
  constructor
  · exact congrArg Prod.fst (Prog.run_bind_of_some handle h _)
  · refine (congrArg gatewayCalls (trace_bind_of_some h _)).trans ?_
    rw [gatewayCalls_append,hcalls]
    rfl

/-- A command whose handler returned events dispatches them in order. -/
theorem executeCommand_of_ok {s s' : σ} {envelopes : List NewEventEnvelope}
    (h : (wrapped fromStr events envelope).run handle s = (some (.ok envelopes),s')) :
    InOrder CommandError.eventing envelopes
      (gatewayCalls (trace handle (executeCommand fromStr events envelope) s))
      ((executeCommand fromStr events envelope).run handle s).1 := by
  have hcalls : gatewayCalls (trace handle (wrapped fromStr events envelope) s) = [] :=
    gatewayCalls_wrapped s
  have hrun : (executeCommand fromStr events envelope).run handle s = _ :=
    Prog.run_bind_of_some handle h _
  have htrace : trace handle (executeCommand fromStr events envelope) s = _ :=
    trace_bind_of_some h _
  rw [hrun,htrace,gatewayCalls_append,hcalls,List.nil_append]
  exact dispatchEvents_outcome envelopes s'

/-- A payload that does not decode is an error. -/
theorem run_wrapped_undecoded {e : String} (hd : fromStr envelope.payload = .error e) (s : σ) :
    (wrapped fromStr events envelope).run handle s = (some (.error (.conversion e)),s) := by
  unfold wrapped HandlerWrapper.execute
  rw [hd]
  rfl

/-- So is the error of a handler. -/
theorem run_wrapped_error {command : C} {e : CommandError} {s s₁ : σ}
    (hd : fromStr envelope.payload = .ok command)
    (hr : handle (.execute command) s = (some (.error e),s₁)) :
    (wrapped fromStr events envelope).run handle s = (some (.error e),s₁) := by
  unfold wrapped HandlerWrapper.execute
  rw [hd]
  dsimp only
  rw [Prog.run_bind,Prog.run_perform,hr]
  rfl

/-- What a handler returned goes on to be wrapped. -/
theorem run_wrapped_ok {command : C} {produced : List E} {s s₁ : σ}
    (hd : fromStr envelope.payload = .ok command)
    (hr : handle (.execute command) s = (some (.ok produced),s₁)) :
    (wrapped fromStr events envelope).run handle s =
      (wrapEvents events (Prog.perform ExecutionOp.nowV7) envelope.metadata produced).run handle
        s₁ := by
  unfold wrapped HandlerWrapper.execute
  rw [hd]
  dsimp only
  rw [Prog.run_bind,Prog.run_perform,hr]

end Execution

section Chain

variable {float : FloatReader} {t t' : Rows (QueueName.commands.queue float)}

/-- No run of calls changes what a row holds. -/
theorem kept_run {name : QueueName} {t : Rows (name.queue float)} {k : Uuid}
    {r : Row (name.queue float).Own} (calls : List (Call (name.queue float)))
    (h : t.find? k = some r) :
    ∃ r', (after step t calls).find? k = some r' ∧ contentOf name r' = contentOf name r := by
  induction calls generalizing t r with
  | nil => exact ⟨r,h,rfl⟩
  | cons c calls ih =>
    obtain ⟨r₁,hf₁,hmove⟩ := row_move c h
    obtain ⟨r₂,hf₂,hc⟩ := ih hf₁
    exact ⟨r₂,hf₂,hc.trans (RowMove.content hmove)⟩

/-- A recorded command is handed out as it was recorded, whatever calls come between. -/
theorem reread {new : NewCommandEnvelope} {m : CommandMetadata} (hm : new.metadata = some m)
    {appNow now : Timestamp} (hfree : t.find? m.commandId = none)
    (hrec : record t new appNow now = (.ok (),t'))
    (calls : List (Call (QueueName.commands.queue float)))
    (c : Call (QueueName.commands.queue float)) {e : CommandEnvelope}
    (he : e ∈ (handedOut (after step t' calls) c : List CommandEnvelope))
    (hid : e.id = m.commandId) : NewCommandEnvelope.ofEnvelope e = new := by
  obtain ⟨n,metadata,hn,hmeta,hins⟩ : ∃ n metadata, newCommandEntry new appNow now = .ok n ∧
      metadata.value = n.metadata ∧ t' = t.insertNew (storedRow n metadata) := by
    rcases record_cases t new appNow now with ⟨n,metadata,hn,hmeta,he⟩ | ⟨_,he⟩
    · exact ⟨n,metadata,hn,hmeta,congrArg Prod.snd (hrec.symm.trans he)⟩
    · rw [hrec] at he
      cases he
  obtain ⟨m',hm',hnid,hcontent,hread⟩ := command_row float hn hmeta
  obtain rfl : m = m' := Option.some.inj (hm.symm.trans hm')
  have hrow : t'.find? m.commandId = some (storedRow n metadata) := by
    rw [hins,Table.find?_insertNew,hfree]
    exact if_pos hnid
  obtain ⟨r,hr,hkept⟩ := kept_run calls hrow
  obtain ⟨_,draw,r',hcall,hf,_,hd,_,hrid,_⟩ := handedOut_row he
  have hkey : r'.id = m.commandId := hrid.symm.trans hid
  rw [hkey,hr] at hf
  obtain rfl : r = r' := Option.some.inj hf
  obtain ⟨htype,hpayload,hmetadata⟩ := decode_reads hd
  rw [content_reservedRow,hkept,hcontent] at htype hpayload hmetadata
  dsimp only at htype hpayload hmetadata
  rw [hread] at hmetadata
  obtain ⟨commandType,payload,stored⟩ := new
  obtain rfl : stored = some m := hm
  have hstored : some m = e.metadata := Except.ok.inj hmetadata
  rw [NewCommandEnvelope.ofEnvelope,← hstored,← Option.some.inj htype,← hpayload]

end Chain

section Validation

variable {C E σ : Type}

/-- The chain of ids from a message through the command made from it to the events
of that command. -/
structure Chained (events : ApplicationEvent E) (message : InboxMessageEnvelope) (drawn : Uuid)
    (envelope : NewCommandEnvelope) : Prop where
  /-- The command is caused by the message, and keeps its conversation. -/
  command : envelope.metadata = some ⟨drawn,message.metadata.correlationId,
    message.metadata.messageId,message.metadata.source⟩
  /-- Its events are caused by the command, in that conversation or the command's own. -/
  event : ∀ event e, Wrapped events envelope.metadata event e →
    ∃ m, e.metadata = some m ∧ m.causationId = some drawn ∧
      m.correlationId = some (message.metadata.correlationId.getD drawn)

/-- A command that carries such metadata continues the chain. -/
theorem Chained.of_metadata (events : ApplicationEvent E) {message : InboxMessageEnvelope}
    {drawn : Uuid} {envelope : NewCommandEnvelope}
    (h : envelope.metadata = some ⟨drawn,message.metadata.correlationId,
      message.metadata.messageId,message.metadata.source⟩) :
    Chained events message drawn envelope where
  command := h
  event := by
    intro event e he
    obtain ⟨eventId,hm⟩ := he.metadata
    rw [h] at hm
    exact ⟨_,hm,rfl,rfl⟩

/-- The command that the inbox consumer makes from a message. -/
theorem ofInbox_metadata {drawn : Uuid} {message : InboxMessageEnvelope} {new : NewCommandEnvelope}
    (h : NewCommandEnvelope.ofInbox drawn message = .ok new) :
    new.metadata = some ⟨drawn,message.metadata.correlationId,message.metadata.messageId,
      message.metadata.source⟩ := by
  unfold NewCommandEnvelope.ofInbox at h
  split at h
  · cases h
  · cases h
    rfl

/-- Validation before dispatch: a payload that does not decode, a handler that
fails and an event that is unfit end a command before the gateway is called;
otherwise the events, wrapped, are dispatched in order up to the first that is
not accepted. A command made from a message and read again from its table keeps
the chain of ids. -/
theorem command_execution (fromStr : String → Except String C) (events : ApplicationEvent E)
    (handle : (op : ExecutionOp C) → σ → Option (ExecutionOp.Reply E op) × σ)
    (hdraw : ∀ s, ∃ u s', handle .nowV7 s = (some u,s')) (envelope : NewCommandEnvelope) (s : σ) :
    let result := ((executeCommand fromStr events envelope).run handle s).1
    let calls := gatewayCalls (trace handle (executeCommand fromStr events envelope) s)
    (∀ e, fromStr envelope.payload = .error e → (∃ e', result = some (.error e')) ∧ calls = []) ∧
      (∀ command s', fromStr envelope.payload = .ok command →
        (∀ e, handle (.execute command) s = (some (.error e),s') →
          result = some (.error e) ∧ calls = []) ∧
        ∀ produced, handle (.execute command) s = (some (.ok produced),s') →
          ((∃ event ∈ produced, Unfit events event) →
            (∃ e, result = some (.error e)) ∧ calls = []) ∧
          ((∀ event ∈ produced, ¬Unfit events event) → ∃ envelopes,
            List.Forall₂ (Wrapped events envelope.metadata) produced envelopes ∧
              InOrder CommandError.eventing envelopes calls result)) ∧
      ∀ (float : FloatReader) (message : InboxMessageEnvelope) (drawn : Uuid) (new : NewCommandEnvelope)
        (t t' : Rows (QueueName.commands.queue float)) (appNow now : Timestamp)
        (between : List (Call (QueueName.commands.queue float)))
        (c : Call (QueueName.commands.queue float)) (e : CommandEnvelope),
        NewCommandEnvelope.ofInbox drawn message = .ok new → t.find? drawn = none →
        record t new appNow now = (.ok (),t') →
        e ∈ (handedOut (after step t' between) c : List CommandEnvelope) → e.id = drawn →
          Chained events message drawn (.ofEnvelope e) := by
  refine ⟨fun e hd => ?_,fun command s' hd => ⟨fun e hr => ?_,fun produced hr => ⟨?_,?_⟩⟩,?_⟩
  · obtain ⟨hresult,hcalls⟩ := executeCommand_of_error (run_wrapped_undecoded hd s)
    exact ⟨⟨_,hresult⟩,hcalls⟩
  · exact executeCommand_of_error (run_wrapped_error hd hr)
  · intro hunfit
    obtain ⟨e,s'',hrun⟩ := run_wrapEvents_of_unfit hdraw envelope.metadata hunfit s'
    obtain ⟨hresult,hcalls⟩ := executeCommand_of_error ((run_wrapped_ok hd hr).trans hrun)
    exact ⟨⟨e,hresult⟩,hcalls⟩
  · intro hfit
    obtain ⟨envelopes,s'',hrun,hwrapped⟩ := run_wrapEvents_of_fit hdraw envelope.metadata hfit s'
    exact ⟨envelopes,hwrapped,executeCommand_of_ok ((run_wrapped_ok hd hr).trans hrun)⟩
  · intro float message drawn new t t' appNow now between c e hnew hfree hrec he hid
    have hm := ofInbox_metadata hnew
    refine Chained.of_metadata events ?_
    rw [reread hm hfree hrec between c he hid]
    exact hm

/-- Events that are revisions of a counter. -/
def revisions : ApplicationEvent ℕ := ⟨fun _ => "counted",some,fun _ => .ok "{}"⟩

/-- A handler that counts to two, and a gateway that accepts everything. -/
def counting : (op : ExecutionOp Unit) → Unit → Option (ExecutionOp.Reply ℕ op) × Unit
  | .nowV7,s => (some (.fromU128 9),s)
  | .execute _,s => (some (.ok [1,2]),s)
  | .dispatch _,s => (some (.ok ()),s)

/-- A command that the counter takes. -/
def countCommand : NewCommandEnvelope := ⟨"count","null",some ⟨.fromU128 5,none,none,none⟩⟩

theorem command_execution_counting :
    ∃ envelopes, List.Forall₂ (Wrapped revisions countCommand.metadata) [1,2] envelopes ∧
      InOrder CommandError.eventing envelopes
        (gatewayCalls (trace counting (executeCommand (fun _ => .ok ()) revisions countCommand) ()))
        ((executeCommand (fun _ => .ok ()) revisions countCommand).run counting ()).1 := by
  have hdraw : ∀ s, ∃ u s', counting .nowV7 s = (some u,s') := fun s => ⟨_,_,rfl⟩
  have hall := command_execution (fun _ => .ok ()) revisions counting hdraw countCommand ()
  refine ((hall.2.1 () () rfl).2 [1,2] rfl).2 ?_
  intro event hevent
  refine fit_iff.mpr ⟨?_,_,rfl⟩
  simp only [List.mem_cons,List.not_mem_nil,or_false] at hevent
  rcases hevent with rfl | rfl <;> decide

end Validation

end Mulac.CommandExecution
