import Mulac.BatchAccounting
import Mulac.KernelAssembly
import Mulac.Pipeline

/-!
# Dispatching a command

`PersistentKernelState::dispatch_command` records a command and then drains the
two queues of the kernel in rounds, on the caller's thread and whoever queued
the work. The errors of a batch are those of all its items, and the first of
them is what the caller gets: the call fails exactly if the reservation of a
batch or the handling of some item failed.
-/

namespace Mulac.DispatchCommand

open Identifiers QueueRow Repository Envelopes FourQueues QueueRuns PanicProgram CallTrace
  Consumers PortCalls Dispatch BatchSettlement BatchAccounting Pipeline KernelAssembly

section Kernel

/-- `ApplicationCommand`, with serde's `Serialize`. -/
structure ApplicationCommand (C : Type) where
  /-- `command_type`. -/
  commandType : C → String
  /-- `serde_json::to_string`, or the text of its error. -/
  toJson : C → Except String String

/-- The kernel's `NewCommandEnvelope<C>`. -/
structure TypedCommandEnvelope (C : Type) where
  /-- The command of the application. -/
  command : C
  /-- Its metadata. -/
  metadata : CommandMetadata

/-- `into_gateway_envelope`. -/
def TypedCommandEnvelope.intoGatewayEnvelope {C : Type} (commands : ApplicationCommand C)
    (envelope : TypedCommandEnvelope C) : Except String NewCommandEnvelope :=
  (commands.toJson envelope.command).map fun payload =>
    ⟨commands.commandType envelope.command,payload,some envelope.metadata⟩

/-- `first_command_error`. -/
def firstCommandError : List CommandError → KernelError
  | error::_ => .command error
  | [] => .worker "command consumer failed without an error"

/-- `first_event_error`. -/
def firstEventError : List EventError → KernelError
  | error::_ => .event error
  | [] => .worker "event consumer failed without an error"

/-- `ReservableCommandSpec::new(64)` and `ReservableEventSpec::new(64)`. -/
def drainSpec : ReservableSpec := ⟨64,by decide,6,singleSpec.maxAttempts_lt⟩

variable (app : Application) (float : SerdeJson.FloatReader)

/-- The loop of `dispatch_command` over its rounds. -/
def drain : ℕ → Program app float (Except KernelError Unit)
  | 0 => .ret (.ok ())
  | rounds+1 => do
    match ← consumeCommands float (ports .commands) commandDispatcher drainSpec with
    | .error errors => .ret (.error (firstCommandError errors))
    | .ok _ =>
      match ← consumeEvents float (ports .events) eventDispatcher drainSpec with
      | .error errors => .ret (.error (firstEventError errors))
      | .ok _ => drain rounds

/-- `PersistentKernelState::dispatch_command`. -/
def PersistentKernelState.dispatchCommand {C : Type} (commands : ApplicationCommand C)
    (drainRounds : ℕ) (envelope : TypedCommandEnvelope C) :
    Program app float (Except KernelError Unit) :=
  match envelope.intoGatewayEnvelope commands with
  | .error e => .ret (.error (.command (.conversion e)))
  | .ok envelope => do
    match ← commandGateway.dispatch envelope with
    | .error e => .ret (.error (.command e))
    | .ok () => drain app float drainRounds

end Kernel

section Failures

variable {app : Application} {float : SerdeJson.FloatReader} {σ : Type}
  {handle : (op : SystemOp app float) → σ → Option op.Reply × σ} {name : QueueName}

/-- The reservation of a batch returned an error. -/
def ReservationFailed (o : Observed (SystemOp app float) SystemOp.Reply) : Prop :=
  ∃ name spec error, o = ⟨.port name (.reserve spec),some (.error error)⟩

/-- The handling of an item failed: `run_item` calls `failed` for an item whose work or whose
completion returned `Err` or panicked, and for no other. -/
def HandlingFailed (o : Observed (SystemOp app float) SystemOp.Reply) : Prop :=
  ∃ name id token maxAttempts reason reply,
    o = ⟨.port name (.failed id token maxAttempts reason),reply⟩

/-- A reservation, or the handling of an item, failed. -/
def Failure (o : Observed (SystemOp app float) SystemOp.Reply) : Prop :=
  ReservationFailed o ∨ HandlingFailed o

/-- A call of no port. -/
def NoPort (o : Observed (SystemOp app float) SystemOp.Reply) : Prop :=
  ∀ name op, o.1 ≠ .port name op

theorem NoPort.not_failure {o : Observed (SystemOp app float) SystemOp.Reply} (h : NoPort o) :
    ¬Failure o := by
  rintro (⟨name,spec,error,rfl⟩ | ⟨name,id,token,maxAttempts,reason,reply,rfl⟩)
  · exact h name (.reserve spec) rfl
  · exact h name (.failed id token maxAttempts reason) rfl

/-- A call of no port, as a program. -/
theorem noPort_perform {op : SystemOp app float} (h : ∀ name port, op ≠ .port name port) (s : σ) :
    ∀ o ∈ trace handle (Prog.perform op : Program app float op.Reply) s, NoPort o := by
  intro o ho
  rw [trace_perform] at ho
  rw [List.mem_singleton.mp ho]
  exact h

/-- A handler in its wrapper calls no port. -/
theorem noPort_wrapHandler (handler : app.Handler) (envelope : NewCommandEnvelope) (s : σ) :
    ∀ o ∈ trace handle (wrapHandler handler envelope : Program app float _) s, NoPort o := by
  have hevents : ∀ produced (s : σ), ∀ o ∈ trace handle (wrapEvents app.events
      (nowV7 : Program app float Uuid) envelope.metadata produced) s, NoPort o := by
    intro produced
    induction produced with
    | nil => exact fun _ o ho => by cases ho
    | cons event rest ih =>
      intro s
      rw [wrapEvents]
      split
      · split
        · exact fun o ho => by cases ho
        · refine forall_trace_bind (noPort_perform (by rintro _ _ ⟨⟩) s) fun eventId s₁ => ?_
          exact forall_trace_bind (ih s₁) fun wrapped s₂ o ho => by cases ho
      · exact fun o ho => by cases ho
  unfold wrapHandler HandlerWrapper.execute
  split
  · exact fun o ho => by cases ho
  · refine forall_trace_bind (noPort_perform (by rintro _ _ ⟨⟩) s) ?_
    rintro (e | produced) s₁
    · exact fun o ho => by cases ho
    · exact hevents produced s₁

/-- The dispatcher of a command calls no port. -/
theorem noPort_commandDispatcher (envelope : NewCommandEnvelope) (s : σ) :
    ∀ o ∈ trace handle (commandDispatcher envelope : Program app float _) s, NoPort o := by
  have hgateway : ∀ event (s : σ), ∀ o ∈ trace handle
      (EventGateway.dispatch (eventGateway : EventGateway (SystemOp app float) SystemOp.Reply)
        event) s, NoPort o := by
    intro event s
    unfold EventGateway.dispatch eventGateway
    split
    · exact fun o ho => by cases ho
    · refine forall_trace_bind (noPort_perform (by rintro _ _ ⟨⟩) s) ?_
      exact fun result s₁ o ho => by cases ho
  have hevents : ∀ events (s : σ), ∀ o ∈ trace handle (dispatchEvents
      (EventGateway.dispatch (eventGateway : EventGateway (SystemOp app float) SystemOp.Reply))
        events) s, NoPort o := by
    intro events
    induction events with
    | nil => exact fun _ o ho => by cases ho
    | cons event rest ih =>
      intro s
      refine forall_trace_bind (hgateway event s) ?_
      rintro (e | _) s₁
      · exact fun o ho => by cases ho
      · exact ih s₁
  unfold commandDispatcher CommandDispatcher.dispatch
  refine forall_trace_bind ?_ ?_
  · unfold CommandHandlerRegistry.execute
    split
    · exact fun o ho => by cases ho
    · exact noPort_wrapHandler _ envelope s
  · rintro (e | events) s₁
    · exact fun o ho => by cases ho
    · exact hevents events s₁

/-- Nor does the dispatcher of an event. -/
theorem noPort_eventDispatcher (envelope : NewEventEnvelope) (s : σ) :
    ∀ o ∈ trace handle (eventDispatcher envelope : Program app float _) s, NoPort o := by
  have hall : ∀ subscribers (s : σ), ∀ o ∈ trace handle (handleAll
      (fun subscriber event => (Prog.perform (SystemOp.handle subscriber event) :
        Program app float _)) envelope subscribers) s, NoPort o := by
    intro subscribers
    induction subscribers with
    | nil => exact fun _ o ho => by cases ho
    | cons subscriber rest ih =>
      intro s
      refine forall_trace_bind (noPort_perform (by rintro _ _ ⟨⟩) s) ?_
      rintro (e | _) s₁
      · exact fun o ho => by cases ho
      · exact ih s₁
  exact hall _ s

variable {items : Items (name.queue float)}
  {work : (name.queue float).Envelope → Program app float (Except (name.queue float).Error Unit)}

/-- The calls for an item: those of its work, which call no port, and its finalizations. -/
inductive ItemCall (name : QueueName) (identity : Uuid × Uuid) : SystemOp app float → Prop
  /-- A call of the work. -/
  | work {op : SystemOp app float} : (∀ name port, op ≠ .port name port) → ItemCall name identity op
  /-- Its completion. -/
  | completed : ItemCall name identity (.port name (.completed identity.1 identity.2))
  /-- Its failure. -/
  | failed (maxAttempts : ℤ) (reason : Option String) :
    ItemCall name identity (.port name (.failed identity.1 identity.2 maxAttempts reason))

variable (handle) (name) in
/-- A completion is one call. -/
theorem trace_completed (id token : Uuid) (s : σ) : ∃ reply, trace handle ((ports name :
    Ports (name.queue float) (SystemOp app float) SystemOp.Reply).completed id token) s =
      [⟨.port name (.completed id token),reply⟩] :=
  ⟨_,trace_perform (SystemOp.port name (.completed id token)) s⟩

variable (handle) (name) in
/-- So is a failure. -/
theorem trace_failed (id token : Uuid) (maxAttempts : ℤ) (reason : Option String) (s : σ) :
    ∃ reply, trace handle ((ports name : Ports (name.queue float) (SystemOp app float)
      SystemOp.Reply).failed id token maxAttempts reason) s =
        [⟨.port name (.failed id token maxAttempts reason),reply⟩] :=
  ⟨_,trace_perform (SystemOp.port name (.failed id token maxAttempts reason)) s⟩

/-- One turn of the loop over a batch: it adds an error exactly if the item is failed. -/
theorem processEntry_failures {e : (name.queue float).Envelope} {identity : Uuid × Uuid}
    (hid : items.identity e = .ok identity)
    (hwork : ∀ s, ∀ o ∈ trace handle (work e) s, NoPort o) (maxAttempts : ℤ)
    (errors : List (name.queue float).Error) (s : σ) :
    (∀ o ∈ trace handle (processEntry items (ports name) work maxAttempts e errors) s,
      ItemCall name identity o.1) ∧
    ∃ added s', (processEntry items (ports name) work maxAttempts e errors).run handle s =
        (some (errors++added),s') ∧
      ((added = [] ∧ ∀ o ∈ trace handle (processEntry items (ports name) work maxAttempts e
          errors) s, ¬Failure o) ∨
        (added ≠ [] ∧ ∃ reason reply, (⟨.port name (.failed identity.1 identity.2 maxAttempts
          reason),reply⟩ : Observed (SystemOp app float) _) ∈ trace handle
            (processEntry items (ports name) work maxAttempts e errors) s)) := by
  have hworks : ∀ o ∈ trace handle (work e) s, ItemCall name identity o.1 :=
    fun o ho => .work (hwork s o ho)
  rw [processEntry,hid]
  dsimp only
  obtain ⟨worked,s₁,hw⟩ : ∃ worked s₁, (work e).run handle s = (worked,s₁) := ⟨_,_,rfl⟩
  cases hwo : worked.getD (.error (items.panicError (panicked identity "processing"))) with
  | error error =>
    obtain ⟨reply,hfailed⟩ := trace_failed handle name identity.1 identity.2
      maxAttempts (some (failureReason identity "processing" ((name.queue float).display error)))
      s₁
    rw [run_runItem_error hw hwo,trace_runItem_error hw hwo,run_failItem rfl,hfailed]
    refine ⟨List.forall_mem_append.mpr ⟨hworks,?_⟩,_,_,rfl,.inr ⟨by simp,_,reply,?_⟩⟩
    · intro o ho
      rw [List.mem_singleton.mp ho]
      exact .failed _ _
    · exact List.mem_append_right _ (List.mem_singleton_self _)
  | ok u =>
    obtain rfl := eq_ok_of_getD hwo
    obtain ⟨completed,s₂,hc⟩ : ∃ completed s₂, ((ports name : Ports (name.queue float)
      (SystemOp app float) SystemOp.Reply).completed identity.1 identity.2).run handle s₁ =
        (completed,s₂) := ⟨_,_,rfl⟩
    obtain ⟨done,hdone⟩ :=
      trace_completed handle name identity.1 identity.2 s₁
    cases hco : completed.getD (.error (items.panicError (panicked identity "completion"))) with
    | error error =>
      obtain ⟨reply,hfailed⟩ := trace_failed handle name identity.1 identity.2
        maxAttempts (some (failureReason identity "completion" ((name.queue float).display error)))
        s₂
      rw [run_runItem_completion hw hc hco,trace_runItem_completion hw hc hco,run_failItem rfl,
        hdone,hfailed]
      refine ⟨List.forall_mem_append.mpr ⟨hworks,?_⟩,_,_,rfl,.inr ⟨by simp,_,reply,?_⟩⟩
      · intro o ho
        rcases List.mem_append.mp ho with ho | ho
        · rw [List.mem_singleton.mp ho]
          exact .completed
        · rw [List.mem_singleton.mp ho]
          exact .failed _ _
      · exact List.mem_append_right _ (List.mem_append_right _ (List.mem_singleton_self _))
    | ok u =>
      obtain rfl := eq_ok_of_getD hco
      rw [run_runItem_ok hw rfl hc,trace_runItem_ok hw hc,hdone]
      refine ⟨List.forall_mem_append.mpr ⟨hworks,?_⟩,[],s₂,by rw [List.append_nil],
        .inl ⟨rfl,List.forall_mem_append.mpr ⟨?_,?_⟩⟩⟩
      · intro o ho
        rw [List.mem_singleton.mp ho]
        exact .completed
      · exact fun o ho => (hwork s o ho).not_failure
      · intro o ho
        rw [List.mem_singleton.mp ho]
        rintro (⟨_,_,_,he⟩ | ⟨_,_,_,_,_,_,he⟩) <;> cases he

/-- The loop over a batch. -/
theorem processEntries_failures (hid : ∀ e, ∃ identity, items.identity e = .ok identity)
    (hwork : ∀ e s, ∀ o ∈ trace handle (work e) s, NoPort o) (maxAttempts : ℤ)
    (entries : List (name.queue float).Envelope) (errors : List (name.queue float).Error) (s : σ) :
    ∃ added s', (processEntries items (ports name) work maxAttempts entries errors).run handle s =
        (some (errors++added),s') ∧
      (added = [] ↔ ∀ o ∈ trace handle (processEntries items (ports name) work maxAttempts entries
        errors) s, ¬Failure o) := by
  induction entries generalizing errors s with
  | nil => exact ⟨[],s,by rw [List.append_nil]; rfl,iff_of_true rfl fun o ho => by cases ho⟩
  | cons e entries ih =>
    obtain ⟨identity,hidentity⟩ := hid e
    obtain ⟨_,added,s₁,hrun,hcases⟩ :=
      processEntry_failures hidentity (hwork e) maxAttempts errors s
    have hfine : added = [] ↔ ∀ o ∈ trace handle (processEntry items (ports name) work maxAttempts
        e errors) s, ¬Failure o := by
      rcases hcases with ⟨hnil,hall⟩ | ⟨hne,reason,reply,ho⟩
      · exact iff_of_true hnil hall
      · exact iff_of_false hne fun hall => hall _ ho (.inr ⟨name,_,_,_,_,_,rfl⟩)
    obtain ⟨later,s₂,hruns,hfines⟩ := ih (errors++added) s₁
    refine ⟨added++later,s₂,?_,?_⟩
    · rw [processEntries,Prog.run_bind_of_some _ hrun,hruns,List.append_assoc]
    · rw [processEntries,trace_bind_of_some hrun,List.append_eq_nil_iff,hfine,hfines,
        List.forall_mem_append]

/-- How a batch, or a drain, ends: it panics, it returns `Ok`, or it returns an error, and only
then a failure is among its calls. -/
inductive Ends {ε α : Type} (calls : List (Observed (SystemOp app float) SystemOp.Reply)) :
    Option (Except ε α) → Prop
  /-- A reservation panicked. -/
  | panicked : (∀ o ∈ calls, ¬Failure o) → Ends calls none
  /-- Nothing failed. -/
  | ok (a : α) : (∀ o ∈ calls, ¬Failure o) → Ends calls (some (.ok a))
  /-- Something failed. -/
  | error (e : ε) : (∃ o ∈ calls, Failure o) → Ends calls (some (.error e))

/-- An error reports a failure, and every failure is reported. -/
theorem Ends.error_iff {ε α : Type} {calls : List (Observed (SystemOp app float) SystemOp.Reply)}
    {result : Option (Except ε α)} (h : Ends calls result) :
    (∃ e, result = some (.error e)) ↔ ∃ o ∈ calls, Failure o := by
  cases h with
  | panicked hfine =>
    refine iff_of_false (fun ⟨_,he⟩ => by cases he) ?_
    rintro ⟨o,ho,hf⟩
    exact hfine o ho hf
  | ok a hfine =>
    refine iff_of_false (fun ⟨_,he⟩ => by cases he) ?_
    rintro ⟨o,ho,hf⟩
    exact hfine o ho hf
  | error e hbad => exact iff_of_true ⟨e,rfl⟩ hbad

/-- A batch. -/
theorem consume_ends (hid : ∀ e, ∃ identity, items.identity e = .ok identity)
    (hwork : ∀ e s, ∀ o ∈ trace handle (work e) s, NoPort o) (spec : ReservableSpec) (s : σ) :
    Ends (trace handle (consume items (ports name) work spec) s)
      ((consume items (ports name) work spec).run handle s).1 := by
  obtain ⟨reply,s₁,hrun,htrace⟩ := perform_outcome handle
    (SystemOp.port name (.reserve spec) : SystemOp app float) s
  have hreserve : ((ports name : Ports (name.queue float) (SystemOp app float)
    SystemOp.Reply).reserve spec).run handle s = (reply,s₁) := hrun
  have hcall : trace handle ((ports name : Ports (name.queue float) (SystemOp app float)
    SystemOp.Reply).reserve spec) s = [⟨.port name (.reserve spec),reply⟩] := htrace
  have hfine : (∀ error, reply ≠ some (.error error)) →
      ¬Failure (⟨.port name (.reserve spec),reply⟩ : Observed (SystemOp app float) _) := by
    rintro hne (⟨_,_,error,he⟩ | ⟨_,_,_,_,_,_,he⟩)
    · cases he
      exact hne error rfl
    · cases he
  rw [consume,trace_bind,Prog.run_bind,hreserve,hcall]
  rcases reply with _ | error | entries
  · refine .panicked fun o ho => ?_
    rw [List.mem_singleton.mp ho]
    exact hfine fun _ he => by cases he
  · exact .error _ ⟨_,List.mem_append_left _ (List.mem_singleton_self _),
      .inl ⟨name,spec,error,rfl⟩⟩
  · dsimp only
    obtain ⟨added,s₂,hruns,hfines⟩ :=
      processEntries_failures hid hwork spec.maxAttempts entries [] s₁
    have hreserved := hfine fun _ he => by cases he
    rw [trace_bind_of_some hruns,Prog.run_bind_of_some _ hruns,List.nil_append,trace_ret,
      List.append_nil,Prog.run_ret]
    cases added with
    | nil =>
      refine .ok entries.length fun o ho => ?_
      rcases List.mem_append.mp ho with ho | ho
      · rw [List.mem_singleton.mp ho]
        exact hreserved
      · exact hfines.mp rfl o ho
    | cons error later =>
      obtain ⟨o,ho,hf⟩ : ∃ o ∈ trace handle (processEntries items (ports name) work
          spec.maxAttempts entries []) s₁, Failure o := by
        by_contra hnone
        exact absurd (hfines.mpr fun o ho hf => hnone ⟨o,ho,hf⟩) (List.cons_ne_nil _ _)
      exact .error _ ⟨o,List.mem_append_right _ ho,hf⟩

/-- A part whose error is passed on, and what follows it. -/
theorem Ends.bind {ε δ α β : Type} {p : Program app float (Except ε α)}
    {f : Except ε α → Program app float (Except δ β)} {s : σ}
    (hp : Ends (trace handle p s) (p.run handle s).1)
    (herror : ∀ e, ∃ e', f (.error e) = .ret (.error e'))
    (hok : ∀ a s', Ends (trace handle (f (.ok a)) s') ((f (.ok a)).run handle s').1) :
    Ends (trace handle (p >>= f) s) ((p >>= f).run handle s).1 := by
  rw [trace_bind,Prog.run_bind]
  rcases hrun : p.run handle s with ⟨_ | e | a,s'⟩ <;> rw [hrun] at hp
  · rw [List.append_nil]
    cases hp with
    | panicked hfine => exact .panicked hfine
  · obtain ⟨e',he'⟩ := herror e
    dsimp only
    rw [he',trace_ret,List.append_nil,Prog.run_ret]
    cases hp with
    | error _ hbad => exact .error e' hbad
  · dsimp only
    cases hp with
    | ok _ hfine =>
      have hlater := hok a s'
      generalize ((f (.ok a)).run handle s').1 = result at hlater ⊢
      cases hlater with
      | panicked hrest => exact .panicked (List.forall_mem_append.mpr ⟨hfine,hrest⟩)
      | ok b hrest => exact .ok b (List.forall_mem_append.mpr ⟨hfine,hrest⟩)
      | error e' hbad =>
        obtain ⟨o,ho,hf⟩ := hbad
        exact .error e' ⟨o,List.mem_append_right _ ho,hf⟩

/-- The command batch of a round. -/
theorem consumeCommands_ends (s : σ) : Ends (trace handle (consumeCommands float (ports .commands)
    commandDispatcher drainSpec : Program app float _) s) ((consumeCommands float (ports .commands)
    commandDispatcher drainSpec : Program app float _).run handle s).1 := by
  let items : Items (QueueName.commands.queue float) := commandItems float
  let work : (QueueName.commands.queue float).Envelope → Program app float _ :=
    Consumers.dispatchCommand commandDispatcher
  have hid : ∀ e, ∃ identity, items.identity e = .ok identity := fun _ => ⟨_,rfl⟩
  have hwork : ∀ e (s : σ), ∀ o ∈ trace handle (work e) s, NoPort o :=
    fun (e : CommandEnvelope) s => noPort_commandDispatcher (.ofEnvelope e) s
  exact consume_ends hid hwork drainSpec s

/-- The event batch of a round. -/
theorem consumeEvents_ends (s : σ) : Ends (trace handle (consumeEvents float (ports .events)
    eventDispatcher drainSpec : Program app float _) s) ((consumeEvents float (ports .events)
    eventDispatcher drainSpec : Program app float _).run handle s).1 := by
  let items : Items (QueueName.events.queue float) := eventItems float
  let work : (QueueName.events.queue float).Envelope → Program app float _ :=
    Consumers.dispatchEvent eventDispatcher
  have hid : ∀ e, ∃ identity, items.identity e = .ok identity := fun _ => ⟨_,rfl⟩
  have hwork : ∀ e (s : σ), ∀ o ∈ trace handle (work e) s, NoPort o :=
    fun (e : EventEnvelope) s => noPort_eventDispatcher (.ofEnvelope e) s
  exact consume_ends hid hwork drainSpec s

/-- The rounds. -/
theorem drain_ends (rounds : ℕ) (s : σ) :
    Ends (trace handle (drain app float rounds) s) ((drain app float rounds).run handle s).1 := by
  induction rounds generalizing s with
  | zero => exact .ok () fun o ho => by cases ho
  | succ rounds ih =>
    refine (consumeCommands_ends s).bind (fun e => ⟨_,rfl⟩) fun _ s₁ => ?_
    exact (consumeEvents_ends s₁).bind (fun e => ⟨_,rfl⟩) fun _ s₂ => ih s₂

/-- A recording calls no port. -/
theorem noPort_commandGateway (new : NewCommandEnvelope) (s : σ) :
    ∀ o ∈ trace handle (commandGateway.dispatch new : Program app float _) s, NoPort o := by
  unfold CommandGateway.dispatch commandGateway
  split
  · exact fun o ho => by cases ho
  · exact noPort_perform (by rintro _ _ ⟨⟩) s

/-- What the drain adds to the calls of the recording. -/
theorem dispatchCommand_ends {C : Type} {commands : ApplicationCommand C}
    {envelope : TypedCommandEnvelope C} {new : NewCommandEnvelope}
    (hnew : envelope.intoGatewayEnvelope commands = .ok new) {s s₁ : σ}
    (hrecorded : (commandGateway.dispatch new : Program app float _).run handle s =
      (some (.ok ()),s₁)) (drainRounds : ℕ) :
    Ends (trace handle (PersistentKernelState.dispatchCommand app float commands drainRounds
        envelope) s)
      ((PersistentKernelState.dispatchCommand app float commands drainRounds envelope).run handle
        s).1 := by
  have hrecording : Ends (trace handle (commandGateway.dispatch new : Program app float _) s)
      ((commandGateway.dispatch new : Program app float _).run handle s).1 := by
    rw [hrecorded]
    exact .ok () fun o ho => (noPort_commandGateway new s o ho).not_failure
  rw [PersistentKernelState.dispatchCommand,hnew]
  exact hrecording.bind (fun e => ⟨_,rfl⟩) fun _ s' => drain_ends drainRounds s'

end Failures

end Mulac.DispatchCommand
