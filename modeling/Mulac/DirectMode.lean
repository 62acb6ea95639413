import Mulac.OwnCommand

/-!
# Direct and persistent dispatch

The kernel of `start` executes a command and hands its events to their
subscribers while the caller waits; that of `start_persistent` records both and
drains its queues. They return `Ok` for the same commands, up to the texts that a
table cannot hold, and the first never touches a table.
-/

namespace Mulac.DirectMode

open Identifiers Postgres Envelopes PanicProgram CallTrace Dispatch TextFaults Pipeline
  CommandExecution KernelAssembly SerdeJson DispatchCommand KernelWorld KernelWork OwnCommand
  QueueDomain

section Kernel

variable (app : Application) (float : FloatReader)

/-- The event gateway of `start`. -/
def directEvents : EventGateway (SystemOp app float) SystemOp.Reply := .direct eventDispatcher

/-- The command dispatcher of `start`. -/
def directDispatcher (envelope : NewCommandEnvelope) :
    Program app float (Except CommandError Unit) :=
  CommandDispatcher.dispatch (CommandHandlerRegistry.execute app.handlers wrapHandler)
    (directEvents app float).dispatch envelope

/-- The command gateway of `start`. -/
def directCommands : CommandGateway (SystemOp app float) SystemOp.Reply :=
  .direct (directDispatcher app float)

/-- `AppState::dispatch_command`. -/
def AppState.dispatchCommand {C : Type} (commands : ApplicationCommand C)
    (envelope : TypedCommandEnvelope C) : Program app float (Except KernelError Unit) :=
  match envelope.intoGatewayEnvelope commands with
  | .error e => .ret (.error (.command (.conversion e)))
  | .ok envelope => do
    match ← (directCommands app float).dispatch envelope with
    | .error e => .ret (.error (.command e))
    | .ok () => .ret (.ok ())

end Kernel

section Works

variable {app : Application} {float : FloatReader} (answers : Answers app) (w : Surroundings float)

/-- An event is handed to its subscribers at once. -/
theorem run_directEvents_dispatch {event : NewEventEnvelope} {metadata : EventMetadata}
    (hm : event.metadata = some metadata) (s : Kernel float) : ∃ outcome s',
    ((directEvents app float).dispatch event).run (respond answers w) s = (outcome,s') ∧
      s'.tables = s.tables ∧ (outcome = some (.ok ()) ↔ EventHandled answers event) := by
  obtain ⟨outcome,s',hrun,htables,_,hok⟩ := run_eventDispatcher answers w event s
  rw [EventGateway.dispatch,hm,directEvents]
  rcases outcome with _ | result
  · exact ⟨none,s',Prog.run_bind_of_none _ hrun _,htables,
      iff_of_false (fun he => by cases he) fun hh => by cases hok.mpr hh⟩
  · refine ⟨_,s',Prog.run_bind_of_some _ hrun _,htables,?_⟩
    rw [Option.some.injEq,mapError_eq_ok,← Option.some.injEq]
    exact hok

/-- The loop over the events of a command returns `Ok` exactly if each of them is handled. -/
theorem run_dispatchEvents {events : List NewEventEnvelope}
    (hm : ∀ e ∈ events, ∃ metadata, e.metadata = some metadata) (s : Kernel float) :
    ∃ outcome s', (dispatchEvents (directEvents app float).dispatch events).run
      (respond answers w) s = (outcome,s') ∧ s'.tables = s.tables ∧
        (outcome = some (.ok ()) ↔ ∀ e ∈ events, EventHandled answers e) := by
  induction events generalizing s with
  | nil => exact ⟨_,s,rfl,rfl,iff_of_true rfl fun e he => by cases he⟩
  | cons event rest ih =>
    obtain ⟨metadata,hmeta⟩ := hm event List.mem_cons_self
    obtain ⟨first,s₁,hrun,htables,hfirst⟩ := run_directEvents_dispatch answers w hmeta s
    rw [List.forall_mem_cons,dispatchEvents,Prog.run_bind,hrun]
    rcases first with _ | e | _
    · exact ⟨none,s₁,rfl,htables,
        iff_of_false (fun he => by cases he) fun hall => by cases hfirst.mpr hall.1⟩
    · exact ⟨_,s₁,rfl,htables,
        iff_of_false (fun he => by cases he) fun hall => by cases hfirst.mpr hall.1⟩
    · obtain ⟨outcome,s₂,hruns,htables₂,hrest⟩ :=
        ih (fun e he => hm e (List.mem_cons_of_mem _ he)) s₁
      exact ⟨outcome,s₂,hruns,htables₂.trans htables,
        hrest.trans (and_iff_right (hfirst.mp rfl)).symm⟩

/-- Wrapping succeeds exactly if every event is fit. -/
theorem run_wrapEvents_fit (command : Option CommandMetadata) (events : List app.Event)
    (s : Kernel float) : ∃ result s',
    (wrapEvents app.events (nowV7 : Program app float Uuid) command events).run
      (respond answers w) s = (some result,s') ∧
        (result.isOk = true ↔ ∀ event ∈ events, ¬Unfit app.events event) := by
  induction events generalizing s with
  | nil => exact ⟨_,s,rfl,iff_of_true rfl fun event he => by cases he⟩
  | cons event rest ih =>
    rw [wrapEvents,List.forall_mem_cons]
    split
    · next hvalid =>
      cases hjson : app.events.toJson event with
      | error e =>
        exact ⟨_,s,rfl,iff_of_false (fun he => by cases he) fun hall => hall.1 (.inr ⟨e,hjson⟩)⟩
      | ok payload =>
        obtain ⟨result,s₂,hrest,hfit⟩ := ih s.tick
        have hid : (nowV7 : Program app float Uuid).run (respond answers w) s =
            (some (w.drawn s.calls),s.tick) := rfl
        have hevent : ¬Unfit app.events event := fit_iff.mpr ⟨hvalid,payload,hjson⟩
        dsimp only
        rw [Prog.run_bind_of_some _ hid,Prog.run_bind_of_some _ hrest,Prog.run_ret]
        refine ⟨_,s₂,rfl,?_⟩
        rw [and_iff_right hevent,← hfit]
        cases result <;> rfl
    · next hvalid =>
      exact ⟨_,s,rfl,iff_of_false (fun he => by cases he)
        fun hall => hvalid (fit_iff.mp hall.1).1⟩

/-- A command is accomplished: its handler answers, its events are fit, and every subscriber of
each of them answers `Ok`. -/
structure Accomplished (new : NewCommandEnvelope) : Prop where
  /-- The handler answers. -/
  executed : ∃ events, executed answers new = some (.ok events)
  /-- Its events can be wrapped. -/
  fit : ∀ event ∈ produced answers new, ¬Unfit app.events event
  /-- They are handled. -/
  handled : EventsHandled answers new

/-- The direct dispatcher accomplishes a command on the spot, without the tables. -/
theorem run_directDispatcher (new : NewCommandEnvelope) (s : Kernel float) : ∃ outcome s',
    (directDispatcher app float new).run (respond answers w) s = (outcome,s') ∧
      s'.tables = s.tables ∧ (outcome = some (.ok ()) ↔ Accomplished answers new) := by
  unfold directDispatcher CommandDispatcher.dispatch
  by_cases h : ∃ events, executed answers new = some (.ok events)
  · obtain ⟨events,h⟩ := h
    have hproduced : produced answers new = events := by rw [produced,h]
    obtain ⟨result,s₁,hwrap,htables,_,hcases⟩ :=
      run_wrapEvents answers w new.metadata events s.tick
    obtain ⟨result',_,hwrap',hfit⟩ := run_wrapEvents_fit answers w new.metadata events s.tick
    obtain rfl : result = result' := by
      rw [hwrap] at hwrap'
      exact Option.some.inj (Prod.ext_iff.mp hwrap').1
    rw [Prog.run_bind_of_some _ ((run_handler_of_ok answers w h s).trans hwrap)]
    rcases hcases with ⟨e,rfl,_⟩ | ⟨envelopes,rfl,hwrapped⟩
    · refine ⟨_,s₁,rfl,htables,iff_of_false (fun he => by cases he) fun hall => ?_⟩
      cases hfit.mpr (hproduced ▸ hall.fit)
    · have hmeta : ∀ e ∈ envelopes, ∃ metadata, e.metadata = some metadata := by
        intro e he
        obtain ⟨event,_,hw⟩ := forall₂_right hwrapped e he
        obtain ⟨eventId,hm⟩ := hw.metadata
        exact ⟨_,hm⟩
      obtain ⟨outcome,s₂,hruns,htables₂,hall⟩ := run_dispatchEvents answers w hmeta s₁
      refine ⟨outcome,s₂,hruns,htables₂.trans htables,hall.trans ⟨fun hhandled => ?_,?_⟩⟩
      · refine ⟨⟨events,h⟩,hproduced ▸ hfit.mp rfl,fun event hevent e he => ?_⟩
        obtain ⟨e',hmem,hw⟩ := forall₂_left hwrapped event (hproduced ▸ hevent)
        exact eventHandled_of_wrapped hw he (hhandled e' hmem)
      · intro hdone e he
        obtain ⟨event,hevent,hw⟩ := forall₂_right hwrapped e he
        exact hdone.handled event (hproduced.symm ▸ hevent) e hw
  · obtain ⟨outcome,s₁,hrun,htables,_,hne⟩ :=
      run_handler_of_not_ok answers w (fun events he => h ⟨events,he⟩) s
    have hnot : ¬Accomplished answers new := fun hdone => h hdone.executed
    rw [Prog.run_bind,hrun]
    rcases outcome with _ | e | envelopes
    · exact ⟨_,s₁,rfl,htables,iff_of_false (fun he => by cases he) hnot⟩
    · exact ⟨_,s₁,rfl,htables,iff_of_false (fun he => by cases he) hnot⟩
    · exact absurd rfl (hne envelopes)

variable {C : Type} {commands : ApplicationCommand C}

/-- A typed command passes the gateway under its own metadata. -/
theorem intoGatewayEnvelope_metadata {envelope : TypedCommandEnvelope C} {new : NewCommandEnvelope}
    (h : envelope.intoGatewayEnvelope commands = .ok new) :
    new.metadata = some envelope.metadata := by
  rw [TypedCommandEnvelope.intoGatewayEnvelope] at h
  cases hjson : commands.toJson envelope.command with
  | error e => rw [hjson] at h; cases h
  | ok payload => rw [hjson] at h; cases h; rfl

variable (commands) in
/-- `AppState::dispatch_command` returns `Ok` exactly for the commands that it accomplishes. -/
theorem run_appState_dispatchCommand (envelope : TypedCommandEnvelope C) (s : Kernel float) :
    ∃ outcome s', (AppState.dispatchCommand app float commands envelope).run (respond answers w) s =
      (outcome,s') ∧ s'.tables = s.tables ∧ (outcome = some (.ok ()) ↔
        ∃ new, envelope.intoGatewayEnvelope commands = .ok new ∧ Accomplished answers new) := by
  unfold AppState.dispatchCommand
  cases hnew : envelope.intoGatewayEnvelope commands with
  | error e =>
    refine ⟨_,s,rfl,rfl,iff_of_false (fun he => by cases he) ?_⟩
    rintro ⟨new,hn,_⟩
    cases hn
  | ok new =>
    obtain ⟨outcome,s₁,hrun,htables,hok⟩ := run_directDispatcher answers w new s
    have hdispatch : ((directCommands app float).dispatch new).run (respond answers w) s =
        (outcome,s₁) := by
      unfold CommandGateway.dispatch directCommands
      rw [intoGatewayEnvelope_metadata hnew]
      exact hrun
    have hiff : (∃ new', (Except.ok new : Except String NewCommandEnvelope) = .ok new' ∧
        Accomplished answers new') ↔ outcome = some (.ok ()) := by
      rw [hok]
      constructor
      · rintro ⟨new',hn,hdone⟩
        cases hn
        exact hdone
      · exact fun hdone => ⟨new,rfl,hdone⟩
    dsimp only
    rw [Prog.run_bind,hdispatch,hiff]
    rcases outcome with _ | e | _
    · exact ⟨none,s₁,rfl,htables,iff_of_false (fun he => by cases he) fun he => by cases he⟩
    · exact ⟨_,s₁,rfl,htables,iff_of_false (fun he => by cases he) fun he => by cases he⟩
    · exact ⟨_,s₁,rfl,htables,iff_of_true rfl rfl⟩

end Works

section Agreement

variable {app : Application} {float : FloatReader}

/-- The texts of a command and of its events that the tables must hold. -/
structure Storable (answers : Answers app) (new : NewCommandEnvelope) : Prop where
  /-- Those of the command. -/
  command : ∀ text ∈ commandTexts new, nulFree text = true
  /-- The types of its events. -/
  types : ∀ event ∈ produced answers new, nulFree (app.events.eventType event) = true
  /-- Their payloads. -/
  payloads : ∀ event ∈ produced answers new, ∀ payload, app.events.toJson event = .ok payload →
    nulFree payload = true

/-- What the queues accomplish is what can be accomplished at once and stored. -/
theorem handled_iff {answers : Answers app} {new : NewCommandEnvelope} :
    ((∀ text ∈ commandTexts new, nulFree text = true) ∧ Handled answers new) ↔
      Accomplished answers new ∧ Storable answers new := by
  constructor
  · rintro ⟨htexts,⟨hexecuted,hrec⟩,hevents⟩
    refine ⟨⟨hexecuted,fun event he => ?_,hevents⟩,⟨htexts,fun event he => ?_,?_⟩⟩
    · obtain ⟨hvalid,payload,hjson,_⟩ := hrec event he
      exact fit_iff.mpr ⟨hvalid,payload,hjson⟩
    · obtain ⟨_,_,_,_,htype⟩ := hrec event he
      exact htype
    · intro event he payload hjson
      obtain ⟨_,payload',hjson',hnul,_⟩ := hrec event he
      obtain rfl := Except.ok.inj (hjson.symm.trans hjson')
      exact hnul
  · rintro ⟨hdone,hstore⟩
    refine ⟨hstore.command,⟨hdone.executed,fun event he => ?_⟩,hdone.handled⟩
    obtain ⟨hvalid,payload,hjson⟩ := fit_iff.mp (hdone.fit event he)
    exact ⟨hvalid,payload,hjson,hstore.payloads event he payload hjson,hstore.types event he⟩

variable (app float) in
/-- How the two kernels answer the same command. -/
structure Agrees {C : Type} (commands : ApplicationCommand C)
    (envelope : TypedCommandEnvelope C) : Prop where
  /-- The persistent kernel returns `Ok` exactly if the direct one does and the tables can hold
  the texts; whatever else its queues hold, as long as nothing of others fails. -/
  outcome : ∀ (answers : Answers app) (w w' : Surroundings float) (s s' : Kernel float)
    (drainRounds : ℕ), drainRounds ≠ 0 → Newcomer envelope.metadata.commandId s' →
    Throughout (respond answers w') (Calm w' envelope.metadata.commandId)
      (PersistentKernelState.dispatchCommand app float commands drainRounds envelope) s' →
    (((PersistentKernelState.dispatchCommand app float commands drainRounds envelope).run
        (respond answers w') s').1 = some (.ok ()) ↔
      ((AppState.dispatchCommand app float commands envelope).run
        (respond answers w) s).1 = some (.ok ()) ∧
      ∀ new, envelope.intoGatewayEnvelope commands = .ok new → Storable answers new)
  /-- The direct kernel leaves the tables alone. -/
  tables : ∀ (answers : Answers app) (w : Surroundings float) (s : Kernel float),
    ((AppState.dispatchCommand app float commands envelope).run
      (respond answers w) s).2.tables = s.tables

/-- Direct and persistent dispatch agree. -/
theorem modes_agree {C : Type} (commands : ApplicationCommand C)
    (envelope : TypedCommandEnvelope C) : Agrees app float commands envelope where
  outcome := by
    intro answers w w' s s' drainRounds hrounds hnew hcalm
    obtain ⟨outcome,s₁,hrun,_,hok⟩ :=
      run_appState_dispatchCommand answers w commands envelope s
    rw [run_dispatchCommand hnew hcalm,hrun,hok,Succeeds]
    constructor
    · rintro ⟨new,hn,htexts,hhandled⟩
      obtain ⟨hdone,hstore⟩ := handled_iff.mp ⟨htexts,hhandled.resolve_left hrounds⟩
      refine ⟨⟨new,hn,hdone⟩,fun new' hn' => ?_⟩
      obtain rfl := Except.ok.inj (hn.symm.trans hn')
      exact hstore
    · rintro ⟨⟨new,hn,hdone⟩,hstore⟩
      obtain ⟨htexts,hhandled⟩ := handled_iff.mpr ⟨hdone,hstore new hn⟩
      exact ⟨new,hn,htexts,.inr hhandled⟩
  tables := by
    intro answers w s
    obtain ⟨_,_,hrun,htables,_⟩ :=
      run_appState_dispatchCommand answers w commands envelope s
    rw [hrun]
    exact htables

/-- A command that the queues accomplish is accomplished without them. -/
theorem modes_agree_rename :
    ((AppState.dispatchCommand contacts .integersOnly renames renameContact).run
      (respond accepting moment) idle).1 = some (.ok ()) := by
  have hcalm : Throughout (respond accepting moment)
      (fun op s => FewDue moment op s ∧ uneventful op = true) dispatchRename idle := by
    decide +kernel
  have hok : (dispatchRename.run (respond accepting moment) idle).1.map Except.isOk =
      some true := by decide +kernel
  exact (((modes_agree renames renameContact).outcome accepting moment moment idle idle 1
    (by decide) newcomer_idle (hcalm.imp fun _ _ => calm_of_uneventful)).mp
      ((result_cases hok).1 rfl)).1

end Agreement

end Mulac.DirectMode
