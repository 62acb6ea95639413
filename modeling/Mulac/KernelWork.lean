import Mulac.CommandExecution
import Mulac.KernelWorld

/-!
# The work on commands and events

What the dispatchers of a kernel do with one entry. The work on a command returns
`Ok` exactly if its handler answers and its events can be recorded, and adds
nothing but the rows of these events; the work on an event returns `Ok` exactly
if every subscriber does.
-/

namespace Mulac.KernelWork

open Identifiers Postgres SerdeJson QueueDomain KeyedTable Envelopes QueueRow Repository
  RepositoryContracts FourQueues PanicProgram CallTrace Dispatch Recording TextFaults Pipeline
  Handoffs HandoffRules CommandExecution DispatchCommand KernelWorld

section Works

variable {app : Application} {float : FloatReader} (answers : Answers app) (w : Surroundings float)
  {s s' s'' : Kernel float}

/-- What the handler of a command answers. -/
def executed (new : NewCommandEnvelope) : Option (Except CommandError (List app.Event)) :=
  match CommandHandlerRegistry.get app.handlers new.commandType with
  | none => some (.error (.handlerNotFound new.commandType))
  | some handler =>
    match app.fromStr handler new.payload with
    | .error e => some (.error (.conversion e))
    | .ok command => answers.execute handler command

/-- The events that it produces. -/
def produced (new : NewCommandEnvelope) : List app.Event :=
  match executed answers new with
  | some (.ok events) => events
  | _ => []

/-- An event that the wrapper accepts and the event table can store. -/
def Recordable (event : app.Event) : Prop :=
  validSequence (app.events.sequence event) = true ∧
    ∃ payload, app.events.toJson event = .ok payload ∧ nulFree payload = true ∧
      nulFree (app.events.eventType event) = true

/-- A command that is handled: its handler answers, and its events can be recorded. -/
def CommandHandled (new : NewCommandEnvelope) : Prop :=
  (∃ events, executed answers new = some (.ok events)) ∧
    ∀ event ∈ produced answers new, Recordable event

/-- An event that is handled: every subscriber of its type answers `Ok`. -/
def EventHandled (event : NewEventEnvelope) : Prop :=
  ∀ subscriber ∈ EventSubscriberRegistry.get app.subscribers event.eventType,
    answers.handle subscriber event = some (.ok ())

variable {answers w}

variable (answers w) in
/-- The wrapper draws an id for each event, up to the first that it does not accept. -/
theorem run_wrapEvents (command : Option CommandMetadata) (events : List app.Event)
    (s : Kernel float) : ∃ result s',
    (wrapEvents app.events (nowV7 : Program app float Uuid) command events).run
      (respond answers w) s = (some result,s') ∧ s'.tables = s.tables ∧ s.calls ≤ s'.calls ∧
      ((∃ e, result = .error e ∧ ∃ event ∈ events, ¬Recordable event) ∨
        ∃ envelopes, result = .ok envelopes ∧
          List.Forall₂ (Wrapped app.events command) events envelopes) := by
  induction events generalizing s with
  | nil => exact ⟨_,s,rfl,rfl,le_refl _,.inr ⟨[],rfl,.nil⟩⟩
  | cons event rest ih =>
    rw [wrapEvents]
    split
    · next hvalid =>
      cases hj : app.events.toJson event with
      | error e =>
        refine ⟨_,s,rfl,rfl,le_refl _,.inl ⟨_,rfl,event,List.mem_cons_self,?_⟩⟩
        rintro ⟨-,payload,hpayload,-⟩
        rw [hj] at hpayload
        cases hpayload
      | ok payload =>
        obtain ⟨result,s₂,hrest,htables,hcalls,hcases⟩ := ih s.tick
        have hid : (nowV7 : Program app float Uuid).run (respond answers w) s =
            (some (w.drawn s.calls),s.tick) := rfl
        dsimp only
        rw [Prog.run_bind_of_some _ hid,Prog.run_bind_of_some _ hrest,Prog.run_ret]
        refine ⟨_,s₂,rfl,htables,(Nat.le_succ _).trans hcalls,?_⟩
        rcases hcases with ⟨e,rfl,bad,hbad,hnot⟩ | ⟨envelopes,rfl,hwrapped⟩
        · exact .inl ⟨e,rfl,bad,List.mem_cons_of_mem _ hbad,hnot⟩
        · exact .inr ⟨_,rfl,.cons (wrapped_eventMetadata command hj (w.drawn s.calls)) hwrapped⟩
    · next hvalid =>
      refine ⟨_,s,rfl,rfl,le_refl _,.inl ⟨_,rfl,event,List.mem_cons_self,?_⟩⟩
      exact fun hrec => hvalid hrec.1

/-- A row that every reservation of the drain takes from now on. -/
structure Ready {name : QueueName} (w : Surroundings float) (calls : ℕ)
    (r : Row (name.queue float).Own) : Prop where
  /-- It is due. -/
  due : ∀ j, calls ≤ j → eligible drainSpec (w.now j) r = true
  /-- It is well formed. -/
  decodes : RepositoryContracts.decodes r = true

theorem Ready.later {name : QueueName} {calls calls' : ℕ} {r : Row (name.queue float).Own}
    (h : Ready w calls r) (hle : calls ≤ calls') : Ready w calls' r :=
  ⟨fun j hj => h.due j (hle.trans hj),h.decodes⟩

/-- A row that was just stored is such a row. -/
theorem ready_storedRow {name : QueueName} {n : NewRow (name.queue float).Own} {metadata : Jsonb}
    {i : ℕ} (hn : n.scheduledAt = w.appNow i)
    (hm : ((name.queue float).readMetadata (some metadata)).isOk = true) :
    Ready w (i+1) (storedRow n metadata) where
  due := by
    intro j hj
    have hle : n.scheduledAt ≤ w.now j := hn.trans_le (w.clocks i j hj)
    have hattempts : (0 : ℤ) < drainSpec.maxAttempts := by decide
    simp [eligible,storedRow,hle,hattempts]
  decodes := by
    rw [RepositoryContracts.decodes,storedRow]
    exact Bool.and_eq_true_iff.mpr ⟨rfl,hm⟩

/-- What recordings of events add: rows of these events. -/
structure Adds (events : List NewEventEnvelope) (s s' : Kernel float) : Prop where
  /-- Time goes on. -/
  calls : s.calls ≤ s'.calls
  /-- The other tables stay. -/
  others : ∀ name ≠ .events, s'.tables name = s.tables name
  /-- So do the rows. -/
  kept : ∀ k r, (s.tables .events).find? k = some r → (s'.tables .events).find? k = some r
  /-- What is new is one of the events. -/
  added : ∀ k c, s.content .events k = none → s'.content .events k = some c →
    ∃ e ∈ events, eventOf c = some e

/-- The event table can take an event. -/
def Accepted (event : NewEventEnvelope) : Prop :=
  accepted .events event = true ∧ ∀ text ∈ eventTexts event, nulFree text = true

/-- The row of an event shows the event. -/
theorem eventOf_stored {event : NewEventEnvelope} {appNow now : Timestamp} {n : NewRow String}
    {metadata : Jsonb} (hn : newEventEntry event appNow now = .ok n)
    (hm : metadata.value = n.metadata) :
    eventOf (contentOf .events (storedRow n metadata : Row (QueueName.events.queue float).Own)) =
      some event := by
  obtain ⟨m,he,_,hc,hr⟩ := event_row float hn hm
  obtain ⟨eventType,payload,_⟩ := event
  cases he
  rw [hc,eventOf,hr]

/-- The table takes an event exactly if its texts can be stored and its sequence is valid. -/
theorem record_event_iff (t : Rows (QueueName.events.queue float)) (event : NewEventEnvelope)
    (appNow now : Timestamp) : (record t event appNow now).1 = .ok () ↔ Accepted event := by
  cases ha : accepted .events event with
  | false =>
    obtain ⟨e,he⟩ := record_of_not_accepted ha t appNow now
    have he' : record t event appNow now = (.error e,t) := he
    rw [he']
    refine iff_of_false (fun h => by cases h) fun h => ?_
    rw [h.1] at ha
    cases ha
  | true =>
    obtain ⟨n,_,hn,_⟩ := newRow_of_accepted float ha appNow now
    have hok : ((QueueName.events.queue float).newRow event appNow now).isOk = true := by
      have hn' : (QueueName.events.queue float).newRow event appNow now = .ok n := hn
      rw [hn']
      rfl
    refine (record_iff .events float t hok).trans ?_
    exact ⟨fun h => ⟨ha,h⟩,fun h => h.2⟩

theorem newEventEntry_scheduledAt {event : NewEventEnvelope} {appNow now : Timestamp}
    {n : NewRow String} (hn : newEventEntry event appNow now = .ok n) : n.scheduledAt = appNow := by
  unfold newEventEntry at hn
  split at hn
  · cases hn
  · split at hn
    · cases hn
      rfl
    · cases hn

/-- A renamed error is still an error. -/
theorem mapError_eq_ok {ε δ α : Type} {x : Except ε α} {f : ε → δ} {a : α} :
    x.mapError f = .ok a ↔ x = .ok a := by
  cases x <;> simp [Except.mapError]

/-- Nothing is added to a kernel whose event rows stay. -/
theorem adds_of_rows {l : List NewEventEnvelope} (hcalls : s.calls ≤ s'.calls)
    (hothers : ∀ name ≠ .events, s'.tables name = s.tables name)
    (hrows : ∀ k, (s'.tables .events).find? k = (s.tables .events).find? k) : Adds l s s' where
  calls := hcalls
  others := hothers
  kept := fun k r hf => (hrows k).trans hf
  added := by
    intro k c hnone hsome
    rw [content_congr (hrows k),hnone] at hsome
    cases hsome

/-- A recording adds the row of its event, or nothing. -/
theorem adds_record (s : Kernel float) (event : NewEventEnvelope) (appNow now : Timestamp) :
    Adds [event] s (s.write .events (record (s.tables .events :
      Rows (QueueName.events.queue float)) event appNow now).2) := by
  let entry : (QueueName.events.queue float).NewEntry := event
  let t : Rows (QueueName.events.queue float) := s.tables .events
  have hothers : ∀ t', ∀ name ≠ QueueName.events,
      (s.write .events t').tables name = s.tables name :=
    fun t' name hne => tables_write_of_ne s hne t'
  rcases record_cases t entry appNow now with ⟨n,j,hn,hj,he⟩ | ⟨e,he⟩ <;> rw [he]
  · refine ⟨Nat.le_succ _,hothers _,fun k r hf => ?_,fun k c hnone hsome => ?_⟩
    · rw [tables_write,Table.find?_insertNew]
      have hf' : t.find? k = some r := hf
      rw [hf']
    · have hnone' : t.find? k = none := row_of_no_content hnone
      rw [Kernel.content,tables_write,Table.find?_insertNew,hnone'] at hsome
      dsimp only at hsome
      split at hsome
      · cases hsome
        exact ⟨event,List.mem_singleton_self _,eventOf_stored hn hj⟩
      · cases hsome
  · exact adds_of_rows (Nat.le_succ _) (hothers _) fun k => by rw [tables_write]

/-- A recorded event that is not there yet waits in its row. -/
theorem waits_record {event : NewEventEnvelope} {metadata : EventMetadata}
    (hm : event.metadata = some metadata) {t : Rows (QueueName.events.queue float)} {i : ℕ}
    (hok : (record t event (w.appNow i) (w.now i)).1 = .ok ())
    (hnone : t.find? metadata.eventId = none) :
    ∃ r, (record t event (w.appNow i) (w.now i)).2.find? metadata.eventId = some r ∧
      Ready w (i+1) r ∧ eventOf (contentOf .events r) = some event := by
  rcases record_cases t event (w.appNow i) (w.now i) with ⟨n,j,hn,hj,he⟩ | ⟨e,he⟩
  · obtain ⟨m,hm',hid,_,hread⟩ := event_row float hn hj
    obtain rfl : metadata = m := Option.some.inj (hm.symm.trans hm')
    have hread' : ((QueueName.events.queue float).readMetadata (some j)).isOk = true := by
      have hsome : (QueueName.events.queue float).readMetadata (some j) = .ok (some metadata) :=
        hread
      rw [hsome]
      rfl
    rw [he]
    refine ⟨storedRow n j,?_,ready_storedRow (newEventEntry_scheduledAt hn) hread',
      eventOf_stored hn hj⟩
    rw [Table.find?_insertNew,hnone]
    exact if_pos hid
  · rw [he] at hok
    cases hok

variable (answers w) in
/-- One recording. -/
theorem run_eventGateway {event : NewEventEnvelope} {metadata : EventMetadata}
    (hm : event.metadata = some metadata) (s : Kernel float) : ∃ result s',
    (EventGateway.dispatch (eventGateway : EventGateway (SystemOp app float) SystemOp.Reply)
      event).run (respond answers w) s = (some result,s') ∧ Adds [event] s s' ∧
      (result = .ok () ↔ Accepted event) ∧
      (result = .ok () → s.content .events metadata.eventId = none →
        ∃ r, (s'.tables .events).find? metadata.eventId = some r ∧ Ready w s'.calls r ∧
          eventOf (contentOf .events r) = some event) := by
  let entry : (QueueName.events.queue float).NewEntry := event
  let t : Rows (QueueName.events.queue float) := s.tables .events
  have hrun : (EventGateway.dispatch (eventGateway : EventGateway (SystemOp app float)
      SystemOp.Reply) event).run (respond answers w) s =
      (some ((record t entry (w.appNow s.calls) (w.now s.calls)).1.mapError
        fun e : EventError => .eventDispatch e.display),
        s.write .events (record t entry (w.appNow s.calls) (w.now s.calls)).2) := by
    rw [EventGateway.dispatch,hm]
    rfl
  refine ⟨_,_,hrun,adds_record s event (w.appNow s.calls) (w.now s.calls),?_,fun hok hnone => ?_⟩
  · rw [← record_event_iff t event (w.appNow s.calls) (w.now s.calls)]
    exact mapError_eq_ok
  · obtain ⟨r,hr,hready,hshown⟩ :=
      waits_record hm (mapError_eq_ok.mp hok) (row_of_no_content hnone)
    rw [tables_write]
    exact ⟨r,hr,hready,hshown⟩

theorem Adds.refl (s : Kernel float) : Adds [] s s :=
  adds_of_rows (le_refl _) (fun _ _ => rfl) fun _ => rfl

theorem Adds.weaken {l l' : List NewEventEnvelope} (h : Adds l s s') (hl : l ⊆ l') :
    Adds l' s s' where
  calls := h.calls
  others := h.others
  kept := h.kept
  added := by
    intro k c hnone hsome
    obtain ⟨e,he,hshown⟩ := h.added k c hnone hsome
    exact ⟨e,hl he,hshown⟩

/-- Recordings after another add what each of them adds. -/
theorem Adds.trans {l l' : List NewEventEnvelope} (h : Adds l s s') (h' : Adds l' s' s'') :
    Adds (l++l') s s'' where
  calls := h.calls.trans h'.calls
  others := fun name hne => (h'.others name hne).trans (h.others name hne)
  kept := fun k r hf => h'.kept k r (h.kept k r hf)
  added := by
    intro k c hnone hsome
    cases hmid : s'.content .events k with
    | none =>
      obtain ⟨e,he,hshown⟩ := h'.added k c hmid hsome
      exact ⟨e,List.mem_append_right _ he,hshown⟩
    | some c' =>
      obtain ⟨r,hr,hrc⟩ := row_of_content hmid
      rw [content_of_row (h'.kept k r hr),hrc] at hsome
      obtain rfl := Option.some.inj hsome
      obtain ⟨e,he,hshown⟩ := h.added k c' hnone hmid
      exact ⟨e,List.mem_append_left _ he,hshown⟩

/-- No event is recorded under an id that another event has. -/
def NewIds (op : SystemOp app float) (s : Kernel float) : Prop :=
  ∀ (event : NewEventEnvelope) metadata, op = .record .events event →
    event.metadata = some metadata → s.content .events metadata.eventId = none

/-- A recording meets a table without the id. -/
theorem newId_of_dispatch {event : NewEventEnvelope} {metadata : EventMetadata}
    (hm : event.metadata = some metadata)
    (h : Throughout (respond answers w) NewIds (EventGateway.dispatch
      (eventGateway : EventGateway (SystemOp app float) SystemOp.Reply) event) s) :
    s.content .events metadata.eventId = none := by
  rw [EventGateway.dispatch,hm] at h
  exact throughout_perform.mp (throughout_bind.mp h).1 event metadata rfl hm

variable (answers w) in
/-- The loop over the events of a command. -/
theorem run_dispatchEvents {events : List NewEventEnvelope}
    (hm : ∀ e ∈ events, ∃ metadata, e.metadata = some metadata) (s : Kernel float) :
    ∃ result s', (dispatchEvents (EventGateway.dispatch
      (eventGateway : EventGateway (SystemOp app float) SystemOp.Reply)) events).run
        (respond answers w) s = (some result,s') ∧ Adds events s s' ∧
      (result = .ok () ↔ ∀ e ∈ events, Accepted e) ∧
      (result = .ok () → Throughout (respond answers w) NewIds (dispatchEvents
        (EventGateway.dispatch (eventGateway : EventGateway (SystemOp app float) SystemOp.Reply))
          events) s → ∀ e ∈ events, ∃ k r, (s'.tables .events).find? k = some r ∧
            Ready w s'.calls r ∧ eventOf (contentOf .events r) = some e) := by
  induction events generalizing s with
  | nil =>
    refine ⟨_,s,rfl,Adds.refl s,iff_of_true rfl ?_,fun _ _ => ?_⟩ <;>
      exact fun e he => by cases he
  | cons event rest ih =>
    obtain ⟨metadata,hmeta⟩ := hm event List.mem_cons_self
    obtain ⟨first,s₁,hrun,hadds,haccepted,hrow⟩ := run_eventGateway answers w hmeta s
    rw [dispatchEvents,Prog.run_bind_of_some _ hrun]
    cases first with
    | error e =>
      refine ⟨_,s₁,rfl,hadds.weaken (List.cons_subset_cons _ (List.nil_subset _)),
        iff_of_false (fun he => by cases he) fun hall => ?_,fun he => by cases he⟩
      cases haccepted.mpr (hall event List.mem_cons_self)
    | ok u =>
      obtain ⟨result,s₂,hruns,hadds',haccepted',hrows⟩ :=
        ih (fun e he => hm e (List.mem_cons_of_mem _ he)) s₁
      refine ⟨result,s₂,hruns,hadds.trans hadds',?_,?_⟩
      · rw [List.forall_mem_cons,haccepted']
        exact (and_iff_right (haccepted.mp rfl)).symm
      · intro hok hids e he
        obtain ⟨hid,hids⟩ := throughout_bind.mp hids
        rcases List.mem_cons.mp he with rfl | he
        · obtain ⟨r,hr,hready,hshown⟩ := hrow rfl (newId_of_dispatch hmeta hid)
          exact ⟨_,r,hadds'.kept _ r hr,hready.later hadds'.calls,hshown⟩
        · exact hrows hok (hids _ _ hrun) e he

/-- An event is recordable exactly if its envelope is accepted. -/
theorem accepted_iff {command : Option CommandMetadata} {event : app.Event} {e : NewEventEnvelope}
    (h : Wrapped app.events command event e) : Accepted e ↔ Recordable event := by
  obtain ⟨htype,hpayload,eventId,hm⟩ := h
  obtain ⟨eventType,payload,metadata⟩ := e
  obtain rfl : eventType = _ := htype
  obtain rfl : metadata = _ := hm
  have hp : app.events.toJson event = .ok payload := hpayload
  have htexts : eventTexts ⟨app.events.eventType event,payload,some ⟨app.events.sequence event,
      eventId,command.map fun m => m.correlationId.getD m.commandId,
      command.map CommandMetadata.commandId,none⟩⟩ = [payload,app.events.eventType event] := rfl
  rw [Accepted,htexts,Recordable,hp]
  simp [accepted]

theorem forall₂_right {A B : Type} {R : A → B → Prop} {l : List A} {l' : List B}
    (h : List.Forall₂ R l l') : ∀ b ∈ l', ∃ a ∈ l, R a b := by
  induction h with
  | nil => exact fun b hb => by cases hb
  | cons hab _ ih =>
    intro b hb
    rcases List.mem_cons.mp hb with rfl | hb
    · exact ⟨_,List.mem_cons_self,hab⟩
    · obtain ⟨a,ha,hr⟩ := ih b hb
      exact ⟨a,List.mem_cons_of_mem _ ha,hr⟩

theorem forall₂_left {A B : Type} {R : A → B → Prop} {l : List A} {l' : List B}
    (h : List.Forall₂ R l l') : ∀ a ∈ l, ∃ b ∈ l', R a b := forall₂_right h.flip

variable (answers w) in
/-- A registered handler that answers has its events wrapped. -/
theorem run_handler_of_ok {new : NewCommandEnvelope} {events : List app.Event}
    (h : executed answers new = some (.ok events)) (s : Kernel float) :
    (CommandHandlerRegistry.execute app.handlers
      (wrapHandler : app.Handler → NewCommandEnvelope → Program app float _) new).run
        (respond answers w) s =
      (wrapEvents app.events (nowV7 : Program app float Uuid) new.metadata events).run
        (respond answers w) s.tick := by
  rw [executed] at h
  rw [CommandHandlerRegistry.execute]
  split at h
  · cases h
  · next handler hget =>
    rw [hget]
    split at h
    · cases h
    · next command hcommand =>
      have hcall : (Prog.perform (SystemOp.execute handler command) :
          Program app float (Except CommandError (List app.Event))).run (respond answers w) s =
            (some (.ok events),s.tick) := by
        refine (Prog.run_perform _ _ _).trans ?_
        rw [respond,h]
        rfl
      dsimp only
      unfold wrapHandler HandlerWrapper.execute
      rw [hcommand]
      exact Prog.run_bind_of_some _ hcall _

variable (answers w) in
/-- Otherwise nothing is dispatched. -/
theorem run_handler_of_not_ok {new : NewCommandEnvelope}
    (h : ∀ events, executed answers new ≠ some (.ok events)) (s : Kernel float) : ∃ outcome s',
    (CommandHandlerRegistry.execute app.handlers
      (wrapHandler : app.Handler → NewCommandEnvelope → Program app float _) new).run
        (respond answers w) s = (outcome,s') ∧ s'.tables = s.tables ∧ s.calls ≤ s'.calls ∧
      ∀ envelopes, outcome ≠ some (.ok envelopes) := by
  rw [CommandHandlerRegistry.execute]
  cases hget : CommandHandlerRegistry.get app.handlers new.commandType with
  | none => exact ⟨_,s,rfl,rfl,le_refl _,fun _ he => by cases he⟩
  | some handler =>
    dsimp only
    unfold wrapHandler HandlerWrapper.execute
    cases hcommand : app.fromStr handler new.payload with
    | error e => exact ⟨_,s,rfl,rfl,le_refl _,fun _ he => by cases he⟩
    | ok command =>
      have hcall : (Prog.perform (SystemOp.execute handler command) :
          Program app float (Except CommandError (List app.Event))).run (respond answers w) s =
            (answers.execute handler command,s.tick) := Prog.run_perform _ _ _
      have hexecuted : executed answers new = answers.execute handler command := by
        rw [executed,hget]
        dsimp only
        rw [hcommand]
      dsimp only
      rw [hexecuted] at h
      rcases hanswer : answers.execute handler command with _ | e | events <;> rw [hanswer] at hcall
      · exact ⟨none,s.tick,Prog.run_bind_of_none _ hcall _,rfl,Nat.le_succ _,
          fun _ he => by cases he⟩
      · exact ⟨some (.error e),s.tick,Prog.run_bind_of_some _ hcall _,rfl,Nat.le_succ _,
          fun _ he => by cases he⟩
      · exact absurd hanswer (h events)

/-- What the execution of a command leaves: new rows of its events. -/
structure Executes (answers : Answers app) (new : NewCommandEnvelope)
    (s s' : Kernel float) : Prop where
  /-- Time goes on. -/
  calls : s.calls ≤ s'.calls
  /-- The other tables stay. -/
  others : ∀ name ≠ .events, s'.tables name = s.tables name
  /-- So do the rows. -/
  kept : ∀ k r, (s.tables .events).find? k = some r → (s'.tables .events).find? k = some r
  /-- What is new is an event of the command. -/
  added : ∀ k c, s.content .events k = none → s'.content .events k = some c →
    ∃ e, eventOf c = some e ∧ ∃ event ∈ produced answers new,
      Wrapped app.events new.metadata event e

/-- A command that was not executed leaves everything. -/
theorem executes_of_tables {new : NewCommandEnvelope} (htables : s'.tables = s.tables)
    (hcalls : s.calls ≤ s'.calls) : Executes answers new s s' where
  calls := hcalls
  others := fun name _ => by rw [htables]
  kept := fun k r hf => by rw [htables]; exact hf
  added := by
    intro k c hnone hsome
    rw [Kernel.content,htables] at hsome
    rw [Kernel.content,hsome] at hnone
    cases hnone

/-- The recording of what a command produced, wrapped, is its execution. -/
theorem Executes.of_adds {new : NewCommandEnvelope} {envelopes : List NewEventEnvelope}
    (htables : s'.tables = s.tables) (hcalls : s.calls ≤ s'.calls) (h : Adds envelopes s' s'')
    (hwrapped : List.Forall₂ (Wrapped app.events new.metadata) (produced answers new) envelopes) :
    Executes answers new s s'' where
  calls := hcalls.trans h.calls
  others := by
    intro name hne
    rw [h.others name hne,htables]
  kept := by
    intro k r hf
    refine h.kept k r ?_
    rw [htables]
    exact hf
  added := by
    intro k c hnone hsome
    have hnone' : s'.content .events k = none :=
      (content_congr (by rw [htables])).trans hnone
    obtain ⟨e,he,hshown⟩ := h.added k c hnone' hsome
    obtain ⟨event,hevent,hw⟩ := forall₂_right hwrapped e he
    exact ⟨e,hshown,event,hevent,hw⟩

/-- A command whose handler answers is handled exactly if all envelopes are accepted. -/
theorem commandHandled_iff {new : NewCommandEnvelope} {events : List app.Event}
    {envelopes : List NewEventEnvelope} (h : executed answers new = some (.ok events))
    (hwrapped : List.Forall₂ (Wrapped app.events new.metadata) (produced answers new) envelopes) :
    CommandHandled answers new ↔ ∀ e ∈ envelopes, Accepted e := by
  refine ⟨fun hhandled e he => ?_,fun hall => ⟨⟨events,h⟩,fun event hevent => ?_⟩⟩
  · obtain ⟨event,hevent,hw⟩ := forall₂_right hwrapped e he
    exact (accepted_iff hw).mpr (hhandled.2 event hevent)
  · obtain ⟨e,he,hw⟩ := forall₂_left hwrapped event hevent
    exact (accepted_iff hw).mp (hall e he)

/-- The row of an event of a command waits for its subscribers. -/
def Waits (w : Surroundings float) (new : NewCommandEnvelope) (s : Kernel float)
    (event : app.Event) : Prop :=
  ∃ k r, (s.tables .events).find? k = some r ∧ Ready w s.calls r ∧
    ∃ e, eventOf (contentOf .events r) = some e ∧ Wrapped app.events new.metadata event e

/-- It goes on waiting as long as its row stays. -/
theorem Waits.kept {new : NewCommandEnvelope} {event : app.Event} (h : Waits w new s event)
    (hcalls : s.calls ≤ s'.calls)
    (hkept : ∀ k r, (s.tables .events).find? k = some r → (s'.tables .events).find? k = some r) :
    Waits w new s' event := by
  obtain ⟨key,r,hr,hready,hshown⟩ := h
  exact ⟨key,r,hkept key r hr,hready.later hcalls,hshown⟩

variable (answers w) in
/-- The work on a command. -/
theorem run_commandDispatcher (new : NewCommandEnvelope) (s : Kernel float) : ∃ outcome s',
    (commandDispatcher new : Program app float _).run (respond answers w) s = (outcome,s') ∧
      Executes answers new s s' ∧ (outcome = some (.ok ()) ↔ CommandHandled answers new) ∧
      (outcome = some (.ok ()) → Throughout (respond answers w) NewIds
        (commandDispatcher new : Program app float _) s →
          ∀ event ∈ produced answers new, Waits w new s' event) := by
  rw [commandDispatcher,CommandDispatcher.dispatch]
  by_cases h : ∃ events, executed answers new = some (.ok events)
  · obtain ⟨events,h⟩ := h
    have hproduced : produced answers new = events := by rw [produced,h]
    obtain ⟨result,s₁,hwrap,htables,hcalls,hcases⟩ :=
      run_wrapEvents answers w new.metadata events s.tick
    have hhandler := (run_handler_of_ok answers w h s).trans hwrap
    rw [Prog.run_bind_of_some _ hhandler]
    have hcalls₁ : s.calls ≤ s₁.calls := (Nat.le_succ _).trans hcalls
    rcases hcases with ⟨e,rfl,event,hevent,hnot⟩ | ⟨envelopes,rfl,hwrapped⟩
    · refine ⟨_,s₁,rfl,executes_of_tables htables hcalls₁,iff_of_false (fun he => by cases he) ?_,
        fun he => by cases he⟩
      exact fun hhandled => hnot (hhandled.2 event (hproduced.symm ▸ hevent))
    · dsimp only
      have hmeta : ∀ e ∈ envelopes, ∃ metadata, e.metadata = some metadata := by
        intro e he
        obtain ⟨event,_,hw⟩ := forall₂_right hwrapped e he
        obtain ⟨eventId,hm⟩ := hw.metadata
        exact ⟨_,hm⟩
      obtain ⟨result,s₂,hruns,hadds,haccepted,hrows⟩ := run_dispatchEvents answers w hmeta s₁
      rw [← hproduced] at hwrapped
      rw [hruns]
      refine ⟨_,s₂,rfl,.of_adds htables hcalls₁ hadds hwrapped,?_,?_⟩
      · rw [commandHandled_iff h hwrapped,← haccepted,Option.some.injEq]
      · intro hok hids event hevent
        obtain ⟨e,he,hw⟩ := forall₂_left hwrapped event hevent
        obtain ⟨k,r,hr,hready,hshown⟩ := hrows (Option.some.inj hok)
          ((throughout_bind.mp hids).2 _ _ hhandler) e he
        exact ⟨k,r,hr,hready,e,hshown,hw⟩
  · obtain ⟨outcome,s₁,hrun,htables,hcalls,hne⟩ :=
      run_handler_of_not_ok answers w (fun events he => h ⟨events,he⟩) s
    have hexecutes : Executes answers new s s₁ := executes_of_tables htables hcalls
    have hnot : ¬CommandHandled answers new := fun hhandled => h hhandled.1
    rw [Prog.run_bind,hrun]
    rcases outcome with _ | e | envelopes
    · exact ⟨_,s₁,rfl,hexecutes,iff_of_false (fun he => by cases he) hnot,fun he => by cases he⟩
    · exact ⟨_,s₁,rfl,hexecutes,iff_of_false (fun he => by cases he) hnot,fun he => by cases he⟩
    · exact absurd rfl (hne envelopes)

variable (answers w) in
/-- The work on an event. -/
theorem run_eventDispatcher (event : NewEventEnvelope) (s : Kernel float) : ∃ outcome s',
    (eventDispatcher event : Program app float _).run (respond answers w) s = (outcome,s') ∧
      s'.tables = s.tables ∧ s.calls ≤ s'.calls ∧
      (outcome = some (.ok ()) ↔ EventHandled answers event) := by
  unfold eventDispatcher EventDispatcher.dispatch EventSubscriberRegistry.handle EventHandled
  generalize EventSubscriberRegistry.get app.subscribers event.eventType = subscribers
  induction subscribers generalizing s with
  | nil => exact ⟨_,s,rfl,rfl,le_refl _,iff_of_true rfl fun _ hs => by cases hs⟩
  | cons subscriber rest ih =>
    have hcall : (Prog.perform (SystemOp.handle subscriber event) :
        Program app float (Except EventError Unit)).run (respond answers w) s =
          (answers.handle subscriber event,s.tick) := Prog.run_perform _ _ _
    rw [List.forall_mem_cons]
    rcases hanswer : answers.handle subscriber event with _ | e | _ <;> rw [hanswer] at hcall
    · exact ⟨none,s.tick,Prog.run_bind_of_none _ hcall _,rfl,Nat.le_succ _,
        iff_of_false (fun he => by cases he) fun hall => by cases hall.1⟩
    · exact ⟨some (.error e),s.tick,Prog.run_bind_of_some _ hcall _,rfl,Nat.le_succ _,
        iff_of_false (fun he => by cases he) fun hall => by cases hall.1⟩
    · obtain ⟨outcome,s',hrun,htables,hcalls,hall⟩ := ih s.tick
      exact ⟨outcome,s',(Prog.run_bind_of_some _ hcall _).trans hrun,htables,
        (Nat.le_succ _).trans hcalls,hall.trans (and_iff_right rfl).symm⟩

end Works

end Mulac.KernelWork
