import Mulac.KernelWork

/-!
# The outcome of one's own command

As long as no other item fails and a batch holds all that is due,
`dispatch_command` returns `Ok` exactly if the command itself and its events are
handled, whatever else is queued. What others queued comes in only through their
failures, and these are reported to whoever drains the queue.
-/

namespace Mulac.OwnCommand

open Identifiers Postgres QueueDomain KeyedTable OrderedSelection Envelopes QueueRow Repository
  RepositoryContracts FourQueues QueueCalls PanicProgram CallTrace Consumers Dispatch RowLifetimes
  Draining Recording TextFaults Pipeline Handoffs HandoffRules CommandExecution KernelAssembly
  SerdeJson DispatchCommand KernelWorld KernelWork

section Assumptions

variable {app : Application} {float : FloatReader}

/-- The event of a row was caused by a command. -/
def CausedBy (k : Uuid) (c : Content) : Prop := causeOf .events c = some k

/-- A row of a command, or of an event that it caused. -/
def Own (k : Uuid) (s : Kernel float) : QueueName → Uuid → Prop
  | .commands,id => id = k
  | .events,id => ∃ c, s.content .events id = some c ∧ CausedBy k c
  | .inbox,_ => False
  | .outbox,_ => False

/-- A reservation of the drain meets no more due rows than it may take. -/
def FewDue (w : Surroundings float) (op : SystemOp app float) (s : Kernel float) : Prop :=
  ∀ name spec, op = .port name (.reserve spec) →
    (due spec (w.now s.calls) (s.tables name)).length ≤ 64

/-- No handling of another's item fails. -/
def OthersSucceed (k : Uuid) (op : SystemOp app float) (s : Kernel float) : Prop :=
  ∀ name id token maxAttempts reason, op = .port name (.failed id token maxAttempts reason) →
    Own k s name id

/-- What is assumed of the calls of a run. -/
structure Calm (w : Surroundings float) (k : Uuid) (op : SystemOp app float) (s : Kernel float) :
    Prop where
  /-- A batch holds all that is due. -/
  few : FewDue w op s
  /-- Nothing of others fails. -/
  others : OthersSucceed k op s
  /-- Drawn ids are new. -/
  ids : NewIds op s

/-- No row of the kernel is of a command, and none refers to it. -/
structure Newcomer (k : Uuid) (s : Kernel float) : Prop where
  /-- The command is not recorded. -/
  unrecorded : s.content .commands k = none
  /-- The metadata of no other row is that of the command. -/
  unnamed : ∀ id c other, s.content .commands id = some c → commandOf c = some other →
    other.metadata.map CommandMetadata.commandId ≠ some k
  /-- No event is caused by it. -/
  uncaused : ∀ id c, s.content .events id = some c → ¬CausedBy k c

end Assumptions

section Soundness

variable {app : Application} {float : FloatReader} {answers : Answers app} {w : Surroundings float}
  {new : NewCommandEnvelope} {k : Uuid} {s s' : Kernel float}

theorem causeOf_of_eventOf {c : Content} {event : NewEventEnvelope} (h : eventOf c = some event) :
    causeOf .events c = event.metadata.bind EventMetadata.causationId := by
  rw [eventOf] at h
  split at h
  · next eventType metadata htype hm =>
    cases h
    rw [causeOf,hm]
    cases metadata <;> rfl
  · cases h

/-- An event carries the id of its command as its cause. -/
theorem cause_of_wrapped {command : Option CommandMetadata} {event : app.Event}
    {e : NewEventEnvelope} (h : Wrapped app.events command event e) :
    e.metadata.bind EventMetadata.causationId = command.map CommandMetadata.commandId := by
  obtain ⟨eventId,hm⟩ := h.metadata
  rw [hm]
  rfl

/-- What holds of the tables while the kernel works: the row of the command shows the command, no
other row refers to it, and what it caused is what its handler produced. -/
structure Sound (answers : Answers app) (new : NewCommandEnvelope) (k : Uuid)
    (s : Kernel float) : Prop where
  /-- The row of the command. -/
  own : ∀ c, s.content .commands k = some c → commandOf c = some new
  /-- The other commands. -/
  others : ∀ id c other, id ≠ k → s.content .commands id = some c → commandOf c = some other →
    other.metadata.map CommandMetadata.commandId ≠ some k
  /-- Its events. -/
  caused : ∀ id c, s.content .events id = some c → CausedBy k c →
    ∃ e, eventOf c = some e ∧ ∃ event ∈ produced answers new,
      Wrapped app.events new.metadata event e

/-- A step that keeps what the rows hold. -/
theorem Sound.of_content (h : Sound answers new k s)
    (hcontent : ∀ name id, s'.content name id = s.content name id) :
    Sound answers new k s' where
  own := fun c hc => h.own c ((hcontent _ _).symm.trans hc)
  others := fun id c other hne hc => h.others id c other hne ((hcontent _ _).symm.trans hc)
  caused := fun id c hc => h.caused id c ((hcontent _ _).symm.trans hc)

/-- The work on a command, be it this one or another. -/
theorem Sound.executes {other : NewCommandEnvelope} (h : Sound answers new k s)
    (hex : Executes answers other s s')
    (hother : other = new ∨ other.metadata.map CommandMetadata.commandId ≠ some k) :
    Sound answers new k s' := by
  have hcommands : ∀ id, s'.content .commands id = s.content .commands id :=
    fun id => content_congr (by rw [hex.others .commands (by decide)])
  have hkept : ∀ id c, s.content .events id = some c → s'.content .events id = some c := by
    intro id c hc
    obtain ⟨r,hr,rfl⟩ := row_of_content hc
    exact content_of_row (hex.kept id r hr)
  refine ⟨fun c hc => h.own c ((hcommands k).symm.trans hc),
    fun id c o hne hc => h.others id c o hne ((hcommands id).symm.trans hc),?_⟩
  intro id c hc hcause
  cases hb : s.content .events id with
  | some c' =>
    rw [hkept id c' hb] at hc
    obtain rfl := Option.some.inj hc
    exact h.caused id c' hb hcause
  | none =>
    obtain ⟨e,hshown,event,hevent,hw⟩ := hex.added id c hb hc
    rcases hother with rfl | hne
    · exact ⟨e,hshown,event,hevent,hw⟩
    · rw [CausedBy,causeOf_of_eventOf hshown,cause_of_wrapped hw] at hcause
      exact absurd hcause hne

/-- No row loses what it holds. -/
def Retains (s s' : Kernel float) : Prop :=
  ∀ name id c, s.content name id = some c → s'.content name id = some c

theorem Retains.refl (s : Kernel float) : Retains s s := fun _ _ _ h => h

theorem Retains.trans {s s' s'' : Kernel float} (h : Retains s s') (h' : Retains s' s'') :
    Retains s s'' := fun name id c hc => h' name id c (h name id c hc)

/-- A call changes nothing that a row holds. -/
theorem respond_retains (op : SystemOp app float) (s : Kernel float) :
    Retains s (respond answers w op s).2 := by
  intro name id c hc
  obtain ⟨r,hr,rfl⟩ := row_of_content hc
  have hwrite : ∀ (name' : QueueName) (call : Call (name'.queue float)),
      (s.write name' (step (s.tables name') call)).content name id = some (contentOf name r) := by
    intro name' call
    by_cases hne : name = name'
    · subst hne
      obtain ⟨r',hr',hmove⟩ := row_move call hr
      rw [Kernel.content,tables_write,hr']
      exact congrArg some (RowMove.content hmove)
    · rw [Kernel.content,tables_write_of_ne s hne,hr]
      rfl
  cases op with
  | record name' entry => exact hwrite name' (.record entry (w.appNow s.calls) (w.now s.calls))
  | port name' port =>
    cases port with
    | reserve spec => exact hwrite name' (.reserve spec (w.draw name' s.calls))
    | completed key token => exact hwrite name' (.finalize .completed key token (w.now s.calls))
    | failed key token maxAttempts reason =>
      exact hwrite name' (.finalize (.failed maxAttempts reason) key token (w.now s.calls))
  | nowV7 => exact hc
  | execute handler command => exact hc
  | handle subscriber envelope => exact hc
  | publish message => exact hc

variable {name : QueueName} {items : Items (name.queue float)}
  {work : (name.queue float).Envelope → Program app float (Except (name.queue float).Error Unit)}

/-- The work on an entry is part of its turn. -/
theorem throughout_work {e : (name.queue float).Envelope} {identity : Uuid × Uuid}
    (hid : items.identity e = .ok identity) {maxAttempts : ℤ}
    {errors : List (name.queue float).Error} {P : SystemOp app float → Kernel float → Prop}
    (h : Throughout (respond answers w) P
      (processEntry items (ports name) work maxAttempts e errors) s) :
    Throughout (respond answers w) P (work e) s := by
  rw [processEntry,hid] at h
  exact throughout_catchUnwind.mp (throughout_bind.mp (throughout_bind.mp h).1).1

/-- If no other item fails, an item that adds an error is one's own. -/
theorem own_of_failed {e : (name.queue float).Envelope} {identity : Uuid × Uuid}
    (hid : items.identity e = .ok identity)
    (hwork : ∀ s, ∀ o ∈ trace (respond answers w) (work e) s, NoPort o) {maxAttempts : ℤ}
    {errors added : List (name.queue float).Error}
    (hcalm : Throughout (respond answers w) (OthersSucceed k)
      (processEntry items (ports name) work maxAttempts e errors) s)
    (hrun : (processEntry items (ports name) work maxAttempts e errors).run (respond answers w) s =
      (some (errors++added),s')) (hne : added ≠ []) {c : Content}
    (hc : s.content name identity.1 = some c) : Own k s name identity.1 := by
  obtain ⟨_,added',s'',hrun',hcases⟩ := processEntry_failures hid hwork maxAttempts errors s
  rw [hrun] at hrun'
  have hsame : added = added' := List.append_cancel_left (Option.some.inj (congrArg Prod.fst hrun'))
  rcases hcases with ⟨hnil,_⟩ | ⟨_,reason,reply,ho⟩
  · exact absurd (hsame.trans hnil) hne
  · obtain ⟨met,hretains,hown⟩ : ∃ met, Retains s met ∧ OthersSucceed k _ met :=
      hcalm.met (Q:=fun _ => True) Retains.refl Retains.trans (fun op s _ => respond_retains op s)
        (fun _ _ => trivial) _ ho
    have hmet := hown name identity.1 identity.2 maxAttempts reason rfl
    cases name with
    | commands => exact hmet
    | events =>
      obtain ⟨c',hc',hcause⟩ := hmet
      rw [hretains .events identity.1 c hc] at hc'
      obtain rfl := Option.some.inj hc'
      exact ⟨c,hc,hcause⟩
    | inbox => exact hmet
    | outbox => exact hmet

/-- A batch returns `Ok` unless an entry added an error. -/
theorem run_consume {spec : ReservableSpec} {entries : List (name.queue float).Envelope}
    {added : List (name.queue float).Error} {s₁ s₂ : Kernel float}
    (hreserve : ((ports name : Ports (name.queue float) (SystemOp app float)
      SystemOp.Reply).reserve spec).run (respond answers w) s = (some (.ok entries),s₁))
    (hentries : (processEntries items (ports name) work spec.maxAttempts entries []).run
      (respond answers w) s₁ = (some added,s₂)) :
    (consume items (ports name) work spec).run (respond answers w) s =
      (some (if added.isEmpty then .ok entries.length else .error added),s₂) :=
  (Prog.run_bind_of_some _ hreserve _).trans (Prog.run_bind_of_some _ hentries _)

/-- If it returned `Ok`, none did. -/
theorem eq_nil_of_ok {ε : Type} {added : List ε} {m n : ℕ}
    (h : (if added.isEmpty then .ok m else .error added : Except (List ε) ℕ) = .ok n) :
    added = [] := by
  cases added with
  | nil => rfl
  | cons error rest => cases h

end Soundness

section Batches

variable {app : Application} {float : FloatReader} {answers : Answers app} {w : Surroundings float}
  {new : NewCommandEnvelope} {k : Uuid} {s s' : Kernel float}

/-- The turn of a command. -/
def commandEntry (app : Application) (float : FloatReader) (e : CommandEnvelope)
    (errors : List CommandError) : Program app float (List CommandError) :=
  processEntry (commandItems float) (ports .commands)
    (Consumers.dispatchCommand commandDispatcher) drainSpec.maxAttempts e errors

/-- The turn of an event. -/
def eventEntry (app : Application) (float : FloatReader) (e : EventEnvelope)
    (errors : List EventError) : Program app float (List EventError) :=
  processEntry (eventItems float) (ports .events) (Consumers.dispatchEvent eventDispatcher)
    drainSpec.maxAttempts e errors

/-- The loop over a batch of commands. -/
def commandEntries (app : Application) (float : FloatReader) (entries : List CommandEnvelope)
    (errors : List CommandError) : Program app float (List CommandError) :=
  processEntries (commandItems float) (ports .commands)
    (Consumers.dispatchCommand commandDispatcher) drainSpec.maxAttempts entries errors

/-- The loop over a batch of events. -/
def eventEntries (app : Application) (float : FloatReader) (entries : List EventEnvelope)
    (errors : List EventError) : Program app float (List EventError) :=
  processEntries (eventItems float) (ports .events) (Consumers.dispatchEvent eventDispatcher)
    drainSpec.maxAttempts entries errors

/-- Entries of a batch of commands: reserved, and as their rows show them. -/
structure CommandBatch (s : Kernel float) (entries : List CommandEnvelope) : Prop where
  /-- No two are of one row. -/
  nodup : (entries.map CommandEnvelope.id).Nodup
  /-- They are reserved. -/
  held : ∀ e ∈ entries, Holds (s.tables .commands) e.id e.reservationId
  /-- Their rows show them. -/
  shown : ∀ e ∈ entries, ∃ c, s.content .commands e.id = some c ∧
    commandOf c = some (.ofEnvelope e)

/-- Entries of a batch of events. -/
structure EventBatch (s : Kernel float) (entries : List EventEnvelope) : Prop where
  /-- No two are of one row. -/
  nodup : (entries.map EventEnvelope.id).Nodup
  /-- They are reserved. -/
  held : ∀ e ∈ entries, Holds (s.tables .events) e.id e.reservationId
  /-- Their rows show them. -/
  shown : ∀ e ∈ entries, ∃ c, s.content .events e.id = some c ∧ eventOf c = some (.ofEnvelope e)

theorem commandOf_of_reads {c : Content} {e : CommandEnvelope}
    (h : Reads float .commands c e) : commandOf c = some (.ofEnvelope e) := by
  obtain ⟨htype,hpayload,hmeta⟩ := h
  rw [commandOf,htype,hmeta,hpayload]
  rfl

theorem eventOf_of_reads {c : Content} {e : EventEnvelope}
    (h : Reads float .events c e) : eventOf c = some (.ofEnvelope e) := by
  obtain ⟨htype,hpayload,hmeta⟩ := h
  rw [eventOf,htype,hmeta,hpayload]
  rfl

/-- What a reservation hands out is such a batch. -/
theorem CommandBatch.of_reserves {entries : List CommandEnvelope}
    (h : Reserves .commands s entries s') : CommandBatch s' entries where
  nodup := h.nodup
  held := by
    intro e he
    obtain ⟨token,htoken,hheld⟩ := h.held e he
    obtain rfl : e.reservationId = token := Option.some.inj htoken
    exact hheld
  shown := by
    intro e he
    obtain ⟨c,hc,hreads⟩ := h.reads e he
    exact ⟨c,(h.content _ _).trans hc,commandOf_of_reads hreads⟩

theorem EventBatch.of_reserves {entries : List EventEnvelope}
    (h : Reserves .events s entries s') : EventBatch s' entries where
  nodup := h.nodup
  held := by
    intro e he
    obtain ⟨token,htoken,hheld⟩ := h.held e he
    obtain rfl : e.reservationId = token := Option.some.inj htoken
    exact hheld
  shown := by
    intro e he
    obtain ⟨c,hc,hreads⟩ := h.reads e he
    exact ⟨c,(h.content _ _).trans hc,eventOf_of_reads hreads⟩

/-- The turn of an entry leaves the reservations of those after it. -/
theorem holds_tail {E : Type} {id token : E → Uuid} {e : E} {rest : List E} {name : QueueName}
    {t t' : Rows (name.queue float)} (hout : id e ∉ rest.map id)
    (hheld : ∀ e' ∈ e::rest, Holds t (id e') (token e'))
    (hrows : ∀ k ≠ id e, t'.find? k = t.find? k) : ∀ e' ∈ rest, Holds t' (id e') (token e') := by
  intro e' he'
  have hne : id e' ≠ id e := fun heq => hout (heq ▸ List.mem_map_of_mem he')
  obtain ⟨r,hr,hholds⟩ := hheld e' (List.mem_cons_of_mem _ he')
  exact ⟨r,(hrows _ hne).trans hr,hholds⟩

/-- The turn of an entry leaves the batch of those after it. -/
theorem CommandBatch.tail {e : CommandEnvelope} {rest : List CommandEnvelope}
    (h : CommandBatch s (e::rest))
    (hrows : ∀ id ≠ e.id, (s'.tables .commands).find? id = (s.tables .commands).find? id)
    (hcontent : ∀ id, s'.content .commands id = s.content .commands id) :
    CommandBatch s' rest where
  nodup := (List.nodup_cons.mp h.nodup).2
  held := holds_tail (List.nodup_cons.mp h.nodup).1 h.held hrows
  shown := by
    intro e' he'
    obtain ⟨c,hc,hshown⟩ := h.shown e' (List.mem_cons_of_mem _ he')
    exact ⟨c,(hcontent _).trans hc,hshown⟩

theorem EventBatch.tail {e : EventEnvelope} {rest : List EventEnvelope}
    (h : EventBatch s (e::rest))
    (hrows : ∀ id ≠ e.id, (s'.tables .events).find? id = (s.tables .events).find? id)
    (hcontent : ∀ id, s'.content .events id = s.content .events id) : EventBatch s' rest where
  nodup := (List.nodup_cons.mp h.nodup).2
  held := holds_tail (List.nodup_cons.mp h.nodup).1 h.held hrows
  shown := by
    intro e' he'
    obtain ⟨c,hc,hshown⟩ := h.shown e' (List.mem_cons_of_mem _ he')
    exact ⟨c,(hcontent _).trans hc,hshown⟩

/-- The turn of a command in a batch in which no other fails: it adds an error only if it is one's
own and not handled, and what that produced waits afterwards. -/
theorem run_commandEntry {e : CommandEnvelope} {rest : List CommandEnvelope}
    {errors : List CommandError} (hsound : Sound answers new k s)
    (hbatch : CommandBatch s (e::rest))
    (hcalm : Throughout (respond answers w) (Calm w k) (commandEntry app float e errors) s) :
    ∃ added s', (commandEntry app float e errors).run (respond answers w) s =
        (some (errors++added),s') ∧ Sound answers new k s' ∧ CommandBatch s' rest ∧
      (added = [] ↔ (k = e.id → CommandHandled answers new)) ∧
      (∀ event : app.Event, Waits w new s event → Waits w new s' event) ∧
      (added = [] → k = e.id → ∀ event ∈ produced answers new, Waits w new s' event) := by
  let items : Items (QueueName.commands.queue float) := commandItems float
  let work : (QueueName.commands.queue float).Envelope → Program app float _ :=
    Consumers.dispatchCommand commandDispatcher
  obtain ⟨c,hc,hshown⟩ := hbatch.shown e List.mem_cons_self
  obtain ⟨outcome,s₁,hw,hex,houtcome,hwaits⟩ :=
    run_commandDispatcher answers w (NewCommandEnvelope.ofEnvelope e) s
  have hcommands : s₁.tables .commands = s.tables .commands := hex.others .commands (by decide)
  have hid : items.identity e = .ok (e.id,e.reservationId) := rfl
  have hworkRun : (work e).run (respond answers w) s = (outcome,s₁) := hw
  obtain ⟨(added : List CommandError),s₂,hrun,hsettles,hadded⟩ :=
    run_processEntry hid drainSpec.maxAttempts errors hworkRun
  have hheld : Holds (s₁.tables .commands) e.id e.reservationId := by
    rw [hcommands]
    exact hbatch.held e List.mem_cons_self
  have hworked : added = [] ↔ outcome = some (.ok ()) := hadded.trans (and_iff_left hheld)
  have hnew : e.id = k → NewCommandEnvelope.ofEnvelope e = new := fun hown =>
    Option.some.inj (hshown.symm.trans (hsound.own c (hown ▸ hc)))
  have hother : NewCommandEnvelope.ofEnvelope e = new ∨
      (NewCommandEnvelope.ofEnvelope e).metadata.map CommandMetadata.commandId ≠ some k := by
    by_cases hown : e.id = k
    · exact .inl (hnew hown)
    · exact .inr (hsound.others e.id c _ hown hc hshown)
  have hids : Throughout (respond answers w) NewIds
      (commandDispatcher (.ofEnvelope e) : Program app float _) s :=
    (throughout_work hid hcalm).imp fun _ _ h => h.ids
  have hkept : ∀ key r, (s₁.tables .events).find? key = some r →
      (s₂.tables .events).find? key = some r := by
    intro key r hf
    rw [hsettles.others .events (by decide)]
    exact hf
  refine ⟨added,s₂,hrun,(hsound.executes hex hother).of_content hsettles.content,?_,?_,?_,?_⟩
  · exact hbatch.tail (fun id hne => by rw [hsettles.rows id hne,hcommands])
      fun id => (hsettles.content _ id).trans (content_congr (by rw [hcommands]))
  · -- only one's own entry can fail
    by_cases hown : e.id = k
    · rw [hnew hown] at houtcome
      exact (hworked.trans houtcome).trans ⟨fun h _ => h,fun h => h hown.symm⟩
    · refine iff_of_true ?_ fun h => absurd h.symm hown
      by_contra hne
      exact hown (own_of_failed hid (fun s => noPort_commandDispatcher (.ofEnvelope e) s)
        (hcalm.imp fun _ _ h => h.others) hrun hne hc)
  · intro event h
    exact h.kept (hex.calls.trans hsettles.calls) fun key r hf => hkept key r (hex.kept key r hf)
  · intro hnil hown event hevent
    rw [hnew hown.symm] at hwaits
    exact (hwaits (hworked.mp hnil) (hnew hown.symm ▸ hids) event hevent).kept hsettles.calls hkept

/-- A batch of commands in which no other command fails: its errors are those of one's own, and
what that produced waits afterwards. -/
theorem run_commandEntries {entries : List CommandEnvelope} {errors : List CommandError}
    (hsound : Sound answers new k s) (hbatch : CommandBatch s entries)
    (hcalm : Throughout (respond answers w) (Calm w k) (commandEntries app float entries errors)
      s) :
    ∃ added s', (commandEntries app float entries errors).run (respond answers w) s =
        (some (errors++added),s') ∧ Sound answers new k s' ∧
      (added = [] ↔ k ∈ entries.map CommandEnvelope.id → CommandHandled answers new) ∧
      (∀ event : app.Event, Waits w new s event → Waits w new s' event) ∧
      (added = [] → k ∈ entries.map CommandEnvelope.id →
        ∀ event ∈ produced answers new, Waits w new s' event) := by
  induction entries generalizing errors s with
  | nil =>
    refine ⟨[],s,by rw [List.append_nil]; rfl,hsound,iff_of_true rfl ?_,fun _ h => h,
      fun _ => ?_⟩ <;>
      exact fun h => by cases h
  | cons e rest ih =>
    obtain ⟨hcalmEntry,hcalmRest⟩ := throughout_bind.mp hcalm
    obtain ⟨added,s₁,hrun,hsound₁,hbatch₁,hadded,hkept,hproduced⟩ :=
      run_commandEntry hsound hbatch hcalmEntry
    obtain ⟨later,s₂,hruns,hsound₂,hlater,hkept₂,hproduced₂⟩ :=
      ih hsound₁ hbatch₁ (hcalmRest _ _ hrun)
    refine ⟨added++later,s₂,?_,hsound₂,?_,fun event h => hkept₂ event (hkept event h),?_⟩
    · rw [← List.append_assoc]
      exact (Prog.run_bind_of_some _ hrun _).trans hruns
    · rw [List.append_eq_nil_iff,hadded,hlater,List.map_cons,List.mem_cons,or_imp]
    · intro hnil hmem event hevent
      obtain ⟨hadded',hlater'⟩ := List.append_eq_nil_iff.mp hnil
      rcases List.mem_cons.mp hmem with hown | hmem
      · exact hkept₂ event (hproduced hadded' hown event hevent)
      · exact hproduced₂ hlater' hmem event hevent

/-- The event of an entry was caused by a command. -/
def CausedEntry (k : Uuid) (e : EventEnvelope) : Prop :=
  (NewEventEnvelope.ofEnvelope e).metadata.bind EventMetadata.causationId = some k

/-- The turn of an event in a batch in which no other fails. -/
theorem run_eventEntry {e : EventEnvelope} {rest : List EventEnvelope} {errors : List EventError}
    (hsound : Sound answers new k s) (hbatch : EventBatch s (e::rest))
    (hcalm : Throughout (respond answers w) (Calm w k) (eventEntry app float e errors) s) :
    ∃ added s', (eventEntry app float e errors).run (respond answers w) s =
        (some (errors++added),s') ∧ Sound answers new k s' ∧ EventBatch s' rest ∧
      (added = [] ↔ (CausedEntry k e →
        EventHandled answers (NewEventEnvelope.ofEnvelope e))) := by
  let items : Items (QueueName.events.queue float) := eventItems float
  let work : (QueueName.events.queue float).Envelope → Program app float _ :=
    Consumers.dispatchEvent eventDispatcher
  obtain ⟨c,hc,hshown⟩ := hbatch.shown e List.mem_cons_self
  obtain ⟨outcome,s₁,hw,htables,_,houtcome⟩ :=
    run_eventDispatcher answers w (NewEventEnvelope.ofEnvelope e) s
  have hid : items.identity e = .ok (e.id,e.reservationId) := rfl
  have hworkRun : (work e).run (respond answers w) s = (outcome,s₁) := hw
  obtain ⟨(added : List EventError),s₂,hrun,hsettles,hadded⟩ :=
    run_processEntry hid drainSpec.maxAttempts errors hworkRun
  have hheld : Holds (s₁.tables .events) e.id e.reservationId := by
    rw [htables]
    exact hbatch.held e List.mem_cons_self
  have hworked : added = [] ↔ outcome = some (.ok ()) := hadded.trans (and_iff_left hheld)
  have hsame : ∀ name id, s₂.content name id = s.content name id :=
    fun name id => (hsettles.content name id).trans (content_congr (by rw [htables]))
  refine ⟨added,s₂,hrun,hsound.of_content hsame,?_,?_⟩
  · exact hbatch.tail (fun id hne => by rw [hsettles.rows id hne,htables]) (hsame .events)
  · -- only one's own entry can fail
    by_cases hown : CausedEntry k e
    · exact (hworked.trans houtcome).trans ⟨fun h _ => h,fun h => h hown⟩
    · refine iff_of_true ?_ fun h => absurd h hown
      by_contra hne
      obtain ⟨c',hc',hcause⟩ := own_of_failed hid
        (fun s => noPort_eventDispatcher (.ofEnvelope e) s)
        (hcalm.imp fun _ _ h => h.others) hrun hne hc
      obtain rfl : c = c' := Option.some.inj (hc.symm.trans hc')
      exact hown ((causeOf_of_eventOf hshown).symm.trans hcause)

/-- A batch of events in which no other event fails: its errors are those of one's own. -/
theorem run_eventEntries {entries : List EventEnvelope} {errors : List EventError}
    (hsound : Sound answers new k s) (hbatch : EventBatch s entries)
    (hcalm : Throughout (respond answers w) (Calm w k) (eventEntries app float entries errors)
      s) :
    ∃ added s', (eventEntries app float entries errors).run (respond answers w) s =
        (some (errors++added),s') ∧ Sound answers new k s' ∧
      (added = [] ↔ ∀ e ∈ entries, CausedEntry k e →
        EventHandled answers (NewEventEnvelope.ofEnvelope e)) := by
  induction entries generalizing errors s with
  | nil =>
    refine ⟨[],s,by rw [List.append_nil]; rfl,hsound,iff_of_true rfl ?_⟩
    exact fun e he => by cases he
  | cons e rest ih =>
    obtain ⟨hcalmEntry,hcalmRest⟩ := throughout_bind.mp hcalm
    obtain ⟨added,s₁,hrun,hsound₁,hbatch₁,hadded⟩ := run_eventEntry hsound hbatch hcalmEntry
    obtain ⟨later,s₂,hruns,hsound₂,hlater⟩ := ih hsound₁ hbatch₁ (hcalmRest _ _ hrun)
    refine ⟨added++later,s₂,?_,hsound₂,?_⟩
    · rw [← List.append_assoc]
      exact (Prog.run_bind_of_some _ hrun _).trans hruns
    · rw [List.append_eq_nil_iff,hadded,hlater,List.forall_mem_cons]

/-- The command batch of a round: if one's own command is handled it returns `Ok`, and if the
command waits for the batch, not otherwise. -/
theorem run_consumeCommands (hsound : Sound answers new k s)
    (hcalm : Throughout (respond answers w) (Calm w k) (consumeCommands float (ports .commands)
      commandDispatcher drainSpec : Program app float _) s) :
    ∃ result s', (consumeCommands float (ports .commands) commandDispatcher drainSpec :
        Program app float _).run (respond answers w) s = (some result,s') ∧
      Sound answers new k s' ∧ (CommandHandled answers new → ∃ n, result = .ok n) ∧
      (∀ r, (s.tables .commands).find? k = some r → Ready w s.calls r → ∀ n, result = .ok n →
        CommandHandled answers new ∧ ∀ event ∈ produced answers new, Waits w new s' event) := by
  obtain ⟨hfirst,hrest⟩ := throughout_bind.mp hcalm
  have hfew := (throughout_perform.mp hfirst).few .commands drainSpec rfl
  obtain ⟨(entries : List CommandEnvelope),s₁,hrun,hreserves,hready⟩ :=
    run_reserve answers w .commands s hfew
  have hbatch : CommandBatch s₁ entries := .of_reserves hreserves
  have hcalm₁ : Throughout (respond answers w) (Calm w k) (commandEntries app float entries [])
      s₁ :=
    (throughout_bind.mp (hrest _ _ hrun)).1
  obtain ⟨added,s₂,hruns,hsound₂,hadded,_,hproduced⟩ :=
    run_commandEntries (hsound.of_content hreserves.content) hbatch hcalm₁
  have hresult : (consumeCommands float (ports .commands) commandDispatcher drainSpec :
      Program app float _).run (respond answers w) s =
        (some (if added.isEmpty then .ok entries.length else .error added),s₂) :=
    run_consume hrun hruns
  refine ⟨_,s₂,hresult,hsound₂,fun hhandled => ?_,fun r hr hrready n hn => ?_⟩
  · rw [hadded.mpr fun _ => hhandled]
    exact ⟨_,rfl⟩
  · have hnil : added = [] := eq_nil_of_ok hn
    obtain ⟨e,he,hid⟩ := hready k r hr (hrready.due _ (le_refl _)) hrready.decodes
    have hmem : k ∈ entries.map CommandEnvelope.id := List.mem_map.mpr ⟨e,he,hid⟩
    exact ⟨hadded.mp hnil hmem,hproduced hnil hmem⟩

/-- The events of a command are handled, under whatever ids. -/
def EventsHandled (answers : Answers app) (new : NewCommandEnvelope) : Prop :=
  ∀ event ∈ produced answers new, ∀ e, Wrapped app.events new.metadata event e →
    EventHandled answers e

/-- The subscribers answer alike to all envelopes of an event. -/
theorem eventHandled_of_wrapped {command : Option CommandMetadata} {event : app.Event}
    {e e' : NewEventEnvelope} (h : Wrapped app.events command event e)
    (h' : Wrapped app.events command event e') (he : EventHandled answers e) :
    EventHandled answers e' := by
  obtain ⟨htype,hpayload,eventId,hm⟩ := h
  obtain ⟨htype',hpayload',eventId',hm'⟩ := h'
  obtain ⟨eventType,payload,metadata⟩ := e
  obtain ⟨eventType',payload',metadata'⟩ := e'
  obtain rfl : eventType = _ := htype
  obtain rfl : eventType' = _ := htype'
  obtain rfl : payload = payload' := Except.ok.inj (hpayload.symm.trans hpayload')
  obtain rfl : metadata = _ := hm
  obtain rfl : metadata' = _ := hm'
  intro subscriber hs
  exact (answers.handle_eventId subscriber _ _ _ eventId').trans (he subscriber hs)

/-- The event batch of a round: if the events of one's own command are handled it returns `Ok`,
and if they wait for the batch, not otherwise. -/
theorem run_consumeEvents (hk : new.metadata.map CommandMetadata.commandId = some k)
    (hsound : Sound answers new k s)
    (hcalm : Throughout (respond answers w) (Calm w k) (consumeEvents float (ports .events)
      eventDispatcher drainSpec : Program app float _) s) :
    ∃ result s', (consumeEvents float (ports .events) eventDispatcher drainSpec :
        Program app float _).run (respond answers w) s = (some result,s') ∧
      Sound answers new k s' ∧ (EventsHandled answers new → ∃ n, result = .ok n) ∧
      ((∀ event ∈ produced answers new, Waits w new s event) → ∀ n, result = .ok n →
        EventsHandled answers new) := by
  obtain ⟨hfirst,hrest⟩ := throughout_bind.mp hcalm
  have hfew := (throughout_perform.mp hfirst).few .events drainSpec rfl
  obtain ⟨(entries : List EventEnvelope),s₁,hrun,hreserves,hready⟩ :=
    run_reserve answers w .events s hfew
  have hbatch : EventBatch s₁ entries := .of_reserves hreserves
  have hcalm₁ : Throughout (respond answers w) (Calm w k) (eventEntries app float entries []) s₁ :=
    (throughout_bind.mp (hrest _ _ hrun)).1
  have hsound₁ : Sound answers new k s₁ :=
    hsound.of_content hreserves.content
  obtain ⟨added,s₂,hruns,hsound₂,hadded⟩ := run_eventEntries hsound₁ hbatch hcalm₁
  have hresult : (consumeEvents float (ports .events) eventDispatcher drainSpec :
      Program app float _).run (respond answers w) s =
        (some (if added.isEmpty then .ok entries.length else .error added),s₂) :=
    run_consume hrun hruns
  refine ⟨_,s₂,hresult,hsound₂,fun hhandled => ?_,fun hwaits n hn event hevent e' hw' => ?_⟩
  · rw [hadded.mpr ?_]
    · exact ⟨_,rfl⟩
    · intro e he hcaused
      obtain ⟨c,hc,hshown⟩ := hbatch.shown e he
      obtain ⟨e',hshown',event,hevent,hw⟩ := hsound₁.caused e.id c hc
        ((causeOf_of_eventOf hshown).trans hcaused)
      obtain rfl := Option.some.inj (hshown.symm.trans hshown')
      exact hhandled event hevent _ hw
  · have hnil : added = [] := eq_nil_of_ok hn
    obtain ⟨key,r,hr,hrready,e,hshown,hw⟩ := hwaits event hevent
    obtain ⟨x,hx,hid⟩ := hready key r hr (hrready.due _ (le_refl _)) hrready.decodes
    obtain ⟨c,hc,hshown'⟩ := hbatch.shown x hx
    have hkey : x.id = key := hid
    rw [hreserves.content,hkey,content_of_row hr] at hc
    obtain rfl := Option.some.inj hc
    obtain rfl := Option.some.inj (hshown.symm.trans hshown')
    exact eventHandled_of_wrapped hw hw' (hadded.mp hnil x hx ((cause_of_wrapped hw).trans hk))

end Batches

section Drains

variable {app : Application} {float : FloatReader} {answers : Answers app} {w : Surroundings float}
  {new : NewCommandEnvelope} {k : Uuid} {s s' : Kernel float}

/-- A command and its events are handled. -/
def Handled (answers : Answers app) (new : NewCommandEnvelope) : Prop :=
  CommandHandled answers new ∧ EventsHandled answers new

/-- If one's own command is handled, the rounds return `Ok`. -/
theorem run_drain_of_handled (hk : new.metadata.map CommandMetadata.commandId = some k)
    (hhandled : Handled answers new) {rounds : ℕ} (hsound : Sound answers new k s)
    (hcalm : Throughout (respond answers w) (Calm w k) (drain app float rounds) s) :
    ((drain app float rounds).run (respond answers w) s).1 = some (.ok ()) := by
  induction rounds generalizing s with
  | zero => rfl
  | succ rounds ih =>
    obtain ⟨hcommands,hcalm₁⟩ := throughout_bind.mp hcalm
    obtain ⟨result,s₁,hrun,hsound₁,hok,_⟩ := run_consumeCommands hsound hcommands
    obtain ⟨n,rfl⟩ := hok hhandled.1
    obtain ⟨hevents,hcalm₂⟩ := throughout_bind.mp (hcalm₁ _ _ hrun)
    obtain ⟨result,s₂,hrun₂,hsound₂,hok₂,_⟩ := run_consumeEvents hk hsound₁ hevents
    obtain ⟨n₂,rfl⟩ := hok₂ hhandled.2
    have hlater := ih hsound₂ (hcalm₂ _ _ hrun₂)
    rw [drain,Prog.run_bind_of_some _ hrun]
    exact (congrArg Prod.fst (Prog.run_bind_of_some _ hrun₂ _)).trans hlater

/-- If it waits for the first round, the rounds return `Ok` in no other case. -/
theorem handled_of_run_drain (hk : new.metadata.map CommandMetadata.commandId = some k)
    {rounds : ℕ} (hsound : Sound answers new k s)
    (hcalm : Throughout (respond answers w) (Calm w k) (drain app float (rounds+1)) s)
    {r : Row (QueueName.commands.queue float).Own} (hr : (s.tables .commands).find? k = some r)
    (hready : Ready w s.calls r)
    (hok : ((drain app float (rounds+1)).run (respond answers w) s).1 = some (.ok ())) :
    Handled answers new := by
  obtain ⟨hcommands,hcalm₁⟩ := throughout_bind.mp hcalm
  obtain ⟨result,s₁,hrun,hsound₁,_,hwaits⟩ := run_consumeCommands hsound hcommands
  rw [drain,Prog.run_bind_of_some _ hrun] at hok
  cases result with
  | error errors => cases hok
  | ok n =>
    obtain ⟨hhandled,hwaits⟩ := hwaits r hr hready n rfl
    obtain ⟨hevents,hcalm₂⟩ := throughout_bind.mp (hcalm₁ _ _ hrun)
    obtain ⟨result,s₂,hrun₂,hsound₂,_,heventsHandled⟩ := run_consumeEvents hk hsound₁ hevents
    have hok₂ := (congrArg Prod.fst (Prog.run_bind_of_some _ hrun₂ _)).symm.trans hok
    cases result with
    | error errors => cases hok₂
    | ok n₂ => exact ⟨hhandled,heventsHandled hwaits n₂ rfl⟩

/-- A recorded command that is not there yet waits in its row, and the others stay. -/
theorem ready_record {metadata : CommandMetadata} (hm : new.metadata = some metadata)
    {t : Rows (QueueName.commands.queue float)} {i : ℕ}
    (hok : (record t new (w.appNow i) (w.now i)).1 = .ok ())
    (hnone : t.find? metadata.commandId = none) :
    (∃ r, (record t new (w.appNow i) (w.now i)).2.find? metadata.commandId = some r ∧
      Ready w (i+1) r ∧ commandOf (contentOf .commands r) = some new) ∧
    ∀ id ≠ metadata.commandId,
      (record t new (w.appNow i) (w.now i)).2.find? id = t.find? id := by
  rcases record_cases t new (w.appNow i) (w.now i) with ⟨n,j,hn,hj,he⟩ | ⟨e,he⟩
  · obtain ⟨m,hm',hid,hc,hread⟩ := command_row float hn hj
    obtain rfl : metadata = m := Option.some.inj (hm.symm.trans hm')
    have hscheduled : n.scheduledAt = w.appNow i := by
      change newCommandEntry new (w.appNow i) (w.now i) = .ok n at hn
      rw [newCommandEntry,hm] at hn
      cases hn
      rfl
    have hread' : ((QueueName.commands.queue float).readMetadata (some j)).isOk = true := by
      have hsome : (QueueName.commands.queue float).readMetadata (some j) = .ok (some metadata) :=
        hread
      rw [hsome]
      rfl
    rw [he]
    refine ⟨⟨storedRow n j,?_,ready_storedRow hscheduled hread',?_⟩,fun id hne => ?_⟩
    · rw [Table.find?_insertNew,hnone]
      exact if_pos hid
    · obtain ⟨commandType,payload,_⟩ := new
      cases hm'
      rw [hc,commandOf,hread]
    · have hkey : (storedRow n j : Row (QueueName.commands.queue float).Own).id ≠ id := by
        change n.id ≠ id
        rw [hid]
        exact hne.symm
      change (t.insertNew (storedRow n j)).find? id = t.find? id
      rw [Table.find?_insertNew]
      cases t.find? id with
      | some r => rfl
      | none => exact if_neg hkey
  · rw [he] at hok
    cases hok

variable (answers w) in
/-- The recording of a command: it goes through exactly if the texts can be stored. -/
theorem run_commandGateway {metadata : CommandMetadata} (hm : new.metadata = some metadata)
    (s : Kernel float) : ∃ result s', (commandGateway.dispatch new :
        Program app float _).run (respond answers w) s = (some result,s') ∧
      (result = .ok () ↔ ∀ text ∈ commandTexts new, nulFree text = true) ∧
      (∀ name ≠ .commands, s'.tables name = s.tables name) ∧
      (result = .ok () → s.content .commands metadata.commandId = none →
        (∃ r, (s'.tables .commands).find? metadata.commandId = some r ∧ Ready w s'.calls r ∧
          commandOf (contentOf .commands r) = some new) ∧
        ∀ id ≠ metadata.commandId,
          (s'.tables .commands).find? id = (s.tables .commands).find? id) := by
  let entry : (QueueName.commands.queue float).NewEntry := new
  let t : Rows (QueueName.commands.queue float) := s.tables .commands
  have hrun : (commandGateway.dispatch new : Program app float _).run (respond answers w) s =
      (some (record t entry (w.appNow s.calls) (w.now s.calls)).1,
        s.write .commands (record t entry (w.appNow s.calls) (w.now s.calls)).2) := by
    unfold CommandGateway.dispatch commandGateway
    rw [hm]
    rfl
  have hnew : ((QueueName.commands.queue float).newRow new (w.appNow s.calls)
      (w.now s.calls)).isOk = true := by
    change (newCommandEntry new (w.appNow s.calls) (w.now s.calls)).isOk = true
    rw [newCommandEntry,hm]
    rfl
  refine ⟨_,_,hrun,record_iff .commands float t hnew,
    fun name hne => tables_write_of_ne s hne _,fun hok hnone => ?_⟩
  rw [tables_write]
  exact ready_record hm hok (row_of_no_content hnone)

variable {C : Type} {commands : ApplicationCommand C} {envelope : TypedCommandEnvelope C}

/-- What decides the outcome of one's own command, whatever else is queued: it serializes, its
texts can be stored, and, if there is a round, it is handled. -/
def Succeeds (answers : Answers app) (commands : ApplicationCommand C) (drainRounds : ℕ)
    (envelope : TypedCommandEnvelope C) : Prop :=
  ∃ new, envelope.intoGatewayEnvelope commands = .ok new ∧
    (∀ text ∈ commandTexts new, nulFree text = true) ∧ (drainRounds = 0 ∨ Handled answers new)

/-- The kernel after the recording of a new command. -/
theorem Newcomer.sound (h : Newcomer k s)
    (htables : ∀ name ≠ .commands, s'.tables name = s.tables name)
    {r : Row (QueueName.commands.queue float).Own} (hr : (s'.tables .commands).find? k = some r)
    (hshown : commandOf (contentOf .commands r) = some new)
    (hothers : ∀ id ≠ k, (s'.tables .commands).find? id = (s.tables .commands).find? id) :
    Sound answers new k s' := by
  have hevents : ∀ id, s'.content .events id = s.content .events id :=
    fun id => content_congr (by rw [htables .events (by decide)])
  refine ⟨fun c hc => ?_,fun id c other hne hc => ?_,fun id c hc hcause => ?_⟩
  · rw [content_of_row hr] at hc
    obtain rfl := Option.some.inj hc
    exact hshown
  · exact h.unnamed id c other ((content_congr (hothers id hne)).symm.trans hc)
  · exact absurd hcause (h.uncaused id c ((hevents id).symm.trans hc))

/-- The call returns `Ok` exactly if one's own command succeeds. -/
theorem run_dispatchCommand {drainRounds : ℕ} (h : Newcomer envelope.metadata.commandId s)
    (hcalm : Throughout (respond answers w) (Calm w envelope.metadata.commandId)
      (PersistentKernelState.dispatchCommand app float commands drainRounds envelope) s) :
    ((PersistentKernelState.dispatchCommand app float commands drainRounds envelope).run
      (respond answers w) s).1 = some (.ok ()) ↔
        Succeeds answers commands drainRounds envelope := by
  unfold PersistentKernelState.dispatchCommand at hcalm ⊢
  cases hnew : envelope.intoGatewayEnvelope commands with
  | error e =>
    refine iff_of_false (fun he => by cases he) ?_
    rintro ⟨new,hn,_⟩
    rw [hnew] at hn
    cases hn
  | ok new =>
    rw [hnew] at hcalm
    have hm : new.metadata = some envelope.metadata := by
      rw [TypedCommandEnvelope.intoGatewayEnvelope] at hnew
      cases hjson : commands.toJson envelope.command with
      | error e => rw [hjson] at hnew; cases hnew
      | ok payload => rw [hjson] at hnew; cases hnew; rfl
    obtain ⟨result,s₁,hrun,htexts,htables,hrow⟩ := run_commandGateway answers w hm s
    have hcalm₁ := (throughout_bind.mp hcalm).2 _ _ hrun
    have hsucceeds : Succeeds answers commands drainRounds envelope ↔
        result = .ok () ∧ (drainRounds = 0 ∨ Handled answers new) := by
      rw [Succeeds,htexts]
      constructor
      · rintro ⟨new',hn,hrest⟩
        obtain rfl : new = new' := Except.ok.inj (hnew.symm.trans hn)
        exact hrest
      · exact fun hrest => ⟨new,hnew,hrest⟩
    dsimp only
    rw [Prog.run_bind_of_some _ hrun,hsucceeds]
    cases result with
    | error e => exact iff_of_false (fun he => by cases he) fun hr => by cases hr.1
    | ok u =>
      obtain ⟨⟨r,hr,hready,hshown⟩,hothers⟩ := hrow rfl h.unrecorded
      have hsound : Sound answers new envelope.metadata.commandId s₁ :=
        h.sound htables hr hshown hothers
      have hk : new.metadata.map CommandMetadata.commandId = some envelope.metadata.commandId := by
        rw [hm]
        rfl
      cases drainRounds with
      | zero => exact iff_of_true rfl ⟨rfl,.inl rfl⟩
      | succ rounds =>
        refine ⟨fun hok => ⟨rfl,.inr ?_⟩,fun hhandled => ?_⟩
        · exact handled_of_run_drain hk hsound hcalm₁ hr hready hok
        · exact run_drain_of_handled hk (hhandled.2.resolve_left (Nat.succ_ne_zero _)) hsound hcalm₁

end Drains

section Reports

variable (app : Application) (float : FloatReader) {C : Type} (commands : ApplicationCommand C)
  (drainRounds : ℕ) (envelope : TypedCommandEnvelope C)

/-- What `dispatch_command` reports. -/
structure Reports : Prop where
  /-- Once the command is recorded, an error says that the reservation of a batch failed or the
  handling of one of its items, whoever queued it; whatever the world answers. -/
  failures : ∀ (σ : Type) (handle : (op : SystemOp app float) → σ → Option op.Reply × σ) (s s' : σ)
    (new : NewCommandEnvelope), envelope.intoGatewayEnvelope commands = .ok new →
      (commandGateway.dispatch new : Program app float _).run handle s = (some (.ok ()),s') →
        ((∃ e, ((PersistentKernelState.dispatchCommand app float commands drainRounds envelope).run
          handle s).1 = some (.error e)) ↔
            ∃ o ∈ trace handle (PersistentKernelState.dispatchCommand app float commands
              drainRounds envelope) s, Failure o)
  /-- As long as nothing of others fails, what they queued does not matter. -/
  others : ∀ (answers : Answers app) (w w' : Surroundings float) (s s' : Kernel float),
    Newcomer envelope.metadata.commandId s → Newcomer envelope.metadata.commandId s' →
    Throughout (respond answers w) (Calm w envelope.metadata.commandId)
      (PersistentKernelState.dispatchCommand app float commands drainRounds envelope) s →
    Throughout (respond answers w') (Calm w' envelope.metadata.commandId)
      (PersistentKernelState.dispatchCommand app float commands drainRounds envelope) s' →
        (((PersistentKernelState.dispatchCommand app float commands drainRounds envelope).run
          (respond answers w) s).1 = some (.ok ()) ↔
        ((PersistentKernelState.dispatchCommand app float commands drainRounds envelope).run
          (respond answers w') s').1 = some (.ok ()))

/-- `dispatch_command` reports the failures of the batches that it drains, and of nothing else. -/
theorem dispatch_command_reports : Reports app float commands drainRounds envelope where
  failures := fun _ _ _ _ _ hnew hrecorded =>
    (dispatchCommand_ends hnew hrecorded drainRounds).error_iff
  others := fun _ _ _ _ _ hs hs' hcalm hcalm' =>
    (run_dispatchCommand hs hcalm).trans (run_dispatchCommand hs' hcalm').symm

end Reports

section Another

instance (w : Surroundings float) (op : SystemOp app float) (s : Kernel float) :
    Decidable (FewDue w op s) :=
  match op with
  | .port name (.reserve spec) =>
    decidable_of_iff ((due spec (w.now s.calls) (s.tables name)).length ≤ 64)
      ⟨fun h _ _ he => by cases he; exact h,fun h => h name spec rfl⟩
  | .port _ (.completed _ _) => .isTrue fun _ _ he => by cases he
  | .port _ (.failed _ _ _ _) => .isTrue fun _ _ he => by cases he
  | .record _ _ => .isTrue fun _ _ he => by cases he
  | .nowV7 => .isTrue fun _ _ he => by cases he
  | .execute _ _ => .isTrue fun _ _ he => by cases he
  | .handle _ _ => .isTrue fun _ _ he => by cases he
  | .publish _ => .isTrue fun _ _ he => by cases he

/-- An application with a handler for one type of commands. -/
def contacts : Application where
  Command := Unit
  Event := Unit
  Handler := Unit
  Subscriber := Unit
  handlers := [("Rename",())]
  fromStr := fun _ _ => .ok ()
  events := ⟨fun _ => "Renamed",fun _ => none,fun _ => .ok "{}"⟩
  subscribers := []

/-- The handler succeeds and returns no events. -/
def accepting : Answers contacts where
  execute := fun _ _ => some (.ok [])
  handle := fun _ _ => some (.ok ())
  publish := fun _ => some (.ok ())
  handle_eventId := fun _ _ _ _ _ => rfl

/-- A moment in which the clocks stand still. -/
def moment : Surroundings .integersOnly where
  appNow := fun _ => 0
  now := fun _ => 0
  drawn := fun i => .fromU128 (100+i)
  candidates := fun _ _ => Scan.physical
  returning := fun _ _ => Scan.physical
  clocks := fun _ _ _ => le_refl _

/-- A kernel without rows. -/
def idle : Kernel .integersOnly := ⟨fun _ => Table.empty,0⟩

/-- A kernel in which a command of someone else waits. -/
def waiting (commandType : String) : Kernel .integersOnly :=
  idle.write .commands (record (Table.empty : Rows (QueueName.commands.queue .integersOnly))
    (⟨commandType,"{}",some ⟨.fromU128 2,none,none,none⟩⟩ : NewCommandEnvelope) 0 0).2

/-- What the application dispatches. -/
def renames : ApplicationCommand Unit := ⟨fun _ => "Rename",fun _ => .ok "{}"⟩

/-- A command of the handled type. -/
def renameContact : TypedCommandEnvelope Unit := ⟨(),⟨.fromU128 1,none,none,none⟩⟩

/-- It is dispatched with one round. -/
def dispatchRename : Program contacts .integersOnly (Except KernelError Unit) :=
  PersistentKernelState.dispatchCommand contacts .integersOnly renames 1 renameContact

/-- Neither a reservation nor an item of one's own failed. -/
def clearsOwn (k : Uuid) : Observed (SystemOp contacts .integersOnly) SystemOp.Reply → Bool
  | ⟨.port _ (.reserve _),some (.error _)⟩ => false
  | ⟨.port .commands (.failed id _ _ _),_⟩ => id ≠ k
  | ⟨.port _ (.failed _ _ _ _),_⟩ => false
  | _ => true

theorem not_failure_of_clearsOwn {k : Uuid}
    {o : Observed (SystemOp contacts .integersOnly) SystemOp.Reply} (h : clearsOwn k o = true) :
    ¬ReservationFailed o ∧ ∀ name id token maxAttempts reason,
      o.1 = .port name (.failed id token maxAttempts reason) → name = .commands ∧ id ≠ k := by
  obtain ⟨op,reply⟩ := o
  constructor
  · rintro ⟨name,spec,error,he⟩
    cases he
    cases h
  · rintro name id token maxAttempts reason rfl
    cases name with
    | commands => exact ⟨rfl,of_decide_eq_true h⟩
    | events => cases h
    | inbox => cases h
    | outbox => cases h

/-- A result, by whether it is `Ok`. -/
theorem result_cases {ε : Type} {result : Option (Except ε Unit)} {b : Bool}
    (h : result.map Except.isOk = some b) :
    (b = true → result = some (.ok ())) ∧ (b = false → ∃ e, result = some (.error e)) := by
  rcases result with _ | e | _ <;> cases h
  · exact ⟨fun hb => (by cases hb),fun _ => ⟨e,rfl⟩⟩
  · exact ⟨fun _ => rfl,fun hb => (by cases hb)⟩

/-- A kernel without events, in which the rows of commands are of others. -/
theorem newcomer_of_rows {k : Uuid} {s : Kernel .integersOnly}
    (hevents : (s.tables .events).rows.isEmpty = true)
    (hnone : (s.content .commands k).isNone = true)
    (hothers : ((s.tables .commands).rows.all fun r =>
      (commandOf (contentOf .commands r)).all fun other =>
        other.metadata.map CommandMetadata.commandId ≠ some k) = true) : Newcomer k s where
  unrecorded := Option.isNone_iff_eq_none.mp hnone
  unnamed := by
    intro id c other hc hshown
    obtain ⟨r,hr,rfl⟩ := row_of_content hc
    have hrow := List.all_eq_true.mp hothers r (Table.mem_of_find? hr)
    rw [hshown] at hrow
    exact of_decide_eq_true hrow
  uncaused := by
    intro id c hc
    obtain ⟨r,hr,_⟩ := row_of_content hc
    have hmem := Table.mem_of_find? hr
    rw [List.isEmpty_iff.mp hevents] at hmem
    cases hmem

theorem newcomer_idle : Newcomer (.fromU128 1) idle :=
  newcomer_of_rows (by decide +kernel) (by decide +kernel) (by decide +kernel)

theorem newcomer_waiting : Newcomer (.fromU128 1) (waiting "Delete") ∧
    Newcomer (.fromU128 1) (waiting "Rename") :=
  ⟨newcomer_of_rows (by decide +kernel) (by decide +kernel) (by decide +kernel),
    newcomer_of_rows (by decide +kernel) (by decide +kernel) (by decide +kernel)⟩

/-- No item fails, and no event is recorded. -/
def uneventful : SystemOp contacts .integersOnly → Bool
  | .port _ (.failed _ _ _ _) => false
  | .record .events _ => false
  | _ => true

theorem calm_of_uneventful {k : Uuid} {op : SystemOp contacts .integersOnly}
    {s : Kernel .integersOnly} (h : FewDue moment op s ∧ uneventful op = true) :
    Calm moment k op s where
  few := h.1
  others := by
    rintro name id token maxAttempts reason rfl
    cases h.2
  ids := by
    rintro event metadata rfl
    cases h.2

/-- A waiting command of someone else that is handled does not matter. -/
theorem dispatch_command_reports_rename :
    (dispatchRename.run (respond accepting moment) idle).1 = some (.ok ()) ↔
      (dispatchRename.run (respond accepting moment) (waiting "Rename")).1 = some (.ok ()) := by
  have hidle : Throughout (respond accepting moment)
      (fun op s => FewDue moment op s ∧ uneventful op = true) dispatchRename idle := by
    decide +kernel
  have hwaiting : Throughout (respond accepting moment)
      (fun op s => FewDue moment op s ∧ uneventful op = true) dispatchRename
        (waiting "Rename") := by decide +kernel
  exact (dispatch_command_reports contacts .integersOnly renames 1 renameContact).others accepting
    moment moment idle (waiting "Rename") newcomer_idle newcomer_waiting.2
    (hidle.imp fun _ _ => calm_of_uneventful) (hwaiting.imp fun _ _ => calm_of_uneventful)

/-- Someone else's failure is reported to the caller of a command that succeeds without it, in
queues of two rows at most: no reservation failed, and neither the command nor an event did. -/
theorem another_failure_reported :
    Newcomer (.fromU128 1) idle ∧ Newcomer (.fromU128 1) (waiting "Delete") ∧
    Throughout (respond accepting moment) (FewDue moment) dispatchRename idle ∧
    Throughout (respond accepting moment) (FewDue moment) dispatchRename (waiting "Delete") ∧
    (dispatchRename.run (respond accepting moment) idle).1 = some (.ok ()) ∧
    (∃ e, (dispatchRename.run (respond accepting moment) (waiting "Delete")).1 =
      some (.error e)) ∧
    ∀ o ∈ trace (respond accepting moment) dispatchRename (waiting "Delete"),
      ¬ReservationFailed o ∧ ∀ name id token maxAttempts reason,
        o.1 = .port name (.failed id token maxAttempts reason) →
          name = .commands ∧ id ≠ .fromU128 1 := by
  refine ⟨newcomer_idle,newcomer_waiting.1,by decide +kernel,by decide +kernel,?_,?_,?_⟩
  · have hok : (dispatchRename.run (respond accepting moment) idle).1.map Except.isOk =
        some true := by decide +kernel
    exact (result_cases hok).1 rfl
  · have herror : (dispatchRename.run (respond accepting moment)
        (waiting "Delete")).1.map Except.isOk = some false := by decide +kernel
    exact (result_cases herror).2 rfl
  · have hall : ((trace (respond accepting moment) dispatchRename (waiting "Delete")).all
        (clearsOwn (.fromU128 1))) = true := by decide +kernel
    exact fun o ho => not_failure_of_clearsOwn (List.all_eq_true.mp hall o ho)

end Another

end Mulac.OwnCommand
