import Mulac.Handover

/-!
# Lineage

Where the rows come from that the runs of the consumers insert: every command
from one message, with its key, its payload and its conversation, every event
from one execution of one command by the same run, with the conversation of the
command. Between its calls a run relies on nothing but that rows and
observations stay.
-/

namespace Mulac.Lineage

open Identifiers Postgres QueueDomain KeyedTable Envelopes QueueRow Repository FourQueues
  QueueCalls QueueRuns PanicProgram Interference Consumers PortCalls ItemRules Dispatch Pipeline
  Handoffs HandoffRules Handover

variable {app : Application} {float : SerdeJson.FloatReader} {w w' w'' : World app float} {i : ℕ}

section Origins

/-- The message under a key, with its metadata. -/
structure MessageAt (w : World app float) (k : Uuid) (c : Content) (m : InboxMessageMetadata) :
    Prop where
  /-- The row holds the message. -/
  content : w.content .inbox k = some c
  /-- Its metadata reads. -/
  metadata : requiredMetadata InboxMessageMetadata.ofValue c.metadata = .ok m
  /-- The message's id is its row's. -/
  messageId : m.messageId = some k

/-- The command under a key, with its metadata. -/
structure CommandAt (w : World app float) (k : Uuid) (c : Content) (m : CommandMetadata) :
    Prop where
  /-- The row holds the command. -/
  content : w.content .commands k = some c
  /-- Its metadata reads. -/
  metadata : optionalMetadata CommandMetadata.ofValue c.metadata = .ok (some m)
  /-- The command's id is its row's. -/
  commandId : m.commandId = k

/-- The run executed the command, and its handler returned the event. -/
def Yields (w : World app float) (i : ℕ) (c : Content) (event : app.Event) : Prop :=
  ∃ handler command produced, Runs app c handler command ∧
    .executed handler command (some (.ok produced)) ∈ w.log i ∧ event ∈ produced

/-- The command is what the message becomes: its type is the message's routing key, its payload,
correlation id and source are the message's, and its cause is the message. -/
def FromMessage (w : World app float) (u : Uuid) (c : Content) : Prop :=
  ∃ k message m, MessageAt w k message m ∧ c.type = m.routingKey ∧ m.routingKey.isSome = true ∧
    c.payload = message.payload ∧ optionalMetadata CommandMetadata.ofValue c.metadata =
      .ok (some ⟨u,m.correlationId,some k,m.source⟩)

/-- The event is one that the run got from a command: its type, payload and sequence are the
event's, its cause is the command, and it belongs to the command's conversation, which is that
of the command itself if it has no other. -/
def FromCommand (w : World app float) (i : ℕ) (u : Uuid) (c : Content) : Prop :=
  ∃ k command m event, CommandAt w k command m ∧ Yields w i command event ∧
    c.type = some (app.events.eventType event) ∧ app.events.toJson event = .ok c.payload ∧
    optionalMetadata EventMetadata.ofValue c.metadata =
      .ok (some ⟨app.events.sequence event,u,some (m.correlationId.getD k),some k,none⟩)

/-- What the rows of the runs come from. -/
structure Traced (w : World app float) : Prop where
  /-- Rows carry their ids. -/
  identified : Identified w
  /-- A command of a run comes from a message. -/
  commands : ∀ i u c, Authored i w .commands u c → FromMessage w u c
  /-- An event of a run comes from a command. -/
  events : ∀ i u c, Authored i w .events u c → FromCommand w i u c
  /-- No run inserts a message. -/
  inbox : ∀ i u c, ¬Authored i w .inbox u c
  /-- No run inserts an outbox entry. -/
  outbox : ∀ i u c, ¬Authored i w .outbox u c

end Origins

section Onward

/-- No row loses what it holds, and no observation is forgotten. -/
structure Onward (w w' : World app float) : Prop where
  /-- No row loses what it holds. -/
  keeps : Keeps w w'
  /-- Nothing that was observed is forgotten. -/
  logs : ∀ j, w.log j <+: w'.log j

theorem Onward.refl (w : World app float) : Onward w w :=
  ⟨fun _ _ _ h => h,fun _ => List.prefix_refl _⟩

theorem Onward.trans (h : Onward w w') (h' : Onward w' w'') : Onward w w'' :=
  ⟨fun name k c hc => h'.keeps name k c (h.keeps name k c hc),
    fun j => (h.logs j).trans (h'.logs j)⟩

variable {doer : Option ℕ} {inserts : (name : QueueName) → (name.queue float).NewEntry → Prop}
  {completes : QueueName → Uuid → Prop}

theorem Evolves.onward (h : Evolves doer inserts completes w w') : Onward w w' :=
  ⟨h.keeps,h.logs⟩

theorem MessageAt.onward {k : Uuid} {c : Content} {m : InboxMessageMetadata}
    (h : MessageAt w k c m) (ho : Onward w w') : MessageAt w' k c m :=
  ⟨ho.keeps _ _ _ h.content,h.metadata,h.messageId⟩

theorem CommandAt.onward {k : Uuid} {c : Content} {m : CommandMetadata}
    (h : CommandAt w k c m) (ho : Onward w w') : CommandAt w' k c m :=
  ⟨ho.keeps _ _ _ h.content,h.metadata,h.commandId⟩

theorem Yields.onward {c : Content} {event : app.Event} (h : Yields w i c event)
    (ho : Onward w w') : Yields w' i c event := by
  obtain ⟨handler,command,produced,hruns,hlog,hmem⟩ := h
  exact ⟨handler,command,produced,hruns,(ho.logs i).subset hlog,hmem⟩

theorem FromMessage.onward {u : Uuid} {c : Content} (h : FromMessage w u c) (ho : Onward w w') :
    FromMessage w' u c := by
  obtain ⟨k,message,m,hat,hrest⟩ := h
  exact ⟨k,message,m,hat.onward ho,hrest⟩

theorem FromCommand.onward {u : Uuid} {c : Content} (h : FromCommand w i u c)
    (ho : Onward w w') : FromCommand w' i u c := by
  obtain ⟨k,command,m,event,hat,hyields,hrest⟩ := h
  exact ⟨k,command,m,event,hat.onward ho,hyields.onward ho,hrest⟩

end Onward

section Descent

/-- The envelope that a message becomes, under some id. -/
def OfMessage (w : World app float) (entry : NewCommandEnvelope) : Prop :=
  ∃ k message m key id, MessageAt w k message m ∧ m.routingKey = some key ∧
    entry = ⟨key,message.payload,some ⟨id,m.correlationId,some k,m.source⟩⟩

/-- The envelope of an event that the run got from a command, under some id. -/
def OfCommand (w : World app float) (i : ℕ) (entry : NewEventEnvelope) : Prop :=
  ∃ k command m event payload id, CommandAt w k command m ∧ Yields w i command event ∧
    app.events.toJson event = .ok payload ∧ entry = ⟨app.events.eventType event,payload,
      some (eventMetadata (some m) (app.events.sequence event) id)⟩

/-- What a run may record. -/
def Descends (i : ℕ) (w : World app float) :
    (name : QueueName) → (name.queue float).NewEntry → Prop
  | .commands => fun (entry : NewCommandEnvelope) => OfMessage w entry
  | .events => fun (entry : NewEventEnvelope) => OfCommand w i entry
  | .inbox => fun _ => False
  | .outbox => fun _ => False

/-- What a run owes before a call: what it records has its origin. -/
def Owed (i : ℕ) (op : SystemOp app float) (w : World app float) : Prop :=
  match op with
  | .record name entry => Descends i w name entry
  | _ => True

theorem OfCommand.onward {entry : NewEventEnvelope} (h : OfCommand w i entry)
    (ho : Onward w w') : OfCommand w' i entry := by
  obtain ⟨k,command,m,event,payload,id,hat,hyields,hrest⟩ := h
  exact ⟨k,command,m,event,payload,id,hat.onward ho,hyields.onward ho,hrest⟩

/-- The row of such a command comes from the message. -/
theorem OfMessage.stored (float : SerdeJson.FloatReader) {w : World app float}
    {entry : NewCommandEnvelope} (h : OfMessage w entry) {appNow now : Timestamp}
    {n : NewRow String} {metadata : Jsonb} (hn : newCommandEntry entry appNow now = .ok n)
    (hm : metadata.value = n.metadata) : FromMessage w n.id
      (contentOf .commands (storedRow n metadata : Row (QueueName.commands.queue float).Own)) := by
  obtain ⟨k,message,m,key,id,hat,hkey,rfl⟩ := h
  obtain ⟨m',he,hid,hc,hread⟩ := command_row float hn hm
  cases he
  rw [hc,hid]
  exact ⟨k,message,m,hat,hkey.symm,by rw [hkey]; rfl,rfl,hread⟩

/-- The row of such an event comes from the command. -/
theorem OfCommand.stored (float : SerdeJson.FloatReader) {w : World app float}
    {entry : NewEventEnvelope} (h : OfCommand w i entry) {appNow now : Timestamp}
    {n : NewRow String} {metadata : Jsonb} (hn : newEventEntry entry appNow now = .ok n)
    (hm : metadata.value = n.metadata) : FromCommand w i n.id
      (contentOf .events (storedRow n metadata : Row (QueueName.events.queue float).Own)) := by
  obtain ⟨k,command,m,event,payload,id,hat,hyields,hjson,rfl⟩ := h
  obtain ⟨m',he,hid,hc,hread⟩ := event_row float hn hm
  cases he
  have hcorrelation : (m.correlationId.or (some m.commandId)) =
      some (m.correlationId.getD k) := by
    rw [hat.commandId]
    cases m.correlationId <;> rfl
  have hmeta : eventMetadata (some m) (app.events.sequence event) id =
      ⟨app.events.sequence event,id,some (m.correlationId.getD k),some k,none⟩ := by
    rw [← hcorrelation,← hat.commandId]
    rfl
  rw [hc,hid]
  refine ⟨k,command,m,event,hat,hyields,rfl,hjson,?_⟩
  rw [hread,hmeta]

/-- A step whose records have their origins keeps every origin. -/
theorem Traced.evolve (h : Traced w) {doer : Option ℕ}
    {inserts : (name : QueueName) → (name.queue float).NewEntry → Prop}
    {completes : QueueName → Uuid → Prop} (hev : Evolves doer inserts completes w w')
    (hd : ∀ i, doer = some i → ∀ name entry, inserts name entry → Descends i w name entry) :
    Traced w' := by
  have ho : Onward w w' := Evolves.onward hev
  refine ⟨Evolves.identified hev h.identified,?_,?_,?_,?_⟩
  · intro i u c ha
    rcases Evolves.authored_cases hev ha with hold | ⟨hdoer,entry,_,_,n,_,hi,hn,hm,rfl,rfl⟩
    · exact (h.commands i u c hold).onward ho
    · have hof : OfMessage w entry := hd i hdoer .commands entry hi
      exact FromMessage.onward (hof.stored float hn hm) ho
  · intro i u c ha
    rcases Evolves.authored_cases hev ha with hold | ⟨hdoer,entry,_,_,n,_,hi,hn,hm,rfl,rfl⟩
    · exact (h.events i u c hold).onward ho
    · have hof : OfCommand w i entry := hd i hdoer .events entry hi
      exact FromCommand.onward (hof.stored float hn hm) ho
  · intro i u c ha
    rcases Evolves.authored_cases hev ha with hold | ⟨hdoer,entry,_,_,_,_,hi,_⟩
    · exact h.inbox i u c hold
    · exact hd i hdoer .inbox entry hi
  · intro i u c ha
    rcases Evolves.authored_cases hev ha with hold | ⟨hdoer,entry,_,_,_,_,hi,_⟩
    · exact h.outbox i u c hold
    · exact hd i hdoer .outbox entry hi

variable (app float)

/-- Under these rules no row of a run is without its origin. -/
def ancestry : (pipeline app float).Discipline where
  rely := fun _ => Onward
  inv := Traced
  owes := Owed
  new := fun _ _ => True
  rely_refl := fun _ => Onward.refl
  rely_trans := Onward.trans
  new_rely := fun _ _ => trivial
  call_inv := by
    intro i op w reply w' hi ho hs
    refine hi.evolve hs.evolves ?_
    rintro _ ⟨⟩ name entry rfl
    exact ho
  call_rely := fun _ _ hs _ => Evolves.onward hs.evolves
  outside_inv := fun hi ho => hi.evolve ho.evolves fun _ hd => by cases hd
  outside_rely := fun _ ho => Evolves.onward ho.evolves

end Descent

section Works

variable {op : SystemOp app float}

/-- The rule of a call. -/
theorem safe_call {post : Option op.Reply → World app float → Prop}
    (ho : ∀ v, Onward w v → Traced v → Owed i op v)
    (hp : ∀ v reply v' u, Onward w v → Performs i v op reply v' → Onward v' u → post reply u) :
    Safe ((ancestry app float).rules i) (.perform op) post w :=
  Safe.perform fun v hv hi => ⟨ho v hv hi,fun reply v' hs _ u hu _ => hp v reply v' u hv hs hu⟩

/-- A call that records nothing owes nothing. -/
theorem safe_silent (h : op.isRecord = false) :
    Safe ((ancestry app float).rules i) (.perform op) (fun _ _ => True) w := by
  refine safe_call (fun v _ _ => ?_) fun _ _ _ _ _ _ _ => trivial
  cases op with
  | record name entry => cases h
  | port name op => trivial
  | nowV7 => trivial
  | execute handler command => trivial
  | handle subscriber envelope => trivial
  | publish message => trivial

/-- The work on a message records what the message becomes. -/
theorem safe_forwardMessage {e : InboxMessageEnvelope} {k : Uuid} {c : Content}
    {m : InboxMessageMetadata} (hat : MessageAt w k c m) (hr : Reads float .inbox c e) :
    Safe ((ancestry app float).rules i)
      (Consumers.forwardMessage nowV7 commandGateway.dispatch e) (fun _ _ => True) w := by
  obtain ⟨hpayload,hmeta⟩ := hr
  rw [hat.metadata] at hmeta
  obtain rfl := Except.ok.inj hmeta
  have hdraw : Safe ((ancestry app float).rules i) (nowV7 : Program app float Uuid)
      (fun _ v => MessageAt v k c e.metadata) w :=
    safe_call (fun _ _ _ => trivial) fun v _ v' u hv hs hu =>
      ((hat.onward hv).onward (Evolves.onward hs.evolves)).onward hu
  refine Safe.bind (hdraw.mono fun o v hv => ?_)
  cases o with
  | none => trivial
  | some id =>
    cases hkey : e.metadata.routingKey with
    | none =>
      simp only [NewCommandEnvelope.ofInbox,hkey]
      exact fun _ _ _ => trivial
    | some key =>
      simp only [NewCommandEnvelope.ofInbox,hkey]
      refine Safe.bind_ret (safe_call (fun v' hv' _ => ?_) fun _ _ _ _ _ _ _ => trivial)
      exact ⟨k,c,e.metadata,key,id,hv.onward hv',hkey,by rw [hpayload,hat.messageId]⟩

/-- The wrapper of a handler wraps each event under the metadata of its command. -/
theorem safe_wrapEvents (m : CommandMetadata) (produced : List app.Event) :
    Safe ((ancestry app float).rules i) (Dispatch.wrapEvents app.events nowV7 (some m) produced)
      (fun o v => Onward w v ∧ ∀ envelopes, o = some (.ok envelopes) → ∀ e ∈ envelopes,
        ∃ event ∈ produced, ∃ payload id, app.events.toJson event = .ok payload ∧
          e = ⟨app.events.eventType event,payload,
            some (eventMetadata (some m) (app.events.sequence event) id)⟩) w := by
  induction produced generalizing w with
  | nil =>
    intro v hv _
    refine ⟨hv,?_⟩
    rintro _ ⟨⟩ e he
    cases he
  | cons event produced ih =>
    rw [Dispatch.wrapEvents]
    split
    · cases hjson : app.events.toJson event with
      | error e => exact fun v hv _ => ⟨hv,fun _ he => by cases he⟩
      | ok payload =>
        have hdraw : Safe ((ancestry app float).rules i) (nowV7 : Program app float Uuid)
            (fun _ v => Onward w v) w :=
          safe_call (fun _ _ _ => trivial) fun v _ v' u hv hs hu =>
            (hv.trans (Evolves.onward hs.evolves)).trans hu
        refine Safe.bind (hdraw.mono fun o v hv => ?_)
        cases o with
        | none => exact ⟨hv,fun _ he => by cases he⟩
        | some id =>
          refine Safe.bind (ih.mono ?_)
          rintro o v' ⟨hv',hrest⟩
          cases o with
          | none => exact ⟨hv.trans hv',fun _ he => by cases he⟩
          | some wrapped =>
            intro u hu _
            refine ⟨(hv.trans hv').trans hu,?_⟩
            cases wrapped with
            | error e => exact fun _ he => by cases he
            | ok envelopes =>
              rintro _ ⟨⟩ e he
              rcases List.mem_cons.mp he with rfl | he
              · exact ⟨event,List.mem_cons_self ..,payload,id,hjson,rfl⟩
              · obtain ⟨event',hmem,hwrapped⟩ := hrest envelopes rfl e he
                exact ⟨event',List.mem_cons_of_mem _ hmem,hwrapped⟩
    · exact fun v hv _ => ⟨hv,fun _ he => by cases he⟩

/-- The loop over the events of a command records envelopes that have their origins. -/
theorem safe_dispatchEvents (envelopes : List NewEventEnvelope)
    (h : ∀ e ∈ envelopes, OfCommand w i e) : Safe ((ancestry app float).rules i)
      (Dispatch.dispatchEvents eventGateway.dispatch envelopes) (fun _ _ => True) w := by
  induction envelopes generalizing w with
  | nil => exact fun _ _ _ => trivial
  | cons envelope rest ih =>
    have hof := h envelope (List.mem_cons_self ..)
    obtain ⟨_,_,m,event,_,id,_,_,_,he⟩ := hof
    have hmeta : envelope.metadata =
        some (eventMetadata (some m) (app.events.sequence event) id) := by rw [he]
    rw [Dispatch.dispatchEvents,eventGateway_dispatch hmeta]
    have hrecord : Safe ((ancestry app float).rules i)
        (Prog.perform (SystemOp.record .events envelope)) (fun _ v => Onward w v) w :=
      safe_call (fun v hv _ => OfCommand.onward (h envelope (List.mem_cons_self ..)) hv)
        fun v _ v' u hv hs hu => (hv.trans (Evolves.onward hs.evolves)).trans hu
    refine Safe.bind (Safe.bind (hrecord.mono fun o v hv => ?_))
    cases o with
    | none => trivial
    | some result =>
      intro v' hv' _
      rcases result with e | _
      · exact fun _ _ _ => trivial
      · exact ih fun e he => OfCommand.onward (h e (List.mem_cons_of_mem _ he)) (hv.trans hv')

/-- The work on a command records the events of its execution. -/
theorem safe_commandDispatcher {e : CommandEnvelope} {k : Uuid} {c : Content}
    {m : CommandMetadata} (hat : CommandAt w k c m) (hr : Reads float .commands c e) :
    Safe ((ancestry app float).rules i) (dispatchCommand commandDispatcher e)
      (fun _ _ => True) w := by
  obtain ⟨htype,hpayload,hmeta⟩ := hr
  rw [hat.metadata] at hmeta
  have hm : (NewCommandEnvelope.ofEnvelope e).metadata = some m := (Except.ok.inj hmeta).symm
  unfold dispatchCommand commandDispatcher CommandDispatcher.dispatch
    CommandHandlerRegistry.execute
  cases hget : CommandHandlerRegistry.get app.handlers (NewCommandEnvelope.ofEnvelope e).commandType
    with
  | none => exact fun _ _ _ => trivial
  | some handler =>
    dsimp only
    unfold wrapHandler HandlerWrapper.execute
    cases hcommand : app.fromStr handler (NewCommandEnvelope.ofEnvelope e).payload with
    | error error => exact fun _ _ _ => trivial
    | ok command =>
      have hruns : Runs app c handler command := ⟨_,htype,hget,hpayload ▸ hcommand⟩
      have hexecute : Safe ((ancestry app float).rules i)
          (Prog.perform (SystemOp.execute handler command) :
            Program app float (Except CommandError (List app.Event)))
          (fun o v => CommandAt v k c m ∧ ∀ produced, o = some (.ok produced) →
            ∀ event ∈ produced, Yields v i c event) w := by
        refine safe_call (fun _ _ _ => trivial) fun v reply v' u hv hs hu => ?_
        refine ⟨((hat.onward hv).onward (Evolves.onward hs.evolves)).onward hu,?_⟩
        rintro produced rfl event hevent
        obtain rfl := Performs.execute_inv hs
        refine ⟨handler,command,produced,hruns,(hu.logs i).subset ?_,hevent⟩
        rw [observe_log]
        exact List.mem_append_right _ (List.mem_singleton_self _)
      refine Safe.bind (Safe.bind (hexecute.mono ?_))
      rintro o v ⟨hatv,hyields⟩
      rcases o with _ | error | produced
      · trivial
      · exact fun _ _ _ _ _ _ => trivial
      · dsimp only
        rw [hm]
        refine (safe_wrapEvents m produced).mono ?_
        rintro o v' ⟨hv',hwrapped⟩
        rcases o with _ | error | envelopes
        · trivial
        · exact fun _ _ _ => trivial
        · refine safe_dispatchEvents envelopes fun e he => ?_
          obtain ⟨event,hevent,payload,id,hjson,rfl⟩ := hwrapped envelopes rfl e he
          exact ⟨k,c,m,event,payload,id,hatv.onward hv',
            (hyields produced rfl event hevent).onward hv',hjson,rfl⟩

/-- The work on an event records nothing. -/
theorem safe_eventDispatcher (e : EventEnvelope) : Safe ((ancestry app float).rules i)
    (dispatchEvent eventDispatcher e) (fun _ _ => True) w := by
  unfold dispatchEvent eventDispatcher EventDispatcher.dispatch EventSubscriberRegistry.handle
  generalize EventSubscriberRegistry.get app.subscribers
    (NewEventEnvelope.ofEnvelope e).eventType = subscribers
  induction subscribers generalizing w with
  | nil => exact fun _ _ _ => trivial
  | cons subscriber rest ih =>
    refine Safe.bind ((safe_silent rfl).mono fun o v _ => ?_)
    rcases o with _ | error | _
    · trivial
    · exact fun _ _ _ => trivial
    · exact ih

/-- Nor does the work on an outbox entry. -/
theorem safe_publisher (e : OutboxEntryEnvelope) : Safe ((ancestry app float).rules i)
    (publishEntry publisher e) (fun _ _ => True) w := by
  unfold publishEntry
  split
  · exact fun _ _ _ => trivial
  · exact safe_silent rfl

end Works

section Batches

theorem HandedOut.onward {name : QueueName} {e : (name.queue float).Envelope}
    (h : HandedOut w name e) (ho : Onward w w') : HandedOut w' name e := by
  obtain ⟨c,token,hc,hr,ht⟩ := h
  exact ⟨c,token,ho.keeps _ _ _ hc,hr,ht⟩

/-- The rule of a consumer, from the rule of its work. -/
theorem safe_batch (name : QueueName)
    (work : (name.queue float).Envelope → Program app float (Except (name.queue float).Error Unit))
    (spec : ReservableSpec) (hwork : ∀ e c w, Traced w →
      w.content name ((name.queue float).handed e).id = some c → Reads float name c e →
      Safe ((ancestry app float).rules i) (work e) (fun _ _ => True) w) :
    Safe ((ancestry app float).rules i) (consume (itemsOf name float) (ports name) work spec)
      (fun _ _ => True) w := by
  refine safe_entries (fun e w => HandedOut w name e) (fun _ _ _ => True) ?_ ?_ ?_ ?_
  · exact fun e a b he hr => HandedOut.onward he hr
  · exact fun e e' _ a op reply b he _ _ _ hs => HandedOut.onward he (Evolves.onward hs.evolves)
  · refine safe_call (fun _ _ _ => trivial) ?_
    rintro v reply v' u _ hs hu entries rfl
    obtain ⟨hn,hout⟩ := Performs.reserved hs
    exact ⟨hn,fun e he => HandedOut.onward (hout e he) hu⟩
  · rintro e errors v hi ⟨c,token,hc,hr,ht⟩
    refine Safe.also ?_ fun _ _ => trivial
    refine safe_processEntry (fun _ => True) ht ?_ ?_ ?_
    · exact (hwork e c v hi hc hr).mono fun _ _ _ _ _ _ _ => trivial
    · exact fun _ _ _ => safe_silent rfl
    · exact fun _ _ => safe_silent rfl

/-- Every program of a worker is safe. -/
theorem safe_isConsumer {p : Program app float Unit} (hp : IsConsumer p) :
    Safe ((ancestry app float).rules i) p (fun _ _ => True) w := by
  cases hp with
  | inbox spec =>
    refine Safe.bind_ret (safe_batch .inbox _ spec fun e c v hi hc hr => ?_)
    obtain ⟨m,hmeta,hid⟩ := hi.identified.messages _ _ hc
    exact safe_forwardMessage ⟨hc,hmeta,hid⟩ hr
  | commands spec =>
    refine Safe.bind_ret (safe_batch .commands _ spec fun e c v hi hc hr => ?_)
    obtain ⟨m,hmeta,hid⟩ := hi.identified.commands _ _ hc
    exact safe_commandDispatcher ⟨hc,hmeta,hid⟩ hr
  | events spec =>
    exact Safe.bind_ret (safe_batch .events _ spec fun e _ _ _ _ _ => safe_eventDispatcher e)
  | outbox spec =>
    exact Safe.bind_ret (safe_batch .outbox _ spec fun e _ _ _ _ _ => safe_publisher e)

end Batches

section Runs

theorem not_authored_empty (i : ℕ) (name : QueueName) (u : Uuid) (c : Content) :
    ¬Authored i (World.empty app float) name u c := by
  rintro ⟨_,hc⟩
  rw [empty_content] at hc
  cases hc

/-- Empty tables hold nothing of a run. -/
theorem traced_empty : Traced (World.empty app float) where
  identified := (inv_empty app float).identified
  commands := fun _ _ _ ha => (not_authored_empty _ _ _ _ ha).elim
  events := fun _ _ _ ha => (not_authored_empty _ _ _ _ ha).elim
  inbox := fun _ _ _ => not_authored_empty _ _ _ _
  outbox := fun _ _ _ => not_authored_empty _ _ _ _

/-- An event belongs to the conversation of the message that its command came from: its
correlation id is the message's, or the command's id if the message has none. -/
theorem Traced.conversation (h : Traced w) {i j : ℕ} {u k : Uuid} {c command : Content}
    {m : EventMetadata} (he : Authored i w .events u c)
    (hread : optionalMetadata EventMetadata.ofValue c.metadata = .ok (some m))
    (hcause : m.causationId = some k) (hk : Authored j w .commands k command) :
    ∃ source message metadata, MessageAt w source message metadata ∧
      m.correlationId = some (metadata.correlationId.getD k) := by
  obtain ⟨k',_,mc,event,hat,_,_,_,hmeta⟩ := h.events i u c he
  rw [hread] at hmeta
  obtain rfl := Option.some.inj (Except.ok.inj hmeta)
  obtain rfl : k' = k := Option.some.inj hcause
  obtain ⟨source,message,metadata,hmessage,_,_,_,hcommand⟩ := h.commands j k' command hk
  have hsame := hat.content
  rw [hk.2] at hsame
  obtain rfl := Option.some.inj hsame
  have hmc := hat.metadata
  rw [hcommand] at hmc
  obtain rfl := Option.some.inj (Except.ok.inj hmc)
  exact ⟨source,message,metadata,hmessage,rfl⟩

/-- Where the rows of the runs come from, and which conversation they belong to. -/
structure HasLineage (w : World app float) : Prop extends Traced w where
  /-- Message, command and event are one conversation. -/
  conversation : ∀ i j u k c command m, Authored i w .events u c →
    optionalMetadata EventMetadata.ofValue c.metadata = .ok (some m) → m.causationId = some k →
    Authored j w .commands k command → ∃ source message metadata,
      MessageAt w source message metadata ∧
        m.correlationId = some (metadata.correlationId.getD k)

/-- In every reachable state of the pipeline, whatever crashed, lost its reply or was swept, each
command and each event that a run inserted has its origin, and no run inserted a message or an
outbox entry. -/
theorem reaches_lineage {s : Pool (SystemOp app float) SystemOp.Reply (World app float)}
    (h : (pipeline app float).Reaches (World.empty app float) s) : HasLineage s.world := by
  have hreach := (ancestry app float).reaches_safe traced_empty (fun _ => trivial)
    (fun _ _ _ hp _ _ => safe_isConsumer hp) h
  exact ⟨hreach.inv,fun _ _ _ _ _ _ _ he hread hcause hk =>
    hreach.inv.conversation he hread hcause hk⟩

/-- The command that a batch of the inbox consumer records. -/
theorem reaches_lineage_rename : ∃ s, (pipeline renameApp .integersOnly).Reaches
    (World.empty renameApp .integersOnly) s ∧ ∃ c, Authored 0 s.world .commands (.fromU128 10) c ∧
      FromMessage s.world (.fromU128 10) c := by
  have hstart : (pipeline renameApp .integersOnly).Reaches (World.empty renameApp .integersOnly)
      ⟨storedWorld,Function.update (fun _ => none) 0 (some inboxBatch),1⟩ :=
    (Team.Reaches.start.step (.outside outside_stored)).step (.start (.inbox singleSpec))
  obtain ⟨s,hs,hw,_⟩ := hstart.alone rfl (exec_inboxBatch (fun _ => rfl) fun h _ => h)
  have hauthor : doneWorld.author .commands (.fromU128 10) = some 0 := by decide +kernel
  have hrow : (doneWorld.content .commands (.fromU128 10)).isSome = true := by decide +kernel
  obtain ⟨c,hc⟩ := Option.isSome_iff_exists.mp hrow
  have ha : Authored 0 s.world .commands (.fromU128 10) c := by
    rw [hw]
    exact ⟨hauthor,hc⟩
  exact ⟨s,hs,c,ha,(reaches_lineage hs).commands 0 _ c ha⟩

end Runs

end Mulac.Lineage
