import Mulac.Pipeline

/-!
# Handoffs

What it means that an entry of one stage was handed over to the next, what a run
of a consumer owes before each of its calls, and what it may rely on between
them: others take nothing away, use none of its ids and record nothing in its
name.
-/

namespace Mulac.Handoffs

open Identifiers Postgres QueueDomain KeyedTable Envelopes QueueRow Repository RepositoryContracts
  FourQueues QueueCalls Consumers PortCalls Dispatch Pipeline

variable {app : Application} {float : SerdeJson.FloatReader} {w w' w'' : World app float} {i : ℕ}

section Delivery

/-- The registry finds the handler of a command, and the handler's wrapper reads it. -/
def Runs (app : Application) (c : Content) (handler : app.Handler) (command : app.Command) :
    Prop :=
  ∃ type, c.type = some type ∧ CommandHandlerRegistry.get app.handlers type = some handler ∧
    app.fromStr handler c.payload = .ok command

/-- A message has a command: its causation is the message, its type is the
message's routing key and its payload is the message's. -/
def Forwarded (w : World app float) (k : Uuid) (c : Content) : Prop :=
  ∃ message key id command m,
    requiredMetadata InboxMessageMetadata.ofValue c.metadata = .ok message ∧
    message.routingKey = some key ∧ w.content .commands id = some command ∧
    command.type = some key ∧ command.payload = c.payload ∧
    optionalMetadata CommandMetadata.ofValue command.metadata = .ok (some m) ∧
    m.causationId = some k

/-- The row under an id holds an event. -/
def EventAt (w : World app float) (event : app.Event) (id : Uuid) : Prop :=
  ∃ c, w.content .events id = some c ∧ c.type = some (app.events.eventType event) ∧
    app.events.toJson event = .ok c.payload

/-- A command was executed: its handler returned events, and each of them has a
row of its own. -/
def Executed (w : World app float) (c : Content) : Prop :=
  ∃ handler command i produced ids, Runs app c handler command ∧
    .executed handler command (some (.ok produced)) ∈ w.log i ∧ ids.Nodup ∧
    List.Forall₂ (EventAt w) produced ids

/-- What a run observes when every subscriber returns `Ok`, one after the other. -/
def fullPass (app : Application) (envelope : NewEventEnvelope) : List (Observation app) :=
  (EventSubscriberRegistry.get app.subscribers envelope.eventType).map fun subscriber =>
    .handled subscriber envelope (some (.ok ()))

/-- An event was handled: in one pass of one run, every subscriber of its type
returned `Ok`. -/
def Handled (w : World app float) (c : Content) : Prop :=
  ∃ (envelope : NewEventEnvelope) (i : ℕ), c.type = some envelope.eventType ∧
    c.payload = envelope.payload ∧
    optionalMetadata EventMetadata.ofValue c.metadata = .ok envelope.metadata ∧
    fullPass app envelope <:+: w.log i

/-- An entry was published: the publisher returned `Ok` for its payload and metadata. -/
def Published (w : World app float) (c : Content) : Prop :=
  ∃ (m : OutboxEntryMetadata) (i : ℕ),
    requiredMetadata OutboxEntryMetadata.ofValue c.metadata = .ok m ∧
    .published ⟨c.payload,m⟩ (some (.ok ())) ∈ w.log i

/-- An entry was handed over to the next stage. -/
def Delivered (w : World app float) (name : QueueName) (k : Uuid) (c : Content) : Prop :=
  match name with
  | .inbox => Forwarded w k c
  | .commands => Executed w c
  | .events => Handled w c
  | .outbox => Published w c

/-- What was handed over stays handed over. -/
theorem Delivered.mono (hk : Keeps w w') (hl : ∀ j, w.log j <+: w'.log j) {name : QueueName}
    {k : Uuid} {c : Content} (h : Delivered w name k c) : Delivered w' name k c := by
  cases name with
  | inbox =>
    obtain ⟨message,key,id,command,m,hm,hkey,hc,hrest⟩ := h
    exact ⟨message,key,id,command,m,hm,hkey,hk _ _ _ hc,hrest⟩
  | commands =>
    obtain ⟨handler,command,i,produced,ids,hr,hlog,hn,hall⟩ := h
    refine ⟨handler,command,i,produced,ids,hr,(hl i).subset hlog,hn,hall.imp ?_⟩
    rintro event id ⟨c,hc,hrest⟩
    exact ⟨c,hk _ _ _ hc,hrest⟩
  | events =>
    obtain ⟨envelope,i,ht,hp,hm,hpass⟩ := h
    exact ⟨envelope,i,ht,hp,hm,hpass.trans (hl i).isInfix⟩
  | outbox =>
    obtain ⟨m,i,hm,hlog⟩ := h
    exact ⟨m,i,hm,(hl i).subset hlog⟩

end Delivery

section Causes

/-- The causation id that a row carries. -/
def causeOf (name : QueueName) (c : Content) : Option Uuid :=
  match name with
  | .commands =>
    match optionalMetadata CommandMetadata.ofValue c.metadata with
    | .ok (some m) => m.causationId
    | _ => none
  | .events =>
    match optionalMetadata EventMetadata.ofValue c.metadata with
    | .ok (some m) => m.causationId
    | _ => none
  | .inbox => none
  | .outbox => none

/-- The causation id that a new entry carries. -/
def entryCause : (name : QueueName) → (name.queue float).NewEntry → Option Uuid
  | .commands => fun (entry : NewCommandEnvelope) =>
    entry.metadata.bind CommandMetadata.causationId
  | .events => fun (entry : NewEventEnvelope) => entry.metadata.bind EventMetadata.causationId
  | .inbox => fun _ => none
  | .outbox => fun _ => none

/-- The row of a command, from its envelope. -/
theorem command_row (float : SerdeJson.FloatReader) {entry : NewCommandEnvelope}
    {appNow now : Timestamp} {n : NewRow String} {metadata : Jsonb}
    (hn : newCommandEntry entry appNow now = .ok n)
    (hm : metadata.value = n.metadata) :
    ∃ m, entry.metadata = some m ∧ n.id = m.commandId ∧
      contentOf .commands (storedRow n metadata : Row (QueueName.commands.queue float).Own) =
        ⟨some entry.commandType,entry.payload,some metadata⟩ ∧
      optionalMetadata CommandMetadata.ofValue (some metadata) = .ok (some m) := by
  unfold newCommandEntry at hn
  split at hn
  · cases hn
  · next m he =>
    cases hn
    refine ⟨m,he,rfl,rfl,?_⟩
    rw [optionalMetadata,hm,CommandMetadata.ofValue_toValue]
    rfl

/-- The row of an event, from its envelope. -/
theorem event_row (float : SerdeJson.FloatReader) {entry : NewEventEnvelope}
    {appNow now : Timestamp} {n : NewRow String} {metadata : Jsonb}
    (hn : newEventEntry entry appNow now = .ok n)
    (hm : metadata.value = n.metadata) :
    ∃ m, entry.metadata = some m ∧ n.id = m.eventId ∧
      contentOf .events (storedRow n metadata : Row (QueueName.events.queue float).Own) =
        ⟨some entry.eventType,entry.payload,some metadata⟩ ∧
      optionalMetadata EventMetadata.ofValue (some metadata) = .ok (some m) := by
  unfold newEventEntry at hn
  split at hn
  · cases hn
  · next m he =>
    split at hn
    · next hs =>
      cases hn
      refine ⟨m,he,rfl,rfl,?_⟩
      rw [optionalMetadata,hm,EventMetadata.ofValue_toValue hs]
      rfl
    · cases hn

/-- A row carries the causation id of its entry. -/
theorem causeOf_stored {name : QueueName} {entry : (name.queue float).NewEntry}
    {appNow now : Timestamp} {n : NewRow (name.queue float).Own} {metadata : Jsonb}
    (hn : (name.queue float).newRow entry appNow now = .ok n) (hm : metadata.value = n.metadata) :
    causeOf name (contentOf name (storedRow n metadata)) = entryCause name entry := by
  cases name with
  | commands =>
    obtain ⟨m,he,_,hc,hr⟩ := command_row float hn hm
    rw [hc,causeOf,hr]
    exact (congrArg (Option.bind · CommandMetadata.causationId) he).symm
  | events =>
    obtain ⟨m,he,_,hc,hr⟩ := event_row float hn hm
    rw [hc,causeOf,hr]
    exact (congrArg (Option.bind · EventMetadata.causationId) he).symm
  | inbox => rfl
  | outbox => rfl

end Causes

section Growth

variable {doer : Option ℕ} {inserts : (name : QueueName) → (name.queue float).NewEntry → Prop}
  {completes : QueueName → Uuid → Prop} {name : QueueName} {k : Uuid} {c : Content}

/-- What a row holds was held before, or the row is new. -/
theorem Evolves.content_cases (h : Evolves doer inserts completes w w')
    (hc : w'.content name k = some c) :
    w.content name k = some c ∨
      (w.tables name).find? k = none ∧ ((w'.tables name).find? k).isSome = true ∧
      ∃ entry appNow now n metadata, inserts name entry ∧
        (name.queue float).newRow entry appNow now = .ok n ∧ metadata.value = n.metadata ∧
        n.id = k ∧ c = contentOf name (storedRow n metadata) := by
  have hr := h.rows name k
  rw [World.content] at hc ⊢
  generalize (w.tables name).find? k = before at hr ⊢
  generalize (w'.tables name).find? k = after at hr hc ⊢
  cases hr with
  | same => exact .inl hc
  | inserted hi hn hm hk =>
    rw [Option.map_some,Option.some.injEq] at hc
    exact .inr ⟨rfl,rfl,_,_,_,_,_,hi,hn,hm,hk,hc.symm⟩
  | rewritten he _ =>
    rw [Option.map_some] at hc ⊢
    rw [← he]
    exact .inl hc

/-- Rows carry their own ids in their metadata. -/
structure Identified (w : World app float) : Prop where
  /-- A message's id is its row's. -/
  messages : ∀ k c, w.content .inbox k = some c → ∃ m,
    requiredMetadata InboxMessageMetadata.ofValue c.metadata = .ok m ∧ m.messageId = some k
  /-- A command's id is its row's. -/
  commands : ∀ k c, w.content .commands k = some c → ∃ m,
    optionalMetadata CommandMetadata.ofValue c.metadata = .ok (some m) ∧ m.commandId = k

theorem Evolves.identified (h : Evolves doer inserts completes w w') (hw : Identified w) :
    Identified w' where
  messages := by
    intro k c hc
    rcases Evolves.content_cases h hc with hold | ⟨_,_,entry,appNow,now,n,metadata,_,hn,hm,hk,rfl⟩
    · exact hw.messages k c hold
    · change newInboxEntry entry appNow now = .ok n at hn
      cases hn
      refine ⟨InboxMessageMetadata.ofNew entry,?_,congrArg some hk⟩
      change requiredMetadata InboxMessageMetadata.ofValue (some metadata) = _
      rw [requiredMetadata,hm,InboxMessageMetadata.ofValue_toValue]
      rfl
  commands := by
    intro k c hc
    rcases Evolves.content_cases h hc with hold | ⟨_,_,entry,appNow,now,n,metadata,_,hn,hm,hk,rfl⟩
    · exact hw.commands k c hold
    · obtain ⟨m,_,hid,hcontent,hread⟩ := command_row float hn hm
      rw [hcontent]
      exact ⟨m,hread,hid.symm.trans hk⟩

end Growth

section Reliance

/-- An id that the run drew and nobody knows. -/
def Unused (i : ℕ) (w : World app float) (u : Uuid) : Prop := w.drawn u = some i ∧ ¬w.Known u

/-- A row that the run inserted, as it was. -/
def Authored (i : ℕ) (w : World app float) (name : QueueName) (u : Uuid) (c : Content) : Prop :=
  w.author name u = some i ∧ w.content name u = some c

/-- The run recorded an entry with the causation id. -/
def Recorded (i : ℕ) (w : World app float) (name : QueueName) (k : Uuid) : Prop :=
  ∃ u c, Authored i w name u c ∧ causeOf name c = some k

/-- Meanwhile nothing is lost, and the run records nothing. -/
structure Still (i : ℕ) (w w' : World app float) : Prop where
  /-- No row loses what it holds. -/
  keeps : Keeps w w'
  /-- Nothing that was observed is forgotten. -/
  logs : ∀ j, w.log j <+: w'.log j
  /-- What the run drew is its own. -/
  drawn : ∀ u, w.drawn u = some i → w'.drawn u = some i
  /-- The rows of the run are old. -/
  authored : ∀ name u c, Authored i w' name u c → Authored i w name u c

theorem Still.refl (i : ℕ) (w : World app float) : Still i w w :=
  ⟨fun _ _ _ h => h,fun _ => List.prefix_refl _,fun _ h => h,fun _ _ _ h => h⟩

theorem Still.trans (h : Still i w w') (h' : Still i w' w'') : Still i w w'' :=
  ⟨fun name k c hc => h'.keeps name k c (h.keeps name k c hc),
    fun j => (h.logs j).trans (h'.logs j),fun u hu => h'.drawn u (h.drawn u hu),
    fun name u c ha => h.authored name u c (h'.authored name u c ha)⟩

theorem Still.not_recorded (h : Still i w w') {name : QueueName} {k : Uuid}
    (hn : ¬Recorded i w name k) : ¬Recorded i w' name k := by
  rintro ⟨u,c,ha,hc⟩
  exact hn ⟨u,c,h.authored _ _ _ ha,hc⟩

theorem Still.delivered (h : Still i w w') {name : QueueName} {k : Uuid} {c : Content}
    (hd : Delivered w name k c) : Delivered w' name k c := hd.mono h.keeps h.logs

/-- What a run may rely on between two calls of its own. -/
structure Rely (i : ℕ) (w w' : World app float) : Prop extends Still i w w' where
  /-- Its observations are its own. -/
  own : w'.log i = w.log i
  /-- Others do not guess its ids. -/
  unused : ∀ u, Unused i w u → Unused i w' u

theorem Rely.refl (i : ℕ) (w : World app float) : Rely i w w :=
  ⟨.refl i w,rfl,fun _ h => h⟩

theorem Rely.trans (h : Rely i w w') (h' : Rely i w' w'') : Rely i w w'' :=
  ⟨h.toStill.trans h'.toStill,h'.own.trans h.own,fun u hu => h'.unused u (h.unused u hu)⟩

theorem Rely.not_recorded (hn : ∀ name k, ¬Recorded i w name k) (hr : Rely i w w') :
    ∀ name k, ¬Recorded i w' name k := fun name k => hr.toStill.not_recorded (hn name k)

variable {doer : Option ℕ} {inserts : (name : QueueName) → (name.queue float).NewEntry → Prop}
  {completes : QueueName → Uuid → Prop}

/-- A row of a run is old, or the step is the run's and inserts it. -/
theorem Evolves.authored_cases (h : Evolves doer inserts completes w w') {name : QueueName}
    {u : Uuid} {c : Content} (ha : Authored i w' name u c) :
    Authored i w name u c ∨ doer = some i ∧ ∃ entry appNow now n metadata, inserts name entry ∧
      (name.queue float).newRow entry appNow now = .ok n ∧ metadata.value = n.metadata ∧
      n.id = u ∧ c = contentOf name (storedRow n metadata) := by
  obtain ⟨hauthor,hc⟩ := ha
  rcases Evolves.content_cases h hc with hold | ⟨hb,hsome,hnew⟩
  · left
    rw [World.content,Option.map_eq_some_iff] at hold
    obtain ⟨r,hf,rfl⟩ := hold
    have hkeep := h.authors name u (by rw [hf]; rfl)
    exact ⟨hkeep ▸ hauthor,content_of_find? hf⟩
  · right
    rw [h.inserted name u hb hsome] at hauthor
    exact ⟨hauthor,hnew⟩

/-- A step that inserts nothing in the name of the run. -/
theorem Evolves.still (h : Evolves doer inserts completes w w')
    (hd : doer = some i → ∀ name entry, ¬inserts name entry) : Still i w w' := by
  refine ⟨h.keeps,h.logs,fun u hu => h.drawn u i hu,fun name u c ha => ?_⟩
  rcases Evolves.authored_cases h ha with hold | ⟨hdoer,entry,_,_,_,_,hi,_⟩
  · exact hold
  · exact absurd hi (hd hdoer name entry)

/-- A step that others may take, as long as they do not use an id of the run. -/
theorem Evolves.rely (h : Evolves doer inserts completes w w') (hd : doer ≠ some i)
    (hids : ∀ name entry appNow now n, inserts name entry →
      (name.queue float).newRow entry appNow now = .ok n → ¬Unused i w n.id) : Rely i w w' where
  toStill := Evolves.still h fun he => absurd he hd
  own := h.others i hd
  unused := by
    rintro u ⟨hdrawn,hunknown⟩
    refine ⟨h.drawn u i hdrawn,?_⟩
    rintro ⟨name,hsome⟩
    obtain ⟨r,hf⟩ := Option.isSome_iff_exists.mp hsome
    rcases Evolves.content_cases h (content_of_find? hf) with
      hold | ⟨_,_,entry,appNow,now,n,_,hi,hn,_,rfl,_⟩
    · exact hunknown (known_of_content hold)
    · exact hids name entry appNow now n hi hn ⟨hdrawn,hunknown⟩

/-- Producers and sweepers respect the ids of every run. -/
theorem Outside.rely (h : Outside w w') (i : ℕ) : Rely i w w' := by
  refine Evolves.rely h.evolves nofun ?_
  rintro name entry appNow now n hp hn ⟨hdrawn,hunknown⟩
  rcases hp appNow now n hn with hfree | hknown
  · rw [hfree] at hdrawn
    cases hdrawn
  · exact hunknown hknown

end Reliance

section Debts

/-- The envelope has the type and the payload of the event. -/
def Wraps (app : Application) (event : app.Event) (envelope : NewEventEnvelope) : Prop :=
  envelope.eventType = app.events.eventType event ∧ app.events.toJson event = .ok envelope.payload

/-- The envelopes come from one execution of the command by the run. -/
def Produced (w : World app float) (i : ℕ) (k : Uuid) (c : Content)
    (envelopes : List NewEventEnvelope) : Prop :=
  ∃ handler command produced, w.content .commands k = some c ∧ Runs app c handler command ∧
    .executed handler command (some (.ok produced)) ∈ w.log i ∧
    List.Forall₂ (Wraps app) produced envelopes

theorem Produced.mono {k : Uuid} {c : Content} {envelopes : List NewEventEnvelope}
    (hk : Keeps w w') (hl : w.log i <+: w'.log i) (h : Produced w i k c envelopes) :
    Produced w' i k c envelopes := by
  obtain ⟨handler,command,produced,hc,hr,hlog,hall⟩ := h
  exact ⟨handler,command,produced,hk _ _ _ hc,hr,hl.subset hlog,hall⟩

/-- The row is that of the envelope. -/
def Stems (envelope : NewEventEnvelope) (u : Uuid) (c : Content) : Prop :=
  (∃ m, envelope.metadata = some m ∧ m.eventId = u) ∧ c.type = some envelope.eventType ∧
    c.payload = envelope.payload

/-- The rows that the run recorded with the causation id are rows of the envelopes. -/
def StemsFrom (i : ℕ) (w : World app float) (k : Uuid) (envelopes : List NewEventEnvelope) : Prop :=
  ∀ u c, Authored i w .events u c → causeOf .events c = some k →
    ∃ envelope ∈ envelopes, Stems envelope u c

/-- What a run owes before it records: a command has an unused id, and is the
first of the run with its causation; an event has an unused id, and is one of
the events of an execution from which all its siblings so far come. -/
def OwesRecord (i : ℕ) (w : World app float) :
    (name : QueueName) → (name.queue float).NewEntry → Prop
  | .commands => fun (entry : NewCommandEnvelope) => ∃ m, entry.metadata = some m ∧
    Unused i w m.commandId ∧ ∀ k, m.causationId = some k → ¬Recorded i w .commands k
  | .events => fun (entry : NewEventEnvelope) => ∃ m k c envelopes, entry.metadata = some m ∧
    Unused i w m.eventId ∧ m.causationId = some k ∧ Produced w i k c envelopes ∧
    entry ∈ envelopes ∧ StemsFrom i w k envelopes
  | .inbox => fun _ => False
  | .outbox => fun _ => False

/-- What a run owes before a call: before a completion, the handoff. -/
def Owes (i : ℕ) (op : SystemOp app float) (w : World app float) : Prop :=
  match op with
  | .record name entry => OwesRecord i w name entry
  | .port name (.completed k _) => ∀ c, w.content name k = some c → Delivered w name k c
  | _ => True

/-- A record uses an id of the run. -/
theorem OwesRecord.unused {name : QueueName} {entry : (name.queue float).NewEntry}
    (h : OwesRecord i w name entry) {appNow now : Timestamp}
    {n : NewRow (name.queue float).Own} (hn : (name.queue float).newRow entry appNow now = .ok n) :
    Unused i w n.id := by
  cases name with
  | commands =>
    obtain ⟨m,he,hu,_⟩ := h
    change newCommandEntry entry appNow now = .ok n at hn
    simp only [newCommandEntry,he] at hn
    cases hn
    exact hu
  | events =>
    obtain ⟨m,k,c,envelopes,he,hu,_⟩ := h
    change newEventEntry entry appNow now = .ok n at hn
    simp only [newEventEntry,he] at hn
    split at hn
    · cases hn
      exact hu
    · cases hn
  | inbox => exact h.elim
  | outbox => exact h.elim

/-- A call whose debt is paid is one that the other runs may rely on. -/
theorem Performs.rely {j : ℕ} {op : SystemOp app float} {reply : Option op.Reply}
    (h : Performs i w op reply w') (ho : Owes i op w) (hj : j ≠ i) : Rely j w w' := by
  refine Evolves.rely h.evolves (fun he => hj (Option.some.inj he).symm) ?_
  rintro name entry appNow now n rfl hn ⟨hdrawn,_⟩
  have hu := OwesRecord.unused (show OwesRecord i w name entry from ho) hn
  rw [hu.1] at hdrawn
  exact hj (Option.some.inj hdrawn).symm

end Debts

end Mulac.Handoffs
