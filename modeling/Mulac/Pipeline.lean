import Mulac.Dispatch
import Mulac.ItemRules
import Mulac.PortCalls

/-!
# The pipeline

The four consumers composed over their four tables: messages become commands
through a two-phased command gateway, commands become events through their
handlers and a two-phased event gateway, events go to their subscribers and
outbox entries to a publisher. Beside the tables, the world remembers what the
application answered, which run of a consumer drew an id, and which one inserted
a row. What a step of anyone can do to a world is said once, by `Evolves`.
-/

namespace Mulac.Pipeline

open Identifiers Postgres SerdeJson QueueDomain KeyedTable Envelopes QueueRow Repository
  RepositoryContracts FourQueues QueueCalls PanicProgram Interference Consumers PortCalls Dispatch

section Programs

/-- What an application registers. -/
structure Application where
  /-- The commands that the handlers take. -/
  Command : Type
  /-- The events that the handlers return. -/
  Event : Type
  /-- The handlers. -/
  Handler : Type
  /-- The subscribers. -/
  Subscriber : Type
  /-- The registered handlers, by command type. -/
  handlers : List (String × Handler)
  /-- How the wrapper of a handler reads its command. -/
  fromStr : Handler → String → Except String Command
  /-- How the events show themselves. -/
  events : ApplicationEvent Event
  /-- The registered subscribers, by event type. -/
  subscribers : List (String × Subscriber)

variable (app : Application) (float : FloatReader)

/-- The calls that the consumers make, down to the tables and the application. -/
inductive SystemOp where
  /-- `record` or `store` of a repository. -/
  | record (name : QueueName) (entry : (name.queue float).NewEntry)
  /-- A port call of a consumer. -/
  | port (name : QueueName) (op : PortOp (name.queue float))
  /-- `Uuid::now_v7`. -/
  | nowV7
  /-- `CommandHandlerPort::execute`. -/
  | execute (handler : app.Handler) (command : app.Command)
  /-- `EventSubscriberPort::handle`. -/
  | handle (subscriber : app.Subscriber) (envelope : NewEventEnvelope)
  /-- `OutboxPublisherPort::publish`. -/
  | publish (message : OutboundMessageEnvelope)

variable {app float}

/-- What a call returns. -/
def SystemOp.Reply : SystemOp app float → Type
  | record name _ => Except (name.queue float).Error Unit
  | port _ op => op.Reply
  | nowV7 => Uuid
  | execute _ _ => Except CommandError (List app.Event)
  | handle _ _ => Except EventError Unit
  | publish _ => Except OutboxError Unit

/-- The calls that may insert a row. -/
def SystemOp.isRecord : SystemOp app float → Bool
  | record _ _ => true
  | _ => false

variable (app float)

/-- A program of the system. -/
abbrev Program (α : Type) := Prog (SystemOp app float) SystemOp.Reply α

variable {app float}

/-- The ports of a consumer. -/
def ports (name : QueueName) : Ports (name.queue float) (SystemOp app float) SystemOp.Reply where
  reserve := fun spec => Prog.perform (SystemOp.port name (.reserve spec))
  completed := fun id token => Prog.perform (SystemOp.port name (.completed id token))
  failed := fun id token maxAttempts reason =>
    Prog.perform (SystemOp.port name (.failed id token maxAttempts reason))

/-- Draw an id. -/
def nowV7 : Program app float Uuid := Prog.perform SystemOp.nowV7

/-- The gateway of `InboxConsumer`. -/
def commandGateway : CommandGateway (SystemOp app float) SystemOp.Reply :=
  .twoPhased fun envelope => Prog.perform (SystemOp.record .commands envelope)

/-- The event dispatcher of `CommandDispatcher`. -/
def eventGateway : EventGateway (SystemOp app float) SystemOp.Reply :=
  .twoPhased fun event => Prog.perform (SystemOp.record .events event)

/-- A registered handler in its wrapper. -/
def wrapHandler (handler : app.Handler) (envelope : NewCommandEnvelope) :
    Program app float (Except CommandError (List NewEventEnvelope)) :=
  HandlerWrapper.execute (app.fromStr handler)
    (fun command => Prog.perform (SystemOp.execute handler command)) app.events nowV7 envelope

/-- The dispatcher of `CommandConsumer`. -/
def commandDispatcher (envelope : NewCommandEnvelope) :
    Program app float (Except CommandError Unit) :=
  CommandDispatcher.dispatch (CommandHandlerRegistry.execute app.handlers wrapHandler)
    eventGateway.dispatch envelope

/-- The dispatcher of `EventConsumer`. -/
def eventDispatcher (envelope : NewEventEnvelope) : Program app float (Except EventError Unit) :=
  EventDispatcher.dispatch (EventSubscriberRegistry.handle app.subscribers fun subscriber event =>
    Prog.perform (SystemOp.handle subscriber event)) envelope

/-- The publisher of `OutboxConsumer`. -/
def publisher (message : OutboundMessageEnvelope) : Program app float (Except OutboxError Unit) :=
  Prog.perform (SystemOp.publish message)

/-- Run a batch for its effects. -/
def ignoreResult {ε : Type} (batch : Program app float (Except (List ε) ℕ)) :
    Program app float Unit :=
  batch >>= fun _ => .ret ()

/-- The programs of the workers: one batch of a consumer, under any limits. -/
inductive IsConsumer : Program app float Unit → Prop
  /-- `InboxConsumer::process`. -/
  | inbox (spec : ReservableSpec) : IsConsumer
    (ignoreResult (processInbox float (ports .inbox) nowV7 commandGateway.dispatch spec))
  /-- `CommandConsumer::consume`. -/
  | commands (spec : ReservableSpec) : IsConsumer
    (ignoreResult (consumeCommands float (ports .commands) commandDispatcher spec))
  /-- `EventConsumer::consume`. -/
  | events (spec : ReservableSpec) : IsConsumer
    (ignoreResult (consumeEvents float (ports .events) eventDispatcher spec))
  /-- `OutboxConsumer::publish_batch`. -/
  | outbox (spec : ReservableSpec) : IsConsumer
    (ignoreResult (publishBatch float (ports .outbox) publisher spec))

end Programs

section World

variable (app : Application) (float : FloatReader)

/-- What the application answered; no answer is a panic. -/
inductive Observation where
  /-- A handler was executed. -/
  | executed (handler : app.Handler) (command : app.Command)
    (reply : Option (Except CommandError (List app.Event)))
  /-- A subscriber was called. -/
  | handled (subscriber : app.Subscriber) (envelope : NewEventEnvelope)
    (reply : Option (Except EventError Unit))
  /-- A message was published. -/
  | published (message : OutboundMessageEnvelope) (reply : Option (Except OutboxError Unit))

/-- The tables, and what is remembered of the runs. -/
structure World where
  /-- The four tables. -/
  tables : (name : QueueName) → Rows (name.queue float)
  /-- The run that inserted a row, if a run of a consumer did. -/
  author : QueueName → Uuid → Option ℕ
  /-- The run that drew an id. -/
  drawn : Uuid → Option ℕ
  /-- What the application answered to each run, in order. -/
  log : ℕ → List (Observation app)

/-- Four empty tables. -/
def World.empty : World app float :=
  ⟨fun _ => Table.empty,fun _ _ => none,fun _ => none,fun _ => []⟩

variable {app float}

/-- The world after a call on a table. -/
def World.commit (w : World app float) (doer : Option ℕ) (name : QueueName)
    (t : Rows (name.queue float)) : World app float :=
  { w with
    tables := Function.update w.tables name t
    author := fun name' k =>
      if name' = name ∧ (w.tables name).find? k = none ∧ (t.find? k).isSome then doer
      else w.author name' k }

/-- A call without an effect leaves the world as it was. -/
theorem World.commit_self (w : World app float) (doer : Option ℕ) (name : QueueName) :
    w.commit doer name (w.tables name) = w := by
  have hauthor : (w.commit doer name (w.tables name)).author = w.author := by
    funext name' k
    refine if_neg ?_
    rintro ⟨_,hnone,hsome⟩
    rw [hnone] at hsome
    cases hsome
  have htables : (w.commit doer name (w.tables name)).tables = w.tables :=
    Function.update_eq_self ..
  calc w.commit doer name (w.tables name)
      = ⟨(w.commit doer name (w.tables name)).tables,
          (w.commit doer name (w.tables name)).author,w.drawn,w.log⟩ := rfl
    _ = w := by rw [hauthor,htables]

/-- The world after an answer of the application. -/
def World.observe (w : World app float) (i : ℕ) (o : Observation app) : World app float :=
  { w with log := Function.update w.log i (w.log i++[o]) }

/-- The world after a draw. -/
def World.draw (w : World app float) (i : ℕ) (u : Uuid) : World app float :=
  { w with drawn := Function.update w.drawn u (some i) }

/-- The id of a row is known to others. -/
def World.Known (w : World app float) (u : Uuid) : Prop :=
  ∃ name, ((w.tables name).find? u).isSome = true

/-- What a call of a run may answer and leave. -/
inductive Performs (i : ℕ) (w : World app float) :
    (op : SystemOp app float) → Option op.Reply → World app float → Prop
  /-- `record` or `store`. -/
  | record (name : QueueName) (entry : (name.queue float).NewEntry) (appNow now : Timestamp)
    {reply : Option (Except (name.queue float).Error Unit)} {t : Rows (name.queue float)} :
    Lossy (w.tables name) (Repository.record (w.tables name) entry appNow now) reply t →
      Performs i w (.record name entry) reply (w.commit (some i) name t)
  /-- `reserve`. -/
  | reserve (name : QueueName) (spec : ReservableSpec) (draw : ReserveDraw (name.queue float))
    {reply : Option (Except (name.queue float).Error (List (name.queue float).Envelope))}
    {t : Rows (name.queue float)} :
    Lossy (w.tables name) (Repository.reserve (w.tables name) spec draw) reply t →
      Performs i w (.port name (.reserve spec)) reply (w.commit (some i) name t)
  /-- `completed`. -/
  | completed (name : QueueName) (id token : Uuid) (now : Timestamp)
    {reply : Option (Except (name.queue float).Error Unit)} {t : Rows (name.queue float)} :
    Lossy (w.tables name) (Repository.completed (w.tables name) id token now) reply t →
      Performs i w (.port name (.completed id token)) reply (w.commit (some i) name t)
  /-- `failed`. -/
  | failed (name : QueueName) (id token : Uuid) (maxAttempts : ℤ) (reason : Option String)
    (now : Timestamp) {reply : Option (Except (name.queue float).Error Unit)}
    {t : Rows (name.queue float)} :
    Lossy (w.tables name) (Repository.failed (w.tables name) id token maxAttempts reason now)
      reply t → Performs i w (.port name (.failed id token maxAttempts reason)) reply
        (w.commit (some i) name t)
  /-- A draw returns an id that nobody has drawn and no row has. -/
  | nowV7 (u : Uuid) : w.drawn u = none → ¬w.Known u → Performs i w .nowV7 (some u) (w.draw i u)
  /-- A handler answers anything. -/
  | execute (handler : app.Handler) (command : app.Command)
    (reply : Option (Except CommandError (List app.Event))) :
    Performs i w (.execute handler command) reply (w.observe i (.executed handler command reply))
  /-- A subscriber answers anything. -/
  | handle (subscriber : app.Subscriber) (envelope : NewEventEnvelope)
    (reply : Option (Except EventError Unit)) :
    Performs i w (.handle subscriber envelope) reply
      (w.observe i (.handled subscriber envelope reply))
  /-- The publisher answers anything. -/
  | publish (message : OutboundMessageEnvelope) (reply : Option (Except OutboxError Unit)) :
    Performs i w (.publish message) reply (w.observe i (.published message reply))

/-- An entry of a producer: its row has an id of the producer's own, or one that
is known already. -/
def Producible (w : World app float) (name : QueueName) (entry : (name.queue float).NewEntry) :
    Prop :=
  ∀ appNow now n, (name.queue float).newRow entry appNow now = .ok n →
    w.drawn n.id = none ∨ w.Known n.id

/-- What producers and sweepers do. -/
inductive Outside (w : World app float) : World app float → Prop
  /-- A producer records an entry. -/
  | record (name : QueueName) (entry : (name.queue float).NewEntry) (appNow now : Timestamp) :
    Producible w name entry →
      Outside w (w.commit none name (Repository.record (w.tables name) entry appNow now).2)
  /-- A sweep. -/
  | sweep (name : QueueName) (spec : StaleSpec) (now : Timestamp) :
    Outside w (w.commit none name (Repository.sweep (w.tables name) spec now).2)

end World

section Contents

variable {float : FloatReader}

/-- The columns of a row that a consumer hands over. -/
@[ext] structure Content where
  /-- The type of a command or an event. -/
  type : Option String
  /-- The serialized message. -/
  payload : String
  /-- The serialized metadata. -/
  metadata : Option Jsonb

/-- What a row holds. -/
def contentOf (name : QueueName) (r : Row (name.queue float).Own) : Content :=
  match name with
  | .commands => ⟨some r.own,r.payload,r.metadata⟩
  | .events => ⟨some r.own,r.payload,r.metadata⟩
  | .inbox => ⟨none,r.payload,r.metadata⟩
  | .outbox => ⟨none,r.payload,r.metadata⟩

variable {name : QueueName}

@[simp] theorem contentOf_payload (r : Row (name.queue float).Own) :
    (contentOf name r).payload = r.payload := by cases name <;> rfl

/-- What a call can do to the content and the completion of the row under a key. -/
inductive RowChange (name : QueueName) (inserts : (name.queue float).NewEntry → Prop)
    (completes : Prop) (k : Uuid) :
    Option (Row (name.queue float).Own) → Option (Row (name.queue float).Own) → Prop
  /-- Nothing. -/
  | same (o : Option (Row (name.queue float).Own)) : RowChange name inserts completes k o o
  /-- A row is inserted. -/
  | inserted {entry : (name.queue float).NewEntry} {appNow now : Timestamp}
    {n : NewRow (name.queue float).Own} {metadata : Jsonb} : inserts entry →
      (name.queue float).newRow entry appNow now = .ok n → metadata.value = n.metadata → n.id = k →
      RowChange name inserts completes k none (some (storedRow n metadata))
  /-- A row is rewritten, and may be completed. -/
  | rewritten {r r' : Row (name.queue float).Own} : contentOf name r' = contentOf name r →
      (r'.status = Status.completed.code → completes) →
      RowChange name inserts completes k (some r) (some r')

/-- A finalization leaves what a row holds. -/
theorem Finalization.Writes.content {f : Finalization (name.queue float)} {now : Timestamp}
    {r r' : Row (name.queue float).Own} (h : f.Writes now r r') :
    contentOf name r' = contentOf name r := by
  cases h <;> cases name <;> rfl

/-- The statuses that other calls than a completion leave. -/
theorem open_not_completed {r : Row (name.queue float).Own} {completes : Prop}
    (h : r.status = Status.reserved.code ∨ r.status = Status.failed.code ∨
      r.status = Status.dead.code) (hc : r.status = Status.completed.code) : completes := by
  rcases h with h | h | h <;> rw [h] at hc <;> exact absurd hc (by decide)

/-- Every call of a repository is such a change. -/
theorem step_change (t : Rows (name.queue float)) (c : Call (name.queue float)) (k : Uuid)
    {inserts : (name.queue float).NewEntry → Prop} {completes : Prop}
    (hi : ∀ entry appNow now, c = .record entry appNow now → inserts entry)
    (hc : ∀ token now, c = .finalize .completed k token now → completes) :
    RowChange name inserts completes k (t.find? k) ((step t c).find? k) := by
  have hs := step_row t c k
  generalize hb : t.find? k = before at hs ⊢
  generalize ha : (step t c).find? k = after at hs ⊢
  cases hs with
  | same => exact .same _
  | @recorded entry appNow now n metadata hcall hn hm =>
    have hk := Table.key_of_find? ha
    exact .inserted (hi entry appNow now hcall) hn hm hk
  | @reserved spec draw r hcall he =>
    rcases reservedAndSettled_cases spec draw r with ⟨_,hx⟩ | ⟨error,_,hx⟩ <;> rw [hx]
    · exact .rewritten (by cases name <;> rfl) (open_not_completed (.inl rfl))
    · exact .rewritten (by cases name <;> rfl) (open_not_completed (.inr (.inl rfl)))
  | @finalized f token now r r' hcall hr hw =>
    rw [Table.key_of_find? hb] at hcall
    refine .rewritten (Finalization.Writes.content hw) ?_
    cases f with
    | completed => exact fun _ => hc token now hcall
    | failed maxAttempts reason => exact open_not_completed (.inr (.inl hw.status))
    | dead port reason => exact open_not_completed (.inr (.inr hw.status))
  | @swept spec now r r' hcall hst he =>
    obtain ⟨j,_,rfl⟩ := sweepRow_ok he
    exact .rewritten (by cases name <;> rfl) (open_not_completed (.inr (.inl (sweptRow_status ..))))

end Contents

section Evolution

variable {app : Application} {float : FloatReader} {w w' w'' : World app float}

/-- What the row under a key holds. -/
def World.content (w : World app float) (name : QueueName) (k : Uuid) : Option Content :=
  ((w.tables name).find? k).map (contentOf name)

theorem content_of_find? {name : QueueName} {k : Uuid} {r : Row (name.queue float).Own}
    (h : (w.tables name).find? k = some r) : w.content name k = some (contentOf name r) := by
  rw [World.content,h]
  rfl

theorem known_of_content {name : QueueName} {k : Uuid} {c : Content}
    (h : w.content name k = some c) : w.Known k := by
  refine ⟨name,?_⟩
  rw [World.content,Option.map_eq_some_iff] at h
  obtain ⟨r,hf,_⟩ := h
  rw [hf]
  rfl

/-- No row loses what it holds. -/
def Keeps (w w' : World app float) : Prop :=
  ∀ name k c, w.content name k = some c → w'.content name k = some c

/-- What a step of a run, or of nobody, does to the world. -/
structure Evolves (doer : Option ℕ)
    (inserts : (name : QueueName) → (name.queue float).NewEntry → Prop)
    (completes : QueueName → Uuid → Prop) (w w' : World app float) : Prop where
  /-- Each row changes as a call changes it. -/
  rows : ∀ name k, RowChange name (inserts name) (completes name k) k
    ((w.tables name).find? k) ((w'.tables name).find? k)
  /-- A new row has the doer as its author. -/
  inserted : ∀ name k, (w.tables name).find? k = none →
    ((w'.tables name).find? k).isSome = true → w'.author name k = doer
  /-- The others keep theirs. -/
  authors : ∀ name k, ((w.tables name).find? k).isSome = true → w'.author name k = w.author name k
  /-- Nothing that was observed is forgotten. -/
  logs : ∀ j, w.log j <+: w'.log j
  /-- Only the doer observes. -/
  others : ∀ j, doer ≠ some j → w'.log j = w.log j
  /-- An id that was drawn keeps its run. -/
  drawn : ∀ u j, w.drawn u = some j → w'.drawn u = some j

theorem Evolves.keeps {doer : Option ℕ} {inserts completes}
    (h : Evolves doer inserts completes w w') : Keeps w w' := by
  intro name k c hc
  have hr := h.rows name k
  rw [World.content] at hc ⊢
  generalize (w.tables name).find? k = before at hr hc
  generalize (w'.tables name).find? k = after at hr ⊢
  cases hr with
  | same => exact hc
  | inserted _ _ _ _ => cases hc
  | rewritten he _ =>
    rw [Option.map_some] at hc ⊢
    rw [he]
    exact hc

/-- A call on a table, as such a step. -/
theorem evolves_commit {doer : Option ℕ} {name : QueueName} {t : Rows (name.queue float)}
    {inserts : (name : QueueName) → (name.queue float).NewEntry → Prop}
    {completes : QueueName → Uuid → Prop} (c : Call (name.queue float))
    (ht : t = step (w.tables name) c ∨ t = w.tables name)
    (hi : ∀ entry appNow now, c = .record entry appNow now → inserts name entry)
    (hc : ∀ k token now, c = .finalize .completed k token now → completes name k) :
    Evolves doer inserts completes w (w.commit doer name t) where
  rows := by
    intro name' k
    by_cases hn : name' = name
    · subst hn
      have htab : (w.commit doer name' t).tables name' = t := Function.update_self ..
      rw [htab]
      rcases ht with rfl | rfl
      · exact step_change _ c k hi (hc k)
      · exact .same _
    · have htab : (w.commit doer name t).tables name' = w.tables name' :=
        Function.update_of_ne hn ..
      rw [htab]
      exact .same _
  inserted := by
    intro name' k hb ha
    by_cases hn : name' = name
    · subst hn
      have htab : (w.commit doer name' t).tables name' = t := Function.update_self ..
      rw [htab] at ha
      exact if_pos ⟨rfl,hb,ha⟩
    · have htab : (w.commit doer name t).tables name' = w.tables name' :=
        Function.update_of_ne hn ..
      rw [htab,hb] at ha
      cases ha
  authors := by
    intro name' k hb
    refine if_neg ?_
    rintro ⟨rfl,hnone,_⟩
    rw [hnone] at hb
    cases hb
  logs := fun _ => List.prefix_refl _
  others := fun _ _ => rfl
  drawn := fun _ _ h => h

/-- An answer of the application, as such a step. -/
theorem evolves_observe (i : ℕ) (o : Observation app) {inserts completes} :
    Evolves (some i) inserts completes w (w.observe i o) where
  rows := fun _ _ => .same _
  inserted := by
    intro name k hb ha
    have htab : (w.observe i o).tables name = w.tables name := rfl
    rw [htab,hb] at ha
    cases ha
  authors := fun _ _ _ => rfl
  logs := by
    intro j
    by_cases hj : j = i
    · subst hj
      have hlog : (w.observe j o).log j = w.log j++[o] := Function.update_self ..
      exact ⟨[o],hlog.symm⟩
    · have hlog : (w.observe i o).log j = w.log j := Function.update_of_ne hj ..
      exact hlog ▸ List.prefix_refl _
  others := by
    intro j hj
    have hne : j ≠ i := fun h => hj (by rw [h])
    exact Function.update_of_ne hne ..
  drawn := fun _ _ h => h

/-- What a call of a run does. -/
theorem Performs.evolves {i : ℕ} {op : SystemOp app float} {reply : Option op.Reply}
    (h : Performs i w op reply w') :
    Evolves (some i) (fun name entry => op = .record name entry)
      (fun name k => ∃ token, op = .port name (.completed k token)) w w' := by
  cases h with
  | record name entry appNow now hl =>
    refine evolves_commit (.record entry appNow now) hl.table ?_ nofun
    intro entry' _ _ he
    cases he
    rfl
  | reserve name spec draw hl => exact evolves_commit (.reserve spec draw) hl.table nofun nofun
  | completed name id token now hl =>
    refine evolves_commit (.finalize .completed id token now) hl.table nofun ?_
    intro k token' _ he
    cases he
    exact ⟨token,rfl⟩
  | failed name id token maxAttempts reason now hl =>
    exact evolves_commit (.finalize (.failed maxAttempts reason) id token now) hl.table nofun nofun
  | nowV7 u hd hk =>
    refine ⟨fun _ _ => .same _,?_,fun _ _ _ => rfl,fun _ => List.prefix_refl _,fun _ _ => rfl,?_⟩
    · intro name k hb ha
      have htab : (w.draw i u).tables name = w.tables name := rfl
      rw [htab,hb] at ha
      cases ha
    · intro u' j hj
      refine (Function.update_of_ne ?_ ..).trans hj
      rintro rfl
      rw [hd] at hj
      cases hj
  | execute handler command reply => exact evolves_observe i _
  | handle subscriber envelope reply => exact evolves_observe i _
  | publish message reply => exact evolves_observe i _

/-- What producers and sweepers do. -/
theorem Outside.evolves (h : Outside w w') :
    Evolves none (fun name entry => Producible w name entry) (fun _ _ => False) w w' := by
  cases h with
  | record name entry appNow now hp =>
    refine evolves_commit (.record entry appNow now) (.inl rfl) ?_ nofun
    intro entry' _ _ he
    cases he
    exact hp
  | sweep name spec now => exact evolves_commit (.sweep spec now) (.inl rfl) nofun nofun

end Evolution

end Mulac.Pipeline
