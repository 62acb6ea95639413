import Mulac.AmqpPublishing
import Mulac.HandoffRules
import Mulac.QueueRuns

/-!
# Publication under confirms

The outbox consumers over one publisher, call by call, against a broker that
answers as it likes. An entry is completed only after the broker has taken that
very publication, in the sense of the publisher: the confirmed publisher takes
nothing but a plain acknowledgement, the other one also takes a returned message
and a channel without confirms.
-/

namespace Mulac.Publication

open Identifiers Postgres QueueDomain KeyedTable Envelopes QueueRow Repository RepositoryContracts
  FourQueues QueueCalls QueueRuns PanicProgram Interference Consumers PortCalls ItemRules Pipeline
  HandoffRules AmqpPublishing

variable {float : SerdeJson.FloatReader}

section Workers

/-- The calls of an outbox consumer, down to the table and the client. -/
inductive WorkerOp (float : SerdeJson.FloatReader) where
  /-- A port call. -/
  | port (op : PortOp (QueueName.outbox.queue float))
  /-- A call of the publisher. -/
  | publisher (op : PublisherOp)

/-- What a call returns. -/
abbrev WorkerOp.Reply : WorkerOp float → Type
  | port op => op.Reply
  | publisher op => op.Reply

/-- The ports of the consumer. -/
def outboxPorts : Ports (QueueName.outbox.queue float) (WorkerOp float) WorkerOp.Reply where
  reserve := fun spec => Prog.perform (WorkerOp.port (.reserve spec))
  completed := fun id token => Prog.perform (WorkerOp.port (.completed id token))
  failed := fun id token maxAttempts reason =>
    Prog.perform (WorkerOp.port (.failed id token maxAttempts reason))

/-- A call of the publisher. -/
def publisherCall (op : PublisherOp) : Prog (WorkerOp float) WorkerOp.Reply op.Reply :=
  Prog.perform (WorkerOp.publisher op)

/-- What awaiting a publication came to; nothing is a panic. -/
abbrev Answer := Option (Timed (Except LapinError PublisherConfirm))

/-- What a run does that others can see. -/
inductive Act where
  /-- It publishes a request. -/
  | published (request : PublishRequest) (answer : Answer)
  /-- It reports an entry as completed. -/
  | completing (id token : Uuid)

/-- The publication of a call. -/
def publication : (op : PublisherOp) → Option op.Reply → List Act
  | .client (.basicPublish _ request),reply => [.published request (reply.map .done)]
  | .timed (.basicPublish _ request),reply => [.published request reply]
  | _,_ => []

/-- What a call shows. -/
def acts : (op : WorkerOp float) → Option op.Reply → List Act
  | .port (.completed id token),_ => [.completing id token]
  | .port (.reserve _),_ => []
  | .port (.failed _ _ _ _),_ => []
  | .publisher op,reply => publication op reply

/-- What a reservation hands out. -/
def entriesOf : Option (Except OutboxError (List OutboxEntryEnvelope)) → List OutboxEntryEnvelope
  | some (.ok entries) => entries
  | _ => []

/-- What an answer hands out to a run. -/
def handsOut (i : ℕ) : (op : WorkerOp float) → Option op.Reply → List (ℕ × OutboxEntryEnvelope)
  | .port (.reserve _),reply => (entriesOf reply).map fun e => (i,e)
  | .port (.completed _ _),_ => []
  | .port (.failed _ _ _ _),_ => []
  | .publisher _,_ => []

/-- What a call may answer and leave of the table. -/
inductive Effect (t : Rows (QueueName.outbox.queue float)) :
    (op : WorkerOp float) → Option op.Reply → Rows (QueueName.outbox.queue float) → Prop
  /-- `reserve`. -/
  | reserve (spec : ReservableSpec) (draw : ReserveDraw (QueueName.outbox.queue float))
    {reply : Option (Except OutboxError (List OutboxEntryEnvelope))}
    {t' : Rows (QueueName.outbox.queue float)} :
    Lossy t (Repository.reserve t spec draw) reply t' → Effect t (.port (.reserve spec)) reply t'
  /-- `completed`. -/
  | completed (id token : Uuid) (now : Timestamp) {reply : Option (Except OutboxError Unit)}
    {t' : Rows (QueueName.outbox.queue float)} :
    Lossy t (Repository.completed t id token now) reply t' →
      Effect t (.port (.completed id token)) reply t'
  /-- `failed`. -/
  | failed (id token : Uuid) (maxAttempts : ℤ) (reason : Option String) (now : Timestamp)
    {reply : Option (Except OutboxError Unit)} {t' : Rows (QueueName.outbox.queue float)} :
    Lossy t (Repository.failed t id token maxAttempts reason now) reply t' →
      Effect t (.port (.failed id token maxAttempts reason)) reply t'
  /-- Runtime, lock and client answer anything. -/
  | publisher (op : PublisherOp) (reply : Option op.Reply) : Effect t (.publisher op) reply t

/-- The outbox, what was handed to each run, and what each run did. -/
structure World (float : SerdeJson.FloatReader) where
  /-- The table. -/
  rows : Rows (QueueName.outbox.queue float)
  /-- The entries that a reservation of the run handed out. -/
  handedTo : List (ℕ × OutboxEntryEnvelope)
  /-- What the run did, in order. -/
  log : ℕ → List Act

/-- What a call of a run may answer and leave. -/
structure Performs (i : ℕ) (op : WorkerOp float) (w : World float) (reply : Option op.Reply)
    (w' : World float) : Prop where
  /-- The table changes as the repository changes it. -/
  rows : Effect w.rows op reply w'.rows
  /-- A reservation hands out its list to the run. -/
  handedTo : w'.handedTo = w.handedTo++handsOut i op reply
  /-- The run remembers what it did. -/
  log : w'.log = Function.update w.log i (w.log i++acts op reply)

/-- What producers, sweepers and other clients do: anything but to complete an entry. -/
def Outside (w w' : World float) : Prop :=
  ∃ c : Call (QueueName.outbox.queue float), (∀ k token now, c ≠ .finalize .completed k token now) ∧
    w' = { w with rows := step w.rows c }

/-- The outbox consumers over one publisher. -/
def team (float : SerdeJson.FloatReader) (p : Publisher) :
    Team (WorkerOp float) WorkerOp.Reply (World float) where
  perform := Performs
  outside := Outside
  programs := fun batch => ∃ spec,
    batch = (publishBatch float outboxPorts (p.publish publisherCall) spec >>= fun _ => .ret ())

end Workers

section Invariant

variable {p : Publisher} {w w' : World float} {i : ℕ}

/-- The answers that a publisher takes for a success. -/
def Accepted (p : Publisher) (answer : Answer) : Prop :=
  ∃ c, answer = some (.done (.ok (.ok c))) ∧ p.outcome c = .ok ()

/-- A run published what the row holds, was answered so, and then reported the row
as completed. -/
def Published (p : Publisher) (accepts : Answer → Prop) (w : World float)
    (r : Row (QueueName.outbox.queue float).Own) : Prop :=
  ∃ i token metadata answer, (QueueName.outbox.queue float).readMetadata r.metadata = .ok metadata ∧
    accepts answer ∧
    [.published (p.request ⟨r.payload,metadata⟩) answer,.completing r.id token] <:+: w.log i

/-- An entry was published and taken, and this is the last that its run did. -/
def Taken (p : Publisher) (i : ℕ) (e : OutboxEntryEnvelope) (w : World float) : Prop :=
  (i,e) ∈ w.handedTo ∧ ∃ answer, Accepted p answer ∧
    [.published (p.request ⟨e.payload,e.metadata⟩) answer] <:+ w.log i

/-- What a run owes before a call: an entry that it completes was taken. -/
def Owes (p : Publisher) (i : ℕ) : WorkerOp float → World float → Prop
  | .port (.completed id _),w => ∃ e, e.id = id ∧ Taken p i e w
  | .port (.reserve _),_ => True
  | .port (.failed _ _ _ _),_ => True
  | .publisher _,_ => True

/-- What holds of every world. -/
structure Inv (p : Publisher) (t : Rows (QueueName.outbox.queue float)) (w : World float) :
    Prop where
  /-- A row is completed from the start, or was published first. -/
  completed : ∀ k r, w.rows.find? k = some r → r.status = Status.completed.code →
    (∃ r₀, t.find? k = some r₀ ∧ r₀.status = Status.completed.code) ∨ Published p (Accepted p) w r
  /-- What was handed out is what its row holds. -/
  handed : ∀ x ∈ w.handedTo, ∃ r, w.rows.find? x.2.id = some r ∧
    Reads float .outbox (contentOf .outbox r) x.2

/-- Nobody forgets what was done, and nothing is handed back. -/
structure Grows (w w' : World float) : Prop where
  /-- What was done stays done. -/
  logs : ∀ j, w.log j <+: w'.log j
  /-- What was handed out stays handed out. -/
  handed : w.handedTo ⊆ w'.handedTo

theorem Performs.grows {op : WorkerOp float} {reply : Option op.Reply}
    (h : Performs i op w reply w') : Grows w w' where
  logs := by
    intro j
    rw [h.log]
    by_cases hj : j = i
    · subst hj
      rw [Function.update_self]
      exact List.prefix_append _ _
    · have hsame : Function.update w.log i (w.log i++acts op reply) j = w.log j :=
        Function.update_of_ne hj ..
      exact hsame ▸ List.prefix_refl _
  handed := h.handedTo ▸ List.subset_append_left _ _

/-- What was published for a row stays published, while the row keeps what it holds. -/
theorem Published.mono {accepts : Answer → Prop} {r r' : Row (QueueName.outbox.queue float).Own}
    (h : Published p accepts w r) (hg : Grows w w') (hid : r'.id = r.id)
    (hc : contentOf .outbox r' = contentOf .outbox r) : Published p accepts w' r' := by
  obtain ⟨i,token,metadata,answer,hm,ha,hlog⟩ := h
  have hpayload : r'.payload = r.payload := congrArg Content.payload hc
  have hmetadata : r'.metadata = r.metadata := congrArg Content.metadata hc
  refine ⟨i,token,metadata,answer,hmetadata ▸ hm,ha,?_⟩
  rw [hpayload,hid]
  exact hlog.trans (hg.logs i).isInfix

/-- What a call that is lost or not does to a row. -/
theorem change_of_call {completes : Prop} {k : Uuid} (c : Call (QueueName.outbox.queue float))
    (hrows : w'.rows = step w.rows c ∨ w'.rows = w.rows)
    (hc : ∀ token now, c = .finalize .completed k token now → completes) :
    RowChange .outbox (fun _ => True) completes k (w.rows.find? k) (w'.rows.find? k) := by
  rcases hrows with hr | hr <;> rw [hr]
  · exact step_change w.rows c k (fun _ _ _ _ => trivial) hc
  · exact .same _

/-- The invariant is kept, if only what was published becomes completed. -/
theorem Inv.change {t : Rows (QueueName.outbox.queue float)} (h : Inv p t w) (hg : Grows w w')
    (hchange : ∀ k, RowChange .outbox (fun _ => True)
      (∀ r, w.rows.find? k = some r → Published p (Accepted p) w' r) k (w.rows.find? k)
      (w'.rows.find? k))
    (hh : ∀ x ∈ w'.handedTo, x ∈ w.handedTo ∨ ∃ r, w'.rows.find? x.2.id = some r ∧
      Reads float .outbox (contentOf .outbox r) x.2) : Inv p t w' := by
  refine ⟨fun k r hf hst => ?_,fun x hx => ?_⟩
  · have hk := hchange k
    rw [hf] at hk
    generalize hb : w.rows.find? k = before at hk
    cases hk with
    | same => exact (h.completed k r hb hst).imp_right fun hp => hp.mono hg rfl rfl
    | inserted _ _ _ _ => exact absurd hst (show Status.received.code ≠ _ by decide)
    | @rewritten r₀ _ he hcomp =>
      have hid : r.id = r₀.id := (Table.key_of_find? hf).trans (Table.key_of_find? hb).symm
      exact .inr ((hcomp hst r₀ rfl).mono ⟨fun _ => List.prefix_refl _,List.Subset.refl _⟩ hid he)
  · rcases hh x hx with hold | hnew
    · obtain ⟨r,hf,hr⟩ := h.handed x hold
      have hk := hchange x.2.id
      rw [hf] at hk
      generalize w'.rows.find? x.2.id = after at hk
      cases hk with
      | same => exact ⟨r,rfl,hr⟩
      | rewritten he _ => exact ⟨_,rfl,he ▸ hr⟩
    · exact hnew

/-- A call whose debt is paid keeps the invariant. -/
theorem Inv.step {t : Rows (QueueName.outbox.queue float)} (h : Inv p t w)
    {op : WorkerOp float} {reply : Option op.Reply} (ho : Owes p i op w)
    (hp : Performs i op w reply w') : Inv p t w' := by
  have hg := hp.grows
  obtain ⟨heffect,hhanded,hlog⟩ := hp
  have hstill : handsOut i op reply = [] → ∀ x ∈ w'.handedTo, x ∈ w.handedTo ∨
      ∃ r, w'.rows.find? x.2.id = some r ∧ Reads float .outbox (contentOf .outbox r) x.2 := by
    intro hn x hx
    rw [hhanded,hn,List.append_nil] at hx
    exact .inl hx
  generalize hrows : w'.rows = t' at heffect
  cases heffect with
  | @reserve spec draw reply _ hl =>
    refine h.change hg (fun k => change_of_call (.reserve spec draw) (hrows ▸ hl.table)
      fun _ _ hcall => by cases hcall) fun x hx => ?_
    rw [hhanded] at hx
    refine (List.mem_append.mp hx).imp_right fun hx => ?_
    obtain ⟨e,he,rfl⟩ := List.mem_map.mp hx
    rcases reply with _ | error | entries
    · cases he
    · cases he
    · obtain ⟨hok,rfl⟩ := hl.of_ok
      have hout : e ∈ handedOut w.rows (.reserve spec draw) := by
        rw [handedOut,hok]
        exact he
      obtain ⟨_,_,r,hcall,_,_,hd,hf,hid,_⟩ := handedOut_row hout
      cases hcall
      refine ⟨_,?_,decode_reads hd⟩
      rw [hrows]
      exact (congrArg (Table.find? _) hid).trans hf
  | completed id token now hl =>
    refine h.change hg (fun k => change_of_call (.finalize .completed id token now)
      (hrows ▸ hl.table) fun token' now' hcall r hf => ?_) (hstill rfl)
    cases hcall
    obtain ⟨e,rfl,hmem,answer,ha,hlast⟩ := ho
    obtain ⟨r',hf',hpayload,hmeta⟩ := h.handed _ hmem
    rw [hf] at hf'
    cases hf'
    have hrow : r.payload = e.payload := hpayload
    obtain ⟨before,hbefore⟩ := hlast
    refine ⟨i,token,e.metadata,answer,hmeta,ha,before,[],?_⟩
    rw [hlog,Function.update_self,Table.key_of_find? hf,hrow,← hbefore,List.append_nil,
      List.append_assoc]
    rfl
  | failed id token maxAttempts reason now hl =>
    exact h.change hg (fun k => change_of_call (.finalize (.failed maxAttempts reason) id token now)
      (hrows ▸ hl.table) fun _ _ hcall => by cases hcall) (hstill rfl)
  | publisher op reply =>
    refine h.change hg (fun k => ?_) (hstill rfl)
    rw [hrows]
    exact .same _

/-- Between two calls of a run, others neither act in its name nor take back what it
was handed. -/
structure Rely (i : ℕ) (w w' : World float) : Prop where
  /-- Only the run itself adds to its log. -/
  log : w'.log i = w.log i
  /-- What was handed out stays handed out. -/
  handed : w.handedTo ⊆ w'.handedTo

theorem Taken.wait {e : OutboxEntryEnvelope} (h : Taken p i e w) (hr : Rely i w w') :
    Taken p i e w' := ⟨hr.handed h.1,hr.log ▸ h.2⟩

/-- What the runs owe to and expect of each other. -/
def discipline (p : Publisher) (t : Rows (QueueName.outbox.queue float)) :
    (team float p).Discipline where
  rely := Rely
  inv := Inv p t
  owes := Owes p
  new := fun _ _ => True
  rely_refl := fun _ _ => ⟨rfl,List.Subset.refl _⟩
  rely_trans := fun h h' => ⟨h'.log.trans h.log,List.Subset.trans h.handed h'.handed⟩
  new_rely := fun _ _ => trivial
  call_inv := fun hi ho hp => hi.step ho hp
  call_rely := by
    intro i j op w reply w' _ _ hp hj
    refine ⟨?_,hp.grows.handed⟩
    rw [hp.log,Function.update_of_ne hj]
  outside_inv := by
    rintro w w' hi ⟨c,hc,rfl⟩
    exact hi.change ⟨fun _ => List.prefix_refl _,List.Subset.refl _⟩
      (fun k => change_of_call c (.inl rfl) fun token now hcall => absurd hcall (hc k token now))
      fun x hx => .inl hx
  outside_rely := by
    rintro j w w' _ ⟨c,_,rfl⟩
    exact ⟨rfl,List.Subset.refl _⟩

end Invariant

section Rules

variable {t : Rows (QueueName.outbox.queue float)} {w : World float} {i : ℕ}

/-- The rule of a call of a publisher: it adds its publication to the log. -/
theorem safe_call {p : Publisher} (op : PublisherOp) {before : List Act} (h : w.log i = before) :
    Safe ((discipline p t).rules i) (publisherCall op)
      (fun o v => v.log i = before++publication op o) w := by
  refine Safe.perform fun v hv _ => ⟨trivial,fun reply u hs _ x hx _ => ?_⟩
  have hrun : u.log = Function.update v.log i (v.log i++publication op reply) := hs.log
  have hown : v.log i = w.log i := hv.log
  have hlast : x.log i = u.log i := hx.log
  change x.log i = before++publication op reply
  rw [hlast,hrun,Function.update_self,hown,h]

/-- The last that a run did is the publication of a message, which was taken. -/
def Sent (p : Publisher) (i : ℕ) (message : OutboundMessageEnvelope) (w : World float) : Prop :=
  ∃ answer, Accepted p answer ∧ [.published (p.request message) answer] <:+ w.log i

/-- The rule of `AmqpPublisher`. -/
theorem safe_amqp (p : AmqpPublisher) (message : OutboundMessageEnvelope) :
    Safe ((discipline (.amqp p) t).rules i) (p.publish publisherCall message)
      (fun o v => o = some (.ok ()) → Sent (.amqp p) i message v) w := by
  have hasync : ∀ w, Safe ((discipline (.amqp p) t).rules i)
      (p.publishAsync publisherCall message)
      (fun o v => o = some (.ok ()) → Sent (.amqp p) i message v) w := by
    intro w
    refine Safe.bind ((safe_call _ rfl).mono ?_)
    rintro (_ | err | _) v _
    · exact nofun
    · exact fun _ _ _ => nofun
    · refine Safe.bind ((safe_call _ rfl).mono ?_)
      rintro (_ | err | err | confirmation) u hu
      · exact nofun
      · exact fun _ _ _ => nofun
      · exact fun _ _ _ => nofun
      · intro x hx _ ho
        have hlast : x.log i = u.log i := hx.log
        refine ⟨_,⟨confirmation,rfl,Option.some.inj ho⟩,?_⟩
        rw [hlast,hu]
        exact List.suffix_append _ _
  refine Safe.bind ((safe_call _ rfl).mono ?_)
  rintro (_ | _ | _) v _
  · exact nofun
  · refine Safe.bind ((safe_call _ rfl).mono ?_)
    rintro (_ | err | _) u _
    · exact nofun
    · exact fun _ _ _ => nofun
    · exact hasync u
  · exact hasync v

/-- The rule of a call under the timeout. -/
theorem safe_awaited {p : Publisher} (op : ClientOp) :
    Safe ((discipline p t).rules i) (ConfirmedAmqpPublisher.awaited publisherCall op)
      (fun o v => ∀ answer, o = some (.ok answer) →
        publication (.timed op) (some (.done (.ok answer))) <:+ v.log i) w := by
  refine Safe.bind ((safe_call _ rfl).mono ?_)
  rintro (_ | ⟨err | answer⟩ | _) v hv
  · exact nofun
  · exact fun _ _ _ _ => nofun
  · intro x hx _ answer' ho
    cases ho
    have hlast : x.log i = v.log i := hx.log
    rw [hlast,hv]
    exact List.suffix_append _ _
  · exact fun _ _ _ _ => nofun

/-- The rule of `connect`. -/
theorem safe_connect {p : Publisher} (c : ConfirmedAmqpPublisher) :
    Safe ((discipline p t).rules i) (c.connect publisherCall) (fun _ _ => True) w := by
  refine Safe.bind_ok ((safe_awaited _).mono fun o v _ connection _ => ?_)
    (fun _ => trivial) fun _ _ _ _ _ => trivial
  refine Safe.bind_ok ((safe_awaited _).mono fun o v _ channel _ => ?_)
    (fun _ => trivial) fun _ _ _ _ _ => trivial
  exact Safe.bind_ret ((safe_awaited _).mono fun _ _ _ => trivial)

/-- The rule of the block under the timeout. -/
theorem safe_attempt (p : ConfirmedAmqpPublisher) (message : OutboundMessageEnvelope)
    (connection : Held) :
    Safe ((discipline (.confirmed p) t).rules i) (p.attempt publisherCall message connection)
      (fun o v => ∀ held, o = some (held,.ok ()) → Sent (.confirmed p) i message v) w := by
  have hconnected : Safe ((discipline (.confirmed p) t).rules i)
      (p.connected publisherCall connection) (fun _ _ => True) w := by
    cases connection with
    | none => exact safe_connect p
    | some connection => exact fun _ _ _ => trivial
  refine Safe.bind (hconnected.mono ?_)
  rintro (_ | err | connection) v _
  · exact nofun
  · exact fun _ _ _ _ => nofun
  · refine Safe.bind ((safe_awaited _).mono ?_)
    rintro (_ | err | err | confirmation) u hu
    · exact nofun
    · exact fun _ _ _ _ => nofun
    · exact fun _ _ _ _ => nofun
    · intro x hx _ held ho
      have hlast : x.log i = u.log i := hx.log
      refine ⟨_,⟨confirmation,rfl,congrArg Prod.snd (Option.some.inj ho)⟩,?_⟩
      rw [hlast]
      exact hu _ rfl

/-- The rule of `ConfirmedAmqpPublisher`. -/
theorem safe_confirmed (p : ConfirmedAmqpPublisher) (message : OutboundMessageEnvelope) :
    Safe ((discipline (.confirmed p) t).rules i) (p.publish publisherCall message)
      (fun o v => o = some (.ok ()) → Sent (.confirmed p) i message v) w := by
  refine Safe.bind ((safe_call _ rfl).mono ?_)
  rintro (_ | _ | _) v _
  · exact nofun
  · exact fun _ _ _ => nofun
  · refine Safe.bind ((safe_call _ rfl).mono ?_)
    rintro (_ | connection) u _
    · exact nofun
    · refine Safe.bind ((safe_attempt p message connection).mono ?_)
      rintro (_ | ⟨held,result⟩) x hsent
      · exact nofun
      · refine Safe.bind ((safe_call _ rfl).mono ?_)
        rintro (_ | _) y hy
        · exact nofun
        · intro z hz _ ho
          cases ho
          obtain ⟨answer,ha,hlast⟩ := hsent held rfl
          have hown : z.log i = y.log i := hz.log
          refine ⟨answer,ha,?_⟩
          rw [hown,hy]
          exact (List.append_nil (x.log i)).symm ▸ hlast

/-- The rule of a publisher. -/
theorem safe_publish (p : Publisher) (message : OutboundMessageEnvelope) :
    Safe ((discipline p t).rules i) (p.publish publisherCall message)
      (fun o v => o = some (.ok ()) → Sent p i message v) w := by
  cases p with
  | amqp p => exact safe_amqp p message
  | confirmed p => exact safe_confirmed p message

/-- An entry with its token was handed to the run. -/
def Handed (i : ℕ) (e : OutboxEntryEnvelope) (w : World float) : Prop :=
  (∃ token, e.reservationId = some token) ∧ (i,e) ∈ w.handedTo

/-- The rule of `reserve`: its entries were handed to the run. -/
theorem safe_reserve (p : Publisher) (spec : ReservableSpec) :
    Safe ((discipline p t).rules i)
      ((outboxPorts : Ports _ (WorkerOp float) WorkerOp.Reply).reserve spec)
      (fun o w => ∀ entries, o = some (.ok entries) →
        (entries.map fun e => ((QueueName.outbox.queue float).handed e).id).Nodup ∧
          ∀ e ∈ entries, Handed i e w) w := by
  refine Safe.perform fun v hv _ => ⟨trivial,?_⟩
  rintro reply u hs _ x hx _ entries rfl
  have heffect : Effect v.rows (.port (.reserve spec)) (some (Except.ok entries)) u.rows :=
    hs.rows
  have hhanded := hs.handedTo
  cases heffect with
  | reserve _ draw hl =>
    obtain ⟨hok,_⟩ := hl.of_ok
    have hout : handedOut v.rows (.reserve spec draw) = entries := by
      rw [handedOut,hok]
    refine ⟨hout ▸ handedOut_nodup _ _,fun e he => ⟨?_,hx.handed ?_⟩⟩
    · rw [← hout] at he
      exact token_of_handedOut he
    · rw [hhanded]
      exact List.mem_append_right _ (List.mem_map.mpr ⟨e,he,rfl⟩)

/-- The rule of the work on an entry: a success is a publication of the entry. -/
theorem safe_publishEntry (p : Publisher) {e : OutboxEntryEnvelope} (hmem : (i,e) ∈ w.handedTo) :
    Safe ((discipline p t).rules i) (publishEntry (p.publish publisherCall) e)
      (fun o v => o = some (.ok ()) → Taken p i e v) w := by
  unfold publishEntry OutboundMessageEnvelope.ofEntry
  split
  · exact fun _ _ _ => nofun
  · next message hmessage =>
    split at hmessage
    · cases hmessage
    · cases hmessage
      have hframe := Safe.frame (R:=(discipline p t).rules i)
        (F:=fun x => (i,e) ∈ x.handedTo) (fun a b ha hr => Rely.handed hr ha)
        (fun a op reply b ha _ _ hs => (Performs.grows hs).handed ha)
        (safe_publish p ⟨e.payload,e.metadata⟩) hmem
      exact hframe.mono fun o x h ho => ⟨h.2,h.1 ho⟩

/-- A batch completes only what was taken. -/
theorem safe_batch (p : Publisher) (spec : ReservableSpec) :
    Safe ((discipline p t).rules i)
      (publishBatch float outboxPorts (p.publish publisherCall) spec >>= fun _ => .ret ())
      (fun _ _ => True) w := by
  have hbatch : Safe ((discipline p t).rules i)
      (publishBatch float outboxPorts (p.publish publisherCall) spec) (fun _ _ => True) w := by
    refine safe_entries (Handed i) (fun _ _ _ => True) ?_ ?_ ?_ ?_
    · exact fun e a b h hr => ⟨h.1,hr.handed h.2⟩
    · exact fun _ e' _ a op reply b h _ _ _ hs => ⟨h.1,(Performs.grows hs).handed h.2⟩
    · exact safe_reserve p spec
    · rintro e errors v _ ⟨⟨token,ht⟩,hmem⟩
      refine safe_processEntry (Taken p i e) ht ?_ ?_ ?_
      · refine ((safe_publishEntry p hmem).also fun _ _ => trivial).mono ?_
        exact fun o x h ho y hy _ => (h ho).wait hy
      · exact fun v' _ hw => Safe.perform fun u hu _ => ⟨⟨⟨e,rfl,hw.wait hu⟩,trivial⟩,
          fun _ _ _ _ _ _ _ => trivial⟩
      · exact fun reason v' => Safe.perform fun _ _ _ => ⟨⟨trivial,trivial⟩,
          fun _ _ _ _ _ _ _ => trivial⟩
  exact hbatch.bind_ret

/-- The invariant holds of every world that the consumers reach. -/
theorem reaches_inv {p : Publisher} {s : Pool (WorkerOp float) WorkerOp.Reply (World float)}
    (h : (team float p).Reaches ⟨t,[],fun _ => []⟩ s) : Inv p t s.world := by
  refine ((discipline p t).reaches_safe ?_ (fun _ => trivial) ?_ h).inv
  · exact ⟨fun k r hf hst => .inl ⟨r,hf,hst⟩,List.forall_mem_nil _⟩
  · rintro i batch w ⟨spec,rfl⟩ _ _
    exact safe_batch p spec

end Rules

section Guarantee

/-- The broker took the message and returned nothing. -/
def Routed (answer : Answer) : Prop := answer = some (.done (.ok (.ok (.ack none))))

/-- The publication went through, and the broker did not refuse the message. -/
def NotRefused (answer : Answer) : Prop :=
  ∃ c, answer = some (.done (.ok (.ok c))) ∧ ∀ returned, c ≠ .nack returned

/-- Whatever the consumers of a publisher do, in whatever order, a row that they
complete was published and answered so just before. -/
def CompletesOnly (float : SerdeJson.FloatReader) (p : Publisher) (accepts : Answer → Prop) :
    Prop :=
  ∀ (t : Rows (QueueName.outbox.queue float)) s, (team float p).Reaches ⟨t,[],fun _ => []⟩ s →
    ∀ k r, s.world.rows.find? k = some r → r.status = Status.completed.code →
      (∃ r₀, t.find? k = some r₀ ∧ r₀.status = Status.completed.code) ∨
        Published p accepts s.world r

/-- Two publishers call the same answer a success. -/
def Agree (p p' : Publisher) (held : Held) (answer : Except LapinError PublisherConfirm)
    (message : OutboundMessageEnvelope) : Prop :=
  (publishes p held answer message).1 = some (.ok ()) ↔
    (publishes p' held answer message).1 = some (.ok ())

theorem Published.weaken {p : Publisher} {accepts accepts' : Answer → Prop} {w : World float}
    {r : Row (QueueName.outbox.queue float).Own} (h : Published p accepts w r)
    (hi : ∀ answer, accepts answer → accepts' answer) : Published p accepts' w r := by
  obtain ⟨i,token,metadata,answer,hm,ha,hlog⟩ := h
  exact ⟨i,token,metadata,answer,hm,hi answer ha,hlog⟩

/-- A publication succeeds under the answers that its publisher takes. -/
theorem publishes_ok (p : Publisher) (held : Held) (answer : Except LapinError PublisherConfirm)
    (message : OutboundMessageEnvelope) :
    (publishes p held answer message).1 = some (.ok ()) ↔
      ∃ c, answer = .ok (.ok c) ∧ p.outcome c = .ok () := by
  obtain ⟨result,he,hr⟩ := publishes_eq p held answer message
  rw [he,Option.some.injEq]
  exact hr

theorem confirmed_outcome {p : ConfirmedAmqpPublisher} {c : Confirmation} :
    (Publisher.confirmed p).outcome c = .ok () ↔ c = .ack none := by
  rcases c with (_ | returned) | returned | _ <;>
    simp [Publisher.outcome,ConfirmedAmqpPublisher.requireConfirmation]

theorem amqp_outcome {p : AmqpPublisher} {c : Confirmation} :
    (Publisher.amqp p).outcome c = .ok () ↔ ∀ returned, c ≠ .nack returned := by
  rcases c with returned | returned | _ <;> simp [Publisher.outcome,AmqpPublisher.outcome]

/-- Publication under confirms: a row that becomes completed was published just before,
and the broker acknowledged that very publication without returning it, if the publisher
is the confirmed one, or did not refuse it, if it is the other. The two send the
same request, but for the delivery mode and the mandatory flag, and agree on every answer
but a returned message and a channel without confirms. -/
theorem publication_confirms (float : SerdeJson.FloatReader) :
    (∀ p, CompletesOnly float (.confirmed p) Routed) ∧
      (∀ p, CompletesOnly float (.amqp p) NotRefused) ∧
      ∀ (channel : Channel) (url exchange : String) (mandatory : Bool) (held : Held)
        (answer : Except LapinError PublisherConfirm) (message : OutboundMessageEnvelope),
        (∃ request : PublishRequest, request.mandatory = mandatory ∧
          (publishes (.amqp ⟨channel,exchange,mandatory,"application/json"⟩) held answer
            message).2 = [request] ∧
          (publishes (.confirmed ⟨url,exchange⟩) held answer message).2 =
            [{ request with
                mandatory := true
                properties := { request.properties with deliveryMode := some 2 } }]) ∧
        (Agree (.amqp ⟨channel,exchange,mandatory,"application/json"⟩)
            (.confirmed ⟨url,exchange⟩) held answer message ↔
          (∀ returned, answer ≠ .ok (.ok (.ack (some returned)))) ∧
            answer ≠ .ok (.ok .notRequested)) := by
  refine ⟨?_,?_,?_⟩
  · intro p t s h k r hf hst
    refine ((reaches_inv h).completed k r hf hst).imp_right fun hp => hp.weaken ?_
    rintro _ ⟨c,rfl,hc⟩
    rw [confirmed_outcome.mp hc]
    rfl
  · intro p t s h k r hf hst
    refine ((reaches_inv h).completed k r hf hst).imp_right fun hp => hp.weaken ?_
    exact fun answer ⟨c,ha,hc⟩ => ⟨c,ha,amqp_outcome.mp hc⟩
  · intro channel url exchange mandatory held answer message
    refine ⟨⟨AmqpPublisher.request ⟨channel,exchange,mandatory,"application/json"⟩ message,rfl,
      ?_,?_⟩,?_⟩
    · obtain ⟨_,he,_⟩ := publishes_eq (.amqp ⟨channel,exchange,mandatory,"application/json"⟩) held
        answer message
      rw [he]
      rfl
    · obtain ⟨_,he,_⟩ := publishes_eq (.confirmed ⟨url,exchange⟩) held answer message
      have hproperties : ConfirmedAmqpPublisher.propertiesFor message =
          { AmqpPublisher.propertiesFor ⟨exchange,mandatory,"application/json"⟩ message with
            deliveryMode := some 2 } := propertiesFor_eq rfl message
      rw [he,Publisher.request,ConfirmedAmqpPublisher.request,hproperties]
      rfl
    · rw [Agree,publishes_ok,publishes_ok]
      simp only [confirmed_outcome,amqp_outcome]
      rcases answer with err | err | (_ | returned) | returned | _ <;> simp

/-- A publisher that has what it cannot route returned. -/
def mandatoryPublisher : Publisher := .amqp ⟨⟨0⟩,⟨"offers",true,"application/json"⟩⟩

/-- A message for a queue that nobody has bound. -/
def offer : OutboundMessageEnvelope :=
  ⟨"{}",.ofNew ⟨none,.fromU128 1,none,none,none,"OfferCreated","missing",none,none⟩⟩

/-- The offer waits. -/
def waitingOffer : Rows (QueueName.outbox.queue .integersOnly) :=
  (record Table.empty (⟨.fromU128 1,offer.payload,offer.metadata,0,0⟩ : NewOutboxEntry) 0 0).2

/-- The offer is reserved. -/
def reservedOffer : Rows (QueueName.outbox.queue .integersOnly) :=
  (reserve waitingOffer singleSpec (plainDraw (.fromU128 7) 0)).2

/-- The offer is completed. -/
def completedOffer : Rows (QueueName.outbox.queue .integersOnly) :=
  (completed reservedOffer (.fromU128 1) (.fromU128 7) 1).2

/-- The offer as a reservation hands it out. -/
def offerEnvelope : OutboxEntryEnvelope :=
  ⟨.fromU128 1,.reserved,offer.payload,offer.metadata,0,1,some (.fromU128 7),some 0,0,0,none,none,
    none⟩

theorem reserve_offer :
    (reserve waitingOffer singleSpec (plainDraw (.fromU128 7) 0)).1 = .ok [offerEnvelope] := rfl

/-- The broker acknowledges the message and returns it. -/
def returnedOffer : Except LapinError PublisherConfirm := .ok (.ok (.ack (some ⟨312,"NO_ROUTE"⟩)))

/-- The log of the run that published it. -/
def offerLog : List Act :=
  [.published (mandatoryPublisher.request offer) (some (.done returnedOffer)),
    .completing (.fromU128 1) (.fromU128 7)]

/-- The world after a call. -/
def World.after (w : World float) (i : ℕ) (op : WorkerOp float) (reply : Option op.Reply)
    (t : Rows (QueueName.outbox.queue float)) : World float :=
  ⟨t,w.handedTo++handsOut i op reply,Function.update w.log i (w.log i++acts op reply)⟩

theorem performs_after {w : World float} {i : ℕ} {op : WorkerOp float}
    {reply : Option op.Reply} {t : Rows (QueueName.outbox.queue float)}
    (h : Effect w.rows op reply t) : Performs i op w reply (w.after i op reply t) := ⟨h,rfl,rfl⟩

/-- One batch publishes the offer and completes it. -/
theorem offer_completed : ∃ s, (team .integersOnly mandatoryPublisher).Reaches
    ⟨waitingOffer,[],fun _ => []⟩ s ∧ s.world.rows = completedOffer ∧
      s.world.log 0 = offerLog ∧ ∀ j ≠ 0, s.world.log j = [] := by
  have hstart : (team .integersOnly mandatoryPublisher).Reaches
      ⟨waitingOffer,[],fun _ => []⟩ ⟨⟨waitingOffer,[],fun _ => []⟩,
        Function.update (fun _ => none) 0 (some (publishBatch .integersOnly outboxPorts
          (mandatoryPublisher.publish publisherCall) singleSpec >>= fun _ => .ret ())),1⟩ :=
    Team.Reaches.start.step (.start ⟨singleSpec,rfl⟩)
  have hreserve : Effect waitingOffer (.port (.reserve singleSpec))
      (some (Except.ok [offerEnvelope])) reservedOffer :=
    .reserve singleSpec (plainDraw (.fromU128 7) 0) (.of_result reserve_offer waitingOffer)
  have hcompleted : Effect reservedOffer (.port (.completed (.fromU128 1) (.fromU128 7)))
      (some (Except.ok ())) completedOffer :=
    .completed _ _ 1 .acts
  have hrun : Exec ((team .integersOnly mandatoryPublisher).alone 0)
      (publishBatch .integersOnly outboxPorts
          (mandatoryPublisher.publish publisherCall) singleSpec >>= fun _ => .ret ())
      ⟨waitingOffer,[],fun _ => []⟩ (some ()) _ :=
    .call rfl (performs_after hreserve)
      (.call rfl (performs_after (.publisher .tryCurrent (some true)))
        (.call rfl (performs_after (.publisher (.client (.confirmSelect ⟨0⟩)) (some (.ok ()))))
          (.call rfl (performs_after (.publisher (.client (.basicPublish ⟨0⟩
            (mandatoryPublisher.request offer))) (some returnedOffer)))
            (.call rfl (performs_after hcompleted) (.ret rfl)))))
  obtain ⟨s,hs,hw,_⟩ := hstart.alone rfl hrun
  refine ⟨s,hs,by rw [hw]; rfl,by rw [hw]; rfl,fun j hj => ?_⟩
  rw [hw]
  simp only [World.after,Function.update_of_ne hj]

/-- The broker returned the offer, and it is completed all the same; the confirmed
publisher does not agree. -/
theorem returned_completed : ¬CompletesOnly .integersOnly mandatoryPublisher Routed ∧
    ¬Agree mandatoryPublisher (.confirmed ⟨"amqp://localhost","offers"⟩) none returnedOffer
      offer := by
  refine ⟨fun hall => ?_,by rw [Agree]; decide +kernel⟩
  obtain ⟨s,hs,hrows,hlog,hother⟩ := offer_completed
  obtain ⟨r,hf,hst⟩ : ∃ r, completedOffer.find? (.fromU128 1) = some r ∧
      r.status = Status.completed.code := ⟨_,rfl,rfl⟩
  rcases hall _ _ hs _ _ (hrows ▸ hf) hst with ⟨r₀,hf₀,hst₀⟩ | ⟨i,token,metadata,answer,_,ha,hin⟩
  · cases hf₀
    revert hst₀
    decide
  · by_cases hi : i = 0
    · subst hi
      rw [hlog] at hin
      have hfirst := (List.cons.inj (hin.eq_of_length rfl)).1
      rw [(Act.published.inj hfirst).2] at ha
      cases ha
    · rw [hother i hi] at hin
      exact absurd hin.length_le (by simp)

end Guarantee

end Mulac.Publication
