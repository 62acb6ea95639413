import Mulac.BatchSettlement
import Mulac.InboxSubmission

/-!
# Runs over HTTP

Every queue answers requests to run one batch of it. A limit outside 1..=1000
never reaches a consumer, and an error of a batch never reaches a client: the
client gets an id for each error, and the log has the error under its id. The
adapters of the two web frameworks answer alike.
-/

namespace Mulac.HttpRuns

open JsonValue Identifiers Postgres SerdeJson QueueRow QueueDomain KeyedTable Repository
  RepositoryContracts FourQueues PanicProgram Consumers PortCalls BatchSettlement
open InboxSubmission (JoinError Cause ReportedError nextElement)

section Errors

/-- What a run fails with: `CommandingApiError`, `EventingApiError`, `OutboxApiError`, and what of
`InboxApiError` a run can fail with. -/
inductive RunApiError where
  /-- The body does not read as the struct. -/
  | malformedRequest (report : ReportedError)
  /-- The limit is too small or too large. -/
  | limitOutOfRange (limit min max : ℕ)
  /-- Nothing publishes the entries of the outbox. -/
  | publisherNotConfigured
  /-- The task came to nothing. -/
  | runTaskFailed (report : ReportedError)
  deriving DecidableEq

/-- `OutboxApiErrorKind`. -/
inductive OutboxApiErrorKind where
  /-- The request itself is invalid. -/
  | invalid
  /-- The application has not configured delivery. -/
  | unavailable
  /-- The server failed. -/
  | internal
  deriving DecidableEq

namespace RunApiError

/-- `Display` of the four errors. -/
def display : RunApiError → String
  | malformedRequest report => report.display
  | limitOutOfRange _ min max =>
    "limit must be between "++toString min++" and "++toString max
  | publisherNotConfigured => "outbox publisher is not configured"
  | runTaskFailed report => report.display

/-- `kind`, which only the outbox has. -/
def kind : RunApiError → OutboxApiErrorKind
  | malformedRequest _ => .invalid
  | limitOutOfRange _ _ _ => .invalid
  | publisherNotConfigured => .unavailable
  | runTaskFailed _ => .internal

/-- `is_client_error` of the other three. -/
def isClientError : RunApiError → Bool
  | malformedRequest _ => true
  | limitOutOfRange _ _ _ => true
  | publisherNotConfigured => false
  | runTaskFailed _ => false

end RunApiError

/-- `commanding_status`, `eventing_status` and `inbox_status`. -/
def clientStatus (e : RunApiError) : ℕ := if e.isClientError then 400 else 500

/-- `outbox_status`. -/
def outboxStatus (e : RunApiError) : ℕ :=
  match e.kind with
  | .invalid => 400
  | .unavailable => 503
  | .internal => 500

/-- The status that a queue's adapters give an error. -/
def statusOf : QueueName → RunApiError → ℕ
  | .commands => clientStatus
  | .events => clientStatus
  | .inbox => clientStatus
  | .outbox => outboxStatus

/-- `QUEUE` of the four libraries. -/
def queueLabel : QueueName → String
  | .commands => "commanding"
  | .events => "eventing"
  | .inbox => "inbox"
  | .outbox => "outbox"

/-- `SHARED_QUEUE`. -/
def sharedQueue : String := "http"

end Errors

section Outside

/-- The level of a line of the log. -/
inductive LogLevel where
  /-- The client must correct something. -/
  | warn
  /-- The server failed. -/
  | error
  deriving DecidableEq

/-- What a line of the log shows. -/
inductive LoggedError where
  /-- The cause of a failed request. -/
  | request (cause : Cause)
  /-- The text of an item's error. -/
  | item (text : String)
  deriving DecidableEq

/-- A line of the log. -/
structure LogLine where
  /-- Its level. -/
  level : LogLevel
  /-- The id that the client gets. -/
  id : Uuid
  /-- The queue that it names. -/
  queue : String
  /-- What it shows. -/
  error : LoggedError
  deriving DecidableEq

/-- What a request asks for outside, beside the calls `Op` of its batch. -/
inductive HttpOp (Op : Type) where
  /-- `tokio::task::spawn_blocking`. -/
  | spawnBlocking
  /-- `Uuid::now_v7`. -/
  | nowV7
  /-- `tracing`. -/
  | log (line : LogLine)
  /-- A call of the consumer. -/
  | consumer (op : Op)

/-- What comes back; for a task, whether the blocking pool runs it. -/
abbrev HttpOp.Reply {Op : Type} (Reply : Op → Type) : HttpOp Op → Type
  | spawnBlocking => Bool
  | nowV7 => Uuid
  | log _ => Unit
  | consumer op => Reply op

variable {Op : Type} {Reply : Op → Type} {α ε : Type}

variable (Reply) in
/-- A part of a request. -/
abbrev Http (α : Type) : Type := Prog (HttpOp Op) (HttpOp.Reply Reply) α

/-- A consumer's program in the background task. -/
def inTask : Prog Op Reply α → Http Reply α
  | .ret a => .ret a
  | .panic => .panic
  | .call op k => .call (HttpOp.consumer op) fun reply => inTask (k reply)

/-- `ReportedError::client` and `ReportedError::server`. -/
def report (level : LogLevel) (queue : String) (cause : Cause) : Http Reply ReportedError := do
  let id ← Prog.perform HttpOp.nowV7
  let _ ← Prog.perform (HttpOp.log ⟨level,id,queue,.request cause⟩)
  return ⟨id,cause⟩

/-- `report_batch_error`. -/
def reportBatchError (queue text : String) : Http Reply String := do
  let id ← Prog.perform HttpOp.nowV7
  let _ ← Prog.perform (HttpOp.log ⟨.error,id,queue,.item text⟩)
  return id.display

end Outside

section Contract

variable {Op : Type} {Reply : Op → Type} {α ε : Type}

/-- `MIN_LIMIT`. -/
def minLimit : ℕ := 1

/-- `MAX_LIMIT`. -/
def maxLimit : ℕ := 1000

theorem maxLimit_lt : maxLimit < 2^64 := by decide

/-- `RunCommandsRequest`, `RunEventsRequest`, `RunOutboxRequest` and inbox's `RunRequest`. -/
structure RunRequest where
  /-- How many entries the batch may take. -/
  limit : ℕ
  /-- Every instance is valid. -/
  within : minLimit ≤ limit ∧ limit ≤ maxLimit

/-- `new`. -/
def RunRequest.new (limit : ℕ) : Except RunApiError RunRequest :=
  if h : minLimit ≤ limit ∧ limit ≤ maxLimit then .ok ⟨limit,h⟩
  else .error (.limitOutOfRange limit minLimit maxLimit)

/-- `Deserialize` of the raw requests and of poem's `RunRequestData`: an object by name and an
array by position. -/
def rawLimit : Json → Option ℕ
  | .object fields => requiredField u64Of fields "limit"
  | .array items => do
    let (limit,items) ← nextElement u64Of none items
    if items.isEmpty then some limit else none
  | _ => none

/-- `from_json`. -/
def RunRequest.fromJson (queue : String) (value : Json) :
    Http Reply (Except RunApiError RunRequest) :=
  match rawLimit value with
  | none => do
    let reported ← report .warn queue .json
    return .error (.malformedRequest reported)
  | some limit => return RunRequest.new limit

/-- `RunCommandsResponse`, `RunEventsResponse`, `RunOutboxResponse` and inbox's `RunResponse`. -/
structure RunResponse where
  /-- How many entries were processed, if none failed. -/
  processed : Option ℕ
  /-- One id for each failure. -/
  errors : List String
  deriving DecidableEq

/-- The ids of the errors, each logged with its error. -/
def reportBatchErrors (queue : String) (display : ε → String) : List ε → Http Reply (List String)
  | [] => return []
  | e::errors => do
    let id ← reportBatchError queue (display e)
    let ids ← reportBatchErrors queue display errors
    return id::ids

/-- `from_result`. -/
def RunResponse.fromResult (queue : String) (display : ε → String) :
    Except (List ε) ℕ → Http Reply RunResponse
  | .ok processed => return ⟨some processed,[]⟩
  | .error errors => do
    let ids ← reportBatchErrors queue display errors
    return ⟨none,ids⟩

/-- The spec of a request. -/
def specOf (request : RunRequest) : ReservableSpec :=
  .new request.limit (Nat.lt_of_le_of_lt request.within.2 maxLimit_lt)

/-- The service of a queue. -/
structure AsyncService (Op : Type) (Reply : Op → Type) (ε : Type) where
  /-- Its name in the log. -/
  name : QueueName
  /-- `Display` of its errors. -/
  display : ε → String
  /-- Its consumer; only `AsyncOutboxService` may lack one. -/
  consumer : Option (ReservableSpec → Prog Op Reply (Except (List ε) ℕ))

/-- The `run` closure of `new`. -/
def AsyncService.task (service : AsyncService Op Reply ε)
    (consume : ReservableSpec → Prog Op Reply (Except (List ε) ℕ)) (request : RunRequest) :
    Http Reply RunResponse := do
  let result ← inTask (consume (specOf request))
  RunResponse.fromResult (queueLabel service.name) service.display result

/-- `run` of the four services. -/
def AsyncService.run (service : AsyncService Op Reply ε) (request : RunRequest) :
    Http Reply (Except RunApiError RunResponse) :=
  match service.consumer with
  | none => return .error .publisherNotConfigured
  | some consume => do
    match ← Prog.perform HttpOp.spawnBlocking with
    | false =>
      let reported ← report .error (queueLabel service.name) (.join .cancelled)
      return .error (.runTaskFailed reported)
    | true =>
      match ← (service.task consume request).catchUnwind with
      | none =>
        let reported ← report .error (queueLabel service.name) (.join .panicked)
        return .error (.runTaskFailed reported)
      | some response => return .ok response

end Contract

section Adapters

variable {Op : Type} {Reply : Op → Type} {ε : Type}

/-- What a response carries. -/
inductive Content (ρ : Type) where
  /-- A plain text. -/
  | text (s : String)
  /-- The JSON of a result. -/
  | json (response : ρ)
  deriving DecidableEq

/-- A response. -/
structure Response (ρ : Type) where
  /-- The status code. -/
  status : ℕ
  /-- The body. -/
  content : Content ρ
  deriving DecidableEq

/-- A response to a run. -/
abbrev HttpResponse : Type := Response RunResponse

/-- The response for an error. -/
def errorResponse (name : QueueName) (e : RunApiError) : HttpResponse :=
  ⟨statusOf name e,.text e.display⟩

/-- `JsonRejection`: axum reads no JSON from the body. -/
inductive JsonRejection where
  /-- The JSON does not read as the type. -/
  | jsonDataError (text : String)
  /-- The syntax, the content type or the size is wrong; axum chooses the response. -/
  | other (status : ℕ) (text : String)

/-- `rejection_response`. -/
def rejectionResponse {ρ : Type} : JsonRejection → Response ρ
  | .jsonDataError text => ⟨400,.text text⟩
  | .other status text => ⟨status,.text text⟩

/-- What both adapters do with a request that was read. -/
def answered (service : AsyncService Op Reply ε) (request : RunRequest) :
    Http Reply HttpResponse := do
  match ← service.run request with
  | .error e => return errorResponse service.name e
  | .ok response => return ⟨200,.json response⟩

/-- The axum route of a queue: its extractor and its adapter's `run`. -/
def axumRun (service : AsyncService Op Reply ε) (body : Except JsonRejection Json) :
    Http Reply HttpResponse :=
  match body with
  | .error rejection => return rejectionResponse rejection
  | .ok value => do
    match ← RunRequest.fromJson (queueLabel service.name) value with
    | .error e => return errorResponse service.name e
    | .ok request => answered service request

/-- `parse_run_request`. -/
def parseRunRequest (value : Json) : Http Reply (Except String ℕ) :=
  match rawLimit value with
  | none => do
    let reported ← report .warn sharedQueue .json
    return .error reported.display
  | some limit =>
    if 1 ≤ limit ∧ limit ≤ 1000 then return .ok limit
    else return .error "limit must be between 1 and 1000"

/-- The poem route of a queue: `parse_from_json`, then its adapter's `run`; poem shows a text
that does not parse in a text of its own. -/
def poemRun (parseError : String → String) (service : AsyncService Op Reply ε)
    (body : Option Json) : Http Reply HttpResponse := do
  match ← parseRunRequest (body.getD .null) with
  | .error text => return ⟨400,.text (parseError text)⟩
  | .ok limit =>
    match RunRequest.new limit with
    | .error e => return errorResponse service.name e
    | .ok request => answered service request

end Adapters

section Host

variable {Op : Type} {Reply : Op → Type} {σ : Type}

/-- The server that a request meets. -/
structure Host (Op : Type) (Reply : Op → Type) (σ : Type) where
  /-- The ids that it draws one after the other. -/
  ids : ℕ → Uuid
  /-- Whether its blocking pool runs a task. -/
  pool : Bool
  /-- How the world of the consumer answers. -/
  answer : (op : Op) → σ → Option (Reply op) × σ

/-- The world of a request. -/
structure HttpWorld (σ : Type) where
  /-- The world of the consumer. -/
  inner : σ
  /-- How many ids are drawn. -/
  drawn : ℕ
  /-- The log. -/
  log : List LogLine

/-- How the server answers. -/
def Host.respond (host : Host Op Reply σ) :
    (op : HttpOp Op) → HttpWorld σ → Option (op.Reply Reply) × HttpWorld σ
  | .spawnBlocking,w => (some host.pool,w)
  | .nowV7,w => (some (host.ids w.drawn),{ w with drawn := w.drawn+1 })
  | .log line,w => (some (),{ w with log := w.log++[line] })
  | .consumer op,w =>
    let outcome := host.answer op w.inner
    (outcome.1,{ w with inner := outcome.2 })

/-- A request to a server that has drawn no id and logged nothing yet. -/
def HttpWorld.fresh (s : σ) : HttpWorld σ := ⟨s,0,[]⟩

end Host

section Statements

variable {Op : Type} {Reply : Op → Type} {σ ε : Type}

/-- What a client may see of a batch: how many entries it processed, or how many errors it has;
nothing if it panicked. -/
def seen (result : Option (Except (List ε) ℕ)) : Option (Except ℕ ℕ) :=
  result.map (Except.mapError List.length)

/-- The result of a batch as the client gets it. -/
def batchReport (ids : ℕ → Uuid) : Except ℕ ℕ → RunResponse
  | .ok processed => ⟨some processed,[]⟩
  | .error errors => ⟨none,(List.range errors).map fun i => (ids i).display⟩

/-- The response to a batch. -/
def batchResponse (ids : ℕ → Uuid) : Option (Except ℕ ℕ) → HttpResponse
  | none => ⟨500,.text (ids 0).display⟩
  | some result => ⟨200,.json (batchReport ids result)⟩

/-- The log of a batch. -/
def batchLog (queue : String) (display : ε → String) (ids : ℕ → Uuid) :
    Option (Except (List ε) ℕ) → List LogLine
  | none => [⟨.error,ids 0,queue,.request (.join .panicked)⟩]
  | some (.ok _) => []
  | some (.error errors) => errors.mapIdx fun i e => ⟨.error,ids i,queue,.item (display e)⟩

/-- A value that asks for a limit, by name or by position. -/
inductive AsksLimit : Json → ℕ → Prop where
  /-- By name; other fields are ignored. -/
  | named {fields : List (String × Json)} {limit : ℕ} :
    Json.field fields "limit" = some (u64Json limit) → limit < 2^64 →
      AsksLimit (.object fields) limit
  /-- By position, with nothing after it. -/
  | positional {limit : ℕ} : limit < 2^64 → AsksLimit (.array [u64Json limit]) limit

/-- What comes of a request for a run. -/
structure Served (service : AsyncService Op Reply ε) (host : Host Op Reply σ) (value : Json)
    (s : σ) (response : Option HttpResponse) (w : HttpWorld σ) : Prop where
  /-- A value that asks for no limit is reported, and nothing runs. -/
  malformed : (∀ limit, ¬AsksLimit value limit) →
    response = some ⟨400,.text (host.ids 0).display⟩ ∧ w.inner = s ∧
      w.log = [⟨.warn,host.ids 0,queueLabel service.name,.request .json⟩]
  /-- A limit out of range is told, and nothing runs. -/
  outOfRange : ∀ limit, AsksLimit value limit → ¬(minLimit ≤ limit ∧ limit ≤ maxLimit) →
    response = some ⟨400,.text "limit must be between 1 and 1000"⟩ ∧ w = .fresh s
  /-- Without a publisher nothing runs. -/
  unconfigured : ∀ limit, AsksLimit value limit → minLimit ≤ limit ∧ limit ≤ maxLimit →
    service.consumer = none →
      response = some (errorResponse service.name .publisherNotConfigured) ∧ w = .fresh s
  /-- Without a task nothing runs either. -/
  cancelled : ∀ limit, AsksLimit value limit → minLimit ≤ limit ∧ limit ≤ maxLimit →
    service.consumer.isSome = true → host.pool = false →
      response = some ⟨500,.text (host.ids 0).display⟩ ∧ w.inner = s ∧
        w.log = [⟨.error,host.ids 0,queueLabel service.name,.request (.join .cancelled)⟩]
  /-- Else one batch runs, and its errors stay in the log. -/
  answered : ∀ limit, AsksLimit value limit → ∀ h : minLimit ≤ limit ∧ limit ≤ maxLimit,
    ∀ consume, service.consumer = some consume → host.pool = true →
      response = some (batchResponse host.ids
        (seen ((consume (specOf ⟨limit,h⟩)).run host.answer s).1)) ∧
      w.inner = ((consume (specOf ⟨limit,h⟩)).run host.answer s).2 ∧
      w.log = batchLog (queueLabel service.name) service.display host.ids
        ((consume (specOf ⟨limit,h⟩)).run host.answer s).1

end Statements

section Runs

variable {Op : Type} {Reply : Op → Type} {σ α ε : Type} {host : Host Op Reply σ}

variable (host) in
/-- In the background a consumer runs as it does alone. -/
theorem run_inTask (p : Prog Op Reply α) (w : HttpWorld σ) :
    (inTask p : Http Reply α).run host.respond w =
      ((p.run host.answer w.inner).1,{ w with inner := (p.run host.answer w.inner).2 }) := by
  induction p generalizing w with
  | ret a => rfl
  | panic => rfl
  | call op k ih => exact ih _ _

/-- Every error of a batch draws an id and is logged under it. -/
theorem run_reportBatchErrors (queue : String) (display : ε → String) (errors : List ε)
    (w : HttpWorld σ) :
    (reportBatchErrors queue display errors : Http Reply (List String)).run host.respond w =
      (some ((List.range errors.length).map fun i => (host.ids (w.drawn+i)).display),
        ⟨w.inner,w.drawn+errors.length,w.log++errors.mapIdx fun i e =>
          ⟨.error,host.ids (w.drawn+i),queue,.item (display e)⟩⟩) := by
  induction errors generalizing w with
  | nil => simp [reportBatchErrors]
  | cons e errors ih =>
    have hfirst : (reportBatchError queue (display e) : Http Reply String).run host.respond w =
        (some (host.ids w.drawn).display,⟨w.inner,w.drawn+1,
          w.log++[⟨.error,host.ids w.drawn,queue,.item (display e)⟩]⟩) := rfl
    rw [reportBatchErrors,Prog.run_bind_of_some _ hfirst,Prog.run_bind_of_some _ (ih _)]
    simp [List.range_succ_eq_map,List.mapIdx_cons,Function.comp_def,Nat.add_assoc,Nat.add_comm 1]

/-- A failed task is a failure of the server, whatever the queue. -/
theorem errorResponse_runTaskFailed (name : QueueName) (reported : ReportedError) :
    errorResponse name (.runTaskFailed reported) = ⟨500,.text reported.display⟩ := by
  cases name <;> rfl

/-- A body that does not read is the client's mistake, whatever the queue. -/
theorem errorResponse_malformedRequest (name : QueueName) (reported : ReportedError) :
    errorResponse name (.malformedRequest reported) = ⟨400,.text reported.display⟩ := by
  cases name <;> rfl

/-- So is a limit out of range. -/
theorem errorResponse_limitOutOfRange (name : QueueName) (limit : ℕ) :
    errorResponse name (.limitOutOfRange limit minLimit maxLimit) =
      ⟨400,.text "limit must be between 1 and 1000"⟩ := by
  cases name <;> rfl

variable (host) in
/-- The errors of a batch are logged, and the client gets their ids. -/
theorem run_fromResult (queue : String) (display : ε → String) (result : Except (List ε) ℕ)
    (s : σ) : ∃ w, (RunResponse.fromResult queue display result : Http Reply RunResponse).run
        host.respond (.fresh s) = (some (batchReport host.ids (result.mapError List.length)),w) ∧
      w.inner = s ∧ w.log = batchLog queue display host.ids (some result) := by
  cases result with
  | ok n => exact ⟨HttpWorld.fresh s,rfl,rfl,rfl⟩
  | error errors =>
    rw [RunResponse.fromResult,
      Prog.run_bind_of_some _ (run_reportBatchErrors queue display errors (.fresh s))]
    refine ⟨⟨s,errors.length,batchLog queue display host.ids (some (.error errors))⟩,?_,rfl,rfl⟩
    simp only [HttpWorld.fresh,Nat.zero_add,List.nil_append]
    rfl

/-- The background task runs the batch, then reports its errors. -/
theorem run_task (service : AsyncService Op Reply ε)
    (consume : ReservableSpec → Prog Op Reply (Except (List ε) ℕ)) (request : RunRequest)
    {s s' : σ} {result : Option (Except (List ε) ℕ)}
    (h : (consume (specOf request)).run host.answer s = (result,s')) :
    (service.task consume request).run host.respond (.fresh s) =
      match result with
      | none => (none,.fresh s')
      | some r => (RunResponse.fromResult (queueLabel service.name) service.display r :
          Http Reply RunResponse).run host.respond (.fresh s') := by
  have hbatch := run_inTask host (consume (specOf request)) (.fresh s)
  rw [show (HttpWorld.fresh s).inner = s from rfl,h] at hbatch
  rw [AsyncService.task,Prog.run_bind,hbatch]
  cases result <;> rfl

variable (host) in
/-- A service that is configured, and whose task runs, answers with the result of the batch. -/
theorem run_service (service : AsyncService Op Reply ε)
    {consume : ReservableSpec → Prog Op Reply (Except (List ε) ℕ)}
    (hc : service.consumer = some consume) (hp : host.pool = true) (request : RunRequest)
    {s s' : σ} {result : Option (Except (List ε) ℕ)}
    (h : (consume (specOf request)).run host.answer s = (result,s')) :
    ∃ w, (answered service request).run host.respond (.fresh s) =
        (some (batchResponse host.ids (seen result)),w) ∧ w.inner = s' ∧
      w.log = batchLog (queueLabel service.name) service.display host.ids result := by
  have htask := run_task service consume request h
  have hspawn : (Prog.perform (HttpOp.spawnBlocking : HttpOp Op) : Http Reply Bool).run
      host.respond (.fresh s) = (some true,.fresh s) := by
    rw [← hp]
    rfl
  unfold answered AsyncService.run
  rw [hc]
  dsimp only
  rw [Prog.run_bind,Prog.run_bind_of_some _ hspawn]
  dsimp only
  rw [Prog.run_bind,Prog.run_catchUnwind,htask]
  cases result with
  | none =>
    have hresponse := errorResponse_runTaskFailed service.name ⟨host.ids 0,.join .panicked⟩
    exact ⟨⟨s',1,[⟨.error,host.ids 0,queueLabel service.name,.request (.join .panicked)⟩]⟩,
      congrArg (fun r => (some r,_)) hresponse,rfl,rfl⟩
  | some r =>
    obtain ⟨w,hrun,hinner,hlog⟩ := run_fromResult host (queueLabel service.name)
      service.display r s'
    dsimp only
    rw [hrun]
    exact ⟨w,rfl,hinner,hlog⟩

/-- A service that is not configured says so. -/
theorem run_unconfigured (service : AsyncService Op Reply ε) (hc : service.consumer = none)
    (request : RunRequest) (w : HttpWorld σ) : (answered service request).run host.respond w =
      (some (errorResponse service.name .publisherNotConfigured),w) := by
  unfold answered AsyncService.run
  rw [hc]
  rfl

/-- A service whose task does not run fails. -/
theorem run_cancelled (service : AsyncService Op Reply ε) (hc : service.consumer.isSome = true)
    (hp : host.pool = false) (request : RunRequest) (s : σ) :
    (answered service request).run host.respond (.fresh s) =
      (some ⟨500,.text (host.ids 0).display⟩,
        ⟨s,1,[⟨.error,host.ids 0,queueLabel service.name,.request (.join .cancelled)⟩]⟩) := by
  obtain ⟨consume,hconsume⟩ := Option.isSome_iff_exists.mp hc
  have hspawn : (Prog.perform (HttpOp.spawnBlocking : HttpOp Op) : Http Reply Bool).run
      host.respond (.fresh s) = (some false,.fresh s) := by
    rw [← hp]
    rfl
  have hresponse := errorResponse_runTaskFailed service.name ⟨host.ids 0,.join .cancelled⟩
  unfold answered AsyncService.run
  rw [hconsume]
  dsimp only
  rw [Prog.run_bind,Prog.run_bind_of_some _ hspawn]
  exact congrArg (fun r => (some r,_)) hresponse

/-- A `u64` is read from an integer, and from nothing else. -/
theorem u64Of_eq_some {v : Json} {n : ℕ} : u64Of v = some n ↔ v = u64Json n ∧ n < 2^64 := by
  constructor
  · intro h
    cases v with
    | number d =>
      rw [u64Of] at h
      split at h
      · next hd =>
        obtain ⟨mantissa,scale⟩ := d
        obtain ⟨hs,hnn,hlt⟩ := hd
        obtain rfl := Option.some.inj h
        dsimp only at hs hnn hlt ⊢
        subst hs
        refine ⟨?_,by omega⟩
        rw [u64Json,Int.toNat_of_nonneg hnn]
      · cases h
    | null => cases h
    | bool b => cases h
    | string s => cases h
    | array items => cases h
    | object fields => cases h
  · rintro ⟨rfl,hlt⟩
    have hfits : (n : ℤ) < 2^64 := by exact_mod_cast hlt
    rw [u64Json,u64Of]
    split
    · exact congrArg some (Int.toNat_natCast n)
    · next hd => exact absurd ⟨rfl,Int.natCast_nonneg n,hfits⟩ hd

/-- What a body asks for is read. -/
theorem rawLimit_of_asks (body : InboxSubmission.Body) {limit : ℕ}
    (h : AsksLimit body.value limit) : rawLimit body.value = some limit := by
  obtain ⟨value,hdistinct⟩ := body
  dsimp only at h ⊢
  cases h with
  | @named fields _ hfield hlt =>
    rw [rawLimit,requiredField,structField_of_nodup (hdistinct fields rfl),hfield,
      Option.bind_some,Option.bind_some]
    exact u64Of_eq_some.mpr ⟨rfl,hlt⟩
  | positional hlt => simp [rawLimit,nextElement,u64Of_eq_some.mpr ⟨rfl,hlt⟩]

/-- The reader finds the limit that a body asks for. -/
theorem rawLimit_eq_some (body : InboxSubmission.Body) {limit : ℕ} :
    rawLimit body.value = some limit ↔ AsksLimit body.value limit := by
  refine ⟨fun h => ?_,rawLimit_of_asks body⟩
  obtain ⟨value,hdistinct⟩ := body
  dsimp only at h ⊢
  cases value with
  | object fields =>
    rw [rawLimit,requiredField,structField_of_nodup (hdistinct fields rfl),Option.bind_some] at h
    obtain ⟨v,hv,hread⟩ := Option.bind_eq_some_iff.mp h
    obtain ⟨rfl,hlt⟩ := u64Of_eq_some.mp hread
    exact .named hv hlt
  | array items =>
    rcases items with _ | ⟨v,items⟩
    · cases h
    · cases hread : u64Of v with
      | none => simp [rawLimit,nextElement,hread] at h
      | some n =>
        obtain ⟨rfl,hlt⟩ := u64Of_eq_some.mp hread
        cases items with
        | nil =>
          simp only [rawLimit,nextElement,hread] at h
          obtain rfl := Option.some.inj h
          exact .positional hlt
        | cons v' items => simp [rawLimit,nextElement,hread] at h
  | null => cases h
  | bool b => cases h
  | number n => cases h
  | string s => cases h

section Routes

variable (service : AsyncService Op Reply ε) {value : Json} {limit : ℕ} (s : σ)

theorem run_axum_malformed (hraw : rawLimit value = none) :
    (axumRun service (.ok value)).run host.respond (.fresh s) =
      (some ⟨400,.text (host.ids 0).display⟩,
        ⟨s,1,[⟨.warn,host.ids 0,queueLabel service.name,.request .json⟩]⟩) := by
  have hresponse := errorResponse_malformedRequest service.name ⟨host.ids 0,.json⟩
  unfold axumRun RunRequest.fromJson
  dsimp only
  rw [hraw]
  exact congrArg (fun r => (some r,_)) hresponse

theorem run_axum_outOfRange (hraw : rawLimit value = some limit)
    (h : ¬(minLimit ≤ limit ∧ limit ≤ maxLimit)) :
    (axumRun service (.ok value)).run host.respond (.fresh s) =
      (some ⟨400,.text "limit must be between 1 and 1000"⟩,.fresh s) := by
  have hresponse := errorResponse_limitOutOfRange service.name limit
  unfold axumRun RunRequest.fromJson
  dsimp only
  rw [hraw]
  dsimp only
  rw [RunRequest.new,dif_neg h]
  exact congrArg (fun r => (some r,_)) hresponse

theorem run_axum_read (hraw : rawLimit value = some limit)
    (h : minLimit ≤ limit ∧ limit ≤ maxLimit) (w : HttpWorld σ) :
    (axumRun service (.ok value)).run host.respond w =
      (answered service ⟨limit,h⟩).run host.respond w := by
  unfold axumRun RunRequest.fromJson
  dsimp only
  rw [hraw]
  dsimp only
  rw [RunRequest.new,dif_pos h]
  rfl

theorem run_poem_malformed (parseError : String → String) (hraw : rawLimit value = none) :
    (poemRun parseError service (some value)).run host.respond (.fresh s) =
      (some ⟨400,.text (parseError (host.ids 0).display)⟩,
        ⟨s,1,[⟨.warn,host.ids 0,sharedQueue,.request .json⟩]⟩) := by
  unfold poemRun parseRunRequest
  rw [Option.getD_some,hraw]
  rfl

theorem run_poem_outOfRange (parseError : String → String) (hraw : rawLimit value = some limit)
    (h : ¬(minLimit ≤ limit ∧ limit ≤ maxLimit)) :
    (poemRun parseError service (some value)).run host.respond (.fresh s) =
      (some ⟨400,.text (parseError "limit must be between 1 and 1000")⟩,.fresh s) := by
  unfold poemRun parseRunRequest
  rw [Option.getD_some,hraw]
  have hout : ¬(1 ≤ limit ∧ limit ≤ 1000) := h
  dsimp only
  rw [if_neg hout]
  rfl

theorem run_poem_read (parseError : String → String) (hraw : rawLimit value = some limit)
    (h : minLimit ≤ limit ∧ limit ≤ maxLimit) (w : HttpWorld σ) :
    (poemRun parseError service (some value)).run host.respond w =
      (answered service ⟨limit,h⟩).run host.respond w := by
  unfold poemRun parseRunRequest
  rw [Option.getD_some,hraw]
  have hin : 1 ≤ limit ∧ limit ≤ 1000 := h
  dsimp only
  rw [if_pos hin,Prog.pure_eq,Prog.ret_bind]
  dsimp only
  rw [RunRequest.new,dif_pos h]

end Routes

/-- The contract of a run over an axum route, for every body, every consumer and every server. -/
theorem http_run_contract (service : AsyncService Op Reply ε) (host : Host Op Reply σ)
    (body : InboxSubmission.Body) (s : σ) :
    ∃ response w, (axumRun service (.ok body.value)).run host.respond (.fresh s) =
        (response,w) ∧ Served service host body.value s response w := by
  have hread : ∀ {limit}, AsksLimit body.value limit ↔ rawLimit body.value = some limit :=
    fun {_} => (rawLimit_eq_some body).symm
  refine ⟨_,_,rfl,?_,?_,?_,?_,?_⟩
  · intro hno
    have hraw : rawLimit body.value = none := Option.eq_none_iff_forall_ne_some.mpr
      fun limit h => hno limit (hread.mpr h)
    rw [run_axum_malformed service s hraw]
    exact ⟨rfl,rfl,rfl⟩
  · intro limit hask hout
    rw [run_axum_outOfRange service s (hread.mp hask) hout]
    exact ⟨rfl,rfl⟩
  · intro limit hask hin hc
    rw [run_axum_read service (hread.mp hask) hin,run_unconfigured service hc]
    exact ⟨rfl,rfl⟩
  · intro limit hask hin hc hp
    rw [run_axum_read service (hread.mp hask) hin,run_cancelled service hc hp]
    exact ⟨rfl,rfl,rfl⟩
  · intro limit hask hin consume hc hp
    obtain ⟨w,hrun,hinner,hlog⟩ := run_service host (s:=s) service hc hp ⟨limit,hin⟩ rfl
    rw [run_axum_read service (hread.mp hask) hin,hrun]
    exact ⟨rfl,hinner,hlog⟩

end Runs

section Discretion

/-- What a response says, apart from the text of an error. -/
def Response.bare {ρ : Type} (r : Response ρ) : ℕ × Option ρ :=
  (r.status,match r.content with
    | .text _ => none
    | .json response => some response)

@[simp] theorem bare_text {ρ : Type} (status : ℕ) (text : String) :
    (⟨status,.text text⟩ : Response ρ).bare = (status,none) := rfl

variable {Op Op' : Type} {Reply : Op → Type} {Reply' : Op' → Type} {σ σ' ε ε' : Type}

/-- Two services that a client can tell apart by nothing but their batches. -/
structure SameService (service : AsyncService Op Reply ε) (host : Host Op Reply σ)
    (service' : AsyncService Op' Reply' ε') (host' : Host Op' Reply' σ') : Prop where
  /-- They serve the same queue. -/
  name : service'.name = service.name
  /-- They are configured alike. -/
  configured : service'.consumer.isSome = service.consumer.isSome
  /-- Their servers draw the same ids. -/
  ids : host'.ids = host.ids
  /-- Their servers run tasks alike. -/
  pool : host'.pool = host.pool

/-- The batches of two services look the same, whatever their errors are. -/
def SameBatches (service : AsyncService Op Reply ε) (host : Host Op Reply σ) (s : σ)
    (service' : AsyncService Op' Reply' ε') (host' : Host Op' Reply' σ') (s' : σ') : Prop :=
  ∀ request consume consume', service.consumer = some consume →
    service'.consumer = some consume' →
      seen ((consume' (specOf request)).run host'.answer s').1 =
        seen ((consume (specOf request)).run host.answer s).1

/-- The response to a request that was read, as a function of what a client may know. -/
theorem answered_congr {service : AsyncService Op Reply ε} {host : Host Op Reply σ}
    {service' : AsyncService Op' Reply' ε'} {host' : Host Op' Reply' σ'} {s : σ} {s' : σ'}
    (h : SameService service host service' host')
    (hb : SameBatches service host s service' host' s') (request : RunRequest) :
    ((answered service' request).run host'.respond (.fresh s')).1 =
      ((answered service request).run host.respond (.fresh s)).1 := by
  cases hc : service.consumer with
  | none =>
    have hc' : service'.consumer = none := by
      rw [← Option.isNone_iff_eq_none,← Option.not_isSome,h.configured,hc]
      rfl
    rw [run_unconfigured service hc,run_unconfigured service' hc',h.name]
  | some consume =>
    have hsome : service.consumer.isSome = true := by rw [hc]; rfl
    obtain ⟨consume',hc'⟩ := Option.isSome_iff_exists.mp (h.configured.trans hsome)
    cases hp : host.pool with
    | false =>
      rw [run_cancelled service hsome hp,
        run_cancelled service' (h.configured.trans hsome) (h.pool.trans hp),h.ids]
    | true =>
      obtain ⟨w,hrun,_⟩ := run_service host (s:=s) service hc hp request rfl
      obtain ⟨w',hrun',_⟩ := run_service host' (s:=s') service' hc' (h.pool.trans hp) request rfl
      rw [hrun,hrun',hb request consume consume' hc hc',h.ids]

/-- Discretion of the HTTP adapters. -/
structure Discreet (parseError : String → String) (service : AsyncService Op Reply ε)
    (host : Host Op Reply σ) (s : σ) (service' : AsyncService Op' Reply' ε')
    (host' : Host Op' Reply' σ') (s' : σ') (value : Json) : Prop where
  /-- The axum response is the same. -/
  axum : ((axumRun service' (.ok value)).run host'.respond (.fresh s')).1 =
    ((axumRun service (.ok value)).run host.respond (.fresh s)).1
  /-- So is the poem response. -/
  poem : ((poemRun parseError service' (some value)).run host'.respond (.fresh s')).1 =
    ((poemRun parseError service (some value)).run host.respond (.fresh s)).1
  /-- Both adapters answer the same, but for the text of an error. -/
  alike : ((poemRun parseError service (some value)).run host.respond (.fresh s)).1.map
      Response.bare =
    ((axumRun service (.ok value)).run host.respond (.fresh s)).1.map Response.bare
  /-- Both leave the consumer's world the same. -/
  inner : ((poemRun parseError service (some value)).run host.respond (.fresh s)).2.inner =
    ((axumRun service (.ok value)).run host.respond (.fresh s)).2.inner

/-- A client learns how many entries were processed or how many errors there are, and nothing of
the errors: two services whose batches look the same give the same response, over either
framework, and the two frameworks differ only in the text of an error. -/
theorem responses_discreet (parseError : String → String) (service : AsyncService Op Reply ε)
    (host : Host Op Reply σ) (s : σ) (service' : AsyncService Op' Reply' ε')
    (host' : Host Op' Reply' σ') (s' : σ') (h : SameService service host service' host')
    (hb : SameBatches service host s service' host' s') (value : Json) :
    Discreet parseError service host s service' host' s' value := by
  cases hraw : rawLimit value with
  | none =>
    constructor
    · rw [run_axum_malformed service s hraw,run_axum_malformed service' s' hraw,h.ids]
    · rw [run_poem_malformed service s parseError hraw,
        run_poem_malformed service' s' parseError hraw,h.ids]
    · rw [run_axum_malformed service s hraw,run_poem_malformed service s parseError hraw,
        Option.map_some,Option.map_some,bare_text,bare_text]
    · rw [run_axum_malformed service s hraw,run_poem_malformed service s parseError hraw]
  | some limit =>
    by_cases hin : minLimit ≤ limit ∧ limit ≤ maxLimit
    · constructor
      · rw [run_axum_read service hraw hin,run_axum_read service' hraw hin]
        exact answered_congr h hb _
      · rw [run_poem_read service parseError hraw hin,run_poem_read service' parseError hraw hin]
        exact answered_congr h hb _
      · rw [run_axum_read service hraw hin,run_poem_read service parseError hraw hin]
      · rw [run_axum_read service hraw hin,run_poem_read service parseError hraw hin]
    · constructor
      · rw [run_axum_outOfRange service s hraw hin,run_axum_outOfRange service' s' hraw hin]
      · rw [run_poem_outOfRange service s parseError hraw hin,
          run_poem_outOfRange service' s' parseError hraw hin]
      · rw [run_axum_outOfRange service s hraw hin,
          run_poem_outOfRange service s parseError hraw hin,Option.map_some,Option.map_some,
          bare_text,bare_text]
      · rw [run_axum_outOfRange service s hraw hin,
          run_poem_outOfRange service s parseError hraw hin]

/-- A service of commands whose batches fail with a text. -/
def failing (text : String) : AsyncService Empty Empty.elim String :=
  ⟨.commands,id,some fun _ => .ret (.error [text])⟩

/-- A server without a world. -/
def bareHost : Host Empty Empty.elim Unit := ⟨fun n => .fromU128 n,true,fun op => op.elim⟩

/-- The text of a failure does not show. -/
theorem responses_discreet_failing : Discreet id (failing "secret dsn") bareHost ()
    (failing "timeout") bareHost () (.object [("limit",u64Json 5)]) :=
  responses_discreet id (failing "secret dsn") bareHost () (failing "timeout") bareHost ()
    ⟨rfl,rfl,rfl,rfl⟩ (fun _ _ _ h h' => by cases h; cases h'; rfl) _

end Discretion

section Tables

variable (name : QueueName) (float : FloatReader)

/-- The service of a queue over its tables; that of the outbox has a publisher. -/
def tableService : AsyncService (BatchOp (name.queue float)) BatchOp.Reply (name.queue float).Error
    where
  name := name
  display := (name.queue float).display
  consumer := some (batch (itemsOf name float))

/-- A server over the tables, whose blocking pool runs every task. -/
def tableHost {q : Queue} (env : Environment q) (ids : ℕ → Uuid) :
    Host (BatchOp q) BatchOp.Reply (World q) := ⟨ids,true,answer env⟩

/-- A route of a queue that was given a value: that of axum, or that of poem. -/
inductive IsRoute (value : Json) :
    Http (BatchOp.Reply (q:=name.queue float)) HttpResponse → Prop where
  /-- The axum route. -/
  | axum : IsRoute value (axumRun (tableService name float) (.ok value))
  /-- The poem route. -/
  | poem (parseError : String → String) :
    IsRoute value (poemRun parseError (tableService name float) (some value))

/-- The entries whose work failed, in order, and their errors. -/
def failures {q : Queue} (items : Items q) (env : Environment q) (entries : List q.Envelope) :
    List (q.Envelope × q.Error) :=
  entries.filterMap fun e => (itemError items env env.draw.token e).map fun error => (e,error)

/-- A run over HTTP is settled and truthful. -/
structure RunSettled (env : Environment (name.queue float)) (ids : ℕ → Uuid)
    (t : Rows (name.queue float)) (request : RunRequest) (response : Option HttpResponse)
    (w : HttpWorld (World (name.queue float))) : Prop where
  /-- Every row that the batch selected is settled. -/
  settled : BatchSettled (itemsOf name float) env t (specOf request)
    (some (batchResult (itemsOf name float) env w.inner.executed)) w.inner
  /-- It worked on no more entries than were asked for. -/
  within : w.inner.executed.length ≤ request.limit
  /-- If no work failed, the client is told how many entries were completed. -/
  succeeded : failures (itemsOf name float) env w.inner.executed = [] →
    response = some ⟨200,.json ⟨some w.inner.executed.length,[]⟩⟩ ∧ w.log = []
  /-- Else it gets one id for each failure. -/
  failed : failures (itemsOf name float) env w.inner.executed ≠ [] →
    response = some ⟨200,.json ⟨none,
      (List.range (failures (itemsOf name float) env w.inner.executed).length).map
        fun i => (ids i).display⟩⟩
  /-- Under each id the log has the error that the failed row ends its history with. -/
  traced : ∀ (i : ℕ) e error,
    (failures (itemsOf name float) env w.inner.executed)[i]? = some (e,error) →
      ⟨.error,ids i,queueLabel name,.item ((name.queue float).display error)⟩ ∈ w.log ∧
      ∃ row history, w.inner.rows.find? ((name.queue float).handed e).id = some row ∧
        row.status = Status.failed.code ∧
        readExtraInfo row.extraInfo = some (some ⟨history++[failureReason
          (((name.queue float).handed e).id,env.draw.token) "processing"
          ((name.queue float).display error)]⟩)

variable {name float} {env : Environment (name.queue float)} {t : Rows (name.queue float)}
  {spec : ReservableSpec} {w : World (name.queue float)}

theorem failures_snd {q : Queue} (items : Items q) (env : Environment q)
    (entries : List q.Envelope) : (failures items env entries).map Prod.snd =
      entries.filterMap (itemError items env env.draw.token) := by
  rw [failures,List.map_filterMap]
  refine List.filterMap_congr fun e _ => ?_
  rw [Option.map_map]
  exact Option.map_id'

/-- A batch whose failures are listed ends with them, or with its size. -/
theorem batchResult_eq {q : Queue} (items : Items q) (env : Environment q)
    (entries : List q.Envelope) : batchResult items env entries =
      if failures items env entries = [] then .ok entries.length
      else .error ((failures items env entries).map Prod.snd) := by
  rw [batchResult,← failures_snd]
  cases failures items env entries <;> rfl

/-- An entry that was worked on stands for a row that was selected. -/
theorem executed_row {result : Option (Except (List (name.queue float).Error) ℕ)}
    (h : BatchSettled (itemsOf name float) env t spec result w) {e : (name.queue float).Envelope}
    (he : e ∈ w.executed) : ∃ r ∈ selected t spec env.draw, decodedAs env.draw r = .ok e ∧
      ((name.queue float).handed e).id = r.id := by
  obtain ⟨r,hr,hd⟩ := List.mem_filterMap.mp (h.executed.mem_iff.mp he)
  have hok := toOption_eq_some.mp hd
  exact ⟨r,hr,hok,(decode_handed (reservedRow_heldBy env.draw.token env.draw.now r) hok).1⟩

theorem selected_length (hl : spec.limit < 2^63) :
    (selected t spec env.draw).length ≤ spec.limit := by
  rw [selected_eq hl,ReserveContract.candidates_length]
  exact Nat.min_le_left _ _

/-- A run over HTTP settles its batch and tells the truth about it: what a limit in range asks
for is done, over either framework. -/
theorem run_settles (name : QueueName) (float : FloatReader)
    (env : Environment (name.queue float)) (ids : ℕ → Uuid) (t : Rows (name.queue float))
    (body : InboxSubmission.Body) {limit : ℕ} (hask : AsksLimit body.value limit)
    (hin : minLimit ≤ limit ∧ limit ≤ maxLimit) (hp : Provided env t (specOf ⟨limit,hin⟩))
    {route : Http BatchOp.Reply HttpResponse} (hroute : IsRoute name float body.value route) :
    ∃ response w, route.run (tableHost env ids).respond (.fresh ⟨t,[]⟩) = (response,w) ∧
      RunSettled name float env ids t ⟨limit,hin⟩ response w := by
  have hraw := (rawLimit_eq_some body).mpr hask
  have hread : route.run (tableHost env ids).respond (.fresh ⟨t,[]⟩) =
      (answered (tableService name float) ⟨limit,hin⟩).run (tableHost env ids).respond
        (.fresh ⟨t,[]⟩) := by
    cases hroute with
    | axum => exact run_axum_read _ hraw hin _
    | poem parseError => exact run_poem_read _ parseError hraw hin _
  have hlimit : (specOf ⟨limit,hin⟩).limit < 2^63 := lt_of_le_of_lt hin.2 (by decide)
  obtain ⟨w,hrun,hinner,hlog⟩ := run_service (tableHost env ids) (s:=⟨t,[]⟩)
    (tableService name float) rfl rfl ⟨limit,hin⟩ rfl
  have hsettled : BatchSettled (itemsOf name float) env t (specOf ⟨limit,hin⟩) _ w.inner :=
    hinner ▸ settled_of_limit hlimit hp
  have hresult := hsettled.result
  rw [hresult] at hsettled
  have hlog' : w.log = batchLog (queueLabel name) (name.queue float).display ids
      (some (batchResult (itemsOf name float) env w.inner.executed)) := by
    rw [← hresult]
    exact hlog
  have hrun' : route.run (tableHost env ids).respond (.fresh ⟨t,[]⟩) = (some (batchResponse ids
      (seen (some (batchResult (itemsOf name float) env w.inner.executed)))),w) := by
    rw [hread,← hresult]
    exact hrun
  rw [batchResult_eq] at hlog' hrun'
  refine ⟨_,w,hrun',hsettled,?_,?_,?_,?_⟩
  · rw [hsettled.executed.length_eq]
    exact (List.length_filterMap_le _ _).trans (selected_length hlimit)
  · intro hnone
    rw [if_pos hnone] at hlog' ⊢
    exact ⟨rfl,hlog'⟩
  · intro hsome
    rw [if_neg hsome]
    simp only [seen,Option.map_some,Except.mapError,batchResponse,batchReport,List.length_map]
  · intro i e error hi
    have hne : failures (itemsOf name float) env w.inner.executed ≠ [] := by
      intro hnil
      rw [hnil] at hi
      cases hi
    rw [if_neg hne] at hlog'
    obtain ⟨e',he',hmap⟩ := List.mem_filterMap.mp (List.mem_of_getElem? hi)
    obtain ⟨error',herror,hpair⟩ := Option.map_eq_some_iff.mp hmap
    cases hpair
    refine ⟨?_,?_⟩
    · rw [hlog',batchLog]
      refine List.mem_of_getElem? (i:=i) ?_
      rw [List.getElem?_mapIdx,List.getElem?_map,hi]
      rfl
    · obtain ⟨r,hr,hd,hid⟩ := executed_row hsettled he'
      have hdiagnostic : diagnostic (itemsOf name float) env r =
          some (itemReason env.draw.token e error) := by
        rw [diagnostic,hd]
        dsimp only
        rw [herror]
        rfl
      obtain ⟨row,history,hrow,hstatus,_,hread⟩ := hsettled.failed r hr _ hdiagnostic
      exact ⟨row,history,hid ▸ hrow,hstatus,hread⟩

/-- A body that asks for one entry. -/
def oneEntry : InboxSubmission.Body where
  value := .object [("limit",u64Json 1)]
  distinct := by
    rintro fields ⟨⟩
    decide

/-- A request for one entry completes the waiting command. -/
theorem run_settles_waiting : ∃ response w,
    (axumRun (tableService .commands .integersOnly) (.ok oneEntry.value)).run
        (tableHost healthyWork fun n => .fromU128 n).respond (.fresh ⟨QueueRuns.waitingTable,[]⟩) =
      (response,w) ∧ RunSettled .commands .integersOnly healthyWork (fun n => .fromU128 n)
        QueueRuns.waitingTable ⟨1,by decide⟩ response w :=
  run_settles .commands .integersOnly healthyWork (fun n => .fromU128 n) QueueRuns.waitingTable
    oneEntry (.named rfl (by decide)) (by decide) (healthyWork_provided _) .axum

end Tables

end Mulac.HttpRuns
