import Mulac.QueueRow
import Mulac.OrderedSelection

/-!
# The repositories

The calls of a Postgres repository, each as a function from a table to its
result and the next table. The four repositories run the same statements under
the profile of their queue. What Postgres decides by itself (the order of a
scan, the order of returned rows, the rows other sessions have locked, the
clock) is an argument, and so is the token that `Uuid::now_v7` draws.
-/

namespace Mulac.Repository

open JsonValue Identifiers Postgres SerdeJson QueueDomain KeyedTable OrderedSelection QueueRow

/-- The table of a queue. -/
abbrev Rows (q : Queue) := Table (Row.id : Row q.Own → Uuid)

variable {q : Queue}

/-- `conn.transaction`: an error leaves the table as it was. -/
def transaction {σ α ε : Type} (body : σ → Except ε (α × σ)) (s : σ) : Except ε α × σ :=
  match body s with
  | .ok (a,s') => (.ok a,s')
  | .error e => (.error e,s)

theorem transaction_of_ok {σ α ε : Type} {body : σ → Except ε (α × σ)} {s s' : σ} {a : α}
    (h : body s = .ok (a,s')) : transaction body s = (.ok a,s') := by
  rw [transaction,h]

/-- A transaction that fails, whatever its error is called, leaves the table as it was. -/
theorem transaction_unchanged {σ α ε δ : Type} {body : σ → Except ε (α × σ)} {s : σ} {f : ε → δ}
    {e : δ} (h : (transaction body s).1.mapError f = .error e) : (transaction body s).2 = s := by
  unfold transaction at h ⊢
  split at h
  · cases h
  · rfl

theorem transaction_of_error {σ α ε : Type} {body : σ → Except ε (α × σ)} {s : σ} {e : ε}
    (h : body s = .error e) : transaction body s = (.error e,s) := by
  rw [transaction,h]

section Record

/-- The row that an insertion stores. -/
def storedRow (n : NewRow q.Own) (metadata : Jsonb) : Row q.Own where
  id := n.id
  status := Status.received.code
  payload := n.payload
  metadata := some metadata
  scheduledAt := n.scheduledAt
  attempts := 0
  reservationId := none
  reservedAt := none
  receivedAt := n.receivedAt
  updatedAt := n.updatedAt
  processedAt := none
  extraInfo := none
  own := n.own

/-- `INSERT … ON CONFLICT DO NOTHING`. -/
def insertInto (t : Rows q) (n : NewRow q.Own) : Except DieselError (Rows q) := do
  bindTexts (n.payload::q.ownTexts n.own)
  let metadata ← castJsonb n.metadata
  return t.insertNew (storedRow n metadata)

/-- `record` of commanding, eventing and outbox and `store` of inbox. -/
def record (t : Rows q) (entry : q.NewEntry) (appNow now : Timestamp) :
    Except q.Error Unit × Rows q :=
  match q.newRow entry appNow now with
  | .error e => (.error e,t)
  | .ok n =>
    match insertInto t n with
    | .error e => (.error (q.storageError e.display),t)
    | .ok t' => (.ok (),t')

end Record

section Decode

/-- `RawReservedEntry::decode`, of a row that was loaded: its times are in chrono's range. -/
def decode (r : Row q.Own) : Except DecodeError q.Envelope := do
  let extraInfo ← (readExtraInfo r.extraInfo).elim (.error .invalidExtraInfo) .ok
  let token ← r.reservationId.elim (.error .missingReservation) .ok
  let metadata ← q.readMetadata r.metadata
  q.envelope r token metadata extraInfo

end Decode

section Failure

/-- The guard of every finalization: this row, reserved under this token. -/
def ownedBy (id token : Uuid) (r : Row q.Own) : Bool := decide (r.id = id) && r.heldBy token

/-- The columns that a failure sets. -/
def failedRow (extraInfo : Option Jsonb) (attempts maxAttempts : ℤ) (reason : Option String)
    (now : Timestamp) (r : Row q.Own) : Row q.Own :=
  { r with
    status := Status.failed.code
    reservationId := none
    reservedAt := none
    updatedAt := now
    extraInfo := extraInfo
    scheduledAt :=
      q.failureSchedule maxAttempts r.attempts (q.failureDelay attempts) now r.scheduledAt
    own := q.setLastError reason r.own }

@[simp] theorem failedRow_id (extraInfo : Option Jsonb) (attempts maxAttempts : ℤ)
    (reason : Option String) (now : Timestamp) (r : Row q.Own) :
    (failedRow extraInfo attempts maxAttempts reason now r).id = r.id := rfl

/-- `write_failure`. -/
def writeFailure (t : Rows q) (id token : Uuid) (attempts : ℤ) (original : Option Jsonb)
    (maxAttempts : ℤ) (reason : Option String) (now : Timestamp) :
    Except DieselError (Rows q) := do
  let extraInfo ← failureExtraInfo q.float original reason
  bindTexts (q.failureTexts reason)
  let updated := t.rows.countP (ownedBy id token)
  if updated ≠ 1 then .error .notFound
  else
    return t.update (ownedBy id token) (failedRow extraInfo attempts maxAttempts reason now)
      (failedRow_id extraInfo attempts maxAttempts reason now)

/-- `record_failure`. -/
def recordFailure (t : Rows q) (id token : Uuid) (maxAttempts : ℤ) (reason : Option String)
    (now : Timestamp) : Except DieselError (Rows q) :=
  match t.rows.find? (ownedBy id token) with
  | none => .error .notFound
  | some r => writeFailure t id token r.attempts r.extraInfo maxAttempts reason now

/-- How `failed` and `dead` tell a lost reservation from a failed statement. -/
def finalizationError (q : Queue) (id token : Uuid) : DieselError → q.Error
  | .notFound => q.notOwned id token
  | e => q.storageError e.display

/-- `failed`. -/
def failed (t : Rows q) (id token : Uuid) (maxAttempts : ℤ) (reason : Option String)
    (now : Timestamp) : Except q.Error Unit × Rows q :=
  let outcome := transaction
    (fun t => (recordFailure t id token maxAttempts reason now).map fun t' => ((),t')) t
  (outcome.1.mapError (finalizationError q id token),outcome.2)

end Failure

section Completion

/-- The columns that completion sets. -/
def completedRow (now : Timestamp) (r : Row q.Own) : Row q.Own :=
  { r with
    status := Status.completed.code
    processedAt := some now
    updatedAt := now
    reservationId := none
    reservedAt := none
    own := q.clearLastError r.own }

@[simp] theorem completedRow_id (now : Timestamp) (r : Row q.Own) :
    (completedRow now r).id = r.id := rfl

/-- `completed`. -/
def completed (t : Rows q) (id token : Uuid) (now : Timestamp) : Except q.Error Unit × Rows q :=
  let updated := t.rows.countP (ownedBy id token)
  let t' := t.update (ownedBy id token) (completedRow now) (completedRow_id now)
  if updated = 0 then (.error (q.notOwned id token),t') else (.ok (),t')

/-- The columns that the terminal transition sets. -/
def deadRow (extraInfo : Option Jsonb) (reason : Option String) (now : Timestamp)
    (r : Row q.Own) : Row q.Own :=
  { r with
    status := Status.dead.code
    reservationId := none
    reservedAt := none
    updatedAt := now
    own := q.setLastError reason r.own
    extraInfo := extraInfo }

@[simp] theorem deadRow_id (extraInfo : Option Jsonb) (reason : Option String) (now : Timestamp)
    (r : Row q.Own) : (deadRow extraInfo reason now r).id = r.id := rfl

/-- The history that the terminal transition writes. -/
def deadHistory (history : Option ExtraInfo) (reason : Option String) : Option ExtraInfo :=
  match reason with
  | some reason => some (appendError history reason)
  | none => history

/-- Bind a typed history. -/
def bindHistory (history : Option ExtraInfo) : Except DieselError (Option Jsonb) :=
  match history with
  | some history => (castJsonb (encodeExtraInfo history)).map some
  | none => .ok none

/-- The transaction of `dead`. -/
def recordDead (t : Rows q) (id token : Uuid) (reason : Option String) (now : Timestamp) :
    Except DieselError (Rows q) :=
  match t.rows.find? (ownedBy id token) with
  | none => .error .notFound
  | some r => do
    let history ← (readExtraInfo r.extraInfo).elim
      (.error (.deserialization "Error deserializing field 'extra_info'")) .ok
    bindTexts reason.toList
    let extraInfo ← bindHistory (deadHistory history reason)
    let updated := t.rows.countP (ownedBy id token)
    if updated = 0 then .error .notFound
    else
      return t.update (ownedBy id token) (deadRow extraInfo reason now)
        (deadRow_id extraInfo reason now)

/-- `dead`, which only the outbox port has. -/
def dead (t : Rows q) (id token : Uuid) (reason : Option String) (now : Timestamp) :
    Except q.Error Unit × Rows q :=
  let outcome := transaction (fun t => (recordDead t id token reason now).map fun t' => ((),t')) t
  (outcome.1.mapError (finalizationError q id token),outcome.2)

end Completion

section Reservation

/-- `ReservableCommandSpec` and its siblings. -/
structure ReservableSpec where
  /-- How many entries one call may reserve. -/
  limit : ℕ
  /-- The limit is a `usize`. -/
  limit_lt : limit < 2^64
  /-- Entries with as many attempts are left alone. -/
  maxAttempts : ℤ
  /-- The retry limit is an `i32`. -/
  maxAttempts_lt : maxAttempts < 2^31

/-- `DEFAULT_MAX_ATTEMPTS`. -/
def defaultMaxAttempts : ℤ := 6

theorem defaultMaxAttempts_lt : defaultMaxAttempts < 2^31 := by decide

/-- `ReservableCommandSpec::new` and its siblings. -/
def ReservableSpec.new (limit : ℕ) (h : limit < 2^64) : ReservableSpec :=
  ⟨limit,h,defaultMaxAttempts,defaultMaxAttempts_lt⟩

/-- `limit as i64`. -/
def ReservableSpec.boundLimit (spec : ReservableSpec) : ℤ :=
  if spec.limit < 2^63 then spec.limit else spec.limit-2^64

/-- What a reservation draws, and what Postgres decides about it. -/
structure ReserveDraw (q : Queue) where
  /-- `Uuid::now_v7`. -/
  token : Uuid
  /-- `now()`. -/
  now : Timestamp
  /-- How the candidates query meets the rows. -/
  candidates : Scan (Row q.Own)
  /-- How the update returns the rows. -/
  returning : Scan (Row q.Own)
  /-- The rows that `SKIP LOCKED` passes over. -/
  locked : Uuid → Bool

/-- The filter of the candidates query. -/
def eligible (spec : ReservableSpec) (now : Timestamp) (r : Row q.Own) : Bool :=
  (r.status = Status.received.code || r.status = Status.failed.code) && r.scheduledAt ≤ now &&
    r.attempts < spec.maxAttempts

/-- The rows of the candidates query. -/
def candidates (t : Rows q) (spec : ReservableSpec) (draw : ReserveDraw q) : List (Row q.Own) :=
  firstBy Row.scheduledAt spec.limit
    ((draw.candidates.order t.rows).filter fun r => eligible spec draw.now r && !draw.locked r.id)

/-- Whether a row is among the candidates. -/
def picked (t : Rows q) (spec : ReservableSpec) (draw : ReserveDraw q) (r : Row q.Own) : Bool :=
  decide (r.id ∈ (candidates t spec draw).map Row.id)

/-- The columns that a reservation sets. -/
def reservedRow (token : Uuid) (now : Timestamp) (r : Row q.Own) : Row q.Own :=
  { r with
    status := Status.reserved.code
    reservationId := some token
    reservedAt := some now
    attempts := r.attempts+1
    updatedAt := now }

@[simp] theorem reservedRow_id (token : Uuid) (now : Timestamp) (r : Row q.Own) :
    (reservedRow token now r).id = r.id := rfl

/-- What a reservation writes about a row that does not decode. -/
def reservationReason (id token : Uuid) (error : DecodeError) : String :=
  "item "++id.display++", reservation "++token.display++", stage reservation: "++error.text

/-- `finish_reservation`. -/
def finishReservation (token : Uuid) (maxAttempts : ℤ) (now : Timestamp) :
    List (Row q.Own) → Rows q → Except DieselError (List q.Envelope × Rows q)
  | [],t => .ok ([],t)
  | r::rows,t =>
    if r.reservationId ≠ some token ∨ r.status ≠ Status.reserved.code then .error .notFound
    else
      match decode r with
      | .ok envelope => do
        let (healthy,t') ← finishReservation token maxAttempts now rows t
        return (envelope::healthy,t')
      | .error error => do
        let t' ← writeFailure t r.id token r.attempts r.extraInfo maxAttempts
          (some (reservationReason r.id token error)) now
        finishReservation token maxAttempts now rows t'

/-- The transaction of `reserve`. -/
def reserveBody (spec : ReservableSpec) (draw : ReserveDraw q) (t : Rows q) :
    Except DieselError (List q.Envelope × Rows q) :=
  if spec.boundLimit < 0 then .error (.database "LIMIT must not be negative")
  else
    let t' := t.update (picked t spec draw) (reservedRow draw.token draw.now)
      (reservedRow_id draw.token draw.now)
    finishReservation draw.token spec.maxAttempts draw.now
      (draw.returning.order (t'.rows.filter (picked t spec draw))) t'

/-- `reserve`. A due row with a time out of chrono's range, such as `-infinity`, would fail the load
of the whole batch; a `Timestamp` is none. -/
def reserve (t : Rows q) (spec : ReservableSpec) (draw : ReserveDraw q) :
    Except q.Error (List q.Envelope) × Rows q :=
  let outcome := transaction (reserveBody spec draw) t
  (outcome.1.mapError fun e => q.reserveError e.display,outcome.2)

end Reservation

section Sweep

/-- `StaleCommandSpec` and its siblings. -/
structure StaleSpec where
  /-- How long a reservation lasts: a duration of chrono, in nanoseconds. -/
  timeout : ℤ
  /-- The retry limit. -/
  maxAttempts : ℤ

/-- The first microsecond of `DateTime::<Utc>::MIN_UTC`. -/
def chronoMin : Timestamp := -8334601228800000000

/-- The last microsecond of `DateTime::<Utc>::MAX_UTC`. -/
def chronoMax : Timestamp := 8210266876799999999

/-- A timestamp that chrono can represent. -/
def chronoTime (time : Timestamp) : Bool := chronoMin ≤ time && time ≤ chronoMax

/-- A sum or a difference that chrono can represent; outside this range it panics. -/
def chronoInstant (time : Instant) : Bool :=
  nanoseconds chronoMin ≤ time && time < nanoseconds (chronoMax+1)

/-- The earliest `timestamptz`, 4714-11-24 BC. -/
def timestamptzMin : Timestamp := -210866803200000000

/-- A timestamp before the earliest. -/
def outOfRange : DieselError := .database "timestamp out of range"

/-- The policy that a sweep applies: its cutoff is `now - spec.timeout`. -/
def StaleSpec.policy (spec : StaleSpec) (now : Timestamp) : ReservationTimeoutPolicy :=
  ⟨nanoseconds now-spec.timeout,spec.maxAttempts⟩

/-- Rows reserved strictly before the cutoff, as it is bound. -/
def stale (policy : ReservationTimeoutPolicy) (r : Row q.Own) : Bool :=
  r.status = Status.reserved.code &&
    r.reservedAt.any fun reservedAt => reservedAt < boundTime policy.reservedBefore

/-- When a timed-out row is due again. -/
def rescheduled (policy : ReservationTimeoutPolicy) (now : Timestamp) (r : Row q.Own) :
    Timestamp :=
  (q.timeoutOutcome policy r.attempts now r.scheduledAt).2

/-- The `extra_info` that a sweep computes in SQL. -/
def sweptExtraInfo (q : Queue) (original : Option Jsonb) : Except DieselError Jsonb :=
  jsonbSet (original.getD emptyObject) "errors" (by decide)
    (concatArray ((arrow original "errors").getD emptyArray) [.string q.timeoutMessage]
      (by simp [Json.allTextsItems,Json.allTexts,q.timeoutMessage_nulFree]))

/-- The columns that a sweep sets. -/
def sweptRow (policy : ReservationTimeoutPolicy) (now : Timestamp) (extraInfo : Jsonb)
    (r : Row q.Own) : Row q.Own :=
  { r with
    status := (q.timeoutOutcome policy r.attempts now r.scheduledAt).1.code
    reservationId := none
    reservedAt := none
    scheduledAt := rescheduled policy now r
    updatedAt := now
    extraInfo := some extraInfo }

/-- The bulk update of one row; an error of any row fails the statement. -/
def sweepRow (policy : ReservationTimeoutPolicy) (now : Timestamp) (r : Row q.Own) :
    Except DieselError (Row q.Own) :=
  (sweptExtraInfo q r.extraInfo).map fun extraInfo => sweptRow policy now extraInfo r

theorem sweepRow_id {policy : ReservationTimeoutPolicy} {now : Timestamp} (r s : Row q.Own)
    (h : sweepRow policy now r = .ok s) : s.id = r.id := by
  unfold sweepRow at h
  cases he : sweptExtraInfo q r.extraInfo with
  | error e => rw [he] at h; cases h
  | ok j => rw [he] at h; cases h; rfl

/-- The candidates of a sweep, their new schedules and the bulk update; `none` is a panic. The
schedules of all candidates are summed up before the update binds them. -/
def sweepStale (policy : ReservationTimeoutPolicy) (now : Timestamp) (t : Rows q) :
    Option (Except DieselError (ℕ × Rows q)) :=
  if boundTime policy.reservedBefore < timestamptzMin then some (.error outOfRange)
  else
    let candidates := t.rows.filter (stale policy)
    let schedules := candidates.map (rescheduled policy now)
    if candidates.isEmpty then some (.ok (0,t))
    else if schedules.all chronoTime then
      if schedules.any (· < timestamptzMin) then some (.error outOfRange)
      else some do
        let t' ← t.tryUpdate (stale policy) (sweepRow policy now) sweepRow_id
        return (candidates.length,t')
    else none

/-- The transaction of `sweep`. -/
def sweepBody (spec : StaleSpec) (now : Timestamp) (t : Rows q) :
    Option (Except DieselError (ℕ × Rows q)) :=
  if chronoTime now then
    if chronoInstant (StaleSpec.policy spec now).reservedBefore then
      sweepStale (StaleSpec.policy spec now) now t
    else none
  else some (.error (.deserialization "Error deserializing field 'transaction_timestamp'"))

/-- What `sweep` makes of its transaction, which a panic drops. -/
def sweepOutcome (t : Rows q) (body : Option (Except DieselError (ℕ × Rows q))) :
    Option (Except q.Error ℕ) × Rows q :=
  match body with
  | none => (none,t)
  | some result =>
    let outcome := transaction (fun _ => result) t
    (some (outcome.1.mapError fun e => q.storageError e.display),outcome.2)

/-- `sweep`. -/
def sweep (t : Rows q) (spec : StaleSpec) (now : Timestamp) :
    Option (Except q.Error ℕ) × Rows q :=
  sweepOutcome t (sweepBody spec now t)

end Sweep

end Mulac.Repository
