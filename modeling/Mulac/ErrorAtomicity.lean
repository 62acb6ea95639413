import Mulac.SqlSession
import Mulac.ReserveContract

/-!
# Error atomicity

The calls of the four repositories, statement by statement, over a connection
that may fail at every step. A call that returns an error has left the table
alone: what it executes alone does nothing when it is refused, and what it
executes in sequence stands in one transaction, whose errors it passes on.
-/

namespace Mulac.ErrorAtomicity

open Identifiers Postgres QueueDomain KeyedTable QueueRow Repository RepositoryContracts FourQueues
  QueueCalls QueueRuns ReserveContract PanicProgram SqlSession

variable {q : Queue}

section Statements

/-- The statements of a repository, with what they bind and draw. -/
inductive Statement (q : Queue) where
  /-- `INSERT … ON CONFLICT DO NOTHING`. -/
  | insert (n : NewRow q.Own)
  /-- `UPDATE … FROM candidates … RETURNING`. -/
  | claim (spec : ReservableSpec) (draw : ReserveDraw q)
  /-- `SELECT … FOR UPDATE` of the row that a failure is about. -/
  | selectOwned (id token : Uuid)
  /-- The update of `write_failure`. -/
  | updateFailed (id token : Uuid) (attempts : ℤ) (original : Option Jsonb) (maxAttempts : ℤ)
    (reason : Option String) (now : Timestamp)
  /-- The update of `completed`. -/
  | updateCompleted (id token : Uuid) (now : Timestamp)
  /-- `SELECT extra_info … FOR UPDATE` of the row that `dead` is about. -/
  | selectHistory (id token : Uuid)
  /-- The update of `dead`. -/
  | updateDead (id token : Uuid) (history : Option ExtraInfo) (reason : Option String)
    (now : Timestamp)
  /-- `SELECT transaction_timestamp()`. -/
  | transactionTimestamp (now : Timestamp)
  /-- `SELECT … FOR UPDATE` of the stale rows. -/
  | selectStale (policy : ReservationTimeoutPolicy)
  /-- The bulk update of the rows that a sweep has locked, with the schedules it binds. -/
  | updateStale (ids : List Uuid) (schedules : List Timestamp)
    (policy : ReservationTimeoutPolicy) (now : Timestamp)

/-- What a statement returns: its rows, or how many it updated. -/
abbrev Statement.Answer : Statement q → Type
  | insert _ => Unit
  | claim _ _ => List (Row q.Own)
  | selectOwned _ _ => Row q.Own
  | updateFailed _ _ _ _ _ _ _ => ℕ
  | updateCompleted _ _ _ => ℕ
  | selectHistory _ _ => Option ExtraInfo
  | updateDead _ _ _ _ _ => ℕ
  | transactionTimestamp _ => Timestamp
  | selectStale _ => List (Row q.Own)
  | updateStale _ _ _ _ => ℕ

/-- The update of `reserve`. -/
def claimRows (t : Rows q) (p : Row q.Own → Bool) (token : Uuid) (now : Timestamp) : Rows q :=
  t.update p (reservedRow token now) (reservedRow_id token now)

/-- What a statement does. -/
def Statement.apply : (s : Statement q) → Rows q → Except DieselError (s.Answer × Rows q)
  | insert n,t => (insertInto t n).map fun t' => ((),t')
  | claim spec draw,t =>
    if spec.boundLimit < 0 then .error (.database "LIMIT must not be negative")
    else
      let t' := claimRows t (picked t spec draw) draw.token draw.now
      .ok (draw.returning.order (t'.rows.filter (picked t spec draw)),t')
  | selectOwned id token,t =>
    (t.rows.find? (ownedBy id token)).elim (.error .notFound) fun r => .ok (r,t)
  | updateFailed id token attempts original maxAttempts reason now,t => do
    let extraInfo ← failureExtraInfo q.float original reason
    bindTexts (q.failureTexts reason)
    return (t.rows.countP (ownedBy id token),
      t.update (ownedBy id token) (failedRow extraInfo attempts maxAttempts reason now)
        (failedRow_id extraInfo attempts maxAttempts reason now))
  | updateCompleted id token now,t =>
    .ok (t.rows.countP (ownedBy id token),
      t.update (ownedBy id token) (completedRow now) (completedRow_id now))
  | selectHistory id token,t =>
    (t.rows.find? (ownedBy id token)).elim (.error .notFound) fun r =>
      (readExtraInfo r.extraInfo).elim
        (.error (.deserialization "Error deserializing field 'extra_info'"))
        fun history => .ok (history,t)
  | updateDead id token history reason now,t => do
    bindTexts reason.toList
    let extraInfo ← bindHistory history
    return (t.rows.countP (ownedBy id token),
      t.update (ownedBy id token) (deadRow extraInfo reason now) (deadRow_id extraInfo reason now))
  | transactionTimestamp now,t =>
    if chronoTime now then .ok (now,t)
    else .error (.deserialization "Error deserializing field 'transaction_timestamp'")
  | selectStale policy,t =>
    if boundTime policy.reservedBefore < timestamptzMin then .error outOfRange
    else .ok (t.rows.filter (stale policy),t)
  | updateStale ids schedules policy now,t =>
    if schedules.any (· < timestamptzMin) then .error outOfRange
    else do
      let t' ← t.tryUpdate (fun r => decide (r.id ∈ ids)) (sweepRow policy now) sweepRow_id
      return (t.rows.countP fun r => decide (r.id ∈ ids),t')

end Statements

section Calls

/-- A program of a repository over its connection. -/
abbrev Sql (q : Queue) : Type → Type := Query (Statement q) Statement.Answer DieselError

/-- `record` and `store`. -/
def recordOn (entry : q.NewEntry) (appNow now : Timestamp) : Sql q (Except q.Error Unit) :=
  match q.newRow entry appNow now with
  | .error e => .ret (.error e)
  | .ok n => tryThen (mapErr (fun e => q.storageError e.display) checkout) fun _ =>
    mapErr (fun e => q.storageError e.display) (execute (Statement.insert n))

/-- `write_failure`. -/
def writeFailureOn (id token : Uuid) (attempts : ℤ) (original : Option Jsonb) (maxAttempts : ℤ)
    (reason : Option String) (now : Timestamp) : Sql q (Except DieselError Unit) :=
  tryThen (execute (Statement.updateFailed id token attempts original maxAttempts reason now))
    fun updated => .ret (if updated ≠ 1 then .error .notFound else .ok ())

/-- `record_failure`. -/
def recordFailureOn (id token : Uuid) (maxAttempts : ℤ) (reason : Option String)
    (now : Timestamp) : Sql q (Except DieselError Unit) :=
  tryThen (execute (Statement.selectOwned id token)) fun r =>
    writeFailureOn id token r.attempts r.extraInfo maxAttempts reason now

/-- `finish_reservation`. -/
def finishReservationOn (token : Uuid) (maxAttempts : ℤ) (now : Timestamp) :
    List (Row q.Own) → Sql q (Except DieselError (List q.Envelope))
  | [] => .ret (.ok [])
  | r::rows =>
    if r.reservationId ≠ some token ∨ r.status ≠ Status.reserved.code then .ret (.error .notFound)
    else
      match decode r with
      | .ok envelope => tryThen (finishReservationOn token maxAttempts now rows) fun healthy =>
        .ret (.ok (envelope::healthy))
      | .error error =>
        tryThen (writeFailureOn r.id token r.attempts r.extraInfo maxAttempts
          (some (reservationReason r.id token error)) now) fun _ =>
            finishReservationOn token maxAttempts now rows

/-- `reserve`; `returned` is what becomes of the claimed rows before the repository
reads them. -/
def reserveOn (returned : List (Row q.Own) → List (Row q.Own)) (spec : ReservableSpec)
    (draw : ReserveDraw q) : Sql q (Except q.Error (List q.Envelope)) :=
  tryThen (mapErr (fun e => q.reserveError e.display) checkout) fun _ =>
    mapErr (fun e => q.reserveError e.display) (transaction
      (tryThen (execute (Statement.claim spec draw)) fun rows =>
        finishReservationOn draw.token spec.maxAttempts draw.now (returned rows)))

/-- `completed`. -/
def completedOn (id token : Uuid) (now : Timestamp) : Sql q (Except q.Error Unit) :=
  tryThen (mapErr (fun e => q.storageError e.display) checkout) fun _ =>
    tryThen (mapErr (fun e => q.storageError e.display)
      (execute (Statement.updateCompleted id token now))) fun updated =>
        .ret (if updated ≠ 0 then .ok () else .error (q.notOwned id token))

/-- `failed`. -/
def failedOn (id token : Uuid) (maxAttempts : ℤ) (reason : Option String) (now : Timestamp) :
    Sql q (Except q.Error Unit) :=
  tryThen (mapErr (fun e => q.storageError e.display) checkout) fun _ =>
    mapErr (finalizationError q id token)
      (transaction (recordFailureOn id token maxAttempts reason now))

/-- The transaction of `dead`. -/
def recordDeadOn (id token : Uuid) (reason : Option String) (now : Timestamp) :
    Sql q (Except DieselError Unit) :=
  tryThen (execute (Statement.selectHistory id token)) fun history =>
    tryThen (execute (Statement.updateDead id token (deadHistory history reason) reason now))
      fun updated => .ret (if updated = 0 then .error .notFound else .ok ())

/-- `dead`. -/
def deadOn (id token : Uuid) (reason : Option String) (now : Timestamp) :
    Sql q (Except q.Error Unit) :=
  tryThen (mapErr (fun e => q.storageError e.display) checkout) fun _ =>
    mapErr (finalizationError q id token) (transaction (recordDeadOn id token reason now))

/-- The transaction of `sweep`, after the cutoff is computed. The loop over the candidates
panics on a schedule that chrono cannot represent. -/
def sweepStaleOn (policy : ReservationTimeoutPolicy) (now : Timestamp) :
    Sql q (Except DieselError ℕ) :=
  tryThen (execute (Statement.selectStale policy)) fun candidates =>
    let schedules := candidates.map (rescheduled policy now)
    if candidates.isEmpty then .ret (.ok 0)
    else if schedules.all chronoTime then
      execute (Statement.updateStale (candidates.map Row.id) schedules policy now)
    else .panic

/-- The transaction of `sweep`. -/
def sweepBodyOn (spec : StaleSpec) (now : Timestamp) : Sql q (Except DieselError ℕ) :=
  tryThen (execute (Statement.transactionTimestamp now)) fun now =>
    if chronoInstant (StaleSpec.policy spec now).reservedBefore then
      sweepStaleOn (StaleSpec.policy spec now) now
    else .panic

/-- `sweep`. -/
def sweepOn (spec : StaleSpec) (now : Timestamp) : Sql q (Except q.Error ℕ) :=
  tryThen (mapErr (fun e => q.storageError e.display) checkout) fun _ =>
    mapErr (fun e => q.storageError e.display) (transaction (sweepBodyOn spec now))

/-- What a call returns. -/
abbrev Call.Reply : Call q → Type
  | .reserve _ _ => List q.Envelope
  | .sweep _ _ => ℕ
  | _ => Unit

/-- A call on its connection. -/
def onConnection (returned : List (Row q.Own) → List (Row q.Own)) :
    (c : Call q) → Sql q (Except q.Error (Call.Reply c))
  | .record entry appNow now => recordOn entry appNow now
  | .reserve spec draw => reserveOn returned spec draw
  | .finalize .completed id token now => completedOn id token now
  | .finalize (.failed maxAttempts reason) id token now => failedOn id token maxAttempts reason now
  | .finalize (.dead _ reason) id token now => deadOn id token reason now
  | .sweep spec now => sweepOn spec now

end Calls

section Atomicity

variable {returned : List (Row q.Own) → List (Row q.Own)}

theorem confined_writeFailureOn (id token : Uuid) (attempts : ℤ) (original : Option Jsonb)
    (maxAttempts : ℤ) (reason : Option String) (now : Timestamp) :
    Confined Statement.apply
      (writeFailureOn id token attempts original maxAttempts reason now : Sql q _) :=
  .tryThen (.execute _) fun _ => .ret _

/-- Whatever rows a reservation reads, it handles them inside the transaction. -/
theorem confined_finishReservationOn (token : Uuid) (maxAttempts : ℤ) (now : Timestamp)
    (rows : List (Row q.Own)) :
    Confined Statement.apply (finishReservationOn token maxAttempts now rows) := by
  induction rows with
  | nil => exact .ret _
  | cons r rows ih =>
    unfold finishReservationOn
    split
    · exact .ret _
    · split
      · exact .tryThen ih fun _ => .ret _
      · exact .tryThen (confined_writeFailureOn _ _ _ _ _ _ _) fun _ => ih

/-- An update that met no row did nothing. -/
theorem update_of_countP {t : Rows q} {p : Row q.Own → Bool} {f : Row q.Own → Row q.Own}
    (hf : ∀ r, (f r).id = r.id) (h : t.rows.countP p = 0) : t.update p f hf = t :=
  t.update_of_none hf fun r hr => by simpa using List.countP_eq_zero.mp h r hr

/-- Every call is atomic. -/
theorem atomic_onConnection (c : Call q) : Atomic Statement.apply (onConnection returned c) := by
  have hcheckout : ∀ f : DieselError → q.Error,
      Idle Statement.apply (mapErr f checkout : Sql q (Except q.Error Unit)) :=
    fun f => Idle.checkout.mapErr f
  cases c with
  | record entry appNow now =>
    change Atomic _ (recordOn entry appNow now)
    unfold recordOn
    split
    · exact (Idle.ret _).atomic
    · exact .tryThen (hcheckout _) fun _ => (Atomic.execute _).mapErr _
  | reserve spec draw =>
    refine .tryThen (hcheckout _) fun _ => (Atomic.transaction ?_).mapErr _
    exact .tryThen (.execute _) fun _ => confined_finishReservationOn _ _ _ _
  | finalize f id token now =>
    cases f with
    | completed =>
      refine .tryThen (hcheckout _) fun _ => Atomic.checked fun t updated t' e ha hk => ?_
      cases ha
      refine update_of_countP (completedRow_id now) (by_contra fun hne => ?_)
      rw [if_pos hne] at hk
      cases hk
    | failed maxAttempts reason =>
      refine .tryThen (hcheckout _) fun _ => (Atomic.transaction ?_).mapErr _
      exact .tryThen (.execute _) fun _ => confined_writeFailureOn _ _ _ _ _ _ _
    | dead port reason =>
      refine .tryThen (hcheckout _) fun _ => (Atomic.transaction ?_).mapErr _
      exact .tryThen (.execute _) fun _ => .tryThen (.execute _) fun _ => .ret _
  | sweep spec now =>
    refine .tryThen (hcheckout _) fun _ => (Atomic.transaction ?_).mapErr _
    refine .tryThen (.execute _) fun now => ?_
    split
    · refine .tryThen (.execute _) fun candidates => ?_
      dsimp only
      split
      · exact .ret _
      · split
        · exact .execute _
        · exact .panic
    · exact .panic

/-- The run of a call on a connection, from a table, under faults. -/
def runOn (returned : List (Row q.Own) → List (Row q.Own)) (c : Call q) (t : Rows q)
    (faults : ℕ → Option DieselError) :
    Option (Except q.Error (Call.Reply c)) × Session (Rows q) DieselError :=
  (onConnection returned c).run (answer Statement.apply) ⟨t,none,faults⟩

/-- Error atomicity: at whatever point a call fails, if it returns an error then the
table is what it was, and no transaction is left open. -/
theorem error_atomicity (name : QueueName) (float : SerdeJson.FloatReader)
    (t : Rows (name.queue float)) (c : Call (name.queue float))
    (returned : List (Row (name.queue float).Own) → List (Row (name.queue float).Own))
    (faults : ℕ → Option DieselError) {e : (name.queue float).Error}
    (h : (runOn returned c t faults).1 = some (.error e)) :
    (runOn returned c t faults).2.stored = t ∧ (runOn returned c t faults).2.working = none := by
  have hatomic : Atomic Statement.apply (onConnection returned c) := atomic_onConnection c
  obtain ⟨hw,hs⟩ := hatomic ⟨t,none,faults⟩ rfl
  refine ⟨hs fun a ha => ?_,hw⟩
  have hsome := h.symm.trans ha
  cases hsome

/-- A reservation that claims both rows of a table and finds the second malformed. -/
def mixedReserve : Call (QueueName.commands.queue .integersOnly) :=
  .reserve { singleSpec with limit := 10, limit_lt := by decide } (plainDraw (.fromU128 7) 0)

/-- The connection breaks at the write about the malformed row. -/
def brokenWrite (n : ℕ) : Option DieselError :=
  if n = 3 then some (.database "connection closed") else none

theorem error_atomicity_mixed :
    (runOn id mixedReserve mixedTable brokenWrite).2.stored = mixedTable ∧
    (runOn id mixedReserve mixedTable brokenWrite).2.working = none :=
  error_atomicity .commands .integersOnly mixedTable mixedReserve id brokenWrite
    (show _ = some (Except.error (Envelopes.CommandError.reservation "connection closed")) from rfl)

end Atomicity

section Refinement

variable {t : Rows q}

/-- What a call returns without faults; none is a panic. -/
def resultOf (t : Rows q) : (c : Call q) → Option (Except q.Error (Call.Reply c))
  | .record entry appNow now => some (record t entry appNow now).1
  | .reserve spec draw => some (reserve t spec draw).1
  | .finalize .completed id token now => some (completed t id token now).1
  | .finalize (.failed maxAttempts reason) id token now =>
    some (failed t id token maxAttempts reason now).1
  | .finalize (.dead _ reason) id token now => some (dead t id token reason now).1
  | .sweep spec now => (sweep t spec now).1

/-- The update of `write_failure`, with its count. -/
theorem computes_writeFailureOn (id token : Uuid) (attempts : ℤ) (original : Option Jsonb)
    (maxAttempts : ℤ) (reason : Option String) (now : Timestamp) :
    Computes Statement.apply
      (writeFailureOn id token attempts original maxAttempts reason now : Sql q _) fun t =>
        (writeFailure t id token attempts original maxAttempts reason now).map
          fun t' => ((),t') := by
  refine (Computes.tryThen (.execute _) fun _ => .ret _).congr fun t => ?_
  rw [writeFailure,Statement.apply]
  cases failureExtraInfo q.float original reason with
  | error e => rfl
  | ok extraInfo =>
    cases bindTexts (q.failureTexts reason) with
    | error e => rfl
    | ok u =>
      change Except.map _ (if _ then _ else _) = Except.map _ (if _ then _ else _)
      by_cases hn : t.rows.countP (ownedBy id token) ≠ 1
      · rw [if_pos hn,if_pos hn]
        rfl
      · rw [if_neg hn,if_neg hn]
        rfl

theorem computes_recordFailureOn (id token : Uuid) (maxAttempts : ℤ) (reason : Option String)
    (now : Timestamp) :
    Computes Statement.apply (recordFailureOn id token maxAttempts reason now : Sql q _)
      fun t => (recordFailure t id token maxAttempts reason now).map fun t' => ((),t') := by
  refine (Computes.tryThen (.execute _) fun r =>
    computes_writeFailureOn _ _ _ _ _ _ _).congr fun t => ?_
  rw [recordFailure,Statement.apply]
  cases t.rows.find? (ownedBy id token) <;> rfl

/-- `finish_reservation`, row by row. -/
theorem computes_finishReservationOn (token : Uuid) (maxAttempts : ℤ) (now : Timestamp)
    (rows : List (Row q.Own)) :
    Computes Statement.apply (finishReservationOn token maxAttempts now rows)
      (finishReservation token maxAttempts now rows) := by
  induction rows with
  | nil => exact .ret _
  | cons r rows ih =>
    unfold finishReservationOn
    split
    · next hg =>
      refine (Computes.ret _).congr fun t => ?_
      rw [finishReservation,if_pos hg]
      rfl
    · next hg =>
      split
      · next envelope hd =>
        refine (Computes.tryThen ih fun _ => .ret _).congr fun t => ?_
        rw [finishReservation,if_neg hg,hd]
        rfl
      · next error hd =>
        refine (Computes.tryThen (computes_writeFailureOn _ _ _ _ _ _ _) fun _ => ih).congr
          fun t => ?_
        rw [finishReservation,if_neg hg,hd]
        dsimp only
        cases writeFailure t r.id token r.attempts r.extraInfo maxAttempts
          (some (reservationReason r.id token error)) now <;> rfl

theorem computes_reserveBody (spec : ReservableSpec) (draw : ReserveDraw q) :
    Computes Statement.apply (tryThen (execute (Statement.claim spec draw)) fun rows =>
      finishReservationOn draw.token spec.maxAttempts draw.now rows : Sql q _)
        (reserveBody spec draw) := by
  have hrows : ∀ rows : List (Row q.Own), Computes Statement.apply
      (finishReservationOn draw.token spec.maxAttempts draw.now rows)
      (finishReservation draw.token spec.maxAttempts draw.now rows) :=
    computes_finishReservationOn draw.token spec.maxAttempts draw.now
  refine (Computes.tryThen (.execute _) hrows).congr fun t => ?_
  rw [reserveBody,Statement.apply]
  split <;> rfl

theorem computes_recordDeadOn (id token : Uuid) (reason : Option String) (now : Timestamp) :
    Computes Statement.apply (recordDeadOn id token reason now : Sql q _)
      fun t => (recordDead t id token reason now).map fun t' => ((),t') := by
  refine (Computes.tryThen (.execute _) fun history => Computes.tryThen (.execute _) fun _ =>
    .ret _).congr fun t => ?_
  rw [recordDead,Statement.apply]
  cases t.rows.find? (ownedBy id token) with
  | none => rfl
  | some r =>
    simp only [Option.elim_some]
    cases readExtraInfo r.extraInfo with
    | none => rfl
    | some history =>
      change (Statement.apply (.updateDead id token (deadHistory history reason) reason now) t).bind
        _ = Except.map _ (do bindTexts reason.toList; _)
      rw [Statement.apply]
      cases bindTexts reason.toList with
      | error e => rfl
      | ok u =>
        cases bindHistory (deadHistory history reason) with
        | error e => rfl
        | ok extraInfo =>
          change Except.map _ (if _ then _ else _) = Except.map _ (if _ then _ else _)
          by_cases hn : t.rows.countP (ownedBy id token) = 0
          · rw [if_pos hn,if_pos hn]
            rfl
          · rw [if_neg hn,if_neg hn]
            rfl

/-- The rows that a sweep has locked are the stale ones. -/
theorem locked_eq {policy : ReservationTimeoutPolicy} {r : Row q.Own} (hr : r ∈ t.rows) :
    decide (r.id ∈ (t.rows.filter (stale policy)).map Row.id) = stale policy r := by
  rw [Bool.eq_iff_iff,decide_eq_true_eq]
  constructor
  · intro h
    obtain ⟨r',hr',hid⟩ := List.mem_map.mp h
    obtain ⟨hmem,hst⟩ := List.mem_filter.mp hr'
    rwa [← t.row_eq hmem hr hid]
  · exact fun h => List.mem_map_of_mem (List.mem_filter.mpr ⟨hr,h⟩)

/-- What a run inside a transaction came to, given what the repository says of it. -/
def CameTo {α : Type} (out : Option (Except DieselError α) × Session (Rows q) DieselError)
    (t : Rows q) : Option (Except DieselError (α × Rows q)) → Prop
  | none => ∃ w, out = (none,.calm t (some w))
  | some (.error e) => ∃ w, out = (some (.error e),.calm t (some w))
  | some (.ok (a,t')) => out = (some (.ok a),.calm t (some t'))

/-- The bulk update of the rows that a sweep has locked is the update of the stale rows. -/
theorem updateStale_eq (policy : ReservationTimeoutPolicy) (now : Timestamp)
    (schedules : List Timestamp) (t : Rows q) :
    Statement.apply (.updateStale ((t.rows.filter (stale policy)).map Row.id) schedules policy now)
        t =
      if schedules.any (· < timestamptzMin) then .error outOfRange
      else do
        let t' ← t.tryUpdate (stale policy) (sweepRow policy now) sweepRow_id
        return ((t.rows.filter (stale policy)).length,t') := by
  have hcount :
      t.rows.countP (fun r => decide (r.id ∈ (t.rows.filter (stale policy)).map Row.id)) =
      (t.rows.filter (stale policy)).length := by
    rw [← List.countP_eq_length_filter]
    exact List.countP_congr fun r hr => by rw [locked_eq hr]
  have hsame : ∀ r ∈ t.rows,
      Table.rewriteIf (fun r => decide (r.id ∈ (t.rows.filter (stale policy)).map Row.id))
        (sweepRow policy now) r = Table.rewriteIf (stale policy) (sweepRow policy now) r := by
    intro r hr
    rw [Table.rewriteIf,Table.rewriteIf,locked_eq hr]
  rw [Statement.apply,t.tryUpdate_congr sweepRow_id sweepRow_id hsame,hcount]

theorem run_sweepStaleOn (policy : ReservationTimeoutPolicy) (now : Timestamp) (t : Rows q) :
    CameTo ((sweepStaleOn policy now).run (answer Statement.apply) (.calm t (some t))) t
      (sweepStale policy now t) := by
  rw [sweepStaleOn,run_tryThen,run_execute_calm,Option.getD_some,Statement.apply,sweepStale]
  by_cases hmin : boundTime policy.reservedBefore < timestamptzMin
  · rw [if_pos hmin,if_pos hmin]
    exact ⟨t,rfl⟩
  · rw [if_neg hmin,if_neg hmin]
    dsimp only
    by_cases hempty : (t.rows.filter (stale policy)).isEmpty = true
    · rw [if_pos hempty,if_pos hempty]
      rfl
    · rw [if_neg hempty,if_neg hempty]
      by_cases hsum : ((t.rows.filter (stale policy)).map (rescheduled policy now)).all
          chronoTime = true
      · rw [if_pos hsum,if_pos hsum]
        have hwrite : (Session.calm t (some t)).write t = Session.calm (δ:=DieselError) t (some t) :=
          rfl
        rw [hwrite,run_execute_calm,Option.getD_some,updateStale_eq]
        by_cases hbind : ((t.rows.filter (stale policy)).map (rescheduled policy now)).any
            (· < timestamptzMin) = true
        · rw [if_pos hbind,if_pos hbind]
          exact ⟨t,rfl⟩
        · rw [if_neg hbind,if_neg hbind]
          cases t.tryUpdate (stale policy) (sweepRow policy now) sweepRow_id with
          | error e => exact ⟨t,rfl⟩
          | ok t' => rfl
      · rw [if_neg hsum,if_neg hsum]
        exact ⟨t,rfl⟩

theorem run_sweepBodyOn (spec : StaleSpec) (now : Timestamp) (t : Rows q) :
    CameTo ((sweepBodyOn spec now).run (answer Statement.apply) (.calm t (some t))) t
      (sweepBody spec now t) := by
  rw [sweepBodyOn,run_tryThen,run_execute_calm,Option.getD_some,Statement.apply,sweepBody]
  by_cases hnow : chronoTime now = true
  · rw [if_pos hnow,if_pos hnow]
    dsimp only
    by_cases hcutoff : chronoInstant (StaleSpec.policy spec now).reservedBefore = true
    · rw [if_pos hcutoff,if_pos hcutoff]
      exact run_sweepStaleOn _ now t
    · rw [if_neg hcutoff,if_neg hcutoff]
      exact ⟨t,rfl⟩
  · rw [if_neg hnow,if_neg hnow]
    exact ⟨t,rfl⟩

/-- A transaction without faults, as the repository states it. -/
theorem run_transaction_calm {α : Type} {body : Sql q (Except DieselError α)}
    {f : Rows q → Except DieselError (α × Rows q)} (h : Computes Statement.apply body f)
    (t : Rows q) :
    (SqlSession.transaction body).run (answer Statement.apply) (.calm t none) =
      (some (Repository.transaction f t).1,.calm (Repository.transaction f t).2 none) := by
  rw [h.transaction t,Repository.transaction]
  cases f t <;> rfl

/-- Without faults every call returns and leaves what the repository specifies. -/
theorem onConnection_calm (c : Call q) (t : Rows q) :
    (onConnection id c).run (answer Statement.apply) (.calm t none) =
      (resultOf t c,.calm (step t c) none) := by
  have hcheckout : ∀ (f : DieselError → q.Error) {α : Type}
      (k : Unit → Sql q (Except q.Error α)),
      (tryThen (mapErr f checkout) k).run (answer Statement.apply) (.calm t none) =
        (k ()).run (answer Statement.apply) (.calm t none) := by
    intro f α k
    rw [run_tryThen,run_mapErr,run_checkout_calm]
    rfl
  cases c with
  | record entry appNow now =>
    change (recordOn entry appNow now).run _ _ = (some (record t entry appNow now).1,
      Session.calm (record t entry appNow now).2 none)
    unfold recordOn record
    cases q.newRow entry appNow now with
    | error e => rfl
    | ok n =>
      dsimp only
      rw [hcheckout,run_mapErr,run_execute_calm,Option.getD_none,Statement.apply]
      cases insertInto t n <;> rfl
  | reserve spec draw =>
    change (reserveOn id spec draw).run _ _ = _
    have hbody := run_transaction_calm (computes_reserveBody spec draw) t
    rw [reserveOn,hcheckout,run_mapErr]
    simp only [id_eq,hbody]
    rfl
  | finalize f k token now =>
    cases f with
    | completed =>
      change (completedOn k token now).run _ _ = (some (completed t k token now).1,
        Session.calm (completed t k token now).2 none)
      rw [completedOn,hcheckout,run_tryThen,run_mapErr,run_execute_calm,Option.getD_none,
        Statement.apply,completed]
      by_cases hn : t.rows.countP (ownedBy k token) = 0
      · simp only [hn,if_true]
        rfl
      · simp only [hn,if_false,Option.map_some,Except.mapError,ne_eq,not_false_eq_true,if_true]
        rfl
    | failed maxAttempts reason =>
      change (failedOn k token maxAttempts reason now).run _ _ = _
      rw [failedOn,hcheckout,run_mapErr,
        run_transaction_calm (computes_recordFailureOn k token maxAttempts reason now)]
      rfl
    | dead port reason =>
      change (deadOn k token reason now).run _ _ = _
      rw [deadOn,hcheckout,run_mapErr,
        run_transaction_calm (computes_recordDeadOn k token reason now)]
      rfl
  | sweep spec now =>
    change (sweepOn spec now).run _ _ = ((sweep t spec now).1,
      Session.calm (sweep t spec now).2 none)
    have hbody := run_sweepBodyOn spec now t
    rw [sweepOn,hcheckout,run_mapErr,sweep]
    cases hs : sweepBody spec now t with
    | none =>
      rw [hs] at hbody
      obtain ⟨w,hrun⟩ := hbody
      rw [run_transaction_panic hrun]
      rfl
    | some result =>
      rw [hs] at hbody
      cases result with
      | error e =>
        obtain ⟨w,hrun⟩ := hbody
        rw [run_transaction_error hrun]
        rfl
      | ok out =>
        rw [run_transaction_ok hbody]
        rfl

end Refinement

end Mulac.ErrorAtomicity
