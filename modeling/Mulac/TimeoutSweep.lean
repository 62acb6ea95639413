import Mulac.FailureDiagnostics
import Mulac.SweepPoison

/-!
# Exact sweeps

A sweep reads its candidates, fills three parallel arrays with what the timeout
policy decides about each, and joins the unnested arrays with the table by id.
Statement by statement this is the sweep that updates every stale row from its
own columns. It changes the stale rows and no other, has nothing to do when it
is repeated, and composes with sweeps of other timeouts; of an outbox row it
makes what a failure with the same message makes.
-/

namespace Mulac.TimeoutSweep

open JsonValue Identifiers Postgres SerdeJson QueueDomain KeyedTable QueueRow Repository
  RepositoryContracts FourQueues QueueCalls QueueRuns FailureHistory FailureDiagnostics SweepPoison

variable {q : Queue} {t : Rows q}

section Statements

/-- What the candidates query selects of a stale row. -/
structure Candidate where
  /-- The row's id. -/
  id : Uuid
  /-- How often the row was reserved. -/
  attempts : ℤ
  /-- When the row was due. -/
  scheduledAt : Timestamp

/-- The selected columns of a row. -/
def candidateOf (r : Row q.Own) : Candidate := ⟨r.id,r.attempts,r.scheduledAt⟩

/-- The candidates query: the stale rows by ascending id, locked. -/
def staleCandidates (policy : ReservationTimeoutPolicy) (t : Rows q) : List Candidate :=
  ((t.rows.filter (stale policy)).insertionSort fun a b =>
    a.id.bits.toNat ≤ b.id.bits.toNat).map candidateOf

/-- The parallel arrays that the loop over the candidates fills. -/
structure OutcomeArrays where
  /-- `ids`. -/
  ids : List Uuid
  /-- `statuses`. -/
  statuses : List ℤ
  /-- `schedules`. -/
  schedules : List Timestamp

/-- The body of the loop over the candidates; `none` is the panic of `now + delay`. -/
def pushOutcome (q : Queue) (policy : ReservationTimeoutPolicy) (now : Timestamp)
    (arrays : OutcomeArrays) (c : Candidate) : Option OutcomeArrays :=
  let outcome := q.timeoutOutcome policy c.attempts now c.scheduledAt
  if chronoTime outcome.2 then
    some ⟨arrays.ids++[c.id],arrays.statuses++[outcome.1.code],arrays.schedules++[outcome.2]⟩
  else none

/-- `unnest` of three arrays: a shorter one is continued with NULLs. -/
def unnest {α β γ : Type} (as : List α) (bs : List β) (cs : List γ) :
    List (Option α × Option β × Option γ) :=
  (List.range (max as.length (max bs.length cs.length))).map fun i => (as[i]?,bs[i]?,cs[i]?)

/-- The joined outcome of an entry: `entries.id = outcomes.id`. -/
def outcomeFor (outcomes : List (Option Uuid × Option ℤ × Option Timestamp)) (id : Uuid) :
    Option (Option ℤ × Option Timestamp) :=
  (outcomes.find? fun o => o.1 = some id).map Prod.snd

/-- The columns that the bulk update sets; neither the status nor the schedule may be NULL. -/
def updateEntry (now : Timestamp) (outcomes : List (Option Uuid × Option ℤ × Option Timestamp))
    (r : Row q.Own) : Except DieselError (Row q.Own) :=
  match outcomeFor outcomes r.id with
  | some (some status,some scheduledAt) =>
    (sweptExtraInfo q r.extraInfo).map fun extraInfo =>
      { r with
        status := status
        reservationId := none
        reservedAt := none
        scheduledAt := scheduledAt
        updatedAt := now
        extraInfo := some extraInfo }
  | _ => .error (.database "null value violates not-null constraint")

theorem updateEntry_id {now : Timestamp}
    {outcomes : List (Option Uuid × Option ℤ × Option Timestamp)} (r s : Row q.Own)
    (h : updateEntry now outcomes r = .ok s) : s.id = r.id := by
  unfold updateEntry at h
  split at h
  · cases he : sweptExtraInfo q r.extraInfo with
    | error e => rw [he] at h; cases h
    | ok j => rw [he] at h; cases h; rfl
  · cases h

/-- `UPDATE … FROM unnest …`, which reports how many rows it has joined. -/
def updateFrom (now : Timestamp) (outcomes : List (Option Uuid × Option ℤ × Option Timestamp))
    (t : Rows q) : Except DieselError (ℕ × Rows q) := do
  let affected := t.rows.countP fun r => (outcomeFor outcomes r.id).isSome
  let t' ← t.tryUpdate (fun r => (outcomeFor outcomes r.id).isSome) (updateEntry now outcomes)
    updateEntry_id
  return (affected,t')

/-- The candidates query, the loop and the bulk update with its arrays. -/
def sweepStatements (policy : ReservationTimeoutPolicy) (now : Timestamp) (t : Rows q) :
    Option (Except DieselError (ℕ × Rows q)) :=
  if boundTime policy.reservedBefore < timestamptzMin then some (.error outOfRange)
  else
    let candidates := staleCandidates policy t
    if candidates.isEmpty then some (.ok (0,t))
    else do
      let arrays ← candidates.foldlM (pushOutcome q policy now) ⟨[],[],[]⟩
      if arrays.schedules.any (· < timestamptzMin) then some (.error outOfRange)
      else some (updateFrom now (unnest arrays.ids arrays.statuses arrays.schedules) t)

/-- The transaction of `sweep`, statement by statement. -/
def sweepEntriesBody (spec : StaleSpec) (now : Timestamp) (t : Rows q) :
    Option (Except DieselError (ℕ × Rows q)) :=
  if chronoTime now then
    if chronoInstant (StaleSpec.policy spec now).reservedBefore then
      sweepStatements (StaleSpec.policy spec now) now t
    else none
  else some (.error (.deserialization "Error deserializing field 'transaction_timestamp'"))

/-- `sweep` with the arrays of its bulk update. -/
def sweepEntries (t : Rows q) (spec : StaleSpec) (now : Timestamp) :
    Option (Except q.Error ℕ) × Rows q :=
  sweepOutcome t (sweepEntriesBody spec now t)

/-- The loop keeps the arrays parallel, and panics if a schedule cannot be represented. -/
theorem foldlM_pushOutcome (policy : ReservationTimeoutPolicy) (now : Timestamp)
    (candidates : List Candidate) (arrays : OutcomeArrays) :
    candidates.foldlM (pushOutcome q policy now) arrays =
      if (candidates.map fun c =>
          (q.timeoutOutcome policy c.attempts now c.scheduledAt).2).all chronoTime then
        some ⟨arrays.ids++candidates.map Candidate.id,
          arrays.statuses++candidates.map fun c =>
            (q.timeoutOutcome policy c.attempts now c.scheduledAt).1.code,
          arrays.schedules++candidates.map fun c =>
            (q.timeoutOutcome policy c.attempts now c.scheduledAt).2⟩
      else none := by
  induction candidates generalizing arrays with
  | nil => simp
  | cons c candidates ih =>
    rw [List.foldlM_cons,pushOutcome]
    cases hc : chronoTime (q.timeoutOutcome policy c.attempts now c.scheduledAt).2 with
    | true => simp [hc,ih]
    | false => simp [hc]

/-- Arrays of one length unnest without a NULL. -/
theorem unnest_map {α β γ δ : Type} (l : List δ) (f : δ → α) (g : δ → β) (h : δ → γ) :
    unnest (l.map f) (l.map g) (l.map h) = l.map fun x => (some (f x),some (g x),some (h x)) := by
  unfold unnest
  apply List.ext_getElem
  · simp
  · intro i hi hl
    rw [List.length_map] at hl
    simp [hl]

/-- A stored row joins its own outcome, if it is stale, and no other. -/
theorem outcomeFor_stored {r : Row q.Own} (hr : r ∈ t.rows) (policy : ReservationTimeoutPolicy)
    (f : Candidate → ℤ) (g : Candidate → Timestamp) :
    outcomeFor ((staleCandidates policy t).map fun c => (some c.id,some (f c),some (g c))) r.id =
      if stale policy r then some (some (f (candidateOf r)),some (g (candidateOf r)))
      else none := by
  have hmem : ∀ s, s ∈ (t.rows.filter (stale policy)).insertionSort
      (fun a b => a.id.bits.toNat ≤ b.id.bits.toNat) ↔ s ∈ t.rows ∧ stale policy s = true :=
    fun s => (List.perm_insertionSort _ _).mem_iff.trans List.mem_filter
  unfold outcomeFor staleCandidates
  cases hst : stale policy r with
  | true =>
    cases hf : List.find? (fun o => decide (o.1 = some r.id))
        ((((t.rows.filter (stale policy)).insertionSort fun a b =>
          a.id.bits.toNat ≤ b.id.bits.toNat).map candidateOf).map
            fun c => (some c.id,some (f c),some (g c))) with
    | none =>
      have hnone := List.find?_eq_none.mp hf (some r.id,some (f (candidateOf r)),
        some (g (candidateOf r))) (by
          rw [List.map_map]
          exact List.mem_map.mpr ⟨r,(hmem r).mpr ⟨hr,hst⟩,rfl⟩)
      simp at hnone
    | some o =>
      have hid := List.find?_some hf
      have ho := List.mem_of_find?_eq_some hf
      rw [List.map_map] at ho
      obtain ⟨s,hs,rfl⟩ := List.mem_map.mp ho
      have hsame : s.id = r.id := Option.some.inj (of_decide_eq_true hid)
      rw [t.row_eq ((hmem s).mp hs).1 hr hsame]
      rfl
  | false =>
    rw [if_neg (by simp),Option.map_eq_none_iff,List.find?_eq_none]
    intro o ho hid
    rw [List.map_map] at ho
    obtain ⟨s,hs,rfl⟩ := List.mem_map.mp ho
    have hsame : s.id = r.id := Option.some.inj (of_decide_eq_true hid)
    rw [t.row_eq ((hmem s).mp hs).1 hr hsame] at hs
    rw [((hmem r).mp hs).2] at hst
    cases hst

/-- The schedules of the candidates are those of the stale rows, in the order of the ids. -/
theorem schedules_perm (policy : ReservationTimeoutPolicy) (now : Timestamp) (t : Rows q) :
    ((staleCandidates policy t).map fun c =>
      (q.timeoutOutcome policy c.attempts now c.scheduledAt).2).Perm
        ((t.rows.filter (stale policy)).map (rescheduled policy now)) := by
  rw [staleCandidates,List.map_map]
  exact (List.perm_insertionSort _ _).map _

/-- The bulk update, joined with the arrays, is the update of every stale row from its own
columns. -/
theorem updateFrom_eq (policy : ReservationTimeoutPolicy) (now : Timestamp) (t : Rows q) :
    updateFrom now ((staleCandidates policy t).map fun c => (some c.id,
        some (q.timeoutOutcome policy c.attempts now c.scheduledAt).1.code,
        some (q.timeoutOutcome policy c.attempts now c.scheduledAt).2)) t = (do
      let t' ← t.tryUpdate (stale policy) (sweepRow policy now) sweepRow_id
      return ((t.rows.filter (stale policy)).length,t')) := by
  have hjoin := fun (r : Row q.Own) (hr : r ∈ t.rows) => outcomeFor_stored hr policy
    (fun c => (q.timeoutOutcome policy c.attempts now c.scheduledAt).1.code)
    fun c => (q.timeoutOutcome policy c.attempts now c.scheduledAt).2
  generalize (staleCandidates policy t).map (fun c => (some c.id,
    some (q.timeoutOutcome policy c.attempts now c.scheduledAt).1.code,
    some (q.timeoutOutcome policy c.attempts now c.scheduledAt).2)) = outcomes at hjoin ⊢
  have hselect : ∀ r ∈ t.rows, (outcomeFor outcomes r.id).isSome = stale policy r := by
    intro r hr
    rw [hjoin r hr]
    cases stale policy r <;> rfl
  have hcount : t.rows.countP (fun r => (outcomeFor outcomes r.id).isSome) =
      (t.rows.filter (stale policy)).length := by
    rw [← List.countP_eq_length_filter]
    exact List.countP_congr fun r hr => by rw [hselect r hr]
  have hsame : ∀ r ∈ t.rows,
      Table.rewriteIf (fun r => (outcomeFor outcomes r.id).isSome) (updateEntry now outcomes) r =
        Table.rewriteIf (stale policy) (sweepRow policy now) r := by
    intro r hr
    rw [Table.rewriteIf,Table.rewriteIf,hselect r hr]
    cases hst : stale policy r with
    | false => rfl
    | true => rw [if_pos rfl,if_pos rfl,updateEntry,hjoin r hr,hst]; rfl
  rw [updateFrom,hcount,t.tryUpdate_congr updateEntry_id sweepRow_id hsame]

/-- The statements of a sweep do what the sweep does row by row. -/
theorem sweepStatements_eq (policy : ReservationTimeoutPolicy) (now : Timestamp) (t : Rows q) :
    sweepStatements policy now t = sweepStale policy now t := by
  have hempty : (staleCandidates policy t).isEmpty = (t.rows.filter (stale policy)).isEmpty := by
    rw [Bool.eq_iff_iff,List.isEmpty_iff,staleCandidates,List.map_eq_nil_iff,List.isEmpty_iff,
      ← List.length_eq_zero_iff,(List.perm_insertionSort _ _).length_eq,List.length_eq_zero_iff]
  have hperm := schedules_perm policy now t
  have hall := hperm.all_eq (f:=chronoTime)
  have hany := hperm.any_eq (f:=fun time => decide (time < timestamptzMin))
  unfold sweepStatements sweepStale
  split
  · rfl
  · dsimp only
    rw [hempty,foldlM_pushOutcome,hall]
    split
    · rfl
    · split
      · rw [Option.bind_eq_bind,Option.bind_some]
        dsimp only
        rw [List.nil_append,List.nil_append,List.nil_append,hany,unnest_map,updateFrom_eq]
      · rfl

/-- So is the whole call. -/
theorem sweepEntries_eq (t : Rows q) (spec : StaleSpec) (now : Timestamp) :
    sweepEntries t spec now = sweep t spec now := by
  have hbody : sweepEntriesBody spec now t = sweepBody spec now t := by
    rw [sweepEntriesBody,sweepBody,sweepStatements_eq]
  rw [sweepEntries,sweep,hbody]

end Statements

section Exactness

variable {spec : StaleSpec} {now : Timestamp} {r r' : Row q.Own}

/-- The items of the `errors` of a stored value. -/
def errorItems (extraInfo : Option Jsonb) : List Json :=
  match Json.field (topFields extraInfo) "errors" with
  | some (.array items) => items
  | _ => []

/-- NULL, or an object whose `errors` is absent or an array. -/
def Appendable (extraInfo : Option Jsonb) : Prop :=
  ∀ j, extraInfo = some j → ∃ fields, j.value = .object fields ∧
    ∀ v, Json.field fields "errors" = some v → ∃ items, v = .array items

/-- One message after the errors that were there, and every other field as it was. -/
def Appended (message : String) (before after : Option Jsonb) : Prop :=
  ∃ j fields, after = some j ∧ j.value = .object fields ∧ ∀ name, Json.field fields name =
    if name = "errors" then some (.array (errorItems before++[.string message]))
    else Json.field (topFields before) name

/-- The path that a sweep sets appends its message. -/
theorem appended_swept {original : Option Jsonb} (h : Appendable original) :
    ∃ j, sweptExtraInfo q original = .ok j ∧ Appended q.timeoutMessage original (some j) := by
  cases original with
  | none => exact ⟨_,rfl,_,_,rfl,rfl,fun name => Json.field_setField [] "errors" _ name⟩
  | some j =>
    obtain ⟨fields,hj,herrors⟩ := h j rfl
    obtain ⟨v,hv⟩ := j
    obtain rfl : v = .object fields := hj
    cases hf : Json.field fields "errors" with
    | none =>
      have hitems : errorItems (some ⟨.object fields,hv⟩) = [] := by
        rw [errorItems,topFields,Option.elim_some,fieldsOf,hf]
      refine ⟨_,by rw [sweptExtraInfo,arrow_missing hv hf]; rfl,_,_,rfl,rfl,fun name => ?_⟩
      rw [Json.field_setField,hitems]
      rfl
    | some w =>
      obtain ⟨items,rfl⟩ := herrors w hf
      obtain ⟨hs,ha⟩ := arrow_object hv hf
      have hitems : errorItems (some ⟨.object fields,hv⟩) = items := by
        rw [errorItems,topFields,Option.elim_some,fieldsOf,hf]
      refine ⟨_,by rw [sweptExtraInfo,ha]; rfl,_,_,rfl,rfl,fun name => ?_⟩
      rw [Json.field_setField,hitems]
      rfl

/-- What a timeout makes of a row: `Failed` without a token, one message more, a schedule from
its own attempts, and all else as it was. -/
structure TimedOut (spec : StaleSpec) (now : Timestamp) (r r' : Row q.Own) : Prop where
  /-- The row is `Failed`. -/
  failed : r'.status = Status.failed.code
  /-- It has no token. -/
  released : r'.reservationId = none ∧ r'.reservedAt = none
  /-- It waits as long as the policy makes it wait for its own attempts. -/
  scheduled : r'.scheduledAt =
    (q.timeoutOutcome (StaleSpec.policy spec now) r.attempts now r.scheduledAt).2
  /-- It was changed now. -/
  updated : r'.updatedAt = now
  /-- Its errors end with the message. -/
  appended : Appended q.timeoutMessage r.extraInfo r'.extraInfo
  /-- Its other columns are what they were. -/
  kept : r'.id = r.id ∧ r'.attempts = r.attempts ∧ r'.payload = r.payload ∧
    r'.metadata = r.metadata ∧ r'.processedAt = r.processedAt ∧ r'.receivedAt = r.receivedAt ∧
    r'.own = r.own

theorem timedOut_swept {j : Jsonb} (h : Appended q.timeoutMessage r.extraInfo (some j)) :
    TimedOut spec now r (sweptRow (StaleSpec.policy spec now) now j r) :=
  ⟨sweptRow_status _ now j r,⟨rfl,rfl⟩,rfl,rfl,h,⟨rfl,rfl,rfl,rfl,rfl,rfl,rfl⟩⟩

/-- What one sweep must do: each expired row times out, no other row changes, the count is the
number of changed rows, and a second sweep at the same time finds nothing. -/
structure SweepExact (t : Rows q) (spec : StaleSpec) (now : Timestamp) (n : ℕ) (t' : Rows q) :
    Prop where
  /-- Row by row. -/
  rows : List.Forall₂ (fun r r' => (Expired spec now r ∧ TimedOut spec now r r') ∨
    (¬Expired spec now r ∧ r' = r)) t.rows t'.rows
  /-- The count. -/
  counted : ∃ changed : List Uuid, changed.Nodup ∧ changed.length = n ∧
    ∀ id, id ∈ changed ↔ t'.find? id ≠ t.find? id
  /-- The second sweep. -/
  again : sweepEntries t' spec now = (some (.ok 0),t')

/-- A sweep goes through and does what it must. -/
def SweepsExactly (t : Rows q) (spec : StaleSpec) (now : Timestamp) : Prop :=
  ∃ n t', sweepEntries t spec now = (some (.ok n),t') ∧ SweepExact t spec now n t'

/-- Two sweeps of one time and limit are the sweep of the shorter timeout. -/
def SweepsCompose (t : Rows q) (first second maxAttempts : ℤ) (now : Timestamp) : Prop :=
  ∃ n₁ n₂ t₁ t₂, sweepEntries t ⟨first,maxAttempts⟩ now = (some (.ok n₁),t₁) ∧
    sweepEntries t₁ ⟨second,maxAttempts⟩ now = (some (.ok n₂),t₂) ∧
    sweepEntries t ⟨min first second,maxAttempts⟩ now = (some (.ok (n₁+n₂)),t₂)

/-- A sweep that finds nothing changes nothing. -/
theorem sweep_of_fresh (hc : StaleSpec.Fits spec now t)
    (h : ∀ r ∈ t.rows, stale (StaleSpec.policy spec now) r = false) :
    sweep t spec now = (some (.ok 0),t) := by
  have hcount : t.rows.countP (stale (StaleSpec.policy spec now)) = 0 :=
    List.countP_eq_zero.mpr fun r hr => by rw [h r hr]; simp
  rw [sweep_of_ok t hc (fun r hr hs => by rw [h r hr] at hs; cases hs),t.update_of_none _ h,hcount]

/-- The update that a sweep runs when the reserved rows can be appended to. -/
def timeOut (t : Rows q) (spec : StaleSpec) (now : Timestamp) : Rows q :=
  t.update (stale (StaleSpec.policy spec now))
    (Table.rewrite (sweepRow (StaleSpec.policy spec now) now)) (Table.rewrite_key sweepRow_id)

/-- Every reserved row can be appended to. -/
def AllAppendable (t : Rows q) : Prop :=
  ∀ r ∈ t.rows, r.status = Status.reserved.code → Appendable r.extraInfo

theorem sweepRow_stale (h : AllAppendable t) (hr : r ∈ t.rows)
    (hs : stale (StaleSpec.policy spec now) r = true) :
    ∃ r', sweepRow (StaleSpec.policy spec now) now r = .ok r' ∧ TimedOut spec now r r' := by
  obtain ⟨j,hj,happended⟩ := appended_swept (q:=q) (h r hr (stale_iff.mp hs).1.1)
  exact ⟨_,by rw [sweepRow,hj]; rfl,timedOut_swept happended⟩

theorem sweep_eq_timeOut (h : AllAppendable t) (hc : StaleSpec.Fits spec now t) :
    sweep t spec now = (some (.ok (t.rows.countP (stale (StaleSpec.policy spec now)))),
      timeOut t spec now) := by
  refine sweep_of_ok t hc fun r hr hs => ?_
  obtain ⟨r',hr',_⟩ := sweepRow_stale h hr hs
  exact ⟨r',hr'⟩

/-- What the update makes of a stored row. -/
theorem timeOut_row (h : AllAppendable t) (spec : StaleSpec) (now : Timestamp)
    (hr : r ∈ t.rows) :
    (stale (StaleSpec.policy spec now) r = true ∧
      TimedOut spec now r (if stale (StaleSpec.policy spec now) r then
        Table.rewrite (sweepRow (StaleSpec.policy spec now) now) r else r)) ∨
    (stale (StaleSpec.policy spec now) r = false ∧ (if stale (StaleSpec.policy spec now) r then
      Table.rewrite (sweepRow (StaleSpec.policy spec now) now) r else r) = r) := by
  cases hs : stale (StaleSpec.policy spec now) r with
  | true =>
    obtain ⟨r',hok,ht⟩ := sweepRow_stale h hr hs
    rw [if_pos rfl,Table.rewrite_of_ok hok]
    exact .inl ⟨rfl,ht⟩
  | false => exact .inr ⟨rfl,rfl⟩

/-- A row that has timed out is not stale. -/
theorem not_stale_of_timedOut {policy : ReservationTimeoutPolicy} (h : TimedOut spec now r r') :
    stale policy r' = false := by
  rw [stale,h.failed]
  rfl

/-- What is stale after the update was there before it, and not stale for it. -/
theorem stale_timeOut (h : AllAppendable t) {policy : ReservationTimeoutPolicy}
    (hr' : r' ∈ (timeOut t spec now).rows) (hs : stale policy r' = true) :
    r' ∈ t.rows ∧ stale (StaleSpec.policy spec now) r' = false := by
  obtain ⟨r,hr,rfl⟩ := List.mem_map.mp hr'
  rcases timeOut_row h spec now hr with ⟨_,ht⟩ | ⟨hfalse,he⟩
  · rw [not_stale_of_timedOut ht] at hs
    cases hs
  · rw [he]
    exact ⟨hr,hfalse⟩

/-- After the update no row is stale. -/
theorem timeOut_fresh (h : AllAppendable t) :
    ∀ r ∈ (timeOut t spec now).rows, stale (StaleSpec.policy spec now) r = false := by
  intro r hr
  by_contra hs
  rw [Bool.not_eq_false] at hs
  exact absurd hs (by rw [(stale_timeOut h hr hs).2]; simp)

/-- The times that fit a table fit what a sweep leaves of it. -/
theorem fits_timeOut (h : AllAppendable t) {spec' : StaleSpec}
    (hc : StaleSpec.Fits spec' now t) : StaleSpec.Fits spec' now (timeOut t spec now) :=
  ⟨hc.readable,hc.cutoff,hc.bound,fun r hr hs => hc.schedules r (stale_timeOut h hr hs).1 hs⟩

/-- The changed rows are the stale ones. -/
theorem timeOut_changed (h : AllAppendable t) (id : Uuid) :
    id ∈ (t.rows.filter (stale (StaleSpec.policy spec now))).map Row.id ↔
      (timeOut t spec now).find? id ≠ t.find? id := by
  rw [timeOut,Table.find?_update]
  constructor
  · intro hid
    obtain ⟨r,hr,rfl⟩ := List.mem_map.mp hid
    obtain ⟨hmem,hs⟩ := List.mem_filter.mp hr
    obtain ⟨r',hok,ht⟩ := sweepRow_stale h hmem hs
    rw [Table.find?_key hmem,Option.map_some,if_pos hs,Table.rewrite_of_ok hok]
    intro he
    have hstatus := ht.failed
    rw [Option.some.inj he,(stale_iff.mp hs).1.1] at hstatus
    simp at hstatus
  · intro hne
    cases hf : t.find? id with
    | none => rw [hf] at hne; exact absurd rfl hne
    | some r =>
      have hmem := Table.mem_of_find? hf
      refine List.mem_map.mpr ⟨r,List.mem_filter.mpr ⟨hmem,?_⟩,Table.key_of_find? hf⟩
      by_contra hs
      rw [hf,Option.map_some,if_neg hs] at hne
      exact hne rfl

/-- Over rows that can be appended to, a sharp sweep is exact. -/
theorem sweepsExactly_of_sharp (h : AllAppendable t) (hc : StaleSpec.Sharp spec now t) :
    SweepsExactly t spec now := by
  refine ⟨_,timeOut t spec now,by rw [sweepEntries_eq,sweep_eq_timeOut h hc.fits],?_,
    ⟨_,?_,?_,timeOut_changed h⟩,?_⟩
  · rw [timeOut,Table.update_rows,List.forall₂_map_right_iff,List.forall₂_same]
    intro r hr
    have hexpired := stale_iff_expired (hc.overlooks r hr)
    rcases timeOut_row h spec now hr with ⟨hs,ht⟩ | ⟨hs,he⟩
    · exact .inl ⟨hexpired.mp hs,ht⟩
    · exact .inr ⟨fun hx => Bool.eq_false_iff.mp hs (hexpired.mpr hx),he⟩
  · exact t.keys_nodup.sublist ((List.filter_sublist).map Row.id)
  · rw [List.length_map,List.countP_eq_length_filter]
  · rw [sweepEntries_eq]
    exact sweep_of_fresh (fits_timeOut h hc.fits) (timeOut_fresh h)

/-- Only a sharp sweep is exact: a row that it overlooks has expired and stays. -/
theorem sharp_of_sweepsExactly (h : AllAppendable t) (hx : SweepsExactly t spec now) :
    StaleSpec.Sharp spec now t := by
  obtain ⟨n,t',hs,hexact⟩ := hx
  rw [sweepEntries_eq] at hs
  rcases sweep_cases t spec now with ⟨hc,_⟩ | ⟨hne,_⟩
  · refine ⟨hc,fun r hr ho => ?_⟩
    have ht' : t' = timeOut t spec now :=
      (congrArg Prod.snd hs).symm.trans (congrArg Prod.snd (sweep_eq_timeOut h hc))
    have hrows := hexact.rows
    rw [ht',timeOut,Table.update_rows,List.forall₂_map_right_iff,List.forall₂_same] at hrows
    have hfresh : ¬stale (StaleSpec.policy spec now) r = true := fun hs => (stale_iff.mp hs).2 ho
    rcases hrows r hr with ⟨_,ht⟩ | ⟨hno,_⟩
    · rw [if_neg hfresh] at ht
      have hstatus := ht.failed.symm.trans ho.1
      simp at hstatus
    · exact hno ho.expired
  · exact absurd (congrArg Prod.fst hs) (hne n)

end Exactness

section Composition

variable {spec : StaleSpec} {now : Timestamp}

/-- A shorter timeout releases what a longer one releases. -/
theorem stale_mono {shorter longer maxAttempts : ℤ} (h : shorter ≤ longer) {r : Row q.Own}
    (hs : stale (StaleSpec.policy ⟨longer,maxAttempts⟩ now) r = true) :
    stale (StaleSpec.policy ⟨shorter,maxAttempts⟩ now) r = true := by
  have hbound : boundTime (StaleSpec.policy ⟨longer,maxAttempts⟩ now).reservedBefore ≤
      boundTime (StaleSpec.policy ⟨shorter,maxAttempts⟩ now).reservedBefore :=
    boundTime_mono (Int.sub_le_sub_left h _)
  rw [stale,Bool.and_eq_true,Option.any_eq_true] at hs ⊢
  obtain ⟨hstatus,reservedAt,hat,hlt⟩ := hs
  exact ⟨hstatus,reservedAt,hat,decide_eq_true ((of_decide_eq_true hlt).trans_le hbound)⟩

/-- The shorter timeout releases what either timeout releases. -/
theorem stale_min {first second maxAttempts : ℤ} (r : Row q.Own) :
    stale (StaleSpec.policy ⟨min first second,maxAttempts⟩ now) r =
      (stale (StaleSpec.policy ⟨first,maxAttempts⟩ now) r ||
        stale (StaleSpec.policy ⟨second,maxAttempts⟩ now) r) := by
  rw [Bool.eq_iff_iff,Bool.or_eq_true]
  constructor
  · intro h
    rcases min_choice first second with he | he <;> rw [he] at h
    · exact .inl h
    · exact .inr h
  · intro h
    rcases h with h | h
    · exact stale_mono (min_le_left first second) h
    · exact stale_mono (min_le_right first second) h

/-- Whom a sweep releases depends on its timeout; what it makes of a row does not. -/
theorem sweepRow_timeout (name : QueueName) (float : FloatReader) (first second maxAttempts : ℤ)
    (now : Timestamp) (r : Row (name.queue float).Own) :
    sweepRow (StaleSpec.policy ⟨first,maxAttempts⟩ now) now r =
      sweepRow (StaleSpec.policy ⟨second,maxAttempts⟩ now) now r := by
  cases name <;> rfl

/-- A sweep leaves rows that can be appended to. -/
theorem appendable_timeOut (h : AllAppendable t) : AllAppendable (timeOut t spec now) := by
  intro r' hr' hstatus
  obtain ⟨r,hr,rfl⟩ := List.mem_map.mp hr'
  rcases timeOut_row h spec now hr with ⟨_,ht⟩ | ⟨_,he⟩
  · rw [ht.failed] at hstatus
    simp at hstatus
  · rw [he] at hstatus ⊢
    exact h r hr hstatus

/-- Two predicates that exclude each other are counted one by one. -/
theorem countP_or {α : Type} {p s : α → Bool} (l : List α)
    (h : ∀ a ∈ l, p a = true → s a = false) :
    l.countP (fun a => p a || s a) = l.countP p+l.countP s := by
  induction l with
  | nil => rfl
  | cons a l ih =>
    have hl := ih fun b hb => h b (List.mem_cons_of_mem a hb)
    have ha := h a (List.mem_cons_self ..)
    rw [List.countP_cons,List.countP_cons,List.countP_cons,hl]
    cases hp : p a with
    | true => rw [ha hp]; simp; omega
    | false => cases s a <;> simp; omega

/-- The second sweep finds what only the second timeout expires. -/
theorem stale_after (h : AllAppendable t) (first second maxAttempts : ℤ) {r : Row q.Own}
    (hr : r ∈ t.rows) :
    stale (StaleSpec.policy ⟨second,maxAttempts⟩ now)
      (if stale (StaleSpec.policy ⟨first,maxAttempts⟩ now) r then
        Table.rewrite (sweepRow (StaleSpec.policy ⟨first,maxAttempts⟩ now) now) r else r) =
      (!stale (StaleSpec.policy ⟨first,maxAttempts⟩ now) r &&
        stale (StaleSpec.policy ⟨second,maxAttempts⟩ now) r) := by
  rcases timeOut_row h ⟨first,maxAttempts⟩ now hr with ⟨hs,ht⟩ | ⟨hs,he⟩
  · rw [not_stale_of_timedOut ht,hs]
    rfl
  · rw [he,hs]
    rfl

/-- The counts of the two sweeps add up. -/
theorem count_after (h : AllAppendable t) (first second maxAttempts : ℤ) :
    t.rows.countP (stale (StaleSpec.policy ⟨min first second,maxAttempts⟩ now)) =
      t.rows.countP (stale (StaleSpec.policy ⟨first,maxAttempts⟩ now))+
        (timeOut t ⟨first,maxAttempts⟩ now).rows.countP
          (stale (StaleSpec.policy ⟨second,maxAttempts⟩ now)) := by
  have hafter : (timeOut t ⟨first,maxAttempts⟩ now).rows.countP
      (stale (StaleSpec.policy ⟨second,maxAttempts⟩ now)) =
      t.rows.countP fun r => !stale (StaleSpec.policy ⟨first,maxAttempts⟩ now) r &&
        stale (StaleSpec.policy ⟨second,maxAttempts⟩ now) r := by
    rw [timeOut,Table.update_rows,List.countP_map]
    exact List.countP_congr fun r hr => by
      rw [Function.comp_apply,stale_after h first second maxAttempts hr]
  rw [hafter,← countP_or]
  · refine List.countP_congr fun r _ => ?_
    rw [stale_min]
    cases stale (StaleSpec.policy ⟨first,maxAttempts⟩ now) r <;> simp
  · intro r _ hs
    rw [hs]
    rfl

/-- The two updates are the update of the shorter timeout. -/
theorem timeOut_timeOut (name : QueueName) (float : FloatReader) {t : Rows (name.queue float)}
    (h : AllAppendable t) (first second maxAttempts : ℤ) :
    timeOut (timeOut t ⟨first,maxAttempts⟩ now) ⟨second,maxAttempts⟩ now =
      timeOut t ⟨min first second,maxAttempts⟩ now := by
  apply Table.ext
  rw [timeOut,timeOut,Table.update_update,timeOut,Table.update_rows]
  refine List.map_congr_left fun r hr => ?_
  rw [stale_after h first second maxAttempts hr,stale_min]
  have hrow : ∀ timeout,
      Table.rewrite (sweepRow (StaleSpec.policy ⟨timeout,maxAttempts⟩ now) now) r =
        Table.rewrite (sweepRow (StaleSpec.policy ⟨first,maxAttempts⟩ now) now) r := by
    intro timeout
    rw [Table.rewrite,Table.rewrite,sweepRow_timeout name float timeout first]
  cases stale (StaleSpec.policy ⟨first,maxAttempts⟩ now) r with
  | true => simp [hrow]
  | false => simp [hrow second,hrow (min first second)]

/-- Two sweeps whose times fit compose. -/
theorem sweepsCompose_of_fits (name : QueueName) (float : FloatReader)
    {t : Rows (name.queue float)} (h : AllAppendable t) {first second maxAttempts : ℤ}
    (hfirst : StaleSpec.Fits ⟨first,maxAttempts⟩ now t)
    (hsecond : StaleSpec.Fits ⟨second,maxAttempts⟩ now t) :
    SweepsCompose t first second maxAttempts now := by
  have hmin : StaleSpec.Fits ⟨min first second,maxAttempts⟩ now t := by
    rcases min_choice first second with he | he <;> rw [he] <;> assumption
  refine ⟨t.rows.countP (stale (StaleSpec.policy ⟨first,maxAttempts⟩ now)),
    (timeOut t ⟨first,maxAttempts⟩ now).rows.countP
      (stale (StaleSpec.policy ⟨second,maxAttempts⟩ now)),timeOut t ⟨first,maxAttempts⟩ now,
    timeOut (timeOut t ⟨first,maxAttempts⟩ now) ⟨second,maxAttempts⟩ now,?_,?_,?_⟩
  · rw [sweepEntries_eq,sweep_eq_timeOut h hfirst]
  · rw [sweepEntries_eq,sweep_eq_timeOut (appendable_timeOut h) (fits_timeOut h hsecond)]
  · rw [sweepEntries_eq,sweep_eq_timeOut h hmin,timeOut_timeOut name float h,
      count_after h first second maxAttempts]

/-- Sweeping over rows that can be appended to: two sweeps are exact and compose in either
order if and only if both are sharp. -/
theorem sweep_exact_iff (name : QueueName) (float : FloatReader) (t : Rows (name.queue float))
    (h : AllAppendable t) (first second maxAttempts : ℤ) (now : Timestamp) :
    (SweepsExactly t ⟨first,maxAttempts⟩ now ∧ SweepsExactly t ⟨second,maxAttempts⟩ now ∧
      SweepsCompose t first second maxAttempts now ∧
      SweepsCompose t second first maxAttempts now) ↔
    StaleSpec.Sharp ⟨first,maxAttempts⟩ now t ∧ StaleSpec.Sharp ⟨second,maxAttempts⟩ now t := by
  constructor
  · intro hexact
    exact ⟨sharp_of_sweepsExactly h hexact.1,sharp_of_sweepsExactly h hexact.2.1⟩
  · intro hsharp
    obtain ⟨hfirst,hsecond⟩ := hsharp
    exact ⟨sweepsExactly_of_sharp h hfirst,sweepsExactly_of_sharp h hsecond,
      sweepsCompose_of_fits name float h hfirst.fits hsecond.fits,
      sweepsCompose_of_fits name float h hsecond.fits hfirst.fits⟩

/-- `chrono::Duration::MAX`, in nanoseconds. -/
def durationMax : ℤ := 9223372036854775807000000

theorem appendable_held : AllAppendable heldTable := by
  intro r hr _ j hj
  rw [List.mem_singleton.mp hr] at hj
  cases hj

/-- With the longest of all timeouts the sweep panics on its cutoff. -/
theorem longest_timeout_panics : AllAppendable heldTable ∧
    (sweepEntries heldTable ⟨durationMax,6⟩ 0).1 = none ∧
    ¬SweepsExactly heldTable ⟨durationMax,6⟩ 0 := by
  refine ⟨appendable_held,by rfl,?_⟩
  rintro ⟨n,t',hs,_⟩
  have hpanic : (sweepEntries heldTable ⟨durationMax,6⟩ 0).1 = none := by rfl
  rw [hs] at hpanic
  cases hpanic

theorem sweep_exact_held :
    SweepsExactly heldTable ⟨3000,6⟩ 5 ∧ SweepsExactly heldTable ⟨10000,6⟩ 5 ∧
      SweepsCompose heldTable 3000 10000 6 5 ∧ SweepsCompose heldTable 10000 3000 6 5 :=
  (sweep_exact_iff .commands .integersOnly heldTable appendable_held 3000 10000 6 5).mpr
    ⟨⟨by decide,fun r _ => not_overlooked_of_whole 2 (by decide) r⟩,
      by decide,fun r _ => not_overlooked_of_whole (-5) (by decide) r⟩

end Composition

section Failure

variable {float : FloatReader} {t t' : Rows (outboxQueue float)} {id token : Uuid}
  {r : Row (outboxQueue float).Own} {spec : StaleSpec} {now : Timestamp}

/-- NULL, or an object whose only field is `errors`, absent or an array of strings. -/
def ErrorsOnly (extraInfo : Option Jsonb) : Prop :=
  ∀ j, extraInfo = some j → j.value = .object [] ∨
    ∃ errors : List String, j.value = .object [("errors",.array (errors.map .string))]

/-- Of such a value a sweep and a failure with its message make the same. -/
theorem swept_eq_recorded (float : FloatReader) {original : Option Jsonb}
    (h : ErrorsOnly original) : sweptExtraInfo q original =
      .ok (recordedExtraInfo float original q.timeoutMessage q.timeoutMessage_nulFree) := by
  cases original with
  | none => rfl
  | some j =>
    rcases h j rfl with hj | ⟨errors,hj⟩
    · obtain ⟨v,hv⟩ := j
      obtain rfl : v = _ := hj
      rfl
    · have hplain : Plain (some j) errors := .inr ⟨j,rfl,hj⟩
      have happend : appendFailure (rawExtraInfo float (some j)) q.timeoutMessage = _ :=
        hplain.appendFailure q.timeoutMessage
      obtain ⟨s,hs⟩ := (sweptExtraInfo_ok (q:=q) (some j)).mpr (sweepable_of_object hj)
      rcases hplain.swept hs with ⟨hnil,_⟩ | ⟨j',hj',hvalue⟩
      · simp at hnil
      · cases hj'
        rw [hs]
        exact congrArg Except.ok (Jsonb.ext (hvalue.trans happend.symm))

/-- Outbox timeout is outbox failure: a row that a sweep releases is, but for its last error,
the row that a failure with the sweep's message at the same time makes of it. -/
theorem timeout_equals_failure (float : FloatReader) {t t' : Rows (outboxQueue float)}
    {id token : Uuid} {r : Row (outboxQueue float).Own} {spec : StaleSpec} {now : Timestamp} {n : ℕ}
    (hf : t.find? id = some r) (hr : r.heldBy token = true)
    (hstale : stale (StaleSpec.policy spec now) r = true)
    (hinfo : ErrorsOnly r.extraInfo) (hs : sweepEntries t spec now = (some (.ok n),t')) :
    ∃ r' t'', t'.find? id = some r' ∧
      failed t id token spec.maxAttempts (some (outboxQueue float).timeoutMessage) now =
        (.ok (),t'') ∧
      t''.find? id = some { r' with own := some (outboxQueue float).timeoutMessage } := by
  have hnul := (outboxQueue float).timeoutMessage_nulFree
  obtain ⟨recorded,hrecorded⟩ : ∃ j, j = recordedExtraInfo float r.extraInfo
      (outboxQueue float).timeoutMessage hnul := ⟨_,rfl⟩
  have hrow : sweepRow (StaleSpec.policy spec now) now r =
      .ok (sweptRow (StaleSpec.policy spec now) now recorded r) := by
    rw [sweepRow,swept_eq_recorded float hinfo,hrecorded]
    rfl
  have hfailure : failureExtraInfo float r.extraInfo (some (outboxQueue float).timeoutMessage) =
      .ok (some recorded) := by
    rw [hrecorded]
    exact failureExtraInfo_eq float r.extraInfo hnul
  have hreason : ∀ s, some (outboxQueue float).timeoutMessage = some s → nulFree s = true := by
    intro s h
    cases h
    exact hnul
  rw [sweepEntries_eq] at hs
  rcases sweep_cases t spec now with ⟨hc,hall⟩ | ⟨hne,_⟩
  · have hsweep := sweep_of_ok t hc hall
    rw [hs] at hsweep
    refine ⟨sweptRow (StaleSpec.policy spec now) now recorded r,_,?_,
      failed_of_held hf hr hreason hfailure now,?_⟩
    · rw [(Prod.mk.inj hsweep).2,Table.find?_update,hf,Option.map_some,if_pos hstale,
        Table.rewrite_of_ok hrow]
    · rw [Table.find?_updateAt_self hf]
      rfl
  · exact absurd (congrArg Prod.fst hs) (hne n)

/-- Diagnostics with one error. -/
def oneError : Jsonb := ⟨.object [("errors",.array [.string "old"])],by rfl⟩

theorem timeout_equals_failure_oneError :
    ∃ r' t'', (sweepEntries (diagnosedTable oneError) ⟨3000,6⟩ 5).2.find? (.fromU128 1) = some r' ∧
      failed (diagnosedTable oneError) (.fromU128 1) (.fromU128 7) 6
        (some "publication reservation timed out") 5 = (.ok (),t'') ∧
      t''.find? (.fromU128 1) =
        some { r' with own := some "publication reservation timed out" } := by
  have hone : (sweepEntries (diagnosedTable oneError) ⟨3000,6⟩ 5).1 = some (.ok 1) := by rfl
  have hinfo : ErrorsOnly (diagnosed oneError).extraInfo :=
    fun _ h => .inr ⟨["old"],by cases h; rfl⟩
  have hstale : stale (q:=outboxQueue .integersOnly) (StaleSpec.policy ⟨3000,6⟩ 5)
      (diagnosed oneError) = true := by decide
  have hfound : (diagnosedTable oneError).find? (.fromU128 1) = some (diagnosed oneError) := rfl
  have hheld : (diagnosed oneError).heldBy (.fromU128 7) = true := by decide
  have hsame := timeout_equals_failure .integersOnly hfound hheld hstale hinfo
    (Prod.ext hone rfl)
  exact hsame

end Failure

end Mulac.TimeoutSweep
