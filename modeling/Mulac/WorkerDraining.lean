import Mulac.PollingWorkers
import Mulac.NoStarvation
import Mulac.Recording

/-!
# A worker drains its table

What a polling worker gets done that is alone with its table. The rows that are
due when it starts come before all that its own failures and handlers put into
the table, so a tenth as many rounds as there are such rows are enough: each of
them is worked on and settled, whatever becomes of the others, and what went
wrong is in the worker's log.
-/

namespace Mulac.WorkerDraining

open Identifiers Postgres QueueDomain KeyedTable OrderedSelection QueueRow Repository
  RepositoryContracts FourQueues QueueCalls ReserveContract PanicProgram Consumers PortCalls
  BatchSettlement RowLifetimes NoStarvation PollingWorkers QueueRuns

section Definitions

variable {q : Queue}

/-- The rounds of a worker that is alone with its table: the rows that are due at the start stay
ahead of whatever comes later. The rounds are counted from one. -/
structure Steady (t : Rows q) (due : Timestamp) (envs : ℕ → Environment q) : Prop where
  /-- The tokens of the rounds are new to the table. -/
  fresh : ∀ i, ∀ r ∈ t.rows, r.reservationId ≠ some (envs i).draw.token
  /-- Nobody else has a row locked. -/
  unlocked : ∀ i id, (envs i).draw.locked id = false
  /-- The rows are due before the rounds reserve. -/
  reserves : ∀ i, due < (envs i).draw.now
  /-- They are due before the rounds finalize. -/
  finalizes : ∀ i id, due < (envs i).finalizedAt id
  /-- No work writes the rows of the table. -/
  keeps : ∀ i e t, Keeps t ((envs i).effect e t)
  /-- What the work records is due later. -/
  arrivals : ∀ i e s k r, s.find? k = none → ((envs i).effect e s).find? k = some r →
    due < r.scheduledAt
  /-- Recording a failure of the work succeeds. -/
  stores : ∀ i e error, (envs i).outcome e = some (.error error) →
    ∀ (t : Rows q) id token now, Holds t id token →
      (Repository.failed t id token batchSpec.maxAttempts
        (some (failureReason (id,token) "processing" (q.display error))) now).1 = .ok ()

/-- Work that leaves the table alone records nothing. -/
theorem find?_of_idle {env : Environment q} {e : q.Envelope} {s : Rows q} {k : Uuid} {r : Row q.Own}
    (h : env.effect e s = s) (hnone : s.find? k = none) : (env.effect e s).find? k ≠ some r := by
  rw [h,hnone]
  nofun

/-- What so many rounds leave of a table, with what the last of them executed. -/
def worked (items : Items q) (t : Rows q) (envs : ℕ → Environment q) : ℕ → World q
  | 0 => ⟨t,[]⟩
  | i+1 => ((batch items batchSpec).run (answer (envs (i+1))) ⟨(worked items t envs i).rows,[]⟩).2

/-- The runtime of a worker that nobody cancels, alone with its table. -/
def tableRuntime (envs : ℕ → Environment q) :
    Runtime (BatchOp q) BatchOp.Reply (ℕ × World q) where
  cancelled := fun _ => false
  select := fun s => (.elapsed,s.1+1,⟨s.2.rows,[]⟩)
  pool := fun s => (true,s)
  answer := fun op s => ((answer (envs s.1) op s.2).1,s.1,(answer (envs s.1) op s.2).2)
  cancelled_wins := nofun
  wins_cancelled := nofun

/-- The rows that wait by a time. -/
def dueRows (due : Timestamp) (t : Rows q) : List (Row q.Own) :=
  t.rows.filter (waitsBy batchSpec.maxAttempts due)

end Definitions

section Arrivals

variable {q : Queue} {env : Environment q} {due : Timestamp}

/-- What every call of a batch keeps of its table, a batch keeps. -/
theorem run_keeps (inv : Rows q → Prop) (hcall : ∀ op w, inv w.rows → inv (answer env op w).2.rows)
    {α : Type} (p : Prog (BatchOp q) BatchOp.Reply α) (w : World q) (h : inv w.rows) :
    inv (p.run (answer env) w).2.rows := by
  induction p generalizing w with
  | ret a => exact h
  | panic => exact h
  | call op k ih => exact ih _ _ (hcall op w h)

variable {name : QueueName} {float : SerdeJson.FloatReader}

/-- A failure does not bring a later row forward. -/
theorem failureSchedule_after (name : QueueName) (float : SerdeJson.FloatReader)
    {maxAttempts attempts : ℤ} {now previous : Timestamp} (hnow : due < now)
    (hprevious : due < previous) :
    due < (name.queue float).failureSchedule maxAttempts attempts
      ((name.queue float).failureDelay attempts) now previous := by
  by_cases hlt : attempts < maxAttempts
  · exact hnow.trans (failureSchedule_later name float hlt now previous)
  · have hlater := failureSchedule_later name float (Int.lt_succ attempts) now previous
    cases name with
    | commands => exact hnow.trans hlater
    | events => exact hnow.trans hlater
    | inbox => exact hnow.trans hlater
    | outbox =>
      change due < outboxSchedule maxAttempts attempts (cappedDelay attempts) now previous
      rw [outboxSchedule,if_pos (Int.not_lt.mp hlt)]
      exact hprevious

/-- No call but a sweep brings a later row forward. -/
theorem later_of_move {s : Rows (name.queue float)} {c : Call (name.queue float)}
    {r r' : Row (name.queue float).Own} (hm : RowMove s c r r') (hnow : due < Call.now c)
    (hsweep : ∀ spec now, c ≠ .sweep spec now) (h : due < r.scheduledAt) :
    due < r'.scheduledAt := by
  cases hm with
  | kept _ _ _ => exact h
  | @selected spec draw hc _ _ =>
    subst hc
    rcases reservedAndSettled_cases spec draw r with ⟨_,hx⟩ | ⟨error,_,hx⟩ <;> rw [hx]
    · exact h
    · exact failureSchedule_after name float hnow h
  | ended hc _ _ hw =>
    subst hc
    cases hw with
    | completed _ => exact h
    | failed _ _ => exact failureSchedule_after name float hnow h
    | dead _ _ _ => exact h
  | swept hc _ _ _ => exact absurd hc (hsweep _ _)

/-- The rows that come after others in time. -/
def LaterThan (due : Timestamp) (t t' : Rows q) : Prop :=
  ∀ k r, t.find? k = none → t'.find? k = some r → due < r.scheduledAt

/-- A call that records nothing brings no new row forward. -/
theorem laterThan_step {t s : Rows (name.queue float)} {c : Call (name.queue float)}
    (h : LaterThan due t s) (hnow : due < Call.now c) (hsweep : ∀ spec now, c ≠ .sweep spec now)
    (hrecord : ∀ entry appNow now, c ≠ .record entry appNow now) :
    LaterThan due t (step s c) := by
  intro k r hnone hf
  cases hs : s.find? k with
  | none =>
    have habsent := Recording.absent_step hs hrecord
    rw [hf] at habsent
    cases habsent
  | some r₀ =>
    obtain ⟨r',hf',hmove⟩ := row_move c hs
    rw [hf] at hf'
    cases hf'
    exact later_of_move hmove hnow hsweep (h k r₀ hnone hs)

end Arrivals

section Round

variable {name : QueueName} {float : SerdeJson.FloatReader}
  {t : Rows (name.queue float)} {due : Timestamp} {env : Environment (name.queue float)}

/-- What a round is promised. -/
structure SteadyRound (t : Rows (name.queue float)) (due : Timestamp)
    (env : Environment (name.queue float)) : Prop where
  /-- The batch is provided for. -/
  provided : Provided env t batchSpec
  /-- Nobody else has a row locked. -/
  unlocked : ∀ id, env.draw.locked id = false
  /-- The rows are due before the round reserves. -/
  reserves : due < env.draw.now
  /-- They are due before it finalizes. -/
  finalizes : ∀ id, due < env.finalizedAt id
  /-- What its work records is due later. -/
  arrivals : ∀ e s k r, s.find? k = none → (env.effect e s).find? k = some r → due < r.scheduledAt

/-- The table after a round. -/
def roundTable (name : QueueName) (float : SerdeJson.FloatReader)
    (env : Environment (name.queue float)) (t : Rows (name.queue float)) :
    Rows (name.queue float) :=
  ((batch (itemsOf name float) batchSpec).run (answer env) ⟨t,[]⟩).2.rows

theorem batchSpec_limit : batchSpec.limit < 2^63 := by decide

/-- New rows are due later. -/
theorem laterThan_round (h : SteadyRound t due env) :
    LaterThan due t (roundTable name float env t) := by
  refine run_keeps (LaterThan due t) (fun op w hw => ?_) _ ⟨t,[]⟩ ?_
  · cases op with
    | port op =>
      cases op with
      | reserve spec =>
        exact laterThan_step (c:=.reserve spec env.draw) hw h.reserves nofun nofun
      | completed id token =>
        exact laterThan_step (c:=.finalize .completed id token (env.finalizedAt id)) hw
          (h.finalizes id) nofun nofun
      | failed id token maxAttempts reason =>
        exact laterThan_step (c:=.finalize (.failed maxAttempts reason) id token
          (env.finalizedAt id)) hw (h.finalizes id) nofun nofun
    | work e =>
      intro k r hnone hf
      cases hs : w.rows.find? k with
      | none => exact h.arrivals e w.rows k r hs hf
      | some r₀ =>
        have hkept := (h.provided.keeps e w.rows).kept k r₀ hs
        change (env.effect e w.rows).find? k = some r at hf
        rw [hkept] at hf
        cases hf
        exact hw k r hnone hs
  · intro k r hnone hf
    rw [hnone] at hf
    cases hf

/-- What a round can do to the row under a key. -/
inductive RoundRow (t : Rows (name.queue float)) (due : Timestamp)
    (env : Environment (name.queue float)) (k : Uuid) : Row (name.queue float).Own → Prop
  /-- A row that was not selected stays. -/
  | kept {r : Row (name.queue float).Own} : t.find? k = some r →
      r ∉ candidates t batchSpec env.draw → RoundRow t due env k r
  /-- A row that was selected is released, and does not wait by the time. -/
  | settled {r r' : Row (name.queue float).Own} : t.find? k = some r →
      r ∈ candidates t batchSpec env.draw → r'.reservationId = none →
      ¬waitsBy batchSpec.maxAttempts due r' = true → RoundRow t due env k r'
  /-- A row arrived. -/
  | arrived {r' : Row (name.queue float).Own} : t.find? k = none → r'.reservationId = none →
      due < r'.scheduledAt → RoundRow t due env k r'

/-- Every row after a round is one of these. -/
theorem round_row (h : SteadyRound t due env) {k : Uuid} {r' : Row (name.queue float).Own}
    (hf : (roundTable name float env t).find? k = some r') : RoundRow t due env k r' := by
  obtain ⟨errors,w',hw,hrun,_⟩ := run_batch (itemsOf name float) t batchSpec_limit
    h.provided.keeps
  have htable : roundTable name float env t = w'.rows := by rw [roundTable,hrun]
  cases ht : t.find? k with
  | none =>
    have hnone : (reservedTable t batchSpec env.draw).find? k = none := by
      rw [reservedTable,Table.find?_update,ht,Option.map_none]
    exact .arrived ht (hw.added k r' hnone (htable ▸ hf)) (laterThan_round h k r' ht hf)
  | some r =>
    have hm := Table.mem_of_find? ht
    have hid := Table.key_of_find? ht
    rw [htable,← hid] at hf
    by_cases hc : r ∈ candidates t batchSpec env.draw
    · cases hd : decodedAs env.draw r with
      | error error =>
        rw [find?_of_not_decodes hw hc hd] at hf
        cases hf
        exact .settled ht hc rfl (not_waitsBy_failed h.reserves _ _)
      | ok e =>
        rw [find?_of_decodes hw hc hd] at hf
        cases hf
        have hstorable : Storable (itemsOf name float) env env.draw.token e :=
          h.provided.storable (handed_of_decodes hc hd)
        refine .settled ht hc (settledItem_released hstorable _) ?_
        unfold settledItem
        cases he : itemError (itemsOf name float) env env.draw.token e with
        | none => exact not_waitsBy_of_status .completed rfl (by decide) (by decide)
        | some error =>
          simp only [dif_pos (hstorable error he)]
          exact not_waitsBy_failed (h.finalizes _) _ _
    · rw [find?_of_not_selected hw hm hc] at hf
      cases hf
      exact .kept ht hc

/-- The keys of the rows that wait by a time. -/
def dueIds (due : Timestamp) (t : Rows (name.queue float)) : Finset Uuid :=
  ((dueRows due t).map Row.id).toFinset

theorem mem_dueIds {k : Uuid} : k ∈ dueIds due t ↔
    ∃ r, t.find? k = some r ∧ waitsBy batchSpec.maxAttempts due r = true := by
  rw [dueIds,List.mem_toFinset,List.mem_map]
  constructor
  · intro h
    obtain ⟨r,hr,hid⟩ := h
    obtain ⟨hm,hw⟩ := List.mem_filter.mp hr
    exact ⟨r,hid ▸ Table.find?_key hm,hw⟩
  · intro h
    obtain ⟨r,hf,hw⟩ := h
    exact ⟨r,List.mem_filter.mpr ⟨Table.mem_of_find? hf,hw⟩,Table.key_of_find? hf⟩

/-- What is due after a round was due before and was not selected. -/
theorem dueIds_round (h : SteadyRound t due env) : dueIds due (roundTable name float env t) ⊆
    (dueIds due t).filter fun k => ¬selects k t (.reserve batchSpec env.draw) = true := by
  intro k hk
  obtain ⟨r',hf,hw⟩ := mem_dueIds.mp hk
  cases round_row h hf with
  | kept ht hc =>
    have hid := Table.key_of_find? ht
    refine Finset.mem_filter.mpr ⟨mem_dueIds.mpr ⟨r',ht,hw⟩,fun hsel => hc ?_⟩
    rw [← hid,selects_reserve batchSpec_limit] at hsel
    exact (picked_iff (Table.mem_of_find? ht)).mp hsel
  | settled _ _ _ hno => exact absurd hw hno
  | arrived _ _ hlater => exact absurd hw (not_waitsBy fun _ => hlater)

/-- A round takes a full batch of the rows that are due, or all of them. -/
theorem dueIds_card (h : SteadyRound t due env) :
    (dueIds due (roundTable name float env t)).card ≤ (dueIds due t).card-batchSize := by
  have hafter := Finset.card_le_card (dueIds_round h)
  by_cases hall : ∀ k ∈ dueIds due t, selects k t (.reserve batchSpec env.draw) = true
  · have hnone : ((dueIds due t).filter fun k =>
        ¬selects k t (.reserve batchSpec env.draw) = true).card = 0 := by
      rw [Finset.card_eq_zero,Finset.filter_eq_empty_iff]
      exact fun k hk hno => hno (hall k hk)
    omega
  · -- a due row was left out, so the batch is full of rows that were due before it
    simp only [not_forall] at hall
    obtain ⟨k,hk,hsel⟩ := hall
    obtain ⟨r,hf,hw⟩ := mem_dueIds.mp hk
    obtain rfl := Table.key_of_find? hf
    have hwaits := hw
    simp only [waitsBy,Bool.and_eq_true,Bool.or_eq_true,decide_eq_true_eq] at hwaits
    have hoffers := offers_le (c:=.reserve batchSpec env.draw) hf hwaits.1.1 hwaits.2 rfl
      (lt_of_le_of_lt hwaits.1.2 h.reserves) (Bool.eq_false_iff.mpr hsel)
    have hfull : offers r.id (.reserve batchSpec env.draw) = batchSize := by
      rw [offers,h.unlocked r.id]
      rfl
    have hahead : ((ahead batchSpec.maxAttempts r t).filter
          fun k => selects k t (.reserve batchSpec env.draw) = true).card ≤
        ((dueIds due t).filter
          fun k => selects k t (.reserve batchSpec env.draw) = true).card := by
      refine Finset.card_le_card (Finset.filter_subset_filter _ fun k hk => ?_)
      obtain ⟨s,hs,hws,_⟩ := mem_ahead.mp hk
      refine mem_dueIds.mpr ⟨s,hs,?_⟩
      simp only [waitsBy,Bool.and_eq_true,decide_eq_true_eq] at hws ⊢
      exact ⟨⟨hws.1.1,hws.1.2.trans hwaits.1.2⟩,hws.2⟩
    have hsplit := Finset.card_filter_add_card_filter_not (s:=dueIds due t)
      (fun k => selects k t (.reserve batchSpec env.draw) = true)
    omega

end Round

section Rounds

variable {name : QueueName} {float : SerdeJson.FloatReader} {t : Rows (name.queue float)}
  {due : Timestamp} {envs : ℕ → Environment (name.queue float)}

/-- What a round is promised on a table that does not hold its token. -/
theorem Steady.round (h : Steady t due envs) {i : ℕ} {s : Rows (name.queue float)}
    (hfresh : ∀ r ∈ s.rows, r.reservationId ≠ some (envs i).draw.token) :
    SteadyRound s due (envs i) where
  provided := ⟨hfresh,h.keeps i,h.stores i⟩
  unlocked := h.unlocked i
  reserves := h.reserves i
  finalizes := h.finalizes i
  arrivals := h.arrivals i

/-- No row ever holds a token that is still to be drawn. -/
theorem tokens_fresh (h : Steady t due envs) (i : ℕ) :
    ∀ j, ∀ r ∈ (worked (itemsOf name float) t envs i).rows.rows,
      r.reservationId ≠ some (envs j).draw.token := by
  induction i with
  | zero => exact h.fresh
  | succ i ih =>
    intro j r hr
    have hround : SteadyRound (worked (itemsOf name float) t envs i).rows due (envs (i+1)) :=
      h.round (ih (i+1))
    cases round_row hround (Table.find?_key hr) with
    | kept ht _ => exact ih j r (Table.mem_of_find? ht)
    | settled _ _ hnone _ =>
      rw [hnone]
      nofun
    | arrived _ hnone _ =>
      rw [hnone]
      nofun

/-- Every round is promised what the first one is. -/
theorem steady_round (h : Steady t due envs) (i : ℕ) :
    SteadyRound (worked (itemsOf name float) t envs i).rows due (envs (i+1)) :=
  h.round (tokens_fresh h i (i+1))

/-- Every round settles its batch. -/
theorem batch_settled (h : Steady t due envs) (i : ℕ) :
    BatchSettled (itemsOf name float) (envs (i+1)) (worked (itemsOf name float) t envs i).rows
      batchSpec ((batch (itemsOf name float) batchSpec).run (answer (envs (i+1)))
        ⟨(worked (itemsOf name float) t envs i).rows,[]⟩).1
      (worked (itemsOf name float) t envs (i+1)) :=
  settled_of_limit batchSpec_limit (steady_round h i).provided

/-- What a round returns. -/
theorem batch_result (h : Steady t due envs) (i : ℕ) :
    ((batch (itemsOf name float) batchSpec).run (answer (envs (i+1)))
        ⟨(worked (itemsOf name float) t envs i).rows,[]⟩).1 =
      some (batchResult (itemsOf name float) (envs (i+1))
        (worked (itemsOf name float) t envs (i+1)).executed) :=
  (batch_settled h i).result

/-- Each round takes a full batch of the due rows, while there are so many. -/
theorem dueIds_worked (h : Steady t due envs) (i : ℕ) :
    (dueIds due (worked (itemsOf name float) t envs i).rows).card ≤
      (dueIds due t).card-batchSize*i := by
  induction i with
  | zero => exact Nat.le_refl _
  | succ i ih =>
    have hround : (dueIds due (worked (itemsOf name float) t envs (i+1)).rows).card ≤
        (dueIds due (worked (itemsOf name float) t envs i).rows).card-batchSize :=
      dueIds_card (steady_round h i)
    rw [Nat.mul_succ]
    omega

theorem dueIds_length (due : Timestamp) (t : Rows (name.queue float)) :
    (dueIds due t).card ≤ (dueRows due t).length := by
  rw [← List.length_map Row.id]
  exact List.toFinset_card_le _

/-- A round leaves a row that it does not select. -/
theorem unselected_stays (h : Steady t due envs) {i : ℕ} {r : Row (name.queue float).Own}
    (hf : (worked (itemsOf name float) t envs i).rows.find? r.id = some r)
    (hr : r ∉ candidates (worked (itemsOf name float) t envs i).rows batchSpec
      (envs (i+1)).draw) :
    (worked (itemsOf name float) t envs (i+1)).rows.find? r.id = some r := by
  have hsettled := batch_settled h i
  rw [← selected_eq batchSpec_limit] at hr
  exact hsettled.unchanged r (Table.mem_of_find? hf) hr

/-- Enough rounds select every due row, and find it as it was. -/
theorem selected_in_time (h : Steady t due envs) {n : ℕ}
    (hn : (dueRows due t).length ≤ batchSize*n) {r : Row (name.queue float).Own}
    (hr : r ∈ t.rows) (hw : waitsBy batchSpec.maxAttempts due r = true) :
    ∃ i < n, (worked (itemsOf name float) t envs i).rows.find? r.id = some r ∧
      r ∈ candidates (worked (itemsOf name float) t envs i).rows batchSpec
        (envs (i+1)).draw := by
  by_contra hno
  have hstays : ∀ i ≤ n, (worked (itemsOf name float) t envs i).rows.find? r.id = some r := by
    intro i
    induction i with
    | zero => exact fun _ => Table.find?_key hr
    | succ i ih =>
      intro hi
      have hf := ih (by omega)
      exact unselected_stays h hf fun hc => hno ⟨i,by omega,hf,hc⟩
  have hcard := dueIds_worked h n
  have hlength := dueIds_length due t
  have hnone : (dueIds due (worked (itemsOf name float) t envs n).rows).card = 0 := by omega
  have hmem : r.id ∈ dueIds due (worked (itemsOf name float) t envs n).rows :=
    mem_dueIds.mpr ⟨r,hstays n (Nat.le_refl n),hw⟩
  rw [Finset.card_eq_zero.mp hnone] at hmem
  exact absurd hmem (Finset.notMem_empty _)

end Rounds

section Loop

variable {q : Queue} {envs : ℕ → Environment q}

/-- The runtime answers a batch as the environment of its round does. -/
theorem run_paired {α : Type} (p : Prog (BatchOp q) BatchOp.Reply α) (s : ℕ × World q) :
    p.run (tableRuntime envs).answer s =
      ((p.run (answer (envs s.1)) s.2).1,s.1,(p.run (answer (envs s.1)) s.2).2) := by
  induction p generalizing s with
  | ret a => rfl
  | panic => rfl
  | call op k ih => exact ih _ _

variable {name : QueueName} {float : SerdeJson.FloatReader} {t : Rows (name.queue float)}
  {due : Timestamp} {envs : ℕ → Environment (name.queue float)}

/-- The world before a round is what the earlier rounds leave. -/
theorem before_worked (i : ℕ) :
    before (tableRuntime envs) (batch (itemsOf name float)) (0,⟨t,[]⟩) i =
      (i,worked (itemsOf name float) t envs i) := by
  induction i with
  | zero => rfl
  | succ i ih =>
    rw [before_succ,ih]
    change ((batch (itemsOf name float) batchSpec).run (tableRuntime envs).answer
      (i+1,⟨(worked (itemsOf name float) t envs i).rows,[]⟩)).2 = _
    rw [run_paired]
    rfl

variable (worker : String)

/-- The log of a round has the errors of its batch. -/
theorem roundLines_worked (h : Steady t due envs) (i : ℕ) :
    roundLines (tableRuntime envs) worker (name.queue float).display (batch (itemsOf name float))
        (i,worked (itemsOf name float) t envs i) =
      ((worked (itemsOf name float) t envs (i+1)).executed.filterMap
        (itemError (itemsOf name float) (envs (i+1)) (envs (i+1)).draw.token)).map
          fun e => .failed worker ((name.queue float).display e) := by
  have hbegun : (tableRuntime envs).begun (i,worked (itemsOf name float) t envs i) =
      (i+1,⟨(worked (itemsOf name float) t envs i).rows,[]⟩) := rfl
  have hruns : (tableRuntime envs).runs (i,worked (itemsOf name float) t envs i) = true := rfl
  rw [roundLines,if_pos hruns,hbegun,run_paired]
  dsimp only
  rw [batch_result h i,batchResult]
  cases (worked (itemsOf name float) t envs (i+1)).executed.filterMap
    (itemError (itemsOf name float) (envs (i+1)) (envs (i+1)).draw.token) <;> rfl

/-- A worker that nobody cancels does all its rounds. -/
theorem run_worker (t : Rows (name.queue float)) (envs : ℕ → Environment (name.queue float))
    (n : ℕ) :
    (rounds worker (name.queue float).display (batch (itemsOf name float)) n).run
        (tableRuntime envs).respond ⟨(0,⟨t,[]⟩),[]⟩ =
      (some false,⟨(n,worked (itemsOf name float) t envs n),
        linesOf (tableRuntime envs) worker (name.queue float).display
          (batch (itemsOf name float)) (0,⟨t,[]⟩) n⟩) := by
  obtain ⟨k,hk,_,hended,hrun⟩ := run_rounds (tableRuntime envs) worker (name.queue float).display
    (batch (itemsOf name float)) n (0,⟨t,[]⟩) []
  have hall : k = n := by
    by_contra hne
    cases hended (Nat.lt_of_le_of_ne hk hne)
  subst hall
  have hlt := Nat.lt_irrefl k
  rw [hrun,if_neg hlt,before_worked,List.nil_append,decide_eq_false hlt]

end Loop

section Results

variable {name : QueueName} {float : SerdeJson.FloatReader}

/-- What a round does with a row that was due at the start. -/
structure WorkedOff (name : QueueName) (float : SerdeJson.FloatReader) (worker : String)
    (env : Environment (name.queue float)) (w : World (name.queue float)) (log : List WorkerLine)
    (r : Row (name.queue float).Own) : Prop where
  /-- If the row decodes, its work is executed. -/
  executed : ∀ e, decodedAs env.draw r = .ok e → e ∈ w.executed
  /-- If the work returns `Ok`, the row is `Completed`. -/
  completed : ∀ e, decodedAs env.draw r = .ok e → env.outcome e = some (.ok ()) →
    ∃ r', w.rows.find? r.id = some r' ∧ r'.status = Status.completed.code
  /-- If not, the row is `Failed`, one attempt later, and its last error says why. -/
  failed : ∀ reason, diagnostic (itemsOf name float) env r = some reason →
    ∃ r' errors, w.rows.find? r.id = some r' ∧ r'.status = Status.failed.code ∧
      r'.attempts = r.attempts+1 ∧ readExtraInfo r'.extraInfo = some (some ⟨errors++[reason]⟩)
  /-- The error of the work is logged. -/
  logged : ∀ e error, decodedAs env.draw r = .ok e →
    itemError (itemsOf name float) env env.draw.token e = some error →
      .failed worker ((name.queue float).display error) ∈ log

/-- A round that selects a row works it off. -/
theorem workedOff_of_candidate {t : Rows (name.queue float)} {due : Timestamp}
    {envs : ℕ → Environment (name.queue float)} (h : Steady t due envs) (worker : String)
    {i n : ℕ} (hi : i < n) {r : Row (name.queue float).Own}
    (hc : r ∈ candidates (worked (itemsOf name float) t envs i).rows batchSpec
      (envs (i+1)).draw) :
    WorkedOff name float worker (envs (i+1)) (worked (itemsOf name float) t envs (i+1))
      (linesOf (tableRuntime envs) worker (name.queue float).display
        (batch (itemsOf name float)) (0,⟨t,[]⟩) n) r := by
  have hsettled := batch_settled h i
  have hsel := hc
  rw [← selected_eq batchSpec_limit] at hsel
  have hexecuted : ∀ e, decodedAs (envs (i+1)).draw r = .ok e →
      e ∈ (worked (itemsOf name float) t envs (i+1)).executed := by
    intro e hd
    refine hsettled.executed.mem_iff.mpr (List.mem_filterMap.mpr ⟨r,hsel,?_⟩)
    rw [hd]
    rfl
  refine ⟨hexecuted,hsettled.completed r hsel,hsettled.failed r hsel,?_⟩
  intro e error hd he
  refine List.mem_flatMap.mpr ⟨i,List.mem_range.mpr hi,?_⟩
  rw [before_worked,roundLines_worked worker h i]
  exact List.mem_map.mpr ⟨error,List.mem_filterMap.mpr ⟨e,hexecuted e hd,he⟩,rfl⟩

/-- The rows that are due when a worker starts are worked off in a tenth as many rounds as there
are such rows, each of them as it was found, whatever the works of the others come to; none of
them is due in the same way afterwards, and every error of their works is in the log. -/
theorem worker_drains (name : QueueName) (float : SerdeJson.FloatReader) (worker : String)
    (t : Rows (name.queue float)) (due : Timestamp) (envs : ℕ → Environment (name.queue float))
    (h : Steady t due envs) (n : ℕ) (hn : (dueRows due t).length ≤ batchSize*n) :
    ∃ w log, (rounds worker (name.queue float).display (batch (itemsOf name float)) n).run
        (tableRuntime envs).respond ⟨(0,⟨t,[]⟩),[]⟩ = (some false,⟨(n,w),log⟩) ∧
      dueRows due w.rows = [] ∧
      ∀ r ∈ dueRows due t, ∃ i < n,
        (worked (itemsOf name float) t envs i).rows.find? r.id = some r ∧
        WorkedOff name float worker (envs (i+1)) (worked (itemsOf name float) t envs (i+1)) log
          r := by
  refine ⟨_,_,run_worker worker t envs n,?_,?_⟩
  · have hcard := dueIds_worked h n
    have hlength := dueIds_length due t
    have hnone : (dueIds due (worked (itemsOf name float) t envs n).rows).card = 0 := by omega
    rw [Finset.card_eq_zero] at hnone
    refine List.eq_nil_iff_forall_not_mem.mpr fun r hr => ?_
    have hmem : r.id ∈ dueIds due (worked (itemsOf name float) t envs n).rows :=
      List.mem_toFinset.mpr (List.mem_map.mpr ⟨r,hr,rfl⟩)
    rw [hnone] at hmem
    exact absurd hmem (Finset.notMem_empty _)
  · intro r hr
    obtain ⟨hm,hw⟩ := List.mem_filter.mp hr
    obtain ⟨i,hi,hf,hc⟩ := selected_in_time h hn hm hw
    exact ⟨i,hi,hf,workedOff_of_candidate h worker hi hc⟩

/-- Rounds in which the work on the first command panics. -/
def panickingWork (_ : ℕ) : Environment (QueueName.commands.queue .integersOnly) where
  draw := plainDraw (.fromU128 7) 1
  finalizedAt := fun _ => 2
  outcome := fun e =>
    if ((QueueName.commands.queue .integersOnly).handed e).id = .fromU128 1 then none
    else some (.ok ())
  effect := fun _ t => t

theorem panickingWork_steady : Steady twoWaiting 0 panickingWork where
  fresh := by
    intro i
    change ∀ r ∈ twoWaiting.rows, r.reservationId ≠ some (.fromU128 7)
    decide
  unlocked := fun _ _ => rfl
  reserves := fun _ => (by decide : (0 : ℤ) < 1)
  finalizes := fun _ _ => (by decide : (0 : ℤ) < 2)
  keeps := fun _ _ t => Keeps.refl t
  arrivals := fun _ _ _ _ _ hnone hf => absurd hf (find?_of_idle rfl hnone)
  stores := by
    intro i e error ho
    simp only [panickingWork] at ho
    split at ho <;> cases ho

/-- Two commands are worked off in one round. -/
theorem worker_drains_twoWaiting : ∃ w log,
    (rounds "command worker" (QueueName.commands.queue .integersOnly).display
        (batch (itemsOf .commands .integersOnly)) 1).run (tableRuntime panickingWork).respond
        ⟨(0,⟨twoWaiting,[]⟩),[]⟩ = (some false,⟨(1,w),log⟩) ∧
      dueRows 0 w.rows = [] ∧
      ∀ r ∈ dueRows 0 twoWaiting, ∃ i < 1,
        (worked (itemsOf .commands .integersOnly) twoWaiting panickingWork i).rows.find? r.id =
          some r ∧
        WorkedOff .commands .integersOnly "command worker" (panickingWork (i+1))
          (worked (itemsOf .commands .integersOnly) twoWaiting panickingWork (i+1)) log r :=
  worker_drains .commands .integersOnly "command worker" twoWaiting 0 panickingWork
    panickingWork_steady 1 (by decide)

end Results

end Mulac.WorkerDraining
