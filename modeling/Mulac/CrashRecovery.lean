import Mulac.SweepPoison
import Mulac.WorkerDraining

/-!
# Recovery after a crash

Workers may stop at any point of any run and leave their entries reserved. One
sweep, once their reservations have timed out, and one worker that goes on are
enough: every entry with an attempt left is worked off, those of the stopped
workers and those that they never reserved, and none stays reserved.
-/

namespace Mulac.CrashRecovery

open Identifiers Postgres QueueDomain KeyedTable QueueRow Repository RepositoryContracts FourQueues
  CallSequence QueueCalls QueueRuns PanicProgram Consumers PortCalls BatchSettlement RowLifetimes
  Pipeline NoStarvation PollingWorkers WorkerDraining SweepPoison

section Sweep

variable {name : QueueName} {float : SerdeJson.FloatReader} {t : Rows (name.queue float)}
  {spec : StaleSpec} {now due : Timestamp}

/-- The longest time that a timeout puts off an entry with one attempt left: the fifth of six
failures. -/
def longestDelay : Timestamp := seconds 150

/-- An entry that is not done and has an attempt left: it is reserved, or due by a time. -/
def openBy (due : Timestamp) (r : Row (name.queue float).Own) : Bool :=
  waitsBy batchSpec.maxAttempts due r ||
    (r.status = Status.reserved.code && r.attempts < batchSpec.maxAttempts)

/-- The open entries of a table. -/
def openRows (due : Timestamp) (t : Rows (name.queue float)) : List (Row (name.queue float).Own) :=
  t.rows.filter (openBy due)

/-- A timeout puts no entry with an attempt left off for longer. -/
theorem timeoutOutcome_soon (name : QueueName) (float : SerdeJson.FloatReader)
    (policy : ReservationTimeoutPolicy) {attempts : ℤ}
    (hpolicy : policy.maxAttempts = batchSpec.maxAttempts)
    (hlt : attempts < batchSpec.maxAttempts) (now previous : Timestamp) :
    ((name.queue float).timeoutOutcome policy attempts now previous).2 ≤ now+longestDelay := by
  have hmax : batchSpec.maxAttempts = 6 := rfl
  rw [hmax] at hlt
  have hdelay : seconds (attempts*30) ≤ longestDelay := by
    rw [longestDelay,seconds,seconds]
    omega
  cases name with
  | commands =>
    refine Int.add_le_add_left (?_ : seconds (30*attempts) ≤ longestDelay) now
    rw [mul_comm]
    exact hdelay
  | events => exact Int.add_le_add_left hdelay now
  | inbox => exact Int.add_le_add_left hdelay now
  | outbox =>
    change (outboxOutcome policy attempts now previous).2 ≤ now+longestDelay
    rw [outboxOutcome,hpolicy,hmax,if_neg (Int.not_le.mpr hlt)]
    refine Int.add_le_add_left (?_ : seconds (min (max attempts 1*30) 120) ≤ longestDelay) now
    rw [longestDelay,seconds,seconds]
    omega

/-- Every reservation has timed out: it is older than the cutoff, as the sweep binds it. -/
def AllTimedOut (t : Rows (name.queue float)) (spec : StaleSpec) (now : Timestamp) : Prop :=
  ∀ r ∈ t.rows, ∀ since ∈ r.reservedAt,
    since < boundTime (StaleSpec.policy spec now).reservedBefore

/-- A sweep overlooks none of them. -/
theorem AllTimedOut.sharp (h : AllTimedOut t spec now) (hfits : StaleSpec.Fits spec now t) :
    StaleSpec.Sharp spec now t := by
  refine ⟨hfits,fun r hr ho => ?_⟩
  obtain ⟨_,since,hsince,hcut⟩ := ho
  exact ((lt_boundTime_iff _ since).mp (h r hr since hsince)).2 hcut

/-- What a sweep leaves of a row when every reservation has timed out. -/
structure Released (t : Rows (name.queue float)) (spec : StaleSpec) (now : Timestamp)
    (r r' : Row (name.queue float).Own) : Prop where
  /-- The row holds what it held. -/
  content : contentOf name r' = contentOf name r
  /-- It has as many attempts. -/
  attempts : r'.attempts = r.attempts
  /-- It is not reserved. -/
  free : r'.reservationId = none
  /-- It waits if it was reserved, and keeps its place if it was not. -/
  moved : if r.status = Status.reserved.code then
    ∃ j, r' = sweptRow (StaleSpec.policy spec now) now j r else r' = r

/-- When every reservation has timed out, the sweep releases every row. -/
theorem sweep_released (hsettles : SweepSettles t spec now) (hout : AllTimedOut t spec now)
    (hconsistent : ∀ r ∈ t.rows, Consistent r) {k : Uuid} {r : Row (name.queue float).Own}
    (hf : t.find? k = some r) :
    ∃ r', (step t (.sweep spec now)).find? k = some r' ∧ Released t spec now r r' := by
  obtain ⟨⟨hc,_⟩,hall⟩ := (sweepSettles_iff t spec now).mp hsettles
  have hm := Table.mem_of_find? hf
  have hr := hconsistent r hm
  have hsweep := sweep_of_ok t hc fun r hr hs => (sweepRow_isOk r).mpr (hall r hr hs)
  have hstep : step t (.sweep spec now) = t.update (stale (StaleSpec.policy spec now))
      (Table.rewrite (sweepRow (StaleSpec.policy spec now) now))
      (Table.rewrite_key sweepRow_id) := congrArg Prod.snd hsweep
  rw [hstep,Table.find?_update,hf,Option.map_some]
  by_cases hreserved : r.status = Status.reserved.code
  · have hstale : stale (StaleSpec.policy spec now) r = true := by
      have hsome := hr.token_iff.mp (hr.reserved_iff.mp hreserved)
      obtain ⟨since,hsince⟩ := Option.isSome_iff_exists.mp hsome
      have hbefore := hout r hm since hsince
      simp only [stale,hreserved,hsince,decide_true,Bool.true_and,Option.any_some]
      exact decide_eq_true hbefore
    obtain ⟨r',hr'⟩ := (sweepRow_isOk r).mpr (hall r hm hstale)
    obtain ⟨j,_,rfl⟩ := sweepRow_ok hr'
    rw [if_pos hstale,Table.rewrite_of_ok hr']
    refine ⟨_,rfl,?_,rfl,rfl,?_⟩
    · cases name <;> rfl
    · rw [if_pos hreserved]
      exact ⟨j,rfl⟩
  · have hfresh : ¬stale (StaleSpec.policy spec now) r = true := by
      simp [stale,hreserved]
    have hfree : r.reservationId = none := by
      rw [← Option.not_isSome_iff_eq_none]
      exact fun hsome => hreserved (hr.reserved_iff.mpr hsome)
    rw [if_neg hfresh]
    refine ⟨r,rfl,rfl,rfl,hfree,?_⟩
    rw [if_neg hreserved]

/-- An open entry waits after the sweep. -/
theorem Released.waits {r r' : Row (name.queue float).Own} (h : Released t spec now r r')
    (hspec : spec.maxAttempts = batchSpec.maxAttempts) (hdue : now+longestDelay ≤ due)
    (hopen : openBy due r = true) : waitsBy batchSpec.maxAttempts due r' = true := by
  have hmoved := h.moved
  rw [openBy,Bool.or_eq_true] at hopen
  by_cases hreserved : r.status = Status.reserved.code
  · rw [if_pos hreserved] at hmoved
    obtain ⟨j,rfl⟩ := hmoved
    have hlt : r.attempts < batchSpec.maxAttempts := by
      rcases hopen with hw | hres
      · simp only [waitsBy,Bool.and_eq_true,decide_eq_true_eq] at hw
        exact hw.2
      · rw [Bool.and_eq_true,decide_eq_true_eq,decide_eq_true_eq] at hres
        exact hres.2
    have hsoon := timeoutOutcome_soon name float (StaleSpec.policy spec now) hspec hlt now
      r.scheduledAt
    have hstatus := sweptRow_status (StaleSpec.policy spec now) now j r
    simp only [waitsBy,Bool.and_eq_true,Bool.or_eq_true,decide_eq_true_eq]
    exact ⟨⟨.inr hstatus,hsoon.trans hdue⟩,hlt⟩
  · rw [if_neg hreserved] at hmoved
    subst hmoved
    rcases hopen with hw | hres
    · exact hw
    · rw [Bool.and_eq_true,decide_eq_true_eq] at hres
      exact absurd hres.1 hreserved

/-- The sweep leaves no more due entries than there were open ones. -/
theorem dueRows_sweep (hsettles : SweepSettles t spec now) :
    (dueRows due (step t (.sweep spec now))).length ≤ (openRows due t).length := by
  obtain ⟨⟨hc,_⟩,hall⟩ := (sweepSettles_iff t spec now).mp hsettles
  have hsweep := sweep_of_ok t hc fun r hr hs => (sweepRow_isOk r).mpr (hall r hr hs)
  have hrows : (step t (.sweep spec now)).rows = t.rows.map fun r =>
      if stale (StaleSpec.policy spec now) r then
        Table.rewrite (sweepRow (StaleSpec.policy spec now) now) r
      else r := congrArg (fun p => p.2.rows) hsweep
  rw [dueRows,openRows,hrows,← List.countP_eq_length_filter,← List.countP_eq_length_filter,
    List.countP_map]
  refine List.countP_mono_left fun r hr hw => ?_
  rw [Function.comp_apply] at hw
  rw [openBy,Bool.or_eq_true]
  by_cases hst : stale (StaleSpec.policy spec now) r = true
  · -- a swept row has the attempts that it had, so it was open while it was reserved
    obtain ⟨r',hr'⟩ := (sweepRow_isOk r).mpr (hall r hr hst)
    obtain ⟨j,_,rfl⟩ := sweepRow_ok hr'
    rw [if_pos hst,Table.rewrite_of_ok hr'] at hw
    simp only [waitsBy,Bool.and_eq_true,decide_eq_true_eq] at hw
    simp only [stale,Bool.and_eq_true,decide_eq_true_eq] at hst
    have hlt : r.attempts < batchSpec.maxAttempts := hw.2
    rw [Bool.and_eq_true,decide_eq_true_eq,decide_eq_true_eq]
    exact .inr ⟨hst.1,hlt⟩
  · rw [if_neg hst] at hw
    exact .inl hw

/-- After the sweep nothing is reserved. -/
theorem sweep_frees (hsettles : SweepSettles t spec now) (hout : AllTimedOut t spec now)
    (hconsistent : ∀ r ∈ t.rows, Consistent r) :
    ∀ r ∈ (step t (.sweep spec now)).rows, r.reservationId = none := by
  intro r' hr'
  have hf' := Table.find?_key hr'
  cases hf : t.find? r'.id with
  | none =>
    have habsent := Recording.absent_step (c:=.sweep spec now) hf nofun
    rw [hf'] at habsent
    cases habsent
  | some r =>
    obtain ⟨s,hs,hreleased⟩ := sweep_released hsettles hout hconsistent hf
    rw [hf'] at hs
    cases hs
    exact hreleased.free

end Sweep

section Recovery

variable {name : QueueName} {float : SerdeJson.FloatReader}

/-- The rounds of a worker leave nothing reserved that was not. -/
theorem worked_frees {t : Rows (name.queue float)} {due : Timestamp}
    {envs : ℕ → Environment (name.queue float)} (h : Steady t due envs)
    (hfree : ∀ r ∈ t.rows, r.reservationId = none) (n : ℕ) :
    ∀ r ∈ (worked (itemsOf name float) t envs n).rows.rows, r.reservationId = none := by
  induction n with
  | zero => exact hfree
  | succ n ih =>
    intro r hr
    cases round_row (steady_round h n) (Table.find?_key hr) with
    | kept ht _ => exact ih r (Table.mem_of_find? ht)
    | settled _ _ hnone _ => exact hnone
    | arrived _ hnone _ => exact hnone

/-- The rows of a run from the empty table are consistent. -/
theorem consistent_after (calls : List (Call (name.queue float))) :
    ∀ r ∈ (after step Table.empty calls).rows, Consistent r := by
  have hempty : ∀ r ∈ (Table.empty : Rows (name.queue float)).rows, Consistent r :=
    fun _ hr => absurd hr List.not_mem_nil
  have hrun := invariant step (fun s => ∀ r ∈ s.rows, Consistent r) hempty
    (fun i hi hs => consistent_step hs (calls[i])) calls.length (Nat.le_refl _)
  rw [stateAt_length] at hrun
  exact hrun

/-- The sharp sweeps of a run from the empty table settle. -/
theorem settles_after (calls : List (Call (name.queue float))) {spec : StaleSpec}
    {now : Timestamp} (hsharp : StaleSpec.Sharp spec now (after step Table.empty calls)) :
    SweepSettles (after step Table.empty calls) spec now :=
  settles_of_sound (fun _ hr => absurd hr List.not_mem_nil) calls hsharp

/-- Clients make any calls in any order and then stop, wherever they are. When all their
reservations have timed out, one sweep and one worker are enough: every entry with an attempt left,
reserved or due, is worked off with what it held and the attempts it had, as many rounds later as
there are batches of such entries, and then nothing is reserved. -/
theorem crash_recovery (name : QueueName) (float : SerdeJson.FloatReader) (worker : String)
    (calls : List (Call (name.queue float))) (spec : StaleSpec)
    (hspec : spec.maxAttempts = batchSpec.maxAttempts) (now due : Timestamp)
    (hfits : StaleSpec.Fits spec now (after step Table.empty calls))
    (hout : AllTimedOut (after step Table.empty calls) spec now)
    (hdue : now+longestDelay ≤ due) (envs : ℕ → Environment (name.queue float))
    (h : Steady (step (after step Table.empty calls) (.sweep spec now)) due envs) (n : ℕ)
    (hn : (openRows due (after step Table.empty calls)).length ≤ batchSize*n) :
    ∃ w log, (rounds worker (name.queue float).display (batch (itemsOf name float)) n).run
        (tableRuntime envs).respond
        ⟨(0,⟨step (after step Table.empty calls) (.sweep spec now),[]⟩),[]⟩ =
          (some false,⟨(n,w),log⟩) ∧
      (∀ r ∈ w.rows.rows, r.reservationId = none) ∧
      ∀ r ∈ openRows due (after step Table.empty calls), ∃ i < n, ∃ r',
        (worked (itemsOf name float) (step (after step Table.empty calls) (.sweep spec now)) envs
          i).rows.find? r.id = some r' ∧
        contentOf name r' = contentOf name r ∧ r'.attempts = r.attempts ∧
        WorkedOff name float worker (envs (i+1))
          (worked (itemsOf name float) (step (after step Table.empty calls) (.sweep spec now)) envs
            (i+1)) log r' := by
  have hsettles := settles_after calls (hout.sharp hfits)
  have hconsistent := consistent_after calls
  refine ⟨_,_,run_worker worker _ envs n,?_,?_⟩
  · exact worked_frees h (sweep_frees hsettles hout hconsistent) n
  · intro r hr
    obtain ⟨hm,hopen⟩ := List.mem_filter.mp hr
    obtain ⟨r',hf',hreleased⟩ := sweep_released hsettles hout hconsistent (Table.find?_key hm)
    have hid : r'.id = r.id := Table.key_of_find? hf'
    have hdueRows : (dueRows due (step (after step Table.empty calls) (.sweep spec now))).length ≤
        (openRows due (after step Table.empty calls)).length := dueRows_sweep hsettles
    have hw := hreleased.waits hspec hdue hopen
    obtain ⟨i,hi,hf,hc⟩ := selected_in_time h (hdueRows.trans hn) (Table.mem_of_find? hf') hw
    rw [hid] at hf
    exact ⟨i,hi,r',hf,hreleased.content,hreleased.attempts,workedOff_of_candidate h worker hi hc⟩

/-- Two commands come in, and the worker that took one of them stops. -/
def stoppedWorker : List (Call (QueueName.commands.queue .integersOnly)) :=
  [.record ⟨"Rename","[]",some ⟨.fromU128 1,none,none,none⟩⟩ 0 0,
    .record ⟨"Rename","[]",some ⟨.fromU128 2,none,none,none⟩⟩ 0 0,
    .reserve singleSpec (plainDraw (.fromU128 7) 1)]

/-- Rounds long after, in which every work succeeds. -/
def laterWork (_ : ℕ) : Environment (QueueName.commands.queue .integersOnly) where
  draw := plainDraw (.fromU128 9) (4+longestDelay)
  finalizedAt := fun _ => 5+longestDelay
  outcome := fun _ => some (.ok ())
  effect := fun _ t => t

theorem laterWork_steady : Steady (step (after step Table.empty stoppedWorker) (.sweep ⟨0,6⟩ 3))
    (3+longestDelay) laterWork where
  fresh := by
    intro i
    change ∀ r ∈ (step (after step Table.empty stoppedWorker) (.sweep ⟨0,6⟩ 3)).rows,
      r.reservationId ≠ some (.fromU128 9)
    decide
  unlocked := fun _ _ => rfl
  reserves := fun _ => (by decide : 3+longestDelay < 4+longestDelay)
  finalizes := fun _ _ => (by decide : 3+longestDelay < 5+longestDelay)
  keeps := fun _ _ t => Keeps.refl t
  arrivals := fun _ _ _ _ _ hnone hf => absurd hf (find?_of_idle rfl hnone)
  stores := nofun

/-- Both commands are worked off, the one that was taken and the one that was not. -/
theorem crash_recovery_stoppedWorker : ∃ w log,
    (rounds "command worker" (QueueName.commands.queue .integersOnly).display
        (batch (itemsOf .commands .integersOnly)) 1).run (tableRuntime laterWork).respond
        ⟨(0,⟨step (after step Table.empty stoppedWorker) (.sweep ⟨0,6⟩ 3),[]⟩),[]⟩ =
          (some false,⟨(1,w),log⟩) ∧
      (∀ r ∈ w.rows.rows, r.reservationId = none) ∧
      ∀ r ∈ openRows (3+longestDelay) (after step Table.empty stoppedWorker), ∃ i < 1, ∃ r',
        (worked (itemsOf .commands .integersOnly)
          (step (after step Table.empty stoppedWorker) (.sweep ⟨0,6⟩ 3)) laterWork
          i).rows.find? r.id = some r' ∧
        contentOf .commands r' = contentOf .commands r ∧ r'.attempts = r.attempts ∧
        WorkedOff .commands .integersOnly "command worker" (laterWork (i+1))
          (worked (itemsOf .commands .integersOnly)
            (step (after step Table.empty stoppedWorker) (.sweep ⟨0,6⟩ 3)) laterWork (i+1)) log
          r' :=
  crash_recovery .commands .integersOnly "command worker" stoppedWorker ⟨0,6⟩ rfl 3
    (3+longestDelay) (by decide) (by unfold AllTimedOut; decide) (le_refl _) laterWork
    laterWork_steady 1 (by decide)

/-- Both are open before the sweep. -/
example : (openRows (3+longestDelay) (after step Table.empty stoppedWorker)).length = 2 := by
  decide

end Recovery

end Mulac.CrashRecovery
