import Mulac.RowLifetimes
import Mathlib.Data.Finset.Card

/-!
# No due row starves

A due row is overtaken only by rows that are due no later, and by each of them
once: whatever a worker does with a row it took, the row comes back after the
others, if it comes back at all. The reservations that pass a due row over thus
reserve no more entries than stood before it or were recorded in the meantime.
-/

namespace Mulac.NoStarvation

open Identifiers Postgres QueueDomain KeyedTable OrderedSelection QueueRow Repository
  RepositoryContracts FourQueues CallSequence QueueCalls QueueRuns ReserveContract
  BatchSettlement RowLifetimes

variable {q : Queue} {s t : Rows q} {c : Call q} {calls : List (Call q)} {k : Uuid}
  {r r' : Row q.Own} {maxAttempts : ℤ}

section Definitions

/-- A row that waits, has an attempt left and is due by a time. -/
def waitsBy (maxAttempts : ℤ) (due : Timestamp) (r : Row q.Own) : Bool :=
  (r.status = Status.received.code || r.status = Status.failed.code) && r.scheduledAt ≤ due &&
    r.attempts < maxAttempts

/-- The other rows that may be selected before a row. -/
def ahead (maxAttempts : ℤ) (r : Row q.Own) (t : Rows q) : Finset Uuid :=
  ((t.rows.filter fun s => waitsBy maxAttempts r.scheduledAt s && decide (s.id ≠ r.id)).map
    Row.id).toFinset

/-- The row that a call may add to those due by a time. -/
def arrivals (due : Timestamp) : Call q → Finset Uuid
  | .record entry appNow now =>
    match q.newRow entry appNow now with
    | .ok n => if n.scheduledAt ≤ due then {n.id} else ∅
    | .error _ => ∅
  | _ => ∅

/-- How many entries a call takes from a queue in which a row is not locked. -/
def offers (id : Uuid) : Call q → ℕ
  | .reserve spec draw => if spec.limit < 2^63 && !draw.locked id then spec.limit else 0
  | _ => 0

end Definitions

section Step

theorem mem_ahead : k ∈ ahead maxAttempts r t ↔ ∃ s, t.find? k = some s ∧
    waitsBy maxAttempts r.scheduledAt s = true ∧ k ≠ r.id := by
  rw [ahead,List.mem_toFinset,List.mem_map]
  constructor
  · rintro ⟨s,hs,rfl⟩
    obtain ⟨hm,hw⟩ := List.mem_filter.mp hs
    rw [Bool.and_eq_true,decide_eq_true_eq] at hw
    exact ⟨s,Table.find?_key hm,hw⟩
  · rintro ⟨s,hs,hw,hne⟩
    have hid := Table.key_of_find? hs
    refine ⟨s,List.mem_filter.mpr ⟨Table.mem_of_find? hs,?_⟩,hid⟩
    rw [Bool.and_eq_true,decide_eq_true_eq,hid]
    exact ⟨hw,hne⟩

/-- Whoever fails or is due later does not wait by a time. -/
theorem not_waitsBy {due : Timestamp} (h : r.attempts < maxAttempts → due < r.scheduledAt) :
    ¬waitsBy maxAttempts due r = true := by
  intro hw
  simp only [waitsBy,Bool.and_eq_true,decide_eq_true_eq] at hw
  exact absurd hw.1.2 (not_le.mpr (h hw.2))

theorem not_waitsBy_of_status {due : Timestamp} (status : Status) (h : r.status = status.code)
    (hr : status ≠ .received) (hf : status ≠ .failed) : ¬waitsBy maxAttempts due r = true := by
  intro hw
  simp only [waitsBy,Bool.and_eq_true,Bool.or_eq_true,decide_eq_true_eq,h,Status.code_inj] at hw
  exact hw.1.1.elim hr hf

variable {name : QueueName} {float : SerdeJson.FloatReader} {due now : Timestamp}

theorem not_waitsBy_failed {r : Row (name.queue float).Own} (hnow : due < now)
    (extraInfo : Option Jsonb) (reason : Option String) :
    ¬waitsBy maxAttempts due (failedRow extraInfo r.attempts maxAttempts reason now r) = true :=
  not_waitsBy fun hlt =>
    hnow.trans (failureSchedule_later name float hlt now r.scheduledAt)

/-- A timeout does not put a row before its time either. -/
theorem timeoutOutcome_later (name : QueueName) (float : SerdeJson.FloatReader)
    {policy : ReservationTimeoutPolicy} {attempts : ℤ} (h : 0 ≤ attempts)
    (hlt : attempts < policy.maxAttempts) (now previous : Timestamp) :
    now ≤ ((name.queue float).timeoutOutcome policy attempts now previous).2 := by
  have hdelay : 0 ≤ seconds (attempts*30) := by
    rw [seconds]
    omega
  cases name with
  | commands =>
    refine Int.le_add_of_nonneg_right (?_ : 0 ≤ seconds (30*attempts))
    rw [mul_comm]
    exact hdelay
  | events => exact Int.le_add_of_nonneg_right hdelay
  | inbox => exact Int.le_add_of_nonneg_right hdelay
  | outbox =>
    change now ≤ (outboxOutcome policy attempts now previous).2
    rw [outboxOutcome,if_neg (not_le.mpr hlt)]
    refine Int.le_add_of_nonneg_right (?_ : 0 ≤ seconds (min (max attempts 1*30) 120))
    rw [seconds]
    omega

theorem not_waitsBy_swept {r : Row (name.queue float).Own} (hnow : due < now)
    (h : 0 ≤ r.attempts) (policy : ReservationTimeoutPolicy) (extraInfo : Jsonb) :
    ¬waitsBy policy.maxAttempts due (sweptRow policy now extraInfo r) = true :=
  not_waitsBy fun hlt => lt_of_lt_of_le hnow (timeoutOutcome_later name float h hlt now _)

/-- What a call leaves of a row waits by a time only if the row did and was not selected. -/
theorem waitsBy_of_move {s : Rows (name.queue float)} {c : Call (name.queue float)}
    {r r' : Row (name.queue float).Own} (hm : RowMove s c r r') (h : 0 ≤ r.attempts)
    (hl : Call.limitedTo maxAttempts c) (hnow : due < Call.now c)
    (hw : waitsBy maxAttempts due r' = true) :
    waitsBy maxAttempts due r = true ∧ selects r.id s c = false := by
  cases hm with
  | kept hsel _ _ => exact ⟨hw,hsel⟩
  | @selected spec draw hc _ _ =>
    subst hc
    obtain rfl : spec.maxAttempts = maxAttempts := hl
    rcases reservedAndSettled_cases spec draw r with ⟨_,hx⟩ | ⟨error,_,hx⟩ <;> rw [hx] at hw
    · exact absurd hw (not_waitsBy_of_status .reserved rfl nofun nofun)
    · exact absurd hw (not_waitsBy_failed hnow _ _)
  | @ended f token now _ hc _ _ hwrites =>
    subst hc
    cases hwrites with
    | completed hf =>
      exact absurd hw (not_waitsBy_of_status .completed rfl nofun nofun)
    | @failed limit reason extraInfo hf _ =>
      subst hf
      obtain rfl : limit = maxAttempts := hl
      exact absurd hw (not_waitsBy_failed hnow extraInfo reason)
    | dead hf _ _ => exact absurd hw (not_waitsBy_of_status .dead rfl nofun nofun)
  | @swept spec now _ hc _ _ he =>
    subst hc
    obtain ⟨j,_,rfl⟩ := sweepRow_ok he
    obtain rfl : spec.maxAttempts = maxAttempts := hl
    exact absurd hw (not_waitsBy_swept hnow h (StaleSpec.policy spec now) j)

/-- A call brings only recorded rows before a row, and takes away those that it selects. -/
theorem ahead_step {t : Rows (name.queue float)} {c : Call (name.queue float)}
    {r : Row (name.queue float).Own} (h : ∀ k s, t.find? k = some s → 0 ≤ s.attempts)
    (hl : Call.limitedTo maxAttempts c) (hnow : r.scheduledAt < Call.now c) :
    ahead maxAttempts r (step t c) ⊆
      ((ahead maxAttempts r t).filter fun k => ¬selects k t c = true) ∪
        arrivals r.scheduledAt c := by
  intro k hk
  obtain ⟨s',hf',hw,hne⟩ := mem_ahead.mp hk
  rw [Finset.mem_union,Finset.mem_filter]
  cases hf : t.find? k with
  | some s =>
    obtain ⟨s'',hf'',hmove⟩ := row_move c hf
    rw [hf'] at hf''
    cases hf''
    obtain ⟨hws,hsel⟩ := waitsBy_of_move hmove (h k s hf) hl hnow hw
    rw [Table.key_of_find? hf] at hsel
    exact .inl ⟨mem_ahead.mpr ⟨s,hf,hws,hne⟩,by simp [hsel]⟩
  | none =>
    have hstep := step_row t c k
    rw [hf,hf'] at hstep
    cases hstep with
    | @recorded entry appNow now n metadata hc hn _ =>
      have hdue : n.scheduledAt ≤ r.scheduledAt := by
        simp only [waitsBy,Bool.and_eq_true,decide_eq_true_eq] at hw
        exact hw.1.2
      have hid : (storedRow n metadata).id = k := Table.key_of_find? hf'
      subst hc
      refine .inr ?_
      rw [arrivals,hn]
      simp only [if_pos hdue,Finset.mem_singleton]
      exact hid.symm

end Step

section Selection

/-- A row that waits and is not selected stays as it is. -/
theorem waiting_move (hw : r.status = Status.received.code ∨ r.status = Status.failed.code)
    (hm : RowMove s c r r') (hsel : selects r.id s c = false) : r' = r := by
  have hne : r.status ≠ Status.reserved.code := by
    rcases hw with h | h <;> rw [h] <;> decide
  cases hm with
  | kept _ _ _ => rfl
  | selected _ hsel' _ =>
    rw [hsel] at hsel'
    cases hsel'
  | ended _ _ hr _ => exact absurd (Row.heldBy_iff.mp hr).2 hne
  | swept _ _ hst _ =>
    simp only [stale,Bool.and_eq_true,decide_eq_true_eq] at hst
    exact absurd hst.1 hne

/-- A reservation that passes over a row it could select takes as many entries as it may,
all of them ahead of the row. -/
theorem offers_le (hr : t.find? r.id = some r)
    (hw : r.status = Status.received.code ∨ r.status = Status.failed.code)
    (hlt : r.attempts < maxAttempts) (hl : Call.limitedTo maxAttempts c)
    (hnow : r.scheduledAt < Call.now c) (hsel : selects r.id t c = false) :
    offers r.id c ≤ ((ahead maxAttempts r t).filter fun k => selects k t c = true).card := by
  cases c with
  | record entry appNow now => exact Nat.zero_le _
  | finalize f id token now => exact Nat.zero_le _
  | sweep spec now => exact Nat.zero_le _
  | reserve spec draw =>
    rw [offers]
    split
    · next hoffer =>
      rw [Bool.and_eq_true,decide_eq_true_eq,Bool.not_eq_true'] at hoffer
      obtain ⟨hlimit,hunlocked⟩ := hoffer
      obtain rfl : spec.maxAttempts = maxAttempts := hl
      have hm := Table.mem_of_find? hr
      have hclaim : claimable spec draw r = true := by
        simp only [claimable,eligible,Bool.and_eq_true,Bool.or_eq_true,decide_eq_true_eq,
          Bool.not_eq_true']
        exact ⟨⟨⟨hw,Int.le_of_lt hnow⟩,hlt⟩,hunlocked⟩
      have hout : r ∉ candidates t spec draw := by
        intro hc
        rw [selects_reserve hlimit,(picked_iff hm).mpr hc] at hsel
        cases hsel
      obtain ⟨_,_,_,ho⟩ := reserve_outcome t hlimit draw
      -- all that was selected is ahead of the row
      have hahead : ∀ s ∈ candidates t spec draw, s.id ∈
          (ahead spec.maxAttempts r t).filter
            fun k => selects k t (.reserve spec draw) = true := by
        intro s hs
        obtain ⟨hsm,hsc⟩ := ho.eligible s hs
        rw [Finset.mem_filter,selects_reserve hlimit,picked_iff hsm]
        refine ⟨mem_ahead.mpr ⟨s,Table.find?_key hsm,?_,?_⟩,hs⟩
        · simp only [claimable,eligible,Bool.and_eq_true,decide_eq_true_eq] at hsc
          simp only [waitsBy,Bool.and_eq_true,decide_eq_true_eq]
          exact ⟨⟨hsc.1.1.1,ho.earliest r hm hclaim hout s hs⟩,hsc.1.2⟩
        · rintro hid
          exact hout (t.row_eq hsm hm hid ▸ hs)
      -- and it was as much as the limit allows, since the row was left out
      have hfull : (candidates t spec draw).length = spec.limit := by
        have hcount := ho.count
        rcases Nat.le_total spec.limit (t.rows.countP (claimable spec draw)) with hle | hle
        · rw [hcount,Nat.min_eq_left hle]
        · exfalso
          refine hout (mem_firstBy_of_length_le ?_ ?_)
          · rw [← List.countP_eq_length_filter]
            exact ((draw.candidates.perm t.rows).countP_eq _).trans_le hle
          · exact List.mem_filter.mpr ⟨draw.candidates.mem.mpr hm,hclaim⟩
      have hnodup : ((candidates t spec draw).map Row.id).Nodup :=
        ho.distinct.map_on fun a ha b hb hab =>
          t.row_eq (ho.eligible a ha).1 (ho.eligible b hb).1 hab
      rw [← hfull,← List.length_map,← List.toFinset_card_of_nodup hnodup]
      refine Finset.card_le_card fun k hk => ?_
      obtain ⟨s,hs,rfl⟩ := List.mem_map.mp (List.mem_toFinset.mp hk)
      exact hahead s hs
    · exact Nat.zero_le _

end Selection

section Results

variable {name : QueueName} {float : SerdeJson.FloatReader}

/-- Until it is selected, a row that waits stays as it is. -/
theorem waiting_run (hr : t.find? r.id = some r)
    (hw : r.status = Status.received.code ∨ r.status = Status.failed.code) {i : ℕ}
    (hi : i ≤ calls.length) (hnone : ∀ j (hj : j < calls.length), j < i →
      selects r.id (stateAt step t calls j) calls[j] = false) :
    (stateAt step t calls i).find? r.id = some r := by
  induction i with
  | zero => exact hr
  | succ i ih =>
    have hf := ih (by omega) fun j hj hji => hnone j hj (by omega)
    obtain ⟨r',hf',hmove⟩ := row_move calls[i] hf
    rw [stateAt_succ step t calls (by omega),hf',
      waiting_move hw hmove (hnone i (by omega) (by omega))]

/-- One call pays for the entries that it takes with the rows that it takes away. -/
theorem ahead_card {t : Rows (name.queue float)} {c : Call (name.queue float)}
    {r : Row (name.queue float).Own} (hr : t.find? r.id = some r)
    (hw : r.status = Status.received.code ∨ r.status = Status.failed.code)
    (hlt : r.attempts < maxAttempts) (h : ∀ k s, t.find? k = some s → 0 ≤ s.attempts)
    (hl : Call.limitedTo maxAttempts c) (hnow : r.scheduledAt < Call.now c)
    (hsel : selects r.id t c = false) :
    (ahead maxAttempts r (step t c)).card+offers r.id c ≤
      (ahead maxAttempts r t).card+(arrivals r.scheduledAt c).card := by
  have hstep := (Finset.card_le_card (ahead_step h hl hnow)).trans (Finset.card_union_le _ _)
  have hoffers := offers_le hr hw hlt hl hnow hsel
  have hsplit := Finset.card_filter_add_card_filter_not (s:=ahead maxAttempts r t)
    fun k => selects k t c = true
  omega

/-- No starvation: whatever workers and sweepers do in between, a due row has been selected
once the reservations that could select it had room for more entries than stood ahead of it or
were recorded to be due before it. -/
theorem bounded_waiting (name : QueueName) (float : SerdeJson.FloatReader)
    (t : Rows (name.queue float)) (calls : List (Call (name.queue float))) (maxAttempts : ℤ)
    (hall : ∀ c ∈ calls, Call.limitedTo maxAttempts c)
    (hstart : ∀ r ∈ t.rows, 0 ≤ r.attempts) {r : Row (name.queue float).Own} (hr : r ∈ t.rows)
    (hw : r.status = Status.received.code ∨ r.status = Status.failed.code)
    (hlt : r.attempts < maxAttempts) (hdue : ∀ c ∈ calls, r.scheduledAt < Call.now c)
    (hroom : (ahead maxAttempts r t).card+
      (calls.map fun c => (arrivals r.scheduledAt c).card).sum < (calls.map (offers r.id)).sum) :
    ∃ i, ∃ hi : i < calls.length, (stateAt step t calls i).find? r.id = some r ∧
      selects r.id (stateAt step t calls i) calls[i] = true := by
  have hf := Table.find?_key hr
  by_contra hno
  have hnone : ∀ i (hi : i < calls.length),
      selects r.id (stateAt step t calls i) calls[i] = false := by
    intro i
    -- the first call that selected the row would find it as it was
    induction i using Nat.strong_induction_on with
    | _ i ih =>
      intro hi
      refine Bool.eq_false_iff.mpr fun hsel => hno ⟨i,hi,?_,hsel⟩
      exact waiting_run hf hw (Nat.le_of_lt hi) fun j hj hji => ih j hji hj
  have hpaid := amortized step (fun s => (ahead maxAttempts r s).card) (offers r.id)
    (fun c => (arrivals r.scheduledAt c).card) t calls ?_ (Nat.le_refl _)
  · rw [List.take_length] at hpaid
    omega
  · intro i hi
    have hfi := waiting_run hf hw (Nat.le_of_lt hi) fun j hj _ => hnone j hj
    refine ahead_card hfi hw hlt (fun k s hk => ?_) (hall _ (List.getElem_mem hi))
      (hdue _ (List.getElem_mem hi)) (hnone i hi)
    exact attempts_nonneg calls (fun s hs => hstart s (Table.mem_of_find? hs))
      (Nat.le_of_lt hi) s hk

/-- A second command that is due at the same time. -/
def secondRow : Row (QueueName.commands.queue .integersOnly).Own :=
  { waitingRow with id := .fromU128 2 }

/-- Two commands that wait. -/
def twoWaiting : Rows (QueueName.commands.queue .integersOnly) := ⟨[waitingRow,secondRow],by decide⟩

/-- Two workers take one command each, and the first one fails. -/
def takenTurns : List (Call (QueueName.commands.queue .integersOnly)) :=
  [.reserve singleSpec (plainDraw (.fromU128 7) 1),
    .finalize (.failed 6 none) (.fromU128 1) (.fromU128 7) 2,
    .reserve singleSpec (plainDraw (.fromU128 8) 3)]

/-- The second command gets its turn, although the first one waits again. -/
theorem bounded_waiting_takenTurns : ∃ i, ∃ hi : i < takenTurns.length,
    (stateAt step twoWaiting takenTurns i).find? secondRow.id = some secondRow ∧
      selects secondRow.id (stateAt step twoWaiting takenTurns i) takenTurns[i] = true :=
  bounded_waiting .commands .integersOnly twoWaiting takenTurns 6
    (by simp [takenTurns,Call.limitedTo,singleSpec]) (by decide)
    (List.mem_cons_of_mem _ (List.mem_singleton_self _)) (.inl rfl) (by decide)
    (by simp [takenTurns,Call.now,plainDraw,secondRow,waitingRow]) (by decide)

end Results

end Mulac.NoStarvation
