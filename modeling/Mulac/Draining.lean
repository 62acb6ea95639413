import Mulac.RowLifetimes

/-!
# Draining a queue

At one time and without interference, reservations take the due rows of a queue
away in rounds. A row that is malformed goes straight back to `Failed`, but is
not due again at that time, so old malformed rows keep no newer row waiting.
-/

namespace Mulac.Draining

open Identifiers QueueDomain KeyedTable OrderedSelection QueueRow Repository RepositoryContracts
  FourQueues QueueCalls QueueRuns ReserveContract BatchSettlement RowLifetimes

variable {q : Queue} {t : Rows q} {spec : ReservableSpec} {draws : ℕ → ReserveDraw q}
  {draw : ReserveDraw q} {now : Timestamp}

section Definitions

/-- The table after so many reservations. -/
def drained (t : Rows q) (spec : ReservableSpec) (draws : ℕ → ReserveDraw q) : ℕ → Rows q
  | 0 => t
  | i+1 => (reserve (drained t spec draws i) spec (draws i)).2

/-- The rows that a reservation may select. -/
def due (spec : ReservableSpec) (now : Timestamp) (t : Rows q) : List (Row q.Own) :=
  t.rows.filter (eligible spec now)

/-- The rows that a round selects. -/
def round (t : Rows q) (spec : ReservableSpec) (draws : ℕ → ReserveDraw q) (i : ℕ) :
    List (Row q.Own) := selected (drained t spec draws i) spec (draws i)

/-- All reservations happen at one time, and no row is locked. -/
structure Undisturbed (now : Timestamp) (draws : ℕ → ReserveDraw q) : Prop where
  /-- The time stands still. -/
  time : ∀ i, (draws i).now = now
  /-- Nobody else holds a row. -/
  unlocked : ∀ i id, (draws i).locked id = false

/-- The reservations drain the queue without starving a row. -/
structure Drains (t : Rows q) (spec : ReservableSpec) (draws : ℕ → ReserveDraw q)
    (now : Timestamp) : Prop where
  /-- Every due row is selected in exactly one of the rounds. -/
  once : ∀ r ∈ due spec now t,
    ∃! i, i < roundsOf spec.limit (due spec now t).length ∧ r ∈ round t spec draws i
  /-- No round selects a row twice. -/
  distinct : ∀ i, (round t spec draws i).Nodup
  /-- Only due rows are selected. -/
  source : ∀ i, round t spec draws i ⊆ due spec now t
  /-- No round selects a row that was due before a row of an earlier round. -/
  ordered : ∀ i j, i < j → ∀ r ∈ round t spec draws i, ∀ s ∈ round t spec draws j,
    r.scheduledAt ≤ s.scheduledAt
  /-- A due row that decodes is returned by one of the rounds, however many others
  do not decode. -/
  returned : ∀ r ∈ due spec now t, decodes r = true →
    ∃ i < roundsOf spec.limit (due spec now t).length, ∃ list,
      (reserve (drained t spec draws i) spec (draws i)).1 = .ok list ∧
        ∃ e ∈ list, (q.handed e).id = r.id
  /-- Afterwards reservations return nothing and change nothing. -/
  done : ∀ i, roundsOf spec.limit (due spec now t).length ≤ i →
    reserve (drained t spec draws i) spec (draws i) = (.ok [],drained t spec draws i)

end Definitions

section Rounds

variable {name : QueueName} {float : SerdeJson.FloatReader}

/-- A row that was selected is not due again at the same time. -/
theorem not_eligible_settled (spec : ReservableSpec) (draw : ReserveDraw (name.queue float))
    (r : Row (name.queue float).Own) :
    eligible spec draw.now (reservedAndSettled spec draw r) = false := by
  rcases reservedAndSettled_cases spec draw r with ⟨_,hx⟩ | ⟨error,_,hx⟩ <;> rw [hx]
  · simp [eligible,reservedRow,Status.code]
  · refine Bool.eq_false_iff.mpr fun he => ?_
    simp only [eligible,Bool.and_eq_true,decide_eq_true_eq] at he
    obtain ⟨⟨_,hdue⟩,hlt⟩ := he
    exact absurd hdue (not_le.mpr (failureSchedule_later name float hlt draw.now r.scheduledAt))

/-- What is due after a reservation was due before and was not picked. -/
theorem due_reserve (t : Rows (name.queue float)) (hl : spec.limit < 2^63)
    (draw : ReserveDraw (name.queue float)) :
    due spec draw.now (reserve t spec draw).2 =
      (due spec draw.now t).filter fun r => !picked t spec draw r := by
  have he : (eligible spec draw.now ∘ fun r =>
      if picked t spec draw r then reservedAndSettled spec draw r else r) =
        fun r => !picked t spec draw r && eligible spec draw.now r := by
    funext r
    by_cases hp : picked t spec draw r = true <;> simp [hp,not_eligible_settled]
  rw [reserve_eq t hl draw,due,Table.update_rows,due,List.filter_map,List.filter_filter,he]
  refine (List.map_congr_left ?_).trans (List.map_id _)
  intro r hr
  have hp := (List.mem_filter.mp hr).2
  simp only [Bool.and_eq_true,Bool.not_eq_true'] at hp
  simp [hp.1]

/-- The candidates of an undisturbed reservation are the first of the due rows. -/
theorem candidates_due (t : Rows q) (spec : ReservableSpec) {draw : ReserveDraw q}
    (hd : ∀ id, draw.locked id = false) :
    ∃ l, l.Perm (due spec draw.now t) ∧
      candidates t spec draw = firstBy Row.scheduledAt spec.limit l := by
  refine ⟨_,?_,rfl⟩
  simp only [hd,Bool.not_false,Bool.and_true]
  exact (draw.candidates.perm t.rows).filter _

/-- The reservations of an undisturbed queue are rounds over its due rows. -/
theorem rounds {t : Rows (name.queue float)} {draws : ℕ → ReserveDraw (name.queue float)}
    (hl : spec.limit < 2^63) (hd : Undisturbed now draws) :
    Rounds Row.scheduledAt spec.limit (fun i => due spec now (drained t spec draws i))
      (round t spec draws) where
  nodup := t.rows_nodup.filter _
  first := by
    intro i
    obtain ⟨l,hp,he⟩ := candidates_due (drained t spec draws i) spec (hd.unlocked i)
    rw [hd.time i] at hp
    exact ⟨l,hp,(selected_eq hl (draws i)).trans he⟩
  rest := by
    intro i
    have hnext := due_reserve (drained t spec draws i) hl (draws i)
    rw [hd.time i] at hnext
    have hpicked : (round t spec draws i).Perm
        ((due spec now (drained t spec draws i)).filter
          (picked (drained t spec draws i) spec (draws i))) := by
      rw [round,selected_eq hl,due,List.filter_filter]
      refine (picked_perm _ spec (draws i)).symm.trans (List.Perm.of_eq ?_)
      refine List.filter_congr fun r hr => ?_
      cases hp : picked (drained t spec draws i) spec (draws i) r with
      | false => rfl
      | true =>
        rw [← hd.time i]
        simp [(eligible_of_picked hr hp).1]
    rw [drained,hnext]
    exact (hpicked.append_right _).trans (List.filter_append_perm _ _)

/-- A limit that an `i64` can hold drains the queue. -/
theorem drains {t : Rows (name.queue float)} {draws : ℕ → ReserveDraw (name.queue float)}
    (h1 : 1 ≤ spec.limit) (hl : spec.limit < 2^63) (hd : Undisturbed now draws) :
    Drains t spec draws now where
  once := fun _ hr => (rounds hl hd).exactly_once h1 hr
  distinct := (rounds hl hd).batch_nodup
  source := fun i => List.Subset.trans ((rounds hl hd).batch_subset i)
    ((rounds hl hd).waiting_subset (Nat.zero_le i))
  ordered := fun _ _ hij _ hr _ hs => (rounds hl hd).ordered hij hr hs
  returned := by
    intro r hr hdec
    obtain ⟨i,⟨hi,hsel⟩,_⟩ := (rounds hl hd).exactly_once h1 hr
    obtain ⟨list,t',he,ho⟩ := reserve_outcome (drained t spec draws i) hl (draws i)
    change r ∈ round t spec draws i at hsel
    rw [round,selected_eq hl] at hsel
    obtain ⟨history,metadata,hh,hm⟩ := decodes_iff.mp hdec
    obtain ⟨⟨e,hmem,hhanded⟩,_⟩ := ho.returned r hsel history metadata hh hm
    exact ⟨i,hi,list,by rw [he],e,hmem,by rw [hhanded]⟩
  done := by
    intro i hi
    have hnone : due spec now (drained t spec draws i) = [] := (rounds hl hd).done h1 hi
    have hpicked : ∀ r ∈ (drained t spec draws i).rows,
        picked (drained t spec draws i) spec (draws i) r = false := by
      intro r hr
      refine Bool.eq_false_iff.mpr fun hp => ?_
      have he := (eligible_of_picked hr hp).1
      rw [hd.time i] at he
      have hmem : r ∈ due spec now (drained t spec draws i) := List.mem_filter.mpr ⟨hr,he⟩
      rw [hnone] at hmem
      cases hmem
    have hreturned : returnedRows (drained t spec draws i) spec (draws i) = [] := by
      have hfilter : (drained t spec draws i).rows.filter
          (picked (drained t spec draws i) spec (draws i)) = [] :=
        List.filter_eq_nil_iff.mpr fun r hr => by simp [hpicked r hr]
      rw [returnedRows,hfilter,List.map_nil]
      exact ((draws i).returning.perm []).eq_nil
    rw [reserve_eq _ hl,hreturned,Table.update_of_none _ _ hpicked]
    rfl

/-- From 2^63 on a limit turns negative, and no reservation succeeds. -/
theorem not_drains (hl : ¬spec.limit < 2^63) : ¬Drains t spec draws now := by
  intro h
  have hdone := h.done _ (Nat.le_refl _)
  rw [reserve_of_limit _ hl] at hdone
  cases (Prod.mk.inj hdone).1

/-- Draining without starvation: undisturbed reservations under any limit drain a
queue exactly when an `i64` can hold the limit. -/
theorem drains_iff (name : QueueName) (float : SerdeJson.FloatReader)
    (t : Rows (name.queue float)) (spec : ReservableSpec) (h1 : 1 ≤ spec.limit) (now : Timestamp)
    (draws : ℕ → ReserveDraw (name.queue float)) (hd : Undisturbed now draws) :
    Drains t spec draws now ↔ spec.limit < 2^63 :=
  ⟨fun h => by_contra fun hl => not_drains hl h,fun hl => drains h1 hl hd⟩

/-- Reservations that draw one token after the other. -/
def plainDraws (now : Timestamp) (i : ℕ) : ReserveDraw (QueueName.commands.queue .integersOnly) :=
  plainDraw (.fromU128 i) now

theorem plainDraws_undisturbed (now : Timestamp) : Undisturbed now (plainDraws now) :=
  ⟨fun _ => rfl,fun _ _ => rfl⟩

theorem drains_iff_mixed : Drains mixedTable singleSpec (plainDraws 0) 0 ↔ 1 < 2^63 :=
  drains_iff .commands .integersOnly mixedTable singleSpec (le_refl 1) 0 (plainDraws 0)
    (plainDraws_undisturbed 0)

/-- A limit of 2^63 never returns the waiting command. -/
theorem limit_starves : ¬Drains mixedTable ⟨2^63,by decide,6,by decide⟩ (plainDraws 0) 0 :=
  not_drains (by decide)

end Rounds

end Mulac.Draining
