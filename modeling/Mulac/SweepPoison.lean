import Mulac.QueueRuns

/-!
# When a sweep goes through

A reservation judges `extra_info` with serde's struct reader, a sweep edits it
with `jsonb_set`. The two agree on every shape but one: serde also reads the
struct from an array, on which `jsonb_set` raises an error. One such row, once
handed out, keeps every sweep from releasing anything. Any other sweep goes through
if its times can be represented, and releases all that has expired but for what was
reserved in the microsecond in which its cutoff falls.
-/

namespace Mulac.SweepPoison

open JsonValue Identifiers Postgres SerdeJson QueueDomain KeyedTable QueueRow Repository
  RepositoryContracts FourQueues CallSequence QueueCalls QueueRuns

variable {q : Queue}

section Statement

/-- A value that `jsonb_set` can give an `errors` field: NULL or an object. -/
def sweepable (extraInfo : Option Jsonb) : Bool :=
  match extraInfo with
  | none => true
  | some ⟨.object _,_⟩ => true
  | some _ => false

/-- The bulk update raises no error on exactly these values. -/
theorem sweptExtraInfo_ok (extraInfo : Option Jsonb) :
    (∃ j, sweptExtraInfo q extraInfo = .ok j) ↔ sweepable extraInfo = true := by
  constructor
  · rintro ⟨j,hj⟩
    cases extraInfo with
    | none => rfl
    | some v =>
      obtain ⟨w,hw⟩ := v
      cases w <;> first | rfl | cases hj
  · intro h
    cases extraInfo with
    | none => exact ⟨_,rfl⟩
    | some v =>
      obtain ⟨w,hw⟩ := v
      cases w <;> first | exact ⟨_,rfl⟩ | cases h

/-- An object can be swept. -/
theorem sweepable_of_object {j : Jsonb} {fields : List (String × Json)}
    (h : j.value = .object fields) : sweepable (some j) = true := by
  obtain ⟨v,hv⟩ := j
  cases h
  rfl

theorem sweepRow_isOk {policy : ReservationTimeoutPolicy} {now : Timestamp} (r : Row q.Own) :
    (∃ s, sweepRow policy now r = .ok s) ↔ sweepable r.extraInfo = true := by
  rw [← sweptExtraInfo_ok (q:=q)]
  constructor
  · rintro ⟨s,hs⟩
    obtain ⟨j,hj,_⟩ := sweepRow_ok hs
    exact ⟨j,hj⟩
  · rintro ⟨j,hj⟩
    exact ⟨_,by rw [sweepRow,hj]; rfl⟩

/-- What a swept row holds can be swept again. -/
theorem sweptExtraInfo_sweepable {extraInfo : Option Jsonb} {j : Jsonb}
    (h : sweptExtraInfo q extraInfo = .ok j) : sweepable (some j) = true := by
  have hs := (sweptExtraInfo_ok (q:=q) extraInfo).mp ⟨j,h⟩
  cases extraInfo with
  | none =>
    cases h
    rfl
  | some v =>
    obtain ⟨w,hw⟩ := v
    cases w <;> first | cases hs; done | (cases h; rfl)

end Statement

section Expiry

variable {spec : StaleSpec} {now : Timestamp} {r : Row q.Own}

/-- A row that has been reserved for longer than the timeout. -/
def Expired (spec : StaleSpec) (now : Timestamp) (r : Row q.Own) : Prop :=
  r.status = Status.reserved.code ∧ ∃ reservedAt, r.reservedAt = some reservedAt ∧
    nanoseconds reservedAt < nanoseconds now-spec.timeout

/-- A row reserved in the microsecond in which the cutoff of a sweep falls. -/
def Overlooked (spec : StaleSpec) (now : Timestamp) (r : Row q.Own) : Prop :=
  r.status = Status.reserved.code ∧ ∃ reservedAt, r.reservedAt = some reservedAt ∧
    cutShort (nanoseconds now-spec.timeout) reservedAt

/-- Overlooked rows have expired. -/
theorem Overlooked.expired (h : Overlooked spec now r) : Expired spec now r := by
  obtain ⟨hstatus,reservedAt,hat,_,hlt,_⟩ := h
  exact ⟨hstatus,reservedAt,hat,hlt⟩

/-- A sweep selects what has expired, but for what it overlooks. -/
theorem stale_iff :
    stale (StaleSpec.policy spec now) r = true ↔ Expired spec now r ∧ ¬Overlooked spec now r := by
  have hbefore : ∀ reservedAt : Timestamp,
      decide (reservedAt < boundTime (StaleSpec.policy spec now).reservedBefore) = true ↔
        nanoseconds reservedAt < nanoseconds now-spec.timeout ∧
          ¬cutShort (nanoseconds now-spec.timeout) reservedAt :=
    fun reservedAt => decide_eq_true_iff.trans (lt_boundTime_iff _ reservedAt)
  rw [stale,Bool.and_eq_true,decide_eq_true_eq,Option.any_eq_true]
  simp only [hbefore]
  constructor
  · intro h
    obtain ⟨hstatus,reservedAt,hat,hlt,hcut⟩ := h
    refine ⟨⟨hstatus,reservedAt,hat,hlt⟩,fun ho => hcut ?_⟩
    obtain ⟨_,other,hother,ho⟩ := ho
    cases hat.symm.trans hother
    exact ho
  · intro h
    obtain ⟨⟨hstatus,reservedAt,hat,hlt⟩,hno⟩ := h
    exact ⟨hstatus,reservedAt,hat,hlt,fun hcut => hno ⟨hstatus,reservedAt,hat,hcut⟩⟩

/-- A sweep of which no row is overlooked selects what has expired. -/
theorem stale_iff_expired (h : ¬Overlooked spec now r) :
    stale (StaleSpec.policy spec now) r = true ↔ Expired spec now r :=
  stale_iff.trans (and_iff_left h)

/-- A cutoff of whole microseconds overlooks nothing. -/
theorem not_overlooked_of_whole (cutoff : Timestamp)
    (h : nanoseconds now-spec.timeout = nanoseconds cutoff) (r : Row q.Own) :
    ¬Overlooked spec now r := by
  intro ho
  obtain ⟨_,reservedAt,_,_,hlt,hgt⟩ := ho
  rw [h] at hlt hgt
  have hno : ∀ a c : ℤ, a*1000 < c*1000 → ¬c*1000 < (a+1)*1000 := fun a c _ => by omega
  exact hno reservedAt cutoff hlt hgt

/-- The times of a sweep fit, and it overlooks no row. -/
structure StaleSpec.Sharp (spec : StaleSpec) (now : Timestamp) (t : Rows q) : Prop where
  /-- The times can be represented. -/
  fits : StaleSpec.Fits spec now t
  /-- No row is reserved in the microsecond in which the cutoff falls. -/
  overlooks : ∀ r ∈ t.rows, ¬Overlooked spec now r

/-- The sweep succeeds and leaves no expired reservation. -/
def SweepSettles (t : Rows q) (spec : StaleSpec) (now : Timestamp) : Prop :=
  (∃ n, (sweep t spec now).1 = some (.ok n)) ∧
    ∀ r ∈ (sweep t spec now).2.rows, ¬Expired spec now r

/-- A sweep settles exactly when it is sharp and every stale row can be swept. -/
theorem sweepSettles_iff (t : Rows q) (spec : StaleSpec) (now : Timestamp) :
    SweepSettles t spec now ↔ StaleSpec.Sharp spec now t ∧
      ∀ r ∈ t.rows, stale (StaleSpec.policy spec now) r = true →
        sweepable r.extraInfo = true := by
  constructor
  · intro h
    obtain ⟨⟨n,hn⟩,hrest⟩ := h
    rcases sweep_cases t spec now with ⟨hc,hall⟩ | ⟨hne,_⟩
    · refine ⟨⟨hc,fun r hr ho => ?_⟩,fun r hr hs => (sweepRow_isOk r).mp (hall r hr hs)⟩
      -- an overlooked row stays as it is
      have hfresh : ¬stale (StaleSpec.policy spec now) r = true := fun hs => (stale_iff.mp hs).2 ho
      rw [sweep_of_ok t hc hall] at hrest
      refine hrest r (List.mem_map.mpr ⟨r,hr,?_⟩) ho.expired
      rw [if_neg hfresh]
    · exact absurd hn (hne n)
  · intro h
    obtain ⟨⟨hc,hover⟩,hall⟩ := h
    have he := sweep_of_ok t hc fun r hr hs => (sweepRow_isOk r).mpr (hall r hr hs)
    rw [SweepSettles,he]
    refine ⟨⟨_,rfl⟩,?_⟩
    intro r hr hexpired
    obtain ⟨s,hs,rfl⟩ := List.mem_map.mp hr
    by_cases hst : stale (StaleSpec.policy spec now) s = true
    · obtain ⟨s',hs'⟩ := (sweepRow_isOk s).mpr (hall s hs hst)
      obtain ⟨j,_,hj⟩ := sweepRow_ok hs'
      rw [if_pos hst,Table.rewrite_of_ok hs',hj] at hexpired
      have hstatus := (sweptRow_status (StaleSpec.policy spec now) now j s).symm.trans hexpired.1
      simp at hstatus
    · rw [if_neg hst] at hexpired
      exact hst ((stale_iff_expired (hover s hs)).mpr hexpired)

end Expiry

section Poison

/-- A row that a reservation can hand out although `jsonb_set` refuses it: the
limit on attempts is below 2^31, so a row at `i32::MAX` attempts is never
reserved. -/
def Poisonous (r : Row q.Own) : Prop :=
  r.attempts < 2^31-1 ∧ decodes r = true ∧ ∃ items h, r.extraInfo = some ⟨.array items,h⟩

/-- What decodes without being sweepable is an array. -/
theorem array_of_decodes {r : Row q.Own} (hd : decodes r = true)
    (hs : sweepable r.extraInfo = false) : ∃ items h, r.extraInfo = some ⟨.array items,h⟩ := by
  obtain ⟨history,_,hh,_⟩ := decodes_iff.mp hd
  cases hx : r.extraInfo with
  | none => rw [hx] at hs; cases hs
  | some j =>
    rw [hx] at hh hs
    obtain ⟨v,hv⟩ := j
    cases v with
    | array items => exact ⟨items,hv,rfl⟩
    | object fields => cases hs
    | null => cases hh
    | bool b => cases hh
    | number n => cases hh
    | string s => cases hh

/-- The sweepable rows of a run: reserved rows always are, and waiting rows are
if a reservation can hand them out. -/
structure Sound (r : Row q.Own) : Prop where
  /-- A reserved row can be swept. -/
  reserved : r.status = Status.reserved.code → sweepable r.extraInfo = true
  /-- A waiting row that can be handed out can be swept. -/
  waiting : r.status = Status.received.code ∨ r.status = Status.failed.code →
    r.attempts < 2^31-1 → decodes r = true → sweepable r.extraInfo = true

theorem recorded_sweepable (float : FloatReader) (original : Option Jsonb) {reason : String}
    (h : nulFree reason = true) :
    sweepable (some (recordedExtraInfo float original reason h)) = true := by
  obtain ⟨fields,hf⟩ := appendFailure_object (rawExtraInfo float original) reason
  exact sweepable_of_object hf

theorem failureExtraInfo_sweepable {float : FloatReader} {original extraInfo : Option Jsonb}
    {reason : Option String} (h : failureExtraInfo float original reason = .ok extraInfo)
    (ho : sweepable original = true) : sweepable extraInfo = true := by
  cases reason with
  | none =>
    cases h
    exact ho
  | some s =>
    cases hs : nulFree s with
    | true =>
      rw [failureExtraInfo_eq float original hs] at h
      cases h
      exact recorded_sweepable float original hs
    | false =>
      obtain ⟨e,he⟩ := failureExtraInfo_error float original hs
      rw [he] at h
      cases h

/-- A row that can be swept is sound whatever its status. -/
theorem sound_of_sweepable {r : Row q.Own} (h : sweepable r.extraInfo = true) : Sound r :=
  ⟨fun _ => h,fun _ _ _ => h⟩

/-- Every call keeps every row sound. -/
theorem sound_step {s : Rows q} (h : ∀ r ∈ s.rows, Sound r) (c : Call q) :
    ∀ r ∈ (step s c).rows, Sound r := by
  intro r' hr'
  have hs := step_row s c r'.id
  rw [Table.find?_key hr'] at hs
  generalize ho : s.find? r'.id = o at hs
  cases hs with
  | same => exact h r' (Table.mem_of_find? ho)
  | recorded hc hn hm => exact sound_of_sweepable rfl
  | @reserved spec draw r hc he =>
    rcases reservedAndSettled_cases spec draw r with ⟨⟨e,hd⟩,hx⟩ | ⟨error,_,hx⟩ <;> rw [hx]
    · have hdec := decode_isOk (reservedRow_heldBy draw.token draw.now r)
      rw [hd] at hdec
      simp only [eligible,Bool.and_eq_true,Bool.or_eq_true,decide_eq_true_eq] at he
      have hlim := spec.maxAttempts_lt
      exact sound_of_sweepable ((h r (Table.mem_of_find? ho)).waiting he.1.1 (by omega) hdec.symm)
    · exact sound_of_sweepable (recorded_sweepable q.float r.extraInfo _)
  | @finalized f token now r r' hc hr hw =>
    have hst := (Row.heldBy_iff.mp hr).2
    have hr0 := (h r (Table.mem_of_find? ho)).reserved hst
    cases hw with
    | completed hf => exact sound_of_sweepable hr0
    | failed hf he => exact sound_of_sweepable (failureExtraInfo_sweepable he hr0)
    | dead hf hh hx => exact ⟨by simp [deadRow,Status.code],by simp [deadRow,Status.code]⟩
  | swept hc hst he =>
    obtain ⟨j,hj,rfl⟩ := sweepRow_ok he
    exact sound_of_sweepable (sweptExtraInfo_sweepable hj)

/-- From sound rows, every sweep of a run settles that is sharp. -/
theorem settles_of_sound {t : Rows q} (h : ∀ r ∈ t.rows, Sound r) (calls : List (Call q))
    {spec : StaleSpec} {now : Timestamp} (hc : StaleSpec.Sharp spec now (after step t calls)) :
    SweepSettles (after step t calls) spec now := by
  rw [sweepSettles_iff]
  refine ⟨hc,?_⟩
  have hs := invariant step (fun s => ∀ r ∈ s.rows, Sound r) h
    (fun i hi hs => sound_step hs (calls[i])) calls.length (Nat.le_refl _)
  rw [stateAt_length] at hs
  intro r hr hst
  exact (hs r hr).reserved (stale_iff.mp hst).1.1

/-- The reservation that hands out one row while other sessions hold the rest. -/
def reserveOnly (id token : Uuid) (now : Timestamp) : Call q :=
  .reserve { singleSpec with maxAttempts := 2^31-1, maxAttempts_lt := by decide }
    ⟨token,now,.physical,.physical,fun other => decide (other ≠ id)⟩

/-- A due row is selected, if other sessions hold all the others. -/
theorem picked_alone {t : Rows q} {spec : ReservableSpec} {draw : ReserveDraw q} {r : Row q.Own}
    (hr : r ∈ t.rows) (hlimit : 1 ≤ spec.limit)
    (he : (eligible spec draw.now r && !draw.locked r.id) = true)
    (honly : ∀ id, draw.locked id = false → id = r.id) : picked t spec draw r = true := by
  obtain ⟨waiting,hwaiting⟩ : ∃ waiting, waiting = (draw.candidates.order t.rows).filter
      (fun s => eligible spec draw.now s && !draw.locked s.id) := ⟨_,rfl⟩
  have hmem : r ∈ waiting := by
    rw [hwaiting]
    exact List.mem_filter.mpr ⟨draw.candidates.mem.mpr hr,he⟩
  have hall : ∀ s ∈ waiting, s = r := by
    intro s hs
    rw [hwaiting] at hs
    obtain ⟨hs,hunlocked⟩ := List.mem_filter.mp hs
    rw [Bool.and_eq_true,Bool.not_eq_true'] at hunlocked
    exact t.row_eq (draw.candidates.mem.mp hs) hr (honly _ hunlocked.2)
  have hnodup : waiting.Nodup := by
    rw [hwaiting]
    exact (draw.candidates.nodup t.rows_nodup).filter _
  have hlength : waiting.length ≤ 1 := by
    have hsame := List.eq_replicate_of_mem hall
    refine List.nodup_replicate (a:=r).mp ?_
    rw [← hsame]
    exact hnodup
  rw [picked,decide_eq_true_eq]
  refine List.mem_map.mpr ⟨r,?_,rfl⟩
  subst hwaiting
  exact OrderedSelection.mem_firstBy_of_length_le (hlength.trans hlimit) hmem

/-- Such a reservation hands the row out, if it decodes. -/
theorem reserveOnly_find? {t : Rows q} {r : Row q.Own} (hr : r ∈ t.rows)
    (hw : r.status = Status.received.code ∨ r.status = Status.failed.code)
    (hatt : r.attempts<2^31-1) (hdec : decodes r = true) (token : Uuid) {now : Timestamp}
    (hdue : r.scheduledAt ≤ now) :
    (step t (reserveOnly r.id token now)).find? r.id = some (reservedRow token now r) := by
  obtain ⟨spec,hspec⟩ : ∃ spec, spec =
    { singleSpec with maxAttempts := 2^31-1, maxAttempts_lt := by decide } := ⟨_,rfl⟩
  obtain ⟨draw,hdraw⟩ : ∃ draw, draw = (⟨token,now,.physical,.physical,
    fun other => decide (other ≠ r.id)⟩ : ReserveDraw q) := ⟨_,rfl⟩
  have hcall : (reserveOnly r.id token now : Call q) = .reserve spec draw := by
    rw [hspec,hdraw]
    rfl
  have hlimit : spec.limit = 1 := congrArg ReservableSpec.limit hspec
  have hl : spec.limit < 2^63 := by rw [hlimit]; decide
  have helig : (eligible spec draw.now r && !draw.locked r.id) = true := by
    rw [hspec,hdraw]
    simp only [eligible,Bool.and_eq_true,Bool.or_eq_true,decide_eq_true_eq]
    exact ⟨⟨⟨hw,hdue⟩,hatt⟩,by simp⟩
  have hpick : picked t spec draw r = true :=
    picked_alone hr (Nat.le_of_eq hlimit.symm) helig fun id h => by simpa [hdraw] using h
  have hok : (decode (reservedRow draw.token draw.now r)).isOk = true :=
    (decode_isOk (reservedRow_heldBy draw.token draw.now r)).trans hdec
  rw [hcall,step,reserve_eq t hl draw,Table.find?_update,Table.find?_key hr,Option.map_some,hpick,
    if_pos rfl]
  rcases reservedAndSettled_cases spec draw r with ⟨_,hx⟩ | ⟨error,hd,_⟩
  · rw [hx,hdraw]
  · rw [hd] at hok
    cases hok

/-- A poisonous row that waits can be reserved, and from then on no sweep settles after
whose timeout it ought to be released. -/
theorem poisoned {t : Rows q} {r : Row q.Own} (hr : r ∈ t.rows)
    (hw : r.status = Status.received.code ∨ r.status = Status.failed.code) (hp : Poisonous r)
    (token : Uuid) {now : Timestamp} (hdue : r.scheduledAt ≤ now) {spec : StaleSpec}
    {later : Timestamp} (hlater : nanoseconds now < nanoseconds later-spec.timeout) :
    ¬SweepSettles (after step t [reserveOnly r.id token now]) spec later := by
  obtain ⟨hatt,hdec,items,hj,hx⟩ := hp
  rw [sweepSettles_iff]
  intro h
  obtain ⟨hsharp,hall⟩ := h
  have hafter : (after step t [reserveOnly r.id token now]).find? r.id =
      some (reservedRow token now r) := reserveOnly_find? hr hw hatt hdec token hdue
  have hmem := Table.mem_of_find? hafter
  have hexpired : Expired spec later (reservedRow token now r) := ⟨rfl,now,rfl,hlater⟩
  have hbad := hall _ hmem ((stale_iff_expired (hsharp.overlooks _ hmem)).mpr hexpired)
  rw [reservedRow,hx] at hbad
  cases hbad

end Poison

section Guarantee

/-- Over tables of rows that wait. If no row can be handed out with an array as its
`extra_info`, then every sweep of every run settles exactly when it is sharp. If one can,
then once it is handed out and has expired, no sweep settles. -/
theorem sweep_never_poisoned (name : QueueName) (float : FloatReader)
    (t : Rows (name.queue float))
    (hw : ∀ r ∈ t.rows, r.status = Status.received.code ∨ r.status = Status.failed.code) :
    ((∀ r ∈ t.rows, ¬Poisonous r) →
      ∀ (calls : List (Call (name.queue float))) (spec : StaleSpec) (now : Timestamp),
        SweepSettles (after step t calls) spec now ↔
          StaleSpec.Sharp spec now (after step t calls)) ∧
    ∀ r ∈ t.rows, Poisonous r → ∀ now, r.scheduledAt ≤ now →
      ∃ calls : List (Call (name.queue float)), ∀ (spec : StaleSpec) (later : Timestamp),
        nanoseconds now < nanoseconds later-spec.timeout →
          ¬SweepSettles (after step t calls) spec later := by
  constructor
  · intro h calls spec now
    constructor
    · intro hs
      exact ((sweepSettles_iff _ spec now).mp hs).1
    · intro hc
      refine settles_of_sound ?_ calls hc
      intro r hr
      refine ⟨fun hst => ?_,fun _ hatt hdec => ?_⟩
      · rcases hw r hr with h' | h' <;> rw [h'] at hst <;> simp [Status.code] at hst
      · cases hx : sweepable r.extraInfo with
        | true => rfl
        | false => exact absurd ⟨hatt,hdec,array_of_decodes hdec hx⟩ (h r hr)
  · intro r hr hp now hdue
    exact ⟨[reserveOnly r.id (.fromU128 0) now],
      fun spec later hlater => poisoned hr (hw r hr) hp (.fromU128 0) hdue hlater⟩

/-- A waiting command whose `extra_info` is the empty array. -/
def arrayTable : Rows (QueueName.commands.queue .integersOnly) :=
  ⟨[{ waitingRow with extraInfo := some emptyArray }],by decide⟩

/-- The command is reserved and abandoned; an hour later a sweep without timeout
raises an error and leaves it reserved. -/
theorem sweep_poisoned_by_array :
    (∀ r ∈ arrayTable.rows, r.status = Status.received.code) ∧
    (sweep (after step arrayTable [.reserve singleSpec (plainDraw (.fromU128 7) 0)]) ⟨0,6⟩
      (seconds 3600)).1 = some (.error (.storage
        "path element at position 1 is not an integer: \"errors\"")) ∧
    ¬SweepSettles (after step arrayTable [.reserve singleSpec (plainDraw (.fromU128 7) 0)]) ⟨0,6⟩
      (seconds 3600) := by
  refine ⟨by decide,by rfl,?_⟩
  rintro ⟨⟨n,hn⟩,_⟩
  cases hn

theorem sweep_never_poisoned_waiting :
    SweepSettles (after step waitingTable completedTwice) ⟨0,6⟩ 5 :=
  ((sweep_never_poisoned .commands .integersOnly waitingTable (by decide)).1 (by
    intro r hr
    rw [List.mem_singleton.mp hr]
    rintro ⟨_,_,items,h,hx⟩
    cases hx) completedTwice ⟨0,6⟩ 5).mpr
      ⟨by decide,fun r _ => not_overlooked_of_whole 5 (by decide) r⟩

end Guarantee

end Mulac.SweepPoison
