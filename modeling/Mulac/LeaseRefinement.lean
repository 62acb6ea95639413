import Mulac.LeaseQueue
import Mulac.Recording

/-!
# The tables as queues of leased work

Each of the four tables, under whatever calls, is a queue of leased work: a row
is an entry, and what the clients of a call see is an event. From the ledger of
that queue, every delivery of a row to a consumer ends once: by its consumer, by
a sweep, or not yet.
-/

namespace Mulac.LeaseRefinement

open Identifiers Postgres QueueDomain KeyedTable OrderedSelection QueueRow Repository
  RepositoryContracts FourQueues CallSequence QueueCalls QueueRuns ReserveContract
  RowLifetimes Pipeline Recording LeaseQueue

variable {float : SerdeJson.FloatReader} {name : QueueName}

section Abstraction

/-- Where a row stands. -/
def phaseOf {q : Queue} (r : Row q.Own) : Phase Uuid Timestamp :=
  if r.status = Status.received.code || r.status = Status.failed.code then
    .waiting r.scheduledAt
  else if r.status = Status.reserved.code then
    match r.reservationId,r.reservedAt with
    | some token,some since => .leased token since
    | _,_ => .withdrawn
  else if r.status = Status.completed.code then .acknowledged
  else if r.status = Status.dead.code then .buried
  else .withdrawn

/-- A row as an entry. -/
def entryOf (name : QueueName) (r : Row (name.queue float).Own) :
    Entry Content Uuid Timestamp where
  content := contentOf name r
  deliveries := r.attempts.toNat
  phase := phaseOf r

/-- The entries of a table. -/
def entries (name : QueueName) (t : Rows (name.queue float)) :
    State Uuid Content Uuid Timestamp :=
  fun k => (t.find? k).map (entryOf name)

/-- How a finalization ends a lease. -/
def endingOf {q : Queue} : Finalization q → Ending
  | .completed => .acknowledged
  | .failed _ _ => .released
  | .dead _ _ => .buried

/-- The lease that a reservation grants. -/
def leaseOf {q : Queue} (spec : ReservableSpec) (draw : ReserveDraw q)
    (envelopes : List q.Envelope) : Lease Uuid Uuid Timestamp where
  token := draw.token
  now := draw.now
  limit := spec.limit
  maxDeliveries := spec.maxAttempts.toNat
  locked := draw.locked
  given := envelopes.map fun e => (q.handed e).id

/-- What a submission offers, if its row can be stored. -/
def offerOf (name : QueueName) (entry : (name.queue float).NewEntry) (appNow now : Timestamp) :
    Event Uuid Content Uuid Timestamp :=
  match (name.queue float).newRow entry appNow now with
  | .error _ => .refused
  | .ok n =>
    match castJsonb n.metadata with
    | .error _ => .refused
    | .ok metadata => .offer n.id (contentOf name (storedRow n metadata)) n.scheduledAt

/-- What the clients of a table see of a call. -/
def observed (name : QueueName) (t : Rows (name.queue float)) :
    Call (name.queue float) → Event Uuid Content Uuid Timestamp
  | .record entry appNow now =>
    match (record t entry appNow now).1 with
    | .ok _ => offerOf name entry appNow now
    | .error _ => .refused
  | .reserve spec draw =>
    match (reserve t spec draw).1 with
    | .ok envelopes => .lease (leaseOf spec draw envelopes)
    | .error _ => .refused
  | .finalize f id token now =>
    match (finalize t f id token now).1 with
    | .ok _ => .settle id token (endingOf f)
    | .error _ => .refused
  | .sweep spec now =>
    match (sweep t spec now).1 with
    | some (.ok _) => .expire (boundTime (StaleSpec.policy spec now).reservedBefore)
    | _ => .refused

end Abstraction

section Phases

variable {q : Queue} {r : Row q.Own}

theorem phaseOf_waiting
    (h : r.status = Status.received.code ∨ r.status = Status.failed.code) :
    phaseOf r = .waiting r.scheduledAt := by
  rcases h with h | h <;> rw [phaseOf,h] <;> rfl

theorem phaseOf_leased {token : Uuid} {since : Timestamp} (h : r.status = Status.reserved.code)
    (ht : r.reservationId = some token) (hs : r.reservedAt = some since) :
    phaseOf r = .leased token since := by
  rw [phaseOf,h,ht,hs]
  rfl

/-- Only a waiting row is a waiting entry. -/
theorem waiting_of_phase {due : Timestamp} (h : phaseOf r = .waiting due) :
    (r.status = Status.received.code ∨ r.status = Status.failed.code) ∧ r.scheduledAt = due := by
  unfold phaseOf at h
  split at h
  · next hw =>
    cases h
    exact ⟨by simpa using hw,rfl⟩
  · repeat' split at h
    all_goals cases h

/-- Only a reserved row is a leased entry. -/
theorem leased_of_phase {token : Uuid} {since : Timestamp} (h : phaseOf r = .leased token since) :
    r.status = Status.reserved.code ∧ r.reservationId = some token ∧
      r.reservedAt = some since := by
  unfold phaseOf at h
  split at h
  · cases h
  · split at h
    · next hs =>
      split at h
      · next ht hat =>
        cases h
        exact ⟨hs,ht,hat⟩
      · cases h
    · repeat' split at h
      all_goals cases h

end Phases

section Steps

variable {t : Rows (name.queue float)}

theorem entries_of_find? {k : Uuid} {r : Row (name.queue float).Own} (h : t.find? k = some r) :
    entries name t k = some (entryOf name r) := by
  rw [entries,h]
  rfl

theorem entries_none {k : Uuid} (h : t.find? k = none) : entries name t k = none := by
  rw [entries,h]
  rfl

theorem row_of_entry {k : Uuid} {e : Entry Content Uuid Timestamp}
    (h : entries name t k = some e) : ∃ r, t.find? k = some r ∧ entryOf name r = e :=
  Option.map_eq_some_iff.mp h

/-- A lease may take what a reservation may select. -/
theorem available_iff (hpos : ∀ r ∈ t.rows, 0 ≤ r.attempts) {spec : ReservableSpec}
    {draw : ReserveDraw (name.queue float)} {envelopes : List (name.queue float).Envelope}
    {k : Uuid} {due : Timestamp} :
    Available (entries name t) (leaseOf spec draw envelopes) k due ↔
      ∃ r, t.find? k = some r ∧ claimable spec draw r = true ∧ r.scheduledAt = due := by
  constructor
  · intro h
    obtain ⟨e,he,hphase,hdue,hleft⟩ := h.waits
    obtain ⟨r,hf,rfl⟩ := row_of_entry he
    obtain ⟨hstatus,hat⟩ := waiting_of_phase hphase
    have hn := hpos r (Table.mem_of_find? hf)
    have hlt : r.attempts.toNat < spec.maxAttempts.toNat := hleft
    have hnow : r.scheduledAt ≤ draw.now := hat ▸ hdue
    have hunlocked : draw.locked r.id = false := Table.key_of_find? hf ▸ h.unlocked
    refine ⟨r,hf,?_,hat⟩
    simp only [claimable,eligible,Bool.and_eq_true,Bool.or_eq_true,decide_eq_true_eq,
      Bool.not_eq_true']
    exact ⟨⟨⟨hstatus,hnow⟩,by omega⟩,hunlocked⟩
  · intro h
    obtain ⟨r,hf,hc,hat⟩ := h
    simp only [claimable,eligible,Bool.and_eq_true,Bool.or_eq_true,decide_eq_true_eq,
      Bool.not_eq_true'] at hc
    have hn := hpos r (Table.mem_of_find? hf)
    have hleft : r.attempts.toNat < spec.maxAttempts.toNat := by omega
    exact ⟨⟨entryOf name r,entries_of_find? hf,(phaseOf_waiting hc.1.1.1).trans (by rw [hat]),
      hat ▸ hc.1.1.2,hleft⟩,Table.key_of_find? hf ▸ hc.2⟩

/-- A row that still holds the same is the same entry at another stage. -/
theorem entryOf_of_content {r r' : Row (name.queue float).Own} {phase : Phase Uuid Timestamp}
    (hcontent : contentOf name r' = contentOf name r) (hattempts : r'.attempts = r.attempts)
    (hphase : phaseOf r' = phase) : entryOf name r' = { entryOf name r with phase := phase } := by
  rw [entryOf,hcontent,hattempts,hphase]
  rfl

/-- A claimed row is an entry that was taken. -/
theorem entryOf_reserved (token : Uuid) (now : Timestamp) {r : Row (name.queue float).Own}
    (hn : 0 ≤ r.attempts) : entryOf name (reservedRow token now r) =
      (entryOf name r).taken (.leased token now) := by
  have hattempts : (r.attempts+1).toNat = r.attempts.toNat+1 := by omega
  have hphase : phaseOf (reservedRow token now r) = .leased token now :=
    phaseOf_leased rfl rfl rfl
  rw [entryOf,content_reservedRow,hphase]
  exact congrArg (fun n => (⟨contentOf name r,n,.leased token now⟩ : Entry _ _ _)) hattempts

/-- A quarantined row is an entry that was taken and waits again. -/
theorem entryOf_quarantined (token : Uuid) (maxAttempts : ℤ) (now : Timestamp)
    (error : DecodeError) {r : Row (name.queue float).Own} (hn : 0 ≤ r.attempts) :
    ∃ due, entryOf name (quarantinedRow token maxAttempts now error (reservedRow token now r)) =
      (entryOf name r).taken (.waiting due) := by
  have hattempts : (r.attempts+1).toNat = r.attempts.toNat+1 := by omega
  refine ⟨(quarantinedRow token maxAttempts now error (reservedRow token now r)).scheduledAt,?_⟩
  have hphase := phaseOf_waiting
    (r:=quarantinedRow token maxAttempts now error (reservedRow token now r)) (.inr rfl)
  have hcontent : contentOf name (quarantinedRow token maxAttempts now error
      (reservedRow token now r)) = contentOf name r := by cases name <;> rfl
  rw [entryOf,hphase,hcontent]
  exact congrArg (fun n => (⟨contentOf name r,n,.waiting _⟩ : Entry _ _ _)) hattempts

/-- A reservation grants a lease. -/
theorem leases_of_outcome (hpos : ∀ r ∈ t.rows, 0 ≤ r.attempts) {spec : ReservableSpec}
    {draw : ReserveDraw (name.queue float)} {list : List (name.queue float).Envelope}
    {t' : Rows (name.queue float)}
    (h : ReserveOutcome t spec draw (candidates t spec draw) list t') :
    Leases (entries name t) (leaseOf spec draw list) ((candidates t spec draw).map Row.id)
      (entries name t') := by
  have hfind : ∀ r ∈ candidates t spec draw, t.find? r.id = some r := fun r hr =>
    Table.find?_key (h.eligible r hr).1
  have hgiven : ∀ k ∈ (leaseOf spec draw list).given,
      ∃ r ∈ candidates t spec draw, r.id = k ∧ decodes r = true := by
    intro k hk
    obtain ⟨e,he,rfl⟩ := List.mem_map.mp hk
    obtain ⟨r,hr,hd,hid⟩ := h.source e he
    exact ⟨r,hr,hid.symm,hd⟩
  constructor
  · -- rows of one id are one row
    refine h.distinct.map_on fun r hr r' hr' hid => ?_
    exact t.row_eq (h.eligible r hr).1 (h.eligible r' hr').1 hid
  · intro k hk
    obtain ⟨r,hr,rfl⟩ := List.mem_map.mp hk
    exact ⟨r.scheduledAt,(available_iff hpos).mpr ⟨r,hfind r hr,(h.eligible r hr).2,rfl⟩⟩
  · rw [List.length_map,h.count]
    exact Nat.min_le_left _ _
  · intro hroom k due hav
    obtain ⟨r,hf,hc,_⟩ := (available_iff hpos).mp hav
    have hm := Table.mem_of_find? hf
    rw [List.length_map,candidates_length] at hroom
    have hlimit : spec.limit = (leaseOf spec draw list).limit := rfl
    have hall : ((draw.candidates.order t.rows).filter fun r =>
        eligible spec draw.now r && !draw.locked r.id).length ≤ spec.limit := by
      have hcount := (draw.candidates.perm t.rows).countP_eq (claimable spec draw)
      rw [← List.countP_eq_length_filter]
      change (draw.candidates.order t.rows).countP (claimable spec draw) ≤ _
      omega
    refine List.mem_map.mpr ⟨r,?_,Table.key_of_find? hf⟩
    exact mem_firstBy_of_length_le hall (List.mem_filter.mpr ⟨draw.candidates.mem.mpr hm,hc⟩)
  · intro k hk due hav k' hk' due' hav'
    obtain ⟨r,hr,rfl⟩ := List.mem_map.mp hk
    obtain ⟨r₁,hf₁,_,rfl⟩ := (available_iff hpos).mp hav
    obtain ⟨r',hf',hc',rfl⟩ := (available_iff hpos).mp hav'
    obtain rfl : r = r₁ := Option.some.inj ((hfind r hr).symm.trans hf₁)
    refine h.earliest r' (Table.mem_of_find? hf') hc' (fun hin => hk' ?_) r hr
    exact List.mem_map.mpr ⟨r',hin,Table.key_of_find? hf'⟩
  · refine ⟨h.once,fun k hk => ?_⟩
    obtain ⟨r,hr,hid,_⟩ := hgiven k hk
    exact List.mem_map.mpr ⟨r,hr,hid⟩
  · intro k hk e he
    obtain ⟨r,hr,rfl,hd⟩ := hgiven k hk
    have hn := hpos r (h.eligible r hr).1
    rw [entries_of_find? (hfind r hr)] at he
    obtain rfl := Option.some.inj he
    have hafter : t'.find? r.id = some (reservedRow draw.token draw.now r) := by
      obtain ⟨history,metadata,hh,hm⟩ := decodes_iff.mp hd
      exact (h.returned r hr history metadata hh hm).2
    rw [entries_of_find? hafter,entryOf_reserved draw.token draw.now hn]
    rfl
  · intro k hk hno e he
    obtain ⟨r,hr,rfl⟩ := List.mem_map.mp hk
    have hn := hpos r (h.eligible r hr).1
    rw [entries_of_find? (hfind r hr)] at he
    obtain rfl := Option.some.inj he
    rcases reservedAndSettled_cases spec draw r with ⟨⟨e,hd⟩,_⟩ | ⟨error,_,hx⟩
    · -- a row that decodes is given
      have hdec := decode_reservedRow draw.token draw.now r
      rw [hd] at hdec
      obtain ⟨history,metadata,hh,hm⟩ := decodes_iff.mp hdec.symm
      obtain ⟨⟨e',he',hhanded⟩,_⟩ := h.returned r hr history metadata hh hm
      exact absurd (List.mem_map.mpr ⟨e',he',by rw [hhanded]⟩) hno
    · obtain ⟨due,hentry⟩ := entryOf_quarantined draw.token spec.maxAttempts draw.now error hn
      have hafter := h.isolated r hr
      change t'.find? r.id = some (reservedAndSettled spec draw r) at hafter
      rw [hx] at hafter
      exact ⟨due,(entries_of_find? hafter).trans (congrArg some hentry)⟩
  · intro k hk
    rw [entries,entries,h.frame k fun r hr hid => hk (List.mem_map.mpr ⟨r,hr,hid⟩)]

/-- A rewritten row is a rewritten entry. -/
theorem entries_updateAt {k : Uuid} {r : Row (name.queue float).Own} (h : t.find? k = some r)
    (g : Row (name.queue float).Own → Row (name.queue float).Own) (hg : ∀ r, (g r).id = r.id) :
    entries name (t.updateAt k g hg) =
      Function.update (entries name t) k (some (entryOf name (g r))) := by
  funext j
  by_cases hj : j = k
  · subst hj
    rw [Function.update_self]
    exact entries_of_find? (Table.find?_updateAt_self h g hg)
  · rw [Function.update_of_ne hj,entries,entries,t.find?_updateAt_ne hj g hg]

/-- An inserted row is a new entry. -/
theorem entries_insertNew {k : Uuid} {r : Row (name.queue float).Own} (h : t.find? k = none)
    (hk : r.id = k) : entries name (t.insertNew r) =
      Function.update (entries name t) k (some (entryOf name r)) := by
  funext j
  rw [entries,Table.find?_insertNew]
  by_cases hj : j = k
  · subst hj
    rw [Function.update_self,h]
    dsimp only
    rw [if_pos hk]
    rfl
  · rw [Function.update_of_ne hj]
    cases hf : t.find? j with
    | some s => exact (entries_of_find? hf).symm
    | none =>
      dsimp only
      rw [if_neg fun hid => hj (hid.symm.trans hk),entries_none hf]
      rfl

/-- A finalization leaves what the end of a lease leaves. -/
theorem leaves_of_writes {f : Finalization (name.queue float)} {now : Timestamp}
    {r r' : Row (name.queue float).Own} (h : f.Writes now r r') :
    (endingOf f).Leaves (entryOf name r) (entryOf name r') := by
  have hcontent := Finalization.Writes.content h
  cases h with
  | completed hf =>
    rw [entryOf_of_content hcontent rfl rfl,hf]
    exact .acknowledged
  | @failed maxAttempts reason extraInfo hf _ =>
    have hphase := phaseOf_waiting
      (r:=failedRow extraInfo r.attempts maxAttempts reason now r) (.inr rfl)
    rw [entryOf_of_content hcontent rfl hphase,hf]
    exact .released _
  | dead hf _ _ =>
    rw [entryOf_of_content hcontent rfl rfl,hf]
    exact .buried

/-- The overdue entries are the stale rows. -/
theorem overdue_iff (hall : ∀ r ∈ t.rows, Consistent r) {policy : ReservationTimeoutPolicy}
    {k : Uuid} : Overdue (entries name t) (boundTime policy.reservedBefore) k ↔
      ∃ r, t.find? k = some r ∧ stale policy r = true := by
  constructor
  · intro h
    obtain ⟨e,token,since,he,hphase,hlt⟩ := h
    obtain ⟨r,hf,rfl⟩ := row_of_entry he
    obtain ⟨hstatus,_,hat⟩ := leased_of_phase hphase
    refine ⟨r,hf,?_⟩
    rw [stale,hat,hstatus]
    simpa using hlt
  · intro h
    obtain ⟨r,hf,hstale⟩ := h
    have hc := hall r (Table.mem_of_find? hf)
    simp only [stale,Bool.and_eq_true,decide_eq_true_eq] at hstale
    obtain ⟨token,ht⟩ := Option.isSome_iff_exists.mp (hc.reserved_iff.mp hstale.1)
    obtain ⟨since,hat⟩ := Option.isSome_iff_exists.mp
      (hc.token_iff.mp (hc.reserved_iff.mp hstale.1))
    have hlt : since < boundTime policy.reservedBefore := by
      rw [hat] at hstale
      simpa using hstale.2
    exact ⟨_,token,since,entries_of_find? hf,phaseOf_leased hstale.1 ht hat,hlt⟩

/-- A swept row is an entry that waits again. -/
theorem entryOf_swept {policy : ReservationTimeoutPolicy} {now : Timestamp}
    {r r' : Row (name.queue float).Own} (h : sweepRow policy now r = .ok r') :
    entryOf name r' = (entryOf name r).requeued r'.scheduledAt := by
  obtain ⟨j,_,rfl⟩ := sweepRow_ok h
  have hphase := phaseOf_waiting (.inr (sweptRow_status policy now j r))
  have hcontent : contentOf name (sweptRow policy now j r) = contentOf name r := by
    cases name <;> rfl
  exact entryOf_of_content hcontent rfl hphase

/-- A sweep that goes through lets leases expire. -/
theorem expires_of_sweep (hall : ∀ r ∈ t.rows, Consistent r) {spec : StaleSpec} {now : Timestamp}
    (hok : ∀ r ∈ t.rows, stale (StaleSpec.policy spec now) r = true →
      ∃ s, sweepRow (StaleSpec.policy spec now) now r = .ok s) :
    Expires (entries name t) (boundTime (StaleSpec.policy spec now).reservedBefore)
      (entries name (t.update (stale (StaleSpec.policy spec now))
        (Table.rewrite (sweepRow (StaleSpec.policy spec now) now))
        (Table.rewrite_key sweepRow_id))) := by
  constructor
  · intro k hover e he
    obtain ⟨r,hf,hstale⟩ := (overdue_iff hall).mp hover
    obtain ⟨r',hr'⟩ := hok r (Table.mem_of_find? hf) hstale
    rw [entries_of_find? hf] at he
    obtain rfl := Option.some.inj he
    refine ⟨r'.scheduledAt,(entries_of_find? ?_).trans (congrArg some (entryOf_swept hr'))⟩
    rw [Table.find?_update,hf,Option.map_some,if_pos hstale,Table.rewrite_of_ok hr']
  · intro k hno
    rw [entries,entries,Table.find?_update]
    cases hf : t.find? k with
    | none => rfl
    | some r =>
      have hstale : ¬stale (StaleSpec.policy spec now) r = true := fun h =>
        hno ((overdue_iff hall).mpr ⟨r,hf,h⟩)
      rw [Option.map_some,if_neg hstale]

/-- Every call is a step of the queue. -/
theorem step_refines (hall : ∀ r ∈ t.rows, Consistent r) (c : Call (name.queue float)) :
    LeaseQueue.Step (entries name t) (observed name t c) (entries name (step t c)) := by
  cases c with
  | record entry appNow now =>
    rcases record_cases t entry appNow now with ⟨n,metadata,hn,hm,he⟩ | ⟨e,he⟩
    · have hoffer : offerOf name entry appNow now =
          .offer n.id (contentOf name (storedRow n metadata)) n.scheduledAt := by
        rw [offerOf,hn]
        dsimp only
        rw [castJsonb_eq_ok.mpr hm.symm]
      rw [observed,step,he]
      dsimp only
      rw [hoffer]
      cases hf : t.find? n.id with
      | none =>
        rw [entries_insertNew (r:=storedRow n metadata) hf rfl]
        exact .offered (entries_none hf)
      | some r =>
        rw [Table.insertNew_of_find? hf]
        exact .duplicate (entries_of_find? hf)
    · rw [observed,step,he]
      exact .refused
  | reserve spec draw =>
    by_cases hl : spec.limit < 2^63
    · obtain ⟨list,t',he,ho⟩ := reserve_outcome t hl draw
      rw [observed,step,he]
      exact .leased (leases_of_outcome (fun r hr => (hall r hr).attempts_nonneg) ho)
    · rw [observed,step,reserve_of_limit t hl draw]
      exact .refused
  | finalize f id token now =>
    rcases finalize_cases t f id token now with ⟨r,hf,hr,_,_,g,hg,he,hw⟩ | ⟨e,he⟩
    · have hc := hall r (Table.mem_of_find? hf)
      obtain ⟨ht,hs⟩ := Row.heldBy_iff.mp hr
      obtain ⟨since,hat⟩ := Option.isSome_iff_exists.mp
        (hc.token_iff.mp (hc.reserved_iff.mp hs))
      rw [observed,step,he]
      dsimp only
      rw [entries_updateAt hf g hg]
      exact .settled (entries_of_find? hf) (phaseOf_leased hs ht hat) (leaves_of_writes hw)
    · rw [observed,step,he]
      exact .refused
  | sweep spec now =>
    rcases sweep_cases t spec now with ⟨hc,hok⟩ | ⟨hno,ht⟩
    · rw [observed,step,sweep_of_ok t hc hok]
      exact .expired (expires_of_sweep hall hok)
    · have hrefused : observed name t (.sweep spec now) = .refused := by
        rw [observed]
        split
        · next n hn => exact absurd hn (hno n)
        · rfl
      rw [hrefused,step,ht]
      exact .refused

end Steps

section Runs

/-- What the clients of a table see of a run. -/
def history (name : QueueName) (t : Rows (name.queue float))
    (calls : List (Call (name.queue float))) :
    List (State Uuid Content Uuid Timestamp × Event Uuid Content Uuid Timestamp) :=
  (trace step t calls).map fun x => (entries name x.1,observed name x.1 x.2)

theorem run_refines (t : Rows (name.queue float)) (calls : List (Call (name.queue float)))
    (hall : ∀ r ∈ t.rows, Consistent r) :
    LeaseQueue.Run (entries name t) (history name t calls)
      (entries name (after step t calls)) := by
  induction calls generalizing t with
  | nil => exact .nil _
  | cons c calls ih => exact .cons (step_refines hall c) (ih _ (consistent_step hall c))

/-- The tables refine a queue of leased work: whatever calls the clients of a
table make, in whatever order, what they see is a run of such a queue, and the
table it leaves holds the entries that the run leaves. -/
theorem refines_lease_queue (name : QueueName) (float : SerdeJson.FloatReader)
    (t : Rows (name.queue float)) (calls : List (Call (name.queue float)))
    (hall : ∀ r ∈ t.rows, Consistent r) :
    LeaseQueue.Run (entries name t) (history name t calls)
      (entries name (after step t calls)) :=
  run_refines t calls hall

theorem refines_lease_queue_completedTwice :
    LeaseQueue.Run (entries .commands waitingTable) (history .commands waitingTable completedTwice)
      (entries .commands (after step waitingTable completedTwice)) :=
  refines_lease_queue .commands .integersOnly waitingTable completedTwice (by
    intro r hr
    rw [List.mem_singleton.mp hr]
    constructor <;> decide)

end Runs

section Deliveries

variable {t : Rows (name.queue float)} {id : Uuid}

/-- One for a reserved row. -/
def reservedCount {q : Queue} (id : Uuid) (t : Rows q) : ℕ :=
  ((t.find? id).any fun r => decide (r.status = Status.reserved.code)).toNat

/-- How often the row under a key was handed out. -/
def deliveries {q : Queue} (id : Uuid) (t : Rows q) (calls : List (Call q)) : ℕ :=
  ((trace step t calls).map fun x =>
    (handedOut x.1 x.2).countP fun e => decide ((q.handed e).id = id)).sum

/-- How often a finalization of the row under a key went through. -/
def endings {q : Queue} (id : Uuid) (t : Rows q) (calls : List (Call q)) : ℕ :=
  ((trace step t calls).map fun x => (ends id x.1 x.2).toNat).sum

/-- How often a sweep released the row under a key. -/
def releases {q : Queue} (id : Uuid) (t : Rows q) (calls : List (Call q)) : ℕ :=
  ((trace step t calls).map fun x => (sweeps id x.1 x.2).toNat).sum

theorem held_entries (hall : ∀ r ∈ t.rows, Consistent r) (id : Uuid) :
    held id (entries name t) = reservedCount id t := by
  cases hf : t.find? id with
  | none =>
    rw [held_none (entries_none hf),reservedCount,hf]
    rfl
  | some r =>
    rw [reservedCount,hf,Option.any_some]
    by_cases hs : r.status = Status.reserved.code
    · have hc := hall r (Table.mem_of_find? hf)
      obtain ⟨token,ht⟩ := Option.isSome_iff_exists.mp (hc.reserved_iff.mp hs)
      obtain ⟨since,hat⟩ := Option.isSome_iff_exists.mp
        (hc.token_iff.mp (hc.reserved_iff.mp hs))
      rw [held_leased (entries_of_find? hf) (phaseOf_leased hs ht hat),decide_eq_true hs]
      rfl
    · rw [held_of_not_leased (entries_of_find? hf) fun token since hp =>
        hs (leased_of_phase hp).1,decide_eq_false hs]
      rfl

theorem observed_record (t : Rows (name.queue float)) (entry : (name.queue float).NewEntry)
    (appNow now : Timestamp) :
    (∃ k content due, observed name t (.record entry appNow now) = .offer k content due) ∨
      observed name t (.record entry appNow now) = .refused := by
  rw [observed]
  split
  · unfold offerOf
    split
    · exact .inr rfl
    · split
      · exact .inr rfl
      · exact .inl ⟨_,_,_,rfl⟩
  · exact .inr rfl

theorem observed_reserve (t : Rows (name.queue float)) (spec : ReservableSpec)
    (draw : ReserveDraw (name.queue float)) :
    (∃ l, observed name t (.reserve spec draw) = .lease l) ∨
      observed name t (.reserve spec draw) = .refused := by
  rw [observed]
  split
  · exact .inl ⟨_,rfl⟩
  · exact .inr rfl

theorem observed_finalize (t : Rows (name.queue float)) (f : Finalization (name.queue float))
    (k token : Uuid) (now : Timestamp) :
    (∃ ending, observed name t (.finalize f k token now) = .settle k token ending) ∨
      observed name t (.finalize f k token now) = .refused := by
  rw [observed]
  split
  · exact .inl ⟨_,rfl⟩
  · exact .inr rfl

theorem observed_sweep (t : Rows (name.queue float)) (spec : StaleSpec) (now : Timestamp) :
    (∃ before, observed name t (.sweep spec now) = .expire before) ∨
      observed name t (.sweep spec now) = .refused := by
  rw [observed]
  split
  · exact .inl ⟨_,rfl⟩
  · exact .inr rfl

theorem grants_observed (id : Uuid) (t : Rows (name.queue float)) (c : Call (name.queue float)) :
    grants id (observed name t c) =
      (handedOut t c).countP fun e => decide (((name.queue float).handed e).id = id) := by
  cases c with
  | record entry appNow now =>
    rcases observed_record t entry appNow now with ⟨_,_,_,h⟩ | h <;> rw [h] <;> rfl
  | finalize f k token now =>
    rcases observed_finalize t f k token now with ⟨_,h⟩ | h <;> rw [h] <;> rfl
  | sweep spec now =>
    rcases observed_sweep t spec now with ⟨_,h⟩ | h <;> rw [h] <;> rfl
  | reserve spec draw =>
    have honce := handedOut_nodup t (.reserve spec draw)
    rw [handedOut] at honce
    rw [observed,handedOut]
    cases hres : (reserve t spec draw).1 with
    | error e => rfl
    | ok envelopes =>
      rw [hres] at honce
      have hcount := honce.count (a:=id)
      rw [List.count,List.countP_map] at hcount
      have hcongr : (envelopes.countP fun e => decide (((name.queue float).handed e).id = id)) =
          envelopes.countP ((· == id) ∘ fun e => ((name.queue float).handed e).id) :=
        List.countP_congr fun e _ => by simp
      dsimp only
      rw [hcongr,hcount]
      rfl

theorem settles_observed (id : Uuid) (t : Rows (name.queue float))
    (c : Call (name.queue float)) :
    settles id (observed name t c) = (ends id t c).toNat := by
  cases c with
  | record entry appNow now =>
    rcases observed_record t entry appNow now with ⟨_,_,_,h⟩ | h <;> rw [h] <;> rfl
  | reserve spec draw =>
    rcases observed_reserve t spec draw with ⟨_,h⟩ | h <;> rw [h] <;> rfl
  | sweep spec now =>
    rcases observed_sweep t spec now with ⟨_,h⟩ | h <;> rw [h] <;> rfl
  | finalize f k token now =>
    rw [observed,ends]
    cases hres : (finalize t f k token now).1 with
    | error e => simp [settles,Except.isOk,Except.toBool]
    | ok u => by_cases hk : k = id <;> simp [settles,Except.isOk,Except.toBool,hk]

theorem expiries_observed (hall : ∀ r ∈ t.rows, Consistent r) (id : Uuid)
    (c : Call (name.queue float)) :
    expiries id (entries name t) (observed name t c) = (sweeps id t c).toNat := by
  cases c with
  | record entry appNow now =>
    rcases observed_record t entry appNow now with ⟨_,_,_,h⟩ | h <;> rw [h] <;> rfl
  | reserve spec draw =>
    rcases observed_reserve t spec draw with ⟨_,h⟩ | h <;> rw [h] <;> rfl
  | finalize f k token now =>
    rcases observed_finalize t f k token now with ⟨_,h⟩ | h <;> rw [h] <;> rfl
  | sweep spec now =>
    rw [observed,sweeps]
    cases hres : (sweep t spec now).1 with
    | none => rfl
    | some result =>
      cases result with
      | error e => rfl
      | ok n =>
        change expiries id _ (.expire (boundTime (StaleSpec.policy spec now).reservedBefore)) =
          ((t.find? id).any (stale (StaleSpec.policy spec now))).toNat
        by_cases hover : Overdue (entries name t)
            (boundTime (StaleSpec.policy spec now).reservedBefore) id
        · obtain ⟨r,hf,hstale⟩ := (overdue_iff hall).mp hover
          rw [expiries_overdue hover,hf,Option.any_some,hstale]
          rfl
        · rw [expiries_not_overdue hover]
          cases hf : t.find? id with
          | none => rfl
          | some r =>
            have hstale : stale (StaleSpec.policy spec now) r = false :=
              Bool.eq_false_iff.mpr fun h => hover ((overdue_iff hall).mpr ⟨r,hf,h⟩)
            rw [Option.any_some,hstale]
            rfl

/-- Every delivery ends once: in a run of whatever calls, the deliveries of a
row to consumers are as many as its finalizations that went through and its
releases by sweeps, up to whether it is reserved before and after. -/
theorem deliveries_end_once (name : QueueName) (float : SerdeJson.FloatReader)
    (t : Rows (name.queue float)) (calls : List (Call (name.queue float)))
    (hall : ∀ r ∈ t.rows, Consistent r) (id : Uuid) :
    reservedCount id t+deliveries id t calls =
      reservedCount id (after step t calls)+endings id t calls+releases id t calls := by
  have hkept : ∀ x ∈ trace step t calls, ∀ r ∈ x.1.rows, Consistent r :=
    trace_keeps step (fun s => ∀ r ∈ s.rows, Consistent r)
      (fun _ c h => consistent_step h c) hall
  have hafter : ∀ r ∈ (after step t calls).rows, Consistent r := by
    have hlast := invariant step (fun s => ∀ r ∈ s.rows, Consistent r) hall
      (fun i hi h => consistent_step h calls[i]) calls.length (Nat.le_refl _)
    rwa [stateAt_length] at hlast
  have hbalance := (run_refines t calls hall).balance id
  simp only [history,List.map_map,Function.comp_def] at hbalance
  have hgrants : (trace step t calls).map (fun x => grants id (observed name x.1 x.2)) =
      (trace step t calls).map fun x => (handedOut x.1 x.2).countP fun e =>
        decide (((name.queue float).handed e).id = id) :=
    List.map_congr_left fun x _ => grants_observed id x.1 x.2
  have hsettles : (trace step t calls).map (fun x => settles id (observed name x.1 x.2)) =
      (trace step t calls).map fun x => (ends id x.1 x.2).toNat :=
    List.map_congr_left fun x _ => settles_observed id x.1 x.2
  have hexpiries : (trace step t calls).map (fun x =>
        expiries id (entries name x.1) (observed name x.1 x.2)) =
      (trace step t calls).map fun x => (sweeps id x.1 x.2).toNat :=
    List.map_congr_left fun x hx => expiries_observed (hkept x hx) id x.2
  rw [held_entries hall id,held_entries hafter id,hgrants,hsettles,hexpiries] at hbalance
  exact hbalance

/-- The second completion of the command ended nothing. -/
theorem deliveries_end_once_completedTwice :
    reservedCount (.fromU128 1) waitingTable+deliveries (.fromU128 1) waitingTable completedTwice =
      reservedCount (.fromU128 1) (after step waitingTable completedTwice)+
        endings (.fromU128 1) waitingTable completedTwice+
        releases (.fromU128 1) waitingTable completedTwice :=
  deliveries_end_once .commands .integersOnly waitingTable completedTwice (by
    intro r hr
    rw [List.mem_singleton.mp hr]
    constructor <;> decide) (.fromU128 1)

example : deliveries (.fromU128 1) waitingTable completedTwice = 1 := by decide

end Deliveries

end Mulac.LeaseRefinement
