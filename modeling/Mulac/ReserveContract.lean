import Mulac.QueueRuns

/-!
# The reservation contract

What one `reserve` call does, whatever JSON the rows hold: it selects the
earliest due rows up to its limit, hands out those that decode with their stored
content, fails the others with a diagnostic, and decides each of them by that
row alone.
-/

namespace Mulac.ReserveContract

open Identifiers Postgres QueueDomain KeyedTable OrderedSelection QueueRow Repository
  RepositoryContracts FourQueues QueueCalls QueueRuns

variable {q : Queue}

/-- A row that a reservation may select: due, eligible, and not locked by
another session. -/
def claimable (spec : ReservableSpec) (draw : ReserveDraw q) (r : Row q.Own) : Bool :=
  eligible spec draw.now r && !draw.locked r.id

/-- What is left of a selected row that does not decode. -/
structure Quarantined (token : Uuid) (r r' : Row q.Own) : Prop where
  /-- The row is `Failed`. -/
  status : r'.status = Status.failed.code
  /-- The row has no token. -/
  released : r'.reservationId = none ∧ r'.reservedAt = none
  /-- The attempt counts. -/
  attempts : r'.attempts = r.attempts+1
  /-- The message is untouched. -/
  message : r'.payload = r.payload ∧ r'.metadata = r.metadata
  /-- The history decodes, and its last error names the row and the stage. -/
  diagnosed : ∃ info error, readExtraInfo r'.extraInfo = some (some info) ∧
    info.errors.getLast? = some (reservationReason r.id token error)

theorem quarantinedRow_quarantined (token : Uuid) (maxAttempts : ℤ) (now : Timestamp)
    (error : DecodeError) (r : Row q.Own) :
    Quarantined token r (quarantinedRow token maxAttempts now error (reservedRow token now r)) where
  status := rfl
  released := ⟨rfl,rfl⟩
  attempts := rfl
  message := ⟨rfl,rfl⟩
  diagnosed := by
    refine ⟨_,error,readExtraInfo_recorded q.float r.extraInfo
      (reservationReason_nulFree r.id token error),?_⟩
    simp

/-- The outcome of a reservation: the selected rows, the list it returns and the
table it leaves. -/
structure ReserveOutcome (t : Rows q) (spec : ReservableSpec) (draw : ReserveDraw q)
    (selected : List (Row q.Own)) (list : List q.Envelope) (t' : Rows q) : Prop where
  /-- Every selected row was claimable. -/
  eligible : ∀ r ∈ selected, r ∈ t.rows ∧ claimable spec draw r = true
  /-- No row is selected twice. -/
  distinct : selected.Nodup
  /-- As many rows are selected as there are, up to the limit. -/
  count : selected.length = min spec.limit (t.rows.countP (claimable spec draw))
  /-- No claimable row that was left out is due before a selected one. -/
  earliest : ∀ r ∈ t.rows, claimable spec draw r = true → r ∉ selected →
    ∀ s ∈ selected, s.scheduledAt ≤ r.scheduledAt
  /-- A selected row that decodes is returned as it was stored, one attempt later,
  and is reserved under the call's token. -/
  returned : ∀ r ∈ selected, ∀ history metadata, readExtraInfo r.extraInfo = some history →
    q.readMetadata r.metadata = .ok metadata →
      (∃ e ∈ list, q.handed e =
        ⟨r.id,some draw.token,r.payload,metadata,history,r.attempts+1⟩) ∧
      t'.find? r.id = some (reservedRow draw.token draw.now r)
  /-- No entry is returned twice. -/
  once : (list.map fun e => (q.handed e).id).Nodup
  /-- Only selected rows that decode are returned. -/
  source : ∀ e ∈ list, ∃ r ∈ selected, decodes r = true ∧ (q.handed e).id = r.id
  /-- A selected row that does not decode is released with a diagnostic. -/
  quarantined : ∀ r ∈ selected, decodes r = false →
    ∃ r', t'.find? r.id = some r' ∧ Quarantined draw.token r r'
  /-- Rows that were not selected are unchanged. -/
  frame : ∀ id, (∀ r ∈ selected, r.id ≠ id) → t'.find? id = t.find? id
  /-- What becomes of a selected row depends on that row and on the call alone. -/
  isolated : ∀ r ∈ selected, t'.find? r.id =
    some (settledRow draw.token spec.maxAttempts draw.now (reservedRow draw.token draw.now r))

section Selection

variable {t : Rows q} {spec : ReservableSpec} {draw : ReserveDraw q} {r : Row q.Own}

theorem mem_candidates (h : r ∈ candidates t spec draw) :
    r ∈ t.rows ∧ claimable spec draw r = true := by
  have hm := List.mem_filter.mp (firstBy_subset h)
  exact ⟨draw.candidates.mem.mp hm.1,hm.2⟩

theorem picked_iff (hr : r ∈ t.rows) :
    picked t spec draw r = true ↔ r ∈ candidates t spec draw := by
  rw [picked,decide_eq_true_eq,List.mem_map]
  constructor
  · rintro ⟨s,hs,hid⟩
    exact t.row_eq (mem_candidates hs).1 hr hid ▸ hs
  · intro h
    exact ⟨r,h,rfl⟩

/-- The candidates are counted over the table. -/
theorem candidates_length (t : Rows q) (spec : ReservableSpec) (draw : ReserveDraw q) :
    (candidates t spec draw).length =
      min spec.limit (t.rows.countP (claimable spec draw)) := by
  rw [candidates,firstBy_length,← List.countP_eq_length_filter]
  congr 1
  exact (draw.candidates.perm t.rows).countP_eq _

/-- What a reservation leaves of a selected row. -/
theorem find?_selected (h : r ∈ candidates t spec draw) :
    (t.update (picked t spec draw) (reservedAndSettled spec draw)
      (reservedAndSettled_id spec draw)).find? r.id = some (reservedAndSettled spec draw r) := by
  have hm := (mem_candidates h).1
  rw [Table.find?_update,Table.find?_key hm,Option.map_some,(picked_iff hm).mpr h]
  rfl

/-- It leaves the others alone. -/
theorem find?_not_selected {id : Uuid} (h : ∀ r ∈ candidates t spec draw, r.id ≠ id) :
    (t.update (picked t spec draw) (reservedAndSettled spec draw)
      (reservedAndSettled_id spec draw)).find? id = t.find? id := by
  rw [Table.find?_update]
  cases hf : t.find? id with
  | none => rfl
  | some r =>
    have hr := Table.mem_of_find? hf
    have hnp : ¬picked t spec draw r = true := fun hp =>
      h r ((picked_iff hr).mp hp) (Table.key_of_find? hf)
    simp [hnp]

/-- An entry that is returned comes from a selected row. -/
theorem selected_of_returned {e : q.Envelope}
    (h : e ∈ (returnedRows t spec draw).filterMap fun r => (decode r).toOption) :
    ∃ r ∈ candidates t spec draw, decode (reservedRow draw.token draw.now r) = .ok e := by
  obtain ⟨r,hr,hp,hd⟩ := mem_returned.mp h
  exact ⟨r,(picked_iff hr).mp hp,hd⟩

/-- A selected row that decodes is returned. -/
theorem returned_of_selected {e : q.Envelope} (h : r ∈ candidates t spec draw)
    (hd : decode (reservedRow draw.token draw.now r) = .ok e) :
    e ∈ (returnedRows t spec draw).filterMap fun r => (decode r).toOption := by
  have hm := (mem_candidates h).1
  exact mem_returned.mpr ⟨r,hm,(picked_iff hm).mpr h,hd⟩

/-- Whether a claimed row decodes is decided by its stored content. -/
theorem decode_reservedRow (token : Uuid) (now : Timestamp) (r : Row q.Own) :
    (decode (reservedRow token now r)).isOk = decodes r :=
  decode_isOk (reservedRow_heldBy token now r)

end Selection

/-- Below 2^63, a reservation succeeds and has the outcome above. -/
theorem reserve_outcome (t : Rows q) {spec : ReservableSpec} (hl : spec.limit < 2^63)
    (draw : ReserveDraw q) :
    ∃ list t', reserve t spec draw = (.ok list,t') ∧
      ReserveOutcome t spec draw (candidates t spec draw) list t' := by
  have he := reserve_eq t hl draw
  have hout : handedOut t (.reserve spec draw) =
      (returnedRows t spec draw).filterMap fun r => (decode r).toOption := by
    rw [handedOut,he]
  refine ⟨_,_,he,?_⟩
  constructor
  · exact fun r hr => mem_candidates hr
  · exact firstBy_nodup _ _ ((draw.candidates.nodup t.rows_nodup).filter _)
  · exact candidates_length t spec draw
  · intro r hr hc hout s hs
    refine firstBy_le hs ?_ hout
    exact List.mem_filter.mpr ⟨draw.candidates.mem.mpr hr,hc⟩
  · intro r hr history metadata hh hm
    obtain ⟨e,hd,hhanded⟩ := decode_reserved (reservedRow_heldBy draw.token draw.now r) hh hm
    refine ⟨⟨e,returned_of_selected hr hd,hhanded⟩,?_⟩
    rw [find?_selected hr,reservedAndSettled,settledRow,hd]
  · have hn := handedOut_nodup t (.reserve spec draw)
    rw [hout] at hn
    exact hn
  · intro e hmem
    obtain ⟨r,hr,hd⟩ := selected_of_returned hmem
    refine ⟨r,hr,?_,(decode_handed (reservedRow_heldBy draw.token draw.now r) hd).1⟩
    rw [← decode_reservedRow draw.token draw.now r,hd]
    rfl
  · intro r hr hbad
    refine ⟨_,find?_selected hr,?_⟩
    rcases reservedAndSettled_cases spec draw r with ⟨⟨e,hd⟩,_⟩ | ⟨error,_,hx⟩
    · have hok := decode_reservedRow draw.token draw.now r
      rw [hd,hbad] at hok
      cases hok
    · rw [hx]
      exact quarantinedRow_quarantined draw.token spec.maxAttempts draw.now error r
  · exact fun id hid => find?_not_selected hid
  · exact fun r hr => find?_selected hr

/-- The reservation contract of the four queues. -/
theorem reserve_contract (name : QueueName) (float : SerdeJson.FloatReader)
    (t : Rows (name.queue float)) (spec : ReservableSpec) (hl : spec.limit < 2^63)
    (draw : ReserveDraw (name.queue float)) :
    ∃ selected list t', reserve t spec draw = (.ok list,t') ∧
      ReserveOutcome t spec draw selected list t' := by
  obtain ⟨list,t',he,ho⟩ := reserve_outcome t hl draw
  exact ⟨_,list,t',he,ho⟩

/-- A waiting command and one whose metadata is no object. -/
def mixedTable : Rows (QueueName.commands.queue .integersOnly) :=
  ⟨[waitingRow,{ waitingRow with id := .fromU128 2, metadata := some emptyArray }],by decide⟩

theorem reserve_contract_mixed :
    ∃ selected list t', reserve mixedTable ⟨10,by decide,6,by decide⟩
        (plainDraw (.fromU128 7) 0) = (.ok list,t') ∧
      ReserveOutcome mixedTable ⟨10,by decide,6,by decide⟩ (plainDraw (.fromU128 7) 0)
        selected list t' :=
  reserve_contract .commands .integersOnly mixedTable ⟨10,by decide,6,by decide⟩ (by decide)
    (plainDraw (.fromU128 7) 0)

end Mulac.ReserveContract
