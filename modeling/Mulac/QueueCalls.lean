import Mulac.RepositoryContracts
import Mulac.FourQueues
import Mulac.CallSequence

/-!
# Calls of one queue and their effect on a row

The calls that workers and sweepers make on one queue, as one type with one
step function, and the single inversion lemma of that function: what any call
can do to the row under a key. Invariants over runs are proved from it.
-/

namespace Mulac.QueueCalls

open Identifiers Postgres QueueDomain KeyedTable QueueRow Repository RepositoryContracts
  FourQueues CallSequence

variable {q : Queue}

/-- The calls that end a reservation. -/
inductive Finalization (q : Queue) where
  /-- `completed`. -/
  | completed
  /-- `failed`. -/
  | failed (maxAttempts : ℤ) (reason : Option String)
  /-- `dead`, where the port has it. -/
  | dead (port : q.hasDead = true) (reason : Option String)

/-- The reason a finalization writes. -/
def Finalization.reason : Finalization q → Option String
  | completed => none
  | failed _ reason => reason
  | dead _ reason => reason

/-- A finalization whose texts Postgres can store. -/
def Finalization.storable (f : Finalization q) : Prop := ∀ s, f.reason = some s → nulFree s = true

/-- What a finalization asks of the row besides the reservation. -/
def Finalization.accepts (f : Finalization q) (r : Row q.Own) : Bool :=
  match f with
  | dead _ _ => (readExtraInfo r.extraInfo).isSome
  | _ => true

/-- The status a finalization leaves. -/
def Finalization.status : Finalization q → Status
  | completed => .completed
  | failed _ _ => .failed
  | dead _ _ => .dead

/-- Run a finalization. -/
def finalize (t : Rows q) (f : Finalization q) (id token : Uuid) (now : Timestamp) :
    Except q.Error Unit × Rows q :=
  match f with
  | .completed => completed t id token now
  | .failed maxAttempts reason => failed t id token maxAttempts reason now
  | .dead _ reason => dead t id token reason now

/-- A call on a queue, with everything it draws. -/
inductive Call (q : Queue) where
  /-- `record` or `store`. -/
  | record (entry : q.NewEntry) (appNow now : Timestamp)
  /-- `reserve`. -/
  | reserve (spec : ReservableSpec) (draw : ReserveDraw q)
  /-- `completed`, `failed` or `dead`. -/
  | finalize (f : Finalization q) (id token : Uuid) (now : Timestamp)
  /-- `sweep`. -/
  | sweep (spec : StaleSpec) (now : Timestamp)

/-- The table after a call. -/
def step (t : Rows q) : Call q → Rows q
  | .record entry appNow now => (record t entry appNow now).2
  | .reserve spec draw => (reserve t spec draw).2
  | .finalize f id token now => (finalize t f id token now).2
  | .sweep spec now => (sweep t spec now).2

/-- The token a call draws. -/
def Call.drawn : Call q → Option Uuid
  | reserve _ draw => some draw.token
  | _ => none

/-- The healthy list of a reservation. -/
def handedOut (t : Rows q) : Call q → List q.Envelope
  | .reserve spec draw =>
    match (reserve t spec draw).1 with
    | .ok envelopes => envelopes
    | .error _ => []
  | _ => []

section Finalizations

variable {t : Rows q} {f : Finalization q} {id token : Uuid} {now : Timestamp}

/-- The rewrite of a row by a finalization. -/
inductive Finalization.Writes (f : Finalization q) (now : Timestamp) (r : Row q.Own) :
    Row q.Own → Prop
  /-- Completion. -/
  | completed : f = .completed → Writes f now r (completedRow now r)
  /-- A failure. -/
  | failed {maxAttempts : ℤ} {reason : Option String} {extraInfo : Option Jsonb} :
    f = .failed maxAttempts reason →
      failureExtraInfo q.float r.extraInfo reason = .ok extraInfo →
      Writes f now r (failedRow extraInfo r.attempts maxAttempts reason now r)
  /-- A terminal transition. -/
  | dead {port : q.hasDead = true} {reason : Option String} {history : Option ExtraInfo}
      {extraInfo : Option Jsonb} :
    f = .dead port reason → readExtraInfo r.extraInfo = some history →
      readExtraInfo extraInfo = some (deadHistory history reason) →
      Writes f now r (deadRow extraInfo reason now r)

theorem Finalization.Writes.status {r r' : Row q.Own} (h : f.Writes now r r') :
    r'.status = f.status.code := by
  cases h <;> simp_all [completedRow,failedRow,deadRow,Finalization.status]

theorem Finalization.Writes.reservationId {r r' : Row q.Own} (h : f.Writes now r r') :
    r'.reservationId = none := by
  cases h <;> rfl

/-- The owner's finalization rewrites its row. -/
theorem finalize_of_held {r : Row q.Own} (h : t.find? id = some r) (hr : r.heldBy token = true)
    (ha : f.accepts r = true) (hs : f.storable) (now : Timestamp) :
    ∃ (g : Row q.Own → Row q.Own) (hg : ∀ r, (g r).id = r.id),
      finalize t f id token now = (.ok (),t.updateAt id g hg) ∧ f.Writes now r (g r) := by
  cases f with
  | completed => exact ⟨_,_,completed_of_held h hr now,.completed rfl⟩
  | failed maxAttempts reason =>
    obtain ⟨extraInfo,he⟩ := failureExtraInfo_ok q.float r.extraInfo hs
    exact ⟨_,_,failed_of_held h hr hs he now,.failed rfl he⟩
  | dead port reason =>
    obtain ⟨history,hh⟩ := Option.isSome_iff_exists.mp ha
    obtain ⟨extraInfo,hx,_,hd⟩ := dead_of_held h hr hh hs now
    exact ⟨_,_,hd,.dead rfl hh hx⟩

/-- Without the reservation a finalization is refused and changes nothing. -/
theorem finalize_of_not_held (h : ¬Holds t id token) (f : Finalization q) (now : Timestamp) :
    finalize t f id token now = (.error (q.notOwned id token),t) := by
  cases f with
  | completed => exact completed_of_not_held h now
  | failed maxAttempts reason => exact failed_of_not_held h maxAttempts reason now
  | dead port reason => exact dead_of_not_held h reason now

/-- A row that a finalization does not accept refuses it. -/
theorem finalize_of_not_accepted {r : Row q.Own} (h : t.find? id = some r)
    (hr : r.heldBy token = true) (ha : f.accepts r = false) (now : Timestamp) :
    ∃ e, finalize t f id token now = (.error e,t) := by
  cases f with
  | completed => cases ha
  | failed maxAttempts reason => cases ha
  | dead port reason =>
    have hh : readExtraInfo r.extraInfo = none := by
      simpa [Finalization.accepts] using ha
    exact dead_of_undecodable h hr hh reason now

/-- A reason with U+0000 is always refused. -/
theorem finalize_of_nul (hs : ¬f.storable) (now : Timestamp) :
    ∃ e, finalize t f id token now = (.error e,t) := by
  simp only [Finalization.storable,not_forall] at hs
  obtain ⟨s,hr,hn⟩ := hs
  cases f with
  | completed => cases hr
  | failed maxAttempts reason =>
    cases hr
    exact failed_of_nul (by simpa using hn) maxAttempts now
  | dead port reason =>
    cases hr
    exact dead_of_nul (by simpa using hn) now

/-- A finalization rewrites the row of its owner, or is refused and changes nothing. -/
theorem finalize_cases (t : Rows q) (f : Finalization q) (id token : Uuid) (now : Timestamp) :
    (∃ r, t.find? id = some r ∧ r.heldBy token = true ∧ f.accepts r = true ∧ f.storable ∧
      ∃ (g : Row q.Own → Row q.Own) (hg : ∀ r, (g r).id = r.id),
        finalize t f id token now = (.ok (),t.updateAt id g hg) ∧ f.Writes now r (g r)) ∨
      ∃ e, finalize t f id token now = (.error e,t) := by
  by_cases hs : f.storable
  · by_cases h : Holds t id token
    · obtain ⟨r,hf,hr⟩ := h
      cases ha : f.accepts r with
      | true => exact .inl ⟨r,hf,hr,ha,hs,finalize_of_held hf hr ha hs now⟩
      | false => exact .inr (finalize_of_not_accepted hf hr ha now)
    · exact .inr ⟨_,finalize_of_not_held h f now⟩
  · exact .inr (finalize_of_nul hs now)

end Finalizations

section Inversion

/-- What a call can do to the row under a key. -/
inductive RowStep (c : Call q) : Option (Row q.Own) → Option (Row q.Own) → Prop
  /-- Nothing. -/
  | same (o : Option (Row q.Own)) : RowStep c o o
  /-- A record inserts a row. -/
  | recorded {entry : q.NewEntry} {appNow now : Timestamp} {n : NewRow q.Own} {metadata : Jsonb} :
    c = .record entry appNow now → q.newRow entry appNow now = .ok n →
      metadata.value = n.metadata → RowStep c none (some (storedRow n metadata))
  /-- A reservation claims a row, and fails it at once if it does not decode. -/
  | reserved {spec : ReservableSpec} {draw : ReserveDraw q} {r : Row q.Own} :
    c = .reserve spec draw → eligible spec draw.now r = true →
      RowStep c (some r) (some (reservedAndSettled spec draw r))
  /-- A finalization ends the reservation it names. -/
  | finalized {f : Finalization q} {token : Uuid} {now : Timestamp} {r r' : Row q.Own} :
    c = .finalize f r.id token now → r.heldBy token = true → f.Writes now r r' →
      RowStep c (some r) (some r')
  /-- A sweep releases a stale row. -/
  | swept {spec : StaleSpec} {now : Timestamp} {r r' : Row q.Own} :
    c = .sweep spec now → stale (StaleSpec.policy spec now) r = true →
      sweepRow (StaleSpec.policy spec now) now r = .ok r' → RowStep c (some r) (some r')

/-- A call acts on each row by one of these steps. -/
theorem step_row (t : Rows q) (c : Call q) (k : Uuid) :
    RowStep c (t.find? k) ((step t c).find? k) := by
  cases c with
  | record entry appNow now =>
    rcases record_cases t entry appNow now with ⟨n,metadata,hn,hm,he⟩ | ⟨e,he⟩
    · rw [step,he,Table.find?_insertNew]
      cases hf : t.find? k with
      | some r => exact .same _
      | none =>
        dsimp only
        split
        · exact .recorded rfl hn hm
        · exact .same _
    · rw [step,he]
      exact .same _
  | reserve spec draw =>
    by_cases hl : spec.limit < 2^63
    · rw [step,reserve_eq t hl draw,Table.find?_update]
      cases hf : t.find? k with
      | none => exact .same _
      | some r =>
        dsimp only [Option.map_some]
        split
        · next hp => exact .reserved rfl (eligible_of_picked (Table.mem_of_find? hf) hp).1
        · exact .same _
    · rw [step,reserve_of_limit t hl draw]
      exact .same _
  | finalize f id token now =>
    rcases finalize_cases t f id token now with ⟨r,hf,hr,_,_,g,hg,he,hw⟩ | ⟨e,he⟩
    · rw [step,he]
      by_cases hk : k = id
      · subst hk
        have hid := Table.key_of_find? hf
        rw [Table.find?_updateAt_self hf,hf]
        exact .finalized (by rw [hid]) hr hw
      · rw [t.find?_updateAt_ne hk]
        exact .same _
    · rw [step,he]
      exact .same _
  | sweep spec now =>
    rcases sweep_cases t spec now with ⟨hc,hall⟩ | ⟨_,ht⟩
    · rw [step,sweep_of_ok t hc hall,Table.find?_update]
      cases hf : t.find? k with
      | none => exact .same _
      | some r =>
        dsimp only [Option.map_some]
        split
        · next hs =>
          obtain ⟨s,he⟩ := hall r (Table.mem_of_find? hf) hs
          rw [Table.rewrite_of_ok he]
          exact .swept rfl hs he
        · exact .same _
    · rw [step,ht]
      exact .same _

/-- A row never disappears. -/
theorem step_keeps {t : Rows q} {c : Call q} {k : Uuid} {r : Row q.Own} (h : t.find? k = some r) :
    ∃ r', (step t c).find? k = some r' := by
  have hs := step_row t c k
  rw [h] at hs
  generalize (step t c).find? k = o at hs
  cases hs <;> exact ⟨_,rfl⟩

end Inversion

section Settlement

variable {s : Rows q} {c : Call q}

/-- A claimed row is handed out, or has failed already. -/
theorem reservedAndSettled_cases (spec : ReservableSpec) (draw : ReserveDraw q)
    (r : Row q.Own) :
    ((∃ e, decode (reservedRow draw.token draw.now r) = .ok e) ∧
        reservedAndSettled spec draw r = reservedRow draw.token draw.now r) ∨
      ∃ error, decode (reservedRow draw.token draw.now r) = .error error ∧
        reservedAndSettled spec draw r = quarantinedRow draw.token spec.maxAttempts draw.now error
          (reservedRow draw.token draw.now r) := by
  unfold reservedAndSettled settledRow
  cases hd : decode (reservedRow draw.token draw.now r) with
  | ok e => exact .inl ⟨⟨e,rfl⟩,rfl⟩
  | error d => exact .inr ⟨d,rfl,rfl⟩

/-- What a reservation hands out, it has claimed. -/
theorem handedOut_row {e : q.Envelope} (h : e ∈ handedOut s c) :
    ∃ spec draw r, c = .reserve spec draw ∧ s.find? r.id = some r ∧
      eligible spec draw.now r = true ∧ decode (reservedRow draw.token draw.now r) = .ok e ∧
      (step s c).find? r.id = some (reservedRow draw.token draw.now r) ∧
      (q.handed e).id = r.id ∧ (q.handed e).reservationId = some draw.token := by
  cases c with
  | record entry appNow now => cases h
  | finalize f id token now => cases h
  | sweep spec now => cases h
  | reserve spec draw =>
    by_cases hl : spec.limit < 2^63
    · rw [handedOut,reserve_eq s hl draw] at h
      obtain ⟨r,hr,hp,hok⟩ := mem_returned.mp h
      have hhanded := decode_handed (reservedRow_heldBy draw.token draw.now r) hok
      refine ⟨spec,draw,r,rfl,Table.find?_key hr,(eligible_of_picked hr hp).1,hok,?_,hhanded⟩
      rw [step,reserve_eq s hl draw,Table.find?_update,Table.find?_key hr]
      simp only [Option.map_some,hp,if_true,Option.some.injEq]
      rw [reservedAndSettled,settledRow,hok]
    · rw [handedOut,reserve_of_limit s hl draw] at h
      cases h

/-- What a reservation hands out carries a token. -/
theorem token_of_handedOut {e : q.Envelope} (h : e ∈ handedOut s c) :
    ∃ token, (q.handed e).reservationId = some token := by
  obtain ⟨_,draw,_,_,_,_,_,_,_,ht⟩ := handedOut_row h
  exact ⟨draw.token,ht⟩

/-- One reservation hands out an entry once. -/
theorem handedOut_nodup (s : Rows q) (c : Call q) :
    ((handedOut s c).map fun e => (q.handed e).id).Nodup := by
  cases c with
  | record entry appNow now => exact List.nodup_nil
  | finalize f id token now => exact List.nodup_nil
  | sweep spec now => exact List.nodup_nil
  | reserve spec draw =>
    by_cases hl : spec.limit < 2^63
    · rw [handedOut,reserve_eq s hl draw]
      dsimp only
      have hid : ∀ x ∈ returnedRows s spec draw, ∀ e, (decode x).toOption = some e →
          (q.handed e).id = x.id := by
        intro x hx e he
        obtain ⟨r,hr,hp,rfl⟩ := mem_returnedRows.mp hx
        have hdec := toOption_eq_some.mp he
        exact (decode_handed (reservedRow_heldBy draw.token draw.now r) hdec).1
      have hn := returnedRows_nodup s spec draw
      rw [List.Nodup,List.pairwise_map] at hn ⊢
      rw [List.pairwise_filterMap]
      refine hn.imp_of_mem ?_
      intro x y hx hy hne a ha b hb
      rw [hid x hx a ha,hid y hy b hb]
      exact hne
    · rw [handedOut,reserve_of_limit s hl draw]
      exact List.nodup_nil

end Settlement

end Mulac.QueueCalls
