import Mulac.QueueCalls

/-!
# Runs of one queue

Any number of workers and sweepers call one queue in any order. A reservation
is owned by one token at a time, a token that lost a row never gets it back, two
reservations hand out one entry only across a release, and the coupled columns
of every row stay consistent.
-/

namespace Mulac.QueueRuns

open Identifiers Postgres QueueDomain KeyedTable OrderedSelection QueueRow Repository
  RepositoryContracts FourQueues CallSequence QueueCalls

variable {q : Queue} {s t : Rows q} {c : Call q} {calls : List (Call q)} {id token : Uuid}

section Ownership

/-- The tokens that a list of calls draws. -/
def drawnTokens (calls : List (Call q)) : List Uuid := calls.filterMap Call.drawn

/-- Every reservation draws a token that was never drawn before and that the
initial table does not hold. -/
structure FreshTokens (t : Rows q) (calls : List (Call q)) : Prop where
  /-- No token is drawn twice. -/
  nodup : (drawnTokens calls).Nodup
  /-- No row starts with a drawn token. -/
  absent : ∀ token ∈ drawnTokens calls, ∀ r ∈ t.rows, r.reservationId ≠ some token

/-- A drawn token names its reservation. -/
theorem FreshTokens.index_eq (h : FreshTokens t calls) {i j : ℕ} (hi : i < calls.length)
    (hj : j < calls.length) (ht : calls[i].drawn = some token)
    (ht' : calls[j].drawn = some token) : i = j := by
  have hp := h.nodup
  rw [drawnTokens,List.Nodup,List.pairwise_filterMap,List.pairwise_iff_getElem] at hp
  rcases Nat.lt_trichotomy i j with hlt | rfl | hlt
  · exact absurd rfl (hp i j hi hj hlt token ht token ht')
  · rfl
  · exact absurd rfl (hp j i hj hi hlt token ht' token ht)

theorem FreshTokens.absent_of_drawn (h : FreshTokens t calls) {i : ℕ} (hi : i < calls.length)
    (ht : calls[i].drawn = some token) {r : Row q.Own} (hr : r ∈ t.rows) :
    r.reservationId ≠ some token :=
  h.absent token (List.mem_filterMap.mpr ⟨calls[i],List.getElem_mem hi,ht⟩) r hr

/-- A call that gives a token a row is the reservation that draws the token. -/
theorem gained (h : ¬Holds s id token) (h' : Holds (step s c) id token) :
    c.drawn = some token := by
  obtain ⟨r',hf,hr⟩ := h'
  have hs := step_row s c id
  rw [hf] at hs
  generalize ho : s.find? id = o at hs
  cases hs with
  | same => exact absurd ⟨r',ho,hr⟩ h
  | recorded hc hn hm => simp [storedRow,Row.heldBy] at hr
  | @reserved spec draw r hc he =>
    rcases reservedAndSettled_cases spec draw r with ⟨_,hx⟩ | ⟨error,_,hx⟩
    · rw [hx] at hr
      rw [hc,Call.drawn,Row.heldBy_unique (reservedRow_heldBy draw.token draw.now r) hr]
    · rw [hx] at hr
      simp [quarantinedRow,failedRow,Row.heldBy] at hr
  | finalized hc hold hw =>
    have hnone := hw.reservationId
    rw [Row.heldBy_iff,hnone] at hr
    cases hr.1
  | swept hc hst he =>
    obtain ⟨j,_,rfl⟩ := sweepRow_ok he
    simp [sweptRow,Row.heldBy] at hr

/-- The calls that release a reservation for another attempt. -/
def Call.releases (c : Call q) (id token : Uuid) : Prop :=
  (∃ maxAttempts reason now, c = .finalize (.failed maxAttempts reason) id token now) ∨
    ∃ spec now, c = .sweep spec now

/-- A call that takes a row from its owner is a finalization by the owner or a
sweep, and leaves the row without an owner. -/
theorem lost (h : Holds s id token) (h' : ¬Holds (step s c) id token) :
    ∃ r', (step s c).find? id = some r' ∧
      ((Call.releases c id token ∧ r'.status = Status.failed.code) ∨
        r'.status = Status.completed.code ∨ r'.status = Status.dead.code) := by
  obtain ⟨r,hf,hr⟩ := h
  have hs := step_row s c id
  rw [hf] at hs
  generalize ho : (step s c).find? id = o at hs
  have hid := Table.key_of_find? hf
  cases hs with
  | same => exact absurd ⟨r,ho,hr⟩ h'
  | reserved hc he =>
    have hst := (Row.heldBy_iff.mp hr).2
    simp [eligible,hst,Status.code] at he
  | @finalized f token' now _ r' hc hold hw =>
    refine ⟨r',rfl,?_⟩
    rw [hid,Row.heldBy_unique hold hr] at hc
    have hst := hw.status
    cases f with
    | completed => exact .inr (.inl hst)
    | failed maxAttempts reason => exact .inl ⟨.inl ⟨maxAttempts,reason,now,hc⟩,hst⟩
    | dead port reason => exact .inr (.inr hst)
  | @swept spec now _ r' hc hst he =>
    refine ⟨r',rfl,.inl ⟨.inr ⟨spec,now,hc⟩,?_⟩⟩
    obtain ⟨j,_,rfl⟩ := sweepRow_ok he
    exact sweptRow_status _ now j r

/-- A token that owns a row was there at the start or has been drawn. -/
theorem owner_known {i : ℕ} (hi : i ≤ calls.length)
    (h : Holds (stateAt step t calls i) id token) :
    (∃ r ∈ t.rows, r.reservationId = some token) ∨
      ∃ j, ∃ hj : j < calls.length, j < i ∧ calls[j].drawn = some token := by
  by_cases h0 : Holds t id token
  · obtain ⟨r,hf,hr⟩ := h0
    exact .inl ⟨r,Table.mem_of_find? hf,(Row.heldBy_iff.mp hr).1⟩
  · right
    have hl := lost_at step (fun s => ¬Holds s id token) (s:=t)
      (Nat.zero_le i) h0 (not_not.mpr h)
    obtain ⟨j,_,hji,hb,ha⟩ := hl
    have hj : j < calls.length := by omega
    rw [stateAt_succ step t calls hj] at ha
    exact ⟨j,hj,hji,gained hb (not_not.mp ha)⟩

/-- A token that lost a row never owns it again. -/
theorem never_regained (hfresh : FreshTokens t calls) {i j k : ℕ} (hij : i ≤ j) (hjk : j ≤ k)
    (hk : k ≤ calls.length) (h : Holds (stateAt step t calls i) id token)
    (hl : ¬Holds (stateAt step t calls j) id token) :
    ¬Holds (stateAt step t calls k) id token := by
  intro hback
  obtain ⟨m,hjm,hmk,hb,ha⟩ := lost_at step (fun s => ¬Holds s id token)
    hjk hl (not_not.mpr hback)
  have hm : m < calls.length := by omega
  rw [stateAt_succ step t calls hm] at ha
  have hdrawn := gained hb (not_not.mp ha)
  rcases owner_known (by omega) h with ⟨r,hr,htok⟩ | ⟨m',hm',hlt,hd⟩
  · exact hfresh.absent_of_drawn hm hdrawn hr htok
  · have := hfresh.index_eq hm' hm hd hdrawn
    omega

end Ownership

section Exclusion

/-- A row in a terminal status. -/
def Terminal (r : Row q.Own) : Prop :=
  r.status ≠ Status.received.code ∧ r.status ≠ Status.failed.code ∧
    r.status ≠ Status.reserved.code

/-- No call changes a terminal row. -/
theorem terminal_step {r : Row q.Own} (h : s.find? id = some r) (ht : Terminal r) :
    (step s c).find? id = some r := by
  have hs := step_row s c id
  rw [h] at hs
  generalize (step s c).find? id = o at hs
  cases hs with
  | same => rfl
  | reserved hc he =>
    simp only [eligible,Bool.and_eq_true,Bool.or_eq_true,decide_eq_true_eq] at he
    exact absurd he.1.1 (by simp [ht.1,ht.2.1])
  | finalized hc hr hw => exact absurd (Row.heldBy_iff.mp hr).2 ht.2.2
  | swept hc hst he =>
    simp only [stale,Bool.and_eq_true,decide_eq_true_eq] at hst
    exact absurd hst.1 ht.2.2

theorem terminal_run {r : Row q.Own} {i j : ℕ} (hij : i ≤ j) (hj : j ≤ calls.length)
    (h : (stateAt step t calls i).find? id = some r) (ht : Terminal r) :
    (stateAt step t calls j).find? id = some r := by
  refine related step (fun a b => a.find? id = some r → b.find? id = some r)
    (fun _ h => h) (fun hab hbc h => hbc (hab h)) ?_ hij hj h
  intro k hk hs
  exact terminal_step hs ht

/-- Between two reservations that hand out one entry, the first one's claim was
released: by its own `failed` call or by a sweep, from `Reserved` under the first
token to `Failed`. -/
theorem released_between (i j : ℕ) (hi : i < calls.length) (hj : j < calls.length)
    (hij : i < j) {e₁ e₂ : q.Envelope} (h₁ : e₁ ∈ handedOut (stateAt step t calls i) calls[i])
    (h₂ : e₂ ∈ handedOut (stateAt step t calls j) calls[j])
    (hid : (q.handed e₁).id = (q.handed e₂).id) (ht : calls[i].drawn = some token) :
    ∃ k, ∃ hk : k < calls.length, i < k ∧ k < j ∧
      Call.releases calls[k] (q.handed e₁).id token ∧
      (∃ r, (stateAt step t calls k).find? (q.handed e₁).id = some r ∧ r.heldBy token = true) ∧
      ∃ r', (stateAt step t calls (k+1)).find? (q.handed e₁).id = some r' ∧
        r'.status = Status.failed.code := by
  obtain ⟨spec₁,draw₁,r₁,hc₁,_,_,_,hafter,hid₁,_⟩ := handedOut_row h₁
  obtain ⟨spec₂,draw₂,r₂,hc₂,hbefore,hel,_,_,hid₂,_⟩ := handedOut_row h₂
  have htok : draw₁.token = token := by
    rw [hc₁] at ht
    exact Option.some.inj ht
  have hheld : Holds (stateAt step t calls (i+1)) (q.handed e₁).id token := by
    rw [stateAt_succ step t calls hi,hid₁]
    exact ⟨_,hafter,htok ▸ reservedRow_heldBy draw₁.token draw₁.now r₁⟩
  have hrow : (stateAt step t calls j).find? (q.handed e₁).id = some r₂ := by
    rw [hid,hid₂]
    exact hbefore
  simp only [eligible,Bool.and_eq_true,Bool.or_eq_true,decide_eq_true_eq] at hel
  have hfree : ¬Holds (stateAt step t calls j) (q.handed e₁).id token := by
    rintro ⟨r,hf,hr⟩
    rw [hrow] at hf
    cases hf
    have hst := (Row.heldBy_iff.mp hr).2
    rcases hel.1.1 with h | h <;> rw [h] at hst <;> simp [Status.code] at hst
  obtain ⟨k,hik,hkj,hk,hk'⟩ := lost_at step
    (fun s => Holds s (q.handed e₁).id token) (Nat.succ_le_of_lt hij) hheld hfree
  have hklen : k < calls.length := by omega
  rw [stateAt_succ step t calls hklen] at hk'
  obtain ⟨r',hf',hcase⟩ := lost hk hk'
  rw [← stateAt_succ step t calls hklen] at hf'
  -- a completed or dead row would still stand before the second reservation
  have hnot : ∀ st, st = Status.completed ∨ st = Status.dead → r'.status ≠ st.code := by
    intro st hst he
    have hterm : Terminal r' := by
      rcases hst with rfl | rfl <;> simp [Terminal,he,Status.code]
    have hstay := terminal_run (by omega) (by omega) hf' hterm (j:=j)
    rw [hrow] at hstay
    cases hstay
    rcases hst with rfl | rfl <;> rcases hel.1.1 with h | h <;>
      rw [h] at he <;> simp [Status.code] at he
  rcases hcase with ⟨hrel,hst⟩ | hst | hst
  · exact ⟨k,hklen,by omega,hkj,hrel,hk,r',hf',hst⟩
  · exact absurd hst (hnot .completed (.inl rfl))
  · exact absurd hst (hnot .dead (.inr rfl))

end Exclusion

section Consistency

/-- The coupled columns of a row agree. -/
structure Consistent (r : Row q.Own) : Prop where
  /-- A row is `Reserved` exactly while it has a token. -/
  reserved_iff : r.status = Status.reserved.code ↔ r.reservationId.isSome = true
  /-- A row has a token exactly while it has a reservation time. -/
  token_iff : r.reservationId.isSome = true ↔ r.reservedAt.isSome = true
  /-- A row has a completion time exactly when it is `Completed`. -/
  processed_iff : r.processedAt.isSome = true ↔ r.status = Status.completed.code
  /-- Attempts are never negative. -/
  attempts_nonneg : 0 ≤ r.attempts
  /-- A row that was reserved once has an attempt. -/
  attempts_pos : r.status = Status.reserved.code ∨ r.status = Status.completed.code ∨
    r.status = Status.failed.code → 1 ≤ r.attempts

/-- A row that is not completed has not been processed. -/
theorem Consistent.unprocessed {r : Row q.Own} (h : Consistent r)
    (hs : r.status ≠ Status.completed.code) : r.processedAt.isSome = false :=
  Bool.eq_false_iff.mpr fun hc => hs (h.processed_iff.mp hc)

theorem consistent_stored (n : NewRow q.Own) (metadata : Jsonb) :
    Consistent (storedRow n metadata) := by
  constructor <;> simp [storedRow,Status.code]

theorem consistent_reserved {r : Row q.Own} (h : Consistent r) {spec : ReservableSpec}
    {draw : ReserveDraw q} (he : eligible spec draw.now r = true) :
    Consistent (reservedAndSettled spec draw r) := by
  simp only [eligible,Bool.and_eq_true,Bool.or_eq_true,decide_eq_true_eq] at he
  have hp : r.processedAt.isSome = false := by
    refine h.unprocessed ?_
    rcases he.1.1 with h' | h' <;> rw [h'] <;> decide
  have hn := h.attempts_nonneg
  rcases reservedAndSettled_cases spec draw r with ⟨_,hx⟩ | ⟨error,_,hx⟩ <;> rw [hx]
  · constructor <;> simp_all [reservedRow,Status.code]
    omega
  · constructor <;> simp_all [quarantinedRow,failedRow,reservedRow,Status.code]
    omega

theorem consistent_finalized {r r' : Row q.Own} (h : Consistent r) (hr : r.heldBy token = true)
    {f : Finalization q} {now : Timestamp} (hw : f.Writes now r r') : Consistent r' := by
  have hst := (Row.heldBy_iff.mp hr).2
  have hn := h.attempts_pos (.inl hst)
  have hp : r.processedAt.isSome = false := by
    refine h.unprocessed ?_
    rw [hst]
    decide
  cases hw with
  | completed hf =>
    constructor <;> simp_all [completedRow,Status.code]
    omega
  | failed hf he =>
    constructor <;> simp_all [failedRow,Status.code]
    omega
  | dead hf hh hx =>
    constructor <;> simp_all [deadRow,Status.code]
    omega

theorem consistent_swept {r r' : Row q.Own} (h : Consistent r)
    {policy : ReservationTimeoutPolicy} {now : Timestamp} (hs : stale policy r = true)
    (he : sweepRow policy now r = .ok r') : Consistent r' := by
  simp only [stale,Bool.and_eq_true,decide_eq_true_eq] at hs
  have hn := h.attempts_pos (.inl hs.1)
  have hp : r.processedAt.isSome = false := by
    refine h.unprocessed ?_
    rw [hs.1]
    decide
  obtain ⟨j,_,rfl⟩ := sweepRow_ok he
  have hst := sweptRow_status policy now j r
  constructor <;> simp_all [sweptRow,Status.code]
  omega

/-- Every call keeps every row consistent. -/
theorem consistent_step (h : ∀ r ∈ s.rows, Consistent r) (c : Call q) :
    ∀ r ∈ (step s c).rows, Consistent r := by
  intro r' hr'
  have hf' := Table.find?_key hr'
  have hs := step_row s c r'.id
  rw [hf'] at hs
  generalize ho : s.find? r'.id = o at hs
  cases hs with
  | same => exact h r' (Table.mem_of_find? ho)
  | recorded hc hn hm => exact consistent_stored _ _
  | reserved hc he => exact consistent_reserved (h _ (Table.mem_of_find? ho)) he
  | finalized hc hr hw => exact consistent_finalized (h _ (Table.mem_of_find? ho)) hr hw
  | swept hc hst he => exact consistent_swept (h _ (Table.mem_of_find? ho)) hst he

/-- Only the terminal transition makes a row `Dead`, and nothing archives one. -/
theorem status_step {r r' : Row q.Own} (h : s.find? id = some r)
    (h' : (step s c).find? id = some r') :
    (r'.status = Status.dead.code → r.status = Status.dead.code ∨
        ∃ port reason token now, c = .finalize (.dead port reason) id token now) ∧
      (r'.status = Status.archive.code → r.status = Status.archive.code) := by
  have hs := step_row s c id
  rw [h,h'] at hs
  have hid := Table.key_of_find? h
  cases hs with
  | same => exact ⟨.inl,fun h => h⟩
  | @reserved spec draw _ hc he =>
    rcases reservedAndSettled_cases spec draw r with ⟨_,hx⟩ | ⟨error,_,hx⟩ <;> rw [hx]
    · simp [reservedRow,Status.code]
    · simp [quarantinedRow,failedRow,Status.code]
  | @finalized f token now _ _ hc hr hw =>
    rw [hw.status]
    rw [hid] at hc
    cases f with
    | completed => simp [Finalization.status,Status.code]
    | failed maxAttempts reason => simp [Finalization.status,Status.code]
    | dead port reason =>
      exact ⟨fun _ => .inr ⟨port,reason,token,now,hc⟩,by simp [Finalization.status,Status.code]⟩
  | swept hc hst he =>
    obtain ⟨j,_,rfl⟩ := sweepRow_ok he
    simp [sweptRow_status,Status.code]

end Consistency

section Guarantees

/-- A finalization succeeds for the owner alone, changes its row and no other,
and otherwise changes nothing. -/
structure FinalizesExactly (s : Rows q) (f : Finalization q) (id token : Uuid)
    (now : Timestamp) : Prop where
  /-- Unless Postgres refuses a text, it succeeds exactly for the owner. -/
  accepted : f.storable → ((finalize s f id token now).1 = .ok () ↔
    ∃ r, s.find? id = some r ∧ r.heldBy token = true ∧ f.accepts r = true)
  /-- A success rewrites the row. -/
  effect : (finalize s f id token now).1 = .ok () →
    ∃ r r', s.find? id = some r ∧ (finalize s f id token now).2.find? id = some r' ∧
      f.Writes now r r' ∧ r' ≠ r
  /-- A success leaves every other row alone. -/
  frame : ∀ k, k ≠ id → (finalize s f id token now).2.find? k = s.find? k
  /-- Anything else is an error, and changes nothing. -/
  refused : (finalize s f id token now).1 ≠ .ok () →
    (∃ e, (finalize s f id token now).1 = .error e) ∧ (finalize s f id token now).2 = s

theorem finalizesExactly (s : Rows q) (f : Finalization q) (id token : Uuid) (now : Timestamp) :
    FinalizesExactly s f id token now := by
  rcases finalize_cases s f id token now with ⟨r,hf,hr,ha,hs,g,hg,he,hw⟩ | ⟨e,he⟩
  · constructor
    · intro _
      rw [he]
      exact ⟨fun _ => ⟨r,hf,hr,ha⟩,fun _ => rfl⟩
    · intro _
      rw [he]
      refine ⟨r,g r,hf,Table.find?_updateAt_self hf g hg,hw,fun h => ?_⟩
      have hnone := hw.reservationId
      rw [h,(Row.heldBy_iff.mp hr).1] at hnone
      cases hnone
    · intro k hk
      rw [he]
      exact s.find?_updateAt_ne hk g hg
    · intro h
      rw [he] at h
      exact absurd rfl h
  · constructor
    · intro hs
      rw [he]
      refine ⟨nofun,fun h => ?_⟩
      obtain ⟨r,hf,hr,ha⟩ := h
      obtain ⟨g,hg,hok,_⟩ := finalize_of_held hf hr ha hs now
      rw [he] at hok
      cases hok
    · intro h
      rw [he] at h
      cases h
    · intro k _
      rw [he]
    · intro _
      rw [he]
      exact ⟨⟨e,rfl⟩,rfl⟩

/-- Reservation ownership over whole runs: before every finalization of a run the
table decides it as above, and a token that lost an entry is refused for it from
then on. -/
theorem reservation_ownership (name : QueueName) (float : SerdeJson.FloatReader)
    (t : Rows (name.queue float)) (calls : List (Call (name.queue float)))
    (hfresh : FreshTokens t calls) :
    (∀ i f id token now, calls[i]? = some (.finalize f id token now) →
      FinalizesExactly (stateAt step t calls i) f id token now) ∧
    ∀ i j k f id token now, i ≤ j → j ≤ k → calls[k]? = some (.finalize f id token now) →
      Holds (stateAt step t calls i) id token → ¬Holds (stateAt step t calls j) id token →
        (∃ e, (finalize (stateAt step t calls k) f id token now).1 = .error e) ∧
          stateAt step t calls (k+1) = stateAt step t calls k := by
  refine ⟨fun i f id token now _ => finalizesExactly _ f id token now,?_⟩
  intro i j k f id token now hij hjk hk hheld hlost
  obtain ⟨hlt,hget⟩ := List.getElem?_eq_some_iff.mp hk
  have hnot := never_regained hfresh hij hjk (by omega) hheld hlost
  rw [stateAt_succ step t calls hlt,hget,step,finalize_of_not_held hnot]
  exact ⟨⟨_,rfl⟩,rfl⟩

/-- A command that waits for its first attempt. -/
def waitingRow : Row String :=
  ⟨.fromU128 1,0,"{}",none,0,0,none,none,0,0,none,none,"Rename"⟩

/-- A table with one waiting command. -/
def waitingTable : Rows (QueueName.commands.queue .integersOnly) := ⟨[waitingRow],by decide⟩

/-- The command while it is worked on. -/
def heldTable : Rows (QueueName.commands.queue .integersOnly) :=
  ⟨[reservedRow (.fromU128 7) 0 waitingRow],by decide⟩

/-- A reservation that meets the rows in physical order, none of them locked. -/
def plainDraw (token : Uuid) (now : Timestamp) : ReserveDraw q :=
  ⟨token,now,.physical,.physical,fun _ => false⟩

/-- One entry a call, six attempts an entry. -/
def singleSpec : ReservableSpec := ⟨1,by decide,6,by decide⟩

/-- A command that is reserved and completed, and completed again by a slow retry. -/
def completedTwice : List (Call (QueueName.commands.queue .integersOnly)) :=
  [.reserve singleSpec (plainDraw (.fromU128 7) 0),
    .finalize .completed (.fromU128 1) (.fromU128 7) 1,
    .finalize .completed (.fromU128 1) (.fromU128 7) 2]

theorem reservation_ownership_completedTwice :
    (∃ e, (finalize (stateAt step waitingTable completedTwice 2) .completed (.fromU128 1)
      (.fromU128 7) 2).1 = .error e) ∧
        stateAt step waitingTable completedTwice 3 = stateAt step waitingTable completedTwice 2 :=
  (reservation_ownership .commands .integersOnly waitingTable completedTwice
    ⟨by decide,by decide⟩).2 1 2 2 .completed (.fromU128 1) (.fromU128 7) 2 (by decide) (by decide)
      rfl (by decide) (by decide)

/-- Mutually exclusive claims: one entry is handed out twice only across a
release, one token at a time can end a reservation, two reservations without a
release between them hand out different entries, and one reservation hands out
an entry once. -/
theorem mutually_exclusive_claims (name : QueueName) (float : SerdeJson.FloatReader)
    (t : Rows (name.queue float)) (calls : List (Call (name.queue float))) :
    (∀ i j (hi : i < calls.length) (hj : j < calls.length), i < j →
      ∀ e₁ ∈ handedOut (stateAt step t calls i) calls[i],
      ∀ e₂ ∈ handedOut (stateAt step t calls j) calls[j],
        ((name.queue float).handed e₁).id = ((name.queue float).handed e₂).id →
        ∃ token, calls[i].drawn = some token ∧ ∃ k, ∃ hk : k < calls.length, i < k ∧ k < j ∧
          Call.releases calls[k] ((name.queue float).handed e₁).id token ∧
          (∃ r, (stateAt step t calls k).find? ((name.queue float).handed e₁).id = some r ∧
            r.heldBy token = true) ∧
          ∃ r', (stateAt step t calls (k+1)).find? ((name.queue float).handed e₁).id = some r' ∧
            r'.status = Status.failed.code) ∧
    (∀ i f₁ f₂ id token₁ token₂ now₁ now₂,
      (finalize (stateAt step t calls i) f₁ id token₁ now₁).1 = .ok () →
      (finalize (stateAt step t calls i) f₂ id token₂ now₂).1 = .ok () → token₁ = token₂) ∧
    (∀ i j (hi : i < calls.length) (hj : j < calls.length), i < j →
      (∀ k (hk : k < calls.length), i < k → k < j →
        ∀ id token, ¬Call.releases calls[k] id token) →
      ∀ e₁ ∈ handedOut (stateAt step t calls i) calls[i],
      ∀ e₂ ∈ handedOut (stateAt step t calls j) calls[j],
        ((name.queue float).handed e₁).id ≠ ((name.queue float).handed e₂).id) ∧
    ∀ i (hi : i < calls.length), ((handedOut (stateAt step t calls i) calls[i]).map
      fun e => ((name.queue float).handed e).id).Nodup := by
  have hdrawn : ∀ {s : Rows (name.queue float)} {c : Call (name.queue float)} {e},
      e ∈ handedOut s c → ∃ token, c.drawn = some token := by
    intro s c e he
    obtain ⟨spec,draw,r,hc,_⟩ := handedOut_row he
    exact ⟨draw.token,by rw [hc]; rfl⟩
  refine ⟨?_,?_,?_,fun i hi => handedOut_nodup _ _⟩
  · intro i j hi hj hij e₁ h₁ e₂ h₂ hid
    obtain ⟨token,htoken⟩ := hdrawn h₁
    exact ⟨token,htoken,released_between i j hi hj hij h₁ h₂ hid htoken⟩
  · intro i f₁ f₂ id token₁ token₂ now₁ now₂ h₁ h₂
    have howner : ∀ {f : Finalization (name.queue float)} {token now},
        (finalize (stateAt step t calls i) f id token now).1 = .ok () →
          Holds (stateAt step t calls i) id token := by
      intro f token now h
      by_contra hn
      rw [finalize_of_not_held hn] at h
      cases h
    obtain ⟨r,hf,hr⟩ := howner h₁
    obtain ⟨r',hf',hr'⟩ := howner h₂
    rw [hf] at hf'
    cases hf'
    exact Row.heldBy_unique hr hr'
  · intro i j hi hj hij hno e₁ h₁ e₂ h₂ hid
    obtain ⟨token,htoken⟩ := hdrawn h₁
    obtain ⟨k,hk,hik,hkj,hrel,_⟩ := released_between i j hi hj hij h₁ h₂ hid htoken
    exact hno k hk hik hkj _ _ hrel

/-- The representation invariant of the four queues: every row stays consistent,
no row disappears, only `dead` makes a row `Dead` and nothing archives one. -/
theorem representation_invariant (name : QueueName) (float : SerdeJson.FloatReader)
    (t : Rows (name.queue float)) (calls : List (Call (name.queue float)))
    (h : ∀ r ∈ t.rows, Consistent r) :
    (∀ i ≤ calls.length, ∀ r ∈ (stateAt step t calls i).rows, Consistent r) ∧
    ∀ i (hi : i < calls.length) id r, (stateAt step t calls i).find? id = some r →
      ∃ r', (stateAt step t calls (i+1)).find? id = some r' ∧
        (r'.status = Status.dead.code → r.status = Status.dead.code ∨
          ∃ port reason token now, calls[i] = .finalize (.dead port reason) id token now) ∧
        (r'.status = Status.archive.code → r.status = Status.archive.code) := by
  refine ⟨fun i hi => ?_,?_⟩
  · exact invariant step (fun s => ∀ r ∈ s.rows, Consistent r) h
      (fun j hj hs => consistent_step hs _) i hi
  · intro i hi id r hf
    rw [stateAt_succ step t calls hi]
    obtain ⟨r',hf'⟩ := step_keeps (c:=calls[i]) hf
    exact ⟨r',hf',status_step hf hf'⟩

theorem representation_invariant_completedTwice :
    ∃ r, (stateAt step waitingTable completedTwice 3).rows = [r] ∧ Consistent r :=
  ⟨_,rfl,(representation_invariant .commands .integersOnly waitingTable completedTwice (by
    intro r hr
    rw [List.mem_singleton.mp hr]
    constructor <;> decide)).1 3 (by decide) _ (List.mem_singleton_self _)⟩

end Guarantees

end Mulac.QueueRuns
