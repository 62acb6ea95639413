import Mulac.BatchSettlement

/-!
# The lifetime of a row

What any call of a run does to one row that is there: it keeps the row, selects
it, ends its reservation or sweeps it. From this one inversion follow the laws
of a whole lifetime: a terminal row stays what it is, the attempts count the
reservations that selected the row and never pass the limit, and two of these
reservations are a delay apart.
-/

namespace Mulac.RowLifetimes

open Identifiers Postgres QueueDomain KeyedTable QueueRow Repository RepositoryContracts
  FourQueues CallSequence QueueCalls QueueRuns ReserveContract BatchSettlement

variable {q : Queue} {s t : Rows q} {c : Call q} {calls : List (Call q)} {id token : Uuid}
  {r r' : Row q.Own} {maxAttempts : ℤ}

section Moves

/-- Whether a call is a reservation that selects the row under a key. -/
def selects (id : Uuid) (s : Rows q) : Call q → Bool
  | .reserve spec draw => decide (id ∈ (selected s spec draw).map Row.id)
  | _ => false

/-- Whether a call ends the reservation of the row under a key. -/
def ends (id : Uuid) (s : Rows q) : Call q → Bool
  | .finalize f k token now => decide (k = id) && (finalize s f k token now).1.isOk
  | _ => false

/-- Whether a call is a sweep that releases the row under a key. -/
def sweeps (id : Uuid) (s : Rows q) : Call q → Bool
  | .sweep spec now => ((sweep s spec now).1.any Except.isOk) &&
      (s.find? id).any (stale (StaleSpec.policy spec now))
  | _ => false

/-- What a call can do to a row that is there. -/
inductive RowMove (s : Rows q) (c : Call q) (r : Row q.Own) : Row q.Own → Prop
  /-- Nothing. -/
  | kept : selects r.id s c = false → ends r.id s c = false → sweeps r.id s c = false →
      RowMove s c r r
  /-- A reservation selects the row, and fails it at once if it does not decode. -/
  | selected {spec : ReservableSpec} {draw : ReserveDraw q} : c = .reserve spec draw →
      selects r.id s c = true → eligible spec draw.now r = true →
      RowMove s c r (reservedAndSettled spec draw r)
  /-- The owner ends its reservation. -/
  | ended {f : Finalization q} {token : Uuid} {now : Timestamp} {r' : Row q.Own} :
    c = .finalize f r.id token now → ends r.id s c = true → r.heldBy token = true →
      f.Writes now r r' → RowMove s c r r'
  /-- A sweep releases the stale row. -/
  | swept {spec : StaleSpec} {now : Timestamp} {r' : Row q.Own} : c = .sweep spec now →
      sweeps r.id s c = true → stale (StaleSpec.policy spec now) r = true →
      sweepRow (StaleSpec.policy spec now) now r = .ok r' → RowMove s c r r'

/-- Only a reservation that goes through selects a row. -/
theorem selects_reserve {spec : ReservableSpec} {draw : ReserveDraw q}
    (hl : spec.limit < 2^63) (r : Row q.Own) :
    selects r.id s (.reserve spec draw) = picked s spec draw r := by
  rw [selects,selected_eq hl]
  rfl

theorem selects_of_limit {spec : ReservableSpec} {draw : ReserveDraw q}
    (hl : ¬spec.limit < 2^63) : selects id s (.reserve spec draw) = false := by
  rw [selects,selected,reserve_of_limit s hl draw]
  rfl

/-- What is selected is there. -/
theorem found_of_selects (h : selects id s c = true) : ∃ r, s.find? id = some r := by
  cases c with
  | record entry appNow now => cases h
  | finalize f k token now => cases h
  | sweep spec now => cases h
  | reserve spec draw =>
    obtain ⟨r,hr,rfl⟩ := List.mem_map.mp (of_decide_eq_true h)
    unfold selected at hr
    split at hr
    · exact ⟨r,Table.find?_key (mem_candidates hr).1⟩
    · cases hr

/-- Every call makes one of these moves. -/
theorem row_move (c : Call q) (h : s.find? id = some r) :
    ∃ r', (step s c).find? id = some r' ∧ RowMove s c r r' := by
  have hm := Table.mem_of_find? h
  have hid := Table.key_of_find? h
  subst hid
  cases c with
  | record entry appNow now =>
    refine ⟨r,?_,.kept rfl rfl rfl⟩
    rcases record_cases s entry appNow now with ⟨n,metadata,_,_,he⟩ | ⟨e,he⟩
    · rw [step,he,Table.find?_insertNew,h]
    · rw [step,he]
      exact h
  | reserve spec draw =>
    by_cases hl : spec.limit < 2^63
    · have hs : selects r.id s (.reserve spec draw) = picked s spec draw r := selects_reserve hl r
      rw [step,reserve_eq s hl draw,Table.find?_update,h,Option.map_some]
      cases hp : picked s spec draw r with
      | true =>
        exact ⟨_,rfl,.selected rfl (hs.trans hp) (eligible_of_picked hm hp).1⟩
      | false => exact ⟨r,rfl,.kept (hs.trans hp) rfl rfl⟩
    · rw [step,reserve_of_limit s hl draw]
      exact ⟨r,h,.kept (selects_of_limit hl) rfl rfl⟩
  | finalize f k token now =>
    rcases finalize_cases s f k token now with ⟨r₀,hf,hr,_,_,g,hg,he,hw⟩ | ⟨e,he⟩
    · by_cases hk : r.id = k
      · subst hk
        rw [h] at hf
        cases hf
        refine ⟨g r,?_,.ended rfl ?_ hr hw⟩
        · rw [step,he]
          exact Table.find?_updateAt_self h g hg
        · rw [ends,he]
          simp [Except.isOk,Except.toBool]
      · refine ⟨r,?_,.kept rfl ?_ rfl⟩
        · rw [step,he]
          exact (s.find?_updateAt_ne hk g hg).trans h
        · rw [ends,decide_eq_false (Ne.symm hk),Bool.false_and]
    · refine ⟨r,?_,.kept rfl ?_ rfl⟩
      · rw [step,he]
        exact h
      · rw [ends,he]
        simp [Except.isOk,Except.toBool]
  | sweep spec now =>
    rcases sweep_cases s spec now with ⟨hc,hall⟩ | ⟨hno,ht⟩
    · have he := sweep_of_ok s hc hall
      rw [step,he,Table.find?_update,h,Option.map_some]
      cases hst : stale (StaleSpec.policy spec now) r with
      | true =>
        obtain ⟨r',hok⟩ := hall r hm hst
        refine ⟨r',?_,.swept rfl ?_ hst hok⟩
        · rw [if_pos rfl,Table.rewrite_of_ok hok]
        · rw [sweeps,he,h]
          simp [hst,Except.isOk,Except.toBool]
      | false =>
        refine ⟨r,rfl,.kept rfl rfl ?_⟩
        rw [sweeps,h]
        simp [hst]
    · refine ⟨r,?_,.kept rfl rfl ?_⟩
      · rw [step,ht]
        exact h
      · rw [sweeps]
        cases ho : (sweep s spec now).1 with
        | none => rfl
        | some result =>
          cases result with
          | error e => rfl
          | ok n => exact absurd ho (hno n)

end Moves

section Finality

/-- A terminal row is not selected, not ended and not swept. -/
theorem terminal_move (ht : Terminal r) (h : RowMove s c r r') :
    r' = r ∧ selects r.id s c = false ∧ ends r.id s c = false ∧ sweeps r.id s c = false := by
  cases h with
  | kept hsel hend hsw => exact ⟨rfl,hsel,hend,hsw⟩
  | selected hc _ he =>
    simp only [eligible,Bool.and_eq_true,Bool.or_eq_true,decide_eq_true_eq] at he
    exact absurd he.1.1 (by simp [ht.1,ht.2.1])
  | ended _ _ hr _ => exact absurd (Row.heldBy_iff.mp hr).2 ht.2.2
  | swept _ _ hst _ =>
    simp only [stale,Bool.and_eq_true,decide_eq_true_eq] at hst
    exact absurd hst.1 ht.2.2

/-- What is handed out was selected. -/
theorem selects_of_handedOut {e : q.Envelope} (h : e ∈ handedOut s c) :
    selects (q.handed e).id s c = true := by
  obtain ⟨spec,draw,r,rfl,hf,_,_,hafter,hid,_⟩ := handedOut_row h
  obtain ⟨r',hf',hmove⟩ := row_move (.reserve spec draw) hf
  rw [hafter] at hf'
  cases hf'
  rw [hid]
  generalize hr' : reservedRow draw.token draw.now r = r' at hmove
  cases hmove with
  | kept _ _ _ =>
    -- a claimed row has one attempt more
    have ha := congrArg Row.attempts hr'
    change r.attempts+1 = r.attempts at ha
    omega
  | selected _ hsel _ => exact hsel
  | ended hc _ _ _ => cases hc
  | swept hc _ _ _ => cases hc

/-- Terminal states are final: whatever calls follow, in whatever order, a row
that is `Completed`, `Dead` or `Archive` keeps every column and is handed out by
none of them. -/
theorem terminal_final (name : QueueName) (float : SerdeJson.FloatReader)
    (t : Rows (name.queue float)) (calls : List (Call (name.queue float))) {id : Uuid}
    {r : Row (name.queue float).Own} (hf : t.find? id = some r)
    (hs : r.status = Status.completed.code ∨ r.status = Status.dead.code ∨
      r.status = Status.archive.code) :
    (∀ i ≤ calls.length, (stateAt step t calls i).find? id = some r) ∧
      ∀ i (hi : i < calls.length), ∀ e ∈ handedOut (stateAt step t calls i) calls[i],
        ((name.queue float).handed e).id ≠ id := by
  have hterm : Terminal r := by
    rcases hs with h | h | h <;> simp [Terminal,h,Status.code]
  have hkept : ∀ i ≤ calls.length, (stateAt step t calls i).find? id = some r :=
    fun i hi => terminal_run (Nat.zero_le i) hi hf hterm
  refine ⟨hkept,fun i hi e he hid => ?_⟩
  have hsel := selects_of_handedOut he
  obtain ⟨r',_,hmove⟩ := row_move calls[i] (hkept i (by omega))
  have hno := (terminal_move hterm hmove).2.1
  rw [Table.key_of_find? hf] at hno
  rw [hid,hno] at hsel
  cases hsel

/-- A command that was completed. -/
def completedTable : Rows (QueueName.commands.queue .integersOnly) :=
  ⟨[completedRow 1 (reservedRow (.fromU128 7) 0 waitingRow)],by decide⟩

/-- The same command recorded again, reserved and failed under its old token. -/
def lateCalls : List (Call (QueueName.commands.queue .integersOnly)) :=
  [.record ⟨"Rename","[]",some ⟨.fromU128 1,none,none,none⟩⟩ 2 2,
    .reserve singleSpec (plainDraw (.fromU128 8) 3),
    .finalize (.failed 6 none) (.fromU128 1) (.fromU128 7) 4]

theorem terminal_final_lateCalls :
    (stateAt step completedTable lateCalls 3).find? (.fromU128 1) =
      some (completedRow 1 (reservedRow (.fromU128 7) 0 waitingRow)) :=
  (terminal_final .commands .integersOnly completedTable lateCalls rfl (.inl rfl)).1 3 (by decide)

end Finality

section Attempts

/-- The calls that carry a retry limit carry this one. -/
def Call.limitedTo (maxAttempts : ℤ) : Call q → Prop
  | .reserve spec _ => spec.maxAttempts = maxAttempts
  | .finalize (.failed limit _) _ _ _ => limit = maxAttempts
  | .sweep spec _ => spec.maxAttempts = maxAttempts
  | _ => True

/-- A reservation counts one attempt of a row it selects, which had some left. -/
theorem RowMove.attempts (h : RowMove s c r r') :
    r'.attempts = r.attempts+(if selects r.id s c then 1 else 0) ∧
      r'.metadata = r.metadata ∧
      (selects r.id s c = true → ∀ maxAttempts, Call.limitedTo maxAttempts c →
        r.attempts < maxAttempts) := by
  cases h with
  | kept hsel _ _ => simp [hsel]
  | @selected spec draw hc hsel he =>
    have hlt : r.attempts < spec.maxAttempts := by
      simp only [eligible,Bool.and_eq_true,decide_eq_true_eq] at he
      exact he.2
    rw [hsel,if_pos rfl]
    refine ⟨?_,?_,fun _ limit hl => ?_⟩
    · rcases reservedAndSettled_cases spec draw r with ⟨_,hx⟩ | ⟨error,_,hx⟩ <;> rw [hx] <;> rfl
    · rcases reservedAndSettled_cases spec draw r with ⟨_,hx⟩ | ⟨error,_,hx⟩ <;> rw [hx] <;> rfl
    · rw [hc] at hl
      exact hl ▸ hlt
  | ended hc _ _ hw =>
    have hsel : selects r.id s c = false := by rw [hc]; rfl
    simp only [hsel,Bool.false_eq_true,if_false,add_zero,false_implies,and_true]
    cases hw <;> exact ⟨rfl,rfl⟩
  | swept hc _ _ he =>
    have hsel : selects r.id s c = false := by rw [hc]; rfl
    obtain ⟨j,_,rfl⟩ := sweepRow_ok he
    simp [hsel,sweptRow]

/-- How many reservations of a run selected the row under a key. -/
def selections (id : Uuid) (t : Rows q) (calls : List (Call q)) : ℕ :=
  (trace step t calls).countP fun x => selects id x.1 x.2

theorem selections_take_succ (id : Uuid) (t : Rows q) {i : ℕ} (hi : i < calls.length) :
    selections id t (calls.take (i+1)) = selections id t (calls.take i)+
      (if selects id (stateAt step t calls i) calls[i] then 1 else 0) := by
  rw [selections,trace_take_succ step t calls hi,List.countP_append,List.countP_singleton]
  rfl

/-- The attempts of a row count the reservations that selected it, and its
metadata stays. -/
theorem attempts_run (calls : List (Call q)) (hf : t.find? id = some r) {i : ℕ}
    (hi : i ≤ calls.length) :
    ∃ r', (stateAt step t calls i).find? id = some r' ∧
      r'.attempts = r.attempts+selections id t (calls.take i) ∧ r'.metadata = r.metadata := by
  induction i with
  | zero => exact ⟨r,hf,by simp [selections,trace],rfl⟩
  | succ i ih =>
    obtain ⟨r₁,hf₁,ha₁,hm₁⟩ := ih (by omega)
    obtain ⟨r₂,hf₂,hmove⟩ := row_move calls[i] hf₁
    obtain ⟨ha₂,hm₂,_⟩ := hmove.attempts
    rw [Table.key_of_find? hf₁] at ha₂
    refine ⟨r₂,?_,?_,hm₂.trans hm₁⟩
    · rw [stateAt_succ step t calls (by omega)]
      exact hf₂
    · rw [selections_take_succ id t (by omega),ha₂,ha₁]
      split <;> omega

/-- No reservation takes the attempts of a row past the limit. -/
theorem attempts_le (hall : ∀ c ∈ calls, Call.limitedTo maxAttempts c)
    (hf : t.find? id = some r) {i : ℕ} (hi : i ≤ calls.length) {r' : Row q.Own}
    (hf' : (stateAt step t calls i).find? id = some r') :
    r'.attempts ≤ max r.attempts maxAttempts := by
  induction i generalizing r' with
  | zero =>
    rw [stateAt_zero,hf] at hf'
    cases hf'
    exact le_max_left _ _
  | succ i ih =>
    obtain ⟨r₁,hf₁,_⟩ := attempts_run calls hf (i:=i) (by omega)
    obtain ⟨r₂,hf₂,hmove⟩ := row_move calls[i] hf₁
    rw [stateAt_succ step t calls (by omega),hf₂] at hf'
    cases hf'
    obtain ⟨ha,_,hlt⟩ := hmove.attempts
    have hle := ih (by omega) hf₁
    rw [ha]
    split
    · next hsel =>
      have := hlt hsel maxAttempts (hall _ (List.getElem_mem (by omega)))
      omega
    · omega

end Attempts

section Spacing

/-- `now()` of a call. -/
def Call.now : Call q → Timestamp
  | .record _ _ now => now
  | .reserve _ draw => draw.now
  | .finalize _ _ _ now => now
  | .sweep _ now => now

/-- The seconds between two attempts, after the given number of them. -/
def spacing (name : QueueName) (attempts : ℤ) : ℤ :=
  match name with
  | .inbox => 30*attempts
  | _ => 30*min attempts 4

theorem spacing_pos (name : QueueName) {attempts : ℤ} (h : 1 ≤ attempts) :
    0 < seconds (spacing name attempts) := by
  cases name <;> simp only [spacing,seconds] <;> omega

/-- A failure with an attempt left is due later, whatever the attempts. -/
theorem failureSchedule_later (name : QueueName) (float : SerdeJson.FloatReader)
    {attempts : ℤ} (hlt : attempts < maxAttempts) (now previous : Timestamp) :
    now < (name.queue float).failureSchedule maxAttempts attempts
      ((name.queue float).failureDelay attempts) now previous := by
  have hcapped : 0 < seconds (cappedDelay attempts) := by
    simp only [seconds,cappedDelay,retryBackoffSeconds,retryBackoffCapSeconds]
    omega
  cases name with
  | commands => exact Int.lt_add_of_pos_right now hcapped
  | events => exact Int.lt_add_of_pos_right now hcapped
  | inbox =>
    refine Int.lt_add_of_pos_right now (?_ : 0 < seconds (uncappedDelay attempts))
    simp only [seconds,uncappedDelay,retryBackoffSeconds]
    omega
  | outbox =>
    change now < outboxSchedule maxAttempts attempts (cappedDelay attempts) now previous
    rw [outboxSchedule,if_neg (by omega)]
    exact Int.lt_add_of_pos_right now hcapped

/-- A failure waits as long, unless no attempt is left. -/
theorem failureSchedule_spaced (name : QueueName) (float : SerdeJson.FloatReader)
    {attempts : ℤ} (h : 1 ≤ attempts) (hlt : attempts < maxAttempts) (now previous : Timestamp) :
    now+seconds (spacing name attempts) ≤ (name.queue float).failureSchedule maxAttempts attempts
      ((name.queue float).failureDelay attempts) now previous := by
  have hcapped : seconds (30*min attempts 4) ≤ seconds (cappedDelay attempts) := by
    simp only [seconds,cappedDelay,retryBackoffSeconds,retryBackoffCapSeconds]
    omega
  cases name with
  | commands => exact Int.add_le_add_left hcapped now
  | events => exact Int.add_le_add_left hcapped now
  | inbox =>
    refine Int.add_le_add_left (?_ : seconds (30*attempts) ≤ seconds (uncappedDelay attempts)) now
    simp only [seconds,uncappedDelay,retryBackoffSeconds]
    omega
  | outbox =>
    change _ ≤ outboxSchedule maxAttempts attempts (cappedDelay attempts) now previous
    rw [outboxSchedule,if_neg (by omega)]
    exact Int.add_le_add_left hcapped now

/-- So does a timeout. -/
theorem timeoutOutcome_spaced (name : QueueName) (float : SerdeJson.FloatReader)
    {policy : ReservationTimeoutPolicy} {attempts : ℤ} (h : 1 ≤ attempts)
    (hlt : attempts < policy.maxAttempts) (now previous : Timestamp) :
    now+seconds (spacing name attempts) ≤
      ((name.queue float).timeoutOutcome policy attempts now previous).2 := by
  cases name with
  | commands =>
    refine Int.add_le_add_left (?_ : seconds (30*min attempts 4) ≤ seconds (30*attempts)) now
    simp only [seconds]
    omega
  | events =>
    refine Int.add_le_add_left (?_ : seconds (30*min attempts 4) ≤ seconds (attempts*30)) now
    simp only [seconds]
    omega
  | inbox =>
    refine Int.add_le_add_left (?_ : seconds (30*attempts) ≤ seconds (attempts*30)) now
    simp only [seconds]
    omega
  | outbox =>
    change _ ≤ (outboxOutcome policy attempts now previous).2
    rw [outboxOutcome,if_neg (not_le.mpr hlt)]
    refine Int.add_le_add_left (?_ : seconds (30*min attempts 4) ≤
      seconds (min (max attempts 1*30) 120)) now
    simp only [seconds]
    omega

/-- What an attempt leaves of a row until the next one: it is still reserved, it
is done, it has no attempt left, or it is not due before a delay has passed. -/
def Spaced (name : QueueName) (maxAttempts attempts : ℤ) (since : Timestamp) (r : Row q.Own) :
    Prop :=
  r.attempts = attempts ∧ (r.status = Status.reserved.code ∨ Terminal r ∨ maxAttempts ≤ attempts ∨
    since+seconds (spacing name attempts) ≤ r.scheduledAt)

variable {name : QueueName} {float : SerdeJson.FloatReader} {since now : Timestamp}
  {attempts : ℤ}

/-- A failed row waits for its delay. -/
theorem spaced_failed {r : Row (name.queue float).Own} (hk : 1 ≤ r.attempts)
    (hnow : since ≤ now) (extraInfo : Option Jsonb) (reason : Option String) :
    Spaced name maxAttempts r.attempts since
      (failedRow extraInfo r.attempts maxAttempts reason now r) := by
  refine ⟨rfl,.inr (.inr ?_)⟩
  by_cases hlt : r.attempts < maxAttempts
  · refine .inr (le_trans ?_ (failureSchedule_spaced name float hk hlt now r.scheduledAt))
    exact Int.add_le_add_right hnow _
  · exact .inl (not_lt.mp hlt)

/-- A swept row waits for its delay. -/
theorem spaced_swept {r : Row (name.queue float).Own} (hk : 1 ≤ r.attempts)
    (hnow : since ≤ now) (policy : ReservationTimeoutPolicy) (extraInfo : Jsonb) :
    Spaced name policy.maxAttempts r.attempts since (sweptRow policy now extraInfo r) := by
  refine ⟨rfl,.inr (.inr ?_)⟩
  by_cases hlt : r.attempts < policy.maxAttempts
  · refine .inr (le_trans ?_ (timeoutOutcome_spaced name float hk hlt now r.scheduledAt))
    exact Int.add_le_add_right hnow _
  · exact .inl (not_lt.mp hlt)

/-- A selected row is reserved, or has failed inside the reservation. -/
theorem spaced_selected {r : Row (name.queue float).Own} (hk : 0 ≤ r.attempts)
    (spec : ReservableSpec) (draw : ReserveDraw (name.queue float)) :
    Spaced name spec.maxAttempts (r.attempts+1) draw.now (reservedAndSettled spec draw r) := by
  rcases reservedAndSettled_cases spec draw r with ⟨_,hx⟩ | ⟨error,_,hx⟩ <;> rw [hx]
  · exact ⟨rfl,.inl rfl⟩
  · have hk' : 1 ≤ (reservedRow draw.token draw.now r).attempts := by
      change 1 ≤ r.attempts+1
      omega
    exact spaced_failed hk' (le_refl draw.now) _ _

/-- Until a row is selected again, every call keeps the spacing. -/
theorem Spaced.step {s : Rows (name.queue float)} {c : Call (name.queue float)}
    {r r' : Row (name.queue float).Own} (h : Spaced name maxAttempts attempts since r)
    (hk : 1 ≤ attempts) (hm : RowMove s c r r') (hsel : selects r.id s c = false)
    (hl : Call.limitedTo maxAttempts c) (hnow : since ≤ Call.now c) :
    Spaced name maxAttempts attempts since r' := by
  obtain ⟨rfl,hcase⟩ := h
  cases hm with
  | kept _ _ _ => exact ⟨rfl,hcase⟩
  | selected _ hsel' _ =>
    rw [hsel] at hsel'
    cases hsel'
  | @ended f token now _ hc _ _ hw =>
    subst hc
    cases hw with
    | completed hf =>
      refine ⟨rfl,.inr (.inl ?_)⟩
      simp [Terminal,completedRow,Status.code]
    | @failed limit reason extraInfo hf he =>
      subst hf
      obtain rfl : limit = maxAttempts := hl
      exact spaced_failed hk hnow extraInfo reason
    | dead hf _ _ =>
      refine ⟨rfl,.inr (.inl ?_)⟩
      simp [Terminal,deadRow,Status.code]
  | @swept spec now _ hc _ _ he =>
    subst hc
    obtain ⟨j,_,rfl⟩ := sweepRow_ok he
    obtain rfl : spec.maxAttempts = maxAttempts := hl
    exact spaced_swept hk hnow (StaleSpec.policy spec now) j

/-- A reservation that selects a row leaves it spaced. -/
theorem spaced_of_selects {s : Rows (name.queue float)} {c : Call (name.queue float)}
    {r r' : Row (name.queue float).Own} (hk : 0 ≤ r.attempts) (hm : RowMove s c r r')
    (hsel : selects r.id s c = true) (hl : Call.limitedTo maxAttempts c) :
    Spaced name maxAttempts r'.attempts (Call.now c) r' := by
  cases hm with
  | kept hno _ _ => rw [hsel] at hno; cases hno
  | @selected spec draw hc _ _ =>
    subst hc
    obtain rfl : spec.maxAttempts = maxAttempts := hl
    have hs := spaced_selected hk spec draw
    rwa [← hs.1] at hs
  | ended hc _ _ _ => subst hc; cases hsel
  | swept hc _ _ _ => subst hc; cases hsel

/-- A run that does not select a row again, at times that do not run backwards, keeps
the spacing. -/
theorem spaced_run {t : Rows (name.queue float)} {calls : List (Call (name.queue float))}
    {i j : ℕ} {r : Row (name.queue float).Own} (h : Spaced name maxAttempts attempts since r)
    (hk : 1 ≤ attempts) (hf : (stateAt step t calls i).find? id = some r) (hij : i ≤ j)
    (hall : ∀ c ∈ calls, Call.limitedTo maxAttempts c)
    (hnow : ∀ m (hm : m < calls.length), i ≤ m → m < j → since ≤ Call.now calls[m])
    (hnone : ∀ m (hm : m < calls.length), i ≤ m → m < j →
      selects id (stateAt step t calls m) calls[m] = false) (hj : j ≤ calls.length) :
    ∃ r', (stateAt step t calls j).find? id = some r' ∧
      Spaced name maxAttempts attempts since r' := by
  by_contra hlost
  obtain ⟨m,him,hmj,⟨r₁,hf₁,hs₁⟩,hno⟩ := lost_at step (fun s => ∃ r', s.find? id = some r' ∧
    Spaced name maxAttempts attempts since r') hij ⟨r,hf,h⟩ hlost
  have hm : m < calls.length := by omega
  obtain ⟨r₂,hf₂,hmove⟩ := row_move calls[m] hf₁
  have hsel := hnone m hm him hmj
  rw [← Table.key_of_find? hf₁] at hsel
  refine hno ⟨r₂,(stateAt_succ step t calls hm).symm ▸ hf₂,?_⟩
  exact hs₁.step hk hmove hsel (hall _ (List.getElem_mem hm)) (hnow m hm him hmj)

/-- A selected row was due, so its delay had passed. -/
theorem Spaced.selected {s : Rows (name.queue float)} {c : Call (name.queue float)}
    {r r' : Row (name.queue float).Own} (h : Spaced name maxAttempts attempts since r)
    (hm : RowMove s c r r') (hsel : selects r.id s c = true) (hl : Call.limitedTo maxAttempts c) :
    since+seconds (spacing name attempts) ≤ Call.now c := by
  obtain ⟨rfl,hcase⟩ := h
  cases hm with
  | kept hno _ _ =>
    rw [hsel] at hno
    cases hno
  | @selected spec draw hc _ he =>
    subst hc
    obtain rfl : spec.maxAttempts = maxAttempts := hl
    simp only [eligible,Bool.and_eq_true,Bool.or_eq_true,decide_eq_true_eq] at he
    rcases hcase with hr | ht | hle | hdue
    · rcases he.1.1 with h | h <;> rw [h] at hr <;> simp [Status.code] at hr
    · exact absurd he.1.1 (by simp [ht.1,ht.2.1])
    · omega
    · exact le_trans hdue he.1.2
  | ended hc _ _ _ => subst hc; cases hsel
  | swept hc _ _ _ => subst hc; cases hsel

/-- A row that starts with no negative attempts, now or later, keeps none. -/
theorem attempts_nonneg (calls : List (Call q))
    (h : ∀ r, t.find? id = some r → 0 ≤ r.attempts) {i : ℕ} (hi : i ≤ calls.length) :
    ∀ r, (stateAt step t calls i).find? id = some r → 0 ≤ r.attempts := by
  refine invariant step (fun s => ∀ r, s.find? id = some r → 0 ≤ r.attempts) h ?_ i hi
  intro j hj hs r' hf'
  cases hf : (stateAt step t calls j).find? id with
  | some r =>
    obtain ⟨r'',hf'',hmove⟩ := row_move calls[j] hf
    rw [hf'] at hf''
    cases hf''
    rw [hmove.attempts.1]
    have := hs r hf
    split <;> omega
  | none =>
    have hstep := step_row (stateAt step t calls j) calls[j] id
    rw [hf,hf'] at hstep
    cases hstep with
    | recorded _ _ _ => exact le_refl _

/-- Retry spacing: with one retry limit and a clock that does not run backwards,
the next reservation that selects a row comes at least a delay after the last
one, whichever call released the row in between. -/
theorem retry_spacing (name : QueueName) (float : SerdeJson.FloatReader)
    (t : Rows (name.queue float)) (calls : List (Call (name.queue float))) (maxAttempts : ℤ)
    (hall : ∀ c ∈ calls, Call.limitedTo maxAttempts c)
    (hclock : calls.Pairwise fun a b => Call.now a ≤ Call.now b) {id : Uuid}
    (hstart : ∀ r, t.find? id = some r → 0 ≤ r.attempts) {i j : ℕ} (hi : i < calls.length)
    (hj : j < calls.length) (hij : i < j)
    (hfirst : selects id (stateAt step t calls i) calls[i] = true)
    (hnext : selects id (stateAt step t calls j) calls[j] = true)
    (hnone : ∀ m (hm : m < calls.length), i < m → m < j →
      selects id (stateAt step t calls m) calls[m] = false) :
    ∃ r, (stateAt step t calls (i+1)).find? id = some r ∧
      Call.now calls[i]+seconds (spacing name r.attempts) ≤ Call.now calls[j] ∧
      Call.now calls[i] < Call.now calls[j] := by
  obtain ⟨r,hf⟩ := found_of_selects hfirst
  have hid := Table.key_of_find? hf
  have hn := attempts_nonneg calls hstart (by omega) r hf
  obtain ⟨r',hf',hmove⟩ := row_move calls[i] hf
  have hpos : 1 ≤ r'.attempts := by
    rw [hmove.attempts.1,hid,hfirst,if_pos rfl]
    omega
  have hspaced : Spaced name maxAttempts r'.attempts (Call.now calls[i]) r' :=
    spaced_of_selects hn hmove (hid ▸ hfirst) (hall _ (List.getElem_mem hi))
  rw [← stateAt_succ step t calls hi] at hf'
  -- the spacing lasts until the next reservation that selects the row
  obtain ⟨r₂,hf₂,hs₂⟩ := spaced_run hspaced hpos hf' hij hall
    (fun m hm him _ => List.pairwise_iff_getElem.mp hclock i m hi hm him)
    (fun m hm him hmj => hnone m hm him hmj) (Nat.le_of_lt hj)
  obtain ⟨r₃,_,hmove₃⟩ := row_move calls[j] hf₂
  rw [← Table.key_of_find? hf₂] at hnext
  have hwait := hs₂.selected hmove₃ hnext (hall _ (List.getElem_mem hj))
  have hlong := spacing_pos name hpos
  refine ⟨r',hf',hwait,lt_of_lt_of_le ?_ hwait⟩
  exact Int.lt_add_of_pos_right _ hlong

/-- A command that fails, and is reserved again as soon as it is due. -/
def retriedCalls : List (Call (QueueName.commands.queue .integersOnly)) :=
  [.reserve singleSpec (plainDraw (.fromU128 7) 0),
    .finalize (.failed 6 none) (.fromU128 1) (.fromU128 7) 1,
    .reserve singleSpec (plainDraw (.fromU128 8) 30000001)]

theorem retry_spacing_retriedCalls :
    ∃ r, (stateAt step waitingTable retriedCalls 1).find? (.fromU128 1) = some r ∧
      0+seconds (spacing .commands r.attempts) ≤ 30000001 ∧ (0 : ℤ) < 30000001 :=
  retry_spacing .commands .integersOnly waitingTable retriedCalls 6
    (by simp [retriedCalls,Call.limitedTo,singleSpec])
    (by simp [retriedCalls,Call.now,plainDraw])
    (fun r hr => by cases hr; decide) (i:=0) (j:=2) (by decide) (by decide) (by decide)
    (by decide) (by decide) fun m _ h0 h2 => by
      obtain rfl : m = 1 := by omega
      rfl

end Spacing

end Mulac.RowLifetimes