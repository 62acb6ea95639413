import Mulac.Repository

/-!
# What each repository call does

One contract for each call: when a finalization succeeds and what it leaves,
that a refused call leaves the table alone, that a reservation is one update of
the picked rows, and when a sweep goes through. Later modules use these and
never unfold a call.
-/

namespace Mulac.RepositoryContracts

open JsonValue Identifiers Postgres SerdeJson QueueDomain KeyedTable OrderedSelection QueueRow
  Repository

variable {q : Queue} {t : Rows q} {r : Row q.Own} {id token : Uuid}

section Ownership

/-- The row under an id is reserved under a token. -/
def Holds (t : Rows q) (id token : Uuid) : Prop :=
  ∃ r, t.find? id = some r ∧ r.heldBy token = true

instance (t : Rows q) (id token : Uuid) : Decidable (Holds t id token) :=
  decidable_of_iff ((t.find? id).any fun r => r.heldBy token) (by simp [Holds,Option.any_eq_true])

theorem not_holds : ¬Holds t id token ↔ ∀ r, t.find? id = some r → r.heldBy token = false := by
  simp [Holds]

/-- A guarded statement meets one row when the reservation is held. -/
theorem countP_owned (h : t.find? id = some r) (hr : r.heldBy token = true) :
    t.rows.countP (ownedBy id token) = 1 := by
  have hc := t.countP_guarded id fun r => r.heldBy token
  simp only [h,hr,if_true] at hc
  exact hc

/-- A guarded statement meets no row when it is not. -/
theorem countP_not_owned (h : ¬Holds t id token) : t.rows.countP (ownedBy id token) = 0 := by
  have hc := t.countP_guarded id fun r => r.heldBy token
  cases hf : t.find? id with
  | none => rw [hf] at hc; exact hc
  | some r =>
    simp only [hf,not_holds.mp h r hf,Bool.false_eq_true,if_false] at hc
    exact hc

theorem find?_owned (h : t.find? id = some r) (hr : r.heldBy token = true) :
    t.rows.find? (ownedBy id token) = some r := by
  have hf := t.find?_guarded id fun r => r.heldBy token
  simp only [h,Option.filter_some,hr,if_true] at hf
  exact hf

theorem find?_not_owned (h : ¬Holds t id token) : t.rows.find? (ownedBy id token) = none := by
  have hg := t.find?_guarded id fun r => r.heldBy token
  cases hf : t.find? id with
  | none => rw [hf] at hg; exact hg
  | some r =>
    simp only [hf,Option.filter_some,not_holds.mp h r hf,Bool.false_eq_true,if_false] at hg
    exact hg

/-- The guarded update of a held row. -/
theorem update_owned (h : t.find? id = some r) (hr : r.heldBy token = true)
    {f : Row q.Own → Row q.Own} (hf : ∀ r, (f r).id = r.id) :
    t.update (ownedBy id token) f hf = t.updateAt id f hf :=
  t.update_guarded id hf h hr

/-- The guarded update without the reservation. -/
theorem update_not_owned (h : ¬Holds t id token) {f : Row q.Own → Row q.Own}
    (hf : ∀ r, (f r).id = r.id) : t.update (ownedBy id token) f hf = t :=
  t.update_unguarded id hf (not_holds.mp h)

end Ownership

section Completion

/-- The owner completes its row. -/
theorem completed_of_held (h : t.find? id = some r) (hr : r.heldBy token = true)
    (now : Timestamp) :
    completed t id token now = (.ok (),t.updateAt id (completedRow now) (completedRow_id now)) := by
  unfold completed
  rw [countP_owned h hr,update_owned h hr]
  rfl

/-- Nobody else completes it. -/
theorem completed_of_not_held (h : ¬Holds t id token) (now : Timestamp) :
    completed t id token now = (.error (q.notOwned id token),t) := by
  unfold completed
  rw [countP_not_owned h,update_not_owned h]
  rfl

end Completion

section Failure

/-- The `extra_info` that a storable reason leaves. -/
def recordedExtraInfo (float : FloatReader) (original : Option Jsonb) (reason : String)
    (h : nulFree reason = true) : Jsonb :=
  ⟨appendFailure (rawExtraInfo float original) reason,by
    rw [appendFailure_storable (rawExtraInfo_storable float original)]; exact h⟩

theorem failureExtraInfo_eq (float : FloatReader) (original : Option Jsonb) {reason : String}
    (h : nulFree reason = true) : failureExtraInfo float original (some reason) =
      .ok (some (recordedExtraInfo float original reason h)) := by
  rw [failureExtraInfo,castJsonb_ok]
  rfl

/-- The recorded history decodes and ends with the reason. -/
theorem readExtraInfo_recorded (float : FloatReader) (original : Option Jsonb) {reason : String}
    (h : nulFree reason = true) : readExtraInfo (some (recordedExtraInfo float original reason h)) =
      some (some ⟨keptErrors (rawExtraInfo float original)++[reason]⟩) :=
  readExtraInfo_failure (failureExtraInfo_eq float original h)

theorem bindTexts_failure {reason : Option String} (h : ∀ s, reason = some s → nulFree s = true) :
    bindTexts (q.failureTexts reason) = .ok () :=
  bindTexts_of_nulFree fun s hs => h s (q.failureTexts_reason reason s hs)

/-- The owner's failure write, when its reason can be stored. -/
theorem writeFailure_of_held (h : t.find? id = some r) (hr : r.heldBy token = true)
    {original extraInfo : Option Jsonb} {reason : Option String}
    (hs : ∀ s, reason = some s → nulFree s = true)
    (he : failureExtraInfo q.float original reason = .ok extraInfo)
    (attempts maxAttempts : ℤ) (now : Timestamp) :
    writeFailure t id token attempts original maxAttempts reason now =
      .ok (t.updateAt id (failedRow extraInfo attempts maxAttempts reason now)
        (failedRow_id extraInfo attempts maxAttempts reason now)) := by
  unfold writeFailure
  rw [he,bindTexts_failure hs,countP_owned h hr,← update_owned h hr]
  rfl

/-- The owner fails its row with a reason that can be stored. -/
theorem failed_of_held (h : t.find? id = some r) (hr : r.heldBy token = true)
    {extraInfo : Option Jsonb} {maxAttempts : ℤ} {reason : Option String}
    (hs : ∀ s, reason = some s → nulFree s = true)
    (he : failureExtraInfo q.float r.extraInfo reason = .ok extraInfo) (now : Timestamp) :
    failed t id token maxAttempts reason now =
      (.ok (),t.updateAt id (failedRow extraInfo r.attempts maxAttempts reason now)
        (failedRow_id extraInfo r.attempts maxAttempts reason now)) := by
  have hw := writeFailure_of_held h hr hs he r.attempts maxAttempts now
  have hf : recordFailure t id token maxAttempts reason now =
      .ok (t.updateAt id (failedRow extraInfo r.attempts maxAttempts reason now)
        (failedRow_id extraInfo r.attempts maxAttempts reason now)) := by
    rw [recordFailure,find?_owned h hr]
    exact hw
  rw [failed,transaction_of_ok (by rw [hf]; rfl)]
  rfl

/-- Nobody else fails it. -/
theorem failed_of_not_held (h : ¬Holds t id token) (maxAttempts : ℤ) (reason : Option String)
    (now : Timestamp) :
    failed t id token maxAttempts reason now = (.error (q.notOwned id token),t) := by
  have hf : recordFailure t id token maxAttempts reason now = .error .notFound := by
    rw [recordFailure,find?_not_owned h]
  rw [failed,transaction_of_error (by rw [hf]; rfl)]
  rfl

/-- A failure that is refused leaves the table alone. -/
theorem failed_of_error {maxAttempts : ℤ} {reason : Option String} {now : Timestamp} {e : q.Error}
    (h : (failed t id token maxAttempts reason now).1 = .error e) :
    (failed t id token maxAttempts reason now).2 = t :=
  transaction_unchanged h

/-- A reason with U+0000 is refused, also to the owner. -/
theorem failed_of_nul {s : String} (hs : nulFree s = false) (maxAttempts : ℤ) (now : Timestamp) :
    ∃ e, failed t id token maxAttempts (some s) now = (.error e,t) := by
  by_cases h : Holds t id token
  · obtain ⟨r,hf,hr⟩ := h
    obtain ⟨d,hd⟩ := failureExtraInfo_error q.float r.extraInfo hs
    have hw : recordFailure t id token maxAttempts (some s) now = .error d := by
      rw [recordFailure,find?_owned hf hr]
      change writeFailure _ _ _ _ _ _ _ _ = _
      rw [writeFailure,hd]
      rfl
    rw [failed,transaction_of_error (by rw [hw]; rfl)]
    exact ⟨_,rfl⟩
  · exact ⟨_,failed_of_not_held h maxAttempts (some s) now⟩

end Failure

section Terminal

theorem deadHistory_storable {extraInfo : Option Jsonb} {history : Option ExtraInfo}
    {reason : Option String} (h : readExtraInfo extraInfo = some history)
    (hs : ∀ s, reason = some s → nulFree s = true) {info : ExtraInfo}
    (hi : deadHistory history reason = some info) :
    (encodeExtraInfo info).allTexts nulFree = true := by
  have hh : ∀ i, history = some i → ∀ e ∈ i.errors, nulFree e = true := by
    rintro i rfl
    cases extraInfo with
    | none => cases h
    | some j =>
      obtain ⟨i',hi',he⟩ := Option.map_eq_some_iff.mp h
      cases he
      exact decodeExtraInfo_storable hi'
  rw [encodeExtraInfo_storable]
  cases reason with
  | none => exact hh info hi
  | some s =>
    cases hi
    intro e he
    rcases List.mem_append.mp he with he | he
    · cases history with
      | none => cases he
      | some i => exact hh i rfl e he
    · rw [List.mem_singleton.mp he]
      exact hs s rfl

theorem bindHistory_ok {extraInfo : Option Jsonb} {history : Option ExtraInfo}
    {reason : Option String} (h : readExtraInfo extraInfo = some history)
    (hs : ∀ s, reason = some s → nulFree s = true) :
    ∃ e, readExtraInfo e = some (deadHistory history reason) ∧
      bindHistory (deadHistory history reason) = .ok e := by
  cases hi : deadHistory history reason with
  | none => exact ⟨none,rfl,rfl⟩
  | some info =>
    have hc := castJsonb_ok (deadHistory_storable h hs hi)
    refine ⟨some ⟨encodeExtraInfo info,deadHistory_storable h hs hi⟩,?_,?_⟩
    · simp [readExtraInfo]
    · rw [bindHistory,hc]
      rfl

/-- The owner ends its row, when its history decodes and the reason can be stored. -/
theorem dead_of_held (h : t.find? id = some r) (hr : r.heldBy token = true)
    {history : Option ExtraInfo} (hh : readExtraInfo r.extraInfo = some history)
    {reason : Option String} (hs : ∀ s, reason = some s → nulFree s = true) (now : Timestamp) :
    ∃ extraInfo, readExtraInfo extraInfo = some (deadHistory history reason) ∧
      bindHistory (deadHistory history reason) = .ok extraInfo ∧ dead t id token reason now =
        (.ok (),t.updateAt id (deadRow extraInfo reason now)
          (deadRow_id extraInfo reason now)) := by
  have hb : bindTexts reason.toList = .ok () :=
    bindTexts_of_nulFree fun s hm => hs s (by simpa using hm)
  obtain ⟨extraInfo,hx,he⟩ := bindHistory_ok hh hs
  have hd : recordDead t id token reason now = .ok (t.updateAt id (deadRow extraInfo reason now)
      (deadRow_id extraInfo reason now)) := by
    rw [recordDead,find?_owned h hr]
    dsimp only
    rw [hh,hb,countP_owned h hr,← update_owned h hr]
    change (do let extraInfo ← bindHistory (deadHistory history reason); _) = _
    rw [he]
    rfl
  refine ⟨extraInfo,hx,he,?_⟩
  rw [dead,transaction_of_ok (by rw [hd]; rfl)]
  rfl

/-- Nobody else ends it. -/
theorem dead_of_not_held (h : ¬Holds t id token) (reason : Option String) (now : Timestamp) :
    dead t id token reason now = (.error (q.notOwned id token),t) := by
  have hf : recordDead t id token reason now = .error .notFound := by
    rw [recordDead,find?_not_owned h]
  rw [dead,transaction_of_error (by rw [hf]; rfl)]
  rfl

/-- A history that does not decode refuses the terminal transition. -/
theorem dead_of_undecodable (h : t.find? id = some r) (hr : r.heldBy token = true)
    (hh : readExtraInfo r.extraInfo = none) (reason : Option String) (now : Timestamp) :
    ∃ e, dead t id token reason now = (.error e,t) := by
  have hf : ∃ d, recordDead t id token reason now = .error d := by
    rw [recordDead,find?_owned h hr]
    dsimp only
    rw [hh]
    exact ⟨_,rfl⟩
  obtain ⟨d,hd⟩ := hf
  rw [dead,transaction_of_error (by rw [hd]; rfl)]
  exact ⟨_,rfl⟩

/-- A reason with U+0000 is refused, also to the owner. -/
theorem dead_of_nul {s : String} (hs : nulFree s = false) (now : Timestamp) :
    ∃ e, dead t id token (some s) now = (.error e,t) := by
  have hf : ∃ d, recordDead t id token (some s) now = .error d := by
    unfold recordDead
    cases t.rows.find? (ownedBy id token) with
    | none => exact ⟨_,rfl⟩
    | some r =>
      dsimp only
      cases readExtraInfo r.extraInfo with
      | none => exact ⟨_,rfl⟩
      | some history =>
        obtain ⟨d,hd⟩ := bindTexts_error (List.mem_singleton_self s) hs
        refine ⟨d,?_⟩
        change (do bindTexts [s]; _) = _
        rw [hd]
        rfl
  obtain ⟨d,hd⟩ := hf
  rw [dead,transaction_of_error (by rw [hd]; rfl)]
  exact ⟨_,rfl⟩

/-- A terminal transition that is refused leaves the table alone. -/
theorem dead_of_error {reason : Option String} {now : Timestamp} {e : q.Error}
    (h : (dead t id token reason now).1 = .error e) : (dead t id token reason now).2 = t :=
  transaction_unchanged h

end Terminal

section Record

/-- A recorded entry is inserted, or the table stays as it was. -/
theorem record_cases (t : Rows q) (entry : q.NewEntry) (appNow now : Timestamp) :
    (∃ n metadata, q.newRow entry appNow now = .ok n ∧ metadata.value = n.metadata ∧
        record t entry appNow now = (.ok (),t.insertNew (storedRow n metadata))) ∨
      ∃ e, record t entry appNow now = (.error e,t) := by
  unfold record
  cases hn : q.newRow entry appNow now with
  | error e => exact .inr ⟨e,rfl⟩
  | ok n =>
    dsimp only
    cases hi : insertInto t n with
    | error e => exact .inr ⟨_,rfl⟩
    | ok t' =>
      refine .inl ⟨n,?_⟩
      unfold insertInto at hi
      cases hb : bindTexts (n.payload::q.ownTexts n.own) with
      | error e => rw [hb] at hi; cases hi
      | ok u =>
        cases hc : castJsonb n.metadata with
        | error e => rw [hb,hc] at hi; cases hi
        | ok metadata =>
          rw [hb,hc] at hi
          cases hi
          exact ⟨metadata,rfl,(castJsonb_eq_ok.mp hc).symm,rfl⟩

/-- The texts that an insertion sends to Postgres can be stored. -/
def NewRow.storable (n : NewRow q.Own) : Bool :=
  nulFree n.payload && (q.ownTexts n.own).all nulFree && n.metadata.allTexts nulFree

/-- An entry whose texts can be stored is recorded. -/
theorem record_of_storable {entry : q.NewEntry} {appNow now : Timestamp} {n : NewRow q.Own}
    (hn : q.newRow entry appNow now = .ok n) (hs : NewRow.storable n = true) (t : Rows q) :
    ∃ metadata, metadata.value = n.metadata ∧
      record t entry appNow now = (.ok (),t.insertNew (storedRow n metadata)) := by
  simp only [NewRow.storable,Bool.and_eq_true,List.all_eq_true] at hs
  have hb : bindTexts (n.payload::q.ownTexts n.own) = .ok () :=
    bindTexts_of_nulFree fun s hm => (List.mem_cons.mp hm).elim (fun h => h ▸ hs.1.1) (hs.1.2 s)
  refine ⟨⟨n.metadata,hs.2⟩,rfl,?_⟩
  have hi : insertInto t n = .ok (t.insertNew (storedRow n ⟨n.metadata,hs.2⟩)) := by
    rw [insertInto,hb,castJsonb_ok hs.2]
    rfl
  rw [record,hn]
  dsimp only
  rw [hi]

/-- One text with U+0000 refuses the whole entry. -/
theorem record_of_not_storable {entry : q.NewEntry} {appNow now : Timestamp} {n : NewRow q.Own}
    (hn : q.newRow entry appNow now = .ok n) (hs : NewRow.storable n = false) (t : Rows q) :
    ∃ e, record t entry appNow now = (.error e,t) := by
  have hi : ∃ e, insertInto t n = .error e := by
    unfold insertInto
    cases hb : bindTexts (n.payload::q.ownTexts n.own) with
    | error e => exact ⟨e,rfl⟩
    | ok u =>
      have hm : n.metadata.allTexts nulFree = false := by
        by_contra hc
        have hall : ∀ s ∈ n.payload::q.ownTexts n.own, nulFree s = true := by
          intro s hsm
          by_contra hsn
          obtain ⟨e,he⟩ := bindTexts_error hsm (by simpa using hsn)
          rw [hb] at he
          cases he
        simp only [List.mem_cons,forall_eq_or_imp] at hall
        have : NewRow.storable n = true := by
          simp only [NewRow.storable,Bool.and_eq_true,List.all_eq_true]
          exact ⟨⟨hall.1,hall.2⟩,by simpa using hc⟩
        rw [this] at hs
        cases hs
      obtain ⟨e,he⟩ := castJsonb_error hm
      exact ⟨e,by rw [he]; rfl⟩
  obtain ⟨e,he⟩ := hi
  rw [record,hn]
  dsimp only
  rw [he]
  exact ⟨_,rfl⟩

end Record

section Decode

/-- Whether the history and the metadata of a row decode. -/
def decodes (r : Row q.Own) : Bool :=
  (readExtraInfo r.extraInfo).isSome && (q.readMetadata r.metadata).isOk

theorem decodes_iff : decodes r = true ↔
    ∃ history metadata, readExtraInfo r.extraInfo = some history ∧
      q.readMetadata r.metadata = .ok metadata := by
  unfold decodes
  cases readExtraInfo r.extraInfo <;> cases q.readMetadata r.metadata <;>
    simp [Except.isOk,Except.toBool]

/-- A reserved row that decodes is handed out with its own fields. -/
theorem decode_reserved (hr : r.heldBy token = true) {history : Option ExtraInfo}
    {metadata : q.Metadata} (hh : readExtraInfo r.extraInfo = some history)
    (hm : q.readMetadata r.metadata = .ok metadata) :
    ∃ e, decode r = .ok e ∧
      q.handed e = ⟨r.id,some token,r.payload,metadata,history,r.attempts⟩ := by
  obtain ⟨ht,hs⟩ := Row.heldBy_iff.mp hr
  obtain ⟨e,he,hd⟩ := q.envelope_reserved r token metadata history hs
  refine ⟨e,?_,hd⟩
  unfold decode
  rw [hh,ht,hm]
  exact he

/-- An envelope is made from what its row reads as. -/
theorem decode_ok {e : q.Envelope} (h : decode r = .ok e) :
    ∃ history token metadata, readExtraInfo r.extraInfo = some history ∧
      q.readMetadata r.metadata = .ok metadata ∧
      q.envelope r token metadata history = .ok e := by
  unfold decode at h
  cases hh : readExtraInfo r.extraInfo with
  | none => rw [hh] at h; cases h
  | some history =>
    cases ht : r.reservationId with
    | none => rw [hh,ht] at h; cases h
    | some token =>
      cases hm : q.readMetadata r.metadata with
      | error d => rw [hh,ht,hm] at h; cases h
      | ok metadata =>
        rw [hh,ht,hm] at h
        exact ⟨history,token,metadata,rfl,rfl,h⟩

/-- A reserved row decodes exactly when its content does. -/
theorem decode_isOk (hr : r.heldBy token = true) : (decode r).isOk = decodes r := by
  cases hd : decodes r with
  | true =>
    obtain ⟨history,metadata,hh,hm⟩ := decodes_iff.mp hd
    obtain ⟨e,he,_⟩ := decode_reserved hr hh hm
    rw [he]
    rfl
  | false =>
    cases he : decode r with
    | error d => rfl
    | ok e =>
      obtain ⟨history,_,metadata,hh,hm,_⟩ := decode_ok he
      rw [decodes_iff.mpr ⟨history,metadata,hh,hm⟩] at hd
      cases hd

/-- An envelope carries the id of its row. -/
theorem decode_handed (hr : r.heldBy token = true) {e : q.Envelope} (h : decode r = .ok e) :
    (q.handed e).id = r.id ∧ (q.handed e).reservationId = some token := by
  have hd := decode_isOk hr
  rw [h] at hd
  obtain ⟨history,metadata,hh,hm⟩ := decodes_iff.mp hd.symm
  obtain ⟨e',he,hhanded⟩ := decode_reserved hr hh hm
  rw [h] at he
  cases he
  rw [hhanded]
  exact ⟨rfl,rfl⟩

end Decode

section Reservation

theorem reservationReason_nulFree (id token : Uuid) (error : DecodeError) :
    nulFree (reservationReason id token error) = true := by
  have hi : nulFree id.display = true := nulFree_iff.mpr id.display_no_nul
  have ht : nulFree token.display = true := nulFree_iff.mpr token.display_no_nul
  have hk : nulFree "item " = true ∧ nulFree ", reservation " = true ∧
      nulFree ", stage reservation: " = true := by decide
  simp only [reservationReason,nulFree_append]
  exact ⟨⟨⟨⟨⟨hk.1,hi⟩,hk.2.1⟩,ht⟩,hk.2.2⟩,error.text_nulFree⟩

/-- A claimed row that does not decode, released with its diagnostic. -/
def quarantinedRow (token : Uuid) (maxAttempts : ℤ) (now : Timestamp) (error : DecodeError)
    (r : Row q.Own) : Row q.Own :=
  failedRow (some (recordedExtraInfo q.float r.extraInfo (reservationReason r.id token error)
    (reservationReason_nulFree r.id token error))) r.attempts maxAttempts
    (some (reservationReason r.id token error)) now r

/-- What a reservation leaves of a row it has claimed: the row, or its failure. -/
def settledRow (token : Uuid) (maxAttempts : ℤ) (now : Timestamp) (r : Row q.Own) : Row q.Own :=
  match decode r with
  | .ok _ => r
  | .error error => quarantinedRow token maxAttempts now error r

@[simp] theorem settledRow_id (token : Uuid) (maxAttempts : ℤ) (now : Timestamp)
    (r : Row q.Own) : (settledRow token maxAttempts now r).id = r.id := by
  unfold settledRow
  split <;> rfl

/-- The whole of `finish_reservation`, over claimed rows of the table: the
decodable rows are handed out in order, and the others fail. -/
theorem finishReservation_eq (token : Uuid) (maxAttempts : ℤ) (now : Timestamp)
    (rows : List (Row q.Own)) (t : Rows q) (hn : (rows.map Row.id).Nodup)
    (hf : ∀ r ∈ rows, t.find? r.id = some r) (hh : ∀ r ∈ rows, r.heldBy token = true) :
    finishReservation token maxAttempts now rows t =
      .ok (rows.filterMap fun r => (decode r).toOption,
        t.update (fun r => decide (r.id ∈ rows.map Row.id)) (settledRow token maxAttempts now)
          (settledRow_id token maxAttempts now)) := by
  induction rows generalizing t with
  | nil =>
    rw [t.update_of_none _ (by simp)]
    rfl
  | cons r rows ih =>
    have hr := hh r (by simp)
    have hguard : ¬(r.reservationId ≠ some token ∨ r.status ≠ Status.reserved.code) := by
      have := Row.heldBy_iff.mp hr
      simp [this.1,this.2]
    rw [List.map_cons,List.nodup_cons] at hn
    rw [finishReservation,if_neg hguard]
    cases hd : decode r with
    | ok envelope =>
      dsimp only
      rw [ih t hn.2 (fun s hs => hf s (by simp [hs])) (fun s hs => hh s (by simp [hs]))]
      change Except.ok (envelope::_,_) = _
      rw [List.filterMap_cons,hd]
      congr 2
      -- the row itself is settled as it stands
      refine t.update_congr (settledRow_id token maxAttempts now)
        (settledRow_id token maxAttempts now) ?_
      intro s hs
      by_cases hsr : s.id = r.id
      · have he : s = r := t.row_eq hs (Table.mem_of_find? (hf r (by simp))) hsr
        simp [he,hn.1,settledRow,hd]
      · simp [hsr]
    | error error =>
      have hw := writeFailure_of_held (hf r (by simp)) hr
        (by rintro s ⟨⟩; exact reservationReason_nulFree r.id token error)
        (failureExtraInfo_eq q.float r.extraInfo (reservationReason_nulFree r.id token error))
        r.attempts maxAttempts now
      dsimp only
      rw [hw]
      change finishReservation token maxAttempts now rows _ = _
      rw [ih _ hn.2 _ (fun s hs => hh s (by simp [hs]))]
      · rw [List.filterMap_cons,hd]
        congr 2
        apply Table.ext
        rw [Table.updateAt,Table.update_update,Table.update_rows]
        apply List.map_congr_left
        intro s hs
        by_cases hsr : s.id = r.id
        · have he : s = r := t.row_eq hs (Table.mem_of_find? (hf r (by simp))) hsr
          simp [he,hn.1,settledRow,hd,quarantinedRow]
        · simp [hsr]
      · intro s hs
        have hne : s.id ≠ r.id := fun he => hn.1 (he ▸ List.mem_map_of_mem hs)
        rw [t.find?_updateAt_ne hne]
        exact hf s (by simp [hs])

/-- A claimed row is settled where it stands. -/
def reservedAndSettled (spec : ReservableSpec) (draw : ReserveDraw q) (r : Row q.Own) :
    Row q.Own :=
  settledRow draw.token spec.maxAttempts draw.now (reservedRow draw.token draw.now r)

@[simp] theorem reservedAndSettled_id (spec : ReservableSpec) (draw : ReserveDraw q)
    (r : Row q.Own) : (reservedAndSettled spec draw r).id = r.id := by
  simp [reservedAndSettled]

/-- The rows a reservation claims, as the update returns them. -/
def returnedRows (t : Rows q) (spec : ReservableSpec) (draw : ReserveDraw q) :
    List (Row q.Own) :=
  draw.returning.order ((t.rows.filter (picked t spec draw)).map (reservedRow draw.token draw.now))

theorem reservedRow_heldBy (token : Uuid) (now : Timestamp) (r : Row q.Own) :
    (reservedRow token now r).heldBy token = true := by
  simp [reservedRow,Row.heldBy]

theorem mem_returnedRows {spec : ReservableSpec} {draw : ReserveDraw q} {s : Row q.Own} :
    s ∈ returnedRows t spec draw ↔ ∃ r ∈ t.rows, picked t spec draw r = true ∧
      reservedRow draw.token draw.now r = s := by
  simp [returnedRows,Scan.mem,and_assoc]

theorem toOption_eq_some {ε α : Type} {x : Except ε α} {a : α} :
    x.toOption = some a ↔ x = .ok a := by
  cases x <;> simp [Except.toOption]

/-- A reservation returns the selected rows that decode. -/
theorem mem_returned {spec : ReservableSpec} {draw : ReserveDraw q} {e : q.Envelope} :
    e ∈ (returnedRows t spec draw).filterMap (fun r => (decode r).toOption) ↔
      ∃ r ∈ t.rows, picked t spec draw r = true ∧
        decode (reservedRow draw.token draw.now r) = .ok e := by
  rw [List.mem_filterMap]
  constructor
  · rintro ⟨_,hx,hd⟩
    obtain ⟨r,hr,hp,rfl⟩ := mem_returnedRows.mp hx
    exact ⟨r,hr,hp,toOption_eq_some.mp hd⟩
  · rintro ⟨r,hr,hp,hd⟩
    exact ⟨_,mem_returnedRows.mpr ⟨r,hr,hp,rfl⟩,toOption_eq_some.mpr hd⟩

theorem returnedRows_nodup (t : Rows q) (spec : ReservableSpec) (draw : ReserveDraw q) :
    ((returnedRows t spec draw).map Row.id).Nodup := by
  have hp := (draw.returning.perm ((t.rows.filter (picked t spec draw)).map
    (reservedRow draw.token draw.now))).map Row.id
  rw [returnedRows,hp.nodup_iff,List.map_map]
  exact (List.filter_sublist.map _).nodup t.keys_nodup

/-- Below the limit that an `i64` can hold, a reservation is one update of the
picked rows, and hands out those that decode. -/
theorem reserve_eq (t : Rows q) {spec : ReservableSpec} (hl : spec.limit < 2^63)
    (draw : ReserveDraw q) :
    reserve t spec draw =
      (.ok ((returnedRows t spec draw).filterMap fun r => (decode r).toOption),
        t.update (picked t spec draw) (reservedAndSettled spec draw)
          (reservedAndSettled_id spec draw)) := by
  have hlimit : ¬spec.boundLimit < 0 := by
    rw [ReservableSpec.boundLimit,if_pos hl]
    omega
  have hp : ∀ r : Row q.Own, picked t spec draw (reservedRow draw.token draw.now r) =
      picked t spec draw r := fun _ => rfl
  have hrows : draw.returning.order (((t.update (picked t spec draw)
      (reservedRow draw.token draw.now) (reservedRow_id draw.token draw.now)).rows).filter
        (picked t spec draw)) = returnedRows t spec draw := by
    rw [returnedRows,Table.update_rows,List.filter_map]
    congr 1
    have he : (picked t spec draw ∘ fun r =>
        if picked t spec draw r then reservedRow draw.token draw.now r else r) =
          picked t spec draw := by
      funext r
      by_cases hr : picked t spec draw r = true <;> simp [hr,hp]
    rw [he]
    apply List.map_congr_left
    intro r hr
    simp [(List.mem_filter.mp hr).2]
  have hbody : reserveBody spec draw t = .ok
      ((returnedRows t spec draw).filterMap fun r => (decode r).toOption,
        t.update (picked t spec draw) (reservedAndSettled spec draw)
          (reservedAndSettled_id spec draw)) := by
    rw [reserveBody,if_neg hlimit]
    dsimp only
    rw [hrows,finishReservation_eq _ _ _ _ _ (returnedRows_nodup t spec draw)]
    · congr 2
      apply Table.ext
      rw [Table.update_update,Table.update_rows]
      apply List.map_congr_left
      intro r hr
      by_cases hpr : picked t spec draw r = true
      · have hm : r.id ∈ (returnedRows t spec draw).map Row.id :=
          List.mem_map.mpr ⟨_,mem_returnedRows.mpr ⟨r,hr,hpr,rfl⟩,rfl⟩
        simp only [hpr,if_true,reservedRow_id,hm,decide_true]
        rfl
      · have hm : r.id ∉ (returnedRows t spec draw).map Row.id := by
          intro hm
          obtain ⟨s,hs,hid⟩ := List.mem_map.mp hm
          obtain ⟨r',hr',hpr',rfl⟩ := mem_returnedRows.mp hs
          exact hpr (t.row_eq hr' hr hid ▸ hpr')
        simp [hpr,hm]
    · intro s hs
      obtain ⟨r,hr,hpr,rfl⟩ := mem_returnedRows.mp hs
      rw [reservedRow_id,Table.find?_update,Table.find?_key hr]
      simp [hpr]
    · intro s hs
      obtain ⟨r,_,_,rfl⟩ := mem_returnedRows.mp hs
      exact reservedRow_heldBy draw.token draw.now r
  rw [reserve,transaction_of_ok hbody]
  rfl

/-- From 2^63 on the limit turns negative and Postgres refuses the statement. -/
theorem reserve_of_limit (t : Rows q) {spec : ReservableSpec} (hl : ¬spec.limit < 2^63)
    (draw : ReserveDraw q) :
    reserve t spec draw = (.error (q.reserveError "LIMIT must not be negative"),t) := by
  have hneg : spec.boundLimit < 0 := by
    have := spec.limit_lt
    rw [ReservableSpec.boundLimit,if_neg hl]
    omega
  have hbody : reserveBody spec draw t = .error (.database "LIMIT must not be negative") := by
    rw [reserveBody,if_pos hneg]
  rw [reserve,transaction_of_error hbody]
  rfl

/-- Every picked row passes the filter of the candidates query. -/
theorem eligible_of_picked {spec : ReservableSpec} {draw : ReserveDraw q} (hr : r ∈ t.rows)
    (hp : picked t spec draw r = true) :
    eligible spec draw.now r = true ∧ draw.locked r.id = false := by
  obtain ⟨s,hs,hid⟩ := List.mem_map.mp (of_decide_eq_true hp)
  have hm := List.mem_filter.mp (firstBy_subset hs)
  have he : s = r := t.row_eq (draw.candidates.mem.mp hm.1) hr hid
  subst he
  simpa using hm.2

end Reservation

section Sweep

/-- A schedule that chrono can represent and Postgres can store. -/
def storable (time : Timestamp) : Bool := timestamptzMin ≤ time && chronoTime time

/-- What a sweep needs of the times that it meets. -/
structure StaleSpec.Fits (spec : StaleSpec) (now : Timestamp) (t : Rows q) : Prop where
  /-- The time of the transaction can be read. -/
  readable : chronoTime now = true
  /-- The cutoff can be represented. -/
  cutoff : chronoInstant (StaleSpec.policy spec now).reservedBefore = true
  /-- The bound cutoff can be stored. -/
  bound : timestamptzMin ≤ boundTime (StaleSpec.policy spec now).reservedBefore
  /-- The new schedule of every stale row can be represented and stored. -/
  schedules : ∀ r ∈ t.rows, stale (StaleSpec.policy spec now) r = true →
    storable (rescheduled (StaleSpec.policy spec now) now r) = true

instance (spec : StaleSpec) (now : Timestamp) (t : Rows q) : Decidable (StaleSpec.Fits spec now t) :=
  decidable_of_iff (chronoTime now = true ∧
      chronoInstant (StaleSpec.policy spec now).reservedBefore = true ∧
      timestamptzMin ≤ boundTime (StaleSpec.policy spec now).reservedBefore ∧
      ∀ r ∈ t.rows, stale (StaleSpec.policy spec now) r = true →
        storable (rescheduled (StaleSpec.policy spec now) now r) = true)
    ⟨fun ⟨hnow,hcutoff,hbound,hall⟩ => ⟨hnow,hcutoff,hbound,hall⟩,
      fun h => ⟨h.readable,h.cutoff,h.bound,h.schedules⟩⟩

/-- What the bulk update leaves of a row. -/
theorem sweepRow_ok {policy : ReservationTimeoutPolicy} {now : Timestamp} {r r' : Row q.Own}
    (h : sweepRow policy now r = .ok r') :
    ∃ j, sweptExtraInfo q r.extraInfo = .ok j ∧ r' = sweptRow policy now j r := by
  unfold sweepRow at h
  cases hx : sweptExtraInfo q r.extraInfo with
  | error d => rw [hx] at h; cases h
  | ok j => rw [hx] at h; cases h; exact ⟨j,rfl,rfl⟩

/-- A swept row is `Failed`. -/
theorem sweptRow_status (policy : ReservationTimeoutPolicy) (now : Timestamp) (j : Jsonb)
    (r : Row q.Own) : (sweptRow policy now j r).status = Status.failed.code := by
  change (q.timeoutOutcome _ _ _ _).1.code = _
  rw [q.timeoutOutcome_failed]

/-- The sum of the schedules and the binding go through for storable schedules. -/
theorem schedules_storable {schedules : List Timestamp} :
    (schedules.all chronoTime = true ∧ ¬schedules.any (· < timestamptzMin) = true) ↔
      ∀ time ∈ schedules, storable time = true := by
  rw [Bool.not_eq_true,List.any_eq_false,List.all_eq_true]
  simp only [storable,Bool.and_eq_true,decide_eq_true_eq,not_lt]
  exact ⟨fun h time ht => ⟨h.2 time ht,h.1 time ht⟩,
    fun h => ⟨fun time ht => (h time ht).2,fun time ht => (h time ht).1⟩⟩

/-- A sweep whose times fit and whose stale rows all take the new history updates those
rows. -/
theorem sweep_of_ok (t : Rows q) {spec : StaleSpec} {now : Timestamp}
    (hc : StaleSpec.Fits spec now t)
    (h : ∀ r ∈ t.rows, stale (StaleSpec.policy spec now) r = true →
      ∃ s, sweepRow (StaleSpec.policy spec now) now r = .ok s) :
    sweep t spec now = (some (.ok (t.rows.countP (stale (StaleSpec.policy spec now)))),
      t.update (stale (StaleSpec.policy spec now))
        (Table.rewrite (sweepRow (StaleSpec.policy spec now) now))
        (Table.rewrite_key sweepRow_id)) := by
  have hbody : sweepStale (StaleSpec.policy spec now) now t =
      some (.ok (t.rows.countP (stale (StaleSpec.policy spec now)),
        t.update (stale (StaleSpec.policy spec now))
          (Table.rewrite (sweepRow (StaleSpec.policy spec now) now))
          (Table.rewrite_key sweepRow_id))) := by
    unfold sweepStale
    rw [if_neg (Int.not_lt.mpr hc.bound)]
    dsimp only
    rw [List.countP_eq_length_filter]
    split
    · next hz =>
      rw [List.isEmpty_iff] at hz
      rw [t.update_of_none,hz]
      · rfl
      · intro r hr
        simpa using List.filter_eq_nil_iff.mp hz r hr
    · have hall : ∀ time ∈ (t.rows.filter (stale (StaleSpec.policy spec now))).map
          (rescheduled (StaleSpec.policy spec now) now), storable time = true := by
        intro time ht
        obtain ⟨r,hr,rfl⟩ := List.mem_map.mp ht
        exact hc.schedules r (List.mem_filter.mp hr).1 (List.mem_filter.mp hr).2
      obtain ⟨hsum,hbind⟩ := schedules_storable.mpr hall
      rw [if_pos hsum,if_neg hbind,t.tryUpdate_of_ok sweepRow_id h]
      rfl
  rw [sweep,sweepBody,if_pos hc.readable,if_pos hc.cutoff,hbody]
  rfl

/-- A sweep whose transaction ends early does nothing. -/
theorem sweep_of_body (t : Rows q) {spec : StaleSpec} {now : Timestamp}
    (hbody : ∀ out, sweepBody spec now t ≠ some (.ok out)) :
    (∀ n, (sweep t spec now).1 ≠ some (.ok n)) ∧ (sweep t spec now).2 = t := by
  rw [sweep]
  cases hb : sweepBody spec now t with
  | none => exact ⟨nofun,rfl⟩
  | some result =>
    cases result with
    | error e => exact ⟨nofun,rfl⟩
    | ok out => exact absurd hb (hbody out)

/-- Statements that go through bound times that can be stored and met rows that take the new
history. -/
theorem storable_of_stale {t : Rows q} {policy : ReservationTimeoutPolicy} {now : Timestamp}
    {out : ℕ × Rows q} (h : sweepStale policy now t = some (.ok out)) :
    timestamptzMin ≤ boundTime policy.reservedBefore ∧
      ∀ r ∈ t.rows, stale policy r = true →
        storable (rescheduled policy now r) = true ∧ ∃ s, sweepRow policy now r = .ok s := by
  unfold sweepStale at h
  dsimp only at h
  by_cases hmin : boundTime policy.reservedBefore < timestamptzMin
  · rw [if_pos hmin] at h
    cases h
  rw [if_neg hmin] at h
  refine ⟨Int.not_lt.mp hmin,fun r hr hs => ?_⟩
  have hstale : r ∈ t.rows.filter (stale policy) := List.mem_filter.mpr ⟨hr,hs⟩
  rw [if_neg fun hz => List.ne_nil_of_mem hstale (List.isEmpty_iff.mp hz)] at h
  split at h
  · next hsum =>
    split at h
    · cases h
    · next hbind =>
      have hall := schedules_storable.mp ⟨hsum,hbind⟩
      refine ⟨hall _ (List.mem_map_of_mem hstale),?_⟩
      cases he : sweepRow policy now r with
      | ok s => exact ⟨s,rfl⟩
      | error e =>
        -- one row refuses the bulk update
        obtain ⟨e',he'⟩ := t.tryUpdate_of_error sweepRow_id hr hs he
        rw [he'] at h
        cases h
  · cases h

/-- A sweep that goes through meets times that fit and rows that take the new history. -/
theorem fits_of_body {t : Rows q} {spec : StaleSpec} {now : Timestamp} {out : ℕ × Rows q}
    (hbody : sweepBody spec now t = some (.ok out)) :
    StaleSpec.Fits spec now t ∧
      ∀ r ∈ t.rows, stale (StaleSpec.policy spec now) r = true →
        ∃ s, sweepRow (StaleSpec.policy spec now) now r = .ok s := by
  unfold sweepBody at hbody
  split at hbody
  · next hnow =>
    split at hbody
    · next hcutoff =>
      obtain ⟨hbound,hrows⟩ := storable_of_stale hbody
      exact ⟨⟨hnow,hcutoff,hbound,fun r hr hs => (hrows r hr hs).1⟩,
        fun r hr hs => (hrows r hr hs).2⟩
    · cases hbody
  · cases hbody

/-- A sweep that does not go through leaves the table alone. -/
theorem sweep_cases (t : Rows q) (spec : StaleSpec) (now : Timestamp) :
    (StaleSpec.Fits spec now t ∧
      ∀ r ∈ t.rows, stale (StaleSpec.policy spec now) r = true →
        ∃ s, sweepRow (StaleSpec.policy spec now) now r = .ok s) ∨
      ((∀ n, (sweep t spec now).1 ≠ some (.ok n)) ∧ (sweep t spec now).2 = t) := by
  by_cases h : ∃ out, sweepBody spec now t = some (.ok out)
  · obtain ⟨out,hbody⟩ := h
    exact .inl (fits_of_body hbody)
  · exact .inr (sweep_of_body t fun out hbody => h ⟨out,hbody⟩)

end Sweep

end Mulac.RepositoryContracts
