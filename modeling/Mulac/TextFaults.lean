import Mulac.BatchSettlement
import Mulac.AmqpConsumption

/-!
# Texts that Postgres refuses

Every text that the queues write comes from outside: a payload, a type, a
source, a routing key, or an error that may quote any of these. Postgres refuses
one character, U+0000. Each kind of write is followed to its end, and succeeds
exactly when none of its texts has that character.
-/

namespace Mulac.TextFaults

open JsonValue Identifiers Postgres QueueDomain KeyedTable QueueRow Repository RepositoryContracts
  Envelopes FourQueues Consumers PanicProgram PortCalls BatchSettlement AmqpConsumption

section Entries

/-- The texts of a new command. -/
def commandTexts (e : NewCommandEnvelope) : List String :=
  e.payload::e.commandType::(e.metadata.bind CommandMetadata.source).toList

/-- The texts of a new event. -/
def eventTexts (e : NewEventEnvelope) : List String :=
  e.payload::e.eventType::(e.metadata.bind EventMetadata.source).toList

/-- The texts of a new message. -/
def messageTexts (e : NewInboxMessageEnvelope) : List String :=
  e.payload::(e.source.toList++e.routingKey.toList)

/-- The texts of a new outbox entry. -/
def outboxTexts (e : NewOutboxEntry) : List String := e.payload::e.metadata.texts

/-- The texts of a new entry of a queue. -/
def entryTexts (float : SerdeJson.FloatReader) :
    (name : QueueName) → (name.queue float).NewEntry → List String
  | .commands,e => commandTexts e
  | .events,e => eventTexts e
  | .inbox,e => messageTexts e
  | .outbox,e => outboxTexts e

/-- The row of an entry can be stored when each text of the entry can. -/
theorem storable_iff (float : SerdeJson.FloatReader) (name : QueueName)
    {entry : (name.queue float).NewEntry} {appNow now : Timestamp}
    {n : NewRow (name.queue float).Own}
    (hn : (name.queue float).newRow entry appNow now = .ok n) :
    NewRow.storable n = true ↔ ∀ s ∈ entryTexts float name entry, nulFree s = true := by
  cases name with
  | commands =>
    change newCommandEntry entry appNow now = .ok n at hn
    unfold newCommandEntry at hn
    split at hn
    · cases hn
    · next m hm =>
      cases hn
      simp only [NewRow.storable,Bool.and_eq_true,CommandMetadata.toValue_storable,
        entryTexts,commandTexts,hm,Option.bind_some]
      simp [commandQueue,QueueName.queue,and_assoc]
  | events =>
    change newEventEntry entry appNow now = .ok n at hn
    unfold newEventEntry at hn
    split at hn
    · cases hn
    · next m hm =>
      split at hn
      · cases hn
        simp only [NewRow.storable,Bool.and_eq_true,EventMetadata.toValue_storable,
          entryTexts,eventTexts,hm,Option.bind_some]
        simp [eventQueue,QueueName.queue,and_assoc]
      · cases hn
  | inbox =>
    change newInboxEntry entry appNow now = .ok n at hn
    cases hn
    simp only [NewRow.storable,Bool.and_eq_true,InboxMessageMetadata.toValue_storable,
      entryTexts,messageTexts,InboxMessageMetadata.ofNew]
    simp [inboxQueue,QueueName.queue,or_imp,forall_and]
  | outbox =>
    change newOutboxEntry entry appNow now = .ok n at hn
    unfold newOutboxEntry at hn
    split at hn
    · cases hn
      simp only [NewRow.storable,Bool.and_eq_true,OutboxEntryMetadata.toValue_storable,
        entryTexts,outboxTexts]
      simp [outboxQueue,QueueName.queue]
    · cases hn

end Entries

section Writes

/-- A write of text, with the promise that nothing but its texts can refuse it. -/
inductive TextWrite (float : SerdeJson.FloatReader) where
  /-- `failed` on an owned row. -/
  | failed (name : QueueName) (t : Rows (name.queue float)) (id token : Uuid)
    (owned : Holds t id token) (maxAttempts : ℤ) (reason : Option String) (now : Timestamp)
  /-- `dead` on an owned row whose history decodes. -/
  | dead (name : QueueName) (port : (name.queue float).hasDead = true)
    (t : Rows (name.queue float)) (id token : Uuid) (r : Row (name.queue float).Own)
    (found : t.find? id = some r) (owned : r.heldBy token = true)
    (decodes : (readExtraInfo r.extraInfo).isSome = true) (reason : Option String)
    (now : Timestamp)
  /-- A batch whose work does not write existing rows of the queue. -/
  | batch (name : QueueName) (env : Environment (name.queue float))
    (keeps : ∀ e t, Keeps t (env.effect e t)) (t : Rows (name.queue float))
    (spec : ReservableSpec)
  /-- `record` or `store` of an entry that has its metadata and a valid sequence. -/
  | record (name : QueueName) (t : Rows (name.queue float)) (entry : (name.queue float).NewEntry)
    (appNow now : Timestamp) (accepted : ((name.queue float).newRow entry appNow now).isOk = true)
  /-- A delivery of the broker whose body is UTF-8. -/
  | delivery (d : Delivery) (payload : String) (body : String.fromUTF8? d.data = some payload)

variable {float : SerdeJson.FloatReader}

/-- A row released with a status and, if there is one, its reason as the last error. -/
def ReleasedWith {χ : Type} (status : Status) (reason : Option String) (r : Row χ) : Prop :=
  r.reservationId = none ∧ r.status = status.code ∧
    ∀ s, reason = some s → ∃ errors, readExtraInfo r.extraInfo = some (some ⟨errors++[s]⟩)

/-- What is promised of a write. -/
def TextWrite.succeeds : TextWrite float → Prop
  | failed _ t id token _ maxAttempts reason now =>
    (Repository.failed t id token maxAttempts reason now).1 = .ok () ∧
      ∃ r, (Repository.failed t id token maxAttempts reason now).2.find? id = some r ∧
        ReleasedWith .failed reason r
  | dead _ _ t id token _ _ _ _ reason now =>
    (Repository.dead t id token reason now).1 = .ok () ∧
      ∃ r, (Repository.dead t id token reason now).2.find? id = some r ∧
        ReleasedWith .dead reason r
  | batch name env _ t spec =>
    ∀ r ∈ selected t spec env.draw, ∀ e error, decodedAs env.draw r = .ok e →
      env.outcome e = some (.error error) →
        ∃ r', ((PortCalls.batch (itemsOf name float) spec).run (answer env) ⟨t,[]⟩).2.rows.find?
          r.id = some r' ∧ r'.status = Status.failed.code
  | record _ t entry appNow now _ => (Repository.record t entry appNow now).1 = .ok ()
  | delivery d _ _ =>
    ∀ (t : Rows (inboxQueue float)) drawn appNow now, (settle t d drawn appNow now).1 = .ack

/-- The texts of a write that come from outside. -/
def TextWrite.texts : TextWrite float → Set String
  | failed _ _ _ _ _ _ reason _ => {s | reason = some s}
  | dead _ _ _ _ _ _ _ _ _ reason _ => {s | reason = some s}
  | batch name env _ t spec =>
    {s | ∃ r ∈ selected t spec env.draw, ∃ e error, decodedAs env.draw r = .ok e ∧
      env.outcome e = some (.error error) ∧ (name.queue float).display error = s}
  | record name _ entry _ _ _ => {s | s ∈ entryTexts float name entry}
  | delivery d payload _ => {payload,d.exchange,d.routingKey}

end Writes

section Outcomes

variable {q : Queue} {t : Rows q} {id token : Uuid} {r : Row q.Own}

/-- `failed` on an owned row records every reason that can be stored, and no other. -/
theorem failed_iff (h : Holds t id token) (maxAttempts : ℤ) (reason : Option String)
    (now : Timestamp) :
    ((failed t id token maxAttempts reason now).1 = .ok () ∧
      ∃ r, (failed t id token maxAttempts reason now).2.find? id = some r ∧
        ReleasedWith .failed reason r) ↔ ∀ s, reason = some s → nulFree s = true := by
  constructor
  · rintro ⟨hok,-⟩ s rfl
    by_contra hnul
    obtain ⟨e,he⟩ : ∃ e, failed t id token maxAttempts (some s) now = (.error e,t) :=
      failed_of_nul (Bool.eq_false_iff.mpr hnul) maxAttempts now
    rw [he] at hok
    cases hok
  · intro hs
    obtain ⟨r,hf,hr⟩ := h
    obtain ⟨extraInfo,he⟩ := failureExtraInfo_ok q.float r.extraInfo hs
    rw [failed_of_held hf hr hs he]
    refine ⟨rfl,_,Table.find?_updateAt_self hf _ (failedRow_id _ _ _ _ _),rfl,rfl,?_⟩
    rintro s rfl
    exact ⟨_,readExtraInfo_failure he⟩

/-- `dead` on an owned row that decodes records every reason that can be stored. -/
theorem dead_iff (hf : t.find? id = some r) (hr : r.heldBy token = true)
    (hd : (readExtraInfo r.extraInfo).isSome = true) (reason : Option String) (now : Timestamp) :
    ((dead t id token reason now).1 = .ok () ∧
      ∃ r, (dead t id token reason now).2.find? id = some r ∧ ReleasedWith .dead reason r) ↔
        ∀ s, reason = some s → nulFree s = true := by
  constructor
  · rintro ⟨hok,-⟩ s rfl
    by_contra hnul
    obtain ⟨e,he⟩ : ∃ e, dead t id token (some s) now = (.error e,t) :=
      dead_of_nul (Bool.eq_false_iff.mpr hnul) now
    rw [he] at hok
    cases hok
  · intro hs
    obtain ⟨history,hh⟩ := Option.isSome_iff_exists.mp hd
    obtain ⟨extraInfo,hx,_,he⟩ := dead_of_held hf hr hh hs now
    rw [he]
    refine ⟨rfl,_,Table.find?_updateAt_self hf _ (deadRow_id _ _ _),rfl,rfl,?_⟩
    rintro s rfl
    refine ⟨(history.map QueueDomain.ExtraInfo.errors).getD [],?_⟩
    change readExtraInfo extraInfo = _
    rw [hx,deadHistory]
    cases history <;> rfl

/-- An accepted entry is recorded exactly when each of its texts can be stored. -/
theorem record_iff (name : QueueName) (float : SerdeJson.FloatReader)
    (t : Rows (name.queue float)) {entry : (name.queue float).NewEntry} {appNow now : Timestamp}
    (h : ((name.queue float).newRow entry appNow now).isOk = true) :
    (record t entry appNow now).1 = .ok () ↔ ∀ s ∈ entryTexts float name entry,
      nulFree s = true := by
  cases hn : (name.queue float).newRow entry appNow now with
  | error e => rw [hn] at h; cases h
  | ok n =>
    rw [← storable_iff float name hn]
    cases hs : NewRow.storable n with
    | true =>
      obtain ⟨metadata,_,he⟩ := record_of_storable hn hs t
      simp [he]
    | false =>
      obtain ⟨e,he⟩ := record_of_not_storable hn hs t
      simp [he]

/-- An item whose work failed is released exactly when its error can be stored. -/
theorem batch_item_iff (items : Items q) {env : Environment q} {spec : ReservableSpec}
    (hk : ∀ e t, Keeps t (env.effect e t)) (hr : r ∈ selected t spec env.draw) {e : q.Envelope}
    {error : q.Error} (hd : decodedAs env.draw r = .ok e)
    (ho : env.outcome e = some (.error error)) :
    (∃ r', ((batch items spec).run (answer env) ⟨t,[]⟩).2.rows.find? r.id = some r' ∧
      r'.status = Status.failed.code) ↔ nulFree (q.display error) = true := by
  by_cases hl : spec.limit < 2^63
  · rw [selected_eq hl] at hr
    obtain ⟨_,w',hw,hrun,_⟩ := run_batch items t hl hk
    have hrow := find?_of_decodes hw hr hd
    have he : itemError items env env.draw.token e = some error := by
      rw [itemError,itemResult,ho]
      rfl
    have hn : nulFree (itemReason env.draw.token e error) = nulFree (q.display error) :=
      failureReason_nulFree _ (by decide) _
    rw [hrun,hrow,← hn,settledItem,he]
    cases hnul : nulFree (itemReason env.draw.token e error) with
    | true =>
      simp only [hnul,dif_pos,iff_true]
      exact ⟨_,rfl,rfl⟩
    | false =>
      simp only [hnul,Bool.false_eq_true,dif_neg,not_false_eq_true]
      refine ⟨?_,False.elim⟩
      -- the row is still reserved
      rintro ⟨r',hr',hs⟩
      cases hr'
      exact absurd hs (by change ¬Status.reserved.code = Status.failed.code; decide)
  · rw [selected,reserve_of_limit t hl] at hr
    cases hr

/-- A delivery is acknowledged exactly when its texts can be stored. -/
theorem delivery_iff (float : SerdeJson.FloatReader) {d : Delivery} {payload : String}
    (h : String.fromUTF8? d.data = some payload) (t : Rows (inboxQueue float)) (drawn : Uuid)
    (appNow now : Timestamp) :
    (settle t d drawn appNow now).1 = .ack ↔
      ∀ s, s = payload ∨ s = d.exchange ∨ s = d.routingKey → nulFree s = true := by
  have hne : ∀ s : String, (∀ s', nonempty s = some s' → nulFree s' = true) ↔
      nulFree s = true := by
    intro s
    unfold nonempty
    split
    · next he =>
      have : s = "" := String.isEmpty_iff.mp he
      subst this
      simp [nulFree]
    · simp
  unfold settle unpack
  rw [h]
  refine settlementOf_eq_ack.trans ((record_iff .inbox float t rfl).trans ?_)
  simp only [entryTexts,messageTexts,NewInboxMessageEnvelope.ofInbound,inboundOf,List.mem_cons,
    List.mem_append,Option.mem_toList,or_imp,forall_and,forall_eq]
  rw [hne d.exchange,hne d.routingKey]

end Outcomes

/-- A write of text succeeds exactly when none of its texts has U+0000. -/
theorem text_write_succeeds_iff (float : SerdeJson.FloatReader) (w : TextWrite float) :
    w.succeeds ↔ ∀ s ∈ w.texts, nulFree s = true := by
  cases w with
  | failed name t id token owned maxAttempts reason now =>
    exact failed_iff owned maxAttempts reason now
  | dead name port t id token r found owned decodes reason now =>
    exact dead_iff found owned decodes reason now
  | batch name env keeps t spec =>
    constructor
    · rintro h s ⟨r,hr,e,error,hd,ho,rfl⟩
      exact (batch_item_iff _ keeps hr hd ho).mp (h r hr e error hd ho)
    · intro h r hr e error hd ho
      exact (batch_item_iff _ keeps hr hd ho).mpr (h _ ⟨r,hr,e,error,hd,ho,rfl⟩)
  | record name t entry appNow now accepted => exact record_iff name float t accepted
  | delivery d payload body =>
    constructor
    · intro h
      exact (delivery_iff float body ⟨[],List.nodup_nil⟩ (.fromU128 0) 0 0).mp (h _ _ _ _)
    · intro h t drawn appNow now
      exact (delivery_iff float body t drawn appNow now).mpr h

/-- A handler's error that quotes U+0000, reported for an owned command. -/
def nulFailure : TextWrite .integersOnly :=
  .failed .commands QueueRuns.heldTable (.fromU128 1) (.fromU128 7) (by decide) 6
    (some "expected value, found \x00") 1

/-- The UTF-8 of a text reads back as the text. -/
theorem fromUTF8?_toByteArray (s : String) : String.fromUTF8? s.toByteArray = some s :=
  dif_pos s.isValidUTF8

/-- A delivery whose body is the character U+0000. -/
def nulDelivery : TextWrite .integersOnly :=
  .delivery ⟨"\x00".toByteArray,"payments","user.payment.succeeded",none,none⟩ "\x00"
    (fromUTF8?_toByteArray "\x00")

/-- Both are refused. -/
theorem text_write_refused : ¬nulFailure.succeeds ∧ ¬nulDelivery.succeeds := by
  have hf : nulFree "expected value, found \x00" = false := by decide
  have hd : nulFree "\x00" = false := by decide
  constructor
  · rintro ⟨hok,-⟩
    obtain ⟨e,he⟩ : ∃ e, failed QueueRuns.heldTable (.fromU128 1) (.fromU128 7) 6
        (some "expected value, found \x00") 1 = (.error e,QueueRuns.heldTable) :=
      failed_of_nul hf 6 1
    rw [he] at hok
    cases hok
  · intro h
    have hn := (delivery_iff .integersOnly (fromUTF8?_toByteArray "\x00") ⟨[],List.nodup_nil⟩
      (.fromU128 0) 0 0).mp (h _ _ _ _) "\x00" (.inl rfl)
    rw [hd] at hn
    cases hn

end Mulac.TextFaults
