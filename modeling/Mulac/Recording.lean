import Mulac.FailureHistory
import Mulac.Pipeline
import Mulac.TextFaults

/-!
# Recording and handing out

What a caller records comes back from every reservation as it was recorded: the
encoders of the four libraries and their decoders agree on every combination of
optional fields, the first recording of an id wins, and no recorded row is ever
found malformed.
-/

namespace Mulac.Recording

open Identifiers Postgres SerdeJson QueueDomain KeyedTable Envelopes QueueRow Repository
  RepositoryContracts FourQueues CallSequence QueueCalls QueueRuns ReserveContract BatchSettlement
  RowLifetimes FailureHistory Pipeline TextFaults

section Submissions

/-- What a caller records; a transport's message comes with the id that
`Uuid::now_v7` draws for it. -/
abbrev Submission : QueueName → Type
  | .commands => NewCommandEnvelope
  | .events => NewEventEnvelope
  | .inbox => InboundMessageEnvelope × Uuid
  | .outbox => NewOutboxEnvelope

/-- The entry that reaches the store port; `appNow` is what `Utc::now` returns. -/
def entryOf (float : FloatReader) (appNow : Timestamp) :
    (name : QueueName) → Submission name → (name.queue float).NewEntry
  | .commands,e => e
  | .events,e => e
  | .inbox,m => NewInboxMessageEnvelope.ofInbound m.2 m.1
  | .outbox,e => NewOutboxEntry.ofEnvelope appNow e

/-- What a submission says: its id, its type, its payload and its metadata. -/
structure Carried (name : QueueName) (float : FloatReader) where
  /-- The identity of the row. -/
  id : Uuid
  /-- The type of a command or an event. -/
  type : Option String
  /-- The serialized message. -/
  payload : String
  /-- The metadata, with its defaults. -/
  metadata : (name.queue float).Metadata

/-- A message's id defaults to the one drawn for it, an outbox message's id to the
id of its event; nothing is carried without a command's or an event's metadata. -/
def carriedBy (float : FloatReader) :
    (name : QueueName) → Submission name → Option (Carried name float)
  | .commands => fun (e : NewCommandEnvelope) =>
    e.metadata.map fun m => ⟨m.commandId,some e.commandType,e.payload,some m⟩
  | .events => fun (e : NewEventEnvelope) =>
    e.metadata.map fun m => ⟨m.eventId,some e.eventType,e.payload,some m⟩
  | .inbox => fun (m : InboundMessageEnvelope × Uuid) =>
    some ⟨m.1.messageId.getD m.2,none,m.1.payload,
      (⟨some (m.1.messageId.getD m.2),m.1.correlationId,m.1.source,m.1.routingKey⟩ :
        InboxMessageMetadata)⟩
  | .outbox => fun (e : NewOutboxEnvelope) =>
    some ⟨e.metadata.eventId,none,e.payload,
      (⟨e.metadata.sequence,e.metadata.eventId,e.metadata.messageId.getD e.metadata.eventId,
        e.metadata.correlationId,e.metadata.causationId,e.metadata.eventType,
        e.metadata.routingKey,e.metadata.source,e.metadata.contentType⟩ : OutboxEntryMetadata)⟩

/-- A command or an event has metadata, and a sequence is from 1 to `i64::MAX`. -/
def accepted : (name : QueueName) → Submission name → Bool
  | .commands => fun (e : NewCommandEnvelope) => e.metadata.isSome
  | .events => fun (e : NewEventEnvelope) => e.metadata.any fun m => validSequence m.sequence
  | .inbox => fun _ => true
  | .outbox => fun (e : NewOutboxEnvelope) => validSequence e.metadata.sequence

/-- The texts of a submission can be stored. -/
def Storable (float : FloatReader) (name : QueueName) (x : Submission name) : Prop :=
  ∀ appNow, ∀ s ∈ entryTexts float name (entryOf float appNow name x), nulFree s = true

variable {name : QueueName} {float : FloatReader} {x : Submission name}
  {carried : Carried name float}

/-- A sequence that no library accepts: 0, or more than `i64::MAX`. -/
def OutOfRange (sequence : Option ℕ) : Prop := ∃ n, sequence = some n ∧ (n = 0 ∨ 2^63-1 < n)

/-- What no library accepts: a command or an event without metadata, and an event
or an outbox message with a sequence out of range. -/
def Refused : (name : QueueName) → Submission name → Prop
  | .commands => fun (e : NewCommandEnvelope) => e.metadata = none
  | .events => fun (e : NewEventEnvelope) =>
    e.metadata = none ∨ ∃ m, e.metadata = some m ∧ OutOfRange m.sequence
  | .inbox => fun _ => False
  | .outbox => fun (e : NewOutboxEnvelope) => OutOfRange e.metadata.sequence

/-- A row's content is that of a submission. -/
def Matches (carried : Carried name float) (c : Content) : Prop :=
  c.type = carried.type ∧ c.payload = carried.payload ∧
    (name.queue float).readMetadata c.metadata = .ok carried.metadata

theorem validSequence_eq_false {sequence : Option ℕ} :
    validSequence sequence = false ↔ OutOfRange sequence := by
  cases sequence with
  | none => simp [validSequence,OutOfRange]
  | some n =>
    rw [validSequence,← Bool.not_eq_true,Bool.and_eq_true,decide_eq_true_eq,decide_eq_true_eq]
    simp only [OutOfRange,Option.some.injEq,exists_eq_left']
    omega

theorem accepted_eq_false : accepted name x = false ↔ Refused name x := by
  cases name with
  | commands => exact Option.isSome_eq_false_iff.trans Option.isNone_iff_eq_none
  | events =>
    obtain ⟨eventType,payload,metadata⟩ := x
    cases metadata with
    | none => simp [accepted,Refused]
    | some m => simp [accepted,Refused,validSequence_eq_false]
  | inbox => simp [accepted,Refused]
  | outbox => exact validSequence_eq_false

/-- What is accepted becomes a row that reads as what was submitted. -/
theorem newRow_of_accepted (float : FloatReader) (h : accepted name x = true)
    (appNow now : Timestamp) :
    ∃ n carried, (name.queue float).newRow (entryOf float appNow name x) appNow now = .ok n ∧
      carriedBy float name x = some carried ∧ n.id = carried.id ∧
      ∀ metadata : Jsonb, metadata.value = n.metadata →
        Matches carried (contentOf name (storedRow n metadata)) := by
  cases name with
  | commands =>
    obtain ⟨commandType,payload,metadata⟩ := x
    cases metadata with
    | none => cases h
    | some m =>
      refine ⟨_,_,rfl,rfl,rfl,fun j hj => ⟨rfl,rfl,?_⟩⟩
      change optionalMetadata CommandMetadata.ofValue (some j) = _
      rw [optionalMetadata,hj,CommandMetadata.ofValue_toValue]
      rfl
  | events =>
    obtain ⟨eventType,payload,metadata⟩ := x
    cases metadata with
    | none => cases h
    | some m =>
      have hs : validSequence m.sequence = true := h
      refine ⟨_,_,if_pos hs,rfl,rfl,fun j hj => ⟨rfl,rfl,?_⟩⟩
      change optionalMetadata EventMetadata.ofValue (some j) = _
      rw [optionalMetadata,hj,EventMetadata.ofValue_toValue hs]
      rfl
  | inbox =>
    refine ⟨_,_,rfl,rfl,rfl,fun j hj => ⟨rfl,rfl,?_⟩⟩
    change requiredMetadata InboxMessageMetadata.ofValue (some j) = _
    rw [requiredMetadata,hj,InboxMessageMetadata.ofValue_toValue]
    rfl
  | outbox =>
    obtain ⟨payload,m⟩ := x
    have hs : validSequence m.sequence = true := h
    refine ⟨_,_,if_pos hs,rfl,rfl,fun j hj => ⟨rfl,rfl,?_⟩⟩
    change requiredMetadata OutboxEntryMetadata.ofValue (some j) = _
    rw [requiredMetadata,hj,OutboxEntryMetadata.ofValue_toValue hs]
    rfl

/-- What is not accepted has no row. -/
theorem newRow_of_not_accepted (float : FloatReader) (h : accepted name x = false)
    (appNow now : Timestamp) :
    ∃ e, (name.queue float).newRow (entryOf float appNow name x) appNow now = .error e := by
  cases name with
  | commands =>
    obtain ⟨commandType,payload,metadata⟩ := x
    cases metadata with
    | none => exact ⟨_,rfl⟩
    | some m => cases h
  | events =>
    obtain ⟨eventType,payload,metadata⟩ := x
    cases metadata with
    | none => exact ⟨_,rfl⟩
    | some m =>
      have hs : ¬validSequence m.sequence = true := Bool.eq_false_iff.mp h
      exact ⟨_,if_neg hs⟩
  | inbox => cases h
  | outbox =>
    obtain ⟨payload,m⟩ := x
    have hs : ¬validSequence m.sequence = true := Bool.eq_false_iff.mp h
    exact ⟨_,if_neg hs⟩

/-- A submission that returns `Ok` is inserted as it was submitted, whatever its
texts; any other changes nothing. -/
theorem record_submission (x : Submission name) (t : Rows (name.queue float))
    (appNow now : Timestamp) :
    (∃ r carried, record t (entryOf float appNow name x) appNow now = (.ok (),t.insertNew r) ∧
      carriedBy float name x = some carried ∧ r.id = carried.id ∧
      Matches carried (contentOf name r) ∧ r.extraInfo = none) ∨
    ∃ e, record t (entryOf float appNow name x) appNow now = (.error e,t) := by
  rcases record_cases t (entryOf float appNow name x) appNow now with
    ⟨n,metadata,hn,hvalue,he⟩ | ⟨e,he⟩
  · left
    cases ha : accepted name x with
    | true =>
      obtain ⟨n',carried,hn',hc,hid,hm⟩ := newRow_of_accepted float ha appNow now
      rw [hn] at hn'
      cases hn'
      exact ⟨_,carried,he,hc,hid,hm metadata hvalue,rfl⟩
    | false =>
      obtain ⟨e,he'⟩ := newRow_of_not_accepted float ha appNow now
      rw [hn] at he'
      cases he'
  · exact .inr ⟨e,he⟩

/-- An accepted submission of storable texts returns `Ok`. -/
theorem record_of_accepted (h : accepted name x = true) (hs : Storable float name x)
    (t : Rows (name.queue float)) (appNow now : Timestamp) :
    (record t (entryOf float appNow name x) appNow now).1 = .ok () := by
  obtain ⟨n,_,hn,_⟩ := newRow_of_accepted float h appNow now
  refine (record_iff name float t ?_).mpr (hs appNow)
  rw [hn]
  rfl

/-- Any other submission is refused. -/
theorem record_of_not_accepted (h : accepted name x = false) (t : Rows (name.queue float))
    (appNow now : Timestamp) :
    ∃ e, record t (entryOf float appNow name x) appNow now = (.error e,t) := by
  obtain ⟨e,he⟩ := newRow_of_not_accepted float h appNow now
  exact ⟨e,by rw [record,he]⟩

end Submissions

section Runs

variable {name : QueueName} {float : FloatReader}

/-- A step of a run: a submission, or any other call of the queue. -/
inductive RunStep (name : QueueName) (float : FloatReader) where
  /-- `record` or `store`. -/
  | record (x : Submission name) (appNow now : Timestamp)
  /-- `reserve`. -/
  | reserve (spec : ReservableSpec) (draw : ReserveDraw (name.queue float))
  /-- `completed`, `failed` or `dead`. -/
  | finalize (f : Finalization (name.queue float)) (id token : Uuid) (now : Timestamp)
  /-- `sweep`. -/
  | sweep (spec : StaleSpec) (now : Timestamp)

/-- The call that a step makes. -/
def RunStep.call : RunStep name float → Call (name.queue float)
  | record x appNow now => .record (entryOf float appNow name x) appNow now
  | reserve spec draw => .reserve spec draw
  | finalize f id token now => .finalize f id token now
  | sweep spec now => .sweep spec now

/-- The table after a step. -/
def runStep (t : Rows (name.queue float)) (s : RunStep name float) : Rows (name.queue float) :=
  step t s.call

/-- The table before the `i`-th step of a run that starts without rows. -/
def tableAt (steps : List (RunStep name float)) (i : ℕ) : Rows (name.queue float) :=
  stateAt runStep Table.empty steps i

theorem tableAt_succ {steps : List (RunStep name float)} {i : ℕ} (h : i < steps.length) :
    tableAt steps (i+1) = runStep (tableAt steps i) steps[i] := stateAt_succ runStep _ steps h

/-- What a step records, if it records anything. -/
def recordedBy (t : Rows (name.queue float)) : RunStep name float → Option (Carried name float)
  | .record x appNow now =>
    match (record t (entryOf float appNow name x) appNow now).1 with
    | .ok () => carriedBy float name x
    | .error _ => none
  | _ => none

theorem recordedBy_of_ok {t : Rows (name.queue float)} {x : Submission name}
    {appNow now : Timestamp}
    (h : (record t (entryOf float appNow name x) appNow now).1 = .ok ()) :
    recordedBy t (.record x appNow now) = carriedBy float name x := by
  simp only [recordedBy,h]

/-- The submissions that a run recorded, in order. -/
def recorded (steps : List (RunStep name float)) : List (Carried name float) :=
  (trace runStep Table.empty steps).filterMap fun x => recordedBy x.1 x.2

theorem recorded_take_succ {steps : List (RunStep name float)} {i : ℕ} (h : i < steps.length) :
    recorded (steps.take (i+1)) =
      recorded (steps.take i)++(recordedBy (tableAt steps i) steps[i]).toList := by
  rw [recorded,trace_take_succ runStep _ steps h,List.filterMap_append]
  rfl

/-- The first submission with an id that a run recorded. -/
def firstRecorded (id : Uuid) (steps : List (RunStep name float)) : Option (Carried name float) :=
  (recorded steps).find? fun carried => carried.id = id

theorem firstRecorded_take_succ (id : Uuid) {steps : List (RunStep name float)} {i : ℕ}
    (h : i < steps.length) : firstRecorded id (steps.take (i+1)) =
      (firstRecorded id (steps.take i)).or
        ((recordedBy (tableAt steps i) steps[i]).filter fun carried => carried.id = id) := by
  rw [firstRecorded,recorded_take_succ h,List.find?_append]
  congr 1
  cases recordedBy (tableAt steps i) steps[i] with
  | none => rfl
  | some carried => by_cases hk : carried.id = id <;> simp [Option.filter,List.find?,hk]

/-- The row under an id, given what was first recorded with it: there is none, or
it matches and its history is in order. -/
inductive RowFor : Option (Carried name float) → Option (Row (name.queue float).Own) → Prop
  /-- Nothing was recorded. -/
  | absent : RowFor none none
  /-- The row of what was recorded first. -/
  | present {carried : Carried name float} {r : Row (name.queue float).Own}
    {errors : List String} : Matches carried (contentOf name r) → Recorded r errors →
      RowFor (some carried) (some r)

/-- No call changes what a row holds. -/
theorem RowMove.content {t : Rows (name.queue float)} {c : Call (name.queue float)}
    {r r' : Row (name.queue float).Own} (h : RowMove t c r r') :
    contentOf name r' = contentOf name r := by
  cases h with
  | kept _ _ _ => rfl
  | @selected spec draw _ _ _ =>
    rcases reservedAndSettled_cases spec draw r with ⟨_,hx⟩ | ⟨error,_,hx⟩ <;> rw [hx] <;>
      cases name <;> rfl
  | ended _ _ _ hw => exact Finalization.Writes.content hw
  | swept _ _ _ he =>
    obtain ⟨j,_,rfl⟩ := sweepRow_ok he
    cases name <;> rfl

/-- Only a submission inserts a row. -/
theorem absent_step {t : Rows (name.queue float)} {c : Call (name.queue float)} {id : Uuid}
    (h : t.find? id = none) (hc : ∀ entry appNow now, c ≠ .record entry appNow now) :
    (step t c).find? id = none := by
  have hs := step_row t c id
  rw [h] at hs
  generalize (step t c).find? id = after at hs
  cases hs with
  | same => rfl
  | recorded hr _ _ => exact absurd hr (hc _ _ _)

/-- What a step does to the row under an id that nothing was recorded with. -/
theorem rowFor_step {t : Rows (name.queue float)} {id : Uuid} (h : t.find? id = none)
    (s : RunStep name float) :
    RowFor ((recordedBy t s).filter fun carried => carried.id = id) ((runStep t s).find? id) := by
  cases s with
  | reserve spec draw =>
    rw [runStep,absent_step h fun _ _ _ hc => by cases hc]
    exact .absent
  | finalize f k token now =>
    rw [runStep,absent_step h fun _ _ _ hc => by cases hc]
    exact .absent
  | sweep spec now =>
    rw [runStep,absent_step h fun _ _ _ hc => by cases hc]
    exact .absent
  | record x appNow now =>
    rw [runStep,RunStep.call,step,recordedBy]
    rcases record_submission x t appNow now with ⟨r,carried,he,hc,hid,hm,hx⟩ | ⟨e,he⟩
    · rw [he,Table.find?_insertNew,h]
      simp only [hc,hid]
      by_cases hk : carried.id = id
      · rw [if_pos hk,Option.filter_some_pos (by simpa using hk)]
        exact .present hm (Plain.recorded (.inl ⟨rfl,hx⟩))
      · rw [if_neg hk,Option.filter_some_neg (by simpa using hk)]
        exact .absent
    · rw [he]
      simp only [h]
      exact .absent

/-- Before every step of a run, the row under an id is the one of what was first
recorded with it. -/
theorem rowFor_run {steps : List (RunStep name float)} (id : Uuid) {i : ℕ} (hi : i ≤ steps.length) :
    RowFor (firstRecorded id (steps.take i)) ((tableAt steps i).find? id) := by
  induction i with
  | zero => exact .absent
  | succ i ih =>
    have h := ih (by omega)
    rw [firstRecorded_take_succ id (by omega),tableAt_succ (by omega)]
    generalize firstRecorded id (steps.take i) = first at h ⊢
    generalize hrow : (tableAt steps i).find? id = row at h
    cases h with
    | absent =>
      rw [Option.none_or]
      exact rowFor_step hrow steps[i]
    | present hm hrec =>
      obtain ⟨r',hf',hmove⟩ := row_move steps[i].call hrow
      have hid := Table.key_of_find? hrow
      rw [Option.some_or,runStep,hf']
      exact .present (RowMove.content hmove ▸ hm) (hrec.move (hid.symm ▸ hrow) hmove)

/-- The type that an envelope carries. -/
def envelopeType : (name : QueueName) → (name.queue float).Envelope → Option String
  | .commands => fun (e : CommandEnvelope) => some e.commandType
  | .events => fun (e : EventEnvelope) => some e.eventType
  | .inbox => fun _ => none
  | .outbox => fun _ => none

/-- An envelope carries exactly what was submitted. -/
structure Carries (e : (name.queue float).Envelope) (carried : Carried name float) : Prop where
  /-- The id. -/
  id : ((name.queue float).handed e).id = carried.id
  /-- The type. -/
  type : envelopeType name e = carried.type
  /-- The payload. -/
  payload : ((name.queue float).handed e).payload = carried.payload
  /-- The metadata. -/
  metadata : ((name.queue float).handed e).metadata = carried.metadata

theorem envelope_type {r : Row (name.queue float).Own} {token : Uuid}
    {metadata : (name.queue float).Metadata} {history : Option ExtraInfo}
    {e : (name.queue float).Envelope}
    (h : (name.queue float).envelope r token metadata history = .ok e) :
    envelopeType name e = (contentOf name r).type := by
  cases name with
  | commands => cases h; rfl
  | events => cases h; rfl
  | inbox => rfl
  | outbox => rfl

/-- What a run of a queue promises of what was recorded. -/
structure RoundTrip (steps : List (RunStep name float)) : Prop where
  /-- A reservation hands out what was first recorded with the id. -/
  handed : ∀ i (hi : i < steps.length), ∀ e ∈ handedOut (tableAt steps i) steps[i].call,
    ∃ carried, firstRecorded ((name.queue float).handed e).id (steps.take i) = some carried ∧
      Carries e carried
  /-- A later submission with a recorded id returns `Ok` and changes nothing. -/
  repeated : ∀ i (hi : i < steps.length) x appNow now, steps[i] = .record x appNow now →
    ¬Refused name x → ∀ carried, carriedBy float name x = some carried →
      (firstRecorded carried.id (steps.take i)).isSome = true →
      record (tableAt steps i) (entryOf float appNow name x) appNow now = (.ok (),tableAt steps i)
  /-- A reservation hands out every row that it selects, and so finds none malformed. -/
  healthy : ∀ i (hi : i < steps.length) spec draw, steps[i] = .reserve spec draw →
    ∀ r ∈ selected (tableAt steps i) spec draw,
      (∃ e ∈ handedOut (tableAt steps i) steps[i].call, ((name.queue float).handed e).id = r.id) ∧
      (tableAt steps (i+1)).find? r.id = some (reservedRow draw.token draw.now r)
  /-- A submission returns `Err` exactly when it is refused, and then changes nothing. -/
  refused : ∀ i (hi : i < steps.length) x appNow now, steps[i] = .record x appNow now →
    ((record (tableAt steps i) (entryOf float appNow name x) appNow now).1.isOk = false ↔
      Refused name x) ∧ (Refused name x → tableAt steps (i+1) = tableAt steps i)

/-- The row of what was recorded is handed out as it was recorded. -/
theorem carries_of_decode {carried : Carried name float} {r : Row (name.queue float).Own}
    {token : Uuid} (hr : r.heldBy token = true) (hid : r.id = carried.id)
    (h : Matches carried (contentOf name r)) {e : (name.queue float).Envelope}
    (he : decode r = .ok e) : Carries e carried := by
  obtain ⟨htype,hpayload,hmeta⟩ := h
  obtain ⟨history,token',metadata,hh,hm,henv⟩ := decode_ok he
  have hread : (name.queue float).readMetadata r.metadata = .ok carried.metadata := by
    cases name <;> exact hmeta
  rw [hm] at hread
  obtain rfl := Except.ok.inj hread
  obtain ⟨e',he',hhanded⟩ := decode_reserved hr hh hm
  rw [he] at he'
  cases he'
  refine ⟨?_,(envelope_type henv).trans htype,?_,?_⟩
  · rw [hhanded,hid]
  · rw [hhanded,← hpayload,contentOf_payload]
  · rw [hhanded]

theorem content_reservedRow (token : Uuid) (now : Timestamp) (r : Row (name.queue float).Own) :
    contentOf name (reservedRow token now r) = contentOf name r := by cases name <;> rfl

/-- A stored row is the one of what was first recorded with its id. -/
theorem recorded_of_find? {steps : List (RunStep name float)} {id : Uuid} {i : ℕ}
    (hi : i ≤ steps.length) {r : Row (name.queue float).Own}
    (h : (tableAt steps i).find? id = some r) :
    ∃ carried errors, firstRecorded id (steps.take i) = some carried ∧ carried.id = id ∧
      Matches carried (contentOf name r) ∧ Recorded r errors := by
  have hrow := rowFor_run id hi
  rw [h] at hrow
  generalize hfirst : firstRecorded id (steps.take i) = first at hrow
  cases hrow with
  | @present carried _ errors hm hrec =>
    exact ⟨carried,errors,rfl,by simpa using List.find?_some hfirst,hm,hrec⟩

/-- Every row of a run decodes. -/
theorem decodes_of_recorded {r : Row (name.queue float).Own} {carried : Carried name float}
    {errors : List String} (hm : Matches carried (contentOf name r)) (hrec : Recorded r errors) :
    decodes r = true := by
  obtain ⟨⟨history,hh,_⟩,_⟩ := hrec
  refine decodes_iff.mpr ⟨history,carried.metadata,hh,?_⟩
  cases name <;> exact hm.2.2

/-- The record-then-reserve round trip: with storable texts, whatever calls are
interleaved, reservations hand out what was first recorded, nothing recorded is
found malformed, and only what is refused returns `Err`. -/
theorem round_trip (name : QueueName) (float : FloatReader) (steps : List (RunStep name float))
    (hs : ∀ x appNow now, .record x appNow now ∈ steps → Storable float name x) :
    RoundTrip steps where
  handed := by
    intro i hi e he
    obtain ⟨spec,draw,r,_,hf,_,hd,_,hid,_⟩ := handedOut_row he
    obtain ⟨carried,_,hfirst,hc,hm,_⟩ := recorded_of_find? (Nat.le_of_lt hi) hf
    rw [hid]
    refine ⟨carried,hfirst,carries_of_decode (reservedRow_heldBy draw.token draw.now r) hc.symm ?_
      hd⟩
    rw [content_reservedRow]
    exact hm
  repeated := by
    intro i hi x appNow now hx hacc carried hc hsome
    have ha : accepted name x = true := by
      rw [← Bool.not_eq_false,accepted_eq_false]
      exact hacc
    have hok := record_of_accepted ha (hs x appNow now (hx ▸ List.getElem_mem hi))
      (tableAt steps i) appNow now
    have hrow := rowFor_run carried.id (Nat.le_of_lt hi)
    obtain ⟨first,hfirst⟩ := Option.isSome_iff_exists.mp hsome
    rw [hfirst] at hrow
    generalize hf : (tableAt steps i).find? carried.id = row at hrow
    rcases record_submission x (tableAt steps i) appNow now with ⟨r,_,he,hc',hid,_⟩ | ⟨e,he⟩
    · rw [hc] at hc'
      cases hc'
      cases hrow with
      | present _ _ => rw [he,Table.insertNew_of_find? (hid ▸ hf)]
    · rw [he] at hok
      cases hok
  healthy := by
    intro i hi spec draw hx r hr
    by_cases hl : spec.limit < 2^63
    · rw [selected_eq hl] at hr
      have hf := Table.find?_key (mem_candidates hr).1
      obtain ⟨carried,errors,_,_,hm,hrec⟩ := recorded_of_find? (Nat.le_of_lt hi) hf
      have hok := (decode_reservedRow draw.token draw.now r).trans (decodes_of_recorded hm hrec)
      cases hd : decode (reservedRow draw.token draw.now r) with
      | error d => rw [hd] at hok; cases hok
      | ok e =>
        have he := handed_of_decodes hr hd
        refine ⟨⟨e,?_,(decode_handed (reservedRow_heldBy draw.token draw.now r) hd).1⟩,?_⟩
        · rw [hx,RunStep.call,handedOut,reserve_eq _ hl draw]
          exact he
        · rw [tableAt_succ hi,hx,runStep,RunStep.call,step,reserve_eq _ hl draw]
          have hfound := find?_reservedTable hr
          rw [reservedAndSettled_of_ok hd] at hfound
          exact hfound
    · rw [selected,reserve_of_limit _ hl draw] at hr
      cases hr
  refused := by
    intro i hi x appNow now hx
    rw [tableAt_succ hi,hx,runStep,RunStep.call,step,← accepted_eq_false]
    cases ha : accepted name x with
    | true =>
      rw [record_of_accepted ha (hs x appNow now (hx ▸ List.getElem_mem hi))]
      simp [Except.isOk,Except.toBool]
    | false =>
      obtain ⟨e,he⟩ := record_of_not_accepted ha (tableAt steps i) appNow now
      simp [he,Except.isOk,Except.toBool]

/-- A command recorded twice under one id, and reserved. -/
def recordedTwice : List (RunStep .commands .integersOnly) :=
  [.record ⟨"Rename","[]",some ⟨.fromU128 1,none,none,some "api"⟩⟩ 0 0,
    .record ⟨"Delete","{}",some ⟨.fromU128 1,none,none,none⟩⟩ 1 1,
    .reserve singleSpec (plainDraw (.fromU128 7) 2)]

theorem round_trip_recordedTwice : RoundTrip recordedTwice :=
  round_trip .commands .integersOnly recordedTwice (by
    intro x appNow now hx _
    simp only [recordedTwice,List.mem_cons,reduceCtorEq,List.not_mem_nil,or_false] at hx
    rcases hx with hx | hx <;> cases hx <;> simp only [entryTexts,entryOf,commandTexts] <;> decide)

end Runs

end Mulac.Recording
