import Mulac.Recording

/-!
# Deduplication in the inbox

The identity of an inbox row is its message id, given by the transport or drawn
for the message. A message whose id has a row is accepted and leaves the row as
it is, wherever it comes from: the first accepted message with an id stands, and
two producers that use one id share it.
-/

namespace Mulac.InboxDeduplication

open Identifiers SerdeJson KeyedTable Envelopes QueueRow Repository FourQueues CallSequence
  QueueCalls Pipeline Recording

variable {float : FloatReader} {steps : List (RunStep .inbox float)} {m : InboundMessageEnvelope}
  {drawn id : Uuid} {i j : ℕ}

/-- The id of a message: the transport's, or the one drawn for it. -/
def messageId (m : InboundMessageEnvelope) (drawn : Uuid) : Uuid := m.messageId.getD drawn

/-- The source of a recorded message. -/
def sourceOf (carried : Carried .inbox float) : Option String :=
  InboxMessageMetadata.source carried.metadata

/-- The `i`-th step of a run stores a message, and `store` returns `Ok`. -/
def AcceptedAt (steps : List (RunStep .inbox float)) (i : ℕ) (m : InboundMessageEnvelope)
    (drawn : Uuid) : Prop :=
  ∃ appNow now, steps[i]? = some (.record (m,drawn) appNow now) ∧
    (record (tableAt steps i) (entryOf float appNow .inbox (m,drawn)) appNow now).1 = .ok ()

/-- The table has a row with an id, a source and a payload. -/
def Stands (t : Rows (QueueName.inbox.queue float)) (id : Uuid) (source : Option String)
    (payload : String) : Prop :=
  ∃ r metadata, t.find? id = some r ∧ r.payload = payload ∧
    requiredMetadata InboxMessageMetadata.ofValue r.metadata = .ok metadata ∧
    metadata.source = source

/-- The first message with a source and an id that a run accepted. -/
def firstFrom (source : String) (id : Uuid) (steps : List (RunStep .inbox float)) :
    Option (Carried .inbox float) :=
  (recorded steps).find? fun carried => carried.id = id && sourceOf carried = some source

/-- After the `i`-th step, the row under an id is the one of the first message that
was accepted with that id from a source. -/
def KeptFrom (steps : List (RunStep .inbox float)) (i : ℕ) (source : String) (id : Uuid) : Prop :=
  ∃ first, firstFrom source id (steps.take (i+1)) = some first ∧
    Stands (tableAt steps (i+1)) id (some source) first.payload

/-- What is recorded first stays first. -/
theorem firstRecorded_mono {first : Carried .inbox float} (hij : i ≤ j) (hj : j ≤ steps.length)
    (h : firstRecorded id (steps.take i) = some first) :
    firstRecorded id (steps.take j) = some first := by
  induction j with
  | zero =>
    obtain rfl : i = 0 := by omega
    exact h
  | succ j ih =>
    rcases Nat.lt_or_ge i (j+1) with hlt | hge
    · rw [firstRecorded_take_succ id (by omega),ih (by omega) (by omega),Option.some_or]
    · obtain rfl : i = j+1 := by omega
      exact h

/-- The row of what was recorded first. -/
theorem stands_of_firstRecorded {first : Carried .inbox float} (hj : j ≤ steps.length)
    (h : firstRecorded id (steps.take j) = some first) :
    Stands (tableAt steps j) id (sourceOf first) first.payload := by
  have hrow := rowFor_run id hj
  rw [h] at hrow
  generalize hf : (tableAt steps j).find? id = row at hrow
  cases hrow with
  | present hm _ =>
    obtain ⟨_,hpayload,hmeta⟩ := hm
    exact ⟨_,_,hf,hpayload,hmeta,rfl⟩

/-- An id has one row. -/
theorem Stands.unique {t : Rows (QueueName.inbox.queue float)} {source source' : Option String}
    {payload payload' : String} (h : Stands t id source payload)
    (h' : Stands t id source' payload') : source = source' ∧ payload = payload' := by
  obtain ⟨r,metadata,hf,rfl,hm,rfl⟩ := h
  obtain ⟨r',metadata',hf',rfl,hm',rfl⟩ := h'
  rw [hf] at hf'
  cases hf'
  rw [hm] at hm'
  cases hm'
  exact ⟨rfl,rfl⟩

/-- An accepted message is among what was recorded. -/
theorem AcceptedAt.recordedBy (h : AcceptedAt steps i m drawn) :
    ∃ hi : i < steps.length, ∃ carried, Recording.recordedBy (tableAt steps i) steps[i] =
      some carried ∧ carried.id = messageId m drawn ∧ sourceOf carried = m.source := by
  obtain ⟨appNow,now,hstep,hok⟩ := h
  obtain ⟨hi,hget⟩ := List.getElem?_eq_some_iff.mp hstep
  obtain ⟨carried,hcarried⟩ : ∃ carried, carriedBy float .inbox (m,drawn) = some carried :=
    ⟨_,rfl⟩
  refine ⟨hi,carried,hget ▸ (recordedBy_of_ok hok).trans hcarried,?_,?_⟩ <;>
    cases hcarried <;> rfl

/-- What an accepted message finds, or leaves, first under its id. -/
theorem AcceptedAt.first (h : AcceptedAt steps i m drawn) :
    ∃ first, firstRecorded (messageId m drawn) (steps.take (i+1)) = some first := by
  obtain ⟨hi,carried,hrec,hid,_⟩ := h.recordedBy
  rw [firstRecorded_take_succ _ hi,hrec,Option.filter_some_pos (by simpa using hid)]
  cases firstRecorded (messageId m drawn) (steps.take i) with
  | none => exact ⟨carried,rfl⟩
  | some first => exact ⟨first,rfl⟩

/-- The first message with an id is the first one with that id from its source. -/
theorem firstFrom_of_firstRecorded {source : String} {first : Carried .inbox float}
    (h : firstRecorded id steps = some first) (hs : sourceOf first = some source) :
    firstFrom source id steps = some first := by
  rw [firstRecorded,List.find?_eq_some_iff_append] at h
  obtain ⟨hid,before,later,hsplit,hno⟩ := h
  rw [firstFrom,List.find?_eq_some_iff_append]
  refine ⟨by simpa [hs] using hid,before,later,hsplit,fun a ha => ?_⟩
  have := hno a ha
  simp only [Bool.not_eq_true',decide_eq_false_iff_not] at this
  simp [this]

/-- What the inbox promises of the messages that a run delivers. -/
structure Deduplication (steps : List (RunStep .inbox float)) : Prop where
  /-- Once `store` returned `Ok`, the table has a row with the id, and the source and
  the payload of the first message that was accepted with that id. -/
  stored : ∀ i m drawn, AcceptedAt steps i m drawn →
    ∃ first, firstRecorded (messageId m drawn) (steps.take (i+1)) = some first ∧
      ∀ j ≤ steps.length, i < j →
        Stands (tableAt steps j) (messageId m drawn) (sourceOf first) first.payload
  /-- A message is dropped only if an earlier one was accepted with its id. -/
  dropped : ∀ i m drawn, AcceptedAt steps i m drawn → tableAt steps (i+1) = tableAt steps i →
    ∃ earlier ∈ recorded (steps.take i), earlier.id = messageId m drawn
  /-- The row is the one of the first message from the same source exactly when the
  first message with the id came from that source. -/
  source : ∀ i m drawn s, AcceptedAt steps i m drawn → m.source = some s →
    (KeptFrom steps i s (messageId m drawn) ↔
      (firstRecorded (messageId m drawn) (steps.take (i+1))).bind sourceOf = some s)

/-- The inbox deduplicates on the message id alone. -/
theorem deduplication (float : FloatReader) (steps : List (RunStep .inbox float)) :
    Deduplication steps where
  stored := by
    intro i m drawn h
    obtain ⟨first,hfirst⟩ := h.first
    refine ⟨first,hfirst,fun j hj hij => ?_⟩
    exact stands_of_firstRecorded hj (firstRecorded_mono hij hj hfirst)
  dropped := by
    intro i m drawn h hsame
    obtain ⟨hi,_⟩ := h.recordedBy
    obtain ⟨first,hfirst⟩ := h.first
    obtain ⟨r,_,hf,_⟩ := stands_of_firstRecorded hi hfirst
    rw [hsame] at hf
    obtain ⟨earlier,_,hearlier,hid,_⟩ := recorded_of_find? (Nat.le_of_lt hi) hf
    exact ⟨earlier,List.mem_of_find?_eq_some hearlier,hid⟩
  source := by
    intro i m drawn s h hs
    obtain ⟨hi,_⟩ := h.recordedBy
    obtain ⟨first,hfirst⟩ := h.first
    have hstands := stands_of_firstRecorded hi hfirst
    rw [hfirst,Option.bind_some]
    constructor
    · rintro ⟨_,_,hkept⟩
      exact (hstands.unique hkept).1
    · intro hsource
      refine ⟨first,firstFrom_of_firstRecorded hfirst hsource,?_⟩
      rwa [← hsource]

/-- Two producers that use one message id. -/
def twoProducers : List (RunStep .inbox .integersOnly) :=
  [.record (⟨"{}",some (.fromU128 1),none,some "billing",none⟩,.fromU128 8) 0 0,
    .record (⟨"[]",some (.fromU128 1),none,some "shipping",none⟩,.fromU128 9) 1 1]

/-- The message of the second is accepted, and dropped. -/
theorem second_producer_dropped :
    ¬∀ (steps : List (RunStep .inbox .integersOnly)) i m drawn k s, AcceptedAt steps i m drawn →
      m.messageId = some k → m.source = some s → KeptFrom steps i s k := by
  intro h
  have hkept := h twoProducers 1 ⟨"[]",some (.fromU128 1),none,some "shipping",none⟩ (.fromU128 9)
    (.fromU128 1) "shipping" ⟨1,1,rfl,rfl⟩ rfl rfl
  obtain ⟨_,_,hshipping⟩ := hkept
  obtain ⟨first,hfirst⟩ : ∃ first, firstRecorded (.fromU128 1) (twoProducers.take 2) = some first :=
    ⟨_,rfl⟩
  have hbilling := stands_of_firstRecorded (Nat.le_refl 2) hfirst
  have hsame := (hbilling.unique hshipping).1
  cases hfirst
  exact absurd hsame (by decide)

end Mulac.InboxDeduplication
