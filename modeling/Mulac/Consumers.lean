import Mulac.FourQueues
import Mulac.PanicProgram

/-!
# The consumers

`item_boundary.rs`, which the four libraries share word for word, and the four
consumers: a batch is reserved, and every entry of it is worked on, completed
and, if one of these went wrong, failed inside its own unwind boundary. The
ports of a consumer are programs, so the same consumers run over one table or
over the whole system.
-/

namespace Mulac.Consumers

open Identifiers Postgres QueueRow Repository Envelopes FourQueues PanicProgram

variable {Op : Type} {Reply : Op → Type}

section ItemBoundary

/-- `guard`; dropping the panic's payload is contained as well. -/
def guard {α ε : Type} (operation : Prog Op Reply (Except ε α)) (panicError : ε) :
    Prog Op Reply (Except ε α) := do
  match ← operation.catchUnwind with
  | some result => .ret result
  | none => .ret (.error panicError)

/-- What every diagnostic of an item starts with. -/
def context (identity : Uuid × Uuid) (stage : String) : String :=
  "item "++identity.1.display++", reservation "++identity.2.display++", stage "++stage

/-- The error text of a stage that panicked. -/
def panicked (identity : Uuid × Uuid) (stage : String) : String :=
  context identity stage++": panicked"

/-- What `run_item` writes about a stage that failed. -/
def failureReason (identity : Uuid × Uuid) (stage error : String) : String :=
  context identity stage++": "++error

/-- The failure stage of `run_item`. -/
def failItem {ε : Type} (display : ε → String) (identity : Uuid × Uuid)
    (fail : String → Prog Op Reply (Except ε Unit)) (panicError : String → ε) (errors : List ε)
    (stage : String) (error : ε) : Prog Op Reply (List ε) := do
  match ← guard (fail (failureReason identity stage (display error)))
      (panicError (panicked identity "failure finalization")) with
  | .ok () => .ret (errors++[error])
  | .error finalizationError => .ret (errors++[finalizationError,error])

/-- `run_item`; the result is `errors` after it. -/
def runItem {ε : Type} (display : ε → String) (identity : Uuid × Uuid)
    (work complete : Prog Op Reply (Except ε Unit)) (fail : String → Prog Op Reply (Except ε Unit))
    (panicError : String → ε) (errors : List ε) : Prog Op Reply (List ε) := do
  match ← guard work (panicError (panicked identity "processing")) with
  | .error error => failItem display identity fail panicError errors "processing" error
  | .ok () =>
    match ← guard complete (panicError (panicked identity "completion")) with
    | .error error => failItem display identity fail panicError errors "completion" error
    | .ok () => .ret errors

end ItemBoundary

section Batch

variable {q : Queue}

/-- The ports of a repository that a consumer calls. -/
structure Ports (q : Queue) (Op : Type) (Reply : Op → Type) where
  /-- `reserve`. -/
  reserve : ReservableSpec → Prog Op Reply (Except q.Error (List q.Envelope))
  /-- `completed`. -/
  completed : Uuid → Uuid → Prog Op Reply (Except q.Error Unit)
  /-- `failed`. -/
  failed : Uuid → Uuid → ℤ → Option String → Prog Op Reply (Except q.Error Unit)

/-- Where the four consumers differ in their treatment of an entry. -/
structure Items (q : Queue) where
  /-- The id and the token of an entry. -/
  identity : q.Envelope → Except q.Error (Uuid × Uuid)
  /-- An entry with a token has an identity. -/
  identity_handed : ∀ e token, (q.handed e).reservationId = some token →
    identity e = .ok ((q.handed e).id,token)
  /-- The error of a panic. -/
  panicError : String → q.Error
  /-- The error of a panic shows nothing but its text. -/
  panicError_display : ∀ s, nulFree s = true → nulFree (q.display (panicError s)) = true

/-- One turn of the loop over a batch. -/
def processEntry (items : Items q) (ports : Ports q Op Reply)
    (work : q.Envelope → Prog Op Reply (Except q.Error Unit)) (maxAttempts : ℤ)
    (entry : q.Envelope) (errors : List q.Error) : Prog Op Reply (List q.Error) :=
  match items.identity entry with
  | .error error => .ret (errors++[error])
  | .ok identity =>
    runItem q.display identity (work entry) (ports.completed identity.1 identity.2)
      (fun reason => ports.failed identity.1 identity.2 maxAttempts (some reason))
      items.panicError errors

/-- The loop over a batch. -/
def processEntries (items : Items q) (ports : Ports q Op Reply)
    (work : q.Envelope → Prog Op Reply (Except q.Error Unit)) (maxAttempts : ℤ) :
    List q.Envelope → List q.Error → Prog Op Reply (List q.Error)
  | [],errors => .ret errors
  | entry::entries,errors => do
    let errors ← processEntry items ports work maxAttempts entry errors
    processEntries items ports work maxAttempts entries errors

/-- What the four consumers have in common; `work` is the closure that converts
an entry and hands it over. -/
def consume (items : Items q) (ports : Ports q Op Reply)
    (work : q.Envelope → Prog Op Reply (Except q.Error Unit)) (spec : ReservableSpec) :
    Prog Op Reply (Except (List q.Error) ℕ) := do
  match ← ports.reserve spec with
  | .error error => .ret (.error [error])
  | .ok entries =>
    let errors ← processEntries items ports work spec.maxAttempts entries []
    .ret (if errors.isEmpty then .ok entries.length else .error errors)

end Batch

section Profiles

variable (float : SerdeJson.FloatReader)

/-- A constant text before a text without U+0000. -/
theorem nulFree_labelled {label s : String} (hl : nulFree label = true) (hs : nulFree s = true) :
    nulFree (label++s) = true := nulFree_append.mpr ⟨hl,hs⟩

/-- The items of `CommandConsumer`. -/
def commandItems : Items (commandQueue float) where
  identity := fun e : CommandEnvelope => .ok (e.id,e.reservationId)
  identity_handed := fun _ _ h => by cases h; rfl
  panicError := CommandError.storage
  panicError_display := fun _ => nulFree_labelled (by decide)

/-- The items of `EventConsumer`. -/
def eventItems : Items (eventQueue float) where
  identity := fun e : EventEnvelope => .ok (e.id,e.reservationId)
  identity_handed := fun _ _ h => by cases h; rfl
  panicError := EventError.storage
  panicError_display := fun _ => nulFree_labelled (by decide)

/-- The items of `InboxConsumer`. -/
def inboxItems : Items (inboxQueue float) where
  identity := fun e : InboxMessageEnvelope =>
    e.reservationId.elim (.error (.missingReservation e.id)) fun token => .ok (e.id,token)
  identity_handed := fun (e : InboxMessageEnvelope) token h => by
    have he : e.reservationId = some token := h
    rw [he]
    rfl
  panicError := InboxError.recording
  panicError_display := fun _ => nulFree_labelled (by decide)

/-- The items of `OutboxConsumer`. -/
def outboxItems : Items (outboxQueue float) where
  identity := fun e : OutboxEntryEnvelope =>
    e.reservationId.elim (.error (.missingReservation e.id)) fun token => .ok (e.id,token)
  identity_handed := fun (e : OutboxEntryEnvelope) token h => by
    have he : e.reservationId = some token := h
    rw [he]
    rfl
  panicError := OutboxError.publish
  panicError_display := fun _ => nulFree_labelled (by decide)

/-- The items of a queue's consumer. -/
def itemsOf (name : QueueName) (float : SerdeJson.FloatReader) : Items (name.queue float) :=
  match name with
  | .commands => commandItems float
  | .events => eventItems float
  | .inbox => inboxItems float
  | .outbox => outboxItems float

/-- The work of `CommandConsumer`. -/
def dispatchCommand (dispatch : NewCommandEnvelope → Prog Op Reply (Except CommandError Unit))
    (entry : CommandEnvelope) : Prog Op Reply (Except CommandError Unit) :=
  dispatch (.ofEnvelope entry)

/-- The work of `EventConsumer`. -/
def dispatchEvent (dispatch : NewEventEnvelope → Prog Op Reply (Except EventError Unit))
    (entry : EventEnvelope) : Prog Op Reply (Except EventError Unit) :=
  dispatch (.ofEnvelope entry)

/-- The work of `InboxConsumer`; an id that is drawn and not used is not seen. -/
def forwardMessage (nowV7 : Prog Op Reply Uuid)
    (dispatch : NewCommandEnvelope → Prog Op Reply (Except CommandError Unit))
    (message : InboxMessageEnvelope) : Prog Op Reply (Except InboxError Unit) := do
  let drawn ← nowV7
  match NewCommandEnvelope.ofInbox drawn message with
  | .error error => .ret (.error error)
  | .ok envelope =>
    let result ← dispatch envelope
    .ret (result.mapError fun e => .publishFailed e.display)

/-- The work of `OutboxConsumer`. -/
def publishEntry (publish : OutboundMessageEnvelope → Prog Op Reply (Except OutboxError Unit))
    (entry : OutboxEntryEnvelope) : Prog Op Reply (Except OutboxError Unit) :=
  match OutboundMessageEnvelope.ofEntry entry with
  | .error error => .ret (.error error)
  | .ok outbound => publish outbound

/-- `CommandConsumer::consume`. -/
def consumeCommands (ports : Ports (commandQueue float) Op Reply)
    (dispatch : NewCommandEnvelope → Prog Op Reply (Except CommandError Unit))
    (spec : ReservableSpec) : Prog Op Reply (Except (List CommandError) ℕ) :=
  consume (commandItems float) ports (dispatchCommand dispatch) spec

/-- `EventConsumer::consume`. -/
def consumeEvents (ports : Ports (eventQueue float) Op Reply)
    (dispatch : NewEventEnvelope → Prog Op Reply (Except EventError Unit))
    (spec : ReservableSpec) : Prog Op Reply (Except (List EventError) ℕ) :=
  consume (eventItems float) ports (dispatchEvent dispatch) spec

/-- `InboxConsumer::process`. -/
def processInbox (ports : Ports (inboxQueue float) Op Reply) (nowV7 : Prog Op Reply Uuid)
    (dispatch : NewCommandEnvelope → Prog Op Reply (Except CommandError Unit))
    (spec : ReservableSpec) : Prog Op Reply (Except (List InboxError) ℕ) :=
  consume (inboxItems float) ports (forwardMessage nowV7 dispatch) spec

/-- `OutboxConsumer::publish_batch`. -/
def publishBatch (ports : Ports (outboxQueue float) Op Reply)
    (publish : OutboundMessageEnvelope → Prog Op Reply (Except OutboxError Unit))
    (spec : ReservableSpec) : Prog Op Reply (Except (List OutboxError) ℕ) :=
  consume (outboxItems float) ports (publishEntry publish) spec

end Profiles

section Texts

/-- A context has no U+0000 of its own. -/
theorem context_nulFree (identity : Uuid × Uuid) {stage : String} (h : nulFree stage = true) :
    nulFree (context identity stage) = true := by
  have hi : nulFree identity.1.display = true := nulFree_iff.mpr identity.1.display_no_nul
  have ht : nulFree identity.2.display = true := nulFree_iff.mpr identity.2.display_no_nul
  have hk : nulFree "item " = true ∧ nulFree ", reservation " = true ∧
      nulFree ", stage " = true := by decide
  simp only [context,nulFree_append]
  exact ⟨⟨⟨⟨⟨hk.1,hi⟩,hk.2.1⟩,ht⟩,hk.2.2⟩,h⟩

theorem panicked_nulFree (identity : Uuid × Uuid) {stage : String} (h : nulFree stage = true) :
    nulFree (panicked identity stage) = true :=
  nulFree_append.mpr ⟨context_nulFree identity h,by decide⟩

/-- A reason can be stored exactly when the error it shows can. -/
theorem failureReason_nulFree (identity : Uuid × Uuid) {stage : String}
    (h : nulFree stage = true) (error : String) :
    nulFree (failureReason identity stage error) = nulFree error := by
  have hc := context_nulFree identity h
  have hk : nulFree ": " = true := by decide
  rw [Bool.eq_iff_iff,failureReason,nulFree_append,nulFree_append]
  simp [hc,hk]

end Texts

end Mulac.Consumers
