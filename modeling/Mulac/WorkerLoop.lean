import Mulac.AmqpConsumption
import Mulac.AmqpPublishing

/-!
# The worker loop

`WorkerLoop::run` over `AmqpTransport` is a future: it stops at its await
points, and what happens next is up to the broker, the blocking threads and the
token. A state is the await point with everything that was done so far, and an
event is one thing that can happen to it. Only `tokio::select!` looks at the
token, so a delivery that reached the store is settled before the loop can end,
unless the task that stores it comes to nothing.
-/

namespace Mulac.WorkerLoop

open Identifiers Envelopes AmqpConsumption AmqpPublishing

section Model

/-- `AmqpClientError`; nothing reads the inner error of `InvalidUtf8`. -/
inductive AmqpClientError where
  /-- An error of the consumer. -/
  | lapin (error : LapinError)
  /-- A body that is not UTF-8. -/
  | invalidUtf8
  deriving DecidableEq

/-- `Display for AmqpClientError`, of the errors that are propagated. -/
def AmqpClientError.display : AmqpClientError → String
  | lapin error => "lapin error: "++error.display
  | invalidUtf8 => "invalid utf-8 payload: "

/-- What the consumer stream yields. -/
inductive StreamItem where
  /-- `Some(Ok(delivery))`. -/
  | delivery (d : Delivery)
  /-- `Some(Err(error))`. -/
  | error (error : LapinError)
  /-- `None`. -/
  | closed

/-- `BasicAckOptions`. -/
structure BasicAckOptions where
  /-- Whether all earlier deliveries are meant too. -/
  multiple : Bool
  deriving DecidableEq

/-- `BasicAckOptions::default`. -/
def BasicAckOptions.default : BasicAckOptions := ⟨false⟩

/-- `BasicNackOptions`. -/
structure BasicNackOptions where
  /-- Whether all earlier deliveries are meant too. -/
  multiple : Bool
  /-- Whether the broker delivers again. -/
  requeue : Bool
  deriving DecidableEq

/-- `BasicNackOptions::default`. -/
def BasicNackOptions.default : BasicNackOptions := ⟨false,false⟩

/-- `JoinError`, by what it displays. -/
structure JoinError where
  /-- The text. -/
  display : String
  deriving DecidableEq

/-- What a blocking task is awaited for. -/
abbrev Joined := Except JoinError (Except InboxError Unit)

/-- The blocking task that stores a message. -/
inductive Task where
  /-- It waits for a thread. -/
  | queued
  /-- It is in `store`. -/
  | running
  /-- It is over. -/
  | done (joined : Joined)

/-- What is done with a delivery. -/
inductive Act where
  /-- The stream yields it. -/
  | received (d : Delivery)
  /-- `spawn_blocking` of a task that stores this entry. -/
  | spawn (entry : NewInboxMessageEnvelope)
  /-- The task calls `store`. -/
  | call
  /-- `store` returns. -/
  | finish (result : Except InboxError Unit)
  /-- `store` panics. -/
  | panicked
  /-- The task is aborted while it waits for a thread. -/
  | aborted
  /-- `Acker::ack`. -/
  | ack (options : BasicAckOptions)
  /-- `Acker::nack`. -/
  | nack (options : BasicNackOptions)

/-- Where `run` awaits; deliveries go by their numbers. -/
inductive Point where
  /-- The outer `select!`, and in it the stream of `AmqpClient::next`. -/
  | next
  /-- The outer `select!`, and in it the nack of a delivery that has no message; the error is the
  one that `next` returns after it, if it returns one. -/
  | discarding (n : ℕ) (error : Option AmqpClientError)
  /-- The task that stores a delivery. -/
  | storing (n : ℕ) (task : Task)
  /-- The ack of a delivery. -/
  | acking (n : ℕ)
  /-- The nack of a delivery. -/
  | nacking (n : ℕ)
  /-- The inner `select!` after a nack. -/
  | backoff
  /-- The inner `select!` after an error of the transport. -/
  | closing (error : InboxError)
  /-- Nowhere: `run` has returned. -/
  | returned (result : Except InboxError Unit)

/-- The loop, with what it did. -/
structure State where
  /-- Whether the token is cancelled. -/
  token : Bool
  /-- How many deliveries the stream has yielded. -/
  received : ℕ
  /-- What was done with each of them, in order. -/
  log : List (ℕ × Act)
  /-- Where it awaits. -/
  point : Point

/-- The call of `run`. -/
def initial (token : Bool) : State := ⟨token,0,[],.next⟩

/-- Something is done with a delivery, and the loop awaits there. -/
def State.acts (s : State) (n : ℕ) (a : Act) (point : Point) : State :=
  { s with log := s.log++[(n,a)], point := point }

/-- The loop awaits there. -/
def State.awaits (s : State) (point : Point) : State := { s with point := point }

/-- `unpack`, up to the metadata. -/
def unpacked (d : Delivery) : Except AmqpClientError AmqpMessage :=
  match unpack d with
  | some message => .ok message
  | none => .error .invalidUtf8

/-- `AmqpTransport::next`, on what `AmqpClient::next` returns. -/
def transported : Except AmqpClientError (Option (AmqpMessage × ℕ)) →
    Except InboxError (Option (InboundMessageEnvelope × ℕ))
  | .ok (some (message,handle)) => .ok (some (inboundOf message,handle))
  | .ok none => .ok none
  | .error e => .error (.transport e.display)

/-- `run`, on what `next` returns; `drawn` is what `Uuid::now_v7` returns. -/
def onNext (s : State) (drawn : Uuid) :
    Except InboxError (Option (InboundMessageEnvelope × ℕ)) → State
  | .ok (some (message,handle)) =>
    s.acts handle (.spawn (NewInboxMessageEnvelope.ofInbound drawn message))
      (.storing handle .queued)
  | .ok none => s.awaits (.returned (.error (.transport "consumer stream closed")))
  | .error e => s.awaits (.closing e)

/-- A turn of the loop in `AmqpClient::next`. -/
def onItem (s : State) (drawn : Uuid) : StreamItem → State
  | .delivery d =>
    let handle := s.received
    let s : State := ⟨s.token,s.received+1,s.log++[(handle,.received d)],s.point⟩
    match unpacked d with
    | .ok message => onNext s drawn (transported (.ok (some (message,handle))))
    | .error .invalidUtf8 => s.acts handle (.nack .default) (.discarding handle none)
    | .error e => s.acts handle (.nack .default) (.discarding handle (some e))
  | .error e => onNext s drawn (transported (.error (.lapin e)))
  | .closed => onNext s drawn (transported (.ok none))

/-- Its end, once a delivery without a message is refused: the result of the nack is ignored. -/
def onDiscarded (s : State) (drawn : Uuid) : Option AmqpClientError → State
  | none => s.awaits .next
  | some e => onNext s drawn (transported (.error e))

/-- `run`, on what the task returns. -/
def onJoined (s : State) (handle : ℕ) : Joined → State
  | .error e => s.awaits (.returned (.error (.recording e.display)))
  | .ok (.ok ()) => s.acts handle (.ack .default) (.acking handle)
  | .ok (.error _) =>
    s.acts handle (.nack ⟨BasicNackOptions.default.multiple,true⟩) (.nacking handle)

/-- `DeliveryHandle::ack` and `DeliveryHandle::nack`, on what the acker returns. -/
def acknowledged : Except LapinError Unit → Except InboxError Unit
  | .ok () => .ok ()
  | .error e => .error (.acknowledgement e.display)

/-- What can happen. -/
inductive Event where
  /-- Somebody cancels the token. -/
  | cancel
  /-- The stream yields. -/
  | item (item : StreamItem) (drawn : Uuid)
  /-- The nack of a delivery without a message is answered. -/
  | discarded (answer : Except LapinError Unit) (drawn : Uuid)
  /-- A thread takes the task. -/
  | begin
  /-- `store` returns. -/
  | finish (result : Except InboxError Unit)
  /-- `store` panics. -/
  | panic (error : JoinError)
  /-- The task is aborted. -/
  | abort (error : JoinError)
  /-- The task is joined. -/
  | join
  /-- The ack or the nack of a stored delivery is answered. -/
  | settled (answer : Except LapinError Unit)
  /-- The backoff is over. -/
  | slept
  /-- A `select!` takes the branch of the token. -/
  | cancelled

/-- What an event does, where it can happen. -/
def step (s : State) : Event → Option State
  | .cancel => some { s with token := true }
  | .item item drawn =>
    match s.point with
    | .next => some (onItem s drawn item)
    | _ => none
  | .discarded _ drawn =>
    match s.point with
    | .discarding _ error => some (onDiscarded s drawn error)
    | _ => none
  | .begin =>
    match s.point with
    | .storing n .queued => some (s.acts n .call (.storing n .running))
    | _ => none
  | .finish result =>
    match s.point with
    | .storing n .running => some (s.acts n (.finish result) (.storing n (.done (.ok result))))
    | _ => none
  | .panic error =>
    match s.point with
    | .storing n .running => some (s.acts n .panicked (.storing n (.done (.error error))))
    | _ => none
  | .abort error =>
    match s.point with
    | .storing n .queued => some (s.acts n .aborted (.storing n (.done (.error error))))
    | _ => none
  | .join =>
    match s.point with
    | .storing n (.done joined) => some (onJoined s n joined)
    | _ => none
  | .settled answer =>
    match s.point,acknowledged answer with
    | .acking _,.ok () => some (s.awaits .next)
    | .nacking _,.ok () => some (s.awaits .backoff)
    | .acking _,.error e => some (s.awaits (.returned (.error e)))
    | .nacking _,.error e => some (s.awaits (.returned (.error e)))
    | _,_ => none
  | .slept =>
    match s.point with
    | .backoff => some (s.awaits .next)
    | .closing e => some (s.awaits (.returned (.error e)))
    | _ => none
  | .cancelled =>
    if s.token then
      match s.point with
      | .next => some (s.awaits (.returned (.ok ())))
      | .discarding _ _ => some (s.awaits (.returned (.ok ())))
      | .backoff => some (s.awaits (.returned (.ok ())))
      | .closing _ => some (s.awaits (.returned (.ok ())))
      | _ => none
    else none

/-- What a run reaches. -/
inductive Reaches : State → Prop
  /-- The call. -/
  | start (token : Bool) : Reaches (initial token)
  /-- An event. -/
  | step {s s' : State} {e : Event} : Reaches s → step s e = some s' → Reaches s'

theorem unpacked_some {d : Delivery} {m : AmqpMessage} (h : unpack d = some m) :
    unpacked d = .ok m := by rw [unpacked,h]

theorem unpacked_none {d : Delivery} (h : unpack d = none) :
    unpacked d = .error .invalidUtf8 := by rw [unpacked,h]

/-- A delivery with a message is handed to the store. -/
theorem onItem_some {s : State} {drawn : Uuid} {d : Delivery} {m : AmqpMessage}
    (h : unpack d = some m) : onItem s drawn (.delivery d) =
      ⟨s.token,s.received+1,s.log++[(s.received,.received d)]++[(s.received,
        .spawn (NewInboxMessageEnvelope.ofInbound drawn (inboundOf m)))],
        .storing s.received .queued⟩ := by
  simp only [onItem,unpacked_some h]
  rfl

/-- A delivery without a message is refused. -/
theorem onItem_none {s : State} {drawn : Uuid} {d : Delivery} (h : unpack d = none) :
    onItem s drawn (.delivery d) =
      ⟨s.token,s.received+1,s.log++[(s.received,.received d)]++[(s.received,.nack ⟨false,false⟩)],
        .discarding s.received none⟩ := by
  simp only [onItem,unpacked_none h]
  rfl

/-- The await points under a `select!` on the token. -/
inductive Selects : Point → Prop
  /-- The stream. -/
  | next : Selects .next
  /-- The nack inside `next`. -/
  | discarding (n : ℕ) (error : Option AmqpClientError) : Selects (.discarding n error)
  /-- The backoff after a nack. -/
  | backoff : Selects .backoff
  /-- The backoff after an error of the transport. -/
  | closing (error : InboxError) : Selects (.closing error)

/-- Everything that an event can do. -/
inductive Moved (s : State) : Event → State → Prop
  /-- The token is cancelled. -/
  | cancel : Moved s .cancel { s with token := true }
  /-- The stream yields. -/
  | item {item : StreamItem} {drawn : Uuid} : s.point = .next →
    Moved s (.item item drawn) (onItem s drawn item)
  /-- A delivery without a message is refused. -/
  | discarded {n : ℕ} {error : Option AmqpClientError} {answer : Except LapinError Unit}
    {drawn : Uuid} : s.point = .discarding n error →
    Moved s (.discarded answer drawn) (onDiscarded s drawn error)
  /-- The task starts. -/
  | begin {n : ℕ} : s.point = .storing n .queued →
    Moved s .begin (s.acts n .call (.storing n .running))
  /-- `store` returns. -/
  | finish {n : ℕ} {result : Except InboxError Unit} : s.point = .storing n .running →
    Moved s (.finish result) (s.acts n (.finish result) (.storing n (.done (.ok result))))
  /-- `store` panics. -/
  | panic {n : ℕ} {error : JoinError} : s.point = .storing n .running →
    Moved s (.panic error) (s.acts n .panicked (.storing n (.done (.error error))))
  /-- The task is aborted. -/
  | abort {n : ℕ} {error : JoinError} : s.point = .storing n .queued →
    Moved s (.abort error) (s.acts n .aborted (.storing n (.done (.error error))))
  /-- The task is joined. -/
  | join {n : ℕ} {joined : Joined} : s.point = .storing n (.done joined) →
    Moved s .join (onJoined s n joined)
  /-- The ack is answered. -/
  | acked {n : ℕ} : s.point = .acking n → Moved s (.settled (.ok ())) (s.awaits .next)
  /-- The nack is answered. -/
  | nacked {n : ℕ} : s.point = .nacking n → Moved s (.settled (.ok ())) (s.awaits .backoff)
  /-- The ack or the nack fails. -/
  | unsettled {n : ℕ} {error : LapinError} : s.point = .acking n ∨ s.point = .nacking n →
    Moved s (.settled (.error error))
      (s.awaits (.returned (.error (.acknowledgement error.display))))
  /-- The loop goes on after a backoff. -/
  | resumed : s.point = .backoff → Moved s .slept (s.awaits .next)
  /-- The loop ends after a backoff. -/
  | closed {error : InboxError} : s.point = .closing error →
    Moved s .slept (s.awaits (.returned (.error error)))
  /-- The loop ends at the token. -/
  | cancelled : s.token = true → Selects s.point →
    Moved s .cancelled (s.awaits (.returned (.ok ())))

/-- A step is one of these moves. -/
theorem moved_of_step {s s' : State} {e : Event} (hs : step s e = some s') : Moved s e s' := by
  cases e with
  | cancel =>
    cases hs
    exact .cancel
  | item item drawn =>
    cases hpoint : s.point <;> simp only [step,hpoint,reduceCtorEq] at hs
    cases hs
    exact .item hpoint
  | discarded answer drawn =>
    cases hpoint : s.point <;> simp only [step,hpoint,reduceCtorEq] at hs
    cases hs
    exact .discarded hpoint
  | begin =>
    rcases hpoint : s.point with _ | _ | ⟨n,_ | _ | joined⟩ | _ | _ | _ | _ | _ <;>
      simp only [step,hpoint,reduceCtorEq] at hs
    cases hs
    exact .begin hpoint
  | finish result =>
    rcases hpoint : s.point with _ | _ | ⟨n,_ | _ | joined⟩ | _ | _ | _ | _ | _ <;>
      simp only [step,hpoint,reduceCtorEq] at hs
    cases hs
    exact .finish hpoint
  | panic error =>
    rcases hpoint : s.point with _ | _ | ⟨n,_ | _ | joined⟩ | _ | _ | _ | _ | _ <;>
      simp only [step,hpoint,reduceCtorEq] at hs
    cases hs
    exact .panic hpoint
  | abort error =>
    rcases hpoint : s.point with _ | _ | ⟨n,_ | _ | joined⟩ | _ | _ | _ | _ | _ <;>
      simp only [step,hpoint,reduceCtorEq] at hs
    cases hs
    exact .abort hpoint
  | join =>
    rcases hpoint : s.point with _ | _ | ⟨n,_ | _ | joined⟩ | _ | _ | _ | _ | _ <;>
      simp only [step,hpoint,reduceCtorEq] at hs
    cases hs
    exact .join hpoint
  | settled answer =>
    rcases answer with e | ⟨⟩ <;> cases hpoint : s.point <;>
      simp only [step,hpoint,acknowledged,reduceCtorEq] at hs
    all_goals cases hs
    · exact .unsettled (.inl hpoint)
    · exact .unsettled (.inr hpoint)
    · exact .acked hpoint
    · exact .nacked hpoint
  | slept =>
    cases hpoint : s.point <;> simp only [step,hpoint,reduceCtorEq] at hs
    all_goals cases hs
    · exact .resumed hpoint
    · exact .closed hpoint
  | cancelled =>
    cases htoken : s.token with
    | false => simp [step,htoken] at hs
    | true =>
      cases hpoint : s.point <;> simp only [step,htoken,hpoint,if_true,reduceCtorEq] at hs
      all_goals
        cases hs
        refine .cancelled htoken ?_
        rw [hpoint]
        constructor

end Model

section Records

/-- What was done with a delivery, in order. -/
def actsOf (n : ℕ) (log : List (ℕ × Act)) : List Act :=
  (log.filter fun entry => entry.1 = n).map Prod.snd

theorem actsOf_own (n : ℕ) (log : List (ℕ × Act)) (a : Act) :
    actsOf n (log++[(n,a)]) = actsOf n log++[a] := by
  simp [actsOf]

theorem actsOf_other {n k : ℕ} (h : n ≠ k) (log : List (ℕ × Act)) (a : Act) :
    actsOf n (log++[(k,a)]) = actsOf n log := by
  simp [actsOf,h.symm]

/-- What was done with the `n`-th delivery. -/
def State.did (s : State) (n : ℕ) : List Act := actsOf n s.log

/-- A message is handed to a store task. -/
def Act.isSpawn : Act → Bool
  | spawn _ => true
  | _ => false

/-- `store` is called. -/
def Act.isCall : Act → Bool
  | call => true
  | _ => false

/-- An ack is attempted. -/
def Act.isAck : Act → Bool
  | ack _ => true
  | _ => false

/-- A nack is attempted. -/
def Act.isNack : Act → Bool
  | nack _ => true
  | _ => false

end Records

end Mulac.WorkerLoop
