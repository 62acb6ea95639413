import Mulac.BatchAccounting
import Mulac.InboxSubmission

/-!
# The workers of the kernel

A worker waits for a tick or for its cancellation, and works off one batch on
every tick. Nothing that a batch does ends the worker: its errors and panics are
logged, and a batch that was begun is always finished. A worker whose token was
cancelled before it waits begins no further batch; if the token is cancelled while
it waits, `select!` may still take the tick.
-/

namespace Mulac.PollingWorkers

open Identifiers QueueRow QueueDomain KeyedTable Repository Envelopes FourQueues PanicProgram
  CallTrace Consumers PortCalls BatchAccounting
open InboxSubmission (JoinError)

section Worker

/-- The branch of `select!` that wins. -/
inductive Poll where
  /-- `token.cancelled()`. -/
  | cancelled
  /-- `sleep(POLL_INTERVAL)`. -/
  | elapsed
  deriving DecidableEq

/-- A line of a worker's log. -/
inductive WorkerLine where
  /-- An error of a batch, as `worker: error`. -/
  | failed (worker error : String)
  /-- A task that came to nothing, as `worker panicked: cause`. -/
  | panicked (worker : String) (cause : JoinError)
  deriving DecidableEq

/-- What a worker asks for outside, beside the calls `Op` of its batches. -/
inductive WorkerOp (Op : Type) where
  /-- `select!` between the token and the next tick. -/
  | select (pollInterval : ℕ)
  /-- `tokio::task::spawn_blocking`. -/
  | spawnBlocking
  /-- `tracing::error!`. -/
  | log (line : WorkerLine)
  /-- A call of the consumer. -/
  | consumer (op : Op)

/-- What comes back; for a task, whether the blocking pool runs it. -/
abbrev WorkerOp.Reply {Op : Type} (Reply : Op → Type) : WorkerOp Op → Type
  | select _ => Poll
  | spawnBlocking => Bool
  | log _ => Unit
  | consumer op => Reply op

/-- `POLL_INTERVAL`, in seconds. -/
def pollInterval : ℕ := 1

/-- `BATCH_SIZE`. -/
def batchSize : ℕ := 10

theorem batchSize_lt : batchSize < 2^64 := by decide

/-- `new(BATCH_SIZE)`. -/
def batchSpec : ReservableSpec := .new batchSize batchSize_lt

variable {Op : Type} {Reply : Op → Type} {α ε : Type}

variable (Reply) in
/-- A part of a worker. -/
abbrev Worker (α : Type) : Type := Prog (WorkerOp Op) (WorkerOp.Reply Reply) α

/-- A consumer's program in the blocking task. -/
def inTask : Prog Op Reply α → Worker Reply α
  | .ret a => .ret a
  | .panic => .panic
  | .call op k => .call (WorkerOp.consumer op) fun reply => inTask (k reply)

/-- The loop over the errors of a batch. -/
def logErrors (worker : String) (display : ε → String) : List ε → Worker Reply Unit
  | [] => return ()
  | e::errors => do
    let _ ← Prog.perform (WorkerOp.log (.failed worker (display e)))
    logErrors worker display errors

/-- One turn of a worker: a batch in the blocking pool, and what is logged of it. -/
def turn (worker : String) (display : ε → String)
    (consume : ReservableSpec → Prog Op Reply (Except (List ε) ℕ)) : Worker Reply Unit := do
  match ← Prog.perform WorkerOp.spawnBlocking with
  | false => Prog.perform (WorkerOp.log (.panicked worker .cancelled))
  | true =>
    match ← (inTask (consume batchSpec)).catchUnwind with
    | none => Prog.perform (WorkerOp.log (.panicked worker .panicked))
    | some (.ok _) => return ()
    | some (.error errors) => logErrors worker display errors

/-- So many rounds of the endless loop of a worker, and whether it has ended. -/
def rounds (worker : String) (display : ε → String)
    (consume : ReservableSpec → Prog Op Reply (Except (List ε) ℕ)) : ℕ → Worker Reply Bool
  | 0 => return false
  | n+1 => do
    match ← Prog.perform (WorkerOp.select pollInterval) with
    | .cancelled => return true
    | .elapsed => do
      let _ ← turn worker display consume
      rounds worker display consume n

/-- `run_command_worker`. -/
def runCommandWorker {float : SerdeJson.FloatReader} (ports : Ports (commandQueue float) Op Reply)
    (dispatch : NewCommandEnvelope → Prog Op Reply (Except CommandError Unit)) :
    ℕ → Worker Reply Bool :=
  rounds "command worker" CommandError.display (consumeCommands float ports dispatch)

/-- `run_event_worker`. -/
def runEventWorker {float : SerdeJson.FloatReader} (ports : Ports (eventQueue float) Op Reply)
    (dispatch : NewEventEnvelope → Prog Op Reply (Except EventError Unit)) :
    ℕ → Worker Reply Bool :=
  rounds "event worker" EventError.display (consumeEvents float ports dispatch)

end Worker

section Runtime

variable {Op : Type} {Reply : Op → Type} {σ : Type}

/-- The runtime of a worker, and all that happens beside it. -/
structure Runtime (Op : Type) (Reply : Op → Type) (σ : Type) where
  /-- Whether the token is cancelled. -/
  cancelled : σ → Bool
  /-- How `select!` ends. -/
  select : σ → Poll × σ
  /-- Whether the blocking pool runs a task. -/
  pool : σ → Bool × σ
  /-- How a call of the consumer is answered. -/
  answer : (op : Op) → σ → Option (Reply op) × σ
  /-- A sleep that has just begun is not over, so a cancelled token wins. -/
  cancelled_wins : ∀ s, cancelled s = true → (select s).1 = .cancelled
  /-- Only a cancelled token wins over the sleep. -/
  wins_cancelled : ∀ s, (select s).1 = .cancelled → cancelled (select s).2 = true

/-- What a worker runs in. -/
structure WorkerWorld (σ : Type) where
  /-- The world of the consumer. -/
  inner : σ
  /-- The log. -/
  log : List WorkerLine

/-- How the runtime answers. -/
def Runtime.respond (rt : Runtime Op Reply σ) :
    (op : WorkerOp Op) → WorkerWorld σ → Option (op.Reply Reply) × WorkerWorld σ
  | .select _,w => (some (rt.select w.inner).1,{ w with inner := (rt.select w.inner).2 })
  | .spawnBlocking,w => (some (rt.pool w.inner).1,{ w with inner := (rt.pool w.inner).2 })
  | .log line,w => (some (),{ w with log := w.log++[line] })
  | .consumer op,w => ((rt.answer op w.inner).1,{ w with inner := (rt.answer op w.inner).2 })

variable {α ε : Type} (rt : Runtime Op Reply σ) (worker : String) (display : ε → String)
  (consume : ReservableSpec → Prog Op Reply (Except (List ε) ℕ))

/-- The world in which a round's batch would run. -/
def Runtime.begun (s : σ) : σ := (rt.pool (rt.select s).2).2

/-- Whether the batch of a round would run. -/
def Runtime.runs (s : σ) : Bool := (rt.pool (rt.select s).2).1

/-- What a round leaves of the world. -/
def afterRound (s : σ) : σ :=
  if rt.runs s then ((consume batchSpec).run rt.answer (rt.begun s)).2 else rt.begun s

/-- What a round logs. -/
def roundLines (s : σ) : List WorkerLine :=
  if rt.runs s then
    match ((consume batchSpec).run rt.answer (rt.begun s)).1 with
    | none => [.panicked worker .panicked]
    | some (.ok _) => []
    | some (.error errors) => errors.map fun e => .failed worker (display e)
  else [.panicked worker .cancelled]

/-- The world before a round, if none before it was cancelled. -/
def before (s : σ) : ℕ → σ
  | 0 => s
  | i+1 => before (afterRound rt consume s) i

/-- A round later, the world is the one that the round leaves. -/
theorem before_succ (s : σ) (i : ℕ) :
    before rt consume s (i+1) = afterRound rt consume (before rt consume s i) := by
  induction i generalizing s with
  | zero => rfl
  | succ i ih => exact ih (afterRound rt consume s)

/-- What the first rounds log. -/
def linesOf (s : σ) (k : ℕ) : List WorkerLine :=
  (List.range k).flatMap fun i => roundLines rt worker display consume (before rt consume s i)

theorem linesOf_succ (s : σ) (k : ℕ) : linesOf rt worker display consume s (k+1) =
    roundLines rt worker display consume s++
      linesOf rt worker display consume (afterRound rt consume s) k := by
  rw [linesOf,List.range_succ_eq_map,List.flatMap_cons,List.flatMap_map]
  rfl

/-- In its task a consumer runs as it does alone. -/
theorem run_inTask (p : Prog Op Reply α) (w : WorkerWorld σ) :
    (inTask p).run rt.respond w =
      ((p.run rt.answer w.inner).1,{ w with inner := (p.run rt.answer w.inner).2 }) := by
  induction p generalizing w with
  | ret a => rfl
  | panic => rfl
  | call op k ih => exact ih _ _

/-- Every error of a batch is logged. -/
theorem run_logErrors (errors : List ε) (w : WorkerWorld σ) :
    (logErrors worker display errors : Worker Reply Unit).run rt.respond w =
      (some (),{ w with log := w.log++errors.map fun e => .failed worker (display e) }) := by
  induction errors generalizing w with
  | nil =>
    rw [List.map_nil,List.append_nil]
    rfl
  | cons e errors ih =>
    rw [logErrors,Prog.run_bind_of_some _ (Prog.run_perform _ _ _),ih]
    simp only [List.map_cons,List.append_assoc,List.singleton_append]

/-- A turn ends whatever its batch does. -/
theorem run_turn {s : σ} {log : List WorkerLine} :
    (turn worker display consume).run rt.respond ⟨(rt.select s).2,log⟩ =
      (some (),⟨afterRound rt consume s,log++roundLines rt worker display consume s⟩) := by
  rw [turn,Prog.run_bind_of_some _ (Prog.run_perform _ _ _),afterRound,roundLines]
  cases hr : rt.runs s with
  | false =>
    have hpool : (rt.pool (rt.select s).2).1 = false := hr
    dsimp only
    rw [hpool]
    rfl
  | true =>
    have hpool : (rt.pool (rt.select s).2).1 = true := hr
    have hcaught : (inTask (consume batchSpec)).catchUnwind.run rt.respond ⟨rt.begun s,log⟩ =
        (some ((consume batchSpec).run rt.answer (rt.begun s)).1,
          ⟨((consume batchSpec).run rt.answer (rt.begun s)).2,log⟩) := by
      rw [Prog.run_catchUnwind,run_inTask]
    dsimp only
    rw [hpool]
    refine (Prog.run_bind_of_some rt.respond hcaught _).trans ?_
    rw [if_pos rfl,if_pos rfl]
    cases ((consume batchSpec).run rt.answer (rt.begun s)).1 with
    | none => rfl
    | some result =>
      cases result with
      | ok n => exact congrArg (fun l => (some (),WorkerWorld.mk _ l)) (List.append_nil log).symm
      | error errors => exact run_logErrors rt worker display errors _

/-- The loop goes on until the token wins, and then ends. -/
theorem run_rounds (n : ℕ) (s : σ) (log : List WorkerLine) :
    ∃ k ≤ n, (∀ i < k, (rt.select (before rt consume s i)).1 = .elapsed) ∧
      (k < n → (rt.select (before rt consume s k)).1 = .cancelled) ∧
      (rounds worker display consume n).run rt.respond ⟨s,log⟩ =
        (some (decide (k < n)),
          ⟨if k < n then (rt.select (before rt consume s k)).2 else before rt consume s k,
            log++linesOf rt worker display consume s k⟩) := by
  induction n generalizing s log with
  | zero =>
    refine ⟨0,Nat.le_refl 0,nofun,nofun,?_⟩
    rw [linesOf,List.range_zero,List.flatMap_nil,List.append_nil]
    rfl
  | succ n ih =>
    rw [rounds,Prog.run_bind_of_some _ (Prog.run_perform _ _ _)]
    cases hp : (rt.select s).1 with
    | cancelled =>
      refine ⟨0,Nat.zero_le _,nofun,fun _ => hp,?_⟩
      rw [linesOf,List.range_zero,List.flatMap_nil,List.append_nil]
      rfl
    | elapsed =>
      obtain ⟨k,hk,hpolled,hended,hrun⟩ := ih (afterRound rt consume s)
        (log++roundLines rt worker display consume s)
      refine ⟨k+1,Nat.succ_le_succ hk,?_,fun h => hended (Nat.lt_of_succ_lt_succ h),?_⟩
      · intro i hi
        cases i with
        | zero => exact hp
        | succ i => exact hpolled i (Nat.lt_of_succ_lt_succ hi)
      · dsimp only
        rw [Prog.run_bind_of_some _ (run_turn rt worker display consume),hrun]
        simp only [Nat.add_lt_add_iff_right,before,linesOf_succ,List.append_assoc]

end Runtime

section Life

variable {name : QueueName} {float : SerdeJson.FloatReader} {Op : Type} {Reply : Op → Type}
  {σ : Type}

/-- What a round calls and logs: nothing but a line if the pool refuses its task, and otherwise
one reservation of a full batch, all the calls for each of its entries, and a line for each of
their errors. -/
inductive Round (name : QueueName) (float : SerdeJson.FloatReader) (worker : String) :
    List (Observed (BatchOp (name.queue float)) BatchOp.Reply) → List WorkerLine → Prop
  /-- The pool refuses the task. -/
  | refused : Round name float worker [] [.panicked worker .cancelled]
  /-- The reservation panics. -/
  | panicked : Round name float worker [⟨.port (.reserve batchSpec),none⟩]
      [.panicked worker .panicked]
  /-- The reservation fails. -/
  | unreserved (error : (name.queue float).Error) :
      Round name float worker [⟨.port (.reserve batchSpec),some (.error error)⟩]
        [.failed worker ((name.queue float).display error)]
  /-- The whole batch is worked off. -/
  | worked (entries : List (name.queue float).Envelope)
      (outcomes : List (Outcomes (name.queue float).Error)) :
      outcomes.length = entries.length →
      Round name float worker
        (⟨.port (.reserve batchSpec),some (.ok entries)⟩::
          (entries.zip outcomes).flatMap fun p => itemCalls batchSpec.maxAttempts p.1 p.2)
        (((entries.zip outcomes).flatMap fun p => itemErrors p.1 p.2).map fun e =>
          .failed worker ((name.queue float).display e))

variable (rt : Runtime Op Reply σ) (worker : String) (ports : Ports (name.queue float) Op Reply)
  (work : (name.queue float).Envelope → Prog Op Reply (Except (name.queue float).Error Unit))

/-- The calls of a round. -/
def roundCalls (s : σ) : List (Observed (BatchOp (name.queue float)) BatchOp.Reply) :=
  if rt.runs s then
    trace (closures rt.answer ports work) (batch (itemsOf name float) batchSpec) (rt.begun s)
  else []

/-- Every round is one of these. -/
theorem round_shape (s : σ) : Round name float worker (roundCalls rt ports work s)
    (roundLines rt worker (name.queue float).display
      (consume (itemsOf name float) ports work) s) := by
  rw [roundCalls,roundLines]
  cases rt.runs s with
  | false => exact .refused
  | true =>
    rw [if_pos rfl,if_pos rfl,run_consume_closures]
    generalize rt.begun s = s₀
    obtain ⟨reply,s₁,hreserve,hcall⟩ :
        ∃ (reply : Option (Except (name.queue float).Error (List (name.queue float).Envelope)))
          (s₁ : σ),
          (batchPorts.reserve batchSpec).run (closures rt.answer ports work) s₀ = (reply,s₁) ∧
          trace (closures rt.answer ports work) (batchPorts.reserve batchSpec) s₀ =
            [⟨.port (.reserve batchSpec),reply⟩] :=
      perform_outcome (closures rt.answer ports work) (.port (.reserve batchSpec)) s₀
    rw [batch,consume,trace_bind,Prog.run_bind,hreserve,hcall]
    rcases reply with _ | error | entries
    · exact .panicked
    · exact .unreserved error
    · obtain ⟨outcomes,s₂,hlen,hrun,htrace⟩ := processEntries_outcome
        (closures rt.answer ports work) batchSpec.maxAttempts entries [] s₁
      rw [List.nil_append] at hrun
      dsimp only
      rw [trace_bind_of_some hrun,htrace,Prog.run_bind_of_some _ hrun,trace_ret,List.append_nil,
        Prog.run_ret]
      have hworked : Round name float worker _ _ := .worked entries outcomes hlen
      generalize (entries.zip outcomes).flatMap (fun p => itemErrors p.1 p.2) = errors at hworked ⊢
      cases errors <;> exact hworked

/-- The life of a worker so far: its rounds, and how it ended. -/
structure WorkerLife (n : ℕ) (s : σ) (k : ℕ) (ended : Bool) (w : WorkerWorld σ) : Prop where
  /-- It ends between two rounds, or goes on for all of them. -/
  between : k ≤ n ∧ (ended = true ↔ k < n)
  /-- It ends only if it is cancelled. -/
  cancelled : ended = true → rt.cancelled w.inner = true
  /-- If it is cancelled before it waits, it works off nothing more. -/
  prompt : ∀ i, rt.cancelled (before rt (consume (itemsOf name float) ports work) s i) = true →
    k ≤ i
  /-- Every round that began is finished, whatever its calls return. -/
  finished : ∀ i < k, Round name float worker
    (roundCalls rt ports work (before rt (consume (itemsOf name float) ports work) s i))
    (roundLines rt worker (name.queue float).display (consume (itemsOf name float) ports work)
      (before rt (consume (itemsOf name float) ports work) s i))
  /-- The log has the lines of the rounds in order, and no other. -/
  log : w.log = linesOf rt worker (name.queue float).display
    (consume (itemsOf name float) ports work) s k

end Life

/-- A worker in any runtime, with any ports and any work, whatever happens beside it: nothing
ends it but its cancellation, which it obeys between two rounds, and every round that it begins
works off a whole batch. -/
theorem worker_life (name : QueueName) (float : SerdeJson.FloatReader) {Op : Type}
    {Reply : Op → Type} {σ : Type} (rt : Runtime Op Reply σ) (worker : String)
    (ports : Ports (name.queue float) Op Reply)
    (work : (name.queue float).Envelope → Prog Op Reply (Except (name.queue float).Error Unit))
    (n : ℕ) (s : σ) :
    ∃ k ended w, (rounds worker (name.queue float).display
        (consume (itemsOf name float) ports work) n).run rt.respond ⟨s,[]⟩ = (some ended,w) ∧
      WorkerLife rt worker ports work n s k ended w := by
  obtain ⟨k,hk,hpolled,hended,hrun⟩ := run_rounds rt worker (name.queue float).display
    (consume (itemsOf name float) ports work) n s []
  refine ⟨k,_,_,hrun,⟨hk,decide_eq_true_iff⟩,?_,?_,?_,List.nil_append _⟩
  · intro h
    have hlt : k < n := of_decide_eq_true h
    dsimp only
    rw [if_pos hlt]
    exact rt.wins_cancelled _ (hended hlt)
  · intro i hc
    by_contra hlt
    have hno := hpolled i (Nat.lt_of_not_le hlt)
    rw [rt.cancelled_wins _ hc] at hno
    cases hno
  · exact fun i _ => round_shape rt worker ports work _

example {float : SerdeJson.FloatReader} {Op : Type} {Reply : Op → Type}
    (ports : Ports (commandQueue float) Op Reply)
    (dispatch : NewCommandEnvelope → Prog Op Reply (Except CommandError Unit)) :
    runCommandWorker ports dispatch =
      rounds "command worker" (QueueName.commands.queue float).display
        (consume (itemsOf .commands float) ports (dispatchCommand dispatch)) := rfl

example {float : SerdeJson.FloatReader} {Op : Type} {Reply : Op → Type}
    (ports : Ports (eventQueue float) Op Reply)
    (dispatch : NewEventEnvelope → Prog Op Reply (Except EventError Unit)) :
    runEventWorker ports dispatch =
      rounds "event worker" (QueueName.events.queue float).display
        (consume (itemsOf .events float) ports (dispatchEvent dispatch)) := rfl

end Mulac.PollingWorkers
