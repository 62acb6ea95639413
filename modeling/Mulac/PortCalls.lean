import Mulac.QueueCalls
import Mulac.Consumers

/-!
# The calls of a batch

The ports of a consumer as operations of a program, what a repository does when
such an operation acts as specified, and what may happen when its reply is lost
or the call has no effect.
-/

namespace Mulac.PortCalls

open Identifiers QueueRow QueueDomain Repository RepositoryContracts QueueCalls PanicProgram
  Consumers

variable {q : Queue}

/-- The port calls of a consumer. -/
inductive PortOp (q : Queue) where
  /-- `reserve`. -/
  | reserve (spec : ReservableSpec)
  /-- `completed`. -/
  | completed (id token : Uuid)
  /-- `failed`. -/
  | failed (id token : Uuid) (maxAttempts : ℤ) (reason : Option String)

/-- What a port call returns. -/
def PortOp.Reply : PortOp q → Type
  | reserve _ => Except q.Error (List q.Envelope)
  | completed _ _ => Except q.Error Unit
  | failed _ _ _ _ => Except q.Error Unit

/-- A reply that reports an error or a panic. -/
def Uncertain {ε α : Type} (reply : Option (Except ε α)) : Prop := ∀ a, reply ≠ some (.ok a)

/-- What may become of a call: it acts as specified, its reply is lost, or it has
no effect. -/
inductive Lossy {ε α : Type} (t : Rows q) (call : Except ε α × Rows q) :
    Option (Except ε α) → Rows q → Prop
  /-- The call acts as specified. -/
  | acts : Lossy t call (some call.1) call.2
  /-- The call commits, but reports an error or panics. -/
  | lost {reply : Option (Except ε α)} : Uncertain reply → Lossy t call reply call.2
  /-- The call has no effect, and reports an error or panics. -/
  | refused {reply : Option (Except ε α)} : Uncertain reply → Lossy t call reply t

/-- A call whose result is known may act as specified. -/
theorem Lossy.of_result {ε α : Type} {call : Except ε α × Rows q} {result : Except ε α}
    (h : call.1 = result) (t : Rows q) : Lossy t call (some result) call.2 := h ▸ .acts

/-- The effect of a call is all or nothing. -/
theorem Lossy.table {ε α : Type} {t t' : Rows q} {call : Except ε α × Rows q}
    {reply : Option (Except ε α)} (h : Lossy t call reply t') : t' = call.2 ∨ t' = t := by
  cases h with
  | acts => exact .inl rfl
  | lost _ => exact .inl rfl
  | refused _ => exact .inr rfl

/-- A call that returns `Ok` has acted as specified. -/
theorem Lossy.of_ok {ε α : Type} {t t' : Rows q} {call : Except ε α × Rows q} {a : α}
    (h : Lossy t call (some (.ok a)) t') : call.1 = .ok a ∧ t' = call.2 := by
  generalize hr : some (Except.ok a) = reply at h
  cases h with
  | acts => exact ⟨(Option.some.inj hr).symm,rfl⟩
  | lost hu => exact absurd hr.symm (hu a)
  | refused hu => exact absurd hr.symm (hu a)

/-- A call of the repository by a batch, or the work on one of its entries. -/
inductive BatchOp (q : Queue) where
  /-- A port call. -/
  | port (op : PortOp q)
  /-- The closure that converts an entry and hands it over. -/
  | work (entry : q.Envelope)

/-- What an operation of a batch returns. -/
def BatchOp.Reply : BatchOp q → Type
  | port op => op.Reply
  | work _ => Except q.Error Unit

/-- The ports of a batch. -/
def batchPorts : Ports q (BatchOp q) BatchOp.Reply where
  reserve := fun spec => Prog.perform (BatchOp.port (.reserve spec))
  completed := fun id token => Prog.perform (BatchOp.port (.completed id token))
  failed := fun id token maxAttempts reason =>
    Prog.perform (BatchOp.port (.failed id token maxAttempts reason))

/-- The work on an entry, with whatever outcome it has. -/
def performWork (entry : q.Envelope) : Prog (BatchOp q) BatchOp.Reply (Except q.Error Unit) :=
  Prog.perform (BatchOp.work entry)

/-- One batch of a consumer. -/
def batch (items : Items q) (spec : ReservableSpec) :
    Prog (BatchOp q) BatchOp.Reply (Except (List q.Error) ℕ) :=
  consume items batchPorts performWork spec

end Mulac.PortCalls
