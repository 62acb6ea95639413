import Mathlib.Tactic.Common

/-!
# Programs that may panic

A program calls operations of an outside world and reads their replies; both a
program and a call may panic. Programs are trees, so that one program has
several meanings: a run over a world that answers every call, and the steps of
a worker among others.
-/

namespace Mulac.PanicProgram

/-- A program over the operations `Op`, where `Reply op` is what `op` returns. -/
inductive Prog (Op : Type) (Reply : Op → Type) (α : Type) where
  /-- Return a value. -/
  | ret (a : α)
  /-- Panic. -/
  | panic
  /-- Call an operation; no reply means that the call panicked. -/
  | call (op : Op) (k : Option (Reply op) → Prog Op Reply α)

namespace Prog

variable {Op : Type} {Reply : Op → Type} {α β γ : Type}

/-- Continue with the value of a program; a panic is passed on. -/
def bind (p : Prog Op Reply α) (f : α → Prog Op Reply β) : Prog Op Reply β :=
  match p with
  | ret a => f a
  | panic => panic
  | call op k => call op fun reply => (k reply).bind f

instance : Monad (Prog Op Reply) where
  pure := ret
  bind := bind

@[simp] theorem pure_eq (a : α) : (pure a : Prog Op Reply α) = ret a := rfl

@[simp] theorem ret_bind (a : α) (f : α → Prog Op Reply β) : ret a >>= f = f a := rfl

@[simp] theorem panic_bind (f : α → Prog Op Reply β) :
    (panic : Prog Op Reply α) >>= f = panic := rfl

@[simp] theorem call_bind (op : Op) (k : Option (Reply op) → Prog Op Reply α)
    (f : α → Prog Op Reply β) : call op k >>= f = call op fun reply => k reply >>= f := rfl

/-- Call an operation for its reply. -/
def perform (op : Op) : Prog Op Reply (Reply op) :=
  call op fun
    | some reply => ret reply
    | none => panic

/-- `catch_unwind`: no value means that the program panicked. -/
def catchUnwind (p : Prog Op Reply α) : Prog Op Reply (Option α) :=
  match p with
  | ret a => ret (some a)
  | panic => ret none
  | call op k => call op fun reply => (k reply).catchUnwind

section Run

variable {σ : Type} (handle : (op : Op) → σ → Option (Reply op) × σ)

/-- Run a program in a world that answers every call. -/
def run (p : Prog Op Reply α) (s : σ) : Option α × σ :=
  match p with
  | ret a => (some a,s)
  | panic => (none,s)
  | call op k => (k (handle op s).1).run (handle op s).2

@[simp] theorem run_ret (a : α) (s : σ) : (ret a : Prog Op Reply α).run handle s = (some a,s) := rfl

@[simp] theorem run_panic (s : σ) : (panic : Prog Op Reply α).run handle s = (none,s) := rfl

/-- A run of a sequence runs the first part and, if that returned, the second. -/
theorem run_bind (p : Prog Op Reply α) (f : α → Prog Op Reply β) (s : σ) :
    (p >>= f).run handle s =
      match p.run handle s with
      | (some a,s') => (f a).run handle s'
      | (none,s') => (none,s') := by
  induction p generalizing s with
  | ret a => rfl
  | panic => rfl
  | call op k ih =>
    rw [call_bind]
    exact ih (handle op s).1 (handle op s).2

theorem run_bind_of_some {p : Prog Op Reply α} {s s' : σ} {a : α}
    (h : p.run handle s = (some a,s')) (f : α → Prog Op Reply β) :
    (p >>= f).run handle s = (f a).run handle s' := by
  rw [run_bind,h]

theorem run_bind_of_none {p : Prog Op Reply α} {s s' : σ} (h : p.run handle s = (none,s'))
    (f : α → Prog Op Reply β) : (p >>= f).run handle s = (none,s') := by
  rw [run_bind,h]

theorem run_bind_panicked {p : Prog Op Reply α} {s : σ} (h : (p.run handle s).1 = none)
    (f : α → Prog Op Reply β) : ((p >>= f).run handle s).1 = none := by
  rw [run_bind_of_none handle (Prod.ext h rfl)]

/-- A call is answered by the world. -/
@[simp] theorem run_perform (op : Op) (s : σ) :
    (perform op : Prog Op Reply (Reply op)).run handle s = handle op s := by
  rw [perform,run]
  rcases handle op s with ⟨_ | reply,s'⟩ <;> rfl

/-- A caught program always returns, in the state the program left. -/
@[simp] theorem run_catchUnwind (p : Prog Op Reply α) (s : σ) :
    p.catchUnwind.run handle s = (some (p.run handle s).1,(p.run handle s).2) := by
  induction p generalizing s with
  | ret a => rfl
  | panic => rfl
  | call op k ih => exact ih (handle op s).1 (handle op s).2

end Run

end Prog

end Mulac.PanicProgram
