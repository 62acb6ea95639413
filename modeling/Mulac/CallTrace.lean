import Mulac.PanicProgram

/-!
# The calls of a run

A run of a program in a world that answers every call leaves a trace: the calls
in order, each with its reply. The trace of a sequence is the trace of its first
part, followed by that of the second if the first returned.
-/

namespace Mulac.CallTrace

open PanicProgram

/-- A call and its reply; no reply means that the call panicked. -/
abbrev Observed (Op : Type) (Reply : Op → Type) : Type := (op : Op) × Option (Reply op)

variable {Op : Type} {Reply : Op → Type} {α β σ : Type}

/-- The calls of a run. -/
def trace (handle : (op : Op) → σ → Option (Reply op) × σ) (p : Prog Op Reply α) (s : σ) :
    List (Observed Op Reply) :=
  match p with
  | .ret _ => []
  | .panic => []
  | .call op k => ⟨op,(handle op s).1⟩::trace handle (k (handle op s).1) (handle op s).2

variable {handle : (op : Op) → σ → Option (Reply op) × σ}

@[simp] theorem trace_ret (a : α) (s : σ) :
    trace handle (.ret a : Prog Op Reply α) s = [] := rfl

@[simp] theorem trace_panic (s : σ) : trace handle (.panic : Prog Op Reply α) s = [] := rfl

/-- A single call leaves itself. -/
@[simp] theorem trace_perform (op : Op) (s : σ) :
    trace handle (Prog.perform op : Prog Op Reply (Reply op)) s = [⟨op,(handle op s).1⟩] := by
  rw [Prog.perform,trace]
  rcases handle op s with ⟨_ | reply,s'⟩ <;> rfl

/-- A single call, with its reply. -/
theorem perform_outcome (handle : (op : Op) → σ → Option (Reply op) × σ) (op : Op) (s : σ) :
    ∃ reply s', (Prog.perform op : Prog Op Reply (Reply op)).run handle s = (reply,s') ∧
      trace handle (Prog.perform op : Prog Op Reply (Reply op)) s = [⟨op,reply⟩] :=
  ⟨_,_,Prog.run_perform handle op s,trace_perform op s⟩

/-- A call that returned is in its trace. -/
theorem mem_trace_perform {op : Op} {reply : Reply op} {s s' : σ}
    (h : (Prog.perform op : Prog Op Reply (Reply op)).run handle s = (some reply,s')) :
    (⟨op,some reply⟩ : Observed Op Reply) ∈
      trace handle (Prog.perform op : Prog Op Reply (Reply op)) s := by
  rw [Prog.run_perform] at h
  rw [trace_perform,h]
  exact List.mem_singleton_self _

/-- A sequence calls what its first part calls and then, if that returned, what
its second part calls. -/
theorem trace_bind (p : Prog Op Reply α) (f : α → Prog Op Reply β) (s : σ) :
    trace handle (p >>= f) s = trace handle p s++
      match p.run handle s with
      | (some a,s') => trace handle (f a) s'
      | (none,_) => [] := by
  induction p generalizing s with
  | ret a => rfl
  | panic => rfl
  | call op k ih =>
    rw [Prog.call_bind,trace,ih,trace,Prog.run,List.cons_append]

/-- The trace of a sequence whose first part returned. -/
theorem trace_bind_of_some {p : Prog Op Reply α} {s s' : σ} {a : α}
    (h : p.run handle s = (some a,s')) (f : α → Prog Op Reply β) :
    trace handle (p >>= f) s = trace handle p s++trace handle (f a) s' := by
  rw [trace_bind,h]

/-- The calls of a sequence are those of its parts. -/
theorem forall_trace_bind {P : Observed Op Reply → Prop} {p : Prog Op Reply α}
    {f : α → Prog Op Reply β} {s : σ} (hp : ∀ o ∈ trace handle p s, P o)
    (hf : ∀ a s', ∀ o ∈ trace handle (f a) s', P o) : ∀ o ∈ trace handle (p >>= f) s, P o := by
  intro o ho
  rw [trace_bind] at ho
  rcases List.mem_append.mp ho with ho | ho
  · exact hp o ho
  · generalize p.run handle s = result at ho
    obtain ⟨_ | a,s'⟩ := result
    · cases ho
    · exact hf a s' o ho

/-- A caught program makes the same calls. -/
@[simp] theorem trace_catchUnwind (p : Prog Op Reply α) (s : σ) :
    trace handle p.catchUnwind s = trace handle p s := by
  induction p generalizing s with
  | ret a => rfl
  | panic => rfl
  | call op k ih => rw [Prog.catchUnwind,trace,ih,trace]

/-- Every call of a run, with the state it meets, is of a kind. -/
def Throughout (handle : (op : Op) → σ → Option (Reply op) × σ) (P : Op → σ → Prop) :
    Prog Op Reply α → σ → Prop
  | .ret _,_ => True
  | .panic,_ => True
  | .call op k,s => P op s ∧ Throughout handle P (k (handle op s).1) (handle op s).2

instance decidableThroughout (P : Op → σ → Prop) [∀ op s, Decidable (P op s)] :
    (p : Prog Op Reply α) → (s : σ) → Decidable (Throughout handle P p s)
  | .ret _,_ => .isTrue trivial
  | .panic,_ => .isTrue trivial
  | .call op k,s =>
    have := decidableThroughout P (k (handle op s).1) (handle op s).2
    inferInstanceAs (Decidable (_ ∧ _))

theorem Throughout.imp {P P' : Op → σ → Prop} (himp : ∀ op s, P op s → P' op s)
    {p : Prog Op Reply α} {s : σ} (h : Throughout handle P p s) : Throughout handle P' p s := by
  induction p generalizing s with
  | ret a => trivial
  | panic => trivial
  | call op k ih => exact ⟨himp op s h.1,ih _ h.2⟩

/-- The calls of a sequence are those of its parts. -/
theorem throughout_bind {P : Op → σ → Prop} {p : Prog Op Reply α} {f : α → Prog Op Reply β}
    {s : σ} : Throughout handle P (p >>= f) s ↔ Throughout handle P p s ∧
      ∀ a s', p.run handle s = (some a,s') → Throughout handle P (f a) s' := by
  induction p generalizing s with
  | ret a => simp [Throughout]
  | panic => simp [Throughout]
  | call op k ih =>
    rw [Prog.call_bind,Throughout,Throughout,ih,and_assoc]
    rfl

/-- A single call. -/
theorem throughout_perform {P : Op → σ → Prop} {op : Op} {s : σ} :
    Throughout handle P (Prog.perform op : Prog Op Reply (Reply op)) s ↔ P op s := by
  rw [Prog.perform,Throughout]
  rcases (handle op s).1 with _ | reply <;> simp [Throughout]

/-- A caught program makes the same calls. -/
theorem throughout_catchUnwind {P : Op → σ → Prop} {p : Prog Op Reply α} {s : σ} :
    Throughout handle P p.catchUnwind s ↔ Throughout handle P p s := by
  induction p generalizing s with
  | ret a => rfl
  | panic => rfl
  | call op k ih => rw [Prog.catchUnwind,Throughout,Throughout,ih]

/-- A call of a run meets a state that the calls before it lead to. -/
theorem Throughout.met {P : Op → σ → Prop} {rel : σ → σ → Prop} (hrefl : ∀ s, rel s s)
    (htrans : ∀ {a b c}, rel a b → rel b c → rel a c) {Q : Op → Prop}
    (hcall : ∀ op s, Q op → rel s (handle op s).2) {p : Prog Op Reply α} {s : σ}
    (h : Throughout handle P p s) (hQ : ∀ o ∈ trace handle p s, Q o.1) :
    ∀ o ∈ trace handle p s, ∃ s', rel s s' ∧ P o.1 s' := by
  induction p generalizing s with
  | ret a => exact fun o ho => by cases ho
  | panic => exact fun o ho => by cases ho
  | call op k ih =>
    rw [trace] at hQ ⊢
    intro o ho
    rcases List.mem_cons.mp ho with rfl | ho
    · exact ⟨s,hrefl s,h.1⟩
    · obtain ⟨s',hrel,hP⟩ := ih _ h.2 (fun o ho => hQ o (List.mem_cons_of_mem _ ho)) o ho
      exact ⟨s',htrans (hcall op s (hQ _ List.mem_cons_self)) hrel,hP⟩

/-- A run relates its ends as its calls do. -/
theorem run_related {rel : σ → σ → Prop} (hrefl : ∀ s, rel s s)
    (htrans : ∀ {a b c}, rel a b → rel b c → rel a c) {Q : Op → Prop}
    (hcall : ∀ op s, Q op → rel s (handle op s).2) {p : Prog Op Reply α} {s : σ}
    (hQ : ∀ o ∈ trace handle p s, Q o.1) : rel s (p.run handle s).2 := by
  induction p generalizing s with
  | ret a => exact hrefl s
  | panic => exact hrefl s
  | call op k ih =>
    rw [trace] at hQ
    exact htrans (hcall op s (hQ _ List.mem_cons_self))
      (ih _ fun o ho => hQ o (List.mem_cons_of_mem _ ho))

section InOrder

variable {A ε δ : Type} {report : ε → δ} {items : List A}
  {calls : List (A × Option (Except ε Unit))} {result : Option (Except δ Unit)}

/-- A loop that hands items over one by one until one of them is refused: its calls
with their replies, and what it returns. -/
structure InOrder (report : ε → δ) (items : List A) (calls : List (A × Option (Except ε Unit)))
    (result : Option (Except δ Unit)) : Prop where
  /-- The first of the items, in order. -/
  order : calls.map Prod.fst <+: items
  /-- Nothing after one that was not accepted. -/
  stops : ∀ c ∈ calls.dropLast, c.2 = some (.ok ())
  /-- `Ok` says that all of them were accepted. -/
  accepted : result = some (.ok ()) ↔
    calls.map Prod.fst = items ∧ ∀ c ∈ calls, c.2 = some (.ok ())
  /-- An error says that the last call was refused with it. -/
  refused : ∀ d, result = some (.error d) ↔
    ∃ a e, calls.getLast? = some (a,some (.error e)) ∧ report e = d
  /-- A panic is that of the last call. -/
  panicked : result = none ↔ ∃ a, calls.getLast? = some (a,none)

/-- A loop without items. -/
theorem InOrder.nil (report : ε → δ) : InOrder report ([] : List A) [] (some (.ok ())) where
  order := List.prefix_refl _
  stops := by simp
  accepted := by simp
  refused := by simp
  panicked := by simp

/-- An error ends the loop. -/
theorem InOrder.refused_at (a : A) (rest : List A) (e : ε) :
    InOrder report (a::rest) [(a,some (.error e))] (some (.error (report e))) where
  order := ⟨rest,rfl⟩
  stops := by simp
  accepted := by simp
  refused := by simp
  panicked := by simp

/-- A panic ends the loop. -/
theorem InOrder.panicked_at (a : A) (rest : List A) :
    InOrder report (a::rest) [(a,none)] none where
  order := ⟨rest,rfl⟩
  stops := by simp
  accepted := by simp
  refused := by simp
  panicked := by simp

/-- An accepted call in front does not change which call was last and not accepted. -/
theorem getLast?_accepted (a : A) (calls : List (A × Option (Except ε Unit))) (b : A)
    (reply : Option (Except ε Unit)) (hreply : reply ≠ some (.ok ())) :
    ((a,some (.ok ()))::calls).getLast? = some (b,reply) ↔ calls.getLast? = some (b,reply) := by
  cases calls with
  | nil =>
    constructor
    · intro h
      cases h
      exact absurd rfl hreply
    · intro h
      cases h
  | cons call calls => rw [List.getLast?_cons_cons]

/-- An item that is accepted is followed by the others. -/
theorem InOrder.cons (h : InOrder report items calls result) (a : A) :
    InOrder report (a::items) ((a,some (.ok ()))::calls) result where
  order := List.cons_prefix_cons.mpr ⟨rfl,h.order⟩
  stops := by
    intro c hc
    cases calls with
    | nil => cases hc
    | cons call calls =>
      rcases List.mem_cons.mp hc with rfl | hc
      · rfl
      · exact h.stops c hc
  accepted := by
    rw [h.accepted]
    simp
  refused := by
    intro d
    have hlast := fun b (e : ε) => getLast?_accepted a calls b (some (.error e)) (by simp)
    simp only [h.refused,hlast]
  panicked := by
    have hlast := fun b => getLast?_accepted a calls b none (by simp)
    simp only [h.panicked,hlast]

end InOrder

end Mulac.CallTrace
