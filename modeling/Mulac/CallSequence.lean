import Mathlib.Algebra.GroupWithZero.Nat
import Mathlib.Data.Finset.Card

/-!
# Sequences of calls on a shared state

Atomic calls of any number of clients reach a shared state in some order. The
state before the `i`-th call is `stateAt i`, and the trace lists the calls with
the states they meet. Four rules carry facts along a sequence: an invariant
that every call keeps, a relation that every call respects, the call at which a
property was lost, and a potential that pays for what the calls cost.
-/

namespace Mulac.CallSequence

variable {σ ι : Type*} (step : σ → ι → σ)

/-- The state after a list of calls. -/
def after (s : σ) (calls : List ι) : σ := calls.foldl step s

/-- The state before the `i`-th call. -/
def stateAt (s : σ) (calls : List ι) (i : ℕ) : σ := after step s (calls.take i)

@[simp] theorem stateAt_zero (s : σ) (calls : List ι) : stateAt step s calls 0 = s := rfl

theorem stateAt_length (s : σ) (calls : List ι) :
    stateAt step s calls calls.length = after step s calls := by
  rw [stateAt,List.take_length]

/-- A call takes the state before it to the state before the next one. -/
theorem stateAt_succ (s : σ) (calls : List ι) {i : ℕ} (h : i < calls.length) :
    stateAt step s calls (i+1) = step (stateAt step s calls i) calls[i] := by
  rw [stateAt,stateAt,after,after,List.take_succ_eq_append_getElem h,List.foldl_append]
  rfl

/-- The calls of a sequence, each with the state it meets. -/
def trace : σ → List ι → List (σ × ι)
  | _,[] => []
  | s,c::calls => (s,c)::trace (step s c) calls

theorem trace_append (s : σ) (calls later : List ι) :
    trace step s (calls++later) = trace step s calls++trace step (after step s calls) later := by
  induction calls generalizing s with
  | nil => rfl
  | cons c calls ih => rw [List.cons_append,trace,ih,trace,List.cons_append]; rfl

/-- The trace up to a call, and the call. -/
theorem trace_take_succ (s : σ) (calls : List ι) {i : ℕ} (h : i < calls.length) :
    trace step s (calls.take (i+1)) =
      trace step s (calls.take i)++[(stateAt step s calls i,calls[i])] := by
  rw [List.take_succ_eq_append_getElem h,trace_append]
  rfl

/-- What every call keeps holds of every state of the trace. -/
theorem trace_keeps (inv : σ → Prop) (hs : ∀ s c, inv s → inv (step s c)) {s : σ}
    {calls : List ι} (h0 : inv s) : ∀ x ∈ trace step s calls, inv x.1 := by
  induction calls generalizing s with
  | nil => nofun
  | cons c calls ih =>
    intro x hx
    rcases List.mem_cons.mp hx with rfl | hx
    · exact h0
    · exact ih (hs s c h0) x hx

/-- What every call keeps holds before every call. -/
theorem invariant (inv : σ → Prop) {s : σ} {calls : List ι} (h0 : inv s)
    (hs : ∀ i (h : i < calls.length), inv (stateAt step s calls i) →
      inv (step (stateAt step s calls i) calls[i])) (i : ℕ) (hi : i ≤ calls.length) :
    inv (stateAt step s calls i) := by
  induction i with
  | zero => exact h0
  | succ i ih =>
    rw [stateAt_succ step s calls (by omega)]
    exact hs i (by omega) (ih (by omega))

/-- A reflexive and transitive relation that every call respects relates every
two states in order. -/
theorem related (rel : σ → σ → Prop) (hr : ∀ s, rel s s)
    (ht : ∀ {a b c}, rel a b → rel b c → rel a c) {s : σ} {calls : List ι}
    (hs : ∀ i (h : i < calls.length), rel (stateAt step s calls i)
      (step (stateAt step s calls i) calls[i]))
    {i j : ℕ} (hij : i ≤ j) (hj : j ≤ calls.length) :
    rel (stateAt step s calls i) (stateAt step s calls j) := by
  induction j with
  | zero =>
    obtain rfl : i = 0 := by omega
    exact hr _
  | succ j ih =>
    rcases Nat.lt_or_ge i (j+1) with h | h
    · refine ht (ih (by omega) (by omega)) ?_
      rw [stateAt_succ step s calls (by omega)]
      exact hs j (by omega)
    · obtain rfl : i = j+1 := by omega
      exact hr _

/-- A property that held once and is gone was lost at some call, and held until
that call. -/
theorem lost_at (p : σ → Prop) {s : σ} {calls : List ι} {i j : ℕ} (hij : i ≤ j)
    (hi : p (stateAt step s calls i)) (hj : ¬p (stateAt step s calls j)) :
    ∃ k, i ≤ k ∧ k < j ∧ p (stateAt step s calls k) ∧ ¬p (stateAt step s calls (k+1)) := by
  induction j with
  | zero =>
    obtain rfl : i = 0 := by omega
    exact absurd hi hj
  | succ j ih =>
    rcases Nat.lt_or_ge i (j+1) with h | h
    · by_cases hp : p (stateAt step s calls j)
      · exact ⟨j,by omega,by omega,hp,hj⟩
      · obtain ⟨k,hik,hkj,hk⟩ := ih (by omega) hp
        exact ⟨k,hik,by omega,hk⟩
    · obtain rfl : i = j+1 := by omega
      exact absurd hi hj

/-- A potential that pays for every call pays for the whole sequence. -/
theorem amortized (potential : σ → ℕ) (cost gain : ι → ℕ) (s : σ) (calls : List ι)
    (hs : ∀ i (h : i < calls.length),
      potential (step (stateAt step s calls i) calls[i])+cost calls[i] ≤
        potential (stateAt step s calls i)+gain calls[i]) {i : ℕ} (hi : i ≤ calls.length) :
    potential (stateAt step s calls i)+((calls.take i).map cost).sum ≤
      potential s+((calls.take i).map gain).sum := by
  induction i with
  | zero => exact Nat.le_refl _
  | succ i ih =>
    have hbefore := ih (by omega)
    have hcall := hs i (by omega)
    rw [stateAt_succ step s calls (by omega),List.take_succ_eq_append_getElem (by omega),
      List.map_append,List.map_append,List.sum_append_nat,List.sum_append_nat]
    simp only [List.map_cons,List.map_nil,List.sum_cons,List.sum_nil]
    omega

end Mulac.CallSequence
