import Mathlib.Data.List.Sort
import Mathlib.Data.List.Nodup
import Mathlib.Tactic.Common

/-!
# Selecting the first few of an ordered list

`firstBy order n l` is `ORDER BY order ASC LIMIT n` over the rows `l` as a scan
meets them: ties keep the scan's order. A `Scan` is what a database may choose
by itself: the order in which it meets rows. `Rounds` are repeated selections
that take rows away until none is left.
-/

namespace Mulac.OrderedSelection

variable {α : Type*}

/-- An order in which a scan meets the rows of a list. -/
structure Scan (α : Type*) where
  /-- The rows in the order of the scan. -/
  order : List α → List α
  /-- A scan meets every row once. -/
  perm : ∀ l, (order l).Perm l

/-- The scan in physical order. -/
def Scan.physical : Scan α := ⟨id,fun l => List.Perm.refl l⟩

theorem Scan.mem (s : Scan α) {l : List α} {a : α} : a ∈ s.order l ↔ a ∈ l :=
  (s.perm l).mem_iff

theorem Scan.nodup (s : Scan α) {l : List α} (h : l.Nodup) : (s.order l).Nodup :=
  (s.perm l).nodup_iff.mpr h

variable {β : Type*} [LinearOrder β]

/-- The first `n` rows by ascending `order`. -/
def firstBy (order : α → β) (n : ℕ) (l : List α) : List α :=
  (l.insertionSort fun a b => order a ≤ order b).take n

theorem firstBy_subset {order : α → β} {n : ℕ} {l : List α} {a : α}
    (h : a ∈ firstBy order n l) : a ∈ l :=
  (List.perm_insertionSort _ l).mem_iff.mp (List.mem_of_mem_take h)

theorem firstBy_nodup (order : α → β) (n : ℕ) {l : List α} (h : l.Nodup) :
    (firstBy order n l).Nodup :=
  (List.take_sublist _ _).nodup ((List.perm_insertionSort _ l).nodup_iff.mpr h)

theorem firstBy_length (order : α → β) (n : ℕ) (l : List α) :
    (firstBy order n l).length = min n l.length := by
  rw [firstBy,List.length_take,List.length_insertionSort]

/-- No row left out comes strictly before a selected one. -/
theorem firstBy_le {order : α → β} {n : ℕ} {l : List α} {a b : α}
    (ha : a ∈ firstBy order n l) (hb : b ∈ l) (hout : b ∉ firstBy order n l) :
    order a ≤ order b := by
  have hs : (l.insertionSort fun a b => order a ≤ order b).Pairwise
      fun a b => order a ≤ order b :=
    List.pairwise_insertionSort _ l
  have hb' : b ∈ l.insertionSort fun a b => order a ≤ order b :=
    (List.perm_insertionSort _ l).mem_iff.mpr hb
  rw [← List.take_append_drop n (l.insertionSort _)] at hs hb'
  have hd : b ∈ (l.insertionSort fun a b => order a ≤ order b).drop n :=
    (List.mem_append.mp hb').resolve_left hout
  exact (List.pairwise_append.mp hs).2.2 a ha b hd

/-- A limit that no list reaches leaves no row out. -/
theorem mem_firstBy_of_length_le {order : α → β} {n : ℕ} {l : List α} {a : α}
    (h : l.length ≤ n) (ha : a ∈ l) : a ∈ firstBy order n l := by
  rw [firstBy,List.take_of_length_le (by rw [List.length_insertionSort]; exact h)]
  exact (List.perm_insertionSort _ l).mem_iff.mpr ha

section Rounds

/-- Round by round, the first few of the rows that wait are taken away. -/
structure Rounds (order : α → β) (limit : ℕ) (waiting batch : ℕ → List α) : Prop where
  /-- No row waits twice. -/
  nodup : (waiting 0).Nodup
  /-- A batch is the first few of the rows that wait, in some order of a scan. -/
  first : ∀ i, ∃ l, l.Perm (waiting i) ∧ batch i = firstBy order limit l
  /-- The others go on waiting. -/
  rest : ∀ i, (batch i++waiting (i+1)).Perm (waiting i)

/-- The rounds that it takes to serve so many rows. -/
def roundsOf (limit n : ℕ) : ℕ := (n+limit-1)/limit

variable {order : α → β} {limit : ℕ} {waiting batch : ℕ → List α} {a b : α}

theorem Rounds.batch_length (h : Rounds order limit waiting batch) (i : ℕ) :
    (batch i).length = min limit (waiting i).length := by
  obtain ⟨l,hl,hb⟩ := h.first i
  rw [hb,firstBy_length,hl.length_eq]

/-- Each round serves as many rows as it may. -/
theorem Rounds.waiting_length (h : Rounds order limit waiting batch) (i : ℕ) :
    (waiting i).length = (waiting 0).length-i*limit := by
  induction i with
  | zero => simp
  | succ i ih =>
    have hr := (h.rest i).length_eq
    rw [List.length_append,h.batch_length i,ih] at hr
    rw [Nat.succ_mul]
    omega

/-- After its rounds nothing waits. -/
theorem Rounds.done (h : Rounds order limit waiting batch) (hl : 1 ≤ limit) {i : ℕ}
    (hi : roundsOf limit (waiting 0).length ≤ i) : waiting i = [] := by
  have hn : (waiting 0).length ≤ i*limit := by
    have hd := Nat.lt_mul_div_succ ((waiting 0).length+limit-1) (Nat.lt_of_lt_of_le Nat.one_pos hl)
    have hm := Nat.mul_le_mul_right limit hi
    rw [roundsOf,Nat.mul_comm] at hm
    rw [Nat.mul_add,Nat.mul_one] at hd
    omega
  rw [← List.length_eq_zero_iff,h.waiting_length i]
  omega

theorem Rounds.waiting_nodup (h : Rounds order limit waiting batch) (i : ℕ) :
    (waiting i).Nodup := by
  induction i with
  | zero => exact h.nodup
  | succ i ih => exact (List.nodup_append.mp ((h.rest i).nodup_iff.mpr ih)).2.1

/-- A row that waits was waiting before. -/
theorem Rounds.waiting_subset (h : Rounds order limit waiting batch) {i j : ℕ} (hij : i ≤ j) :
    waiting j ⊆ waiting i := by
  induction j with
  | zero =>
    obtain rfl : i = 0 := by omega
    exact List.Subset.refl _
  | succ j ih =>
    rcases Nat.lt_or_ge i (j+1) with hlt | hge
    · intro a ha
      exact ih (by omega) ((h.rest j).mem_iff.mp (List.mem_append_right _ ha))
    · obtain rfl : i = j+1 := by omega
      exact List.Subset.refl _

theorem Rounds.batch_subset (h : Rounds order limit waiting batch) (i : ℕ) :
    batch i ⊆ waiting i := fun _ ha => (h.rest i).mem_iff.mp (List.mem_append_left _ ha)

theorem Rounds.batch_nodup (h : Rounds order limit waiting batch) (i : ℕ) : (batch i).Nodup :=
  (List.nodup_append.mp ((h.rest i).nodup_iff.mpr (h.waiting_nodup i))).1

/-- A row that was served waits no more. -/
theorem Rounds.served (h : Rounds order limit waiting batch) {i j : ℕ} (hij : i < j)
    (ha : a ∈ batch i) : a ∉ waiting j := by
  intro hw
  have hn := (List.nodup_append.mp ((h.rest i).nodup_iff.mpr (h.waiting_nodup i))).2.2
  exact hn a ha a (h.waiting_subset hij hw) rfl

/-- Every row that waits is served in exactly one of the rounds. -/
theorem Rounds.exactly_once (h : Rounds order limit waiting batch) (hl : 1 ≤ limit)
    (ha : a ∈ waiting 0) : ∃! i, i < roundsOf limit (waiting 0).length ∧ a ∈ batch i := by
  have hstep : ∀ i, (∃ k < i, a ∈ batch k) ∨ a ∈ waiting i := by
    intro i
    induction i with
    | zero => exact .inr ha
    | succ i ih =>
      rcases ih with ⟨k,hk,hb⟩ | hw
      · exact .inl ⟨k,by omega,hb⟩
      · rcases List.mem_append.mp ((h.rest i).mem_iff.mpr hw) with hb | hw'
        · exact .inl ⟨i,by omega,hb⟩
        · exact .inr hw'
  rcases hstep (roundsOf limit (waiting 0).length) with ⟨k,hk,hb⟩ | hw
  · refine ⟨k,⟨hk,hb⟩,?_⟩
    rintro j ⟨_,hj⟩
    rcases Nat.lt_trichotomy j k with hlt | rfl | hlt
    · exact absurd (h.batch_subset k hb) (h.served hlt hj)
    · rfl
    · exact absurd (h.batch_subset j hj) (h.served hlt hb)
  · rw [h.done hl (Nat.le_refl _)] at hw
    cases hw

/-- No later round serves a row that comes strictly before an earlier one's. -/
theorem Rounds.ordered (h : Rounds order limit waiting batch) {i j : ℕ} (hij : i < j)
    (ha : a ∈ batch i) (hb : b ∈ batch j) : order a ≤ order b := by
  have hw := h.batch_subset j hb
  obtain ⟨l,hl,he⟩ := h.first i
  have hout : b ∉ batch i := fun hi => h.served hij hi hw
  rw [he] at ha hout
  exact firstBy_le ha (hl.mem_iff.mpr (h.waiting_subset hij.le hw)) hout

end Rounds

end Mulac.OrderedSelection
