import Mathlib.Data.List.Nodup
import Mathlib.Tactic.Common

/-!
# Keyed tables

A table is a list of rows in physical order, no two of which share a primary
key. Updates touch the rows a predicate selects and never change a key;
insertions that meet an existing key do nothing. Every later fact about a
table is read through `find?`, so the physical order stays a detail.
-/

namespace Mulac.KeyedTable

variable {ρ κ ε : Type*}

/-- Rows in physical order under a primary key that no two of them share. -/
@[ext] structure Table (key : ρ → κ) where
  /-- The stored rows. -/
  rows : List ρ
  /-- Primary keys are pairwise distinct. -/
  keys_nodup : (rows.map key).Nodup

namespace Table

variable {key : ρ → κ}

/-- The table without rows. -/
def empty : Table key := ⟨[],List.nodup_nil⟩

/-- Rows are pairwise distinct, since their keys are. -/
theorem rows_nodup (t : Table key) : t.rows.Nodup := t.keys_nodup.of_map

/-- Two stored rows with one key are one row. -/
theorem row_eq (t : Table key) {r s : ρ} (hr : r ∈ t.rows) (hs : s ∈ t.rows)
    (h : key r = key s) : r = s :=
  List.inj_on_of_nodup_map t.keys_nodup hr hs h

section Update

/-- Rewrite every row the predicate selects. -/
def update (t : Table key) (p : ρ → Bool) (f : ρ → ρ) (hf : ∀ r, key (f r) = key r) :
    Table key where
  rows := t.rows.map fun r => if p r then f r else r
  keys_nodup := by
    have he : (t.rows.map fun r => if p r then f r else r).map key = t.rows.map key := by
      rw [List.map_map]
      apply List.map_congr_left
      intro r _
      by_cases hp : p r <;> simp [hp,hf]
    rw [he]
    exact t.keys_nodup

@[simp] theorem update_rows (t : Table key) (p : ρ → Bool) (f : ρ → ρ)
    (hf : ∀ r, key (f r) = key r) :
    (t.update p f hf).rows = t.rows.map fun r => if p r then f r else r := rfl

/-- An update that selects no stored row is no update. -/
theorem update_of_none (t : Table key) {p : ρ → Bool} {f : ρ → ρ}
    (hf : ∀ r, key (f r) = key r) (h : ∀ r ∈ t.rows, p r = false) :
    t.update p f hf = t := by
  apply Table.ext
  rw [update_rows]
  conv_rhs => rw [← List.map_id t.rows]
  apply List.map_congr_left
  intro r hr
  simp [h r hr]

/-- Updates that agree on every stored row agree. -/
theorem update_congr (t : Table key) {p q : ρ → Bool} {f g : ρ → ρ}
    (hf : ∀ r, key (f r) = key r) (hg : ∀ r, key (g r) = key r)
    (h : ∀ r ∈ t.rows, (if p r then f r else r) = if q r then g r else r) :
    t.update p f hf = t.update q g hg := by
  apply Table.ext
  exact List.map_congr_left h

/-- Two updates in a row are one update of what either selects. -/
theorem update_update (t : Table key) {p q : ρ → Bool} {f g : ρ → ρ}
    (hf : ∀ r, key (f r) = key r) (hg : ∀ r, key (g r) = key r) :
    ((t.update p f hf).update q g hg).rows = t.rows.map fun r =>
      if q (if p r then f r else r) then g (if p r then f r else r)
      else if p r then f r else r := by
  simp only [update_rows,List.map_map,Function.comp_def]

end Update

section Find

variable [DecidableEq κ]

/-- The row stored under a key. -/
def find? (t : Table key) (k : κ) : Option ρ := t.rows.find? fun r => key r = k

theorem find?_eq_some {t : Table key} {k : κ} {r : ρ} :
    t.find? k = some r ↔ r ∈ t.rows ∧ key r = k := by
  constructor
  · intro h
    exact ⟨List.mem_of_find?_eq_some h,by simpa using List.find?_some h⟩
  · rintro ⟨hr,rfl⟩
    cases hf : t.find? (key r) with
    | none =>
      have hn := List.find?_eq_none.mp hf r hr
      simp at hn
    | some s =>
      have hs := List.mem_of_find?_eq_some hf
      have hk : key s = key r := by simpa using List.find?_some hf
      rw [t.row_eq hs hr hk]

theorem find?_eq_none {t : Table key} {k : κ} :
    t.find? k = none ↔ ∀ r ∈ t.rows, key r ≠ k := by
  simp [find?,List.find?_eq_none]

/-- A stored row is found under its own key. -/
theorem find?_key {t : Table key} {r : ρ} (hr : r ∈ t.rows) : t.find? (key r) = some r :=
  find?_eq_some.mpr ⟨hr,rfl⟩

theorem mem_of_find? {t : Table key} {k : κ} {r : ρ} (h : t.find? k = some r) : r ∈ t.rows :=
  (find?_eq_some.mp h).1

theorem key_of_find? {t : Table key} {k : κ} {r : ρ} (h : t.find? k = some r) : key r = k :=
  (find?_eq_some.mp h).2

/-- What an update leaves under a key. -/
@[simp] theorem find?_update (t : Table key) (p : ρ → Bool) (f : ρ → ρ)
    (hf : ∀ r, key (f r) = key r) (k : κ) :
    (t.update p f hf).find? k = (t.find? k).map fun r => if p r then f r else r := by
  have hk : ∀ r, key (if p r then f r else r) = key r := by
    intro r
    by_cases hp : p r <;> simp [hp,hf]
  simp only [find?,update_rows,List.find?_map,Function.comp_def,hk]

/-- Rewrite the row stored under one key. -/
def updateAt (t : Table key) (k : κ) (f : ρ → ρ) (hf : ∀ r, key (f r) = key r) : Table key :=
  t.update (fun r => key r = k) f hf

theorem find?_updateAt (t : Table key) (k : κ) (f : ρ → ρ) (hf : ∀ r, key (f r) = key r)
    (j : κ) :
    (t.updateAt k f hf).find? j = (t.find? j).map fun r => if key r = k then f r else r := by
  simp [updateAt]

/-- The row under the updated key is the rewritten one. -/
theorem find?_updateAt_self {t : Table key} {k : κ} {r : ρ} (h : t.find? k = some r)
    (f : ρ → ρ) (hf : ∀ r, key (f r) = key r) :
    (t.updateAt k f hf).find? k = some (f r) := by
  rw [find?_updateAt,h]
  simp [key_of_find? h]

/-- Every other row stays what it was. -/
theorem find?_updateAt_ne (t : Table key) {k j : κ} (hj : j ≠ k)
    (f : ρ → ρ) (hf : ∀ r, key (f r) = key r) :
    (t.updateAt k f hf).find? j = t.find? j := by
  rw [find?_updateAt]
  cases h : t.find? j with
  | none => rfl
  | some r =>
    have hk := key_of_find? h
    simp [hk,hj]

/-- A guarded update by key, as `UPDATE … WHERE id = k AND guard` runs it: the
row under the key changes when it passes the guard, and nothing else does. -/
theorem update_guarded (t : Table key) (k : κ) {g : ρ → Bool} {f : ρ → ρ}
    (hf : ∀ r, key (f r) = key r) {r : ρ} (hr : t.find? k = some r) (hg : g r = true) :
    t.update (fun r => decide (key r = k) && g r) f hf = t.updateAt k f hf := by
  apply update_congr
  intro s hs
  by_cases hk : key s = k
  · have he : s = r := t.row_eq hs (mem_of_find? hr) (hk.trans (key_of_find? hr).symm)
    simp [he,key_of_find? hr,hg]
  · simp [hk]

/-- A guarded update whose row is absent or fails the guard changes nothing. -/
theorem update_unguarded (t : Table key) (k : κ) {g : ρ → Bool} {f : ρ → ρ}
    (hf : ∀ r, key (f r) = key r) (h : ∀ r, t.find? k = some r → g r = false) :
    t.update (fun r => decide (key r = k) && g r) f hf = t := by
  apply update_of_none
  intro s hs
  by_cases hk : key s = k
  · simp [h s (find?_eq_some.mpr ⟨hs,hk⟩)]
  · simp [hk]

/-- How many rows a guarded update by key reports: one, when the row under the
key passes the guard. -/
theorem countP_guarded (t : Table key) (k : κ) (g : ρ → Bool) :
    t.rows.countP (fun r => decide (key r = k) && g r) =
      match t.find? k with
      | some r => if g r then 1 else 0
      | none => 0 := by
  have hle : t.rows.countP (fun r => decide (key r = k) && g r) ≤ 1 := by
    have hn : (t.rows.filter fun r => decide (key r = k) && g r).length ≤ 1 := by
      by_contra! hlt
      obtain ⟨a,b,l,hl⟩ : ∃ a b l, t.rows.filter (fun r => decide (key r = k) && g r) = a::b::l := by
        match h : t.rows.filter fun r => decide (key r = k) && g r with
        | [] => simp [h] at hlt
        | [a] => simp [h] at hlt
        | a::b::l => exact ⟨a,b,l,rfl⟩
      have hnd := t.rows_nodup.filter fun r => decide (key r = k) && g r
      have ha : a ∈ t.rows.filter fun r => decide (key r = k) && g r := by simp [hl]
      have hb : b ∈ t.rows.filter fun r => decide (key r = k) && g r := by simp [hl]
      simp only [List.mem_filter,Bool.and_eq_true,decide_eq_true_eq] at ha hb
      have he := t.row_eq ha.1 hb.1 (ha.2.1.trans hb.2.1.symm)
      rw [hl,he] at hnd
      simp at hnd
    rwa [List.countP_eq_length_filter]
  cases h : t.find? k with
  | none =>
    have hn := find?_eq_none.mp h
    rw [List.countP_eq_zero.mpr]
    intro r hr
    simp [hn r hr]
  | some r =>
    by_cases hg : g r
    · have hp : 0 < t.rows.countP fun r => decide (key r = k) && g r := by
        rw [List.countP_pos_iff]
        exact ⟨r,mem_of_find? h,by simp [key_of_find? h,hg]⟩
      simp only [hg,if_true]
      omega
    · simp only [hg]
      rw [List.countP_eq_zero.mpr]
      · simp
      · intro s hs
        by_cases hk : key s = k
        · have he := t.row_eq hs (mem_of_find? h) (hk.trans (key_of_find? h).symm)
          simp [he,hg]
        · simp [hk]

/-- The row that a guarded query by key answers with. -/
theorem find?_guarded (t : Table key) (k : κ) (g : ρ → Bool) :
    t.rows.find? (fun r => decide (key r = k) && g r) = (t.find? k).filter g := by
  cases h : t.find? k with
  | none =>
    have hn := find?_eq_none.mp h
    rw [Option.filter_none,List.find?_eq_none]
    intro r hr
    simp [hn r hr]
  | some r =>
    have hr := mem_of_find? h
    by_cases hg : g r = true
    · rw [Option.filter_some_pos hg]
      cases hf : t.rows.find? fun r => decide (key r = k) && g r with
      | none =>
        have hn := List.find?_eq_none.mp hf r hr
        simp [key_of_find? h,hg] at hn
      | some s =>
        have hs := List.find?_some hf
        simp only [Bool.and_eq_true,decide_eq_true_eq] at hs
        rw [t.row_eq (List.mem_of_find?_eq_some hf) hr (hs.1.trans (key_of_find? h).symm)]
    · rw [Option.filter_some_neg (by simpa using hg),List.find?_eq_none]
      intro s hs
      by_cases hk : key s = k
      · have he := t.row_eq hs hr (hk.trans (key_of_find? h).symm)
        simp [he,hg]
      · simp [hk]

end Find

section Insert

variable [DecidableEq κ]

/-- Insert a row, or do nothing when its key is taken. -/
def insertNew (t : Table key) (r : ρ) : Table key :=
  if h : key r ∈ t.rows.map key then t
  else ⟨t.rows ++ [r],by
    rw [List.map_append,List.nodup_append]
    refine ⟨t.keys_nodup,by simp,?_⟩
    intro a ha b hb he
    simp only [List.map_cons,List.map_nil,List.mem_singleton] at hb
    exact h (hb ▸ he ▸ ha)⟩

/-- The inserted row stands under its key unless an older one does; every
other key keeps its row. -/
theorem find?_insertNew (t : Table key) (r : ρ) (k : κ) :
    (t.insertNew r).find? k =
      match t.find? k with
      | some s => some s
      | none => if key r = k then some r else none := by
  unfold insertNew
  split
  · next h =>
    cases hf : t.find? k with
    | some s => simp
    | none =>
      have hn := find?_eq_none.mp hf
      obtain ⟨s,hs,hk⟩ := List.mem_map.mp h
      have : key r ≠ k := fun he => hn s hs (hk.trans he)
      simp [this]
  · next h =>
    simp only [find?,List.find?_append]
    cases hf : List.find? (fun r => decide (key r = k)) t.rows with
    | some s => simp
    | none => by_cases hk : key r = k <;> simp [hk]

/-- An insertion whose key is taken does nothing. -/
theorem insertNew_of_find? {t : Table key} {r s : ρ} (h : t.find? (key r) = some s) :
    t.insertNew r = t :=
  dif_pos (List.mem_map.mpr ⟨s,mem_of_find? h,key_of_find? h⟩)

end Insert

section TryUpdate

/-- A fallible rewrite of every row keeps the keys when each rewrite does. -/
private theorem mapM_keys {f : ρ → Except ε ρ} (hf : ∀ r s, f r = .ok s → key s = key r)
    (l l' : List ρ) (h : l.mapM f = .ok l') : l'.map key = l.map key := by
  induction l generalizing l' with
  | nil => cases h; rfl
  | cons r l ih =>
    rw [List.mapM_cons] at h
    cases hr : f r with
    | error e => rw [hr] at h; cases h
    | ok s =>
      cases hl : l.mapM f with
      | error e => rw [hr,hl] at h; cases h
      | ok l₁ =>
        rw [hr,hl] at h
        cases h
        simp [hf r s hr,ih l₁ hl]

private theorem mapM_congr {f g : ρ → Except ε ρ} {l : List ρ} (h : ∀ r ∈ l, f r = g r) :
    l.mapM f = l.mapM g := by
  induction l with
  | nil => rfl
  | cons r l ih =>
    rw [List.mapM_cons,List.mapM_cons,h r (by simp),ih fun s hs => h s (by simp [hs])]

private theorem mapM_of_ok {f : ρ → Except ε ρ} {g : ρ → ρ} {l : List ρ}
    (h : ∀ r ∈ l, f r = .ok (g r)) : l.mapM f = .ok (l.map g) := by
  induction l with
  | nil => rfl
  | cons r l ih =>
    rw [List.mapM_cons,h r (by simp),ih (fun s hs => h s (by simp [hs]))]
    rfl

private theorem mapM_error {f : ρ → Except ε ρ} {l : List ρ} {r : ρ} (hr : r ∈ l) {e : ε}
    (he : f r = .error e) : ∃ e', l.mapM f = .error e' := by
  induction l with
  | nil => cases hr
  | cons s l ih =>
    rw [List.mapM_cons]
    cases hs : f s with
    | error e' => exact ⟨e',rfl⟩
    | ok s' =>
      rcases List.mem_cons.mp hr with rfl | hr
      · rw [hs] at he; cases he
      · obtain ⟨e',hl⟩ := ih hr
        rw [hl]
        exact ⟨e',rfl⟩

/-- The rewrite of one row under an update that may raise an error on it. -/
def rewriteIf (p : ρ → Bool) (f : ρ → Except ε ρ) (r : ρ) : Except ε ρ :=
  if p r then f r else .ok r

private theorem rewriteIf_key {p : ρ → Bool} {f : ρ → Except ε ρ}
    (hf : ∀ r s, f r = .ok s → key s = key r) (r s : ρ) (h : rewriteIf p f r = .ok s) :
    key s = key r := by
  by_cases hp : p r
  · exact hf r s (by simpa [rewriteIf,hp] using h)
  · have he : r = s := by simpa [rewriteIf,hp] using h
    rw [he]

/-- An update whose new values may raise an error, which then fails the whole
statement. -/
def tryUpdate (t : Table key) (p : ρ → Bool) (f : ρ → Except ε ρ)
    (hf : ∀ r s, f r = .ok s → key s = key r) : Except ε (Table key) :=
  match h : t.rows.mapM (rewriteIf p f) with
  | .error e => .error e
  | .ok rows => .ok ⟨rows,by rw [mapM_keys (rewriteIf_key hf) _ _ h]; exact t.keys_nodup⟩

/-- Updates that do the same to every stored row agree. -/
theorem tryUpdate_congr (t : Table key) {p p' : ρ → Bool} {f f' : ρ → Except ε ρ}
    (hf : ∀ r s, f r = .ok s → key s = key r) (hf' : ∀ r s, f' r = .ok s → key s = key r)
    (h : ∀ r ∈ t.rows, rewriteIf p f r = rewriteIf p' f' r) :
    t.tryUpdate p f hf = t.tryUpdate p' f' hf' := by
  have hm : t.rows.mapM (rewriteIf p f) = t.rows.mapM (rewriteIf p' f') := mapM_congr h
  unfold tryUpdate
  split
  · next e he =>
    rw [hm] at he
    split
    · next e' he' =>
      rw [he] at he'
      cases he'
      rfl
    · next rows hrows => rw [he] at hrows; cases hrows
  · next rows hrows =>
    rw [hm] at hrows
    split
    · next e' he' => rw [hrows] at he'; cases he'
    · next rows' hrows' =>
      rw [hrows] at hrows'
      cases hrows'
      rfl

/-- The rewrite of a row, or the row where the rewrite raises an error. -/
def rewrite (f : ρ → Except ε ρ) (r : ρ) : ρ :=
  match f r with
  | .ok s => s
  | .error _ => r

theorem rewrite_of_ok {f : ρ → Except ε ρ} {r s : ρ} (h : f r = .ok s) : rewrite f r = s := by
  rw [rewrite,h]

theorem rewrite_key {f : ρ → Except ε ρ} (hf : ∀ r s, f r = .ok s → key s = key r) (r : ρ) :
    key (rewrite f r) = key r := by
  unfold rewrite
  split
  · next s hs => exact hf r s hs
  · rfl

/-- When no selected row raises an error the statement is a plain update. -/
theorem tryUpdate_of_ok (t : Table key) {p : ρ → Bool} {f : ρ → Except ε ρ}
    (hf : ∀ r s, f r = .ok s → key s = key r)
    (h : ∀ r ∈ t.rows, p r = true → ∃ s, f r = .ok s) :
    t.tryUpdate p f hf = .ok (t.update p (rewrite f) (rewrite_key hf)) := by
  have hm : t.rows.mapM (rewriteIf p f) =
      .ok (t.rows.map fun r => if p r then rewrite f r else r) := by
    apply mapM_of_ok
    intro r hr
    by_cases hp : p r = true
    · obtain ⟨s,hs⟩ := h r hr hp
      simp [rewriteIf,hp,rewrite,hs]
    · simp [rewriteIf,hp]
  unfold tryUpdate
  split
  · next e he => rw [hm] at he; cases he
  · next rows hrows =>
    rw [hm] at hrows
    cases hrows
    rfl

/-- One selected row that raises an error fails the statement. -/
theorem tryUpdate_of_error (t : Table key) {p : ρ → Bool} {f : ρ → Except ε ρ}
    (hf : ∀ r s, f r = .ok s → key s = key r) {r : ρ} (hr : r ∈ t.rows) (hp : p r = true)
    {e : ε} (he : f r = .error e) : ∃ e', t.tryUpdate p f hf = .error e' := by
  obtain ⟨e',hm⟩ := mapM_error hr (f:=rewriteIf p f) (e:=e) (by simp [rewriteIf,hp,he])
  unfold tryUpdate
  split
  · next e₁ _ => exact ⟨e₁,rfl⟩
  · next rows hrows => rw [hm] at hrows; cases hrows

end TryUpdate

end Table

end Mulac.KeyedTable
