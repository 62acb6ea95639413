import Mathlib.Algebra.GroupWithZero.Nat
import Mathlib.Data.Finset.Card

/-!
# Leased work

What a queue of leased work is for. An entry waits until it is due, is leased
under a token to one holder at a time, and ends acknowledged or buried, or waits
again when its holder releases it or its lease expires. Leases take the earliest
due entries, leave none behind while they have room, and may take an entry back
at once because it is spoiled. The ledger balances: every lease that was granted
is settled once, expires once, or is still held.
-/

namespace Mulac.LeaseQueue

section Specification

/-- Where an entry stands. -/
inductive Phase (τ θ : Type) where
  /-- It waits until it is due. -/
  | waiting (due : θ)
  /-- It is leased under a token since some time. -/
  | leased (token : τ) (since : θ)
  /-- Its work is done. -/
  | acknowledged
  /-- It was given up. -/
  | buried
  /-- The queue does not touch it. -/
  | withdrawn

/-- An entry. -/
structure Entry (α τ θ : Type) where
  /-- What it carries. -/
  content : α
  /-- How often it was taken. -/
  deliveries : ℕ
  /-- Where it stands. -/
  phase : Phase τ θ

/-- The entries under their keys. -/
abbrev State (κ α τ θ : Type) := κ → Option (Entry α τ θ)

/-- A lease that was granted. -/
structure Lease (κ τ θ : Type) where
  /-- Its token. -/
  token : τ
  /-- When it was granted. -/
  now : θ
  /-- How many entries it asked for. -/
  limit : ℕ
  /-- Entries that were taken as often as this are left out. -/
  maxDeliveries : ℕ
  /-- The keys that others have locked. -/
  locked : κ → Bool
  /-- The keys that its holder was given. -/
  given : List κ

/-- How a holder ends its lease of an entry. -/
inductive Ending where
  /-- The work is done. -/
  | acknowledged
  /-- The work is to be tried again. -/
  | released
  /-- The entry is given up. -/
  | buried

/-- What the clients of a queue see. -/
inductive Event (κ α τ θ : Type) where
  /-- An entry was offered under a key. -/
  | offer (k : κ) (content : α) (due : θ)
  /-- A lease was granted. -/
  | lease (l : Lease κ τ θ)
  /-- The holder of a token ended its lease of an entry. -/
  | settle (k : κ) (token : τ) (ending : Ending)
  /-- The leases from before some time expired. -/
  | expire (before : θ)
  /-- A client was refused. -/
  | refused

variable {κ α τ θ : Type}

/-- An entry that waits, with its deliveries. -/
def Entry.requeued (e : Entry α τ θ) (due : θ) : Entry α τ θ := { e with phase := .waiting due }

/-- An entry that was taken once more. -/
def Entry.taken (e : Entry α τ θ) (phase : Phase τ θ) : Entry α τ θ :=
  { e with deliveries := e.deliveries+1, phase := phase }

/-- What an ending may leave of an entry. -/
inductive Ending.Leaves (e : Entry α τ θ) : Ending → Entry α τ θ → Prop
  /-- It is done. -/
  | acknowledged : Leaves e .acknowledged { e with phase := .acknowledged }
  /-- It waits again. -/
  | released (due : θ) : Leaves e .released (e.requeued due)
  /-- It is buried. -/
  | buried : Leaves e .buried { e with phase := .buried }

variable [LinearOrder θ]

/-- An entry that a lease may take, and when it was due. -/
structure Available (s : State κ α τ θ) (l : Lease κ τ θ) (k : κ) (due : θ) : Prop where
  /-- It waits, is due and was not taken too often. -/
  waits : ∃ e, s k = some e ∧ e.phase = .waiting due ∧ due ≤ l.now ∧
    e.deliveries < l.maxDeliveries
  /-- Nobody has it locked. -/
  unlocked : l.locked k = false

/-- A lease that takes the entries under some keys. -/
structure Leases (s : State κ α τ θ) (l : Lease κ τ θ) (taken : List κ) (s' : State κ α τ θ) :
    Prop where
  /-- No entry is taken twice. -/
  nodup : taken.Nodup
  /-- What is taken was available. -/
  available : ∀ k ∈ taken, ∃ due, Available s l k due
  /-- No more is taken than was asked for. -/
  count : taken.length ≤ l.limit
  /-- While there is room, nothing available is left behind. -/
  full : taken.length < l.limit → ∀ k due, Available s l k due → k ∈ taken
  /-- What is left behind is not due before what is taken. -/
  earliest : ∀ k ∈ taken, ∀ due, Available s l k due → ∀ k' ∉ taken, ∀ due',
    Available s l k' due' → due ≤ due'
  /-- The holder is given what was taken, each entry once. -/
  given : l.given.Nodup ∧ ∀ k ∈ l.given, k ∈ taken
  /-- What the holder is given is leased to it. -/
  leased : ∀ k ∈ l.given, ∀ e, s k = some e → s' k = some (e.taken (.leased l.token l.now))
  /-- What was taken and not given is spoiled, and waits again. -/
  spoiled : ∀ k ∈ taken, k ∉ l.given → ∀ e, s k = some e →
    ∃ due, s' k = some (e.taken (.waiting due))
  /-- Other entries are left alone. -/
  frame : ∀ k ∉ taken, s' k = s k

/-- Whether the entry under a key is leased since before some time. -/
def Overdue (s : State κ α τ θ) (before : θ) (k : κ) : Prop :=
  ∃ e token since, s k = some e ∧ e.phase = .leased token since ∧ since < before

/-- The leases from before some time expire. -/
structure Expires (s : State κ α τ θ) (before : θ) (s' : State κ α τ θ) : Prop where
  /-- An overdue entry waits again. -/
  overdue : ∀ k, Overdue s before k → ∀ e, s k = some e → ∃ due, s' k = some (e.requeued due)
  /-- Other entries are left alone. -/
  frame : ∀ k, ¬Overdue s before k → s' k = s k

/-- What a queue may do, and what its clients see of it. -/
inductive Step [DecidableEq κ] (s : State κ α τ θ) : Event κ α τ θ → State κ α τ θ → Prop
  /-- A new key gets an entry. -/
  | offered {k : κ} {content : α} {due : θ} : s k = none →
      Step s (.offer k content due) (Function.update s k (some ⟨content,0,.waiting due⟩))
  /-- A known key keeps its entry. -/
  | duplicate {k : κ} {content : α} {due : θ} {e : Entry α τ θ} : s k = some e →
      Step s (.offer k content due) s
  /-- A lease takes entries. -/
  | leased {l : Lease κ τ θ} {taken : List κ} {s' : State κ α τ θ} : Leases s l taken s' →
      Step s (.lease l) s'
  /-- The holder ends its lease. -/
  | settled {k : κ} {token : τ} {since : θ} {ending : Ending} {e e' : Entry α τ θ} :
      s k = some e → e.phase = .leased token since → ending.Leaves e e' →
        Step s (.settle k token ending) (Function.update s k (some e'))
  /-- Leases expire. -/
  | expired {before : θ} {s' : State κ α τ θ} : Expires s before s' → Step s (.expire before) s'
  /-- Whoever is refused has changed nothing. -/
  | refused : Step s .refused s

/-- A run: its events, each with the state it meets. -/
inductive Run [DecidableEq κ] : State κ α τ θ → List (State κ α τ θ × Event κ α τ θ) →
    State κ α τ θ → Prop
  /-- Nothing happened. -/
  | nil (s : State κ α τ θ) : Run s [] s
  /-- Something happened first. -/
  | cons {s s' s'' : State κ α τ θ} {e : Event κ α τ θ}
    {events : List (State κ α τ θ × Event κ α τ θ)} : Step s e s' → Run s' events s'' →
      Run s ((s,e)::events) s''

end Specification

section Ledger

variable {κ α τ θ : Type}

/-- One for a leased entry. -/
def held (k : κ) (s : State κ α τ θ) : ℕ :=
  match s k with
  | some ⟨_,_,.leased _ _⟩ => 1
  | _ => 0

/-- One for a lease whose holder is given the key. -/
def grants [DecidableEq κ] (k : κ) : Event κ α τ θ → ℕ
  | .lease l => if k ∈ l.given then 1 else 0
  | _ => 0

/-- One for the end of a lease by its holder. -/
def settles [DecidableEq κ] (k : κ) : Event κ α τ θ → ℕ
  | .settle j _ _ => if j = k then 1 else 0
  | _ => 0

/-- One for the expiry of a lease. -/
def expiries [LinearOrder θ] (k : κ) (s : State κ α τ θ) : Event κ α τ θ → ℕ
  | .expire before =>
    match s k with
    | some ⟨_,_,.leased _ since⟩ => if since < before then 1 else 0
    | _ => 0
  | _ => 0

variable {k : κ} {s s' : State κ α τ θ}

theorem held_congr (h : s' k = s k) : held k s' = held k s := by
  rw [held,held,h]

theorem held_leased {e : Entry α τ θ} {token : τ} {since : θ} (h : s k = some e)
    (hp : e.phase = .leased token since) : held k s = 1 := by
  obtain ⟨content,deliveries,phase⟩ := e
  dsimp only at hp
  subst hp
  rw [held,h]

theorem held_of_not_leased {e : Entry α τ θ} (h : s k = some e)
    (hp : ∀ token since, e.phase ≠ .leased token since) : held k s = 0 := by
  obtain ⟨content,deliveries,phase⟩ := e
  rw [held,h]
  cases phase with
  | leased token since => exact absurd rfl (hp token since)
  | waiting due => rfl
  | acknowledged => rfl
  | buried => rfl
  | withdrawn => rfl

theorem held_none (h : s k = none) : held k s = 0 := by
  rw [held,h]

/-- The end of a lease leaves nothing held. -/
theorem Ending.Leaves.not_leased {e e' : Entry α τ θ} {ending : Ending}
    (h : ending.Leaves e e') (token : τ) (since : θ) : e'.phase ≠ .leased token since := by
  cases h <;> nofun

variable [LinearOrder θ]

/-- What is available is not held. -/
theorem Available.not_held {l : Lease κ τ θ} {due : θ} (h : Available s l k due) :
    held k s = 0 := by
  obtain ⟨e,he,hp,_⟩ := h.waits
  refine held_of_not_leased he fun token since hl => ?_
  rw [hp] at hl
  cases hl

/-- A lease balances the ledger. -/
theorem Leases.balance [DecidableEq κ] {l : Lease κ τ θ} {taken : List κ}
    (h : Leases s l taken s') (k : κ) :
    held k s+grants (α:=α) k (.lease l) = held k s' := by
  by_cases hk : k ∈ taken
  · obtain ⟨due,hav⟩ := h.available k hk
    have hbefore := hav.not_held
    obtain ⟨e,he,hwaits⟩ := hav.waits
    rw [grants]
    by_cases hg : k ∈ l.given
    · have hafter : held k s' = 1 := held_leased (h.leased k hg e he) rfl
      rw [if_pos hg]
      omega
    · obtain ⟨due',hs'⟩ := h.spoiled k hk hg e he
      have hafter : held k s' = 0 := held_of_not_leased hs' nofun
      rw [if_neg hg]
      omega
  · have hg : k ∉ l.given := fun hin => hk (h.given.2 k hin)
    have hsame := held_congr (h.frame k hk)
    rw [grants,if_neg hg]
    omega

theorem expiries_overdue {before : θ} (h : Overdue s before k) :
    expiries k s (.expire before) = 1 := by
  obtain ⟨⟨content,deliveries,phase⟩,token,since,hs,hp,hlt⟩ := h
  dsimp only at hp
  subst hp
  rw [expiries,hs]
  exact if_pos hlt

theorem expiries_not_overdue {before : θ} (h : ¬Overdue s before k) :
    expiries k s (.expire before) = 0 := by
  rw [expiries]
  split
  · next hs => exact if_neg fun hlt => h ⟨_,_,_,hs,rfl,hlt⟩
  · rfl

/-- Expiry balances the ledger. -/
theorem Expires.balance {before : θ} (h : Expires s before s') (k : κ) :
    held k s = held k s'+expiries k s (.expire before) := by
  by_cases hk : Overdue s before k
  · obtain ⟨e,token,since,hs,hp,_⟩ := id hk
    have hbefore : held k s = 1 := held_leased hs hp
    obtain ⟨due,hs'⟩ := h.overdue k hk e hs
    have hafter : held k s' = 0 := held_of_not_leased hs' nofun
    have hone := expiries_overdue hk
    omega
  · have hsame := held_congr (h.frame k hk)
    have hzero := expiries_not_overdue hk
    omega

/-- One step balances the ledger of every key. -/
theorem Step.balance [DecidableEq κ] {e : Event κ α τ θ} (h : Step s e s') (k : κ) :
    held k s+grants k e = held k s'+settles k e+expiries k s e := by
  cases h with
  | @offered j content due hnone =>
    by_cases hj : k = j
    · subst hj
      have hbefore : held k s = 0 := held_none hnone
      have hafter : held k (Function.update s k (some ⟨content,0,.waiting due⟩)) = 0 :=
        held_of_not_leased (Function.update_self _ _ _) nofun
      simp only [grants,settles,expiries]
      omega
    · have hsame : held k (Function.update s j (some ⟨content,0,.waiting due⟩)) = held k s :=
        held_congr (Function.update_of_ne hj _ _)
      simp only [grants,settles,expiries]
      omega
  | duplicate _ => rfl
  | leased hl =>
    have hb := hl.balance k
    simp only [settles,expiries]
    omega
  | @settled j token since ending e e' hs hp hleaves =>
    by_cases hj : k = j
    · subst hj
      have hbefore : held k s = 1 := held_leased hs hp
      have hafter : held k (Function.update s k (some e')) = 0 :=
        held_of_not_leased (Function.update_self _ _ _) hleaves.not_leased
      simp only [grants,settles,expiries,if_true]
      omega
    · have hsame : held k (Function.update s j (some e')) = held k s :=
        held_congr (Function.update_of_ne hj _ _)
      simp only [grants,settles,expiries,if_neg (Ne.symm hj)]
      omega
  | expired hx =>
    have hb := hx.balance k
    simp only [grants,settles]
    omega
  | refused => rfl

/-- The ledger of a run balances: what was held or granted was settled, expired
or is still held. -/
theorem Run.balance [DecidableEq κ] {events : List (State κ α τ θ × Event κ α τ θ)}
    (h : Run s events s') (k : κ) : held k s+(events.map fun x => grants k x.2).sum =
      held k s'+(events.map fun x => settles k x.2).sum+
        (events.map fun x => expiries k x.1 x.2).sum := by
  induction h with
  | nil s => rfl
  | cons hstep hrun ih =>
    have hb := hstep.balance k
    simp only [List.map_cons,List.sum_cons]
    omega

end Ledger

end Mulac.LeaseQueue
