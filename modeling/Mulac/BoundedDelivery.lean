import Mulac.RowLifetimes
import Mulac.LostReplies

/-!
# Bounded delivery

One retry limit for all calls of a queue bounds how often a row is selected. The
workers of the queue run batches among sweepers and producers, lose replies and
crash; each works on what its own reservation handed out, once, so the work of a
row is executed at most as often as the row was selected.
-/

namespace Mulac.BoundedDelivery

open Identifiers QueueDomain KeyedTable QueueRow Repository FourQueues CallSequence QueueCalls
  QueueRuns PanicProgram Interference Consumers PortCalls ItemRules LostReplies RowLifetimes

variable {q : Queue} {t : Rows q} {calls : List (Call q)} {id : Uuid} {r : Row q.Own}
  {maxAttempts : ℤ}

section Attempts

/-- What one retry limit promises of a row over a run of calls. -/
structure BoundedAttempts (t : Rows q) (calls : List (Call q)) (maxAttempts : ℤ) (id : Uuid)
    (r : Row q.Own) : Prop where
  /-- A call adds one attempt if it is a reservation that selects the row, and none
  otherwise. -/
  counted : ∀ i (hi : i < calls.length), ∃ r₁ r₂,
    (stateAt step t calls i).find? id = some r₁ ∧
    (stateAt step t calls (i+1)).find? id = some r₂ ∧
    r₂.attempts = r₁.attempts+(if selects id (stateAt step t calls i) calls[i] then 1 else 0)
  /-- The attempts never pass the limit, if they did not at the start. -/
  bounded : ∀ i ≤ calls.length, ∃ r', (stateAt step t calls i).find? id = some r' ∧
    r'.attempts ≤ max r.attempts maxAttempts
  /-- No more reservations select the row than it has attempts left. -/
  selections : (selections id t calls : ℤ) ≤ max 0 (maxAttempts-r.attempts)
  /-- A row without attempts left is not selected again. -/
  exhausted : ∀ i j (hj : j < calls.length), i ≤ j → ∀ r',
    (stateAt step t calls i).find? id = some r' → maxAttempts ≤ r'.attempts →
      selects id (stateAt step t calls j) calls[j] = false
  /-- A row whose metadata does not decode is never handed out. -/
  undecodable : (q.readMetadata r.metadata).isOk = false → ∀ i (hi : i < calls.length),
    ∀ e ∈ handedOut (stateAt step t calls i) calls[i], (q.handed e).id ≠ id

/-- As many reservations select the row as it has attempts left. -/
theorem selections_le (hf : t.find? id = some r)
    (hall : ∀ c ∈ calls, Call.limitedTo maxAttempts c) :
    (selections id t calls : ℤ) ≤ max 0 (maxAttempts-r.attempts) := by
  obtain ⟨r',hf',ha,_⟩ := attempts_run calls hf (Nat.le_refl calls.length)
  rw [List.take_length] at ha
  have := attempts_le hall hf (Nat.le_refl calls.length) hf'
  omega

/-- Attempts are never taken back. -/
theorem attempts_mono {i j : ℕ} (hij : i ≤ j) (hj : j ≤ calls.length) {r₁ : Row q.Own}
    (hf : (stateAt step t calls i).find? id = some r₁) :
    ∃ r₂, (stateAt step t calls j).find? id = some r₂ ∧ r₁.attempts ≤ r₂.attempts := by
  refine related step (fun a b => ∀ r₁, a.find? id = some r₁ →
    ∃ r₂, b.find? id = some r₂ ∧ r₁.attempts ≤ r₂.attempts)
    (fun _ r h => ⟨r,h,le_refl _⟩) ?_ ?_ hij hj r₁ hf
  · intro a b c hab hbc r h
    obtain ⟨r',h',hle⟩ := hab r h
    obtain ⟨r'',h'',hle'⟩ := hbc r' h'
    exact ⟨r'',h'',hle.trans hle'⟩
  · intro k hk r h
    obtain ⟨r',h',hmove⟩ := row_move calls[k] h
    refine ⟨r',h',?_⟩
    rw [hmove.attempts.1]
    split <;> omega

/-- What is handed out has metadata that decodes. -/
theorem metadata_of_handedOut {s : Rows q} {c : Call q} {e : q.Envelope}
    (h : e ∈ handedOut s c) {r : Row q.Own} (hf : s.find? (q.handed e).id = some r) :
    (q.readMetadata r.metadata).isOk = true := by
  obtain ⟨spec,draw,r',_,hf',_,hd,_,hid,_⟩ := handedOut_row h
  rw [hid,hf'] at hf
  cases hf
  obtain ⟨_,_,metadata,_,hm,_⟩ := RepositoryContracts.decode_ok hd
  change q.readMetadata r.metadata = .ok metadata at hm
  rw [hm]
  rfl

/-- One retry limit bounds the attempts of every row. -/
theorem boundedAttempts (hf : t.find? id = some r)
    (hall : ∀ c ∈ calls, Call.limitedTo maxAttempts c) :
    BoundedAttempts t calls maxAttempts id r where
  counted := by
    intro i hi
    obtain ⟨r₁,hf₁,_⟩ := attempts_run calls hf (i:=i) (by omega)
    obtain ⟨r₂,hf₂,hmove⟩ := row_move calls[i] hf₁
    have ha := hmove.attempts.1
    rw [Table.key_of_find? hf₁] at ha
    refine ⟨r₁,r₂,hf₁,?_,ha⟩
    rw [stateAt_succ step t calls hi]
    exact hf₂
  bounded := by
    intro i hi
    obtain ⟨r',hf',_⟩ := attempts_run calls hf hi
    exact ⟨r',hf',attempts_le hall hf hi hf'⟩
  selections := selections_le hf hall
  exhausted := by
    intro i j hj hij r₁ hf₁ hle
    obtain ⟨r₂,hf₂,hmono⟩ := attempts_mono hij (by omega) hf₁
    obtain ⟨r₃,_,hmove⟩ := row_move calls[j] hf₂
    have hlt := hmove.attempts.2.2
    rw [Table.key_of_find? hf₂] at hlt
    refine Bool.eq_false_iff.mpr fun hsel => ?_
    have := hlt hsel maxAttempts (hall _ (List.getElem_mem hj))
    omega
  undecodable := by
    intro hbad i hi e he hid
    obtain ⟨r',hf',_,hm⟩ := attempts_run calls hf (i:=i) (by omega)
    rw [← hid] at hf'
    have hok := metadata_of_handedOut he hf'
    rw [hm,hbad] at hok
    cases hok

end Attempts

section Workers

/-- The table, what was handed to each run of a worker, and what it worked on. -/
structure World (q : Queue) where
  /-- The table. -/
  rows : Rows q
  /-- The entries that a reservation of the run handed out. -/
  handedTo : List (ℕ × q.Envelope)
  /-- The entries that the run worked on, in order. -/
  worked : List (ℕ × q.Envelope)

/-- What an answer hands out to a run. -/
def handsOut (i : ℕ) : (op : BatchOp q) → Option op.Reply → List (ℕ × q.Envelope)
  | .port (.reserve _),reply => (reply.elim [] handedBy).map fun e => (i,e)
  | .port (.completed _ _),_ => []
  | .port (.failed _ _ _ _),_ => []
  | .work _,_ => []

/-- What an operation works on. -/
def worksOn (i : ℕ) : BatchOp q → List (ℕ × q.Envelope)
  | .work e => [(i,e)]
  | .port _ => []

/-- What a call of a run may answer and leave. -/
structure Performs (i : ℕ) (op : BatchOp q) (w : World q) (reply : Option op.Reply)
    (w' : World q) : Prop where
  /-- The repository answers, whatever token it draws. -/
  answers : ∃ token, Answers token w.rows op reply w'.rows
  /-- A reservation hands out its list to the run. -/
  handedTo : w'.handedTo = w.handedTo++handsOut i op reply
  /-- The work on an entry is executed. -/
  worked : w'.worked = w.worked++worksOn i op

/-- What producers, sweepers and other clients of the queue do. -/
def Outside (maxAttempts : ℤ) (w w' : World q) : Prop :=
  ∃ c, Call.limitedTo maxAttempts c ∧ w' = { w with rows := step w.rows c }

/-- The workers of a queue under one retry limit. -/
def team (items : Items q) (maxAttempts : ℤ) : Team (BatchOp q) BatchOp.Reply (World q) where
  perform := Performs
  outside := Outside maxAttempts
  programs := fun p => ∃ spec, spec.maxAttempts = maxAttempts ∧
    p = batch items spec >>= fun _ => .ret ()

/-- An entry was handed to the run, which has not worked on its row. -/
structure Pending (i : ℕ) (e : q.Envelope) (w : World q) : Prop where
  /-- The entry carries a token. -/
  token : ∃ token, (q.handed e).reservationId = some token
  /-- The run reserved it. -/
  handed : (i,e) ∈ w.handedTo
  /-- Its work has not been executed. -/
  idle : ∀ e', (i,e') ∈ w.worked → (q.handed e').id ≠ (q.handed e).id

/-- What a run owes before a call: the retry limit, and an entry that is pending. -/
def Owes (maxAttempts : ℤ) (i : ℕ) : BatchOp q → World q → Prop
  | .port (.reserve spec),_ => spec.maxAttempts = maxAttempts
  | .port (.failed _ _ limit _),_ => limit = maxAttempts
  | .port (.completed _ _),_ => True
  | .work e,w => Pending i e w

/-- What holds of every world. -/
structure Inv (t : Rows q) (maxAttempts : ℤ) (w : World q) : Prop where
  /-- The table comes from calls under the limit, and no entry was handed out more
  often than they selected its row. -/
  run : ∃ calls, (∀ c ∈ calls, Call.limitedTo maxAttempts c) ∧ w.rows = after step t calls ∧
    ∀ id, (w.handedTo.countP fun x => decide ((q.handed x.2).id = id)) ≤ selections id t calls
  /-- What was handed out has metadata that decodes. -/
  decodes : ∀ x ∈ w.handedTo, ∃ r, w.rows.find? (q.handed x.2).id = some r ∧
    (q.readMetadata r.metadata).isOk = true
  /-- A run works on a row once. -/
  once : (w.worked.map fun x => (x.1,(q.handed x.2).id)).Nodup
  /-- A run works on what was handed to it. -/
  handed : w.worked ⊆ w.handedTo

variable {w w' : World q} {c : Call q} {items : Items q} {i : ℕ}

/-- A run is one call longer. -/
theorem selections_append (id : Uuid) (t : Rows q) (calls : List (Call q)) (c : Call q) :
    selections id t (calls++[c]) =
      selections id t calls+(if selects id (after step t calls) c then 1 else 0) := by
  rw [selections,trace_append,List.countP_append,trace,trace,List.countP_singleton]
  rfl

/-- A reservation hands out a row at most once, and only if it selects it. -/
theorem countP_handedOut (id : Uuid) (s : Rows q) (c : Call q) :
    ((handedOut s c).countP fun e => decide ((q.handed e).id = id)) ≤
      if selects id s c then 1 else 0 := by
  split
  · have hn := List.nodup_iff_count_le_one.mp (handedOut_nodup s c) id
    rw [List.count,List.countP_map] at hn
    refine le_trans (le_of_eq (List.countP_congr ?_)) hn
    simp
  · next hsel =>
    rw [Nat.le_zero,List.countP_eq_zero]
    intro e he hid
    rw [← of_decide_eq_true hid] at hsel
    exact hsel (selects_of_handedOut he)

/-- A call under the limit that hands out some of its list keeps the run. -/
theorem Inv.call (h : Inv t maxAttempts w) (hl : Call.limitedTo maxAttempts c)
    (hrows : w'.rows = step w.rows c) {out : List q.Envelope}
    (hout : out = handedOut w.rows c ∨ out = [])
    (hhanded : w'.handedTo = w.handedTo++out.map fun e => (i,e)) (hw : w'.worked = w.worked) :
    Inv t maxAttempts w' where
  run := by
    obtain ⟨calls,hall,hr,hcount⟩ := h.run
    refine ⟨calls++[c],?_,?_,?_⟩
    · intro d hd
      rcases List.mem_append.mp hd with hd | hd
      · exact hall d hd
      · rwa [List.mem_singleton.mp hd]
    · rw [hrows,hr,after,after,List.foldl_append]
      rfl
    · intro id
      rw [hhanded,List.countP_append,List.countP_map,selections_append]
      refine Nat.add_le_add (hcount id) ?_
      rcases hout with rfl | rfl
      · rw [← hr]
        exact countP_handedOut id w.rows c
      · exact Nat.zero_le _
  decodes := by
    intro x hx
    rw [hhanded] at hx
    rw [hrows]
    rcases List.mem_append.mp hx with hx | hx
    · obtain ⟨r,hf,hm⟩ := h.decodes x hx
      obtain ⟨r',hf',hmove⟩ := row_move c hf
      exact ⟨r',hf',by rw [hmove.attempts.2.1]; exact hm⟩
    · obtain ⟨e,he,rfl⟩ := List.mem_map.mp hx
      rcases hout with rfl | rfl
      · obtain ⟨spec,draw,r,_,hf,_,_,_,hid,_⟩ := handedOut_row he
        obtain ⟨r',hf',hmove⟩ := row_move c hf
        rw [← hid] at hf hf'
        exact ⟨r',hf',by rw [hmove.attempts.2.1]; exact metadata_of_handedOut he hf⟩
      · cases he
  once := by
    rw [hw]
    exact h.once
  handed := by
    rw [hw,hhanded]
    exact List.subset_append_of_subset_left _ h.handed

/-- A call without an effect changes nothing. -/
theorem Inv.idle (h : Inv t maxAttempts w) (hrows : w'.rows = w.rows)
    (hhanded : w'.handedTo = w.handedTo) (hw : w'.worked = w.worked) : Inv t maxAttempts w' := by
  obtain ⟨rows,handedTo,worked⟩ := w
  obtain ⟨rows',handedTo',worked'⟩ := w'
  obtain rfl : rows' = rows := hrows
  obtain rfl : handedTo' = handedTo := hhanded
  obtain rfl : worked' = worked := hw
  exact h

/-- A finalization may lose its reply or its effect. -/
theorem Inv.finalize (h : Inv t maxAttempts w) {call : Except q.Error Unit × Rows q}
    {reply : Option (Except q.Error Unit)} (hl : Lossy w.rows call reply w'.rows)
    (hc : call.2 = step w.rows c) (hlimit : Call.limitedTo maxAttempts c)
    (hhanded : w'.handedTo = w.handedTo) (hw : w'.worked = w.worked) : Inv t maxAttempts w' := by
  rcases hl.table with hr | hr
  · exact h.call (i:=0) hlimit (hr.trans hc) (.inr rfl) (by rw [hhanded]; simp) hw
  · exact h.idle hr hhanded hw

/-- A call whose debt is paid keeps the invariant. -/
theorem Inv.step (h : Inv t maxAttempts w) {op : BatchOp q} {reply : Option op.Reply}
    (ho : Owes maxAttempts i op w) (hp : Performs i op w reply w') : Inv t maxAttempts w' := by
  obtain ⟨⟨token,ha⟩,hhanded,hworked⟩ := hp
  rcases op with op | e
  · rw [worksOn,List.append_nil] at hworked
    rcases op with spec | ⟨id,owner⟩ | ⟨id,owner,limit,reason⟩
    · obtain ⟨draw,_,rfl,hrows⟩ := ha.reserve_inv
      exact h.call (c:=.reserve spec draw) (i:=i) ho hrows (.inl rfl) hhanded hworked
    · obtain ⟨now,hl⟩ := ha.completed_inv
      rw [handsOut,List.append_nil] at hhanded
      exact h.finalize (c:=.finalize .completed id owner now) hl rfl trivial hhanded hworked
    · obtain ⟨now,hl⟩ := ha.failed_inv
      rw [handsOut,List.append_nil] at hhanded
      exact h.finalize (c:=.finalize (.failed limit reason) id owner now) hl rfl ho hhanded hworked
  · have hrows : w'.rows = w.rows := ha.work_inv
    rw [handsOut,List.append_nil] at hhanded
    rw [worksOn] at hworked
    have hpending : Pending i e w := ho
    refine ⟨?_,?_,?_,?_⟩
    · rw [hrows,hhanded]
      exact h.run
    · rw [hrows,hhanded]
      exact h.decodes
    · rw [hworked,List.map_append,List.map_singleton,List.nodup_append]
      refine ⟨h.once,List.nodup_singleton _,?_⟩
      rintro _ hx _ hy rfl
      obtain ⟨⟨j,e'⟩,hmem,heq⟩ := List.mem_map.mp hx
      have hpair := heq.trans (List.mem_singleton.mp hy)
      obtain rfl : j = i := (Prod.mk.inj hpair).1
      exact hpending.idle e' hmem (Prod.mk.inj hpair).2
    · rw [hworked,hhanded]
      exact List.append_subset.mpr ⟨h.handed,by simpa using hpending.handed⟩

/-- Between two calls of a run, others hand nothing back and work in their own names. -/
structure Rely (i : ℕ) (w w' : World q) : Prop where
  /-- What was handed out stays handed out. -/
  handed : w.handedTo ⊆ w'.handedTo
  /-- Nobody else works in the name of the run. -/
  idle : ∀ e, (i,e) ∈ w'.worked → (i,e) ∈ w.worked

theorem Pending.wait {e : q.Envelope} (h : Pending i e w) (hr : Rely i w w') : Pending i e w' :=
  ⟨h.token,hr.handed h.handed,fun e' he => h.idle e' (hr.idle e' he)⟩

/-- What the runs of a queue owe to and expect of each other. -/
def discipline (t : Rows q) (items : Items q) (maxAttempts : ℤ) :
    (team items maxAttempts).Discipline where
  rely := Rely
  inv := Inv t maxAttempts
  owes := Owes maxAttempts
  new := fun i w => ∀ e, (i,e) ∉ w.worked
  rely_refl := fun _ _ => ⟨List.Subset.refl _,fun _ h => h⟩
  rely_trans := fun h h' =>
    ⟨List.Subset.trans h.handed h'.handed,fun e he => h.idle e (h'.idle e he)⟩
  new_rely := fun h hr e he => h e (hr.idle e he)
  call_inv := fun hi ho hp => hi.step ho hp
  call_rely := by
    intro i j op w reply w' _ _ hp hj
    refine ⟨hp.handedTo ▸ List.subset_append_left _ _,fun e he => ?_⟩
    rw [hp.worked] at he
    refine (List.mem_append.mp he).resolve_right fun hmem => ?_
    cases op with
    | port op => cases hmem
    | work x => exact hj (Prod.mk.inj (List.mem_singleton.mp hmem)).1
  outside_inv := by
    rintro w w' hi ⟨c,hl,rfl⟩
    exact hi.call (i:=0) hl rfl (.inr rfl) (by simp) rfl
  outside_rely := by
    rintro j w w' _ ⟨c,_,rfl⟩
    exact ⟨List.Subset.refl _,fun _ h => h⟩

/-- The rule of `reserve`: its entries are pending, if the run has not worked. -/
theorem safe_reserve {spec : ReservableSpec} (hl : spec.maxAttempts = maxAttempts)
    (hnew : ∀ e, (i,e) ∉ w.worked) :
    Safe ((discipline t items maxAttempts).rules i)
      ((batchPorts : Ports q (BatchOp q) BatchOp.Reply).reserve spec)
      (fun o w => ∀ entries, o = some (.ok entries) →
        (entries.map fun e => (q.handed e).id).Nodup ∧ ∀ e ∈ entries, Pending i e w) w := by
  refine Safe.perform fun w₁ hr₁ _ => ⟨hl,?_⟩
  rintro reply w₂ ⟨⟨token,ha⟩,hhanded,hworked⟩ _ w₃ hr₃ _ entries rfl
  obtain ⟨draw,_,hreply,_⟩ := ha.reserve_inv
  have hout : entries = handedOut w₁.rows (.reserve spec draw) := by
    rw [handedOut,← Option.some.inj hreply]
  refine ⟨hout ▸ handedOut_nodup _ _,fun e he => ?_⟩
  refine ⟨?_,hr₃.handed ?_,fun e' he' => ?_⟩
  · rw [hout] at he
    exact token_of_handedOut he
  · rw [hhanded]
    exact List.mem_append_right _ (List.mem_map.mpr ⟨e,he,rfl⟩)
  · have hold := hr₃.idle e' he'
    rw [hworked,worksOn,List.append_nil] at hold
    exact absurd (hr₁.idle e' hold) (hnew e')

/-- A batch under the limit works on what it reserved, and on each entry once. -/
theorem safe_batch {spec : ReservableSpec} (hl : spec.maxAttempts = maxAttempts)
    (hnew : ∀ e, (i,e) ∉ w.worked) :
    Safe ((discipline t items maxAttempts).rules i) (batch items spec >>= fun _ => .ret ())
      (fun _ _ => True) w := by
  have hbatch : Safe ((discipline t items maxAttempts).rules i) (batch items spec)
      (fun _ _ => True) w := by
    refine safe_entries (Pending i) (fun e op _ => ∀ x, op = .work x → x = e) ?_ ?_ ?_ ?_
    · exact fun _ _ _ h hr => h.wait hr
    · intro e e' hne a op reply b hp _ _ hx hs
      refine ⟨hp.token,hs.handedTo ▸ List.mem_append_left _ hp.handed,fun x hmem => ?_⟩
      rw [hs.worked] at hmem
      rcases List.mem_append.mp hmem with hmem | hmem
      · exact hp.idle x hmem
      · cases op with
        | port op => cases hmem
        | work y =>
          obtain rfl := (Prod.mk.inj (List.mem_singleton.mp hmem)).2
          rwa [hx x rfl]
    · exact safe_reserve hl hnew
    · intro e errors v _ hp
      obtain ⟨token,ht⟩ := hp.token
      refine safe_processEntry (fun _ => True) ht ?_ ?_ ?_
      · refine Safe.perform fun v' hr _ => ⟨⟨hp.wait hr,?_⟩,?_⟩
        · rintro x ⟨⟩
          rfl
        · exact fun _ _ _ _ _ _ _ _ _ _ _ => trivial
      · exact fun v' _ _ => Safe.perform fun _ _ _ => ⟨⟨trivial,fun _ hx => by cases hx⟩,
          fun _ _ _ _ _ _ _ => trivial⟩
      · exact fun reason v' => Safe.perform fun _ _ _ => ⟨⟨hl,fun _ hx => by cases hx⟩,
          fun _ _ _ _ _ _ _ => trivial⟩
  exact hbatch.bind_ret

/-- The invariant holds of every world that the workers reach. -/
theorem reaches_inv {s : Pool (BatchOp q) BatchOp.Reply (World q)}
    (h : (team items maxAttempts).Reaches ⟨t,[],[]⟩ s) : Inv t maxAttempts s.world := by
  refine ((discipline t items maxAttempts).reaches_safe ?_ ?_ ?_ h).inv
  · refine ⟨⟨[],List.forall_mem_nil _,rfl,fun _ => Nat.zero_le _⟩,List.forall_mem_nil _,
      List.nodup_nil,List.nil_subset _⟩
  · exact fun _ _ => List.not_mem_nil
  · rintro i p w ⟨spec,hl,rfl⟩ _ hnew
    exact safe_batch hl hnew

/-- What one retry limit promises of the work of a row. -/
structure BoundedWork (w : World q) (maxAttempts : ℤ) (id : Uuid) (r : Row q.Own) : Prop where
  /-- The work is executed no more often than the row has attempts left. -/
  executed : ((w.worked.countP fun x => decide ((q.handed x.2).id = id) : ℕ) : ℤ) ≤
    max 0 (maxAttempts-r.attempts)
  /-- The work of a row whose metadata does not decode is never executed. -/
  undecodable : (q.readMetadata r.metadata).isOk = false →
    ∀ x ∈ w.worked, (q.handed x.2).id ≠ id

theorem Inv.boundedWork (h : Inv t maxAttempts w) (hf : t.find? id = some r) :
    BoundedWork w maxAttempts id r where
  executed := by
    obtain ⟨calls,hall,_,hcount⟩ := h.run
    have hnodup : w.worked.Nodup := h.once.of_map
    have hworked := ((List.subperm_of_subset hnodup h.handed).countP_le
      fun x => decide ((q.handed x.2).id = id)).trans (hcount id)
    have := selections_le hf hall
    omega
  undecodable := by
    intro hbad x hx hid
    obtain ⟨calls,_,hrows,_⟩ := h.run
    obtain ⟨r',hf',_,hm⟩ := attempts_run calls hf (Nat.le_refl calls.length)
    rw [stateAt_length,← hrows,← hid] at hf'
    obtain ⟨r'',hf'',hok⟩ := h.decodes x (h.handed hx)
    rw [hf'] at hf''
    cases hf''
    rw [hm,hbad] at hok
    cases hok

end Workers

section Guarantee

/-- Bounded delivery: under one retry limit, the attempts of a row count the
reservations that select it and stop at the limit, and whatever workers, sweepers
and producers do, its work is executed no more often than it had attempts left. -/
theorem bounded_delivery (name : QueueName) (float : SerdeJson.FloatReader)
    (t : Rows (name.queue float)) (maxAttempts : ℤ) {id : Uuid} {r : Row (name.queue float).Own}
    (hf : t.find? id = some r) :
    (∀ calls, (∀ c ∈ calls, Call.limitedTo maxAttempts c) →
      BoundedAttempts t calls maxAttempts id r) ∧
    ∀ s, (team (itemsOf name float) maxAttempts).Reaches ⟨t,[],[]⟩ s →
      BoundedWork s.world maxAttempts id r :=
  ⟨fun _ hall => boundedAttempts hf hall,fun _ h => (reaches_inv h).boundedWork hf⟩

theorem bounded_delivery_retriedCalls :
    BoundedAttempts waitingTable retriedCalls 6 (.fromU128 1) waitingRow :=
  (bounded_delivery .commands .integersOnly waitingTable 6 rfl).1 retriedCalls
    (by simp [retriedCalls,Call.limitedTo,singleSpec])

end Guarantee

end Mulac.BoundedDelivery
