import Mulac.OwnCommand

/-!
# The passage of a message

In a kernel that keeps up with its queues, whatever else it does in between, an
inbox batch, a command batch and an event batch take a message all the way: its
command is executed, its events are handed to their subscribers, and all the
rows on the way are `Completed`. What becomes of other rows does not matter.
-/

namespace Mulac.MessagePassage

open Identifiers Postgres SerdeJson QueueDomain KeyedTable OrderedSelection Envelopes QueueRow
  Repository RepositoryContracts FourQueues QueueCalls ReserveContract PanicProgram CallTrace
  Consumers Dispatch BatchSettlement BatchAccounting RowLifetimes QueueRuns Draining Recording
  TextFaults Pipeline Handoffs HandoffRules CommandExecution DispatchCommand KernelWorld KernelWork
  OwnCommand

section Actions

variable (app : Application) (float : FloatReader)

/-- What the consumer of a queue does with an entry. -/
def workOf : (name : QueueName) → (name.queue float).Envelope →
    Program app float (Except (name.queue float).Error Unit)
  | .commands => dispatchCommand commandDispatcher
  | .events => dispatchEvent eventDispatcher
  | .inbox => forwardMessage nowV7 commandGateway.dispatch
  | .outbox => publishEntry publisher

/-- What goes on in a kernel. -/
inductive Action where
  /-- A batch of a consumer. -/
  | batch (name : QueueName) (spec : ReservableSpec)
  /-- Somebody records an entry. -/
  | record (name : QueueName) (entry : (name.queue float).NewEntry)

variable {float}

/-- The queue of a batch. -/
def Action.queue : Action float → Option QueueName
  | .batch name _ => some name
  | .record _ _ => none

/-- An action, run for its effects. -/
def Action.program : Action float → Program app float Unit
  | .batch name spec => ignoreResult (consume (itemsOf name float) (ports name)
      (workOf app float name) spec)
  | .record name entry => do
    let _ ← Prog.perform (SystemOp.record name entry)
    return ()

/-- One action after the other. -/
def perform : List (Action float) → Program app float Unit
  | [] => return ()
  | action::actions => do
    let _ ← action.program app
    perform actions

variable {app}

/-- What is assumed of the calls: a batch holds all that is due, and no event or command is recorded
under an id that another one has. -/
def KeepsUp (w : Surroundings float) : SystemOp app float → Kernel float → Prop
  | .port name (.reserve spec),s =>
    spec.limit < 2^63 ∧ (due spec (w.now s.calls) (s.tables name)).length ≤ spec.limit
  | .record .events event,s =>
    ∀ m ∈ (event : NewEventEnvelope).metadata, s.content .events m.eventId = none
  | .record .commands new,s =>
    ∀ m ∈ (new : NewCommandEnvelope).metadata, s.content .commands m.commandId = none
  | _,_ => True

instance (w : Surroundings float) :
    (op : SystemOp app float) → (s : Kernel float) → Decidable (KeepsUp w op s)
  | .port _ (.reserve _),_ => inferInstanceAs (Decidable (_ ∧ _))
  | .port _ (.completed _ _),_ => .isTrue trivial
  | .port _ (.failed _ _ _ _),_ => .isTrue trivial
  | .record .events event,s => inferInstanceAs (Decidable
      (∀ m ∈ (event : NewEventEnvelope).metadata, s.content .events m.eventId = none))
  | .record .commands new,s => inferInstanceAs (Decidable
      (∀ m ∈ (new : NewCommandEnvelope).metadata, s.content .commands m.commandId = none))
  | .record .inbox _,_ => .isTrue trivial
  | .record .outbox _,_ => .isTrue trivial
  | .nowV7,_ => .isTrue trivial
  | .execute _ _,_ => .isTrue trivial
  | .handle _ _,_ => .isTrue trivial
  | .publish _,_ => .isTrue trivial

theorem KeepsUp.newIds {w : Surroundings float} {op : SystemOp app float} {s : Kernel float}
    (h : KeepsUp w op s) : NewIds op s := by
  intro event m hop hm
  subst hop
  exact h m hm

end Actions

section Frame

variable {app : Application} {float : FloatReader} {answers : Answers app} {w : Surroundings float}
  {s s' s'' : Kernel float} {name : QueueName} {ids ids' : List Uuid}

/-- Only rows under some keys of a table change, and rows may be added. -/
structure Spares (name : QueueName) (ids : List Uuid) (s s' : Kernel float) : Prop where
  /-- Time goes on. -/
  calls : s.calls ≤ s'.calls
  /-- The other rows stay. -/
  kept : ∀ name' k r, (name' = name → k ∉ ids) → (s.tables name').find? k = some r →
    (s'.tables name').find? k = some r

theorem Spares.refl (name : QueueName) (ids : List Uuid) (s : Kernel float) :
    Spares name ids s s := ⟨Nat.le_refl _,fun _ _ _ _ h => h⟩

theorem Spares.trans (h : Spares name ids s s') (h' : Spares name ids s' s'') :
    Spares name ids s s'' :=
  ⟨h.calls.trans h'.calls,fun name' k r hk hf => h'.kept name' k r hk (h.kept name' k r hk hf)⟩

theorem Spares.mono (h : Spares name ids s s') (hids : ids ⊆ ids') : Spares name ids' s s' :=
  ⟨h.calls,fun name' k r hk hf => h.kept name' k r (fun hn hm => hk hn (hids hm)) hf⟩

variable (answers w) in
/-- A recording spares all rows. -/
theorem spares_record (name : QueueName) (ids : List Uuid) (name' : QueueName)
    (entry : (name'.queue float).NewEntry) (s : Kernel float) : Spares name ids s (respond answers w (.record name' entry) s).2 where
  calls := Nat.le_succ _
  kept := by
    intro other k r _ hf
    by_cases hne : other = name'
    · subst hne
      change ((s.write other (step (s.tables other)
        (.record entry (w.appNow s.calls) (w.now s.calls)))).tables other).find? k = some r
      rw [tables_write]
      obtain ⟨r',hf',hmove⟩ := row_move (.record entry (w.appNow s.calls) (w.now s.calls)) hf
      cases hmove with
      | kept _ _ _ => exact hf'
      | selected hc _ _ => cases hc
      | ended hc _ _ _ => cases hc
      | swept hc _ _ _ => cases hc
    · exact (congrArg (fun t => t.find? k) (tables_write_of_ne s hne _)).trans hf

theorem Spares.of_settles {id : Uuid} (h : Settles name id s s') : Spares name [id] s s' where
  calls := h.calls
  kept := by
    intro name' k r hk hf
    by_cases hne : name' = name
    · subst hne
      rw [h.rows k fun hid => hk rfl (hid ▸ List.mem_singleton_self _)]
      exact hf
    · rw [h.others name' hne]
      exact hf

/-- A call of no port spares all rows. -/
theorem spares_noPort {op : SystemOp app float} (h : ∀ name port, op ≠ .port name port)
    (s : Kernel float) : Spares name ids s (respond answers w op s).2 := by
  cases op with
  | record name' entry => exact spares_record answers w name ids name' entry s
  | port name' port => exact absurd rfl (h name' port)
  | nowV7 => exact ⟨Nat.le_succ _,fun _ _ _ _ hf => hf⟩
  | execute handler command => exact ⟨Nat.le_succ _,fun _ _ _ _ hf => hf⟩
  | handle subscriber envelope => exact ⟨Nat.le_succ _,fun _ _ _ _ hf => hf⟩
  | publish message => exact ⟨Nat.le_succ _,fun _ _ _ _ hf => hf⟩

/-- The calls for an entry spare all rows but its own. -/
theorem spares_itemCall {identity : Uuid × Uuid} {op : SystemOp app float}
    (h : ItemCall name identity op) (s : Kernel float) :
    Spares name [identity.1] s (respond answers w op s).2 := by
  cases h with
  | work hop => exact spares_noPort hop s
  | completed =>
    exact .of_settles (settles_finalize s .completed identity.1 identity.2 (w.now s.calls))
  | failed maxAttempts reason =>
    exact .of_settles (settles_finalize s (.failed maxAttempts reason) identity.1 identity.2
      (w.now s.calls))

end Frame

section Turns

variable {app : Application} {float : FloatReader} {answers : Answers app} {w : Surroundings float}
  {s s' : Kernel float} {name : QueueName}

/-- The work on an entry calls no port. -/
theorem noPort_workOf {σ : Type}
    {handle : (op : SystemOp app float) → σ → Option op.Reply × σ} (name : QueueName)
    (e : (name.queue float).Envelope) (s : σ) :
    ∀ o ∈ trace handle (workOf app float name e) s, NoPort o := by
  cases name with
  | commands => exact noPort_commandDispatcher _ s
  | events => exact noPort_eventDispatcher _ s
  | inbox =>
    refine forall_trace_bind (noPort_perform (by rintro _ _ ⟨⟩) s) fun drawn s₁ => ?_
    split
    · exact fun o ho => by cases ho
    · refine forall_trace_bind (noPort_commandGateway _ s₁) fun result s₂ => ?_
      exact fun o ho => by cases ho
  | outbox =>
    change ∀ o ∈ trace handle (publishEntry publisher e) s, NoPort o
    unfold publishEntry
    split
    · exact fun o ho => by cases ho
    · exact noPort_perform (by rintro _ _ ⟨⟩) s

variable (answers w) in
/-- The work spares all rows. -/
theorem spares_workOf (e : (name.queue float).Envelope) (ids : List Uuid) (s : Kernel float) :
    Spares name ids s ((workOf app float name e).run (respond answers w) s).2 :=
  run_related (Spares.refl name ids) Spares.trans (fun _ s hop => spares_noPort hop s)
    (noPort_workOf name e s)

variable (answers w) in
/-- The turn of an entry: it spares the other rows, and if its work returns `Ok`, its row is
`Completed`. -/
theorem run_entry {e : (name.queue float).Envelope} {token : Uuid}
    (htoken : ((name.queue float).handed e).reservationId = some token)
    (hheld : Holds (s.tables name) ((name.queue float).handed e).id token) (maxAttempts : ℤ)
    (errors : List (name.queue float).Error) : ∃ errors' s',
    (processEntry (itemsOf name float) (ports name) (workOf app float name) maxAttempts e
      errors).run (respond answers w) s = (some errors',s') ∧
      Spares name [((name.queue float).handed e).id] s s' ∧
      ∀ s₁, (workOf app float name e).run (respond answers w) s = (some (.ok ()),s₁) →
        Spares name [((name.queue float).handed e).id] s₁ s' ∧
        ∀ r, (s.tables name).find? ((name.queue float).handed e).id = some r →
          ∃ now, (s'.tables name).find? ((name.queue float).handed e).id =
            some (completedRow now r) := by
  have hid := (itemsOf name float).identity_handed e token htoken
  have hwork : ∀ s, ∀ o ∈ trace (respond answers w) (workOf app float name e) s, NoPort o :=
    noPort_workOf name e
  obtain ⟨hcalls,added,s',hrun,_⟩ := processEntry_failures hid hwork maxAttempts errors s
  have hspares : Spares name [((name.queue float).handed e).id] s s' := by
    have hrelated := run_related (Spares.refl name [((name.queue float).handed e).id])
      Spares.trans (Q:=ItemCall name (((name.queue float).handed e).id,token))
      (fun _ s hop => spares_itemCall hop s) hcalls
    rw [hrun] at hrelated
    exact hrelated
  refine ⟨_,s',hrun,hspares,?_⟩
  intro s₁ hok
  obtain ⟨r,hf,hr⟩ := hheld
  have hworked : Spares name [] s s₁ := by
    have hafter := spares_workOf answers w e [] s
    rw [hok] at hafter
    exact hafter
  have hf₁ := hworked.kept name _ r (fun _ => List.not_mem_nil) hf
  have hcomplete : ((ports name : Ports (name.queue float) (SystemOp app float)
      SystemOp.Reply).completed ((name.queue float).handed e).id token).run (respond answers w) s₁ =
        (some (.ok ()),s₁.write name ((s₁.tables name).updateAt ((name.queue float).handed e).id
          (completedRow (w.now s₁.calls)) (completedRow_id (w.now s₁.calls)))) := by
    refine (Prog.run_perform _ _ _).trans ?_
    rw [respond,completed_of_held hf₁ hr (w.now s₁.calls)]
    rfl
  rw [processEntry,hid] at hrun
  have hlast := congrArg Prod.snd (hrun.symm.trans (run_runItem_ok hok rfl hcomplete))
  dsimp only at hlast
  subst hlast
  refine ⟨.of_settles ?_,fun r₀ hr₀ => ⟨w.now s₁.calls,?_⟩⟩
  · have hsettles := settles_finalize s₁ (.completed : Finalization (name.queue float))
      ((name.queue float).handed e).id token (w.now s₁.calls)
    rw [finalize,completed_of_held hf₁ hr (w.now s₁.calls)] at hsettles
    exact hsettles
  · rw [hf] at hr₀
    cases hr₀
    rw [tables_write]
    exact Table.find?_updateAt_self hf₁ _ _

/-- What becomes of an entry of a batch: its work runs, and if that returns `Ok`, its row is
`Completed` and what the work left in the other tables stays. -/
structure Turn (answers : Answers app) (w : Surroundings float) (name : QueueName)
    (ids : List Uuid) (calls : List (Observed (SystemOp app float) SystemOp.Reply))
    (s s' : Kernel float) (e : (name.queue float).Envelope)
    (outcome : Option (Except (name.queue float).Error Unit)) (s₁ s₂ : Kernel float) : Prop where
  /-- The work runs. -/
  run : (workOf app float name e).run (respond answers w) s₁ = (outcome,s₂)
  /-- The kernel keeps up. -/
  keepsUp : Throughout (respond answers w) (KeepsUp w) (workOf app float name e) s₁
  /-- The batch makes its calls. -/
  calls : ∀ o ∈ trace (respond answers w) (workOf app float name e) s₁, o ∈ calls
  /-- What it left stays. -/
  later : outcome = some (.ok ()) → Spares name ids s₂ s'
  /-- The row is completed. -/
  completed : outcome = some (.ok ()) →
    ∀ r, (s.tables name).find? ((name.queue float).handed e).id = some r →
      ∃ now, (s'.tables name).find? ((name.queue float).handed e).id = some (completedRow now r)

/-- The id of an entry. -/
def entryId (name : QueueName) (e : (name.queue float).Envelope) : Uuid :=
  ((name.queue float).handed e).id

/-- Every entry of a batch has its turn, whatever the turns of the others come to. -/
theorem run_entries {entries : List (name.queue float).Envelope}
    (hnodup : (entries.map (entryId name)).Nodup)
    (hheld : ∀ e ∈ entries, ∃ token, ((name.queue float).handed e).reservationId = some token ∧
      Holds (s.tables name) (entryId name e) token) (maxAttempts : ℤ)
    (errors : List (name.queue float).Error)
    (hkeep : Throughout (respond answers w) (KeepsUp w) (processEntries (itemsOf name float)
      (ports name) (workOf app float name) maxAttempts entries errors) s) : ∃ errors' s',
    (processEntries (itemsOf name float) (ports name) (workOf app float name) maxAttempts entries
      errors).run (respond answers w) s = (some errors',s') ∧
      Spares name (entries.map (entryId name)) s s' ∧
      ∀ e ∈ entries, ∃ outcome s₁ s₂, Turn answers w name (entries.map (entryId name))
        (trace (respond answers w) (processEntries (itemsOf name float) (ports name)
          (workOf app float name) maxAttempts entries errors) s) s s' e outcome s₁ s₂ := by
  induction entries generalizing s errors with
  | nil => exact ⟨errors,s,rfl,Spares.refl name [] s,fun e he => absurd he List.not_mem_nil⟩
  | cons e rest ih =>
    rw [List.map_cons,List.nodup_cons] at hnodup
    obtain ⟨token,htoken,hhead⟩ := hheld e List.mem_cons_self
    obtain ⟨errors₁,s₁,hrun,hspares,hdone⟩ :=
      run_entry answers w htoken hhead maxAttempts errors
    obtain ⟨hentry,hrest⟩ := throughout_bind.mp hkeep
    have hothers : ∀ e' ∈ rest, ∀ r, (s.tables name).find? (entryId name e') = some r →
        (s₁.tables name).find? (entryId name e') = some r := by
      intro e' he' r hf
      refine hspares.kept name _ r (fun _ hid => hnodup.1 ?_) hf
      have hsame : entryId name e' = entryId name e := List.mem_singleton.mp hid
      exact hsame ▸ List.mem_map_of_mem he'
    have hheld₁ : ∀ e' ∈ rest, ∃ token, ((name.queue float).handed e').reservationId = some token ∧
        Holds (s₁.tables name) (entryId name e') token := by
      intro e' he'
      obtain ⟨token',htoken',r,hf,hr⟩ := hheld e' (List.mem_cons_of_mem _ he')
      exact ⟨token',htoken',r,hothers e' he' r hf,hr⟩
    obtain ⟨errors₂,s₂,hruns,hspares₂,hturns⟩ := ih hnodup.2 hheld₁ errors₁ (hrest _ _ hrun)
    have hlater : Spares name ((e::rest).map (entryId name)) s₁ s₂ :=
      hspares₂.mono (List.subset_cons_self _ _)
    rw [processEntries,trace_bind_of_some hrun]
    refine ⟨errors₂,s₂,(Prog.run_bind_of_some _ hrun _).trans hruns,?_,?_⟩
    · exact (hspares.mono (List.cons_subset_cons _ (List.nil_subset _))).trans hlater
    · intro e' he'
      rcases List.mem_cons.mp he' with rfl | he'
      · have hid := (itemsOf name float).identity_handed e' token htoken
        refine ⟨_,s,_,rfl,throughout_work hid hentry,?_,?_,?_⟩
        · intro o ho
          refine List.mem_append_left _ ?_
          rw [processEntry,hid]
          dsimp only
          rw [runItem,trace_bind,trace_guard]
          exact List.mem_append_left _ ho
        · intro ho
          have hown := (hdone _ (Prod.ext ho rfl)).1
          exact (hown.mono (List.cons_subset_cons _ (List.nil_subset _))).trans hlater
        · intro ho r hf
          obtain ⟨now,hf₁⟩ := (hdone _ (Prod.ext ho rfl)).2 r hf
          exact ⟨now,hspares₂.kept name _ _ (fun _ => hnodup.1) hf₁⟩
      · obtain ⟨outcome,s₃,s₄,hturn⟩ := hturns e' he'
        refine ⟨outcome,s₃,s₄,hturn.run,hturn.keepsUp,?_,?_,?_⟩
        · exact fun o ho => List.mem_append_right _ (hturn.calls o ho)
        · exact fun ho => (hturn.later ho).mono (List.subset_cons_self _ _)
        · exact fun ho r hf => hturn.completed ho r (hothers e' he' r hf)

end Turns

section Batches

variable {app : Application} {float : FloatReader} {answers : Answers app} {w : Surroundings float}
  {s s' : Kernel float} {name : QueueName} {spec : ReservableSpec}

/-- A row whose work is done. -/
def Done (s : Kernel float) (name : QueueName) (k : Uuid) (c : Content) : Prop :=
  ∃ r, (s.tables name).find? k = some r ∧ r.status = Status.completed.code ∧ contentOf name r = c

/-- What a reservation hands out, and leaves. -/
theorem run_reserved (answers : Answers app) (w : Surroundings float) (name : QueueName)
    (hl : spec.limit < 2^63) (s : Kernel float) :
    ((ports name : Ports (name.queue float) (SystemOp app float) SystemOp.Reply).reserve spec).run
        (respond answers w) s =
      (some (.ok (handed (s.tables name) spec (w.draw name s.calls))),
        s.write name (reservedTable (s.tables name) spec (w.draw name s.calls))) := by
  have heq : reserve (s.tables name) spec (w.draw name s.calls) =
      (.ok (handed (s.tables name) spec (w.draw name s.calls)),
        reservedTable (s.tables name) spec (w.draw name s.calls)) :=
    reserve_eq (s.tables name) hl _
  refine (Prog.run_perform _ _ _).trans ?_
  rw [respond,heq]
  rfl

/-- It spares the rows that are not due. -/
theorem kept_reserved {k : Uuid} {name' : QueueName} {r : Row (name'.queue float).Own}
    (hf : (s.tables name').find? k = some r)
    (hno : name' = name → ¬eligible spec (w.now s.calls) r = true) :
    ((s.write name (reservedTable (s.tables name) spec (w.draw name s.calls))).tables
      name').find? k = some r := by
  by_cases hne : name' = name
  · subst hne
    obtain rfl := Table.key_of_find? hf
    rw [tables_write]
    refine find?_reservedTable_of_not (Table.mem_of_find? hf) fun hc => hno rfl ?_
    have hclaimable := (mem_candidates hc).2
    rw [claimable,Bool.and_eq_true] at hclaimable
    exact hclaimable.1
  · exact (congrArg (fun t => t.find? k) (tables_write_of_ne s hne _)).trans hf

/-- An entry of the reservation was due. -/
theorem due_of_handed {e : (name.queue float).Envelope}
    (he : e ∈ handed (s.tables name) spec (w.draw name s.calls)) :
    ∃ r, (s.tables name).find? (entryId name e) = some r ∧
      eligible spec (w.now s.calls) r = true := by
  obtain ⟨r,hr,_,hid,_⟩ := mem_handed he
  obtain ⟨hm,hclaimable⟩ := mem_candidates hr
  rw [claimable,Bool.and_eq_true] at hclaimable
  refine ⟨r,?_,hclaimable.1⟩
  rw [entryId,hid]
  exact Table.find?_key hm

/-- A due row that decodes is handed out, if there are few. -/
theorem handed_of_few (hfew : (due spec (w.now s.calls) (s.tables name)).length ≤ spec.limit)
    {k : Uuid} {r : Row (name.queue float).Own} (hf : (s.tables name).find? k = some r)
    (hdue : eligible spec (w.now s.calls) r = true) (hdecodes : decodes r = true) :
    ∃ e ∈ handed (s.tables name) spec (w.draw name s.calls), entryId name e = k ∧
      Reads float name (contentOf name r) e ∧
      ((s.write name (reservedTable (s.tables name) spec
        (w.draw name s.calls))).tables name).find? k =
          some (reservedRow (w.draw name s.calls).token (w.draw name s.calls).now r) := by
  have hunlocked : ∀ id, (w.draw name s.calls).locked id = false := fun _ => rfl
  obtain ⟨l,hperm,hcandidates⟩ := candidates_due (s.tables name) spec hunlocked
  have hlength : l.length ≤ spec.limit := hperm.length_eq.trans_le hfew
  have hmem : r ∈ l := hperm.mem_iff.mpr (List.mem_filter.mpr ⟨Table.mem_of_find? hf,hdue⟩)
  have hr : r ∈ candidates (s.tables name) spec (w.draw name s.calls) := by
    rw [hcandidates]
    exact mem_firstBy_of_length_le hlength hmem
  obtain rfl := Table.key_of_find? hf
  have hok := (decode_reservedRow (w.draw name s.calls).token (w.draw name s.calls).now r).trans
    hdecodes
  cases hd : decode (reservedRow (w.draw name s.calls).token (w.draw name s.calls).now r) with
  | error error =>
    rw [hd] at hok
    cases hok
  | ok e =>
    have hread := decode_reads hd
    rw [content_reservedRow] at hread
    refine ⟨e,handed_of_decodes hr hd,?_,hread,?_⟩
    · exact (decode_handed (reservedRow_heldBy _ _ r) hd).1
    · rw [tables_write,find?_reservedTable hr,reservedAndSettled_of_ok hd]

/-- A batch of a kernel that keeps up: it leaves what is not due, and every row that is due and
decodes has its turn, whatever the turns of the others come to. -/
theorem run_batch (answers : Answers app) (w : Surroundings float) (name : QueueName)
    (spec : ReservableSpec) (s : Kernel float)
    (hkeep : Throughout (respond answers w) (KeepsUp w)
      (Action.program app (.batch name spec : Action float)) s) : ∃ s',
    (Action.program app (.batch name spec : Action float)).run (respond answers w) s =
        (some (),s') ∧ s.calls ≤ s'.calls ∧
      (∀ name' k r, (s.tables name').find? k = some r →
        (name' = name → ¬eligible spec (w.now s.calls) r = true) →
          (s'.tables name').find? k = some r) ∧
      ∀ k r, (s.tables name).find? k = some r → eligible spec (w.now s.calls) r = true →
        decodes r = true → ∃ e ids t outcome s₁ s₂, Reads float name (contentOf name r) e ∧
          Turn answers w name ids (trace (respond answers w)
            (Action.program app (.batch name spec : Action float)) s) t s' e outcome s₁ s₂ ∧
          (outcome = some (.ok ()) → Done s' name k (contentOf name r)) := by
  obtain ⟨hbatch,_⟩ := throughout_bind.mp hkeep
  obtain ⟨hreserve,hentries⟩ := throughout_bind.mp hbatch
  obtain ⟨hl,hfew⟩ := throughout_perform.mp hreserve
  have hreserved := run_reserved answers w name hl s
  generalize hentriesOf : handed (s.tables name) spec (w.draw name s.calls) = entries at hreserved
  generalize hs₁ : s.write name (reservedTable (s.tables name) spec (w.draw name s.calls)) = s₁
    at hreserved
  obtain ⟨hloop,_⟩ := throughout_bind.mp (hentries _ _ hreserved)
  have hnodup : (entries.map (entryId name)).Nodup := by
    have hout := handedOut_nodup (s.tables name) (.reserve spec (w.draw name s.calls))
    rw [handedOut,reserve_eq (s.tables name) hl] at hout
    rw [← hentriesOf]
    exact hout
  have hheld : ∀ e ∈ entries, ∃ token, ((name.queue float).handed e).reservationId = some token ∧
      Holds (s₁.tables name) (entryId name e) token := by
    intro e he
    rw [← hentriesOf] at he
    obtain ⟨_,_,_,_,htoken⟩ := mem_handed he
    obtain ⟨r,hf,hr⟩ := handed_held he
    rw [← hs₁,tables_write]
    exact ⟨_,htoken,r,hf,hr⟩
  obtain ⟨errors,s₂,hruns,hspares,hturns⟩ :=
    run_entries hnodup hheld spec.maxAttempts [] hloop
  have hrun : (Action.program app (.batch name spec : Action float)).run (respond answers w) s =
      (some (),s₂) := by
    refine (Prog.run_bind_of_some _ (run_consume hreserved hruns) _).trans ?_
    rfl
  have hcalls : ∀ o ∈ trace (respond answers w) (processEntries (itemsOf name float) (ports name)
      (workOf app float name) spec.maxAttempts entries []) s₁, o ∈ trace (respond answers w)
        (Action.program app (.batch name spec : Action float)) s := by
    intro o ho
    rw [Action.program,ignoreResult,trace_bind]
    refine List.mem_append_left _ ?_
    rw [consume,trace_bind_of_some hreserved]
    refine List.mem_append_right _ ?_
    dsimp only
    rw [trace_bind]
    exact List.mem_append_left _ ho
  refine ⟨s₂,hrun,?_,?_,?_⟩
  · have htick : s₁.calls = s.calls+1 := by
      rw [← hs₁]
      rfl
    have hlater := hspares.calls
    omega
  · intro name' k r hf hno
    have hf₁ := kept_reserved hf hno
    rw [hs₁] at hf₁
    refine hspares.kept name' k r (fun hname hmem => ?_) hf₁
    -- the entries stand for rows that were due
    subst hname
    obtain ⟨e,he,rfl⟩ := List.mem_map.mp hmem
    rw [← hentriesOf] at he
    obtain ⟨r',hf',hdue⟩ := due_of_handed he
    rw [hf] at hf'
    cases hf'
    exact hno rfl hdue
  · intro k r hf hdue hdecodes
    obtain ⟨e,he,hid,hread,hf₁⟩ := handed_of_few hfew hf hdue hdecodes
    rw [hentriesOf] at he
    rw [hs₁] at hf₁
    obtain ⟨outcome,s₃,s₄,hturn⟩ := hturns e he
    refine ⟨e,_,s₁,outcome,s₃,s₄,hread,⟨hturn.run,hturn.keepsUp,?_,hturn.later,hturn.completed⟩,?_⟩
    · exact fun o ho => hcalls o (hturn.calls o ho)
    · intro ho
      subst hid
      obtain ⟨now,hf₂⟩ := hturn.completed ho _ hf₁
      refine ⟨_,hf₂,rfl,?_⟩
      rw [Finalization.Writes.content (.completed rfl),content_reservedRow]

end Batches

section Works

variable {app : Application} {float : FloatReader} {answers : Answers app} {w : Surroundings float}
  {s s' : Kernel float}

/-- The command that a message becomes. -/
def Forwards (float : FloatReader) (c : Content) (drawn : Uuid) (new : NewCommandEnvelope) : Prop :=
  ∃ e, Reads float .inbox c e ∧ NewCommandEnvelope.ofInbox drawn e = .ok new

/-- A message whose command can be stored and is handled, with all its events, under whatever
id. -/
def Deliverable (answers : Answers app) (float : FloatReader) (c : Content) : Prop :=
  ∀ e, Reads float .inbox c e → ∀ drawn, ∃ new, NewCommandEnvelope.ofInbox drawn e = .ok new ∧
    (∀ text ∈ commandTexts new, nulFree text = true) ∧ Handled answers new

/-- The work on such a message records its command. -/
theorem run_forward {e : InboxMessageEnvelope} {new : NewCommandEnvelope}
    (hnew : NewCommandEnvelope.ofInbox (w.drawn s.calls) e = .ok new)
    (htexts : ∀ text ∈ commandTexts new, nulFree text = true)
    (hkeep : Throughout (respond answers w) (KeepsUp w) (workOf app float .inbox e) s) : ∃ s' r,
    (workOf app float .inbox e).run (respond answers w) s = (some (.ok ()),s') ∧
      (s'.tables .commands).find? (w.drawn s.calls) = some r ∧ Ready w s'.calls r ∧
      commandOf (contentOf .commands r) = some new := by
  obtain ⟨m,hm,hid⟩ : ∃ m : CommandMetadata, new.metadata = some m ∧
      m.commandId = w.drawn s.calls := by
    unfold NewCommandEnvelope.ofInbox at hnew
    split at hnew
    · cases hnew
    · cases hnew
      exact ⟨_,rfl,rfl⟩
  have hdrawn : (nowV7 : Program app float Uuid).run (respond answers w) s =
      (some (w.drawn s.calls),s.tick) := rfl
  have hdispatch := (throughout_bind.mp hkeep).2 _ _ hdrawn
  rw [hnew] at hdispatch
  have hgateway := (throughout_bind.mp hdispatch).1
  have hnone : s.tick.content .commands m.commandId = none := by
    unfold CommandGateway.dispatch commandGateway at hgateway
    rw [hm] at hgateway
    exact throughout_perform.mp hgateway m hm
  obtain ⟨result,s',hrun,hresult,_,hrow⟩ := run_commandGateway answers w hm s.tick
  obtain rfl := hresult.mpr htexts
  obtain ⟨⟨r,hf,hready,hshown⟩,_⟩ := hrow rfl hnone
  rw [hid] at hf
  refine ⟨s',r,?_,hf,hready,hshown⟩
  change (forwardMessage nowV7 commandGateway.dispatch e).run (respond answers w) s = _
  rw [forwardMessage,Prog.run_bind_of_some _ hdrawn,hnew]
  exact Prog.run_bind_of_some _ hrun _

/-- The handler of a command that is handled is executed. -/
theorem execution_of_handled {new : NewCommandEnvelope} (h : CommandHandled answers new)
    (s : Kernel float) : ∃ handler command,
    CommandHandlerRegistry.get app.handlers new.commandType = some handler ∧
      app.fromStr handler new.payload = .ok command ∧
      (⟨.execute handler command,some (.ok (produced answers new))⟩ :
        Observed (SystemOp app float) SystemOp.Reply) ∈
          trace (respond answers w) (commandDispatcher new : Program app float _) s := by
  obtain ⟨events,hexecuted⟩ := h.1
  have hproduced : produced answers new = events := by rw [produced,hexecuted]
  rw [executed] at hexecuted
  split at hexecuted
  · cases hexecuted
  · next handler hget =>
    split at hexecuted
    · cases hexecuted
    · next command hcommand =>
      have hcall : (Prog.perform (SystemOp.execute handler command) :
          Program app float (Except CommandError (List app.Event))).run (respond answers w) s =
            (some (.ok events),s.tick) := by
        refine (Prog.run_perform _ _ _).trans ?_
        rw [respond,hexecuted]
        rfl
      refine ⟨handler,command,hget,hcommand,?_⟩
      rw [commandDispatcher,CommandDispatcher.dispatch,trace_bind]
      refine List.mem_append_left _ ?_
      rw [CommandHandlerRegistry.execute,hget]
      dsimp only
      unfold wrapHandler HandlerWrapper.execute
      rw [hcommand,hproduced]
      dsimp only
      exact (congrArg (_ ∈ ·) (trace_bind_of_some hcall _)).mpr
        (List.mem_append_left _ (mem_trace_perform hcall))

/-- Every subscriber of an event that is handled is called. -/
theorem handed_of_handled {event : NewEventEnvelope} (h : EventHandled answers event)
    (s : Kernel float) : ∀ subscriber ∈ EventSubscriberRegistry.get app.subscribers event.eventType,
      (⟨.handle subscriber event,some (.ok ())⟩ : Observed (SystemOp app float) SystemOp.Reply) ∈
        trace (respond answers w) (eventDispatcher event : Program app float _) s := by
  unfold eventDispatcher EventDispatcher.dispatch EventSubscriberRegistry.handle
  unfold EventHandled at h
  generalize EventSubscriberRegistry.get app.subscribers event.eventType = subscribers at h ⊢
  induction subscribers generalizing s with
  | nil => exact fun _ hs => absurd hs List.not_mem_nil
  | cons subscriber rest ih =>
    rw [List.forall_mem_cons] at h
    have hcall : (Prog.perform (SystemOp.handle subscriber event) :
        Program app float (Except EventError Unit)).run (respond answers w) s =
          (some (.ok ()),s.tick) := by
      refine (Prog.run_perform _ _ _).trans ?_
      rw [respond,h.1]
      rfl
    intro subscriber' hs
    refine (congrArg (_ ∈ ·) (trace_bind_of_some hcall _)).mpr ?_
    rcases List.mem_cons.mp hs with rfl | hs
    · exact List.mem_append_left _ (mem_trace_perform hcall)
    · exact List.mem_append_right _ (ih s.tick h.2 subscriber' hs)

end Works

section Stages

variable {app : Application} {float : FloatReader} {answers : Answers app} {w : Surroundings float}
  {s s' : Kernel float} {k : Uuid} {c : Content}
  {calls calls' : List (Observed (SystemOp app float) SystemOp.Reply)}

/-- A message whose command was executed. -/
structure Executed (answers : Answers app) (k : Uuid) (c : Content)
    (calls : List (Observed (SystemOp app float) SystemOp.Reply)) (s : Kernel float) (d : Uuid)
    (new : NewCommandEnvelope) : Prop where
  /-- The message is completed. -/
  message : Done s .inbox k c
  /-- It became the command. -/
  forwards : Forwards float c d new
  /-- The command is completed. -/
  command : ∃ c', Done s .commands d c' ∧ commandOf c' = some new
  /-- Its handler was executed. -/
  execution : ∃ handler command,
    CommandHandlerRegistry.get app.handlers new.commandType = some handler ∧
      app.fromStr handler new.payload = .ok command ∧
      (⟨.execute handler command,some (.ok (produced answers new))⟩ :
        Observed (SystemOp app float) SystemOp.Reply) ∈ calls

/-- A message that has come all the way. -/
structure Fulfilled (answers : Answers app) (k : Uuid) (c : Content)
    (calls : List (Observed (SystemOp app float) SystemOp.Reply)) (s : Kernel float) (d : Uuid)
    (new : NewCommandEnvelope) : Prop extends Executed answers k c calls s d new where
  /-- Every event of its command is completed, and was handed to every subscriber. -/
  events : ∀ event ∈ produced answers new, ∃ id c' e, Done s .events id c' ∧
    eventOf c' = some e ∧ Wrapped app.events new.metadata event e ∧
      ∀ subscriber ∈ EventSubscriberRegistry.get app.subscribers e.eventType,
        (⟨.handle subscriber e,some (.ok ())⟩ : Observed (SystemOp app float) SystemOp.Reply) ∈
          calls

/-- How far a message has come, by the batches that it waits for. -/
inductive Stage (answers : Answers app) (w : Surroundings float) (k : Uuid) (c : Content)
    (calls : List (Observed (SystemOp app float) SystemOp.Reply)) (s : Kernel float) :
    List QueueName → Prop
  /-- It waits in the inbox. -/
  | received {r : Row (QueueName.inbox.queue float).Own} : (s.tables .inbox).find? k = some r →
      Ready w s.calls r → contentOf .inbox r = c →
        Stage answers w k c calls s [.inbox,.commands,.events]
  /-- Its command waits. -/
  | forwarded {d : Uuid} {new : NewCommandEnvelope} {r : Row (QueueName.commands.queue float).Own} :
    Done s .inbox k c → Forwards float c d new → Handled answers new →
      (s.tables .commands).find? d = some r → Ready w s.calls r →
        commandOf (contentOf .commands r) = some new →
          Stage answers w k c calls s [.commands,.events]
  /-- Its events wait. -/
  | executed {d : Uuid} {new : NewCommandEnvelope} : Executed answers k c calls s d new →
      EventsHandled answers new → (∀ event ∈ produced answers new, Waits w new s event) →
        Stage answers w k c calls s [.events]
  /-- Nothing is left to do. -/
  | fulfilled {d : Uuid} {new : NewCommandEnvelope} : Fulfilled answers k c calls s d new →
      Stage answers w k c calls s []

/-- What is completed stays completed. -/
def Finishes (s s' : Kernel float) : Prop :=
  ∀ name k c, Done s name k c → Done s' name k c

theorem Executed.later {d : Uuid} {new : NewCommandEnvelope}
    (h : Executed answers k c calls s d new) (hcalls : ∀ o ∈ calls, o ∈ calls')
    (hdone : Finishes s s') : Executed answers k c calls' s' d new where
  message := hdone _ _ _ h.message
  forwards := h.forwards
  command := by
    obtain ⟨c',hc,hshown⟩ := h.command
    exact ⟨c',hdone _ _ _ hc,hshown⟩
  execution := by
    obtain ⟨handler,command,hget,hcommand,hcall⟩ := h.execution
    exact ⟨handler,command,hget,hcommand,hcalls _ hcall⟩

/-- A message stays where it is as long as the table stays in which it waits. -/
theorem Stage.later {left : List QueueName} (h : Stage answers w k c calls s left)
    (hcalls : ∀ o ∈ calls, o ∈ calls') (htime : s.calls ≤ s'.calls) (hdone : Finishes s s')
    (hkept : ∀ name ∈ left.head?, ∀ k r, (s.tables name).find? k = some r →
      (s'.tables name).find? k = some r) : Stage answers w k c calls' s' left := by
  cases h with
  | received hf hready hc =>
    exact .received (hkept .inbox rfl _ _ hf) (hready.later htime) hc
  | forwarded hdone' hforwards hhandled hf hready hshown =>
    exact .forwarded (hdone _ _ _ hdone') hforwards hhandled (hkept .commands rfl _ _ hf)
      (hready.later htime) hshown
  | executed hexecuted hhandled hwaits =>
    exact .executed (hexecuted.later hcalls hdone) hhandled fun event hevent =>
      (hwaits event hevent).kept htime (hkept .events rfl)
  | fulfilled hfulfilled =>
    refine .fulfilled ⟨hfulfilled.toExecuted.later hcalls hdone,fun event hevent => ?_⟩
    obtain ⟨id,c',e,hc,hshown,hwrapped,hhandled⟩ := hfulfilled.events event hevent
    exact ⟨id,c',e,hdone _ _ _ hc,hshown,hwrapped,fun x hx => hcalls _ (hhandled x hx)⟩

/-- A waiting row is due for every batch with the workers' retry limit. -/
theorem Ready.eligible {name : QueueName} {spec : ReservableSpec}
    {r : Row (name.queue float).Own} (h : Ready w s.calls r)
    (hspec : spec.maxAttempts = drainSpec.maxAttempts) :
    eligible spec (w.now s.calls) r = true := by
  have hdue := h.due s.calls (Nat.le_refl _)
  rw [Repository.eligible] at hdue ⊢
  rw [hspec]
  exact hdue

/-- A completed row is not due, so a batch leaves it. -/
theorem finishes_of_kept {name : QueueName} {spec : ReservableSpec}
    (hkept : ∀ name' k r, (s.tables name').find? k = some r →
      (name' = name → ¬Repository.eligible spec (w.now s.calls) r = true) →
        (s'.tables name').find? k = some r) : Finishes s s' := by
  intro name' k c h
  obtain ⟨r,hr,hstatus,hc⟩ := h
  refine ⟨r,hkept name' k r hr fun _ => ?_,hstatus,hc⟩
  simp [Repository.eligible,hstatus,Status.code]

/-- The calls of one more action. -/
def callsAfter (answers : Answers app) (w : Surroundings float)
    (calls : List (Observed (SystemOp app float) SystemOp.Reply)) (action : Action float)
    (s : Kernel float) : List (Observed (SystemOp app float) SystemOp.Reply) :=
  calls++trace (respond answers w) (action.program app) s

/-- An inbox batch forwards the message. -/
theorem Stage.forward (h : Stage answers w k c calls s [.inbox,.commands,.events])
    (hdeliverable : Deliverable answers float c) {spec : ReservableSpec}
    (hspec : spec.maxAttempts = drainSpec.maxAttempts)
    (hkeep : Throughout (respond answers w) (KeepsUp w)
      (Action.program app (.batch .inbox spec : Action float)) s) : ∃ s',
    (Action.program app (.batch .inbox spec : Action float)).run (respond answers w) s =
        (some (),s') ∧
      Stage answers w k c (callsAfter answers w calls (.batch .inbox spec) s) s'
        [.commands,.events] := by
  cases h with
  | @received r hf hready hc =>
    obtain ⟨s',hrun,_,_,hturns⟩ := run_batch answers w .inbox spec s hkeep
    obtain ⟨e,ids,t,outcome,s₁,s₂,hreads,hturn,hdone⟩ :=
      hturns k r hf (Ready.eligible hready hspec) hready.decodes
    rw [hc] at hreads hdone
    obtain ⟨new,hnew,htexts,hhandled⟩ := hdeliverable e hreads (w.drawn s₁.calls)
    obtain ⟨s₃,r',hwork,hf',hready',hshown⟩ := run_forward hnew htexts hturn.keepsUp
    have hsame := hwork.symm.trans hturn.run
    obtain rfl : outcome = some (.ok ()) := (congrArg Prod.fst hsame).symm
    obtain rfl : s₃ = s₂ := congrArg Prod.snd hsame
    have hlater := hturn.later rfl
    refine ⟨s',hrun,.forwarded (hdone rfl) ⟨e,hreads,hnew⟩ hhandled ?_
      (hready'.later hlater.calls) hshown⟩
    exact hlater.kept .commands _ r' nofun hf'

/-- A command batch executes its command. -/
theorem Stage.execute (h : Stage answers w k c calls s [.commands,.events]) {spec : ReservableSpec}
    (hspec : spec.maxAttempts = drainSpec.maxAttempts)
    (hkeep : Throughout (respond answers w) (KeepsUp w)
      (Action.program app (.batch .commands spec : Action float)) s) : ∃ s',
    (Action.program app (.batch .commands spec : Action float)).run (respond answers w) s =
        (some (),s') ∧
      Stage answers w k c (callsAfter answers w calls (.batch .commands spec) s) s' [.events] := by
  cases h with
  | @forwarded d new r hmessage hforwards hhandled hf hready hshown =>
    obtain ⟨s',hrun,_,hkept,hturns⟩ := run_batch answers w .commands spec s hkeep
    obtain ⟨e,ids,t,outcome,s₁,s₂,hreads,hturn,hdone⟩ :=
      hturns d r hf (Ready.eligible hready hspec) hready.decodes
    obtain rfl : new = .ofEnvelope e :=
      Option.some.inj (hshown.symm.trans (commandOf_of_reads hreads))
    obtain ⟨outcome',s₃,hwork,_,hok,hwaits⟩ :=
      run_commandDispatcher answers w (NewCommandEnvelope.ofEnvelope e) s₁
    have hsame := hwork.symm.trans hturn.run
    obtain rfl : outcome' = outcome := congrArg Prod.fst hsame
    obtain rfl : s₃ = s₂ := congrArg Prod.snd hsame
    obtain rfl := hok.mpr hhandled.1
    have hlater := hturn.later rfl
    obtain ⟨handler,command,hget,hcommand,hcall⟩ :=
      execution_of_handled (w:=w) hhandled.1 s₁
    have hids : Throughout (respond answers w) NewIds
        (commandDispatcher (.ofEnvelope e) : Program app float _) s₁ :=
      hturn.keepsUp.imp fun _ _ => KeepsUp.newIds
    refine ⟨s',hrun,.executed ⟨finishes_of_kept hkept _ _ _ hmessage,hforwards,
      ⟨_,hdone rfl,hshown⟩,handler,command,hget,hcommand,?_⟩ hhandled.2 fun event hevent => ?_⟩
    · exact List.mem_append_right _ (hturn.calls _ hcall)
    · exact (hwaits rfl hids event hevent).kept hlater.calls
        fun key r hr => hlater.kept .events key r nofun hr

/-- An event batch hands its events to their subscribers. -/
theorem Stage.handle (h : Stage answers w k c calls s [.events]) {spec : ReservableSpec}
    (hspec : spec.maxAttempts = drainSpec.maxAttempts)
    (hkeep : Throughout (respond answers w) (KeepsUp w)
      (Action.program app (.batch .events spec : Action float)) s) : ∃ s',
    (Action.program app (.batch .events spec : Action float)).run (respond answers w) s =
        (some (),s') ∧
      Stage answers w k c (callsAfter answers w calls (.batch .events spec) s) s' [] := by
  cases h with
  | @executed d new hexecuted hhandled hwaits =>
    obtain ⟨s',hrun,_,hkept,hturns⟩ := run_batch answers w .events spec s hkeep
    have hexecuted' : Executed answers k c
        (callsAfter answers w calls (.batch .events spec) s) s' d new :=
      hexecuted.later (fun o ho => List.mem_append_left _ ho) (finishes_of_kept hkept)
    refine ⟨s',hrun,.fulfilled ⟨hexecuted',fun event hevent => ?_⟩⟩
    obtain ⟨id,r,hf,hready,e,hread,hwrapped⟩ := hwaits event hevent
    obtain ⟨x,ids,t,outcome,s₁,s₂,hreads,hturn,hdone⟩ :=
      hturns id r hf (Ready.eligible hready hspec) hready.decodes
    obtain rfl : e = .ofEnvelope x := Option.some.inj (hread.symm.trans (eventOf_of_reads hreads))
    have hevents := hhandled event hevent _ hwrapped
    obtain ⟨outcome',s₃,hwork,_,_,hok⟩ :=
      run_eventDispatcher answers w (NewEventEnvelope.ofEnvelope x) s₁
    have hsame := hwork.symm.trans hturn.run
    obtain rfl : outcome' = outcome := congrArg Prod.fst hsame
    obtain rfl := hok.mpr hevents
    refine ⟨id,_,_,hdone rfl,hread,hwrapped,fun subscriber hs => ?_⟩
    exact List.mem_append_right _
      (hturn.calls _ (handed_of_handled hevents s₁ subscriber hs))

/-- Any other action leaves a message where it is. -/
theorem Stage.wait {left : List QueueName} (h : Stage answers w k c calls s left)
    (action : Action float) (hother : ∀ name ∈ left.head?, action.queue ≠ some name)
    (hkeep : Throughout (respond answers w) (KeepsUp w) (action.program app) s) : ∃ s',
    (action.program app).run (respond answers w) s = (some (),s') ∧
      Stage answers w k c (callsAfter answers w calls action s) s' left := by
  cases action with
  | batch name spec =>
    obtain ⟨s',hrun,htime,hkept,_⟩ := run_batch answers w name spec s hkeep
    refine ⟨s',hrun,h.later (fun o ho => List.mem_append_left _ ho) htime
      (finishes_of_kept hkept) ?_⟩
    intro name' hname id r hr
    exact hkept name' id r hr fun heq => absurd (congrArg some heq.symm) (hother name' hname)
  | record name entry =>
    have hspares := spares_record answers w name [] name entry s
    refine ⟨_,rfl,h.later (fun o ho => List.mem_append_left _ ho) hspares.calls ?_ ?_⟩
    · intro name' id c' h
      obtain ⟨r,hr,hrest⟩ := h
      exact ⟨r,hspares.kept name' id r (fun _ => List.not_mem_nil) hr,hrest⟩
    · exact fun name' _ id r hr => hspares.kept name' id r (fun _ => List.not_mem_nil) hr

/-- A batch of the queue in which a message waits takes it on. -/
theorem Stage.advance {name : QueueName} {left : List QueueName}
    (h : Stage answers w k c calls s (name::left)) (hdeliverable : Deliverable answers float c)
    {spec : ReservableSpec} (hspec : spec.maxAttempts = drainSpec.maxAttempts)
    (hkeep : Throughout (respond answers w) (KeepsUp w)
      (Action.program app (.batch name spec : Action float)) s) : ∃ s',
    (Action.program app (.batch name spec : Action float)).run (respond answers w) s =
        (some (),s') ∧
      Stage answers w k c (callsAfter answers w calls (.batch name spec) s) s' left := by
  cases h with
  | received hf hready hc => exact Stage.forward (.received hf hready hc) hdeliverable hspec hkeep
  | forwarded hmessage hforwards hhandled hf hready hshown =>
    exact Stage.execute (.forwarded hmessage hforwards hhandled hf hready hshown) hspec hkeep
  | executed hexecuted hhandled hwaits =>
    exact Stage.handle (.executed hexecuted hhandled hwaits) hspec hkeep

/-- One action takes a message on, if it is a batch that the message waits for, and leaves it
where it is otherwise. -/
theorem Stage.step {left : List QueueName} (h : Stage answers w k c calls s left)
    (hdeliverable : Deliverable answers float c) {action : Action float}
    {rest : List QueueName} (hspec : ∀ name spec, action = .batch name spec →
      spec.maxAttempts = drainSpec.maxAttempts)
    (hkeep : Throughout (respond answers w) (KeepsUp w) (action.program app) s)
    (hleft : left.Sublist (action.queue.toList++rest)) : ∃ s' left',
    (action.program app).run (respond answers w) s = (some (),s') ∧
      Stage answers w k c (callsAfter answers w calls action s) s' left' ∧
      left'.Sublist rest := by
  by_cases hnext : ∃ name, left.head? = some name ∧ action.queue = some name
  · obtain ⟨name,hhead,hqueue⟩ := hnext
    obtain ⟨left',rfl⟩ := List.head?_eq_some_iff.mp hhead
    cases action with
    | record name' entry => cases hqueue
    | batch name' spec =>
      obtain rfl := Option.some.inj hqueue
      obtain ⟨s',hrun,hstage⟩ := h.advance hdeliverable (hspec name' spec rfl) hkeep
      exact ⟨s',left',hrun,hstage,List.cons_sublist_cons.mp hleft⟩
  · have hother : ∀ name ∈ left.head?, action.queue ≠ some name :=
      fun name hname hqueue => hnext ⟨name,hname,hqueue⟩
    obtain ⟨s',hrun,hstage⟩ := h.wait action hother hkeep
    refine ⟨s',left,hrun,hstage,?_⟩
    cases hq : action.queue with
    | none =>
      rw [hq] at hleft
      exact hleft
    | some name =>
      rw [hq] at hleft
      cases hleft with
      | cons _ hrest => exact hrest
      | cons_cons _ hrest => exact absurd hq (hother name rfl)

/-- A schedule with the batches that a message waits for, in this order, takes it all the way. -/
theorem Stage.run {left : List QueueName} (h : Stage answers w k c calls s left)
    (hdeliverable : Deliverable answers float c) {actions : List (Action float)}
    (hspecs : ∀ name spec, .batch name spec ∈ actions →
      spec.maxAttempts = drainSpec.maxAttempts)
    (hkeep : Throughout (respond answers w) (KeepsUp w) (perform app actions) s)
    (hleft : left.Sublist (actions.filterMap Action.queue)) : ∃ s',
    (perform app actions).run (respond answers w) s = (some (),s') ∧
      Stage answers w k c (calls++trace (respond answers w) (perform app actions) s) s' [] := by
  induction actions generalizing s calls left with
  | nil =>
    obtain rfl := List.sublist_nil.mp hleft
    refine ⟨s,rfl,?_⟩
    change Stage answers w k c (calls++[]) s []
    rw [List.append_nil]
    exact h
  | cons action actions ih =>
    obtain ⟨haction,hrest⟩ := throughout_bind.mp hkeep
    have hsplit : (action::actions).filterMap Action.queue =
        action.queue.toList++actions.filterMap Action.queue := by
      rw [List.filterMap_cons]
      cases action.queue <;> rfl
    rw [hsplit] at hleft
    obtain ⟨s₁,left',hrun,hstage,hleft'⟩ := h.step hdeliverable
      (fun name spec he => hspecs name spec (he ▸ List.mem_cons_self)) haction hleft
    obtain ⟨s₂,hruns,hstage₂⟩ := ih hstage
      (fun name spec hm => hspecs name spec (List.mem_cons_of_mem _ hm)) (hrest _ _ hrun) hleft'
    refine ⟨s₂,(Prog.run_bind_of_some _ hrun _).trans hruns,?_⟩
    rw [perform,trace_bind_of_some hrun,← List.append_assoc]
    exact hstage₂

end Stages

/-- In a kernel that keeps up with its queues, a message that waits in the inbox comes all the way,
once an inbox batch, a command batch and an event batch have followed each other, whatever else
happens before, between and after them. -/
theorem message_fulfilled (app : Application) (float : FloatReader) (answers : Answers app)
    (w : Surroundings float) (s : Kernel float) (k : Uuid)
    (r : Row (QueueName.inbox.queue float).Own) (hf : (s.tables .inbox).find? k = some r)
    (hready : Ready w s.calls r) (hdeliverable : Deliverable answers float (contentOf .inbox r))
    (actions : List (Action float)) (hspecs : ∀ name spec, .batch name spec ∈ actions →
      spec.maxAttempts = drainSpec.maxAttempts)
    (hkeep : Throughout (respond answers w) (KeepsUp w) (perform app actions) s)
    (hbatches : [.inbox,.commands,.events].Sublist (actions.filterMap Action.queue)) :
    ∃ s' d new, (perform app actions).run (respond answers w) s = (some (),s') ∧
      Fulfilled answers k (contentOf .inbox r)
        (trace (respond answers w) (perform app actions) s) s' d new := by
  have hstage : Stage answers w k (contentOf .inbox r) [] s [.inbox,.commands,.events] :=
    .received hf hready rfl
  obtain ⟨s',hrun,hdone⟩ := hstage.run hdeliverable hspecs hkeep hbatches
  rw [List.nil_append] at hdone
  cases hdone with
  | @fulfilled d new hfulfilled => exact ⟨s',d,new,hrun,hfulfilled⟩

section Example

/-- An application whose handler returns an event, with a subscriber for it. -/
def notifying : Application where
  Command := Unit
  Event := Unit
  Handler := Unit
  Subscriber := Unit
  handlers := [("Rename",())]
  fromStr := fun _ _ => .ok ()
  events := ⟨fun _ => "Renamed",fun _ => none,fun _ => .ok "{}"⟩
  subscribers := [("Renamed",())]

/-- The handler returns its event, and the subscriber takes it. -/
def notified : Answers notifying where
  execute := fun _ _ => some (.ok [()])
  handle := fun _ _ => some (.ok ())
  publish := fun _ => some (.ok ())
  handle_eventId := fun _ _ _ _ _ => rfl

/-- A kernel in which a message waits. -/
def letterbox : Kernel .integersOnly :=
  idle.write .inbox (record (Table.empty : Rows (QueueName.inbox.queue .integersOnly))
    (⟨"{}",.fromU128 1,none,none,some "Rename"⟩ : NewInboxMessageEnvelope) 0 0).2

/-- The row of the message. -/
def letter : Row (QueueName.inbox.queue .integersOnly).Own :=
  ((letterbox.tables .inbox).find? (.fromU128 1)).get (by decide +kernel)

/-- An event batch that comes too early, and then the three batches, between which another message
comes in. -/
def busyDay : List (Action .integersOnly) :=
  [.batch .events singleSpec,.batch .inbox singleSpec,
    .record .inbox (⟨"[]",.fromU128 2,none,none,none⟩ : NewInboxMessageEnvelope),
    .batch .commands singleSpec,.batch .events singleSpec]

theorem letter_ready : Ready moment letterbox.calls letter where
  due := by
    intro j _
    change eligible drainSpec 0 letter = true
    decide +kernel
  decodes := by decide +kernel

theorem letter_deliverable : Deliverable notified .integersOnly (contentOf .inbox letter) := by
  intro e hreads drawn
  obtain ⟨hpayload,hmeta⟩ := hreads
  have hread : requiredMetadata InboxMessageMetadata.ofValue (contentOf .inbox letter).metadata =
      .ok ⟨some (.fromU128 1),none,none,some "Rename"⟩ := by decide +kernel
  have htext : (contentOf .inbox letter).payload = "{}" := by decide +kernel
  rw [hread] at hmeta
  rw [htext] at hpayload
  have hmetadata := Except.ok.inj hmeta
  let new : NewCommandEnvelope := ⟨"Rename","{}",some ⟨drawn,none,some (.fromU128 1),none⟩⟩
  have htexts : commandTexts new = ["{}","Rename"] := rfl
  refine ⟨new,?_,?_,⟨⟨[()],rfl⟩,fun event _ => ⟨rfl,"{}",rfl,by decide,?_⟩⟩,?_⟩
  · unfold NewCommandEnvelope.ofInbox
    rw [← hmetadata,← hpayload]
  · rw [htexts]
    decide
  · change nulFree "Renamed" = true
    decide
  · exact fun event _ e _ subscriber _ => rfl

theorem busyDay_limit (name : QueueName) (spec : ReservableSpec)
    (h : .batch name spec ∈ busyDay) : spec.maxAttempts = drainSpec.maxAttempts := by
  simp only [busyDay,List.mem_cons,Action.batch.injEq,List.not_mem_nil,reduceCtorEq,false_or,
    or_false] at h
  rcases h with ⟨_,rfl⟩ | ⟨_,rfl⟩ | ⟨_,rfl⟩ | ⟨_,rfl⟩ <;> rfl

/-- The message comes all the way. -/
theorem message_fulfilled_letter : ∃ s' d new,
    (perform notifying busyDay).run (respond notified moment) letterbox = (some (),s') ∧
      Fulfilled notified (.fromU128 1) (contentOf .inbox letter)
        (trace (respond notified moment) (perform notifying busyDay) letterbox) s' d new :=
  message_fulfilled notifying .integersOnly notified moment letterbox (.fromU128 1) letter
    (Option.some_get _).symm letter_ready letter_deliverable busyDay
    busyDay_limit (by decide +kernel) (by decide)

end Example

end Mulac.MessagePassage
