import Mulac.DispatchCommand
import Mulac.Draining
import Mulac.HandoffRules
import Mulac.Recording

/-!
# A kernel that answers

`dispatch_command` in a kernel whose tables do what their repository does and
whose handlers and subscribers answer by what they are handed. Nobody else works
on the tables: each call changes one of them, and of the rows that are there only
their state, never what they hold.
-/

namespace Mulac.KernelWorld

open Identifiers SerdeJson KeyedTable OrderedSelection Envelopes QueueRow Repository
  RepositoryContracts FourQueues QueueCalls ReserveContract PanicProgram Consumers Dispatch
  BatchSettlement BatchAccounting RowLifetimes Draining Recording Pipeline Handoffs HandoffRules
  QueueDomain DispatchCommand

section World

/-- Handlers and subscribers that share no state and leave the queue tables alone: each answers by
what it is handed, and neither records an entry nor touches a row. -/
structure Answers (app : Application) where
  /-- `CommandHandlerPort::execute`; no answer is a panic. -/
  execute : app.Handler → app.Command → Option (Except CommandError (List app.Event))
  /-- `EventSubscriberPort::handle`. -/
  handle : app.Subscriber → NewEventEnvelope → Option (Except EventError Unit)
  /-- `OutboxPublisherPort::publish`. -/
  publish : OutboundMessageEnvelope → Option (Except OutboxError Unit)
  /-- A subscriber does not decide by the id that was drawn for an event. -/
  handle_eventId : ∀ subscriber eventType payload (metadata : EventMetadata) id,
    handle subscriber ⟨eventType,payload,some { metadata with eventId := id }⟩ =
      handle subscriber ⟨eventType,payload,some metadata⟩

/-- What clocks, `Uuid::now_v7` and Postgres decide, call by call. -/
structure Surroundings (float : FloatReader) where
  /-- `Utc::now`. -/
  appNow : ℕ → Timestamp
  /-- `now()`. -/
  now : ℕ → Timestamp
  /-- `Uuid::now_v7`. -/
  drawn : ℕ → Uuid
  /-- How a candidates query meets the rows. -/
  candidates : (name : QueueName) → ℕ → Scan (Row (name.queue float).Own)
  /-- How an update returns the rows. -/
  returning : (name : QueueName) → ℕ → Scan (Row (name.queue float).Own)
  /-- What was scheduled for now is due from then on. -/
  clocks : ∀ i j, i < j → appNow i ≤ now j

/-- The tables of a kernel, and how many calls it has served. -/
structure Kernel (float : FloatReader) where
  /-- The four tables. -/
  tables : (name : QueueName) → Rows (name.queue float)
  /-- The calls so far. -/
  calls : ℕ

variable {app : Application} {float : FloatReader}

/-- What a reservation draws; nobody else works on the tables. -/
def Surroundings.draw (w : Surroundings float) (name : QueueName) (i : ℕ) :
    ReserveDraw (name.queue float) :=
  ⟨w.drawn i,w.now i,w.candidates name i,w.returning name i,fun _ => false⟩

/-- The kernel after a call that leaves the tables. -/
def Kernel.tick (s : Kernel float) : Kernel float := ⟨s.tables,s.calls+1⟩

/-- The kernel after a call on a table. -/
def Kernel.write (s : Kernel float) (name : QueueName) (t : Rows (name.queue float)) :
    Kernel float :=
  ⟨Function.update s.tables name t,s.calls+1⟩

/-- How the kernel answers a call. -/
def respond (answers : Answers app) (w : Surroundings float) :
    (op : SystemOp app float) → Kernel float → Option op.Reply × Kernel float
  | .record name entry,s =>
    let outcome := record (s.tables name) entry (w.appNow s.calls) (w.now s.calls)
    (some outcome.1,s.write name outcome.2)
  | .port name (.reserve spec),s =>
    let outcome := reserve (s.tables name) spec (w.draw name s.calls)
    (some outcome.1,s.write name outcome.2)
  | .port name (.completed id token),s =>
    let outcome := completed (s.tables name) id token (w.now s.calls)
    (some outcome.1,s.write name outcome.2)
  | .port name (.failed id token maxAttempts reason),s =>
    let outcome := failed (s.tables name) id token maxAttempts reason (w.now s.calls)
    (some outcome.1,s.write name outcome.2)
  | .nowV7,s => (some (w.drawn s.calls),s.tick)
  | .execute handler command,s => (answers.execute handler command,s.tick)
  | .handle subscriber envelope,s => (answers.handle subscriber envelope,s.tick)
  | .publish message,s => (answers.publish message,s.tick)

/-- What the row under a key holds. -/
def Kernel.content (s : Kernel float) (name : QueueName) (k : Uuid) : Option Content :=
  ((s.tables name).find? k).map (contentOf name)

/-- The command that a row shows to the dispatcher. -/
def commandOf (c : Content) : Option NewCommandEnvelope :=
  match c.type,optionalMetadata CommandMetadata.ofValue c.metadata with
  | some commandType,.ok metadata => some ⟨commandType,c.payload,metadata⟩
  | _,_ => none

/-- The event that a row shows to its subscribers. -/
def eventOf (c : Content) : Option NewEventEnvelope :=
  match c.type,optionalMetadata EventMetadata.ofValue c.metadata with
  | some eventType,.ok metadata => some ⟨eventType,c.payload,metadata⟩
  | _,_ => none

end World

section Calls

variable {app : Application} {float : FloatReader} {answers : Answers app} {w : Surroundings float}
  {s s' s'' : Kernel float} {name : QueueName}

theorem tables_write (s : Kernel float) (name : QueueName) (t : Rows (name.queue float)) :
    (s.write name t).tables name = t := Function.update_self ..

theorem tables_write_of_ne (s : Kernel float) {name name' : QueueName} (h : name' ≠ name)
    (t : Rows (name.queue float)) : (s.write name t).tables name' = s.tables name' :=
  Function.update_of_ne h ..

/-- What a row holds is what its table says. -/
theorem content_congr {k : Uuid} (h : (s'.tables name).find? k = (s.tables name).find? k) :
    s'.content name k = s.content name k := by
  rw [Kernel.content,h,Kernel.content]

/-- A stored row holds something. -/
theorem content_of_row {k : Uuid} {r : Row (name.queue float).Own}
    (h : (s.tables name).find? k = some r) : s.content name k = some (contentOf name r) := by
  rw [Kernel.content,h]
  rfl

theorem row_of_content {k : Uuid} {c : Content} (h : s.content name k = some c) :
    ∃ r, (s.tables name).find? k = some r ∧ contentOf name r = c := Option.map_eq_some_iff.mp h

theorem row_of_no_content {k : Uuid} (h : s.content name k = none) :
    (s.tables name).find? k = none := Option.map_eq_none_iff.mp h

/-- A call on a queue, other than a recording, changes nothing that the rows hold. -/
theorem content_step {t : Rows (name.queue float)} (c : Call (name.queue float))
    (hc : ∀ entry appNow now, c ≠ .record entry appNow now) (k : Uuid) :
    ((step t c).find? k).map (contentOf name) = (t.find? k).map (contentOf name) := by
  cases hf : t.find? k with
  | none => rw [absent_step hf hc]
  | some r =>
    obtain ⟨r',hf',hmove⟩ := row_move c hf
    rw [hf',Option.map_some,Option.map_some,RowMove.content hmove]

/-- What a call writes to the row under a key: nothing but its state. -/
structure Settles (name : QueueName) (id : Uuid) (s s' : Kernel float) : Prop where
  /-- Time goes on. -/
  calls : s.calls ≤ s'.calls
  /-- The other tables stay. -/
  others : ∀ name' ≠ name, s'.tables name' = s.tables name'
  /-- So do the other rows. -/
  rows : ∀ k ≠ id, (s'.tables name).find? k = (s.tables name).find? k
  /-- The row keeps what it holds. -/
  content : ∀ name' k, s'.content name' k = s.content name' k

theorem Settles.trans {id : Uuid} (h : Settles name id s s') (h' : Settles name id s' s'') :
    Settles name id s s'' where
  calls := h.calls.trans h'.calls
  others := fun name' hne => (h'.others name' hne).trans (h.others name' hne)
  rows := fun k hk => (h'.rows k hk).trans (h.rows k hk)
  content := fun name' k => (h'.content name' k).trans (h.content name' k)

/-- The state that a finalization leaves. -/
theorem settles_finalize (s : Kernel float) (f : Finalization (name.queue float)) (id token : Uuid)
    (now : Timestamp) :
    Settles name id s (s.write name (finalize (s.tables name) f id token now).2) where
  calls := Nat.le_succ _
  others := fun name' hne => tables_write_of_ne s hne _
  rows := by
    intro k hk
    rw [tables_write]
    rcases finalize_cases (s.tables name) f id token now with
      ⟨r,_,_,_,_,g,hg,he,_⟩ | ⟨e,he⟩ <;> rw [he]
    exact Table.find?_updateAt_ne _ hk g hg
  content := by
    intro name' k
    by_cases hne : name' = name
    · subst hne
      rw [Kernel.content,tables_write]
      exact content_step (.finalize f id token now) (fun _ _ _ hc => by cases hc) k
    · exact content_congr (by rw [tables_write_of_ne s hne])

variable (answers w name) in
/-- A completion goes through exactly if the reservation is held. -/
theorem run_completed (id token : Uuid) (s : Kernel float) : ∃ reply s',
    ((ports name : Ports (name.queue float) (SystemOp app float) SystemOp.Reply).completed id
      token).run (respond answers w) s = (some reply,s') ∧ Settles name id s s' ∧
      (reply = .ok () ↔ Holds (s.tables name) id token) := by
  refine ⟨_,_,Prog.run_perform _ _ _,settles_finalize s .completed id token (w.now s.calls),?_⟩
  by_cases h : Holds (s.tables name) id token
  · obtain ⟨r,hf,hr⟩ := h
    rw [completed_of_held hf hr]
    exact iff_of_true rfl ⟨r,hf,hr⟩
  · rw [completed_of_not_held h]
    exact iff_of_false (fun he => by cases he) h

variable (answers w name) in
/-- A failure settles its row, whether or not it goes through. -/
theorem run_failed (id token : Uuid) (maxAttempts : ℤ) (reason : Option String)
    (s : Kernel float) : ∃ reply s',
    ((ports name : Ports (name.queue float) (SystemOp app float) SystemOp.Reply).failed id token
      maxAttempts reason).run (respond answers w) s = (some reply,s') ∧ Settles name id s s' :=
  ⟨_,_,Prog.run_perform _ _ _,
    settles_finalize s (.failed maxAttempts reason) id token (w.now s.calls)⟩

/-- The entries that a reservation of the drain hands out, and what it leaves. -/
structure Reserves (name : QueueName) (s : Kernel float)
    (entries : List (name.queue float).Envelope) (s' : Kernel float) : Prop where
  /-- Time goes on. -/
  calls : s.calls ≤ s'.calls
  /-- The other tables stay. -/
  others : ∀ name' ≠ name, s'.tables name' = s.tables name'
  /-- The rows keep what they hold. -/
  content : ∀ name' k, s'.content name' k = s.content name' k
  /-- No entry is handed out twice. -/
  nodup : (entries.map fun e => ((name.queue float).handed e).id).Nodup
  /-- Every entry is reserved for the batch. -/
  held : ∀ e ∈ entries, ∃ token, ((name.queue float).handed e).reservationId = some token ∧
    Holds (s'.tables name) ((name.queue float).handed e).id token
  /-- It shows what its row holds. -/
  reads : ∀ e ∈ entries, ∃ c, s.content name ((name.queue float).handed e).id = some c ∧
    Reads float name c e

/-- Of few due rows, every one that decodes is handed out. -/
theorem handed_of_due {t : Rows (name.queue float)} {draw : ReserveDraw (name.queue float)}
    (hunlocked : ∀ id, draw.locked id = false) (hfew : (due drainSpec draw.now t).length ≤ 64)
    {k : Uuid} {r : Row (name.queue float).Own} (hf : t.find? k = some r)
    (hdue : eligible drainSpec draw.now r = true) (hdec : decodes r = true) :
    ∃ e ∈ handed t drainSpec draw, ((name.queue float).handed e).id = k := by
  obtain ⟨l,hperm,hcand⟩ := candidates_due t drainSpec hunlocked
  have hlength : l.length ≤ drainSpec.limit := hperm.length_eq.trans_le hfew
  have hmem : r ∈ l := hperm.mem_iff.mpr (List.mem_filter.mpr ⟨Table.mem_of_find? hf,hdue⟩)
  have hr : r ∈ candidates t drainSpec draw := by
    rw [hcand]
    exact mem_firstBy_of_length_le hlength hmem
  have hok := (decode_reservedRow draw.token draw.now r).trans hdec
  cases hd : decode (reservedRow draw.token draw.now r) with
  | error error => rw [hd] at hok; cases hok
  | ok e =>
    have hkey : r.id = k := Table.key_of_find? hf
    refine ⟨e,handed_of_decodes hr hd,?_⟩
    exact (decode_handed (reservedRow_heldBy draw.token draw.now r) hd).1.trans hkey

variable (answers w name) in
/-- A reservation of the drain that meets few due rows hands out every one that decodes. -/
theorem run_reserve (s : Kernel float)
    (hfew : (due drainSpec (w.now s.calls) (s.tables name)).length ≤ 64) : ∃ entries s',
    ((ports name : Ports (name.queue float) (SystemOp app float) SystemOp.Reply).reserve
      drainSpec).run (respond answers w) s = (some (.ok entries),s') ∧
      Reserves name s entries s' ∧
      ∀ k r, (s.tables name).find? k = some r →
        eligible drainSpec (w.now s.calls) r = true → decodes r = true →
          ∃ e ∈ entries, ((name.queue float).handed e).id = k := by
  have hl : drainSpec.limit < 2^63 := by decide
  let draw := w.draw name s.calls
  have heq : reserve (s.tables name) drainSpec draw =
      (.ok (handed (s.tables name) drainSpec draw),reservedTable (s.tables name) drainSpec draw) :=
    reserve_eq (s.tables name) hl draw
  have hrun : respond answers w (.port name (.reserve drainSpec) : SystemOp app float) s =
      (some (reserve (s.tables name) drainSpec draw).1,
        s.write name (reserve (s.tables name) drainSpec draw).2) := rfl
  have hcontent : ∀ k, ((reservedTable (s.tables name) drainSpec draw).find? k).map
      (contentOf name) = s.content name k := by
    intro k
    have hstep := content_step (t:=s.tables name) (.reserve drainSpec draw)
      (fun _ _ _ hc => by cases hc) k
    rw [QueueCalls.step,heq] at hstep
    exact hstep
  rw [heq] at hrun
  refine ⟨_,_,(Prog.run_perform _ _ _).trans hrun,?_,?_⟩
  · refine ⟨Nat.le_succ _,fun name' hne => tables_write_of_ne s hne _,?_,?_,?_,?_⟩
    · intro name' k
      by_cases hne : name' = name
      · subst hne
        rw [Kernel.content,tables_write]
        exact hcontent k
      · exact content_congr (by rw [tables_write_of_ne s hne])
    · have hnodup := handedOut_nodup (s.tables name) (.reserve drainSpec draw)
      rw [handedOut,heq] at hnodup
      exact hnodup
    · intro e he
      obtain ⟨_,_,_,_,htoken⟩ := mem_handed he
      obtain ⟨r,hf,hr⟩ := handed_held he
      rw [tables_write]
      exact ⟨draw.token,htoken,r,hf,hr⟩
    · intro e he
      obtain ⟨r,hr,hd,hid,_⟩ := mem_handed he
      have hread := decode_reads (e:=e) hd
      rw [content_reservedRow] at hread
      exact ⟨_,by rw [hid]; exact content_of_row (Table.find?_key (mem_candidates hr).1),hread⟩
  · exact fun k r hf hdue hdec => handed_of_due (fun _ => rfl) hfew hf hdue hdec

variable {items : Items (name.queue float)}
  {work : (name.queue float).Envelope → Program app float (Except (name.queue float).Error Unit)}

/-- One turn of the loop over a batch: it adds no error exactly if the work on the entry returned
`Ok` and its reservation is still held. -/
theorem run_processEntry {e : (name.queue float).Envelope} {identity : Uuid × Uuid}
    (hid : items.identity e = .ok identity) (maxAttempts : ℤ)
    (errors : List (name.queue float).Error) {s₁ : Kernel float}
    {outcome : Option (Except (name.queue float).Error Unit)}
    (hw : (work e).run (respond answers w) s = (outcome,s₁)) :
    ∃ added s', (processEntry items (ports name) work maxAttempts e errors).run
        (respond answers w) s = (some (errors++added),s') ∧ Settles name identity.1 s₁ s' ∧
      (added = [] ↔ outcome = some (.ok ()) ∧ Holds (s₁.tables name) identity.1 identity.2) := by
  rw [processEntry,hid]
  dsimp only
  cases ho : outcome.getD (.error (items.panicError (panicked identity "processing"))) with
  | error error =>
    obtain ⟨reply,s₂,hf,hs⟩ := run_failed answers w name identity.1 identity.2 maxAttempts
      (some (failureReason identity "processing" ((name.queue float).display error))) s₁
    rw [run_runItem_error hw ho,run_failItem hf]
    refine ⟨_,s₂,rfl,hs,iff_of_false (by simp) ?_⟩
    rintro ⟨rfl,-⟩
    cases ho
  | ok u =>
    obtain rfl := eq_ok_of_getD ho
    obtain ⟨reply,s₂,hc,hs,hheld⟩ :=
      run_completed answers w name identity.1 identity.2 s₁
    cases reply with
    | error error =>
      obtain ⟨reply',s₃,hf,hs'⟩ := run_failed answers w name identity.1 identity.2 maxAttempts
        (some (failureReason identity "completion" ((name.queue float).display error))) s₂
      rw [run_runItem_completion hw hc rfl,run_failItem hf]
      refine ⟨_,s₃,rfl,hs.trans hs',iff_of_false (by simp) ?_⟩
      rintro ⟨-,hh⟩
      cases hheld.mpr hh
    | ok u =>
      rw [run_runItem_ok hw rfl hc]
      exact ⟨[],s₂,by rw [List.append_nil],hs,iff_of_true rfl ⟨rfl,hheld.mp rfl⟩⟩

end Calls

end Mulac.KernelWorld
