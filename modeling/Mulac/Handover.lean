import Mulac.HandoffRules
import Mulac.QueueRuns

/-!
# Nothing is acknowledged before it is handed over

The pipeline as a system of runs that start, call, crash and are swept, and its
invariant: an entry of any stage is completed only after the next stage has it.
-/

namespace Mulac.Handover

open Identifiers QueueDomain KeyedTable Envelopes QueueRow Repository FourQueues QueueRuns
  PanicProgram Interference Consumers PortCalls Pipeline Handoffs HandoffRules

variable {app : Application} {float : SerdeJson.FloatReader} {w w' : World app float}

section Invariant

variable (app float)

/-- The four consumers, their producers and their sweepers. -/
def pipeline : Team (SystemOp app float) SystemOp.Reply (World app float) where
  perform := fun i op w reply w' => Performs i w op reply w'
  outside := Outside
  programs := IsConsumer

variable {app float}

/-- What holds of every world of the pipeline. -/
structure Inv (w : World app float) : Prop where
  /-- Rows carry their ids. -/
  identified : Identified w
  /-- What is completed was handed over. -/
  delivered : ∀ name k r, (w.tables name).find? k = some r → r.status = Status.completed.code →
    Delivered w name k (contentOf name r)

/-- A step keeps the invariant if what it completes was handed over. -/
theorem Inv.evolve (h : Inv w) {doer : Option ℕ}
    {inserts : (name : QueueName) → (name.queue float).NewEntry → Prop}
    {completes : QueueName → Uuid → Prop} (hev : Evolves doer inserts completes w w')
    (hc : ∀ name k c, completes name k → w.content name k = some c → Delivered w name k c) :
    Inv w' where
  identified := Evolves.identified hev h.identified
  delivered := by
    intro name k r hf hst
    refine Delivered.mono hev.keeps hev.logs ?_
    have hr := hev.rows name k
    rw [hf] at hr
    generalize hb : (w.tables name).find? k = before at hr
    cases hr with
    | same => exact h.delivered name k r hb hst
    | inserted _ _ _ _ =>
      have hcode : Status.received.code = Status.completed.code := hst
      exact absurd hcode (by decide)
    | @rewritten r₀ _ he hdone =>
      rw [he]
      exact hc name k _ (hdone hst) (content_of_find? hb)

variable (app float)

/-- What the runs owe to each other is enough for the invariant. -/
def discipline : (pipeline app float).Discipline where
  rely := Rely
  inv := Inv
  owes := Owes
  new := fun i w => ∀ next k, ¬Recorded i w next k
  rely_refl := Rely.refl
  rely_trans := Rely.trans
  new_rely := Rely.not_recorded
  call_inv := by
    intro i op w reply w' hi ho hs
    refine hi.evolve hs.evolves ?_
    rintro name k c ⟨token,rfl⟩ hc
    exact ho c hc
  call_rely := fun _ ho hs hj => Performs.rely hs ho hj
  outside_inv := fun hi ho => hi.evolve ho.evolves fun _ _ _ => False.elim
  outside_rely := fun _ ho => Outside.rely ho _

theorem empty_content (name : QueueName) (k : Uuid) :
    (World.empty app float).content name k = none := rfl

theorem not_recorded_empty (i : ℕ) (next : QueueName) (k : Uuid) :
    ¬Recorded i (World.empty app float) next k := by
  rintro ⟨u,c,⟨_,hc⟩,_⟩
  rw [empty_content] at hc
  cases hc

/-- Empty tables have nothing to hand over. -/
theorem inv_empty : Inv (World.empty app float) where
  identified := by
    constructor <;> intro k c hc <;> rw [empty_content] at hc <;> cases hc
  delivered := by
    intro name k r hf
    have hc := content_of_find? hf
    rw [empty_content] at hc
    cases hc

variable {app float}

/-- Nothing is acknowledged before it is handed over: in every reachable state of
the pipeline, a completed message has its command, a completed command has the
events of an execution, a completed event was handled by all its subscribers in
one pass, and a completed outbox entry was published. -/
theorem completed_delivered {s : Pool (SystemOp app float) SystemOp.Reply (World app float)}
    (h : (pipeline app float).Reaches (World.empty app float) s) (name : QueueName) :
    ∀ r ∈ (s.world.tables name).rows, r.status = Status.completed.code →
      Delivered s.world name r.id (contentOf name r) := by
  have hsafe : ∀ i p (w : World app float), IsConsumer p → Inv w →
      (∀ next k, ¬Recorded i w next k) →
      Safe ((discipline app float).rules i) p (fun _ _ => True) w := by
    intro i p w hp _ hn
    have hfollows : Follows ((discipline app float).rules i) i fun _ => True :=
      ⟨id,id,fun hi => hi.identified,fun ho _ => ho⟩
    exact hfollows.isConsumer hp hn
  have hreach := (discipline app float).reaches_safe (inv_empty app float)
    (not_recorded_empty app float) hsafe h
  exact fun r hr hst => hreach.inv.delivered name r.id r (Table.find?_key hr) hst

end Invariant

section Samples

/-- An application with one command. -/
def renameApp : Application where
  Command := Unit
  Event := Unit
  Handler := Unit
  Subscriber := Unit
  handlers := [("Rename",())]
  fromStr := fun _ _ => .ok ()
  events := ⟨fun _ => "Renamed",fun _ => none,fun _ => .ok "{}"⟩
  subscribers := []

/-- A message that asks for the command. -/
def renameMessage : NewInboxMessageEnvelope := ⟨"{}",.fromU128 1,none,none,some "Rename"⟩

/-- The message as a reservation hands it out. -/
def renameEnvelope : InboxMessageEnvelope :=
  ⟨.fromU128 1,"{}",.reserved,0,1,some (.fromU128 7),some 0,none,.ofNew renameMessage⟩

/-- The command that the message becomes, under a drawn id. -/
def renameCommand (drawn : Uuid) : NewCommandEnvelope :=
  ⟨"Rename","{}",some ⟨drawn,none,some (.fromU128 1),none⟩⟩

/-- The message waits. -/
def storedMessage : Rows (QueueName.inbox.queue .integersOnly) :=
  (record Table.empty renameMessage 0 0).2

/-- The message is reserved. -/
def reservedMessage : Rows (QueueName.inbox.queue .integersOnly) :=
  (reserve storedMessage singleSpec (plainDraw (.fromU128 7) 0)).2

/-- The command waits. -/
def storedCommand : Rows (QueueName.commands.queue .integersOnly) :=
  (record Table.empty (renameCommand (.fromU128 10)) 0 0).2

/-- The message is completed. -/
def doneMessage : Rows (QueueName.inbox.queue .integersOnly) :=
  (completed reservedMessage (.fromU128 1) (.fromU128 7) 1).2

theorem reserve_result :
    (reserve storedMessage singleSpec (plainDraw (.fromU128 7) 0)).1 = .ok [renameEnvelope] := rfl

theorem record_result :
    (record Table.empty (renameCommand (.fromU128 10)) 0 0 :
      _ × Rows (QueueName.commands.queue .integersOnly)).1 = .ok () := rfl

theorem completed_result :
    (completed reservedMessage (.fromU128 1) (.fromU128 7) 1).1 = .ok () := rfl

/-- The message is stored. -/
def storedWorld : World renameApp .integersOnly :=
  (World.empty renameApp .integersOnly).commit none .inbox storedMessage

/-- A run has reserved the message and drawn an id. -/
def drawnWorld : World renameApp .integersOnly :=
  (storedWorld.commit (some 0) .inbox reservedMessage).draw 0 (.fromU128 10)

/-- The run has recorded the command. -/
def recordedWorld : World renameApp .integersOnly :=
  drawnWorld.commit (some 0) .commands storedCommand

/-- The run has completed the message. -/
def doneWorld : World renameApp .integersOnly := recordedWorld.commit (some 0) .inbox doneMessage

/-- One batch of the inbox consumer. -/
def inboxBatch : Program renameApp .integersOnly Unit :=
  ignoreResult (processInbox .integersOnly (ports .inbox) nowV7 commandGateway.dispatch singleSpec)

theorem reserve_performs : Performs 0 storedWorld (.port .inbox (.reserve singleSpec))
    (some (Except.ok [renameEnvelope])) (storedWorld.commit (some 0) .inbox reservedMessage) :=
  .reserve .inbox singleSpec (plainDraw (.fromU128 7) 0)
    (.of_result reserve_result storedMessage)

theorem draw_performs : Performs 0 (storedWorld.commit (some 0) .inbox reservedMessage) .nowV7
    (some (.fromU128 10)) drawnWorld := by
  refine .nowV7 _ rfl ?_
  rintro ⟨name,hs⟩
  revert hs
  cases name <;> decide +kernel

theorem record_performs : Performs 0 drawnWorld (.record .commands (renameCommand (.fromU128 10)))
    (some (Except.ok ())) recordedWorld :=
  .record .commands (renameCommand (.fromU128 10)) 0 0 (.of_result record_result Table.empty)

theorem completed_performs : Performs 0 recordedWorld
    (.port .inbox (.completed (.fromU128 1) (.fromU128 7))) (some (Except.ok ())) doneWorld :=
  .completed .inbox (.fromU128 1) (.fromU128 7) 1 (.of_result completed_result reservedMessage)

/-- One batch takes the message over, in any system that lets it. -/
theorem exec_inboxBatch
    {R : Rules (SystemOp renameApp .integersOnly) SystemOp.Reply (World renameApp .integersOnly)}
    (hr : ∀ w, R.rely w w) (hs : ∀ {op reply w w'}, Performs 0 w op reply w' →
      op.isRecord = false ∨ w = drawnWorld → R.step op w reply w') :
    Exec R inboxBatch storedWorld (some ()) doneWorld :=
  .call (hr _) (hs reserve_performs (.inl rfl)) (.call (hr _) (hs draw_performs (.inl rfl))
    (.call (hr _) (hs record_performs (.inr rfl)) (.call (hr _) (hs completed_performs (.inl rfl))
      (.ret (hr _)))))

/-- A producer stores the message. -/
theorem outside_stored : Outside (World.empty renameApp .integersOnly) storedWorld :=
  .record .inbox renameMessage 0 0 fun _ _ _ _ => .inl rfl

theorem completed_delivered_rename : ∃ s, (pipeline renameApp .integersOnly).Reaches
    (World.empty renameApp .integersOnly) s ∧
    ∃ r ∈ (s.world.tables .inbox).rows, r.status = Status.completed.code ∧
      Delivered s.world .inbox r.id (contentOf .inbox r) := by
  have hstart : (pipeline renameApp .integersOnly).Reaches (World.empty renameApp .integersOnly)
      ⟨storedWorld,Function.update (fun _ => none) 0 (some inboxBatch),1⟩ :=
    (Team.Reaches.start.step (.outside outside_stored)).step (.start (.inbox singleSpec))
  obtain ⟨s,hs,hw,_⟩ := hstart.alone rfl (exec_inboxBatch (fun _ => rfl) fun h _ => h)
  have hrow : ∃ r ∈ doneMessage.rows, r.status = Status.completed.code := by decide +kernel
  obtain ⟨r,hr,hst⟩ := hrow
  refine ⟨s,hs,r,by rw [hw]; exact hr,hst,?_⟩
  exact completed_delivered hs .inbox r (by rw [hw]; exact hr) hst

end Samples

end Mulac.Handover
