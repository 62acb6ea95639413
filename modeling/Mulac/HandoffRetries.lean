import Mulac.Handover

/-!
# Handoffs under retry

Every attempt at a handoff draws new ids, so the primary keys tell the attempts
apart and a repeated handoff is recorded again. What is left is shown here: as
long as no run records for an entry after another run has recorded for it, a
message has one command, and an event of a command has one row.
-/

namespace Mulac.HandoffRetries

open Identifiers QueueDomain KeyedTable Envelopes QueueRow Repository FourQueues QueueRuns
  PanicProgram Interference Consumers PortCalls Pipeline Handoffs HandoffRules Handover

variable {app : Application} {float : SerdeJson.FloatReader} {w w' : World app float} {i : ℕ}

section System

/-- Producers record no causes: rows that carry a causation id come from the consumers. -/
def Causeless (w w' : World app float) : Prop :=
  ∀ name u c, w.content name u = none → w'.content name u = some c → causeOf name c = none

variable (app float)

/-- The pipeline whose runs make only the calls that are allowed. -/
def handoffSystem (allowed : ℕ → SystemOp app float → World app float → Prop) :
    Team (SystemOp app float) SystemOp.Reply (World app float) where
  perform := fun i op w reply w' => Performs i w op reply w' ∧ allowed i op w
  outside := fun w w' => Outside w w' ∧ Causeless w w'
  programs := IsConsumer

variable {app float}

/-- The run makes the first attempt: every row with the causation id that it
records is one of its own. -/
def FirstAttempt (i : ℕ) (op : SystemOp app float) (w : World app float) : Prop :=
  match op with
  | .record name entry => ∀ k u c, entryCause name entry = some k → w.content name u = some c →
    causeOf name c = some k → w.author name u = some i
  | _ => True

/-- All executions of a command by its handler that returned events returned the same. -/
def Deterministic (w : World app float) (handler : app.Handler) (command : app.Command) : Prop :=
  ∀ i j produced produced', .executed handler command (some (.ok produced)) ∈ w.log i →
    .executed handler command (some (.ok produced')) ∈ w.log j → produced = produced'

/-- The rows of an event that a command caused. -/
def copies (w : World app float) (k : Uuid) (type payload : String) : ℕ :=
  (w.tables .events).rows.countP fun r => decide (causeOf .events (contentOf .events r) = some k ∧
    (contentOf .events r).type = some type ∧ r.payload = payload)

/-- The events of a list with a type and a payload. -/
def occurrences (app : Application) (produced : List app.Event) (type payload : String) : ℕ :=
  produced.countP fun event => decide (app.events.eventType event = type ∧
    (app.events.toJson event).toOption = some payload)

/-- A handoff that is repeated leaves no second command and no second copy of an event. -/
structure HandedOverOnce (w : World app float) : Prop where
  /-- A message has one command at most. -/
  commands : ∀ k message u u' c c', w.content .inbox k = some message →
    w.content .commands u = some c → causeOf .commands c = some k →
    w.content .commands u' = some c' → causeOf .commands c' = some k → u = u'
  /-- A command with a deterministic handler has no more rows of an event than
  an execution of it has such events. -/
  events : ∀ k c handler command i produced, w.content .commands k = some c →
    Runs app c handler command → Deterministic w handler command →
    .executed handler command (some (.ok produced)) ∈ w.log i →
    ∀ type payload, copies w k type payload ≤ occurrences app produced type payload

end System

section Invariant

/-- The rows of the events that a command caused come from one execution. -/
def OneExecution (w : World app float) (k : Uuid) : Prop :=
  ∃ i c envelopes, Produced w i k c envelopes ∧ ∀ u c', w.content .events u = some c' →
    causeOf .events c' = some k → ∃ envelope ∈ envelopes, Stems envelope u c'

/-- What holds of every world without a second attempt. -/
structure Inv (w : World app float) : Prop where
  /-- Rows carry their ids. -/
  identified : Identified w
  /-- A cause has one command. -/
  commands : ∀ k u u' c c', w.content .commands u = some c → causeOf .commands c = some k →
    w.content .commands u' = some c' → causeOf .commands c' = some k → u = u'
  /-- The events of a command come from one execution. -/
  events : ∀ k u c, w.content .events u = some c → causeOf .events c = some k → OneExecution w k

/-- An execution stays the only one while nothing else is recorded for its command. -/
theorem OneExecution.mono {k : Uuid} (h : OneExecution w k) (hk : Keeps w w')
    (hl : ∀ j, w.log j <+: w'.log j) (hold : ∀ u c, w'.content .events u = some c →
      causeOf .events c = some k → w.content .events u = some c) : OneExecution w' k := by
  obtain ⟨i,c₀,envelopes,hp,hall⟩ := h
  exact ⟨i,c₀,envelopes,hp.mono hk (hl i),
    fun u c hc hcause => hall u c (hold u c hc hcause) hcause⟩

/-- A step that leaves all rows with a cause as they were. -/
theorem Inv.of_old (h : Inv w) (hi : Identified w') (hk : Keeps w w')
    (hl : ∀ j, w.log j <+: w'.log j) (hold : ∀ name u c k, w'.content name u = some c →
      causeOf name c = some k → w.content name u = some c) : Inv w' where
  identified := hi
  commands := fun k u u' c c' hc hcause hc' hcause' =>
    h.commands k u u' c c' (hold _ _ _ _ hc hcause) hcause (hold _ _ _ _ hc' hcause') hcause'
  events := fun k u c hc hcause =>
    (h.events k u c (hold _ _ _ _ hc hcause) hcause).mono hk hl fun u' c' => hold _ u' c' k

/-- A producer's row has no cause. -/
theorem Inv.outside (h : Inv w) (ho : Outside w w') (hn : Causeless w w') : Inv w' := by
  have hev := ho.evolves
  refine h.of_old (Evolves.identified hev h.identified) hev.keeps hev.logs ?_
  intro name u c k hc hcause
  cases hw : w.content name u with
  | none =>
    rw [hn name u c hw hc] at hcause
    cases hcause
  | some c₀ =>
    rw [hev.keeps name u c₀ hw] at hc
    exact hc

/-- A row with a cause is old, or new with the cause of its entry. -/
theorem Performs.caused {op : SystemOp app float} {reply : Option op.Reply}
    (hs : Performs i w op reply w') {name : QueueName} {u k : Uuid} {c : Content}
    (hc : w'.content name u = some c) (hcause : causeOf name c = some k) :
    w.content name u = some c ∨
      ∃ entry appNow now n metadata, op = .record name entry ∧ entryCause name entry = some k ∧
        (name.queue float).newRow entry appNow now = .ok n ∧ metadata.value = n.metadata ∧
        n.id = u ∧ c = contentOf name (storedRow n metadata) := by
  rcases Evolves.content_cases hs.evolves hc with
    hold | ⟨_,_,entry,appNow,now,n,metadata,hop,hn,hm,hid,rfl⟩
  · exact .inl hold
  · rw [causeOf_stored hn hm] at hcause
    exact .inr ⟨entry,appNow,now,n,metadata,hop,hcause,hn,hm,hid,rfl⟩

/-- A row with a cause is old, if the call records in another queue. -/
theorem Performs.caused_elsewhere {name other : QueueName} {entry : (other.queue float).NewEntry}
    {reply : Option (SystemOp.record other entry : SystemOp app float).Reply}
    (hs : Performs i w (.record other entry) reply w') (hne : name ≠ other) {u k : Uuid}
    {c : Content} (hc : w'.content name u = some c) (hcause : causeOf name c = some k) :
    w.content name u = some c := by
  rcases Performs.caused hs hc hcause with hold | ⟨_,_,_,_,_,hop,_⟩
  · exact hold
  · injection hop with hname _
    exact absurd hname.symm hne

/-- The first attempt at a message records its only command. -/
theorem Inv.recordCommand (h : Inv w) {entry : NewCommandEnvelope}
    {reply : Option (Except CommandError Unit)}
    (hs : Performs i w (.record .commands entry) reply w') (ho : OwesRecord i w .commands entry)
    (hf : FirstAttempt i (.record .commands entry) w) : Inv w' := by
  have hev := hs.evolves
  obtain ⟨m,he,_,hfirst⟩ := ho
  have hnone : ∀ k u c, m.causationId = some k → w.content .commands u = some c →
      causeOf .commands c ≠ some k := by
    intro k u c hk hc hcause
    have hentry := (congrArg (Option.bind · CommandMetadata.causationId) he).trans hk
    exact hfirst k hk ⟨u,c,⟨hf k u c hentry hc hcause,hc⟩,hcause⟩
  -- a caused command is old, or the one recorded
  have hcases : ∀ k u c, w'.content .commands u = some c → causeOf .commands c = some k →
      w.content .commands u = some c ∨ m.causationId = some k ∧ u = m.commandId := by
    intro k u c hc hcause
    rcases Performs.caused hs hc hcause with hold | ⟨_,_,_,n,_,hop,hk,hn,hm,rfl,_⟩
    · exact .inl hold
    · cases hop
      obtain ⟨m',he',hid,_⟩ := command_row float hn hm
      rw [he] at he'
      cases he'
      exact .inr ⟨(congrArg (Option.bind · CommandMetadata.causationId) he).symm.trans hk,hid⟩
  refine ⟨Evolves.identified hev h.identified,?_,?_⟩
  · intro k u u' c c' hc hcause hc' hcause'
    rcases hcases k u c hc hcause with hold | ⟨hk,hu⟩
    · rcases hcases k u' c' hc' hcause' with hold' | ⟨hk,_⟩
      · exact h.commands k u u' c c' hold hcause hold' hcause'
      · exact absurd hcause (hnone k u c hk hold)
    · rcases hcases k u' c' hc' hcause' with hold' | ⟨_,hu'⟩
      · exact absurd hcause' (hnone k u' c' hk hold')
      · rw [hu,hu']
  · intro k u c hc hcause
    have hold := Performs.caused_elsewhere hs (by decide) hc hcause
    exact (h.events k u c hold hcause).mono hev.keeps hev.logs
      fun u c => Performs.caused_elsewhere hs (by decide)

/-- The first attempt at a command records the events of one execution. -/
theorem Inv.recordEvent (h : Inv w) {entry : NewEventEnvelope}
    {reply : Option (Except EventError Unit)}
    (hs : Performs i w (.record .events entry) reply w') (ho : OwesRecord i w .events entry)
    (hf : FirstAttempt i (.record .events entry) w) : Inv w' := by
  have hev := hs.evolves
  obtain ⟨m,k,c₀,envelopes,he,_,hk,hp,hmem,hstems⟩ := ho
  have hentry : @entryCause float .events entry = some k :=
    (congrArg (Option.bind · EventMetadata.causationId) he).trans hk
  refine ⟨Evolves.identified hev h.identified,?_,?_⟩
  · intro k u u' c c' hc hcause hc' hcause'
    exact h.commands k u u' c c' (Performs.caused_elsewhere hs (by decide) hc hcause) hcause
      (Performs.caused_elsewhere hs (by decide) hc' hcause') hcause'
  · intro k' u c hc hcause
    by_cases hkk : k' = k
    · -- all rows of the command are this run's, and stem from its execution
      subst hkk
      refine ⟨i,c₀,envelopes,hp.mono hev.keeps (hev.logs i),fun u c hc hcause => ?_⟩
      rcases Performs.caused hs hc hcause with hold | ⟨_,_,_,n,_,hop,_,hn,hm,rfl,rfl⟩
      · exact hstems u c ⟨hf k' u c hentry hold hcause,hold⟩ hcause
      · cases hop
        exact ⟨entry,hmem,stems_of_stored float hn hm⟩
    · have hold : ∀ u c, w'.content .events u = some c → causeOf .events c = some k' →
          w.content .events u = some c := by
        intro u c hc hcause
        rcases Performs.caused hs hc hcause with hold | ⟨_,_,_,_,_,hop,hk',_⟩
        · exact hold
        · cases hop
          exact absurd (Option.some.inj (hk'.symm.trans hentry)) hkk
      exact (h.events k' u c (hold u c hc hcause) hcause).mono hev.keeps hev.logs hold

/-- Every call of a first attempt keeps the invariant. -/
theorem Inv.call (h : Inv w) {op : SystemOp app float} {reply : Option op.Reply}
    (hs : Performs i w op reply w') (ho : Owes i op w) (hf : FirstAttempt i op w) : Inv w' := by
  have hev := hs.evolves
  have hother : op.isRecord = false → Inv w' := by
    intro hop
    refine h.of_old (Evolves.identified hev h.identified) hev.keeps hev.logs ?_
    intro name u c k hc hcause
    rcases Performs.caused hs hc hcause with hold | ⟨_,_,_,_,_,rfl,_⟩
    · exact hold
    · cases hop
  cases op with
  | record name entry =>
    cases name with
    | commands => exact h.recordCommand hs ho hf
    | events => exact h.recordEvent hs ho hf
    | inbox => exact False.elim ho
    | outbox => exact False.elim ho
  | port name op => exact hother rfl
  | nowV7 => exact hother rfl
  | execute handler command => exact hother rfl
  | handle subscriber envelope => exact hother rfl
  | publish message => exact hother rfl

end Invariant

section Counting

/-- As many events as envelopes have a type and a payload. -/
theorem occurrences_eq {produced : List app.Event} {envelopes : List NewEventEnvelope}
    (h : List.Forall₂ (Wraps app) produced envelopes) (type payload : String) :
    occurrences app produced type payload = envelopes.countP fun envelope =>
      decide (envelope.eventType = type ∧ envelope.payload = payload) := by
  induction h with
  | nil => rfl
  | @cons event envelope produced envelopes hwraps _ ih =>
    have hsame : decide (app.events.eventType event = type ∧
        (app.events.toJson event).toOption = some payload) =
          decide (envelope.eventType = type ∧ envelope.payload = payload) := by
      rw [hwraps.1,hwraps.2]
      simp [Except.toOption]
    rw [occurrences] at ih ⊢
    rw [List.countP_cons,List.countP_cons,ih,hsame]

/-- Rows that stem from envelopes are no more than these. -/
theorem copies_le {k : Uuid} {envelopes : List NewEventEnvelope}
    (h : ∀ u c, w.content .events u = some c → causeOf .events c = some k →
      ∃ envelope ∈ envelopes, Stems envelope u c) (type payload : String) :
    copies w k type payload ≤ envelopes.countP fun envelope =>
      decide (envelope.eventType = type ∧ envelope.payload = payload) := by
  rw [copies,List.countP_eq_length_filter,List.countP_eq_length_filter]
  generalize hrows : (w.tables .events).rows.filter _ = rows
  generalize henv : envelopes.filter _ = matching
  have hnodup : (rows.map Row.id).Nodup := by
    rw [← hrows]
    exact (List.filter_sublist.map _).nodup (w.tables .events).keys_nodup
  have hsub : rows.map Row.id ⊆ idsOf matching := by
    intro u hu
    obtain ⟨r,hr,rfl⟩ := List.mem_map.mp hu
    rw [← hrows,List.mem_filter,decide_eq_true_eq] at hr
    obtain ⟨hmem,hcause,htype,hpayload⟩ := hr
    obtain ⟨envelope,he,⟨m,hm,hid⟩,htype',hpayload'⟩ :=
      h r.id _ (content_of_find? (Table.find?_key hmem)) hcause
    rw [← henv,idsOf,List.mem_filterMap]
    refine ⟨envelope,?_,by rw [hm,← hid]; rfl⟩
    rw [htype] at htype'
    rw [contentOf_payload] at hpayload'
    rw [List.mem_filter,decide_eq_true_eq]
    exact ⟨he,(Option.some.inj htype').symm,hpayload'.symm.trans hpayload⟩
  calc rows.length = (rows.map Row.id).length := (List.length_map ..).symm
    _ ≤ (idsOf matching).length := (List.subperm_of_subset hnodup hsub).length_le
    _ ≤ matching.length := List.length_filterMap_le ..

/-- The invariant is what is promised of the handoffs. -/
theorem Inv.handedOverOnce (h : Inv w) : HandedOverOnce w where
  commands := fun k _ u u' c c' _ hc hcause hc' hcause' =>
    h.commands k u u' c c' hc hcause hc' hcause'
  events := by
    intro k c handler command i produced hc hruns hdet hlog type payload
    by_cases hrow : ∃ u c', w.content .events u = some c' ∧ causeOf .events c' = some k
    · obtain ⟨u,c',hc',hcause⟩ := hrow
      obtain ⟨j,c₀,envelopes,⟨handler',command',produced',hc₀,hruns',hlog',hwraps⟩,hall⟩ :=
        h.events k u c' hc' hcause
      rw [hc] at hc₀
      cases hc₀
      -- the registry and the wrapper are functions of the row
      obtain ⟨type₀,htype,hget,hread⟩ := hruns
      obtain ⟨type₁,htype',hget',hread'⟩ := hruns'
      rw [htype] at htype'
      cases htype'
      rw [hget] at hget'
      cases hget'
      rw [hread] at hread'
      cases hread'
      rw [hdet i j produced produced' hlog hlog',occurrences_eq hwraps]
      exact copies_le hall type payload
    · have hzero : copies w k type payload = 0 := by
        rw [copies,List.countP_eq_zero]
        intro r hr hd
        rw [decide_eq_true_eq] at hd
        exact hrow ⟨r.id,_,content_of_find? (Table.find?_key hr),hd.1⟩
      rw [hzero]
      exact Nat.zero_le _

end Counting

section Runs

variable (app float)

/-- What the runs owe to each other is enough for the invariant, if no run makes a
second attempt. -/
def discipline : (handoffSystem app float FirstAttempt).Discipline where
  rely := Rely
  inv := Inv
  owes := Owes
  new := fun i w => ∀ next k, ¬Recorded i w next k
  rely_refl := Rely.refl
  rely_trans := Rely.trans
  new_rely := Rely.not_recorded
  call_inv := fun hi ho hs => hi.call hs.1 ho hs.2
  call_rely := fun _ ho hs hj => Performs.rely hs.1 ho hj
  outside_inv := fun hi ho => hi.outside ho.1 ho.2
  outside_rely := fun _ ho => Outside.rely ho.1 _

variable {app float}

/-- Handoffs without a second attempt: in every run of the pipeline in which no run
of a consumer records for an entry after another run has recorded for it, a
message has one command at most, and a command has no more rows of an event than
one execution of it has such events. -/
theorem handed_over_once {s : Pool (SystemOp app float) SystemOp.Reply (World app float)}
    (h : (handoffSystem app float FirstAttempt).Reaches (World.empty app float) s) :
    HandedOverOnce s.world := by
  have hsafe : ∀ i p (w : World app float), IsConsumer p → Inv w →
      (∀ next k, ¬Recorded i w next k) →
      Safe ((discipline app float).rules i) p (fun _ _ => True) w := by
    intro i p w hp _ hn
    have hfollows : Follows ((discipline app float).rules i) i fun _ => True :=
      ⟨fun hs => hs.1,id,fun hi => hi.identified,fun ho _ => ho⟩
    exact hfollows.isConsumer hp hn
  have hempty : Inv (World.empty app float) := by
    refine ⟨(inv_empty app float).identified,?_,?_⟩
    · intro k u u' c c' hc
      rw [empty_content] at hc
      cases hc
    · intro k u c hc
      rw [empty_content] at hc
      cases hc
  have hreach := (discipline app float).reaches_safe hempty (not_recorded_empty app float) hsafe h
  exact hreach.inv.handedOverOnce

end Runs

section Samples

/-- What a producer stores in the inbox, and what a sweep does there, has no cause. -/
theorem causeless_inbox (w : World app float) (t : Rows (QueueName.inbox.queue float)) :
    Causeless w (w.commit none .inbox t) := by
  intro name u c hold hnew
  cases name with
  | commands =>
    have hsame : (w.commit none .inbox t).content .commands u = w.content .commands u := rfl
    rw [hsame,hold] at hnew
    cases hnew
  | events =>
    have hsame : (w.commit none .inbox t).content .events u = w.content .events u := rfl
    rw [hsame,hold] at hnew
    cases hnew
  | inbox => rfl
  | outbox => rfl

/-- The system starts a batch of the inbox consumer over the stored message. -/
theorem reaches_started (allowed : ℕ → SystemOp renameApp .integersOnly →
    World renameApp .integersOnly → Prop) :
    (handoffSystem renameApp .integersOnly allowed).Reaches (World.empty renameApp .integersOnly)
      ⟨storedWorld,Function.update (fun _ => none) 0 (some inboxBatch),1⟩ := by
  have hstart : (handoffSystem renameApp .integersOnly allowed).Reaches
      (World.empty renameApp .integersOnly)
      ⟨World.empty renameApp .integersOnly,fun _ => none,0⟩ := .start
  exact (hstart.step (.outside ⟨outside_stored,causeless_inbox _ _⟩)).step
    (.start (.inbox singleSpec))

theorem handed_over_once_rename : ∃ s, (handoffSystem renameApp .integersOnly FirstAttempt).Reaches
    (World.empty renameApp .integersOnly) s ∧
    (s.world.content .commands (.fromU128 10)).isSome = true ∧ HandedOverOnce s.world := by
  have hfirst : ∀ {op reply} {w w' : World renameApp .integersOnly}, Performs 0 w op reply w' →
      op.isRecord = false ∨ w = drawnWorld → FirstAttempt 0 op w := by
    intro op reply w w' _ hop
    rcases hop with hop | rfl
    · cases op with
      | record name entry => cases hop
      | _ => trivial
    · cases op with
      | record name entry =>
        intro k u c _ hc hcause
        cases name with
        | inbox => cases hcause
        | outbox => cases hcause
        | commands => cases hc
        | events => cases hc
      | _ => trivial
  obtain ⟨s,hs,hw,_⟩ := (reaches_started FirstAttempt).alone rfl
    (exec_inboxBatch (fun _ => rfl) fun h hop => ⟨h,hfirst h hop⟩)
  refine ⟨s,hs,?_,handed_over_once hs⟩
  rw [hw]
  decide +kernel

/-- The stale reservation is swept. -/
def sweptMessage : Rows (QueueName.inbox.queue .integersOnly) :=
  (sweep reservedMessage ⟨60000000000,6⟩ 100000000).2

/-- The message is reserved again. -/
def retriedMessage : Rows (QueueName.inbox.queue .integersOnly) :=
  (reserve sweptMessage singleSpec (plainDraw (.fromU128 8) 300000000)).2

/-- The message as the second reservation hands it out. -/
def retryEnvelope : InboxMessageEnvelope :=
  ⟨.fromU128 1,"{}",.reserved,130000000,2,some (.fromU128 8),some 300000000,
    some ⟨["inbox reservation timed out"]⟩,.ofNew renameMessage⟩

/-- A second command waits. -/
def storedTwice : Rows (QueueName.commands.queue .integersOnly) :=
  (record storedCommand (renameCommand (.fromU128 11)) 0 0).2

theorem retry_result : (reserve sweptMessage singleSpec (plainDraw (.fromU128 8) 300000000)).1 =
    .ok [retryEnvelope] := rfl

theorem record_again_result :
    (record storedCommand (renameCommand (.fromU128 11)) 0 0).1 = .ok () := rfl

/-- The first run is gone, and the message swept. -/
def sweptWorld : World renameApp .integersOnly := recordedWorld.commit none .inbox sweptMessage

/-- Another run has reserved the message and drawn an id. -/
def redrawnWorld : World renameApp .integersOnly :=
  (sweptWorld.commit (some 1) .inbox retriedMessage).draw 1 (.fromU128 11)

/-- It has recorded a command. -/
def twiceWorld : World renameApp .integersOnly :=
  redrawnWorld.commit (some 1) .commands storedTwice

/-- A completion that gets no connection. -/
theorem completed_refused (i : ℕ) (w : World renameApp .integersOnly) (id token : Uuid) :
    Performs i w (.port .inbox (.completed id token))
      (some (Except.error (InboxError.storage "connection lost"))) w := by
  have hs : Performs i w (.port .inbox (.completed id token))
      (some (Except.error (InboxError.storage "connection lost")))
      (w.commit (some i) .inbox (w.tables .inbox)) := .completed .inbox id token 0 (.refused nofun)
  rw [World.commit_self] at hs
  exact hs

/-- A failure that gets no connection. -/
theorem failed_refused (i : ℕ) (w : World renameApp .integersOnly) (id token : Uuid)
    (maxAttempts : ℤ) (reason : Option String) :
    Performs i w (.port .inbox (.failed id token maxAttempts reason))
      (some (Except.error (InboxError.storage "connection lost"))) w := by
  have hs : Performs i w (.port .inbox (.failed id token maxAttempts reason))
      (some (Except.error (InboxError.storage "connection lost")))
      (w.commit (some i) .inbox (w.tables .inbox)) :=
    .failed .inbox id token maxAttempts reason 0 (.refused nofun)
  rw [World.commit_self] at hs
  exact hs

theorem retry_performs : Performs 1 sweptWorld (.port .inbox (.reserve singleSpec))
    (some (Except.ok [retryEnvelope])) (sweptWorld.commit (some 1) .inbox retriedMessage) :=
  .reserve .inbox singleSpec (plainDraw (.fromU128 8) 300000000)
    (.of_result retry_result sweptMessage)

theorem redraw_performs : Performs 1 (sweptWorld.commit (some 1) .inbox retriedMessage) .nowV7
    (some (.fromU128 11)) redrawnWorld := by
  refine .nowV7 _ rfl ?_
  rintro ⟨name,hs⟩
  revert hs
  cases name <;> decide +kernel

theorem record_again_performs : Performs 1 redrawnWorld
    (.record .commands (renameCommand (.fromU128 11))) (some (Except.ok ())) twiceWorld :=
  .record .commands (renameCommand (.fromU128 11)) 0 0
    (.of_result record_again_result storedCommand)

/-- A lost connection after the record, a sweep and a second attempt leave two
commands of one message. -/
theorem handed_over_twice : ¬∀ s, (handoffSystem renameApp .integersOnly fun _ _ _ => True).Reaches
    (World.empty renameApp .integersOnly) s → HandedOverOnce s.world := by
  intro hall
  have hfirst : Exec ((handoffSystem renameApp .integersOnly fun _ _ _ => True).alone 0) inboxBatch
      storedWorld (some ()) recordedWorld :=
    .call rfl ⟨reserve_performs,trivial⟩ (.call rfl ⟨draw_performs,trivial⟩
      (.call rfl ⟨record_performs,trivial⟩ (.call rfl ⟨completed_refused 0 _ _ _,trivial⟩
        (.call rfl ⟨failed_refused 0 _ _ _ _ _,trivial⟩ (.ret rfl)))))
  obtain ⟨⟨_,workers,_⟩,hs,rfl,rfl⟩ := (reaches_started _).alone rfl hfirst
  have hsweep : Outside recordedWorld sweptWorld := .sweep .inbox ⟨60000000000,6⟩ 100000000
  have hswept : (handoffSystem renameApp .integersOnly fun _ _ _ => True).Reaches
      (World.empty renameApp .integersOnly)
      ⟨sweptWorld,Function.update workers 1 (some inboxBatch),2⟩ :=
    (hs.step (.outside ⟨hsweep,causeless_inbox _ _⟩)).step (.start (.inbox singleSpec))
  have hsecond : Exec ((handoffSystem renameApp .integersOnly fun _ _ _ => True).alone 1) inboxBatch
      sweptWorld (some ()) twiceWorld :=
    .call rfl ⟨retry_performs,trivial⟩ (.call rfl ⟨redraw_performs,trivial⟩
      (.call rfl ⟨record_again_performs,trivial⟩ (.call rfl ⟨completed_refused 1 _ _ _,trivial⟩
        (.call rfl ⟨failed_refused 1 _ _ _ _ _,trivial⟩ (.ret rfl)))))
  obtain ⟨⟨_,_,_⟩,hreach,rfl,_⟩ := hswept.alone (Function.update_self ..) hsecond
  have hcaused : ∀ u ∈ [Uuid.fromU128 10,.fromU128 11], ∃ c,
      twiceWorld.content .commands u = some c ∧ causeOf .commands c = some (.fromU128 1) := by
    intro u hu
    have hsome : (twiceWorld.content .commands u).bind (causeOf .commands) =
        some (.fromU128 1) := by
      revert u
      decide +kernel
    exact Option.bind_eq_some_iff.mp hsome
  obtain ⟨c,hc,hcause⟩ := hcaused (.fromU128 10) (by decide)
  obtain ⟨c',hc',hcause'⟩ := hcaused (.fromU128 11) (by decide)
  obtain ⟨message,hmessage⟩ : ∃ message, twiceWorld.content .inbox (.fromU128 1) = some message :=
    Option.isSome_iff_exists.mp (by decide +kernel)
  have heq := (hall _ hreach).commands _ _ _ _ _ _ hmessage hc hcause hc' hcause'
  revert heq
  decide

end Samples

end Mulac.HandoffRetries
