import Mulac.Handoffs

/-!
# Every run pays its debts

The four consumers under the rules of their handoffs: whatever the stores, the
application and the other runs do, a run records only what it may record, and
completes an entry only after handing it over. One rule for each program, from
the single calls up to the consumers.
-/

namespace Mulac.HandoffRules

open Identifiers Postgres QueueDomain KeyedTable Envelopes QueueRow Repository RepositoryContracts
  FourQueues QueueCalls PanicProgram Interference Consumers PortCalls ItemRules Dispatch Pipeline
  Handoffs

variable {app : Application} {float : SerdeJson.FloatReader} {w w' : World app float} {i : ℕ}

section Calls

/-- A record may lose its reply or its effect. -/
theorem Performs.record_inv {name : QueueName} {entry : (name.queue float).NewEntry}
    {reply : Option (Except (name.queue float).Error Unit)}
    (h : Performs i w (.record name entry) reply w') :
    ∃ appNow now t, Lossy (w.tables name) (Repository.record (w.tables name) entry appNow now)
      reply t ∧ w' = w.commit (some i) name t := by
  cases h with
  | record _ _ appNow now hl => exact ⟨appNow,now,_,hl,rfl⟩

/-- So may a reservation. -/
theorem Performs.reserve_inv {name : QueueName} {spec : ReservableSpec}
    {reply : Option (Except (name.queue float).Error (List (name.queue float).Envelope))}
    (h : Performs i w (.port name (.reserve spec)) reply w') :
    ∃ draw t, Lossy (w.tables name) (Repository.reserve (w.tables name) spec draw) reply t ∧
      w' = w.commit (some i) name t := by
  cases h with
  | reserve _ _ draw hl => exact ⟨draw,_,hl,rfl⟩

/-- A drawn id was free before. -/
theorem Performs.nowV7_inv {reply : Option Uuid} (h : Performs i w .nowV7 reply w') :
    ∃ u, reply = some u ∧ w.drawn u = none ∧ ¬w.Known u ∧ w' = w.draw i u := by
  cases h with
  | nowV7 u hd hk => exact ⟨u,rfl,hd,hk,rfl⟩

/-- An answer of a handler is observed. -/
theorem Performs.execute_inv {handler : app.Handler} {command : app.Command}
    {reply : Option (Except CommandError (List app.Event))}
    (h : Performs i w (.execute handler command) reply w') :
    w' = w.observe i (.executed handler command reply) := by
  cases h with
  | execute _ _ _ => rfl

/-- An answer of a subscriber is observed. -/
theorem Performs.handle_inv {subscriber : app.Subscriber} {envelope : NewEventEnvelope}
    {reply : Option (Except EventError Unit)}
    (h : Performs i w (.handle subscriber envelope) reply w') :
    w' = w.observe i (.handled subscriber envelope reply) := by
  cases h with
  | handle _ _ _ => rfl

/-- An answer of the publisher is observed. -/
theorem Performs.publish_inv {message : OutboundMessageEnvelope}
    {reply : Option (Except OutboxError Unit)} (h : Performs i w (.publish message) reply w') :
    w' = w.observe i (.published message reply) := by
  cases h with
  | publish _ _ => rfl

/-- The run's log after an answer. -/
theorem observe_log (w : World app float) (i : ℕ) (o : Observation app) :
    (w.observe i o).log i = w.log i++[o] := Function.update_self ..

theorem commit_content (w : World app float) (doer : Option ℕ) (name : QueueName)
    (t : Rows (name.queue float)) (k : Uuid) :
    (w.commit doer name t).content name k = (t.find? k).map (contentOf name) := by
  have htab : (w.commit doer name t).tables name = t := Function.update_self ..
  rw [World.content,htab]

theorem find?_of_not_known {u : Uuid} (h : ¬w.Known u) (name : QueueName) :
    (w.tables name).find? u = none :=
  Option.not_isSome_iff_eq_none.mp fun hs => h ⟨name,hs⟩

/-- A record that returned `Ok` under a new id has its row. -/
theorem Performs.recorded {name : QueueName} {entry : (name.queue float).NewEntry}
    (h : Performs i w (.record name entry) (some (Except.ok ())) w') :
    ∃ appNow now n metadata, (name.queue float).newRow entry appNow now = .ok n ∧
      metadata.value = n.metadata ∧ (¬w.Known n.id →
        w'.content name n.id = some (contentOf name (storedRow n metadata))) := by
  obtain ⟨appNow,now,t,hl,rfl⟩ := Performs.record_inv h
  obtain ⟨hok,rfl⟩ := hl.of_ok
  rcases record_cases (w.tables name) entry appNow now with ⟨n,metadata,hn,hm,he⟩ | ⟨e,he⟩
  · refine ⟨appNow,now,n,metadata,hn,hm,fun hk => ?_⟩
    rw [commit_content,he,Table.find?_insertNew,find?_of_not_known hk name]
    simp only [storedRow,if_true,Option.map_some]
  · rw [he] at hok
    cases hok

/-- What an envelope shows of the row it was read from. -/
def Reads (float : SerdeJson.FloatReader) :
    (name : QueueName) → Content → (name.queue float).Envelope → Prop
  | .commands => fun c (e : CommandEnvelope) => c.type = some e.commandType ∧
    c.payload = e.payload ∧ optionalMetadata CommandMetadata.ofValue c.metadata = .ok e.metadata
  | .events => fun c (e : EventEnvelope) => c.type = some e.eventType ∧
    c.payload = e.payload ∧ optionalMetadata EventMetadata.ofValue c.metadata = .ok e.metadata
  | .inbox => fun c (e : InboxMessageEnvelope) => c.payload = e.payload ∧
    requiredMetadata InboxMessageMetadata.ofValue c.metadata = .ok e.metadata
  | .outbox => fun c (e : OutboxEntryEnvelope) => c.payload = e.payload ∧
    requiredMetadata OutboxEntryMetadata.ofValue c.metadata = .ok e.metadata

/-- A reservation hands out what its rows hold. -/
theorem decode_reads {name : QueueName} {r : Row (name.queue float).Own}
    {e : (name.queue float).Envelope} (h : decode r = .ok e) :
    Reads float name (contentOf name r) e := by
  obtain ⟨history,token,metadata,_,hm,he⟩ := decode_ok h
  cases name with
  | commands =>
    change commandEnvelope r token metadata history = .ok e at he
    cases he
    exact ⟨rfl,rfl,hm⟩
  | events =>
    change eventEnvelope r token metadata history = .ok e at he
    cases he
    exact ⟨rfl,rfl,hm⟩
  | inbox =>
    change inboxEnvelope r token metadata history = .ok e at he
    unfold inboxEnvelope at he
    split at he
    · cases he
    · cases he
      exact ⟨rfl,hm⟩
  | outbox =>
    change outboxEnvelope r token metadata history = .ok e at he
    unfold outboxEnvelope at he
    split at he
    · cases he
    · cases he
      exact ⟨rfl,hm⟩

/-- An entry as its row holds it, with its token. -/
def HandedOut (w : World app float) (name : QueueName) (e : (name.queue float).Envelope) : Prop :=
  ∃ c token, w.content name ((name.queue float).handed e).id = some c ∧ Reads float name c e ∧
    ((name.queue float).handed e).reservationId = some token

/-- What a reservation hands out. -/
theorem Performs.reserved {name : QueueName} {spec : ReservableSpec}
    {entries : List (name.queue float).Envelope}
    (h : Performs i w (.port name (.reserve spec)) (some (Except.ok entries)) w') :
    (entries.map fun e => ((name.queue float).handed e).id).Nodup ∧
      ∀ e ∈ entries, HandedOut w' name e := by
  obtain ⟨draw,t,hl,rfl⟩ := Performs.reserve_inv h
  obtain ⟨hok,rfl⟩ := hl.of_ok
  have hout : handedOut (w.tables name) (.reserve spec draw) = entries := by
    rw [handedOut,hok]
  refine ⟨hout ▸ handedOut_nodup _ _,fun e he => ?_⟩
  rw [← hout] at he
  obtain ⟨_,_,r,hc,_,_,hd,hf,hid,ht⟩ := handedOut_row he
  cases hc
  refine ⟨_,_,?_,decode_reads hd,ht⟩
  rw [commit_content,hid]
  exact congrArg (Option.map (contentOf name)) hf

/-- A call that is no record leaves the rows of its run alone. -/
theorem Performs.still {op : SystemOp app float} {reply : Option op.Reply}
    (h : Performs i w op reply w') (hn : op.isRecord = false) : Still i w w' := by
  refine Evolves.still h.evolves ?_
  rintro _ name entry rfl
  cases hn

end Calls

section Rules

/-- Rules under which a run pays what it owes, and something more. -/
structure Follows (R : Rules (SystemOp app float) SystemOp.Reply (World app float)) (i : ℕ)
    (extra : SystemOp app float → Prop) : Prop where
  /-- The calls of the run are those of the system. -/
  step : ∀ {op w reply w'}, R.step op w reply w' → Performs i w op reply w'
  /-- The others may be relied on. -/
  rely : ∀ {w w'}, R.rely w w' → Rely i w w'
  /-- Rows carry their ids. -/
  inv : ∀ {w}, R.inv w → Identified w
  /-- Nothing else is owed. -/
  owes : ∀ {op w}, Owes i op w → extra op → R.owes op w

variable {R : Rules (SystemOp app float) SystemOp.Reply (World app float)}
  {extra : SystemOp app float → Prop}

/-- The rule of a call. -/
theorem Follows.perform (h : Follows R i extra) {op : SystemOp app float}
    {post : Option op.Reply → World app float → Prop} (hx : extra op)
    (ho : ∀ v, Rely i w v → Identified v → Owes i op v)
    (hp : ∀ v reply v' u, Rely i w v → Identified v → Performs i v op reply v' → Rely i v' u →
      post reply u) : Safe R (.perform op) post w :=
  Safe.perform fun v hv hi => ⟨h.owes (ho v (h.rely hv) (h.inv hi)) hx,
    fun reply v' hs _ u hu _ => hp v reply v' u (h.rely hv) (h.inv hi) (h.step hs) (h.rely hu)⟩

section Draws

variable {pre : List Uuid}

/-- The rule of a draw: the id is unused, like those drawn before, and differs from them. -/
theorem Follows.nowV7 (h : Follows R i extra) (hx : extra .nowV7) (pre : List Uuid)
    (hpre : ∀ u ∈ pre, Unused i w u) :
    Safe R Pipeline.nowV7 (fun o v => Still i w v ∧ ∀ u, o = some u →
      u ∉ pre ∧ ∀ u' ∈ pre++[u], Unused i v u') w := by
  refine h.perform hx (fun _ _ _ => trivial) fun v reply v' u hv _ hs hu => ?_
  have hstill := (hv.toStill.trans (Performs.still hs rfl)).trans hu.toStill
  refine ⟨hstill,?_⟩
  obtain ⟨a,rfl,hfree,hunknown,rfl⟩ := Performs.nowV7_inv hs
  rintro _ ⟨⟩
  have hne : ∀ u' ∈ pre, u' ≠ a := by
    rintro u' hm rfl
    have hd := (hv.unused u' (hpre u' hm)).1
    rw [hfree] at hd
    cases hd
  refine ⟨fun hm => hne a hm rfl,fun u' hm => hu.unused u' ?_⟩
  rcases List.mem_append.mp hm with hm | hm
  · obtain ⟨hd,hk⟩ := hv.unused u' (hpre u' hm)
    exact ⟨(Function.update_of_ne (hne u' hm) ..).trans hd,hk⟩
  · obtain rfl := List.mem_singleton.mp hm
    exact ⟨Function.update_self ..,hunknown⟩

/-- The ids of event envelopes. -/
def idsOf (envelopes : List NewEventEnvelope) : List Uuid :=
  envelopes.filterMap fun envelope => envelope.metadata.map EventMetadata.eventId

/-- Envelopes as the wrapper of a handler makes them. -/
structure Wrapped (app : Application) (k : Uuid) (produced : List app.Event)
    (envelopes : List NewEventEnvelope) : Prop where
  /-- One for each event, in order. -/
  events : List.Forall₂ (Wraps app) produced envelopes
  /-- Each is caused by the command. -/
  caused : ∀ envelope ∈ envelopes, ∃ m, envelope.metadata = some m ∧ m.causationId = some k

/-- The rule of `wrapEvents`: every envelope has an unused id of its own. -/
theorem Follows.wrapEvents (h : Follows R i extra) (hx : extra .nowV7) (m : CommandMetadata)
    (produced : List app.Event) (hn : pre.Nodup) (hpre : ∀ u ∈ pre, Unused i w u) :
    Safe R (Dispatch.wrapEvents app.events Pipeline.nowV7 (some m) produced) (fun o v =>
      Still i w v ∧ ∀ envelopes, o = some (.ok envelopes) →
        Wrapped app m.commandId produced envelopes ∧ (pre++idsOf envelopes).Nodup ∧
        ∀ u ∈ pre++idsOf envelopes, Unused i v u) w := by
  induction produced generalizing w pre with
  | nil =>
    intro v hv _
    refine ⟨(h.rely hv).toStill,?_⟩
    rintro _ ⟨⟩
    refine ⟨⟨.nil,nofun⟩,?_,?_⟩
    · simpa [idsOf] using hn
    · simpa [idsOf] using fun u hu => (h.rely hv).unused u (hpre u hu)
  | cons event produced ih =>
    rw [Dispatch.wrapEvents]
    split
    · cases hj : app.events.toJson event with
      | error e => exact fun v hv _ => ⟨(h.rely hv).toStill,nofun⟩
      | ok payload =>
        dsimp only
        refine Safe.bind ((h.nowV7 hx pre hpre).mono ?_)
        rintro o v ⟨hst,hu⟩
        cases o with
        | none => exact ⟨hst,nofun⟩
        | some u =>
          obtain ⟨hnew,hunused⟩ := hu u rfl
          have hn' : (pre++[u]).Nodup := by
            rw [List.nodup_append]
            refine ⟨hn,List.nodup_singleton u,?_⟩
            rintro a ha b hb rfl
            obtain rfl := List.mem_singleton.mp hb
            exact hnew ha
          refine Safe.bind ((ih hn' hunused).mono ?_)
          rintro o v' ⟨hst',hrest⟩
          cases o with
          | none => exact ⟨hst.trans hst',nofun⟩
          | some wrapped =>
            intro x hx' _
            refine ⟨(hst.trans hst').trans (h.rely hx').toStill,?_⟩
            cases wrapped with
            | error e => nofun
            | ok envelopes =>
              rintro _ ⟨⟩
              obtain ⟨hw,hnodup,hall⟩ := hrest envelopes rfl
              rw [List.append_assoc] at hnodup hall
              refine ⟨⟨.cons ⟨rfl,hj⟩ hw.events,?_⟩,hnodup,
                fun u' hu' => (h.rely hx').unused u' (hall u' hu')⟩
              intro envelope hm
              rcases List.mem_cons.mp hm with rfl | hm
              · exact ⟨_,rfl,rfl⟩
              · exact hw.caused envelope hm
    · exact fun v hv _ => ⟨(h.rely hv).toStill,nofun⟩

end Draws

section Events

variable {k : Uuid} {c : Content} {envelopes : List NewEventEnvelope}

/-- The event of the envelope has its row. -/
def HasRow (w : World app float) (envelope : NewEventEnvelope) : Prop :=
  ∃ u c, w.content .events u = some c ∧ Stems envelope u c

/-- An event with an id, through the gateway. -/
theorem eventGateway_dispatch {envelope : NewEventEnvelope} {m : EventMetadata}
    (he : envelope.metadata = some m) :
    (eventGateway : EventGateway (SystemOp app float) SystemOp.Reply).dispatch envelope =
      Prog.perform (SystemOp.record .events envelope) >>= fun result =>
        .ret (result.mapError fun e => EventError.eventDispatch (EventError.display e)) := by
  rw [EventGateway.dispatch,he]
  rfl

/-- A new event row of a record stems from its envelope. -/
theorem stems_of_stored (float : SerdeJson.FloatReader) {envelope : NewEventEnvelope}
    {appNow now : Timestamp} {n : NewRow String} {metadata : Jsonb}
    (hn : newEventEntry envelope appNow now = .ok n) (hm : metadata.value = n.metadata) :
    Stems envelope n.id
      (contentOf .events (storedRow n metadata : Row (QueueName.events.queue float).Own)) := by
  obtain ⟨m,he,hid,hc,_⟩ := event_row float hn hm
  rw [hc]
  exact ⟨⟨m,he,hid.symm⟩,rfl,rfl⟩

/-- What recording an event leaves: only its own id is used, its row stems from
the envelope, and `Ok` means that the row is there. -/
theorem Performs.recordEvent {envelope : NewEventEnvelope} {m : EventMetadata}
    {reply : Option (Except EventError Unit)} (h : Performs i w (.record .events envelope) reply w')
    (he : envelope.metadata = some m) (hu : Unused i w m.eventId) :
    (∀ u, u ≠ m.eventId → Unused i w u → Unused i w' u) ∧
    (∀ u c, Authored i w' .events u c → Authored i w .events u c ∨ Stems envelope u c) ∧
    (reply = some (.ok ()) → HasRow w' envelope) := by
  have hev := h.evolves
  refine ⟨?_,?_,?_⟩
  · rintro u hne ⟨hd,hk⟩
    refine ⟨hev.drawn u i hd,?_⟩
    rintro ⟨name,hsome⟩
    obtain ⟨r,hf⟩ := Option.isSome_iff_exists.mp hsome
    rcases Evolves.content_cases hev (content_of_find? hf) with
      hold | ⟨_,_,entry,appNow,now,n,metadata,hop,hn,hm,rfl,_⟩
    · exact hk (known_of_content hold)
    · cases hop
      obtain ⟨m',he',hid,_⟩ := event_row float hn hm
      rw [he] at he'
      cases he'
      exact hne hid
  · intro u c ha
    rcases Evolves.authored_cases hev ha with hold | ⟨_,_,_,_,_,_,hop,hn,hm,rfl,rfl⟩
    · exact .inl hold
    · cases hop
      exact .inr (stems_of_stored float hn hm)
  · rintro rfl
    obtain ⟨appNow,now,n,metadata,hn,hm,hrow⟩ := Performs.recorded h
    obtain ⟨m',he',hid,_⟩ := event_row float hn hm
    rw [he] at he'
    cases he'
    exact ⟨n.id,_,hrow (hid ▸ hu.2),stems_of_stored float hn hm⟩

theorem HasRow.mono (hk : Keeps w w') {envelope : NewEventEnvelope} (h : HasRow w envelope) :
    HasRow w' envelope := by
  obtain ⟨u,c,hc,hs⟩ := h
  exact ⟨u,c,hk _ _ _ hc,hs⟩

/-- Where a run stands between two events of an execution. -/
structure Dispatching (i : ℕ) (w : World app float) (k : Uuid) (c : Content)
    (envelopes rest : List NewEventEnvelope) : Prop where
  /-- The events come from an execution. -/
  produced : Produced w i k c envelopes
  /-- Each is caused by the command. -/
  caused : ∀ envelope ∈ envelopes, ∃ m, envelope.metadata = some m ∧ m.causationId = some k
  /-- What remains is part of it. -/
  remaining : rest ⊆ envelopes
  /-- What remains has ids of its own. -/
  distinct : (idsOf rest).Nodup
  /-- They are unused. -/
  unused : ∀ u ∈ idsOf rest, Unused i w u
  /-- What the run recorded for the command comes from the execution. -/
  stems : StemsFrom i w k envelopes
  /-- What does not remain has its row. -/
  done : ∀ envelope ∈ envelopes, envelope ∈ rest ∨ HasRow w envelope

theorem Dispatching.rely {rest : List NewEventEnvelope} (h : Dispatching i w k c envelopes rest)
    (hr : Rely i w w') : Dispatching i w' k c envelopes rest :=
  ⟨h.produced.mono hr.keeps (hr.logs i),h.caused,h.remaining,h.distinct,
    fun u hu => hr.unused u (h.unused u hu),
    fun u c ha hc => h.stems u c (hr.authored _ u c ha) hc,
    fun envelope hm => (h.done envelope hm).imp_right (HasRow.mono hr.keeps)⟩

/-- The ids of a list of envelopes, one by one. -/
theorem idsOf_cons {envelope : NewEventEnvelope} {m : EventMetadata}
    (he : envelope.metadata = some m) (rest : List NewEventEnvelope) :
    idsOf (envelope::rest) = m.eventId::idsOf rest := by
  rw [idsOf,List.filterMap_cons,he]
  rfl

/-- A record of the next event, whatever becomes of it. -/
theorem Dispatching.next {envelope : NewEventEnvelope} {rest : List NewEventEnvelope}
    (h : Dispatching i w k c envelopes (envelope::rest)) {reply : Option (Except EventError Unit)}
    (hs : Performs i w (.record .events envelope) reply w') (hok : reply = some (.ok ())) :
    Dispatching i w' k c envelopes rest := by
  have hmem := h.remaining (List.mem_cons_self ..)
  obtain ⟨m,he,_⟩ := h.caused envelope hmem
  have hdist := h.distinct
  have hunused := h.unused
  rw [idsOf_cons he] at hdist hunused
  obtain ⟨hfresh,hrest⟩ := List.nodup_cons.mp hdist
  obtain ⟨hothers,hrows,hrow⟩ := Performs.recordEvent hs he (hunused _ (List.mem_cons_self ..))
  have hev := hs.evolves
  refine ⟨h.produced.mono hev.keeps (hev.logs i),h.caused,
    fun e hm => h.remaining (List.mem_cons_of_mem _ hm),hrest,?_,?_,?_⟩
  · intro u hu
    have hne : u ≠ m.eventId := by
      rintro rfl
      exact hfresh hu
    exact hothers u hne (hunused u (List.mem_cons_of_mem _ hu))
  · intro u c ha hc
    rcases hrows u c ha with hold | hstem
    · exact h.stems u c hold hc
    · exact ⟨envelope,hmem,hstem⟩
  · intro e hm
    rcases h.done e hm with hin | hdone
    · rcases List.mem_cons.mp hin with rfl | hin
      · exact .inr (hrow hok)
      · exact .inl hin
    · exact .inr (hdone.mono hev.keeps)

/-- The rule of the loop over the events of a command. -/
theorem Follows.dispatchEvents (h : Follows R i extra)
    (hx : ∀ envelope ∈ envelopes, extra (.record .events envelope))
    (rest : List NewEventEnvelope) (hd : Dispatching i w k c envelopes rest) :
    Safe R (Dispatch.dispatchEvents eventGateway.dispatch rest)
      (fun o v => o = some (.ok ()) → Dispatching i v k c envelopes []) w := by
  induction rest generalizing w with
  | nil => exact fun v hv _ _ => hd.rely (h.rely hv)
  | cons envelope rest ih =>
    have hmem := hd.remaining (List.mem_cons_self ..)
    obtain ⟨m,he,hcause⟩ := hd.caused envelope hmem
    rw [Dispatch.dispatchEvents,eventGateway_dispatch he]
    have hcall : Safe R (Prog.perform (SystemOp.record .events envelope))
        (fun (o : Option (Except EventError Unit)) v => o = some (.ok ()) →
          Dispatching i v k c envelopes rest) w := by
      refine h.perform (hx envelope hmem) ?_ ?_
      · intro v hv _
        have hdv := hd.rely hv
        have hu := hdv.unused
        rw [idsOf_cons he] at hu
        exact ⟨m,k,c,envelopes,he,hu _ (List.mem_cons_self ..),hcause,hdv.produced,hmem,hdv.stems⟩
      · intro v reply v' u hv _ hs hu hok
        exact ((hd.rely hv).next hs hok).rely hu
    refine Safe.bind (Safe.bind_ok (hcall.mono fun o v hdone a ho => ?_) (fun _ => nofun)
      fun _ _ _ _ _ _ _ _ => nofun)
    exact fun v' hv' _ => ih ((hdone ho).rely (h.rely hv'))

end Events

section Works

variable {k : Uuid} {c : Content}

/-- The records of the work on one entry carry the entry as their cause. -/
def OwnCause (k : Uuid) (op : SystemOp app float) : Prop :=
  match op with
  | .record name entry => entryCause name entry = some k
  | _ => True

/-- A command that was recorded has its row. -/
theorem Performs.recordCommand {envelope : NewCommandEnvelope} {m : CommandMetadata}
    (h : Performs i w (.record .commands envelope) (some (Except.ok ())) w')
    (he : envelope.metadata = some m) (hu : ¬w.Known m.commandId) :
    ∃ metadata, w'.content .commands m.commandId =
        some ⟨some envelope.commandType,envelope.payload,some metadata⟩ ∧
      optionalMetadata CommandMetadata.ofValue (some metadata) = .ok (some m) := by
  obtain ⟨appNow,now,n,metadata,hn,hm,hrow⟩ := Performs.recorded h
  obtain ⟨m',he',hid,hcontent,hreads⟩ := command_row float hn hm
  rw [he] at he'
  cases he'
  refine ⟨metadata,?_,hreads⟩
  rw [← hcontent,← hid]
  exact hrow (hid ▸ hu)

/-- The rule of `InboxConsumer`'s work. -/
theorem Follows.forwardMessage (h : Follows R i (OwnCause k)) (hi : Identified w)
    {e : InboxMessageEnvelope} (hc : w.content .inbox k = some c) (hr : Reads float .inbox c e)
    (hn : ¬Recorded i w .commands k) :
    Safe R (Consumers.forwardMessage Pipeline.nowV7 commandGateway.dispatch e)
      (fun o v => o = some (.ok ()) → Forwarded v k c) w := by
  obtain ⟨message,hread,hid⟩ := hi.messages k c hc
  obtain ⟨hpayload,hmeta⟩ := hr
  rw [hread] at hmeta
  cases hmeta
  refine Safe.bind ((h.nowV7 trivial [] nofun).mono ?_)
  rintro o v ⟨hst,hu⟩
  cases o with
  | none => nofun
  | some u =>
    obtain ⟨_,hunused⟩ := hu u rfl
    have hunused := hunused u (List.mem_singleton_self u)
    cases hkey : e.metadata.routingKey with
    | none =>
      simp only [NewCommandEnvelope.ofInbox,hkey]
      exact fun v' _ _ => nofun
    | some key =>
      simp only [NewCommandEnvelope.ofInbox,hkey]
      have hcall : Safe R (Prog.perform (SystemOp.record .commands
          ⟨key,e.payload,some ⟨u,e.metadata.correlationId,e.metadata.messageId,e.metadata.source⟩⟩))
          (fun (o : Option (Except CommandError Unit)) v => o = some (.ok ()) → Forwarded v k c)
          v := by
        refine h.perform hid ?_ ?_
        · intro v' hv _
          refine ⟨_,rfl,hv.unused u hunused,fun k' hk' => ?_⟩
          cases hid.symm.trans hk'
          exact (hst.trans hv.toStill).not_recorded hn
        · rintro v' reply v'' x hv _ hs hx rfl
          obtain ⟨metadata,hat,hreads⟩ := Performs.recordCommand hs rfl (hv.unused u hunused).2
          exact ⟨_,key,_,_,_,hread,hkey,hx.keeps _ _ _ hat,rfl,hpayload.symm,hreads,hid⟩
      refine Safe.bind_ok (hcall.mono fun o v' hdone a ho => ?_) (fun _ => nofun)
        fun _ _ _ _ _ => nofun
      have hd : Delivered v' .inbox k c := hdone ho
      exact fun v'' hv'' _ _ => (h.rely hv'').toStill.delivered hd

/-- The rule of a handler in its wrapper: its envelopes come from the execution. -/
theorem Follows.wrapHandler (h : Follows R i (OwnCause k)) (handler : app.Handler)
    (envelope : NewCommandEnvelope) {m : CommandMetadata} (he : envelope.metadata = some m)
    (hid : m.commandId = k) (hc : w.content .commands k = some c)
    (hruns : ∀ command, app.fromStr handler envelope.payload = .ok command →
      Runs app c handler command) (hn : ¬Recorded i w .events k) :
    Safe R (Pipeline.wrapHandler handler envelope) (fun o v => ∀ envelopes,
      o = some (.ok envelopes) → Dispatching i v k c envelopes envelopes) w := by
  unfold Pipeline.wrapHandler HandlerWrapper.execute
  cases hcommand : app.fromStr handler envelope.payload with
  | error e => exact fun v _ _ => nofun
  | ok command =>
    have hcall : Safe R (Prog.perform (SystemOp.execute handler command))
        (fun (o : Option (Except CommandError (List app.Event))) v => Still i w v ∧
          ∀ produced, o = some (.ok produced) →
            .executed handler command (some (.ok produced)) ∈ v.log i) w := by
      refine h.perform trivial (fun _ _ _ => trivial) fun v reply v' u hv _ hs hu => ?_
      refine ⟨(hv.toStill.trans (Performs.still hs rfl)).trans hu.toStill,?_⟩
      rintro produced rfl
      obtain rfl := Performs.execute_inv hs
      refine (hu.logs i).subset ?_
      rw [observe_log]
      exact List.mem_append_right _ (List.mem_singleton_self _)
    refine Safe.bind_ok (hcall.mono ?_) (fun _ _ => nofun) fun _ _ _ _ _ _ => nofun
    rintro o v ⟨hst,hlog⟩ produced ho
    dsimp only
    rw [he]
    refine (h.wrapEvents trivial m produced List.nodup_nil nofun).mono ?_
    rintro o' v' ⟨hst',hwrap⟩ envelopes ho'
    obtain ⟨hw,hnodup,hunused⟩ := hwrap envelopes ho'
    have hall := hst.trans hst'
    refine ⟨⟨handler,command,produced,hall.keeps _ _ _ hc,hruns command hcommand,
      (hst'.logs i).subset (hlog produced ho),hw.events⟩,hid ▸ hw.caused,
      List.Subset.refl _,hnodup,hunused,?_,fun e hm => .inl hm⟩
    intro u c' ha hcause
    exact absurd ⟨u,c',hall.authored _ _ _ ha,hcause⟩ hn

/-- The events of a handoff that is done. -/
theorem eventsAt {produced : List app.Event} {envelopes : List NewEventEnvelope}
    (h : List.Forall₂ (Wraps app) produced envelopes)
    (hrows : ∀ envelope ∈ envelopes, HasRow w envelope) :
    List.Forall₂ (EventAt w) produced (idsOf envelopes) := by
  induction h with
  | nil => exact .nil
  | @cons event envelope produced envelopes hwraps _ ih =>
    obtain ⟨_,c,hc,⟨m,he,rfl⟩,htype,hpayload⟩ := hrows envelope (List.mem_cons_self ..)
    rw [idsOf_cons he]
    refine .cons ⟨c,hc,?_,?_⟩ (ih fun e hm => hrows e (List.mem_cons_of_mem _ hm))
    · rw [htype,hwraps.1]
    · rw [hpayload,hwraps.2]

/-- The rule of `CommandConsumer`'s work. -/
theorem Follows.commandDispatcher (h : Follows R i (OwnCause k)) (hi : Identified w)
    {e : CommandEnvelope} (hc : w.content .commands k = some c)
    (hr : Reads float .commands c e) (hn : ¬Recorded i w .events k) :
    Safe R (dispatchCommand Pipeline.commandDispatcher e)
      (fun o v => o = some (.ok ()) → Executed v c) w := by
  obtain ⟨htype,hpayload,hmeta⟩ := hr
  obtain ⟨m,hread,hid⟩ := hi.commands k c hc
  rw [hread] at hmeta
  have he : e.metadata = some m := (Except.ok.inj hmeta).symm
  unfold dispatchCommand Pipeline.commandDispatcher CommandDispatcher.dispatch
    CommandHandlerRegistry.execute
  cases hget : CommandHandlerRegistry.get app.handlers (NewCommandEnvelope.ofEnvelope e).commandType
    with
  | none => exact fun v _ _ => nofun
  | some handler =>
    have hwrapped := h.wrapHandler handler (.ofEnvelope e) he hid hc
      (fun command hcommand => ⟨_,htype,hget,hpayload ▸ hcommand⟩) hn
    refine Safe.bind_ok (hwrapped.mono fun o v hd envelopes ho => ?_) (fun _ => nofun)
      fun _ _ _ _ _ => nofun
    have hstart := hd envelopes ho
    refine (h.dispatchEvents ?_ envelopes hstart).mono fun o v' hdone ho => ?_
    · intro envelope hm
      obtain ⟨m',he',hcause⟩ := hstart.caused envelope hm
      exact (congrArg (Option.bind · EventMetadata.causationId) he').trans hcause
    · have hend := hdone ho
      obtain ⟨_,command,produced,_,hruns,hlog,hall⟩ := hend.produced
      have hrows : ∀ envelope ∈ envelopes, HasRow v' envelope :=
        fun envelope hm => (hend.done envelope hm).resolve_left List.not_mem_nil
      exact ⟨_,command,i,produced,_,hruns,hlog,hstart.distinct,eventsAt hall hrows⟩

/-- The rule of the loop over the subscribers: the run's log ends with the pass so far. -/
theorem Follows.handleAll (h : Follows R i extra) (envelope : NewEventEnvelope)
    (hx : ∀ subscriber, extra (.handle subscriber envelope)) (subscribers : List app.Subscriber)
    {before : List (Observation app)} (hlog : w.log i = before) :
    Safe R (Dispatch.handleAll (fun subscriber event =>
        Prog.perform (SystemOp.handle subscriber event)) envelope subscribers)
      (fun o v => o = some (.ok ()) → v.log i = before++subscribers.map fun subscriber =>
        .handled subscriber envelope (some (.ok ()))) w := by
  induction subscribers generalizing w before with
  | nil =>
    intro v hv _ _
    rw [(h.rely hv).own,hlog,List.map_nil,List.append_nil]
  | cons subscriber subscribers ih =>
    have hcall : Safe R (Prog.perform (SystemOp.handle subscriber envelope))
        (fun (o : Option (Except EventError Unit)) v => o = some (.ok ()) →
          v.log i = before++[.handled subscriber envelope (some (.ok ()))]) w := by
      refine h.perform (hx subscriber) (fun _ _ _ => trivial) ?_
      rintro v reply v' u hv _ hs hu rfl
      obtain rfl := Performs.handle_inv hs
      rw [hu.own,observe_log,hv.own,hlog]
    refine Safe.bind_ok (hcall.mono fun o v hdone a ho => ?_) (fun _ => nofun)
      fun _ _ _ _ _ => nofun
    refine (ih (hdone ho)).mono fun o v' hpass ho => ?_
    rw [hpass ho,List.map_cons,List.append_assoc]
    rfl

/-- The rule of `EventConsumer`'s work. -/
theorem Follows.eventDispatcher (h : Follows R i (OwnCause k)) {e : EventEnvelope}
    (hr : Reads float .events c e) :
    Safe R (dispatchEvent Pipeline.eventDispatcher e)
      (fun o v => o = some (.ok ()) → Handled v c) w := by
  obtain ⟨htype,hpayload,hmeta⟩ := hr
  refine (h.handleAll (NewEventEnvelope.ofEnvelope e) (fun _ => trivial) _ rfl).mono ?_
  intro o v hpass ho
  exact ⟨.ofEnvelope e,i,htype,hpayload,hmeta,hpass ho ▸ List.suffix_append _ _ |>.isInfix⟩

/-- The rule of `OutboxConsumer`'s work. -/
theorem Follows.publisher (h : Follows R i (OwnCause k)) {e : OutboxEntryEnvelope}
    (hr : Reads float .outbox c e) :
    Safe R (publishEntry Pipeline.publisher e)
      (fun o v => o = some (.ok ()) → Published v c) w := by
  obtain ⟨hpayload,hmeta⟩ := hr
  unfold publishEntry OutboundMessageEnvelope.ofEntry
  split
  · next error _ => exact fun v _ _ => nofun
  · next outbound hout =>
    split at hout
    · cases hout
    · cases hout
      refine h.perform trivial (fun _ _ _ => trivial) ?_
      rintro v reply v' u _ _ hs hu rfl
      obtain rfl := Performs.publish_inv hs
      refine ⟨e.metadata,i,hmeta,(hu.logs i).subset ?_⟩
      rw [observe_log,hpayload]
      exact List.mem_append_right _ (List.mem_singleton_self _)

end Works

section Batches

/-- An entry that the run was handed and has not recorded anything for. -/
def Fresh (i : ℕ) (name : QueueName) (e : (name.queue float).Envelope) (w : World app float) :
    Prop :=
  HandedOut w name e ∧ ∀ next, ¬Recorded i w next ((name.queue float).handed e).id

theorem Fresh.still {name : QueueName} {e : (name.queue float).Envelope} (h : Fresh i name e w)
    (hs : Still i w w') : Fresh i name e w' := by
  obtain ⟨⟨c,token,hc,hr,ht⟩,hn⟩ := h
  exact ⟨⟨c,token,hs.keeps _ _ _ hc,hr,ht⟩,fun next => hs.not_recorded (hn next)⟩

/-- The work on one entry records nothing for another. -/
theorem Fresh.other {name : QueueName} {e : (name.queue float).Envelope} (h : Fresh i name e w)
    {op : SystemOp app float} {reply : Option op.Reply} (hs : Performs i w op reply w') {k : Uuid}
    (hx : OwnCause k op) (hk : k ≠ ((name.queue float).handed e).id) : Fresh i name e w' := by
  obtain ⟨⟨c,token,hc,hr,ht⟩,hn⟩ := h
  have hev := hs.evolves
  refine ⟨⟨c,token,hev.keeps _ _ _ hc,hr,ht⟩,?_⟩
  rintro next ⟨u,c',ha,hcause⟩
  rcases Evolves.authored_cases hev ha with hold | ⟨_,entry,_,_,_,_,hop,hnew,hm,_,rfl⟩
  · exact hn next ⟨u,c',hold,hcause⟩
  · subst hop
    have hentry : entryCause next entry = some k := hx
    rw [causeOf_stored hnew hm,hentry] at hcause
    exact hk (Option.some.inj hcause)

/-- The rule of a consumer, from the rule of its work: an entry is completed only
after it was handed over. -/
theorem Follows.safe_consume (h : Follows R i fun _ => True) (name : QueueName)
    (work : (name.queue float).Envelope →
      Program app float (Except (name.queue float).Error Unit)) (spec : ReservableSpec)
    (hnew : ∀ next k, ¬Recorded i w next k)
    (hwork : ∀ {R' : Rules (SystemOp app float) SystemOp.Reply (World app float)} {v e c},
      Follows R' i (OwnCause ((name.queue float).handed e).id) → Identified v →
      v.content name ((name.queue float).handed e).id = some c → Reads float name c e →
      (∀ next, ¬Recorded i v next ((name.queue float).handed e).id) →
      Safe R' (work e) (fun o v' => o = some (.ok ()) →
        Delivered v' name ((name.queue float).handed e).id c) v) :
    Safe R (consume (itemsOf name float) (ports name) work spec) (fun _ _ => True) w := by
  refine safe_entries (Fresh i name)
    (fun e op _ => OwnCause ((name.queue float).handed e).id op) ?_ ?_ ?_ ?_
  · exact fun e a b hf hr => hf.still (h.rely hr).toStill
  · exact fun e e' hne a op reply b hf _ _ hx hs => hf.other (h.step hs) hx hne
  · refine h.perform trivial (fun _ _ _ => trivial) ?_
    rintro v reply v' u hv _ hs hu entries rfl
    obtain ⟨hn,hout⟩ := Performs.reserved hs
    have hstill := hv.toStill.trans (Performs.still hs rfl)
    exact ⟨hn,fun e he => Fresh.still
      ⟨hout e he,fun next => hstill.not_recorded (hnew next _)⟩ hu.toStill⟩
  · rintro e errors v hi ⟨⟨c,token,hc,hr,ht⟩,hn⟩
    have hown : Follows (R.also fun op _ => OwnCause ((name.queue float).handed e).id op) i
        (OwnCause ((name.queue float).handed e).id) :=
      ⟨h.step,h.rely,h.inv,fun ho hx => ⟨h.owes ho trivial,hx⟩⟩
    refine safe_processEntry (fun v => ∃ c,
      v.content name ((name.queue float).handed e).id = some c ∧
        Delivered v name ((name.queue float).handed e).id c) ht ?_ ?_ ?_
    · have hframe := Safe.frame
        (F:=fun x => x.content name ((name.queue float).handed e).id = some c)
        (fun a b ha hr => (hown.rely hr).keeps _ _ _ ha)
        (fun a op reply b ha _ _ hs => (hown.step hs).evolves.keeps _ _ _ ha)
        (hwork hown (h.inv hi) hc hr hn) hc
      refine hframe.mono ?_
      rintro o v' ⟨hd,hc'⟩ ho x hx _
      exact ⟨c,(hown.rely hx).keeps _ _ _ hc',(hown.rely hx).toStill.delivered (hd ho)⟩
    · rintro v' _ ⟨c',hc',hd⟩
      refine hown.perform trivial ?_ (fun _ _ _ _ _ _ _ _ => trivial)
      intro x hx _ c'' hc''
      rw [hx.keeps _ _ _ hc'] at hc''
      cases hc''
      exact hx.toStill.delivered hd
    · exact fun reason v' => hown.perform trivial (fun _ _ _ => trivial)
        (fun _ _ _ _ _ _ _ _ => trivial)

/-- Every program of a worker is safe, if it starts under a new number. -/
theorem Follows.isConsumer (h : Follows R i fun _ => True) {p : Program app float Unit}
    (hp : IsConsumer p) (hnew : ∀ next k, ¬Recorded i w next k) :
    Safe R p (fun _ _ => True) w := by
  have hdone : ∀ {ε : Type} {batch : Program app float (Except (List ε) ℕ)},
      Safe R batch (fun _ _ => True) w → Safe R (ignoreResult batch) (fun _ _ => True) w := by
    intro ε batch hb
    refine Safe.bind (hb.mono fun o v _ => ?_)
    cases o with
    | none => trivial
    | some result => exact fun _ _ _ => trivial
  cases hp with
  | inbox spec =>
    exact hdone (h.safe_consume .inbox _ spec hnew fun hf hi hc hr hn =>
      hf.forwardMessage hi hc hr (hn .commands))
  | commands spec =>
    exact hdone (h.safe_consume .commands _ spec hnew fun hf hi hc hr hn =>
      hf.commandDispatcher hi hc hr (hn .events))
  | events spec =>
    exact hdone (h.safe_consume .events _ spec hnew fun hf _ _ hr _ => hf.eventDispatcher hr)
  | outbox spec =>
    exact hdone (h.safe_consume .outbox _ spec hnew fun hf _ _ hr _ => hf.publisher hr)

end Batches

end Rules

end Mulac.HandoffRules
