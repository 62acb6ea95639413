import Mulac.AmqpPublishing
import Mulac.CallTrace

/-!
# The connection of the confirmed publisher

`ConfirmedAmqpPublisher` keeps a connection between publications. Over any
sequence of publications, whatever the client answers and wherever the timeout
strikes, a connection is kept exactly after a success. So every message is
published over a channel on which nothing but confirmed publications happened
since it was opened.
-/

namespace Mulac.ConfirmedPublishing

open Envelopes PanicProgram CallTrace AmqpPublishing ConfirmedAmqpPublisher

section Publications

/-- An awaited call of the client, with what it was awaited for; `elapsed` means that the timeout
struck there. -/
abbrev ClientCall : Type := (op : ClientOp) × Timed (Except LapinError op.Answer)

/-- What the client answers, in a world of its own. -/
abbrev Client (σ : Type) : Type :=
  (op : ClientOp) → σ → Timed (Except LapinError op.Answer) × σ

/-- A publisher between two calls: the connection that it keeps, and the world. -/
structure Keeping (σ : Type) where
  /-- What is behind the lock. -/
  connection : Held
  /-- Everything else. -/
  world : σ

variable {σ : Type} (client : Client σ)

/-- How the calls of a publication are answered: the lock hands out what was left there, and the
client answers what it is awaited for. -/
def respond : (op : PublisherOp) → Keeping σ → Option op.Reply × Keeping σ
  | .tryCurrent,s => (some true,s)
  | .buildRuntime,s => (some (.ok ()),s)
  | .lock,s => (some s.connection,s)
  | .unlock connection,s => (some (),⟨connection,s.world⟩)
  | .client _,s => (none,s)
  | .timed op,s => (some (client op s.world).1,⟨s.connection,(client op s.world).2⟩)

/-- The call of the client in an observed call. -/
def clientCall? : Observed PublisherOp PublisherOp.Reply → Option ClientCall
  | ⟨.timed op,some answer⟩ => some ⟨op,answer⟩
  | _ => none

/-- `publish_async`, by itself. -/
def publishAsync (p : ConfirmedAmqpPublisher) (envelope : OutboundMessageEnvelope) :
    Prog PublisherOp PublisherOp.Reply (Except OutboxError Unit) :=
  p.publishAsync Prog.perform envelope

/-- A call of `publish_async` that ran to its end. -/
structure Publication where
  /-- The message. -/
  envelope : OutboundMessageEnvelope
  /-- The calls of the client that it awaited. -/
  observed : List ClientCall
  /-- What it returned. -/
  result : Option (Except OutboxError Unit)
  /-- The connection that is kept afterwards. -/
  kept : Held

/-- The calls of `publish_async` for these messages, one after the other. -/
def publications (p : ConfirmedAmqpPublisher) :
    List OutboundMessageEnvelope → Keeping σ → List Publication
  | [],_ => []
  | envelope::rest,s =>
    let run := (publishAsync p envelope).run (respond client) s
    ⟨envelope,(trace (respond client) (publishAsync p envelope) s).filterMap clientCall?,run.1,
      run.2.connection⟩::publications p rest run.2

end Publications

section Calls

variable {σ α β : Type} {client : Client σ} {s s' s'' : Keeping σ}
  {observed later : List ClientCall}

/-- A run that returns, with the calls of the client that it awaited. -/
structure Returns (client : Client σ) (prog : Prog PublisherOp PublisherOp.Reply α)
    (s : Keeping σ) (a : α) (s' : Keeping σ) (observed : List ClientCall) : Prop where
  /-- What it returns, and what it leaves. -/
  run : prog.run (respond client) s = (some a,s')
  /-- The calls of the client. -/
  calls : (trace (respond client) prog s).filterMap clientCall? = observed

theorem Returns.ret (a : α) (s : Keeping σ) : Returns client (.ret a) s a s [] := ⟨rfl,rfl⟩

/-- A sequence awaits what its parts await. -/
theorem Returns.bind {prog : Prog PublisherOp PublisherOp.Reply α}
    {f : α → Prog PublisherOp PublisherOp.Reply β} {a : α} {b : β}
    (h : Returns client prog s a s' observed) (h' : Returns client (f a) s' b s'' later) :
    Returns client (prog >>= f) s b s'' (observed++later) where
  run := (Prog.run_bind_of_some _ h.run f).trans h'.run
  calls := by rw [trace_bind_of_some h.run,List.filterMap_append,h.calls,h'.calls]

/-- A call that is answered. -/
theorem Returns.perform {op : PublisherOp} {reply : op.Reply}
    (h : respond client op s = (some reply,s')) :
    Returns client (Prog.perform op) s reply s' (clientCall? ⟨op,some reply⟩).toList where
  run := (Prog.run_perform _ _ _).trans h
  calls := by
    rw [trace_perform,h,List.filterMap_cons]
    cases clientCall? ⟨op,some reply⟩ <;> rfl

/-- What an awaited call comes to. -/
def timedResult : Timed (Except LapinError α) → Except OutboxError α
  | .elapsed => .error errTimeout
  | .done (.error _) => .error errTransport
  | .done (.ok answer) => .ok answer

theorem timedResult_eq_ok {answer : Timed (Except LapinError α)} {a : α} :
    timedResult answer = .ok a ↔ answer = .done (.ok a) := by
  rcases answer with ⟨e | a'⟩ | _ <;> simp [timedResult]

variable (client s) in
/-- An awaited call is one call of the client. -/
theorem awaited_returns (op : ClientOp) : ∃ answer world,
    Returns client (awaited Prog.perform op) s (timedResult answer) ⟨s.connection,world⟩
      [⟨op,answer⟩] := by
  cases hc : client op s.world with
  | mk answer world =>
    have hrespond : respond client (.timed op) s = (some answer,⟨s.connection,world⟩) := by
      rw [respond,hc]
    refine ⟨answer,world,(Returns.perform hrespond).bind ?_⟩
    rcases answer with ⟨e | a⟩ | _ <;> exact Returns.ret _ _

end Calls

section Openings

/-- The calls that open a connection with a channel that confirms. -/
def opening (url : String) (connection : Connection) (channel : Channel) : List ClientCall :=
  [⟨.connect url,.done (.ok connection)⟩,⟨.createChannel connection,.done (.ok channel)⟩,
    ⟨.confirmSelect channel,.done (.ok ())⟩]

/-- What `connect` awaits, and what it returns. -/
inductive Connects (url : String) : List ClientCall → Except OutboxError (Connection × Channel) →
    Prop
  /-- There is no connection. -/
  | noConnection {answer : Timed (Except LapinError Connection)} {e : OutboxError} :
    timedResult answer = .error e → Connects url [⟨.connect url,answer⟩] (.error e)
  /-- It has no channel. -/
  | noChannel (connection : Connection) {answer : Timed (Except LapinError Channel)}
    {e : OutboxError} : timedResult answer = .error e →
      Connects url [⟨.connect url,.done (.ok connection)⟩,⟨.createChannel connection,answer⟩]
        (.error e)
  /-- The channel does not confirm. -/
  | noConfirms (connection : Connection) (channel : Channel)
    {answer : Timed (Except LapinError Unit)} {e : OutboxError} : timedResult answer = .error e →
      Connects url [⟨.connect url,.done (.ok connection)⟩,
        ⟨.createChannel connection,.done (.ok channel)⟩,⟨.confirmSelect channel,answer⟩] (.error e)
  /-- All of it worked. -/
  | opened (connection : Connection) (channel : Channel) :
    Connects url (opening url connection channel) (.ok (connection,channel))

variable {σ : Type} {client : Client σ} {p : ConfirmedAmqpPublisher} {s : Keeping σ}

variable (client p s) in
theorem connect_returns : ∃ result world observed,
    Returns client (p.connect Prog.perform) s result ⟨s.connection,world⟩ observed ∧
      Connects p.url observed result := by
  obtain ⟨opened,w₁,h₁⟩ := awaited_returns client s (.connect p.url)
  cases ho : timedResult opened with
  | error e =>
    rw [ho] at h₁
    exact ⟨_,w₁,_,h₁.bind (.ret _ _),.noConnection ho⟩
  | ok connection =>
    obtain rfl := timedResult_eq_ok.mp ho
    obtain ⟨created,w₂,h₂⟩ := awaited_returns client ⟨s.connection,w₁⟩ (.createChannel connection)
    cases hc : timedResult created with
    | error e =>
      rw [hc] at h₂
      exact ⟨_,w₂,_,h₁.bind (h₂.bind (.ret _ _)),.noChannel connection hc⟩
    | ok channel =>
      obtain rfl := timedResult_eq_ok.mp hc
      obtain ⟨selected,w₃,h₃⟩ := awaited_returns client ⟨s.connection,w₂⟩ (.confirmSelect channel)
      refine ⟨_,w₃,_,h₁.bind (h₂.bind (h₃.bind (.ret _ _))),?_⟩
      cases hs : timedResult selected with
      | error e => exact .noConfirms connection channel hs
      | ok u =>
        obtain rfl := timedResult_eq_ok.mp hs
        exact .opened connection channel

end Openings

section Publishing

/-- What awaiting a publication, and then its confirm, comes to. -/
def publishResult (answer : Timed (Except LapinError PublisherConfirm)) :
    Except OutboxError Unit :=
  match timedResult answer with
  | .error e => .error e
  | .ok (.error _) => .error errTransport
  | .ok (.ok confirmation) => requireConfirmation confirmation

/-- The answer of a broker that took and routed the message, in time. -/
def plainAck : Timed (Except LapinError PublisherConfirm) := .done (.ok (.ok (.ack none)))

/-- Nothing else is a success. -/
theorem publishResult_eq_ok {answer : Timed (Except LapinError PublisherConfirm)} :
    publishResult answer = .ok () ↔ answer = plainAck := by
  rcases answer with ⟨_ | _ | (_ | _) | _ | _⟩ | _ <;>
    simp [publishResult,timedResult,requireConfirmation,plainAck]

/-- What `publish_async` awaits over the connection that is kept, what it returns and what is kept
afterwards. -/
inductive Publishes (p : ConfirmedAmqpPublisher) (envelope : OutboundMessageEnvelope) :
    Held → List ClientCall → Except OutboxError Unit → Held → Prop
  /-- There is no connection and none is opened. -/
  | unopened {observed : List ClientCall} {e : OutboxError} :
    Connects p.url observed (.error e) → Publishes p envelope none observed (.error e) none
  /-- The message is published over a new connection. -/
  | opened (connection : Connection) (channel : Channel)
    (answer : Timed (Except LapinError PublisherConfirm)) : Publishes p envelope none
      (opening p.url connection channel++[⟨.basicPublish channel (p.request envelope),answer⟩])
      (publishResult answer)
      (if (publishResult answer).isOk then some (connection,channel) else none)
  /-- The message is published over the connection that is kept. -/
  | kept (connection : Connection) (channel : Channel)
    (answer : Timed (Except LapinError PublisherConfirm)) :
      Publishes p envelope (some (connection,channel))
        [⟨.basicPublish channel (p.request envelope),answer⟩] (publishResult answer)
        (if (publishResult answer).isOk then some (connection,channel) else none)

variable {σ : Type} {client : Client σ} {p : ConfirmedAmqpPublisher}
  {envelope : OutboundMessageEnvelope} {s : Keeping σ}

variable (client p envelope s) in
/-- The block under the timeout, over a connection. -/
theorem attempt_connected (connection : Connection) (channel : Channel) : ∃ answer world,
    Returns client (p.attempt Prog.perform envelope (some (connection,channel))) s
      (some (connection,channel),publishResult answer) ⟨s.connection,world⟩
      [⟨.basicPublish channel (p.request envelope),answer⟩] := by
  obtain ⟨answer,world,h⟩ :=
    awaited_returns client s (.basicPublish channel (p.request envelope))
  refine ⟨answer,world,(Returns.ret _ _).bind (h.bind ?_)⟩
  rcases answer with ⟨e | e | confirmation⟩ | _ <;> exact Returns.ret _ _

variable (client p envelope s) in
theorem attempt_returns (held : Held) : ∃ kept result world observed,
    Returns client (p.attempt Prog.perform envelope held) s (kept,result) ⟨s.connection,world⟩
      observed ∧
    Publishes p envelope held observed result (if result.isOk then kept else none) := by
  cases held with
  | some connection =>
    obtain ⟨connection,channel⟩ := connection
    obtain ⟨answer,world,h⟩ := attempt_connected client p envelope s connection channel
    exact ⟨_,_,world,_,h,.kept connection channel answer⟩
  | none =>
    obtain ⟨result,w₁,observed,h,hconnects⟩ := connect_returns client p s
    cases hconnects with
    | opened connection channel =>
      obtain ⟨answer,world,h'⟩ :=
        attempt_connected client p envelope ⟨s.connection,w₁⟩ connection channel
      exact ⟨_,_,world,_,h.bind h',.opened connection channel answer⟩
    | noConnection he => exact ⟨_,_,w₁,_,h.bind (.ret _ _),.unopened (.noConnection he)⟩
    | noChannel connection he =>
      exact ⟨_,_,w₁,_,h.bind (.ret _ _),.unopened (.noChannel connection he)⟩
    | noConfirms connection channel he =>
      exact ⟨_,_,w₁,_,h.bind (.ret _ _),.unopened (.noConfirms connection channel he)⟩

variable (client p envelope s) in
/-- One call of `publish_async`. -/
theorem publishAsync_returns : ∃ result kept world observed,
    Returns client (publishAsync p envelope) s result ⟨kept,world⟩ observed ∧
      Publishes p envelope s.connection observed result kept := by
  have hlock : Returns client (Prog.perform .lock) s s.connection s [] := .perform rfl
  obtain ⟨kept,result,world,observed,h,hpublishes⟩ :=
    attempt_returns client p envelope s s.connection
  have hunlock : Returns client
      (Prog.perform (.unlock (if result.isOk then kept else none))) ⟨s.connection,world⟩ ()
      ⟨if result.isOk then kept else none,world⟩ [] := .perform rfl
  refine ⟨result,_,world,observed,?_,hpublishes⟩
  have hcalls : observed = []++(observed++([]++[])) := by simp
  rw [hcalls,publishAsync,ConfirmedAmqpPublisher.publishAsync]
  exact hlock.bind (h.bind (hunlock.bind (Returns.ret result _)))

end Publishing

section Logs

variable {A : Type} {P : List A → A → Prop} {log later : List A} {x : A}

/-- Every entry of a log stands after what is asked of the entries before it. -/
def Preceded (P : List A → A → Prop) (log : List A) : Prop :=
  ∀ before x after, log = before++x::after → P before x

theorem preceded_nil : Preceded P [] := by
  intro before x after h
  cases before <;> cases h

/-- A log is continued by entries that stand so. -/
theorem Preceded.append (h : Preceded P log)
    (hlater : ∀ before x after, later = before++x::after → P (log++before) x) :
    Preceded P (log++later) := by
  intro before x after he
  rcases List.append_eq_append_iff.mp he with ⟨between,rfl,hl⟩ | ⟨between,rfl,hl⟩
  · exact hlater between x after hl
  · cases between with
    | nil =>
      have hx := hlater [] x after hl.symm
      rwa [List.append_nil,List.append_nil] at hx
    | cons y between =>
      cases hl
      exact h before x between rfl

theorem Preceded.concat (h : Preceded P log) (hx : P log x) : Preceded P (log++[x]) := by
  refine h.append fun before y after he => ?_
  cases before with
  | nil =>
    cases he
    rwa [List.append_nil]
  | cons z before => simp at he

end Logs

section Invariant

/-- The calls on a channel since it was opened, all of them confirmed publications. -/
inductive Clean (url : String) (channel : Channel) : List ClientCall → Prop
  /-- The channel is new. -/
  | opened (connection : Connection) : Clean url channel (opening url connection channel)
  /-- A message was published and confirmed. -/
  | confirmed {since : List ClientCall} (request : PublishRequest) : Clean url channel since →
    Clean url channel (since++[⟨.basicPublish channel request,plainAck⟩])

/-- The latest calls are those on a clean channel. -/
def EndsClean (url : String) (channel : Channel) (log : List ClientCall) : Prop :=
  ∃ earlier since, log = earlier++since ∧ Clean url channel since

/-- A publication stands after the calls on its channel, which is clean. -/
def OverClean (url : String) (log : List ClientCall) (c : ClientCall) : Prop :=
  ∀ channel request answer, c = ⟨.basicPublish channel request,answer⟩ → EndsClean url channel log

/-- What holds between two calls: the channel that is kept is clean. -/
structure Inv (url : String) (held : Held) (log : List ClientCall) : Prop where
  /-- The channel that is kept. -/
  kept : ∀ connection channel, held = some (connection,channel) → EndsClean url channel log
  /-- The publications so far. -/
  published : Preceded (OverClean url) log

variable {url : String} {channel : Channel} {log : List ClientCall}

theorem EndsClean.opened (url : String) (connection : Connection) (channel : Channel)
    (log : List ClientCall) : EndsClean url channel (log++opening url connection channel) :=
  ⟨log,_,rfl,.opened connection⟩

theorem EndsClean.confirmed (h : EndsClean url channel log) (request : PublishRequest) :
    EndsClean url channel (log++[⟨.basicPublish channel request,plainAck⟩]) := by
  obtain ⟨earlier,since,rfl,hclean⟩ := h
  exact ⟨earlier,_,List.append_assoc ..,hclean.confirmed request⟩

/-- `connect` publishes nothing. -/
theorem Connects.not_publish {observed : List ClientCall}
    {result : Except OutboxError (Connection × Channel)} (h : Connects url observed result) :
    ∀ c ∈ observed, ∀ channel request answer, c ≠ ⟨.basicPublish channel request,answer⟩ := by
  intro c hc channel request answer he
  cases h <;> simp [opening,he] at hc

/-- A log is continued by calls that publish nothing. -/
theorem Preceded.connects {observed : List ClientCall}
    {result : Except OutboxError (Connection × Channel)} (h : Preceded (OverClean url) log)
    (hconnects : Connects url observed result) : Preceded (OverClean url) (log++observed) := by
  refine h.append fun before c after he channel request answer hc => ?_
  have hmem : c ∈ observed := by
    rw [he]
    exact List.mem_append_right _ List.mem_cons_self
  exact absurd hc (hconnects.not_publish c hmem channel request answer)

/-- A publication over a clean channel, after which the channel is kept if it was confirmed. -/
theorem Inv.publish (h : Preceded (OverClean url) log) (hclean : EndsClean url channel log)
    (connection : Connection) (request : PublishRequest)
    (answer : Timed (Except LapinError PublisherConfirm)) :
    Inv url (if (publishResult answer).isOk then some (connection,channel) else none)
      (log++[⟨.basicPublish channel request,answer⟩]) where
  kept := by
    intro connection' channel' he
    split at he
    · next hok =>
      cases he
      cases hr : publishResult answer with
      | error e =>
        rw [hr] at hok
        cases hok
      | ok u =>
        obtain rfl := publishResult_eq_ok.mp hr
        exact hclean.confirmed request
    · cases he
  published := by
    refine h.concat fun channel' request' answer' he => ?_
    cases he
    exact hclean

variable {p : ConfirmedAmqpPublisher} {envelope : OutboundMessageEnvelope} {held kept : Held}
  {observed : List ClientCall} {result : Except OutboxError Unit}

/-- A call of `publish_async` keeps the invariant. -/
theorem Inv.publishes (h : Inv p.url held log)
    (hp : Publishes p envelope held observed result kept) : Inv p.url kept (log++observed) := by
  cases hp with
  | unopened hconnects =>
    refine ⟨fun connection channel he => ?_,h.published.connects hconnects⟩
    cases he
  | opened connection channel answer =>
    rw [← List.append_assoc]
    exact .publish (h.published.connects (.opened connection channel))
      (.opened p.url connection channel log) connection _ answer
  | kept connection channel answer =>
    exact .publish h.published (h.kept connection channel rfl) connection _ answer

end Invariant

section Confirmed

/-- A publication that opens a connection first: that fails, or the message is published over the
new connection. -/
def Reopens (p : ConfirmedAmqpPublisher) (c : Publication) : Prop :=
  (∃ e, Connects p.url c.observed (.error e)) ∨ ∃ connection channel answer,
    c.observed = opening p.url connection channel++
      [⟨.basicPublish channel (p.request c.envelope),answer⟩]

/-- A call that publishes. -/
def ClientCall.publishes : ClientCall → Bool
  | ⟨.basicPublish _ _,_⟩ => true
  | _ => false

/-- What the calls of a confirmed publisher keep to. -/
structure Confirms (p : ConfirmedAmqpPublisher) (calls : List Publication) : Prop where
  /-- Every call returns. -/
  returns : ∀ c ∈ calls, ∃ result, c.result = some result
  /-- `Ok` says that the broker acknowledged this message in time and returned nothing. -/
  confirmed : ∀ c ∈ calls, c.result = some (.ok ()) ↔
    ∃ channel, ⟨.basicPublish channel (p.request c.envelope),plainAck⟩ ∈ c.observed
  /-- A connection is kept exactly after `Ok`. -/
  kept : ∀ c ∈ calls, c.kept.isSome = true ↔ c.result = some (.ok ())
  /-- Nothing but confirmed publications happened on the channel of a publication since it was
  opened and set to confirm. -/
  clean : ∀ before channel request answer after,
    calls.flatMap Publication.observed = before++⟨.basicPublish channel request,answer⟩::after →
      EndsClean p.url channel before
  /-- The first call, and the first one after a failure, opens a new connection. -/
  reopens : ∀ before c after, calls = before++c::after →
    (∀ last, before.getLast? = some last → last.result ≠ some (.ok ())) → Reopens p c
  /-- Each call publishes its message, at most once, and nothing else. -/
  once : ∀ c ∈ calls, (c.observed.filter ClientCall.publishes).length ≤ 1 ∧
    ∀ channel request answer, ⟨.basicPublish channel request,answer⟩ ∈ c.observed →
      request = p.request c.envelope

section Call

variable {p : ConfirmedAmqpPublisher} {envelope : OutboundMessageEnvelope} {held kept : Held}
  {observed : List ClientCall} {result : Except OutboxError Unit}

theorem Publishes.confirmed (h : Publishes p envelope held observed result kept) :
    result = .ok () ↔
      ∃ channel, ⟨.basicPublish channel (p.request envelope),plainAck⟩ ∈ observed := by
  cases h with
  | unopened hconnects =>
    refine iff_of_false (fun he => by cases he) ?_
    rintro ⟨channel,hc⟩
    exact hconnects.not_publish _ hc channel _ _ rfl
  | opened connection channel answer =>
    rw [publishResult_eq_ok]
    simp [opening,eq_comm]
  | kept connection channel answer =>
    rw [publishResult_eq_ok]
    simp [eq_comm]

theorem Publishes.kept_iff (h : Publishes p envelope held observed result kept) :
    kept.isSome = true ↔ result = .ok () := by
  cases h with
  | unopened _ => simp
  | opened connection channel answer =>
    cases publishResult answer <;> simp [Except.isOk,Except.toBool]
  | kept connection channel answer =>
    cases publishResult answer <;> simp [Except.isOk,Except.toBool]

theorem Publishes.once (h : Publishes p envelope held observed result kept) :
    (observed.filter ClientCall.publishes).length ≤ 1 ∧
      ∀ channel request answer, ⟨.basicPublish channel request,answer⟩ ∈ observed →
        request = p.request envelope := by
  cases h with
  | unopened hconnects =>
    refine ⟨?_,fun channel request answer hc => ?_⟩
    · cases hconnects <;> exact Nat.zero_le 1
    · exact absurd rfl (hconnects.not_publish _ hc channel request answer)
  | opened connection channel answer =>
    refine ⟨Nat.le_refl 1,fun channel' request answer' hc => ?_⟩
    rcases List.mem_append.mp hc with hc | hc
    · have hopens : Connects p.url (opening p.url connection channel) (.ok (connection,channel)) :=
        .opened connection channel
      exact absurd rfl (hopens.not_publish _ hc channel' request answer')
    · cases List.mem_singleton.mp hc
      rfl
  | kept connection channel answer =>
    refine ⟨Nat.le_refl 1,fun channel' request answer' hc => ?_⟩
    cases List.mem_singleton.mp hc
    rfl

/-- Without a connection, one is opened first. -/
theorem Publishes.reopens (h : Publishes p envelope none observed result kept) :
    (∃ e, Connects p.url observed (.error e)) ∨ ∃ connection channel answer,
      observed = opening p.url connection channel++
        [⟨.basicPublish channel (p.request envelope),answer⟩] := by
  cases h with
  | unopened hconnects => exact .inl ⟨_,hconnects⟩
  | opened connection channel answer => exact .inr ⟨connection,channel,answer,rfl⟩

end Call

variable {σ : Type} {client : Client σ} {p : ConfirmedAmqpPublisher}

/-- The connection that is kept after some calls. -/
def keptAfter (held : Held) (calls : List Publication) : Held :=
  calls.getLast?.elim held Publication.kept

theorem keptAfter_cons (held : Held) (c : Publication) (calls : List Publication) :
    keptAfter held (c::calls) = keptAfter c.kept calls := by
  rw [keptAfter,List.getLast?_cons,keptAfter]
  cases calls.getLast? <;> rfl

/-- Every call does what one call can do, over the connection that the call before it kept. -/
theorem publications_split {envelopes : List OutboundMessageEnvelope} {s : Keeping σ}
    {before after : List Publication} {c : Publication}
    (h : publications client p envelopes s = before++c::after) : ∃ result,
      c.result = some result ∧
        Publishes p c.envelope (keptAfter s.connection before) c.observed result c.kept := by
  induction envelopes generalizing s before with
  | nil =>
    rw [publications] at h
    simp at h
  | cons envelope rest ih =>
    obtain ⟨result,kept,world,observed,hreturns,hpublishes⟩ :=
      publishAsync_returns client p envelope s
    rw [publications,hreturns.run,hreturns.calls] at h
    cases before with
    | nil =>
      cases h
      exact ⟨result,rfl,hpublishes⟩
    | cons first before =>
      obtain ⟨rfl,hrest⟩ := List.cons.inj h
      rw [keptAfter_cons]
      exact ih hrest

theorem publications_mem {envelopes : List OutboundMessageEnvelope} {s : Keeping σ}
    {c : Publication} (h : c ∈ publications client p envelopes s) : ∃ result held,
      c.result = some result ∧ Publishes p c.envelope held c.observed result c.kept := by
  obtain ⟨before,after,he⟩ := List.append_of_mem h
  obtain ⟨result,hr,hp⟩ := publications_split he
  exact ⟨result,_,hr,hp⟩

variable (client) in
/-- The invariant holds between any two calls. -/
theorem inv_publications (envelopes : List OutboundMessageEnvelope) (s : Keeping σ)
    {log : List ClientCall} (h : Inv p.url s.connection log) :
    Preceded (OverClean p.url)
      (log++(publications client p envelopes s).flatMap Publication.observed) := by
  induction envelopes generalizing s log with
  | nil =>
    rw [publications,List.flatMap_nil,List.append_nil]
    exact h.published
  | cons envelope rest ih =>
    obtain ⟨result,kept,world,observed,hreturns,hpublishes⟩ :=
      publishAsync_returns client p envelope s
    rw [publications,hreturns.run,hreturns.calls,List.flatMap_cons,← List.append_assoc]
    exact ih ⟨kept,world⟩ (h.publishes hpublishes)

/-- A confirmed publisher, which is new at first, keeps to it: for any messages, and whatever the
client answers. -/
theorem confirmed_publishing (p : ConfirmedAmqpPublisher)
    (client : Client σ) (world : σ) (envelopes : List OutboundMessageEnvelope) :
    Confirms p (publications client p envelopes ⟨none,world⟩) where
  returns := by
    intro c hc
    obtain ⟨result,_,hr,_⟩ := publications_mem hc
    exact ⟨result,hr⟩
  confirmed := by
    intro c hc
    obtain ⟨result,held,hr,hp⟩ := publications_mem hc
    rw [hr,Option.some.injEq]
    exact hp.confirmed
  kept := by
    intro c hc
    obtain ⟨result,held,hr,hp⟩ := publications_mem hc
    rw [hr,Option.some.injEq]
    exact hp.kept_iff
  clean := by
    intro before channel request answer after he
    have hinv : Inv p.url none [] := ⟨fun _ _ he => (by cases he),preceded_nil⟩
    have hlog := inv_publications client envelopes ⟨none,world⟩ hinv
    exact hlog before _ after he channel request answer rfl
  reopens := by
    intro before c after he hlast
    obtain ⟨result,hr,hp⟩ := publications_split he
    have hnone : keptAfter none before = none := by
      rw [keptAfter]
      cases hb : before.getLast? with
      | none => rfl
      | some last =>
        have hmem : last ∈ publications client p envelopes ⟨none,world⟩ := by
          rw [he]
          exact List.mem_append_left _ (List.mem_of_getLast? hb)
        obtain ⟨result',held,hr',hp'⟩ := publications_mem hmem
        have hne : result' ≠ .ok () := fun hok => hlast last hb (hr'.trans (congrArg some hok))
        have hkept := mt hp'.kept_iff.mp hne
        simpa using hkept
    rw [hnone] at hp
    exact hp.reopens
  once := by
    intro c hc
    obtain ⟨result,held,hr,hp⟩ := publications_mem hc
    exact hp.once

end Confirmed

end Mulac.ConfirmedPublishing
