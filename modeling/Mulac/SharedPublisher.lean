import Mulac.ConfirmedPublishing
import Mulac.Interference

/-!
# A publisher that is shared

`publish_async` called by any number of callers at once. Its mutex hands the
connection from one to the next, and a caller may drop the future at any await:
the guard then leaves behind the lock what it holds, a connection only if a
publication was under way. What a kept channel has seen is still nothing but
confirmed publications and those that were abandoned, and each caller is told
about its own.
-/

namespace Mulac.SharedPublisher

open Envelopes PanicProgram Interference AmqpPublishing ConfirmedAmqpPublisher ConfirmedPublishing

section System

/-- A call of the client that a caller awaited; without an answer it was abandoned there. -/
structure Awaited where
  /-- The caller. -/
  caller : ℕ
  /-- The call. -/
  op : ClientOp
  /-- What it came to. -/
  answer : Option (Timed (Except LapinError op.Answer))

/-- What a caller was told. -/
structure Report where
  /-- The caller. -/
  caller : ℕ
  /-- Its message. -/
  envelope : OutboundMessageEnvelope
  /-- What the publication returned. -/
  result : Except OutboxError Unit

/-- A publisher and the client behind it. -/
structure Shared where
  /-- Who has the guard. -/
  holder : Option ℕ
  /-- What is behind the lock. -/
  connection : Held
  /-- The calls of the client, in order. -/
  log : List Awaited
  /-- What the callers were told. -/
  reports : List Report

/-- A publisher as `new` makes it. -/
def Shared.new : Shared := ⟨none,none,[],[]⟩

/-- The calls of a caller. -/
inductive CallerOp where
  /-- A call of the publisher. -/
  | publisher (op : PublisherOp)
  /-- The publication returns. -/
  | report (envelope : OutboundMessageEnvelope) (result : Except OutboxError Unit)

/-- What a call returns. -/
abbrev CallerOp.Reply : CallerOp → Type
  | publisher op => op.Reply
  | report _ _ => Unit

/-- A call of the publisher, made by a caller. -/
def send (op : PublisherOp) : Prog CallerOp CallerOp.Reply op.Reply :=
  Prog.perform (CallerOp.publisher op)

/-- A publication, and what its caller is told. -/
def reported (publication : Prog CallerOp CallerOp.Reply (Except OutboxError Unit))
    (envelope : OutboundMessageEnvelope) : Prog CallerOp CallerOp.Reply Unit := do
  let result ← publication
  Prog.perform (CallerOp.report envelope result)

/-- What a guard holds at an await: the connection that is published over, or nothing yet. -/
def Leaves : ClientOp → Held → Prop
  | .basicPublish channel _,left => ∃ connection, left = some (connection,channel)
  | _,left => left = none

/-- What a call may answer and leave; no answer means that the future was dropped at the await. -/
inductive Performs (i : ℕ) (w : Shared) :
    (op : CallerOp) → Option op.Reply → Shared → Prop
  /-- There may be a runtime. -/
  | tryCurrent (present : Bool) : Performs i w (.publisher .tryCurrent) (some present) w
  /-- The lock is taken when it is free. -/
  | lock : w.holder = none →
    Performs i w (.publisher .lock) (some w.connection) { w with holder := some i }
  /-- The future is dropped while it waits for the lock. -/
  | unqueued : Performs i w (.publisher .lock) none w
  /-- The guard is dropped. -/
  | unlock (left : Held) : Performs i w (.publisher (.unlock left)) (some ())
    { w with holder := none, connection := left }
  /-- The client answers, or the timeout strikes. -/
  | answered (op : ClientOp) (answer : Timed (Except LapinError op.Answer)) :
    Performs i w (.publisher (.timed op)) (some answer)
      { w with log := w.log++[⟨i,op,some answer⟩] }
  /-- The future is dropped, and the guard with it. -/
  | dropped (op : ClientOp) (left : Held) : Leaves op left →
    Performs i w (.publisher (.timed op)) none
      { w with holder := none, connection := left, log := w.log++[⟨i,op,none⟩] }
  /-- The caller is told. -/
  | report (envelope : OutboundMessageEnvelope) (result : Except OutboxError Unit) :
    Performs i w (.report envelope result) (some ())
      { w with reports := w.reports++[⟨i,envelope,result⟩] }

/-- The programs of the callers. -/
inductive IsPublication (p : ConfirmedAmqpPublisher) : Prog CallerOp CallerOp.Reply Unit → Prop
  /-- `publish_async`. -/
  | async (envelope : OutboundMessageEnvelope) :
    IsPublication p (reported (p.publishAsync send envelope) envelope)
  /-- `OutboxPublisherPort::publish`. -/
  | blocking (envelope : OutboundMessageEnvelope) :
    IsPublication p (reported (p.publish send envelope) envelope)

/-- The callers of one publisher. -/
def callers (p : ConfirmedAmqpPublisher) : Team CallerOp CallerOp.Reply Shared where
  perform := fun i op w reply w' => Performs i w op reply w'
  outside := fun _ _ => False
  programs := IsPublication p

end System

section Contract

/-- A call that publishes. -/
def Awaited.publishes (a : Awaited) : Bool :=
  match a.op with
  | .basicPublish _ _ => true
  | _ => false

/-- The caller published this message, and the broker acknowledged it in time and returned
nothing. -/
def Acknowledged (p : ConfirmedAmqpPublisher) (i : ℕ) (envelope : OutboundMessageEnvelope)
    (log : List Awaited) : Prop :=
  ∃ channel, ⟨i,.basicPublish channel (p.request envelope),some plainAck⟩ ∈ log

/-- The calls on a channel since it was opened: publications that were confirmed, and others that
were abandoned. -/
inductive Used (url : String) (channel : Channel) : List Awaited → Prop
  /-- One caller opened the channel and set it to confirm. -/
  | opened (i : ℕ) (connection : Connection) : Used url channel
    [⟨i,.connect url,some (.done (.ok connection))⟩,
      ⟨i,.createChannel connection,some (.done (.ok channel))⟩,
      ⟨i,.confirmSelect channel,some (.done (.ok ()))⟩]
  /-- A message was published and confirmed. -/
  | confirmed {since : List Awaited} (i : ℕ) (request : PublishRequest) : Used url channel since →
    Used url channel (since++[⟨i,.basicPublish channel request,some plainAck⟩])
  /-- A publication was abandoned. -/
  | abandoned {since : List Awaited} (i : ℕ) (request : PublishRequest) : Used url channel since →
    Used url channel (since++[⟨i,.basicPublish channel request,none⟩])

/-- The latest calls of the client are those on the channel since it was opened. -/
def EndsUsed (url : String) (channel : Channel) (log : List Awaited) : Prop :=
  ∃ earlier since, log = earlier++since ∧ Used url channel since

/-- A publication stands after nothing but the calls on its channel. -/
def OverUsed (url : String) (log : List Awaited) (a : Awaited) : Prop :=
  ∀ channel request, a.op = .basicPublish channel request → EndsUsed url channel log

/-- What holds of a shared publisher at any time. -/
structure Sharing (p : ConfirmedAmqpPublisher) (w : Shared) : Prop where
  /-- The channel behind the free lock has seen no failure since it was opened, and nobody has
  called the client since. -/
  idle : w.holder = none → ∀ connection channel, w.connection = some (connection,channel) →
    EndsUsed p.url channel w.log
  /-- The same holds of a channel when something is published over it. -/
  published : Preceded (OverUsed p.url) w.log
  /-- A caller publishes at most once. -/
  once : ∀ i, (w.log.filter fun a => a.caller = i && a.publishes).length ≤ 1
  /-- A caller is told `Ok` exactly if its own message was acknowledged in time and not
  returned. -/
  reports : ∀ r ∈ w.reports, r.result = .ok () ↔ Acknowledged p r.caller r.envelope w.log

end Contract

section Guard

variable {p : ConfirmedAmqpPublisher} {i j : ℕ} {w w' w'' : Shared} {l : List Awaited}

/-- What a caller awaited, and whether it was told anything. -/
structure Own (i : ℕ) (w : Shared) (l : List Awaited) : Prop where
  /-- Its calls of the client. -/
  log : w.log.filter (fun a => a.caller = i) = l
  /-- It was told nothing yet. -/
  silent : ∀ r ∈ w.reports, r.caller ≠ i

/-- What a caller may rely on between its calls. -/
structure Rely (i : ℕ) (w w' : Shared) : Prop where
  /-- While it has the guard nobody else calls the client. -/
  guarded : w.holder = some i → w'.holder = some i ∧ w'.log = w.log
  /-- Nobody gives it the guard. -/
  free : w.holder ≠ some i → w'.holder ≠ some i
  /-- Nobody acts in its name. -/
  own : ∀ l, Own i w l → Own i w' l

theorem Rely.refl (i : ℕ) (w : Shared) : Rely i w w := ⟨fun h => ⟨h,rfl⟩,id,fun _ => id⟩

theorem Rely.trans (h : Rely i w w') (h' : Rely i w' w'') : Rely i w w'' where
  guarded := by
    intro hw
    obtain ⟨hw',hl⟩ := h.guarded hw
    obtain ⟨hw'',hl'⟩ := h'.guarded hw'
    exact ⟨hw'',hl'.trans hl⟩
  free := fun hw => h'.free (h.free hw)
  own := fun l hl => h'.own l (h.own l hl)

/-- What a caller owes before a call: it calls the client only under the guard and as long as it
was told nothing, publishes at most once and over a channel without failures, leaves no other
channel behind, and is told the truth. -/
def Owes (p : ConfirmedAmqpPublisher) (i : ℕ) (op : CallerOp) (w : Shared) : Prop :=
  match op with
  | .publisher (.timed op) => w.holder = some i ∧ ∃ l, Own i w l ∧
    ∀ channel request, op = .basicPublish channel request →
      EndsUsed p.url channel w.log ∧ ∀ a ∈ l, a.publishes = false
  | .publisher (.unlock left) => w.holder = some i ∧
    ∀ connection channel, left = some (connection,channel) → EndsUsed p.url channel w.log
  | .report envelope result => result = .ok () ↔ Acknowledged p i envelope w.log
  | _ => True

/-- Someone else's call of the client is none of the caller's. -/
theorem Own.append (h : Own i w l) {a : Awaited} (ha : a.caller ≠ i) (holder : Option ℕ)
    (connection : Held) : Own i ⟨holder,connection,w.log++[a],w.reports⟩ l where
  log := by
    have hnone : [a].filter (fun a => a.caller = i) = [] := by simp [ha]
    rw [List.filter_append,hnone,List.append_nil]
    exact h.log
  silent := h.silent

/-- A call of the caller is one more. -/
theorem Own.concat (h : Own i w l) (op : ClientOp)
    (answer : Option (Timed (Except LapinError op.Answer))) (holder : Option ℕ)
    (connection : Held) :
    Own i ⟨holder,connection,w.log++[⟨i,op,answer⟩],w.reports⟩ (l++[⟨i,op,answer⟩]) where
  log := by
    have hone : [(⟨i,op,answer⟩ : Awaited)].filter (fun a => a.caller = i) =
        [⟨i,op,answer⟩] := by simp
    rw [List.filter_append,hone]
    exact congrArg (·++_) h.log
  silent := h.silent

/-- Whether a caller's message was acknowledged can be read off its own calls. -/
theorem Own.acknowledged (h : Own i w l) (envelope : OutboundMessageEnvelope) :
    Acknowledged p i envelope w.log ↔ Acknowledged p i envelope l := by
  refine exists_congr fun channel => ?_
  rw [← h.log,List.mem_filter]
  simp

/-- The others may rely on a call whose debt is paid. -/
theorem Performs.rely {op : CallerOp} {reply : Option op.Reply} (h : Performs i w op reply w')
    (ho : Owes p i op w) (hj : j ≠ i) : Rely j w w' := by
  have hi : some i ≠ some j := fun he => hj (Option.some.inj he).symm
  cases h with
  | tryCurrent present => exact .refl j w
  | lock hfree =>
    refine ⟨fun he => ?_,fun _ he => hi he,fun l hl => ⟨hl.log,hl.silent⟩⟩
    rw [hfree] at he
    cases he
  | unqueued => exact .refl j w
  | unlock left =>
    refine ⟨fun he => absurd (ho.1.symm.trans he) hi,fun _ he => ?_,fun l hl => ⟨hl.log,hl.silent⟩⟩
    cases he
  | answered op answer =>
    exact ⟨fun he => absurd (ho.1.symm.trans he) hi,id,fun l hl => hl.append hj.symm _ _⟩
  | dropped op left hleft =>
    refine ⟨fun he => absurd (ho.1.symm.trans he) hi,fun _ he => ?_,
      fun l hl => hl.append hj.symm _ _⟩
    cases he
  | report envelope result =>
    refine ⟨fun he => ⟨he,rfl⟩,id,fun l hl => ⟨hl.log,fun r hr => ?_⟩⟩
    rcases List.mem_append.mp hr with hr | hr
    · exact hl.silent r hr
    · obtain rfl := List.mem_singleton.mp hr
      exact hj.symm

end Guard

section Invariant

variable {p : ConfirmedAmqpPublisher} {i : ℕ} {w w' : Shared}

/-- A call of the client by the holder of the guard: the log goes on, over a channel without
failures if the call publishes, and nobody's report is touched. -/
theorem Sharing.concat (h : Sharing p w) {op : ClientOp}
    (ho : Owes p i (.publisher (.timed op)) w)
    (answer : Option (Timed (Except LapinError op.Answer))) {holder : Option ℕ} {left : Held}
    (hidle : holder = none → ∀ connection channel, left = some (connection,channel) →
      EndsUsed p.url channel (w.log++[⟨i,op,answer⟩])) :
    Sharing p ⟨holder,left,w.log++[⟨i,op,answer⟩],w.reports⟩ where
  idle := hidle
  published := by
    refine h.published.concat fun channel request he => ?_
    obtain ⟨_,_,_,hpublish⟩ := ho
    exact (hpublish channel request he).1
  once := by
    intro k
    rw [List.filter_append,List.length_append]
    have hk := h.once k
    by_cases hnew : (decide (i = k) && (⟨i,op,answer⟩ : Awaited).publishes) = true
    · obtain ⟨hik,hp⟩ := Bool.and_eq_true_iff.mp hnew
      obtain rfl := of_decide_eq_true hik
      obtain ⟨_,l,hown,hpublish⟩ := ho
      cases op with
      | basicPublish channel request =>
        have hnone : w.log.filter (fun a => decide (a.caller = i) && a.publishes) = [] := by
          rw [List.filter_eq_nil_iff]
          intro a ha hboth
          obtain ⟨hcaller,hp⟩ := Bool.and_eq_true_iff.mp hboth
          have hmem : a ∈ l := hown.log ▸ List.mem_filter.mpr ⟨ha,hcaller⟩
          rw [(hpublish channel request rfl).2 a hmem] at hp
          cases hp
        rw [hnone,List.length_nil,Nat.zero_add]
        exact List.length_filter_le _ [_]
      | connect url => cases hp
      | createChannel connection => cases hp
      | confirmSelect channel => cases hp
    · have hnone : [(⟨i,op,answer⟩ : Awaited)].filter
          (fun a => decide (a.caller = k) && a.publishes) = [] := by
        rw [List.filter_eq_nil_iff]
        intro a ha
        obtain rfl := List.mem_singleton.mp ha
        exact hnew
      rw [hnone]
      exact hk
  reports := by
    intro r hr
    obtain ⟨_,l,hown,_⟩ := ho
    have hne : r.caller ≠ i := hown.silent r hr
    rw [h.reports r hr]
    refine exists_congr fun channel => ?_
    rw [List.mem_append,List.mem_singleton,or_iff_left]
    rintro he
    exact hne (congrArg Awaited.caller he)

/-- What a dropped guard leaves is the channel of the publication that was under way. -/
theorem endsUsed_of_dropped {op : ClientOp} {left : Held} (hleft : Leaves op left)
    (ho : Owes p i (.publisher (.timed op)) w) (connection : Connection) (channel : Channel)
    (he : left = some (connection,channel)) : EndsUsed p.url channel (w.log++[⟨i,op,none⟩]) := by
  subst he
  cases op with
  | basicPublish channel' request =>
    obtain ⟨connection',hc⟩ := hleft
    cases hc
    obtain ⟨_,_,_,hpublish⟩ := ho
    obtain ⟨earlier,since,hlog,hused⟩ := (hpublish channel request rfl).1
    exact ⟨earlier,_,by rw [hlog,List.append_assoc],hused.abandoned i request⟩
  | connect url => cases hleft
  | createChannel connection => cases hleft
  | confirmSelect channel => cases hleft

/-- A call whose debt is paid keeps the invariant. -/
theorem Sharing.call {op : CallerOp} {reply : Option op.Reply} (h : Sharing p w)
    (ho : Owes p i op w) (hs : Performs i w op reply w') : Sharing p w' := by
  cases hs with
  | tryCurrent present => exact h
  | lock hfree => exact ⟨fun he => (by cases he),h.published,h.once,h.reports⟩
  | unqueued => exact h
  | unlock left => exact ⟨fun _ => ho.2,h.published,h.once,h.reports⟩
  | answered op answer =>
    refine h.concat ho (some answer) fun he => ?_
    rw [ho.1] at he
    cases he
  | dropped op left hleft => exact h.concat ho none fun _ => endsUsed_of_dropped hleft ho
  | report envelope result =>
    refine ⟨h.idle,h.published,h.once,fun r hr => ?_⟩
    rcases List.mem_append.mp hr with hr | hr
    · exact h.reports r hr
    · obtain rfl := List.mem_singleton.mp hr
      exact ho

/-- A caller that has not started. -/
def Unstarted (i : ℕ) (w : Shared) : Prop := w.holder ≠ some i ∧ Own i w []

variable (p) in
/-- What the callers owe to each other is enough for the invariant. -/
def discipline : (callers p).Discipline where
  rely := Rely
  inv := Sharing p
  owes := Owes p
  new := Unstarted
  rely_refl := Rely.refl
  rely_trans := Rely.trans
  new_rely := fun hn hr => ⟨hr.free hn.1,hr.own _ hn.2⟩
  call_inv := fun hi ho hs => hi.call ho hs
  call_rely := fun _ ho hs hj => hs.rely ho hj
  outside_inv := fun _ hf => hf.elim
  outside_rely := fun _ hf => hf.elim

end Invariant

section Publications

variable {p : ConfirmedAmqpPublisher} {i : ℕ} {w : Shared}

/-- The caller has the guard and was told nothing; `log` is what the client was called for so far,
and `l` the caller's part of it. -/
structure Inside (i : ℕ) (log l : List Awaited) (w : Shared) : Prop where
  /-- It has the guard. -/
  holder : w.holder = some i
  /-- Nobody else calls the client. -/
  log : w.log = log
  /-- Its own calls. -/
  own : Own i w l

theorem Inside.rely {log l : List Awaited} {w' : Shared} (h : Inside i log l w)
    (hr : Rely i w w') : Inside i log l w' :=
  ⟨(hr.guarded h.holder).1,(hr.guarded h.holder).2.trans h.log,hr.own l h.own⟩

/-- The rule of an awaited call. -/
theorem safe_awaited {log l : List Awaited} (h : Inside i log l w) (op : ClientOp)
    (hpublish : ∀ channel request, op = .basicPublish channel request →
      EndsUsed p.url channel log ∧ ∀ a ∈ l, a.publishes = false) :
    Safe ((discipline p).rules i) (awaited send op) (fun o v => ∀ result, o = some result →
      ∃ answer, result = timedResult answer ∧
        Inside i (log++[⟨i,op,some answer⟩]) (l++[⟨i,op,some answer⟩]) v) w := by
  have hcall : Safe ((discipline p).rules i) (send (.timed op)) (fun o v => ∀ answer,
      o = some answer → Inside i (log++[⟨i,op,some answer⟩]) (l++[⟨i,op,some answer⟩]) v) w := by
    refine Safe.perform fun v hv _ => ?_
    have hin := h.rely hv
    refine ⟨⟨hin.holder,l,hin.own,hin.log.symm ▸ hpublish⟩,?_⟩
    rintro reply v' hs - u hu - answer rfl
    cases hs with
    | answered _ _ =>
      have hnext : Inside i (log++[⟨i,op,some answer⟩]) (l++[⟨i,op,some answer⟩])
          { v with log := v.log++[⟨i,op,some answer⟩] } :=
        ⟨hin.holder,congrArg (·++_) hin.log,hin.own.concat op (some answer) _ _⟩
      exact hnext.rely hu
  refine Safe.bind (hcall.mono fun o v hin => ?_)
  rcases o with _ | (e | answer) | _
  · exact fun _ he => by cases he
  · rintro v' hv' - _ ⟨⟩
    exact ⟨.done (.error e),rfl,(hin _ rfl).rely hv'⟩
  · rintro v' hv' - _ ⟨⟩
    exact ⟨.done (.ok answer),rfl,(hin _ rfl).rely hv'⟩
  · rintro v' hv' - _ ⟨⟩
    exact ⟨.elapsed,rfl,(hin _ rfl).rely hv'⟩

/-- What the caller stands at once it has a connection. -/
def Connected (p : ConfirmedAmqpPublisher) (i : ℕ) (channel : Channel) (w : Shared) : Prop :=
  ∃ log l, Inside i log l w ∧ EndsUsed p.url channel log ∧ ∀ a ∈ l, a.publishes = false

/-- What it stands at without one. -/
def Unconnected (i : ℕ) (w : Shared) : Prop :=
  ∃ log l, Inside i log l w ∧ ∀ a ∈ l, a.publishes = false

/-- A call that does not publish is added to calls that do not. -/
theorem silent_concat {l : List Awaited} (h : ∀ a ∈ l, a.publishes = false) {a : Awaited}
    (ha : a.publishes = false) : ∀ b ∈ l++[a], b.publishes = false := by
  intro b hb
  rcases List.mem_append.mp hb with hb | hb
  · exact h b hb
  · obtain rfl := List.mem_singleton.mp hb
    exact ha

/-- The rule of `connect`: what it returns is a channel that was opened just now. -/
theorem safe_connect {log l : List Awaited} (h : Inside i log l w)
    (hl : ∀ a ∈ l, a.publishes = false) :
    Safe ((discipline p).rules i) (p.connect send) (fun o v => ∀ result, o = some result →
      match result with
      | .ok (_,channel) => Connected p i channel v
      | .error _ => Unconnected i v) w := by
  refine Safe.bind ((safe_awaited h (.connect p.url) fun _ _ he => by cases he).mono ?_)
  rintro (_ | opened) v₁ hopened
  · exact fun _ he => by cases he
  obtain ⟨answer,rfl,hin₁⟩ := hopened _ rfl
  have hl₁ := silent_concat hl (a:=⟨i,.connect p.url,some answer⟩) rfl
  cases ho : timedResult answer with
  | error e =>
    rintro v hv - _ ⟨⟩
    exact ⟨_,_,hin₁.rely hv,hl₁⟩
  | ok connection =>
    obtain rfl := timedResult_eq_ok.mp ho
    refine Safe.bind ((safe_awaited hin₁ (.createChannel connection) fun _ _ he => by
      cases he).mono ?_)
    rintro (_ | created) v₂ hcreated
    · exact fun _ he => by cases he
    obtain ⟨answer,rfl,hin₂⟩ := hcreated _ rfl
    have hl₂ := silent_concat hl₁ (a:=⟨i,.createChannel connection,some answer⟩) rfl
    cases hc : timedResult answer with
    | error e =>
      rintro v hv - _ ⟨⟩
      exact ⟨_,_,hin₂.rely hv,hl₂⟩
    | ok channel =>
      obtain rfl := timedResult_eq_ok.mp hc
      refine Safe.bind ((safe_awaited hin₂ (.confirmSelect channel) fun _ _ he => by
        cases he).mono ?_)
      rintro (_ | selected) v₃ hselected
      · exact fun _ he => by cases he
      obtain ⟨answer,rfl,hin₃⟩ := hselected _ rfl
      have hl₃ := silent_concat hl₂ (a:=⟨i,.confirmSelect channel,some answer⟩) rfl
      rintro v hv - _ ⟨⟩
      cases hs : timedResult answer with
      | error e => exact ⟨_,_,hin₃.rely hv,hl₃⟩
      | ok u =>
        obtain rfl := timedResult_eq_ok.mp hs
        refine ⟨_,_,hin₃.rely hv,⟨log,_,?_,.opened i connection⟩,hl₃⟩
        simp

/-- Who has published nothing has nothing acknowledged. -/
theorem not_acknowledged {l : List Awaited} (h : ∀ a ∈ l, a.publishes = false)
    (envelope : OutboundMessageEnvelope) : ¬Acknowledged p i envelope l := by
  rintro ⟨channel,hc⟩
  cases h _ hc

/-- A first publication is acknowledged by its own answer. -/
theorem acknowledged_concat {l : List Awaited} (h : ∀ a ∈ l, a.publishes = false)
    (envelope : OutboundMessageEnvelope) (channel : Channel)
    (answer : Timed (Except LapinError PublisherConfirm)) :
    Acknowledged p i envelope (l++[⟨i,.basicPublish channel (p.request envelope),some answer⟩]) ↔
      answer = plainAck := by
  constructor
  · rintro ⟨channel',hc⟩
    rcases List.mem_append.mp hc with hc | hc
    · cases h _ hc
    · cases List.mem_singleton.mp hc
      rfl
  · rintro rfl
    exact ⟨channel,List.mem_append_right _ (List.mem_singleton_self _)⟩

/-- Where the block under the timeout ends: the result tells whether the message was acknowledged,
and after a success the channel is as good as before. -/
def Attempted (p : ConfirmedAmqpPublisher) (i : ℕ) (envelope : OutboundMessageEnvelope)
    (left : Held) (result : Except OutboxError Unit) (w : Shared) : Prop :=
  ∃ log l, Inside i log l w ∧ (result = .ok () ↔ Acknowledged p i envelope l) ∧
    (result = .ok () → ∀ connection channel, left = some (connection,channel) →
      EndsUsed p.url channel log)

theorem Attempted.rely {envelope : OutboundMessageEnvelope} {left : Held}
    {result : Except OutboxError Unit} {w' : Shared} (h : Attempted p i envelope left result w)
    (hr : Rely i w w') : Attempted p i envelope left result w' := by
  obtain ⟨log,l,hin,hrest⟩ := h
  exact ⟨log,l,hin.rely hr,hrest⟩

/-- The rule of the block under the timeout. -/
theorem safe_attempt {log l : List Awaited} (h : Inside i log l w)
    (hl : ∀ a ∈ l, a.publishes = false) (envelope : OutboundMessageEnvelope) {held : Held}
    (hheld : ∀ connection channel, held = some (connection,channel) →
      EndsUsed p.url channel log) :
    Safe ((discipline p).rules i) (p.attempt send envelope held) (fun o v => ∀ left result,
      o = some (left,result) → Attempted p i envelope left result v) w := by
  have hconnected : Safe ((discipline p).rules i) (p.connected send held) (fun o v => ∀ result,
      o = some result →
        match result with
        | .ok (_,channel) => Connected p i channel v
        | .error _ => Unconnected i v) w := by
    rcases held with _ | ⟨connection,channel⟩
    · exact safe_connect h hl
    · rintro v hv - _ ⟨⟩
      exact ⟨log,l,h.rely hv,hheld connection channel rfl,hl⟩
  refine Safe.bind (hconnected.mono ?_)
  rintro (_ | error | ⟨connection,channel⟩) v hpost
  · exact fun _ _ he => by cases he
  · obtain ⟨log',l',hin,hl'⟩ := hpost _ rfl
    rintro v' hv' - _ _ ⟨⟩
    exact ⟨log',l',hin.rely hv',
      iff_of_false (fun he => by cases he) (not_acknowledged hl' envelope),
      fun he => by cases he⟩
  · obtain ⟨log',l',hin,hends,hl'⟩ := hpost _ rfl
    refine Safe.bind ((safe_awaited hin (.basicPublish channel (p.request envelope))
      fun channel' request he => by cases he; exact ⟨hends,hl'⟩).mono ?_)
    rintro (_ | result) v₁ hawaited
    · exact fun _ _ he => by cases he
    · obtain ⟨answer,rfl,hin₁⟩ := hawaited _ rfl
      have hdone : Attempted p i envelope (some (connection,channel)) (publishResult answer)
          v₁ := by
        refine ⟨_,_,hin₁,publishResult_eq_ok.trans
          (acknowledged_concat hl' envelope channel answer).symm,
          fun hok connection' channel' he => ?_⟩
        cases he
        obtain rfl := publishResult_eq_ok.mp hok
        obtain ⟨earlier,since,rfl,hused⟩ := hends
        exact ⟨earlier,_,List.append_assoc ..,hused.confirmed i _⟩
      rcases answer with ⟨e | e | confirmation⟩ | _ <;>
      · rintro v₂ hv₂ - _ _ ⟨⟩
        exact hdone.rely hv₂

/-- The rule of `publish_async`: it tells the truth about its message. -/
theorem safe_publishAsync (h : Unstarted i w) (envelope : OutboundMessageEnvelope) :
    Safe ((discipline p).rules i) (p.publishAsync send envelope) (fun o v => ∀ result,
      o = some result → ∃ l, Own i v l ∧ (result = .ok () ↔ Acknowledged p i envelope l)) w := by
  have hlock : Safe ((discipline p).rules i) (send .lock) (fun (o : Option Held) v => ∀ held,
      o = some held → ∃ log, Inside i log [] v ∧ ∀ connection channel,
        held = some (connection,channel) → EndsUsed p.url channel log) w := by
    refine Safe.perform fun v hv hi => ⟨trivial,?_⟩
    rintro reply v' hs - u hu - held rfl
    cases hs with
    | lock hfree =>
      have hin : Inside i v.log [] { v with holder := some i } :=
        ⟨rfl,rfl,⟨(Rely.own hv _ h.2).log,(Rely.own hv _ h.2).silent⟩⟩
      exact ⟨v.log,hin.rely hu,Sharing.idle hi hfree⟩
  refine Safe.bind (hlock.mono ?_)
  rintro (_ | held) v hpost
  · exact fun _ he => by cases he
  obtain ⟨log,hin,hheld⟩ := hpost held rfl
  refine Safe.bind ((safe_attempt hin (fun _ ha => by cases ha) envelope hheld).mono ?_)
  rintro (_ | ⟨left,result⟩) v₁ hattempt
  · exact fun _ he => by cases he
  have hdone := hattempt left result rfl
  have hunlock : Safe ((discipline p).rules i)
      (send (.unlock (if result.isOk then left else none)))
      (fun _ v => ∃ l, Own i v l ∧ (result = .ok () ↔ Acknowledged p i envelope l)) v₁ := by
    refine Safe.perform fun v₂ hv₂ _ => ?_
    obtain ⟨log',l',hin',hresult,hleft⟩ := hdone.rely hv₂
    refine ⟨⟨hin'.holder,fun connection channel he => ?_⟩,?_⟩
    · rw [hin'.log]
      split at he
      · next hok =>
        cases result with
        | error e => cases hok
        | ok u => exact hleft rfl connection channel he
      · cases he
    · rintro reply v₃ hs - u hu -
      cases hs with
      | unlock left => exact ⟨l',Rely.own hu _ ⟨hin'.own.log,hin'.own.silent⟩,hresult⟩
  refine Safe.bind (hunlock.mono ?_)
  rintro (_ | _) v₂ ⟨l',hown,hresult⟩
  · exact fun _ he => by cases he
  · rintro v₃ hv₃ - _ ⟨⟩
    exact ⟨l',Rely.own hv₃ _ hown,hresult⟩

/-- A publication that tells the truth may be reported. -/
theorem safe_reported {publication : Prog CallerOp CallerOp.Reply (Except OutboxError Unit)}
    {envelope : OutboundMessageEnvelope}
    (h : Safe ((discipline p).rules i) publication (fun o v => ∀ result, o = some result →
      ∃ l, Own i v l ∧ (result = .ok () ↔ Acknowledged p i envelope l)) w) :
    Safe ((discipline p).rules i) (reported publication envelope) (fun _ _ => True) w := by
  refine Safe.bind (h.mono ?_)
  rintro (_ | result) v hpost
  · trivial
  · refine Safe.perform fun v' hv' _ => ⟨?_,fun _ _ _ _ _ _ _ => trivial⟩
    obtain ⟨l,hown,hresult⟩ := hpost result rfl
    exact hresult.trans ((Rely.own hv' l hown).acknowledged envelope).symm

/-- Every program of a caller is safe when it starts. -/
theorem safe_isPublication {publication : Prog CallerOp CallerOp.Reply Unit}
    (hp : IsPublication p publication) (h : Unstarted i w) :
    Safe ((discipline p).rules i) publication (fun _ _ => True) w := by
  cases hp with
  | async envelope => exact safe_reported (safe_publishAsync h envelope)
  | blocking envelope =>
    refine safe_reported (Safe.bind ?_)
    refine Safe.perform fun v hv _ => ⟨trivial,?_⟩
    have hv' : Unstarted i v := ⟨Rely.free hv h.1,Rely.own hv _ h.2⟩
    rintro reply v' hs - u hu -
    cases hs with
    | tryCurrent present =>
      have hu' : Unstarted i u := ⟨Rely.free hu hv'.1,Rely.own hu _ hv'.2⟩
      cases present with
      | true => exact safe_publishAsync hu' envelope
      | false =>
        rintro x hx - _ ⟨⟩
        exact ⟨[],Rely.own hx _ hu'.2,iff_of_false (fun he => by cases he)
          (not_acknowledged (fun _ ha => by cases ha) envelope)⟩

end Publications

section Runs

variable {p : ConfirmedAmqpPublisher}

theorem sharing_new : Sharing p Shared.new where
  idle := fun _ _ _ he => by cases he
  published := preceded_nil
  once := fun _ => Nat.zero_le 1
  reports := fun r hr => by cases hr

/-- A shared publisher keeps its contract: whoever publishes at the same time, and wherever a
caller gives up. -/
theorem shared_publishing {s : Pool CallerOp CallerOp.Reply Shared}
    (h : (callers p).Reaches Shared.new s) : Sharing p s.world := by
  have hreach := (discipline p).reaches_safe sharing_new
    (fun i => ⟨fun he => (by cases he),⟨rfl,fun r hr => by cases hr⟩⟩)
    (fun i _ w hp _ hn => safe_isPublication hp hn) h
  exact hreach.inv

end Runs

section Samples

/-- A publisher. -/
def sample : ConfirmedAmqpPublisher := ⟨"amqp://localhost","contacts"⟩

/-- A message. -/
def renamed : OutboundMessageEnvelope :=
  ⟨"{}",⟨none,.fromU128 1,.fromU128 1,none,none,"Renamed","contacts",none,none⟩⟩

/-- What is kept. -/
def kept : Held := some (⟨0⟩,⟨0⟩)

/-- The calls of the first caller, which gives up while its message is published. -/
def abandonedCalls : List Awaited :=
  [⟨0,.connect sample.url,some (.done (.ok ⟨0⟩))⟩,
    ⟨0,.createChannel ⟨0⟩,some (.done (.ok ⟨0⟩))⟩,
    ⟨0,.confirmSelect ⟨0⟩,some (.done (.ok ()))⟩,
    ⟨0,.basicPublish ⟨0⟩ (sample.request renamed),none⟩]

/-- The publisher after the first caller. -/
def afterFirst : Shared := ⟨none,kept,abandonedCalls,[]⟩

/-- The publisher after a second one. -/
def afterSecond : Shared :=
  ⟨none,kept,abandonedCalls++[⟨1,.basicPublish ⟨0⟩ (sample.request renamed),some plainAck⟩],
    [⟨1,renamed,.ok ()⟩]⟩

/-- The first caller opens a connection and gives up over it. -/
theorem exec_first : Exec ((callers sample).alone 0)
    (reported (sample.publishAsync send renamed) renamed) Shared.new none afterFirst :=
  .call rfl (.lock rfl) (.call rfl (.answered (.connect sample.url) (.done (.ok ⟨0⟩)))
    (.call rfl (.answered (.createChannel ⟨0⟩) (.done (.ok ⟨0⟩)))
      (.call rfl (.answered (.confirmSelect ⟨0⟩) (.done (.ok ())))
        (.call rfl (.dropped (.basicPublish ⟨0⟩ (sample.request renamed)) kept ⟨_,rfl⟩)
          (.panic rfl)))))

/-- The second one publishes over the same connection. -/
theorem exec_second : Exec ((callers sample).alone 1)
    (reported (sample.publishAsync send renamed) renamed) afterFirst (some ()) afterSecond :=
  .call rfl (.lock rfl)
    (.call rfl (.answered (.basicPublish ⟨0⟩ (sample.request renamed)) plainAck)
      (.call rfl (.unlock kept) (.call rfl (.report renamed (.ok ())) (.ret rfl))))

/-- The second caller is told `Ok` over the connection that the first one abandoned, and its
message was acknowledged. -/
theorem shared_publishing_abandoned : ∃ s, (callers sample).Reaches Shared.new s ∧
    s.world.log.any (fun a => a.answer.isNone) = true ∧
      Acknowledged sample 1 renamed s.world.log := by
  have hprogram : (callers sample).programs (reported (sample.publishAsync send renamed) renamed) :=
    IsPublication.async renamed
  obtain ⟨s₁,h₁,hw₁,hn₁⟩ := Team.Reaches.alone
    (Team.Reaches.start.step (.start hprogram)) (Function.update_self ..) exec_first
  have hstart := h₁.step (.start hprogram)
  have hnext : s₁.next = 1 := hn₁
  rw [hw₁,hnext] at hstart
  obtain ⟨s₂,h₂,hw₂,_⟩ := hstart.alone (Function.update_self ..) exec_second
  refine ⟨s₂,h₂,by rw [hw₂]; rfl,?_⟩
  have hreport : ⟨1,renamed,.ok ()⟩ ∈ s₂.world.reports := by
    rw [hw₂]
    exact List.mem_singleton_self _
  exact ((shared_publishing h₂).reports _ hreport).mp rfl

end Samples

end Mulac.SharedPublisher
