import Mulac.WorkerLoop

/-!
# The settlement protocol of the worker

A delivery with a message is stored by one task, and then acked or nacked by
what `store` returned; a delivery without one is nacked and forgotten. The
invariant says what was done with each delivery by where the loop awaits, and
every clause of the protocol is read off it.
-/

namespace Mulac.BrokerSettlement

open Identifiers Envelopes AmqpConsumption AmqpPublishing WorkerLoop

section Lives

/-- How the outcome of a store is settled. -/
def settling : Except InboxError Unit → Act
  | .ok () => .ack .default
  | .error _ => .nack ⟨false,true⟩

/-- How far a delivery got. -/
inductive Stage where
  /-- Its task is awaited. -/
  | storing (task : Task)
  /-- It is settled. -/
  | settled
  /-- Its task came to nothing. -/
  | lost

/-- A delivery whose store task is spawned. -/
def Opened (d : Delivery) (acts : List Act) : Prop :=
  ∃ m drawn, unpack d = some m ∧
    acts = [.received d,.spawn (NewInboxMessageEnvelope.ofInbound drawn (inboundOf m))]

/-- Everything that is done with a delivery, by how far it got. -/
inductive Life (d : Delivery) : Stage → List Act → Prop
  /-- There is no message in it. -/
  | discarded : unpack d = none → Life d .settled [.received d,.nack ⟨false,false⟩]
  /-- Its task waits. -/
  | queued {acts : List Act} : Opened d acts → Life d (.storing .queued) acts
  /-- Its task runs. -/
  | running {acts : List Act} : Opened d acts → Life d (.storing .running) (acts++[.call])
  /-- `store` has returned. -/
  | finished {acts : List Act} (result : Except InboxError Unit) : Opened d acts →
    Life d (.storing (.done (.ok result))) (acts++[.call,.finish result])
  /-- `store` has panicked, or the task is aborted. -/
  | failed {acts : List Act} (error : JoinError) {why : List Act} : Opened d acts →
    (why = [.call,.panicked] ∨ why = [.aborted]) →
    Life d (.storing (.done (.error error))) (acts++why)
  /-- It is settled by what `store` returned. -/
  | settled {acts : List Act} (result : Except InboxError Unit) : Opened d acts →
    Life d .settled (acts++[.call,.finish result,settling result])
  /-- It is not settled. -/
  | lost {acts why : List Act} : Opened d acts → (why = [.call,.panicked] ∨ why = [.aborted]) →
    Life d .lost (acts++why)

/-- The stages that a delivery can be in, by where the loop awaits. -/
inductive At (point : Point) (n : ℕ) : Stage → Prop
  /-- The loop awaits its task. -/
  | storing {task : Task} : point = .storing n task → At point n (.storing task)
  /-- The loop is elsewhere. -/
  | settled : (∀ task, point ≠ .storing n task) → At point n .settled
  /-- The loop has ended with it. -/
  | lost {text : String} : point = .returned (.error (.recording text)) → At point n .lost

/-- A point that awaits the task of no delivery but this one. -/
def OnlyStores (k : ℕ) (point : Point) : Prop := ∀ n task, point = .storing n task → n = k

/-- What holds in every state. -/
structure Inv (s : State) : Prop where
  /-- Nothing was done with a delivery that is still to come. -/
  fresh : ∀ n, s.received ≤ n → actsOf n s.log = []
  /-- Every other one got somewhere. -/
  lives : ∀ n < s.received, ∃ d stage, Life d stage (actsOf n s.log) ∧ At s.point n stage
  /-- A task is awaited for a delivery. -/
  bound : ∀ n task, s.point = .storing n task → n < s.received
  /-- `next` goes on after a delivery without a message. -/
  goesOn : ∀ n error, s.point = .discarding n error → error = none

/-- The loop turns to one delivery, and the others stay as they are. -/
theorem Inv.turn {s s' : State} (h : Inv s) (k : ℕ) (hk : s.received = s'.received ∧
      k < s.received ∨ s'.received = s.received+1 ∧ k = s.received)
    (hlog : ∀ n, n ≠ k → actsOf n s'.log = actsOf n s.log)
    (hrunning : ∀ result, s.point ≠ .returned result)
    (honly : OnlyStores k s.point) (honly' : OnlyStores k s'.point)
    (hgoes : ∀ n error, s'.point = .discarding n error → error = none)
    (hlife : ∃ d stage, Life d stage (actsOf k s'.log) ∧ At s'.point k stage) : Inv s' where
  fresh := by
    intro n hn
    rw [hlog n (by omega)]
    exact h.fresh n (by omega)
  lives := by
    intro n hn
    by_cases hnk : n = k
    · exact hnk ▸ hlife
    · obtain ⟨d,stage,hl,hat⟩ := h.lives n (by omega)
      refine ⟨d,.settled,?_,.settled fun task ht => hnk (honly' n task ht)⟩
      rw [hlog n hnk]
      cases hat with
      | storing ht => exact absurd (honly n _ ht) hnk
      | settled _ => exact hl
      | lost hr => exact absurd hr (hrunning _)
  bound := by
    intro n task ht
    obtain rfl := honly' n task ht
    omega
  goesOn := hgoes

/-- The loop turns to no delivery. -/
theorem Inv.awaits {s : State} (h : Inv s) (hrunning : ∀ result, s.point ≠ .returned result)
    (hno : ∀ n task, s.point ≠ .storing n task) {point : Point}
    (hno' : ∀ n task, point ≠ .storing n task)
    (hgoes : ∀ n error, point = .discarding n error → error = none) : Inv (s.awaits point) where
  fresh := h.fresh
  lives := by
    intro n hn
    obtain ⟨d,stage,hl,hat⟩ := h.lives n hn
    refine ⟨d,.settled,?_,.settled fun task => hno' n task⟩
    cases hat with
    | storing ht => exact absurd ht (hno _ _)
    | settled _ => exact hl
    | lost hr => exact absurd hr (hrunning _)
  bound := fun n task ht => absurd ht (hno' n task)
  goesOn := hgoes

theorem inv_initial (token : Bool) : Inv (initial token) where
  fresh := fun _ _ => rfl
  lives := fun n hn => absurd hn (Nat.not_lt_zero n)
  bound := fun _ _ ht => by cases ht
  goesOn := fun _ _ ht => by cases ht

/-- The delivery whose task is awaited. -/
theorem Inv.stored {s : State} (h : Inv s) {n : ℕ} {task : Task}
    (hpoint : s.point = .storing n task) : ∃ d, Life d (.storing task) (actsOf n s.log) := by
  obtain ⟨d,stage,hl,hat⟩ := h.lives n (h.bound n task hpoint)
  cases hat with
  | storing ht =>
    rw [hpoint] at ht
    cases ht
    exact ⟨d,hl⟩
  | settled hno => exact absurd hpoint (hno task)
  | lost hr =>
    rw [hpoint] at hr
    cases hr

/-- The loop goes on with the delivery whose task it awaits. -/
theorem Inv.onward {s s' : State} (h : Inv s) {n : ℕ} {task : Task}
    (hpoint : s.point = .storing n task) (hreceived : s.received = s'.received)
    (hlog : ∀ k, k ≠ n → actsOf k s'.log = actsOf k s.log) (honly : OnlyStores n s'.point)
    (hgoes : ∀ k error, s'.point = .discarding k error → error = none)
    (hlife : ∀ d, Life d (.storing task) (actsOf n s.log) →
      ∃ stage, Life d stage (actsOf n s'.log) ∧ At s'.point n stage) : Inv s' := by
  obtain ⟨d,hl⟩ := h.stored hpoint
  refine h.turn n (.inl ⟨hreceived,h.bound n task hpoint⟩) hlog ?_ ?_ honly hgoes ⟨d,hlife d hl⟩
  · rw [hpoint]
    exact fun _ hr => by cases hr
  · rw [hpoint]
    exact fun _ _ ht => by cases ht; rfl

/-- The task goes on. -/
theorem Inv.task {s : State} (h : Inv s) {n : ℕ} {task task' : Task} {a : Act}
    (hpoint : s.point = .storing n task)
    (hlife : ∀ d acts, Life d (.storing task) acts → Life d (.storing task') (acts++[a])) :
    Inv (s.acts n a (.storing n task')) := by
  refine h.onward hpoint rfl (fun k hk => actsOf_other hk s.log a) ?_ ?_ fun d hl =>
    ⟨.storing task',?_,.storing rfl⟩
  · exact fun _ _ ht => by cases ht; rfl
  · exact fun _ _ ht => by cases ht
  · exact (actsOf_own n s.log a).symm ▸ hlife d _ hl

/-- A task that is over: what `store` returned is settled, and a failure ends the loop. -/
theorem Inv.joined {s : State} (h : Inv s) {n : ℕ} {joined : Joined}
    (hpoint : s.point = .storing n (.done joined)) : Inv (onJoined s n joined) := by
  rcases joined with e | e | ⟨⟩
  · refine h.onward hpoint rfl (fun _ _ => rfl) ?_ ?_ fun d hl => ⟨.lost,?_,.lost rfl⟩
    · exact fun _ _ ht => by cases ht
    · exact fun _ _ ht => by cases ht
    · change Life d .lost (actsOf n s.log)
      generalize actsOf n s.log = acts at hl ⊢
      cases hl with
      | failed _ ho hwhy => exact .lost ho hwhy
  · refine h.onward hpoint rfl (fun k hk => actsOf_other hk s.log _) ?_ ?_ fun d hl =>
      ⟨.settled,?_,.settled fun _ ht => by cases ht⟩
    · exact fun _ _ ht => by cases ht
    · exact fun _ _ ht => by cases ht
    · rw [show (onJoined s n (.ok (.error e))).log = s.log++[(n,settling (.error e))] from rfl,
        actsOf_own]
      generalize actsOf n s.log = acts at hl
      cases hl with
      | finished _ ho =>
        rw [List.append_assoc]
        exact .settled (.error e) ho
  · refine h.onward hpoint rfl (fun k hk => actsOf_other hk s.log _) ?_ ?_ fun d hl =>
      ⟨.settled,?_,.settled fun _ ht => by cases ht⟩
    · exact fun _ _ ht => by cases ht
    · exact fun _ _ ht => by cases ht
    · rw [show (onJoined s n (.ok (.ok ()))).log = s.log++[(n,settling (.ok ()))] from rfl,
        actsOf_own]
      generalize actsOf n s.log = acts at hl
      cases hl with
      | finished _ ho =>
        rw [List.append_assoc]
        exact .settled (.ok ()) ho

/-- A turn of `next`. -/
theorem Inv.item {s : State} (h : Inv s) (hpoint : s.point = .next) (drawn : Uuid)
    (item : StreamItem) : Inv (onItem s drawn item) := by
  have hrunning : ∀ result, s.point ≠ .returned result := by
    rw [hpoint]
    exact fun _ hr => by cases hr
  have hno : ∀ n task, s.point ≠ .storing n task := by
    rw [hpoint]
    exact fun _ _ ht => by cases ht
  cases item with
  | error e =>
    exact h.awaits hrunning hno (fun _ _ ht => by cases ht) fun _ _ ht => by cases ht
  | closed =>
    exact h.awaits hrunning hno (fun _ _ ht => by cases ht) fun _ _ ht => by cases ht
  | delivery d =>
    have hfresh := h.fresh s.received (Nat.le_refl _)
    have honly : OnlyStores s.received s.point := fun n task ht => absurd ht (hno n task)
    cases hm : unpack d with
    | some m =>
      rw [onItem_some hm]
      refine h.turn s.received (.inr ⟨rfl,rfl⟩) (fun n hn => ?_) hrunning honly ?_ ?_
        ⟨d,.storing .queued,?_,.storing rfl⟩
      · exact (actsOf_other hn _ _).trans (actsOf_other hn _ _)
      · exact fun _ _ ht => by cases ht; rfl
      · exact fun _ _ ht => by cases ht
      · dsimp only
        rw [actsOf_own,actsOf_own,hfresh]
        exact .queued ⟨m,drawn,hm,rfl⟩
    | none =>
      rw [onItem_none hm]
      refine h.turn s.received (.inr ⟨rfl,rfl⟩) (fun n hn => ?_) hrunning honly ?_ ?_
        ⟨d,.settled,?_,.settled fun _ ht => by cases ht⟩
      · exact (actsOf_other hn _ _).trans (actsOf_other hn _ _)
      · exact fun _ _ ht => by cases ht
      · exact fun _ _ ht => by cases ht; rfl
      · dsimp only
        rw [actsOf_own,actsOf_own,hfresh]
        exact .discarded hm

/-- Every event keeps the invariant. -/
theorem Inv.step {s s' : State} (h : Inv s) {e : Event} (hs : step s e = some s') : Inv s' := by
  have hmoved := moved_of_step hs
  -- the loop turns from a point that awaits no task to another one
  have hquiet : ∀ point later, s.point = point → (∀ result, point ≠ .returned result) →
      (∀ n task, point ≠ .storing n task) → (∀ n task, later ≠ .storing n task) →
      (∀ n error, later = .discarding n error → error = none) → Inv (s.awaits later) :=
    fun _ _ hpoint hrunning hno => h.awaits (hpoint ▸ hrunning) (hpoint ▸ hno)
  cases hmoved with
  | cancel => exact ⟨h.fresh,h.lives,h.bound,h.goesOn⟩
  | item hpoint => exact h.item hpoint _ _
  | discarded hpoint =>
    obtain rfl := h.goesOn _ _ hpoint
    exact hquiet _ _ hpoint (by simp) (by simp) (by simp) (by simp)
  | begin hpoint =>
    refine h.task hpoint fun d acts hl => ?_
    cases hl with
    | queued ho => exact .running ho
  | finish hpoint =>
    refine h.task hpoint fun d acts hl => ?_
    cases hl with
    | running ho => exact (List.append_assoc _ _ _).symm ▸ .finished _ ho
  | panic hpoint =>
    refine h.task hpoint fun d acts hl => ?_
    cases hl with
    | running ho => exact (List.append_assoc _ _ _).symm ▸ .failed _ ho (.inl rfl)
  | abort hpoint =>
    refine h.task hpoint fun d acts hl => ?_
    cases hl with
    | queued ho => exact .failed _ ho (.inr rfl)
  | join hpoint => exact h.joined hpoint
  | acked hpoint => exact hquiet _ _ hpoint (by simp) (by simp) (by simp) (by simp)
  | nacked hpoint => exact hquiet _ _ hpoint (by simp) (by simp) (by simp) (by simp)
  | unsettled hpoint =>
    rcases hpoint with hpoint | hpoint <;>
      exact hquiet _ _ hpoint (by simp) (by simp) (by simp) (by simp)
  | resumed hpoint => exact hquiet _ _ hpoint (by simp) (by simp) (by simp) (by simp)
  | closed hpoint => exact hquiet _ _ hpoint (by simp) (by simp) (by simp) (by simp)
  | cancelled _ hselects =>
    generalize hpoint : s.point = point at hselects
    cases hselects <;> exact hquiet _ _ hpoint (by simp) (by simp) (by simp) (by simp)

/-- It holds in every state that a run reaches. -/
theorem inv_of_reaches {s : State} (h : Reaches s) : Inv s := by
  induction h with
  | start token => exact inv_initial token
  | step _ hs ih => exact ih.step hs

end Lives

section Protocol

/-- The stream yielded a delivery. -/
def Yielded (s : State) (n : ℕ) (d : Delivery) : Prop := .received d ∈ s.did n

/-- The loop awaits the task that stores a delivery. -/
def InFlight (s : State) (n : ℕ) : Prop := ∃ task, s.point = .storing n task

/-- The loop handles a store that failed: it joins the task, nacks the delivery, or backs off. -/
inductive Refusing : Point → Prop
  /-- The outcome is known. -/
  | refused (n : ℕ) (error : InboxError) : Refusing (.storing n (.done (.ok (.error error))))
  /-- The delivery is nacked. -/
  | nacking (n : ℕ) : Refusing (.nacking n)
  /-- The loop backs off. -/
  | backoff : Refusing .backoff

/-- The settlement protocol of the worker. -/
structure Protocol (s : State) : Prop where
  /-- A delivery with a message is passed to one store task, which calls `store` once, unless it
  is aborted before that. -/
  stored : ∀ n d m, Yielded s n d → unpack d = some m →
    (∃ drawn, (s.did n).filter Act.isSpawn =
      [.spawn (NewInboxMessageEnvelope.ofInbound drawn (inboundOf m))]) ∧
    ((s.did n).filter Act.isCall).length ≤ 1 ∧
    (¬InFlight s n → .aborted ∉ s.did n → ((s.did n).filter Act.isCall).length = 1)
  /-- Nothing is settled while its task is awaited. -/
  pending : ∀ n, InFlight s n →
    (s.did n).filter Act.isAck = [] ∧ (s.did n).filter Act.isNack = []
  /-- After that there is one ack if `store` returned `Ok`, and otherwise none. -/
  acked : ∀ n d m, Yielded s n d → unpack d = some m → ¬InFlight s n →
    (.finish (.ok ()) ∈ s.did n → (s.did n).filter Act.isAck = [.ack .default]) ∧
    (.finish (.ok ()) ∉ s.did n → (s.did n).filter Act.isAck = [])
  /-- The ack is attempted after the store. -/
  after : ∀ n before later options, s.did n = before++.ack options::later →
    .finish (.ok ()) ∈ before
  /-- There is one nack, with requeue, if `store` returned `Err`, and otherwise none. -/
  requeued : ∀ n d m, Yielded s n d → unpack d = some m → ¬InFlight s n →
    ((∃ e, .finish (.error e) ∈ s.did n) → (s.did n).filter Act.isNack = [.nack ⟨false,true⟩]) ∧
    ((∀ e, .finish (.error e) ∉ s.did n) → (s.did n).filter Act.isNack = [])
  /-- No delivery is both acked and nacked. -/
  notBoth : ∀ n, (s.did n).filter Act.isAck = [] ∨ (s.did n).filter Act.isNack = []
  /-- A delivery with a message is left without a settlement only if its task panicked or was
  aborted, and then `run` has returned `Err`. -/
  unsettled : ∀ n d m, Yielded s n d → unpack d = some m → ¬InFlight s n →
    (s.did n).filter Act.isAck = [] → (s.did n).filter Act.isNack = [] →
      (.panicked ∈ s.did n ∨ .aborted ∈ s.did n) ∧ ∃ e, s.point = .returned (.error e)
  /-- Whatever happens while its task is awaited, the loop goes on awaiting it, attempts the
  settlement, or returns `Err` because the task came to nothing. -/
  attempted : ∀ n task, s.point = .storing n task → ∀ e s', step s e = some s' →
    InFlight s' n ∨ (∃ result, task = .done (.ok result) ∧ s'.did n = s.did n++[settling result]) ∨
      ∃ error text, task = .done (.error error) ∧ s'.point = .returned (.error (.recording text))
  /-- Once `store` has returned, the settlement can be attempted, cancelled or not. -/
  attempts : ∀ n result, s.point = .storing n (.done (.ok result)) →
    ∃ s', step s .join = some s' ∧ s'.did n = s.did n++[settling result]
  /-- A delivery without a message is not stored and not acked, and is nacked once at most,
  without requeue. -/
  discarded : ∀ n d, Yielded s n d → unpack d = none →
    (s.did n).filter Act.isSpawn = [] ∧ (s.did n).filter Act.isCall = [] ∧
    (s.did n).filter Act.isAck = [] ∧ ((s.did n).filter Act.isNack).length ≤ 1 ∧
    ∀ options, .nack options ∈ s.did n → options.requeue = false
  /-- It does not end the loop: it is refused, and then the next one is awaited. -/
  goesOn : (∀ d drawn s', unpack d = none → step s (.item (.delivery d) drawn) = some s' →
      s'.point = .discarding s.received none) ∧
    ∀ n error, s.point = .discarding n error →
      (∀ answer drawn, step s (.discarded answer drawn) = some (s.awaits .next)) ∧
      ∀ e s' result, step s e = some s' → s'.point = .returned result →
        s.token = true ∧ e = .cancelled
  /-- An error of the store ends the loop only at the token, or if the nack fails. -/
  refused : Refusing s.point → ∀ e s' result, step s e = some s' →
    s'.point = .returned result →
      (s.token = true ∧ e = .cancelled) ∨ ∃ error, e = .settled (.error error)

variable {d : Delivery} {stage : Stage} {acts : List Act}

/-- A life is that of one delivery. -/
theorem Life.received (h : Life d stage acts) {d' : Delivery} (hd : .received d' ∈ acts) :
    d' = d := by
  cases h with
  | discarded _ => simpa using hd
  | queued ho => obtain ⟨m,drawn,_,rfl⟩ := ho; simpa using hd
  | running ho => obtain ⟨m,drawn,_,rfl⟩ := ho; simpa using hd
  | finished _ ho => obtain ⟨m,drawn,_,rfl⟩ := ho; simpa using hd
  | failed _ ho hwhy =>
    obtain ⟨m,drawn,_,rfl⟩ := ho
    rcases hwhy with rfl | rfl <;> simpa using hd
  | settled result ho =>
    obtain ⟨m,drawn,_,rfl⟩ := ho
    rcases result with e | ⟨⟩ <;> simpa [settling] using hd
  | lost ho hwhy =>
    obtain ⟨m,drawn,_,rfl⟩ := ho
    rcases hwhy with rfl | rfl <;> simpa using hd

/-- A yielded delivery has its life. -/
theorem Inv.life {s : State} (h : Inv s) {n : ℕ} (hy : Yielded s n d) :
    ∃ stage, Life d stage (s.did n) ∧ At s.point n stage := by
  rcases Nat.lt_or_ge n s.received with hn | hn
  · obtain ⟨d',stage,hl,hat⟩ := h.lives n hn
    obtain rfl := hl.received hy
    exact ⟨stage,hl,hat⟩
  · rw [Yielded,State.did,h.fresh n hn] at hy
    cases hy

/-- A delivery with a message whose task is no longer awaited is settled by what `store`
returned, or the loop has ended with it. -/
theorem Inv.over {s : State} (h : Inv s) {n : ℕ} {m : AmqpMessage} (hy : Yielded s n d)
    (hm : unpack d = some m) (hno : ¬InFlight s n) : ∃ acts, Opened d acts ∧
      ((∃ result, s.did n = acts++[.call,.finish result,settling result]) ∨
      ((s.did n = acts++[.call,.panicked] ∨ s.did n = acts++[.aborted]) ∧
        ∃ text, s.point = .returned (.error (.recording text)))) := by
  obtain ⟨stage,hl,hat⟩ := h.life hy
  cases hat with
  | storing ht => exact absurd ⟨_,ht⟩ hno
  | settled _ =>
    generalize s.did n = did at hl
    cases hl with
    | discarded hnone =>
      rw [hm] at hnone
      cases hnone
    | settled result ho => exact ⟨_,ho,.inl ⟨result,rfl⟩⟩
  | lost hr =>
    generalize s.did n = did at hl
    cases hl with
    | lost ho hwhy =>
      rcases hwhy with rfl | rfl
      · exact ⟨_,ho,.inr ⟨.inl rfl,_,hr⟩⟩
      · exact ⟨_,ho,.inr ⟨.inr rfl,_,hr⟩⟩

/-- A delivery whose task is awaited has no settlement. -/
theorem Life.storing_unsettled {task : Task} (h : Life d (.storing task) acts) :
    acts.filter Act.isAck = [] ∧ acts.filter Act.isNack = [] := by
  cases h with
  | queued ho => obtain ⟨m,drawn,_,rfl⟩ := ho; simp [Act.isAck,Act.isNack]
  | running ho => obtain ⟨m,drawn,_,rfl⟩ := ho; simp [Act.isAck,Act.isNack]
  | finished _ ho => obtain ⟨m,drawn,_,rfl⟩ := ho; simp [Act.isAck,Act.isNack]
  | failed _ ho hwhy =>
    obtain ⟨m,drawn,_,rfl⟩ := ho
    rcases hwhy with rfl | rfl <;> simp [Act.isAck,Act.isNack]

/-- A settlement is an ack after `Ok`, or a nack. -/
theorem Life.settlements (h : Life d stage acts) :
    (acts.filter Act.isAck = [] ∨ acts.filter Act.isNack = []) ∧
    ∀ before later options, acts = before++.ack options::later → .finish (.ok ()) ∈ before := by
  have hno : acts.filter Act.isAck = [] →
      (acts.filter Act.isAck = [] ∨ acts.filter Act.isNack = []) ∧
      ∀ before later options, acts = before++.ack options::later → .finish (.ok ()) ∈ before := by
    refine fun hnone => ⟨.inl hnone,fun before later options he => ?_⟩
    simp [he,Act.isAck] at hnone
  cases h with
  | discarded _ => exact hno (by simp [Act.isAck])
  | queued ho => exact hno (Life.storing_unsettled (.queued ho)).1
  | running ho => exact hno (Life.storing_unsettled (.running ho)).1
  | finished result ho => exact hno (Life.storing_unsettled (.finished result ho)).1
  | failed error ho hwhy => exact hno (Life.storing_unsettled (.failed error ho hwhy)).1
  | lost ho hwhy => exact hno (Life.storing_unsettled (.failed ⟨""⟩ ho hwhy)).1
  | settled result ho =>
    obtain ⟨m,drawn,_,rfl⟩ := ho
    rcases result with e | ⟨⟩
    · exact hno (by simp [settling,Act.isAck])
    · refine ⟨.inr (by simp [settling,Act.isNack,List.filter]),fun before later options he => ?_⟩
      have hbefore : before = [.received d,.spawn (NewInboxMessageEnvelope.ofInbound drawn
          (inboundOf m)),.call,.finish (.ok ())] := by
        simp [settling,List.cons_eq_append_iff] at he
        exact he.1
      simp [hbefore]

/-- A delivery without a message is not handed to the store. -/
theorem Opened.not_of_none (h : unpack d = none) : ¬Opened d acts := by
  rintro ⟨m,_,hm,_⟩
  rw [h] at hm
  cases hm

/-- What is done when a task is joined. -/
theorem did_onJoined (s : State) (n : ℕ) (result : Except InboxError Unit) :
    (onJoined s n (.ok result)).did n = s.did n++[settling result] := by
  rcases result with e | ⟨⟩ <;> exact actsOf_own n s.log _

/-- A life in the log of a state. -/
theorem Inv.lifeOf {s : State} (h : Inv s) (n : ℕ) :
    s.did n = [] ∨ ∃ d stage, Life d stage (s.did n) := by
  rcases Nat.lt_or_ge n s.received with hn | hn
  · obtain ⟨d,stage,hl,_⟩ := h.lives n hn
    exact .inr ⟨d,stage,hl⟩
  · exact .inl (h.fresh n hn)

/-- A delivery with a message is handed to one store task, and its `store` is called once at
most. -/
theorem Life.handed (h : Life d stage acts) {m : AmqpMessage} (hm : unpack d = some m) :
    (∃ drawn, acts.filter Act.isSpawn =
      [.spawn (NewInboxMessageEnvelope.ofInbound drawn (inboundOf m))]) ∧
    (acts.filter Act.isCall).length ≤ 1 := by
  have hopened : ∀ acts later, Opened d acts → later.filter Act.isSpawn = [] →
      (later.filter Act.isCall).length ≤ 1 → (∃ drawn, (acts++later).filter Act.isSpawn =
        [.spawn (NewInboxMessageEnvelope.ofInbound drawn (inboundOf m))]) ∧
      ((acts++later).filter Act.isCall).length ≤ 1 := by
    rintro _ later ⟨m',drawn,hm',rfl⟩ hspawn hcall
    obtain rfl : m = m' := Option.some.inj (hm.symm.trans hm')
    refine ⟨⟨drawn,?_⟩,?_⟩
    · rw [List.filter_append,hspawn]
      rfl
    · rw [List.filter_append]
      exact hcall
  cases h with
  | discarded hnone =>
    rw [hm] at hnone
    cases hnone
  | queued ho =>
    have := hopened _ [] ho rfl (by simp)
    rwa [List.append_nil] at this
  | running ho => exact hopened _ _ ho rfl (Nat.le_refl 1)
  | finished result ho => exact hopened _ _ ho rfl (Nat.le_refl 1)
  | failed error ho hwhy =>
    rcases hwhy with rfl | rfl
    · exact hopened _ _ ho rfl (Nat.le_refl 1)
    · exact hopened _ _ ho rfl (Nat.zero_le 1)
  | settled result ho =>
    rcases result with e | ⟨⟩ <;> exact hopened _ _ ho rfl (Nat.le_refl 1)
  | lost ho hwhy =>
    rcases hwhy with rfl | rfl
    · exact hopened _ _ ho rfl (Nat.le_refl 1)
    · exact hopened _ _ ho rfl (Nat.zero_le 1)

/-- The only moves that end the loop. -/
theorem returned_of_moved {s s' : State} {e : Event} {result : Except InboxError Unit}
    (h : Moved s e s') (hr : s'.point = .returned result)
    (hrunning : ∀ result, s.point ≠ .returned result) :
    (s.token = true ∧ e = .cancelled) ∨ s.point = .next ∨
    (∃ n e, s.point = .discarding n (some e)) ∨
    (∃ n error, s.point = .storing n (.done (.error error)) ∧
      result = .error (.recording error.display)) ∨
    (∃ error, e = .settled (.error error)) ∨ ∃ error, s.point = .closing error := by
  cases h with
  | cancel => exact absurd hr (hrunning result)
  | item hpoint => exact .inr (.inl hpoint)
  | @discarded n error _ _ hpoint =>
    cases error with
    | none => cases hr
    | some e => exact .inr (.inr (.inl ⟨n,e,hpoint⟩))
  | begin _ => cases hr
  | finish _ => cases hr
  | panic _ => cases hr
  | abort _ => cases hr
  | @join n joined hpoint =>
    rcases joined with error | e | ⟨⟩
    · cases hr
      exact .inr (.inr (.inr (.inl ⟨n,error,hpoint,rfl⟩)))
    · cases hr
    · cases hr
  | acked _ => cases hr
  | nacked _ => cases hr
  | @unsettled _ error _ => exact .inr (.inr (.inr (.inr (.inl ⟨error,rfl⟩))))
  | resumed _ => cases hr
  | @closed error hpoint => exact .inr (.inr (.inr (.inr (.inr ⟨error,hpoint⟩))))
  | cancelled htoken _ => exact .inl ⟨htoken,rfl⟩

/-- While a task is awaited, it goes on, or it is joined. -/
theorem moved_storing {s s' : State} {e : Event} {n : ℕ} {task : Task}
    (hpoint : s.point = .storing n task) (h : Moved s e s') :
    InFlight s' n ∨ ∃ joined, task = .done joined ∧ s' = onJoined s n joined := by
  cases h with
  | cancel => exact .inl ⟨task,hpoint⟩
  | begin ht =>
    rw [hpoint] at ht
    cases ht
    exact .inl ⟨_,rfl⟩
  | finish ht =>
    rw [hpoint] at ht
    cases ht
    exact .inl ⟨_,rfl⟩
  | panic ht =>
    rw [hpoint] at ht
    cases ht
    exact .inl ⟨_,rfl⟩
  | abort ht =>
    rw [hpoint] at ht
    cases ht
    exact .inl ⟨_,rfl⟩
  | join ht =>
    rw [hpoint] at ht
    cases ht
    exact .inr ⟨_,rfl,rfl⟩
  | item ht => rw [hpoint] at ht; cases ht
  | discarded ht => rw [hpoint] at ht; cases ht
  | acked ht => rw [hpoint] at ht; cases ht
  | nacked ht => rw [hpoint] at ht; cases ht
  | unsettled ht => rw [hpoint] at ht; rcases ht with ht | ht <;> cases ht
  | resumed ht => rw [hpoint] at ht; cases ht
  | closed ht => rw [hpoint] at ht; cases ht
  | cancelled _ ht => rw [hpoint] at ht; cases ht

/-- A delivery without a message is refused, and nothing else is done with it. -/
theorem Life.refused (h : Life d stage acts) (hm : unpack d = none) :
    acts = [.received d,.nack ⟨false,false⟩] := by
  cases h with
  | discarded _ => rfl
  | queued ho => exact absurd ho (Opened.not_of_none hm)
  | running ho => exact absurd ho (Opened.not_of_none hm)
  | finished _ ho => exact absurd ho (Opened.not_of_none hm)
  | failed _ ho _ => exact absurd ho (Opened.not_of_none hm)
  | settled _ ho => exact absurd ho (Opened.not_of_none hm)
  | lost ho _ => exact absurd ho (Opened.not_of_none hm)

/-- After a refusal that the broker took, only the token ends the loop. -/
theorem returned_of_discarding {s s' : State} {e : Event} {n : ℕ} {result : Except InboxError Unit}
    (hpoint : s.point = .discarding n none) (hs : step s e = some s')
    (hr : s'.point = .returned result) : s.token = true ∧ e = .cancelled := by
  rcases returned_of_moved (moved_of_step hs) hr (by simp [hpoint]) with
    hstop | ht | ⟨_,_,ht⟩ | ⟨_,_,ht,_⟩ | ⟨error,rfl⟩ | ⟨_,ht⟩
  · exact hstop
  · rw [hpoint] at ht
    cases ht
  · rw [hpoint] at ht
    cases ht
  · rw [hpoint] at ht
    cases ht
  · simp [WorkerLoop.step,hpoint] at hs
  · rw [hpoint] at ht
    cases ht

/-- While a store that failed is handled, only the token or the broker ends the loop. -/
theorem returned_of_refusing {s s' : State} {e : Event} {result : Except InboxError Unit}
    (hrefusing : Refusing s.point) (hs : step s e = some s') (hr : s'.point = .returned result) :
    (s.token = true ∧ e = .cancelled) ∨ ∃ error, e = .settled (.error error) := by
  generalize hpoint : s.point = point at hrefusing
  have hrunning : ∀ result, s.point ≠ .returned result := by
    rw [hpoint]
    cases hrefusing <;> simp
  rcases returned_of_moved (moved_of_step hs) hr hrunning with
    hstop | ht | ⟨_,_,ht⟩ | ⟨_,_,ht,_⟩ | hanswer | ⟨_,ht⟩
  · exact .inl hstop
  · rw [hpoint] at ht
    cases ht
    cases hrefusing
  · rw [hpoint] at ht
    cases ht
    cases hrefusing
  · rw [hpoint] at ht
    cases ht
    cases hrefusing
  · exact .inr hanswer
  · rw [hpoint] at ht
    cases ht
    cases hrefusing

/-- The invariant says that the worker keeps to the protocol. -/
theorem Inv.protocol {s : State} (h : Inv s) : Protocol s where
  stored := by
    intro n d m hy hm
    obtain ⟨stage,hl,_⟩ := h.life hy
    obtain ⟨hspawn,hcall⟩ := hl.handed hm
    refine ⟨hspawn,hcall,fun hno haborted => ?_⟩
    obtain ⟨acts,⟨m',drawn,_,rfl⟩,⟨result,hdid⟩ | ⟨hdid | hdid,_⟩⟩ := h.over hy hm hno
    · rw [hdid]
      rcases result with e | ⟨⟩ <;> rfl
    · rw [hdid]
      rfl
    · simp [hdid] at haborted
  pending := by
    rintro n ⟨task,ht⟩
    obtain ⟨d,hl⟩ := h.stored ht
    exact hl.storing_unsettled
  acked := by
    intro n d m hy hm hno
    obtain ⟨acts,⟨m',drawn,_,rfl⟩,⟨result,hdid⟩ | ⟨hdid | hdid,_⟩⟩ := h.over hy hm hno
    · rcases result with e | ⟨⟩ <;> simp [hdid,settling,Act.isAck]
    · simp [hdid,Act.isAck]
    · simp [hdid,Act.isAck]
  after := by
    intro n before later options he
    rcases h.lifeOf n with hnone | ⟨d,stage,hl⟩
    · simp [hnone] at he
    · exact hl.settlements.2 before later options he
  requeued := by
    intro n d m hy hm hno
    obtain ⟨acts,⟨m',drawn,_,rfl⟩,⟨result,hdid⟩ | ⟨hdid | hdid,_⟩⟩ := h.over hy hm hno
    · rcases result with e | ⟨⟩ <;> simp [hdid,settling,Act.isNack]
    · simp [hdid,Act.isNack]
    · simp [hdid,Act.isNack]
  notBoth := by
    intro n
    rcases h.lifeOf n with hnone | ⟨d,stage,hl⟩
    · exact .inl (by rw [hnone]; rfl)
    · exact hl.settlements.1
  unsettled := by
    intro n d m hy hm hno hack hnack
    obtain ⟨acts,⟨m',drawn,_,rfl⟩,⟨result,hdid⟩ | ⟨hdid,text,hr⟩⟩ := h.over hy hm hno
    · rcases result with e | ⟨⟩
      · simp [hdid,settling,Act.isNack] at hnack
      · simp [hdid,settling,Act.isAck] at hack
    · refine ⟨?_,_,hr⟩
      rcases hdid with hdid | hdid <;> simp [hdid]
  attempted := by
    intro n task hpoint e s' hs
    rcases moved_storing hpoint (moved_of_step hs) with hflight | ⟨joined,rfl,rfl⟩
    · exact .inl hflight
    · rcases joined with error | result
      · exact .inr (.inr ⟨error,_,rfl,rfl⟩)
      · exact .inr (.inl ⟨result,rfl,did_onJoined s n result⟩)
  attempts := fun n result hpoint =>
    ⟨_,by simp only [WorkerLoop.step,hpoint],did_onJoined s n result⟩
  discarded := by
    intro n d hy hm
    obtain ⟨stage,hl,_⟩ := h.life hy
    rw [hl.refused hm]
    refine ⟨rfl,rfl,rfl,Nat.le_refl 1,fun options ho => ?_⟩
    obtain rfl : options = ⟨false,false⟩ := by simpa using ho
    rfl
  goesOn := by
    refine ⟨fun d drawn s' hm hs => ?_,fun n error hpoint => ?_⟩
    · cases moved_of_step hs with
      | item _ => rw [onItem_none hm]
    · obtain rfl := h.goesOn n error hpoint
      refine ⟨fun answer drawn => ?_,fun e s' result hs hr => returned_of_discarding hpoint hs hr⟩
      simp only [WorkerLoop.step,hpoint]
      rfl
  refused := fun hrefusing _ _ _ hs hr => returned_of_refusing hrefusing hs hr

/-- The worker keeps to the protocol in every run: whatever the stream yields, however the store
and the broker answer, and whenever the token is cancelled. -/
theorem settlement_protocol {s : State} (h : Reaches s) : Protocol s :=
  (inv_of_reaches h).protocol

/-- A delivery that is refused while somebody cancels the token. -/
def letter : Delivery := ⟨"{}".toByteArray,"payments","payment.made",none,none⟩

theorem unpack_letter :
    unpack letter = some ⟨"{}",none,none,some "payments",some "payment.made"⟩ := by
  have hbody : String.fromUTF8? letter.data = some "{}" := dif_pos "{}".isValidUTF8
  rw [unpack,hbody]
  rfl

/-- What is stored for it. -/
def letterEntry : NewInboxMessageEnvelope :=
  ⟨"{}",.fromU128 5,none,some "payments",some "payment.made"⟩

/-- The loop as it ends. -/
def cancelledLoop : State :=
  ⟨true,1,[(0,.received letter),(0,.spawn letterEntry),(0,.call),
    (0,.finish (.error (.storage "down"))),(0,.nack ⟨false,true⟩)],.returned (.ok ())⟩

theorem reaches_cancelledLoop : Reaches cancelledLoop := by
  have hitem := (Reaches.start false).step
    (e:=.item (.delivery letter) (.fromU128 5)) rfl
  rw [onItem_some unpack_letter] at hitem
  have hcall := (hitem.step (e:=.begin) rfl).step (e:=.cancel) rfl
  have hjoined := (hcall.step (e:=.finish (.error (.storage "down"))) rfl).step (e:=.join) rfl
  exact (hjoined.step (e:=.settled (.ok ())) rfl).step (e:=.cancelled) rfl

/-- The delivery is nacked although the token was cancelled while it was stored. -/
theorem settlement_protocol_cancelled : Protocol cancelledLoop :=
  settlement_protocol reaches_cancelledLoop

/-- The act that settles a delivery. -/
def actOf : Settlement → Act
  | .ack => .ack .default
  | .requeue => .nack ⟨false,true⟩
  | .discard => .nack ⟨false,false⟩

/-- Over the repository, the last thing that the worker does with a delivery is its settlement:
the run of one delivery that the other modules use. -/
theorem did_settle {float : SerdeJson.FloatReader} {s : State} (h : Reaches s) {n : ℕ}
    (hy : Yielded s n d) (hno : ¬InFlight s n) (t : Repository.Rows (FourQueues.inboxQueue float))
    (drawn : Uuid) (appNow now : QueueDomain.Timestamp)
    (hstore : ∀ m, unpack d = some m → .finish (Repository.record t
      (NewInboxMessageEnvelope.ofInbound drawn (inboundOf m)) appNow now).1 ∈ s.did n) :
    (s.did n).getLast? = some (actOf (settle t d drawn appNow now).1) := by
  cases hm : unpack d with
  | none =>
    obtain ⟨stage,hl,_⟩ := (inv_of_reaches h).life hy
    rw [hl.refused hm]
    simp only [settle,hm]
    rfl
  | some m =>
    have hfinish := hstore m hm
    simp only [settle,hm]
    obtain ⟨acts,⟨m',drawn',_,rfl⟩,⟨result,hdid⟩ | ⟨hdid | hdid,_⟩⟩ :=
      (inv_of_reaches h).over hy hm hno
    · have hsame : (Repository.record t (NewInboxMessageEnvelope.ofInbound drawn (inboundOf m))
          appNow now).1 = result := by
        rw [hdid] at hfinish
        refine Act.finish.inj (?_ : Act.finish _ = Act.finish result)
        rcases result with e | ⟨⟩ <;> simpa [settling] using hfinish
      rw [hdid,hsame]
      rcases result with e | ⟨⟩ <;> rfl
    · simp [hdid] at hfinish
    · simp [hdid] at hfinish

end Protocol

end Mulac.BrokerSettlement
