import Mulac.PortCalls
import Mulac.QueueRuns
import Mulac.ItemRules

/-!
# Batches whose replies are lost

A batch of any consumer while its `completed` and `failed` calls may commit
without an answer, or fail without an effect, and while other workers and
sweepers call the same queue between its calls. Its result stays true to what it
did to the table.
-/

namespace Mulac.LostReplies

open Identifiers QueueDomain KeyedTable QueueRow Repository RepositoryContracts FourQueues
  QueueCalls QueueRuns PanicProgram Interference Consumers PortCalls ItemRules

variable {q : Queue}

section World

/-- A call of the batch, its answer, and the table around it. -/
structure Event (q : Queue) where
  /-- The call. -/
  op : BatchOp q
  /-- Its answer; none is a panic. -/
  reply : Option op.Reply
  /-- The table before the call. -/
  before : Rows q
  /-- The table after the call. -/
  after : Rows q

/-- The table, and what the batch has done. -/
structure World (q : Queue) where
  /-- The table. -/
  rows : Rows q
  /-- The calls of the batch, in order. -/
  history : List (Event q)

/-- What a call of the batch may answer and leave: finalizations may lose their
reply or their effect, and the work on an entry has any outcome. -/
inductive Answers (token : Uuid) (t : Rows q) :
    (op : BatchOp q) → Option op.Reply → Rows q → Prop
  /-- `reserve` acts as specified. -/
  | reserve (spec : ReservableSpec) (draw : ReserveDraw q) (drawn : draw.token = token) :
    Answers token t (.port (.reserve spec)) (some (Repository.reserve t spec draw).1)
      (Repository.reserve t spec draw).2
  /-- `completed`. -/
  | completed (id owner : Uuid) (now : Timestamp) {reply : Option (Except q.Error Unit)}
    {t' : Rows q} : Lossy t (Repository.completed t id owner now) reply t' →
      Answers token t (.port (.completed id owner)) reply t'
  /-- `failed`. -/
  | failed (id owner : Uuid) (maxAttempts : ℤ) (reason : Option String) (now : Timestamp)
    {reply : Option (Except q.Error Unit)} {t' : Rows q} :
    Lossy t (Repository.failed t id owner maxAttempts reason now) reply t' →
      Answers token t (.port (.failed id owner maxAttempts reason)) reply t'
  /-- The work. -/
  | work (entry : q.Envelope) (reply : Option (Except q.Error Unit)) :
    Answers token t (.work entry) reply t

/-- A call of another worker, of a sweeper or of a producer: it neither draws nor
uses the token of the batch. -/
def Foreign (token : Uuid) (c : Call q) : Prop :=
  c.drawn ≠ some token ∧ ∀ f id now, c ≠ .finalize f id token now

/-- What others may do to the table. -/
def OthersReach (token : Uuid) : Rows q → Rows q → Prop :=
  Relation.ReflTransGen fun t t' => ∃ c : Call q, Foreign token c ∧ t' = step t c

/-- The calls that finalize an entry or work on it. -/
def PerEntry : BatchOp q → Prop
  | .port (.reserve _) => False
  | _ => True

/-- The token that a finalization of the batch uses. -/
def Owned (token : Uuid) : BatchOp q → Prop
  | .port (.completed _ owner) => owner = token
  | .port (.failed _ owner _ _) => owner = token
  | _ => True

/-- The completion of an entry committed under the token. -/
def Event.Completes (token id : Uuid) (e : Event q) : Prop :=
  e.op = .port (.completed id token) ∧ Holds e.before id token ∧
    ∃ r, e.after.find? id = some r ∧ r.status = Status.completed.code

/-- What holds of every world of the batch. -/
structure Inv (token : Uuid) (w : World q) : Prop where
  /-- Only the first call of the batch is a reservation. -/
  reservedFirst : ∀ e ∈ w.history.tail, PerEntry e.op
  /-- A completed entry has left the batch. -/
  gone : ∀ e ∈ w.history, ∀ id, e.Completes token id → ¬Holds w.rows id token
  /-- After the completion of an entry, the batch changes it no more. -/
  once : w.history.Pairwise fun a b => ∀ id, a.Completes token id →
    b.after.find? id = b.before.find? id
  /-- A row that the batch does not hold is not changed by it. -/
  own : ∀ e ∈ w.history, PerEntry e.op → ∀ id, ¬Holds e.before id token →
    e.after.find? id = e.before.find? id

end World

section Steps

variable {token id : Uuid} {t t' : Rows q}

/-- Others never give a row to the token. -/
theorem OthersReach.not_holds (h : OthersReach token t t') (hn : ¬Holds t id token) :
    ¬Holds t' id token := by
  induction h with
  | refl => exact hn
  | tail _ hstep ih =>
    obtain ⟨c,hc,rfl⟩ := hstep
    exact fun hh => hc.1 (gained ih hh)

/-- A finalization leaves every row that its token does not hold. -/
theorem find?_finalize (t : Rows q) (f : Finalization q) {id' : Uuid} (now : Timestamp)
    (h : ¬Holds t id token) : (finalize t f id' token now).2.find? id = t.find? id := by
  rcases finalize_cases t f id' token now with ⟨r,hf,hr,_,_,g,hg,he,_⟩ | ⟨e,he⟩
  · rw [he]
    refine t.find?_updateAt_ne ?_ g hg
    rintro rfl
    exact h ⟨r,hf,hr⟩
  · rw [he]

/-- What a finalization does not hold, it does not change, whatever becomes of the call. -/
theorem Answers.find? {op : BatchOp q} {reply : Option op.Reply} (h : Answers token t op reply t')
    (hp : PerEntry op) (ho : Owned token op) (hn : ¬Holds t id token) :
    t'.find? id = t.find? id := by
  cases h with
  | reserve spec draw drawn => exact hp.elim
  | completed id' owner now hl =>
    obtain rfl : owner = token := ho
    rcases hl.table with rfl | rfl
    · exact find?_finalize t .completed now hn
    · rfl
  | failed id' owner maxAttempts reason now hl =>
    obtain rfl : owner = token := ho
    rcases hl.table with rfl | rfl
    · exact find?_finalize t (.failed maxAttempts reason) now hn
    · rfl
  | work entry reply => rfl

/-- The reservation of a batch acts as specified, under its token. -/
theorem Answers.reserve_inv {spec : ReservableSpec}
    {reply : Option (Except q.Error (List q.Envelope))}
    (h : Answers token t (.port (.reserve spec)) reply t') :
    ∃ draw : ReserveDraw q, draw.token = token ∧ reply = some (Repository.reserve t spec draw).1 ∧
      t' = (Repository.reserve t spec draw).2 := by
  cases h with
  | reserve _ draw drawn => exact ⟨draw,drawn,rfl,rfl⟩

/-- A completion may lose its reply or its effect. -/
theorem Answers.completed_inv {owner : Uuid} {reply : Option (Except q.Error Unit)}
    (h : Answers token t (.port (.completed id owner)) reply t') :
    ∃ now, Lossy t (Repository.completed t id owner now) reply t' := by
  cases h with
  | completed _ _ now hl => exact ⟨now,hl⟩

/-- So may a failure. -/
theorem Answers.failed_inv {owner : Uuid} {maxAttempts : ℤ} {reason : Option String}
    {reply : Option (Except q.Error Unit)}
    (h : Answers token t (.port (.failed id owner maxAttempts reason)) reply t') :
    ∃ now, Lossy t (Repository.failed t id owner maxAttempts reason now) reply t' := by
  cases h with
  | failed _ _ _ _ now hl => exact ⟨now,hl⟩

/-- The work leaves the table. -/
theorem Answers.work_inv {e : q.Envelope} {reply : Option (Except q.Error Unit)}
    (h : Answers token t (.work e) reply t') : t' = t := by
  cases h with
  | work _ _ => rfl

theorem not_holds_of_find? (hf : t'.find? id = t.find? id) (h : ¬Holds t id token) :
    ¬Holds t' id token := by
  rw [Holds,hf]
  exact h

/-- The world after a call. -/
def World.record (w : World q) (op : BatchOp q) (reply : Option op.Reply) (t : Rows q) :
    World q := ⟨t,w.history++[⟨op,reply,w.rows,t⟩]⟩

/-- The rules of a batch: it reserves first, and finalizes under its token. -/
def batchRules (q : Queue) (token : Uuid) : Rules (BatchOp q) BatchOp.Reply (World q) where
  step := fun op w reply w' => ∃ t, Answers token w.rows op reply t ∧ w' = w.record op reply t
  rely := fun w w' => w'.history = w.history ∧ OthersReach token w.rows w'.rows
  rely_refl := fun _ => ⟨rfl,.refl⟩
  rely_trans := fun h h' => ⟨h'.1.trans h.1,h.2.trans h'.2⟩
  inv := Inv token
  owes := fun op w => Owned token op ∧ (PerEntry op ∨ w.history = [])

/-- Others keep the invariant. -/
theorem Inv.rely {w w' : World q} (h : Inv token w) (hr : (batchRules q token).rely w w') :
    Inv token w' := by
  obtain ⟨hh,hreach⟩ := hr
  exact ⟨by rw [hh]; exact h.reservedFirst,
    by rw [hh]; exact fun e he id hc => hreach.not_holds (h.gone e he id hc),
    by rw [hh]; exact h.once,by rw [hh]; exact h.own⟩

/-- A call about an entry keeps the invariant. -/
theorem Inv.step {w : World q} (h : Inv token w) {op : BatchOp q} (hp : PerEntry op)
    (ho : Owned token op) {reply : Option op.Reply} {t : Rows q}
    (ha : Answers token w.rows op reply t) : Inv token (w.record op reply t) where
  reservedFirst := by
    intro e he
    change e ∈ (w.history++[_]).tail at he
    cases hh : w.history with
    | nil => rw [hh] at he; cases he
    | cons first rest =>
      rw [hh,List.cons_append,List.tail_cons] at he
      rcases List.mem_append.mp he with he | he
      · exact h.reservedFirst e (by rw [hh]; exact he)
      · obtain rfl := List.mem_singleton.mp he
        exact hp
  gone := by
    intro e he id hc
    rcases List.mem_append.mp he with he | he
    · have hn := h.gone e he id hc
      exact not_holds_of_find? (ha.find? hp ho hn) hn
    · -- the call itself completed the entry
      obtain rfl := List.mem_singleton.mp he
      obtain ⟨_,_,r,hf,hs⟩ := hc
      rintro ⟨r',hf',hr'⟩
      change t.find? id = some r' at hf'
      rw [hf] at hf'
      cases hf'
      rw [Row.heldBy_iff,hs] at hr'
      exact absurd hr'.2 (by decide)
  once := by
    refine List.pairwise_append.mpr ⟨h.once,List.pairwise_singleton _ _,?_⟩
    intro a hm b hb id hc
    obtain rfl := List.mem_singleton.mp hb
    exact ha.find? hp ho (h.gone a hm id hc)
  own := by
    intro e he hpe id hn
    rcases List.mem_append.mp he with he | he
    · exact h.own e he hpe id hn
    · obtain rfl := List.mem_singleton.mp he
      exact ha.find? hp ho hn

/-- So does the reservation, which comes first. -/
theorem Inv.reserve {w : World q} (h : w.history = []) (spec : ReservableSpec)
    (reply : Option (PortOp.reserve (q:=q) spec).Reply) (t : Rows q) :
    Inv token (w.record (.port (.reserve spec)) reply t) := by
  have hone : (w.record (.port (.reserve spec)) reply t).history =
      [⟨.port (.reserve spec),reply,w.rows,t⟩] := by
    change w.history++[_] = [_]
    rw [h,List.nil_append]
  refine ⟨?_,?_,?_,?_⟩
  · rw [hone]
    intro e he
    cases he
  · rw [hone]
    intro e he id hc
    obtain rfl := List.mem_singleton.mp he
    exact absurd hc.1 nofun
  · rw [hone]
    exact List.pairwise_singleton _ _
  · rw [hone]
    intro e he hp
    obtain rfl := List.mem_singleton.mp he
    exact hp.elim

/-- Every call that the batch may make keeps the invariant. -/
theorem Inv.call {w w' : World q} (h : Inv token w) {op : BatchOp q} {reply : Option op.Reply}
    (ho : (batchRules q token).owes op w) (hs : (batchRules q token).step op w reply w') :
    Inv token w' := by
  obtain ⟨t,ha,rfl⟩ := hs
  rcases ho.2 with hp | hempty
  · exact h.step hp ho.1 ha
  · cases ha with
    | reserve spec draw drawn => exact Inv.reserve hempty spec _ _
    | completed id owner now hl =>
      have hp : PerEntry (.port (.completed id owner) : BatchOp q) := trivial
      exact h.step hp ho.1 (.completed id owner now hl)
    | failed id owner maxAttempts reason now hl =>
      have hp : PerEntry (.port (.failed id owner maxAttempts reason) : BatchOp q) := trivial
      exact h.step hp ho.1 (.failed id owner maxAttempts reason now hl)
    | work entry reply =>
      have hp : PerEntry (.work entry : BatchOp q) := trivial
      exact h.step hp ho.1 (.work entry reply)

end Steps

section Reports

variable (items : Items q) (token : Uuid) {history : List (Event q)} {e : q.Envelope}

/-- The completion of an entry by the batch is in its history. -/
def CompletedBy (history : List (Event q)) (id : Uuid) : Prop :=
  ∃ event ∈ history, event.Completes token id

/-- An error about an entry: the reply of one of its calls, or a panic of one of
its stages. -/
inductive ErrorOf (history : List (Event q)) (e : q.Envelope) : q.Error → Prop
  /-- Its work returned it. -/
  | work {error : q.Error} {before after : Rows q} :
    ⟨.work e,some (.error error),before,after⟩ ∈ history → ErrorOf history e error
  /-- Its completion returned it. -/
  | completed {error : q.Error} {before after : Rows q} :
    ⟨.port (.completed (q.handed e).id token),some (.error error),before,after⟩ ∈ history →
      ErrorOf history e error
  /-- Its failure returned it. -/
  | failed {error : q.Error} {maxAttempts : ℤ} {reason : Option String} {before after : Rows q} :
    ⟨.port (.failed (q.handed e).id token maxAttempts reason),some (.error error),before,after⟩ ∈
      history → ErrorOf history e error
  /-- One of its stages panicked. -/
  | panicked (stage : String) :
    ErrorOf history e (items.panicError (panicked ((q.handed e).id,token) stage))

/-- What the batch knows about an entry it is done with. -/
def Accounted (history : List (Event q)) (errors : List q.Error) (e : q.Envelope) : Prop :=
  CompletedBy token history (q.handed e).id ∨ ∃ error ∈ errors, ErrorOf items token history e error

variable {items token}

theorem ErrorOf.mono {history' : List (Event q)} {error : q.Error}
    (h : ErrorOf items token history e error) (hs : history ⊆ history') :
    ErrorOf items token history' e error := by
  cases h with
  | work h => exact .work (hs h)
  | completed h => exact .completed (hs h)
  | failed h => exact .failed (hs h)
  | panicked stage => exact .panicked stage

theorem Accounted.mono {history' : List (Event q)} {errors errors' : List q.Error}
    (h : Accounted items token history errors e) (hs : history ⊆ history')
    (he : errors ⊆ errors') : Accounted items token history' errors' e := by
  rcases h with ⟨event,hm,hc⟩ | ⟨error,hm,herr⟩
  · exact .inl ⟨event,hs hm,hc⟩
  · exact .inr ⟨error,he hm,herr.mono hs⟩

end Reports

section Batch

variable {token : Uuid} {items : Items q} {spec : ReservableSpec} {w : World q} {e : q.Envelope}

/-- A call under the rules of a batch, as its caller sees it: the history has one
more event, and nothing is lost while waiting. -/
theorem safe_call {op : BatchOp q} {post : Option op.Reply → World q → Prop}
    (ho : Owned token op) (hp : PerEntry op ∨ w.history = [])
    (h : ∀ (w' : World q) t reply, w'.history = w.history → Answers token w'.rows op reply t →
      ∀ v : World q, v.history = w.history++[⟨op,reply,w'.rows,t⟩] → post reply v) :
    Safe (batchRules q token) (.perform op) post w := by
  refine Safe.perform fun w' hr _ => ⟨⟨ho,by rw [hr.1]; exact hp⟩,?_⟩
  rintro reply w'' ⟨t,ha,rfl⟩ _ v hv _
  refine h w' t reply hr.1 ha v ?_
  rw [hv.1,← hr.1]
  rfl

/-- The entries that a reservation hands out. -/
def handedBy (reply : Except q.Error (List q.Envelope)) : List q.Envelope :=
  match reply with
  | .ok entries => entries
  | .error _ => []

/-- The reservation that handed out the entries is in the history. -/
def Reserved (history : List (Event q)) (entries : List q.Envelope) : Prop :=
  ∃ spec reply before after, ⟨.port (.reserve spec),some reply,before,after⟩ ∈ history ∧
    handedBy reply = entries

/-- Every entry that is done is accounted for. -/
structure LoopInv (items : Items q) (token : Uuid) (all rest : List q.Envelope)
    (errors : List q.Error) (w : World q) : Prop where
  /-- The entries were reserved. -/
  reserved : Reserved w.history all
  /-- They carry the token of the batch. -/
  tokens : ∀ e ∈ all, (q.handed e).reservationId = some token
  /-- What remains is part of the batch. -/
  remaining : rest ⊆ all
  /-- The others are accounted for. -/
  done : ∀ e ∈ all, e ∈ rest ∨ Accounted items token w.history errors e

/-- A completion that returned `Ok` is in the history. -/
theorem completes_of_ok {id : Uuid} {t t' : Rows q}
    (h : Answers token t (.port (.completed id token)) (some (.ok ())) t') :
    (⟨.port (.completed id token),some (.ok ()),t,t'⟩ : Event q).Completes token id := by
  obtain ⟨now,hl⟩ := h.completed_inv
  obtain ⟨hok,rfl⟩ := hl.of_ok
  by_cases hheld : Holds t id token
  · obtain ⟨r,hf,hrow⟩ := hheld
    refine ⟨rfl,⟨r,hf,hrow⟩,?_⟩
    rw [completed_of_held hf hrow]
    exact ⟨_,Table.find?_updateAt_self hf _ (completedRow_id _),rfl⟩
  · rw [completed_of_not_held hheld] at hok
    cases hok

/-- An entry is done once it is accounted for. -/
theorem LoopInv.next {all rest : List q.Envelope} {errors errors' : List q.Error} {v : World q}
    (h : LoopInv items token all (e::rest) errors w) (hs : w.history ⊆ v.history)
    (he : errors ⊆ errors') (ha : Accounted items token v.history errors' e) :
    LoopInv items token all rest errors' v := by
  obtain ⟨spec,reply,before,after,hm,hall⟩ := h.reserved
  refine ⟨⟨spec,reply,before,after,hs hm,hall⟩,h.tokens,
    fun f hf => h.remaining (List.mem_cons_of_mem _ hf),?_⟩
  intro f hf
  rcases h.done f hf with hmem | hacc
  · rcases List.mem_cons.mp hmem with rfl | hmem
    · exact .inr ha
    · exact .inl hmem
  · exact .inr (hacc.mono hs he)

/-- One turn of the loop accounts for its entry. -/
theorem safe_processEntry {all rest : List q.Envelope} {errors : List q.Error}
    (h : LoopInv items token all (e::rest) errors w) (maxAttempts : ℤ) :
    Safe (batchRules q token) (processEntry items batchPorts performWork maxAttempts e errors)
      (fun o w => ∃ errors', o = some errors' ∧
        (batchRules q token).Lasts (LoopInv items token all rest errors') w) w := by
  rw [processEntry,items.identity_handed e token (h.tokens e (h.remaining (List.mem_cons_self ..)))]
  refine safe_runItem (fun v => w.history ⊆ v.history)
    (fun error v => w.history ⊆ v.history ∧ ErrorOf items token v.history e error)
    ?_ ?_ ?_
  · refine safe_call trivial (.inl trivial) fun w' t reply _ _ v hv v' hr _ => ?_
    rw [← hr.1] at hv
    have hs : w.history ⊆ v'.history := hv ▸ List.subset_append_left _ _
    have hm : ⟨.work e,reply,w'.rows,t⟩ ∈ v'.history := hv ▸ by simp
    rcases reply with _ | error | _
    · exact ⟨hs,.panicked "processing"⟩
    · exact ⟨hs,.work hm⟩
    · exact hs
  · intro w₁ _ hs₁
    refine safe_call rfl (.inl trivial) fun w' t reply _ ha v hv v' hr _ => ?_
    rw [← hr.1] at hv
    have hs : w.history ⊆ v'.history := List.Subset.trans hs₁ (hv ▸ List.subset_append_left _ _)
    have hm : ⟨.port (.completed (q.handed e).id token),reply,w'.rows,t⟩ ∈ v'.history :=
      hv ▸ by simp
    rcases reply with _ | error | _
    · exact ⟨hs,.panicked "completion"⟩
    · exact ⟨hs,.completed hm⟩
    · exact h.next hs (List.Subset.refl _) (.inl ⟨_,hm,completes_of_ok ha⟩)
  · rintro stage error w₁ _ ⟨hs₁,herr⟩
    refine safe_call rfl (.inl trivial) fun w' t reply _ _ v hv v' hr _ => ?_
    rw [← hr.1] at hv
    have hs₂ : w₁.history ⊆ v'.history := hv ▸ List.subset_append_left _ _
    have hs : w.history ⊆ v'.history := List.Subset.trans hs₁ hs₂
    have hacc : ∀ errors' : List q.Error, error ∈ errors' →
        Accounted items token v'.history errors' e :=
      fun errors' hmem => .inr ⟨error,hmem,herr.mono hs₂⟩
    rcases reply with _ | finalizationError | _
    all_goals exact h.next hs (List.subset_append_left _ _) (hacc _ (by simp))

/-- The result of a batch is true to what it did. -/
structure Truthful (items : Items q) (token : Uuid) (entries : List q.Envelope)
    (result : Except (List q.Error) ℕ) (w : World q) : Prop where
  /-- The entries were handed out by the first call of the batch, its only reservation. -/
  reserved : ∃ spec reply before after,
    w.history.head? = some ⟨.port (.reserve spec),some reply,before,after⟩ ∧
      handedBy reply = entries ∧ ∀ event ∈ w.history.tail, PerEntry event.op
  /-- `Ok(n)` means that each of the n entries was completed by this batch, under its token. -/
  succeeded : ∀ n, result = .ok n →
    n = entries.length ∧ ∀ e ∈ entries, CompletedBy token w.history (q.handed e).id
  /-- An entry whose completion committed is not changed again by this batch. -/
  once : w.history.Pairwise fun a b => ∀ id, a.Completes token id →
    b.after.find? id = b.before.find? id
  /-- A row that the batch does not hold, such as one that was swept away and
  reserved by another worker, is not changed by it. -/
  own : ∀ event ∈ w.history, PerEntry event.op → ∀ id, ¬Holds event.before id token →
    event.after.find? id = event.before.find? id
  /-- An entry that still holds the token has an error of its own in the result. -/
  reported : ∀ e ∈ entries, Holds w.rows (q.handed e).id token →
    ∃ errors, result = .error errors ∧ ∃ error ∈ errors, ErrorOf items token w.history e error

/-- What the batch itself knows of its result. -/
def Known (items : Items q) (token : Uuid) (result : Except (List q.Error) ℕ) (w : World q) :
    Prop :=
  ∃ entries errors, Reserved w.history entries ∧
    (∀ e ∈ entries, Accounted items token w.history errors e) ∧
    (result = .error errors ∨ errors = [] ∧ result = .ok entries.length)

/-- A batch knows of each of its entries. -/
theorem safe_batch (hw : w.history = []) :
    Safe (batchRules q token) (batch items spec)
      (fun o w => ∀ result, o = some result → Known items token result w) w := by
  refine safe_consume (fun all rest errors w => LoopInv items token all rest errors w) ?_ ?_ ?_
  · refine safe_call trivial (.inr hw) fun w' t reply _ ha v hv result he v' hr _ => ?_
    subst he
    rw [← hr.1] at hv
    have hm : ⟨.port (.reserve spec),some result,w'.rows,t⟩ ∈ v'.history :=
      hv ▸ List.mem_append_right _ (List.mem_singleton_self _)
    cases result with
    | error error =>
      exact ⟨[],[error],⟨spec,_,_,_,hm,rfl⟩,List.forall_mem_nil _,.inl rfl⟩
    | ok entries =>
      refine ⟨⟨spec,_,_,_,hm,rfl⟩,?_,List.Subset.refl _,fun e he => .inl he⟩
      intro e he
      obtain ⟨draw,drawn,hrep,_⟩ := ha.reserve_inv
      have hout : e ∈ handedOut w'.rows (.reserve spec draw) := by
        rw [handedOut,← Option.some.inj hrep]
        exact he
      obtain ⟨_,_,_,hc,_,_,_,_,_,ht⟩ := handedOut_row hout
      cases hc
      rw [ht,drawn]
  · exact fun all e rest errors w _ h => safe_processEntry h spec.maxAttempts
  · intro all errors w h
    have hacc : ∀ e ∈ all, Accounted items token w.history errors e :=
      fun e he => (h.done e he).resolve_left List.not_mem_nil
    cases errors with
    | nil => exact ⟨all,[],h.reserved,hacc,.inr ⟨rfl,rfl⟩⟩
    | cons error errors => exact ⟨all,error::errors,h.reserved,hacc,.inl rfl⟩

/-- The result of a batch of any of the four consumers stays true to what the
batch did, whatever becomes of its replies and whatever others do meanwhile. -/
theorem batch_truthful (name : QueueName) (float : SerdeJson.FloatReader) (token : Uuid)
    (t : Rows (name.queue float)) (spec : ReservableSpec)
    {result : Except (List (name.queue float).Error) ℕ} {w : World (name.queue float)}
    (h : Exec (batchRules (name.queue float) token) (batch (itemsOf name float) spec) ⟨t,[]⟩
      (some result) w) :
    ∃ entries, Truthful (itemsOf name float) token entries result w := by
  have hinv : Inv token (⟨t,[]⟩ : World (name.queue float)) := by
    constructor
    · intro e he
      cases he
    · intro e he
      cases he
    · exact List.Pairwise.nil
    · intro e he
      cases he
  obtain ⟨hi,hknown⟩ := h.post (fun _ _ hi hr => Inv.rely hi hr)
    (fun _ _ _ _ hi ho hs => Inv.call hi ho hs) hinv (safe_batch rfl)
  obtain ⟨entries,errors,⟨spec',reply,before,after,hm,hentries⟩,hacc,hresult⟩ := hknown result rfl
  refine ⟨entries,⟨spec',reply,before,after,?_,hentries,hi.reservedFirst⟩,?_,hi.once,hi.own,?_⟩
  · cases hh : w.history with
    | nil => rw [hh] at hm; cases hm
    | cons first rest =>
      rw [hh] at hm
      rcases List.mem_cons.mp hm with rfl | hm
      · rfl
      · have hp := hi.reservedFirst _ (by rw [hh]; exact hm)
        exact hp.elim
  · rintro n rfl
    rcases hresult with hresult | ⟨rfl,hresult⟩
    · cases hresult
    · cases hresult
      exact ⟨rfl,fun e he => (hacc e he).resolve_right nofun⟩
  · intro e he hheld
    rcases hacc e he with ⟨event,hmem,hc⟩ | ⟨error,hmem,herr⟩
    · exact absurd hheld (hi.gone event hmem _ hc)
    · rcases hresult with rfl | ⟨rfl,_⟩
      · exact ⟨errors,rfl,error,hmem,herr⟩
      · cases hmem

end Batch

section Samples

open Envelopes

/-- The waiting command as a reservation hands it out. -/
def waitingEnvelope : CommandEnvelope :=
  ⟨.fromU128 1,.fromU128 7,waitingRow.own,waitingRow.payload,1,none,none⟩

/-- The command once it is completed. -/
def doneTable : Rows (QueueName.commands.queue .integersOnly) :=
  heldTable.updateAt (.fromU128 1) (completedRow 1) (completedRow_id 1)

/-- The result of a batch whose completion commits without an answer. -/
def lostResult : Except (List CommandError) ℕ :=
  .error [.missingReservation (.fromU128 1),.storage "connection lost"]

/-- The completion commits, its answer is lost, and the failure finds the token stale. -/
theorem lost_completion : ∃ w, Exec (batchRules (QueueName.commands.queue .integersOnly)
    (.fromU128 7)) (batch (itemsOf .commands .integersOnly) singleSpec) ⟨waitingTable,[]⟩
      (some lostResult) w := by
  have hr : Answers (.fromU128 7) waitingTable (.port (.reserve singleSpec))
      (some (.ok [waitingEnvelope])) heldTable :=
    .reserve singleSpec (plainDraw (.fromU128 7) 0) rfl
  have hw : Answers (.fromU128 7) heldTable (.work waitingEnvelope) (some (.ok ())) heldTable :=
    .work _ _
  have hc : Answers (.fromU128 7) heldTable (.port (.completed (.fromU128 1) (.fromU128 7)))
      (some (.error (.storage "connection lost"))) doneTable :=
    .completed (.fromU128 1) (.fromU128 7) 1 (.lost nofun)
  have hf : ∀ reason, Answers (.fromU128 7) doneTable
      (.port (.failed (.fromU128 1) (.fromU128 7) 6 reason))
      (some (.error (.missingReservation (.fromU128 1)))) doneTable :=
    fun reason => .failed (.fromU128 1) (.fromU128 7) 6 reason 2 .acts
  exact ⟨_,.call ⟨rfl,.refl⟩ ⟨_,hr,rfl⟩ (.call ⟨rfl,.refl⟩ ⟨_,hw,rfl⟩
    (.call ⟨rfl,.refl⟩ ⟨_,hc,rfl⟩ (.call ⟨rfl,.refl⟩ ⟨_,hf _,rfl⟩ (.ret ⟨rfl,.refl⟩))))⟩

theorem batch_truthful_lost_completion : ∃ entries w,
    Truthful (itemsOf .commands .integersOnly) (.fromU128 7) entries lostResult w := by
  obtain ⟨w,h⟩ := lost_completion
  obtain ⟨entries,ht⟩ := batch_truthful .commands .integersOnly (.fromU128 7) waitingTable
    singleSpec h
  exact ⟨entries,w,ht⟩

end Samples

end Mulac.LostReplies
