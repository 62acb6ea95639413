import Mulac.PortCalls
import Mulac.ReserveContract
import Mulac.QueueRuns

/-!
# A batch settles every selected row

One batch of any consumer, alone with its table: every selected row ends
`Completed` or `Failed`, its work ran once if it decoded, and the result counts
exactly the items that failed. What the work of an item does is arbitrary; only
existing rows of the queue are off limits.
-/

namespace Mulac.BatchSettlement

open Identifiers Postgres QueueDomain KeyedTable OrderedSelection QueueRow Repository
  RepositoryContracts FourQueues QueueCalls PanicProgram Consumers PortCalls ReserveContract

variable {q : Queue}

section World

/-- What a batch does not decide itself. -/
structure Environment (q : Queue) where
  /-- What the reservation draws. -/
  draw : ReserveDraw q
  /-- `now()` of the statement that finalizes an entry. -/
  finalizedAt : Uuid → Timestamp
  /-- The outcome of the work on an entry; none is a panic. -/
  outcome : q.Envelope → Option (Except q.Error Unit)
  /-- What the work on an entry leaves of the table. -/
  effect : q.Envelope → Rows q → Rows q

/-- The table of the batch and the entries whose work has run. -/
structure World (q : Queue) where
  /-- The table. -/
  rows : Rows q
  /-- The entries worked on, in order. -/
  executed : List q.Envelope

/-- How the world answers a batch. -/
def answer (env : Environment q) : (op : BatchOp q) → World q → Option op.Reply × World q
  | .port (.reserve spec),w =>
    let outcome := reserve w.rows spec env.draw
    (some outcome.1,⟨outcome.2,w.executed⟩)
  | .port (.completed id token),w =>
    let outcome := completed w.rows id token (env.finalizedAt id)
    (some outcome.1,⟨outcome.2,w.executed⟩)
  | .port (.failed id token maxAttempts reason),w =>
    let outcome := failed w.rows id token maxAttempts reason (env.finalizedAt id)
    (some outcome.1,⟨outcome.2,w.executed⟩)
  | .work entry,w => (env.outcome entry,⟨env.effect entry w.rows,w.executed++[entry]⟩)

/-- A change that keeps the rows of a queue and adds only rows without a token. -/
structure Keeps (t t' : Rows q) : Prop where
  /-- Existing rows are not written. -/
  kept : ∀ k r, t.find? k = some r → t'.find? k = some r
  /-- New rows are not reserved. -/
  added : ∀ k r, t.find? k = none → t'.find? k = some r → r.reservationId = none

theorem Keeps.refl (t : Rows q) : Keeps t t where
  kept := fun _ _ h => h
  added := fun _ _ h h' => by rw [h] at h'; cases h'

end World

section RunItem

variable {Op : Type} {Reply : Op → Type} {σ ε : Type}
  {handle : (op : Op) → σ → Option (Reply op) × σ} {display : ε → String}
  {identity : Uuid × Uuid} {work complete : Prog Op Reply (Except ε Unit)}
  {fail : String → Prog Op Reply (Except ε Unit)} {panicError : String → ε}
  {errors : List ε} {s s' s₁ : σ}

/-- A guarded operation returns its result, or the error of its panic. -/
theorem run_guard {α : Type} (p : Prog Op Reply (Except ε α)) (e : ε) (s : σ) :
    (guard p e).run handle s = (some ((p.run handle s).1.getD (.error e)),(p.run handle s).2) := by
  unfold Consumers.guard
  rw [Prog.run_bind,Prog.run_catchUnwind]
  cases (p.run handle s).1 <;> rfl

theorem run_failItem_ok {stage : String} {error : ε}
    (h : (fail (failureReason identity stage (display error))).run handle s =
      (some (.ok ()),s')) :
    (failItem display identity fail panicError errors stage error).run handle s =
      (some (errors++[error]),s') := by
  rw [failItem,Prog.run_bind,run_guard,h]
  rfl

theorem run_failItem_error {stage : String} {error finalizationError : ε}
    (h : (fail (failureReason identity stage (display error))).run handle s =
      (some (.error finalizationError),s')) :
    (failItem display identity fail panicError errors stage error).run handle s =
      (some (errors++[finalizationError,error]),s') := by
  rw [failItem,Prog.run_bind,run_guard,h]
  rfl

/-- Work that did not return `Ok` goes to the failure stage. -/
theorem run_runItem_error {outcome : Option (Except ε Unit)} {error : ε}
    (hw : work.run handle s = (outcome,s₁))
    (ho : outcome.getD (.error (panicError (panicked identity "processing"))) = .error error) :
    (runItem display identity work complete fail panicError errors).run handle s =
      (failItem display identity fail panicError errors "processing" error).run handle s₁ := by
  rw [runItem,Prog.run_bind,run_guard,hw]
  dsimp only
  rw [ho]

/-- Work and completion that return `Ok` settle the item. -/
theorem run_runItem_ok {outcome : Option (Except ε Unit)}
    (hw : work.run handle s = (outcome,s₁))
    (ho : outcome.getD (.error (panicError (panicked identity "processing"))) = .ok ())
    (hc : complete.run handle s₁ = (some (.ok ()),s')) :
    (runItem display identity work complete fail panicError errors).run handle s =
      (some errors,s') := by
  rw [runItem,Prog.run_bind,run_guard,hw]
  dsimp only
  rw [ho]
  dsimp only
  rw [Prog.run_bind,run_guard,hc]
  rfl

end RunItem

section Item

variable (items : Items q) (env : Environment q) (maxAttempts : ℤ) (token : Uuid)

/-- The result of the processing stage of an entry. -/
def itemResult (e : q.Envelope) : Except q.Error Unit :=
  (env.outcome e).getD (.error (items.panicError (panicked ((q.handed e).id,token) "processing")))

/-- The error of an entry whose work failed. -/
def itemError (e : q.Envelope) : Option q.Error :=
  match itemResult items env token e with
  | .ok () => none
  | .error error => some error

/-- What the batch writes about an entry whose work failed. -/
def itemReason (e : q.Envelope) (error : q.Error) : String :=
  failureReason ((q.handed e).id,token) "processing" (q.display error)

/-- What the batch leaves of the row of an entry; a reason that cannot be stored
leaves the row as it is. -/
def settledItem (e : q.Envelope) (r : Row q.Own) : Row q.Own :=
  match itemError items env token e with
  | none => completedRow (env.finalizedAt (q.handed e).id) r
  | some error =>
    if h : nulFree (itemReason token e error) = true then
      failedRow (some (recordedExtraInfo q.float r.extraInfo (itemReason token e error) h))
        r.attempts maxAttempts (some (itemReason token e error))
        (env.finalizedAt (q.handed e).id) r
    else r

variable {items env maxAttempts token} {e : q.Envelope} {w : World q} {r : Row q.Own}
  {errors : List q.Error}

section Ports

/-- The world answers the work on an entry with its outcome. -/
theorem run_work (e : q.Envelope) (w : World q) : (performWork e).run (answer env) w =
    (env.outcome e,⟨env.effect e w.rows,w.executed++[e]⟩) := Prog.run_perform _ _ _

/-- The owner's completion goes through. -/
theorem run_completed {id : Uuid} (hf : w.rows.find? id = some r) (hr : r.heldBy token = true) :
    (batchPorts.completed id token).run (answer env) w =
      (some (.ok ()),⟨w.rows.updateAt id (completedRow (env.finalizedAt id)) (completedRow_id _),
        w.executed⟩) := by
  refine (Prog.run_perform _ _ _).trans ?_
  simp only [answer,completed_of_held hf hr]
  rfl

/-- The owner's failure goes through when its reason can be stored. -/
theorem run_failed {id : Uuid} (hf : w.rows.find? id = some r) (hr : r.heldBy token = true)
    {reason : String} (hn : nulFree reason = true) :
    (batchPorts.failed id token maxAttempts (some reason)).run (answer env) w =
      (some (.ok ()),⟨w.rows.updateAt id
        (failedRow (some (recordedExtraInfo q.float r.extraInfo reason hn)) r.attempts maxAttempts
          (some reason) (env.finalizedAt id)) (failedRow_id _ _ _ _ _),w.executed⟩) := by
  refine (Prog.run_perform _ _ _).trans ?_
  simp only [answer,failed_of_held hf hr (by rintro s ⟨⟩; exact hn)
    (failureExtraInfo_eq q.float r.extraInfo hn)]
  rfl

/-- A failure whose reason cannot be stored is refused. -/
theorem run_failed_nul (env : Environment q) (w : World q) (id token : Uuid) (maxAttempts : ℤ)
    {reason : String} (hn : nulFree reason = false) :
    ∃ e, (batchPorts.failed id token maxAttempts (some reason)).run (answer env) w =
      (some (.error e),w) := by
  obtain ⟨e,he⟩ : ∃ e, failed w.rows id token maxAttempts (some reason) (env.finalizedAt id) =
      (.error e,w.rows) := failed_of_nul hn maxAttempts (env.finalizedAt id)
  refine ⟨e,(Prog.run_perform _ _ _).trans ?_⟩
  simp only [answer,he]
  rfl

end Ports

/-- What one turn of the loop does to its row, to the other rows and to the errors. -/
theorem run_processEntry (items : Items q) (maxAttempts : ℤ)
    (hk : ∀ e t, Keeps t (env.effect e t))
    (ht : (q.handed e).reservationId = some token)
    (hf : w.rows.find? (q.handed e).id = some r) (hr : r.heldBy token = true)
    (errors : List q.Error) :
    ∃ added t',
      (processEntry items batchPorts performWork maxAttempts e errors).run (answer env) w =
        (some (errors++added),⟨t',w.executed++[e]⟩) ∧
      t'.find? (q.handed e).id = some (settledItem items env maxAttempts token e r) ∧
      (∀ k, k ≠ (q.handed e).id → t'.find? k = (env.effect e w.rows).find? k) ∧
      ((∀ error, itemError items env token e = some error →
        nulFree (itemReason token e error) = true) →
          added = (itemError items env token e).toList) := by
  have hf' := (hk e w.rows).kept _ _ hf
  rw [processEntry,items.identity_handed e token ht]
  dsimp only
  cases hres : itemResult items env token e with
  | ok u =>
    have he : itemError items env token e = none := by rw [itemError,hres]
    rw [run_runItem_ok (run_work e w) hres (run_completed hf' hr)]
    refine ⟨[],_,by rw [List.append_nil],?_,fun k hne => Table.find?_updateAt_ne _ hne _ _,?_⟩
    · rw [Table.find?_updateAt_self hf',settledItem,he]
    · rw [he]
      exact fun _ => rfl
  | error error =>
    have he : itemError items env token e = some error := by rw [itemError,hres]
    rw [run_runItem_error (run_work e w) hres]
    cases hn : nulFree (itemReason token e error) with
    | true =>
      rw [run_failItem_ok (run_failed hf' hr hn)]
      refine ⟨[error],_,rfl,?_,fun k hne => Table.find?_updateAt_ne _ hne _ _,?_⟩
      · rw [Table.find?_updateAt_self hf',settledItem,he]
        simp only [hn,dif_pos]
      · rw [he]
        exact fun _ => rfl
    | false =>
      obtain ⟨fe,hfail⟩ := run_failed_nul env ⟨env.effect e w.rows,w.executed++[e]⟩
        (q.handed e).id token maxAttempts hn
      rw [run_failItem_error hfail]
      refine ⟨[fe,error],_,rfl,?_,fun k hne => rfl,?_⟩
      · rw [hf',settledItem,he]
        simp [hn]
      · intro hall
        have := hall error he
        rw [hn] at this
        cases this

end Item

section Loop

variable (items : Items q) (env : Environment q) (maxAttempts : ℤ) (token : Uuid)

/-- What the loop over a batch leaves of the world. -/
structure Processed (entries : List q.Envelope) (w w' : World q) : Prop where
  /-- The row of every entry is settled. -/
  settled : ∀ e ∈ entries, ∀ r, w.rows.find? (q.handed e).id = some r →
    w'.rows.find? (q.handed e).id = some (settledItem items env maxAttempts token e r)
  /-- No other row is written. -/
  others : ∀ k r, (∀ e ∈ entries, (q.handed e).id ≠ k) → w.rows.find? k = some r →
    w'.rows.find? k = some r
  /-- New rows are not reserved. -/
  added : ∀ k r, w.rows.find? k = none → w'.rows.find? k = some r → r.reservationId = none
  /-- Every entry was worked on once, in order. -/
  executed : w'.executed = w.executed++entries

/-- An entry whose diagnostic can be stored. -/
def Storable (e : q.Envelope) : Prop :=
  ∀ error, itemError items env token e = some error → nulFree (itemReason token e error) = true

variable {items env maxAttempts token}

/-- A loop without entries does nothing. -/
theorem Processed.nil (w : World q) : Processed items env maxAttempts token [] w w := by
  refine ⟨?_,fun _ _ _ h => h,?_,?_⟩
  · intro e hm
    cases hm
  · intro k r h h'
    rw [h] at h'
    cases h'
  · rw [List.append_nil]

/-- What one turn leaves and what the rest of the loop leaves of that. -/
theorem Processed.cons {e : q.Envelope} {entries : List q.Envelope} {w w' : World q} {t' : Rows q}
    {r : Row q.Own} (hn : ∀ f ∈ entries, (q.handed f).id ≠ (q.handed e).id)
    (hk : Keeps w.rows (env.effect e w.rows)) (hf : w.rows.find? (q.handed e).id = some r)
    (hh : ∀ f ∈ entries, ∃ s, w.rows.find? (q.handed f).id = some s)
    (hset : t'.find? (q.handed e).id = some (settledItem items env maxAttempts token e r))
    (hother : ∀ k ≠ (q.handed e).id, t'.find? k = (env.effect e w.rows).find? k)
    (hp : Processed items env maxAttempts token entries ⟨t',w.executed++[e]⟩ w') :
    Processed items env maxAttempts token (e::entries) w w' := by
  have hkeep : ∀ k s, k ≠ (q.handed e).id → w.rows.find? k = some s → t'.find? k = some s := by
    intro k s hke hs
    rw [hother k hke]
    exact hk.kept k s hs
  refine ⟨?_,?_,?_,?_⟩
  · intro f hm s hs
    rcases List.mem_cons.mp hm with rfl | hm
    · rw [hf] at hs
      cases hs
      exact hp.others _ _ hn hset
    · exact hp.settled f hm s (hkeep _ s (hn f hm) hs)
  · intro k s hall hs
    exact hp.others k s (fun f hm => hall f (by simp [hm])) (hkeep k s (hall e (by simp)).symm hs)
  · intro k s hs hs'
    have hke : k ≠ (q.handed e).id := by
      rintro rfl
      rw [hf] at hs
      cases hs
    cases ht' : t'.find? k with
    | none => exact hp.added k s ht' hs'
    | some s' =>
      have hnone : s'.reservationId = none := by
        rw [hother k hke] at ht'
        exact hk.added k s' hs ht'
      -- every entry has its row from the start, so the new row is no entry's
      have hnew : ∀ f ∈ entries, (q.handed f).id ≠ k := by
        rintro f hm rfl
        obtain ⟨s'',hs''⟩ := hh f hm
        rw [hs''] at hs
        cases hs
      rw [hp.others k s' hnew ht'] at hs'
      cases hs'
      exact hnone
  · rw [hp.executed,List.append_assoc]
    rfl

/-- The loop settles every entry, and adds one error for each that failed. -/
theorem run_processEntries (items : Items q) (maxAttempts : ℤ)
    (hk : ∀ e t, Keeps t (env.effect e t)) (entries : List q.Envelope) (w : World q)
    (hn : (entries.map fun e => (q.handed e).id).Nodup)
    (ht : ∀ e ∈ entries, (q.handed e).reservationId = some token)
    (hh : ∀ e ∈ entries, ∃ r, w.rows.find? (q.handed e).id = some r ∧ r.heldBy token = true)
    (errors : List q.Error) :
    ∃ added w', (processEntries items batchPorts performWork maxAttempts entries errors).run
        (answer env) w = (some (errors++added),w') ∧
      Processed items env maxAttempts token entries w w' ∧
      ((∀ e ∈ entries, Storable items env token e) →
        added = entries.filterMap (itemError items env token)) := by
  induction entries generalizing w errors with
  | nil =>
    refine ⟨[],w,?_,.nil w,fun _ => rfl⟩
    rw [List.append_nil]
    rfl
  | cons e entries ih =>
    rw [List.map_cons,List.nodup_cons] at hn
    obtain ⟨r,hf,hr⟩ := hh e (by simp)
    obtain ⟨a,t',hrun,hset,hother,ha⟩ :=
      run_processEntry items maxAttempts hk (ht e (by simp)) hf hr errors
    have hne : ∀ f ∈ entries, (q.handed f).id ≠ (q.handed e).id := fun f hm he =>
      hn.1 (he ▸ List.mem_map_of_mem hm)
    have hheld : ∀ f ∈ entries, ∃ s, t'.find? (q.handed f).id = some s ∧
        s.heldBy token = true := by
      intro f hm
      obtain ⟨s,hs,hheld⟩ := hh f (by simp [hm])
      exact ⟨s,(hother _ (hne f hm)).trans ((hk e w.rows).kept _ s hs),hheld⟩
    obtain ⟨b,w',hrun',hp,hb⟩ := ih ⟨t',w.executed++[e]⟩ hn.2 (fun f hm => ht f (by simp [hm]))
      hheld (errors++a)
    refine ⟨a++b,w',?_,?_,?_⟩
    · rw [processEntries,Prog.run_bind_of_some _ hrun,hrun',List.append_assoc]
    · refine hp.cons hne (hk e w.rows) hf (fun f hm => ?_) hset hother
      exact (hh f (by simp [hm])).imp fun _ h => h.1
    · intro hall
      rw [ha (hall e (by simp)),hb fun f hm => hall f (by simp [hm]),List.filterMap_cons]
      cases itemError items env token e <;> rfl

end Loop

section Batch

variable (items : Items q) (env : Environment q)

/-- The rows that the reservation of a batch selects. -/
def selected (t : Rows q) (spec : ReservableSpec) (draw : ReserveDraw q) : List (Row q.Own) :=
  match (reserve t spec draw).1 with
  | .ok _ => candidates t spec draw
  | .error _ => []

/-- How a selected row reads once it is reserved. -/
def decodedAs (draw : ReserveDraw q) (r : Row q.Own) : Except DecodeError q.Envelope :=
  decode (reservedRow draw.token draw.now r)

/-- The last error of a selected row, unless it decodes and its work succeeds. -/
def diagnostic (r : Row q.Own) : Option String :=
  match decodedAs env.draw r with
  | .error error => some (reservationReason r.id env.draw.token error)
  | .ok e => (itemError items env env.draw.token e).map (itemReason env.draw.token e)

/-- The result of a batch over some entries. -/
def batchResult (entries : List q.Envelope) : Except (List q.Error) ℕ :=
  let errors := entries.filterMap (itemError items env env.draw.token)
  if errors.isEmpty then .ok entries.length else .error errors

/-- The whole batch is settled: its rows, the work, the other rows and the result. -/
structure BatchSettled (t : Rows q) (spec : ReservableSpec)
    (result : Option (Except (List q.Error) ℕ)) (w : World q) : Prop where
  /-- No row holds the token of the batch. -/
  released : ∀ r ∈ w.rows.rows, r.reservationId ≠ some env.draw.token
  /-- A selected row that decodes and whose work returned `Ok` is `Completed`. -/
  completed : ∀ r ∈ selected t spec env.draw, ∀ e, decodedAs env.draw r = .ok e →
    env.outcome e = some (.ok ()) →
      ∃ r', w.rows.find? r.id = some r' ∧ r'.status = Status.completed.code
  /-- Every other selected row is `Failed`, one attempt later, and its last error
  names the stage. -/
  failed : ∀ r ∈ selected t spec env.draw, ∀ reason, diagnostic items env r = some reason →
    ∃ r' errors, w.rows.find? r.id = some r' ∧ r'.status = Status.failed.code ∧
      r'.attempts = r.attempts+1 ∧ readExtraInfo r'.extraInfo = some (some ⟨errors++[reason]⟩)
  /-- Work ran once for each selected row that decodes, and for no other. -/
  executed : w.executed.Perm
    ((selected t spec env.draw).filterMap fun r => (decodedAs env.draw r).toOption)
  /-- Rows that were not selected are unchanged. -/
  unchanged : ∀ r ∈ t.rows, r ∉ selected t spec env.draw → w.rows.find? r.id = some r
  /-- The result counts the entries, or lists one error for each that failed. -/
  result : result = some (batchResult items env w.executed)

/-- What the batch is promised. -/
structure Provided (t : Rows q) (spec : ReservableSpec) : Prop where
  /-- The token of the reservation is fresh. -/
  fresh : ∀ r ∈ t.rows, r.reservationId ≠ some env.draw.token
  /-- The work does not write existing rows of the queue. -/
  keeps : ∀ e t, Keeps t (env.effect e t)
  /-- Recording a failure on an owned row succeeds. -/
  stores : ∀ e error, env.outcome e = some (.error error) →
    ∀ (t : Rows q) id token now, Holds t id token →
      (Repository.failed t id token spec.maxAttempts
        (some (failureReason (id,token) "processing" (q.display error))) now).1 = .ok ()

variable {items env} {t : Rows q} {spec : ReservableSpec}

/-- The entries that the reservation hands out. -/
def handed (t : Rows q) (spec : ReservableSpec) (draw : ReserveDraw q) : List q.Envelope :=
  (returnedRows t spec draw).filterMap fun r => (decode r).toOption

theorem selected_eq (hl : spec.limit < 2^63) (draw : ReserveDraw q) :
    selected t spec draw = candidates t spec draw := by
  rw [selected,reserve_eq t hl draw]

/-- The picked rows are the candidates. -/
theorem picked_perm (t : Rows q) (spec : ReservableSpec) (draw : ReserveDraw q) :
    (t.rows.filter (picked t spec draw)).Perm (candidates t spec draw) := by
  have hn : (candidates t spec draw).Nodup :=
    firstBy_nodup _ _ ((draw.candidates.nodup t.rows_nodup).filter _)
  rw [List.perm_ext_iff_of_nodup (t.rows_nodup.filter _) hn]
  intro r
  rw [List.mem_filter]
  exact ⟨fun h => (picked_iff h.1).mp h.2,
    fun h => ⟨(mem_candidates h).1,(picked_iff (mem_candidates h).1).mpr h⟩⟩

/-- The entries are the selected rows that decode. -/
theorem handed_perm (t : Rows q) (spec : ReservableSpec) (draw : ReserveDraw q) :
    (handed t spec draw).Perm
      ((candidates t spec draw).filterMap fun r => (decodedAs draw r).toOption) := by
  have hr : (returnedRows t spec draw).Perm
      ((candidates t spec draw).map (reservedRow draw.token draw.now)) :=
    (draw.returning.perm _).trans ((picked_perm t spec draw).map _)
  have hf := hr.filterMap fun r => (decode r).toOption
  rwa [List.filterMap_map] at hf

/-- An entry stands for a selected row. -/
theorem mem_handed {draw : ReserveDraw q} {e : q.Envelope} (h : e ∈ handed t spec draw) :
    ∃ r ∈ candidates t spec draw, decodedAs draw r = .ok e ∧ (q.handed e).id = r.id ∧
      (q.handed e).reservationId = some draw.token := by
  obtain ⟨r,hr,hd⟩ := selected_of_returned h
  exact ⟨r,hr,hd,decode_handed (reservedRow_heldBy draw.token draw.now r) hd⟩

theorem handed_of_decodes {draw : ReserveDraw q} {r : Row q.Own} {e : q.Envelope}
    (hr : r ∈ candidates t spec draw) (h : decodedAs draw r = .ok e) :
    e ∈ handed t spec draw := returned_of_selected hr h

/-- The table that the reservation leaves. -/
def reservedTable (t : Rows q) (spec : ReservableSpec) (draw : ReserveDraw q) : Rows q :=
  t.update (picked t spec draw) (reservedAndSettled spec draw) (reservedAndSettled_id spec draw)

theorem find?_reservedTable {draw : ReserveDraw q} {r : Row q.Own}
    (hr : r ∈ candidates t spec draw) :
    (reservedTable t spec draw).find? r.id = some (reservedAndSettled spec draw r) :=
  find?_selected hr

theorem find?_reservedTable_of_not {draw : ReserveDraw q} {r : Row q.Own} (hm : r ∈ t.rows)
    (hr : r ∉ candidates t spec draw) : (reservedTable t spec draw).find? r.id = some r := by
  refine (find?_not_selected fun s hs hid => ?_).trans (Table.find?_key hm)
  exact hr (t.row_eq (mem_candidates hs).1 hm hid ▸ hs)

/-- A row that decodes is reserved as it stands. -/
theorem reservedAndSettled_of_ok {draw : ReserveDraw q} {r : Row q.Own} {e : q.Envelope}
    (h : decodedAs draw r = .ok e) :
    reservedAndSettled spec draw r = reservedRow draw.token draw.now r := by
  rw [reservedAndSettled,settledRow,show decode (reservedRow draw.token draw.now r) = .ok e from h]

/-- The entries of a batch hold its token. -/
theorem handed_held {draw : ReserveDraw q} {e : q.Envelope} (he : e ∈ handed t spec draw) :
    ∃ r, (reservedTable t spec draw).find? (q.handed e).id = some r ∧
      r.heldBy draw.token = true := by
  obtain ⟨r,hr,hd,hid,_⟩ := mem_handed he
  exact ⟨_,by rw [hid,find?_reservedTable hr,reservedAndSettled_of_ok hd],
    reservedRow_heldBy _ _ r⟩

/-- A batch whose limit an `i64` can hold runs its loop over the reserved entries. -/
theorem run_batch (items : Items q) (t : Rows q) (hl : spec.limit < 2^63)
    (hk : ∀ e t, Keeps t (env.effect e t)) :
    ∃ errors w', Processed items env spec.maxAttempts env.draw.token (handed t spec env.draw)
        ⟨reservedTable t spec env.draw,[]⟩ w' ∧
      (batch items spec).run (answer env) ⟨t,[]⟩ =
        (some (if errors.isEmpty then .ok (handed t spec env.draw).length else .error errors),w') ∧
      ((∀ e ∈ handed t spec env.draw, Storable items env env.draw.token e) →
        errors = (handed t spec env.draw).filterMap (itemError items env env.draw.token)) := by
  have hnodup := handedOut_nodup t (.reserve spec env.draw)
  rw [handedOut,reserve_eq t hl env.draw] at hnodup
  obtain ⟨errors,w',hrun,hproc,herrors⟩ := run_processEntries items
    spec.maxAttempts hk (handed t spec env.draw)
    ⟨reservedTable t spec env.draw,[]⟩ hnodup
    (fun e he => (mem_handed he).choose_spec.2.2.2) (fun e he => handed_held he) []
  refine ⟨errors,w',hproc,?_,herrors⟩
  have hres : (batchPorts.reserve spec).run (answer env) ⟨t,[]⟩ =
      (some (.ok (handed t spec env.draw)),⟨reservedTable t spec env.draw,[]⟩) := by
    refine (Prog.run_perform _ _ _).trans ?_
    simp only [answer,reserve_eq t hl env.draw]
    rfl
  rw [batch,consume,Prog.run_bind_of_some _ hres]
  dsimp only
  rw [Prog.run_bind_of_some _ hrun]
  rfl

/-- Every diagnostic can be stored when recording a failure succeeds. -/
theorem Provided.storable (hp : Provided env t spec) {e : q.Envelope}
    (he : e ∈ handed t spec env.draw) : Storable items env env.draw.token e := by
  intro error herr
  rw [itemError] at herr
  cases ho : env.outcome e with
  | none =>
    rw [itemResult,ho] at herr
    cases herr
    rw [itemReason,failureReason_nulFree _ (by decide)]
    exact items.panicError_display _ (panicked_nulFree _ (by decide))
  | some outcome =>
    rw [itemResult,ho,Option.getD_some] at herr
    cases outcome with
    | ok u => cases herr
    | error err =>
      cases herr
      by_contra hnul
      obtain ⟨d,hd⟩ : ∃ d, failed (reservedTable t spec env.draw) (q.handed e).id env.draw.token
          spec.maxAttempts (some (itemReason env.draw.token e error)) 0 =
            (.error d,reservedTable t spec env.draw) :=
        failed_of_nul (Bool.eq_false_iff.mpr hnul) spec.maxAttempts 0
      have hok := hp.stores e error ho _ _ _ 0 (handed_held he)
      rw [itemReason] at hd
      rw [hd] at hok
      cases hok

/-- An entry with the id of a row stands for that row. -/
theorem handed_row {draw : ReserveDraw q} {e : q.Envelope} (he : e ∈ handed t spec draw)
    {r : Row q.Own} (hr : r ∈ t.rows) (hid : (q.handed e).id = r.id) :
    r ∈ candidates t spec draw ∧ decodedAs draw r = .ok e := by
  obtain ⟨s,hs,hd,hid',_⟩ := mem_handed he
  obtain rfl : s = r := t.row_eq (mem_candidates hs).1 hr (hid'.symm.trans hid)
  exact ⟨hs,hd⟩

/-- A settled row has no token. -/
theorem settledItem_released {maxAttempts : ℤ} {token : Uuid} {e : q.Envelope}
    (h : Storable items env token e) (r : Row q.Own) :
    (settledItem items env maxAttempts token e r).reservationId = none := by
  unfold settledItem
  cases he : itemError items env token e with
  | none => rfl
  | some error =>
    simp only [dif_pos (h error he)]
    rfl

section Settled

variable {w' : World q}
  (hp : Provided env t spec)
  (hw : Processed items env spec.maxAttempts env.draw.token (handed t spec env.draw)
    ⟨reservedTable t spec env.draw,[]⟩ w')
  (hs : ∀ e ∈ handed t spec env.draw, Storable items env env.draw.token e)

include hw in
/-- The row of a selected entry that decodes is settled by its item. -/
theorem find?_of_decodes {r : Row q.Own} (hr : r ∈ candidates t spec env.draw) {e : q.Envelope}
    (hd : decodedAs env.draw r = .ok e) :
    w'.rows.find? r.id = some (settledItem items env spec.maxAttempts env.draw.token e
      (reservedRow env.draw.token env.draw.now r)) := by
  have hid := (decode_handed (reservedRow_heldBy env.draw.token env.draw.now r) hd).1
  have hrow := hw.settled e (handed_of_decodes hr hd)
    (reservedRow env.draw.token env.draw.now r)
  have hres := find?_reservedTable hr
  rw [reservedAndSettled_of_ok hd] at hres
  rw [hid] at hrow
  exact hrow hres

include hw in
/-- The row of a selected entry that does not decode stays quarantined. -/
theorem find?_of_not_decodes {r : Row q.Own} (hr : r ∈ candidates t spec env.draw)
    {error : DecodeError} (hd : decodedAs env.draw r = .error error) :
    w'.rows.find? r.id = some (quarantinedRow env.draw.token spec.maxAttempts env.draw.now error
      (reservedRow env.draw.token env.draw.now r)) := by
  refine hw.others r.id _ ?_ ?_
  · intro e he hid
    have hd' := (handed_row he (mem_candidates hr).1 hid).2
    rw [hd] at hd'
    cases hd'
  · have hq : reservedAndSettled spec env.draw r = quarantinedRow env.draw.token spec.maxAttempts
        env.draw.now error (reservedRow env.draw.token env.draw.now r) := by
      rw [reservedAndSettled,settledRow,
        show decode (reservedRow env.draw.token env.draw.now r) = .error error from hd]
    rw [← hq]
    exact find?_reservedTable hr

include hw in
theorem find?_of_not_selected {r : Row q.Own} (hm : r ∈ t.rows)
    (hr : r ∉ candidates t spec env.draw) : w'.rows.find? r.id = some r :=
  hw.others r.id r (fun _ he hid => hr (handed_row he hm hid).1) (find?_reservedTable_of_not hm hr)

include hp hw hs in
/-- No row is left under the token of the batch. -/
theorem all_released : ∀ r ∈ w'.rows.rows, r.reservationId ≠ some env.draw.token := by
  intro r hr
  have hf := Table.find?_key hr
  cases ht : t.find? r.id with
  | none =>
    have hnone : (reservedTable t spec env.draw).find? r.id = none := by
      rw [reservedTable,Table.find?_update,ht,Option.map_none]
    rw [hw.added r.id r hnone hf]
    nofun
  | some r₀ =>
    have hm := Table.mem_of_find? ht
    have hid : r₀.id = r.id := Table.key_of_find? ht
    rw [← hid] at hf
    by_cases hc : r₀ ∈ candidates t spec env.draw
    · cases hd : decodedAs env.draw r₀ with
      | ok e =>
        rw [find?_of_decodes hw hc hd] at hf
        cases hf
        rw [settledItem_released (hs e (handed_of_decodes hc hd))]
        nofun
      | error error =>
        rw [find?_of_not_decodes hw hc hd] at hf
        cases hf
        nofun
    · rw [find?_of_not_selected hw hm hc] at hf
      cases hf
      exact hp.fresh r hm

end Settled

/-- A batch whose limit an `i64` can hold settles every selected row. -/
theorem settled_of_limit (hl : spec.limit < 2^63) (hp : Provided env t spec) :
    BatchSettled items env t spec ((batch items spec).run (answer env) ⟨t,[]⟩).1
      ((batch items spec).run (answer env) ⟨t,[]⟩).2 := by
  obtain ⟨errors,w',hw,hrun,herrors⟩ := run_batch items t hl hp.keeps
  have hs : ∀ e ∈ handed t spec env.draw, Storable items env env.draw.token e :=
    fun e he => hp.storable he
  rw [hrun]
  have hsel := selected_eq (t:=t) hl env.draw
  constructor
  · exact all_released hp hw hs
  · intro r hr e hd ho
    rw [hsel] at hr
    refine ⟨_,find?_of_decodes hw hr hd,?_⟩
    have he : itemError items env env.draw.token e = none := by
      rw [itemError,itemResult,ho]
      rfl
    rw [settledItem,he]
    rfl
  · intro r hr reason hreason
    rw [hsel] at hr
    unfold diagnostic at hreason
    cases hd : decodedAs env.draw r with
    | error error =>
      rw [hd] at hreason
      cases hreason
      exact ⟨_,_,find?_of_not_decodes hw hr hd,rfl,rfl,
        readExtraInfo_recorded q.float r.extraInfo _⟩
    | ok e =>
      rw [hd] at hreason
      obtain ⟨error,he,rfl⟩ := Option.map_eq_some_iff.mp hreason
      have hrow := find?_of_decodes hw hr hd
      simp only [settledItem,he,dif_pos (hs e (handed_of_decodes hr hd) error he)] at hrow
      exact ⟨_,_,hrow,rfl,rfl,readExtraInfo_recorded q.float r.extraInfo _⟩
  · rw [hsel,hw.executed]
    exact handed_perm t spec env.draw
  · intro r hm hr
    rw [hsel] at hr
    exact find?_of_not_selected hw hm hr
  · rw [herrors hs,hw.executed]
    rfl

/-- From 2^63 on the reservation is refused, and the batch reports an error
although no item failed. -/
theorem not_settled_of_limit (hl : ¬spec.limit < 2^63) :
    ¬BatchSettled items env t spec ((batch items spec).run (answer env) ⟨t,[]⟩).1
      ((batch items spec).run (answer env) ⟨t,[]⟩).2 := by
  intro h
  have hres : (batchPorts.reserve spec).run (answer env) ⟨t,[]⟩ =
      (some (.error (q.reserveError "LIMIT must not be negative")),⟨t,[]⟩) := by
    refine (Prog.run_perform _ _ _).trans ?_
    simp only [answer,reserve_of_limit t hl env.draw]
    rfl
  have hrun : (batch items spec).run (answer env) ⟨t,[]⟩ =
      (some (.error [q.reserveError "LIMIT must not be negative"]),⟨t,[]⟩) := by
    rw [batch,consume,Prog.run_bind_of_some _ hres]
    rfl
  have hresult := h.result
  rw [hrun] at hresult
  cases hresult

/-- A batch of any of the four consumers settles every selected row exactly when
an `i64` can hold its limit. -/
theorem batch_settles_iff (name : QueueName) (float : SerdeJson.FloatReader)
    (env : Environment (name.queue float)) (t : Rows (name.queue float)) (spec : ReservableSpec)
    (hp : Provided env t spec) :
    BatchSettled (itemsOf name float) env t spec
      ((batch (itemsOf name float) spec).run (answer env) ⟨t,[]⟩).1
      ((batch (itemsOf name float) spec).run (answer env) ⟨t,[]⟩).2 ↔ spec.limit < 2^63 := by
  constructor
  · intro h
    by_contra hl
    exact not_settled_of_limit hl h
  · exact fun hl => settled_of_limit hl hp

end Batch

section Samples

open QueueRuns

/-- A world in which all work succeeds and leaves the table alone. -/
def healthyWork : Environment (QueueName.commands.queue .integersOnly) where
  draw := plainDraw (.fromU128 7) 0
  finalizedAt := fun _ => 0
  outcome := fun _ => some (.ok ())
  effect := fun _ t => t

theorem healthyWork_provided (spec : ReservableSpec) :
    Provided healthyWork waitingTable spec where
  fresh := by decide
  keeps := fun _ t => Keeps.refl t
  stores := fun _ _ h => by cases h

theorem batch_settles_waiting :
    BatchSettled (itemsOf .commands .integersOnly) healthyWork waitingTable singleSpec
      ((batch (itemsOf .commands .integersOnly) singleSpec).run (answer healthyWork)
        ⟨waitingTable,[]⟩).1
      ((batch (itemsOf .commands .integersOnly) singleSpec).run (answer healthyWork)
        ⟨waitingTable,[]⟩).2 ↔ singleSpec.limit < 2^63 :=
  batch_settles_iff .commands .integersOnly healthyWork waitingTable singleSpec
    (healthyWork_provided singleSpec)

/-- A limit that turns negative as an `i64`. -/
def negativeSpec : ReservableSpec :=
  { singleSpec with limit := 2^63, limit_lt := by decide }

/-- A limit of 2^63 refuses the reservation of a waiting command. -/
theorem batch_unsettled_at_limit :
    Provided healthyWork waitingTable negativeSpec ∧
      ¬BatchSettled (itemsOf .commands .integersOnly) healthyWork waitingTable negativeSpec
        ((batch (itemsOf .commands .integersOnly) negativeSpec).run (answer healthyWork)
          ⟨waitingTable,[]⟩).1
        ((batch (itemsOf .commands .integersOnly) negativeSpec).run (answer healthyWork)
          ⟨waitingTable,[]⟩).2 :=
  ⟨healthyWork_provided negativeSpec,not_settled_of_limit (by decide)⟩

end Samples

end Mulac.BatchSettlement
