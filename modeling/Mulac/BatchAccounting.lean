import Mulac.BatchSettlement
import Mulac.CallTrace

/-!
# What a batch calls and reports

For any ports and any work, with any outcomes: which calls `run_item` makes for
an item, which errors the item contributes, and that a batch does exactly this
for each of its items in turn. The closures of a consumer are opaque here; a
consumer with closures of its own runs as the batch whose calls they answer.
-/

namespace Mulac.BatchAccounting

open Identifiers QueueRow Repository Envelopes FourQueues QueueRuns PanicProgram CallTrace
  Consumers PortCalls BatchSettlement

section Spec

variable {name : QueueName} {float : SerdeJson.FloatReader}

/-- What the work on an item, its completion and its failure return when they are
called; none is a panic. -/
structure Outcomes (ε : Type) where
  /-- The work. -/
  work : Option (Except ε Unit)
  /-- `completed`. -/
  complete : Option (Except ε Unit)
  /-- `failed`. -/
  fail : Option (Except ε Unit)

/-- The `MissingReservation` error of a library. -/
def missingReservation (name : QueueName) (float : SerdeJson.FloatReader) (id : Uuid) :
    (name.queue float).Error :=
  match name with
  | .commands => CommandError.missingReservation id
  | .events => EventError.missingReservation id
  | .inbox => InboxError.missingReservation id
  | .outbox => OutboxError.missingReservation id

/-- The error of a stage that panicked: its text names the item and the stage. -/
def panicOf (name : QueueName) (float : SerdeJson.FloatReader) (identity : Uuid × Uuid)
    (stage : String) : (name.queue float).Error :=
  (itemsOf name float).panicError (panicked identity stage)

/-- The stage that failed, and its error: the work, or the completion after work
that returned `Ok`. -/
def stageFailure (name : QueueName) (float : SerdeJson.FloatReader) (identity : Uuid × Uuid)
    (o : Outcomes (name.queue float).Error) : Option (String × (name.queue float).Error) :=
  match o.work.getD (.error (panicOf name float identity "processing")) with
  | .error error => some ("processing",error)
  | .ok () =>
    match o.complete.getD (.error (panicOf name float identity "completion")) with
    | .error error => some ("completion",error)
    | .ok () => none

/-- The call of `completed` for an item whose work returned `Ok`. -/
def completeCalls (identity : Uuid × Uuid) (o : Outcomes (name.queue float).Error) :
    List (Observed (BatchOp (name.queue float)) BatchOp.Reply) :=
  match o.work with
  | some (.ok ()) => [⟨.port (.completed identity.1 identity.2),o.complete⟩]
  | _ => []

/-- The call of `failed` for an item one of whose stages failed, with a reason that
names the stage. -/
def failCalls (identity : Uuid × Uuid) (maxAttempts : ℤ) (o : Outcomes (name.queue float).Error) :
    List (Observed (BatchOp (name.queue float)) BatchOp.Reply) :=
  match stageFailure name float identity o with
  | none => []
  | some (stage,error) => [⟨.port (.failed identity.1 identity.2 maxAttempts
      (some (failureReason identity stage ((name.queue float).display error)))),o.fail⟩]

/-- The calls for one item: none without a token. -/
def itemCalls (maxAttempts : ℤ) (e : (name.queue float).Envelope)
    (o : Outcomes (name.queue float).Error) :
    List (Observed (BatchOp (name.queue float)) BatchOp.Reply) :=
  match ((name.queue float).handed e).reservationId with
  | none => []
  | some token =>
    let identity := (((name.queue float).handed e).id,token)
    ⟨.work e,o.work⟩::(completeCalls identity o++failCalls identity maxAttempts o)

/-- The error of a result, if it has one. -/
def errorOf {ε : Type} : Except ε Unit → List ε
  | .ok () => []
  | .error error => [error]

/-- The error of the failure stage, if it did not return `Ok`. -/
def finalizationErrors (identity : Uuid × Uuid) (o : Outcomes (name.queue float).Error) :
    List (name.queue float).Error :=
  errorOf (o.fail.getD (.error (panicOf name float identity "failure finalization")))

/-- The errors one item contributes: one without a token, and otherwise that of the
failed stage after that of the failure stage. -/
def itemErrors (e : (name.queue float).Envelope) (o : Outcomes (name.queue float).Error) :
    List (name.queue float).Error :=
  match ((name.queue float).handed e).reservationId with
  | none => [missingReservation name float ((name.queue float).handed e).id]
  | some token =>
    let identity := (((name.queue float).handed e).id,token)
    match stageFailure name float identity o with
    | none => []
    | some (_,error) => finalizationErrors identity o++[error]

/-- An item with a token whose work and completion returned `Ok`. -/
def Fine (e : (name.queue float).Envelope) (o : Outcomes (name.queue float).Error) : Prop :=
  (∃ token, ((name.queue float).handed e).reservationId = some token) ∧
    o.work = some (.ok ()) ∧ o.complete = some (.ok ())

theorem stageFailure_eq_none {identity : Uuid × Uuid} {o : Outcomes (name.queue float).Error} :
    stageFailure name float identity o = none ↔
      o.work = some (.ok ()) ∧ o.complete = some (.ok ()) := by
  obtain ⟨work,complete,fail⟩ := o
  match work,complete with
  | none,_ => simp [stageFailure]
  | some (.error _),_ => simp [stageFailure]
  | some (.ok ()),none => simp [stageFailure]
  | some (.ok ()),some (.error _) => simp [stageFailure]
  | some (.ok ()),some (.ok ()) => simp [stageFailure]

variable {e : (name.queue float).Envelope} {o : Outcomes (name.queue float).Error} {token : Uuid}

/-- A result that is `Ok` once a panic counts as an error was returned. -/
theorem eq_ok_of_getD {ε : Type} {result : Option (Except ε Unit)} {error : ε}
    (h : result.getD (.error error) = .ok ()) : result = some (.ok ()) := by
  match result with
  | none => cases h
  | some (.error _) => cases h
  | some (.ok ()) => rfl

/-- Work that did not return `Ok` is not followed by a completion. -/
theorem completeCalls_of_error {identity : Uuid × Uuid}
    {panicError error : (name.queue float).Error}
    (h : o.work.getD (.error panicError) = .error error) : completeCalls identity o = [] := by
  unfold completeCalls
  split
  · next hw =>
    rw [hw] at h
    cases h
  · rfl

/-- The calls for an item one of whose stages failed. -/
theorem itemCalls_failed (ht : ((name.queue float).handed e).reservationId = some token)
    {stage : String} {error : (name.queue float).Error}
    (h : stageFailure name float (((name.queue float).handed e).id,token) o = some (stage,error))
    (maxAttempts : ℤ) :
    itemCalls maxAttempts e o =
      ⟨.work e,o.work⟩::(completeCalls (((name.queue float).handed e).id,token) o++
        [⟨.port (.failed ((name.queue float).handed e).id token maxAttempts
          (some (failureReason (((name.queue float).handed e).id,token) stage
            ((name.queue float).display error)))),o.fail⟩]) := by
  rw [itemCalls,ht]
  dsimp only
  rw [failCalls,h]

/-- The errors of an item one of whose stages failed. -/
theorem itemErrors_failed (ht : ((name.queue float).handed e).reservationId = some token)
    {stage : String} {error : (name.queue float).Error}
    (h : stageFailure name float (((name.queue float).handed e).id,token) o = some (stage,error)) :
    itemErrors e o =
      finalizationErrors (((name.queue float).handed e).id,token) o++[error] := by
  rw [itemErrors,ht]
  dsimp only
  rw [h]

/-- An item contributes no error exactly when it is fine. -/
theorem itemErrors_eq_nil : itemErrors e o = [] ↔ Fine e o := by
  unfold itemErrors Fine
  cases ht : ((name.queue float).handed e).reservationId with
  | none => simp
  | some token =>
    have hnone : stageFailure name float (((name.queue float).handed e).id,token) o = none ↔
        o.work = some (.ok ()) ∧ o.complete = some (.ok ()) := stageFailure_eq_none
    rw [← hnone]
    dsimp only
    cases hs : stageFailure name float (((name.queue float).handed e).id,token) o with
    | none => simp
    | some failure => simp

end Spec

section Item

variable {Op : Type} {Reply : Op → Type} {σ ε : Type}
  {handle : (op : Op) → σ → Option (Reply op) × σ} {display : ε → String}
  {identity : Uuid × Uuid} {work complete : Prog Op Reply (Except ε Unit)}
  {fail : String → Prog Op Reply (Except ε Unit)} {panicError : String → ε}
  {errors : List ε} {s s₁ s₂ s₃ : σ} {stage : String} {error : ε}
  {worked completed failed : Option (Except ε Unit)}

/-- A guarded operation makes the calls of the operation. -/
theorem trace_guard {α : Type} (p : Prog Op Reply (Except ε α)) (e : ε) (s : σ) :
    trace handle (guard p e) s = trace handle p s := by
  unfold Consumers.guard
  rw [trace_bind,trace_catchUnwind,Prog.run_catchUnwind]
  cases (p.run handle s).1 <;> exact List.append_nil _

/-- The failure stage reports itself first if it did not return `Ok`. -/
theorem run_failItem (h : (fail (failureReason identity stage (display error))).run handle s =
    (failed,s₁)) :
    (failItem display identity fail panicError errors stage error).run handle s =
      (some (errors++(errorOf (failed.getD (.error (panicError (panicked identity
        "failure finalization"))))++[error])),s₁) := by
  rw [failItem,Prog.run_bind,run_guard,h]
  dsimp only
  cases failed.getD (.error (panicError (panicked identity "failure finalization"))) <;> rfl

/-- The failure stage makes the calls of `fail`. -/
theorem trace_failItem :
    trace handle (failItem display identity fail panicError errors stage error) s =
      trace handle (fail (failureReason identity stage (display error))) s := by
  rw [failItem,trace_bind,trace_guard,run_guard]
  dsimp only
  cases ((fail (failureReason identity stage (display error))).run handle s).1.getD
    (.error (panicError (panicked identity "failure finalization"))) <;> exact List.append_nil _

/-- Completion that did not return `Ok` goes to the failure stage. -/
theorem run_runItem_completion (hw : work.run handle s = (some (.ok ()),s₁))
    (hc : complete.run handle s₁ = (completed,s₂))
    (ho : completed.getD (.error (panicError (panicked identity "completion"))) = .error error) :
    (runItem display identity work complete fail panicError errors).run handle s =
      (failItem display identity fail panicError errors "completion" error).run handle s₂ := by
  rw [runItem,Prog.run_bind,run_guard,hw]
  dsimp only [Option.getD_some]
  rw [Prog.run_bind,run_guard,hc]
  dsimp only
  rw [ho]

/-- Work that did not return `Ok` is followed by the failure stage. -/
theorem trace_runItem_error (hw : work.run handle s = (worked,s₁))
    (ho : worked.getD (.error (panicError (panicked identity "processing"))) = .error error) :
    trace handle (runItem display identity work complete fail panicError errors) s =
      trace handle work s++
        trace handle (fail (failureReason identity "processing" (display error))) s₁ := by
  rw [runItem,trace_bind,trace_guard,run_guard,hw]
  dsimp only
  rw [ho]
  exact congrArg _ trace_failItem

/-- Work that returned `Ok` is followed by the completion. -/
theorem trace_runItem_completion (hw : work.run handle s = (some (.ok ()),s₁))
    (hc : complete.run handle s₁ = (completed,s₂))
    (ho : completed.getD (.error (panicError (panicked identity "completion"))) = .error error) :
    trace handle (runItem display identity work complete fail panicError errors) s =
      trace handle work s++(trace handle complete s₁++
        trace handle (fail (failureReason identity "completion" (display error))) s₂) := by
  rw [runItem,trace_bind,trace_guard,run_guard,hw]
  dsimp only [Option.getD_some]
  rw [trace_bind,trace_guard,run_guard,hc]
  dsimp only
  rw [ho]
  exact congrArg (fun l => _++(_++l)) trace_failItem

/-- An item whose completion returned `Ok` is done. -/
theorem trace_runItem_ok (hw : work.run handle s = (some (.ok ()),s₁))
    (hc : complete.run handle s₁ = (some (.ok ()),s₂)) :
    trace handle (runItem display identity work complete fail panicError errors) s =
      trace handle work s++trace handle complete s₁ := by
  rw [runItem,trace_bind,trace_guard,run_guard,hw]
  dsimp only [Option.getD_some]
  rw [trace_bind,trace_guard,run_guard,hc]
  exact congrArg _ (List.append_nil _)

end Item

section Run

variable {name : QueueName} {float : SerdeJson.FloatReader} {σ : Type}
  (answer : (op : BatchOp (name.queue float)) → σ → Option op.Reply × σ) (maxAttempts : ℤ)

/-- An entry without a token has no identity. -/
theorem identity_missing {e : (name.queue float).Envelope}
    (h : ((name.queue float).handed e).reservationId = none) :
    (itemsOf name float).identity e =
      .error (missingReservation name float ((name.queue float).handed e).id) := by
  cases name with
  | commands => cases h
  | events => cases h
  | inbox =>
    have he : InboxMessageEnvelope.reservationId e = none := h
    change Option.elim (InboxMessageEnvelope.reservationId e) _ _ = _
    rw [he]
    rfl
  | outbox =>
    have he : OutboxEntryEnvelope.reservationId e = none := h
    change Option.elim (OutboxEntryEnvelope.reservationId e) _ _ = _
    rw [he]
    rfl

/-- The call that works on an entry. -/
theorem work_outcome (e : (name.queue float).Envelope) (s : σ) :
    ∃ (reply : Option (Except (name.queue float).Error Unit)) (s' : σ),
      (performWork e).run answer s = (reply,s') ∧
      trace answer (performWork e) s = [⟨.work e,reply⟩] :=
  perform_outcome answer (.work e) s

/-- The call that completes an entry. -/
theorem completed_outcome (id token : Uuid) (s : σ) :
    ∃ (reply : Option (Except (name.queue float).Error Unit)) (s' : σ),
      (batchPorts.completed id token).run answer s = (reply,s') ∧
      trace answer (batchPorts.completed id token) s = [⟨.port (.completed id token),reply⟩] :=
  perform_outcome answer (.port (.completed id token)) s

/-- The call that fails an entry. -/
theorem failed_outcome (id token : Uuid) (maxAttempts : ℤ) (reason : String) (s : σ) :
    ∃ (reply : Option (Except (name.queue float).Error Unit)) (s' : σ),
      (batchPorts.failed id token maxAttempts (some reason)).run answer s = (reply,s') ∧
      trace answer (batchPorts.failed id token maxAttempts (some reason)) s =
        [⟨.port (.failed id token maxAttempts (some reason)),reply⟩] :=
  perform_outcome answer (.port (.failed id token maxAttempts (some reason))) s

/-- One turn of the loop, with its calls and its errors. -/
theorem processEntry_outcome (e : (name.queue float).Envelope)
    (errors : List (name.queue float).Error) (s : σ) :
    ∃ o s', (processEntry (itemsOf name float) batchPorts performWork maxAttempts e errors).run
        answer s = (some (errors++itemErrors e o),s') ∧
      trace answer (processEntry (itemsOf name float) batchPorts performWork maxAttempts e errors)
        s = itemCalls maxAttempts e o := by
  cases ht : ((name.queue float).handed e).reservationId with
  | none =>
    refine ⟨⟨none,none,none⟩,s,?_,?_⟩
    · rw [processEntry,identity_missing ht,itemErrors,ht]
      rfl
    · rw [processEntry,identity_missing ht,itemCalls,ht]
      rfl
  | some token =>
    have hid := (itemsOf name float).identity_handed e token ht
    obtain ⟨worked,s₁,hw,htw⟩ := work_outcome answer e s
    obtain ⟨completed,s₂,hc,htc⟩ :=
      completed_outcome answer ((name.queue float).handed e).id token s₁
    cases hwo : worked.getD (.error (panicOf name float (((name.queue float).handed e).id,token)
      "processing")) with
    | error error =>
      obtain ⟨failed,s₃,hf,htf⟩ := failed_outcome answer ((name.queue float).handed e).id token
        maxAttempts (failureReason (((name.queue float).handed e).id,token) "processing"
          ((name.queue float).display error)) s₁
      have hstage : stageFailure name float (((name.queue float).handed e).id,token)
          ⟨worked,none,failed⟩ = some ("processing",error) := by
        rw [stageFailure,hwo]
      refine ⟨⟨worked,none,failed⟩,s₃,?_,?_⟩
      · rw [processEntry,hid]
        dsimp only
        rw [run_runItem_error hw hwo,run_failItem hf,itemErrors_failed ht hstage]
        rfl
      · rw [processEntry,hid]
        dsimp only
        rw [trace_runItem_error hw hwo,htw,htf,itemCalls_failed ht hstage,
          completeCalls_of_error hwo]
        rfl
    | ok u =>
      obtain rfl := eq_ok_of_getD hwo
      cases hco : completed.getD (.error (panicOf name float
        (((name.queue float).handed e).id,token) "completion")) with
      | error error =>
        obtain ⟨failed,s₃,hf,htf⟩ := failed_outcome answer ((name.queue float).handed e).id token
          maxAttempts (failureReason (((name.queue float).handed e).id,token) "completion"
            ((name.queue float).display error)) s₂
        have hstage : stageFailure name float (((name.queue float).handed e).id,token)
            ⟨some (.ok ()),completed,failed⟩ = some ("completion",error) := by
          rw [stageFailure,Option.getD_some]
          dsimp only
          rw [hco]
        refine ⟨⟨some (.ok ()),completed,failed⟩,s₃,?_,?_⟩
        · rw [processEntry,hid]
          dsimp only
          rw [run_runItem_completion hw hc hco,run_failItem hf,itemErrors_failed ht hstage]
          rfl
        · rw [processEntry,hid]
          dsimp only
          rw [trace_runItem_completion hw hc hco,htw,htc,htf,itemCalls_failed ht hstage]
          rfl
      | ok u =>
        obtain rfl := eq_ok_of_getD hco
        have hfine : Fine e ⟨some (.ok ()),some (.ok ()),none⟩ := ⟨⟨token,ht⟩,rfl,rfl⟩
        refine ⟨⟨some (.ok ()),some (.ok ()),none⟩,s₂,?_,?_⟩
        · rw [processEntry,hid]
          dsimp only
          rw [run_runItem_ok hw rfl hc,itemErrors_eq_nil.mpr hfine,List.append_nil]
        · rw [processEntry,hid]
          dsimp only
          rw [trace_runItem_ok hw hc,htw,htc,itemCalls,ht]
          rfl

/-- The loop does what it does for each entry in turn. -/
theorem processEntries_outcome (entries : List (name.queue float).Envelope)
    (errors : List (name.queue float).Error) (s : σ) :
    ∃ (outcomes : List (Outcomes (name.queue float).Error)) (s' : σ),
      outcomes.length = entries.length ∧
      (processEntries (itemsOf name float) batchPorts performWork maxAttempts entries errors).run
        answer s = (some (errors++(entries.zip outcomes).flatMap fun p => itemErrors p.1 p.2),s') ∧
      trace answer (processEntries (itemsOf name float) batchPorts performWork maxAttempts entries
        errors) s = (entries.zip outcomes).flatMap fun p => itemCalls maxAttempts p.1 p.2 := by
  induction entries generalizing errors s with
  | nil =>
    refine ⟨[],s,rfl,?_,rfl⟩
    rw [List.zip_nil_left,List.flatMap_nil,List.append_nil]
    rfl
  | cons e entries ih =>
    obtain ⟨o,s₁,hrun,htrace⟩ := processEntry_outcome answer maxAttempts e errors s
    obtain ⟨outcomes,s₂,hlen,hruns,htraces⟩ := ih (errors++itemErrors e o) s₁
    refine ⟨o::outcomes,s₂,by rw [List.length_cons,List.length_cons,hlen],?_,?_⟩
    · rw [processEntries,Prog.run_bind,hrun]
      dsimp only
      rw [hruns,List.zip_cons_cons,List.flatMap_cons,List.append_assoc]
    · rw [processEntries,trace_bind_of_some hrun,htrace,htraces,List.zip_cons_cons,
        List.flatMap_cons]

end Run

section Closures

variable {q : Queue} {Op : Type} {Reply : Op → Type} {σ : Type}
  (handle : (op : Op) → σ → Option (Reply op) × σ) (ports : Ports q Op Reply)
  (work : q.Envelope → Prog Op Reply (Except q.Error Unit))

/-- The calls of a batch answered by the closures of a consumer. -/
def closures : (op : BatchOp q) → σ → Option op.Reply × σ
  | .port (.reserve spec),s => (ports.reserve spec).run handle s
  | .port (.completed id token),s => (ports.completed id token).run handle s
  | .port (.failed id token maxAttempts reason),s =>
    (ports.failed id token maxAttempts reason).run handle s
  | .work entry,s => (work entry).run handle s

section Congr

variable {Op' : Type} {Reply' : Op' → Type} {ε : Type} {display : ε → String}
  {identity : Uuid × Uuid} {panicError : String → ε} {handle}
  {handle' : (op : Op') → σ → Option (Reply' op) × σ}
  {fail : String → Prog Op Reply (Except ε Unit)} {fail' : String → Prog Op' Reply' (Except ε Unit)}

/-- The failure stage runs alike when `fail` does. -/
theorem run_failItem_congr (hf : ∀ reason s, (fail reason).run handle s =
    (fail' reason).run handle' s) (errors : List ε) (stage : String) (error : ε) (s : σ) :
    (failItem display identity fail panicError errors stage error).run handle s =
      (failItem display identity fail' panicError errors stage error).run handle' s := by
  rw [run_failItem rfl,run_failItem rfl,hf]

/-- An item runs alike when its closures do. -/
theorem run_runItem_congr {work complete : Prog Op Reply (Except ε Unit)}
    {work' complete' : Prog Op' Reply' (Except ε Unit)}
    (hw : ∀ s, work.run handle s = work'.run handle' s)
    (hc : ∀ s, complete.run handle s = complete'.run handle' s)
    (hf : ∀ reason s, (fail reason).run handle s = (fail' reason).run handle' s)
    (errors : List ε) (s : σ) :
    (runItem display identity work complete fail panicError errors).run handle s =
      (runItem display identity work' complete' fail' panicError errors).run handle' s := by
  rw [runItem,runItem,Prog.run_bind,Prog.run_bind,run_guard,run_guard,hw]
  dsimp only
  cases (work'.run handle' s).1.getD (.error (panicError (panicked identity "processing"))) with
  | error error => exact run_failItem_congr hf errors "processing" error _
  | ok u =>
    dsimp only
    rw [Prog.run_bind,Prog.run_bind,run_guard,run_guard,hc]
    dsimp only
    cases (complete'.run handle' (work'.run handle' s).2).1.getD
      (.error (panicError (panicked identity "completion"))) with
    | error error => exact run_failItem_congr hf errors "completion" error _
    | ok u => rfl

end Congr

/-- A call of a closure runs it. -/
theorem run_closures (op : BatchOp q) (s : σ) :
    (Prog.perform op).run (closures handle ports work) s = closures handle ports work op s :=
  Prog.run_perform _ op s

/-- One turn of the loop runs alike. -/
theorem run_processEntry_closures (items : Items q) (maxAttempts : ℤ) (e : q.Envelope)
    (errors : List q.Error) (s : σ) :
    (processEntry items ports work maxAttempts e errors).run handle s =
      (processEntry items batchPorts performWork maxAttempts e errors).run
        (closures handle ports work) s := by
  unfold processEntry
  cases items.identity e with
  | error error => rfl
  | ok identity =>
    refine run_runItem_congr ?_ ?_ ?_ errors s
    · exact fun s => (run_closures handle ports work (.work e) s).symm
    · exact fun s => (run_closures handle ports work
        (.port (.completed identity.1 identity.2)) s).symm
    · exact fun reason s => (run_closures handle ports work
        (.port (.failed identity.1 identity.2 maxAttempts (some reason))) s).symm

theorem run_processEntries_closures (items : Items q) (maxAttempts : ℤ)
    (entries : List q.Envelope) (errors : List q.Error) (s : σ) :
    (processEntries items ports work maxAttempts entries errors).run handle s =
      (processEntries items batchPorts performWork maxAttempts entries errors).run
        (closures handle ports work) s := by
  induction entries generalizing errors s with
  | nil => rfl
  | cons e entries ih =>
    rw [processEntries,processEntries,Prog.run_bind,Prog.run_bind,run_processEntry_closures]
    cases (processEntry items batchPorts performWork maxAttempts e errors).run
      (closures handle ports work) s with
    | mk result s' =>
      cases result with
      | none => rfl
      | some errors' => exact ih errors' s'

/-- A consumer with closures of its own runs as the batch whose calls they answer. -/
theorem run_consume_closures (items : Items q) (spec : ReservableSpec) (s : σ) :
    (consume items ports work spec).run handle s =
      (batch items spec).run (closures handle ports work) s := by
  have hreserve : (batchPorts.reserve spec).run (closures handle ports work) s =
      (ports.reserve spec).run handle s := run_closures handle ports work (.port (.reserve spec)) s
  rw [batch,consume,consume,Prog.run_bind,Prog.run_bind,hreserve]
  cases (ports.reserve spec).run handle s with
  | mk reply s₁ =>
    rcases reply with _ | error | entries
    · rfl
    · rfl
    · dsimp only
      rw [Prog.run_bind,Prog.run_bind,run_processEntries_closures]
      rcases (processEntries items batchPorts performWork spec.maxAttempts entries []).run
        (closures handle ports work) s₁ with ⟨_ | errors,s₂⟩ <;> rfl

end Closures

section Accounting

/-- Batch accounting, for any ports and any work: after a reservation, a batch makes
the calls of each of its items in turn and no other, and no panic of a closure
leaves it; it returns the number of its items if all are fine, and otherwise the
errors of its items in order. -/
theorem batch_accounting (name : QueueName) (float : SerdeJson.FloatReader) {Op : Type}
    {Reply : Op → Type} {σ : Type} (handle : (op : Op) → σ → Option (Reply op) × σ)
    (ports : Ports (name.queue float) Op Reply)
    (work : (name.queue float).Envelope → Prog Op Reply (Except (name.queue float).Error Unit))
    (spec : ReservableSpec) (s : σ) {s₁ : σ} {entries : List (name.queue float).Envelope}
    (h : (ports.reserve spec).run handle s = (some (.ok entries),s₁)) :
    ∃ outcomes : List (Outcomes (name.queue float).Error), outcomes.length = entries.length ∧
      trace (closures handle ports work) (batch (itemsOf name float) spec) s =
        ⟨.port (.reserve spec),some (.ok entries)⟩::
          (entries.zip outcomes).flatMap (fun p => itemCalls spec.maxAttempts p.1 p.2) ∧
      (((∀ p ∈ entries.zip outcomes, Fine p.1 p.2) ∧
          ((consume (itemsOf name float) ports work spec).run handle s).1 =
            some (.ok entries.length)) ∨
        ((∃ p ∈ entries.zip outcomes, ¬Fine p.1 p.2) ∧
          ((consume (itemsOf name float) ports work spec).run handle s).1 =
            some (.error ((entries.zip outcomes).flatMap fun p => itemErrors p.1 p.2)))) := by
  have hreserve : (batchPorts.reserve spec).run (closures handle ports work) s =
      (some (.ok entries),s₁) :=
    (run_closures handle ports work (.port (.reserve spec)) s).trans h
  have hcall : trace (closures handle ports work) (batchPorts.reserve spec) s =
      [⟨.port (.reserve spec),some (.ok entries)⟩] := by
    obtain ⟨reply,s',hr,ht⟩ := perform_outcome (closures handle ports work)
      (.port (.reserve spec)) s
    obtain ⟨rfl,_⟩ := Prod.mk.inj (hr.symm.trans hreserve)
    exact ht
  obtain ⟨outcomes,s₂,hlen,hrun,htrace⟩ :=
    processEntries_outcome (closures handle ports work) spec.maxAttempts entries [] s₁
  rw [List.nil_append] at hrun
  have hresult : ((consume (itemsOf name float) ports work spec).run handle s).1 =
      some (if ((entries.zip outcomes).flatMap fun p => itemErrors p.1 p.2).isEmpty then
        .ok entries.length
      else .error ((entries.zip outcomes).flatMap fun p => itemErrors p.1 p.2)) := by
    rw [run_consume_closures,batch,consume,Prog.run_bind_of_some _ hreserve]
    dsimp only
    rw [Prog.run_bind_of_some _ hrun,Prog.run_ret]
  refine ⟨outcomes,hlen,?_,?_⟩
  · rw [batch,consume,trace_bind_of_some hreserve,hcall]
    dsimp only
    rw [trace_bind_of_some hrun,htrace,trace_ret,List.append_nil,List.singleton_append]
  · have hempty : ((entries.zip outcomes).flatMap fun p => itemErrors p.1 p.2) = [] ↔
        ∀ p ∈ entries.zip outcomes, Fine p.1 p.2 := by
      rw [List.flatMap_eq_nil_iff]
      exact forall₂_congr fun p _ => itemErrors_eq_nil
    rw [hresult]
    by_cases hall : ∀ p ∈ entries.zip outcomes, Fine p.1 p.2
    · exact .inl ⟨hall,by rw [hempty.mpr hall]; rfl⟩
    · refine .inr ⟨by simpa only [not_forall,exists_prop] using hall,?_⟩
      rw [if_neg]
      rwa [List.isEmpty_iff,hempty]

/-- A message of a batch, under a token or without one. -/
def scriptedMessage (id : Uuid) (token : Option Uuid) : InboxMessageEnvelope where
  id := id
  payload := "{}"
  status := .reserved
  scheduledAt := 0
  attempts := 1
  reservationId := token
  reservedAt := some 0
  extraInfo := none
  metadata := ⟨some id,none,none,some "create"⟩

/-- A message without a token before one with a token. -/
def scriptedBatch : List (QueueName.inbox.queue .integersOnly).Envelope :=
  [scriptedMessage (.fromU128 1) none,scriptedMessage (.fromU128 2) (some (.fromU128 7))]

/-- A repository that hands these out, and a handover that panics. -/
def scripted : (op : BatchOp (QueueName.inbox.queue .integersOnly)) → Unit →
    Option op.Reply × Unit
  | .port (.reserve _),s => (some (.ok scriptedBatch),s)
  | .port (.completed _ _),s => (some (.ok ()),s)
  | .port (.failed _ _ _ _),s => (some (.ok ()),s)
  | .work _,s => (none,s)

theorem batch_accounting_scripted :
    ∃ outcomes : List (Outcomes (QueueName.inbox.queue .integersOnly).Error),
      outcomes.length = scriptedBatch.length ∧
      trace (closures scripted batchPorts performWork)
          (batch (itemsOf .inbox .integersOnly) singleSpec) () =
        ⟨.port (.reserve singleSpec),some (.ok scriptedBatch)⟩::
          (scriptedBatch.zip outcomes).flatMap
            (fun p => itemCalls singleSpec.maxAttempts p.1 p.2) ∧
      (((∀ p ∈ scriptedBatch.zip outcomes, Fine p.1 p.2) ∧
          ((consume (itemsOf .inbox .integersOnly) batchPorts performWork singleSpec).run scripted
            ()).1 = some (.ok scriptedBatch.length)) ∨
        ((∃ p ∈ scriptedBatch.zip outcomes, ¬Fine p.1 p.2) ∧
          ((consume (itemsOf .inbox .integersOnly) batchPorts performWork singleSpec).run scripted
            ()).1 = some (.error
              ((scriptedBatch.zip outcomes).flatMap fun p => itemErrors p.1 p.2)))) := by
  have h : (batchPorts.reserve singleSpec).run scripted () = (some (.ok scriptedBatch),()) := rfl
  exact batch_accounting .inbox .integersOnly scripted batchPorts performWork singleSpec () h

end Accounting

end Mulac.BatchAccounting
