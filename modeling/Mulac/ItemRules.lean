import Mulac.Consumers
import Mulac.Interference

/-!
# Rules for the item boundary

How the assertions of a worker travel through `guard`, `run_item` and the loop
over a batch: what the work leaves, what the completion needs, and what remains
to be said about an error.
-/

namespace Mulac.ItemRules

open Identifiers QueueRow Repository PanicProgram Interference Consumers

variable {Op : Type} {Reply : Op → Type} {W : Type} {R : Rules Op Reply W} {w : W}

/-- The rule of `guard`: a panic is an error like any other. -/
theorem safe_guard {α ε : Type} {p : Prog Op Reply (Except ε α)} {panicError : ε}
    (post : Except ε α → W → Prop)
    (h : Safe R p (fun o => R.Lasts (post (o.getD (.error panicError)))) w) :
    Safe R (guard p panicError) (fun o w => ∃ result, o = some result ∧ R.Lasts (post result) w)
      w := by
  unfold Consumers.guard
  refine Safe.bind (Safe.catchUnwind (h.mono ?_))
  intro o w hl
  cases o with
  | none => exact fun v hv _ => ⟨_,rfl,hl.wait hv⟩
  | some result => exact fun v hv _ => ⟨_,rfl,hl.wait hv⟩

section Item

variable {ε : Type} {display : ε → String} {identity : Uuid × Uuid}
  {work complete : Prog Op Reply (Except ε Unit)} {fail : String → Prog Op Reply (Except ε Unit)}
  {panicError : String → ε} {errors : List ε} {post : List ε → W → Prop}

/-- The rule of the failure stage. -/
theorem safe_failItem {stage : String} {error : ε}
    (h : Safe R (fail (failureReason identity stage (display error))) (fun o => R.Lasts fun w =>
      match o.getD (.error (panicError (panicked identity "failure finalization"))) with
      | .ok () => post (errors++[error]) w
      | .error finalizationError => post (errors++[finalizationError,error]) w) w) :
    Safe R (failItem display identity fail panicError errors stage error)
      (fun o w => ∃ errors', o = some errors' ∧ R.Lasts (post errors') w) w := by
  refine Safe.bind ((safe_guard (fun result w =>
    match result with
    | .ok () => post (errors++[error]) w
    | .error finalizationError => post (errors++[finalizationError,error]) w) h).mono ?_)
  rintro _ w ⟨result,rfl,hl⟩
  cases result with
  | ok u => exact fun v hv _ => ⟨_,rfl,hl.wait hv⟩
  | error finalizationError => exact fun v hv _ => ⟨_,rfl,hl.wait hv⟩

/-- The rule of `run_item`: the work leaves what the completion needs or an
error, the completion settles the item or leaves an error, and the failure stage
settles an item with an error. -/
theorem safe_runItem (worked : W → Prop) (broken : ε → W → Prop)
    (hwork : Safe R work (fun o => R.Lasts fun w =>
      match o.getD (.error (panicError (panicked identity "processing"))) with
      | .ok () => worked w
      | .error error => broken error w) w)
    (hcomplete : ∀ w, R.inv w → worked w → Safe R complete (fun o => R.Lasts fun w =>
      match o.getD (.error (panicError (panicked identity "completion"))) with
      | .ok () => post errors w
      | .error error => broken error w) w)
    (hfail : ∀ stage error w, R.inv w → broken error w →
      Safe R (fail (failureReason identity stage (display error))) (fun o => R.Lasts fun w =>
        match o.getD (.error (panicError (panicked identity "failure finalization"))) with
        | .ok () => post (errors++[error]) w
        | .error finalizationError => post (errors++[finalizationError,error]) w) w) :
    Safe R (runItem display identity work complete fail panicError errors)
      (fun o w => ∃ errors', o = some errors' ∧ R.Lasts (post errors') w) w := by
  refine Safe.bind ((safe_guard (fun result w =>
    match result with
    | .ok () => worked w
    | .error error => broken error w) hwork).mono ?_)
  rintro _ w ⟨result,rfl,hl⟩
  refine Safe.of_lasts fun v hv hi => ?_
  have hv' := hl v hv hi
  cases result with
  | error error => exact safe_failItem (hfail "processing" error v hi hv')
  | ok u =>
    refine Safe.bind ((safe_guard (fun result w =>
      match result with
      | .ok () => post errors w
      | .error error => broken error w) (hcomplete v hi hv')).mono ?_)
    rintro _ w ⟨result,rfl,hl⟩
    cases result with
    | ok u => exact fun v hv _ => ⟨_,rfl,hl.wait hv⟩
    | error error =>
      refine Safe.of_lasts fun v hv hi => ?_
      exact safe_failItem (hfail "completion" error v hi (hl v hv hi))

end Item

section Loop

variable {q : Queue} {items : Items q} {ports : Ports q Op Reply}
  {work : q.Envelope → Prog Op Reply (Except q.Error Unit)} {maxAttempts : ℤ}

/-- The rule of the loop over a batch, with an invariant over the entries that
remain and the errors so far. -/
theorem safe_processEntries {inv : List q.Envelope → List q.Error → W → Prop}
    (h : ∀ e entries errors w, R.inv w → inv (e::entries) errors w →
      Safe R (processEntry items ports work maxAttempts e errors)
        (fun o w => ∃ errors', o = some errors' ∧ R.Lasts (inv entries errors') w) w)
    (entries : List q.Envelope) (errors : List q.Error) (hw : R.Lasts (inv entries errors) w) :
    Safe R (processEntries items ports work maxAttempts entries errors)
      (fun o w => ∃ errors', o = some errors' ∧ R.Lasts (inv [] errors') w) w := by
  induction entries generalizing errors w with
  | nil => exact fun v hv _ => ⟨errors,rfl,hw.wait hv⟩
  | cons e entries ih =>
    refine Safe.of_lasts fun v hv hi => ?_
    refine Safe.bind ((h e entries errors v hi (hw v hv hi)).mono ?_)
    rintro _ w ⟨errors',rfl,hl⟩
    exact ih errors' hl

/-- The rule of a consumer: what a reservation leaves is where its loop starts,
and what the loop leaves is where the batch ends. -/
theorem safe_consume (inv : List q.Envelope → List q.Envelope → List q.Error → W → Prop)
    {post : Except (List q.Error) ℕ → W → Prop} {spec : ReservableSpec}
    (hreserve : Safe R (ports.reserve spec) (fun o w => ∀ result, o = some result →
      R.Lasts (fun w =>
        match result with
        | .ok entries => inv entries entries [] w
        | .error error => post (.error [error]) w) w) w)
    (hentry : ∀ all e entries errors w, R.inv w → inv all (e::entries) errors w →
      Safe R (processEntry items ports work spec.maxAttempts e errors)
        (fun o w => ∃ errors', o = some errors' ∧ R.Lasts (inv all entries errors') w) w)
    (hdone : ∀ all errors w, inv all [] errors w →
      post (if errors.isEmpty then .ok all.length else .error errors) w) :
    Safe R (consume items ports work spec) (fun o w => ∀ result, o = some result → post result w)
      w := by
  refine Safe.bind (hreserve.mono ?_)
  intro o w hl
  cases o with
  | none => nofun
  | some result =>
    have hr := hl result rfl
    cases result with
    | error error =>
      intro v hv hi result he
      cases he
      exact hr v hv hi
    | ok entries =>
      refine Safe.bind ((safe_processEntries (hentry entries) entries [] hr).mono ?_)
      rintro _ w ⟨errors',rfl,hlast⟩ v hv hi result he
      cases he
      exact hdone entries errors' v (hlast v hv hi)

end Loop

section Entries

variable {q : Queue} {items : Items q} {ports : Ports q Op Reply}
  {work : q.Envelope → Prog Op Reply (Except q.Error Unit)}

/-- One turn of the loop: what the work leaves is what the completion needs. -/
theorem safe_processEntry {maxAttempts : ℤ} {errors : List q.Error} {e : q.Envelope} {token : Uuid}
    (worked : W → Prop) (he : (q.handed e).reservationId = some token)
    (hwork : Safe R (work e) (fun o w => o = some (.ok ()) → R.Lasts worked w) w)
    (hcomplete : ∀ w, R.inv w → worked w →
      Safe R (ports.completed (q.handed e).id token) (fun _ _ => True) w)
    (hfail : ∀ reason w, Safe R (ports.failed (q.handed e).id token maxAttempts reason)
      (fun _ _ => True) w) :
    Safe R (processEntry items ports work maxAttempts e errors)
      (fun o _ => ∃ errors', o = some errors') w := by
  rw [processEntry,items.identity_handed e token he]
  have hitem : Safe R (runItem q.display ((q.handed e).id,token) (work e)
      (ports.completed (q.handed e).id token)
      (fun reason => ports.failed (q.handed e).id token maxAttempts (some reason)) items.panicError
      errors) (fun o w => ∃ errors', o = some errors' ∧ R.Lasts (fun _ => True) w) w := by
    refine safe_runItem worked (fun _ _ => True) ?_ ?_ ?_
    · refine hwork.mono fun o w h v hv hi => ?_
      match o with
      | none => trivial
      | some (.error error) => trivial
      | some (.ok ()) => exact h rfl v hv hi
    · refine fun w hi hw => (hcomplete w hi hw).mono fun o w _ v _ _ => ?_
      match o with
      | none => trivial
      | some (.error error) => trivial
      | some (.ok ()) => trivial
    · refine fun stage error w _ _ => (hfail _ w).mono fun o w _ v _ _ => ?_
      match o with
      | none => trivial
      | some (.error error) => trivial
      | some (.ok ()) => trivial
  refine hitem.mono ?_
  rintro o w ⟨errors',ho,_⟩
  exact ⟨errors',ho⟩

/-- The rule of a consumer whose entries are safe one by one: each is safe from
what holds of it when it is handed out, and the work on one entry leaves what
holds of the others. -/
theorem safe_entries (P : q.Envelope → W → Prop) (extra : q.Envelope → Op → W → Prop)
    {spec : ReservableSpec} (hwait : ∀ e a b, P e a → R.rely a b → P e b)
    (hframe : ∀ e e', (q.handed e).id ≠ (q.handed e').id → ∀ a op reply b, P e' a → R.inv a →
      R.owes op a → extra e op a → R.step op a reply b → P e' b)
    (hreserve : Safe R (ports.reserve spec) (fun o w => ∀ entries, o = some (.ok entries) →
      (entries.map fun e => (q.handed e).id).Nodup ∧ ∀ e ∈ entries, P e w) w)
    (hentry : ∀ e errors w, R.inv w → P e w →
      Safe (R.also (extra e)) (processEntry items ports work spec.maxAttempts e errors)
        (fun o _ => ∃ errors', o = some errors') w) :
    Safe R (consume items ports work spec) (fun _ _ => True) w := by
  have hbatch : Safe R (consume items ports work spec)
      (fun o _ => ∀ result, o = some result → True) w := by
    refine safe_consume (fun _ rest _ w =>
      (rest.map fun e => (q.handed e).id).Nodup ∧ ∀ e ∈ rest, P e w) ?_ ?_ ?_
    · refine hreserve.mono fun o w h result ho v hv _ => ?_
      subst ho
      cases result with
      | error error => trivial
      | ok entries =>
        obtain ⟨hn,hp⟩ := h entries rfl
        exact ⟨hn,fun e he => hwait e w v (hp e he) hv⟩
    · rintro _ e rest errors w hi ⟨hn,hp⟩
      obtain ⟨hne,hrest⟩ := List.nodup_cons.mp hn
      have hdiff : ∀ e' ∈ rest, (q.handed e).id ≠ (q.handed e').id :=
        fun e' he' heq => hne (List.mem_map.mpr ⟨e',he',heq.symm⟩)
      have hturn := Safe.frame (R:=R.also (extra e)) (F:=fun w => ∀ e' ∈ rest, P e' w)
        (fun a b hF hr e' he' => hwait e' a b (hF e' he') hr)
        (fun a op reply b hF hi ho hs e' he' =>
          hframe e e' (hdiff e' he') a op reply b (hF e' he') hi ho.1 ho.2 hs)
        (hentry e errors w hi (hp e (List.mem_cons_self ..)))
        (fun e' he' => hp e' (List.mem_cons_of_mem _ he'))
      refine hturn.of_also.mono ?_
      rintro o w ⟨⟨errors',ho⟩,hF⟩
      exact ⟨errors',ho,fun v hv _ => ⟨hrest,fun e' he' => hwait e' w v (hF e' he') hv⟩⟩
    · exact fun _ _ _ _ => trivial
  exact hbatch.mono fun _ _ _ => trivial

end Entries

end Mulac.ItemRules
