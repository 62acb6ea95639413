import Mulac.PanicProgram

/-!
# Sessions with a database

A call takes a connection out of a pool and executes statements on it, each by
itself or inside a transaction. Every step of this may fail. A statement that
fails has no effect, and what a transaction has done is stored only by a commit
that succeeds; what a failed call leaves behind follows from its shape.
-/

namespace Mulac.SqlSession

open PanicProgram

variable {Stmt : Type} {Answer : Stmt → Type} {σ δ ε α β : Type}

section Connections

/-- What a call asks of the pool and of its connection. -/
inductive SessionOp (Stmt : Type) where
  /-- Take a connection out of the pool. -/
  | checkout
  /-- `BEGIN`. -/
  | beginTransaction
  /-- `COMMIT`. -/
  | commitTransaction
  /-- `ROLLBACK`. -/
  | rollbackTransaction
  /-- Execute a statement. -/
  | execute (statement : Stmt)

/-- What these return. -/
abbrev SessionOp.Reply (δ : Type) (Answer : Stmt → Type) : SessionOp Stmt → Type
  | execute statement => Except δ (Answer statement)
  | _ => Except δ Unit

/-- The database as a connection meets it. -/
structure Session (σ δ : Type) where
  /-- What is stored. -/
  stored : σ
  /-- What the open transaction sees, if one is open. -/
  working : Option σ
  /-- The faults of the steps to come. -/
  faults : ℕ → Option δ

/-- The session after one step. -/
def Session.next (c : Session σ δ) : Session σ δ := { c with faults := fun n => c.faults (n+1) }

/-- Whether the step at hand fails. -/
def Session.outcome (c : Session σ δ) : Except δ Unit :=
  match c.faults 0 with
  | some e => .error e
  | none => .ok ()

/-- What a statement sees. -/
def Session.current (c : Session σ δ) : σ := c.working.getD c.stored

/-- What a statement leaves: without a transaction it is stored at once. -/
def Session.write (c : Session σ δ) (s : σ) : Session σ δ :=
  match c.working with
  | some _ => { c with working := some s }
  | none => { c with stored := s }

variable (apply : (statement : Stmt) → σ → Except δ (Answer statement × σ))

/-- How the database answers; `apply` is what a statement does. -/
def answer : (op : SessionOp Stmt) → Session σ δ →
    Option (op.Reply δ Answer) × Session σ δ
  | .checkout,c => (some c.outcome,c.next)
  | .beginTransaction,c =>
    match c.outcome with
    | .ok () => (some (.ok ()),{ c.next with working := some c.stored })
    | .error e => (some (.error e),c.next)
  | .commitTransaction,c =>
    match c.outcome with
    | .ok () => (some (.ok ()),{ c.next with stored := c.current, working := none })
    | .error e => (some (.error e),c.next)
  | .rollbackTransaction,c => (some c.outcome,{ c.next with working := none })
  | .execute statement,c =>
    match c.outcome with
    | .ok () =>
      match apply statement c.current with
      | .ok (a,s) => (some (.ok a),c.next.write s)
      | .error e => (some (.error e),c.next)
    | .error e => (some (.error e),c.next)

end Connections

section Programs

variable (Stmt Answer δ)

/-- A program over a connection. -/
abbrev Query : Type → Type := Prog (SessionOp Stmt) (SessionOp.Reply δ Answer)

variable {Stmt Answer δ}

/-- `?`: go on with the value of a call, or return its error. -/
def tryThen (p : Query Stmt Answer δ (Except ε α)) (f : α → Query Stmt Answer δ (Except ε β)) :
    Query Stmt Answer δ (Except ε β) := do
  match ← p with
  | .ok a => f a
  | .error e => .ret (.error e)

/-- `map_err`. -/
def mapErr (f : δ → ε) (p : Query Stmt Answer δ (Except δ α)) :
    Query Stmt Answer δ (Except ε α) := do
  let result ← p
  .ret (result.mapError f)

/-- Take a connection out of the pool. -/
def checkout : Query Stmt Answer δ (Except δ Unit) := Prog.perform SessionOp.checkout

/-- Execute a statement. -/
def execute (statement : Stmt) : Query Stmt Answer δ (Except δ (Answer statement)) :=
  Prog.perform (SessionOp.execute statement)

/-- Roll back, and return an error; a rollback that fails has its own. -/
def rollback (e : δ) : Query Stmt Answer δ (Except δ α) :=
  tryThen (Prog.perform SessionOp.rollbackTransaction : Query Stmt Answer δ (Except δ Unit))
    fun _ => .ret (.error e)

/-- A transaction: it commits what its body returns `Ok` for, and rolls back
otherwise; a panic drops the connection. -/
def transaction (body : Query Stmt Answer δ (Except δ α)) : Query Stmt Answer δ (Except δ α) :=
  tryThen (Prog.perform SessionOp.beginTransaction : Query Stmt Answer δ (Except δ Unit))
    fun _ => do
    match ← body.catchUnwind with
    | none =>
      (Prog.perform SessionOp.rollbackTransaction : Query Stmt Answer δ (Except δ Unit)) >>=
        fun _ => .panic
    | some (.error e) => rollback e
    | some (.ok a) =>
      match ← (Prog.perform SessionOp.commitTransaction : Query Stmt Answer δ (Except δ Unit)) with
      | .ok () => .ret (.ok a)
      | .error e => rollback e

end Programs

section Rules

variable (apply : (statement : Stmt) → σ → Except δ (Answer statement × σ))

/-- A call that stores nothing and opens no transaction. -/
def Idle (p : Query Stmt Answer δ (Except ε α)) : Prop :=
  ∀ c : Session σ δ, c.working = none →
    (p.run (answer apply) c).2.working = none ∧ (p.run (answer apply) c).2.stored = c.stored

/-- A call that works inside the open transaction. -/
def Confined (p : Query Stmt Answer δ (Except ε α)) : Prop :=
  ∀ c : Session σ δ, c.working.isSome = true →
    (p.run (answer apply) c).2.working.isSome = true ∧
      (p.run (answer apply) c).2.stored = c.stored

/-- A call that stores nothing unless it returns `Ok`, and leaves no transaction open. -/
def Atomic (p : Query Stmt Answer δ (Except ε α)) : Prop :=
  ∀ c : Session σ δ, c.working = none →
    (p.run (answer apply) c).2.working = none ∧
      ((∀ a, (p.run (answer apply) c).1 ≠ some (.ok a)) →
        (p.run (answer apply) c).2.stored = c.stored)

variable {apply} {p : Query Stmt Answer δ (Except ε α)} {f : α → Query Stmt Answer δ (Except ε β)}

/-- A sequence runs its first call, and the second if that returned `Ok`. -/
theorem run_tryThen (p : Query Stmt Answer δ (Except ε α))
    (f : α → Query Stmt Answer δ (Except ε β))
    (c : Session σ δ) : (tryThen p f).run (answer apply) c =
      match p.run (answer apply) c with
      | (some (.ok a),c') => (f a).run (answer apply) c'
      | (some (.error e),c') => (some (.error e),c')
      | (none,c') => (none,c') := by
  rw [tryThen,Prog.run_bind]
  rcases p.run (answer apply) c with ⟨_ | _ | _,c'⟩ <;> rfl

theorem run_mapErr (f : δ → ε) (p : Query Stmt Answer δ (Except δ α)) (c : Session σ δ) :
    (mapErr f p).run (answer apply) c =
      ((p.run (answer apply) c).1.map (Except.mapError f),(p.run (answer apply) c).2) := by
  rw [mapErr,Prog.run_bind]
  rcases p.run (answer apply) c with ⟨_ | _,c'⟩ <;> rfl

/-- A statement keeps the transaction it runs in open. -/
theorem Session.write_working {c : Session σ δ} (h : c.working.isSome = true) (s : σ) :
    c.write s = { c with working := some s } := by
  unfold Session.write
  cases hw : c.working with
  | none => rw [hw] at h; cases h
  | some _ => rfl

theorem Idle.ret (r : Except ε α) : Idle apply (.ret r : Query Stmt Answer δ (Except ε α)) :=
  fun _ h => ⟨h,rfl⟩

theorem Idle.checkout : Idle apply (checkout : Query Stmt Answer δ (Except δ Unit)) :=
  fun c h => by
    rw [SqlSession.checkout,Prog.run_perform]
    exact ⟨h,rfl⟩

theorem Idle.mapErr {p : Query Stmt Answer δ (Except δ α)} (h : Idle apply p) (f : δ → ε) :
    Idle apply (mapErr f p) := fun c hc => by
  rw [run_mapErr]
  exact h c hc

theorem Idle.atomic (h : Idle apply p) : Atomic apply p :=
  fun c hc => ⟨(h c hc).1,fun _ => (h c hc).2⟩

theorem Confined.ret (r : Except ε α) :
    Confined apply (.ret r : Query Stmt Answer δ (Except ε α)) :=
  fun _ h => ⟨h,rfl⟩

theorem Confined.panic : Confined apply (.panic : Query Stmt Answer δ (Except ε α)) :=
  fun _ h => ⟨h,rfl⟩

/-- A statement of a transaction stores nothing. -/
theorem Confined.execute (statement : Stmt) :
    Confined apply (execute statement : Query Stmt Answer δ (Except δ (Answer statement))) := by
  intro c h
  rw [SqlSession.execute,Prog.run_perform,answer]
  cases c.outcome with
  | error e => exact ⟨h,rfl⟩
  | ok u =>
    dsimp only
    cases apply statement c.current with
    | error e => exact ⟨h,rfl⟩
    | ok out =>
      have hw : c.next.working.isSome = true := h
      dsimp only
      rw [Session.write_working hw]
      exact ⟨rfl,rfl⟩

/-- A sequence of calls inside the transaction stays inside. -/
theorem Confined.tryThen (hp : Confined apply p) (hf : ∀ a, Confined apply (f a)) :
    Confined apply (tryThen p f) := by
  intro c h
  obtain ⟨hw,hs⟩ := hp c h
  rw [run_tryThen]
  generalize p.run (answer apply) c = out at hw hs
  rcases out with ⟨_ | _ | a,c'⟩
  · exact ⟨hw,hs⟩
  · exact ⟨hw,hs⟩
  · obtain ⟨hw',hs'⟩ := hf a c' hw
    exact ⟨hw',hs'.trans hs⟩

/-- A call after another that stores nothing. -/
theorem Atomic.tryThen (hp : Idle apply p) (hf : ∀ a, Atomic apply (f a)) :
    Atomic apply (tryThen p f) := by
  intro c h
  obtain ⟨hw,hs⟩ := hp c h
  rw [run_tryThen]
  generalize p.run (answer apply) c = out at hw hs
  rcases out with ⟨_ | _ | a,c'⟩
  · exact ⟨hw,fun _ => hs⟩
  · exact ⟨hw,fun _ => hs⟩
  · obtain ⟨hw',hs'⟩ := hf a c' hw
    exact ⟨hw',fun hno => (hs' hno).trans hs⟩

theorem Atomic.mapErr {p : Query Stmt Answer δ (Except δ α)} (h : Atomic apply p) (f : δ → ε) :
    Atomic apply (mapErr f p) := by
  intro c hc
  obtain ⟨hw,hs⟩ := h c hc
  rw [run_mapErr]
  refine ⟨hw,fun hno => hs fun a ha => hno a ?_⟩
  rw [ha]
  rfl

/-- A statement outside of a transaction stores its effect if it returns `Ok`. -/
theorem Atomic.execute (statement : Stmt) :
    Atomic apply (execute statement : Query Stmt Answer δ (Except δ (Answer statement))) := by
  intro c h
  rw [SqlSession.execute,Prog.run_perform,answer]
  cases c.outcome with
  | error e => exact ⟨h,fun _ => rfl⟩
  | ok u =>
    dsimp only
    cases apply statement c.current with
    | error e => exact ⟨h,fun _ => rfl⟩
    | ok out =>
      have hw : c.next.working = none := h
      refine ⟨?_,fun hno => absurd rfl (hno out.1)⟩
      simp only [Session.write,hw]

/-- A statement outside of a transaction whose answer is then refused stores
nothing, when it did nothing. -/
theorem Atomic.checked {statement : Stmt} {g : δ → ε} {k : Answer statement → Except ε β}
    (h : ∀ s a s' e, apply statement s = .ok (a,s') → k a = .error e → s' = s) :
    Atomic apply (SqlSession.tryThen (SqlSession.mapErr g
      (SqlSession.execute statement : Query Stmt Answer δ (Except δ (Answer statement)))) fun a =>
        .ret (k a)) := by
  intro c hc
  have hcurrent : c.current = c.stored := by rw [Session.current,hc]; rfl
  rw [run_tryThen,run_mapErr,SqlSession.execute,Prog.run_perform,answer]
  cases c.outcome with
  | error e => exact ⟨hc,fun _ => rfl⟩
  | ok u =>
    dsimp only
    cases ha : apply statement c.current with
    | error e => exact ⟨hc,fun _ => rfl⟩
    | ok out =>
      have hw : c.next.working = none := hc
      have hwrite : c.next.write out.2 = { c.next with stored := out.2 } := by
        simp only [Session.write,hw]
      simp only [Option.map_some,Except.mapError,Prog.run_ret,hwrite]
      refine ⟨hw,fun hno => ?_⟩
      cases hk : k out.1 with
      | error e => exact (h _ _ _ _ ha hk).trans hcurrent
      | ok b => exact absurd (congrArg some hk) (hno b)

variable (apply)

/-- A rollback stores nothing, whatever it returns. -/
theorem run_rollback (e : δ) (c : Session σ δ) :
    ∃ e', (rollback e : Query Stmt Answer δ (Except δ α)).run (answer apply) c =
      (some (.error e'),{ c.next with working := none }) := by
  rw [rollback,run_tryThen,Prog.run_perform,answer]
  cases c.outcome with
  | error e' => exact ⟨e',rfl⟩
  | ok u => exact ⟨e,rfl⟩

variable {apply}

/-- A transaction stores nothing unless it returns `Ok`, if its body stays inside. -/
theorem Atomic.transaction {body : Query Stmt Answer δ (Except δ α)} (h : Confined apply body) :
    Atomic apply (transaction body) := by
  intro c hc
  rw [SqlSession.transaction,run_tryThen,Prog.run_perform,answer]
  cases c.outcome with
  | error e => exact ⟨hc,fun _ => rfl⟩
  | ok u =>
    dsimp only
    rw [Prog.run_bind,Prog.run_catchUnwind]
    obtain ⟨hw,hs⟩ := h { c.next with working := some c.stored } rfl
    generalize body.run (answer apply) { c.next with working := some c.stored } = out at hw hs
    rcases out with ⟨_ | e | a,c'⟩
    · dsimp only
      rw [Prog.run_bind,Prog.run_perform]
      exact ⟨rfl,fun _ => hs⟩
    · obtain ⟨e',he⟩ : ∃ e', (rollback e : Query Stmt Answer δ (Except δ α)).run (answer apply) c' =
          (some (.error e'),{ c'.next with working := none }) := run_rollback apply e c'
      dsimp only
      rw [he]
      exact ⟨rfl,fun _ => hs⟩
    · dsimp only
      rw [Prog.run_bind,Prog.run_perform,answer]
      cases c'.outcome with
      | ok u => exact ⟨rfl,fun hno => absurd rfl (hno a)⟩
      | error e =>
        obtain ⟨e',he⟩ : ∃ e', (rollback e : Query Stmt Answer δ (Except δ α)).run (answer apply)
            c'.next = (some (.error e'),{ c'.next.next with working := none }) :=
          run_rollback apply e c'.next
        dsimp only
        rw [he]
        exact ⟨rfl,fun _ => hs⟩

end Rules

section Calm

variable (apply : (statement : Stmt) → σ → Except δ (Answer statement × σ))

/-- A session without faults. -/
def Session.calm (stored : σ) (working : Option σ) : Session σ δ := ⟨stored,working,fun _ => none⟩

/-- Inside a transaction without faults, a call computes a function of what it sees. -/
structure Computes (p : Query Stmt Answer δ (Except δ α)) (f : σ → Except δ (α × σ)) : Prop where
  /-- A value comes with the state that the call leaves. -/
  ok : ∀ {s w a w'}, f w = .ok (a,w') →
    p.run (answer apply) (.calm s (some w)) = (some (.ok a),.calm s (some w'))
  /-- After an error the transaction is still open. -/
  error : ∀ {s w e}, f w = .error e →
    ∃ w', p.run (answer apply) (.calm s (some w)) = (some (.error e),.calm s (some w'))

theorem run_checkout_calm (s : σ) (w : Option σ) :
    (checkout : Query Stmt Answer δ (Except δ Unit)).run (answer apply) (.calm s w) =
      (some (.ok ()),.calm s w) := by
  rw [checkout,Prog.run_perform]
  rfl

/-- A statement without faults does what it does. -/
theorem run_execute_calm (statement : Stmt) (s : σ) (w : Option σ) :
    (execute statement : Query Stmt Answer δ (Except δ (Answer statement))).run (answer apply)
        (.calm s w) =
      match apply statement (w.getD s) with
      | .ok (a,s') => (some (.ok a),(Session.calm s w).write s')
      | .error e => (some (.error e),.calm s w) := by
  rw [execute,Prog.run_perform]
  rfl

variable {apply}

theorem Computes.congr {p : Query Stmt Answer δ (Except δ α)} {f g : σ → Except δ (α × σ)}
    (h : Computes apply p f) (hfg : ∀ w, f w = g w) : Computes apply p g :=
  (funext hfg : f = g) ▸ h

theorem Computes.ret (r : Except δ α) :
    Computes apply (.ret r : Query Stmt Answer δ (Except δ α)) fun w => r.map fun a => (a,w) where
  ok := by
    intro s w a w' h
    cases r with
    | error e => cases h
    | ok a => cases h; rfl
  error := by
    intro s w e h
    cases r with
    | error e => cases h; exact ⟨w,rfl⟩
    | ok a => cases h

theorem Computes.execute (statement : Stmt) :
    Computes apply (execute statement : Query Stmt Answer δ (Except δ (Answer statement)))
      (apply statement) where
  ok := by
    intro s w a w' h
    rw [run_execute_calm,Option.getD_some,h]
    rfl
  error := by
    intro s w e h
    rw [run_execute_calm,Option.getD_some,h]
    exact ⟨w,rfl⟩

/-- A sequence computes one function after the other. -/
theorem Computes.tryThen {p : Query Stmt Answer δ (Except δ α)}
    {k : α → Query Stmt Answer δ (Except δ β)} {f : σ → Except δ (α × σ)}
    {g : α → σ → Except δ (β × σ)} (hp : Computes apply p f)
    (hk : ∀ a, Computes apply (k a) (g a)) :
    Computes apply (tryThen p k) fun w => (f w).bind fun out => g out.1 out.2 where
  ok := by
    intro s w b w' h
    cases hf : f w with
    | error e => rw [hf] at h; cases h
    | ok out =>
      rw [hf] at h
      rw [run_tryThen,hp.ok hf]
      exact (hk out.1).ok h
  error := by
    intro s w e h
    cases hf : f w with
    | error e' =>
      rw [hf] at h
      cases h
      obtain ⟨w',hrun⟩ := hp.error (s:=s) hf
      exact ⟨w',by rw [run_tryThen,hrun]⟩
    | ok out =>
      rw [hf] at h
      rw [run_tryThen,hp.ok hf]
      exact (hk out.1).error h

/-- A transaction without faults stores what its body leaves. -/
theorem run_transaction_ok {body : Query Stmt Answer δ (Except δ α)} {s w : σ} {a : α}
    (h : body.run (answer apply) (.calm s (some s)) = (some (.ok a),.calm s (some w))) :
    (transaction body).run (answer apply) (.calm s none) = (some (.ok a),.calm w none) := by
  rw [SqlSession.transaction,run_tryThen,Prog.run_perform]
  change (Prog.run _ _ (Session.calm s (some s))) = _
  rw [Prog.run_bind,Prog.run_catchUnwind,h]
  dsimp only
  rw [Prog.run_bind,Prog.run_perform]
  rfl

/-- A transaction whose body fails stores nothing. -/
theorem run_transaction_error {body : Query Stmt Answer δ (Except δ α)} {s w : σ} {e : δ}
    (h : body.run (answer apply) (.calm s (some s)) = (some (.error e),.calm s (some w))) :
    (transaction body).run (answer apply) (.calm s none) = (some (.error e),.calm s none) := by
  rw [SqlSession.transaction,run_tryThen,Prog.run_perform]
  change (Prog.run _ _ (Session.calm s (some s))) = _
  rw [Prog.run_bind,Prog.run_catchUnwind,h]
  dsimp only
  rw [rollback,run_tryThen,Prog.run_perform]
  rfl

/-- A transaction without faults stores what its body computes. -/
theorem Computes.transaction {body : Query Stmt Answer δ (Except δ α)}
    {f : σ → Except δ (α × σ)} (h : Computes apply body f) (s : σ) :
    (transaction body).run (answer apply) (.calm s none) =
      match f s with
      | .ok (a,s') => (some (.ok a),.calm s' none)
      | .error e => (some (.error e),.calm s none) := by
  cases hf : f s with
  | ok out => exact run_transaction_ok (h.ok hf)
  | error e =>
    obtain ⟨w',hrun⟩ := h.error (s:=s) hf
    exact run_transaction_error hrun

/-- A transaction whose body panics stores nothing. -/
theorem run_transaction_panic {body : Query Stmt Answer δ (Except δ α)} {s w : σ}
    (h : body.run (answer apply) (.calm s (some s)) = (none,.calm s (some w))) :
    (transaction body).run (answer apply) (.calm s none) = (none,.calm s none) := by
  rw [SqlSession.transaction,run_tryThen,Prog.run_perform]
  change (Prog.run _ _ (Session.calm s (some s))) = _
  rw [Prog.run_bind,Prog.run_catchUnwind,h]
  dsimp only
  rw [Prog.run_bind,Prog.run_perform]
  rfl

end Calm

end Mulac.SqlSession
