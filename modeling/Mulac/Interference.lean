import Mathlib.Logic.Function.Basic
import Mulac.PanicProgram

/-!
# Programs under interference

Workers run programs over one world, call by call, in any order and with
crashes. Each worker is judged alone: before a call it owes a condition, and
between its calls it relies on what the others can do. A program that is safe
alone stays safe among others, and the invariant of the world is kept.
-/

namespace Mulac.Interference

open PanicProgram

variable {Op : Type} {Reply : Op → Type} {W α β : Type}

section Rules

/-- What one worker may expect of its world. -/
structure Rules (Op : Type) (Reply : Op → Type) (W : Type) where
  /-- What a call of the worker may answer and leave. -/
  step : (op : Op) → W → Option (Reply op) → W → Prop
  /-- What may happen between two calls. -/
  rely : W → W → Prop
  /-- Nothing need happen. -/
  rely_refl : ∀ w, rely w w
  /-- One thing may follow another. -/
  rely_trans : ∀ {a b c}, rely a b → rely b c → rely a c
  /-- What holds of every world. -/
  inv : W → Prop
  /-- What the worker owes before a call. -/
  owes : Op → W → Prop

variable {R : Rules Op Reply W}

/-- A fact that holds however long the worker waits. -/
def Rules.Lasts (R : Rules Op Reply W) (P : W → Prop) (w : W) : Prop :=
  ∀ w', R.rely w w' → R.inv w' → P w'

/-- From here the program pays what it owes before every call, and ends as
promised, whatever happens between its calls. -/
def Safe (R : Rules Op Reply W) : Prog Op Reply α → (Option α → W → Prop) → W → Prop
  | .ret a,post,w => R.Lasts (post (some a)) w
  | .panic,post,w => R.Lasts (post none) w
  | .call op k,post,w => R.Lasts (fun w' => R.owes op w' ∧
      ∀ reply w'', R.step op w' reply w'' → R.inv w'' → Safe R (k reply) post w'') w

variable {p : Prog Op Reply α} {post : Option α → W → Prop} {w w' : W}

theorem Rules.Lasts.wait {P : W → Prop} (h : R.Lasts P w) (hr : R.rely w w') : R.Lasts P w' :=
  fun v hv hi => h v (R.rely_trans hr hv) hi

theorem Rules.Lasts.now {P : W → Prop} (h : R.Lasts P w) (hi : R.inv w) : P w :=
  h w (R.rely_refl w) hi

/-- A safe program stays safe while it waits. -/
theorem Safe.wait (h : Safe R p post w) (hr : R.rely w w') : Safe R p post w' := by
  cases p with
  | ret a => exact Rules.Lasts.wait h hr
  | panic => exact Rules.Lasts.wait h hr
  | call op k => exact Rules.Lasts.wait h hr

/-- A program is safe if it is safe in every world that may be waited for. -/
theorem Safe.of_lasts (h : R.Lasts (Safe R p post) w) : Safe R p post w := by
  cases p with
  | ret a => exact fun v hv hi => (h v hv hi).now hi
  | panic => exact fun v hv hi => (h v hv hi).now hi
  | call op k =>
    intro v hv hi
    have hl : R.Lasts _ v := h v hv hi
    exact hl.now hi

/-- After the same call, whatever is safe where another program is safe. -/
theorem Safe.call_imp {op : Op} {k : Option (Reply op) → Prog Op Reply α}
    {k' : Option (Reply op) → Prog Op Reply β} {post' : Option β → W → Prop}
    (h : Safe R (.call op k) post w)
    (hk : ∀ reply w', Safe R (k reply) post w' → Safe R (k' reply) post' w') :
    Safe R (.call op k') post' w := by
  intro v hv hi
  obtain ⟨ho,hnext⟩ := h v hv hi
  exact ⟨ho,fun reply v' hs hi' => hk reply v' (hnext reply v' hs hi')⟩

/-- A weaker promise is kept as well. -/
theorem Safe.mono {post' : Option α → W → Prop} (h : Safe R p post w)
    (hp : ∀ o w, post o w → post' o w) : Safe R p post' w := by
  induction p generalizing w with
  | ret a => exact fun v hv hi => hp _ _ (h v hv hi)
  | panic => exact fun v hv hi => hp _ _ (h v hv hi)
  | call op k ih => exact h.call_imp fun reply _ => ih reply

/-- The rule of sequence. -/
theorem Safe.bind {f : α → Prog Op Reply β} {post : Option β → W → Prop}
    (h : Safe R p (fun o w =>
      match o with
      | some a => Safe R (f a) post w
      | none => post none w) w) : Safe R (p >>= f) post w := by
  induction p generalizing w with
  | ret a => exact Safe.of_lasts h
  | panic => exact h
  | call op k ih => exact h.call_imp fun reply _ => ih reply

/-- The rule of sequence after a step that may fail, when a failure promises enough. -/
theorem Safe.bind_ok {ε : Type} {p : Prog Op Reply (Except ε α)}
    {f : Except ε α → Prog Op Reply β} {post : Option β → W → Prop}
    (h : Safe R p (fun o w => ∀ a, o = some (.ok a) → Safe R (f (.ok a)) post w) w)
    (hpanic : ∀ w, post none w) (herr : ∀ e w, Safe R (f (.error e)) post w) :
    Safe R (p >>= f) post w := by
  refine Safe.bind (h.mono fun o v hok => ?_)
  rcases o with _ | e | a
  · exact hpanic v
  · exact herr e v
  · exact hok a rfl

/-- The rule of `catch_unwind`. -/
theorem Safe.catchUnwind {post : Option (Option α) → W → Prop}
    (h : Safe R p (fun o w => post (some o) w) w) : Safe R p.catchUnwind post w := by
  induction p generalizing w with
  | ret a => exact h
  | panic => exact h
  | call op k ih => exact h.call_imp fun reply _ => ih reply

/-- A program that owes nothing at its end may do something with its answer. -/
theorem Safe.bind_ret {f : α → β} (h : Safe R p (fun _ _ => True) w) :
    Safe R (p >>= fun a => .ret (f a)) (fun _ _ => True) w := by
  refine Safe.bind (h.mono fun o v _ => ?_)
  cases o with
  | none => trivial
  | some a => exact fun _ _ _ => trivial

/-- The rule of a call. -/
theorem Safe.perform {op : Op} {post : Option (Reply op) → W → Prop}
    (h : R.Lasts (fun w' => R.owes op w' ∧
      ∀ reply w'', R.step op w' reply w'' → R.inv w'' → R.Lasts (post reply) w'') w) :
    Safe R (.perform op) post w := by
  intro w' hw hi
  obtain ⟨ho,hk⟩ := h w' hw hi
  refine ⟨ho,fun reply w'' hs hi' => ?_⟩
  cases reply with
  | none => exact hk none w'' hs hi'
  | some r => exact hk (some r) w'' hs hi'

/-- A fact that survives the waiting and every call stays true to the end. -/
theorem Safe.frame {F : W → Prop} (hr : ∀ a b, F a → R.rely a b → F b)
    (hs : ∀ a op reply b, F a → R.inv a → R.owes op a → R.step op a reply b → F b)
    (h : Safe R p post w) (hw : F w) : Safe R p (fun o w' => post o w' ∧ F w') w := by
  induction p generalizing w with
  | ret a => exact fun v hv hi => ⟨h v hv hi,hr w v hw hv⟩
  | panic => exact fun v hv hi => ⟨h v hv hi,hr w v hw hv⟩
  | call op k ih =>
    intro v hv hi
    obtain ⟨ho,hk⟩ := h v hv hi
    refine ⟨ho,fun reply v' hstep hi' => ih reply (hk reply v' hstep hi') ?_⟩
    exact hs v op reply v' (hr w v hw hv) hi ho hstep

/-- The same rules for a worker that owes more. -/
def Rules.also (R : Rules Op Reply W) (extra : Op → W → Prop) : Rules Op Reply W :=
  { R with owes := fun op w => R.owes op w ∧ extra op w }

/-- Who owes more is safe when less is owed. -/
theorem Safe.of_also {extra : Op → W → Prop} (h : Safe (R.also extra) p post w) :
    Safe R p post w := by
  induction p generalizing w with
  | ret a => exact h
  | panic => exact h
  | call op k ih =>
    intro v hv hi
    obtain ⟨ho,hk⟩ := h v hv hi
    exact ⟨ho.1,fun reply v' hs hi' => ih reply (hk reply v' hs hi')⟩

/-- Who is safe may owe more, if the rest is always paid. -/
theorem Safe.also {extra : Op → W → Prop} (h : Safe R p post w) (hx : ∀ op w, extra op w) :
    Safe (R.also extra) p post w := by
  induction p generalizing w with
  | ret a => exact h
  | panic => exact h
  | call op k ih =>
    intro v hv hi
    obtain ⟨ho,hk⟩ := h v hv hi
    exact ⟨⟨ho,hx op v⟩,fun reply v' hs hi' => ih reply (hk reply v' hs hi')⟩

end Rules

section Execution

/-- One worker runs a program to its end, while the world changes between its calls. -/
inductive Exec (R : Rules Op Reply W) : Prog Op Reply α → W → Option α → W → Prop
  /-- The program returns. -/
  | ret {a : α} {w w' : W} : R.rely w w' → Exec R (.ret a) w (some a) w'
  /-- The program panics. -/
  | panic {w w' : W} : R.rely w w' → Exec R .panic w none w'
  /-- A call. -/
  | call {op : Op} {k : Option (Reply op) → Prog Op Reply α} {w w' w'' v : W}
    {reply : Option (Reply op)} {o : Option α} : R.rely w w' → R.step op w' reply w'' →
      Exec R (k reply) w'' o v → Exec R (.call op k) w o v

variable {R : Rules Op Reply W} {p : Prog Op Reply α} {w w' : W} {o : Option α}

/-- A safe program keeps the invariant and ends as promised. -/
theorem Exec.post (h : Exec R p w o w') (hr : ∀ w w', R.inv w → R.rely w w' → R.inv w')
    (hs : ∀ op w reply w', R.inv w → R.owes op w → R.step op w reply w' → R.inv w')
    (hw : R.inv w) {post : Option α → W → Prop} (hp : Safe R p post w) :
    R.inv w' ∧ post o w' := by
  induction h with
  | ret h => exact ⟨hr _ _ hw h,hp _ h (hr _ _ hw h)⟩
  | panic h => exact ⟨hr _ _ hw h,hp _ h (hr _ _ hw h)⟩
  | call h hstep _ ih =>
    have hi := hr _ _ hw h
    obtain ⟨ho,hk⟩ := hp _ h hi
    have hi' := hs _ _ _ _ hi ho hstep
    exact ih hi' (hk _ _ hstep hi')

end Execution

section Pool

/-- The workers of a system and the world they share; every program is started
under a number of its own. -/
structure Pool (Op : Type) (Reply : Op → Type) (W : Type) where
  /-- The shared world. -/
  world : W
  /-- What is left of each running program. -/
  workers : ℕ → Option (Prog Op Reply Unit)
  /-- The number of the next program. -/
  next : ℕ

/-- A system of workers, with what they owe to and expect of each other. -/
structure Team (Op : Type) (Reply : Op → Type) (W : Type) where
  /-- What a call of a worker may answer and leave. -/
  perform : ℕ → (op : Op) → W → Option (Reply op) → W → Prop
  /-- What may happen that no worker does. -/
  outside : W → W → Prop
  /-- The programs that may be started. -/
  programs : Prog Op Reply Unit → Prop

/-- One step of a system. -/
inductive Team.Step (T : Team Op Reply W) : Pool Op Reply W → Pool Op Reply W → Prop
  /-- A worker makes its next call. -/
  | call {s : Pool Op Reply W} {i : ℕ} {op : Op} {k : Option (Reply op) → Prog Op Reply Unit}
    {reply : Option (Reply op)} {w : W} : s.workers i = some (.call op k) →
      T.perform i op s.world reply w →
      Step T s { s with world := w, workers := Function.update s.workers i (some (k reply)) }
  /-- A worker crashes. -/
  | crash {s : Pool Op Reply W} (i : ℕ) :
    Step T s { s with workers := Function.update s.workers i none }
  /-- A program is started. -/
  | start {s : Pool Op Reply W} {p : Prog Op Reply Unit} : T.programs p →
      Step T s { s with workers := Function.update s.workers s.next (some p), next := s.next+1 }
  /-- Something else happens. -/
  | outside {s : Pool Op Reply W} {w : W} : T.outside s.world w → Step T s { s with world := w }

/-- The pools that a system reaches from a world without workers. -/
inductive Team.Reaches (T : Team Op Reply W) (w : W) : Pool Op Reply W → Prop
  /-- The start. -/
  | start : Reaches T w ⟨w,fun _ => none,0⟩
  /-- One more step. -/
  | step {s s' : Pool Op Reply W} : Reaches T w s → T.Step s s' → Reaches T w s'

/-- A worker of a system while all others wait. -/
def Team.alone (T : Team Op Reply W) (i : ℕ) : Rules Op Reply W where
  step := T.perform i
  rely := Eq
  rely_refl := fun _ => rfl
  rely_trans := fun h h' => h.trans h'
  inv := fun _ => True
  owes := fun _ _ => True

/-- A system reaches what one of its workers reaches alone. -/
theorem Team.Reaches.alone {T : Team Op Reply W} {w w' : W} {s : Pool Op Reply W} {i : ℕ}
    {p : Prog Op Reply Unit} {o : Option Unit} (h : T.Reaches w s) (hp : s.workers i = some p)
    (he : Exec (T.alone i) p s.world o w') :
    ∃ s', T.Reaches w s' ∧ s'.world = w' ∧ s'.next = s.next := by
  generalize hv : s.world = v at he
  induction he generalizing s with
  | ret hr => exact ⟨s,h,hv.trans hr,rfl⟩
  | panic hr => exact ⟨s,h,hv.trans hr,rfl⟩
  | @call op k a b c d reply o hr hstep _ ih =>
    obtain rfl : s.world = b := hv.trans hr
    have hreach : T.Reaches w
        { s with world := c, workers := Function.update s.workers i (some (k reply)) } :=
      h.step (.call hp hstep)
    have hrest := ih hreach (Function.update_self ..) rfl
    exact hrest

/-- Rules for the workers of a system that they keep towards each other. -/
structure Team.Discipline (T : Team Op Reply W) where
  /-- What each worker may expect between its calls. -/
  rely : ℕ → W → W → Prop
  /-- What holds of every world. -/
  inv : W → Prop
  /-- What each worker owes before a call. -/
  owes : ℕ → Op → W → Prop
  /-- What holds for the number of a worker that has not started. -/
  new : ℕ → W → Prop
  rely_refl : ∀ i w, rely i w w
  rely_trans : ∀ {i a b c}, rely i a b → rely i b c → rely i a c
  /-- Others do not act under a number that is not theirs. -/
  new_rely : ∀ {i a b}, new i a → rely i a b → new i b
  /-- A call whose condition is paid keeps the invariant. -/
  call_inv : ∀ {i op w reply w'}, inv w → owes i op w → T.perform i op w reply w' → inv w'
  /-- The other workers expect it. -/
  call_rely : ∀ {i j op w reply w'}, inv w → owes i op w → T.perform i op w reply w' → j ≠ i →
    rely j w w'
  /-- What happens outside keeps the invariant. -/
  outside_inv : ∀ {w w'}, inv w → T.outside w w' → inv w'
  /-- All workers expect it. -/
  outside_rely : ∀ {j w w'}, inv w → T.outside w w' → rely j w w'

/-- The rules of one worker. -/
def Team.Discipline.rules {T : Team Op Reply W} (D : T.Discipline) (i : ℕ) : Rules Op Reply W where
  step := T.perform i
  rely := D.rely i
  rely_refl := D.rely_refl i
  rely_trans := D.rely_trans
  inv := D.inv
  owes := D.owes i

/-- A pool whose world keeps the invariant, and whose programs are safe. -/
structure Team.Discipline.Sound {T : Team Op Reply W} (D : T.Discipline)
    (s : Pool Op Reply W) : Prop where
  /-- The invariant holds. -/
  inv : D.inv s.world
  /-- Nobody has the number of the next program, or a later one. -/
  free : ∀ i, s.next ≤ i → s.workers i = none ∧ D.new i s.world
  /-- Every running program is safe. -/
  safe : ∀ i p, s.workers i = some p → Safe (D.rules i) p (fun _ _ => True) s.world

variable {T : Team Op Reply W} {D : T.Discipline} {s s' : Pool Op Reply W}

/-- A call of one worker leaves its own rest safe, and the others as they expect. -/
theorem Team.Discipline.Sound.call (h : D.Sound s) {i : ℕ} {op : Op}
    {k : Option (Reply op) → Prog Op Reply Unit} {reply : Option (Reply op)} {w : W}
    (hwork : s.workers i = some (.call op k)) (hcall : T.perform i op s.world reply w) :
    D.Sound { s with world := w, workers := Function.update s.workers i (some (k reply)) } := by
  obtain ⟨howes,hk⟩ := Rules.Lasts.now (h.safe i _ hwork) h.inv
  have hinv := D.call_inv h.inv howes hcall
  refine ⟨hinv,fun j hj => ?_,fun j p hj => ?_⟩
  · have hji : j ≠ i := by
      rintro rfl
      rw [(h.free j hj).1] at hwork
      cases hwork
    dsimp only
    rw [Function.update_of_ne hji]
    exact ⟨(h.free j hj).1,D.new_rely (h.free j hj).2 (D.call_rely h.inv howes hcall hji)⟩
  · dsimp only at hj ⊢
    rw [Function.update_apply] at hj
    split at hj
    · next hji =>
      subst hji
      cases hj
      exact hk reply w hcall hinv
    · next hji => exact (h.safe j p hj).wait (D.call_rely h.inv howes hcall hji)

/-- A crash leaves one program less. -/
theorem Team.Discipline.Sound.crash (h : D.Sound s) (i : ℕ) :
    D.Sound { s with workers := Function.update s.workers i none } := by
  refine ⟨h.inv,fun j hj => ⟨?_,(h.free j hj).2⟩,fun j p hj => ?_⟩
  · dsimp only
    rw [Function.update_apply,(h.free j hj).1,ite_self]
  · dsimp only at hj ⊢
    rw [Function.update_apply] at hj
    split at hj
    · cases hj
    · exact h.safe j p hj

/-- A program that is safe when it starts joins the others. -/
theorem Team.Discipline.Sound.start (h : D.Sound s) {p : Prog Op Reply Unit}
    (hp : Safe (D.rules s.next) p (fun _ _ => True) s.world) :
    D.Sound { s with workers := Function.update s.workers s.next (some p), next := s.next+1 } := by
  refine ⟨h.inv,fun j hj => ?_,fun j p' hj => ?_⟩
  · have hlt : s.next<j := hj
    dsimp only
    rw [Function.update_of_ne (Nat.ne_of_gt hlt)]
    exact h.free j (Nat.le_of_lt hlt)
  · dsimp only at hj ⊢
    rw [Function.update_apply] at hj
    split at hj
    · next hji =>
      subst hji
      cases hj
      exact hp
    · exact h.safe j p' hj

/-- What happens outside is what every worker expects. -/
theorem Team.Discipline.Sound.outside (h : D.Sound s) {w : W} (hout : T.outside s.world w) :
    D.Sound { s with world := w } :=
  ⟨D.outside_inv h.inv hout,
    fun j hj => ⟨(h.free j hj).1,D.new_rely (h.free j hj).2 (D.outside_rely h.inv hout)⟩,
    fun j p hj => (h.safe j p hj).wait (D.outside_rely h.inv hout)⟩

/-- One step of a system keeps its pool sound, if every program is safe when it is
started. -/
theorem Team.Discipline.Sound.step (h : D.Sound s)
    (hp : ∀ i p w, T.programs p → D.inv w → D.new i w →
      Safe (D.rules i) p (fun _ _ => True) w) (hstep : T.Step s s') : D.Sound s' := by
  cases hstep with
  | call hwork hcall => exact h.call hwork hcall
  | crash i => exact h.crash i
  | start hprog => exact h.start (hp _ _ _ hprog h.inv (h.free _ (Nat.le_refl _)).2)
  | outside hout => exact h.outside hout

/-- If every program is safe when it is started, every reachable pool is sound. -/
theorem Team.Discipline.reaches_safe (D : T.Discipline) {w : W} (hw : D.inv w)
    (hnew : ∀ i, D.new i w)
    (hp : ∀ i p w, T.programs p → D.inv w → D.new i w →
      Safe (D.rules i) p (fun _ _ => True) w) (h : T.Reaches w s) : D.Sound s := by
  induction h with
  | start => exact ⟨hw,fun i _ => ⟨rfl,hnew i⟩,fun _ _ hwork => by cases hwork⟩
  | step _ hstep ih => exact ih.step hp hstep

end Pool

end Mulac.Interference
