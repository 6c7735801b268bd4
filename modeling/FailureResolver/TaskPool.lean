import FailureResolver.Program
import FailureResolver.Transitions
import Mathlib.Logic.Function.Basic
import Mathlib.Logic.Relation

/-!
Many programs over one shared state. A task runs alone from one await to its
next; at an await every other task may run. A discipline gives each task a ghost
mode, says what a task may rely on when it is resumed and what it may do to the
state itself, and is checked on each program alone. A monitor records what a
task has awaited. Nothing here depends on what the operations are.
-/

namespace FailureResolver.TaskPool

open Program Transitions

variable {σ : Interface} {α β G M : Type}

def advance : Prog σ α → σ.State → σ.State × Prog σ α
  | .get k, s => advance (k s) s
  | .set s' next, _ => advance next s'
  | .ret a, s => (s, .ret a)
  | .raise e, s => (s, .raise e)
  | .halt, s => (s, .halt)
  | .await op k, s => (s, .await op k)

def Settled : Prog σ α → Prop
  | .get _ => False
  | .set _ _ => False
  | _ => True

def Finished : Prog σ α → Prop
  | .ret _ => True
  | .raise _ => True
  | _ => False

theorem advance_settled (p : Prog σ α) (s : σ.State) : Settled (advance p s).2 := by
  induction p generalizing s with
  | ret a => trivial
  | raise e => trivial
  | halt => trivial
  | get k ih => exact ih s s
  | set s' next ih => exact ih s'
  | await op k ih => trivial

section Bind

variable {p : Prog σ α} {f : α → Prog σ β} {s s' : σ.State}

theorem advance_bind_await {op : σ.Op} {k : Except σ.Exc (σ.Reply op) → Prog σ α}
    (h : advance p s = (s', .await op k)) :
    advance (p.bind f) s = (s', .await op fun r => (k r).bind f) := by
  induction p generalizing s with
  | ret a => cases h
  | raise e => cases h
  | halt => cases h
  | get k' ih => exact ih s h
  | set s₁ next ih => exact ih h
  | await op' k' ih =>
    cases h
    rfl

theorem advance_bind_ret {a : α} (h : advance p s = (s', .ret a)) :
    advance (p.bind f) s = advance (f a) s' := by
  induction p generalizing s with
  | ret b =>
    cases h
    rfl
  | raise e => cases h
  | halt => cases h
  | get k' ih => exact ih s h
  | set s₁ next ih => exact ih h
  | await op' k' ih => cases h

theorem advance_attempt (p : Prog σ α) (s : σ.State) :
    advance p.attempt s = ((advance p s).1, (advance p s).2.attempt) := by
  induction p generalizing s with
  | ret a => rfl
  | raise e => rfl
  | halt => rfl
  | get k ih => exact ih s s
  | set s₁ next ih => exact ih s₁
  | await op k ih => rfl

theorem advance_attempt_await {op : σ.Op} {k : Except σ.Exc (σ.Reply op) → Prog σ α}
    (h : advance p s = (s', .await op k)) :
    advance p.attempt s = (s', .await op fun r => (k r).attempt) := by
  rw [advance_attempt, h]
  rfl

/-- A handler waits for what comes of the await. -/
theorem advance_tryCatch_await {handler : σ.Exc → Prog σ α} {op : σ.Op}
    {k : Except σ.Exc (σ.Reply op) → Prog σ α} (h : advance p s = (s', .await op k)) :
    advance (p.tryCatch handler) s = (s', .await op fun r => (k r).tryCatch handler) :=
  advance_bind_await (advance_attempt_await h)

/-- A cleanup waits for what comes of the await. -/
theorem advance_tryFinally_await {cleanup : σ.State → σ.State} {op : σ.Op}
    {k : Except σ.Exc (σ.Reply op) → Prog σ α} (h : advance p s = (s', .await op k)) :
    advance (p.tryFinally cleanup) s = (s', .await op fun r => (k r).tryFinally cleanup) :=
  advance_bind_await (advance_attempt_await h)

end Bind

section Discipline

/-- What the tasks of a family rely on, do, ask for and learn. -/
structure Discipline (σ : Interface) (G : Type) where
  rely : G → σ.State → Prop
  act : G → σ.State → G → σ.State → Prop
  request : G → σ.State → σ.Op → Prop
  answer : G → (op : σ.Op) → Except σ.Exc (σ.Reply op) → G → Prop

/-- From this mode and state on the program keeps to the discipline, and where it
ends the postcondition holds. -/
def Obeys (D : Discipline σ G) (Q : Except σ.Exc α → G → σ.State → Prop) :
    Prog σ α → G → σ.State → Prop
  | .ret a, g, s => Q (.ok a) g s
  | .raise e, g, s => Q (.error e) g s
  | .halt, _, _ => True
  | .get k, g, s => Obeys D Q (k s) g s
  | .set s' next, g, s => ∃ g', D.act g s g' s' ∧ Obeys D Q next g' s'
  | .await op k, g, s => D.request g s op ∧
      ∀ r g' s', D.answer g op r g' → D.rely g' s' → Obeys D Q (k r) g' s'

def Acts (D : Discipline σ G) (g : G) (s : σ.State) (g' : G) (s' : σ.State) : Prop :=
  Relation.ReflTransGen (fun a b : G × σ.State => D.act a.1 a.2 b.1 b.2) (g, s) (g', s')

variable {D : Discipline σ G} {g : G} {s : σ.State} {p : Prog σ α}
variable {Q R : Except σ.Exc α → G → σ.State → Prop}

/-- What no single change of a task breaks, no segment breaks. -/
theorem Acts.preserves {I : G → σ.State → Prop} {g' : G} {s' : σ.State} (h : Acts D g s g' s')
    (hstart : I g s) (hact : ∀ g s g' s', I g s → D.act g s g' s' → I g' s') : I g' s' := by
  suffices key : ∀ b : G × σ.State,
      Relation.ReflTransGen (fun a b : G × σ.State => D.act a.1 a.2 b.1 b.2) (g, s) b →
        I b.1 b.2 by
    exact key (g', s') h
  intro b hb
  induction hb with
  | refl => exact hstart
  | tail _ hlast ih => exact hact _ _ _ _ ih hlast

/-- A task keeps to the discipline up to its next await, and stays ready to. -/
theorem Obeys.advance (h : Obeys D Q p g s) :
    ∃ g', Acts D g s g' (advance p s).1 ∧ Obeys D Q (advance p s).2 g' (advance p s).1 := by
  induction p generalizing g s with
  | ret a => exact ⟨g, .refl, h⟩
  | raise e => exact ⟨g, .refl, h⟩
  | halt => exact ⟨g, .refl, h⟩
  | get k ih => exact ih s h
  | set s' next ih =>
    obtain ⟨g₁, hact, hnext⟩ := h
    obtain ⟨g', hacts, hobeys⟩ := ih hnext
    exact ⟨g', .head hact hacts, hobeys⟩
  | await op k ih => exact ⟨g, .refl, h⟩

theorem Obeys.mono (h : Obeys D Q p g s) (hQ : ∀ r g s, Q r g s → R r g s) :
    Obeys D R p g s := by
  induction p generalizing g s with
  | ret a => exact hQ _ _ _ h
  | raise e => exact hQ _ _ _ h
  | halt => trivial
  | get k ih => exact ih s h
  | set s' next ih =>
    obtain ⟨g', hact, hnext⟩ := h
    exact ⟨g', hact, ih hnext⟩
  | await op k ih =>
    exact ⟨h.1, fun r g' s' hanswer hrely => ih r (h.2 r g' s' hanswer hrely)⟩

/-- At an await or an end the state of the moment does not matter, if neither
the requests nor the postcondition look at it. -/
theorem Obeys.elsewhere {s' : σ.State} (h : Obeys D Q p g s) (hsettled : Settled p)
    (hrequest : ∀ op, D.request g s op → D.request g s' op)
    (hQ : ∀ r, Q r g s → Q r g s') : Obeys D Q p g s' := by
  cases p with
  | ret a => exact hQ _ h
  | raise e => exact hQ _ h
  | halt => trivial
  | get k => exact hsettled.elim
  | set s' next => exact hsettled.elim
  | await op k => exact ⟨hrequest op h.1, h.2⟩

/-- Sequencing: the second part goes on from where the first one returned. -/
theorem obeys_bind {f : α → Prog σ β} {Q : Except σ.Exc β → G → σ.State → Prop} :
    Obeys D Q (p.bind f) g s ↔
      Obeys D (fun r g s => match r with
        | .ok a => Obeys D Q (f a) g s
        | .error e => Q (.error e) g s) p g s := by
  induction p generalizing g s with
  | ret a => exact Iff.rfl
  | raise e => exact Iff.rfl
  | halt => exact Iff.rfl
  | get k ih => exact ih s
  | set s' next ih => exact exists_congr fun g' => and_congr_right fun _ => ih
  | await op k ih =>
    exact and_congr_right fun _ => forall_congr' fun r => forall_congr' fun g' =>
      forall_congr' fun s' => imp_congr_right fun _ => imp_congr_right fun _ => ih r

theorem obeys_attempt {Q : Except σ.Exc (Except σ.Exc α) → G → σ.State → Prop} :
    Obeys D Q p.attempt g s ↔ Obeys D (fun r => Q (.ok r)) p g s := by
  induction p generalizing g s with
  | ret a => exact Iff.rfl
  | raise e => exact Iff.rfl
  | halt => exact Iff.rfl
  | get k ih => exact ih s
  | set s' next ih => exact exists_congr fun g' => and_congr_right fun _ => ih
  | await op k ih =>
    exact and_congr_right fun _ => forall_congr' fun r => forall_congr' fun g' =>
      forall_congr' fun s' => imp_congr_right fun _ => imp_congr_right fun _ => ih r

theorem obeys_tryCatch {handler : σ.Exc → Prog σ α} :
    Obeys D Q (p.tryCatch handler) g s ↔
      Obeys D (fun r g s => match r with
        | .ok a => Q (.ok a) g s
        | .error e => Obeys D Q (handler e) g s) p g s := by
  rw [Prog.tryCatch, obeys_bind, obeys_attempt]
  apply Iff.of_eq
  congr 1
  funext r
  cases r <;> rfl

theorem obeys_tryFinally {cleanup : σ.State → σ.State} :
    Obeys D Q (p.tryFinally cleanup) g s ↔
      Obeys D (fun r g s => ∃ g', D.act g s g' (cleanup s) ∧ Q r g' (cleanup s)) p g s := by
  rw [Prog.tryFinally, obeys_bind, obeys_attempt]
  apply Iff.of_eq
  congr 1
  funext r
  cases r <;> rfl

theorem obeys_get {k : σ.State → Prog σ α} : Obeys D Q (.get k) g s ↔ Obeys D Q (k s) g s :=
  Iff.rfl

theorem obeys_observe {Q : Except σ.Exc σ.State → G → σ.State → Prop} :
    Obeys D Q Prog.observe g s ↔ Q (.ok s) g s := Iff.rfl

theorem obeys_observe_bind {f : σ.State → Prog σ α} :
    Obeys D Q (Prog.observe.bind f) g s ↔ Obeys D Q (f s) g s := Iff.rfl

theorem obeys_update_bind {f : σ.State → σ.State} {k : Unit → Prog σ α} :
    Obeys D Q ((Prog.update f).bind k) g s ↔
      ∃ g', D.act g s g' (f s) ∧ Obeys D Q (k ()) g' (f s) := Iff.rfl

theorem obeys_settle {r : Except σ.Exc α} : Obeys D Q (Prog.settle r) g s ↔ Q r g s := by
  cases r <;> rfl

theorem obeys_finallyDo {cleanup : Prog σ Unit} :
    Obeys D Q (p.finallyDo cleanup) g s ↔
      Obeys D (fun r g s => Obeys D (fun r' g s => match r' with
        | .ok _ => Q r g s
        | .error e => Q (.error e) g s) cleanup g s) p g s := by
  rw [Prog.finallyDo, obeys_bind, obeys_attempt]
  apply Iff.of_eq
  congr 1
  funext r g s
  show Obeys D Q (cleanup.bind fun _ => Prog.settle r) g s = _
  apply propext
  rw [obeys_bind]
  apply Iff.of_eq
  congr 1
  funext r' g s
  cases r' with
  | error e => rfl
  | ok _ => exact propext obeys_settle

theorem obeys_call {op : σ.Op} {Q : Except σ.Exc (σ.Reply op) → G → σ.State → Prop} :
    Obeys D Q (Prog.call op) g s ↔ D.request g s op ∧
      ∀ r g' s', D.answer g op r g' → D.rely g' s' → Q r g' s' := by
  refine and_congr_right fun _ => forall_congr' fun r => forall_congr' fun g' =>
    forall_congr' fun s' => imp_congr_right fun _ => imp_congr_right fun _ => ?_
  exact obeys_settle

/-- A program that only awaits what its mode may, and learns nothing from it. -/
theorem Obeys.of_awaits {P : σ.Op → Prop} (hp : p.Awaits P)
    (hrequest : ∀ s op, P op → D.request g s op)
    (hanswer : ∀ op r g', P op → D.answer g op r g' → g' = g) :
    Obeys D (fun _ g' _ => g' = g) p g s := by
  induction p generalizing s with
  | ret a => rfl
  | raise e => rfl
  | halt => trivial
  | get k ih => exact ih s (hp s)
  | set s' next ih => exact hp.elim
  | await op k ih =>
    refine ⟨hrequest s op hp.1, fun r g' s' hlearned _ => ?_⟩
    rw [hanswer op r g' hp.1 hlearned]
    exact ih r (hp.2 r)

/-- As long as a mode relies on something, a program that only awaits finds it. -/
theorem Obeys.of_awaits_relying {P : σ.Op → Prop} {I : σ.State → Prop} (hp : p.Awaits P)
    (hI : I s) (hrequest : ∀ s op, P op → D.request g s op)
    (hanswer : ∀ op r g', P op → D.answer g op r g' → g' = g) (hrely : ∀ s, D.rely g s → I s) :
    Obeys D (fun _ g' s' => g' = g ∧ I s') p g s := by
  induction p generalizing s with
  | ret a => exact ⟨rfl, hI⟩
  | raise e => exact ⟨rfl, hI⟩
  | halt => trivial
  | get k ih => exact ih s (hp s) hI
  | set s' next ih => exact hp.elim
  | await op k ih =>
    refine ⟨hrequest s op hp.1, fun r g' s' hlearned hfound => ?_⟩
    rw [hanswer op r g' hp.1 hlearned] at hfound ⊢
    exact ih r (hp.2 r) (hrely s' hfound)

/-- The same for a program that may change the state, in a mode that lets it. -/
theorem Obeys.of_only {P : σ.Op → Prop} (hp : p.Only P) (hact : ∀ s s', D.act g s g s')
    (hrequest : ∀ s op, P op → D.request g s op)
    (hanswer : ∀ op r g', P op → D.answer g op r g' → g' = g) :
    Obeys D (fun _ g' _ => g' = g) p g s := by
  induction p generalizing s with
  | ret a => rfl
  | raise e => rfl
  | halt => trivial
  | get k ih => exact ih s (hp s)
  | set s' next ih => exact ⟨g, hact s s', ih hp⟩
  | await op k ih =>
    refine ⟨hrequest s op hp.1, fun r g' s' hlearned _ => ?_⟩
    rw [hanswer op r g' hp.1 hlearned]
    exact ih r (hp.2 r)

/-- A program that only awaits what every mode may. -/
theorem Obeys.of_allowed {P : σ.Op → Prop} (hp : p.Awaits P)
    (hrequest : ∀ g s op, P op → D.request g s op) : Obeys D (fun _ _ _ => True) p g s := by
  induction p generalizing g s with
  | ret a => trivial
  | raise e => trivial
  | halt => trivial
  | get k ih => exact ih s (hp s)
  | set s' next ih => exact hp.elim
  | await op k ih => exact ⟨hrequest g s op hp.1, fun r g' s' _ _ => ih r (hp.2 r)⟩

/-- What a program that keeps to a discipline awaits in an environment that answers
as the discipline expects. -/
theorem Obeys.ensures (env : Environment σ) (h : Obeys D Q p g s)
    (henv : ∀ g s op r s', env s op r s' → ∃ g', D.answer g op r g' ∧ D.rely g' s') :
    Ensures env p s (fun t _ => ∀ e ∈ t, ∃ g, D.request g e.before e.op) := by
  intro t o hrun
  induction hrun generalizing g with
  | ret a s => simp
  | raise e s => simp
  | halt s => simp
  | get _ ih => exact ih h
  | set _ ih =>
    obtain ⟨g', -, hnext⟩ := h
    exact ih hnext
  | suspend k s =>
    intro e he
    rw [List.mem_singleton] at he
    subst he
    exact ⟨g, h.1⟩
  | resume hanswer _ ih =>
    obtain ⟨g', hlearned, hrely⟩ := henv g _ _ _ _ hanswer
    intro e he
    rcases List.mem_cons.mp he with rfl | he
    · exact ⟨g, h.1⟩
    · exact ih (h.2 _ g' _ hlearned hrely) e he

def recorded (watch : G → (op : σ.Op) → Except σ.Exc (σ.Reply op) → G) (g : G)
    (t : List (Event σ)) : G :=
  t.foldl (fun g e => match e.reply with
    | some (r, _) => watch g e.op r
    | none => g) g

/-- A discipline whose modes are what a monitor has recorded. -/
theorem Obeys.watched (env : Environment σ) (h : Obeys D Q p g s)
    {watch : G → (op : σ.Op) → Except σ.Exc (σ.Reply op) → G}
    (hact : ∀ g s g' s', D.act g s g' s' → g' = g)
    (hwatch : ∀ g s op r s', env s op r s' →
      D.answer g op r (watch g op r) ∧ D.rely (watch g op r) s') :
    Ensures env p s fun t _ => ∀ before e after, t = before ++ e :: after →
      D.request (recorded watch g before) e.before e.op := by
  intro t o hrun
  induction hrun generalizing g with
  | ret a s => simp
  | raise e s => simp
  | halt s => simp
  | get _ ih => exact ih h
  | set _ ih =>
    obtain ⟨g', hset, hnext⟩ := h
    rw [hact _ _ _ _ hset] at hnext
    exact ih hnext
  | suspend k s =>
    intro before e after heq
    rcases before with _ | ⟨first, before⟩
    · obtain ⟨rfl, -⟩ := List.cons.inj heq
      exact h.1
    · exact absurd (List.cons.inj heq).2 (by simp)
  | @resume op k s s' r t o hanswer _ ih =>
    obtain ⟨hlearned, hrely⟩ := hwatch g _ _ _ _ hanswer
    intro before e after heq
    rcases before with _ | ⟨first, before⟩
    · obtain ⟨rfl, -⟩ := List.cons.inj heq
      exact h.1
    · obtain ⟨rfl, hrest⟩ := List.cons.inj heq
      exact ih (h.2 _ _ _ hlearned hrely) before e after hrest

end Discipline

section Pool

/-- The shared state, the tasks that were started with what is left of each, and
what the monitor has recorded of it. -/
structure Pool (σ : Interface) (α M : Type) where
  state : σ.State
  task : ℕ → Option (Prog σ α)
  record : ℕ → M

inductive Label (σ : Interface)
  | start (i : ℕ)
  | resume (i : ℕ) (op : σ.Op) (r : Except σ.Exc (σ.Reply op))
  | outside

def Pool.run (P : Pool σ α M) (i : ℕ) (p : Prog σ α) (m : M) (s : σ.State) : Pool σ α M :=
  ⟨(advance p s).1, Function.update P.task i (some (advance p s).2),
    Function.update P.record i m⟩

/-- A task is started, an await of a task is answered, or something outside the
tasks changes the state. -/
inductive Step (spawn : Prog σ α → M → Prop)
    (watch : M → (op : σ.Op) → Except σ.Exc (σ.Reply op) → M) (env : Environment σ)
    (outside : σ.State → σ.State → Prop) : Pool σ α M → Label σ → Pool σ α M → Prop
  | start {P : Pool σ α M} {i : ℕ} {p : Prog σ α} {m : M} :
      P.task i = none → spawn p m → Step spawn watch env outside P (.start i) (P.run i p m P.state)
  | resume {P : Pool σ α M} {i : ℕ} {op : σ.Op} {k : Except σ.Exc (σ.Reply op) → Prog σ α}
      {r : Except σ.Exc (σ.Reply op)} {s' : σ.State} :
      P.task i = some (.await op k) → env P.state op r s' →
      Step spawn watch env outside P (.resume i op r)
        (P.run i (k r) (watch (P.record i) op r) s')
  | outside {P : Pool σ α M} {s' : σ.State} :
      outside P.state s' → Step spawn watch env outside P .outside { P with state := s' }

def Pool.initial (s : σ.State) (m : M) : Pool σ α M := ⟨s, fun _ => none, fun _ => m⟩

variable {P : Pool σ α M} {i j : ℕ} {p q : Prog σ α} {m : M} {s : σ.State}

@[simp] theorem run_state : (P.run i p m s).state = (advance p s).1 := rfl

@[simp] theorem run_task_self : (P.run i p m s).task i = some (advance p s).2 :=
  Function.update_self ..

theorem run_task_other (h : j ≠ i) : (P.run i p m s).task j = P.task j :=
  Function.update_of_ne h ..

@[simp] theorem run_record_self : (P.run i p m s).record i = m := Function.update_self ..

theorem run_record_other (h : j ≠ i) : (P.run i p m s).record j = P.record j :=
  Function.update_of_ne h ..

end Pool

end FailureResolver.TaskPool
