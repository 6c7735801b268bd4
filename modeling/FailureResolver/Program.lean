import Mathlib.Data.List.Basic
import Mathlib.Tactic.Basic

/-!
Cooperative programs. A program reads and writes a shared state atomically
between its awaits; at an await every other task may change that state, and the
environment answers with a value or with an exception. A run lists the awaits
in order, so a run that stops at an await is a prefix of longer runs. Nothing
here depends on what the operations are.
-/

namespace FailureResolver.Program

/-- The operations a family of programs awaits, with the shared state. -/
structure Interface where
  State : Type
  Op : Type
  Reply : Op → Type
  Exc : Type

/-- `halt` ends an unrolled loop: a run that gets there is followed no further. -/
inductive Prog (σ : Interface) (α : Type) : Type
  | ret (a : α) : Prog σ α
  | raise (e : σ.Exc) : Prog σ α
  | halt : Prog σ α
  | get (k : σ.State → Prog σ α) : Prog σ α
  | set (s : σ.State) (next : Prog σ α) : Prog σ α
  | await (op : σ.Op) (k : Except σ.Exc (σ.Reply op) → Prog σ α) : Prog σ α

variable {σ : Interface} {α β γ : Type}

namespace Prog

def bind : Prog σ α → (α → Prog σ β) → Prog σ β
  | .ret a, f => f a
  | .raise e, _ => .raise e
  | .halt, _ => .halt
  | .get k, f => .get (fun s => (k s).bind f)
  | .set s next, f => .set s (next.bind f)
  | .await op k, f => .await op (fun r => (k r).bind f)

instance : Monad (Prog σ) where
  pure := .ret
  bind := Prog.bind

@[simp] theorem bind_eq (p : Prog σ α) (f : α → Prog σ β) : p >>= f = p.bind f := rfl

@[simp] theorem pure_eq (a : α) : (pure a : Prog σ α) = .ret a := rfl

def settle : Except σ.Exc α → Prog σ α
  | .ok a => .ret a
  | .error e => .raise e

def call (op : σ.Op) : Prog σ (σ.Reply op) := .await op settle

def observe : Prog σ σ.State := .get .ret

def update (f : σ.State → σ.State) : Prog σ Unit := .get (fun s => .set (f s) (.ret ()))

/-- Run to the end and hand back the exception as a value. -/
def attempt : Prog σ α → Prog σ (Except σ.Exc α)
  | .ret a => .ret (.ok a)
  | .raise e => .ret (.error e)
  | .halt => .halt
  | .get k => .get (fun s => (k s).attempt)
  | .set s next => .set s next.attempt
  | .await op k => .await op (fun r => (k r).attempt)

def recover (handler : σ.Exc → Prog σ α) : Except σ.Exc α → Prog σ α
  | .ok a => .ret a
  | .error e => handler e

def tryCatch (p : Prog σ α) (handler : σ.Exc → Prog σ α) : Prog σ α :=
  p.attempt.bind (recover handler)

/-- `try .. finally` with a cleanup that does not await. -/
def tryFinally (p : Prog σ α) (cleanup : σ.State → σ.State) : Prog σ α :=
  p.attempt.bind (fun r => (update cleanup).bind (fun _ => settle r))

/-- `try .. finally` with a cleanup that may await; what the cleanup raises wins. -/
def finallyDo (p : Prog σ α) (cleanup : Prog σ Unit) : Prog σ α :=
  p.attempt.bind (fun r => cleanup.bind (fun _ => settle r))

def forEach (body : β → Prog σ Unit) : List β → Prog σ Unit
  | [] => .ret ()
  | x :: rest => (body x).bind (fun _ => forEach body rest)

end Prog

/-- One await: the state it was issued in, and the reply with the state the
program resumed in. A pending operation has no reply yet. -/
structure Event (σ : Interface) where
  before : σ.State
  op : σ.Op
  reply : Option (Except σ.Exc (σ.Reply op) × σ.State)

def Event.raised {σ : Interface} (e : Event σ) : Bool :=
  match e.reply with
  | some (.error _, _) => true
  | _ => false

inductive Outcome (σ : Interface) (α : Type)
  | returned (a : α) (s : σ.State)
  | raised (e : σ.Exc) (s : σ.State)
  | suspended
  | outOfFuel

/-- Which replies and state changes an await may end with. -/
abbrev Environment (σ : Interface) :=
  σ.State → (op : σ.Op) → Except σ.Exc (σ.Reply op) → σ.State → Prop

def anything : Environment σ := fun _ _ _ _ => True

open Prog

inductive Runs (env : Environment σ) :
    Prog σ α → σ.State → List (Event σ) → Outcome σ α → Prop
  | ret (a : α) (s : σ.State) : Runs env (.ret a) s [] (.returned a s)
  | raise (e : σ.Exc) (s : σ.State) : Runs env (.raise e) s [] (.raised e s)
  | halt (s : σ.State) : Runs env .halt s [] .outOfFuel
  | get {k : σ.State → Prog σ α} {s : σ.State} {t : List (Event σ)} {o : Outcome σ α} :
      Runs env (k s) s t o → Runs env (.get k) s t o
  | set {s s' : σ.State} {next : Prog σ α} {t : List (Event σ)} {o : Outcome σ α} :
      Runs env next s' t o → Runs env (.set s' next) s t o
  | suspend {op : σ.Op} (k : Except σ.Exc (σ.Reply op) → Prog σ α) (s : σ.State) :
      Runs env (.await op k) s [⟨s, op, none⟩] .suspended
  | resume {op : σ.Op} {k : Except σ.Exc (σ.Reply op) → Prog σ α} {s s' : σ.State}
      {r : Except σ.Exc (σ.Reply op)} {t : List (Event σ)} {o : Outcome σ α} :
      env s op r s' → Runs env (k r) s' t o →
      Runs env (.await op k) s (⟨s, op, some (r, s')⟩ :: t) o

/-- Every run of the program from this state satisfies the predicate. -/
def Ensures (env : Environment σ) (p : Prog σ α) (s : σ.State)
    (Φ : List (Event σ) → Outcome σ α → Prop) : Prop :=
  ∀ t o, Runs env p s t o → Φ t o

/-- A predicate on the runs of a first part: what follows a return is left to
`k`, every other end is already an end of the whole. -/
def after (k : α → σ.State → List (Event σ) → Prop)
    (Φ : List (Event σ) → Outcome σ β → Prop) : List (Event σ) → Outcome σ α → Prop
  | t, .returned a s => k a s t
  | t, .raised e s => Φ t (.raised e s)
  | t, .suspended => Φ t .suspended
  | t, .outOfFuel => Φ t .outOfFuel

section Rules

variable {env : Environment σ} {s : σ.State}

theorem Ensures.mono {p : Prog σ α} {Φ Ψ : List (Event σ) → Outcome σ α → Prop}
    (h : Ensures env p s Φ) (himp : ∀ t o, Φ t o → Ψ t o) : Ensures env p s Ψ :=
  fun t o hrun => himp t o (h t o hrun)

theorem Ensures.and {p : Prog σ α} {Φ Ψ : List (Event σ) → Outcome σ α → Prop}
    (h : Ensures env p s Φ) (h' : Ensures env p s Ψ) :
    Ensures env p s (fun t o => Φ t o ∧ Ψ t o) :=
  fun t o hrun => ⟨h t o hrun, h' t o hrun⟩

/-- A run whose steps an environment admits is a run of that environment. -/
theorem Runs.restrict {env' : Environment σ} {p : Prog σ α} {t : List (Event σ)}
    {o : Outcome σ α} (h : Runs env p s t o)
    (hsteps : ∀ e ∈ t, ∀ r s', e.reply = some (r, s') → env' e.before e.op r s') :
    Runs env' p s t o := by
  induction h with
  | ret a s => exact .ret a s
  | raise e s => exact .raise e s
  | halt s => exact .halt s
  | get _ ih => exact .get (ih hsteps)
  | set _ ih => exact .set (ih hsteps)
  | suspend k s => exact .suspend k s
  | resume _ _ ih =>
    exact .resume (hsteps _ (List.mem_cons_self ..) _ _ rfl)
      (ih fun e he => hsteps e (List.mem_cons_of_mem _ he))

@[simp] theorem ensures_ret {a : α} {Φ : List (Event σ) → Outcome σ α → Prop} :
    Ensures env (.ret a) s Φ ↔ Φ [] (.returned a s) := by
  constructor
  · intro h
    exact h _ _ (.ret a s)
  · intro h t o hrun
    cases hrun
    exact h

@[simp] theorem ensures_raise {e : σ.Exc} {Φ : List (Event σ) → Outcome σ α → Prop} :
    Ensures env (.raise e) s Φ ↔ Φ [] (.raised e s) := by
  constructor
  · intro h
    exact h _ _ (.raise e s)
  · intro h t o hrun
    cases hrun
    exact h

@[simp] theorem ensures_halt {Φ : List (Event σ) → Outcome σ α → Prop} :
    Ensures env .halt s Φ ↔ Φ [] .outOfFuel := by
  constructor
  · intro h
    exact h _ _ (.halt s)
  · intro h t o hrun
    cases hrun
    exact h

@[simp] theorem ensures_get {k : σ.State → Prog σ α}
    {Φ : List (Event σ) → Outcome σ α → Prop} :
    Ensures env (.get k) s Φ ↔ Ensures env (k s) s Φ := by
  constructor
  · intro h t o hrun
    exact h t o (.get hrun)
  · intro h t o hrun
    cases hrun with
    | get hrun => exact h t o hrun

@[simp] theorem ensures_set {s' : σ.State} {next : Prog σ α}
    {Φ : List (Event σ) → Outcome σ α → Prop} :
    Ensures env (.set s' next) s Φ ↔ Ensures env next s' Φ := by
  constructor
  · intro h t o hrun
    exact h t o (.set hrun)
  · intro h t o hrun
    cases hrun with
    | set hrun => exact h t o hrun

theorem ensures_await {op : σ.Op} {k : Except σ.Exc (σ.Reply op) → Prog σ α}
    {Φ : List (Event σ) → Outcome σ α → Prop} :
    Ensures env (.await op k) s Φ ↔
      Φ [⟨s, op, none⟩] .suspended ∧
      ∀ r s', env s op r s' →
        Ensures env (k r) s' (fun t o => Φ (⟨s, op, some (r, s')⟩ :: t) o) := by
  constructor
  · intro h
    exact ⟨h _ _ (.suspend k s), fun r s' henv t o hrun => h _ _ (.resume henv hrun)⟩
  · rintro ⟨hpending, hreply⟩ t o hrun
    cases hrun with
    | suspend => exact hpending
    | resume henv hrun => exact hreply _ _ henv _ _ hrun

/-- Sequencing: the second part is verified in the state the first one left. -/
theorem ensures_bind {p : Prog σ α} {f : α → Prog σ β}
    {Φ : List (Event σ) → Outcome σ β → Prop} :
    Ensures env (p.bind f) s Φ ↔
      Ensures env p s
        (after (fun a s' t => Ensures env (f a) s' (fun t' o => Φ (t ++ t') o)) Φ) := by
  induction p generalizing s Φ with
  | ret a => simp [Prog.bind, after]
  | raise e => simp [Prog.bind, after]
  | halt => simp [Prog.bind, after]
  | get k ih => simp only [Prog.bind, ensures_get, ih]
  | set s' next ih => simp only [Prog.bind, ensures_set, ih]
  | await op k ih =>
    simp only [Prog.bind, ensures_await, ih, after]
    refine and_congr_right (fun _ => forall_congr' fun r => forall_congr' fun s' =>
      imp_congr_right fun _ => ?_)
    have hafter : (after (fun a s'' t => Ensures env (f a) s''
          (fun t' o => Φ (⟨s, op, some (r, s')⟩ :: (t ++ t')) o))
          (fun t o => Φ (⟨s, op, some (r, s')⟩ :: t) o)) =
        fun t o => after (fun a s'' t => Ensures env (f a) s''
          (fun t' o => Φ (t ++ t') o)) Φ (⟨s, op, some (r, s')⟩ :: t) o := by
      funext t o
      cases o <;> rfl
    rw [hafter]
    rfl

theorem ensures_attempt {p : Prog σ α}
    {Φ : List (Event σ) → Outcome σ (Except σ.Exc α) → Prop} :
    Ensures env p.attempt s Φ ↔
      Ensures env p s (fun t o => match o with
        | .returned a s' => Φ t (.returned (.ok a) s')
        | .raised e s' => Φ t (.returned (.error e) s')
        | .suspended => Φ t .suspended
        | .outOfFuel => Φ t .outOfFuel) := by
  induction p generalizing s Φ with
  | ret a => simp [Prog.attempt]
  | raise e => simp [Prog.attempt]
  | halt => simp [Prog.attempt]
  | get k ih => simp only [Prog.attempt, ensures_get, ih]
  | set s' next ih => simp only [Prog.attempt, ensures_set, ih]
  | await op k ih => simp only [Prog.attempt, ensures_await, ih]

/-- A handler is verified in the state the exception was raised in. -/
theorem ensures_tryCatch {p : Prog σ α} {handler : σ.Exc → Prog σ α}
    {Φ : List (Event σ) → Outcome σ α → Prop} :
    Ensures env (p.tryCatch handler) s Φ ↔
      Ensures env p s (fun t o => match o with
        | .returned a s' => Φ t (.returned a s')
        | .raised e s' => Ensures env (handler e) s' (fun t' o' => Φ (t ++ t') o')
        | .suspended => Φ t .suspended
        | .outOfFuel => Φ t .outOfFuel) := by
  rw [Prog.tryCatch, ensures_bind, ensures_attempt]
  apply Iff.of_eq
  congr 1
  funext t o
  cases o <;> simp [after, recover]

theorem ensures_tryFinally {p : Prog σ α} {cleanup : σ.State → σ.State}
    {Φ : List (Event σ) → Outcome σ α → Prop} :
    Ensures env (p.tryFinally cleanup) s Φ ↔
      Ensures env p s (fun t o => match o with
        | .returned a s' => Φ t (.returned a (cleanup s'))
        | .raised e s' => Φ t (.raised e (cleanup s'))
        | .suspended => Φ t .suspended
        | .outOfFuel => Φ t .outOfFuel) := by
  rw [Prog.tryFinally, ensures_bind, ensures_attempt]
  apply Iff.of_eq
  congr 1
  funext t o
  cases o <;> simp [after, update, settle, Prog.bind]

@[simp] theorem ensures_settle_ok {a : α} {Φ : List (Event σ) → Outcome σ α → Prop} :
    Ensures env (settle (.ok a)) s Φ ↔ Φ [] (.returned a s) := ensures_ret

@[simp] theorem ensures_settle_error {e : σ.Exc}
    {Φ : List (Event σ) → Outcome σ α → Prop} :
    Ensures env (settle (.error e)) s Φ ↔ Φ [] (.raised e s) := ensures_raise

theorem ensures_call {op : σ.Op} {Φ : List (Event σ) → Outcome σ (σ.Reply op) → Prop} :
    Ensures env (call op) s Φ ↔
      Φ [⟨s, op, none⟩] .suspended ∧
      (∀ a s', env s op (.ok a) s' →
        Φ [⟨s, op, some (.ok a, s')⟩] (.returned a s')) ∧
      (∀ e s', env s op (.error e) s' →
        Φ [⟨s, op, some (.error e, s')⟩] (.raised e s')) := by
  rw [call, ensures_await]
  refine and_congr_right (fun _ => ⟨fun h => ⟨fun a s' henv => ?_, fun e s' henv => ?_⟩, ?_⟩)
  · simpa using h (.ok a) s' henv
  · simpa using h (.error e) s' henv
  · rintro ⟨hok, herror⟩ r s' henv
    cases r with
    | ok a => simpa using hok a s' henv
    | error e => simpa using herror e s' henv

@[simp] theorem ensures_observe {Φ : List (Event σ) → Outcome σ σ.State → Prop} :
    Ensures env observe s Φ ↔ Φ [] (.returned s s) := by
  simp [observe]

@[simp] theorem ensures_update {f : σ.State → σ.State}
    {Φ : List (Event σ) → Outcome σ Unit → Prop} :
    Ensures env (update f) s Φ ↔ Φ [] (.returned () (f s)) := by
  simp [update]

/-- Invariant rule for a loop over a list: `I` relates what is left of the list
to the events so far. -/
theorem Ensures.forEach {body : β → Prog σ Unit} {Φ : List (Event σ) → Outcome σ Unit → Prop}
    {I : List β → σ.State → List (Event σ) → Prop} {xs : List β}
    (hstart : I xs s [])
    (hstep : ∀ x rest s t, I (x :: rest) s t →
      Ensures env (body x) s (fun t' o =>
        after (fun _ s' t' => I rest s' (t ++ t')) (fun t' o => Φ (t ++ t') o) t' o))
    (hdone : ∀ s t, I [] s t → Φ t (.returned () s)) :
    Ensures env (Prog.forEach body xs) s Φ := by
  suffices key : ∀ xs s t, I xs s t →
      Ensures env (Prog.forEach body xs) s (fun t' o => Φ (t ++ t') o) by
    exact key xs s [] hstart
  intro xs
  induction xs with
  | nil =>
    intro s t hI
    simpa [Prog.forEach] using hdone s t hI
  | cons x rest ih =>
    intro s t hI
    rw [Prog.forEach, ensures_bind]
    refine (hstep x rest s t hI).mono ?_
    intro t' o ho
    cases o with
    | returned a s' =>
      have hrest := ih s' (t ++ t') ho
      simpa only [after, List.append_assoc] using hrest
    | raised e s' => exact ho
    | suspended => exact ho
    | outOfFuel => exact ho

end Rules

section Returns

/-- What holds of a run that returns, of the value and the events before it. -/
def Returns (Q : α → List (Event σ) → Prop) (t : List (Event σ)) (o : Outcome σ α) : Prop :=
  ∀ a s, o = .returned a s → Q a t

variable {env : Environment σ} {s : σ.State} {p : Prog σ α} {f : α → Prog σ β}

/-- A fact about the second part that more events before it do not change. -/
theorem returns_bind {Q : β → List (Event σ) → Prop}
    (hf : ∀ a s', Ensures env (f a) s' (Returns Q))
    (hQ : ∀ b t u, Q b u → Q b (t ++ u)) : Ensures env (p.bind f) s (Returns Q) := by
  rw [ensures_bind]
  intro t o _
  cases o with
  | returned a s' => exact (hf a s').mono fun u o hu b s'' hb => hQ b t u (hu b s'' hb)
  | raised e s' => exact fun b s' hb => by cases hb
  | suspended => exact fun b s' hb => by cases hb
  | outOfFuel => exact fun b s' hb => by cases hb

/-- A fact that holds as soon as the first part has returned. -/
theorem returns_bind_left {Q : Prop} (hp : Ensures env p s (Returns fun _ _ => Q)) :
    Ensures env (p.bind f) s (Returns fun _ _ => Q) := by
  rw [ensures_bind]
  refine hp.mono fun t o ho => ?_
  cases o with
  | returned a s' => exact fun _ _ _ _ _ _ => ho a s' rfl
  | raised e s' => exact fun b s' hb => by cases hb
  | suspended => exact fun b s' hb => by cases hb
  | outOfFuel => exact fun b s' hb => by cases hb

/-- A fact about every event, in both parts. -/
theorem returns_bind_all {P : Event σ → Prop}
    (hp : Ensures env p s (Returns fun _ t => ∀ e ∈ t, P e))
    (hf : ∀ a s', Ensures env (f a) s' (Returns fun _ t => ∀ e ∈ t, P e)) :
    Ensures env (p.bind f) s (Returns fun _ t => ∀ e ∈ t, P e) := by
  rw [ensures_bind]
  refine hp.mono fun t o ho => ?_
  cases o with
  | returned a s' =>
    refine (hf a s').mono fun u o hu b s'' hb e he => ?_
    exact (List.mem_append.mp he).elim (ho a s' rfl e) (hu b s'' hb e)
  | raised e s' => exact fun b s' hb => by cases hb
  | suspended => exact fun b s' hb => by cases hb
  | outOfFuel => exact fun b s' hb => by cases hb

theorem returns_ret {Q : α → List (Event σ) → Prop} {a : α} (h : Q a []) :
    Ensures env (.ret a) s (Returns Q) := by
  rw [ensures_ret]
  intro b s' hb
  cases hb
  exact h

theorem returns_raise {Q : α → List (Event σ) → Prop} {e : σ.Exc} :
    Ensures env (.raise e) s (Returns Q) := by
  rw [ensures_raise]
  exact fun b s' hb => by cases hb

theorem returns_settle {Q : α → List (Event σ) → Prop} {r : Except σ.Exc α}
    (h : ∀ a, r = .ok a → Q a []) : Ensures env (settle r) s (Returns Q) := by
  cases r with
  | ok a => exact returns_ret (h a rfl)
  | error e => exact returns_raise

theorem returns_call {op : σ.Op} {Q : σ.Reply op → List (Event σ) → Prop}
    (h : ∀ a s', Q a [⟨s, op, some (.ok a, s')⟩]) :
    Ensures env (call op) s (Returns Q) := by
  rw [ensures_call]
  refine ⟨fun b s' hb => (by cases hb), fun a s' _ b s'' hb => ?_, fun e s' _ b s'' hb => by cases hb⟩
  cases hb
  exact h a s'

end Returns

section Only

/-- Every await of the program is one of these operations, and no loop is cut. -/
def Prog.Only (P : σ.Op → Prop) : Prog σ α → Prop
  | .ret _ => True
  | .raise _ => True
  | .halt => False
  | .get k => ∀ s, (k s).Only P
  | .set _ next => next.Only P
  | .await op k => P op ∧ ∀ r, (k r).Only P

variable {P Q : σ.Op → Prop}

theorem Prog.Only.mono {p : Prog σ α} (hp : p.Only P) (h : ∀ op, P op → Q op) : p.Only Q := by
  induction p with
  | ret a => trivial
  | raise e => trivial
  | halt => exact hp.elim
  | get k ih => exact fun s => ih s (hp s)
  | set s next ih => exact ih hp
  | await op k ih => exact ⟨h op hp.1, fun r => ih r (hp.2 r)⟩

theorem Prog.Only.bind {p : Prog σ α} {f : α → Prog σ β} (hp : p.Only P)
    (hf : ∀ a, (f a).Only P) : (p.bind f).Only P := by
  induction p with
  | ret a => exact hf a
  | raise e => trivial
  | halt => exact hp.elim
  | get k ih => exact fun s => ih s (hp s)
  | set s next ih => exact ih hp
  | await op k ih => exact ⟨hp.1, fun r => ih r (hp.2 r)⟩

theorem Prog.Only.attempt {p : Prog σ α} (hp : p.Only P) : p.attempt.Only P := by
  induction p with
  | ret a => trivial
  | raise e => trivial
  | halt => exact hp.elim
  | get k ih => exact fun s => ih s (hp s)
  | set s next ih => exact ih hp
  | await op k ih => exact ⟨hp.1, fun r => ih r (hp.2 r)⟩

theorem Prog.Only.tryCatch {p : Prog σ α} {handler : σ.Exc → Prog σ α} (hp : p.Only P)
    (hhandler : ∀ e, (handler e).Only P) : (p.tryCatch handler).Only P := by
  refine Prog.Only.bind hp.attempt fun r => ?_
  cases r with
  | ok a => trivial
  | error e => exact hhandler e

theorem Prog.Only.settle (r : Except σ.Exc α) : (Prog.settle r : Prog σ α).Only P := by
  cases r <;> trivial

theorem Prog.Only.call {op : σ.Op} (hop : P op) : (Prog.call op).Only P :=
  ⟨hop, fun r => Prog.Only.settle r⟩

theorem Prog.Only.forEach {body : β → Prog σ Unit} {xs : List β}
    (hbody : ∀ x ∈ xs, (body x).Only P) : (Prog.forEach body xs).Only P := by
  induction xs with
  | nil => trivial
  | cons x rest ih =>
    exact Prog.Only.bind (hbody x (List.mem_cons_self ..))
      (fun _ => ih fun y hy => hbody y (List.mem_cons_of_mem _ hy))

theorem Prog.Only.ensures {env : Environment σ} {s : σ.State} {p : Prog σ α} (hp : p.Only P) :
    Ensures env p s (fun t _ => ∀ e ∈ t, P e.op) := by
  induction p generalizing s with
  | ret a => simp
  | raise e => simp
  | halt => exact hp.elim
  | get k ih => simpa using ih s (hp s)
  | set s' next ih => simpa using ih hp
  | await op k ih =>
    rw [ensures_await]
    refine ⟨by simpa using hp.1, fun r s' _ => (ih r (hp.2 r)).mono ?_⟩
    intro t o ht
    simpa using ⟨hp.1, ht⟩

theorem Prog.Only.not_outOfFuel {env : Environment σ} {s : σ.State} {p : Prog σ α}
    (hp : p.Only P) : Ensures env p s (fun _ o => o ≠ .outOfFuel) := by
  induction p generalizing s with
  | ret a => simp
  | raise e => simp
  | halt => exact hp.elim
  | get k ih => simpa using ih s (hp s)
  | set s' next ih => simpa using ih hp
  | await op k ih =>
    rw [ensures_await]
    exact ⟨by simp, fun r s' _ => ih r (hp.2 r)⟩

end Only

section Awaits

/-- The program awaits only these operations and leaves the state to them. -/
def Prog.Awaits (P : σ.Op → Prop) : Prog σ α → Prop
  | .ret _ => True
  | .raise _ => True
  | .halt => True
  | .get k => ∀ s, (k s).Awaits P
  | .set _ _ => False
  | .await op k => P op ∧ ∀ r, (k r).Awaits P

variable {P : σ.Op → Prop}

theorem Prog.Awaits.bind {p : Prog σ α} {f : α → Prog σ β} (hp : p.Awaits P)
    (hf : ∀ a, (f a).Awaits P) : (p.bind f).Awaits P := by
  induction p with
  | ret a => exact hf a
  | raise e => trivial
  | halt => trivial
  | get k ih => exact fun s => ih s (hp s)
  | set s next ih => exact hp.elim
  | await op k ih => exact ⟨hp.1, fun r => ih r (hp.2 r)⟩

theorem Prog.Awaits.attempt {p : Prog σ α} (hp : p.Awaits P) : p.attempt.Awaits P := by
  induction p with
  | ret a => trivial
  | raise e => trivial
  | halt => trivial
  | get k ih => exact fun s => ih s (hp s)
  | set s next ih => exact hp.elim
  | await op k ih => exact ⟨hp.1, fun r => ih r (hp.2 r)⟩

theorem Prog.Awaits.tryCatch {p : Prog σ α} {handler : σ.Exc → Prog σ α} (hp : p.Awaits P)
    (hhandler : ∀ e, (handler e).Awaits P) : (p.tryCatch handler).Awaits P := by
  refine Prog.Awaits.bind hp.attempt fun r => ?_
  cases r with
  | ok a => trivial
  | error e => exact hhandler e

theorem Prog.Awaits.settle (r : Except σ.Exc α) : (Prog.settle r : Prog σ α).Awaits P := by
  cases r <;> trivial

theorem Prog.Awaits.call {op : σ.Op} (hop : P op) : (Prog.call op).Awaits P :=
  ⟨hop, fun r => Prog.Awaits.settle r⟩

theorem Prog.Awaits.forEach {body : β → Prog σ Unit} {xs : List β}
    (hbody : ∀ x ∈ xs, (body x).Awaits P) : (Prog.forEach body xs).Awaits P := by
  induction xs with
  | nil => trivial
  | cons x rest ih =>
    exact Prog.Awaits.bind (hbody x (List.mem_cons_self ..))
      (fun _ => ih fun y hy => hbody y (List.mem_cons_of_mem _ hy))

/-- If the outcome is a value or an exception, its state has this property. -/
def Outcome.EndsIn (I : σ.State → Prop) : Outcome σ α → Prop
  | .returned _ s => I s
  | .raised _ s => I s
  | _ => True

/-- What no answer to its operations changes, the program leaves as it is. -/
theorem Prog.Awaits.keeps {env : Environment σ} {I : σ.State → Prop} {s : σ.State} {p : Prog σ α}
    (hp : p.Awaits P) (hs : I s) (hI : ∀ s op r s', P op → I s → env s op r s' → I s') :
    Ensures env p s (fun t o => (∀ e ∈ t, P e.op) ∧ o.EndsIn I) := by
  induction p generalizing s with
  | ret a => simpa [Outcome.EndsIn] using hs
  | raise e => simpa [Outcome.EndsIn] using hs
  | halt => simp [Outcome.EndsIn]
  | get k ih => exact ensures_get.mpr (ih s (hp s) hs)
  | set s' next ih => exact hp.elim
  | await op k ih =>
    rw [ensures_await]
    constructor
    · simpa [Outcome.EndsIn] using hp.1
    · intro r s' hstep
      refine (ih r (hp.2 r) (hI s op r s' hp.1 hs hstep)).mono fun t o ho => ?_
      exact ⟨List.forall_mem_cons.mpr ⟨hp.1, ho.1⟩, ho.2⟩

end Awaits

section Play

/-- An environment that answers from what has happened so far. -/
abbrev Reaction (σ : Interface) :=
  List (Event σ) → σ.State → (op : σ.Op) → Option (Except σ.Exc (σ.Reply op) × σ.State)

/-- The run of a program against one reaction; no answer suspends it. -/
def play (react : Reaction σ) :
    Prog σ α → σ.State → List (Event σ) → List (Event σ) × Outcome σ α
  | .ret a, s, _ => ([], .returned a s)
  | .raise e, s, _ => ([], .raised e s)
  | .halt, _, _ => ([], .outOfFuel)
  | .get k, s, past => play react (k s) s past
  | .set s' next, _, past => play react next s' past
  | .await op k, s, past =>
      match react past s op with
      | none => ([⟨s, op, none⟩], .suspended)
      | some (r, s') =>
          let rest := play react (k r) s' (past ++ [⟨s, op, some (r, s')⟩])
          (⟨s, op, some (r, s')⟩ :: rest.1, rest.2)

theorem runs_play (env : Environment σ) (react : Reaction σ)
    (hreact : ∀ past s op r s', react past s op = some (r, s') → env s op r s')
    (p : Prog σ α) (s : σ.State) (past : List (Event σ)) :
    Runs env p s (play react p s past).1 (play react p s past).2 := by
  induction p generalizing s past with
  | ret a => exact .ret a s
  | raise e => exact .raise e s
  | halt => exact .halt s
  | get k ih => exact .get (ih s s past)
  | set s' next ih => exact .set (ih s' past)
  | await op k ih =>
    simp only [play]
    cases hr : react past s op with
    | none => exact .suspend k s
    | some answer =>
      obtain ⟨r, s'⟩ := answer
      exact .resume (hreact past s op r s' hr) (ih r s' _)

end Play

end FailureResolver.Program
