import FailureResolver.TaskPool

/-!
The invariant rule for a pool of tasks. Every task keeps to a discipline in a mode
of its own; a table says how the modes of all tasks, with what a monitor has recorded
of them, fit the shared state and the labels of the run. If single actions, answers,
starts and steps of the outside keep the table, every run does. Nothing here depends
on what the operations are.
-/

namespace FailureResolver.TaskTable

open Program TaskPool Transitions

variable {σ : Interface} {α G M : Type}

/-- What has to be checked of a table, one step at a time. The requests and the
postcondition of the discipline say nothing of the state, so that the steps of
other tasks leave them as they are. -/
structure Rules (D : Discipline σ G) (Q : Except σ.Exc α → G → Prop) (rest : G)
    (spawn : Prog σ α → M → Prop) (watch : M → (op : σ.Op) → Except σ.Exc (σ.Reply op) → M)
    (env : Environment σ) (outside : σ.State → σ.State → Prop)
    (T : List (Label σ) → (ℕ → G) → (ℕ → M) → σ.State → Prop) : Prop where
  steady : ∀ g s s' op, D.request g s op → D.request g s' op
  act : ∀ t mode record i g s g' s', T t (Function.update mode i g) record s →
    D.act g s g' s' → T t (Function.update mode i g') record s'
  start : ∀ t mode record i s p m, T t mode record s → mode i = rest → spawn p m →
    ∃ g, Obeys D (fun r g _ => Q r g) p g s ∧
      T (t ++ [.start i]) (Function.update mode i g) (Function.update record i m) s
  answer : ∀ t mode record i s op r s', T t mode record s → D.request (mode i) s op →
    env s op r s' → ∃ g', D.answer (mode i) op r g' ∧ D.rely g' s' ∧
      T (t ++ [.resume i op r]) (Function.update mode i g')
        (Function.update record i (watch (record i) op r)) s'
  outside : ∀ t mode record s s', T t mode record s → outside s s' →
    T (t ++ [.outside]) mode record s'

/-- Every task keeps to the discipline in its mode, and the table holds. -/
structure Governed (D : Discipline σ G) (Q : Except σ.Exc α → G → Prop) (rest : G)
    (T : List (Label σ) → (ℕ → G) → (ℕ → M) → σ.State → Prop) (t : List (Label σ))
    (P : Pool σ α M) (mode : ℕ → G) : Prop where
  obeys : ∀ i p, P.task i = some p →
    Settled p ∧ Obeys D (fun r g _ => Q r g) p (mode i) P.state
  unstarted : ∀ i, P.task i = none → mode i = rest
  table : T t mode P.record P.state

variable {D : Discipline σ G} {Q : Except σ.Exc α → G → Prop} {rest : G}
variable {spawn : Prog σ α → M → Prop} {env : Environment σ}
variable {outside : σ.State → σ.State → Prop}
variable {T : List (Label σ) → (ℕ → G) → (ℕ → M) → σ.State → Prop} {t : List (Label σ)}
variable {P P' : Pool σ α M} {mode : ℕ → G} {i : ℕ} {g : G} {s : σ.State} {p : Prog σ α} {m : M}
variable {watch : M → (op : σ.Op) → Except σ.Exc (σ.Reply op) → M} {l : Label σ}

theorem Governed.resettled (h : Governed D Q rest T t P mode)
    (hsteady : ∀ g s s' op, D.request g s op → D.request g s' op) (hp : P.task i = some p)
    (s : σ.State) : Settled p ∧ Obeys D (fun r g _ => Q r g) p (mode i) s := by
  obtain ⟨hsettled, hobeys⟩ := h.obeys i p hp
  refine ⟨hsettled, hobeys.elsewhere hsettled (fun op hop => ?_) fun r hends => hends⟩
  exact hsteady _ _ _ _ hop

/-- One task runs to its next await, the others stay where they are. The table is one
for the state the task runs from. -/
theorem Governed.run {T₀ : List (Label σ) → (ℕ → G) → (ℕ → M) → σ.State → Prop}
    {t' : List (Label σ)} (h : Governed D Q rest T₀ t P mode)
    (hrules : Rules D Q rest spawn watch env outside T)
    (hp : Obeys D (fun r g _ => Q r g) p g s)
    (htable : T t' (Function.update mode i g) (Function.update P.record i m) s) :
    ∃ mode', Governed D Q rest T t' (P.run i p m s) mode' := by
  obtain ⟨g', hacts, hobeys⟩ := hp.advance
  refine ⟨Function.update mode i g', fun j q hq => ?_, fun j hj => ?_, ?_⟩
  · by_cases hij : j = i
    · subst hij
      rw [run_task_self, Option.some.injEq] at hq
      subst hq
      rw [Function.update_self]
      exact ⟨advance_settled p s, hobeys⟩
    · rw [run_task_other hij] at hq
      rw [Function.update_of_ne hij]
      exact h.resettled hrules.steady hq _
  · by_cases hij : j = i
    · subst hij
      rw [run_task_self] at hj
      cases hj
    · rw [run_task_other hij] at hj
      rw [Function.update_of_ne hij]
      exact h.unstarted j hj
  · refine hacts.preserves (I := fun g s => T t' (Function.update mode i g)
      (Function.update P.record i m) s) htable ?_
    intro g s g' s' hbefore hact
    exact hrules.act t' mode _ i g s g' s' hbefore hact

theorem Governed.step (h : Governed D Q rest T t P mode)
    (hrules : Rules D Q rest spawn watch env outside T)
    (hstep : Step spawn watch env outside P l P') :
    ∃ mode', Governed D Q rest T (t ++ [l]) P' mode' := by
  cases hstep with
  | @start i p m htask hspawn =>
    obtain ⟨g, hobeys, htable⟩ :=
      hrules.start t mode P.record i P.state p m h.table (h.unstarted i htask) hspawn
    exact h.run hrules hobeys htable
  | @resume i op k r s' htask henv =>
    obtain ⟨-, hrequest, hanswered⟩ := h.obeys i _ htask
    obtain ⟨g', hanswer, hrely, htable⟩ :=
      hrules.answer t mode P.record i P.state op r s' h.table hrequest henv
    exact h.run hrules (hanswered r g' s' hanswer hrely) htable
  | @outside s' houtside =>
    exact ⟨mode, fun i p hp => h.resettled hrules.steady hp _, h.unstarted,
      hrules.outside t mode P.record P.state s' h.table houtside⟩

/-- The table holds in every pool that is reached. -/
theorem governed_run {u : List (Label σ)} (hrules : Rules D Q rest spawn watch env outside T)
    (hstart : ∃ mode, Governed D Q rest T u P mode)
    (hrun : Run (Step spawn watch env outside) P t P') :
    ∃ mode, Governed D Q rest T (u ++ t) P' mode := by
  refine hrun.invariant (I := fun t P' => ∃ mode, Governed D Q rest T (u ++ t) P' mode) ?_ ?_
  · rw [List.append_nil]
    exact hstart
  · intro t s l s' _ hbefore hstep
    obtain ⟨mode, hmode⟩ := hbefore
    rw [← List.append_assoc]
    exact hmode.step hrules hstep

/-- A pool in which no task was started. -/
theorem governed_initial (htable : T [] (fun _ => rest) (fun _ => m) s) :
    Governed D Q rest T [] (Pool.initial s m : Pool σ α M) fun _ => rest :=
  ⟨fun _ _ hp => (nomatch hp), fun _ _ => rfl, htable⟩

/-- A pool in which one task was started and no other. -/
theorem governed_started {m m' : M} (hrules : Rules D Q rest spawn watch env outside T)
    (hp : Obeys D (fun r g _ => Q r g) p g s)
    (htable : T [] (Function.update (fun _ => rest) i g) (Function.update (fun _ => m) i m') s) :
    ∃ mode, Governed D Q rest T [] ((Pool.initial s m : Pool σ α M).run i p m' s) mode := by
  have hinitial : Governed D Q rest (fun _ _ _ _ => True) [] (Pool.initial s m : Pool σ α M)
      fun _ => rest := governed_initial trivial
  exact hinitial.run hrules hp htable

/-- What a task that stands at an await may ask for in its mode. -/
theorem Governed.requests (h : Governed D Q rest T t P mode) {op : σ.Op}
    {k : Except σ.Exc (σ.Reply op) → Prog σ α} (htask : P.task i = some (.await op k)) :
    D.request (mode i) P.state op :=
  (h.obeys i _ htask).2.1

end FailureResolver.TaskTable
