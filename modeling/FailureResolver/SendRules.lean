import FailureResolver.Program
import FailureResolver.TraceLaws

/-!
Rules for programs that send the commands of a plan. A part of a program sends
its part of the plan: whatever it does it issues a prefix, when it returns it
has sent everything, every command was accepted and no await raised. Parts
compose in sequence.
-/

namespace FailureResolver.SendRules

open Program TraceLaws

variable {σ : Interface} {α β C R : Type}

structure Sends (sent : Event σ → Option C) (guard accepted : Event σ → Prop)
    (opens : Event σ → Option R) (plan : List C) (t : List (Event σ)) (o : Outcome σ α) :
    Prop where
  issues : Issues sent guard accepted plan t
  stops : StopsAfter sent (fun e => e.raised = true) t
  closed : ∀ e ∈ t, opens e = none
  completes : ∀ a s, o = .returned a s → Completes sent guard accepted plan t
  calm : ∀ a s, o = .returned a s → ∀ e ∈ t, e.raised = false

variable {sent : Event σ → Option C} {guard accepted : Event σ → Prop}
  {opens : Event σ → Option R} {plan rest : List C} {env : Environment σ} {s : σ.State}

theorem Sends.of_end {t : List (Event σ)} {o : Outcome σ α} {o' : Outcome σ β}
    (h : Sends sent guard accepted opens plan t o) (ho : ∀ b s, o' ≠ .returned b s) :
    Sends sent guard accepted opens (plan ++ rest) t o' where
  issues := h.issues.mono (List.prefix_append plan rest)
  stops := h.stops
  closed := h.closed
  completes := fun b s hb => absurd hb (ho b s)
  calm := fun b s hb => absurd hb (ho b s)

theorem Sends.append {t u : List (Event σ)} {a : α} {s' : σ.State} {o : Outcome σ β}
    (h : Sends sent guard accepted opens plan t (.returned a s'))
    (h' : Sends sent guard accepted opens rest u o) :
    Sends sent guard accepted opens (plan ++ rest) (t ++ u) o where
  issues := (h.completes a s' rfl).append_issues h'.issues
  stops := .append (fun e he => by simp [h.calm a s' rfl e he]) h'.stops
  closed := fun e he => (List.mem_append.mp he).elim (h.closed e) (h'.closed e)
  completes := fun b s hb => (h.completes a s' rfl).append (h'.completes b s hb)
  calm := fun b s hb e he => (List.mem_append.mp he).elim (h.calm a s' rfl e) (h'.calm b s hb e)

/-- Sequencing: the second part sends what is left of the plan. -/
theorem sends_bind {p : Prog σ α} {f : α → Prog σ β}
    (hp : Ensures env p s (Sends sent guard accepted opens plan))
    (hf : ∀ a s', Ensures env (f a) s' (Sends sent guard accepted opens rest)) :
    Ensures env (p.bind f) s (Sends sent guard accepted opens (plan ++ rest)) := by
  rw [ensures_bind]
  refine hp.mono fun t o h => ?_
  cases o with
  | returned a s' => exact (hf a s').mono fun u o h' => h.append h'
  | raised e s' => exact h.of_end (by simp)
  | suspended => exact h.of_end (by simp)
  | outOfFuel => exact h.of_end (by simp)

/-- A first part that sends nothing. -/
theorem sends_quiet_bind {p : Prog σ α} {f : α → Prog σ β}
    (hp : Ensures env p s (Sends sent guard accepted opens []))
    (hf : ∀ a s', Ensures env (f a) s' (Sends sent guard accepted opens plan)) :
    Ensures env (p.bind f) s (Sends sent guard accepted opens plan) := by
  simpa only [List.nil_append] using sends_bind hp hf

theorem sends_nil (o : Outcome σ α) : Sends sent guard accepted opens [] [] o where
  issues := Silent.issues (by simp [Silent])
  stops := Silent.stopsAfter (by simp [Silent])
  closed := by simp
  completes := fun _ _ _ => Silent.completes (by simp [Silent])
  calm := by simp

theorem sends_nil_of_end {o : Outcome σ α} (ho : ∀ a s, o ≠ .returned a s) :
    Sends sent guard accepted opens plan [] o := by
  have hend : Sends sent guard accepted opens ([] ++ plan) [] o := (sends_nil o).of_end ho
  simpa only [List.nil_append] using hend

theorem sends_ret (a : α) : Ensures env (.ret a) s (Sends sent guard accepted opens []) := by
  rw [ensures_ret]
  exact sends_nil _

theorem sends_raise (e : σ.Exc) :
    Ensures env (.raise e : Prog σ α) s (Sends sent guard accepted opens plan) := by
  rw [ensures_raise]
  exact sends_nil_of_end (by simp)

theorem sends_settle (r : Except σ.Exc α) :
    Ensures env (Prog.settle r) s (Sends sent guard accepted opens []) := by
  cases r with
  | ok a => exact sends_ret a
  | error e => exact sends_raise e

/-- An await that sends a command under its guard. A reply that the program goes
on with has to be an acceptance. -/
theorem sends_command {op : σ.Op} {c : C} {check : σ.Reply op → Prog σ α}
    (hsent : ∀ s reply, sent ⟨s, op, reply⟩ = some c)
    (hopens : ∀ s reply, opens ⟨s, op, reply⟩ = none)
    (hguard : ∀ reply, guard ⟨s, op, reply⟩)
    (hcheck : ∀ a s' s'', Ensures env (check a) s' (fun t o =>
      t = [] ∧ ∀ b s''', o = .returned b s''' → accepted ⟨s, op, some (.ok a, s'')⟩)) :
    Ensures env ((Prog.call op).bind check) s (Sends sent guard accepted opens [c]) := by
  have hlast : ∀ reply (o : Outcome σ α), (∀ b s', o ≠ .returned b s') →
      Sends sent guard accepted opens [c] [⟨s, op, reply⟩] o := by
    intro reply o ho
    exact {
      issues := issues_singleton (hsent s reply) (hguard reply)
      stops := stopsAfter_singleton _
      closed := by simp [hopens]
      completes := fun b s' hb => absurd hb (ho b s')
      calm := fun b s' hb => absurd hb (ho b s') }
  rw [ensures_bind, ensures_call]
  refine ⟨hlast _ _ (by simp), fun a s' _ => ?_, fun e s' _ => hlast _ _ (by simp)⟩
  refine (hcheck a s' s').mono fun t o h => ?_
  obtain ⟨rfl, haccepted⟩ := h
  rw [List.append_nil]
  refine { hlast (some (.ok a, s')) .outOfFuel (by simp) with completes := ?_, calm := ?_ }
  · intro b s'' hb
    exact completes_singleton (hsent s _) (hguard _) (haccepted b s'' hb)
  · simp [Event.raised]

/-- An await that sends nothing. -/
theorem sends_quiet {op : σ.Op} (hsent : ∀ s reply, sent ⟨s, op, reply⟩ = none)
    (hopens : ∀ s reply, opens ⟨s, op, reply⟩ = none) :
    Ensures env (Prog.call op) s (Sends sent guard accepted opens []) := by
  have hsilent : ∀ reply, Silent sent [⟨s, op, reply⟩] := by
    intro reply e he
    rw [List.mem_singleton.mp he]
    exact hsent s reply
  have hsends : ∀ reply (o : Outcome σ (σ.Reply op)),
      (∀ b s', o = .returned b s' → (⟨s, op, reply⟩ : Event σ).raised = false) →
      Sends sent guard accepted opens [] [⟨s, op, reply⟩] o := by
    intro reply o ho
    exact {
      issues := (hsilent reply).issues
      stops := (hsilent reply).stopsAfter
      closed := by simp [hopens]
      completes := fun _ _ _ => (hsilent reply).completes
      calm := by simpa using ho }
  rw [ensures_call]
  refine ⟨hsends _ _ (by simp), fun a s' _ => hsends _ _ ?_, fun e s' _ => hsends _ _ (by simp)⟩
  simp [Event.raised]

/-- A loop over the plan, one command for each item. -/
theorem sends_forEach {body : β → Prog σ Unit} {command : β → C} {xs : List β}
    (hbody : ∀ x ∈ xs, ∀ s', Ensures env (body x) s'
      (Sends sent guard accepted opens [command x])) :
    Ensures env (Prog.forEach body xs) s (Sends sent guard accepted opens (xs.map command)) := by
  induction xs generalizing s with
  | nil => exact sends_ret ()
  | cons x xs ih =>
    have hx := hbody x (List.mem_cons_self ..) s
    have hxs := fun s' => ih (s := s') fun y hy => hbody y (List.mem_cons_of_mem _ hy)
    exact sends_bind hx fun _ s' => hxs s'

end FailureResolver.SendRules
