import Mathlib.Data.List.Basic
import Mathlib.Data.Nat.Init
import Mathlib.Tactic.Basic

/-!
Runs of a transition system. A run lists its labels in order, so a law about
what has happened is a predicate on the labels and the state reached, and holds
of every run once one step preserves it.
-/

namespace FailureResolver.Transitions

variable {State Label : Type} {step : State → Label → State → Prop} {start s s' : State}
variable {t u : List Label} {l : Label}

inductive Run (step : State → Label → State → Prop) (start : State) :
    List Label → State → Prop
  | start : Run step start [] start
  | next {t : List Label} {s : State} {l : Label} {s' : State} :
      Run step start t s → step s l s' → Run step start (t ++ [l]) s'

theorem Run.invariant {I : List Label → State → Prop} (hrun : Run step start t s)
    (hstart : I [] start)
    (hstep : ∀ t s l s', Run step start t s → I t s → step s l s' → I (t ++ [l]) s') :
    I t s := by
  induction hrun with
  | start => exact hstart
  | next hbefore hlast ih => exact hstep _ _ _ _ hbefore ih hlast

/-- A property of the states alone. -/
theorem Run.preserves {I : State → Prop} (hrun : Run step start t s) (hstart : I start)
    (hstep : ∀ s l s', I s → step s l s' → I s') : I s :=
  hrun.invariant (I := fun _ s => I s) hstart fun _ s l s' _ hs hl => hstep s l s' hs hl

theorem Run.append (hfirst : Run step start t s) (hsecond : Run step s u s') :
    Run step start (t ++ u) s' := by
  induction hsecond with
  | start => simpa using hfirst
  | next _ hlast ih =>
    rw [← List.append_assoc]
    exact .next ih hlast

/-- Steps that are also steps of another system run there as well. -/
theorem Run.mono {step' : State → Label → State → Prop} (hrun : Run step start t s)
    (hsteps : ∀ s l s', step s l s' → step' s l s') : Run step' start t s := by
  induction hrun with
  | start => exact .start
  | next _ hlast ih => exact .next ih (hsteps _ _ _ hlast)

/-- A run that never ends. -/
structure Execution (step : State → Label → State → Prop) (start : State) where
  state : ℕ → State
  label : ℕ → Label
  starts : state 0 = start
  steps : ∀ n, step (state n) (label n) (state (n + 1))

def Execution.between (e : Execution step start) (m n : ℕ) : List Label :=
  (List.range' m (n - m)).map e.label

theorem Execution.run (e : Execution step start) {m n : ℕ} (h : m ≤ n) :
    Run step (e.state m) (e.between m n) (e.state n) := by
  induction n, h using Nat.le_induction with
  | base =>
    rw [between, Nat.sub_self]
    exact .start
  | succ n hle ih =>
    have hcount : n + 1 - m = (n - m) + 1 := by omega
    have hlast : m + 1 * (n - m) = n := by omega
    rw [between, hcount, List.range'_concat, List.map_append, hlast]
    exact .next ih (e.steps n)

theorem Execution.mem_between (e : Execution step start) {m n : ℕ} {l : Label}
    (h : l ∈ e.between m n) : ∃ k, m ≤ k ∧ k < n ∧ e.label k = l := by
  obtain ⟨k, hk, rfl⟩ := List.mem_map.mp h
  rw [List.mem_range'_1] at hk
  exact ⟨k, hk.1, by omega, rfl⟩

theorem Execution.label_mem_between (e : Execution step start) {m n k : ℕ} (hm : m ≤ k)
    (hn : k < n) : e.label k ∈ e.between m n := by
  apply List.mem_map_of_mem
  rw [List.mem_range'_1]
  omega

end FailureResolver.Transitions
