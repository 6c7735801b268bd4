import Mathlib.Data.List.Basic

/-!
Errors of one kind in computations that may fail. A sequence raises such an
error exactly when one of its steps does and all steps before it succeed.
-/

namespace FailureResolver.EscapingErrors

variable {ε α β : Type} {kind : ε → Prop}

def Escapes (kind : ε → Prop) (x : Except ε α) : Prop := ∃ e, x = .error e ∧ kind e

theorem not_escapes_ok (a : α) : ¬ Escapes kind (.ok a : Except ε α) := by
  intro h
  obtain ⟨e, he, -⟩ := h
  cases he

theorem escapes_error {e : ε} : Escapes kind (.error e : Except ε α) ↔ kind e := by
  constructor
  · intro h
    obtain ⟨e', he, hkind⟩ := h
    cases he
    exact hkind
  · intro h
    exact ⟨e, rfl, h⟩

theorem escapes_bind {x : Except ε α} {f : α → Except ε β} :
    Escapes kind (x >>= f) ↔ Escapes kind x ∨ ∃ a, x = .ok a ∧ Escapes kind (f a) := by
  cases x with
  | ok a =>
    constructor
    · intro h
      exact .inr ⟨a, rfl, h⟩
    · intro h
      rcases h with h | ⟨b, hb, h⟩
      · exact absurd h (not_escapes_ok a)
      · cases hb
        exact h
  | error e =>
    constructor
    · intro h
      exact .inl (escapes_error.mpr (escapes_error.mp h))
    · intro h
      rcases h with h | ⟨b, hb, -⟩
      · exact escapes_error.mpr (escapes_error.mp h)
      · cases hb

/-- A first step without such errors only has to succeed. -/
theorem escapes_bind_of_not {x : Except ε α} {f : α → Except ε β} (hx : ¬ Escapes kind x) :
    Escapes kind (x >>= f) ↔ ∃ a, x = .ok a ∧ Escapes kind (f a) := by
  rw [escapes_bind]
  exact or_iff_right hx

theorem not_escapes_bind {x : Except ε α} {f : α → Except ε β} (hx : ¬ Escapes kind x)
    (hf : ∀ a, x = .ok a → ¬ Escapes kind (f a)) : ¬ Escapes kind (x >>= f) := by
  rw [escapes_bind_of_not hx]
  intro h
  obtain ⟨a, ha, h⟩ := h
  exact hf a ha h

theorem not_escapes_foldlM {f : β → α → Except ε β} {xs : List α} {acc : β}
    (h : ∀ acc x, ¬ Escapes kind (f acc x)) : ¬ Escapes kind (xs.foldlM f acc) := by
  induction xs generalizing acc with
  | nil => exact not_escapes_ok acc
  | cons x rest ih =>
    rw [List.foldlM_cons]
    exact not_escapes_bind (h acc x) fun next _ => ih

end FailureResolver.EscapingErrors
