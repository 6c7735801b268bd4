import Mathlib.Data.List.Basic

/-!
Folds that check every element and append what it stands for. Each step succeeds
exactly when its element is valid and the longer list still satisfies a property
that prefixes inherit; then the whole fold succeeds exactly when all elements are
valid and the final list satisfies the property.
-/

namespace FailureResolver.CheckedFold

variable {ε α β : Type}

/-- The step appends the image of a valid element, or fails. -/
def Appends (step : List β → α → Except ε (List β)) (valid : α → Prop) (image : α → List β)
    (kept : List β → Prop) : Prop :=
  ∀ acc x out, kept acc →
    (step acc x = .ok out ↔ valid x ∧ kept (acc ++ image x) ∧ out = acc ++ image x)

variable {step : List β → α → Except ε (List β)} {valid : α → Prop} {image : α → List β}
  {kept : List β → Prop}

theorem foldlM_cons_eq_ok {acc out : List β} {x : α} {xs : List α} :
    (x :: xs).foldlM step acc = .ok out ↔
      ∃ next, step acc x = .ok next ∧ xs.foldlM step next = .ok out := by
  rw [List.foldlM_cons]
  cases step acc x with
  | error e => simp [bind, Except.bind]
  | ok next => simp [bind, Except.bind]

/-- A fold of appending steps is one appending step. -/
theorem Appends.foldlM (hstep : Appends step valid image kept)
    (hcut : ∀ acc rest, kept (acc ++ rest) → kept acc) :
    Appends (fun acc (xs : List α) => xs.foldlM step acc) (fun xs => ∀ x ∈ xs, valid x)
      (fun xs => xs.flatMap image) kept := by
  intro acc xs out hacc
  dsimp only
  induction xs generalizing acc with
  | nil =>
    rw [List.foldlM_nil]
    simp only [pure, Except.pure, Except.ok.injEq, List.flatMap_nil, List.append_nil]
    constructor
    · rintro rfl
      exact ⟨by simp, hacc, rfl⟩
    · rintro ⟨-, -, rfl⟩
      rfl
  | cons x xs ih =>
    rw [foldlM_cons_eq_ok, List.flatMap_cons, List.forall_mem_cons]
    constructor
    · rintro ⟨next, hnext, hrest⟩
      obtain ⟨hx, hkept, rfl⟩ := (hstep acc x next hacc).mp hnext
      obtain ⟨hxs, hall, rfl⟩ := (ih (acc ++ image x) hkept).mp hrest
      rw [List.append_assoc] at hall
      exact ⟨⟨hx, hxs⟩, hall, by rw [List.append_assoc]⟩
    · rintro ⟨⟨hx, hxs⟩, hall, rfl⟩
      rw [← List.append_assoc] at hall
      have hkept : kept (acc ++ image x) := hcut _ _ hall
      refine ⟨acc ++ image x, (hstep acc x _ hacc).mpr ⟨hx, hkept, rfl⟩, ?_⟩
      exact (ih _ hkept).mpr ⟨hxs, hall, by rw [List.append_assoc]⟩

end FailureResolver.CheckedFold
