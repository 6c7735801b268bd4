import Mathlib.Data.List.Sort

/-!
The first elements of a collection in the order of a key. Distinct elements have
distinct keys, so the ranking does not depend on the order of the collection, a
longer ranking extends a shorter one, and two elements keep their order whatever
else is ranked with them.
-/

namespace FailureResolver.CanonicalRanking

variable {α κ : Type} [LinearOrder κ] {key : α → κ}
variable {xs ys ranked ranked' sorted : List α} {k : ℕ}

/-- The ranking of the first `k` elements: in strict order, with none left out that
stands before one of them. -/
structure Ranks (key : α → κ) (xs : List α) (k : ℕ) (ranked : List α) : Prop where
  sorted : ranked.Pairwise fun x y => key x < key y
  members : ∀ x ∈ ranked, x ∈ xs
  length : ranked.length = min k xs.length
  complete : ∀ x ∈ xs, x ∉ ranked → ∀ y ∈ ranked, key y < key x

theorem nodup_of_sorted (h : sorted.Pairwise fun x y => key x < key y) : sorted.Nodup := by
  refine h.imp ?_
  intro x y hlt heq
  rw [heq] at hlt
  exact lt_irrefl _ hlt

/-- Elements of a sorted list with distinct keys are in strict order. -/
theorem strict_of_sorted (h : sorted.Pairwise fun x y => key x ≤ key y)
    (hkeys : (sorted.map key).Nodup) : sorted.Pairwise fun x y => key x < key y := by
  unfold List.Nodup at hkeys
  rw [List.pairwise_map] at hkeys
  exact h.imp₂ (fun x y hle hne => lt_of_le_of_ne hle hne) hkeys

theorem ranks_take (hsorted : sorted.Pairwise fun x y => key x < key y) (hperm : sorted.Perm xs) :
    Ranks key xs k (sorted.take k) := by
  refine ⟨hsorted.sublist (List.take_sublist _ _), ?_, ?_, ?_⟩
  · intro x hx
    exact hperm.mem_iff.mp (List.mem_of_mem_take hx)
  · rw [List.length_take, hperm.length_eq]
  · intro x hx hout y hy
    have hmem := hperm.mem_iff.mpr hx
    have hsplit := List.take_append_drop k sorted
    rw [← hsplit, List.mem_append] at hmem
    rw [← hsplit, List.pairwise_append] at hsorted
    exact hsorted.2.2 y hy x (hmem.resolve_left hout)

/-- What one ranking has and the other lacks would stand before itself. -/
theorem Ranks.subset (h : Ranks key xs k ranked) (h' : Ranks key ys k ranked')
    (hperm : xs.Perm ys) : ranked ⊆ ranked' := by
  intro x hx
  by_contra hout
  have hlength : ranked'.length = ranked.length := by
    rw [h.length, h'.length, hperm.length_eq]
  have hother : ∃ y ∈ ranked', y ∉ ranked := by
    by_contra hall
    have hsubset : ranked' ⊆ ranked := by
      intro y hy
      by_contra hy'
      exact hall ⟨y, hy, hy'⟩
    have hsame := List.subperm_of_subset (nodup_of_sorted h'.sorted) hsubset
    have hequal := hsame.perm_of_length_le (le_of_eq hlength.symm)
    exact hout (hequal.mem_iff.mpr hx)
  obtain ⟨y, hy, hy'⟩ := hother
  have hbefore := h.complete y (hperm.mem_iff.mpr (h'.members y hy)) hy' x hx
  have hafter := h'.complete x (hperm.mem_iff.mp (h.members x hx)) hout y hy
  exact lt_asymm hbefore hafter

/-- The ranking depends on what is ranked, not on the order it is supplied in. -/
theorem Ranks.unique (h : Ranks key xs k ranked) (h' : Ranks key ys k ranked')
    (hperm : xs.Perm ys) : ranked = ranked' := by
  have hsame : ranked.Perm ranked' :=
    (List.perm_ext_iff_of_nodup (nodup_of_sorted h.sorted) (nodup_of_sorted h'.sorted)).mpr
      fun x => ⟨fun hx => h.subset h' hperm hx, fun hx => h'.subset h hperm.symm hx⟩
  refine hsame.eq_of_pairwise ?_ h.sorted h'.sorted
  intro x y _ _ hxy hyx
  exact absurd hxy (lt_asymm hyx)

theorem Ranks.take (h : Ranks key xs k ranked) (j : ℕ) :
    Ranks key xs (min j k) (ranked.take j) := by
  refine ⟨h.sorted.sublist (List.take_sublist _ _), ?_, ?_, ?_⟩
  · intro x hx
    exact h.members x (List.mem_of_mem_take hx)
  · rw [List.length_take, h.length, min_assoc]
  · intro x hx hout y hy
    by_cases hmem : x ∈ ranked
    · have hsorted := h.sorted
      have hsplit := List.take_append_drop j ranked
      rw [← hsplit, List.mem_append] at hmem
      rw [← hsplit, List.pairwise_append] at hsorted
      exact hsorted.2.2 y hy x (hmem.resolve_left hout)
    · exact h.complete x hx hmem y (List.mem_of_mem_take hy)

/-- A longer ranking starts with the shorter one. -/
theorem Ranks.isPrefix (h : Ranks key xs k ranked) (h' : Ranks key xs (k + 1) ranked') :
    ranked <+: ranked' := by
  have hcut := h'.take k
  rw [Nat.min_eq_left (Nat.le_succ k)] at hcut
  rw [h.unique hcut (List.Perm.refl xs)]
  exact List.take_prefix _ _

/-- Two ranked elements stand in the order of their keys. -/
theorem pair_sublist_iff (hsorted : ranked.Pairwise fun x y => key x < key y) {x y : α}
    (hx : x ∈ ranked) (hy : y ∈ ranked) : [x, y].Sublist ranked ↔ key x < key y := by
  constructor
  · intro h
    have hpair := hsorted.sublist h
    rw [List.pairwise_cons] at hpair
    exact hpair.1 y (List.mem_singleton_self y)
  · intro hlt
    obtain ⟨before, rest, rfl⟩ := List.append_of_mem hx
    rw [List.pairwise_append, List.pairwise_cons] at hsorted
    obtain ⟨-, ⟨-, -⟩, hbefore⟩ := hsorted
    have hrest : y ∈ rest := by
      rcases List.mem_append.mp hy with hfirst | hlater
      · exact absurd (hbefore y hfirst x (List.mem_cons_self ..)) (lt_asymm hlt)
      · rcases List.mem_cons.mp hlater with heq | hmem
        · exact absurd hlt (heq ▸ lt_irrefl _)
        · exact hmem
    have hpair : [x, y].Sublist (x :: rest) := (List.singleton_sublist.mpr hrest).cons_cons x
    exact hpair.trans (List.sublist_append_right _ _)

end FailureResolver.CanonicalRanking
