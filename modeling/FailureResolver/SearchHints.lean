import FailureResolver.PromptBudgets

/-!
The search of a browsing turn. The query comes from the model's answer and the hints
come from the failure row; the index checks both again with bounds of its own. The
bound on a hint is one the row never promised, and no handler stands around the call.
-/

namespace FailureResolver.SearchHints

open JsonLength JsonRoundTrip JsonText JsonValue MemoryAgent MemoryBrowsing PromptBudgets
open PyException PyText RetrievalBounds RetrievalIndex RowText

section Hints

variable {members : Fields} {normalized : List Hint}

/-- A hint that is skipped, or whose text is short enough. -/
def HintFits (value : Json) : Prop :=
  isBlankHint value = true ∨ printable value = true ∧ compactLength value ≤ maxHintChars

instance (value : Json) : Decidable (HintFits value) := by
  unfold HintFits
  infer_instance

theorem addHint_eq_ok {hint : String × Json} (hname : strip hint.1 ≠ "") :
    (∃ normalized', addHint normalized hint = .ok normalized') ↔ HintFits hint.2 := by
  unfold addHint HintFits dumps
  rw [if_neg hname]
  by_cases hblank : isBlankHint hint.2 = true
  · rw [if_pos hblank]
    exact ⟨fun _ => .inl hblank, fun _ => ⟨_, rfl⟩⟩
  · rw [if_neg hblank]
    by_cases hprintable : printable hint.2 = true
    · rw [if_pos (printable_sortKeys hprintable)]
      have hlength : (print compactStyle 0 hint.2.sortKeys).length = compactLength hint.2 :=
        compactLength_sortKeys hint.2
      dsimp only
      rw [hlength]
      by_cases hlong : maxHintChars < compactLength hint.2
      · rw [if_pos hlong]
        constructor
        · intro h
          obtain ⟨normalized', hnormalized⟩ := h
          cases hnormalized
        · intro h
          rcases h with h | ⟨-, hshort⟩
          · exact absurd h hblank
          · omega
      · rw [if_neg hlong]
        exact ⟨fun _ => .inr ⟨hprintable, by omega⟩, fun _ => ⟨_, rfl⟩⟩
    · rw [if_neg fun h => hprintable (printable_sortKeys_iff.mp h)]
      constructor
      · intro h
        obtain ⟨normalized', hnormalized⟩ := h
        cases hnormalized
      · intro h
        rcases h with h | ⟨h, -⟩
        · exact absurd h hblank
        · exact absurd h hprintable

theorem foldlM_addHint_eq_ok (hnames : ∀ hint ∈ members, strip hint.1 ≠ "") :
    (∃ normalized', members.foldlM addHint normalized = .ok normalized') ↔
      ∀ hint ∈ members, HintFits hint.2 := by
  induction members generalizing normalized with
  | nil => simp [pure, Except.pure]
  | cons hint rest ih =>
    obtain ⟨hname, hrest⟩ := List.forall_mem_cons.mp hnames
    rw [List.forall_mem_cons]
    constructor
    · intro h
      obtain ⟨normalized', hfold⟩ := h
      rw [List.foldlM_cons, bind_eq_ok] at hfold
      obtain ⟨next, hadd, hfold⟩ := hfold
      exact ⟨(addHint_eq_ok hname).mp ⟨next, hadd⟩, (ih hrest).mp ⟨normalized', hfold⟩⟩
    · intro h
      obtain ⟨hfits, hall⟩ := h
      obtain ⟨next, hadd⟩ : ∃ next, addHint normalized hint = .ok next :=
        (addHint_eq_ok hname).mpr hfits
      obtain ⟨normalized', hfold⟩ := (@ih next hrest).mpr hall
      refine ⟨normalized', ?_⟩
      rw [List.foldlM_cons, bind_eq_ok]
      exact ⟨next, hadd, hfold⟩

/-- Few named hints are accepted exactly if each of them fits. -/
theorem validatedHints_eq_ok (hcount : members.length ≤ maxSearchHints)
    (hnames : ∀ hint ∈ members, strip hint.1 ≠ "") :
    (∃ hints, validatedHints (some members) = .ok hints) ↔
      ∀ hint ∈ members, HintFits hint.2 := by
  unfold validatedHints
  dsimp only
  rw [if_neg (by omega), foldlM_addHint_eq_ok (by simpa [List.mem_insertionSort] using hnames)]
  simp only [List.mem_insertionSort]

end Hints

section Row

variable {values : Fields} {part : Json} {keys : List (String × String)}

theorem map_fst_fillValues (h : ∀ key ∈ keys, key.1 ∈ values.map Prod.fst) :
    (fillValues part keys values).map Prod.fst = values.map Prod.fst := by
  unfold fillValues
  split
  · next members =>
    induction keys generalizing values with
    | nil => rfl
    | cons key rest ih =>
      obtain ⟨hkey, hrest⟩ := List.forall_mem_cons.mp h
      have hset : (Fields.set values key.1 (orElse (Fields.get values key.1)
          (Fields.get members key.2))).map Prod.fst = values.map Prod.fst := by
        rw [keys_set, if_pos (has_eq_true_iff.mpr hkey)]
      rw [List.foldl_cons, ih (by rwa [hset]), hset]
  · rfl

/-- The hints of a failure are the retrieval fields and the failed command. -/
theorem map_fst_failureRetrievalValues (failure : Fields) :
    (failureRetrievalValues failure).map Prod.fst = retrievalFields ++ ["failed_command"] := by
  have hstart : (retrievalFields.map (fun field => (field, Fields.get failure field)) ++
      [("failed_command", orElse (Fields.get failure "failed_command")
        (Fields.get failure "action_command"))]).map Prod.fst =
      retrievalFields ++ ["failed_command"] := rfl
  unfold failureRetrievalValues
  dsimp only
  have hall : ∀ (part : Json) (keys : List (String × String)) (values : Fields),
      (∀ key ∈ keys, key.1 ∈ retrievalFields ++ ["failed_command"]) →
      values.map Prod.fst = retrievalFields ++ ["failed_command"] →
      (fillValues part keys values).map Prod.fst = retrievalFields ++ ["failed_command"] := by
    intro part keys values hkeys hvalues
    rw [map_fst_fillValues (by rwa [hvalues]), hvalues]
  apply hall _ _ _ (by decide)
  apply hall _ _ _ (by decide)
  apply hall _ _ _ (by decide)
  exact hall _ _ _ (by decide) hstart

def RowHintsFit (failure : Fields) : Prop :=
  ∀ hint ∈ failureRetrievalValues failure, HintFits hint.2

instance (failure : Fields) : Decidable (RowHintsFit failure) := by
  unfold RowHintsFit
  infer_instance

theorem validatedHints_row (failure : Fields) :
    (∃ hints, validatedHints (some (failureRetrievalValues failure)) = .ok hints) ↔
      RowHintsFit failure := by
  have hkeys := map_fst_failureRetrievalValues failure
  apply validatedHints_eq_ok
  · have hlength := congrArg List.length hkeys
    rw [List.length_map] at hlength
    rw [hlength]
    decide
  · intro hint hhint
    have hnames : ∀ name ∈ retrievalFields ++ ["failed_command"], strip name ≠ "" := by decide
    apply hnames
    rw [← hkeys]
    exact List.mem_map_of_mem hhint

end Row

section Search

theorem validatedQuery_action (action : MemorySearchAction) :
    (∃ query, validatedQuery action.query = .ok query) ↔ Char.ofNat 0 ∉ action.query.toList := by
  obtain ⟨⟨hne, htrimmed⟩, hlength⟩ := action.bounded
  have hstripped : stripChars action.query.toList = action.query.toList := by
    have htext := congrArg String.toList htrimmed
    unfold strip at htext
    rwa [String.toList_ofList] at htext
  have hempty : ¬ action.query.toList.isEmpty = true := by
    simpa using hne
  unfold validatedQuery
  dsimp only
  rw [hstripped, if_neg hempty, if_neg (by
    rw [String.length_toList]
    unfold maxSearchQueryLength at hlength
    unfold maxQueryChars
    omega)]
  split
  · next hnul => simp [retrievalError, hnul]
  · next hnul => simp [hnul]

/-- The call of a browsing turn returns exactly if the query has no null character and
every hint of the row fits; the documents have no part in it. -/
theorem search_returns_iff (index : MemoryRetrievalIndex) (failure : Fields)
    (action : MemorySearchAction) :
    (∃ results, index.search action.query (some (failureRetrievalValues failure))
      maxSearchResults = .ok results) ↔
      Char.ofNat 0 ∉ action.query.toList ∧ RowHintsFit failure := by
  rw [← validatedQuery_action, ← validatedHints_row]
  unfold MemoryRetrievalIndex.search
  constructor
  · intro h
    obtain ⟨results, hresults⟩ := h
    simp only [bind_eq_ok] at hresults
    obtain ⟨query, hquery, hints, hhints, -⟩ := hresults
    exact ⟨⟨query, hquery⟩, ⟨hints, hhints⟩⟩
  · intro h
    obtain ⟨⟨query, hquery⟩, ⟨hints, hhints⟩⟩ := h
    simp only [bind_eq_ok]
    exact ⟨_, query, hquery, hints, hhints, _,
      rejectBudget_eq_ok.mpr ⟨by decide, le_refl _, rfl⟩, rfl⟩

def longAreaRow : Fields := [("area_name", .str (longName 600))]

theorem longArea_hint : ¬ RowHintsFit longAreaRow := by
  intro h
  have hmem : ("area_name", Json.str (longName 600)) ∈ failureRetrievalValues longAreaRow :=
    List.mem_of_getElem? (by rfl : (failureRetrievalValues longAreaRow)[10]? = _)
  rcases h _ hmem with hblank | ⟨-, hshort⟩
  · rw [isBlankHint, decide_eq_true_eq] at hblank
    have hstripped := congrArg String.toList hblank
    unfold strip longName at hstripped
    rw [String.toList_ofList, String.toList_ofList, stripChars_of_ends] at hstripped
    · simp at hstripped
    · intro c hc
      rw [List.eq_of_mem_replicate (List.mem_of_head? hc)]
      decide
    · intro c hc
      rw [List.eq_of_mem_replicate (List.mem_of_getLast? hc)]
      decide
  · have hlength := length_longName 600
    rw [compactLength_str] at hshort
    unfold maxHintChars at hshort
    omega

def sampleAction : MemorySearchAction := ⟨"door", by decide⟩

/-- The name alone makes the search raise, whatever is indexed. -/
theorem longArea_raises : ∃ (failure : Fields) (action : MemorySearchAction),
    ∀ index : MemoryRetrievalIndex, ¬ ∃ results, index.search action.query
      (some (failureRetrievalValues failure)) maxSearchResults = .ok results := by
  refine ⟨longAreaRow, sampleAction, fun index => ?_⟩
  intro h
  obtain ⟨results, hresults⟩ := h
  unfold MemoryRetrievalIndex.search at hresults
  simp only [bind_eq_ok] at hresults
  obtain ⟨_, -, hints, hhints, -⟩ := hresults
  exact longArea_hint ((validatedHints_row longAreaRow).mp ⟨hints, hhints⟩)

end Search

end FailureResolver.SearchHints
