import FailureResolver.CanonicalRanking
import FailureResolver.RetrievalBounds
import Mathlib.Algebra.BigOperators.Group.List.Basic
import Mathlib.Data.Prod.Lex

/-!
Searches as rankings. The hit of a document is computed from the document, the query
and the hints, without the other documents; the results of a search are the first of
these hits, higher scores first and equal scores in the order of the ids.
-/

namespace FailureResolver.SearchRanking

open CanonicalRanking JsonValue MemoryMarkdown PyException RetrievalBounds RetrievalIndex

section Index

variable {documents documents' : List MemoryDocument} {maxDocuments maxChars : ℤ}

def byId (documents : List MemoryDocument) : List (String × MemoryDocument) :=
  documents.map fun document => (document.resolutionId, document)

def candidates (documents : List MemoryDocument) : List MemoryDocument :=
  documents.filter MemoryDocument.isExecutionCandidate

/-- What the index counts of a document; one that cannot be measured is no part of it. -/
def indexedChars (document : MemoryDocument) : ℕ :=
  match documentIndexChars document with
  | .ok chars => chars
  | .error _ => 0

/-- Documents with distinct ids, as many and as long as the budgets allow. -/
structure WithinBudgets (documents : List MemoryDocument) (maxDocuments maxChars : ℤ) : Prop where
  distinct : (documents.map MemoryDocument.resolutionId).Nodup
  documentBudget : 1 ≤ maxDocuments ∧ maxDocuments ≤ maxIndexDocuments
  charBudget : 1 ≤ maxChars ∧ maxChars ≤ maxIndexChars
  count : (documents.length : ℤ) ≤ maxDocuments
  measured : ∀ document ∈ candidates documents, ∃ chars, documentIndexChars document = .ok chars
  chars : (((candidates documents).map indexedChars).sum : ℤ) ≤ maxChars

theorem WithinBudgets.perm (h : WithinBudgets documents maxDocuments maxChars)
    (hperm : documents.Perm documents') : WithinBudgets documents' maxDocuments maxChars := by
  have hcandidates : (candidates documents).Perm (candidates documents') := hperm.filter _
  refine ⟨(hperm.map _).nodup_iff.mp h.distinct, h.documentBudget, h.charBudget, ?_, ?_, ?_⟩
  · rw [← hperm.length_eq]
    exact h.count
  · intro document hdocument
    exact h.measured document (hcandidates.mem_iff.mpr hdocument)
  · rw [← (hcandidates.map indexedChars).sum_eq]
    exact h.chars

/-- Measured candidates within the budget are all taken in. -/
theorem foldlM_addDocument_eq {intake : Intake}
    (hfresh : ∀ document ∈ documents,
      document.resolutionId ∉ intake.documents.map MemoryDocument.resolutionId)
    (hdistinct : (documents.map MemoryDocument.resolutionId).Nodup)
    (hmeasured : ∀ document ∈ candidates documents,
      ∃ chars, documentIndexChars document = .ok chars)
    (hchars : ((intake.indexedChars + ((candidates documents).map indexedChars).sum : ℕ) : ℤ) ≤
      maxChars) :
    ∃ intake', (byId documents).foldlM (RetrievalIndex.addDocument maxChars) intake = .ok intake' ∧
      intake'.documents = intake.documents ++ candidates documents := by
  induction documents generalizing intake with
  | nil => exact ⟨intake, rfl, (List.append_nil _).symm⟩
  | cons document rest ih =>
    obtain ⟨hnew, hrest⟩ := List.forall_mem_cons.mp hfresh
    rw [List.map_cons, List.nodup_cons] at hdistinct
    have hfold : (byId (document :: rest)).foldlM (RetrievalIndex.addDocument maxChars) intake =
        RetrievalIndex.addDocument maxChars intake (document.resolutionId, document) >>=
          fun next => (byId rest).foldlM (RetrievalIndex.addDocument maxChars) next := rfl
    rw [hfold]
    unfold RetrievalIndex.addDocument
    dsimp only
    rw [if_neg (by simp), dif_neg hnew]
    by_cases hcandidate : document.isExecutionCandidate = true
    · have hsplit : candidates (document :: rest) = document :: candidates rest :=
        List.filter_cons_of_pos hcandidate
      rw [hsplit] at hmeasured hchars ⊢
      obtain ⟨⟨chars, hsize⟩, hmeasured⟩ := List.forall_mem_cons.mp hmeasured
      have hcount : indexedChars document = chars := by
        unfold indexedChars
        rw [hsize]
      rw [List.map_cons, List.sum_cons, hcount] at hchars
      let next : Intake := ⟨intake.documents ++ [document], intake.indexedChars + chars,
        intake.nodup_concat hnew⟩
      have hnext : ∀ other ∈ rest,
          other.resolutionId ∉ next.documents.map MemoryDocument.resolutionId := by
        intro other hother hmem
        rw [List.map_append, List.mem_append] at hmem
        rcases hmem with hold | hsame
        · exact hrest other hother hold
        · rw [List.map_singleton, List.mem_singleton] at hsame
          exact hdistinct.1 (hsame ▸ List.mem_map_of_mem hother)
      obtain ⟨intake', hintake, hdocuments⟩ := @ih next hnext hdistinct.2 hmeasured (by
        show ((intake.indexedChars + chars + _ : ℕ) : ℤ) ≤ maxChars
        omega)
      refine ⟨intake', ?_, ?_⟩
      · rw [if_pos hcandidate, hsize]
        refine bind_eq_ok.mpr ⟨next, bind_eq_ok.mpr ⟨chars, rfl, ?_⟩, hintake⟩
        rw [if_neg (by omega)]
        rfl
      · rw [hdocuments]
        exact List.append_assoc ..
    · have hsplit : candidates (document :: rest) = candidates rest :=
        List.filter_cons_of_neg hcandidate
      rw [hsplit] at hmeasured hchars ⊢
      obtain ⟨intake', hintake, hdocuments⟩ := ih hrest hdistinct.2 hmeasured hchars
      refine ⟨intake', ?_, hdocuments⟩
      rw [if_neg hcandidate]
      exact hintake

/-- The index of documents within the budgets holds every candidate once. -/
theorem WithinBudgets.index [Characters] (h : WithinBudgets documents maxDocuments maxChars) :
    ∃ index, memoryRetrievalIndex (byId documents) maxDocuments maxChars = .ok index ∧
      index.entries.Perm ((candidates documents).map indexDocument) := by
  obtain ⟨intake, hintake, hdocuments⟩ := @foldlM_addDocument_eq documents maxChars Intake.empty
    (by simp [Intake.empty]) h.distinct h.measured (by simpa [Intake.empty] using h.chars)
  refine ⟨intake.index, ?_, ?_⟩
  · unfold memoryRetrievalIndex
    refine bind_eq_ok.mpr ⟨_, rejectBudget_eq_ok.mpr ⟨h.documentBudget.1, h.documentBudget.2, rfl⟩,
      bind_eq_ok.mpr ⟨_, rejectBudget_eq_ok.mpr ⟨h.charBudget.1, h.charBudget.2, rfl⟩, ?_⟩⟩
    have hcount := h.count
    rw [if_neg (by rw [byId, List.length_map]; omega)]
    exact bind_eq_ok.mpr ⟨intake, hintake, rfl⟩
  · rw [Intake.empty, List.nil_append] at hdocuments
    rw [← hdocuments]
    exact (List.perm_insertionSort idLe intake.documents).map indexDocument

end Index

section Hits

variable {query : Query} {hints : List Hint}

/-- Higher scores first, equal scores in the order of the ids. -/
def rankKey (hit : MemorySearchResult) : Lex (ℕᵒᵈ × String) :=
  toLex (OrderDual.toDual hit.score, hit.memoryId)

def hitOf [Characters] (query : Query) (hints : List Hint) (document : MemoryDocument) :
    MemorySearchResult :=
  (rankEntry query hints (indexDocument document)).searchResult query

def hits [Characters] (query : Query) (hints : List Hint) (documents : List MemoryDocument) :
    List MemorySearchResult :=
  (candidates documents).map (hitOf query hints)

def entryKey (ranked : Ranked) : Lex (ℕᵒᵈ × String) :=
  toLex (OrderDual.toDual ranked.total, ranked.entry.memoryId)

theorem rankLe_iff (ranked later : Ranked) :
    rankLe ranked later ↔ entryKey ranked ≤ entryKey later := by
  unfold entryKey rankLe
  rw [Prod.Lex.toLex_le_toLex, OrderDual.toDual_lt_toDual, OrderDual.toDual_inj]

instance : Std.Total rankLe := ⟨fun ranked later => by
  rw [rankLe_iff, rankLe_iff]
  exact le_total _ _⟩

instance : IsTrans Ranked rankLe := ⟨fun first second third hfirst hsecond => by
  rw [rankLe_iff] at hfirst hsecond ⊢
  exact le_trans hfirst hsecond⟩

theorem memoryId_hitOf [Characters] (document : MemoryDocument) :
    (hitOf query hints document).memoryId = document.resolutionId := rfl

/-- The results of a search are the first hits, whatever the order of the entries. -/
theorem search_ranks [Characters] {documents : List MemoryDocument} {index : MemoryRetrievalIndex}
    {text : String} {given : Option Fields} {limit : ℤ}
    (hdistinct : (documents.map MemoryDocument.resolutionId).Nodup)
    (hentries : index.entries.Perm ((candidates documents).map indexDocument))
    (hquery : validatedQuery text = .ok query) (hhints : validatedHints given = .ok hints)
    (hlimit : 1 ≤ limit ∧ limit ≤ maxSearchResults) :
    ∃ results, index.search text given limit = .ok results ∧
      Ranks rankKey (hits query hints documents) limit.toNat results := by
  let ranked := (index.entries.map (rankEntry query hints)).insertionSort rankLe
  have hperm : (ranked.map (Ranked.searchResult query)).Perm (hits query hints documents) := by
    have hsorted := (List.perm_insertionSort rankLe (index.entries.map (rankEntry query hints))).map
      (Ranked.searchResult query)
    have hmapped := (hentries.map (rankEntry query hints)).map (Ranked.searchResult query)
    have hhits : (((candidates documents).map indexDocument).map (rankEntry query hints)).map
        (Ranked.searchResult query) = hits query hints documents := by
      rw [List.map_map, List.map_map]
      rfl
    rw [hhits] at hmapped
    exact hsorted.trans hmapped
  have hkeys : ((ranked.map (Ranked.searchResult query)).map rankKey).Nodup := by
    have hids : ((hits query hints documents).map MemorySearchResult.memoryId).Nodup := by
      unfold hits candidates
      rw [List.map_map]
      exact hdistinct.sublist (List.filter_sublist.map _)
    refine List.Nodup.of_map (fun k => (ofLex k).2) ?_
    rw [List.map_map]
    exact ((hperm.map MemorySearchResult.memoryId).nodup_iff).mpr hids
  have hsorted : (ranked.map (Ranked.searchResult query)).Pairwise fun hit later =>
      rankKey hit < rankKey later := by
    apply strict_of_sorted _ hkeys
    rw [List.pairwise_map]
    exact (List.pairwise_insertionSort rankLe _).imp fun {_ _} => (rankLe_iff _ _).mp
  refine ⟨(ranked.take limit.toNat).map (Ranked.searchResult query), ?_, ?_⟩
  · unfold MemoryRetrievalIndex.search
    exact bind_eq_ok.mpr ⟨query, hquery, bind_eq_ok.mpr ⟨hints, hhints, bind_eq_ok.mpr ⟨limit,
      rejectBudget_eq_ok.mpr ⟨hlimit.1, hlimit.2, rfl⟩, rfl⟩⟩⟩
  · rw [List.map_take]
    exact ranks_take hsorted hperm

end Hits

section Canonical

variable {query : Query} {hints : List Hint} {documents : List MemoryDocument}
variable {text : String} {given : Option Fields} {maxDocuments maxChars limit : ℤ}

/-- The hit of a document within two searches, and the order of two such hits. -/
structure SameOrder (documents documents' : List MemoryDocument)
    (results results' : List MemorySearchResult) : Prop where
  score : ∀ document ∈ documents, document ∈ documents' → ∀ hit ∈ results, ∀ hit' ∈ results',
    hit.memoryId = document.resolutionId → hit'.memoryId = document.resolutionId → hit = hit'
  order : ∀ hit ∈ results, ∀ later ∈ results, hit ∈ results' → later ∈ results' →
    ([hit, later].Sublist results ↔ [hit, later].Sublist results')

/-- The hit of an id comes from the document of that id. -/
theorem hit_eq [Characters] {k : ℕ} {results : List MemorySearchResult} {document : MemoryDocument}
    {hit : MemorySearchResult} (hdistinct : (documents.map MemoryDocument.resolutionId).Nodup)
    (h : Ranks rankKey (hits query hints documents) k results) (hdocument : document ∈ documents)
    (hhit : hit ∈ results) (hid : hit.memoryId = document.resolutionId) :
    hit = hitOf query hints document := by
  obtain ⟨other, hother, rfl⟩ := List.mem_map.mp (h.members hit hhit)
  rw [memoryId_hitOf] at hid
  rw [List.inj_on_of_nodup_map hdistinct (List.mem_of_mem_filter hother) hdocument hid]

/-- A search is the canonical ranking of the hits: the same for every order of the
documents, the beginning of every longer search, and for two documents the same
whatever other documents there are. -/
theorem search_canonical [Characters] (h : WithinBudgets documents maxDocuments maxChars)
    (hquery : validatedQuery text = .ok query) (hhints : validatedHints given = .ok hints)
    (hlimit : 1 ≤ limit ∧ limit ≤ maxSearchResults) :
    ∃ index results, memoryRetrievalIndex (byId documents) maxDocuments maxChars = .ok index ∧
      index.search text given limit = .ok results ∧
      Ranks rankKey (hits query hints documents) limit.toNat results ∧
      (∀ documents', documents.Perm documents' → ∃ index',
        memoryRetrievalIndex (byId documents') maxDocuments maxChars = .ok index' ∧
          index'.search text given limit = .ok results) ∧
      (limit + 1 ≤ maxSearchResults → ∃ longer,
        index.search text given (limit + 1) = .ok longer ∧ results <+: longer) ∧
      ∀ documents' maxDocuments' maxChars' limit', WithinBudgets documents' maxDocuments' maxChars' →
        1 ≤ limit' ∧ limit' ≤ maxSearchResults → ∃ index' results',
          memoryRetrievalIndex (byId documents') maxDocuments' maxChars' = .ok index' ∧
          index'.search text given limit' = .ok results' ∧
          SameOrder documents documents' results results' := by
  obtain ⟨index, hindex, hentries⟩ := h.index
  obtain ⟨results, hresults, hranks⟩ := search_ranks h.distinct hentries hquery hhints hlimit
  refine ⟨index, results, hindex, hresults, hranks, ?_, ?_, ?_⟩
  · intro documents' hperm
    have h' := h.perm hperm
    obtain ⟨index', hindex', hentries'⟩ := h'.index
    obtain ⟨results', hresults', hranks'⟩ :=
      search_ranks h'.distinct hentries' hquery hhints hlimit
    have hhits : (hits query hints documents).Perm (hits query hints documents') :=
      (hperm.filter _).map _
    rw [← hranks.unique hranks' hhits] at hresults'
    exact ⟨index', hindex', hresults'⟩
  · intro hnext
    obtain ⟨longer, hlonger, hranks'⟩ :=
      search_ranks h.distinct hentries hquery hhints ⟨by omega, hnext⟩
    rw [Int.toNat_add (by omega) (by omega)] at hranks'
    exact ⟨longer, hlonger, hranks.isPrefix hranks'⟩
  · intro documents' maxDocuments' maxChars' limit' h' hlimit'
    obtain ⟨index', hindex', hentries'⟩ := h'.index
    obtain ⟨results', hresults', hranks'⟩ :=
      search_ranks h'.distinct hentries' hquery hhints hlimit'
    refine ⟨index', results', hindex', hresults', ?_, ?_⟩
    · intro document hdocument hdocument' hit hhit hit' hhit' hid hid'
      rw [hit_eq h.distinct hranks hdocument hhit hid,
        hit_eq h'.distinct hranks' hdocument' hhit' hid']
    · intro hit hhit later hlater hhit' hlater'
      rw [pair_sublist_iff hranks.sorted hhit hlater, pair_sublist_iff hranks'.sorted hhit' hlater']

def sampleDocument (resolutionId body : String) : MemoryDocument where
  frontmatter := [("resolution_id", .str resolutionId), ("memory_kind", .str "positive"),
    ("actionable", .bool true), ("outcome", .str "resolved"), ("applied", .bool true)]
  dispatchedActions := [.obj [("command", .str "open_door")]]
  body := body.toList
  episodeEvidence := none
  retrievalSignature := none

def sampleDocuments : List MemoryDocument :=
  [sampleDocument "22222222-2222-2222-2222-222222222222" "The door was closed.",
    sampleDocument "11111111-1111-1111-1111-111111111111" "The lift was busy."]

theorem sampleDocuments_fit : WithinBudgets sampleDocuments 2000 64000000 := by
  refine ⟨by decide, by decide, by decide, by decide, ?_, by decide +kernel⟩
  have hmeasured : (candidates sampleDocuments).all (fun document =>
      (documentIndexChars document).toOption.isSome) = true := by decide +kernel
  intro document hdocument
  have hsome := List.all_eq_true.mp hmeasured document hdocument
  cases hchars : documentIndexChars document with
  | ok chars => exact ⟨chars, rfl⟩
  | error e =>
    rw [hchars] at hsome
    cases hsome

theorem search_canonical_sample : ∃ index results,
    memoryRetrievalIndex (byId sampleDocuments) 2000 64000000 = .ok index ∧
      index.search "Door" none 8 = .ok results ∧
      Ranks rankKey (hits ⟨"door".toList, ["door".toList]⟩ [] sampleDocuments) 8 results := by
  obtain ⟨index, results, hindex, hresults, hranks, -⟩ := search_canonical
    sampleDocuments_fit (by rfl : validatedQuery "Door" = .ok ⟨"door".toList, ["door".toList]⟩)
    (by rfl : validatedHints none = .ok []) (by decide : 1 ≤ (8 : ℤ) ∧ 8 ≤ maxSearchResults)
  exact ⟨index, results, hindex, hresults, hranks⟩

end Canonical

end FailureResolver.SearchRanking
