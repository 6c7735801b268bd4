import FailureResolver.RetrievalIndex
import Mathlib.Algebra.Order.BigOperators.Group.List

/-!
What the retrieval index returns. The hits of a search are entries of the index and
their scores are small numbers: no text has more terms than characters, and a term
counts at most four times. A read returns the entries it was asked for, within its
budgets, and the index holds documents that were supplied and measured.
-/

namespace FailureResolver.RetrievalBounds

open JsonRoundTrip JsonText JsonValue MemoryMarkdown PyException PyText RetrievalIndex

section Terms

/-- The parts of a text with their separators are the text and one separator. -/
theorem sum_splitOnP (p : Char → Bool) (text : List Char) :
    ((text.splitOnP p).map fun part => part.length + 1).sum = text.length + 1 := by
  induction text with
  | nil => simp
  | cons c rest ih =>
    rw [List.splitOnP_cons_eq_if_modifyHead]
    split
    · simp [ih]
      omega
    · cases hparts : rest.splitOnP p with
      | nil => exact absurd hparts (List.splitOnP_ne_nil p rest)
      | cons part parts =>
        rw [hparts] at ih
        simp only [List.map_cons, List.sum_cons, List.modifyHead_cons, List.length_cons] at ih ⊢
        omega

theorem length_le_sum_succ (parts : List (List Char)) :
    parts.length ≤ (parts.map fun part => part.length + 1).sum := by
  induction parts with
  | nil => rfl
  | cons part rest ih =>
    simp only [List.length_cons, List.map_cons, List.sum_cons]
    omega

theorem length_spaced_le (parts : List (List Char)) :
    (spaced parts).length ≤ (parts.map fun part => part.length + 1).sum := by
  unfold spaced
  induction parts with
  | nil => simp
  | cons part rest ih =>
    cases rest with
    | nil => simp
    | cons next more =>
      rw [List.intercalate_cons_cons]
      simp only [List.length_append, List.length_cons, List.length_nil, List.map_cons,
        List.sum_cons] at ih ⊢
      omega

theorem sum_filter_le (p : List Char → Bool) (parts : List (List Char)) :
    ((parts.filter p).map fun part => part.length + 1).sum ≤
      (parts.map fun part => part.length + 1).sum :=
  (List.filter_sublist.map _).sum_le_sum fun _ _ => Nat.zero_le _

theorem length_tokens_le [Characters] (text : List Char) :
    (tokens text).length ≤ text.length + 1 := by
  have hparts := sum_splitOnP (fun c => !Characters.isWord c) text
  have hlength := length_le_sum_succ (text.splitOnP fun c => !Characters.isWord c)
  have hfilter := List.length_filter_le (fun token : List Char => !token.isEmpty)
    (text.splitOnP fun c => !Characters.isWord c)
  unfold tokens
  omega

theorem length_folded_le [Characters] (text : List Char) :
    (folded text).length ≤ 3 * text.length := by
  unfold folded
  induction text with
  | nil => simp
  | cons c rest ih =>
    have hc := Characters.length_fold_le c
    rw [List.flatMap_cons, List.length_append, List.length_cons]
    omega

theorem length_normalizeText_le [Characters] (text : List Char) :
    (normalizeText text).length ≤ 3 * text.length + 1 := by
  have hfold := length_folded_le text
  have hspaced := length_spaced_le (words ((folded text).map spaceOut))
  have hwords := sum_filter_le (fun word => !word.isEmpty)
    (((folded text).map spaceOut).splitOnP isSpace)
  have hparts := sum_splitOnP isSpace ((folded text).map spaceOut)
  rw [List.length_map] at hparts
  unfold normalizeText
  unfold words at hspaced ⊢
  omega

theorem length_eraseDups_le (terms : List (List Char)) : terms.eraseDups.length ≤ terms.length := by
  induction hn : terms.length using Nat.strongRecOn generalizing terms with
  | ind n ih =>
    cases terms with
    | nil => simp
    | cons term rest =>
      rw [List.eraseDups_cons, List.length_cons]
      have hfilter := List.length_filter_le (fun other => !other == term) rest
      rw [List.length_cons] at hn
      have hrest := ih _ (by omega) (rest.filter fun other => !other == term) rfl
      omega

/-- A text of at most 500 characters has at most 1502 terms. -/
theorem length_terms_le [Characters] {text : List Char} (h : text.length ≤ 500) :
    (tokens (normalizeText text)).eraseDups.length ≤ 1502 := by
  have hdups := length_eraseDups_le (tokens (normalizeText text))
  have htokens := length_tokens_le (normalizeText text)
  have hnormalized := length_normalizeText_le text
  omega

end Terms

section Scores

variable {query : Query} {hints : List Hint}

theorem validatedQuery_terms [Characters] {text : String} (h : validatedQuery text = .ok query) :
    query.terms.length ≤ 1502 := by
  unfold validatedQuery at h
  dsimp only at h
  split at h
  · simp [retrievalError] at h
  · split at h
    · simp [retrievalError] at h
    · next hlength =>
      split at h
      · simp [retrievalError] at h
      · rw [Except.ok.injEq] at h
        rw [← h]
        apply length_terms_le
        unfold maxQueryChars at hlength
        omega

theorem addHint_bounded [Characters] {normalized normalized' : List Hint} {hint : String × Json}
    (hterms : ∀ hint ∈ normalized, hint.terms.length ≤ 1502)
    (h : addHint normalized hint = .ok normalized') :
    normalized'.length ≤ normalized.length + 1 ∧
      ∀ hint ∈ normalized', hint.terms.length ≤ 1502 := by
  unfold addHint at h
  split at h
  · cases h
  · split at h
    · cases h
      exact ⟨Nat.le_succ _, hterms⟩
    · split at h
      · cases h
      · split at h
        · cases h
        · next hlength =>
          cases h
          refine ⟨by simp, ?_⟩
          intro other hother
          rcases List.mem_append.mp hother with hold | hnew
          · exact hterms other hold
          · rw [List.mem_singleton.mp hnew]
            apply length_terms_le
            unfold maxHintChars at hlength
            omega

theorem foldlM_addHint_bounded [Characters] {members : Fields} {normalized normalized' : List Hint}
    (hterms : ∀ hint ∈ normalized, hint.terms.length ≤ 1502)
    (h : members.foldlM addHint normalized = .ok normalized') :
    normalized'.length ≤ normalized.length + members.length ∧
      ∀ hint ∈ normalized', hint.terms.length ≤ 1502 := by
  induction members generalizing normalized with
  | nil =>
    cases h
    exact ⟨Nat.le_refl _, hterms⟩
  | cons member rest ih =>
    rw [List.foldlM_cons, bind_eq_ok] at h
    obtain ⟨next, hadd, hrest⟩ := h
    obtain ⟨hlength, hnext⟩ := addHint_bounded hterms hadd
    obtain ⟨htotal, hall⟩ := ih hnext hrest
    rw [List.length_cons]
    exact ⟨by omega, hall⟩

theorem validatedHints_bounded [Characters] {members : Option Fields}
    (h : validatedHints members = .ok hints) :
    hints.length ≤ 16 ∧ ∀ hint ∈ hints, hint.terms.length ≤ 1502 := by
  cases members with
  | none =>
    cases h
    simp
  | some members =>
    unfold validatedHints at h
    dsimp only at h
    split at h
    · cases h
    · next hcount =>
      obtain ⟨hlength, hterms⟩ := foldlM_addHint_bounded (by simp) h
      rw [List.length_insertionSort] at hlength
      unfold maxSearchHints at hcount
      simp only [List.length_nil] at hlength
      exact ⟨by omega, hterms⟩

theorem sum_map_le {α : Type} {f : α → ℕ} {xs : List α} {bound : ℕ} (h : ∀ x ∈ xs, f x ≤ bound) :
    (xs.map f).sum ≤ xs.length * bound := by
  have hsum := List.sum_le_card_nsmul (xs.map f) bound (by simpa using h)
  simpa using hsum

theorem fieldScore_le (field : SearchField) (hterms : query.terms.length ≤ 1502) :
    fieldScore query field ≤ 72132 := by
  have hweight : field.name.weight ≤ 12 := by
    cases field.name <;> decide
  have hterm : ∀ term ∈ query.terms,
      field.name.weight * min (field.terms.count term) maxTermFrequency ≤ 48 := by
    intro term _
    have hmin := Nat.min_le_right (field.terms.count term) maxTermFrequency
    have hmul := Nat.mul_le_mul hweight hmin
    unfold maxTermFrequency at hmul ⊢
    omega
  have hsum := sum_map_le hterm
  unfold fieldScore
  split
  · unfold phraseMultiplier
    omega
  · omega

theorem scoreHint_le [Characters] (metadata : Fields) {hint : Hint}
    (hterms : hint.terms.length ≤ 1502) :
    scoreHint metadata hint ≤ 12016 := by
  unfold scoreHint hintExactBoost hintTokenBoost
  dsimp only
  split
  · omega
  · split
    · omega
    · have hfilter := List.length_filter_le
        (fun term => decide (term ∈ tokens (normalizedMetadata metadata hint.key))) hint.terms
      omega

/-- The score of an entry with four fields is a small number. -/
theorem rankEntry_total_le [Characters] {entry : IndexedMemory} (hfields : entry.fields.length = 4)
    (hquery : query.terms.length ≤ 1502) (hcount : hints.length ≤ 16)
    (hhints : ∀ hint ∈ hints, hint.terms.length ≤ 1502) :
    (rankEntry query hints entry).total ≤ 480784 := by
  have hscores := sum_map_le (f := fieldScore query) fun field (_ : field ∈ entry.fields) =>
    fieldScore_le field hquery
  have hbonus := sum_map_le (f := scoreHint entry.metadata) fun hint hmem =>
    scoreHint_le entry.metadata (hhints hint hmem)
  rw [hfields] at hscores
  have hall : hints.length * 12016 ≤ 16 * 12016 := Nat.mul_le_mul_right _ hcount
  unfold rankEntry hintScore
  dsimp only
  omega

end Scores

section Results

structure Hit (index : MemoryRetrievalIndex) (result : MemorySearchResult) : Prop where
  entry : ∃ entry ∈ index.entries,
    result.memoryId = entry.memoryId ∧ result.metadata = entry.metadata
  score : result.score ≤ 480784

theorem search_hits [Characters] {index : MemoryRetrievalIndex} {query : String}
    {hints : Option Fields}
    {limit : ℤ} {results : List MemorySearchResult}
    (hfields : ∀ entry ∈ index.entries, entry.fields.length = 4)
    (h : index.search query hints limit = .ok results) : ∀ result ∈ results, Hit index result := by
  unfold MemoryRetrievalIndex.search at h
  simp only [bind_eq_ok] at h
  obtain ⟨query, hquery, hints, hhints, limit, -, hresults⟩ := h
  cases hresults
  obtain ⟨hcount, hterms⟩ := validatedHints_bounded hhints
  intro result hresult
  obtain ⟨ranked, hranked, rfl⟩ := List.mem_map.mp hresult
  have hmem := List.mem_of_mem_take hranked
  rw [List.mem_insertionSort] at hmem
  obtain ⟨entry, hentry, rfl⟩ := List.mem_map.mp hmem
  exact ⟨⟨entry, hentry, rfl, rfl⟩,
    rankEntry_total_le (hfields entry hentry) (validatedQuery_terms hquery) hcount hterms⟩

end Results

section Reads

variable {index : MemoryRetrievalIndex} {ids : List String} {entries : List IndexedMemory}
variable {reads : List MemoryReadResult} {budget : ℤ} {total : ℕ}

theorem retrievalError_ite_eq_ok {α : Type} {p : Prop} [Decidable p] {message : String}
    {x : Except PyExc α} {a : α} :
    (if p then retrievalError message else x) = .ok a ↔ ¬ p ∧ x = .ok a := by
  split
  · next h => simp [retrievalError, h]
  · next h => simp [h]

theorem rejectBudget_eq_ok {value maximum result : ℤ} {message : String} :
    rejectBudget value maximum message = .ok result ↔
      1 ≤ value ∧ value ≤ maximum ∧ result = value := by
  unfold rejectBudget
  rw [retrievalError_ite_eq_ok, Except.ok.injEq, not_or, not_lt, not_lt, and_assoc]
  exact and_congr_right fun _ => and_congr_right fun _ => eq_comm

theorem foldlM_addMemoryId {requested ids : List String}
    (hids : ∀ id ∈ ids, strip id = id ∧ id ≠ "") (hnodup : (requested ++ ids).Nodup) :
    ids.foldlM addMemoryId requested = .ok (requested ++ ids) := by
  induction ids generalizing requested with
  | nil => simp [pure, Except.pure]
  | cons id rest ih =>
    obtain ⟨hid, hrest⟩ := List.forall_mem_cons.mp hids
    have hfresh : id ∉ requested := by
      intro hmem
      rw [List.nodup_append] at hnodup
      exact hnodup.2.2 id hmem id (List.mem_cons_self ..) rfl
    have hadd : addMemoryId requested id = .ok (requested ++ [id]) := by
      unfold addMemoryId
      rw [hid.1, if_neg hid.2, if_neg hfresh]
    rw [List.foldlM_cons, bind_eq_ok]
    refine ⟨_, hadd, ?_⟩
    have hnext : rest.foldlM addMemoryId (requested ++ [id]) = .ok (requested ++ [id] ++ rest) :=
      ih hrest (by simpa using hnodup)
    simpa using hnext

theorem nodup_memoryIds (index : MemoryRetrievalIndex) : index.memoryIds.Nodup := by
  unfold MemoryRetrievalIndex.memoryIds List.Nodup
  rw [List.pairwise_map]
  exact index.ordered.imp fun hlt => ne_of_lt hlt

theorem find?_eq_some {entry : IndexedMemory} (hentry : entry ∈ index.entries) :
    index.find? entry.memoryId = some entry := by
  unfold MemoryRetrievalIndex.find?
  cases hfind : index.entries.find? fun other => other.memoryId = entry.memoryId with
  | none =>
    rw [List.find?_eq_none] at hfind
    exact absurd (hfind entry hentry) (by simp)
  | some other =>
    have hid := List.find?_some hfind
    rw [decide_eq_true_eq] at hid
    rw [List.inj_on_of_nodup_map (nodup_memoryIds index) (List.mem_of_find?_eq_some hfind) hentry
      hid]

theorem requestedEntries_of_mem (h : ∀ entry ∈ entries, entry ∈ index.entries) :
    index.requestedEntries (entries.map IndexedMemory.memoryId) = .ok entries := by
  induction entries with
  | nil => rfl
  | cons entry rest ih =>
    obtain ⟨hentry, hrest⟩ := List.forall_mem_cons.mp h
    rw [List.map_cons, MemoryRetrievalIndex.requestedEntries, find?_eq_some hentry]
    dsimp only
    rw [ih hrest]
    rfl

theorem requestedEntries_eq_ok (h : index.requestedEntries ids = .ok entries) :
    entries.map IndexedMemory.memoryId = ids ∧ ∀ entry ∈ entries, entry ∈ index.entries := by
  induction ids generalizing entries with
  | nil =>
    cases h
    simp
  | cons id rest ih =>
    rw [MemoryRetrievalIndex.requestedEntries] at h
    split at h
    · cases h
    · next entry hfind =>
      rw [bind_eq_ok] at h
      obtain ⟨later, hlater, hentries⟩ := h
      cases hentries
      obtain ⟨hids, hmem⟩ := ih hlater
      have hid := List.find?_some hfind
      rw [decide_eq_true_eq] at hid
      rw [List.map_cons, hids, hid]
      exact ⟨rfl, List.forall_mem_cons.mpr ⟨List.mem_of_find?_eq_some hfind, hmem⟩⟩

def markdownChars (entries : List IndexedMemory) : ℕ :=
  (entries.map fun entry => entry.markdown.length).sum

/-- Entries are read exactly if each and all together are within the limits. -/
theorem readEntries_eq_ok : readEntries budget total entries = .ok reads ↔
    (∀ entry ∈ entries, (entry.markdown.length : ℤ) ≤ maxMemoryReadChars) ∧
      (entries ≠ [] → ((total + markdownChars entries : ℕ) : ℤ) ≤ budget) ∧
      reads = entries.map IndexedMemory.readResult := by
  induction entries generalizing total reads with
  | nil => simp [readEntries, eq_comm]
  | cons entry rest ih =>
    rw [readEntries, retrievalError_ite_eq_ok, retrievalError_ite_eq_ok, bind_eq_ok, not_lt,
      not_lt]
    simp only [ih, markdownChars, List.map_cons, List.sum_cons, List.forall_mem_cons, ne_eq,
      List.cons_ne_nil, not_false_eq_true, forall_const]
    constructor
    · intro h
      obtain ⟨hlength, htotal, results, ⟨hrest, hsum, hresults⟩, hreads⟩ := h
      cases hreads
      refine ⟨⟨hlength, hrest⟩, ?_, by rw [hresults]⟩
      by_cases hempty : rest = []
      · subst hempty
        simpa using htotal
      · have := hsum hempty
        omega
    · intro h
      obtain ⟨⟨hlength, hrest⟩, hsum, hreads⟩ := h
      refine ⟨hlength, by omega, _, ⟨hrest, fun _ => by omega, rfl⟩, ?_⟩
      rw [hreads]
      rfl

/-- What a read hands out: entries of the index, within the budgets. -/
structure ReadOf (index : MemoryRetrievalIndex) (reads : List MemoryReadResult)
    (maxDocuments maxTotalChars : ℤ) : Prop where
  entries : ∃ entries : List IndexedMemory, (∀ entry ∈ entries, entry ∈ index.entries) ∧
    reads = entries.map IndexedMemory.readResult
  documents : (reads.length : ℤ) ≤ maxDocuments
  chars : (((reads.map fun read => read.markdown.length).sum : ℕ) : ℤ) ≤ maxTotalChars

theorem read_eq_ok {maxDocuments maxTotalChars : ℤ}
    (h : index.read ids maxDocuments maxTotalChars = .ok reads) :
    ReadOf index reads maxDocuments maxTotalChars := by
  unfold MemoryRetrievalIndex.read at h
  simp only [bind_eq_ok] at h
  obtain ⟨requested, hrequested, documentBudget, hdocuments, characterBudget, hchars, h⟩ := h
  obtain ⟨-, -, rfl⟩ := rejectBudget_eq_ok.mp hdocuments
  obtain ⟨hpositive, -, rfl⟩ := rejectBudget_eq_ok.mp hchars
  rw [retrievalError_ite_eq_ok, bind_eq_ok] at h
  obtain ⟨hcount, entries, hentries, hreads⟩ := h
  obtain ⟨hids, hmem⟩ := requestedEntries_eq_ok hentries
  obtain ⟨-, hsum, rfl⟩ := readEntries_eq_ok.mp hreads
  have hlength : entries.length = requested.length := by rw [← hids, List.length_map]
  refine ⟨⟨entries, hmem, rfl⟩, ?_, ?_⟩
  · rw [List.length_map, hlength]
    exact not_lt.mp hcount
  · rw [List.map_map]
    by_cases hempty : entries = []
    · subst hempty
      simp only [List.map_nil, List.sum_nil]
      omega
    · have := hsum hempty
      rw [zero_add] at this
      exact this

/-- Entries with plain ids are read by their ids. -/
theorem read_entries {maxDocuments maxTotalChars : ℤ}
    (hmem : ∀ entry ∈ entries, entry ∈ index.entries)
    (hids : ∀ entry ∈ entries, strip entry.memoryId = entry.memoryId ∧ entry.memoryId ≠ "")
    (hnodup : (entries.map IndexedMemory.memoryId).Nodup)
    (hdocuments : 1 ≤ maxDocuments ∧ maxDocuments ≤ maxReadDocuments)
    (hchars : 1 ≤ maxTotalChars ∧ maxTotalChars ≤ maxTotalReadChars)
    (hcount : (entries.length : ℤ) ≤ maxDocuments)
    (hlengths : ∀ entry ∈ entries, (entry.markdown.length : ℤ) ≤ maxMemoryReadChars)
    (hsum : (markdownChars entries : ℤ) ≤ maxTotalChars) :
    index.read (entries.map IndexedMemory.memoryId) maxDocuments maxTotalChars =
      .ok (entries.map IndexedMemory.readResult) := by
  have hrequested : validatedMemoryIds (entries.map IndexedMemory.memoryId) =
      .ok (entries.map IndexedMemory.memoryId) := by
    have hfold := @foldlM_addMemoryId [] (entries.map IndexedMemory.memoryId)
      (by simpa using hids) (by simpa using hnodup)
    simpa [validatedMemoryIds] using hfold
  unfold MemoryRetrievalIndex.read
  simp only [bind_eq_ok]
  refine ⟨_, hrequested, _, rejectBudget_eq_ok.mpr ⟨hdocuments.1, hdocuments.2, rfl⟩, _,
    rejectBudget_eq_ok.mpr ⟨hchars.1, hchars.2, rfl⟩, ?_⟩
  rw [retrievalError_ite_eq_ok, List.length_map, not_lt, bind_eq_ok]
  refine ⟨hcount, entries, requestedEntries_of_mem hmem, readEntries_eq_ok.mpr ⟨hlengths, ?_, rfl⟩⟩
  intro _
  rw [zero_add]
  exact hsum

end Reads

section Corpus

structure Measured (documents : List MemoryDocument) (document : MemoryDocument) : Prop where
  supplied : document ∈ documents
  candidate : document.isExecutionCandidate = true
  printable : printable (.obj document.frontmatter) = true

theorem jsonChars_printable {value : Json} {n : ℕ} (h : jsonChars value = .ok n) :
    printable value = true := by
  unfold jsonChars dumps at h
  split at h
  · next hdumps =>
    split at hdumps
    · next hprintable => exact printable_sortKeys_iff.mp hprintable
    · cases hdumps
  · cases h

theorem foldlM_addDocument {maxChars : ℤ} {documents : List MemoryDocument}
    {supplied : List (String × MemoryDocument)} {intake intake' : Intake}
    (hsupplied : ∀ entry ∈ supplied, entry.2 ∈ documents)
    (hintake : ∀ document ∈ intake.documents, Measured documents document)
    (h : supplied.foldlM (RetrievalIndex.addDocument maxChars) intake = .ok intake') :
    ∀ document ∈ intake'.documents, Measured documents document := by
  induction supplied generalizing intake with
  | nil =>
    cases h
    exact hintake
  | cons entry rest ih =>
    obtain ⟨hentry, hrest⟩ := List.forall_mem_cons.mp hsupplied
    rw [List.foldlM_cons, bind_eq_ok] at h
    obtain ⟨next, hadd, hfold⟩ := h
    apply ih hrest _ hfold
    unfold RetrievalIndex.addDocument at hadd
    dsimp only at hadd
    split at hadd
    · cases hadd
    · split at hadd
      · cases hadd
      · split at hadd
        · next hcandidate =>
          simp only [bind_eq_ok] at hadd
          obtain ⟨chars, hchars, hnext⟩ := hadd
          rw [retrievalError_ite_eq_ok] at hnext
          obtain ⟨-, hnext⟩ := hnext
          cases hnext
          unfold documentIndexChars at hchars
          simp only [bind_eq_ok] at hchars
          obtain ⟨n, hfrontmatter, -⟩ := hchars
          intro document hdocument
          rcases List.mem_append.mp hdocument with hold | hnew
          · exact hintake document hold
          · rw [List.mem_singleton.mp hnew]
            exact ⟨hentry, hcandidate, jsonChars_printable hfrontmatter⟩
        · cases hadd
          exact hintake

/-- Every entry of an index is a supplied document that was measured. -/
theorem memoryRetrievalIndex_entries [Characters] {supplied : List (String × MemoryDocument)}
    {maxDocuments maxChars : ℤ} {index : MemoryRetrievalIndex}
    (h : memoryRetrievalIndex supplied maxDocuments maxChars = .ok index) :
    supplied.length ≤ 2000 ∧ ∀ entry ∈ index.entries,
      ∃ document, Measured (supplied.map Prod.snd) document ∧ entry = indexDocument document := by
  unfold memoryRetrievalIndex at h
  simp only [bind_eq_ok] at h
  obtain ⟨documentBudget, hdocuments, characterBudget, -, h⟩ := h
  obtain ⟨-, hmaximum, rfl⟩ := rejectBudget_eq_ok.mp hdocuments
  rw [retrievalError_ite_eq_ok, bind_eq_ok, not_lt] at h
  obtain ⟨hcount, intake, hfold, hindex⟩ := h
  cases hindex
  have hmem : ∀ entry ∈ supplied, entry.2 ∈ supplied.map Prod.snd :=
    fun entry hentry => List.mem_map_of_mem hentry
  have hmeasured := foldlM_addDocument hmem (by simp [Intake.empty]) hfold
  unfold maxIndexDocuments at hmaximum
  refine ⟨by omega, fun entry hentry => ?_⟩
  obtain ⟨document, hdocument, rfl⟩ := List.mem_map.mp hentry
  rw [List.mem_insertionSort] at hdocument
  exact ⟨document, hmeasured document hdocument, rfl⟩

theorem printable_metadataOf {document : MemoryDocument}
    (h : printable (.obj document.frontmatter) = true) :
    printable (.obj (metadataOf document)) = true := by
  have hsorted := printable_sortKeys h
  unfold metadataOf
  rw [sortKeys_obj] at hsorted ⊢
  exact hsorted

theorem distinct_metadataOf {document : MemoryDocument}
    (h : Json.Distinct (.obj document.frontmatter)) :
    Json.Distinct (.obj (metadataOf document)) := by
  have hsorted := h.sortKeys
  unfold metadataOf
  rw [sortKeys_obj] at hsorted ⊢
  exact hsorted

end Corpus

end FailureResolver.RetrievalBounds
