import FailureResolver.JsonIndent
import FailureResolver.MemoryBrowsing
import FailureResolver.RetrievalBounds
import FailureResolver.SensitiveEntries
import FailureResolver.TaskPool

/-!
The bounds of the retrieval index against the bounds of the prompt. The first count
raw characters of what may be read, the second count the characters of each memory
with a smaller limit, or of all observations as JSON text, and then the characters of
the whole input with the failure in it. What the index admits is accepted exactly if no
memory is longer than the smaller limit, and if what is sent leaves room for its escaped
characters.
-/

namespace FailureResolver.PromptBudgets

open DecimalText FencedText JsonIndent JsonLength JsonRoundTrip JsonText JsonValue MemoryAgent
open MemoryBrowsing MemoryFrontmatter MemoryMarkdown MemorySections MemorySnapshot PrintableText
open Program PyException PyText PyUuid ResolutionMemory RetrievalBounds RetrievalIndex RowText
open TaskPool

section Sizes

def textChars (text : List Char) : ℕ := text.length + escapes text + 2

def intChars (n : ℤ) : ℕ := (intText n).length

def listChars (sizes : List ℕ) : ℕ := 2 + sizes.sum + (sizes.length - 1)

def hitChars (hit : MemorySearchResult) : ℕ :=
  64 + textChars hit.memoryId.toList + intChars hit.score +
    listChars (hit.matchedFields.map fun name => textChars name.toList) +
    compactLength (.obj hit.metadata) + textChars hit.snippet

def memoryChars (memory : MarkdownMemory) : ℕ :=
  26 + textChars memory.memoryId.toList + textChars memory.markdown

def documentChars (read : MemoryReadResult) : ℕ := memoryChars (markdownMemory read)

def observationChars : Observation → ℕ
  | .corpus eligibleMemoryCount => 85 + intChars eligibleMemoryCount
  | .searchResults query searchesRemaining hits =>
      64 + textChars query.toList + intChars searchesRemaining + listChars (hits.map hitChars)
  | .readResults readsRemaining documents =>
      55 + intChars readsRemaining + listChars (documents.map documentChars)
  | .alreadyRead => 89
  | .correction => 131

def observationsChars (observations : List Observation) : ℕ :=
  listChars (observations.map observationChars)

theorem compactLength_list {α : Type} {f : α → Json} {size : α → ℕ} {xs : List α}
    (h : ∀ x ∈ xs, compactLength (f x) = size x) :
    compactLength (.arr (xs.map f)) = listChars (xs.map size) := by
  have hsizes : (xs.map f).map compactLength = xs.map size := by
    rw [List.map_map]
    exact List.map_congr_left h
  rw [compactLength_arr, hsizes, listChars, List.length_map, List.length_map]

theorem compactLength_int (n : ℤ) : compactLength (.int n) = intChars n := rfl

theorem compactLength_string (s : String) : compactLength (.str s) = textChars s.toList :=
  compactLength_str s

theorem keyLengths : (quote "kind").length = 6 ∧ (quote "memory_id").length = 11 ∧
    (quote "score").length = 7 ∧ (quote "matched_fields").length = 16 ∧
    (quote "metadata").length = 10 ∧ (quote "snippet").length = 9 ∧
    (quote "markdown").length = 10 ∧ (quote "query").length = 7 ∧
    (quote "searches_remaining").length = 20 ∧ (quote "hits").length = 6 ∧
    (quote "reads_remaining").length = 17 ∧ (quote "documents").length = 11 ∧
    (quote "eligible_memory_count").length = 23 := by
  decide

theorem compactLength_hit (hit : MemorySearchResult) :
    compactLength (.obj (hitFields hit)) = hitChars hit := by
  obtain ⟨-, hid, hscore, hfields, hmetadata, hsnippet, -⟩ := keyLengths
  rw [compactLength_obj]
  simp only [hitFields, memberLength, List.map_cons, List.map_nil, List.sum_cons, List.sum_nil,
    List.length_cons, List.length_nil, hid, hscore, hfields, hmetadata, hsnippet,
    compactLength_string, compactLength_int, String.toList_ofList, hitChars]
  rw [compactLength_list fun name _ => compactLength_string name]
  omega

theorem compactLength_memory (memory : MarkdownMemory) :
    compactLength (.obj (memoryFields memory)) = memoryChars memory := by
  obtain ⟨-, hid, -, -, -, -, hmarkdown, -⟩ := keyLengths
  rw [compactLength_obj]
  simp only [memoryFields, memberLength, List.map_cons, List.map_nil, List.sum_cons,
    List.sum_nil, List.length_cons, List.length_nil, hid, hmarkdown, compactLength_string,
    String.toList_ofList, memoryChars]
  omega

theorem compactLength_document (read : MemoryReadResult) :
    compactLength (.obj (documentFields read)) = documentChars read :=
  compactLength_memory (markdownMemory read)

theorem compactLength_fields (observation : Observation) :
    compactLength (.obj observation.fields) = observationChars observation := by
  obtain ⟨hkind, -, -, -, -, -, -, hquery, hsearches, hhits, hreads, hdocuments, hcount⟩ :=
    keyLengths
  cases observation with
  | corpus eligibleMemoryCount =>
    have hcorpus : compactLength (.str "corpus") = 8 := by decide
    have hsearch : compactLength (.int (maxSearchCalls : ℤ)) = 1 := by decide
    have hread : compactLength (.int maxReadDocuments) = 1 := by decide
    rw [compactLength_obj]
    simp only [Observation.fields, memberLength, List.map_cons, List.map_nil, List.sum_cons,
      List.sum_nil, List.length_cons, List.length_nil, hkind, hcount, hsearches, hreads, hcorpus,
      hsearch, hread, compactLength_int, observationChars]
    omega
  | searchResults query searchesRemaining hits =>
    have hresults : compactLength (.str "search_results") = 16 := by decide
    rw [compactLength_obj]
    simp only [Observation.fields, memberLength, List.map_cons, List.map_nil, List.sum_cons,
      List.sum_nil, List.length_cons, List.length_nil, hkind, hquery, hsearches, hhits, hresults,
      compactLength_int, compactLength_string, observationChars]
    rw [compactLength_list fun hit _ => compactLength_hit hit]
    omega
  | readResults readsRemaining documents =>
    have hresults : compactLength (.str "read_results") = 14 := by decide
    rw [compactLength_obj]
    simp only [Observation.fields, memberLength, List.map_cons, List.map_nil, List.sum_cons,
      List.sum_nil, List.length_cons, List.length_nil, hkind, hreads, hdocuments, hresults,
      compactLength_int, observationChars]
    rw [compactLength_list fun read _ => compactLength_document read]
    omega
  | alreadyRead => decide +kernel
  | correction => decide +kernel

end Sizes

section Observations

def Shown : Observation → Prop
  | .corpus eligibleMemoryCount => eligibleMemoryCount ≤ 2000
  | .searchResults _ searchesRemaining hits => searchesRemaining.natAbs ≤ 4 ∧
      ∀ hit ∈ hits, hit.score ≤ 480784 ∧ printable (.obj hit.metadata) = true ∧
        Json.Distinct (.obj hit.metadata)
  | .readResults readsRemaining _ => readsRemaining.natAbs ≤ 4
  | _ => True

theorem printable_int {n : ℤ} (h : n.natAbs ≤ 480784) : printable (.int n) = true := by
  have hcount := MemoryFrontmatter.printable_count (n := n.natAbs)
    (lt_of_le_of_lt h (by decide +kernel))
  simp only [printable, scalarPrintable, Int.natAbs_natCast] at hcount ⊢
  exact hcount

theorem printable_obj {members : Fields} :
    printable (.obj members) = true ↔ ∀ m ∈ members, printable m.2 = true := by
  rw [printable, printableMembers_iff]

theorem printable_arr {items : List Json} :
    printable (.arr items) = true ↔ ∀ x ∈ items, printable x = true := by
  rw [printable, printableItems_iff]

theorem distinct_arr {items : List Json} :
    Json.Distinct (.arr items) ↔ ∀ x ∈ items, x.Distinct := by
  rw [Json.Distinct, distinctItems_iff]

theorem printable_fields {observation : Observation} (h : Shown observation) :
    printable (.obj observation.fields) = true := by
  rw [printable_obj]
  cases observation with
  | corpus eligibleMemoryCount =>
    have hcount : printable (.int eligibleMemoryCount) = true :=
      printable_int (by unfold Shown at h; omega)
    have hsearches : printable (.int (maxSearchCalls : ℤ)) = true := printable_int (by decide)
    have hreads : printable (.int maxReadDocuments) = true := printable_int (by decide)
    simp only [Observation.fields, List.forall_mem_cons, hcount, hsearches, hreads]
    simp [printable, scalarPrintable]
  | searchResults query searchesRemaining hits =>
    obtain ⟨hremaining, hhits⟩ := h
    have hsearches : printable (.int searchesRemaining) = true := printable_int (by omega)
    have hall : printable (.arr (hits.map fun hit => .obj (hitFields hit))) = true := by
      rw [printable_arr, List.forall_mem_map]
      intro hit hhit
      obtain ⟨hscore, hmetadata, -⟩ := hhits hit hhit
      have hnumber : printable (.int hit.score) = true := printable_int (by omega)
      have hnames : printable (.arr (hit.matchedFields.map Json.str)) = true := by
        rw [printable_arr, List.forall_mem_map]
        intro name _
        rfl
      rw [printable_obj]
      simp only [hitFields, List.forall_mem_cons, hnumber, hnames, hmetadata]
      simp [printable, scalarPrintable]
    simp only [Observation.fields, List.forall_mem_cons, hsearches, hall]
    simp [printable, scalarPrintable]
  | readResults readsRemaining documents =>
    have hreads : printable (.int readsRemaining) = true :=
      printable_int (by unfold Shown at h; omega)
    have hall : printable (.arr (documents.map fun read => .obj (documentFields read))) = true := by
      rw [printable_arr, List.forall_mem_map]
      intro read _
      rw [printable_obj]
      simp [documentFields, printable, scalarPrintable]
    simp only [Observation.fields, List.forall_mem_cons, hreads, hall]
    simp [printable, scalarPrintable]
  | alreadyRead => decide
  | correction => decide

theorem distinct_fields {observation : Observation} (h : Shown observation) :
    Json.Distinct (.obj observation.fields) := by
  rw [distinct_obj]
  cases observation with
  | corpus eligibleMemoryCount =>
    exact ⟨by simp [Observation.fields], by simp [Observation.fields, Json.Distinct]⟩
  | searchResults query searchesRemaining hits =>
    obtain ⟨-, hhits⟩ := h
    have hall : Json.Distinct (.arr (hits.map fun hit => .obj (hitFields hit))) := by
      rw [distinct_arr, List.forall_mem_map]
      intro hit hhit
      obtain ⟨-, -, hmetadata⟩ := hhits hit hhit
      have hnames : Json.Distinct (.arr (hit.matchedFields.map Json.str)) := by
        rw [distinct_arr, List.forall_mem_map]
        intro name _
        trivial
      rw [distinct_obj]
      refine ⟨by simp [hitFields], ?_⟩
      simp only [hitFields, List.forall_mem_cons]
      exact ⟨trivial, trivial, hnames, hmetadata, trivial, by simp⟩
    refine ⟨by simp [Observation.fields], ?_⟩
    simp only [Observation.fields, List.forall_mem_cons]
    exact ⟨trivial, trivial, trivial, hall, by simp⟩
  | readResults readsRemaining documents =>
    have hall : Json.Distinct (.arr (documents.map fun read => .obj (documentFields read))) := by
      rw [distinct_arr, List.forall_mem_map]
      intro read _
      rw [distinct_obj]
      exact ⟨by simp [documentFields], by simp [documentFields, Json.Distinct]⟩
    refine ⟨by simp [Observation.fields], ?_⟩
    simp only [Observation.fields, List.forall_mem_cons]
    exact ⟨trivial, trivial, hall, by simp⟩
  | alreadyRead => exact ⟨by decide, by simp [Observation.fields, Json.Distinct, Json.DistinctItems]⟩
  | correction => exact ⟨by decide, by simp [Observation.fields, Json.Distinct]⟩

theorem compactLength_observations (observations : List Observation) :
    compactLength (.arr ((observations.map Observation.fields).map Json.obj)) =
      observationsChars observations := by
  rw [List.map_map]
  exact compactLength_list fun observation _ => compactLength_fields observation

/-- What browsing shows is accepted exactly if its text is not too long, and only the
order of its members changes. -/
theorem prepareRetrievalObservations_eq_ok {observations : List Observation}
    (h : ∀ observation ∈ observations, Shown observation) {parsed : List Json} :
    prepareRetrievalObservations (observations.map Observation.fields) = .ok parsed ↔
      observationsChars observations ≤ maxRetrievalObservationsLength ∧
        parsed = ((observations.map Observation.fields).map Json.obj).map Json.sortKeys := by
  have hprintable : printable (.arr ((observations.map Observation.fields).map Json.obj)) = true := by
    rw [printable_arr, List.map_map, List.forall_mem_map]
    exact fun observation hmem => printable_fields (h observation hmem)
  have hdistinct : Json.Distinct (.arr ((observations.map Observation.fields).map Json.obj)) := by
    rw [distinct_arr, List.map_map, List.forall_mem_map]
    exact fun observation hmem => distinct_fields (h observation hmem)
  have hdumps : dumps compactStyle
      (Json.sortKeys (.arr ((observations.map Observation.fields).map Json.obj))) =
      some (print compactStyle 0
        (Json.sortKeys (.arr ((observations.map Observation.fields).map Json.obj)))) :=
    if_pos (printable_sortKeys hprintable)
  have hlength : (print compactStyle 0
      (Json.sortKeys (.arr ((observations.map Observation.fields).map Json.obj)))).length =
      observationsChars observations :=
    (compactLength_sortKeys _).trans (compactLength_observations observations)
  have hloads := loads_dumps compactStyle_blank hdistinct.sortKeys hdumps
  have hmapping : ((((observations.map Observation.fields).map Json.obj).map Json.sortKeys).all
      isMapping) = true := by
    rw [List.all_eq_true, List.map_map, List.map_map, List.forall_mem_map]
    intro observation _
    simp only [Function.comp_apply, sortKeys_obj]
    rfl
  unfold prepareRetrievalObservations
  rw [hdumps]
  dsimp only
  rw [hlength, hloads, sortKeys_arr]
  dsimp only
  rw [if_pos hmapping, EpisodeEvidence.refuse_ite_eq_ok, not_lt, Except.ok.injEq, eq_comm]

end Observations

section Inputs

variable {failure : JsonRow} {context : Json}

theorem boundedInput_ok_iff {maxLength : ℕ} {message : String} {payload : Fields}
    (h : printable (.obj payload) = true) :
    (∃ text, boundedInput maxLength message payload = .ok text) ↔
      compactLength (.obj payload) ≤ maxLength := by
  have hlength : (print compactStyle 0 (Json.sortKeys (.obj payload))).length =
      compactLength (.obj payload) := compactLength_sortKeys _
  unfold boundedInput dumps
  rw [if_pos (printable_sortKeys h)]
  dsimp only
  rw [hlength]
  constructor
  · intro hok
    obtain ⟨text, htext⟩ := hok
    exact not_lt.mp (EpisodeEvidence.refuse_ite_eq_ok.mp htext).1
  · intro hshort
    exact ⟨_, EpisodeEvidence.refuse_ite_eq_ok.mpr ⟨not_lt.mpr hshort, rfl⟩⟩

/-- The context of a row has a text. -/
theorem printable_failureModelContext (h : failureModelContext failure.fields = .ok context) :
    printable context = true := by
  rw [SensitiveEntries.sanitizeValue_eq 0 _ h]
  exact (SensitiveEntries.decoded_withoutSensitive failure.decoded).printable

theorem inputLengths : (quote "task").length = 6 ∧ (quote "untrusted_failure_data").length = 24 ∧
    (quote "untrusted_markdown_memories").length = 29 ∧
    (quote "untrusted_retrieval_observations").length = 34 ∧
    compactLength (.str "choose_memory") = 15 ∧ compactLength (.str "retrieve_memory") = 17 := by
  decide

/-- Few memories with distinct ids are sent exactly if each of them is accepted and all
of them fit beside the failure. -/
theorem chooseMemoryInput_ok_iff (hcontext : failureModelContext failure.fields = .ok context)
    {memories : List MarkdownMemory} (hne : memories ≠ [])
    (hlength : memories.length ≤ maxMemoryCandidates)
    (hnodup : (memories.map MarkdownMemory.memoryId).Nodup) :
    (∃ text, chooseMemoryInput failure.fields memories = .ok text) ↔
      (∀ memory ∈ memories, Acceptable memory) ∧
        81 + compactLength context + listChars (memories.map memoryChars) ≤
          maxMemoryInputLength := by
  obtain ⟨htask, hfailure, hmemories, -, hchoose, -⟩ := inputLengths
  have hall : printable (.arr (memories.map fun memory => .obj (memoryFields memory))) = true := by
    rw [printable_arr, List.forall_mem_map]
    intro memory _
    rw [printable_obj]
    simp [memoryFields, printable, scalarPrintable]
  have hprintable : printable (.obj [("task", .str "choose_memory"),
      ("untrusted_failure_data", context), ("untrusted_markdown_memories",
        .arr (memories.map fun memory => .obj (memoryFields memory)))]) = true := by
    rw [printable_obj]
    simp only [List.forall_mem_cons, printable_failureModelContext hcontext, hall]
    simp [printable, scalarPrintable]
  have hchars : compactLength (.obj [("task", .str "choose_memory"),
      ("untrusted_failure_data", context), ("untrusted_markdown_memories",
        .arr (memories.map fun memory => .obj (memoryFields memory)))]) =
      81 + compactLength context + listChars (memories.map memoryChars) := by
    rw [compactLength_obj]
    simp only [memberLength, List.map_cons, List.map_nil, List.sum_cons, List.sum_nil,
      List.length_cons, List.length_nil, htask, hfailure, hmemories, hchoose]
    rw [compactLength_list fun memory _ => compactLength_memory memory]
    omega
  have hbounded := @boundedInput_ok_iff maxMemoryInputLength
    "combined failure and memory input exceeds the bounded limit" _ hprintable
  rw [hchars] at hbounded
  rw [← prepareMemories_ok_iff hne hlength hnodup, ← hbounded]
  unfold chooseMemoryInput
  constructor
  · intro hok
    obtain ⟨text, htext⟩ := hok
    obtain ⟨prepared, hprepared, htext⟩ := bind_eq_ok.mp htext
    obtain ⟨shown, hshown, htext⟩ := bind_eq_ok.mp htext
    rw [hcontext, Except.ok.injEq] at hshown
    rw [← hshown, prepareMemories_eq hprepared] at htext
    exact ⟨⟨prepared, hprepared⟩, text, htext⟩
  · intro hok
    obtain ⟨⟨prepared, hprepared⟩, text, htext⟩ := hok
    rw [← prepareMemories_eq hprepared] at htext
    exact ⟨text, bind_eq_ok.mpr ⟨prepared, hprepared, bind_eq_ok.mpr ⟨context, hcontext, htext⟩⟩⟩

/-- Observations are sent exactly if they are accepted and fit beside the failure. -/
theorem nextTurnInput_ok_iff (hcontext : failureModelContext failure.fields = .ok context)
    {observations : List Observation} (h : ∀ observation ∈ observations, Shown observation) :
    (∃ text, nextTurnInput failure.fields (observations.map Observation.fields) = .ok text) ↔
      observationsChars observations ≤ maxRetrievalObservationsLength ∧
        88 + compactLength context + observationsChars observations ≤
          maxRetrievalInputLength := by
  obtain ⟨htask, hfailure, -, hobservations, -, hretrieve⟩ := inputLengths
  have hsorted : Json.arr (((observations.map Observation.fields).map Json.obj).map Json.sortKeys) =
      Json.sortKeys (.arr ((observations.map Observation.fields).map Json.obj)) :=
    (sortKeys_arr _).symm
  have hall : printable (.arr ((observations.map Observation.fields).map Json.obj)) = true := by
    rw [printable_arr, List.map_map, List.forall_mem_map]
    exact fun observation hmem => printable_fields (h observation hmem)
  have hprintable : printable (.obj [("task", .str "retrieve_memory"),
      ("untrusted_failure_data", context), ("untrusted_retrieval_observations",
        Json.sortKeys (.arr ((observations.map Observation.fields).map Json.obj)))]) = true := by
    rw [printable_obj]
    simp only [List.forall_mem_cons, printable_failureModelContext hcontext,
      printable_sortKeys hall]
    simp [printable, scalarPrintable]
  have hchars : compactLength (.obj [("task", .str "retrieve_memory"),
      ("untrusted_failure_data", context), ("untrusted_retrieval_observations",
        Json.sortKeys (.arr ((observations.map Observation.fields).map Json.obj)))]) =
      88 + compactLength context + observationsChars observations := by
    rw [compactLength_obj]
    simp only [memberLength, List.map_cons, List.map_nil, List.sum_cons, List.sum_nil,
      List.length_cons, List.length_nil, htask, hfailure, hobservations, hretrieve,
      compactLength_sortKeys, compactLength_observations]
    omega
  have hbounded := @boundedInput_ok_iff maxRetrievalInputLength
    "retrieval input exceeds the bounded limit" _ hprintable
  rw [hchars] at hbounded
  rw [← hbounded]
  unfold nextTurnInput
  constructor
  · intro hok
    obtain ⟨text, htext⟩ := hok
    obtain ⟨parsed, hparsed, htext⟩ := bind_eq_ok.mp htext
    obtain ⟨shown, hshown, htext⟩ := bind_eq_ok.mp htext
    obtain ⟨hshort, hsame⟩ := (prepareRetrievalObservations_eq_ok h).mp hparsed
    rw [hcontext, Except.ok.injEq] at hshown
    rw [← hshown, hsame, hsorted] at htext
    exact ⟨hshort, text, htext⟩
  · intro hok
    obtain ⟨hshort, text, htext⟩ := hok
    rw [← hsorted] at htext
    exact ⟨text, bind_eq_ok.mpr ⟨_, (prepareRetrievalObservations_eq_ok h).mpr ⟨hshort, rfl⟩,
      bind_eq_ok.mpr ⟨context, hcontext, htext⟩⟩⟩

end Inputs

section Browsing

variable {snapshot : Snapshot} {corpus : MemoryRetrievalIndex} {b : Browse} {w : World}

/-- The entries of a corpus are documents of its snapshot. -/
theorem corpusOf_entries (h : corpusOf snapshot = .ok corpus) :
    snapshot.documents.length ≤ 2000 ∧ ∀ entry ∈ corpus.entries,
      ∃ document, Measured snapshot.documents document ∧ entry = indexDocument document := by
  obtain ⟨hcount, hentries⟩ := memoryRetrievalIndex_entries h
  rw [List.length_map] at hcount
  refine ⟨hcount, fun entry hentry => ?_⟩
  obtain ⟨document, hmeasured, heq⟩ := hentries entry hentry
  rw [List.map_map] at hmeasured
  simp only [Function.comp_def, List.map_id'] at hmeasured
  exact ⟨document, hmeasured, heq⟩

/-- The browsing is within its budgets, and what it shows came from the corpus. -/
structure Bounded (b : Browse) : Prop where
  searches : b.searchesUsed ≤ 4
  documents : b.readDocuments.length ≤ 4
  chars : b.readChars ≤ 300000
  shown : ∀ observation ∈ b.observations, Shown observation

theorem Bounded.observe (h : Bounded b) {observation : Observation} (hshown : Shown observation) :
    Bounded (b.observe observation) := by
  refine ⟨h.searches, h.documents, h.chars, fun other hother => ?_⟩
  rcases List.mem_append.mp hother with hold | hnew
  · exact h.shown other hold
  · rw [List.mem_singleton.mp hnew]
    exact hshown

theorem Bounded.searched (h : Bounded b) (hcorpus : corpusOf snapshot = .ok corpus)
    (hsearch : b.searchesUsed < maxSearchCalls) {query : String} {hints : Option Fields}
    {limit : ℤ} {hits : List MemorySearchResult}
    (hhits : corpus.search query hints limit = .ok hits) : Bounded (b.searched query hits) := by
  obtain ⟨-, hentries⟩ := corpusOf_entries hcorpus
  have hfields : ∀ entry ∈ corpus.entries, entry.fields.length = 4 := by
    intro entry hentry
    obtain ⟨document, -, rfl⟩ := hentries entry hentry
    rfl
  have hall := search_hits hfields hhits
  unfold maxSearchCalls at hsearch
  refine ⟨hsearch, h.documents, h.chars, fun other hother => ?_⟩
  rcases List.mem_append.mp hother with hold | hnew
  · exact h.shown other hold
  · rw [List.mem_singleton.mp hnew]
    refine ⟨by unfold maxSearchCalls; omega, fun hit hhit => ?_⟩
    obtain ⟨⟨entry, hentry, -, hmetadata⟩, hscore⟩ := hall hit hhit
    obtain ⟨document, hmeasured, rfl⟩ := hentries entry hentry
    rw [hmetadata]
    exact ⟨hscore, printable_metadataOf hmeasured.printable,
      distinct_metadataOf (Snapshot.wellFormed hmeasured.supplied).distinct⟩

theorem Bounded.read (h : Bounded b) {ids : List String} {reads : List MemoryReadResult}
    (hreads : corpus.read ids (maxReadDocuments - b.readDocuments.length)
      (maxTotalReadChars - b.readChars) = .ok reads) (documents : List MemoryDocument) :
    Bounded (b.read reads documents) := by
  have hread := read_eq_ok hreads
  have hdocuments := hread.documents
  have hchars := hread.chars
  have hzip : ((reads.map MemoryReadResult.memoryId).zip documents).length ≤ reads.length := by
    rw [List.length_zip, List.length_map]
    exact Nat.min_le_left _ _
  have hlength : (b.readDocuments ++ (reads.map MemoryReadResult.memoryId).zip documents).length ≤
      4 := by
    rw [List.length_append]
    unfold maxReadDocuments at hdocuments
    omega
  refine ⟨h.searches, hlength, ?_, fun other hother => ?_⟩
  · show b.readChars + (reads.map fun read => read.markdown.length).sum ≤ 300000
    unfold maxTotalReadChars at hchars
    omega
  · rcases List.mem_append.mp hother with hold | hnew
    · exact h.shown other hold
    · rw [List.mem_singleton.mp hnew]
      show (maxReadDocuments - ((b.readDocuments ++
        (reads.map MemoryReadResult.memoryId).zip documents).length : ℤ)).natAbs ≤ 4
      unfold maxReadDocuments
      omega

theorem Bounded.readTurn (h : Bounded b) {requested : List String} {b' : Browse}
    (hturn : readTurn snapshot corpus b requested = .ok (.go b')) : Bounded b' := by
  unfold MemoryBrowsing.readTurn at hturn
  dsimp only at hturn
  split at hturn
  · cases hturn
    exact h.observe trivial
  · split at hturn
    · cases hturn
    · split at hturn
      · cases hturn
      · split at hturn
        · split at hturn <;> cases hturn
        · next reads hreads =>
          rw [bind_eq_ok] at hturn
          obtain ⟨documents, -, hgo⟩ := hturn
          cases hgo
          exact h.read hreads documents

theorem Bounded.finishTurn (h : Bounded b) {choice : MemoryChoice} {b' : Browse}
    (hturn : finishTurn b choice = .go b') : Bounded b' := by
  unfold MemoryBrowsing.finishTurn at hturn
  split at hturn
  · cases hturn
    exact h.observe trivial
  · split at hturn <;> cases hturn

/-- The model is shown the failure, and only what browsing can make. -/
def showing (failure : Fields) : Discipline matching Unit where
  rely _ _ := True
  act _ _ _ _ := True
  request _ _ op := match op with
    | .nextRetrievalTurn failure' observations =>
        failure' = failure ∧ ∀ observation ∈ observations, Shown observation
    | _ => True
  answer _ _ _ _ := True

theorem obeys_browseTurn (hcorpus : corpusOf snapshot = .ok corpus) (h : Bounded b)
    (failure : Fields) (step : MemoryStep) :
    Obeys (showing failure) (fun r _ _ => ∀ b', r = .ok (.go b') → Bounded b')
      (browseTurn snapshot corpus failure b step) () w := by
  cases step with
  | search action =>
    rw [browseTurn]
    split
    · intro b' hgo
      cases hgo
    · next hsearches =>
      rw [Prog.bind_eq, obeys_bind]
      refine obeys_call.mpr ⟨trivial, fun r _ w _ _ => ?_⟩
      cases r with
      | error e =>
        intro b' hgo
        cases hgo
      | ok a =>
        show Obeys _ _ (Prog.bind _ _) _ _
        rw [obeys_bind, obeys_settle]
        split
        · next hits hhits =>
          intro b' hgo
          cases hgo
          exact h.searched hcorpus (by omega) hhits
        · intro b' hgo
          cases hgo
  | read action =>
    rw [browseTurn, obeys_settle]
    intro b' hgo
    exact h.readTurn hgo
  | finish choice =>
    intro b' hgo
    exact h.finishTurn (Except.ok.inj hgo)
  | unsupported =>
    intro b' hgo
    cases hgo

/-- One turn shows what was observed so far, and the next turns go on from there. -/
theorem obeys_browse (hcorpus : corpusOf snapshot = .ok corpus) (failure : Fields) (turns : ℕ)
    (h : Bounded b) :
    Obeys (showing failure) (fun _ _ _ => True) (browse snapshot corpus failure turns b) () w := by
  induction turns generalizing b w with
  | zero => trivial
  | succ turns ih =>
    rw [browse, Prog.bind_eq, obeys_bind]
    refine obeys_call.mpr ⟨⟨rfl, h.shown⟩, fun r _ w _ _ => ?_⟩
    cases r with
    | error e => trivial
    | ok step =>
      show Obeys _ _ (Prog.bind _ _) _ _
      rw [obeys_bind]
      refine (obeys_browseTurn hcorpus h failure step).mono fun r _ w hr => ?_
      cases r with
      | error e => trivial
      | ok turn =>
        cases turn with
        | done outcome => trivial
        | go b' => exact ih (hr b' rfl)

theorem obeys_chooseAmongAll (failure : Fields) (memoryIds : List String) :
    Obeys (showing failure) (fun _ _ _ => True)
      (chooseAmongAll snapshot corpus failure memoryIds) () w := by
  unfold chooseAmongAll
  rw [Prog.bind_eq, obeys_bind, obeys_settle]
  split
  · show Obeys _ _ (Prog.bind _ _) _ _
    rw [obeys_bind]
    refine obeys_call.mpr ⟨trivial, fun r _ w _ _ => ?_⟩
    cases r with
    | error e => trivial
    | ok choice =>
      show Obeys _ _ (Prog.bind _ _) _ _
      rw [obeys_bind, obeys_settle]
      split <;> trivial
  · trivial

theorem obeys_retrieveMemoryChoice (snapshot : Snapshot) (failure : Fields) (w : World) :
    Obeys (showing failure) (fun _ _ _ => True) (retrieveMemoryChoice snapshot failure) () w := by
  unfold retrieveMemoryChoice
  rw [Prog.bind_eq, obeys_bind]
  refine obeys_call.mpr ⟨trivial, fun r _ w _ _ => ?_⟩
  cases r with
  | error e => trivial
  | ok a =>
    show Obeys _ _ (Prog.bind _ _) _ _
    rw [obeys_bind, obeys_settle]
    split
    · next corpus hcorpus =>
      show Obeys _ _ (Prog.bind _ _) _ _
      rw [obeys_bind, obeys_settle]
      split
      · next autoRead _ =>
        split
        · exact obeys_chooseAmongAll failure _
        · apply obeys_browse hcorpus
          refine ⟨Nat.zero_le _, Nat.zero_le _, Nat.zero_le _, fun observation hobservation => ?_⟩
          rw [List.mem_singleton.mp hobservation]
          exact (corpusOf_entries hcorpus).1
      · trivial
    · trivial

end Browsing

section AutoRead

variable {snapshot : Snapshot} {corpus : MemoryRetrievalIndex}

theorem boundedPrintable_formatUuid (n : ℕ) : boundedPrintable (formatUuid n) = true := by
  have hlength : (formatUuid n).toList.length = 36 := by
    unfold formatUuid
    simp [PyNumber.length_hexFixed]
  have hne : formatUuid n ≠ "" := by
    intro hempty
    rw [hempty] at hlength
    cases hlength
  have hprintable : ∀ c ∈ (formatUuid n).toList, isPrintable c = true := by
    intro c hc
    rcases mem_formatUuid hc with rfl | ⟨d, hd, rfl⟩
    · decide
    · have hdigits : ∀ d < 16, isPrintable (hexDigit d) = true := by decide
      exact hdigits d hd
  unfold boundedPrintable maxMemoryIdLength
  rw [strip_formatUuid, ← String.length_toList, hlength, List.all_eq_true.mpr hprintable]
  simpa using hne

/-- The snapshot fits the read budget, and there is something to read. -/
def AutoReads (corpus : MemoryRetrievalIndex) (memoryIds : List String) : Prop :=
  memoryIds ≠ [] ∧ ∃ autoRead,
    corpus.autoReadEligibility maxReadDocuments maxTotalReadChars = .ok autoRead ∧
      autoRead.eligible = true ∧ autoRead.memoryIds = memoryIds

/-- The memories are read, pass the validation in front of the model and are sent with
the failure, if that has a context. -/
def Accepted (corpus : MemoryRetrievalIndex) (memoryIds : List String) (failure : Fields) : Prop :=
  ∃ reads, corpus.read memoryIds maxReadDocuments maxTotalReadChars = .ok reads ∧
    (∃ prepared, prepareMemories (reads.map markdownMemory) = .ok prepared) ∧
      ∀ context, failureModelContext failure = .ok context →
        ∃ text, chooseMemoryInput failure (reads.map markdownMemory) = .ok text

/-- No memory is longer than the prompt takes, nor are all of them with the failure. -/
structure Fit (entries : List IndexedMemory) (failure : Fields) : Prop where
  short : ∀ entry ∈ entries, entry.markdown.length ≤ maxMemoryMarkdownLength
  together : ∀ context, failureModelContext failure = .ok context →
    81 + compactLength context + listChars (entries.map fun entry =>
      memoryChars ⟨entry.memoryId, entry.markdown⟩) ≤ maxMemoryInputLength

theorem autoReads_bounds {memoryIds : List String} (h : AutoReads corpus memoryIds) :
    memoryIds = corpus.memoryIds ∧ (corpus.entries.length : ℤ) ≤ maxReadDocuments ∧
      (∀ entry ∈ corpus.entries, (entry.markdown.length : ℤ) ≤ maxMemoryReadChars) ∧
      (markdownChars corpus.entries : ℤ) ≤ maxTotalReadChars := by
  obtain ⟨-, autoRead, heligibility, heligible, rfl⟩ := h
  unfold MemoryRetrievalIndex.autoReadEligibility at heligibility
  simp only [bind_eq_ok] at heligibility
  obtain ⟨documentBudget, hdocuments, characterBudget, hchars, hresult⟩ := heligibility
  obtain ⟨-, -, rfl⟩ := rejectBudget_eq_ok.mp hdocuments
  obtain ⟨-, -, rfl⟩ := rejectBudget_eq_ok.mp hchars
  split at hresult
  · cases hresult
    cases heligible
  · next hcount =>
    split at hresult
    · cases hresult
      cases heligible
    · next hlimits =>
      cases hresult
      rw [Bool.or_eq_true, not_or, List.any_eq_true, decide_eq_true_eq, not_lt] at hlimits
      obtain ⟨hlengths, htotal⟩ := hlimits
      refine ⟨rfl, ?_, fun entry hentry => ?_, htotal⟩
      · simpa [MemoryRetrievalIndex.memoryIds] using not_lt.mp hcount
      · by_contra hlong
        exact hlengths ⟨entry, hentry, by simpa using hlong⟩

/-- What is read as a whole is accepted exactly if it fits; the read itself succeeds in
any case. -/
theorem accepted_iff (hcorpus : corpusOf snapshot = .ok corpus) {memoryIds : List String}
    (h : AutoReads corpus memoryIds) (failure : JsonRow) :
    Accepted corpus memoryIds failure.fields ↔ Fit corpus.entries failure.fields := by
  obtain ⟨rfl, hcount, hlengths, htotal⟩ := autoReads_bounds h
  have hne : corpus.entries ≠ [] := by
    intro hempty
    apply h.1
    unfold MemoryRetrievalIndex.memoryIds
    rw [hempty]
    rfl
  have hids : ∀ entry ∈ corpus.entries, boundedPrintable entry.memoryId = true ∧
      strip entry.memoryId = entry.memoryId ∧ entry.memoryId ≠ "" := by
    intro entry hentry
    obtain ⟨document, hmeasured, rfl⟩ := (corpusOf_entries hcorpus).2 entry hentry
    obtain ⟨n, -, hid⟩ := (Snapshot.wellFormed hmeasured.supplied).resolutionId
    have hbounded := boundedPrintable_formatUuid n
    show boundedPrintable document.resolutionId = true ∧
      strip document.resolutionId = document.resolutionId ∧ document.resolutionId ≠ ""
    rw [hid]
    refine ⟨hbounded, strip_formatUuid n, ?_⟩
    intro hempty
    rw [hempty] at hbounded
    cases hbounded
  have hread : corpus.read corpus.memoryIds maxReadDocuments maxTotalReadChars =
      .ok (corpus.entries.map IndexedMemory.readResult) :=
    read_entries (fun entry hentry => hentry) (fun entry hentry => (hids entry hentry).2)
      (nodup_memoryIds corpus) (by decide) (by decide) hcount hlengths htotal
  have hmemories : (corpus.entries.map IndexedMemory.readResult).map markdownMemory =
      corpus.entries.map fun entry => ⟨entry.memoryId, entry.markdown⟩ := List.map_map ..
  have hnodup : ((corpus.entries.map fun entry =>
      (⟨entry.memoryId, entry.markdown⟩ : MarkdownMemory)).map MarkdownMemory.memoryId).Nodup := by
    rw [List.map_map]
    exact nodup_memoryIds corpus
  have hfew : (corpus.entries.map fun entry =>
      (⟨entry.memoryId, entry.markdown⟩ : MarkdownMemory)).length ≤ maxMemoryCandidates := by
    rw [List.length_map]
    unfold maxReadDocuments at hcount
    unfold maxMemoryCandidates
    omega
  have hprepare := prepareMemories_ok_iff (by simpa using hne) hfew hnodup
  have hsend := fun context hcontext => @chooseMemoryInput_ok_iff failure context hcontext _
    (by simpa using hne) hfew hnodup
  simp only [List.map_map] at hsend
  rw [List.forall_mem_map] at hprepare
  constructor
  · intro haccepted
    obtain ⟨reads, hreads, hprepared, hsent⟩ := haccepted
    rw [hread, Except.ok.injEq] at hreads
    rw [← hreads, hmemories] at hprepared hsent
    exact ⟨fun entry hentry => (hprepare.mp hprepared entry hentry).2,
      fun context hcontext => ((hsend context hcontext).mp (hsent context hcontext)).2⟩
  · intro hfit
    have hacceptable : ∀ entry ∈ corpus.entries, Acceptable ⟨entry.memoryId, entry.markdown⟩ :=
      fun entry hentry => ⟨(hids entry hentry).1, hfit.short entry hentry⟩
    refine ⟨_, hread, ?_, fun context hcontext => ?_⟩
    · rw [hmemories]
      exact hprepare.mpr hacceptable
    · rw [hmemories]
      refine (hsend context hcontext).mpr ⟨?_, hfit.together context hcontext⟩
      rwa [List.forall_mem_map]

end AutoRead

section Budgets

/-- A snapshot that is read as a whole is accepted. -/
def AutoReadAccepted (snapshot : Snapshot) (failure : Fields) : Prop :=
  ∀ corpus memoryIds, corpusOf snapshot = .ok corpus → AutoReads corpus memoryIds →
    Accepted corpus memoryIds failure

/-- A snapshot that is read as a whole fits. -/
def MemoriesFit (snapshot : Snapshot) (failure : Fields) : Prop :=
  ∀ corpus memoryIds, corpusOf snapshot = .ok corpus → AutoReads corpus memoryIds →
    Fit corpus.entries failure

/-- The observations of every turn of a run are accepted, and sent with the failure if
that has a context. -/
def ObservationsAccepted (t : List (Event matching)) : Prop :=
  ∀ e ∈ t, ∀ failure observations, e.op = .nextRetrievalTurn failure observations →
    (∃ parsed, prepareRetrievalObservations (observations.map Observation.fields) = .ok parsed) ∧
      ∀ context, failureModelContext failure = .ok context →
        ∃ text, nextTurnInput failure (observations.map Observation.fields) = .ok text

/-- What was searched and read leaves room for the escaped characters, in every turn. -/
def ObservationsFit (t : List (Event matching)) : Prop :=
  ∀ e ∈ t, ∀ failure observations, e.op = .nextRetrievalTurn failure observations →
    observationsChars observations ≤ maxRetrievalObservationsLength ∧
      ∀ context, failureModelContext failure = .ok context →
        88 + compactLength context + observationsChars observations ≤ maxRetrievalInputLength

/-- The observations of one turn are accepted exactly if they fit. -/
theorem turn_accepted_iff (failure : JsonRow) {observations : List Observation}
    (h : ∀ observation ∈ observations, Shown observation) :
    ((∃ parsed, prepareRetrievalObservations (observations.map Observation.fields) = .ok parsed) ∧
        ∀ context, failureModelContext failure.fields = .ok context →
          ∃ text, nextTurnInput failure.fields (observations.map Observation.fields) = .ok text) ↔
      observationsChars observations ≤ maxRetrievalObservationsLength ∧
        ∀ context, failureModelContext failure.fields = .ok context →
          88 + compactLength context + observationsChars observations ≤
            maxRetrievalInputLength := by
  have hprepare : (∃ parsed,
      prepareRetrievalObservations (observations.map Observation.fields) = .ok parsed) ↔
        observationsChars observations ≤ maxRetrievalObservationsLength := by
    simp only [prepareRetrievalObservations_eq_ok h, exists_and_left, exists_eq, and_true]
  rw [hprepare]
  refine and_congr_right fun hshort => forall₂_congr fun context hcontext => ?_
  rw [nextTurnInput_ok_iff hcontext h]
  exact and_iff_right hshort

/-- The budgets of retrieval agree with the bounds of the prompt exactly where every
memory read as a whole, and every list of observations, is short enough. -/
theorem budgets_agree_iff (snapshot : Snapshot) (failure : JsonRow) (w : World) :
    (AutoReadAccepted snapshot failure.fields ↔ MemoriesFit snapshot failure.fields) ∧
      Ensures anything (retrieveMemoryChoice snapshot failure.fields) w
        (fun t _ => ObservationsAccepted t ↔ ObservationsFit t) := by
  constructor
  · exact forall₄_congr fun corpus memoryIds hcorpus hautoReads =>
      accepted_iff hcorpus hautoReads failure
  · have hshown := (obeys_retrieveMemoryChoice snapshot failure.fields w).ensures anything
      fun _ _ _ _ _ _ => ⟨(), trivial, trivial⟩
    refine hshown.mono fun t _ ht => ?_
    refine forall₂_congr fun e he => forall₂_congr fun failure' observations =>
      imp_congr_right fun hop => ?_
    obtain ⟨_, hrequest⟩ := ht e he
    rw [hop] at hrequest
    obtain ⟨rfl, hobservations⟩ := hrequest
    exact turn_accepted_iff failure hobservations

end Budgets

section LongModel

def sampleRow : Fields :=
  [("resolution_id", .str "11111111-1111-1111-1111-111111111111"), ("outcome", .str "resolved"),
    ("applied", .bool true),
    ("action_runs", .arr [.obj [("command", .str "open_door"), ("status", .str "sent")]])]

theorem distinct_sampleRow : Json.Distinct (.obj sampleRow) := by
  refine distinct_obj.mpr ⟨by decide, ?_⟩
  simp [sampleRow, Json.Distinct, Json.DistinctItems, Json.DistinctMembers]

theorem decoded_sampleRow : Decoded (.obj sampleRow) := ⟨distinct_sampleRow, rfl⟩

/-- A memory of a source, written by a model of this name. -/
def draftBy (source : ResolutionSource) (model : String) : DraftFields :=
  { source
    memoryKind := .positive
    actionable := true
    failureSummary := "The door stayed closed."
    recoverySummary := "Open the door."
    model }

def documentBy (source : ResolutionSource) (model : String) : MemoryDocument where
  frontmatter := frontmatter (draftBy source model)
  dispatchedActions := source.dispatchedActions
  body := renderedBody (fun _ => "") (draftBy source model)
  episodeEvidence := none
  retrievalSignature := none

def sampleFits (source : ResolutionSource) : Bool :=
  (Fields.get source.payload "episode_evidence").isNull && source.isResolved &&
    !source.dispatchedActions.isEmpty && decide (CleanFrontmatter (draftBy source "")) &&
    (documentBy source "").isExecutionCandidate &&
    (indexDocument (documentBy source "")).markdown.length < 4000 &&
    (match documentIndexChars (documentBy source "") with
      | .ok chars => chars < 4000
      | .error _ => false)

/-- The sample source may be replayed. -/
theorem sampleFits_actionable {source : ResolutionSource} (h : sampleFits source = true) :
    source.dispatchedActions ≠ [] ∧ source.isResolved = true := by
  unfold sampleFits at h
  simp only [Bool.and_eq_true] at h
  obtain ⟨⟨⟨⟨⟨⟨-, hresolved⟩, hactions⟩, -⟩, -⟩, -⟩, -⟩ := h
  refine ⟨?_, hresolved⟩
  intro hnil
  rw [hnil] at hactions
  cases hactions

theorem length_joinLines (lines : List (List Char)) :
    (joinLines lines).length = (lines.map List.length).sum + (lines.length - 1) := by
  unfold joinLines
  induction lines with
  | nil => rfl
  | cons line rest ih =>
    cases rest with
    | nil => simp
    | cons next more =>
      rw [List.intercalate_cons_cons, List.length_append, List.length_append, ih]
      simp only [List.map_cons, List.sum_cons, List.length_cons, List.length_nil]
      omega

/-- The metadata stand for themselves in the text of a memory. -/
theorem length_retrievalMarkdown (metadata metadata' : Fields) (prose : List Char)
    (signature evidence : Json) :
    (retrievalMarkdown metadata prose signature evidence).length +
        (indentedJson (.obj metadata')).length =
      (retrievalMarkdown metadata' prose signature evidence).length +
        (indentedJson (.obj metadata)).length := by
  unfold retrievalMarkdown jsonSection
  simp only [length_joinLines, List.map_append, List.map_cons, List.sum_append, List.sum_cons,
    List.length_append, List.length_cons]
  omega

variable {source : ResolutionSource} {model : String}

theorem sortKeys_metadataOf (document : MemoryDocument) :
    Json.obj (metadataOf document) = Json.sortKeys (.obj document.frontmatter) := by
  unfold metadataOf
  rw [sortKeys_obj]

theorem indentedJson_metadataOf (document : MemoryDocument) :
    indentedJson (.obj (metadataOf document)) =
      print indentedStyle 0 (Json.sortKeys (.obj document.frontmatter)) := by
  unfold indentedJson
  rw [sortKeys_metadataOf, sortKeys_sortKeys]

/-- Only one field of the frontmatter names the model. -/
theorem frontmatter_draftBy (source : ResolutionSource) (model : String) :
    frontmatter (draftBy source model) = (frontmatter (draftBy source "")).take 24 ++
      ("model", .str model) :: (frontmatter (draftBy source "")).drop 25 := rfl

theorem length_print_model (style : Style) (source : ResolutionSource) (model : String) :
    (print style 0 (Json.sortKeys (.obj (frontmatter (draftBy source model))))).length =
      (print style 0 (Json.sortKeys (.obj (frontmatter (draftBy source ""))))).length +
        (model.toList.length + escapes model.toList) := by
  have htext := length_print_text style ((frontmatter (draftBy source "")).take 24)
    ((frontmatter (draftBy source "")).drop 25) "model" model
  rw [← frontmatter_draftBy, ← frontmatter_draftBy] at htext
  exact htext

theorem mem_frontmatter_draftBy {entry : String × Json}
    (h : entry ∈ frontmatter (draftBy source model)) :
    entry ∈ frontmatter (draftBy source "") ∨ entry = ("model", .str model) := by
  rw [frontmatter_draftBy] at h
  rcases List.mem_append.mp h with hbefore | hrest
  · exact .inl (List.mem_of_mem_take hbefore)
  · rcases List.mem_cons.mp hrest with hmodel | hafter
    · exact .inr hmodel
    · exact .inl (List.mem_of_mem_drop hafter)

/-- A longer model name makes the text of the memory longer by as much. -/
theorem length_markdown (source : ResolutionSource) (model : String) :
    (indexDocument (documentBy source model)).markdown.length =
      (indexDocument (documentBy source "")).markdown.length +
        (model.toList.length + escapes model.toList) := by
  have hmarkdown := length_retrievalMarkdown (metadataOf (documentBy source model))
    (metadataOf (documentBy source "")) (generalizedProse (documentBy source "").body)
    (objectOf none) (objectOf none)
  have hjson : ∀ name : String, indentedJson (.obj (metadataOf (documentBy source name))) =
      print indentedStyle 0 (Json.sortKeys (.obj (frontmatter (draftBy source name)))) := by
    intro name
    rw [indentedJson_metadataOf]
    rfl
  have htext := length_print_model indentedStyle source model
  rw [← hjson, ← hjson] at htext
  rw [htext] at hmarkdown
  show (retrievalMarkdown (metadataOf (documentBy source model))
    (generalizedProse (documentBy source "").body) (objectOf none) (objectOf none)).length =
    (retrievalMarkdown (metadataOf (documentBy source ""))
      (generalizedProse (documentBy source "").body) (objectOf none) (objectOf none)).length + _
  omega

theorem jsonChars_eq_ok {value : Json} {n : ℕ} :
    jsonChars value = .ok n ↔ printable value = true ∧ n = compactLength value := by
  unfold jsonChars dumps
  by_cases hprintable : printable value = true
  · rw [if_pos (printable_sortKeys hprintable)]
    show Except.ok (compactLength value.sortKeys) = .ok n ↔ _
    rw [compactLength_sortKeys, Except.ok.injEq, eq_comm]
    exact (and_iff_right hprintable).symm
  · rw [if_neg (fun hsorted => hprintable (printable_sortKeys_iff.mp hsorted))]
    constructor
    · intro h
      cases h
    · intro h
      exact absurd h.1 hprintable

theorem documentIndexChars_eq_ok {document : MemoryDocument} {n : ℕ} :
    documentIndexChars document = .ok n ↔
      (printable (.obj document.frontmatter) = true ∧
        printable (objectOf document.retrievalSignature) = true ∧
        printable (objectOf document.episodeEvidence) = true) ∧
      n = document.body.length + compactLength (.obj document.frontmatter) +
        compactLength (objectOf document.retrievalSignature) +
        compactLength (objectOf document.episodeEvidence) := by
  unfold documentIndexChars
  simp only [bind_eq_ok, jsonChars_eq_ok]
  constructor
  · intro h
    obtain ⟨_, ⟨hfrontmatter, rfl⟩, _, ⟨hsignature, rfl⟩, _, ⟨hevidence, rfl⟩, hn⟩ := h
    cases hn
    exact ⟨⟨hfrontmatter, hsignature, hevidence⟩, rfl⟩
  · intro h
    obtain ⟨⟨hfrontmatter, hsignature, hevidence⟩, hn⟩ := h
    exact ⟨_, ⟨hfrontmatter, rfl⟩, _, ⟨hsignature, rfl⟩, _, ⟨hevidence, rfl⟩, by rw [hn]; rfl⟩

def sampleUuid : String := "11111111-1111-1111-1111-111111111111"

def samplePayload : Fields := payloadOfRow sampleRow sampleUuid none "resolved" true

/-- What the source of the sample holds, apart from its digest. -/
structure FromSample (source : ResolutionSource) : Prop where
  resolutionId : source.resolutionId = sampleUuid
  failureId : source.failureId = none
  payload : ∀ key, Fields.get source.payload key = (Fields.get samplePayload key).sortKeys
  genuine : source.Genuine

theorem exists_sampleSource :
    ∃ source, resolutionSourceFromRow sampleRow = .ok source ∧ FromSample source := by
  have hid : canonicalUuid (Fields.get sampleRow "resolution_id") "resolution_id" =
      .ok sampleUuid := by decide +kernel
  have houtcome : optionalRowText sampleRow "outcome" = .ok (some "resolved") := by decide
  have hdecoded : Decoded (.obj samplePayload) :=
    inherits_payloadOfRow hereditary_decoded (fun _ => ⟨trivial, rfl⟩) (fun _ => ⟨trivial, rfl⟩)
      decoded_sampleRow _ _ _ _
  have hmap : withCurrentMap sampleRow samplePayload = samplePayload := rfl
  obtain ⟨source, hsource, hholds⟩ := resolutionSourceFromRow_of_parts hid rfl rfl houtcome rfl
    (hmap.symm ▸ hdecoded) rfl
  change SourceHolds source none (withCurrentMap sampleRow samplePayload) at hholds
  rw [hmap] at hholds
  refine ⟨source, hsource, ?_, hholds.failureId,
    fun key => get_sortKeys hdecoded.distinct hholds.payload.symm key,
    resolutionSourceFromRow_genuine distinct_sampleRow (by decide) hsource⟩
  have hsame := resolutionSourceFromRow_resolutionId hsource
  rw [hid] at hsame
  exact (Except.ok.inj hsame).symm

def sampleFrontmatter (hash : String) : Fields :=
  frontmatterFields.map fun key => (key, Fields.get
    [("schema_version", .int schemaVersion), ("source", .str sourceTable),
      ("source_hash", .str hash), ("resolution_id", .str sampleUuid),
      ("memory_kind", .str "positive"), ("actionable", .bool true), ("outcome", .str "resolved"),
      ("applied", .bool true), ("action_count", .int 1), ("model", .str "")] key)

theorem sampleFrontmatter_eq (hash : String) : sampleFrontmatter hash =
    (sampleFrontmatter "").take 2 ++ ("source_hash", .str hash) :: (sampleFrontmatter "").drop 3 :=
  rfl

theorem FromSample.dispatchedActions {source : ResolutionSource} (h : FromSample source) :
    source.dispatchedActions = [.obj [("command", .str "open_door"), ("status", .str "sent")]] := by
  unfold ResolutionSource.dispatchedActions
  rw [h.payload]
  rfl

theorem FromSample.frontmatter {source : ResolutionSource} (h : FromSample source) :
    MemoryMarkdown.frontmatter (draftBy source "") = sampleFrontmatter source.sourceHash := by
  unfold MemoryMarkdown.frontmatter
  simp only [draftBy, h.resolutionId, h.failureId, h.payload, h.dispatchedActions]
  rfl


theorem FromSample.body {source : ResolutionSource} (h : FromSample source) :
    (retrievalMarkdown [] (generalizedProse (renderedBody (fun _ => "") (draftBy source "")))
      (objectOf none) (objectOf none)).length < 1500 ∧
      (renderedBody (fun _ => "") (draftBy source "")).length < 1500 := by
  unfold renderedBody bodyBlocks proseBlocks title contextLines signatureSection evidenceSection
    actionsSection draftBy
  dsimp only
  rw [h.resolutionId, h.dispatchedActions, funext h.payload]
  decide +kernel

theorem sampleFrontmatter_short :
    (print compactStyle 0 (Json.sortKeys (.obj (sampleFrontmatter "")))).length < 1000 ∧
      (print indentedStyle 0 (Json.sortKeys (.obj (sampleFrontmatter "")))).length < 1000 := by
  have hshort : compactLength (.obj (sampleFrontmatter "")) < 1000 ∧
      indentedChars (.obj (sampleFrontmatter "")) < 1000 := by decide +kernel
  rw [← compactLength_sortKeys, ← indentedChars_sortKeys] at hshort
  rw [length_print_indented]
  exact hshort

/-- The digest adds at most its escaped characters. -/
theorem FromSample.length_print {source : ResolutionSource} (h : FromSample source)
    (style : Style) :
    (print style 0 (Json.sortKeys
      (.obj (MemoryMarkdown.frontmatter (draftBy source ""))))).length ≤
        (print style 0 (Json.sortKeys (.obj (sampleFrontmatter "")))).length + 384 := by
  have htext := length_print_text style ((sampleFrontmatter "").take 2)
    ((sampleFrontmatter "").drop 3) "source_hash" source.sourceHash
  rw [← sampleFrontmatter_eq, ← sampleFrontmatter_eq] at htext
  have hlength : source.sourceHash.toList.length = 64 := by
    rw [h.genuine.sourceHash, Sha256.length_hexDigest]
  have hescapes := escapes_le source.sourceHash.toList
  rw [h.frontmatter, htext]
  omega

theorem FromSample.clean {source : ResolutionSource} (h : FromSample source) :
    CleanFrontmatter (draftBy source "") := by
  have hsample : ∀ entry ∈ sampleFrontmatter "", SeparatorFree entry.2 := by decide +kernel
  have hdigits : ∀ d < 16, isSeparator (hexDigit d) = false := by decide
  intro entry hentry
  rw [h.frontmatter, sampleFrontmatter_eq] at hentry
  rcases List.mem_append.mp hentry with hbefore | hrest
  · exact hsample entry (List.mem_of_mem_take hbefore)
  · rcases List.mem_cons.mp hrest with rfl | hafter
    · intro s hs c hc
      rw [List.mem_singleton.mp hs, h.genuine.sourceHash] at hc
      obtain ⟨d, hd, rfl⟩ := Sha256.mem_hexDigest hc
      exact hdigits d hd
    · exact hsample entry (List.mem_of_mem_drop hafter)

theorem FromSample.fits {source : ResolutionSource} (h : FromSample source) :
    sampleFits source = true := by
  obtain ⟨hprose, hbody⟩ := h.body
  obtain ⟨hcompact, hindented⟩ := sampleFrontmatter_short
  have hresolved : source.isResolved = true := by
    unfold ResolutionSource.isResolved
    rw [h.payload, h.payload]
    rfl
  have hcandidate : (documentBy source "").isExecutionCandidate = true := by
    unfold MemoryDocument.isExecutionCandidate documentBy
    dsimp only
    rw [h.frontmatter, h.dispatchedActions]
    rfl
  have hmarkdown : (indexDocument (documentBy source "")).markdown.length < 4000 := by
    have hlength := length_retrievalMarkdown (metadataOf (documentBy source "")) []
      (generalizedProse (documentBy source "").body) (objectOf none) (objectOf none)
    have hdigest := h.length_print indentedStyle
    rw [indentedJson_metadataOf] at hlength
    show (retrievalMarkdown (metadataOf (documentBy source ""))
      (generalizedProse (documentBy source "").body) (objectOf none) (objectOf none)).length < 4000
    have hfront : (documentBy source "").frontmatter =
        MemoryMarkdown.frontmatter (draftBy source "") := rfl
    have hsame : (documentBy source "").body = renderedBody (fun _ => "") (draftBy source "") := rfl
    rw [hfront] at hlength
    rw [hsame] at hlength ⊢
    omega
  have hchars : documentIndexChars (documentBy source "") = .ok
      ((documentBy source "").body.length +
        compactLength (.obj (documentBy source "").frontmatter) + 2 + 2) := by
    refine documentIndexChars_eq_ok.mpr ⟨⟨?_, rfl, rfl⟩, rfl⟩
    show printable (.obj (MemoryMarkdown.frontmatter (draftBy source ""))) = true
    rw [h.frontmatter]
    rfl
  unfold sampleFits
  rw [h.payload, hresolved, h.dispatchedActions, decide_eq_true h.clean, hcandidate,
    decide_eq_true hmarkdown, hchars]
  have hdigest := h.length_print compactStyle
  have hshort : (documentBy source "").body.length +
      compactLength (.obj (documentBy source "").frontmatter) + 2 + 2 < 4000 := by
    rw [← compactLength_sortKeys]
    show (renderedBody (fun _ => "") (draftBy source "")).length +
      (print compactStyle 0 (Json.sortKeys (.obj
        (MemoryMarkdown.frontmatter (draftBy source ""))))).length + 2 + 2 < 4000
    omega
  simp only [decide_eq_true hshort]
  rfl

theorem sampleRow_fits :
    (resolutionSourceFromRow sampleRow).toOption.any sampleFits = true := by
  obtain ⟨source, hsource, hsample⟩ := exists_sampleSource
  rw [hsource]
  exact hsample.fits

/-- The index measures a longer name as well. -/
theorem documentIndexChars_documentBy {n : ℕ}
    (h : documentIndexChars (documentBy source "") = .ok n) (model : String) :
    documentIndexChars (documentBy source model) =
      .ok (n + (model.toList.length + escapes model.toList)) := by
  rw [documentIndexChars_eq_ok] at h ⊢
  obtain ⟨⟨hfrontmatter, hsignature, hevidence⟩, hn⟩ := h
  have hlength := length_print_model compactStyle source model
  have hcompact : ∀ name : String, compactLength (.obj (frontmatter (draftBy source name))) =
      (print compactStyle 0 (Json.sortKeys (.obj (frontmatter (draftBy source name))))).length :=
    fun name => (compactLength_sortKeys _).symm
  refine ⟨⟨?_, hsignature, hevidence⟩, ?_⟩
  · rw [printable_obj] at hfrontmatter ⊢
    intro entry hentry
    rcases mem_frontmatter_draftBy hentry with hold | hmodel
    · exact hfrontmatter entry hold
    · rw [hmodel]
      rfl
  · rw [← hcompact, ← hcompact] at hlength
    have hbody : (documentBy source model).body = (documentBy source "").body := rfl
    rw [hn, hbody]
    show _ = _ + compactLength (.obj (frontmatter (draftBy source model))) + _ + _
    rw [hlength]
    show _ + compactLength (.obj (frontmatter (draftBy source ""))) + compactLength (objectOf none) +
      compactLength (objectOf none) + _ = _ + (compactLength (.obj (frontmatter
        (draftBy source ""))) + _) + compactLength (objectOf none) + compactLength (objectOf none)
    omega

theorem isExecutionCandidate_documentBy (source : ResolutionSource) (model : String) :
    (documentBy source model).isExecutionCandidate =
      (documentBy source "").isExecutionCandidate := rfl

theorem clean_draftBy (h : CleanFrontmatter (draftBy source ""))
    (hmodel : ∀ c ∈ model.toList, isSeparator c = false) :
    CleanFrontmatter (draftBy source model) := by
  intro entry hentry
  rcases mem_frontmatter_draftBy hentry with hold | hnew
  · exact h entry hold
  · rw [hnew]
    intro s hs
    rw [List.mem_singleton.mp hs]
    exact hmodel

/-- A clean memory of the sample is read back as its document. -/
theorem parse_draftBy (hgenuine : source.Genuine) (hfits : sampleFits source = true)
    (hmodel : ∀ c ∈ model.toList, isSeparator c = false) :
    parseMemoryDocument (renderMemory (fun _ => "") (draftBy source model)) =
      .ok (documentBy source model) := by
  have hprepared : (draftBy source model).Prepared :=
    ⟨fun signature h => (by cases h), fun _ => ⟨rfl, sampleFits_actionable hfits⟩⟩
  unfold sampleFits at hfits
  simp only [Bool.and_eq_true, decide_eq_true_eq] at hfits
  obtain ⟨⟨⟨⟨⟨⟨hevidence, -⟩, -⟩, hclean⟩, -⟩, -⟩, -⟩ := hfits
  obtain ⟨document, hparse, hfrontmatter, hbody⟩ := @MemoryIndex.parse_clean
    (draftBy source model) (fun _ => "") hgenuine hprepared (clean_draftBy hclean hmodel)
  have hshows := parse_renderMemory_shows (fun _ => "") hgenuine hprepared hparse
  obtain ⟨hdispatched, hepisode, hsignature⟩ := hshows
  have hnull : Fields.get source.payload "episode_evidence" = .null := by
    revert hevidence
    cases Fields.get source.payload "episode_evidence" <;> simp [Json.isNull]
  have hnone : document.episodeEvidence = none := by
    rw [show (draftBy source model).source = source from rfl, hnull] at hepisode
    cases hcase : document.episodeEvidence with
    | none => rfl
    | some members =>
      rw [hcase] at hepisode
      cases hepisode
  have hplain : document.retrievalSignature = none := by
    cases hcase : document.retrievalSignature with
    | none => rfl
    | some members =>
      rw [hcase] at hsignature
      cases hsignature
  rw [hparse, Except.ok.injEq]
  obtain ⟨_, _, _, _, _⟩ := document
  simp only at hfrontmatter hbody hdispatched hnone hplain
  subst hfrontmatter hbody hdispatched hnone hplain
  rfl

/-- The snapshot of one memory, whose model has a name of this many characters. -/
def longName (n : ℕ) : String := String.ofList (List.replicate n 'x')

theorem length_longName (n : ℕ) :
    (longName n).toList.length + escapes (longName n).toList = n := by
  have hplain : (escapeChar 'x').length - 1 = 0 := by decide
  unfold longName escapes
  rw [String.toList_ofList, List.map_replicate, hplain, List.sum_replicate, List.length_replicate]
  simp

/-- The corpus of a single candidate. -/
theorem corpusOf_singleton {snapshot : Snapshot} {document : MemoryDocument} {chars : ℕ}
    (hdocuments : snapshot.documents = [document])
    (hcandidate : document.isExecutionCandidate = true)
    (hchars : documentIndexChars document = .ok chars) (hsmall : chars ≤ 64000000) :
    ∃ corpus, corpusOf snapshot = .ok corpus ∧ corpus.entries = [indexDocument document] := by
  let intake : Intake := ⟨[document], 0 + chars, List.nodup_singleton document.resolutionId⟩
  have hadd : RetrievalIndex.addDocument maxIndexChars Intake.empty
      (document.resolutionId, document) = .ok intake := by
    unfold RetrievalIndex.addDocument
    dsimp only
    rw [if_neg (by simp), dif_neg (by simp [Intake.empty]), if_pos hcandidate]
    refine bind_eq_ok.mpr ⟨chars, hchars, ?_⟩
    rw [if_neg]
    · rfl
    · show ¬ maxIndexChars < ((0 + chars : ℕ) : ℤ)
      unfold maxIndexChars
      omega
  refine ⟨intake.index, ?_, rfl⟩
  unfold corpusOf memoryRetrievalIndex
  rw [hdocuments]
  refine bind_eq_ok.mpr ⟨_, rejectBudget_eq_ok.mpr ⟨by decide, le_refl _, rfl⟩, ?_⟩
  refine bind_eq_ok.mpr ⟨_, rejectBudget_eq_ok.mpr ⟨by decide, le_refl _, rfl⟩, ?_⟩
  rw [if_neg (by simp [maxIndexDocuments])]
  refine bind_eq_ok.mpr ⟨intake, ?_, rfl⟩
  rw [List.map_singleton, List.foldlM_cons, hadd]
  rfl

/-- A snapshot and its corpus, of one memory whose model has a name of this many
characters. -/
theorem exists_longMemory {n : ℕ} (hn : n ≤ 60000000) :
    ∃ (source : ResolutionSource) (snapshot : Snapshot) (corpus : MemoryRetrievalIndex)
      (entry : IndexedMemory), resolutionSourceFromRow sampleRow = .ok source ∧
        snapshot.documents = [documentBy source (longName n)] ∧ corpusOf snapshot = .ok corpus ∧
        corpus.entries = [entry] ∧ n ≤ entry.markdown.length ∧ entry.markdown.length < n + 4000 := by
  have hsample := sampleRow_fits
  cases hrow : resolutionSourceFromRow sampleRow with
  | error e =>
    rw [hrow] at hsample
    cases hsample
  | ok source =>
    rw [hrow] at hsample
    have hfits : sampleFits source = true := by simpa [Except.toOption] using hsample
    have hgenuine := resolutionSourceFromRow_genuine distinct_sampleRow (by decide) hrow
    have hparse := @parse_draftBy source (longName n) hgenuine hfits (by
      intro c hc
      unfold longName at hc
      rw [String.toList_ofList] at hc
      rw [List.eq_of_mem_replicate hc]
      decide)
    have hname := length_longName n
    have hlength := length_markdown source (longName n)
    have hcandidate := isExecutionCandidate_documentBy source (longName n)
    have hchars := fun chars hmeasured =>
      @documentIndexChars_documentBy source chars hmeasured (longName n)
    rw [hname] at hlength hchars
    let snapshot : Snapshot :=
      ⟨[documentBy source (longName n)], List.nodup_singleton _, by simpa using ⟨_, hparse⟩⟩
    unfold sampleFits at hfits
    simp only [Bool.and_eq_true, decide_eq_true_eq] at hfits
    obtain ⟨⟨⟨-, hcandidate'⟩, hshort⟩, hmeasured⟩ := hfits
    rw [hcandidate'] at hcandidate
    split at hmeasured
    · next chars hmeasure =>
      rw [decide_eq_true_eq] at hmeasured
      obtain ⟨corpus, hcorpus, hentries⟩ := @corpusOf_singleton snapshot _ _ rfl hcandidate
        (hchars chars hmeasure) (by omega)
      exact ⟨source, snapshot, corpus, _, rfl, rfl, hcorpus, hentries, by omega, by omega⟩
    · cases hmeasured

/-- One memory of 195000 characters is read as a whole, and refused by the prompt. -/
theorem longMemory_refused : ∃ (source : ResolutionSource) (snapshot : Snapshot),
    resolutionSourceFromRow sampleRow = .ok source ∧
      snapshot.documents = [documentBy source (longName 195000)] ∧
      ∀ failure : JsonRow, ¬ AutoReadAccepted snapshot failure.fields := by
  obtain ⟨source, snapshot, corpus, entry, hrow, hdocuments, hcorpus, hentries, hlong, hshort⟩ :=
    exists_longMemory (by decide : 195000 ≤ 60000000)
  refine ⟨source, snapshot, hrow, hdocuments, fun failure => ?_⟩
  have hids : corpus.memoryIds = [entry.memoryId] := by
    unfold MemoryRetrievalIndex.memoryIds
    rw [hentries]
    rfl
  have htotal : corpus.totalChars = entry.markdown.length := by
    simp [MemoryRetrievalIndex.totalChars, hentries]
  have heligible : AutoReads corpus corpus.memoryIds := by
    refine ⟨by rw [hids]; exact List.cons_ne_nil _ _,
      ⟨true, corpus.memoryIds, corpus.totalChars, "eligible"⟩, bind_eq_ok.mpr ⟨_,
      rejectBudget_eq_ok.mpr ⟨by decide, by decide, rfl⟩, bind_eq_ok.mpr ⟨_,
        rejectBudget_eq_ok.mpr ⟨by decide, by decide, rfl⟩, ?_⟩⟩, rfl, rfl⟩
    rw [if_neg (by rw [hids]; simp [maxReadDocuments]), if_neg]
    · rfl
    · rw [htotal, hentries]
      simp only [List.any_cons, List.any_nil, Bool.or_false, Bool.or_eq_true, maxMemoryReadChars,
        maxTotalReadChars]
      intro hover
      rcases hover with hover | hover
      · have hlonger := of_decide_eq_true hover
        omega
      · have hlonger := of_decide_eq_true hover
        omega
  intro haccepted
  have hfit := ((accepted_iff hcorpus heligible failure).mp
    (haccepted _ _ hcorpus heligible)).short entry (by simp [hentries])
  unfold maxMemoryMarkdownLength at hfit
  omega

end LongModel
end FailureResolver.PromptBudgets
