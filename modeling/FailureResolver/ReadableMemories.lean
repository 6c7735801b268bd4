import FailureResolver.HiddenActions
import FailureResolver.JsonIndent
import FailureResolver.PromptBudgets

/-!
Memories that were learned and cannot be read. What is written is bounded by its
compact JSON text, what is read by its indented one, which is longer by a line feed and
the indentation of every entry. A memory indexed alone is read exactly if it is a
candidate whose indented text stays within the bound of a read.
-/

namespace FailureResolver.ReadableMemories

open EpisodeEvidence FencedText HiddenActions JsonIndent JsonLength JsonRoundTrip JsonText
open JsonValue MemoryBrowsing MemoryFrontmatter MemoryMarkdown MemorySections MemorySnapshot
open PromptBudgets PyException PyText PyUuid ResolutionMemory RetrievalBounds RetrievalIndex

section Size

def proseChars (prose : List Char) : ℕ := if prose.isEmpty then 0 else prose.length + 24

theorem length_indentedJson (value : Json) : (indentedJson value).length = indentedChars value := by
  unfold indentedJson
  rw [length_print_indented, compactLength_sortKeys, layoutChars_sortKeys]
  rfl

theorem length_jsonSection (heading : String) (value : Json) :
    ((jsonSection heading value).map List.length).sum =
      heading.toList.length + 10 + indentedChars value := by
  unfold jsonSection
  simp only [List.map_cons, List.map_nil, List.sum_cons, List.sum_nil, length_indentedJson]
  have hfences : openingFence.length = 7 ∧ closingFence.length = 3 := by decide
  omega

/-- The length of the text of a memory: its headings and fences, its prose, and its
three JSON texts with their layout. -/
theorem length_retrievalMarkdown_eq (metadata : Fields) (prose : List Char)
    (signature evidence : Json) :
    (retrievalMarkdown metadata prose signature evidence).length = 125 + proseChars prose +
      indentedChars (.obj metadata) + indentedChars signature + indentedChars evidence := by
  have hheadings : "# Recovery memory".toList.length = 17 ∧
      "## Retrieval Metadata".toList.length = 21 ∧ "## Generalized Memory".toList.length = 21 ∧
      "## Retrieval Signature".toList.length = 22 ∧
      "## Episode Evidence".toList.length = 19 := by decide
  obtain ⟨htitle, hmetadata, hprose, hsignature, hevidence⟩ := hheadings
  have hlines : ∀ (heading : String) (value : Json), (jsonSection heading value).length = 4 :=
    fun heading value => rfl
  unfold retrievalMarkdown
  rw [length_joinLines]
  simp only [List.map_append, List.map_cons, List.map_nil, List.sum_append, List.sum_cons,
    List.sum_nil, List.length_append, List.length_cons, List.length_nil, length_jsonSection,
    hlines, htitle, hmetadata, hsignature, hevidence]
  unfold proseSection proseChars
  by_cases hempty : prose.isEmpty = true
  · rw [if_pos hempty, if_pos hempty]
    simp only [List.map_nil, List.sum_nil, List.length_nil]
    omega
  · rw [if_neg hempty, if_neg hempty]
    simp only [List.map_cons, List.map_nil, List.sum_cons, List.sum_nil, List.length_cons,
      List.length_nil, hprose]
    omega

end Size

section Read

variable {document : MemoryDocument} {index : MemoryRetrievalIndex}

theorem layoutChars_le_markdown (document : MemoryDocument) :
    layoutChars 0 (objectOf document.retrievalSignature) ≤
      (indexDocument document).markdown.length := by
  show _ ≤ (retrievalMarkdown _ _ _ _).length
  rw [length_retrievalMarkdown_eq]
  unfold indentedChars
  omega

/-- A single id is read exactly if its entry is within the bound of a memory. -/
theorem read_single_iff {id : String} (hid : strip id = id ∧ id ≠ "") :
    (∃ reads, index.read [id] maxReadDocuments maxTotalReadChars = .ok reads) ↔
      ∃ entry ∈ index.entries, entry.memoryId = id ∧
        (entry.markdown.length : ℤ) ≤ maxMemoryReadChars := by
  constructor
  · intro hread
    obtain ⟨reads, hread⟩ := hread
    unfold MemoryRetrievalIndex.read at hread
    simp only [bind_eq_ok] at hread
    obtain ⟨requested, hrequested, _, -, _, -, hread⟩ := hread
    rw [retrievalError_ite_eq_ok, bind_eq_ok] at hread
    obtain ⟨-, entries, hentries, hreads⟩ := hread
    have hsingle : requested = [id] := by
      have hfold := @foldlM_addMemoryId [] [id] (by simpa using hid) (by simp)
      unfold validatedMemoryIds at hrequested
      rw [hfold, Except.ok.injEq] at hrequested
      exact hrequested.symm
    obtain ⟨hids, hmem⟩ := requestedEntries_eq_ok hentries
    obtain ⟨hlengths, -⟩ := readEntries_eq_ok.mp hreads
    rw [hsingle] at hids
    have hentry : ∃ entry ∈ entries, entry.memoryId = id := by
      rw [← List.mem_map, hids]
      exact List.mem_singleton_self id
    obtain ⟨entry, hentry, heq⟩ := hentry
    exact ⟨entry, hmem entry hentry, heq, hlengths entry hentry⟩
  · intro hentry
    obtain ⟨entry, hentry, rfl, hlength⟩ := hentry
    have hsum : (markdownChars [entry] : ℤ) ≤ maxTotalReadChars := by
      unfold markdownChars maxTotalReadChars
      unfold maxMemoryReadChars at hlength
      simp only [List.map_cons, List.map_nil, List.sum_cons, List.sum_nil, add_zero]
      omega
    have hread := @read_entries index [entry] maxReadDocuments maxTotalReadChars
      (by simpa using hentry) (by simpa using hid) (by simp) (by decide) (by decide)
      (by simp [maxReadDocuments]) (by simpa using hlength) hsum
    exact ⟨_, hread⟩

/-- Indexed alone, the memory is read under its id. -/
def Readable (document : MemoryDocument) : Prop :=
  ∃ index, memoryRetrievalIndex [(document.resolutionId, document)] maxIndexDocuments
      maxIndexChars = .ok index ∧
    ∃ reads, index.read [document.resolutionId] maxReadDocuments maxTotalReadChars = .ok reads

theorem plain_resolutionId (h : WellFormed document) :
    strip document.resolutionId = document.resolutionId ∧ document.resolutionId ≠ "" := by
  obtain ⟨n, -, hid⟩ := h.resolutionId
  rw [hid]
  refine ⟨strip_formatUuid n, ?_⟩
  intro hempty
  have hlength := boundedPrintable_formatUuid n
  rw [hempty] at hlength
  revert hlength
  decide

/-- The entries of an index of one document. -/
theorem entries_single (h : memoryRetrievalIndex [(document.resolutionId, document)]
    maxIndexDocuments maxIndexChars = .ok index) {entry : IndexedMemory}
    (hentry : entry ∈ index.entries) : document.isExecutionCandidate = true ∧
      entry = indexDocument document ∧ ∃ chars, documentIndexChars document = .ok chars ∧
        (chars : ℤ) ≤ maxIndexChars := by
  unfold memoryRetrievalIndex at h
  simp only [bind_eq_ok] at h
  obtain ⟨_, -, characterBudget, hchars, h⟩ := h
  obtain ⟨-, -, rfl⟩ := rejectBudget_eq_ok.mp hchars
  rw [retrievalError_ite_eq_ok, bind_eq_ok, List.foldlM_cons] at h
  obtain ⟨-, intake, hfold, hindex⟩ := h
  obtain ⟨next, hadd, hnext⟩ := bind_eq_ok.mp hfold
  cases hnext
  cases hindex
  unfold RetrievalIndex.addDocument at hadd
  dsimp only at hadd
  rw [if_neg (by simp), dif_neg (by simp [Intake.empty])] at hadd
  obtain ⟨indexed, hmember, rfl⟩ := List.mem_map.mp hentry
  rw [List.mem_insertionSort] at hmember
  by_cases hcandidate : document.isExecutionCandidate = true
  · rw [if_pos hcandidate, bind_eq_ok] at hadd
    obtain ⟨chars, hmeasured, hadd⟩ := hadd
    rw [retrievalError_ite_eq_ok, not_lt] at hadd
    obtain ⟨hsmall, hadd⟩ := hadd
    cases hadd
    have hsame : indexed = document := by simpa [Intake.empty] using hmember
    rw [hsame]
    refine ⟨hcandidate, rfl, chars, hmeasured, ?_⟩
    simpa [Intake.empty] using hsmall
  · rw [if_neg hcandidate] at hadd
    cases hadd
    simp [Intake.empty] at hmember

/-- A parsed document is read alone exactly if it is a candidate within both bounds. -/
theorem readable_document_iff {content : List Char}
    (hparse : parseMemoryDocument content = .ok document) :
    Readable document ↔ document.isExecutionCandidate = true ∧
      (∃ chars, documentIndexChars document = .ok chars ∧ (chars : ℤ) ≤ maxIndexChars) ∧
      ((indexDocument document).markdown.length : ℤ) ≤ maxMemoryReadChars := by
  have hid := plain_resolutionId (parseMemoryDocument_wellFormed hparse)
  constructor
  · intro hreadable
    obtain ⟨index, hindex, hread⟩ := hreadable
    obtain ⟨entry, hentry, -, hlength⟩ := (read_single_iff hid).mp hread
    obtain ⟨hcandidate, rfl, hmeasured⟩ := entries_single hindex hentry
    exact ⟨hcandidate, hmeasured, hlength⟩
  · intro hfits
    obtain ⟨hcandidate, hmeasured, hlength⟩ := hfits
    obtain ⟨chars, hchars, hsmall⟩ := hmeasured
    let snapshot : Snapshot :=
      ⟨[document], List.nodup_singleton _, by simpa using ⟨content, hparse⟩⟩
    unfold maxIndexChars at hsmall
    obtain ⟨corpus, hcorpus, hentries⟩ :=
      @corpusOf_singleton snapshot document chars rfl hcandidate hchars (by omega)
    refine ⟨corpus, hcorpus, (read_single_iff hid).mpr ⟨indexDocument document, ?_, rfl, hlength⟩⟩
    rw [hentries]
    exact List.mem_singleton_self _

end Read

section Draft

variable {strOf : Json → String} {draft : DraftFields} {document : MemoryDocument}

def shownObject : Json → Json
  | .null => .obj []
  | value => value

theorem objectOf_eq (members : Option Fields) :
    objectOf members = shownObject (optionalObject members) := by
  cases members <;> rfl

theorem shownObject_sortKeys (members : Option Fields) :
    shownObject (optionalObject members).sortKeys =
      (shownObject (optionalObject members)).sortKeys := by
  cases members with
  | none => rfl
  | some members =>
    show shownObject (Json.sortKeys (.obj members)) = Json.sortKeys (.obj members)
    rw [sortKeys_obj]
    rfl

/-- The document of a draft has its body, its evidence and its sorted signature. -/
theorem parsed_sections (hgenuine : draft.source.Genuine) (hprepared : draft.Prepared)
    (h : parseMemoryDocument (renderMemory strOf draft) = .ok document) :
    document.body = renderedBody strOf draft ∧
      optionalObject document.episodeEvidence =
        Fields.get draft.source.payload "episode_evidence" ∧
      optionalObject document.retrievalSignature = (optionalObject draft.signature).sortKeys := by
  have hshows := parse_renderMemory_shows strOf hgenuine hprepared h
  obtain ⟨signature, hsignature, hsection⟩ :=
    parseSignature_renderedBody strOf hgenuine hprepared
  have hparts := splitDocument_renderMemory strOf draft
  rw [← universalNewlines_renderMemory strOf hgenuine] at hparts
  obtain ⟨hbody, -, -, hparsed⟩ := parseMemoryDocument_parts hparts h
  rw [hsection, Except.ok.injEq] at hparsed
  rw [← hparsed, ← hsignature]
  exact ⟨hbody, hshows.episodeEvidence, rfl⟩

/-- The memory is a candidate, and its texts are within the bound of an index and, when
they are indented, within the bound of a read. -/
structure Fits (strOf : Json → String) (draft : DraftFields) (document : MemoryDocument) :
    Prop where
  candidate : document.isExecutionCandidate = true
  printable : printable (.obj document.frontmatter) = true
  indexed : (renderedBody strOf draft).length + compactLength (.obj document.frontmatter) +
    compactLength (shownObject (optionalObject draft.signature)) +
    compactLength (shownObject (Fields.get draft.source.payload "episode_evidence")) ≤ 64000000
  text : 125 + proseChars (generalizedProse (renderedBody strOf draft)) +
    indentedChars (.obj document.frontmatter) +
    indentedChars (shownObject (optionalObject draft.signature)) +
    indentedChars (shownObject (Fields.get draft.source.payload "episode_evidence")) ≤ 200000

theorem metadataOf_eq_sortKeys (document : MemoryDocument) :
    indentedChars (.obj (metadataOf document)) = indentedChars (.obj document.frontmatter) := by
  rw [sortKeys_metadataOf, indentedChars_sortKeys]

/-- A memory that was learned is readable exactly if it fits. -/
theorem readable_iff (strOf : Json → String) (draft : MemoryDraft) (document : MemoryDocument)
    (h : parseMemoryDocument (renderMemory strOf draft.toDraftFields) = .ok document) :
    Readable document ↔ Fits strOf draft.toDraftFields document := by
  obtain ⟨hbody, hevidence, hsignature⟩ := parsed_sections draft.genuine draft.prepared h
  have hsize : (indexDocument document).markdown.length =
      125 + proseChars (generalizedProse (renderedBody strOf draft.toDraftFields)) +
        indentedChars (.obj document.frontmatter) +
        indentedChars (shownObject (optionalObject draft.signature)) +
        indentedChars (shownObject (Fields.get draft.source.payload "episode_evidence")) := by
    show (retrievalMarkdown _ _ _ _).length = _
    rw [length_retrievalMarkdown_eq, metadataOf_eq_sortKeys, hbody, objectOf_eq, objectOf_eq,
      hevidence, hsignature, shownObject_sortKeys, indentedChars_sortKeys]
  rw [readable_document_iff h, hsize]
  simp only [documentIndexChars_eq_ok, hbody, objectOf_eq, hevidence, hsignature,
    shownObject_sortKeys, compactLength_sortKeys, printable_sortKeys_iff]
  have hprintable : printable (shownObject (optionalObject draft.signature)) = true ∧
      printable (shownObject (Fields.get draft.source.payload "episode_evidence")) = true := by
    constructor
    · cases hcase : draft.signature with
      | none => rfl
      | some members =>
        have hvalid := (draft.prepared.signature members hcase).1
        exact printable_sortKeys_iff.mp (printable_evidence hvalid)
    · rcases draft.genuine.episodeEvidence with hnull | hvalid
      · rw [hnull]
        rfl
      · obtain ⟨members, hmembers, hvalid⟩ := hvalid
        rw [hmembers]
        exact printable_sortKeys_iff.mp (printable_evidence hvalid)
  constructor
  · intro hfits
    obtain ⟨hcandidate, ⟨_, ⟨⟨hfrontmatter, -, -⟩, rfl⟩, hindexed⟩, htext⟩ := hfits
    unfold maxIndexChars at hindexed
    unfold maxMemoryReadChars at htext
    exact ⟨hcandidate, hfrontmatter, by exact_mod_cast hindexed, by exact_mod_cast htext⟩
  · intro hfits
    obtain ⟨hcandidate, hfrontmatter, hindexed, htext⟩ := hfits
    refine ⟨hcandidate, ⟨_, ⟨⟨hfrontmatter, hprintable⟩, rfl⟩, ?_⟩, ?_⟩
    · unfold maxIndexChars
      exact_mod_cast hindexed
    · unfold maxMemoryReadChars
      exact_mod_cast htext

end Draft

section Sample

variable {source : ResolutionSource}

def series (rows columns : ℕ) : Json :=
  .arr (List.replicate (rows + 1) (.arr (List.replicate (columns + 1) (.int 0))))

theorem compactLength_series (rows columns : ℕ) :
    compactLength (series rows columns) = 2 + (rows + 1) * (2 * columns + 3) + rows := by
  have hzero : compactLength (.int 0) = 1 := by decide
  unfold series
  rw [compactLength_arr, List.map_replicate, compactLength_arr, List.map_replicate, hzero,
    List.sum_replicate_nat, List.sum_replicate_nat, List.length_replicate, List.length_replicate]
  have hrow : 2 + (columns + 1) * 1 + (columns + 1 - 1) = 2 * columns + 3 := by omega
  rw [hrow]
  omega

theorem layoutChars_series (rows columns level : ℕ) :
    layoutChars level (series rows columns) = (rows + 1) * (lineChars (level + 1) +
      ((columns + 1) * lineChars (level + 2) + lineChars (level + 1))) + lineChars level := by
  have hrow : layoutChars (level + 1) (.arr (List.replicate (columns + 1) (.int 0))) =
      (columns + 1) * lineChars (level + 2) + lineChars (level + 1) := by
    rw [layoutChars_arr (by simp), List.map_replicate, List.sum_replicate_nat]
    rfl
  unfold series
  rw [layoutChars_arr (by simp), List.map_replicate, List.sum_replicate_nat, hrow]

theorem sanitized_series {rows columns depth : ℕ} (hdepth : depth + 2 ≤ 16)
    (hrows : rows < 4096) (hcolumns : columns < 4096) : Sanitized depth (series rows columns) := by
  unfold series
  refine sanitized_arr.mpr ⟨?_, ?_, fun row hrow => ?_⟩
  · unfold maxEpisodeDepth
    omega
  · rw [List.length_replicate]
    exact hrows
  rw [List.eq_of_mem_replicate hrow]
  refine sanitized_arr.mpr ⟨?_, ?_, fun x hx => ?_⟩
  · unfold maxEpisodeDepth
    omega
  · rw [List.length_replicate]
    exact hcolumns
  rw [List.eq_of_mem_replicate hx]
  show sanitizeValue (depth + 1 + 1) (.int 0) = .ok (.int 0)
  rw [sanitizeValue.eq_3 _ _ (by simp) (by simp), if_neg]
  · rfl
  · unfold maxEpisodeDepth
    omega

def samples (rows columns : ℕ) : Fields := [("samples", series rows columns)]

theorem compactLength_samples (rows columns : ℕ) :
    compactLength (.obj (samples rows columns)) =
      14 + (rows + 1) * (2 * columns + 3) + rows := by
  have hkey : (quote "samples").length = 9 := by decide
  unfold samples
  rw [compactLength_obj]
  simp only [List.map_cons, List.map_nil, List.sum_cons, List.sum_nil, memberLength, hkey,
    compactLength_series, List.length_cons, List.length_nil]
  omega

theorem layoutChars_samples (rows columns : ℕ) :
    7 * ((rows + 1) * (columns + 1)) ≤ layoutChars 0 (.obj (samples rows columns)) := by
  have hrows : (rows + 1) * (7 * (columns + 1)) ≤
      (rows + 1) * (lineChars (1 + 1) + ((columns + 1) * lineChars (1 + 2) + lineChars (1 + 1))) := by
    apply Nat.mul_le_mul_left
    unfold lineChars
    omega
  unfold samples
  rw [layoutChars_obj (by simp)]
  simp only [List.map_cons, List.map_nil, List.sum_cons, List.sum_nil, layoutChars_series]
  have hcomm : 7 * ((rows + 1) * (columns + 1)) = (rows + 1) * (7 * (columns + 1)) := by ring
  rw [zero_add, hcomm]
  omega

theorem sanitized_samples {rows columns : ℕ} (hrows : rows < 4096) (hcolumns : columns < 4096) :
    Sanitized 0 (.obj (samples rows columns)) := by
  refine sanitized_obj.mpr ⟨Nat.zero_le _, ?_, fun m hm => ?_⟩
  · show 1 ≤ maxEpisodeCollectionItems
    decide
  · have hkey : isSensitiveKey "samples" = false := by decide
    rw [List.mem_singleton.mp hm]
    exact ⟨hkey, sanitized_series (by decide) hrows hcolumns⟩

theorem printable_samples (rows columns : ℕ) : printable (.obj (samples rows columns)) = true := by
  rw [printable_obj]
  intro m hm
  rw [List.mem_singleton.mp hm, series, printable_arr]
  intro x hx
  rw [List.eq_of_mem_replicate hx, printable_arr]
  intro y hy
  rw [List.eq_of_mem_replicate hy]
  decide

theorem valid_samples {rows columns : ℕ} (hrows : rows < 4096) (hcolumns : columns < 4096)
    (hlength : 14 + (rows + 1) * (2 * columns + 3) + rows ≤ 160000) :
    Valid (samples rows columns) := by
  have hprintable := printable_sortKeys (printable_samples rows columns)
  refine ⟨sanitized_samples hrows hcolumns, _, dumps_eq_some.mpr ⟨hprintable, rfl⟩, ?_⟩
  show compactLength (Json.sortKeys (.obj (samples rows columns))) ≤ maxEpisodeEvidenceChars
  rw [compactLength_sortKeys, compactLength_samples]
  exact hlength

theorem distinct_samples (rows columns : ℕ) : Json.Distinct (.obj (samples rows columns)) := by
  refine distinct_obj.mpr ⟨List.nodup_singleton _, fun m hm => ?_⟩
  rw [List.mem_singleton.mp hm, series, distinct_arr]
  intro x hx
  rw [List.eq_of_mem_replicate hx, distinct_arr]
  intro y hy
  rw [List.eq_of_mem_replicate hy]
  trivial

/-- Ten series of 4000 samples: 80033 characters as compact JSON, and seven more for every
sample when they are indented. -/
def bulkySignature : Fields := samples 9 3999

theorem valid_bulky : Valid bulkySignature :=
  valid_samples (by decide) (by decide) (by decide)

theorem layoutChars_bulky : 200000 < layoutChars 0 (.obj bulkySignature) :=
  lt_of_lt_of_le (by decide) (layoutChars_samples 9 3999)

def bulkyDraft (source : ResolutionSource) : DraftFields :=
  { draftBy source "gpt-5.6-luna" with signature := some bulkySignature }

theorem prepared_bulky (hfits : sampleFits source = true) : (bulkyDraft source).Prepared := by
  refine ⟨fun signature hsignature => ?_, fun _ => ⟨rfl, sampleFits_actionable hfits⟩⟩
  cases hsignature
  exact ⟨valid_bulky, distinct_samples 9 3999⟩

theorem postInit_bulky (hfits : sampleFits source = true) :
    postInit (bulkyDraft source) = .ok (bulkyDraft source) := by
  have hprepared := prepared_bulky hfits
  obtain ⟨hkind, hactions, hresolved⟩ := hprepared.actionable rfl
  have hsignature : validateSignature (some bulkySignature) = .ok (some bulkySignature) := by
    unfold validateSignature
    simp only [validate_valid valid_bulky]
    rfl
  have htexts : requiredDraftText "The door stayed closed." "failure_summary" =
        .ok "The door stayed closed." ∧
      requiredDraftText "Open the door." "recovery_summary" = .ok "Open the door." ∧
      requiredDraftText "gpt-5.6-luna" "model" = .ok "gpt-5.6-luna" := by decide
  obtain ⟨hfailure, hrecovery, hmodel⟩ := htexts
  unfold postInit
  refine bind_eq_ok.mpr ⟨_, hfailure, bind_eq_ok.mpr ⟨_, hrecovery, ?_⟩⟩
  refine bind_eq_ok.mpr ⟨_, hmodel, ?_⟩
  refine bind_eq_ok.mpr ⟨none, rfl, bind_eq_ok.mpr ⟨[], rfl, ?_⟩⟩
  refine bind_eq_ok.mpr ⟨some bulkySignature, hsignature, ?_⟩
  rw [rejectMemory_ite_eq_ok, rejectMemory_ite_eq_ok, rejectMemory_ite_eq_ok]
  refine ⟨fun h => h.2 hkind, fun h => hactions ?_, fun h => ?_, rfl⟩
  · simpa using h.2
  · rw [hresolved] at h
    exact Bool.noConfusion h.2

/-- An accepted memory of a candidate whose evidence is within its bound is stored, and
cannot be read. -/
theorem bulky_unreadable : ∃ (draft : MemoryDraft) (document : MemoryDocument),
    resolutionSourceFromRow sampleRow = .ok draft.source ∧
      draft.toDraftFields = bulkyDraft draft.source ∧
      postInit draft.toDraftFields = .ok draft.toDraftFields ∧
      parseMemoryDocument (renderMemory (fun _ => "") draft.toDraftFields) = .ok document ∧
      document.isExecutionCandidate = true ∧ ¬ Readable document := by
  have hsample := sampleRow_fits
  cases hrow : resolutionSourceFromRow sampleRow with
  | error e =>
    rw [hrow] at hsample
    cases hsample
  | ok source =>
    rw [hrow] at hsample
    have hfits : sampleFits source = true := by simpa [Except.toOption] using hsample
    have hgenuine := resolutionSourceFromRow_genuine distinct_sampleRow (by decide) hrow
    have hclean : CleanFrontmatter (bulkyDraft source) := by
      have hsmall := hfits
      unfold sampleFits at hsmall
      simp only [Bool.and_eq_true, decide_eq_true_eq] at hsmall
      exact @clean_draftBy source "gpt-5.6-luna" hsmall.1.1.1.2 (by decide)
    let draft : MemoryDraft := ⟨bulkyDraft source, hgenuine, prepared_bulky hfits⟩
    obtain ⟨document, hparse, hfrontmatter, -⟩ :=
      @MemoryIndex.parse_clean (bulkyDraft source) (fun _ => "") hgenuine draft.prepared hclean
    have hshows := parse_renderMemory_shows (fun _ => "") hgenuine draft.prepared hparse
    have hcandidate : document.isExecutionCandidate = true := by
      have hsmall := hfits
      unfold sampleFits at hsmall
      simp only [Bool.and_eq_true] at hsmall
      obtain ⟨⟨⟨-, hcandidate⟩, -⟩, -⟩ := hsmall
      unfold MemoryDocument.isExecutionCandidate at hcandidate ⊢
      rw [hfrontmatter, hshows.dispatchedActions]
      exact hcandidate
    refine ⟨draft, document, rfl, rfl, postInit_bulky hfits, hparse, hcandidate, ?_⟩
    rw [readable_document_iff hparse]
    intro hreadable
    obtain ⟨-, -, hlength⟩ := hreadable
    obtain ⟨-, -, hsignature⟩ := parsed_sections hgenuine draft.prepared hparse
    have hmarkdown := layoutChars_le_markdown document
    have hshown : shownObject (optionalObject (bulkyDraft source).signature) =
        .obj bulkySignature := rfl
    rw [objectOf_eq, hsignature, shownObject_sortKeys, layoutChars_sortKeys, hshown] at hmarkdown
    unfold maxMemoryReadChars at hlength
    have hshort : (indexDocument document).markdown.length ≤ 200000 := by exact_mod_cast hlength
    exact absurd (layoutChars_bulky.trans_le (hmarkdown.trans hshort)) (lt_irrefl _)

/-- The memory of a short resolution fits and is read. -/
theorem readable_sample : ∃ (draft : MemoryDraft) (document : MemoryDocument),
    resolutionSourceFromRow sampleRow = .ok draft.source ∧
      parseMemoryDocument (renderMemory (fun _ => "") draft.toDraftFields) = .ok document ∧
      Readable document ∧ Fits (fun _ => "") draft.toDraftFields document := by
  have hsample := sampleRow_fits
  cases hrow : resolutionSourceFromRow sampleRow with
  | error e =>
    rw [hrow] at hsample
    cases hsample
  | ok source =>
    rw [hrow] at hsample
    have hfits : sampleFits source = true := by simpa [Except.toOption] using hsample
    have hgenuine := resolutionSourceFromRow_genuine distinct_sampleRow (by decide) hrow
    have hprepared : (draftBy source "").Prepared :=
      ⟨fun signature hsignature => (by cases hsignature), (prepared_bulky hfits).actionable⟩
    let draft : MemoryDraft := ⟨draftBy source "", hgenuine, hprepared⟩
    have hparse := @parse_draftBy source "" hgenuine hfits (by simp)
    have hreadable : Readable (documentBy source "") := by
      unfold sampleFits at hfits
      simp only [Bool.and_eq_true, decide_eq_true_eq] at hfits
      obtain ⟨⟨⟨-, hcandidate⟩, hshort⟩, hmeasured⟩ := hfits
      rw [readable_document_iff hparse]
      refine ⟨hcandidate, ?_, ?_⟩
      · split at hmeasured
        · next chars hchars =>
          rw [decide_eq_true_eq] at hmeasured
          unfold maxIndexChars
          exact ⟨chars, hchars, by omega⟩
        · cases hmeasured
      · unfold maxMemoryReadChars
        omega
    exact ⟨draft, documentBy source "", rfl, hparse, hreadable,
      (readable_iff (fun _ => "") draft _ hparse).mp hreadable⟩

end Sample

end FailureResolver.ReadableMemories
