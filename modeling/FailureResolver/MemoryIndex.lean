import FailureResolver.MemoryFrontmatter

/-!
The index of a memory directory. A write replaces the document of one resolution,
a scan parses every document in the order of the file names. After any sequence of
writes the scan returns the last draft of every resolution exactly if no last draft
has a kept line boundary in its frontmatter; one such draft can make the whole
directory unreadable.
-/

namespace FailureResolver.MemoryIndex

open FencedText JsonRoundTrip JsonText JsonValue PyException PyText PyUuid ResolutionMemory
open MemoryMarkdown MemorySections MemoryFrontmatter

section Files

/-- The documents of the directory, each under its file name without the suffix. -/
abbrev Files := List (String × List Char)

def putFile (files : Files) (stem : String) (content : List Char) : Files :=
  files.filter (fun file => file.1 ≠ stem) ++ [(stem, content)]

/-- A document that already reads as the content is left alone. -/
def writeFile (files : Files) (stem : String) (content : List Char) : Files :=
  if (files.lookup stem).map universalNewlines = some content then files
  else putFile files stem content

/-- The file that a successful `write_memory` leaves behind. -/
def writeMemory (strOf : Json → String) (files : Files) (draft : DraftFields) : Files :=
  writeFile files draft.source.resolutionId (renderMemory strOf draft)

def sortedFiles (files : Files) : Files := files.insertionSort (fun a b => a.1 ≤ b.1)

abbrev Index := List (String × MemoryDocument)

def addDocument (index : Index) (file : String × List Char) : Except PyExc Index := do
  let document ← parseMemoryDocument file.2
  if file.1 ≠ document.resolutionId then
    rejectMemory "Memory filename does not match resolution_id"
  else if document.resolutionId ∈ index.map Prod.fst then
    rejectMemory "Duplicate resolution_id in memories"
  else return index ++ [(document.resolutionId, document)]

def scanMemories (files : Files) : Except PyExc Index := (sortedFiles files).foldlM addDocument []

def stems (files : Files) : List String := files.map Prod.fst

theorem mem_putFile {files : Files} {stem : String} {content : List Char}
    {file : String × List Char} : file ∈ putFile files stem content ↔
      file ∈ files ∧ file.1 ≠ stem ∨ file = (stem, content) := by
  simp [putFile]

theorem nodup_putFile {files : Files} (h : (stems files).Nodup) (stem : String)
    (content : List Char) : (stems (putFile files stem content)).Nodup := by
  unfold stems putFile at *
  rw [List.map_append, List.nodup_append]
  refine ⟨h.sublist (List.filter_sublist.map Prod.fst), by simp, fun a ha b hb => ?_⟩
  rw [List.map_singleton, List.mem_singleton] at hb
  obtain ⟨file, hfile, rfl⟩ := List.mem_map.mp ha
  rw [hb]
  simpa using (List.mem_filter.mp hfile).2

theorem lookup_eq_some_iff {files : Files} (h : (stems files).Nodup) {stem : String}
    {content : List Char} : files.lookup stem = some content ↔ (stem, content) ∈ files := by
  constructor
  · intro hlookup
    obtain ⟨before, after, rfl, -⟩ := List.lookup_eq_some_iff.mp hlookup
    simp
  · intro hmem
    induction files with
    | nil => cases hmem
    | cons file rest ih =>
      obtain ⟨hfresh, hrest⟩ := List.nodup_cons.mp h
      rcases List.mem_cons.mp hmem with rfl | hmem
      · simp
      · have hne : (stem == file.1) = false := by
          rw [beq_eq_false_iff_ne]
          rintro rfl
          exact hfresh (List.mem_map.mpr ⟨_, hmem, rfl⟩)
        rw [List.lookup_cons, hne]
        exact ih hrest hmem

end Files

section Scan

def Indexes (file : String × List Char) (entry : String × MemoryDocument) : Prop :=
  parseMemoryDocument file.2 = .ok entry.2 ∧ entry.1 = file.1 ∧ entry.2.resolutionId = file.1

theorem addDocument_eq_ok {index index' : Index} {file : String × List Char}
    (hfresh : file.1 ∉ index.map Prod.fst) :
    addDocument index file = .ok index' ↔ ∃ entry, Indexes file entry ∧ index' = index ++ [entry] := by
  unfold addDocument
  rw [bind_eq_ok]
  constructor
  · rintro ⟨document, hparse, h⟩
    rw [rejectMemory_ite_eq_ok, rejectMemory_ite_eq_ok] at h
    obtain ⟨hname, -, h⟩ := h
    cases h
    rw [not_not] at hname
    exact ⟨(document.resolutionId, document), ⟨hparse, hname.symm, hname.symm⟩, rfl⟩
  · rintro ⟨⟨name, document⟩, ⟨hparse, hname, hid⟩, rfl⟩
    refine ⟨document, hparse, ?_⟩
    simp only at hname hid
    rw [rejectMemory_ite_eq_ok, rejectMemory_ite_eq_ok, hid]
    refine ⟨by simp, hfresh, ?_⟩
    rw [hname]
    rfl

/-- A scan of files with distinct names succeeds exactly if every file is read and
carries its own name. -/
theorem foldlM_addDocument {files : Files} {index index' : Index}
    (hnodup : (index.map Prod.fst ++ stems files).Nodup) :
    files.foldlM addDocument index = .ok index' ↔
      ∃ added, List.Forall₂ Indexes files added ∧ index' = index ++ added := by
  induction files generalizing index with
  | nil =>
    constructor
    · intro h
      cases h
      exact ⟨[], .nil, by simp⟩
    · rintro ⟨added, hadded, rfl⟩
      cases hadded
      simp [pure, Except.pure]
  | cons file rest ih =>
    have hfresh : file.1 ∉ index.map Prod.fst := by
      rw [List.nodup_append] at hnodup
      exact fun hmem => hnodup.2.2 file.1 hmem file.1 (by simp [stems]) rfl
    have hnext : ∀ entry, Indexes file entry →
        ((index ++ [entry]).map Prod.fst ++ stems rest).Nodup := by
      rintro entry ⟨-, hname, -⟩
      simpa [stems, hname] using hnodup
    rw [List.foldlM_cons, bind_eq_ok]
    constructor
    · rintro ⟨next, hadd, h⟩
      obtain ⟨entry, hentry, rfl⟩ := (addDocument_eq_ok hfresh).mp hadd
      obtain ⟨added, hadded, rfl⟩ := (ih (hnext entry hentry)).mp h
      exact ⟨entry :: added, .cons hentry hadded, by simp⟩
    · rintro ⟨added, hadded, rfl⟩
      cases hadded with
      | cons hentry hadded =>
        exact ⟨_, (addDocument_eq_ok hfresh).mpr ⟨_, hentry, rfl⟩,
          (ih (hnext _ hentry)).mpr ⟨_, hadded, by simp⟩⟩

theorem perm_sortedFiles (files : Files) : (sortedFiles files).Perm files :=
  List.perm_insertionSort _ files

theorem scanMemories_eq_ok {files : Files} (h : (stems files).Nodup) {index : Index} :
    scanMemories files = .ok index ↔ List.Forall₂ Indexes (sortedFiles files) index := by
  have hsorted : (stems (sortedFiles files)).Nodup :=
    ((perm_sortedFiles files).map Prod.fst).nodup_iff.mpr h
  unfold scanMemories
  rw [foldlM_addDocument (by simpa using hsorted)]
  simp

theorem forall₂_keys {files : Files} {index : Index} (h : List.Forall₂ Indexes files index) :
    index.map Prod.fst = stems files := by
  induction h with
  | nil => rfl
  | cons hentry _ ih =>
    rw [List.map_cons, hentry.2.1, ih]
    rfl

theorem forall₂_mem {files : Files} {index : Index} (h : List.Forall₂ Indexes files index) :
    (∀ entry ∈ index, ∃ file ∈ files, Indexes file entry) ∧
      ∀ file ∈ files, ∃ entry ∈ index, Indexes file entry := by
  induction h with
  | nil => simp
  | cons hentry _ ih =>
    constructor
    · refine List.forall_mem_cons.mpr ⟨⟨_, List.mem_cons_self .., hentry⟩, fun entry hmem => ?_⟩
      obtain ⟨file, hfile, hindexes⟩ := ih.1 entry hmem
      exact ⟨file, List.mem_cons_of_mem _ hfile, hindexes⟩
    · refine List.forall_mem_cons.mpr ⟨⟨_, List.mem_cons_self .., hentry⟩, fun file hmem => ?_⟩
      obtain ⟨entry, hentry, hindexes⟩ := ih.2 file hmem
      exact ⟨entry, List.mem_cons_of_mem _ hentry, hindexes⟩

theorem exists_forall₂ {files : Files} (h : ∀ file ∈ files, ∃ entry, Indexes file entry) :
    ∃ index, List.Forall₂ Indexes files index := by
  induction files with
  | nil => exact ⟨[], .nil⟩
  | cons file rest ih =>
    obtain ⟨⟨entry, hentry⟩, hrest⟩ := List.forall_mem_cons.mp h
    obtain ⟨index, hindex⟩ := ih hrest
    exact ⟨entry :: index, .cons hentry hindex⟩

end Scan

section Document

variable {draft : DraftFields} {source : ResolutionSource} (strOf : Json → String)

/-- The document is the draft, as far as a document goes. -/
structure Recovers (document : MemoryDocument) (draft : DraftFields) : Prop where
  frontmatter : ∀ key ∈ frontmatterFields, Json.pyEq (Fields.get document.frontmatter key)
    (Fields.get (frontmatter draft) key) = true
  sourceHash : document.sourceHash = draft.source.sourceHash
  shows : Shows document draft

theorem canonicalUuid_genuine (h : source.Genuine) (fieldName : String) :
    canonicalUuid (.str source.resolutionId) fieldName = .ok source.resolutionId := by
  obtain ⟨n, hn, hid⟩ := h.resolutionId
  rw [hid]
  simp only [canonicalUuid, strip_formatUuid, parseUuid_formatUuid hn]

theorem isHash_genuine (h : source.Genuine) : isHash source.sourceHash = true := by
  unfold isHash
  rw [h.sourceHash, Bool.and_eq_true, List.all_eq_true]
  refine ⟨?_, fun c hc => ?_⟩
  · rw [decide_eq_true_eq, ← String.length_toList, Sha256.length_hexDigest]
  · obtain ⟨d, hd, rfl⟩ := Sha256.mem_hexDigest hc
    exact isLowerHex_hexDigit d hd

theorem set_get_self {fields : Fields} {key : String} (hnodup : (fields.map Prod.fst).Nodup)
    (hkey : key ∈ fields.map Prod.fst) : Fields.set fields key (Fields.get fields key) = fields := by
  unfold Fields.set
  rw [if_pos (has_eq_true_iff.mpr hkey)]
  conv_rhs => rw [← List.map_id fields]
  refine List.map_congr_left fun entry hentry => ?_
  split
  · next heq =>
    rw [← heq, get_of_mem hnodup entry hentry]
    rfl
  · rfl

theorem get_frontmatter (draft : DraftFields) (entry : String × Json)
    (h : entry ∈ frontmatter draft) : Fields.get (frontmatter draft) entry.1 = entry.2 :=
  get_of_mem (keys_frontmatter draft ▸ nodup_frontmatterFields) entry h

theorem parseActions_frontmatter (h : draft.source.Genuine) :
    parseActions (frontmatter draft) (renderedBody strOf draft) =
      .ok draft.source.dispatchedActions := by
  have hcount := get_frontmatter draft
    ("action_count", .int draft.source.dispatchedActions.length) (by simp [frontmatter])
  have hmapping : draft.source.dispatchedActions.all isMapping = true := by
    obtain ⟨actions, hactions, hobjects⟩ := h.actionRuns
    rw [Genuine.dispatchedActions_eq h] at hactions
    cases hactions
    rw [List.all_eq_true]
    intro action haction
    obtain ⟨members, rfl⟩ := hobjects action haction
    rfl
  have hequal : Json.pyEq (.int draft.source.dispatchedActions.length)
      (.int draft.source.dispatchedActions.length) = true := by
    simp [Json.pyEq, Json.numberEq, Json.number, Number.eq]
  simp only at hcount
  unfold parseActions
  rw [search_of_sections (sections_actions strOf h)]
  dsimp only
  rw [loads_actions h]
  simp only [hmapping, hcount, hequal, Bool.true_eq_false, if_false]

/-- A clean draft is read back as a document that recovers it. -/
theorem parse_clean (hgenuine : draft.source.Genuine) (hprepared : draft.Prepared)
    (hclean : CleanFrontmatter draft) :
    ∃ document, parseMemoryDocument (renderMemory strOf draft) = .ok document ∧
      document.frontmatter = frontmatter draft ∧ document.body = renderedBody strOf draft := by
  obtain ⟨evidence, -, hevidence⟩ := parseEvidence_renderedBody strOf hgenuine
  obtain ⟨signature, -, hsignature⟩ := parseSignature_renderedBody strOf hgenuine hprepared
  have hid := get_frontmatter draft
    ("resolution_id", .str draft.source.resolutionId) (by simp [frontmatter])
  have hhash := get_frontmatter draft
    ("source_hash", .str draft.source.sourceHash) (by simp [frontmatter])
  simp only at hid hhash
  have hset : Fields.set (frontmatter draft) "resolution_id" (.str draft.source.resolutionId) =
      frontmatter draft := by
    rw [← hid]
    exact set_get_self (keys_frontmatter draft ▸ nodup_frontmatterFields)
      (by rw [keys_frontmatter]; decide)
  have hsourceHash : sourceHashOf (frontmatter draft) = .ok draft.source.sourceHash := by
    unfold sourceHashOf
    rw [hhash]
    simp only [isHash_genuine hgenuine, if_true]
  refine ⟨⟨frontmatter draft, draft.source.dispatchedActions, renderedBody strOf draft, evidence,
    signature⟩, ?_, rfl, rfl⟩
  unfold parseMemoryDocument
  rw [universalNewlines_renderMemory strOf hgenuine, splitDocument_renderMemory]
  refine bind_eq_ok.mpr ⟨_, rfl, bind_eq_ok.mpr ⟨_, parseFrontmatter_clean hgenuine hclean,
    bind_eq_ok.mpr ⟨draft.source.resolutionId, ?_, ?_⟩⟩⟩
  · rw [hid]
    exact canonicalUuid_genuine hgenuine _
  · rw [hset]
    exact bind_eq_ok.mpr ⟨_, hsourceHash, bind_eq_ok.mpr ⟨_, parseActions_frontmatter strOf hgenuine,
      bind_eq_ok.mpr ⟨_, hevidence, bind_eq_ok.mpr ⟨_, hsignature, rfl⟩⟩⟩⟩

theorem sorted_frontmatter (h : draft.source.Genuine) :
    ∀ entry ∈ frontmatter draft, entry.2.sortKeys = entry.2 := by
  have hoptional : ∀ text : Option String,
      (optionalText text).sortKeys = optionalText text := by
    intro text
    cases text <;> rfl
  unfold frontmatter
  simp only [List.forall_mem_cons, hoptional, Genuine.sorted_get h, Json.sortKeys, true_and]
  simp

theorem recovers_of_frontmatter (h : draft.source.Genuine) {document : MemoryDocument}
    (hfrontmatter : document.frontmatter = frontmatter draft) (hshows : Shows document draft) :
    Recovers document draft := by
  have hwritable := writable_frontmatter h
  refine ⟨fun key hkey => ?_, ?_, hshows⟩
  · rw [← keys_frontmatter draft] at hkey
    obtain ⟨entry, hentry, rfl⟩ := List.mem_map.mp hkey
    have hequal := pyEq_sortKeys (hwritable.distinct _ hentry) (hwritable.printable _ hentry)
    rw [sorted_frontmatter h entry hentry] at hequal
    rwa [hfrontmatter, get_frontmatter draft entry hentry]
  · have hhash := get_frontmatter draft
      ("source_hash", .str draft.source.sourceHash) (by simp [frontmatter])
    simp only at hhash
    unfold MemoryDocument.sourceHash
    rw [hfrontmatter, hhash]

/-- Only a clean draft is recovered. -/
theorem clean_of_recovers (h : draft.source.Genuine) {document : MemoryDocument}
    (hparse : parseMemoryDocument (renderMemory strOf draft) = .ok document)
    (hrecovers : Recovers document draft) : CleanFrontmatter draft := by
  by_contra hclean
  unfold parseMemoryDocument at hparse
  rw [universalNewlines_renderMemory strOf h, splitDocument_renderMemory] at hparse
  obtain ⟨⟨text, body⟩, heq, hparse⟩ := bind_eq_ok.mp hparse
  cases heq
  obtain ⟨parsed, hparsed, hparse⟩ := bind_eq_ok.mp hparse
  obtain ⟨resolutionId, -, hparse⟩ := bind_eq_ok.mp hparse
  obtain ⟨sourceHash, -, hparse⟩ := bind_eq_ok.mp hparse
  obtain ⟨actions, -, hparse⟩ := bind_eq_ok.mp hparse
  obtain ⟨evidence, -, hparse⟩ := bind_eq_ok.mp hparse
  obtain ⟨signature, -, hparse⟩ := bind_eq_ok.mp hparse
  cases hparse
  obtain ⟨entry, hentry, hseparator, hdiffers⟩ := parseFrontmatter_cut h hclean hparsed
  have hne : entry.1 ≠ "resolution_id" := by
    intro heq
    have hid := get_frontmatter draft
      ("resolution_id", .str draft.source.resolutionId) (by simp [frontmatter])
    simp only at hid
    rw [← heq, get_frontmatter draft entry hentry] at hid
    apply hseparator
    rw [hid]
    intro s hs c hc
    obtain ⟨n, -, hformat⟩ := h.resolutionId
    rw [List.mem_singleton.mp hs, hformat] at hc
    have hplain := formatUuid_plain hc
    by_contra hsep
    rw [Bool.not_eq_false] at hsep
    have hbreak := isLineBreak_of_blank (c := c) (by
      have := isSeparator_high hsep
      omega)
    rw [hplain.2.2.2, hsep] at hbreak
    cases hbreak
  have hkey : entry.1 ∈ frontmatterFields := by
    rw [← keys_frontmatter draft]
    exact List.mem_map_of_mem hentry
  have hequal := hrecovers.frontmatter entry.1 hkey
  simp only at hequal
  rw [get_set_other hne, get_frontmatter draft entry hentry, hdiffers] at hequal
  cases hequal

end Document

section Writes

variable (strOf : Json → String)

/-- The directory after a sequence of writes, from one without memories. -/
def writeMemories (strOf : Json → String) (drafts : List MemoryDraft) : Files :=
  drafts.foldl (fun files draft => writeMemory strOf files draft.toDraftFields) []

def lastDraft (drafts : List MemoryDraft) (id : String) : Option MemoryDraft :=
  drafts.reverse.find? (fun draft => draft.source.resolutionId = id)

theorem lastDraft_concat (drafts : List MemoryDraft) (draft : MemoryDraft) (id : String) :
    lastDraft (drafts ++ [draft]) id =
      if draft.source.resolutionId = id then some draft else lastDraft drafts id := by
  unfold lastDraft
  rw [List.reverse_append, List.reverse_singleton, List.singleton_append, List.find?_cons]
  split <;> simp_all

theorem lastDraft_eq_none_iff {drafts : List MemoryDraft} {id : String} :
    lastDraft drafts id = none ↔ ∀ draft ∈ drafts, draft.source.resolutionId ≠ id := by
  unfold lastDraft
  rw [List.find?_eq_none]
  simp

theorem lastDraft_id {drafts : List MemoryDraft} {id : String} {draft : MemoryDraft}
    (h : lastDraft drafts id = some draft) : draft.source.resolutionId = id := by
  simpa using List.find?_some h

theorem resolutionId_written {drafts : List MemoryDraft} {id : String} :
    (∃ draft ∈ drafts, draft.source.resolutionId = id) ↔
      ∃ draft, lastDraft drafts id = some draft := by
  cases hlast : lastDraft drafts id with
  | none =>
    have hnone := lastDraft_eq_none_iff.mp hlast
    constructor
    · rintro ⟨draft, hmem, hid⟩
      exact absurd hid (hnone draft hmem)
    · rintro ⟨draft, ⟨⟩⟩
  | some draft =>
    have hmem := List.mem_of_find?_eq_some hlast
    exact ⟨fun _ => ⟨draft, rfl⟩,
      fun _ => ⟨draft, List.mem_reverse.mp hmem, lastDraft_id hlast⟩⟩

/-- The directory holds exactly the last draft of every resolution. -/
structure Holds (files : Files) (drafts : List MemoryDraft) : Prop where
  nodup : (stems files).Nodup
  files : ∀ file, file ∈ files ↔ ∃ draft, lastDraft drafts file.1 = some draft ∧
    file.2 = renderMemory strOf draft.toDraftFields

theorem Holds.write {files : Files} {drafts : List MemoryDraft} (h : Holds strOf files drafts)
    (draft : MemoryDraft) :
    Holds strOf (writeMemory strOf files draft.toDraftFields) (drafts ++ [draft]) := by
  unfold writeMemory writeFile
  split
  · next hsame =>
    obtain ⟨stored, hlookup, hread⟩ := Option.map_eq_some_iff.mp hsame
    have hfile := (lookup_eq_some_iff h.nodup).mp hlookup
    obtain ⟨old, hold, hstored⟩ := (h.files _).mp hfile
    simp only at hold hstored
    rw [hstored, universalNewlines_renderMemory strOf old.genuine] at hread
    refine ⟨h.nodup, fun file => ?_⟩
    rw [h.files, lastDraft_concat]
    split
    · next hid =>
      rw [← hid, hold]
      simp [hread]
    · rfl
  · refine ⟨nodup_putFile h.nodup _ _, fun file => ?_⟩
    rw [mem_putFile, lastDraft_concat]
    split
    · next hid =>
      constructor
      · rintro (⟨-, hne⟩ | rfl)
        · exact absurd hid.symm hne
        · exact ⟨draft, rfl, rfl⟩
      · rintro ⟨same, heq, hcontent⟩
        cases heq
        exact .inr (Prod.ext hid.symm hcontent)
    · next hid =>
      rw [h.files]
      constructor
      · rintro (⟨hfile, -⟩ | rfl)
        · exact hfile
        · exact absurd rfl hid
      · exact fun hfile => .inl ⟨hfile, fun heq => hid heq.symm⟩

/-- Every sequence of writes leaves the last drafts behind. -/
theorem holds_writeMemories (drafts : List MemoryDraft) :
    Holds strOf (writeMemories strOf drafts) drafts := by
  induction drafts using List.reverseRecOn with
  | nil => exact ⟨List.nodup_nil, fun file => by simp [writeMemories, lastDraft]⟩
  | append_singleton drafts draft ih =>
    have hstep := ih.write strOf draft
    unfold writeMemories at hstep ⊢
    rwa [List.foldl_append]

/-- The index is the last draft of every resolution, and nothing else. -/
structure IndexOf (index : Index) (drafts : List MemoryDraft) : Prop where
  nodup : (index.map Prod.fst).Nodup
  ids : ∀ id, id ∈ index.map Prod.fst ↔ ∃ draft ∈ drafts, draft.source.resolutionId = id
  recovers : ∀ entry ∈ index, ∀ draft, lastDraft drafts entry.1 = some draft →
    Recovers entry.2 draft.toDraftFields

/-- The last drafts have no kept line boundary in their frontmatter. -/
def LastDraftsClean (drafts : List MemoryDraft) : Prop :=
  ∀ id draft, lastDraft drafts id = some draft → CleanFrontmatter draft.toDraftFields

theorem scan_of_clean {files : Files} {drafts : List MemoryDraft} (h : Holds strOf files drafts)
    (hclean : LastDraftsClean drafts) :
    ∃ index, scanMemories files = .ok index ∧ IndexOf index drafts := by
  have hread : ∀ file ∈ files, ∃ entry, Indexes file entry := by
    intro file hfile
    obtain ⟨draft, hlast, hcontent⟩ := (h.files file).mp hfile
    obtain ⟨document, hparse, hfrontmatter, -⟩ := parse_clean strOf draft.genuine draft.prepared
      (hclean file.1 draft hlast)
    refine ⟨(file.1, document), hcontent ▸ hparse, rfl, ?_⟩
    have hid := get_frontmatter draft.toDraftFields
      ("resolution_id", .str draft.source.resolutionId) (by simp [frontmatter])
    simp only at hid
    unfold MemoryDocument.resolutionId
    rw [hfrontmatter, hid]
    exact lastDraft_id hlast
  have hsorted : ∀ file ∈ sortedFiles files, ∃ entry, Indexes file entry :=
    fun file hfile => hread file ((perm_sortedFiles files).mem_iff.mp hfile)
  obtain ⟨index, hindex⟩ := exists_forall₂ hsorted
  have hkeys := forall₂_keys hindex
  have hperm : (index.map Prod.fst).Perm (stems files) := by
    rw [hkeys]
    exact (perm_sortedFiles files).map Prod.fst
  refine ⟨index, (scanMemories_eq_ok h.nodup).mpr hindex, hperm.nodup_iff.mpr h.nodup, ?_, ?_⟩
  · intro id
    rw [hperm.mem_iff, resolutionId_written]
    constructor
    · intro hmem
      obtain ⟨file, hfile, rfl⟩ := List.mem_map.mp hmem
      obtain ⟨draft, hlast, -⟩ := (h.files file).mp hfile
      exact ⟨draft, hlast⟩
    · rintro ⟨draft, hlast⟩
      exact List.mem_map.mpr ⟨(id, _), (h.files _).mpr ⟨draft, hlast, rfl⟩, rfl⟩
  · intro entry hentry draft hlast
    obtain ⟨file, hfile, hparse, hname, -⟩ := (forall₂_mem hindex).1 entry hentry
    obtain ⟨same, hsame, hcontent⟩ :=
      (h.files file).mp ((perm_sortedFiles files).mem_iff.mp hfile)
    rw [hname, hsame] at hlast
    cases hlast
    rw [hcontent] at hparse
    obtain ⟨document, hparse', hfrontmatter, -⟩ := parse_clean strOf draft.genuine draft.prepared
      (hclean file.1 draft hsame)
    rw [hparse] at hparse'
    cases hparse'
    exact recovers_of_frontmatter draft.genuine hfrontmatter
      (parse_renderMemory_shows strOf draft.genuine draft.prepared hparse)

theorem clean_of_scan {files : Files} {drafts : List MemoryDraft} (h : Holds strOf files drafts)
    {index : Index} (hscan : scanMemories files = .ok index) (hindex : IndexOf index drafts) :
    LastDraftsClean drafts := by
  intro id draft hlast
  have hfile : (id, renderMemory strOf draft.toDraftFields) ∈ sortedFiles files :=
    (perm_sortedFiles files).mem_iff.mpr ((h.files _).mpr ⟨draft, hlast, rfl⟩)
  have hall := (scanMemories_eq_ok h.nodup).mp hscan
  obtain ⟨entry, hentry, hparse, hname, -⟩ := (forall₂_mem hall).2 _ hfile
  simp only at hparse hname
  exact clean_of_recovers strOf draft.genuine hparse
    (hindex.recovers entry hentry draft (by rw [hname]; exact hlast))

/-- After any sequence of writes, the scan returns the last draft of every
resolution exactly if these drafts have a clean frontmatter. -/
theorem scan_writeMemories (drafts : List MemoryDraft) :
    (∃ index, scanMemories (writeMemories strOf drafts) = .ok index ∧ IndexOf index drafts) ↔
      LastDraftsClean drafts := by
  have hholds := holds_writeMemories strOf drafts
  constructor
  · rintro ⟨index, hscan, hindex⟩
    exact clean_of_scan strOf hholds hscan hindex
  · exact scan_of_clean strOf hholds

end Writes

section Separator

/-- A resolution whose site name holds a line separator. -/
def brokenRow : Fields :=
  [("resolution_id", .str "11111111-1111-1111-1111-111111111111"),
    ("site", .str (String.ofList ['W', Char.ofNat 0x2028, 'E'])), ("outcome", .str "recorded"),
    ("applied", .bool false), ("action_runs", .arr [])]

def noteOn (source : ResolutionSource) : DraftFields :=
  { source
    memoryKind := .negative
    actionable := false
    failureSummary := "The door stayed closed."
    recoverySummary := "Nothing was done." }

def separatorIn (source : Except PyExc ResolutionSource) (key : String) : Bool :=
  match source with
  | .ok source => decide (¬ SeparatorFree (Fields.get source.payload key))
  | .error _ => false

theorem decoded_brokenRow : Decoded (.obj brokenRow) := by
  refine ⟨distinct_obj.mpr ⟨by decide, ?_⟩, rfl⟩
  simp only [brokenRow, List.forall_mem_cons]
  exact ⟨trivial, trivial, trivial, trivial, trivial, by simp⟩

/-- The payload of the row has its site. -/
theorem brokenRow_site : separatorIn (resolutionSourceFromRow brokenRow) "site" = true := by
  have hid : canonicalUuid (Fields.get brokenRow "resolution_id") "resolution_id" =
      .ok "11111111-1111-1111-1111-111111111111" := by decide +kernel
  have houtcome : optionalRowText brokenRow "outcome" = .ok (some "recorded") := by decide
  let payload : Fields :=
    payloadOfRow brokenRow "11111111-1111-1111-1111-111111111111" none "recorded" false
  have hdecoded : Decoded (.obj (withCurrentMap brokenRow payload)) :=
    inherits_withCurrentMap hereditary_decoded decoded_brokenRow (inherits_payloadOfRow
      hereditary_decoded (fun _ => ⟨trivial, rfl⟩) (fun _ => ⟨trivial, rfl⟩) decoded_brokenRow _ _ _ _)
  obtain ⟨source, hsource, hholds⟩ := resolutionSourceFromRow_of_parts hid rfl rfl houtcome rfl
    hdecoded rfl
  rw [hsource]
  refine decide_eq_true ?_
  rw [get_sortKeys hdecoded.distinct hholds.payload.symm,
    get_withCurrentMap brokenRow payload (by decide),
    get_payloadOfRow brokenRow _ _ _ _ (by decide) (by decide)]
  decide

/-- One write of an accepted draft leaves a directory that is not read back. -/
theorem brokenRow_lost : ∃ draft : MemoryDraft,
    resolutionSourceFromRow brokenRow = .ok draft.source ∧
      draft.toDraftFields = noteOn draft.source ∧
      ¬ ∃ index, scanMemories (writeMemories (fun _ => "") [draft]) = .ok index ∧
        IndexOf index [draft] := by
  have hbroken := brokenRow_site
  cases hrow : resolutionSourceFromRow brokenRow with
  | error e =>
    rw [hrow] at hbroken
    cases hbroken
  | ok source =>
    rw [hrow] at hbroken
    have hsite : ¬ SeparatorFree (Fields.get source.payload "site") := of_decide_eq_true hbroken
    have hgenuine := resolutionSourceFromRow_genuine decoded_brokenRow.distinct (by decide) hrow
    let draft : MemoryDraft :=
      ⟨noteOn source, hgenuine, ⟨fun _ h => (by cases h), fun h => by cases h⟩⟩
    refine ⟨draft, rfl, rfl, ?_⟩
    rintro ⟨index, hscan, hindex⟩
    have hclean := clean_of_scan _ (holds_writeMemories _ _) hscan hindex
    have hlast : lastDraft ([] ++ [draft]) source.resolutionId = some draft := by
      rw [lastDraft_concat]
      exact if_pos rfl
    exact hsite (hclean _ draft hlast ("site", Fields.get source.payload "site")
      (by simp [frontmatter, draft, noteOn]))

end Separator

end FailureResolver.MemoryIndex
