import FailureResolver.MemoryIndex
import FailureResolver.RowText

/-!
The snapshot of memories a match works on. It holds what one scan of the memory
directory returned, or a part of that: documents that were parsed, one for each id.
-/

namespace FailureResolver.MemorySnapshot

open JsonRoundTrip JsonText JsonValue MemoryIndex MemoryMarkdown PyException PyText PyUuid
open ResolutionMemory RowText

section Parsed

structure WellFormed (document : MemoryDocument) : Prop where
  resolutionId : ∃ n < 2 ^ 128, document.resolutionId = formatUuid n
  distinct : Json.Distinct (.obj document.frontmatter)
  actions : document.dispatchedActions.all isMapping = true

theorem distinct_frontmatterValue (valueText : List Char) : (frontmatterValue valueText).Distinct := by
  unfold frontmatterValue
  cases hloads : loads valueText with
  | none => trivial
  | some value => exact distinct_loads hloads

theorem distinct_foldlM_frontmatter {lines : List (List Char)} {parsed parsed' : Fields}
    (hparsed : Json.Distinct (.obj parsed))
    (h : lines.foldlM addFrontmatterLine parsed = .ok parsed') : Json.Distinct (.obj parsed') := by
  induction lines generalizing parsed with
  | nil =>
    cases h
    exact hparsed
  | cons line rest ih =>
    rw [List.foldlM_cons, bind_eq_ok] at h
    obtain ⟨next, hline, hrest⟩ := h
    apply ih _ hrest
    unfold addFrontmatterLine at hline
    split at hline
    · cases hline
    · next key rawValue _ =>
      rw [rejectMemory_ite_eq_ok, rejectMemory_ite_eq_ok, Bool.not_eq_true] at hline
      obtain ⟨-, hfresh, hnext⟩ := hline
      have hset := distinct_set hparsed (String.ofList (stripChars key))
        (distinct_frontmatterValue (stripChars rawValue))
      unfold Fields.set at hset
      rw [hfresh, if_neg Bool.false_ne_true] at hset
      cases hnext
      exact hset

theorem distinct_parseFrontmatter {text : List Char} {parsed : Fields}
    (h : parseFrontmatter text = .ok parsed) : Json.Distinct (.obj parsed) := by
  unfold parseFrontmatter at h
  rw [bind_eq_ok] at h
  obtain ⟨lines, hlines, hcheck⟩ := h
  unfold checkFrontmatter at hcheck
  rw [rejectMemory_ite_eq_ok, rejectMemory_ite_eq_ok, rejectMemory_ite_eq_ok,
    rejectMemory_ite_eq_ok, rejectMemory_ite_eq_ok, rejectMemory_ite_eq_ok] at hcheck
  obtain ⟨-, -, -, -, -, -, hparsed⟩ := hcheck
  cases hparsed
  exact distinct_foldlM_frontmatter (distinct_obj.mpr (by simp)) hlines

theorem mapping_parseActions {frontmatter : Fields} {body : List Char} {actions : List Json}
    (h : parseActions frontmatter body = .ok actions) : actions.all isMapping = true := by
  unfold parseActions at h
  split at h
  · cases h
  · split at h
    · cases h
    · rw [rejectMemory_ite_eq_ok, rejectMemory_ite_eq_ok, Bool.not_eq_false] at h
      obtain ⟨hmapping, -, hactions⟩ := h
      cases hactions
      exact hmapping
    · cases h

theorem parseMemoryDocument_wellFormed {content : List Char} {document : MemoryDocument}
    (h : parseMemoryDocument content = .ok document) : WellFormed document := by
  unfold parseMemoryDocument at h
  simp only [bind_eq_ok] at h
  obtain ⟨parts, -, parsed, hparsed, resolutionId, hid, _, -, actions, hactions, evidence, -,
    signature, -, hdocument⟩ := h
  cases hdocument
  refine ⟨?_, ?_, ?_⟩
  · obtain ⟨n, hn, huuid⟩ := canonicalUuid_eq_ok hid
    refine ⟨n, hn, ?_⟩
    unfold MemoryDocument.resolutionId
    rw [get_set_self]
    exact huuid
  · exact distinct_set (distinct_parseFrontmatter hparsed) _ (by trivial)
  · exact mapping_parseActions hactions

end Parsed

section Snapshot

structure Snapshot where
  documents : List MemoryDocument
  distinct : (documents.map MemoryDocument.resolutionId).Nodup
  parsed : ∀ document ∈ documents, ∃ content, parseMemoryDocument content = .ok document

/-- The documents of a snapshot that satisfy a condition. -/
def Snapshot.filter (snapshot : Snapshot) (p : MemoryDocument → Bool) : Snapshot where
  documents := snapshot.documents.filter p
  distinct := snapshot.distinct.sublist (List.filter_sublist.map _)
  parsed := fun document hdocument => snapshot.parsed document (List.mem_of_mem_filter hdocument)

/-- `by_id[memory_id]`. -/
def Snapshot.document (snapshot : Snapshot) (memoryId : String) : Except PyExc MemoryDocument :=
  match snapshot.documents.find? fun document => document.resolutionId = memoryId with
  | some document => .ok document
  | none => .error ⟨.other "KeyError", memoryId⟩

theorem Snapshot.wellFormed {snapshot : Snapshot} {document : MemoryDocument}
    (h : document ∈ snapshot.documents) : WellFormed document := by
  obtain ⟨content, hparse⟩ := snapshot.parsed document h
  exact parseMemoryDocument_wellFormed hparse

theorem Snapshot.document_eq_ok {snapshot : Snapshot} {memoryId : String}
    {document : MemoryDocument} : snapshot.document memoryId = .ok document ↔
      document ∈ snapshot.documents ∧ document.resolutionId = memoryId := by
  unfold Snapshot.document
  constructor
  · intro h
    split at h
    · next hfind =>
      cases h
      exact ⟨List.mem_of_find?_eq_some hfind, by simpa using List.find?_some hfind⟩
    · cases h
  · intro h
    obtain ⟨hmem, hid⟩ := h
    have hfind : snapshot.documents.find? (fun document => document.resolutionId = memoryId) =
        some document := by
      rw [List.find?_eq_some_iff_append]
      refine ⟨by simpa using hid, ?_⟩
      obtain ⟨before, after, hsplit⟩ := List.append_of_mem hmem
      refine ⟨before, after, hsplit, fun other hother => ?_⟩
      have hnodup := snapshot.distinct
      rw [hsplit, List.map_append, List.nodup_append] at hnodup
      have hne := hnodup.2.2 other.resolutionId (List.mem_map_of_mem hother)
        document.resolutionId (by simp)
      simpa [hid] using hne
    rw [hfind]

/-- A scan of the memory directory is a snapshot. -/
theorem exists_snapshot {files : Files} {index : Index} (hnodup : (stems files).Nodup)
    (h : scanMemories files = .ok index) :
    ∃ snapshot : Snapshot, snapshot.documents = index.map Prod.snd := by
  have hindexes := (scanMemories_eq_ok hnodup).mp h
  have hids : (index.map Prod.snd).map MemoryDocument.resolutionId = index.map Prod.fst := by
    rw [List.map_map]
    apply List.map_congr_left
    intro entry hentry
    obtain ⟨file, -, -, hname, hid⟩ := (forall₂_mem hindexes).1 entry hentry
    rw [Function.comp_apply, hid, hname]
  refine ⟨⟨index.map Prod.snd, ?_, ?_⟩, rfl⟩
  · rw [hids, forall₂_keys hindexes]
    exact ((perm_sortedFiles files).map Prod.fst).nodup_iff.mpr hnodup
  · intro document hdocument
    obtain ⟨entry, hentry, rfl⟩ := List.mem_map.mp hdocument
    obtain ⟨file, -, hparse, -⟩ := (forall₂_mem hindexes).1 entry hentry
    exact ⟨file.2, hparse⟩

end Snapshot

end FailureResolver.MemorySnapshot
