import FailureResolver.MemorySnapshot
import FailureResolver.RetrievalIndex

/-!
What the index keeps of a memory. The parser finds the executable section by its exact
heading and fence, the index cuts the text at the first heading with the title of a
generated section, however that title is spelled. A document with an executable section
always has such a heading, so what follows the first one never reaches the index.
-/

namespace FailureResolver.HiddenActions

open FencedText JsonText JsonValue MemoryMarkdown MemorySnapshot PyException PyText
open ResolutionMemory RetrievalIndex

section Lines

variable {lines : List (List Char)} {line : List Char}

/-- The lines before the first heading of a generated section, whether or not the line
of the heading is terminated. -/
def linesBefore : List (List Char) → List Char
  | [] => []
  | [last] => if isProseBoundary last then [] else last
  | line :: rest => if isProseBoundary line then [] else line ++ '\n' :: linesBefore rest

/-- The text of a body before its first heading of a generated section. -/
def textBefore (body : List Char) : List Char := linesBefore (splitOnChar '\n' body)

/-- Behind a terminated heading the last line does not matter. -/
theorem proseLines_eq (h : ∃ line ∈ lines.dropLast, isProseBoundary line = true) :
    proseLines lines = linesBefore lines := by
  induction lines with
  | nil => rfl
  | cons line rest ih =>
    cases rest with
    | nil =>
      obtain ⟨line, hline, -⟩ := h
      cases hline
    | cons next rest =>
      rw [proseLines, linesBefore]
      by_cases hboundary : isProseBoundary line = true
      · rw [if_pos hboundary, if_pos hboundary]
      · rw [if_neg hboundary, if_neg hboundary, ih]
        obtain ⟨other, hother, hheading⟩ := h
        rw [List.dropLast_cons_cons, List.mem_cons] at hother
        rcases hother with rfl | hother
        · exact absurd hheading hboundary
        · exact ⟨other, hother, hheading⟩
      · exact List.cons_ne_nil _ _
      · exact List.cons_ne_nil _ _

theorem mem_dropLast_append {before after : List (List Char)} (hafter : after ≠ []) :
    line ∈ (before ++ line :: after).dropLast := by
  rw [List.dropLast_append_of_ne_nil (List.cons_ne_nil _ _), List.dropLast_cons_of_ne_nil hafter]
  simp

end Lines

section Sections

variable {heading body text : List Char}

theorem sectionAt_line (h : sectionAt heading body = some text) :
    ∃ rest, body = heading ++ '\n' :: rest := by
  unfold sectionAt at h
  rw [Option.bind_eq_some_iff] at h
  obtain ⟨rest, hrest, -⟩ := h
  rw [List.dropPrefix?_eq_some_iff] at hrest
  obtain ⟨start, hbody, hstart⟩ := hrest
  rw [beq_iff_eq] at hstart
  refine ⟨openingFence ++ '\n' :: rest, ?_⟩
  rw [hbody, hstart]
  simp [opening, unlines]

theorem searchLater_line (h : searchLater heading body = some text) :
    ∃ before rest, body = before ++ '\n' :: (heading ++ '\n' :: rest) := by
  induction body with
  | nil => cases h
  | cons c body ih =>
    rw [searchLater] at h
    split at h
    · next found hfound =>
      split at hfound
      · next hc =>
        obtain ⟨rest, rfl⟩ := sectionAt_line hfound
        exact ⟨[], rest, by rw [hc]; rfl⟩
      · cases hfound
    · obtain ⟨before, rest, rfl⟩ := ih h
      exact ⟨c :: before, rest, rfl⟩

/-- A section that is found has its heading on a terminated line. -/
theorem search_line (hplain : splitOnChar '\n' heading = [heading])
    (h : search heading body = some text) : heading ∈ (splitOnChar '\n' body).dropLast := by
  unfold search at h
  split at h
  · next found hfound =>
    obtain ⟨rest, rfl⟩ := sectionAt_line hfound
    rw [splitOnChar_append, hplain]
    exact @mem_dropLast_append heading [] _ (splitOnChar_ne_nil _ _)
  · obtain ⟨before, rest, rfl⟩ := searchLater_line h
    rw [splitOnChar_append, splitOnChar_append, hplain]
    exact mem_dropLast_append (splitOnChar_ne_nil _ _)

end Sections

section Documents

variable {content content' : List Char} {document document' : MemoryDocument}

/-- The prose of a parsed document is what stands before its first generated section. -/
theorem generalizedProse_eq (h : parseMemoryDocument content = .ok document) :
    generalizedProse document.body = stripChars (textBefore document.body) := by
  have hactions : ∃ actions, parseActions document.frontmatter document.body = .ok actions := by
    unfold parseMemoryDocument at h
    simp only [bind_eq_ok] at h
    obtain ⟨parts, -, parsed, -, resolutionId, -, _, -, actions, hactions, evidence, -,
      signature, -, hdocument⟩ := h
    cases hdocument
    exact ⟨actions, hactions⟩
  obtain ⟨actions, hactions⟩ := hactions
  unfold parseActions at hactions
  split at hactions
  · cases hactions
  · next text hsearch =>
    have hline := search_line (by decide : splitOnChar '\n' actionsHeading = [actionsHeading])
      hsearch
    have hboundary : isProseBoundary actionsHeading = true := by decide +kernel
    unfold generalizedProse textBefore
    rw [proseLines_eq ⟨_, hline, hboundary⟩]

def SameObject (members members' : Fields) : Prop :=
  Json.sortKeys (.obj members) = Json.sortKeys (.obj members')

theorem metadataOf_eq (h : SameObject document.frontmatter document'.frontmatter) :
    metadataOf document = metadataOf document' := by
  unfold metadataOf
  rw [h]

/-- The id of a document is the one of its sorted frontmatter. -/
theorem resolutionId_sorted (hdocument : WellFormed document) {sorted : Fields}
    (hsorted : Json.sortKeys (.obj document.frontmatter) = .obj sorted) :
    document.resolutionId = match Fields.get sorted "resolution_id" with
      | .str s => s
      | _ => "" := by
  rw [get_sortKeys hdocument.distinct hsorted]
  unfold MemoryDocument.resolutionId
  cases Fields.get document.frontmatter "resolution_id" <;> simp [Json.sortKeys]

theorem indentedJson_congr {value value' : Json} (h : value.sortKeys = value'.sortKeys) :
    indentedJson value = indentedJson value' := by
  unfold indentedJson
  rw [h]

theorem jsonText_congr {value value' : Json} (h : value.sortKeys = value'.sortKeys) :
    jsonText value = jsonText value' := by
  unfold jsonText
  rw [h]

/-- What stands at and behind the first heading of a generated section never reaches the
index: two memories that agree on everything else are the same to it, candidates or not. -/
theorem actions_hidden (h : parseMemoryDocument content = .ok document)
    (h' : parseMemoryDocument content' = .ok document')
    (hfrontmatter : SameObject document.frontmatter document'.frontmatter)
    (hevidence : (objectOf document.episodeEvidence).sortKeys =
      (objectOf document'.episodeEvidence).sortKeys)
    (hsignature : (objectOf document.retrievalSignature).sortKeys =
      (objectOf document'.retrievalSignature).sortKeys)
    (htext : textBefore document.body = textBefore document'.body) :
    indexDocument document = indexDocument document' := by
  have hmetadata := metadataOf_eq hfrontmatter
  have hprose : generalizedProse document.body = generalizedProse document'.body := by
    rw [generalizedProse_eq h, generalizedProse_eq h', htext]
  have hid : document.resolutionId = document'.resolutionId := by
    have hsorted := sortKeys_obj document.frontmatter
    rw [resolutionId_sorted (parseMemoryDocument_wellFormed h) hsorted,
      resolutionId_sorted (parseMemoryDocument_wellFormed h') (hfrontmatter ▸ hsorted)]
  unfold indexDocument retrievalMarkdown jsonSection
  dsimp only
  rw [hmetadata, hprose, hid, indentedJson_congr hevidence, indentedJson_congr hsignature,
    jsonText_congr hevidence, jsonText_congr hsignature]

/-- What a parse takes from the two parts of a file. -/
theorem parseMemoryDocument_parts {text body : List Char}
    (hparts : splitDocument (universalNewlines content) = .ok (text, body))
    (h : parseMemoryDocument content = .ok document) : document.body = body ∧
      (∃ parsed resolutionId, parseFrontmatter text = .ok parsed ∧
        canonicalUuid (Fields.get parsed "resolution_id") "resolution_id" = .ok resolutionId ∧
        document.frontmatter = Fields.set parsed "resolution_id" (.str resolutionId)) ∧
      parseEvidence evidenceHeading "Episode-evidence JSON is invalid"
        "Episode evidence is invalid" body = .ok document.episodeEvidence ∧
      parseEvidence signatureHeading "Retrieval-signature JSON is invalid"
        "Retrieval signature is invalid" body = .ok document.retrievalSignature := by
  unfold parseMemoryDocument at h
  rw [hparts] at h
  simp only [bind_eq_ok] at h
  obtain ⟨parts, hsame, parsed, hparsed, resolutionId, hid, _, -, actions, -, evidence, hevidence,
    signature, hsignature, hdocument⟩ := h
  cases hsame
  cases hdocument
  exact ⟨rfl, ⟨parsed, resolutionId, hparsed, hid, rfl⟩, hevidence, hsignature⟩

/-- Two files with the same frontmatter and the same prose, without optional sections. -/
def sampleAgrees (content content' : List Char) : Bool :=
  match splitDocument (universalNewlines content), splitDocument (universalNewlines content') with
  | .ok (text, body), .ok (text', body') =>
      text = text' && textBefore body = textBefore body' &&
        [evidenceHeading, signatureHeading].all fun heading =>
          (search heading body).isNone && (search heading body').isNone
  | _, _ => false

def sampleLines : List (List Char) :=
  ["schema_version: 1".toList, "source: public.flow_failure_resolutions".toList,
    "source_hash: 0000000000000000000000000000000000000000000000000000000000000000".toList,
    "resolution_id: 11111111-1111-1111-1111-111111111111".toList, "failure_id: null".toList,
    "memory_kind: positive".toList, "actionable: true".toList, "sysid: null".toList,
    "site_id: null".toList, "site: null".toList, "floor: null".toList, "room_number: null".toList,
    "map_id: null".toList, "map_name: null".toList, "map_observed_at: null".toList,
    "flow_id: null".toList, "flow_name: null".toList, "area_name: null".toList,
    "item_name: null".toList, "failure_status: null".toList, "failed_command: null".toList,
    "outcome: resolved".toList, "applied: true".toList, "action_count: 1".toList,
    "model: null".toList, "response_id: null".toList, "captured_at: null".toList,
    "resolved_at: null".toList, "created_at: null".toList]

def sampleContent (command trailer : List Char) : List Char :=
  unlines ([rule] ++ sampleLines ++ [rule, "The door stayed closed.".toList, actionsHeading,
    openingFence, "[\x7b\"command\": \"".toList ++ command ++ "\"\x7d]".toList, closingFence,
    trailer])

theorem sample_parses : (parseMemoryDocument (sampleContent "open_door".toList [])).isOk = true ∧
    (parseMemoryDocument (sampleContent "close_door".toList
      "## Retrieval Signature".toList)).isOk = true ∧
    sampleAgrees (sampleContent "open_door".toList [])
      (sampleContent "close_door".toList "## Retrieval Signature".toList) = true := by
  decide +kernel

theorem actions_hidden_sample : ∃ document document',
    parseMemoryDocument (sampleContent "open_door".toList []) = .ok document ∧
      parseMemoryDocument (sampleContent "close_door".toList "## Retrieval Signature".toList) =
        .ok document' ∧
      indexDocument document = indexDocument document' := by
  obtain ⟨hfirst, hsecond, hagrees⟩ := sample_parses
  obtain ⟨document, h⟩ := exists_of_isOk hfirst
  obtain ⟨document', h'⟩ := exists_of_isOk hsecond
  refine ⟨document, document', h, h', ?_⟩
  unfold sampleAgrees at hagrees
  split at hagrees
  · next text body text' body' hparts hparts' =>
    simp only [Bool.and_eq_true, decide_eq_true_eq, List.all_cons, List.all_nil,
      Option.isNone_iff_eq_none] at hagrees
    obtain ⟨⟨rfl, htext⟩, ⟨hevidence, hevidence'⟩, ⟨hsignature, hsignature'⟩, -⟩ := hagrees
    obtain ⟨rfl, ⟨parsed, id, hparsed, hid, hfrontmatter⟩, hepisode, hretrieval⟩ :=
      parseMemoryDocument_parts hparts h
    obtain ⟨rfl, ⟨parsed', id', hparsed', hid', hfrontmatter'⟩, hepisode', hretrieval'⟩ :=
      parseMemoryDocument_parts hparts' h'
    rw [hparsed] at hparsed'
    cases hparsed'
    rw [hid] at hid'
    cases hid'
    rw [parseEvidence, hevidence] at hepisode
    rw [parseEvidence, hevidence'] at hepisode'
    rw [parseEvidence, hsignature] at hretrieval
    rw [parseEvidence, hsignature'] at hretrieval'
    have hnone := (Except.ok.inj hepisode).symm.trans (Except.ok.inj hepisode')
    have hplain := (Except.ok.inj hretrieval).symm.trans (Except.ok.inj hretrieval')
    apply actions_hidden h h'
    · rw [SameObject, hfrontmatter, hfrontmatter']
    · rw [hnone]
    · rw [hplain]
    · exact htext
  · cases hagrees

end Documents

end FailureResolver.HiddenActions
