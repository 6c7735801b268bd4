import FailureResolver.LearnResolution
import FailureResolver.MemoryMarkdown

/-!
The stages that decide whether a resolution can be learned from: the row that is
claimed, the actions the model is shown, the source and the draft of the memory,
and the document that is later considered for execution. Each stage has its own
test. All of them agree on a row whose outcome is the plain word and whose ids
are UUIDs; a row with another spelling of the outcome is claimed and then refused.
-/

namespace FailureResolver.LearningEligibility

open EpisodeEvidence JsonRoundTrip JsonText JsonValue MemoryMarkdown PyException PyText
open ResolutionEpisode ResolutionMemory RowText

section Stages

def ineligible {α : Type} (message : String) : Except PyExc α :=
  .error ⟨.other "IneligibleResolutionError", message⟩

def isDemonstrated : Json → Bool
  | .obj action => isSent action && isCommand (Fields.get action "command")
  | _ => false

def demonstratedActions (resolution : Fields) : Except PyExc (List Json) :=
  if Json.pyEq (Fields.get resolution "outcome") (.str "resolved") = false then
    ineligible "resolution outcome must be resolved"
  else if isTrue (Fields.get resolution "applied") = false then
    ineligible "resolution must contain an applied recovery"
  else match Fields.get resolution "action_runs" with
    | .arr actionRuns =>
        if (actionRuns.filter isDemonstrated).isEmpty then
          ineligible "resolution has no successfully dispatched actions"
        else .ok (actionRuns.filter isDemonstrated)
    | _ => ineligible "action_runs must be an array"

def isSafeAction : Json → Bool
  | .obj action =>
      if isSent action = false ∨ isCommand (Fields.get action "command") = false then false
      else hasUsableRerunContext action
  | _ => false

def isSafeExecutionCandidate (document : MemoryDocument) : Bool :=
  document.isExecutionCandidate && document.dispatchedActions.all isSafeAction

/-- What is written into a memory besides its source: texts with more than blanks
in them and a signature within the bounds of evidence. -/
structure Prose where
  failureSummary : String
  recoverySummary : String
  lessons : List String
  signature : Option Fields
  model : String
  responseId : Option String
  nonblank : ∀ text ∈ failureSummary :: recoverySummary :: model :: lessons, strip text ≠ ""
  signed : ∃ valid, validateSignature signature = .ok valid

def Prose.texts (prose : Prose) : List String :=
  prose.failureSummary :: prose.recoverySummary :: prose.model ::
    (prose.lessons ++ prose.responseId.toList)

def positiveDraft (source : ResolutionSource) (prose : Prose) : DraftFields where
  source := source
  memoryKind := .positive
  actionable := true
  failureSummary := prose.failureSummary
  recoverySummary := prose.recoverySummary
  lessons := prose.lessons
  signature := prose.signature
  model := prose.model
  responseId := prose.responseId

end Stages

section Source

variable {row : Fields} {actions : List Json}

/-- The ids of a row are UUIDs; a failure id may be missing. -/
structure Identified (row : Fields) (resolutionId : String) (failureId : Option String) : Prop where
  resolutionId : canonicalUuid (Fields.get row "resolution_id") "resolution_id" = .ok resolutionId
  failureId : optionalUuid (Fields.get row "failure_id") "failure_id" = .ok failureId

/-- An identified row of an applied resolution has a source. -/
theorem resolutionSourceFromRow_ok {resolutionId : String} {failureId : Option String}
    {evidence : Fields} (hrow : Decoded (.obj row)) (hids : Identified row resolutionId failureId)
    (houtcome : Fields.get row "outcome" = .str "resolved")
    (happlied : Fields.get row "applied" = .bool true)
    (hevidence : Fields.get row "episode_evidence" = .obj evidence) (hvalid : Valid evidence)
    (hactions : Fields.get row "action_runs" = .arr actions)
    (hobjects : ∀ action ∈ actions, ∃ members, action = .obj members) :
    ∃ source, resolutionSourceFromRow row = .ok source ∧
      Fields.get source.payload "action_runs" = .arr (actions.map Json.sortKeys) ∧
      Fields.get source.payload "outcome" = .str "resolved" ∧
      Fields.get source.payload "applied" = .bool true := by
  have hflag : appliedOfRow row = .ok true := by
    have hhas : Fields.has row "applied" = true := by
      by_contra habsent
      rw [get_of_not_has (Bool.eq_false_iff.mpr habsent)] at happlied
      cases happlied
    unfold appliedOfRow
    rw [if_pos hhas, happlied]
  have htext : optionalRowText row "outcome" = .ok (some "resolved") := by
    unfold optionalRowText
    rw [houtcome]
    decide
  -- the selected fields, with the normal forms of four of them
  obtain ⟨selected, hselected⟩ : ∃ selected,
      selected = payloadOfRow row resolutionId failureId "resolved" true := ⟨_, rfl⟩
  have hplain : ∀ key ∈ sourceFields,
      key ∉ ["resolution_id", "failure_id", "outcome", "applied"] →
        Fields.get selected key = Fields.get row key := by
    intro key hkey hnormal
    rw [hselected, get_payloadOfRow row _ _ _ _ hkey hnormal]
  have hpayload : withEpisodeEvidence selected =
      .ok (Fields.set selected "episode_evidence" (.obj evidence)) := by
    refine withEpisodeEvidence_valid hvalid ?_
    rw [hplain _ (by decide) (by decide), hevidence]
  obtain ⟨payload, hset⟩ : ∃ payload,
      payload = Fields.set selected "episode_evidence" (.obj evidence) := ⟨_, rfl⟩
  have hdecoded : Decoded (.obj (withCurrentMap row payload)) := by
    refine inherits_withCurrentMap hereditary_decoded hrow ?_
    rw [hset, hselected]
    refine hereditary_decoded.set _ _ _ (inherits_payloadOfRow hereditary_decoded
      (fun _ => ⟨trivial, rfl⟩) (fun _ => ⟨trivial, rfl⟩) hrow _ _ _ _) ?_
    rw [← hevidence]
    exact hereditary_decoded.get hrow "episode_evidence"
  have hkept : ∀ key ∉ ["episode_evidence", "map_id", "map_name", "map_observed_at"],
      Fields.get (withCurrentMap row payload) key = Fields.get selected key := by
    intro key hkey
    rw [List.mem_cons, not_or] at hkey
    rw [get_withCurrentMap row payload hkey.2, hset, get_set_other hkey.1]
  have hruns : Fields.get (withCurrentMap row payload) "action_runs" = .arr actions := by
    rw [hkept _ (by decide), hplain _ (by decide) (by decide), hactions]
  have harray : isArrayOfObjects (Fields.get payload "action_runs") = true := by
    rw [← get_withCurrentMap row payload (by decide), hruns]
    refine List.all_eq_true.mpr fun action haction => ?_
    obtain ⟨members, rfl⟩ := hobjects action haction
    rfl
  obtain ⟨source, hsource, hholds⟩ := resolutionSourceFromRow_of_parts hids.resolutionId
    hids.failureId hflag htext (by rw [Option.getD_some, ← hselected, hpayload, ← hset]) hdecoded
    harray
  have hget := fun key => get_sortKeys hdecoded.distinct hholds.payload.symm key
  refine ⟨source, hsource, ?_, ?_, ?_⟩
  · rw [hget, hruns, sortKeys_arr]
  · rw [hget, hkept _ (by decide), hselected]
    unfold payloadOfRow
    rw [get_set_other (by decide), get_set_self]
    rfl
  · rw [hget, hkept _ (by decide), hselected]
    unfold payloadOfRow
    rw [get_set_self]
    rfl

end Source

section Draft

variable {source : ResolutionSource} {prose : Prose}

theorem requiredDraftText_ok_iff {value fieldName : String} :
    (∃ text, requiredDraftText value fieldName = .ok text) ↔
      strip value ≠ "" ∧ nul ∉ value.toList := by
  unfold requiredDraftText
  split
  · next hrefused =>
    constructor
    · rintro ⟨text, h⟩
      cases h
    · rintro ⟨hnonblank, hclean⟩
      rcases hrefused with h | h
      · exact absurd h hnonblank
      · exact absurd h hclean
  · next haccepted =>
    rw [not_or] at haccepted
    exact ⟨fun _ => haccepted, fun _ => ⟨_, rfl⟩⟩

theorem draftTextOrNone_ok_iff {value : Option String} {fieldName : String} :
    (∃ text, draftTextOrNone value fieldName = .ok text) ↔
      ∀ text ∈ value.toList, nul ∉ text.toList := by
  cases value with
  | none => exact ⟨fun _ text htext => absurd htext (by simp), fun _ => ⟨none, rfl⟩⟩
  | some text =>
    unfold draftTextOrNone
    simp only [Option.toList_some, List.mem_singleton, forall_eq]
    split
    · next hnul =>
      constructor
      · rintro ⟨_, h⟩
        cases h
      · intro hclean
        exact absurd hnul hclean
    · next hclean => exact ⟨fun _ => hclean, fun _ => ⟨_, rfl⟩⟩

def Prose.Clean (prose : Prose) : Prop := ∀ text ∈ prose.texts, nul ∉ text.toList

instance : Decidable prose.Clean := by
  unfold Prose.Clean
  infer_instance

theorem clean_iff : prose.Clean ↔ nul ∉ prose.failureSummary.toList ∧
    nul ∉ prose.recoverySummary.toList ∧ nul ∉ prose.model.toList ∧
    (∀ lesson ∈ prose.lessons, nul ∉ lesson.toList) ∧
    ∀ text ∈ prose.responseId.toList, nul ∉ text.toList := by
  unfold Prose.Clean Prose.texts
  simp only [List.forall_mem_cons, List.forall_mem_append]

/-- A positive draft of an applied resolution is refused for its texts only. -/
theorem postInit_ok (hactions : source.dispatchedActions ≠ [])
    (hresolved : source.isResolved = true) (hclean : prose.Clean) :
    ∃ draft, postInit (positiveDraft source prose) = .ok draft := by
  have hnonblank := prose.nonblank
  simp only [List.forall_mem_cons] at hnonblank
  obtain ⟨hfailure, hrecovery, hmodel, hlessons⟩ := hnonblank
  obtain ⟨hfailure', hrecovery', hmodel', hlessons', hresponse⟩ := clean_iff.mp hclean
  obtain ⟨failureSummary, hfailure⟩ := requiredDraftText_ok_iff.mpr ⟨hfailure, hfailure'⟩
  obtain ⟨recoverySummary, hrecovery⟩ := requiredDraftText_ok_iff.mpr ⟨hrecovery, hrecovery'⟩
  obtain ⟨model, hmodel⟩ := requiredDraftText_ok_iff.mpr ⟨hmodel, hmodel'⟩
  obtain ⟨responseId, hresponse⟩ := draftTextOrNone_ok_iff.mpr hresponse
  obtain ⟨lessons, hlessons⟩ := mapM_ok_iff.mpr fun lesson hmem =>
    requiredDraftText_ok_iff.mpr ⟨hlessons lesson hmem, hlessons' lesson hmem⟩
  obtain ⟨signature, hsignature⟩ := prose.signed
  unfold postInit
  refine ⟨
    { positiveDraft source prose with
      failureSummary, recoverySummary, lessons, signature, model, responseId },
    bind_eq_ok.mpr ⟨failureSummary, hfailure, bind_eq_ok.mpr ⟨recoverySummary, hrecovery,
      bind_eq_ok.mpr ⟨model, hmodel, bind_eq_ok.mpr ⟨responseId, hresponse,
        bind_eq_ok.mpr ⟨lessons, hlessons, bind_eq_ok.mpr ⟨signature, hsignature, ?_⟩⟩⟩⟩⟩⟩⟩
  simp only [rejectMemory_ite_eq_ok]
  exact ⟨fun h => h.2 rfl, fun h => hactions (List.isEmpty_iff.mp h.2),
    fun h => absurd (hresolved.symm.trans h.2) (by decide), rfl⟩

/-- What a positive draft keeps of what it was made of. -/
theorem postInit_positive {draft : DraftFields}
    (h : postInit (positiveDraft source prose) = .ok draft) :
    draft.source = source ∧ draft.memoryKind = .positive ∧ draft.actionable = true ∧
      prose.Clean := by
  unfold postInit at h
  obtain ⟨failureSummary, hfailure, h⟩ := bind_eq_ok.mp h
  obtain ⟨recoverySummary, hrecovery, h⟩ := bind_eq_ok.mp h
  obtain ⟨model, hmodel, h⟩ := bind_eq_ok.mp h
  obtain ⟨responseId, hresponse, h⟩ := bind_eq_ok.mp h
  obtain ⟨lessons, hlessons, h⟩ := bind_eq_ok.mp h
  obtain ⟨signature, -, h⟩ := bind_eq_ok.mp h
  have hlessons' := mapM_ok_iff.mp ⟨lessons, hlessons⟩
  have hclean : prose.Clean := clean_iff.mpr
    ⟨(requiredDraftText_ok_iff.mp ⟨_, hfailure⟩).2, (requiredDraftText_ok_iff.mp ⟨_, hrecovery⟩).2,
      (requiredDraftText_ok_iff.mp ⟨_, hmodel⟩).2,
      fun lesson hmem => (requiredDraftText_ok_iff.mp (hlessons' lesson hmem)).2,
      draftTextOrNone_ok_iff.mp ⟨_, hresponse⟩⟩
  rw [rejectMemory_ite_eq_ok, rejectMemory_ite_eq_ok, rejectMemory_ite_eq_ok] at h
  obtain ⟨-, -, -, h⟩ := h
  cases h
  exact ⟨rfl, rfl, rfl, hclean⟩

end Draft

section Sorted

theorem isCommand_sortKeys (value : Json) : isCommand value.sortKeys = isCommand value := by
  cases value with
  | arr items => rw [sortKeys_arr]; rfl
  | obj members => rw [sortKeys_obj]; rfl
  | _ => rfl

theorem get_sortKeys_json {value : Json} (h : value.Distinct) (key : String) :
    Json.get value.sortKeys key = (Json.get value key).sortKeys := by
  cases value with
  | arr items =>
    rw [sortKeys_arr]
    rfl
  | obj members =>
    obtain ⟨sorted, hsorted⟩ : ∃ sorted, Json.sortKeys (.obj members) = .obj sorted :=
      ⟨_, sortKeys_obj members⟩
    rw [hsorted]
    exact get_sortKeys h hsorted key
  | _ => rfl

/-- The test of an action does not see the order of its members. -/
theorem isSuccessfulRun_sortKeys {action : Json} (h : action.Distinct) :
    isSuccessfulRun action.sortKeys = isSuccessfulRun action := by
  cases action with
  | arr items =>
    rw [sortKeys_arr]
    rfl
  | obj members =>
    obtain ⟨sorted, hsorted⟩ : ∃ sorted, Json.sortKeys (.obj members) = .obj sorted :=
      ⟨_, sortKeys_obj members⟩
    have hget := get_sortKeys h hsorted
    have hsent : isSent sorted = isSent members := by
      unfold isSent
      rw [hget]
      cases Fields.get members "status" with
      | arr items => rw [sortKeys_arr]
      | obj members => rw [sortKeys_obj]
      | _ => rfl
    have hretried : Json.get (Fields.get sorted "retry_context") "retried_action" =
        (Json.get (Fields.get members "retry_context") "retried_action").sortKeys := by
      rw [hget, get_sortKeys_json (distinct_get h _)]
    have hrerun : hasUsableRerunContext sorted = hasUsableRerunContext members := by
      unfold hasUsableRerunContext
      rw [hget, hretried]
      cases hcommand : Fields.get members "command" with
      | str command =>
        show (if strip command ≠ "$rerun" then true else _) = _
        have hdistinct : (Json.get (Fields.get members "retry_context") "retried_action").Distinct :=
          hereditary_distinct.jsonGet (distinct_get h "retry_context") "retried_action"
        cases hretry : Json.get (Fields.get members "retry_context") "retried_action" with
        | arr items => rw [sortKeys_arr]
        | obj retried =>
          rw [hretry] at hdistinct
          obtain ⟨sortedRetried, hsortedRetried⟩ : ∃ sorted,
              Json.sortKeys (.obj retried) = .obj sorted := ⟨_, sortKeys_obj retried⟩
          have hempty : sortedRetried.isEmpty = retried.isEmpty := by
            rw [sortKeys_obj, Json.obj.injEq] at hsortedRetried
            rw [← hsortedRetried, Bool.eq_iff_iff, List.isEmpty_iff_length_eq_zero,
              List.isEmpty_iff_length_eq_zero, List.length_insertionSort, List.length_map]
          rw [hsortedRetried]
          simp only [hempty, get_sortKeys hdistinct hsortedRetried, isCommand_sortKeys]
        | _ => rfl
      | arr items => rw [sortKeys_arr]
      | obj members => rw [sortKeys_obj]
      | _ => rfl
    rw [hsorted]
    unfold isSuccessfulRun
    simp only [hsent, hrerun, hget, isCommand_sortKeys]
  | _ => rfl

end Sorted

section Agreement

variable {resolution row : Fields} {failure : Option Fields}

/-- The row is accepted by every stage after the claim: the actions shown to the
model, the source, the draft, and the document the draft is rendered as. -/
def Consistent (resolution row : Fields) (prose : Prose) : Prop :=
  demonstratedActions row = .ok (successfulActionRuns resolution) ∧
    ∃ source draft, resolutionSourceFromRow row = .ok source ∧
      postInit (positiveDraft source prose) = .ok draft ∧
      Json.pyEqItems draft.source.dispatchedActions (successfulActionRuns resolution) = true ∧
      ∀ document : MemoryDocument, document.frontmatter = frontmatter draft →
        document.dispatchedActions = successfulActionRuns resolution ∨
          document.dispatchedActions = draft.source.dispatchedActions →
        isSafeExecutionCandidate document = true

/-- The outcome is the plain word, the ids are UUIDs, and no text is cut short. -/
structure Plain (resolution : Fields) (prose : Prose) : Prop where
  outcome : Fields.get resolution "outcome" = .str "resolved"
  ids : ∃ resolutionId failureId, Identified resolution resolutionId failureId
  clean : prose.Clean

/-- A demonstration is applied and has actions, each of them an object. -/
theorem isPositiveDemonstration_eq_true (h : isPositiveDemonstration resolution = true) :
    isMissingContextValue (Fields.get resolution "outcome") = false ∧
      Fields.get resolution "applied" = .bool true ∧ successfulActionRuns resolution ≠ [] := by
  unfold isPositiveDemonstration at h
  rw [Bool.and_eq_true, Bool.and_eq_true, decide_eq_true_iff] at h
  obtain ⟨⟨houtcome, happlied⟩, hactions⟩ := h
  refine ⟨?_, ?_, ?_⟩
  · cases hvalue : Fields.get resolution "outcome" with
    | null =>
      rw [hvalue] at houtcome
      exact absurd houtcome (by decide)
    | str text =>
      by_contra hmissing
      have hblank : strip text = "" := by simpa [isMissingContextValue] using hmissing
      rw [hvalue] at houtcome
      unfold normalizedText at houtcome
      rw [if_neg (by simp [Json.isNull])] at houtcome
      change casefold (strip text) = "resolved" at houtcome
      rw [hblank] at houtcome
      exact absurd houtcome (by decide)
    | _ => rfl
  · unfold JsonValue.isTrue at happlied
    split at happlied
    · next hflag => exact hflag
    · cases happlied
  · intro hempty
    rw [hempty] at hactions
    cases hactions

theorem mem_successfulActionRuns {action : Json} (h : action ∈ successfulActionRuns resolution) :
    isSuccessfulRun action = true := by
  unfold successfulActionRuns at h
  split at h
  · exact List.of_mem_filter h
  · cases h

/-- The actions of the prepared row are the successful ones of the resolution. -/
theorem memoryRow_actionRuns (hactions : successfulActionRuns resolution ≠ [])
    (h : memoryRow resolution failure = .ok row) :
    Fields.get row "action_runs" = .arr (successfulActionRuns resolution) := by
  obtain ⟨prepared, hprepared, rfl⟩ := map_eq_ok.mp h
  obtain ⟨evidence, -, rfl⟩ := map_eq_ok.mp hprepared
  have hsame : Fields.get (Fields.set (fillContext resolution failure) "episode_evidence"
      (.obj evidence)) "action_runs" = Fields.get resolution "action_runs" := by
    rw [get_set_other (by decide)]
    refine get_fillContext failure ?_
    unfold successfulActionRuns at hactions
    split at hactions
    · next runs hruns =>
      rw [hruns]
      rfl
    · exact absurd rfl hactions
  unfold rowWithSuccessfulActions
  rw [get_set_self]
  unfold successfulActionRuns
  rw [hsame]

/-- A field that no failure fills. -/
theorem memoryRow_get {key : String} (h : memoryRow resolution failure = .ok row)
    (hkey : key ∉ "action_runs" :: "episode_evidence" :: projectedFields) :
    Fields.get row key = Fields.get resolution key := by
  obtain ⟨prepared, hprepared, rfl⟩ := map_eq_ok.mp h
  obtain ⟨evidence, -, rfl⟩ := map_eq_ok.mp hprepared
  simp only [List.mem_cons, not_or] at hkey
  unfold rowWithSuccessfulActions
  rw [get_set_other hkey.1, get_set_other hkey.2.1, get_fillContext_other failure hkey.2.2]

/-- The prepared row is again a row of JSON, with valid evidence. -/
theorem memoryRow_decoded {resolution : JsonRow} {failure : Option JsonRow}
    (h : memoryRow resolution.fields (failure.map JsonRow.fields) = .ok row) :
    Decoded (.obj row) ∧
      ∃ evidence, Fields.get row "episode_evidence" = .obj evidence ∧ Valid evidence := by
  obtain ⟨prepared, hprepared, rfl⟩ := map_eq_ok.mp h
  obtain ⟨evidence, hevidence, rfl⟩ := map_eq_ok.mp hprepared
  have hfailure : ∀ fields, failure.map JsonRow.fields = some fields → Decoded (.obj fields) := by
    intro fields hfields
    obtain ⟨row, -, rfl⟩ := Option.map_eq_some_iff.mp hfields
    exact row.decoded
  obtain ⟨hdistinct, hvalid⟩ := buildEpisodeEvidence_valid resolution.decoded.distinct
    (fun fields hfields => (hfailure fields hfields).distinct) hevidence
  have hprintable : printable (.obj evidence) = true := by
    obtain ⟨text, htext, -⟩ := hvalid.bounded
    exact printable_sortKeys_iff.mp (dumps_eq_some.mp htext).1
  have hrow := hereditary_decoded.set _ "episode_evidence" _
    (inherits_fillContext hereditary_decoded resolution.decoded hfailure) ⟨hdistinct, hprintable⟩
  refine ⟨hereditary_decoded.set _ _ _ hrow
    (inherits_successfulActionRuns hereditary_decoded hrow), evidence, ?_, hvalid⟩
  unfold rowWithSuccessfulActions
  rw [get_set_other (by decide), get_set_self]

theorem pyEq_str {value : Json} {text : String} :
    Json.pyEq value (.str text) = true ↔ value = .str text := by
  cases value <;> simp [Json.pyEq, Json.numberEq, Json.number]

/-- The actions shown to the model are those of the resolution. -/
theorem demonstratedActions_eq_ok (houtcome : Fields.get row "outcome" = .str "resolved")
    (happlied : Fields.get row "applied" = .bool true)
    (hruns : Fields.get row "action_runs" = .arr (successfulActionRuns resolution))
    (hactions : successfulActionRuns resolution ≠ []) :
    demonstratedActions row = .ok (successfulActionRuns resolution) := by
  have hall : (successfulActionRuns resolution).filter isDemonstrated =
      successfulActionRuns resolution := by
    refine List.filter_eq_self.mpr fun action haction => ?_
    have hsuccessful := mem_successfulActionRuns haction
    cases action with
    | obj members =>
      unfold isSuccessfulRun at hsuccessful
      rw [Bool.and_eq_true] at hsuccessful
      exact hsuccessful.1
    | _ => cases hsuccessful
  unfold demonstratedActions
  rw [houtcome, happlied, hruns, if_neg (by decide), if_neg (by decide)]
  simp only [hall]
  rw [if_neg (by simpa using hactions)]

/-- A document of a positive draft whose actions succeeded is a candidate. -/
theorem isSafeExecutionCandidate_positive {draft : DraftFields} {document : MemoryDocument}
    (hfrontmatter : document.frontmatter = frontmatter draft)
    (hkind : draft.memoryKind = .positive) (hactionable : draft.actionable = true)
    (houtcome : Fields.get draft.source.payload "outcome" = .str "resolved")
    (happlied : Fields.get draft.source.payload "applied" = .bool true)
    (hactions : document.dispatchedActions ≠ [])
    (hsuccessful : ∀ action ∈ document.dispatchedActions, isSuccessfulRun action = true) :
    isSafeExecutionCandidate document = true := by
  have hfields : Fields.get document.frontmatter "memory_kind" = .str "positive" ∧
      Fields.get document.frontmatter "actionable" = .bool true ∧
      Fields.get document.frontmatter "outcome" = .str "resolved" ∧
      Fields.get document.frontmatter "applied" = .bool true := by
    rw [hfrontmatter]
    refine ⟨?_, ?_, houtcome, happlied⟩
    · show Json.str draft.memoryKind.text = _
      rw [hkind]
      rfl
    · show Json.bool draft.actionable = _
      rw [hactionable]
  obtain ⟨hkind, hactionable, houtcome, happlied⟩ := hfields
  have hcandidate : document.isExecutionCandidate = true := by
    unfold MemoryDocument.isExecutionCandidate
    rw [hkind, hactionable, houtcome, happlied]
    simpa [Json.pyEq, JsonValue.isTrue] using hactions
  unfold isSafeExecutionCandidate
  rw [hcandidate, Bool.true_and, List.all_eq_true]
  intro action haction
  have haccepted := hsuccessful action haction
  cases action with
  | obj members =>
    unfold isSuccessfulRun at haccepted
    rw [Bool.and_eq_true, Bool.and_eq_true] at haccepted
    obtain ⟨⟨hsent, hcommand⟩, hrerun⟩ := haccepted
    show (if isSent members = false ∨ isCommand (Fields.get members "command") = false then false
      else hasUsableRerunContext members) = true
    rw [if_neg (by simp [hsent, hcommand]), hrerun]
  | _ => cases haccepted

theorem memoryRow_get_plain (h : memoryRow resolution failure = .ok row) (key : String)
    (hkey : key ∈ ["resolution_id", "failure_id", "outcome", "applied"]) :
    Fields.get row key = Fields.get resolution key := by
  refine memoryRow_get h ?_
  revert key
  decide

/-- A row with a plain outcome, ids and texts is accepted by every later stage. -/
theorem consistent_of_plain (resolution : JsonRow) (failure : Option JsonRow) (prose : Prose)
    (hpositive : isPositiveDemonstration resolution.fields = true)
    (hrow : memoryRow resolution.fields (failure.map JsonRow.fields) = .ok row)
    (hplain : Plain resolution.fields prose) : Consistent resolution.fields row prose := by
  obtain ⟨-, happlied, hactions⟩ := isPositiveDemonstration_eq_true hpositive
  have hget := memoryRow_get_plain hrow
  obtain ⟨houtcome, ⟨resolutionId, failureId, hid, hfailure⟩, hclean⟩ := hplain
  rw [← hget _ (by decide)] at houtcome happlied hid hfailure
  have hruns := memoryRow_actionRuns hactions hrow
  obtain ⟨hdecoded, evidence, hevidence, hvalid⟩ := memoryRow_decoded hrow
  have hobjects : ∀ action ∈ successfulActionRuns resolution.fields,
      ∃ members, action = .obj members := by
    intro action haction
    have hsuccessful := mem_successfulActionRuns haction
    cases action with
    | obj members => exact ⟨members, rfl⟩
    | _ => cases hsuccessful
  obtain ⟨source, hsource, hpayloadRuns, hpayloadOutcome, hpayloadApplied⟩ :=
    resolutionSourceFromRow_ok hdecoded ⟨hid, hfailure⟩ houtcome happlied hevidence hvalid hruns
      hobjects
  have hdispatched : source.dispatchedActions =
      (successfulActionRuns resolution.fields).map Json.sortKeys := by
    unfold ResolutionSource.dispatchedActions
    rw [hpayloadRuns]
  have hnonempty : source.dispatchedActions ≠ [] := by
    rw [hdispatched]
    simpa using hactions
  have hresolved : source.isResolved = true := by
    unfold ResolutionSource.isResolved
    rw [hpayloadOutcome, hpayloadApplied]
    rfl
  obtain ⟨draft, hdraft⟩ := postInit_ok hnonempty hresolved hclean
  obtain ⟨rfl, hkind, hactionable, -⟩ := postInit_positive hdraft
  have hdecodedRuns := hereditary_decoded.item _
    (inherits_successfulActionRuns hereditary_decoded resolution.decoded)
  refine ⟨demonstratedActions_eq_ok houtcome happlied hruns hactions, draft.source, draft,
    hsource, hdraft, ?_, fun document hfrontmatter hdocument => ?_⟩
  · rw [hdispatched]
    exact pyEqItems_map fun action haction =>
      pyEq_sortKeys (hdecodedRuns action haction).distinct (hdecodedRuns action haction).printable
  · refine isSafeExecutionCandidate_positive hfrontmatter hkind hactionable hpayloadOutcome
      hpayloadApplied ?_ fun action haction => ?_
    · rcases hdocument with hdocument | hdocument
      · rwa [hdocument]
      · rwa [hdocument]
    · rcases hdocument with hdocument | hdocument
      · rw [hdocument] at haction
        exact mem_successfulActionRuns haction
      · rw [hdocument, hdispatched] at haction
        obtain ⟨run, hrun, rfl⟩ := List.mem_map.mp haction
        rw [isSuccessfulRun_sortKeys (hdecodedRuns run hrun).distinct]
        exact mem_successfulActionRuns hrun

end Agreement

end FailureResolver.LearningEligibility
