import FailureResolver.JsonLength
import FailureResolver.LearningEligibility
import FailureResolver.SensitiveEntries

/-!
The text a resolution is generalized from. Four helpers project the row: two of
them sanitize, the bounded copies of single fields do not. For two rows that
differ in sensitive entries only, the texts are the same if and only if these
unsanitized copies are: the whole value if it is short, its first characters if
it is not.
-/

namespace FailureResolver.PromptProjection

open EpisodeEvidence JsonLength JsonRoundTrip JsonText JsonValue LearningEligibility PyException
open PyText ResolutionEpisode RowText SensitiveEntries

section Payload

def maxInputTextLength : ℕ := 2000
def maxContextJsonLength : ℕ := 12000
def maxGeneralizationInputLength : ℕ := 256000
def maxActionTextLength : ℕ := 160
def maxRetryContextLength : ℕ := 2000

mutual

def spelled : Json → Bool
  | .int n => (Nat.toDigits 10 n.natAbs).length ≤ maxStrDigits
  | .arr items => spelledItems items
  | .obj members => spelledMembers members
  | _ => true

def spelledItems : List Json → Bool
  | [] => true
  | x :: xs => spelled x && spelledItems xs

def spelledMembers : List (String × Json) → Bool
  | [] => true
  | (_, x) :: rest => spelled x && spelledMembers rest

end

/-- A text of the value, or the error of an integer that has none. -/
def ifSpelled {α : Type} (value : Json) (result : α) : Except PyExc α :=
  if spelled value then .ok result
  else refuse "Exceeds the limit (4300 digits) for integer string conversion"

/-- `json.dumps(value, ensure_ascii=False, separators=(",", ":"), sort_keys=True)`. -/
def serialized (value : Json) : List Char := print compactStyle 0 value.sortKeys

def cutText (maxLength : ℕ) (value : Json) : Json :=
  if value.isNull then .null
  else .str (String.ofList (((pyStr value).toList.map replacePrintable).take maxLength))

def boundedText (value : Json) (maxLength : ℕ) : Except PyExc Json :=
  ifSpelled value (cutText maxLength value)

def cutJson (maxLength : ℕ) (value : Json) : Json :=
  if value.isNull then .null
  else if (serialized value).length ≤ maxLength then
    (loads (serialized value)).getD (.str (String.ofList (serialized value)))
  else .obj [("serialized_prefix", .str (String.ofList ((serialized value).take maxLength))),
    ("truncated", .bool true)]

def boundedJsonData (value : Json) (maxLength : ℕ) : Except PyExc Json :=
  ifSpelled value (cutJson maxLength value)

def boundedField (value : Json) : Except PyExc Json :=
  if isScalar value then boundedText value maxInputTextLength
  else boundedJsonData value maxContextJsonLength

def boundedFields (source : Fields) (fields : List String) : Except PyExc Fields :=
  fields.mapM fun field => (boundedField (Fields.get source field)).map fun x => (field, x)

def contextFields : List String :=
  ["flow_name", "area_name", "item_name", "failure_status", "failure_reason", "failed_command",
    "robot_message", "auto_failure_reason", "resolution", "outcome", "applied", "description",
    "failed_step"]

def actionMetadata (action : Json) : Except PyExc Json := do
  let command ← boundedText (Json.get action "command") maxActionTextLength
  let title ← boundedText (Json.get action "title") maxActionTextLength
  let retryContext ← boundedJsonData (Json.get action "retry_context") maxRetryContextLength
  return .obj [("command", command), ("title", title), ("retry_context", retryContext)]

def modelEvidence (evidence : Json) : Except PyExc Json :=
  if evidence.isNull then .ok .null else (validateEpisodeEvidence evidence).map .obj

def resolutionModelContext (resolution : Fields) (demonstratedActions : List Json) :
    Except PyExc Fields := do
  let context ← boundedFields resolution contextFields
  let failedAction ← boundedJsonData (Fields.get resolution "failed_action") maxContextJsonLength
  let context := Fields.set context "failed_action" failedAction
  let context := Fields.set context "outcome" (Fields.get resolution "outcome")
  let context := Fields.set context "applied" (Fields.get resolution "applied")
  let metadata ← demonstratedActions.mapM actionMetadata
  let context := Fields.set context "demonstrated_action_metadata" (.arr metadata)
  let runs ← sanitizeValue 0 (.arr demonstratedActions)
  let context := Fields.set context "successful_action_run_evidence" runs
  let evidence ← modelEvidence (Fields.get resolution "episode_evidence")
  return Fields.set context "episode_evidence" evidence

def payloadOf (context : Fields) : Json :=
  .obj [("task", .str "generalize_resolution"), ("untrusted_resolution_data", .obj context)]

/-- The input `generalize_resolution` sends to the model. -/
def inputPayload (resolution : Fields) : Except PyExc (List Char) := do
  let actions ← demonstratedActions resolution
  let context ← resolutionModelContext resolution actions
  let text ← ifSpelled (payloadOf context) (serialized (payloadOf context))
  if maxGeneralizationInputLength < text.length then
    refuse "resolution input exceeds the bounded limit"
  else return text

end Payload

section Projection

variable {resolution context : Fields} {actions : List Json} {value : Json}

theorem ifSpelled_eq_ok {α : Type} {result r : α} (h : ifSpelled value result = .ok r) :
    r = result := by
  unfold ifSpelled at h
  split at h
  · exact (Except.ok.inj h).symm
  · cases h

def cutField (value : Json) : Json :=
  if isScalar value then cutText maxInputTextLength value else cutJson maxContextJsonLength value

theorem boundedField_eq_ok {x : Json} (h : boundedField value = .ok x) : x = cutField value := by
  unfold boundedField at h
  unfold cutField
  split at h
  · next hscalar =>
    rw [if_pos hscalar]
    exact ifSpelled_eq_ok h
  · next hscalar =>
    rw [if_neg hscalar]
    exact ifSpelled_eq_ok h

theorem mapM_eq_map {α β : Type} {f : α → Except PyExc β} {g : α → β} {xs : List α} {ys : List β}
    (hf : ∀ x ∈ xs, ∀ y, f x = .ok y → y = g x) (h : xs.mapM f = .ok ys) : ys = xs.map g := by
  induction xs generalizing ys with
  | nil =>
    cases h
    rfl
  | cons x xs ih =>
    rw [List.mapM_cons] at h
    obtain ⟨y, hy, h⟩ := bind_eq_ok.mp h
    obtain ⟨zs, hzs, h⟩ := bind_eq_ok.mp h
    cases h
    obtain ⟨hx, hxs⟩ := List.forall_mem_cons.mp hf
    rw [List.map_cons, hx y hy, ih hxs hzs]

def metadataOf (action : Json) : Json :=
  .obj [("command", cutText maxActionTextLength (Json.get action "command")),
    ("title", cutText maxActionTextLength (Json.get action "title")),
    ("retry_context", cutJson maxRetryContextLength (Json.get action "retry_context"))]

theorem actionMetadata_eq_ok {action metadata : Json} (h : actionMetadata action = .ok metadata) :
    metadata = metadataOf action := by
  unfold actionMetadata at h
  obtain ⟨command, hcommand, h⟩ := bind_eq_ok.mp h
  obtain ⟨title, htitle, h⟩ := bind_eq_ok.mp h
  obtain ⟨retryContext, hretry, h⟩ := bind_eq_ok.mp h
  cases h
  rw [ifSpelled_eq_ok hcommand, ifSpelled_eq_ok htitle, ifSpelled_eq_ok hretry]
  rfl

/-- The members of the context, each with the value it has. -/
def contextOf (resolution : Fields) (actions : List Json) : Fields :=
  [("flow_name", cutField (Fields.get resolution "flow_name")),
    ("area_name", cutField (Fields.get resolution "area_name")),
    ("item_name", cutField (Fields.get resolution "item_name")),
    ("failure_status", cutField (Fields.get resolution "failure_status")),
    ("failure_reason", cutField (Fields.get resolution "failure_reason")),
    ("failed_command", cutField (Fields.get resolution "failed_command")),
    ("robot_message", cutField (Fields.get resolution "robot_message")),
    ("auto_failure_reason", cutField (Fields.get resolution "auto_failure_reason")),
    ("resolution", cutField (Fields.get resolution "resolution")),
    ("outcome", Fields.get resolution "outcome"), ("applied", Fields.get resolution "applied"),
    ("description", cutField (Fields.get resolution "description")),
    ("failed_step", cutField (Fields.get resolution "failed_step")),
    ("failed_action", cutJson maxContextJsonLength (Fields.get resolution "failed_action")),
    ("demonstrated_action_metadata", .arr (actions.map metadataOf)),
    ("successful_action_run_evidence", withoutSensitive (.arr actions)),
    ("episode_evidence", withoutSensitive (Fields.get resolution "episode_evidence"))]

theorem resolutionModelContext_eq_ok (h : resolutionModelContext resolution actions = .ok context) :
    context = contextOf resolution actions := by
  unfold resolutionModelContext at h
  obtain ⟨fields, hfields, h⟩ := bind_eq_ok.mp h
  obtain ⟨failedAction, hfailedAction, h⟩ := bind_eq_ok.mp h
  obtain ⟨metadata, hmetadata, h⟩ := bind_eq_ok.mp h
  obtain ⟨runs, hruns, h⟩ := bind_eq_ok.mp h
  obtain ⟨evidence, hevidence, h⟩ := bind_eq_ok.mp h
  have hcut : fields = contextFields.map fun field =>
      (field, cutField (Fields.get resolution field)) := by
    refine mapM_eq_map (fun field _ member hmember => ?_) hfields
    obtain ⟨x, hx, rfl⟩ := map_eq_ok.mp hmember
    rw [boundedField_eq_ok hx]
  have hshown : evidence = withoutSensitive (Fields.get resolution "episode_evidence") := by
    unfold modelEvidence at hevidence
    split at hevidence
    · next hnull =>
      cases hevidence
      cases hvalue : Fields.get resolution "episode_evidence" with
      | null => rfl
      | _ =>
        rw [hvalue] at hnull
        cases hnull
    · obtain ⟨sanitized, hvalidate, rfl⟩ := map_eq_ok.mp hevidence
      exact sanitizeValue_eq 0 _ (validate_eq_ok.mp hvalidate).1
  cases h
  rw [hcut, ifSpelled_eq_ok hfailedAction,
    mapM_eq_map (fun action _ metadata h => actionMetadata_eq_ok h) hmetadata,
    sanitizeValue_eq 0 _ hruns, hshown]
  rfl

def demonstrated (row : Fields) : List Json :=
  match Fields.get row "action_runs" with
  | .arr actionRuns => actionRuns.filter isDemonstrated
  | _ => []

theorem demonstratedActions_eq_demonstrated (h : demonstratedActions resolution = .ok actions) :
    actions = demonstrated resolution := by
  unfold demonstratedActions at h
  split at h
  · cases h
  · split at h
    · cases h
    · split at h
      · next actionRuns hruns =>
        have hall : demonstrated resolution = actionRuns.filter isDemonstrated := by
          unfold demonstrated
          rw [hruns]
        split at h
        · cases h
        · exact (Except.ok.inj h).symm.trans hall.symm
      · cases h

/-- The text is the serialized projection of the row. -/
theorem inputPayload_eq_ok {text : List Char} (h : inputPayload resolution = .ok text) :
    text = serialized (payloadOf (contextOf resolution (demonstrated resolution))) := by
  unfold inputPayload at h
  obtain ⟨actions, hactions, h⟩ := bind_eq_ok.mp h
  obtain ⟨context, hcontext, h⟩ := bind_eq_ok.mp h
  obtain ⟨payload, hpayload, h⟩ := bind_eq_ok.mp h
  obtain ⟨-, h⟩ := refuse_ite_eq_ok.mp h
  cases h
  rw [ifSpelled_eq_ok hpayload, resolutionModelContext_eq_ok hcontext,
    demonstratedActions_eq_demonstrated hactions]

end Projection

section Copies

variable {value value' : Json} {maxLength : ℕ}

theorem Decoded.serialized_eq_iff (h : Decoded value) (h' : Decoded value') :
    serialized value = serialized value' ↔ value.sortKeys = value'.sortKeys := by
  constructor
  · intro hsame
    have hloads := loads_print compactStyle_blank h.distinct.sortKeys
      (printable_sortKeys h.printable)
    have hloads' := loads_print compactStyle_blank h'.distinct.sortKeys
      (printable_sortKeys h'.printable)
    unfold serialized at hsame
    rw [hsame, hloads'] at hloads
    exact (Option.some.inj hloads).symm
  · intro hsame
    unfold serialized
    rw [hsame]

/-- Two copies of at most so many characters agree: the values do, or both are cut
after the same characters. -/
def SameCut (maxLength : ℕ) (value value' : Json) : Prop :=
  value.sortKeys = value'.sortKeys ∨
    maxLength < (serialized value).length ∧ maxLength < (serialized value').length ∧
      (serialized value).take maxLength = (serialized value').take maxLength

def truncated (maxLength : ℕ) (value : Json) : Json :=
  .obj [("serialized_prefix", .str (String.ofList ((serialized value).take maxLength))),
    ("truncated", .bool true)]

theorem decoded_truncated (maxLength : ℕ) (value : Json) : Decoded (truncated maxLength value) := by
  refine ⟨distinct_obj.mpr ⟨?_, fun m hm => ?_⟩, rfl⟩
  · show ["serialized_prefix", "truncated"].Nodup
    decide
  · simp only [List.mem_cons, List.not_mem_nil, or_false] at hm
    rcases hm with rfl | rfl
    · trivial
    · trivial

/-- It is longer than what it stands for was allowed to be. -/
theorem length_truncated (h : maxLength < (serialized value).length) :
    maxLength < (serialized (truncated maxLength value)).length := by
  have hlength : (serialized (truncated maxLength value)).length =
      compactLength (truncated maxLength value) := compactLength_sortKeys _
  have hcut : ((serialized value).take maxLength).length = maxLength := by
    rw [List.length_take]
    omega
  rw [hlength, truncated, compactLength_obj]
  simp only [List.map_cons, List.sum_cons, memberLength, compactLength_str, String.toList_ofList,
    hcut]
  omega

theorem cutJson_eq (hvalue : Decoded value) (hmax : 4 ≤ maxLength) : cutJson maxLength value =
    if (serialized value).length ≤ maxLength then value.sortKeys else truncated maxLength value := by
  unfold cutJson
  split
  · next hnull =>
    cases value with
    | null => exact (if_pos hmax).symm
    | _ => cases hnull
  · split
    · unfold serialized
      rw [loads_print compactStyle_blank hvalue.distinct.sortKeys
        (printable_sortKeys hvalue.printable), Option.getD_some]
    · rfl

theorem decoded_sortKeys (h : Decoded value) : Decoded value.sortKeys :=
  ⟨h.distinct.sortKeys, printable_sortKeys h.printable⟩

theorem decoded_cutJson (hvalue : Decoded value) (hmax : 4 ≤ maxLength) :
    Decoded (cutJson maxLength value) := by
  rw [cutJson_eq hvalue hmax]
  split
  · exact decoded_sortKeys hvalue
  · exact decoded_truncated _ _

theorem truncated_sortKeys_iff :
    (truncated maxLength value).sortKeys = (truncated maxLength value').sortKeys ↔
      (serialized value).take maxLength = (serialized value').take maxLength := by
  constructor
  · intro hsame
    have hget := (sortKeys_obj_iff (decoded_truncated maxLength value).distinct
      (decoded_truncated maxLength value').distinct rfl).mp hsame "serialized_prefix" (by simp)
    exact String.ofList_injective (Json.str.inj hget)
  · intro hsame
    unfold truncated
    rw [hsame]

/-- The copies show exactly this much of the values. -/
theorem cutJson_sortKeys_iff (hvalue : Decoded value) (hvalue' : Decoded value')
    (hmax : 4 ≤ maxLength) :
    (cutJson maxLength value).sortKeys = (cutJson maxLength value').sortKeys ↔
      SameCut maxLength value value' := by
  -- a value that is kept is shorter than anything that is cut
  have hmixed : ∀ {value value' : Json}, (serialized value).length ≤ maxLength →
      maxLength < (serialized value').length →
      value.sortKeys ≠ (truncated maxLength value').sortKeys := by
    intro value value' hshort hlong hsame
    have hlonger := length_truncated hlong
    unfold serialized at hlonger hshort
    rw [← hsame] at hlonger
    omega
  rw [cutJson_eq hvalue hmax, cutJson_eq hvalue' hmax]
  unfold SameCut
  by_cases hshort : (serialized value).length ≤ maxLength
  · rw [if_pos hshort, sortKeys_sortKeys]
    by_cases hshort' : (serialized value').length ≤ maxLength
    · rw [if_pos hshort', sortKeys_sortKeys]
      exact ⟨.inl, fun h => h.resolve_right fun hlong => by omega⟩
    · rw [if_neg hshort']
      constructor
      · intro hsame
        exact absurd hsame (hmixed hshort (by omega))
      · rintro (hsame | hlong)
        · unfold serialized at hshort hshort'
          rw [hsame] at hshort
          exact absurd hshort hshort'
        · omega
  · rw [if_neg hshort]
    by_cases hshort' : (serialized value').length ≤ maxLength
    · rw [if_pos hshort', sortKeys_sortKeys]
      constructor
      · intro hsame
        exact absurd hsame.symm (hmixed hshort' (by omega))
      · rintro (hsame | hlong)
        · unfold serialized at hshort hshort'
          rw [← hsame] at hshort'
          exact absurd hshort' hshort
        · omega
    · rw [if_neg hshort', truncated_sortKeys_iff]
      constructor
      · intro hsame
        exact .inr ⟨by omega, by omega, hsame⟩
      · rintro (hsame | hlong)
        · unfold serialized
          rw [hsame]
        · exact hlong.2.2

end Copies

section Rows

variable {fields fields' : Fields} {action action' : Json}

theorem Alike.isDemonstrated_eq (h : Alike action action') :
    isDemonstrated action = isDemonstrated action' := by
  cases action with
  | arr items =>
    obtain ⟨items', rfl, -⟩ := h.items
    rfl
  | obj members =>
    obtain ⟨members', rfl⟩ := h.members
    have hsent : isSent members = isSent members' := by
      refine Alike.congr (p := fun value => isSent [("status", value)])
        (fun value hvalue => ?_) (h.get (by decide) : Alike
          (Fields.get members "status") (Fields.get members' "status"))
      cases value <;> first | rfl | cases hvalue
    have hcommand : isCommand (Fields.get members "command") =
        isCommand (Fields.get members' "command") := by
      refine Alike.congr (p := isCommand) (fun value hvalue => ?_) (h.get (by decide))
      cases value <;> first | rfl | cases hvalue
    show (isSent members && isCommand (Fields.get members "command")) =
      (isSent members' && isCommand (Fields.get members' "command"))
    rw [hsent, hcommand]
  | _ =>
    obtain rfl := h.eq_of_scalar rfl
    rfl

/-- Alike rows demonstrate alike actions. -/
theorem Alike.demonstrated (h : Alike (.obj fields) (.obj fields')) :
    List.Forall₂ Alike (demonstrated fields) (demonstrated fields') := by
  have hruns : Alike (Fields.get fields "action_runs") (Fields.get fields' "action_runs") :=
    h.get (by decide)
  unfold PromptProjection.demonstrated
  cases hvalue : Fields.get fields "action_runs" with
  | arr items =>
    rw [hvalue] at hruns
    obtain ⟨items', hitems', halike⟩ := hruns.items
    rw [hitems']
    exact alike_filter halike fun x y hxy => Alike.isDemonstrated_eq hxy
  | obj members =>
    rw [hvalue] at hruns
    obtain ⟨members', hmembers'⟩ := hruns.members
    rw [hmembers']
    exact .nil
  | _ =>
    rw [hvalue] at hruns
    rw [hruns.eq_of_scalar rfl]
    exact .nil

theorem mem_demonstrated (h : action ∈ demonstrated fields) :
    ∃ command, Json.get action "command" = .str command := by
  have hdemonstrated : isDemonstrated action = true := by
    unfold PromptProjection.demonstrated at h
    split at h
    · exact List.of_mem_filter h
    · cases h
  cases action with
  | obj members =>
    unfold isDemonstrated at hdemonstrated
    obtain ⟨-, hcommand⟩ := Bool.and_eq_true_iff.mp hdemonstrated
    unfold isCommand at hcommand
    split at hcommand
    · next command hvalue => exact ⟨command, hvalue⟩
    · cases hcommand
  | _ => cases hdemonstrated

theorem decoded_str (text : String) : Decoded (.str text) := ⟨trivial, rfl⟩

theorem decoded_cutText (maxLength : ℕ) (value : Json) : Decoded (cutText maxLength value) := by
  unfold cutText
  split
  · exact hereditary_decoded.null
  · exact decoded_str _

theorem decoded_metadataOf (h : Decoded action) : Decoded (metadataOf action) := by
  refine hereditary_decoded.obj _ ?_ fun m hm => ?_
  · show ["command", "title", "retry_context"].Nodup
    decide
  · simp only [List.mem_cons, List.not_mem_nil, or_false] at hm
    rcases hm with rfl | rfl | rfl
    · exact decoded_cutText _ _
    · exact decoded_cutText _ _
    · exact decoded_cutJson (hereditary_decoded.jsonGet h _) (by decide)

theorem sortKeys_cutText (maxLength : ℕ) (value : Json) :
    (cutText maxLength value).sortKeys = cutText maxLength value := by
  unfold cutText
  split
  · rfl
  · rfl

/-- The copies of two actions agree: the first characters of their titles, and
their retry contexts. -/
def SameActionCopy (action action' : Json) : Prop :=
  cutText maxActionTextLength (Json.get action "title") =
      cutText maxActionTextLength (Json.get action' "title") ∧
    SameCut maxRetryContextLength (Json.get action "retry_context")
      (Json.get action' "retry_context")

theorem metadataOf_sortKeys_iff (h : Alike action action') {command : String}
    (hcommand : Json.get action "command" = .str command) :
    (metadataOf action).sortKeys = (metadataOf action').sortKeys ↔
      SameActionCopy action action' := by
  have hsame : Json.get action' "command" = Json.get action "command" := by
    have hget : Alike (Json.get action "command") (Json.get action' "command") :=
      h.jsonGet (by decide)
    rw [hcommand] at hget
    rw [hcommand, hget.eq_of_scalar rfl]
  have hretry : Alike (Json.get action "retry_context") (Json.get action' "retry_context") :=
    h.jsonGet (by decide)
  have hkeys : ∀ P : String → Prop, (∀ key ∈ ["command", "title", "retry_context"], P key) ↔
      P "command" ∧ P "title" ∧ P "retry_context" := by simp
  refine (sortKeys_obj_iff (decoded_metadataOf h.decoded).distinct
    (decoded_metadataOf h.decoded').distinct rfl).trans ((hkeys _).trans ?_)
  show (cutText _ _).sortKeys = (cutText _ _).sortKeys ∧ (cutText _ _).sortKeys =
    (cutText _ _).sortKeys ∧ (cutJson _ _).sortKeys = (cutJson _ _).sortKeys ↔ _
  rw [sortKeys_cutText, sortKeys_cutText, sortKeys_cutText, sortKeys_cutText, hsame,
    cutJson_sortKeys_iff hretry.decoded hretry.decoded' (by decide)]
  exact and_iff_right rfl

theorem decoded_cutField {value : Json} (h : Decoded value) : Decoded (cutField value) := by
  unfold cutField
  split
  · exact decoded_cutText _ _
  · exact decoded_cutJson h (by decide)

/-- The copy of a field shows the value, or what the bound leaves of it. -/
theorem cutField_sortKeys_iff {value value' : Json} (h : Alike value value') :
    (cutField value).sortKeys = (cutField value').sortKeys ↔
      SameCut maxContextJsonLength value value' := by
  unfold cutField
  rw [h.isScalar_eq]
  by_cases hscalar : isScalar value = true
  · obtain rfl := h.eq_of_scalar hscalar
    exact ⟨fun _ => .inl rfl, fun _ => rfl⟩
  · rw [if_neg hscalar, if_neg hscalar]
    exact cutJson_sortKeys_iff h.decoded h.decoded' (by decide)

def contextKeys : List String :=
  contextFields ++ ["failed_action", "demonstrated_action_metadata",
    "successful_action_run_evidence", "episode_evidence"]

theorem decoded_contextOf (h : Decoded (.obj fields)) :
    Decoded (.obj (contextOf fields (demonstrated fields))) := by
  have hget := fun key => hereditary_decoded.get h key
  have hactions : ∀ action ∈ demonstrated fields, Decoded action := by
    intro action haction
    unfold PromptProjection.demonstrated at haction
    split at haction
    · next runs hruns =>
      exact hereditary_decoded.item _ (hruns ▸ hget "action_runs") action
        (List.mem_of_mem_filter haction)
    · cases haction
  refine hereditary_decoded.obj _ (show contextKeys.Nodup by decide) ?_
  unfold contextOf
  simp only [List.forall_mem_cons, List.not_mem_nil, false_implies, implies_true, and_true]
  refine ⟨decoded_cutField (hget _), decoded_cutField (hget _), decoded_cutField (hget _),
    decoded_cutField (hget _), decoded_cutField (hget _), decoded_cutField (hget _),
    decoded_cutField (hget _), decoded_cutField (hget _), decoded_cutField (hget _), hget _,
    hget _, decoded_cutField (hget _), decoded_cutField (hget _),
    decoded_cutJson (hget _) (by decide), ?_, ?_, decoded_withoutSensitive (hget _)⟩
  · refine hereditary_decoded.arr _ fun metadata hmetadata => ?_
    obtain ⟨action, haction, rfl⟩ := List.mem_map.mp hmetadata
    exact decoded_metadataOf (hactions action haction)
  · exact decoded_withoutSensitive (hereditary_decoded.arr _ hactions)

end Rows

section Noninterference

variable {fields fields' : Fields}

def cutFields : List String :=
  ["flow_name", "area_name", "item_name", "failure_status", "failure_reason", "failed_command",
    "robot_message", "auto_failure_reason", "resolution", "description", "failed_step"]

theorem cutFields_kept : ∀ field ∈ cutFields, isSensitiveKey field = false := by decide +kernel

theorem get_contextOf {actions : List Json} {field : String} (h : field ∈ cutFields) :
    Fields.get (contextOf fields actions) field = cutField (Fields.get fields field) := by
  unfold cutFields at h
  simp only [List.mem_cons, List.not_mem_nil, or_false] at h
  rcases h with rfl | rfl | rfl | rfl | rfl | rfl | rfl | rfl | rfl | rfl | rfl <;> rfl

/-- What the prompt has of two rows besides sanitized values is the same: the
copies of their fields, and those of their actions. -/
structure SameCopies (fields fields' : Fields) : Prop where
  copies : ∀ field ∈ "failed_action" :: cutFields,
    SameCut maxContextJsonLength (Fields.get fields field) (Fields.get fields' field)
  actions : List.Forall₂ SameActionCopy (demonstrated fields) (demonstrated fields')

/-- The metadata of alike actions is the same if their copies are. -/
theorem metadata_sortKeys_iff (h : Alike (.obj fields) (.obj fields')) :
    (Json.arr ((demonstrated fields).map metadataOf)).sortKeys =
        (Json.arr ((demonstrated fields').map metadataOf)).sortKeys ↔
      List.Forall₂ SameActionCopy (demonstrated fields) (demonstrated fields') := by
  have hactions : List.Forall₂ (fun action action' =>
      (∃ command, Json.get action "command" = .str command) ∧ Alike action action')
      (demonstrated fields) (demonstrated fields') :=
    (List.forall₂_and_left _ _).mpr ⟨fun _ haction => mem_demonstrated haction,
      Alike.demonstrated h⟩
  rw [sortKeys_arr, sortKeys_arr, Json.arr.injEq, ← List.forall₂_eq_eq_eq,
    List.forall₂_map_left_iff, List.forall₂_map_right_iff, List.forall₂_map_left_iff,
    List.forall₂_map_right_iff]
  constructor
  · refine List.Forall₂.mp (fun action action' haction hsame => ?_) hactions
    obtain ⟨⟨command, hcommand⟩, halike⟩ := haction
    exact (metadataOf_sortKeys_iff halike hcommand).mp hsame
  · refine List.Forall₂.mp (fun action action' haction hsame => ?_) hactions
    obtain ⟨⟨command, hcommand⟩, halike⟩ := haction
    exact (metadataOf_sortKeys_iff halike hcommand).mpr hsame

/-- The other members are sanitized, or are what makes the row eligible. -/
theorem contextOf_sortKeys_iff (h : Alike (.obj fields) (.obj fields'))
    (houtcome : Fields.get fields "outcome" = Fields.get fields' "outcome")
    (happlied : Fields.get fields "applied" = Fields.get fields' "applied") :
    (Json.obj (contextOf fields (demonstrated fields))).sortKeys =
        (Json.obj (contextOf fields' (demonstrated fields'))).sortKeys ↔
      SameCopies fields fields' := by
  have hfailedAction : Alike (Fields.get fields "failed_action")
      (Fields.get fields' "failed_action") := h.get (by decide +kernel)
  refine (sortKeys_obj_iff (decoded_contextOf h.decoded).distinct
    (decoded_contextOf h.decoded').distinct rfl).trans ?_
  constructor
  · intro hsame
    refine ⟨fun field hfield => ?_, (metadata_sortKeys_iff h).mp (hsame
      "demonstrated_action_metadata" (show _ ∈ contextKeys by decide))⟩
    rcases List.mem_cons.mp hfield with rfl | hfield
    · exact (cutJson_sortKeys_iff hfailedAction.decoded hfailedAction.decoded' (by decide)).mp
        (hsame "failed_action" (show _ ∈ contextKeys by decide))
    · have hkey : field ∈ contextKeys := by
        revert field
        decide
      have hcut := hsame field hkey
      rw [get_contextOf hfield, get_contextOf hfield] at hcut
      exact (cutField_sortKeys_iff (h.get (cutFields_kept field hfield))).mp hcut
  · intro hcopies key hkey
    have hcases : ∀ key ∈ contextKeys, key ∈ cutFields ∨ key ∈ ["outcome", "applied",
        "failed_action", "demonstrated_action_metadata", "successful_action_run_evidence",
        "episode_evidence"] := by decide
    rcases hcases key hkey with hcut | hother
    · rw [get_contextOf hcut, get_contextOf hcut]
      exact (cutField_sortKeys_iff (h.get (cutFields_kept key hcut))).mpr
        (hcopies.copies key (List.mem_cons_of_mem _ hcut))
    · simp only [List.mem_cons, List.not_mem_nil, or_false] at hother
      rcases hother with rfl | rfl | rfl | rfl | rfl | rfl
      · exact congrArg Json.sortKeys houtcome
      · exact congrArg Json.sortKeys happlied
      · exact (cutJson_sortKeys_iff hfailedAction.decoded hfailedAction.decoded' (by decide)).mpr
          (hcopies.copies "failed_action" (List.mem_cons_self ..))
      · exact (metadata_sortKeys_iff h).mpr hcopies.actions
      · exact (Alike.arr (Alike.demonstrated h)).same
      · have hevidence : Alike (Fields.get fields "episode_evidence")
            (Fields.get fields' "episode_evidence") := h.get (by decide +kernel)
        exact hevidence.same

theorem decoded_payloadOf {context : Fields} (h : Decoded (.obj context)) :
    Decoded (payloadOf context) := by
  refine hereditary_decoded.obj _ (show ["task", "untrusted_resolution_data"].Nodup by decide) ?_
  simp only [List.forall_mem_cons, List.not_mem_nil, false_implies, implies_true, and_true]
  exact ⟨decoded_str _, h⟩

theorem payloadOf_sortKeys_iff {context context' : Fields} (h : Decoded (.obj context))
    (h' : Decoded (.obj context')) :
    (payloadOf context).sortKeys = (payloadOf context').sortKeys ↔
      (Json.obj context).sortKeys = (Json.obj context').sortKeys := by
  refine (sortKeys_obj_iff (decoded_payloadOf h).distinct (decoded_payloadOf h').distinct
    rfl).trans ?_
  constructor
  · intro hsame
    exact hsame "untrusted_resolution_data" (by simp)
  · intro hsame key hkey
    simp only [List.map_cons, List.map_nil, List.mem_cons, List.not_mem_nil, or_false] at hkey
    rcases hkey with rfl | rfl
    · rfl
    · exact hsame

/-- An eligible row is resolved and applied. -/
theorem inputPayload_eligible {text : List Char} (h : inputPayload fields = .ok text) :
    Fields.get fields "outcome" = .str "resolved" ∧ Fields.get fields "applied" = .bool true := by
  obtain ⟨actions, h, -⟩ := bind_eq_ok.mp h
  unfold demonstratedActions at h
  split at h
  · cases h
  · next houtcome =>
    split at h
    · cases h
    · next happlied =>
      refine ⟨pyEq_str.mp (by simpa using houtcome), ?_⟩
      rw [Bool.not_eq_false] at happlied
      unfold JsonValue.isTrue at happlied
      split at happlied
      · next hflag => exact hflag
      · cases happlied

/-- Two rows that differ in sensitive entries only give the same prompt if and only
if the copies that are not sanitized agree. -/
theorem payload_same_iff (row row' : JsonRow) {text text' : List Char}
    (hsame : (withoutSensitive (.obj row.fields)).sortKeys =
      (withoutSensitive (.obj row'.fields)).sortKeys)
    (h : inputPayload row.fields = .ok text) (h' : inputPayload row'.fields = .ok text') :
    text = text' ↔ SameCopies row.fields row'.fields := by
  have halike : Alike (.obj row.fields) (.obj row'.fields) := ⟨row.decoded, row'.decoded, hsame⟩
  obtain ⟨houtcome, happlied⟩ := inputPayload_eligible h
  obtain ⟨houtcome', happlied'⟩ := inputPayload_eligible h'
  have hcontext := decoded_contextOf row.decoded
  have hcontext' := decoded_contextOf row'.decoded
  rw [inputPayload_eq_ok h, inputPayload_eq_ok h',
    Decoded.serialized_eq_iff (decoded_payloadOf hcontext) (decoded_payloadOf hcontext'),
    payloadOf_sortKeys_iff hcontext hcontext',
    contextOf_sortKeys_iff halike (houtcome.trans houtcome'.symm) (happlied.trans happlied'.symm)]

end Noninterference

section Sample

def sampleRow (token : String) : JsonRow where
  fields := [("outcome", .str "resolved"), ("applied", .bool true),
    ("failed_action", .obj [("command", .str "open_door"), ("api_token", .str token)]),
    ("action_runs", .arr [.obj [("command", .str "open_door"), ("status", .str "sent")]])]
  decoded := ⟨by simp [Json.Distinct, Json.DistinctMembers, Json.DistinctItems], rfl⟩

/-- Without its sensitive entries the row does not depend on the token. -/
theorem sampleRow_alike (token token' : String) :
    withoutSensitive (.obj (sampleRow token).fields) =
      withoutSensitive (.obj (sampleRow token').fields) := by
  have hkept : ∀ key ∈ ["outcome", "applied", "failed_action", "action_runs", "command", "status"],
      isSensitiveKey key = false := by decide +kernel
  have htoken : isSensitiveKey "api_token" = true := by decide +kernel
  simp [sampleRow, withoutSensitive, withoutSensitiveMembers, withoutSensitiveItems, hkept, htoken]

def textsDiffer : Except PyExc (List Char) → Except PyExc (List Char) → Bool
  | .ok text, .ok text' => text ≠ text'
  | _, _ => false

theorem textsDiffer_eq_true {x y : Except PyExc (List Char)} (h : textsDiffer x y = true) :
    ∃ text text', x = .ok text ∧ y = .ok text' ∧ text ≠ text' := by
  cases x with
  | error e => cases h
  | ok text =>
    cases y with
    | error e => cases h
    | ok text' => exact ⟨text, text', rfl, rfl, of_decide_eq_true h⟩

theorem sample_texts : ∃ text text', inputPayload (sampleRow "alpha").fields = .ok text ∧
    inputPayload (sampleRow "beta").fields = .ok text' ∧ text ≠ text' := by
  apply textsDiffer_eq_true
  decide +kernel

theorem sample_same_iff : ∃ text text', inputPayload (sampleRow "alpha").fields = .ok text ∧
    inputPayload (sampleRow "beta").fields = .ok text' ∧
    (text = text' ↔ SameCopies (sampleRow "alpha").fields (sampleRow "beta").fields) := by
  obtain ⟨text, text', h, h', -⟩ := sample_texts
  exact ⟨text, text', h, h', payload_same_iff (sampleRow "alpha") (sampleRow "beta")
    (congrArg Json.sortKeys (sampleRow_alike "alpha" "beta")) h h'⟩

/-- The token of the failed action reaches the prompt. -/
theorem token_shown : ∃ text text',
    (withoutSensitive (.obj (sampleRow "alpha").fields)).sortKeys =
      (withoutSensitive (.obj (sampleRow "beta").fields)).sortKeys ∧
    inputPayload (sampleRow "alpha").fields = .ok text ∧
    inputPayload (sampleRow "beta").fields = .ok text' ∧ text ≠ text' := by
  obtain ⟨text, text', h, h', hne⟩ := sample_texts
  exact ⟨text, text', congrArg Json.sortKeys (sampleRow_alike "alpha" "beta"), h, h', hne⟩

end Sample

end FailureResolver.PromptProjection
