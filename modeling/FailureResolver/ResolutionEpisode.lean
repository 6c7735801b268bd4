import FailureResolver.ResolutionMemory
import FailureResolver.RowText

/-!
The episode a memory is learned from: one resolution row joined to its failure
row. The resolution stays authoritative, the failure only fills absent fields,
and both rows are kept as evidence. Everything a memory is hashed from comes out
of `learnedSource`.
-/

namespace FailureResolver.ResolutionEpisode

open EpisodeEvidence JsonValue PyException PyText ResolutionMemory RowText

section Actions

def isCommand : Json → Bool
  | .str command => strip command ≠ ""
  | _ => false

def hasUsableRerunContext (action : Fields) : Bool :=
  match Fields.get action "command" with
  | .str command =>
      if strip command ≠ "$rerun" then true
      else match Json.get (Fields.get action "retry_context") "retried_action" with
        | .obj retriedAction =>
            !retriedAction.isEmpty && isCommand (Fields.get retriedAction "command")
        | _ => false
  | _ => true

def isSent (action : Fields) : Bool :=
  match Fields.get action "status" with
  | .str status => status = "sent"
  | _ => false

def isSuccessfulRun : Json → Bool
  | .obj action =>
      isSent action && isCommand (Fields.get action "command") && hasUsableRerunContext action
  | _ => false

def successfulActionRuns (row : Fields) : List Json :=
  match Fields.get row "action_runs" with
  | .arr actionRuns => actionRuns.filter isSuccessfulRun
  | _ => []

def isPositiveDemonstration (row : Fields) : Bool :=
  normalizedText (Fields.get row "outcome") = "resolved" && isTrue (Fields.get row "applied") &&
    !(successfulActionRuns row).isEmpty

def rowWithSuccessfulActions (row : Fields) : Fields :=
  Fields.set row "action_runs" (.arr (successfulActionRuns row))

end Actions

section Context

def isMissingContextValue : Json → Bool
  | .null => true
  | .str s => strip s = ""
  | _ => false

def directFields : List String :=
  ["sysid", "site_id", "site", "floor", "room_number", "map_id", "map_name", "map_observed_at",
    "flow_id", "flow_name", "activity_id", "area_name", "item_name", "robot_version",
    "robot_status", "navigation", "arm_state", "mapping_pose", "status_reported_at",
    "flow_snapshot", "run_code"]

def aliases : List (String × List String) :=
  [("failure_status", ["failure_status", "flow_status", "action_status"]),
    ("failure_reason", ["failure_reason", "description", "reported_cause", "reported_error"]),
    ("failed_command", ["failed_command", "action_command"]),
    ("failed_action", ["failed_action", "failed_step"]),
    ("description", ["description", "failure_reason"]),
    ("failed_step", ["failed_step"]),
    ("robot_message", ["robot_message", "reported_error"]),
    ("auto_failure_reason", ["auto_failure_reason", "reported_cause"])]

def locationFields : List String :=
  ["site_id", "site", "floor", "room_number", "map_id", "map_name", "map_observed_at"]

def project (projected : Fields) (field : String) (value : Json) : Fields :=
  if isMissingContextValue value then projected else Fields.set projected field value

def projectAbsent (projected : Fields) (field : String) (value : Json) : Fields :=
  if Fields.has projected field then projected else project projected field value

def firstPresent (failure : Fields) (candidates : List String) : Json :=
  ((candidates.map (Fields.get failure)).find? (fun value => !isMissingContextValue value)).getD
    .null

/-- Members of a part of the context for fields that are still absent. -/
def projectPart (part : Json) (fields : List (String × String)) (projected : Fields) : Fields :=
  match part with
  | .obj members =>
      fields.foldl (fun projected field => projectAbsent projected field.1
        (Fields.get members field.2)) projected
  | _ => projected

def projectNavigation (context projected : Fields) : Fields :=
  if Fields.has projected "navigation" = false ∧ isMapping (Fields.get context "navigation") then
    Fields.set projected "navigation" (Fields.get context "navigation")
  else projected

def projectContext (context : Json) (projected : Fields) : Fields :=
  match context with
  | .obj context =>
      projectNavigation context
        (projectPart (Fields.get context "action")
          [("area_name", "area_name"), ("item_name", "item_name")]
          (projectPart (Fields.get context "flow") [("site", "site"), ("room_number", "room")]
            (projectPart (Fields.get context "location")
              (locationFields.map fun field => (field, field)) projected)))
  | _ => projected

def projectFailureContext (failure : Fields) : Fields :=
  projectContext (Fields.get failure "sanitized_context")
    (aliases.foldl (fun projected column => project projected column.1
        (firstPresent failure column.2))
      (directFields.foldl (fun projected field => project projected field
        (Fields.get failure field)) []))

def fillContext (resolution : Fields) (failure : Option Fields) : Fields :=
  match failure with
  | none => resolution
  | some failure =>
      (projectFailureContext failure).foldl (fun prepared member =>
        if isMissingContextValue (Fields.get prepared member.1) then
          Fields.set prepared member.1 member.2
        else prepared) resolution

end Context

section Inherited

variable {P : Json → Prop} {failure resolution row projected : Fields}

theorem inherits_project (hP : Hereditary P) (h : P (.obj projected)) (field : String)
    {value : Json} (hvalue : P value) : P (.obj (project projected field value)) := by
  unfold project
  split
  · exact h
  · exact hP.set _ field _ h hvalue

theorem inherits_projectPart (hP : Hereditary P) (h : P (.obj projected)) {part : Json}
    (hpart : P part) (fields : List (String × String)) :
    P (.obj (projectPart part fields projected)) := by
  unfold projectPart
  split
  · refine List.foldlRecOn (motive := fun fields => P (.obj fields)) _ _ h ?_
    intro projected hprojected field _
    unfold projectAbsent
    split
    · exact hprojected
    · exact inherits_project hP hprojected _ (hP.get hpart _)
  · exact h

theorem inherits_projectContext (hP : Hereditary P) (h : P (.obj projected)) {context : Json}
    (hcontext : P context) : P (.obj (projectContext context projected)) := by
  unfold projectContext
  split
  · next context =>
    have hget := fun key => hP.get hcontext key
    have hparts := inherits_projectPart hP (inherits_projectPart hP (inherits_projectPart hP h
      (hget "location") (locationFields.map fun field => (field, field))) (hget "flow")
      [("site", "site"), ("room_number", "room")]) (hget "action")
      [("area_name", "area_name"), ("item_name", "item_name")]
    unfold projectNavigation
    split
    · exact hP.set _ _ _ hparts (hget "navigation")
    · exact hparts
  · exact h

theorem inherits_firstPresent (hP : Hereditary P) (h : P (.obj failure))
    (candidates : List String) : P (firstPresent failure candidates) := by
  unfold firstPresent
  cases hfound : (candidates.map (Fields.get failure)).find?
      (fun value => !isMissingContextValue value) with
  | none => exact hP.null
  | some value =>
    obtain ⟨key, -, rfl⟩ := List.mem_map.mp (List.mem_of_find?_eq_some hfound)
    exact hP.get h key

theorem inherits_projectFailureContext (hP : Hereditary P) (h : P (.obj failure)) :
    P (.obj (projectFailureContext failure)) := by
  unfold projectFailureContext
  have hempty : P (.obj []) := hP.obj [] (by simp) (by simp)
  refine inherits_projectContext hP (List.foldlRecOn (motive := fun fields => P (.obj fields))
    _ _ (List.foldlRecOn (motive := fun fields => P (.obj fields)) _ _ hempty ?_) ?_)
    (hP.get h "sanitized_context")
  · intro projected hprojected field _
    exact inherits_project hP hprojected field (hP.get h field)
  · intro projected hprojected column _
    exact inherits_project hP hprojected column.1 (inherits_firstPresent hP h column.2)

theorem inherits_fillContext (hP : Hereditary P) {failure : Option Fields}
    (hresolution : P (.obj resolution))
    (hfailure : ∀ fields, failure = some fields → P (.obj fields)) :
    P (.obj (fillContext resolution failure)) := by
  cases failure with
  | none => exact hresolution
  | some failure =>
    unfold fillContext
    refine List.foldlRecOn (motive := fun fields => P (.obj fields)) _ _ hresolution ?_
    intro prepared hprepared member hmember
    split
    · exact hP.set _ _ _ hprepared (hP.member _
        (inherits_projectFailureContext hP (hfailure failure rfl)) member hmember)
    · exact hprepared

def projectedFields : List String :=
  directFields ++ aliases.map Prod.fst ++ locationFields ++
    ["site", "room_number", "area_name", "item_name", "navigation"]

def Projected (projected : Fields) : Prop := ∀ m ∈ projected, m.1 ∈ projectedFields

theorem Projected.set (h : Projected projected) {field : String} {value : Json}
    (hfield : field ∈ projectedFields) : Projected (Fields.set projected field value) := by
  intro m hm
  rcases mem_set hm with hm | rfl
  · exact h m hm
  · exact hfield

theorem Projected.project (h : Projected projected) {field : String} {value : Json}
    (hfield : field ∈ projectedFields) : Projected (project projected field value) := by
  unfold ResolutionEpisode.project
  split
  · exact h
  · exact h.set hfield

theorem Projected.projectPart (h : Projected projected) (part : Json)
    (fields : List (String × String)) (hfields : ∀ field ∈ fields, field.1 ∈ projectedFields) :
    Projected (projectPart part fields projected) := by
  unfold ResolutionEpisode.projectPart
  split
  · refine List.foldlRecOn (motive := Projected) _ _ h fun projected hprojected field hfield => ?_
    unfold projectAbsent
    split
    · exact hprojected
    · exact hprojected.project (hfields field hfield)
  · exact h

theorem projected_projectFailureContext (failure : Fields) :
    Projected (projectFailureContext failure) := by
  have hdirect : Projected (directFields.foldl (fun projected field => project projected field
      (Fields.get failure field)) []) := by
    refine List.foldlRecOn (motive := Projected) _ _ (by simp [Projected]) ?_
    intro projected hprojected field hfield
    refine hprojected.project ?_
    unfold projectedFields
    simp only [List.append_assoc, List.mem_append]
    exact .inl hfield
  have haliases : Projected (aliases.foldl (fun projected column => project projected column.1
      (firstPresent failure column.2)) (directFields.foldl (fun projected field =>
        project projected field (Fields.get failure field)) [])) := by
    refine List.foldlRecOn (motive := Projected) _ _ hdirect ?_
    intro projected hprojected column hcolumn
    refine hprojected.project ?_
    unfold projectedFields
    simp only [List.append_assoc, List.mem_append]
    exact .inr (.inl (List.mem_map_of_mem hcolumn))
  unfold projectFailureContext projectContext
  split
  · have hparts := fun (context : Fields) => ((haliases.projectPart
      (Fields.get context "location") (locationFields.map fun field => (field, field))
      (by decide)).projectPart (Fields.get context "flow")
      [("site", "site"), ("room_number", "room")] (by decide)).projectPart
      (Fields.get context "action") [("area_name", "area_name"), ("item_name", "item_name")]
      (by decide)
    unfold projectNavigation
    split
    · exact (hparts _).set (by decide)
    · exact hparts _
  · exact haliases

/-- Another field is that of the resolution. -/
theorem get_fillContext_other (failure : Option Fields) {key : String}
    (hkey : key ∉ projectedFields) :
    Fields.get (fillContext resolution failure) key = Fields.get resolution key := by
  cases failure with
  | none => rfl
  | some failure =>
    unfold fillContext
    refine List.foldlRecOn (motive := fun prepared => Fields.get prepared key =
      Fields.get resolution key) _ _ rfl fun prepared hprepared member hmember => ?_
    split
    · have hne : key ≠ member.1 := by
        intro heq
        rw [heq] at hkey
        exact hkey (projected_projectFailureContext failure member hmember)
      rw [get_set_other hne]
      exact hprepared
    · exact hprepared

theorem inherits_successfulActionRuns (hP : Hereditary P) (h : P (.obj row)) :
    P (.arr (successfulActionRuns row)) := by
  have hruns := hP.get h "action_runs"
  unfold successfulActionRuns
  split
  · next runs heq =>
    rw [heq] at hruns
    exact hP.arr _ fun x hx => hP.item _ hruns x (List.mem_of_mem_filter hx)
  · exact hP.arr _ (by simp)

end Inherited

section Source

def failureEvent (failure : Option Fields) : Except PyExc Json :=
  match failure with
  | none => .ok .null
  | some failure => sanitizeEpisodeRecord failure

def buildEpisodeEvidence (failure : Option Fields) (resolution : Fields) :
    Except PyExc Fields := do
  let failureEvent ← failureEvent failure
  let resolutionEvent ← sanitizeEpisodeRecord resolution
  validateEpisodeEvidence
    (.obj [("failure_event", failureEvent), ("resolution_event", resolutionEvent)])

def resolutionWithFailureContext (resolution : Fields) (failure : Option Fields) :
    Except PyExc Fields :=
  (buildEpisodeEvidence failure resolution).map fun evidence =>
    Fields.set (fillContext resolution failure) "episode_evidence" (.obj evidence)

def memoryRow (resolution : Fields) (failure : Option Fields) : Except PyExc Fields :=
  (resolutionWithFailureContext resolution failure).map rowWithSuccessfulActions

def learnedSource (resolution : Fields) (failure : Option Fields) :
    Except PyExc ResolutionSource :=
  memoryRow resolution failure >>= resolutionSourceFromRow

/-- The evidence of two rows is valid, and distinct if they are. -/
theorem buildEpisodeEvidence_valid {failure : Option Fields} {resolution evidence : Fields}
    (hresolution : Json.Distinct (.obj resolution))
    (hfailure : ∀ fields, failure = some fields → Json.Distinct (.obj fields))
    (h : buildEpisodeEvidence failure resolution = .ok evidence) :
    Json.Distinct (.obj evidence) ∧ Valid evidence := by
  obtain ⟨failureEvent, hevent, h⟩ := bind_eq_ok.mp h
  obtain ⟨resolutionEvent, hrecord, h⟩ := bind_eq_ok.mp h
  obtain ⟨hsanitize, hvalid⟩ := validate_eq_ok.mp h
  have hfailureEvent : failureEvent.Distinct := by
    cases failure with
    | none =>
      cases hevent
      trivial
    | some failure => exact sanitizeValue_distinct 0 _ (hfailure failure rfl) hevent
  have hresolutionEvent := sanitizeValue_distinct 0 _ hresolution hrecord
  refine ⟨sanitizeValue_distinct 0 _ (distinct_obj.mpr ⟨?_, fun m hm => ?_⟩) hsanitize, hvalid⟩
  · show ["failure_event", "resolution_event"].Nodup
    decide
  · rcases List.mem_cons.mp hm with rfl | hm
    · exact hfailureEvent
    · rw [List.mem_singleton.mp hm]
      exact hresolutionEvent

/-- What the resolution has is not filled from the failure. -/
theorem get_fillContext {resolution : Fields} (failure : Option Fields) {key : String}
    (h : isMissingContextValue (Fields.get resolution key) = false) :
    Fields.get (fillContext resolution failure) key = Fields.get resolution key := by
  cases failure with
  | none => rfl
  | some failure =>
    unfold fillContext
    simp only
    generalize projectFailureContext failure = projected
    induction projected generalizing resolution with
    | nil => rfl
    | cons member rest ih =>
      rw [List.foldl_cons]
      split
      · next hmissing =>
        have hne : key ≠ member.1 := by
          intro heq
          rw [heq, hmissing] at h
          cases h
        have hsame : Fields.get (Fields.set resolution member.1 member.2) key =
            Fields.get resolution key := get_set_other hne
        rw [ih (by rw [hsame]; exact h), hsame]
      · exact ih h

theorem get_memoryRow {resolution row : Fields} {failure : Option Fields} {key : String}
    (h : memoryRow resolution failure = .ok row)
    (hkey : key ∉ ["action_runs", "episode_evidence"])
    (hthere : isMissingContextValue (Fields.get resolution key) = false) :
    Fields.get row key = Fields.get resolution key := by
  obtain ⟨prepared, hprepared, rfl⟩ := map_eq_ok.mp h
  obtain ⟨evidence, -, rfl⟩ := map_eq_ok.mp hprepared
  simp only [List.mem_cons, List.not_mem_nil, or_false, not_or] at hkey
  unfold rowWithSuccessfulActions
  rw [get_set_other hkey.1, get_set_other hkey.2, get_fillContext failure hthere]

/-- Preparing a row raises no cancellation. -/
theorem errorOnly_memoryRow (resolution : Fields) (failure : Option Fields) :
    ErrorOnly (memoryRow resolution failure) := by
  unfold memoryRow resolutionWithFailureContext buildEpisodeEvidence
  refine ErrorOnly.map (ErrorOnly.map (ErrorOnly.bind ?_ fun failureEvent =>
    (errorOnly_sanitizeValue 0 _).bind fun resolutionEvent =>
      errorOnly_validateEpisodeEvidence _) _) _
  unfold failureEvent
  split
  · exact errorOnly_ok _
  · exact errorOnly_sanitizeValue 0 _

end Source

end FailureResolver.ResolutionEpisode
