import FailureResolver.EpisodeEvidence
import FailureResolver.JsonRoundTrip
import FailureResolver.PyUuid
import FailureResolver.Sha256

/-!
The canonical source of a memory, and the draft prepared from it. A source keeps
its payload as text and hands out what the text decodes to. `Genuine` records
what normalizing a database row establishes, `Prepared` what constructing a draft
checks; a memory draft carries both.
-/

namespace FailureResolver.ResolutionMemory

open EpisodeEvidence JsonRoundTrip JsonText JsonValue PyException PyText PyUuid

def gitMemoryError (message : String) : PyExc := ⟨.gitMemory, message⟩

def rejectMemory {α : Type} (message : String) : Except PyExc α := .error (gitMemoryError message)

theorem rejectMemory_ite_eq_ok {α : Type} {p : Prop} [Decidable p] {message : String}
    {x : Except PyExc α} {a : α} :
    (if p then rejectMemory message else x) = .ok a ↔ ¬ p ∧ x = .ok a := by
  split <;> simp_all [rejectMemory]

section Source

def sourceFields : List String :=
  ["resolution_id", "failure_id", "sysid", "site_id", "site", "floor", "room_number", "map_id",
    "map_name", "map_observed_at", "flow_id", "flow_name", "activity_id", "area_name",
    "item_name", "failure_status", "failure_reason", "failed_command", "failed_action",
    "robot_message", "auto_failure_reason", "resolution", "actions", "action_runs",
    "action_specs", "robot_version", "robot_status", "navigation", "arm_state", "mapping_pose",
    "status_reported_at", "flow_snapshot", "run_code", "outcome", "applied", "captured_at",
    "resolved_at", "created_at", "description", "failed_step", "episode_evidence"]

structure ResolutionSource where
  resolutionId : String
  failureId : Option String
  sourceHash : String
  canonicalPayloadJson : List Char

def ResolutionSource.payload (source : ResolutionSource) : Fields :=
  match loads source.canonicalPayloadJson with
  | some (.obj payload) => payload
  | _ => []

def ResolutionSource.dispatchedActions (source : ResolutionSource) : List Json :=
  match Fields.get source.payload "action_runs" with
  | .arr actions => actions
  | _ => []

def canonicalUuid (value : Json) (fieldName : String) : Except PyExc String :=
  match value with
  | .str s =>
      match parseUuid (strip s) with
      | some n => .ok (formatUuid n)
      | none => rejectMemory (fieldName ++ " must be a UUID")
  | _ => rejectMemory (fieldName ++ " must be a UUID")

def optionalRowText (row : Fields) (key : String) : Except PyExc (Option String) :=
  match Fields.get row key with
  | .null => .ok none
  | .str s => .ok (if strip s = "" then none else some (strip s))
  | _ => rejectMemory (key ++ " must be text or null")

def optionalText : Option String → Json
  | none => .null
  | some s => .str s

/-- `if payload.get(key) is None: payload[key] = value`. -/
def fillNull (payload : Fields) (key : String) (value : Json) : Fields :=
  if (Fields.get payload key).isNull then Fields.set payload key value else payload

/-- The map of the navigation state stands in for a missing map of the row. -/
def withCurrentMap (row payload : Fields) : Fields :=
  match Json.get (Fields.get row "navigation") "current_map" with
  | .obj currentMap =>
      fillNull (fillNull (fillNull payload "map_id" (Fields.get currentMap "id"))
        "map_name" (Fields.get currentMap "map_name"))
        "map_observed_at" (Fields.get row "status_reported_at")
  | _ => payload

def isArrayOfObjects : Json → Bool
  | .arr items => items.all isMapping
  | _ => false

def withEpisodeEvidence (payload : Fields) : Except PyExc Fields :=
  match Fields.get payload "episode_evidence" with
  | .null => .ok payload
  | value => (validateEpisodeEvidence value).map
      (fun evidence => Fields.set payload "episode_evidence" (.obj evidence))

def withActionRuns (payload : Fields) : Fields :=
  if (Fields.get payload "action_runs").isNull then Fields.set payload "action_runs" (.arr [])
  else payload

def notJson : String := "Resolution source must contain JSON values"

/-- The source of a payload that went through the encoder once. -/
def sourceOfCanonical (resolutionId : String) (failureId : Option String) (canonical : Fields) :
    Except PyExc ResolutionSource :=
  if isArrayOfObjects (Fields.get canonical "action_runs") = false then
    rejectMemory "action_runs must be an array of objects"
  else match dumps compactStyle (Json.sortKeys (.obj canonical)) with
    | none => refuse notJson
    | some sourceJson => .ok ⟨resolutionId, failureId, Sha256.hexDigest sourceJson, sourceJson⟩

def optionalUuid (value : Json) (fieldName : String) : Except PyExc (Option String) :=
  if value.isNull then .ok none else (canonicalUuid value fieldName).map some

def appliedOfRow (row : Fields) : Except PyExc Bool :=
  match if Fields.has row "applied" then Fields.get row "applied" else .bool false with
  | .bool applied => .ok applied
  | _ => rejectMemory "applied must be a boolean"

/-- The selected fields with the ids, the outcome and the flag in normal form. -/
def payloadOfRow (row : Fields) (resolutionId : String) (failureId : Option String)
    (outcome : String) (applied : Bool) : Fields :=
  let selected := sourceFields.map (fun field => (field, Fields.get row field))
  Fields.set (Fields.set (Fields.set (Fields.set selected "resolution_id" (.str resolutionId))
    "failure_id" (optionalText failureId)) "outcome" (.str outcome)) "applied" (.bool applied)

/-- Normalize a resolution row and calculate its source hash. -/
def resolutionSourceFromRow (row : Fields) : Except PyExc ResolutionSource := do
  let resolutionId ← canonicalUuid (Fields.get row "resolution_id") "resolution_id"
  let failureId ← optionalUuid (Fields.get row "failure_id") "failure_id"
  let applied ← appliedOfRow row
  let outcome ← optionalRowText row "outcome"
  let payload ← withEpisodeEvidence
    (payloadOfRow row resolutionId failureId (outcome.getD "recorded") applied)
  match dumps compactStyle (Json.sortKeys (.obj (withCurrentMap row payload))) with
  | none => rejectMemory notJson
  | some text =>
      match loads text with
      | some (.obj canonical) => sourceOfCanonical resolutionId failureId (withActionRuns canonical)
      | _ => rejectMemory notJson

theorem errorOnly_rejectMemory {α : Type} (message : String) :
    ErrorOnly (rejectMemory message : Except PyExc α) := errorOnly_error rfl

theorem errorOnly_canonicalUuid (value : Json) (fieldName : String) :
    ErrorOnly (canonicalUuid value fieldName) := by
  unfold canonicalUuid
  split
  · split
    · exact errorOnly_ok _
    · exact errorOnly_rejectMemory _
  · exact errorOnly_rejectMemory _

theorem errorOnly_optionalRowText (row : Fields) (key : String) :
    ErrorOnly (optionalRowText row key) := by
  unfold optionalRowText
  split
  · exact errorOnly_ok _
  · exact errorOnly_ok _
  · exact errorOnly_rejectMemory _

theorem errorOnly_appliedOfRow (row : Fields) : ErrorOnly (appliedOfRow row) := by
  unfold appliedOfRow
  split
  · exact errorOnly_ok _
  · exact errorOnly_rejectMemory _

theorem errorOnly_withEpisodeEvidence (payload : Fields) :
    ErrorOnly (withEpisodeEvidence payload) := by
  unfold withEpisodeEvidence
  split
  · exact errorOnly_ok _
  · exact (errorOnly_validateEpisodeEvidence _).map _

theorem errorOnly_sourceOfCanonical (resolutionId : String) (failureId : Option String)
    (canonical : Fields) : ErrorOnly (sourceOfCanonical resolutionId failureId canonical) := by
  unfold sourceOfCanonical
  refine (errorOnly_rejectMemory _).ite ?_
  split
  · exact errorOnly_refuse _
  · exact errorOnly_ok _

/-- Normalizing a row raises no cancellation. -/
theorem errorOnly_resolutionSourceFromRow (row : Fields) :
    ErrorOnly (resolutionSourceFromRow row) := by
  unfold resolutionSourceFromRow
  refine (errorOnly_canonicalUuid _ _).bind fun resolutionId => ErrorOnly.bind ?_ fun failureId =>
    (errorOnly_appliedOfRow row).bind fun applied =>
      (errorOnly_optionalRowText row _).bind fun outcome =>
        (errorOnly_withEpisodeEvidence _).bind fun payload => ?_
  · exact (errorOnly_ok _).ite ((errorOnly_canonicalUuid _ _).map some)
  · split
    · exact errorOnly_rejectMemory _
    · split
      · exact errorOnly_sourceOfCanonical _ _ _
      · exact errorOnly_rejectMemory _

def maxListLength : ℕ := 2 ^ 63

structure ResolutionSource.Genuine (source : ResolutionSource) : Prop where
  bounded : source.dispatchedActions.length < maxListLength
  resolutionId : ∃ n < 2 ^ 128, source.resolutionId = formatUuid n
  sourceHash : source.sourceHash = Sha256.hexDigest source.canonicalPayloadJson
  sorted : Json.sortKeys (.obj source.payload) = .obj source.payload
  distinct : Json.Distinct (.obj source.payload)
  printable : printable (.obj source.payload) = true
  actionRuns : ∃ actions, Fields.get source.payload "action_runs" = .arr actions ∧
    ∀ action ∈ actions, ∃ members, action = .obj members
  episodeEvidence : Fields.get source.payload "episode_evidence" = .null ∨
    ∃ evidence, Fields.get source.payload "episode_evidence" = .obj evidence ∧ Valid evidence

end Source

section Genuine

variable {row payload payload' canonical : Fields} {source : ResolutionSource}

theorem canonicalUuid_eq_ok {value : Json} {fieldName uuid : String}
    (h : canonicalUuid value fieldName = .ok uuid) : ∃ n < 2 ^ 128, uuid = formatUuid n := by
  unfold canonicalUuid at h
  split at h
  · split at h
    · next s n hparse =>
      rw [Except.ok.injEq] at h
      exact ⟨n, parseUuid_lt hparse, h.symm⟩
    · cases h
  · cases h

theorem inherits_fillNull {P : Json → Prop} (hP : Hereditary P) (h : P (.obj payload))
    (key : String) {value : Json} (hvalue : P value) :
    P (.obj (fillNull payload key value)) := by
  unfold fillNull
  split
  · exact hP.set _ key _ h hvalue
  · exact h

theorem get_fillNull_other {key other : String} (hne : other ≠ key) (value : Json) :
    Fields.get (fillNull payload key value) other = Fields.get payload other := by
  unfold fillNull
  split
  · exact get_set_other hne
  · rfl

theorem inherits_withCurrentMap {P : Json → Prop} (hP : Hereditary P) (hrow : P (.obj row))
    (hpayload : P (.obj payload)) : P (.obj (withCurrentMap row payload)) := by
  unfold withCurrentMap
  split
  · next currentMap hmap =>
    have hcurrent : P (.obj currentMap) := by
      rw [← hmap]
      exact hP.jsonGet (hP.get hrow "navigation") "current_map"
    exact inherits_fillNull hP (inherits_fillNull hP (inherits_fillNull hP hpayload "map_id"
      (hP.get hcurrent "id")) "map_name" (hP.get hcurrent "map_name"))
      "map_observed_at" (hP.get hrow "status_reported_at")
  · exact hpayload

theorem get_withCurrentMap (row payload : Fields) {key : String}
    (hkey : key ∉ ["map_id", "map_name", "map_observed_at"]) :
    Fields.get (withCurrentMap row payload) key = Fields.get payload key := by
  simp only [List.mem_cons, List.not_mem_nil, or_false, not_or] at hkey
  unfold withCurrentMap
  split
  · rw [get_fillNull_other hkey.2.2, get_fillNull_other hkey.2.1, get_fillNull_other hkey.1]
  · rfl

/-- A field without a normal form is selected as it is. -/
theorem get_payloadOfRow (row : Fields) (resolutionId : String) (failureId : Option String)
    (outcome : String) (applied : Bool) {key : String} (hkey : key ∈ sourceFields)
    (hplain : key ∉ ["resolution_id", "failure_id", "outcome", "applied"]) :
    Fields.get (payloadOfRow row resolutionId failureId outcome applied) key =
      Fields.get row key := by
  have hselected : ∀ fields : List String, key ∈ fields →
      Fields.get (fields.map (fun field => (field, Fields.get row field))) key =
        Fields.get row key := by
    intro fields hmem
    induction fields with
    | nil => cases hmem
    | cons field rest ih =>
      by_cases hfield : key = field
      · subst hfield
        simp [Fields.get]
      · have hne : (key == field) = false := by simpa using hfield
        have hrest := ih ((List.mem_cons.mp hmem).resolve_left hfield)
        unfold Fields.get at hrest ⊢
        rwa [List.map_cons, List.lookup_cons, hne]
  simp only [List.mem_cons, List.not_mem_nil, or_false, not_or] at hplain
  unfold payloadOfRow
  rw [get_set_other hplain.2.2.2, get_set_other hplain.2.2.1, get_set_other hplain.2.1,
    get_set_other hplain.1, hselected sourceFields hkey]

theorem inherits_payloadOfRow {P : Json → Prop} (hP : Hereditary P)
    (htext : ∀ text, P (.str text)) (hflag : ∀ flag, P (.bool flag)) (hrow : P (.obj row))
    (resolutionId : String) (failureId : Option String) (outcome : String) (applied : Bool) :
    P (.obj (payloadOfRow row resolutionId failureId outcome applied)) := by
  have hselected : P (.obj (sourceFields.map (fun field => (field, Fields.get row field)))) := by
    refine hP.obj _ ?_ fun m hm => ?_
    · rw [List.map_map]
      exact (List.map_id sourceFields).symm ▸ (by decide)
    · obtain ⟨field, -, rfl⟩ := List.mem_map.mp hm
      exact hP.get hrow field
  have hfailure : P (optionalText failureId) := by
    cases failureId with
    | none => exact hP.null
    | some failureId => exact htext failureId
  exact hP.set _ _ _ (hP.set _ _ _ (hP.set _ _ _ (hP.set _ _ _ hselected (htext _)) hfailure)
    (htext _)) (hflag _)

def EvidenceChecked (value : Json) : Prop :=
  value = .null ∨ ∃ evidence, value = .obj evidence ∧ Valid evidence

theorem EvidenceChecked.sortKeys {value : Json} (h : EvidenceChecked value) :
    EvidenceChecked value.sortKeys := by
  rcases h with rfl | ⟨evidence, rfl, hvalid⟩
  · exact .inl rfl
  · exact .inr ⟨_, sortKeys_obj evidence, hvalid.sortKeys (sortKeys_obj evidence)⟩

theorem withEpisodeEvidence_eq_ok (h : withEpisodeEvidence payload = .ok payload') :
    EvidenceChecked (Fields.get payload' "episode_evidence") ∧
      Fields.get payload' "action_runs" = Fields.get payload "action_runs" ∧
      (Json.Distinct (.obj payload) → Json.Distinct (.obj payload')) := by
  unfold withEpisodeEvidence at h
  split at h
  · next hnull =>
    cases h
    exact ⟨.inl hnull, rfl, id⟩
  · next hvalue =>
    obtain ⟨evidence, hvalidate, rfl⟩ := map_eq_ok.mp h
    obtain ⟨hsanitize, hvalid⟩ := validate_eq_ok.mp hvalidate
    refine ⟨.inr ⟨evidence, get_set_self, hvalid⟩, get_set_other (by decide),
      fun hdistinct => ?_⟩
    exact distinct_set hdistinct _
      (sanitizeValue_distinct 0 _ (distinct_get hdistinct _) hsanitize)

theorem withEpisodeEvidence_valid {evidence : Fields} (hvalid : Valid evidence)
    (h : Fields.get payload "episode_evidence" = .obj evidence) :
    withEpisodeEvidence payload = .ok (Fields.set payload "episode_evidence" (.obj evidence)) := by
  unfold withEpisodeEvidence
  rw [h]
  simp only [validate_valid hvalid]
  rfl

theorem distinct_withActionRuns (h : Json.Distinct (.obj payload)) :
    Json.Distinct (.obj (withActionRuns payload)) := by
  unfold withActionRuns
  split
  · exact distinct_set h _ trivial
  · exact h

theorem get_withActionRuns (payload : Fields) : Fields.get (withActionRuns payload)
    "episode_evidence" = Fields.get payload "episode_evidence" := by
  unfold withActionRuns
  split
  · exact get_set_other (by decide)
  · rfl

theorem dumps_eq_some {style : Style} {value : Json} {text : List Char} :
    dumps style value = some text ↔ printable value = true ∧ print style 0 value = text := by
  unfold dumps
  split <;> simp_all

theorem isArrayOfObjects_eq_true {value : Json} (h : isArrayOfObjects value = true) :
    ∃ items, value = .arr items ∧ ∀ x ∈ items, ∃ members, x = .obj members := by
  unfold isArrayOfObjects at h
  split at h
  · next items =>
    refine ⟨items, rfl, fun x hx => ?_⟩
    have hobject := List.all_eq_true.mp h x hx
    unfold isMapping at hobject
    split at hobject
    · exact ⟨_, rfl⟩
    · cases hobject
  · cases h

/-- The payload of the source is the sorted payload it was built from. -/
theorem sourceOfCanonical_eq_ok {resolutionId : String} {failureId : Option String}
    (hdistinct : Json.Distinct (.obj canonical))
    (h : sourceOfCanonical resolutionId failureId canonical = .ok source) :
    source.resolutionId = resolutionId ∧
      source.sourceHash = Sha256.hexDigest source.canonicalPayloadJson ∧
      .obj source.payload = Json.sortKeys (.obj canonical) ∧
      printable (.obj source.payload) = true ∧
      isArrayOfObjects (Fields.get canonical "action_runs") = true := by
  unfold sourceOfCanonical at h
  rw [rejectMemory_ite_eq_ok, Bool.not_eq_false] at h
  obtain ⟨hactions, h⟩ := h
  split at h
  · cases h
  · next sourceJson hdumps =>
    cases h
    have hloads := loads_dumps compactStyle_blank hdistinct.sortKeys hdumps
    have hpayload : Json.obj (ResolutionSource.payload
        ⟨resolutionId, failureId, Sha256.hexDigest sourceJson, sourceJson⟩) =
        Json.sortKeys (.obj canonical) := by
      unfold ResolutionSource.payload
      rw [sortKeys_obj] at hloads ⊢
      simp only [hloads]
    refine ⟨rfl, rfl, hpayload, ?_, hactions⟩
    rw [hpayload]
    exact (dumps_eq_some.mp hdumps).1

def actionCount : Json → ℕ
  | .arr actions => actions.length
  | _ => 0

theorem actionCount_sortKeys (value : Json) : actionCount value.sortKeys = actionCount value := by
  cases value with
  | arr items =>
    rw [sortKeys_arr]
    exact List.length_map _
  | obj members =>
    rw [sortKeys_obj]
    rfl
  | _ => rfl

theorem actionCount_withActionRuns (payload : Fields) :
    actionCount (Fields.get (withActionRuns payload) "action_runs") =
      actionCount (Fields.get payload "action_runs") := by
  unfold withActionRuns
  split
  · next hnull =>
    rw [get_set_self]
    cases hruns : Fields.get payload "action_runs" with
    | null => rfl
    | _ => rw [hruns] at hnull; cases hnull
  · rfl

/-- The id of a source is the id of its row. -/
theorem resolutionSourceFromRow_resolutionId (h : resolutionSourceFromRow row = .ok source) :
    canonicalUuid (Fields.get row "resolution_id") "resolution_id" = .ok source.resolutionId := by
  unfold resolutionSourceFromRow at h
  obtain ⟨resolutionId, hid, h⟩ := bind_eq_ok.mp h
  obtain ⟨failureId, -, h⟩ := bind_eq_ok.mp h
  obtain ⟨applied, -, h⟩ := bind_eq_ok.mp h
  obtain ⟨outcome, -, h⟩ := bind_eq_ok.mp h
  obtain ⟨payload, -, h⟩ := bind_eq_ok.mp h
  rw [hid]
  split at h
  · cases h
  · split at h
    · unfold sourceOfCanonical at h
      obtain ⟨-, h⟩ := rejectMemory_ite_eq_ok.mp h
      split at h
      · cases h
      · cases h
        rfl
    · cases h

/-- The steps from a row to its source. -/
theorem resolutionSourceFromRow_eq_ok (hrow : Json.Distinct (.obj row))
    (h : resolutionSourceFromRow row = .ok source) :
    ∃ resolutionId failureId outcome applied payload canonical,
      canonicalUuid (Fields.get row "resolution_id") "resolution_id" = .ok resolutionId ∧
      withEpisodeEvidence (payloadOfRow row resolutionId failureId outcome applied) =
        .ok payload ∧
      Json.Distinct (.obj (withCurrentMap row payload)) ∧
      Json.sortKeys (.obj (withCurrentMap row payload)) = .obj canonical ∧
      sourceOfCanonical resolutionId failureId (withActionRuns canonical) = .ok source := by
  unfold resolutionSourceFromRow at h
  obtain ⟨resolutionId, hid, h⟩ := bind_eq_ok.mp h
  obtain ⟨failureId, -, h⟩ := bind_eq_ok.mp h
  obtain ⟨applied, -, h⟩ := bind_eq_ok.mp h
  obtain ⟨outcome, -, h⟩ := bind_eq_ok.mp h
  obtain ⟨payload, hpayload, h⟩ := bind_eq_ok.mp h
  have hkeep := (withEpisodeEvidence_eq_ok hpayload).2.2
  have hmapped : Json.Distinct (.obj (withCurrentMap row payload)) :=
    inherits_withCurrentMap hereditary_distinct hrow (hkeep (inherits_payloadOfRow
      hereditary_distinct (fun _ => trivial) (fun _ => trivial) hrow _ _ _ _))
  split at h
  · cases h
  · next text hdumps =>
    split at h
    · next canonical hloads =>
      have hsorted := loads_dumps compactStyle_blank hmapped.sortKeys hdumps
      rw [hloads, Option.some.injEq] at hsorted
      exact ⟨resolutionId, failureId, _, applied, payload, canonical, hid, hpayload, hmapped,
        hsorted.symm, h⟩
    · cases h

/-- A row with distinct keys gives a genuine source. -/
theorem resolutionSourceFromRow_genuine (hrow : Json.Distinct (.obj row))
    (hsize : actionCount (Fields.get row "action_runs") < maxListLength)
    (h : resolutionSourceFromRow row = .ok source) : source.Genuine := by
  obtain ⟨resolutionId, failureId, outcome, applied, payload, canonical, hid, hpayload, hmapped,
    hsorted, h⟩ := resolutionSourceFromRow_eq_ok hrow h
  obtain ⟨hevidence, hruns', -⟩ := withEpisodeEvidence_eq_ok hpayload
  have hcanonical : Json.Distinct (.obj canonical) := hsorted ▸ hmapped.sortKeys
  have hruns := distinct_withActionRuns hcanonical
  obtain ⟨rfl, hhash, hfinal, hprintable, hactions⟩ := sourceOfCanonical_eq_ok hruns h
  have hget := fun key => get_sortKeys hruns hfinal.symm key
  refine ⟨?_, canonicalUuid_eq_ok hid, hhash, ?_, ?_, hprintable, ?_, ?_⟩
  · have hcount : source.dispatchedActions.length =
        actionCount (Fields.get source.payload "action_runs") := by
      unfold ResolutionSource.dispatchedActions actionCount
      cases Fields.get source.payload "action_runs" <;> rfl
    rwa [hcount, hget, actionCount_sortKeys, actionCount_withActionRuns,
      get_sortKeys hmapped hsorted, actionCount_sortKeys,
      get_withCurrentMap row payload (by decide), hruns',
      get_payloadOfRow row _ _ _ _ (by decide) (by decide)]
  · rw [hfinal, sortKeys_sortKeys]
  · rw [hfinal]
    exact hruns.sortKeys
  · obtain ⟨items, hitems, hobjects⟩ := isArrayOfObjects_eq_true hactions
    refine ⟨items.map Json.sortKeys, ?_, fun x hx => ?_⟩
    · rw [hget, hitems, sortKeys_arr]
    · obtain ⟨y, hy, rfl⟩ := List.mem_map.mp hx
      obtain ⟨members, rfl⟩ := hobjects y hy
      exact ⟨_, sortKeys_obj members⟩
  · rw [hget, get_withActionRuns, get_sortKeys hmapped hsorted,
      get_withCurrentMap row payload (by decide)]
    exact hevidence.sortKeys.sortKeys

theorem isArrayOfObjects_sortKeys {value : Json} (h : isArrayOfObjects value = true) :
    isArrayOfObjects value.sortKeys = true := by
  obtain ⟨items, rfl, hobjects⟩ := isArrayOfObjects_eq_true h
  rw [sortKeys_arr]
  refine List.all_eq_true.mpr fun sorted hmem => ?_
  obtain ⟨item, hitem, rfl⟩ := List.mem_map.mp hmem
  obtain ⟨members, rfl⟩ := hobjects item hitem
  rw [sortKeys_obj]
  rfl

structure SourceHolds (source : ResolutionSource) (failureId : Option String) (payload : Fields) :
    Prop where
  failureId : source.failureId = failureId
  text : source.canonicalPayloadJson = print compactStyle 0 (Json.sortKeys (.obj payload))
  payload : .obj source.payload = Json.sortKeys (.obj payload)

theorem sourceOfCanonical_ok (resolutionId : String) (failureId : Option String)
    (hdecoded : Decoded (.obj canonical))
    (hactions : isArrayOfObjects (Fields.get canonical "action_runs") = true) :
    ∃ source, sourceOfCanonical resolutionId failureId (withActionRuns canonical) = .ok source ∧
      SourceHolds source failureId canonical := by
  have hkept : withActionRuns canonical = canonical := by
    unfold withActionRuns
    refine if_neg fun hnull => ?_
    obtain ⟨items, hitems, -⟩ := isArrayOfObjects_eq_true hactions
    rw [hitems] at hnull
    cases hnull
  have hsource : ∃ source, sourceOfCanonical resolutionId failureId canonical = .ok source ∧
      source.failureId = failureId ∧
      source.canonicalPayloadJson = print compactStyle 0 (Json.sortKeys (.obj canonical)) := by
    unfold sourceOfCanonical
    rw [if_neg (by simp [hactions])]
    unfold dumps
    rw [if_pos (printable_sortKeys hdecoded.printable)]
    exact ⟨_, rfl, rfl, rfl⟩
  obtain ⟨source, hsource, hfailure, htext⟩ := hsource
  obtain ⟨-, -, hpayload, -⟩ := sourceOfCanonical_eq_ok hdecoded.distinct hsource
  exact ⟨source, by rw [hkept, hsource], hfailure, htext, hpayload⟩

/-- A row whose parts are in normal form has a source. -/
theorem resolutionSourceFromRow_of_parts {resolutionId : String} {failureId outcome : Option String}
    {applied : Bool} (hid : canonicalUuid (Fields.get row "resolution_id") "resolution_id" =
      .ok resolutionId)
    (hfailure : optionalUuid (Fields.get row "failure_id") "failure_id" = .ok failureId)
    (happlied : appliedOfRow row = .ok applied)
    (houtcome : optionalRowText row "outcome" = .ok outcome)
    (hpayload : withEpisodeEvidence (payloadOfRow row resolutionId failureId
      (outcome.getD "recorded") applied) = .ok payload)
    (hdecoded : Decoded (.obj (withCurrentMap row payload)))
    (hactions : isArrayOfObjects (Fields.get payload "action_runs") = true) :
    ∃ source, resolutionSourceFromRow row = .ok source ∧
      SourceHolds source failureId (withCurrentMap row payload) := by
  obtain ⟨canonical, hcanonical⟩ : ∃ canonical,
      Json.sortKeys (.obj (withCurrentMap row payload)) = .obj canonical := ⟨_, sortKeys_obj _⟩
  have hsorted : Decoded (.obj canonical) :=
    hcanonical ▸ ⟨hdecoded.distinct.sortKeys, printable_sortKeys hdecoded.printable⟩
  have hruns : isArrayOfObjects (Fields.get canonical "action_runs") = true := by
    rw [get_sortKeys hdecoded.distinct hcanonical, get_withCurrentMap row payload (by decide)]
    exact isArrayOfObjects_sortKeys hactions
  obtain ⟨source, hsource, hholds⟩ := sourceOfCanonical_ok resolutionId failureId hsorted hruns
  have hdumps : dumps compactStyle (.obj canonical) = some (print compactStyle 0 (.obj canonical)) :=
    dumps_eq_some.mpr ⟨hsorted.printable, rfl⟩
  have hloads := loads_dumps compactStyle_blank hsorted.distinct hdumps
  have htwice : Json.sortKeys (.obj canonical) =
      Json.sortKeys (.obj (withCurrentMap row payload)) := by rw [← hcanonical, sortKeys_sortKeys]
  refine ⟨source, ?_, hholds.failureId, htwice ▸ hholds.text, htwice ▸ hholds.payload⟩
  unfold resolutionSourceFromRow
  rw [hid, hfailure, happlied, houtcome]
  simp only [bind, Except.bind]
  rw [hpayload]
  simp only [hcanonical, hdumps, hloads]
  exact hsource

/-- The evidence of a source is that of its row, in key order. -/
theorem resolutionSourceFromRow_evidence {evidence : Fields} (hrow : Json.Distinct (.obj row))
    (hvalid : Valid evidence) (hevidence : Fields.get row "episode_evidence" = .obj evidence)
    (h : resolutionSourceFromRow row = .ok source) :
    Fields.get source.payload "episode_evidence" = Json.sortKeys (.obj evidence) := by
  obtain ⟨resolutionId, failureId, outcome, applied, payload, canonical, -, hpayload, hmapped,
    hsorted, h⟩ := resolutionSourceFromRow_eq_ok hrow h
  have hcanonical : Json.Distinct (.obj canonical) := hsorted ▸ hmapped.sortKeys
  have hruns := distinct_withActionRuns hcanonical
  obtain ⟨-, -, hfinal, -, -⟩ := sourceOfCanonical_eq_ok hruns h
  have hselected : Fields.get payload "episode_evidence" = .obj evidence := by
    have hbefore : Fields.get (payloadOfRow row resolutionId failureId outcome applied)
        "episode_evidence" = Fields.get row "episode_evidence" :=
      get_payloadOfRow row _ _ _ _ (by decide) (by decide)
    rw [hevidence] at hbefore
    rw [withEpisodeEvidence_valid hvalid hbefore, Except.ok.injEq] at hpayload
    rw [← hpayload, get_set_self]
  rw [get_sortKeys hruns hfinal.symm, get_withActionRuns, get_sortKeys hmapped hsorted,
    get_withCurrentMap row payload (by decide), hselected, sortKeys_sortKeys]

end Genuine

section Draft

inductive MemoryKind
  | positive
  | negative
  deriving DecidableEq

def MemoryKind.text : MemoryKind → String
  | .positive => "positive"
  | .negative => "negative"

structure DraftFields where
  source : ResolutionSource
  memoryKind : MemoryKind
  actionable : Bool
  failureSummary : String
  recoverySummary : String
  lessons : List String := []
  signature : Option Fields := none
  model : String := "gpt-5.6-luna"
  responseId : Option String := none

def nul : Char := Char.ofNat 0

def requiredDraftText (value fieldName : String) : Except PyExc String :=
  if strip value = "" ∨ nul ∈ value.toList then
    rejectMemory (fieldName ++ " must be non-empty text")
  else .ok (strip value)

def draftTextOrNone (value : Option String) (fieldName : String) : Except PyExc (Option String) :=
  match value with
  | none => .ok none
  | some s =>
      if nul ∈ s.toList then rejectMemory (fieldName ++ " must be text or null")
      else .ok (if strip s = "" then none else some (strip s))

def validateSignature : Option Fields → Except PyExc (Option Fields)
  | none => .ok none
  | some signature => (validateEpisodeEvidence (.obj signature)).map some

/-- `source_outcome == "resolved" and source_applied is True`. -/
def ResolutionSource.isResolved (source : ResolutionSource) : Bool :=
  (match Fields.get source.payload "outcome" with
    | .str outcome => outcome = "resolved"
    | _ => false) &&
  (match Fields.get source.payload "applied" with
    | .bool applied => applied
    | _ => false)

def postInit (draft : DraftFields) : Except PyExc DraftFields := do
  let failureSummary ← requiredDraftText draft.failureSummary "failure_summary"
  let recoverySummary ← requiredDraftText draft.recoverySummary "recovery_summary"
  let model ← requiredDraftText draft.model "model"
  let responseId ← draftTextOrNone draft.responseId "response_id"
  let lessons ← draft.lessons.mapM (fun lesson => requiredDraftText lesson "lesson")
  let signature ← validateSignature draft.signature
  if draft.actionable ∧ draft.memoryKind ≠ .positive then
    rejectMemory "Only positive memories can be actionable"
  else if draft.actionable ∧ draft.source.dispatchedActions.isEmpty then
    rejectMemory "An actionable memory needs dispatched actions"
  else if draft.actionable ∧ draft.source.isResolved = false then
    rejectMemory "Actionable memory requires an applied, resolved source"
  else return { draft with failureSummary, recoverySummary, lessons, signature, model, responseId }

/-- The constructor keeps the source. -/
theorem postInit_source {draft draft' : DraftFields} (h : postInit draft = .ok draft') :
    draft'.source = draft.source := by
  unfold postInit at h
  obtain ⟨failureSummary, -, h⟩ := bind_eq_ok.mp h
  obtain ⟨recoverySummary, -, h⟩ := bind_eq_ok.mp h
  obtain ⟨model, -, h⟩ := bind_eq_ok.mp h
  obtain ⟨responseId, -, h⟩ := bind_eq_ok.mp h
  obtain ⟨lessons, -, h⟩ := bind_eq_ok.mp h
  obtain ⟨signature, -, h⟩ := bind_eq_ok.mp h
  rw [rejectMemory_ite_eq_ok, rejectMemory_ite_eq_ok, rejectMemory_ite_eq_ok] at h
  obtain ⟨-, -, -, h⟩ := h
  cases h
  rfl

structure DraftFields.Prepared (draft : DraftFields) : Prop where
  signature : ∀ signature, draft.signature = some signature →
    Valid signature ∧ Json.Distinct (.obj signature)
  actionable : draft.actionable = true → draft.memoryKind = .positive ∧
    draft.source.dispatchedActions ≠ [] ∧ draft.source.isResolved = true

structure MemoryDraft extends DraftFields where
  genuine : source.Genuine
  prepared : toDraftFields.Prepared

/-- What the constructor accepts is a memory draft. -/
theorem postInit_prepared {draft draft' : DraftFields}
    (hsignature : ∀ signature, draft.signature = some signature → Json.Distinct (.obj signature))
    (h : postInit draft = .ok draft') : draft'.Prepared ∧ draft'.source = draft.source := by
  unfold postInit at h
  obtain ⟨failureSummary, -, h⟩ := bind_eq_ok.mp h
  obtain ⟨recoverySummary, -, h⟩ := bind_eq_ok.mp h
  obtain ⟨model, -, h⟩ := bind_eq_ok.mp h
  obtain ⟨responseId, -, h⟩ := bind_eq_ok.mp h
  obtain ⟨lessons, -, h⟩ := bind_eq_ok.mp h
  obtain ⟨signature, hvalidate, h⟩ := bind_eq_ok.mp h
  rw [rejectMemory_ite_eq_ok, rejectMemory_ite_eq_ok, rejectMemory_ite_eq_ok] at h
  obtain ⟨hkind, hactions, hresolved, h⟩ := h
  cases h
  refine ⟨⟨?_, fun hactionable => ?_⟩, rfl⟩
  · rintro valid rfl
    cases hold : draft.signature with
    | none =>
      rw [hold] at hvalidate
      cases hvalidate
    | some old =>
      rw [hold] at hvalidate
      obtain ⟨evidence, hevidence, heq⟩ := map_eq_ok.mp hvalidate
      cases heq
      obtain ⟨hsanitize, hvalid⟩ := validate_eq_ok.mp hevidence
      exact ⟨hvalid, sanitizeValue_distinct 0 _ (hsignature old hold) hsanitize⟩
  · simp only [not_and, not_not, Bool.not_eq_false] at hkind hactions hresolved
    refine ⟨hkind hactionable, fun hempty => ?_, hresolved hactionable⟩
    exact hactions hactionable (by rw [hempty]; rfl)

theorem errorOnly_requiredDraftText (value fieldName : String) :
    ErrorOnly (requiredDraftText value fieldName) :=
  (errorOnly_rejectMemory _).ite (errorOnly_ok _)

/-- Constructing a draft raises no cancellation. -/
theorem errorOnly_postInit (draft : DraftFields) : ErrorOnly (postInit draft) := by
  unfold postInit
  refine (errorOnly_requiredDraftText _ _).bind fun failureSummary =>
    (errorOnly_requiredDraftText _ _).bind fun recoverySummary =>
      (errorOnly_requiredDraftText _ _).bind fun model => ErrorOnly.bind ?_ fun responseId =>
        (ErrorOnly.mapM fun lesson => errorOnly_requiredDraftText lesson _).bind fun lessons =>
          ErrorOnly.bind ?_ fun signature => (errorOnly_rejectMemory _).ite
            ((errorOnly_rejectMemory _).ite ((errorOnly_rejectMemory _).ite (errorOnly_ok _)))
  · unfold draftTextOrNone
    split
    · exact errorOnly_ok _
    · exact (errorOnly_rejectMemory _).ite (errorOnly_ok _)
  · unfold validateSignature
    split
    · exact errorOnly_ok _
    · exact (errorOnly_validateEpisodeEvidence _).map _

end Draft

end FailureResolver.ResolutionMemory
