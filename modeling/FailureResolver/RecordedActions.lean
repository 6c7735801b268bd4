import FailureResolver.ArgumentDefaults
import FailureResolver.CommandProtocol
import FailureResolver.DurableAcknowledgement
import FailureResolver.FailureMatcher
import FailureResolver.PlanRebinding

/-!
From the operator to the robot. The actions of a resolved episode are written into a
memory, read back, made into a suggestion, bound to the Flow of another failure, pinned
and parsed into a plan. Whatever happens on that way and in the run that executes the
plan, the robot is asked for nothing but the recorded commands, in their order and with
their arguments, and a continuation that goes as far back as the recorded one.
-/

namespace FailureResolver.RecordedActions

open ActionPlan CommandProtocol FailureMatcher JsonRoundTrip JsonValue LearningEligibility
open LiveFlow MemorySections PlanParsing PlanRebinding PlanValidation Program PyException
open RecoveryContract RecoveryCoordinator ResolutionEpisode ResolutionMemory SendRules
open StructuralGuard TraceLaws
open MemoryBrowsing (membersOf)
open MemoryFrontmatter (CleanFrontmatter SeparatorFree isSeparator)
open MemoryMarkdown (MemoryDocument parseMemoryDocument renderMemory)

section Recorded

def asked (action : Json) : Json × Json := (Json.get action "command", Json.get action "arguments")

def sentAs (command : Command) : Json × Json := (.str command.1, .obj command.2)

/-- The arguments of a continuation go as far back as the recorded action does. -/
inductive Continues (last : Json) (arguments : Fields) : Prop
  | rerun : Json.get last "command" = .str "$rerun" →
      Fields.get arguments "mode" = .str "retry_current" →
      Fields.get arguments "rewind_steps" = .int 0 → Continues last arguments
  | resumeFlow : Json.get last "command" = .str "$resume_flow" →
      Fields.get arguments "mode" = Json.get (Json.get last "arguments") "mode" →
      Fields.get arguments "rewind_steps" = Json.get (Json.get last "arguments") "rewind_steps" →
      Continues last arguments

/-- The commands begin the recorded actions, the last of which continues the Flow. -/
def Replays (recorded : List Json) (commands : List Command) : Prop :=
  ∃ before last arguments, recorded = before ++ [last] ∧ Continues last arguments ∧
    commands.map sentAs <+: before.map asked ++ [sentAs ("$resume_flow", arguments)]

end Recorded

section Plans

variable {plan : RecoveryPlan} {actions rebound : List Fields} {before : List Fields}
variable {last arguments : Fields}

theorem asked_parsed {index : ℕ} {corrections : List ParsedAction}
    (h : parseActions index (before.map Json.obj) = .ok corrections) :
    (corrections.map ParsedAction.recoveryAction).map
        (fun action => sentAs (action.command, action.arguments)) =
      before.map fun raw => asked (.obj raw) := by
  induction before generalizing index corrections with
  | nil =>
    cases h
    rfl
  | cons raw rest ih =>
    rw [List.map_cons, parseActions] at h
    obtain ⟨action, haction, h⟩ := bind_eq_ok.mp h
    obtain ⟨others, hothers, h⟩ := bind_eq_ok.mp h
    cases h
    obtain ⟨command, arguments, haccepted, rfl⟩ := parseAction_eq_ok.mp haction
    rw [List.map_cons, List.map_cons, List.map_cons, ih hothers]
    have hasked : asked (.obj raw) = (.str command, .obj arguments) :=
      Prod.ext haccepted.command.1 haccepted.given
    rw [hasked]
    rfl

inductive Ends (last : Fields) (plan : RecoveryPlan) : Prop
  | rerun (retried : FlowActionContext) (expectedNext : Option FlowActionContext) :
      Fields.get last "command" = .str "$rerun" → plan.terminal = .rerun retried expectedNext →
      Ends last plan
  | resumeFlow (arguments : Fields) (mode : ResumeMode) (rewindSteps : ℤ)
      (current target : FlowActionContext) : Fields.get last "command" = .str "$resume_flow" →
      plan.terminal = .resumeFlow arguments mode rewindSteps current target →
      Fields.get last "arguments" = .obj arguments →
      Fields.get arguments "mode" = .str mode.text →
      Fields.get arguments "rewind_steps" = .int rewindSteps → Ends last plan

/-- A plan is its actions: all but the last are corrections, the last continues. -/
theorem parsed_plan (h : parseRecoveryPlan (asPlanValue (before ++ [last])) = .ok plan) :
    (correctionCommands plan).map sentAs = before.map (fun raw => asked (.obj raw)) ∧
      Ends last plan := by
  obtain ⟨-, corrections, name, arguments, hcorrections, haction, -, hterminal, parsed, hparsed,
    rfl⟩ := parse_asPlanValue_append.mp h
  refine ⟨?_, ?_⟩
  · rw [← asked_parsed hcorrections]
    unfold correctionCommands
    rw [List.map_map]
    rfl
  · by_cases hname : name = "$rerun"
    · subst hname
      obtain ⟨retried, expectedNext, hrerun⟩ := parseRerun_terminal hparsed
      exact .rerun retried expectedNext haction.command.1 hrerun
    · have hresume : name = "$resume_flow" := by
        unfold isTerminal at hterminal
        simpa [hname] using hterminal
      unfold parseTerminal at hparsed
      rw [if_neg hname] at hparsed
      obtain ⟨mode, rewindSteps, index, command, continuation, current, target, harguments, -, -, -,
        -, -, -, -, heq⟩ := parseResumeFlow_eq_ok.mp hparsed
      obtain ⟨-, hmode, hsteps, -⟩ := parseResumeArguments_eq_ok.mp harguments
      refine .resumeFlow arguments mode rewindSteps current target ?_ heq haction.given hmode
        hsteps.1
      rw [haction.command.1, hresume]

/-- What binding leaves as it was: the corrections, and of the continuation its
command, its mode and the way back. -/
theorem bound_actions {snapshot : Json} {flowId command : String} {index : ℤ}
    (h : rebindRecoveryActions actions snapshot flowId index command = .ok rebound) :
    ∃ before last last', actions = before ++ [last] ∧ rebound = before ++ [last'] ∧
      Fields.get last' "command" = Fields.get last "command" ∧
      ∀ key ∈ ["mode", "rewind_steps"], Json.get (Fields.get last' "arguments") key =
        Json.get (Fields.get last "arguments") key := by
  obtain ⟨captured, plan, -, hplan, hbinds⟩ := rebindRecoveryActions_eq_ok.mp h
  unfold Binds at hbinds
  obtain ⟨before, last, rfl⟩ := exists_append_of_accepted hplan
  obtain ⟨-, hends⟩ := parsed_plan hplan
  cases hends with
  | rerun retried expectedNext hcommand hterminal =>
    rw [hterminal] at hbinds
    obtain ⟨-, rfl⟩ := hbinds
    exact ⟨before, last, last, rfl, rfl, rfl, fun key _ => rfl⟩
  | resumeFlow arguments mode rewindSteps current target _ hterminal harguments hmode hsteps =>
    rw [hterminal] at hbinds
    obtain ⟨paused, rewound, fresh, reboundPlan, -, -, -, -, -, -, hfresh, rfl, -, -⟩ := hbinds
    obtain ⟨index', command', -, -, -, -, rfl⟩ := buildGuardedResumeArguments_eq_ok.mp hfresh
    obtain ⟨before', last', name, hcontinued, -⟩ := exists_continued hplan hterminal
    rw [hcontinued.mapLast]
    obtain ⟨rfl, hlast⟩ := List.append_inj' hcontinued.split rfl
    obtain rfl : last = last' := List.singleton_inj.mp hlast
    refine ⟨before, last, _, rfl, rfl, get_rebound_other last (by decide), fun key hkey => ?_⟩
    rw [get_rebound last hcontinued.arguments, harguments]
    rcases List.mem_pair.mp hkey with rfl | rfl
    · exact hmode.symm
    · exact hsteps.symm

end Plans

section Suggestion

variable {plan : RecoveryPlan} {row : Fields} {recorded : List Json} {actions : List Fields}

theorem get_suggestionAction (action : Json) {key : String} (hkey : key ∉ runOnlyFields) :
    Fields.get (suggestionAction action) key = Json.get action key := by
  have hlookup : (suggestionAction action).lookup key = (membersOf action).lookup key := by
    unfold suggestionAction
    have h := ArgumentDefaults.lookup_filter_keys (membersOf action)
      (fun name => decide (name ∉ runOnlyFields)) key
    rwa [if_pos (decide_eq_true hkey)] at h
  unfold Fields.get
  rw [hlookup]
  cases action <;> rfl

theorem asked_suggestionAction (action : Json) :
    asked (.obj (suggestionAction action)) = asked action :=
  Prod.ext (get_suggestionAction action (by decide)) (get_suggestionAction action (by decide))

/-- The actions of a suggestion are the recorded ones, but for the place the last one
continues from. -/
theorem suggested_actions (h : suggestedActions row recorded = .ok actions)
    (hne : actions ≠ []) :
    ∃ before last last', recorded = before ++ [last] ∧
      actions = before.map suggestionAction ++ [last'] ∧
      Fields.get last' "command" = Json.get last "command" ∧
      ∀ key ∈ ["mode", "rewind_steps"], Json.get (Fields.get last' "arguments") key =
        Json.get (Json.get last "arguments") key := by
  have hsplit : ∀ before last, recorded.map suggestionAction = before ++ [last] →
      ∃ before' last', recorded = before' ++ [last'] ∧ before = before'.map suggestionAction ∧
        last = suggestionAction last' := by
    intro before last hmap
    obtain ⟨before', rest, rfl, rfl, hrest⟩ := List.map_eq_append_iff.mp hmap
    obtain ⟨last', rfl, rfl⟩ := List.map_eq_singleton_iff.mp hrest
    exact ⟨before', last', rfl, rfl, rfl⟩
  unfold suggestedActions at h
  dsimp only at h
  split at h
  · unfold boundActions at h
    split at h
    · obtain ⟨flowId, -, h⟩ := bind_eq_ok.mp h
      obtain ⟨actionIndex, -, h⟩ := bind_eq_ok.mp h
      obtain ⟨actionCommand, -, h⟩ := bind_eq_ok.mp h
      obtain ⟨before, last, last', hremembered, rfl, hcommand, hback⟩ := bound_actions h
      obtain ⟨before', last'', rfl, rfl, rfl⟩ := hsplit before last hremembered
      refine ⟨before', last'', last', rfl, rfl, ?_, fun key hkey => ?_⟩
      · rw [hcommand, get_suggestionAction last'' (by decide)]
      · rw [hback key hkey, get_suggestionAction last'' (by decide)]
    · exact absurd h reject_ne_ok
  · cases h
    rcases List.eq_nil_or_concat recorded with rfl | ⟨before, last, rfl⟩
    · exact absurd rfl hne
    · rw [List.concat_eq_append, List.map_append, List.map_singleton]
      refine ⟨before, last, _, rfl, rfl, get_suggestionAction last (by decide), fun key _ => ?_⟩
      rw [get_suggestionAction last (by decide)]

/-- A continuation goes as far back as the action it was parsed from, wherever the
Flow at hand has one, and there are arguments that do. -/
theorem continues_plan {last : Json} {last' : Fields} (hends : Ends last' plan)
    (hcommand : Fields.get last' "command" = Json.get last "command")
    (hback : ∀ key ∈ ["mode", "rewind_steps"], Json.get (Fields.get last' "arguments") key =
      Json.get (Json.get last "arguments") key) (pointer : FlowPointer) :
    ∃ arguments, Continues last arguments ∧
      ∀ fresh, resumeArgumentsForPlan plan pointer = .ok fresh → fresh = arguments := by
  unfold resumeArgumentsForPlan
  cases hends with
  | rerun retried expectedNext hrerun hterminal =>
    rw [hterminal]
    rw [hcommand] at hrerun
    dsimp only
    cases hbuilt : buildGuardedResumeArguments pointer 0 (some .retryCurrent) with
    | error e =>
      refine ⟨[("mode", .str "retry_current"), ("rewind_steps", .int 0)],
        .rerun hrerun rfl rfl, fun fresh hfresh => ?_⟩
      cases hfresh
    | ok fresh =>
      obtain ⟨index, command, -, -, -, -, rfl⟩ := buildGuardedResumeArguments_eq_ok.mp hbuilt
      refine ⟨guardArguments pointer index command 0 .retryCurrent, .rerun hrerun rfl rfl,
        fun fresh' hfresh => ?_⟩
      rw [Except.ok.injEq] at hfresh
      exact hfresh.symm
  | resumeFlow arguments mode rewindSteps current target hresume hterminal hgiven hmode hsteps =>
    rw [hterminal]
    rw [hcommand] at hresume
    have hmode' := hback "mode" (by simp)
    have hsteps' := hback "rewind_steps" (by simp)
    rw [hgiven] at hmode' hsteps'
    refine ⟨arguments, .resumeFlow hresume hmode' hsteps', fun fresh hfresh => ?_⟩
    obtain ⟨-, hfresh⟩ := bind_unit_eq_ok.mp hfresh
    obtain ⟨-, hfresh⟩ := bind_unit_eq_ok.mp hfresh
    cases hfresh
    rfl

/-- The commands of a plan that was made of a suggestion replay the recorded actions. -/
theorem replays_plan (h : suggestedActions row recorded = .ok actions)
    (hplan : parseRecoveryPlan (asPlanValue actions) = .ok plan) (pointer : FlowPointer)
    {commands : List Command} (hcommands : commands <+: planCommands plan pointer) :
    Replays recorded commands := by
  obtain ⟨front, final, hactions⟩ := exists_append_of_accepted hplan
  obtain ⟨before, last, last', rfl, hsplit, hcommand, hback⟩ := suggested_actions h (by
    rw [hactions]
    exact List.append_ne_nil_of_right_ne_nil _ (List.cons_ne_nil _ _))
  rw [hsplit] at hplan
  obtain ⟨hcorrections, hends⟩ := parsed_plan hplan
  have hasked : (correctionCommands plan).map sentAs = before.map asked := by
    rw [hcorrections, List.map_map]
    exact List.map_congr_left fun action _ => asked_suggestionAction action
  have hshown : commands.map sentAs <+:
      before.map asked ++ (resumeCommands plan pointer).map sentAs := by
    rw [← hasked, ← List.map_append]
    exact hcommands.map sentAs
  obtain ⟨arguments, hcontinues, hfresh⟩ := continues_plan hends hcommand hback pointer
  refine ⟨before, last, arguments, rfl, hcontinues, hshown.trans ?_⟩
  refine (List.prefix_append_right_inj _).mpr ?_
  unfold resumeCommands
  cases hresume : resumeArgumentsForPlan plan pointer with
  | error e => exact List.nil_prefix
  | ok fresh =>
    rw [hfresh fresh hresume]
    exact List.prefix_rfl

end Suggestion

section Operator

variable {source : ResolutionSource} {row : Fields} {actions : List Fields}

/-- A source keeps the actions of its row, with the members of objects in key order. -/
theorem dispatched_source {runs : List Json} (hrow : Json.Distinct (.obj row))
    (hruns : Fields.get row "action_runs" = .arr runs)
    (h : resolutionSourceFromRow row = .ok source) :
    source.dispatchedActions = runs.map Json.sortKeys := by
  obtain ⟨resolutionId, failureId, outcome, applied, payload, canonical, -, hpayload, hmapped,
    hsorted, h⟩ := resolutionSourceFromRow_eq_ok hrow h
  obtain ⟨-, hruns', -⟩ := withEpisodeEvidence_eq_ok hpayload
  have hcanonical : Json.Distinct (.obj canonical) := hsorted ▸ hmapped.sortKeys
  obtain ⟨-, -, hfinal, -, -⟩ :=
    sourceOfCanonical_eq_ok (distinct_withActionRuns hcanonical) h
  have hselected : Fields.get canonical "action_runs" = .arr (runs.map Json.sortKeys) := by
    rw [get_sortKeys hmapped hsorted, get_withCurrentMap row payload (by decide), hruns',
      get_payloadOfRow row _ _ _ _ (by decide) (by decide), hruns, sortKeys_arr]
  have hkept : withActionRuns canonical = canonical := by
    unfold withActionRuns
    rw [hselected]
    rfl
  rw [hkept] at hfinal
  have hget : Fields.get source.payload "action_runs" = .arr (runs.map Json.sortKeys) := by
    rw [get_sortKeys hcanonical hfinal.symm, hselected, ← sortKeys_arr, sortKeys_sortKeys]
  unfold ResolutionSource.dispatchedActions
  rw [hget]

/-- The memory of a demonstration shows the actions the operator took. -/
theorem dispatched_document {strOf : Json → String} {resolution : JsonRow}
    {failure : Option JsonRow} {memory : Fields} {draft : MemoryDraft} {document : MemoryDocument}
    (hdemonstrated : isPositiveDemonstration resolution.fields = true)
    (hmemory : memoryRow resolution.fields (failure.map JsonRow.fields) = .ok memory)
    (hsource : resolutionSourceFromRow memory = .ok draft.source)
    (hdocument : parseMemoryDocument (renderMemory strOf draft.toDraftFields) = .ok document) :
    document.dispatchedActions =
      (successfulActionRuns resolution.fields).map Json.sortKeys := by
  obtain ⟨-, -, hactions⟩ := isPositiveDemonstration_eq_true hdemonstrated
  obtain ⟨hdecoded, -⟩ := memoryRow_decoded hmemory
  have hshows := parse_renderMemory_shows strOf draft.genuine draft.prepared hdocument
  rw [hshows.dispatchedActions]
  exact dispatched_source hdecoded.distinct (memoryRow_actionRuns hactions hmemory) hsource

/-- Whatever the robot is asked for in an attempt on a session with the actions that were
suggested from a memory, the operator has done: the commands begin those of the resolved
episode the memory was learned from, with their arguments, and the continuation goes as
far back as the operator's. -/
theorem operator_actions_replayed (strOf : Json → String) {resolution : JsonRow}
    {failure : Option JsonRow} {memory : Fields} {draft : MemoryDraft} {document : MemoryDocument}
    (hdemonstrated : isPositiveDemonstration resolution.fields = true)
    (hmemory : memoryRow resolution.fields (failure.map JsonRow.fields) = .ok memory)
    (hsource : resolutionSourceFromRow memory = .ok draft.source)
    (hdocument : parseMemoryDocument (renderMemory strOf draft.toDraftFields) = .ok document)
    (hsuggested : suggestedActions row document.dispatchedActions = .ok actions)
    (c : Coordinator) (fuel : ℕ) (target : FailureRecoveryTarget) (newSessionId : String)
    (w : World) :
    Ensures anything (executeTarget c fuel target newSessionId) w fun t _ =>
      ∀ x ∈ segments claimed t, x.1.record.pinnedActions = actions →
        x.2.filterMap sentCommand = [] ∨
          Replays ((successfulActionRuns resolution.fields).map Json.sortKeys)
            (x.2.filterMap sentCommand) := by
  rw [dispatched_document hdemonstrated hmemory hsource hdocument] at hsuggested
  refine (executeTarget_protocol none fuel target newSessionId).mono ?_
  intro t _ hprotocol x hx hpinned
  obtain ⟨pointer, -, hlaw⟩ := hprotocol.exists_law hx
  rw [hpinned] at hlaw
  cases hplan : parseRecoveryPlan (asPlanValue actions) with
  | error e =>
    rw [hplan] at hlaw
    exact .inl (Silent.filterMap_eq hlaw)
  | ok plan =>
    rw [hplan] at hlaw
    exact .inr (replays_plan hsuggested hplan pointer hlaw.1)

end Operator

section Sample

def sampleClosing : Fields :=
  [("command", .str "close_gripper"), ("arguments", .obj [("width", .int 2)]),
    ("status", .str "sent")]

def sampleId : String := "12345678-1234-5678-1234-567812345678"

def sampleResolution : JsonRow where
  fields := [("resolution_id", .str sampleId), ("outcome", .str "resolved"),
    ("applied", .bool true),
    ("action_runs", .arr [.obj sampleClosing,
      .obj (("status", .str "sent") :: sampleResume "flow-0")])]
  decoded := ⟨by
    simp [Json.Distinct, Json.DistinctMembers, Json.DistinctItems, sampleClosing, sampleResume,
      contextPayload], rfl⟩

def sampleDraft (source : ResolutionSource) : DraftFields :=
  { source
    memoryKind := .positive
    actionable := true
    failureSummary := "The gripper was open."
    recoverySummary := "Close the gripper and go one step back."
    model := "gpt-5.6-luna" }

/-- What the source of a row without navigation keeps as it is. -/
theorem get_source {row : Fields} {source : ResolutionSource} {key : String}
    (hrow : Json.Distinct (.obj row)) (hnavigation : Fields.get row "navigation" = .null)
    (hkey : key ∈ sourceFields) (hplain : key ∉ ["resolution_id", "failure_id", "outcome",
      "applied", "episode_evidence", "action_runs"])
    (h : resolutionSourceFromRow row = .ok source) :
    Fields.get source.payload key = (Fields.get row key).sortKeys := by
  obtain ⟨resolutionId, failureId, outcome, applied, payload, canonical, -, hpayload, hmapped,
    hsorted, h⟩ := resolutionSourceFromRow_eq_ok hrow h
  simp only [List.mem_cons, List.not_mem_nil, or_false, not_or] at hplain
  obtain ⟨hid, hfailure, houtcome, happlied, hevidence, hruns⟩ := hplain
  have hcanonical : Json.Distinct (.obj canonical) := hsorted ▸ hmapped.sortKeys
  have hwith := distinct_withActionRuns hcanonical
  obtain ⟨-, -, hfinal, -, -⟩ := sourceOfCanonical_eq_ok hwith h
  have hruns' : Fields.get (withActionRuns canonical) key = Fields.get canonical key := by
    unfold withActionRuns
    split
    · exact get_set_other hruns
    · rfl
  have hmap : withCurrentMap row payload = payload := by
    unfold withCurrentMap
    rw [hnavigation]
    rfl
  have hselected : Fields.get payload key = Fields.get row key := by
    have hbefore := get_payloadOfRow row resolutionId failureId outcome applied hkey
      (by simp [hid, hfailure, houtcome, happlied])
    rw [← hbefore]
    unfold withEpisodeEvidence at hpayload
    split at hpayload
    · cases hpayload
      rfl
    · obtain ⟨evidence, -, rfl⟩ := EpisodeEvidence.map_eq_ok.mp hpayload
      exact get_set_other hevidence
  rw [get_sortKeys hwith hfinal.symm, hruns', get_sortKeys hmapped hsorted, hmap, hselected,
    sortKeys_sortKeys]

theorem exists_sampleMemory : ∃ memory, memoryRow sampleResolution.fields none = .ok memory :=
  exists_of_isOk (by decide +kernel)

theorem decoded_sampleMemory {memory : Fields}
    (h : memoryRow sampleResolution.fields none = .ok memory) : Decoded (.obj memory) ∧
      ∃ evidence, Fields.get memory "episode_evidence" = .obj evidence ∧
        EpisodeEvidence.Valid evidence :=
  @memoryRow_decoded memory sampleResolution none h

/-- No failure fills the row of the sample. -/
theorem get_sampleMemory {memory : Fields}
    (h : memoryRow sampleResolution.fields none = .ok memory) (key : String)
    (hkey : key ∉ ["action_runs", "episode_evidence"]) :
    Fields.get memory key = Fields.get sampleResolution.fields key := by
  obtain ⟨prepared, hprepared, rfl⟩ := EpisodeEvidence.map_eq_ok.mp h
  obtain ⟨evidence, -, rfl⟩ := EpisodeEvidence.map_eq_ok.mp hprepared
  simp only [List.mem_cons, List.not_mem_nil, or_false, not_or] at hkey
  unfold rowWithSuccessfulActions
  rw [get_set_other hkey.1, get_set_other hkey.2]
  rfl

theorem exists_sampleSource {memory : Fields}
    (h : memoryRow sampleResolution.fields none = .ok memory) :
    ∃ source, resolutionSourceFromRow memory = .ok source ∧
      source.dispatchedActions ≠ [] ∧ source.isResolved = true ∧
      Fields.get source.payload "outcome" = .str "resolved" ∧
      Fields.get source.payload "applied" = .bool true := by
  obtain ⟨hdecoded, evidence, hevidence, hvalid⟩ := decoded_sampleMemory h
  have hget := get_sampleMemory h
  have hactions : successfulActionRuns sampleResolution.fields ≠ [] := by
    decide +kernel
  have hruns := memoryRow_actionRuns hactions h
  have hids : Identified memory sampleId none := by
    refine ⟨?_, ?_⟩
    · rw [hget _ (by decide)]
      decide +kernel
    · rw [hget _ (by decide)]
      rfl
  have hobjects : ∀ action ∈ successfulActionRuns sampleResolution.fields,
      ∃ members, action = .obj members := by
    intro action haction
    have hsuccessful := mem_successfulActionRuns haction
    cases action with
    | obj members => exact ⟨members, rfl⟩
    | _ => cases hsuccessful
  obtain ⟨source, hsource, hdispatched, houtcome, happlied⟩ := resolutionSourceFromRow_ok hdecoded
    hids (by rw [hget _ (by decide)]; rfl) (by rw [hget _ (by decide)]; rfl) hevidence hvalid hruns
    hobjects
  refine ⟨source, hsource, ?_, ?_, houtcome, happlied⟩
  · unfold ResolutionSource.dispatchedActions
    rw [hdispatched]
    intro hnil
    exact hactions (List.map_eq_nil_iff.mp hnil)
  · unfold ResolutionSource.isResolved
    rw [houtcome, happlied]
    rfl

/-- The fields of the frontmatter that the sample leaves blank. -/
def blankFields : List String :=
  ["sysid", "site_id", "site", "floor", "room_number", "map_id", "map_name", "map_observed_at",
    "flow_id", "flow_name", "area_name", "item_name", "failure_status", "failed_command",
    "captured_at", "resolved_at", "created_at"]

theorem get_blank {memory : Fields} {source : ResolutionSource}
    (hmemory : memoryRow sampleResolution.fields none = .ok memory)
    (hsource : resolutionSourceFromRow memory = .ok source) {key : String}
    (hkey : key ∈ blankFields) : Fields.get source.payload key = .null := by
  obtain ⟨hdecoded, -⟩ := decoded_sampleMemory hmemory
  have hnavigation : Fields.get memory "navigation" = .null := by
    rw [get_sampleMemory hmemory _ (by decide)]
    rfl
  have hplain : ∀ key ∈ blankFields, key ∈ sourceFields ∧ key ∉ ["resolution_id", "failure_id",
      "outcome", "applied", "episode_evidence", "action_runs"] ∧
        (Fields.get sampleResolution.fields key).isNull = true := by
    decide
  obtain ⟨hmem, hother, hnull⟩ := hplain key hkey
  have hrest : key ∉ ["action_runs", "episode_evidence"] := by
    intro h
    apply hother
    rcases List.mem_pair.mp h with rfl | rfl <;> decide
  rw [get_source hdecoded.distinct hnavigation hmem hother hsource,
    get_sampleMemory hmemory key hrest]
  cases hvalue : Fields.get sampleResolution.fields key with
  | null => rfl
  | _ =>
    rw [hvalue] at hnull
    cases hnull

/-- The failure id of a source is the one of its row. -/
theorem get_failureId {row : Fields} {source : ResolutionSource}
    (h : resolutionSourceFromRow row = .ok source) :
    optionalUuid (Fields.get row "failure_id") "failure_id" = .ok source.failureId := by
  unfold resolutionSourceFromRow at h
  obtain ⟨resolutionId, -, h⟩ := bind_eq_ok.mp h
  obtain ⟨failureId, hfailure, h⟩ := bind_eq_ok.mp h
  obtain ⟨applied, -, h⟩ := bind_eq_ok.mp h
  obtain ⟨outcome, -, h⟩ := bind_eq_ok.mp h
  obtain ⟨payload, -, h⟩ := bind_eq_ok.mp h
  rw [hfailure]
  split at h
  · cases h
  · split at h
    · unfold sourceOfCanonical at h
      obtain ⟨-, h⟩ := rejectMemory_ite_eq_ok.mp h
      split at h
      · cases h
      · cases h
        rfl
    · cases h

theorem clean_sampleDraft {memory : Fields} {source : ResolutionSource}
    (hmemory : memoryRow sampleResolution.fields none = .ok memory)
    (hsource : resolutionSourceFromRow memory = .ok source) (hgenuine : source.Genuine)
    (houtcome : Fields.get source.payload "outcome" = .str "resolved")
    (happlied : Fields.get source.payload "applied" = .bool true) :
    CleanFrontmatter (sampleDraft source) := by
  have hblank : ∀ key ∈ blankFields, Fields.get source.payload key = .null :=
    fun key hkey => get_blank hmemory hsource hkey
  have hhash : SeparatorFree (.str source.sourceHash) := by
    intro s hs c hc
    rw [List.mem_singleton.mp hs, hgenuine.sourceHash] at hc
    obtain ⟨d, hd, rfl⟩ := Sha256.mem_hexDigest hc
    exact (by decide : ∀ d < 16, isSeparator (PyText.hexDigit d) = false) d hd
  have hid : source.resolutionId = sampleId := by
    have h := resolutionSourceFromRow_resolutionId hsource
    rw [get_sampleMemory hmemory _ (by decide)] at h
    have hcanonical : canonicalUuid (Fields.get sampleResolution.fields "resolution_id")
        "resolution_id" = .ok sampleId := by decide +kernel
    rw [hcanonical, Except.ok.injEq] at h
    exact h.symm
  have hfailure : source.failureId = none := by
    have h := get_failureId hsource
    rw [get_sampleMemory hmemory _ (by decide)] at h
    exact (Except.ok.inj h).symm
  simp only [blankFields, List.forall_mem_cons] at hblank
  unfold CleanFrontmatter MemoryMarkdown.frontmatter sampleDraft
  simp only [List.forall_mem_cons, hblank, houtcome, happlied, hid, hhash, hfailure]
  have hcount : SeparatorFree (.int source.dispatchedActions.length) := fun s hs => (nomatch hs)
  simp only [hcount, true_and]
  decide

def sampleFailureRow : Fields :=
  [("flow_snapshot", .obj (sampleFlow (sampleNames "room-101.yaml"))), ("flow_id", .str "flow-1"),
    ("action_index", .int 4), ("action_command", .str "open_door")]

theorem operator_actions_replayed_sample : ∃ (memory : Fields) (draft : MemoryDraft)
    (document : MemoryDocument) (actions : List Fields),
    memoryRow sampleResolution.fields none = .ok memory ∧
      resolutionSourceFromRow memory = .ok draft.source ∧
      parseMemoryDocument (renderMemory (fun _ => "") draft.toDraftFields) = .ok document ∧
      suggestedActions sampleFailureRow document.dispatchedActions = .ok actions ∧
      ∀ c fuel target newSessionId w,
        Ensures anything (executeTarget c fuel target newSessionId) w fun t _ =>
          ∀ x ∈ segments claimed t, x.1.record.pinnedActions = actions →
            x.2.filterMap sentCommand = [] ∨
              Replays ((successfulActionRuns sampleResolution.fields).map Json.sortKeys)
                (x.2.filterMap sentCommand) := by
  obtain ⟨memory, hmemory⟩ := exists_sampleMemory
  obtain ⟨source, hsource, hactions, hresolved, houtcome, happlied⟩ := exists_sampleSource hmemory
  obtain ⟨hdecoded, -⟩ := decoded_sampleMemory hmemory
  have hdemonstrated : isPositiveDemonstration sampleResolution.fields = true := by decide +kernel
  have hruns := memoryRow_actionRuns (by decide +kernel) hmemory
  have hgenuine : source.Genuine := by
    refine resolutionSourceFromRow_genuine hdecoded.distinct ?_ hsource
    rw [hruns]
    decide +kernel
  have hprepared : (sampleDraft source).Prepared :=
    ⟨fun signature hsignature => (nomatch hsignature), fun _ => ⟨rfl, hactions, hresolved⟩⟩
  have hclean := clean_sampleDraft hmemory hsource hgenuine houtcome happlied
  obtain ⟨document, hdocument, -⟩ :=
    MemoryIndex.parse_clean (fun _ => "") hgenuine hprepared hclean
  let draft : MemoryDraft := ⟨sampleDraft source, hgenuine, hprepared⟩
  have hdispatched : document.dispatchedActions =
      (successfulActionRuns sampleResolution.fields).map Json.sortKeys :=
    @dispatched_document (fun _ => "") sampleResolution none memory draft document hdemonstrated
      hmemory hsource hdocument
  obtain ⟨actions, hsuggested⟩ := exists_of_isOk (x := suggestedActions sampleFailureRow
    ((successfulActionRuns sampleResolution.fields).map Json.sortKeys)) (by decide +kernel)
  rw [← hdispatched] at hsuggested
  refine ⟨memory, draft, document, actions, hmemory, hsource, hdocument, hsuggested, ?_⟩
  intro c fuel target newSessionId w
  exact @operator_actions_replayed sampleFailureRow actions (fun _ => "") sampleResolution none
    memory draft document hdemonstrated hmemory hsource hdocument hsuggested c fuel target
    newSessionId w

end Sample

end FailureResolver.RecordedActions
