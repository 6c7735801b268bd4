import FailureResolver.FlowTree

/-!
The structural guard of a continuation. A plan may continue on a live Flow when
the enabled action at the paused index is the captured one and the step it aims
at, or the step after the retried one, is the captured one too. Together with the
guard arguments this keeps the dispatched target inside the tree, at most five
steps back.
-/

namespace FailureResolver.StructuralGuard

open JsonValue PyException PyText LiveFlow RecoveryContract ActionPlan PlanParsing PlanValidation
open FlowTree

section Pointer

/-- A pointer that is not completed stands at a step of its document. -/
theorem parseFlowPointer_step {flow : Fields} {revision generation : ℕ} {pointer : FlowPointer}
    (h : parseFlowPointer (.obj flow) revision generation = some pointer)
    (hlive : pointer.completed = false) :
    pointer.raw = flow ∧
      ∃ index command, pointer.actionIndex = some index ∧ pointer.actionCommand = some command ∧
        0 ≤ index := by
  unfold parseFlowPointer pointerOfFlow at h
  dsimp only at h
  split at h
  · split_ifs at h
    · cases h
      cases hlive
    · split at h
      · cases h
      · split at h
        · split_ifs at h with hnegative
          cases h
          exact ⟨rfl, _, _, rfl, rfl, by omega⟩
        · cases h
  · cases h

/-- A pointer at a step is not completed, and its raw document is the parsed one. -/
theorem parseFlowPointer_live {flow : Fields} {revision generation : ℕ} {pointer : FlowPointer}
    {index : ℤ} (h : parseFlowPointer (.obj flow) revision generation = some pointer)
    (hindex : pointer.actionIndex = some index) :
    pointer.completed = false ∧ pointer.raw = flow := by
  unfold parseFlowPointer pointerOfFlow at h
  dsimp only at h
  split at h
  · split_ifs at h
    · cases h
      cases hindex
    · split at h
      · cases h
      · split at h
        · split_ifs at h
          cases h
          exact ⟨rfl, rfl⟩
        · cases h
  · cases h

end Pointer

section Guard

/-- The continuation fits a tree whose paused action is the given one. -/
def Fits (terminal : Terminal) (order : List FlowActionContext) (paused : FlowActionContext) :
    Prop :=
  match terminal with
  | .resumeFlow _ _ rewindSteps current target =>
      paused = current ∧ target ∈ order ∧ target.actionIndex = paused.actionIndex - rewindSteps
  | .rerun retried expectedNext =>
      paused = retried ∧
        ∃ before rest, order = before ++ paused :: rest ∧ expectedNext = rest.head?

/-- The enabled actions of a well-formed tree hold the paused step, with the
pointer's command, and the continuation fits there. -/
def GuardHolds (plan : RecoveryPlan) (flow : Fields) (pointer : FlowPointer) : Prop :=
  WellFormed flow ∧
    ∃ paused ∈ documentOrder flow, pointer.actionIndex = some paused.actionIndex ∧
      pointer.actionCommand = some paused.command ∧
      Fits plan.terminal (documentOrder flow) paused

theorem validateTerminalForFlow_eq_ok {terminal : Terminal} {order : List FlowActionContext}
    {paused : FlowActionContext} (horder : DistinctIndices order) (hpaused : paused ∈ order) :
    validateTerminalForFlow terminal order paused = .ok () ↔ Fits terminal order paused := by
  unfold validateTerminalForFlow Fits
  cases terminal with
  | resumeFlow arguments mode rewindSteps current target =>
    dsimp only
    rw [rejectIf_eq_ok, decide_eq_false_iff_not, not_or, not_not, not_not,
      contextAt_eq_some horder, eq_comm]
  | rerun retried expectedNext =>
    dsimp only
    rw [bind_unit_eq_ok, rejectIf_eq_ok, rejectIf_eq_ok, decide_eq_false_iff_not,
      decide_eq_false_iff_not, not_not, not_not, eq_comm]
    refine and_congr_right fun _ => ?_
    constructor
    · intro h
      obtain ⟨before, rest, rfl⟩ := List.append_of_mem hpaused
      exact ⟨before, rest, rfl, h.trans (contextAfter_append horder)⟩
    · intro h
      obtain ⟨before, rest, rfl, hnext⟩ := h
      rw [hnext, contextAfter_append horder]

theorem validatePlanForFlow_eq_ok {plan : RecoveryPlan} {flow : Fields} {pointer : FlowPointer}
    (hraw : pointer.raw = flow) (hlive : pointer.completed = false) :
    validatePlanForFlow plan pointer = .ok () ↔ GuardHolds plan flow pointer := by
  subst hraw
  unfold validatePlanForFlow GuardHolds
  rw [hlive]
  cases hindex : pointer.actionIndex with
  | none => simp
  | some index =>
    cases hcommand : pointer.actionCommand with
    | none => simp
    | some command =>
      dsimp only
      rw [bind_eq_ok]
      constructor
      · intro h
        obtain ⟨contexts, hcontexts, h⟩ := h
        obtain ⟨hformed, rfl⟩ := flowActionContexts_eq_ok.mp hcontexts
        cases hpaused : contextAt (documentOrder pointer.raw) index with
        | none =>
          rw [hpaused] at h
          exact absurd h reject_ne_ok
        | some paused =>
          rw [hpaused] at h
          obtain ⟨hsame, h⟩ := bind_unit_eq_ok.mp h
          obtain ⟨hmem, rfl⟩ := (contextAt_eq_some hformed.distinct).mp hpaused
          rw [rejectIf_eq_ok, decide_eq_false_iff_not, not_not] at hsame
          exact ⟨hformed, paused, hmem, rfl, by rw [hsame],
            (validateTerminalForFlow_eq_ok hformed.distinct hmem).mp h⟩
      · intro h
        obtain ⟨hformed, paused, hmem, hat, hsame, hfits⟩ := h
        refine ⟨_, flowActionContexts_eq_ok.mpr ⟨hformed, rfl⟩, ?_⟩
        have hpaused : contextAt (documentOrder pointer.raw) index = some paused :=
          (contextAt_eq_some hformed.distinct).mpr ⟨hmem, (Option.some.inj hat).symm⟩
        rw [hpaused]
        refine bind_unit_eq_ok.mpr ⟨?_, (validateTerminalForFlow_eq_ok hformed.distinct hmem).mpr
          hfits⟩
        rw [rejectIf_eq_ok, decide_eq_false_iff_not, not_not]
        exact (Option.some.inj hsame).symm

end Guard

section Arguments

def optionalMember (key : String) : Option String → Fields
  | some s => [(key, .str s)]
  | none => []

/-- The guard arguments of a pointer that stands at a step. -/
def guardArguments (pointer : FlowPointer) (index : ℤ) (command : String) (rewindSteps : ℤ)
    (mode : ResumeMode) : Fields :=
  [("mode", .str mode.text), ("rewind_steps", .int rewindSteps),
      ("current_action_index", .int index), ("current_command", .str command),
      ("flow_id", .str pointer.flowId)] ++
    optionalMember "filename" pointer.filename ++ optionalMember "fid" pointer.fid ++
    (if pointer.flowCommit.isSome || Fields.has pointer.raw "flow_commit" then
      [("flow_commit", optionalText pointer.flowCommit)]
    else [])

theorem buildGuardedResumeArguments_eq_ok {pointer : FlowPointer} {rewindSteps : ℤ}
    {mode : ResumeMode} {arguments : Fields} :
    buildGuardedResumeArguments pointer rewindSteps (some mode) = .ok arguments ↔
      ∃ index command, pointer.actionIndex = some index ∧ pointer.actionCommand = some command ∧
        (0 ≤ rewindSteps ∧ rewindSteps ≤ maxRewindSteps) ∧
        (mode = .retryCurrent → rewindSteps = 0) ∧
        arguments = guardArguments pointer index command rewindSteps mode := by
  unfold buildGuardedResumeArguments
  cases pointer.actionIndex with
  | none => simp
  | some index =>
    cases pointer.actionCommand with
    | none => simp
    | some command =>
      have hselected : selectedMode (some mode) rewindSteps = mode := rfl
      dsimp only
      rw [bind_unit_eq_ok, bind_unit_eq_ok, rejectIf_eq_ok, rejectIf_eq_ok,
        decide_eq_false_iff_not, decide_eq_false_iff_not, not_or, not_lt, not_lt, hselected,
        not_and, not_not]
      constructor
      · intro h
        obtain ⟨hrange, hmode, h⟩ := h
        cases h
        exact ⟨index, command, rfl, rfl, hrange, hmode, rfl⟩
      · intro h
        obtain ⟨index', command', hindex, hcommand, hrange, hmode, rfl⟩ := h
        cases hindex
        cases hcommand
        exact ⟨hrange, hmode, rfl⟩

variable (pointer : FlowPointer) (index : ℤ) (command : String) (rewindSteps : ℤ)
  (mode : ResumeMode)

@[simp] theorem get_guardArguments_index :
    Fields.get (guardArguments pointer index command rewindSteps mode) "current_action_index" =
      .int index := rfl

@[simp] theorem get_guardArguments_steps :
    Fields.get (guardArguments pointer index command rewindSteps mode) "rewind_steps" =
      .int rewindSteps := rfl

@[simp] theorem get_guardArguments_mode :
    Fields.get (guardArguments pointer index command rewindSteps mode) "mode" =
      .str mode.text := rfl

@[simp] theorem get_guardArguments_command :
    Fields.get (guardArguments pointer index command rewindSteps mode) "current_command" =
      .str command := rfl

@[simp] theorem get_guardArguments_flowId :
    Fields.get (guardArguments pointer index command rewindSteps mode) "flow_id" =
      .str pointer.flowId := rfl

end Arguments

section Dispatch

def capturedTarget : Terminal → FlowActionContext
  | .rerun retried _ => retried
  | .resumeFlow _ _ _ _ target => target

/-- The payload aims at an enabled action of the tree that is the captured
target, at the paused index or at most five before it. -/
def AimsWithin (plan : RecoveryPlan) (flow : Fields) (pointer : FlowPointer) (payload : Fields) :
    Prop :=
  ∃ index rewindSteps, pointer.actionIndex = some index ∧
    Fields.get payload "current_action_index" = .int index ∧
    Fields.get payload "rewind_steps" = .int rewindSteps ∧
    capturedTarget plan.terminal ∈ documentOrder flow ∧
    (capturedTarget plan.terminal).actionIndex = index - rewindSteps ∧
    0 ≤ index - rewindSteps ∧ index - rewindSteps ≤ index ∧ index - 5 ≤ index - rewindSteps

theorem aimsWithin_of_guard {value : Json} {plan : RecoveryPlan} {flow payload : Fields}
    {pointer : FlowPointer} {index : ℤ} (hplan : parseRecoveryPlan value = .ok plan)
    (hindex : pointer.actionIndex = some index) (hstart : 0 ≤ index)
    (hguard : GuardHolds plan flow pointer)
    (hpayload : resumeArgumentsForPlan plan pointer = .ok payload) :
    AimsWithin plan flow pointer payload := by
  obtain ⟨-, paused, hmem, hat, -, hfits⟩ := hguard
  unfold resumeArgumentsForPlan at hpayload
  unfold Fits at hfits
  unfold AimsWithin
  cases hterminal : plan.terminal with
  | rerun retried expectedNext =>
    rw [hterminal] at hpayload hfits
    obtain ⟨rfl, -⟩ := hfits
    obtain ⟨index', command, hindex', -, -, -, rfl⟩ :=
      buildGuardedResumeArguments_eq_ok.mp hpayload
    rw [hat] at hindex hindex'
    cases hindex
    cases hindex'
    refine ⟨_, 0, hat, rfl, rfl, hmem, ?_, ?_, ?_, ?_⟩
    · show paused.actionIndex = paused.actionIndex - 0
      omega
    · omega
    · omega
    · omega
  | resumeFlow arguments mode rewindSteps current target =>
    have hresume := parseRecoveryPlan_resume hplan hterminal
    rw [hterminal] at hpayload hfits
    obtain ⟨rfl, htarget, hposition⟩ := hfits
    obtain ⟨-, hpayload⟩ := bind_unit_eq_ok.mp hpayload
    obtain ⟨-, hpayload⟩ := bind_unit_eq_ok.mp hpayload
    cases hpayload
    have hnear := hresume.near
    have hbegin := hresume.start
    unfold maxRewindSteps at hnear
    refine ⟨_, rewindSteps, hat, hresume.index, hresume.steps, htarget, hposition, ?_, ?_, ?_⟩
    · omega
    · omega
    · omega

/-- A plan is valid for a live Flow exactly when the guard holds, and then
whatever is dispatched aims at the captured target. -/
theorem structural_guard {value : Json} {plan : RecoveryPlan} {flow : Fields}
    {revision generation : ℕ} {pointer : FlowPointer} (hplan : parseRecoveryPlan value = .ok plan)
    (hpointer : parseFlowPointer (.obj flow) revision generation = some pointer)
    (hlive : pointer.completed = false) :
    (validatePlanForFlow plan pointer = .ok () ↔ GuardHolds plan flow pointer) ∧
      ∀ payload, validatePlanForFlow plan pointer = .ok () →
        resumeArgumentsForPlan plan pointer = .ok payload →
          AimsWithin plan flow pointer payload := by
  obtain ⟨hraw, index, command, hindex, hcommand, hstart⟩ := parseFlowPointer_step hpointer hlive
  have hguard : validatePlanForFlow plan pointer = .ok () ↔ GuardHolds plan flow pointer :=
    validatePlanForFlow_eq_ok hraw hlive
  refine ⟨hguard, fun payload hvalid hpayload => ?_⟩
  exact aimsWithin_of_guard hplan hindex hstart (hguard.mp hvalid) hpayload

def sampleStep (index : ℤ) (command : String) : Json :=
  .obj [("action_index", .int index), ("command", .str command)]

def sampleFlow (names : Fields) : Fields :=
  names ++ [("status", .str "paused"), ("current_action_index", .int 4),
    ("areas", .arr [.obj [("name", .str "Room"), ("items", .arr [.obj [("name", .str "Door"),
      ("actions", .arr [sampleStep 3 "grasp", sampleStep 4 "open_door"])]])]])]

def sampleResume (flowId : String) : Fields :=
  let arguments : Fields := [("mode", .str "rewind"), ("rewind_steps", .int 1),
    ("current_action_index", .int 4), ("current_command", .str "open_door"),
    ("flow_id", .str flowId)]
  [("command", .str "$resume_flow"), ("arguments", .obj arguments),
    ("continuation_context", .obj [("expected_arguments", .obj arguments),
      ("current_action", contextPayload ⟨4, "open_door", "Room", "Door"⟩),
      ("target_action", contextPayload ⟨3, "grasp", "Room", "Door"⟩)])]

theorem eq_ok_of_toOption {ε α : Type} {x : Except ε α} {a : α} (h : x.toOption = some a) :
    x = .ok a := by
  cases x with
  | ok b =>
    cases h
    rfl
  | error e => cases h

theorem structural_guard_sample :
    ∃ plan pointer payload,
      parseRecoveryPlan (asPlanValue [sampleResume "flow-1"]) = .ok plan ∧
        parseFlowPointer (.obj (sampleFlow [("id", .str "flow-1")])) 7 1 = some pointer ∧
        resumeArgumentsForPlan plan pointer = .ok payload ∧
        GuardHolds plan (sampleFlow [("id", .str "flow-1")]) pointer ∧
        AimsWithin plan (sampleFlow [("id", .str "flow-1")]) pointer payload := by
  have hruns : ((parseRecoveryPlan (asPlanValue [sampleResume "flow-1"])).toOption.bind fun plan =>
      (parseFlowPointer (.obj (sampleFlow [("id", .str "flow-1")])) 7 1).map fun pointer =>
        !pointer.completed && (validatePlanForFlow plan pointer).isOk &&
          (resumeArgumentsForPlan plan pointer).isOk) = some true := by
    decide +kernel
  obtain ⟨plan, hplan, hruns⟩ := Option.bind_eq_some_iff.mp hruns
  obtain ⟨pointer, hpointer, hruns⟩ := Option.map_eq_some_iff.mp hruns
  rw [Bool.and_eq_true, Bool.and_eq_true, Bool.not_eq_true'] at hruns
  obtain ⟨⟨hlive, hvalid⟩, hpayload⟩ := hruns
  obtain ⟨⟨⟩, hvalid⟩ := exists_of_isOk hvalid
  obtain ⟨payload, hpayload⟩ := exists_of_isOk hpayload
  have hparsed := eq_ok_of_toOption hplan
  obtain ⟨hguard, haims⟩ := structural_guard hparsed hpointer hlive
  exact ⟨plan, pointer, payload, hparsed, hpointer, hpayload, hguard.mp hvalid,
    haims payload hvalid hpayload⟩

end Dispatch

end FailureResolver.StructuralGuard
