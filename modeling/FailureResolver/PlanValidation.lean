import FailureResolver.ActionPlan

/-!
A plan against the world: the failure row, the session row and the action tree
of a live Flow. Only a plan whose captured steps are the ones of the live tree
may be continued, and the arguments of the continuation name the paused step, so
the robot can refuse them when the Flow has moved.
-/

namespace FailureResolver.PlanValidation

open JsonValue PyException PyText LiveFlow RecoveryContract ActionPlan

section Identity

/-- The plan continues at the step of this index and command. -/
def identifiesStep (plan : RecoveryPlan) (actionIndex : ℤ) (actionCommand : String) : Bool :=
  plan.expectedStep.actionIndex = actionIndex && plan.expectedStep.command = actionCommand

def validatePlanForTarget (plan : RecoveryPlan) (target : FailureRecoveryTarget) :
    Except PyExc Unit :=
  rejectIf (!identifiesStep plan target.actionIndex target.actionCommand)
    "Stored continuation does not identify the failed Flow step"

def validatePlanForSession (plan : RecoveryPlan) (session : RecoverySessionRecord) :
    Except PyExc Unit :=
  rejectIf (!identifiesStep plan session.actionIndex session.actionCommand)
    "Pinned continuation does not identify the recovery session step"

end Identity

section FlowTree

/-- The mappings of an array that are not switched off. -/
def enabled (items : List Json) : List Fields :=
  (mappings items).filter (fun fields => match Fields.get fields "_disabled" with
    | .bool true => false
    | _ => true)

def requiredItems (value : Json) (message : String) : Except PyExc (List Json) :=
  match value with
  | .arr items => .ok items
  | _ => reject message

def actionContext (areaName itemName : String) (contexts : List FlowActionContext)
    (action : Fields) : Except PyExc (List FlowActionContext) := do
  let actionIndex ← requiredInt (Fields.get action "action_index") "Flow action.action_index" 0
    1000000
  rejectIf (actionIndex ∈ contexts.map FlowActionContext.actionIndex)
    "live Flow action indices are ambiguous"
  let command ← requiredText (Fields.get action "command") "Flow action.command"
    maxCommandLength
  return contexts ++ [⟨actionIndex, command, areaName, itemName⟩]

def itemContexts (areaName : String) (contexts : List FlowActionContext) (item : Fields) :
    Except PyExc (List FlowActionContext) := do
  let itemName ← requiredText (Fields.get item "name") "Flow item.name" 300
  let actions ← requiredItems (Fields.get item "actions") "live Flow item has invalid actions"
  (enabled actions).foldlM (actionContext areaName itemName) contexts

def areaContexts (contexts : List FlowActionContext) (area : Fields) :
    Except PyExc (List FlowActionContext) := do
  let areaName ← requiredText (Fields.get area "name") "Flow area.name" 300
  let items ← requiredItems (Fields.get area "items") "live Flow area has invalid items"
  (enabled items).foldlM (itemContexts areaName) contexts

/-- The enabled actions of a Flow in document order, with unique indices. -/
def flowActionContexts (flow : Fields) : Except PyExc (List FlowActionContext) := do
  let areas ← requiredItems (Fields.get flow "areas") "live Flow has no action tree"
  (enabled areas).foldlM areaContexts []

def contextAt (contexts : List FlowActionContext) (index : ℤ) : Option FlowActionContext :=
  contexts.find? (fun context => decide (context.actionIndex = index))

def contextAfter (contexts : List FlowActionContext) (step : FlowActionContext) :
    Option FlowActionContext :=
  contexts[contexts.idxOf step + 1]?

def validateTerminalForFlow (terminal : Terminal) (contexts : List FlowActionContext)
    (liveCurrent : FlowActionContext) : Except PyExc Unit :=
  match terminal with
  | .resumeFlow _ _ rewindSteps current target =>
      rejectIf (current ≠ liveCurrent ∨
          contextAt contexts (liveCurrent.actionIndex - rewindSteps) ≠ some target)
        "Pinned continuation structure differs from the live Flow"
  | .rerun retried expectedNext => do
      rejectIf (retried ≠ liveCurrent) "Pinned retry structure differs from the live Flow"
      rejectIf (expectedNext ≠ contextAfter contexts liveCurrent)
        "The action following the pinned retry has changed"

def validatePlanForFlow (plan : RecoveryPlan) (pointer : FlowPointer) : Except PyExc Unit :=
  match pointer.completed, pointer.actionIndex, pointer.actionCommand with
  | false, some index, some command => do
      let contexts ← flowActionContexts pointer.raw
      match contextAt contexts index with
      | some liveCurrent => do
          rejectIf (liveCurrent.command ≠ command)
            "live Flow pointer does not match its action tree"
          validateTerminalForFlow plan.terminal contexts liveCurrent
      | none => reject "live Flow pointer does not match its action tree"
  | _, _, _ => reject "recovery requires a live non-terminal Flow action"

theorem contractOnly_requiredItems (value : Json) (message : String) :
    ContractOnly (requiredItems value message) := by
  unfold requiredItems
  split
  · exact contractOnly_ok _
  · exact contractOnly_reject _

theorem contractOnly_actionContext (areaName itemName : String)
    (contexts : List FlowActionContext) (action : Fields) :
    ContractOnly (actionContext areaName itemName contexts action) := by
  unfold actionContext
  refine .bind (contractOnly_requiredInt _ _ _ _) fun _ _ => ?_
  refine .bind (contractOnly_rejectIf _ _) fun _ _ => ?_
  exact .bind (contractOnly_requiredText _ _ _) fun _ _ => contractOnly_ok _

theorem contractOnly_flowActionContexts (flow : Fields) :
    ContractOnly (flowActionContexts flow) := by
  unfold flowActionContexts
  refine .bind (contractOnly_requiredItems _ _) fun areas _ => .foldlM (fun contexts area _ => ?_) _
  unfold areaContexts
  refine .bind (contractOnly_requiredText _ _ _) fun areaName _ => ?_
  refine .bind (contractOnly_requiredItems _ _) fun items _ =>
    .foldlM (fun contexts item _ => ?_) _
  unfold itemContexts
  refine .bind (contractOnly_requiredText _ _ _) fun itemName _ => ?_
  exact .bind (contractOnly_requiredItems _ _) fun actions _ =>
    .foldlM (fun contexts action _ => contractOnly_actionContext _ _ contexts action) _

/-- Comparing a plan with a Flow raises only contract errors. -/
theorem contractOnly_validatePlanForFlow (plan : RecoveryPlan) (pointer : FlowPointer) :
    ContractOnly (validatePlanForFlow plan pointer) := by
  unfold validatePlanForFlow
  split
  · refine .bind (contractOnly_flowActionContexts _) fun contexts _ => ?_
    split
    · refine .bind (contractOnly_rejectIf _ _) fun _ _ => ?_
      unfold validateTerminalForFlow
      split
      · exact contractOnly_rejectIf _ _
      · exact .bind (contractOnly_rejectIf _ _) fun _ _ => contractOnly_rejectIf _ _
    · exact contractOnly_reject _
  · exact contractOnly_reject _

/-- A pointer a plan was found valid for stands at a step. -/
theorem validatePlanForFlow_step {plan : RecoveryPlan} {pointer : FlowPointer}
    (h : validatePlanForFlow plan pointer = .ok ()) : ∃ index, pointer.actionIndex = some index := by
  unfold validatePlanForFlow at h
  split at h
  · next heq _ => exact ⟨_, heq⟩
  · exact absurd h reject_ne_ok

end FlowTree

section Resume

def optionalText : Option String → Json
  | some s => .str s
  | none => .null

def selectedMode (mode : Option ResumeMode) (rewindSteps : ℤ) : ResumeMode :=
  mode.getD (if rewindSteps = 0 then .retryCurrent else .rewind)

/-- The arguments that name the paused step to the robot. -/
def buildGuardedResumeArguments (pointer : FlowPointer) (rewindSteps : ℤ)
    (mode : Option ResumeMode) : Except PyExc Fields :=
  match pointer.actionIndex, pointer.actionCommand with
  | some index, some command => do
      rejectIf (rewindSteps < 0 ∨ maxRewindSteps < rewindSteps)
        "rewind_steps is outside the safe range"
      rejectIf (selectedMode mode rewindSteps = .retryCurrent ∧ rewindSteps ≠ 0)
        "retry_current requires rewind_steps=0"
      return [("mode", .str (selectedMode mode rewindSteps).text),
          ("rewind_steps", .int rewindSteps),
          ("current_action_index", .int index),
          ("current_command", .str command),
          ("flow_id", .str pointer.flowId)] ++
        (match pointer.filename with
          | some filename => [("filename", .str filename)]
          | none => []) ++
        (match pointer.fid with
          | some fid => [("fid", .str fid)]
          | none => []) ++
        (if pointer.flowCommit.isSome || Fields.has pointer.raw "flow_commit" then
          [("flow_commit", optionalText pointer.flowCommit)]
        else [])
  | _, _ => reject "cannot build continuation from a terminal Flow pointer"

def optionalInt : Option ℤ → Json
  | some n => .int n
  | none => .null

def FlowPointer.liveFid (pointer : FlowPointer) : Option String :=
  match pointer.fid with
  | some fid => if fid = "" then pointer.filename else some fid
  | none => pointer.filename

/-- What each optional guard argument has to equal on the live Flow. -/
def liveGuards (pointer : FlowPointer) : List (String × Json) :=
  [("flow_id", .str pointer.flowId), ("filename", optionalText pointer.filename),
    ("fid", optionalText (FlowPointer.liveFid pointer)),
    ("flow_commit", optionalText pointer.flowCommit)]

/-- A pinned continuation is replayed unchanged after its guards are found equal
to the live step; only a rerun gets freshly built arguments. -/
def resumeArgumentsForPlan (plan : RecoveryPlan) (pointer : FlowPointer) :
    Except PyExc Fields :=
  match plan.terminal with
  | .rerun _ _ => buildGuardedResumeArguments pointer 0 (some .retryCurrent)
  | .resumeFlow arguments _ _ _ _ => do
      rejectIf (!(Fields.get arguments "current_action_index").pyEq
            (optionalInt pointer.actionIndex) ||
          !(Fields.get arguments "current_command").pyEq (optionalText pointer.actionCommand))
        "Pinned $resume_flow step guard differs from the fresh Flow"
      (liveGuards pointer).forM fun guard =>
        rejectIf (Fields.has arguments guard.1 &&
            !(Fields.get arguments guard.1).pyEq guard.2)
          s!"Pinned $resume_flow {guard.1} differs from the fresh Flow"
      return arguments

def requiredAcknowledgement (pointer : FlowPointer) (index rewindSteps : ℤ)
    (mode : Option ResumeMode) : List (String × Json) :=
  [("accepted", .bool true), ("mode", .str (selectedMode mode rewindSteps).text),
    ("rewind_steps", .int rewindSteps), ("previous_action_index", .int index),
    ("target_action_index", .int (index - rewindSteps)),
    ("current_command", optionalText pointer.actionCommand),
    ("flow_id", .str pointer.flowId)]

def validateResumeAcknowledgement (value : Json) (pointer : FlowPointer) (rewindSteps : ℤ)
    (mode : Option ResumeMode) : Except PyExc Unit :=
  match value with
  | .obj fields =>
      match pointer.actionIndex with
      | some index => do
          rejectIf ((requiredAcknowledgement pointer index rewindSteps mode).any
              (fun member => !(Fields.get fields member.1).pyEq member.2))
            "$resume_flow acknowledgement does not match"
          rejectIf (pointer.filename.isSome &&
              !(Fields.get fields "filename").pyEq (optionalText pointer.filename))
            "$resume_flow filename acknowledgement differs"
          rejectIf (pointer.flowCommit.isSome &&
              !(Fields.get fields "flow_commit").pyEq (optionalText pointer.flowCommit))
            "$resume_flow flow_commit acknowledgement differs"
      | none =>
          .error ⟨.type, "unsupported operand type(s) for -: 'NoneType' and 'int'"⟩
  | _ => reject "$resume_flow acknowledgement is invalid"

theorem contractOnly_buildGuardedResumeArguments (pointer : FlowPointer) (rewindSteps : ℤ)
    (mode : Option ResumeMode) :
    ContractOnly (buildGuardedResumeArguments pointer rewindSteps mode) := by
  unfold buildGuardedResumeArguments
  split
  · refine .bind (contractOnly_rejectIf _ _) fun _ _ => ?_
    exact .bind (contractOnly_rejectIf _ _) fun _ _ => contractOnly_ok _
  · exact contractOnly_reject _

theorem contractOnly_resumeArgumentsForPlan (plan : RecoveryPlan) (pointer : FlowPointer) :
    ContractOnly (resumeArgumentsForPlan plan pointer) := by
  unfold resumeArgumentsForPlan
  split
  · exact contractOnly_buildGuardedResumeArguments _ _ _
  · refine .bind (contractOnly_rejectIf _ _) fun _ _ => ?_
    exact .bind (.forM fun _ _ => contractOnly_rejectIf _ _) fun _ _ => contractOnly_ok _

/-- At a step an acknowledgement is only ever refused. -/
theorem contractOnly_validateResumeAcknowledgement (value : Json) {pointer : FlowPointer}
    {index : ℤ} (hindex : pointer.actionIndex = some index) (rewindSteps : ℤ)
    (mode : Option ResumeMode) :
    ContractOnly (validateResumeAcknowledgement value pointer rewindSteps mode) := by
  unfold validateResumeAcknowledgement
  rw [hindex]
  split
  · refine .bind (contractOnly_rejectIf _ _) fun _ _ => ?_
    exact .bind (contractOnly_rejectIf _ _) fun _ _ => contractOnly_rejectIf _ _
  · exact contractOnly_reject _

end Resume

section Rebind

def contextPayload (context : FlowActionContext) : Json :=
  .obj [("actionIndex", .int context.actionIndex), ("command", .str context.command),
    ("areaName", .str context.areaName), ("itemName", .str context.itemName)]

/-- The remembered step and the live one agree in everything but the index. -/
def sameStructure (remembered live : FlowActionContext) : Bool :=
  remembered.command = live.command && remembered.areaName = live.areaName &&
    remembered.itemName = live.itemName

/-- The terminal action of a memory with the guard arguments of this failure. -/
def rebindTerminal (terminal fresh : Fields) (current target : FlowActionContext) : Fields :=
  let terminal := Fields.set terminal "arguments" (.obj fresh)
  let terminal :=
    if Fields.has terminal "arguments_effective" then
      Fields.set terminal "arguments_effective" (.obj fresh)
    else terminal
  let terminal :=
    if Fields.has terminal "explicit_arguments" then
      Fields.set terminal "explicit_arguments" (.arr ((Fields.keys fresh).map Json.str))
    else terminal
  Fields.set terminal "continuation_context" (.obj [("expected_arguments", .obj fresh),
    ("current_action", contextPayload current), ("target_action", contextPayload target)])

/-- The pointer of a captured failure Flow, if it stands paused at this step. -/
def capturedPointer (flowSnapshot : Json) (flowId actionCommand : String) (actionIndex : ℤ) :
    Except PyExc FlowPointer :=
  let rejected := "failure Flow snapshot does not match its captured pointer"
  match parseFlowPointer flowSnapshot 0 0 with
  | none => reject rejected
  | some pointer =>
      if !pointer.completed ∧ casefold (strip pointer.status) = "paused" ∧
          pointer.flowId = flowId ∧ pointer.actionIndex = some actionIndex ∧
          pointer.actionCommand = some actionCommand then .ok pointer
      else reject rejected

def asPlanValue (actions : List Fields) : Json := .arr (actions.map Json.obj)

def mapLast (f : Fields → Fields) : List Fields → List Fields
  | [] => []
  | [x] => [f x]
  | x :: rest => x :: mapLast f rest

/-- Bind the actions of a memory to one captured failure: a rerun is kept as it
is, a resumed continuation gets the guard arguments and the captured steps of
this Flow, provided its steps have the same structure here. -/
def rebindRecoveryActions (actions : List Fields) (flowSnapshot : Json) (flowId : String)
    (actionIndex : ℤ) (actionCommand : String) : Except PyExc (List Fields) := do
  let pointer ← capturedPointer flowSnapshot flowId actionCommand actionIndex
  let plan ← parseRecoveryPlan (asPlanValue actions)
  match plan.terminal with
  | .rerun _ _ => do
      validatePlanForFlow plan pointer
      return actions
  | .resumeFlow _ mode rewindSteps current target => do
      let contexts ← flowActionContexts pointer.raw
      let changed := "remembered continuation structure differs from this Flow run"
      match contextAt contexts actionIndex, contextAt contexts (actionIndex - rewindSteps) with
      | some liveCurrent, some liveTarget => do
          rejectIf (!sameStructure current liveCurrent || !sameStructure target liveTarget ||
            current.actionIndex - target.actionIndex ≠ rewindSteps) changed
          let fresh ← buildGuardedResumeArguments pointer rewindSteps (some mode)
          let rebound := mapLast (fun terminal =>
            rebindTerminal terminal fresh liveCurrent liveTarget) actions
          let reboundPlan ← parseRecoveryPlan (asPlanValue rebound)
          validatePlanForFlow reboundPlan pointer
          return rebound
      | _, _ => reject changed

end Rebind

end FailureResolver.PlanValidation
