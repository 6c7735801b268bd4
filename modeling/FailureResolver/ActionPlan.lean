import FailureResolver.JsonText
import FailureResolver.LiveFlow
import FailureResolver.PyInterpreter
import FailureResolver.RecoveryContract

/-!
The executable plan of a pinned memory: correction commands and one terminal
continuation. Parsing checks the plan on its own; the validations compare it
with the failure row, the session row and the action tree of a live Flow. A
continuation either retries the captured step or resumes with guard arguments
that name the step it was captured at.
-/

namespace FailureResolver.ActionPlan

open BinaryFloat JsonValue JsonText PyException PyInterpreter PyText LiveFlow RecoveryContract

def allowedActionFields : List String :=
  ["command", "title", "arguments", "arguments_effective", "explicit_arguments",
    "retry_context", "continuation_context"]

def allowedResumeArguments : List String :=
  ["mode", "rewind_steps", "current_action_index", "current_command", "flow_id", "filename",
    "fid", "flow_commit"]

def maxArgumentBytes : ℕ := 32 * 1024
def maxJsonDepth : ℕ := 12
def maxJsonNodes : ℕ := 2000

section Json

def countNode (nodes depth : ℕ) : Except PyExc ℕ :=
  if maxJsonNodes < nodes + 1 ∨ maxJsonDepth < depth then
    reject "JSON recovery arguments are too complex"
  else .ok (nodes + 1)

mutual

/-- Walk a value in document order; the result is the node count so far. -/
def walkJson (nodes depth : ℕ) : Json → Except PyExc ℕ
  | .arr items => do
      let nodes ← countNode nodes depth
      walkItems nodes (depth + 1) items
  | .obj members => do
      let nodes ← countNode nodes depth
      walkMembers nodes (depth + 1) members
  | .float x => do
      let nodes ← countNode nodes depth
      rejectIf (!BinaryFloat.isFinite x) "JSON recovery arguments contain a non-finite number"
      return nodes
  | _ => countNode nodes depth

def walkItems (nodes depth : ℕ) : List Json → Except PyExc ℕ
  | [] => .ok nodes
  | x :: xs => do
      let nodes ← walkJson nodes depth x
      walkItems nodes depth xs

def walkMembers (nodes depth : ℕ) : List (String × Json) → Except PyExc ℕ
  | [] => .ok nodes
  | (_, x) :: rest => do
      let nodes ← walkJson nodes depth x
      walkMembers nodes depth rest

end

def validateJson (value : Json) : Except PyExc Unit := do
  let _ ← walkJson 0 0 value
  return ()

def overflowError : PyExc := ⟨.overflow, "int too large to convert to float"⟩

def toFloat : Json → Except PyExc Binary64
  | .int n => match ofInt n with
      | some x => .ok (.finite x)
      | none => .error overflowError
  | .float x => .ok x
  | _ => .ok .nan

def numbersEqual (left right : Json) : Except PyExc Bool := do
  let a ← toFloat left
  if !BinaryFloat.isFinite a then return false
  let b ← toFloat right
  if !BinaryFloat.isFinite b then return false
  return (Number.ofFloat a).eq (Number.ofFloat b)

def isNumber : Json → Bool
  | .int _ => true
  | .float _ => true
  | _ => false

mutual

/-- Equality of values and of their kinds; truth values are no numbers, and
numbers compare as floats. -/
def jsonValuesEqual : Json → Json → Except PyExc Bool
  | .bool a, right => .ok (match right with
      | .bool b => a == b
      | _ => false)
  | .int n, right => if isNumber right then numbersEqual (.int n) right else .ok false
  | .float x, right => if isNumber right then numbersEqual (.float x) right else .ok false
  | .null, right => .ok right.isNull
  | .str a, right => .ok (match right with
      | .str b => a == b
      | _ => false)
  | .arr xs, right => match right with
      | .arr ys => if xs.length = ys.length then itemsEqual xs ys else .ok false
      | _ => .ok false
  | .obj xs, right => match right with
      | .obj ys =>
          if xs.all (fun m => Fields.has ys m.1) ∧ ys.all (fun m => Fields.has xs m.1) then
            membersEqual xs ys
          else .ok false
      | _ => .ok false

def itemsEqual : List Json → List Json → Except PyExc Bool
  | x :: xs, y :: ys => do
      if ← jsonValuesEqual x y then itemsEqual xs ys else return false
  | _, _ => .ok true

def membersEqual : List (String × Json) → Fields → Except PyExc Bool
  | [], _ => .ok true
  | (key, x) :: rest, ys => do
      if ← jsonValuesEqual x (Fields.get ys key) then membersEqual rest ys else return false

end

end Json

section Data

structure FlowActionContext where
  actionIndex : ℤ
  command : String
  areaName : String
  itemName : String
  deriving DecidableEq

structure RecoveryAction where
  command : String
  arguments : Fields
  argumentsEffective : Option Fields
  explicitArguments : Option (List String)

inductive ResumeMode
  | retryCurrent
  | rewind
  deriving DecidableEq

def ResumeMode.text : ResumeMode → String
  | .retryCurrent => "retry_current"
  | .rewind => "rewind"

/-- The last action of a plan. A rerun carries the step it retries and the step
expected after it; a resumed Flow carries its guard arguments, and the captured
step and target they name. -/
inductive Terminal
  | rerun (retried : FlowActionContext) (expectedNext : Option FlowActionContext)
  | resumeFlow (arguments : Fields) (mode : ResumeMode) (rewindSteps : ℤ)
      (current target : FlowActionContext)

structure RecoveryPlan where
  corrections : List RecoveryAction
  terminal : Terminal

namespace RecoveryPlan

def rewindSteps (plan : RecoveryPlan) : ℤ :=
  match plan.terminal with
  | .rerun _ _ => 0
  | .resumeFlow _ _ steps _ _ => steps

def resumeMode (plan : RecoveryPlan) : ResumeMode :=
  match plan.terminal with
  | .rerun _ _ => .retryCurrent
  | .resumeFlow _ mode _ _ _ => mode

def expectedStep (plan : RecoveryPlan) : FlowActionContext :=
  match plan.terminal with
  | .rerun retried _ => retried
  | .resumeFlow _ _ _ current _ => current

end RecoveryPlan

end Data

section Parse

def hasOnly (fields : Fields) (allowed : List String) : Bool :=
  fields.all (fun m => m.1 ∈ allowed)

def parseContinuationAction (value : Json) (name : String) : Except PyExc FlowActionContext :=
  match value with
  | .obj fields => do
      rejectIf (!hasOnly fields
          ["command", "description", "status", "areaName", "itemName", "actionIndex"])
        s!"{name} has unsupported fields"
      let actionIndex ← requiredInt (Fields.get fields "actionIndex") s!"{name}.actionIndex" 0
        1000000
      let command ← requiredText (Fields.get fields "command") s!"{name}.command"
        maxCommandLength
      let areaName ← requiredText (Fields.get fields "areaName") s!"{name}.areaName" 300
      let itemName ← requiredText (Fields.get fields "itemName") s!"{name}.itemName" 300
      ["description", "status"].forM fun key => do
        if Fields.has fields key then
          let _ ← requiredText (Fields.get fields key) s!"{name}.{key}" 1000
      return { actionIndex, command, areaName, itemName }
  | _ => reject s!"{name} must be an object"

/-- The recorded effective arguments carry every explicit argument with its
value. A key that cannot be hashed raises as the membership test does. -/
def checkEffectiveKeys (message : String) (effective arguments : Fields) :
    List Json → Except PyExc Unit
  | [] => .ok ()
  | .str key :: keys => do
      rejectIf (!Fields.has effective key) message
      let same ← jsonValuesEqual (Fields.get effective key) (Fields.get arguments key)
      rejectIf (!same) message
      checkEffectiveKeys message effective arguments keys
  | .arr _ :: _ => .error ⟨.type, "unhashable type: 'list'"⟩
  | .obj _ :: _ => .error ⟨.type, "unhashable type: 'dict'"⟩
  | _ :: _ => reject message

def explicitKeys (raw arguments : Fields) : Json :=
  if Fields.has raw "explicit_arguments" then Fields.get raw "explicit_arguments"
  else .arr ((Fields.keys arguments).map Json.str)

def checkProvenance (index : ℕ) (raw effective arguments : Fields) : Except PyExc Unit :=
  let message := s!"recovery action {index} argument provenance is invalid"
  match explicitKeys raw arguments with
  | .arr keys => checkEffectiveKeys message effective arguments keys
  | _ => reject message

def checkEffective (index : ℕ) (raw arguments : Fields) : Except PyExc Unit :=
  if Fields.has raw "arguments_effective" then
    match Fields.get raw "arguments_effective" with
    | .obj effective => do
        validateJson (.obj effective)
        checkProvenance index raw effective arguments
    | _ => reject s!"recovery action {index}.arguments_effective is invalid"
  else .ok ()

def asTexts : List Json → Option (List String)
  | [] => some []
  | .str s :: rest => (asTexts rest).map (s :: ·)
  | _ :: _ => none

def explicitTexts (raw : Fields) : Option (List String) :=
  match Fields.get raw "explicit_arguments" with
  | .arr items => asTexts items
  | _ => none

def explicitValid (explicit : List String) (arguments : Fields) : Bool :=
  explicit.Nodup ∧ (∀ item ∈ explicit, Trimmed item ∧ item.length ≤ maxCommandLength) ∧
    (∀ item ∈ explicit, item ∈ Fields.keys arguments) ∧
    ∀ key ∈ Fields.keys arguments, key ∈ explicit

def checkExplicit (index : ℕ) (raw arguments : Fields) : Except PyExc Unit :=
  rejectIf (Fields.has raw "explicit_arguments" &&
      match explicitTexts raw with
      | some explicit => !explicitValid explicit arguments
      | none => true)
    s!"recovery action {index}.explicit_arguments is invalid"

/-- The size of the compact text in bytes; a text with a surrogate has no bytes. -/
def argumentBytes (arguments : Fields) (surrogate : Char → Bool := noSurrogate) :
    Except PyExc ℕ :=
  match dumps compactStyle (Json.sortKeys (.obj arguments)) with
  | some text =>
      if text.any surrogate then .error ⟨.value, "surrogates not allowed"⟩
      else .ok (String.ofList text).utf8ByteSize
  | none => .error ⟨.value, "Exceeds the limit (4300 digits) for integer string conversion"⟩

theorem argumentBytes_of_dumps {arguments : Fields} {text : List Char}
    (h : dumps compactStyle (Json.sortKeys (.obj arguments)) = some text) :
    argumentBytes arguments = .ok (String.ofList text).utf8ByteSize := by
  unfold argumentBytes
  rw [h]
  simp

structure ParsedAction where
  command : String
  arguments : Fields
  raw : Fields

def parseAction (index : ℕ) (value : Json) (surrogate : Char → Bool := noSurrogate) :
    Except PyExc ParsedAction :=
  match value with
  | .obj raw => do
      rejectIf (!hasOnly raw allowedActionFields)
        s!"recovery action {index} has unsupported fields"
      let command ← requiredText (Fields.get raw "command") s!"recovery action {index}.command"
        maxCommandLength
      if Fields.has raw "title" then
        let _ ← requiredText (Fields.get raw "title") s!"recovery action {index}.title" 300
      match Fields.get raw "arguments" with
      | .obj arguments => do
          validateJson (.obj arguments)
          let size ← argumentBytes arguments surrogate
          rejectIf (maxArgumentBytes < size)
            s!"recovery action {index}.arguments is too large"
          checkEffective index raw arguments
          checkExplicit index raw arguments
          return { command, arguments, raw }
      | _ => reject s!"recovery action {index}.arguments must be an object"
  | _ => reject s!"recovery action {index} is not an object"

def parseActions (index : ℕ) (values : List Json) (surrogate : Char → Bool := noSurrogate) :
    Except PyExc (List ParsedAction) :=
  match values with
  | [] => .ok []
  | value :: rest => do
      let action ← parseAction index value surrogate
      let actions ← parseActions (index + 1) rest surrogate
      return action :: actions

def isTerminal (command : String) : Bool := command = "$rerun" || command = "$resume_flow"

def checkCorrection (action : ParsedAction) : Except PyExc Unit := do
  rejectIf ("$".toList.isPrefixOf action.command.toList)
    "meta-commands are forbidden before the terminal continuation"
  rejectIf (!(Fields.get action.raw "retry_context").isNull ||
      !(Fields.get action.raw "continuation_context").isNull)
    "correction actions cannot carry Flow continuation context"

def ParsedAction.recoveryAction (action : ParsedAction) : RecoveryAction where
  command := action.command
  arguments := action.arguments
  argumentsEffective := match Fields.get action.raw "arguments_effective" with
    | .obj effective => some effective
    | _ => none
  explicitArguments := explicitTexts action.raw

def parseRerun (terminal : ParsedAction) : Except PyExc Terminal := do
  rejectIf (!(Fields.get terminal.raw "continuation_context").isNull)
    "$rerun cannot carry continuation_context"
  rejectIf (!terminal.arguments.isEmpty) "$rerun arguments must be empty"
  match Fields.get terminal.raw "retry_context" with
  | .obj context =>
      match Fields.get context "retried_action" with
      | .obj retried => do
          rejectIf (!hasOnly context ["retried_action", "expected_next_action"])
            "$rerun retry_context is invalid"
          rejectIf (!Fields.has context "expected_next_action")
            "$rerun requires expected_next_action context"
          let retried ← parseContinuationAction (.obj retried) "retry_context.retried_action"
          let expectedNext ← optional (Fields.get context "expected_next_action")
            (fun value => parseContinuationAction value "retry_context.expected_next_action")
          return .rerun retried expectedNext
      | _ => reject "$rerun requires retry_context"
  | _ => reject "$rerun requires retry_context"

def parseResumeMode : Json → Except PyExc ResumeMode
  | .str "retry_current" => .ok .retryCurrent
  | .str "rewind" => .ok .rewind
  | _ => reject "$resume_flow mode is invalid"

/-- The guard arguments: the rewind distance, and texts naming the Flow. -/
def parseResumeArguments (arguments : Fields) :
    Except PyExc (ResumeMode × ℤ × ℤ × String) := do
  rejectIf (!hasOnly arguments allowedResumeArguments) "$resume_flow has unsupported arguments"
  let mode ← parseResumeMode (Fields.get arguments "mode")
  let rewindSteps ← requiredInt (Fields.get arguments "rewind_steps")
    "$resume_flow.rewind_steps" 0 maxRewindSteps
  rejectIf (mode = .retryCurrent ∧ rewindSteps ≠ 0) "retry_current requires rewind_steps=0"
  rejectIf (mode = .rewind ∧ rewindSteps = 0) "rewind requires between 1 and 5 steps"
  let _ ← requiredText (Fields.get arguments "flow_id") "$resume_flow.flow_id" 300
  ["filename", "fid"].forM fun key => do
    if Fields.has arguments key then
      let _ ← requiredText (Fields.get arguments key) s!"$resume_flow.{key}" 300
  rejectIf (Fields.has arguments "filename" && Fields.has arguments "fid" &&
      !(Fields.get arguments "filename").pyEq (Fields.get arguments "fid"))
    "$resume_flow filename and fid must match"
  if !(Fields.get arguments "flow_commit").isNull then
    let _ ← requiredText (Fields.get arguments "flow_commit") "$resume_flow.flow_commit" 300
  let index ← requiredInt (Fields.get arguments "current_action_index")
    "$resume_flow.current_action_index" 0 1000000
  let command ← requiredText (Fields.get arguments "current_command")
    "$resume_flow.current_command" maxCommandLength
  return (mode, rewindSteps, index, command)

def parseResumeFlow (terminal : ParsedAction) : Except PyExc Terminal := do
  let arguments := terminal.arguments
  let (mode, rewindSteps, index, command) ← parseResumeArguments arguments
  match Fields.get terminal.raw "continuation_context" with
  | .obj continuation => do
      rejectIf (!hasOnly continuation ["expected_arguments", "current_action", "target_action"])
        "continuation_context is invalid"
      rejectIf (!(Fields.get continuation "expected_arguments").pyEq (.obj arguments))
        "continuation_context does not match $resume_flow arguments"
      rejectIf (!(Fields.get terminal.raw "retry_context").isNull)
        "$resume_flow cannot carry retry_context"
      let current ← parseContinuationAction (Fields.get continuation "current_action")
        "continuation_context.current_action"
      let target ← parseContinuationAction (Fields.get continuation "target_action")
        "continuation_context.target_action"
      rejectIf (current.actionIndex ≠ index ∨ current.command ≠ command ∨
          target.actionIndex ≠ index - rewindSteps)
        "continuation_context action pointers do not match $resume_flow arguments"
      rejectIf (mode = .retryCurrent ∧ target ≠ current)
        "retry_current continuation target must equal the current action"
      return .resumeFlow arguments mode rewindSteps current target
  | _ => reject "$resume_flow requires continuation_context"

def parseTerminal (terminal : ParsedAction) : Except PyExc Terminal :=
  if terminal.command = "$rerun" then parseRerun terminal else parseResumeFlow terminal

def parseRecoveryPlan (value : Json) (surrogate : Char → Bool := noSurrogate) :
    Except PyExc RecoveryPlan :=
  match value with
  | .arr actions => do
      rejectIf (actions.length < 1 ∨ maxActions < actions.length)
        "recovery actions must contain 1 to 10 items"
      let parsed ← parseActions 0 actions surrogate
      match parsed.reverse with
      | terminal :: before => do
          let corrections := before.reverse
          rejectIf (!isTerminal terminal.command ||
              corrections.any (fun action => isTerminal action.command))
            "recovery requires exactly one terminal $rerun or $resume_flow"
          corrections.forM checkCorrection
          let terminal ← parseTerminal terminal
          return ⟨corrections.map ParsedAction.recoveryAction, terminal⟩
      | [] => reject "recovery requires exactly one terminal $rerun or $resume_flow"
  | _ => reject "recovery actions must be an array"

/-- No correction of a parsed plan is a meta-command. -/
theorem parseRecoveryPlan_corrections {value : Json} {plan : RecoveryPlan}
    (h : parseRecoveryPlan value = .ok plan) :
    ∀ action ∈ plan.corrections, "$".toList.isPrefixOf action.command.toList = false := by
  unfold parseRecoveryPlan at h
  split at h
  · obtain ⟨-, h⟩ := bind_unit_eq_ok.mp h
    obtain ⟨parsed, -, h⟩ := bind_eq_ok.mp h
    split at h
    · obtain ⟨-, h⟩ := bind_unit_eq_ok.mp h
      obtain ⟨hchecked, h⟩ := bind_unit_eq_ok.mp h
      obtain ⟨terminal, -, h⟩ := bind_eq_ok.mp h
      cases h
      intro action haction
      obtain ⟨parsed, hparsed, rfl⟩ := List.mem_map.mp haction
      have hcheck := forM_eq_ok.mp hchecked parsed hparsed
      exact rejectIf_eq_ok.mp (bind_unit_eq_ok.mp hcheck).1
    · exact absurd h reject_ne_ok
  · exact absurd h reject_ne_ok

end Parse

end FailureResolver.ActionPlan
