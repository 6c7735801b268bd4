import FailureResolver.ActionPlan
import FailureResolver.PyNumber

/-!
Correction commands against the live commands frame. Every argument must be
declared by the frame's action spec and fit its type, no command may need an
operator's confirmation, and the defaults that were in force when the memory was
recorded must still be the ones of the frame.
-/

namespace FailureResolver.CommandSchema

open BinaryFloat JsonValue JsonText PyException PyInterpreter PyText PyNumber LiveFlow
open RecoveryContract ActionPlan

def confirmedCommands : List String := ["download_vla_model"]
def conditionalConfirmationCommand : String := "override_vla_model"

section Values

/-- `left < right`; nothing compares with an undefined number. -/
def numberLt : Number → Number → Bool
  | .exact p, .exact q => p < q
  | .infinite true, .exact _ => true
  | .infinite true, .infinite false => true
  | .exact _, .infinite false => true
  | _, _ => false

def numberLe (a b : Number) : Bool := numberLt a b || a.eq b

/-- A comparison a schema may ask for, with the message of its failure. -/
structure RangeCheck where
  key : String
  holds : Number → Number → Bool
  message : String

def rangeChecks : List RangeCheck :=
  [⟨"minimum", fun left right => numberLe right left, "below minimum"⟩,
    ⟨"maximum", fun left right => numberLe left right, "above maximum"⟩,
    ⟨"exclusiveMinimum", fun left right => numberLt right left,
      "at or below exclusive minimum"⟩,
    ⟨"exclusiveMaximum", fun left right => numberLt left right,
      "at or above exclusive maximum"⟩]

/-- A number that is not a truth value and is finite as a float; an integer out
of the float range raises. -/
def isFiniteNumber (value : Json) : Except PyExc Bool :=
  if isNumber value then do
    let x ← toFloat value
    return BinaryFloat.isFinite x
  else .ok false

def validateNumberRange (value : Json) (schema : Fields) (name : String) : Except PyExc Unit :=
  rangeChecks.forM fun check => do
    let limit := Fields.get schema check.key
    if !limit.isNull then
      rejectIf (!(← isFiniteNumber limit)) s!"{name} has an invalid live {check.key}"
      rejectIf (match value.number, limit.number with
          | some a, some b => !check.holds a b
          | _, _ => true)
        s!"{name} is {check.message}"

def schemaNonnegativeInt (schema : Fields) (key name : String) : Except PyExc ℤ :=
  match Fields.get schema key with
  | .int n => if n < 0 then reject s!"{name} has an invalid live {key}" else .ok n
  | _ => reject s!"{name} has an invalid live {key}"

def validateLength (length : ℕ) (schema : Fields) (minKey maxKey name low high : String) :
    Except PyExc Unit := do
  if !(Fields.get schema minKey).isNull then
    let bound ← schemaNonnegativeInt schema minKey name
    rejectIf (length < bound) s!"{name} {low}"
  if !(Fields.get schema maxKey).isNull then
    let bound ← schemaNonnegativeInt schema maxKey name
    rejectIf (bound < length) s!"{name} {high}"

def declaredType (schema : Fields) (message : String) : Except PyExc String :=
  match Fields.get schema "type" with
  | .str s => .ok s
  | _ => reject message

structure ObjectSchema where
  properties : Fields
  additional : Json
  required : List String

def objectSchema (schema : Fields) (name : String) : Except PyExc ObjectSchema := do
  let properties ← match Fields.get schema "properties" with
    | .null => .ok []
    | .obj properties => .ok properties
    | _ => reject s!"{name} has invalid live object properties"
  let additional :=
    if Fields.has schema "additionalProperties" then Fields.get schema "additionalProperties"
    else .bool false
  let required ← if Fields.has schema "required" then
      match Fields.get schema "required" with
      | .arr items => match asTexts items with
        | some required => .ok required
        | none => reject s!"{name} has invalid live required properties"
      | _ => reject s!"{name} has invalid live required properties"
    else .ok []
  return { properties, additional, required }

/-- How one member of an object is checked: by a schema, or only as JSON. -/
inductive MemberCheck
  | anyJson
  | typed (valueType : String) (schema : Fields)

def memberSchema (schema : ObjectSchema) (key name : String) : Except PyExc Json :=
  match Fields.get schema.properties key with
  | .null =>
      if isTrue schema.additional || schema.additional.pyEq (.obj []) then .ok .null
      else match schema.additional with
        | .obj additional => .ok (.obj additional)
        | _ => reject s!"{name}.{key} is not in the live schema"
  | property => .ok property

def memberCheck (schema : ObjectSchema) (key name : String) : Except PyExc MemberCheck := do
  match ← memberSchema schema key name with
  | .null => return .anyJson
  | .obj property => do
      let valueType ← declaredType property s!"{name}.{key} has no live type"
      return .typed valueType property
  | _ => reject s!"{name}.{key} has an invalid live schema"

/-- What a schema type accepts; array and object continue inside the value. -/
inductive TypeClass
  | integer
  | number
  | boolean
  | string
  | array
  | object

def typeClass (valueType : String) : Option TypeClass :=
  match casefold valueType with
  | "int" => some .integer
  | "integer" => some .integer
  | "float" => some .number
  | "number" => some .number
  | "boolean" => some .boolean
  | "string" => some .string
  | "enum" => some .string
  | "array" => some .array
  | "object" => some .object
  | _ => none

def unsupportedType {α : Type} (valueType name : String) : Except PyExc α :=
  reject s!"{name} uses unsupported live type {PyText.repr valueType}"

def validateScalar (value : Json) (kind : TypeClass) (schema : Fields) (name : String) :
    Except PyExc Unit :=
  match kind with
  | .integer => match value with
      | .int n => validateNumberRange (.int n) schema name
      | _ => reject s!"{name} must be an integer"
  | .number => do
      rejectIf (!(← isFiniteNumber value)) s!"{name} must be a number"
      validateNumberRange value schema name
  | .boolean => match value with
      | .bool _ => .ok ()
      | _ => reject s!"{name} must be a boolean"
  | .string => match value with
      | .str s => validateLength s.length schema "minLength" "maxLength" name "is too short"
          "is too long"
      | _ => reject s!"{name} must be a string"
  | .array => reject s!"{name} must be an array"
  | .object => reject s!"{name} must be an object"

structure ItemSchema where
  itemType : String
  schema : Fields

def itemSchema (length : ℕ) (schema : Fields) (name : String) : Except PyExc ItemSchema := do
  validateLength length schema "minItems" "maxItems" name "has too few items" "has too many items"
  match Fields.get schema "items" with
  | .obj items => do
      let itemType ← declaredType items s!"{name} has an invalid live item type"
      return ⟨itemType, items⟩
  | _ => reject s!"{name} has no safe live item schema"

mutual

def validateSchemaValue (value : Json) (valueType : String) (schema : Fields) (name : String) :
    Except PyExc Unit :=
  match typeClass valueType with
  | none => unsupportedType valueType name
  | some kind =>
      match kind, value with
      | .array, .arr items => do
          let items' ← itemSchema items.length schema name
          validateItems items 0 items' name
      | .object, .obj members => do
          let object ← objectSchema schema name
          object.required.forM fun key =>
            rejectIf (!Fields.has members key) s!"{name}.{key} is required"
          validateMembers members object name
      | kind, value => validateScalar value kind schema name
  termination_by structural value

def validateItems (items : List Json) (index : ℕ) (schema : ItemSchema) (name : String) :
    Except PyExc Unit :=
  match items with
  | [] => .ok ()
  | x :: xs => do
      validateSchemaValue x schema.itemType schema.schema s!"{name}[{index}]"
      validateItems xs (index + 1) schema name
  termination_by structural items

def validateMembers (members : List (String × Json)) (schema : ObjectSchema) (name : String) :
    Except PyExc Unit :=
  match members with
  | [] => .ok ()
  | (key, x) :: rest => do
      match ← memberCheck schema key name with
      | .anyJson => validateJson x
      | .typed valueType property => validateSchemaValue x valueType property s!"{name}.{key}"
      validateMembers rest schema name
  termination_by structural members

end

end Values

section Inputs

/-- One declared argument: the path its dotted name stands for. -/
structure InputSpec where
  path : List String
  input : Fields

def dottedPath (name : String) : List String := (splitOnChar '.' name.toList).map String.ofList

def joinDots (path : List String) : String := ".".intercalate path

def specInputs (command : String) (schema : Fields) : Except PyExc (List Json) :=
  match Fields.get schema "inputs" with
  | .arr inputs => .ok inputs
  | _ => reject s!"Live action spec inputs are invalid for {PyText.repr command}"

def inputName (command : String) (input : Fields) : Except PyExc String :=
  match Fields.get input "name" with
  | .str name =>
      if Trimmed name then .ok name
      else reject s!"Live action spec input name is invalid for {PyText.repr command}"
  | _ => reject s!"Live action spec input name is invalid for {PyText.repr command}"

def addInput (command : String) (specs : List InputSpec) (raw : Json) :
    Except PyExc (List InputSpec) :=
  match raw with
  | .obj input => do
      let name ← inputName command input
      rejectIf ("" ∈ dottedPath name ∨ dottedPath name ∈ specs.map InputSpec.path)
        s!"Live action spec input paths are ambiguous for {PyText.repr command}"
      rejectIf (match Fields.get input "required" with
          | .bool _ => false
          | _ => true)
        s!"Live action spec required flag is invalid for {PyText.repr command}"
      return specs ++ [⟨dottedPath name, input⟩]
  | _ => reject s!"Live action spec input is invalid for {PyText.repr command}"

def properPrefix (short long : List String) : Bool := short.isPrefixOf long && short ≠ long

def specPaths (command : String) (schema : Fields) : Except PyExc (List InputSpec) := do
  rejectIf (!(Fields.get schema "name").isNull &&
      !(Fields.get schema "name").pyEq (.str command))
    s!"Live action spec name differs for {PyText.repr command}"
  let inputs ← specInputs command schema
  let specs ← inputs.foldlM (addInput command) []
  rejectIf (specs.any fun spec => specs.any fun other => properPrefix other.path spec.path)
    s!"Live action spec paths overlap for {PyText.repr command}"
  return specs

def liveType (schema input : Fields) (name : String) : Except PyExc String :=
  match if truthy (Fields.get schema "type") then Fields.get schema "type"
      else Fields.get input "type" with
  | .str valueType => .ok valueType
  | _ => reject s!"{name} has no live type"

def liveSchema (input : Fields) (name : String) : Except PyExc Fields :=
  match Fields.get input "schema" with
  | .null => .ok []
  | .obj schema => .ok schema
  | _ => reject s!"{name} has an invalid live schema"

def validateEnum (value : Json) (input : Fields) (name : String) : Except PyExc Unit :=
  match Fields.get input "enum" with
  | .null => .ok ()
  | .arr items =>
      if items.isEmpty || !items.all isText then reject s!"{name} has an invalid live enum"
      else rejectIf (!items.any value.pyEq) s!"{name} is outside the live enum"
  | _ => reject s!"{name} has an invalid live enum"

def validateInputValue (value : Json) (input : Fields) (name : String) : Except PyExc Unit :=
  if value.isNull then
    rejectIf (isTrue (Fields.get input "required")) s!"{name} cannot be null"
  else do
    let schema ← liveSchema input name
    let valueType ← liveType schema input name
    validateSchemaValue value valueType (if schema.isEmpty then input else schema) name
    validateEnum value input name

mutual

/-- One argument at its path: declared itself, or an object above declared ones. -/
def validateArgument (specs : List InputSpec) (command : String) (path : List String)
    (value : Json) : Except PyExc Unit :=
  match specs.find? (fun spec => decide (spec.path = path)) with
  | some spec => validateInputValue value spec.input s!"{command}.{joinDots path}"
  | none =>
      if specs.any (fun spec => properPrefix path spec.path) then
        match value with
        | .obj members => validateObject specs command path members
        | _ => reject s!"{command}.{joinDots path} must be an object"
      else
        let name := PyText.repr (joinDots path)
        reject s!"Argument {name} is not in the live spec for {PyText.repr command}"
  termination_by structural value

def validateObject (specs : List InputSpec) (command : String) (path : List String)
    (members : List (String × Json)) : Except PyExc Unit :=
  match members with
  | [] => .ok ()
  | (key, value) :: rest => do
      rejectIf (key = "") s!"Arguments for {PyText.repr command} contain an invalid name"
      validateArgument specs command (path ++ [key]) value
      validateObject specs command path rest
  termination_by structural members

end

/-- The value at a path, absent where a member on the way is. -/
def pathValue (value : Json) : List String → Option Json
  | [] => some value
  | part :: path =>
      match value with
      | .obj fields => if Fields.has fields part then pathValue (Fields.get fields part) path
          else none
      | _ => none

def isMissing : Option Json → Bool
  | none => true
  | some .null => true
  | some (.str s) => s = ""
  | some _ => false

def validateActionArguments (command : String) (arguments schema : Fields) :
    Except PyExc Unit := do
  let specs ← specPaths command schema
  validateObject specs command [] arguments
  specs.forM fun spec =>
    rejectIf (isTrue (Fields.get spec.input "required") &&
        isMissing (pathValue (.obj arguments) spec.path))
      s!"Required argument {PyText.repr (joinDots spec.path)} is missing for {PyText.repr command}"

end Inputs

section Provenance

def inputType (input : Fields) : Option String :=
  match Fields.get input "type" with
  | .str s => some s
  | _ => none

def schemaType (input : Fields) : Option String :=
  match Fields.get input "schema" with
  | .obj schema => inputType schema
  | _ => none

/-- The default a placeholder text stands for; an unreadable number has none. -/
def placeholderValue (interpreter : Interpreter) (raw : String) (input : Fields) :
    Except PyExc (Option Json) :=
  if inputType input = some "boolean" then .ok (some (.bool (raw = "true")))
  else if inputType input = some "int" then .ok ((parseInt maxStrDigits raw).map Json.int)
  else if inputType input = some "float" then
    .ok ((parseFloat raw).bind fun x => if BinaryFloat.isFinite x then some (.float x) else none)
  else if inputType input = some "array" ∨ schemaType input = some "array" then do
    let value ← interpreter.loads raw.toList
    return some (value.getD (.str raw))
  else .ok (some (.str raw))

def actionInputDefault (interpreter : Interpreter) (input : Fields) :
    Except PyExc (Option Json) :=
  match Fields.get input "placeholder" with
  | .null => .ok none
  | .str raw => if raw = "" then .ok none else placeholderValue interpreter raw input
  | _ => reject "Live action default is not text"

/-- The placeholder of the input is read by the JSON decoder. -/
def ReadsJson (input : Fields) : Prop :=
  inputType input ∉ [some "boolean", some "int", some "float"] ∧
    (inputType input = some "array" ∨ schemaType input = some "array")

/-- Reading the placeholder takes the decoder deeper than it can go. -/
def DeepPlaceholder (interpreter : Interpreter) (input : Fields) : Prop :=
  ∃ raw, Fields.get input "placeholder" = .str raw ∧ ReadsJson input ∧
    exceeds interpreter.decoding (textNesting interpreter.lone raw.toList) = true

def addDefault (interpreter : Interpreter) (command : String) (defaults : Fields)
    (raw : Json) : Except PyExc Fields :=
  match raw with
  | .obj input => do
      match ← actionInputDefault interpreter input with
      | none => return defaults
      | some default =>
          match Fields.get input "name" with
          | .str name =>
              if name = "" then
                reject s!"Live action spec input name is invalid for {PyText.repr command}"
              else return Fields.set defaults name default
          | _ => reject s!"Live action spec input name is invalid for {PyText.repr command}"
  | _ => reject s!"Live action spec input is invalid for {PyText.repr command}"

def sameKeys (explicit : List String) (arguments : Fields) : Bool :=
  (∀ key ∈ explicit, key ∈ Fields.keys arguments) ∧ ∀ key ∈ Fields.keys arguments, key ∈ explicit

def updateFields (fields arguments : Fields) : Fields :=
  arguments.foldl (fun fields m => Fields.set fields m.1 m.2) fields

def validateActionProvenance (action : RecoveryAction) (schema : Fields)
    (interpreter : Interpreter := .plain) : Except PyExc Unit := do
  let inputs ← specInputs action.command schema
  let defaults ← inputs.foldlM (addDefault interpreter action.command) []
  rejectIf (match action.explicitArguments with
      | some explicit => !sameKeys explicit action.arguments
      | none => false)
    s!"Recorded explicit arguments are invalid for {PyText.repr action.command}"
  let name := PyText.repr action.command
  match action.argumentsEffective with
  | none =>
      rejectIf (!defaults.isEmpty)
        s!"Legacy recovery for {name} did not record the action defaults that were used"
  | some effective => do
      let defaults ← interpreter.deepcopy defaults
      let arguments ← interpreter.deepcopy action.arguments
      let same ← jsonValuesEqual (.obj effective) (.obj (updateFields defaults arguments))
      rejectIf (!same) s!"Live action defaults changed for {name}"

variable {interpreter : Interpreter} {input : Fields}

theorem actionInputDefault_of_deep (h : DeepPlaceholder interpreter input) :
    actionInputDefault interpreter input = .error recursionError := by
  obtain ⟨raw, hraw, ⟨htype, harray⟩, hdeep⟩ := h
  have hne : raw ≠ "" := by
    rintro rfl
    have hflat : textNesting interpreter.lone "".toList = 0 := rfl
    rw [hflat] at hdeep
    unfold exceeds at hdeep
    split at hdeep
    · cases hdeep
    · simp at hdeep
  unfold actionInputDefault placeholderValue
  rw [hraw]
  simp only [List.mem_cons, List.not_mem_nil, or_false, not_or] at htype
  dsimp only
  rw [if_neg hne, if_neg htype.1, if_neg htype.2.1, if_neg htype.2.2, if_pos harray]
  unfold Interpreter.loads
  rw [if_pos hdeep]
  rfl

/-- A placeholder the decoder can go down into is read as if there were no limit. -/
theorem actionInputDefault_of_read (h : ¬ DeepPlaceholder interpreter input) :
    actionInputDefault interpreter input = actionInputDefault interpreter.unlimited input := by
  unfold actionInputDefault placeholderValue
  cases hraw : Fields.get input "placeholder" with
  | str raw =>
    dsimp only
    split_ifs with hempty hboolean hint hfloat harray
    · rfl
    · rfl
    · rfl
    · rfl
    · have hread : ¬ exceeds interpreter.decoding (textNesting interpreter.lone raw.toList) =
          true := by
        intro hdeep
        exact h ⟨raw, hraw, ⟨by simp [hboolean, hint, hfloat], harray⟩, hdeep⟩
      unfold Interpreter.loads
      rw [if_neg hread, if_neg (by simp [Interpreter.unlimited])]
      rfl
    · rfl
  | _ => rfl

/-- Without limits every text is read. -/
theorem exists_unlimitedDefault (h : Fields.get input "placeholder" = .null ∨
    ∃ raw, Fields.get input "placeholder" = .str raw) :
    ∃ default, actionInputDefault interpreter.unlimited input = .ok default := by
  unfold actionInputDefault
  rcases h with hnull | ⟨raw, hraw⟩
  · rw [hnull]
    exact ⟨none, rfl⟩
  · rw [hraw]
    dsimp only
    split
    · exact ⟨none, rfl⟩
    · unfold placeholderValue
      split_ifs
      · exact ⟨_, rfl⟩
      · exact ⟨_, rfl⟩
      · exact ⟨_, rfl⟩
      · unfold Interpreter.loads
        rw [if_neg (by simp [Interpreter.unlimited])]
        exact ⟨_, rfl⟩
      · exact ⟨_, rfl⟩

end Provenance

section Corrections

def commandRequiresConfirmation (command : String) (arguments schema : Fields) : Bool :=
  isTrue (Fields.get schema "requires_confirmation") || decide (command ∈ confirmedCommands) ||
    (command = conditionalConfirmationCommand &&
      match Fields.get arguments "allow_download" with
      | .bool false => false
      | _ => true)

def validateCorrection (commands : Fields) (action : RecoveryAction)
    (interpreter : Interpreter := .plain) : Except PyExc Unit :=
  match Fields.get commands action.command with
  | .obj schema => do
      rejectIf (commandRequiresConfirmation action.command action.arguments schema)
        s!"Command {PyText.repr action.command} requires operator confirmation"
      validateActionArguments action.command action.arguments schema
      validateActionProvenance action schema interpreter
  | _ => reject s!"Command {PyText.repr action.command} is not in the live action spec"

def validateCorrectionsAgainstCommands (corrections : List RecoveryAction)
    (frame : CommandsFrame) (generation : ℕ) (interpreter : Interpreter := .plain) :
    Except PyExc Unit := do
  rejectIf (frame.generation ≠ generation)
    "commands action spec belongs to an old robot connection"
  corrections.forM fun action => validateCorrection frame.commands action interpreter

/-- Corrections pass one by one. -/
theorem validateCorrections_eq_ok {corrections : List RecoveryAction} {frame : CommandsFrame}
    {generation : ℕ} :
    validateCorrectionsAgainstCommands corrections frame generation = .ok () ↔
      frame.generation = generation ∧
        ∀ action ∈ corrections, validateCorrection frame.commands action = .ok () := by
  unfold validateCorrectionsAgainstCommands
  simp only [bind_unit_eq_ok, rejectIf_eq_ok, decide_eq_false_iff_not, not_not, forM_eq_ok]

/-- A correction that passes is declared by the frame and needs no confirmation. -/
theorem validateCorrection_eq_ok {commands : Fields} {action : RecoveryAction} :
    validateCorrection commands action = .ok () ↔
      ∃ schema, Fields.get commands action.command = .obj schema ∧
        commandRequiresConfirmation action.command action.arguments schema = false ∧
        validateActionArguments action.command action.arguments schema = .ok () ∧
        validateActionProvenance action schema = .ok () := by
  unfold validateCorrection
  cases hschema : Fields.get commands action.command <;> simp

end Corrections

end FailureResolver.CommandSchema
