import FailureResolver.FencedText
import FailureResolver.ResolutionMemory

/-!
The Markdown of a memory: what is written for a draft and what is read back. The
values of a draft are printable, so the encoder is its printer here. How a value
that is no text is turned into text for the context list is left open; whatever
the conversion returns, its line boundaries are flattened.
-/

namespace FailureResolver.MemoryMarkdown

open EpisodeEvidence FencedText JsonText JsonValue PyException PyText PyUuid ResolutionMemory

def schemaVersion : ℤ := 1

def sourceTable : String := "public.flow_failure_resolutions"

def frontmatterFields : List String :=
  ["schema_version", "source", "source_hash", "resolution_id", "failure_id", "memory_kind",
    "actionable", "sysid", "site_id", "site", "floor", "room_number", "map_id", "map_name",
    "map_observed_at", "flow_id", "flow_name", "area_name", "item_name", "failure_status",
    "failed_command", "outcome", "applied", "action_count", "model", "response_id",
    "captured_at", "resolved_at", "created_at"]

def signatureHeading : List Char := "## Retrieval Signature".toList

def evidenceHeading : List Char := "## Episode Evidence".toList

def actionsHeading : List Char := "## Dispatched Actions".toList

section Render

/-- `json.dumps(value, separators=(",", ":"))`. -/
def yamlScalar (value : Json) : List Char := print compactStyle 0 value

def joinLines (lines : List (List Char)) : List Char := ['\n'].intercalate lines

def quoteLine (line : List Char) : List Char := if line.isEmpty then ['>'] else '>' :: ' ' :: line

def blockquote (value : List Char) : List Char := joinLines ((splitLines value).map quoteLine)

/-- `" ".join(text.splitlines())`. -/
def flatten (text : String) : List Char := [' '].intercalate (splitLines text.toList)

def bodyScalar (strOf : Json → String) : Json → List Char
  | .null => "Not recorded".toList
  | .str s => flatten s
  | value => flatten (strOf value)

def frontmatter (draft : DraftFields) : Fields :=
  let payload := Fields.get draft.source.payload
  [("schema_version", .int schemaVersion), ("source", .str sourceTable),
    ("source_hash", .str draft.source.sourceHash),
    ("resolution_id", .str draft.source.resolutionId),
    ("failure_id", optionalText draft.source.failureId),
    ("memory_kind", .str draft.memoryKind.text), ("actionable", .bool draft.actionable),
    ("sysid", payload "sysid"), ("site_id", payload "site_id"), ("site", payload "site"),
    ("floor", payload "floor"), ("room_number", payload "room_number"),
    ("map_id", payload "map_id"), ("map_name", payload "map_name"),
    ("map_observed_at", payload "map_observed_at"), ("flow_id", payload "flow_id"),
    ("flow_name", payload "flow_name"), ("area_name", payload "area_name"),
    ("item_name", payload "item_name"), ("failure_status", payload "failure_status"),
    ("failed_command", payload "failed_command"), ("outcome", payload "outcome"),
    ("applied", payload "applied"),
    ("action_count", .int draft.source.dispatchedActions.length), ("model", .str draft.model),
    ("response_id", optionalText draft.responseId), ("captured_at", payload "captured_at"),
    ("resolved_at", payload "resolved_at"), ("created_at", payload "created_at")]

def frontmatterLine (entry : String × Json) : List Char :=
  entry.1.toList ++ ':' :: ' ' :: yamlScalar entry.2

def frontmatterLines (draft : DraftFields) : List (List Char) :=
  frontmatterFields.map (fun key => frontmatterLine (key, Fields.get (frontmatter draft) key))

def numberedLesson (lesson : String × ℕ) : List Char :=
  lesson.2.repr.toList ++ '.' :: ' ' :: lesson.1.toList

def lessonsText (lessons : List String) : List Char :=
  if lessons.isEmpty then "_None recorded._".toList
  else joinLines ((lessons.zipIdx 1).map (fun lesson => blockquote (numberedLesson lesson)))

/-- The labels of the context list, each with the payload field it shows. -/
def contextFields : List (String × String) :=
  [("Robot", "sysid"), ("Site ID", "site_id"), ("Site", "site"), ("Floor", "floor"),
    ("Room", "room_number"), ("Map ID", "map_id"), ("Map", "map_name"),
    ("Map observed at", "map_observed_at"), ("Flow", "flow_name"), ("Area", "area_name"),
    ("Item", "item_name"), ("Failed command", "failed_command"),
    ("Failed step", "failed_step"), ("Outcome", "outcome")]

def contextLine (label : String) (text : List Char) : List Char :=
  '-' :: ' ' :: (label.toList ++ ':' :: ' ' :: text)

def yesNo (b : Bool) : List Char := if b then "yes".toList else "no".toList

def contextLines (strOf : Json → String) (draft : DraftFields) : List (List Char) :=
  contextFields.map (fun field =>
      contextLine field.1 (bodyScalar strOf (Fields.get draft.source.payload field.2))) ++
    [contextLine "Applied" (yesNo (truthy (Fields.get draft.source.payload "applied"))),
      contextLine "Actionable" (yesNo draft.actionable)]

/-- `json.dumps(value, indent=2, sort_keys=True)`. -/
def indentedJson (value : Json) : List Char := print indentedStyle 0 value.sortKeys

def optionalObject : Option Fields → Json
  | none => .null
  | some members => .obj members

def title (draft : DraftFields) : List Char :=
  "# Resolution Memory ".toList ++ draft.source.resolutionId.toList

def proseBlocks (strOf : Json → String) (draft : DraftFields) : List (List Char) :=
  [title draft, [], "## Failure Pattern".toList, blockquote draft.failureSummary.toList, [],
    "## Recovery Knowledge".toList, blockquote draft.recoverySummary.toList, [],
    "## Lessons".toList, lessonsText draft.lessons, [], "## Context".toList] ++
      contextLines strOf draft ++ [[]]

def signatureSection (draft : DraftFields) : List (List Char) :=
  [signatureHeading, openingFence, indentedJson (optionalObject draft.signature), closingFence]

def evidenceSection (draft : DraftFields) : List (List Char) :=
  [evidenceHeading, openingFence,
    indentedJson (Fields.get draft.source.payload "episode_evidence"), closingFence]

def actionsSection (draft : DraftFields) : List (List Char) :=
  [actionsHeading, openingFence, indentedJson (.arr draft.source.dispatchedActions), closingFence]

def bodyBlocks (strOf : Json → String) (draft : DraftFields) : List (List Char) :=
  proseBlocks strOf draft ++ signatureSection draft ++ [[]] ++ evidenceSection draft ++ [[]] ++
    actionsSection draft

def rule : List Char := ['-', '-', '-']

def renderMemory (strOf : Json → String) (draft : DraftFields) : List Char :=
  joinLines ([rule] ++ frontmatterLines draft ++ [rule] ++ [[]] ++ bodyBlocks strOf draft ++ [[]])

end Render

section Parse

/-- What reading a file in text mode does to its line ends. -/
def universalNewlines : List Char → List Char
  | [] => []
  | '\r' :: '\n' :: rest => '\n' :: universalNewlines rest
  | c :: rest => (if c = '\r' then '\n' else c) :: universalNewlines rest

/-- The text before the first occurrence of a word, and the text after it. -/
def splitAtWord (word : List Char) : List Char → Option (List Char × List Char)
  | [] => none
  | c :: rest =>
      match (c :: rest).dropPrefix? word with
      | some after => some ([], after)
      | none => (splitAtWord word rest).map (fun p => (c :: p.1, p.2))

/-- `text.partition(":")`; `none` if there is no separator. -/
def partitionColon : List Char → Option (List Char × List Char)
  | [] => none
  | c :: rest =>
      if c = ':' then some ([], rest)
      else (partitionColon rest).map (fun p => (c :: p.1, p.2))

def isKeyStart (c : Char) : Bool := 'a' ≤ c && c ≤ 'z'

def isKeyChar (c : Char) : Bool := isKeyStart c || c.isDigit || c = '_'

/-- `[a-z][a-z0-9_]*`. -/
def isFrontmatterKey : List Char → Bool
  | [] => false
  | c :: rest => isKeyStart c && rest.all isKeyChar

/-- A value that is no JSON text stands for itself. -/
def frontmatterValue (valueText : List Char) : Json :=
  (loads valueText).getD (.str (String.ofList valueText))

def addFrontmatterLine (parsed : Fields) (line : List Char) : Except PyExc Fields :=
  match partitionColon line with
  | none => rejectMemory "Memory frontmatter contains an invalid field"
  | some (key, rawValue) =>
      if isFrontmatterKey (stripChars key) = false then
        rejectMemory "Memory frontmatter contains an invalid field"
      else if Fields.has parsed (String.ofList (stripChars key)) = true then
        rejectMemory "Memory frontmatter contains duplicate fields"
      else .ok (parsed ++
        [(String.ofList (stripChars key), frontmatterValue (stripChars rawValue))])

def isActionCount : Json → Bool
  | .int n => 0 ≤ n
  | _ => false

def isBoolean : Json → Bool
  | .bool _ => true
  | _ => false

def checkFrontmatter (parsed : Fields) : Except PyExc Fields :=
  if frontmatterFields.all (Fields.has parsed) = false then
    rejectMemory "Memory frontmatter is missing required fields"
  else if Json.pyEq (Fields.get parsed "schema_version") (.int schemaVersion) = false then
    rejectMemory "Memory schema version is unsupported"
  else if Json.pyEq (Fields.get parsed "source") (.str sourceTable) = false then
    rejectMemory "Memory source is unsupported"
  else if Json.pyEq (Fields.get parsed "memory_kind") (.str "positive") = false ∧
      Json.pyEq (Fields.get parsed "memory_kind") (.str "negative") = false then
    rejectMemory "Memory kind is invalid"
  else if isBoolean (Fields.get parsed "actionable") = false then
    rejectMemory "Memory actionable flag is invalid"
  else if isActionCount (Fields.get parsed "action_count") = false then
    rejectMemory "Memory action_count is invalid"
  else .ok parsed

def parseFrontmatter (text : List Char) : Except PyExc Fields := do
  let parsed ← (splitLines text).foldlM addFrontmatterLine []
  checkFrontmatter parsed

structure MemoryDocument where
  frontmatter : Fields
  dispatchedActions : List Json
  body : List Char
  episodeEvidence : Option Fields
  retrievalSignature : Option Fields

/-- The text behind the opening rule up to the closing one, and the body. -/
def splitDocument (content : List Char) : Except PyExc (List Char × List Char) :=
  match content.dropPrefix? (unlines [rule]) with
  | none => rejectMemory "Memory is missing YAML frontmatter"
  | some rest =>
      match splitAtWord ('\n' :: unlines [rule]) rest with
      | none => rejectMemory "Memory frontmatter is not terminated"
      | some parts => .ok parts

def sourceHashOf (frontmatter : Fields) : Except PyExc String :=
  match Fields.get frontmatter "source_hash" with
  | .str s => if isHash s then .ok s else rejectMemory "Memory source_hash is invalid"
  | _ => rejectMemory "Memory source_hash is invalid"

def parseActions (frontmatter : Fields) (body : List Char) : Except PyExc (List Json) :=
  match search actionsHeading body with
  | none => rejectMemory "Memory is missing dispatched-actions JSON"
  | some text =>
      match loads text with
      | none => rejectMemory "Dispatched-actions JSON is invalid"
      | some (.arr actions) =>
          if actions.all isMapping = false then
            rejectMemory "Dispatched actions must be an array of objects"
          else if Json.pyEq (Fields.get frontmatter "action_count") (.int actions.length) = false
            then rejectMemory "Memory action_count does not match dispatched actions"
          else .ok actions
      | some _ => rejectMemory "Dispatched actions must be an array of objects"

/-- An optional section whose contents are null or a valid evidence object. -/
def parseEvidence (heading : List Char) (invalidJson invalid : String) (body : List Char) :
    Except PyExc (Option Fields) :=
  match search heading body with
  | none => .ok none
  | some text =>
      match loads text with
      | none => rejectMemory invalidJson
      | some .null => .ok none
      | some value =>
          match validateEpisodeEvidence value with
          | .ok evidence => .ok (some evidence)
          | .error _ => rejectMemory invalid

def parseMemoryDocument (content : List Char) : Except PyExc MemoryDocument := do
  let (text, body) ← splitDocument (universalNewlines content)
  let parsed ← parseFrontmatter text
  let resolutionId ← canonicalUuid (Fields.get parsed "resolution_id") "resolution_id"
  let frontmatter := Fields.set parsed "resolution_id" (.str resolutionId)
  let _ ← sourceHashOf frontmatter
  let actions ← parseActions frontmatter body
  let evidence ← parseEvidence evidenceHeading "Episode-evidence JSON is invalid"
    "Episode evidence is invalid" body
  let signature ← parseEvidence signatureHeading "Retrieval-signature JSON is invalid"
    "Retrieval signature is invalid" body
  return ⟨frontmatter, actions, body, evidence, signature⟩

/-- `str(self.frontmatter["resolution_id"])`, a text in every document. -/
def MemoryDocument.resolutionId (document : MemoryDocument) : String :=
  match Fields.get document.frontmatter "resolution_id" with
  | .str s => s
  | _ => ""

def MemoryDocument.sourceHash (document : MemoryDocument) : String :=
  match Fields.get document.frontmatter "source_hash" with
  | .str s => s
  | _ => ""

/-- A positive, actionable memory of an applied resolution that has actions. -/
def MemoryDocument.isExecutionCandidate (document : MemoryDocument) : Bool :=
  Json.pyEq (Fields.get document.frontmatter "memory_kind") (.str "positive") &&
    isTrue (Fields.get document.frontmatter "actionable") &&
    Json.pyEq (Fields.get document.frontmatter "outcome") (.str "resolved") &&
    isTrue (Fields.get document.frontmatter "applied") && !document.dispatchedActions.isEmpty

end Parse

end FailureResolver.MemoryMarkdown
