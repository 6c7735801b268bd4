import FailureResolver.LearningEligibility
import FailureResolver.MemoryBrowsing
import FailureResolver.PlanValidation
import FailureResolver.SuggestedFix

/-!
Matching one failure. A pending failure is claimed, its store is chosen, and the safe
memories of that store which no operator has revoked are shown to the model. What the
model picks is an id; the actions of the suggestion are copied from the memory with
that id and bound to the Flow run of the failure. Errors after the store was chosen
are recorded in the row and raised again.
-/

namespace FailureResolver.FailureMatcher

open JsonValue LearnResolution LearningEligibility MemoryAgent MemoryBrowsing MemoryMarkdown
open MemorySnapshot PlanValidation Program PyException PyText RowText SuggestedFix

section Suggestion

def maxMatcherMessageLength : ℕ := 800

def boundedMatcherMessage (value : String) : String :=
  let flattened := stripChars ([' '].intercalate (splitLines value.toList))
  String.ofList ((flattened.map replacePrintable).take maxMatcherMessageLength)

def runOnlyFields : List String := ["status", "sent_at", "state_before"]

def suggestionAction (action : Json) : Fields :=
  (membersOf action).filter fun member => member.1 ∉ runOnlyFields

def missing (fieldName : String) : String := "failure " ++ fieldName ++ " is missing or invalid"

def requiredRecoveryText (row : Fields) (fieldName : String) : Except PyExc String :=
  match Fields.get row fieldName with
  | .str value => if value = "" ∨ strip value ≠ value then reject (missing fieldName) else .ok value
  | _ => reject (missing fieldName)

def requiredRecoveryIndex (row : Fields) (fieldName : String) : Except PyExc ℤ :=
  match Fields.get row fieldName with
  | .int value => if value < 0 then reject (missing fieldName) else .ok value
  | _ => reject (missing fieldName)

def continuationCommands : List Json := [.str "$rerun", .str "$resume_flow"]

def continuesFlow (actions : List Fields) : Bool :=
  match actions.getLast? with
  | some action => continuationCommands.any fun command =>
      Json.pyEq (Fields.get action "command") command
  | none => false

/-- Bind remembered actions to the Flow run the row was captured in. -/
def boundActions (row : Fields) (rememberedActions : List Fields) : Except PyExc (List Fields) :=
  if isMapping (Fields.get row "flow_snapshot") then do
    let flowId ← requiredRecoveryText row "flow_id"
    let actionIndex ← requiredRecoveryIndex row "action_index"
    let actionCommand ← requiredRecoveryText row "action_command"
    rebindRecoveryActions rememberedActions (Fields.get row "flow_snapshot") flowId actionIndex
      actionCommand
  else reject "failure has no complete Flow snapshot"

/-- The actions of a suggestion, from those of the memory and the failure row. -/
def suggestedActions (row : Fields) (dispatchedActions : List Json) :
    Except PyExc (List Fields) :=
  let rememberedActions := dispatchedActions.map suggestionAction
  if continuesFlow rememberedActions then boundActions row rememberedActions
  else .ok rememberedActions

structure FailureMatch where
  failureId : String
  memoryId : String
  suggestedFix : String
  confidence : BinaryFloat.Binary64
  reason : String
  actions : List Fields

def FailureMatch.suggestion (found : FailureMatch) : Fields :=
  [("memory_id", .str found.memoryId), ("summary", .str found.suggestedFix),
    ("reason", .str found.reason), ("confidence", .float found.confidence),
    ("actions", .arr (found.actions.map Json.obj))]

end Suggestion

section Program

variable (devMemoryStore : Bool) (failureId : String)

def storeFor (row : Fields) : Matching StoreName :=
  if !devMemoryStore then return .main
  else if rowSysid row = "" then return .dev
  else do
    let robot ← Prog.call (σ := matching) (.fetchRobot (rowSysid row))
    let isProduction := match robot with
      | some robot => !robot.isEmpty && isTrue (Fields.get robot "production")
      | none => false
    return if isProduction then .main else .dev

def finishFailure (status message : String) (suggestion : Option Fields) : Matching Unit :=
  Prog.call (σ := matching)
    (.finishFailure failureId status (boundedMatcherMessage message) suggestion)

def isHashable : Json → Bool
  | .arr _ => false
  | .obj _ => false
  | _ => true

/-- The ids of the rows that were found to be revoked; a set takes hashable ids only. -/
def revokedIds (rows : List Fields) : Except PyExc (List Json) :=
  let ids := (rows.map fun row => Fields.get row "resolution_id").filter truthy
  if ids.all isHashable then .ok ids else .error ⟨.type, "unhashable type"⟩

def isRevoked (revoked : List Json) (document : MemoryDocument) : Bool :=
  revoked.any fun id => Json.pyEq (.str document.resolutionId) id

def withoutRevoked (snapshot : Snapshot) : Matching Snapshot :=
  if snapshot.documents.isEmpty then return snapshot
  else do
    let rows ← Prog.call (σ := matching)
      (.fetchRevoked (snapshot.documents.map MemoryDocument.resolutionId))
    let revoked ← Prog.settle (σ := matching) (revokedIds rows)
    return snapshot.filter fun document => !isRevoked revoked document

/-- The last document with an id, as a dictionary by id keeps it. -/
def selectedDocument (documents : List MemoryDocument) (memoryId : Option String) :
    Option MemoryDocument :=
  documents.reverse.find? fun document => document.resolutionId = memoryId.getD ""

def suggestMemory (row : Fields) (choice : MemoryChoice) (selected : MemoryDocument) :
    Matching (Option FailureMatch) :=
  match suggestedActions row selected.dispatchedActions with
  | .error e =>
      if e.isContract then do
        finishFailure failureId "no_solution" ("No applicable solution: the remembered recovery " ++
          "cannot be safely bound to this Flow run (" ++ e.message ++ ").") none
        return none
      else .raise e
  | .ok actions => do
      let found : FailureMatch :=
        { failureId
          memoryId := selected.resolutionId
          suggestedFix := String.ofList (suggestedFixText pyStr selected)
          confidence := choice.confidence
          reason := choice.reason
          actions }
      finishFailure failureId "solution_found" ("Suggested fix: " ++ found.suggestedFix)
        (some found.suggestion)
      return some found

def concludeMatch (row : Fields) (retrieval : RetrievalOutcome) : Matching (Option FailureMatch) :=
  if retrieval.choice.decision = .noSolution then do
    finishFailure failureId "no_solution" ("No applicable solution: " ++ retrieval.choice.reason)
      none
    return none
  else match selectedDocument retrieval.documents retrieval.choice.memoryId with
    | none => .raise (agentError "Selected memory is not an execution candidate")
    | some selected =>
        if !isSafeExecutionCandidate selected then
          .raise (agentError "Selected memory is not an execution candidate")
        else if selected.dispatchedActions.isEmpty then
          .raise (agentError "Selected memory contains no dispatched actions")
        else suggestMemory failureId row retrieval.choice selected

def matchFailure (row : Fields) (store : StoreName) : Matching (Option FailureMatch) := do
  let index ← Prog.call (σ := matching) (.rebuildIndex store)
  let safeDocuments ← withoutRevoked (index.filter isSafeExecutionCandidate)
  if safeDocuments.documents.isEmpty then do
    finishFailure failureId "no_solution" "No applicable recovery memory is available." none
    return none
  else do
    let retrieval ← retrieveMemoryChoice safeDocuments (failureWithLocationContext row)
    concludeMatch failureId row retrieval

/-- A cancellation is passed on; an error is recorded in the row and raised again. -/
def matchHandler (e : PyExc) : Matching (Option FailureMatch) :=
  if e.cls = .cancelled then .raise e
  else do
    finishFailure failureId "failed" "The solution matcher could not complete safely." none
    .raise e

def isMatchable (row : Fields) : Bool :=
  normalizedText (Fields.get row "matcher_status") = "pending" &&
    normalizedText (Fields.get row "analysis_status") = "completed"

/-- The part after the claim; the store is chosen outside the handler. -/
def matchClaimed (row : Fields) : Matching (Option FailureMatch) := do
  let store ← storeFor devMemoryStore row
  (matchFailure failureId row store).tryCatch (matchHandler failureId)

def processFailure : Matching (Option FailureMatch) := do
  match ← Prog.call (σ := matching) (.fetchFailure failureId) with
  | none => return none
  | some row =>
      if !isMatchable row then return none
      else do
        let claimed : Bool ← Prog.call (σ := matching) (.claimFailure failureId)
        if claimed then matchClaimed devMemoryStore failureId row else return none

end Program

end FailureResolver.FailureMatcher
