import FailureResolver.ResolutionEpisode
import FailureResolver.TaskPool

/-!
Learning one resolution as a program over its awaits. The database, the model
and the memory stores answer the operations. The memory columns of the failure
rows and the repository are part of the shared state; what an operation does to
the repository is left open. Counters and log lines are left out.
-/

namespace FailureResolver.LearnResolution

open JsonValue Program PyException PyText ResolutionEpisode ResolutionMemory RowText TaskPool

section State

/-- The columns of a failure row that record what became of its memory. -/
structure MemoryColumns where
  status : Option String
  resolutionId : Option String
  commitSha : Option String
  deriving DecidableEq

/-- The shared state; `Repository` is the state of the memory branches. -/
structure World (Repository : Type) where
  clientSet : Bool
  knownCommitShas : String → Option String
  failures : String → Option MemoryColumns
  repository : Repository

inductive StoreName
  | main
  | dev
  deriving DecidableEq

/-- A model-authored generalization with the actions it was shown. -/
structure GeneralizationResult where
  failurePattern : String
  resolutionSummary : String
  tags : List String
  signature : Fields
  demonstratedActions : List Json
  model : String
  responseId : String

structure MemoryWriteResult where
  resolutionId : String
  changed : Bool
  commitSha : Option String

inductive Op
  | fetchResolution (resolutionId : String)
  | fetchFailure (failureId : String)
  | fetchRobot (sysid : String)
  | claimMemory (failureId status resolutionId : String)
  | hasSourceHash (store : StoreName) (resolutionId sourceHash : String)
  | latestMemoryCommit (store : StoreName) (resolutionId : String)
  | generalizeResolution (row : Fields)
  | writeMemory (store : StoreName) (draft : DraftFields)
  | markMemoryIngested (failureId resolutionId : String) (commitSha : Option String)
  | refreshMemoryIngested (failureId resolutionId commitSha : String)
      (expectedCommitSha : Option String)
  | markMemoryFailed (failureId resolutionId : String)

@[reducible] def Op.Reply : Op → Type
  | .fetchResolution _ => Option Fields
  | .fetchFailure _ => Option Fields
  | .fetchRobot _ => Option Fields
  | .claimMemory .. => Bool
  | .hasSourceHash .. => Bool
  | .latestMemoryCommit .. => Option String
  | .generalizeResolution _ => GeneralizationResult
  | .writeMemory .. => MemoryWriteResult
  | .refreshMemoryIngested .. => Bool
  | _ => Unit

variable (Repository : Type)

abbrev learning : Interface := ⟨World Repository, Op, Op.Reply, PyExc⟩

abbrev Learning := Prog (learning Repository)

end State

section Columns

variable {Repository : Type}

structure ColumnUpdate where
  failureId : String
  filter : MemoryColumns → Bool
  columns : MemoryColumns

def ColumnUpdate.selects (update : ColumnUpdate) (w : World Repository) : Bool :=
  (w.failures update.failureId).any update.filter

def ColumnUpdate.run (update : ColumnUpdate) (w : World Repository) : World Repository :=
  if update.selects w then
    { w with failures := Function.update w.failures update.failureId (some update.columns) }
  else w

/-- `.eq("memory_status", status).eq("memory_resolution_id", resolution_id)`. -/
def ownedBy (status resolutionId : String) (columns : MemoryColumns) : Bool :=
  columns.status = some status && columns.resolutionId = some resolutionId

def Op.update : Op → Option ColumnUpdate
  | .claimMemory failureId status resolutionId =>
      some ⟨failureId, ownedBy status resolutionId, ⟨some "ingesting", some resolutionId, none⟩⟩
  | .markMemoryIngested failureId resolutionId commitSha =>
      some ⟨failureId, ownedBy "ingesting" resolutionId,
        ⟨some "ingested", some resolutionId, commitSha⟩⟩
  | .refreshMemoryIngested failureId resolutionId commitSha expectedCommitSha =>
      some ⟨failureId, fun columns => ownedBy "ingested" resolutionId columns &&
          columns.commitSha = expectedCommitSha,
        ⟨some "ingested", some resolutionId, some commitSha⟩⟩
  | .markMemoryFailed failureId resolutionId =>
      some ⟨failureId, ownedBy "ingesting" resolutionId, ⟨some "failed", some resolutionId, none⟩⟩
  | _ => none

/-- What the columns are once the operation has taken effect. -/
def Op.effect (op : Op) (w : World Repository) : World Repository :=
  match op.update with
  | some update => update.run w
  | none => w

/-- The answers that say whether a row was updated say the truth. -/
def Truthful (w : World Repository) : (op : Op) → Except PyExc op.Reply → Prop
  | .claimMemory failureId status resolutionId, .ok updated =>
      updated = (w.failures failureId).any (ownedBy status resolutionId)
  | .fetchResolution resolutionId, .ok (some row) =>
      Fields.get row "resolution_id" = .str resolutionId
  | _, _ => True

/-- The database runs an update or, where it reports an error, may have run it;
nothing else changes the columns, the client or the known commits. -/
structure DatabaseStep (w : World Repository) (op : Op) (r : Except PyExc op.Reply)
    (w' : World Repository) : Prop where
  columns : w'.failures = (op.effect w).failures ∨
    (∃ e, r = .error e) ∧ w'.failures = w.failures
  client : w'.clientSet = w.clientSet
  known : w'.knownCommitShas = w.knownCommitShas
  truthful : Truthful w op r

end Columns

section Program

variable {Repository : Type}

def clientUnavailable : PyExc := ⟨.connection, "Supabase client is unavailable"⟩

def agentError (message : String) : PyExc := ⟨.agentReasoning, message⟩

def requiredClient : Learning Repository Unit :=
  .get (fun w => if w.clientSet then .ret () else .raise clientUnavailable)

def query (op : Op) : Learning Repository op.Reply := do
  requiredClient
  Prog.call (σ := learning Repository) op

def rowSysid (row : Fields) : String :=
  if (Fields.get row "sysid").isNull then "" else strip (pyStr (Fields.get row "sysid"))

/-- Production robots use the main memory branch, everything else the dev branch. -/
def storeFor (devMemoryStore : Bool) (row : Fields) : Learning Repository StoreName :=
  if !devMemoryStore then return .main
  else if rowSysid row = "" then return .dev
  else do
    let robot ← query (.fetchRobot (rowSysid row))
    let isProduction := match robot with
      | some robot => !robot.isEmpty && isTrue (Fields.get robot "production")
      | none => false
    return if isProduction then .main else .dev

inductive Acknowledgement
  | claimed
  | ownedElsewhere
  | untracked
  deriving DecidableEq

def claimableStatuses : List String := ["pending", "failed"]

/-- The row a claim is decided on: the one already read, or a fresh one. -/
def currentFailureRow (failureId : String) (currentFailure : Option Fields) :
    Learning Repository (Option Fields) :=
  match currentFailure with
  | some row => return some row
  | none => query (.fetchFailure failureId)

def claimMemoryIngestion (failureId : Option String) (resolutionId : String)
    (currentFailure : Option Fields) : Learning Repository Acknowledgement :=
  match failureId with
  | none => return .untracked
  | some failureId => do
      match ← currentFailureRow failureId currentFailure with
      | none => return .untracked
      | some current =>
          let currentResolution := safeIdentifier (Fields.get current "memory_resolution_id")
          let currentStatus := normalizedText (Fields.get current "memory_status")
          if currentResolution = some resolutionId ∧ currentStatus ∈ claimableStatuses then do
            let updated : Bool ← query (.claimMemory failureId currentStatus resolutionId)
            return if updated then .claimed else .ownedElsewhere
          else if currentResolution = some resolutionId ∧ currentStatus = "ingesting" then
            return .ownedElsewhere
          else return .untracked

def markMemoryIngested (failureId : Option String) (resolutionId : String)
    (commitSha : Option String) : Learning Repository Unit :=
  match failureId with
  | none => return ()
  | some failureId => query (.markMemoryIngested failureId resolutionId commitSha)

def markMemoryFailed (failureId : Option String) (resolutionId : String) :
    Learning Repository Unit :=
  match failureId with
  | none => return ()
  | some failureId => query (.markMemoryFailed failureId resolutionId)

def refreshMemoryIngested (failureId : Option String) (resolutionId commitSha : String)
    (expectedCommitSha : Option String) : Learning Repository Unit :=
  match failureId with
  | none => return ()
  | some failureId => do
      let _ ← query (.refreshMemoryIngested failureId resolutionId commitSha expectedCommitSha)
      return ()

def isIngestedMemoryAck (failure : Option Fields) (resolutionId : String) : Bool :=
  match failure with
  | none => false
  | some failure =>
      normalizedText (Fields.get failure "memory_status") = "ingested" &&
        safeIdentifier (Fields.get failure "memory_resolution_id") = some resolutionId

def memoryAckCommit (failure : Option Fields) : Option String :=
  failure.bind fun failure => safeIdentifier (Fields.get failure "memory_commit_sha")

def memoryAckNeedsCommitRefresh (failure : Option Fields) (resolutionId commitSha : String) :
    Bool :=
  isIngestedMemoryAck failure resolutionId && memoryAckCommit failure ≠ some commitSha

def memoryDraft (source : ResolutionSource) (generalized : GeneralizationResult) :
    Except PyExc DraftFields :=
  postInit
    { source := source
      memoryKind := .positive
      actionable := true
      failureSummary := generalized.failurePattern
      recoverySummary := generalized.resolutionSummary
      lessons := generalized.tags.map (fun tag => "Retrieval tag: " ++ tag)
      signature := some generalized.signature
      model := generalized.model
      responseId := some generalized.responseId }

structure Ingestion where
  resolutionId : String
  row : Fields
  failureId : Option String
  linkedFailure : Option Fields
  acknowledgement : Acknowledgement

variable (c : Ingestion)

/-- The commit of a memory that is already there: the one this process made, or
the latest one of the branch. -/
def existingCommit (store : StoreName) (resolutionId : String) :
    Learning Repository (Option String) :=
  .get (fun w => match w.knownCommitShas resolutionId with
    | some sha =>
        if sha = "" then
          Prog.call (σ := learning Repository) (.latestMemoryCommit store resolutionId)
        else .ret (some sha)
    | none => Prog.call (σ := learning Repository) (.latestMemoryCommit store resolutionId))

def acknowledgeExisting (store : StoreName) (source : ResolutionSource) :
    Learning Repository (Option MemoryWriteResult) := do
  match ← existingCommit store source.resolutionId with
  | none => .raise (agentError "Existing memory has no Git commit provenance")
  | some commitSha =>
      if c.acknowledgement = .claimed then do
        markMemoryIngested c.failureId source.resolutionId (some commitSha)
        return none
      else if memoryAckNeedsCommitRefresh c.linkedFailure source.resolutionId commitSha then do
        refreshMemoryIngested c.failureId source.resolutionId commitSha
          (memoryAckCommit c.linkedFailure)
        return none
      else return none

/-- `self._known_commit_shas[resolution_id] = commit_sha`. -/
def World.learnCommit (resolutionId : String) (result : MemoryWriteResult)
    (w : World Repository) : World Repository :=
  match result.commitSha with
  | some sha =>
      if result.changed && sha ≠ "" then
        { w with knownCommitShas := Function.update w.knownCommitShas resolutionId (some sha) }
      else w
  | none => w

def acknowledgeWritten (source : ResolutionSource) (result : MemoryWriteResult) :
    Learning Repository (Option MemoryWriteResult) :=
  if c.acknowledgement = .claimed then do
    markMemoryIngested c.failureId source.resolutionId result.commitSha
    return some result
  else match result.commitSha with
    | some commitSha =>
        if result.changed && isIngestedMemoryAck c.linkedFailure source.resolutionId then do
          refreshMemoryIngested c.failureId source.resolutionId commitSha
            (memoryAckCommit c.linkedFailure)
          return some result
        else return some result
    | none => return some result

def generalizeAndWrite (store : StoreName) (source : ResolutionSource) (memoryRow : Fields) :
    Learning Repository (Option MemoryWriteResult) := do
  let generalized ← Prog.call (σ := learning Repository) (.generalizeResolution memoryRow)
  if Json.pyEqItems source.dispatchedActions generalized.demonstratedActions = false then
    .raise (agentError "Generalized action evidence differs from the source")
  else do
    let draft ← Prog.settle (σ := learning Repository) (memoryDraft source generalized)
    let result ← Prog.call (σ := learning Repository) (.writeMemory store draft)
    Prog.update (σ := learning Repository) (World.learnCommit source.resolutionId result)
    acknowledgeWritten c source result

variable (devMemoryStore : Bool)

def ingest : Learning Repository (Option MemoryWriteResult) := do
  let memoryRow ← Prog.settle (σ := learning Repository) (memoryRow c.row c.linkedFailure)
  let store ← storeFor devMemoryStore memoryRow
  let source ← Prog.settle (σ := learning Repository) (resolutionSourceFromRow memoryRow)
  let present : Bool ← Prog.call (σ := learning Repository)
    (.hasSourceHash store source.resolutionId source.sourceHash)
  if present then acknowledgeExisting c store source
  else generalizeAndWrite c store source memoryRow

/-- A cancellation leaves the row as it is; an error is recorded and raised again. -/
def ingestHandler (e : PyExc) : Learning Repository (Option MemoryWriteResult) :=
  if e.cls = .cancelled then .raise e
  else if c.acknowledgement = .claimed then do
    Prog.tryCatch (markMemoryFailed c.failureId c.resolutionId)
      (fun e' => if e'.isException then return () else .raise e')
    .raise e
  else .raise e

def linkedFailureRow (failureId : Option String) : Learning Repository (Option Fields) :=
  match failureId with
  | some failureId => query (.fetchFailure failureId)
  | none => return none

/-- The part under the handler of errors; a row another call owns is left to it. -/
def ingestClaimed : Learning Repository (Option MemoryWriteResult) :=
  if c.acknowledgement = .ownedElsewhere then return none
  else (ingest c devMemoryStore).tryCatch (ingestHandler c)

def learnRow (resolutionId : String) (row : Fields) :
    Learning Repository (Option MemoryWriteResult) :=
  if isPositiveDemonstration row = false then return none
  else do
    let failureId := safeIdentifier (Fields.get row "failure_id")
    let linkedFailure ← linkedFailureRow failureId
    let acknowledgement ← claimMemoryIngestion failureId resolutionId linkedFailure
    ingestClaimed ⟨resolutionId, row, failureId, linkedFailure, acknowledgement⟩ devMemoryStore

def learnResolution (resolutionId : String) :
    Learning Repository (Option MemoryWriteResult) := do
  match ← query (.fetchResolution resolutionId) with
  | none => return none
  | some row => learnRow devMemoryStore resolutionId row

end Program

section Client

variable {Repository G : Type} {D : Discipline (learning Repository) G} {g : G}
variable {w : World Repository} {op : Op} {Q : Except PyExc op.Reply → G → World Repository → Prop}

/-- A call through the client keeps to a discipline if it may ask with a client and may
fail without one. -/
theorem obeys_client_query (hrequest : w.clientSet = true → D.request g w op)
    (hgoes : ∀ r g' w', D.answer g op r g' → D.rely g' w' → Q r g' w')
    (hdown : w.clientSet ≠ true → Q (.error clientUnavailable) g w) :
    Obeys D Q (query op) g w := by
  unfold query
  rw [Prog.bind_eq, obeys_bind]
  unfold requiredClient
  show Obeys _ _ (if w.clientSet then _ else _) _ _
  by_cases hclient : w.clientSet = true
  · rw [if_pos hclient]
    exact obeys_call.mpr ⟨hrequest hclient, hgoes⟩
  · rw [if_neg hclient]
    exact hdown hclient

end Client

end FailureResolver.LearnResolution
