import FailureResolver.CommandSchema
import FailureResolver.FlowOutcome
import FailureResolver.PlanValidation
import FailureResolver.Program

/-!
The recovery coordinator as a program over its awaits. The database RPCs, the
robot session and the event loop answer the operations; between two awaits the
coordinator runs alone. Every other task, the robot connection and the service
lifecycle may change the shared state at an await. Counters and log lines are
left out, the identifier of a new session is an argument.
-/

namespace FailureResolver.RecoveryCoordinator

open Program JsonValue PyException PyText LiveFlow RecoveryContract ActionPlan PlanValidation
open CommandSchema FlowOutcome
open BinaryFloat (nearest)

section State

structure RobotView where
  connected : Bool
  generation : ℕ
  latestFlow : Option FlowPointer
  latestCommandsFrame : Option CommandsFrame

structure ActiveRecovery where
  recoverySessionId : String
  currentFailureId : String

/-- The state the coordinator shares with other tasks. Active recoveries are
objects with an identity: their place in the list of all that were started. -/
structure World where
  databaseSet : Bool
  stopping : Bool
  robots : String → RobotView
  robotLocks : String → Bool
  recoveries : List ActiveRecovery
  activeByPointer : PointerKey → Option ℕ

structure Settings where
  enabled : Bool
  robotAllowlist : List String
  maxAttempts : ℤ
  commandTimeoutSeconds : ℚ
  outcomeTimeoutSeconds : ℚ
  leaseSeconds : ℤ
  startGraceSeconds : ℚ
  maxAttempts_range : 1 ≤ maxAttempts ∧ maxAttempts ≤ 20
  commandTimeout_pos : 0 < commandTimeoutSeconds
  outcomeTimeout_pos : 0 < outcomeTimeoutSeconds
  lease_range : 5 ≤ leaseSeconds ∧ leaseSeconds ≤ 900
  startGrace_nonneg : 0 ≤ startGraceSeconds

structure Coordinator where
  settings : Settings
  sessions : List String

inductive FinishResult
  | awaitingOutcome
  | recovered
  | failed
  | unknown
  deriving DecidableEq

/-- The awaited calls. `startTask` is the scheduling of a task of its own, which
may be cancelled before it starts. -/
inductive Op
  | fetchFailure (failureId : String)
  | prepare (failureId recoverySessionId : String) (maxAttempts rewindSteps : ℤ)
  | attach (failureId recoverySessionId : String)
  | project (recoverySessionId : String)
  | claim (failureId recoverySessionId : String) (leaseSeconds : ℤ)
  | finish (failureId recoverySessionId runToken : String) (result : FinishResult)
      (message : String)
  | markNonExecutable (failureId message : String)
  | acquireRobotLock (sysid : String)
  | waitConnected (sysid : String) (timeoutSeconds : ℚ)
  | waitForCommands (sysid : String) (generation : ℕ) (timeoutSeconds : ℚ)
  | requestCommand (sysid command : String) (arguments : Fields) (timeoutSeconds : ℚ)
  | waitForFlow (sysid : String) (watch : FlowWatch) (afterRevision : ℕ)
      (timeoutSeconds : ℚ) (generation : ℕ)
  | graceWait (seconds : ℚ)
  | startTask

@[reducible] def Op.Reply : Op → Type
  | .fetchFailure _ => Option Fields
  | .prepare .. => Fields
  | .project _ => Fields
  | .claim .. => Fields
  | .finish .. => Fields
  | .waitForCommands .. => CommandsFrame
  | .requestCommand .. => CommandReceipt
  | .waitForFlow .. => Option FlowPointer
  | .startTask => Bool
  | _ => Unit

abbrev recovery : Interface := ⟨World, Op, Op.Reply, PyExc⟩

abbrev Recovery := Prog recovery

abbrev RecoveryEvent := Event recovery

end State

section Checks

def databaseUnavailable : PyExc :=
  ⟨.recoveryDatabaseUnavailable, "Supabase recovery control plane is unavailable"⟩

def requiredDatabase : Recovery Unit :=
  .get (fun w => if w.databaseSet then .ret () else .raise databaseUnavailable)

/-- The robot still stands where the pointer says, on the same connection. -/
def samePointer (robot : RobotView) (pointer latest : FlowPointer) : Bool :=
  robot.connected && robot.generation = pointer.generation &&
    latest.generation = pointer.generation && latest.revision = pointer.revision &&
    latest.flowId = pointer.flowId && latest.status = pointer.status &&
    latest.actionIndex = pointer.actionIndex && latest.actionCommand = pointer.actionCommand

def requireLiveExecutionState (robot : RobotView) (pointer : FlowPointer)
    (plan : RecoveryPlan) : Except PyExc CommandsFrame :=
  match robot.latestFlow with
  | none => .error (liveStateChanged "live paused Flow pointer changed before dispatch")
  | some latest =>
      if !samePointer robot pointer latest then
        .error (liveStateChanged "live paused Flow pointer changed before dispatch")
      else match robot.latestCommandsFrame with
        | none => .error (liveStateChanged "fresh live commands action spec is unavailable")
        | some frame =>
            if frame.generation ≠ pointer.generation then
              .error (liveStateChanged "fresh live commands action spec is unavailable")
            else do
              nonExecutable (do
                validatePlanForFlow plan latest
                validateCorrectionsAgainstCommands plan.corrections frame pointer.generation)
              return frame

/-- What the live check has found when it lets the plan pass. -/
theorem requireLiveExecutionState_eq_ok {robot : RobotView} {pointer : FlowPointer}
    {plan : RecoveryPlan} {frame : CommandsFrame}
    (h : requireLiveExecutionState robot pointer plan = .ok frame) :
    ∃ latest, robot.latestFlow = some latest ∧ samePointer robot pointer latest = true ∧
      robot.latestCommandsFrame = some frame ∧ frame.generation = pointer.generation ∧
      validatePlanForFlow plan latest = .ok () ∧
      validateCorrectionsAgainstCommands plan.corrections frame pointer.generation = .ok () := by
  unfold requireLiveExecutionState at h
  cases hlatest : robot.latestFlow with
  | none => simp [hlatest] at h
  | some latest =>
    simp only [hlatest] at h
    by_cases hsame : samePointer robot pointer latest = true
    · simp only [hsame, Bool.not_true, Bool.false_eq_true, if_false] at h
      cases hframe : robot.latestCommandsFrame with
      | none => simp [hframe] at h
      | some live =>
        simp only [hframe] at h
        by_cases hgeneration : live.generation = pointer.generation
        · simp only [hgeneration, ne_eq, not_true_eq_false, if_false, bind_unit_eq_ok,
            nonExecutable_eq_ok] at h
          obtain ⟨⟨hflow, hcorrections⟩, hreturn⟩ := h
          cases hreturn
          exact ⟨latest, rfl, hsame, rfl, hgeneration, hflow, hcorrections⟩
        · simp [hgeneration] at h
    · simp [hsame] at h

/-- The live check at this moment; there is no await between it and what follows. -/
def requireLive (sysid : String) (pointer : FlowPointer) (plan : RecoveryPlan) :
    Recovery Unit :=
  .get (fun w => match requireLiveExecutionState (w.robots sysid) pointer plan with
    | .ok _ => .ret ()
    | .error e => .raise e)

end Checks

section Attempt

structure Attempt where
  sysid : String
  failureId : String
  claimed : RecoverySessionRecord
  plan : RecoveryPlan
  pointer : FlowPointer

inductive AttemptResult
  | unknown
  | recovered
  | failed (finished : RecoverySessionRecord)

variable (c : Coordinator) (a : Attempt) (runToken : String)

def finishUnknown (claimed : RecoverySessionRecord) (failureId message : String) :
    Recovery Unit :=
  match claimed.recoveryRunToken with
  | none => return ()
  | some runToken => do
      requiredDatabase
      let _ ← Prog.call (σ := recovery)
        (.finish failureId claimed.recoverySessionId runToken .unknown message)
      return ()

def sendCorrection (action : RecoveryAction) : Recovery Unit := do
  requireLive a.sysid a.pointer a.plan
  let receipt ← Prog.call (σ := recovery)
    (.requestCommand a.sysid action.command action.arguments c.settings.commandTimeoutSeconds)
  if receipt.generation ≠ a.pointer.generation then
    .raise (contractError "correction acknowledgement came from another robot connection")
  else return ()

def sendResume : Recovery CommandReceipt := do
  requireLive a.sysid a.pointer a.plan
  let arguments ← Prog.settle (σ := recovery) (resumeArgumentsForPlan a.plan a.pointer)
  let receipt ← Prog.call (σ := recovery)
    (.requestCommand a.sysid "$resume_flow" arguments c.settings.commandTimeoutSeconds)
  if receipt.generation ≠ a.pointer.generation then
    .raise (contractError "continuation acknowledgement came from another robot connection")
  else do
    Prog.settle (σ := recovery) (validateResumeAcknowledgement receipt.result a.pointer
      a.plan.rewindSteps (some a.plan.resumeMode))
    return receipt

def acceptedMessage (claimed : RecoverySessionRecord) : String :=
  s!"Automatic recovery attempt {claimed.recoveryAttempts} of " ++
    s!"{claimed.recoveryMaxAttempts} was accepted; waiting for the Flow to pass the failed step."

/-- Record a verdict and parse the row the database answers with. -/
def finishVerdict (result : FinishResult) (message : String) : Recovery RecoverySessionRecord := do
  let row ← Prog.call (σ := recovery)
    (.finish a.failureId a.claimed.recoverySessionId runToken result message)
  Prog.settle (σ := recovery) (parseRecoverySession row false)

def concludeAttempt (outcome : Option FlowPointer) : Recovery AttemptResult :=
  match classifyFlowOutcome outcome a.claimed with
  | .recovered => do
      let _ ← finishVerdict a runToken .recovered
        "Automatic recovery succeeded: the Flow advanced past the failed step."
      return .recovered
  | .failed => do
      let finished ← finishVerdict a runToken .failed
        "The same Flow step paused again after automatic recovery."
      return .failed finished
  | .unknown => do
      finishUnknown a.claimed a.failureId
        "The Flow changed in a way that could not be safely classified as recovery or the same failure."
      return .unknown

def attemptBody : Recovery AttemptResult := do
  Prog.forEach (sendCorrection c a) a.plan.corrections
  let receipt ← sendResume c a
  let _ ← Prog.call (σ := recovery) (.finish a.failureId a.claimed.recoverySessionId runToken
    .awaitingOutcome (acceptedMessage a.claimed))
  let outcome ← Prog.call (σ := recovery)
    (.waitForFlow a.sysid (.outcome a.claimed a.pointer.generation)
      receipt.flowRevisionAtCorrelatedAck c.settings.outcomeTimeoutSeconds a.pointer.generation)
  concludeAttempt a runToken outcome

/-- The finish of an interrupted attempt runs as a task of its own. The wait for
it ends early when it times out or is cancelled again. -/
def finishInterrupted : Recovery Unit :=
  Prog.tryCatch (do
      let started : Bool ← Prog.call (σ := recovery) .startTask
      if started then
        finishUnknown a.claimed a.failureId
          "Automatic recovery was interrupted after dispatch; the robot outcome is unknown."
      else return ())
    (fun e => if e.cls = .cancelled ∨ e.cls = .timeout then return () else .raise e)

/-- The handlers of an attempt. The first await of the body is a command, so a
cancellation always finds one dispatched. -/
def attemptHandler (e : PyExc) : Recovery AttemptResult :=
  if e.cls = .cancelled then do
    finishInterrupted a
    .raise e
  else if e.isLostConfirmation then do
    finishUnknown a.claimed a.failureId
      "Automatic recovery lost command or Flow confirmation; the robot outcome is unknown."
    return .unknown
  else if e.cls = .robotCommandRejected then do
    finishUnknown a.claimed a.failureId
      "The robot explicitly rejected an automatic recovery command; automatic retry was disabled."
    return .unknown
  else if e.isContract then do
    finishUnknown a.claimed a.failureId
      "Automatic recovery received malformed pinned or robot data; the attempt was stopped as unknown."
    return .unknown
  else .raise e

def executeAttempt : Recovery AttemptResult :=
  match a.claimed.recoveryRunToken with
  | none => .raise (contractError "Claimed attempt has no run token")
  | some runToken => (attemptBody c a runToken).tryCatch (attemptHandler a)

end Attempt

section Target

variable (c : Coordinator)

def freshPausedPointer (target : FailureRecoveryTarget) : Recovery FlowPointer := do
  Prog.call (σ := recovery) (.waitConnected target.sysid c.settings.commandTimeoutSeconds)
  let w ← Prog.observe (σ := recovery)
  let generation := (w.robots target.sysid).generation
  let current := (w.robots target.sysid).latestFlow.filter
    (fun latest => decide (latest.generation = generation))
  match current with
  | some latest =>
      if pointerMatchesTarget (some latest) target then return latest
      else awaitPaused generation latest.revision
  | none => awaitPaused generation 0
where
  awaitPaused (generation afterRevision : ℕ) : Recovery FlowPointer := do
    let frame ← Prog.call (σ := recovery) (.waitForFlow target.sysid (.pausedStep target)
      afterRevision c.settings.outcomeTimeoutSeconds generation)
    match frame with
    | some pointer =>
        if pointer.generation = generation ∧ pointerMatchesTarget (some pointer) target then
          return pointer
        else .raise (contractError "No fresh exact paused Flow pointer is available")
    | none => .raise (contractError "No fresh exact paused Flow pointer is available")

def rowPlan (target : FailureRecoveryTarget) (pointer : FlowPointer) :
    Except PyExc RecoveryPlan :=
  nonExecutable (do
    let plan ← parseRecoveryPlan (Fields.get target.resolverSuggestion "actions")
    validatePlanForTarget plan target
    validatePlanForFlow plan pointer
    return plan)

/-- The session row: prepared from the failure row, or projected. -/
def preparedSession (target : FailureRecoveryTarget) (pointer : FlowPointer)
    (newSessionId : String) : Recovery (String × RecoverySessionRecord) :=
  match target.recoverySessionId with
  | none => do
      let plan ← Prog.settle (σ := recovery) (rowPlan target pointer)
      requireLive target.sysid pointer plan
      let row ← Prog.call (σ := recovery)
        (.prepare target.failureId newSessionId c.settings.maxAttempts plan.rewindSteps)
      let prepared ← Prog.settle (σ := recovery) (parseRecoverySession row false)
      return (prepared.recoverySessionId, prepared)
  | some recoverySessionId => do
      let row ← Prog.call (σ := recovery) (.project recoverySessionId)
      let prepared ← Prog.settle (σ := recovery) (parseRecoverySession row false)
      return (recoverySessionId, prepared)

/-- The pinned plan of a prepared session, checked before the first claim. -/
def preparedPlan (target : FailureRecoveryTarget) (pointer : FlowPointer)
    (prepared : RecoverySessionRecord) : Except PyExc RecoveryPlan := do
  rejectIf (prepared.pointerKey ≠ target.pointerKey)
    "Prepared recovery session does not match the failure pointer"
  let plan ← nonExecutable (do
    let plan ← parseRecoveryPlan (asPlanValue prepared.pinnedActions)
    validatePlanForSession plan prepared
    validatePlanForFlow plan pointer
    rejectIf (plan.rewindSteps ≠ prepared.recoveryRewindSteps)
      "Pinned recovery continuation does not match its authoritative rewind setting"
    return plan)
  let _ ← nonExecutable (resumeArgumentsForPlan plan pointer)
  return plan

/-- The longest a plan of so many commands can be observed, with a safety margin: a sum of
floats, rounded up. -/
def requiredLeaseSeconds (commands : ℕ) (commandTimeout outcomeTimeout : ℚ) : Except PyExc ℤ :=
  let seconds := do
    let dispatch ← nearest (commands * commandTimeout)
    let observation ← nearest (dispatch + outcomeTimeout)
    nearest (observation + 5)
  match seconds with
  | some seconds => .ok ⌈seconds⌉
  | none => .error ⟨.overflow, "cannot convert float infinity to integer"⟩

/-- Hold a ready session long enough for an operator to cancel it; the result
says whether to go on. -/
def graceWindow (recoverySessionId : String) : Recovery Bool :=
  if c.settings.startGraceSeconds ≤ 0 then return true
  else do
    Prog.tryCatch (Prog.call (σ := recovery) (.graceWait c.settings.startGraceSeconds))
      (fun e => if e.cls = .timeout then return () else .raise e)
    let w ← Prog.observe (σ := recovery)
    if w.stopping then return false
    else do
      let row ← Prog.call (σ := recovery) (.project recoverySessionId)
      let graced ← Prog.settle (σ := recovery) (parseRecoverySession row false)
      return decide (graced.recoveryStatus ∈ ["ready", "failed"])

/-- A claimed row that does not parse. With its token envelope intact the
attempt is closed, otherwise the error goes on. -/
def closeMalformedClaim (recoverySessionId failureId : String) (row : Fields) (e : PyExc) :
    Recovery Unit :=
  match uuidText (Fields.get row "recovery_session_id"),
      uuidText (Fields.get row "recovery_run_token") with
  | some sessionId, some runToken =>
      if sessionId = recoverySessionId then do
        let _ ← Prog.call (σ := recovery) (.finish failureId recoverySessionId runToken .unknown
          "Automatic recovery claim data was malformed; the attempt was stopped as unknown.")
        return ()
      else .raise e
  | _, _ => .raise e

/-- The retry after a confirmed failure starts from the same paused step. -/
def retryPointer (sysid : String) (claimed finished : RecoverySessionRecord) :
    Recovery (Option FlowPointer) :=
  if finished.recoveryStatus = "failed" then do
    let w ← Prog.observe (σ := recovery)
    return (w.robots sysid).latestFlow.filter (fun latest => pointerMatchesSession latest claimed)
  else return none

def liveForAttempt (robot : RobotView) (pointer : FlowPointer) (plan : RecoveryPlan) :
    Except PyExc Unit := do
  validatePlanForFlow plan pointer
  let _ ← requireLiveExecutionState robot pointer plan
  return ()

/-- One claimed attempt; the result is the pointer of the next one. -/
def claimedAttempt (sysid failureId : String) (pointer : FlowPointer)
    (claimed : RecoverySessionRecord) : Recovery (Option FlowPointer) := do
  let plan ← Prog.settle (σ := recovery) (parseRecoveryPlan (asPlanValue claimed.pinnedActions))
  if plan.rewindSteps ≠ claimed.recoveryRewindSteps then do
    finishUnknown claimed failureId
      "Pinned recovery continuation does not match its authoritative rewind setting."
    return none
  else do
    Prog.settle (σ := recovery) (validatePlanForSession plan claimed)
    let w ← Prog.observe (σ := recovery)
    match liveForAttempt (w.robots sysid) pointer plan with
    | .error e =>
        if e.isContract then do
          finishUnknown claimed failureId
            "Automatic recovery stopped before dispatch because the live paused Flow pointer changed."
          return none
        else .raise e
    | .ok () => do
        match ← executeAttempt c ⟨sysid, failureId, claimed, plan, pointer⟩ with
        | .unknown => return none
        | .recovered => return none
        | .failed finished => retryPointer sysid claimed finished

def afterClaim (sysid recoverySessionId failureId : String) (pointer : FlowPointer)
    (row : Fields) : Recovery (Option FlowPointer) :=
  match parseRecoverySession row true with
  | .ok claimed => claimedAttempt c sysid failureId pointer claimed
  | .error e =>
      if e.isContract then do
        closeMalformedClaim recoverySessionId failureId row e
        return none
      else .raise e

def currentFailureId (w : World) (ref : ℕ) : String :=
  match w.recoveries[ref]? with
  | some active => active.currentFailureId
  | none => ""

def attemptLoop (sysid recoverySessionId : String) (plan : RecoveryPlan) (ref : ℕ) :
    ℕ → FlowPointer → Recovery Unit
  | 0, _ => .halt
  | fuel + 1, pointer => do
      let w ← Prog.observe (σ := recovery)
      if w.stopping then return ()
      else do
        let failureId := currentFailureId w ref
        requireLive sysid pointer plan
        let row ← Prog.call (σ := recovery)
          (.claim failureId recoverySessionId c.settings.leaseSeconds)
        let next ← afterClaim c sysid recoverySessionId failureId pointer row
        match next with
        | none => return ()
        | some pointer => attemptLoop sysid recoverySessionId plan ref fuel pointer

def World.activate (w : World) (key : PointerKey) (active : ActiveRecovery) : World :=
  { w with
    recoveries := w.recoveries ++ [active]
    activeByPointer := Function.update w.activeByPointer key (some w.recoveries.length) }

/-- Remove the entry of a step if it still is this recovery. -/
def World.release (key : PointerKey) (ref : ℕ) (w : World) : World :=
  if w.activeByPointer key = some ref then
    { w with activeByPointer := Function.update w.activeByPointer key none }
  else w

def runSession (fuel : ℕ) (target : FailureRecoveryTarget) (pointer : FlowPointer)
    (recoverySessionId : String) (plan : RecoveryPlan) : Recovery Unit :=
  .get (fun w =>
    .set (w.activate target.pointerKey ⟨recoverySessionId, target.failureId⟩)
      ((attemptLoop c target.sysid recoverySessionId plan w.recoveries.length fuel
          pointer).tryFinally
        (World.release target.pointerKey w.recoveries.length)))

/-- `fuel` bounds the attempts of this call. -/
def executeTarget (fuel : ℕ) (target : FailureRecoveryTarget) (newSessionId : String) :
    Recovery Unit := do
  requiredDatabase
  if target.sysid ∉ c.sessions then
    .raise (contractError
      s!"No robot session exists for allowlisted sysid {target.sysid}")
  else do
    let pointer ← freshPausedPointer c target
    let _ ← Prog.call (σ := recovery)
      (.waitForCommands target.sysid pointer.generation c.settings.commandTimeoutSeconds)
    let (recoverySessionId, prepared) ← preparedSession c target pointer newSessionId
    if prepared.recoveryStatus ∉ ["ready", "failed"] then return ()
    else do
      let plan ← Prog.settle (σ := recovery) (preparedPlan target pointer prepared)
      requireLive target.sysid pointer plan
      let required ← Prog.settle (σ := recovery) (requiredLeaseSeconds
        (plan.corrections.length + 1) c.settings.commandTimeoutSeconds
        c.settings.outcomeTimeoutSeconds)
      if c.settings.leaseSeconds < required then
        .raise (contractError "RECOVERY_LEASE_SECONDS is shorter than this pinned plan's worst-case command and Flow observation window")
      else do
        if ← graceWindow c recoverySessionId then
          runSession c fuel target pointer recoverySessionId plan
        else return ()

end Target

section Failures

variable (c : Coordinator)

/-- Attach a recurrence of an active step; the result says whether there was one. -/
def attachActiveRecurrence (target : FailurePointerTarget) : Recovery Bool := do
  let w ← Prog.observe (σ := recovery)
  match w.activeByPointer target.pointerKey with
  | none => return false
  | some ref =>
      match w.recoveries[ref]? with
      | none => return false
      | some active =>
          if target.recoverySessionId = none then do
            Prog.call (σ := recovery) (.attach target.failureId active.recoverySessionId)
            Prog.update (σ := recovery) (setCurrent ref)
            return true
          else if target.recoverySessionId = some active.recoverySessionId then do
            Prog.update (σ := recovery) (setCurrent ref)
            return true
          else .raise (contractError
            "The same robot Flow step is linked to two recovery sessions")
where
  setCurrent (ref : ℕ) (w : World) : World :=
    let current := fun active : ActiveRecovery => { active with currentFailureId := target.failureId }
    { w with recoveries := w.recoveries.modify ref current }

def World.lock (sysid : String) (held : Bool) (w : World) : World :=
  { w with robotLocks := Function.update w.robotLocks sysid held }

/-- A recovery status that may be executed: none yet, ready or failed. -/
def startable (status : Option String) : Bool := status ∈ [none, some "ready", some "failed"]

/-- The handlers around one execution: a plan that cannot run is marked, a robot
that is not there is left to a later pass. -/
def executeGuarded (fuel : ℕ) (target : FailureRecoveryTarget) (newSessionId : String) :
    Recovery Unit :=
  (executeTarget c fuel target newSessionId).tryCatch fun e =>
    if e.cls = .recoveryNonExecutable then
      Prog.call (σ := recovery) (.markNonExecutable target.failureId
        s!"Automatic recovery requires manual handling: {e.message}")
    else if e.cls = .recoveryLiveStateChanged ∨ e.isLostConfirmation then return ()
    else .raise e

/-- The part under the robot lock, with the row read again. -/
def processLocked (fuel : ℕ) (failureId newSessionId : String) : Recovery Unit := do
  match ← Prog.call (σ := recovery) (.fetchFailure failureId) with
  | none => return ()
  | some row => do
      let target ← Prog.settle (σ := recovery) (parseFailureRecoveryTarget row)
      if ← attachActiveRecurrence target.toFailurePointerTarget then return ()
      else if !startable target.recoveryStatus then return ()
      else executeGuarded c fuel target newSessionId

def processFailure (fuel : ℕ) (failureId newSessionId : String) : Recovery Unit :=
  if !c.settings.enabled then return ()
  else do
    requiredDatabase
    match ← Prog.call (σ := recovery) (.fetchFailure failureId) with
    | none => return ()
    | some row => do
        let pointerTarget ← Prog.settle (σ := recovery) (parseFailurePointerTarget row)
        if pointerTarget.sysid ∉ c.settings.robotAllowlist then return ()
        else if ← attachActiveRecurrence pointerTarget then return ()
        else if strippedColumn row "analysis_status" ≠ "completed" ∨
            strippedColumn row "matcher_status" ≠ "solution_found" then return ()
        else do
          let target ← Prog.settle (σ := recovery) (parseFailureRecoveryTarget row)
          if !startable target.recoveryStatus then return ()
          else do
            Prog.call (σ := recovery) (.acquireRobotLock target.sysid)
            Prog.update (σ := recovery) (World.lock target.sysid true)
            (processLocked c fuel target.failureId newSessionId).tryFinally
              (World.lock target.sysid false)

end Failures

end FailureResolver.RecoveryCoordinator
