import FailureResolver.RecoveryCoordinator
import FailureResolver.SendRules

/-!
The commands of one execution. A run splits at the claims whose row parsed; in
each attempt the commands are a prefix of the pinned plan, sent one by one to
the robot the plan was checked against, each at the live step the attempt
started from and after every earlier one was acknowledged on its connection. That
step is the pointer the run has read last before the claim. The next attempt
needs a whole plan sent and a recorded failure.
-/

namespace FailureResolver.CommandProtocol

open Program TraceLaws SendRules JsonValue PyException LiveFlow RecoveryContract ActionPlan
open PlanValidation CommandSchema FlowOutcome RecoveryCoordinator

section Events

abbrev Command := String × Fields

def sentCommand (e : RecoveryEvent) : Option Command :=
  match e.op with
  | .requestCommand _ command arguments _ => some (command, arguments)
  | _ => none

/-- A claim whose row parsed: the session it was made for, and the state it was
issued in. -/
structure Claim where
  sessionId : String
  record : RecoverySessionRecord
  issuedIn : World

def claimed (e : RecoveryEvent) : Option Claim :=
  match e with
  | ⟨w, .claim _ sessionId _, some (.ok row, _)⟩ =>
      match parseRecoverySession row true with
      | .ok record => some ⟨sessionId, record, w⟩
      | .error _ => none
  | _ => none

/-- The coordinator reads a pointer when the robot is connected, when the paused
step it waits for is shown and when a failure is recorded. -/
def pointerSeen (sysid : String) (known : Option FlowPointer) (e : RecoveryEvent) :
    Option FlowPointer :=
  match e with
  | ⟨_, .waitConnected .., some (.ok _, w)⟩ => (w.robots sysid).latestFlow
  | ⟨_, .waitForFlow _ (.pausedStep _) .., some (.ok frame, _)⟩ => frame
  | ⟨_, .finish _ _ _ .failed _, some (.ok _, w)⟩ => (w.robots sysid).latestFlow
  | _ => known

/-- The attempts of a run, each with the pointer that was read last before its claim. -/
def attempts (sysid : String) (known : Option FlowPointer) (t : List RecoveryEvent) :
    List (Claim × Option FlowPointer × List RecoveryEvent) :=
  readings claimed (pointerSeen sysid) known t

/-- What the robot answers to a continuation: the step it stood at, the step it goes
to and the Flow both belong to. -/
def ResumeAcknowledged (pointer : FlowPointer) (plan : RecoveryPlan) (result : Json) : Prop :=
  ∃ fields index, result = .obj fields ∧ pointer.actionIndex = some index ∧
    (∀ member ∈ [("accepted", .bool true), ("mode", .str plan.resumeMode.text),
        ("rewind_steps", .int plan.rewindSteps), ("previous_action_index", .int index),
        ("target_action_index", .int (index - plan.rewindSteps)),
        ("current_command", optionalText pointer.actionCommand),
        ("flow_id", .str pointer.flowId)],
      (Fields.get fields member.1).pyEq member.2 = true) ∧
    (∀ filename, pointer.filename = some filename →
      (Fields.get fields "filename").pyEq (.str filename) = true) ∧
    ∀ commit, pointer.flowCommit = some commit →
      (Fields.get fields "flow_commit").pyEq (.str commit) = true

/-- The robot acknowledged a command on the connection of the pointer, a continuation
with the step it was asked to go to. -/
def acknowledged (pointer : FlowPointer) (plan : RecoveryPlan) (e : RecoveryEvent) : Prop :=
  match e with
  | ⟨_, .requestCommand _ command _ _, some (.ok receipt, _)⟩ =>
      CommandReceipt.generation receipt = pointer.generation ∧
        (command = "$resume_flow" → ResumeAcknowledged pointer plan receipt.result)
  | _ => False

/-- An await that ended with an exception; the grace timer ends so normally. -/
def failedAwait (e : RecoveryEvent) : Prop :=
  e.raised = true ∧ ∀ seconds, e.op ≠ .graceWait seconds

/-- The failure of an attempt was recorded and the session may be retried. -/
def retryRecorded (record : RecoverySessionRecord) (e : RecoveryEvent) : Prop :=
  match e with
  | ⟨_, .finish _ sessionId runToken .failed _, some (.ok row, _)⟩ =>
      sessionId = record.recoverySessionId ∧ record.recoveryRunToken = some runToken ∧
        ∃ finished, parseRecoverySession row false = .ok finished ∧
          finished.recoveryStatus = "failed"
  | _ => False

theorem resumeAcknowledged_of_ok {pointer : FlowPointer} {plan : RecoveryPlan} {result : Json}
    (h : validateResumeAcknowledgement result pointer plan.rewindSteps (some plan.resumeMode) =
      .ok ()) : ResumeAcknowledged pointer plan result := by
  unfold validateResumeAcknowledgement at h
  split at h
  · next fields =>
    split at h
    · next index hindex =>
      obtain ⟨hrequired, h⟩ := bind_unit_eq_ok.mp h
      obtain ⟨hfilename, hcommit⟩ := bind_unit_eq_ok.mp h
      rw [rejectIf_eq_ok] at hrequired hfilename hcommit
      refine ⟨fields, index, rfl, hindex, ?_, ?_, ?_⟩
      · have hall := List.any_eq_false.mp hrequired
        simpa [requiredAcknowledgement, selectedMode] using hall
      · intro filename heq
        simpa [heq, optionalText] using hfilename
      · intro commit heq
        simpa [heq, optionalText] using hcommit
    · cases h
  · exact absurd h reject_ne_ok

end Events

section Live

/-- The robot is connected and stands where the pointer says. -/
structure StandsAt (robot : RobotView) (pointer : FlowPointer) : Prop where
  connected : robot.connected = true
  generation : robot.generation = pointer.generation
  latest : ∃ latest, robot.latestFlow = some latest ∧
    latest.generation = pointer.generation ∧ latest.revision = pointer.revision ∧
    latest.flowId = pointer.flowId ∧ latest.status = pointer.status ∧
    latest.actionIndex = pointer.actionIndex ∧ latest.actionCommand = pointer.actionCommand

/-- Every correction is declared by the commands frame of this connection, with
valid arguments and without a need for confirmation. -/
structure CorrectionsValid (robot : RobotView) (pointer : FlowPointer) (plan : RecoveryPlan) :
    Prop where
  frame : ∃ frame, robot.latestCommandsFrame = some frame ∧
    frame.generation = pointer.generation ∧
    ∀ action ∈ plan.corrections, ∃ schema,
      Fields.get frame.commands action.command = .obj schema ∧
      commandRequiresConfirmation action.command action.arguments schema = false ∧
      validateActionArguments action.command action.arguments schema = .ok () ∧
      validateActionProvenance action schema = .ok ()

theorem samePointer_standsAt {robot : RobotView} {pointer latest : FlowPointer}
    (hlatest : robot.latestFlow = some latest) (h : samePointer robot pointer latest = true) :
    StandsAt robot pointer := by
  simp only [samePointer, Bool.and_eq_true, decide_eq_true_eq] at h
  obtain ⟨⟨⟨⟨⟨⟨⟨hconnected, hgeneration⟩, h1⟩, h2⟩, h3⟩, h4⟩, h5⟩, h6⟩ := h
  exact ⟨hconnected, hgeneration, latest, hlatest, h1, h2, h3, h4, h5, h6⟩

/-- What the live check establishes. -/
theorem requireLiveExecutionState_ok {robot : RobotView} {pointer : FlowPointer}
    {plan : RecoveryPlan} {frame : CommandsFrame}
    (h : requireLiveExecutionState robot pointer plan = .ok frame) :
    StandsAt robot pointer ∧ CorrectionsValid robot pointer plan := by
  obtain ⟨latest, hlatest, hsame, hframe, hgeneration, -, hcorrections⟩ :=
    requireLiveExecutionState_eq_ok h
  have hvalid := (validateCorrections_eq_ok.mp hcorrections).2
  exact ⟨samePointer_standsAt hlatest hsame, frame, hframe, hgeneration, fun action haction =>
    validateCorrection_eq_ok.mp (hvalid action haction)⟩

theorem ensures_requireLive {env : Environment recovery} {w : World} {sysid : String}
    {pointer : FlowPointer} {plan : RecoveryPlan}
    {Φ : List RecoveryEvent → Outcome recovery Unit → Prop} :
    Ensures env (requireLive sysid pointer plan) w Φ ↔
      (∀ frame, requireLiveExecutionState (w.robots sysid) pointer plan = .ok frame →
        Φ [] (.returned () w)) ∧
      ∀ e, requireLiveExecutionState (w.robots sysid) pointer plan = .error e →
        Φ [] (.raised e w) := by
  unfold requireLive
  rw [ensures_get]
  cases requireLiveExecutionState (w.robots sysid) pointer plan with
  | ok frame => simp
  | error e => simp

end Live

section Attempt

/-- A command to this robot, at the live step of the attempt. -/
def aimed (sysid : String) (pointer : FlowPointer) (plan : RecoveryPlan) (e : RecoveryEvent) :
    Prop :=
  (∃ command arguments timeout, e.op = .requestCommand sysid command arguments timeout) ∧
    StandsAt (e.before.robots sysid) pointer ∧
    CorrectionsValid (e.before.robots sysid) pointer plan

def correctionCommands (plan : RecoveryPlan) : List Command :=
  plan.corrections.map (fun action => (action.command, action.arguments))

/-- The continuation, where the plan has one for this pointer. -/
def resumeCommands (plan : RecoveryPlan) (pointer : FlowPointer) : List Command :=
  match resumeArgumentsForPlan plan pointer with
  | .ok arguments => [("$resume_flow", arguments)]
  | .error _ => []

def planCommands (plan : RecoveryPlan) (pointer : FlowPointer) : List Command :=
  correctionCommands plan ++ resumeCommands plan pointer

abbrev Sending {α : Type} (a : Attempt) (plan : List Command) (t : List RecoveryEvent)
    (o : Outcome recovery α) : Prop :=
  Sends sentCommand (aimed a.sysid a.pointer a.plan) (acknowledged a.pointer a.plan) claimed
    plan t o

def quietOp : Op → Prop
  | .requestCommand .. => False
  | .claim .. => False
  | _ => True

variable {c : Coordinator} {a : Attempt} {w : World} {env : Environment recovery}

theorem sentCommand_quiet {e : RecoveryEvent} (h : quietOp e.op) : sentCommand e = none := by
  unfold sentCommand
  split
  · next heq => simp [heq, quietOp] at h
  · rfl

theorem claimed_quiet {e : RecoveryEvent} (h : quietOp e.op) : claimed e = none := by
  unfold claimed
  split
  · exact h.elim
  · rfl

theorem sending_call {op : Op} (h : quietOp op) :
    Ensures env (Prog.call (σ := recovery) op) w (Sending a []) :=
  sends_quiet (fun _ _ => sentCommand_quiet h) (fun _ _ => claimed_quiet h)

theorem sending_requiredDatabase : Ensures env requiredDatabase w (Sending a []) := by
  unfold requiredDatabase
  rw [ensures_get]
  split
  · exact sends_ret ()
  · exact sends_raise _

theorem sending_finishUnknown (claimed : RecoverySessionRecord) (failureId message : String) :
    Ensures env (finishUnknown claimed failureId message) w (Sending a []) := by
  unfold finishUnknown
  simp only [Prog.bind_eq, Prog.pure_eq]
  split
  · exact sends_ret ()
  · refine sends_quiet_bind sending_requiredDatabase fun _ w' => ?_
    refine sends_quiet_bind (sending_call trivial) fun _ w' => ?_
    exact sends_ret ()

/-- A command that is sent right behind the live check. -/
theorem sending_command {α : Type} {command : String} {arguments : Fields}
    {check : CommandReceipt → Recovery α}
    (hcheck : ∀ receipt w', Ensures env (check receipt) w' (fun t o => t = [] ∧
      ∀ b w'', o = .returned b w'' → receipt.generation = a.pointer.generation ∧
        (command = "$resume_flow" →
          ResumeAcknowledged a.pointer a.plan receipt.result))) :
    Ensures env ((requireLive a.sysid a.pointer a.plan).bind fun _ =>
      (Prog.call (σ := recovery) (.requestCommand a.sysid command arguments
        c.settings.commandTimeoutSeconds)).bind check) w
      (Sending a [(command, arguments)]) := by
  rw [ensures_bind, ensures_requireLive]
  refine ⟨fun frame hlive => ?_, fun e _ => ?_⟩
  · refine sends_command (fun _ _ => rfl) (fun _ _ => rfl) (fun _ => ?_) ?_
    · exact ⟨⟨command, arguments, _, rfl⟩, requireLiveExecutionState_ok hlive⟩
    · exact fun receipt w' _ => hcheck receipt w'
  · exact sends_nil_of_end (by simp)

theorem sending_correction {action : RecoveryAction} (hplain : action.command ≠ "$resume_flow") :
    Ensures env (sendCorrection c a action) w
      (Sending a [(action.command, action.arguments)]) := by
  refine sending_command fun receipt w' => ?_
  by_cases h : receipt.generation = a.pointer.generation
  · simp [h, hplain]
  · simp [h]

theorem sending_resume : Ensures env (sendResume c a) w
    (Sending a (resumeCommands a.plan a.pointer)) := by
  unfold sendResume resumeCommands
  simp only [Prog.bind_eq, Prog.pure_eq]
  cases harguments : resumeArgumentsForPlan a.plan a.pointer with
  | error e =>
    rw [ensures_bind, ensures_requireLive]
    refine ⟨fun frame _ => ?_, fun e _ => sends_nil_of_end (by simp)⟩
    exact sends_raise (σ := recovery) e
  | ok arguments =>
    refine sending_command fun receipt w' => ?_
    by_cases h : receipt.generation = a.pointer.generation
    · cases hresult : validateResumeAcknowledgement receipt.result a.pointer a.plan.rewindSteps
        (some a.plan.resumeMode) with
      | ok u => simp [h, Prog.settle, Prog.bind, resumeAcknowledged_of_ok hresult]
      | error e => simp [h, Prog.settle, Prog.bind]
    · simp [h]

theorem sending_finishVerdict (runToken : String) (result : FinishResult) (message : String) :
    Ensures env (finishVerdict a runToken result message) w (Sending a []) := by
  unfold finishVerdict
  simp only [Prog.bind_eq]
  refine sends_quiet_bind (sending_call trivial) fun _ w' => ?_
  exact sends_settle _

theorem sending_conclude (runToken : String) (outcome : Option FlowPointer) :
    Ensures env (concludeAttempt a runToken outcome) w (Sending a []) := by
  unfold concludeAttempt
  simp only [Prog.bind_eq, Prog.pure_eq]
  split
  · exact sends_quiet_bind (sending_finishVerdict _ _ _) fun _ _ => sends_ret _
  · exact sends_quiet_bind (sending_finishVerdict _ _ _) fun _ _ => sends_ret _
  · exact sends_quiet_bind (sending_finishUnknown _ _ _) fun _ _ => sends_ret _

/-- The body of an attempt sends the plan: corrections, then the continuation. -/
theorem sending_body (hplain : ∀ action ∈ a.plan.corrections, action.command ≠ "$resume_flow")
    (runToken : String) :
    Ensures env (attemptBody c a runToken) w (Sending a (planCommands a.plan a.pointer)) := by
  unfold attemptBody planCommands correctionCommands
  simp only [Prog.bind_eq]
  refine sends_bind (sends_forEach fun action haction _ =>
    sending_correction (hplain action haction)) fun _ w' => ?_
  rw [← List.append_nil (resumeCommands a.plan a.pointer)]
  refine sends_bind sending_resume fun receipt w' => ?_
  refine sends_quiet_bind (sending_call trivial) fun _ w' => ?_
  refine sends_quiet_bind (sending_call trivial) fun outcome w' => ?_
  exact sending_conclude runToken outcome

/-- The failure of this attempt is recorded by this await. -/
def recordedFailure (a : Attempt) (runToken : String) (finished : RecoverySessionRecord)
    (e : RecoveryEvent) : Prop :=
  ∃ before message row after,
    e = ⟨before, .finish a.failureId a.claimed.recoverySessionId runToken .failed message,
      some (.ok row, after)⟩ ∧ parseRecoverySession row false = .ok finished

def failureRecorded (a : Attempt) (runToken : String) (result : AttemptResult)
    (t : List RecoveryEvent) : Prop :=
  ∀ finished, result = .failed finished → ∃ e ∈ t, recordedFailure a runToken finished e

theorem failureRecorded_append {runToken : String} (result : AttemptResult)
    (t u : List RecoveryEvent) (h : failureRecorded a runToken result u) :
    failureRecorded a runToken result (t ++ u) := by
  intro finished hresult
  obtain ⟨e, he, hrecorded⟩ := h finished hresult
  exact ⟨e, List.mem_append_right t he, hrecorded⟩

theorem returns_finishVerdict (runToken message : String) :
    Ensures env (finishVerdict a runToken .failed message) w (Returns fun finished t =>
      ∃ e ∈ t, recordedFailure a runToken finished e) := by
  unfold finishVerdict
  rw [Prog.bind_eq, ensures_bind, ensures_call]
  refine ⟨fun b s hb => (by cases hb), fun row w' _ => ?_, fun e w' _ b s hb => by cases hb⟩
  have hparsed : Ensures env (Prog.settle (σ := recovery) (parseRecoverySession row false)) w'
      (Returns fun finished _ => parseRecoverySession row false = .ok finished) :=
    returns_settle fun _ h => h
  refine hparsed.mono fun t o ho finished s hb => ?_
  exact ⟨_, List.mem_cons_self .., w, message, row, w', rfl, ho finished s hb⟩

theorem returns_conclude (runToken : String) (outcome : Option FlowPointer) :
    Ensures env (concludeAttempt a runToken outcome) w
      (Returns (failureRecorded a runToken)) := by
  unfold concludeAttempt
  simp only [Prog.bind_eq, Prog.pure_eq]
  split
  · exact returns_bind (fun _ _ => returns_ret (by simp [failureRecorded]))
      failureRecorded_append
  · rw [ensures_bind]
    refine (returns_finishVerdict runToken _).mono fun t o ho => ?_
    cases o with
    | returned finished w' =>
      rw [after, ensures_ret]
      intro result s hresult finished' hfailed
      cases hresult
      cases hfailed
      simpa using ho finished w' rfl
    | raised e w' => exact fun _ _ hb => by cases hb
    | suspended => exact fun _ _ hb => by cases hb
    | outOfFuel => exact fun _ _ hb => by cases hb
  · exact returns_bind (fun _ _ => returns_ret (by simp [failureRecorded]))
      failureRecorded_append

theorem returns_body (runToken : String) :
    Ensures env (attemptBody c a runToken) w (Returns (failureRecorded a runToken)) := by
  unfold attemptBody
  simp only [Prog.bind_eq]
  refine returns_bind (fun _ _ => ?_) failureRecorded_append
  refine returns_bind (fun _ _ => ?_) failureRecorded_append
  refine returns_bind (fun _ _ => ?_) failureRecorded_append
  refine returns_bind (fun outcome _ => ?_) failureRecorded_append
  exact returns_conclude runToken outcome

/-- Where an attempt returns a failure, the pointer known is the one shown there. -/
def FailureSeen (sysid : String) (t : List RecoveryEvent) (o : Outcome recovery AttemptResult) :
    Prop :=
  ∀ finished w', o = .returned (.failed finished) w' →
    ∀ known, t.foldl (pointerSeen sysid) known = (w'.robots sysid).latestFlow

theorem failureSeen_bind {α : Type} {sysid : String} {p : Recovery α}
    {f : α → Recovery AttemptResult} (hf : ∀ b w', Ensures env (f b) w' (FailureSeen sysid)) :
    Ensures env (p.bind f) w (FailureSeen sysid) := by
  rw [ensures_bind]
  intro t o _
  cases o with
  | returned b w' =>
    refine (hf b w').mono fun u o' hu finished w'' ho known => ?_
    rw [List.foldl_append]
    exact hu finished w'' ho _
  | raised e w' => exact fun finished w'' h => by cases h
  | suspended => exact fun finished w'' h => by cases h
  | outOfFuel => exact fun finished w'' h => by cases h

theorem failureSeen_ret {sysid : String} {result : AttemptResult}
    (h : ∀ finished, result ≠ .failed finished) :
    Ensures env (.ret result) w (FailureSeen sysid) := by
  rw [ensures_ret]
  rintro finished w' ⟨⟩
  exact absurd rfl (h finished)

theorem failureSeen_conclude (runToken : String) (outcome : Option FlowPointer) (sysid : String) :
    Ensures env (concludeAttempt a runToken outcome) w (FailureSeen sysid) := by
  unfold concludeAttempt
  simp only [Prog.bind_eq, Prog.pure_eq]
  split
  · exact failureSeen_bind fun _ _ => failureSeen_ret (by simp)
  · unfold finishVerdict
    rw [Prog.bind_eq, ensures_bind, ensures_bind, ensures_call]
    refine ⟨fun _ _ h => (by cases h), fun row w' _ => ?_, fun e w' _ _ _ h => (by cases h)⟩
    dsimp only [after]
    cases parseRecoverySession row false with
    | error e =>
      rw [Prog.settle, ensures_raise]
      exact fun _ _ h => by cases h
    | ok finished =>
      rw [Prog.settle, ensures_ret]
      dsimp only [after]
      rw [ensures_ret]
      rintro finished' last ⟨⟩ known
      rfl
  · exact failureSeen_bind fun _ _ => failureSeen_ret (by simp)

theorem failureSeen_body (runToken sysid : String) :
    Ensures env (attemptBody c a runToken) w (FailureSeen sysid) := by
  unfold attemptBody
  simp only [Prog.bind_eq]
  refine failureSeen_bind fun _ _ => ?_
  refine failureSeen_bind fun _ _ => ?_
  refine failureSeen_bind fun _ _ => ?_
  refine failureSeen_bind fun outcome _ => ?_
  exact failureSeen_conclude runToken outcome sysid

/-- A body that returns has found the continuation valid. -/
theorem body_resumes (runToken : String) :
    Ensures env (attemptBody c a runToken) w (Returns fun _ _ =>
      ∃ arguments, resumeArgumentsForPlan a.plan a.pointer = .ok arguments) := by
  unfold attemptBody
  simp only [Prog.bind_eq]
  refine returns_bind (fun _ w' => ?_) (fun _ _ _ h => h)
  refine returns_bind_left ?_
  unfold sendResume
  simp only [Prog.bind_eq]
  refine returns_bind (fun _ w' => ?_) (fun _ _ _ h => h)
  exact returns_bind_left (returns_settle fun arguments harguments => ⟨arguments, harguments⟩)

theorem only_requiredDatabase : requiredDatabase.Only quietOp := by
  intro w
  dsimp only
  split <;> trivial

theorem only_finishUnknown (claimed : RecoverySessionRecord) (failureId message : String) :
    (finishUnknown claimed failureId message).Only quietOp := by
  unfold finishUnknown
  split
  · trivial
  · exact .bind only_requiredDatabase fun _ => .bind (.call trivial) fun _ => trivial

theorem only_handler (e : PyExc) : (attemptHandler a e).Only quietOp := by
  unfold attemptHandler finishInterrupted
  simp only [Prog.bind_eq, Prog.pure_eq]
  have hunknown := only_finishUnknown a.claimed a.failureId
  split_ifs
  · refine .bind (.tryCatch (.bind (.call trivial) fun started => ?_) fun e => ?_)
      fun _ => trivial
    · split
      · exact hunknown _
      · trivial
    · split <;> trivial
  · exact .bind (hunknown _) fun _ => trivial
  · exact .bind (hunknown _) fun _ => trivial
  · exact .bind (hunknown _) fun _ => trivial
  · trivial

theorem handler_not_failed (e : PyExc) :
    Ensures env (attemptHandler a e) w (Returns fun result _ =>
      ∀ finished, result ≠ .failed finished) := by
  unfold attemptHandler
  simp only [Prog.bind_eq, Prog.pure_eq]
  split_ifs
  · exact returns_bind (fun _ _ => returns_raise) (fun _ _ _ h => h)
  · exact returns_bind (fun _ _ => returns_ret (by simp)) (fun _ _ _ h => h)
  · exact returns_bind (fun _ _ => returns_ret (by simp)) (fun _ _ _ h => h)
  · exact returns_bind (fun _ _ => returns_ret (by simp)) (fun _ _ _ h => h)
  · exact returns_raise

/-- What the runs of one attempt satisfy; a failed one has sent its whole plan. -/
structure AttemptRun (a : Attempt) (t : List RecoveryEvent)
    (o : Outcome recovery AttemptResult) : Prop where
  issues : Issues sentCommand (aimed a.sysid a.pointer a.plan)
    (acknowledged a.pointer a.plan) (planCommands a.plan a.pointer) t
  stops : StopsAfter sentCommand (fun e => e.raised = true) t
  closed : ∀ e ∈ t, claimed e = none
  failed : ∀ finished w', o = .returned (.failed finished) w' →
    Completes sentCommand (aimed a.sysid a.pointer a.plan)
      (acknowledged a.pointer a.plan) (planCommands a.plan a.pointer) t ∧
    (∀ e ∈ t, e.raised = false) ∧
    (∃ arguments, resumeArgumentsForPlan a.plan a.pointer = .ok arguments) ∧
    ∃ runToken, a.claimed.recoveryRunToken = some runToken ∧
      ∃ e ∈ t, recordedFailure a runToken finished e
  seen : FailureSeen a.sysid t o

theorem attemptRun_nil {o : Outcome recovery AttemptResult}
    (ho : ∀ finished w', o ≠ .returned (.failed finished) w') : AttemptRun a [] o where
  issues := Silent.issues (by simp [Silent])
  stops := Silent.stopsAfter (by simp [Silent])
  closed := by simp
  failed := fun finished w' h => absurd h (ho finished w')
  seen := fun finished w' h => absurd h (ho finished w')

/-- The handlers only close: nothing is sent once the body has raised. -/
theorem executeAttempt_run
    (hplain : ∀ action ∈ a.plan.corrections, action.command ≠ "$resume_flow") :
    Ensures env (executeAttempt c a) w (AttemptRun a) := by
  unfold executeAttempt
  cases htoken : a.claimed.recoveryRunToken with
  | none =>
    rw [ensures_raise]
    exact attemptRun_nil (by simp)
  | some runToken =>
    simp only
    rw [ensures_tryCatch]
    refine (((sending_body hplain runToken).and (returns_body runToken)).and
      ((body_resumes runToken).and (failureSeen_body runToken a.sysid))).mono fun t o ho => ?_
    obtain ⟨⟨hsends, hrecorded⟩, hresumes, hseen⟩ := ho
    have hend : ∀ o' : Outcome recovery AttemptResult,
        (∀ finished w', o' ≠ .returned (.failed finished) w') → AttemptRun a t o' :=
      fun o' ho' => ⟨hsends.issues, hsends.stops, hsends.closed,
        fun finished w' h => absurd h (ho' finished w'),
        fun finished w' h => absurd h (ho' finished w')⟩
    cases o with
    | suspended => exact hend _ (by simp)
    | outOfFuel => exact hend _ (by simp)
    | returned result w' =>
      refine ⟨hsends.issues, hsends.stops, hsends.closed, fun finished w'' h => ?_, hseen⟩
      obtain ⟨rfl, rfl⟩ := Outcome.returned.inj h
      exact ⟨hsends.completes _ _ rfl, hsends.calm _ _ rfl, hresumes _ _ rfl, runToken, htoken,
        hrecorded _ _ rfl finished rfl⟩
    | raised e w' =>
      refine ((only_handler e).ensures.and (handler_not_failed e)).mono fun u o hu => ?_
      have hsilent : Silent sentCommand u := fun e he => sentCommand_quiet (hu.1 e he)
      refine ⟨hsends.issues.append_silent hsilent, hsends.stops.append_silent hsilent,
        fun e he => ?_, fun finished w'' h => absurd rfl (hu.2 _ _ h finished),
        fun finished w'' h => absurd rfl (hu.2 _ _ h finished)⟩
      exact (List.mem_append.mp he).elim (hsends.closed e) fun he => claimed_quiet (hu.1 e he)

end Attempt

section Loop

variable {c : Coordinator} {w : World} {env : Environment recovery} {sysid : String}
  {claim : Claim} {pointer : FlowPointer} {known : Option FlowPointer} {t u : List RecoveryEvent}

/-- The commands of one attempt are those of the plan its claim pinned, at the
step the robot stood at when the claim was issued. -/
def AttemptLaw (sysid : String) (claim : Claim) (pointer : FlowPointer)
    (t : List RecoveryEvent) : Prop :=
  StandsAt (claim.issuedIn.robots sysid) pointer ∧
    match parseRecoveryPlan (asPlanValue claim.record.pinnedActions) with
    | .ok plan => Issues sentCommand (aimed sysid pointer plan) (acknowledged pointer plan)
        (planCommands plan pointer) t
    | .error _ => Silent sentCommand t

/-- Another attempt may follow: the whole plan was sent and acknowledged, and the
failure was recorded with a session that is left to retry. -/
def RetryAllowed (sysid : String) (claim : Claim) (pointer : FlowPointer)
    (t : List RecoveryEvent) : Prop :=
  ∃ plan arguments, parseRecoveryPlan (asPlanValue claim.record.pinnedActions) = .ok plan ∧
    resumeArgumentsForPlan plan pointer = .ok arguments ∧
    Completes sentCommand (aimed sysid pointer plan) (acknowledged pointer plan)
      (correctionCommands plan ++ [("$resume_flow", arguments)]) t ∧
    ∃ e ∈ t, retryRecorded claim.record e

theorem AttemptLaw.append_silent (h : AttemptLaw sysid claim pointer t)
    (hu : Silent sentCommand u) : AttemptLaw sysid claim pointer (t ++ u) := by
  obtain ⟨hstands, hlaw⟩ := h
  refine ⟨hstands, ?_⟩
  cases hplan : parseRecoveryPlan (asPlanValue claim.record.pinnedActions) with
  | ok plan =>
    rw [hplan] at hlaw
    exact hlaw.append_silent hu
  | error e =>
    rw [hplan] at hlaw
    exact silent_append.mpr ⟨hlaw, hu⟩

theorem RetryAllowed.append_silent (h : RetryAllowed sysid claim pointer t)
    (hu : Silent sentCommand u) : RetryAllowed sysid claim pointer (t ++ u) := by
  obtain ⟨plan, arguments, hplan, harguments, hcompletes, e, he, hretry⟩ := h
  refine ⟨plan, arguments, hplan, harguments, ?_, e, List.mem_append_left u he, hretry⟩
  simpa only [List.append_nil] using hcompletes.append hu.completes

/-- What the runs behind a claim satisfy. The next attempt starts at the pointer that
was read last. -/
structure ClaimedRun (sysid : String) (claim : Claim) (pointer : FlowPointer)
    (t : List RecoveryEvent) (o : Outcome recovery (Option FlowPointer)) : Prop where
  lawful : AttemptLaw sysid claim pointer t
  stops : StopsAfter sentCommand (fun e => e.raised = true) t
  closed : ∀ e ∈ t, claimed e = none
  retry : ∀ next w', o = .returned (some next) w' →
    RetryAllowed sysid claim pointer t ∧ (∀ e ∈ t, e.raised = false) ∧
      ∀ known, t.foldl (pointerSeen sysid) known = some next

theorem claimedRun_quiet {o : Outcome recovery (Option FlowPointer)}
    (hstands : StandsAt (claim.issuedIn.robots sysid) pointer) (ht : ∀ e ∈ t, quietOp e.op)
    (ho : ∀ next w', o ≠ .returned (some next) w') : ClaimedRun sysid claim pointer t o := by
  have hsilent : Silent sentCommand t := fun e he => sentCommand_quiet (ht e he)
  refine ⟨⟨hstands, ?_⟩, hsilent.stopsAfter, fun e he => claimed_quiet (ht e he),
    fun next w' h => absurd h (ho next w')⟩
  split
  · exact hsilent.issues
  · exact hsilent

/-- A claimed attempt that is closed without an execution. -/
theorem claimedRun_close {p : Recovery Unit}
    (hstands : StandsAt (claim.issuedIn.robots sysid) pointer) (hp : p.Only quietOp) :
    Ensures env (p.bind fun _ => .ret none) w (ClaimedRun sysid claim pointer) := by
  have honly : (p.bind fun _ => (.ret none : Recovery (Option FlowPointer))).Only quietOp :=
    .bind hp fun _ => trivial
  have hnone : Ensures env (p.bind fun _ => (.ret none : Recovery (Option FlowPointer))) w
      (Returns fun next _ => next = none) :=
    returns_bind (fun _ _ => returns_ret rfl) (fun _ _ _ h => h)
  refine (honly.ensures.and hnone).mono fun t o ho => claimedRun_quiet hstands ho.1 ?_
  intro next w' h
  exact absurd (ho.2 _ _ h) (by simp)

theorem retryPointer_returns {claimed finished : RecoverySessionRecord}
    {Φ : List RecoveryEvent → Outcome recovery (Option FlowPointer) → Prop}
    (hnone : Φ [] (.returned none w))
    (hsome : finished.recoveryStatus = "failed" → ∀ next,
      (w.robots sysid).latestFlow = some next → Φ [] (.returned (some next) w)) :
    Ensures env (retryPointer sysid claimed finished) w Φ := by
  unfold retryPointer
  simp only [Prog.bind_eq, Prog.pure_eq]
  split
  · next hstatus =>
    simp only [Prog.observe, Prog.bind, ensures_get, ensures_ret]
    cases hnext : (w.robots sysid).latestFlow.filter
        (fun latest => pointerMatchesSession latest claimed) with
    | none => exact hnone
    | some next => exact hsome hstatus next (Option.filter_eq_some_iff.mp hnext).1
  · simpa using hnone

/-- From the run of an attempt to the law of its claim. -/
theorem claimedRun_of_attempt {plan : RecoveryPlan} {failureId : String}
    (hstands : StandsAt (claim.issuedIn.robots sysid) pointer)
    (hplan : parseRecoveryPlan (asPlanValue claim.record.pinnedActions) = .ok plan)
    {o : Outcome recovery AttemptResult}
    (h : AttemptRun ⟨sysid, failureId, claim.record, plan, pointer⟩ t o)
    {o' : Outcome recovery (Option FlowPointer)}
    (hretry : ∀ next w', o' = .returned (some next) w' →
      ∃ finished w'', o = .returned (.failed finished) w'' ∧
        finished.recoveryStatus = "failed" ∧ (w''.robots sysid).latestFlow = some next) :
    ClaimedRun sysid claim pointer t o' := by
  refine ⟨⟨hstands, by rw [hplan]; exact h.issues⟩, h.stops, h.closed, ?_⟩
  intro next w' ho'
  obtain ⟨finished, w'', ho, hstatus, hnext⟩ := hretry next w' ho'
  obtain ⟨hcompletes, hcalm, ⟨arguments, harguments⟩, runToken, htoken, e, he, hrecorded⟩ :=
    h.failed finished w'' ho
  refine ⟨⟨plan, arguments, hplan, harguments, ?_, e, he, ?_⟩, hcalm,
    fun known => (h.seen finished w'' ho known).trans hnext⟩
  · simpa only [planCommands, resumeCommands, harguments] using hcompletes
  · obtain ⟨before, message, row, after, rfl, hparse⟩ := hrecorded
    exact ⟨rfl, htoken, finished, hparse, hstatus⟩

/-- The corrections of a parsed plan are no continuations. -/
theorem corrections_plain {value : Json} {plan : RecoveryPlan}
    (h : parseRecoveryPlan value = .ok plan) :
    ∀ action ∈ plan.corrections, action.command ≠ "$resume_flow" := by
  intro action haction hcommand
  have hplain := parseRecoveryPlan_corrections h action haction
  rw [hcommand] at hplain
  exact absurd hplain (by decide)

theorem claimedAttempt_run (claim : Claim) {failureId : String}
    (hstands : StandsAt (claim.issuedIn.robots sysid) pointer) :
    Ensures env (claimedAttempt c sysid failureId pointer claim.record) w
      (ClaimedRun sysid claim pointer) := by
  have hnil : ∀ o : Outcome recovery (Option FlowPointer),
      (∀ next w', o ≠ .returned (some next) w') → ClaimedRun sysid claim pointer [] o :=
    fun o ho => claimedRun_quiet hstands (by simp) ho
  unfold claimedAttempt
  simp only [Prog.bind_eq, Prog.pure_eq]
  cases hplan : parseRecoveryPlan (asPlanValue claim.record.pinnedActions) with
  | error e => exact ensures_raise.mpr (hnil _ (by simp))
  | ok plan =>
    simp only [Prog.settle, Prog.bind]
    split
    · exact claimedRun_close hstands (only_finishUnknown _ _ _)
    · cases validatePlanForSession plan claim.record with
      | error e => exact ensures_raise.mpr (hnil _ (by simp))
      | ok _ =>
        simp only [Prog.observe, Prog.bind, ensures_get]
        split
        · split
          · exact claimedRun_close hstands (only_finishUnknown _ _ _)
          · exact ensures_raise.mpr (hnil _ (by simp))
        · rw [ensures_bind]
          refine (executeAttempt_run (corrections_plain hplan)).mono fun t o hrun => ?_
          have hend : ∀ o' : Outcome recovery (Option FlowPointer),
              (∀ next w', o' ≠ .returned (some next) w') → ClaimedRun sysid claim pointer t o' :=
            fun o' ho' => claimedRun_of_attempt hstands hplan hrun
              fun next w' h => absurd h (ho' next w')
          cases o with
          | raised e w' => exact hend _ (by simp)
          | suspended => exact hend _ (by simp)
          | outOfFuel => exact hend _ (by simp)
          | returned result w' =>
            cases result with
            | unknown => simpa [after] using hend _ (by simp)
            | recovered => simpa [after] using hend _ (by simp)
            | failed finished =>
              refine retryPointer_returns ?_ (fun hstatus next hnext => ?_)
              · simpa using hend _ (by simp)
              · rw [List.append_nil]
                refine claimedRun_of_attempt hstands hplan hrun ?_
                rintro next' w'' ⟨⟩
                exact ⟨finished, w', rfl, hstatus, hnext⟩

/-- The law of a whole execution: every attempt is one at the pointer that was read
last before its claim. -/
structure Protocol (sysid : String) (known : Option FlowPointer) (t : List RecoveryEvent) :
    Prop where
  before : Silent sentCommand (prologue claimed t)
  lawful : ∀ claim known' u, (claim, known', u) ∈ attempts sysid known t →
    ∃ pointer, known' = some pointer ∧ AttemptLaw sysid claim pointer u
  retried : (attempts sysid known t).IsChain (fun x _ =>
    ∀ pointer, x.2.1 = some pointer → RetryAllowed sysid x.1 pointer x.2.2)
  stops : StopsAfter sentCommand failedAwait t

theorem protocol_closed (hsent : Silent sentCommand t) (hclosed : ∀ e ∈ t, claimed e = none) :
    Protocol sysid known t where
  before := by rwa [prologue_closed hclosed]
  lawful := by simp [attempts, readings_closed _ _ hclosed]
  retried := by simp [attempts, readings_closed _ _ hclosed]
  stops := hsent.stopsAfter

theorem protocol_quiet (h : ∀ e ∈ t, quietOp e.op) : Protocol sysid known t :=
  protocol_closed (fun e he => sentCommand_quiet (h e he)) fun e he => claimed_quiet (h e he)

/-- The law of a claim, wherever its pointer was read. -/
theorem Protocol.exists_law (h : Protocol sysid known t) {x : Claim × List RecoveryEvent}
    (hx : x ∈ segments claimed t) : ∃ pointer, AttemptLaw sysid x.1 pointer x.2 := by
  rw [← map_readings (pointerSeen sysid) known] at hx
  obtain ⟨⟨claim, known', u⟩, hmem, rfl⟩ := List.mem_map.mp hx
  obtain ⟨pointer, -, hlaw⟩ := h.lawful claim known' u hmem
  exact ⟨pointer, hlaw⟩

/-- A claim shows no pointer. -/
theorem pointerSeen_claimed {e : RecoveryEvent} (he : claimed e = some claim) :
    pointerSeen sysid known e = known := by
  unfold claimed at he
  split at he
  · rfl
  · cases he

/-- One claimed attempt with nothing behind it. -/
theorem protocol_last {e : RecoveryEvent} {o : Outcome recovery (Option FlowPointer)}
    (he : claimed e = some claim) (hraised : e.raised = false)
    (hrun : ClaimedRun sysid claim pointer t o) : Protocol sysid (some pointer) (e :: t) := by
  have hattempts : attempts sysid (some pointer) (e :: t) = [(claim, some pointer, t)] := by
    have hopen := readings_open (pointerSeen sysid) (u := []) (some pointer) he
      hrun.closed
    simpa [attempts, readings, prologue] using hopen
  refine ⟨by simp [prologue, he, Silent], ?_, ?_, ?_⟩
  · rw [hattempts]
    intro claim' known' u hmem
    cases List.mem_singleton.mp hmem
    exact ⟨pointer, rfl, hrun.lawful⟩
  · rw [hattempts]
    exact .singleton _
  · rw [← List.singleton_append]
    refine StopsAfter.append (by simp [failedAwait, hraised]) ?_
    exact fun before e' behind ht hbad => hrun.stops before e' behind ht hbad.1

/-- One claimed attempt in front of the next one. -/
theorem protocol_claim {e : RecoveryEvent} {next : FlowPointer} {w' : World}
    (he : claimed e = some claim) (hraised : e.raised = false)
    (hrun : ClaimedRun sysid claim pointer t (.returned (some next) w'))
    (hu : Protocol sysid (some next) u) : Protocol sysid (some pointer) (e :: (t ++ u)) := by
  obtain ⟨hretry, hcalm, hseen⟩ := hrun.retry next w' rfl
  have hattempts : attempts sysid (some pointer) (e :: (t ++ u)) =
      (claim, some pointer, t ++ prologue claimed u) :: attempts sysid (some next) u := by
    have hopen := readings_open (pointerSeen sysid) (u := u) (some pointer) he
      hrun.closed
    rwa [pointerSeen_claimed he, hseen] at hopen
  refine ⟨by simp [prologue, he, Silent], ?_, ?_, ?_⟩
  · rw [hattempts]
    intro claim' known' u' hmem
    rcases List.mem_cons.mp hmem with hfirst | hrest
    · cases hfirst
      exact ⟨pointer, rfl, hrun.lawful.append_silent hu.before⟩
    · exact hu.lawful claim' known' u' hrest
  · rw [hattempts]
    cases hrest : attempts sysid (some next) u with
    | nil => exact .singleton _
    | cons x rest =>
      refine .cons_cons ?_ (hrest ▸ hu.retried)
      rintro pointer' ⟨⟩
      exact hretry.append_silent hu.before
  · rw [← List.singleton_append]
    refine StopsAfter.append (by simp [failedAwait, hraised]) ?_
    exact StopsAfter.append (fun e' he' hbad => by simp [failedAwait, hcalm e' he'] at hbad)
      hu.stops

theorem only_closeMalformedClaim (recoverySessionId failureId : String) (row : Fields)
    (e : PyExc) : (closeMalformedClaim recoverySessionId failureId row e).Only quietOp := by
  unfold closeMalformedClaim
  split
  · split
    · exact .bind (.call trivial) fun _ => trivial
    · trivial
  · trivial

theorem only_afterClaim_malformed (recoverySessionId failureId : String) (pointer : FlowPointer)
    {row : Fields} {e : PyExc} (hparse : parseRecoverySession row true = .error e) :
    (afterClaim c sysid recoverySessionId failureId pointer row).Only quietOp := by
  unfold afterClaim
  simp only [hparse, Prog.bind_eq, Prog.pure_eq]
  split
  · exact .bind (only_closeMalformedClaim _ _ _ _) fun _ => trivial
  · trivial

/-- A claim whose row does not parse is the last one. -/
theorem afterClaim_malformed_ends (recoverySessionId failureId : String) (pointer : FlowPointer)
    {row : Fields} {e : PyExc} (hparse : parseRecoverySession row true = .error e) :
    Ensures env (afterClaim c sysid recoverySessionId failureId pointer row) w
      (Returns fun next _ => next = none) := by
  unfold afterClaim
  simp only [hparse, Prog.bind_eq, Prog.pure_eq]
  split
  · exact returns_bind (fun _ _ => returns_ret rfl) (fun _ _ _ h => h)
  · exact returns_raise

/-- A claim that was answered, with what follows it. -/
theorem afterClaim_protocol {recoverySessionId failureId : String} {lease : ℤ}
    {pointer : FlowPointer} {row : Fields} {w' : World}
    {rest : Option FlowPointer → Recovery Unit}
    (hstands : StandsAt (w.robots sysid) pointer) (hnone : rest none = .ret ())
    (hrest : ∀ next w'', Ensures env (rest (some next)) w''
      (fun t _ => Protocol sysid (some next) t)) :
    Ensures env ((afterClaim c sysid recoverySessionId failureId pointer row).bind rest) w'
      (fun t _ => Protocol sysid (some pointer)
        (⟨w, .claim failureId recoverySessionId lease, some (.ok row, w')⟩ :: t)) := by
  rw [ensures_bind]
  cases hparse : parseRecoverySession row true with
  | error e =>
    refine ((only_afterClaim_malformed recoverySessionId failureId pointer hparse).ensures.and
      (afterClaim_malformed_ends recoverySessionId failureId pointer hparse)).mono
      fun t o ho => ?_
    have hclosed : Protocol sysid (some pointer)
        (⟨w, .claim failureId recoverySessionId lease, some (.ok row, w')⟩ :: t) := by
      refine protocol_closed ?_ ?_
      · exact List.forall_mem_cons.mpr ⟨rfl, fun e he => sentCommand_quiet (ho.1 e he)⟩
      · refine List.forall_mem_cons.mpr ⟨?_, fun e he => claimed_quiet (ho.1 e he)⟩
        simp [claimed, hparse]
    cases o with
    | returned next w'' =>
      rw [ho.2 next w'' rfl, after, hnone]
      simpa using hclosed
    | raised e w'' => exact hclosed
    | suspended => exact hclosed
    | outOfFuel => exact hclosed
  | ok record =>
    have hclaim : claimed ⟨w, .claim failureId recoverySessionId lease, some (.ok row, w')⟩ =
        some ⟨recoverySessionId, record, w⟩ := by
      simp [claimed, hparse]
    have hafter : Ensures env (afterClaim c sysid recoverySessionId failureId pointer row) w'
        (ClaimedRun sysid ⟨recoverySessionId, record, w⟩ pointer) := by
      unfold afterClaim
      simp only [hparse]
      exact claimedAttempt_run ⟨recoverySessionId, record, w⟩ hstands
    refine hafter.mono fun t o hrun => ?_
    have hend := protocol_last hclaim rfl hrun
    cases o with
    | raised e w'' => exact hend
    | suspended => exact hend
    | outOfFuel => exact hend
    | returned next w'' =>
      cases next with
      | none =>
        rw [after, hnone]
        simpa using hend
      | some next =>
        refine (hrest next w'').mono fun u o' hu => ?_
        exact protocol_claim hclaim rfl hrun hu

/-- The induction is on the attempts this call may still make. -/
theorem attemptLoop_protocol (recoverySessionId : String) (plan : RecoveryPlan) (ref fuel : ℕ)
    (pointer : FlowPointer) :
    Ensures env (attemptLoop c sysid recoverySessionId plan ref fuel pointer) w
      (fun t _ => Protocol sysid (some pointer) t) := by
  induction fuel generalizing pointer w with
  | zero => exact ensures_halt.mpr (protocol_quiet (by simp))
  | succ fuel ih =>
    rw [attemptLoop]
    simp only [Prog.bind_eq, Prog.pure_eq, Prog.observe, Prog.bind, ensures_get]
    split
    · exact ensures_ret.mpr (protocol_quiet (by simp))
    rw [ensures_bind, ensures_requireLive]
    refine ⟨fun frame hlive => ?_, fun e _ => protocol_quiet (by simp)⟩
    have hstands := (requireLiveExecutionState_ok hlive).1
    simp only [after, List.nil_append]
    rw [ensures_bind, ensures_call]
    have hpending : ∀ reply, (reply = none ∨ ∃ e w', reply = some (.error e, w')) →
        Protocol sysid (some pointer) [⟨w, .claim (currentFailureId w ref) recoverySessionId
          c.settings.leaseSeconds, reply⟩] := by
      rintro reply (rfl | ⟨e, w', rfl⟩) <;>
        exact protocol_closed (by simp [Silent, sentCommand]) (by simp [claimed])
    refine ⟨hpending _ (.inl rfl), fun row w' _ => ?_,
      fun e w' _ => hpending _ (.inr ⟨e, w', rfl⟩)⟩
    exact afterClaim_protocol hstands rfl fun next w'' => ih next

end Loop

section Target

variable {c : Coordinator} {w : World} {env : Environment recovery} {sysid : String}
  {known : Option FlowPointer} {allowed : Op → Prop} {α β : Type}

/-- A part before the first claim: it makes allowed calls only, and it goes on only
when no await failed. -/
structure Preparatory (allowed : Op → Prop) (p : Recovery α) : Prop where
  only : p.Only allowed
  calm : ∀ env w, Ensures env p w (Returns fun _ t => ∀ e ∈ t, ¬ failedAwait e)

theorem Preparatory.ret (a : α) : Preparatory allowed (.ret a : Recovery α) :=
  ⟨trivial, fun _ _ => returns_ret (by simp)⟩

theorem Preparatory.raise (e : PyExc) : Preparatory allowed (.raise e : Recovery α) :=
  ⟨trivial, fun _ _ => returns_raise⟩

theorem Preparatory.settle (r : Except PyExc α) :
    Preparatory allowed (Prog.settle (σ := recovery) r) :=
  ⟨Prog.Only.settle (σ := recovery) r, fun _ _ => returns_settle (by simp)⟩

theorem Preparatory.call {op : Op} (h : allowed op) :
    Preparatory allowed (Prog.call (σ := recovery) op) :=
  ⟨.call h, fun _ _ => returns_call (by simp [failedAwait, Event.raised])⟩

theorem Preparatory.bind {p : Recovery α} {f : α → Recovery β} (hp : Preparatory allowed p)
    (hf : ∀ a, Preparatory allowed (f a)) : Preparatory allowed (p.bind f) :=
  ⟨.bind hp.only fun a => (hf a).only, fun env w =>
    returns_bind_all (hp.calm env w) fun a w' => (hf a).calm env w'⟩

theorem Preparatory.get {k : World → Recovery α} (hk : ∀ w, Preparatory allowed (k w)) :
    Preparatory allowed (.get k : Recovery α) :=
  ⟨fun w => (hk w).only, fun env w => ensures_get.mpr ((hk w).calm env w)⟩

def plainOp : Op → Prop
  | .waitConnected .. => False
  | .waitForFlow .. => False
  | .finish .. => False
  | op => quietOp op

theorem quietOp_plain {op : Op} (h : plainOp op) : quietOp op := by
  cases op <;> trivial

theorem pointerSeen_plain {e : RecoveryEvent} (h : plainOp e.op) :
    pointerSeen sysid known e = known := by
  unfold pointerSeen
  split
  · exact h.elim
  · exact h.elim
  · exact h.elim
  · rfl

theorem Preparatory.quiet {p : Recovery α} (h : Preparatory plainOp p) : Preparatory quietOp p :=
  ⟨h.only.mono fun _ => quietOp_plain, h.calm⟩

theorem preparatory_requiredDatabase : Preparatory allowed requiredDatabase := by
  refine .get fun w => ?_
  split
  · exact .ret ()
  · exact .raise _

theorem preparatory_requireLive (sysid : String) (pointer : FlowPointer)
    (plan : RecoveryPlan) : Preparatory allowed (requireLive sysid pointer plan) := by
  refine .get fun w => ?_
  split
  · exact .ret ()
  · exact .raise _

theorem preparatory_awaitPaused (target : FailureRecoveryTarget) (generation revision : ℕ) :
    Preparatory quietOp (freshPausedPointer.awaitPaused c target generation revision) := by
  unfold freshPausedPointer.awaitPaused
  simp only [Prog.bind_eq, Prog.pure_eq]
  refine .bind (.call trivial) fun frame => ?_
  split
  · split
    · exact .ret _
    · exact .raise _
  · exact .raise _

theorem preparatory_freshPausedPointer (target : FailureRecoveryTarget) :
    Preparatory quietOp (freshPausedPointer c target) := by
  unfold freshPausedPointer
  simp only [Prog.bind_eq, Prog.pure_eq]
  refine .bind (.call trivial) fun _ => ?_
  refine .bind (.get fun w => .ret w) fun w => ?_
  split
  · split
    · exact .ret _
    · exact preparatory_awaitPaused _ _ _
  · exact preparatory_awaitPaused _ _ _

theorem preparatory_preparedSession (target : FailureRecoveryTarget) (pointer : FlowPointer)
    (newSessionId : String) :
    Preparatory plainOp (preparedSession c target pointer newSessionId) := by
  unfold preparedSession
  simp only [Prog.bind_eq, Prog.pure_eq]
  split
  · refine .bind (.settle _) fun plan => ?_
    refine .bind (preparatory_requireLive _ _ _) fun _ => ?_
    refine .bind (.call trivial) fun row => ?_
    exact .bind (.settle _) fun prepared => .ret _
  · refine .bind (.call trivial) fun row => ?_
    exact .bind (.settle _) fun prepared => .ret _

/-- The grace timer may end with a timeout, which the program expects. -/
theorem preparatory_graceWait (seconds : ℚ) :
    Preparatory plainOp ((Prog.call (σ := recovery) (.graceWait seconds)).tryCatch fun e =>
      if e.cls = .timeout then .ret () else .raise e) := by
  refine ⟨.tryCatch (.call trivial) fun e => ?_, fun env w => ?_⟩
  · split <;> trivial
  · have hexpected : ∀ reply, ¬ failedAwait ⟨w, .graceWait seconds, reply⟩ :=
      fun reply h => h.2 seconds rfl
    rw [ensures_tryCatch, ensures_call]
    refine ⟨fun a w' h => (by cases h), fun a w' _ b w'' _ => by simpa using hexpected _,
      fun e w' _ => ?_⟩
    dsimp only
    split
    · rw [ensures_ret]
      exact fun b w'' _ => by simpa using hexpected _
    · rw [ensures_raise]
      exact fun b w'' h => by cases h

theorem preparatory_graceWindow (recoverySessionId : String) :
    Preparatory plainOp (graceWindow c recoverySessionId) := by
  unfold graceWindow
  simp only [Prog.bind_eq, Prog.pure_eq]
  split
  · exact .ret true
  · refine .bind (preparatory_graceWait _) fun _ => ?_
    refine .bind (.get fun w => .ret w) fun w => ?_
    split
    · exact .ret false
    · refine .bind (.call trivial) fun row => ?_
      exact .bind (.settle _) fun graced => .ret _

/-- The pointer an execution starts with is the one it has read. -/
theorem freshPausedPointer_seen (target : FailureRecoveryTarget) :
    Ensures env (freshPausedPointer c target) w (Returns fun pointer t =>
      t.foldl (pointerSeen target.sysid) known = some pointer) := by
  have hawait : ∀ before w' generation revision,
      Ensures env (freshPausedPointer.awaitPaused c target generation revision) w'
        (Returns fun pointer t =>
          (before ++ t).foldl (pointerSeen target.sysid) known = some pointer) := by
    intro before w' generation revision
    unfold freshPausedPointer.awaitPaused
    simp only [Prog.bind_eq, Prog.pure_eq]
    rw [ensures_bind, ensures_call]
    refine ⟨fun _ _ h => (by cases h), fun frame w'' _ => ?_, fun e w'' _ _ _ h => (by cases h)⟩
    simp only [after]
    split
    · split
      · rw [ensures_ret]
        rintro pointer last ⟨⟩
        simp [pointerSeen]
      · exact returns_raise
    · exact returns_raise
  unfold freshPausedPointer
  simp only [Prog.bind_eq, Prog.pure_eq]
  rw [ensures_bind, ensures_call]
  refine ⟨fun _ _ h => (by cases h), fun _ w' _ => ?_, fun e w' _ _ _ h => (by cases h)⟩
  simp only [after, Prog.observe, Prog.bind, ensures_get]
  split
  · next latest hlatest =>
    split
    · rw [ensures_ret]
      rintro pointer w'' ⟨⟩
      simpa [pointerSeen] using (Option.filter_eq_some_iff.mp hlatest).1
    · exact hawait _ w' _ _
  · exact hawait _ w' _ _

theorem protocol_prepend {t u : List RecoveryEvent} (ht : ∀ e ∈ t, quietOp e.op)
    (hcalm : ∀ e ∈ t, ¬ failedAwait e)
    (hu : Protocol sysid (t.foldl (pointerSeen sysid) known) u) :
    Protocol sysid known (t ++ u) := by
  have hclosed : ∀ e ∈ t, claimed e = none := fun e he => claimed_quiet (ht e he)
  have hattempts : attempts sysid known (t ++ u) =
      attempts sysid (t.foldl (pointerSeen sysid) known) u :=
    readings_append_closed _ known hclosed
  refine ⟨?_, ?_, ?_, .append hcalm hu.stops⟩
  · rw [prologue_append_closed hclosed]
    exact silent_append.mpr ⟨fun e he => sentCommand_quiet (ht e he), hu.before⟩
  · rw [hattempts]
    exact hu.lawful
  · rw [hattempts]
    exact hu.retried

/-- A part before the first claim, with the pointer it has read when it returns. -/
theorem protocol_bind_seen {p : Recovery α} {f : α → Recovery β}
    {seen : α → Option FlowPointer} (hp : Preparatory quietOp p)
    (hseen : Ensures env p w (Returns fun a t => t.foldl (pointerSeen sysid) known = seen a))
    (hf : ∀ a w', Ensures env (f a) w' (fun t _ => Protocol sysid (seen a) t)) :
    Ensures env (p.bind f) w (fun t _ => Protocol sysid known t) := by
  rw [ensures_bind]
  refine ((hp.only.ensures.and (hp.calm env w)).and hseen).mono fun t o ho => ?_
  cases o with
  | returned a w' =>
    refine (hf a w').mono fun u o' hu => protocol_prepend ho.1.1 (ho.1.2 a w' rfl) ?_
    rwa [ho.2 a w' rfl]
  | raised e w' => exact protocol_quiet ho.1.1
  | suspended => exact protocol_quiet ho.1.1
  | outOfFuel => exact protocol_quiet ho.1.1

theorem protocol_bind {p : Recovery α} {f : α → Recovery β} (hp : Preparatory plainOp p)
    (hf : ∀ a w', Ensures env (f a) w' (fun t _ => Protocol sysid known t)) :
    Ensures env (p.bind f) w (fun t _ => Protocol sysid known t) := by
  refine protocol_bind_seen hp.quiet (hp.only.ensures.mono fun t o ht a w' _ => ?_) hf
  induction t with
  | nil => rfl
  | cons e t ih =>
    rw [List.foldl_cons, pointerSeen_plain (ht e (List.mem_cons_self ..))]
    exact ih fun e' he' => ht e' (List.mem_cons_of_mem _ he')

theorem runSession_protocol (fuel : ℕ) (target : FailureRecoveryTarget) (pointer : FlowPointer)
    (recoverySessionId : String) (plan : RecoveryPlan) :
    Ensures env (runSession c fuel target pointer recoverySessionId plan) w
      (fun t _ => Protocol target.sysid (some pointer) t) := by
  unfold runSession
  rw [ensures_get, ensures_set, ensures_tryFinally]
  refine (attemptLoop_protocol recoverySessionId plan _ fuel pointer).mono fun t o ho => ?_
  cases o <;> exact ho

theorem executeTarget_protocol (known : Option FlowPointer) (fuel : ℕ)
    (target : FailureRecoveryTarget) (newSessionId : String) :
    Ensures env (executeTarget c fuel target newSessionId) w
      (fun t _ => Protocol target.sysid known t) := by
  unfold executeTarget
  simp only [Prog.bind_eq, Prog.pure_eq]
  refine protocol_bind preparatory_requiredDatabase fun _ w => ?_
  split
  · exact ensures_raise.mpr (protocol_quiet (by simp))
  refine protocol_bind_seen (preparatory_freshPausedPointer target)
    (freshPausedPointer_seen target) fun pointer w => ?_
  refine protocol_bind (.call trivial) fun _ w => ?_
  refine protocol_bind (preparatory_preparedSession target pointer newSessionId) fun x w => ?_
  obtain ⟨recoverySessionId, prepared⟩ := x
  dsimp only
  split
  · exact ensures_ret.mpr (protocol_quiet (by simp))
  refine protocol_bind (.settle _) fun plan w => ?_
  refine protocol_bind (preparatory_requireLive _ _ _) fun _ w => ?_
  refine protocol_bind (.settle _) fun required w => ?_
  split
  · exact ensures_raise.mpr (protocol_quiet (by simp))
  refine protocol_bind (preparatory_graceWindow recoverySessionId) fun go w => ?_
  split
  · exact runSession_protocol fuel target pointer recoverySessionId plan
  · exact ensures_ret.mpr (protocol_quiet (by simp))

end Target

end FailureResolver.CommandProtocol
