import FailureResolver.AttemptVerdict

/-!
Closing a claimed attempt. A claim has spent a durable attempt, so it has to be
finished before the execution ends. It is, in every run whose steps meet four
conditions: the claimed row pins a plan for its own session, the database stays
set, the robot fails only in the ways the handlers know, and the live check
raises nothing outside the recovery contract.
-/

namespace FailureResolver.AttemptClosure

open Program JsonValue PyException LiveFlow RecoveryContract ActionPlan PlanValidation
open CommandSchema FlowOutcome RecoveryCoordinator CommandProtocol AttemptVerdict

section Property

/-- The run token of a claim that was answered for its own session. -/
def claimedToken (e : RecoveryEvent) : Option String :=
  match e with
  | ⟨_, .claim _ sessionId _, some (.ok row, _)⟩ =>
      if uuidText (Fields.get row "recovery_session_id") = some sessionId then
        uuidText (Fields.get row "recovery_run_token")
      else none
  | _ => none

def finishes (runToken : String) (e : RecoveryEvent) : Prop :=
  ∃ failureId sessionId result message,
    e.op = .finish failureId sessionId runToken result message ∧ result ≠ .awaitingOutcome

/-- Every claim is followed by a terminal finish for its run token. -/
def Closed (t : List RecoveryEvent) : Prop :=
  ∀ before e behind runToken, t = before ++ e :: behind → claimedToken e = some runToken →
    ∃ e' ∈ behind, finishes runToken e'

def Ended {α : Type} (o : Outcome recovery α) : Prop :=
  (∃ a w, o = .returned a w) ∨ ∃ e w, o = .raised e w

theorem not_ended_suspended {α : Type} : ¬ Ended (.suspended : Outcome recovery α) := by
  simp [Ended]

theorem not_ended_outOfFuel {α : Type} : ¬ Ended (.outOfFuel : Outcome recovery α) := by
  simp [Ended]

/-- No await was cancelled, and every finish returned normally. -/
def Undisturbed (t : List RecoveryEvent) : Prop :=
  ∀ e ∈ t, ∀ x w, e.reply = some (.error x, w) →
    x.cls ≠ .cancelled ∧ finishResult e = none

end Property

section Condition

/-- The live check of the plan raises no error outside the contract here. -/
def checkable (plan : RecoveryPlan) (robot : RobotView) : Prop :=
  ∀ frame, robot.latestCommandsFrame = some frame →
    ContractOnly (validateCorrectionsAgainstCommands plan.corrections frame frame.generation)

/-- A step of an attempt that can still be closed: the database is set and the
plan checkable afterwards, and a robot that fails does so in a handled way. -/
def closableStep (sysid : String) (plan : RecoveryPlan) : Environment recovery :=
  fun _ op r w =>
    w.databaseSet = true ∧ checkable plan (w.robots sysid) ∧
      match op, r with
      | .requestCommand .., .error e => isHandled e = true
      | .waitForFlow .., .error e => isHandled e = true
      | _, _ => True

/-- A claimed row whose plan is for its own session, up to the rewind setting. -/
def closablePlan (record : RecoverySessionRecord) (plan : RecoveryPlan) : Prop :=
  parseRecoveryPlan (asPlanValue record.pinnedActions) = .ok plan ∧
    (plan.rewindSteps = record.recoveryRewindSteps →
      validatePlanForSession plan record = .ok ())

/-- The attempt of this record is not finished by this await. -/
def Unfinished (record : RecoverySessionRecord) (e : RecoveryEvent) : Prop :=
  ∀ runToken, record.recoveryRunToken = some runToken → ¬ finishes runToken e

/-- From every claim whose row parsed on, the steps of the attempt can still be
closed, until it is finished. -/
def Closable (sysid : String) (t : List RecoveryEvent) : Prop :=
  ∀ before e behind claim, t = before ++ e :: behind → claimed e = some claim →
    ∃ plan, closablePlan claim.record plan ∧
      ∀ mid rest, e :: behind = mid ++ rest → (∀ e' ∈ mid, Unfinished claim.record e') →
        ∀ e' ∈ mid, ∀ r w, e'.reply = some (r, w) → closableStep sysid plan e'.before e'.op r w

variable {sysid : String} {t u : List RecoveryEvent}

theorem Closable.right (h : Closable sysid (t ++ u)) : Closable sysid u := by
  intro before e behind claim hu hclaim
  exact h (t ++ before) e behind claim (by simp [hu]) hclaim

theorem Closable.left (h : Closable sysid (t ++ u)) : Closable sysid t := by
  intro before e behind claim ht hclaim
  obtain ⟨plan, hplan, hsteps⟩ := h before e (behind ++ u) claim (by simp [ht]) hclaim
  exact ⟨plan, hplan, fun mid rest hmid => hsteps mid (rest ++ u) (by
    rw [← List.append_assoc, ← hmid, List.cons_append])⟩

theorem Undisturbed.left (h : Undisturbed (t ++ u)) : Undisturbed t :=
  fun e he => h e (List.mem_append_left u he)

theorem Undisturbed.right (h : Undisturbed (t ++ u)) : Undisturbed u :=
  fun e he => h e (List.mem_append_right t he)

theorem closed_of_none (h : ∀ e ∈ t, claimedToken e = none) : Closed t := by
  intro before e behind runToken ht htoken
  rw [h e (by simp [ht])] at htoken
  cases htoken

theorem Closed.append (ht : ∀ e ∈ t, claimedToken e = none) (hu : Closed u) :
    Closed (t ++ u) := by
  intro before e behind runToken hsplit htoken
  rcases TraceLaws.append_split hsplit with ⟨mid, hmid, -⟩ | ⟨mid, -, hmid⟩
  · rw [ht e (by simp [hmid])] at htoken
    cases htoken
  · exact hu mid e behind runToken hmid htoken

/-- A claim that is closed before anything else is claimed. -/
theorem Closed.claim {e : RecoveryEvent}
    (hclosed : ∀ runToken, claimedToken e = some runToken → ∃ e' ∈ t, finishes runToken e')
    (ht : ∀ e ∈ t, claimedToken e = none) (hu : Closed u) : Closed (e :: (t ++ u)) := by
  intro before e' behind runToken hsplit htoken
  cases before with
  | nil =>
    obtain ⟨rfl, rfl⟩ := List.cons.inj hsplit
    obtain ⟨e'', he'', hfinishes⟩ := hclosed runToken htoken
    exact ⟨e'', List.mem_append_left u he'', hfinishes⟩
  | cons x before =>
    exact Closed.append ht hu before e' behind runToken (List.cons.inj hsplit).2 htoken

end Condition

section Attempt

variable {c : Coordinator} {w : World}

def attemptStep (sysid : String) (plan : RecoveryPlan) : Environment recovery :=
  fun w op r w' => closableStep sysid plan w op r w' ∧
    ∀ x, r = .error x → x.cls ≠ .cancelled ∧ finishResult ⟨w, op, some (r, w')⟩ = none

def Ready (sysid : String) (plan : RecoveryPlan) (w : World) : Prop :=
  w.databaseSet = true ∧ checkable plan (w.robots sysid)

/-- How a part of an attempt ends: it has called a terminal finish, or raises
what a handler closes, or returns in a state of this kind. -/
def ClosesOr {α : Type} (runToken : String) (returns : World → Prop) (t : List RecoveryEvent)
    (o : Outcome recovery α) : Prop :=
  (∃ e ∈ t, finishes runToken e) ∨
    match o with
    | .returned _ w => returns w
    | .raised e w => isHandled e = true ∧ w.databaseSet = true
    | _ => True

variable {sysid runToken : String} {plan : RecoveryPlan} {returns : World → Prop} {α β : Type}

theorem isHandled_contract {e : PyExc} (h : e.isContract = true) : isHandled e = true := by
  simp [isHandled, h]

theorem closesOr_bind {p : Recovery α} {f : α → Recovery β}
    (hp : Ensures (attemptStep sysid plan) p w (ClosesOr runToken (Ready sysid plan)))
    (hf : ∀ a w', Ready sysid plan w' →
      Ensures (attemptStep sysid plan) (f a) w' (ClosesOr runToken returns)) :
    Ensures (attemptStep sysid plan) (p.bind f) w (ClosesOr runToken returns) := by
  rw [ensures_bind]
  refine hp.mono fun t o ho => ?_
  cases o with
  | returned a w' =>
    rcases ho with ⟨e, he, hfinishes⟩ | hready
    · exact fun u o' _ => .inl ⟨e, List.mem_append_left u he, hfinishes⟩
    · refine (hf a w' hready).mono fun u o' hu => ?_
      rcases hu with ⟨e, he, hfinishes⟩ | hend
      · exact .inl ⟨e, List.mem_append_right t he, hfinishes⟩
      · exact .inr hend
  | raised e w' => exact ho
  | suspended => exact ho
  | outOfFuel => exact ho

/-- A first part that calls a terminal finish closes, whatever comes behind it. -/
theorem closes_bind {env : Environment recovery} {p : Recovery α} {f : α → Recovery β}
    (hp : Ensures env p w (fun t _ => ∃ e ∈ t, finishes runToken e)) :
    Ensures env (p.bind f) w (fun t _ => ∃ e ∈ t, finishes runToken e) := by
  rw [ensures_bind]
  refine hp.mono fun t o ho => ?_
  obtain ⟨e, he, hfinishes⟩ := ho
  cases o with
  | returned a w' => exact fun u o' _ => ⟨e, List.mem_append_left u he, hfinishes⟩
  | raised x w' => exact ⟨e, he, hfinishes⟩
  | suspended => exact ⟨e, he, hfinishes⟩
  | outOfFuel => exact ⟨e, he, hfinishes⟩

theorem closesOr_settle {x : Except PyExc α} (hx : ContractOnly x) (h : Ready sysid plan w) :
    Ensures (attemptStep sysid plan) (Prog.settle (σ := recovery) x) w
      (ClosesOr runToken (Ready sysid plan)) := by
  cases x with
  | ok a =>
    rw [ensures_settle_ok]
    exact .inr h
  | error e =>
    rw [ensures_settle_error]
    exact .inr ⟨isHandled_contract (hx e rfl), h.1⟩

theorem closesOr_raise {message : String} (h : Ready sysid plan w) :
    Ensures (attemptStep sysid plan) (.raise (contractError message) : Recovery α) w
      (ClosesOr runToken returns) := by
  rw [ensures_raise]
  exact .inr ⟨rfl, h.1⟩

/-- An await whose failures are handled leaves a state to go on in. -/
theorem closesOr_call {op : Op}
    (hfails : ∀ w x w', attemptStep sysid plan w op (.error x) w' → isHandled x = true) :
    Ensures (attemptStep sysid plan) (Prog.call (σ := recovery) op) w
      (ClosesOr runToken (Ready sysid plan)) := by
  rw [ensures_call]
  refine ⟨.inr trivial, fun a w' hstep => .inr ⟨hstep.1.1, hstep.1.2.1⟩, fun x w' hstep => ?_⟩
  exact .inr ⟨hfails w x w' hstep, hstep.1.1⟩

/-- A terminal finish closes whatever it ends with. -/
theorem closes_finish {env : Environment recovery} {failureId sessionId message : String}
    {result : FinishResult} (hresult : result ≠ .awaitingOutcome) :
    Ensures env
      (Prog.call (σ := recovery) (.finish failureId sessionId runToken result message)) w
      (fun t _ => ∃ e ∈ t, finishes runToken e) := by
  have hcalled : ∀ reply, ∃ e ∈ ([⟨w, .finish failureId sessionId runToken result message,
      reply⟩] : List RecoveryEvent), finishes runToken e :=
    fun reply => ⟨_, List.mem_singleton_self _, failureId, sessionId, result, message, rfl,
      hresult⟩
  rw [ensures_call]
  exact ⟨hcalled _, fun _ _ _ => hcalled _, fun _ _ _ => hcalled _⟩

theorem closes_finishUnknown {claimed : RecoverySessionRecord} {failureId message : String}
    (htoken : claimed.recoveryRunToken = some runToken) (h : w.databaseSet = true) :
    Ensures (attemptStep sysid plan) (finishUnknown claimed failureId message) w
      (fun t _ => ∃ e ∈ t, finishes runToken e) := by
  unfold finishUnknown
  simp only [htoken, Prog.bind_eq, Prog.pure_eq]
  rw [ensures_bind, ensures_requiredDatabase, if_pos h]
  simp only [after, List.nil_append]
  exact closes_bind (closes_finish (by decide))

/-- Comparing the plan with a ready robot raises only contract errors. -/
theorem contractOnly_requireLive {robot : RobotView} {pointer : FlowPointer}
    (h : checkable plan robot) : ContractOnly (requireLiveExecutionState robot pointer plan) := by
  intro e he
  unfold requireLiveExecutionState at he
  cases hlatest : robot.latestFlow with
  | none =>
    simp only [hlatest, Except.error.injEq] at he
    rw [← he]
    rfl
  | some latest =>
    simp only [hlatest] at he
    split at he
    · cases he
      rfl
    · cases hframe : robot.latestCommandsFrame with
      | none =>
        simp only [hframe, Except.error.injEq] at he
        rw [← he]
        rfl
      | some frame =>
        simp only [hframe] at he
        split at he
        · cases he
          rfl
        · next hgeneration =>
          have hchecks := h frame hframe
          simp only [ne_eq, not_not] at hgeneration
          rw [hgeneration] at hchecks
          have hcontract : ContractOnly (do
              validatePlanForFlow plan latest
              validateCorrectionsAgainstCommands plan.corrections frame pointer.generation) :=
            .bind (contractOnly_validatePlanForFlow plan latest) fun _ _ => hchecks
          exact ContractOnly.bind hcontract.nonExecutable (fun _ _ => contractOnly_ok frame) e he

/-- A plan that passes the live check is for a step of the Flow. -/
theorem requireLive_step {robot : RobotView} {pointer : FlowPointer} {frame : CommandsFrame}
    (h : requireLiveExecutionState robot pointer plan = .ok frame) :
    ∃ index, pointer.actionIndex = some index := by
  obtain ⟨latest, hlatest, hsame, -, -, hflow, -⟩ := requireLiveExecutionState_eq_ok h
  obtain ⟨latest', hlatest', -, -, -, -, hindex, -⟩ := (samePointer_standsAt hlatest hsame).latest
  rw [hlatest] at hlatest'
  cases hlatest'
  obtain ⟨index, hstep⟩ := validatePlanForFlow_step hflow
  exact ⟨index, by rw [← hindex, hstep]⟩

variable {pointer : FlowPointer} {claimed : RecoverySessionRecord} {failureId : String}

/-- A command behind the live check, with a check of its acknowledgement. -/
theorem closesOr_command {command : String} {arguments : Fields}
    {check : CommandReceipt → Recovery α} (h : Ready sysid plan w)
    (hcheck : ∀ receipt w' index, Ready sysid plan w' → pointer.actionIndex = some index →
      Ensures (attemptStep sysid plan) (check receipt) w' (ClosesOr runToken returns)) :
    Ensures (attemptStep sysid plan) ((requireLive sysid pointer plan).bind fun _ =>
      (Prog.call (σ := recovery) (.requestCommand sysid command arguments
        c.settings.commandTimeoutSeconds)).bind check) w (ClosesOr runToken returns) := by
  rw [ensures_bind, ensures_requireLive]
  refine ⟨fun frame hlive => ?_, fun e he => ?_⟩
  · obtain ⟨index, hindex⟩ := requireLive_step hlive
    refine closesOr_bind (closesOr_call fun _ x w' hstep => hstep.1.2.2) fun receipt w' hw' => ?_
    exact hcheck receipt w' index hw' hindex
  · exact .inr ⟨isHandled_contract (contractOnly_requireLive h.2 e he), h.1⟩

theorem closesOr_correction (action : RecoveryAction) (h : Ready sysid plan w) :
    Ensures (attemptStep sysid plan)
      (sendCorrection c ⟨sysid, failureId, claimed, plan, pointer⟩ action) w
      (ClosesOr runToken (Ready sysid plan)) := by
  refine closesOr_command h fun receipt w' index hw' hindex => ?_
  split
  · exact closesOr_raise hw'
  · exact ensures_ret.mpr (.inr hw')

theorem closesOr_resume (h : Ready sysid plan w) :
    Ensures (attemptStep sysid plan)
      (sendResume c ⟨sysid, failureId, claimed, plan, pointer⟩) w
      (ClosesOr runToken (Ready sysid plan)) := by
  unfold sendResume
  simp only [Prog.bind_eq, Prog.pure_eq]
  cases harguments : resumeArgumentsForPlan plan pointer with
  | error e =>
    rw [ensures_bind, ensures_requireLive]
    refine ⟨fun frame _ => ?_, fun e he => ?_⟩
    · have hcontract := contractOnly_resumeArgumentsForPlan plan pointer e harguments
      exact ensures_raise.mpr (.inr ⟨isHandled_contract hcontract, h.1⟩)
    · exact .inr ⟨isHandled_contract (contractOnly_requireLive h.2 e he), h.1⟩
  | ok arguments =>
    refine closesOr_command h fun receipt w' index hw' hindex => ?_
    split
    · exact closesOr_raise hw'
    · refine closesOr_bind (closesOr_settle ?_ hw') fun _ w'' hw'' => ?_
      · exact contractOnly_validateResumeAcknowledgement _ hindex _ _
      · exact ensures_ret.mpr (.inr hw'')

theorem closesOr_corrections (actions : List RecoveryAction) (h : Ready sysid plan w) :
    Ensures (attemptStep sysid plan)
      (Prog.forEach (sendCorrection c ⟨sysid, failureId, claimed, plan, pointer⟩) actions) w
      (ClosesOr runToken (Ready sysid plan)) := by
  induction actions generalizing w with
  | nil => exact ensures_ret.mpr (.inr h)
  | cons action rest ih =>
    exact closesOr_bind (closesOr_correction action h) fun _ w' hw' => ih hw'

/-- The conclusion always calls a terminal finish. -/
theorem closes_conclude (htoken : claimed.recoveryRunToken = some runToken)
    (outcome : Option FlowPointer) (h : w.databaseSet = true) :
    Ensures (attemptStep sysid plan)
      (concludeAttempt ⟨sysid, failureId, claimed, plan, pointer⟩ runToken outcome) w
      (fun t _ => ∃ e ∈ t, finishes runToken e) := by
  unfold concludeAttempt finishVerdict
  simp only [Prog.bind_eq, Prog.pure_eq]
  split
  · exact closes_bind (closes_bind (closes_finish (by decide)))
  · exact closes_bind (closes_bind (closes_finish (by decide)))
  · exact closes_bind (closes_finishUnknown htoken h)

theorem closesOr_body (htoken : claimed.recoveryRunToken = some runToken)
    (h : Ready sysid plan w) :
    Ensures (attemptStep sysid plan)
      (attemptBody c ⟨sysid, failureId, claimed, plan, pointer⟩ runToken) w
      (ClosesOr runToken fun _ => False) := by
  unfold attemptBody
  simp only [Prog.bind_eq]
  refine closesOr_bind (closesOr_corrections _ h) fun _ w hw => ?_
  refine closesOr_bind (closesOr_resume hw) fun receipt w hw => ?_
  refine closesOr_bind (closesOr_call fun w x w' hstep => ?_) fun _ w hw => ?_
  · exact absurd (hstep.2 x rfl).2 (by simp [finishResult])
  refine closesOr_bind (closesOr_call fun w x w' hstep => hstep.1.2.2) fun outcome w hw => ?_
  exact (closes_conclude htoken outcome hw.1).mono fun t o ho => .inl ho

/-- The attempt ends with a terminal finish, in its body or in a handler. -/
theorem closes_executeAttempt (htoken : claimed.recoveryRunToken = some runToken)
    (h : Ready sysid plan w) :
    Ensures (attemptStep sysid plan)
      (executeAttempt c ⟨sysid, failureId, claimed, plan, pointer⟩) w
      (fun t o => Ended o → ∃ e ∈ t, finishes runToken e) := by
  unfold executeAttempt
  simp only [htoken]
  rw [ensures_tryCatch]
  refine (closesOr_body htoken h).mono fun t o ho => ?_
  cases o with
  | suspended => exact fun hend => absurd hend not_ended_suspended
  | outOfFuel => exact fun hend => absurd hend not_ended_outOfFuel
  | returned result w' =>
    rcases ho with hfinishes | hfalse
    · exact fun _ => hfinishes
    · exact hfalse.elim
  | raised e w' =>
    rcases ho with ⟨e', he', hfinishes⟩ | ⟨hhandled, hset⟩
    · exact fun u o' _ _ => ⟨e', List.mem_append_left u he', hfinishes⟩
    · have hcancelled : e.cls ≠ .cancelled := by
        intro hcls
        simp [isHandled, PyExc.isLostConfirmation, PyExc.isContract, hcls] at hhandled
      rcases attemptHandler_eq (a := ⟨sysid, failureId, claimed, plan, pointer⟩) e with
        ⟨hcls, -⟩ | ⟨-, -, message, heq⟩ | ⟨-, hnot, -⟩
      · exact absurd hcls hcancelled
      · dsimp only
        rw [heq]
        refine (closes_bind (closes_finishUnknown htoken hset)).mono fun u o' hu _ => ?_
        obtain ⟨e', he', hfinishes⟩ := hu
        exact ⟨e', List.mem_append_right t he', hfinishes⟩
      · rw [hhandled] at hnot
        cases hnot

/-- A claimed attempt with a plan for its session is closed before it ends. -/
theorem closes_claimedAttempt (htoken : claimed.recoveryRunToken = some runToken)
    (hplan : closablePlan claimed plan) (h : Ready sysid plan w) :
    Ensures (attemptStep sysid plan) (claimedAttempt c sysid failureId pointer claimed) w
      (fun t o => Ended o → ∃ e ∈ t, finishes runToken e) := by
  have hunknown : ∀ message, Ensures (attemptStep sysid plan)
      ((finishUnknown claimed failureId message).bind fun _ =>
        (.ret none : Recovery (Option FlowPointer))) w
      (fun t o => Ended o → ∃ e ∈ t, finishes runToken e) :=
    fun message => (closes_bind (closes_finishUnknown htoken h.1)).mono fun t o ho _ => ho
  unfold claimedAttempt
  simp only [hplan.1, Prog.bind_eq, Prog.pure_eq, Prog.settle, Prog.bind]
  split
  · exact hunknown _
  · next hrewind =>
    rw [hplan.2 (by simpa using hrewind)]
    simp only [Prog.observe, Prog.bind, ensures_get]
    split
    · next e hlive =>
      have hcontract : ContractOnly (liveForAttempt (w.robots sysid) pointer plan) := by
        refine .bind (contractOnly_validatePlanForFlow plan pointer) fun _ _ => ?_
        exact .bind (contractOnly_requireLive h.2) fun _ _ => contractOnly_ok ()
      rw [if_pos (hcontract e hlive)]
      exact hunknown _
    · rw [ensures_bind]
      refine (closes_executeAttempt htoken h).mono fun t o ho => ?_
      cases o with
      | suspended => exact fun hend => absurd hend not_ended_suspended
      | outOfFuel => exact fun hend => absurd hend not_ended_outOfFuel
      | raised e w' => exact fun _ => ho (.inr ⟨e, w', rfl⟩)
      | returned result w' =>
        obtain ⟨e, he, hfinishes⟩ := ho (.inl ⟨result, w', rfl⟩)
        exact fun u o' _ _ => ⟨e, List.mem_append_left u he, hfinishes⟩

end Attempt

section Execution

variable {c : Coordinator} {w w' : World} {sysid sessionId failureId runToken : String} {lease : ℤ}
  {pointer : FlowPointer} {row : Fields} {t : List RecoveryEvent}

def isClaim : Op → Prop
  | .claim .. => True
  | _ => False

theorem claimedToken_eq_none {e : RecoveryEvent} (h : ¬ isClaim e.op) : claimedToken e = none := by
  unfold claimedToken
  split
  · exact absurd trivial h
  · rfl

theorem not_isClaim_quiet {op : Op} (h : quietOp op) : ¬ isClaim op := by
  cases op <;> first | exact h.elim | exact id

theorem not_isClaim_own {a : Attempt} {op : Op} (h : ownOp a op) : ¬ isClaim op := by
  cases op <;> first | exact h.elim | exact id

/-- Nothing is claimed between a claim and the end of its attempt. -/
theorem only_afterClaim : (afterClaim c sysid sessionId failureId pointer row).Only
    (fun op => ¬ isClaim op) := by
  cases hparse : parseRecoverySession row true with
  | error e =>
    exact (only_afterClaim_malformed _ _ _ hparse).mono fun op => not_isClaim_quiet
  | ok claimed =>
    have hunknown : ∀ message, ((finishUnknown claimed failureId message).bind fun _ =>
        (.ret none : Recovery (Option FlowPointer))).Only (fun op => ¬ isClaim op) :=
      fun message => .bind ((only_finishUnknown _ _ _).mono fun op => not_isClaim_quiet)
        fun _ => trivial
    unfold afterClaim
    simp only [hparse]
    unfold claimedAttempt
    simp only [Prog.bind_eq, Prog.pure_eq]
    refine .bind (.settle _) fun plan => ?_
    split
    · exact hunknown _
    · refine .bind (.settle _) fun _ => .bind (fun w => trivial) fun w => ?_
      split
      · split
        · exact hunknown _
        · trivial
      · refine .bind (only_executeAttempt_own.mono fun op => not_isClaim_own) fun result => ?_
        split
        · trivial
        · trivial
        · unfold retryPointer
          split
          · exact fun w => trivial
          · trivial

/-- A claimed row that does not parse is closed when its envelope is intact. -/
theorem closes_malformed {e : PyExc} (hparse : parseRecoverySession row true = .error e)
    (hsession : uuidText (Fields.get row "recovery_session_id") = some sessionId)
    (htoken : uuidText (Fields.get row "recovery_run_token") = some runToken) :
    Ensures anything (afterClaim c sysid sessionId failureId pointer row) w'
      (fun t _ => ∃ e ∈ t, finishes runToken e) := by
  unfold afterClaim closeMalformedClaim
  simp only [hparse, contractOnly_parseRecoverySession row true e hparse, hsession, htoken,
    if_true, Prog.bind_eq]
  exact closes_bind (closes_bind (closes_finish (by decide)))

/-- A claim is closed in every run behind it that can be closed. -/
theorem closes_afterClaim {o : Outcome recovery (Option FlowPointer)}
    (hrun : Runs anything (afterClaim c sysid sessionId failureId pointer row) w' t o)
    (hundisturbed : Undisturbed t)
    (hclosable : Closable sysid
      (⟨w, .claim failureId sessionId lease, some (.ok row, w')⟩ :: t))
    (hend : Ended o)
    (htoken : claimedToken ⟨w, .claim failureId sessionId lease, some (.ok row, w')⟩ =
      some runToken) : ∃ e ∈ t, finishes runToken e := by
  obtain ⟨hsession, htoken⟩ : uuidText (Fields.get row "recovery_session_id") = some sessionId ∧
      uuidText (Fields.get row "recovery_run_token") = some runToken := by
    simpa [claimedToken] using htoken
  cases hparse : parseRecoverySession row true with
  | error e => exact closes_malformed hparse hsession htoken t o hrun
  | ok record =>
    obtain ⟨runToken', hrecord, htoken'⟩ := parseRecoverySession_runToken hparse
    rw [htoken] at htoken'
    cases htoken'
    obtain ⟨plan, hplan, hsteps⟩ := hclosable [] _ t ⟨sessionId, record, w⟩ rfl
      (by simp [claimed, hparse])
    by_contra hopen
    -- while the attempt is open every step of it is one that can be closed
    have hunfinished : ∀ e ∈ (⟨w, .claim failureId sessionId lease, some (.ok row, w')⟩ :: t :
        List RecoveryEvent), Unfinished record e := by
      intro e he runToken'' hrunToken hfinishes
      rw [hrecord] at hrunToken
      cases hrunToken
      rcases List.mem_cons.mp he with rfl | he
      · obtain ⟨_, _, _, _, hop, -⟩ := hfinishes
        cases hop
      · exact hopen ⟨e, he, hfinishes⟩
    have hstep := hsteps _ [] (List.append_nil _).symm hunfinished
    obtain ⟨hset, hcheckable, -⟩ := hstep _ (List.mem_cons_self ..) _ _ rfl
    have hattempt : Runs (attemptStep sysid plan)
        (claimedAttempt c sysid failureId pointer record) w' t o := by
      unfold afterClaim at hrun
      simp only [hparse] at hrun
      refine hrun.restrict fun e he r w'' hreply => ⟨?_, fun x hx => ?_⟩
      · exact hstep e (List.mem_cons_of_mem _ he) r w'' hreply
      · subst hx
        have hcalm := hundisturbed e he x w'' hreply
        rwa [← hreply]
    exact hopen (closes_claimedAttempt hrecord hplan ⟨hset, hcheckable⟩ t o hattempt hend)

/-- One claim with the attempt behind it, in front of what may follow. -/
theorem closed_afterClaim {o : Outcome recovery (Option FlowPointer)} {u : List RecoveryEvent}
    (hrun : Runs anything (afterClaim c sysid sessionId failureId pointer row) w' t o)
    (hundisturbed : Undisturbed
      (⟨w, .claim failureId sessionId lease, some (.ok row, w')⟩ :: (t ++ u)))
    (hclosable : Closable sysid
      (⟨w, .claim failureId sessionId lease, some (.ok row, w')⟩ :: (t ++ u)))
    (hend : Ended o) (hu : Closed u) :
    Closed (⟨w, .claim failureId sessionId lease, some (.ok row, w')⟩ :: (t ++ u)) := by
  refine Closed.claim (fun runToken => ?_) (fun e he => ?_) hu
  · rw [← List.singleton_append] at hundisturbed
    rw [← List.cons_append] at hclosable
    exact closes_afterClaim hrun hundisturbed.right.left hclosable.left hend
  · exact claimedToken_eq_none (only_afterClaim.ensures t o hrun e he)

/-- The induction is on the attempts this call may still make. -/
theorem attemptLoop_closed (plan : RecoveryPlan) (ref fuel : ℕ) :
    Ensures anything (attemptLoop c sysid sessionId plan ref fuel pointer) w
      (fun t o => Undisturbed t → Closable sysid t → Ended o → Closed t) := by
  induction fuel generalizing pointer w with
  | zero => exact ensures_halt.mpr fun _ _ hend => absurd hend not_ended_outOfFuel
  | succ fuel ih =>
    rw [attemptLoop]
    simp only [Prog.bind_eq, Prog.pure_eq, Prog.observe, Prog.bind, ensures_get]
    split
    · exact ensures_ret.mpr fun _ _ _ => closed_of_none (by simp)
    rw [ensures_bind, ensures_requireLive]
    refine ⟨fun frame hlive => ?_, fun e _ _ _ _ => closed_of_none (by simp)⟩
    simp only [after, List.nil_append]
    rw [ensures_bind, ensures_call]
    refine ⟨fun _ _ hend => absurd hend not_ended_suspended, fun row w' _ => ?_,
      fun e w' _ _ _ _ => closed_of_none (by simp [claimedToken])⟩
    simp only [after, List.singleton_append]
    rw [ensures_bind]
    intro t o hrun
    cases o with
    | suspended => exact fun _ _ hend => absurd hend not_ended_suspended
    | outOfFuel => exact fun _ _ hend => absurd hend not_ended_outOfFuel
    | raised x w'' =>
      intro hundisturbed hclosable _
      rw [← List.append_nil t] at hundisturbed hclosable ⊢
      exact closed_afterClaim hrun hundisturbed hclosable (.inr ⟨x, w'', rfl⟩)
        (closed_of_none (by simp))
    | returned next w'' =>
      cases next with
      | none =>
        refine ensures_ret.mpr fun hundisturbed hclosable _ => ?_
        exact closed_afterClaim hrun hundisturbed hclosable (.inl ⟨none, w'', rfl⟩)
          (closed_of_none (by simp))
      | some next =>
        refine ih.mono fun u o' hu hundisturbed hclosable hend => ?_
        refine closed_afterClaim hrun hundisturbed hclosable (.inl ⟨some next, w'', rfl⟩) ?_
        rw [← List.cons_append] at hundisturbed hclosable
        exact hu hundisturbed.right hclosable.right hend

/-- The parts before the first claim claim nothing. -/
theorem closed_bind {α β : Type} {p : Recovery α} {f : α → Recovery β}
    (hp : Preparatory quietOp p)
    (hf : ∀ a w', Ensures anything (f a) w'
      (fun t o => Undisturbed t → Closable sysid t → Ended o → Closed t)) :
    Ensures anything (p.bind f) w
      (fun t o => Undisturbed t → Closable sysid t → Ended o → Closed t) := by
  rw [ensures_bind]
  refine hp.only.ensures.mono fun t o ht => ?_
  have hnone : ∀ e ∈ t, claimedToken e = none :=
    fun e he => claimedToken_eq_none (not_isClaim_quiet (ht e he))
  cases o with
  | suspended => exact fun _ _ _ => closed_of_none hnone
  | outOfFuel => exact fun _ _ _ => closed_of_none hnone
  | raised e w' => exact fun _ _ _ => closed_of_none hnone
  | returned a w' =>
    refine (hf a w').mono fun u o hu hundisturbed hclosable hend => ?_
    exact Closed.append hnone (hu hundisturbed.right hclosable.right hend)

theorem runSession_closed (fuel : ℕ) (target : FailureRecoveryTarget) (plan : RecoveryPlan) :
    Ensures anything (runSession c fuel target pointer sessionId plan) w
      (fun t o => Undisturbed t → Closable target.sysid t → Ended o → Closed t) := by
  unfold runSession
  rw [ensures_get, ensures_set, ensures_tryFinally]
  refine (attemptLoop_closed plan _ fuel).mono fun t o ho => ?_
  cases o with
  | suspended => exact fun _ _ hend => absurd hend not_ended_suspended
  | outOfFuel => exact fun _ _ hend => absurd hend not_ended_outOfFuel
  | raised e w' => exact fun hu hc _ => ho hu hc (.inr ⟨e, w', rfl⟩)
  | returned a w' => exact fun hu hc _ => ho hu hc (.inl ⟨a, w', rfl⟩)

/-- In every run of `executeTarget` without a cancellation or a failing finish
whose steps can be closed, every claim is followed by a terminal finish before
the execution ends. -/
theorem executeTarget_closes (c : Coordinator) (fuel : ℕ) (target : FailureRecoveryTarget)
    (newSessionId : String) (w : World) :
    Ensures anything (executeTarget c fuel target newSessionId) w
      (fun t o => Undisturbed t → Closable target.sysid t → Ended o → Closed t) := by
  have hnil : ∀ {o : Outcome recovery Unit},
      Undisturbed [] → Closable target.sysid [] → Ended o → Closed [] :=
    fun _ _ _ => closed_of_none (by simp)
  unfold executeTarget
  simp only [Prog.bind_eq, Prog.pure_eq]
  refine closed_bind preparatory_requiredDatabase fun _ w => ?_
  split
  · exact ensures_raise.mpr hnil
  refine closed_bind (preparatory_freshPausedPointer target) fun pointer w => ?_
  refine closed_bind (.call trivial) fun _ w => ?_
  refine closed_bind (preparatory_preparedSession target pointer newSessionId).quiet fun x w => ?_
  obtain ⟨sessionId, prepared⟩ := x
  dsimp only
  split
  · exact ensures_ret.mpr hnil
  refine closed_bind (.settle _) fun plan w => ?_
  refine closed_bind (preparatory_requireLive _ _ _) fun _ w => ?_
  refine closed_bind (.settle _) fun required w => ?_
  split
  · exact ensures_raise.mpr hnil
  refine closed_bind (preparatory_graceWindow sessionId).quiet fun go w => ?_
  split
  · exact runSession_closed fuel target plan
  · exact ensures_ret.mpr hnil

end Execution

section Sample

def sampleTarget : FailureRecoveryTarget where
  failureId := sampleId
  sysid := "ROBOT-1"
  flowId := "flow-1"
  actionIndex := 0
  actionCommand := "pick"
  recoveryEpisodeKey := sampleHash
  recoverySessionId := some sampleId
  recoveryStatus := some "ready"
  resolverSuggestion := []

variable {t : List RecoveryEvent} {o : Outcome recovery Unit}

theorem undisturbed_of_calm (h : t.all (fun e => !e.raised) = true) : Undisturbed t := by
  intro e he x w hreply
  have hnot := List.all_eq_true.mp h e he
  simp [Event.raised, hreply] at hnot

theorem checkable_nil {plan : RecoveryPlan} (h : plan.corrections = []) (robot : RobotView) :
    checkable plan robot := by
  intro frame _
  rw [h, validateCorrections_eq_ok.mpr ⟨rfl, fun action haction => by cases haction⟩]
  exact contractOnly_ok _

theorem closableStep_ok {sysid : String} {plan : RecoveryPlan} {w w' : World} {op : Op}
    {a : op.Reply} (hset : w'.databaseSet = true) (hcheck : checkable plan (w'.robots sysid)) :
    closableStep sysid plan w op (.ok a) w' := by
  cases op <;> exact ⟨hset, hcheck, trivial⟩

def settled {α : Type} : Outcome recovery α → Bool
  | .returned .. => true
  | .raised .. => true
  | _ => false

theorem ended_of_settled (h : settled o = true) : Ended o := by
  cases o with
  | returned a w => exact .inl ⟨a, w, rfl⟩
  | raised e w => exact .inr ⟨e, w, rfl⟩
  | suspended => cases h
  | outOfFuel => cases h

/-- The claimed row pins a plan of its session without corrections. -/
def pinsContinuation (claim : Claim) : Bool :=
  (parseRecoveryPlan (asPlanValue claim.record.pinnedActions)).toOption.any fun plan =>
    plan.corrections.isEmpty && (validatePlanForSession plan claim.record).isOk

/-- An await that is answered with the database still set. -/
def connectedEvent (e : RecoveryEvent) : Bool :=
  !e.raised && e.reply.all fun reply => reply.2.databaseSet

theorem closable_of_continuation (sysid : String)
    (hclaims : t.all (fun e => (claimed e).all pinsContinuation) = true)
    (hevents : t.all connectedEvent = true) : Closable sysid t := by
  intro before e behind claim ht hclaim
  have hpins : pinsContinuation claim = true := by
    have he := List.all_eq_true.mp hclaims e (by simp [ht])
    simpa [hclaim] using he
  unfold pinsContinuation at hpins
  cases hplan : parseRecoveryPlan (asPlanValue claim.record.pinnedActions) with
  | error x =>
    rw [hplan] at hpins
    cases hpins
  | ok plan =>
    have hboth : plan.corrections = [] ∧ (validatePlanForSession plan claim.record).isOk = true := by
      simpa [hplan, Except.toOption] using hpins
    refine ⟨plan, ⟨hplan, fun _ => ?_⟩, fun mid rest hsplit _ e' he' r w hreply => ?_⟩
    · cases hvalid : validatePlanForSession plan claim.record with
      | ok u => rfl
      | error x => simp [hvalid, Except.isOk, Except.toBool] at hboth
    · have hmem : e' ∈ t := by
        rw [ht, hsplit]
        simp [he']
      have hconnected := List.all_eq_true.mp hevents e' hmem
      cases r with
      | error x => simp [connectedEvent, Event.raised, hreply] at hconnected
      | ok a =>
        have hset : Event.raised e' = false ∧ w.databaseSet = true := by
          simpa [connectedEvent, hreply] using hconnected
        exact closableStep_ok hset.2 (checkable_nil hboth.1 _)

/-- The session is ready, the robot takes the continuation and the Flow completes. -/
def recoveringReaction : Reaction recovery := fun _ w op =>
  match op with
  | .waitConnected .. => some (.ok (), w)
  | .waitForCommands .. => some (.ok ⟨3, 1, []⟩, w)
  | .project _ => some (.ok (sampleRow sampleActions "ready" 0 .null), w)
  | .claim .. => some (.ok (sampleRow sampleActions "running" 1 (.str sampleId)), w)
  | .requestCommand .. => some (.ok sampleReceipt, w)
  | .waitForFlow .. => some (.ok (parseFlowPointer (.obj (sampleFlow "completed" 1)) 9 1), w)
  | .finish .. => some (.ok (sampleRow sampleActions "recovered" 1 (.str sampleId)), w)
  | _ => none

def recoveringRun : List RecoveryEvent × Outcome recovery Unit :=
  play recoveringReaction (executeTarget sampleCoordinator 3 sampleTarget sampleId) sampleWorld []

/-- An attempt that is claimed, sent and finished as recovered. -/
theorem executeTarget_closes_recovered :
    results recoveringRun.1 = [.awaitingOutcome, .recovered] ∧
      recoveringRun.1.filterMap claimedToken = [sampleId] ∧ Closed recoveringRun.1 := by
  obtain ⟨hresults, htokens, hsettled, hcalm, hclaims, hevents⟩ :
      results recoveringRun.1 = [.awaitingOutcome, .recovered] ∧
        recoveringRun.1.filterMap claimedToken = [sampleId] ∧
        settled recoveringRun.2 = true ∧ recoveringRun.1.all (fun e => !e.raised) = true ∧
        recoveringRun.1.all (fun e => (claimed e).all pinsContinuation) = true ∧
        recoveringRun.1.all connectedEvent = true := by
    decide +kernel
  have hrun : Runs anything (executeTarget sampleCoordinator 3 sampleTarget sampleId) sampleWorld
      recoveringRun.1 recoveringRun.2 :=
    runs_play anything recoveringReaction (fun _ _ _ _ _ _ => trivial) _ sampleWorld []
  exact ⟨hresults, htokens, executeTarget_closes sampleCoordinator 3 sampleTarget sampleId
    sampleWorld _ _ hrun (undisturbed_of_calm hcalm)
    (closable_of_continuation "ROBOT-1" hclaims hevents) (ended_of_settled hsettled)⟩

/-- Pinned actions that are a well-formed array but no plan: no continuation. -/
def unfinishedActions : Json :=
  .arr [.obj [("command", .str "pick"), ("arguments", .obj [])]]

/-- The session is ready with a valid plan; the claimed row has other actions. -/
def swappedReaction : Reaction recovery := fun _ w op =>
  match op with
  | .waitConnected .. => some (.ok (), w)
  | .waitForCommands .. => some (.ok ⟨3, 1, []⟩, w)
  | .project _ => some (.ok (sampleRow sampleActions "ready" 0 .null), w)
  | .claim .. => some (.ok (sampleRow unfinishedActions "running" 1 (.str sampleId)), w)
  | .finish .. => some (.ok [], w)
  | _ => none

def swappedRun : List RecoveryEvent × Outcome recovery Unit :=
  play swappedReaction (executeTarget sampleCoordinator 3 sampleTarget sampleId) sampleWorld []

def raisedClass {α : Type} : Outcome recovery α → Option ExcClass
  | .raised e _ => some e.cls
  | _ => none

/-- The plan of the claimed row is refused behind the claim: the execution raises
and the attempt is never finished. -/
theorem claim_left_open :
    raisedClass swappedRun.2 = some .recoveryContract ∧
      swappedRun.1.filterMap claimedToken = [sampleId] ∧ results swappedRun.1 = [] ∧
      ¬ Ensures anything (executeTarget sampleCoordinator 3 sampleTarget sampleId) sampleWorld
        (fun t o => Undisturbed t → Ended o → Closed t) := by
  obtain ⟨hraised, htokens, hresults, hcalm, hsettled⟩ :
      raisedClass swappedRun.2 = some .recoveryContract ∧
        swappedRun.1.filterMap claimedToken = [sampleId] ∧ results swappedRun.1 = [] ∧
        swappedRun.1.all (fun e => !e.raised) = true ∧ settled swappedRun.2 = true := by
    decide +kernel
  have hundisturbed := undisturbed_of_calm hcalm
  have hended := ended_of_settled hsettled
  refine ⟨hraised, htokens, hresults, fun hall => ?_⟩
  have hrun : Runs anything (executeTarget sampleCoordinator 3 sampleTarget sampleId) sampleWorld
      swappedRun.1 swappedRun.2 :=
    runs_play anything swappedReaction (fun _ _ _ _ _ _ => trivial) _ sampleWorld []
  have hmem : sampleId ∈ swappedRun.1.filterMap claimedToken := by simp [htokens]
  obtain ⟨e, he, htoken⟩ := List.mem_filterMap.mp hmem
  obtain ⟨before, behind, hsplit⟩ := List.append_of_mem he
  obtain ⟨e', he', _, _, result, _, hop, -⟩ :=
    hall _ _ hrun hundisturbed hended before e behind sampleId hsplit htoken
  have hresult : result ∈ results swappedRun.1 :=
    List.mem_filterMap.mpr ⟨e', by rw [hsplit]; simp [he'], by simp [finishResult, hop]⟩
  simp [hresults] at hresult

end Sample

end FailureResolver.AttemptClosure
