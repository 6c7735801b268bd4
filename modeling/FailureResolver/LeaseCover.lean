import FailureResolver.CommandProtocol
import FailureResolver.PlanParsing
import FailureResolver.RecoverySettings
import FailureResolver.RetryBudget
import FailureResolver.TaskPool

/-!
The lease of a claim against the waits on the robot. Between a claim and the next one
a run waits for the acknowledgement of each command and for the outcome of the Flow,
each up to a limit of the settings. Whatever the awaits end with, the limits of one
attempt add up to no more than the lease it was claimed with, less a margin of five
seconds; the settings are checked by a float sum, which may miss half a picosecond of it.
-/

namespace FailureResolver.LeaseCover

open ActionPlan CommandProtocol JsonValue LiveFlow PlanParsing PlanValidation Program PyException
open RecoveryContract RecoveryCoordinator RecoverySettings RetryBudget TaskPool

section Spent

/-- The lease of the last claim and the waits on the robot since. -/
structure Spent where
  lease : ℤ
  seconds : ℚ

def robotWait : Op → Option ℚ
  | .waitConnected _ seconds => some seconds
  | .waitForCommands _ _ seconds => some seconds
  | .requestCommand _ _ _ seconds => some seconds
  | .waitForFlow _ _ _ seconds _ => some seconds
  | _ => none

def charge (spent : Option Spent) : Op → Option Spent
  | .claim _ _ lease => some ⟨lease, 0⟩
  | op => spent.map fun s => ⟨s.lease, s.seconds + (robotWait op).getD 0⟩

def spentIn : List RecoveryEvent → Option Spent :=
  recorded (fun spent op _ => charge spent op) none

/-- What an attempt still may wait for, by what it has waited for. -/
def Covered (spent : Option Spent) (op : Op) : Prop :=
  ∀ s limit, spent = some s → robotWait op = some limit →
    s.seconds + limit + 5 ≤ s.lease + roundingSlack

def leased : Discipline recovery (Option Spent) where
  rely _ _ := True
  act spent _ spent' _ := spent' = spent
  request spent _ op := Covered spent op
  answer spent op _ spent' := spent' = charge spent op

def Records (op : Op) : Prop := robotWait op = none ∧ quietOp op

end Spent

section Parts

variable {c : Coordinator} {a : Attempt} {w : World} {spent : Option Spent} {α β : Type}

abbrev Obeying (p : Recovery α) (Q : Except PyExc α → Option Spent → Prop)
    (spent : Option Spent) (w : World) : Prop :=
  Obeys leased (fun r spent _ => Q r spent) p spent w

def Free (_ : Except PyExc α) (_ : Option Spent) : Prop := True

theorem charge_records {op : Op} (hop : Records op) : charge spent op = spent := by
  obtain ⟨hwait, hquiet⟩ := hop
  unfold charge
  split
  · exact hquiet.elim
  · rw [hwait, Option.getD_none]
    cases spent with
    | none => rfl
    | some s => rw [Option.map_some, add_zero]

theorem charge_unclaimed {op : Op} (hop : quietOp op) : charge none op = none := by
  unfold charge
  split
  · exact hop.elim
  · rfl

theorem obeys_records {p : Recovery α} (hp : p.Only Records) :
    Obeying p (fun _ spent' => spent' = spent) spent w := by
  refine Obeys.of_only hp (fun _ _ => rfl) (fun _ op hop s limit _ hlimit => ?_)
    fun op r spent' hop hanswer => ?_
  · rw [hop.1] at hlimit
    cases hlimit
  · rw [hanswer]
    exact charge_records hop

/-- Before the first claim every wait is free. -/
theorem obeys_unclaimed {p : Recovery α} (hp : p.Only quietOp) :
    Obeying p (fun _ spent => spent = none) none w := by
  refine Obeys.of_only hp (fun _ _ => rfl) (fun _ op _ s limit hs => ?_)
    fun op r spent' hop hanswer => ?_
  · cases hs
  · rw [hanswer]
    exact charge_unclaimed hop

theorem obeys_unclaimed_bind {p : Recovery α} {f : α → Recovery β} (hp : p.Only quietOp)
    (hf : ∀ a w, Obeying (f a) Free none w) : Obeying (p.bind f) Free none w := by
  unfold Obeying
  rw [obeys_bind]
  refine (obeys_unclaimed hp).mono fun r spent w' hspent => ?_
  subst hspent
  cases r with
  | ok a => exact hf a w'
  | error e => trivial

theorem obeys_records_bind {p : Recovery α} {f : α → Recovery β}
    {Q : Except PyExc β → Option Spent → Prop} (hp : p.Only Records)
    (herror : ∀ e, Q (.error e) spent) (hf : ∀ a w, Obeying (f a) Q spent w) :
    Obeying (p.bind f) Q spent w := by
  unfold Obeying
  rw [obeys_bind]
  refine (obeys_records hp).mono fun r spent' w' hspent => ?_
  subst hspent
  cases r with
  | ok a => exact hf a w'
  | error e => exact herror e

theorem only_requiredDatabase : requiredDatabase.Only Records := by
  intro w
  dsimp only
  split <;> trivial

theorem only_requireLive (sysid : String) (pointer : FlowPointer) (plan : RecoveryPlan) :
    (requireLive sysid pointer plan).Only Records := by
  intro w
  dsimp only
  split <;> trivial

theorem records_finish {failureId recoverySessionId runToken message : String}
    {result : FinishResult} :
    Records (.finish failureId recoverySessionId runToken result message) := ⟨rfl, trivial⟩

theorem only_finishUnknown (claimed : RecoverySessionRecord) (failureId message : String) :
    (finishUnknown claimed failureId message).Only Records := by
  unfold finishUnknown
  split
  · trivial
  · exact .bind only_requiredDatabase fun _ => .bind (.call records_finish) fun _ => trivial

theorem only_attemptHandler (e : PyExc) : (attemptHandler a e).Only Records := by
  have hunknown := only_finishUnknown a.claimed a.failureId
  unfold attemptHandler finishInterrupted
  simp only [Prog.bind_eq, Prog.pure_eq]
  split_ifs
  · refine .bind (.tryCatch (.bind (.call ⟨rfl, trivial⟩) fun started => ?_) fun e => ?_)
      fun _ => trivial
    · split
      · exact hunknown _
      · trivial
    · split <;> trivial
  · exact .bind (hunknown _) fun _ => trivial
  · exact .bind (hunknown _) fun _ => trivial
  · exact .bind (hunknown _) fun _ => trivial
  · trivial

theorem only_closeMalformedClaim (recoverySessionId failureId : String) (row : Fields)
    (e : PyExc) : (closeMalformedClaim recoverySessionId failureId row e).Only Records := by
  unfold closeMalformedClaim
  split
  · split
    · exact .bind (.call records_finish) fun _ => trivial
    · trivial
  · trivial

end Parts

section Attempt

variable {c : Coordinator} {a : Attempt} {w : World} {lease : ℤ} {seconds : ℚ}

def Charged (lease : ℤ) (seconds : ℚ) {α : Type} (r : Except PyExc α) (spent : Option Spent) :
    Prop :=
  ∀ a, r = .ok a → spent = some ⟨lease, seconds⟩

theorem obeys_requestCommand {command : String} {arguments : Fields} {limit : ℚ} {α : Type}
    {f : CommandReceipt → Recovery α} {Q : Except PyExc α → Option Spent → Prop}
    (hcover : seconds + limit + 5 ≤ lease + roundingSlack) (herror : ∀ e spent, Q (.error e) spent)
    (hf : ∀ receipt w, Obeying (f receipt) Q (some ⟨lease, seconds + limit⟩) w) :
    Obeying ((Prog.call (σ := recovery) (.requestCommand a.sysid command arguments limit)).bind f)
      Q (some ⟨lease, seconds⟩) w := by
  unfold Obeying
  rw [obeys_bind]
  refine obeys_call.mpr ⟨fun s limit' hs hlimit => ?_, fun r spent' w' hanswer _ => ?_⟩
  · cases hs
    cases hlimit
    exact hcover
  · rw [hanswer]
    cases r with
    | ok receipt => exact hf receipt w'
    | error e => exact herror e _

theorem obeys_sendCorrection (action : RecoveryAction)
    (hcover : seconds + c.settings.commandTimeoutSeconds + 5 ≤ lease + roundingSlack) :
    Obeying (sendCorrection c a action)
      (Charged lease (seconds + c.settings.commandTimeoutSeconds)) (some ⟨lease, seconds⟩) w := by
  have herror : ∀ e spent, Charged lease (seconds + c.settings.commandTimeoutSeconds)
      (.error e : Except PyExc Unit) spent := by
    intro e spent u hu
    cases hu
  unfold sendCorrection
  simp only [Prog.bind_eq, Prog.pure_eq]
  apply obeys_records_bind (only_requireLive _ _ _) fun e => herror e _
  intro _ w
  apply obeys_requestCommand hcover herror
  intro receipt w
  split
  · exact herror _ _
  · exact fun _ _ => rfl

theorem obeys_corrections (actions : List RecoveryAction) (seconds : ℚ)
    (hcover :
      seconds + actions.length * c.settings.commandTimeoutSeconds + 5 ≤ lease + roundingSlack) :
    Obeying (Prog.forEach (sendCorrection c a) actions)
      (Charged lease (seconds + actions.length * c.settings.commandTimeoutSeconds))
      (some ⟨lease, seconds⟩) w := by
  induction actions generalizing seconds w with
  | nil =>
    intro _ _
    rw [List.length_nil, Nat.cast_zero, zero_mul, add_zero]
  | cons action actions ih =>
    have hpos := c.settings.commandTimeout_pos
    have hlength : seconds + ((action :: actions).length : ℚ) * c.settings.commandTimeoutSeconds =
        seconds + c.settings.commandTimeoutSeconds +
          actions.length * c.settings.commandTimeoutSeconds := by
      rw [List.length_cons, Nat.cast_succ]
      ring
    have hrest : 0 ≤ (actions.length : ℚ) * c.settings.commandTimeoutSeconds := by positivity
    rw [hlength] at hcover ⊢
    unfold Obeying Prog.forEach
    rw [obeys_bind]
    refine (obeys_sendCorrection action (by linarith)).mono fun r spent w' hcharged => ?_
    cases r with
    | ok u =>
      rw [hcharged u rfl]
      exact ih _ hcover
    | error e =>
      intro u hu
      cases hu

theorem obeys_sendResume
    (hcover : seconds + c.settings.commandTimeoutSeconds + 5 ≤ lease + roundingSlack) :
    Obeying (sendResume c a) (Charged lease (seconds + c.settings.commandTimeoutSeconds))
      (some ⟨lease, seconds⟩) w := by
  have herror : ∀ e spent, Charged lease (seconds + c.settings.commandTimeoutSeconds)
      (.error e : Except PyExc CommandReceipt) spent := by
    intro e spent u hu
    cases hu
  unfold sendResume
  simp only [Prog.bind_eq, Prog.pure_eq]
  apply obeys_records_bind (only_requireLive _ _ _) fun e => herror e _
  intro _ w
  apply obeys_records_bind (.settle _) fun e => herror e _
  intro arguments w
  apply obeys_requestCommand hcover herror
  intro receipt w
  split
  · exact herror _ _
  · apply obeys_records_bind (.settle _) fun e => herror e _
    exact fun _ _ _ _ => rfl

theorem only_concludeAttempt (runToken : String) (outcome : Option FlowPointer) :
    (concludeAttempt a runToken outcome).Only Records := by
  have hverdict : ∀ result message, (finishVerdict a runToken result message).Only Records :=
    fun result message => .bind (.call records_finish) fun _ => .settle _
  unfold concludeAttempt
  split
  · exact .bind (hverdict _ _) fun _ => trivial
  · exact .bind (hverdict _ _) fun _ => trivial
  · exact .bind (only_finishUnknown _ _ _) fun _ => trivial

theorem obeys_awaitOutcome {watch : FlowOutcome.FlowWatch} {afterRevision generation : ℕ}
    {runToken : String}
    (hcover : seconds + c.settings.outcomeTimeoutSeconds + 5 ≤ lease + roundingSlack) :
    Obeying ((Prog.call (σ := recovery) (.waitForFlow a.sysid watch afterRevision
      c.settings.outcomeTimeoutSeconds generation)).bind (concludeAttempt a runToken)) Free
      (some ⟨lease, seconds⟩) w := by
  unfold Obeying
  rw [obeys_bind]
  refine obeys_call.mpr ⟨fun s limit hs hlimit => ?_, fun r spent w' _ _ => ?_⟩
  · cases hs
    cases hlimit
    exact hcover
  · cases r with
    | ok outcome =>
      exact (obeys_records (only_concludeAttempt runToken outcome)).mono fun _ _ _ _ => trivial
    | error e => trivial

/-- The commands of an attempt are charged one by one, the outcome of the Flow last. -/
theorem obeys_attemptBody (runToken : String)
    (hcover : (a.plan.corrections.length + 1) * c.settings.commandTimeoutSeconds +
      c.settings.outcomeTimeoutSeconds + 5 ≤ lease + roundingSlack) :
    Obeying (attemptBody c a runToken) Free (some ⟨lease, 0⟩) w := by
  have hcommand := c.settings.commandTimeout_pos
  have houtcome := c.settings.outcomeTimeout_pos
  unfold attemptBody
  simp only [Prog.bind_eq]
  unfold Obeying
  rw [obeys_bind]
  refine (obeys_corrections a.plan.corrections 0 (by linarith)).mono fun r spent w₁ hcharged => ?_
  cases r with
  | error e => trivial
  | ok u =>
    rw [hcharged u rfl]
    show Obeys _ _ (Prog.bind _ _) _ _
    rw [obeys_bind]
    refine (obeys_sendResume (by linarith)).mono fun r spent w₂ hcharged => ?_
    cases r with
    | error e => trivial
    | ok receipt =>
      rw [hcharged receipt rfl]
      apply obeys_records_bind (.call records_finish) fun _ => trivial
      intro _ w
      exact obeys_awaitOutcome (by linarith)

theorem obeys_executeAttempt
    (hcover : (a.plan.corrections.length + 1) * c.settings.commandTimeoutSeconds +
      c.settings.outcomeTimeoutSeconds + 5 ≤ lease + roundingSlack) :
    Obeying (executeAttempt c a) Free (some ⟨lease, 0⟩) w := by
  unfold executeAttempt
  split
  · trivial
  · unfold Obeying
    rw [obeys_tryCatch]
    refine (obeys_attemptBody _ hcover).mono fun r spent w' _ => ?_
    cases r with
    | ok result => trivial
    | error e => exact (obeys_records (only_attemptHandler e)).mono fun _ _ _ _ => trivial

end Attempt

section Claims

variable {c : Coordinator} {w : World} {spent : Option Spent}
variable {sysid recoverySessionId failureId : String}

theorem length_parseActions {actions : List Json} {index : ℕ} {parsed : List ParsedAction}
    (h : parseActions index actions = .ok parsed) : parsed.length = actions.length := by
  induction actions generalizing index parsed with
  | nil =>
    cases h
    rfl
  | cons action actions ih =>
    obtain ⟨first, -, h⟩ := bind_eq_ok.mp h
    obtain ⟨rest, hrest, h⟩ := bind_eq_ok.mp h
    cases h
    rw [List.length_cons, List.length_cons, ih hrest]

/-- A plan is ten actions at most, the continuation included. -/
theorem length_corrections {value : Json} {plan : RecoveryPlan}
    (h : parseRecoveryPlan value = .ok plan) : plan.corrections.length + 1 ≤ maxActions := by
  obtain ⟨before, last, rfl⟩ := exists_append_of_parseRecoveryPlan h
  obtain ⟨hlength, corrections, terminal, hparsed, -, -, -, parsed, -, rfl⟩ :=
    parseRecoveryPlan_append.mp h
  rw [List.length_map, length_parseActions hparsed]
  omega

def Covers (settings : Settings) : Prop :=
  10 * settings.commandTimeoutSeconds + settings.outcomeTimeoutSeconds + 5 ≤
    settings.leaseSeconds + roundingSlack

theorem Covers.plan (h : Covers c.settings) {value : Json} {plan : RecoveryPlan}
    (hplan : parseRecoveryPlan value = .ok plan) :
    (plan.corrections.length + 1) * c.settings.commandTimeoutSeconds +
      c.settings.outcomeTimeoutSeconds + 5 ≤ c.settings.leaseSeconds + roundingSlack := by
  have hlength : ((plan.corrections.length + 1 : ℕ) : ℚ) ≤ 10 := by
    exact_mod_cast length_corrections hplan
  have hcommands := mul_le_mul_of_nonneg_right hlength c.settings.commandTimeout_pos.le
  unfold Covers at h
  push_cast at hcommands
  linarith

theorem obeys_claimedAttempt (h : Covers c.settings) (pointer : FlowPointer)
    (claimed : RecoverySessionRecord) :
    Obeying (claimedAttempt c sysid failureId pointer claimed) Free
      (some ⟨c.settings.leaseSeconds, 0⟩) w := by
  have hnothing : ∀ (message : String) (w : World),
      Obeying ((finishUnknown claimed failureId message).bind fun _ =>
        (.ret none : Recovery (Option FlowPointer))) Free
        (some ⟨c.settings.leaseSeconds, 0⟩) w := by
    intro message w
    apply obeys_records_bind (only_finishUnknown _ _ _) fun _ => trivial
    exact fun _ _ => trivial
  unfold claimedAttempt
  simp only [Prog.bind_eq, Prog.pure_eq]
  unfold Obeying
  rw [obeys_bind, obeys_settle]
  cases hplan : parseRecoveryPlan (asPlanValue claimed.pinnedActions) with
  | error e => trivial
  | ok plan =>
    show Obeying (if _ then _ else _) _ _ _
    split
    · exact hnothing _ _
    · apply obeys_records_bind (.settle _) fun _ => trivial
      intro _ w
      refine obeys_records_bind (fun _ => trivial) (fun _ => trivial) fun live w => ?_
      split
      · split
        · exact hnothing _ _
        · trivial
      · unfold Obeying
        rw [obeys_bind]
        refine (obeys_executeAttempt (a := ⟨sysid, failureId, claimed, plan, pointer⟩)
          (h.plan hplan)).mono fun r spent w' _ => ?_
        cases r with
        | error e => trivial
        | ok result =>
          cases result with
          | unknown => trivial
          | recovered => trivial
          | failed finished =>
            show Obeying (retryPointer _ _ _) _ _ _
            unfold retryPointer
            split
            · trivial
            · trivial

theorem obeys_afterClaim (h : Covers c.settings) (pointer : FlowPointer) (row : Fields) :
    Obeying (afterClaim c sysid recoverySessionId failureId pointer row) Free
      (some ⟨c.settings.leaseSeconds, 0⟩) w := by
  unfold afterClaim
  split
  · exact obeys_claimedAttempt h pointer _
  · split
    · refine obeys_records_bind (only_closeMalformedClaim _ _ _ _) (fun _ => trivial) fun _ _ => ?_
      trivial
    · trivial

/-- Every claim opens an account of its own. -/
theorem obeys_attemptLoop (h : Covers c.settings) (plan : RecoveryPlan) (ref fuel : ℕ)
    (pointer : FlowPointer) :
    Obeying (attemptLoop c sysid recoverySessionId plan ref fuel pointer) Free spent w := by
  induction fuel generalizing pointer spent w with
  | zero => trivial
  | succ fuel ih =>
    unfold attemptLoop
    simp only [Prog.bind_eq, Prog.pure_eq]
    refine obeys_records_bind (fun _ => trivial) (fun _ => trivial) fun w₁ w => ?_
    split
    · trivial
    · apply obeys_records_bind (only_requireLive _ _ _) fun _ => trivial
      intro _ w
      unfold Obeying
      rw [obeys_bind]
      refine obeys_call.mpr ⟨fun s limit _ hlimit => (nomatch hlimit),
        fun r spent' w' hanswer _ => ?_⟩
      rw [hanswer]
      cases r with
      | error e => trivial
      | ok row =>
        show Obeys _ _ (Prog.bind _ _) _ _
        rw [obeys_bind]
        refine (obeys_afterClaim h pointer row).mono fun r spent'' w'' _ => ?_
        cases r with
        | error e => trivial
        | ok next =>
          cases next with
          | none => trivial
          | some pointer' => exact ih pointer'

end Claims

section Failures

variable {c : Coordinator} {w : World}

theorem obeys_executeTarget (h : Covers c.settings) (fuel : ℕ) (target : FailureRecoveryTarget)
    (newSessionId : String) : Obeying (executeTarget c fuel target newSessionId) Free none w := by
  unfold executeTarget
  simp only [Prog.bind_eq, Prog.pure_eq]
  refine obeys_unclaimed_bind preparatory_requiredDatabase.only fun _ w => ?_
  split
  · trivial
  refine obeys_unclaimed_bind (preparatory_freshPausedPointer target).only fun pointer w => ?_
  refine obeys_unclaimed_bind (.call trivial) fun _ w => ?_
  have hsession := preparatory_preparedSession (c := c) target pointer newSessionId
  refine obeys_unclaimed_bind hsession.quiet.only fun prepared w => ?_
  obtain ⟨recoverySessionId, prepared⟩ := prepared
  dsimp only
  split
  · trivial
  refine obeys_unclaimed_bind (.settle _) fun plan w => ?_
  refine obeys_unclaimed_bind (preparatory_requireLive _ _ _).only fun _ w => ?_
  refine obeys_unclaimed_bind (.settle _) fun required w => ?_
  split
  · trivial
  refine obeys_unclaimed_bind (preparatory_graceWindow recoverySessionId).quiet.only fun go w => ?_
  split
  · unfold runSession Obeying
    rw [obeys_get]
    refine ⟨_, rfl, ?_⟩
    rw [obeys_tryFinally]
    refine (obeys_attemptLoop h plan _ fuel pointer).mono fun r spent w' _ => ?_
    exact ⟨spent, rfl, trivial⟩
  · trivial

theorem obeys_executeGuarded (h : Covers c.settings) (fuel : ℕ) (target : FailureRecoveryTarget)
    (newSessionId : String) : Obeying (executeGuarded c fuel target newSessionId) Free none w := by
  unfold executeGuarded Obeying
  rw [obeys_tryCatch]
  refine (obeys_executeTarget h fuel target newSessionId).mono fun r spent w' _ => ?_
  cases r with
  | ok u => trivial
  | error e =>
    refine (obeys_records (α := Unit) ?_).mono fun _ _ _ _ => trivial
    split_ifs
    · exact .call ⟨rfl, trivial⟩
    · trivial
    · trivial

theorem obeys_processLocked (h : Covers c.settings) (fuel : ℕ) (failureId newSessionId : String) :
    Obeying (processLocked c fuel failureId newSessionId) Free none w := by
  unfold processLocked
  simp only [Prog.bind_eq, Prog.pure_eq]
  refine obeys_unclaimed_bind (.call trivial) fun found w => ?_
  split
  · trivial
  refine obeys_unclaimed_bind (.settle _) fun target w => ?_
  refine obeys_unclaimed_bind (only_attachActiveRecurrence _) fun attached w => ?_
  split_ifs
  · trivial
  · trivial
  · exact obeys_executeGuarded h fuel target newSessionId

theorem obeys_processFailure (h : c.settings.enabled = true → Covers c.settings) (fuel : ℕ)
    (failureId newSessionId : String) :
    Obeying (processFailure c fuel failureId newSessionId) Free none w := by
  unfold processFailure
  simp only [Prog.bind_eq, Prog.pure_eq]
  split
  · trivial
  · next henabled =>
    have hcovers := h (by simpa using henabled)
    refine obeys_unclaimed_bind preparatory_requiredDatabase.only fun _ w => ?_
    refine obeys_unclaimed_bind (.call trivial) fun found w => ?_
    split
    · trivial
    refine obeys_unclaimed_bind (.settle _) fun pointerTarget w => ?_
    split
    · trivial
    refine obeys_unclaimed_bind (only_attachActiveRecurrence _) fun attached w => ?_
    split
    · trivial
    split
    · trivial
    refine obeys_unclaimed_bind (.settle _) fun target w => ?_
    split
    · trivial
    refine obeys_unclaimed_bind (.call trivial) fun _ w => ?_
    refine obeys_unclaimed_bind (fun _ => trivial) fun _ w => ?_
    unfold Obeying
    rw [obeys_tryFinally]
    refine (obeys_processLocked hcovers fuel target.failureId newSessionId).mono
      fun r spent w' _ => ?_
    exact ⟨spent, rfl, trivial⟩

/-- In every run of a failure, whatever the awaits end with: no wait on the robot takes
the attempt past the lease of its claim less five seconds, the waits of the attempt
counted to their limits, but for what the float sum of the settings may miss. -/
theorem lease_covers_attempts (s : AcceptedSettings) (sessions : List String) (fuel : ℕ)
    (failureId newSessionId : String) (w : World) :
    Ensures anything (processFailure ⟨s.execution, sessions⟩ fuel failureId newSessionId) w
      fun t _ => ∀ before e after, t = before ++ e :: after → Covered (spentIn before) e.op := by
  have hcovers : s.execution.enabled = true → Covers s.execution := by
    intro henabled
    exact s.covers henabled
  refine (obeys_processFailure (c := ⟨s.execution, sessions⟩) hcovers fuel failureId
    newSessionId).watched anything (fun _ _ _ _ hact => hact) ?_
  exact fun _ _ _ _ _ _ => ⟨rfl, trivial⟩

/-- Commands of a tenth of a second, as a float has it; the lease is the float sum. -/
def tightSettings : RecoveryExecutionSettings where
  enabled := true
  robotAllowlist := ["ROBOT-1"]
  maxAttempts := 3
  commandTimeoutSeconds := 3602879701896397 / 36028797018963968
  outcomeTimeoutSeconds := 294
  leaseSeconds := 300
  cfAccessClientId := "id"
  cfAccessClientSecret := "secret"
  reconcileLimit := 500
  reconcileIntervalSeconds := 30
  startGraceSeconds := 5

theorem postInit_tightSettings : postInit tightSettings = .ok tightSettings := by
  refine postInit_eq_ok.mpr ⟨["ROBOT-1"], by decide +kernel, ?_, fun _ => ?_, rfl⟩
  · exact checkRanges_eq_ok.mpr (by norm_num [tightSettings])
  · exact checkEnabled_eq_ok.mpr ⟨by simp, by decide +kernel, by decide +kernel, 300,
      by decide +kernel, by decide +kernel⟩

/-- The exact sum is more than the lease, by less than the slack. -/
theorem lease_covers_attempts_tight : postInit tightSettings = .ok tightSettings ∧
    (tightSettings.leaseSeconds : ℚ) < 10 * tightSettings.commandTimeoutSeconds +
      tightSettings.outcomeTimeoutSeconds + 5 ∧
    ∀ sessions fuel failureId newSessionId w,
      Ensures anything (processFailure ⟨AcceptedSettings.execution
        ⟨tightSettings, postInit_tightSettings⟩, sessions⟩ fuel failureId newSessionId) w
        fun t _ => ∀ before e after, t = before ++ e :: after → Covered (spentIn before) e.op :=
  ⟨postInit_tightSettings, by norm_num [tightSettings],
    lease_covers_attempts ⟨tightSettings, postInit_tightSettings⟩⟩

end Failures

end FailureResolver.LeaseCover
