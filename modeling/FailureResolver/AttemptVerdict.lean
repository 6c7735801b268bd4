import FailureResolver.CommandProtocol

/-!
The verdicts of one attempt. The finish that records a verdict stands inside the
guarded body, and so does the parsing of its answer, so a reply that raises
reaches a handler and the handler finishes again. The sequence of finishes is a
single verdict exactly when that does not happen.
-/

namespace FailureResolver.AttemptVerdict

open Program JsonValue PyException LiveFlow RecoveryContract ActionPlan PlanValidation
open FlowOutcome RecoveryCoordinator CommandProtocol

section Verdicts

def finishResult (e : RecoveryEvent) : Option FinishResult :=
  match e.op with
  | .finish _ _ _ result _ => some result
  | _ => none

def results (t : List RecoveryEvent) : List FinishResult := t.filterMap finishResult

/-- At most one verdict: the acceptance and a terminal result behind it, or only
the closing as unknown. -/
def OneVerdict (rs : List FinishResult) : Prop :=
  (∃ r, r ≠ .awaitingOutcome ∧ rs <+: [.awaitingOutcome, r]) ∨ rs = [.unknown]

/-- A handler of the attempt turns this exception into another finish. -/
def isHandled (e : PyExc) : Bool :=
  e.isLostConfirmation || e.cls = .robotCommandRejected || e.isContract

/-- The scheduled finish of an interrupted attempt starts, with a database set. -/
def startsFinish (t : List RecoveryEvent) : Prop :=
  match t with
  | ⟨_, .startTask, some (.ok true, w)⟩ :: _ => World.databaseSet w = true
  | _ => False

/-- A handler that gets this exception in this state finishes the attempt. -/
def closes (e : PyExc) (w : World) (t : List RecoveryEvent) : Prop :=
  if e.cls = .cancelled then startsFinish t else isHandled e = true ∧ w.databaseSet = true

/-- The exception that the reply to a verdict raises: its own, or the one of a
row that does not parse. -/
def verdictError (result : FinishResult) (reply : Except PyExc Fields) : Option PyExc :=
  match reply with
  | .error e => some e
  | .ok row =>
      if result = .unknown then none
      else match parseRecoverySession row false with
        | .ok _ => none
        | .error e => some e

def observed (e : RecoveryEvent) : Prop :=
  match e with
  | ⟨_, .waitForFlow .., some (.ok _, _)⟩ => True
  | _ => False

/-- The reply to the verdict raises, and a handler finishes the attempt again. -/
def reopens (verdict : RecoveryEvent) (behind : List RecoveryEvent) : Prop :=
  match verdict with
  | ⟨_, .finish _ _ _ result _, some (reply, w)⟩ =>
      ∃ e, verdictError result reply = some e ∧ closes e w behind
  | _ => False

/-- The verdict that was recorded on the observed outcome is reopened. -/
def Reopened (t : List RecoveryEvent) : Prop :=
  ∃ before outcome verdict behind, t = before ++ outcome :: verdict :: behind ∧
    observed outcome ∧ reopens verdict behind

variable {t u : List RecoveryEvent}

theorem results_append : results (t ++ u) = results t ++ results u := List.filterMap_append

theorem oneVerdict_start {rs : List FinishResult} {r : FinishResult}
    (hr : r ≠ .awaitingOutcome) (h : rs <+: [.awaitingOutcome, r]) : OneVerdict rs :=
  .inl ⟨r, hr, h⟩

theorem not_oneVerdict_three (r r' : FinishResult) :
    ¬ OneVerdict [.awaitingOutcome, r, r'] := by
  rintro (⟨r'', -, hstarts⟩ | h)
  · have hlength := hstarts.length_le
    simp at hlength
  · simp at h

theorem not_reopened (h : ∀ e ∈ t, ¬ observed e) : ¬ Reopened t := by
  rintro ⟨before, outcome, verdict, behind, rfl, hobserved, -⟩
  exact h outcome (by simp) hobserved

/-- Only the first observed outcome counts when there is no other. -/
theorem reopened_iff {outcome verdict : RecoveryEvent} (ht : ∀ e ∈ t, ¬ observed e)
    (houtcome : observed outcome) (hverdict : ¬ observed verdict) (hu : ∀ e ∈ u, ¬ observed e) :
    Reopened (t ++ outcome :: verdict :: u) ↔ reopens verdict u := by
  refine ⟨?_, fun h => ⟨t, outcome, verdict, u, rfl, houtcome, h⟩⟩
  rintro ⟨before, outcome', verdict', behind, hsplit, hobserved, hreopens⟩
  rcases TraceLaws.append_split hsplit with ⟨mid, hmid, -⟩ | ⟨mid, -, hmid⟩
  · exact absurd hobserved (ht outcome' (by simp [hmid]))
  · cases mid with
    | nil =>
      obtain ⟨-, htail⟩ := List.cons.inj hmid
      obtain ⟨rfl, rfl⟩ := List.cons.inj htail
      exact hreopens
    | cons x mid =>
      have hmem : outcome' ∈ verdict :: u := by
        rw [(List.cons.inj hmid).2]
        simp
      rcases List.mem_cons.mp hmem with rfl | hmem
      · exact absurd hobserved hverdict
      · exact absurd hobserved (hu outcome' hmem)

end Verdicts

section Parts

variable {c : Coordinator} {a : Attempt} {w : World} {env : Environment recovery}

/-- Sending a command, the only await of a plan that is being sent. -/
def isRequest : Op → Prop
  | .requestCommand .. => True
  | _ => False

def isClosing : Op → Prop
  | .finish .. => True
  | .startTask => True
  | _ => False

theorem finishResult_request {e : RecoveryEvent} (h : isRequest e.op) : finishResult e = none := by
  unfold finishResult
  split
  · next heq => simp [heq, isRequest] at h
  · rfl

theorem not_observed_request {e : RecoveryEvent} (h : isRequest e.op) : ¬ observed e := by
  unfold observed
  split
  · exact h.elim
  · exact id

theorem not_observed_closing {e : RecoveryEvent} (h : isClosing e.op) : ¬ observed e := by
  unfold observed
  split
  · exact h.elim
  · exact id

theorem only_requireLive (P : Op → Prop) (sysid : String) (pointer : FlowPointer)
    (plan : RecoveryPlan) : (requireLive sysid pointer plan).Only P := by
  intro w
  dsimp only
  split <;> trivial

theorem only_sendCorrection {P : Op → Prop}
    (hP : ∀ {command arguments timeout}, P (.requestCommand a.sysid command arguments timeout))
    (action : RecoveryAction) : (sendCorrection c a action).Only P := by
  unfold sendCorrection
  simp only [Prog.bind_eq, Prog.pure_eq]
  refine .bind (only_requireLive _ _ _ _) fun _ => .bind (.call hP) fun receipt => ?_
  split <;> trivial

theorem only_sendResume {P : Op → Prop}
    (hP : ∀ {command arguments timeout}, P (.requestCommand a.sysid command arguments timeout)) :
    (sendResume c a).Only P := by
  unfold sendResume
  simp only [Prog.bind_eq, Prog.pure_eq]
  refine .bind (only_requireLive _ _ _ _) fun _ => .bind (.settle _) fun arguments => ?_
  refine .bind (.call hP) fun receipt => ?_
  split
  · trivial
  · exact .bind (.settle _) fun _ => trivial

/-- How the finish of a verdict ends: pending, or as the reply to it says. -/
inductive VerdictRun (a : Attempt) (runToken : String) (result : FinishResult) {α : Type} :
    List RecoveryEvent → Outcome recovery α → Prop
  | pending (w : World) (message : String) :
      VerdictRun a runToken result
        [⟨w, .finish a.failureId a.claimed.recoverySessionId runToken result message, none⟩]
        .suspended
  | recorded (w w' : World) (message : String) (reply : Except PyExc Fields) (value : α)
      (h : verdictError result reply = none) :
      VerdictRun a runToken result
        [⟨w, .finish a.failureId a.claimed.recoverySessionId runToken result message,
          some (reply, w')⟩] (.returned value w')
  | raised (w w' : World) (message : String) (reply : Except PyExc Fields) (e : PyExc)
      (h : verdictError result reply = some e) :
      VerdictRun a runToken result
        [⟨w, .finish a.failureId a.claimed.recoverySessionId runToken result message,
          some (reply, w')⟩] (.raised e w')

theorem finishVerdict_run {runToken message : String} {result : FinishResult} {α : Type}
    {value : RecoverySessionRecord → α} (hresult : result ≠ .unknown) :
    Ensures env ((finishVerdict a runToken result message).bind fun finished =>
      .ret (value finished)) w (VerdictRun a runToken result) := by
  unfold finishVerdict
  rw [Prog.bind_eq, ensures_bind, ensures_bind, ensures_call]
  refine ⟨.pending w message, fun row w' _ => ?_, fun e w' _ => .raised w w' message _ e rfl⟩
  have herror : verdictError result (.ok row) = match parseRecoverySession row false with
      | .ok _ => none
      | .error e => some e := if_neg hresult
  simp only [after]
  cases hparse : (parseRecoverySession row false : Except PyExc RecoverySessionRecord) with
  | ok finished =>
    rw [hparse] at herror
    simpa [Prog.settle, after] using .recorded w w' message _ (value finished) herror
  | error e =>
    rw [hparse] at herror
    simpa [Prog.settle, after] using .raised w w' message _ e herror

inductive ConcludeRun (a : Attempt) (runToken : String) :
    List RecoveryEvent → Outcome recovery AttemptResult → Prop
  | verdict {t : List RecoveryEvent} {o : Outcome recovery AttemptResult}
      (result : FinishResult) (hresult : result ≠ .awaitingOutcome)
      (h : VerdictRun a runToken result t o) : ConcludeRun a runToken t o
  | unavailable (w : World) : ConcludeRun a runToken [] (.raised databaseUnavailable w)

theorem ensures_requiredDatabase {Φ : List RecoveryEvent → Outcome recovery Unit → Prop} :
    Ensures env requiredDatabase w Φ ↔
      if w.databaseSet then Φ [] (.returned () w) else Φ [] (.raised databaseUnavailable w) := by
  unfold requiredDatabase
  rw [ensures_get]
  split <;> simp

theorem conclude_run {runToken : String} (htoken : a.claimed.recoveryRunToken = some runToken)
    (outcome : Option FlowPointer) :
    Ensures env (concludeAttempt a runToken outcome) w (ConcludeRun a runToken) := by
  unfold concludeAttempt
  simp only [Prog.bind_eq, Prog.pure_eq]
  split
  · exact (finishVerdict_run (by decide)).mono fun t o h => .verdict .recovered (by decide) h
  · exact (finishVerdict_run (by decide)).mono fun t o h => .verdict .failed (by decide) h
  · unfold finishUnknown
    simp only [htoken, Prog.bind_eq, Prog.pure_eq]
    rw [ensures_bind, ensures_bind, ensures_requiredDatabase]
    split
    · simp only [after, List.nil_append]
      rw [ensures_bind, ensures_call]
      refine ⟨.verdict .unknown (by decide) (.pending w _), fun row w' _ => ?_, fun e w' _ =>
        .verdict .unknown (by decide) (.raised w w' _ (.error e) e rfl)⟩
      simp only [after, ensures_ret, List.append_nil]
      exact .verdict .unknown (by decide) (.recorded w w' _ (.ok row) AttemptResult.unknown rfl)
    · exact .unavailable w

inductive BodyRun (a : Attempt) (runToken : String) :
    List RecoveryEvent → Outcome recovery AttemptResult → Prop
  | early {t : List RecoveryEvent} {o : Outcome recovery AttemptResult}
      (hresults : results t <+: [.awaitingOutcome]) (hobserved : ∀ e ∈ t, ¬ observed e)
      (ho : ∀ result w, o ≠ .returned result w) : BodyRun a runToken t o
  | concluded {t u : List RecoveryEvent} {outcome : RecoveryEvent}
      {o : Outcome recovery AttemptResult} (hresults : results t = [.awaitingOutcome])
      (hobserved : ∀ e ∈ t, ¬ observed e) (houtcome : observed outcome)
      (h : ConcludeRun a runToken u o) : BodyRun a runToken (t ++ outcome :: u) o

theorem results_requests {t : List RecoveryEvent} (h : ∀ e ∈ t, isRequest e.op) :
    results t = [] :=
  List.filterMap_eq_nil_iff.mpr fun e he => finishResult_request (h e he)

theorem bodyRun_requests {runToken : String} {t : List RecoveryEvent}
    {o : Outcome recovery AttemptResult} (h : ∀ e ∈ t, isRequest e.op)
    (ho : ∀ result w, o ≠ .returned result w) : BodyRun a runToken t o :=
  .early (by simp [results_requests h]) (fun e he => not_observed_request (h e he)) ho

theorem BodyRun.prepend {runToken : String} {t u : List RecoveryEvent}
    {o : Outcome recovery AttemptResult} (ht : ∀ e ∈ t, isRequest e.op)
    (hu : BodyRun a runToken u o) : BodyRun a runToken (t ++ u) o := by
  have hobserved : ∀ e ∈ t, ¬ observed e := fun e he => not_observed_request (ht e he)
  cases hu with
  | early hresults hu ho =>
    refine .early ?_ (fun e he => (List.mem_append.mp he).elim (hobserved e) (hu e)) ho
    rwa [results_append, results_requests ht, List.nil_append]
  | concluded hresults hu houtcome h =>
    rw [← List.append_assoc]
    refine .concluded ?_ (fun e he => (List.mem_append.mp he).elim (hobserved e) (hu e))
      houtcome h
    rw [results_append, results_requests ht, List.nil_append, hresults]

/-- A first part that only sends commands. -/
theorem body_bind {α : Type} {runToken : String} {p : Recovery α}
    {f : α → Recovery AttemptResult} (hp : p.Only isRequest)
    (hf : ∀ x w', Ensures env (f x) w' (BodyRun a runToken)) :
    Ensures env (p.bind f) w (BodyRun a runToken) := by
  rw [ensures_bind]
  refine hp.ensures.mono fun t o ht => ?_
  cases o with
  | returned x w' => exact (hf x w').mono fun u o hu => hu.prepend ht
  | raised e w' => exact bodyRun_requests ht (by simp)
  | suspended => exact bodyRun_requests ht (by simp)
  | outOfFuel => exact bodyRun_requests ht (by simp)

theorem body_run {runToken : String} (htoken : a.claimed.recoveryRunToken = some runToken) :
    Ensures env (attemptBody c a runToken) w (BodyRun a runToken) := by
  unfold attemptBody
  simp only [Prog.bind_eq]
  refine body_bind (.forEach fun action _ => only_sendCorrection trivial action) fun _ w => ?_
  refine body_bind (only_sendResume trivial) fun receipt w => ?_
  have hearly : ∀ (t : List RecoveryEvent) (o : Outcome recovery AttemptResult),
      results t = [.awaitingOutcome] → (∀ e ∈ t, ¬ observed e) →
      (∀ result w, o ≠ .returned result w) → BodyRun a runToken t o :=
    fun t o hresults hobserved ho => .early (by simp [hresults]) hobserved ho
  rw [ensures_bind, ensures_call]
  refine ⟨hearly _ _ rfl (by simp [observed]) (by simp), fun row w' _ => ?_,
    fun e w' _ => hearly _ _ rfl (by simp [observed]) (by simp)⟩
  simp only [after]
  rw [ensures_bind, ensures_call]
  refine ⟨hearly _ _ rfl (by simp [observed]) (by simp), fun outcome w'' _ => ?_,
    fun e w'' _ => hearly _ _ rfl (by simp [observed]) (by simp)⟩
  simp only [after]
  refine (conclude_run htoken outcome).mono fun u o hu => ?_
  exact .concluded (t := [_]) rfl (by simp [observed]) trivial hu

theorem finishUnknown_run {runToken message : String} {claimed : RecoverySessionRecord}
    {failureId : String} (htoken : claimed.recoveryRunToken = some runToken) :
    Ensures env (finishUnknown claimed failureId message) w (fun t _ =>
      (∀ e ∈ t, isClosing e.op) ∧ results t = if w.databaseSet then [.unknown] else []) := by
  unfold finishUnknown
  simp only [htoken, Prog.bind_eq, Prog.pure_eq]
  rw [ensures_bind, ensures_requiredDatabase]
  split
  · simp only [after, List.nil_append]
    rw [ensures_bind, ensures_call]
    simp [after, results, finishResult, isClosing]
  · simp [after, results]

/-- The handler of an exception, by its class. -/
theorem attemptHandler_eq (e : PyExc) :
    (e.cls = .cancelled ∧
      attemptHandler a e = (finishInterrupted a).bind fun _ => .raise e) ∨
    (e.cls ≠ .cancelled ∧ isHandled e = true ∧ ∃ message,
      attemptHandler a e = (finishUnknown a.claimed a.failureId message).bind fun _ =>
        .ret .unknown) ∨
    (e.cls ≠ .cancelled ∧ isHandled e = false ∧ attemptHandler a e = .raise e) := by
  unfold attemptHandler isHandled
  simp only [Prog.bind_eq, Prog.pure_eq]
  split_ifs with hcancelled hlost hrejected hcontract
  · exact .inl ⟨hcancelled, rfl⟩
  · exact .inr (.inl ⟨hcancelled, by simp [hlost], _, rfl⟩)
  · exact .inr (.inl ⟨hcancelled, by simp [hrejected], _, rfl⟩)
  · exact .inr (.inl ⟨hcancelled, by simp [hcontract], _, rfl⟩)
  · exact .inr (.inr ⟨hcancelled, by simp [hlost, hrejected, hcontract], rfl⟩)

/-- A run of a handler, which finishes as unknown exactly under a condition. -/
def ClosingRun (closing : Prop) (t : List RecoveryEvent) : Prop :=
  (∀ x ∈ t, isClosing x.op) ∧
    (closing ∧ results t = [.unknown] ∨ ¬ closing ∧ results t = [])

theorem closingRun_of_if {closing : Prop} {set : Bool} {t : List RecoveryEvent}
    (h : (∀ x ∈ t, isClosing x.op) ∧ results t = if set then [.unknown] else [])
    (hclosing : closing ↔ set = true) : ClosingRun closing t := by
  refine ⟨h.1, ?_⟩
  rw [h.2]
  by_cases hset : set = true
  · exact .inl ⟨hclosing.mpr hset, if_pos hset⟩
  · exact .inr ⟨fun h' => hset (hclosing.mp h'), if_neg hset⟩

theorem finishInterrupted_run {runToken : String}
    (htoken : a.claimed.recoveryRunToken = some runToken) :
    Ensures env (finishInterrupted a) w (fun t _ => ClosingRun (startsFinish t) t) := by
  have hquiet : ∀ (e : PyExc) (w' : World) (Φ : List RecoveryEvent → Prop), Φ [] →
      Ensures env (if e.cls = .cancelled ∨ e.cls = .timeout then .ret () else .raise e :
        Recovery Unit) w' (fun t _ => Φ t) := by
    intro e w' Φ hΦ
    split
    · exact ensures_ret.mpr hΦ
    · exact ensures_raise.mpr hΦ
  have hnone : ∀ reply, (∀ w', reply ≠ some (.ok true, w')) →
      ClosingRun (startsFinish [⟨w, .startTask, reply⟩]) [⟨w, .startTask, reply⟩] := by
    intro reply hreply
    refine ⟨by simp [isClosing], .inr ⟨?_, rfl⟩⟩
    unfold startsFinish
    split
    · next w' _ heq =>
      simp only [List.cons.injEq, Event.mk.injEq, heq_eq_eq] at heq
      exact absurd heq.1.2.2 (hreply w')
    · exact id
  unfold finishInterrupted
  simp only [Prog.bind_eq, Prog.pure_eq]
  rw [ensures_tryCatch, ensures_bind, ensures_call]
  refine ⟨hnone _ (by simp), fun started w' _ => ?_, fun e w' _ => ?_⟩
  · cases started with
    | false =>
      simp only [after, Bool.false_eq_true, if_false, ensures_ret, List.append_nil]
      exact hnone _ (by simp)
    | true =>
      simp only [after, if_true]
      refine (finishUnknown_run htoken).mono fun t o ho => ?_
      have hrun : ClosingRun (startsFinish (⟨w, .startTask, some (.ok true, w')⟩ :: t))
          (⟨w, .startTask, some (.ok true, w')⟩ :: t) :=
        closingRun_of_if ⟨List.forall_mem_cons.mpr ⟨trivial, ho.1⟩, ho.2⟩ Iff.rfl
      cases o with
      | raised e w'' => exact hquiet e w'' _ (by simpa using hrun)
      | returned _ w'' => exact hrun
      | suspended => exact hrun
      | outOfFuel => exact hrun
  · exact hquiet e w' _ (hnone _ (by simp))

/-- What a handler does: it finishes as unknown, if it finishes. -/
theorem handler_run {runToken : String} (htoken : a.claimed.recoveryRunToken = some runToken)
    (e : PyExc) :
    Ensures env (attemptHandler a e) w (fun t _ => ClosingRun (closes e w t) t) := by
  have hbind : ∀ {p : Recovery Unit} {q : Recovery AttemptResult} {Φ : List RecoveryEvent → Prop},
      (∀ w', Ensures env q w' (fun t o => t = [])) → Ensures env p w (fun t _ => Φ t) →
      Ensures env (p.bind fun _ => q) w (fun t _ => Φ t) := by
    intro p q Φ hq hp
    rw [ensures_bind]
    refine hp.mono fun t o ho => ?_
    cases o with
    | returned _ w' =>
      refine (hq w').mono fun u o' hu => ?_
      rw [hu, List.append_nil]
      exact ho
    | raised e w' => exact ho
    | suspended => exact ho
    | outOfFuel => exact ho
  rcases attemptHandler_eq (a := a) e with ⟨hcancelled, heq⟩ |
    ⟨hcancelled, hhandled, message, heq⟩ | ⟨hcancelled, hhandled, heq⟩
  · rw [heq]
    refine hbind (fun w' => by simp) ((finishInterrupted_run htoken).mono fun t o ho => ?_)
    simpa only [closes, hcancelled, if_true] using ho
  · rw [heq]
    refine hbind (fun w' => by simp) ((finishUnknown_run htoken).mono fun t o ho => ?_)
    exact closingRun_of_if ho (by simp [closes, hcancelled, hhandled])
  · rw [heq, ensures_raise]
    exact ⟨by simp, .inr ⟨by simp [closes, hcancelled, hhandled], rfl⟩⟩

end Parts

section Sample

def sampleFlow (status : String) (index : ℤ) : Fields :=
  [("id", .str "flow-1"), ("status", .str status), ("current_action_index", .int index),
    ("areas", .arr [.obj [("name", .str "A"), ("items", .arr [.obj [("name", .str "I"),
      ("actions", .arr [.obj [("action_index", .int 0), ("command", .str "pick")]])]])]])]

def samplePointer : FlowPointer where
  revision := 7
  flowId := "flow-1"
  status := "paused"
  actionIndex := some 0
  actionCommand := some "pick"
  filename := none
  fid := none
  flowCommit := none
  raw := sampleFlow "paused" 0
  generation := 1
  completed := false

def sampleStep : Json :=
  .obj [("command", .str "pick"), ("areaName", .str "A"), ("itemName", .str "I"),
    ("actionIndex", .int 0)]

def sampleActions : Json :=
  .arr [.obj [("command", .str "$rerun"), ("arguments", .obj []), ("retry_context",
    .obj [("retried_action", sampleStep), ("expected_next_action", .null)])]]

def sampleId : String := "11111111-1111-4111-8111-111111111111"

def sampleHash : String := String.ofList (List.replicate 64 'a')

def sampleRow (actions : Json) (status : String) (attempts : ℤ) (runToken : Json) : Fields :=
  [("recovery_status", .str status), ("pinned_actions", actions),
    ("recovery_attempts", .int attempts), ("recovery_max_attempts", .int 3),
    ("recovery_rewind_steps", .int 0), ("recovery_run_token", runToken),
    ("pinned_actions_hash", .str sampleHash), ("pinned_memory_id", .str "memory-1"),
    ("pinned_resolver_suggestion", .obj [("memory_id", .str "memory-1"), ("actions", actions)]),
    ("root_episode_key", .str sampleHash), ("sysid", .str "ROBOT-1"),
    ("recovery_session_id", .str sampleId), ("root_failure_id", .str sampleId),
    ("current_failure_id", .str sampleId), ("flow_id", .str "flow-1"), ("action_index", .int 0),
    ("action_command", .str "pick")]

def sampleSettings : Settings where
  enabled := true
  robotAllowlist := ["ROBOT-1"]
  maxAttempts := 3
  commandTimeoutSeconds := 15
  outcomeTimeoutSeconds := 60
  leaseSeconds := 300
  startGraceSeconds := 0
  maxAttempts_range := by decide
  commandTimeout_pos := by norm_num
  outcomeTimeout_pos := by norm_num
  lease_range := by decide
  startGrace_nonneg := le_refl 0

def sampleCoordinator : Coordinator := ⟨sampleSettings, ["ROBOT-1"]⟩

def sampleWorld : World where
  databaseSet := true
  stopping := false
  robots := fun _ => ⟨true, 1, some samplePointer, some ⟨3, 1, []⟩⟩
  robotLocks := fun _ => false
  recoveries := []
  activeByPointer := fun _ => none

def sampleAttempt : Option Attempt :=
  match parseRecoverySession (sampleRow sampleActions "running" 1 (.str sampleId)) true,
      parseRecoveryPlan sampleActions with
  | .ok claimed, .ok plan => some ⟨"ROBOT-1", sampleId, claimed, plan, samplePointer⟩
  | _, _ => none

def sampleReceipt : CommandReceipt where
  result := .obj [("accepted", .bool true), ("mode", .str "retry_current"),
    ("rewind_steps", .int 0), ("previous_action_index", .int 0), ("target_action_index", .int 0),
    ("current_command", .str "pick"), ("flow_id", .str "flow-1")]
  generation := 1
  flowRevisionAtCorrelatedAck := 8

/-- The robot recovers; the database answers every finish with this row. -/
def sampleReaction (finished : Fields) : Reaction recovery := fun _ w op =>
  match op with
  | .requestCommand .. => some (.ok sampleReceipt, w)
  | .waitForFlow .. => some (.ok (parseFlowPointer (.obj (sampleFlow "completed" 1)) 9 1), w)
  | .finish .. => some (.ok finished, w)
  | _ => none

end Sample

section Verdict

variable {c : Coordinator} {a : Attempt} {w : World} {env : Environment recovery}

theorem oneVerdict_early {rs : List FinishResult} (h : rs <+: [.awaitingOutcome]) :
    OneVerdict rs ∧ OneVerdict (rs ++ [.unknown]) := by
  have hcases : rs = [] ∨ rs = [.awaitingOutcome] := by
    rcases rs with _ | ⟨r, rest⟩
    · exact .inl rfl
    · obtain ⟨rfl, hrest⟩ := List.cons_prefix_cons.mp h
      exact .inr (by rw [List.prefix_nil.mp hrest])
  rcases hcases with rfl | rfl
  · exact ⟨oneVerdict_start (r := .unknown) (by decide) (by simp), .inr rfl⟩
  · exact ⟨oneVerdict_start (r := .unknown) (by decide) (by simp),
      oneVerdict_start (r := .unknown) (by decide) (by simp)⟩

/-- What a verdict's run records, and whether its reply raises. -/
theorem verdictRun_results {runToken : String} {result : FinishResult}
    {t : List RecoveryEvent} {o : Outcome recovery AttemptResult}
    (h : VerdictRun a runToken result t o) : ∃ e, t = [e] ∧ finishResult e = some result ∧
      ¬ observed e ∧
      ∀ behind, reopens e behind ↔ ∃ x w', o = .raised x w' ∧ closes x w' behind := by
  cases h with
  | pending w message => exact ⟨_, rfl, rfl, by simp [observed], by simp [reopens]⟩
  | recorded w w' message reply value h =>
    exact ⟨_, rfl, rfl, by simp [observed], by simp [reopens, h]⟩
  | raised w w' message reply e h =>
    refine ⟨_, rfl, rfl, by simp [observed], fun behind => ?_⟩
    simp [reopens, h]

theorem finishResult_observed {e : RecoveryEvent} (h : observed e) : finishResult e = none := by
  unfold observed at h
  split at h
  · rfl
  · exact h.elim

/-- Without an await behind it the observed outcome is not reopened. -/
theorem not_reopened_last {t : List RecoveryEvent} {outcome : RecoveryEvent}
    (ht : ∀ e ∈ t, ¬ observed e) : ¬ Reopened (t ++ [outcome]) := by
  rintro ⟨before, outcome', verdict, behind, hsplit, hobserved, -⟩
  rcases TraceLaws.append_split hsplit with ⟨mid, hmid, -⟩ | ⟨mid, -, hmid⟩
  · exact ht outcome' (by simp [hmid]) hobserved
  · have hlength := congrArg List.length hmid
    simp only [List.length_append, List.length_cons, List.length_nil] at hlength
    omega

/-- A concluded attempt, with what its handler adds. -/
theorem oneVerdict_concluded {t u : List RecoveryEvent} {outcome verdict : RecoveryEvent}
    {result : FinishResult} {closing : Prop} (hresults : results t = [.awaitingOutcome])
    (hobserved : ∀ e ∈ t, ¬ observed e) (houtcome : observed outcome)
    (hverdict : finishResult verdict = some result) (hresult : result ≠ .awaitingOutcome)
    (hnot : ¬ observed verdict) (hreopens : reopens verdict u ↔ closing)
    (hu : ClosingRun closing u) :
    OneVerdict (results (t ++ outcome :: verdict :: u)) ↔
      ¬ Reopened (t ++ outcome :: verdict :: u) := by
  have hrs : results (t ++ outcome :: verdict :: u) = .awaitingOutcome :: result :: results u := by
    rw [results_append, hresults]
    simp [results, finishResult_observed houtcome, hverdict]
  rw [reopened_iff hobserved houtcome hnot fun e he => not_observed_closing (hu.1 e he),
    hreopens, hrs]
  rcases hu.2 with ⟨hclosing, hunknown⟩ | ⟨hclosing, hnone⟩
  · rw [hunknown]
    exact iff_of_false (not_oneVerdict_three result .unknown) fun h => h hclosing
  · rw [hnone]
    exact iff_of_true (oneVerdict_start hresult List.prefix_rfl) hclosing

/-- The awaits of an attempt; every finish is for its session and run token. -/
def ownOp (a : Attempt) : Op → Prop
  | .requestCommand sysid .. => sysid = a.sysid
  | .waitForFlow sysid .. => sysid = a.sysid
  | .startTask => True
  | .finish _ sessionId runToken _ _ =>
      sessionId = a.claimed.recoverySessionId ∧ a.claimed.recoveryRunToken = some runToken
  | _ => False

theorem only_finishUnknown_own (message : String) :
    (finishUnknown a.claimed a.failureId message).Only (ownOp a) := by
  unfold finishUnknown
  split
  · trivial
  · next runToken htoken =>
    refine .bind (fun w => ?_) fun _ => .bind (.call ⟨rfl, htoken⟩) fun _ => trivial
    dsimp only
    split <;> trivial

theorem only_executeAttempt_own : (executeAttempt c a).Only (ownOp a) := by
  unfold executeAttempt
  split
  · trivial
  · next runToken htoken =>
    have hverdict : ∀ result message,
        (finishVerdict a runToken result message).Only (ownOp a) :=
      fun result message => .bind (.call ⟨rfl, htoken⟩) fun _ => .settle _
    refine .tryCatch ?_ fun e => ?_
    · unfold attemptBody
      refine .bind (.forEach fun action _ => only_sendCorrection rfl action) fun _ => ?_
      refine .bind (only_sendResume rfl) fun receipt => ?_
      refine .bind (.call ⟨rfl, htoken⟩) fun _ => .bind (.call rfl) fun outcome => ?_
      unfold concludeAttempt
      split
      · exact .bind (hverdict _ _) fun _ => trivial
      · exact .bind (hverdict _ _) fun _ => trivial
      · exact .bind (only_finishUnknown_own _) fun _ => trivial
    · rcases attemptHandler_eq (a := a) e with ⟨-, heq⟩ | ⟨-, -, message, heq⟩ | ⟨-, -, heq⟩
      · rw [heq]
        unfold finishInterrupted
        refine .bind (.tryCatch (.bind (.call trivial) fun started => ?_) fun e => ?_)
          fun _ => trivial
        · split
          · exact only_finishUnknown_own _
          · trivial
        · split <;> trivial
      · rw [heq]
        exact .bind (only_finishUnknown_own _) fun _ => trivial
      · rw [heq]
        trivial

theorem oneVerdict_iff (c : Coordinator) (a : Attempt) (w : World) :
    Ensures env (executeAttempt c a) w (fun t _ =>
      OneVerdict (results t) ↔ ¬ Reopened t) := by
  unfold executeAttempt
  cases htoken : a.claimed.recoveryRunToken with
  | none =>
    rw [ensures_raise]
    exact iff_of_true (oneVerdict_early (by simp [results])).1 (not_reopened (by simp))
  | some runToken =>
    simp only
    rw [ensures_tryCatch]
    refine (body_run htoken).mono fun t o hbody => ?_
    cases hbody with
    | early hresults hobserved ho =>
      have hone := oneVerdict_early hresults
      have hend : OneVerdict (results t) ↔ ¬ Reopened t :=
        iff_of_true hone.1 (not_reopened hobserved)
      cases o with
      | returned result w' => exact absurd rfl (ho result w')
      | suspended => exact hend
      | outOfFuel => exact hend
      | raised e w' =>
        refine (handler_run htoken e).mono fun u _ hu => ?_
        refine iff_of_true ?_ (not_reopened fun x hx => (List.mem_append.mp hx).elim
          (hobserved x) fun hx => not_observed_closing (hu.1 x hx))
        rcases hu.2 with ⟨-, hresults⟩ | ⟨-, hresults⟩
        · rw [results_append, hresults]
          exact hone.2
        · rw [results_append, hresults, List.append_nil]
          exact hone.1
    | concluded hresults hobserved houtcome h =>
      cases h with
      | unavailable w' =>
        have heq : attemptHandler a databaseUnavailable = .raise databaseUnavailable := rfl
        simp only [heq, ensures_raise, List.append_nil]
        refine iff_of_true ?_ (not_reopened_last hobserved)
        rw [results_append, hresults]
        simpa [results, finishResult_observed houtcome] using (oneVerdict_early (by simp)).1
      | verdict result hresult hverdict =>
        obtain ⟨verdict, rfl, hfinish, hnot, hreopens⟩ := verdictRun_results hverdict
        have hend : (∀ e w', o ≠ .raised e w') →
            (OneVerdict (results _) ↔ ¬ Reopened (_ ++ _ :: [verdict])) := fun ho =>
          oneVerdict_concluded hresults hobserved houtcome hfinish hresult hnot (hreopens [])
            ⟨by simp, .inr ⟨by rintro ⟨x, w', h, -⟩; exact ho x w' h, rfl⟩⟩
        cases o with
        | returned _ w' => exact hend (by simp)
        | suspended => exact hend (by simp)
        | outOfFuel => exact hend (by simp)
        | raised e w' =>
          refine (handler_run htoken e).mono fun u _ hu => ?_
          have hclosing : reopens verdict u ↔ closes e w' u := by
            rw [hreopens]
            constructor
            · rintro ⟨x, w'', h, hcloses⟩
              obtain ⟨rfl, rfl⟩ := Outcome.raised.inj h
              exact hcloses
            · exact fun hcloses => ⟨e, w', rfl, hcloses⟩
          simpa using oneVerdict_concluded hresults hobserved houtcome hfinish hresult hnot
            hclosing hu

/-- Every finish of an attempt is for its run token, and for every run they are a
single verdict exactly when the verdict on the observed outcome is not reopened. -/
theorem executeAttempt_oneVerdict (c : Coordinator) (a : Attempt) (w : World) :
    Ensures anything (executeAttempt c a) w (fun t _ =>
      (∀ e ∈ t, ownOp a e.op) ∧ (OneVerdict (results t) ↔ ¬ Reopened t)) :=
  only_executeAttempt_own.ensures.and (oneVerdict_iff c a w)

def sampleResults (finished : Fields) : Option (List FinishResult) :=
  sampleAttempt.map fun a =>
    results (play (sampleReaction finished) (executeAttempt sampleCoordinator a) sampleWorld []).1

/-- The database answers the recorded recovery with a row that does not parse:
the attempt is finished as recovered and then as unknown. -/
theorem recovered_then_unknown :
    sampleResults [] = some [.awaitingOutcome, .recovered, .unknown] ∧
      ∃ a, sampleAttempt = some a ∧
        ¬ Ensures anything (executeAttempt sampleCoordinator a) sampleWorld
          (fun t _ => OneVerdict (results t)) := by
  have hresults : sampleResults [] = some [.awaitingOutcome, .recovered, .unknown] := by
    decide +kernel
  refine ⟨hresults, ?_⟩
  obtain ⟨a, ha, hrun⟩ := Option.map_eq_some_iff.mp hresults
  refine ⟨a, ha, fun hone => ?_⟩
  have hverdict := hone _ _ (runs_play anything (sampleReaction [])
    (fun _ _ _ _ _ _ => trivial) (executeAttempt sampleCoordinator a) sampleWorld [])
  simp only [hrun] at hverdict
  exact not_oneVerdict_three _ _ hverdict

end Verdict

end FailureResolver.AttemptVerdict
