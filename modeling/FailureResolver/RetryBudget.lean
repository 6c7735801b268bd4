import FailureResolver.AttemptClosure

/-!
The retry budget over many runs. Several calls of `processFailure`, interleaved
and cut anywhere by a restart, touch one recovery session. The database counts
every claim before it answers one, and a claimed row that reports more attempts
than its maximum is refused, so the counter bounds the attempts with a command,
the continuations sent and the passes of every loop.
-/

namespace FailureResolver.RetryBudget

open Program TraceLaws JsonValue PyException LiveFlow RecoveryContract ActionPlan PlanValidation
open RecoveryCoordinator CommandProtocol AttemptVerdict AttemptClosure

section Database

structure Stored where
  status : String
  attempts : ℕ
  maxAttempts : ℕ
  deriving DecidableEq

def reports (row : Fields) (key : String) (n : ℕ) : Bool :=
  match row.get key with
  | .int m => m = n
  | _ => false

/-- A claim is answered from a ready or failed session; it has raised the count
of attempts by one, which the row reports. -/
def claimServed (sessionId : String) (s s' : Stored) (e : RecoveryEvent) : Bool :=
  match e with
  | ⟨_, .claim _ claimedId _, some (.ok row, _)⟩ =>
      claimedId ≠ sessionId || (decide (s.status ∈ ["ready", "failed"]) &&
        s'.attempts = s.attempts + 1 && reports row "recovery_attempts" s'.attempts &&
        reports row "recovery_max_attempts" s'.maxAttempts)
  | _ => true

/-- A recorded failure ends the session when its attempts are used up. -/
def failureServed (sessionId : String) (s s' : Stored) (e : RecoveryEvent) : Bool :=
  match e with
  | ⟨_, .finish _ finishedId _ .failed _, some (.ok _, _)⟩ =>
      finishedId ≠ sessionId ||
        s'.status = if s.attempts = s.maxAttempts then "timed_out" else "failed"
  | _ => true

/-- What the database promises of a session over one await of any run. -/
structure Served (sessionId : String) (s : Stored) (e : RecoveryEvent) (s' : Stored) : Prop where
  budget : s'.maxAttempts = s.maxAttempts
  counter : s.attempts ≤ s'.attempts
  terminal : s.status ∈ terminalSessionStatuses → s'.status = s.status
  claim : claimServed sessionId s s' e = true
  failure : failureServed sessionId s s' e = true

instance {sessionId : String} {s s' : Stored} {e : RecoveryEvent} :
    Decidable (Served sessionId s e s') :=
  decidable_of_iff (s'.maxAttempts = s.maxAttempts ∧ s.attempts ≤ s'.attempts ∧
      (s.status ∈ terminalSessionStatuses → s'.status = s.status) ∧
      claimServed sessionId s s' e = true ∧ failureServed sessionId s s' e = true)
    ⟨fun ⟨h1, h2, h3, h4, h5⟩ => ⟨h1, h2, h3, h4, h5⟩,
      fun h => ⟨h.budget, h.counter, h.terminal, h.claim, h.failure⟩⟩

/-- The database keeps its promises; `stored k` is the session before event `k`. -/
def ServedAll (sessionId : String) (stored : ℕ → Stored) (events : List RecoveryEvent) : Prop :=
  ∀ k (hk : k < events.length), Served sessionId (stored k) events[k] (stored (k + 1))

instance {sessionId : String} {stored : ℕ → Stored} {events : List RecoveryEvent} :
    Decidable (ServedAll sessionId stored events) :=
  inferInstanceAs (Decidable (∀ k (hk : k < events.length),
    Served sessionId (stored k) events[k] (stored (k + 1))))

variable {sessionId : String} {stored : ℕ → Stored} {e : RecoveryEvent}
  {events t u : List RecoveryEvent}

theorem servedAll_cons (h : ServedAll sessionId stored (e :: events)) :
    Served sessionId (stored 0) e (stored 1) ∧
      ServedAll sessionId (fun k => stored (k + 1)) events :=
  ⟨h 0 (by simp), fun k hk => h (k + 1) (by simpa using hk)⟩

def claimsSession (sessionId : String) (e : RecoveryEvent) : Bool :=
  match claimed e with
  | some claim => claim.sessionId = sessionId
  | none => false

theorem reports_requiredInt {row : Fields} {key : String} {n : ℕ} {minimum maximum m : ℤ}
    (hreports : reports row key n = true)
    (h : requiredInt (row.get key) key minimum maximum = .ok m) : m = n := by
  obtain ⟨hvalue, -⟩ := requiredInt_eq_ok h
  unfold reports at hreports
  rw [hvalue] at hreports
  simpa using hreports

/-- A claim whose row parsed was counted, and is within the budget. -/
theorem served_claim {s s' : Stored} (h : Served sessionId s e s')
    (hclaims : claimsSession sessionId e = true) :
    s'.attempts = s.attempts + 1 ∧ s'.attempts ≤ s'.maxAttempts := by
  unfold claimsSession claimed at hclaims
  split at hclaims
  · next claim hclaim =>
    split at hclaim
    · next failureId claimedId lease row w' =>
      cases hparse : parseRecoverySession row true with
      | error e => simp [hparse] at hclaim
      | ok record =>
        simp only [hparse, Option.some.injEq] at hclaim
        subst hclaim
        have hserved := h.claim
        simp only [claimServed, Bool.or_eq_true, Bool.and_eq_true, decide_eq_true_eq] at hserved
        obtain ⟨⟨⟨-, hattempts⟩, hcount⟩, hmax⟩ := hserved.resolve_left (by simpa using hclaims)
        have haccepted := parseRecoverySession_accepted hparse
        have hrecordCount := reports_requiredInt hcount haccepted.attempts
        have hrecordMax := reports_requiredInt hmax haccepted.maxAttempts
        have hbudget := haccepted.budget
        exact ⟨hattempts, by omega⟩
    · cases hclaim
  · cases hclaims

/-- The claims whose row parsed use up what is left of the budget. -/
theorem countP_claims_le (h : ServedAll sessionId stored events) :
    events.countP (claimsSession sessionId) ≤ (stored 0).maxAttempts - (stored 0).attempts := by
  induction events generalizing stored with
  | nil => simp
  | cons e events ih =>
    obtain ⟨hserved, hrest⟩ := servedAll_cons h
    have hcount := ih hrest
    have hbudget := hserved.budget
    have hcounter := hserved.counter
    rw [List.countP_cons]
    split
    · next hclaims =>
      obtain ⟨hattempts, hwithin⟩ := served_claim hserved hclaims
      simp only [zero_add] at hcount
      omega
    · simp only [zero_add] at hcount
      omega

end Database

section Governed

/-- Every command of the list belongs to an attempt that follows its plan. -/
structure Governed (t : List RecoveryEvent) : Prop where
  before : Silent sentCommand (prologue claimed t)
  lawful : ∀ x ∈ segments claimed t, ∃ sysid pointer, AttemptLaw sysid x.1 pointer x.2

variable {env : Environment recovery} {w : World} {t u : List RecoveryEvent} {α β : Type}

theorem governed_protocol (sysid : String) (known : Option FlowPointer)
    (h : Protocol sysid known t) : Governed t :=
  ⟨h.before, fun _ hx => ⟨sysid, h.exists_law hx⟩⟩

theorem governed_quiet (h : ∀ e ∈ t, quietOp e.op) : Governed t :=
  governed_protocol "" none (protocol_quiet h)

theorem Governed.prepend (ht : ∀ e ∈ t, quietOp e.op) (hu : Governed u) : Governed (t ++ u) := by
  have hclosed : ∀ e ∈ t, claimed e = none := fun e he => claimed_quiet (ht e he)
  refine ⟨?_, ?_⟩
  · rw [prologue_append_closed hclosed]
    exact silent_append.mpr ⟨fun e he => sentCommand_quiet (ht e he), hu.before⟩
  · rw [segments_append_closed hclosed]
    exact hu.lawful

theorem Governed.append (ht : Governed t) (hu : ∀ e ∈ u, quietOp e.op) : Governed (t ++ u) := by
  have hsilent : Silent sentCommand u := fun e he => sentCommand_quiet (hu e he)
  refine ⟨silent_prologue_append ht.before hsilent, ?_⟩
  rcases segments_append_closed_right t (fun e he => claimed_quiet (hu e he)) with
    ⟨hnone, -⟩ | ⟨before, claim, last, hshort, hlong⟩
  · simp [hnone]
  · rw [hlong]
    intro x hx
    rcases List.mem_append.mp hx with hx | hx
    · exact ht.lawful x (by simp [hshort, hx])
    · obtain ⟨sysid, pointer, hlaw⟩ := ht.lawful (claim, last) (by simp [hshort])
      rw [List.mem_singleton.mp hx]
      exact ⟨sysid, pointer, hlaw.append_silent hsilent⟩

/-- A run that is cut has used its fuel on claims whose rows parsed. -/
structure BudgetRun (fuel : ℕ) (t : List RecoveryEvent) (o : Outcome recovery α) : Prop where
  governed : Governed t
  spent : o = .outOfFuel → fuel ≤ (t.filterMap claimed).length

variable {c : Coordinator} {fuel : ℕ}

theorem budget_only {p : Recovery α} (hp : p.Only quietOp) :
    Ensures env p w (BudgetRun fuel) :=
  (hp.ensures.and hp.not_outOfFuel).mono fun _ _ h => ⟨governed_quiet h.1, fun ho => absurd ho h.2⟩

theorem budget_bind {p : Recovery α} {f : α → Recovery β} (hp : p.Only quietOp)
    (hf : ∀ a w', Ensures env (f a) w' (BudgetRun fuel)) :
    Ensures env (p.bind f) w (BudgetRun fuel) := by
  rw [ensures_bind]
  refine (hp.ensures.and hp.not_outOfFuel).mono fun t o ho => ?_
  cases o with
  | returned a w' =>
    refine (hf a w').mono fun u o' hu => ⟨hu.governed.prepend ho.1, fun hcut => ?_⟩
    have hspent := hu.spent hcut
    rw [List.filterMap_append, List.length_append]
    omega
  | raised e w' => exact ⟨governed_quiet ho.1, by simp⟩
  | suspended => exact ⟨governed_quiet ho.1, by simp⟩
  | outOfFuel => exact absurd rfl ho.2

theorem budget_tryCatch {p : Recovery α} {handler : PyExc → Recovery α}
    (hp : Ensures env p w (BudgetRun fuel)) (hhandler : ∀ e, (handler e).Only quietOp) :
    Ensures env (p.tryCatch handler) w (BudgetRun fuel) := by
  rw [ensures_tryCatch]
  refine hp.mono fun t o ho => ?_
  cases o with
  | returned a w' => exact ⟨ho.governed, by simp⟩
  | suspended => exact ⟨ho.governed, by simp⟩
  | outOfFuel => exact ⟨ho.governed, fun _ => ho.spent rfl⟩
  | raised e w' =>
    refine ((hhandler e).ensures.and (hhandler e).not_outOfFuel).mono fun u o' hu => ?_
    exact ⟨ho.governed.append hu.1, fun hcut => absurd hcut hu.2⟩

theorem budget_tryFinally {p : Recovery α} {cleanup : World → World}
    (hp : Ensures env p w (BudgetRun fuel)) :
    Ensures env (p.tryFinally cleanup) w (BudgetRun fuel) := by
  rw [ensures_tryFinally]
  refine hp.mono fun t o ho => ?_
  cases o with
  | returned a w' => exact ⟨ho.governed, by simp⟩
  | raised e w' => exact ⟨ho.governed, by simp⟩
  | suspended => exact ⟨ho.governed, by simp⟩
  | outOfFuel => exact ⟨ho.governed, fun _ => ho.spent rfl⟩

/-- Every pass of the loop that is followed by another one has claimed a row that
parsed. -/
theorem attemptLoop_budget (sysid sessionId : String) (plan : RecoveryPlan) (ref fuel : ℕ)
    (pointer : FlowPointer) :
    Ensures env (attemptLoop c sysid sessionId plan ref fuel pointer) w (BudgetRun fuel) := by
  have hspent : Ensures env (attemptLoop c sysid sessionId plan ref fuel pointer) w
      (fun t o => o = .outOfFuel → fuel ≤ (t.filterMap claimed).length) := by
    induction fuel generalizing pointer w with
    | zero => exact ensures_halt.mpr fun _ => Nat.zero_le _
    | succ fuel ih =>
      rw [attemptLoop]
      simp only [Prog.bind_eq, Prog.pure_eq, Prog.observe, Prog.bind, ensures_get]
      split
      · exact ensures_ret.mpr (by simp)
      rw [ensures_bind, ensures_requireLive]
      refine ⟨fun frame _ => ?_, fun e _ hcut => by cases hcut⟩
      simp only [after, List.nil_append]
      rw [ensures_bind, ensures_call]
      refine ⟨fun hcut => (by cases hcut), fun row w' _ => ?_, fun e w' _ hcut => by cases hcut⟩
      simp only [after, List.singleton_append]
      rw [ensures_bind]
      intro t o hrun
      have hends := only_afterClaim.not_outOfFuel t o hrun
      cases o with
      | raised e w'' => simp [after]
      | suspended => simp [after]
      | outOfFuel => exact absurd rfl hends
      | returned next w'' =>
        cases next with
        | none => exact ensures_ret.mpr (by simp)
        | some next =>
          refine (ih next).mono fun u o' hu hcut => ?_
          have hrest := hu hcut
          cases hparse : parseRecoverySession row true with
          | error e =>
            have hlast := afterClaim_malformed_ends _ _ _ hparse t _ hrun _ _ rfl
            cases hlast
          | ok record =>
            simp only [claimed, List.filterMap_cons, hparse, List.filterMap_append,
              List.length_cons, List.length_append]
            omega
  exact ((attemptLoop_protocol sessionId plan ref fuel pointer).and hspent).mono
    fun t o ho => ⟨governed_protocol _ _ ho.1, ho.2⟩

theorem executeTarget_budget (fuel : ℕ) (target : FailureRecoveryTarget) (newSessionId : String) :
    Ensures env (executeTarget c fuel target newSessionId) w (BudgetRun fuel) := by
  unfold executeTarget
  simp only [Prog.bind_eq, Prog.pure_eq]
  refine budget_bind only_requiredDatabase fun _ w => ?_
  split
  · exact budget_only trivial
  refine budget_bind (preparatory_freshPausedPointer target).only fun pointer w => ?_
  refine budget_bind (.call trivial) fun _ w => ?_
  refine budget_bind (preparatory_preparedSession target pointer newSessionId).quiet.only fun x w => ?_
  obtain ⟨sessionId, prepared⟩ := x
  dsimp only
  split
  · exact budget_only trivial
  refine budget_bind (.settle _) fun plan w => ?_
  refine budget_bind (only_requireLive _ _ _ _) fun _ w => ?_
  refine budget_bind (.settle _) fun required w => ?_
  split
  · exact budget_only trivial
  refine budget_bind (preparatory_graceWindow sessionId).quiet.only fun go w => ?_
  split
  · unfold runSession
    rw [ensures_get, ensures_set]
    exact budget_tryFinally (attemptLoop_budget _ _ _ _ _ _)
  · exact budget_only trivial

theorem only_attachActiveRecurrence (target : FailurePointerTarget) :
    (attachActiveRecurrence target).Only quietOp := by
  unfold attachActiveRecurrence
  simp only [Prog.bind_eq, Prog.pure_eq]
  refine .bind (fun w => trivial) fun w => ?_
  split
  · trivial
  · split
    · trivial
    · split_ifs
      · exact .bind (.call trivial) fun _ => .bind (fun w => trivial) fun _ => trivial
      · exact .bind (fun w => trivial) fun _ => trivial
      · trivial

theorem executeGuarded_budget (fuel : ℕ) (target : FailureRecoveryTarget) (newSessionId : String) :
    Ensures env (executeGuarded c fuel target newSessionId) w (BudgetRun fuel) := by
  refine budget_tryCatch (executeTarget_budget fuel target newSessionId) fun e => ?_
  split_ifs
  · exact .call trivial
  · trivial
  · trivial

theorem processLocked_budget (fuel : ℕ) (failureId newSessionId : String) :
    Ensures env (processLocked c fuel failureId newSessionId) w (BudgetRun fuel) := by
  unfold processLocked
  simp only [Prog.bind_eq, Prog.pure_eq]
  refine budget_bind (.call trivial) fun row w => ?_
  split
  · exact budget_only trivial
  refine budget_bind (.settle _) fun target w => ?_
  refine budget_bind (only_attachActiveRecurrence _) fun attached w => ?_
  split_ifs
  · exact budget_only trivial
  · exact budget_only trivial
  · exact executeGuarded_budget fuel target newSessionId

theorem processFailure_budget (fuel : ℕ) (failureId newSessionId : String) :
    Ensures env (processFailure c fuel failureId newSessionId) w (BudgetRun fuel) := by
  unfold processFailure
  simp only [Prog.bind_eq, Prog.pure_eq]
  split
  · exact budget_only trivial
  refine budget_bind only_requiredDatabase fun _ w => ?_
  refine budget_bind (.call trivial) fun row w => ?_
  split
  · exact budget_only trivial
  refine budget_bind (.settle _) fun pointerTarget w => ?_
  split
  · exact budget_only trivial
  refine budget_bind (only_attachActiveRecurrence _) fun attached w => ?_
  split_ifs
  · exact budget_only trivial
  · exact budget_only trivial
  refine budget_bind (.settle _) fun target w => ?_
  split_ifs
  · exact budget_only trivial
  refine budget_bind (.call trivial) fun _ w => ?_
  refine budget_bind (fun w => trivial) fun _ w => ?_
  exact budget_tryFinally (processLocked_budget fuel _ newSessionId)

end Governed

section Counting

def isResume (e : RecoveryEvent) : Bool :=
  match sentCommand e with
  | some (command, _) => command = "$resume_flow"
  | none => false

def sendsAny (t : List RecoveryEvent) : Bool := t.any (fun e => (sentCommand e).isSome)

def attemptsOf (sessionId : String) (t : List RecoveryEvent) : List (List RecoveryEvent) :=
  ((segments claimed t).filter (fun x => x.1.sessionId = sessionId)).map Prod.snd

def attemptsSent (sessionId : String) (t : List RecoveryEvent) : ℕ :=
  (attemptsOf sessionId t).countP sendsAny

def resumesSent (sessionId : String) (t : List RecoveryEvent) : ℕ :=
  ((attemptsOf sessionId t).map (List.countP isResume)).sum

variable {sessionId : String} {claim : Claim} {t : List RecoveryEvent}

theorem countP_isResume (t : List RecoveryEvent) :
    t.countP isResume =
      (t.filterMap sentCommand).countP (fun command => command.1 = "$resume_flow") := by
  rw [List.countP_filterMap]
  congr 1
  funext e
  unfold isResume
  cases sentCommand e <;> simp

/-- A plan has one continuation: no correction is a meta-command. -/
theorem planCommands_resumes {value : Json} {plan : RecoveryPlan} {pointer : FlowPointer}
    (h : parseRecoveryPlan value = .ok plan) :
    (planCommands plan pointer).countP (fun command => command.1 = "$resume_flow") ≤ 1 := by
  have hcorrections : (correctionCommands plan).countP
      (fun command => command.1 = "$resume_flow") = 0 := by
    rw [List.countP_eq_zero]
    intro command hcommand hresume
    obtain ⟨action, haction, rfl⟩ := List.mem_map.mp hcommand
    have hplain := parseRecoveryPlan_corrections h action haction
    have hname : action.command = "$resume_flow" := of_decide_eq_true hresume
    rw [hname] at hplain
    exact absurd hplain (by decide)
  have hresume : (resumeCommands plan pointer).length ≤ 1 := by
    unfold resumeCommands
    split <;> simp
  unfold planCommands
  rw [List.countP_append, hcorrections, zero_add]
  exact List.countP_le_length.trans hresume

/-- An attempt sends one continuation at most, and none without a command. -/
theorem attempt_resumes {sysid : String} {pointer : FlowPointer}
    (h : AttemptLaw sysid claim pointer t) :
    t.countP isResume ≤ if sendsAny t then 1 else 0 := by
  rw [countP_isResume]
  split
  · obtain ⟨-, hlaw⟩ := h
    cases hplan : parseRecoveryPlan (asPlanValue claim.record.pinnedActions) with
    | ok plan =>
      rw [hplan] at hlaw
      exact (hlaw.1.sublist.countP_le).trans (planCommands_resumes hplan)
    | error e =>
      rw [hplan] at hlaw
      simp [Silent.filterMap_eq hlaw]
  · next hnone =>
    have hsilent : Silent sentCommand t := by
      simpa [sendsAny, Silent] using hnone
    simp [hsilent.filterMap_eq]

theorem resumesSent_le (h : Governed t) : resumesSent sessionId t ≤ attemptsSent sessionId t := by
  have hlawful : ∀ u ∈ attemptsOf sessionId t,
      u.countP isResume ≤ if sendsAny u then 1 else 0 := by
    intro u hu
    obtain ⟨⟨claim, u⟩, hx, rfl⟩ := List.mem_map.mp hu
    obtain ⟨sysid, pointer, hlaw⟩ := h.lawful _ (List.mem_of_mem_filter hx)
    exact attempt_resumes hlaw
  unfold resumesSent attemptsSent
  generalize attemptsOf sessionId t = attempts at hlawful
  induction attempts with
  | nil => simp
  | cons u rest ih =>
    obtain ⟨hu, hrest⟩ := List.forall_mem_cons.mp hlawful
    have hsum := ih hrest
    rw [List.map_cons, List.sum_cons, List.countP_cons]
    omega

/-- Every attempt with a command has its own claim. -/
theorem attemptsSent_le (sessionId : String) (t : List RecoveryEvent) :
    attemptsSent sessionId t ≤ t.countP (claimsSession sessionId) := by
  have hclaims : t.countP (claimsSession sessionId) =
      ((segments claimed t).map Prod.fst).countP (fun claim => claim.sessionId = sessionId) := by
    rw [map_segments, List.countP_filterMap]
    congr 1
    funext e
    unfold claimsSession
    cases claimed e <;> simp
  rw [hclaims, List.countP_map, List.countP_eq_length_filter]
  unfold attemptsSent attemptsOf
  exact List.countP_le_length.trans (by simp [Function.comp_def])

end Counting

section Budget

/-- One call of `processFailure`, from the state it starts in. -/
structure FailureRun where
  coordinator : Coordinator
  fuel : ℕ
  failureId : String
  newSessionId : String
  start : World
  outcome : Outcome recovery Unit

/-- The events are those of this call; a run may stop at any await. -/
def FailureRun.Makes (run : FailureRun) (t : List RecoveryEvent) : Prop :=
  Runs anything (processFailure run.coordinator run.fuel run.failureId run.newSessionId) run.start
    t run.outcome

def claimsOnly (sessionId : String) (t : List RecoveryEvent) : Prop :=
  ∀ claim ∈ t.filterMap claimed, claim.sessionId = sessionId

theorem countP_claims_of_only {sessionId : String} {t : List RecoveryEvent}
    (h : claimsOnly sessionId t) :
    (t.filterMap claimed).length = t.countP (claimsSession sessionId) := by
  have hall : (t.filterMap claimed).countP (fun claim => claim.sessionId = sessionId) =
      (t.filterMap claimed).length := by
    rw [List.countP_eq_length]
    exact fun claim hclaim => decide_eq_true (h claim hclaim)
  rw [← hall, List.countP_filterMap]
  congr 1
  funext e
  unfold claimsSession
  cases claimed e <;> simp

/-- In every interleaving of runs of `processFailure` with a database that keeps
its promises about a session, the attempts with a command and the continuations
sent stay within what is left of the budget, and a run for the session whose
loop may pass more often than that is never cut. -/
theorem retry_budget (sessionId : String) (stored : ℕ → Stored) (runs : ℕ → FailureRun) (n : ℕ)
    (history : List (ℕ × RecoveryEvent))
    (hruns : ∀ i < n, (runs i).Makes (projection i history))
    (hserved : ServedAll sessionId stored (history.map Prod.snd)) :
    ∑ i ∈ Finset.range n, attemptsSent sessionId (projection i history) ≤
        (stored 0).maxAttempts - (stored 0).attempts ∧
      ∑ i ∈ Finset.range n, resumesSent sessionId (projection i history) ≤
        (stored 0).maxAttempts - (stored 0).attempts ∧
      ∀ i < n, claimsOnly sessionId (projection i history) →
        (stored 0).maxAttempts < (runs i).fuel → (runs i).outcome ≠ .outOfFuel := by
  have hrun : ∀ i < n, BudgetRun (runs i).fuel (projection i history) (runs i).outcome :=
    fun i hi => processFailure_budget _ _ _ _ _ (hruns i hi)
  have hclaims : ∑ i ∈ Finset.range n, (projection i history).countP (claimsSession sessionId) ≤
      (stored 0).maxAttempts - (stored 0).attempts :=
    (sum_countP_projection_le _ history n).trans (countP_claims_le hserved)
  have hattempts := (Finset.sum_le_sum fun i _ =>
    attemptsSent_le sessionId (projection i history)).trans hclaims
  refine ⟨hattempts, ?_, fun i hi honly hfuel hcut => ?_⟩
  · exact (Finset.sum_le_sum fun i hi =>
      resumesSent_le (hrun i (Finset.mem_range.mp hi)).governed).trans hattempts
  · have hspent := (hrun i hi).spent hcut
    rw [countP_claims_of_only honly] at hspent
    have hone := Finset.single_le_sum (f := fun i =>
      (projection i history).countP (claimsSession sessionId)) (fun _ _ => Nat.zero_le _)
      (Finset.mem_range.mpr hi)
    omega

def sampleFailureRow : Fields :=
  [("failure_id", .str sampleId), ("sysid", .str "ROBOT-1"), ("flow_id", .str "flow-1"),
    ("action_index", .int 0), ("action_command", .str "pick"),
    ("recovery_episode_key", .str sampleHash), ("recovery_status", .str "ready"),
    ("recovery_session_id", .str sampleId), ("analysis_status", .str "completed"),
    ("matcher_status", .str "solution_found"),
    ("resolver_suggestion", .obj [("memory_id", .str "memory-1"), ("actions", sampleActions)])]

/-- The session after one await: a claim is counted, a failure recorded. -/
def Stored.after (s : Stored) (e : RecoveryEvent) : Stored :=
  match e.op with
  | .claim .. => { s with status := "running", attempts := s.attempts + 1 }
  | .finish _ _ _ .failed _ =>
      { s with status := if s.attempts = s.maxAttempts then "timed_out" else "failed" }
  | _ => s

def sampleStored (events : List RecoveryEvent) (k : ℕ) : Stored :=
  (events.take k).foldl Stored.after ⟨"ready", 0, 3⟩

/-- The robot acknowledges everything and stops at the same step again. -/
def stuckReaction : Reaction recovery := fun past w op =>
  let s := past.foldl Stored.after ⟨"ready", 0, 3⟩
  match op with
  | .fetchFailure _ => some (.ok (some sampleFailureRow), w)
  | .acquireRobotLock _ => some (.ok (), w)
  | .waitConnected .. => some (.ok (), w)
  | .waitForCommands .. => some (.ok ⟨3, 1, []⟩, w)
  | .project _ => some (.ok (sampleRow sampleActions "ready" 0 .null), w)
  | .claim .. => some (.ok (sampleRow sampleActions "running" (s.attempts + 1)
      (.str sampleId)), w)
  | .requestCommand .. => some (.ok sampleReceipt, w)
  | .waitForFlow .. => some (.ok (parseFlowPointer (.obj (sampleFlow "paused" 0)) 9 1), w)
  | .finish .. => some (.ok (sampleRow sampleActions
      (if s.attempts = s.maxAttempts then "timed_out" else "failed") s.attempts
      (.str sampleId)), w)
  | _ => none

def stuckRun : List RecoveryEvent × Outcome recovery Unit :=
  play stuckReaction (processFailure sampleCoordinator 4 sampleId sampleId) sampleWorld []

/-- A robot that never recovers uses the whole budget, and no more. -/
theorem stuckRun_budget : attemptsSent sampleId stuckRun.1 = 3 ∧
    attemptsSent sampleId stuckRun.1 ≤ 3 ∧ resumesSent sampleId stuckRun.1 ≤ 3 ∧
    stuckRun.2 ≠ .outOfFuel := by
  have hprojection : projection 0 (stuckRun.1.map fun e => (0, e)) = stuckRun.1 := by
    simp [projection, List.filter_map, Function.comp_def]
  have hbudget := retry_budget sampleId (sampleStored stuckRun.1)
    (fun _ => ⟨sampleCoordinator, 4, sampleId, sampleId, sampleWorld, stuckRun.2⟩) 1
    (stuckRun.1.map fun e => (0, e))
    (fun i hi => by
      rw [Nat.lt_one_iff.mp hi, hprojection]
      exact runs_play anything stuckReaction (fun _ _ _ _ _ _ => trivial) _ sampleWorld [])
    (by
      simp only [List.map_map, Function.comp_def, List.map_id']
      decide +kernel)
  simp only [Finset.sum_range_one, hprojection] at hbudget
  obtain ⟨hattempts, hresumes, hcut⟩ := hbudget
  refine ⟨by decide +kernel, hattempts, hresumes, hcut 0 one_pos ?_ (by decide)⟩
  rw [hprojection]
  have hclaims : (stuckRun.1.filterMap claimed).all (fun claim => claim.sessionId = sampleId) =
      true := by decide +kernel
  exact fun claim hclaim => of_decide_eq_true (List.all_eq_true.mp hclaims claim hclaim)

end Budget

end FailureResolver.RetryBudget
