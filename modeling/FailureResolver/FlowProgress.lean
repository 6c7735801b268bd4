import FailureResolver.FlowOutcome

/-!
When a recovered verdict means progress. A Flow has left a failed step when its
current action stands past the step, or when its program counter is past every
action of the tree. The classifier also answers recovered for a Flow that rests
at the step with an idle status, and for one whose counter equals the number of
its actions while an action carries that index or a later one.
-/

namespace FailureResolver.FlowProgress

open JsonValue PyText LiveFlow RecoveryContract FlowOutcome

section Progress

def flowIdentity (flow : Fields) : Option String :=
  [textOf (flow.get "id"), textOf (flow.get "filename"), textOf (flow.get "fid")].findSome? id

def programCounter (flow : Fields) : Option ℤ := integerOf (flow.get "current_action_index")

def indexOf (action : Fields) : Option ℤ := integerOf (action.get "action_index")

def actionIndices (flow : Fields) : List ℤ := (flowActions flow).filterMap indexOf

/-- The index of the action a Flow stands at: the one its counter names, else the
first stopped one. -/
def currentActionIndex (flow : Fields) : Option ℤ :=
  (currentAction (flowActions flow) (programCounter flow)).bind indexOf

/-- The counter is past the last action, and no action carries it. -/
def PastLastAction (flow : Fields) : Prop :=
  ∃ counter ∈ programCounter flow,
    (∀ index ∈ actionIndices flow, index < counter) ∧ counter ∉ actionIndices flow

def PastStep (flow : Fields) (session : RecoverySessionRecord) : Prop :=
  ∃ index ∈ currentActionIndex flow, session.actionIndex < index

/-- The Flow is the session's and is no longer at the failed step. -/
def Progressed (flow : Fields) (session : RecoverySessionRecord) : Prop :=
  flowIdentity flow = some session.flowId ∧ (PastStep flow session ∨ PastLastAction flow)

def hasSuccessStatus (flow : Fields) : Bool :=
  match textOf (flow.get "status") with
  | some status => casefold status ∈ completedFlowStatuses
  | none => false

def CountsOut (flow : Fields) : Prop :=
  programCounter flow = some ((flowActions flow).length : ℤ)

instance (flow : Fields) : Decidable (CountsOut flow) :=
  inferInstanceAs (Decidable (programCounter flow = some ((flowActions flow).length : ℤ)))

/-- The counter, if there is one, is not past every action. -/
def StandsInTree (flow : Fields) : Prop :=
  ∀ counter ∈ programCounter flow, ∃ index ∈ actionIndices flow, counter ≤ index

/-- The session's Flow carries a success status without having left the step:
it rests at the failed index, or its counter only equals the number of actions. -/
def RestsAtStep (flow : Fields) (session : RecoverySessionRecord) : Prop :=
  flowIdentity flow = some session.flowId ∧ hasSuccessStatus flow = true ∧ StandsInTree flow ∧
    if CountsOut flow then ∀ index ∈ currentActionIndex flow, index ≤ session.actionIndex
    else currentActionIndex flow = some session.actionIndex

end Progress

section Projection

variable {flow : Fields} {revision generation : ℕ} {pointer : FlowPointer}
variable {session : RecoverySessionRecord}

theorem strip_of_textOf {value : Json} {s : String} (h : textOf value = some s) :
    strip s = s := by
  cases value with
  | str text =>
    unfold textOf at h
    by_cases hempty : strip text = ""
    · simp [hempty] at h
    · simp only [hempty, if_false, Option.some.injEq] at h
      rw [← h, strip_strip]
  | _ => cases h

/-- What a pointer keeps of its Flow: a completed one has no step, any other one
stands at the current action. -/
theorem pointerOfFlow_eq_some (h : pointerOfFlow flow revision generation = some pointer) :
    flowIdentity flow = some pointer.flowId ∧ textOf (flow.get "status") = some pointer.status ∧
      if CountsOut flow ∧ hasSuccessStatus flow = true then
        pointer.completed = true ∧ pointer.actionIndex = none
      else pointer.completed = false ∧ ∃ index, pointer.actionIndex = some index ∧
        currentActionIndex flow = some index := by
  have hfirst : [textOf (flow.get "id"), textOf (flow.get "filename"),
      textOf (flow.get "fid")].findSome? id = flowIdentity flow := rfl
  unfold pointerOfFlow at h
  simp only [hfirst] at h
  cases hidentity : flowIdentity flow with
  | none => simp [hidentity] at h
  | some flowId =>
    cases hstatus : textOf (flow.get "status") with
    | none => simp [hidentity, hstatus] at h
    | some status =>
      have hsuccess : hasSuccessStatus flow = decide (casefold status ∈ completedFlowStatuses) := by
        simp [hasSuccessStatus, hstatus]
      simp only [hidentity, hstatus] at h
      by_cases hcomplete : integerOf (flow.get "current_action_index") =
          some ((flowActions flow).length : ℤ) ∧ casefold status ∈ completedFlowStatuses
      · rw [if_pos hcomplete] at h
        cases h
        refine ⟨rfl, rfl, ?_⟩
        rw [if_pos ⟨hcomplete.1, hsuccess.trans (decide_eq_true hcomplete.2)⟩]
        exact ⟨rfl, rfl⟩
      · rw [if_neg hcomplete] at h
        have hnot : ¬ (CountsOut flow ∧ hasSuccessStatus flow = true) := by
          rw [hsuccess, decide_eq_true_eq]
          exact hcomplete
        cases hcurrent : currentAction (flowActions flow) (programCounter flow) with
        | none =>
          unfold programCounter at hcurrent
          simp [hcurrent] at h
        | some current =>
          have hindex : currentActionIndex flow = indexOf current := by
            simp [currentActionIndex, hcurrent]
          unfold programCounter at hcurrent
          simp only [hcurrent] at h
          cases hcurrentIndex : indexOf current with
          | none =>
            unfold indexOf at hcurrentIndex
            simp [hcurrentIndex] at h
          | some index =>
            rw [hcurrentIndex] at hindex
            unfold indexOf at hcurrentIndex
            cases hcommand : textOf (current.get "command") with
            | none => simp [hcurrentIndex, hcommand] at h
            | some command =>
              simp only [hcurrentIndex, hcommand] at h
              by_cases hnegative : index < 0
              · simp [hnegative] at h
              · simp only [hnegative, if_false, Option.some.injEq] at h
                subst h
                refine ⟨rfl, rfl, ?_⟩
                rw [if_neg hnot]
                exact ⟨rfl, index, rfl, hindex⟩

theorem isSuccess_eq (h : pointerOfFlow flow revision generation = some pointer) :
    isSuccess pointer = hasSuccessStatus flow := by
  obtain ⟨-, hstatus, -⟩ := pointerOfFlow_eq_some h
  simp only [isSuccess, foldedStatus, hasSuccessStatus, hstatus, strip_of_textOf hstatus]
  rfl

theorem pastLastAction_iff : PastLastAction flow ↔ ¬ StandsInTree flow := by
  constructor
  · intro hpast hstands
    obtain ⟨counter, hcounter, hbefore, -⟩ := hpast
    obtain ⟨index, hindex, hle⟩ := hstands counter hcounter
    have hlt := hbefore index hindex
    omega
  · intro hstands
    unfold StandsInTree at hstands
    simp only [not_forall, not_exists, not_and, not_le] at hstands
    obtain ⟨counter, hcounter, hbefore⟩ := hstands
    exact ⟨counter, hcounter, hbefore, fun hmem => lt_irrefl _ (hbefore counter hmem)⟩

/-- A completed pointer is recovered; it is progress unless the counter only
counts the actions. -/
theorem recovered_completed (hcount : CountsOut flow) (hsuccess : hasSuccessStatus flow = true)
    (hidentity : flowIdentity flow = some session.flowId) :
    Progressed flow session ↔ ¬ RestsAtStep flow session := by
  unfold RestsAtStep Progressed
  rw [if_pos hcount, pastLastAction_iff]
  constructor
  · intro hprogress hrests
    obtain ⟨-, -, hstands, hnot⟩ := hrests
    rcases hprogress.2 with ⟨index, hindex, hpast⟩ | hlast
    · have hle := hnot index hindex
      omega
    · exact hlast hstands
  · intro hrests
    refine ⟨hidentity, ?_⟩
    by_cases hstands : StandsInTree flow
    · left
      by_contra hnot
      refine hrests ⟨hidentity, hsuccess, hstands, fun index hindex => ?_⟩
      by_contra hlt
      exact hnot ⟨index, hindex, by omega⟩
    · exact .inr hstands

/-- A pointer that stands at a step is recovered exactly past it, or at it with
a success status. -/
theorem recovered_standing {index : ℤ} (hcompleted : pointer.completed = false)
    (hindex : pointer.actionIndex = some index) :
    classifyFlowOutcome (some pointer) session = .recovered ↔
      pointer.flowId = session.flowId ∧ (session.actionIndex < index ∨
        (isSuccess pointer = true ∧ session.actionIndex = index)) := by
  have hpaused : isSuccess pointer = true → foldedStatus pointer ≠ "paused" := by
    intro hsuccess heq
    rw [isSuccess, heq] at hsuccess
    exact absurd hsuccess (by decide)
  by_cases hflow : pointer.flowId = session.flowId
  · by_cases hpast : session.actionIndex < index
    · have hne : index ≠ session.actionIndex := by omega
      simp [classifyFlowOutcome, sameFlow, isPast, hflow, hcompleted, hindex, hpast, hne]
    · by_cases hsuccess : isSuccess pointer = true
      · have hle : session.actionIndex ≤ index ↔ session.actionIndex = index := by omega
        simp [classifyFlowOutcome, sameFlow, isPast, hflow, hcompleted, hindex, hpast, hsuccess,
          hpaused hsuccess, hle]
      · simp only [classifyFlowOutcome, sameFlow, isPast, hflow, hcompleted, hindex, hpast,
          hsuccess]
        split_ifs <;> simp_all
  · simp [classifyFlowOutcome, sameFlow, hflow]

/-- Recovered means progress exactly when the Flow does not rest at the failed
step under a success status. -/
theorem recovered_progressed_iff {document : Json}
    (h : parseFlowPointer document revision generation = some pointer) :
    ∃ flow, document = .obj flow ∧
      ((classifyFlowOutcome (some pointer) session = .recovered → Progressed flow session) ↔
        ¬ RestsAtStep flow session) := by
  cases document with
  | obj flow =>
    refine ⟨flow, rfl, ?_⟩
    obtain ⟨hidentity, hstatus, hstands⟩ := pointerOfFlow_eq_some h
    have hsuccess := isSuccess_eq h
    have hflowId : pointer.flowId = session.flowId ↔ flowIdentity flow = some session.flowId := by
      rw [hidentity, Option.some.injEq]
    by_cases hcomplete : CountsOut flow ∧ hasSuccessStatus flow = true
    · rw [if_pos hcomplete] at hstands
      by_cases hflow : flowIdentity flow = some session.flowId
      · rw [← recovered_completed hcomplete.1 hcomplete.2 hflow]
        have hrecovered : classifyFlowOutcome (some pointer) session = .recovered := by
          simp [classifyFlowOutcome, sameFlow, hflowId.mpr hflow, hstands.1, hsuccess,
            hcomplete.2]
        exact ⟨fun hprogress => hprogress hrecovered, fun hprogress _ => hprogress⟩
      · refine iff_of_true (fun hrecovered => ?_) (fun hrests => hflow hrests.1)
        have hother : pointer.flowId ≠ session.flowId := fun heq => hflow (hflowId.mp heq)
        simp [classifyFlowOutcome, sameFlow, hother] at hrecovered
    · rw [if_neg hcomplete] at hstands
      obtain ⟨hnot, index, hindex, hcurrent⟩ := hstands
      rw [recovered_standing hnot hindex, hflowId, hsuccess]
      unfold RestsAtStep
      constructor
      · intro hprogress hrests
        obtain ⟨hflow, hstatusOk, hstands, hrests⟩ := hrests
        have hcount : ¬ CountsOut flow := fun hcount => hcomplete ⟨hcount, hstatusOk⟩
        rw [if_neg hcount, hcurrent, Option.some.injEq] at hrests
        obtain ⟨-, hpast | hlast⟩ := hprogress ⟨hflow, .inr ⟨hstatusOk, hrests.symm⟩⟩
        · obtain ⟨past, hmem, hlt⟩ := hpast
          rw [hcurrent, Option.mem_some_iff] at hmem
          omega
        · exact pastLastAction_iff.mp hlast hstands
      · intro hrests hrecovered
        obtain ⟨hflow, hpast | ⟨hstatusOk, hat⟩⟩ := hrecovered
        · exact ⟨hflow, .inl ⟨index, hcurrent, hpast⟩⟩
        · refine ⟨hflow, .inr (pastLastAction_iff.mpr fun hstands => ?_)⟩
          have hcount : ¬ CountsOut flow := fun hcount => hcomplete ⟨hcount, hstatusOk⟩
          refine hrests ⟨hflow, hstatusOk, hstands, ?_⟩
          rw [if_neg hcount, hcurrent, hat]
  | _ => cases h

end Projection

section Reset

/-- A Flow that was reset while it points at the step that failed. -/
def resetFlow : Fields :=
  [("id", .str "flow"), ("status", .str "ready"), ("current_action_index", .int 0),
    ("areas", .arr [.obj [("items", .arr [.obj [("actions", .arr [.obj
      [("action_index", .int 0), ("command", .str "$move"), ("status", .str "failed")]])]])]])]

def failedStep : RecoverySessionRecord where
  recoverySessionId := "00000000-0000-0000-0000-000000000001"
  rootFailureId := "00000000-0000-0000-0000-000000000002"
  currentFailureId := "00000000-0000-0000-0000-000000000002"
  sysid := "ROBOT"
  flowId := "flow"
  actionIndex := 0
  actionCommand := "$move"
  pinnedMemoryId := "00000000-0000-0000-0000-000000000003"
  pinnedActions := []
  pinnedActionsHash := ""
  recoveryStatus := "awaiting_outcome"
  recoveryAttempts := 1
  recoveryMaxAttempts := 3
  recoveryRewindSteps := 0
  recoveryRunToken := some "00000000-0000-0000-0000-000000000004"

theorem recovered_progressed_resetFlow :
    ∃ pointer, parseFlowPointer (.obj resetFlow) 1 1 = some pointer ∧
      ∃ flow, Json.obj resetFlow = .obj flow ∧
        ((classifyFlowOutcome (some pointer) failedStep = .recovered →
          Progressed flow failedStep) ↔ ¬ RestsAtStep flow failedStep) := by
  have hsome : (parseFlowPointer (.obj resetFlow) 1 1).isSome = true := by decide +kernel
  obtain ⟨pointer, hpointer⟩ := Option.isSome_iff_exists.mp hsome
  exact ⟨pointer, hpointer, recovered_progressed_iff hpointer⟩

/-- The reset Flow is recorded as recovered. -/
theorem resetFlow_recovered :
    (∃ pointer, parseFlowPointer (.obj resetFlow) 1 1 = some pointer ∧
      classifyFlowOutcome (some pointer) failedStep = .recovered) ∧
      ¬ Progressed resetFlow failedStep := by
  have hstays : currentActionIndex resetFlow = some 0 := by decide +kernel
  have hcounter : programCounter resetFlow = some 0 := by decide +kernel
  refine ⟨?_, ?_⟩
  · have hrecovered : (parseFlowPointer (.obj resetFlow) 1 1).map
        (fun pointer => classifyFlowOutcome (some pointer) failedStep) = some .recovered := by
      decide +kernel
    exact Option.map_eq_some_iff.mp hrecovered
  · intro hprogress
    obtain ⟨-, hpast | hlast⟩ := hprogress
    · obtain ⟨index, hindex, hlt⟩ := hpast
      rw [hstays, Option.mem_some_iff] at hindex
      have hzero : failedStep.actionIndex = 0 := rfl
      omega
    · obtain ⟨counter, hmem, -, hnot⟩ := hlast
      rw [hcounter, Option.mem_some_iff] at hmem
      exact hnot (hmem ▸ (by decide +kernel : (0 : ℤ) ∈ actionIndices resetFlow))

end Reset

end FailureResolver.FlowProgress
