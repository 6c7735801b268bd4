import FailureResolver.LiveFlow
import FailureResolver.RecoveryContract

/-!
What Flow frames say about a failed step: whether a robot stands paused at it,
and after a continuation whether the Flow passed it or paused there again. The
watch on the frames after a continuation keeps one bit, whether execution was
seen to start, because the jump target is published before execution begins.
-/

namespace FailureResolver.FlowOutcome

open PyText LiveFlow RecoveryContract

def successFlowStatuses : List String :=
  ["ready", "completed", "complete", "finished", "succeeded", "success"]

def foldedStatus (pointer : FlowPointer) : String := casefold (strip pointer.status)

def pausedAt (pointer : FlowPointer) (flowId : String) (actionIndex : ℤ)
    (actionCommand : String) : Bool :=
  foldedStatus pointer = "paused" && pointer.flowId = flowId &&
    pointer.actionIndex = some actionIndex && pointer.actionCommand = some actionCommand

def pointerMatchesTarget (pointer : Option FlowPointer) (target : FailureRecoveryTarget) : Bool :=
  match pointer with
  | some pointer => pausedAt pointer target.flowId target.actionIndex target.actionCommand
  | none => false

def pointerMatchesSession (pointer : FlowPointer) (session : RecoverySessionRecord) : Bool :=
  pausedAt pointer session.flowId session.actionIndex session.actionCommand

def sameFlow (pointer : FlowPointer) (session : RecoverySessionRecord) : Bool :=
  pointer.flowId = session.flowId

def isPast (pointer : FlowPointer) (session : RecoverySessionRecord) : Bool :=
  match pointer.actionIndex with
  | some index => session.actionIndex < index
  | none => false

def isSuccess (pointer : FlowPointer) : Bool := foldedStatus pointer ∈ successFlowStatuses

inductive Classification
  | recovered
  | failed
  | unknown
  deriving DecidableEq

def classifyFlowOutcome (pointer : Option FlowPointer) (session : RecoverySessionRecord) :
    Classification :=
  match pointer with
  | none => .unknown
  | some pointer =>
      if !sameFlow pointer session then .unknown
      else if pointer.completed && isSuccess pointer then .recovered
      else if foldedStatus pointer = "paused" && pointer.actionIndex = some session.actionIndex &&
          pointer.actionCommand = some session.actionCommand then .failed
      else if isPast pointer session then .recovered
      else if isSuccess pointer && (match pointer.actionIndex with
          | some index => session.actionIndex ≤ index
          | none => false) then .recovered
      else .unknown

/-- One frame of the watch on a continuation: whether execution has started
after it, and whether the frame decides the outcome. -/
def watchFrame (session : RecoverySessionRecord) (generation : ℕ) (started : Bool)
    (pointer : Option FlowPointer) : Bool × Bool :=
  match pointer with
  | none => (started, true)
  | some pointer =>
      if pointer.generation ≠ generation || !sameFlow pointer session then (started, true)
      else if pointer.completed && isSuccess pointer then (started, true)
      else if isPast pointer session then (started, true)
      else if isSuccess pointer then (started, true)
      else if !started then
        if foldedStatus pointer = "paused" then (false, false)
        else if foldedStatus pointer = "in_progress" then (true, false)
        else (false, true)
      else (true, foldedStatus pointer ∈ ["paused", "aborted", "error"])

inductive FlowWatch
  | pausedStep (target : FailureRecoveryTarget)
  | outcome (session : RecoverySessionRecord) (generation : ℕ)

/-- One frame of a wait: the bit it carries along, and whether the frame ends it. -/
def FlowWatch.step (watch : FlowWatch) (started : Bool) (frame : Option FlowPointer) :
    Bool × Bool :=
  match watch with
  | .pausedStep target => (started, pointerMatchesTarget frame target)
  | .outcome session generation => watchFrame session generation started frame

end FailureResolver.FlowOutcome
