import FailureResolver.JsonValue
import FailureResolver.PyText
import Mathlib.Tactic.SplitIfs

/-!
The live Flow pointer of one robot: the identity of the step a Flow stands at,
projected from a Flow document with the revision of its frame and the connection
generation it arrived on. A document without an identity, a status or a current
step has no pointer.
-/

namespace FailureResolver.LiveFlow

open JsonValue PyText

structure FlowPointer where
  revision : ℕ
  flowId : String
  status : String
  actionIndex : Option ℤ
  actionCommand : Option String
  filename : Option String
  fid : Option String
  flowCommit : Option String
  raw : Fields
  generation : ℕ
  completed : Bool

structure CommandsFrame where
  revision : ℕ
  generation : ℕ
  commands : Fields

structure CommandReceipt where
  result : Json
  generation : ℕ
  flowRevisionAtCorrelatedAck : ℕ

def stoppedActionStatuses : List String := ["failed", "aborted", "in_progress"]

def completedFlowStatuses : List String :=
  ["ready", "completed", "complete", "finished", "succeeded", "success"]

def textOf : Json → Option String
  | .str s => if strip s = "" then none else some (strip s)
  | _ => none

def integerOf : Json → Option ℤ
  | .int n => some n
  | _ => none

def itemsOf : Json → List Json
  | .arr items => items
  | _ => []

def mappings (items : List Json) : List Fields :=
  items.filterMap (fun item => match item with
    | .obj fields => some fields
    | _ => none)

def flowActions (flow : Fields) : List Fields :=
  (mappings (itemsOf (flow.get "areas"))).flatMap fun area =>
    (mappings (itemsOf (area.get "items"))).flatMap fun item =>
      mappings (itemsOf (item.get "actions"))

/-- The action the program counter names, else the first stopped one in the
order of the stopped statuses. -/
def currentAction (actions : List Fields) (currentIndex : Option ℤ) : Option Fields :=
  let named := currentIndex.bind fun index =>
    actions.find? (fun action => decide (integerOf (action.get "action_index") = some index))
  match named with
  | some action => some action
  | none =>
      stoppedActionStatuses.findSome? fun status =>
        actions.find? (fun action => decide (textOf (action.get "status") = some status))

/-- The pointer of a Flow object. A program counter past the last action of a
Flow that stopped successfully is a completed pointer without a step. -/
def pointerOfFlow (flow : Fields) (revision generation : ℕ) : Option FlowPointer :=
  let flowId := [textOf (flow.get "id"), textOf (flow.get "filename"),
    textOf (flow.get "fid")].findSome? id
  match flowId, textOf (flow.get "status") with
  | some flowId, some status =>
      let actions := flowActions flow
      let currentIndex := integerOf (flow.get "current_action_index")
      let pointer : Option ℤ → Option String → Bool → FlowPointer :=
        fun index command completed =>
          { revision, flowId, status, actionIndex := index, actionCommand := command
            filename := textOf (flow.get "filename")
            fid := textOf (flow.get "fid")
            flowCommit := textOf (flow.get "flow_commit")
            raw := flow, generation, completed }
      if currentIndex = some (actions.length : ℤ) ∧ casefold status ∈ completedFlowStatuses then
        some (pointer none none true)
      else
        match currentAction actions currentIndex with
        | none => none
        | some current =>
            match integerOf (current.get "action_index"), textOf (current.get "command") with
            | some index, some command =>
                if index < 0 then none else some (pointer (some index) (some command) false)
            | _, _ => none
  | _, _ => none

def parseFlowPointer (flow : Json) (revision generation : ℕ) : Option FlowPointer :=
  match flow with
  | .obj flow => pointerOfFlow flow revision generation
  | _ => none

theorem pointerOfFlow_generation {flow : Fields} {revision generation : ℕ}
    {pointer : FlowPointer} (h : pointerOfFlow flow revision generation = some pointer) :
    pointer.generation = generation := by
  unfold pointerOfFlow at h
  dsimp only at h
  split at h
  · split_ifs at h
    · cases h
      rfl
    · split at h
      · cases h
      · split at h
        · split_ifs at h
          cases h
          rfl
        · cases h
  · cases h

theorem parseFlowPointer_generation {flow : Json} {revision generation : ℕ}
    {pointer : FlowPointer} (h : parseFlowPointer flow revision generation = some pointer) :
    pointer.generation = generation := by
  cases flow with
  | obj flow => exact pointerOfFlow_generation h
  | _ => cases h

end FailureResolver.LiveFlow
