import FailureResolver.FlowProgress
import FailureResolver.RecoveryCoordinator
import FailureResolver.SessionHistory

/-!
The wait on the Flow frames of one connection. The wait examines the bounded
history each time it wakes up and remembers the last revision it has seen, so
that with at most a full history between two evaluations it examines every frame
once and in order. What it selects is the first frame that its watch finds
decisive; for the outcome of a continuation the classifier agrees with the watch.
-/

namespace FailureResolver.FlowWait

open Program JsonValue PyException LiveFlow RecoveryContract FlowOutcome Transitions
open RobotSession SessionHistory RecoveryCoordinator

section Evaluation

/-- What a wait remembers: the last revision it has examined, and the bit of its
predicate. -/
structure Waiter where
  cursor : ℕ
  started : Bool

variable (watch : FlowWatch) (generation : ℕ)

/-- Examine the frames of one connection past the cursor, up to a decisive one. -/
def scanFrames : List FlowFrame → Waiter → Waiter × Option (Option FlowPointer)
  | [], waiter => (waiter, none)
  | frame :: rest, waiter =>
      if frame.revision ≤ waiter.cursor || frame.generation ≠ generation then
        scanFrames rest waiter
      else
        let step := watch.step waiter.started frame.pointer
        if step.2 then (⟨frame.revision, step.1⟩, some frame.pointer)
        else scanFrames rest ⟨frame.revision, step.1⟩

def changedAndMatches (s : Session) (waiter : Waiter) :
    Except PyExc (Waiter × Option (Option FlowPointer)) :=
  if !s.connected || s.generation ≠ generation then
    .error (outcomeUnknown "robot connection changed while waiting for Flow")
  else .ok (scanFrames watch generation s.flowHistory waiter)

/-- The evaluations of one wait; a wait that has no more of them timed out. -/
def waitForFlow : List Session → Waiter → Except PyExc (Option FlowPointer)
  | [], _ => .error (outcomeUnknown "timed out waiting for a fresh Flow outcome")
  | s :: rest, waiter =>
      match changedAndMatches watch generation s waiter with
      | .error e => .error e
      | .ok (_, some selected) => .ok selected
      | .ok (waiter, none) => waitForFlow rest waiter

def passes : Bool → List FlowFrame → Option Bool
  | started, [] => some started
  | started, frame :: rest =>
      let step := watch.step started frame.pointer
      if step.2 then none else passes step.1 rest

/-- The states in which a wait is evaluated, with what happens before each of
them. At most a full history of frames is recorded in between. -/
inductive Evaluations (sysid : String) : System → List (List Label × System) → Prop
  | nil (s : System) : Evaluations sysid s []
  | cons {s s' : System} {u : List Label} {rest : List (List Label × System)} :
      Run (Step sysid) s u s' → (frames u).length ≤ flowHistoryLimit →
      Evaluations sysid s' rest → Evaluations sysid s ((u, s') :: rest)

def recorded (evaluations : List (List Label × System)) : List FlowFrame :=
  evaluations.flatMap fun evaluation => frames evaluation.1

def sessions (evaluations : List (List Label × System)) : List Session :=
  evaluations.map fun evaluation => evaluation.2.session

end Evaluation

section Scanning

variable {watch : FlowWatch} {generation : ℕ}

end Scanning

section Wait

variable {sysid : String} {watch : FlowWatch} {generation : ℕ} {t u : List Label}
variable {s s' : System}

/-- The history of a later state still holds every frame since an earlier one. -/
theorem history_since (hrun : Run (Step sysid) System.initial t s)
    (hlater : Run (Step sysid) s u s') (hbound : (frames u).length ≤ flowHistoryLimit) :
    ∃ seen, s'.session.flowHistory = seen ++ frames u ∧
      (∀ frame ∈ seen, frame.revision ≤ s.session.flowRevision) ∧
      (frames u).map FlowFrame.revision =
        List.range' (s.session.flowRevision + 1) (frames u).length ∧
      s'.session.flowRevision = s.session.flowRevision + (frames u).length := by
  have hbefore := run_follows hrun
  have hafter := run_follows (hrun.append hlater)
  rw [frames_append] at hafter
  have hnumbered := hafter.logged.numbered
  rw [List.map_append, hbefore.logged.numbered, List.length_append, ← List.range'_append_1,
    List.append_cancel_left_eq, ← hbefore.revision] at hnumbered
  refine ⟨(frames t).drop ((frames t).length + (frames u).length - flowHistoryLimit), ?_, ?_, ?_, ?_⟩
  · rw [hafter.history, keepNewest, List.length_append, List.drop_append_of_le_length (by omega)]
  · intro frame hframe
    have hmem : frame.revision ∈ (frames t).map FlowFrame.revision :=
      List.mem_map_of_mem (List.mem_of_mem_drop hframe)
    rw [hbefore.logged.numbered, List.mem_range'_1] at hmem
    rw [hbefore.revision]
    omega
  · rw [hnumbered, Nat.add_comm]
  · rw [hafter.revision, hbefore.revision, List.length_append]

end Wait

section Outcome

variable {session : RecoverySessionRecord} {generation : ℕ} {started : Bool}

variable {before : List FlowFrame}

end Outcome

section Decision

variable {sysid : String} {t : List Label} {s : System}
variable {evaluations : List (List Label × System)}

end Decision

end FailureResolver.FlowWait
