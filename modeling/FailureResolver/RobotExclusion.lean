import FailureResolver.RetryBudget
import FailureResolver.TaskPool

/-!
Many failures are processed over one coordinator. The lock of a robot is taken
for the robot of the row as it was first read, and the row is read again under
it. As long as a row that is then executed is still of that robot, one task at a
time executes a robot, and an active recovery belongs to the task that executes
its robot. A row whose robot changed between the two reads breaks this.
-/

namespace FailureResolver.RobotExclusion

open ActionPlan AttemptVerdict LiveFlow Program PyException RecoveryContract RecoveryCoordinator
open RetryBudget TaskPool Transitions

section Steps

/-- The robot whose lock a task was given, and the robot of the row it read under it. -/
structure Seen where
  lockedFor : Option String
  reread : Option String

def Seen.nothing : Seen := ⟨none, none⟩

def Seen.after (m : Seen) : (op : Op) → Except PyExc op.Reply → Seen
  | .acquireRobotLock sysid, .ok _ => ⟨some sysid, none⟩
  | .fetchFailure _, .ok (some row) =>
      match m.lockedFor, parseFailureRecoveryTarget row with
      | some sysid, .ok target => ⟨some sysid, some target.sysid⟩
      | _, _ => m
  | _, _ => m

abbrev Coordination := Pool recovery Unit Seen

def Spawned (c : Coordinator) (p : Recovery Unit) (m : Seen) : Prop :=
  (∃ fuel failureId newSessionId, p = processFailure c fuel failureId newSessionId) ∧
    m = Seen.nothing

/-- The locks and the active recoveries are left as they are. -/
structure Untouched (w w' : World) : Prop where
  locks : w'.robotLocks = w.robotLocks
  recoveries : w'.recoveries = w.recoveries
  active : w'.activeByPointer = w.activeByPointer

/-- An await touches neither, and a lock is given while nobody has it. Any await
may end with any error, a cancellation among them. -/
structure AwaitStep (w : World) (op : Op) (r : Except PyExc op.Reply) (w' : World) : Prop
    extends Untouched w w' where
  free : ∀ sysid, op = .acquireRobotLock sysid → r.isOk = true → w.robotLocks sysid = false

def CoordinatorStep (c : Coordinator) (P : Coordination) (l : Label recovery)
    (P' : Coordination) : Prop :=
  Step (Spawned c) Seen.after AwaitStep Untouched P l P' ∧ ∀ i, P'.task i ≠ some .halt

def Idle (w : World) : Prop :=
  (∀ sysid, w.robotLocks sysid = false) ∧ ∀ key, w.activeByPointer key = none

/-- What is awaited after the second read but outside of an execution. -/
def Bookkeeping : Op → Prop
  | .attach .. => True
  | .markNonExecutable .. => True
  | _ => False

def Executing (P : Coordination) (i : ℕ) (sysid : String) : Prop :=
  (∃ op k, P.task i = some (.await op k) ∧ ¬ Bookkeeping op) ∧
    (P.record i).reread = some sysid

def activeRecovery (w : World) (target : FailurePointerTarget) : Option ActiveRecovery :=
  (w.activeByPointer target.pointerKey).bind fun ref => w.recoveries[ref]?

/-- A row that is read again is executed unless it is attached or its status
keeps it from being started. -/
def ToExecute (w : World) (target : FailureRecoveryTarget) : Prop :=
  activeRecovery w target.toFailurePointerTarget = none ∧
    startable target.recoveryStatus = true

/-- A row that is to be executed is still of the robot whose lock was taken. -/
def SameRobot (P : Coordination) (l : Label recovery) : Prop :=
  ∀ i failureId row sysid target, l = .resume i (.fetchFailure failureId) (.ok (some row)) →
    (P.record i).lockedFor = some sysid → parseFailureRecoveryTarget row = .ok target →
    ToExecute P.state target → target.sysid = sysid

end Steps

section Modes

/-- Where a task is with the lock and the active recovery: before it, given the
lock, under it, with the row read again, between two parts of an execution, with
an active recovery, and done. -/
inductive Mode
  | free
  | acquired (sysid : String)
  | granted (sysid : String)
  | reread (sysid : String) (target : FailureRecoveryTarget)
  | holding (sysid robot : String)
  | owning (key : PointerKey) (ref : ℕ)
  | done

def Mode.holds : Mode → Option String
  | .granted sysid => some sysid
  | .reread sysid _ => some sysid
  | .holding sysid _ => some sysid
  | .owning key _ => some key.sysid
  | _ => none

def Mode.lockOnly : Mode → Option String
  | .owning .. => none
  | m => m.holds

def Steady (sysid : String) : Op → Prop
  | .requestCommand robot .. => robot = sysid
  | .acquireRobotLock _ => False
  | .fetchFailure _ => False
  | .attach .. => False
  | .markNonExecutable .. => False
  | _ => True

def Permitted : Mode → Op → Prop
  | .free, op => ∀ sysid, ¬ Steady sysid op
  | .granted _, op => ∃ failureId, op = .fetchFailure failureId
  | .reread sysid target, op =>
      Bookkeeping op ∨ (Steady target.sysid op ∧ target.sysid = sysid)
  | .holding sysid robot, op => Bookkeeping op ∨ (Steady robot op ∧ robot = sysid)
  | .owning key _, op => Steady key.sysid op
  | .acquired _, _ => False
  | .done, _ => False

def Mode.after : Mode → (op : Op) → Except PyExc op.Reply → Mode
  | .free, .acquireRobotLock sysid, .ok _ => .acquired sysid
  | .granted sysid, .fetchFailure _, .ok (some row) =>
      match parseFailureRecoveryTarget row with
      | .ok target => .reread sysid target
      | .error _ => .granted sysid
  | .reread sysid target, _, _ => .holding sysid target.sysid
  | m, _, _ => m

def Relies : Mode → World → Prop
  | .acquired sysid, w => w.robotLocks sysid = false
  | .reread sysid target, w => ToExecute w target → target.sysid = sysid
  | _, _ => True

/-- What a task does to the locks and the active recoveries between two awaits. -/
inductive Act : Mode → World → Mode → World → Prop
  | take {sysid : String} {w : World} : w.robotLocks sysid = false →
      Act (.acquired sysid) w (.granted sysid) (World.lock sysid true w)
  | attach {m : Mode} {w w' : World} : w'.robotLocks = w.robotLocks →
      w'.activeByPointer = w.activeByPointer → Act m w m w'
  | activate {key : PointerKey} {w : World} {active : ActiveRecovery} :
      Act (.holding key.sysid key.sysid) w (.owning key w.recoveries.length)
        (w.activate key active)
  | release {key : PointerKey} {ref : ℕ} {w : World} :
      Act (.owning key ref) w (.holding key.sysid key.sysid) (World.release key ref w)
  | drop {m : Mode} {sysid : String} {w : World} : m.lockOnly = some sysid →
      Act m w .done (World.lock sysid false w)

/-- One robot at a time: the lock is taken first, a recovery is activated under
it and removed again before the lock is given back. -/
def locking : Discipline recovery Mode where
  rely := Relies
  act := Act
  request g _ op := Permitted g op
  answer g op r g' := g' = g.after op r

def Ends (_ : Except PyExc Unit) (g : Mode) (_ : World) : Prop := g.holds = none

end Modes

section Awaited

variable {c : Coordinator} {a : Attempt} {sysid recoverySessionId failureId : String}

theorem awaits_requiredDatabase : requiredDatabase.Awaits (Steady sysid) := by
  intro w
  dsimp only
  split <;> trivial

theorem awaits_requireLive (pointer : FlowPointer) (plan : RecoveryPlan) :
    (requireLive sysid pointer plan).Awaits (Steady sysid) := by
  intro w
  dsimp only
  split <;> trivial

theorem awaits_finishUnknown (claimed : RecoverySessionRecord) (failureId message : String) :
    (finishUnknown claimed failureId message).Awaits (Steady sysid) := by
  unfold finishUnknown
  split
  · trivial
  · exact .bind awaits_requiredDatabase fun _ => .bind (.call trivial) fun _ => trivial

theorem awaits_sendCorrection (action : RecoveryAction) :
    (sendCorrection c a action).Awaits (Steady a.sysid) := by
  unfold sendCorrection
  simp only [Prog.bind_eq, Prog.pure_eq]
  refine .bind (awaits_requireLive _ _) fun _ => .bind (.call rfl) fun receipt => ?_
  split <;> trivial

theorem awaits_sendResume : (sendResume c a).Awaits (Steady a.sysid) := by
  unfold sendResume
  simp only [Prog.bind_eq, Prog.pure_eq]
  refine .bind (awaits_requireLive _ _) fun _ => .bind (.settle _) fun arguments => ?_
  refine .bind (.call rfl) fun receipt => ?_
  split
  · trivial
  · exact .bind (.settle _) fun _ => trivial

theorem awaits_attemptBody (runToken : String) :
    (attemptBody c a runToken).Awaits (Steady a.sysid) := by
  have hverdict : ∀ result message,
      (finishVerdict a runToken result message).Awaits (Steady a.sysid) :=
    fun result message => .bind (.call trivial) fun _ => .settle _
  unfold attemptBody
  simp only [Prog.bind_eq]
  refine .bind (.forEach fun action _ => awaits_sendCorrection action) fun _ => ?_
  refine .bind awaits_sendResume fun receipt => .bind (.call trivial) fun _ => ?_
  refine .bind (.call trivial) fun outcome => ?_
  unfold concludeAttempt
  split
  · exact .bind (hverdict _ _) fun _ => trivial
  · exact .bind (hverdict _ _) fun _ => trivial
  · exact .bind (awaits_finishUnknown _ _ _) fun _ => trivial

theorem awaits_attemptHandler (e : PyExc) : (attemptHandler a e).Awaits (Steady sysid) := by
  have hunknown : ∀ message, (finishUnknown a.claimed a.failureId message).Awaits (Steady sysid) :=
    awaits_finishUnknown a.claimed a.failureId
  unfold attemptHandler finishInterrupted
  simp only [Prog.bind_eq, Prog.pure_eq]
  split_ifs
  · refine .bind (.tryCatch (.bind (.call trivial) fun started => ?_) fun e => ?_)
      fun _ => trivial
    · split
      · exact hunknown _
      · trivial
    · split <;> trivial
  · exact .bind (hunknown _) fun _ => trivial
  · exact .bind (hunknown _) fun _ => trivial
  · exact .bind (hunknown _) fun _ => trivial
  · trivial

theorem awaits_executeAttempt : (executeAttempt c a).Awaits (Steady a.sysid) := by
  unfold executeAttempt
  split
  · trivial
  · exact .tryCatch (awaits_attemptBody _) fun e => awaits_attemptHandler e

theorem awaits_claimedAttempt (pointer : FlowPointer) (claimed : RecoverySessionRecord) :
    (claimedAttempt c sysid failureId pointer claimed).Awaits (Steady sysid) := by
  have hunknown : ∀ message, ((finishUnknown claimed failureId message).bind fun _ =>
      (.ret none : Recovery (Option FlowPointer))).Awaits (Steady sysid) :=
    fun message => .bind (awaits_finishUnknown _ _ _) fun _ => trivial
  unfold claimedAttempt
  simp only [Prog.bind_eq, Prog.pure_eq]
  refine .bind (.settle _) fun plan => ?_
  split
  · exact hunknown _
  · refine .bind (.settle _) fun _ => .bind (fun w => trivial) fun w => ?_
    split
    · split
      · exact hunknown _
      · trivial
    · refine .bind (awaits_executeAttempt (a := ⟨sysid, failureId, claimed, plan, pointer⟩))
        fun result => ?_
      split
      · trivial
      · trivial
      · unfold retryPointer
        split
        · exact fun w => trivial
        · trivial

theorem awaits_afterClaim (pointer : FlowPointer) (row : JsonValue.Fields) :
    (afterClaim c sysid recoverySessionId failureId pointer row).Awaits (Steady sysid) := by
  unfold afterClaim
  split
  · exact awaits_claimedAttempt _ _
  · split
    · refine .bind ?_ fun _ => trivial
      unfold closeMalformedClaim
      split
      · split
        · exact .bind (.call trivial) fun _ => trivial
        · trivial
      · trivial
    · trivial

/-- The whole attempt loop of a robot awaits only what an execution of it does. -/
theorem awaits_attemptLoop (plan : RecoveryPlan) (ref fuel : ℕ) (pointer : FlowPointer) :
    (attemptLoop c sysid recoverySessionId plan ref fuel pointer).Awaits (Steady sysid) := by
  induction fuel generalizing pointer with
  | zero => trivial
  | succ fuel ih =>
    unfold attemptLoop
    simp only [Prog.bind_eq, Prog.pure_eq]
    refine .bind (fun w => trivial) fun w => ?_
    split
    · trivial
    · refine .bind (awaits_requireLive _ _) fun _ => .bind (.call trivial) fun row => ?_
      refine .bind (awaits_afterClaim _ _) fun next => ?_
      split
      · trivial
      · exact ih _

theorem awaits_awaitPaused (target : FailureRecoveryTarget) (generation afterRevision : ℕ) :
    (freshPausedPointer.awaitPaused c target generation afterRevision).Awaits
      (Steady target.sysid) := by
  unfold freshPausedPointer.awaitPaused
  simp only [Prog.bind_eq, Prog.pure_eq]
  refine .bind (.call trivial) fun frame => ?_
  split
  · split <;> trivial
  · trivial

/-- The robot is waited for first. -/
theorem freshPausedPointer_eq (target : FailureRecoveryTarget) :
    ∃ rest : Recovery FlowPointer, rest.Awaits (Steady target.sysid) ∧
      freshPausedPointer c target = (Prog.call (σ := recovery)
        (.waitConnected target.sysid c.settings.commandTimeoutSeconds)).bind fun _ => rest := by
  refine ⟨_, ?_, rfl⟩
  refine .bind (fun w => trivial) fun w => ?_
  dsimp only
  split
  · next latest _ =>
    -- the comparison of the texts is not to be evaluated here
    generalize FlowOutcome.pointerMatchesTarget (some latest) target = standing
    cases standing with
    | true => trivial
    | false => exact awaits_awaitPaused target _ _
  · exact awaits_awaitPaused target _ _

theorem awaits_preparedSession (target : FailureRecoveryTarget) (pointer : FlowPointer)
    (newSessionId : String) :
    (preparedSession c target pointer newSessionId).Awaits (Steady target.sysid) := by
  unfold preparedSession
  simp only [Prog.bind_eq, Prog.pure_eq]
  split
  · refine .bind (.settle _) fun plan => .bind (awaits_requireLive _ _) fun _ => ?_
    exact .bind (.call trivial) fun row => .bind (.settle _) fun _ => trivial
  · exact .bind (.call trivial) fun row => .bind (.settle _) fun _ => trivial

theorem awaits_graceWindow : (graceWindow c recoverySessionId).Awaits (Steady sysid) := by
  unfold graceWindow
  simp only [Prog.bind_eq, Prog.pure_eq]
  split
  · trivial
  · refine .bind (.tryCatch (.call trivial) fun e => ?_) fun _ => ?_
    · split <;> trivial
    · refine .bind (fun w => trivial) fun w => ?_
      split
      · trivial
      · exact .bind (.call trivial) fun row => .bind (.settle _) fun _ => trivial

end Awaited

section Obeyed

variable {α β : Type} {c : Coordinator} {sysid : String} {w : World} {m m' : Mode}
variable {target : FailureRecoveryTarget}

theorem obeys_holding {p : Recovery α} (hp : p.Awaits (Steady sysid)) :
    Obeys locking (fun _ g _ => g = .holding sysid sysid) p (.holding sysid sysid) w :=
  Obeys.of_awaits hp (fun _ _ hop => .inr ⟨hop, rfl⟩) fun _ _ _ _ hafter => hafter

/-- Part of an execution, between two awaits of which the lock is held. -/
theorem obeys_holding_bind {p : Recovery α} {f : α → Recovery β}
    {Q : Except PyExc β → Mode → World → Prop} (hp : p.Awaits (Steady sysid))
    (herror : ∀ e s, Q (.error e) (.holding sysid sysid) s)
    (hf : ∀ a s, Obeys locking Q (f a) (.holding sysid sysid) s) :
    Obeys locking Q (p.bind f) (.holding sysid sysid) w := by
  rw [obeys_bind]
  refine (obeys_holding hp).mono fun r g s hg => ?_
  subst hg
  cases r with
  | ok a => exact hf a s
  | error e => exact herror e s

/-- An execution leaves the lock as it was, before its first await or after it. -/
def Between (target : FailureRecoveryTarget) (_ : Except PyExc α) (g : Mode) (_ : World) : Prop :=
  g = .reread target.sysid target ∨ g = .holding target.sysid target.sysid

theorem obeys_runSession (fuel : ℕ) (target : FailureRecoveryTarget) (pointer : FlowPointer)
    (recoverySessionId : String) (plan : RecoveryPlan) :
    Obeys locking (Between target) (runSession c fuel target pointer recoverySessionId plan)
      (.holding target.sysid target.sysid) w := by
  refine ⟨.owning target.pointerKey w.recoveries.length,
    @Act.activate target.pointerKey w ⟨recoverySessionId, target.failureId⟩, ?_⟩
  rw [obeys_tryFinally]
  have hloop : (attemptLoop c target.sysid recoverySessionId plan w.recoveries.length fuel
      pointer).Awaits (Steady target.sysid) := awaits_attemptLoop ..
  refine (Obeys.of_awaits (D := locking)
    (g := .owning target.pointerKey w.recoveries.length) hloop (fun _ _ hop => hop)
    fun _ _ _ _ hafter => hafter).mono fun r g s hg => ?_
  subst hg
  exact ⟨_, @Act.release target.pointerKey _ _, .inr rfl⟩

/-- The first await of an execution takes it from the row that was read. -/
theorem obeys_freshPausedPointer (target : FailureRecoveryTarget) :
    Obeys locking (fun _ g _ => g = .holding target.sysid target.sysid)
      (freshPausedPointer c target) (.reread target.sysid target) w := by
  obtain ⟨rest, hrest, heq⟩ := freshPausedPointer_eq (c := c) target
  rw [heq, obeys_bind]
  refine obeys_call.mpr ⟨.inr ⟨trivial, rfl⟩, fun r g s hafter _ => ?_⟩
  have hg : g = .holding target.sysid target.sysid := hafter
  subst hg
  cases r with
  | error e => rfl
  | ok _ => exact obeys_holding hrest

theorem obeys_executeTarget (fuel : ℕ) (target : FailureRecoveryTarget) (newSessionId : String) :
    Obeys locking (Between target) (executeTarget c fuel target newSessionId)
      (.reread target.sysid target) w := by
  have herror : ∀ (e : PyExc) (s : World), Between (α := Unit) target (.error e)
      (.holding target.sysid target.sysid) s := fun _ _ => .inr rfl
  have hquiet : requiredDatabase.Awaits (fun _ => False) := by
    intro w
    dsimp only
    split <;> trivial
  unfold executeTarget
  simp only [Prog.bind_eq, Prog.pure_eq]
  rw [obeys_bind]
  refine (Obeys.of_awaits hquiet (fun _ _ hop => hop.elim) fun _ _ _ hop => hop.elim).mono
    fun r g s hg => ?_
  subst hg
  cases r with
  | error e => exact .inl rfl
  | ok _ =>
    dsimp only
    split
    · exact .inl rfl
    · rw [obeys_bind]
      refine (obeys_freshPausedPointer target).mono fun r g s hg => ?_
      subst hg
      cases r with
      | error e => exact .inr rfl
      | ok pointer =>
        refine obeys_holding_bind (.call trivial) herror fun _ s => ?_
        refine obeys_holding_bind (awaits_preparedSession target _ _) herror fun prepared s => ?_
        split
        · exact .inr rfl
        · refine obeys_holding_bind (.settle _) herror fun plan s => ?_
          refine obeys_holding_bind (awaits_requireLive _ _) herror fun _ s => ?_
          refine obeys_holding_bind (.settle _) herror fun required s => ?_
          split
          · exact .inr rfl
          · refine obeys_holding_bind awaits_graceWindow herror fun goOn s => ?_
            split
            · exact obeys_runSession ..
            · exact .inr rfl

/-- The lock of the robot is held and no recovery of the task is active. -/
def Under (sysid : String) (_ : Except PyExc α) (g : Mode) (_ : World) : Prop :=
  g.lockOnly = some sysid

theorem obeys_executeGuarded (fuel : ℕ) (target : FailureRecoveryTarget) (newSessionId : String) :
    Obeys locking (Under target.sysid) (executeGuarded c fuel target newSessionId)
      (.reread target.sysid target) w := by
  unfold executeGuarded
  rw [obeys_tryCatch]
  refine (obeys_executeTarget fuel target newSessionId).mono fun r g s hg => ?_
  have hunder : g.lockOnly = some target.sysid := by
    rcases hg with rfl | rfl <;> rfl
  cases r with
  | ok a => exact hunder
  | error e =>
    dsimp only
    split_ifs
    · rcases hg with rfl | rfl
      · refine obeys_call.mpr ⟨.inl trivial, fun r g s hafter _ => ?_⟩
        have hg : g = .holding target.sysid target.sysid := hafter
        rw [hg]
        rfl
      · refine obeys_call.mpr ⟨.inl trivial, fun r g s hafter _ => ?_⟩
        have hg : g = .holding target.sysid target.sysid := hafter
        rw [hg]
        rfl
    · exact hunder
    · exact hunder

/-- A recurrence is attached in one await, or none is there and nothing happens. -/
theorem obeys_attachActiveRecurrence (target : FailurePointerTarget)
    (hrequest : ∀ failureId sessionId, Permitted m (.attach failureId sessionId))
    (hafter : ∀ failureId sessionId r, m.after (.attach failureId sessionId) r = m') :
    Obeys locking (fun r g s =>
      (r = .ok false → g = m ∧ s = w ∧ activeRecovery w target = none) ∧ (g = m ∨ g = m'))
      (attachActiveRecurrence target) m w := by
  have hnone : ∀ {r : Except PyExc Bool} {g : Mode} {s : World}, r ≠ .ok false →
      (g = m ∨ g = m') →
      (r = .ok false → g = m ∧ s = w ∧ activeRecovery w target = none) ∧ (g = m ∨ g = m') :=
    fun hr hg => ⟨fun heq => absurd heq hr, hg⟩
  unfold attachActiveRecurrence
  simp only [Prog.bind_eq, Prog.pure_eq]
  rw [obeys_bind, obeys_observe]
  dsimp only
  cases hkey : w.activeByPointer target.pointerKey with
  | none =>
    refine ⟨fun _ => ⟨rfl, rfl, ?_⟩, .inl rfl⟩
    rw [activeRecovery, hkey]
    rfl
  | some ref =>
    dsimp only
    cases hplace : w.recoveries[ref]? with
    | none =>
      refine ⟨fun _ => ⟨rfl, rfl, ?_⟩, .inl rfl⟩
      rw [activeRecovery, hkey]
      exact hplace
    | some active =>
      dsimp only
      split_ifs
      · rw [obeys_bind]
        refine obeys_call.mpr ⟨hrequest _ _, fun r g s hlearned _ => ?_⟩
        have hg : g = m' := hlearned.trans (hafter _ _ r)
        subst hg
        cases r with
        | error e => exact hnone (fun h => by cases h) (.inr rfl)
        | ok _ => exact ⟨_, .attach rfl rfl, hnone (fun h => by cases h) (.inr rfl)⟩
      · exact ⟨_, .attach rfl rfl, hnone (fun h => by cases h) (.inl rfl)⟩
      · exact hnone (fun h => by cases h) (.inl rfl)

theorem obeys_processLocked (fuel : ℕ) (failureId newSessionId : String) :
    Obeys locking (Under sysid) (processLocked c fuel failureId newSessionId)
      (.granted sysid) w := by
  unfold processLocked
  simp only [Prog.bind_eq, Prog.pure_eq]
  rw [obeys_bind]
  refine obeys_call.mpr ⟨⟨failureId, rfl⟩, fun r g s hlearned hrely => ?_⟩
  change g = _ at hlearned
  change Relies g s at hrely
  cases r with
  | error e =>
    subst hlearned
    rfl
  | ok found =>
    cases found with
    | none =>
      subst hlearned
      rfl
    | some row =>
      dsimp only
      cases hparse : parseFailureRecoveryTarget row with
      | error e =>
        have hg : g = .granted sysid := by
          rw [hlearned]
          simp only [Mode.after, hparse]
        rw [hg]
        rfl
      | ok target =>
        have hg : g = .reread sysid target := by
          rw [hlearned]
          simp only [Mode.after, hparse]
        subst hg
        rw [obeys_bind, obeys_settle]
        dsimp only
        rw [obeys_bind]
        have hattached := obeys_attachActiveRecurrence (w := s) (m := .reread sysid target)
          target.toFailurePointerTarget (fun _ _ => .inl trivial) fun _ _ _ => rfl
        refine hattached.mono fun r g s' hattach => ?_
        have hunder : g.lockOnly = some sysid := by
          rcases hattach.2 with rfl | rfl <;> rfl
        cases r with
        | error e => exact hunder
        | ok attached =>
          cases attached with
          | true => exact hunder
          | false =>
            obtain ⟨rfl, rfl, hinactive⟩ := hattach.1 rfl
            dsimp only
            rw [if_neg Bool.false_ne_true]
            by_cases hstart : startable target.recoveryStatus = true
            · rw [if_neg (by simp [hstart])]
              have hsame : target.sysid = sysid := hrely ⟨hinactive, hstart⟩
              subst hsame
              exact obeys_executeGuarded fuel target newSessionId
            · rw [if_pos (by simpa using hstart)]
              exact hunder

theorem obeys_processFailure (fuel : ℕ) (failureId newSessionId : String) :
    Obeys locking Ends (processFailure c fuel failureId newSessionId) .free w := by
  have hquiet : requiredDatabase.Awaits (fun _ => False) := by
    intro w
    dsimp only
    split <;> trivial
  unfold processFailure
  split
  · rfl
  · simp only [Prog.bind_eq, Prog.pure_eq]
    rw [obeys_bind]
    refine (Obeys.of_awaits hquiet (fun _ _ hop => hop.elim) fun _ _ _ hop => hop.elim).mono
      fun r g s hg => ?_
    subst hg
    cases r with
    | error e => rfl
    | ok _ =>
      dsimp only
      rw [obeys_bind]
      refine obeys_call.mpr ⟨fun _ => id, fun r g s hlearned _ => ?_⟩
      have hg : g = .free := hlearned
      subst hg
      cases r with
      | error e => rfl
      | ok found =>
        cases found with
        | none => rfl
        | some row =>
          dsimp only
          rw [obeys_bind, obeys_settle]
          cases parseFailurePointerTarget row with
          | error e => rfl
          | ok pointerTarget =>
            dsimp only
            split
            · rfl
            · rw [obeys_bind]
              have hattached := obeys_attachActiveRecurrence (w := s) (m := .free) pointerTarget
                (fun _ _ _ => id) fun _ _ _ => rfl
              refine hattached.mono fun r g s' hattach => ?_
              have hg : g = .free := by
                rcases hattach.2 with rfl | rfl <;> rfl
              subst hg
              cases r with
              | error e => rfl
              | ok attached =>
                cases attached with
                | true => rfl
                | false =>
                  dsimp only
                  rw [if_neg Bool.false_ne_true]
                  split
                  · rfl
                  · rw [obeys_bind, obeys_settle]
                    cases parseFailureRecoveryTarget row with
                    | error e => rfl
                    | ok target =>
                      dsimp only
                      split
                      · rfl
                      · rw [obeys_bind]
                        refine obeys_call.mpr ⟨fun _ => id, fun r g s hlearned hrely => ?_⟩
                        change g = _ at hlearned
                        change Relies g s at hrely
                        cases r with
                        | error e =>
                          subst hlearned
                          rfl
                        | ok _ =>
                          subst hlearned
                          refine ⟨.granted target.sysid, .take hrely, ?_⟩
                          show Obeys locking Ends (Prog.tryFinally _ _) _ _
                          rw [obeys_tryFinally]
                          exact (obeys_processLocked fuel target.failureId newSessionId).mono
                            fun r g s hg => ⟨.done, .drop hg, rfl⟩

end Obeyed

section Sharing

variable {w w' : World} {mode : ℕ → Mode} {m m' : Mode} {i : ℕ} {key : PointerKey} {ref : ℕ}
variable {sysid : String}

/-- What has been recorded of a task that is in this mode. -/
def Matches : Mode → Seen → Prop
  | .free, seen => seen = Seen.nothing
  | .acquired sysid, seen => seen = ⟨some sysid, none⟩
  | .granted sysid, seen => seen = ⟨some sysid, none⟩
  | .reread sysid target, seen => seen = ⟨some sysid, some target.sysid⟩
  | .holding sysid robot, seen => seen = ⟨some sysid, some robot⟩
  | .owning key _, seen => seen = ⟨some key.sysid, some key.sysid⟩
  | .done, _ => True

structure Locks (mode : ℕ → Mode) (w : World) : Prop where
  taken : ∀ i sysid, (mode i).holds = some sysid → w.robotLocks sysid = true
  single : ∀ i j sysid, (mode i).holds = some sysid → (mode j).holds = some sysid → i = j

def Owned (mode : ℕ → Mode) (w : World) : Prop :=
  ∀ key ref, w.activeByPointer key = some ref ↔ ∃ i, mode i = .owning key ref

theorem Locks.congr (h : Locks mode w) (hlocks : w'.robotLocks = w.robotLocks) :
    Locks mode w' := by
  refine ⟨fun i sysid hi => ?_, h.single⟩
  rw [hlocks]
  exact h.taken i sysid hi

theorem Owned.congr (h : Owned mode w) (hactive : w'.activeByPointer = w.activeByPointer) :
    Owned mode w' := by
  intro key ref
  rw [hactive]
  exact h key ref

/-- A task comes to a mode that holds the same lock. -/
theorem Locks.replace (h : Locks (Function.update mode i m) w) (hholds : m'.holds = m.holds) :
    Locks (Function.update mode i m') w := by
  have hsame : ∀ j, (Function.update mode i m' j).holds = (Function.update mode i m j).holds := by
    intro j
    by_cases hij : j = i
    · rw [hij, Function.update_self, Function.update_self, hholds]
    · rw [Function.update_of_ne hij, Function.update_of_ne hij]
  refine ⟨fun j sysid hj => ?_, fun j k sysid hj hk => ?_⟩
  · rw [hsame] at hj
    exact h.taken j sysid hj
  · rw [hsame] at hj hk
    exact h.single j k sysid hj hk

/-- A task comes to a mode that owns the same recovery. -/
theorem Owned.replace (h : Owned (Function.update mode i m) w)
    (howns : ∀ key ref, m' = .owning key ref ↔ m = .owning key ref) :
    Owned (Function.update mode i m') w := by
  intro key ref
  rw [h key ref]
  apply exists_congr
  intro j
  by_cases hij : j = i
  · rw [hij, Function.update_self, Function.update_self]
    exact (howns key ref).symm
  · rw [Function.update_of_ne hij, Function.update_of_ne hij]

/-- Nobody else holds a lock that is free. -/
theorem Locks.take (h : Locks (Function.update mode i (.acquired sysid)) w)
    (hfree : w.robotLocks sysid = false) :
    Locks (Function.update mode i (.granted sysid)) (World.lock sysid true w) := by
  have hold : ∀ j sysid', j ≠ i → (Function.update mode i (.granted sysid) j).holds =
      some sysid' → (Function.update mode i (.acquired sysid) j).holds = some sysid' := by
    intro j sysid' hij hj
    rw [Function.update_of_ne hij] at hj ⊢
    exact hj
  have hown : ∀ sysid', (Function.update mode i (.granted sysid) i).holds = some sysid' →
      sysid' = sysid := by
    intro sysid' hi
    rw [Function.update_self] at hi
    exact (Option.some.inj hi).symm
  have hother : ∀ j sysid', j ≠ i → (Function.update mode i (.granted sysid) j).holds =
      some sysid' → sysid' ≠ sysid := by
    intro j sysid' hij hj heq
    have htaken := h.taken j sysid' (hold j sysid' hij hj)
    rw [heq, hfree] at htaken
    cases htaken
  refine ⟨fun j sysid' hj => ?_, fun j k sysid' hj hk => ?_⟩
  · show Function.update w.robotLocks sysid true sysid' = true
    by_cases hij : j = i
    · rw [hown sysid' (hij ▸ hj), Function.update_self]
    · rw [Function.update_of_ne (hother j sysid' hij hj)]
      exact h.taken j sysid' (hold j sysid' hij hj)
  · by_cases hij : j = i
    · by_cases hik : k = i
      · rw [hij, hik]
      · exact absurd (hown sysid' (hij ▸ hj)) (hother k sysid' hik hk)
    · by_cases hik : k = i
      · exact absurd (hown sysid' (hik ▸ hk)) (hother j sysid' hij hj)
      · exact h.single j k sysid' (hold j sysid' hij hj) (hold k sysid' hik hk)

/-- The lock is given back by the one task that holds it. -/
theorem Locks.drop (h : Locks (Function.update mode i m) w) (hholds : m.holds = some sysid) :
    Locks (Function.update mode i .done) (World.lock sysid false w) := by
  have hold : ∀ j sysid', (Function.update mode i .done j).holds = some sysid' →
      j ≠ i ∧ (Function.update mode i m j).holds = some sysid' := by
    intro j sysid' hj
    have hij : j ≠ i := by
      intro hij
      rw [hij, Function.update_self] at hj
      cases hj
    rw [Function.update_of_ne hij] at hj ⊢
    exact ⟨hij, hj⟩
  have hself : (Function.update mode i m i).holds = some sysid := by
    rw [Function.update_self, hholds]
  refine ⟨fun j sysid' hj => ?_, fun j k sysid' hj hk => ?_⟩
  · obtain ⟨hij, hheld⟩ := hold j sysid' hj
    have hne : sysid' ≠ sysid := by
      intro heq
      rw [heq] at hheld
      exact hij (h.single j i sysid hheld hself)
    show Function.update w.robotLocks sysid false sysid' = true
    rw [Function.update_of_ne hne]
    exact h.taken j sysid' hheld
  · exact h.single j k sysid' (hold j sysid' hj).2 (hold k sysid' hk).2

/-- No other task owns a recovery of the robot whose lock one task holds. -/
theorem Locks.alone (h : Locks (Function.update mode i m) w) (hholds : m.holds = some key.sysid)
    {j : ℕ} (hj : Function.update mode i m j = .owning key ref) : j = i := by
  apply h.single j i key.sysid
  · rw [hj]
    rfl
  · rw [Function.update_self, hholds]

theorem Owned.activate {active : ActiveRecovery}
    (h : Owned (Function.update mode i (.holding key.sysid key.sysid)) w)
    (hlocks : Locks (Function.update mode i (.holding key.sysid key.sysid)) w) :
    Owned (Function.update mode i (.owning key w.recoveries.length)) (w.activate key active) := by
  intro key' ref
  show Function.update w.activeByPointer key (some w.recoveries.length) key' = some ref ↔ _
  by_cases hkey : key' = key
  · rw [hkey, Function.update_self, Option.some.injEq]
    constructor
    · intro href
      exact ⟨i, by rw [Function.update_self, href]⟩
    · intro hj
      obtain ⟨j, hj⟩ := hj
      by_cases hij : j = i
      · rw [hij, Function.update_self] at hj
        cases hj
        rfl
      · rw [Function.update_of_ne hij] at hj
        exact absurd (hlocks.alone rfl (by rw [Function.update_of_ne hij]; exact hj)) hij
  · rw [Function.update_of_ne hkey, h key' ref]
    apply exists_congr
    intro j
    by_cases hij : j = i
    · rw [hij, Function.update_self, Function.update_self]
      refine iff_of_false (fun heq => by cases heq) fun heq => ?_
      cases heq
      exact hkey rfl
    · rw [Function.update_of_ne hij, Function.update_of_ne hij]

theorem Owned.release (h : Owned (Function.update mode i (.owning key ref)) w)
    (hlocks : Locks (Function.update mode i (.owning key ref)) w) :
    Owned (Function.update mode i (.holding key.sysid key.sysid)) (World.release key ref w) := by
  have hentry : w.activeByPointer key = some ref := (h key ref).mpr ⟨i, Function.update_self ..⟩
  have hreleased : World.release key ref w =
      { w with activeByPointer := Function.update w.activeByPointer key none } := if_pos hentry
  rw [hreleased]
  intro key' ref'
  show Function.update w.activeByPointer key none key' = some ref' ↔ _
  by_cases hkey : key' = key
  · rw [hkey, Function.update_self]
    refine iff_of_false (fun heq => by cases heq) fun hj => ?_
    obtain ⟨j, hj⟩ := hj
    by_cases hij : j = i
    · rw [hij, Function.update_self] at hj
      cases hj
    · rw [Function.update_of_ne hij] at hj
      exact hij (hlocks.alone rfl (by rw [Function.update_of_ne hij]; exact hj))
  · rw [Function.update_of_ne hkey, h key' ref']
    apply exists_congr
    intro j
    by_cases hij : j = i
    · rw [hij, Function.update_self, Function.update_self]
      refine iff_of_false (fun heq => ?_) fun heq => by cases heq
      cases heq
      exact hkey rfl
    · rw [Function.update_of_ne hij, Function.update_of_ne hij]

theorem lockOnly_eq_some (h : m.lockOnly = some sysid) :
    m.holds = some sysid ∧ ∀ key ref, m ≠ .owning key ref := by
  cases m with
  | owning key ref => cases h
  | _ => exact ⟨h, fun _ _ heq => by cases heq⟩

/-- The locks and the active recoveries, as the tasks have them. -/
def Table (mode : ℕ → Mode) (w : World) : Prop := Locks mode w ∧ Owned mode w

/-- What a task does between two awaits keeps the table. -/
theorem Table.act (h : Table (Function.update mode i m) w) (hact : Act m w m' w') :
    Table (Function.update mode i m') w' := by
  obtain ⟨hlocks, howned⟩ := h
  cases hact with
  | take hfree =>
    refine ⟨hlocks.take hfree, (howned.replace fun key ref => ?_).congr rfl⟩
    exact iff_of_false (fun heq => by cases heq) fun heq => by cases heq
  | attach hsame hactive => exact ⟨hlocks.congr hsame, howned.congr hactive⟩
  | @activate key _ active =>
    have hnext : Locks (Function.update mode i (.owning key w.recoveries.length)) w :=
      hlocks.replace rfl
    exact ⟨hnext.congr rfl, howned.activate hlocks⟩
  | @release key ref =>
    have hnext : Locks (Function.update mode i (.holding key.sysid key.sysid)) w :=
      hlocks.replace rfl
    refine ⟨hnext.congr ?_, howned.release hlocks⟩
    unfold World.release
    split <;> rfl
  | drop hlock =>
    obtain ⟨hholds, hplain⟩ := lockOnly_eq_some hlock
    refine ⟨hlocks.drop hholds, (howned.replace fun key ref => ?_).congr rfl⟩
    exact iff_of_false (fun heq => by cases heq) (hplain key ref)

theorem Matches.act {seen : Seen} (h : Matches m seen) (hact : Act m w m' w') :
    Matches m' seen := by
  cases hact with
  | drop _ => trivial
  | _ => exact h

end Sharing

section Answers

variable {w w' : World} {m : Mode} {op : Op} {r : Except PyExc op.Reply} {seen : Seen}

/-- An answer gives no lock and no recovery by itself. -/
theorem after_holds (hpermitted : Permitted m op) : (m.after op r).holds = m.holds := by
  cases m with
  | free => cases op <;> cases r <;> rfl
  | granted sysid =>
    obtain ⟨failureId, rfl⟩ := hpermitted
    cases r with
    | error e => rfl
    | ok found =>
      cases found with
      | none => rfl
      | some row =>
        unfold Mode.after
        dsimp only
        split <;> rfl
  | acquired sysid => exact hpermitted.elim
  | done => exact hpermitted.elim
  | _ => rfl

theorem after_owns (hpermitted : Permitted m op) (key : PointerKey) (ref : ℕ) :
    m.after op r = .owning key ref ↔ m = .owning key ref := by
  cases m with
  | free =>
    refine iff_of_false (fun heq => ?_) fun heq => by cases heq
    cases op <;> cases r <;> cases heq
  | granted sysid =>
    obtain ⟨failureId, rfl⟩ := hpermitted
    refine iff_of_false (fun heq => ?_) fun heq => by cases heq
    cases r with
    | error e => cases heq
    | ok found =>
      cases found with
      | none => cases heq
      | some row =>
        unfold Mode.after at heq
        dsimp only at heq
        split at heq <;> cases heq
  | reread sysid target =>
    exact iff_of_false (fun heq => by cases heq) fun heq => by cases heq
  | acquired sysid => exact hpermitted.elim
  | done => exact hpermitted.elim
  | _ => exact Iff.rfl

/-- What is awaited under the lock is not recorded, the row apart. -/
theorem after_unrecorded (h : Bookkeeping op ∨ ∃ sysid, Steady sysid op) :
    seen.after op r = seen := by
  rcases h with h | ⟨sysid, h⟩
  · cases op <;> first | exact h.elim | rfl
  · cases op <;> first | exact h.elim | rfl

theorem Matches.after (h : Matches m seen) (hpermitted : Permitted m op) :
    Matches (m.after op r) (seen.after op r) := by
  cases m with
  | free =>
    have hseen : seen = Seen.nothing := h
    subst hseen
    cases op with
    | fetchFailure failureId =>
      cases r with
      | error e => rfl
      | ok found => cases found <;> rfl
    | _ => cases r <;> rfl
  | granted sysid =>
    have hseen : seen = ⟨some sysid, none⟩ := h
    subst hseen
    obtain ⟨failureId, rfl⟩ := hpermitted
    cases r with
    | error e => rfl
    | ok found =>
      cases found with
      | none => rfl
      | some row =>
        unfold Mode.after Seen.after
        dsimp only
        cases parseFailureRecoveryTarget row <;> rfl
  | reread sysid target =>
    rw [after_unrecorded (hpermitted.imp id fun hsteady => ⟨_, hsteady.1⟩)]
    exact h
  | holding sysid robot =>
    rw [after_unrecorded (hpermitted.imp id fun hsteady => ⟨_, hsteady.1⟩)]
    exact h
  | owning key ref =>
    rw [after_unrecorded (.inr ⟨_, hpermitted⟩)]
    exact h
  | acquired sysid => exact hpermitted.elim
  | done => exact hpermitted.elim

theorem ToExecute.congr {target : FailureRecoveryTarget} (h : Untouched w w') :
    ToExecute w' target ↔ ToExecute w target := by
  unfold ToExecute activeRecovery
  rw [h.recoveries, h.active]

/-- A lock is free when it is given, and a row that is read under it is of its robot
if it is to be executed. -/
theorem relies_after (hmatches : Matches m seen) (hpermitted : Permitted m op)
    (henv : AwaitStep w op r w')
    (hsame : ∀ failureId row sysid target, op = .fetchFailure failureId →
      HEq r (Except.ok (some row) : Except PyExc (Option JsonValue.Fields)) →
      seen.lockedFor = some sysid → parseFailureRecoveryTarget row = .ok target →
      ToExecute w target → target.sysid = sysid) : Relies (m.after op r) w' := by
  cases m with
  | free =>
    cases op with
    | acquireRobotLock sysid =>
      cases r with
      | error e => trivial
      | ok a =>
        show w'.robotLocks sysid = false
        rw [henv.locks]
        exact henv.free sysid rfl rfl
    | _ => cases r <;> trivial
  | granted sysid =>
    obtain ⟨failureId, rfl⟩ := hpermitted
    have hseen : seen = ⟨some sysid, none⟩ := hmatches
    cases r with
    | error e => trivial
    | ok found =>
      cases found with
      | none => trivial
      | some row =>
        unfold Mode.after
        dsimp only
        cases hparse : parseFailureRecoveryTarget row with
        | error e => trivial
        | ok target =>
          intro hexecute
          rw [ToExecute.congr henv.toUntouched] at hexecute
          exact hsame failureId row sysid target rfl HEq.rfl (by rw [hseen]) hparse hexecute
  | acquired sysid => exact hpermitted.elim
  | done => exact hpermitted.elim
  | _ => trivial

end Answers

section Interleaving

variable {c : Coordinator} {P P' : Coordination} {l : Label recovery} {w : World}
variable {t : List (Label recovery)} {mode : ℕ → Mode}

abbrev SteadyStep (c : Coordinator) (P : Coordination) (l : Label recovery)
    (P' : Coordination) : Prop :=
  CoordinatorStep c P l P' ∧ SameRobot P l

/-- Every task keeps to the locking in its mode, and the modes fit together. -/
structure Governed (P : Coordination) (mode : ℕ → Mode) : Prop where
  obeys : ∀ i p, P.task i = some p → Settled p ∧ Obeys locking Ends p (mode i) P.state
  idle : ∀ i, P.task i = none → mode i = .free ∧ P.record i = Seen.nothing
  linked : ∀ i, Matches (mode i) (P.record i)
  table : Table mode P.state

theorem Governed.resettled (h : Governed P mode) {i : ℕ} {p : Recovery Unit}
    (hp : P.task i = some p) (s : World) : Settled p ∧ Obeys locking Ends p (mode i) s := by
  obtain ⟨hsettled, hobeys⟩ := h.obeys i p hp
  exact ⟨hsettled, hobeys.elsewhere hsettled (fun _ hop => hop) fun _ hends => hends⟩

/-- A task runs to its next await. -/
theorem Governed.run (h : Governed P mode) {i : ℕ} {p : Recovery Unit} {m : Seen} {g : Mode}
    {s : World} (hp : Obeys locking Ends p g s) (hlink : Matches g m)
    (htable : Table (Function.update mode i g) s) :
    ∃ mode', Governed (P.run i p m s) mode' := by
  obtain ⟨g', hacts, hobeys⟩ := hp.advance
  refine ⟨Function.update mode i g', fun j q hq => ?_, fun j hj => ?_, fun j => ?_, ?_⟩
  · by_cases hij : j = i
    · subst hij
      rw [run_task_self, Option.some.injEq] at hq
      subst hq
      rw [Function.update_self]
      exact ⟨advance_settled p s, hobeys⟩
    · rw [run_task_other hij] at hq
      rw [Function.update_of_ne hij]
      exact h.resettled hq _
  · by_cases hij : j = i
    · subst hij
      rw [run_task_self] at hj
      cases hj
    · rw [run_task_other hij] at hj
      rw [Function.update_of_ne hij, run_record_other hij]
      exact h.idle j hj
  · by_cases hij : j = i
    · subst hij
      rw [Function.update_self, run_record_self]
      exact hacts.preserves (I := fun g _ => Matches g m) hlink fun _ _ _ _ hmatches hact =>
        hmatches.act hact
    · rw [Function.update_of_ne hij, run_record_other hij]
      exact h.linked j
  · refine hacts.preserves (I := fun g s => Table (Function.update mode i g) s) htable ?_
    intro g s g' s' hbefore hact
    exact Table.act hbefore hact

theorem Governed.step (h : Governed P mode) (hstep : SteadyStep c P l P') :
    ∃ mode', Governed P' mode' := by
  obtain ⟨⟨hstep, -⟩, hsame⟩ := hstep
  cases hstep with
  | @start i p m htask hspawn =>
    obtain ⟨⟨fuel, failureId, newSessionId, rfl⟩, rfl⟩ := hspawn
    obtain ⟨hfree, -⟩ := h.idle i htask
    refine h.run (obeys_processFailure fuel failureId newSessionId) rfl ?_
    rw [← hfree, Function.update_eq_self]
    exact h.table
  | @resume i op k r s' htask henv =>
    obtain ⟨-, hpermitted, hanswered⟩ := h.obeys i _ htask
    refine h.run (hanswered r _ s' rfl ?_) ((h.linked i).after hpermitted) ⟨?_, ?_⟩
    · refine relies_after (h.linked i) hpermitted henv ?_
      intro failureId row sysid target hop hrow hlocked hparse hexecute
      subst hop
      rw [eq_of_heq hrow] at hsame
      exact hsame i failureId row sysid target rfl hlocked hparse hexecute
    · apply Locks.replace _ (after_holds hpermitted)
      rw [Function.update_eq_self]
      exact h.table.1.congr henv.locks
    · apply Owned.replace _ (after_owns hpermitted)
      rw [Function.update_eq_self]
      exact h.table.2.congr henv.active
  | outside houtside =>
    exact ⟨mode, fun i p hp => h.resettled hp _, h.idle, h.linked,
      h.table.1.congr houtside.locks, h.table.2.congr houtside.active⟩

theorem governed_initial (hidle : Idle w) :
    Governed (Pool.initial w Seen.nothing) (fun _ => .free) := by
  refine ⟨fun i p hp => (nomatch hp), fun i _ => ⟨rfl, rfl⟩, fun i => rfl,
    ⟨fun i sysid hi => (nomatch hi), fun i j sysid hi => (nomatch hi)⟩, fun key ref => ?_⟩
  refine iff_of_false (fun hactive => ?_) fun hi => ?_
  · have hnone : w.activeByPointer key = some ref := hactive
    rw [hidle.2 key] at hnone
    cases hnone
  · obtain ⟨i, hi⟩ := hi
    cases hi

/-- In every reachable pool the modes fit together, and no loop was cut. -/
theorem governed_run (hidle : Idle w)
    (hrun : Run (SteadyStep c) (Pool.initial w Seen.nothing) t P) :
    (∃ mode, Governed P mode) ∧ ∀ i, P.task i ≠ some .halt := by
  refine hrun.preserves (I := fun P => (∃ mode, Governed P mode) ∧ ∀ i, P.task i ≠ some .halt)
    ⟨⟨_, governed_initial hidle⟩, fun i hi => (nomatch hi)⟩ ?_
  intro P l P' h hstep
  obtain ⟨⟨mode, hgoverned⟩, -⟩ := h
  exact ⟨hgoverned.step hstep, hstep.1.2⟩

/-- A task that executes a robot holds its lock. -/
theorem Governed.executing (h : Governed P mode) {i : ℕ} {sysid : String}
    (hexecuting : Executing P i sysid) : (mode i).holds = some sysid := by
  obtain ⟨⟨op, k, htask, hop⟩, hreread⟩ := hexecuting
  obtain ⟨-, hpermitted, -⟩ := h.obeys i _ htask
  have hlinked := h.linked i
  change Permitted (mode i) op at hpermitted
  cases hmode : mode i with
  | free =>
    rw [hmode] at hlinked
    rw [show P.record i = Seen.nothing from hlinked] at hreread
    cases hreread
  | granted sysid' =>
    rw [hmode] at hlinked
    rw [show P.record i = ⟨some sysid', none⟩ from hlinked] at hreread
    cases hreread
  | reread sysid' target =>
    rw [hmode] at hlinked hpermitted
    rw [show P.record i = ⟨some sysid', some target.sysid⟩ from hlinked] at hreread
    obtain ⟨-, hsame⟩ := hpermitted.resolve_left hop
    exact congrArg some (hsame.symm.trans (Option.some.inj hreread))
  | holding sysid' robot =>
    rw [hmode] at hlinked hpermitted
    rw [show P.record i = ⟨some sysid', some robot⟩ from hlinked] at hreread
    obtain ⟨-, hsame⟩ := hpermitted.resolve_left hop
    exact congrArg some (hsame.symm.trans (Option.some.inj hreread))
  | owning key ref =>
    rw [hmode] at hlinked
    rw [show P.record i = ⟨some key.sysid, some key.sysid⟩ from hlinked] at hreread
    exact hreread
  | acquired sysid' =>
    rw [hmode] at hpermitted
    exact hpermitted.elim
  | done =>
    rw [hmode] at hpermitted
    exact hpermitted.elim

theorem not_bookkeeping_of_steady {sysid : String} {op : Op} (h : Steady sysid op) :
    ¬ Bookkeeping op := by
  cases op <;> first | exact h.elim | exact id

/-- A task that owns an active recovery executes its robot. -/
theorem Governed.owner (h : Governed P mode) (huncut : ∀ i, P.task i ≠ some .halt) {i : ℕ}
    {key : PointerKey} {ref : ℕ} (hmode : mode i = .owning key ref) :
    Executing P i key.sysid := by
  have hlinked := h.linked i
  rw [hmode] at hlinked
  rw [Executing, show P.record i = ⟨some key.sysid, some key.sysid⟩ from hlinked]
  refine ⟨?_, rfl⟩
  cases htask : P.task i with
  | none =>
    rw [(h.idle i htask).1] at hmode
    cases hmode
  | some p =>
    obtain ⟨hsettled, hobeys⟩ := h.obeys i p htask
    rw [hmode] at hobeys
    cases p with
    | await op k => exact ⟨op, k, rfl, not_bookkeeping_of_steady hobeys.1⟩
    | ret a => cases hobeys
    | raise e => cases hobeys
    | halt => exact absurd htask (huncut i)
    | get k => exact hsettled.elim
    | set s next => exact hsettled.elim

/-- A command is sent to a robot by a task that executes it. -/
theorem Governed.commands (h : Governed P mode) {i : ℕ} {sysid command : String}
    {arguments : JsonValue.Fields} {timeout : ℚ}
    {k : Except PyExc (Op.Reply (.requestCommand sysid command arguments timeout)) → Recovery Unit}
    (htask : P.task i = some (.await (.requestCommand sysid command arguments timeout) k)) :
    Executing P i sysid := by
  refine ⟨⟨.requestCommand sysid command arguments timeout, k, htask, id⟩, ?_⟩
  obtain ⟨-, hpermitted, -⟩ := h.obeys i _ htask
  change Permitted (mode i) (.requestCommand sysid command arguments timeout) at hpermitted
  have hlinked := h.linked i
  cases hmode : mode i with
  | free =>
    rw [hmode] at hpermitted
    exact absurd rfl (hpermitted sysid)
  | granted sysid' =>
    rw [hmode] at hpermitted
    obtain ⟨failureId, heq⟩ := hpermitted
    cases heq
  | reread sysid' target =>
    rw [hmode] at hlinked hpermitted
    rw [show P.record i = ⟨some sysid', some target.sysid⟩ from hlinked]
    obtain ⟨hrobot, -⟩ := hpermitted.resolve_left id
    exact congrArg some hrobot.symm
  | holding sysid' robot =>
    rw [hmode] at hlinked hpermitted
    rw [show P.record i = ⟨some sysid', some robot⟩ from hlinked]
    obtain ⟨hrobot, -⟩ := hpermitted.resolve_left id
    exact congrArg some hrobot.symm
  | owning key ref =>
    rw [hmode] at hlinked hpermitted
    rw [show P.record i = ⟨some key.sysid, some key.sysid⟩ from hlinked]
    exact congrArg some (show sysid = key.sysid from hpermitted).symm
  | acquired sysid' =>
    rw [hmode] at hpermitted
    exact hpermitted.elim
  | done =>
    rw [hmode] at hpermitted
    exact hpermitted.elim

/-- A step of one task leaves the executions of the others. -/
theorem executing_other {i j : ℕ} {sysid : String} (hstep : CoordinatorStep c P l P')
    (hi : Executing P i sysid) (hleft : ¬ Executing P' i sysid) (hij : j ≠ i) :
    Executing P' j sysid → Executing P j sysid := by
  have hmoved : ∀ (n : ℕ) (p : Recovery Unit) (m : Seen) (s : World),
      P' = P.run n p m s → Executing P' j sysid → Executing P j sysid := by
    intro n p m s heq hj
    have hn : n = i := by
      by_contra hne
      apply hleft
      obtain ⟨⟨op, k, htask, hop⟩, hreread⟩ := hi
      refine ⟨⟨op, k, ?_, hop⟩, ?_⟩
      · rw [heq, run_task_other (Ne.symm hne)]
        exact htask
      · rw [heq, run_record_other (Ne.symm hne)]
        exact hreread
    subst hn
    obtain ⟨⟨op, k, htask, hop⟩, hreread⟩ := hj
    rw [heq, run_task_other hij] at htask
    rw [heq, run_record_other hij] at hreread
    exact ⟨⟨op, k, htask, hop⟩, hreread⟩
  obtain ⟨hstep, -⟩ := hstep
  cases hstep with
  | start htask hspawn => exact hmoved _ _ _ _ rfl
  | resume htask henv => exact hmoved _ _ _ _ rfl
  | outside houtside => exact id

/-- One task at a time executes a robot and sends it commands; an active recovery is
owned by the task that executes its robot, there is one for a robot at most, and the
step in which its owner leaves the execution leaves none. -/
theorem one_recovery (hidle : Idle w)
    (hrun : Run (SteadyStep c) (Pool.initial w Seen.nothing) t P) :
    (∀ i j sysid, Executing P i sysid → Executing P j sysid → i = j) ∧
      (∀ i sysid command arguments timeout k,
        P.task i = some (.await (.requestCommand sysid command arguments timeout) k) →
        Executing P i sysid) ∧
      (∀ key ref, P.state.activeByPointer key = some ref → ∃ i, Executing P i key.sysid) ∧
      (∀ key key' ref ref', P.state.activeByPointer key = some ref →
        P.state.activeByPointer key' = some ref' → key.sysid = key'.sysid → key = key') ∧
      ∀ i sysid l P', Executing P i sysid → SteadyStep c P l P' → ¬ Executing P' i sysid →
        ∀ key, key.sysid = sysid → P'.state.activeByPointer key = none := by
  obtain ⟨⟨mode, hgoverned⟩, huncut⟩ := governed_run hidle hrun
  have hsingle : ∀ i j sysid, Executing P i sysid → Executing P j sysid → i = j :=
    fun i j sysid hi hj =>
      hgoverned.table.1.single i j sysid (hgoverned.executing hi) (hgoverned.executing hj)
  refine ⟨hsingle, fun i sysid command arguments timeout k htask => hgoverned.commands htask,
    fun key ref hactive => ?_, fun key key' ref ref' hactive hactive' hsame => ?_,
    fun i sysid l P' hi hstep hleft key hkey => ?_⟩
  · obtain ⟨i, hi⟩ := (hgoverned.table.2 key ref).mp hactive
    exact ⟨i, hgoverned.owner huncut hi⟩
  · obtain ⟨i, hi⟩ := (hgoverned.table.2 key ref).mp hactive
    obtain ⟨j, hj⟩ := (hgoverned.table.2 key' ref').mp hactive'
    have howner := hsingle i j key.sysid (hgoverned.owner huncut hi)
      (hsame ▸ hgoverned.owner huncut hj)
    rw [howner, hj] at hi
    cases hi
    rfl
  · obtain ⟨mode', hgoverned'⟩ := hgoverned.step hstep
    rw [Option.eq_none_iff_forall_ne_some]
    intro ref hactive
    obtain ⟨j, hj⟩ := (hgoverned'.table.2 key ref).mp hactive
    have hexecuting : Executing P' j sysid := hkey ▸ hgoverned'.owner hstep.1.2 hj
    by_cases hij : j = i
    · exact hleft (hij ▸ hexecuting)
    · exact hij (hsingle j i sysid (executing_other hstep.1 hi hleft hij hexecuting) hi)

end Interleaving

section Samples

variable {c : Coordinator} {w : World} {row again : JsonValue.Fields}
variable {target target' : FailureRecoveryTarget}

/-- A row that can be executed also names its step, with both of its results. -/
theorem pointerTarget_of_recoveryTarget (h : parseFailureRecoveryTarget row = .ok target) :
    parseFailurePointerTarget row = .ok target.toFailurePointerTarget ∧
      strippedColumn row "analysis_status" = "completed" ∧
      strippedColumn row "matcher_status" = "solution_found" := by
  unfold parseFailureRecoveryTarget at h
  obtain ⟨pointerTarget, hpointer, h⟩ := bind_eq_ok.mp h
  obtain ⟨hanalysis, h⟩ := bind_unit_eq_ok.mp h
  obtain ⟨hmatcher, h⟩ := bind_unit_eq_ok.mp h
  cases hsuggestion : row.get "resolver_suggestion" with
  | obj suggestion =>
    rw [hsuggestion] at h
    obtain ⟨_, -, h⟩ := bind_eq_ok.mp h
    cases h
    exact ⟨hpointer, by simpa using hanalysis, by simpa using hmatcher⟩
  | _ =>
    rw [hsuggestion] at h
    cases h

/-- A failure whose row can be executed, and what it reads again under the lock. -/
structure Executable (c : Coordinator) (w : World) (row again : JsonValue.Fields)
    (target target' : FailureRecoveryTarget) : Prop where
  enabled : c.settings.enabled = true
  connected : w.databaseSet = true
  inactive : ∀ key, w.activeByPointer key = none
  read : parseFailureRecoveryTarget row = .ok target
  allowed : target.sysid ∈ c.settings.robotAllowlist
  status : startable target.recoveryStatus = true
  reread : parseFailureRecoveryTarget again = .ok target'
  statusAgain : startable target'.recoveryStatus = true
  session : target'.sysid ∈ c.sessions

theorem advance_attachActiveRecurrence (pointerTarget : FailurePointerTarget)
    (h : ∀ key, w.activeByPointer key = none) :
    advance (attachActiveRecurrence pointerTarget) w = (w, .ret false) := by
  unfold attachActiveRecurrence
  simp only [Prog.bind_eq, Prog.pure_eq, Prog.observe, Prog.bind, advance, h]

/-- An execution waits for the robot of its row. -/
theorem advance_executeGuarded (fuel : ℕ) (target : FailureRecoveryTarget) (newSessionId : String)
    (hconnected : w.databaseSet = true) (hsession : target.sysid ∈ c.sessions) :
    ∃ k, advance (executeGuarded c fuel target newSessionId) w =
      (w, .await (.waitConnected target.sysid c.settings.commandTimeoutSeconds) k) := by
  have hexecute : ∃ k, advance (executeTarget c fuel target newSessionId) w =
      (w, .await (.waitConnected target.sysid c.settings.commandTimeoutSeconds) k) := by
    obtain ⟨rest, -, heq⟩ := freshPausedPointer_eq (c := c) target
    have hrequired : advance requiredDatabase w = (w, .ret ()) := by
      unfold requiredDatabase
      simp only [advance, if_pos hconnected]
    unfold executeTarget
    simp only [Prog.bind_eq, Prog.pure_eq]
    rw [advance_bind_ret hrequired, if_neg (not_not.mpr hsession), heq]
    exact ⟨_, advance_bind_await (advance_bind_await rfl)⟩
  obtain ⟨k, hk⟩ := hexecute
  unfold executeGuarded
  exact ⟨_, advance_tryCatch_await hk⟩

/-- Under the lock a row that is read again is executed. -/
theorem advance_processLocked (fuel : ℕ) (failureId newSessionId : String)
    (h : Executable c w row again target target') :
    ∃ k, advance (processLocked c fuel failureId newSessionId) (World.lock target.sysid true w) =
        (World.lock target.sysid true w, .await (.fetchFailure failureId) k) ∧
      ∃ k', advance (k (.ok (some again))) (World.lock target.sysid true w) =
        (World.lock target.sysid true w,
          .await (.waitConnected target'.sysid c.settings.commandTimeoutSeconds) k') := by
  obtain ⟨k', hexecute⟩ := advance_executeGuarded (c := c) (w := World.lock target.sysid true w)
    fuel target' newSessionId h.connected h.session
  have hattach : advance (attachActiveRecurrence target'.toFailurePointerTarget)
      (World.lock target.sysid true w) = (World.lock target.sysid true w, .ret false) :=
    advance_attachActiveRecurrence _ h.inactive
  unfold processLocked
  simp only [Prog.bind_eq, Prog.pure_eq]
  refine ⟨_, advance_bind_await rfl, k', ?_⟩
  simp only [Prog.settle, Prog.bind, h.reread]
  rw [advance_bind_ret hattach, if_neg Bool.false_ne_true, if_neg (by simp [h.statusAgain])]
  exact hexecute

/-- A task reads its row, takes the lock of the robot it names, reads the row again
and executes what it finds then. -/
theorem advance_processFailure (fuel : ℕ) (failureId newSessionId : String)
    (h : Executable c w row again target target') :
    ∃ k₁, advance (processFailure c fuel failureId newSessionId) w =
        (w, .await (.fetchFailure failureId) k₁) ∧
      ∃ k₂, advance (k₁ (.ok (some row))) w = (w, .await (.acquireRobotLock target.sysid) k₂) ∧
      ∃ k₃, advance (k₂ (.ok ())) w =
        (World.lock target.sysid true w, .await (.fetchFailure target.failureId) k₃) ∧
      ∃ k₄, advance (k₃ (.ok (some again))) (World.lock target.sysid true w) =
        (World.lock target.sysid true w,
          .await (.waitConnected target'.sysid c.settings.commandTimeoutSeconds) k₄) := by
  obtain ⟨hpointer, hanalysis, hmatcher⟩ := pointerTarget_of_recoveryTarget h.read
  obtain ⟨k, hlocked, k', hagain⟩ :=
    advance_processLocked fuel target.failureId newSessionId h
  have hrequired : advance requiredDatabase w = (w, .ret ()) := by
    unfold requiredDatabase
    simp only [advance, if_pos h.connected]
  have hattach : advance (attachActiveRecurrence target.toFailurePointerTarget) w =
      (w, .ret false) := advance_attachActiveRecurrence _ h.inactive
  have hfinally : ∃ k₃, advance ((processLocked c fuel target.failureId newSessionId).tryFinally
      (World.lock target.sysid false)) (World.lock target.sysid true w) =
        (World.lock target.sysid true w, .await (.fetchFailure target.failureId) k₃) ∧
      ∃ k₄, advance (k₃ (.ok (some again))) (World.lock target.sysid true w) =
        (World.lock target.sysid true w,
          .await (.waitConnected target'.sysid c.settings.commandTimeoutSeconds) k₄) :=
    ⟨_, advance_tryFinally_await hlocked, _, advance_tryFinally_await hagain⟩
  unfold processFailure
  rw [if_neg (by simp [h.enabled])]
  simp only [Prog.bind_eq, Prog.pure_eq]
  rw [advance_bind_ret hrequired]
  refine ⟨_, advance_bind_await rfl, ?_⟩
  simp only [Prog.settle, Prog.bind, hpointer]
  rw [if_neg (not_not.mpr h.allowed), advance_bind_ret hattach, if_neg Bool.false_ne_true,
    if_neg (by simp [hanalysis, hmatcher])]
  simp only [Prog.bind, h.read]
  rw [if_neg (by simp [h.status])]
  exact ⟨_, advance_bind_await rfl, hfinally⟩

/-- Task `i` has come from a pool to this state, this await and this record. -/
structure Reached (P : Coordination) (i : ℕ) (P' : Coordination) (w : World) (op : Op)
    (k : Except PyExc op.Reply → Recovery Unit) (m : Seen) : Prop where
  state : P'.state = w
  task : P'.task = Function.update P.task i (some (.await op k))
  record : P'.record = Function.update P.record i m
  uncut : ∀ j, P'.task j ≠ some .halt

variable {P P' : Coordination} {i : ℕ} {w w' : World} {m : Seen} {op op' : Op}
variable {k : Except PyExc op.Reply → Recovery Unit} {k' : Except PyExc op'.Reply → Recovery Unit}

theorem uncut_update (huncut : ∀ j, P.task j ≠ some .halt) (j : ℕ) :
    Function.update P.task i (some (.await op k)) j ≠ some .halt := by
  by_cases hj : j = i
  · subst hj
    rw [Function.update_self]
    intro h
    cases h
  · rw [Function.update_of_ne hj]
    exact huncut j

theorem Reached.spawned {fuel : ℕ} {failureId newSessionId : String} (hfree : P.task i = none)
    (huncut : ∀ j, P.task j ≠ some .halt)
    (hadvance : advance (processFailure c fuel failureId newSessionId) P.state =
      (P.state, .await op k)) :
    ∃ P', CoordinatorStep c P (.start i) P' ∧ Reached P i P' P.state op k Seen.nothing := by
  have htask : (P.run i (processFailure c fuel failureId newSessionId) Seen.nothing
      P.state).task = Function.update P.task i (some (.await op k)) := by
    show Function.update P.task i (some (advance _ P.state).2) = _
    rw [hadvance]
  refine ⟨_, ⟨.start hfree ⟨⟨fuel, failureId, newSessionId, rfl⟩, rfl⟩, fun j => ?_⟩,
    ?_, htask, rfl, fun j => ?_⟩
  · rw [htask]
    exact uncut_update huncut j
  · rw [run_state, hadvance]
  · rw [htask]
    exact uncut_update huncut j

/-- Its await is answered and it comes to the next one. -/
theorem Reached.answered (c : Coordinator) {r : Except PyExc op.Reply} {w'' : World}
    (h : Reached P i P' w op k m) (henv : AwaitStep w op r w')
    (hadvance : advance (k r) w' = (w'', .await op' k')) :
    ∃ P'', CoordinatorStep c P' (.resume i op r) P'' ∧
      Reached P i P'' w'' op' k' (m.after op r) := by
  have hawaits : P'.task i = some (.await op k) := by
    rw [h.task, Function.update_self]
  have hrecord : P'.record i = m := by
    rw [h.record, Function.update_self]
  have htask : (P'.run i (k r) ((P'.record i).after op r) w').task =
      Function.update P.task i (some (.await op' k')) := by
    show Function.update P'.task i (some (advance (k r) w').2) = _
    rw [hadvance, h.task, Function.update_idem]
  have huncut : ∀ j, (P'.run i (k r) ((P'.record i).after op r) w').task j ≠ some .halt := by
    intro j
    show Function.update P'.task i (some (advance (k r) w').2) j ≠ some .halt
    rw [hadvance]
    exact uncut_update h.uncut j
  refine ⟨_, ⟨.resume hawaits (h.state ▸ henv), huncut⟩, ?_, htask, ?_, huncut⟩
  · rw [run_state, hadvance]
  · show Function.update P'.record i ((P'.record i).after op r) = _
    rw [hrecord, h.record, Function.update_idem]

/-- A step of the tasks; if the row that is read again is of the same robot, a steady one. -/
def WalkStep (c : Coordinator) (same : Prop) (P : Coordination) (l : Label recovery)
    (P' : Coordination) : Prop :=
  CoordinatorStep c P l P' ∧ (same → SameRobot P l)

theorem sameRobot_start (i : ℕ) : SameRobot P (.start i) := by
  intro j failureId row sysid target heq
  cases heq

/-- Before its lock a task reads any row. -/
theorem sameRobot_unlocked {r : Except PyExc op.Reply} (h : (P.record i).lockedFor = none) :
    SameRobot P (.resume i op r) := by
  intro j failureId row sysid target heq hlocked
  have hj : i = j := by
    cases heq
    rfl
  rw [← hj, h] at hlocked
  cases hlocked

theorem awaitStep_plain {r : Except PyExc op.Reply}
    (hplain : ∀ sysid, op = .acquireRobotLock sysid → w.robotLocks sysid = false) :
    AwaitStep w op r w :=
  ⟨⟨rfl, rfl, rfl⟩, fun sysid heq _ => hplain sysid heq⟩

/-- A task that was not started comes to the lock of the robot of its row; once it is given
the lock, it reads the row again and executes what it finds. -/
theorem locking_run (same : Prop) (fuel : ℕ) (failureId newSessionId : String)
    (h : Executable c P.state row again target target') (hunstarted : P.task i = none)
    (huncut : ∀ j, P.task j ≠ some .halt) :
    ∃ t P' k, Run (WalkStep c same) P t P' ∧
      Reached P i P' P.state (.acquireRobotLock target.sysid) k .nothing ∧
      ∃ k₃, advance (k (.ok ())) P.state = (World.lock target.sysid true P.state,
          .await (.fetchFailure target.failureId) k₃) ∧
        ∃ k₄, advance (k₃ (.ok (some again))) (World.lock target.sysid true P.state) =
          (World.lock target.sysid true P.state,
            .await (.waitConnected target'.sysid c.settings.commandTimeoutSeconds) k₄) := by
  obtain ⟨k₁, hstart, k₂, hread, hrest⟩ :=
    advance_processFailure fuel failureId newSessionId h
  obtain ⟨P₁, hstep₁, hat₁⟩ := Reached.spawned hunstarted huncut hstart
  obtain ⟨P₂, hstep₂, hat₂⟩ := hat₁.answered c (awaitStep_plain fun _ heq => nomatch heq) hread
  have hrecord₁ : (P₁.record i).lockedFor = none := by
    rw [hat₁.record, Function.update_self]
    rfl
  have hempty : Run (WalkStep c same) P [] P := .start
  have hrun := (hempty.next ⟨hstep₁, fun _ => sameRobot_start i⟩).next
    ⟨hstep₂, fun _ => sameRobot_unlocked hrecord₁⟩
  exact ⟨_, P₂, k₂, hrun, hat₂, hrest⟩

/-- A task that was not started comes to execute the robot of the row it reads again, if
nobody holds the lock of the robot it read first. -/
theorem execution_run (fuel : ℕ) (failureId newSessionId : String)
    (h : Executable c P.state row again target target') (hunstarted : P.task i = none)
    (huncut : ∀ j, P.task j ≠ some .halt) (hfree : P.state.robotLocks target.sysid = false) :
    ∃ t P' k, Run (WalkStep c (target'.sysid = target.sysid)) P t P' ∧
      Reached P i P' (World.lock target.sysid true P.state)
        (.waitConnected target'.sysid c.settings.commandTimeoutSeconds) k
        ⟨some target.sysid, some target'.sysid⟩ := by
  obtain ⟨t, P₂, k₂, hrun, hat₂, k₃, hlock, k₄, hagain⟩ :=
    locking_run (target'.sysid = target.sysid) fuel failureId newSessionId h hunstarted huncut
  have hfreeLock : ∀ sysid, Op.acquireRobotLock target.sysid = .acquireRobotLock sysid →
      P.state.robotLocks sysid = false := by
    intro sysid heq
    cases heq
    exact hfree
  obtain ⟨P₃, hstep₃, hat₃⟩ := hat₂.answered c (awaitStep_plain hfreeLock) hlock
  obtain ⟨P₄, hstep₄, hat₄⟩ := hat₃.answered c (awaitStep_plain fun _ heq => nomatch heq) hagain
  have hrecord₂ : (P₂.record i).lockedFor = none := by
    rw [hat₂.record, Function.update_self]
    rfl
  have hrecord₃ : (P₃.record i).lockedFor = some target.sysid := by
    rw [hat₃.record, Function.update_self]
    rfl
  have hsame : target'.sysid = target.sysid →
      SameRobot P₃ (.resume i (.fetchFailure target.failureId) (.ok (some again))) := by
    intro hrobot j failureId' row' sysid found heq hlocked hparse _
    cases heq
    rw [hrecord₃] at hlocked
    cases hlocked
    rw [h.reread] at hparse
    cases hparse
    exact hrobot
  refine ⟨_, P₄, k₄, (hrun.next ⟨hstep₃, fun _ => sameRobot_unlocked hrecord₂⟩).next
    ⟨hstep₄, hsame⟩, hat₄.state, hat₄.task, ?_, hat₄.uncut⟩
  rw [hat₄.record]
  congr 1
  show (Seen.mk (some target.sysid) none).after (.fetchFailure target.failureId)
    (.ok (some again)) = _
  simp only [Seen.after, h.reread]

theorem Reached.executing {sysid robot : String} {timeout : ℚ}
    {k : Except PyExc (Op.Reply (.waitConnected sysid timeout)) → Recovery Unit}
    (h : Reached P i P' w (.waitConnected sysid timeout) k ⟨some robot, some sysid⟩) :
    Executing P' i sysid := by
  refine ⟨⟨.waitConnected sysid timeout, k, ?_, id⟩, ?_⟩
  · rw [h.task, Function.update_self]
  · rw [h.record, Function.update_self]

/-- What one task comes to leaves the others where they are. -/
theorem Reached.others {j : ℕ} {sysid : String} (h : Reached P i P' w op k m) (hij : j ≠ i)
    (hj : Executing P j sysid) : Executing P' j sysid := by
  obtain ⟨⟨op', k', htask, hop⟩, hreread⟩ := hj
  refine ⟨⟨op', k', ?_, hop⟩, ?_⟩
  · rw [h.task, Function.update_of_ne hij]
    exact htask
  · rw [h.record, Function.update_of_ne hij]
    exact hreread

def twoRobots : Coordinator :=
  ⟨{ sampleSettings with robotAllowlist := ["ROBOT-1", "ROBOT-2"] }, ["ROBOT-1", "ROBOT-2"]⟩

/-- The row of a failure of this robot, with everything else as it is. -/
def rowOf (sysid : String) : JsonValue.Fields := sampleFailureRow.set "sysid" (.str sysid)

/-- The row names the robot, and its status lets it be started. -/
def Names (row : JsonValue.Fields) (sysid : String) : Prop :=
  (parseFailureRecoveryTarget row).toOption.any fun target =>
    target.sysid = sysid && startable target.recoveryStatus

theorem Names.exists_target {sysid : String} (h : Names row sysid) :
    ∃ target, parseFailureRecoveryTarget row = .ok target ∧ target.sysid = sysid ∧
      startable target.recoveryStatus = true := by
  unfold Names at h
  cases hparse : parseFailureRecoveryTarget row with
  | error e =>
    rw [hparse] at h
    cases h
  | ok target =>
    rw [hparse] at h
    have hboth : target.sysid = sysid ∧ startable target.recoveryStatus = true := by
      simpa [Except.toOption] using h
    exact ⟨target, rfl, hboth⟩

theorem rowOf_names : Names (rowOf "ROBOT-1") "ROBOT-1" ∧ Names (rowOf "ROBOT-2") "ROBOT-2" := by
  unfold Names
  decide +kernel

/-- A task comes to execute a robot, and a second one waits for the robot's lock. -/
theorem one_recovery_sample : ∃ t P,
    Run (SteadyStep twoRobots) (Pool.initial sampleWorld Seen.nothing) t P ∧
      Executing P 0 "ROBOT-1" ∧
      (∃ k, P.task 1 = some (.await (.acquireRobotLock "ROBOT-1") k)) ∧
      ∀ i, Executing P i "ROBOT-1" → i = 0 := by
  obtain ⟨target, hparse, hrobot, hstatus⟩ := rowOf_names.1.exists_target
  have hexecutable : Executable twoRobots sampleWorld (rowOf "ROBOT-1") (rowOf "ROBOT-1") target
      target :=
    ⟨rfl, rfl, fun _ => rfl, hparse, by simp [hrobot, twoRobots], hstatus, hparse, hstatus,
      by simp [hrobot, twoRobots]⟩
  obtain ⟨t, P, k, hrun, hreached⟩ := execution_run (P := Pool.initial sampleWorld Seen.nothing)
    (i := 0) 1 sampleId sampleId hexecutable rfl (fun _ h => nomatch h) rfl
  have hagain : Executable twoRobots P.state (rowOf "ROBOT-1") (rowOf "ROBOT-1") target target := by
    rw [hreached.state]
    exact { hexecutable with }
  have hunstarted : P.task 1 = none := by
    rw [hreached.task, Function.update_of_ne one_ne_zero]
    rfl
  obtain ⟨t', P', k', hrun', hwaiting, -⟩ :=
    locking_run (i := 1) True 1 sampleId sampleId hagain hunstarted hreached.uncut
  have hsteady : Run (SteadyStep twoRobots) (Pool.initial sampleWorld Seen.nothing) (t ++ t') P' :=
    (hrun.mono fun _ _ _ hstep => ⟨hstep.1, hstep.2 rfl⟩).append
      (hrun'.mono fun _ _ _ hstep => ⟨hstep.1, hstep.2 trivial⟩)
  have hexecuting : Executing P' 0 "ROBOT-1" :=
    hwaiting.others zero_ne_one (hrobot ▸ hreached.executing)
  have hlock : P'.task 1 = some (.await (.acquireRobotLock target.sysid) k') := by
    rw [hwaiting.task, Function.update_self]
  have hidle : Idle sampleWorld := ⟨fun _ => rfl, fun _ => rfl⟩
  obtain ⟨hsingle, -⟩ := one_recovery hidle hsteady
  exact ⟨_, P', hsteady, hexecuting, hrobot ▸ ⟨k', hlock⟩,
    fun i hi => hsingle i 0 "ROBOT-1" hi hexecuting⟩

/-- A row that changes its robot between the two reads is executed under the lock of
the other robot, next to the task that executes its own. -/
theorem robot_changed : ¬ ∀ c w t P, Idle w →
    Run (CoordinatorStep c) (Pool.initial w Seen.nothing) t P →
      ∀ i j sysid, Executing P i sysid → Executing P j sysid → i = j := by
  intro hclaim
  obtain ⟨target, hparse, hrobot, hstatus⟩ := rowOf_names.1.exists_target
  obtain ⟨other, hparse', hrobot', hstatus'⟩ := rowOf_names.2.exists_target
  have hfirst : Executable twoRobots sampleWorld (rowOf "ROBOT-1") (rowOf "ROBOT-1") target
      target :=
    ⟨rfl, rfl, fun _ => rfl, hparse, by simp [hrobot, twoRobots], hstatus, hparse, hstatus,
      by simp [hrobot, twoRobots]⟩
  obtain ⟨t, P, k, hrun, hreached⟩ := execution_run (P := Pool.initial sampleWorld Seen.nothing)
    (i := 0) 1 sampleId sampleId hfirst rfl (fun _ h => nomatch h) rfl
  have hsecond : Executable twoRobots P.state (rowOf "ROBOT-2") (rowOf "ROBOT-1") other target := by
    rw [hreached.state]
    exact ⟨rfl, rfl, fun _ => rfl, hparse', by simp [hrobot', twoRobots], hstatus', hparse,
      hstatus, by simp [hrobot, twoRobots]⟩
  have hfree : P.state.robotLocks other.sysid = false := by
    rw [hreached.state]
    show Function.update sampleWorld.robotLocks target.sysid true other.sysid = false
    rw [hrobot, hrobot', Function.update_of_ne (by decide)]
    rfl
  have hunstarted : P.task 1 = none := by
    rw [hreached.task, Function.update_of_ne one_ne_zero]
    rfl
  obtain ⟨t', P', k', hrun', hreached'⟩ :=
    execution_run (i := 1) 1 sampleId sampleId hsecond hunstarted hreached.uncut hfree
  have hboth : Run (CoordinatorStep twoRobots) (Pool.initial sampleWorld Seen.nothing) (t ++ t')
      P' := (hrun.mono fun _ _ _ hstep => hstep.1).append (hrun'.mono fun _ _ _ hstep => hstep.1)
  have hexecuting : Executing P' 0 "ROBOT-1" :=
    hreached'.others zero_ne_one (hrobot ▸ hreached.executing)
  have hexecuting' : Executing P' 1 "ROBOT-1" := hrobot ▸ hreached'.executing
  exact zero_ne_one (hclaim twoRobots sampleWorld _ P' ⟨fun _ => rfl, fun _ => rfl⟩ hboth 0 1
    "ROBOT-1" hexecuting hexecuting')

end Samples

end FailureResolver.RobotExclusion
