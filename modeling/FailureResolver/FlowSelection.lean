import FailureResolver.FlowWait

/-!
The wait for a Flow with any predicate, one that may keep a state of its own. The
scan of the bounded history runs again at every wake-up, yet the predicate is
called on the stream of recorded frames in one pass, as far as the history still
holds them: each frame of the expected connection once and in order, up to the
first one it accepts.
-/

namespace FailureResolver.FlowSelection

open FlowOutcome JsonValue LiveFlow PyException RobotSession SessionHistory Transitions
open FlowWait (Evaluations recorded sessions)

section Wait

variable {σ : Type}

/-- A predicate with the state it keeps between its calls. -/
abbrev Predicate (σ : Type) := σ → Option FlowPointer → σ × Bool

/-- The cursor of a wait, the state of its predicate, and the frames it has passed to it. -/
structure Waiting (σ : Type) where
  cursor : ℕ
  state : σ
  passed : List FlowFrame

def connectionChanged : PyExc :=
  outcomeUnknown "robot connection changed while waiting for Flow"

def timedOut : PyExc := outcomeUnknown "timed out waiting for a fresh Flow outcome"

def Waiting.pass (predicate : Predicate σ) (waiting : Waiting σ) (frame : FlowFrame) :
    Waiting σ :=
  ⟨frame.revision, (predicate waiting.state frame.pointer).1, waiting.passed ++ [frame]⟩

variable (predicate : Predicate σ) (expected : ℕ)

/-- The frames past the cursor, up to an accepted one. -/
def examine : List FlowFrame → Waiting σ → Waiting σ × Option FlowFrame
  | [], waiting => (waiting, none)
  | frame :: rest, waiting =>
      if frame.revision ≤ waiting.cursor || frame.generation ≠ expected then
        examine rest waiting
      else if (predicate waiting.state frame.pointer).2 then
        (waiting.pass predicate frame, some frame)
      else examine rest (waiting.pass predicate frame)

def isCurrent (s : Session) : Bool := s.connected && s.generation = expected

def changedAndMatches (s : Session) (waiting : Waiting σ) :
    Except PyExc (Waiting σ × Option FlowFrame) :=
  if !s.connected || s.generation ≠ expected then .error connectionChanged
  else .ok (examine predicate expected s.flowHistory waiting)

/-- The evaluations of a wait; when there are no more of them it has timed out. -/
def evaluate : List Session → Waiting σ → Waiting σ × Except PyExc (Option FlowPointer)
  | [], waiting => (waiting, .error timedOut)
  | s :: rest, waiting =>
      match changedAndMatches predicate expected s waiting with
      | .error e => (waiting, .error e)
      | .ok (waiting, some selected) => (waiting, .ok selected.pointer)
      | .ok (waiting, none) => evaluate rest waiting

/-- A wait that is called in one state of the session and evaluated in others. -/
def waitForFlow (afterRevision : ℕ) (generation : Option ℕ) (called : Session)
    (evaluations : List Session) (state : σ) : Waiting σ × Except PyExc (Option FlowPointer) :=
  evaluate predicate (generation.getD called.generation) evaluations ⟨afterRevision, state, []⟩

end Wait

section Stream

variable {σ : Type}

/-- One pass over a stream: the frames up to the first accepted one. -/
structure Pass (σ : Type) where
  passed : List FlowFrame
  state : σ
  accepted : Option FlowFrame

def onePass (predicate : Predicate σ) : List FlowFrame → σ → Pass σ
  | [], state => ⟨[], state, none⟩
  | frame :: rest, state =>
      let (state, accepted) := predicate state frame.pointer
      if accepted then ⟨[frame], state, some frame⟩
      else
        let later := onePass predicate rest state
        { later with passed := frame :: later.passed }

def offered (expected floor : ℕ) (frame : FlowFrame) : Bool :=
  floor < frame.revision && frame.generation = expected

/-- How a wait ends: with the accepted frame, with the connection gone, or timed out. -/
def verdict (accepted : Option FlowFrame) (lost : Bool) : Except PyExc (Option FlowPointer) :=
  match accepted with
  | some frame => .ok frame.pointer
  | none => .error (if lost then connectionChanged else timedOut)

variable {predicate : Predicate σ} {expected : ℕ}

/-- What comes after an accepted frame is not passed on. -/
theorem onePass_accepted {first : List FlowFrame} {state : σ} {frame : FlowFrame}
    (h : (onePass predicate first state).accepted = some frame) (second : List FlowFrame) :
    onePass predicate (first ++ second) state = onePass predicate first state := by
  induction first generalizing state with
  | nil => cases h
  | cons head rest ih =>
    rw [onePass] at h
    rw [List.cons_append, onePass, onePass]
    by_cases haccepted : (predicate state head.pointer).2 = true
    · simp only [haccepted, if_true]
    · simp only [haccepted, Bool.false_eq_true, if_false] at h ⊢
      rw [ih h]

/-- A stream of which nothing is accepted goes on with the state it left. -/
theorem onePass_continues {first : List FlowFrame} {state : σ}
    (h : (onePass predicate first state).accepted = none) (second : List FlowFrame) :
    onePass predicate (first ++ second) state =
      { onePass predicate second (onePass predicate first state).state with
        passed := (onePass predicate first state).passed ++
          (onePass predicate second (onePass predicate first state).state).passed } := by
  induction first generalizing state with
  | nil => rfl
  | cons head rest ih =>
    rw [onePass] at h
    rw [List.cons_append, onePass, onePass]
    by_cases haccepted : (predicate state head.pointer).2 = true
    · simp [haccepted] at h
    · simp only [haccepted, Bool.false_eq_true, if_false] at h ⊢
      rw [ih h]
      rfl

theorem accepted_mem {stream : List FlowFrame} {state : σ} {frame : FlowFrame}
    (h : (onePass predicate stream state).accepted = some frame) : frame ∈ stream := by
  induction stream generalizing state with
  | nil => cases h
  | cons first rest ih =>
    rw [onePass] at h
    by_cases haccepted : (predicate state first.pointer).2 = true
    · simp only [haccepted, if_true, Option.some.injEq] at h
      rw [h]
      exact List.mem_cons_self ..
    · simp only [haccepted, Bool.false_eq_true, if_false] at h
      exact List.mem_cons_of_mem _ (ih h)

/-- The scan is one pass over the frames past the cursor. -/
theorem examine_eq {history : List FlowFrame} {waiting : Waiting σ}
    (hsorted : (history.map FlowFrame.revision).Pairwise (· < ·)) :
    (examine predicate expected history waiting).1.passed = waiting.passed ++
        (onePass predicate (history.filter (offered expected waiting.cursor))
          waiting.state).passed ∧
      (examine predicate expected history waiting).1.state =
        (onePass predicate (history.filter (offered expected waiting.cursor))
          waiting.state).state ∧
      (examine predicate expected history waiting).2 =
        (onePass predicate (history.filter (offered expected waiting.cursor))
          waiting.state).accepted := by
  induction history generalizing waiting with
  | nil => simp [examine, onePass]
  | cons frame rest ih =>
    rw [List.map_cons, List.pairwise_cons] at hsorted
    obtain ⟨hbelow, hrest⟩ := hsorted
    by_cases hoffered : offered expected waiting.cursor frame = true
    · have hpassed : (decide (frame.revision ≤ waiting.cursor) ||
          decide (frame.generation ≠ expected)) = false := by
        simp only [offered, Bool.and_eq_true, decide_eq_true_eq] at hoffered
        simp [hoffered.2, hoffered.1]
      rw [List.filter_cons_of_pos hoffered, examine, onePass]
      simp only [hpassed, Bool.false_eq_true, if_false]
      by_cases haccepted : (predicate waiting.state frame.pointer).2 = true
      · simp only [haccepted, if_true, and_true]
        exact ⟨rfl, rfl⟩
      · simp only [haccepted, Bool.false_eq_true, if_false]
        -- past this frame the moving cursor leaves out what the first one did
        have hfilter : rest.filter (offered expected (waiting.pass predicate frame).cursor) =
            rest.filter (offered expected waiting.cursor) := by
          apply List.filter_congr
          intro later hlater
          have hlt : frame.revision < later.revision :=
            hbelow later.revision (List.mem_map_of_mem hlater)
          simp only [offered, Bool.and_eq_true, decide_eq_true_eq] at hoffered
          have hboth : waiting.cursor < later.revision := by omega
          simp [offered, Waiting.pass, hlt, hboth]
        obtain ⟨hpass, hstate, hlast⟩ := @ih (waiting.pass predicate frame) hrest
        rw [hfilter] at hpass hstate hlast
        refine ⟨?_, hstate, hlast⟩
        rw [hpass]
        simp [Waiting.pass]
    · have hskipped : (decide (frame.revision ≤ waiting.cursor) ||
          decide (frame.generation ≠ expected)) = true := by
        simp only [offered, Bool.and_eq_true, decide_eq_true_eq, not_and] at hoffered
        simp only [Bool.or_eq_true, decide_eq_true_eq]
        by_cases hrevision : frame.revision ≤ waiting.cursor
        · exact .inl hrevision
        · exact .inr (hoffered (by omega))
      rw [List.filter_cons_of_neg hoffered, examine]
      simp only [hskipped, if_true]
      exact ih hrest

/-- A scan that accepts nothing leaves no frame of the connection past its cursor,
and moves the cursor to a frame it has passed on. -/
theorem examine_cursor {history : List FlowFrame} {waiting waiting' : Waiting σ}
    (h : examine predicate expected history waiting = (waiting', none)) :
    (∀ frame ∈ history, frame.generation = expected → frame.revision ≤ waiting'.cursor) ∧
      waiting.cursor ≤ waiting'.cursor ∧
      (waiting'.cursor = waiting.cursor ∨ ∃ frame ∈ history, frame.generation = expected ∧
        waiting'.cursor = frame.revision ∧ waiting.cursor < frame.revision) := by
  induction history generalizing waiting with
  | nil =>
    cases h
    exact ⟨by simp, Nat.le_refl _, .inl rfl⟩
  | cons frame rest ih =>
    rw [examine] at h
    split at h
    · next hskipped =>
      simp only [Bool.or_eq_true, decide_eq_true_eq] at hskipped
      obtain ⟨hseen, hle, hfrom⟩ := ih h
      refine ⟨fun other hother hgeneration => ?_, hle, ?_⟩
      · rcases List.mem_cons.mp hother with rfl | hother
        · rcases hskipped with hrevision | hdiffers
          · exact hrevision.trans hle
          · exact absurd hgeneration hdiffers
        · exact hseen other hother hgeneration
      · exact hfrom.imp_right fun ⟨other, hother, hrest⟩ =>
          ⟨other, List.mem_cons_of_mem _ hother, hrest⟩
    · next hpassed =>
      simp only [Bool.or_eq_true, decide_eq_true_eq, not_or] at hpassed
      have hnew : waiting.cursor < frame.revision := by omega
      split at h
      · cases h
      · obtain ⟨hseen, hle, hfrom⟩ := ih h
        have hle' : frame.revision ≤ waiting'.cursor := hle
        refine ⟨fun other hother hgeneration => ?_, by omega, .inr ?_⟩
        · rcases List.mem_cons.mp hother with rfl | hother
          · exact hle'
          · exact hseen other hother hgeneration
        · have hgeneration : frame.generation = expected := by simpa using hpassed.2
          rcases hfrom with hsame | ⟨other, hother, hother', hcursor, hlater⟩
          · exact ⟨frame, List.mem_cons_self .., hgeneration, hsame, hnew⟩
          · have hlater' : frame.revision < other.revision := hlater
            exact ⟨other, List.mem_cons_of_mem _ hother, hother', hcursor, by omega⟩

end Stream

section Evaluations

variable {σ : Type} {predicate : Predicate σ} {expected floor : ℕ} {sysid : String}
variable {t u : List Label} {s s₁ : System} {waiting : Waiting σ}

/-- The evaluations that find the expected connection, before the first that does not. -/
def onConnection (expected : ℕ) (evaluations : List (List Label × System)) :
    List (List Label × System) :=
  evaluations.takeWhile fun evaluation => isCurrent expected evaluation.2.session

/-- Between two evaluations: every frame of the connection in the history is behind
the cursor, and of the later ones the cursor hides those up to the floor. -/
structure CaughtUp (expected floor : ℕ) (s : Session) (waiting : Waiting σ) : Prop where
  seen : ∀ frame ∈ s.flowHistory, frame.generation = expected → frame.revision ≤ waiting.cursor
  ahead : ∀ n, s.flowRevision < n → (waiting.cursor < n ↔ floor < n)

theorem changedAndMatches_lost {s : Session} (h : isCurrent expected s = false) :
    changedAndMatches predicate expected s waiting = .error connectionChanged := by
  rw [changedAndMatches, if_pos]
  rw [isCurrent, Bool.and_eq_false_iff, decide_eq_false_iff_not] at h
  simp only [Bool.or_eq_true, Bool.not_eq_true', decide_eq_true_eq]
  exact h

theorem changedAndMatches_current {s : Session} (h : isCurrent expected s = true) :
    changedAndMatches predicate expected s waiting =
      .ok (examine predicate expected s.flowHistory waiting) := by
  rw [changedAndMatches, if_neg]
  rw [isCurrent, Bool.and_eq_true, decide_eq_true_eq] at h
  simp [h.1, h.2]

theorem history_sorted (hrun : Run (Step sysid) System.initial t s) :
    (s.session.flowHistory.map FlowFrame.revision).Pairwise (· < ·) :=
  (reachable_coherent hrun).revisions

/-- The history holds the newest revisions. -/
theorem history_recent (hrun : Run (Step sysid) System.initial t s) {frame : FlowFrame}
    (hframe : frame ∈ s.session.flowHistory) :
    s.session.flowRevision - flowHistoryLimit < frame.revision ∧
      frame.revision ≤ s.session.flowRevision := by
  have hfollows := run_follows hrun
  rw [hfollows.history, keepNewest] at hframe
  have hmem : frame.revision ∈ ((frames t).drop
      ((frames t).length - flowHistoryLimit)).map FlowFrame.revision :=
    List.mem_map_of_mem hframe
  rw [List.map_drop, hfollows.logged.numbered, List.drop_range', List.mem_range'_1] at hmem
  rw [hfollows.revision]
  omega

/-- A later history ends with the frames recorded since, after some of the earlier one. -/
theorem history_later (hrun : Run (Step sysid) System.initial t s)
    (hlater : Run (Step sysid) s u s₁) (hbound : (frames u).length ≤ flowHistoryLimit) :
    ∃ seen, s₁.session.flowHistory = seen ++ frames u ∧
      (∀ frame ∈ seen, frame ∈ s.session.flowHistory) ∧
      ∀ frame ∈ frames u, s.session.flowRevision < frame.revision := by
  have hafter := run_follows (hrun.append hlater)
  have hbefore := run_follows hrun
  obtain ⟨seen, hhistory, -, hrevisions, -⟩ := FlowWait.history_since hrun hlater hbound
  refine ⟨seen, hhistory, fun frame hframe => ?_, fun frame hframe => ?_⟩
  · have hkept := hafter.history
    rw [hhistory, frames_append, keepNewest, List.length_append,
      List.drop_append_of_le_length (by omega), List.append_left_inj] at hkept
    have hsplit : (frames t).length + (frames u).length - flowHistoryLimit =
        (frames t).length - flowHistoryLimit + ((frames t).length + (frames u).length -
          flowHistoryLimit - ((frames t).length - flowHistoryLimit)) := by omega
    rw [hsplit, ← List.drop_drop] at hkept
    rw [hbefore.history, keepNewest]
    exact List.mem_of_mem_drop (hkept ▸ hframe)
  · have hmem : frame.revision ∈ (frames u).map FlowFrame.revision := List.mem_map_of_mem hframe
    rw [hrevisions, List.mem_range'_1] at hmem
    omega

/-- The frames the next evaluation examines are the ones recorded since. -/
theorem CaughtUp.fresh (h : CaughtUp expected floor s.session waiting)
    (hrun : Run (Step sysid) System.initial t s) (hlater : Run (Step sysid) s u s₁)
    (hbound : (frames u).length ≤ flowHistoryLimit) :
    s₁.session.flowHistory.filter (offered expected waiting.cursor) =
      (frames u).filter (offered expected floor) := by
  obtain ⟨seen, hhistory, hold, hnew⟩ := history_later hrun hlater hbound
  have hbehind : seen.filter (offered expected waiting.cursor) = [] := by
    apply List.filter_eq_nil_iff.mpr
    intro frame hframe hoffered
    rw [offered, Bool.and_eq_true, decide_eq_true_eq, decide_eq_true_eq] at hoffered
    have hseen := h.seen frame (hold frame hframe) hoffered.2
    omega
  have hfresh : (frames u).filter (offered expected waiting.cursor) =
      (frames u).filter (offered expected floor) := by
    apply List.filter_congr
    intro frame hframe
    have hiff := h.ahead frame.revision (hnew frame hframe)
    simp [offered, hiff]
  rw [hhistory, List.filter_append, hbehind, hfresh, List.nil_append]

/-- An evaluation that accepts nothing leaves the wait caught up. -/
theorem caughtUp_examine {waiting' : Waiting σ} (hrun : Run (Step sysid) System.initial t s)
    (hcursor : ∀ n, s.session.flowRevision < n → (waiting.cursor < n ↔ floor < n))
    (hfloor : ∀ frame ∈ s.session.flowHistory, frame.generation = expected →
      waiting.cursor < frame.revision → floor < frame.revision)
    (h : examine predicate expected s.session.flowHistory waiting = (waiting', none)) :
    CaughtUp expected floor s.session waiting' := by
  obtain ⟨hexamined, hle, hfrom⟩ := examine_cursor h
  refine ⟨hexamined, fun n hn => ?_⟩
  rcases hfrom with hsame | ⟨frame, hframe, hgeneration, hmoved, hahead⟩
  · rw [hsame]
    exact hcursor n hn
  · have hrecent := (history_recent hrun hframe).2
    have habove := hfloor frame hframe hgeneration hahead
    omega

/-- The evaluations of a wait that has caught up pass on, in one pass, the frames
recorded from then on. -/
theorem evaluate_caughtUp {evaluations : List (List Label × System)}
    (hrun : Run (Step sysid) System.initial t s) (hevaluations : Evaluations sysid s evaluations)
    (hcaught : CaughtUp expected floor s.session waiting) :
    (evaluate predicate expected (sessions evaluations) waiting).1.passed = waiting.passed ++
        (onePass predicate ((recorded (onConnection expected evaluations)).filter
          (offered expected floor)) waiting.state).passed ∧
      (evaluate predicate expected (sessions evaluations) waiting).2 =
        verdict (onePass predicate ((recorded (onConnection expected evaluations)).filter
          (offered expected floor)) waiting.state).accepted
          (decide ((onConnection expected evaluations).length < evaluations.length)) := by
  induction hevaluations generalizing t waiting with
  | nil s =>
    simp [sessions, evaluate, onConnection, recorded, onePass, verdict]
  | @cons s s' u rest hlater hbound hrest ih =>
    rw [sessions, List.map_cons, evaluate]
    cases hcurrent : isCurrent expected s'.session with
    | false =>
      have hgone : onConnection expected ((u, s') :: rest) = [] := by
        simp [onConnection, hcurrent]
      rw [changedAndMatches_lost hcurrent, hgone]
      simp [recorded, onePass, verdict]
    | true =>
      have hkept : onConnection expected ((u, s') :: rest) =
          (u, s') :: onConnection expected rest := by
        simp [onConnection, hcurrent]
      have hstream : (recorded ((u, s') :: onConnection expected rest)).filter
          (offered expected floor) = (frames u).filter (offered expected floor) ++
            (recorded (onConnection expected rest)).filter (offered expected floor) := by
        rw [recorded, List.flatMap_cons, List.filter_append, recorded]
      have hafter := hrun.append hlater
      have hfresh := hcaught.fresh hrun hlater hbound
      obtain ⟨hpassed, hstate, haccepted⟩ :=
        @examine_eq σ predicate expected s'.session.flowHistory waiting (history_sorted hafter)
      rw [hfresh] at hpassed hstate haccepted
      rw [changedAndMatches_current hcurrent, hkept, hstream]
      cases hexamined : examine predicate expected s'.session.flowHistory waiting with
      | mk waiting' selected =>
        rw [hexamined] at hpassed hstate haccepted
        dsimp only at hpassed hstate haccepted ⊢
        cases selected with
        | some frame =>
          rw [onePass_accepted haccepted.symm, ← haccepted]
          exact ⟨hpassed, rfl⟩
        | none =>
          obtain ⟨seen, hhistory, hold, hnew⟩ := history_later hrun hlater hbound
          have hgrows : s.session.flowRevision ≤ s'.session.flowRevision := by
            rw [(run_follows hrun).revision, (run_follows hafter).revision, frames_append,
              List.length_append]
            omega
          have hcaught' : CaughtUp expected floor s'.session waiting' := by
            refine caughtUp_examine hafter (fun n hn => hcaught.ahead n (by omega))
              (fun frame hframe hgeneration hahead => ?_) hexamined
            rw [hhistory] at hframe
            rcases List.mem_append.mp hframe with hkept | hrecorded
            · have hbehind := hcaught.seen frame (hold frame hkept) hgeneration
              omega
            · exact (hcaught.ahead frame.revision (hnew frame hrecorded)).mp hahead
          obtain ⟨hpassed', hverdict⟩ := ih hafter hcaught'
          rw [onePass_continues haccepted.symm, ← hstate]
          refine ⟨?_, ?_⟩
          · rw [sessions] at hpassed'
            rw [hpassed', hpassed, List.append_assoc]
          · rw [sessions] at hverdict
            rw [hverdict]
            simp

end Evaluations

section Selection

variable {σ : Type} {predicate : Predicate σ} {sysid : String} {t u : List Label}
variable {s s₁ : System}

/-- The revisions the history has lost by the first evaluation, and those the wait
does not ask for. -/
def floorOf (afterRevision : ℕ) (first : Session) : ℕ :=
  max afterRevision (first.flowRevision - flowHistoryLimit)

/-- The frames recorded up to the last evaluation that finds the connection. -/
def recordedUntil (t : List Label) : List (List Label × System) → List FlowFrame
  | [] => []
  | evaluations => frames t ++ recorded evaluations

/-- The first evaluation examines the newest frames of the log. -/
theorem history_first (hrun : Run (Step sysid) System.initial t s) (expected afterRevision : ℕ) :
    s.session.flowHistory.filter (offered expected afterRevision) =
      (frames t).filter (offered expected (floorOf afterRevision s.session)) := by
  have hfollows := run_follows hrun
  have hnumbered := hfollows.logged.numbered
  have hsplit := List.take_append_drop ((frames t).length - flowHistoryLimit) (frames t)
  have hlost : ((frames t).take ((frames t).length - flowHistoryLimit)).filter
      (offered expected (floorOf afterRevision s.session)) = [] := by
    apply List.filter_eq_nil_iff.mpr
    intro frame hframe hoffered
    have hmem : frame.revision ∈ ((frames t).take
        ((frames t).length - flowHistoryLimit)).map FlowFrame.revision :=
      List.mem_map_of_mem hframe
    rw [List.map_take, hnumbered, List.take_range'_of_length_ge (Nat.sub_le ..),
      List.mem_range'_1] at hmem
    rw [offered, Bool.and_eq_true, decide_eq_true_eq, floorOf, hfollows.revision] at hoffered
    omega
  have hkept : ((frames t).drop ((frames t).length - flowHistoryLimit)).filter
      (offered expected afterRevision) =
      ((frames t).drop ((frames t).length - flowHistoryLimit)).filter
        (offered expected (floorOf afterRevision s.session)) := by
    apply List.filter_congr
    intro frame hframe
    have hrecent := history_recent hrun (by rw [hfollows.history, keepNewest]; exact hframe)
    have hiff : afterRevision < frame.revision ↔
        floorOf afterRevision s.session < frame.revision := by
      rw [floorOf]
      omega
    simp [offered, hiff]
  have hwhole := congrArg (List.filter (offered expected (floorOf afterRevision s.session))) hsplit
  rw [List.filter_append, hlost, List.nil_append] at hwhole
  rw [hfollows.history, keepNewest, hkept, hwhole]

/-- The recorded frames of the expected connection that a wait can still examine:
past its revision, and in the history at its first evaluation or recorded later. -/
def stream (t : List Label) (afterRevision expected : ℕ) (first : Session)
    (evaluations : List (List Label × System)) : List FlowFrame :=
  (recordedUntil t (onConnection expected evaluations)).filter
    (offered expected (floorOf afterRevision first))

/-- The frames up to some of the evaluations, in a run of the session. -/
theorem evaluations_sorted {evaluations : List (List Label × System)}
    (hrun : Run (Step sysid) System.initial t s) (hevaluations : Evaluations sysid s evaluations) :
    ((frames t ++ recorded evaluations).map FlowFrame.revision).Pairwise (· < ·) := by
  induction hevaluations generalizing t with
  | nil s =>
    rw [recorded, List.flatMap_nil, List.append_nil, (run_follows hrun).logged.numbered]
    exact List.pairwise_lt_range'
  | @cons s s' u rest hlater _ _ ih =>
    have hsorted := ih (hrun.append hlater)
    rw [frames_append, List.append_assoc] at hsorted
    exact hsorted

variable {rest : List (List Label × System)}

theorem stream_sorted (afterRevision expected : ℕ) (hrun : Run (Step sysid) System.initial t s)
    (hfirst : Run (Step sysid) s u s₁) (hrest : Evaluations sysid s₁ rest) :
    ((stream t afterRevision expected s₁.session ((u, s₁) :: rest)).map
      FlowFrame.revision).Pairwise (· < ·) := by
  have hsorted := evaluations_sorted (hrun.append hfirst) hrest
  refine hsorted.sublist (List.Sublist.map _ (List.filter_sublist.trans ?_))
  cases hcurrent : isCurrent expected s₁.session with
  | false =>
    have hgone : onConnection expected ((u, s₁) :: rest) = [] := by
      simp [onConnection, hcurrent]
    rw [hgone]
    exact List.nil_sublist _
  | true =>
    have hkept : onConnection expected ((u, s₁) :: rest) =
        (u, s₁) :: onConnection expected rest := by
      simp [onConnection, hcurrent]
    have hlater : (recorded (onConnection expected rest)).Sublist (recorded rest) :=
      List.Sublist.flatMap (List.takeWhile_sublist _) _
    rw [hkept, frames_append, List.append_assoc]
    exact (hlater.append_left (frames u)).append_left (frames t)

/-- Where the first evaluation finds the connection, the wait is one pass over its stream. -/
theorem evaluate_first {state : σ} (afterRevision expected : ℕ)
    (hrun : Run (Step sysid) System.initial t s) (hfirst : Run (Step sysid) s u s₁)
    (hrest : Evaluations sysid s₁ rest) (hcurrent : isCurrent expected s₁.session = true) :
    (evaluate predicate expected (sessions ((u, s₁) :: rest))
        ⟨afterRevision, state, []⟩).1.passed =
        (onePass predicate (stream t afterRevision expected s₁.session ((u, s₁) :: rest))
          state).passed ∧
      (evaluate predicate expected (sessions ((u, s₁) :: rest)) ⟨afterRevision, state, []⟩).2 =
        verdict (onePass predicate
          (stream t afterRevision expected s₁.session ((u, s₁) :: rest)) state).accepted
          (decide ((onConnection expected rest).length < rest.length)) := by
  have hafter := hrun.append hfirst
  have hfollows := run_follows hafter
  have hstream : stream t afterRevision expected s₁.session ((u, s₁) :: rest) =
      s₁.session.flowHistory.filter (offered expected afterRevision) ++
        (recorded (onConnection expected rest)).filter
          (offered expected (floorOf afterRevision s₁.session)) := by
    have hkept : onConnection expected ((u, s₁) :: rest) =
        (u, s₁) :: onConnection expected rest := by
      simp [onConnection, hcurrent]
    rw [history_first hafter, frames_append, ← List.filter_append, stream, hkept,
      recordedUntil, recorded, List.flatMap_cons, ← List.append_assoc, recorded]
    simp
  obtain ⟨hpassed, hstate, haccepted⟩ := @examine_eq σ predicate expected
    s₁.session.flowHistory ⟨afterRevision, state, []⟩ (history_sorted hafter)
  rw [hstream, sessions, List.map_cons, evaluate, changedAndMatches_current hcurrent]
  cases hexamined : examine predicate expected s₁.session.flowHistory
      ⟨afterRevision, state, []⟩ with
  | mk waiting selected =>
    rw [hexamined] at hpassed hstate haccepted
    dsimp only at hpassed hstate haccepted ⊢
    rw [List.nil_append] at hpassed
    cases selected with
    | some frame =>
      rw [onePass_accepted haccepted.symm, ← haccepted]
      exact ⟨hpassed, rfl⟩
    | none =>
      have hcaught : CaughtUp expected (floorOf afterRevision s₁.session) s₁.session
          waiting := by
        refine caughtUp_examine hafter (fun n hn => ?_) (fun frame hframe _ hahead => ?_) hexamined
        · dsimp only
          rw [floorOf]
          omega
        · have hrecent := (history_recent hafter hframe).1
          dsimp only at hahead
          rw [floorOf]
          omega
      obtain ⟨hlater, hverdict⟩ := @evaluate_caughtUp σ predicate expected
        (floorOf afterRevision s₁.session) sysid (t ++ u) s₁ waiting rest hafter hrest hcaught
      rw [onePass_continues haccepted.symm, ← hstate]
      refine ⟨?_, hverdict⟩
      rw [sessions] at hlater
      rw [hlater, hpassed]

/-- The predicate of a wait is called with the frames of its stream, each once and in
order, up to the first one it accepts, which is returned; a wait that finds its
connection lost or changed before it has accepted one raises. -/
theorem wait_selects (generation : Option ℕ) (afterRevision : ℕ) (state : σ)
    (hrun : Run (Step sysid) System.initial t s) (hfirst : Run (Step sysid) s u s₁)
    (hrest : Evaluations sysid s₁ rest) :
    let expected := generation.getD s.session.generation
    let evaluations := (u, s₁) :: rest
    let offers := stream t afterRevision expected s₁.session evaluations
    let result := waitForFlow predicate afterRevision generation s.session
      (sessions evaluations) state
    result.1.passed = (onePass predicate offers state).passed ∧
      result.2 = verdict (onePass predicate offers state).accepted
        (decide ((onConnection expected evaluations).length < evaluations.length)) ∧
      (offers.map FlowFrame.revision).Pairwise (· < ·) ∧
      ∀ pointer, result.2 = .ok pointer →
        ∃ frame ∈ offers, frame.generation = expected ∧ frame.pointer = pointer := by
  intro expected evaluations offers result
  have hresult : result.1.passed = (onePass predicate offers state).passed ∧
      result.2 = verdict (onePass predicate offers state).accepted
        (decide ((onConnection expected evaluations).length < evaluations.length)) := by
    cases hcurrent : isCurrent expected s₁.session with
    | false =>
      have hgone : onConnection expected evaluations = [] := by
        simp [onConnection, evaluations, hcurrent]
      have hnone : offers = [] := by
        show stream t afterRevision expected s₁.session evaluations = []
        rw [stream, hgone]
        rfl
      have hraised : result = (⟨afterRevision, state, []⟩, .error connectionChanged) := by
        show evaluate predicate expected (s₁.session :: sessions rest) _ = _
        rw [evaluate, changedAndMatches_lost hcurrent]
      rw [hraised, hnone, hgone]
      exact ⟨rfl, rfl⟩
    | true =>
      have hkept : onConnection expected evaluations = (u, s₁) :: onConnection expected rest := by
        simp [onConnection, evaluations, hcurrent]
      rw [hkept]
      simp only [evaluations, List.length_cons, Nat.add_lt_add_iff_right]
      exact evaluate_first afterRevision expected hrun hfirst hrest hcurrent
  refine ⟨hresult.1, hresult.2, stream_sorted afterRevision expected hrun hfirst hrest,
    fun pointer hpointer => ?_⟩
  rw [hresult.2] at hpointer
  cases haccepted : (onePass predicate offers state).accepted with
  | none =>
    rw [haccepted] at hpointer
    cases hpointer
  | some frame =>
    rw [haccepted] at hpointer
    have hmem : frame ∈ offers := accepted_mem haccepted
    have hoffered := (List.mem_filter.mp hmem).2
    rw [offered, Bool.and_eq_true, decide_eq_true_eq, decide_eq_true_eq] at hoffered
    exact ⟨frame, hmem, hoffered.2, Except.ok.inj hpointer⟩

/-- The waits of a recovery are waits with its two predicates. -/
theorem scanFrames_eq_examine (watch : FlowWatch) (expected : ℕ) (history passed : List FlowFrame)
    (waiter : FlowWait.Waiter) :
    FlowWait.scanFrames watch expected history waiter =
      (⟨(examine watch.step expected history ⟨waiter.cursor, waiter.started, passed⟩).1.cursor,
          (examine watch.step expected history ⟨waiter.cursor, waiter.started, passed⟩).1.state⟩,
        (examine watch.step expected history ⟨waiter.cursor, waiter.started, passed⟩).2.map
          FlowFrame.pointer) := by
  induction history generalizing waiter passed with
  | nil => rfl
  | cons frame rest ih =>
    rw [FlowWait.scanFrames, examine]
    dsimp only
    by_cases hskipped : (decide (frame.revision ≤ waiter.cursor) ||
        decide (frame.generation ≠ expected)) = true
    · rw [if_pos hskipped, if_pos hskipped]
      exact ih passed waiter
    · rw [if_neg hskipped, if_neg hskipped]
      by_cases hdecisive : (watch.step waiter.started frame.pointer).2 = true
      · rw [if_pos hdecisive, if_pos hdecisive]
        rfl
      · rw [if_neg hdecisive, if_neg hdecisive]
        exact ih (passed ++ [frame]) ⟨frame.revision, (watch.step waiter.started frame.pointer).1⟩

end Selection

section Samples

/-- A connection that has recorded a number of frames without a Flow. -/
theorem recording_run (n : ℕ) : ∃ t s, Run (Step "ROBOT") System.initial t s ∧
    s.loop = .receiving 7 ∧ isCurrent 1 s.session = true ∧ (frames t).length = n ∧
      (frames t).filter (offered 1 0) = frames t := by
  have hflow : sampleMessage.payload.map
      (fun payload => (payload.has "flow", isMapping (payload.get "response"),
        isMapping (payload.get "commands"))) = some (true, false, false) := by decide +kernel
  obtain ⟨payload, hpayload, hshape⟩ := Option.map_eq_some_iff.mp hflow
  simp only [Prod.mk.injEq] at hshape
  obtain ⟨hhas, hresponse, hcommands⟩ := hshape
  induction n with
  | zero =>
    have hstart : Run (Step "ROBOT") System.initial [] System.initial := .start
    exact ⟨_, _, hstart.next (.inl (.connect 7 rfl)), rfl, rfl, rfl, rfl⟩
  | succ n ih =>
    obtain ⟨t, s, hrun, hloop, hcurrent, hlength, hfilter⟩ := ih
    have hreceive := hrun.next (.inl (.receive hloop hpayload))
    have hdue := hreceive.next (.inl (.commands rfl))
    have hrecord := hdue.next (.inl (.flow rfl))
    rw [handleResponse_skip hresponse, handleCommands_skip hcommands] at hrecord
    obtain ⟨frame, hframe⟩ : ∃ frame, flowFrame payload s.session = some frame := by
      rw [flowFrame, if_pos hhas]
      exact ⟨_, rfl⟩
    obtain ⟨hrevision, hgeneration, -⟩ := flowFrame_eq hframe
    rw [isCurrent, Bool.and_eq_true, decide_eq_true_eq] at hcurrent
    have hlog : frames (t ++ [.receive s.session.generation sampleMessage] ++ [.commands] ++
        [.flow (some frame)]) = frames t ++ [frame] := by
      simp only [frames_append]
      simp [frames]
    have hoffered : offered 1 0 frame = true := by
      rw [offered, hrevision, hgeneration, hcurrent.2]
      simp
    rw [hframe] at hrecord
    refine ⟨_, _, hrecord, rfl, ?_, ?_, ?_⟩
    · simp [isCurrent, recordFrame, hcurrent]
    · rw [hlog, List.length_append, hlength, List.length_singleton]
    · rw [hlog, List.filter_append, hfilter, List.filter_cons_of_pos hoffered]
      rfl

/-- A wait that is first evaluated when the history has lost a frame does not pass it on. -/
theorem lost_unselected : ∃ t s, Run (Step "ROBOT") System.initial t s ∧
    isCurrent 1 s.session = true ∧
      (waitForFlow (fun _ _ => ((), false)) 0 none s.session [s.session] ()).1.passed ≠
        (onePass (fun _ _ => ((), false)) ((frames t).filter (offered 1 0)) ()).passed := by
  obtain ⟨t, s, hrun, -, hcurrent, hlength, hfilter⟩ := recording_run 513
  refine ⟨t, s, hrun, hcurrent, ?_⟩
  have hall : ∀ log : List FlowFrame,
      (onePass (fun (_ : Unit) _ => ((), false)) log ()).passed = log := by
    intro log
    induction log with
    | nil => rfl
    | cons frame rest ih =>
      rw [onePass]
      simp only [Bool.false_eq_true, if_false, ih]
  have hgeneration : s.session.generation = 1 := by
    rw [isCurrent, Bool.and_eq_true, decide_eq_true_eq] at hcurrent
    exact hcurrent.2
  have hpassed := (@examine_eq Unit (fun _ _ => ((), false)) 1 s.session.flowHistory
    ⟨0, (), []⟩ (history_sorted hrun)).1
  rw [hall] at hpassed
  have hscan : (waitForFlow (fun _ _ => ((), false)) 0 none s.session [s.session] ()).1.passed =
      s.session.flowHistory.filter (offered 1 0) := by
    rw [waitForFlow, Option.getD_none, hgeneration, evaluate, changedAndMatches_current hcurrent]
    cases hexamined : examine (fun (_ : Unit) _ => ((), false)) 1 s.session.flowHistory
        ⟨0, (), []⟩ with
    | mk waiting selected =>
      rw [hexamined] at hpassed
      cases selected <;> exact hpassed
  rw [hscan, hall, hfilter]
  intro hsame
  have hbound : (s.session.flowHistory.filter (offered 1 0)).length ≤ flowHistoryLimit :=
    (List.length_filter_le ..).trans (reachable_coherent hrun).bounded
  rw [hsame, hlength, flowHistoryLimit] at hbound
  omega

/-- A wait that accepts the one recorded frame returns its pointer. -/
theorem wait_selects_sample : ∃ t s pointer, Run (Step "ROBOT") System.initial t s ∧
    (frames t).length = 1 ∧
      (waitForFlow (fun _ _ => ((), true)) 0 none s.session [s.session] ()).2 = .ok pointer := by
  obtain ⟨t, s, hrun, -, hcurrent, hlength, hfilter⟩ := recording_run 1
  have hgeneration : s.session.generation = 1 := by
    rw [isCurrent, Bool.and_eq_true, decide_eq_true_eq] at hcurrent
    exact hcurrent.2
  have hselects := (@wait_selects Unit (fun _ _ => ((), true)) "ROBOT" t [] s s [] none 0 ()
    hrun .start (.nil s)).2.1
  obtain ⟨frame, hframe⟩ := List.length_eq_one_iff.mp hlength
  have hoffers : stream t 0 1 s.session [([], s)] = [frame] := by
    have hkept : onConnection 1 [(([] : List Label), s)] = [([], s)] := by
      simp [onConnection, hcurrent]
    have hfloor : floorOf 0 s.session = 0 := by
      rw [floorOf, (run_follows hrun).revision, hlength]
      rfl
    rw [stream, hkept, hfloor, recordedUntil, List.filter_append, hfilter, hframe]
    · rfl
    · simp
  refine ⟨t, s, frame.pointer, hrun, hlength, ?_⟩
  rw [Option.getD_none, hgeneration, hoffers] at hselects
  exact hselects

end Samples

end FailureResolver.FlowSelection
