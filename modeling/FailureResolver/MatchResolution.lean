import FailureResolver.FailureMatcher

/-!
What becomes of a claimed match. Under the handler every way out writes a final status,
or leaves the row to the handler, which does. The lookup of the robot stands before the
handler, so the row is left matching exactly where that lookup raises.
-/

namespace FailureResolver.MatchResolution

open FailureMatcher JsonValue LearningEligibility MemoryAgent MemoryBrowsing
open LearnResolution (StoreName)
open MemoryMarkdown MemorySnapshot Program PyException

section Row

def finalStatuses : List String := ["no_solution", "solution_found", "failed"]

variable (failureId : String)

def Resolved (w : World) : Prop := ∃ status ∈ finalStatuses, w failureId = some status

def InMatching (w : World) : Prop := w failureId = some "matching"

/-- The claim and the updates of the row take effect when they are answered, and an update
is answered unless its task is cancelled. Nothing else changes the row. -/
def matcherDatabase : Environment matching := fun w op r w' =>
  match op, r with
  | .claimFailure id, .ok claimed => id = failureId → claimed = true → InMatching failureId w'
  | .claimFailure _, .error _ => True
  | .finishFailure id status _ _, .ok _ => id = failureId →
      w' failureId = if w failureId = some "matching" then some status else w failureId
  | .finishFailure .., .error e => e.cls = .cancelled
  | _, _ => w' failureId = w failureId

def isClaimed (e : Event matching) : Bool :=
  match e with
  | ⟨_, .claimFailure _, some (.ok true, _)⟩ => true
  | _ => false

def lookupRaised (e : Event matching) : Bool :=
  match e.op with
  | .fetchRobot _ => e.raised
  | _ => false

/-- The call has returned, or raised an error, in this state. -/
def Ended {α : Type} (o : Outcome matching α) (w : World) : Prop :=
  (∃ a, o = .returned a w) ∨ ∃ e, o = .raised e w ∧ e.cls ≠ .cancelled

end Row

section Quiet

/-- Operations that leave the row as it is and do not look up a robot. -/
def isQuiet : Op → Bool
  | .claimFailure _ => false
  | .finishFailure .. => false
  | .fetchRobot _ => false
  | _ => true

def Quiet (op : Op) : Prop := isQuiet op = true

theorem quiet_bind {α : Type} {op : Op} {f : op.Reply → MemoryBrowsing.Matching α}
    (hop : isQuiet op = true) (hf : ∀ a, (f a).Awaits Quiet) :
    ((Prog.call (σ := matching) op).bind f).Awaits Quiet :=
  Prog.Awaits.bind (Prog.Awaits.call hop) hf

theorem awaits_browseTurn (snapshot : Snapshot) (corpus : RetrievalIndex.MemoryRetrievalIndex)
    (failure : Fields) (b : Browse) (step : MemoryStep) :
    (browseTurn snapshot corpus failure b step).Awaits Quiet := by
  cases step with
  | search action =>
    rw [browseTurn]
    split
    · trivial
    · apply quiet_bind rfl
      intro a
      exact Prog.Awaits.bind (Prog.Awaits.settle _) fun hits => trivial
  | read action => exact Prog.Awaits.settle _
  | finish choice => trivial
  | unsupported => trivial

theorem awaits_browse (snapshot : Snapshot) (corpus : RetrievalIndex.MemoryRetrievalIndex)
    (failure : Fields) (turns : ℕ) (b : Browse) :
    (browse snapshot corpus failure turns b).Awaits Quiet := by
  induction turns generalizing b with
  | zero => trivial
  | succ turns ih =>
    rw [browse]
    apply quiet_bind rfl
    intro step
    apply Prog.Awaits.bind (awaits_browseTurn snapshot corpus failure b step)
    intro turn
    cases turn with
    | done outcome => trivial
    | go b' => exact ih b'

theorem awaits_retrieveMemoryChoice (snapshot : Snapshot) (failure : Fields) :
    (retrieveMemoryChoice snapshot failure).Awaits Quiet := by
  unfold retrieveMemoryChoice
  apply quiet_bind rfl
  intro a
  apply Prog.Awaits.bind (Prog.Awaits.settle _)
  intro corpus
  apply Prog.Awaits.bind (Prog.Awaits.settle _)
  intro autoRead
  split
  · unfold chooseAmongAll
    apply Prog.Awaits.bind (Prog.Awaits.settle _)
    intro reads
    apply quiet_bind rfl
    intro choice
    exact Prog.Awaits.bind (Prog.Awaits.settle _) fun documents => trivial
  · exact awaits_browse snapshot corpus failure _ _

theorem awaits_withoutRevoked (snapshot : Snapshot) :
    (withoutRevoked snapshot).Awaits Quiet := by
  unfold withoutRevoked
  split
  · trivial
  · apply quiet_bind rfl
    intro rows
    exact Prog.Awaits.bind (Prog.Awaits.settle _) fun revoked => trivial

end Quiet

section Claimed

variable {failureId : String} {w : World} {α β : Type}

theorem quiet_keeps {w w' : World} {op : Op} {r : Except PyExc op.Reply}
    (hop : Quiet op) (h : InMatching failureId w)
    (hstep : matcherDatabase failureId w op r w') : InMatching failureId w' := by
  have hsame : w' failureId = w failureId := by
    cases op with
    | claimFailure id => cases hop
    | finishFailure id status message suggestion => cases hop
    | _ => cases r <;> exact hstep
  exact hsame.trans h

/-- A part of a claimed match: it looks up no robot, it returns with the row resolved, and
an error leaves the row matching. -/
structure Concludes (failureId : String) (t : List (Event matching)) (o : Outcome matching α) :
    Prop where
  quiet : ∀ e ∈ t, lookupRaised e = false
  returned : ∀ a w, o = .returned a w → Resolved failureId w
  raised : ∀ e w, o = .raised e w → e.cls = .cancelled ∨ InMatching failureId w

theorem Concludes.after {t u : List (Event matching)} {o : Outcome matching α}
    (h : Concludes failureId u o) (ht : ∀ e ∈ t, lookupRaised e = false) :
    Concludes failureId (t ++ u) o := by
  refine ⟨fun e he => ?_, h.returned, h.raised⟩
  rcases List.mem_append.mp he with hbefore | hafter
  · exact ht e hbefore
  · exact h.quiet e hafter

theorem quiet_lookup {e : Event matching} (h : Quiet e.op) : lookupRaised e = false := by
  unfold lookupRaised
  split
  · next hop =>
    unfold Quiet at h
    rw [hop] at h
    cases h
  · rfl

/-- Awaits that leave the row come first. -/
theorem concludes_bind {p : MemoryBrowsing.Matching α} {f : α → MemoryBrowsing.Matching β}
    (hp : p.Awaits Quiet) (hw : InMatching failureId w)
    (hf : ∀ a w', InMatching failureId w' →
      Ensures (matcherDatabase failureId) (f a) w' (Concludes failureId)) :
    Ensures (matcherDatabase failureId) (p.bind f) w (Concludes failureId) := by
  rw [ensures_bind]
  refine (hp.keeps hw fun w op r w' hop h hstep => quiet_keeps hop h hstep).mono fun t o ho => ?_
  obtain ⟨hquiet, hends⟩ := ho
  have ht : ∀ e ∈ t, lookupRaised e = false := fun e he => quiet_lookup (hquiet e he)
  cases o with
  | returned a w' => exact (hf a w' hends).mono fun u o' hu => hu.after ht
  | raised e w' =>
    refine ⟨ht, fun _ _ ho => (by cases ho), fun e' w₁ ho => ?_⟩
    cases ho
    exact .inr hends
  | suspended => exact ⟨ht, fun _ _ ho => (by cases ho), fun _ _ ho => by cases ho⟩
  | outOfFuel => exact ⟨ht, fun _ _ ho => (by cases ho), fun _ _ ho => by cases ho⟩

theorem concludes_raise {e : PyExc} (hw : InMatching failureId w) :
    Ensures (matcherDatabase failureId) (.raise e : MemoryBrowsing.Matching α) w
      (Concludes failureId) := by
  rw [ensures_raise]
  refine ⟨fun _ he => (by cases he), fun _ _ ho => (by cases ho), fun e' w' ho => ?_⟩
  cases ho
  exact .inr hw

/-- The update finds the row matching. -/
theorem finish_writes {w w' : World} {status message : String} {suggestion : Option Fields}
    {a : Unit} (hw : InMatching failureId w) (hstep : matcherDatabase failureId w
      (.finishFailure failureId status message suggestion) (.ok a) w') :
    w' failureId = some status := by
  have hwritten : w' failureId = if w failureId = some "matching" then some status
    else w failureId := hstep rfl
  rw [hwritten]
  exact if_pos hw

/-- An update that is answered resolves the row, and nothing is raised after it. -/
theorem concludes_finish {status message : String} {suggestion : Option Fields} {a : α}
    (hw : InMatching failureId w) (hstatus : status ∈ finalStatuses) :
    Ensures (matcherDatabase failureId) ((finishFailure failureId status message suggestion).bind
      fun _ => (.ret a : MemoryBrowsing.Matching α)) w (Concludes failureId) := by
  unfold finishFailure
  rw [ensures_bind]
  refine ensures_call.mpr ⟨?_, ?_, ?_⟩
  · exact ⟨by simp [lookupRaised], fun _ _ ho => (by cases ho), fun _ _ ho => by cases ho⟩
  · intro _ w' hstep
    refine ensures_ret.mpr ⟨by simp [lookupRaised, Event.raised], fun a' w₁ ho => ?_,
      fun _ _ ho => by cases ho⟩
    cases ho
    exact ⟨status, hstatus, finish_writes hw hstep⟩
  · intro e w' hstep
    refine ⟨by simp [lookupRaised], fun _ _ ho => (by cases ho), fun e' w₁ ho => ?_⟩
    cases ho
    exact .inl hstep

end Claimed

section Match

variable {failureId : String} {w : World}

theorem suggestMemory_concludes (row : Fields) (choice : MemoryChoice) (selected : MemoryDocument)
    (hw : InMatching failureId w) : Ensures (matcherDatabase failureId)
      (suggestMemory failureId row choice selected) w (Concludes failureId) := by
  unfold suggestMemory
  split
  · split
    · exact concludes_finish hw (by decide)
    · exact concludes_raise hw
  · exact concludes_finish hw (by decide)

theorem concludeMatch_concludes (row : Fields) (retrieval : RetrievalOutcome)
    (hw : InMatching failureId w) : Ensures (matcherDatabase failureId)
      (concludeMatch failureId row retrieval) w (Concludes failureId) := by
  unfold concludeMatch
  split
  · exact concludes_finish hw (by decide)
  · split
    · exact concludes_raise hw
    · split
      · exact concludes_raise hw
      · split
        · exact concludes_raise hw
        · exact suggestMemory_concludes row _ _ hw

theorem matchFailure_concludes (row : Fields) (store : StoreName) (hw : InMatching failureId w) :
    Ensures (matcherDatabase failureId) (matchFailure failureId row store) w
      (Concludes failureId) := by
  unfold matchFailure
  have hread : (Prog.call (σ := matching) (.rebuildIndex store)).Awaits Quiet :=
    Prog.Awaits.call rfl
  apply concludes_bind hread hw
  intro index w hw
  apply concludes_bind (awaits_withoutRevoked _) hw
  intro safeDocuments w hw
  split
  · exact concludes_finish hw (by decide)
  · apply concludes_bind (awaits_retrieveMemoryChoice _ _) hw
    intro retrieval w hw
    exact concludeMatch_concludes row retrieval hw

/-- With its handler, a match that ends has resolved the row. -/
def Settles (failureId : String) {α : Type} (t : List (Event matching)) (o : Outcome matching α) :
    Prop :=
  (∀ e ∈ t, lookupRaised e = false) ∧ ∀ w, Ended o w → Resolved failureId w

theorem matchHandler_settles (e : PyExc) (hw : e.cls = .cancelled ∨ InMatching failureId w) :
    Ensures (matcherDatabase failureId) (matchHandler failureId e) w (Settles failureId) := by
  unfold matchHandler
  split
  · next hcancelled =>
    rw [ensures_raise]
    refine ⟨fun _ he => (by cases he), fun w' hended => ?_⟩
    rcases hended with ⟨a, ho⟩ | ⟨e', ho, hcls⟩
    · cases ho
    · cases ho
      exact absurd hcancelled hcls
  · next hcancelled =>
    have hmatching := hw.resolve_left hcancelled
    unfold finishFailure
    rw [Prog.bind_eq, ensures_bind]
    refine ensures_call.mpr ⟨?_, ?_, ?_⟩
    · refine ⟨by simp [lookupRaised], fun w' hended => ?_⟩
      rcases hended with ⟨a, ho⟩ | ⟨e', ho, -⟩ <;> cases ho
    · intro _ w' hstep
      refine ensures_raise.mpr ⟨by simp [lookupRaised], fun w₁ hended => ?_⟩
      rcases hended with ⟨a, ho⟩ | ⟨e', ho, -⟩
      · cases ho
      · cases ho
        exact ⟨"failed", by decide, finish_writes hmatching hstep⟩
    · intro e' w' hstep
      refine ⟨by simp [lookupRaised], fun w₁ hended => ?_⟩
      rcases hended with ⟨a, ho⟩ | ⟨e'', ho, hcls⟩
      · cases ho
      · cases ho
        exact absurd hstep hcls

theorem guarded_settles (row : Fields) (store : StoreName) (hw : InMatching failureId w) :
    Ensures (matcherDatabase failureId)
      ((matchFailure failureId row store).tryCatch (matchHandler failureId)) w
      (Settles failureId) := by
  rw [ensures_tryCatch]
  refine (matchFailure_concludes row store hw).mono fun t o ho => ?_
  cases o with
  | returned a w' =>
    refine ⟨ho.quiet, fun w₁ hended => ?_⟩
    rcases hended with ⟨a', heq⟩ | ⟨e, heq, -⟩
    · cases heq
      exact ho.returned a w' rfl
    · cases heq
  | raised e w' =>
    refine (matchHandler_settles e (ho.raised e w' rfl)).mono fun u o' hu => ?_
    refine ⟨fun x hx => ?_, hu.2⟩
    rcases List.mem_append.mp hx with hbefore | hafter
    · exact ho.quiet x hbefore
    · exact hu.1 x hafter
  | suspended =>
    refine ⟨ho.quiet, fun w₁ hended => ?_⟩
    rcases hended with ⟨a', heq⟩ | ⟨e, heq, -⟩ <;> cases heq
  | outOfFuel =>
    refine ⟨ho.quiet, fun w₁ hended => ?_⟩
    rcases hended with ⟨a', heq⟩ | ⟨e, heq, -⟩ <;> cases heq

end Match

section Process

variable {failureId : String} {w : World}

/-- The row is resolved exactly where no lookup of a robot raised. -/
def ResolvedUnlessLookup (failureId : String) {α : Type} (t : List (Event matching))
    (o : Outcome matching α) : Prop :=
  ∀ w, Ended o w → (Resolved failureId w ↔ ∀ e ∈ t, lookupRaised e = false)

theorem Settles.resolved {α : Type} {t : List (Event matching)} {o : Outcome matching α}
    (h : Settles failureId t o) : ResolvedUnlessLookup failureId t o :=
  fun w hended => iff_of_true (h.2 w hended) h.1

theorem not_resolved (h : InMatching failureId w) : ¬ Resolved failureId w := by
  intro hresolved
  obtain ⟨status, hstatus, hrow⟩ := hresolved
  rw [h, Option.some.injEq] at hrow
  subst hrow
  exact absurd hstatus (by decide)

theorem matchClaimed_resolves (devMemoryStore : Bool) (row : Fields)
    (hw : InMatching failureId w) : Ensures (matcherDatabase failureId)
      (matchClaimed devMemoryStore failureId row) w (ResolvedUnlessLookup failureId) := by
  have hguarded : ∀ store w', InMatching failureId w' → Ensures (matcherDatabase failureId)
      ((matchFailure failureId row store).tryCatch (matchHandler failureId)) w'
      (Settles failureId) := fun store w' hw' => guarded_settles row store hw'
  unfold matchClaimed storeFor
  rw [Prog.bind_eq]
  split
  · exact (hguarded .main w hw).mono fun t o ho => ho.resolved
  · split
    · exact (hguarded .dev w hw).mono fun t o ho => ho.resolved
    · rw [ensures_bind, Prog.bind_eq, ensures_bind]
      refine ensures_call.mpr ⟨?_, ?_, ?_⟩
      · intro w' hended
        rcases hended with ⟨a, ho⟩ | ⟨e, ho, -⟩ <;> cases ho
      · intro robot w' hstep
        have hsame : w' failureId = w failureId := hstep
        refine ensures_ret.mpr ((hguarded _ w' (hsame.trans hw)).mono fun t o ho => ?_)
        refine Settles.resolved ⟨fun e he => ?_, ho.2⟩
        rcases List.mem_cons.mp he with rfl | he
        · rfl
        · exact ho.1 e he
      · intro e w' hstep w₁ hended
        have hsame : w' failureId = w failureId := hstep
        rcases hended with ⟨a, ho⟩ | ⟨e', ho, -⟩
        · cases ho
        · cases ho
          exact iff_of_false (not_resolved (hsame.trans hw)) fun hquiet =>
            absurd (hquiet _ (List.mem_singleton_self _)) Bool.true_eq_false.mp

/-- A run in which the row was claimed and its updates succeed resolves the row, unless
the lookup of the robot raises between the claim and the handler. -/
theorem match_resolved_iff (devMemoryStore : Bool) (failureId : String) (w : World) :
    Ensures (matcherDatabase failureId) (processFailure devMemoryStore failureId) w
      fun t o => (∃ e ∈ t, isClaimed e = true) → ResolvedUnlessLookup failureId t o := by
  have hunclaimed : ∀ {t : List (Event matching)} {o : Outcome matching (Option FailureMatch)},
      (∀ e ∈ t, isClaimed e = false) → (∃ e ∈ t, isClaimed e = true) →
        ResolvedUnlessLookup failureId t o := by
    intro t o hnone hclaimed
    obtain ⟨e, he, hclaim⟩ := hclaimed
    rw [hnone e he] at hclaim
    cases hclaim
  unfold processFailure
  rw [Prog.bind_eq, ensures_bind]
  refine ensures_call.mpr ⟨hunclaimed (by simp [isClaimed]), ?_,
    fun e w' _ => hunclaimed (by simp [isClaimed])⟩
  intro found w' _
  cases found with
  | none => exact ensures_ret.mpr (hunclaimed (by simp [isClaimed]))
  | some row =>
    show Ensures _ (if _ then _ else _) _ _
    split
    · exact ensures_ret.mpr (hunclaimed (by simp [isClaimed]))
    · rw [Prog.bind_eq, ensures_bind]
      refine ensures_call.mpr ⟨hunclaimed (by simp [isClaimed]), ?_,
        fun e w' _ => hunclaimed (by simp [isClaimed])⟩
      intro claimed w₁ hstep
      cases claimed with
      | false => exact ensures_ret.mpr (hunclaimed (by simp [isClaimed]))
      | true =>
        have hw₁ : InMatching failureId w₁ := hstep rfl rfl
        refine (matchClaimed_resolves devMemoryStore row hw₁).mono fun t o ho _ w₂ hended => ?_
        rw [ho w₂ hended]
        simp [lookupRaised]

end Process

section Lost

def lostRow : Fields :=
  [("failure_id", .str "f-1"), ("sysid", .str "ROBOT-1"), ("matcher_status", .str "pending"),
    ("analysis_status", .str "completed")]

def connectionLost : PyExc := ⟨.connection, "connection lost"⟩

/-- The claim is answered, the lookup of the robot is not. -/
def lostReaction : Reaction matching := fun _ w op =>
  match op with
  | .fetchFailure _ => some (.ok (some lostRow), w)
  | .claimFailure _ => some (.ok true, Function.update w "f-1" (some "matching"))
  | .fetchRobot _ => some (.error connectionLost, w)
  | _ => none

def lostRun : List (Event matching) × Outcome matching (Option FailureMatch) :=
  play lostReaction (processFailure true "f-1") (fun _ => some "pending") []

/-- The run claims the row and ends with an error while the row is matching. -/
def leavesMatching (run : List (Event matching) × Outcome matching (Option FailureMatch)) : Bool :=
  run.1.any isClaimed && match run.2 with
    | .raised e w => e.cls ≠ .cancelled && w "f-1" = some "matching"
    | _ => false

theorem lostRun_leaves : leavesMatching lostRun = true := by decide +kernel

theorem lostReaction_admitted (past : List (Event matching)) (w : World) (op : Op)
    (r : Except PyExc op.Reply) (w' : World) (h : lostReaction past w op = some (r, w')) :
    matcherDatabase "f-1" w op r w' := by
  cases op with
  | fetchFailure id =>
    cases h
    rfl
  | claimFailure id =>
    cases h
    exact fun _ _ => Function.update_self ..
  | fetchRobot sysid =>
    cases h
    rfl
  | _ => cases h

/-- The claim and the lookup are answered, the index cannot be read, and the row is
finished. -/
def finishedReaction : Reaction matching := fun past w op =>
  match op with
  | .fetchRobot _ => some (.ok none, w)
  | .rebuildIndex _ => some (.error connectionLost, w)
  | .finishFailure _ status _ _ => some (.ok (),
      if w "f-1" = some "matching" then Function.update w "f-1" (some status) else w)
  | op => lostReaction past w op

theorem finishedReaction_admitted (past : List (Event matching)) (w : World) (op : Op)
    (r : Except PyExc op.Reply) (w' : World) (h : finishedReaction past w op = some (r, w')) :
    matcherDatabase "f-1" w op r w' := by
  cases op with
  | fetchFailure id => exact lostReaction_admitted past w _ r w' h
  | claimFailure id => exact lostReaction_admitted past w _ r w' h
  | fetchRobot sysid =>
    cases h
    rfl
  | rebuildIndex store =>
    cases h
    rfl
  | finishFailure id status message suggestion =>
    cases h
    intro _
    split
    · exact Function.update_self ..
    · rfl
  | _ => cases h

def finishedRun : List (Event matching) × Outcome matching (Option FailureMatch) :=
  play finishedReaction (processFailure true "f-1") (fun _ => some "pending") []

/-- The run claims the row, looks up the robot and ends with an error. -/
def raisesAfterLookup (run : List (Event matching) × Outcome matching (Option FailureMatch)) :
    Bool :=
  run.1.any isClaimed && run.1.all (fun e => !lookupRaised e) && match run.2 with
    | .raised e _ => e.cls ≠ .cancelled
    | _ => false

/-- A claimed row whose index cannot be read is finished. -/
theorem match_resolved_iff_finished : ∃ t o w, Runs (matcherDatabase "f-1")
    (processFailure true "f-1") (fun _ => some "pending") t o ∧
      (∃ e ∈ t, isClaimed e = true) ∧ Ended o w ∧ Resolved "f-1" w := by
  have hraises : raisesAfterLookup finishedRun = true := by decide +kernel
  have hrun : Runs (matcherDatabase "f-1") (processFailure true "f-1") (fun _ => some "pending")
      finishedRun.1 finishedRun.2 := runs_play _ finishedReaction finishedReaction_admitted _ _ []
  unfold raisesAfterLookup at hraises
  rw [Bool.and_eq_true, Bool.and_eq_true] at hraises
  obtain ⟨⟨hclaimed, hlookup⟩, hends⟩ := hraises
  split at hends
  · next e w ho =>
    have hended : Ended finishedRun.2 w := .inr ⟨e, ho, of_decide_eq_true hends⟩
    have hiff := match_resolved_iff true "f-1" (fun _ => some "pending") _ _ hrun
      (List.any_eq_true.mp hclaimed) w hended
    refine ⟨_, _, w, hrun, List.any_eq_true.mp hclaimed, hended, hiff.mpr fun e he => ?_⟩
    simpa using List.all_eq_true.mp hlookup e he
  · cases hends

/-- A robot lookup that loses its connection leaves the claimed row matching. -/
theorem claimed_left_matching : ¬ ∀ t o, Runs (matcherDatabase "f-1") (processFailure true "f-1")
    (fun _ => some "pending") t o → (∃ e ∈ t, isClaimed e = true) →
      ∀ w, Ended o w → Resolved "f-1" w := by
  intro h
  have hrun : Runs (matcherDatabase "f-1") (processFailure true "f-1") (fun _ => some "pending")
      lostRun.1 lostRun.2 := runs_play _ lostReaction lostReaction_admitted _ _ []
  have hleaves := lostRun_leaves
  unfold leavesMatching at hleaves
  rw [Bool.and_eq_true] at hleaves
  obtain ⟨hclaimed, hends⟩ := hleaves
  split at hends
  · next e w ho =>
    rw [Bool.and_eq_true, decide_eq_true_eq, decide_eq_true_eq] at hends
    have hresolved := h _ _ hrun (List.any_eq_true.mp hclaimed) w (.inr ⟨e, ho, hends.1⟩)
    exact not_resolved hends.2 hresolved
  · cases hends

end Lost

end FailureResolver.MatchResolution
