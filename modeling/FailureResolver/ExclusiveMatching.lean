import FailureResolver.MatchResolution
import FailureResolver.TaskTable

/-!
Many matchers work on one table of failures. A claim takes a row from pending to
matching and an update of the claimed row takes it from matching to a final status, each
if it still finds the row there. Of the tasks that process a failure one at most is
answered that the row is its own. Only that task reads memories, asks the model and
updates the row, and until its first update the row stands at matching. No run takes a
status back.
-/

namespace FailureResolver.ExclusiveMatching

open FailureMatcher JsonValue MatchResolution MemoryAgent MemoryBrowsing MemoryMarkdown
open MemorySnapshot Program PyException TaskPool TaskTable Transitions
open LearnResolution (StoreName)

section Steps

abbrev Matchers := Pool matching (Option FailureMatch) String

def Spawned (p : MemoryBrowsing.Matching (Option FailureMatch)) (failureId : String) : Prop :=
  ∃ devMemoryStore, p = processFailure devMemoryStore failureId

def Applied (failureId source target : String) (w w' : World) : Prop :=
  w failureId = some source ∧ w' = Function.update w failureId (some target)

/-- An update that is answered was made where it found its row. The claim filters by the
analysis as well, and may leave a pending row. One that raises may have been made. -/
def rowQueries : Environment matching := fun w op r w' =>
  match op, r with
  | .claimFailure id, .ok true => Applied id "pending" "matching" w w'
  | .claimFailure id, .error _ => Applied id "pending" "matching" w w' ∨ w' = w
  | .finishFailure id status _ _, .ok _ =>
      Applied id "matching" status w w' ∨ w id ≠ some "matching" ∧ w' = w
  | .finishFailure id status _ _, .error _ => Applied id "matching" status w w' ∨ w' = w
  | _, _ => w' = w

/-- How the status of a failure moves; a coordinator takes back a suggestion that it
cannot execute. -/
inductive Moves : Option String → Option String → Prop
  | claimed : Moves (some "pending") (some "matching")
  | finished {status : String} : status ∈ finalStatuses → Moves (some "matching") (some status)
  | retired : Moves (some "solution_found") (some "no_solution")

variable (failureId : String)

/-- What else happens: the coordinator on this row, anything on the others. -/
def Elsewhere (w w' : World) : Prop :=
  w' failureId = w failureId ∨
    w failureId = some "solution_found" ∧ w' failureId = some "no_solution"

abbrev MatcherStep : Matchers → Label matching → Matchers → Prop :=
  Step Spawned (fun m _ _ => m) rowQueries (Elsewhere failureId)

def claimOf (i : ℕ) : Label matching := .resume i (.claimFailure failureId) (.ok true)

def isClaim : Label matching → Bool
  | .resume _ (.claimFailure id) (.ok true) => id = failureId
  | _ => false

/-- A task that processes the failure waits for an answer. -/
def Awaiting (P : Matchers) (i : ℕ) (op : Op) : Prop :=
  P.record i = failureId ∧ ∃ k, P.task i = some (.await op k)

def isWork : Op → Bool
  | .fetchFailure _ => false
  | .claimFailure _ => false
  | _ => true

def isUpdate : Op → Bool
  | .finishFailure .. => true
  | _ => false

end Steps

section Discipline

inductive Mode
  | before (failureId : String)
  | owner (failureId : String)
  | cut (failureId : String)
  | ended

def Mode.owned : Mode → Option String
  | .owner failureId => some failureId
  | .cut failureId => some failureId
  | _ => none

/-- Once an update was cut off, the handler makes the last one. -/
def Permitted : Mode → Op → Prop
  | .before failureId, op => op = .fetchFailure failureId ∨ op = .claimFailure failureId
  | .owner failureId, .finishFailure id status _ _ => id = failureId ∧ status ∈ finalStatuses
  | .owner _, .claimFailure _ => False
  | .owner _, _ => True
  | .cut failureId, .finishFailure id status _ _ => id = failureId ∧ status ∈ finalStatuses
  | .cut _, _ => False
  | .ended, _ => False

def Mode.after : Mode → (op : Op) → Except PyExc op.Reply → Mode
  | .before failureId, .fetchFailure _, .ok _ => .before failureId
  | .before failureId, .claimFailure _, .ok true => .owner failureId
  | .owner failureId, .finishFailure .., .error _ => .cut failureId
  | .owner _, .finishFailure .., .ok _ => .ended
  | .owner failureId, _, _ => .owner failureId
  | _, _, _ => .ended

def discipline : Discipline matching Mode where
  rely _ _ := True
  act _ _ _ _ := False
  request g _ op := Permitted g op
  answer g op r g' := g' = g.after op r

variable {failureId : String} {w : World} {α β : Type}

/-- A part of the match that ends without its row being updated leaves that to the handler. -/
def Leaves (failureId : String) (r : Except PyExc α) (g : Mode) : Prop :=
  ∀ e, r = .error e → g.owned = some failureId

abbrev Obeying (p : MemoryBrowsing.Matching α) (Q : Except PyExc α → Mode → Prop) (g : Mode)
    (w : World) : Prop :=
  Obeys discipline (fun r g _ => Q r g) p g w

theorem permitted_quiet {op : Op} (hop : Quiet op) : Permitted (.owner failureId) op := by
  cases op with
  | claimFailure id => cases hop
  | finishFailure id status message suggestion => cases hop
  | _ => trivial

theorem after_quiet {op : Op} {r : Except PyExc op.Reply} (hop : Quiet op) :
    (Mode.owner failureId).after op r = .owner failureId := by
  cases op with
  | claimFailure id => cases hop
  | finishFailure id status message suggestion => cases hop
  | _ => rfl

theorem obeys_quiet {p : MemoryBrowsing.Matching α} (hp : p.Awaits Quiet) :
    Obeying p (fun _ g => g = .owner failureId) (.owner failureId) w := by
  refine Obeys.of_awaits hp (fun _ op hop => permitted_quiet hop) fun op r g' hop hanswer => ?_
  rw [hanswer]
  exact after_quiet hop

/-- Awaits that leave the row come first. -/
theorem obeys_quiet_bind {p : MemoryBrowsing.Matching α} {f : α → MemoryBrowsing.Matching β}
    (hp : p.Awaits Quiet)
    (hf : ∀ a w, Obeying (f a) (Leaves failureId) (.owner failureId) w) :
    Obeying (p.bind f) (Leaves failureId) (.owner failureId) w := by
  unfold Obeying
  rw [obeys_bind]
  refine (obeys_quiet hp).mono fun r g w' hg => ?_
  subst hg
  cases r with
  | ok a => exact hf a w'
  | error e => exact fun _ _ => rfl

theorem obeys_finish {status message : String} {suggestion : Option Fields} {a : α}
    (hstatus : status ∈ finalStatuses) :
    Obeying ((finishFailure failureId status message suggestion).bind
      fun _ => (.ret a : MemoryBrowsing.Matching α)) (Leaves failureId) (.owner failureId) w := by
  unfold Obeying finishFailure
  rw [obeys_bind]
  refine obeys_call.mpr ⟨⟨rfl, hstatus⟩, fun r g' w' hanswer _ => ?_⟩
  rw [hanswer]
  cases r with
  | ok _ =>
    intro e he
    cases he
  | error e => exact fun _ _ => rfl

theorem obeys_raise {e : PyExc} : Obeying (.raise e : MemoryBrowsing.Matching α)
    (Leaves failureId) (.owner failureId) w :=
  fun _ _ => rfl

theorem obeys_suggestMemory (row : Fields) (choice : MemoryChoice) (selected : MemoryDocument) :
    Obeying (suggestMemory failureId row choice selected) (Leaves failureId)
      (.owner failureId) w := by
  unfold suggestMemory
  split
  · split
    · exact obeys_finish (by simp [finalStatuses])
    · exact obeys_raise
  · exact obeys_finish (by simp [finalStatuses])

theorem obeys_concludeMatch (row : Fields) (retrieval : RetrievalOutcome) :
    Obeying (concludeMatch failureId row retrieval) (Leaves failureId) (.owner failureId) w := by
  unfold concludeMatch
  split
  · exact obeys_finish (by simp [finalStatuses])
  · split
    · exact obeys_raise
    · split
      · exact obeys_raise
      · split
        · exact obeys_raise
        · exact obeys_suggestMemory row _ _

theorem obeys_matchFailure (row : Fields) (store : StoreName) :
    Obeying (matchFailure failureId row store) (Leaves failureId) (.owner failureId) w := by
  unfold matchFailure
  have hread : (Prog.call (σ := matching) (.rebuildIndex store)).Awaits Quiet :=
    Prog.Awaits.call rfl
  apply obeys_quiet_bind hread
  intro index w
  apply obeys_quiet_bind (awaits_withoutRevoked _)
  intro safeDocuments w
  split
  · exact obeys_finish (by simp [finalStatuses])
  · apply obeys_quiet_bind (awaits_retrieveMemoryChoice _ _)
    intro retrieval w
    exact obeys_concludeMatch row retrieval

theorem permitted_last {g : Mode} (hg : g.owned = some failureId) {status message : String}
    {suggestion : Option Fields} (hstatus : status ∈ finalStatuses) :
    Permitted g (.finishFailure failureId status message suggestion) := by
  cases g with
  | before id => cases hg
  | ended => cases hg
  | owner id =>
    cases hg
    exact ⟨rfl, hstatus⟩
  | cut id =>
    cases hg
    exact ⟨rfl, hstatus⟩

/-- The handler makes one update, and nothing is awaited after it. -/
theorem obeys_matchHandler {g : Mode} (hg : g.owned = some failureId) (e : PyExc) :
    Obeying (matchHandler failureId e) (fun _ _ => True) g w := by
  unfold matchHandler
  split
  · trivial
  · unfold Obeying finishFailure
    rw [Prog.bind_eq, obeys_bind]
    refine obeys_call.mpr ⟨permitted_last hg (by simp [finalStatuses]), fun r g' w' _ _ => ?_⟩
    cases r <;> trivial

theorem obeys_guarded (row : Fields) (store : StoreName) :
    Obeying ((matchFailure failureId row store).tryCatch (matchHandler failureId))
      (fun _ _ => True) (.owner failureId) w := by
  unfold Obeying
  rw [obeys_tryCatch]
  refine (obeys_matchFailure row store).mono fun r g w' hleaves => ?_
  cases r with
  | ok a => trivial
  | error e => exact obeys_matchHandler (hleaves e rfl) e

theorem obeys_matchClaimed (devMemoryStore : Bool) (row : Fields) :
    Obeying (matchClaimed devMemoryStore failureId row) (fun _ _ => True) (.owner failureId)
      w := by
  unfold matchClaimed storeFor
  rw [Prog.bind_eq]
  split
  · exact obeys_guarded row .main
  · split
    · exact obeys_guarded row .dev
    · unfold Obeying
      rw [obeys_bind, Prog.bind_eq, obeys_bind]
      refine obeys_call.mpr ⟨trivial, fun r g' w' hanswer _ => ?_⟩
      rw [hanswer]
      cases r with
      | ok robot => exact obeys_guarded row _
      | error e => trivial

theorem obeys_processFailure (devMemoryStore : Bool) (failureId : String) :
    Obeying (processFailure devMemoryStore failureId) (fun _ _ => True) (.before failureId) w := by
  unfold processFailure Obeying
  rw [Prog.bind_eq, obeys_bind]
  refine obeys_call.mpr ⟨.inl rfl, fun r g' w' hanswer _ => ?_⟩
  rw [hanswer]
  cases r with
  | error e => trivial
  | ok found =>
    cases found with
    | none => trivial
    | some row =>
      show Obeying (if _ then _ else _) _ _ _
      split
      · trivial
      · unfold Obeying
        rw [Prog.bind_eq, obeys_bind]
        refine obeys_call.mpr ⟨.inr rfl, fun r g' w' hanswer _ => ?_⟩
        rw [hanswer]
        cases r with
        | error e => trivial
        | ok claimed =>
          cases claimed with
          | false => trivial
          | true => exact obeys_matchClaimed devMemoryStore row

end Discipline

section Table

variable {failureId : String} {status₀ : Option String} {w w' : World}
variable {t : List (Label matching)} {mode : ℕ → Mode} {record : ℕ → String} {i j : ℕ}
variable {g : Mode} {op : Op} {r : Except PyExc op.Reply}

def Mode.names : Mode → Option String
  | .before failureId => some failureId
  | .owner failureId => some failureId
  | .cut failureId => some failureId
  | .ended => none

structure Table (failureId : String) (status₀ : Option String) (t : List (Label matching))
    (mode : ℕ → Mode) (record : ℕ → String) (w : World) : Prop where
  moved : Relation.ReflTransGen Moves status₀ (w failureId)
  once : (t.filter (isClaim failureId)).length ≤ 1
  unclaimed : w failureId = some "pending" → ∀ l ∈ t, isClaim failureId l = false
  named : ∀ i id, (mode i).names = some id → record i = id
  claimed : ∀ i, (mode i).owned = some failureId → claimOf failureId i ∈ t
  underway : ∀ i, mode i = .owner failureId → w failureId = some "matching"
  written : ∀ i status message suggestion r,
    .resume i (.finishFailure failureId status message suggestion) r ∈ t →
      claimOf failureId i ∈ t

theorem isClaim_claimOf (failureId : String) (i : ℕ) :
    isClaim failureId (claimOf failureId i) = true :=
  decide_eq_true rfl

theorem isClaim_resume (h : isClaim failureId (.resume i op r) = true) :
    Label.resume i op r = claimOf failureId i := by
  unfold isClaim at h
  split at h
  · next id heq =>
    cases heq
    rw [of_decide_eq_true h]
    rfl
  · cases h

/-- One claim of a failure is answered, so that one task has the row. -/
theorem claim_unique (honce : (t.filter (isClaim failureId)).length ≤ 1)
    (hi : claimOf failureId i ∈ t) (hj : claimOf failureId j ∈ t) : i = j := by
  have hmem : ∀ k, claimOf failureId k ∈ t →
      claimOf failureId k ∈ t.filter (isClaim failureId) := by
    intro k hk
    exact List.mem_filter.mpr ⟨hk, isClaim_claimOf failureId k⟩
  have hsame : claimOf failureId i = claimOf failureId j := by
    obtain ⟨l, hl⟩ | hnil : (∃ l, t.filter (isClaim failureId) = [l]) ∨
        t.filter (isClaim failureId) = [] := by
      by_cases hlength : (t.filter (isClaim failureId)).length = 0
      · exact .inr (List.length_eq_zero_iff.mp hlength)
      · exact .inl (List.length_eq_one_iff.mp (by omega))
    · have hleft := hmem i hi
      have hright := hmem j hj
      rw [hl, List.mem_singleton] at hleft hright
      rw [hleft, hright]
    · have hleft := hmem i hi
      rw [hnil] at hleft
      exact absurd hleft List.not_mem_nil
  exact (Label.resume.inj hsame).1

theorem Table.sole (h : Table failureId status₀ t mode record w)
    (hi : (mode i).owned = some failureId) (hj : (mode j).owned = some failureId) : i = j :=
  claim_unique h.once (h.claimed i hi) (h.claimed j hj)

inductive RowStep (failureId : String) (w : World) (g : Mode) (op : Op) (w' : World) : Prop
  | kept : w' failureId = w failureId → RowStep failureId w g op w'
  | claimed : op = .claimFailure failureId → w failureId = some "pending" →
      w' failureId = some "matching" → RowStep failureId w g op w'
  | finished (status : String) : status ∈ finalStatuses → g.owned = some failureId →
      isUpdate op = true → w failureId = some "matching" → w' failureId = some status →
      RowStep failureId w g op w'

theorem Applied.row {id source target : String} (h : Applied id source target w w')
    (failureId : String) :
    w' failureId = w failureId ∨
      id = failureId ∧ w failureId = some source ∧ w' failureId = some target := by
  obtain ⟨hsource, htarget⟩ := h
  by_cases hid : failureId = id
  · subst hid
    refine .inr ⟨rfl, hsource, ?_⟩
    rw [htarget, Function.update_self]
  · refine .inl ?_
    rw [htarget, Function.update_of_ne hid]

theorem owned_of_finishing {status message : String} {suggestion : Option Fields}
    (h : Permitted g (.finishFailure failureId status message suggestion)) :
    g.owned = some failureId ∧ status ∈ finalStatuses := by
  cases g with
  | before id => rcases h with h | h <;> cases h
  | ended => exact h.elim
  | owner id =>
    obtain ⟨rfl, hstatus⟩ := h
    exact ⟨rfl, hstatus⟩
  | cut id =>
    obtain ⟨rfl, hstatus⟩ := h
    exact ⟨rfl, hstatus⟩

theorem rowStep_claim {id : String} (h : Applied id "pending" "matching" w w') :
    RowStep failureId w g (.claimFailure id) w' := by
  rcases h.row failureId with hkept | ⟨rfl, hbefore, hafter⟩
  · exact .kept hkept
  · exact .claimed rfl hbefore hafter

theorem rowStep_finish {id status message : String} {suggestion : Option Fields}
    (hpermitted : Permitted g (.finishFailure id status message suggestion))
    (h : Applied id "matching" status w w') :
    RowStep failureId w g (.finishFailure id status message suggestion) w' := by
  rcases h.row failureId with hkept | ⟨rfl, hbefore, hafter⟩
  · exact .kept hkept
  · obtain ⟨howned, hstatus⟩ := owned_of_finishing hpermitted
    exact .finished status hstatus howned rfl hbefore hafter

theorem rowStep (hpermitted : Permitted g op) (h : rowQueries w op r w') :
    RowStep failureId w g op w' := by
  have hsame : w' = w → RowStep failureId w g op w' := by
    rintro rfl
    exact .kept rfl
  cases op with
  | claimFailure id =>
    cases r with
    | ok claimed =>
      cases claimed with
      | true => exact rowStep_claim h
      | false => exact hsame h
    | error e => exact h.elim rowStep_claim hsame
  | finishFailure id status message suggestion =>
    cases r with
    | ok _ => exact h.elim (rowStep_finish hpermitted) fun hmissed => hsame hmissed.2
    | error e => exact h.elim (rowStep_finish hpermitted) hsame
  | _ => exact hsame h

theorem RowStep.moves (h : RowStep failureId w g op w')
    (hmoved : Relation.ReflTransGen Moves status₀ (w failureId)) :
    Relation.ReflTransGen Moves status₀ (w' failureId) := by
  cases h with
  | kept hkept =>
    rw [hkept]
    exact hmoved
  | claimed _ hbefore hafter =>
    rw [hbefore] at hmoved
    rw [hafter]
    exact hmoved.tail .claimed
  | finished status hstatus _ _ hbefore hafter =>
    rw [hbefore] at hmoved
    rw [hafter]
    exact hmoved.tail (.finished hstatus)

/-- No status moves to pending. -/
theorem RowStep.pending (h : RowStep failureId w g op w')
    (hpending : w' failureId = some "pending") : w failureId = some "pending" := by
  cases h with
  | kept hkept => exact hkept.symm.trans hpending
  | claimed _ _ hafter => exact absurd (hafter.symm.trans hpending) (by simp)
  | finished status hstatus _ _ _ hafter =>
    rw [hpending, Option.some.injEq] at hafter
    subst hafter
    exact absurd hstatus (by simp [finalStatuses])

/-- A row that is matching is let go of by its owner alone. -/
theorem RowStep.stays (h : RowStep failureId w g op w') (hrow : w failureId = some "matching")
    (hother : g.owned = some failureId → isUpdate op = false) :
    w' failureId = some "matching" := by
  cases h with
  | kept hkept => exact hkept.trans hrow
  | claimed _ _ hafter => exact hafter
  | finished status _ howned hupdate =>
    rw [hother howned] at hupdate
    cases hupdate

theorem names_after {id : String} (h : (g.after op r).names = some id) : g.names = some id := by
  unfold Mode.after at h
  split at h <;> first | exact h | cases h

/-- The row is given to a task by the answer to its claim. -/
theorem owned_after (hpermitted : Permitted g op)
    (h : (g.after op r).owned = some failureId) :
    g.owned = some failureId ∨ isClaim failureId (.resume i op r) = true := by
  unfold Mode.after at h
  split at h
  case h_2 id id' =>
    rcases hpermitted with hfetch | hclaim
    · cases hfetch
    · cases hclaim
      cases h
      exact .inr (isClaim_claimOf failureId i)
  all_goals first | exact .inl h | cases h

theorem once_append {l : Label matching} (honce : (t.filter (isClaim failureId)).length ≤ 1)
    (hfresh : isClaim failureId l = true → ∀ l' ∈ t, isClaim failureId l' = false) :
    ((t ++ [l]).filter (isClaim failureId)).length ≤ 1 := by
  rw [List.filter_append, List.length_append]
  by_cases hl : isClaim failureId l = true
  · have hnone : t.filter (isClaim failureId) = [] := by
      rw [List.filter_eq_nil_iff]
      intro l' hl'
      rw [hfresh hl l' hl']
      exact Bool.false_ne_true
    rw [hnone, List.filter_cons_of_pos hl]
    exact Nat.le_refl 1
  · rw [List.filter_cons_of_neg hl]
    exact honce

/-- The answered claim finds the row pending and leaves it matching. -/
theorem claim_applied (hclaim : isClaim failureId (.resume i op r) = true)
    (hquery : rowQueries w op r w') :
    w failureId = some "pending" ∧ w' failureId = some "matching" := by
  have heq := isClaim_resume hclaim
  cases heq
  obtain ⟨hbefore, hafter⟩ : Applied failureId "pending" "matching" w w' := hquery
  refine ⟨hbefore, ?_⟩
  rw [hafter, Function.update_self]

/-- A task that was not cut off has been given the row by this answer, or has not
updated it. -/
theorem owner_after (hpermitted : Permitted g op) (h : g.after op r = .owner failureId) :
    g = .owner failureId ∧ isUpdate op = false ∨
      isClaim failureId (.resume i op r) = true := by
  rcases owned_after (i := i) hpermitted (by rw [h]; rfl) with howned | hclaim
  · refine .inl ?_
    cases g with
    | before id => cases howned
    | ended => cases howned
    | cut id =>
      cases op with
      | finishFailure id' status message suggestion => cases h
      | _ => exact hpermitted.elim
    | owner id =>
      cases howned
      cases op with
      | finishFailure id' status message suggestion => cases r <;> cases h
      | _ => exact ⟨rfl, rfl⟩
  · exact .inr hclaim

variable {record' : ℕ → String}

theorem Table.answer (h : Table failureId status₀ t mode record w)
    (hpermitted : Permitted (mode i) op) (hquery : rowQueries w op r w')
    (hrecord : ∀ j, record' j = record j) :
    Table failureId status₀ (t ++ [.resume i op r])
      (Function.update mode i ((mode i).after op r)) record' w' := by
  have hstep : RowStep failureId w (mode i) op w' := rowStep hpermitted hquery
  refine ⟨hstep.moves h.moved, ?_, fun hpending l hl => ?_, fun j id hj => ?_, fun j hj => ?_,
    fun j hj => ?_, fun j status message suggestion r' hl => ?_⟩
  · apply once_append h.once
    intro hclaim
    exact h.unclaimed (claim_applied hclaim hquery).1
  · rcases List.mem_append.mp hl with hbefore | hlast
    · exact h.unclaimed (hstep.pending hpending) l hbefore
    · rw [List.mem_singleton] at hlast
      subst hlast
      by_contra hclaim
      have hafter := (claim_applied (Bool.not_eq_false _ ▸ hclaim) hquery).2
      rw [hpending] at hafter
      exact absurd hafter (by simp)
  · rw [hrecord]
    by_cases hij : j = i
    · subst hij
      rw [Function.update_self] at hj
      exact h.named j id (names_after hj)
    · rw [Function.update_of_ne hij] at hj
      exact h.named j id hj
  · by_cases hij : j = i
    · subst hij
      rw [Function.update_self] at hj
      rcases owned_after hpermitted hj with howned | hclaim
      · exact List.mem_append_left _ (h.claimed j howned)
      · rw [isClaim_resume hclaim]
        exact List.mem_append_right _ (List.mem_singleton_self _)
    · rw [Function.update_of_ne hij] at hj
      exact List.mem_append_left _ (h.claimed j hj)
  · by_cases hij : j = i
    · subst hij
      rw [Function.update_self] at hj
      rcases owner_after (i := j) hpermitted hj with ⟨hmode, hupdate⟩ | hclaim
      · exact hstep.stays (h.underway j hmode) fun _ => hupdate
      · exact (claim_applied hclaim hquery).2
    · rw [Function.update_of_ne hij] at hj
      refine hstep.stays (h.underway j hj) fun howned => ?_
      have hmine : (mode j).owned = some failureId := by
        rw [hj]
        rfl
      exact absurd (h.sole hmine howned) hij
  · rcases List.mem_append.mp hl with hbefore | hlast
    · exact List.mem_append_left _ (h.written j status message suggestion r' hbefore)
    · rw [List.mem_singleton] at hlast
      cases hlast
      have howned := (owned_of_finishing hpermitted).1
      exact List.mem_append_left _ (h.claimed _ howned)

theorem Table.start (h : Table failureId status₀ t mode record w) (hmode : mode i = .ended)
    (id : String) : Table failureId status₀ (t ++ [.start i])
      (Function.update mode i (.before id)) (Function.update record i id) w := by
  have hothers : ∀ j, j ≠ i → Function.update mode i (.before id) j = mode j := by
    intro j hij
    exact Function.update_of_ne hij ..
  refine ⟨h.moved, once_append h.once fun hclaim => (nomatch hclaim),
    fun hpending l hl => ?_, fun j id' hj => ?_, fun j hj => ?_, fun j hj => ?_,
    fun j status message suggestion r' hl => ?_⟩
  · rcases List.mem_append.mp hl with hbefore | hlast
    · exact h.unclaimed hpending l hbefore
    · rw [List.mem_singleton] at hlast
      subst hlast
      rfl
  · by_cases hij : j = i
    · subst hij
      rw [Function.update_self] at hj ⊢
      cases hj
      rfl
    · rw [hothers j hij] at hj
      rw [Function.update_of_ne hij]
      exact h.named j id' hj
  · by_cases hij : j = i
    · subst hij
      rw [Function.update_self] at hj
      cases hj
    · rw [hothers j hij] at hj
      exact List.mem_append_left _ (h.claimed j hj)
  · by_cases hij : j = i
    · subst hij
      rw [Function.update_self] at hj
      cases hj
    · rw [hothers j hij] at hj
      exact h.underway j hj
  · rcases List.mem_append.mp hl with hbefore | hlast
    · exact List.mem_append_left _ (h.written j status message suggestion r' hbefore)
    · rw [List.mem_singleton] at hlast
      cases hlast

theorem Table.outside (h : Table failureId status₀ t mode record w)
    (helsewhere : Elsewhere failureId w w') :
    Table failureId status₀ (t ++ [.outside]) mode record w' := by
  refine ⟨?_, once_append h.once fun hclaim => (nomatch hclaim),
    fun hpending l hl => ?_, h.named, fun j hj => List.mem_append_left _ (h.claimed j hj),
    fun j hj => ?_, fun j status message suggestion r' hl => ?_⟩
  · have hmoved := h.moved
    rcases helsewhere with hkept | ⟨hbefore, hafter⟩
    · rw [hkept]
      exact hmoved
    · rw [hbefore] at hmoved
      rw [hafter]
      exact hmoved.tail .retired
  · have hbefore : w failureId = some "pending" := by
      rcases helsewhere with hkept | ⟨-, hafter⟩
      · exact hkept.symm.trans hpending
      · exact absurd (hafter.symm.trans hpending) (by simp)
    rcases List.mem_append.mp hl with hearlier | hlast
    · exact h.unclaimed hbefore l hearlier
    · rw [List.mem_singleton] at hlast
      subst hlast
      rfl
  · rcases helsewhere with hkept | ⟨hbefore, -⟩
    · exact hkept.trans (h.underway j hj)
    · exact absurd ((h.underway j hj).symm.trans hbefore) (by simp)
  · rcases List.mem_append.mp hl with hearlier | hlast
    · exact List.mem_append_left _ (h.written j status message suggestion r' hearlier)
    · rw [List.mem_singleton] at hlast
      cases hlast

theorem rules : Rules discipline (fun _ _ => True) Mode.ended Spawned (fun m _ _ => m) rowQueries
    (Elsewhere failureId) (Table failureId status₀) := by
  refine ⟨fun g s s' op hop => hop, fun t mode record i g s g' s' _ hact => hact.elim,
    fun t mode record i s p m h hrest hspawn => ?_,
    fun t mode record i s op r s' h hrequest hquery => ?_,
    fun t mode record s s' h helsewhere => h.outside helsewhere⟩
  · obtain ⟨devMemoryStore, rfl⟩ := hspawn
    exact ⟨.before m, obeys_processFailure devMemoryStore m, h.start hrest m⟩
  · refine ⟨_, rfl, trivial, h.answer hrequest hquery fun j => ?_⟩
    rw [Function.update_eq_self]

end Table

section Runs

variable {failureId m : String} {w : World} {t : List (Label matching)} {P : Matchers}

abbrev GovernedBy (failureId : String) (status₀ : Option String) (t : List (Label matching))
    (P : Matchers) (mode : ℕ → Mode) : Prop :=
  Governed discipline (fun _ _ => True) Mode.ended (Table failureId status₀) t P mode

theorem governed_matchers (hrun : Run (MatcherStep failureId) (Pool.initial w m) t P) :
    ∃ mode, GovernedBy failureId (w failureId) t P mode := by
  have htable : Table failureId (w failureId) [] (fun _ => Mode.ended) (fun _ => m) w := by
    refine ⟨.refl, Nat.zero_le 1, fun _ l hl => (nomatch hl), fun _ _ hj => (nomatch hj),
      fun _ hj => (nomatch hj), fun _ hj => (nomatch hj), fun _ _ _ _ _ hl => (nomatch hl)⟩
  exact governed_run (u := []) rules ⟨_, governed_initial htable⟩ hrun

/-- A later part of a run is seen from where it starts. -/
theorem rebased {status₀ : Option String} {mode : ℕ → Mode}
    (h : GovernedBy failureId status₀ t P mode) :
    GovernedBy failureId (P.state failureId) t P mode :=
  ⟨h.obeys, h.unstarted, { h.table with moved := .refl }⟩

/-- A task that works on the failure was given its row. -/
theorem owned_of_work {status₀ : Option String} {mode : ℕ → Mode} {i : ℕ} {op : Op}
    (h : GovernedBy failureId status₀ t P mode) (hi : Awaiting failureId P i op)
    (hwork : isWork op = true) : (mode i).owned = some failureId ∧
      (isUpdate op = false → mode i = .owner failureId) := by
  obtain ⟨hrecord, k, htask⟩ := hi
  have hrequest : Permitted (mode i) op := h.requests htask
  have hnamed := h.table.named i
  rw [hrecord] at hnamed
  cases hmode : mode i with
  | ended =>
    rw [hmode] at hrequest
    exact hrequest.elim
  | before id =>
    rw [hmode] at hrequest
    rcases hrequest with rfl | rfl <;> cases hwork
  | owner id =>
    rw [hnamed id (by rw [hmode]; rfl)]
    exact ⟨rfl, fun _ => rfl⟩
  | cut id =>
    rw [hmode] at hrequest
    rw [hnamed id (by rw [hmode]; rfl)]
    refine ⟨rfl, fun hupdate => ?_⟩
    cases op with
    | finishFailure id' status message suggestion => cases hupdate
    | _ => exact hrequest.elim

/-- Over any processors, orders of steps and lost answers, one task at most is given the
row of a failure. What comes after a claim is that task's alone, the row stands at
matching until it asks for an update, and every update that was ever asked of the row is
its. From any state that is reached the status only moves on. -/
theorem failure_matched_once (hrun : Run (MatcherStep failureId) (Pool.initial w m) t P) :
    (t.filter (isClaim failureId)).length ≤ 1 ∧
      (∀ i op, Awaiting failureId P i op → isWork op = true →
        claimOf failureId i ∈ t ∧ (isUpdate op = false → P.state failureId = some "matching") ∧
          ∀ j op', Awaiting failureId P j op' → isWork op' = true → i = j) ∧
      (∀ i status message suggestion r,
        .resume i (.finishFailure failureId status message suggestion) r ∈ t →
          claimOf failureId i ∈ t) ∧
      ∀ t' P', Run (MatcherStep failureId) P t' P' →
        Relation.ReflTransGen Moves (P.state failureId) (P'.state failureId) := by
  obtain ⟨mode, hgoverned⟩ := governed_matchers hrun
  refine ⟨hgoverned.table.once, fun i op hi hwork => ?_, hgoverned.table.written,
    fun t' P' hrun' => ?_⟩
  · obtain ⟨howned, hbefore⟩ := owned_of_work hgoverned hi hwork
    refine ⟨hgoverned.table.claimed i howned, fun hupdate => ?_, fun j op' hj hwork' => ?_⟩
    · exact hgoverned.table.underway i (hbefore hupdate)
    · exact hgoverned.table.sole howned (owned_of_work hgoverned hj hwork').1
  · obtain ⟨mode', hgoverned'⟩ := governed_run rules ⟨mode, rebased hgoverned⟩ hrun'
    exact hgoverned'.table.moved

theorem resumed {t : List (Label matching)} {P : Matchers} (i : ℕ) (op : Op)
    {k : Except PyExc op.Reply → MemoryBrowsing.Matching (Option FailureMatch)}
    (r : Except PyExc op.Reply) {w' : World}
    (h : Run (MatcherStep "f-1") (Pool.initial w m) t P)
    (htask : P.task i = some (.await op k)) (hquery : rowQueries P.state op r w') :
    Run (MatcherStep "f-1") (Pool.initial w m) (t ++ [.resume i op r])
      (P.run i (k r) (P.record i) w') :=
  .next h (.resume htask hquery)

/-- Two processors fetch a pending row; the one whose claim is answered reads the
memories, and the other leaves. -/
theorem failure_matched_once_reading : ∃ t P,
    Run (MatcherStep "f-1") (Pool.initial (fun _ => some "pending") "f-1") t P ∧
      .resume 0 (.fetchFailure "f-1") (.ok (some lostRow)) ∈ t ∧
      .resume 1 (.fetchFailure "f-1") (.ok (some lostRow)) ∈ t ∧
      P.task 1 = some (.ret none) ∧ Awaiting "f-1" P 0 (.rebuildIndex .main) ∧
      (t.filter (isClaim "f-1")).length ≤ 1 ∧ claimOf "f-1" 0 ∈ t ∧
      P.state "f-1" = some "matching" := by
  have hstart : Run (MatcherStep "f-1") (Pool.initial (fun _ => some "pending") "f-1") []
      (Pool.initial (fun _ => some "pending") "f-1") := .start
  have hfirst := Run.next hstart (.start (i := 0) (m := "f-1")
    (p := processFailure false "f-1") rfl ⟨false, rfl⟩)
  have hsecond := Run.next hfirst (.start (i := 1) (m := "f-1")
    (p := processFailure false "f-1") rfl ⟨false, rfl⟩)
  have hfetched := resumed 0 (.fetchFailure "f-1") (.ok (some lostRow)) hsecond rfl rfl
  have hboth := resumed 1 (.fetchFailure "f-1") (.ok (some lostRow)) hfetched rfl rfl
  have hclaimed := resumed 0 (.claimFailure "f-1") (.ok true) hboth rfl ⟨rfl, rfl⟩
  have hrefused := resumed 1 (.claimFailure "f-1") (.ok false) hclaimed rfl rfl
  obtain ⟨honce, hwork, -⟩ := failure_matched_once hrefused
  obtain ⟨hclaim, hstands, -⟩ := hwork 0 (.rebuildIndex .main) ⟨rfl, _, rfl⟩ rfl
  exact ⟨_, _, hrefused, by simp, by simp, rfl, ⟨rfl, _, rfl⟩, honce, hclaim, hstands rfl⟩

end Runs

end FailureResolver.ExclusiveMatching
