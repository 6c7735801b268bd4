import FailureResolver.ClaimDiscipline
import FailureResolver.MemoryIngestion

/-!
Many processors learn resolutions that are linked to one failure row. Each update
of the row is a compare-and-set on what its caller read some awaits ago. The row
stands at ingesting exactly while one call holds it, only that call lets it go,
and a refreshed commit takes the place of the one its caller read.
-/

namespace FailureResolver.ExclusiveIngestion

open ClaimDiscipline IngestionDiscipline JsonValue LearnResolution Program PyException
open ResolutionMemory RowText TaskPool Transitions

section Steps

variable {Repository : Type}

abbrev Contenders (Repository : Type) :=
  Pool (learning Repository) (Option MemoryWriteResult) Mode

/-- A processor learns a resolution, with or without a dev branch. -/
def Spawned (p : Learning Repository (Option MemoryWriteResult)) (m : Mode) : Prop :=
  (∃ devMemoryStore resolutionId, p = learnResolution devMemoryStore resolutionId) ∧
    m = Mode.idle

/-- A row that was read shows the columns of the failure. -/
structure Shows (row : Fields) (columns : MemoryColumns) : Prop where
  status : Fields.get row "memory_status" = optionalText columns.status
  resolutionId : Fields.get row "memory_resolution_id" = optionalText columns.resolutionId
  commitSha : Fields.get row "memory_commit_sha" = optionalText columns.commitSha

def Found (w : World Repository) : (op : Op) → Except PyExc op.Reply → Prop
  | .fetchFailure failureId, .ok (some row) =>
      ∃ columns, w.failures failureId = some columns ∧ Shows row columns
  | _, _ => True

/-- A query that takes effect as a whole, or fails and changes no row. -/
structure AtomicStep (w : World Repository) (op : Op) (r : Except PyExc op.Reply)
    (w' : World Repository) : Prop extends DatabaseStep w op r w' where
  failed : ∀ e, r = .error e → w'.failures = w.failures
  found : Found w op r

/-- What else happens: the other rows, the branches, the clients and what the
processors know of commits are free, the failure row is not touched. -/
def Outside (failureId : String) (w w' : World Repository) : Prop :=
  w'.failures failureId = w.failures failureId

/-- No await is cancelled, and acknowledgements succeed: one that is sent finds
its row and is answered, and a call that holds a row can send it. -/
structure Undisturbed (P : Contenders Repository) (l : Label (learning Repository)) : Prop where
  uncancelled : ∀ i op e, l = .resume i op (.error e) → e.isException = true
  answered : ∀ i op e, l = .resume i op (.error e) → acknowledged op = none
  finds : ∀ i op r update, l = .resume i op r → acknowledged op ≠ none →
    op.update = some update → update.selects P.state = true
  connected : ∀ i op r, l = .resume i op r → ((P.record i).after op r).held ≠ none →
    P.state.clientSet = true

abbrev ContenderStep (failureId : String) (P : Contenders Repository)
    (l : Label (learning Repository)) (P' : Contenders Repository) : Prop :=
  Step Spawned Mode.after AtomicStep (Outside failureId) P l P' ∧ Undisturbed P l

def Ingesting (w : World Repository) (failureId : String) : Prop :=
  ∃ columns, w.failures failureId = some columns ∧ columns.status = some "ingesting"

def HoldsRow (m : Mode) (failureId : String) : Prop :=
  ∃ resolutionId, m.held = some ⟨failureId, resolutionId⟩

/-- The call is in flight between its claim of the row and the acknowledgement. -/
def Holds (P : Contenders Repository) (failureId : String) (i : ℕ) : Prop :=
  (∃ p, P.task i = some p ∧ ¬ Finished p) ∧ HoldsRow (P.record i) failureId

end Steps

section Updates

variable {Repository : Type} {w w' : World Repository} {m : Mode} {failureId : String}

/-- What an answered operation does to the row and to who holds it. -/
inductive RowStep (failureId : String) (m : Mode) (w : World Repository) (op : Op) (m' : Mode)
    (w' : World Repository) : Prop
  | kept : w'.failures failureId = w.failures failureId →
      (HoldsRow m' failureId ↔ HoldsRow m failureId) → RowStep failureId m w op m' w'
  | claimed (columns : MemoryColumns) (status : String) :
      w.failures failureId = some columns → columns.status = some status →
      status ∈ claimableStatuses → ¬ HoldsRow m failureId → Ingesting w' failureId →
      HoldsRow m' failureId → RowStep failureId m w op m' w'
  | released : acknowledged op = some failureId → HoldsRow m failureId →
      Ingesting w failureId → ¬ Ingesting w' failureId → ¬ HoldsRow m' failureId →
      RowStep failureId m w op m' w'
  | refreshed (columns : MemoryColumns) (row : Fields) :
      w.failures failureId = some columns → columns.status = some "ingested" →
      m.read = some (failureId, row) →
      normalizedText (Fields.get row "memory_status") = "ingested" →
      columns.commitSha = memoryAckCommit (some row) → ¬ Ingesting w' failureId →
      (HoldsRow m' failureId ↔ HoldsRow m failureId) → RowStep failureId m w op m' w'

theorem not_ingesting {columns : MemoryColumns} (h : w.failures failureId = some columns)
    (hstatus : columns.status ≠ some "ingesting") : ¬ Ingesting w failureId := by
  intro hingesting
  obtain ⟨columns', hcolumns, hstatus'⟩ := hingesting
  rw [h, Option.some.injEq] at hcolumns
  subst hcolumns
  exact hstatus hstatus'

theorem ownedBy_iff {status resolutionId : String} {columns : MemoryColumns} :
    ownedBy status resolutionId columns = true ↔
      columns.status = some status ∧ columns.resolutionId = some resolutionId := by
  simp [ownedBy]

/-- A row an update selects is there and passes its filter. -/
theorem selects_iff {update : ColumnUpdate} : update.selects w = true ↔
    ∃ columns, w.failures update.failureId = some columns ∧ update.filter columns = true := by
  rw [ColumnUpdate.selects, Option.any_eq_true]

theorem run_selected {update : ColumnUpdate} (h : update.selects w = true) :
    (update.run w).failures update.failureId = some update.columns := by
  unfold ColumnUpdate.run
  rw [if_pos h]
  exact Function.update_self ..

theorem run_unselected {update : ColumnUpdate} (h : update.selects w ≠ true) :
    update.run w = w := by
  unfold ColumnUpdate.run
  rw [if_neg h]

theorem run_elsewhere {update : ColumnUpdate} (h : update.failureId ≠ failureId) :
    (update.run w).failures failureId = w.failures failureId := by
  rcases MemoryIngestion.run_failures update w failureId with hsame | ⟨heq, -, -⟩
  · exact hsame
  · exact absurd heq h

theorem AtomicStep.effect {op : Op} {a : op.Reply} (h : AtomicStep w op (.ok a) w') :
    w'.failures = (op.effect w).failures := by
  rcases h.columns with heffect | ⟨⟨e, he⟩, -⟩
  · exact heffect
  · cases he

theorem rowStep_claim {status resolutionId claimedId : String} {r : Except PyExc Bool}
    (henv : AtomicStep w (.claimMemory claimedId status resolutionId) r w')
    (hpermitted : Permitted m (.claimMemory claimedId status resolutionId)) :
    RowStep failureId m w (.claimMemory claimedId status resolutionId)
      (m.after (.claimMemory claimedId status resolutionId) r) w' := by
  obtain ⟨hnone, hstatus⟩ := hpermitted
  have hfree : ¬ HoldsRow m failureId := by
    intro hholds
    obtain ⟨rid, hheld⟩ := hholds
    rw [hnone] at hheld
    cases hheld
  cases r with
  | error e => exact .kept (by rw [henv.failed e rfl]) Iff.rfl
  | ok updated =>
    have heffect : w'.failures = (ColumnUpdate.run ⟨claimedId, ownedBy status resolutionId,
        ⟨some "ingesting", some resolutionId, none⟩⟩ w).failures := henv.effect
    have htruth : updated = (w.failures claimedId).any (ownedBy status resolutionId) :=
      henv.truthful
    cases updated with
    | false =>
      have hunselected : ColumnUpdate.selects ⟨claimedId, ownedBy status resolutionId,
          ⟨some "ingesting", some resolutionId, none⟩⟩ w ≠ true := by
        rw [ColumnUpdate.selects, ← htruth]
        decide
      rw [run_unselected hunselected] at heffect
      exact .kept (by rw [heffect]) Iff.rfl
    | true =>
      by_cases hid : claimedId = failureId
      · subst hid
        have hselects : ColumnUpdate.selects ⟨claimedId, ownedBy status resolutionId,
          ⟨some "ingesting", some resolutionId, none⟩⟩ w = true := htruth.symm
        obtain ⟨columns, hcolumns, hfilter⟩ := selects_iff.mp hselects
        have hwritten := run_selected hselects
        rw [← heffect] at hwritten
        exact .claimed columns status hcolumns (ownedBy_iff.mp hfilter).1 hstatus hfree
          ⟨_, hwritten, rfl⟩ ⟨resolutionId, rfl⟩
      · refine .kept ?_ ⟨fun hholds => ?_, fun hholds => absurd hholds hfree⟩
        · rw [heffect]
          exact run_elsewhere hid
        · obtain ⟨rid, hheld⟩ := hholds
          cases hheld
          exact absurd rfl hid

/-- An acknowledgement finds the row of the claim, and takes it out of ingesting. -/
theorem rowStep_acknowledge {op : Op} {a : op.Reply} {claimedId resolutionId : String}
    {columns : MemoryColumns} (henv : AtomicStep w op (.ok a) w')
    (hack : acknowledged op = some claimedId)
    (hheld : ∃ rid, m.held = some ⟨claimedId, rid⟩)
    (hupdate : op.update = some ⟨claimedId, ownedBy "ingesting" resolutionId, columns⟩)
    (hstatus : columns.status ≠ some "ingesting")
    (hselects : ColumnUpdate.selects ⟨claimedId, ownedBy "ingesting" resolutionId, columns⟩ w =
      true)
    (hafter : (m.after op (.ok a)).held = none) :
    RowStep failureId m w op (m.after op (.ok a)) w' := by
  have heffect : w'.failures = (ColumnUpdate.run
      ⟨claimedId, ownedBy "ingesting" resolutionId, columns⟩ w).failures := by
    rw [henv.effect, Op.effect, hupdate]
  have hfree : ¬ HoldsRow (m.after op (.ok a)) failureId := by
    intro hholds
    obtain ⟨rid, hheld⟩ := hholds
    rw [hafter] at hheld
    cases hheld
  by_cases hid : claimedId = failureId
  · subst hid
    obtain ⟨columns', hcolumns, hfilter⟩ := selects_iff.mp hselects
    have hwritten := run_selected hselects
    rw [← heffect] at hwritten
    exact .released hack hheld ⟨columns', hcolumns, (ownedBy_iff.mp hfilter).1⟩
      (not_ingesting hwritten hstatus) hfree
  · refine .kept ?_ ⟨fun hholds => absurd hholds hfree, fun hholds => ?_⟩
    · rw [heffect]
      exact run_elsewhere hid
    · obtain ⟨rid, hother⟩ := hholds
      obtain ⟨rid', hsame⟩ := hheld
      rw [hsame] at hother
      cases hother
      exact absurd rfl hid

theorem rowStep_refresh {refreshedId resolutionId commitSha : String} {expected : Option String}
    {r : Except PyExc Bool}
    (henv : AtomicStep w (.refreshMemoryIngested refreshedId resolutionId commitSha expected) r w')
    (hpermitted : Permitted m (.refreshMemoryIngested refreshedId resolutionId commitSha expected)) :
    RowStep failureId m w (.refreshMemoryIngested refreshedId resolutionId commitSha expected)
      (m.after (.refreshMemoryIngested refreshedId resolutionId commitSha expected) r) w' := by
  obtain ⟨row, hread, hack, rfl⟩ := hpermitted
  have hingested : normalizedText (Fields.get row "memory_status") = "ingested" := by
    rw [isIngestedMemoryAck, Bool.and_eq_true] at hack
    exact of_decide_eq_true hack.1
  have hsame : (m.after (.refreshMemoryIngested refreshedId resolutionId commitSha
      (memoryAckCommit (some row))) r) = m := by
    cases r <;> rfl
  rw [hsame]
  cases r with
  | error e => exact .kept (by rw [henv.failed e rfl]) Iff.rfl
  | ok updated =>
    have heffect := henv.effect
    by_cases hselects : ColumnUpdate.selects ⟨refreshedId, fun columns =>
        ownedBy "ingested" resolutionId columns &&
          columns.commitSha = memoryAckCommit (some row),
        ⟨some "ingested", some resolutionId, some commitSha⟩⟩ w = true
    · by_cases hid : refreshedId = failureId
      · subst hid
        obtain ⟨columns, hcolumns, hfilter⟩ := selects_iff.mp hselects
        rw [Bool.and_eq_true, ownedBy_iff, decide_eq_true_eq] at hfilter
        have hwritten := run_selected hselects
        have hstored : w'.failures refreshedId = _ := (congrFun heffect refreshedId).trans hwritten
        exact .refreshed columns row hcolumns hfilter.1.1 hread hingested hfilter.2
          (not_ingesting hstored (by simp)) Iff.rfl
      · refine .kept ?_ Iff.rfl
        rw [heffect]
        exact run_elsewhere hid
    · refine .kept ?_ Iff.rfl
      rw [heffect]
      exact congrArg (fun w : World Repository => w.failures failureId) (run_unselected hselects)

/-- What one answered operation of a contender does to the row. -/
theorem rowStep {op : Op} {r : Except PyExc op.Reply} (henv : AtomicStep w op r w')
    (hpermitted : Permitted m op) (hanswered : acknowledged op ≠ none → ∃ a, r = .ok a)
    (hfinds : ∀ update, acknowledged op ≠ none → op.update = some update →
      update.selects w = true) :
    RowStep failureId m w op (m.after op r) w' := by
  have hquiet : op.update = none → (m.after op r).held = m.held →
      RowStep failureId m w op (m.after op r) w' := by
    intro hread hheld
    refine .kept ?_ (by rw [HoldsRow, hheld, HoldsRow])
    rcases henv.columns with heffect | ⟨-, hsame⟩
    · rw [heffect, Op.effect, hread]
    · rw [hsame]
  cases op with
  | claimMemory claimedId status resolutionId => exact rowStep_claim henv hpermitted
  | markMemoryIngested claimedId resolutionId commitSha =>
    obtain ⟨a, rfl⟩ := hanswered (by simp [acknowledged])
    exact rowStep_acknowledge henv rfl hpermitted rfl (by simp)
      (hfinds _ (by simp [acknowledged]) rfl) rfl
  | markMemoryFailed claimedId resolutionId =>
    obtain ⟨a, rfl⟩ := hanswered (by simp [acknowledged])
    exact rowStep_acknowledge henv rfl hpermitted rfl (by simp)
      (hfinds _ (by simp [acknowledged]) rfl) rfl
  | refreshMemoryIngested refreshedId resolutionId commitSha expected =>
    exact rowStep_refresh henv hpermitted
  | fetchFailure id =>
    apply hquiet rfl
    cases r with
    | error e => rfl
    | ok found => cases found <;> rfl
  | _ => exact hquiet rfl rfl

/-- What a call has read of the row is what it had read, or the row as it is. -/
theorem read_after {op : Op} {r : Except PyExc op.Reply} {row : Fields}
    (henv : AtomicStep w op r w') (hread : (m.after op r).read = some (failureId, row)) :
    m.read = some (failureId, row) ∨
      ∃ columns, w'.failures failureId = some columns ∧ Shows row columns := by
  cases op with
  | fetchFailure id =>
    cases r with
    | error e => exact .inl hread
    | ok found =>
      cases found with
      | none => exact .inl hread
      | some row' =>
        cases hread
        obtain ⟨columns, hcolumns, hshows⟩ := henv.found
        have hsame : w'.failures = w.failures := henv.effect
        exact .inr ⟨columns, by rw [hsame, hcolumns], hshows⟩
  | claimMemory =>
    cases r with
    | error e => exact .inl hread
    | ok updated => cases updated <;> exact .inl hread
  | _ => exact .inl hread

end Updates

section Rows

variable {Repository : Type} {w w' : World Repository} {failureId : String}

/-- The commit of the row reads back as the one a refresh expects. -/
def ReadsBack (row : Fields) : Prop :=
  Fields.get row "memory_commit_sha" = optionalText (memoryAckCommit (some row))

/-- An ingested row that was read has a commit that reads back, or still stands as it was. -/
def Stable (w : World Repository) (failureId : String) (row : Fields) : Prop :=
  ReadsBack row ∨ ∃ columns, w.failures failureId = some columns ∧ Shows row columns

/-- A row at ingesting is held by exactly one call, and every ingested row that
was read is stable. -/
structure RowOwned (failureId : String) (record : ℕ → Mode) (w : World Repository) : Prop where
  held : ∀ i, HoldsRow (record i) failureId → Ingesting w failureId
  single : ∀ i j, HoldsRow (record i) failureId → HoldsRow (record j) failureId → i = j
  owner : Ingesting w failureId → ∃ i, HoldsRow (record i) failureId
  stable : ∀ i row, (record i).read = some (failureId, row) →
    normalizedText (Fields.get row "memory_status") = "ingested" → Stable w failureId row

theorem readsBack_congr {row row' : Fields}
    (h : Fields.get row "memory_commit_sha" = Fields.get row' "memory_commit_sha")
    (hreads : ReadsBack row') : ReadsBack row := by
  have hack : memoryAckCommit (some row) = memoryAckCommit (some row') := by
    show safeIdentifier _ = safeIdentifier _
    rw [h]
  unfold ReadsBack
  rw [hack, h]
  exact hreads

/-- A refresh that selects the row replaces the commit its caller read. -/
theorem Stable.replaces {row : Fields} {columns : MemoryColumns} (h : Stable w failureId row)
    (hcolumns : w.failures failureId = some columns)
    (hexpected : columns.commitSha = memoryAckCommit (some row)) :
    Fields.get row "memory_commit_sha" = optionalText columns.commitSha := by
  rcases h with hreads | ⟨columns', hcolumns', hshows⟩
  · rw [hexpected]
    exact hreads
  · rw [hcolumns, Option.some.injEq] at hcolumns'
    subst hcolumns'
    exact hshows.commitSha

/-- A row that shows a claimable or ingesting status was not read as ingested. -/
theorem Shows.not_ingested {row : Fields} {columns : MemoryColumns} {status : String}
    (h : Shows row columns) (hstatus : columns.status = some status)
    (hnormal : normalizedText (.str status) ≠ "ingested") :
    normalizedText (Fields.get row "memory_status") ≠ "ingested" := by
  rw [h.status, hstatus]
  exact hnormal

theorem claimable_not_ingested {status : String} (h : status ∈ claimableStatuses) :
    normalizedText (.str status) ≠ "ingested" := by
  revert status
  decide +kernel

theorem ingesting_not_ingested : normalizedText (.str "ingesting") ≠ "ingested" := by
  decide +kernel

variable {record : ℕ → Mode} {m' : Mode} {op : Op} {i : ℕ}

theorem ingesting_congr (h : w'.failures failureId = w.failures failureId) :
    Ingesting w' failureId ↔ Ingesting w failureId := by
  unfold Ingesting
  rw [h]

theorem stable_congr {row : Fields} (h : w'.failures failureId = w.failures failureId) :
    Stable w' failureId row ↔ Stable w failureId row := by
  unfold Stable
  rw [h]

theorem RowOwned.congr (h : RowOwned failureId record w)
    (hsame : w'.failures failureId = w.failures failureId) : RowOwned failureId record w' := by
  refine ⟨fun i hi => ?_, h.single, fun hingesting => ?_, fun i row hread hstatus => ?_⟩
  · exact (ingesting_congr hsame).mpr (h.held i hi)
  · exact h.owner ((ingesting_congr hsame).mp hingesting)
  · exact (stable_congr hsame).mpr (h.stable i row hread hstatus)

/-- A row that was read before the step is stable after it. -/
theorem RowOwned.stable_step {j : ℕ} {row : Fields} (h : RowOwned failureId record w)
    (hstep : RowStep failureId (record i) w op m' w')
    (hread : (record j).read = some (failureId, row))
    (hstatus : normalizedText (Fields.get row "memory_status") = "ingested") :
    Stable w' failureId row := by
  have hbefore := h.stable j row hread hstatus
  have hleft : (∀ columns, w.failures failureId = some columns → ¬ Shows row columns) →
      Stable w' failureId row := by
    intro hchanged
    rcases hbefore with hreads | ⟨columns, hcolumns, hshows⟩
    · exact .inl hreads
    · exact absurd hshows (hchanged columns hcolumns)
  cases hstep with
  | kept hsame => exact (stable_congr hsame).mpr hbefore
  | claimed columns status hcolumns hclaimable hmem =>
    refine hleft fun columns' hcolumns' hshows => ?_
    rw [hcolumns, Option.some.injEq] at hcolumns'
    subst hcolumns'
    exact hshows.not_ingested hclaimable (claimable_not_ingested hmem) hstatus
  | released _ _ hingesting =>
    refine hleft fun columns' hcolumns' hshows => ?_
    obtain ⟨columns, hcolumns, hcurrent⟩ := hingesting
    rw [hcolumns, Option.some.injEq] at hcolumns'
    subst hcolumns'
    exact hshows.not_ingested hcurrent ingesting_not_ingested hstatus
  | refreshed columns row' hcolumns _ hread' hstatus' hexpected =>
    -- the row has the commit the caller expects, and that one reads back
    have hreplaced := (h.stable i row' hread' hstatus').replaces hcolumns hexpected
    have hreads' : ReadsBack row' := by
      rw [ReadsBack, ← hexpected]
      exact hreplaced
    rcases hbefore with hreads | ⟨columns', hcolumns', hshows⟩
    · exact .inl hreads
    · rw [hcolumns, Option.some.injEq] at hcolumns'
      subst hcolumns'
      exact .inl (readsBack_congr (hshows.commitSha.trans hreplaced.symm) hreads')

/-- One answered operation keeps the row owned. -/
theorem RowOwned.step (h : RowOwned failureId record w)
    (hstep : RowStep failureId (record i) w op m' w')
    (hread : ∀ row, m'.read = some (failureId, row) →
      (record i).read = some (failureId, row) ∨
        ∃ columns, w'.failures failureId = some columns ∧ Shows row columns) :
    RowOwned failureId (Function.update record i m') w' := by
  have hother : ∀ j, j ≠ i → Function.update record i m' j = record j :=
    fun j hj => Function.update_of_ne hj ..
  have hself : Function.update record i m' i = m' := Function.update_self ..
  have hstable : ∀ j row, (Function.update record i m' j).read = some (failureId, row) →
      normalizedText (Fields.get row "memory_status") = "ingested" → Stable w' failureId row := by
    intro j row hrow hstatus
    by_cases hj : j = i
    · subst hj
      rw [hself] at hrow
      rcases hread row hrow with hold | hnow
      · exact h.stable_step hstep hold hstatus
      · exact .inr hnow
    · rw [hother j hj] at hrow
      exact h.stable_step hstep hrow hstatus
  have hsame : (HoldsRow m' failureId ↔ HoldsRow (record i) failureId) →
      ∀ j, HoldsRow (Function.update record i m' j) failureId ↔ HoldsRow (record j) failureId := by
    intro hiff j
    by_cases hj : j = i
    · subst hj
      rw [hself]
      exact hiff
    · rw [hother j hj]
  cases hstep with
  | kept hrow hiff =>
    have hholds := hsame hiff
    refine ⟨fun j hj => ?_, fun j k hj hk => ?_, fun hingesting => ?_, hstable⟩
    · exact (ingesting_congr hrow).mpr (h.held j ((hholds j).mp hj))
    · exact h.single j k ((hholds j).mp hj) ((hholds k).mp hk)
    · obtain ⟨j, hj⟩ := h.owner ((ingesting_congr hrow).mp hingesting)
      exact ⟨j, (hholds j).mpr hj⟩
  | claimed columns status hcolumns hclaimable hmem _ hingesting hholds =>
    have hfree : ∀ j, ¬ HoldsRow (record j) failureId := by
      intro j hj
      refine absurd (h.held j hj) (not_ingesting hcolumns ?_)
      rw [hclaimable]
      intro heq
      rw [Option.some.inj heq] at hmem
      revert hmem
      decide
    have honly : ∀ j, HoldsRow (Function.update record i m' j) failureId → j = i := by
      intro j hj
      by_contra hne
      rw [hother j hne] at hj
      exact hfree j hj
    refine ⟨fun _ _ => hingesting, fun j k hj hk => ?_, fun _ => ⟨i, ?_⟩, hstable⟩
    · rw [honly j hj, honly k hk]
    · rw [hself]
      exact hholds
  | released _ hholds _ hleft hfree =>
    have hnone : ∀ j, ¬ HoldsRow (Function.update record i m' j) failureId := by
      intro j hj
      by_cases hji : j = i
      · subst hji
        rw [hself] at hj
        exact hfree hj
      · rw [hother j hji] at hj
        exact hji (h.single j i hj hholds)
    exact ⟨fun j hj => absurd hj (hnone j), fun j _ hj => absurd hj (hnone j),
      fun hingesting => absurd hingesting hleft, hstable⟩
  | refreshed columns row hcolumns hstatus _ _ _ hleft hiff =>
    have hnone : ∀ j, ¬ HoldsRow (Function.update record i m' j) failureId := by
      intro j hj
      refine absurd (h.held j ((hsame hiff j).mp hj)) (not_ingesting hcolumns ?_)
      rw [hstatus]
      simp
    exact ⟨fun j hj => absurd hj (hnone j), fun j _ hj => absurd hj (hnone j),
      fun hingesting => absurd hingesting hleft, hstable⟩

end Rows

section Interleaving

variable {Repository : Type} {P P' : Contenders Repository} {l : Label (learning Repository)}
variable {failureId : String} {w : World Repository} {t : List (Label (learning Repository))}

/-- What holds between steps: every call contends as it may, and the row is owned
by the call that holds it. -/
structure Exclusive (failureId : String) (P : Contenders Repository) : Prop where
  obeys : ∀ i p, P.task i = some p → Settled p ∧
    Obeys (contention Repository) (Ends Repository _) p (P.record i) P.state
  idle : ∀ i, P.task i = none → P.record i = Mode.idle
  owned : RowOwned failureId P.record P.state

theorem Exclusive.resettled {i : ℕ} {p : Learning Repository (Option MemoryWriteResult)}
    (h : Exclusive failureId P) (hp : P.task i = some p) : Settled p ∧
      Obeys (contention Repository) (Ends Repository _) p (P.record i) w := by
  obtain ⟨hsettled, hobeys⟩ := h.obeys i p hp
  exact ⟨hsettled, hobeys.elsewhere hsettled (fun _ hpermitted => hpermitted)
    fun _ hends => hends⟩

/-- What a segment of a call leaves of the shared state. -/
theorem acts_contention {m m' : Mode} {w' : World Repository}
    (h : Acts (contention Repository) m w m' w') : m' = m ∧ w'.failures = w.failures := by
  refine h.preserves (I := fun (m' : Mode) (w' : World Repository) =>
    m' = m ∧ w'.failures = w.failures) ⟨rfl, rfl⟩ ?_
  intro m₁ w₁ m₂ w₂ hbefore hact
  exact ⟨hact.1.trans hbefore.1, hact.2.1.trans hbefore.2⟩

/-- A call that runs to its next await goes on contending. -/
theorem Exclusive.run {i : ℕ} {p : Learning Repository (Option MemoryWriteResult)} {m : Mode}
    (h : Exclusive failureId P)
    (hp : Obeys (contention Repository) (Ends Repository _) p m w)
    (howned : RowOwned failureId (Function.update P.record i m) w) :
    Exclusive failureId (P.run i p m w) := by
  obtain ⟨m', hacts, hobeys⟩ := hp.advance
  obtain ⟨rfl, hfailures⟩ := acts_contention hacts
  refine ⟨fun j q hq => ?_, fun j hj => ?_, howned.congr (by rw [run_state, hfailures])⟩
  · by_cases hij : j = i
    · subst hij
      rw [run_task_self, Option.some.injEq] at hq
      subst hq
      rw [run_record_self]
      exact ⟨advance_settled p w, hobeys⟩
    · rw [run_task_other hij] at hq
      rw [run_record_other hij]
      exact h.resettled hq
  · by_cases hij : j = i
    · subst hij
      rw [run_task_self] at hj
      cases hj
    · rw [run_task_other hij] at hj
      rw [run_record_other hij]
      exact h.idle j hj

section Answers

variable {i : ℕ} {op : Op} {k : Except PyExc op.Reply → Learning Repository _}
variable {r : Except PyExc op.Reply} {w' : World Repository}

/-- An operation a call awaits, answered without disturbance, is a step of the row. -/
theorem Exclusive.rowStep (h : Exclusive failureId P) (htask : P.task i = some (.await op k))
    (henv : AtomicStep P.state op r w') (hquiet : Undisturbed P (.resume i op r)) :
    RowStep failureId (P.record i) P.state op ((P.record i).after op r) w' := by
  refine ExclusiveIngestion.rowStep henv (h.obeys i _ htask).2.1 (fun hack => ?_)
    fun update hack hupdate => hquiet.finds i op r update rfl hack hupdate
  cases r with
  | ok a => exact ⟨a, rfl⟩
  | error e => exact absurd (hquiet.answered i op e rfl) hack

theorem Exclusive.answered (h : Exclusive failureId P) (htask : P.task i = some (.await op k))
    (henv : AtomicStep P.state op r w') (hquiet : Undisturbed P (.resume i op r)) :
    Obeys (contention Repository) (Ends Repository _) (k r) ((P.record i).after op r) w' := by
  refine (h.obeys i _ htask).2.2 r _ w' ⟨⟨fun e he => ?_, fun hack => ?_⟩, rfl⟩ fun hheld => ?_
  · exact hquiet.uncancelled i op e (by rw [he])
  · cases r with
    | ok a => exact ⟨a, rfl⟩
    | error e => exact absurd (hquiet.answered i op e rfl) hack
  · rw [henv.client]
    exact hquiet.connected i op r rfl hheld

/-- What the answered call leaves of the row is what the answer did to it. -/
theorem Exclusive.answered_failures (h : Exclusive failureId P)
    (htask : P.task i = some (.await op k)) (henv : AtomicStep P.state op r w')
    (hquiet : Undisturbed P (.resume i op r)) :
    (P.run i (k r) ((P.record i).after op r) w').state.failures = w'.failures := by
  obtain ⟨m', hacts, -⟩ := (h.answered htask henv hquiet).advance
  exact (acts_contention hacts).2

end Answers

/-- One step keeps the row exclusive. -/
theorem Exclusive.step (h : Exclusive failureId P) (hstep : ContenderStep failureId P l P') :
    Exclusive failureId P' := by
  obtain ⟨hstep, hquiet⟩ := hstep
  cases hstep with
  | @start i p m htask hspawn =>
    obtain ⟨⟨devMemoryStore, resolutionId, rfl⟩, rfl⟩ := hspawn
    refine h.run (obeys_learnResolution devMemoryStore resolutionId P.state) ?_
    rw [← h.idle i htask, Function.update_eq_self]
    exact h.owned
  | @resume i op k r w' htask henv =>
    refine h.run (h.answered htask henv hquiet) ?_
    exact h.owned.step (h.rowStep htask henv hquiet) fun row hread => read_after henv hread
  | outside houtside =>
    exact ⟨fun i p hp => h.resettled hp, h.idle, h.owned.congr houtside⟩

theorem exclusive_initial (hstart : ¬ Ingesting w failureId) :
    Exclusive failureId (Pool.initial w Mode.idle : Contenders Repository) := by
  have hfree : ∀ i, ¬ HoldsRow ((Pool.initial w Mode.idle : Contenders Repository).record i)
      failureId := fun i hi => (nomatch hi)
  refine ⟨fun i p hp => (nomatch hp), fun i _ => rfl, ⟨fun i hi => absurd hi (hfree i),
    fun i j hi => absurd hi (hfree i), fun hingesting => absurd hingesting hstart,
    fun i row hread => (nomatch hread)⟩⟩

theorem exclusive_run (hstart : ¬ Ingesting w failureId)
    (hrun : Run (ContenderStep failureId) (Pool.initial w Mode.idle) t P) :
    Exclusive failureId P :=
  hrun.preserves (exclusive_initial hstart) fun _ _ _ h hstep => h.step hstep

/-- A call that holds the row is in flight. -/
theorem Exclusive.holds_iff (h : Exclusive failureId P) {i : ℕ} :
    Holds P failureId i ↔ HoldsRow (P.record i) failureId := by
  refine ⟨fun hholds => hholds.2, fun hholds => ⟨?_, hholds⟩⟩
  obtain ⟨resolutionId, hheld⟩ := hholds
  cases htask : P.task i with
  | none =>
    rw [h.idle i htask] at hheld
    cases hheld
  | some p =>
    refine ⟨p, rfl, fun hfinished => ?_⟩
    have hobeys := (h.obeys i p htask).2
    have hnone : (P.record i).held = none := by
      cases p with
      | ret a => exact hobeys
      | raise e => exact hobeys
      | _ => exact hfinished.elim
    rw [hheld] at hnone
    cases hnone

/-- Only an acknowledgement of the call that holds the row takes it out of ingesting. -/
theorem Exclusive.released (h : Exclusive failureId P) (hstep : ContenderStep failureId P l P')
    (hbefore : Ingesting P.state failureId) (hafter : ¬ Ingesting P'.state failureId) :
    ∃ i op r, l = .resume i op r ∧ Holds P failureId i ∧ acknowledged op = some failureId := by
  obtain ⟨hstep, hquiet⟩ := hstep
  cases hstep with
  | @start i p m htask hspawn =>
    obtain ⟨⟨devMemoryStore, resolutionId, rfl⟩, rfl⟩ := hspawn
    obtain ⟨m', hacts, -⟩ := (obeys_learnResolution devMemoryStore resolutionId P.state).advance
    have hsame := congrFun (acts_contention hacts).2 failureId
    exact absurd ((ingesting_congr hsame).mpr hbefore) hafter
  | @resume i op k r w' htask henv =>
    have hsame := congrFun (h.answered_failures htask henv hquiet) failureId
    rw [ingesting_congr hsame] at hafter
    cases h.rowStep htask henv hquiet with
    | kept hrow => exact absurd ((ingesting_congr hrow).mpr hbefore) hafter
    | claimed _ _ _ _ _ _ hingesting => exact absurd hingesting hafter
    | released hack hholds => exact ⟨i, op, r, rfl, h.holds_iff.mpr hholds, hack⟩
    | refreshed columns _ hcolumns hstatus =>
      refine absurd hbefore (not_ingesting hcolumns ?_)
      rw [hstatus]
      simp
  | outside houtside => exact absurd ((ingesting_congr houtside).mpr hbefore) hafter

/-- A refresh that changes the row replaces the commit its caller read. -/
theorem Exclusive.refreshed {i : ℕ} {resolutionId commitSha : String} {expected : Option String}
    {r : Except PyExc Bool} (h : Exclusive failureId P)
    (hstep : ContenderStep failureId P
      (.resume i (.refreshMemoryIngested failureId resolutionId commitSha expected) r) P')
    (hchanged : P'.state.failures failureId ≠ P.state.failures failureId) :
    ∃ row columns, (P.record i).read = some (failureId, row) ∧
      P.state.failures failureId = some columns ∧
      Fields.get row "memory_commit_sha" = optionalText columns.commitSha := by
  obtain ⟨hstep, hquiet⟩ := hstep
  cases hstep with
  | @resume _ _ k _ w' htask henv =>
    have hsame := congrFun (h.answered_failures htask henv hquiet) failureId
    cases h.rowStep htask henv hquiet with
    | kept hrow => exact absurd (hsame.trans hrow) hchanged
    | claimed _ _ _ _ _ hfree _ hholds =>
      refine absurd ?_ hfree
      cases r <;> exact hholds
    | released hack => cases hack
    | refreshed columns row hcolumns _ hread hstatus hexpected =>
      exact ⟨row, columns, hread, hcolumns,
        (h.owned.stable i row hread hstatus).replaces hcolumns hexpected⟩

/-- One call at a time stands between its claim of the row and the acknowledgement,
the row is at ingesting exactly while one does, only that call lets it go, and a
refresh replaces no commit but the one its caller read. -/
theorem exclusive_ingestion (hstart : ¬ Ingesting w failureId)
    (hrun : Run (ContenderStep failureId) (Pool.initial w Mode.idle) t P) :
    (∀ i j, Holds P failureId i → Holds P failureId j → i = j) ∧
      (Ingesting P.state failureId ↔ ∃ i, Holds P failureId i) ∧
      (∀ l P', ContenderStep failureId P l P' → Ingesting P.state failureId →
        ¬ Ingesting P'.state failureId →
        ∃ i op r, l = .resume i op r ∧ Holds P failureId i ∧ acknowledged op = some failureId) ∧
      ∀ i resolutionId commitSha expected r P',
        ContenderStep failureId P
          (.resume i (.refreshMemoryIngested failureId resolutionId commitSha expected) r) P' →
        P'.state.failures failureId ≠ P.state.failures failureId →
        ∃ row columns, (P.record i).read = some (failureId, row) ∧
          P.state.failures failureId = some columns ∧
          Fields.get row "memory_commit_sha" = optionalText columns.commitSha := by
  have hexclusive := exclusive_run hstart hrun
  refine ⟨fun i j hi hj => ?_, ⟨fun hingesting => ?_, fun hholds => ?_⟩,
    fun l P' hstep => hexclusive.released hstep,
    fun i resolutionId commitSha expected r P' hstep => hexclusive.refreshed hstep⟩
  · exact hexclusive.owned.single i j hi.2 hj.2
  · obtain ⟨i, hi⟩ := hexclusive.owned.owner hingesting
    exact ⟨i, hexclusive.holds_iff.mpr hi⟩
  · obtain ⟨i, hi⟩ := hholds
    exact hexclusive.owned.held i hi.2

end Interleaving

section Samples

variable {Repository : Type} {w w' w'' : World Repository} {failureId : String}

structure At (P : Contenders Repository) (i : ℕ) (w : World Repository)
    (p : Learning Repository (Option MemoryWriteResult)) (m : Mode) : Prop where
  state : P.state = w
  task : P.task i = some p
  record : P.record i = m

structure Aside (i : ℕ) (P P' : Contenders Repository) : Prop where
  task : ∀ j, j ≠ i → P'.task j = P.task j
  record : ∀ j, j ≠ i → P'.record j = P.record j

variable {P P' P'' : Contenders Repository} {i j : ℕ} {m : Mode} {op : Op} {a : op.Reply}
variable {p q : Learning Repository (Option MemoryWriteResult)}
variable {k : Except PyExc op.Reply → Learning Repository (Option MemoryWriteResult)}

theorem aside_run : Aside i P (P.run i p m w) where
  task := fun _ => run_task_other
  record := fun _ => run_record_other

theorem Aside.trans (h : Aside i P P') (h' : Aside i P' P'') : Aside i P P'' where
  task := fun j hj => (h'.task j hj).trans (h.task j hj)
  record := fun j hj => (h'.record j hj).trans (h.record j hj)

theorem At.aside (h : At P j w p m) (haside : Aside i P P') (hij : j ≠ i)
    (hstate : P'.state = w') : At P' j w' p m where
  state := hstate
  task := (haside.task j hij).trans h.task
  record := (haside.record j hij).trans h.record

theorem At.started (failureId : String) {resolutionId : String} (hstate : P.state = w)
    (hfree : P.task i = none)
    (hadvance : advance (learnResolution true resolutionId) w = (w', q)) :
    ∃ P', ContenderStep failureId P (.start i) P' ∧ At P' i w' q .idle ∧ Aside i P P' := by
  refine ⟨_, ⟨.start hfree ⟨⟨true, resolutionId, rfl⟩, rfl⟩, ⟨?_, ?_, ?_, ?_⟩⟩,
    ⟨?_, ?_, run_record_self⟩, aside_run⟩
  · intro _ _ _ heq
    cases heq
  · intro _ _ _ heq
    cases heq
  · intro _ _ _ _ heq
    cases heq
  · intro _ _ _ heq
    cases heq
  · rw [run_state, hstate, hadvance]
  · rw [run_task_self, hstate, hadvance]

/-- The call is answered and runs to its next await. -/
theorem At.answered (failureId : String) (h : At P i w (.await op k) m)
    (henv : AtomicStep w op (.ok a) w') (hplain : acknowledged op = none)
    (hclient : w.clientSet = true) (hadvance : advance (k (.ok a)) w' = (w'', q)) :
    ∃ P', ContenderStep failureId P (.resume i op (.ok a)) P' ∧
      At P' i w'' q (m.after op (.ok a)) ∧ Aside i P P' := by
  have hstep := h.state ▸ henv
  refine ⟨_, ⟨Step.resume h.task hstep, ⟨fun i op' e heq => ?_, fun i op' e heq => ?_,
    fun i op' r' update heq hack => ?_, fun i op' r' heq _ => ?_⟩⟩, ⟨?_, ?_, ?_⟩, aside_run⟩
  · cases heq
  · cases heq
  · cases heq
    exact absurd hplain hack
  · rw [h.state]
    exact hclient
  · rw [run_state, hadvance]
  · rw [run_task_self, hadvance]
  · rw [run_record_self, h.record]

theorem atomicStep_read (hread : op.update = none)
    (htruthful : Truthful w op (.ok a)) (hfound : Found w op (.ok a)) :
    AtomicStep w op (.ok a) w :=
  ⟨MemoryIngestion.databaseStep_fetch hread htruthful, fun _ he => (nomatch he), hfound⟩

/-- A claim of a row that passes it. -/
theorem atomicStep_claim {status resolutionId : String} {columns : MemoryColumns}
    (hstored : w.failures failureId = some columns)
    (howned : ownedBy status resolutionId columns = true) :
    AtomicStep w (.claimMemory failureId status resolutionId) (.ok true)
      (MemoryIngestion.claimedWorld w failureId resolutionId) := by
  have hselects : ColumnUpdate.selects ⟨failureId, ownedBy status resolutionId,
      ⟨some "ingesting", some resolutionId, none⟩⟩ w = true :=
    selects_iff.mpr ⟨columns, hstored, howned⟩
  refine ⟨⟨.inl ?_, rfl, rfl, hselects.symm⟩, fun _ he => (by cases he), trivial⟩
  show _ = (ColumnUpdate.run _ w).failures
  unfold ColumnUpdate.run
  rw [if_pos hselects]
  rfl

/-- A claim of a row that does not pass it changes nothing. -/
theorem atomicStep_refused {status resolutionId : String}
    (howned : (w.failures failureId).any (ownedBy status resolutionId) = false) :
    AtomicStep w (.claimMemory failureId status resolutionId) (.ok false) w := by
  have hunselected : ColumnUpdate.selects ⟨failureId, ownedBy status resolutionId,
      ⟨some "ingesting", some resolutionId, none⟩⟩ w ≠ true := by
    rw [ColumnUpdate.selects, howned]
    decide
  refine ⟨⟨.inl ?_, rfl, rfl, howned.symm⟩, fun _ he => (by cases he), trivial⟩
  exact congrArg World.failures (run_unselected hunselected).symm

/-- A call that finds its row claimable comes to ask for it. -/
theorem asking_run (i : ℕ) {resolutionId : String} {row failure memory : Fields}
    {columns : MemoryColumns}
    (h : MemoryIngestion.ClaimableCall w resolutionId failureId row failure memory columns)
    (hshows : Shows failure columns) (hstate : P.state = w) (hfree : P.task i = none) :
    ∃ t P' k m k', Run (ContenderStep failureId) P t P' ∧ Aside i P P' ∧
      At P' i w (.await (.claimMemory failureId
        (normalizedText (Fields.get failure "memory_status")) resolutionId) k) m ∧
      advance (k (.ok true)) (MemoryIngestion.claimedWorld w failureId resolutionId) =
        (MemoryIngestion.claimedWorld w failureId resolutionId,
          .await (.fetchRobot (rowSysid memory)) k') := by
  have hclient : (MemoryIngestion.claimedWorld w failureId resolutionId).clientSet = true :=
    h.connected
  obtain ⟨k₁, hfetch, hrow⟩ :=
    MemoryIngestion.advance_learnResolution resolutionId row true h.connected
  obtain ⟨k₂, hlink, hfailure⟩ := MemoryIngestion.advance_learnRow resolutionId failure true
    h.connected h.positive h.failureId
  obtain ⟨k₃, hclaim, hclaimed⟩ := MemoryIngestion.advance_claim failureId
    (fun acknowledgement => ingestClaimed
      ⟨resolutionId, row, some failureId, some failure, acknowledgement⟩ true)
    h.connected h.linked rfl h.claimable
  obtain ⟨k₄, hrobot, -⟩ :=
    MemoryIngestion.advance_ingestClaimed resolutionId failureId hclient h.prepared h.robot
  have hfetched : AtomicStep w (.fetchResolution resolutionId) (.ok (some row)) w :=
    atomicStep_read rfl h.fetched trivial
  have hread : AtomicStep w (.fetchFailure failureId) (.ok (some failure)) w :=
    atomicStep_read rfl trivial ⟨columns, h.stored, hshows⟩
  obtain ⟨P₁, hstep₁, hat₁, haside₁⟩ := At.started failureId hstate hfree hfetch
  obtain ⟨P₂, hstep₂, hat₂, haside₂⟩ :=
    hat₁.answered failureId hfetched rfl h.connected (hrow ▸ hlink)
  obtain ⟨P₃, hstep₃, hat₃, haside₃⟩ :=
    hat₂.answered failureId hread rfl h.connected (hfailure ▸ hclaim)
  have hempty : Run (ContenderStep failureId) P [] P := .start
  exact ⟨_, P₃, k₃, _, k₄, ((hempty.next hstep₁).next hstep₂).next hstep₃,
    (haside₁.trans haside₂).trans haside₃, hat₃, hclaimed ▸ hrobot⟩

/-- Two calls find the sample row claimable. The first to ask holds it, and the claim of
the other is refused. -/
theorem exclusive_sample : ∃ t P,
    Run (ContenderStep "failure-1") (Pool.initial MemoryIngestion.samplePending Mode.idle) t P ∧
      .resume 1 (.claimMemory "failure-1" "pending" MemoryIngestion.sampleId) (.ok false) ∈ t ∧
      Holds P "failure-1" 0 ∧ Ingesting P.state "failure-1" ∧
      ∀ i, Holds P "failure-1" i → i = 0 := by
  obtain ⟨memory, hcall⟩ := MemoryIngestion.sampleCall
  have hstatus : normalizedText (Fields.get MemoryIngestion.sampleFailure "memory_status") =
      "pending" := by
    decide +kernel
  have hshows : Shows MemoryIngestion.sampleFailure
      ⟨some "pending", some MemoryIngestion.sampleId, none⟩ := by
    constructor <;> rfl
  have hstart : ¬ Ingesting MemoryIngestion.samplePending "failure-1" :=
    not_ingesting hcall.stored (by simp)
  obtain ⟨t, P, k, m, k', hrun, haside, hat, hclaimed⟩ :=
    asking_run (P := Pool.initial MemoryIngestion.samplePending Mode.idle) 0 hcall hshows rfl rfl
  have hfree : P.task 1 = none := haside.task 1 one_ne_zero
  obtain ⟨t', P', l, m', l', hrun', haside', hat', -⟩ := asking_run 1 hcall hshows hat.state hfree
  rw [hstatus] at hat hat'
  obtain ⟨P₁, hstep₁, hat₁, haside₁⟩ := (hat.aside haside' zero_ne_one hat'.state).answered
    "failure-1" (atomicStep_claim hcall.stored (hstatus ▸ hcall.owned)) rfl hcall.connected hclaimed
  have hother := hat'.aside haside₁ one_ne_zero hat₁.state
  obtain ⟨P₂, hstep₂, hat₂, haside₂⟩ := hother.answered "failure-1"
    (atomicStep_refused (by decide +kernel)) rfl hcall.connected rfl
  have hall := ((hrun.append hrun').next hstep₁).next hstep₂
  have hholds : HoldsRow (P₂.record 0) "failure-1" := by
    rw [haside₂.record 0 zero_ne_one, hat₁.record]
    exact ⟨MemoryIngestion.sampleId, rfl⟩
  have hflight : Holds P₂ "failure-1" 0 := (exclusive_run hstart hall).holds_iff.mpr hholds
  obtain ⟨hsingle, hiff, -⟩ := exclusive_ingestion hstart hall
  exact ⟨_, P₂, hall, by simp, hflight, hiff.mpr ⟨0, hflight⟩,
    fun i hi => hsingle i 0 hi hflight⟩

end Samples

end FailureResolver.ExclusiveIngestion
