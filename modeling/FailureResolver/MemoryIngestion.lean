import FailureResolver.IngestionDiscipline

/-!
Many calls of `learnResolution` over the rows of one database. As long as no
claimed call is cancelled before it acknowledges, and no claim takes effect and
is reported as an error, a row stands at ingesting only while the call that
claimed it is in flight; a cancelled call leaves it there for good.
-/

namespace FailureResolver.MemoryIngestion

open IngestionDiscipline JsonValue LearnResolution Program PyException PyText
open ResolutionEpisode ResolutionMemory RowText TaskPool Transitions

section Calls

variable {Repository : Type}

abbrev Calls (Repository : Type) :=
  Pool (learning Repository) (Option MemoryWriteResult) (Option Claim)

def Spawned (devMemoryStore : Bool) (p : Learning Repository (Option MemoryWriteResult))
    (owed : Option Claim) : Prop :=
  (∃ resolutionId, p = learnResolution devMemoryStore resolutionId) ∧ owed = none

/-- What the rest of the service does: connect and disconnect, change the
branches, and make rows pending. -/
def Outside (w w' : World Repository) : Prop :=
  ∀ failureId, w'.failures failureId = w.failures failureId ∨
    ∃ columns, w'.failures failureId = some columns ∧ columns.status = some "pending"

abbrev CallStep (devMemoryStore : Bool) :
    Calls Repository → Label (learning Repository) → Calls Repository → Prop :=
  Step (Spawned devMemoryStore) owes DatabaseStep Outside

end Calls

section Interleaving

variable {Repository : Type} {P P' : Calls Repository} {l : Label (learning Repository)}
variable {devMemoryStore : Bool}

/-- An acknowledgement that is sent is recorded, and can be sent: a call that
owes one finds the client connected. -/
structure AcknowledgementsSucceed (P : Calls Repository) (l : Label (learning Repository))
    (P' : Calls Repository) : Prop where
  recorded : ∀ i op r claim, l = .resume i op r → P.record i = some claim →
    acknowledges claim op = true → P'.state.failures = (op.effect P.state).failures
  connected : ∀ i op r, l = .resume i op r → owes (P.record i) op r ≠ none →
    P.state.clientSet = true

/-- The step loses no claim: a call that owes an acknowledgement is cancelled only
while it sends it, a claim that took effect is not reported as an error, and
claims are made under canonical ids. -/
structure KeepsClaims (P : Calls Repository) (l : Label (learning Repository))
    (P' : Calls Repository) : Prop where
  undisturbed : ∀ i op r, l = .resume i op r → Undisturbed (P.record i) op r
  reported : ∀ i failureId status resolutionId e,
    l = .resume i (.claimMemory failureId status resolutionId) (.error e) →
      P'.state.failures = P.state.failures

/-- The failure row is being ingested by a call in flight that has claimed it. -/
def Ingesting (P : Calls Repository) (failureId : String) : Prop :=
  ∃ i p resolutionId, P.task i = some p ∧ ¬ Finished p ∧
    P.record i = some ⟨failureId, resolutionId⟩

def trackedStatuses : List (Option String) :=
  [some "pending", some "failed", some "ingesting", some "ingested"]

/-- What holds between steps: every call keeps to the discipline, and a row at
ingesting is owed by a call that has claimed it. -/
structure Owned (P : Calls Repository) : Prop where
  obeys : ∀ i p, P.task i = some p → Settled p ∧
    Obeys (ingestion Repository) (Ends Repository) p (P.record i) P.state
  idle : ∀ i, P.task i = none → P.record i = none
  owner : ∀ failureId columns, P.state.failures failureId = some columns →
    columns.status = some "ingesting" →
      ∃ i resolutionId, columns.resolutionId = some resolutionId ∧
        P.record i = some ⟨failureId, resolutionId⟩

theorem Owned.resettled {i : ℕ} {p : Learning Repository (Option MemoryWriteResult)}
    {w : World Repository} (h : Owned P) (hp : P.task i = some p) :
    Settled p ∧ Obeys (ingestion Repository) (Ends Repository) p (P.record i) w := by
  obtain ⟨hsettled, hobeys⟩ := h.obeys i p hp
  exact ⟨hsettled, hobeys.elsewhere hsettled (fun _ hclaim => hclaim) fun _ hends => hends⟩

/-- What a segment of a call leaves of the shared state. -/
theorem acts_ingestion {owed owed' : Option Claim} {w w' : World Repository}
    (h : Acts (ingestion Repository) owed w owed' w') :
    owed' = owed ∧ w'.failures = w.failures ∧ w'.clientSet = w.clientSet := by
  refine h.preserves (I := fun (owed' : Option Claim) (w' : World Repository) =>
    owed' = owed ∧ w'.failures = w.failures ∧ w'.clientSet = w.clientSet) ⟨rfl, rfl, rfl⟩ ?_
  intro owed₁ w₁ owed₂ w₂ hbefore hact
  exact ⟨hact.1.trans hbefore.1, hact.2.1.trans hbefore.2.1, hact.2.2.trans hbefore.2.2⟩

/-- A call that runs to its next await keeps to the discipline there. -/
theorem Owned.run {i : ℕ} {p : Learning Repository (Option MemoryWriteResult)}
    {owed : Option Claim} {w : World Repository} (h : Owned P)
    (hp : Obeys (ingestion Repository) (Ends Repository) p owed w)
    (howner : ∀ failureId columns, w.failures failureId = some columns →
      columns.status = some "ingesting" →
        ∃ j resolutionId, columns.resolutionId = some resolutionId ∧
          Function.update P.record i owed j = some ⟨failureId, resolutionId⟩) :
    Owned (P.run i p owed w) := by
  obtain ⟨owed', hacts, hobeys⟩ := hp.advance
  obtain ⟨rfl, hfailures, -⟩ := acts_ingestion hacts
  refine ⟨fun j q hq => ?_, fun j hj => ?_, fun failureId columns hcolumns hstatus => ?_⟩
  · by_cases hij : j = i
    · subst hij
      rw [run_task_self, Option.some.injEq] at hq
      subst hq
      rw [run_record_self]
      exact ⟨advance_settled p w, hobeys⟩
    · rw [run_task_other hij] at hq
      rw [run_record_other hij]
      exact h.resettled hq
  · by_cases hij : j = i
    · subst hij
      rw [run_task_self] at hj
      cases hj
    · rw [run_task_other hij] at hj
      rw [run_record_other hij]
      exact h.idle j hj
  · rw [run_state, hfailures] at hcolumns
    exact howner failureId columns hcolumns hstatus

/-- The row an update selects is the only one it changes. -/
theorem run_failures (update : ColumnUpdate) (w : World Repository) (failureId : String) :
    (update.run w).failures failureId = w.failures failureId ∨
      update.failureId = failureId ∧ (w.failures failureId).any update.filter = true ∧
        (update.run w).failures failureId = some update.columns := by
  unfold ColumnUpdate.run
  by_cases hselects : update.selects w = true
  · rw [if_pos hselects]
    by_cases hid : failureId = update.failureId
    · subst hid
      exact .inr ⟨rfl, hselects, Function.update_self ..⟩
    · exact .inl (Function.update_of_ne hid ..)
  · rw [if_neg hselects]
    exact .inl rfl

/-- An operation leaves the columns of a row alone or writes them: a claim sets
the row to ingesting, the others take it to a status that is not. -/
theorem effect_failures (op : Op) (w : World Repository) (failureId : String) :
    (op.effect w).failures failureId = w.failures failureId ∨
      (∃ status resolutionId, op = .claimMemory failureId status resolutionId ∧
        (op.effect w).failures failureId =
          some ⟨some "ingesting", some resolutionId, none⟩ ∧
        (w.failures failureId).any (ownedBy status resolutionId) = true) ∨
      ∃ columns, (op.effect w).failures failureId = some columns ∧
        (columns.status = some "ingested" ∨ columns.status = some "failed") := by
  unfold Op.effect
  cases op with
  | claimMemory claimedId status resolutionId =>
    rcases run_failures ⟨claimedId, ownedBy status resolutionId,
      ⟨some "ingesting", some resolutionId, none⟩⟩ w failureId with hsame | ⟨rfl, hrow, hnew⟩
    · exact .inl hsame
    · exact .inr (.inl ⟨status, resolutionId, rfl, hnew, hrow⟩)
  | markMemoryIngested claimedId resolutionId commitSha =>
    rcases run_failures ⟨claimedId, ownedBy "ingesting" resolutionId,
      ⟨some "ingested", some resolutionId, commitSha⟩⟩ w failureId with hsame | ⟨-, -, hnew⟩
    · exact .inl hsame
    · exact .inr (.inr ⟨_, hnew, .inl rfl⟩)
  | refreshMemoryIngested claimedId resolutionId commitSha expected =>
    rcases run_failures ⟨claimedId, fun columns => ownedBy "ingested" resolutionId columns &&
      columns.commitSha = expected, ⟨some "ingested", some resolutionId, some commitSha⟩⟩ w
      failureId with hsame | ⟨-, -, hnew⟩
    · exact .inl hsame
    · exact .inr (.inr ⟨_, hnew, .inl rfl⟩)
  | markMemoryFailed claimedId resolutionId =>
    rcases run_failures ⟨claimedId, ownedBy "ingesting" resolutionId,
      ⟨some "failed", some resolutionId, none⟩⟩ w failureId with hsame | ⟨-, -, hnew⟩
    · exact .inl hsame
    · exact .inr (.inr ⟨_, hnew, .inr rfl⟩)
  | _ => exact .inl rfl

/-- An acknowledgement of the claim a row is owned by takes it out of ingesting. -/
theorem acknowledged_status {claim : Claim} {op : Op} {w : World Repository}
    {columns : MemoryColumns} (hack : acknowledges claim op = true)
    (hcolumns : w.failures claim.failureId = some columns)
    (hstatus : columns.status = some "ingesting")
    (hresolution : columns.resolutionId = some claim.resolutionId) :
    ∃ columns', (op.effect w).failures claim.failureId = some columns' ∧
      columns'.status ≠ some "ingesting" := by
  have howned : ownedBy "ingesting" claim.resolutionId columns = true := by
    simp [ownedBy, hstatus, hresolution]
  have hwrites : ∀ update : ColumnUpdate, update.failureId = claim.failureId →
      update.filter = ownedBy "ingesting" claim.resolutionId →
      (update.run w).failures claim.failureId = some update.columns := by
    intro update hid hfilter
    have hselects : update.selects w = true := by
      rw [ColumnUpdate.selects, hid, hcolumns, hfilter]
      exact howned
    unfold ColumnUpdate.run
    rw [if_pos hselects, ← hid]
    exact Function.update_self ..
  cases op with
  | markMemoryIngested failureId resolutionId commitSha =>
    simp only [acknowledges, Bool.and_eq_true, decide_eq_true_eq] at hack
    obtain ⟨rfl, rfl⟩ := hack
    exact ⟨_, hwrites ⟨_, _, ⟨some "ingested", _, commitSha⟩⟩ rfl rfl, by simp⟩
  | markMemoryFailed failureId resolutionId =>
    simp only [acknowledges, Bool.and_eq_true, decide_eq_true_eq] at hack
    obtain ⟨rfl, rfl⟩ := hack
    exact ⟨_, hwrites ⟨_, _, ⟨some "failed", _, none⟩⟩ rfl rfl, by simp⟩
  | _ => cases hack

theorem fetched_of_truthful {op : Op} {r : Except PyExc op.Reply} {w : World Repository}
    (h : Truthful w op r) : Fetched op r := by
  cases op with
  | fetchResolution =>
    cases r with
    | error e => trivial
    | ok row =>
      cases row with
      | none => trivial
      | some row => exact h
  | _ => trivial

theorem Owned.start {i : ℕ} (h : Owned P) (htask : P.task i = none) (resolutionId : String) :
    Owned (P.run i (learnResolution devMemoryStore resolutionId) none P.state) := by
  refine h.run (obeys_learnResolution devMemoryStore resolutionId)
    fun failureId columns hcolumns hstatus => ?_
  obtain ⟨j, resolutionId, hresolution, hrecord⟩ := h.owner failureId columns hcolumns hstatus
  have hij : j ≠ i := by
    intro heq
    rw [heq, h.idle i htask] at hrecord
    cases hrecord
  exact ⟨j, resolutionId, hresolution, by rwa [Function.update_of_ne hij]⟩

/-- Where a row that is left at ingesting has its owner after an answer. -/
theorem Owned.owner_kept {i : ℕ} {op : Op} {k : Except PyExc op.Reply → Learning Repository _}
    {r : Except PyExc op.Reply} {failureId : String} {columns : MemoryColumns} (h : Owned P)
    (htask : P.task i = some (.await op k))
    (hcolumns : P.state.failures failureId = some columns)
    (hstatus : columns.status = some "ingesting")
    (hack : ∀ claim, P.record i = some claim → claim.failureId = failureId →
      columns.resolutionId = some claim.resolutionId → acknowledges claim op = false) :
    ∃ j resolutionId, columns.resolutionId = some resolutionId ∧
      Function.update P.record i (owes (P.record i) op r) j =
        some ⟨failureId, resolutionId⟩ := by
  obtain ⟨j, resolutionId, hresolution, hrecord⟩ := h.owner failureId columns hcolumns hstatus
  refine ⟨j, resolutionId, hresolution, ?_⟩
  by_cases hij : j = i
  · subst hij
    have hrequest := (h.obeys j _ htask).2.1
    have hkeeps := hack _ hrecord rfl hresolution
    rw [Function.update_self, hrecord]
    cases op with
    | claimMemory =>
      have hnone := hrequest rfl
      rw [hrecord] at hnone
      cases hnone
    | _ => simp [owes, Option.filter, hkeeps]
  · rwa [Function.update_of_ne hij]

/-- An answered call goes on within the discipline, and leaves the columns to the
answer. -/
theorem Owned.resumed {i : ℕ} {op : Op} {k : Except PyExc op.Reply → Learning Repository _}
    {r : Except PyExc op.Reply} {w : World Repository} (h : Owned P)
    (htask : P.task i = some (.await op k)) (henv : DatabaseStep P.state op r w)
    (hack : AcknowledgementsSucceed P (.resume i op r)
      (P.run i (k r) (owes (P.record i) op r) w))
    (hkeeps : KeepsClaims P (.resume i op r) (P.run i (k r) (owes (P.record i) op r) w)) :
    Obeys (ingestion Repository) (Ends Repository) (k r) (owes (P.record i) op r) w ∧
      (P.run i (k r) (owes (P.record i) op r) w).state.failures = w.failures := by
  have hsend : Sendable (owes (P.record i) op r) w := by
    intro hsome
    rw [henv.client]
    exact hack.connected i op r rfl hsome
  have hobeys := (h.obeys i _ htask).2.2 r _ w
    ⟨hkeeps.undisturbed i op r rfl, fetched_of_truthful henv.truthful, rfl⟩ hsend
  obtain ⟨owed', hacts, -⟩ := hobeys.advance
  exact ⟨hobeys, (acts_ingestion hacts).2.1⟩

theorem Owned.resume {i : ℕ} {op : Op} {k : Except PyExc op.Reply → Learning Repository _}
    {r : Except PyExc op.Reply} {w : World Repository} (h : Owned P)
    (htask : P.task i = some (.await op k)) (henv : DatabaseStep P.state op r w)
    (hack : AcknowledgementsSucceed P (.resume i op r)
      (P.run i (k r) (owes (P.record i) op r) w))
    (hkeeps : KeepsClaims P (.resume i op r) (P.run i (k r) (owes (P.record i) op r) w)) :
    Owned (P.run i (k r) (owes (P.record i) op r) w) := by
  obtain ⟨hobeys, hstate⟩ := h.resumed htask henv hack hkeeps
  refine h.run hobeys fun failureId columns hcolumns hstatus => ?_
  have hsame : P.state.failures failureId = some columns →
      ∃ j resolutionId, columns.resolutionId = some resolutionId ∧
        Function.update P.record i (owes (P.record i) op r) j =
          some ⟨failureId, resolutionId⟩ := by
    intro hbefore
    refine h.owner_kept htask hbefore hstatus fun claim hrecord hid hresolution => ?_
    subst hid
    cases hclaim : acknowledges claim op with
    | false => rfl
    | true =>
      obtain ⟨columns', hwritten, hstatus'⟩ :=
        acknowledged_status hclaim hbefore hstatus hresolution
      have hrecorded := hack.recorded i op r claim rfl hrecord hclaim
      rw [hstate] at hrecorded
      rw [← hrecorded, hcolumns, Option.some.injEq] at hwritten
      exact absurd (hwritten ▸ hstatus) hstatus'
  rcases henv.columns with heffect | ⟨-, hunchanged⟩
  · rcases effect_failures op P.state failureId with hrow | ⟨status, rid, rfl, hrow, hselected⟩ |
      ⟨columns', hrow, hother⟩
    · exact hsame (by rw [← hrow, ← heffect, hcolumns])
    · cases r with
      | error e =>
        have hreported := hkeeps.reported i failureId status rid e rfl
        rw [hstate] at hreported
        exact hsame (by rw [← hreported, hcolumns])
      | ok updated =>
        have htrue : updated = true := henv.truthful.trans hselected
        rw [heffect, hrow, Option.some.injEq] at hcolumns
        subst htrue hcolumns
        exact ⟨i, rid, rfl, Function.update_self ..⟩
    · rw [heffect, hrow, Option.some.injEq] at hcolumns
      subst hcolumns
      rw [hstatus] at hother
      simp at hother
  · exact hsame (by rw [← hunchanged, hcolumns])

/-- One step keeps every ingesting row owned. -/
theorem Owned.step (h : Owned P) (hstep : CallStep devMemoryStore P l P')
    (hack : AcknowledgementsSucceed P l P') (hkeeps : KeepsClaims P l P') : Owned P' := by
  cases hstep with
  | start htask hspawn =>
    obtain ⟨⟨resolutionId, rfl⟩, rfl⟩ := hspawn
    exact h.start htask resolutionId
  | resume htask henv => exact h.resume htask henv hack hkeeps
  | outside houtside =>
    refine ⟨fun i p hp => h.resettled hp, h.idle, fun failureId columns hcolumns hstatus => ?_⟩
    rcases houtside failureId with hsame | ⟨columns', hpending, hstatus'⟩
    · exact h.owner failureId columns (hsame ▸ hcolumns) hstatus
    · rw [hcolumns, Option.some.injEq] at hpending
      rw [← hpending, hstatus] at hstatus'
      simp at hstatus'

/-- The row, if it is there, has a status of a tracked memory. -/
def Tracked (w : World Repository) (failureId : String) : Prop :=
  ∀ columns, w.failures failureId = some columns → columns.status ∈ trackedStatuses

theorem Tracked.effect {w : World Repository} {failureId : String} (h : Tracked w failureId)
    (op : Op) : Tracked (op.effect w) failureId := by
  intro columns hcolumns
  rcases effect_failures op w failureId with hsame | ⟨status, rid, -, hrow, -⟩ |
    ⟨columns', hrow, hother⟩
  · exact h columns (hsame ▸ hcolumns)
  · rw [hrow, Option.some.injEq] at hcolumns
    subst hcolumns
    simp [trackedStatuses]
  · rw [hrow, Option.some.injEq] at hcolumns
    subst hcolumns
    rcases hother with hstatus | hstatus <;> simp [trackedStatuses, hstatus]

theorem Tracked.of_eq {w w' : World Repository} {failureId : String} (h : Tracked w failureId)
    (hsame : w'.failures = w.failures) : Tracked w' failureId := by
  intro columns hcolumns
  rw [hsame] at hcolumns
  exact h columns hcolumns

theorem Tracked.step {failureId : String} (h : Tracked P.state failureId) (howned : Owned P)
    (hstep : CallStep devMemoryStore P l P') (hack : AcknowledgementsSucceed P l P')
    (hkeeps : KeepsClaims P l P') : Tracked P'.state failureId := by
  cases hstep with
  | start htask hspawn =>
    obtain ⟨⟨resolutionId, rfl⟩, rfl⟩ := hspawn
    obtain ⟨owed', hacts, -⟩ := (obeys_learnResolution devMemoryStore resolutionId).advance
    exact h.of_eq (acts_ingestion hacts).2.1
  | resume htask henv =>
    obtain ⟨-, hstate⟩ := howned.resumed htask henv hack hkeeps
    rcases henv.columns with heffect | ⟨-, hunchanged⟩
    · exact (h.effect _).of_eq (hstate.trans heffect)
    · exact h.of_eq (hstate.trans hunchanged)
  | outside houtside =>
    intro columns hcolumns
    rcases houtside failureId with hsame | ⟨columns', hpending, hstatus⟩
    · exact h columns (hsame ▸ hcolumns)
    · rw [hpending, Option.some.injEq] at hcolumns
      subst hcolumns
      simp [trackedStatuses, hstatus]

/-- A step that acknowledges what it is asked to and loses no claim. -/
abbrev KeepingStep (devMemoryStore : Bool) (P : Calls Repository)
    (l : Label (learning Repository)) (P' : Calls Repository) : Prop :=
  CallStep devMemoryStore P l P' ∧ AcknowledgementsSucceed P l P' ∧ KeepsClaims P l P'

variable {w : World Repository} {t : List (Label (learning Repository))}

theorem owned_run (hstart : ∀ failureId columns, w.failures failureId = some columns →
      columns.status ≠ some "ingesting")
    (hrun : Run (KeepingStep devMemoryStore) (Pool.initial w none) t P) : Owned P := by
  have hinitial : Owned (Pool.initial w none : Calls Repository) := by
    refine ⟨fun i p hp => ?_, fun i _ => rfl, fun failureId columns hcolumns hstatus => ?_⟩
    · cases hp
    · exact absurd hstatus (hstart failureId columns hcolumns)
  apply hrun.preserves hinitial
  intro P l P' h hstep
  exact h.step hstep.1 hstep.2.1 hstep.2.2

theorem tracked_run {failureId : String} (hstart : ∀ failureId columns,
      w.failures failureId = some columns → columns.status ≠ some "ingesting")
    (htracked : Tracked w failureId)
    (hrun : Run (KeepingStep devMemoryStore) (Pool.initial w none) t P) :
    Tracked P.state failureId := by
  refine hrun.invariant (I := fun _ P => Tracked P.state failureId) htracked ?_
  intro t P l P' hbefore h hstep
  exact h.step (owned_run hstart hbefore) hstep.1 hstep.2.1 hstep.2.2

/-- As long as no claim is lost, a row that no claimed call in flight stands for
is not left at ingesting: it is ingested, or a later call can claim it. -/
theorem ingestion_released {failureId : String} {columns : MemoryColumns}
    (hstart : ∀ failureId columns, w.failures failureId = some columns →
      columns.status ≠ some "ingesting")
    (hrun : Run (KeepingStep devMemoryStore) (Pool.initial w none) t P)
    (hcolumns : P.state.failures failureId = some columns)
    (hidle : ¬ Ingesting P failureId) :
    columns.status ≠ some "ingesting" ∧
      (Tracked w failureId →
        columns.status = some "ingested" ∨ columns.status ∈ claimableStatuses.map some) := by
  have howned := owned_run hstart hrun
  have hstatus : columns.status ≠ some "ingesting" := by
    intro hingesting
    obtain ⟨i, resolutionId, -, hrecord⟩ := howned.owner failureId columns hcolumns hingesting
    cases htask : P.task i with
    | none =>
      rw [howned.idle i htask] at hrecord
      cases hrecord
    | some p =>
      refine hidle ⟨i, p, resolutionId, htask, fun hfinished => ?_, hrecord⟩
      have hobeys := (howned.obeys i p htask).2
      have hends : P.record i = none := by
        cases p with
        | ret a => exact hobeys
        | raise e => exact hobeys
        | _ => exact hfinished.elim
      rw [hrecord] at hends
      cases hends
  refine ⟨hstatus, fun htracked => ?_⟩
  have hnow := tracked_run hstart htracked hrun columns hcolumns
  simp only [trackedStatuses, List.mem_cons, List.not_mem_nil, or_false] at hnow
  rcases hnow with hpending | hfailed | hingesting | hingested
  · exact .inr (by simp [hpending, claimableStatuses])
  · exact .inr (by simp [hfailed, claimableStatuses])
  · exact absurd hingesting hstatus
  · exact .inl hingested

end Interleaving

section Cancelled

variable {Repository : Type} {w : World Repository} {resolutionId failureId : String}
variable {row failure : Fields}

theorem advance_query {op : Op} (hclient : w.clientSet = true) :
    advance (query op : Learning Repository op.Reply) w = (w, .await op Prog.settle) := by
  unfold query requiredClient
  show advance (Prog.bind (.get fun w : World Repository => if w.clientSet then .ret ()
    else .raise clientUnavailable) fun _ => Prog.call (σ := learning Repository) op) w = _
  simp only [Prog.bind, advance, hclient, if_true]
  rfl

/-- A call fetches its resolution first. -/
theorem advance_learnResolution (resolutionId : String) (row : Fields) (devMemoryStore : Bool)
    (hclient : w.clientSet = true) :
    ∃ k, advance (learnResolution devMemoryStore resolutionId) w =
        (w, .await (.fetchResolution resolutionId) k) ∧
      k (.ok (some row)) = learnRow devMemoryStore resolutionId row := by
  unfold learnResolution
  exact ⟨_, advance_bind_await (advance_query hclient), rfl⟩

/-- With a positive demonstration it goes on to the linked failure row. -/
theorem advance_learnRow (resolutionId : String) (failure : Fields) (devMemoryStore : Bool)
    (hclient : w.clientSet = true)
    (hpositive : isPositiveDemonstration row = true)
    (hfailureId : safeIdentifier (Fields.get row "failure_id") = some failureId) :
    ∃ k, advance (learnRow devMemoryStore resolutionId row) w =
        (w, .await (.fetchFailure failureId) k) ∧
      k (.ok (some failure)) =
        (claimMemoryIngestion (some failureId) resolutionId (some failure)).bind
          fun acknowledgement => ingestClaimed
            ⟨resolutionId, row, some failureId, some failure, acknowledgement⟩ devMemoryStore := by
  unfold learnRow
  rw [if_neg (by simp [hpositive]), hfailureId]
  exact ⟨_, advance_bind_await (advance_query hclient), rfl⟩

/-- A claimable memory of this resolution is claimed. -/
theorem advance_claim {status : String} (failureId : String)
    (f : Acknowledgement → Learning Repository (Option MemoryWriteResult))
    (hclient : w.clientSet = true)
    (hresolution : safeIdentifier (Fields.get failure "memory_resolution_id") = some resolutionId)
    (hstatus : normalizedText (Fields.get failure "memory_status") = status)
    (hclaimable : status ∈ claimableStatuses) :
    ∃ k, advance ((claimMemoryIngestion (some failureId) resolutionId (some failure)).bind f) w =
        (w, .await (.claimMemory failureId status resolutionId) k) ∧
      k (.ok true) = f .claimed := by
  subst hstatus
  unfold claimMemoryIngestion currentFailureRow
  simp only [Prog.bind_eq, Prog.pure_eq, Prog.bind, hresolution, true_and, if_pos hclaimable]
  refine ⟨_, advance_bind_await (advance_bind_await (advance_query hclient)), ?_⟩
  rfl

/-- A claimed call looks up the robot of its row. There a cancellation ends it, and
an error makes it record the failed ingestion. -/
theorem advance_ingestClaimed (resolutionId failureId : String) {memory : Fields}
    (hclient : w.clientSet = true)
    (hmemory : memoryRow row (some failure) = .ok memory) (hsysid : rowSysid memory ≠ "") :
    ∃ k, advance (ingestClaimed
          ⟨resolutionId, row, some failureId, some failure, .claimed⟩ true) w =
        (w, .await (.fetchRobot (rowSysid memory)) k) ∧
      (∀ w' e, e.cls = .cancelled → advance (k (.error e)) w' = (w', .raise e)) ∧
      ∀ w' e, w'.clientSet = true → e.isException = true → ∃ k',
        advance (k (.error e)) w' = (w', .await (.markMemoryFailed failureId resolutionId) k') ∧
        ∀ w'', advance (k' (.ok ())) w'' = (w'', .raise e) := by
  have hingest : ∃ k, advance (ingest
        ⟨resolutionId, row, some failureId, some failure, .claimed⟩ true) w =
        (w, .await (.fetchRobot (rowSysid memory)) k) ∧ ∀ e, k (.error e) = .raise e := by
    unfold ingest storeFor
    simp only [Prog.bind_eq, Prog.pure_eq, hmemory, Prog.settle, Prog.bind, Bool.not_true,
      Bool.false_eq_true, if_false, if_neg hsysid]
    refine ⟨_, advance_bind_await (advance_bind_await (advance_query hclient)), fun e => ?_⟩
    rfl
  obtain ⟨k, hk, herror⟩ := hingest
  unfold ingestClaimed
  rw [if_neg (by simp)]
  refine ⟨_, advance_tryCatch_await hk, fun w' e he => ?_, fun w' e hclient' he => ?_⟩
  · simp only [herror, Prog.tryCatch, Prog.attempt, Prog.bind, Prog.recover, ingestHandler,
      if_pos he, advance]
  · have hne : e.cls ≠ .cancelled := by simpa [PyExc.isException] using he
    simp only [herror, Prog.attempt, Prog.bind, Prog.recover, ingestHandler, if_neg hne, if_true,
      Prog.bind_eq, Prog.tryCatch, markMemoryFailed]
    exact ⟨_, advance_bind_await (advance_bind_await
      (advance_attempt_await (advance_query hclient'))), fun w'' => rfl⟩

/-- Call 0 is the only call of the pool, with this left to do and this owed. -/
structure Alone (P : Calls Repository) (w : World Repository)
    (p : Learning Repository (Option MemoryWriteResult)) (owed : Option Claim) : Prop where
  state : P.state = w
  task : P.task 0 = some p
  others : ∀ j, j ≠ 0 → P.task j = none
  record : P.record 0 = owed

/-- The only call is answered and runs to its next await. -/
theorem Alone.answered {P : Calls Repository} {op : Op}
    {k : Except PyExc op.Reply → Learning Repository _} {owed : Option Claim}
    {q : Learning Repository _} {r : Except PyExc op.Reply} {w' w'' : World Repository}
    (h : Alone P w (.await op k) owed) (henv : DatabaseStep w op r w')
    (hadvance : advance (k r) w' = (w'', q)) :
    ∃ P', CallStep true P (.resume 0 op r) P' ∧ Alone P' w'' q (owes owed op r) := by
  have hstep := h.state ▸ henv
  refine ⟨_, Step.resume h.task hstep, ?_, ?_, fun j hj => ?_, ?_⟩
  · rw [run_state, hadvance]
  · rw [run_task_self, hadvance]
  · rw [run_task_other hj]
    exact h.others j hj
  · rw [run_record_self, h.record]

/-- An answer to a call that owes nothing. -/
theorem Alone.unowed {P P' : Calls Repository} {p : Learning Repository _} {op : Op}
    {a : op.Reply} (h : Alone P w p none) (hclient : w.clientSet = true)
    (hclaim : ∀ failureId status rid, op = .claimMemory failureId status rid →
      CanonicalId rid) :
    AcknowledgementsSucceed P (.resume 0 op (.ok a)) P' ∧
      KeepsClaims P (.resume 0 op (.ok a)) P' := by
  refine ⟨⟨fun i op' r' claim heq hrecord => ?_, fun i op' r' heq _ => ?_⟩,
    ⟨fun i op' r' heq => ?_, fun i failureId status rid e heq => ?_⟩⟩
  · cases heq
    rw [h.record] at hrecord
    cases hrecord
  · rw [h.state]
    exact hclient
  · cases heq
    refine ⟨fun claim hrecord => ?_, hclaim⟩
    rw [h.record] at hrecord
    cases hrecord
  · cases heq

theorem databaseStep_fetch {op : Op} {r : Except PyExc op.Reply} (hread : op.update = none)
    (htruthful : Truthful w op r) : DatabaseStep w op r w := by
  refine ⟨.inl ?_, rfl, rfl, htruthful⟩
  unfold Op.effect
  rw [hread]

/-- A call that finds its row claimable and its robot in the database. -/
structure ClaimableCall (w : World Repository) (resolutionId failureId : String)
    (row failure memory : Fields) (columns : MemoryColumns) : Prop where
  connected : w.clientSet = true
  stored : w.failures failureId = some columns
  owned : ownedBy (normalizedText (Fields.get failure "memory_status")) resolutionId columns = true
  claimable : normalizedText (Fields.get failure "memory_status") ∈ claimableStatuses
  canonical : CanonicalId resolutionId
  fetched : Fields.get row "resolution_id" = .str resolutionId
  positive : isPositiveDemonstration row = true
  failureId : safeIdentifier (Fields.get row "failure_id") = some failureId
  linked : safeIdentifier (Fields.get failure "memory_resolution_id") = some resolutionId
  prepared : memoryRow row (some failure) = .ok memory
  robot : rowSysid memory ≠ ""

def ingestingColumns (resolutionId : String) : MemoryColumns :=
  ⟨some "ingesting", some resolutionId, none⟩

def claimedWorld (w : World Repository) (failureId resolutionId : String) : World Repository :=
  { w with
    failures := Function.update w.failures failureId (some (ingestingColumns resolutionId)) }

/-- The database claims the row of a claimable call. -/
theorem databaseStep_claim {memory : Fields} {columns : MemoryColumns}
    (h : ClaimableCall w resolutionId failureId row failure memory columns) :
    DatabaseStep w (.claimMemory failureId
      (normalizedText (Fields.get failure "memory_status")) resolutionId) (.ok true)
      (claimedWorld w failureId resolutionId) := by
  have hselected : (w.failures failureId).any
      (ownedBy (normalizedText (Fields.get failure "memory_status")) resolutionId) = true := by
    rw [h.stored]
    exact h.owned
  have hselects : ColumnUpdate.selects ⟨failureId,
      ownedBy (normalizedText (Fields.get failure "memory_status")) resolutionId,
      ⟨some "ingesting", some resolutionId, none⟩⟩ w = true := hselected
  refine ⟨.inl ?_, rfl, rfl, hselected.symm⟩
  show _ = (ColumnUpdate.run _ w).failures
  unfold ColumnUpdate.run
  rw [if_pos hselects]
  rfl

/-- A claimable call gets as far as its robot with the row claimed. -/
theorem claimed_run {memory : Fields} {columns : MemoryColumns}
    (h : ClaimableCall w resolutionId failureId row failure memory columns) :
    ∃ t P k, Run (KeepingStep true) (Pool.initial w none) t P ∧
      Alone P (claimedWorld w failureId resolutionId) (.await (.fetchRobot (rowSysid memory)) k)
        (some ⟨failureId, resolutionId⟩) ∧
      (∀ w' e, e.cls = .cancelled → advance (k (.error e)) w' = (w', .raise e)) ∧
      ∀ w' e, w'.clientSet = true → e.isException = true → ∃ k',
        advance (k (.error e)) w' = (w', .await (.markMemoryFailed failureId resolutionId) k') ∧
        ∀ w'', advance (k' (.ok ())) w'' = (w'', .raise e) := by
  have hclient : (claimedWorld w failureId resolutionId).clientSet = true := h.connected
  obtain ⟨k₁, hfetch, hrow⟩ := advance_learnResolution resolutionId row true h.connected
  obtain ⟨k₂, hlink, hfailure⟩ :=
    advance_learnRow resolutionId failure true h.connected h.positive h.failureId
  obtain ⟨k₃, hclaim, hclaimed⟩ := advance_claim failureId (fun acknowledgement => ingestClaimed
    ⟨resolutionId, row, some failureId, some failure, acknowledgement⟩ true) h.connected h.linked rfl
    h.claimable
  obtain ⟨k₄, hrobot, hcancelled, hfailed⟩ :=
    advance_ingestClaimed resolutionId failureId hclient h.prepared h.robot
  have hstart : KeepingStep true (Pool.initial w none) (.start 0)
      ((Pool.initial w none).run 0 (learnResolution true resolutionId) none w) := by
    refine ⟨.start rfl ⟨⟨resolutionId, rfl⟩, rfl⟩, ⟨?_, ?_⟩, ⟨?_, ?_⟩⟩ <;> intros <;> contradiction
  have halone₁ : Alone ((Pool.initial w none).run 0 (learnResolution true resolutionId) none w) w
      (.await (.fetchResolution resolutionId) k₁) none := by
    refine ⟨?_, ?_, fun j hj => ?_, run_record_self⟩
    · rw [run_state, hfetch]
    · rw [run_task_self, hfetch]
    · rw [run_task_other hj]
      rfl
  have hfetched : DatabaseStep w (.fetchResolution resolutionId) (.ok (some row)) w :=
    databaseStep_fetch rfl h.fetched
  obtain ⟨P₂, hstep₂, halone₂⟩ := halone₁.answered hfetched (hrow ▸ hlink)
  have hread : DatabaseStep w (.fetchFailure failureId) (.ok (some failure)) w :=
    databaseStep_fetch rfl trivial
  obtain ⟨P₃, hstep₃, halone₃⟩ := halone₂.answered hread (hfailure ▸ hclaim)
  have hset := databaseStep_claim h
  obtain ⟨P₄, hstep₄, halone₄⟩ := halone₃.answered hset (hclaimed ▸ hrobot)
  have hempty : Run (KeepingStep true) (Pool.initial w none) [] (Pool.initial w none) := .start
  have hrun₁ := hempty.next hstart
  have hrun₂ := hrun₁.next ⟨hstep₂, halone₁.unowed h.connected fun _ _ _ hop => by cases hop⟩
  have hrun₃ := hrun₂.next ⟨hstep₃, halone₂.unowed h.connected fun _ _ _ hop => by cases hop⟩
  have hrun₄ := hrun₃.next ⟨hstep₄, halone₃.unowed h.connected fun _ _ _ hop => by
    cases hop
    exact h.canonical⟩
  exact ⟨_, P₄, k₄, hrun₄, halone₄, hcancelled, hfailed⟩

/-- An error or an answer to the only call, which owes an acknowledgement. -/
theorem Alone.owing {P P' : Calls Repository} {p : Learning Repository _} {claim : Claim}
    {op : Op} {r : Except PyExc op.Reply} (h : Alone P w p (some claim))
    (hclient : w.clientSet = true) (hop : isClaim op = false)
    (hr : ∀ e, r = .error e → e.isException = true)
    (hrecorded : acknowledges claim op = true → P'.state.failures = (op.effect w).failures) :
    AcknowledgementsSucceed P (.resume 0 op r) P' ∧ KeepsClaims P (.resume 0 op r) P' := by
  refine ⟨⟨fun i op' r' claim' heq hrecord hack => ?_, fun i op' r' heq _ => ?_⟩,
    ⟨fun i op' r' heq => ?_, fun i failureId status rid e heq => ?_⟩⟩
  · cases heq
    rw [h.record, Option.some.injEq] at hrecord
    subst hrecord
    rw [h.state]
    exact hrecorded hack
  · rw [h.state]
    exact hclient
  · cases heq
    refine ⟨fun claim' _ e he hcancelled => ?_, fun failureId status rid hclaim => ?_⟩
    · rw [hr e he] at hcancelled
      cases hcancelled
    · rw [hclaim] at hop
      cases hop
  · cases heq
    cases hop

theorem claimedWorld_failures :
    (claimedWorld w failureId resolutionId).failures failureId =
      some (ingestingColumns resolutionId) := by
  unfold claimedWorld
  exact Function.update_self ..

/-- A failed ingestion is recorded on the row that is being ingested. -/
theorem effect_markMemoryFailed {failureId resolutionId : String}
    (h : (w.failures failureId).any (ownedBy "ingesting" resolutionId) = true) :
    Op.effect (.markMemoryFailed failureId resolutionId) w =
      { w with
        failures := Function.update w.failures failureId
          (some ⟨some "failed", some resolutionId, none⟩) } := by
  have hselects : ColumnUpdate.selects ⟨failureId, ownedBy "ingesting" resolutionId,
      ⟨some "failed", some resolutionId, none⟩⟩ w = true := h
  show ColumnUpdate.run _ w = _
  unfold ColumnUpdate.run
  rw [if_pos hselects]

end Cancelled

section Samples

def sampleId : String := "12345678-1234-5678-1234-567812345678"

def sampleResolution : Fields :=
  [("resolution_id", .str sampleId), ("failure_id", .str "failure-1"),
    ("sysid", .str "ROBOT-1"), ("outcome", .str "resolved"), ("applied", .bool true),
    ("action_runs", .arr [.obj [("command", .str "open_door"), ("status", .str "sent")]])]

def sampleFailure : Fields :=
  [("failure_id", .str "failure-1"), ("memory_status", .str "pending"),
    ("memory_resolution_id", .str sampleId)]

def samplePending : World Unit where
  clientSet := true
  knownCommitShas _ := none
  failures failureId :=
    if failureId = "failure-1" then some ⟨some "pending", some sampleId, none⟩ else none
  repository := ()

theorem samplePending_pending {failureId : String} {columns : MemoryColumns}
    (h : samplePending.failures failureId = some columns) : columns.status = some "pending" := by
  unfold samplePending at h
  simp only at h
  by_cases hid : failureId = "failure-1"
  · rw [if_pos hid, Option.some.injEq] at h
    rw [← h]
  · rw [if_neg hid] at h
    cases h

theorem sampleCall : ∃ memory, ClaimableCall samplePending sampleId "failure-1"
    sampleResolution sampleFailure memory ⟨some "pending", some sampleId, none⟩ := by
  have hok : (memoryRow sampleResolution (some sampleFailure)).isOk = true := by decide +kernel
  cases hmemory : memoryRow sampleResolution (some sampleFailure) with
  | error e =>
    rw [hmemory] at hok
    cases hok
  | ok memory =>
    have hsysid : Fields.get memory "sysid" = .str "ROBOT-1" :=
      get_memoryRow hmemory (by decide) rfl
    have hcanonical : canonicalUuid (.str sampleId) "resolution_id" = .ok sampleId := by
      decide +kernel
    refine ⟨memory, rfl, rfl, ?_, ?_, ⟨?_, fun uuid huuid => ?_⟩, rfl, ?_, ?_, ?_, hmemory, ?_⟩
    · decide +kernel
    · decide +kernel
    · decide +kernel
    · rw [hcanonical, Except.ok.injEq] at huuid
      exact huuid.symm
    · decide +kernel
    · decide +kernel
    · decide +kernel
    · rw [rowSysid, hsysid]
      decide +kernel

def cancelledError : PyExc := ⟨.cancelled, ""⟩

/-- A call that is cancelled while it looks up its robot leaves its row at ingesting
for good. -/
theorem cancelled_stuck : ∃ t P,
    Run (fun P l P' => CallStep true P l P' ∧ AcknowledgementsSucceed P l P')
        (Pool.initial samplePending none) t P ∧
      (∀ i p, P.task i = some p → Finished p) ∧
      samplePending.failures "failure-1" = some ⟨some "pending", some sampleId, none⟩ ∧
      P.state.failures "failure-1" = some (ingestingColumns sampleId) := by
  obtain ⟨memory, hcall⟩ := sampleCall
  obtain ⟨t, P, k, hrun, halone, hcancelled, -⟩ := claimed_run hcall
  have hsteps : ∀ (P : Calls Unit) l P', KeepingStep true P l P' →
      CallStep true P l P' ∧ AcknowledgementsSucceed P l P' :=
    fun P l P' hstep => ⟨hstep.1, hstep.2.1⟩
  have hpast := hrun.mono hsteps
  have hcancel : DatabaseStep (claimedWorld samplePending "failure-1" sampleId)
      (.fetchRobot (rowSysid memory)) (.error cancelledError)
      (claimedWorld samplePending "failure-1" sampleId) := databaseStep_fetch rfl trivial
  obtain ⟨P', hstep, hdone⟩ := halone.answered hcancel (hcancelled _ cancelledError rfl)
  have hacks : AcknowledgementsSucceed P (.resume 0 (.fetchRobot (rowSysid memory))
      (.error cancelledError)) P' := by
    refine ⟨fun i op r claim heq hrecord hack => ?_, fun i op r heq _ => ?_⟩
    · cases heq
      cases hack
    · rw [halone.state]
      rfl
  refine ⟨_, P', hpast.next ⟨hstep, hacks⟩, fun i p hp => ?_, rfl, ?_⟩
  · by_cases hi : i = 0
    · subst hi
      rw [hdone.task, Option.some.injEq] at hp
      subst hp
      trivial
    · rw [hdone.others i hi] at hp
      cases hp
  · rw [hdone.state]
    exact claimedWorld_failures

def lookupError : PyExc := ⟨.connection, "robot lookup failed"⟩

/-- A call whose robot lookup fails records the failed ingestion. -/
theorem failed_released : ∃ t P columns,
    Run (KeepingStep true) (Pool.initial samplePending none) t P ∧
      P.state.failures "failure-1" = some columns ∧ ¬ Ingesting P "failure-1" ∧
      columns.status ≠ some "ingesting" ∧
      (Tracked samplePending "failure-1" →
        columns.status = some "ingested" ∨ columns.status ∈ claimableStatuses.map some) := by
  obtain ⟨memory, hcall⟩ := sampleCall
  obtain ⟨t, P, k, hrun, halone, -, hfailed⟩ := claimed_run hcall
  obtain ⟨k', hmark, hends⟩ := hfailed (claimedWorld samplePending "failure-1" sampleId)
    lookupError rfl rfl
  have hlookup : DatabaseStep (claimedWorld samplePending "failure-1" sampleId)
      (.fetchRobot (rowSysid memory)) (.error lookupError)
      (claimedWorld samplePending "failure-1" sampleId) := databaseStep_fetch rfl trivial
  obtain ⟨P₁, hstep₁, halone₁⟩ := halone.answered hlookup hmark
  have hrun₁ := hrun.next ⟨hstep₁, halone.owing rfl rfl
    (fun e he => by cases he; rfl) fun hack => by cases hack⟩
  have heffect := @effect_markMemoryFailed Unit (claimedWorld samplePending "failure-1" sampleId)
    "failure-1" sampleId (by decide +kernel)
  have hack : DatabaseStep (claimedWorld samplePending "failure-1" sampleId)
      (.markMemoryFailed "failure-1" sampleId) (.ok ())
      (Op.effect (.markMemoryFailed "failure-1" sampleId)
        (claimedWorld samplePending "failure-1" sampleId)) := by
    refine ⟨.inl rfl, ?_, ?_, trivial⟩ <;> rw [heffect]
  obtain ⟨P₂, hstep₂, halone₂⟩ := halone₁.answered hack (hends _)
  have hrun₂ := hrun₁.next ⟨hstep₂, halone₁.owing rfl rfl (fun e he => by cases he)
    fun _ => by rw [halone₂.state]⟩
  have hstate : P₂.state.failures "failure-1" = some ⟨some "failed", some sampleId, none⟩ := by
    rw [halone₂.state, heffect]
    simp only [Function.update_self]
  have hidle : ¬ Ingesting P₂ "failure-1" := by
    intro hingesting
    obtain ⟨i, p, resolutionId, htask, hunfinished, -⟩ := hingesting
    by_cases hi : i = 0
    · subst hi
      rw [halone₂.task, Option.some.injEq] at htask
      subst htask
      exact hunfinished trivial
    · rw [halone₂.others i hi] at htask
      cases htask
  exact ⟨_, P₂, _, hrun₂, hstate, hidle, ingestion_released (fun failureId columns hcolumns => by
    simp [samplePending_pending hcolumns]) hrun₂ hstate hidle⟩

end Samples

end FailureResolver.MemoryIngestion
