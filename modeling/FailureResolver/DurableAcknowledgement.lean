import FailureResolver.LearningEligibility
import FailureResolver.MemoryIngestion
import FailureResolver.MemoryLedger

/-!
The commit a failure row is acknowledged with, while calls, other writers and the
ends of earlier processes change the branches and their checkouts at any time. It
is on the remote branch with a memory of the source, as long as a hash is found in
a committed file, a remembered commit is the last of its file, and a claimed call
writes something new.
-/

namespace FailureResolver.DurableAcknowledgement

open DurableWrite GitHistory GitMemoryStore JsonValue LearnResolution MemoryLedger
open MemoryMarkdown MemoryProvenance Program PyException ResolutionEpisode ResolutionMemory
open SharedBranch TaskPool Transitions
open LearningEligibility (Plain Prose consistent_of_plain postInit_positive)
open MemoryIngestion (ClaimableCall advance_claim advance_learnResolution advance_learnRow
  advance_query claimedWorld databaseStep_claim databaseStep_fetch)

section Conditions

variable (setup : Setup)

/-- The file of the memory is as it was committed, and a commit that the process
remembers is the last one of the file on the remote branch. -/
def Current (w : World Branches) (store : StoreName) (resolutionId : String) : Prop :=
  (∀ c, (w.repository store).checkout = some c →
    c.worktree (memoryPath resolutionId) = headTree c.history (memoryPath resolutionId)) ∧
  ∀ commitSha, w.knownCommitShas resolutionId = some commitSha → commitSha ≠ "" →
    headMemory w store resolutionId =
        some (headTree (w.repository store).remote (memoryPath resolutionId)) ∧
      ∃ commit, LatestCommit (memoryPath resolutionId) (w.repository store).remote
        (some commit) ∧ commitSha = setup.nameOf commit

def FoundCurrent (w : World Branches) : (op : Op) → Except PyExc op.Reply → Prop
  | .hasSourceHash store resolutionId _, .ok true => Current setup w store resolutionId
  | _, _ => True

/-- While a call waits for the latest commit of a memory nobody else changes the memory
at the branch head. -/
def Undisturbed (P : Calls) (l : Label (learning Branches)) (P' : Calls) : Prop :=
  ∀ i store resolutionId k,
    P.task i = some (.await (.latestMemoryCommit store resolutionId) k) →
    (∀ r, l ≠ .resume i (.latestMemoryCommit store resolutionId) r) →
      headMemory P'.state store resolutionId = headMemory P.state store resolutionId

/-- A claimed call stages a file that differs from the last commit. -/
def WritesNews (P : Calls) (l : Label (learning Branches)) : Prop :=
  ∀ i store draft result, l = .resume i (.writeMemory store draft) (.ok result) →
    (P.record i).claimed = true → ∃ found s', result = writtenResult setup found ∧
      May (sharedEnvironment nobody stagesChanges)
        (GitMemoryStore.writeMemory (setup.config store) setup.strOf draft)
        (P.state.repository store) (.returned found s')

def TracedStep (P : Calls) (l : Label (learning Branches)) (P' : Calls) : Prop :=
  Step Spawned Seen.after (fun w op r w' => answers setup w op r w' ∧ FoundCurrent setup w' op r)
    Elsewhere P l P' ∧ Undisturbed P l P' ∧ WritesNews setup P l

end Conditions

section Answers

variable {setup : Setup} {P : Calls} {m : Seen} {w w' : World Branches} {op : Op}
variable {r : Except PyExc op.Reply} {store : StoreName} {resolutionId sourceHash sha : String}

/-- A commit that is durable stays so. -/
theorem durable_later (h : Durable setup w store resolutionId sourceHash sha)
    (hgrown : Elsewhere w w') : Durable setup w' store resolutionId sourceHash sha := by
  obtain ⟨commit, hname, hthere, htext⟩ := h
  exact ⟨commit, hname, hthere.trans (hgrown store), htext⟩

theorem acknowledged_later {commitSha : Option String}
    (h : Acknowledged setup m w resolutionId commitSha) (hgrown : Elsewhere w w') :
    Acknowledged setup m w' resolutionId commitSha := by
  obtain ⟨store, sourceHash, sha, hasked, hsome, hdurable⟩ := h
  exact ⟨store, sourceHash, sha, hasked, hsome, durable_later hdurable hgrown⟩

/-- What a call has asked for it may still ask for, unless the memory it has found has
changed at the branch head. -/
theorem asks_later (h : Asks setup m w op) (hgrown : Elsewhere w w')
    (hheads : ∀ store resolutionId, op = .latestMemoryCommit store resolutionId →
      headMemory w' store resolutionId = headMemory w store resolutionId) :
    Asks setup m w' op := by
  cases op with
  | latestMemoryCommit store resolutionId =>
    obtain ⟨sourceHash, hstage, text, hhead, hhash⟩ := h
    exact ⟨sourceHash, hstage, text, (hheads store resolutionId rfl).trans hhead, hhash⟩
  | writeMemory store draft => exact h
  | _ => exact fun id commitSha hack => acknowledged_later (h id commitSha hack) hgrown

theorem storeProgram_asks {p : Prog git op.Reply} (h : storeProgram setup op = some (store, p)) :
    p.Asks fun _ => True := by
  cases op with
  | hasSourceHash store resolutionId sourceHash =>
    cases h
    exact .bind (asks_rebuildIndex fun _ _ => trivial) fun _ => trivial
  | latestMemoryCommit store resolutionId =>
    cases h
    exact .bind (asks_latestMemoryCommit fun _ _ => trivial) fun _ => trivial
  | writeMemory store draft =>
    cases h
    exact .bind (asks_writeMemory draft fun _ _ => trivial) fun _ => trivial
  | _ => cases h

/-- The remote branch keeps its commits whatever git answers. -/
theorem gitAnswers_grows {α : Type} {p : Prog git α} {timing : Timing} {s s' : Store}
    {r : Except PyExc α} (hp : p.Asks fun _ => True) (h : GitAnswers timing p s r s') :
    s.remote <:+ s'.remote := by
  cases r with
  | ok a =>
    obtain ⟨t, hrun⟩ := h
    exact leaves_grows hp (.returned hrun)
  | error e => exact leaves_grows hp h

theorem answers_grows (h : answers setup w op r w') : Elsewhere w w' := by
  intro other
  unfold answers at h
  split at h
  · rw [h.2]
  · next store p hprogram =>
    obtain ⟨s, hgit, rfl⟩ := h
    by_cases hstore : other = store
    · rw [hstore]
      show _ <:+ (Function.update w.repository store s store).remote
      rw [Function.update_self]
      exact gitAnswers_grows (storeProgram_asks hprogram) hgit
    · show _ <:+ (Function.update w.repository store s other).remote
      rw [Function.update_of_ne hstore]

theorem grounded_rest (stage : Stage) (h : m.stage = stage.rest) : Grounded setup m w := by
  rw [Grounded, h]
  cases stage <;> trivial

/-- The state of a store that has answered. -/
theorem repository_update {s : Store} :
    ({ w with repository := Function.update w.repository store s } : World Branches).repository
      store = s := Function.update_self ..

/-- A hash that is found in a current memory is committed, and so is its known commit. -/
theorem grounded_found (h : answers setup w (.hasSourceHash store resolutionId sourceHash)
      (.ok true) w') (hcurrent : Current setup w' store resolutionId)
    (hstage : m.stage = .found store resolutionId sourceHash) : Grounded setup m w' := by
  obtain ⟨s, ⟨t, hrun⟩, rfl⟩ : ∃ s, GitAnswers anyTime
    (hasSourceHash (setup.config store) resolutionId sourceHash true) (w.repository store)
      (.ok true) s ∧ w' = { w with repository := Function.update w.repository store s } := h
  obtain ⟨c, text, hc, htext, hreads⟩ := (does_hasSourceHash t _ hrun).2 true s rfl rfl
  obtain ⟨hfile, hknown⟩ := hcurrent
  rw [repository_update] at hfile hknown
  have hhead : headMemory { w with repository := Function.update w.repository store s } store
      resolutionId = some (some text) := by
    rw [headMemory, repository_update, hc, Option.map_some, ← hfile c hc, htext]
  rw [Grounded, hstage]
  refine ⟨⟨text, hhead, .inl hreads⟩, fun sha hsha hne => ?_⟩
  obtain ⟨hremote, commit, hlatest, hname⟩ := hknown sha hsha hne
  obtain ⟨hthere, htree⟩ := latestCommit_spec hlatest
  rw [hhead, Option.some.injEq] at hremote
  refine ⟨commit, hname, ?_, text, htree.trans hremote.symm, .inl hreads⟩
  rw [repository_update]
  exact hthere

/-- The latest commit of a committed memory is durable. -/
theorem grounded_latest (h : answers setup w (.latestMemoryCommit store resolutionId)
      (.ok (some sha)) w') (hcommitted : Committed setup w store resolutionId sourceHash)
    (hstage : m.stage = .latest store resolutionId sourceHash sha) : Grounded setup m w' := by
  obtain ⟨s, ⟨t, hrun⟩, rfl⟩ : ∃ s, GitAnswers anyTime
    ((latestMemoryCommit (setup.config store) resolutionId false).bind fun found =>
      .ret (found.map setup.nameOf)) (w.repository store) (.ok (some sha)) s ∧
        w' = { w with repository := Function.update w.repository store s } := h
  obtain ⟨text, hhead, hhash⟩ := hcommitted
  obtain ⟨c, hc, htext⟩ := Option.map_eq_some_iff.mp hhead
  have hdoes : Ensures (sharedEnvironment nobody anyTime)
      ((latestMemoryCommit (setup.config store) resolutionId false).bind fun found =>
        .ret (found.map setup.nameOf)) (w.repository store)
      (Does (fun _ => True) fun (found : Option String) (s' : Store) => ∀ sha, found = some sha →
        ∃ commit, sha = setup.nameOf commit ∧ commit <:+ s'.remote ∧
          headTree commit (memoryPath resolutionId) = some text) := by
    refine does_bind (does_latestMemoryCommit hc) fun found s' hfound => does_ret ?_
    intro sha hsha
    obtain ⟨commit, hcommit, rfl⟩ := Option.map_eq_some_iff.mp hsha
    obtain ⟨hthere, htree⟩ := hfound commit hcommit
    exact ⟨commit, rfl, hthere, htree.trans htext⟩
  obtain ⟨commit, hname, hthere, htree⟩ := (hdoes t _ hrun).2 _ s rfl sha rfl
  rw [Grounded, hstage]
  refine ⟨commit, hname, ?_, text, htree, hhash⟩
  rw [repository_update]
  exact hthere

/-- A commit that a write has named is durable. -/
theorem durable_written {draft : DraftFields} {result : LearnResolution.MemoryWriteResult}
    (h : answers setup w (.writeMemory store draft) (.ok result) w')
    (hsha : result.commitSha = some sha) :
    Durable setup w' store draft.source.resolutionId draft.source.sourceHash sha := by
  obtain ⟨s, ⟨t, hrun⟩, rfl⟩ : ∃ s, GitAnswers anyTime
    ((GitMemoryStore.writeMemory (setup.config store) setup.strOf draft).bind fun result =>
      .ret (writtenResult setup result)) (w.repository store) (.ok result) s ∧
        w' = { w with repository := Function.update w.repository store s } := h
  have hdoes : Ensures (sharedEnvironment nobody anyTime)
      ((GitMemoryStore.writeMemory (setup.config store) setup.strOf draft).bind fun result =>
        .ret (writtenResult setup result)) (w.repository store)
      (Does (fun _ => True) fun (result : LearnResolution.MemoryWriteResult) (s' : Store) =>
        ∀ sha, result.commitSha = some sha → ∃ commit, sha = setup.nameOf commit ∧
          commit = s'.remote ∧ ∃ text, headTree commit (memoryPath draft.source.resolutionId) =
            some text ∧ HasHash setup.strOf text draft.source.sourceHash) := by
    refine does_bind (does_writeMemory draft) fun found s' hnamed => does_ret ?_
    intro sha hsha
    obtain ⟨commit, hcommit, rfl⟩ := Option.map_eq_some_iff.mp hsha
    obtain ⟨hhead, text, htext, hsame⟩ := hnamed.head commit hcommit
    exact ⟨commit, rfl, hhead, text, htext, .inr ⟨draft, rfl, hsame⟩⟩
  obtain ⟨commit, hname, hhead, htext⟩ := (hdoes t _ hrun).2 _ s rfl sha hsha
  refine ⟨commit, hname, ?_, htext⟩
  rw [repository_update, hhead]

/-- A write that stages a change names a commit. -/
theorem commitSha_of_stages {config : Config} {strOf : Json → String} {draft : DraftFields}
    {s s' : Store} {found : GitMemoryStore.MemoryWriteResult}
    (h : May (sharedEnvironment nobody stagesChanges)
      (GitMemoryStore.writeMemory config strOf draft) s (.returned found s')) :
    (writtenResult setup found).commitSha ≠ none := by
  obtain ⟨t, hrun⟩ := h
  have hnamed := ((does_writeMemory draft t _ hrun).2 found s' rfl).named rfl
  intro hnone
  exact hnamed (Option.map_eq_none_iff.mp hnone)

/-- An answer leaves the call with what it has found out. -/
theorem grounded_after {i : ℕ} (hasks : Asks setup (P.record i) P.state op)
    (hanswers : answers setup P.state op r w') (hcurrent : FoundCurrent setup w' op r)
    (hnews : WritesNews setup P (.resume i op r)) :
    Grounded setup ((P.record i).after op r) w' := by
  cases op with
  | hasSourceHash store resolutionId sourceHash =>
    cases r with
    | error e => exact grounded_rest (P.record i).stage rfl
    | ok present =>
      cases present with
      | true => exact grounded_found hanswers hcurrent rfl
      | false => trivial
  | latestMemoryCommit store resolutionId =>
    obtain ⟨sourceHash, hstage, hcommitted⟩ := hasks
    cases r with
    | error e => exact grounded_rest (P.record i).stage (by rw [Seen.after, hstage]; rfl)
    | ok found =>
      cases found with
      | none => exact grounded_rest (P.record i).stage (by rw [Seen.after, hstage]; rfl)
      | some sha => exact grounded_latest hanswers hcommitted (by rw [Seen.after, hstage]; rfl)
  | writeMemory store draft =>
    have hstage : (P.record i).stage =
        .absent store draft.source.resolutionId draft.source.sourceHash := hasks
    cases r with
    | error e => exact grounded_rest (P.record i).stage (by rw [Seen.after, hstage]; rfl)
    | ok result =>
      have hwritten : ((P.record i).after (.writeMemory store draft) (.ok result)).stage =
          .written store draft.source.resolutionId draft.source.sourceHash result := by
        rw [Seen.after, hstage]
        rfl
      rw [Grounded, hwritten]
      refine ⟨fun sha hsha => durable_written hanswers hsha, fun hclaimed => ?_⟩
      have hheld : (P.record i).claimed = true := (Bool.or_false _).symm.trans hclaimed
      obtain ⟨found, s', hresult, hmay⟩ := hnews i store draft result rfl hheld
      rw [hresult]
      exact commitSha_of_stages hmay
  | _ =>
    refine grounded_rest (P.record i).stage ?_
    rw [Seen.after]
    cases (P.record i).stage <;> rfl

end Answers

section Runs

variable {setup : Setup} {P P' : Calls} {l : Label (learning Branches)}
variable {m : Seen} {w w' : World Branches}
variable {q : Learning Branches (Option LearnResolution.MemoryWriteResult)}

def Keeping (setup : Setup) (P : Calls) : Prop :=
  ∀ i p, P.task i = some p →
    Settled p ∧ Obeys (ledger setup) Ends p (P.record i) P.state

/-- A call that waits keeps to the ledger while the others go on. -/
theorem obeys_later (h : Obeys (ledger setup) Ends q m w) (hsettled : Settled q)
    (hgrown : Elsewhere w w') (hheads : ∀ store resolutionId k,
      q = .await (.latestMemoryCommit store resolutionId) k →
        headMemory w' store resolutionId = headMemory w store resolutionId) :
    Obeys (ledger setup) Ends q m w' := by
  cases q with
  | ret a => trivial
  | raise e => trivial
  | halt => trivial
  | get k => exact hsettled.elim
  | set s next => exact hsettled.elim
  | await op k =>
    refine ⟨asks_later h.1 hgrown fun store resolutionId hop => ?_, h.2⟩
    subst hop
    exact hheads store resolutionId k rfl

/-- One call runs to its next await, and the others stay where they are. -/
theorem Keeping.run {i : ℕ} (h : Keeping setup P) (hq : Obeys (ledger setup) Ends q m w)
    (hgrown : Elsewhere P.state w) (hheads : ∀ j, j ≠ i → ∀ store resolutionId k,
      P.task j = some (.await (.latestMemoryCommit store resolutionId) k) →
        headMemory (P.run i q m w).state store resolutionId =
          headMemory P.state store resolutionId) : Keeping setup (P.run i q m w) := by
  obtain ⟨m', hacts, hobeys⟩ := hq.advance
  obtain ⟨rfl, hrepository⟩ : m' = m ∧ (advance q w).1.repository = w.repository := by
    refine hacts.preserves (I := fun (m₁ : Seen) (w₁ : World Branches) =>
      m₁ = m ∧ w₁.repository = w.repository) ⟨rfl, rfl⟩ ?_
    rintro m₁ w₁ m₂ w₂ ⟨rfl, hkept⟩ ⟨rfl, hact⟩
    exact ⟨rfl, hact.trans hkept⟩
  intro j p hp
  by_cases hj : j = i
  · subst hj
    rw [run_task_self, Option.some.injEq] at hp
    subst hp
    rw [run_record_self]
    exact ⟨advance_settled q w, hobeys⟩
  · rw [run_task_other hj] at hp
    rw [run_record_other hj]
    obtain ⟨hsettled, hwaits⟩ := h j p hp
    refine ⟨hsettled, obeys_later hwaits hsettled ?_ fun store resolutionId k hk => ?_⟩
    · intro store
      rw [run_state, hrepository]
      exact hgrown store
    · exact hheads j hj store resolutionId k (hk ▸ hp)

/-- A step under the conditions keeps every call to the ledger. -/
theorem Keeping.step (h : Keeping setup P) (hstep : TracedStep setup P l P') :
    Keeping setup P' := by
  obtain ⟨hstep, hundisturbed, hnews⟩ := hstep
  cases hstep with
  | start hfree hspawned =>
    obtain ⟨⟨devMemoryStore, resolutionId, rfl⟩, rfl⟩ := hspawned
    refine h.run (obeys_learnResolution devMemoryStore resolutionId)
      (fun store => List.suffix_refl _) fun j _ store resolutionId k hk => ?_
    exact hundisturbed j store resolutionId k hk fun r hr => nomatch hr
  | resume htask henv =>
    obtain ⟨hanswers, hcurrent⟩ := henv
    obtain ⟨hasks, hgoes⟩ := (h _ _ htask).2
    have hgrounded := grounded_after hasks hanswers hcurrent hnews
    refine h.run (hgoes _ _ _ rfl hgrounded) (answers_grows hanswers)
      fun j hj store resolutionId k hk => ?_
    refine hundisturbed j store resolutionId k hk fun r hr => ?_
    cases hr
    exact hj rfl
  | outside helsewhere =>
    intro i p hp
    obtain ⟨hsettled, hwaits⟩ := h i p hp
    refine ⟨hsettled, obeys_later hwaits hsettled helsewhere fun store resolutionId k hk => ?_⟩
    exact hundisturbed i store resolutionId k (hk ▸ hp) fun r hr => nomatch hr

theorem keeping_initial : Keeping setup (Pool.initial w Seen.nothing) :=
  fun _ _ hp => nomatch hp

/-- Every commit that a call acknowledges is on the remote branch, with a memory of the
source it was found or written for. -/
theorem acknowledged_durable {t : List (Label (learning Branches))}
    (hrun : Run (TracedStep setup) (Pool.initial w Seen.nothing) t P) :
    AcknowledgesDurably setup P := by
  have hkeeping : Keeping setup P :=
    hrun.preserves keeping_initial fun _ _ _ h hstep => h.step hstep
  intro i op k resolutionId commitSha htask hack
  have hasks : Asks setup (P.record i) P.state op := (hkeeping i _ htask).2.1
  cases op with
  | markMemoryIngested => exact hasks resolutionId commitSha hack
  | refreshMemoryIngested => exact hasks resolutionId commitSha hack
  | _ => cases hack

end Runs

section Sending

variable {w w' : World Branches} {c : Ingestion} {source : ResolutionSource} {memory : Fields}
variable {generalized : GeneralizationResult} {draft : DraftFields} {failureId : String}

/-- A call looks for the hash of its source first. -/
theorem advance_ingest (hmemory : memoryRow c.row c.linkedFailure = .ok memory)
    (hsource : resolutionSourceFromRow memory = .ok source) :
    ∃ k, advance (ingest c false) w =
        (w, .await (.hasSourceHash .main source.resolutionId source.sourceHash) k) ∧
      k (.ok false) = generalizeAndWrite c .main source memory := by
  unfold ingest storeFor
  simp only [Prog.bind_eq, Prog.pure_eq, hmemory, hsource, Prog.settle, Prog.bind, Bool.not_false,
    if_true]
  exact ⟨_, rfl, rfl⟩

/-- It goes on with a generalization to the write of its draft. -/
theorem advance_generalizeAndWrite (store : StoreName) (memory : Fields)
    (hactions : Json.pyEqItems source.dispatchedActions generalized.demonstratedActions = true)
    (hdraft : memoryDraft source generalized = .ok draft) :
    ∃ k, advance (generalizeAndWrite c store source memory) w =
        (w, .await (.generalizeResolution memory) k) ∧
      ∀ w', ∃ k', advance (k (.ok generalized)) w' = (w', .await (.writeMemory store draft) k') ∧
        ∀ result, k' (.ok result) =
          (Prog.update (World.learnCommit source.resolutionId result)).bind fun _ =>
            acknowledgeWritten c source result := by
  unfold generalizeAndWrite
  simp only [Prog.bind_eq]
  refine ⟨_, rfl, fun w' => ?_⟩
  simp only [Prog.settle, Prog.bind, hactions, hdraft, Bool.true_eq_false, if_false]
  exact ⟨_, rfl, fun result => rfl⟩

/-- A claimed call acknowledges what was written. -/
theorem advance_acknowledgeWritten (hclaimed : c.acknowledgement = .claimed)
    (hfailureId : c.failureId = some failureId) (result : LearnResolution.MemoryWriteResult)
    (hclient : w.clientSet = true) :
    ∃ k, advance ((Prog.update (World.learnCommit source.resolutionId result)).bind fun _ =>
        acknowledgeWritten c source result) w =
      (w.learnCommit source.resolutionId result,
        .await (.markMemoryIngested failureId source.resolutionId result.commitSha) k) := by
  have hstill : (w.learnCommit source.resolutionId result).clientSet = true :=
    (IngestionDiscipline.learnCommit_failures source.resolutionId result w).2.trans hclient
  obtain ⟨k, hack⟩ : ∃ k, advance ((query (.markMemoryIngested failureId source.resolutionId
      result.commitSha)).bind fun _ => Prog.ret (some result))
        (w.learnCommit source.resolutionId result) =
      (w.learnCommit source.resolutionId result,
        .await (.markMemoryIngested failureId source.resolutionId result.commitSha) k) :=
    ⟨_, advance_bind_await (advance_query hstill)⟩
  unfold acknowledgeWritten markMemoryIngested
  rw [if_pos hclaimed, hfailureId]
  exact ⟨k, hack⟩

/-- The call that writes a memory, from its claim to its acknowledgement. -/
theorem advance_ingestClaimed (hclaimed : c.acknowledgement = .claimed)
    (hfailureId : c.failureId = some failureId)
    (hmemory : memoryRow c.row c.linkedFailure = .ok memory)
    (hsource : resolutionSourceFromRow memory = .ok source)
    (hactions : Json.pyEqItems source.dispatchedActions generalized.demonstratedActions = true)
    (hdraft : memoryDraft source generalized = .ok draft) :
    ∃ k, advance (ingestClaimed c false) w =
        (w, .await (.hasSourceHash .main source.resolutionId source.sourceHash) k) ∧
      ∀ w₁, ∃ k₁, advance (k (.ok false)) w₁ = (w₁, .await (.generalizeResolution memory) k₁) ∧
        ∀ w₂, ∃ k₂, advance (k₁ (.ok generalized)) w₂ =
            (w₂, .await (.writeMemory .main draft) k₂) ∧
          ∀ w₃ result, w₃.clientSet = true → ∃ k₃, advance (k₂ (.ok result)) w₃ =
            (w₃.learnCommit source.resolutionId result,
              .await (.markMemoryIngested failureId source.resolutionId result.commitSha) k₃) := by
  obtain ⟨k, hsearch, hmissing⟩ := advance_ingest (w := w) hmemory hsource
  unfold ingestClaimed
  rw [if_neg (by simp [hclaimed])]
  refine ⟨_, advance_tryCatch_await hsearch, fun w₁ => ?_⟩
  obtain ⟨k₁, hgeneralize, hgoes⟩ :=
    advance_generalizeAndWrite (c := c) (w := w₁) .main memory hactions hdraft
  rw [hmissing]
  refine ⟨_, advance_tryCatch_await hgeneralize, fun w₂ => ?_⟩
  obtain ⟨k₂, hwrite, hends⟩ := hgoes w₂
  refine ⟨_, advance_tryCatch_await hwrite, fun w₃ result hclient => ?_⟩
  obtain ⟨k₃, hack⟩ := advance_acknowledgeWritten hclaimed hfailureId result hclient
  rw [hends]
  exact ⟨_, advance_tryCatch_await hack⟩

end Sending

section Alone

variable {setup : Setup} {P : Calls} {l : Label (learning Branches)} {m : Seen}
variable {w w' w'' : World Branches} {op : Op} {k : Except PyExc op.Reply → Learning Branches _}
variable {p q : Learning Branches (Option LearnResolution.MemoryWriteResult)}

/-- Call 0 is the only call of the pool, with this left to do and this seen. -/
structure Alone (P : Calls) (w : World Branches)
    (p : Learning Branches (Option LearnResolution.MemoryWriteResult)) (m : Seen) : Prop where
  state : P.state = w
  task : P.task 0 = some p
  others : ∀ j, j ≠ 0 → P.task j = none
  record : P.record 0 = m

/-- The only call is answered and runs to its next await. -/
theorem Alone.answered (env : Environment (learning Branches)) {r : Except PyExc op.Reply}
    (h : Alone P w (.await op k) m) (henv : env w op r w')
    (hadvance : advance (k r) w' = (w'', q)) :
    ∃ P', Step Spawned Seen.after env Elsewhere P (.resume 0 op r) P' ∧
      Alone P' w'' q (m.after op r) := by
  have hstep := h.state ▸ henv
  refine ⟨_, Step.resume h.task hstep, ?_, ?_, fun j hj => ?_, ?_⟩
  · rw [run_state, hadvance]
  · rw [run_task_self, hadvance]
  · rw [run_task_other hj]
    exact h.others j hj
  · rw [run_record_self, h.record]

/-- The only call does not wait for the latest commit of a memory. -/
theorem Alone.undisturbed {P' : Calls} (h : Alone P w (.await op k) m)
    (hop : ∀ store resolutionId, op ≠ .latestMemoryCommit store resolutionId) :
    Undisturbed P l P' := by
  intro i store resolutionId k' htask
  by_cases hi : i = 0
  · rw [hi, h.task, Option.some.injEq] at htask
    cases htask
    exact absurd rfl (hop store resolutionId)
  · rw [h.others i hi] at htask
    cases htask

/-- An answer to neither a search nor a write. -/
theorem Alone.traced (setup : Setup) {r : Except PyExc op.Reply} (h : Alone P w (.await op k) m)
    (hop : storeProgram setup op = none) (hstep : DatabaseStep w op r w')
    (hkept : w'.repository = w.repository) (hadvance : advance (k r) w' = (w'', q)) :
    ∃ P', TracedStep setup P (.resume 0 op r) P' ∧ Alone P' w'' q (m.after op r) := by
  have hanswers : answers setup w op r w' := by
    unfold answers
    rw [hop]
    exact ⟨hstep, hkept⟩
  have hcurrent : FoundCurrent setup w' op r := by
    cases op with
    | hasSourceHash => cases hop
    | _ => trivial
  obtain ⟨P', hstep', halone⟩ := h.answered
    (fun w op r w' => answers setup w op r w' ∧ FoundCurrent setup w' op r)
    ⟨hanswers, hcurrent⟩ hadvance
  refine ⟨P', ⟨hstep', h.undisturbed ?_, ?_⟩, halone⟩
  · rintro store resolutionId rfl
    cases hop
  · intro i store draft result hl
    cases hl
    cases hop

theorem callStep_of_traced {P' : Calls} (h : TracedStep setup P l P') :
    CallStep setup P l P' := by
  obtain ⟨hstep, -, -⟩ := h
  cases hstep with
  | start hfree hspawned => exact .start hfree hspawned
  | resume htask henv => exact .resume htask henv.1
  | outside helsewhere => exact .outside helsewhere

end Alone

section Writing

variable {w : World Branches} {resolutionId failureId : String}
variable {row failure memory : Fields} {columns : MemoryColumns} {source : ResolutionSource}
variable {generalized : GeneralizationResult} {draft : DraftFields} {s : Store}

/-- The row is claimed, and the main store has been searched. -/
def searched (w : World Branches) (failureId resolutionId : String) (s : Store) :
    World Branches :=
  { claimedWorld w failureId resolutionId with
    repository := Function.update w.repository .main s }

/-- A call that does not find its hash comes to the write of its memory. -/
theorem writing_run (setup : Setup)
    (h : ClaimableCall w resolutionId failureId row failure memory columns)
    (hsource : resolutionSourceFromRow memory = .ok source)
    (hactions : Json.pyEqItems source.dispatchedActions generalized.demonstratedActions = true)
    (hdraft : memoryDraft source generalized = .ok draft)
    (hsearch : GitAnswers anyTime
      (hasSourceHash (setup.config .main) source.resolutionId source.sourceHash true)
      (w.repository .main) (.ok false) s) :
    ∃ t P k, Run (TracedStep setup) (Pool.initial w Seen.nothing) t P ∧
      Alone P (searched w failureId resolutionId s) (.await (.writeMemory .main draft) k)
        ⟨true, .absent .main source.resolutionId source.sourceHash⟩ ∧
      ∀ w' result, w'.clientSet = true → ∃ k', advance (k (.ok result)) w' =
        (w'.learnCommit source.resolutionId result,
          .await (.markMemoryIngested failureId source.resolutionId result.commitSha) k') := by
  obtain ⟨k₁, hfetch, hrow⟩ := advance_learnResolution resolutionId row false h.connected
  obtain ⟨k₂, hlink, hfailure⟩ :=
    advance_learnRow resolutionId failure false h.connected h.positive h.failureId
  obtain ⟨k₃, hclaim, hclaimed⟩ := advance_claim failureId (fun acknowledgement => ingestClaimed
    ⟨resolutionId, row, some failureId, some failure, acknowledgement⟩ false) h.connected h.linked
    rfl h.claimable
  obtain ⟨k₄, hsearches, hrest⟩ := advance_ingestClaimed
    (w := claimedWorld w failureId resolutionId)
    (c := ⟨resolutionId, row, some failureId, some failure, .claimed⟩) rfl rfl h.prepared hsource
    hactions hdraft
  obtain ⟨k₅, hgeneralizes, hrest⟩ := hrest (searched w failureId resolutionId s)
  obtain ⟨k₆, hwrites, hends⟩ := hrest (searched w failureId resolutionId s)
  have hstart : TracedStep setup (Pool.initial w Seen.nothing) (.start 0)
      ((Pool.initial w Seen.nothing).run 0 (learnResolution false resolutionId)
        Seen.nothing w) := by
    refine ⟨.start rfl ⟨⟨false, resolutionId, rfl⟩, rfl⟩, ?_, ?_⟩
    · intro i store id k htask
      cases htask
    · intro i store draft result hl
      cases hl
  have halone₁ : Alone ((Pool.initial w Seen.nothing).run 0 (learnResolution false resolutionId)
      Seen.nothing w) w (.await (.fetchResolution resolutionId) k₁) Seen.nothing := by
    refine ⟨?_, ?_, fun j hj => ?_, run_record_self⟩
    · rw [run_state, hfetch]
    · rw [run_task_self, hfetch]
    · rw [run_task_other hj]
      rfl
  have hfetched : DatabaseStep w (.fetchResolution resolutionId) (.ok (some row)) w :=
    databaseStep_fetch rfl h.fetched
  have hread : DatabaseStep w (.fetchFailure failureId) (.ok (some failure)) w :=
    databaseStep_fetch rfl trivial
  have hgeneralized : DatabaseStep (searched w failureId resolutionId s)
      (.generalizeResolution memory) (.ok generalized) (searched w failureId resolutionId s) :=
    databaseStep_fetch rfl trivial
  obtain ⟨P₂, hstep₂, halone₂⟩ := halone₁.traced setup rfl hfetched rfl (hrow ▸ hlink)
  obtain ⟨P₃, hstep₃, halone₃⟩ := halone₂.traced setup rfl hread rfl (hfailure ▸ hclaim)
  obtain ⟨P₄, hstep₄, halone₄⟩ :=
    halone₃.traced setup rfl (databaseStep_claim h) rfl (hclaimed ▸ hsearches)
  have hanswers : answers setup (claimedWorld w failureId resolutionId)
      (.hasSourceHash .main source.resolutionId source.sourceHash) (.ok false)
      (searched w failureId resolutionId s) := ⟨s, hsearch, rfl⟩
  obtain ⟨P₅, hstep₅, halone₅⟩ := halone₄.answered
    (fun w op r w' => answers setup w op r w' ∧ FoundCurrent setup w' op r)
    ⟨hanswers, trivial⟩ hgeneralizes
  have htraced₅ : TracedStep setup P₄ (.resume 0 (.hasSourceHash .main source.resolutionId
      source.sourceHash) (.ok false)) P₅ :=
    ⟨hstep₅, halone₄.undisturbed (by simp), fun i store draft result hl => by cases hl⟩
  obtain ⟨P₆, hstep₆, halone₆⟩ := halone₅.traced setup rfl hgeneralized rfl hwrites
  have hrun : Run (TracedStep setup) (Pool.initial w Seen.nothing) [] _ := .start
  exact ⟨_, P₆, k₆, (((((hrun.next hstart).next hstep₂).next hstep₃).next hstep₄).next
    htraced₅).next hstep₆, halone₆, hends⟩

end Writing

section Samples

def sampleId : String := "12345678-1234-5678-1234-567812345678"

def sampleFailureId : String := "87654321-4321-8765-4321-876543218765"

def sampleResolution : JsonRoundTrip.JsonRow where
  fields := [("resolution_id", .str sampleId), ("failure_id", .str sampleFailureId),
    ("sysid", .str "ROBOT-1"), ("outcome", .str "resolved"), ("applied", .bool true),
    ("action_runs", .arr [.obj [("command", .str "open_door"), ("status", .str "sent")]])]
  decoded := ⟨by simp [Json.Distinct, Json.DistinctMembers, Json.DistinctItems], rfl⟩

def sampleFailure : JsonRoundTrip.JsonRow where
  fields := [("failure_id", .str sampleFailureId), ("memory_status", .str "pending"),
    ("memory_resolution_id", .str sampleId)]
  decoded := ⟨by simp [Json.Distinct, Json.DistinctMembers], rfl⟩

def sampleGeneralized : GeneralizationResult where
  failurePattern := "The door was closed"
  resolutionSummary := "The door was opened"
  tags := ["door"]
  signature := []
  demonstratedActions := successfulActionRuns sampleResolution.fields
  model := "gpt-5.6-luna"
  responseId := "resp_1"

def sampleProse : Prose where
  failureSummary := sampleGeneralized.failurePattern
  recoverySummary := sampleGeneralized.resolutionSummary
  lessons := sampleGeneralized.tags.map fun tag => "Retrieval tag: " ++ tag
  signature := some sampleGeneralized.signature
  model := sampleGeneralized.model
  responseId := some sampleGeneralized.responseId
  nonblank := by decide
  signed := ⟨some [], rfl⟩

def sampleWorld : World Branches where
  clientSet := true
  knownCommitShas _ := none
  failures failureId :=
    if failureId = sampleFailureId then some ⟨some "pending", some sampleId, none⟩ else none
  repository _ := ⟨none, sampleRemote⟩

def sampleSetup : Setup := ⟨fun _ => sampleConfig, fun _ => "", fun sha => toString sha.length⟩

/-- The draft a call makes of the sample. -/
theorem exists_sampleDraft : ∃ memory source draft,
    memoryRow sampleResolution.fields (some sampleFailure.fields) = .ok memory ∧
      resolutionSourceFromRow memory = .ok source ∧
      Json.pyEqItems source.dispatchedActions sampleGeneralized.demonstratedActions = true ∧
      memoryDraft source sampleGeneralized = .ok draft := by
  obtain ⟨memory, hmemory⟩ := exists_of_isOk (x := memoryRow sampleResolution.fields
    (some sampleFailure.fields)) (by decide +kernel)
  obtain ⟨resolutionId, hid⟩ := exists_of_isOk
    (x := canonicalUuid (.str sampleId) "resolution_id") (by decide +kernel)
  obtain ⟨failureId, hfailure⟩ := exists_of_isOk
    (x := optionalUuid (.str sampleFailureId) "failure_id") (by decide +kernel)
  have hplain : Plain sampleResolution.fields sampleProse :=
    ⟨rfl, ⟨resolutionId, failureId, hid, hfailure⟩, by decide⟩
  obtain ⟨-, source, draft, hsource, hdraft, hactions, -⟩ := consistent_of_plain sampleResolution
    (some sampleFailure) sampleProse (by decide +kernel) hmemory hplain
  rw [(postInit_positive hdraft).1] at hactions
  exact ⟨memory, source, draft, hmemory, hsource, hactions, hdraft⟩

theorem sampleCall {memory : Fields}
    (hmemory : memoryRow sampleResolution.fields (some sampleFailure.fields) = .ok memory) :
    ClaimableCall sampleWorld sampleId sampleFailureId sampleResolution.fields
      sampleFailure.fields memory ⟨some "pending", some sampleId, none⟩ := by
  have hsysid : Fields.get memory "sysid" = .str "ROBOT-1" :=
    get_memoryRow hmemory (by decide) rfl
  have hcanonical : canonicalUuid (.str sampleId) "resolution_id" = .ok sampleId := by
    decide +kernel
  refine ⟨rfl, rfl, ?_, ?_, ⟨?_, fun uuid huuid => ?_⟩, rfl, ?_, ?_, ?_, hmemory, ?_⟩
  · decide +kernel
  · decide +kernel
  · decide +kernel
  · rw [hcanonical, Except.ok.injEq] at huuid
    exact huuid.symm
  · decide +kernel
  · decide +kernel
  · decide +kernel
  · rw [rowSysid, hsysid]
    decide +kernel

/-- Somebody else has pushed the memory of the draft. -/
def sampleTheirs (draft : DraftFields) : Commit String (List Char) :=
  ⟨Function.update (fun _ => none) (memoryPath draft.source.resolutionId)
    (some (renderMemory sampleSetup.strOf draft)), "Record resolution memory"⟩

theorem headTree_theirs (draft : DraftFields) : headTree (sampleTheirs draft :: sampleRemote)
    (memoryPath draft.source.resolutionId) = some (renderMemory sampleSetup.strOf draft) := by
  simp only [headTree, sampleTheirs, Function.update_self]

/-- A fresh checkout is moved forward to a commit of somebody else. -/
theorem pulls_theirs (theirs : Commit String (List Char)) (remote : Sha) :
    Pulls (GitHistory.clone remote) (theirs :: remote) (GitHistory.clone (theirs :: remote)) := by
  refine .fastForward _ ?_ (List.suffix_cons _ _) rfl (fun _ _ => ⟨rfl, rfl, rfl, rfl⟩)
    fun path hsame => ⟨hsame, hsame⟩
  intro h
  have hlength := h.length_le
  simp [GitHistory.clone] at hlength

/-- What a call may start from: nothing is checked out or remembered. -/
def Fresh (w : World Branches) : Prop :=
  (∀ id, w.knownCommitShas id = none) ∧ ∀ store, (w.repository store).checkout = none

/-- A memory that somebody else pushes between the search for its hash and its write is
acknowledged without a commit. -/
theorem unnamed_commit : ¬ ∀ setup w t P, Fresh w →
    Run (CallStep setup) (Pool.initial w Seen.nothing) t P → AcknowledgesDurably setup P := by
  intro hclaim
  obtain ⟨memory, source, draft, hmemory, hsource, hactions, hdraft⟩ := exists_sampleDraft
  have hsearch : GitAnswers anyTime (hasSourceHash sampleConfig source.resolutionId
      source.sourceHash true) ⟨none, sampleRemote⟩ (.ok false)
      ⟨some (GitHistory.clone sampleRemote), sampleRemote⟩ :=
    may_hasSourceHash sampleConfig_origin fun _ => rfl
  obtain ⟨t, P, k, hrun, halone, hends⟩ := writing_run sampleSetup
    (sampleCall hmemory) hsource hactions hdraft hsearch
  -- the same text comes to the remote branch while the call generalizes
  obtain ⟨moved, hmoved⟩ : ∃ moved : Store, moved =
      ⟨some (GitHistory.clone sampleRemote), sampleTheirs draft :: sampleRemote⟩ := ⟨_, rfl⟩
  obtain ⟨w, hw⟩ : ∃ w, w = searched sampleWorld sampleFailureId sampleId moved := ⟨_, rfl⟩
  have houtside : Elsewhere P.state w := by
    intro store
    rw [halone.state, hw, hmoved]
    cases store with
    | main => exact List.suffix_cons _ _
    | dev => exact List.suffix_refl _
  have hpushed : CallStep sampleSetup P .outside { P with state := w } := .outside houtside
  have halone' : Alone { P with state := w } w (.await (.writeMemory .main draft) k)
      ⟨true, .absent .main source.resolutionId source.sourceHash⟩ :=
    ⟨rfl, halone.task, halone.others, halone.record⟩
  have htext := headTree_theirs draft
  obtain ⟨s, hwrite⟩ : ∃ s, May (sharedEnvironment nobody anyTime)
      (GitMemoryStore.writeMemory sampleConfig sampleSetup.strOf draft) moved
      (.returned ⟨draft.source.resolutionId, memoryPath draft.source.resolutionId, false, none⟩
        s) := by
    rw [hmoved]
    exact may_writeNothing sampleConfig_origin draft rfl rfl
      (pulls_theirs (sampleTheirs draft) sampleRemote) (List.suffix_refl _) htext htext
  have hanswers : answers sampleSetup w (.writeMemory .main draft)
      (.ok (writtenResult sampleSetup ⟨draft.source.resolutionId,
        memoryPath draft.source.resolutionId, false, none⟩))
      { w with repository := Function.update w.repository .main s } := by
    refine ⟨s, May.bind ?_ may_ret, rfl⟩
    rw [hw]
    exact hwrite
  obtain ⟨k', hack⟩ := hends { w with repository := Function.update w.repository .main s }
    ⟨draft.source.resolutionId, false, none⟩ (by rw [hw]; rfl)
  obtain ⟨P', hstep, halone''⟩ := halone'.answered (answers sampleSetup) hanswers hack
  have hdurably := hclaim sampleSetup sampleWorld _ P' ⟨fun _ => rfl, fun _ => rfl⟩
    (((hrun.mono fun _ _ _ => callStep_of_traced).next hpushed).next hstep)
  obtain ⟨store, sourceHash, sha, -, hnone, -⟩ := hdurably 0 _ k' _ none halone''.task rfl
  cases hnone

/-- A first write is acknowledged with its commit. -/
theorem acknowledged_durable_sample : ∃ (t : List (Label (learning Branches))) (P : Calls)
    (k : Except PyExc Unit → Learning Branches (Option LearnResolution.MemoryWriteResult))
    (resolutionId : String) (commitSha : Option String),
    Run (TracedStep sampleSetup) (Pool.initial sampleWorld Seen.nothing) t P ∧
      P.task 0 = some (.await (.markMemoryIngested sampleFailureId resolutionId commitSha) k) ∧
      Acknowledged sampleSetup (P.record 0) P.state resolutionId commitSha := by
  obtain ⟨memory, source, draft, hmemory, hsource, hactions, hdraft⟩ := exists_sampleDraft
  have hsearch : GitAnswers anyTime (hasSourceHash sampleConfig source.resolutionId
      source.sourceHash true) ⟨none, sampleRemote⟩ (.ok false)
      ⟨some (GitHistory.clone sampleRemote), sampleRemote⟩ :=
    may_hasSourceHash sampleConfig_origin fun _ => rfl
  obtain ⟨t, P, k, hrun, halone, hends⟩ := writing_run sampleSetup
    (sampleCall hmemory) hsource hactions hdraft hsearch
  obtain ⟨found, s, hnews⟩ : ∃ found s, May (sharedEnvironment nobody stagesChanges)
      (GitMemoryStore.writeMemory sampleConfig sampleSetup.strOf draft)
      ⟨some (GitHistory.clone sampleRemote), sampleRemote⟩ (.returned found s) :=
    may_writeNews sampleConfig_origin draft rfl rfl (List.suffix_refl sampleRemote) rfl rfl
  have hanywhere : May (sharedEnvironment nobody anyTime)
      (GitMemoryStore.writeMemory sampleConfig sampleSetup.strOf draft)
      ⟨some (GitHistory.clone sampleRemote), sampleRemote⟩ (.returned found s) := by
    refine hnews.of_asks (asks_writeMemory draft fun _ _ => trivial) ?_
    rintro s op r s' - ⟨remote, hpush, -, hstep⟩
    exact ⟨remote, hpush, trivial, hstep⟩
  obtain ⟨w, hw⟩ : ∃ w, w = searched sampleWorld sampleFailureId sampleId
      ⟨some (GitHistory.clone sampleRemote), sampleRemote⟩ := ⟨_, rfl⟩
  rw [← hw] at halone
  have hanswers : answers sampleSetup w (.writeMemory .main draft)
      (.ok (writtenResult sampleSetup found))
      { w with repository := Function.update w.repository .main s } := by
    refine ⟨s, May.bind ?_ may_ret, rfl⟩
    rw [hw]
    exact hanywhere
  obtain ⟨k', hack⟩ := hends { w with repository := Function.update w.repository .main s }
    (writtenResult sampleSetup found) (by rw [hw]; rfl)
  obtain ⟨P', hstep, halone'⟩ := halone.answered
    (fun w op r w' => answers sampleSetup w op r w' ∧ FoundCurrent sampleSetup w' op r)
    ⟨hanswers, trivial⟩ hack
  have hwrites : WritesNews sampleSetup P (.resume 0 (.writeMemory .main draft)
      (.ok (writtenResult sampleSetup found))) := by
    intro i store draft' result hl _
    cases hl
    refine ⟨found, s, rfl, ?_⟩
    rw [halone.state, hw]
    exact hnews
  have hrun' := hrun.next ⟨hstep, halone.undisturbed (by simp), hwrites⟩
  exact ⟨_, P', k', _, _, hrun', halone'.task,
    acknowledged_durable hrun' 0 _ k' _ _ halone'.task rfl⟩

end Samples

end FailureResolver.DurableAcknowledgement
