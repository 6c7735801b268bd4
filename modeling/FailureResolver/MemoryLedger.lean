import FailureResolver.LearnResolution
import FailureResolver.MemoryProvenance
import FailureResolver.TaskPool

/-!
What one call of `learnResolution` knows of the memory it is about to acknowledge.
It has looked for the hash of its source and then named a commit of the memory it
has found, or written the memory it has not found. It acknowledges only a commit
that is on the remote branch, if its answers say what they should.
-/

namespace FailureResolver.MemoryLedger

open GitHistory GitMemoryStore JsonValue LearnResolution MemoryProvenance Program PyException
open ResolutionEpisode ResolutionMemory RowText SharedBranch TaskPool Transitions

section System

abbrev Branches := StoreName → Store

/-- How the stores are configured, and how a commit is written. -/
structure Setup where
  config : StoreName → Config
  strOf : Json → String
  nameOf : Sha → String

variable (setup : Setup)

def writtenResult (result : GitMemoryStore.MemoryWriteResult) : LearnResolution.MemoryWriteResult :=
  ⟨result.resolutionId, result.changed, result.commitSha.map setup.nameOf⟩

def storeProgram : (op : Op) → Option (StoreName × Prog git op.Reply)
  | .hasSourceHash store resolutionId sourceHash =>
      some (store, hasSourceHash (setup.config store) resolutionId sourceHash true)
  | .latestMemoryCommit store resolutionId =>
      some (store, (latestMemoryCommit (setup.config store) resolutionId false).bind fun found =>
        .ret (found.map setup.nameOf))
  | .writeMemory store draft =>
      some (store, (GitMemoryStore.writeMemory (setup.config store) setup.strOf draft).bind
        fun result => .ret (writtenResult setup result))
  | _ => none

def nobody : Own := fun _ => False

/-- Git runs the commands, with others pushing between them, to an answer or to any
point where it fails or is cut. -/
def GitAnswers {α : Type} (timing : Timing) (p : Prog git α) (s : Store) :
    Except PyExc α → Store → Prop
  | .ok a, s' => May (sharedEnvironment nobody timing) p s (.returned a s')
  | .error _, s' => Leaves (sharedEnvironment nobody timing) p s s'

def answers : Environment (learning Branches) := fun w op r w' =>
  match storeProgram setup op with
  | none => DatabaseStep w op r w' ∧ w'.repository = w.repository
  | some (store, p) => ∃ s, GitAnswers anyTime p (w.repository store) r s ∧
      w' = { w with repository := Function.update w.repository store s }

/-- Anything else may happen to the checkouts and to what the process remembers;
nobody takes a commit off a remote branch. -/
def Elsewhere (w w' : World Branches) : Prop :=
  ∀ store, (w.repository store).remote <:+ (w'.repository store).remote

/-- What a call has found out: whether it has claimed its row, the hash it has looked
for, and what came of it. -/
inductive Stage
  | none
  | absent (store : StoreName) (resolutionId sourceHash : String)
  | found (store : StoreName) (resolutionId sourceHash : String)
  | latest (store : StoreName) (resolutionId sourceHash commitSha : String)
  | written (store : StoreName) (resolutionId sourceHash : String)
      (result : LearnResolution.MemoryWriteResult)
  | over

structure Seen where
  claimed : Bool
  stage : Stage

def Seen.nothing : Seen := ⟨false, .none⟩

/-- The store, the resolution and the hash of the source that was looked for. -/
def Stage.asked : Stage → Option (StoreName × String × String)
  | .absent store resolutionId sourceHash => some (store, resolutionId, sourceHash)
  | .found store resolutionId sourceHash => some (store, resolutionId, sourceHash)
  | .latest store resolutionId sourceHash _ => some (store, resolutionId, sourceHash)
  | .written store resolutionId sourceHash _ => some (store, resolutionId, sourceHash)
  | _ => Option.none

/-- What is left of it after anything else: a hash that was not found stays so. -/
def Stage.rest : Stage → Stage
  | .none => .none
  | .absent store resolutionId sourceHash => .absent store resolutionId sourceHash
  | _ => .over

def Stage.after : Stage → (op : Op) → Except PyExc op.Reply → Stage
  | _, .hasSourceHash store resolutionId sourceHash, .ok present =>
      if present then .found store resolutionId sourceHash
      else .absent store resolutionId sourceHash
  | .found store resolutionId sourceHash, .latestMemoryCommit .., .ok (some commitSha) =>
      .latest store resolutionId sourceHash commitSha
  | .absent store resolutionId sourceHash, .writeMemory .., .ok result =>
      .written store resolutionId sourceHash result
  | stage, _, _ => stage.rest

def claims : (op : Op) → Except PyExc op.Reply → Bool
  | .claimMemory .., .ok updated => updated
  | _, _ => false

def Seen.after (m : Seen) (op : Op) (r : Except PyExc op.Reply) : Seen where
  claimed := m.claimed || claims op r
  stage := m.stage.after op r

abbrev Calls := Pool (learning Branches) (Option LearnResolution.MemoryWriteResult) Seen

def Spawned (p : Learning Branches (Option LearnResolution.MemoryWriteResult)) (m : Seen) : Prop :=
  (∃ devMemoryStore resolutionId, p = learnResolution devMemoryStore resolutionId) ∧
    m = Seen.nothing

/-- A step of the calls, of other writers or of anything that happens to a checkout. -/
def CallStep (P : Calls) (l : Label (learning Branches)) (P' : Calls) : Prop :=
  Step Spawned Seen.after (answers setup) Elsewhere P l P'

/-- The commit is on the remote branch of the store, with a memory of this hash. -/
def Durable (w : World Branches) (store : StoreName) (resolutionId sourceHash commitSha : String) :
    Prop :=
  ∃ commit, commitSha = setup.nameOf commit ∧ commit <:+ (w.repository store).remote ∧
    ∃ text, headTree commit (memoryPath resolutionId) = some text ∧
      HasHash setup.strOf text sourceHash

/-- A commit is there, and it is durable for the source the call has looked for. -/
def Acknowledged (m : Seen) (w : World Branches) (resolutionId : String)
    (commitSha : Option String) : Prop :=
  ∃ store sourceHash sha, m.stage.asked = some (store, resolutionId, sourceHash) ∧
    commitSha = some sha ∧ Durable setup w store resolutionId sourceHash sha

/-- The resolution that is acknowledged as ingested, and the commit. -/
def acknowledgement : Op → Option (String × Option String)
  | .markMemoryIngested _ resolutionId commitSha => some (resolutionId, commitSha)
  | .refreshMemoryIngested _ resolutionId commitSha _ => some (resolutionId, some commitSha)
  | _ => none

/-- Whatever a call acknowledges is durable. -/
def AcknowledgesDurably (P : Calls) : Prop :=
  ∀ i op k resolutionId commitSha, P.task i = some (.await op k) →
    acknowledgement op = some (resolutionId, commitSha) →
      Acknowledged setup (P.record i) P.state resolutionId commitSha

end System

section Ledger

variable (setup : Setup)

def headMemory (w : World Branches) (store : StoreName) (resolutionId : String) :
    Option (Option (List Char)) :=
  (w.repository store).checkout.map fun c => headTree c.history (memoryPath resolutionId)

/-- The memory of the resolution is committed at the branch head, with this hash. -/
def Committed (w : World Branches) (store : StoreName) (resolutionId sourceHash : String) : Prop :=
  ∃ text, headMemory w store resolutionId = some (some text) ∧ HasHash setup.strOf text sourceHash

/-- What a call has found out, as long as it goes on from there. -/
def Grounded (m : Seen) (w : World Branches) : Prop :=
  match m.stage with
  | .found store resolutionId sourceHash =>
      Committed setup w store resolutionId sourceHash ∧
        ∀ sha, w.knownCommitShas resolutionId = some sha → sha ≠ "" →
          Durable setup w store resolutionId sourceHash sha
  | .latest store resolutionId sourceHash sha => Durable setup w store resolutionId sourceHash sha
  | .written store resolutionId sourceHash result =>
      (∀ sha, result.commitSha = some sha → Durable setup w store resolutionId sourceHash sha) ∧
        (m.claimed = true → result.commitSha ≠ none)
  | _ => True

/-- A call asks for the latest commit of a memory it has found, writes the memory it
has not found, and acknowledges what is durable. -/
def Asks (m : Seen) (w : World Branches) : Op → Prop
  | .latestMemoryCommit store resolutionId => ∃ sourceHash,
      m.stage = .found store resolutionId sourceHash ∧
        Committed setup w store resolutionId sourceHash
  | .writeMemory store draft =>
      m.stage = .absent store draft.source.resolutionId draft.source.sourceHash
  | op => ∀ resolutionId commitSha, acknowledgement op = some (resolutionId, commitSha) →
      Acknowledged setup m w resolutionId commitSha

def ledger : Discipline (learning Branches) Seen where
  rely := Grounded setup
  act m w m' w' := m' = m ∧ w'.repository = w.repository
  request := Asks setup
  answer m op r m' := m' = m.after op r

end Ledger

section Parts

variable {setup : Setup} {α β : Type} {m : Seen} {w w' : World Branches} {c : Ingestion}
variable {source : ResolutionSource} {store : StoreName}

theorem durable_congr {resolutionId sourceHash sha : String} (h : w'.repository = w.repository)
    (hdurable : Durable setup w store resolutionId sourceHash sha) :
    Durable setup w' store resolutionId sourceHash sha := by
  unfold Durable
  rw [h]
  exact hdurable

/-- Neither a claim, a question about a memory, a write of one nor an acknowledgement. -/
def isOther : Op → Bool
  | .claimMemory .. => false
  | .hasSourceHash .. => false
  | .latestMemoryCommit .. => false
  | .writeMemory .. => false
  | .markMemoryIngested .. => false
  | .refreshMemoryIngested .. => false
  | _ => true

theorem asks_other (m : Seen) (w : World Branches) (op : Op) (h : isOther op = true) :
    Asks setup m w op := by
  cases op with
  | latestMemoryCommit => cases h
  | writeMemory => cases h
  | markMemoryIngested => cases h
  | refreshMemoryIngested => cases h
  | _ => exact fun _ _ hack => nomatch hack

theorem after_other {op : Op} (h : isOther op = true) (hrest : m.stage.rest = m.stage)
    (r : Except PyExc op.Reply) : m.after op r = m := by
  have hclaims : claims op r = false := by
    cases op with
    | claimMemory => cases h
    | _ => rfl
  have hstage : m.stage.after op r = m.stage.rest := by
    cases op with
    | hasSourceHash => cases h
    | latestMemoryCommit => cases h
    | writeMemory => cases h
    | _ => cases m.stage <;> rfl
  unfold Seen.after
  rw [hclaims, hstage, hrest, Bool.or_false]

abbrev Other (p : Learning Branches α) : Prop := p.Awaits fun op => isOther op = true

theorem other_query {op : Op} (h : isOther op = true) :
    Other (query op : Learning Branches op.Reply) := by
  refine Prog.Awaits.bind (fun w => ?_) fun _ => Prog.Awaits.call h
  show (if w.clientSet then _ else _ : Learning Branches Unit).Awaits _
  split
  · trivial
  · trivial

abbrev Ends (_ : Except PyExc α) (_ : Seen) (_ : World Branches) : Prop := True

theorem obeys_other {p : Learning Branches α} (hp : Other p) :
    Obeys (ledger setup) Ends p m w :=
  Obeys.of_allowed hp fun m w op hop => asks_other m w op hop

/-- A part that learns nothing of the memory, and the rest. -/
theorem obeys_other_bind {p : Learning Branches α} {f : α → Learning Branches β}
    {Q : Except PyExc β → Seen → World Branches → Prop} (hp : Other p)
    (hrest : m.stage.rest = m.stage) (hf : ∀ a w', Obeys (ledger setup) Q (f a) m w')
    (herror : ∀ e w', Q (.error e) m w') : Obeys (ledger setup) Q (p.bind f) m w := by
  rw [obeys_bind]
  have hkept : Obeys (ledger setup) (fun _ m' _ => m' = m) p m w := by
    apply Obeys.of_awaits hp
    · intro w op hop
      exact asks_other m w op hop
    · intro op r m' hop hanswer
      exact hanswer.trans (after_other hop hrest r)
  refine hkept.mono fun r m' w' hsame => ?_
  rw [hsame]
  cases r with
  | ok a => exact hf a w'
  | error e => exact herror e w'

/-- What follows an acknowledgement does not matter. -/
theorem obeys_acknowledgement {op : Op} {f : op.Reply → Learning Branches α}
    (h : Asks setup m w op) (hf : ∀ a, Other (f a)) :
    Obeys (ledger setup) Ends ((query op).bind f) m w := by
  rw [obeys_bind]
  refine obeys_client_query (fun _ => h) (fun r m' w' _ _ => ?_) fun _ => trivial
  cases r with
  | ok a => exact obeys_other (hf a)
  | error e => trivial

theorem obeys_markMemoryIngested {resolutionId : String} {commitSha : Option String}
    (h : Acknowledged setup m w resolutionId commitSha) (failureId : Option String) (a : α) :
    Obeys (ledger setup) Ends
      ((markMemoryIngested failureId resolutionId commitSha).bind fun _ => .ret a) m w := by
  unfold markMemoryIngested
  cases failureId with
  | none => trivial
  | some failureId =>
    have hasks : Asks setup m w (.markMemoryIngested failureId resolutionId commitSha) := by
      intro id sha hack
      cases hack
      exact h
    exact obeys_acknowledgement hasks fun _ => trivial

theorem obeys_refreshMemoryIngested {resolutionId commitSha : String}
    (h : Acknowledged setup m w resolutionId (some commitSha)) (failureId : Option String)
    (expected : Option String) (a : α) :
    Obeys (ledger setup) Ends
      ((refreshMemoryIngested failureId resolutionId commitSha expected).bind fun _ => .ret a)
      m w := by
  unfold refreshMemoryIngested
  cases failureId with
  | none => trivial
  | some failureId =>
    have hasks : Asks setup m w
        (.refreshMemoryIngested failureId resolutionId commitSha expected) := by
      intro id sha hack
      cases hack
      exact h
    have hsent : Obeys (ledger setup) Ends
        ((query (.refreshMemoryIngested failureId resolutionId commitSha expected)).bind
          fun _ => .ret ()) m w := obeys_acknowledgement hasks fun _ => trivial
    simp only [Prog.bind_eq]
    rw [obeys_bind]
    refine hsent.mono fun r m' w' _ => ?_
    cases r with
    | ok _ => trivial
    | error e => trivial

/-- The commit of a memory that was found is durable. -/
theorem obeys_existingCommit {resolutionId sourceHash : String}
    (hstage : m.stage = .found store resolutionId sourceHash) (hgrounded : Grounded setup m w) :
    Obeys (ledger setup) (fun r m' w' => ∀ sha, r = .ok (some sha) →
      Acknowledged setup m' w' resolutionId (some sha))
      (existingCommit store resolutionId) m w := by
  rw [Grounded, hstage] at hgrounded
  obtain ⟨hcommitted, hknown⟩ := hgrounded
  have hlatest : Obeys (ledger setup) (fun r m' w' => ∀ sha, r = .ok (some sha) →
      Acknowledged setup m' w' resolutionId (some sha))
      (Prog.call (σ := learning Branches) (.latestMemoryCommit store resolutionId)) m w := by
    refine obeys_call.mpr ⟨⟨sourceHash, hstage, hcommitted⟩, fun r m' w' hanswer hrely => ?_⟩
    intro sha hsha
    subst hsha
    have hafter : m'.stage = .latest store resolutionId sourceHash sha := by
      rw [show m' = _ from hanswer, Seen.after, hstage]
      rfl
    have hdurable : Grounded setup m' w' := hrely
    rw [Grounded, hafter] at hdurable
    exact ⟨store, sourceHash, sha, by rw [hafter]; rfl, rfl, hdurable⟩
  unfold existingCommit
  rw [obeys_get]
  split
  · next sha hsome =>
    split
    · exact hlatest
    · next hne =>
      intro sha' hsha
      cases hsha
      exact ⟨store, sourceHash, sha, by rw [hstage]; rfl, rfl, hknown sha hsome hne⟩
  · exact hlatest

theorem obeys_acknowledgeExisting
    (hstage : m.stage = .found store source.resolutionId source.sourceHash)
    (hgrounded : Grounded setup m w) :
    Obeys (ledger setup) Ends (acknowledgeExisting c store source) m w := by
  unfold acknowledgeExisting
  rw [Prog.bind_eq, obeys_bind]
  refine (obeys_existingCommit hstage hgrounded).mono fun r m' w' hack => ?_
  cases r with
  | error e => trivial
  | ok found =>
    cases found with
    | none => trivial
    | some commitSha =>
      have hdurable := hack commitSha rfl
      dsimp only
      split
      · exact obeys_markMemoryIngested hdurable c.failureId none
      · split
        · exact obeys_refreshMemoryIngested hdurable c.failureId _ none
        · trivial

/-- What a write has named is acknowledged. -/
theorem obeys_acknowledgeWritten {result : LearnResolution.MemoryWriteResult}
    (hasked : m.stage.asked = some (store, source.resolutionId, source.sourceHash))
    (hdurable : ∀ sha, result.commitSha = some sha →
      Durable setup w store source.resolutionId source.sourceHash sha)
    (hnamed : c.acknowledgement = .claimed → result.commitSha ≠ none) :
    Obeys (ledger setup) Ends (acknowledgeWritten c source result) m w := by
  have hack : ∀ sha, result.commitSha = some sha →
      Acknowledged setup m w source.resolutionId (some sha) :=
    fun sha hsha => ⟨store, source.sourceHash, sha, hasked, rfl, hdurable sha hsha⟩
  unfold acknowledgeWritten
  by_cases hclaimed : c.acknowledgement = .claimed
  · obtain ⟨sha, hsha⟩ := Option.ne_none_iff_exists'.mp (hnamed hclaimed)
    rw [if_pos hclaimed, hsha]
    exact obeys_markMemoryIngested (hack sha hsha) c.failureId (some result)
  · rw [if_neg hclaimed]
    split
    · next sha hsha =>
      split
      · exact obeys_refreshMemoryIngested (hack sha hsha) c.failureId _ (some result)
      · trivial
    · trivial

theorem learnCommit_repository (resolutionId : String) (result : LearnResolution.MemoryWriteResult)
    (w : World Branches) : (w.learnCommit resolutionId result).repository = w.repository := by
  unfold World.learnCommit
  split
  · split
    · rfl
    · rfl
  · rfl

theorem obeys_generalizeAndWrite
    (hstage : m.stage = .absent store source.resolutionId source.sourceHash)
    (hclaimed : c.acknowledgement = .claimed → m.claimed = true) (memoryRow : Fields) :
    Obeys (ledger setup) Ends (generalizeAndWrite c store source memoryRow) m w := by
  unfold generalizeAndWrite
  simp only [Prog.bind_eq]
  refine obeys_other_bind (Prog.Awaits.call rfl) (by rw [hstage]; rfl)
    (fun generalized w' => ?_) fun _ _ => trivial
  split
  · trivial
  · rw [obeys_bind, obeys_settle]
    cases hdraft : memoryDraft source generalized with
    | error e => trivial
    | ok draft =>
      have hsource : draft.source = source := postInit_source hdraft
      dsimp only
      rw [obeys_bind]
      have hasks : Asks setup m w' (.writeMemory store draft) := by
        show m.stage = _
        rw [hsource]
        exact hstage
      refine obeys_call.mpr ⟨hasks, fun r m' w'' hanswer hrely => ?_⟩
      cases r with
      | error e => trivial
      | ok result =>
        have hm' : m' = m.after (.writeMemory store draft) (.ok result) := hanswer
        have hwritten : m'.stage =
            .written store source.resolutionId source.sourceHash result := by
          rw [hm', Seen.after, hstage]
          rfl
        have hsame : m'.claimed = m.claimed := by
          rw [hm', Seen.after]
          exact Bool.or_false _
        have hgrounded : Grounded setup m' w'' := hrely
        rw [Grounded, hwritten] at hgrounded
        obtain ⟨hdurable, hnamed⟩ := hgrounded
        have hrepository := learnCommit_repository source.resolutionId result w''
        refine ⟨m', ⟨rfl, hrepository⟩, ?_⟩
        refine obeys_acknowledgeWritten (by rw [hwritten]; rfl)
          (fun sha hsha => durable_congr hrepository (hdurable sha hsha)) fun hack => ?_
        exact hnamed (hsame.trans (hclaimed hack))

theorem other_storeFor (devMemoryStore : Bool) (row : Fields) :
    Other (storeFor devMemoryStore row) := by
  unfold storeFor
  split
  · trivial
  · split
    · trivial
    · exact Prog.Awaits.bind (other_query rfl) fun _ => trivial

/-- The part after the claim acknowledges only what is durable. -/
theorem obeys_ingest (devMemoryStore : Bool) (hstage : m.stage = .none)
    (hclaimed : c.acknowledgement = .claimed → m.claimed = true) :
    Obeys (ledger setup) Ends (ingest c devMemoryStore) m w := by
  unfold ingest
  simp only [Prog.bind_eq]
  rw [obeys_bind, obeys_settle]
  cases memoryRow c.row c.linkedFailure with
  | error e => trivial
  | ok row =>
    refine obeys_other_bind (other_storeFor devMemoryStore row) (by rw [hstage]; rfl)
      (fun store w' => ?_) fun _ _ => trivial
    rw [obeys_bind, obeys_settle]
    cases resolutionSourceFromRow row with
    | error e => trivial
    | ok source =>
      dsimp only
      rw [obeys_bind]
      have hasks : Asks setup m w' (.hasSourceHash store source.resolutionId source.sourceHash) :=
        fun _ _ hack => nomatch hack
      refine obeys_call.mpr ⟨hasks, fun r m' w'' hanswer hrely => ?_⟩
      have hm' : m' = m.after (.hasSourceHash store source.resolutionId source.sourceHash) r :=
        hanswer
      cases r with
      | error e => trivial
      | ok present =>
        cases present with
        | true => exact obeys_acknowledgeExisting (by rw [hm']; rfl) hrely
        | false =>
          refine obeys_generalizeAndWrite (by rw [hm']; rfl) (fun hack => ?_) row
          rw [hm', Seen.after]
          exact (Bool.or_false _).trans (hclaimed hack)

theorem other_ingestHandler (e : PyExc) : Other (ingestHandler c e) := by
  unfold ingestHandler
  split
  · trivial
  · split
    · refine Prog.Awaits.bind (Prog.Awaits.tryCatch ?_ fun e' => ?_) fun _ => trivial
      · unfold markMemoryFailed
        cases c.failureId with
        | none => trivial
        | some failureId => exact other_query rfl
      · split
        · trivial
        · trivial
    · trivial

end Parts

section Calls

variable {setup : Setup} {m : Seen} {w : World Branches}

def ClaimSeen (r : Except PyExc Acknowledgement) (m : Seen) (_ : World Branches) : Prop :=
  m.stage = .none ∧ (r = .ok .claimed → m.claimed = true)

theorem obeys_claimQuery (failureId status resolutionId : String) (hstage : m.stage = .none) :
    Obeys (ledger setup) ClaimSeen
      ((query (.claimMemory failureId status resolutionId)).bind fun updated : Bool =>
        .ret (if updated then Acknowledgement.claimed else .ownedElsewhere)) m w := by
  rw [obeys_bind]
  refine obeys_client_query (fun _ _ _ hack => (nomatch hack)) (fun r m' w' hanswer _ => ?_)
    fun _ => ⟨hstage, fun h => nomatch h⟩
  have hm' : m' = m.after (.claimMemory failureId status resolutionId) r := hanswer
  have hstill : m'.stage = .none := by
    rw [hm', Seen.after, hstage]
    rfl
  cases r with
  | error e => exact ⟨hstill, fun h => nomatch h⟩
  | ok updated =>
    cases updated with
    | false => exact ⟨hstill, fun h => nomatch h⟩
    | true =>
      refine ⟨hstill, fun _ => ?_⟩
      rw [hm']
      exact Bool.or_true _

theorem obeys_claimMemoryIngestion (failureId : Option String) (resolutionId : String)
    (linked : Option Fields) (hstage : m.stage = .none) :
    Obeys (ledger setup) ClaimSeen (claimMemoryIngestion failureId resolutionId linked) m w := by
  unfold claimMemoryIngestion
  cases failureId with
  | none => exact ⟨hstage, fun h => nomatch h⟩
  | some failureId =>
    have hread : Other (currentFailureRow failureId linked) := by
      unfold currentFailureRow
      cases linked with
      | some row => trivial
      | none => exact other_query rfl
    simp only [Prog.bind_eq, Prog.pure_eq]
    refine obeys_other_bind hread (by rw [hstage]; rfl) (fun current w' => ?_)
      fun e w' => ⟨hstage, fun h => nomatch h⟩
    cases current with
    | none => exact ⟨hstage, fun h => nomatch h⟩
    | some current =>
      dsimp only
      split
      · exact obeys_claimQuery failureId _ resolutionId hstage
      · split
        · exact ⟨hstage, fun h => nomatch h⟩
        · exact ⟨hstage, fun h => nomatch h⟩

theorem obeys_ingestClaimed {c : Ingestion} (devMemoryStore : Bool) (hstage : m.stage = .none)
    (hclaimed : c.acknowledgement = .claimed → m.claimed = true) :
    Obeys (ledger setup) Ends (ingestClaimed c devMemoryStore) m w := by
  unfold ingestClaimed
  split
  · trivial
  · rw [obeys_tryCatch]
    refine (obeys_ingest devMemoryStore hstage hclaimed).mono fun r m' w' _ => ?_
    cases r with
    | ok result => trivial
    | error e => exact obeys_other (other_ingestHandler e)

theorem obeys_learnRow (devMemoryStore : Bool) (resolutionId : String) (row : Fields)
    (hstage : m.stage = .none) :
    Obeys (ledger setup) Ends (learnRow devMemoryStore resolutionId row) m w := by
  unfold learnRow
  simp only [Prog.bind_eq, Prog.pure_eq]
  split
  · trivial
  · have hlinked : Other (linkedFailureRow (safeIdentifier (Fields.get row "failure_id")) :
        Learning Branches (Option Fields)) := by
      unfold linkedFailureRow
      split
      · exact other_query rfl
      · trivial
    refine obeys_other_bind hlinked (by rw [hstage]; rfl) (fun linked w' => ?_)
      fun _ _ => trivial
    rw [obeys_bind]
    refine (obeys_claimMemoryIngestion _ resolutionId linked hstage).mono
      fun r m' w'' hseen => ?_
    cases r with
    | error e => trivial
    | ok acknowledgement =>
      refine obeys_ingestClaimed devMemoryStore hseen.1 fun hclaimed => ?_
      exact hseen.2 (congrArg Except.ok hclaimed)

/-- A call of `learnResolution` acknowledges only what is durable. -/
theorem obeys_learnResolution (devMemoryStore : Bool) (resolutionId : String) :
    Obeys (ledger setup) Ends (learnResolution devMemoryStore resolutionId) Seen.nothing w := by
  unfold learnResolution
  rw [Prog.bind_eq]
  refine obeys_other_bind (other_query rfl) rfl (fun found w' => ?_) fun _ _ => trivial
  cases found with
  | none => trivial
  | some row => exact obeys_learnRow devMemoryStore resolutionId row rfl

end Calls

end FailureResolver.MemoryLedger
