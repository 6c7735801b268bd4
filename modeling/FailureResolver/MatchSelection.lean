import FailureResolver.BrowsingDiscipline
import FailureResolver.FailureMatcher

/-!
What a suggestion rests on. A monitor records the answers of the database and of the
store, and the memories whose text the model was given. Whatever the model answers, a
solution is written only for a recorded document that may be executed, is not among the
revoked ones and was given to the model, and its actions are those of that document without
what their run observed, bound to the failure row when the last one continues the Flow. So
the model chooses between documents and adds nothing to the actions.
-/

namespace FailureResolver.MatchSelection

open BrowsingDiscipline FailureMatcher JsonValue LearningEligibility MemoryAgent MemoryBrowsing
open MemoryMarkdown MemorySnapshot PlanValidation Program PromptBudgets PyException PyUuid
open RetrievalBounds RetrievalIndex TaskPool
open LearnResolution (StoreName)

section Actions

variable {row : Fields} {dispatched : List Json} {actions actions' : List Fields}

/-- An action as it was stored, but for what its run observed. -/
def WithoutRun (action : Json) (kept : Fields) : Prop :=
  ∃ members, action = .obj members ∧
    kept = members.filter fun member => member.1 ∉ ["status", "sent_at", "state_before"]

def EndsInContinuation (actions : List Fields) : Prop :=
  ∃ before last, actions = before ++ [last] ∧
    (Fields.get last "command" = .str "$rerun" ∨ Fields.get last "command" = .str "$resume_flow")

/-- The actions are the remembered ones, bound to the Flow step of the row. -/
def BoundTo (row : Fields) (remembered actions : List Fields) : Prop :=
  ∃ snapshot flowId actionIndex actionCommand,
    Fields.get row "flow_snapshot" = .obj snapshot ∧
    Fields.get row "flow_id" = .str flowId ∧ Fields.get row "action_index" = .int actionIndex ∧
    Fields.get row "action_command" = .str actionCommand ∧
    rebindRecoveryActions remembered (.obj snapshot) flowId actionIndex actionCommand = .ok actions

/-- The actions to suggest for a row: those of the memory without what their run observed,
bound to the row when the last one continues the Flow. -/
def SuggestedFor (row : Fields) (dispatched : List Json) (actions : List Fields) : Prop :=
  ∃ remembered, remembered ≠ [] ∧ List.Forall₂ WithoutRun dispatched remembered ∧
    (EndsInContinuation remembered → BoundTo row remembered actions) ∧
    (¬ EndsInContinuation remembered → actions = remembered)

theorem WithoutRun.unique {action : Json} {kept kept' : Fields} (h : WithoutRun action kept)
    (h' : WithoutRun action kept') : kept = kept' := by
  obtain ⟨members, rfl, rfl⟩ := h
  obtain ⟨_, ⟨⟩, rfl⟩ := h'
  rfl

theorem withoutRun_unique {remembered remembered' : List Fields}
    (h : List.Forall₂ WithoutRun dispatched remembered)
    (h' : List.Forall₂ WithoutRun dispatched remembered') : remembered = remembered' := by
  induction h generalizing remembered' with
  | nil =>
    cases h'
    rfl
  | cons hfirst _ ih =>
    cases h' with
    | cons hfirst' hrest' => rw [hfirst.unique hfirst', ih hrest']

/-- The row and the memory decide the actions. -/
theorem SuggestedFor.unique (h : SuggestedFor row dispatched actions)
    (h' : SuggestedFor row dispatched actions') : actions = actions' := by
  obtain ⟨remembered, -, hkept, hbound, hplain⟩ := h
  obtain ⟨remembered', -, hkept', hbound', hplain'⟩ := h'
  obtain rfl := withoutRun_unique hkept hkept'
  by_cases hends : EndsInContinuation remembered
  · obtain ⟨snapshot, flowId, index, command, hsnapshot, hflow, hindex, hcommand, hrebound⟩ :=
      hbound hends
    obtain ⟨snapshot', flowId', index', command', hsnapshot', hflow', hindex', hcommand',
      hrebound'⟩ := hbound' hends
    rw [hsnapshot', Json.obj.injEq] at hsnapshot
    rw [hflow', Json.str.injEq] at hflow
    rw [hindex', Json.int.injEq] at hindex
    rw [hcommand', Json.str.injEq] at hcommand
    subst hsnapshot hflow hindex hcommand
    rw [hrebound', Except.ok.injEq] at hrebound
    exact hrebound.symm
  · rw [hplain hends, hplain' hends]

theorem endsInContinuation_iff {remembered : List Fields} :
    continuesFlow remembered = true ↔ EndsInContinuation remembered := by
  have hcommand : ∀ value : Json, (continuationCommands.any fun command =>
      value.pyEq command) = true ↔ value = .str "$rerun" ∨ value = .str "$resume_flow" := by
    intro value
    unfold continuationCommands
    cases value <;> simp [Json.pyEq, Json.numberEq, Json.number]
  unfold continuesFlow EndsInContinuation
  rcases List.eq_nil_or_concat remembered with rfl | ⟨before, last, rfl⟩
  · simp
  · rw [List.concat_eq_append, List.getLast?_concat]
    dsimp only
    rw [hcommand]
    constructor
    · exact fun h => ⟨before, last, rfl, h⟩
    · rintro ⟨before', last', heq, h⟩
      obtain ⟨-, hlast⟩ := List.append_inj' heq rfl
      cases hlast
      exact h

theorem boundTo_of_ok {remembered : List Fields} (h : boundActions row remembered = .ok actions) :
    BoundTo row remembered actions := by
  unfold boundActions at h
  split at h
  · next hmapping =>
    obtain ⟨flowId, hflow, h⟩ := bind_eq_ok.mp h
    obtain ⟨index, hindex, h⟩ := bind_eq_ok.mp h
    obtain ⟨command, hcommand, h⟩ := bind_eq_ok.mp h
    have htext : ∀ {name value : String}, requiredRecoveryText row name = .ok value →
        Fields.get row name = .str value := by
      intro name value htext
      unfold requiredRecoveryText at htext
      split at htext
      · next hvalue =>
        split at htext
        · exact absurd htext reject_ne_ok
        · rw [hvalue, Except.ok.inj htext]
      · exact absurd htext reject_ne_ok
    have hnumber : Fields.get row "action_index" = .int index := by
      unfold requiredRecoveryIndex at hindex
      split at hindex
      · next hvalue =>
        split at hindex
        · exact absurd hindex reject_ne_ok
        · rw [hvalue, Except.ok.inj hindex]
      · exact absurd hindex reject_ne_ok
    cases hsnapshot : Fields.get row "flow_snapshot" with
    | obj snapshot =>
      rw [hsnapshot] at h
      exact ⟨snapshot, flowId, index, command, hsnapshot, htext hflow, hnumber, htext hcommand, h⟩
    | _ =>
      rw [hsnapshot] at hmapping
      cases hmapping
  · exact absurd h reject_ne_ok

/-- What the program suggests for a row is what the specification asks for. -/
theorem suggestedFor_of_ok {document : MemoryDocument}
    (hsafe : isSafeExecutionCandidate document = true)
    (h : suggestedActions row document.dispatchedActions = .ok actions) :
    SuggestedFor row document.dispatchedActions actions := by
  unfold isSafeExecutionCandidate MemoryDocument.isExecutionCandidate at hsafe
  simp only [Bool.and_eq_true] at hsafe
  obtain ⟨⟨-, hnonempty⟩, hall⟩ := hsafe
  refine ⟨document.dispatchedActions.map suggestionAction, ?_, ?_, ?_, ?_⟩
  · simpa using hnonempty
  · rw [List.forall₂_map_right_iff, List.forall₂_same]
    intro action haction
    have hsafe := List.all_eq_true.mp hall action haction
    cases action with
    | obj members => exact ⟨members, rfl, rfl⟩
    | _ => cases hsafe
  · intro hends
    unfold suggestedActions at h
    dsimp only at h
    rw [if_pos (endsInContinuation_iff.mpr hends)] at h
    exact boundTo_of_ok h
  · intro hends
    unfold suggestedActions at h
    dsimp only at h
    rw [if_neg fun hcontinues => hends (endsInContinuation_iff.mp hcontinues)] at h
    exact (Except.ok.inj h).symm

end Actions

section Monitor

/-- What a match was answered, and the memories the model was given. -/
structure Known where
  row : Option Fields
  index : Option Snapshot
  queriedIds : List String
  revokedRows : List Fields
  given : List MarkdownMemory

def Known.nothing : Known := ⟨none, none, [], [], []⟩

def memoriesGiven : Op → List MarkdownMemory
  | .chooseMemory _ memories => memories
  | .nextRetrievalTurn _ observations => (readsOf observations).map markdownMemory
  | _ => []

def Known.give (known : Known) (op : Op) : Known :=
  { known with given := known.given ++ memoriesGiven op }

def Known.learn (known : Known) : (op : Op) → Except PyExc op.Reply → Known
  | .fetchFailure _, .ok row => { known with row }
  | .rebuildIndex _, .ok index => { known with index := some index }
  | .fetchRevoked queriedIds, .ok revokedRows => { known with queriedIds, revokedRows }
  | op, _ => known.give op

def knownAfter (t : List (Event matching)) : Known := recorded Known.learn Known.nothing t

def memoryText (document : MemoryDocument) : MarkdownMemory :=
  ⟨document.resolutionId, (indexDocument document).markdown⟩

/-- The document may be executed, is not revoked, and its text was given to the model. -/
structure Candidate (known : Known) (document : MemoryDocument) : Prop where
  stored : ∃ index, known.index = some index ∧ document ∈ index.documents
  safe : isSafeExecutionCandidate document = true
  queried : document.resolutionId ∈ known.queriedIds
  current : ∀ row ∈ known.revokedRows,
    Fields.get row "resolution_id" ≠ .str document.resolutionId
  given : memoryText document ∈ known.given

/-- The suggestion names the document, and its actions come from there and from the row. -/
structure Suggests (known : Known) (suggestion : Fields) (document : MemoryDocument) : Prop where
  candidate : Candidate known document
  memoryId : Fields.get suggestion "memory_id" = .str document.resolutionId
  actions : ∃ row actions, known.row = some row ∧
    SuggestedFor row document.dispatchedActions actions ∧
      Fields.get suggestion "actions" = .arr (actions.map Json.obj)

/-- After these awaits the call writes a solution with this suggestion. -/
def WritesSolution (t before : List (Event matching)) (suggestion : Option Fields) : Prop :=
  ∃ e after failureId message, t = before ++ e :: after ∧
    e.op = .finishFailure failureId "solution_found" message suggestion

/-- A solution is written only with a suggestion that rests on a document. -/
def selecting : Discipline matching Known where
  rely _ _ := True
  act known _ known' _ := known' = known
  request known _ op := ∀ failureId message suggestion,
    op = .finishFailure failureId "solution_found" message suggestion →
      ∃ fields document, suggestion = some fields ∧ Suggests known fields document
  answer known op r known' := known' = known.learn op r

end Monitor

section Texts

variable {snapshot : Snapshot} {corpus : MemoryRetrievalIndex}

theorem document_unique {document other : MemoryDocument} (h : document ∈ snapshot.documents)
    (hother : other ∈ snapshot.documents) (hid : document.resolutionId = other.resolutionId) :
    document = other := by
  have hfound := Snapshot.document_eq_ok.mpr ⟨h, hid⟩
  rw [Snapshot.document_eq_ok.mpr ⟨hother, rfl⟩] at hfound
  exact (Except.ok.inj hfound).symm

theorem mem_of_mapM {α β : Type} {f : α → Except PyExc β} {xs : List α} {ys : List β} {y : β}
    (h : xs.mapM f = .ok ys) (hy : y ∈ ys) : ∃ x ∈ xs, f x = .ok y := by
  induction xs generalizing ys with
  | nil =>
    cases h
    cases hy
  | cons x rest ih =>
    rw [List.mapM_cons, bind_eq_ok] at h
    obtain ⟨first, hfirst, h⟩ := h
    rw [bind_eq_ok] at h
    obtain ⟨others, hothers, h⟩ := h
    cases h
    rcases List.mem_cons.mp hy with rfl | hy
    · exact ⟨x, List.mem_cons_self .., hfirst⟩
    · obtain ⟨x', hx', hy'⟩ := ih hothers hy
      exact ⟨x', List.mem_cons_of_mem _ hx', hy'⟩

/-- What is read is the text of the document with its id. -/
theorem read_text (hcorpus : corpusOf snapshot = .ok corpus) {ids : List String}
    {maxDocuments maxTotalChars : ℤ} {reads : List MemoryReadResult} {read : MemoryReadResult}
    {document : MemoryDocument} (hreads : corpus.read ids maxDocuments maxTotalChars = .ok reads)
    (hread : read ∈ reads) (hdocument : snapshot.document read.memoryId = .ok document) :
    document ∈ snapshot.documents ∧ markdownMemory read = memoryText document := by
  obtain ⟨hmem, hid⟩ := Snapshot.document_eq_ok.mp hdocument
  obtain ⟨entries, hentries, rfl⟩ := (read_eq_ok hreads).entries
  obtain ⟨entry, hentry, rfl⟩ := List.mem_map.mp hread
  obtain ⟨other, hmeasured, rfl⟩ := (corpusOf_entries hcorpus).2 entry (hentries entry hentry)
  have hsame : document = other := document_unique hmem hmeasured.supplied hid
  subst hsame
  exact ⟨hmem, rfl⟩

/-- The documents that were read are stored, and their texts stand in the log. -/
def Told (snapshot : Snapshot) (b : Browse) : Prop :=
  ∀ entry ∈ b.readDocuments, entry.2 ∈ snapshot.documents ∧
    memoryText entry.2 ∈ (readsOf b.observations).map markdownMemory

theorem told_start : Told snapshot (Browse.start snapshot) := by
  intro entry hentry
  cases hentry

theorem Told.observe {b : Browse} (h : Told snapshot b) {observation : Observation}
    (hread : ∀ remaining documents, observation ≠ .readResults remaining documents) :
    Told snapshot (b.observe observation) := by
  have hreads : readsOf (b.observe observation).observations = readsOf b.observations :=
    readsOf_concat_other hread
  intro entry hentry
  rw [hreads]
  exact h entry hentry

theorem Told.searched {b : Browse} (h : Told snapshot b) (query : String)
    (hits : List MemorySearchResult) : Told snapshot (b.searched query hits) := by
  have hreads : readsOf (b.searched query hits).observations = readsOf b.observations :=
    readsOf_concat_other fun _ _ heq => by cases heq
  intro entry hentry
  rw [hreads]
  exact h entry hentry

theorem Told.read {b : Browse} (h : Told snapshot b) (hcorpus : corpusOf snapshot = .ok corpus)
    {ids : List String} {maxDocuments maxTotalChars : ℤ} {reads : List MemoryReadResult}
    {documents : List MemoryDocument}
    (hreads : corpus.read ids maxDocuments maxTotalChars = .ok reads)
    (hdocuments : (reads.mapM fun read => snapshot.document read.memoryId) = .ok documents) :
    Told snapshot (b.read reads documents) := by
  have hlog : readsOf (b.read reads documents).observations = readsOf b.observations ++ reads :=
    readsOf_concat_read _ reads
  intro entry hentry
  rw [hlog, List.map_append, List.mem_append]
  rcases List.mem_append.mp hentry with hold | hnew
  · obtain ⟨hmem, htext⟩ := h entry hold
    exact ⟨hmem, .inl htext⟩
  · obtain ⟨read, hread, hdocument⟩ := mem_of_mapM hdocuments (List.of_mem_zip hnew).2
    obtain ⟨hmem, htext⟩ := read_text hcorpus hreads hread hdocument
    exact ⟨hmem, .inr (List.mem_map.mpr ⟨read, hread, htext⟩)⟩

/-- A turn keeps what was read in the log, or it ends the browsing with what was read. -/
def TurnTold (snapshot : Snapshot) (b : Browse) : Turn → Prop
  | .go b' => Told snapshot b'
  | .done outcome => outcome.documents = b.readDocuments.map Prod.snd

theorem Told.turn {b : Browse} {failure : Fields} {step : MemoryStep} {turn : Turn}
    (h : Told snapshot b) (hcorpus : corpusOf snapshot = .ok corpus)
    (hturn : turnOf snapshot corpus failure b step = .ok turn) : TurnTold snapshot b turn := by
  cases step with
  | search action =>
    rw [turnOf] at hturn
    split at hturn
    · cases hturn
      rfl
    · obtain ⟨hits, -, hgo⟩ := bind_eq_ok.mp hturn
      cases hgo
      exact h.searched action.query hits
  | read action =>
    rw [turnOf] at hturn
    unfold MemoryBrowsing.readTurn at hturn
    dsimp only at hturn
    split at hturn
    · cases hturn
      exact h.observe fun _ _ heq => by cases heq
    · split at hturn
      · cases hturn
        rfl
      · split at hturn
        · cases hturn
          rfl
        · split at hturn
          · split at hturn
            · cases hturn
              rfl
            · cases hturn
          · next reads hreads =>
            obtain ⟨documents, hdocuments, hgo⟩ := bind_eq_ok.mp hturn
            cases hgo
            exact h.read hcorpus hreads hdocuments
  | finish choice =>
    have hfinish : finishTurn b choice = turn := Except.ok.inj hturn
    unfold finishTurn at hfinish
    split at hfinish
    · cases hfinish
      exact h.observe fun _ _ heq => by cases heq
    · split at hfinish
      · cases hfinish
        rfl
      · cases hfinish
        rfl
  | unsupported => cases hturn

end Texts

section Retrieval

variable {snapshot : Snapshot} {corpus : MemoryRetrievalIndex} {known known' : Known} {w : World}

/-- The answers are the same, and no memory was taken back. -/
structure Known.Grows (known known' : Known) : Prop where
  row : known'.row = known.row
  index : known'.index = known.index
  queriedIds : known'.queriedIds = known.queriedIds
  revokedRows : known'.revokedRows = known.revokedRows
  given : known.given ⊆ known'.given

theorem Known.Grows.refl (known : Known) : known.Grows known :=
  ⟨rfl, rfl, rfl, rfl, List.Subset.refl _⟩

theorem Known.Grows.trans {known'' : Known} (h : known.Grows known')
    (h' : known'.Grows known'') : known.Grows known'' :=
  ⟨h'.row.trans h.row, h'.index.trans h.index, h'.queriedIds.trans h.queriedIds,
    h'.revokedRows.trans h.revokedRows, List.Subset.trans h.given h'.given⟩

theorem grows_give (known : Known) (op : Op) : known.Grows (known.give op) :=
  ⟨rfl, rfl, rfl, rfl, List.subset_append_left _ _⟩

/-- What was retrieved for a selection is stored, and its text was given to the model. -/
structure Retrieved (snapshot : Snapshot) (known : Known) (r : Except PyExc RetrievalOutcome)
    (known' : Known) : Prop where
  grows : known.Grows known'
  given : ∀ outcome, r = .ok outcome → outcome.choice.decision ≠ .noSolution →
    ∀ document ∈ outcome.documents,
      document ∈ snapshot.documents ∧ memoryText document ∈ known'.given

theorem Retrieved.mono {r : Except PyExc RetrievalOutcome} {known'' : Known}
    (h : Retrieved snapshot known' r known'') (hgrows : known.Grows known') :
    Retrieved snapshot known r known'' := ⟨hgrows.trans h.grows, h.given⟩

theorem retrieved_error {e : PyExc} (hgrows : known.Grows known') :
    Retrieved snapshot known (.error e) known' := ⟨hgrows, fun _ hr => by cases hr⟩

/-- A turn without a monitor ends as its steps say. -/
theorem obeys_browseTurn (failure : Fields) (b : Browse) (step : MemoryStep) :
    Obeys selecting (fun r known' _ => known.Grows known' ∧
        ∀ turn, r = .ok turn → turnOf snapshot corpus failure b step = .ok turn)
      (browseTurn snapshot corpus failure b step) known w := by
  cases step with
  | search action =>
    rw [browseTurn, turnOf]
    split
    · refine ⟨.refl known, fun turn hturn => ?_⟩
      cases hturn
      rfl
    · rw [Prog.bind_eq, obeys_bind]
      refine obeys_call.mpr ⟨fun _ _ _ hop => (by cases hop), fun r known' w' hlearned _ => ?_⟩
      have hgrows : known.Grows known' := by
        rw [hlearned]
        cases r <;> exact grows_give known _
      cases r with
      | error e => exact ⟨hgrows, fun _ hturn => by cases hturn⟩
      | ok a =>
        show Obeys _ _ (Prog.bind _ _) _ _
        rw [obeys_bind, obeys_settle]
        split
        · next hits hhits =>
          refine ⟨hgrows, fun turn hturn => ?_⟩
          cases hturn
          rw [hhits]
          rfl
        · exact ⟨hgrows, fun _ hturn => by cases hturn⟩
  | read action =>
    rw [browseTurn, obeys_settle]
    exact ⟨.refl known, fun turn hturn => hturn⟩
  | finish choice =>
    refine ⟨.refl known, fun turn hturn => ?_⟩
    exact hturn
  | unsupported => exact ⟨.refl known, fun _ hturn => by cases hturn⟩

/-- Each turn gives the model what was read so far, so what is selected was given. -/
theorem obeys_browse (hcorpus : corpusOf snapshot = .ok corpus) (failure : Fields) (turns : ℕ)
    {b : Browse} (h : Told snapshot b) :
    Obeys selecting (fun r known' _ => Retrieved snapshot known r known')
      (browse snapshot corpus failure turns b) known w := by
  induction turns generalizing b known w with
  | zero =>
    refine ⟨.refl known, fun outcome houtcome happlied => ?_⟩
    cases houtcome
    exact absurd rfl happlied
  | succ turns ih =>
    rw [browse, Prog.bind_eq, obeys_bind]
    refine obeys_call.mpr ⟨fun _ _ _ hop => (by cases hop), fun r known₁ w₁ hlearned _ => ?_⟩
    have hgive : known₁ = known.give (.nextRetrievalTurn failure b.observations) := by
      rw [hlearned]
      cases r <;> rfl
    have hgrows : known.Grows known₁ := hgive ▸ grows_give known _
    have hshown : (readsOf b.observations).map markdownMemory ⊆ known₁.given := by
      rw [hgive]
      exact List.subset_append_right _ _
    cases r with
    | error e => exact retrieved_error hgrows
    | ok step =>
      show Obeys _ _ (Prog.bind _ _) _ _
      rw [obeys_bind]
      refine (obeys_browseTurn failure b step).mono fun r known₂ w₂ hr => ?_
      obtain ⟨hnext, hturn⟩ := hr
      cases r with
      | error e => exact retrieved_error (hgrows.trans hnext)
      | ok turn =>
        have htold := h.turn hcorpus (hturn turn rfl)
        cases turn with
        | go b' =>
          exact (ih htold).mono fun r known₃ w₃ hrest => hrest.mono (hgrows.trans hnext)
        | done outcome =>
          refine ⟨hgrows.trans hnext, fun outcome' houtcome _ document hdocument => ?_⟩
          cases houtcome
          have hread : outcome.documents = b.readDocuments.map Prod.snd := htold
          rw [hread] at hdocument
          obtain ⟨entry, hentry, rfl⟩ := List.mem_map.mp hdocument
          obtain ⟨hmem, htext⟩ := h entry hentry
          exact ⟨hmem, hnext.given (hshown htext)⟩

theorem obeys_chooseAmongAll (hcorpus : corpusOf snapshot = .ok corpus) (failure : Fields)
    (memoryIds : List String) :
    Obeys selecting (fun r known' _ => Retrieved snapshot known r known')
      (chooseAmongAll snapshot corpus failure memoryIds) known w := by
  unfold chooseAmongAll
  rw [Prog.bind_eq, obeys_bind, obeys_settle]
  split
  · next reads hreads =>
    show Obeys _ _ (Prog.bind _ _) _ _
    rw [obeys_bind]
    refine obeys_call.mpr ⟨fun _ _ _ hop => (by cases hop), fun r known₁ w₁ hlearned _ => ?_⟩
    have hgive : known₁ = known.give (.chooseMemory failure (reads.map markdownMemory)) := by
      rw [hlearned]
      cases r <;> rfl
    have hgrows : known.Grows known₁ := hgive ▸ grows_give known _
    cases r with
    | error e => exact retrieved_error hgrows
    | ok choice =>
      show Obeys _ _ (Prog.bind _ _) _ _
      rw [obeys_bind, obeys_settle]
      split
      · next documents hdocuments =>
        refine ⟨hgrows, fun outcome houtcome _ document hdocument => ?_⟩
        cases houtcome
        obtain ⟨read, hread, hfound⟩ := mem_of_mapM hdocuments hdocument
        obtain ⟨hmem, htext⟩ := read_text hcorpus hreads hread hfound
        rw [hgive, ← htext]
        exact ⟨hmem, List.mem_append_right _ (List.mem_map_of_mem hread)⟩
      · exact retrieved_error hgrows
  · exact retrieved_error (.refl known)

theorem obeys_retrieveMemoryChoice (snapshot : Snapshot) (failure : Fields) (known : Known)
    (w : World) : Obeys selecting (fun r known' _ => Retrieved snapshot known r known')
      (retrieveMemoryChoice snapshot failure) known w := by
  unfold retrieveMemoryChoice
  rw [Prog.bind_eq, obeys_bind]
  refine obeys_call.mpr ⟨fun _ _ _ hop => (by cases hop), fun r known₁ w₁ hlearned _ => ?_⟩
  have hgrows : known.Grows known₁ := by
    rw [hlearned]
    cases r <;> exact grows_give known _
  cases r with
  | error e => exact retrieved_error hgrows
  | ok a =>
    show Obeys _ _ (Prog.bind _ _) _ _
    rw [obeys_bind, obeys_settle]
    split
    · next corpus hcorpus =>
      show Obeys _ _ (Prog.bind _ _) _ _
      rw [obeys_bind, obeys_settle]
      split
      · split
        · exact (obeys_chooseAmongAll hcorpus failure _).mono fun r _ _ hr => hr.mono hgrows
        · exact (obeys_browse hcorpus failure _ told_start).mono fun r _ _ hr => hr.mono hgrows
      · exact retrieved_error hgrows
    · exact retrieved_error hgrows

end Retrieval

section Revocation

variable {known known' : Known} {w : World}

theorem resolutionId_ne_empty {snapshot : Snapshot} {document : MemoryDocument}
    (h : document ∈ snapshot.documents) : document.resolutionId ≠ "" := by
  obtain ⟨n, -, hid⟩ := (Snapshot.wellFormed h).resolutionId
  have hbounded := boundedPrintable_formatUuid n
  unfold boundedPrintable at hbounded
  simp only [Bool.and_eq_true, decide_eq_true_eq] at hbounded
  rw [hid]
  exact hbounded.1.1.1

/-- A row with the id of a document would revoke it. -/
theorem not_revoked {rows : List Fields} {revoked : List Json} {document : MemoryDocument}
    (hrevoked : revokedIds rows = .ok revoked) (hid : document.resolutionId ≠ "")
    (h : isRevoked revoked document = false) :
    ∀ row ∈ rows, Fields.get row "resolution_id" ≠ .str document.resolutionId := by
  intro row hrow heq
  have hids : revoked = (rows.map fun row => Fields.get row "resolution_id").filter truthy := by
    unfold revokedIds at hrevoked
    dsimp only at hrevoked
    split at hrevoked
    · cases hrevoked
      rfl
    · cases hrevoked
  have hmem : Json.str document.resolutionId ∈ revoked := by
    rw [hids, List.mem_filter]
    refine ⟨List.mem_map.mpr ⟨row, hrow, heq⟩, ?_⟩
    simpa [truthy] using hid
  unfold isRevoked at h
  rw [List.any_eq_false] at h
  exact h _ hmem (by simp [Json.pyEq])

structure Unrevoked (snapshot : Snapshot) (known : Known) (r : Except PyExc Snapshot)
    (known' : Known) : Prop where
  row : known'.row = known.row
  index : known'.index = known.index
  left : ∀ rest, r = .ok rest → ∀ document ∈ rest.documents, document ∈ snapshot.documents ∧
    document.resolutionId ∈ known'.queriedIds ∧ ∀ row ∈ known'.revokedRows,
      Fields.get row "resolution_id" ≠ .str document.resolutionId

theorem obeys_withoutRevoked (snapshot : Snapshot) :
    Obeys selecting (fun r known' _ => Unrevoked snapshot known r known')
      (withoutRevoked snapshot) known w := by
  unfold withoutRevoked
  split
  · next hempty =>
    refine ⟨rfl, rfl, fun rest hrest document hdocument => ?_⟩
    cases hrest
    rw [List.isEmpty_iff.mp hempty] at hdocument
    cases hdocument
  · rw [Prog.bind_eq, obeys_bind]
    refine obeys_call.mpr ⟨fun _ _ _ hop => (by cases hop), fun r known₁ w₁ hlearned _ => ?_⟩
    rw [hlearned]
    cases r with
    | error e => exact ⟨rfl, rfl, fun _ hrest => by cases hrest⟩
    | ok rows =>
      show Obeys _ _ (Prog.bind _ _) _ _
      rw [obeys_bind, obeys_settle]
      split
      · next revoked hrevoked =>
        refine ⟨rfl, rfl, fun rest hrest document hdocument => ?_⟩
        cases hrest
        obtain ⟨hmem, hnot⟩ := List.mem_filter.mp hdocument
        refine ⟨hmem, List.mem_map_of_mem hmem, ?_⟩
        exact not_revoked hrevoked (resolutionId_ne_empty hmem) (by simpa using hnot)
      · exact ⟨rfl, rfl, fun _ hrest => by cases hrest⟩

end Revocation

section Match

variable {known : Known} {w : World} {failureId : String}

abbrev Free {α : Type} (_ : Except PyExc α) (_ : Known) (_ : World) : Prop := True

theorem obeys_finish {α : Type} {status message : String} {suggestion : Option Fields}
    {rest : Unit → MemoryBrowsing.Matching α}
    (h : status = "solution_found" → ∃ fields document,
      suggestion = some fields ∧ Suggests known fields document)
    (hrest : ∀ known' w', Obeys selecting Free (rest ()) known' w') :
    Obeys selecting Free ((finishFailure failureId status message suggestion).bind rest) known w := by
  unfold finishFailure
  rw [obeys_bind]
  refine obeys_call.mpr ⟨?_, fun r known' w' _ _ => ?_⟩
  · intro _ _ _ hop
    cases hop
    exact h rfl
  · cases r with
    | error e => trivial
    | ok a => exact hrest known' w'

/-- Any other status is free. -/
theorem obeys_finish_other {α : Type} {status message : String} {suggestion : Option Fields}
    {rest : Unit → MemoryBrowsing.Matching α} (h : status ≠ "solution_found")
    (hrest : ∀ known' w', Obeys selecting Free (rest ()) known' w') :
    Obeys selecting Free ((finishFailure failureId status message suggestion).bind rest) known w :=
  obeys_finish (fun heq => absurd heq h) hrest

theorem obeys_suggestMemory {row : Fields} (hrow : known.row = some row) (choice : MemoryChoice)
    {selected : MemoryDocument} (hselected : Candidate known selected) :
    Obeys selecting Free (suggestMemory failureId row choice selected) known w := by
  unfold suggestMemory
  split
  · split
    · exact obeys_finish_other (by decide) fun _ _ => trivial
    · trivial
  · next actions hactions =>
    refine obeys_finish (fun _ => ?_) fun _ _ => trivial
    exact ⟨_, selected, rfl, hselected, rfl, row, actions, hrow,
      suggestedFor_of_ok hselected.safe hactions, rfl⟩

theorem mem_selectedDocument {documents : List MemoryDocument} {memoryId : Option String}
    {selected : MemoryDocument} (h : selectedDocument documents memoryId = some selected) :
    selected ∈ documents := List.mem_reverse.mp (List.mem_of_find?_eq_some h)

theorem obeys_concludeMatch {row : Fields} (hrow : known.row = some row)
    {retrieval : RetrievalOutcome} (hretrieved : retrieval.choice.decision ≠ .noSolution →
      ∀ document ∈ retrieval.documents, isSafeExecutionCandidate document = true →
        Candidate known document) :
    Obeys selecting Free (concludeMatch failureId row retrieval) known w := by
  unfold concludeMatch
  split
  · exact obeys_finish_other (by decide) fun _ _ => trivial
  · next happlied =>
    split
    · trivial
    · next selected hselected =>
      split
      · trivial
      · next hsafe =>
        split
        · trivial
        · apply obeys_suggestMemory hrow
          exact hretrieved happlied selected (mem_selectedDocument hselected) (by simpa using hsafe)

theorem obeys_matchFailure {row : Fields} (hrow : known.row = some row) (store : StoreName) :
    Obeys selecting Free (matchFailure failureId row store) known w := by
  unfold matchFailure
  rw [Prog.bind_eq, obeys_bind]
  refine obeys_call.mpr ⟨fun _ _ _ hop => (by cases hop), fun r known₁ w₁ hlearned _ => ?_⟩
  rw [hlearned]
  cases r with
  | error e => trivial
  | ok index =>
    show Obeys _ _ (Prog.bind _ _) _ _
    rw [obeys_bind]
    refine (obeys_withoutRevoked _).mono fun r known₂ w₂ hr => ?_
    cases r with
    | error e => trivial
    | ok safeDocuments =>
      show Obeys _ _ (if _ then _ else _) _ _
      split
      · exact obeys_finish_other (by decide) fun _ _ => trivial
      · rw [Prog.bind_eq, obeys_bind]
        refine (obeys_retrieveMemoryChoice safeDocuments _ known₂ w₂).mono fun r known₃ w₃ hout => ?_
        cases r with
        | error e => trivial
        | ok retrieval =>
          apply obeys_concludeMatch ((hout.grows.row.trans hr.row).trans hrow)
          intro happlied document hdocument hsafe
          obtain ⟨hleft, hgiven⟩ := hout.given retrieval rfl happlied document hdocument
          obtain ⟨hstored, hqueried, hcurrent⟩ := hr.left safeDocuments rfl document hleft
          refine ⟨⟨index, hout.grows.index.trans hr.index, List.mem_of_mem_filter hstored⟩, hsafe,
            ?_, ?_, hgiven⟩
          · rw [hout.grows.queriedIds]
            exact hqueried
          · rw [hout.grows.revokedRows]
            exact hcurrent

theorem obeys_processFailure (devMemoryStore : Bool) (w : World) :
    Obeys selecting Free (processFailure devMemoryStore failureId) known w := by
  have hguarded : ∀ {row : Fields} {known : Known} (store : StoreName) (w : World),
      known.row = some row → Obeys selecting Free
        ((matchFailure failureId row store).tryCatch (matchHandler failureId)) known w := by
    intro row known store w hrow
    rw [obeys_tryCatch]
    refine (obeys_matchFailure hrow store).mono fun r known' w' _ => ?_
    cases r with
    | ok found => trivial
    | error e =>
      show Obeys _ _ (matchHandler failureId e) _ _
      unfold matchHandler
      split
      · trivial
      · exact obeys_finish_other (by decide) fun _ _ => trivial
  unfold processFailure
  rw [Prog.bind_eq, obeys_bind]
  refine obeys_call.mpr ⟨fun _ _ _ hop => (by cases hop), fun r known₁ w₁ hlearned _ => ?_⟩
  rw [hlearned]
  cases r with
  | error e => trivial
  | ok found =>
    cases found with
    | none => trivial
    | some row =>
      show Obeys _ _ (if _ then _ else _) _ _
      split
      · trivial
      · rw [Prog.bind_eq, obeys_bind]
        refine obeys_call.mpr ⟨fun _ _ _ hop => (by cases hop), fun r known₂ w₂ hlearned _ => ?_⟩
        rw [hlearned]
        cases r with
        | error e => trivial
        | ok claimed =>
          cases claimed with
          | false => trivial
          | true =>
            show Obeys _ _ (matchClaimed devMemoryStore failureId row) _ _
            unfold matchClaimed storeFor
            rw [Prog.bind_eq]
            split
            · exact hguarded .main w₂ rfl
            · split
              · exact hguarded .dev w₂ rfl
              · rw [obeys_bind, Prog.bind_eq, obeys_bind]
                refine obeys_call.mpr ⟨fun _ _ _ hop => (by cases hop),
                  fun r known₃ w₃ hlearned _ => ?_⟩
                rw [hlearned]
                cases r with
                | error e => trivial
                | ok robot => exact hguarded _ w₃ rfl

end Match

section Selection

/-- A solution that is written suggests a candidate, whatever was answered. -/
theorem solution_suggests (devMemoryStore : Bool) (failureId : String) (w : World) :
    Ensures anything (processFailure devMemoryStore failureId) w fun t _ =>
      ∀ before suggestion, WritesSolution t before suggestion → ∃ fields document,
        suggestion = some fields ∧ Suggests (knownAfter before) fields document := by
  have hobeys := @obeys_processFailure Known.nothing failureId devMemoryStore w
  refine (hobeys.watched anything (fun _ _ _ _ hsame => hsame) fun _ _ _ _ _ _ =>
    ⟨rfl, trivial⟩).mono fun t _ hrequests before suggestion hwrites => ?_
  obtain ⟨e, after, failureId', message, ht, hop⟩ := hwrites
  exact hrequests before e after ht failureId' message suggestion hop

/-- The two matches were given the same failure row and the same memories. -/
structure SameQuestion (known known' : Known) : Prop where
  row : known.row = known'.row
  index : known.index = known'.index

/-- With the row and the memories, the id alone decides the actions. -/
theorem Suggests.actions_eq {known known' : Known} {fields fields' : Fields}
    {document document' : MemoryDocument} (h : Suggests known fields document)
    (h' : Suggests known' fields' document') (hsame : SameQuestion known known')
    (hid : Fields.get fields "memory_id" = Fields.get fields' "memory_id") :
    Fields.get fields "actions" = Fields.get fields' "actions" := by
  obtain ⟨index, hindex, hmem⟩ := h.candidate.stored
  obtain ⟨index', hindex', hmem'⟩ := h'.candidate.stored
  have hstored : index' = index := by
    rw [hsame.index, hindex'] at hindex
    exact Option.some.inj hindex
  subst hstored
  rw [h.memoryId, h'.memoryId, Json.str.injEq] at hid
  have hdocument := document_unique hmem hmem' hid
  subst hdocument
  obtain ⟨row, actions, hrow, hactions, hfields⟩ := h.actions
  obtain ⟨row', actions', hrow', hactions', hfields'⟩ := h'.actions
  rw [hsame.row, hrow', Option.some.injEq] at hrow
  subst hrow
  rw [hfields, hfields', hactions.unique hactions']

/-- The model can only pick an id: a solution suggests a safe, unrevoked document whose
text the model was given, and two matches of one row over the same memories that suggest
the same id suggest the same actions. -/
theorem model_picks_id (devMemoryStore devMemoryStore' : Bool) (failureId failureId' : String)
    (w w' : World) :
    Ensures anything (processFailure devMemoryStore failureId) w fun t _ =>
      (∀ before suggestion, WritesSolution t before suggestion → ∃ fields document,
        suggestion = some fields ∧ Suggests (knownAfter before) fields document) ∧
      Ensures anything (processFailure devMemoryStore' failureId') w' fun t' _ =>
        ∀ before before' fields fields', WritesSolution t before (some fields) →
          WritesSolution t' before' (some fields') →
            SameQuestion (knownAfter before) (knownAfter before') →
              Fields.get fields "memory_id" = Fields.get fields' "memory_id" →
                Fields.get fields "actions" = Fields.get fields' "actions" := by
  refine (solution_suggests devMemoryStore failureId w).mono fun t _ ht => ⟨ht, ?_⟩
  refine (solution_suggests devMemoryStore' failureId' w').mono fun t' _ ht' => ?_
  intro before before' fields fields' hwrites hwrites' hsame hid
  obtain ⟨_, document, heq, hsuggests⟩ := ht before _ hwrites
  obtain ⟨_, document', heq', hsuggests'⟩ := ht' before' _ hwrites'
  cases heq
  cases heq'
  exact hsuggests.actions_eq hsuggests' hsame hid

end Selection

end FailureResolver.MatchSelection
