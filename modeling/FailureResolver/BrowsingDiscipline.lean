import FailureResolver.EscapingErrors
import FailureResolver.PromptBudgets

/-!
Browsing as a sequence of turns. What was searched and read stands in the
observations, so the log of a run is what the model was shown last and what its last
step added. The law of the log is kept by every turn; a run follows the turns one by
one, whatever the model answers, and ends without a choice of its own or with a
memory that was read.
-/

namespace FailureResolver.BrowsingDiscipline

open EscapingErrors JsonValue LearnResolution MemoryAgent MemoryBrowsing MemoryMarkdown
open MemorySnapshot Program PromptBudgets PyException PyText PyUuid RetrievalBounds RetrievalIndex

section Log

def searchesOf (log : List Observation) : List (List MemorySearchResult) :=
  log.filterMap fun
    | .searchResults _ _ hits => some hits
    | _ => none

def readsOf (log : List Observation) : List MemoryReadResult :=
  log.flatMap fun
    | .readResults _ documents => documents
    | _ => []

def readIds (log : List Observation) : List String :=
  (readsOf log).map MemoryReadResult.memoryId

def readChars (log : List Observation) : ℕ :=
  ((readsOf log).map fun read => read.markdown.length).sum

def foundIds (log : List Observation) : List String :=
  (searchesOf log).flatMap fun hits => hits.map MemorySearchResult.memoryId

/-- Few searches, and few and short reads of distinct ids found before. -/
structure LogLaw (log : List Observation) : Prop where
  searches : (searchesOf log).length ≤ 4
  reads : (readsOf log).length ≤ 4
  chars : readChars log ≤ 300000
  once : (readIds log).Nodup
  found : ∀ before remaining documents after,
    log = before ++ .readResults remaining documents :: after →
      ∀ read ∈ documents, read.memoryId ∈ foundIds before

variable {log : List Observation} {observation : Observation}

theorem searchesOf_concat_search (query : String) (remaining : ℤ)
    (hits : List MemorySearchResult) :
    searchesOf (log ++ [.searchResults query remaining hits]) = searchesOf log ++ [hits] :=
  List.filterMap_append ..

theorem readsOf_concat_read (remaining : ℤ) (documents : List MemoryReadResult) :
    readsOf (log ++ [.readResults remaining documents]) = readsOf log ++ documents := by
  simp [readsOf]

theorem searchesOf_concat_other (h : ∀ query remaining hits,
    observation ≠ .searchResults query remaining hits) :
    searchesOf (log ++ [observation]) = searchesOf log := by
  cases observation with
  | searchResults query remaining hits => exact absurd rfl (h query remaining hits)
  | _ => simp [searchesOf]

theorem readsOf_concat_other (h : ∀ remaining documents,
    observation ≠ .readResults remaining documents) :
    readsOf (log ++ [observation]) = readsOf log := by
  cases observation with
  | readResults remaining documents => exact absurd rfl (h remaining documents)
  | _ => simp [readsOf]

/-- What is read last was found in the log, and so was what is read in it. -/
theorem found_concat (h : ∀ before remaining documents after,
      log = before ++ .readResults remaining documents :: after →
        ∀ read ∈ documents, read.memoryId ∈ foundIds before)
    (hnew : ∀ remaining documents, observation = .readResults remaining documents →
      ∀ read ∈ documents, read.memoryId ∈ foundIds log) :
    ∀ before remaining documents after,
      log ++ [observation] = before ++ .readResults remaining documents :: after →
        ∀ read ∈ documents, read.memoryId ∈ foundIds before := by
  intro before remaining documents after heq
  rcases List.eq_nil_or_concat after with rfl | ⟨after', last, rfl⟩
  · have hlast := List.append_inj_right' heq rfl
    have hfirst := List.append_inj_left' heq rfl
    rw [← hfirst]
    exact hnew remaining documents (List.singleton_inj.mp hlast)
  · have hsplit : log ++ [observation] =
        (before ++ .readResults remaining documents :: after') ++ [last] := by
      rw [heq]
      simp
    exact h before remaining documents after' (List.append_inj_left' hsplit rfl)

end Log

section Turns

variable (snapshot : Snapshot) (corpus : MemoryRetrievalIndex) (failure : Fields)

def turnOf (b : Browse) : MemoryStep → Except PyExc Turn
  | .search action =>
      if maxSearchCalls ≤ b.searchesUsed then .ok (.done (b.giveUp .searchBudget))
      else do
        let hits ← corpus.search action.query (some (failureRetrievalValues failure))
          maxSearchResults
        return .go (b.searched action.query hits)
  | .read action => readTurn snapshot corpus b (action.memoryIds.filter fun memoryId =>
      memoryId ∉ b.readDocuments.map Prod.fst)
  | .finish choice => .ok (finishTurn b choice)
  | .unsupported => .error (agentError "Retrieval agent returned an unsupported operation")

inductive Reached : Browse → List MemoryStep → Browse → Prop
  | start (b : Browse) : Reached b [] b
  | turn {b b' final : Browse} {step : MemoryStep} {steps : List MemoryStep} :
      turnOf snapshot corpus failure b step = .ok (.go b') → Reached b' steps final →
        Reached b (step :: steps) final

/-- The loop state agrees with the log, and the log keeps its law. -/
structure Kept (b : Browse) : Prop where
  law : LogLaw b.observations
  searches : b.searchesUsed = (searchesOf b.observations).length
  discovered : b.discoveredIds = foundIds b.observations
  ids : b.readDocuments.map Prod.fst = readIds b.observations
  documents : ∀ read ∈ b.readDocuments,
    read.2 ∈ snapshot.documents ∧ read.2.resolutionId = read.1
  chars : b.readChars = readChars b.observations

end Turns

section Reads

variable {corpus : MemoryRetrievalIndex} {ids : List String} {reads : List MemoryReadResult}
variable {maxDocuments maxTotalChars : ℤ}

/-- Plain distinct ids are read in the order of the request. -/
theorem read_ids (hplain : ∀ id ∈ ids, strip id = id ∧ id ≠ "") (hnodup : ids.Nodup)
    (h : corpus.read ids maxDocuments maxTotalChars = .ok reads) :
    reads.map MemoryReadResult.memoryId = ids := by
  have hrequested : validatedMemoryIds ids = .ok ids := by
    have hfold := @foldlM_addMemoryId [] ids hplain (by simpa using hnodup)
    simpa [validatedMemoryIds] using hfold
  unfold MemoryRetrievalIndex.read at h
  simp only [bind_eq_ok, hrequested, Except.ok.injEq, exists_eq_left'] at h
  obtain ⟨_, -, _, -, h⟩ := h
  rw [retrievalError_ite_eq_ok, bind_eq_ok] at h
  obtain ⟨-, entries, hentries, hreads⟩ := h
  obtain ⟨-, -, rfl⟩ := readEntries_eq_ok.mp hreads
  rw [List.map_map]
  exact (requestedEntries_eq_ok hentries).1

def Foreign (e : PyExc) : Prop := e.cls ≠ .retrieval

theorem not_foreign {α : Type} (message : String) :
    ¬ Escapes Foreign (retrievalError message : Except PyExc α) := by
  intro h
  exact escapes_error.mp h rfl

theorem not_foreign_ite {α : Type} {p : Prop} [Decidable p] {message : String}
    {x : Except PyExc α} (h : ¬ Escapes Foreign x) :
    ¬ Escapes Foreign (if p then retrievalError message else x) := by
  split
  · exact not_foreign message
  · exact h

theorem rejectBudget_not_foreign (value maximum : ℤ) (message : String) :
    ¬ Escapes Foreign (rejectBudget value maximum message) :=
  not_foreign_ite (not_escapes_ok value)

theorem requestedEntries_not_foreign (ids : List String) :
    ¬ Escapes Foreign (corpus.requestedEntries ids) := by
  induction ids with
  | nil => exact not_escapes_ok []
  | cons id rest ih =>
    rw [MemoryRetrievalIndex.requestedEntries]
    split
    · exact not_foreign _
    · exact not_escapes_bind ih fun entries _ => not_escapes_ok _

theorem readEntries_not_foreign (budget : ℤ) (total : ℕ) (entries : List IndexedMemory) :
    ¬ Escapes Foreign (readEntries budget total entries) := by
  induction entries generalizing total with
  | nil => exact not_escapes_ok []
  | cons entry rest ih =>
    rw [readEntries]
    exact not_foreign_ite (not_foreign_ite (not_escapes_bind (ih _) fun _ _ => not_escapes_ok _))

theorem read_not_foreign : ¬ Escapes Foreign (corpus.read ids maxDocuments maxTotalChars) := by
  unfold MemoryRetrievalIndex.read
  have hids : ¬ Escapes Foreign (validatedMemoryIds ids) :=
    not_escapes_foldlM fun _ _ => not_foreign_ite (not_foreign_ite (not_escapes_ok _))
  apply not_escapes_bind hids
  intro requested _
  apply not_escapes_bind (rejectBudget_not_foreign _ _ _)
  intro documentBudget _
  apply not_escapes_bind (rejectBudget_not_foreign _ _ _)
  intro characterBudget _
  apply not_foreign_ite
  apply not_escapes_bind (requestedEntries_not_foreign requested)
  intro entries _
  exact readEntries_not_foreign _ _ entries

end Reads

section Laws

variable {snapshot : Snapshot} {corpus : MemoryRetrievalIndex} {failure : Fields}
variable {b b' : Browse}

theorem kept_start (snapshot : Snapshot) : Kept snapshot (Browse.start snapshot) := by
  constructor
  · constructor
    · exact Nat.zero_le 4
    · exact Nat.zero_le 4
    · exact Nat.zero_le 300000
    · exact List.nodup_nil
    · intro before remaining documents after heq
      rcases before with _ | ⟨first, before⟩
      · cases heq
      · have htail := congrArg List.tail heq
        cases before <;> cases htail
  · rfl
  · rfl
  · rfl
  · intro read hread
    cases hread
  · rfl

/-- An observation that is neither a search nor a read. -/
theorem Kept.observe (h : Kept snapshot b) {observation : Observation}
    (hsearch : ∀ query remaining hits, observation ≠ .searchResults query remaining hits)
    (hread : ∀ remaining documents, observation ≠ .readResults remaining documents) :
    Kept snapshot (b.observe observation) := by
  have hsearches : searchesOf (b.observations ++ [observation]) = searchesOf b.observations :=
    searchesOf_concat_other hsearch
  have hreads : readsOf (b.observations ++ [observation]) = readsOf b.observations :=
    readsOf_concat_other hread
  have hlog : (b.observe observation).observations = b.observations ++ [observation] := rfl
  constructor
  · constructor
    · rw [hlog, hsearches]
      exact h.law.searches
    · rw [hlog, hreads]
      exact h.law.reads
    · rw [hlog, readChars, hreads]
      exact h.law.chars
    · rw [hlog, readIds, hreads]
      exact h.law.once
    · exact found_concat h.law.found fun remaining documents heq => absurd heq (hread _ _)
  · rw [hlog, hsearches]
    exact h.searches
  · rw [hlog, foundIds, hsearches]
    exact h.discovered
  · rw [hlog, readIds, hreads]
    exact h.ids
  · exact h.documents
  · rw [hlog, readChars, hreads]
    exact h.chars

theorem Kept.searched (h : Kept snapshot b) (hused : b.searchesUsed < maxSearchCalls)
    (query : String) (hits : List MemorySearchResult) : Kept snapshot (b.searched query hits) := by
  have hsearches : searchesOf (b.observations ++
      [.searchResults query (maxSearchCalls - (b.searchesUsed + 1)) hits]) =
      searchesOf b.observations ++ [hits] := searchesOf_concat_search query _ hits
  have hreads : readsOf (b.searched query hits).observations = readsOf b.observations :=
    readsOf_concat_other fun _ _ heq => by cases heq
  have hcount : (searchesOf (b.searched query hits).observations).length =
      (searchesOf b.observations).length + 1 := by
    show (searchesOf (b.observations ++ [_])).length = _
    rw [hsearches, List.length_append, List.length_singleton]
  have hknown := h.searches
  unfold maxSearchCalls at hused
  constructor
  · constructor
    · omega
    · rw [hreads]
      exact h.law.reads
    · rw [readChars, hreads]
      exact h.law.chars
    · rw [readIds, hreads]
      exact h.law.once
    · exact found_concat h.law.found fun _ _ heq => by cases heq
  · rw [hcount, ← hknown]
    rfl
  · show b.discoveredIds ++ hits.map MemorySearchResult.memoryId =
      (searchesOf (b.observations ++ [_])).flatMap _
    rw [hsearches, List.flatMap_append, List.flatMap_singleton, h.discovered]
    rfl
  · rw [readIds, hreads]
    exact h.ids
  · exact h.documents
  · rw [readChars, hreads]
    exact h.chars

/-- The documents of what was read, each under its id. -/
theorem zip_documents {reads : List MemoryReadResult} {documents : List MemoryDocument}
    (h : (reads.mapM fun read => snapshot.document read.memoryId) = .ok documents) :
    ((reads.map MemoryReadResult.memoryId).zip documents).map Prod.fst =
        reads.map MemoryReadResult.memoryId ∧
      ∀ entry ∈ (reads.map MemoryReadResult.memoryId).zip documents,
        entry.2 ∈ snapshot.documents ∧ entry.2.resolutionId = entry.1 := by
  induction reads generalizing documents with
  | nil => simp
  | cons read rest ih =>
    rw [List.mapM_cons, bind_eq_ok] at h
    obtain ⟨document, hdocument, h⟩ := h
    rw [bind_eq_ok] at h
    obtain ⟨others, hothers, h⟩ := h
    cases h
    obtain ⟨hkeys, hall⟩ := ih hothers
    rw [List.map_cons, List.zip_cons_cons, List.map_cons, hkeys, List.forall_mem_cons]
    exact ⟨rfl, Snapshot.document_eq_ok.mp hdocument, hall⟩

/-- A read of ids that were found and not read before. -/
theorem Kept.read (h : Kept snapshot b) {ids : List String} {reads : List MemoryReadResult}
    {documents : List MemoryDocument} (hplain : ∀ id ∈ ids, strip id = id ∧ id ≠ "")
    (hnodup : ids.Nodup) (hnew : ∀ id ∈ ids, id ∉ b.readDocuments.map Prod.fst)
    (hfound : ids ⊆ b.discoveredIds)
    (hreads : corpus.read ids (maxReadDocuments - b.readDocuments.length)
      (maxTotalReadChars - b.readChars) = .ok reads)
    (hdocuments : (reads.mapM fun read => snapshot.document read.memoryId) = .ok documents) :
    Kept snapshot (b.read reads documents) := by
  have hids := read_ids hplain hnodup hreads
  have hread := read_eq_ok hreads
  obtain ⟨hkeys, hentries⟩ := zip_documents hdocuments
  let remaining : ℤ := maxReadDocuments - (b.read reads documents).readDocuments.length
  have hlog : (b.read reads documents).observations =
      b.observations ++ [.readResults remaining reads] := rfl
  have hsearches : searchesOf (b.read reads documents).observations =
      searchesOf b.observations := searchesOf_concat_other fun _ _ _ heq => by cases heq
  have hall : readsOf (b.read reads documents).observations = readsOf b.observations ++ reads :=
    readsOf_concat_read remaining reads
  have hold : (readsOf b.observations).length = b.readDocuments.length := by
    have hlength := congrArg List.length h.ids
    rw [readIds, List.length_map, List.length_map] at hlength
    exact hlength.symm
  have hcount := hread.documents
  have hsum := hread.chars
  have htotal : readChars (b.read reads documents).observations =
      readChars b.observations + (reads.map fun read => read.markdown.length).sum := by
    rw [readChars, hall, List.map_append, List.sum_append]
    rfl
  have hknown := h.chars
  unfold maxReadDocuments at hcount
  unfold maxTotalReadChars at hsum
  constructor
  · constructor
    · rw [hsearches]
      exact h.law.searches
    · rw [hall, List.length_append]
      omega
    · omega
    · rw [readIds, hall, List.map_append, hids, List.nodup_append]
      refine ⟨h.law.once, hnodup, ?_⟩
      intro id hid other hother heq
      subst heq
      exact hnew id hother (h.ids ▸ hid)
    · rw [hlog]
      refine found_concat h.law.found fun _ _ heq read hmem => ?_
      cases heq
      rw [← h.discovered]
      exact hfound (hids ▸ List.mem_map_of_mem hmem)
  · rw [hsearches]
    exact h.searches
  · rw [foundIds, hsearches]
    exact h.discovered
  · show (b.readDocuments ++ _).map Prod.fst = _
    rw [readIds, hall, List.map_append, List.map_append, hkeys, h.ids]
    rfl
  · intro entry hentry
    rcases List.mem_append.mp hentry with hbefore | hadded
    · exact h.documents entry hbefore
    · exact hentries entry hadded
  · rw [htotal, ← hknown]
    rfl

/-- A turn that does not end the browsing keeps the law. -/
theorem Kept.turn (h : Kept snapshot b) {step : MemoryStep}
    (hturn : turnOf snapshot corpus failure b step = .ok (.go b')) : Kept snapshot b' := by
  cases step with
  | search action =>
    rw [turnOf] at hturn
    split at hturn
    · cases hturn
    · next hused =>
      rw [bind_eq_ok] at hturn
      obtain ⟨hits, -, hgo⟩ := hturn
      cases hgo
      exact h.searched (by omega) action.query hits
  | read action =>
    rw [turnOf] at hturn
    unfold MemoryBrowsing.readTurn at hturn
    dsimp only at hturn
    split at hturn
    · cases hturn
      exact h.observe (fun _ _ _ heq => by cases heq) fun _ _ heq => by cases heq
    · split at hturn
      · cases hturn
      · next hfound =>
        split at hturn
        · cases hturn
        · split at hturn
          · split at hturn <;> cases hturn
          · next reads hreads =>
            rw [bind_eq_ok] at hturn
            obtain ⟨documents, hdocuments, hgo⟩ := hturn
            cases hgo
            have hplain : ∀ id ∈ action.memoryIds.filter fun memoryId =>
                memoryId ∉ b.readDocuments.map Prod.fst, strip id = id ∧ id ≠ "" := by
              intro id hid
              have hbounded := List.all_eq_true.mp action.printable id (List.mem_of_mem_filter hid)
              unfold boundedPrintable at hbounded
              simp only [Bool.and_eq_true, decide_eq_true_eq] at hbounded
              exact ⟨hbounded.1.1.2.symm, hbounded.1.1.1⟩
            refine h.read hplain (action.unique.filter _) ?_ (not_not.mp hfound) hreads hdocuments
            intro id hid
            simpa using (List.mem_filter.mp hid).2
  | finish choice =>
    have hfinish : finishTurn b choice = .go b' := Except.ok.inj hturn
    unfold finishTurn at hfinish
    split at hfinish
    · cases hfinish
      exact h.observe (fun _ _ _ heq => by cases heq) fun _ _ heq => by cases heq
    · split at hfinish <;> cases hfinish
  | unsupported => cases hturn

theorem Kept.reached (h : Kept snapshot b) {steps : List MemoryStep} {final : Browse}
    (hreached : Reached snapshot corpus failure b steps final) : Kept snapshot final := by
  induction hreached with
  | start b => exact h
  | turn hturn _ ih => exact ih (h.turn hturn)

end Laws

section Endings

variable {snapshot : Snapshot} {corpus : MemoryRetrievalIndex} {failure : Fields} {b : Browse}

/-- The documents are those that were read, and what is selected is one of them. -/
structure Concluded (snapshot : Snapshot) (log : List Observation) (outcome : RetrievalOutcome) :
    Prop where
  documents : outcome.documents.map MemoryDocument.resolutionId = readIds log
  members : ∀ document ∈ outcome.documents, document ∈ snapshot.documents
  choice : outcome.choice.decision = .noSolution ∨ outcome.choice.decision = .applyMemory ∧
    ∃ memoryId ∈ readIds log, outcome.choice.memoryId = some memoryId

theorem Kept.documents_eq (h : Kept snapshot b) :
    (b.readDocuments.map Prod.snd).map MemoryDocument.resolutionId = readIds b.observations := by
  rw [← h.ids, List.map_map]
  apply List.map_congr_left
  intro entry hentry
  exact (h.documents entry hentry).2

theorem Kept.members (h : Kept snapshot b) :
    ∀ document ∈ b.readDocuments.map Prod.snd, document ∈ snapshot.documents := by
  rw [List.forall_mem_map]
  intro entry hentry
  exact (h.documents entry hentry).1

theorem Kept.giveUp (h : Kept snapshot b) (why : GiveUp) :
    Concluded snapshot b.observations (b.giveUp why) :=
  ⟨h.documents_eq, h.members, .inl rfl⟩

/-- The model's own finish without a solution is honoured after a search and a read. -/
theorem Kept.finished (h : Kept snapshot b) {choice : MemoryChoice} {outcome : RetrievalOutcome}
    (hturn : finishTurn b choice = .done outcome) : Concluded snapshot b.observations outcome ∧
      (choice.decision = .noSolution →
        searchesOf b.observations ≠ [] ∧ readsOf b.observations ≠ []) := by
  unfold finishTurn at hturn
  split at hturn
  · cases hturn
  · next hhonoured =>
    have hboth : choice.decision = .noSolution →
        searchesOf b.observations ≠ [] ∧ readsOf b.observations ≠ [] := by
      intro hdecision
      have hused := h.searches
      have hids := congrArg List.length h.ids
      rw [readIds, List.length_map, List.length_map] at hids
      constructor
      · intro hnone
        apply hhonoured
        rw [hnone] at hused
        exact ⟨hdecision, .inl hused⟩
      · intro hnone
        apply hhonoured
        rw [hnone] at hids
        exact ⟨hdecision, .inr (List.eq_nil_of_length_eq_zero hids)⟩
    split at hturn
    · cases hturn
      exact ⟨h.giveUp .unread, hboth⟩
    · next hread =>
      cases hturn
      refine ⟨⟨h.documents_eq, h.members, ?_⟩, hboth⟩
      cases hdecision : choice.decision with
      | noSolution => exact .inl rfl
      | applyMemory =>
        refine .inr ⟨rfl, ?_⟩
        by_contra hnone
        apply hread
        refine ⟨hdecision, fun memoryId hmemoryId hmem => hnone ⟨memoryId, ?_, hmemoryId⟩⟩
        rwa [← h.ids]

/-- How a turn ends the browsing. -/
theorem Kept.done (h : Kept snapshot b) {step : MemoryStep} {outcome : RetrievalOutcome}
    (hturn : turnOf snapshot corpus failure b step = .ok (.done outcome)) :
    Concluded snapshot b.observations outcome ∧
      ∀ choice, step = .finish choice → choice.decision = .noSolution →
        searchesOf b.observations ≠ [] ∧ readsOf b.observations ≠ [] := by
  cases step with
  | search action =>
    rw [turnOf] at hturn
    split at hturn
    · cases hturn
      exact ⟨h.giveUp .searchBudget, fun _ heq => by cases heq⟩
    · rw [bind_eq_ok] at hturn
      obtain ⟨hits, -, hgo⟩ := hturn
      cases hgo
  | read action =>
    refine ⟨?_, fun _ heq => by cases heq⟩
    rw [turnOf] at hturn
    unfold MemoryBrowsing.readTurn at hturn
    dsimp only at hturn
    split at hturn
    · cases hturn
    · split at hturn
      · cases hturn
        exact h.giveUp .undiscovered
      · split at hturn
        · cases hturn
          exact h.giveUp .readBudget
        · split at hturn
          · split at hturn
            · cases hturn
              exact h.giveUp .readBudget
            · cases hturn
          · rw [bind_eq_ok] at hturn
            obtain ⟨documents, -, hgo⟩ := hturn
            cases hgo
  | finish choice =>
    obtain ⟨hconcluded, hhonoured⟩ := h.finished (Except.ok.inj hturn)
    refine ⟨hconcluded, fun other heq => ?_⟩
    cases heq
    exact hhonoured
  | unsupported => cases hturn

/-- A turn raises for an unsupported answer or with its search, never in a read. -/
theorem turnOf_error (hcorpus : corpusOf snapshot = .ok corpus) {step : MemoryStep} {e : PyExc}
    (hturn : turnOf snapshot corpus failure b step = .error e) : step = .unsupported ∨
      ∃ action, step = .search action ∧ corpus.search action.query
        (some (failureRetrievalValues failure)) maxSearchResults = .error e := by
  cases step with
  | search action =>
    refine .inr ⟨action, rfl, ?_⟩
    rw [turnOf] at hturn
    split at hturn
    · cases hturn
    · cases hsearch : corpus.search action.query (some (failureRetrievalValues failure))
          maxSearchResults with
      | ok hits =>
        rw [hsearch] at hturn
        cases hturn
      | error e' =>
        rw [hsearch] at hturn
        cases hturn
        rfl
  | read action =>
    exfalso
    rw [turnOf] at hturn
    unfold MemoryBrowsing.readTurn at hturn
    dsimp only at hturn
    split at hturn
    · cases hturn
    · split at hturn
      · cases hturn
      · split at hturn
        · cases hturn
        · split at hturn
          · next e' hread =>
            split at hturn
            · cases hturn
            · next hvalue =>
              refine @read_not_foreign corpus _ _ _ ⟨e', hread, fun hclass => hvalue ?_⟩
              simp [isValueError, hclass]
          · next reads hreads =>
            have hall : ∃ documents, (reads.mapM fun read => snapshot.document read.memoryId) =
                .ok documents := by
              rw [mapM_ok_iff]
              intro read hread
              obtain ⟨entries, hentries, rfl⟩ := (read_eq_ok hreads).entries
              obtain ⟨entry, hentry, rfl⟩ := List.mem_map.mp hread
              obtain ⟨document, hmeasured, rfl⟩ :=
                (corpusOf_entries hcorpus).2 entry (hentries entry hentry)
              exact ⟨document, Snapshot.document_eq_ok.mpr ⟨hmeasured.supplied, rfl⟩⟩
            obtain ⟨documents, hdocuments⟩ := hall
            rw [hdocuments] at hturn
            cases hturn
  | finish choice => cases hturn
  | unsupported => exact .inl rfl

end Endings

section Runs

def stepsOf (t : List (Event matching)) : List MemoryStep :=
  t.filterMap fun
    | ⟨_, .nextRetrievalTurn _ _, some (.ok step, _)⟩ => some step
    | _ => none

def isTurn (e : Event matching) : Bool :=
  match e.op with
  | .nextRetrievalTurn .. => true
  | _ => false

def isThread (e : Event matching) : Bool :=
  match e.op with
  | .thread => true
  | _ => false

variable {snapshot : Snapshot} {corpus : MemoryRetrievalIndex} {failure : Fields}
variable {b : Browse} {w : World} {t u : List (Event matching)}

theorem stepsOf_append (t u : List (Event matching)) :
    stepsOf (t ++ u) = stepsOf t ++ stepsOf u := List.filterMap_append ..

/-- The awaits inside a turn are at most a thread for a search. -/
structure Between (b : Browse) (t : List (Event matching)) (room : ℕ) : Prop where
  steps : stepsOf t = []
  turns : t.countP isTurn = 0
  threads : t.countP isThread + b.searchesUsed ≤ room

/-- How a turn ends: as it does without its awaits, or with one that raised. -/
def TurnEnds (snapshot : Snapshot) (corpus : MemoryRetrievalIndex) (failure : Fields) (b : Browse)
    (step : MemoryStep) (t : List (Event matching)) : Outcome matching Turn → Prop
  | .returned turn _ => turnOf snapshot corpus failure b step = .ok turn ∧
      ∀ b', turn = .go b' → t.countP isThread + b.searchesUsed ≤ b'.searchesUsed
  | .raised e _ => (∃ ev ∈ t, ev.raised = true) ∨
      turnOf snapshot corpus failure b step = .error e
  | .suspended => True
  | .outOfFuel => False

theorem between_nil (hused : b.searchesUsed ≤ 4) : Between b [] 4 := by
  refine ⟨rfl, rfl, ?_⟩
  simpa using hused

/-- A turn that was settled keeps to the searches the loop counts. -/
theorem turnOf_searchesUsed {step : MemoryStep} {b' : Browse}
    (hturn : turnOf snapshot corpus failure b step = .ok (.go b')) :
    b.searchesUsed ≤ b'.searchesUsed := by
  cases step with
  | search action =>
    rw [turnOf] at hturn
    split at hturn
    · cases hturn
    · rw [bind_eq_ok] at hturn
      obtain ⟨hits, -, hgo⟩ := hturn
      cases hgo
      exact Nat.le_succ _
  | read action =>
    rw [turnOf] at hturn
    unfold MemoryBrowsing.readTurn at hturn
    dsimp only at hturn
    split at hturn
    · cases hturn
      exact le_refl _
    · split at hturn
      · cases hturn
      · split at hturn
        · cases hturn
        · split at hturn
          · split at hturn <;> cases hturn
          · rw [bind_eq_ok] at hturn
            obtain ⟨documents, -, hgo⟩ := hturn
            cases hgo
            exact le_refl _
  | finish choice =>
    have hfinish : finishTurn b choice = .go b' := Except.ok.inj hturn
    unfold finishTurn at hfinish
    split at hfinish
    · cases hfinish
      exact le_refl _
    · split at hfinish <;> cases hfinish
  | unsupported => cases hturn

/-- A turn that awaits nothing. -/
theorem turnEnds_settle (hused : b.searchesUsed ≤ 4) {step : MemoryStep} :
    Ensures anything (Prog.settle (σ := matching) (turnOf snapshot corpus failure b step)) w
      fun t o => Between b t 4 ∧ TurnEnds snapshot corpus failure b step t o := by
  cases hturn : turnOf snapshot corpus failure b step with
  | ok turn =>
    rw [ensures_settle_ok]
    refine ⟨between_nil hused, hturn, fun b' hgo => ?_⟩
    rw [hgo] at hturn
    simpa using turnOf_searchesUsed hturn
  | error e =>
    rw [ensures_settle_error]
    exact ⟨between_nil hused, .inr hturn⟩

theorem browseTurn_run (hused : b.searchesUsed ≤ 4) (step : MemoryStep) :
    Ensures anything (browseTurn snapshot corpus failure b step) w
      fun t o => Between b t 4 ∧ TurnEnds snapshot corpus failure b step t o := by
  cases step with
  | search action =>
    by_cases hspent : maxSearchCalls ≤ b.searchesUsed
    · have hturn := @turnEnds_settle snapshot corpus failure b w hused (.search action)
      rw [turnOf, if_pos hspent] at hturn
      rw [browseTurn, if_pos hspent]
      exact hturn
    · have hroom : b.searchesUsed < 4 := not_le.mp hspent
      have hthread : ∀ reply, Between b [(⟨w, .thread, reply⟩ : Event matching)] 4 := by
        intro reply
        refine ⟨rfl, rfl, ?_⟩
        show 1 + b.searchesUsed ≤ 4
        omega
      have hturn : turnOf snapshot corpus failure b (.search action) =
          (corpus.search action.query (some (failureRetrievalValues failure)) maxSearchResults >>=
            fun hits => .ok (.go (b.searched action.query hits))) := by
        rw [turnOf, if_neg hspent]
        rfl
      rw [browseTurn, if_neg hspent, Prog.bind_eq, ensures_bind]
      refine ensures_call.mpr ⟨⟨hthread _, trivial⟩, ?_, ?_⟩
      · intro a w' _
        show Ensures _ (Prog.bind _ _) _ _
        rw [ensures_bind]
        cases hsearch : corpus.search action.query (some (failureRetrievalValues failure))
            maxSearchResults with
        | ok hits =>
          rw [hsearch] at hturn
          refine ensures_settle_ok.mpr (ensures_ret.mpr ⟨hthread _, hturn, ?_⟩)
          intro b' hgo
          cases hgo
          show 1 + b.searchesUsed ≤ b.searchesUsed + 1
          omega
        | error e =>
          rw [hsearch] at hturn
          exact ensures_settle_error.mpr ⟨hthread _, .inr hturn⟩
      · intro e w' _
        exact ⟨hthread _, .inl ⟨_, List.mem_singleton_self _, rfl⟩⟩
  | read action => exact @turnEnds_settle snapshot corpus failure b w hused (.read action)
  | finish choice => exact @turnEnds_settle snapshot corpus failure b w hused (.finish choice)
  | unsupported => exact @turnEnds_settle snapshot corpus failure b w hused .unsupported

/-- The steps that did not end the browsing, with what a returned outcome owes to the
log they left. -/
structure Logged (snapshot : Snapshot) (t : List (Event matching)) (steps : List MemoryStep)
    (final : Browse) (o : Outcome matching RetrievalOutcome) : Prop where
  answers : stepsOf t = steps ∨ ∃ last, stepsOf t = steps ++ [last]
  concluded : ∀ outcome w, o = .returned outcome w → Concluded snapshot final.observations outcome
  honoured : ∀ outcome w choice, o = .returned outcome w → stepsOf t = steps ++ [.finish choice] →
    choice.decision = .noSolution →
      searchesOf final.observations ≠ [] ∧ readsOf final.observations ≠ []

def Excused (corpus : MemoryRetrievalIndex) (failure : Fields) (t : List (Event matching)) : Prop :=
  (∃ ev ∈ t, ev.raised = true) ∨ .unsupported ∈ stepsOf t ∨
    ∃ action e, .search action ∈ stepsOf t ∧ corpus.search action.query
      (some (failureRetrievalValues failure)) maxSearchResults = .error e

structure BrowseRun (snapshot : Snapshot) (corpus : MemoryRetrievalIndex) (failure : Fields)
    (b : Browse) (turns : ℕ) (t : List (Event matching))
    (o : Outcome matching RetrievalOutcome) : Prop where
  turns : t.countP isTurn ≤ turns
  threads : t.countP isThread + b.searchesUsed ≤ 4
  log : ∃ steps final, Reached snapshot corpus failure b steps final ∧
    Logged snapshot t steps final o
  raises : ∀ e w, o = .raised e w → Excused corpus failure t
  ends : o ≠ .outOfFuel

/-- The events of a turn: the answer of the model, then what the turn awaits. -/
def answered (w : World) (failure : Fields) (observations : List Observation) (step : MemoryStep)
    (w' : World) : Event matching :=
  ⟨w, .nextRetrievalTurn failure observations, some (.ok step, w')⟩

section Answered

variable {observations : List Observation} {step : MemoryStep} {w' : World}

theorem stepsOf_answered :
    stepsOf (answered w failure observations step w' :: t) = step :: stepsOf t := rfl

theorem turns_answered : (answered w failure observations step w' :: t).countP isTurn =
    t.countP isTurn + 1 := List.countP_cons_of_pos rfl

theorem threads_answered : (answered w failure observations step w' :: t).countP isThread =
    t.countP isThread := List.countP_cons_of_neg Bool.false_ne_true

theorem Excused.mono (h : Excused corpus failure u) (hevents : ∀ ev ∈ u, ev ∈ t)
    (hsteps : ∀ step ∈ stepsOf u, step ∈ stepsOf t) : Excused corpus failure t := by
  rcases h with ⟨ev, hev, hraised⟩ | hunsupported | ⟨action, e, haction, hsearch⟩
  · exact .inl ⟨ev, hevents ev hev, hraised⟩
  · exact .inr (.inl (hsteps _ hunsupported))
  · exact .inr (.inr ⟨action, e, hsteps _ haction, hsearch⟩)

/-- A run whose first turn is its last. -/
theorem browseRun_last {turns : ℕ} {o : Outcome matching RetrievalOutcome}
    (hbetween : Between b t 4) (hconcluded : ∀ outcome w, o = .returned outcome w →
      Concluded snapshot b.observations outcome ∧ ∀ choice, step = .finish choice →
        choice.decision = .noSolution →
          searchesOf b.observations ≠ [] ∧ readsOf b.observations ≠ [])
    (hraises : ∀ e w₁, o = .raised e w₁ →
      Excused corpus failure (answered w failure observations step w' :: t))
    (hends : o ≠ .outOfFuel) : BrowseRun snapshot corpus failure b (turns + 1)
      (answered w failure observations step w' :: t) o := by
  have hsteps : stepsOf (answered w failure observations step w' :: t) = [step] := by
    rw [stepsOf_answered, hbetween.steps]
  refine ⟨?_, ?_, ⟨[], b, .start b, ?_⟩, hraises, hends⟩
  · rw [turns_answered, hbetween.turns]
    omega
  · rw [threads_answered]
    exact hbetween.threads
  · refine ⟨.inr ⟨step, hsteps⟩, fun outcome w ho => (hconcluded outcome w ho).1, ?_⟩
    intro outcome w choice ho hlast
    rw [hsteps] at hlast
    exact (hconcluded outcome w ho).2 choice (List.singleton_inj.mp hlast)

/-- A run whose first turn goes on. -/
theorem browseRun_next {turns : ℕ} {o : Outcome matching RetrievalOutcome} {b' : Browse}
    (hturn : turnOf snapshot corpus failure b step = .ok (.go b')) (hbetween : Between b t 4)
    (hthreads : t.countP isThread + b.searchesUsed ≤ b'.searchesUsed)
    (hrest : BrowseRun snapshot corpus failure b' turns u o) :
    BrowseRun snapshot corpus failure b (turns + 1)
      (answered w failure observations step w' :: (t ++ u)) o := by
  obtain ⟨steps, final, hreached, hlogged⟩ := hrest.log
  have hall : stepsOf (answered w failure observations step w' :: (t ++ u)) =
      step :: stepsOf u := by
    rw [stepsOf_answered, stepsOf_append, hbetween.steps, List.nil_append]
  refine ⟨?_, ?_, ⟨step :: steps, final, .turn hturn hreached, ?_⟩, ?_, hrest.ends⟩
  · have hturns := hrest.turns
    rw [turns_answered, List.countP_append, hbetween.turns]
    omega
  · have hcount := hrest.threads
    rw [threads_answered, List.countP_append]
    omega
  · refine ⟨?_, hlogged.concluded, ?_⟩
    · rw [hall]
      rcases hlogged.answers with hsame | ⟨last, hlast⟩
      · exact .inl (by rw [hsame])
      · exact .inr ⟨last, by rw [hlast, List.cons_append]⟩
    · intro outcome w₁ choice ho hlast
      rw [hall, List.cons_append, List.cons_inj_right] at hlast
      exact hlogged.honoured outcome w₁ choice ho hlast
  · intro e w₁ ho
    refine (hrest.raises e w₁ ho).mono ?_ ?_
    · intro ev hev
      exact List.mem_cons_of_mem _ (List.mem_append_right _ hev)
    · intro other hother
      rw [hall]
      exact List.mem_cons_of_mem _ hother

end Answered

/-- The loop keeps to its turns and searches, and what it returns fits its log. -/
theorem browse_run (hcorpus : corpusOf snapshot = .ok corpus) (turns : ℕ)
    (h : Kept snapshot b) : Ensures anything (browse snapshot corpus failure turns b) w
      (BrowseRun snapshot corpus failure b turns) := by
  have hused : b.searchesUsed ≤ 4 := h.searches ▸ h.law.searches
  induction turns generalizing b w with
  | zero =>
    refine ensures_ret.mpr ⟨le_refl _, by simpa using hused, ⟨[], b, .start b, .inl rfl, ?_, ?_⟩,
      fun _ _ ho => (by cases ho), fun ho => by cases ho⟩
    · intro outcome w₁ ho
      cases ho
      exact h.giveUp .turnBudget
    · intro outcome w₁ choice ho hlast
      cases hlast
  | succ turns ih =>
    rw [browse, Prog.bind_eq, ensures_bind]
    refine ensures_call.mpr ⟨?_, ?_, ?_⟩
    · refine ⟨by show 1 ≤ turns + 1; omega, ?_, ⟨[], b, .start b, .inl rfl, fun _ _ ho => ?_,
        fun _ _ _ ho => ?_⟩, fun _ _ ho => ?_, fun ho => ?_⟩
      · show 0 + b.searchesUsed ≤ 4
        omega
      all_goals cases ho
    · intro step w' _
      show Ensures _ (Prog.bind _ _) _ _
      rw [ensures_bind]
      refine (browseTurn_run hused step).mono fun t o ho => ?_
      obtain ⟨hbetween, hends⟩ := ho
      cases o with
      | returned turn w₁ =>
        obtain ⟨hturn, hthreads⟩ := hends
        cases turn with
        | done outcome =>
          obtain ⟨hconcluded, hhonoured⟩ := h.done hturn
          show Ensures _ (Prog.ret outcome) _ _
          rw [ensures_ret, List.append_nil]
          refine browseRun_last hbetween ?_ (fun _ _ ho => by cases ho) fun ho => by cases ho
          intro outcome' w₂ ho
          cases ho
          exact ⟨hconcluded, hhonoured⟩
        | go b' =>
          have hkept := h.turn hturn
          show Ensures _ (browse snapshot corpus failure turns b') _ _
          refine (ih hkept (hkept.searches ▸ hkept.law.searches)).mono fun u o' hrest => ?_
          rw [List.singleton_append]
          exact browseRun_next hturn hbetween (hthreads b' rfl) hrest
      | raised e w₁ =>
        refine browseRun_last hbetween (fun _ _ ho => by cases ho) ?_ fun ho => by cases ho
        intro e' w₂ ho
        cases ho
        rcases hends with ⟨ev, hev, hraised⟩ | hturn
        · exact .inl ⟨ev, List.mem_cons_of_mem _ hev, hraised⟩
        · rcases turnOf_error hcorpus hturn with rfl | ⟨action, rfl, hsearch⟩
          · exact .inr (.inl (List.mem_cons_self ..))
          · exact .inr (.inr ⟨action, e, List.mem_cons_self .., hsearch⟩)
      | suspended =>
        exact browseRun_last hbetween (fun _ _ ho => by cases ho) (fun _ _ ho => by cases ho)
          fun ho => by cases ho
      | outOfFuel => exact hends.elim
    · intro e w' _
      refine ⟨by show 1 ≤ turns + 1; omega, ?_, ⟨[], b, .start b, .inl rfl, fun _ _ ho => ?_,
        fun _ _ _ ho => ?_⟩, fun _ _ _ => ?_, fun ho => ?_⟩
      · show 0 + b.searchesUsed ≤ 4
        omega
      · cases ho
      · cases ho
      · exact .inl ⟨_, List.mem_singleton_self _, rfl⟩
      · cases ho

def Browses (corpus : MemoryRetrievalIndex) : Prop :=
  ∀ autoRead, corpus.autoReadEligibility maxReadDocuments maxTotalReadChars = .ok autoRead →
    (autoRead.eligible && !autoRead.memoryIds.isEmpty) = false

theorem autoReads_decided (corpus : MemoryRetrievalIndex) : ∃ autoRead,
    corpus.autoReadEligibility maxReadDocuments maxTotalReadChars = .ok autoRead := by
  have hdocuments : validatedDocumentBudget maxReadDocuments = .ok maxReadDocuments := rfl
  have hchars : validatedCharacterBudget maxTotalReadChars = .ok maxTotalReadChars := rfl
  apply exists_of_isOk
  unfold MemoryRetrievalIndex.autoReadEligibility
  rw [hdocuments, hchars]
  dsimp only [bind, Except.bind]
  split
  · rfl
  · split
    · rfl
    · rfl

/-- A run in the browsing path: its turns and its threads, the first of which builds the
index, and a log within its law that the outcome agrees with. -/
structure Disciplined (snapshot : Snapshot) (corpus : MemoryRetrievalIndex) (failure : Fields)
    (t : List (Event matching)) (o : Outcome matching RetrievalOutcome) : Prop where
  turns : t.countP isTurn ≤ 10
  threads : t.countP isThread ≤ 1 + 4
  log : ∃ steps final, Reached snapshot corpus failure (Browse.start snapshot) steps final ∧
    LogLaw final.observations ∧ Logged snapshot t steps final o
  raises : ∀ e w, o = .raised e w → Excused corpus failure t
  ends : o ≠ .outOfFuel

/-- Before the loop nothing is asked and nothing is known. -/
theorem disciplined_early {o : Outcome matching RetrievalOutcome} (hsteps : stepsOf t = [])
    (hturns : t.countP isTurn = 0) (hthreads : t.countP isThread ≤ 1)
    (hreturned : ∀ outcome w, o ≠ .returned outcome w)
    (hraised : ∀ e w, o = .raised e w → ∃ ev ∈ t, ev.raised = true) (hends : o ≠ .outOfFuel) :
    Disciplined snapshot corpus failure t o :=
  ⟨by omega, by omega, ⟨[], Browse.start snapshot, .start _, (kept_start snapshot).law,
    .inl hsteps, fun outcome w ho => absurd ho (hreturned outcome w),
    fun outcome w _ ho => absurd ho (hreturned outcome w)⟩,
    fun e w ho => .inl (hraised e w ho), hends⟩

/-- Browsing keeps to its bounds and reads before it selects, whatever the model answers. -/
theorem browsing_disciplined (hcorpus : corpusOf snapshot = .ok corpus) (hbrowses : Browses corpus)
    (failure : Fields) (w : World) : Ensures anything (retrieveMemoryChoice snapshot failure) w
      (Disciplined snapshot corpus failure) := by
  unfold retrieveMemoryChoice
  rw [Prog.bind_eq, ensures_bind]
  refine ensures_call.mpr ⟨?_, ?_, ?_⟩
  · exact disciplined_early rfl rfl (le_refl 1) (fun _ _ ho => by cases ho)
      (fun _ _ ho => by cases ho) fun ho => by cases ho
  · intro a w' _
    show Ensures _ (Prog.bind _ _) _ _
    rw [ensures_bind, hcorpus, ensures_settle_ok]
    show Ensures _ (Prog.bind _ _) _ _
    obtain ⟨autoRead, hautoRead⟩ := autoReads_decided corpus
    rw [ensures_bind, hautoRead, ensures_settle_ok]
    show Ensures _ (if _ then _ else _) _ _
    rw [hbrowses autoRead hautoRead, if_neg Bool.false_ne_true]
    refine (browse_run hcorpus maxRetrievalTurns (kept_start snapshot)).mono fun t o hrun => ?_
    rw [List.nil_append, List.nil_append]
    obtain ⟨steps, final, hreached, hlogged⟩ := hrun.log
    have hturns := hrun.turns
    have hthreads := hrun.threads
    constructor
    · rw [List.countP_append]
      show 0 + t.countP isTurn ≤ 10
      unfold maxRetrievalTurns at hturns
      omega
    · rw [List.countP_append]
      show 1 + t.countP isThread ≤ 1 + 4
      omega
    · exact ⟨steps, final, hreached, ((kept_start snapshot).reached hreached).law,
        hlogged.answers, hlogged.concluded, hlogged.honoured⟩
    · intro e w₁ ho
      exact (hrun.raises e w₁ ho).mono (fun ev hev => List.mem_cons_of_mem _ hev)
        fun step hstep => hstep
    · exact hrun.ends
  · intro e w' _
    refine disciplined_early rfl rfl (le_refl 1) (fun _ _ ho => by cases ho) ?_ fun ho => by cases ho
    intro e' w₁ ho
    exact ⟨_, List.mem_singleton_self _, rfl⟩

/-- A memory of 250000 characters is too long to be read as a whole. -/
theorem browsing_disciplined_sample : ∃ (snapshot : Snapshot) (corpus : MemoryRetrievalIndex),
    snapshot.documents ≠ [] ∧ corpusOf snapshot = .ok corpus ∧
      Ensures anything (retrieveMemoryChoice snapshot []) (fun _ => none)
        (Disciplined snapshot corpus []) := by
  obtain ⟨source, snapshot, corpus, entry, -, hdocuments, hcorpus, hentries, hlong, -⟩ :=
    exists_longMemory (by decide : 250000 ≤ 60000000)
  refine ⟨snapshot, corpus, by rw [hdocuments]; exact List.cons_ne_nil _ _, hcorpus, ?_⟩
  apply browsing_disciplined hcorpus
  intro autoRead hautoRead
  by_contra hread
  rw [Bool.not_eq_false, Bool.and_eq_true] at hread
  have hbounds := autoReads_bounds ⟨by simpa using hread.2, autoRead, hautoRead, hread.1, rfl⟩
  have hfit := hbounds.2.2.1 entry (by simp [hentries])
  unfold maxMemoryReadChars at hfit
  omega

end Runs

end FailureResolver.BrowsingDiscipline
