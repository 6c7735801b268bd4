import FailureResolver.LearnResolution
import FailureResolver.MemoryAgent
import FailureResolver.MemorySnapshot
import FailureResolver.RetrievalIndex

/-!
Browsing a snapshot for a memory that fits a failure. A snapshot that fits the read
budget is read as a whole and shown to the model once; otherwise the model searches
and reads in bounded turns, and every way out of the bounds is a choice of no
solution. The operations are those of the matcher, which browses after its claim.
-/

namespace FailureResolver.MemoryBrowsing

open BinaryFloat JsonValue LearnResolution MemoryAgent MemoryMarkdown MemorySnapshot Program
open PyException PyText ResolutionEpisode RetrievalIndex

section Observations

inductive Observation
  | corpus (eligibleMemoryCount : ℕ)
  | searchResults (query : String) (searchesRemaining : ℤ) (hits : List MemorySearchResult)
  | readResults (readsRemaining : ℤ) (documents : List MemoryReadResult)
  | alreadyRead
  | correction

def hitFields (hit : MemorySearchResult) : Fields :=
  [("memory_id", .str hit.memoryId), ("score", .int hit.score),
    ("matched_fields", .arr (hit.matchedFields.map Json.str)), ("metadata", .obj hit.metadata),
    ("snippet", .str (String.ofList hit.snippet))]

def documentFields (read : MemoryReadResult) : Fields :=
  [("memory_id", .str read.memoryId), ("markdown", .str (String.ofList read.markdown))]

def alreadyReadNote : String := "All requested memories were already read."

def correctionMessage : String :=
  "Search and read at least one returned memory before concluding that no solution exists."

def Observation.fields : Observation → Fields
  | .corpus eligibleMemoryCount =>
      [("kind", .str "corpus"), ("eligible_memory_count", .int eligibleMemoryCount),
        ("searches_remaining", .int maxSearchCalls), ("reads_remaining", .int maxReadDocuments)]
  | .searchResults query searchesRemaining hits =>
      [("kind", .str "search_results"), ("query", .str query),
        ("searches_remaining", .int searchesRemaining),
        ("hits", .arr (hits.map fun hit => .obj (hitFields hit)))]
  | .readResults readsRemaining documents =>
      [("kind", .str "read_results"), ("reads_remaining", .int readsRemaining),
        ("documents", .arr (documents.map fun read => .obj (documentFields read)))]
  | .alreadyRead =>
      [("kind", .str "read_results"), ("documents", .arr []), ("note", .str alreadyReadNote)]
  | .correction => [("kind", .str "retrieval_correction"), ("message", .str correctionMessage)]

end Observations

section Operations

/-- The awaits of one match; `thread` hands a pure computation to a worker. -/
inductive Op
  | fetchFailure (failureId : String)
  | claimFailure (failureId : String)
  | fetchRobot (sysid : String)
  | rebuildIndex (store : StoreName)
  | fetchRevoked (resolutionIds : List String)
  | thread
  | chooseMemory (failure : Fields) (memories : List MarkdownMemory)
  | nextRetrievalTurn (failure : Fields) (observations : List Observation)
  | finishFailure (failureId status message : String) (suggestion : Option Fields)

@[reducible] def Op.Reply : Op → Type
  | .fetchFailure _ => Option Fields
  | .claimFailure _ => Bool
  | .fetchRobot _ => Option Fields
  | .rebuildIndex _ => Snapshot
  | .fetchRevoked _ => List Fields
  | .chooseMemory .. => MemoryChoice
  | .nextRetrievalTurn .. => MemoryStep
  | _ => Unit

/-- The shared state is the `matcher_status` column of the failure rows. -/
abbrev World := String → Option String

abbrev matching : Interface := ⟨World, Op, Op.Reply, PyExc⟩

abbrev Matching := Prog matching

end Operations

section Context

def membersOf : Json → Fields
  | .obj members => members
  | _ => []

def setPresent (fields : Fields) (key : String) (value : Json) : Fields :=
  if value.isNull then fields else Fields.set fields key value

def setAbsent (fields : Fields) (key : String) (value : Json) : Fields :=
  if Fields.has fields key then fields else setPresent fields key value

/-- The location as the row has it, over the one of the context. -/
def locationOf (row context : Fields) : Fields :=
  let location := locationFields.foldl (fun location field =>
    setPresent location field (Fields.get row field)) (membersOf (Fields.get context "location"))
  let navigation := if isMapping (Fields.get row "navigation") then Fields.get row "navigation"
    else Fields.get context "navigation"
  match Json.get navigation "current_map" with
  | .obj currentMap =>
      setAbsent (setAbsent location "map_id" (Fields.get currentMap "id"))
        "map_name" (Fields.get currentMap "map_name")
  | _ => location

def failureWithLocationContext (row : Fields) : Fields :=
  let context := membersOf (Fields.get row "sanitized_context")
  let location := locationOf row context
  Fields.set row "sanitized_context"
    (.obj (if location.isEmpty then context else Fields.set context "location" (.obj location)))

def orElse (value other : Json) : Json := if truthy value then value else other

/-- The values under some keys, filled from a part of the context. -/
def fillValues (part : Json) (keys : List (String × String)) (values : Fields) : Fields :=
  match part with
  | .obj members =>
      keys.foldl (fun values key => Fields.set values key.1
        (orElse (Fields.get values key.1) (Fields.get members key.2))) values
  | _ => values

def retrievalFields : List String :=
  ["sysid", "site_id", "site", "floor", "room_number", "map_id", "map_name", "flow_id",
    "flow_name", "activity_id", "area_name", "item_name"]

def failureRetrievalValues (failure : Fields) : Fields :=
  let values := retrievalFields.map (fun field => (field, Fields.get failure field)) ++
    [("failed_command",
      orElse (Fields.get failure "failed_command") (Fields.get failure "action_command"))]
  let context := Fields.get failure "sanitized_context"
  fillValues (Json.get context "action") [("area_name", "area_name"), ("item_name", "item_name")]
    (fillValues (Json.get context "flow") [("site", "site"), ("room_number", "room")]
      (fillValues (Json.get context "location")
        (["site_id", "site", "floor", "room_number", "map_id", "map_name"].map fun field =>
          (field, field))
        (fillValues (Json.get (Fields.get failure "navigation") "current_map")
          [("map_id", "id"), ("map_name", "map_name")] values)))

end Context

section Outcomes

/-- The choice of the model, and the documents whose text it was given. -/
structure RetrievalOutcome where
  choice : MemoryChoice
  documents : List MemoryDocument

inductive GiveUp
  | searchBudget
  | undiscovered
  | readBudget
  | unread
  | turnBudget

def GiveUp.reason : GiveUp → String
  | .searchBudget => "The memory search budget was exhausted."
  | .undiscovered => "The retrieval agent requested an undiscovered memory."
  | .readBudget => "The memory read budget was exhausted."
  | .unread => "The retrieval agent selected an unread memory."
  | .turnBudget => "The memory retrieval turn budget was exhausted."

theorem GiveUp.bounded (why : GiveUp) :
    Trimmed why.reason ∧ why.reason.length ≤ maxReasonLength := by
  unfold Trimmed
  cases why <;> decide +kernel

def noConfidence : Binary64 := .finite ⟨false, 0, -1074, by decide⟩

theorem confidence_noConfidence : Confidence noConfidence := by
  simp [noConfidence, Confidence, Finite.value, magnitude]

def retrievalNoSolution (documents : List MemoryDocument) (why : GiveUp) : RetrievalOutcome where
  choice :=
    { decision := .noSolution
      memoryId := none
      confidence := noConfidence
      reason := why.reason
      boundedId := by simp
      unit := confidence_noConfidence
      boundedReason := why.bounded
      matchesId := by simp }
  documents := documents

end Outcomes

section Browsing

def maxRetrievalTurns : ℕ := 10

/-- The state of the browsing loop. Reads append, since no id is read twice. -/
structure Browse where
  observations : List Observation
  discoveredIds : List String
  readDocuments : List (String × MemoryDocument)
  searchesUsed : ℕ
  readChars : ℕ

def Browse.start (snapshot : Snapshot) : Browse :=
  ⟨[.corpus snapshot.documents.length], [], [], 0, 0⟩

def Browse.giveUp (b : Browse) (why : GiveUp) : RetrievalOutcome :=
  retrievalNoSolution (b.readDocuments.map Prod.snd) why

def Browse.observe (b : Browse) (observation : Observation) : Browse :=
  { b with observations := b.observations ++ [observation] }

inductive Turn
  | done (outcome : RetrievalOutcome)
  | go (b : Browse)

def Browse.searched (b : Browse) (query : String) (hits : List MemorySearchResult) : Browse :=
  { b with
    searchesUsed := b.searchesUsed + 1
    discoveredIds := b.discoveredIds ++ hits.map MemorySearchResult.memoryId
    observations := b.observations ++
      [.searchResults query (maxSearchCalls - (b.searchesUsed + 1)) hits] }

def Browse.read (b : Browse) (reads : List MemoryReadResult)
    (documents : List MemoryDocument) : Browse :=
  let readDocuments := b.readDocuments ++ (reads.map MemoryReadResult.memoryId).zip documents
  { b with
    readChars := b.readChars + (reads.map fun read => read.markdown.length).sum
    readDocuments := readDocuments
    observations := b.observations ++
      [.readResults (maxReadDocuments - readDocuments.length) reads] }

def isValueError (e : PyExc) : Bool := e.cls = .value || e.cls = .retrieval

variable (snapshot : Snapshot) (corpus : MemoryRetrievalIndex)

def markdownMemory (read : MemoryReadResult) : MarkdownMemory := ⟨read.memoryId, read.markdown⟩

def readTurn (b : Browse) (requested : List String) : Except PyExc Turn :=
  let remainingDocuments : ℤ := maxReadDocuments - b.readDocuments.length
  let remainingChars : ℤ := maxTotalReadChars - b.readChars
  if requested.isEmpty then .ok (.go (b.observe .alreadyRead))
  else if ¬ requested ⊆ b.discoveredIds then .ok (.done (b.giveUp .undiscovered))
  else if remainingDocuments < requested.length ∨ remainingChars ≤ 0 then
    .ok (.done (b.giveUp .readBudget))
  else match corpus.read requested remainingDocuments remainingChars with
    | .error e => if isValueError e then .ok (.done (b.giveUp .readBudget)) else .error e
    | .ok reads => do
        let documents ← reads.mapM fun read => snapshot.document read.memoryId
        return .go (b.read reads documents)

def finishTurn (b : Browse) (choice : MemoryChoice) : Turn :=
  if choice.decision = .noSolution ∧ (b.searchesUsed = 0 ∨ b.readDocuments = []) then
    .go (b.observe .correction)
  else if choice.decision = .applyMemory ∧
      ∀ memoryId ∈ choice.memoryId, memoryId ∉ b.readDocuments.map Prod.fst then
    .done (b.giveUp .unread)
  else .done ⟨choice, b.readDocuments.map Prod.snd⟩

def browseTurn (failure : Fields) (b : Browse) : MemoryStep → Matching Turn
  | .search action =>
      if maxSearchCalls ≤ b.searchesUsed then return .done (b.giveUp .searchBudget)
      else do
        Prog.call (σ := matching) .thread
        let hits ← Prog.settle (σ := matching)
          (corpus.search action.query (some (failureRetrievalValues failure)) maxSearchResults)
        return .go (b.searched action.query hits)
  | .read action =>
      Prog.settle (σ := matching) (readTurn snapshot corpus b (action.memoryIds.filter fun memoryId =>
        memoryId ∉ b.readDocuments.map Prod.fst))
  | .finish choice => return finishTurn b choice
  | .unsupported => .raise (agentError "Retrieval agent returned an unsupported operation")

def browse (failure : Fields) : ℕ → Browse → Matching RetrievalOutcome
  | 0, b => return b.giveUp .turnBudget
  | turns + 1, b => do
      let step ← Prog.call (σ := matching) (.nextRetrievalTurn failure b.observations)
      match ← browseTurn snapshot corpus failure b step with
      | .done outcome => return outcome
      | .go b => browse failure turns b

def chooseAmongAll (failure : Fields) (memoryIds : List String) : Matching RetrievalOutcome := do
  let reads ← Prog.settle (σ := matching) (corpus.read memoryIds maxReadDocuments maxTotalReadChars)
  let choice ← Prog.call (σ := matching) (.chooseMemory failure (reads.map markdownMemory))
  let documents ← Prog.settle (σ := matching) (reads.mapM fun read => snapshot.document read.memoryId)
  return ⟨choice, documents⟩

/-- `MemoryRetrievalIndex` of the documents by their ids. -/
def corpusOf (snapshot : Snapshot) : Except PyExc MemoryRetrievalIndex :=
  memoryRetrievalIndex (snapshot.documents.map fun document => (document.resolutionId, document))
    maxIndexDocuments maxIndexChars

def retrieveMemoryChoice (failure : Fields) : Matching RetrievalOutcome := do
  Prog.call (σ := matching) .thread
  let corpus ← Prog.settle (σ := matching) (corpusOf snapshot)
  let autoRead ← Prog.settle (σ := matching)
    (corpus.autoReadEligibility maxReadDocuments maxTotalReadChars)
  if autoRead.eligible && !autoRead.memoryIds.isEmpty then
    chooseAmongAll snapshot corpus failure autoRead.memoryIds
  else browse snapshot corpus failure maxRetrievalTurns (Browse.start snapshot)

end Browsing

end FailureResolver.MemoryBrowsing
