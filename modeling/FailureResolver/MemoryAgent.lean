import FailureResolver.EpisodeEvidence
import FailureResolver.RowText

/-!
What goes to the model and comes back. Memories and observations are checked
against the bounds of the prompt before the model is called; what the model answers
is a choice or one browsing step, whose constraints the types carry.
-/

namespace FailureResolver.MemoryAgent

open BinaryFloat EpisodeEvidence JsonText JsonValue PrintableText PyException PyText RowText

section Inputs

def maxMemoryIdLength : ℕ := 200

def maxMemoryMarkdownLength : ℕ := 192000

def maxMemoryCandidates : ℕ := 50

def maxRetrievalObservationsLength : ℕ := 320000

def maxMemoryInputLength : ℕ := 512000

def maxRetrievalInputLength : ℕ := 512000

structure MarkdownMemory where
  memoryId : String
  markdown : List Char
  deriving DecidableEq

def boundedPrintable (memoryId : String) : Bool :=
  memoryId ≠ "" && memoryId = strip memoryId && memoryId.length ≤ maxMemoryIdLength &&
    memoryId.toList.all isPrintable

/-- One candidate more; `prepared` are the candidates already accepted. -/
def prepareMemory (prepared : List MarkdownMemory) (memory : MarkdownMemory) :
    Except PyExc (List MarkdownMemory) :=
  if boundedPrintable memory.memoryId = false then
    refuse "memory_id must be non-empty, bounded printable text"
  else if memory.memoryId ∈ prepared.map MarkdownMemory.memoryId then
    refuse "memory IDs must be unique"
  else if maxMemoryMarkdownLength < memory.markdown.length then
    refuse "memory markdown exceeds the bounded limit"
  else .ok (prepared ++ [memory])

def prepareMemories (memories : List MarkdownMemory) : Except PyExc (List MarkdownMemory) :=
  if memories.isEmpty then refuse "at least one memory candidate is required"
  else if maxMemoryCandidates < memories.length then
    refuse "no more than 50 memory candidates are allowed"
  else memories.foldlM prepareMemory []

def prepareRetrievalObservations (observations : List Fields) : Except PyExc (List Json) :=
  match dumps compactStyle (Json.sortKeys (.arr (observations.map Json.obj))) with
  | none => refuse "retrieval observations must contain JSON values"
  | some serialized =>
      if maxRetrievalObservationsLength < serialized.length then
        refuse "retrieval observations exceed the bounded limit"
      else match loads serialized with
        | some (.arr parsed) =>
            if parsed.all isMapping then .ok parsed
            else refuse "retrieval observations are invalid"
        | _ => refuse "retrieval observations are invalid"

def failureModelContext (failure : Fields) : Except PyExc Json := sanitizeEpisodeRecord failure

def memoryFields (memory : MarkdownMemory) : Fields :=
  [("memory_id", .str memory.memoryId), ("markdown", .str (String.ofList memory.markdown))]

/-- The input of the model, within its bound. The sanitizer leaves no number without
a text but integers of too many digits. -/
def boundedInput (maxLength : ℕ) (message : String) (payload : Fields) :
    Except PyExc (List Char) :=
  match dumps compactStyle (Json.sortKeys (.obj payload)) with
  | none => refuse "Exceeds the limit (4300 digits) for integer string conversion"
  | some text => if maxLength < text.length then refuse message else .ok text

def chooseMemoryInput (failure : Fields) (memories : List MarkdownMemory) :
    Except PyExc (List Char) := do
  let prepared ← prepareMemories memories
  let context ← failureModelContext failure
  boundedInput maxMemoryInputLength "combined failure and memory input exceeds the bounded limit"
    [("task", .str "choose_memory"), ("untrusted_failure_data", context),
      ("untrusted_markdown_memories", .arr (prepared.map fun memory => .obj (memoryFields memory)))]

/-- What `next_memory_retrieval_turn` sends to the model. -/
def nextTurnInput (failure : Fields) (observations : List Fields) : Except PyExc (List Char) := do
  let prepared ← prepareRetrievalObservations observations
  let context ← failureModelContext failure
  boundedInput maxRetrievalInputLength "retrieval input exceeds the bounded limit"
    [("task", .str "retrieve_memory"), ("untrusted_failure_data", context),
      ("untrusted_retrieval_observations", .arr prepared)]

end Inputs

section Answers

def maxReasonLength : ℕ := 500

def maxSearchQueryLength : ℕ := 500

def maxReadIds : ℕ := 4

inductive Decision
  | noSolution
  | applyMemory
  deriving DecidableEq

def Confidence : Binary64 → Prop
  | .finite x => 0 ≤ x.value ∧ x.value ≤ 1
  | _ => False

structure MemoryChoice where
  decision : Decision
  memoryId : Option String
  confidence : Binary64
  reason : String
  boundedId : ∀ memoryId' ∈ memoryId, memoryId'.length ≤ maxMemoryIdLength
  unit : Confidence confidence
  boundedReason : Trimmed reason ∧ reason.length ≤ maxReasonLength
  matchesId : decision = .noSolution ↔ memoryId = none

structure MemorySearchAction where
  query : String
  bounded : Trimmed query ∧ query.length ≤ maxSearchQueryLength

structure MemoryReadAction where
  memoryIds : List String
  bounded : memoryIds ≠ [] ∧ memoryIds.length ≤ maxReadIds
  printable : memoryIds.all boundedPrintable = true
  unique : memoryIds.Nodup

/-- One browsing step; an answer of another type is not supported. -/
inductive MemoryStep
  | search (action : MemorySearchAction)
  | read (action : MemoryReadAction)
  | finish (choice : MemoryChoice)
  | unsupported

end Answers

section Bounds

variable {memories prepared : List MarkdownMemory} {observations : List Fields}

def Acceptable (memory : MarkdownMemory) : Prop :=
  boundedPrintable memory.memoryId = true ∧ memory.markdown.length ≤ maxMemoryMarkdownLength

theorem prepareMemory_eq_ok {memory : MarkdownMemory} {prepared' : List MarkdownMemory} :
    prepareMemory prepared memory = .ok prepared' ↔ Acceptable memory ∧
      memory.memoryId ∉ prepared.map MarkdownMemory.memoryId ∧ prepared' = prepared ++ [memory] := by
  unfold prepareMemory Acceptable
  rw [refuse_ite_eq_ok, refuse_ite_eq_ok, refuse_ite_eq_ok, Bool.not_eq_false, not_lt,
    Except.ok.injEq]
  constructor
  · rintro ⟨hid, hfresh, hlength, hprepared⟩
    exact ⟨⟨hid, hlength⟩, hfresh, hprepared.symm⟩
  · rintro ⟨⟨hid, hlength⟩, hfresh, hprepared⟩
    exact ⟨hid, hfresh, hlength, hprepared.symm⟩

theorem foldlM_prepareMemory
    (hnodup : ((prepared ++ memories).map MarkdownMemory.memoryId).Nodup) :
    (∃ result, memories.foldlM prepareMemory prepared = .ok result) ↔
      ∀ memory ∈ memories, Acceptable memory := by
  induction memories generalizing prepared with
  | nil => simp [pure, Except.pure]
  | cons memory rest ih =>
    have hfresh : memory.memoryId ∉ prepared.map MarkdownMemory.memoryId := by
      intro hmem
      rw [List.map_append, List.nodup_append] at hnodup
      exact hnodup.2.2 _ hmem _ (List.mem_cons_self ..) rfl
    have hnext : (((prepared ++ [memory]) ++ rest).map MarkdownMemory.memoryId).Nodup := by
      rwa [List.append_assoc]
    rw [List.forall_mem_cons, ← ih hnext]
    constructor
    · intro h
      obtain ⟨result, hresult⟩ := h
      rw [List.foldlM_cons, bind_eq_ok] at hresult
      obtain ⟨prepared', hprepare, hrest⟩ := hresult
      obtain ⟨hacceptable, -, rfl⟩ := prepareMemory_eq_ok.mp hprepare
      exact ⟨hacceptable, result, hrest⟩
    · intro h
      obtain ⟨hacceptable, result, hrest⟩ := h
      refine ⟨result, ?_⟩
      rw [List.foldlM_cons, bind_eq_ok]
      exact ⟨_, prepareMemory_eq_ok.mpr ⟨hacceptable, hfresh, rfl⟩, hrest⟩

/-- What is accepted is what was given. -/
theorem foldlM_prepareMemory_eq {result : List MarkdownMemory}
    (h : memories.foldlM prepareMemory prepared = .ok result) : result = prepared ++ memories := by
  induction memories generalizing prepared with
  | nil =>
    cases h
    rw [List.append_nil]
  | cons memory rest ih =>
    rw [List.foldlM_cons, bind_eq_ok] at h
    obtain ⟨prepared', hprepare, hrest⟩ := h
    obtain ⟨-, -, rfl⟩ := prepareMemory_eq_ok.mp hprepare
    rw [ih hrest, List.append_assoc, List.singleton_append]

theorem prepareMemories_eq (h : prepareMemories memories = .ok prepared) : prepared = memories := by
  unfold prepareMemories at h
  rw [refuse_ite_eq_ok, refuse_ite_eq_ok] at h
  obtain ⟨-, -, h⟩ := h
  exact (foldlM_prepareMemory_eq h).trans (List.nil_append memories)

/-- Few candidates with distinct ids are accepted exactly if each of them is. -/
theorem prepareMemories_ok_iff (hne : memories ≠ []) (hlength : memories.length ≤ maxMemoryCandidates)
    (hnodup : (memories.map MarkdownMemory.memoryId).Nodup) :
    (∃ prepared, prepareMemories memories = .ok prepared) ↔
      ∀ memory ∈ memories, Acceptable memory := by
  have hempty : ¬ memories.isEmpty = true := by simpa using hne
  unfold prepareMemories
  rw [if_neg hempty, if_neg (by omega)]
  exact foldlM_prepareMemory (by simpa using hnodup)

end Bounds

end FailureResolver.MemoryAgent
