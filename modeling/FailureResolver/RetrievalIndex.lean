import FailureResolver.MemoryMarkdown

/-!
Retrieval over a snapshot of memories. Every execution candidate is indexed once,
with its four search fields and the text the model may read; searches rank all of
them, reads return exact ids within hard bounds. How characters fold and which make up
words is left open; the instance folds what folds to ASCII and takes every character
beyond Latin-1 that is no blank as part of a word.
-/

namespace FailureResolver.RetrievalIndex

open FencedText JsonText JsonValue MemoryMarkdown PyException PyText ResolutionMemory

section Bounds

def maxSearchCalls : ℕ := 4

def maxSearchResults : ℤ := 8

def maxReadDocuments : ℤ := 4

def maxTotalReadChars : ℤ := 300000

def maxMemoryReadChars : ℤ := 200000

def maxIndexDocuments : ℤ := 2000

def maxIndexChars : ℤ := 64000000

def maxQueryChars : ℕ := 500

def maxSearchHints : ℕ := 16

def maxHintChars : ℕ := 500

def maxSnippetChars : ℕ := 800

def hintExactBoost : ℕ := 50

def hintTokenBoost : ℕ := 8

def phraseMultiplier : ℕ := 3

def maxTermFrequency : ℕ := 4

/-- The errors of retrieval; budget errors and unknown ids are refinements. -/
def retrievalError {α : Type} (message : String) : Except PyExc α := .error ⟨.retrieval, message⟩

/-- `json.dumps(value, allow_nan=False)` of a value without a text. -/
def notFinite : PyExc := ⟨.value, "Out of range float values are not JSON compliant"⟩

end Bounds

section Text

/-- `text.split()`. -/
def words (text : List Char) : List (List Char) :=
  (text.splitOnP isSpace).filter fun word => !word.isEmpty

def spaced (parts : List (List Char)) : List Char := [' '].intercalate parts

def spaceOut (c : Char) : Char := if c = '_' ∨ c = '-' then ' ' else c

/-- `[^\W_]`. -/
def isWordChar (c : Char) : Bool :=
  let n := c.toNat
  c.isAlphanum || n ∈ [0xaa, 0xb2, 0xb3, 0xb5, 0xb9, 0xba, 0xbc, 0xbd, 0xbe] ||
    (0xc0 ≤ n && n ≠ 0xd7 && n ≠ 0xf7 && !isSpace c)

/-- How characters fold and which make up words. Folding keeps blanks and makes at most
three characters of one. -/
class Characters where
  fold : Char → List Char
  isWord : Char → Bool
  fold_blank : ∀ c, isSpace c = true → fold c = [c]
  length_fold_le : ∀ c, (fold c).length ≤ 3

def blanks : List ℕ :=
  [9, 10, 11, 12, 13, 28, 29, 30, 31, 32, 0x85, 0xa0, 0x1680, 0x2000, 0x2001, 0x2002, 0x2003,
    0x2004, 0x2005, 0x2006, 0x2007, 0x2008, 0x2009, 0x200a, 0x2028, 0x2029, 0x202f, 0x205f, 0x3000]

theorem toNat_mem_blanks {c : Char} (hc : isSpace c = true) : c.toNat ∈ blanks := by
  simp only [isSpace, Bool.or_eq_true, Bool.and_eq_true, decide_eq_true_eq] at hc
  simp only [blanks, List.mem_cons, List.not_mem_nil, or_false]
  omega

theorem casefoldChar_blank {c : Char} (hc : isSpace c = true) : casefoldChar c = [c] := by
  have hblanks : ∀ n ∈ blanks, casefoldChar (Char.ofNat n) = [Char.ofNat n] := by decide +kernel
  rw [← Char.ofNat_toNat c]
  exact hblanks c.toNat (toNat_mem_blanks hc)

theorem length_casefoldChar_le (c : Char) : (casefoldChar c).length ≤ 3 := by
  unfold casefoldChar foldLigature
  split
  · next s hs =>
    split at hs <;> cases hs <;> decide
  · simp

/-- The characters as far as they fold to ASCII. -/
instance Characters.basic : Characters where
  fold := casefoldChar
  isWord := isWordChar
  fold_blank := fun _ => casefoldChar_blank
  length_fold_le := length_casefoldChar_le

def folded [Characters] (text : List Char) : List Char := text.flatMap Characters.fold

def normalizeText [Characters] (text : List Char) : List Char :=
  spaced (words ((folded text).map spaceOut))

/-- `_TOKEN_PATTERN.findall(text)`. -/
def tokens [Characters] (text : List Char) : List (List Char) :=
  (text.splitOnP fun c => !Characters.isWord c).filter fun token => !token.isEmpty

/-- `text.find(needle)` from a position on. -/
def findFrom (needle : List Char) (position : ℕ) : List Char → Option ℕ
  | [] => if needle.isEmpty then some position else none
  | c :: rest =>
      if needle.isPrefixOf (c :: rest) then some position
      else findFrom needle (position + 1) rest

def find (text needle : List Char) : Option ℕ := findFrom needle 0 text

def jsonText (value : Json) : List Char := print compactStyle 0 value.sortKeys

end Text

section Documents

inductive FieldName
  | retrievalSignature
  | frontmatter
  | generalizedProse
  | episodeEvidence
  deriving DecidableEq

def FieldName.text : FieldName → String
  | .retrievalSignature => "retrieval_signature"
  | .frontmatter => "frontmatter"
  | .generalizedProse => "generalized_prose"
  | .episodeEvidence => "episode_evidence"

/-- `_FIELD_WEIGHTS`. -/
def FieldName.weight : FieldName → ℕ
  | .retrievalSignature => 12
  | .frontmatter => 8
  | .generalizedProse => 6
  | .episodeEvidence => 4

/-- A field with its normalized text; the terms are counted where they are looked up. -/
structure SearchField where
  name : FieldName
  text : List Char
  normalized : List Char
  terms : List (List Char)

def searchField [Characters] (name : FieldName) (text : List Char) : SearchField :=
  ⟨name, text, normalizeText text, tokens (normalizeText text)⟩

structure IndexedMemory where
  memoryId : String
  markdown : List Char
  metadata : Fields
  fields : List SearchField

def proseBoundaries : List String :=
  ["retrieval signature", "episode evidence", "dispatched actions"]

def isProseBoundary [Characters] (line : List Char) : Bool :=
  ['#', '#', ' '].isPrefixOf line && 3 < line.length &&
    String.ofList (folded (stripChars (line.drop 3))) ∈ proseBoundaries

/-- The lines before the first boundary; the last line is not terminated. -/
def proseLines [Characters] : List (List Char) → List Char
  | [] => []
  | [last] => last
  | line :: rest => if isProseBoundary line then [] else line ++ '\n' :: proseLines rest

def generalizedProse [Characters] (body : List Char) : List Char :=
  stripChars (proseLines (splitOnChar '\n' body))

def objectOf : Option Fields → Json
  | some members => .obj members
  | none => .obj []

def metadataOf (document : MemoryDocument) : Fields :=
  match Json.sortKeys (.obj document.frontmatter) with
  | .obj members => members
  | _ => []

def proseSection (prose : List Char) : List (List Char) :=
  if prose.isEmpty then [] else [[], "## Generalized Memory".toList, prose]

def jsonSection (heading : String) (value : Json) : List (List Char) :=
  [heading.toList, openingFence, indentedJson value, closingFence]

def retrievalMarkdown (metadata : Fields) (prose : List Char) (signature evidence : Json) :
    List Char :=
  joinLines (["# Recovery memory".toList, []] ++
    jsonSection "## Retrieval Metadata" (.obj metadata) ++ proseSection prose ++
    [[]] ++ jsonSection "## Retrieval Signature" signature ++
    [[]] ++ jsonSection "## Episode Evidence" evidence ++ [[]])

/-- `_index_document`. What is printed here was printed before, when the document
was measured. -/
def indexDocument [Characters] (document : MemoryDocument) : IndexedMemory :=
  let metadata := metadataOf document
  let signature := objectOf document.retrievalSignature
  let evidence := objectOf document.episodeEvidence
  let prose := generalizedProse document.body
  { memoryId := document.resolutionId
    markdown := retrievalMarkdown metadata prose signature evidence
    metadata := metadata
    fields :=
      [searchField .retrievalSignature (jsonText signature),
        searchField .frontmatter (jsonText (.obj metadata)),
        searchField .generalizedProse prose,
        searchField .episodeEvidence (jsonText evidence)] }

def jsonChars (value : Json) : Except PyExc ℕ :=
  match dumps compactStyle value.sortKeys with
  | some text => .ok text.length
  | none => .error notFinite

def documentIndexChars (document : MemoryDocument) : Except PyExc ℕ := do
  let frontmatter ← jsonChars (.obj document.frontmatter)
  let signature ← jsonChars (objectOf document.retrievalSignature)
  let evidence ← jsonChars (objectOf document.episodeEvidence)
  return document.body.length + frontmatter + signature + evidence

end Documents

section Index

/-- The candidates taken in so far, and how many characters they index. -/
structure Intake where
  documents : List MemoryDocument
  indexedChars : ℕ
  distinct : (documents.map MemoryDocument.resolutionId).Nodup

def Intake.empty : Intake := ⟨[], 0, List.nodup_nil⟩

theorem Intake.nodup_concat (intake : Intake) {document : MemoryDocument}
    (h : document.resolutionId ∉ intake.documents.map MemoryDocument.resolutionId) :
    ((intake.documents ++ [document]).map MemoryDocument.resolutionId).Nodup := by
  rw [List.map_append, List.nodup_append]
  refine ⟨intake.distinct, by simp, ?_⟩
  intro a ha b hb
  rw [List.map_singleton, List.mem_singleton] at hb
  subst hb
  intro heq
  subst heq
  exact h ha

def addDocument (maxChars : ℤ) (intake : Intake) (supplied : String × MemoryDocument) :
    Except PyExc Intake :=
  let document := supplied.2
  if supplied.1 ≠ document.resolutionId then
    retrievalError "retrieval mapping key must match resolution_id"
  else if h : document.resolutionId ∈ intake.documents.map MemoryDocument.resolutionId then
    retrievalError "retrieval memory IDs must be unique"
  else if document.isExecutionCandidate then do
    let chars ← documentIndexChars document
    if maxChars < (intake.indexedChars + chars : ℕ) then
      retrievalError "memory index exceeds the character budget"
    else return ⟨intake.documents ++ [document], intake.indexedChars + chars,
      intake.nodup_concat h⟩
  else return intake

structure MemoryRetrievalIndex where
  entries : List IndexedMemory
  ordered : entries.Pairwise fun entry later => entry.memoryId < later.memoryId

def idLe (document later : MemoryDocument) : Prop := document.resolutionId ≤ later.resolutionId

instance : DecidableRel idLe := fun document later =>
  inferInstanceAs (Decidable (document.resolutionId ≤ later.resolutionId))

instance : Std.Total idLe := ⟨fun document later =>
  le_total document.resolutionId later.resolutionId⟩

instance : IsTrans MemoryDocument idLe := ⟨fun _ _ _ hab hbc => le_trans (α := String) hab hbc⟩

theorem Intake.sorted [Characters] (intake : Intake) :
    ((intake.documents.insertionSort idLe).map indexDocument).Pairwise
      fun entry later => entry.memoryId < later.memoryId := by
  have hsorted := List.pairwise_insertionSort idLe intake.documents
  have hnodup : ((intake.documents.insertionSort idLe).map MemoryDocument.resolutionId).Nodup :=
    ((List.perm_insertionSort idLe intake.documents).map _).nodup_iff.mpr intake.distinct
  rw [List.pairwise_map]
  unfold List.Nodup at hnodup
  rw [List.pairwise_map] at hnodup
  exact hsorted.imp₂ (fun document later hle hne => lt_of_le_of_ne hle hne) hnodup

def Intake.index [Characters] (intake : Intake) : MemoryRetrievalIndex :=
  ⟨(intake.documents.insertionSort idLe).map indexDocument, intake.sorted⟩

def rejectBudget (value maximum : ℤ) (message : String) : Except PyExc ℤ :=
  if value < 1 ∨ maximum < value then retrievalError message else .ok value

def validatedIndexDocumentBudget (value : ℤ) : Except PyExc ℤ :=
  rejectBudget value maxIndexDocuments "memory index document budget exceeds the hard limit"

def validatedIndexCharacterBudget (value : ℤ) : Except PyExc ℤ :=
  rejectBudget value maxIndexChars "memory index character budget exceeds the hard limit"

def memoryRetrievalIndex [Characters] (supplied : List (String × MemoryDocument))
    (maxDocuments maxChars : ℤ) : Except PyExc MemoryRetrievalIndex := do
  let documentBudget ← validatedIndexDocumentBudget maxDocuments
  let characterBudget ← validatedIndexCharacterBudget maxChars
  if documentBudget < supplied.length then
    retrievalError "memory index exceeds the document budget"
  else do
    let intake ← supplied.foldlM (addDocument characterBudget) Intake.empty
    return intake.index

def MemoryRetrievalIndex.memoryIds (index : MemoryRetrievalIndex) : List String :=
  index.entries.map IndexedMemory.memoryId

end Index

section Read

structure MemoryReadResult where
  memoryId : String
  markdown : List Char
  charCount : ℕ
  metadata : Fields

structure AutoReadEligibility where
  eligible : Bool
  memoryIds : List String
  totalChars : ℕ
  reason : String

def validatedDocumentBudget (value : ℤ) : Except PyExc ℤ :=
  rejectBudget value maxReadDocuments "read document budget must be between 1 and 4"

def validatedCharacterBudget (value : ℤ) : Except PyExc ℤ :=
  rejectBudget value maxTotalReadChars "read character budget exceeds the hard limit"

/-- One requested id more; ids are compared without surrounding blanks. -/
def addMemoryId (requested : List String) (memoryId : String) : Except PyExc (List String) :=
  if strip memoryId = "" then retrievalError "memory IDs must be non-empty text"
  else if strip memoryId ∈ requested then retrievalError "memory IDs must not be duplicated"
  else .ok (requested ++ [strip memoryId])

def validatedMemoryIds (memoryIds : List String) : Except PyExc (List String) :=
  memoryIds.foldlM addMemoryId []

def MemoryRetrievalIndex.find? (index : MemoryRetrievalIndex) (memoryId : String) :
    Option IndexedMemory :=
  index.entries.find? fun entry => entry.memoryId = memoryId

def IndexedMemory.readResult (entry : IndexedMemory) : MemoryReadResult :=
  ⟨entry.memoryId, entry.markdown, entry.markdown.length, entry.metadata⟩

/-- Take out the entries in order, each within the limits. -/
def readEntries (characterBudget : ℤ) (totalChars : ℕ) :
    List IndexedMemory → Except PyExc (List MemoryReadResult)
  | [] => .ok []
  | entry :: rest =>
      if maxMemoryReadChars < entry.markdown.length then
        retrievalError ("retrieval memory " ++ entry.memoryId ++ " exceeds the per-memory limit")
      else if characterBudget < (totalChars + entry.markdown.length : ℕ) then
        retrievalError "memory read exceeds the combined character budget"
      else do
        let results ← readEntries characterBudget (totalChars + entry.markdown.length) rest
        return entry.readResult :: results

/-- The entries of the requested ids; an unknown id is an error. -/
def MemoryRetrievalIndex.requestedEntries (index : MemoryRetrievalIndex) :
    List String → Except PyExc (List IndexedMemory)
  | [] => .ok []
  | memoryId :: rest =>
      match index.find? memoryId with
      | none => retrievalError ("unknown retrieval memory ID: " ++ memoryId)
      | some entry => do
          let entries ← index.requestedEntries rest
          return entry :: entries

def MemoryRetrievalIndex.read (index : MemoryRetrievalIndex) (memoryIds : List String)
    (maxDocuments maxTotalChars : ℤ) : Except PyExc (List MemoryReadResult) := do
  let requested ← validatedMemoryIds memoryIds
  let documentBudget ← validatedDocumentBudget maxDocuments
  let characterBudget ← validatedCharacterBudget maxTotalChars
  if documentBudget < requested.length then
    retrievalError "memory read exceeds the document budget"
  else do
    let entries ← index.requestedEntries requested
    readEntries characterBudget 0 entries

def MemoryRetrievalIndex.totalChars (index : MemoryRetrievalIndex) : ℕ :=
  (index.entries.map fun entry => entry.markdown.length).sum

def MemoryRetrievalIndex.autoReadEligibility (index : MemoryRetrievalIndex)
    (maxDocuments maxTotalChars : ℤ) : Except PyExc AutoReadEligibility := do
  let documentBudget ← validatedDocumentBudget maxDocuments
  let characterBudget ← validatedCharacterBudget maxTotalChars
  if documentBudget < index.memoryIds.length then
    return ⟨false, [], index.totalChars, "too_many_documents"⟩
  else if index.entries.any (fun entry => maxMemoryReadChars < entry.markdown.length) ||
      characterBudget < index.totalChars then
    return ⟨false, [], index.totalChars, "content_too_large"⟩
  else return ⟨true, index.memoryIds, index.totalChars, "eligible"⟩

end Read

section Search

structure MemorySearchResult where
  memoryId : String
  score : ℕ
  matchedFields : List String
  snippet : List Char
  metadata : Fields

structure Query where
  normalized : List Char
  terms : List (List Char)

def validatedQuery [Characters] (query : String) : Except PyExc Query :=
  let stripped := stripChars query.toList
  if stripped.isEmpty then retrievalError "retrieval query cannot be empty"
  else if maxQueryChars < stripped.length then
    retrievalError "retrieval query exceeds the length limit"
  else if Char.ofNat 0 ∈ stripped then retrievalError "retrieval query contains invalid text"
  else .ok ⟨normalizeText stripped, (tokens (normalizeText stripped)).eraseDups⟩

structure Hint where
  key : String
  expected : List Char
  terms : List (List Char)

def isBlankHint : Json → Bool
  | .null => true
  | .str s => strip s = ""
  | _ => false

def addHint [Characters] (normalized : List Hint) (hint : String × Json) :
    Except PyExc (List Hint) :=
  if strip hint.1 = "" then retrievalError "retrieval hint names must be text"
  else if isBlankHint hint.2 then .ok normalized
  else match dumps compactStyle hint.2.sortKeys with
    | none => .error notFinite
    | some text =>
        if maxHintChars < text.length then
          retrievalError "retrieval hint exceeds the length limit"
        else .ok (normalized ++
          [⟨strip hint.1, normalizeText text, (tokens (normalizeText text)).eraseDups⟩])

def validatedHints [Characters] : Option Fields → Except PyExc (List Hint)
  | none => .ok []
  | some hints =>
      if maxSearchHints < hints.length then retrievalError "too many retrieval hints"
      else (hints.insertionSort keyLe).foldlM addHint []

def validatedLimit (limit : ℤ) : Except PyExc ℤ :=
  rejectBudget limit maxSearchResults "retrieval result limit must be between 1 and 8"

def fieldScore (query : Query) (field : SearchField) : ℕ :=
  (query.terms.map fun term =>
      field.name.weight * min (field.terms.count term) maxTermFrequency).sum +
    if !query.normalized.isEmpty && query.normalized <:+: field.normalized then
      field.name.weight * phraseMultiplier
    else 0

/-- The normalized text of a metadata value; of keys that fold together the last. -/
def normalizedMetadata [Characters] (metadata : Fields) (key : String) : List Char :=
  match metadata.reverse.find? fun member => folded member.1.toList = folded key.toList with
  | some member => normalizeText (jsonText member.2)
  | none => []

def scoreHint [Characters] (metadata : Fields) (hint : Hint) : ℕ :=
  let actual := normalizedMetadata metadata hint.key
  if actual.isEmpty then 0
  else if hint.expected = actual then hintExactBoost
  else hintTokenBoost * (hint.terms.filter fun term => term ∈ tokens actual).length

def hintScore [Characters] (metadata : Fields) (hints : List Hint) : ℕ :=
  (hints.map (scoreHint metadata)).sum

structure Ranked where
  entry : IndexedMemory
  fieldScores : List ℕ
  total : ℕ

def rankEntry [Characters] (query : Query) (hints : List Hint) (entry : IndexedMemory) : Ranked :=
  let fieldScores := entry.fields.map (fieldScore query)
  ⟨entry, fieldScores, fieldScores.sum + hintScore entry.metadata hints⟩

/-- Higher scores first; ties in the order of the ids. -/
def rankLe (ranked later : Ranked) : Prop :=
  later.total < ranked.total ∨
    ranked.total = later.total ∧ ranked.entry.memoryId ≤ later.entry.memoryId

instance : DecidableRel rankLe := fun ranked later =>
  inferInstanceAs (Decidable (later.total < ranked.total ∨
    ranked.total = later.total ∧ ranked.entry.memoryId ≤ later.entry.memoryId))

def scoreGe (field later : SearchField × ℕ) : Prop := later.2 ≤ field.2

instance : DecidableRel scoreGe := fun field later =>
  inferInstanceAs (Decidable (later.2 ≤ field.2))

/-- Where the query stands in the normalized text, or else its first term there. -/
def matchOffset (query : Query) (normalized : List Char) : ℕ :=
  match if query.normalized.isEmpty then none else find normalized query.normalized with
  | some offset => offset
  | none => (query.terms.filterMap (find normalized)).min?.getD 0

def ellipsis (cut : Bool) : List Char := if cut then [Char.ofNat 0x2026] else []

def snippetWindow (text : List Char) (offset : ℕ) : List Char :=
  let before := offset - maxSnippetChars / 3
  let stop := min text.length (before + maxSnippetChars)
  let start := if stop - before < maxSnippetChars then stop - maxSnippetChars else before
  ellipsis (0 < start) ++ ((text.take stop).drop start ++ ellipsis (stop < text.length))

/-- `_best_snippet`: of the best field, the first one where scores tie. -/
def bestSnippet [Characters] (entry : IndexedMemory) (fieldScores : List ℕ) (query : Query) :
    List Char :=
  match (entry.fields.zip fieldScores).insertionSort scoreGe with
  | [] => []
  | (field, _) :: _ =>
      let text := spaced (words field.text)
      if text.isEmpty then []
      else field.name.text.toList ++ ':' :: ' ' ::
        snippetWindow text (matchOffset query (normalizeText text))

def matchedFields (entry : IndexedMemory) (fieldScores : List ℕ) : List String :=
  ((entry.fields.zip fieldScores).filter fun field => 0 < field.2).map fun field =>
    field.1.name.text

def Ranked.searchResult [Characters] (query : Query) (ranked : Ranked) : MemorySearchResult where
  memoryId := ranked.entry.memoryId
  score := ranked.total
  matchedFields := matchedFields ranked.entry ranked.fieldScores
  snippet := bestSnippet ranked.entry ranked.fieldScores query
  metadata := ranked.entry.metadata

def MemoryRetrievalIndex.search [Characters] (index : MemoryRetrievalIndex) (query : String)
    (hints : Option Fields) (limit : ℤ) : Except PyExc (List MemorySearchResult) := do
  let query ← validatedQuery query
  let hints ← validatedHints hints
  let resultLimit ← validatedLimit limit
  let ranked := (index.entries.map (rankEntry query hints)).insertionSort rankLe
  return (ranked.take resultLimit.toNat).map (Ranked.searchResult query)

end Search

end FailureResolver.RetrievalIndex
