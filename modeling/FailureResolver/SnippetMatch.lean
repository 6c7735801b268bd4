import FailureResolver.CollapsedText
import FailureResolver.RetrievalIndex

/-!
The window a search result shows of its best field. The place of the query is
looked up in the normalized text and the window is cut out of the text itself, so
the query is in it exactly as long as normalization moves the beginnings of the text
by no more than the window leaves. Of the case folding only this is used: it folds
one character at a time and leaves blanks alone.
-/

namespace FailureResolver.SnippetMatch

open CollapsedText JsonValue MemoryMarkdown PyException PyText RetrievalIndex

section Window

/-- The field a snippet is taken from: of the best score, the first one where scores tie. -/
def bestField (entry : IndexedMemory) (fieldScores : List ℕ) : Option SearchField :=
  ((entry.fields.zip fieldScores).insertionSort scoreGe).head?.map Prod.fst

def flatText (field : SearchField) : List Char := spaced (words field.text)

/-- A third of a window before the offset, unless the text ends before the window does. -/
def windowStart (text : List Char) (offset : ℕ) : ℕ :=
  min (offset - maxSnippetChars / 3) (text.length - maxSnippetChars)

def shownWindow [Characters] (field : SearchField) (query : Query) : List Char :=
  let text := flatText field
  (text.drop (windowStart text (matchOffset query (normalizeText text)))).take maxSnippetChars

/-- The window with the name of its field and the marks of what is cut off. -/
def framedWindow [Characters] (field : SearchField) (query : Query) : List Char :=
  let text := flatText field
  let start := windowStart text (matchOffset query (normalizeText text))
  if text.isEmpty then []
  else field.name.text.toList ++ ':' :: ' ' ::
    (ellipsis (0 < start) ++ (shownWindow field query ++
      ellipsis (start + maxSnippetChars < text.length)))

/-- The snippet is the window of the field, at most 800 characters of its text, with
the query in its normalized form. -/
structure ShowsMatch [Characters] (field : SearchField) (query : Query) (snippet : List Char) :
    Prop where
  framed : snippet = framedWindow field query
  taken : shownWindow field query <:+: flatText field
  bounded : (shownWindow field query).length ≤ maxSnippetChars
  found : query.normalized <:+: normalizeText (shownWindow field query)

/-- A window that runs over the end of the text is moved back to it. -/
theorem snippetWindow_eq (text : List Char) (offset : ℕ) :
    snippetWindow text offset = ellipsis (0 < windowStart text offset) ++
      ((text.drop (windowStart text offset)).take maxSnippetChars ++
        ellipsis (windowStart text offset + maxSnippetChars < text.length)) := by
  have hpositive : 0 < maxSnippetChars := by decide
  unfold snippetWindow
  dsimp only
  by_cases hend : offset - maxSnippetChars / 3 + maxSnippetChars ≤ text.length
  · have hstart : windowStart text offset = offset - maxSnippetChars / 3 := by
      unfold windowStart
      omega
    have hstop : min text.length (offset - maxSnippetChars / 3 + maxSnippetChars) =
        offset - maxSnippetChars / 3 + maxSnippetChars := by omega
    rw [hstop, hstart, if_neg (by omega), List.drop_take, Nat.add_sub_cancel_left]
  · have hstart : windowStart text offset = text.length - maxSnippetChars := by
      unfold windowStart
      omega
    have hstop : min text.length (offset - maxSnippetChars / 3 + maxSnippetChars) =
        text.length := by omega
    rw [hstop, hstart, if_pos (by omega), List.take_length, List.take_of_length_le
      (by rw [List.length_drop]; omega)]
    have hcut : decide (text.length < text.length) =
        decide (text.length - maxSnippetChars + maxSnippetChars < text.length) := by
      apply decide_eq_decide.mpr
      omega
    rw [hcut]

theorem bestSnippet_eq [Characters] {entry : IndexedMemory} {fieldScores : List ℕ}
    {field : SearchField} (query : Query) (h : bestField entry fieldScores = some field) :
    bestSnippet entry fieldScores query = framedWindow field query := by
  unfold bestField at h
  unfold bestSnippet
  cases hsorted : (entry.fields.zip fieldScores).insertionSort scoreGe with
  | nil =>
    rw [hsorted] at h
    cases h
  | cons first rest =>
    rw [hsorted] at h
    cases h
    show (if (flatText first.1).isEmpty then []
      else first.1.name.text.toList ++ ':' :: ' ' ::
        snippetWindow (flatText first.1)
          (matchOffset query (normalizeText (flatText first.1)))) = _
    rw [snippetWindow_eq]
    rfl

end Window

section Normalization

def normalizeChar [Characters] (c : Char) : List Char := (Characters.fold c).map spaceOut

theorem normalizeText_eq [Characters] (text : List Char) :
    normalizeText text = collapse isSpace ' ' (text.flatMap normalizeChar) := by
  unfold normalizeText folded normalizeChar
  rw [List.map_flatMap]
  rfl

theorem keepsBlanks_normalizeChar [Characters] : KeepsBlanks isSpace normalizeChar := by
  intro c hc
  have hkept : spaceOut c = c := by
    apply if_neg
    rintro (rfl | rfl) <;> exact absurd hc (by decide)
  refine ⟨c, hc, ?_⟩
  rw [normalizeChar, Characters.fold_blank c hc, List.map_singleton, hkept]

/-- Collapsing the blanks of a field first leaves its normalized text as it is. -/
theorem normalizeText_flatText [Characters] (field : SearchField) :
    normalizeText (flatText field) = normalizeText field.text := by
  rw [normalizeText_eq, normalizeText_eq]
  exact collapse_flatMap_collapse keepsBlanks_normalizeChar (by decide) field.text

theorem normalizeText_head [Characters] (text : List Char) :
    (normalizeText text).head? ≠ some ' ' := by
  intro h
  rw [normalizeText_eq] at h
  exact absurd (collapse_head _ ' ' h) (by decide)

/-- How long the first characters of a text are once they are normalized. -/
def place [Characters] (text : List Char) (count : ℕ) : ℕ :=
  (normalizeText (text.take count)).length

/-- What stands in a window of a text stands in the normalized text between the
places of its two ends. -/
theorem infix_window [Characters] {needle text : List Char} {start count : ℕ}
    (hneedle : needle.head? ≠ some ' ') :
    needle <:+: normalizeText ((text.drop start).take count) ↔
      ∃ i, needle <+: (normalizeText text).drop i ∧ place text start ≤ i ∧
        i + needle.length ≤ place text (start + count) := by
  have hfront : text.take start ++ (text.drop start).take count = text.take (start + count) :=
    List.take_add.symm
  have hwhole : text.take start ++ (text.drop start).take count ++ (text.drop start).drop count =
      text := by
    rw [List.append_assoc, List.take_append_drop, List.take_append_drop]
  have hsegment := infix_segment isSpace ((text.take start).flatMap normalizeChar)
    (((text.drop start).take count).flatMap normalizeChar)
    (((text.drop start).drop count).flatMap normalizeChar) hneedle
  rw [← List.flatMap_append, ← List.flatMap_append, hwhole, hfront] at hsegment
  unfold place
  rw [normalizeText_eq, normalizeText_eq, normalizeText_eq, normalizeText_eq]
  exact hsegment

end Normalization

section Matching

variable {needle text : List Char} {raw : String} {query : Query} {field : SearchField}

/-- A needle that stands in a text is found, at a place where it stands. -/
theorem exists_findFrom (position : ℕ) (h : needle <:+: text) :
    ∃ i, findFrom needle position text = some (position + i) ∧ needle <+: text.drop i ∧
      i + needle.length ≤ text.length := by
  induction text generalizing position with
  | nil =>
    rw [List.infix_nil.mp h]
    exact ⟨0, rfl, List.prefix_rfl, le_rfl⟩
  | cons c rest ih =>
    by_cases hprefix : needle.isPrefixOf (c :: rest) = true
    · have hhere := List.isPrefixOf_iff_prefix.mp hprefix
      refine ⟨0, ?_, hhere, ?_⟩
      · rw [findFrom, if_pos hprefix, Nat.add_zero]
      · rw [Nat.zero_add]
        exact hhere.length_le
    · have hrest : needle <:+: rest := by
        rcases List.infix_cons_iff.mp h with hhere | hlater
        · exact absurd (List.isPrefixOf_iff_prefix.mpr hhere) hprefix
        · exact hlater
      obtain ⟨i, hfound, hstands, hinside⟩ := ih (position + 1) hrest
      refine ⟨i + 1, ?_, hstands, ?_⟩
      · rw [findFrom, if_neg hprefix, hfound]
        congr 1
        omega
      · rw [List.length_cons]
        omega

def firstPlace (needle text : List Char) : ℕ := (find text needle).getD 0

theorem firstPlace_stands (h : needle <:+: text) :
    find text needle = some (firstPlace needle text) ∧
      needle <+: text.drop (firstPlace needle text) ∧
        firstPlace needle text + needle.length ≤ text.length := by
  obtain ⟨i, hfound, hstands, hinside⟩ := exists_findFrom 0 h
  have hplace : firstPlace needle text = i := by
    unfold firstPlace find
    rw [hfound, Nat.zero_add]
    rfl
  rw [hplace, find, hfound, Nat.zero_add]
  exact ⟨rfl, hstands, hinside⟩

theorem validatedQuery_eq_ok [Characters] (h : validatedQuery raw = .ok query) :
    ∃ stripped, query = ⟨normalizeText stripped, (tokens (normalizeText stripped)).eraseDups⟩ := by
  unfold validatedQuery at h
  dsimp only at h
  split_ifs at h
  · cases h
  · cases h
  · cases h
  · exact ⟨_, (Except.ok.inj h).symm⟩

/-- A valid query that stands in a text is looked up there; one that normalizes to
nothing has no terms either, and stands at the start. -/
theorem matchOffset_eq [Characters] (hquery : validatedQuery raw = .ok query)
    (hoccurs : query.normalized <:+: text) :
    matchOffset query text = firstPlace query.normalized text := by
  obtain ⟨hfind, -⟩ := firstPlace_stands hoccurs
  obtain ⟨stripped, rfl⟩ := validatedQuery_eq_ok hquery
  unfold matchOffset
  by_cases hempty : normalizeText stripped = []
  · simp only [hempty] at hfind ⊢
    have hstart : firstPlace [] text = 0 := by
      unfold firstPlace find
      cases text <;> rfl
    rw [hstart]
    rfl
  · simp only at hfind ⊢
    rw [if_neg (by simpa using hempty), hfind]

/-- Some place of the query comes from the characters of the window: no more than it
comes from those before the window, and at least its end from those up to the window's. -/
def InStep [Characters] (query text : List Char) : Prop :=
  let start := windowStart text (firstPlace query (normalizeText text))
  ∃ i, query <+: (normalizeText text).drop i ∧ place text start ≤ i ∧
    i + query.length ≤ place text (start + maxSnippetChars)

theorem normalized_of_mem [Characters] {document : MemoryDocument}
    (h : field ∈ (indexDocument document).fields) :
    field.normalized = normalizeText field.text := by
  simp only [indexDocument, List.mem_cons, List.not_mem_nil, or_false] at h
  rcases h with rfl | rfl | rfl | rfl <;> rfl

theorem bestField_mem {entry : IndexedMemory} {fieldScores : List ℕ}
    (h : bestField entry fieldScores = some field) : field ∈ entry.fields := by
  unfold bestField at h
  obtain ⟨scored, hhead, rfl⟩ := Option.map_eq_some_iff.mp h
  have hmem := (List.mem_insertionSort scoreGe).mp (List.mem_of_mem_head? hhead)
  exact (List.of_mem_zip hmem).1

/-- The window around the place of a query in a text shows the query if and only if
normalization has not moved the two out of step. -/
theorem shownWindow_found_iff [Characters] (hquery : validatedQuery raw = .ok query)
    (hoccurs : query.normalized <:+: normalizeText (flatText field)) :
    query.normalized <:+: normalizeText (shownWindow field query) ↔
      InStep query.normalized (flatText field) := by
  have hhead : query.normalized.head? ≠ some ' ' := by
    obtain ⟨stripped, rfl⟩ := validatedQuery_eq_ok hquery
    exact normalizeText_head stripped
  unfold shownWindow InStep
  dsimp only
  rw [matchOffset_eq hquery hoccurs, infix_window hhead]

/-- The snippet of the best field shows a query that stands in the field if and only
if normalization has not moved the field out of step with its text. -/
theorem snippet_shows_iff [Characters] {document : MemoryDocument} {fieldScores : List ℕ}
    (hquery : validatedQuery raw = .ok query)
    (hbest : bestField (indexDocument document) fieldScores = some field)
    (hoccurs : query.normalized <:+: field.normalized) :
    ShowsMatch field query (bestSnippet (indexDocument document) fieldScores query) ↔
      InStep query.normalized (flatText field) := by
  rw [normalized_of_mem (bestField_mem hbest), ← normalizeText_flatText] at hoccurs
  rw [← shownWindow_found_iff hquery hoccurs]
  constructor
  · intro h
    exact h.found
  · intro hfound
    refine ⟨bestSnippet_eq query hbest, ?_, ?_, hfound⟩
    · exact (List.take_prefix _ _).isInfix.trans (List.drop_suffix _ _).isInfix
    · exact List.length_take_le _ _

/-- Up to the end of a text all of it is normalized. -/
theorem place_whole [Characters] {count : ℕ} (h : text.length ≤ count) :
    place text count = (normalizeText text).length := by
  unfold place
  rw [List.take_of_length_le h]

/-- A text that fits into a window is shown as a whole. -/
theorem inStep_of_short [Characters] (hshort : text.length ≤ maxSnippetChars)
    (h : needle <:+: normalizeText text) : InStep needle text := by
  obtain ⟨-, hstands, hinside⟩ := firstPlace_stands h
  have hstart : windowStart text (firstPlace needle (normalizeText text)) = 0 := by
    unfold windowStart
    omega
  unfold InStep
  dsimp only
  rw [hstart, Nat.zero_add, place_whole hshort]
  refine ⟨firstPlace needle (normalizeText text), hstands, ?_, hinside⟩
  exact Nat.zero_le _

/-- A text whose beginnings keep their length stays in step with every query that fits
into what is left of a window behind its first third. -/
theorem inStep_of_steady [Characters] (hsteady : ∀ count ≤ text.length, place text count = count)
    (hneedle : needle.length ≤ maxSnippetChars - maxSnippetChars / 3)
    (h : needle <:+: normalizeText text) : InStep needle text := by
  obtain ⟨-, hstands, hinside⟩ := firstPlace_stands h
  have hlength : (normalizeText text).length = text.length := by
    rw [← place_whole le_rfl, hsteady _ le_rfl]
  have hlimit : maxSnippetChars = 800 := rfl
  have hstart : windowStart text (firstPlace needle (normalizeText text)) ≤
      firstPlace needle (normalizeText text) := by
    unfold windowStart
    omega
  refine ⟨firstPlace needle (normalizeText text), hstands, ?_, ?_⟩
  · rw [hsteady _ (by omega)]
    exact hstart
  · by_cases hend : windowStart text (firstPlace needle (normalizeText text)) + maxSnippetChars ≤
        text.length
    · rw [hsteady _ hend]
      unfold windowStart at hend ⊢
      omega
    · rw [place_whole (by omega)]
      exact hinside

end Matching

section Samples

deriving instance DecidableEq for SearchField

def sampleProse : List Char := List.replicate 800 '-' ++ "\nThe gripper is closed.".toList

def sampleDocument : MemoryDocument where
  frontmatter := [("resolution_id", .str "11111111-1111-1111-1111-111111111111"),
    ("memory_kind", .str "positive"), ("actionable", .bool true), ("outcome", .str "resolved"),
    ("applied", .bool true)]
  dispatchedActions := [.obj [("command", .str "open_door")]]
  body := sampleProse
  episodeEvidence := none
  retrievalSignature := none

def sampleQuery : Query := ⟨"gripper".toList, ["gripper".toList]⟩

def sampleField : SearchField := searchField .generalizedProse sampleProse

def sampleScores : List ℕ := (indexDocument sampleDocument).fields.map (fieldScore sampleQuery)

theorem sample_query : validatedQuery "gripper" = .ok sampleQuery := by
  rfl

theorem sample_best : bestField (indexDocument sampleDocument) sampleScores = some sampleField := by
  decide +kernel

theorem sample_occurs : sampleQuery.normalized <:+: sampleField.normalized := by
  decide +kernel

/-- The rule is normalized away, and the window shows nothing else. -/
theorem sample_hidden :
    ¬ sampleQuery.normalized <:+: normalizeText (shownWindow sampleField sampleQuery) := by
  decide +kernel

/-- Not every indexed document shows a query that stands in its best field. -/
theorem match_hidden : ¬ ∀ (document : MemoryDocument) (raw : String) (query : Query)
    (field : SearchField), document.isExecutionCandidate = true →
      validatedQuery raw = .ok query →
      bestField (indexDocument document)
        ((indexDocument document).fields.map (fieldScore query)) = some field →
      query.normalized <:+: field.normalized →
      ShowsMatch field query (bestSnippet (indexDocument document)
        ((indexDocument document).fields.map (fieldScore query)) query) := by
  intro h
  have hshows := h sampleDocument "gripper" sampleQuery sampleField (by decide) sample_query
    sample_best sample_occurs
  exact sample_hidden hshows.found

theorem snippet_shows_sample :
    ShowsMatch sampleField sampleQuery
        (bestSnippet (indexDocument sampleDocument) sampleScores sampleQuery) ↔
      InStep sampleQuery.normalized (flatText sampleField) :=
  snippet_shows_iff sample_query sample_best sample_occurs

end Samples

end FailureResolver.SnippetMatch
