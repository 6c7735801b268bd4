import FailureResolver.CollapsedText
import FailureResolver.HiddenActions
import FailureResolver.PromptBudgets

/-!
The text of a suggestion, taken back from the body of a memory. The body quotes the
recovery line by line; unquoting the lines behind its heading gives the words of the
recovery, whatever marks, blank lines or line boundaries stand in it.
-/

namespace FailureResolver.SuggestedFix

open CollapsedText FencedText HiddenActions JsonValue MemoryFrontmatter MemoryMarkdown MemorySections
open PromptBudgets PyException PyText ResolutionMemory RetrievalIndex

section Source

def maxSuggestionTextLength : ℕ := 2000

def recoveryHeading : List Char := "## Recovery Knowledge".toList

def recoveryMarker : List Char := '\n' :: (recoveryHeading ++ ['\n'])

def nextHeading : List Char := ['\n', '#', '#', ' ']

/-- `text.split(word, 1)[0]`. -/
def beforeWord (word text : List Char) : List Char :=
  match splitAtWord word text with
  | some parts => parts.1
  | none => text

/-- A line without its quote mark; a blank line without one is dropped. -/
def unquoteLine (line : List Char) : Option (List Char) :=
  if line = ['>'] then some []
  else if ['>', ' '].isPrefixOf line then some (line.drop 2)
  else if (stripChars line).isEmpty then none
  else some (stripChars line)

def sectionText (text : List Char) : List Char :=
  spaced (words (spaced ((splitLines (stripChars text)).filterMap unquoteLine)))

def orElse (value other : Json) : Json := if truthy value then value else other

/-- `str(action.get("title") or action.get("command") or "").strip()`. -/
def actionTitle (strOf : Json → String) (action : Json) : List Char :=
  let title := orElse (Json.get action "title") (orElse (Json.get action "command") (.str ""))
  stripChars (match title with
    | .str s => s.toList
    | value => (strOf value).toList)

def titles (strOf : Json → String) (document : MemoryDocument) : List (List Char) :=
  (document.dispatchedActions.map (actionTitle strOf)).filter fun title => !title.isEmpty

/-- The titles of the actions, or a sentence where there is none. -/
def fallbackText (strOf : Json → String) (document : MemoryDocument) : List Char :=
  let fallback := ([' ', Char.ofNat 0x2192, ' '].intercalate (titles strOf document)).take
    maxSuggestionTextLength
  if fallback.isEmpty then "Apply the selected stored recovery actions.".toList else fallback

def suggestedFixText (strOf : Json → String) (document : MemoryDocument) : List Char :=
  match splitAtWord recoveryMarker document.body with
  | some parts =>
      let text := sectionText (beforeWord nextHeading parts.2)
      if text.isEmpty then fallbackText strOf document else text.take maxSuggestionTextLength
  | none => fallbackText strOf document

end Source

section Words

variable {text other : List Char} {c : Char}

theorem words_append_cons (text other : List Char) (hc : isSpace c = true) :
    words (text ++ c :: other) = words text ++ words other :=
  pieces_append_cons text other hc

theorem words_cons_space (text : List Char) (hc : isSpace c = true) :
    words (c :: text) = words text :=
  pieces_cons_blank text hc

theorem words_append_blanks (text : List Char) {blanks : List Char}
    (h : ∀ c ∈ blanks, isSpace c = true) : words (text ++ blanks) = words text := by
  have hblanks : ∀ blanks : List Char, (∀ c ∈ blanks, isSpace c = true) → words blanks = [] := by
    intro blanks hblanks
    induction blanks with
    | nil => rfl
    | cons d rest ih =>
      obtain ⟨hd, hrest⟩ := List.forall_mem_cons.mp hblanks
      rw [words_cons_space rest hd, ih hrest]
  cases blanks with
  | nil => rw [List.append_nil]
  | cons d rest =>
    obtain ⟨hd, hrest⟩ := List.forall_mem_cons.mp h
    rw [words_append_cons text rest hd, hblanks rest hrest, List.append_nil]

/-- The words of a text are those of its lines. -/
theorem words_splitLinesFrom (line text : List Char) :
    words (line.reverse ++ text) = (splitLinesFrom line text).flatMap words := by
  induction line, text using splitLinesFrom.induct with
  | case1 line hempty =>
    rw [splitLinesFrom, if_pos hempty, List.isEmpty_iff.mp hempty]
    rfl
  | case2 line hempty =>
    rw [splitLinesFrom, if_neg hempty, List.append_nil, List.flatMap_singleton]
  | case3 line rest ih =>
    rw [splitLinesFrom, List.flatMap_cons, ← ih, words_append_cons _ _ (by decide)]
    exact congrArg (words line.reverse ++ ·) (words_cons_space rest (by decide))
  | case4 line c rest hcr hbreak ih =>
    rw [splitLinesFrom, if_pos hbreak]
    · rw [List.flatMap_cons, ← ih, words_append_cons _ _ (isSpace_of_isLineBreak hbreak)]
      rfl
    · exact hcr
  | case5 line c rest hcr hbreak ih =>
    rw [splitLinesFrom, if_neg hbreak]
    · rw [← ih, List.reverse_cons, List.append_assoc]
      rfl
    · exact hcr

theorem words_splitLines (text : List Char) : (splitLines text).flatMap words = words text :=
  (words_splitLinesFrom [] text).symm

/-- Joining with blanks runs no words together. -/
theorem words_spaced (parts : List (List Char)) : words (spaced parts) = parts.flatMap words := by
  unfold spaced
  induction parts with
  | nil => rfl
  | cons part rest ih =>
    cases rest with
    | nil => rw [List.intercalate_singleton, List.flatMap_singleton]
    | cons next more =>
      rw [List.intercalate_cons_cons, List.append_assoc, List.flatMap_cons, ← ih]
      exact words_append_cons part _ (by decide)

theorem words_ne_nil (hmem : c ∈ text) (hc : isSpace c = false) : words text ≠ [] := by
  induction text with
  | nil => cases hmem
  | cons d rest ih =>
    by_cases hd : isSpace d = true
    · rw [words_cons_space rest hd]
      apply ih
      rcases List.mem_cons.mp hmem with rfl | hrest
      · rw [hc] at hd
        exact absurd hd Bool.false_ne_true
      · exact hrest
    · unfold words
      rw [List.splitOnP_cons_eq_if_modifyHead, if_neg hd]
      cases hparts : rest.splitOnP isSpace with
      | nil => exact absurd hparts (List.splitOnP_ne_nil isSpace rest)
      | cons part parts => simp

theorem spaced_words_nonempty (h : words text ≠ []) : (spaced (words text)).isEmpty = false := by
  obtain ⟨word, rest, hwords⟩ := List.exists_cons_of_ne_nil h
  have hword : word ∈ words text := by
    rw [hwords]
    exact List.mem_cons_self
  unfold words at hword
  have hne := (List.mem_filter.mp hword).2
  rw [hwords]
  unfold spaced
  cases word with
  | nil => cases hne
  | cons c more =>
    cases rest with
    | nil => rw [List.intercalate_singleton, List.isEmpty_cons]
    | cons next later =>
      rw [List.intercalate_cons_cons]
      rfl

/-- A stripped text that is not empty has a word. -/
theorem words_stripChars_ne_nil (h : stripChars text ≠ []) : words (stripChars text) ≠ [] := by
  obtain ⟨c, rest, hstripped⟩ := List.exists_cons_of_ne_nil h
  have hinner : stripChars (text.dropWhile isSpace) = stripChars text := by
    unfold stripChars
    rw [dropWhile_of_head (dropWhile_head? isSpace text)]
  obtain ⟨blanks, happend, -⟩ := stripChars_append (dropWhile_head? isSpace text)
  rw [hinner, hstripped] at happend
  have hc : isSpace c = false := by
    apply dropWhile_head? isSpace text
    rw [happend]
    rfl
  rw [hstripped]
  exact words_ne_nil List.mem_cons_self hc

end Words

section Quoted

variable {text other : List Char}

def rstripChars (text : List Char) : List Char := (text.reverse.dropWhile isSpace).reverse

theorem rstripChars_append (text : List Char) {c : Char} (hmem : c ∈ other)
    (hc : isSpace c = false) : rstripChars (text ++ other) = text ++ rstripChars other := by
  have hkept : (other.reverse.dropWhile isSpace).isEmpty = false := by
    rw [Bool.eq_false_iff]
    intro hempty
    have hall := List.dropWhile_eq_nil_iff.mp (List.isEmpty_iff.mp hempty) c
      (List.mem_reverse.mpr hmem)
    rw [hc] at hall
    exact Bool.false_ne_true hall
  unfold rstripChars
  rw [List.reverse_append, List.dropWhile_append, hkept, if_neg Bool.false_ne_true,
    List.reverse_append, List.reverse_reverse]

theorem rstripChars_blanks (text : List Char) {blanks : List Char}
    (h : ∀ c ∈ blanks, isSpace c = true) : rstripChars (text ++ blanks) = rstripChars text := by
  unfold rstripChars
  rw [List.reverse_append, List.dropWhile_append_of_pos fun c hc => h c (List.mem_reverse.mp hc)]

theorem rstripChars_spec (text : List Char) :
    ∃ blanks, text = rstripChars text ++ blanks ∧ ∀ c ∈ blanks, isSpace c = true := by
  refine ⟨(text.reverse.takeWhile isSpace).reverse, ?_, fun c hc => ?_⟩
  · unfold rstripChars
    rw [← List.reverse_append, List.takeWhile_append_dropWhile, List.reverse_reverse]
  · exact List.all_eq_true.mp List.all_takeWhile c (List.mem_reverse.mp hc)

theorem unquoteLine_quoteLine (line : List Char) : unquoteLine (quoteLine line) = some line := by
  unfold quoteLine
  cases line with
  | nil => rfl
  | cons c rest =>
    unfold unquoteLine
    rw [if_neg (by simp), if_pos (by simp)]
    rfl

/-- Cut at its end, a quoted line gives the same words. -/
theorem unquoteLine_rstrip (line : List Char) : ∃ part,
    unquoteLine (rstripChars (quoteLine line)) = some part ∧ words part = words line := by
  by_cases hink : ∃ c ∈ line, isSpace c = false
  · obtain ⟨c, hmem, hc⟩ := hink
    obtain ⟨blanks, hline, hblanks⟩ := rstripChars_spec line
    have hquoted : quoteLine line = ['>', ' '] ++ line := by
      unfold quoteLine
      rw [if_neg]
      · rfl
      · intro hempty
        rw [List.isEmpty_iff.mp hempty] at hmem
        cases hmem
    refine ⟨rstripChars line, ?_, ?_⟩
    · rw [hquoted, rstripChars_append _ hmem hc]
      unfold unquoteLine
      rw [if_neg (by simp), if_pos (by simp)]
      rfl
    · conv_rhs => rw [hline, words_append_blanks _ hblanks]
  · have hblank : ∀ c ∈ line, isSpace c = true := by
      intro c hc
      by_contra hother
      exact hink ⟨c, hc, by simpa using hother⟩
    have hquoted : rstripChars (quoteLine line) = ['>'] := by
      unfold quoteLine
      split
      · rfl
      · exact rstripChars_blanks ['>'] (List.forall_mem_cons.mpr ⟨by decide, hblank⟩)
    refine ⟨[], ?_, (words_append_blanks [] hblank).symm⟩
    rw [hquoted]
    rfl

theorem joinLines_concat (lines : List (List Char)) (line : List Char) :
    joinLines (lines ++ [line]) = unlines lines ++ line := by
  unfold joinLines
  induction lines with
  | nil => simp [unlines]
  | cons first rest ih =>
    rw [List.cons_append, List.intercalate_cons_of_ne_nil (by simp), ih]
    simp [unlines]

theorem quoteLine_starts (line : List Char) : ∃ rest, quoteLine line = '>' :: rest := by
  unfold quoteLine
  split
  · exact ⟨[], rfl⟩
  · exact ⟨' ' :: line, rfl⟩

theorem filterMap_quoted (lines : List (List Char)) :
    (lines.map quoteLine).filterMap unquoteLine = lines := by
  rw [List.filterMap_map]
  have hsame : unquoteLine ∘ quoteLine = some := funext unquoteLine_quoteLine
  rw [hsame, List.filterMap_some]

theorem blockquote_starts (h : text ≠ []) : ∃ rest, blockquote text = '>' :: rest := by
  obtain ⟨line, lines, hlines⟩ :=
    List.exists_cons_of_ne_nil (splitLinesFrom_ne_nil [] text (.inr h))
  obtain ⟨rest, hrest⟩ := quoteLine_starts line
  unfold blockquote splitLines joinLines
  rw [hlines, List.map_cons, hrest]
  cases lines with
  | nil => exact ⟨rest, List.intercalate_singleton⟩
  | cons next more =>
    rw [List.map_cons, List.intercalate_cons_cons]
    exact ⟨_, rfl⟩

/-- Unquoting a quoted text gives its words, one blank apart. -/
theorem sectionText_blockquote (h : text ≠ []) :
    sectionText (blockquote text ++ ['\n']) = spaced (words text) := by
  obtain ⟨lines, last, hlines⟩ : ∃ lines last, splitLines text = lines ++ [last] := by
    have hne : splitLines text ≠ [] := splitLinesFrom_ne_nil [] text (.inr h)
    exact ⟨_, _, (List.dropLast_concat_getLast hne).symm⟩
  have hbreak : ∀ line ∈ lines ++ [last], ∀ c ∈ line, isLineBreak c = false := by
    rw [← hlines]
    exact splitLines_no_break text
  obtain ⟨tail, htail⟩ := quoteLine_starts last
  have hmark : '>' ∈ quoteLine last := by
    rw [htail]
    exact List.mem_cons_self
  obtain ⟨blanks, hlast, hblanks⟩ := rstripChars_spec (quoteLine last)
  -- the stripped section: only the last line may be shorter
  have hstripped : stripChars (blockquote text ++ ['\n']) =
      joinLines (lines.map quoteLine ++ [rstripChars (quoteLine last)]) := by
    have hquoted : blockquote text = unlines (lines.map quoteLine) ++ quoteLine last := by
      unfold blockquote
      rw [hlines, List.map_append, List.map_singleton, joinLines_concat]
    have hhead : ∀ c, (blockquote text ++ ['\n']).head? = some c → isSpace c = false := by
      obtain ⟨rest, hstart⟩ := blockquote_starts h
      rw [hstart]
      intro c hc
      cases hc
      decide
    show rstripChars ((blockquote text ++ ['\n']).dropWhile isSpace) = _
    rw [dropWhile_of_head hhead, rstripChars_blanks _ (by decide), hquoted,
      rstripChars_append _ hmark (by decide), joinLines_concat]
  have hsplit : splitLines (joinLines (lines.map quoteLine ++ [rstripChars (quoteLine last)])) =
      lines.map quoteLine ++ [rstripChars (quoteLine last)] := by
    apply splitLines_joinLines
    · intro line hline
      rcases List.mem_append.mp hline with hquoted | hcut
      · obtain ⟨source, -, rfl⟩ := List.mem_map.mp hquoted
        obtain ⟨rest, hrest⟩ := quoteLine_starts source
        rw [hrest]
        exact List.cons_ne_nil _ _
      · rw [List.mem_singleton.mp hcut]
        intro hempty
        rw [hempty, List.nil_append] at hlast
        rw [hlast] at hmark
        have hspace := hblanks '>' hmark
        revert hspace
        decide
    · intro line hline
      rcases List.mem_append.mp hline with hquoted | hcut
      · obtain ⟨source, hsource, rfl⟩ := List.mem_map.mp hquoted
        exact quoteLine_no_break (hbreak source (List.mem_append_left _ hsource))
      · rw [List.mem_singleton.mp hcut]
        intro c hc
        apply quoteLine_no_break (hbreak last (by simp)) c
        rw [hlast]
        exact List.mem_append_left _ hc
  obtain ⟨part, hpart, hwords⟩ := unquoteLine_rstrip last
  unfold sectionText
  rw [hstripped, hsplit, List.filterMap_append, filterMap_quoted, words_spaced,
    List.flatMap_append, ← words_splitLines text, hlines, List.flatMap_append]
  simp only [List.filterMap_cons, List.filterMap_nil, hpart, List.flatMap_cons, List.flatMap_nil,
    hwords]

end Quoted

section Split

variable {ok : Char → Prop} {heading : List Char}

/-- No occurrence of a word begins in a text whose lines do not start like it. -/
theorem splitAtWord_skip {d : Char} (tail : List Char) (hd : ¬ ok d) {text : List Char}
    (h : Guarded ok text) (rest : List Char) :
    splitAtWord ('\n' :: d :: tail) (text ++ rest) =
      (splitAtWord ('\n' :: d :: tail) rest).map fun parts => (text ++ parts.1, parts.2) := by
  induction text with
  | nil =>
    rw [List.nil_append]
    cases splitAtWord ('\n' :: d :: tail) rest <;> rfl
  | cons c more ih =>
    have hdrop : (c :: (more ++ rest)).dropPrefix? ('\n' :: d :: tail) = none := by
      cases hfound : (c :: (more ++ rest)).dropPrefix? ('\n' :: d :: tail) with
      | none => rfl
      | some found =>
        obtain ⟨start, heq, hstart⟩ := List.dropPrefix?_eq_some_iff.mp hfound
        rw [eq_of_beq hstart] at heq
        obtain ⟨hc, hrest⟩ := List.cons.inj heq
        obtain ⟨e, later, rfl, he⟩ := h.1 hc
        rw [(List.cons.inj hrest).1] at he
        exact absurd he hd
    rw [List.cons_append, splitAtWord, hdrop, ih h.2]
    cases splitAtWord ('\n' :: d :: tail) rest <;> rfl

/-- The heading is found behind blocks that cannot be taken for it. -/
theorem splitAtWord_heading {tail : List Char} (hheading : Plain ('#' :: tail))
    {before : List (List Char)} (hbefore : ∀ block ∈ before, Passes ('#' :: tail) block)
    (after : List (List Char)) : ∃ start,
      splitAtWord ('\n' :: '#' :: (tail ++ ['\n']))
        ('\n' :: unlines (before ++ ('#' :: tail) :: after)) = some (start, unlines after) := by
  induction before with
  | nil =>
    have htext : '\n' :: unlines (('#' :: tail) :: after) =
        '\n' :: '#' :: (tail ++ ['\n']) ++ unlines after := by simp [unlines]
    have hdrop := List.dropPrefix?_eq_some_iff.mpr
      ⟨'\n' :: '#' :: (tail ++ ['\n']), htext, beq_self_eq_true _⟩
    refine ⟨[], ?_⟩
    rw [List.nil_append, splitAtWord, hdrop]
  | cons block blocks ih =>
    obtain ⟨hblock, hblocks⟩ := List.forall_mem_cons.mp hbefore
    obtain ⟨start, hfound⟩ := ih hblocks
    have htext : '\n' :: unlines (block :: blocks ++ ('#' :: tail) :: after) =
        '\n' :: (block ++ '\n' :: unlines (blocks ++ ('#' :: tail) :: after)) := by simp [unlines]
    have hdrop : ('\n' :: (block ++ '\n' :: unlines (blocks ++ ('#' :: tail) :: after))).dropPrefix?
        ('\n' :: '#' :: (tail ++ ['\n'])) = none := by
      cases hcase : ('\n' :: (block ++ '\n' :: unlines (blocks ++ ('#' :: tail) :: after))).dropPrefix?
          ('\n' :: '#' :: (tail ++ ['\n'])) with
      | none => rfl
      | some found =>
        obtain ⟨taken, heq, htaken⟩ := List.dropPrefix?_eq_some_iff.mp hcase
        rw [eq_of_beq htaken] at heq
        have hline := (List.cons.inj heq).2
        rcases hblock.2 with hopens | ⟨hplain, hne⟩
        · cases block with
          | nil => cases hline
          | cons c more => exact absurd (List.cons.inj hline).1 (hopens c rfl)
        · have hsame : block ++ '\n' :: unlines (blocks ++ ('#' :: tail) :: after) =
              ('#' :: tail) ++ '\n' :: found := by
            rw [hline]
            simp
          exact absurd (line_eq_of_append hplain hheading hsame) hne
    have hskip := @splitAtWord_skip Unmarked '#' (tail ++ ['\n']) (by decide) block hblock.1
      ('\n' :: unlines (blocks ++ ('#' :: tail) :: after))
    refine ⟨'\n' :: (block ++ start), ?_⟩
    rw [htext, splitAtWord, hdrop]
    dsimp only
    rw [hskip, hfound]
    rfl

theorem splitAtWord_recovery {before : List (List Char)}
    (hbefore : ∀ block ∈ before, Passes recoveryHeading block) (after : List (List Char)) :
    ∃ start, splitAtWord recoveryMarker ('\n' :: unlines (before ++ recoveryHeading :: after)) =
      some (start, unlines after) := by
  have hplain : Plain recoveryHeading := by decide
  have hstart : recoveryHeading = '#' :: recoveryHeading.tail := by decide
  unfold recoveryMarker
  rw [hstart] at hbefore hplain ⊢
  exact splitAtWord_heading hplain hbefore after

/-- A quoted text ends at the next heading. -/
theorem beforeWord_blockquote {text : List Char} (h : text ≠ []) (rest : List Char) :
    beforeWord nextHeading (blockquote text ++ '\n' :: '\n' :: '#' :: '#' :: ' ' :: rest) =
      blockquote text ++ ['\n'] := by
  have hskip := @splitAtWord_skip Unmarked '#' ['#', ' '] (by decide) (blockquote text)
    (lined_blockquote h).guarded ('\n' :: '\n' :: '#' :: '#' :: ' ' :: rest)
  have hfound : splitAtWord ['\n', '#', '#', ' '] ('\n' :: '\n' :: '#' :: '#' :: ' ' :: rest) =
      some (['\n'], rest) := by simp [splitAtWord, List.dropPrefix?]
  unfold beforeWord nextHeading
  rw [hskip, hfound]
  rfl

end Split

section Document

variable {strOf : Json → String} {draft : DraftFields} {document : MemoryDocument}

/-- The body of a memory around the heading of its recovery. -/
theorem bodyBlocks_recovery (strOf : Json → String) (draft : DraftFields) :
    ∃ more, bodyBlocks strOf draft =
      [title draft, [], "## Failure Pattern".toList, blockquote draft.failureSummary.toList, []] ++
        recoveryHeading :: blockquote draft.recoverySummary.toList :: [] ::
          ('#' :: '#' :: ' ' :: "Lessons".toList) :: more := by
  have hlessons : "## Lessons".toList = '#' :: '#' :: ' ' :: "Lessons".toList := by decide
  refine ⟨lessonsText draft.lessons :: [] :: "## Context".toList :: (contextLines strOf draft ++
    [[]] ++ signatureSection draft ++ [[]] ++ evidenceSection draft ++ [[]] ++
    actionsSection draft), ?_⟩
  unfold bodyBlocks proseBlocks
  rw [hlessons]
  unfold recoveryHeading
  simp only [List.append_assoc, List.cons_append, List.nil_append]

theorem suggestedFixText_renderedBody (strOf' : Json → String) (hgenuine : draft.source.Genuine)
    (hbody : document.body = renderedBody strOf draft)
    (hsummary : words draft.recoverySummary.toList ≠ []) :
    suggestedFixText strOf' document =
      (spaced (words draft.recoverySummary.toList)).take maxSuggestionTextLength := by
  obtain ⟨more, hblocks⟩ := bodyBlocks_recovery strOf draft
  have hne : draft.recoverySummary.toList ≠ [] := by
    intro hempty
    rw [hempty] at hsummary
    exact hsummary rfl
  have hpasses : ∀ block ∈ [title draft, [], "## Failure Pattern".toList,
      blockquote draft.failureSummary.toList, []], Passes recoveryHeading block := by
    have htitle : title draft ≠ recoveryHeading := by
      intro heq
      have hsecond : recoveryHeading.tail.head? = some '#' := by decide
      rw [← heq] at hsecond
      cases hsecond
    intro block hblock
    simp only [List.mem_cons, List.not_mem_nil, or_false] at hblock
    rcases hblock with rfl | rfl | rfl | rfl | rfl
    · exact passes_plain (plain_title hgenuine) htitle
    · exact passes_nil
    · exact passes_plain (by decide) (by decide)
    · exact passes_blockquote _
    · exact passes_nil
  obtain ⟨start, hfound⟩ := splitAtWord_recovery hpasses
    (blockquote draft.recoverySummary.toList :: [] ::
      ('#' :: '#' :: ' ' :: "Lessons".toList) :: more)
  have hsection : unlines (blockquote draft.recoverySummary.toList :: [] ::
      ('#' :: '#' :: ' ' :: "Lessons".toList) :: more) =
        blockquote draft.recoverySummary.toList ++
          '\n' :: '\n' :: '#' :: '#' :: ' ' :: ("Lessons".toList ++ '\n' :: unlines more) := by
    unfold unlines
    simp only [List.flatMap_cons, List.append_assoc, List.cons_append, List.nil_append]
  have hnonempty := spaced_words_nonempty hsummary
  unfold suggestedFixText
  rw [hbody, renderedBody, hblocks, hfound]
  dsimp only
  rw [hsection, beforeWord_blockquote hne, sectionText_blockquote hne, hnonempty,
    if_neg Bool.false_ne_true]

/-- The constructor keeps the stripped summary, and refuses a blank one. -/
theorem postInit_recoverySummary {given draft : DraftFields} (h : postInit given = .ok draft) :
    words draft.recoverySummary.toList ≠ [] := by
  unfold postInit at h
  obtain ⟨failureSummary, -, h⟩ := bind_eq_ok.mp h
  obtain ⟨recoverySummary, hrecovery, h⟩ := bind_eq_ok.mp h
  obtain ⟨model, -, h⟩ := bind_eq_ok.mp h
  obtain ⟨responseId, -, h⟩ := bind_eq_ok.mp h
  obtain ⟨lessons, -, h⟩ := bind_eq_ok.mp h
  obtain ⟨signature, -, h⟩ := bind_eq_ok.mp h
  rw [rejectMemory_ite_eq_ok, rejectMemory_ite_eq_ok, rejectMemory_ite_eq_ok] at h
  obtain ⟨-, -, -, h⟩ := h
  cases h
  unfold requiredDraftText at hrecovery
  rw [rejectMemory_ite_eq_ok, not_or] at hrecovery
  obtain ⟨⟨hblank, -⟩, hstrip⟩ := hrecovery
  cases hstrip
  show words (strip given.recoverySummary).toList ≠ []
  unfold strip at hblank ⊢
  rw [String.toList_ofList]
  apply words_stripChars_ne_nil
  intro hempty
  rw [hempty] at hblank
  exact hblank rfl

/-- The suggestion shows the recovery of the memory: its words one blank apart, up to the
length of a suggestion. -/
theorem suggested_fix_is_recovery (strOf strOf' : Json → String) (given : DraftFields)
    (draft : MemoryDraft) (hgiven : postInit given = .ok draft.toDraftFields)
    (document : MemoryDocument)
    (hparse : parseMemoryDocument (renderMemory strOf draft.toDraftFields) = .ok document) :
    suggestedFixText strOf' document =
      (spaced (words draft.recoverySummary.toList)).take maxSuggestionTextLength := by
  have hparts := splitDocument_renderMemory strOf draft.toDraftFields
  rw [← universalNewlines_renderMemory strOf draft.genuine] at hparts
  obtain ⟨hbody, -⟩ := parseMemoryDocument_parts hparts hparse
  exact suggestedFixText_renderedBody strOf' draft.genuine hbody (postInit_recoverySummary hgiven)

end Document

section Sample

/-- A recovery whose lines look like a heading and like a quote. -/
def quotingDraft (source : ResolutionSource) : DraftFields :=
  { draftBy source "gpt-5.6-luna" with recoverySummary := "## Open\n\n>  the door." }

theorem prepared_quoting {source : ResolutionSource} (hfits : sampleFits source = true) :
    (quotingDraft source).Prepared :=
  ⟨fun signature hsignature => (by cases hsignature), fun _ => ⟨rfl, sampleFits_actionable hfits⟩⟩

theorem postInit_quoting {source : ResolutionSource} (hfits : sampleFits source = true) :
    postInit (quotingDraft source) = .ok (quotingDraft source) := by
  obtain ⟨hkind, hactions, hresolved⟩ := (prepared_quoting hfits).actionable rfl
  have htexts : requiredDraftText "The door stayed closed." "failure_summary" =
        .ok "The door stayed closed." ∧
      requiredDraftText "## Open\n\n>  the door." "recovery_summary" =
        .ok "## Open\n\n>  the door." ∧
      requiredDraftText "gpt-5.6-luna" "model" = .ok "gpt-5.6-luna" := by decide
  obtain ⟨hfailure, hrecovery, hmodel⟩ := htexts
  unfold postInit
  refine bind_eq_ok.mpr ⟨_, hfailure, bind_eq_ok.mpr ⟨_, hrecovery, ?_⟩⟩
  refine bind_eq_ok.mpr ⟨_, hmodel, ?_⟩
  refine bind_eq_ok.mpr ⟨none, rfl, bind_eq_ok.mpr ⟨[], rfl, bind_eq_ok.mpr ⟨none, rfl, ?_⟩⟩⟩
  rw [rejectMemory_ite_eq_ok, rejectMemory_ite_eq_ok, rejectMemory_ite_eq_ok]
  refine ⟨fun h => h.2 hkind, fun h => hactions ?_, fun h => ?_, rfl⟩
  · simpa using h.2
  · rw [hresolved] at h
    exact Bool.noConfusion h.2

theorem suggested_fix_sample : ∃ (draft : MemoryDraft) (document : MemoryDocument),
    resolutionSourceFromRow sampleRow = .ok draft.source ∧
      parseMemoryDocument (renderMemory (fun _ => "") draft.toDraftFields) = .ok document ∧
      suggestedFixText (fun _ => "") document = "## Open > the door.".toList := by
  have hsample := sampleRow_fits
  cases hrow : resolutionSourceFromRow sampleRow with
  | error e =>
    rw [hrow] at hsample
    cases hsample
  | ok source =>
    rw [hrow] at hsample
    have hfits : sampleFits source = true := by simpa [Except.toOption] using hsample
    have hgenuine := resolutionSourceFromRow_genuine distinct_sampleRow (by decide) hrow
    have hclean : CleanFrontmatter (quotingDraft source) := by
      have hsmall := hfits
      unfold sampleFits at hsmall
      simp only [Bool.and_eq_true, decide_eq_true_eq] at hsmall
      exact @clean_draftBy source "gpt-5.6-luna" hsmall.1.1.1.2 (by decide)
    let draft : MemoryDraft := ⟨quotingDraft source, hgenuine, prepared_quoting hfits⟩
    obtain ⟨document, hparse, -⟩ :=
      @MemoryIndex.parse_clean (quotingDraft source) (fun _ => "") hgenuine draft.prepared hclean
    have hwords : (spaced (words "## Open\n\n>  the door.".toList)).take
        maxSuggestionTextLength = "## Open > the door.".toList := by decide +kernel
    refine ⟨draft, document, rfl, hparse, ?_⟩
    rw [suggested_fix_is_recovery (fun _ => "") (fun _ => "") _ draft (postInit_quoting hfits)
      document hparse]
    exact hwords

end Sample

end FailureResolver.SuggestedFix
