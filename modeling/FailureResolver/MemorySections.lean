import FailureResolver.JsonLayout
import FailureResolver.MemoryMarkdown

/-!
The generated sections of a rendered memory. Every line of the prose and of the
context list starts with a mark of its own, and every line of the printed JSON
with a blank or a bracket, so no supplied text starts a heading or closes a fence.
Each of the three sections is found once, with exactly the JSON that was written.
-/

namespace FailureResolver.MemorySections

open EpisodeEvidence FencedText JsonLayout JsonRoundTrip JsonText JsonValue PyException PyText
open PyUuid ResolutionMemory MemoryMarkdown

section Lines

theorem plain_of_no_break {text : List Char} (h : ∀ c ∈ text, isLineBreak c = false) :
    Plain text := fun hmem => absurd (h '\n' hmem) (by decide)

theorem splitLines_no_break (text : List Char) :
    ∀ line ∈ splitLines text, ∀ c ∈ line, isLineBreak c = false :=
  splitLinesFrom_no_break [] text (by simp)

/-- A flattened text has no boundary left. -/
theorem flatten_no_break (s : String) : ∀ c ∈ flatten s, isLineBreak c = false := by
  intro c hc
  rcases mem_intercalate hc with hblank | ⟨line, hline, hmem⟩
  · rw [List.mem_singleton.mp hblank]
    decide
  · exact splitLines_no_break _ line hline c hmem

theorem bodyScalar_no_break (strOf : Json → String) (value : Json) :
    ∀ c ∈ bodyScalar strOf value, isLineBreak c = false := by
  unfold bodyScalar
  split
  · decide
  · exact flatten_no_break _
  · exact flatten_no_break _

theorem quoteLine_no_break {line : List Char} (h : ∀ c ∈ line, isLineBreak c = false) :
    ∀ c ∈ quoteLine line, isLineBreak c = false := by
  unfold quoteLine
  split
  · decide
  · exact List.forall_mem_cons.mpr ⟨by decide, List.forall_mem_cons.mpr ⟨by decide, h⟩⟩

theorem lined_quoteLine {line : List Char} (h : ∀ c ∈ line, isLineBreak c = false) :
    Lined Unmarked (quoteLine line) := by
  have hplain := plain_of_no_break (quoteLine_no_break h)
  unfold quoteLine at hplain ⊢
  split
  · exact lined_of_plain (by decide) (by decide)
  · next hline =>
    rw [if_neg hline] at hplain
    exact lined_of_plain (by decide) hplain

/-- A quoted text is empty or all its lines are quoted. -/
theorem lined_blockquote {text : List Char} (h : text ≠ []) :
    Lined Unmarked (blockquote text) := by
  refine lined_intercalate ?_ fun block hblock => ?_
  · rw [ne_eq, List.map_eq_nil_iff]
    exact splitLinesFrom_ne_nil [] text (.inr h)
  · obtain ⟨line, hline, rfl⟩ := List.mem_map.mp hblock
    exact lined_quoteLine (splitLines_no_break text line hline)

theorem lined_lessonsText (lessons : List String) : Lined Unmarked (lessonsText lessons) := by
  unfold lessonsText
  split
  · exact lined_of_plain (c := '_') (by decide) (by decide)
  · next hne =>
    refine lined_intercalate ?_ fun block hblock => ?_
    · rw [ne_eq, List.map_eq_nil_iff, List.zipIdx_eq_nil_iff]
      simpa using hne
    · obtain ⟨lesson, -, rfl⟩ := List.mem_map.mp hblock
      exact lined_blockquote (by simp [numberedLesson])

theorem contextLine_no_break {label : String} {text : List Char}
    (hlabel : ∀ c ∈ label.toList, isLineBreak c = false)
    (htext : ∀ c ∈ text, isLineBreak c = false) :
    ∀ c ∈ contextLine label text, isLineBreak c = false := by
  intro c hc
  simp only [contextLine, List.mem_cons, List.mem_append] at hc
  rcases hc with rfl | rfl | hc | rfl | rfl | hc
  · decide
  · decide
  · exact hlabel c hc
  · decide
  · decide
  · exact htext c hc

theorem contextLines_no_break (strOf : Json → String) (draft : DraftFields) :
    ∀ line ∈ contextLines strOf draft, ∀ c ∈ line, isLineBreak c = false := by
  have hyes : ∀ b, ∀ c ∈ yesNo b, isLineBreak c = false := by
    intro b
    cases b <;> decide
  have hlabels : ∀ field ∈ contextFields, ∀ c ∈ field.1.toList, isLineBreak c = false := by
    decide
  intro line hline
  rcases List.mem_append.mp hline with hline | hline
  · obtain ⟨field, hfield, rfl⟩ := List.mem_map.mp hline
    exact contextLine_no_break (hlabels field hfield) (bodyScalar_no_break strOf _)
  · simp only [List.mem_cons, List.not_mem_nil, or_false] at hline
    rcases hline with rfl | rfl
    · exact contextLine_no_break (by decide) (hyes _)
    · exact contextLine_no_break (by decide) (hyes _)

theorem contextLine_starts (strOf : Json → String) (draft : DraftFields) :
    ∀ line ∈ contextLines strOf draft, ∃ rest, line = '-' :: rest := by
  intro line hline
  rcases List.mem_append.mp hline with hline | hline
  · obtain ⟨field, -, rfl⟩ := List.mem_map.mp hline
    exact ⟨_, rfl⟩
  · simp only [List.mem_cons, List.not_mem_nil, or_false] at hline
    rcases hline with rfl | rfl <;> exact ⟨_, rfl⟩

end Lines

section Blocks

variable {heading : List Char}

def generatedHeadings : List (List Char) := [signatureHeading, evidenceHeading, actionsHeading]

theorem generated_plain : ∀ heading ∈ generatedHeadings,
    heading.head? = some '#' ∧ Plain heading := by decide

theorem passes_plain {block : List Char} (hplain : Plain block) (hne : block ≠ heading) :
    Passes heading block := ⟨hplain.guarded, .inr ⟨hplain, hne⟩⟩

theorem passes_lined {block : List Char} (h : Lined Unmarked block) : Passes heading block :=
  ⟨h.guarded, .inl h.opens⟩

theorem passes_nil : Passes heading [] := ⟨trivial, .inl (by rintro c ⟨⟩)⟩

theorem passes_blockquote (text : List Char) : Passes heading (blockquote text) := by
  by_cases h : text = []
  · rw [h]
    exact passes_nil
  · exact passes_lined (lined_blockquote h)

theorem plain_title {draft : DraftFields} (h : draft.source.Genuine) : Plain (title draft) := by
  obtain ⟨n, -, hid⟩ := h.resolutionId
  refine plain_append (by decide) ?_
  rw [hid]
  exact plain_of_no_break fun c hc => (formatUuid_plain hc).2.2.2

theorem title_ne {draft : DraftFields} (h : heading ∈ generatedHeadings) :
    title draft ≠ heading := by
  have hsecond : ∀ heading ∈ generatedHeadings, heading.tail.head? = some '#' := by decide
  intro heq
  have htitle := hsecond heading h
  rw [← heq] at htitle
  cases htitle

theorem passes_proseBlocks (strOf : Json → String) {draft : DraftFields}
    (hgenuine : draft.source.Genuine) (h : heading ∈ generatedHeadings) :
    ∀ block ∈ proseBlocks strOf draft, Passes heading block := by
  have hfixed : ∀ heading ∈ generatedHeadings,
      ∀ block ∈ ["## Failure Pattern".toList, "## Recovery Knowledge".toList,
        "## Lessons".toList, "## Context".toList], Plain block ∧ block ≠ heading := by decide
  have hother : ∀ block ∈ ["## Failure Pattern".toList, "## Recovery Knowledge".toList,
      "## Lessons".toList, "## Context".toList], Passes heading block :=
    fun block hblock => passes_plain (hfixed heading h block hblock).1
      (hfixed heading h block hblock).2
  intro block hblock
  simp only [proseBlocks, List.mem_append, List.mem_cons, List.not_mem_nil, or_false] at hblock
  rcases hblock with ((hprose | hcontext) | rfl)
  · rcases hprose with rfl | rfl | rfl | rfl | rfl | rfl | rfl | rfl | rfl | rfl | rfl | rfl
    · exact passes_plain (plain_title hgenuine) (title_ne h)
    · exact passes_nil
    · exact hother _ (by simp)
    · exact passes_blockquote _
    · exact passes_nil
    · exact hother _ (by simp)
    · exact passes_blockquote _
    · exact passes_nil
    · exact hother _ (by simp)
    · exact passes_lined (lined_lessonsText _)
    · exact passes_nil
    · exact hother _ (by simp)
  · obtain ⟨rest, rfl⟩ := contextLine_starts strOf draft block hcontext
    have hplain := plain_of_no_break (contextLines_no_break strOf draft _ hcontext)
    exact passes_lined (lined_of_plain (by decide) hplain)
  · exact passes_nil

/-- The values of the generated sections are null or containers. -/
def Sectioned : Json → Prop
  | .null => True
  | .arr _ => True
  | .obj _ => True
  | _ => False

theorem passes_indentedJson {value : Json} (h : Sectioned value) :
    Passes heading (indentedJson value) := by
  have hbracket : ∀ {c : Char} {rest : List Char}, c ≠ '#' → Opens (c :: rest) := by
    rintro c rest hc d ⟨⟩
    exact hc
  refine ⟨tame_print_indented _, .inl ?_⟩
  unfold indentedJson
  cases value with
  | null => exact hbracket (by decide)
  | arr items =>
    rw [sortKeys_arr]
    cases items.map Json.sortKeys with
    | nil => exact hbracket (by decide)
    | cons x xs => exact hbracket (by decide)
  | obj members =>
    rw [sortKeys_obj]
    cases (members.map fun m => (m.1, m.2.sortKeys)).insertionSort keyLe with
    | nil => exact hbracket (by decide)
    | cons m rest => exact hbracket (by decide)
  | bool b => cases h
  | int n => cases h
  | float x => cases h
  | str s => cases h

/-- A generated section passes for the other headings. -/
theorem passes_section {other : List Char} {value : Json} (hother : other ∈ generatedHeadings)
    (hne : other ≠ heading) (hvalue : Sectioned value) :
    ∀ block ∈ [other, openingFence, indentedJson value, closingFence], Passes heading block := by
  intro block hblock
  simp only [List.mem_cons, List.not_mem_nil, or_false] at hblock
  rcases hblock with rfl | rfl | rfl | rfl
  · exact passes_plain (generated_plain _ hother).2 hne
  · exact ⟨Plain.guarded (by decide), .inl (by rintro c ⟨⟩; decide)⟩
  · exact passes_indentedJson hvalue
  · exact ⟨Plain.guarded (by decide), .inl (by rintro c ⟨⟩; decide)⟩

end Blocks

section Sections

variable {draft : DraftFields} (strOf : Json → String)

def renderedBody (strOf : Json → String) (draft : DraftFields) : List Char :=
  '\n' :: unlines (bodyBlocks strOf draft)

theorem sectioned_signature (draft : DraftFields) : Sectioned (optionalObject draft.signature) := by
  cases draft.signature <;> trivial

theorem sectioned_actions (actions : List Json) : Sectioned (.arr actions) := trivial

theorem sectioned_evidence (h : draft.source.Genuine) :
    Sectioned (Fields.get draft.source.payload "episode_evidence") := by
  rcases h.episodeEvidence with hnull | ⟨evidence, hevidence, -⟩
  · rw [hnull]
    trivial
  · rw [hevidence]
    trivial

theorem sections_renderedBody (before after : List (List Char)) {heading : List Char} {value : Json}
    (hheading : heading ∈ generatedHeadings)
    (hblocks : bodyBlocks strOf draft = before ++
      heading :: openingFence :: indentedJson value :: closingFence :: after)
    (hbefore : ∀ block ∈ before, Passes heading block)
    (hafter : ∀ block ∈ after, Passes heading block) (hvalue : Sectioned value) :
    sections heading (renderedBody strOf draft) = [indentedJson value] := by
  obtain ⟨hhash, hplain⟩ := generated_plain heading hheading
  have hstart : sectionAt heading (renderedBody strOf draft) = none := by
    apply sectionAt_opens hhash
    rintro c ⟨⟩
    decide
  unfold sections
  rw [hstart]
  unfold renderedBody
  rw [hblocks, laterSections_eq hhash hplain hbefore hafter (passes_indentedJson hvalue)]
  rfl

theorem sections_signature (h : draft.source.Genuine) :
    sections signatureHeading (renderedBody strOf draft) =
      [indentedJson (optionalObject draft.signature)] := by
  refine sections_renderedBody strOf (proseBlocks strOf draft)
    ([[]] ++ evidenceSection draft ++ [[]] ++ actionsSection draft) (by decide) ?_
    (passes_proseBlocks strOf h (by decide)) (fun block hblock => ?_) (sectioned_signature draft)
  · simp [bodyBlocks, signatureSection]
  · simp only [List.mem_append, List.mem_singleton] at hblock
    rcases hblock with ((rfl | hblock) | rfl) | hblock
    · exact passes_nil
    · exact passes_section (by decide) (by decide) (sectioned_evidence h) block hblock
    · exact passes_nil
    · exact passes_section (by decide) (by decide) (sectioned_actions _) block hblock

theorem sections_evidence (h : draft.source.Genuine) :
    sections evidenceHeading (renderedBody strOf draft) =
      [indentedJson (Fields.get draft.source.payload "episode_evidence")] := by
  refine sections_renderedBody strOf (proseBlocks strOf draft ++ signatureSection draft ++ [[]])
    ([[]] ++ actionsSection draft) (by decide) ?_ (fun block hblock => ?_) (fun block hblock => ?_)
    (sectioned_evidence h)
  · simp [bodyBlocks, evidenceSection]
  · simp only [List.mem_append, List.mem_singleton] at hblock
    rcases hblock with (hblock | hblock) | rfl
    · exact passes_proseBlocks strOf h (by decide) block hblock
    · exact passes_section (by decide) (by decide) (sectioned_signature draft) block hblock
    · exact passes_nil
  · simp only [List.mem_append, List.mem_singleton] at hblock
    rcases hblock with rfl | hblock
    · exact passes_nil
    · exact passes_section (by decide) (by decide) (sectioned_actions _) block hblock

theorem sections_actions (h : draft.source.Genuine) :
    sections actionsHeading (renderedBody strOf draft) =
      [indentedJson (.arr draft.source.dispatchedActions)] := by
  refine sections_renderedBody strOf (proseBlocks strOf draft ++ signatureSection draft ++ [[]] ++
    evidenceSection draft ++ [[]]) [] (by decide) ?_ (fun block hblock => ?_) (by simp) trivial
  · simp [bodyBlocks, actionsSection]
  · simp only [List.mem_append, List.mem_singleton] at hblock
    rcases hblock with (((hblock | hblock) | rfl) | hblock) | rfl
    · exact passes_proseBlocks strOf h (by decide) block hblock
    · exact passes_section (by decide) (by decide) (sectioned_signature draft) block hblock
    · exact passes_nil
    · exact passes_section (by decide) (by decide) (sectioned_evidence h) block hblock
    · exact passes_nil

/-- A section that stands once is what the search returns. -/
theorem search_of_sections {heading text found : List Char}
    (h : sections heading text = [found]) : search heading text = some found := by
  rw [search_eq_head, h]
  rfl

end Sections

section Split

variable {draft : DraftFields} (strOf : Json → String)

theorem plain_yamlScalar (value : Json) : Plain (yamlScalar value) :=
  plain_of_blank (mem_print_compact value)

/-- The keys of the frontmatter are words. -/
theorem frontmatterFields_words : ∀ key ∈ frontmatterFields,
    isFrontmatterKey key.toList = true ∧ stripChars key.toList = key.toList ∧
      ':' ∉ key.toList ∧ (∀ c ∈ key.toList, isLineBreak c = false) ∧
      key.toList ≠ [] ∧ key.toList.head? ≠ some '-' := by
  decide +kernel

theorem lined_frontmatterLine {key : String} (hkey : key ∈ frontmatterFields) (value : Json) :
    Lined (· ≠ '-') (frontmatterLine (key, value)) := by
  obtain ⟨-, -, -, hbreak, hne, hhead⟩ := frontmatterFields_words key hkey
  obtain ⟨c, rest, hrest⟩ := List.exists_cons_of_ne_nil hne
  have hc : c ≠ '-' := by
    rintro rfl
    exact hhead (by rw [hrest]; rfl)
  have hplain : Plain (frontmatterLine (key, value)) := by
    refine plain_append (plain_of_no_break hbreak) ?_
    exact plain_append (by decide : Plain [':', ' ']) (plain_yamlScalar value)
  unfold frontmatterLine at hplain ⊢
  rw [hrest, List.cons_append] at hplain ⊢
  exact lined_of_plain hc hplain

/-- A word that starts with a line feed and a dash is not in a guarded text. -/
theorem splitAtWord_guarded (tail : List Char) {text : List Char}
    (htext : Guarded (· ≠ '-') text) (after : List Char) :
    splitAtWord ('\n' :: '-' :: tail) (text ++ ('\n' :: '-' :: tail) ++ after) =
      some (text, after) := by
  induction text with
  | nil =>
    have hdrop : ('\n' :: ('-' :: tail ++ after)).dropPrefix? ('\n' :: '-' :: tail) = some after :=
      List.dropPrefix?_eq_some_iff.mpr ⟨'\n' :: '-' :: tail, rfl, beq_self_eq_true _⟩
    rw [List.nil_append, List.cons_append, splitAtWord, hdrop]
  | cons c rest ih =>
    have hdrop : (c :: (rest ++ ('\n' :: '-' :: tail) ++ after)).dropPrefix?
        ('\n' :: '-' :: tail) = none := by
      cases hfound : (c :: (rest ++ ('\n' :: '-' :: tail) ++ after)).dropPrefix?
          ('\n' :: '-' :: tail) with
      | none => rfl
      | some found =>
        obtain ⟨start, heq, hstart⟩ := List.dropPrefix?_eq_some_iff.mp hfound
        rw [eq_of_beq hstart] at heq
        obtain ⟨hc, hrest⟩ := List.cons.inj heq
        obtain ⟨d, more, rfl, hd⟩ := htext.1 hc
        exact absurd (List.cons.inj hrest).1 hd
    rw [List.cons_append, List.cons_append, splitAtWord, hdrop, ih htext.2]
    rfl

def frontmatterText (draft : DraftFields) : List Char := joinLines (frontmatterLines draft)

theorem intercalate_concat (blocks : List (List Char)) (hne : blocks ≠ []) :
    ['\n'].intercalate blocks ++ ['\n'] = unlines blocks := by
  induction blocks with
  | nil => exact absurd rfl hne
  | cons block blocks ih =>
    cases blocks with
    | nil => simp [unlines]
    | cons next blocks =>
      rw [List.intercalate_cons_cons, List.append_assoc, ih (by simp)]
      simp [unlines]

theorem renderMemory_eq (strOf : Json → String) (draft : DraftFields) :
    renderMemory strOf draft = unlines [rule] ++
      (frontmatterText draft ++ ('\n' :: unlines [rule]) ++ renderedBody strOf draft) := by
  have hlines : frontmatterText draft ++ ['\n'] = unlines (frontmatterLines draft) :=
    intercalate_concat _ (by simp [frontmatterLines, frontmatterFields])
  have hunlines : ∀ a b, unlines (a ++ b) = unlines a ++ unlines b := fun a b => by simp [unlines]
  have hcut : frontmatterText draft ++ ('\n' :: unlines [rule]) =
      unlines (frontmatterLines draft) ++ unlines [rule] := by
    rw [← hlines, List.append_assoc]
    rfl
  unfold renderMemory joinLines
  rw [intercalate_append_nil, hcut, hunlines, hunlines, hunlines, hunlines]
  simp [renderedBody, unlines]

/-- The rendered memory splits at its own rules. -/
theorem splitDocument_renderMemory (strOf : Json → String) (draft : DraftFields) :
    splitDocument (renderMemory strOf draft) =
      .ok (frontmatterText draft, renderedBody strOf draft) := by
  have hguarded : Guarded (· ≠ '-') (frontmatterText draft) := by
    refine (lined_intercalate ?_ fun block hblock => ?_).guarded
    · simp [frontmatterLines, frontmatterFields]
    · obtain ⟨key, hkey, rfl⟩ := List.mem_map.mp hblock
      exact lined_frontmatterLine hkey _
  have hdrop : (renderMemory strOf draft).dropPrefix? (unlines [rule]) =
      some (frontmatterText draft ++ ('\n' :: unlines [rule]) ++ renderedBody strOf draft) :=
    List.dropPrefix?_eq_some_iff.mpr
      ⟨unlines [rule], renderMemory_eq strOf draft, beq_self_eq_true _⟩
  unfold splitDocument
  rw [hdrop]
  have hsplit := splitAtWord_guarded ['-', '-', '\n'] hguarded (renderedBody strOf draft)
  dsimp only
  split
  · next hnone => exact absurd (hnone.symm.trans hsplit) (by simp)
  · next parts hparts => exact congrArg Except.ok (Option.some.inj (hparts.symm.trans hsplit))

end Split

section Newlines

variable {draft : DraftFields} (strOf : Json → String)

/-- The file is read back as it was written. -/
theorem universalNewlines_eq {text : List Char} (h : '\r' ∉ text) :
    universalNewlines text = text := by
  induction text with
  | nil => rfl
  | cons c rest ih =>
    have hc : c ≠ '\r' := fun heq => h (heq ▸ List.mem_cons_self ..)
    have hrest := ih fun hmem => h (List.mem_cons_of_mem _ hmem)
    rw [universalNewlines.eq_3 c rest fun _ heq => absurd heq hc, if_neg hc, hrest]

/-- No character of the text ends a line, the line feed apart. -/
def Feeds (text : List Char) : Prop := ∀ c ∈ text, c ≠ '\r'

instance (text : List Char) : Decidable (Feeds text) :=
  inferInstanceAs (Decidable (∀ c ∈ text, c ≠ '\r'))

theorem feeds_of_no_break {text : List Char} (h : ∀ c ∈ text, isLineBreak c = false) :
    Feeds text := by
  rintro c hc rfl
  exact absurd (h '\r' hc) (by decide)

theorem feeds_intercalate {sep : List Char} {parts : List (List Char)} (hsep : Feeds sep)
    (h : ∀ part ∈ parts, Feeds part) : Feeds (sep.intercalate parts) := by
  intro c hc
  rcases mem_intercalate hc with hc | ⟨part, hpart, hc⟩
  · exact hsep c hc
  · exact h part hpart c hc

theorem feeds_blockquote (text : List Char) : Feeds (blockquote text) := by
  refine feeds_intercalate (by decide) fun block hblock => ?_
  obtain ⟨line, hline, rfl⟩ := List.mem_map.mp hblock
  exact feeds_of_no_break (quoteLine_no_break (splitLines_no_break text line hline))

theorem feeds_lessonsText (lessons : List String) : Feeds (lessonsText lessons) := by
  unfold lessonsText
  split
  · exact feeds_of_no_break (by decide)
  · refine feeds_intercalate (by decide) fun block hblock => ?_
    obtain ⟨lesson, -, rfl⟩ := List.mem_map.mp hblock
    exact feeds_blockquote _

theorem feeds_indentedJson (value : Json) : Feeds (indentedJson value) := by
  rintro c hc rfl
  rcases mem_print_indented value.sortKeys '\r' hc with heq | hblank
  · exact absurd heq (by decide)
  · exact absurd hblank (by decide)

theorem feeds_frontmatterLine {key : String} (hkey : key ∈ frontmatterFields) (value : Json) :
    Feeds (frontmatterLine (key, value)) := by
  have hword := feeds_of_no_break (frontmatterFields_words key hkey).2.2.2.1
  rintro c hc rfl
  simp only [frontmatterLine, List.mem_append, List.mem_cons] at hc
  rcases hc with hc | hc | hc | hc
  · exact hword _ hc rfl
  · exact absurd hc (by decide)
  · exact absurd hc (by decide)
  · exact absurd (mem_print_compact value _ hc) (by decide)

theorem feeds_section {heading : List Char} (hheading : heading ∈ generatedHeadings)
    (value : Json) : ∀ block ∈ [heading, openingFence, indentedJson value, closingFence],
      Feeds block := by
  have hheadings : ∀ heading ∈ generatedHeadings, ∀ c ∈ heading, isLineBreak c = false := by
    decide
  intro block hblock
  simp only [List.mem_cons, List.not_mem_nil, or_false] at hblock
  rcases hblock with rfl | rfl | rfl | rfl
  · exact feeds_of_no_break (hheadings _ hheading)
  · exact feeds_of_no_break (by decide)
  · exact feeds_indentedJson value
  · exact feeds_of_no_break (by decide)

theorem feeds_proseBlocks (h : draft.source.Genuine) :
    ∀ block ∈ proseBlocks strOf draft, Feeds block := by
  have hnil : Feeds [] := by
    rintro c ⟨⟩
  intro block hblock
  simp only [proseBlocks, List.mem_append, List.mem_cons, List.not_mem_nil, or_false] at hblock
  rcases hblock with ((hprose | hcontext) | rfl)
  · rcases hprose with rfl | rfl | rfl | rfl | rfl | rfl | rfl | rfl | rfl | rfl | rfl | rfl
    · obtain ⟨n, -, hid⟩ := h.resolutionId
      refine feeds_of_no_break fun c hc => ?_
      rcases List.mem_append.mp hc with hc | hc
      · exact (by decide : ∀ c ∈ "# Resolution Memory ".toList, isLineBreak c = false) c hc
      · rw [hid] at hc
        exact (formatUuid_plain hc).2.2.2
    · exact hnil
    · exact feeds_of_no_break (by decide)
    · exact feeds_blockquote _
    · exact hnil
    · exact feeds_of_no_break (by decide)
    · exact feeds_blockquote _
    · exact hnil
    · exact feeds_of_no_break (by decide)
    · exact feeds_lessonsText _
    · exact hnil
    · exact feeds_of_no_break (by decide)
  · exact feeds_of_no_break (contextLines_no_break strOf draft block hcontext)
  · exact hnil

theorem feeds_bodyBlocks (h : draft.source.Genuine) :
    ∀ block ∈ bodyBlocks strOf draft, Feeds block := by
  have hnil : Feeds [] := by
    rintro c ⟨⟩
  intro block hblock
  simp only [bodyBlocks, List.mem_append, List.mem_singleton] at hblock
  rcases hblock with ((((hblock | hblock) | rfl) | hblock) | rfl) | hblock
  · exact feeds_proseBlocks strOf h block hblock
  · exact feeds_section (by decide) _ block hblock
  · exact hnil
  · exact feeds_section (by decide) _ block hblock
  · exact hnil
  · exact feeds_section (by decide) _ block hblock

theorem universalNewlines_renderMemory (h : draft.source.Genuine) :
    universalNewlines (renderMemory strOf draft) = renderMemory strOf draft := by
  have hfeeds : Feeds (renderMemory strOf draft) := by
    refine feeds_intercalate (by decide) fun block hblock => ?_
    simp only [List.mem_append, List.mem_singleton] at hblock
    rcases hblock with ((((rfl | hblock) | rfl) | rfl) | hblock) | rfl
    · exact feeds_of_no_break (by decide)
    · obtain ⟨key, hkey, rfl⟩ := List.mem_map.mp hblock
      exact feeds_frontmatterLine hkey _
    · exact feeds_of_no_break (by decide)
    · exact feeds_of_no_break (by simp)
    · exact feeds_bodyBlocks strOf h block hblock
    · exact feeds_of_no_break (by simp)
  exact universalNewlines_eq fun hmem => hfeeds '\r' hmem rfl

end Newlines

section Decoded

variable {draft : DraftFields} {source : ResolutionSource}

theorem printable_get {fields : Fields} (h : printable (.obj fields) = true) (key : String) :
    printable (Fields.get fields key) = true := by
  rcases get_eq_null_or_mem fields key with hnull | hmem
  · rw [hnull]
    rfl
  · exact printableMembers_iff.mp h _ hmem

/-- A payload field is in canonical order. -/
theorem Genuine.sorted_get (h : source.Genuine) (key : String) :
    (Fields.get source.payload key).sortKeys = Fields.get source.payload key :=
  (get_sortKeys h.distinct h.sorted key).symm

theorem loads_indentedJson {value : Json} (hdistinct : value.Distinct)
    (hprintable : printable value = true) : loads (indentedJson value) = some value.sortKeys :=
  loads_print indentedStyle_blank hdistinct.sortKeys (printable_sortKeys hprintable)

theorem loads_payload (h : source.Genuine) (key : String) :
    loads (indentedJson (Fields.get source.payload key)) =
      some (Fields.get source.payload key) := by
  rw [loads_indentedJson (distinct_get h.distinct key) (printable_get h.printable key),
    Genuine.sorted_get h]

theorem Genuine.dispatchedActions_eq (h : source.Genuine) :
    Fields.get source.payload "action_runs" = .arr source.dispatchedActions := by
  obtain ⟨actions, hactions, -⟩ := h.actionRuns
  unfold ResolutionSource.dispatchedActions
  rw [hactions]

theorem loads_actions (h : source.Genuine) :
    loads (indentedJson (.arr source.dispatchedActions)) =
      some (.arr source.dispatchedActions) := by
  rw [← Genuine.dispatchedActions_eq h]
  exact loads_payload h "action_runs"

theorem printable_evidence {evidence : Fields} (h : Valid evidence) :
    printable (Json.sortKeys (.obj evidence)) = true := by
  obtain ⟨text, hdumps, -⟩ := h.bounded
  exact (dumps_eq_some.mp hdumps).1

/-- A signature is read back up to the order of its members. -/
theorem loads_signature (h : draft.Prepared) :
    loads (indentedJson (optionalObject draft.signature)) =
      some (optionalObject draft.signature).sortKeys := by
  cases hsignature : draft.signature with
  | none => rfl
  | some signature =>
    obtain ⟨hvalid, hdistinct⟩ := h.signature signature hsignature
    exact loads_print indentedStyle_blank hdistinct.sortKeys (printable_evidence hvalid)

end Decoded

section Document

variable {draft : DraftFields} {source : ResolutionSource} (strOf : Json → String)

theorem parseEvidence_eq {heading body text : List Char} {evidence : Option Fields}
    (invalidJson invalid : String) (hsearch : search heading body = some text)
    (hloads : loads text = some (optionalObject evidence))
    (hvalid : ∀ members, evidence = some members → Valid members) :
    parseEvidence heading invalidJson invalid body = .ok evidence := by
  unfold parseEvidence
  rw [hsearch]
  dsimp only
  rw [hloads]
  cases evidence with
  | none => rfl
  | some members =>
    simp only [optionalObject, validate_valid (hvalid members rfl)]

theorem Genuine.evidence (h : source.Genuine) :
    ∃ evidence, Fields.get source.payload "episode_evidence" = optionalObject evidence ∧
      ∀ members, evidence = some members → Valid members := by
  rcases h.episodeEvidence with hnull | ⟨evidence, hevidence, hvalid⟩
  · exact ⟨none, hnull, by simp⟩
  · refine ⟨some evidence, hevidence, ?_⟩
    rintro members ⟨⟩
    exact hvalid

theorem Prepared.sortedSignature (h : draft.Prepared) :
    ∃ signature, (optionalObject draft.signature).sortKeys = optionalObject signature ∧
      ∀ members, signature = some members → Valid members := by
  cases hsignature : draft.signature with
  | none => exact ⟨none, rfl, by simp⟩
  | some members =>
    refine ⟨some _, sortKeys_obj members, ?_⟩
    rintro sorted ⟨⟩
    exact (h.signature members hsignature).1.sortKeys (sortKeys_obj members)

theorem pyEq_signature (h : draft.Prepared) :
    Json.pyEq (optionalObject draft.signature).sortKeys (optionalObject draft.signature) = true := by
  cases hsignature : draft.signature with
  | none => rfl
  | some members =>
    obtain ⟨hvalid, hdistinct⟩ := h.signature members hsignature
    exact pyEq_sortKeys hdistinct (printable_sortKeys_iff.mp (printable_evidence hvalid))

/-- The document shows the actions, the evidence and the signature of the draft. -/
structure Shows (document : MemoryDocument) (draft : DraftFields) : Prop where
  dispatchedActions : document.dispatchedActions = draft.source.dispatchedActions
  episodeEvidence : optionalObject document.episodeEvidence =
    Fields.get draft.source.payload "episode_evidence"
  retrievalSignature : Json.pyEq (optionalObject document.retrievalSignature)
    (optionalObject draft.signature) = true

theorem parseActions_eq_ok {frontmatter : Fields} {body text : List Char}
    {actions stored : List Json} (hsearch : search actionsHeading body = some text)
    (hloads : loads text = some (.arr stored))
    (h : parseActions frontmatter body = .ok actions) : actions = stored := by
  unfold parseActions at h
  rw [hsearch] at h
  dsimp only at h
  rw [hloads] at h
  simp only [rejectMemory_ite_eq_ok, Except.ok.injEq] at h
  exact h.2.2.symm

theorem parseEvidence_renderedBody (h : draft.source.Genuine) :
    ∃ evidence,
      Fields.get draft.source.payload "episode_evidence" = optionalObject evidence ∧
      parseEvidence evidenceHeading "Episode-evidence JSON is invalid"
        "Episode evidence is invalid" (renderedBody strOf draft) = .ok evidence := by
  obtain ⟨evidence, hevidence, hvalid⟩ := Genuine.evidence h
  refine ⟨evidence, hevidence, parseEvidence_eq _ _
    (search_of_sections (sections_evidence strOf h)) ?_ hvalid⟩
  rw [loads_payload h, hevidence]

theorem parseSignature_renderedBody (hgenuine : draft.source.Genuine) (h : draft.Prepared) :
    ∃ signature, (optionalObject draft.signature).sortKeys = optionalObject signature ∧
      parseEvidence signatureHeading "Retrieval-signature JSON is invalid"
        "Retrieval signature is invalid" (renderedBody strOf draft) = .ok signature := by
  obtain ⟨signature, hsignature, hvalid⟩ := Prepared.sortedSignature h
  refine ⟨signature, hsignature, parseEvidence_eq _ _
    (search_of_sections (sections_signature strOf hgenuine)) ?_ hvalid⟩
  rw [loads_signature h, hsignature]

/-- Whatever the frontmatter reads as, the sections are read as they were written. -/
theorem parse_renderMemory_shows (hgenuine : draft.source.Genuine) (hprepared : draft.Prepared)
    {document : MemoryDocument}
    (h : parseMemoryDocument (renderMemory strOf draft) = .ok document) :
    Shows document draft := by
  obtain ⟨evidence, hevidence, hparseEvidence⟩ :=
    parseEvidence_renderedBody strOf hgenuine
  obtain ⟨signature, hsignature, hparseSignature⟩ :=
    parseSignature_renderedBody strOf hgenuine hprepared
  unfold parseMemoryDocument at h
  rw [universalNewlines_renderMemory strOf hgenuine, splitDocument_renderMemory] at h
  obtain ⟨⟨text, body⟩, heq, h⟩ := bind_eq_ok.mp h
  cases heq
  obtain ⟨parsed, -, h⟩ := bind_eq_ok.mp h
  obtain ⟨resolutionId, -, h⟩ := bind_eq_ok.mp h
  obtain ⟨sourceHash, -, h⟩ := bind_eq_ok.mp h
  obtain ⟨actions, hactions, h⟩ := bind_eq_ok.mp h
  rw [hparseEvidence] at h
  obtain ⟨_, heq, h⟩ := bind_eq_ok.mp h
  cases heq
  rw [hparseSignature] at h
  obtain ⟨_, heq, h⟩ := bind_eq_ok.mp h
  cases heq
  cases h
  refine ⟨?_, hevidence.symm, ?_⟩
  · exact parseActions_eq_ok (search_of_sections (sections_actions strOf hgenuine))
      (loads_actions hgenuine) hactions
  · change Json.pyEq (optionalObject signature) _ = true
    rw [← hsignature]
    exact pyEq_signature hprepared

/-- No supplied text adds, replaces or truncates a generated section: each stands
once in the body, with the JSON that was written, and is decoded to its value. -/
theorem renderMemory_sections (strOf : Json → String) (draft : MemoryDraft) :
    (∃ frontmatter body,
      splitDocument (renderMemory strOf draft.toDraftFields) = .ok (frontmatter, body) ∧
      sections signatureHeading body = [indentedJson (optionalObject draft.signature)] ∧
      sections evidenceHeading body =
        [indentedJson (Fields.get draft.source.payload "episode_evidence")] ∧
      sections actionsHeading body = [indentedJson (.arr draft.source.dispatchedActions)] ∧
      (∃ signature, (search signatureHeading body).bind loads = some signature ∧
        Json.pyEq signature (optionalObject draft.signature) = true) ∧
      (search evidenceHeading body).bind loads =
        some (Fields.get draft.source.payload "episode_evidence") ∧
      (search actionsHeading body).bind loads = some (.arr draft.source.dispatchedActions)) ∧
    ∀ document, parseMemoryDocument (renderMemory strOf draft.toDraftFields) = .ok document →
      Shows document draft.toDraftFields := by
  have hsignature := sections_signature strOf draft.genuine
  have hevidence := sections_evidence strOf draft.genuine
  have hactions := sections_actions strOf draft.genuine
  refine ⟨⟨_, _, splitDocument_renderMemory strOf draft.toDraftFields, hsignature, hevidence,
    hactions, ⟨_, ?_, pyEq_signature draft.prepared⟩, ?_, ?_⟩,
    fun document h => parse_renderMemory_shows strOf draft.genuine draft.prepared h⟩
  · rw [search_of_sections hsignature]
    exact loads_signature draft.prepared
  · rw [search_of_sections hevidence]
    exact loads_payload draft.genuine _
  · rw [search_of_sections hactions]
    exact loads_actions draft.genuine

end Document

end FailureResolver.MemorySections
