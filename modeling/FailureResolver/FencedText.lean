import Mathlib.Data.List.Basic

/-!
Text built from blocks on lines of their own, and the search for a fenced section
in it. A section is a heading line, an opening fence and the shortest text before
a closing fence. A block that cannot be taken for the heading or for the closing
fence is passed over, so among such blocks the section is found exactly as it was
written, and only once.
-/

namespace FailureResolver.FencedText

def unlines (blocks : List (List Char)) : List Char := blocks.flatMap (· ++ ['\n'])

def openingFence : List Char := ['`', '`', '`', 'j', 's', 'o', 'n']

def closingFence : List Char := ['`', '`', '`']

def opening (heading : List Char) : List Char := unlines [heading, openingFence]

/-- The text starts with a closing fence on a line of its own. -/
def closes : List Char → Bool
  | '\n' :: '`' :: '`' :: '`' :: [] => true
  | '\n' :: '`' :: '`' :: '`' :: c :: _ => c = '\n'
  | _ => false

def contents : List Char → Option (List Char)
  | [] => none
  | c :: rest => if closes (c :: rest) then some [] else (contents rest).map (c :: ·)

def sectionAt (heading text : List Char) : Option (List Char) :=
  (text.dropPrefix? (opening heading)).bind contents

def searchLater (heading : List Char) : List Char → Option (List Char)
  | [] => none
  | c :: rest =>
      match if c = '\n' then sectionAt heading rest else none with
      | some found => some found
      | none => searchLater heading rest

/-- The first section at the start of the text or behind a line feed. -/
def search (heading text : List Char) : Option (List Char) :=
  match sectionAt heading text with
  | some found => some found
  | none => searchLater heading text

def laterSections (heading : List Char) : List Char → List (List Char)
  | [] => []
  | c :: rest =>
      (if c = '\n' then sectionAt heading rest else none).toList ++ laterSections heading rest

def sections (heading text : List Char) : List (List Char) :=
  (sectionAt heading text).toList ++ laterSections heading text

def Plain (text : List Char) : Prop := '\n' ∉ text

instance (text : List Char) : Decidable (Plain text) := inferInstanceAs (Decidable (_ ∉ _))

/-- Every line after the first one is there and starts with an admitted
character. -/
def Guarded (ok : Char → Prop) : List Char → Prop
  | [] => True
  | c :: rest => (c = '\n' → ∃ d tail, rest = d :: tail ∧ ok d) ∧ Guarded ok rest

def Unmarked (c : Char) : Prop := c ≠ '#' ∧ c ≠ '`'

instance (c : Char) : Decidable (Unmarked c) := inferInstanceAs (Decidable (_ ∧ _))

/-- No line after the first one starts a heading or a fence, or is missing. -/
abbrev Tame : List Char → Prop := Guarded Unmarked

def Opens (text : List Char) : Prop := ∀ c, text.head? = some c → c ≠ '#'

/-- The block is not the heading, and no later line of it can be. -/
def Passes (heading block : List Char) : Prop :=
  Tame block ∧ (Opens block ∨ Plain block ∧ block ≠ heading)

section Guarded

variable {ok : Char → Prop} {text other : List Char}

theorem Plain.guarded (h : Plain text) : Guarded ok text := by
  induction text with
  | nil => trivial
  | cons c rest ih =>
    refine ⟨?_, ih fun hmem => h (List.mem_cons_of_mem _ hmem)⟩
    rintro rfl
    exact absurd (List.mem_cons_self ..) h

theorem Guarded.append (h : Guarded ok text) (hother : Guarded ok other) :
    Guarded ok (text ++ other) := by
  induction text with
  | nil => exact hother
  | cons c rest ih =>
    refine ⟨fun hc => ?_, ih h.2⟩
    obtain ⟨d, tail, rfl, hd⟩ := h.1 hc
    exact ⟨d, tail ++ other, rfl, hd⟩

theorem plain_append (h : Plain text) (hother : Plain other) : Plain (text ++ other) := by
  unfold Plain
  rw [List.mem_append]
  exact fun hmem => hmem.elim h hother

theorem mem_intercalate {sep : List Char} {parts : List (List Char)} {c : Char}
    (h : c ∈ sep.intercalate parts) : c ∈ sep ∨ ∃ part ∈ parts, c ∈ part := by
  induction parts with
  | nil => cases h
  | cons part parts ih =>
    cases parts with
    | nil =>
      rw [List.intercalate_singleton] at h
      exact .inr ⟨part, List.mem_cons_self .., h⟩
    | cons next parts =>
      rw [List.intercalate_cons_cons, List.append_assoc, List.mem_append, List.mem_append] at h
      rcases h with h | h | h
      · exact .inr ⟨part, List.mem_cons_self .., h⟩
      · exact .inl h
      · rcases ih h with h | ⟨other, hother, h⟩
        · exact .inl h
        · exact .inr ⟨other, List.mem_cons_of_mem _ hother, h⟩

/-- Joining blocks and an empty last line ends every block with a line feed. -/
theorem intercalate_append_nil (blocks : List (List Char)) :
    ['\n'].intercalate (blocks ++ [[]]) = unlines blocks := by
  induction blocks with
  | nil => rfl
  | cons block blocks ih =>
    rw [List.cons_append, List.intercalate_cons_of_ne_nil (by simp), ih]
    simp [unlines]

/-- A line feed before a line that starts with an admitted character. -/
theorem guarded_line {c : Char} (hc : ok c) (h : Guarded ok (c :: text)) :
    Guarded ok ('\n' :: c :: text) :=
  ⟨fun _ => ⟨c, text, rfl, hc⟩, h⟩

/-- A block all of whose lines start with an admitted character. -/
structure Lined (ok : Char → Prop) (block : List Char) : Prop where
  guarded : Guarded ok block
  starts : ∃ c rest, block = c :: rest ∧ ok c

theorem Lined.opens (h : Lined Unmarked text) : Opens text := by
  obtain ⟨d, rest, rfl, hd, -⟩ := h.starts
  rintro c ⟨⟩
  exact hd

theorem lined_of_plain {c : Char} (hc : ok c) (h : Plain (c :: text)) : Lined ok (c :: text) :=
  ⟨h.guarded, c, text, rfl, hc⟩

/-- Joining such blocks gives such a block. -/
theorem lined_intercalate {blocks : List (List Char)} (hne : blocks ≠ [])
    (h : ∀ block ∈ blocks, Lined ok block) : Lined ok (['\n'].intercalate blocks) := by
  induction blocks with
  | nil => exact absurd rfl hne
  | cons block blocks ih =>
    obtain ⟨hblock, hblocks⟩ := List.forall_mem_cons.mp h
    cases blocks with
    | nil => rwa [List.intercalate_singleton]
    | cons next blocks =>
      have hrest := ih (by simp) hblocks
      obtain ⟨c, rest, heq, hc⟩ := hrest.starts
      obtain ⟨d, start, hstart, hd⟩ := hblock.starts
      rw [List.intercalate_cons_cons, List.append_assoc, heq]
      refine ⟨hblock.guarded.append (guarded_line hc (heq ▸ hrest.guarded)), d,
        start ++ (['\n'] ++ c :: rest), ?_, hd⟩
      rw [hstart, List.cons_append]

end Guarded

section Search

variable {heading text : List Char}

theorem searchLater_eq_head (heading text : List Char) :
    searchLater heading text = (laterSections heading text).head? := by
  induction text with
  | nil => rfl
  | cons c rest ih =>
    rw [searchLater, laterSections]
    cases (if c = '\n' then sectionAt heading rest else none) with
    | none => exact ih
    | some found => rfl

/-- The search returns the first section. -/
theorem search_eq_head (heading text : List Char) :
    search heading text = (sections heading text).head? := by
  unfold search sections
  cases sectionAt heading text with
  | none => exact searchLater_eq_head heading text
  | some found => rfl

/-- Only a text that starts like the opening starts a section. -/
theorem sectionAt_of_not_prefix (h : ¬ opening heading <+: text) :
    sectionAt heading text = none := by
  unfold sectionAt
  cases hdrop : text.dropPrefix? (opening heading) with
  | none => rfl
  | some rest =>
    obtain ⟨start, rfl, hstart⟩ := List.dropPrefix?_eq_some_iff.mp hdrop
    rw [eq_of_beq hstart] at h
    exact absurd (List.prefix_append _ _) h

theorem sectionAt_opens (hheading : heading.head? = some '#') (h : Opens text) :
    sectionAt heading text = none := by
  apply sectionAt_of_not_prefix
  rintro ⟨rest, rfl⟩
  obtain ⟨tail, rfl⟩ : ∃ tail, heading = '#' :: tail := by
    cases heading with
    | nil => cases hheading
    | cons c tail =>
      cases hheading
      exact ⟨tail, rfl⟩
  exact h '#' rfl rfl

/-- Two lines without line feeds start alike only if they are equal. -/
theorem line_eq_of_append {line other rest tail : List Char} (hline : Plain line)
    (hother : Plain other) (h : line ++ '\n' :: rest = other ++ '\n' :: tail) : line = other := by
  induction line generalizing other with
  | nil =>
    cases other with
    | nil => rfl
    | cons d other =>
      rw [List.nil_append, List.cons_append] at h
      exact absurd ((List.cons.inj h).1 ▸ List.mem_cons_self ..) hother
  | cons c line ih =>
    cases other with
    | nil =>
      rw [List.nil_append, List.cons_append] at h
      exact absurd ((List.cons.inj h).1 ▸ List.mem_cons_self ..) hline
    | cons d other =>
      obtain ⟨rfl, hrest⟩ := List.cons.inj h
      rw [ih (fun hmem => hline (List.mem_cons_of_mem _ hmem))
        (fun hmem => hother (List.mem_cons_of_mem _ hmem)) hrest]

theorem opening_eq (heading : List Char) :
    opening heading = heading ++ '\n' :: (openingFence ++ ['\n']) := by
  simp [opening, unlines]

theorem sectionAt_other {block : List Char} (hheading : Plain heading) (hblock : Plain block)
    (hne : block ≠ heading) (rest : List Char) :
    sectionAt heading (block ++ '\n' :: rest) = none := by
  apply sectionAt_of_not_prefix
  rintro ⟨tail, heq⟩
  rw [opening_eq, List.append_assoc, List.cons_append] at heq
  exact hne (line_eq_of_append hheading hblock heq).symm

theorem sectionAt_passes {block : List Char} (hhash : heading.head? = some '#')
    (hheading : Plain heading) (h : Passes heading block) (rest : List Char) :
    sectionAt heading (block ++ '\n' :: rest) = none := by
  rcases h.2 with hopens | ⟨hplain, hne⟩
  · apply sectionAt_opens hhash
    cases block with
    | nil =>
      rintro c ⟨⟩
      decide
    | cons d tail => exact hopens
  · exact sectionAt_other hheading hplain hne rest

/-- No section starts inside a tame text. -/
theorem laterSections_tame (hhash : heading.head? = some '#') (h : Tame text)
    (rest : List Char) : laterSections heading (text ++ rest) = laterSections heading rest := by
  induction text with
  | nil => rfl
  | cons c tail ih =>
    rw [List.cons_append, laterSections, ih h.2]
    split
    · next hc =>
      obtain ⟨d, more, rfl, hd, -⟩ := h.1 hc
      rw [sectionAt_opens hhash]
      · rfl
      · rintro e ⟨⟩
        exact hd
    · rfl

theorem laterSections_block {block : List Char} (hhash : heading.head? = some '#')
    (hheading : Plain heading) (h : Passes heading block) (rest : List Char) :
    laterSections heading ('\n' :: (block ++ '\n' :: rest)) =
      laterSections heading ('\n' :: rest) := by
  rw [laterSections, if_pos rfl, sectionAt_passes hhash hheading h,
    laterSections_tame hhash h.1]
  rfl

theorem laterSections_unlines {blocks : List (List Char)} (hhash : heading.head? = some '#')
    (hheading : Plain heading) (h : ∀ block ∈ blocks, Passes heading block) (rest : List Char) :
    laterSections heading ('\n' :: (unlines blocks ++ rest)) =
      laterSections heading ('\n' :: rest) := by
  induction blocks with
  | nil => rfl
  | cons block blocks ih =>
    obtain ⟨hblock, hblocks⟩ := List.forall_mem_cons.mp h
    have hunlines : unlines (block :: blocks) ++ rest =
        block ++ '\n' :: (unlines blocks ++ rest) := by
      simp [unlines]
    rw [hunlines, laterSections_block hhash hheading hblock, ih hblocks]

/-- The shortest contents of a fence around a tame text is the text. -/
theorem contents_tame (h : Tame text) (rest : List Char) :
    contents (text ++ '\n' :: (closingFence ++ '\n' :: rest)) = some text := by
  induction text with
  | nil => rfl
  | cons c tail ih =>
    have hopen : closes (c :: (tail ++ '\n' :: (closingFence ++ '\n' :: rest))) = false := by
      by_cases hc : c = '\n'
      · obtain ⟨d, more, rfl, -, hd⟩ := h.1 hc
        unfold closes
        split
        · next heq => exact absurd (List.cons.inj (List.cons.inj heq).2).1 hd
        · next heq => exact absurd (List.cons.inj (List.cons.inj heq).2).1 hd
        · rfl
      · unfold closes
        split
        · next heq => exact absurd (List.cons.inj heq).1 hc
        · next heq => exact absurd (List.cons.inj heq).1 hc
        · rfl
    rw [List.cons_append, contents, hopen, ih h.2]
    rfl

theorem sectionAt_found (h : Tame text) (rest : List Char) :
    sectionAt heading (opening heading ++ (text ++ '\n' :: (closingFence ++ '\n' :: rest))) =
      some text := by
  have hdrop : (opening heading ++ (text ++ '\n' :: (closingFence ++ '\n' :: rest))).dropPrefix?
      (opening heading) = some (text ++ '\n' :: (closingFence ++ '\n' :: rest)) :=
    List.dropPrefix?_eq_some_iff.mpr ⟨_, rfl, beq_self_eq_true _⟩
  rw [sectionAt, hdrop]
  exact contents_tame h rest

/-- Among blocks that pass, a section is found as it was written, and once. -/
theorem laterSections_eq {before after : List (List Char)} (hhash : heading.head? = some '#')
    (hheading : Plain heading) (hbefore : ∀ block ∈ before, Passes heading block)
    (hafter : ∀ block ∈ after, Passes heading block) (htext : Passes heading text) :
    laterSections heading ('\n' :: unlines
      (before ++ heading :: openingFence :: text :: closingFence :: after)) = [text] := by
  have hfence : ∀ fence ∈ [openingFence, text, closingFence], Passes heading fence := by
    have hplain : ∀ fence : List Char, Plain fence → Opens fence → Passes heading fence :=
      fun fence hplain hopens => ⟨hplain.guarded, .inl hopens⟩
    intro fence hmem
    simp only [List.mem_cons, List.not_mem_nil, or_false] at hmem
    rcases hmem with rfl | rfl | rfl
    · exact hplain _ (by decide) (by rintro c ⟨⟩; decide)
    · exact htext
    · exact hplain _ (by decide) (by rintro c ⟨⟩; decide)
  have hsplit : unlines (before ++ heading :: openingFence :: text :: closingFence :: after) =
      unlines before ++ (opening heading ++ (text ++ '\n' :: (closingFence ++ '\n' ::
        unlines after))) := by
    simp [unlines, opening]
  have hrest : laterSections heading (opening heading ++ (text ++ '\n' :: (closingFence ++ '\n' ::
      unlines after))) = [] := by
    have hline : opening heading ++ (text ++ '\n' :: (closingFence ++ '\n' :: unlines after)) =
        heading ++ '\n' :: (unlines ([openingFence, text, closingFence] ++ after) ++ []) := by
      simp [unlines, opening]
    have hend : sectionAt heading [] = none := sectionAt_opens hhash (by rintro c ⟨⟩)
    rw [hline, laterSections_tame hhash hheading.guarded, laterSections_unlines hhash hheading]
    · rw [laterSections, if_pos rfl, hend]
      rfl
    · exact fun block hmem => (List.mem_append.mp hmem).elim (hfence block) (hafter block)
  rw [hsplit, laterSections_unlines hhash hheading hbefore, laterSections, if_pos rfl,
    sectionAt_found htext.1, hrest]
  rfl

end Search

end FailureResolver.FencedText
