import Mathlib.Data.List.Basic
import Mathlib.Data.List.Infix

/-!
Texts whose runs of blanks are collapsed to one separator, with none at the ends.
A segment of a text collapses to a segment of the collapsed text; where that one
begins and ends is told by how long the beginnings of the text collapse. Nothing
here depends on what the characters are.
-/

namespace FailureResolver.CollapsedText

section Pieces

variable {α : Type} {p : α → Bool} {sep c : α} {xs ys : List α}

def pieces (p : α → Bool) (xs : List α) : List (List α) :=
  (xs.splitOnP p).filter fun piece => !piece.isEmpty

def collapse (p : α → Bool) (sep : α) (xs : List α) : List α := [sep].intercalate (pieces p xs)

/-- What comes behind a character that is no blank: a blank in front of more
pieces stays as a separator. -/
def joint (p : α → Bool) (sep : α) (xs : List α) : List α :=
  if xs.head?.any p && !(collapse p sep xs).isEmpty then sep :: collapse p sep xs
  else collapse p sep xs

theorem splitOnP_append_cons (p : α → Bool) (xs ys : List α) (hc : p c = true) :
    (xs ++ c :: ys).splitOnP p = xs.splitOnP p ++ ys.splitOnP p := by
  induction xs with
  | nil =>
    rw [List.nil_append, List.splitOnP_cons_eq_if_modifyHead, if_pos hc, List.splitOnP_nil]
    rfl
  | cons d rest ih =>
    rw [List.cons_append, List.splitOnP_cons_eq_if_modifyHead, List.splitOnP_cons_eq_if_modifyHead,
      ih]
    by_cases hd : p d = true
    · rw [if_pos hd, if_pos hd]
      rfl
    · rw [if_neg hd, if_neg hd]
      cases hparts : rest.splitOnP p with
      | nil => exact absurd hparts (List.splitOnP_ne_nil p rest)
      | cons part parts => rfl

/-- No piece runs over a blank. -/
theorem pieces_append_cons (xs ys : List α) (hc : p c = true) :
    pieces p (xs ++ c :: ys) = pieces p xs ++ pieces p ys := by
  unfold pieces
  rw [splitOnP_append_cons p xs ys hc, List.filter_append]

theorem pieces_cons_blank (xs : List α) (hc : p c = true) : pieces p (c :: xs) = pieces p xs :=
  pieces_append_cons [] xs hc

/-- A character that is no blank begins a piece, or goes in front of the first one. -/
theorem pieces_cons (xs : List α) (hc : p c = false) :
    ∃ first rest, pieces p (c :: xs) = (c :: first) :: rest ∧
      pieces p xs = (if first.isEmpty then rest else first :: rest) ∧
      first.isEmpty = xs.head?.all p := by
  unfold pieces
  rw [List.splitOnP_cons_eq_if_modifyHead, if_neg (by simp [hc])]
  cases xs with
  | nil => exact ⟨[], [], by simp, by simp, rfl⟩
  | cons d more =>
    rw [List.splitOnP_cons_eq_if_modifyHead]
    by_cases hd : p d = true
    · rw [if_pos hd]
      exact ⟨[], _, rfl, by simp, by simp [hd]⟩
    · rw [if_neg hd]
      cases hparts : more.splitOnP p with
      | nil => exact absurd hparts (List.splitOnP_ne_nil p more)
      | cons part parts => exact ⟨d :: part, _, rfl, by simp, by simp [hd]⟩

theorem collapse_eq_nil : collapse p sep xs = [] ↔ pieces p xs = [] := by
  constructor
  · intro h
    cases hpieces : pieces p xs with
    | nil => rfl
    | cons piece rest =>
      have hmem : piece ∈ pieces p xs := by
        rw [hpieces]
        exact List.mem_cons_self
      have hne := (List.mem_filter.mp hmem).2
      unfold collapse at h
      rw [hpieces] at h
      cases piece with
      | nil => cases hne
      | cons d more =>
        cases rest with
        | nil =>
          rw [List.intercalate_singleton] at h
          cases h
        | cons next later =>
          rw [List.intercalate_cons_cons] at h
          cases h
  · intro h
    unfold collapse
    rw [h]
    rfl

theorem intercalate_cons_head (separator : List α) (first : List α) (rest : List (List α)) :
    separator.intercalate ((c :: first) :: rest) = c :: separator.intercalate (first :: rest) := by
  cases rest with
  | nil => rw [List.intercalate_singleton, List.intercalate_singleton]
  | cons next later =>
    rw [List.intercalate_cons_cons, List.intercalate_cons_cons]
    rfl

end Pieces

section Segments

variable {α : Type} {p : α → Bool} {sep c : α} {xs ys zs : List α}

theorem collapse_cons_blank (xs : List α) (hc : p c = true) :
    collapse p sep (c :: xs) = collapse p sep xs := by
  unfold collapse
  rw [pieces_cons_blank xs hc]

theorem collapse_cons (xs : List α) (hc : p c = false) :
    collapse p sep (c :: xs) = c :: joint p sep xs := by
  obtain ⟨first, rest, hpieces, hrest, hblank⟩ := pieces_cons xs hc
  have hleft : collapse p sep (c :: xs) = c :: [sep].intercalate (first :: rest) := by
    unfold collapse
    rw [hpieces, intercalate_cons_head]
  rw [hleft]
  congr 1
  unfold joint
  by_cases hfirst : first.isEmpty = true
  · rw [if_pos hfirst] at hrest
    have hnil : first = [] := List.isEmpty_iff.mp hfirst
    cases rest with
    | nil =>
      have hempty : collapse p sep xs = [] := collapse_eq_nil.mpr hrest
      simp [hempty, hnil]
    | cons next later =>
      have hcollapse : collapse p sep xs = [sep].intercalate (next :: later) := by
        rw [collapse, hrest]
      have hne : collapse p sep xs ≠ [] := by
        rw [ne_eq, collapse_eq_nil, hrest]
        exact List.cons_ne_nil _ _
      have hhead : xs.head?.any p = true := by
        cases xs with
        | nil => cases hrest
        | cons d more =>
          rw [hfirst] at hblank
          exact hblank.symm
      rw [if_pos (by simp [hhead, hne]), hcollapse, hnil, List.intercalate_cons_cons]
      rfl
  · have hcollapse : collapse p sep xs = [sep].intercalate (first :: rest) := by
      rw [collapse, hrest, if_neg hfirst]
    have hhead : xs.head?.any p = false := by
      cases xs with
      | nil => rfl
      | cons d more =>
        rw [Bool.not_eq_true, hblank] at hfirst
        exact hfirst
    rw [if_neg (by simp [hhead]), hcollapse]

/-- A collapsed text does not begin with a blank. -/
theorem collapse_head (xs : List α) : ∀ c, (collapse p sep xs).head? = some c → p c = false := by
  induction xs with
  | nil =>
    intro c hc
    cases hc
  | cons d rest ih =>
    by_cases hd : p d = true
    · rw [collapse_cons_blank rest hd]
      exact ih
    · rw [Bool.not_eq_true] at hd
      rw [collapse_cons rest hd]
      intro c hc
      cases hc
      exact hd

/-- Behind a character that is no blank, at most one separator stands between two
segments. -/
theorem joint_append {gap : List α} (xs ys : List α) (hgap : gap = [] ∨ gap = [sep])
    (hempty : collapse p sep xs = [] → gap = [])
    (h : collapse p sep (xs ++ ys) = collapse p sep xs ++ (gap ++ collapse p sep ys)) :
    ∃ gap', (gap' = [] ∨ gap' = [sep]) ∧
      joint p sep (xs ++ ys) = joint p sep xs ++ (gap' ++ collapse p sep ys) := by
  have hfresh : ∀ zs : List α, ∃ gap', (gap' = [] ∨ gap' = [sep]) ∧
      joint p sep zs = gap' ++ collapse p sep zs := by
    intro zs
    unfold joint
    split
    · exact ⟨[sep], .inr rfl, rfl⟩
    · exact ⟨[], .inl rfl, rfl⟩
  by_cases hnil : collapse p sep xs = []
  · have hwhole : collapse p sep (xs ++ ys) = collapse p sep ys := by
      rw [h, hnil, hempty hnil]
      rfl
    obtain ⟨gap', hgap', hjoint⟩ := hfresh (xs ++ ys)
    refine ⟨gap', hgap', ?_⟩
    rw [hjoint, hwhole]
    unfold joint
    simp [hnil]
  · have hxs : xs ≠ [] := by
      intro hxs
      rw [hxs] at hnil
      exact hnil rfl
    obtain ⟨d, rest, rfl⟩ := List.exists_cons_of_ne_nil hxs
    refine ⟨gap, hgap, ?_⟩
    unfold joint
    rw [h]
    by_cases hd : p d = true
    · rw [if_pos (by simp [hd, hnil]), if_pos (by simp [hd, hnil]), List.cons_append]
    · rw [if_neg (by simp [hd]), if_neg (by simp [hd])]

/-- Two segments collapse to two segments, with at most one separator between them. -/
theorem collapse_append (p : α → Bool) (sep : α) (xs ys : List α) :
    ∃ gap, (gap = [] ∨ gap = [sep]) ∧ (collapse p sep xs = [] → gap = []) ∧
      collapse p sep (xs ++ ys) = collapse p sep xs ++ (gap ++ collapse p sep ys) := by
  induction xs with
  | nil => exact ⟨[], .inl rfl, fun _ => rfl, rfl⟩
  | cons c rest ih =>
    obtain ⟨gap, hgap, hempty, h⟩ := ih
    by_cases hc : p c = true
    · refine ⟨gap, hgap, ?_, ?_⟩
      · rw [collapse_cons_blank rest hc]
        exact hempty
      · rw [List.cons_append, collapse_cons_blank _ hc, collapse_cons_blank _ hc, h]
    · rw [Bool.not_eq_true] at hc
      obtain ⟨gap', hgap', hjoint⟩ := joint_append rest ys hgap hempty h
      refine ⟨gap', hgap', fun hnil => ?_, ?_⟩
      · rw [collapse_cons rest hc] at hnil
        cases hnil
      · rw [List.cons_append, collapse_cons _ hc, collapse_cons _ hc, hjoint, List.cons_append]

/-- What stands in a segment of a text, and where that is in the whole: from where
the text before it ends to where the text up to its end does. -/
theorem infix_segment {needle : List α} (p : α → Bool) (xs ys zs : List α)
    (hneedle : needle.head? ≠ some sep) :
    needle <:+: collapse p sep ys ↔ ∃ i, needle <+: (collapse p sep (xs ++ ys ++ zs)).drop i ∧
      (collapse p sep xs).length ≤ i ∧
      i + needle.length ≤ (collapse p sep (xs ++ ys)).length := by
  obtain ⟨gap, hgap, -, hfront⟩ := collapse_append p sep xs ys
  obtain ⟨later, -, -, hwhole⟩ := collapse_append p sep (xs ++ ys) zs
  constructor
  · intro h
    obtain ⟨before, behind, hys⟩ := h
    refine ⟨(collapse p sep xs ++ gap ++ before).length, ?_, ?_, ?_⟩
    · have hsplit : collapse p sep (xs ++ ys ++ zs) = (collapse p sep xs ++ gap ++ before) ++
          (needle ++ (behind ++ (later ++ collapse p sep zs))) := by
        rw [hwhole, hfront, ← hys]
        simp only [List.append_assoc]
      rw [hsplit, List.drop_left]
      exact List.prefix_append _ _
    · simp only [List.length_append]
      omega
    · rw [hfront, ← hys]
      simp only [List.length_append]
      omega
  · intro h
    obtain ⟨i, hprefix, hstart, hstop⟩ := h
    have hfound : needle <+: (collapse p sep (xs ++ ys)).drop i := by
      rw [hwhole, List.drop_append_of_le_length (by omega)] at hprefix
      refine List.prefix_of_prefix_length_le hprefix (List.prefix_append _ _) ?_
      rw [List.length_drop]
      omega
    rw [hfront, List.drop_append, List.drop_eq_nil_of_le hstart, List.nil_append] at hfound
    rcases hgap with rfl | rfl
    · exact hfound.isInfix.trans (List.drop_suffix _ _).isInfix
    · cases hoffset : i - (collapse p sep xs).length with
      | zero =>
        -- the separator in front of the segment is no part of the needle
        rw [hoffset] at hfound
        cases needle with
        | nil => exact List.nil_infix
        | cons d rest =>
          obtain ⟨rfl, -⟩ := List.cons_prefix_cons.mp hfound
          exact absurd rfl hneedle
      | succ k =>
        rw [hoffset] at hfound
        exact hfound.isInfix.trans (List.drop_suffix k _).isInfix

end Segments

section Rewritten

variable {α : Type} {p : α → Bool} {sep : α} {f : α → List α}

/-- A rewriting of single characters that keeps every blank one blank. -/
def KeepsBlanks (p : α → Bool) (f : α → List α) : Prop :=
  ∀ c, p c = true → ∃ b, p b = true ∧ f c = [b]

theorem pieces_joint_flatMap (hf : KeepsBlanks p f) (hsep : p sep = true) (xs : List α) :
    pieces p ((joint p sep xs).flatMap f) = pieces p ((collapse p sep xs).flatMap f) := by
  unfold joint
  split
  · obtain ⟨b, hb, heq⟩ := hf sep hsep
    rw [List.flatMap_cons, heq]
    exact pieces_cons_blank _ hb
  · rfl

/-- Behind any text, a text is cut into the same pieces if it is collapsed before it
is rewritten. -/
theorem pieces_append_joint (hf : KeepsBlanks p f) (hsep : p sep = true) (before xs : List α) :
    pieces p (before ++ (joint p sep xs).flatMap f) = pieces p (before ++ xs.flatMap f) := by
  induction xs generalizing before with
  | nil => rfl
  | cons c rest ih =>
    by_cases hc : p c = true
    · have hrest : pieces p ((collapse p sep rest).flatMap f) = pieces p (rest.flatMap f) := by
        rw [← pieces_joint_flatMap hf hsep]
        exact ih []
      obtain ⟨b, hb, heq⟩ := hf c hc
      rw [List.flatMap_cons, heq, List.singleton_append, pieces_append_cons before _ hb, ← hrest]
      unfold joint
      rw [collapse_cons_blank rest hc]
      by_cases hnil : collapse p sep rest = []
      · rw [if_neg (by simp [hnil]), hnil, List.flatMap_nil, List.append_nil]
        exact (List.append_nil _).symm
      · obtain ⟨b', hb', heq'⟩ := hf sep hsep
        rw [if_pos (by simp [hc, hnil]), List.flatMap_cons, heq', List.singleton_append,
          pieces_append_cons before _ hb']
    · have hjoint : joint p sep (c :: rest) = c :: joint p sep rest := by
        rw [Bool.not_eq_true] at hc
        rw [← collapse_cons rest hc, joint, if_neg (by simp [hc])]
      rw [hjoint, List.flatMap_cons, List.flatMap_cons, ← List.append_assoc, ← List.append_assoc]
      exact ih _

/-- To collapse a text before it is rewritten changes nothing of the result. -/
theorem collapse_flatMap_collapse (hf : KeepsBlanks p f) (hsep : p sep = true) (xs : List α) :
    collapse p sep ((collapse p sep xs).flatMap f) = collapse p sep (xs.flatMap f) := by
  have hpieces : pieces p ((collapse p sep xs).flatMap f) = pieces p (xs.flatMap f) := by
    rw [← pieces_joint_flatMap hf hsep]
    exact pieces_append_joint hf hsep [] xs
  unfold collapse at hpieces ⊢
  rw [hpieces]

end Rewritten

end FailureResolver.CollapsedText
