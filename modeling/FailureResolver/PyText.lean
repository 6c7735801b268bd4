import FailureResolver.PrintableText
import Mathlib.Data.List.Basic
import Mathlib.Data.String.Basic

/-!
The text operations of the source language: stripping, line splitting and the
case mappings. Whitespace and line boundaries are the full Unicode sets. A case
mapping is exact on every character whose image is ASCII and leaves the others
alone, which decides every comparison with an ASCII word.
-/

namespace FailureResolver.PyText

open PrintableText

/-- A property of the characters of one list is decided on that list alone. -/
instance decidableForallChars {p : Char → Prop} [DecidablePred p] (text : List Char) :
    Decidable (∀ c ∈ text, p c) :=
  List.decidableBAll p text

/-- The characters that `str.strip` and `str.split` remove. -/
def isSpace (c : Char) : Bool :=
  let n := c.toNat
  (9 ≤ n && n ≤ 13) || (28 ≤ n && n ≤ 32) || n = 0x85 || n = 0xa0 || n = 0x1680 ||
    (0x2000 ≤ n && n ≤ 0x200a) || n = 0x2028 || n = 0x2029 || n = 0x202f || n = 0x205f ||
    n = 0x3000

/-- The characters that end a line for `str.splitlines`. -/
def isLineBreak (c : Char) : Bool :=
  let n := c.toNat
  (10 ≤ n && n ≤ 13) || (28 ≤ n && n ≤ 30) || n = 0x85 || n = 0x2028 || n = 0x2029

def stripChars (text : List Char) : List Char :=
  ((text.dropWhile isSpace).reverse.dropWhile isSpace).reverse

def strip (s : String) : String := String.ofList (stripChars s.toList)

/-- Split at line boundaries; a carriage return and a line feed end one line,
and a final boundary does not open an empty line. -/
def splitLinesFrom (line : List Char) : List Char → List (List Char)
  | [] => if line.isEmpty then [] else [line.reverse]
  | '\r' :: '\n' :: rest => line.reverse :: splitLinesFrom [] rest
  | c :: rest =>
      if isLineBreak c then line.reverse :: splitLinesFrom [] rest
      else splitLinesFrom (c :: line) rest

def splitLines (text : List Char) : List (List Char) := splitLinesFrom [] text

/-- `text.split(separator)` for a separator of one character. -/
def splitOnChar (separator : Char) : List Char → List (List Char)
  | [] => [[]]
  | c :: rest =>
      if c = separator then [] :: splitOnChar separator rest
      else match splitOnChar separator rest with
        | part :: parts => (c :: part) :: parts
        | [] => [[c]]

def lowerChar (c : Char) : Char :=
  if 'A' ≤ c ∧ c ≤ 'Z' then Char.ofNat (c.toNat + 32)
  else if c.toNat = 0x212a then 'k'
  else c

def lower (s : String) : String := String.ofList (s.toList.map lowerChar)

/-- The ligatures and letters outside ASCII that fold to ASCII letters. -/
def foldLigature (n : ℕ) : Option String :=
  match n with
  | 0xdf | 0x1e9e => some "ss"
  | 0x17f => some "s"
  | 0xfb00 => some "ff"
  | 0xfb01 => some "fi"
  | 0xfb02 => some "fl"
  | 0xfb03 => some "ffi"
  | 0xfb04 => some "ffl"
  | 0xfb05 | 0xfb06 => some "st"
  | _ => none

def casefoldChar (c : Char) : List Char :=
  match foldLigature c.toNat with
  | some s => s.toList
  | none => [lowerChar c]

def casefold (s : String) : String := String.ofList (s.toList.flatMap casefoldChar)

def upperChar (c : Char) : List Char :=
  if 'a' ≤ c ∧ c ≤ 'z' then [Char.ofNat (c.toNat - 32)]
  else if c.toNat = 0x131 then ['I']
  else if c.toNat = 0x1e9e then [c]
  else match foldLigature c.toNat with
    | some s => s.toList.map (fun d => Char.ofNat (d.toNat - 32))
    | none => [c]

def upper (s : String) : String := String.ofList (s.toList.flatMap upperChar)

def hexDigit (n : ℕ) : Char := if n < 10 then Char.ofNat (48 + n) else Char.ofNat (87 + n)

def hexValue (c : Char) : Option ℕ :=
  let n := c.toNat
  if 48 ≤ n ∧ n ≤ 57 then some (n - 48)
  else if 97 ≤ n ∧ n ≤ 102 then some (n - 87)
  else if 65 ≤ n ∧ n ≤ 70 then some (n - 55)
  else none

def hexText (digits n : ℕ) : List Char :=
  (List.range digits).reverse.map fun i => hexDigit (n / 16 ^ i % 16)

def reprChar (quote c : Char) : List Char :=
  if c = quote ∨ c = '\\' then ['\\', c]
  else if c = '\n' then ['\\', 'n']
  else if c = '\r' then ['\\', 'r']
  else if c = '\t' then ['\\', 't']
  else if isPrintable c then [c]
  else if c.toNat < 0x100 then '\\' :: 'x' :: hexText 2 c.toNat
  else if c.toNat < 0x10000 then '\\' :: 'u' :: hexText 4 c.toNat
  else '\\' :: 'U' :: hexText 8 c.toNat

def repr (s : String) : String :=
  let quote := if '\'' ∈ s.toList ∧ '"' ∉ s.toList then '"' else '\''
  String.ofList (quote :: (s.toList.flatMap (reprChar quote) ++ [quote]))

def isLowerHex (c : Char) : Bool := c.isDigit || ('a' ≤ c && c ≤ 'f')

def isHash (s : String) : Bool := s.length = 64 && s.toList.all isLowerHex

theorem isLowerHex_hexDigit : ∀ n < 16, isLowerHex (hexDigit n) = true := by decide

theorem hexValue_hexDigit : ∀ n < 16, hexValue (hexDigit n) = some n := by decide

/-- Trimmed and nonempty, as a text field of a contract has to be. -/
def Trimmed (s : String) : Prop := s ≠ "" ∧ strip s = s

instance (s : String) : Decidable (Trimmed s) := by
  unfold Trimmed
  infer_instance

theorem dropWhile_of_head {p : Char → Bool} {text : List Char}
    (h : ∀ c, text.head? = some c → p c = false) : text.dropWhile p = text := by
  cases text with
  | nil => rfl
  | cons c rest => simp [h c rfl]

theorem stripChars_of_ends {text : List Char}
    (hhead : ∀ c, text.head? = some c → isSpace c = false)
    (hlast : ∀ c, text.getLast? = some c → isSpace c = false) : stripChars text = text := by
  unfold stripChars
  rw [dropWhile_of_head hhead, dropWhile_of_head, List.reverse_reverse]
  intro c hc
  rw [List.head?_reverse] at hc
  exact hlast c hc

/-- A text without boundaries is one line. -/
theorem splitLinesFrom_plain (line text : List Char) (h : ∀ c ∈ text, isLineBreak c = false) :
    splitLinesFrom line text =
      if (line.reverse ++ text).isEmpty then [] else [line.reverse ++ text] := by
  induction text generalizing line with
  | nil =>
    cases line with
    | nil => rfl
    | cons c rest => simp [splitLinesFrom]
  | cons c rest ih =>
    have hc := h c (List.mem_cons_self ..)
    have hrest := ih (c :: line) (fun d hd => h d (List.mem_cons_of_mem _ hd))
    have hne : c ≠ '\r' := by
      rintro rfl
      simp [isLineBreak] at hc
    rw [splitLinesFrom.eq_def]
    split
    · next heq => cases heq
    · next heq => exact absurd (List.cons.inj heq).1 hne
    · next heq =>
      obtain ⟨rfl, rfl⟩ := List.cons.inj heq
      rw [hc, hrest]
      simp

/-- A line feed ends a line that has no boundary of its own. -/
theorem splitLinesFrom_line (line text rest : List Char)
    (h : ∀ c ∈ text, isLineBreak c = false) :
    splitLinesFrom line (text ++ '\n' :: rest) =
      (line.reverse ++ text) :: splitLinesFrom [] rest := by
  induction text generalizing line with
  | nil => simp [splitLinesFrom, isLineBreak]
  | cons c tail ih =>
    have hc := h c (List.mem_cons_self ..)
    have htail := ih (c :: line) (fun d hd => h d (List.mem_cons_of_mem _ hd))
    have hne : c ≠ '\r' := by
      rintro rfl
      simp [isLineBreak] at hc
    rw [List.cons_append, splitLinesFrom.eq_def]
    split
    · next heq => cases heq
    · next heq => exact absurd (List.cons.inj heq).1 hne
    · next heq =>
      obtain ⟨rfl, rfl⟩ := List.cons.inj heq
      rw [hc, htail]
      simp

/-- No line has a boundary in it. -/
theorem splitLinesFrom_no_break (line text : List Char) (h : ∀ c ∈ line, isLineBreak c = false) :
    ∀ part ∈ splitLinesFrom line text, ∀ c ∈ part, isLineBreak c = false := by
  induction line, text using splitLinesFrom.induct with
  | case1 line hempty =>
    rw [splitLinesFrom, if_pos hempty]
    simp
  | case2 line hempty =>
    rw [splitLinesFrom, if_neg hempty]
    intro part hpart c hc
    rw [List.mem_singleton.mp hpart] at hc
    exact h c (List.mem_reverse.mp hc)
  | case3 line rest ih =>
    rw [splitLinesFrom]
    refine List.forall_mem_cons.mpr ⟨fun c hc => h c (List.mem_reverse.mp hc), ih (by simp)⟩
  | case4 line c rest hcr hbreak ih =>
    rw [splitLinesFrom, if_pos hbreak]
    · exact List.forall_mem_cons.mpr ⟨fun c hc => h c (List.mem_reverse.mp hc), ih (by simp)⟩
    · exact hcr
  | case5 line c rest hcr hbreak ih =>
    rw [splitLinesFrom, if_neg hbreak]
    · exact ih (List.forall_mem_cons.mpr ⟨by simpa using hbreak, h⟩)
    · exact hcr

theorem splitLinesFrom_ne_nil (line text : List Char) (h : line ≠ [] ∨ text ≠ []) :
    splitLinesFrom line text ≠ [] := by
  induction line, text using splitLinesFrom.induct with
  | case1 line hempty =>
    rcases h with h | h
    · exact absurd (List.isEmpty_iff.mp hempty) h
    · exact absurd rfl h
  | case2 line hempty =>
    rw [splitLinesFrom, if_neg hempty]
    simp
  | case3 line rest ih =>
    rw [splitLinesFrom]
    simp
  | case4 line c rest hcr hbreak ih =>
    rw [splitLinesFrom, if_pos hbreak]
    · simp
    · exact hcr
  | case5 line c rest hcr hbreak ih =>
    rw [splitLinesFrom, if_neg hbreak]
    · exact ih (.inl (by simp))
    · exact hcr

/-- A boundary ends a line that has none of its own. -/
theorem splitLinesFrom_break (line text rest : List Char) {b : Char}
    (h : ∀ c ∈ text, isLineBreak c = false) (hb : isLineBreak b = true) :
    ∃ tail, splitLinesFrom line (text ++ b :: rest) = (line.reverse ++ text) :: tail := by
  induction text generalizing line with
  | nil =>
    rw [List.nil_append, List.append_nil, splitLinesFrom.eq_def]
    split
    · next heq => cases heq
    · next heq =>
      exact ⟨_, rfl⟩
    · next heq =>
      obtain ⟨rfl, rfl⟩ := List.cons.inj heq
      rw [if_pos hb]
      exact ⟨_, rfl⟩
  | cons c text ih =>
    have hc := h c (List.mem_cons_self ..)
    have hne : c ≠ '\r' := by
      rintro rfl
      simp [isLineBreak] at hc
    obtain ⟨tail, htail⟩ := ih (c :: line) (fun d hd => h d (List.mem_cons_of_mem _ hd))
    refine ⟨tail, ?_⟩
    rw [List.cons_append, splitLinesFrom.eq_def]
    split
    · next heq => cases heq
    · next heq => exact absurd (List.cons.inj heq).1 hne
    · next heq =>
      obtain ⟨rfl, rfl⟩ := List.cons.inj heq
      rw [hc, if_neg (by simp), htail]
      simp

/-- Every line boundary is whitespace. -/
theorem isSpace_of_isLineBreak {c : Char} (h : isLineBreak c = true) : isSpace c = true := by
  simp only [isLineBreak, isSpace, Bool.or_eq_true, Bool.and_eq_true, decide_eq_true_eq] at h ⊢
  omega

/-- Stripping a text that starts with no blank only cuts blanks from its end. -/
theorem stripChars_append {text : List Char}
    (hhead : ∀ c, text.head? = some c → isSpace c = false) :
    ∃ blanks, text = stripChars text ++ blanks ∧ ∀ c ∈ blanks, isSpace c = true := by
  unfold stripChars
  rw [dropWhile_of_head hhead]
  refine ⟨(text.reverse.takeWhile isSpace).reverse, ?_, fun c hc => ?_⟩
  · rw [← List.reverse_append, List.takeWhile_append_dropWhile, List.reverse_reverse]
  · exact List.all_eq_true.mp List.all_takeWhile c (List.mem_reverse.mp hc)

theorem dropWhile_head? (p : Char → Bool) (text : List Char) :
    ∀ c, (text.dropWhile p).head? = some c → p c = false := by
  intro c hc
  have hnot := List.head?_dropWhile_not p text
  rw [hc] at hnot
  exact hnot

theorem stripChars_stripChars (text : List Char) :
    stripChars (stripChars text) = stripChars text := by
  apply stripChars_of_ends
  · intro c hc
    obtain ⟨blanks, happend, -⟩ := stripChars_append (dropWhile_head? isSpace text)
    have hinner : stripChars (text.dropWhile isSpace) = stripChars text := by
      unfold stripChars
      rw [dropWhile_of_head (dropWhile_head? isSpace text)]
    rw [hinner] at happend
    apply dropWhile_head? isSpace text
    rw [happend, List.head?_append, hc]
    rfl
  · intro c hc
    unfold stripChars at hc
    rw [List.getLast?_reverse] at hc
    exact dropWhile_head? isSpace _ c hc

theorem strip_strip (s : String) : strip (strip s) = strip s := by
  simp only [strip, String.toList_ofList, stripChars_stripChars]

theorem splitOnChar_ne_nil (separator : Char) (text : List Char) :
    splitOnChar separator text ≠ [] := by
  cases text with
  | nil => exact List.cons_ne_nil _ _
  | cons c rest =>
    rw [splitOnChar]
    split
    · exact List.cons_ne_nil _ _
    · split
      · exact List.cons_ne_nil _ _
      · exact List.cons_ne_nil _ _

theorem splitOnChar_append (separator : Char) (text rest : List Char) :
    splitOnChar separator (text ++ separator :: rest) =
      splitOnChar separator text ++ splitOnChar separator rest := by
  induction text with
  | nil => simp [splitOnChar]
  | cons c text ih =>
    rw [List.cons_append, splitOnChar, splitOnChar, ih]
    by_cases hc : c = separator
    · rw [if_pos hc, if_pos hc, List.cons_append]
    · rw [if_neg hc, if_neg hc]
      cases hparts : splitOnChar separator text with
      | nil => exact absurd hparts (splitOnChar_ne_nil separator text)
      | cons part parts => rfl

end FailureResolver.PyText
