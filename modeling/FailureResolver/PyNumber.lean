import FailureResolver.DecimalText
import FailureResolver.PyText

/-!
Numbers read from free text, as the source language's number constructors read
them. Decimal digits of every script count, single underscores may stand between
digits, and blanks around the number are dropped. These texts are not limited to
the literals of `DecimalText`: leading zeros, a missing whole part and the names
of the special floats are read too.
-/

namespace FailureResolver.PyNumber

open BinaryFloat DecimalText PyText

/-- The zeros of the decimal scripts; the nine digits follow each of them. -/
def decimalZeros : List ℕ :=
  [0x30, 0x660, 0x6f0, 0x7c0, 0x966, 0x9e6, 0xa66, 0xae6, 0xb66, 0xbe6, 0xc66, 0xce6, 0xd66,
    0xde6, 0xe50, 0xed0, 0xf20, 0x1040, 0x1090, 0x17e0, 0x1810, 0x1946, 0x19d0, 0x1a80, 0x1a90,
    0x1b50, 0x1bb0, 0x1c40, 0x1c50, 0xa620, 0xa8d0, 0xa900, 0xa9d0, 0xa9f0, 0xaa50, 0xabf0,
    0xff10, 0x104a0, 0x10d30, 0x11066, 0x110f0, 0x11136, 0x111d0, 0x112f0, 0x11450, 0x114d0,
    0x11650, 0x116c0, 0x11730, 0x118e0, 0x11950, 0x11c50, 0x11d50, 0x11da0, 0x16a60, 0x16ac0,
    0x16b50, 0x1d7ce, 0x1d7d8, 0x1d7e2, 0x1d7ec, 0x1d7f6, 0x1e140, 0x1e2f0, 0x1e950, 0x1fbf0]

def asciiDigit (c : Char) : Option Char :=
  (decimalZeros.find? (fun first => first ≤ c.toNat && c.toNat ≤ first + 9)).map
    (fun first => Char.ofNat (48 + (c.toNat - first)))

/-- ASCII stays; other blanks become spaces, other digits ASCII digits. -/
def plainChar (c : Char) : Char :=
  if c.toNat < 128 then c
  else if isSpace c then ' '
  else (asciiDigit c).getD '?'

def isBlank (c : Char) : Bool := c = ' ' || (9 ≤ c.toNat && c.toNat ≤ 13)

def plainText (s : String) : List Char :=
  let text := s.toList.map plainChar
  ((text.dropWhile isBlank).reverse.dropWhile isBlank).reverse

/-- Drop underscores, each of which has to stand between two digits. -/
def dropUnderscores (isDigit : Char → Bool) (previous : Bool) : List Char → Option (List Char)
  | [] => some []
  | '_' :: c :: rest =>
      if previous && isDigit c then (dropUnderscores isDigit true rest).map (c :: ·) else none
  | '_' :: [] => none
  | c :: rest => (dropUnderscores isDigit (isDigit c) rest).map (c :: ·)

def splitSign : List Char → Bool × List Char
  | '-' :: rest => (true, rest)
  | '+' :: rest => (false, rest)
  | text => (false, text)

/-- `int(text, 10)`; `none` is the error. -/
def parseInt (maxDigits : ℕ) (s : String) : Option ℤ :=
  match dropUnderscores Char.isDigit false (plainText s) with
  | none => none
  | some text =>
      let (negative, digits) := splitSign text
      if digits.isEmpty || !digits.all Char.isDigit || maxDigits < digits.length then none
      else
        let n : ℤ := Nat.ofDigitChars 10 digits 0
        some (if negative then -n else n)

def specialFloat (negative : Bool) (name : String) : Option Binary64 :=
  match lower name with
  | "inf" | "infinity" => some (.infinity negative)
  | "nan" => some .nan
  | _ => none

def decimalLiteral (negative : Bool) (text : List Char) : Option Literal :=
  let whole := text.takeWhile Char.isDigit
  let afterWhole := text.dropWhile Char.isDigit
  let (fraction, afterFraction) := match afterWhole with
    | '.' :: rest => (rest.takeWhile Char.isDigit, rest.dropWhile Char.isDigit)
    | rest => ([], rest)
  if whole.isEmpty && fraction.isEmpty then none
  else
    let (exponent, rest) := scanExponent afterFraction
    if rest.isEmpty then some ⟨negative, whole, fraction, exponent⟩ else none

/-- `float(text)`; `none` is the error. -/
def parseFloat (s : String) : Option Binary64 :=
  match dropUnderscores Char.isDigit false (plainText s) with
  | none => none
  | some text =>
      let (negative, body) := splitSign text
      match specialFloat negative (String.ofList body) with
      | some x => some x
      | none => (decimalLiteral negative body).map Literal.floatValue

example : parseInt 4300 " -1_0 " = some (-10) := by decide +kernel

section Hexadecimal

def isHexDigit (c : Char) : Bool := (hexValue c).isSome

/-- The base may be named, with an underscore behind it. -/
def dropHexBase : List Char → List Char
  | '0' :: x :: '_' :: rest => if x = 'x' ∨ x = 'X' then rest else '0' :: x :: '_' :: rest
  | '0' :: x :: rest => if x = 'x' ∨ x = 'X' then rest else '0' :: x :: rest
  | text => text

def hexNumber (digits : List Char) : Option ℕ :=
  digits.foldlM (fun n c => (hexValue c).map (fun d => 16 * n + d)) 0

/-- `int(text, 16)`; `none` is the error. -/
def parseHex (s : String) : Option ℤ :=
  let (negative, body) := splitSign (plainText s)
  match dropUnderscores isHexDigit false (dropHexBase body) with
  | none => none
  | some digits =>
      if digits.isEmpty then none
      else (hexNumber digits).map (fun n : ℕ => if negative then -(n : ℤ) else (n : ℤ))

def hexFixed : ℕ → ℕ → List Char
  | 0, _ => []
  | k + 1, n => hexFixed k (n / 16) ++ [hexDigit (n % 16)]

theorem length_hexFixed (k n : ℕ) : (hexFixed k n).length = k := by
  induction k generalizing n with
  | zero => rfl
  | succ k ih => simp [hexFixed, ih]

theorem mem_hexFixed {k n : ℕ} {c : Char} (h : c ∈ hexFixed k n) : ∃ d < 16, c = hexDigit d := by
  induction k generalizing n with
  | zero => cases h
  | succ k ih =>
    rcases List.mem_append.mp h with h | h
    · exact ih h
    · exact ⟨n % 16, Nat.mod_lt _ (by decide), List.mem_singleton.mp h⟩

theorem hexNumber_hexFixed (k n : ℕ) : hexNumber (hexFixed k n) = some (n % 16 ^ k) := by
  induction k generalizing n with
  | zero => simp [hexFixed, hexNumber, Nat.mod_one]
  | succ k ih =>
    have hrest := ih (n / 16)
    unfold hexNumber at hrest ⊢
    rw [hexFixed, List.foldlM_append, hrest]
    have hlast : hexValue (hexDigit (n % 16)) = some (n % 16) :=
      hexValue_hexDigit _ (Nat.mod_lt _ (by decide))
    simp only [Option.bind_eq_bind, Option.bind_some, List.foldlM_cons, hlast, Option.map_some,
      List.foldlM_nil, Option.pure_def, Option.some.injEq]
    rw [pow_succ', Nat.mod_mul]
    omega

/-- What every digit of a fixed hexadecimal text is. -/
theorem hexDigit_plain : ∀ d < 16, plainChar (hexDigit d) = hexDigit d ∧
    isBlank (hexDigit d) = false ∧ isHexDigit (hexDigit d) = true ∧ hexDigit d ≠ '_' ∧
    hexDigit d ≠ '-' ∧ hexDigit d ≠ '+' ∧ hexDigit d ≠ 'x' ∧ hexDigit d ≠ 'X' := by
  decide

theorem dropUnderscores_plain {isDigit : Char → Bool} {text : List Char}
    (h : ∀ c ∈ text, c ≠ '_') (previous : Bool) :
    dropUnderscores isDigit previous text = some text := by
  induction text generalizing previous with
  | nil => rfl
  | cons c rest ih =>
    obtain ⟨hc, hrest⟩ := List.forall_mem_cons.mp h
    rw [dropUnderscores.eq_4 _ _ _ _ (fun _ _ hunder _ => hc hunder) (fun hunder _ => hc hunder),
      ih hrest]
    rfl

theorem plainText_hexFixed (k n : ℕ) : plainText (String.ofList (hexFixed k n)) = hexFixed k n := by
  have hplain : (hexFixed k n).map plainChar = hexFixed k n := by
    rw [List.map_congr_left (g := id) fun c hc => ?_, List.map_id]
    obtain ⟨d, hd, rfl⟩ := mem_hexFixed hc
    exact (hexDigit_plain d hd).1
  have hblank : ∀ c ∈ hexFixed k n, isBlank c = false := by
    intro c hc
    obtain ⟨d, hd, rfl⟩ := mem_hexFixed hc
    exact (hexDigit_plain d hd).2.1
  simp only [plainText, String.toList_ofList, hplain]
  rw [dropWhile_of_head fun c hc => hblank c (List.mem_of_mem_head? hc),
    dropWhile_of_head, List.reverse_reverse]
  intro c hc
  exact hblank c (List.mem_reverse.mp (List.mem_of_mem_head? hc))

theorem dropHexBase_plain {text : List Char} (h : ∀ c ∈ text, c ≠ 'x' ∧ c ≠ 'X') :
    dropHexBase text = text := by
  unfold dropHexBase
  split
  · next x rest =>
    have hx := h x (by simp)
    rw [if_neg (by simpa using hx)]
  · next x rest _ =>
    have hx := h x (by simp)
    rw [if_neg (by simpa using hx)]
  · rfl

/-- A fixed text of hexadecimal digits is read back. -/
theorem parseHex_hexFixed {k n : ℕ} (hn : n < 16 ^ (k + 1)) :
    parseHex (String.ofList (hexFixed (k + 1) n)) = some (n : ℤ) := by
  have hdigit : ∀ c ∈ hexFixed (k + 1) n, c ≠ '_' ∧ c ≠ '-' ∧ c ≠ '+' ∧ c ≠ 'x' ∧ c ≠ 'X' := by
    intro c hc
    obtain ⟨d, hd, rfl⟩ := mem_hexFixed hc
    exact (hexDigit_plain d hd).2.2.2
  have hsign : splitSign (hexFixed (k + 1) n) = (false, hexFixed (k + 1) n) := by
    cases htext : hexFixed (k + 1) n with
    | nil => rfl
    | cons c rest =>
      have hc := hdigit c (by simp [htext])
      unfold splitSign
      split
      · next heq => exact absurd (List.cons.inj heq).1 hc.2.1
      · next heq => exact absurd (List.cons.inj heq).1 hc.2.2.1
      · rfl
  have hne : (hexFixed (k + 1) n).isEmpty = false := by
    rw [List.isEmpty_eq_false_iff_exists_mem]
    exact ⟨hexDigit (n % 16), by simp [hexFixed]⟩
  unfold parseHex
  rw [plainText_hexFixed, hsign]
  simp only
  rw [dropHexBase_plain fun c hc => (hdigit c hc).2.2.2,
    dropUnderscores_plain fun c hc => (hdigit c hc).1]
  simp only [hne, hexNumber_hexFixed, Nat.mod_eq_of_lt hn, Option.map_some, Bool.false_eq_true,
    if_false]

end Hexadecimal

end FailureResolver.PyNumber
