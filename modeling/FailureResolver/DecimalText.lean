import FailureResolver.BinaryFloat
import Mathlib.Data.List.TakeWhile

/-!
Decimal number literals: an optional sign, a whole part without a leading
zero, a fraction and an exponent. An integer is written with its digits, a
float with the fewest significant digits that round back to it. The literal
that is written scans back to itself, and its exact value rounds to the float.
-/

namespace FailureResolver.DecimalText

open BinaryFloat

/-- An empty fraction is an absent one. -/
structure Literal where
  negative : Bool
  whole : List Char
  fraction : List Char
  exponent : Option (Bool × List Char)
  deriving DecidableEq

namespace Literal

def isInteger (l : Literal) : Bool := l.fraction.isEmpty && l.exponent.isNone

def exponentValue : Option (Bool × List Char) → ℤ
  | none => 0
  | some (true, ds) => -(Nat.ofDigitChars 10 ds 0 : ℤ)
  | some (false, ds) => (Nat.ofDigitChars 10 ds 0 : ℤ)

def value (l : Literal) : ℚ :=
  (Nat.ofDigitChars 10 (l.whole ++ l.fraction) 0 : ℚ) *
    (10 : ℚ) ^ (exponentValue l.exponent - l.fraction.length)

def signText (negative : Bool) : List Char := if negative then ['-'] else []

def fractionText (fraction : List Char) : List Char :=
  if fraction.isEmpty then [] else '.' :: fraction

def exponentText : Option (Bool × List Char) → List Char
  | none => []
  | some (true, ds) => 'e' :: '-' :: ds
  | some (false, ds) => 'e' :: '+' :: ds

def text (l : Literal) : List Char :=
  signText l.negative ++ (l.whole ++ (fractionText l.fraction ++ exponentText l.exponent))

/-- Digits where digits stand, no leading zero and no empty exponent. -/
structure WellFormed (l : Literal) : Prop where
  whole_digits : ∀ c ∈ l.whole, c.isDigit
  whole_shape : l.whole = ['0'] ∨ ∃ c rest, l.whole = c :: rest ∧ c ≠ '0'
  fraction_digits : ∀ c ∈ l.fraction, c.isDigit
  exponent_digits : ∀ b ds, l.exponent = some (b, ds) → ds ≠ [] ∧ ∀ c ∈ ds, c.isDigit

end Literal

/-- The whole part: a single zero, or digits that do not start with one. -/
def scanWhole : List Char → Option (List Char × List Char)
  | [] => none
  | c :: rest =>
      if c = '0' then some (['0'], rest)
      else if c.isDigit then
        some ((c :: rest).takeWhile Char.isDigit, (c :: rest).dropWhile Char.isDigit)
      else none

def scanFraction : List Char → List Char × List Char
  | '.' :: rest =>
      if (rest.takeWhile Char.isDigit).isEmpty then ([], '.' :: rest)
      else (rest.takeWhile Char.isDigit, rest.dropWhile Char.isDigit)
  | text => ([], text)

/-- The digits after an exponent marker; without any the marker is not read. -/
def scanExponentDigits (negative : Bool) (digits whole : List Char) :
    Option (Bool × List Char) × List Char :=
  if (digits.takeWhile Char.isDigit).isEmpty then (none, whole)
  else (some (negative, digits.takeWhile Char.isDigit), digits.dropWhile Char.isDigit)

def scanExponent : List Char → Option (Bool × List Char) × List Char
  | [] => (none, [])
  | c :: rest =>
      if c = 'e' ∨ c = 'E' then
        match rest with
        | '-' :: digits => scanExponentDigits true digits (c :: rest)
        | '+' :: digits => scanExponentDigits false digits (c :: rest)
        | digits => scanExponentDigits false digits (c :: rest)
      else (none, c :: rest)

def scanSign : List Char → Bool × List Char
  | '-' :: rest => (true, rest)
  | text => (false, text)

/-- The longest number literal at the start of a text. -/
def scan (text : List Char) : Option (Literal × List Char) :=
  let sign := scanSign text
  match scanWhole sign.2 with
  | none => none
  | some (whole, afterWhole) =>
      let fraction := scanFraction afterWhole
      let exponent := scanExponent fraction.2
      some (⟨sign.1, whole, fraction.1, exponent.1⟩, exponent.2)

def Stops (rest : List Char) : Prop :=
  ∀ c, rest.head? = some c → ¬ c.isDigit ∧ c ≠ '.' ∧ c ≠ 'e' ∧ c ≠ 'E'

theorem takeWhile_digits {ds rest : List Char} (hds : ∀ c ∈ ds, c.isDigit)
    (hrest : ∀ c, rest.head? = some c → ¬ c.isDigit) :
    (ds ++ rest).takeWhile Char.isDigit = ds ∧ (ds ++ rest).dropWhile Char.isDigit = rest := by
  have hstop : rest.takeWhile Char.isDigit = [] ∧ rest.dropWhile Char.isDigit = rest := by
    cases rest with
    | nil => simp
    | cons c tail =>
      have hc := hrest c rfl
      simp [hc]
  constructor
  · rw [List.takeWhile_append_of_pos hds, hstop.1, List.append_nil]
  · rw [List.dropWhile_append_of_pos hds, hstop.2]

theorem scanWhole_text {whole rest : List Char} (hdigits : ∀ c ∈ whole, c.isDigit)
    (hshape : whole = ['0'] ∨ ∃ c tail, whole = c :: tail ∧ c ≠ '0')
    (hrest : ∀ c, rest.head? = some c → ¬ c.isDigit) :
    scanWhole (whole ++ rest) = some (whole, rest) := by
  rcases hshape with rfl | ⟨c, tail, rfl, hc⟩
  · rfl
  · have hspan := takeWhile_digits hdigits hrest
    have hdigit : c.isDigit := hdigits c (List.mem_cons_self ..)
    rw [List.cons_append] at hspan ⊢
    simp only [scanWhole, if_neg hc, if_pos hdigit, hspan.1, hspan.2]

theorem scanFraction_text {fraction rest : List Char} (hdigits : ∀ c ∈ fraction, c.isDigit)
    (hrest : ∀ c, rest.head? = some c → ¬ c.isDigit ∧ c ≠ '.') :
    scanFraction (Literal.fractionText fraction ++ rest) = (fraction, rest) := by
  cases fraction with
  | nil =>
    cases rest with
    | nil => rfl
    | cons c tail =>
      have hc := (hrest c rfl).2
      simp [Literal.fractionText, scanFraction, hc]
  | cons d ds =>
    have hspan := takeWhile_digits hdigits (fun c hc => (hrest c hc).1)
    simp only [Literal.fractionText, List.isEmpty_cons, Bool.false_eq_true, if_false,
      List.cons_append, scanFraction] at hspan ⊢
    simp [hspan.1, hspan.2]

theorem scanExponent_text {exponent : Option (Bool × List Char)} {rest : List Char}
    (hdigits : ∀ b ds, exponent = some (b, ds) → ds ≠ [] ∧ ∀ c ∈ ds, c.isDigit)
    (hrest : ∀ c, rest.head? = some c → ¬ c.isDigit ∧ c ≠ 'e' ∧ c ≠ 'E') :
    scanExponent (Literal.exponentText exponent ++ rest) = (exponent, rest) := by
  cases exponent with
  | none =>
    cases rest with
    | nil => rfl
    | cons c tail =>
      have hc := (hrest c rfl).2
      simp [Literal.exponentText, scanExponent, hc.1, hc.2]
  | some pair =>
    obtain ⟨negative, ds⟩ := pair
    obtain ⟨hne, hds⟩ := hdigits negative ds rfl
    have hspan := takeWhile_digits hds (fun c hc => (hrest c hc).1)
    have hempty : ds.isEmpty = false := by simpa using hne
    cases negative <;>
      simp [Literal.exponentText, scanExponent, scanExponentDigits, hspan.1, hspan.2, hempty]

/-- The start of a written exponent is not a digit and not a point. -/
theorem head_exponentText (exponent : Option (Bool × List Char)) {rest : List Char}
    (hrest : Stops rest) (c : Char)
    (hc : (Literal.exponentText exponent ++ rest).head? = some c) : ¬ c.isDigit ∧ c ≠ '.' := by
  cases exponent with
  | none => exact ⟨(hrest c hc).1, (hrest c hc).2.1⟩
  | some pair =>
    obtain ⟨negative, ds⟩ := pair
    have he : c = 'e' := by
      cases negative <;> simpa [Literal.exponentText] using hc.symm
    subst he
    decide

theorem head_fractionText (fraction : List Char) (exponent : Option (Bool × List Char))
    {rest : List Char} (hrest : Stops rest) (c : Char)
    (hc : (Literal.fractionText fraction ++
      (Literal.exponentText exponent ++ rest)).head? = some c) : ¬ c.isDigit := by
  cases fraction with
  | nil => exact (head_exponentText exponent hrest c hc).1
  | cons d ds =>
    have hpoint : c = '.' := by simpa [Literal.fractionText] using hc.symm
    subst hpoint
    decide

theorem scanSign_text (negative : Bool) {whole : List Char} (rest : List Char)
    (hdigits : ∀ c ∈ whole, c.isDigit) (hne : whole ≠ []) :
    scanSign (Literal.signText negative ++ (whole ++ rest)) = (negative, whole ++ rest) := by
  cases negative with
  | true => rfl
  | false =>
    cases whole with
    | nil => exact absurd rfl hne
    | cons c tail =>
      have hc : c ≠ '-' := by
        rintro rfl
        exact absurd (hdigits '-' (List.mem_cons_self ..)) (by decide)
      simp [Literal.signText, scanSign, hc]

theorem Literal.WellFormed.whole_ne_nil {l : Literal} (hl : l.WellFormed) : l.whole ≠ [] := by
  rcases hl.whole_shape with h | ⟨c, rest, h, -⟩ <;> simp [h]

/-- A well-formed literal scans back to itself. -/
theorem scan_text {l : Literal} (hl : l.WellFormed) {rest : List Char} (hrest : Stops rest) :
    scan (l.text ++ rest) = some (l, rest) := by
  have hE := scanExponent_text hl.exponent_digits
    (fun c hc => ⟨(hrest c hc).1, (hrest c hc).2.2⟩)
  have hF := scanFraction_text hl.fraction_digits
    (head_exponentText l.exponent hrest)
  have hW := scanWhole_text hl.whole_digits hl.whole_shape
    (head_fractionText l.fraction l.exponent hrest)
  have hS := scanSign_text l.negative
    (Literal.fractionText l.fraction ++ (Literal.exponentText l.exponent ++ rest))
    hl.whole_digits hl.whole_ne_nil
  simp only [Literal.text, List.append_assoc, scan, hS, hW, hF, hE]

section Integers

/-- The decimal digits of an integer, as `int.__repr__` writes them. -/
def intLiteral (n : ℤ) : Literal :=
  ⟨decide (n < 0), Nat.toDigits 10 n.natAbs, [], none⟩

def intText (n : ℤ) : List Char := (intLiteral n).text

def Literal.intValue (l : Literal) : ℤ :=
  if l.negative then -(Nat.ofDigitChars 10 l.whole 0 : ℤ) else Nat.ofDigitChars 10 l.whole 0

theorem toDigits_digits (n : ℕ) : ∀ c ∈ Nat.toDigits 10 n, c.isDigit :=
  fun _ hc => Nat.isDigit_of_mem_toDigits (by omega) (by omega) hc

theorem digitChar_ne_zero : ∀ d < 10, d ≠ 0 → Nat.digitChar d ≠ '0' := by decide

/-- No positive number is written with a leading zero. -/
theorem toDigits_shape (n : ℕ) (hn : n ≠ 0) :
    ∃ c rest, Nat.toDigits 10 n = c :: rest ∧ c ≠ '0' := by
  induction n using Nat.strong_induction_on with
  | h n ih =>
    by_cases hlt : n < 10
    · exact ⟨Nat.digitChar n, [], Nat.toDigits_of_lt_base hlt, digitChar_ne_zero n hlt hn⟩
    · obtain ⟨c, rest, heq, hc⟩ := ih (n / 10) (by omega) (by omega)
      refine ⟨c, rest ++ [Nat.digitChar (n % 10)], ?_, hc⟩
      rw [Nat.toDigits_of_base_le (by omega) (by omega), heq, List.cons_append]

theorem intLiteral_wellFormed (n : ℤ) : (intLiteral n).WellFormed where
  whole_digits := toDigits_digits n.natAbs
  whole_shape := by
    by_cases hn : n.natAbs = 0
    · left
      simp [intLiteral, hn]
    · exact Or.inr (toDigits_shape n.natAbs hn)
  fraction_digits := by simp [intLiteral]
  exponent_digits := by simp [intLiteral]

theorem intLiteral_isInteger (n : ℤ) : (intLiteral n).isInteger = true := rfl

theorem intLiteral_intValue (n : ℤ) : (intLiteral n).intValue = n := by
  simp only [Literal.intValue, intLiteral, Nat.ofDigitChars_ten_toDigits, decide_eq_true_eq]
  split <;> omega

end Integers

section Floats

/-- Which decimals `d * 10 ^ k` round to the given pair. -/
def RoundsTo (target : ℕ × ℤ) (d : ℕ) (k : ℤ) : Prop :=
  roundMagnitude ((d : ℚ) * (10 : ℚ) ^ k) = some target

instance (target : ℕ × ℤ) (d : ℕ) (k : ℤ) : Decidable (RoundsTo target d k) :=
  inferInstanceAs (Decidable (_ = _))

/-- The decimal with `n` significant digits closest to `q` among the two
neighbours that round to the target, if one does. -/
def decimalWith (target : ℕ × ℤ) (q : ℚ) (n : ℕ) : Option (ℕ × ℤ) :=
  let k := Int.log 10 q + 1 - n
  let scaled := q / (10 : ℚ) ^ k
  let below := ⌊scaled⌋₊
  if RoundsTo target below k then
    if RoundsTo target (below + 1) k ∧ roundHalfEven scaled = below + 1 then some (below + 1, k)
    else some (below, k)
  else if RoundsTo target (below + 1) k then some (below + 1, k)
  else none

def exactDecimal (m : ℕ) (e : ℤ) : ℕ × ℤ :=
  if 0 ≤ e then (m * 2 ^ e.toNat, 0) else (m * 5 ^ (-e).toNat, e)

/-- The shortest decimal that rounds to the pair. Seventeen digits always
suffice; the exact expansion only makes the search total. -/
def shortestDecimal (m : ℕ) (e : ℤ) : ℕ × ℤ :=
  ((List.range 17).findSome? (fun i => decimalWith (m, e) (magnitude m e) (i + 1))).getD
    (exactDecimal m e)

theorem decimalWith_roundsTo {target : ℕ × ℤ} {q : ℚ} {n d : ℕ} {k : ℤ}
    (h : decimalWith target q n = some (d, k)) : RoundsTo target d k := by
  simp only [decimalWith] at h
  split_ifs at h with hbelow habove habove
  · simp only [Option.some.injEq, Prod.mk.injEq] at h
    obtain ⟨rfl, rfl⟩ := h
    exact habove.1
  · simp only [Option.some.injEq, Prod.mk.injEq] at h
    obtain ⟨rfl, rfl⟩ := h
    exact hbelow
  · simp only [Option.some.injEq, Prod.mk.injEq] at h
    obtain ⟨rfl, rfl⟩ := h
    exact habove

theorem exactDecimal_value (m : ℕ) (e : ℤ) :
    ((exactDecimal m e).1 : ℚ) * (10 : ℚ) ^ (exactDecimal m e).2 = magnitude m e := by
  unfold exactDecimal magnitude
  split
  · next he =>
    obtain ⟨n, rfl⟩ := Int.eq_ofNat_of_zero_le he
    simp
  · next he =>
    obtain ⟨n, hn⟩ : ∃ n : ℕ, e = -(n : ℤ) := ⟨(-e).toNat, by omega⟩
    subst hn
    have h10 : (10 : ℚ) ^ n = 2 ^ n * 5 ^ n := by
      rw [← mul_pow]
      norm_num
    simp only [neg_neg, Int.toNat_natCast, Nat.cast_mul, Nat.cast_pow, Nat.cast_ofNat, zpow_neg,
      zpow_natCast, h10]
    field_simp

theorem shortestDecimal_roundsTo {m : ℕ} {e : ℤ} (h : Canonical m e) :
    RoundsTo (m, e) (shortestDecimal m e).1 (shortestDecimal m e).2 := by
  unfold shortestDecimal
  cases hfind : (List.range 17).findSome?
      (fun i => decimalWith (m, e) (magnitude m e) (i + 1)) with
  | none =>
    simp only [Option.getD_none, RoundsTo, exactDecimal_value]
    exact roundMagnitude_magnitude h
  | some pair =>
    obtain ⟨i, -, hi⟩ := List.exists_of_findSome?_eq_some hfind
    exact decimalWith_roundsTo hi

/-- Trailing zeros of a digit text move into the exponent. -/
def significant (ds : List Char) : List Char :=
  (ds.reverse.dropWhile (fun c => decide (c = '0'))).reverse

def trailingZeros (ds : List Char) : ℕ :=
  (ds.reverse.takeWhile (fun c => decide (c = '0'))).length

theorem significant_append (ds : List Char) :
    significant ds ++ List.replicate (trailingZeros ds) '0' = ds := by
  have hzeros : ds.reverse.takeWhile (fun c => decide (c = '0')) =
      List.replicate (trailingZeros ds) '0' := by
    apply List.eq_replicate_iff.mpr
    refine ⟨rfl, fun c hc => ?_⟩
    simpa using List.mem_takeWhile_imp hc
  have hsplit := List.takeWhile_append_dropWhile (p := fun c => decide (c = '0'))
    (l := ds.reverse)
  rw [hzeros] at hsplit
  have hrev := congrArg List.reverse hsplit
  simpa [significant] using hrev

/-- The literal `0.d₁d₂… * 10 ^ point`: plain notation for a decimal point
near the digits, else one digit before the point and an exponent. -/
def placePoint (negative : Bool) (ds : List Char) (point : ℤ) : Literal :=
  if -4 < point ∧ point ≤ 16 then
    if point ≤ 0 then ⟨negative, ['0'], List.replicate (-point).toNat '0' ++ ds, none⟩
    else if (ds.length : ℤ) ≤ point then
      ⟨negative, ds ++ List.replicate (point.toNat - ds.length) '0', ['0'], none⟩
    else ⟨negative, ds.take point.toNat, ds.drop point.toNat, none⟩
  else
    let power := (point - 1).natAbs
    let digits := if power < 10 then '0' :: Nat.toDigits 10 power else Nat.toDigits 10 power
    ⟨negative, ds.take 1, ds.drop 1, some (decide (point - 1 < 0), digits)⟩

/-- What `float.__repr__` writes for a finite value. -/
def floatLiteral (x : Finite) : Literal :=
  if x.mantissa = 0 then ⟨x.negative, ['0'], ['0'], none⟩
  else
    let decimal := shortestDecimal x.mantissa x.exponent
    let ds := Nat.toDigits 10 decimal.1
    placePoint x.negative (significant ds) ((ds.length : ℤ) + decimal.2)

def floatText (x : Finite) : List Char := (floatLiteral x).text

theorem Literal.value_nonneg (l : Literal) : 0 ≤ l.value := by
  unfold Literal.value
  positivity

def Literal.floatValue (l : Literal) : Binary64 :=
  ofMagnitude l.negative l.value l.value_nonneg

theorem significant_digits {ds : List Char} (h : ∀ c ∈ ds, c.isDigit) :
    ∀ c ∈ significant ds, c.isDigit := by
  intro c hc
  apply h
  rw [← significant_append ds]
  exact List.mem_append_left _ hc

/-- A digit text that does not start with a zero keeps its first digit. -/
theorem significant_shape {ds : List Char} (h : ∃ c rest, ds = c :: rest ∧ c ≠ '0') :
    ∃ c rest, significant ds = c :: rest ∧ c ≠ '0' := by
  obtain ⟨c, rest, hds, hc⟩ := h
  have hsplit := significant_append ds
  cases hsig : significant ds with
  | nil =>
    rw [hsig, List.nil_append, hds] at hsplit
    have hmem : c ∈ List.replicate (trailingZeros ds) '0' := by
      rw [← hds] at hsplit
      rw [hsplit, hds]
      exact List.mem_cons_self ..
    exact absurd (List.eq_of_mem_replicate hmem) hc
  | cons d tail =>
    rw [hsig, hds, List.cons_append] at hsplit
    exact ⟨d, tail, rfl, by rw [(List.cons.inj hsplit).1]; exact hc⟩

theorem significant_value (ds : List Char) :
    (Nat.ofDigitChars 10 ds 0 : ℚ) =
      (Nat.ofDigitChars 10 (significant ds) 0 : ℚ) * (10 : ℚ) ^ (trailingZeros ds : ℤ) := by
  conv_lhs => rw [← significant_append ds]
  rw [Nat.ofDigitChars_append, Nat.ofDigitChars_replicate_zero, zpow_natCast]
  push_cast
  ring

theorem length_significant (ds : List Char) :
    (significant ds).length + trailingZeros ds = ds.length := by
  have h := congrArg List.length (significant_append ds)
  simpa using h

/-- Wherever the point is placed the literal denotes the same decimal. -/
theorem placePoint_value (negative : Bool) (ds : List Char) (point : ℤ) :
    (placePoint negative ds point).value =
      (Nat.ofDigitChars 10 ds 0 : ℚ) * (10 : ℚ) ^ (point - ds.length) := by
  unfold placePoint
  split
  · split
    · next hfixed hpoint =>
      simp only [Literal.value, Literal.exponentValue, List.cons_append, List.nil_append,
        Nat.ofDigitChars_cons, Nat.ofDigitChars_append, Nat.ofDigitChars_replicate_zero,
        List.length_append, List.length_replicate]
      have hexp : (0 : ℤ) - (((-point).toNat + ds.length : ℕ) : ℤ) = point - ds.length := by
        push_cast
        omega
      rw [hexp]
      simp
    · split
      · next hfixed hpos hlen =>
        simp only [Literal.value, Literal.exponentValue, Nat.ofDigitChars_append,
          Nat.ofDigitChars_replicate_zero, List.length_cons, List.length_nil]
        have hdigit : ∀ n : ℕ, Nat.ofDigitChars 10 ['0'] n = 10 * n := by
          intro n
          simp [Nat.ofDigitChars_cons]
        have hexp : point - ds.length = ((point.toNat - ds.length : ℕ) : ℤ) := by omega
        rw [hdigit, hexp, zpow_natCast]
        push_cast
        field_simp
      · next hfixed hpos hlen =>
        simp only [Literal.value, Literal.exponentValue, List.take_append_drop, List.length_drop]
        have hexp : (0 : ℤ) - ((ds.length - point.toNat : ℕ) : ℤ) = point - ds.length := by
          omega
        rw [hexp]
  · next hfixed =>
    have hpower : ∀ n : ℕ, Nat.ofDigitChars 10
        (if n < 10 then '0' :: Nat.toDigits 10 n else Nat.toDigits 10 n) 0 = n := by
      intro n
      split <;> simp [Nat.ofDigitChars_cons]
    have hlength : ((ds.drop 1).length : ℤ) = ds.length - 1 ∨ ds = [] := by
      cases ds with
      | nil => exact Or.inr rfl
      | cons d rest => left; simp
    rcases hlength with hlength | rfl
    · simp only [Literal.value, List.take_append_drop, hlength]
      congr 2
      by_cases hneg : point - 1 < 0
      · simp only [hneg, decide_true, Literal.exponentValue, hpower]
        omega
      · simp only [hneg, decide_false, Literal.exponentValue, hpower]
        omega
    · simp [Literal.value]

theorem placePoint_wellFormed (negative : Bool) {ds : List Char} (point : ℤ)
    (hdigits : ∀ c ∈ ds, c.isDigit) (hshape : ∃ c rest, ds = c :: rest ∧ c ≠ '0') :
    (placePoint negative ds point).WellFormed := by
  have hzero : ∀ n, ∀ c ∈ List.replicate n '0', c.isDigit := by
    intro n c hc
    rw [List.eq_of_mem_replicate hc]
    decide
  obtain ⟨c, rest, hds, hc⟩ := hshape
  unfold placePoint
  split
  · split
    · exact ⟨by simp, Or.inl rfl, by
        intro c hc
        rcases List.mem_append.mp hc with h | h
        · exact hzero _ c h
        · exact hdigits c h, by simp⟩
    · split
      · refine ⟨?_, Or.inr ⟨c, rest ++ List.replicate (point.toNat - ds.length) '0', ?_, hc⟩,
          by simp, by simp⟩
        · intro c hc
          rcases List.mem_append.mp hc with h | h
          · exact hdigits c h
          · exact hzero _ c h
        · rw [hds]
          rfl
      · next hfixed hpos hlen =>
        refine ⟨fun c hc => hdigits c (List.mem_of_mem_take hc), Or.inr ?_,
          fun c hc => hdigits c (List.mem_of_mem_drop hc), by simp⟩
        obtain ⟨n, hn⟩ : ∃ n, point.toNat = n + 1 := ⟨point.toNat - 1, by omega⟩
        exact ⟨c, rest.take n, by rw [hds, hn]; rfl, hc⟩
  · refine ⟨fun c hc => hdigits c (List.mem_of_mem_take hc), Or.inr ⟨c, [], by rw [hds]; rfl, hc⟩,
      fun c hc => hdigits c (List.mem_of_mem_drop hc), ?_⟩
    intro b digits h
    simp only [Option.some.injEq, Prod.mk.injEq] at h
    obtain ⟨-, rfl⟩ := h
    split
    · refine ⟨by simp, fun c hc => ?_⟩
      rcases List.mem_cons.mp hc with rfl | h
      · decide
      · exact toDigits_digits _ c h
    · exact ⟨Nat.toDigits_ne_nil, toDigits_digits _⟩

theorem placePoint_not_integer (negative : Bool) {ds : List Char} (hds : ds ≠ []) (point : ℤ) :
    (placePoint negative ds point).isInteger = false := by
  unfold placePoint
  split
  · split
    · simp [Literal.isInteger, hds]
    · split
      · simp [Literal.isInteger]
      · next hfixed hpos hlen =>
        have hdrop : ds.drop point.toNat ≠ [] := by
          intro h
          have := List.drop_eq_nil_iff.mp h
          omega
        simp only [Literal.isInteger, Option.isNone_none, Bool.and_true]
        simpa using hdrop
  · simp [Literal.isInteger]

theorem shortestDecimal_ne_zero {m : ℕ} {e : ℤ} (h : Canonical m e) (hm : m ≠ 0) :
    (shortestDecimal m e).1 ≠ 0 := by
  intro hzero
  have hrounds := shortestDecimal_roundsTo h
  rw [hzero] at hrounds
  simp only [RoundsTo, Nat.cast_zero, zero_mul, roundMagnitude, if_true, Option.some.injEq,
    Prod.mk.injEq] at hrounds
  exact hm hrounds.1.symm

theorem floatLiteral_wellFormed (x : Finite) : (floatLiteral x).WellFormed := by
  unfold floatLiteral
  split
  · exact ⟨by simp, Or.inl rfl, by simp, by simp⟩
  · next hm =>
    apply placePoint_wellFormed
    · exact significant_digits (toDigits_digits _)
    · exact significant_shape (toDigits_shape _ (shortestDecimal_ne_zero x.canonical hm))

theorem floatLiteral_not_integer (x : Finite) : (floatLiteral x).isInteger = false := by
  unfold floatLiteral
  split
  · rfl
  · next hm =>
    obtain ⟨c, rest, h, -⟩ := significant_shape
      (toDigits_shape _ (shortestDecimal_ne_zero x.canonical hm))
    exact placePoint_not_integer _ (by simp [h]) _

theorem placePoint_negative (negative : Bool) (ds : List Char) (point : ℤ) :
    (placePoint negative ds point).negative = negative := by
  unfold placePoint
  split_ifs <;> rfl

theorem floatLiteral_negative (x : Finite) : (floatLiteral x).negative = x.negative := by
  unfold floatLiteral
  split
  · rfl
  · exact placePoint_negative _ _ _

theorem floatLiteral_roundsTo (x : Finite) :
    roundMagnitude (floatLiteral x).value = some (x.mantissa, x.exponent) := by
  unfold floatLiteral
  split
  · next hm =>
    have hexp : x.exponent = -1074 := by
      have h := x.canonical.2.2.2
      omega
    simp [Literal.value, Nat.ofDigitChars_cons, roundMagnitude, hm, hexp]
  · have hrounds := shortestDecimal_roundsTo x.canonical
    generalize shortestDecimal x.mantissa x.exponent = decimal at hrounds
    have hlen := length_significant (Nat.toDigits 10 decimal.1)
    have hvalue := significant_value (Nat.toDigits 10 decimal.1)
    rw [Nat.ofDigitChars_ten_toDigits] at hvalue
    have hpoint : ((Nat.toDigits 10 decimal.1).length : ℤ) + decimal.2 -
        (significant (Nat.toDigits 10 decimal.1)).length =
          trailingZeros (Nat.toDigits 10 decimal.1) + decimal.2 := by
      omega
    rw [placePoint_value, hpoint, zpow_add₀ (by norm_num), ← mul_assoc, ← hvalue]
    exact hrounds

/-- A finite float reads back from what is written for it. -/
theorem floatLiteral_floatValue (x : Finite) : (floatLiteral x).floatValue = .finite x := by
  have h := floatLiteral_roundsTo x
  unfold Literal.floatValue ofMagnitude
  split
  · next hnone => rw [hnone] at h; cases h
  · next m e hsome =>
    rw [hsome] at h
    obtain ⟨rfl, rfl⟩ := Prod.mk.inj (Option.some.inj h)
    simp only [floatLiteral_negative]

end Floats

end FailureResolver.DecimalText
