import Mathlib.Algebra.Order.Field.Power
import Mathlib.Data.Int.Log
import Mathlib.Data.Rat.Floor
import Mathlib.Tactic.FieldSimp
import Mathlib.Tactic.Linarith
import Mathlib.Tactic.NormNum
import Mathlib.Tactic.Positivity
import Mathlib.Tactic.Ring

/-!
IEEE 754 binary64 values as exact rationals with a sign. A finite value carries
the proof that its mantissa and exponent are in normal form, so equal
magnitudes are equal pairs. Rounding is to nearest with ties to even, and is
total on nonnegative rationals: a magnitude past the largest finite value has
no pair.
-/

namespace FailureResolver.BinaryFloat

/-- The unique pair of a magnitude `m * 2 ^ e`: normal, or subnormal with the
least exponent. -/
def Canonical (m : ℕ) (e : ℤ) : Prop :=
  m < 2 ^ 53 ∧ -1074 ≤ e ∧ e ≤ 971 ∧ (2 ^ 52 ≤ m ∨ e = -1074)

instance (m : ℕ) (e : ℤ) : Decidable (Canonical m e) := by
  unfold Canonical
  infer_instance

structure Finite where
  negative : Bool
  mantissa : ℕ
  exponent : ℤ
  canonical : Canonical mantissa exponent
  deriving DecidableEq

inductive Binary64
  | nan
  | infinity (negative : Bool)
  | finite (x : Finite)
  deriving DecidableEq

def magnitude (m : ℕ) (e : ℤ) : ℚ := m * (2 : ℚ) ^ e

def Finite.value (x : Finite) : ℚ :=
  if x.negative then -magnitude x.mantissa x.exponent else magnitude x.mantissa x.exponent

def roundHalfEven (q : ℚ) : ℕ :=
  let below := ⌊q⌋₊
  let rest := q - below
  if rest < 1 / 2 then below
  else if 1 / 2 < rest then below + 1
  else if below % 2 = 0 then below else below + 1

/-- The exponent of the binade of `q`, cut off at the subnormal exponent. -/
def binade (q : ℚ) : ℤ := max (-1074) (Int.log 2 q - 52)

/-- The rounded magnitude of a nonnegative rational; `none` is an overflow. -/
def roundMagnitude (q : ℚ) : Option (ℕ × ℤ) :=
  if q = 0 then some (0, -1074)
  else
    let e := binade q
    let m := roundHalfEven (q / (2 : ℚ) ^ e)
    let pair := if m = 2 ^ 53 then (2 ^ 52, e + 1) else (m, e)
    if pair.2 ≤ 971 then some pair else none

theorem roundHalfEven_natCast (n : ℕ) : roundHalfEven (n : ℚ) = n := by
  simp [roundHalfEven]

theorem roundHalfEven_le {q : ℚ} {n : ℕ} (hq : 0 ≤ q) (h : q < n) : roundHalfEven q ≤ n := by
  have hfloor : ⌊q⌋₊ < n := (Nat.floor_lt hq).mpr h
  simp only [roundHalfEven]
  split_ifs <;> omega

theorem le_roundHalfEven {q : ℚ} {n : ℕ} (h : (n : ℚ) ≤ q) : n ≤ roundHalfEven q := by
  have hfloor : n ≤ ⌊q⌋₊ := Nat.le_floor h
  simp only [roundHalfEven]
  split_ifs <;> omega

theorem roundHalfEven_error (q : ℚ) : q ≤ roundHalfEven q + 1 / 2 := by
  have hfloor : q < ⌊q⌋₊ + 1 := Nat.lt_floor_add_one q
  simp only [roundHalfEven]
  split_ifs <;> push_cast <;> linarith

theorem scaled_lt (q : ℚ) : q / (2 : ℚ) ^ binade q < ((2 ^ 53 : ℕ) : ℚ) := by
  have hupper := Int.lt_zpow_succ_log_self (b := 2) (by omega) q
  have hexp : Int.log 2 q + 1 ≤ binade q + 53 := by
    unfold binade
    omega
  have hmono : (2 : ℚ) ^ (Int.log 2 q + 1) ≤ (2 : ℚ) ^ (binade q + 53) :=
    zpow_le_zpow_right₀ (by norm_num) hexp
  rw [div_lt_iff₀ (by positivity)]
  calc q < (2 : ℚ) ^ (Int.log 2 q + 1) := by exact_mod_cast hupper
    _ ≤ (2 : ℚ) ^ (binade q + 53) := hmono
    _ = ((2 ^ 53 : ℕ) : ℚ) * (2 : ℚ) ^ binade q := by
      rw [zpow_add₀ (by norm_num), mul_comm]
      norm_num

theorem le_scaled {q : ℚ} (hq : 0 < q) (h : binade q ≠ -1074) :
    ((2 ^ 52 : ℕ) : ℚ) ≤ q / (2 : ℚ) ^ binade q := by
  have hlower := Int.zpow_log_le_self (b := 2) (by omega) hq
  have hexp : Int.log 2 q = 52 + binade q := by
    unfold binade at h ⊢
    omega
  rw [le_div_iff₀ (by positivity)]
  calc ((2 ^ 52 : ℕ) : ℚ) * (2 : ℚ) ^ binade q = (2 : ℚ) ^ (52 + binade q) := by
        rw [zpow_add₀ (by norm_num)]
        norm_num
    _ = (2 : ℚ) ^ Int.log 2 q := by rw [hexp]
    _ ≤ q := by exact_mod_cast hlower

theorem roundMagnitude_canonical {q : ℚ} (hq : 0 ≤ q) {m : ℕ} {e : ℤ}
    (h : roundMagnitude q = some (m, e)) : Canonical m e := by
  unfold roundMagnitude at h
  by_cases hzero : q = 0
  · simp only [if_pos hzero, Option.some.injEq, Prod.mk.injEq] at h
    obtain ⟨rfl, rfl⟩ := h
    simp [Canonical]
  · have hpos : 0 < q := lt_of_le_of_ne hq (Ne.symm hzero)
    have hupper : roundHalfEven (q / (2 : ℚ) ^ binade q) ≤ 2 ^ 53 :=
      roundHalfEven_le (by positivity) (scaled_lt q)
    have hlower : binade q ≠ -1074 → 2 ^ 52 ≤ roundHalfEven (q / (2 : ℚ) ^ binade q) :=
      fun hb => le_roundHalfEven (le_scaled hpos hb)
    have hbinade : -1074 ≤ binade q := le_max_left _ _
    simp only [if_neg hzero] at h
    generalize roundHalfEven (q / (2 : ℚ) ^ binade q) = r at h hupper hlower
    generalize binade q = b at h hlower hbinade
    split_ifs at h with hcarry hfits hfits
    · simp only [Option.some.injEq, Prod.mk.injEq] at h
      obtain ⟨rfl, rfl⟩ := h
      simp only [Canonical] at hfits ⊢
      omega
    · simp only [Option.some.injEq, Prod.mk.injEq] at h
      obtain ⟨rfl, rfl⟩ := h
      simp only [Canonical] at hfits ⊢
      omega

theorem log_magnitude {m : ℕ} (hm : m ≠ 0) (e : ℤ) :
    Int.log 2 (magnitude m e) = Nat.log 2 m + e := by
  have hmq : (0 : ℚ) < m := by exact_mod_cast Nat.pos_of_ne_zero hm
  have hpos : (0 : ℚ) < magnitude m e := by
    unfold magnitude
    positivity
  have hlow : ((2 : ℕ) : ℚ) ^ ((Nat.log 2 m : ℤ) + e) ≤ magnitude m e := by
    rw [zpow_add₀ (by norm_num), magnitude, zpow_natCast]
    have h := Nat.pow_log_le_self 2 hm
    have hq : ((2 : ℕ) : ℚ) ^ Nat.log 2 m ≤ m := by exact_mod_cast h
    exact mul_le_mul_of_nonneg_right hq (by positivity)
  have hhigh : magnitude m e < ((2 : ℕ) : ℚ) ^ ((Nat.log 2 m : ℤ) + e + 1) := by
    rw [show (Nat.log 2 m : ℤ) + e + 1 = ((Nat.log 2 m + 1 : ℕ) : ℤ) + e by push_cast; ring,
      zpow_add₀ (by norm_num), magnitude, zpow_natCast]
    have h := Nat.lt_pow_succ_log_self (b := 2) (by omega) m
    have hq : (m : ℚ) < ((2 : ℕ) : ℚ) ^ (Nat.log 2 m + 1) := by exact_mod_cast h
    exact mul_lt_mul_of_pos_right hq (by positivity)
  have h1 := (Int.zpow_le_iff_le_log (by omega) hpos).mp hlow
  have h2 := (Int.lt_zpow_iff_log_lt (by omega) hpos).mp hhigh
  omega

/-- Rounding gives back every representable magnitude. -/
theorem roundMagnitude_magnitude {m : ℕ} {e : ℤ} (h : Canonical m e) :
    roundMagnitude (magnitude m e) = some (m, e) := by
  obtain ⟨hm, hlow, hhigh, hnormal⟩ := h
  have h2 : (2 : ℚ) ^ e ≠ 0 := by positivity
  by_cases hzero : m = 0
  · subst hzero
    have he : e = -1074 := by omega
    simp [roundMagnitude, magnitude, he]
  · have hne : magnitude m e ≠ 0 := by
      unfold magnitude
      exact mul_ne_zero (by exact_mod_cast hzero) h2
    have hlog : Nat.log 2 m < 53 := Nat.log_lt_of_lt_pow hzero hm
    have hb : binade (magnitude m e) = e := by
      rw [binade, log_magnitude hzero]
      rcases hnormal with hnormal | hsub
      · have h52 : 52 ≤ Nat.log 2 m := Nat.le_log_of_pow_le (by omega) hnormal
        omega
      · omega
    have hscaled : magnitude m e / (2 : ℚ) ^ e = (m : ℚ) := by
      unfold magnitude
      field_simp
    have hcarry : m ≠ 2 ^ 53 := by omega
    simp only [roundMagnitude, if_neg hne, hb, hscaled, roundHalfEven_natCast, if_neg hcarry,
      if_pos hhigh]

/-- The float nearest to a nonnegative magnitude, with a sign. -/
def ofMagnitude (negative : Bool) (q : ℚ) (hq : 0 ≤ q) : Binary64 :=
  match h : roundMagnitude q with
  | none => .infinity negative
  | some (m, e) => .finite ⟨negative, m, e, roundMagnitude_canonical hq h⟩

/-- Conversion of an integer; `none` is the overflow of a too large integer. -/
def ofInt (n : ℤ) : Option Finite :=
  match h : roundMagnitude (n.natAbs : ℚ) with
  | none => none
  | some (m, e) =>
      some ⟨decide (n < 0), m, e, roundMagnitude_canonical (Nat.cast_nonneg _) h⟩

/-- A magnitude well below the largest finite value rounds to a float. -/
theorem exists_roundMagnitude {q : ℚ} (hq : 0 ≤ q) (h : q < (2 : ℚ) ^ (1023 : ℤ)) :
    ∃ pair, roundMagnitude q = some pair := by
  unfold roundMagnitude
  by_cases hzero : q = 0
  · exact ⟨(0, -1074), by rw [if_pos hzero]⟩
  · have hpos : 0 < q := lt_of_le_of_ne hq (Ne.symm hzero)
    have hlog : Int.log 2 q < 1023 := (Int.lt_zpow_iff_log_lt (by omega) hpos).mp (by exact_mod_cast h)
    have hbinade : binade q ≤ 970 := by
      unfold binade
      omega
    rw [if_neg hzero]
    dsimp only
    generalize roundHalfEven (q / (2 : ℚ) ^ binade q) = r
    generalize binade q = b at hbinade
    by_cases hcarry : r = 2 ^ 53
    · refine ⟨(2 ^ 52, b + 1), ?_⟩
      rw [if_pos hcarry, if_pos (by show b + 1 ≤ 971; omega)]
    · refine ⟨(r, b), ?_⟩
      rw [if_neg hcarry, if_pos (by show b ≤ 971; omega)]

theorem exists_ofInt {n : ℤ} {k : ℕ} (hk : k ≤ 1023) (h : n.natAbs < 2 ^ k) :
    ∃ x, ofInt n = some x := by
  have hpow : (n.natAbs : ℚ) < (2 : ℚ) ^ (k : ℤ) := by exact_mod_cast h
  have hlt : (n.natAbs : ℚ) < (2 : ℚ) ^ (1023 : ℤ) :=
    lt_of_lt_of_le hpow (zpow_le_zpow_right₀ (by norm_num) (by omega))
  obtain ⟨pair, hpair⟩ := exists_roundMagnitude (Nat.cast_nonneg _) hlt
  unfold ofInt
  split
  · next hnone => rw [hnone] at hpair; cases hpair
  · exact ⟨_, rfl⟩

/-- The value of the float nearest to a nonnegative rational; past the largest one there is
none. -/
def nearest (q : ℚ) : Option ℚ := (roundMagnitude q).map fun pair => magnitude pair.1 pair.2

theorem nearest_nonneg {q v : ℚ} (h : nearest q = some v) : 0 ≤ v := by
  obtain ⟨pair, -, rfl⟩ := Option.map_eq_some_iff.mp h
  unfold magnitude
  positivity

theorem nearest_eq_some {q v : ℚ} (hq : q ≠ 0) (h : nearest q = some v) :
    v = roundHalfEven (q / (2 : ℚ) ^ binade q) * (2 : ℚ) ^ binade q := by
  obtain ⟨pair, hpair, rfl⟩ := Option.map_eq_some_iff.mp h
  unfold roundMagnitude at hpair
  rw [if_neg hq] at hpair
  dsimp only at hpair
  generalize hr : roundHalfEven (q / (2 : ℚ) ^ binade q) = r at hpair ⊢
  by_cases hcarry : r = 2 ^ 53
  · rw [if_pos hcarry] at hpair
    split at hpair
    · cases hpair
      rw [hcarry, magnitude, zpow_add₀ (by norm_num)]
      norm_num
      ring
    · cases hpair
  · rw [if_neg hcarry] at hpair
    split at hpair
    · cases hpair
      rfl
    · cases hpair

/-- The spacing of the floats around a magnitude. -/
theorem zpow_binade_le {q : ℚ} (hq : 0 < q) :
    (2 : ℚ) ^ binade q ≤ q / 2 ^ 52 + (2 : ℚ) ^ (-1074 : ℤ) := by
  rcases max_choice (-1074 : ℤ) (Int.log 2 q - 52) with h | h
  · rw [binade, h]
    exact le_add_of_nonneg_left (by positivity)
  · have hlower := Int.zpow_log_le_self (b := 2) (by omega) hq
    rw [binade, h, zpow_sub₀ (by norm_num)]
    refine le_add_of_le_of_nonneg ?_ (by positivity)
    have hcast : (2 : ℚ) ^ (52 : ℤ) = 2 ^ 52 := by norm_cast
    rw [hcast]
    exact div_le_div_of_nonneg_right (by exact_mod_cast hlower) (by positivity)

/-- Rounding loses half a spacing at most. -/
theorem le_nearest {q v : ℚ} (hq : 0 ≤ q) (h : nearest q = some v) :
    q ≤ v + q / 2 ^ 53 + (2 : ℚ) ^ (-1075 : ℤ) := by
  rcases eq_or_lt_of_le hq with rfl | hpos
  · rw [zero_div, add_zero]
    exact add_nonneg (nearest_nonneg h) (by positivity)
  · have hspacing : (0 : ℚ) < (2 : ℚ) ^ binade q := by positivity
    have herror := roundHalfEven_error (q / (2 : ℚ) ^ binade q)
    have hscaled := mul_le_mul_of_nonneg_right herror hspacing.le
    rw [div_mul_cancel₀ _ hspacing.ne', add_mul, ← nearest_eq_some hpos.ne' h] at hscaled
    have hhalf : (2 : ℚ) ^ (-1075 : ℤ) = 1 / 2 * (2 : ℚ) ^ (-1074 : ℤ) := by
      rw [show (-1075 : ℤ) = -1 + -1074 by norm_num, zpow_add₀ (by norm_num), zpow_neg_one, one_div]
    have hbound := zpow_binade_le hpos
    calc q ≤ v + 1 / 2 * (2 : ℚ) ^ binade q := hscaled
      _ ≤ v + 1 / 2 * (q / 2 ^ 52 + (2 : ℚ) ^ (-1074 : ℤ)) := by gcongr
      _ = v + q / 2 ^ 53 + (2 : ℚ) ^ (-1075 : ℤ) := by
        rw [hhalf]
        ring

def isFinite : Binary64 → Bool
  | .finite _ => true
  | _ => false

end FailureResolver.BinaryFloat
