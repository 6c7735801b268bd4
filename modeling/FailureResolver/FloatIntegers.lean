import FailureResolver.BinaryFloat
import Mathlib.Algebra.Order.Floor.Semifield

/-!
Integers as binary64 values. Below `2 ^ 53` an integer is a float of its own. From
there on the floats lie two and more apart, and an integer between two of them is
rounded to the one with the even mantissa; up to `2 ^ 54` every second float is left
to its integer alone, and above every float stands for several integers.
-/

namespace FailureResolver.FloatIntegers

open BinaryFloat

section Naturals

variable {k : ℕ} {v : ℚ}

/-- The natural numbers whose float is exact and stands for no other. -/
def Alone (k : ℕ) : Prop := k < 2 ^ 53 ∨ (k < 2 ^ 54 ∧ k % 4 = 2)

instance (k : ℕ) : Decidable (Alone k) := by
  unfold Alone
  infer_instance

theorem binade_natCast (k : ℕ) : binade (k : ℚ) = (Nat.log 2 k : ℤ) - 52 := by
  unfold binade
  rw [Int.log_natCast]
  omega

theorem log_eq_of_lt {n : ℕ} (hlow : 2 ^ n ≤ k) (hhigh : k < 2 ^ (n + 1)) : Nat.log 2 k = n :=
  Nat.log_eq_of_pow_le_of_lt_pow hlow hhigh

theorem nearest_zero : nearest ((0 : ℕ) : ℚ) = some ((0 : ℕ) : ℚ) := by
  simp [nearest, roundMagnitude, magnitude]

/-- A multiple of the spacing around it is a float. -/
theorem nearest_multiple {m : ℕ} (hm : (k : ℚ) / (2 : ℚ) ^ binade (k : ℚ) = m)
    (h : nearest (k : ℚ) = some v) : v = k := by
  rcases eq_or_ne k 0 with rfl | hk
  · rw [nearest_zero] at h
    exact (Option.some.inj h).symm
  · have hne : (k : ℚ) ≠ 0 := Nat.cast_ne_zero.mpr hk
    rw [nearest_eq_some hne h, hm, roundHalfEven_natCast, ← hm, div_mul_cancel₀ _ (by positivity)]

theorem multiple_of_lt (h : k < 2 ^ 53) : ∃ m : ℕ, (k : ℚ) / (2 : ℚ) ^ binade (k : ℚ) = m := by
  rcases eq_or_ne k 0 with rfl | hk
  · exact ⟨0, by simp⟩
  · have hlog : Nat.log 2 k < 53 := Nat.log_lt_of_lt_pow hk h
    have hexp : binade (k : ℚ) = -((52 - Nat.log 2 k : ℕ) : ℤ) := by
      rw [binade_natCast k]
      omega
    refine ⟨k * 2 ^ (52 - Nat.log 2 k), ?_⟩
    rw [hexp, zpow_neg, zpow_natCast, div_inv_eq_mul]
    push_cast
    rfl

theorem binade_of_le (hlow : 2 ^ 53 ≤ k) (hhigh : k < 2 ^ 54) : binade (k : ℚ) = 1 := by
  rw [binade_natCast k, log_eq_of_lt hlow hhigh]
  norm_num

theorem multiple_of_even (hlow : 2 ^ 53 ≤ k) (hhigh : k < 2 ^ 54) (heven : k % 2 = 0) :
    (k : ℚ) / (2 : ℚ) ^ binade (k : ℚ) = (k / 2 : ℕ) := by
  have hsplit : k = 2 * (k / 2) := by omega
  have hcast : (k : ℚ) = 2 * ((k / 2 : ℕ) : ℚ) := by exact_mod_cast hsplit
  rw [binade_of_le hlow hhigh, zpow_one]
  linarith

theorem exists_nearest (h : k < 2 ^ 54) : ∃ v, nearest (k : ℚ) = some v := by
  have hlt : (k : ℚ) < (2 : ℚ) ^ (1023 : ℤ) := by
    calc (k : ℚ) < 2 ^ 54 := by exact_mod_cast h
      _ ≤ (2 : ℚ) ^ (1023 : ℤ) := by
        rw [← zpow_natCast]
        exact zpow_le_zpow_right₀ (by norm_num) (by norm_num)
  obtain ⟨pair, hpair⟩ := exists_roundMagnitude (Nat.cast_nonneg k) hlt
  exact ⟨_, Option.map_eq_some_iff.mpr ⟨pair, hpair, rfl⟩⟩

theorem nearest_of_lt (h : k < 2 ^ 53) : nearest (k : ℚ) = some (k : ℚ) := by
  obtain ⟨v, hv⟩ := exists_nearest (k := k) (by omega)
  obtain ⟨m, hm⟩ := multiple_of_lt h
  rw [hv, nearest_multiple hm hv]

theorem nearest_of_even (hlow : 2 ^ 53 ≤ k) (hhigh : k < 2 ^ 54) (heven : k % 2 = 0) :
    nearest (k : ℚ) = some (k : ℚ) := by
  obtain ⟨v, hv⟩ := exists_nearest hhigh
  rw [hv, nearest_multiple (multiple_of_even hlow hhigh heven) hv]

theorem Alone.nearest (h : Alone k) : nearest (k : ℚ) = some (k : ℚ) := by
  rcases lt_or_ge k (2 ^ 53) with hlow | hhigh
  · exact nearest_of_lt hlow
  · rcases h with h | ⟨hlt, hmod⟩
    · omega
    · exact nearest_of_even hhigh hlt (by omega)

/-- Rounding stays within the power of two below. -/
theorem pow_log_le_nearest (hk : k ≠ 0) (h : nearest (k : ℚ) = some v) :
    (2 : ℚ) ^ Nat.log 2 k ≤ v := by
  have hpos : (0 : ℚ) < k := Nat.cast_pos.mpr (Nat.pos_of_ne_zero hk)
  have hbinade := binade_natCast k
  have hround := le_roundHalfEven (le_scaled hpos (by omega))
  rw [nearest_eq_some hpos.ne' h]
  have hexp : (Nat.log 2 k : ℤ) = 52 + binade (k : ℚ) := by omega
  calc (2 : ℚ) ^ Nat.log 2 k = 2 ^ (52 : ℤ) * (2 : ℚ) ^ binade (k : ℚ) := by
        rw [← zpow_natCast, hexp, zpow_add₀ (by norm_num)]
    _ ≤ _ := by
        refine mul_le_mul_of_nonneg_right ?_ (by positivity)
        exact_mod_cast hround

theorem lt_of_nearest_lt {n : ℕ} (h : nearest (k : ℚ) = some v) (hv : v < 2 ^ n) :
    k < 2 ^ n := by
  rcases eq_or_ne k 0 with rfl | hk
  · positivity
  · have hlt : (2 : ℚ) ^ Nat.log 2 k < 2 ^ n := lt_of_le_of_lt (pow_log_le_nearest hk h) hv
    have hlog : Nat.log 2 k < n := (pow_lt_pow_iff_right₀ (by norm_num)).mp hlt
    exact Nat.lt_pow_of_log_lt (by norm_num) hlog

/-- Half of an odd number is rounded to an even one. -/
theorem roundHalfEven_half (hodd : k % 2 = 1) : roundHalfEven ((k : ℚ) / 2) % 2 = 0 := by
  have hfloor : ⌊(k : ℚ) / 2⌋₊ = k / 2 := by
    have h := Nat.floor_div_eq_div (K := ℚ) k 2
    rwa [Nat.cast_ofNat] at h
  have hrest : (k : ℚ) / 2 - ((k / 2 : ℕ) : ℚ) = 1 / 2 := by
    have hsplit : k = 2 * (k / 2) + 1 := by omega
    have hcast : (k : ℚ) = 2 * ((k / 2 : ℕ) : ℚ) + 1 := by exact_mod_cast hsplit
    linarith
  unfold roundHalfEven
  simp only [hfloor, hrest, lt_irrefl, if_false]
  split_ifs <;> omega

/-- No other number is rounded to one that stands alone. -/
theorem Alone.unique {j : ℕ} (hj : Alone j) (h : BinaryFloat.nearest (k : ℚ) = some (j : ℚ)) :
    k = j := by
  have hsame : k < 2 ^ 53 → k = j := by
    intro hlow
    rw [nearest_of_lt hlow] at h
    exact_mod_cast Option.some.inj h
  rcases lt_or_ge k (2 ^ 53) with hlow | hhigh
  · exact hsame hlow
  rcases hj with hj | ⟨hj, hmod⟩
  · have := lt_of_nearest_lt (n := 53) h (by exact_mod_cast hj)
    omega
  have hk : k < 2 ^ 54 := lt_of_nearest_lt h (by exact_mod_cast hj)
  have hround := nearest_eq_some (Nat.cast_ne_zero.mpr (by omega)) h
  rw [binade_of_le hhigh hk, zpow_one] at hround
  have hround : j = roundHalfEven ((k : ℚ) / 2) * 2 := by exact_mod_cast hround
  rcases Nat.mod_two_eq_zero_or_one k with heven | hodd
  · rw [nearest_of_even hhigh hk heven] at h
    exact_mod_cast Option.some.inj h
  · have := roundHalfEven_half hodd
    omega

/-- A natural number is the nearest one up to a half, and at a half if it is even. -/
theorem roundHalfEven_add {r : ℕ} {x : ℚ} (hx : 0 ≤ x)
    (h : x < 1 / 2 ∨ (x = 1 / 2 ∧ r % 2 = 0)) : roundHalfEven (r + x) = r := by
  have hlt : x < 1 := by
    rcases h with h | ⟨h, -⟩
    · linarith
    · rw [h]
      norm_num
  have hfloor : ⌊(r : ℚ) + x⌋₊ = r := by
    rw [Nat.floor_eq_iff (by positivity)]
    constructor <;> linarith
  unfold roundHalfEven
  simp only [hfloor, add_sub_cancel_left]
  rcases h with h | ⟨rfl, heven⟩
  · rw [if_pos h]
  · simp [heven]

/-- Every float from `2 ^ 53` on that does not stand alone stands for the next integer too. -/
theorem nearest_succ (hk : nearest (k : ℚ) = some (k : ℚ)) (hshared : ¬ Alone k) :
    nearest ((k + 1 : ℕ) : ℚ) = some (k : ℚ) := by
  have hlow : 2 ^ 53 ≤ k := by
    by_contra hlt
    exact hshared (.inl (by omega))
  have hpos : (0 : ℚ) < k := by exact_mod_cast (show 0 < k by omega)
  obtain ⟨t, ht⟩ : ∃ t, Nat.log 2 k = t + 53 :=
    ⟨_, (Nat.sub_add_cancel (Nat.le_log_of_pow_le (by norm_num) hlow)).symm⟩
  have hbinade : binade (k : ℚ) = ((t + 1 : ℕ) : ℤ) := by
    rw [binade_natCast, ht]
    push_cast
    omega
  -- the mantissa is exact, so the next integer lies within half a spacing
  have hmantissa := nearest_eq_some hpos.ne' hk
  generalize hr : roundHalfEven ((k : ℚ) / (2 : ℚ) ^ binade (k : ℚ)) = r at hmantissa
  rw [hbinade, zpow_natCast] at hmantissa
  have hsplit : k = r * 2 ^ (t + 1) := by exact_mod_cast hmantissa
  have hhigh : k < 2 ^ (t + 54) := by
    have := Nat.lt_pow_succ_log_self (b := 2) (by norm_num) k
    rwa [ht] at this
  have hr53 : r + 1 ≤ 2 ^ 53 := by
    have hlt : r * 2 ^ (t + 1) < 2 ^ 53 * 2 ^ (t + 1) := by
      rw [← hsplit, ← pow_add]
      exact lt_of_lt_of_eq hhigh (by congr 1; omega)
    exact Nat.lt_of_mul_lt_mul_right hlt
  have hnext : Nat.log 2 (k + 1) = t + 53 := by
    have hpow : 2 ^ (t + 53) ≤ k := by
      have := Nat.pow_log_le_self 2 (show k ≠ 0 by omega)
      rwa [ht] at this
    refine Nat.log_eq_of_pow_le_of_lt_pow (by omega) ?_
    have hroom : (r + 1) * 2 ^ (t + 1) ≤ 2 ^ 53 * 2 ^ (t + 1) := Nat.mul_le_mul_right _ hr53
    have hunit : 1 < 2 ^ (t + 1) := Nat.one_lt_two_pow (by omega)
    have hpower : 2 ^ (t + 53 + 1) = 2 ^ 53 * 2 ^ (t + 1) := by
      rw [← pow_add]
      congr 1
      omega
    rw [hpower, hsplit]
    rw [add_mul] at hroom
    omega
  have hsame : binade ((k + 1 : ℕ) : ℚ) = binade (k : ℚ) := by
    rw [binade_natCast, binade_natCast, hnext, ht]
  have hround : roundHalfEven (((k + 1 : ℕ) : ℚ) / (2 : ℚ) ^ binade (k : ℚ)) = r := by
    rw [hbinade, zpow_natCast]
    have hstep : ((k + 1 : ℕ) : ℚ) / (2 : ℚ) ^ (t + 1) = r + 1 / 2 ^ (t + 1) := by
      have hcast : (k : ℚ) = r * 2 ^ (t + 1) := by exact_mod_cast hsplit
      push_cast
      rw [hcast]
      field_simp
    rw [hstep]
    refine roundHalfEven_add (by positivity) ?_
    rcases Nat.eq_zero_or_pos t with rfl | htpos
    · refine .inr ⟨by norm_num, ?_⟩
      unfold Alone at hshared
      omega
    · refine .inl (one_div_lt_one_div_of_lt (by norm_num) ?_)
      calc (2 : ℚ) < 2 ^ 2 := by norm_num
        _ ≤ 2 ^ (t + 1) := pow_le_pow_right₀ (by norm_num) (by omega)
  have hpair : roundMagnitude ((k + 1 : ℕ) : ℚ) = roundMagnitude (k : ℚ) := by
    have hne : ((k + 1 : ℕ) : ℚ) ≠ 0 := Nat.cast_ne_zero.mpr (by omega)
    unfold roundMagnitude
    rw [if_neg hne, if_neg hpos.ne', hsame]
    dsimp only
    rw [hround, hr]
  unfold BinaryFloat.nearest at hk ⊢
  rw [hpair, hk]

end Naturals

section Integers

variable {n m : ℤ} {x : Finite}

/-- An integer whose float is exact and stands for no other integer. -/
def IntegerAlone (n : ℤ) : Prop := Alone n.natAbs

instance (n : ℤ) : Decidable (IntegerAlone n) := by
  unfold IntegerAlone
  infer_instance

/-- The float of an integer has its sign, and the float of its size. -/
theorem ofInt_eq_some (h : ofInt n = some x) : ∃ v, nearest (n.natAbs : ℚ) = some v ∧
    x.value = if n < 0 then -v else v := by
  unfold ofInt at h
  split at h
  · cases h
  · next a e hpair =>
    cases h
    refine ⟨magnitude a e, by unfold BinaryFloat.nearest; rw [hpair]; rfl, ?_⟩
    unfold Finite.value
    simp only [decide_eq_true_eq]

theorem exists_ofInt_of_nearest {v : ℚ} (h : nearest (n.natAbs : ℚ) = some v) :
    ∃ x, ofInt n = some x ∧ x.value = if n < 0 then -v else v := by
  have hsome : ∃ x, ofInt n = some x := by
    unfold BinaryFloat.nearest at h
    obtain ⟨pair, hpair, -⟩ := Option.map_eq_some_iff.mp h
    unfold ofInt
    split
    · next hnone =>
      rw [hnone] at hpair
      cases hpair
    · exact ⟨_, rfl⟩
  obtain ⟨x, hx⟩ := hsome
  obtain ⟨w, hw, hvalue⟩ := ofInt_eq_some hx
  rw [h] at hw
  cases hw
  exact ⟨x, hx, hvalue⟩

/-- An integer is its size with its sign. -/
theorem signed_natAbs (n : ℤ) : (if n < 0 then -(n.natAbs : ℚ) else (n.natAbs : ℚ)) = n := by
  split
  · next h =>
    have habs : (n.natAbs : ℤ) = -n := by omega
    calc -(n.natAbs : ℚ) = -((n.natAbs : ℤ) : ℚ) := by rw [Int.cast_natCast]
      _ = n := by rw [habs, Int.cast_neg, neg_neg]
  · next h =>
    have habs : (n.natAbs : ℤ) = n := by omega
    calc (n.natAbs : ℚ) = ((n.natAbs : ℤ) : ℚ) := (Int.cast_natCast _).symm
      _ = n := by rw [habs]

theorem IntegerAlone.exact (h : IntegerAlone n) : ∃ x, ofInt n = some x ∧ x.value = n := by
  obtain ⟨x, hx, hvalue⟩ := exists_ofInt_of_nearest (Alone.nearest h)
  exact ⟨x, hx, hvalue.trans (signed_natAbs n)⟩

/-- A float of an integer that has the value of another: the sizes are rounded to it, and the
signs agree. -/
theorem nearest_of_value (h : ofInt m = some x) (hvalue : x.value = n) :
    nearest (m.natAbs : ℚ) = some (n.natAbs : ℚ) ∧ (n ≠ 0 → (m < 0 ↔ n < 0)) := by
  obtain ⟨v, hv, hsigned⟩ := ofInt_eq_some h
  have hnonneg := nearest_nonneg hv
  rw [hvalue] at hsigned
  have habs : (n.natAbs : ℚ) = |(n : ℚ)| := by rw [Nat.cast_natAbs, Int.cast_abs]
  split at hsigned
  · next hm =>
    refine ⟨by rw [hv, habs, hsigned, abs_neg, abs_of_nonneg hnonneg], fun hn => ?_⟩
    refine iff_of_true hm ?_
    have hle : (n : ℚ) ≤ 0 := by linarith
    have hle' : n ≤ 0 := by exact_mod_cast hle
    omega
  · next hm =>
    refine ⟨by rw [hv, habs, hsigned, abs_of_nonneg hnonneg], fun hn => ?_⟩
    refine iff_of_false hm ?_
    have hle : (0 : ℚ) ≤ n := by linarith
    have hle' : 0 ≤ n := by exact_mod_cast hle
    omega

theorem IntegerAlone.unique (hn : IntegerAlone n) (h : ofInt m = some x) (hvalue : x.value = n) :
    m = n := by
  obtain ⟨hnearest, hsign⟩ := nearest_of_value h hvalue
  have habs : m.natAbs = n.natAbs := Alone.unique hn hnearest
  rcases eq_or_ne n 0 with rfl | hne
  · omega
  · have := hsign hne
    omega

/-- An integer that is the value of a float is rounded to itself. -/
theorem nearest_natAbs (h : x.value = n) : nearest (n.natAbs : ℚ) = some (n.natAbs : ℚ) := by
  have hpos : 0 ≤ magnitude x.mantissa x.exponent := by
    unfold magnitude
    positivity
  have habs : (n.natAbs : ℚ) = magnitude x.mantissa x.exponent := by
    rw [Nat.cast_natAbs, Int.cast_abs, ← h, Finite.value]
    split
    · rw [abs_neg, abs_of_nonneg hpos]
    · exact abs_of_nonneg hpos
  rw [habs]
  unfold BinaryFloat.nearest
  rw [roundMagnitude_magnitude x.canonical]
  rfl

/-- A float that an integer is exactly, but not alone, is the float of a second integer. -/
theorem exists_second (hn : ¬ IntegerAlone n) (h : x.value = n) :
    ∃ m y, m ≠ n ∧ ofInt m = some y ∧ y.value = n := by
  have hnearest := nearest_succ (nearest_natAbs h) hn
  have hzero : n ≠ 0 := by
    rintro rfl
    exact hn (.inl (by norm_num))
  have hsucc : (if n < 0 then n - 1 else n + 1).natAbs = n.natAbs + 1 := by
    split <;> omega
  rw [← hsucc] at hnearest
  obtain ⟨y, hy, hsigned⟩ := exists_ofInt_of_nearest hnearest
  refine ⟨_, y, by split <;> omega, hy, hsigned.trans ?_⟩
  rw [← signed_natAbs n]
  congr 1
  split <;> simp <;> omega

/-- The float of an integer has an integral value. -/
theorem exists_value_ofInt (h : ofInt n = some x) : ∃ m : ℤ, x.value = m := by
  obtain ⟨v, hv, hsigned⟩ := ofInt_eq_some h
  have hnatural : ∃ j : ℕ, v = j := by
    rcases lt_or_ge n.natAbs (2 ^ 53) with hlow | hhigh
    · rw [nearest_of_lt hlow] at hv
      exact ⟨n.natAbs, (Option.some.inj hv).symm⟩
    · have hlog : 53 ≤ Nat.log 2 n.natAbs := Nat.le_log_of_pow_le (by norm_num) hhigh
      rw [nearest_eq_some (Nat.cast_ne_zero.mpr (by omega)) hv]
      have hexp : binade (n.natAbs : ℚ) = ((Nat.log 2 n.natAbs - 52 : ℕ) : ℤ) := by
        rw [binade_natCast]
        omega
      rw [hexp, zpow_natCast]
      exact ⟨roundHalfEven ((n.natAbs : ℚ) / 2 ^ (Nat.log 2 n.natAbs - 52)) *
        2 ^ (Nat.log 2 n.natAbs - 52), by push_cast; rfl⟩
  obtain ⟨j, rfl⟩ := hnatural
  refine ⟨if n < 0 then -j else j, hsigned.trans ?_⟩
  split <;> simp

end Integers

end FailureResolver.FloatIntegers
