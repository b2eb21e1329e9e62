import Mathlib.Algebra.Order.Round
import Mathlib.Data.Int.Log
import Mathlib.Data.Rat.Floor
import Mathlib.Tactic.Linarith
import Mathlib.Tactic.Positivity

/-! Rounding to double precision: significands of 53 bits, to nearest, and to the even one of
two that are equally near. The exponent has no bounds here, so nothing overflows and nothing
is subnormal. -/

namespace MovieReservation.Lib.Binary64

/-- The nearest integer, or the even one of two. -/
def nearest (x : ℚ) : ℤ :=
  if x - ⌊x⌋ < 1 / 2 ∨ x - ⌊x⌋ = 1 / 2 ∧ ⌊x⌋ % 2 = 0 then ⌊x⌋ else ⌊x⌋ + 1

/-- The place of the last bit of the significand. -/
def ulp (x : ℚ) : ℚ := 2 ^ (Int.log 2 |x| - 52)

def round (x : ℚ) : ℚ := nearest (x / ulp x) * ulp x

def mul (x y : ℚ) : ℚ := round (x * y)

def div (x y : ℚ) : ℚ := round (x / y)

variable {x y : ℚ}

theorem nearest_intCast (n : ℤ) : nearest n = n := by simp [nearest]

theorem floor_le_nearest (x : ℚ) : ⌊x⌋ ≤ nearest x := by
  unfold nearest
  split_ifs
  · exact le_rfl
  · exact (Int.lt_succ _).le

theorem nearest_le_floor_add_one (x : ℚ) : nearest x ≤ ⌊x⌋ + 1 := by
  unfold nearest
  split_ifs
  · exact (Int.lt_succ _).le
  · exact le_rfl

theorem nearest_mono (h : x ≤ y) : nearest x ≤ nearest y := by
  rcases (Int.floor_mono h).lt_or_eq with hlt | heq
  · calc nearest x ≤ ⌊x⌋ + 1 := nearest_le_floor_add_one x
      _ ≤ ⌊y⌋ := hlt
      _ ≤ nearest y := floor_le_nearest y
  · -- within one unit, what rounds `y` down rounds `x` down as well
    unfold nearest
    rw [heq]
    split_ifs with hx hy hy
    · exact le_rfl
    · exact (Int.lt_succ _).le
    · exfalso
      refine hx ?_
      have hle : x - ⌊y⌋ ≤ y - ⌊y⌋ := by linarith
      rcases hy with hy | ⟨hy, heven⟩
      · exact .inl (hle.trans_lt hy)
      · rcases (hle.trans_eq hy).lt_or_eq with hxlt | hxeq
        · exact .inl hxlt
        · exact .inr ⟨hxeq, heven⟩
    · exact le_rfl

theorem ulp_pos (x : ℚ) : 0 < ulp x := zpow_pos two_pos _

/-- A number whose significand fits is not changed. -/
theorem round_of_fits (m : ℤ) (k : ℤ) (hm : |m| < 2 ^ 53) : round (m * 2 ^ k) = m * 2 ^ k := by
  rcases eq_or_ne m 0 with rfl | hne
  · simp [round, nearest]
  have hpos : (0 : ℚ) < |(m : ℚ) * 2 ^ k| :=
    abs_pos.mpr (mul_ne_zero (Int.cast_ne_zero.mpr hne) (zpow_ne_zero _ two_ne_zero))
  have habs : |(m : ℚ) * 2 ^ k| < 2 ^ (53 + k) := by
    rw [abs_mul, abs_of_pos (zpow_pos (two_pos : (0 : ℚ) < 2) k), zpow_add₀ two_ne_zero]
    have hcast : (|m| : ℚ) < 2 ^ (53 : ℤ) := by exact_mod_cast hm
    exact mul_lt_mul_of_pos_right hcast (zpow_pos two_pos k)
  have hlog : Int.log 2 |(m : ℚ) * 2 ^ k| < 53 + k :=
    (Int.lt_zpow_iff_log_lt one_lt_two hpos).mp (by exact_mod_cast habs)
  obtain ⟨n, hn⟩ := Int.eq_ofNat_of_zero_le
    (show 0 ≤ k - (Int.log 2 |(m : ℚ) * 2 ^ k| - 52) by omega)
  have hdiv : (m : ℚ) * 2 ^ k / ulp (m * 2 ^ k) = ((m * 2 ^ n : ℤ) : ℚ) := by
    rw [ulp, mul_div_assoc, ← zpow_sub₀ two_ne_zero, hn]
    simp
  rw [round, hdiv, nearest_intCast, ← hdiv, div_mul_cancel₀ _ (ulp_pos _).ne']

theorem round_intCast {n : ℤ} (h : |n| < 2 ^ 53) : round n = n := by
  simpa using round_of_fits n 0 h

theorem round_nonneg (h : 0 ≤ x) : 0 ≤ round x := by
  have hquotient : (0 : ℚ) ≤ x / ulp x := div_nonneg h (ulp_pos x).le
  have hnearest : (0 : ℤ) ≤ nearest (x / ulp x) := by
    simpa using (nearest_intCast 0).symm.le.trans (nearest_mono (by simpa using hquotient))
  exact mul_nonneg (by exact_mod_cast hnearest) (ulp_pos x).le

/-- A positive number is rounded within its power of two. -/
theorem round_bounds (h : 0 < x) :
    2 ^ Int.log 2 x ≤ round x ∧ round x ≤ 2 ^ (Int.log 2 x + 1) := by
  have hlow : (2 : ℚ) ^ Int.log 2 x ≤ x := by exact_mod_cast Int.zpow_log_le_self one_lt_two h
  have hhigh : x < (2 : ℚ) ^ (Int.log 2 x + 1) := by
    exact_mod_cast Int.lt_zpow_succ_log_self one_lt_two x
  have hulp : ulp x = 2 ^ (Int.log 2 x - 52) := by rw [ulp, abs_of_pos h]
  have hsplit : ∀ j : ℕ, ((2 ^ j : ℤ) : ℚ) * ulp x = 2 ^ (Int.log 2 x - 52 + j) := by
    intro j
    rw [hulp, zpow_add₀ two_ne_zero, mul_comm]
    simp
  constructor
  · have hone : (2 ^ 52 : ℤ) ≤ nearest (x / ulp x) := by
      rw [← nearest_intCast (2 ^ 52)]
      refine nearest_mono ((le_div_iff₀ (ulp_pos x)).mpr ?_)
      rw [hsplit 52]
      simpa using hlow
    calc (2 : ℚ) ^ Int.log 2 x = ((2 ^ 52 : ℤ) : ℚ) * ulp x := by rw [hsplit 52]; simp
      _ ≤ round x := mul_le_mul_of_nonneg_right (Int.cast_le.mpr hone) (ulp_pos x).le
  · have htwo : nearest (x / ulp x) ≤ (2 ^ 53 : ℤ) := by
      rw [← nearest_intCast (2 ^ 53)]
      refine nearest_mono ((div_le_iff₀ (ulp_pos x)).mpr ?_)
      rw [hsplit 53]
      refine hhigh.le.trans_eq (congrArg _ ?_)
      push_cast
      ring
    calc round x ≤ ((2 ^ 53 : ℤ) : ℚ) * ulp x :=
          mul_le_mul_of_nonneg_right (Int.cast_le.mpr htwo) (ulp_pos x).le
      _ = 2 ^ (Int.log 2 x + 1) := by
          rw [hsplit 53]
          refine congrArg _ ?_
          push_cast
          ring

theorem round_mono (hx : 0 ≤ x) (h : x ≤ y) : round x ≤ round y := by
  rcases hx.eq_or_lt with rfl | hpos
  · simpa [round, nearest] using round_nonneg h
  have hy : 0 < y := hpos.trans_le h
  rcases (Int.log_mono_right (b := 2) hpos h).lt_or_eq with hlt | heq
  · calc round x ≤ 2 ^ (Int.log 2 x + 1) := (round_bounds hpos).2
      _ ≤ 2 ^ Int.log 2 y := zpow_le_zpow_right₀ one_le_two hlt
      _ ≤ round y := (round_bounds hy).1
  · have hulp : ulp x = ulp y := by rw [ulp, ulp, abs_of_pos hpos, abs_of_pos hy, heq]
    have hquotient : x / ulp x ≤ y / ulp y := by
      rw [hulp]
      exact div_le_div_of_nonneg_right h (ulp_pos y).le
    calc round x ≤ nearest (y / ulp y) * ulp x :=
          mul_le_mul_of_nonneg_right (Int.cast_le.mpr (nearest_mono hquotient)) (ulp_pos x).le
      _ = round y := by rw [hulp, round]

end MovieReservation.Lib.Binary64
