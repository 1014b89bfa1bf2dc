import Mathlib.Data.Int.Log
import Mathlib.Data.Rat.Floor
import Mathlib.Tactic.Linarith
import Mathlib.Tactic.Ring

/-!
# Rational numbers rounded to 53 binary digits

What double-precision arithmetic makes of a rational number, the exponent taken as unbounded, and
how far a chain of such operations strays.
-/

namespace AsrServe.Reasoning

/-- The integer nearest to `q`, the even one of two that are. -/
def nearestInt (q : ℚ) : ℤ :=
  if q - ⌊q⌋ < 1 / 2 ∨ q - ⌊q⌋ = 1 / 2 ∧ ⌊q⌋ % 2 = 0 then ⌊q⌋ else ⌊q⌋ + 1

/-- `x` to 53 binary digits. -/
def toDouble (x : ℚ) : ℚ :=
  let last := Int.log 2 |x| - 52
  nearestInt (x / 2 ^ last) * 2 ^ last

/-! ## One rounding -/

theorem abs_nearestInt_sub_le (q : ℚ) : |(nearestInt q : ℚ) - q| ≤ 1 / 2 := by
  have hfloor := Int.floor_le q
  have hlt := Int.lt_floor_add_one q
  rw [nearestInt, abs_le]
  split
  · rename_i hnear
    have hle : q - ⌊q⌋ ≤ 1 / 2 := hnear.elim le_of_lt fun h ↦ h.1.le
    constructor <;> linarith
  · rename_i hfar
    have hge : 1 / 2 ≤ q - ⌊q⌋ := not_lt.mp fun h ↦ hfar (.inl h)
    push_cast
    constructor <;> linarith

/-- Half a unit in the last of 53 places. -/
def unitRoundoff : ℚ := 1 / 2 ^ 53

theorem unitRoundoff_pos : 0 < unitRoundoff := by
  rw [unitRoundoff]
  positivity

theorem unitRoundoff_lt_one : unitRoundoff < 1 := by
  rw [unitRoundoff]
  norm_num

theorem abs_toDouble_sub_le (x : ℚ) : |toDouble x - x| ≤ unitRoundoff * |x| := by
  rcases eq_or_ne x 0 with rfl | hx
  · simp [toDouble, nearestInt]
  · have hpow : (0 : ℚ) < 2 ^ (Int.log 2 |x| - 52) := zpow_pos two_pos _
    -- the last place is one of 53 below the leading digit
    have hplace : (2 : ℚ) ^ (Int.log 2 |x| - 52) ≤ 2 * unitRoundoff * |x| := by
      have hlog := Int.zpow_log_le_self Nat.one_lt_two (abs_pos.mpr hx)
      rw [Nat.cast_ofNat] at hlog
      calc (2 : ℚ) ^ (Int.log 2 |x| - 52) = 2 ^ Int.log 2 |x| * (2 * unitRoundoff) := by
            rw [zpow_sub₀ two_ne_zero, unitRoundoff]
            norm_num
            ring
        _ ≤ |x| * (2 * unitRoundoff) :=
            mul_le_mul_of_nonneg_right hlog (by linarith [unitRoundoff_pos])
        _ = 2 * unitRoundoff * |x| := mul_comm _ _
    have hscale : toDouble x - x =
        (nearestInt (x / 2 ^ (Int.log 2 |x| - 52)) - x / 2 ^ (Int.log 2 |x| - 52)) *
          2 ^ (Int.log 2 |x| - 52) := by
      rw [sub_mul, div_mul_cancel₀ x hpow.ne']
      rfl
    rw [hscale, abs_mul, abs_of_pos hpow]
    have hnear := abs_nearestInt_sub_le (x / 2 ^ (Int.log 2 |x| - 52))
    have hmul := mul_le_mul_of_nonneg_right hnear hpow.le
    linarith

/-! ## Chains of roundings -/

/-- `y` is `x` up to `k` roundings. -/
structure Within (k : ℕ) (x y : ℚ) : Prop where
  le : x * (1 - unitRoundoff) ^ k ≤ y
  ge : y * (1 - unitRoundoff) ^ k ≤ x

theorem factor_pos (k : ℕ) : 0 < (1 - unitRoundoff) ^ k :=
  pow_pos (sub_pos.mpr unitRoundoff_lt_one) k

theorem factor_le_one (k : ℕ) : (1 - unitRoundoff) ^ k ≤ 1 :=
  pow_le_one₀ (sub_nonneg.mpr unitRoundoff_lt_one.le) (sub_le_self 1 unitRoundoff_pos.le)

namespace Within

variable {j k : ℕ} {x y z a b : ℚ}

theorem zero : Within k 0 0 := ⟨(zero_mul _).le, (zero_mul _).le⟩

theorem nonneg (h : Within k x y) (hx : 0 ≤ x) : 0 ≤ y :=
  (mul_nonneg hx (factor_pos k).le).trans h.le

theorem pos (h : Within k x y) (hx : 0 < x) : 0 < y :=
  (mul_pos hx (factor_pos k)).trans_le h.le

theorem toDouble (hx : 0 ≤ x) : Within 1 x (toDouble x) := by
  have herror := abs_toDouble_sub_le x
  rw [abs_of_nonneg hx, abs_le] at herror
  have hpos := unitRoundoff_pos
  have hlt := unitRoundoff_lt_one
  constructor
  · rw [pow_one]
    linarith
  · have hmul := mul_le_mul_of_nonneg_right (sub_le_iff_le_add.mp herror.2)
      (sub_nonneg.mpr hlt.le)
    have hsquare : 0 ≤ unitRoundoff * unitRoundoff * x :=
      mul_nonneg (mul_nonneg hpos.le hpos.le) hx
    rw [pow_one]
    linarith

theorem trans (h : Within j x y) (h' : Within k y z) : Within (j + k) x z where
  le := by
    rw [pow_add, ← mul_assoc]
    exact (mul_le_mul_of_nonneg_right h.le (factor_pos k).le).trans h'.le
  ge := by
    rw [add_comm, pow_add, ← mul_assoc]
    exact (mul_le_mul_of_nonneg_right h'.ge (factor_pos j).le).trans h.ge

theorem mono (h : Within j x y) (hx : 0 ≤ x) (hle : j ≤ k) : Within k x y := by
  obtain ⟨d, rfl⟩ := Nat.exists_eq_add_of_le hle
  have hy := h.nonneg hx
  exact h.trans ⟨mul_le_of_le_one_right hy (factor_le_one d),
    mul_le_of_le_one_right hy (factor_le_one d)⟩

theorem add (h : Within k x y) (h' : Within k a b) : Within k (x + a) (y + b) where
  le := (add_mul x a _).le.trans (add_le_add h.le h'.le)
  ge := (add_mul y b _).le.trans (add_le_add h.ge h'.ge)

theorem mul_right (h : Within k x y) {c : ℚ} (hc : 0 ≤ c) : Within k (x * c) (y * c) where
  le := by
    rw [mul_right_comm]
    exact mul_le_mul_of_nonneg_right h.le hc
  ge := by
    rw [mul_right_comm]
    exact mul_le_mul_of_nonneg_right h.ge hc

theorem inv (h : Within k x y) (hx : 0 < x) : Within k x⁻¹ y⁻¹ where
  le := by
    have hy := h.pos hx
    rw [inv_mul_le_iff₀ hx, ← div_eq_mul_inv, le_div_iff₀ hy, mul_comm]
    exact h.ge
  ge := by
    have hy := h.pos hx
    rw [inv_mul_le_iff₀ hy, ← div_eq_mul_inv, le_div_iff₀ hx, mul_comm]
    exact h.le

theorem div (h : Within j x y) (h' : Within k a b) (hx : 0 ≤ x) (ha : 0 < a) :
    Within (j + k) (x / a) (y / b) := by
  have hinv := (h'.inv ha).mul_right (h.nonneg hx)
  rw [mul_comm, mul_comm b⁻¹, ← div_eq_mul_inv, ← div_eq_mul_inv] at hinv
  have hmul := h.mul_right (inv_nonneg.mpr ha.le)
  rw [← div_eq_mul_inv, ← div_eq_mul_inv] at hmul
  exact hmul.trans hinv

/-- Bounds of the exact value are bounds of the rounded one, up to the roundings. -/
theorem bounds (h : Within k x y) {lo hi : ℚ} (hlo : lo ≤ x) (hhi : x ≤ hi) :
    lo * (1 - unitRoundoff) ^ k ≤ y ∧ y * (1 - unitRoundoff) ^ k ≤ hi :=
  ⟨(mul_le_mul_of_nonneg_right hlo (factor_pos k).le).trans h.le, h.ge.trans hhi⟩

end Within

end AsrServe.Reasoning
