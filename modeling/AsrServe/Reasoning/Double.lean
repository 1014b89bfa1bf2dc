import Mathlib.Algebra.Order.Ring.Nat
import Mathlib.Data.List.Basic

/-!
# Double-precision numbers

Rounding to 53 binary digits, and decimal texts with a fixed number of places.
-/

namespace AsrServe.Reasoning

/-- The integer nearest to `n / d`, the even one of two that are. -/
def roundHalfEven (n d : Nat) : Nat :=
  if 2 * (n % d) < d ∨ 2 * (n % d) = d ∧ n / d % 2 = 0 then n / d else n / d + 1

/-- `m * 2 ^ e` is a double that is neither infinite nor finer than a subnormal one. -/
structure Fits (m : Nat) (e : Int) : Prop where
  mantissa_le : m ≤ 2 ^ 53
  exponent_ge : -1074 ≤ e
  lt_overflow : m * 2 ^ e.toNat < 2 ^ 1024

instance (m : Nat) (e : Int) : Decidable (Fits m e) :=
  decidable_of_iff (m ≤ 2 ^ 53 ∧ -1074 ≤ e ∧ m * 2 ^ e.toNat < 2 ^ 1024)
    ⟨fun h ↦ ⟨h.1, h.2.1, h.2.2⟩, fun h ↦ ⟨h.1, h.2, h.3⟩⟩

/-- A double: the sign, and `m * 2 ^ e` without it. -/
inductive Double where
  | finite (negative : Bool) (m : Nat) (e : Int) (fits : Fits m e)
  | infinite (negative : Bool)
  | nan

namespace Double

/-- The mantissa and the exponent that `m * 2 ^ e` is rounded to. -/
def nearest (m : Nat) (e : Int) : Nat × Int :=
  -- the exponent of the last digit: of 53, or of a subnormal number
  let last := max (e + m.log2 - 52) (-1074)
  if last ≤ e then (m, e) else (roundHalfEven m (2 ^ (last - e).toNat), last)

/-- The double nearest to `m * 2 ^ e` with a sign. -/
def round (negative : Bool) (m : Nat) (e : Int) : Double :=
  if fits : Fits (nearest m e).1 (nearest m e).2 then .finite negative _ _ fits
  else .infinite negative

/-- An integer as a double, unless it is too large for one. -/
def ofInt (n : Int) : Option Double :=
  match round (n < 0) n.natAbs 0 with
  | .infinite _ => none
  | x => some x

/-- The product with a natural number that is itself a double. -/
def scale (k : Nat) : Double → Double
  | .finite negative m e _ => round negative (k * m) e
  | .infinite negative => .infinite negative
  | .nan => .nan

/-- `x < y`; the two mantissas are brought to one exponent. -/
def lt : Double → Double → Bool
  | .finite negative m e _, .finite negative' m' e' _ =>
    let x : Int := m * 2 ^ (e - min e e').toNat
    let y : Int := m' * 2 ^ (e' - min e e').toNat
    (if negative then -x else x) < (if negative' then -y else y)
  | .nan, _ => false
  | _, .nan => false
  | .infinite negative, .infinite negative' => negative && !negative'
  | .infinite negative, .finite _ _ _ _ => negative
  | .finite _ _ _ _, .infinite negative => !negative

def sign (negative : Bool) : String := if negative then "-" else ""

/-- The decimal text with `places` digits after the point, for `0 < places`. -/
def fixed (places : Nat) : Double → String
  | .finite negative m e _ =>
    let n := roundHalfEven (m * 2 ^ e.toNat * 10 ^ places) (2 ^ (-e).toNat)
    let fraction := (Nat.toDigits 10 (n % 10 ^ places)).leftpad places '0'
    sign negative ++ toString (n / 10 ^ places) ++ "." ++ String.ofList fraction
  | .infinite negative => sign negative ++ "inf"
  | .nan => "nan"

end Double

/-! ## Rounding -/

theorem roundHalfEven_cases (n d : Nat) :
    roundHalfEven n d = n / d ∨ roundHalfEven n d = n / d + 1 := by
  rw [roundHalfEven]
  split_ifs
  · exact .inl rfl
  · exact .inr rfl

theorem le_roundHalfEven {n d b : Nat} (hd : 0 < d) (h : b * d ≤ n) : b ≤ roundHalfEven n d := by
  have hb := (Nat.le_div_iff_mul_le hd).mpr h
  rcases roundHalfEven_cases n d with hq | hq <;> omega

theorem roundHalfEven_le {n d b : Nat} (hd : 0 < d) (h : n < b * d) : roundHalfEven n d ≤ b := by
  have hb := (Nat.div_lt_iff_lt_mul hd).mpr h
  rcases roundHalfEven_cases n d with hq | hq <;> omega

/-- Up to the middle between an odd number and the even one above it, the odd one is near. -/
theorem roundHalfEven_lt_iff {n d b : Nat} (hd : 0 < d) (hb : b % 2 = 0) (hpos : 0 < b) :
    roundHalfEven n d < b ↔ 2 * n < (2 * b - 1) * d := by
  have hdiv := Nat.div_add_mod n d
  have hmod := Nat.mod_lt n hd
  have hsplit : (2 * b - 1) * d = 2 * (d * (b - 1)) + d := by
    obtain ⟨c, rfl⟩ := Nat.exists_eq_add_of_lt hpos
    rw [show 2 * (0 + c + 1) - 1 = 2 * c + 1 by omega, show 0 + c + 1 - 1 = c by omega,
      Nat.add_mul, Nat.one_mul, Nat.mul_assoc, Nat.mul_comm c d]
  rw [hsplit, roundHalfEven]
  rcases Nat.lt_trichotomy (n / d) (b - 1) with hlt | heq | hgt
  · -- a whole step below
    have hstep : d * (n / d) + d ≤ d * (b - 1) := by
      rw [← Nat.mul_succ]
      exact Nat.mul_le_mul_left d hlt
    split_ifs <;> omega
  · rw [heq] at hdiv ⊢
    split_ifs with hnear <;> omega
  · have hstep : d * (b - 1) + d ≤ d * (n / d) := by
      rw [← Nat.mul_succ]
      exact Nat.mul_le_mul_left d hgt
    split_ifs <;> omega

/-! ## Integers -/

namespace Double

theorem nearest_of_log2_le {m : Nat} (h : m.log2 ≤ 52) : nearest m 0 = (m, 0) := by
  rw [nearest]
  exact if_pos (max_le (by omega) (by omega))

theorem nearest_of_lt_log2 {m s : Nat} (h : m.log2 = 52 + s) (hs : 0 < s) :
    nearest m 0 = (roundHalfEven m (2 ^ s), (s : Int)) := by
  have hlast : max ((0 : Int) + m.log2 - 52) (-1074) = s := by
    rw [max_eq_left (by omega)]
    omega
  rw [nearest, hlast, if_neg (by omega), Int.sub_zero, Int.toNat_natCast]

theorem ofInt_isSome (n : Int) :
    (ofInt n).isSome ↔ Fits (nearest n.natAbs 0).1 (nearest n.natAbs 0).2 := by
  rw [ofInt, round]
  by_cases h : Fits (nearest n.natAbs 0).1 (nearest n.natAbs 0).2
  · rw [dif_pos h]
    exact iff_of_true rfl h
  · rw [dif_neg h]
    exact iff_of_false Bool.false_ne_true h

theorem fits_roundHalfEven_iff {m s : Nat} (hlo : 2 ^ 52 * 2 ^ s ≤ m) (hhi : m < 2 ^ 53 * 2 ^ s) :
    Fits (roundHalfEven m (2 ^ s)) s ↔ m < 2 ^ 1024 - 2 ^ 970 := by
  have hpos : 0 < 2 ^ s := Nat.two_pow_pos s
  have hle : roundHalfEven m (2 ^ s) ≤ 2 ^ 53 := roundHalfEven_le hpos hhi
  have hge : 2 ^ 52 ≤ roundHalfEven m (2 ^ s) := le_roundHalfEven hpos hlo
  have hiff : Fits (roundHalfEven m (2 ^ s)) s ↔ roundHalfEven m (2 ^ s) * 2 ^ s < 2 ^ 1024 :=
    ⟨fun h ↦ h.lt_overflow, fun h ↦ ⟨hle, by omega, h⟩⟩
  rw [hiff]
  rcases Nat.lt_trichotomy s 971 with hsmall | rfl | hlarge
  · have hpow : 2 ^ s ≤ 2 ^ 970 := pow_le_pow_right₀ (by decide) (by omega)
    apply iff_of_true
    · calc roundHalfEven m (2 ^ s) * 2 ^ s ≤ 2 ^ 53 * 2 ^ 970 := Nat.mul_le_mul hle hpow
        _ < 2 ^ 1024 := by decide +kernel
    · calc m < 2 ^ 53 * 2 ^ s := hhi
        _ ≤ 2 ^ 53 * 2 ^ 970 := Nat.mul_le_mul_left _ hpow
        _ ≤ 2 ^ 1024 - 2 ^ 970 := by decide +kernel
  · -- the last binade: the mantissa must not be rounded up to `2 ^ 53`
    have hmantissa : roundHalfEven m (2 ^ 971) * 2 ^ 971 < 2 ^ 1024 ↔
        roundHalfEven m (2 ^ 971) < 2 ^ 53 := by
      rw [show 2 ^ 1024 = 2 ^ 53 * 2 ^ 971 by decide +kernel, Nat.mul_lt_mul_right hpos]
    rw [hmantissa, roundHalfEven_lt_iff hpos (by decide) (by decide),
      show (2 * 2 ^ 53 - 1) * 2 ^ 971 = 2 * (2 ^ 1024 - 2 ^ 970) by decide +kernel,
      Nat.mul_lt_mul_left (by decide)]
  · have hpow : 2 ^ 972 ≤ 2 ^ s := pow_le_pow_right₀ (by decide) hlarge
    have hbound : 2 ^ 1024 ≤ 2 ^ 52 * 2 ^ s := by
      rw [show 2 ^ 1024 = 2 ^ 52 * 2 ^ 972 by decide +kernel]
      exact Nat.mul_le_mul_left _ hpow
    apply iff_of_false
    · exact Nat.not_lt.mpr (hbound.trans (Nat.mul_le_mul_right _ hge))
    · exact Nat.not_lt.mpr ((Nat.sub_le _ _).trans (hbound.trans hlo))

/-- An integer is too large from halfway between the largest double and the power after it. -/
theorem ofInt_isSome_iff (n : Int) : (ofInt n).isSome ↔ n.natAbs < 2 ^ 1024 - 2 ^ 970 := by
  rw [ofInt_isSome]
  generalize n.natAbs = m
  by_cases hsmall : m.log2 ≤ 52
  · have hm : m < 2 ^ 53 := by
      rcases Nat.eq_zero_or_pos m with rfl | hpos
      · exact Nat.two_pow_pos 53
      · exact (Nat.log2_lt hpos.ne').mp (by omega)
    have hbound : 2 ^ 53 ≤ 2 ^ 1024 - 2 ^ 970 := by decide +kernel
    rw [nearest_of_log2_le hsmall]
    refine iff_of_true ⟨hm.le, ?_, ?_⟩ (hm.trans_le hbound)
    · show (-1074 : Int) ≤ 0
      decide
    · show m * 2 ^ 0 < 2 ^ 1024
      rw [Nat.pow_zero, Nat.mul_one]
      exact (hm.trans_le hbound).trans_le (Nat.sub_le _ _)
  · obtain ⟨s, hs⟩ := Nat.exists_eq_add_of_lt (Nat.lt_of_not_le hsmall)
    have hm : m ≠ 0 := by
      rintro rfl
      exact hsmall (by decide)
    rw [nearest_of_lt_log2 hs (Nat.succ_pos s)]
    apply fits_roundHalfEven_iff
    · rw [← Nat.pow_add, ← Nat.le_log2 hm, hs]
      omega
    · rw [← Nat.pow_add, ← Nat.log2_lt hm, hs]
      omega

end Double

end AsrServe.Reasoning
