import AsrServe.Reasoning.ByteReads
import Mathlib.Algebra.BigOperators.Group.Finset.Piecewise
import Mathlib.Algebra.BigOperators.Group.List.Basic
import Mathlib.Algebra.Order.BigOperators.Group.List
import Mathlib.Data.List.GetD
import Mathlib.Tactic.Ring

/-!
# Signed 16-bit little-endian samples

Audio samples as a byte-addressed store holds them, their integer values, and the two measures the
classifiers take of a stretch of samples: total magnitude and number of sign changes.
-/

namespace AsrServe.Reasoning

-- The 16-bit word whose low byte comes first.
def word16 (lo hi : UInt8) : BitVec 16 := hi.toBitVec ++ lo.toBitVec

theorem word16_toNat (lo hi : UInt8) : (word16 lo hi).toNat = 256 * hi.toNat + lo.toNat := by
  have hlo := lo.toNat_lt
  rw [word16, BitVec.toNat_append, UInt8.toNat_toBitVec, UInt8.toNat_toBitVec,
    ← Nat.shiftLeft_add_eq_or_of_lt hlo, Nat.shiftLeft_eq]
  omega

def sampleAt (byte : Nat → UInt8) (off : Nat) : BitVec 16 := word16 (byte off) (byte (off + 1))

/-- The `n` samples from byte offset `off` on, as integers. -/
def pcmSamples (byte : Nat → UInt8) : Nat → Nat → List Int
  | _, 0 => []
  | off, n + 1 => (sampleAt byte off).toInt :: pcmSamples byte (off + 2) n

@[simp] theorem pcmSamples_length (byte : Nat → UInt8) (off n : Nat) :
    (pcmSamples byte off n).length = n := by
  induction n generalizing off with
  | zero => rfl
  | succ n ih => rw [pcmSamples, List.length_cons, ih]

-- Samples depend only on the bytes they occupy.
theorem pcmSamples_congr {f g : Nat → UInt8} {a b n : Nat}
    (h : ∀ i < 2 * n, f (a + i) = g (b + i)) : pcmSamples f a n = pcmSamples g b n := by
  induction n generalizing a b with
  | zero => rfl
  | succ n ih =>
    have h0 := h 0 (by omega)
    have h1 := h 1 (by omega)
    rw [Nat.add_zero, Nat.add_zero] at h0
    rw [pcmSamples, pcmSamples, sampleAt, sampleAt, h0, h1]
    refine congrArg _ (ih fun i hi ↦ ?_)
    have hs := h (i + 2) (by omega)
    rwa [show a + (i + 2) = a + 2 + i by omega, show b + (i + 2) = b + 2 + i by omega] at hs

theorem pcmSamples_add (byte : Nat → UInt8) (off m n : Nat) :
    pcmSamples byte off (m + n) = pcmSamples byte off m ++ pcmSamples byte (off + 2 * m) n := by
  induction m generalizing off with
  | zero => rw [Nat.zero_add]; rfl
  | succ m ih =>
    rw [Nat.succ_add, pcmSamples, pcmSamples, List.cons_append, ih,
      show off + 2 * (m + 1) = off + 2 + 2 * m by omega]

/-- The samples of a byte list read from its front, a dangling last byte left out. -/
def samplesOf : List UInt8 → List Int
  | lo :: hi :: rest => (word16 lo hi).toInt :: samplesOf rest
  | _ => []

-- Addressed samples of a list are the samples read off its front, one pair after the other.
theorem pcmSamples_getD (bytes : List UInt8) (off n : Nat) (h : off + 2 * n ≤ bytes.length) :
    pcmSamples (fun i ↦ bytes.getD i 0) off n = (samplesOf (bytes.drop off)).take n := by
  induction n generalizing off with
  | zero => rw [List.take_zero, pcmSamples]
  | succ n ih =>
    rw [List.drop_eq_getElem_cons (by omega), List.drop_eq_getElem_cons (by omega), samplesOf,
      List.take_succ_cons, ← ih (off + 2) (by omega), pcmSamples, sampleAt,
      List.getD_eq_getElem _ _ (by omega), List.getD_eq_getElem _ _ (by omega)]

theorem samplesOf_length (bytes : List UInt8) : (samplesOf bytes).length = bytes.length / 2 := by
  induction bytes using samplesOf.induct with
  | case1 lo hi rest ih =>
    rw [samplesOf, List.length_cons, ih, List.length_cons, List.length_cons]
    omega
  | case2 bytes h =>
    match bytes, h with
    | [], _ => rfl
    | [_], _ => simp [samplesOf]
    | lo :: hi :: rest, h => exact absurd rfl (h lo hi rest)

theorem sample_natAbs_le (s : BitVec 16) : s.toInt.natAbs ≤ 32768 := by
  have hlt := s.toInt_lt
  have hle := s.le_toInt
  omega

/-! ## Total magnitude -/

def magnitudeSum (l : List Int) : Nat := (l.map Int.natAbs).sum

@[simp] theorem magnitudeSum_nil : magnitudeSum [] = 0 := rfl

@[simp] theorem magnitudeSum_cons (s : Int) (l : List Int) :
    magnitudeSum (s :: l) = s.natAbs + magnitudeSum l := by
  rw [magnitudeSum, List.map_cons, List.sum_cons, magnitudeSum]

theorem magnitudeSum_append (l m : List Int) :
    magnitudeSum (l ++ m) = magnitudeSum l + magnitudeSum m := by
  rw [magnitudeSum, List.map_append, List.sum_append, magnitudeSum, magnitudeSum]

theorem magnitudeSum_pcm_le (byte : Nat → UInt8) (off n : Nat) :
    magnitudeSum (pcmSamples byte off n) ≤ 32768 * n := by
  induction n generalizing off with
  | zero => exact Nat.le_refl 0
  | succ n ih =>
    rw [pcmSamples, magnitudeSum_cons]
    have hs := sample_natAbs_le (sampleAt byte off)
    have hr := ih (off + 2)
    omega

/-- A 16-bit sample's magnitude as an unsigned 32-bit word, `-32768` included. -/
def magnitude32 (s : BitVec 16) : BitVec 32 :=
  if s.slt 0#16 then -(s.signExtend 32) else s.signExtend 32

theorem magnitude32_toNat (s : BitVec 16) : (magnitude32 s).toNat = s.toInt.natAbs := by
  have hb := sample_natAbs_le s
  rw [magnitude32, BitVec.slt_eq_decide, BitVec.signExtend, ← BitVec.ofInt_neg]
  simp only [BitVec.toInt_zero, decide_eq_true_eq]
  split
  · rw [BitVec.toNat_ofInt]
    omega
  · rw [BitVec.toNat_ofInt]
    omega

/-! ## Sign changes -/

/-- How many adjacent samples differ in sign, the first one compared with `prev`. -/
def signChanges : Int → List Int → Nat
  | _, [] => 0
  | prev, s :: l => (if (s < 0) = (prev < 0) then 0 else 1) + signChanges s l

theorem signChanges_le (prev : Int) (l : List Int) : signChanges prev l ≤ l.length := by
  induction l generalizing prev with
  | nil => exact Nat.le_refl 0
  | cons s l ih =>
    have hr := ih s
    rw [signChanges, List.length_cons]
    split <;> omega

/-! ## By index -/

theorem pcmSamples_eq_map (byte : Nat → UInt8) (off n : Nat) :
    pcmSamples byte off n = (List.range n).map fun i ↦ (sampleAt byte (off + 2 * i)).toInt := by
  induction n with
  | zero => rfl
  | succ n ih =>
    rw [pcmSamples_add, ih, List.range_succ, List.map_append]
    rfl

theorem magnitudeSum_map_range (s : Nat → Int) (n : Nat) :
    magnitudeSum ((List.range n).map s) = ∑ i ∈ Finset.range n, (s i).natAbs := by
  induction n with
  | zero => rfl
  | succ n ih =>
    rw [List.range_succ, List.map_append, magnitudeSum_append, ih, Finset.sum_range_succ]
    rfl

/-- The sample before the `i`-th, `prev` before the first. -/
def before (prev : Int) (s : Nat → Int) : Nat → Int
  | 0 => prev
  | i + 1 => s i

/-- The sign changes are the indices of which exactly one of the sample and the sample before is
negative. -/
theorem signChanges_map_range (prev : Int) (s : Nat → Int) (n : Nat) :
    signChanges prev ((List.range n).map s) =
      ((Finset.range n).filter fun i ↦ ¬ (s i < 0 ↔ before prev s i < 0)).card := by
  induction n generalizing prev s with
  | zero => rfl
  | succ n ih =>
    have hrest := ih (s 0) (s ∘ Nat.succ)
    rw [Finset.card_filter] at hrest
    rw [List.range_succ_eq_map, List.map_cons, List.map_map, signChanges, hrest,
      Finset.card_filter, Finset.sum_range_succ', Nat.add_comm]
    congr 1
    · apply Finset.sum_congr rfl
      intro i _
      cases i <;> rfl
    · show (if (s 0 < 0) = (prev < 0) then 0 else 1) = if ¬ (s 0 < 0 ↔ prev < 0) then 1 else 0
      by_cases h : s 0 < 0 ↔ prev < 0
      · rw [if_pos (propext h), if_neg (not_not_intro h)]
      · rw [if_neg (fun he ↦ h (iff_of_eq he)), if_pos h]

end AsrServe.Reasoning
