import AsrServe.VadEdge.VadModule
import Mathlib.Algebra.BigOperators.Intervals

/-!
# `vad_classify` in unbounded integers (`vad-edge/wasm/vad_module.wat`)

`vad_classify` over an arithmetic that gives up as soon as a result does not fit its word.  On
chunks inside the two pages of memory it comes to the same verdict as over WebAssembly's own, which
wraps: the one the integers give.
-/

open AsrServe.Reasoning

namespace AsrServe.VadEdge.Wasm

/-! ## Checked arithmetic -/

-- Every result that does not fit is a trap.
def Arith.checked : Arith where
  add a b := if a.saddOverflow b then .trap else .value (a + b)
  sub a b := if a.ssubOverflow b then .trap else .value (a - b)
  mul a b := if a.smulOverflow b then .trap else .value (a * b)
  wrap a := if (a.setWidth 32).toInt = a.toInt then .value (a.setWidth 32) else .trap

theorem checked_add {w : Nat} {a b : BitVec w} (hlo : -2 ^ (w - 1) ≤ a.toInt + b.toInt)
    (hhi : a.toInt + b.toInt < 2 ^ (w - 1)) : Arith.checked.add a b = .value (a + b) := by
  apply if_neg
  rw [BitVec.saddOverflow, Bool.or_eq_true, decide_eq_true_eq, decide_eq_true_eq]
  omega

theorem checked_sub {w : Nat} {a b : BitVec w} (hlo : -2 ^ (w - 1) ≤ a.toInt - b.toInt)
    (hhi : a.toInt - b.toInt < 2 ^ (w - 1)) : Arith.checked.sub a b = .value (a - b) := by
  apply if_neg
  rw [BitVec.ssubOverflow, Bool.or_eq_true, decide_eq_true_eq, decide_eq_true_eq]
  omega

theorem checked_mul {w : Nat} {a b : BitVec w} (hlo : -2 ^ (w - 1) ≤ a.toInt * b.toInt)
    (hhi : a.toInt * b.toInt < 2 ^ (w - 1)) : Arith.checked.mul a b = .value (a * b) := by
  apply if_neg
  rw [BitVec.smulOverflow, Bool.or_eq_true, decide_eq_true_eq, decide_eq_true_eq]
  omega

namespace Exec

/-- In range, the loop body comes to the same with every result checked. -/
theorem loopBody_checked (inst : Instance) (ptr : BitVec 32) (l : Locals)
    (hmem : ptr.toNat + 2 * l.i.toNat + 2 ≤ inst.memory.size) (hsize : inst.memory.size ≤ 131072)
    (he : l.energy.toNat + 32768 < 2 ^ 63) (hz : l.zcr.toNat + 1 < 2 ^ 31) :
    (loopBody .checked ptr l inst).outcome = (loopBody .wrapping ptr l inst).outcome := by
  have hptr : ptr.toInt = ptr.toNat := signed_toNat (by omega)
  have hi : l.i.toInt = l.i.toNat := signed_toNat (by omega)
  have htwo : (2#32 : BitVec 32).toInt = 2 := by decide
  have hone : (1#32 : BitVec 32).toInt = 1 := by decide
  have hoffsetNat : (l.i * 2#32).toNat = 2 * l.i.toNat := by
    rw [BitVec.toNat_mul, BitVec.toNat_ofNat]
    omega
  have hoffset : (l.i * 2#32).toInt = (l.i * 2#32).toNat := signed_toNat (by omega)
  have hzcr : l.zcr.toInt = l.zcr.toNat := signed_toNat (by omega)
  have henergy : l.energy.toInt = l.energy.toNat := signed_toNat (by omega)
  have hmul : Arith.checked.mul l.i 2#32 = .value (l.i * 2#32) := by
    apply checked_mul <;> rw [hi, htwo] <;> omega
  have haddr : Arith.checked.add ptr (l.i * 2#32) = .value (ptr + l.i * 2#32) := by
    apply checked_add <;> rw [hptr, hoffset, hoffsetNat] <;> omega
  have hnext : Arith.checked.add l.i 1#32 = .value (l.i + 1#32) := by
    apply checked_add <;> rw [hi, hone] <;> omega
  have hcount : Arith.checked.add l.zcr 1#32 = .value (l.zcr + 1#32) := by
    apply checked_add <;> rw [hzcr, hone] <;> omega
  have hload : Wasm.load16S inst.memory (ptr + l.i * 2#32) =
      .value ((sampleAt inst.memory.byte (ptr.toNat + 2 * l.i.toNat)).signExtend 32) := by
    rw [Wasm.load16S, sampleAddr_toNat ptr l.i (by omega), if_pos hmem]
  generalize sampleAt inst.memory.byte (ptr.toNat + 2 * l.i.toNat) = s at hload
  have hb := sample_natAbs_le s
  have hnegated : Arith.checked.sub 0#32 (s.signExtend 32) = .value (0#32 - s.signExtend 32) := by
    apply checked_sub <;> rw [sample_toInt, BitVec.toInt_zero] <;> omega
  have hmagnitude := magnitude_toNat s
  have hsum : ∀ m : BitVec 64, m.toNat = s.toInt.natAbs →
      Arith.checked.add l.energy m = .value (l.energy + m) := by
    intro m hm
    have hmInt : m.toInt = m.toNat := signed_toNat (by omega)
    apply checked_add <;> rw [henergy, hmInt, hm] <;> omega
  have hcross := (apply_ite Outcome.value ((s.signExtend 32 ^^^ l.prev).slt 0#32) (l.zcr + 1#32)
    l.zcr).symm
  rw [loopBody_outcome hmul haddr hload hnegated (hsum _ hmagnitude) (by rw [hcount]; exact hcross)
      hnext,
    loopBody_outcome rfl rfl hload rfl rfl hcross rfl]

theorem loop_checked (inst : Instance) (ptr nSamples : BitVec 32) (k : Nat) (l : Locals)
    (fuel : Nat) (hi : l.i.toNat + k = nSamples.toNat)
    (hmem : ptr.toNat + 2 * nSamples.toNat ≤ inst.memory.size) (hsize : inst.memory.size ≤ 131072)
    (he : l.energy.toNat + k * 32768 < 2 ^ 63) (hz : l.zcr.toNat + k < 2 ^ 31) :
    (loop .checked ptr nSamples fuel l inst).outcome =
      (loop .wrapping ptr nSamples fuel l inst).outcome := by
  induction k generalizing l fuel with
  | zero =>
    cases fuel with
    | zero => rfl
    | succ fuel =>
      have hdone : nSamples.sle l.i = true := (sle_iff (by omega) (by omega)).mpr (by omega)
      rw [loop, loop, if_pos hdone, if_pos hdone]
  | succ k ih =>
    cases fuel with
    | zero => rfl
    | succ fuel =>
      obtain ⟨m, hbody, hmi, hme, hmz, -⟩ := loopBody_value inst ptr l (by omega) (by omega)
        (by omega) (by omega) (by omega)
      have hs := sample_natAbs_le (sampleAt inst.memory.byte (ptr.toNat + 2 * l.i.toNat))
      have hzb : m.zcr.toNat ≤ l.zcr.toNat + 1 := by
        rw [hmz]
        split <;> omega
      have hchecked := loopBody_checked inst ptr l (by omega) hsize (by omega) (by omega)
      have hmore : ¬ nSamples.sle l.i = true := by
        rw [sle_iff (by omega) (by omega)]
        omega
      rw [loop, loop, if_neg hmore, if_neg hmore,
        bind_of_value (readOnly_loopBody ptr l) (hchecked.trans hbody),
        bind_of_value (readOnly_loopBody ptr l) hbody]
      exact ih m fuel (by omega) (by omega) (by omega)

/-- What the loop leaves is small enough for the averages. -/
theorem verdict_checked (inst : Instance) {nSamples : BitVec 32} {l : Locals}
    (hpos : 0 < nSamples.toNat) (hn : nSamples.toNat ≤ 65536)
    (he : l.energy.toNat ≤ 32768 * nSamples.toNat) (hz : l.zcr.toNat ≤ nSamples.toNat) :
    (verdict .checked nSamples l inst).outcome = (verdict .wrapping nSamples l inst).outcome := by
  have hn64 : (nSamples.setWidth 64).toNat = nSamples.toNat := by
    rw [BitVec.toNat_setWidth]
    exact Nat.mod_eq_of_lt (by omega)
  obtain ⟨q, hq, hqv⟩ := divU_toNat (a := l.energy) (b := nSamples.setWidth 64) (by omega)
  have hqb : q.toNat ≤ 32768 := by
    rw [hqv, hn64]
    exact (Nat.div_le_iff_le_mul_add_pred hpos).mpr (by rw [Nat.mul_comm]; omega)
  have hwrap : Arith.checked.wrap q = .value (q.setWidth 32) := by
    apply if_pos
    have hkept : (q.setWidth 32).toNat = q.toNat := by
      rw [BitVec.toNat_setWidth]
      exact Nat.mod_eq_of_lt (by omega)
    rw [signed_toNat (by omega), signed_toNat (by omega), hkept]
  have hscale : Arith.checked.mul l.zcr 100#32 = .value (l.zcr * 100#32) := by
    have hzcr : l.zcr.toInt = l.zcr.toNat := signed_toNat (by omega)
    have hhundred : (100#32 : BitVec 32).toInt = 100 := by decide
    apply checked_mul <;> rw [hzcr, hhundred] <;> omega
  obtain ⟨z, hz, -⟩ := divU_toNat (a := l.zcr * 100#32) (b := nSamples) hpos
  rw [verdict_outcome hq hwrap hscale hz, verdict_outcome hq rfl rfl hz]

end Exec

/-! ## The verdict in integers -/

/-- A module instance with two pages of memory. -/
def classifierOn (byte : Nat → UInt8) (energyThreshold zcrThreshold : BitVec 32) : Instance where
  memory := { size := 2 * 65536, byte := byte }
  energyThreshold := energyThreshold
  zcrThreshold := zcrThreshold

-- The `i`-th sample of the chunk at `ptr`.
def sampleOf (byte : Nat → UInt8) (ptr i : Nat) : Int := (sampleAt byte (ptr + 2 * i)).toInt

/-- The indices at which exactly one of a sample and the sample before is negative, the sample
before the first being zero. -/
def crossings (byte : Nat → UInt8) (ptr n : Nat) : Nat :=
  ((Finset.range n).filter fun i ↦
    ¬ (sampleOf byte ptr i < 0 ↔ before 0 (sampleOf byte ptr) i < 0)).card

theorem averageMagnitude_eq (byte : Nat → UInt8) (ptr n : Nat) :
    averageMagnitude (pcmSamples byte ptr n) =
      (∑ i ∈ Finset.range n, (sampleOf byte ptr i).natAbs) / n := by
  rw [averageMagnitude, pcmSamples_length, pcmSamples_eq_map]
  exact congrArg (· / n) (magnitudeSum_map_range (sampleOf byte ptr) n)

theorem crossingRate_eq (byte : Nat → UInt8) (ptr n : Nat) :
    crossingRate (pcmSamples byte ptr n) = 100 * crossings byte ptr n / n := by
  rw [crossingRate, pcmSamples_length, pcmSamples_eq_map]
  exact congrArg (fun c ↦ 100 * c / n) (signChanges_map_range 0 (sampleOf byte ptr) n)

theorem vadClassifyWith_checked (inst : Instance) {ptr nSamples : BitVec 32}
    (hpos : 0 < nSamples.toNat) (hsize : inst.memory.size = 131072)
    (hmem : ptr.toNat + 2 * nSamples.toNat ≤ inst.memory.size) :
    vadClassifyWith .checked inst ptr nSamples = vadClassify inst ptr nSamples := by
  rw [vadClassify, vadClassifyWith, vadClassifyWith, Exec.vadClassifyWith, Exec.vadClassifyWith]
  by_cases hn : nSamples.sle 0#32
  · rw [if_pos hn, if_pos hn]
  · obtain ⟨l, hloop, hle, hlz⟩ := Exec.loop_start_value inst ptr nSamples (by omega) hmem
      (by omega)
    have hchecked := Exec.loop_checked inst ptr nSamples nSamples.toNat Exec.start
      (nSamples.toNat + 1) (by simp [Exec.start]) hmem (by omega) (by simp [Exec.start]; omega)
      (by simp [Exec.start]; omega)
    have hsum := magnitudeSum_pcm_le inst.memory.byte ptr.toNat nSamples.toNat
    have hcross := signChanges_le 0 (pcmSamples inst.memory.byte ptr.toNat nSamples.toNat)
    rw [pcmSamples_length] at hcross
    rw [if_neg hn, if_neg hn,
      Exec.bind_of_value (Exec.readOnly_loop ptr nSamples _ _) (hchecked.trans hloop),
      Exec.bind_of_value (Exec.readOnly_loop ptr nSamples _ _) hloop,
      Exec.verdict_checked inst hpos (by omega) (by omega) (by omega)]

theorem toInt_of_nonneg {x : BitVec 32} (h : 0 ≤ x.toInt) : x.toInt = x.toNat := by
  rw [BitVec.toInt_eq_toNat_cond] at h ⊢
  split
  · rfl
  · rw [if_neg ‹_›] at h
    omega

theorem i32OfBool_isSpeech (energyThreshold zcrThreshold : Int) (samples : List Int) :
    i32OfBool (isSpeech energyThreshold zcrThreshold samples) =
      if energyThreshold < averageMagnitude samples ∨ zcrThreshold < crossingRate samples
      then 1#32 else 0#32 := by
  rw [isSpeech, ← Bool.decide_or, i32OfBool]
  simp only [decide_eq_true_eq]

-- The address and length of a chunk inside memory, read as naturals.
theorem chunk_toNat {ptr nSamples : BitVec 32} (hptr : 0 ≤ ptr.toInt) (hn : 1 ≤ nSamples.toInt)
    (hmem : ptr.toInt + 2 * nSamples.toInt ≤ 131072) :
    0 < nSamples.toNat ∧ ptr.toNat + 2 * nSamples.toNat ≤ 131072 := by
  rw [toInt_of_nonneg hptr, toInt_of_nonneg (by omega)] at hmem
  rw [toInt_of_nonneg (by omega)] at hn
  omega

theorem vadClassify_integers (byte : Nat → UInt8) (energyThreshold zcrThreshold : BitVec 32)
    {ptr nSamples : BitVec 32} (hpos : 0 < nSamples.toNat)
    (hmem : ptr.toNat + 2 * nSamples.toNat ≤ 131072) :
    vadClassify (classifierOn byte energyThreshold zcrThreshold) ptr nSamples = .value
      (if energyThreshold.toInt <
          ((∑ i ∈ Finset.range nSamples.toNat, (sampleOf byte ptr.toNat i).natAbs) /
            nSamples.toNat : Nat) ∨
        zcrThreshold.toInt < (100 * crossings byte ptr.toNat nSamples.toNat / nSamples.toNat : Nat)
      then 1#32 else 0#32) := by
  have hsize : (classifierOn byte energyThreshold zcrThreshold).memory.size = 131072 := rfl
  rw [vadClassify_value (classifierOn byte energyThreshold zcrThreshold) ptr nSamples hpos
    (by omega) (by omega) (by omega), i32OfBool_isSpeech, ← averageMagnitude_eq, ← crossingRate_eq]
  rfl

/-- Inside the two pages `vad_classify` gives the verdict of the integers, and no result on the way
leaves its word; an empty chunk is silence. -/
theorem vad_classify_exact (byte : Nat → UInt8)
    (energyThreshold zcrThreshold ptr nSamples : BitVec 32) :
    (nSamples.toInt ≤ 0 →
      vadClassify (classifierOn byte energyThreshold zcrThreshold) ptr nSamples = .value 0#32) ∧
    (0 ≤ ptr.toInt → 1 ≤ nSamples.toInt → ptr.toInt + 2 * nSamples.toInt ≤ 131072 →
      let n := nSamples.toNat
      let verdict : Outcome (BitVec 32) := .value
        (if energyThreshold.toInt <
            ((∑ i ∈ Finset.range n, (sampleOf byte ptr.toNat i).natAbs) / n : Nat) ∨
          zcrThreshold.toInt < (100 * crossings byte ptr.toNat n / n : Nat)
        then 1#32 else 0#32)
      vadClassify (classifierOn byte energyThreshold zcrThreshold) ptr nSamples = verdict ∧
        vadClassifyWith .checked (classifierOn byte energyThreshold zcrThreshold) ptr nSamples =
          verdict) := by
  constructor
  · intro hn
    have hempty : nSamples.sle 0#32 = true := by
      rwa [BitVec.sle_eq_decide, decide_eq_true_eq, BitVec.toInt_zero]
    rw [vadClassify, vadClassifyWith, Exec.vadClassifyWith, if_pos hempty]
    rfl
  · intro hptr hn hmem n verdict
    obtain ⟨hpos, hinside⟩ := chunk_toNat hptr hn hmem
    have hverdict := vadClassify_integers byte energyThreshold zcrThreshold hpos hinside
    have hsize : (classifierOn byte energyThreshold zcrThreshold).memory.size = 131072 := rfl
    exact ⟨hverdict, (vadClassifyWith_checked _ hpos hsize hinside).trans hverdict⟩

-- The loudest chunk there is, from the first byte of memory to the last.
def loudest (i : Nat) : UInt8 := if i % 2 = 0 then 0x00 else 0x80

theorem loudest_exact :
    let verdict : Outcome (BitVec 32) := .value
      (if (512#32).toInt <
          ((∑ i ∈ Finset.range (65536#32).toNat, (sampleOf loudest (0#32).toNat i).natAbs) /
            (65536#32).toNat : Nat) ∨
        (20#32).toInt <
          (100 * crossings loudest (0#32).toNat (65536#32).toNat / (65536#32).toNat : Nat)
      then 1#32 else 0#32)
    vadClassify (classifierOn loudest 0#32 0#32) 0#32 0#32 = .value 0#32 ∧
      vadClassify (classifierOn loudest 512#32 20#32) 0#32 65536#32 = verdict ∧
      vadClassifyWith .checked (classifierOn loudest 512#32 20#32) 0#32 65536#32 = verdict :=
  ⟨(vad_classify_exact loudest 0#32 0#32 0#32 0#32).1 (by decide),
    (vad_classify_exact loudest 512#32 20#32 0#32 65536#32).2 (by decide) (by decide) (by decide)⟩

/-! ## Crossings inside the chunk -/

/-- The adjacent pairs of samples of which exactly one is negative. -/
def innerCrossings (byte : Nat → UInt8) (ptr n : Nat) : Nat :=
  ((Finset.Ico 1 n).filter fun i ↦
    ¬ (sampleOf byte ptr i < 0 ↔ sampleOf byte ptr (i - 1) < 0)).card

-- A negative first sample is counted as a crossing of its own.
theorem crossings_eq (byte : Nat → UInt8) (ptr : Nat) {n : Nat} (hn : 0 < n) :
    crossings byte ptr n =
      innerCrossings byte ptr n + if sampleOf byte ptr 0 < 0 then 1 else 0 := by
  rw [crossings, innerCrossings, Finset.card_filter, Finset.card_filter, Finset.range_eq_Ico,
    Finset.sum_eq_sum_Ico_succ_bot hn, Nat.add_comm]
  congr 1
  · apply Finset.sum_congr rfl
    intro i hi
    obtain ⟨k, rfl⟩ := Nat.exists_eq_add_one_of_ne_zero
      (Nat.one_le_iff_ne_zero.mp (Finset.mem_Ico.mp hi).1)
    rfl
  · simp [before]

/-- On a quiet chunk the crossings inside it decide, but for a first sample that is negative and
brings the rate over the threshold. -/
theorem inner_crossings_iff (byte : Nat → UInt8)
    (energyThreshold zcrThreshold ptr nSamples : BitVec 32) (hptr : 0 ≤ ptr.toInt)
    (hn : 1 ≤ nSamples.toInt) (hmem : ptr.toInt + 2 * nSamples.toInt ≤ 131072)
    (hquiet : ((∑ i ∈ Finset.range nSamples.toNat, (sampleOf byte ptr.toNat i).natAbs) /
      nSamples.toNat : Nat) ≤ energyThreshold.toInt) :
    let n := nSamples.toNat
    let c := innerCrossings byte ptr.toNat n
    vadClassify (classifierOn byte energyThreshold zcrThreshold) ptr nSamples =
        .value (if zcrThreshold.toInt < (100 * c / n : Nat) then 1#32 else 0#32) ↔
      0 ≤ sampleOf byte ptr.toNat 0 ∨ zcrThreshold.toInt < (100 * c / n : Nat) ∨
        (100 * (c + 1) / n : Nat) ≤ zcrThreshold.toInt := by
  intro n c
  obtain ⟨hpos, hinside⟩ := chunk_toNat hptr hn hmem
  have hloud : ¬ energyThreshold.toInt <
      ((∑ i ∈ Finset.range nSamples.toNat, (sampleOf byte ptr.toNat i).natAbs) /
        nSamples.toNat : Nat) := not_lt.mpr hquiet
  rw [vadClassify_integers byte energyThreshold zcrThreshold hpos hinside, crossings_eq _ _ hpos]
  simp only [hloud, false_or]
  by_cases hfirst : sampleOf byte ptr.toNat 0 < 0
  · rw [if_pos hfirst]
    have hmono : 100 * c / n ≤ 100 * (c + 1) / n := Nat.div_le_div_right (by omega)
    show Outcome.value (if _ < ((100 * (c + 1) / n : Nat) : Int) then _ else _) = _ ↔ _
    by_cases hinner : zcrThreshold.toInt < (100 * c / n : Nat)
    · rw [if_pos hinner, if_pos (by omega)]
      exact iff_of_true rfl (.inr (.inl hinner))
    · rw [if_neg hinner]
      by_cases hover : zcrThreshold.toInt < (100 * (c + 1) / n : Nat)
      · -- the extra crossing makes the difference
        rw [if_pos hover]
        exact iff_of_false (by decide) (by omega)
      · rw [if_neg hover]
        exact iff_of_true rfl (by omega)
  · rw [if_neg hfirst, Nat.add_zero]
    exact iff_of_true rfl (.inl (not_lt.mp hfirst))

-- The samples -1, 1, -1, 1 and so on.
def ripple (addr : Nat) : UInt8 :=
  if addr % 4 < 2 then 0xFF else if addr % 4 = 2 then 1 else 0

theorem ripple_inner_crossings :
    sampleOf ripple 65536 0 < 0 ∧ innerCrossings ripple 65536 4 = 3 ∧
      vadClassify (classifierOn ripple 512#32 20#32) 65536#32 4#32 = .value 1#32 := by
  refine ⟨by decide, by decide, ?_⟩
  have h := inner_crossings_iff ripple 512#32 20#32 65536#32 4#32 (by decide) (by decide)
    (by decide) (by decide)
  exact h.mpr (.inr (.inl (by decide)))

/-- Four samples of -1 have no crossing between them and are speech at the shipped thresholds. -/
theorem negative_start_is_speech :
    let byte : Nat → UInt8 := fun _ ↦ 0xFF
    ((∑ i ∈ Finset.range 4, (sampleOf byte 65536 i).natAbs) / 4 : Nat) ≤ (512#32).toInt ∧
      innerCrossings byte 65536 4 = 0 ∧
      vadClassify (classifierOn byte 512#32 20#32) 65536#32 4#32 ≠
        .value (if (20#32).toInt < (100 * innerCrossings byte 65536 4 / 4 : Nat)
          then 1#32 else 0#32) := by
  decide +kernel

end AsrServe.VadEdge.Wasm
