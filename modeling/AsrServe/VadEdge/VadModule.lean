import AsrServe.VadEdge.VadExec

/-!
# The Wasm VAD module (`vad-edge/wasm/vad_module.wat`)

`vad_classify` over linear memory and the two threshold globals.  It leaves the instance as it found
it, loads the samples it was given and nothing else, and with WebAssembly's own arithmetic, whose
additions and multiplications wrap, comes to the decision that is taken in unbounded integers.
-/

open AsrServe.Reasoning

namespace AsrServe.VadEdge.Wasm

-- The module as instantiated: two zeroed pages and the thresholds of the text.
def freshInstance : Instance :=
  { memory := { size := 2 * 65536, byte := fun _ ↦ 0 }
    energyThreshold := 512#32
    zcrThreshold := 20#32 }

/-! ## `vad_classify` -/

structure Locals where
  i : BitVec 32
  energy : BitVec 64
  zcr : BitVec 32
  prev : BitVec 32

namespace Exec

variable (ops : Arith)

def loopBody (ptr : BitVec 32) (l : Locals) : Exec Locals :=
  (lift (ops.mul l.i 2#32)).bind fun offset ↦
    (lift (ops.add ptr offset)).bind fun addr ↦
      (load16S addr).bind fun sample ↦
        (lift (ops.sub 0#32 sample)).bind fun negated ↦
          (lift (ops.add l.energy ((if sample.slt 0#32 then negated else sample).signExtend 64))).bind
            fun energy ↦
              (if (sample ^^^ l.prev).slt 0#32 then lift (ops.add l.zcr 1#32) else pure l.zcr).bind
                fun zcr ↦
                  (lift (ops.add l.i 1#32)).bind fun i ↦
                    pure { i := i, energy := energy, zcr := zcr, prev := sample }

/-- The loop: leave when `i >= n_samples`, else run the body and branch back. -/
def loop (ptr nSamples : BitVec 32) : Nat → Locals → Exec Locals
  | 0, _ => lift .outOfFuel
  | fuel + 1, l =>
    if nSamples.sle l.i then
      pure l
    else
      (loopBody ops ptr l).bind (loop ptr nSamples fuel)

-- The part after the loop: the two averages and the decision.
def verdict (nSamples : BitVec 32) (l : Locals) : Exec (BitVec 32) :=
  (lift (divU l.energy (nSamples.setWidth 64))).bind fun quotient ↦
    (lift (ops.wrap quotient)).bind fun avgE ↦
      (lift (ops.mul l.zcr 100#32)).bind fun scaled ↦
        (lift (divU scaled nSamples)).bind fun zcr100 ↦
          getEnergyThreshold.bind fun energyThreshold ↦
            getZcrThreshold.bind fun zcrThreshold ↦
              pure (i32OfBool (energyThreshold.slt avgE) ||| i32OfBool (zcrThreshold.slt zcr100))

def start : Locals := { i := 0#32, energy := 0#64, zcr := 0#32, prev := 0#32 }

/-- `vad_classify` over any arithmetic. -/
def vadClassifyWith (ptr nSamples : BitVec 32) : Exec (BitVec 32) :=
  if nSamples.sle 0#32 then
    pure 0#32
  else
    (loop ops ptr nSamples (nSamples.toNat + 1) start).bind (verdict ops nSamples)

def vadClassify (ptr nSamples : BitVec 32) : Exec (BitVec 32) :=
  vadClassifyWith .wrapping ptr nSamples

end Exec

-- How a call ends.
def vadClassifyWith (ops : Arith) (inst : Instance) (ptr nSamples : BitVec 32) :
    Outcome (BitVec 32) :=
  (Exec.vadClassifyWith ops ptr nSamples inst).outcome

def vadClassify (inst : Instance) (ptr nSamples : BitVec 32) : Outcome (BitVec 32) :=
  vadClassifyWith .wrapping inst ptr nSamples

/-! ## What a call leaves and reads -/

namespace Exec

variable {ops : Arith}

theorem readOnly_loopBody (ptr : BitVec 32) (l : Locals) : (loopBody ops ptr l).ReadOnly := by
  apply (readOnly_lift _).bind
  intro offset
  apply (readOnly_lift _).bind
  intro addr
  apply (readOnly_load16S addr).bind
  intro sample
  apply (readOnly_lift _).bind
  intro negated
  apply (readOnly_lift _).bind
  intro energy
  apply ((readOnly_lift _).ite (readOnly_pure l.zcr) _).bind
  intro zcr
  exact (readOnly_lift _).bind fun i ↦ readOnly_pure _

theorem readOnly_loop (ptr nSamples : BitVec 32) (fuel : Nat) (l : Locals) :
    (loop ops ptr nSamples fuel l).ReadOnly := by
  induction fuel generalizing l with
  | zero => exact readOnly_lift _
  | succ fuel ih => exact (readOnly_pure l).ite ((readOnly_loopBody ptr l).bind ih) _

theorem readOnly_verdict (nSamples : BitVec 32) (l : Locals) :
    (verdict ops nSamples l).ReadOnly := by
  apply (readOnly_lift _).bind
  intro quotient
  apply (readOnly_lift _).bind
  intro avgE
  apply (readOnly_lift _).bind
  intro scaled
  apply (readOnly_lift _).bind
  intro zcr100
  apply readOnly_getEnergyThreshold.bind
  intro energyThreshold
  apply readOnly_getZcrThreshold.bind
  intro zcrThreshold
  exact readOnly_pure _

/-- Whatever it is called with, `vad_classify` changes neither memory nor a global. -/
theorem readOnly_vadClassify (ptr nSamples : BitVec 32) :
    (vadClassify ptr nSamples).ReadOnly :=
  (readOnly_pure _).ite ((readOnly_loop ptr nSamples _ _).bind (readOnly_verdict nSamples)) _

-- The part after the loop reads no memory at all.
theorem loadsIn_verdict (P : Nat → Prop) (nSamples : BitVec 32) (l : Locals) :
    LoadsIn P (verdict ops nSamples l) := by
  apply LoadsIn.bind (readOnly_lift _) (loadsIn_lift P _)
  intro quotient
  apply LoadsIn.bind (readOnly_lift _) (loadsIn_lift P _)
  intro avgE
  apply LoadsIn.bind (readOnly_lift _) (loadsIn_lift P _)
  intro scaled
  apply LoadsIn.bind (readOnly_lift _) (loadsIn_lift P _)
  intro zcr100
  apply LoadsIn.bind readOnly_getEnergyThreshold (fun inst ↦ loadsIn_lift P _ inst)
  intro energyThreshold
  apply LoadsIn.bind readOnly_getZcrThreshold (fun inst ↦ loadsIn_lift P _ inst)
  intro zcrThreshold
  exact loadsIn_lift P _

-- The body has one load, of sample `i`.
theorem loadsIn_loopBody (ptr : BitVec 32) (l : Locals) :
    LoadsIn (· = (ptr + l.i * 2#32).toNat) (loopBody .wrapping ptr l) := by
  simp only [loopBody, Arith.wrapping, lift_value_bind]
  apply LoadsIn.bind (readOnly_load16S _) (loadsIn_load16S _)
  intro sample
  apply LoadsIn.bind
  · exact (readOnly_lift _).ite (readOnly_pure l.zcr) _
  · exact (loadsIn_lift _ _).ite (loadsIn_lift _ _) _
  · exact fun zcr ↦ loadsIn_lift _ _

theorem loopBody_outcome {inst : Instance} {ptr : BitVec 32} {l : Locals}
    {offset addr sample negated zcr i : BitVec 32} {energy : BitVec 64}
    (hoffset : ops.mul l.i 2#32 = .value offset) (haddr : ops.add ptr offset = .value addr)
    (hload : Wasm.load16S inst.memory addr = .value sample)
    (hnegated : ops.sub 0#32 sample = .value negated)
    (henergy : ops.add l.energy ((if sample.slt 0#32 then negated else sample).signExtend 64) =
      .value energy)
    (hzcr : (if (sample ^^^ l.prev).slt 0#32 then ops.add l.zcr 1#32 else .value l.zcr) =
      .value zcr)
    (hi : ops.add l.i 1#32 = .value i) :
    (loopBody ops ptr l inst).outcome =
      .value { i := i, energy := energy, zcr := zcr, prev := sample } := by
  have hcount : (if (sample ^^^ l.prev).slt 0#32 then lift (ops.add l.zcr 1#32) else pure l.zcr) =
      lift (.value zcr) := by
    rw [← hzcr]
    split <;> rfl
  rw [loopBody, hoffset, lift_value_bind, haddr, lift_value_bind,
    bind_of_value (readOnly_load16S addr) hload, hnegated, lift_value_bind, henergy,
    lift_value_bind, hcount, lift_value_bind, hi, lift_value_bind]
  rfl

theorem loopBody_i {inst : Instance} {ptr : BitVec 32} {l l' : Locals}
    (h : (loopBody .wrapping ptr l inst).outcome = .value l') : l'.i = l.i + 1#32 := by
  cases hload : Wasm.load16S inst.memory (ptr + l.i * 2#32) with
  | value sample =>
    rw [loopBody_outcome rfl rfl hload rfl rfl (apply_ite Outcome.value _ _ _).symm rfl] at h
    cases h
    rfl
  | _ =>
    simp only [loopBody, Arith.wrapping, lift_value_bind] at h
    rw [(readOnly_load16S _).bind_outcome, load16S, hload] at h
    cases h

theorem verdict_outcome {inst : Instance} {nSamples avgE scaled zcr100 : BitVec 32}
    {quotient : BitVec 64} {l : Locals}
    (hquotient : divU l.energy (nSamples.setWidth 64) = .value quotient)
    (hwrap : ops.wrap quotient = .value avgE) (hscaled : ops.mul l.zcr 100#32 = .value scaled)
    (hzcr100 : divU scaled nSamples = .value zcr100) :
    (verdict ops nSamples l inst).outcome =
      .value (i32OfBool (inst.energyThreshold.slt avgE) |||
        i32OfBool (inst.zcrThreshold.slt zcr100)) := by
  rw [verdict, hquotient, lift_value_bind, hwrap, lift_value_bind, hscaled, lift_value_bind,
    hzcr100, lift_value_bind]
  rfl

end Exec

/-! ## What the classifier decides -/

def averageMagnitude (samples : List Int) : Nat := magnitudeSum samples / samples.length

-- Sign changes per 100 samples, rounded down; the sample before the first counts as zero.
def crossingRate (samples : List Int) : Nat := 100 * signChanges 0 samples / samples.length

/-- Speech by either criterion. -/
def isSpeech (energyThreshold zcrThreshold : Int) (samples : List Int) : Bool :=
  decide (energyThreshold < averageMagnitude samples) ||
    decide (zcrThreshold < crossingRate samples)

/-! ## The loop invariant -/

theorem signed_toNat {w : Nat} {x : BitVec w} (h : 2 * x.toNat < 2 ^ w) : x.toInt = x.toNat :=
  BitVec.toInt_eq_toNat_of_lt h

-- The comparison at the head of the loop is signed; below `2 ^ 31` that makes no difference.
theorem sle_iff {x y : BitVec 32} (hx : x.toNat < 2 ^ 31) (hy : y.toNat < 2 ^ 31) :
    x.sle y = true ↔ x.toNat ≤ y.toNat := by
  rw [BitVec.sle_eq_decide, decide_eq_true_eq, signed_toNat (by omega), signed_toNat (by omega),
    Int.ofNat_le]

theorem sample_toInt (s : BitVec 16) : (s.signExtend 32).toInt = s.toInt :=
  BitVec.toInt_signExtend_of_le (by decide)

-- The `select` of the loop leaves the magnitude of the sample.
theorem magnitude_toNat (s : BitVec 16) :
    ((if (s.signExtend 32).slt 0#32 then 0#32 - s.signExtend 32 else s.signExtend 32).signExtend
      64).toNat = s.toInt.natAbs := by
  have hb := sample_natAbs_le s
  have hm : (if (s.signExtend 32).slt 0#32 then 0#32 - s.signExtend 32 else s.signExtend 32) =
      magnitude32 s := by
    rw [magnitude32, BitVec.slt_eq_decide, BitVec.slt_eq_decide, sample_toInt, BitVec.zero_sub]
    rfl
  have hn := magnitude32_toNat s
  rw [hm, BitVec.signExtend, BitVec.toNat_ofInt, signed_toNat (by omega), hn]
  omega

-- The xor test fires exactly on a sign change.
theorem xor_slt_zero (s p : BitVec 32) :
    (s ^^^ p).slt 0#32 = !decide ((s.toInt < 0) = (p.toInt < 0)) := by
  rw [BitVec.slt_zero_eq_msb, BitVec.msb_xor, BitVec.msb_eq_toInt, BitVec.msb_eq_toInt]
  by_cases hs : s.toInt < 0 <;> by_cases hp : p.toInt < 0 <;> simp [hs, hp]

theorem sampleAddr_toNat (ptr i : BitVec 32) (h : ptr.toNat + 2 * i.toNat < 2 ^ 32) :
    (ptr + i * 2#32).toNat = ptr.toNat + 2 * i.toNat := by
  rw [BitVec.toNat_add, BitVec.toNat_mul, BitVec.toNat_ofNat]
  omega

theorem toNat_succ (x : BitVec 32) (h : x.toNat + 1 < 2 ^ 32) : (x + 1#32).toNat = x.toNat + 1 := by
  rw [BitVec.toNat_add, BitVec.toNat_ofNat]
  omega

namespace Exec

-- One pass over a sample inside memory: no trap, nothing wraps.
theorem loopBody_value (inst : Instance) (ptr : BitVec 32) (l : Locals)
    (hmem : ptr.toNat + 2 * l.i.toNat + 2 ≤ inst.memory.size) (hsize : inst.memory.size ≤ 2 ^ 32)
    (hi : l.i.toNat + 1 < 2 ^ 32) (he : l.energy.toNat + 32768 < 2 ^ 64)
    (hz : l.zcr.toNat + 1 < 2 ^ 32) :
    ∃ l', (loopBody .wrapping ptr l inst).outcome = .value l' ∧ l'.i.toNat = l.i.toNat + 1 ∧
      l'.energy.toNat = l.energy.toNat +
        (sampleAt inst.memory.byte (ptr.toNat + 2 * l.i.toNat)).toInt.natAbs ∧
      l'.zcr.toNat = l.zcr.toNat +
        (if ((sampleAt inst.memory.byte (ptr.toNat + 2 * l.i.toNat)).toInt < 0) =
          (l.prev.toInt < 0) then 0 else 1) ∧
      l'.prev.toInt = (sampleAt inst.memory.byte (ptr.toNat + 2 * l.i.toNat)).toInt := by
  have haddr := sampleAddr_toNat ptr l.i (by omega)
  have hb := sample_natAbs_le (sampleAt inst.memory.byte (ptr.toNat + 2 * l.i.toNat))
  have hload : Wasm.load16S inst.memory (ptr + l.i * 2#32) =
      .value ((sampleAt inst.memory.byte (ptr.toNat + 2 * l.i.toNat)).signExtend 32) := by
    rw [Wasm.load16S, haddr, if_pos hmem]
  have hcount := (apply_ite Outcome.value (((sampleAt inst.memory.byte
    (ptr.toNat + 2 * l.i.toNat)).signExtend 32 ^^^ l.prev).slt 0#32) (l.zcr + 1#32) l.zcr).symm
  refine ⟨_, loopBody_outcome rfl rfl hload rfl rfl hcount rfl, toNat_succ l.i hi, ?_, ?_,
    sample_toInt _⟩
  · have hsum : l.energy.toNat +
        (sampleAt inst.memory.byte (ptr.toNat + 2 * l.i.toNat)).toInt.natAbs < 2 ^ 64 := by omega
    show (l.energy + _).toNat = _
    rw [BitVec.toNat_add, magnitude_toNat]
    exact Nat.mod_eq_of_lt hsum
  · show (if _ then _ else _ : BitVec 32).toNat = _
    rw [xor_slt_zero, sample_toInt]
    split <;> rename_i hs
    · rw [Bool.not_eq_true', decide_eq_false_iff_not] at hs
      rw [if_neg hs, toNat_succ l.zcr hz]
    · rw [Bool.not_eq_true', decide_eq_false_iff_not, not_not] at hs
      rw [if_pos hs, Nat.add_zero]

/-- From sample `i` on, with `k` samples to go, the loop ends by itself and has added their
magnitudes and counted their sign changes. -/
theorem loop_value (inst : Instance) (ptr nSamples : BitVec 32) (k : Nat) (l : Locals) (fuel : Nat)
    (hi : l.i.toNat + k = nSamples.toNat) (hn : nSamples.toNat < 2 ^ 31)
    (hmem : ptr.toNat + 2 * nSamples.toNat ≤ inst.memory.size) (hsize : inst.memory.size ≤ 2 ^ 32)
    (he : l.energy.toNat + k * 32768 < 2 ^ 64) (hz : l.zcr.toNat + k < 2 ^ 32)
    (hfuel : k < fuel) :
    ∃ l', (loop .wrapping ptr nSamples fuel l inst).outcome = .value l' ∧
      l'.energy.toNat = l.energy.toNat +
        magnitudeSum (pcmSamples inst.memory.byte (ptr.toNat + 2 * l.i.toNat) k) ∧
      l'.zcr.toNat = l.zcr.toNat +
        signChanges l.prev.toInt (pcmSamples inst.memory.byte (ptr.toNat + 2 * l.i.toNat) k) := by
  induction k generalizing l fuel with
  | zero =>
    obtain ⟨fuel, rfl⟩ := Nat.exists_eq_add_one_of_ne_zero (by omega : fuel ≠ 0)
    refine ⟨l, ?_, rfl, rfl⟩
    rw [loop, if_pos]
    · rfl
    · apply (sle_iff hn (by omega)).mpr
      omega
  | succ k ih =>
    obtain ⟨fuel, rfl⟩ := Nat.exists_eq_add_one_of_ne_zero (by omega : fuel ≠ 0)
    obtain ⟨m, hbody, hmi, hme, hmz, hmp⟩ := loopBody_value inst ptr l (by omega) hsize
      (by omega) (by omega) (by omega)
    have hs := sample_natAbs_le (sampleAt inst.memory.byte (ptr.toNat + 2 * l.i.toNat))
    have hzb : m.zcr.toNat ≤ l.zcr.toNat + 1 := by
      rw [hmz]
      split <;> omega
    obtain ⟨l', hloop, hle, hlz⟩ := ih m fuel (by omega) (by omega) (by omega) (by omega)
    have hnext : ptr.toNat + 2 * m.i.toNat = ptr.toNat + 2 * l.i.toNat + 2 := by omega
    refine ⟨l', ?_, ?_, ?_⟩
    · rw [loop, if_neg, bind_of_value (readOnly_loopBody ptr l) hbody]
      · exact hloop
      · rw [sle_iff hn (by omega)]
        omega
    · rw [pcmSamples, magnitudeSum_cons, hle, hme, hnext, Nat.add_assoc]
    · rw [pcmSamples, signChanges, hlz, hmz, hmp, hnext, Nat.add_assoc]

-- The loop from the locals a call starts with: the whole chunk is added up.
theorem loop_start_value (inst : Instance) (ptr nSamples : BitVec 32)
    (hn : nSamples.toNat < 2 ^ 31) (hmem : ptr.toNat + 2 * nSamples.toNat ≤ inst.memory.size)
    (hsize : inst.memory.size ≤ 2 ^ 32) :
    ∃ l, (loop .wrapping ptr nSamples (nSamples.toNat + 1) start inst).outcome = .value l ∧
      l.energy.toNat = magnitudeSum (pcmSamples inst.memory.byte ptr.toNat nSamples.toNat) ∧
      l.zcr.toNat = signChanges 0 (pcmSamples inst.memory.byte ptr.toNat nSamples.toNat) := by
  have hloop := loop_value inst ptr nSamples nSamples.toNat start (nSamples.toNat + 1)
    (by simp [start]) hn hmem hsize (by simp [start]; omega) (by simp [start]; omega) (by omega)
  simpa only [start, BitVec.toNat_ofNat, Nat.zero_mod, Nat.zero_add, Nat.mul_zero, Nat.add_zero,
    BitVec.toInt_zero] using hloop

/-! ## Where a call reads -/

-- While sample `i` is still to come, the loop reads from sample `i` up to the last.
theorem loop_loads {ptr nSamples : BitVec 32} (hn : nSamples.toNat < 2 ^ 31)
    (hfit : ptr.toNat + 2 * nSamples.toNat ≤ 2 ^ 32) (inst : Instance) (fuel : Nat) (l : Locals)
    (hi : l.i.toNat ≤ nSamples.toNat) :
    ∀ addr ∈ (loop .wrapping ptr nSamples fuel l inst).loads,
      ptr.toNat + 2 * l.i.toNat ≤ addr ∧ addr + 2 ≤ ptr.toNat + 2 * nSamples.toNat := by
  induction fuel generalizing l with
  | zero => exact fun addr h ↦ absurd h List.not_mem_nil
  | succ fuel ih =>
    intro addr haddr
    rw [loop] at haddr
    by_cases hdone : nSamples.sle l.i
    · rw [if_pos hdone] at haddr
      exact absurd haddr List.not_mem_nil
    · rw [if_neg hdone] at haddr
      have hlt : l.i.toNat < nSamples.toNat := by
        rw [sle_iff hn (by omega)] at hdone
        omega
      rcases (readOnly_loopBody ptr l).mem_bind_loads haddr with hbody | ⟨l', hl', hrest⟩
      · have hone := loadsIn_loopBody ptr l inst addr hbody
        rw [sampleAddr_toNat ptr l.i (by omega)] at hone
        omega
      · have hnext : l'.i.toNat = l.i.toNat + 1 := by
          rw [loopBody_i hl', toNat_succ l.i (by omega)]
        have hrec := ih l' (by omega) addr hrest
        omega

/-- Every load of a call falls in the samples it was given. -/
theorem vadClassify_loads (ptr nSamples : BitVec 32) (hn : nSamples.toNat < 2 ^ 31)
    (hfit : ptr.toNat + 2 * nSamples.toNat ≤ 2 ^ 32) (inst : Instance) :
    ∀ addr ∈ (vadClassify ptr nSamples inst).loads,
      ptr.toNat ≤ addr ∧ addr + 2 ≤ ptr.toNat + 2 * nSamples.toNat := by
  intro addr haddr
  rw [vadClassify, vadClassifyWith] at haddr
  by_cases hempty : nSamples.sle 0#32
  · rw [if_pos hempty] at haddr
    exact absurd haddr List.not_mem_nil
  · rw [if_neg hempty] at haddr
    rcases (readOnly_loop ptr nSamples _ _).mem_bind_loads haddr with hloop | ⟨l, -, hrest⟩
    · exact loop_loads hn hfit inst _ _ (Nat.zero_le _) addr hloop
    · exact absurd (loadsIn_verdict (fun _ ↦ False) nSamples l inst addr hrest) id

end Exec

/-! ## The verdict -/

theorem divU_toNat {w : Nat} {a b : BitVec w} (hb : 0 < b.toNat) :
    ∃ q, divU a b = .value q ∧ q.toNat = a.toNat / b.toNat := by
  refine ⟨a / b, ?_, BitVec.toNat_udiv⟩
  rw [divU, if_neg]
  rintro rfl
  exact absurd hb (by simp)

theorem i32OfBool_or (a b : Bool) : i32OfBool a ||| i32OfBool b = i32OfBool (a || b) := by
  cases a <;> cases b <;> rfl

-- The first quotient is the average; it never exceeds the largest magnitude, so `i32.wrap_i64`
-- keeps it and the signed comparison reads it as it is.
theorem average_value {samples : List Int} {nSamples : BitVec 32} {energy : BitVec 64}
    (hlen : samples.length = nSamples.toNat) (hpos : 0 < nSamples.toNat)
    (henergy : energy.toNat = magnitudeSum samples)
    (hsum : magnitudeSum samples ≤ 32768 * nSamples.toNat) :
    ∃ q, divU energy (nSamples.setWidth 64) = .value q ∧
      (q.setWidth 32).toInt = averageMagnitude samples := by
  have hn64 : (nSamples.setWidth 64).toNat = nSamples.toNat := by
    rw [BitVec.toNat_setWidth]
    exact Nat.mod_eq_of_lt (by omega)
  obtain ⟨q, hq, hqv⟩ := divU_toNat (a := energy) (b := nSamples.setWidth 64) (by omega)
  rw [hn64, henergy] at hqv
  have hqb : q.toNat ≤ 32768 := by
    rw [hqv]
    exact (Nat.div_le_iff_le_mul_add_pred hpos).mpr (by rw [Nat.mul_comm]; omega)
  have hw : (q.setWidth 32).toNat = q.toNat := by
    rw [BitVec.toNat_setWidth]
    exact Nat.mod_eq_of_lt (by omega)
  refine ⟨q, hq, ?_⟩
  rw [signed_toNat (by omega), hw, hqv, averageMagnitude, hlen]

-- The second quotient is the crossing rate, at most 100 as there are no more changes than samples.
theorem rate_value {samples : List Int} {nSamples zcr : BitVec 32}
    (hlen : samples.length = nSamples.toNat) (hpos : 0 < nSamples.toNat)
    (hn : 100 * nSamples.toNat < 2 ^ 32) (hzcr : zcr.toNat = signChanges 0 samples) :
    ∃ z, divU (zcr * 100#32) nSamples = .value z ∧ z.toInt = crossingRate samples := by
  have hcross := signChanges_le 0 samples
  have hmul : (zcr * 100#32).toNat = 100 * signChanges 0 samples := by
    rw [BitVec.toNat_mul, hzcr, BitVec.toNat_ofNat]
    omega
  obtain ⟨z, hz, hzv⟩ := divU_toNat (a := zcr * 100#32) (b := nSamples) hpos
  rw [hmul] at hzv
  have hzb : z.toNat ≤ 100 := by
    rw [hzv]
    exact (Nat.div_le_iff_le_mul_add_pred hpos).mpr (by rw [Nat.mul_comm nSamples.toNat]; omega)
  refine ⟨z, hz, ?_⟩
  rw [signed_toNat (by omega), hzv, crossingRate, hlen]

/-- On samples inside memory `vad_classify` neither traps nor wraps and returns the decision
taken in unbounded integers. -/
theorem vadClassify_value (inst : Instance) (ptr nSamples : BitVec 32)
    (hpos : 0 < nSamples.toNat) (hn : 100 * nSamples.toNat < 2 ^ 32)
    (hmem : ptr.toNat + 2 * nSamples.toNat ≤ inst.memory.size)
    (hsize : inst.memory.size ≤ 2 ^ 32) :
    vadClassify inst ptr nSamples = .value (i32OfBool
      (isSpeech inst.energyThreshold.toInt inst.zcrThreshold.toInt
        (pcmSamples inst.memory.byte ptr.toNat nSamples.toNat))) := by
  obtain ⟨l, hloop, hle, hlz⟩ := Exec.loop_start_value inst ptr nSamples (by omega) hmem hsize
  have hlen := pcmSamples_length inst.memory.byte ptr.toNat nSamples.toNat
  have hsum := magnitudeSum_pcm_le inst.memory.byte ptr.toNat nSamples.toNat
  obtain ⟨q, hq, havg⟩ := average_value hlen hpos hle hsum
  obtain ⟨z, hz, hrate⟩ := rate_value hlen hpos hn hlz
  rw [vadClassify, vadClassifyWith, Exec.vadClassifyWith, if_neg,
    Exec.bind_of_value (Exec.readOnly_loop ptr nSamples _ _) hloop,
    Exec.verdict_outcome hq rfl rfl hz]
  · rw [i32OfBool_or, BitVec.slt_eq_decide, BitVec.slt_eq_decide, havg, hrate, isSpeech]
  · rw [sle_iff (by omega) (by decide), BitVec.toNat_ofNat]
    omega

end AsrServe.VadEdge.Wasm
