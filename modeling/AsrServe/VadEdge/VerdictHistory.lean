import AsrServe.VadEdge.PipelineRun
import AsrServe.VadEdge.VadExec

/-!
# Verdicts and what came before (`wasm_vad_classify` in `vad-edge/src/dpdk_pipeline.c`)

The classifier the polling loop calls, on one Wasm instance that stays the same from frame to
frame.  The staging buffer keeps whatever the last frame left in it, and no verdict depends on it.
-/

namespace AsrServe.VadEdge.Pipeline

open Wasm
open Xdp (byteOf)

-- The call of `vad_classify` on the staging buffer, the module's memory being `memory`.
def callVadClassify (inst : Instance) (memory : Memory) (samples : Samples) : Run (BitVec 32) :=
  Exec.vadClassify (BitVec.ofNat 32 wasmBufOffset) (BitVec.ofNat 32 samples.nSamples)
    { inst with memory := memory }

/-- `wasm_vad_classify`, with the instance it leaves for the next frame. -/
def wasmVadClassify (inst : Instance) (frame : List UInt8) (samples : Samples) : Int × Instance :=
  match stage inst.memory frame samples with
  | none => (-1, inst)
  | some memory =>
    let run := callVadClassify inst memory samples
    match run.outcome with
    | .value result => (if result = 0#32 then 0 else 1, run.inst)
    | _ => (-1, run.inst)

def wasmEnv (txBurst : Nat → Bool) : Env Instance where
  wasmVadClassify := wasmVadClassify
  txBurst := txBurst

/-- The instance as the frames of some bursts have left it. -/
def instAfter (txBurst : Nat → Bool) (inst : Instance) (bursts : List Burst) : Instance :=
  (pipelineRun (wasmEnv txBurst) (State.start inst) bursts).wasm

/-! ## What a frame changes -/

-- The same module with other bytes in its memory.
def SameModule (inst inst' : Instance) : Prop :=
  inst'.memory.size = inst.memory.size ∧ inst'.energyThreshold = inst.energyThreshold ∧
    inst'.zcrThreshold = inst.zcrThreshold

theorem stage_size {memory memory' : Memory} {frame : List UInt8} {samples : Samples}
    (h : stage memory frame samples = some memory') : memory'.size = memory.size := by
  rw [stage] at h
  by_cases hfit : wasmBufOffset + samples.nSamples * 2 > memory.size
  · rw [if_pos hfit] at h
    cases h
  · rw [if_neg hfit] at h
    cases h
    rfl

/-- The instance left behind is the one found, with the staged bytes in its memory. -/
theorem wasmVadClassify_inst (inst : Instance) (frame : List UInt8) (samples : Samples) :
    (wasmVadClassify inst frame samples).2 =
      { inst with memory := (stage inst.memory frame samples).getD inst.memory } := by
  rw [wasmVadClassify]
  cases hs : stage inst.memory frame samples with
  | none => rfl
  | some memory =>
    dsimp only
    split
    · exact Exec.readOnly_vadClassify _ _ _
    · exact Exec.readOnly_vadClassify _ _ _

theorem wasmVadClassify_sameModule (inst : Instance) (frame : List UInt8) (samples : Samples) :
    SameModule inst (wasmVadClassify inst frame samples).2 := by
  rw [wasmVadClassify_inst]
  cases hs : stage inst.memory frame samples with
  | none => exact ⟨rfl, rfl, rfl⟩
  | some memory => exact ⟨stage_size hs, rfl, rfl⟩

theorem handleFrame_sameModule {inst : Instance} (txBurst : Nat → Bool) (st : State Instance)
    (frame : List UInt8) (h : SameModule inst st.wasm) :
    SameModule inst (handleFrame (wasmEnv txBurst) st frame).wasm := by
  rw [handleFrame_wasm]
  cases frameSamples frame.length with
  | none => exact h
  | some samples =>
    obtain ⟨hsize, henergy, hzcr⟩ := wasmVadClassify_sameModule st.wasm frame samples
    exact ⟨hsize.trans h.1, henergy.trans h.2.1, hzcr.trans h.2.2⟩

theorem instAfter_sameModule (txBurst : Nat → Bool) (inst : Instance) (bursts : List Burst) :
    SameModule inst (instAfter txBurst inst bursts) :=
  pipelineRun_invariant (handleFrame_sameModule txBurst) ⟨rfl, rfl, rfl⟩ bursts

/-! ## The verdict on one frame -/

theorem wasmVadClassify_verdict (inst : Instance) (frame : List UInt8) {samples : Samples}
    (hgate : frameSamples frame.length = some samples) :
    (wasmVadClassify inst frame samples).1 =
      match secondStage inst frame with
      | some (.value result) => if result = 0#32 then 0 else 1
      | _ => -1 := by
  rw [wasmVadClassify, secondStage, hgate, Option.bind_some]
  cases stage inst.memory frame samples with
  | none => rfl
  | some memory =>
    rw [Option.map_some, vadClassify, vadClassifyWith, ← Exec.vadClassify]
    dsimp only [callVadClassify]
    cases (Exec.vadClassify _ _ { inst with memory := memory }).outcome with
    | value result => rfl
    | trap => rfl
    | outOfFuel => rfl

-- The verdict is a function of the thresholds and of the frame's own samples.
theorem wasmVadClassify_verdict_eq {inst : Instance} (hsize : inst.memory.size = 2 * 65536)
    {frame : List UInt8} (hlen : 694 ≤ frame.length) :
    (wasmVadClassify inst frame ⟨hdrLen, (frame.length - hdrLen) / 2⟩).1 =
      if 2 * ((frame.length - hdrLen) / 2) ≤ 65536 then
        if isSpeech inst.energyThreshold.toInt inst.zcrThreshold.toInt (frameAudio frame) then 1
        else 0
      else -1 := by
  rw [wasmVadClassify_verdict inst frame (frameSamples_of_le hlen)]
  have hbuf : wasmBufOffset = 65536 := rfl
  by_cases hfit : 2 * ((frame.length - hdrLen) / 2) ≤ 65536
  · rw [if_pos hfit, secondStage_eq inst frame hlen hsize (by omega)]
    cases isSpeech inst.energyThreshold.toInt inst.zcrThreshold.toInt (frameAudio frame)
    · rfl
    · rfl
  · rw [if_neg hfit, secondStage_of_gt inst frame hlen (by omega)]

/-- The copy stays inside the frame and inside memory, and the call reads what was just copied and
changes nothing. -/
structure CallInBounds (inst : Instance) (frame : List UInt8) (samples : Samples)
    (memory : Memory) : Prop where
  copied : ∀ i < 2 * samples.nSamples, samples.audioPtr + i < frame.length ∧
    wasmBufOffset + i < memory.size ∧
    memory.byte (wasmBufOffset + i) = byteOf frame (samples.audioPtr + i)
  kept : ∀ a, a < wasmBufOffset ∨ wasmBufOffset + 2 * samples.nSamples ≤ a →
    memory.byte a = inst.memory.byte a
  loads : ∀ addr ∈ (callVadClassify inst memory samples).loads,
    wasmBufOffset ≤ addr ∧ addr + 2 ≤ wasmBufOffset + 2 * samples.nSamples
  unchanged : (callVadClassify inst memory samples).inst = { inst with memory := memory }

theorem callInBounds {inst : Instance} {frame : List UInt8} {samples : Samples} {memory : Memory}
    (hsize : inst.memory.size ≤ 2 ^ 32)
    (hframe : samples.audioPtr + 2 * samples.nSamples ≤ frame.length)
    (hstage : stage inst.memory frame samples = some memory) :
    CallInBounds inst frame samples memory := by
  have hbuf : wasmBufOffset = 65536 := rfl
  have hmem := stage_size hstage
  rw [stage] at hstage
  by_cases hfit : wasmBufOffset + samples.nSamples * 2 > inst.memory.size
  · rw [if_pos hfit] at hstage
    cases hstage
  rw [if_neg hfit] at hstage
  have hbyte : ∀ a, memory.byte a =
      if wasmBufOffset ≤ a ∧ a < wasmBufOffset + samples.nSamples * 2 then
        byteOf frame (samples.audioPtr + (a - wasmBufOffset))
      else inst.memory.byte a := by
    cases hstage
    exact fun a ↦ rfl
  constructor
  case copied =>
    intro i hi
    refine ⟨by omega, by omega, ?_⟩
    rw [hbyte, if_pos (by omega), Nat.add_sub_cancel_left]
  case kept =>
    intro a ha
    rw [hbyte, if_neg (by omega)]
  case loads =>
    have hn : (BitVec.ofNat 32 samples.nSamples).toNat = samples.nSamples := by
      rw [BitVec.toNat_ofNat]
      exact Nat.mod_eq_of_lt (by omega)
    have hoff : (BitVec.ofNat 32 wasmBufOffset).toNat = wasmBufOffset := rfl
    have hloads := Exec.vadClassify_loads (BitVec.ofNat 32 wasmBufOffset)
      (BitVec.ofNat 32 samples.nSamples) (by omega) (by omega) { inst with memory := memory }
    rw [hn, hoff] at hloads
    exact hloads
  case unchanged => exact Exec.readOnly_vadClassify _ _ _

/-- Whatever frames came before, and whatever became of them, the verdict on a frame is the
decision on its own samples, or an error when they do not fit the staging buffer. -/
theorem verdict_history_free (inst : Instance) (hsize : inst.memory.size = 2 * 65536)
    (txBurst₁ txBurst₂ : Nat → Bool) (earlier₁ earlier₂ : List Burst) (frame : List UInt8)
    (hlen : 694 ≤ frame.length) :
    ∃ samples, frameSamples frame.length = some samples ∧
      samples.nSamples = (frame.length - 54) / 2 ∧
      (wasmVadClassify (instAfter txBurst₁ inst earlier₁) frame samples).1 =
        (wasmVadClassify (instAfter txBurst₂ inst earlier₂) frame samples).1 ∧
      (wasmVadClassify (instAfter txBurst₁ inst earlier₁) frame samples).1 =
        (if 2 * ((frame.length - 54) / 2) ≤ 65536 then
          if isSpeech inst.energyThreshold.toInt inst.zcrThreshold.toInt (frameAudio frame) then 1
          else 0
        else -1) ∧
      ∀ memory, stage (instAfter txBurst₁ inst earlier₁).memory frame samples = some memory →
        CallInBounds (instAfter txBurst₁ inst earlier₁) frame samples memory := by
  have hverdict : ∀ (txBurst : Nat → Bool) (earlier : List Burst),
      (wasmVadClassify (instAfter txBurst inst earlier) frame
        ⟨hdrLen, (frame.length - hdrLen) / 2⟩).1 =
      (if 2 * ((frame.length - 54) / 2) ≤ 65536 then
        if isSpeech inst.energyThreshold.toInt inst.zcrThreshold.toInt (frameAudio frame) then 1
        else 0
      else -1) := by
    intro txBurst earlier
    obtain ⟨hmem, henergy, hzcr⟩ := instAfter_sameModule txBurst inst earlier
    rw [wasmVadClassify_verdict_eq (hmem.trans hsize) hlen, henergy, hzcr]
    rfl
  have hmem := (instAfter_sameModule txBurst₁ inst earlier₁).1.trans hsize
  have hhdr : hdrLen = 54 := rfl
  refine ⟨_, frameSamples_of_le hlen, rfl, ?_, hverdict txBurst₁ earlier₁,
    fun memory ↦ callInBounds (by omega) (by dsimp only; omega)⟩
  rw [hverdict txBurst₁ earlier₁, hverdict txBurst₂ earlier₂]

def quietFrame : List UInt8 := List.replicate 694 0

def twoFrames : List Burst := [⟨[List.replicate 700 255, [1, 2, 3]], by decide⟩]

-- Ten milliseconds of zeros, right away and after two other frames.
theorem quietFrame_after_two :
    ∃ samples, frameSamples quietFrame.length = some samples ∧
      (wasmVadClassify (instAfter (fun _ ↦ true) freshInstance []) quietFrame samples).1 = 0 ∧
      (wasmVadClassify (instAfter (fun _ ↦ false) freshInstance twoFrames) quietFrame samples).1 =
        0 := by
  have hquiet : isSpeech freshInstance.energyThreshold.toInt freshInstance.zcrThreshold.toInt
      (frameAudio quietFrame) = false := by
    rw [frameAudio_eq_samplesOf]
    decide +kernel
  have hlen : quietFrame.length = 694 := List.length_replicate
  obtain ⟨samples, hgate, -, hsame, hverdict, -⟩ := verdict_history_free freshInstance rfl
    (fun _ ↦ true) (fun _ ↦ false) [] twoFrames quietFrame hlen.ge
  rw [hlen, hquiet] at hverdict
  exact ⟨samples, hgate, hverdict, hsame.symm.trans hverdict⟩

end AsrServe.VadEdge.Pipeline
