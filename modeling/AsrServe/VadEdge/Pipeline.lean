import AsrServe.VadEdge.FrameGrammar
import AsrServe.VadEdge.VadModule

/-!
# The userspace stage (`vad-edge/src/dpdk_pipeline.c`)

What `pipeline_run` does with one received frame up to the verdict: the length gate, the sample
pointer, the copy into Wasm memory and the call of `vad_classify`.
-/

open AsrServe.Reasoning

namespace AsrServe.VadEdge.Pipeline

open Wasm
open Xdp (byteOf)

def audioChunkBytes : Nat := 640
def rtpHdrLen : Nat := 12
def udpHdrLen : Nat := 8
def ipHdrLen : Nat := 20
def ethHdrLen : Nat := 14

def hdrLen : Nat := ethHdrLen + ipHdrLen + udpHdrLen + rtpHdrLen

/-- What a frame that passes the gate hands to `wasm_vad_classify`: the offset of its sample
pointer and the number of samples. -/
structure Samples where
  audioPtr : Nat
  nSamples : Nat
deriving DecidableEq, Repr

-- The gate of `pipeline_run`; `none` frees the frame unlooked at.
def frameSamples (pktLen : Nat) : Option Samples :=
  if pktLen < hdrLen + audioChunkBytes then
    none
  else
    let audioBytes := pktLen - hdrLen
    some { audioPtr := hdrLen, nSamples := audioBytes / 2 }

/-! ## `wasm_vad_classify` -/

def wasmBufOffset : Nat := 0x10000

-- `memcpy(dst + off, src, len)` on linear memory.
def memcpy (memory : Memory) (off : Nat) (src : Nat → UInt8) (len : Nat) : Memory :=
  { memory with
    byte := fun a ↦ if off ≤ a ∧ a < off + len then src (a - off) else memory.byte a }

/-- The size check and the copy into the staging buffer; `none` is the `-1` of a chunk that does
not fit. -/
def stage (memory : Memory) (frame : List UInt8) (s : Samples) : Option Memory :=
  let byteLen := s.nSamples * 2
  if wasmBufOffset + byteLen > memory.size then
    none
  else
    some (memcpy memory wasmBufOffset (fun i ↦ byteOf frame (s.audioPtr + i)) byteLen)

/-- The verdict of the second stage on a frame: gate, staging and the call of `vad_classify` on
the staged samples.  `none` when the frame never reaches the call. -/
def secondStage (inst : Instance) (frame : List UInt8) : Option (Outcome (BitVec 32)) :=
  (frameSamples frame.length).bind fun s ↦
    (stage inst.memory frame s).map fun memory ↦
      vadClassify { inst with memory := memory } (BitVec.ofNat 32 wasmBufOffset)
        (BitVec.ofNat 32 s.nSamples)

/-! ## Staging -/

def frameAudio (frame : List UInt8) : List Int :=
  pcmSamples (byteOf frame) hdrLen ((frame.length - hdrLen) / 2)

theorem frameAudio_eq_samplesOf (frame : List UInt8) :
    frameAudio frame = samplesOf (frame.drop hdrLen) := by
  rcases Nat.lt_or_ge frame.length hdrLen with hlt | hge
  · rw [List.drop_of_length_le hlt.le, frameAudio, Nat.sub_eq_zero_of_le hlt.le]
    rfl
  · rw [frameAudio, show byteOf frame = fun i ↦ frame.getD i 0 from rfl,
      pcmSamples_getD frame hdrLen _ (by omega)]
    apply List.take_of_length_le
    rw [samplesOf_length, List.length_drop]

theorem frameSamples_of_le {n : Nat} (h : 694 ≤ n) :
    frameSamples n = some { audioPtr := hdrLen, nSamples := (n - hdrLen) / 2 } :=
  if_neg (show ¬ n < hdrLen + audioChunkBytes from by change ¬ n < 694; omega)

theorem pcmSamples_memcpy (memory : Memory) (frame : List UInt8) (audioPtr n : Nat) :
    pcmSamples (memcpy memory wasmBufOffset (fun i ↦ byteOf frame (audioPtr + i)) (n * 2)).byte
      wasmBufOffset n = pcmSamples (byteOf frame) audioPtr n := by
  apply pcmSamples_congr
  intro i hi
  show (if wasmBufOffset ≤ wasmBufOffset + i ∧ wasmBufOffset + i < wasmBufOffset + n * 2
    then byteOf frame (audioPtr + (wasmBufOffset + i - wasmBufOffset)) else _) = _
  rw [if_pos (by omega), Nat.add_sub_cancel_left]

/-- A frame that fits the two-page memory is classified by the integer decision on its own
samples. -/
theorem secondStage_eq (inst : Instance) (frame : List UInt8) (hlen : 694 ≤ frame.length)
    (hsize : inst.memory.size = 2 * 65536)
    (hfit : wasmBufOffset + (frame.length - hdrLen) / 2 * 2 ≤ inst.memory.size) :
    secondStage inst frame = some (.value (i32OfBool
      (isSpeech inst.energyThreshold.toInt inst.zcrThreshold.toInt (frameAudio frame)))) := by
  have hhdr : hdrLen = 54 := rfl
  have hbuf : wasmBufOffset = 65536 := rfl
  set n := (frame.length - hdrLen) / 2 with hndef
  have hn : (BitVec.ofNat 32 n).toNat = n := by
    rw [BitVec.toNat_ofNat]
    exact Nat.mod_eq_of_lt (by omega)
  let staged := memcpy inst.memory wasmBufOffset (fun i ↦ byteOf frame (hdrLen + i)) (n * 2)
  have hcall := vadClassify_value { inst with memory := staged } (BitVec.ofNat 32 wasmBufOffset)
    (BitVec.ofNat 32 n) (by omega) (by omega)
    (by rw [hn]; change 65536 + 2 * n ≤ inst.memory.size; omega)
    (by change inst.memory.size ≤ _; omega)
  rw [hn, show (BitVec.ofNat 32 wasmBufOffset).toNat = wasmBufOffset from rfl,
    show staged.byte = (memcpy inst.memory wasmBufOffset _ (n * 2)).byte from rfl,
    pcmSamples_memcpy] at hcall
  rw [secondStage, frameSamples_of_le hlen, Option.bind_some, stage, if_neg (not_lt.mpr hfit)]
  exact congrArg some hcall

theorem secondStage_of_gt (inst : Instance) (frame : List UInt8) (hlen : 694 ≤ frame.length)
    (hfit : inst.memory.size < wasmBufOffset + (frame.length - hdrLen) / 2 * 2) :
    secondStage inst frame = none := by
  rw [secondStage, frameSamples_of_le hlen, Option.bind_some, stage, if_pos hfit, Option.map_none]

end AsrServe.VadEdge.Pipeline
