import AsrServe.VadEdge.Pipeline

/-!
# The two VAD stages side by side

The kernel program and the userspace pipeline look at the same frame independently.  This file
compares where they find the audio and what their classifiers say about it.
-/

open AsrServe.Reasoning

namespace AsrServe.VadEdge

open Xdp Wasm
open Pipeline (frameSamples frameAudio secondStage hdrLen)

/-! ## Frames that reach the pre-filter -/

/-- The header checks of `xdp_vad_prog` all succeed. -/
structure ReachesFilter (frame : List UInt8) : Prop where
  etherType_eq : etherType frame = 0x0800
  ipProtocol_eq : ipProtocol frame = 17
  ihl_ge : 5 ≤ ihl frame
  dstPort_ge : 5000 ≤ dstPort frame
  dstPort_le : dstPort frame ≤ 5999
  length_ge : audioOffset frame + 640 ≤ frame.length

theorem ReachesFilter.frameOutcome_eq {frame : List UInt8} (h : ReachesFilter frame) :
    frameOutcome frame =
      if 2048 < magnitudeSum (chunk frame) then XdpExit.redirect else .silence := by
  have hlen := h.length_ge
  have hihl := h.ihl_ge
  have hlo := h.dstPort_ge
  have hhi := h.dstPort_le
  unfold audioOffset at hlen
  rw [frameOutcome, if_neg (by omega), if_neg (not_not.mpr h.etherType_eq), if_neg (by omega),
    if_neg (not_not.mpr h.ipProtocol_eq), if_neg (by omega), if_neg (by omega),
    if_neg (by unfold audioOffset; omega)]

theorem ReachesFilter.vadExit_eq {frame : List UInt8} (h : ReachesFilter frame) :
    (vadExit frame).val =
      if 2048 < magnitudeSum ((samplesOf (frame.drop (audioOffset frame))).take 320) then
        XdpExit.redirect
      else .silence := by
  rw [vadExit_val, h.frameOutcome_eq, chunk_eq_samplesOf frame h.length_ge]

theorem ReachesFilter.redirect_of_loud {frame : List UInt8} (h : ReachesFilter frame)
    (hloud : 2048 < magnitudeSum ((samplesOf (frame.drop (audioOffset frame))).take 320)) :
    (vadExit frame).val = XdpExit.redirect := by
  rw [h.vadExit_eq, if_pos hloud]

-- Only a frame that passed every header check is redirected.
theorem reachesFilter_of_redirect {frame : List UInt8}
    (h : frameOutcome frame = XdpExit.redirect) : ReachesFilter frame := by
  unfold frameOutcome at h
  split at h
  · cases h
  split at h
  · cases h
  rename_i hether
  split at h
  · cases h
  split at h
  · cases h
  rename_i hproto
  split at h
  · cases h
  rename_i hihl
  split at h
  · cases h
  rename_i hport
  split at h
  · cases h
  rename_i haudio
  exact ⟨not_not.mp hether, not_not.mp hproto, by omega, by omega, by omega, by omega⟩

-- The bytes the parser reads on its way to the pre-filter are six header bytes, and behind them the
-- loop reads the 640 bytes of the first chunk.
theorem ReachesFilter.vadExit_reads {frame : List UInt8} (h : ReachesFilter frame) :
    (vadExit frame).reads =
      [12, 13, 23, 14, 14 + 4 * ihl frame + 2, 14 + 4 * ihl frame + 3] ++
        List.range' (audioOffset frame) 640 := by
  have hlen := h.length_ge
  have hihl := h.ihl_ge
  have hoff : 14 + ihl frame * 4 + 8 + 12 = audioOffset frame := by
    unfold audioOffset
    omega
  have hport := mt (dstPort_outside_iff frame).mp (not_or.mpr
    ⟨not_lt.mpr h.dstPort_ge, not_lt.mpr h.dstPort_le⟩)
  have hloop := energyLoop_reads frame (audioOffset frame) 320 0 0#32 (by omega)
  unfold audioOffset at hlen
  unfold vadExit
  simp only [sizeofEthhdr, sizeofIphdr, sizeofUdphdr, rtpHdrLen, audioChunkBytes, gt_iff_lt,
    Nat.reduceAdd]
  rw [if_neg (by omega), Reads.reads_bind,
    if_neg (mt (hProto_ne_iff frame).mp (not_not.mpr h.etherType_eq)), if_neg (by omega),
    Reads.reads_bind, if_neg (mt (protocol_ne_iff frame).mp (not_not.mpr h.ipProtocol_eq)),
    Reads.reads_bind]
  simp only [val_loadIhl]
  rw [if_neg (by omega), if_neg (by omega), Reads.reads_bind, if_neg hport, if_neg (by omega),
    Reads.reads_bind, hoff]
  have hmeasure : (energyAboveThreshold frame (audioOffset frame)).reads =
      List.range' (audioOffset frame) 640 := by
    rw [energyAboveThreshold, Reads.reads_bind, hloop, Reads.reads_pure, List.append_nil]
    rfl
  have hreturn : ∀ b : Bool, (if b = true then (pure .redirect : Reads XdpExit)
      else pure .silence).reads = [] := by
    intro b
    cases b <;> rfl
  rw [hmeasure, hreturn, List.append_nil, Nat.mul_comm 4]
  rfl

/-- The offsets `xdp_vad_prog` read after its six header bytes: where it measured energy. -/
def energyBytes (frame : List UInt8) : List Nat := (vadExit frame).reads.drop 6

theorem ReachesFilter.energyBytes_eq {frame : List UInt8} (h : ReachesFilter frame) :
    energyBytes frame = List.range' (audioOffset frame) 640 := by
  rw [energyBytes, h.vadExit_reads]
  rfl

/-! ## Where the audio is -/

/-- The pipeline takes the frame and its samples start where the kernel program measured energy,
so that both look at the same first 320 samples. -/
def StagesAgree (frame : List UInt8) : Prop :=
  ∃ s, frameSamples frame.length = some s ∧ energyBytes frame = List.range' s.audioPtr 640 ∧
    320 ≤ s.nSamples ∧ pcmSamples (byteOf frame) s.audioPtr 320 = chunk frame

-- A frame the parser accepts passes the length gate; the offsets coincide just when the parsed one
-- is the pipeline's constant.
theorem ReachesFilter.stagesAgree_iff {frame : List UInt8} (h : ReachesFilter frame) :
    StagesAgree frame ↔ audioOffset frame = hdrLen := by
  have hlen := h.length_ge
  have hihl := h.ihl_ge
  have hfits : 694 ≤ frame.length := by
    unfold audioOffset at hlen
    omega
  have hgate := Pipeline.frameSamples_of_le hfits
  constructor
  · rintro ⟨s, hs, hbytes, -, -⟩
    rw [hgate, Option.some.injEq] at hs
    rw [h.energyBytes_eq, ← hs] at hbytes
    -- two stretches of offsets that agree start at the same offset
    have hhead := congrArg List.head? hbytes
    rwa [List.head?_range', List.head?_range', if_neg (by decide), if_neg (by decide),
      Option.some.injEq] at hhead
  · intro hoff
    refine ⟨_, hgate, ?_, ?_, ?_⟩
    · rw [h.energyBytes_eq, hoff]
    · show 320 ≤ (frame.length - hdrLen) / 2
      omega
    · rw [chunk, hoff]

theorem audioOffset_eq_hdrLen_iff (frame : List UInt8) :
    audioOffset frame = hdrLen ↔ ihl frame = 5 := by
  show 14 + 4 * ihl frame + 20 = 54 ↔ ihl frame = 5
  omega

/-- The stages agree on a redirected frame exactly when its IPv4 header has no options. -/
theorem stages_agree_iff_no_options (frame : List UInt8)
    (h : (vadExit frame).val = XdpExit.redirect) : StagesAgree frame ↔ ihl frame = 5 := by
  rw [vadExit_val] at h
  exact (reachesFilter_of_redirect h).stagesAgree_iff.trans (audioOffset_eq_hdrLen_iff frame)

-- A 640-byte RTP frame without IPv4 options and loud from its first sample on.
def loudFrame : List UInt8 :=
  [2, 0, 0, 0, 0, 1, 2, 0, 0, 0, 0, 2, 8, 0,
    69, 0, 2, 168, 0, 0, 64, 0, 64, 17, 36, 59, 10, 0, 0, 1, 10, 0, 0, 10,
    19, 136, 19, 136, 2, 148, 0, 0,
    128, 96, 0, 1, 0, 0, 0, 0, 0, 0, 0, 1] ++ List.replicate 640 7

theorem loudFrame_reachesFilter : ReachesFilter loudFrame := by
  constructor <;> decide +kernel

theorem loudFrame_stages_agree : StagesAgree loudFrame :=
  (stages_agree_iff_no_options loudFrame
    (loudFrame_reachesFilter.redirect_of_loud (by decide +kernel))).mpr (by decide +kernel)

-- The same frame with one word of IPv4 options, three no-operations and the end marker.
def optionsFrame : List UInt8 :=
  [2, 0, 0, 0, 0, 1, 2, 0, 0, 0, 0, 2, 8, 0,
    70, 0, 2, 172, 0, 0, 64, 0, 64, 17, 33, 54, 10, 0, 0, 1, 10, 0, 0, 10, 1, 1, 1, 0,
    19, 136, 19, 136, 2, 148, 0, 0,
    128, 96, 0, 1, 0, 0, 0, 0, 0, 0, 0, 1] ++ List.replicate 640 7

/-- The kernel program redirects a frame with IPv4 options, having measured its audio from offset
58 on; the pipeline hands on samples from offset 54, which starts inside the RTP header. -/
theorem options_shift_audio :
    (vadExit optionsFrame).val = XdpExit.redirect ∧
      energyBytes optionsFrame = List.range' 58 640 ∧
      frameSamples optionsFrame.length = some { audioPtr := 54, nSamples := 322 } ∧
      ¬ StagesAgree optionsFrame := by
  have hreach : ReachesFilter optionsFrame := by constructor <;> decide +kernel
  have hoff : audioOffset optionsFrame = 58 := by decide +kernel
  have hbytes : energyBytes optionsFrame = List.range' 58 640 := by
    rw [hreach.energyBytes_eq, hoff]
  refine ⟨hreach.redirect_of_loud (by decide +kernel), hbytes, by decide +kernel, ?_⟩
  rw [hreach.stagesAgree_iff, hoff]
  decide

/-! ## What the classifiers say about it -/

/-- A frame with Ethernet, option-less IPv4, UDP and RTP headers, addressed to the audio ports and
carrying at least one chunk of audio. -/
structure RtpAudioFrame (frame : List UInt8) : Prop where
  etherType_eq : etherType frame = 0x0800
  versionIhl_eq : byteOf frame 14 = 0x45
  ipProtocol_eq : ipProtocol frame = 17
  dstPort_ge : 5000 ≤ dstPort frame
  dstPort_le : dstPort frame ≤ 5999
  rtpVersion_eq : (byteOf frame 42).toNat / 64 = 2
  length_ge : 694 ≤ frame.length

theorem RtpAudioFrame.ihl_eq {frame : List UInt8} (h : RtpAudioFrame frame) : ihl frame = 5 := by
  rw [ihl, h.versionIhl_eq]
  rfl

theorem RtpAudioFrame.audioOffset_eq {frame : List UInt8} (h : RtpAudioFrame frame) :
    audioOffset frame = hdrLen :=
  (audioOffset_eq_hdrLen_iff frame).mpr h.ihl_eq

theorem RtpAudioFrame.reachesFilter {frame : List UInt8} (h : RtpAudioFrame frame) :
    ReachesFilter frame where
  etherType_eq := h.etherType_eq
  ipProtocol_eq := h.ipProtocol_eq
  ihl_ge := h.ihl_eq.ge
  dstPort_ge := h.dstPort_ge
  dstPort_le := h.dstPort_le
  length_ge := by
    rw [h.audioOffset_eq]
    exact h.length_ge

-- The pre-filter sees the first 320 of the samples the pipeline hands on.
theorem RtpAudioFrame.take_frameAudio {frame : List UInt8} (h : RtpAudioFrame frame) :
    (frameAudio frame).take 320 = chunk frame := by
  have hlen := h.length_ge
  have hhdr : hdrLen = 54 := rfl
  obtain ⟨m, hm⟩ := Nat.exists_eq_add_of_le (show 320 ≤ (frame.length - hdrLen) / 2 by omega)
  rw [frameAudio, hm, pcmSamples_add, chunk, h.audioOffset_eq,
    List.take_left' (pcmSamples_length _ _ _)]

-- On a frame that fits the staging buffer the second stage decides on the samples behind the
-- headers.
theorem RtpAudioFrame.secondStage_eq {frame : List UInt8} (h : RtpAudioFrame frame)
    (hfit : frame.length ≤ 65591) :
    secondStage freshInstance frame =
      some (.value (i32OfBool (isSpeech 512 20 (samplesOf (frame.drop hdrLen))))) := by
  have hhdr : hdrLen = 54 := rfl
  have hbuf : Pipeline.wasmBufOffset = 65536 := rfl
  have hsize : freshInstance.memory.size = 2 * 65536 := rfl
  rw [Pipeline.secondStage_eq _ frame h.length_ge hsize (by omega),
    Pipeline.frameAudio_eq_samplesOf]
  rfl

-- Samples whose average magnitude is over the module's threshold add up to far more than the
-- pre-filter asks of its 320.
theorem magnitudeSum_of_average {samples : List Int} (hlen : samples.length = 320)
    (havg : freshInstance.energyThreshold.toInt < averageMagnitude samples) :
    2048 < magnitudeSum samples := by
  have hthreshold : freshInstance.energyThreshold.toInt = 512 := by decide
  rw [hthreshold, averageMagnitude, hlen] at havg
  omega

/-- Speech by average magnitude survives the pre-filter: where the energy criterion of
`vad_classify` fires on the first 320 of the frame's samples, the kernel program redirects the
frame. -/
theorem energy_speech_redirected (frame : List UInt8) (h : RtpAudioFrame frame)
    (henergy : freshInstance.energyThreshold.toInt <
      averageMagnitude ((frameAudio frame).take 320)) :
    (energyAboveThreshold frame (audioOffset frame)).val = true ∧
      (vadExit frame).val = XdpExit.redirect := by
  rw [h.take_frameAudio] at henergy
  have hloud : 2048 < magnitudeSum (chunk frame) :=
    magnitudeSum_of_average (pcmSamples_length ..) henergy
  constructor
  · rw [energyAboveThreshold_val frame _ h.reachesFilter.length_ge]
    exact decide_eq_true hloud
  · rw [vadExit_val, h.reachesFilter.frameOutcome_eq, if_pos hloud]

-- 1280 bytes of audio, every sample 2000.
def steadyFrame : List UInt8 :=
  [2, 0, 0, 0, 0, 1, 2, 0, 0, 0, 0, 2, 8, 0,
    69, 0, 5, 40, 0, 0, 64, 0, 64, 17, 33, 187, 10, 0, 0, 1, 10, 0, 0, 10,
    19, 136, 19, 136, 5, 20, 0, 0,
    128, 96, 0, 1, 0, 0, 0, 0, 0, 0, 0, 1] ++ (List.replicate 640 [208, 7]).flatten

theorem steadyFrame_is_rtp : RtpAudioFrame steadyFrame := by
  constructor <;> decide +kernel

theorem steadyFrame_redirected :
    (energyAboveThreshold steadyFrame (audioOffset steadyFrame)).val = true ∧
      (vadExit steadyFrame).val = XdpExit.redirect :=
  energy_speech_redirected steadyFrame steadyFrame_is_rtp (by
    rw [Pipeline.frameAudio_eq_samplesOf]
    decide +kernel)

-- 640 bytes of the samples 1, -1, 1, -1, …: next to no energy, a sign change at every sample.
def buzzFrame : List UInt8 :=
  [2, 0, 0, 0, 0, 1, 2, 0, 0, 0, 0, 2, 8, 0,
    69, 0, 2, 168, 0, 0, 64, 0, 64, 17, 36, 59, 10, 0, 0, 1, 10, 0, 0, 10,
    19, 136, 19, 136, 2, 148, 0, 0,
    128, 96, 0, 1, 0, 0, 0, 0, 0, 0, 0, 1] ++
  (List.replicate 160 [1, 0, 255, 255]).flatten

-- 660 bytes of audio: a silent first chunk and ten samples at full scale behind it.
def lateFrame : List UInt8 :=
  [2, 0, 0, 0, 0, 1, 2, 0, 0, 0, 0, 2, 8, 0,
    69, 0, 2, 188, 0, 0, 64, 0, 64, 17, 36, 39, 10, 0, 0, 1, 10, 0, 0, 10,
    19, 136, 19, 136, 2, 168, 0, 0,
    128, 96, 0, 1, 0, 0, 0, 0, 0, 0, 0, 1] ++
  List.replicate 640 0 ++ (List.replicate 10 [255, 127]).flatten

theorem RtpAudioFrame.verdicts {frame : List UInt8} (h : RtpAudioFrame frame)
    (hfit : frame.length ≤ 65591) :
    secondStage freshInstance frame =
        some (.value (i32OfBool (isSpeech 512 20 (samplesOf (frame.drop 54))))) ∧
      (energyAboveThreshold frame (audioOffset frame)).val =
        decide (2048 < magnitudeSum ((samplesOf (frame.drop 54)).take 320)) ∧
      (vadExit frame).val =
        if 2048 < magnitudeSum ((samplesOf (frame.drop 54)).take 320) then XdpExit.redirect
        else .silence := by
  have hoff : audioOffset frame = 54 := h.audioOffset_eq
  have hlen := h.reachesFilter.length_ge
  refine ⟨h.secondStage_eq hfit, ?_, ?_⟩
  · rw [energyAboveThreshold_val frame _ hlen, ← hoff, ← chunk_eq_samplesOf frame hlen]
    rfl
  · rw [h.reachesFilter.vadExit_eq, hoff]

theorem buzzFrame_is_rtp : RtpAudioFrame buzzFrame := by
  constructor <;> decide +kernel

theorem lateFrame_is_rtp : RtpAudioFrame lateFrame := by
  constructor <;> decide +kernel

/-- Two frames the second stage calls speech and the pre-filter drops as silence: one by
zero-crossing rate alone, one by energy that only arrives after the first chunk. -/
theorem prefilter_drops_speech :
    (RtpAudioFrame buzzFrame ∧ secondStage freshInstance buzzFrame = some (.value 1#32) ∧
      (energyAboveThreshold buzzFrame (audioOffset buzzFrame)).val = false ∧
      (vadExit buzzFrame).val = XdpExit.silence) ∧
    (RtpAudioFrame lateFrame ∧ secondStage freshInstance lateFrame = some (.value 1#32) ∧
      (energyAboveThreshold lateFrame (audioOffset lateFrame)).val = false ∧
      (vadExit lateFrame).val = XdpExit.silence) := by
  obtain ⟨hbuzz, hbuzzEnergy, hbuzzExit⟩ := buzzFrame_is_rtp.verdicts (by decide +kernel)
  obtain ⟨hlate, hlateEnergy, hlateExit⟩ := lateFrame_is_rtp.verdicts (by decide +kernel)
  refine ⟨⟨buzzFrame_is_rtp, ?_, ?_, ?_⟩, lateFrame_is_rtp, ?_, ?_, ?_⟩
  · rw [hbuzz]
    decide +kernel
  · rw [hbuzzEnergy]
    decide +kernel
  · rw [hbuzzExit]
    decide +kernel
  · rw [hlate]
    decide +kernel
  · rw [hlateEnergy]
    decide +kernel
  · rw [hlateExit]
    decide +kernel

end AsrServe.VadEdge
