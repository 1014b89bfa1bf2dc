import AsrServe.VadEdge.Xdp

/-!
# What the XDP program accepts

The frame grammar in plain arithmetic on the bytes of a packet, and the proof that the parser of
`xdp_vad.c` computes it while reading inside the packet only.
-/

open AsrServe.Reasoning

namespace AsrServe.VadEdge.Xdp

/-! ## The grammar -/

-- The packet as a byte-addressed store.
def byteOf (packet : List UInt8) (i : Nat) : UInt8 := packet.getD i 0

def field16 (packet : List UInt8) (off : Nat) : Nat :=
  256 * (byteOf packet off).toNat + (byteOf packet (off + 1)).toNat

def etherType (packet : List UInt8) : Nat := field16 packet 12

def ihl (packet : List UInt8) : Nat := (byteOf packet 14).toNat % 16

def ipProtocol (packet : List UInt8) : Nat := (byteOf packet 23).toNat

def dstPort (packet : List UInt8) : Nat := field16 packet (14 + 4 * ihl packet + 2)

/-- Where the audio starts: behind the Ethernet, IPv4 (options included), UDP and RTP headers. -/
def audioOffset (packet : List UInt8) : Nat := 14 + 4 * ihl packet + 20

def chunk (packet : List UInt8) : List Int := pcmSamples (byteOf packet) (audioOffset packet) 320

theorem chunk_eq_samplesOf (packet : List UInt8) (h : audioOffset packet + 640 ≤ packet.length) :
    chunk packet = (samplesOf (packet.drop (audioOffset packet))).take 320 :=
  pcmSamples_getD packet (audioOffset packet) 320 h

/-- The exit a packet takes, decided on its length, its header fields and the exact magnitude of
its first chunk. -/
def frameOutcome (packet : List UInt8) : XdpExit :=
  if packet.length < 14 then .malformed
  else if etherType packet ≠ 0x0800 then .passed
  else if packet.length < 34 then .malformed
  else if ipProtocol packet ≠ 17 then .passed
  else if ihl packet < 5 ∨ packet.length < 14 + 4 * ihl packet + 8 then .malformed
  else if dstPort packet < 5000 ∨ 5999 < dstPort packet then .passed
  else if packet.length < audioOffset packet + 640 then .malformed
  else if 2048 < magnitudeSum (chunk packet) then .redirect
  else .silence

/-! ## Loads -/

@[simp] theorem val_load16 (packet : List UInt8) (off : Nat) :
    (load16 packet off).val = word16 (byteOf packet off) (byteOf packet (off + 1)) := rfl

@[simp] theorem reads_load16 (packet : List UInt8) (off : Nat) :
    (load16 packet off).reads = [off, off + 1] := rfl

theorem within_load16 (packet : List UInt8) {off n : Nat} (h : off + 1 < n) :
    (load16 packet off).Within n := by
  intro i hi
  rw [reads_load16, List.mem_cons, List.mem_singleton] at hi
  omega

theorem bpfNtohs_word16 (lo hi : UInt8) : bpfNtohs (word16 lo hi) = word16 hi lo := by
  have hl : (word16 lo hi).extractLsb' 0 8 = lo.toBitVec := by
    rw [word16]
    exact BitVec.extractLsb'_append_eq_right
  have hh : (word16 lo hi).extractLsb' 8 8 = hi.toBitVec := by
    rw [word16]
    exact BitVec.extractLsb'_append_eq_left
  rw [bpfNtohs, hl, hh, word16]

-- A header field loaded and swapped is the network-order number.
theorem ntohs_load16_toNat (packet : List UInt8) (off : Nat) :
    (bpfNtohs (load16 packet off).val).toNat = field16 packet off := by
  rw [val_load16, bpfNtohs_word16, word16_toNat, field16]

@[simp] theorem val_loadIhl (packet : List UInt8) : (loadIhl packet 14).val = ihl packet := by
  show (byteOf packet 14 &&& 0x0f).toNat = (byteOf packet 14).toNat % 16
  rw [UInt8.toNat_and]
  exact Nat.and_two_pow_sub_one_eq_mod _ 4

theorem within_loadIhl (packet : List UInt8) {n : Nat} (h : 14 < n) :
    (loadIhl packet 14).Within n :=
  Reads.within_bind (Reads.within_byte packet h) (Reads.within_pure _ n)

/-! ## The energy loop -/

/-- Inside the packet the loop never breaks early: it adds every sample's magnitude. -/
theorem energyLoop_val (packet : List UInt8) (start left i : Nat) (energy : BitVec 32)
    (hin : start + 2 * (i + left) ≤ packet.length) :
    (energyLoop packet start left i energy).val = energy +
      BitVec.ofNat 32 (magnitudeSum (pcmSamples (byteOf packet) (start + 2 * i) left)) := by
  induction left generalizing i energy with
  | zero => simp [energyLoop, pcmSamples]
  | succ left ih =>
    rw [energyLoop, if_neg (by omega), Reads.val_bind, ih _ _ (by omega), pcmSamples,
      magnitudeSum_cons, BitVec.ofNat_add, ← BitVec.add_assoc, ← magnitude32_toNat,
      BitVec.ofNat_toNat, BitVec.setWidth_eq]
    rfl

theorem energyLoop_reads (packet : List UInt8) (start left i : Nat) (energy : BitVec 32)
    (hin : start + 2 * (i + left) ≤ packet.length) :
    (energyLoop packet start left i energy).reads = List.range' (start + 2 * i) (2 * left) := by
  induction left generalizing i energy with
  | zero => rfl
  | succ left ih =>
    rw [energyLoop, if_neg (by omega), Reads.reads_bind, reads_load16, ih _ _ (by omega),
      show 2 * (left + 1) = 2 * left + 1 + 1 by omega, List.range'_succ, List.range'_succ]
    rfl

-- The accumulator does not wrap: 320 samples add up to at most `320 * 32768`.
theorem energyLoop_toNat (packet : List UInt8) (start : Nat) (hin : start + 640 ≤ packet.length) :
    (energyLoop packet start 320 0 0#32).val.toNat =
      magnitudeSum (pcmSamples (byteOf packet) start 320) := by
  have hle := magnitudeSum_pcm_le (byteOf packet) start 320
  rw [energyLoop_val packet start 320 0 _ (by omega), BitVec.zero_add, BitVec.toNat_ofNat,
    Nat.mul_zero, Nat.add_zero]
  exact Nat.mod_eq_of_lt (by omega)

theorem energyAboveThreshold_val (packet : List UInt8) (start : Nat)
    (hin : start + 640 ≤ packet.length) :
    (energyAboveThreshold packet start).val =
      decide (2048 < magnitudeSum (pcmSamples (byteOf packet) start 320)) := by
  show energyThreshold.ult (energyLoop packet start 320 0 0#32).val = _
  rw [BitVec.ult, energyLoop_toNat packet start hin]
  rfl

theorem within_energyAboveThreshold (packet : List UInt8) (start : Nat)
    (hin : start + 640 ≤ packet.length) :
    (energyAboveThreshold packet start).Within packet.length := by
  refine Reads.within_bind (fun i hi ↦ ?_) (Reads.within_pure _ _)
  rw [energyLoop_reads packet start 320 0 _ (by omega), List.mem_range'_1] at hi
  omega

/-! ## The tests of the program against those of the grammar -/

theorem hProto_ne_iff (packet : List UInt8) :
    bpfNtohs (load16 packet 12).val ≠ ethPIp ↔ etherType packet ≠ 0x0800 := by
  rw [Ne, ← BitVec.toNat_inj, ntohs_load16_toNat]
  rfl

theorem protocol_ne_iff (packet : List UInt8) :
    (Reads.byte packet 23).val ≠ ipprotoUdp ↔ ipProtocol packet ≠ 17 := by
  rw [Ne, ← UInt8.toNat_inj]
  rfl

theorem dstPort_outside_iff (packet : List UInt8) :
    (bpfNtohs (load16 packet (14 + ihl packet * 4 + 2)).val < 5000#16 ∨
        bpfNtohs (load16 packet (14 + ihl packet * 4 + 2)).val > 5999#16) ↔
      dstPort packet < 5000 ∨ 5999 < dstPort packet := by
  rw [gt_iff_lt, BitVec.lt_def, BitVec.lt_def, ntohs_load16_toNat, Nat.mul_comm]
  rfl

/-- The parser takes the exit the grammar names. -/
theorem vadExit_val (packet : List UInt8) : (vadExit packet).val = frameOutcome packet := by
  unfold vadExit frameOutcome
  simp only [sizeofEthhdr, sizeofIphdr, sizeofUdphdr, rtpHdrLen, audioChunkBytes, Reads.val_ite,
    Reads.val_bind, Reads.val_pure, val_loadIhl, Nat.reduceAdd, gt_iff_lt]
  have hoff : 14 + ihl packet * 4 + 8 + 12 = audioOffset packet := by
    unfold audioOffset
    omega
  rw [if_congr (hProto_ne_iff packet) rfl rfl, if_congr (protocol_ne_iff packet) rfl rfl,
    if_congr (dstPort_outside_iff packet) rfl rfl, hoff, ite_or (ihl packet < 5), Nat.mul_comm 4,
    if_congr (show ihl packet * 4 < 20 ↔ ihl packet < 5 by omega) rfl rfl]
  by_cases haudio : packet.length < audioOffset packet + 640
  · rw [if_pos haudio, if_pos haudio]
  · rw [if_neg haudio, if_neg haudio,
      energyAboveThreshold_val packet (audioOffset packet) (by omega),
      if_congr decide_eq_true_iff rfl rfl, chunk]

/-- Every byte the parser looks at lies inside the packet. -/
theorem vadExit_within (packet : List UInt8) : (vadExit packet).Within packet.length := by
  unfold vadExit
  simp only [sizeofEthhdr, sizeofIphdr, sizeofUdphdr, rtpHdrLen, audioChunkBytes, gt_iff_lt,
    Nat.reduceAdd]
  refine Reads.within_ite (fun _ ↦ Reads.within_pure _ _) fun heth ↦ ?_
  refine Reads.within_bind (within_load16 packet (by omega)) ?_
  refine Reads.within_ite (fun _ ↦ Reads.within_pure _ _) fun _ ↦ ?_
  refine Reads.within_ite (fun _ ↦ Reads.within_pure _ _) fun hip ↦ ?_
  refine Reads.within_bind (Reads.within_byte packet (by omega)) ?_
  refine Reads.within_ite (fun _ ↦ Reads.within_pure _ _) fun _ ↦ ?_
  refine Reads.within_bind (within_loadIhl packet (by omega)) ?_
  refine Reads.within_ite (fun _ ↦ Reads.within_pure _ _) fun _ ↦ ?_
  refine Reads.within_ite (fun _ ↦ Reads.within_pure _ _) fun hudp ↦ ?_
  refine Reads.within_bind (within_load16 packet (by omega)) ?_
  refine Reads.within_ite (fun _ ↦ Reads.within_pure _ _) fun _ ↦ ?_
  refine Reads.within_ite (fun _ ↦ Reads.within_pure _ _) fun haudio ↦ ?_
  refine Reads.within_bind (within_energyAboveThreshold packet _ (by omega)) ?_
  exact Reads.within_ite (fun _ ↦ Reads.within_pure _ _) fun _ ↦ Reads.within_pure _ _

/-! ## The program -/

def VadStats.seen (stats : VadStats) : VadStats :=
  { stats with pktsTotal := stats.pktsTotal + 1 }

theorem getStats_eq (statsMap : StatsMap) : getStats statsMap = some statsMap.head :=
  getElem?_pos statsMap 0 Nat.one_pos

theorem head_set (map : StatsMap) (stats : VadStats) :
    (map.set 0 stats Nat.one_pos).head = stats := by
  simp [Vector.head]

theorem xdpVadProg_val (xskMap : UInt32 → Bool) (ctx : XdpMd) (statsMap : StatsMap) :
    (xdpVadProg xskMap ctx statsMap).val =
      ((frameOutcome ctx.data).action xskMap ctx,
        statsMap.set 0 ((frameOutcome ctx.data).count statsMap.head.seen) Nat.one_pos) := by
  rw [xdpVadProg, getStats_eq, ← vadExit_val]
  rfl

/-- How a packet is answered and counted, by its outcome in the grammar: only loud audio leaves the
kernel's own path, and only where its queue has a socket; every packet is counted in the total and,
but for a bare pass, in the counter of its class. -/
structure Handled (outcome : XdpExit) (hasSocket : Bool) (before : VadStats) (action : XdpAction)
    (after : VadStats) : Prop where
  redirect_iff : action = .redirect ↔ outcome = .redirect ∧ hasSocket = true
  pktsTotal_eq : after.pktsTotal = before.pktsTotal + 1
  pktsSpeech_eq : after.pktsSpeech = before.pktsSpeech + if outcome = .redirect then 1 else 0
  pktsSilence_eq : after.pktsSilence = before.pktsSilence + if outcome = .silence then 1 else 0
  pktsMalformed_eq :
    after.pktsMalformed = before.pktsMalformed + if outcome = .malformed then 1 else 0

-- Only the redirect asks the socket map.
theorem action_redirect_iff (xskMap : UInt32 → Bool) (ctx : XdpMd) (exit : XdpExit) :
    exit.action xskMap ctx = .redirect ↔ exit = .redirect ∧ xskMap ctx.rxQueueIndex = true := by
  cases exit with
  | redirect =>
    cases hsocket : xskMap ctx.rxQueueIndex <;> simp [XdpExit.action, bpfRedirectMap, hsocket]
  | _ => exact iff_of_false (fun h ↦ by cases h) (fun h ↦ by cases h.1)

theorem handled_of_exit (xskMap : UInt32 → Bool) (ctx : XdpMd) (stats : VadStats)
    (exit : XdpExit) :
    Handled exit (xskMap ctx.rxQueueIndex) stats (exit.action xskMap ctx)
      (exit.count stats.seen) where
  redirect_iff := action_redirect_iff xskMap ctx exit
  pktsTotal_eq := by cases exit <;> rfl
  pktsSpeech_eq := by cases exit <;> simp [XdpExit.count, VadStats.seen]
  pktsSilence_eq := by cases exit <;> simp [XdpExit.count, VadStats.seen]
  pktsMalformed_eq := by cases exit <;> simp [XdpExit.count, VadStats.seen]

/-- `xdp_vad_prog` reads inside the packet, answers and counts it by the outcome the grammar names,
and measures the first chunk exactly: where there are 640 bytes of audio the loop reads all of
them, once each and in order, and its 32-bit total is the integer one. -/
theorem xdpVadProg_exact (xskMap : UInt32 → Bool) (ctx : XdpMd) (statsMap : StatsMap) :
    (∀ i ∈ (xdpVadProg xskMap ctx statsMap).reads, i < ctx.data.length) ∧
    Handled (frameOutcome ctx.data) (xskMap ctx.rxQueueIndex) statsMap.head
      (xdpVadProg xskMap ctx statsMap).val.1 (xdpVadProg xskMap ctx statsMap).val.2.head ∧
    (audioOffset ctx.data + 640 ≤ ctx.data.length →
      (energyLoop ctx.data (audioOffset ctx.data) 320 0 0#32).val.toNat =
        magnitudeSum (chunk ctx.data) ∧
      (energyLoop ctx.data (audioOffset ctx.data) 320 0 0#32).reads =
        List.range' (audioOffset ctx.data) 640) := by
  refine ⟨?_, ?_, fun hin ↦ ⟨energyLoop_toNat _ _ hin, ?_⟩⟩
  · rw [xdpVadProg, getStats_eq]
    exact Reads.within_bind (vadExit_within ctx.data) (Reads.within_pure _ _)
  · rw [xdpVadProg_val, head_set]
    exact handled_of_exit xskMap ctx statsMap.head (frameOutcome ctx.data)
  · exact energyLoop_reads ctx.data _ 320 0 _ (by omega)

end AsrServe.VadEdge.Xdp
