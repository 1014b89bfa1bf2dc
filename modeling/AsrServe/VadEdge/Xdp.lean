import AsrServe.Reasoning.Pcm

/-!
# The XDP program (`vad-edge/src/xdp_vad.c`)

`xdp_vad_prog` over the bytes of one packet.  Pointers are byte offsets from `ctx->data`, so
`data_end` is the packet length, and every load goes through `Reads` so that the offsets it
touches can be compared with that length.
-/

open AsrServe.Reasoning

namespace AsrServe.VadEdge.Xdp

/-! ## Constants -/

def rtpHdrLen : Nat := 12
def audioChunkBytes : Nat := 640
def energyThreshold : BitVec 32 := 2048#32

-- `sizeof(struct ethhdr)`, `sizeof(struct iphdr)` and `sizeof(struct udphdr)`.
def sizeofEthhdr : Nat := 14
def sizeofIphdr : Nat := 20
def sizeofUdphdr : Nat := 8

def ethPIp : BitVec 16 := 0x0800#16
def ipprotoUdp : UInt8 := 17

/-! ## Loads -/

-- A 16-bit load of the little-endian host.
def load16 (packet : List UInt8) (off : Nat) : Reads (BitVec 16) := do
  let lo ← Reads.byte packet off
  let hi ← Reads.byte packet (off + 1)
  return word16 lo hi

-- `bpf_ntohs` of a little-endian host swaps the two bytes.
def bpfNtohs (x : BitVec 16) : BitVec 16 := x.extractLsb' 0 8 ++ x.extractLsb' 8 8

-- `ip->ihl`, the low four bits of the header's first byte.
def loadIhl (packet : List UInt8) (ip : Nat) : Reads Nat := do
  let b ← Reads.byte packet ip
  return (b &&& 0x0f).toNat

/-! ## Energy pre-filter -/

-- The loop of `energy_above_threshold` with `left` of its 320 iterations to go.
def energyLoop (packet : List UInt8) (audioStart : Nat) :
    Nat → Nat → BitVec 32 → Reads (BitVec 32)
  | 0, _, energy => pure energy
  | left + 1, i, energy =>
    if audioStart + 2 * (i + 1) > packet.length then
      pure energy
    else do
      let s ← load16 packet (audioStart + 2 * i)
      energyLoop packet audioStart left (i + 1) (energy + magnitude32 s)

def energyAboveThreshold (packet : List UInt8) (audioStart : Nat) : Reads Bool := do
  let energy ← energyLoop packet audioStart 320 0 0#32
  return energyThreshold.ult energy

/-! ## Exits -/

/-- The places where `xdp_vad_prog` leaves: the `malformed` label, a bare `return XDP_PASS`, the
silence return and the redirect. -/
inductive XdpExit
  | malformed
  | passed
  | silence
  | redirect
deriving DecidableEq, Repr

/-- The header checks and the pre-filter, lines 100 to 142. -/
def vadExit (packet : List UInt8) : Reads XdpExit := do
  -- Ethernet header
  if sizeofEthhdr > packet.length then
    return .malformed
  let hProto ← load16 packet 12
  if bpfNtohs hProto ≠ ethPIp then
    return .passed
  -- IPv4 header
  let ip := sizeofEthhdr
  if ip + sizeofIphdr > packet.length then
    return .malformed
  let protocol ← Reads.byte packet (ip + 9)
  if protocol ≠ ipprotoUdp then
    return .passed
  let ihl ← loadIhl packet ip
  let ipHdrLen := ihl * 4
  if ipHdrLen < sizeofIphdr then
    return .malformed
  -- UDP header
  let udp := ip + ipHdrLen
  if udp + sizeofUdphdr > packet.length then
    return .malformed
  let dest ← load16 packet (udp + 2)
  let dstPort := bpfNtohs dest
  if dstPort < 5000#16 ∨ dstPort > 5999#16 then
    return .passed
  -- RTP header and audio payload
  let rtpHdr := udp + sizeofUdphdr
  let audioBuf := rtpHdr + rtpHdrLen
  if audioBuf + audioChunkBytes > packet.length then
    return .malformed
  let above ← energyAboveThreshold packet audioBuf
  if above then
    return .redirect
  else
    return .silence

/-! ## Program -/

structure VadStats where
  pktsTotal : UInt64
  pktsSpeech : UInt64
  pktsSilence : UInt64
  pktsMalformed : UInt64
deriving DecidableEq, Repr

/-- The current CPU's slots of `stats_map`, an array map with `max_entries = 1`. -/
abbrev StatsMap : Type := Vector VadStats 1

def getStats (statsMap : StatsMap) : Option VadStats := statsMap[0]?

structure XdpMd where
  data : List UInt8
  rxQueueIndex : UInt32

inductive XdpAction
  | pass
  | redirect
deriving DecidableEq, Repr

/-- `bpf_redirect_map(&xsk_map, index, flags)`: redirect to the socket bound at `index`, or the
action in `flags` when there is none. -/
def bpfRedirectMap (xskMap : UInt32 → Bool) (index : UInt32) (flags : XdpAction) : XdpAction :=
  if xskMap index then .redirect else flags

-- The class counter an exit bumps; a bare pass bumps none.
def XdpExit.count : XdpExit → VadStats → VadStats
  | .malformed, stats => { stats with pktsMalformed := stats.pktsMalformed + 1 }
  | .passed, stats => stats
  | .silence, stats => { stats with pktsSilence := stats.pktsSilence + 1 }
  | .redirect, stats => { stats with pktsSpeech := stats.pktsSpeech + 1 }

def XdpExit.action (xskMap : UInt32 → Bool) (ctx : XdpMd) : XdpExit → XdpAction
  | .redirect => bpfRedirectMap xskMap ctx.rxQueueIndex .pass
  | _ => .pass

def xdpVadProg (xskMap : UInt32 → Bool) (ctx : XdpMd) (statsMap : StatsMap) :
    Reads (XdpAction × StatsMap) :=
  match getStats statsMap with
  | none => pure (.pass, statsMap)
  | some stats => do
    let counted := { stats with pktsTotal := stats.pktsTotal + 1 }
    let exit ← vadExit ctx.data
    return (exit.action xskMap ctx, statsMap.set 0 (exit.count counted))

end AsrServe.VadEdge.Xdp
