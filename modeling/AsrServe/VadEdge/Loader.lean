import AsrServe.VadEdge.FrameGrammar
import Mathlib.Algebra.BigOperators.Fin
import Mathlib.Data.UInt

/-!
# Telemetry of the loader (`print_stats` in `vad-edge/src/vad_loader.c`)

The per-CPU values of `stats_map` under packets that arrive on any CPU in any order, and the sum
the loader prints.
-/

open AsrServe.Reasoning

namespace AsrServe.VadEdge.Xdp

def VadStats.zero : VadStats where
  pktsTotal := 0
  pktsSpeech := 0
  pktsSilence := 0
  pktsMalformed := 0

-- The four additions in the body of the loop.
def VadStats.add (aggregate value : VadStats) : VadStats where
  pktsTotal := aggregate.pktsTotal + value.pktsTotal
  pktsSpeech := aggregate.pktsSpeech + value.pktsSpeech
  pktsSilence := aggregate.pktsSilence + value.pktsSilence
  pktsMalformed := aggregate.pktsMalformed + value.pktsMalformed

/-- The aggregate of `print_stats`, the lookup having filled in `values`. -/
def printStats {nrCpus : Nat} (values : Fin nrCpus → VadStats) : VadStats :=
  (List.finRange nrCpus).foldl (fun aggregate i ↦ aggregate.add (values i)) .zero

/-! ## Packets on several CPUs -/

/-- A packet on the CPU that handles it, with `xsk_map` as it is at that moment. -/
structure Arrival (nrCpus : Nat) where
  cpu : Fin nrCpus
  ctx : XdpMd
  xskMap : UInt32 → Bool

variable {nrCpus : Nat}

def handlePacket (maps : Fin nrCpus → StatsMap) (a : Arrival nrCpus) : Fin nrCpus → StatsMap :=
  Function.update maps a.cpu (xdpVadProg a.xskMap a.ctx (maps a.cpu)).val.2

-- The map as it is created.
def freshMaps : Fin nrCpus → StatsMap := fun _ ↦ Vector.replicate 1 .zero

def handlePackets (arrivals : List (Arrival nrCpus)) : Fin nrCpus → StatsMap :=
  arrivals.foldl handlePacket freshMaps

-- What `bpf_map_lookup_elem` fills in, one value for each CPU.
def perCpuValues (maps : Fin nrCpus → StatsMap) : Fin nrCpus → VadStats := fun i ↦ (maps i).head

/-! ## The counters -/

inductive Counter where
  | total
  | speech
  | silence
  | malformed
deriving DecidableEq, Repr

def VadStats.get (stats : VadStats) : Counter → UInt64
  | .total => stats.pktsTotal
  | .speech => stats.pktsSpeech
  | .silence => stats.pktsSilence
  | .malformed => stats.pktsMalformed

/-- The exits a counter counts. -/
def Counter.counts : Counter → XdpExit → Bool
  | .total, _ => true
  | .speech, exit => exit == .redirect
  | .silence, exit => exit == .silence
  | .malformed, exit => exit == .malformed

theorem get_count_seen (exit : XdpExit) (stats : VadStats) (c : Counter) :
    (exit.count stats.seen).get c = stats.get c + if c.counts exit then 1 else 0 := by
  cases c <;> cases exit <;> simp [VadStats.get, XdpExit.count, VadStats.seen, Counter.counts]

theorem get_add (a b : VadStats) (c : Counter) : (a.add b).get c = a.get c + b.get c := by
  cases c <;> rfl

theorem get_printStats (values : Fin nrCpus → VadStats) (c : Counter) :
    (printStats values).get c = ∑ i, (values i).get c := by
  have hfold (l : List (Fin nrCpus)) (aggregate : VadStats) :
      (l.foldl (fun aggregate i ↦ aggregate.add (values i)) aggregate).get c =
        aggregate.get c + (l.map fun i ↦ (values i).get c).sum := by
    induction l generalizing aggregate with
    | nil => simp
    | cons i l ih => rw [List.foldl_cons, ih, get_add, List.map_cons, List.sum_cons, add_assoc]
  rw [printStats, hfold, Fin.sum_univ_def]
  cases c <;> simp [VadStats.get, VadStats.zero]

-- Adding to one of several shards adds as much to their sum.
theorem sum_update_add {ι M : Type*} [Fintype ι] [DecidableEq ι] [AddCommMonoid M] (f : ι → M)
    (i : ι) (d : M) : ∑ j, Function.update f i (f i + d) j = ∑ j, f j + d := by
  rw [Finset.sum_update_of_mem (Finset.mem_univ i),
    Finset.sum_eq_add_sum_sdiff_singleton_of_mem (Finset.mem_univ i) f, add_right_comm]

/-- The exits of the packets so far, in order. -/
def exits (arrivals : List (Arrival nrCpus)) : List XdpExit :=
  arrivals.map fun a ↦ frameOutcome a.ctx.data

theorem exits_concat (arrivals : List (Arrival nrCpus)) (a : Arrival nrCpus) :
    exits (arrivals ++ [a]) = exits arrivals ++ [frameOutcome a.ctx.data] :=
  List.map_append

theorem perCpuValues_handlePacket (maps : Fin nrCpus → StatsMap) (a : Arrival nrCpus) :
    perCpuValues (handlePacket maps a) = Function.update (perCpuValues maps) a.cpu
      ((frameOutcome a.ctx.data).count (perCpuValues maps a.cpu).seen) := by
  rw [handlePacket, xdpVadProg_val]
  funext i
  by_cases hi : i = a.cpu
  · subst hi
    simp [perCpuValues, head_set]
  · simp [perCpuValues, hi]

/-- Each counter, summed over the CPUs, is the number of packets whose exit it counts. -/
theorem sum_get_handlePackets (arrivals : List (Arrival nrCpus)) (c : Counter) :
    ∑ i, (perCpuValues (handlePackets arrivals) i).get c =
      UInt64.ofNat ((exits arrivals).countP (c.counts ·)) := by
  induction arrivals using List.reverseRecOn with
  | nil =>
    have hzero (i : Fin nrCpus) : (perCpuValues (handlePackets []) i).get c = 0 := by
      cases c <;> rfl
    rw [Fintype.sum_congr _ _ hzero, Finset.sum_const_zero]
    rfl
  | append_singleton arrivals a ih =>
    rw [handlePackets, List.foldl_append, List.foldl_cons, List.foldl_nil, ← handlePackets,
      perCpuValues_handlePacket]
    -- one CPU's counter grows by what the packet's exit adds to it
    have hcomp : (fun i ↦ (Function.update (perCpuValues (handlePackets arrivals)) a.cpu
        ((frameOutcome a.ctx.data).count (perCpuValues (handlePackets arrivals) a.cpu).seen)
          i).get c) =
        Function.update (fun i ↦ (perCpuValues (handlePackets arrivals) i).get c) a.cpu
          ((perCpuValues (handlePackets arrivals) a.cpu).get c +
            if c.counts (frameOutcome a.ctx.data) then 1 else 0) := by
      rw [← get_count_seen]
      funext i
      exact Function.apply_update (fun _ stats ↦ VadStats.get stats c) _ _ _ i
    rw [hcomp, sum_update_add (fun i ↦ (perCpuValues (handlePackets arrivals) i).get c), ih,
      exits_concat, List.countP_append, UInt64.ofNat_add]
    by_cases hcounts : c.counts (frameOutcome a.ctx.data) = true <;> simp [hcounts]

/-! ## What the loader prints -/

/-- Passed without a class: a frame that is not IPv4, not UDP or to a port outside the range, with
the headers that tell so in place. -/
def PassedOver (packet : List UInt8) : Prop :=
  14 ≤ packet.length ∧ etherType packet ≠ 0x0800 ∨
    34 ≤ packet.length ∧ etherType packet = 0x0800 ∧ ipProtocol packet ≠ 17 ∨
    34 ≤ packet.length ∧ etherType packet = 0x0800 ∧ ipProtocol packet = 17 ∧ 5 ≤ ihl packet ∧
      14 + 4 * ihl packet + 8 ≤ packet.length ∧ (dstPort packet < 5000 ∨ 5999 < dstPort packet)

theorem frameOutcome_eq_passed_iff (packet : List UInt8) :
    frameOutcome packet = .passed ↔ PassedOver packet := by
  unfold frameOutcome PassedOver
  split_ifs <;> simp <;> omega

-- Every packet leaves through one of the four exits.
theorem length_eq_counts (l : List XdpExit) :
    l.count .redirect + l.count .silence + l.count .malformed + l.count .passed = l.length := by
  induction l with
  | nil => rfl
  | cons exit l ih =>
    cases exit <;> simp only [List.count_cons, List.length_cons] <;> simp <;> omega

/-- A packet moves one class counter at most. -/
def ClassedOnce (before after : VadStats) : Prop :=
  ∀ c c', c ≠ .total → c' ≠ .total → after.get c ≠ before.get c → after.get c' ≠ before.get c' →
    c = c'

theorem classedOnce_count (exit : XdpExit) (stats : VadStats) :
    ClassedOnce stats (exit.count stats.seen) := by
  intro c c' hc hc' hmoved hmoved'
  rw [get_count_seen] at hmoved hmoved'
  have hcounts : c.counts exit = true := by
    by_contra hno
    simp [hno] at hmoved
  have hcounts' : c'.counts exit = true := by
    by_contra hno
    simp [hno] at hmoved'
  cases c <;> cases c' <;> cases exit <;> simp_all [Counter.counts]

/-- Below 2^64 packets on any CPUs in any order, the aggregate that `print_stats` computes counts
them: in all, by class, and, as the difference, those passed over.  No packet is counted in two
classes. -/
theorem stats_conserved (arrivals : List (Arrival nrCpus)) (hcount : arrivals.length < 2 ^ 64) :
    let aggregate := printStats (perCpuValues (handlePackets arrivals))
    aggregate.pktsTotal.toNat = arrivals.length ∧
      aggregate.pktsSpeech.toNat = (exits arrivals).count .redirect ∧
      aggregate.pktsSilence.toNat = (exits arrivals).count .silence ∧
      aggregate.pktsMalformed.toNat = (exits arrivals).count .malformed ∧
      aggregate.pktsTotal.toNat = aggregate.pktsSpeech.toNat + aggregate.pktsSilence.toNat +
        aggregate.pktsMalformed.toNat + (exits arrivals).count .passed ∧
      (∀ packet, frameOutcome packet = .passed ↔ PassedOver packet) ∧
      ∀ xskMap ctx statsMap, ClassedOnce statsMap.head
        (xdpVadProg xskMap ctx statsMap).val.2.head := by
  intro aggregate
  have hlength : (exits arrivals).length = arrivals.length := List.length_map _
  have htoNat (c : Counter) : (aggregate.get c).toNat = (exits arrivals).countP (c.counts ·) := by
    have hle := List.countP_le_length (p := (c.counts ·)) (l := exits arrivals)
    rw [get_printStats, sum_get_handlePackets, UInt64.toNat_ofNat_of_lt']
    have hsize : UInt64.size = 2 ^ 64 := rfl
    omega
  have htotal : aggregate.pktsTotal.toNat = arrivals.length := by
    rw [← hlength, ← List.countP_true]
    exact htoNat .total
  have hspeech : aggregate.pktsSpeech.toNat = (exits arrivals).count .redirect := htoNat .speech
  have hsilence : aggregate.pktsSilence.toNat = (exits arrivals).count .silence := htoNat .silence
  have hmalformed : aggregate.pktsMalformed.toNat = (exits arrivals).count .malformed :=
    htoNat .malformed
  refine ⟨htotal, hspeech, hsilence, hmalformed, ?_, frameOutcome_eq_passed_iff, ?_⟩
  · have hsum := length_eq_counts (exits arrivals)
    omega
  · intro xskMap ctx statsMap
    rw [xdpVadProg_val, head_set]
    exact classedOnce_count _ _

-- A frame too short for Ethernet on one CPU and one that is not IPv4 on the other.
def twoCpus : List (Arrival 2) :=
  [{ cpu := 0, ctx := { data := [], rxQueueIndex := 0 }, xskMap := fun _ ↦ false },
    { cpu := 1
      ctx := { data := List.replicate 14 0, rxQueueIndex := 0 }
      xskMap := fun _ ↦ false }]

theorem twoCpus_conserved :
    (printStats (perCpuValues (handlePackets twoCpus))).pktsTotal.toNat = 2 ∧
      (printStats (perCpuValues (handlePackets twoCpus))).pktsMalformed.toNat = 1 := by
  obtain ⟨htotal, -, -, hmalformed, -⟩ := stats_conserved twoCpus (by decide)
  exact ⟨htotal, hmalformed.trans (by decide +kernel)⟩

end AsrServe.VadEdge.Xdp
