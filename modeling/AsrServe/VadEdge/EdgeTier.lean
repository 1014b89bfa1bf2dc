import AsrServe.Reasoning.Runs
import AsrServe.VadEdge.Loader
import AsrServe.VadEdge.Stages
import AsrServe.VadEdge.Telemetry
import AsrServe.VadEdge.VerdictHistory

/-!
# The edge tier from the card to the uplink

The kernel program on every CPU and the polling loop of the pipeline, with what lies between them:
the AF_XDP sockets the program redirects frames to and the receive queue the loop takes bursts from.
These belong to the kernel and to the driver.  The loop polls queue 0 of its port; a frame redirected
at another receive queue never gets to it.
-/

open AsrServe.Reasoning

namespace AsrServe.VadEdge.EdgeTier

open Xdp Wasm Pipeline

variable {nrCpus : Nat}

/-! ## The second stage on a run of frames -/

/-- What the polling loop hears in a frame: the Wasm decision on its samples, as far as they fit the
staging buffer. -/
def calledSpeech (inst : Instance) (frame : List UInt8) : Bool :=
  decide (694 ≤ frame.length) && decide (2 * ((frame.length - hdrLen) / 2) ≤ 65536) &&
    isSpeech inst.energyThreshold.toInt inst.zcrThreshold.toInt (frameAudio frame)

-- The mbufs offered to the transmit queue, by its answer.
def offered {σ : Type} (st : Pipeline.State σ) (sent : Bool) : List Nat :=
  (st.ops.filter fun p ↦ p.2 == .txBurst sent).map Prod.fst

theorem offered_touch {σ : Type} (st : Pipeline.State σ) (m : Nat) (op : MbufOp) (sent : Bool) :
    offered (st.touch m op) sent =
      offered st sent ++ if op == .txBurst sent then [m] else [] := by
  rw [offered, State.touch, List.filter_append, List.map_append, List.filter_singleton]
  cases op == MbufOp.txBurst sent <;> rfl

theorem frameSamples_of_lt {n : Nat} (h : n < 694) : frameSamples n = none := if_pos h

-- The verdict of the module the loop runs, whatever earlier frames left in its memory.
theorem classify_eq_one_iff {inst inst' : Instance} (hsize : inst.memory.size = 2 * 65536)
    (hsame : SameModule inst inst') {frame : List UInt8} (hlen : 694 ≤ frame.length) :
    (Pipeline.wasmVadClassify inst' frame ⟨hdrLen, (frame.length - hdrLen) / 2⟩).1 = 1 ↔
      calledSpeech inst frame = true := by
  obtain ⟨hmem, henergy, hzcr⟩ := hsame
  rw [wasmVadClassify_verdict_eq (hmem.trans hsize) hlen, henergy, hzcr, calledSpeech,
    decide_eq_true hlen, Bool.true_and]
  split
  · rename_i hfit
    rw [decide_eq_true hfit, Bool.true_and]
    cases isSpeech inst.energyThreshold.toInt inst.zcrThreshold.toInt (frameAudio frame)
    · simp
    · simp
  · rename_i hfit
    rw [decide_eq_false hfit]
    simp

/-- A frame is offered to the transmit queue just when it is called speech. -/
theorem offered_handleFrame {inst : Instance} (hsize : inst.memory.size = 2 * 65536)
    (txBurst : Nat → Bool) {st : Pipeline.State Instance} (hsame : SameModule inst st.wasm)
    (frame : List UInt8) (sent : Bool) :
    offered (handleFrame (wasmEnv txBurst) st frame) sent = offered st sent ++
      if calledSpeech inst frame && txBurst st.received == sent then [st.received] else [] := by
  rcases Nat.lt_or_ge frame.length 694 with hshort | hlen
  · have hnot : calledSpeech inst frame = false := by
      rw [calledSpeech, decide_eq_false (not_le.mpr hshort), Bool.false_and, Bool.false_and]
    rw [handleFrame, frameSamples_of_lt hshort, hnot]
    dsimp only
    rw [offered_touch, offered_touch]
    cases sent <;> simp [offered]
  · have hverdict := classify_eq_one_iff hsize hsame hlen
    rw [handleFrame, frameSamples_of_le hlen]
    dsimp only [wasmEnv]
    by_cases hspeech : calledSpeech inst frame = true
    · rw [if_pos (by exact hverdict.mpr hspeech), hspeech, forwardSpeechFrame]
      cases htx : txBurst st.received <;> cases sent <;> simp [offered, State.touch, htx]
    · rw [if_neg (by exact mt hverdict.mp hspeech), offered_touch]
      rw [Bool.not_eq_true] at hspeech
      rw [hspeech]
      cases sent <;> simp [offered, State.touch]

-- The frames of `taken` called speech, by their mbufs.
def speechMbufs (inst : Instance) (taken : List (List UInt8)) : List Nat :=
  (taken.zipIdx.filter fun p ↦ calledSpeech inst p.1).map Prod.snd

theorem speechMbufs_concat (inst : Instance) (taken : List (List UInt8)) (frame : List UInt8) :
    speechMbufs inst (taken ++ [frame]) =
      speechMbufs inst taken ++ if calledSpeech inst frame then [taken.length] else [] := by
  rw [speechMbufs, List.zipIdx_append, List.filter_append, List.map_append, Nat.zero_add,
    List.zipIdx_singleton, List.filter_singleton]
  cases calledSpeech inst frame <;> rfl

/-- The loop has been given the frames of `taken` and has offered those called speech. -/
structure Carried (inst : Instance) (txBurst : Nat → Bool) (taken : List (List UInt8))
    (st : Pipeline.State Instance) : Prop where
  sameModule : SameModule inst st.wasm
  received_eq : st.received = taken.length
  offered_eq : ∀ sent, offered st sent =
    (speechMbufs inst taken).filter fun m ↦ txBurst m == sent

theorem Carried.handleFrame {inst : Instance} (hsize : inst.memory.size = 2 * 65536)
    {txBurst : Nat → Bool} {taken : List (List UInt8)} {st : Pipeline.State Instance}
    (h : Carried inst txBurst taken st) (frame : List UInt8) :
    Carried inst txBurst (taken ++ [frame]) (handleFrame (wasmEnv txBurst) st frame) where
  sameModule := handleFrame_sameModule txBurst st frame h.sameModule
  received_eq := by
    obtain ⟨exit, wasm, heq⟩ := handleFrame_exit (wasmEnv txBurst) st frame
    rw [heq, List.length_append]
    exact congrArg (· + 1) h.received_eq
  offered_eq := fun sent ↦ by
    rw [offered_handleFrame hsize txBurst h.sameModule, h.offered_eq, speechMbufs_concat,
      List.filter_append, h.received_eq]
    cases calledSpeech inst frame <;> simp [List.filter_singleton]

theorem Carried.handleBurst {inst : Instance} (hsize : inst.memory.size = 2 * 65536)
    {txBurst : Nat → Bool} {taken : List (List UInt8)} {st : Pipeline.State Instance}
    (h : Carried inst txBurst taken st) (burst : Burst) :
    Carried inst txBurst (taken ++ burst.frames) (handleBurst (wasmEnv txBurst) st burst) := by
  rw [Pipeline.handleBurst]
  generalize burst.frames = frames
  induction frames generalizing taken st with
  | nil => rwa [List.append_nil]
  | cons frame frames ih =>
    rw [List.foldl_cons, List.append_cons]
    exact ih (h.handleFrame hsize frame)

/-! ## The tier -/

/-- What lies between the program and the loop, as the two of them see it; entry 0 of `xsk_map` is
the socket the loop polls. -/
structure Rings (ρ : Type) where
  -- A frame is redirected to the socket of a receive queue; whether there was room for it.
  deliver : ρ → UInt32 → List UInt8 → Bool × ρ
  -- `rte_eth_rx_burst` on queue 0 of the port.
  rxBurst : ρ → Burst × ρ

/-- The socket of queue 0 is a queue whose contents are `waiting`: a frame redirected there joins it
at the end or, without room, is lost; frames of other receive queues do not get in; a burst is a
first part of it. -/
structure Rings.Fifo {ρ : Type} (rings : Rings ρ) (waiting : ρ → List (List UInt8)) : Prop where
  deliver_polled : ∀ r frame, waiting (rings.deliver r 0 frame).2 =
    waiting r ++ if (rings.deliver r 0 frame).1 then [frame] else []
  deliver_other : ∀ r queue frame, queue ≠ 0 → waiting (rings.deliver r queue frame).2 = waiting r
  rxBurst_eq : ∀ r, (rings.rxBurst r).1.frames ++ waiting (rings.rxBurst r).2 = waiting r

variable {ρ : Type}

structure Tier (nrCpus : Nat) (ρ : Type) where
  -- `stats_map`, one slot for each CPU.
  maps : Fin nrCpus → StatsMap
  ring : ρ
  pipeline : Pipeline.State Instance
  -- What became of the packets so far: all of them, those passed to the kernel's stack, those
  -- redirected at a queue the loop does not poll, those lost for want of room at the one it polls,
  -- and those the loop has taken.
  arrivals : List (Arrival nrCpus)
  passed : List (List UInt8)
  elsewhere : List (List UInt8)
  dropped : List (List UInt8)
  taken : List (List UInt8)

def Tier.start (ring : ρ) (inst : Instance) : Tier nrCpus ρ where
  maps := freshMaps
  ring := ring
  pipeline := State.start inst
  arrivals := []
  passed := []
  elsewhere := []
  dropped := []
  taken := []

inductive Event (nrCpus : Nat) where
  -- A packet runs through the kernel program on its CPU.
  | packet (a : Arrival nrCpus)
  -- The loop polls the port and handles what it gets.
  | rxBurst

-- What becomes of a frame the program has returned `action` for.
def Tier.deliver (rings : Rings ρ) (t : Tier nrCpus ρ) (ctx : XdpMd) :
    XdpAction → Tier nrCpus ρ
  | .pass => { t with passed := t.passed ++ [ctx.data] }
  | .redirect =>
    let (room, ring) := rings.deliver t.ring ctx.rxQueueIndex ctx.data
    let t := { t with ring := ring }
    if ctx.rxQueueIndex ≠ 0 then { t with elsewhere := t.elsewhere ++ [ctx.data] }
    else if room then t
    else { t with dropped := t.dropped ++ [ctx.data] }

def step (rings : Rings ρ) (txBurst : Nat → Bool) (t : Tier nrCpus ρ) :
    Event nrCpus → Option (Tier nrCpus ρ)
  | .packet a =>
    let action := (xdpVadProg a.xskMap a.ctx (t.maps a.cpu)).val.1
    let t := { t with maps := handlePacket t.maps a, arrivals := t.arrivals ++ [a] }
    some (t.deliver rings a.ctx action)
  | .rxBurst =>
    let (burst, ring) := rings.rxBurst t.ring
    some
      { t with
        ring := ring
        pipeline := handleBurst (wasmEnv txBurst) t.pipeline burst
        taken := t.taken ++ burst.frames }

theorem step_total (rings : Rings ρ) (txBurst : Nat → Bool) (t : Tier nrCpus ρ)
    (event : Event nrCpus) : ∃ t', step rings txBurst t event = some t' := by
  cases event <;> exact ⟨_, rfl⟩

/-! ## What became of the packets -/

-- The program returns a redirect for the packet.
def redirected (a : Arrival nrCpus) : Bool :=
  (frameOutcome a.ctx.data).action a.xskMap a.ctx == .redirect

-- The packet comes from the queue the loop polls.
def polled (a : Arrival nrCpus) : Bool := a.ctx.rxQueueIndex == 0

/-- The frames redirected at the polled queue, in the order they arrived. -/
def redirects (arrivals : List (Arrival nrCpus)) : List (List UInt8) :=
  (arrivals.filter fun a ↦ redirected a && polled a).map (·.ctx.data)

theorem redirects_concat (arrivals : List (Arrival nrCpus)) (a : Arrival nrCpus) :
    redirects (arrivals ++ [a]) =
      redirects arrivals ++ if redirected a && polled a then [a.ctx.data] else [] := by
  rw [redirects, List.filter_append, List.map_append, List.filter_singleton]
  cases redirected a && polled a <;> rfl

/-- The frames of the mbufs the transmit queue has accepted, in order. -/
def Tier.transmitted (t : Tier nrCpus ρ) : List (List UInt8) :=
  (offered t.pipeline true).filterMap (t.taken[·]?)

-- The verdict of both stages on a frame.
def bothStages (inst : Instance) (frame : List UInt8) : Bool :=
  frameOutcome frame == .redirect && calledSpeech inst frame

/-- Every packet is in one place, the polled queue loses only what it has no room for, and the loop
has been given what it has taken. -/
structure Inv (inst : Instance) (txBurst : Nat → Bool) (waiting : ρ → List (List UInt8))
    (t : Tier nrCpus ρ) : Prop where
  maps_eq : t.maps = handlePackets t.arrivals
  fifo : (t.taken ++ waiting t.ring).Sublist (redirects t.arrivals)
  redirects_eq : (redirects t.arrivals).length =
    t.dropped.length + (t.taken ++ waiting t.ring).length
  elsewhere_eq : t.elsewhere.length = t.arrivals.countP fun a ↦ redirected a && !polled a
  passed_eq : t.passed.length = t.arrivals.countP fun a ↦ !redirected a
  carried : Carried inst txBurst t.taken t.pipeline
  pipeline : Pipeline.Inv t.pipeline
  counts : CountsOffered t.pipeline

variable {inst : Instance} {txBurst : Nat → Bool} {rings : Rings ρ}
  {waiting : ρ → List (List UInt8)} {t t' : Tier nrCpus ρ}

theorem inv_start {ring : ρ} (hempty : waiting ring = []) (inst : Instance)
    (txBurst : Nat → Bool) : Inv inst txBurst waiting (Tier.start ring inst : Tier nrCpus ρ) where
  maps_eq := rfl
  fifo := by
    show ([] ++ waiting ring).Sublist []
    rw [hempty]
    exact List.Sublist.refl _
  redirects_eq := by
    show 0 = 0 + ([] ++ waiting ring).length
    rw [hempty]
    rfl
  elsewhere_eq := rfl
  passed_eq := rfl
  carried := ⟨⟨rfl, rfl, rfl⟩, rfl, fun _ ↦ rfl⟩
  pipeline := Pipeline.Inv.start inst
  counts := ⟨rfl, rfl⟩

theorem handlePackets_concat (arrivals : List (Arrival nrCpus)) (a : Arrival nrCpus) :
    handlePackets (arrivals ++ [a]) = handlePacket (handlePackets arrivals) a := by
  rw [handlePackets, List.foldl_append]
  rfl

-- What a packet adds to the frames redirected at the polled queue.
def added (a : Arrival nrCpus) : List (List UInt8) :=
  if redirected a && polled a then [a.ctx.data] else []

/-- A packet that arrives is passed, redirected elsewhere, lost or waiting from then on. -/
theorem Inv.arrive (h : Inv inst txBurst waiting t) (a : Arrival nrCpus) {ring : ρ}
    {entered passed elsewhere dropped : List (List UInt8)}
    (hwaiting : waiting ring = waiting t.ring ++ entered) (hentered : entered.Sublist (added a))
    (hdropped : dropped.length + entered.length = t.dropped.length + (added a).length)
    (helsewhere : elsewhere.length =
      t.elsewhere.length + if redirected a && !polled a then 1 else 0)
    (hpassed : passed.length = t.passed.length + if !redirected a then 1 else 0) :
    Inv inst txBurst waiting
      { t with
        maps := handlePacket t.maps a
        arrivals := t.arrivals ++ [a]
        ring := ring
        passed := passed
        elsewhere := elsewhere
        dropped := dropped } where
  maps_eq := by rw [handlePackets_concat, ← h.maps_eq]
  fifo := by
    rw [redirects_concat, hwaiting, ← List.append_assoc]
    exact h.fifo.append hentered
  redirects_eq := by
    have hbefore := h.redirects_eq
    have hadded : (redirects (t.arrivals ++ [a])).length =
        (redirects t.arrivals).length + (added a).length := by
      rw [redirects_concat, List.length_append, added]
    rw [hadded, hwaiting]
    simp only [List.length_append] at hbefore ⊢
    omega
  elsewhere_eq := by
    rw [List.countP_append, List.countP_singleton, ← h.elsewhere_eq, helsewhere]
  passed_eq := by
    rw [List.countP_append, List.countP_singleton, ← h.passed_eq, hpassed]
  carried := h.carried
  pipeline := h.pipeline
  counts := h.counts

theorem Inv.packet (hfifo : rings.Fifo waiting) (h : Inv inst txBurst waiting t)
    (a : Arrival nrCpus) :
    Inv inst txBurst waiting
      ({ t with maps := handlePacket t.maps a, arrivals := t.arrivals ++ [a] }.deliver rings a.ctx
        (xdpVadProg a.xskMap a.ctx (t.maps a.cpu)).val.1) := by
  rw [xdpVadProg_val]
  dsimp only
  cases haction : (frameOutcome a.ctx.data).action a.xskMap a.ctx with
  | pass =>
    have hred : redirected a = false := by
      rw [redirected, haction]
      rfl
    exact h.arrive a (List.append_nil _).symm (List.nil_sublist _) (by simp [added, hred])
      (by simp [hred]) (by simp [hred])
  | redirect =>
    have hred : redirected a = true := by
      rw [redirected, haction]
      rfl
    simp only [Tier.deliver]
    by_cases hqueue : a.ctx.rxQueueIndex = 0
    · have hpolled : polled a = true := beq_iff_eq.mpr hqueue
      have hring := hfifo.deliver_polled t.ring a.ctx.data
      rw [if_neg (not_not.mpr hqueue), hqueue]
      cases hroom : (rings.deliver t.ring 0 a.ctx.data).1 with
      | true =>
        rw [hroom, if_pos rfl] at hring
        exact h.arrive a hring (by simp [added, hred, hpolled]) (by simp [added, hred, hpolled])
          (by simp [hred, hpolled]) (by simp [hred])
      | false =>
        rw [hroom] at hring
        exact h.arrive a hring (List.nil_sublist _) (by simp [added, hred, hpolled])
          (by simp [hred, hpolled]) (by simp [hred])
    · have hpolled : polled a = false := beq_eq_false_iff_ne.mpr hqueue
      have hring := hfifo.deliver_other t.ring a.ctx.rxQueueIndex a.ctx.data hqueue
      rw [if_pos hqueue]
      exact h.arrive a (hring.trans (List.append_nil _).symm) (List.nil_sublist _)
        (by simp [added, hpolled]) (by simp [hred, hpolled]) (by simp [hred])

theorem Inv.step (hsize : inst.memory.size = 2 * 65536) (hfifo : rings.Fifo waiting)
    (h : Inv inst txBurst waiting t) {event : Event nrCpus}
    (hstep : step rings txBurst t event = some t') : Inv inst txBurst waiting t' := by
  cases event with
  | packet a =>
    cases hstep
    exact h.packet hfifo a
  | rxBurst =>
    cases hstep
    -- the frames taken and those left are what was waiting
    have hsplit : t.taken ++ (rings.rxBurst t.ring).1.frames ++ waiting (rings.rxBurst t.ring).2 =
        t.taken ++ waiting t.ring := by
      rw [List.append_assoc, hfifo.rxBurst_eq]
    have hframes {I : Pipeline.State Instance → Prop}
        (hframe : ∀ st frame, I st → I (handleFrame (wasmEnv txBurst) st frame))
        (h0 : I t.pipeline) (burst : Burst) :
        I (handleBurst (wasmEnv txBurst) t.pipeline burst) :=
      pipelineRun_invariant hframe h0 [burst]
    exact
      { maps_eq := h.maps_eq
        fifo := by rw [hsplit]; exact h.fifo
        redirects_eq := by rw [hsplit]; exact h.redirects_eq
        elsewhere_eq := h.elsewhere_eq
        passed_eq := h.passed_eq
        carried := h.carried.handleBurst hsize _
        pipeline := hframes (fun _ frame hst ↦ hst.handleFrame _ frame) h.pipeline _
        counts := hframes (fun _ frame hst ↦ hst.handleFrame _ frame) h.counts _ }

theorem inv_run (hsize : inst.memory.size = 2 * 65536) (hfifo : rings.Fifo waiting) {ring : ρ}
    (hempty : waiting ring = []) {events : List (Event nrCpus)}
    (hrun : runFrom (EdgeTier.step rings txBurst) (.start ring inst) events = some t) :
    Inv inst txBurst waiting t :=
  run_invariant (fun _ _ _ h hstep ↦ h.step hsize hfifo hstep) (inv_start hempty inst txBurst) hrun

-- Every packet has one of the three verdicts.
theorem length_arrivals (arrivals : List (Arrival nrCpus)) :
    arrivals.length = (arrivals.countP fun a ↦ !redirected a) +
      (arrivals.countP fun a ↦ redirected a && !polled a) + (redirects arrivals).length := by
  rw [redirects, List.length_map, ← List.countP_eq_length_filter]
  induction arrivals with
  | nil => rfl
  | cons a arrivals ih =>
    rw [List.length_cons, List.countP_cons, List.countP_cons, List.countP_cons, ih]
    cases redirected a <;> cases polled a <;> simp <;> omega

/-! ## What goes out -/

theorem zipIdx_filter_fst {α : Type} (p : α → Bool) (l : List α) :
    (l.zipIdx.filter fun x ↦ p x.1).map Prod.fst = l.filter p := by
  have h := List.filter_map (f := Prod.fst) (p := p) (l := l.zipIdx)
  rw [List.zipIdx_map_fst] at h
  exact h.symm

-- Looking the mbufs up again gives the frames.
theorem transmitted_eq (h : Carried inst txBurst t.taken t.pipeline) :
    t.transmitted = ((t.taken.zipIdx.filter fun p ↦ calledSpeech inst p.1).filter
      fun p ↦ txBurst p.2).map Prod.fst := by
  rw [Tier.transmitted, h.offered_eq, speechMbufs, List.filter_map, List.filterMap_map,
    ← List.filterMap_eq_map]
  have htx : ((fun m ↦ txBurst m == true) ∘ Prod.snd : List UInt8 × Nat → Bool) =
      fun p ↦ txBurst p.2 := by
    funext p
    exact beq_true _
  rw [htx]
  apply List.filterMap_congr
  intro p hp
  have hmem := List.mem_of_mem_filter (List.mem_of_mem_filter hp)
  exact List.mem_zipIdx_iff_getElem?.mp hmem

theorem transmitted_sublist (h : Carried inst txBurst t.taken t.pipeline) :
    t.transmitted.Sublist (t.taken.filter (calledSpeech inst)) := by
  have hsub := (List.filter_sublist (p := fun p : List UInt8 × Nat ↦ txBurst p.2)
    (l := t.taken.zipIdx.filter fun p ↦ calledSpeech inst p.1)).map Prod.fst
  rwa [zipIdx_filter_fst, ← transmitted_eq h] at hsub

theorem redirected_eq (a : Arrival nrCpus) :
    redirected a = (frameOutcome a.ctx.data == .redirect && a.xskMap a.ctx.rxQueueIndex) := by
  rw [redirected]
  cases frameOutcome a.ctx.data with
  | redirect => cases hmap : a.xskMap a.ctx.rxQueueIndex <;>
      simp [XdpExit.action, bpfRedirectMap, hmap]
  | malformed => rfl
  | passed => rfl
  | silence => rfl

-- A redirected frame called speech has the verdict of both stages.
theorem redirects_speech_sublist (inst : Instance) (arrivals : List (Arrival nrCpus)) :
    ((redirects arrivals).filter (calledSpeech inst)).Sublist
      ((arrivals.map (·.ctx.data)).filter (bothStages inst)) := by
  rw [redirects, List.filter_map, List.filter_filter, List.filter_map]
  apply List.Sublist.map
  apply List.monotone_filter_right
  intro a ha
  rw [Bool.and_eq_true, Bool.and_eq_true, redirected_eq, Bool.and_eq_true] at ha
  exact Bool.and_eq_true_iff.mpr ⟨ha.2.1.1, ha.1⟩

-- When every packet comes from the polled queue and finds its socket bound, the program redirects
-- all that it means to.
theorem redirects_speech_eq (inst : Instance) {arrivals : List (Arrival nrCpus)}
    (hbound : ∀ a ∈ arrivals, a.ctx.rxQueueIndex = 0 ∧ a.xskMap 0 = true) :
    (redirects arrivals).filter (calledSpeech inst) =
      (arrivals.map (·.ctx.data)).filter (bothStages inst) := by
  rw [redirects, List.filter_map, List.filter_filter, List.filter_map]
  apply congrArg
  apply List.filter_congr
  intro a ha
  obtain ⟨hqueue, hsocket⟩ := hbound a ha
  have hpolled : polled a = true := beq_iff_eq.mpr hqueue
  rw [redirected_eq, hqueue, hsocket, hpolled, Bool.and_true, Bool.and_true, Bool.and_comm]
  rfl

theorem transmitted_eq_speech (h : Carried inst txBurst t.taken t.pipeline)
    (hrefused : ∀ m, (m, .txBurst false) ∉ t.pipeline.ops) :
    t.transmitted = t.taken.filter (calledSpeech inst) := by
  have hnone : offered t.pipeline false = [] := by
    rw [offered, List.map_eq_nil_iff, List.filter_eq_nil_iff]
    rintro ⟨m, op⟩ hmem hop
    obtain rfl := beq_iff_eq.mp hop
    exact hrefused m hmem
  rw [h.offered_eq, List.filter_eq_nil_iff] at hnone
  rw [transmitted_eq h, ← zipIdx_filter_fst (calledSpeech inst) t.taken]
  apply congrArg
  apply List.filter_eq_self.mpr
  intro p hp
  have hm := hnone p.2 (List.mem_map_of_mem hp)
  cases htx : txBurst p.2 with
  | true => rfl
  | false => exact absurd (by rw [htx]; rfl) hm

/-- However packets and polls interleave: every packet is in the kernel's stack, redirected at a
queue the loop does not poll, lost for want of room, waiting or in the hands of the loop; the loop
gets the frames redirected at its queue in the order they arrived; and what the transmit queue has
accepted is frames both stages call speech, in that order.  When all packets come from the polled
queue and find its socket, nothing waits or has been lost and the transmit queue has refused
nothing, it is all of them. -/
theorem edge_tier_forwards (inst : Instance) (hsize : inst.memory.size = 2 * 65536)
    (txBurst : Nat → Bool) (rings : Rings ρ) (waiting : ρ → List (List UInt8))
    (hfifo : rings.Fifo waiting) (ring : ρ) (hempty : waiting ring = [])
    (events : List (Event nrCpus)) (t : Tier nrCpus ρ)
    (hrun : runFrom (step rings txBurst) (.start ring inst) events = some t) :
    t.arrivals.length = t.passed.length + t.elsewhere.length + t.dropped.length +
        (waiting t.ring).length + t.taken.length ∧
      (t.taken ++ waiting t.ring).Sublist (redirects t.arrivals) ∧
      t.transmitted.Sublist ((t.arrivals.map (·.ctx.data)).filter (bothStages inst)) ∧
      ((∀ a ∈ t.arrivals, a.ctx.rxQueueIndex = 0 ∧ a.xskMap 0 = true) →
        t.dropped = [] → waiting t.ring = [] → (∀ m, (m, .txBurst false) ∉ t.pipeline.ops) →
        t.transmitted = (t.arrivals.map (·.ctx.data)).filter (bothStages inst)) := by
  have h := inv_run hsize hfifo hempty hrun
  have hredirects := h.redirects_eq
  refine ⟨?_, h.fifo, ?_, fun hbound hdropped hring hrefused ↦ ?_⟩
  · rw [length_arrivals, ← h.passed_eq, ← h.elsewhere_eq, hredirects, List.length_append]
    omega
  · have htaken := ((List.sublist_append_left t.taken (waiting t.ring)).trans h.fifo).filter
      (calledSpeech inst)
    exact (transmitted_sublist h.carried).trans
      (htaken.trans (redirects_speech_sublist inst t.arrivals))
  · have hall : t.taken = redirects t.arrivals := by
      have hsub := h.fifo
      rw [hring, List.append_nil] at hsub hredirects
      rw [hdropped, List.length_nil, Nat.zero_add] at hredirects
      exact hsub.eq_of_length hredirects.symm
    rw [transmitted_eq_speech h.carried hrefused, hall, redirects_speech_eq inst hbound]

-- The socket of queue 0 with room for `size` frames.
def boundedRing (size : Nat) : Rings (List (List UInt8)) where
  deliver waiting queue frame :=
    if queue = 0 ∧ waiting.length < size then (true, waiting ++ [frame]) else (false, waiting)
  rxBurst waiting :=
    ({ frames := waiting.take burstSize, length_le := List.length_take_le .. },
      waiting.drop burstSize)

theorem boundedRing_fifo (size : Nat) : (boundedRing size).Fifo id where
  deliver_polled := by
    intro waiting frame
    simp only [boundedRing, true_and, id]
    split
    · rfl
    · exact (List.append_nil _).symm
  deliver_other := by
    intro waiting queue frame hqueue
    simp only [boundedRing, hqueue, false_and, if_false, id]
  rxBurst_eq := fun waiting ↦ List.take_append_drop burstSize waiting

-- A loud frame on the first of two CPUs, with a socket behind every queue.
def loudArrival (queue : UInt32) : Arrival 2 where
  cpu := ⟨0, Nat.two_pos⟩
  ctx := { data := loudFrame, rxQueueIndex := queue }
  xskMap := fun _ ↦ true

-- Three such frames into a ring of two and one at another queue; the loop polls.
def fourLoud : List (Event 2) :=
  [.packet (loudArrival 0), .packet (loudArrival 1), .packet (loudArrival 0),
    .packet (loudArrival 0), .rxBurst]

theorem fourLoud_forwards : ∃ t : Tier 2 (List (List UInt8)),
    runFrom (step (boundedRing 2) fun _ ↦ true) (.start [] freshInstance) fourLoud = some t ∧
      (t.taken ++ t.ring).Sublist (redirects t.arrivals) := by
  obtain ⟨t, hrun⟩ := run_total (step_total (boundedRing 2) fun _ ↦ true)
    (.start [] freshInstance) fourLoud
  have h := edge_tier_forwards freshInstance rfl (fun _ ↦ true) (boundedRing 2) id
    (boundedRing_fifo 2) [] rfl fourLoud t hrun
  exact ⟨t, hrun, h.2.1⟩

/-! ## What the two programs count -/

-- Frames the program meant to redirect while no socket was bound to their queue.
def unbound (arrivals : List (Arrival nrCpus)) : Nat :=
  arrivals.countP fun a ↦ frameOutcome a.ctx.data == .redirect && !a.xskMap a.ctx.rxQueueIndex

theorem speech_exits_eq (arrivals : List (Arrival nrCpus)) :
    (exits arrivals).countP (Counter.speech.counts ·) = (redirects arrivals).length +
      (arrivals.countP fun a ↦ redirected a && !polled a) + unbound arrivals := by
  rw [exits, List.countP_map, redirects, List.length_map, unbound,
    ← List.countP_eq_length_filter]
  induction arrivals with
  | nil => rfl
  | cons a arrivals ih =>
    have hspeech : ((Counter.speech.counts ·) ∘ fun a : Arrival nrCpus ↦ frameOutcome a.ctx.data) a =
        (frameOutcome a.ctx.data == .redirect) := rfl
    rw [List.countP_cons, List.countP_cons, List.countP_cons, List.countP_cons, ih, hspeech,
      redirected_eq]
    -- by the outcome of the frame, its socket and its queue
    cases frameOutcome a.ctx.data == XdpExit.redirect <;>
      cases a.xskMap a.ctx.rxQueueIndex <;> cases polled a <;> simp <;> omega

theorem length_offered (h : Carried inst txBurst t.taken t.pipeline) :
    (offered t.pipeline true).length + (offered t.pipeline false).length =
      t.taken.countP (calledSpeech inst) := by
  have hsplit := List.length_eq_length_filter_add (l := speechMbufs inst t.taken) txBurst
  have htrue : (fun m ↦ txBurst m == true) = txBurst := funext fun m ↦ beq_true _
  have hfalse : (fun m ↦ txBurst m == false) = fun m ↦ !txBurst m := funext fun m ↦ beq_false _
  rw [h.offered_eq, h.offered_eq, htrue, hfalse, ← hsplit, speechMbufs, List.length_map,
    List.countP_eq_length_filter, ← zipIdx_filter_fst (calledSpeech inst) t.taken, List.length_map]

theorem length_transmitted (h : Carried inst txBurst t.taken t.pipeline) :
    t.transmitted.length = (offered t.pipeline true).length := by
  have htrue : (fun m ↦ txBurst m == true) = txBurst := funext fun m ↦ beq_true _
  rw [transmitted_eq h, h.offered_eq, htrue, speechMbufs, List.filter_map, List.length_map,
    List.length_map]
  rfl

/-- Below 2^64 packets the counters of the two programs fit together: what the kernel program
counts as speech is what the loop counts as received and what still waits, was lost for want of
room, was redirected at a queue the loop does not poll or had no socket; what the loop counts as
speech it also counts as forwarded, whether the transmit queue has accepted it or not. -/
theorem edge_tier_telemetry (inst : Instance) (hsize : inst.memory.size = 2 * 65536)
    (txBurst : Nat → Bool) (rings : Rings ρ) (waiting : ρ → List (List UInt8))
    (hfifo : rings.Fifo waiting) (ring : ρ) (hempty : waiting ring = [])
    (events : List (Event nrCpus)) (t : Tier nrCpus ρ)
    (hrun : runFrom (step rings txBurst) (.start ring inst) events = some t)
    (hcount : t.arrivals.length < 2 ^ 64) :
    (printStats (perCpuValues t.maps)).pktsSpeech.toNat =
        t.pipeline.ctx.framesReceived.toNat + (waiting t.ring).length + t.dropped.length +
          t.elsewhere.length + unbound t.arrivals ∧
      t.pipeline.ctx.framesReceived.toNat = t.taken.length ∧
      t.pipeline.ctx.framesSpeech.toNat = t.taken.countP (calledSpeech inst) ∧
      t.pipeline.ctx.framesForwarded.toNat =
        t.transmitted.length + (offered t.pipeline false).length := by
  have h := inv_run hsize hfifo hempty hrun
  have hredirects := h.redirects_eq
  have hplaced := length_arrivals t.arrivals
  rw [List.length_append] at hredirects
  have hsize64 : UInt64.size = 2 ^ 64 := rfl
  have hreceived : t.pipeline.ctx.framesReceived.toNat = t.taken.length := by
    rw [h.pipeline.framesReceived_eq, h.carried.received_eq, UInt64.toNat_ofNat_of_lt']
    omega
  have hoffered := length_offered h.carried
  have hspeech : t.pipeline.ctx.framesSpeech.toNat = t.taken.countP (calledSpeech inst) := by
    have haccepted : t.pipeline.accepted = (offered t.pipeline true).length := by
      rw [State.accepted, List.countP_eq_length_filter, offered, List.length_map]
    have hrefused : t.pipeline.refused = (offered t.pipeline false).length := by
      rw [State.refused, List.countP_eq_length_filter, offered, List.length_map]
    have hle := List.countP_le_length (p := calledSpeech inst) (l := t.taken)
    rw [h.pipeline.framesSpeech_eq, ← h.counts.offered_eq, haccepted, hrefused, hoffered,
      UInt64.toNat_ofNat_of_lt']
    omega
  refine ⟨?_, hreceived, hspeech, ?_⟩
  · have hexits := speech_exits_eq t.arrivals
    have hle := List.countP_le_length (p := (Counter.speech.counts ·)) (l := exits t.arrivals)
    have hlen : (exits t.arrivals).length = t.arrivals.length := List.length_map _
    have hsum : (printStats (perCpuValues t.maps)).get .speech =
        UInt64.ofNat ((exits t.arrivals).countP (Counter.speech.counts ·)) := by
      rw [get_printStats, h.maps_eq, sum_get_handlePackets]
    show ((printStats (perCpuValues t.maps)).get .speech).toNat = _
    rw [hsum, UInt64.toNat_ofNat_of_lt' (by omega), hexits, hreceived, h.elsewhere_eq]
    omega
  · rw [h.counts.forwarded_eq, hspeech, length_transmitted h.carried, hoffered]

theorem arrivals_deliver (t : Tier nrCpus ρ) (ctx : XdpMd) (action : XdpAction) :
    (t.deliver rings ctx action).arrivals = t.arrivals := by
  cases action with
  | pass => rfl
  | redirect =>
    simp only [Tier.deliver]
    split
    · rfl
    · split <;> rfl

-- Each event brings one packet at most.
theorem arrivals_length_le {events : List (Event nrCpus)}
    (hrun : runFrom (step rings txBurst) t events = some t') :
    t'.arrivals.length ≤ t.arrivals.length + events.length := by
  induction events generalizing t with
  | nil =>
    cases hrun
    exact Nat.le_refl _
  | cons event events ih =>
    obtain ⟨m, hm, hrest⟩ := runFrom_cons_eq_some.mp hrun
    have hle := ih hrest
    have hstep : m.arrivals.length ≤ t.arrivals.length + 1 := by
      cases event with
      | packet a =>
        cases hm
        rw [arrivals_deliver, List.length_append]
        exact Nat.le_refl _
      | rxBurst =>
        cases hm
        exact Nat.le_succ _
    rw [List.length_cons]
    omega

theorem fourLoud_telemetry : ∃ t : Tier 2 (List (List UInt8)),
    runFrom (step (boundedRing 2) fun _ ↦ true) (.start [] freshInstance) fourLoud = some t ∧
      (printStats (perCpuValues t.maps)).pktsSpeech.toNat =
        t.pipeline.ctx.framesReceived.toNat + t.ring.length + t.dropped.length +
          t.elsewhere.length + unbound t.arrivals := by
  obtain ⟨t, hrun⟩ := run_total (step_total (boundedRing 2) fun _ ↦ true)
    (.start [] freshInstance) fourLoud
  have hcount : t.arrivals.length < 2 ^ 64 :=
    lt_of_le_of_lt (arrivals_length_le hrun) (show 0 + 5 < 2 ^ 64 by decide)
  have h := edge_tier_telemetry freshInstance rfl (fun _ ↦ true) (boundedRing 2) id
    (boundedRing_fifo 2) [] rfl fourLoud t hrun hcount
  exact ⟨t, hrun, h.1⟩

end AsrServe.VadEdge.EdgeTier
