import AsrServe.VadEdge.PipelineRun

/-!
# The forwarding telemetry of the polling loop

`frames_forwarded` against the mbufs the transmit queue has accepted.
-/

namespace AsrServe.VadEdge.Pipeline

variable {σ : Type}

-- The calls of `rte_eth_tx_burst` that returned 1, and those that returned 0.
def State.accepted (st : State σ) : Nat := st.ops.countP fun p ↦ p.2 == .txBurst true

def State.refused (st : State σ) : Nat := st.ops.countP fun p ↦ p.2 == .txBurst false

/-- The counters tell the operator what was accepted and what was dropped at transmit. -/
structure Truthful (st : State σ) : Prop where
  forwarded_eq : st.ctx.framesForwarded.toNat = st.accepted
  dropped_eq : (st.ctx.framesSpeech - st.ctx.framesForwarded).toNat = st.refused

/-- Every speech frame is offered to the queue once, and counted as forwarded whatever the queue
says. -/
structure CountsOffered (st : State σ) : Prop where
  offered_eq : st.accepted + st.refused = st.speechFrames
  forwarded_eq : st.ctx.framesForwarded = st.ctx.framesSpeech

theorem CountsOffered.handleFrame {st : State σ} (h : CountsOffered st) (env : Env σ)
    (frame : List UInt8) : CountsOffered (handleFrame env st frame) := by
  obtain ⟨exit, wasm, heq⟩ := handleFrame_exit env st frame
  have hoffered : (exit.ops.map (Prod.mk st.received)).countP (fun p ↦ p.2 == .txBurst true) +
      (exit.ops.map (Prod.mk st.received)).countP (fun p ↦ p.2 == .txBurst false) =
        if exit.isSpeech then 1 else 0 := by
    cases exit <;> rfl
  have hops : (Pipeline.handleFrame env st frame).ops =
      st.ops ++ exit.ops.map (Prod.mk st.received) := by rw [heq]
  have hspeech := speechFrames_append hops
  constructor
  · have hold := h.offered_eq
    rw [State.accepted, State.refused] at hold ⊢
    rw [hspeech, hops, List.countP_append, List.countP_append]
    omega
  · rw [heq, FrameExit.count, h.forwarded_eq]

theorem countsOffered_run (env : Env σ) (wasm : σ) (bursts : List Burst) :
    CountsOffered (pipelineRun env (State.start wasm) bursts) :=
  pipelineRun_invariant (fun _ frame h ↦ h.handleFrame env frame) ⟨rfl, rfl⟩ bursts

/-- After any bursts the telemetry is truthful just when the queue has refused no mbuf and fewer
than `2 ^ 64` frames were speech. -/
theorem telemetry_truthful_iff (env : Env σ) (wasm : σ) (bursts : List Burst) :
    Truthful (pipelineRun env (State.start wasm) bursts) ↔
      (∀ m, (m, .txBurst false) ∉ (pipelineRun env (State.start wasm) bursts).ops) ∧
        (pipelineRun env (State.start wasm) bursts).speechFrames < 2 ^ 64 := by
  have hcounts := countsOffered_run env wasm bursts
  have hinv := pipelineRun_inv env wasm bursts
  generalize pipelineRun env (State.start wasm) bursts = st at hcounts hinv ⊢
  have hrefused : (∀ m, (m, .txBurst false) ∉ st.ops) ↔ st.refused = 0 := by
    rw [State.refused, List.countP_eq_zero]
    constructor
    · rintro h ⟨m, op⟩ hmem hop
      obtain rfl := beq_iff_eq.mp hop
      exact h m hmem
    · exact fun h m hmem ↦ h _ hmem (beq_iff_eq.mpr rfl)
  have hforwarded : st.ctx.framesForwarded.toNat = st.speechFrames % 2 ^ 64 := by
    rw [hcounts.forwarded_eq, hinv.framesSpeech_eq]
    exact UInt64.toNat_ofNat'
  have hdropped : (st.ctx.framesSpeech - st.ctx.framesForwarded).toNat = 0 := by
    rw [hcounts.forwarded_eq, UInt64.sub_self]
    rfl
  have hoffered := hcounts.offered_eq
  rw [hrefused]
  constructor
  · rintro ⟨haccepted, hrefusals⟩
    rw [hdropped] at hrefusals
    rw [hforwarded] at haccepted
    refine ⟨hrefusals.symm, ?_⟩
    have hlt := Nat.mod_lt st.speechFrames (show 0 < 2 ^ 64 by decide)
    omega
  · rintro ⟨hnone, hlt⟩
    refine ⟨?_, hdropped.trans hnone.symm⟩
    rw [hforwarded, Nat.mod_eq_of_lt hlt]
    omega

-- A classifier that calls everything speech, and a transmit queue that is full.
def queueFull : Env Unit where
  wasmVadClassify _ _ _ := (1, ())
  txBurst _ := false

/-- A speech frame the queue refuses is freed and counted as forwarded. -/
theorem refused_counted_forwarded :
    (pipelineRun queueFull (State.start ()) [speechBurst]).ctx.framesForwarded = 1 ∧
      (pipelineRun queueFull (State.start ()) [speechBurst]).accepted = 0 ∧
      ¬ Truthful (pipelineRun queueFull (State.start ()) [speechBurst]) := by
  have hlen : speechFrame.length = 694 := List.length_replicate
  have hrun : pipelineRun queueFull (State.start ()) [speechBurst] =
      { ctx := { framesReceived := 1, framesSpeech := 1, framesForwarded := 1 }
        wasm := ()
        received := 1
        ops := [(0, .pktLen), (0, .classify 1), (0, .txBurst false), (0, .free)] } := by
    simp only [pipelineRun, handleBurst, speechBurst, List.foldl_cons, List.foldl_nil]
    rw [handleFrame, hlen, frameSamples_of_le (Nat.le_refl 694)]
    rfl
  rw [hrun]
  refine ⟨rfl, rfl, fun h ↦ ?_⟩
  exact absurd h.forwarded_eq (by decide)

end AsrServe.VadEdge.Pipeline
