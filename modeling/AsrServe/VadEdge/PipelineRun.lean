import AsrServe.VadEdge.Pipeline
import Mathlib.Data.UInt

/-!
# The polling loop (`pipeline_run` in `vad-edge/src/dpdk_pipeline.c`)

Bursts of received frames, each carried to one of the exits of the loop: freed as too short, freed
as not speech, accepted by `rte_eth_tx_burst`, or refused by it and freed.  An mbuf is named by
the number of mbufs received before it, and every call made on it is recorded.
-/

namespace AsrServe.VadEdge.Pipeline

def burstSize : Nat := 32

/-- What `rte_eth_rx_burst` returns: the frames of at most `BURST_SIZE` mbufs. -/
structure Burst where
  frames : List (List UInt8)
  length_le : frames.length ≤ burstSize

-- The telemetry fields of `pipeline_ctx_t`.
structure PipelineCtx where
  framesReceived : UInt64
  framesSpeech : UInt64
  framesForwarded : UInt64
deriving DecidableEq, Repr

/-- A call that reads an mbuf or gives it away. -/
inductive MbufOp where
  | pktLen
  -- `rte_pktmbuf_mtod_offset` and the call that reads the samples there.
  | classify (verdict : Int)
  | txBurst (sent : Bool)
  | free
deriving DecidableEq, Repr

-- The calls after which the mbuf is no longer the program's.
def MbufOp.disposes : MbufOp → Bool
  | .free => true
  | .txBurst sent => sent
  | _ => false

/-- What the loop calls: the classifier, with a state of its own, and the transmit queue, by the
mbuf it is offered. -/
structure Env (σ : Type) where
  wasmVadClassify : σ → List UInt8 → Samples → Int × σ
  txBurst : Nat → Bool

structure State (σ : Type) where
  ctx : PipelineCtx
  wasm : σ
  received : Nat
  ops : List (Nat × MbufOp)

variable {σ : Type}

-- `g_ctx` is static, so its counters start at zero.
def State.start (wasm : σ) : State σ :=
  { ctx := { framesReceived := 0, framesSpeech := 0, framesForwarded := 0 }
    wasm := wasm
    received := 0
    ops := [] }

def State.touch (st : State σ) (m : Nat) (op : MbufOp) : State σ :=
  { st with ops := st.ops ++ [(m, op)] }

def forwardSpeechFrame (env : Env σ) (m : Nat) (st : State σ) : State σ :=
  let sent := env.txBurst m
  let st := st.touch m (.txBurst sent)
  let st := if sent then st else st.touch m .free
  { st with ctx.framesForwarded := st.ctx.framesForwarded + 1 }

/-- The body of the `for` loop. -/
def handleFrame (env : Env σ) (st : State σ) (frame : List UInt8) : State σ :=
  let m := st.received
  let st := { st with
    received := m + 1
    ctx.framesReceived := st.ctx.framesReceived + 1 }
  let st := st.touch m .pktLen
  match frameSamples frame.length with
  | none => st.touch m .free
  | some samples =>
    let (isSpeech, wasm) := env.wasmVadClassify st.wasm frame samples
    let st := { st with wasm := wasm }
    let st := st.touch m (.classify isSpeech)
    if isSpeech = 1 then
      forwardSpeechFrame env m { st with ctx.framesSpeech := st.ctx.framesSpeech + 1 }
    else
      st.touch m .free

def handleBurst (env : Env σ) (st : State σ) (burst : Burst) : State σ :=
  burst.frames.foldl (handleFrame env) st

-- `g_running` is cleared at the end of some burst, so a run is the bursts up to there.
def pipelineRun (env : Env σ) (st : State σ) (bursts : List Burst) : State σ :=
  bursts.foldl (handleBurst env) st

/-- The calls made on one mbuf, in order. -/
def State.opsOn (st : State σ) (m : Nat) : List MbufOp :=
  (st.ops.filter fun p ↦ p.1 == m).map Prod.snd

-- Frames `wasm_vad_classify` returned 1 for.
def State.speechFrames (st : State σ) : Nat :=
  st.ops.countP fun p ↦ p.2 == .classify 1

/-- Freed once or accepted once and not both, and nothing is called on it afterwards. -/
def DisposedOnce (ops : List MbufOp) : Prop :=
  ops.count .free + ops.count (.txBurst true) = 1 ∧
    ∃ before last, ops = before ++ [last] ∧ last.disposes = true

/-! ## The exits of the loop body -/

inductive FrameExit where
  | tooShort
  | notSpeech (verdict : Int) (h : verdict ≠ 1)
  | sent
  | refused

def FrameExit.ops : FrameExit → List MbufOp
  | .tooShort => [.pktLen, .free]
  | .notSpeech verdict _ => [.pktLen, .classify verdict, .free]
  | .sent => [.pktLen, .classify 1, .txBurst true]
  | .refused => [.pktLen, .classify 1, .txBurst false, .free]

def FrameExit.isSpeech : FrameExit → Bool
  | .sent | .refused => true
  | _ => false

def FrameExit.count (exit : FrameExit) (ctx : PipelineCtx) : PipelineCtx where
  framesReceived := ctx.framesReceived + 1
  framesSpeech := if exit.isSpeech then ctx.framesSpeech + 1 else ctx.framesSpeech
  framesForwarded := if exit.isSpeech then ctx.framesForwarded + 1 else ctx.framesForwarded

/-- One frame takes one exit: its calls are added to the record, its counters counted. -/
theorem handleFrame_exit (env : Env σ) (st : State σ) (frame : List UInt8) :
    ∃ (exit : FrameExit) (wasm : σ), handleFrame env st frame =
      { ctx := exit.count st.ctx
        wasm := wasm
        received := st.received + 1
        ops := st.ops ++ exit.ops.map (Prod.mk st.received) } := by
  rw [handleFrame]
  cases hs : frameSamples frame.length with
  | none => exact ⟨.tooShort, st.wasm, by simp [State.touch, FrameExit.ops, FrameExit.count,
      FrameExit.isSpeech]⟩
  | some samples =>
    by_cases hv : (env.wasmVadClassify st.wasm frame samples).1 = 1
    · cases ht : env.txBurst st.received with
      | true => exact ⟨.sent, (env.wasmVadClassify st.wasm frame samples).2, by
          simp [hv, ht, forwardSpeechFrame, State.touch, FrameExit.ops, FrameExit.count,
            FrameExit.isSpeech]⟩
      | false => exact ⟨.refused, (env.wasmVadClassify st.wasm frame samples).2, by
          simp [hv, ht, forwardSpeechFrame, State.touch, FrameExit.ops, FrameExit.count,
            FrameExit.isSpeech]⟩
    · exact ⟨.notSpeech _ hv, (env.wasmVadClassify st.wasm frame samples).2, by
        simp [hv, State.touch, FrameExit.ops, FrameExit.count, FrameExit.isSpeech]⟩

-- Only a frame that passes the gate reaches the classifier.
theorem handleFrame_wasm (env : Env σ) (st : State σ) (frame : List UInt8) :
    (handleFrame env st frame).wasm =
      match frameSamples frame.length with
      | none => st.wasm
      | some samples => (env.wasmVadClassify st.wasm frame samples).2 := by
  rw [handleFrame]
  cases frameSamples frame.length with
  | none => rfl
  | some samples =>
    dsimp only
    split
    · rw [forwardSpeechFrame]
      cases env.txBurst st.received
      · rfl
      · rfl
    · rfl

-- What a call on an mbuf says of its frame.
def MbufOp.verdict? : MbufOp → Option Int
  | .classify verdict => some verdict
  | _ => none

/-- The verdicts of the classifier so far, in order. -/
def State.verdicts (st : State σ) : List Int := st.ops.filterMap fun p ↦ p.2.verdict?

theorem handleFrame_verdicts (env : Env σ) (st : State σ) (frame : List UInt8) :
    (handleFrame env st frame).verdicts = st.verdicts ++
      match frameSamples frame.length with
      | none => []
      | some samples => [(env.wasmVadClassify st.wasm frame samples).1] := by
  rw [handleFrame]
  cases frameSamples frame.length with
  | none => simp [State.verdicts, State.touch, MbufOp.verdict?]
  | some samples =>
    dsimp only
    split
    · rw [forwardSpeechFrame]
      cases env.txBurst st.received <;> simp [State.verdicts, State.touch, MbufOp.verdict?]
    · simp [State.verdicts, State.touch, MbufOp.verdict?]

theorem FrameExit.disposedOnce (exit : FrameExit) : DisposedOnce exit.ops := by
  cases exit with
  | tooShort => exact ⟨rfl, [.pktLen], .free, rfl, rfl⟩
  | notSpeech verdict h => exact ⟨rfl, [.pktLen, .classify verdict], .free, rfl, rfl⟩
  | sent => exact ⟨rfl, [.pktLen, .classify 1], .txBurst true, rfl, rfl⟩
  | refused => exact ⟨rfl, [.pktLen, .classify 1, .txBurst false], .free, rfl, rfl⟩

theorem FrameExit.countP_classify (exit : FrameExit) (m : Nat) :
    (exit.ops.map (Prod.mk m)).countP (fun p ↦ p.2 == .classify 1) =
      if exit.isSpeech then 1 else 0 := by
  cases exit with
  | notSpeech verdict h => simp [FrameExit.ops, FrameExit.isSpeech, h]
  | tooShort => rfl
  | sent => rfl
  | refused => rfl

/-! ## Runs -/

/-- What every frame keeps holds after any bursts. -/
theorem pipelineRun_invariant {env : Env σ} {I : State σ → Prop}
    (hstep : ∀ st frame, I st → I (handleFrame env st frame)) {st : State σ} (h0 : I st)
    (bursts : List Burst) : I (pipelineRun env st bursts) := by
  apply List.foldlRecOn bursts _ h0
  intro st hst burst _
  apply List.foldlRecOn burst.frames _ hst
  intro st hst frame _
  exact hstep st frame hst

/-- Two loops side by side that differ in the state of their classifiers alone. -/
structure Related {τ : Type} (R : σ → τ → Prop) (st : State σ) (st' : State τ) : Prop where
  ctx_eq : st.ctx = st'.ctx
  received_eq : st.received = st'.received
  ops_eq : st.ops = st'.ops
  wasm : R st.wasm st'.wasm

/-- The classifiers keep `R` and return the same verdicts. -/
def Agree {τ : Type} (R : σ → τ → Prop) (env : Env σ) (env' : Env τ) : Prop :=
  ∀ s t, R s t → ∀ frame samples,
    (env.wasmVadClassify s frame samples).1 = (env'.wasmVadClassify t frame samples).1 ∧
      R (env.wasmVadClassify s frame samples).2 (env'.wasmVadClassify t frame samples).2

theorem Related.handleFrame {τ : Type} {R : σ → τ → Prop} {env : Env σ} {env' : Env τ}
    (htx : env.txBurst = env'.txBurst) (hagree : Agree R env env') {st : State σ} {st' : State τ}
    (h : Related R st st') (frame : List UInt8) :
    Related R (handleFrame env st frame) (handleFrame env' st' frame) := by
  obtain ⟨ctx, wasm, received, ops⟩ := st
  obtain ⟨ctx', wasm', received', ops'⟩ := st'
  obtain ⟨rfl, rfl, rfl, hwasm⟩ := h
  rw [Pipeline.handleFrame, Pipeline.handleFrame]
  cases frameSamples frame.length with
  | none => exact ⟨rfl, rfl, rfl, hwasm⟩
  | some samples =>
    obtain ⟨hverdict, hnext⟩ := hagree wasm wasm' hwasm frame samples
    dsimp only [State.touch]
    rw [hverdict]
    split
    · rw [forwardSpeechFrame, forwardSpeechFrame, htx]
      dsimp only [State.touch]
      cases env'.txBurst received <;> exact ⟨rfl, rfl, rfl, hnext⟩
    · exact ⟨rfl, rfl, rfl, hnext⟩

/-- Loops whose classifiers agree make the same calls, whatever frames arrive. -/
theorem Related.pipelineRun {τ : Type} {R : σ → τ → Prop} {env : Env σ} {env' : Env τ}
    (htx : env.txBurst = env'.txBurst) (hagree : Agree R env env') {st : State σ} {st' : State τ}
    (h : Related R st st') (bursts : List Burst) :
    Related R (pipelineRun env st bursts) (pipelineRun env' st' bursts) := by
  apply List.foldl_rel h
  intro burst _ st st' hst
  apply List.foldl_rel hst
  intro frame _ st st' hst
  exact hst.handleFrame htx hagree frame

-- The record holds calls on received mbufs only, all of them disposed of; the counters are the
-- counts, modulo the width of the field.
structure Inv (st : State σ) : Prop where
  numbered : ∀ p ∈ st.ops, p.1 < st.received
  disposed : ∀ m < st.received, DisposedOnce (st.opsOn m)
  framesReceived_eq : st.ctx.framesReceived = UInt64.ofNat st.received
  framesSpeech_eq : st.ctx.framesSpeech = UInt64.ofNat st.speechFrames
  speech_le : st.speechFrames ≤ st.received

theorem Inv.start (wasm : σ) : Inv (State.start wasm) where
  numbered := by simp [State.start]
  disposed := by simp [State.start]
  framesReceived_eq := rfl
  framesSpeech_eq := rfl
  speech_le := Nat.le_refl 0

/-- New calls on the mbuf just received go on its own record and on no other. -/
theorem Inv.opsOn_append {st st' : State σ} (h : Inv st) {ops : List MbufOp}
    (hops : st'.ops = st.ops ++ ops.map (Prod.mk st.received)) (m : Nat) :
    st'.opsOn m = if m = st.received then ops else st.opsOn m := by
  rw [State.opsOn, hops, List.filter_append, List.map_append]
  by_cases hm : m = st.received
  · -- nothing has been called on this mbuf before
    have hnone : st.ops.filter (fun p ↦ p.1 == m) = [] := by
      apply List.filter_eq_nil_iff.mpr
      intro p hp
      have hlt := h.numbered p hp
      simp only [beq_iff_eq]
      omega
    have hall : (ops.map (Prod.mk st.received)).filter (fun p ↦ p.1 == m) =
        ops.map (Prod.mk st.received) := by
      apply List.filter_eq_self.mpr
      intro p hp
      obtain ⟨op, -, rfl⟩ := List.mem_map.mp hp
      exact beq_iff_eq.mpr hm.symm
    rw [if_pos hm, hnone, hall, List.map_nil, List.nil_append, List.map_map]
    exact List.map_id ops
  · have hnone : (ops.map (Prod.mk st.received)).filter (fun p ↦ p.1 == m) = [] := by
      apply List.filter_eq_nil_iff.mpr
      intro p hp
      obtain ⟨op, -, rfl⟩ := List.mem_map.mp hp
      simp only [beq_iff_eq]
      omega
    rw [if_neg hm, hnone, List.map_nil, List.append_nil]
    rfl

-- The count of speech verdicts goes up with the exits that are speech.
theorem speechFrames_append {st st' : State σ} {exit : FrameExit}
    (hops : st'.ops = st.ops ++ exit.ops.map (Prod.mk st.received)) :
    st'.speechFrames = st.speechFrames + if exit.isSpeech then 1 else 0 := by
  rw [State.speechFrames, hops, List.countP_append, exit.countP_classify, State.speechFrames]

theorem Inv.handleFrame {st : State σ} (h : Inv st) (env : Env σ) (frame : List UInt8) :
    Inv (handleFrame env st frame) := by
  obtain ⟨exit, wasm, heq⟩ := handleFrame_exit env st frame
  have hops : (Pipeline.handleFrame env st frame).ops =
      st.ops ++ exit.ops.map (Prod.mk st.received) := by rw [heq]
  have hreceived : (Pipeline.handleFrame env st frame).received = st.received + 1 := by rw [heq]
  have hctx : (Pipeline.handleFrame env st frame).ctx = exit.count st.ctx := by rw [heq]
  constructor
  case numbered =>
    intro p hp
    rw [hops] at hp
    rw [hreceived]
    rcases List.mem_append.mp hp with hp | hp
    · exact Nat.lt_succ_of_lt (h.numbered p hp)
    · obtain ⟨op, -, rfl⟩ := List.mem_map.mp hp
      exact Nat.lt_succ_self _
  case disposed =>
    intro m hm
    rw [hreceived] at hm
    rw [h.opsOn_append hops]
    by_cases hnew : m = st.received
    · rw [if_pos hnew]
      exact exit.disposedOnce
    · rw [if_neg hnew]
      exact h.disposed m (by omega)
  case framesReceived_eq =>
    rw [hctx, hreceived, UInt64.ofNat_add, ← h.framesReceived_eq]
    rfl
  case framesSpeech_eq =>
    rw [hctx, speechFrames_append hops, UInt64.ofNat_add, ← h.framesSpeech_eq, FrameExit.count]
    cases exit.isSpeech
    · exact (UInt64.add_zero _).symm
    · rfl
  case speech_le =>
    have hle := h.speech_le
    rw [hreceived, speechFrames_append hops]
    cases exit.isSpeech
    · exact Nat.le_succ_of_le hle
    · exact Nat.succ_le_succ hle

theorem pipelineRun_inv (env : Env σ) (wasm : σ) (bursts : List Burst) :
    Inv (pipelineRun env (State.start wasm) bursts) :=
  pipelineRun_invariant (fun _ frame h ↦ h.handleFrame env frame) (Inv.start wasm) bursts

theorem handleFrames_received (env : Env σ) (st : State σ) (frames : List (List UInt8)) :
    (frames.foldl (handleFrame env) st).received = st.received + frames.length := by
  induction frames generalizing st with
  | nil => rfl
  | cons frame frames ih =>
    obtain ⟨exit, wasm, heq⟩ := handleFrame_exit env st frame
    rw [List.foldl_cons, ih, heq, List.length_cons]
    exact Nat.succ_add_eq_add_succ _ _

theorem pipelineRun_received (env : Env σ) (st : State σ) (bursts : List Burst) :
    (pipelineRun env st bursts).received =
      st.received + (bursts.map fun burst ↦ burst.frames.length).sum := by
  induction bursts generalizing st with
  | nil => rfl
  | cons burst bursts ih =>
    show (pipelineRun env (handleBurst env st burst) bursts).received = _
    rw [ih, handleBurst, handleFrames_received, List.map_cons, List.sum_cons, Nat.add_assoc]

/-- After every burst, every mbuf received so far has been disposed of exactly once and is not
touched again, and the two counters are what they are named for until the first of them wraps. -/
theorem mbufs_disposed_once (env : Env σ) (wasm : σ) (bursts : List Burst) :
    (pipelineRun env (State.start wasm) bursts).received =
        (bursts.map fun burst ↦ burst.frames.length).sum ∧
      (∀ m < (pipelineRun env (State.start wasm) bursts).received,
        DisposedOnce ((pipelineRun env (State.start wasm) bursts).opsOn m)) ∧
      (∀ p ∈ (pipelineRun env (State.start wasm) bursts).ops,
        p.1 < (pipelineRun env (State.start wasm) bursts).received) ∧
      ((pipelineRun env (State.start wasm) bursts).received < 2 ^ 64 →
        (pipelineRun env (State.start wasm) bursts).ctx.framesSpeech ≤
            (pipelineRun env (State.start wasm) bursts).ctx.framesReceived ∧
          (pipelineRun env (State.start wasm) bursts).ctx.framesSpeech.toNat =
            (pipelineRun env (State.start wasm) bursts).speechFrames) := by
  have hinv := pipelineRun_inv env wasm bursts
  have hreceived : (pipelineRun env (State.start wasm) bursts).received =
      (bursts.map fun burst ↦ burst.frames.length).sum := by
    rw [pipelineRun_received]
    exact Nat.zero_add _
  refine ⟨hreceived, hinv.disposed, hinv.numbered, fun hlt ↦ ?_⟩
  have hle := hinv.speech_le
  have hr : (pipelineRun env (State.start wasm) bursts).ctx.framesReceived.toNat =
      (pipelineRun env (State.start wasm) bursts).received := by
    rw [hinv.framesReceived_eq]
    exact UInt64.toNat_ofNat_of_lt' hlt
  have hs : (pipelineRun env (State.start wasm) bursts).ctx.framesSpeech.toNat =
      (pipelineRun env (State.start wasm) bursts).speechFrames := by
    rw [hinv.framesSpeech_eq]
    exact UInt64.toNat_ofNat_of_lt' (by change _ < 2 ^ 64; omega)
  refine ⟨?_, hs⟩
  rw [UInt64.le_iff_toNat_le, hr, hs]
  exact hle

/-! ## Runs that are all speech -/

-- A classifier that calls everything speech, and a transmit queue that never fills.
def allSpeech : Env Unit where
  wasmVadClassify _ _ _ := (1, ())
  txBurst _ := true

def shortBurst : Burst := ⟨[[]], by decide⟩

def speechFrame : List UInt8 := List.replicate 694 0

def speechBurst : Burst := ⟨[speechFrame], Nat.le_of_ble_eq_true rfl⟩

theorem speechBurst_speechFrames (st : State Unit) :
    (handleBurst allSpeech st speechBurst).speechFrames = st.speechFrames + 1 := by
  have hlen : speechFrame.length = 694 := List.length_replicate
  simp only [handleBurst, speechBurst, List.foldl_cons, List.foldl_nil]
  rw [handleFrame, hlen, frameSamples_of_le (Nat.le_refl 694)]
  simp [allSpeech, forwardSpeechFrame, State.touch, State.speechFrames]

theorem speechBursts_speechFrames (st : State Unit) (n : Nat) :
    (pipelineRun allSpeech st (List.replicate n speechBurst)).speechFrames =
      st.speechFrames + n := by
  induction n generalizing st with
  | zero => rfl
  | succ n ih =>
    rw [List.replicate_succ, pipelineRun, List.foldl_cons, ← pipelineRun, ih,
      speechBurst_speechFrames, Nat.add_assoc, Nat.add_comm 1]

-- One short frame and `n` speech frames.
def shortThenSpeech (n : Nat) : State Unit :=
  pipelineRun allSpeech (State.start ()) (shortBurst :: List.replicate n speechBurst)

theorem shortThenSpeech_received (n : Nat) : (shortThenSpeech n).received = n + 1 := by
  have hshort : shortBurst.frames.length = 1 := rfl
  have hspeech : speechBurst.frames.length = 1 := rfl
  have hstart : (State.start ()).received = 0 := rfl
  rw [shortThenSpeech, pipelineRun_received, List.map_cons, List.map_replicate, List.sum_cons,
    List.sum_replicate_nat, hshort, hspeech, hstart, Nat.mul_one, Nat.zero_add, Nat.add_comm]

theorem shortThenSpeech_speechFrames (n : Nat) : (shortThenSpeech n).speechFrames = n := by
  have hshort : (handleBurst allSpeech (State.start ()) shortBurst).speechFrames = 0 := rfl
  rw [shortThenSpeech, pipelineRun, List.foldl_cons, ← pipelineRun, speechBursts_speechFrames,
    hshort, Nat.zero_add]

theorem shortThenSpeech_disposed :
    DisposedOnce ((shortThenSpeech 1).opsOn 1) ∧
      (shortThenSpeech 1).ctx.framesSpeech.toNat = (shortThenSpeech 1).speechFrames := by
  have hreceived := shortThenSpeech_received 1
  rw [shortThenSpeech] at hreceived ⊢
  have hrun := mbufs_disposed_once allSpeech () (shortBurst :: List.replicate 1 speechBurst)
  exact ⟨hrun.2.1 1 (by rw [hreceived]; decide), (hrun.2.2.2 (by rw [hreceived]; decide)).2⟩

/-- After one short frame and `2 ^ 64 - 1` speech frames `frames_received` is back at zero and
`frames_speech` is not. -/
theorem wrapped_speech_above_received :
    (shortThenSpeech (2 ^ 64 - 1)).ctx.framesReceived = 0 ∧
      ¬ (shortThenSpeech (2 ^ 64 - 1)).ctx.framesSpeech ≤
        (shortThenSpeech (2 ^ 64 - 1)).ctx.framesReceived := by
  have hinv : Inv (shortThenSpeech (2 ^ 64 - 1)) := pipelineRun_inv allSpeech () _
  have hr : (shortThenSpeech (2 ^ 64 - 1)).ctx.framesReceived = 0 := by
    rw [hinv.framesReceived_eq, shortThenSpeech_received]
    decide
  have hs : (shortThenSpeech (2 ^ 64 - 1)).ctx.framesSpeech = UInt64.ofNat (2 ^ 64 - 1) := by
    rw [hinv.framesSpeech_eq, shortThenSpeech_speechFrames]
  refine ⟨hr, ?_⟩
  rw [hr, hs]
  decide

end AsrServe.VadEdge.Pipeline
