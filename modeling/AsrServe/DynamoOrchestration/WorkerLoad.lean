import AsrServe.DynamoOrchestration.Worker
import AsrServe.Reasoning.Runs

/-!
# Load accounting of a worker

The request counter against the calls that are in progress, through every outcome of every call.
-/

open AsrServe.Reasoning

namespace AsrServe.DynamoOrchestration.Worker

def System.inProgress (s : System) : Nat := s.calls.values.countP (·.phase.inProgress)

-- By how much the counter exceeds the calls in progress.
def System.excess (s : System) : Int := s.worker.requestCount - s.inProgress

/-- The counter is at most the number of calls in progress, and an idle worker has no load. -/
structure LoadSound (s : System) : Prop where
  count_le : s.worker.requestCount ≤ s.inProgress
  idle : s.inProgress = 0 → s.worker.requestCount = 0 ∧ s.worker.load = some 0

def failsPrefill (w : DynamoWorker) (request : ASRRequest) : Bool :=
  (request.intHint "kv_ttl_ms" w.config.kvTtlMs).isNone

def failsDecode (w : DynamoWorker) (request : ASRRequest) : Bool :=
  match request.kvHandle with
  | none => false
  | some kvHandle => decide (kvHandle ∉ w.nixl.descriptors)

-- A request that fails in its own worker after it has been counted.
def failsRequest (w : DynamoWorker) (request : ASRRequest) : Bool :=
  match request.phase, w.role with
  | .prefill, .prefill => failsPrefill w request
  | .decode, .decode => failsDecode w request
  | _, _ => false

/-- The event makes a call fail that has been counted: a new one before its first suspension, or
one in progress where it is suspended. -/
def failsCounted (s : System) : Event → Bool
  | .handleRequest _ request _ _ => failsRequest s.worker request
  | .suspensionRaised _ => true
  | _ => false

/-! ## Pieces of a call -/

def CallPhase.weight (phase : CallPhase) : Int := if phase.inProgress then 1 else 0

/-- What a piece of a call does to the counter beyond what the call itself weighs afterwards. -/
def drift (w : DynamoWorker) (outcome : DynamoWorker × CallPhase) : Int :=
  outcome.1.requestCount - w.requestCount - outcome.2.weight

theorem drift_prefillDone (w : DynamoWorker) (desc : KVCacheDescriptor) :
    drift w (w.prefillDone desc) = -1 := by
  show w.requestCount - 1 - w.requestCount - 0 = -1
  omega

theorem drift_decodeDone (w : DynamoWorker) (requestId : String) (desc : KVCacheDescriptor) :
    drift w (w.decodeDone requestId desc) = -1 := by
  show w.requestCount - 1 - w.requestCount - 0 = -1
  omega

theorem drift_startTransfer (w : DynamoWorker) (requestId : String) (desc : KVCacheDescriptor) :
    drift w (w.startTransfer requestId desc) = -1 := by
  unfold DynamoWorker.startTransfer
  dsimp only
  split
  · show w.requestCount - w.requestCount - 1 = -1
    omega
  · show w.requestCount - 1 - w.requestCount - 0 = -1
    omega

-- A prefill drifts when it fails: the counter has been raised and stays so.
theorem drift_processPrefill (w : DynamoWorker) (request : ASRRequest) (objectId : Int)
    (handle : String) :
    drift w (w.processPrefill request objectId handle) =
      if failsPrefill w request then 1 else 0 := by
  unfold DynamoWorker.processPrefill failsPrefill
  dsimp only
  split
  · rename_i hnone
    rw [show request.intHint "kv_ttl_ms" w.config.kvTtlMs = none from hnone]
    show w.requestCount + 1 - w.requestCount - 0 = 1
    omega
  · rename_i kvTtl hsome
    rw [show request.intHint "kv_ttl_ms" w.config.kvTtlMs = some kvTtl from hsome]
    split
    · show w.requestCount + 1 - w.requestCount - 1 = 0
      omega
    · show w.requestCount + 1 - 1 - w.requestCount - 0 = 0
      omega

theorem drift_processDecode (w : DynamoWorker) (request : ASRRequest) (locked : Bool) :
    drift w (w.processDecode request locked) = if failsDecode w request then 1 else 0 := by
  unfold DynamoWorker.processDecode failsDecode
  cases request.kvHandle with
  | none =>
    show w.requestCount - w.requestCount - 0 = 0
    omega
  | some kvHandle =>
    dsimp only
    cases hdesc : w.nixl.descriptors.get? kvHandle with
    | none =>
      rw [if_pos (decide_eq_true (Dict.not_mem_iff.mpr hdesc)),
        show w.enter.nixl.descriptors.get? kvHandle = none from hdesc]
      show w.requestCount + 1 - w.requestCount - 0 = 1
      omega
    | some desc =>
      have hmem : kvHandle ∈ w.nixl.descriptors := Dict.mem_iff_exists.mpr ⟨desc, hdesc⟩
      rw [if_neg (by simp [hmem]),
        show w.enter.nixl.descriptors.get? kvHandle = some desc from hdesc]
      cases locked with
      | true =>
        show w.requestCount + 1 - w.requestCount - 1 = 0
        omega
      | false =>
        have hstart := drift_startTransfer w.enter request.requestId desc
        show drift w (w.enter.startTransfer request.requestId desc) = 0
        have henter : w.enter.requestCount = w.requestCount + 1 := rfl
        rw [drift, henter] at hstart
        rw [drift]
        omega

theorem drift_handleRequest (w : DynamoWorker) (request : ASRRequest) (objectId : Int)
    (handle : String) (locked : Bool) :
    drift w (w.handleRequest request objectId handle locked) =
      if failsRequest w request then 1 else 0 := by
  have hnotImplemented : drift w (w, .raised .notImplemented) = 0 := by
    show w.requestCount - w.requestCount - 0 = 0
    omega
  unfold DynamoWorker.handleRequest failsRequest
  cases request.phase <;> cases w.role
  · exact drift_processPrefill w request objectId handle
  · exact hnotImplemented
  · exact hnotImplemented
  · exact drift_processDecode w request locked

/-! ## Each event -/

variable {s s' : System}

theorem tally_inProgress (c : WorkerCall) :
    (Dict.tally (·.phase.inProgress) c : Int) = c.phase.weight := by
  rw [Dict.tally, CallPhase.weight]
  split <;> rfl

-- A call that moves on weighs what its new phase weighs, and no longer what its old one did.
theorem excess_set (s : System) (call : Nat) (requestId : String)
    (outcome : DynamoWorker × CallPhase) :
    (s.set call requestId outcome).excess =
      s.excess + drift s.worker outcome + (s.calls.get? call).elim 0 (·.phase.weight) := by
  have hcount := Dict.countP_values_set_elim (·.phase.inProgress) s.calls call
    (⟨requestId, outcome.2⟩ : WorkerCall)
  have hweight := tally_inProgress ⟨requestId, outcome.2⟩
  change _ = outcome.2.weight at hweight
  have hold : (((s.calls.get? call).elim 0 (Dict.tally (·.phase.inProgress)) : Nat) : Int) =
      (s.calls.get? call).elim 0 (·.phase.weight) := by
    cases s.calls.get? call with
    | none => rfl
    | some c => exact tally_inProgress c
  unfold System.excess System.inProgress drift System.set
  dsimp only
  omega

/-- Every event keeps the excess, but one that makes a counted call fail raises it by one. -/
theorem excess_step {event : Event} (hstep : step s event = some s') :
    s'.excess = s.excess + if failsCounted s event then 1 else 0 := by
  cases step_moves hstep with
  | begins hnew hfresh =>
    rw [excess_set, Dict.not_mem_iff.mp hnew, Option.elim_none, Int.add_zero, drift_handleRequest]
    rfl
  | registers hc =>
    -- the call drops out of the calls in progress and its decrement makes up for it
    rw [excess_set, hc, drift_prefillDone]
    show s.excess + -1 + 1 = s.excess + 0
    omega
  | acquires hc hpermit =>
    rw [excess_set, hc, drift_startTransfer]
    show s.excess + -1 + 1 = s.excess + 0
    omega
  | transfers hc =>
    rw [excess_set, hc, drift_decodeDone]
    show s.excess + -1 + 1 = s.excess + 0
    omega
  | @raises call requestId phase hc hprogress =>
    -- nothing decrements on this way out
    have hcount : (releaseOnRaise s.worker phase).requestCount = s.worker.requestCount := by
      unfold releaseOnRaise
      split <;> rfl
    have hweight : phase.weight = 1 := if_pos hprogress
    rw [excess_set, hc, drift, hcount, Option.elim_some, hweight]
    show s.excess + (s.worker.requestCount - s.worker.requestCount - 0) + 1 = s.excess + 1
    omega
  | evicts handle =>
    show s.excess = s.excess + 0
    omega

/-! ## Whole runs -/

theorem config_startTransfer (w : DynamoWorker) (requestId : String) (desc : KVCacheDescriptor) :
    (w.startTransfer requestId desc).1.config = w.config := by
  unfold DynamoWorker.startTransfer
  dsimp only
  split <;> rfl

theorem config_handleRequest (w : DynamoWorker) (request : ASRRequest) (objectId : Int)
    (handle : String) (locked : Bool) :
    (w.handleRequest request objectId handle locked).1.config = w.config := by
  unfold DynamoWorker.handleRequest
  split
  · unfold DynamoWorker.processPrefill
    dsimp only
    split
    · rfl
    · split <;> rfl
  · unfold DynamoWorker.processDecode
    dsimp only
    split
    · rfl
    · split
      · rfl
      · split
        · rfl
        · exact config_startTransfer ..
  · rfl

theorem config_step {event : Event} (hstep : step s event = some s') :
    s'.worker.config = s.worker.config := by
  cases step_moves hstep with
  | begins hnew hfresh => exact config_handleRequest ..
  | registers hc => rfl
  | acquires hc hpermit => exact config_startTransfer ..
  | transfers hc => rfl
  | @raises call requestId phase hc hprogress =>
    show (releaseOnRaise s.worker phase).config = _
    unfold releaseOnRaise
    split <;> rfl
  | evicts handle => rfl

-- Without excess an idle worker has count 0, and load 0 unless its batch size is 0; with excess 1
-- the counter is above the calls in progress.
theorem loadSound_iff (s : System) (hexcess : s.excess = 0 ∨ s.excess = 1)
    (hbatch : s.worker.config.maxBatchSize ≠ 0) : LoadSound s ↔ s.excess = 0 := by
  have hdef : s.excess = s.worker.requestCount - s.inProgress := rfl
  constructor
  · intro h
    have hle := h.count_le
    omega
  · intro hzero
    refine ⟨by omega, fun hidle ↦ ?_⟩
    have hcount : s.worker.requestCount = 0 := by omega
    refine ⟨hcount, ?_⟩
    rw [DynamoWorker.load, if_neg hbatch, hcount, Int.cast_zero, zero_div, min_eq_left zero_le_one]

-- A worker as it comes from its constructor, but for a manager in any state.
def System.idle (role : RequestPhase) (config : WorkerConfig) (nixl : NixlTransferManager) :
    System where
  worker := { role, config, nixl }

/-- On a run of one worker the load is accounted for in every state just when the batch size is
not 0 and no call fails once it has been counted. -/
theorem load_sound_iff (role : RequestPhase) (config : WorkerConfig) (nixl : NixlTransferManager)
    (events : List Event) :
    (LoadSound (.idle role config nixl) ∧
        Along step (fun _ _ s' ↦ LoadSound s') (.idle role config nixl) events) ↔
      config.maxBatchSize ≠ 0 ∧
        Along step (fun s event _ ↦ failsCounted s event = false) (.idle role config nixl)
          events := by
  have hinit : LoadSound (.idle role config nixl) ↔ config.maxBatchSize ≠ 0 := by
    constructor
    · intro h hzero
      have hload := (h.idle rfl).2
      have hnone : (System.idle role config nixl).worker.load = none := if_pos hzero
      rw [hnone] at hload
      cases hload
    · intro hbatch
      exact (loadSound_iff _ (.inl rfl) hbatch).mpr rfl
  rw [hinit]
  refine and_congr_right fun hbatch ↦ ?_
  -- Before every step the excess is still 0, so after it 0 or 1, which `loadSound_iff` tells apart.
  apply along_congr (I := fun s ↦ s.worker.config = config ∧ s.excess = 0)
  · rintro s event s' ⟨hconfig, hzero⟩ hstep
    have hexcess := excess_step hstep
    have hconfig' := (config_step hstep).trans hconfig
    rw [hzero, Int.zero_add] at hexcess
    rw [loadSound_iff s' ?_ (hconfig' ▸ hbatch), hexcess]
    · cases failsCounted s event <;> decide
    · rw [hexcess]
      cases failsCounted s event <;> decide
  · rintro s event s' ⟨hconfig, hzero⟩ hstep hsound
    have hexcess := excess_step hstep
    have hconfig' := (config_step hstep).trans hconfig
    refine ⟨hconfig', (loadSound_iff s' ?_ (hconfig' ▸ hbatch)).mp hsound⟩
    rw [hexcess, hzero]
    cases failsCounted s event <;> decide
  · exact ⟨rfl, rfl⟩

-- A decode request for a handle the worker does not have.
def unknownHandle : List Event :=
  [.handleRequest 0 { requestId := "demo-001", phase := .decode, kvHandle := some "kv-0" } 0 "kv-1"]

/-- A decode worker that was asked for an unknown handle keeps a count of 1 with no call in
progress. -/
theorem count_leaks_on_unknown_handle :
    ¬ Along step (fun _ _ s' ↦ LoadSound s') (.idle .decode {} {}) unknownHandle := by
  intro h
  have hidle := ((h _ rfl).1.idle rfl).1
  exact absurd hidle (by decide)

end AsrServe.DynamoOrchestration.Worker
