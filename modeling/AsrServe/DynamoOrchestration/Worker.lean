import AsrServe.DynamoOrchestration.Nixl
import AsrServe.DynamoOrchestration.Registry

/-!
# Prefill and decode workers (`dynamo-orchestration/src/dynamo_worker.py`)

`handle_request` of the two worker classes, cut at its suspension points: the worker thread that
registers memory, the semaphore of the transfer manager and the worker thread that transfers.
-/

open AsrServe.Reasoning

namespace AsrServe.DynamoOrchestration.Worker

structure WorkerConfig where
  cudaDevice : Int := 0
  maxBatchSize : Int := 8
  kvTtlMs : Int := 500
deriving DecidableEq, Repr

/-- A `PrefillWorker` or a `DecodeWorker`, as `role` says. -/
structure DynamoWorker where
  role : RequestPhase
  config : WorkerConfig := {}
  nixl : NixlTransferManager := {}
  requestCount : Int := 0

inductive WorkerError where
  -- The subclass does not implement the phase.
  | notImplemented
  | valueError (message : String)
  | keyError (message : String)
  -- `int()` rejects the TTL hint.
  | invalidKvTtl
  -- The agent's call raised, or the request was cancelled while suspended.
  | suspensionRaised
deriving DecidableEq, Repr

inductive WorkerResult where
  | descriptor (desc : KVCacheDescriptor)
  | transcript (text : String)
deriving DecidableEq, Repr

/-- Where a `handle_request` call is. -/
inductive CallPhase where
  -- Suspended in `register_memory`.
  | registering (desc : KVCacheDescriptor)
  -- Waiting for the semaphore of `transfer`.
  | waiting (desc : KVCacheDescriptor)
  -- Suspended in the agent's `transfer`.
  | transferring (desc : KVCacheDescriptor)
  | returned (result : WorkerResult)
  | raised (error : WorkerError)
deriving DecidableEq, Repr

def CallPhase.inProgress : CallPhase → Bool
  | .registering _ | .waiting _ | .transferring _ => true
  | .returned _ | .raised _ => false

structure WorkerCall where
  requestId : String
  phase : CallPhase
deriving DecidableEq, Repr

namespace DynamoWorker

-- `self._request_count += 1`.
def enter (w : DynamoWorker) : DynamoWorker := { w with requestCount := w.requestCount + 1 }

-- `self._request_count -= 1`.
def leave (w : DynamoWorker) : DynamoWorker := { w with requestCount := w.requestCount - 1 }

-- `none` is a division by zero.
def load (w : DynamoWorker) : Option ℚ :=
  if w.config.maxBatchSize = 0 then none
  else some (min ((w.requestCount : ℚ) / w.config.maxBatchSize) 1)

/-! ## `PrefillWorker._process_prefill` -/

-- The tensor of the stub encoder; `objectId` is `id(request)`.
def prefillTensor (w : DynamoWorker) (objectId kvTtl : Int) : TensorArgs where
  device := w.config.cudaDevice
  ptr := 0x80000000 + objectId % 0x10000000
  bytesSize := 4 * 1024 * 1024
  shape := [32, 1500, 64]
  dtype := "bfloat16"
  ttlMs := kvTtl

/-- Up to the first suspension; `handle` is the fresh `uuid4`. -/
def processPrefill (w : DynamoWorker) (request : ASRRequest) (objectId : Int) (handle : String) :
    DynamoWorker × CallPhase :=
  let w := w.enter
  match request.intHint "kv_ttl_ms" w.config.kvTtlMs with
  | none => (w, .raised .invalidKvTtl)
  | some kvTtl =>
    let desc := (w.prefillTensor objectId kvTtl).descriptor handle
    let w := { w with nixl := w.nixl.registerBegin desc }
    match w.nixl.nixlAgent with
    | some _ => (w, .registering desc)
    | none => (w.leave, .returned (.descriptor desc))

-- `register_memory` has returned.
def prefillDone (w : DynamoWorker) (desc : KVCacheDescriptor) : DynamoWorker × CallPhase :=
  ({ w with nixl := w.nixl.registerMemory desc }.leave, .returned (.descriptor desc))

/-! ## `DecodeWorker._process_decode` -/

def transcript (requestId : String) : WorkerResult :=
  .transcript ("[stub transcript for " ++ requestId ++ "]")

-- The agent's `transfer` has returned.
def decodeDone (w : DynamoWorker) (requestId : String) (desc : KVCacheDescriptor) :
    DynamoWorker × CallPhase :=
  ({ w with nixl := w.nixl.transferEnd desc }.leave, .returned (transcript requestId))

-- `transfer` from the semaphore on.
def startTransfer (w : DynamoWorker) (requestId : String) (desc : KVCacheDescriptor) :
    DynamoWorker × CallPhase :=
  let w := { w with nixl := w.nixl.transferBegin }
  match w.nixl.nixlAgent with
  | some _ => (w, .transferring desc)
  | none => w.decodeDone requestId desc

/-- Up to the first suspension; `locked` says whether the semaphore has to be waited for. -/
def processDecode (w : DynamoWorker) (request : ASRRequest) (locked : Bool) :
    DynamoWorker × CallPhase :=
  match request.kvHandle with
  | none => (w, .raised (.valueError "decode request missing kv_handle"))
  | some kvHandle =>
    let w := w.enter
    match w.nixl.descriptors.get? kvHandle with
    | none => (w, .raised (.keyError ("KV handle not found: " ++ kvHandle)))
    | some desc => if locked then (w, .waiting desc) else w.startTransfer request.requestId desc

-- `handle_request`, up to the first suspension.
def handleRequest (w : DynamoWorker) (request : ASRRequest) (objectId : Int) (handle : String)
    (locked : Bool) : DynamoWorker × CallPhase :=
  match request.phase, w.role with
  | .prefill, .prefill => w.processPrefill request objectId handle
  | .decode, .decode => w.processDecode request locked
  | _, _ => (w, .raised .notImplemented)

end DynamoWorker

/-! ## Calls on one worker -/

structure System where
  worker : DynamoWorker
  -- Handles handed out so far; `uuid4` never repeats one.
  issued : List String := []
  calls : Dict Nat WorkerCall := Dict.empty

inductive Event where
  | handleRequest (call : Nat) (request : ASRRequest) (objectId : Int) (handle : String)
  | registerMemoryDone (call : Nat)
  -- A call waiting for the semaphore gets it.
  | acquire (call : Nat)
  | transferDone (call : Nat)
  -- What a call is suspended in raises.
  | suspensionRaised (call : Nat)
  | evict (handle : String)

def System.set (s : System) (call : Nat) (requestId : String)
    (outcome : DynamoWorker × CallPhase) : System :=
  { s with
    worker := outcome.1
    calls := s.calls.set call { requestId, phase := outcome.2 } }

-- `semaphore.locked()`: no permit, or others waiting for one.
def System.locked (s : System) : Bool :=
  s.worker.nixl.permits == 0 || s.calls.values.any (·.phase matches .waiting _)

/-- The agent's `transfer` raising gives the semaphore back; other suspensions hold nothing. -/
def releaseOnRaise (w : DynamoWorker) : CallPhase → DynamoWorker
  | .transferring _ => { w with nixl := w.nixl.transferRaise }
  | _ => w

def step (s : System) : Event → Option System
  | .handleRequest call request objectId handle =>
    if call ∈ s.calls ∨ handle ∈ s.issued then
      none
    else
      some ({ s with issued := handle :: s.issued }.set call request.requestId
        (s.worker.handleRequest request objectId handle s.locked))
  | .registerMemoryDone call =>
    match s.calls.get? call with
    | some ⟨requestId, .registering desc⟩ =>
      some (s.set call requestId (s.worker.prefillDone desc))
    | _ => none
  | .acquire call =>
    match s.calls.get? call with
    | some ⟨requestId, .waiting desc⟩ =>
      if 0 < s.worker.nixl.permits then
        some (s.set call requestId (s.worker.startTransfer requestId desc))
      else
        none
    | _ => none
  | .transferDone call =>
    match s.calls.get? call with
    | some ⟨requestId, .transferring desc⟩ =>
      some (s.set call requestId (s.worker.decodeDone requestId desc))
    | _ => none
  | .suspensionRaised call =>
    match s.calls.get? call with
    | some ⟨requestId, phase⟩ =>
      if phase.inProgress then
        some (s.set call requestId (releaseOnRaise s.worker phase, .raised .suspensionRaised))
      else
        none
    | none => none
  | .evict handle =>
    some { s with worker := { s.worker with nixl := s.worker.nixl.evict handle } }

/-! ## What an event does -/

/-- The steps of `step`, each with the guard it has passed. -/
inductive Moves (s : System) : Event → System → Prop where
  | begins {call : Nat} {request : ASRRequest} {objectId : Int} {handle : String}
      (hnew : call ∉ s.calls) (hfresh : handle ∉ s.issued) :
      Moves s (.handleRequest call request objectId handle)
        ({ s with issued := handle :: s.issued }.set call request.requestId
          (s.worker.handleRequest request objectId handle s.locked))
  | registers {call : Nat} {requestId : String} {desc : KVCacheDescriptor}
      (hc : s.calls.get? call = some ⟨requestId, .registering desc⟩) :
      Moves s (.registerMemoryDone call) (s.set call requestId (s.worker.prefillDone desc))
  | acquires {call : Nat} {requestId : String} {desc : KVCacheDescriptor}
      (hc : s.calls.get? call = some ⟨requestId, .waiting desc⟩)
      (hpermit : 0 < s.worker.nixl.permits) :
      Moves s (.acquire call) (s.set call requestId (s.worker.startTransfer requestId desc))
  | transfers {call : Nat} {requestId : String} {desc : KVCacheDescriptor}
      (hc : s.calls.get? call = some ⟨requestId, .transferring desc⟩) :
      Moves s (.transferDone call) (s.set call requestId (s.worker.decodeDone requestId desc))
  | raises {call : Nat} {requestId : String} {phase : CallPhase}
      (hc : s.calls.get? call = some ⟨requestId, phase⟩) (hprogress : phase.inProgress = true) :
      Moves s (.suspensionRaised call)
        (s.set call requestId (releaseOnRaise s.worker phase, .raised .suspensionRaised))
  | evicts (handle : String) :
      Moves s (.evict handle)
        { s with worker := { s.worker with nixl := s.worker.nixl.evict handle } }

theorem step_moves {s s' : System} {event : Event} (hstep : step s event = some s') :
    Moves s event s' := by
  cases event with
  | handleRequest call request objectId handle =>
    rw [step, Option.ite_none_left_eq_some, not_or, Option.some.injEq] at hstep
    obtain ⟨⟨hnew, hfresh⟩, rfl⟩ := hstep
    exact .begins hnew hfresh
  | registerMemoryDone call =>
    simp only [step] at hstep
    split at hstep
    · rename_i hc
      cases hstep
      exact .registers hc
    · cases hstep
  | acquire call =>
    simp only [step] at hstep
    split at hstep
    · rename_i hc
      rw [Option.ite_none_right_eq_some, Option.some.injEq] at hstep
      obtain ⟨hpermit, rfl⟩ := hstep
      exact .acquires hc hpermit
    · cases hstep
  | transferDone call =>
    simp only [step] at hstep
    split at hstep
    · rename_i hc
      cases hstep
      exact .transfers hc
    · cases hstep
  | suspensionRaised call =>
    simp only [step] at hstep
    split at hstep
    · rename_i hc
      rw [Option.ite_none_right_eq_some, Option.some.injEq] at hstep
      obtain ⟨hprogress, rfl⟩ := hstep
      exact .raises hc hprogress
    · cases hstep
  | evict handle =>
    cases hstep
    exact .evicts handle

end AsrServe.DynamoOrchestration.Worker
