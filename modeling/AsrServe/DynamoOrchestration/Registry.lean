import AsrServe.Reasoning.Dict
import AsrServe.Reasoning.Selection
import Mathlib.Algebra.Order.Field.Rat

/-!
# Requests and workers (`dynamo-orchestration/src/router.py`)

The request that travels through the pipeline and the registry its workers are picked from.
-/

open AsrServe.Reasoning

namespace AsrServe.DynamoOrchestration

inductive RequestPhase where
  | prefill
  | decode
deriving DecidableEq, Repr

/-- A value among the agent hints, known by what `int()` makes of it; `none` is an exception. -/
structure HintValue where
  toInt? : Option Int
deriving DecidableEq, Repr

/-- The audio itself and the enqueue time are left out. -/
structure ASRRequest where
  requestId : String
  phase : RequestPhase := .prefill
  kvHandle : Option String := none
  agentHints : Dict String HintValue := Dict.empty

-- `int(request.agent_hints.get(key, default))`.
def ASRRequest.intHint (request : ASRRequest) (key : String) (default : Int) : Option Int :=
  match request.agentHints.get? key with
  | none => some default
  | some value => value.toInt?

structure WorkerEndpoint where
  workerId : String
  role : RequestPhase
  address : String
  load : ℚ := 0
  healthy : Bool := true
deriving DecidableEq

structure WorkerRegistry where
  workers : Dict String WorkerEndpoint := Dict.empty

namespace WorkerRegistry

def register (registry : WorkerRegistry) (endpoint : WorkerEndpoint) : WorkerRegistry where
  workers := registry.workers.set endpoint.workerId endpoint

def deregister (registry : WorkerRegistry) (workerId : String) : WorkerRegistry where
  workers := registry.workers.erase workerId

def candidates (registry : WorkerRegistry) (role : RequestPhase) : List WorkerEndpoint :=
  registry.workers.values.filter fun w ↦ w.role = role ∧ w.healthy

def leastLoaded (registry : WorkerRegistry) (role : RequestPhase) : Option WorkerEndpoint :=
  (registry.candidates role).argmin (·.load)

-- Changes the endpoint stored under `workerId`, if there is one.
def modify (registry : WorkerRegistry) (workerId : String)
    (change : WorkerEndpoint → WorkerEndpoint) : WorkerRegistry :=
  match registry.workers.get? workerId with
  | none => registry
  | some w => { workers := registry.workers.set workerId (change w) }

def updateLoad (registry : WorkerRegistry) (workerId : String) (load : ℚ) : WorkerRegistry :=
  registry.modify workerId fun w ↦ { w with load := load }

def markUnhealthy (registry : WorkerRegistry) (workerId : String) : WorkerRegistry :=
  registry.modify workerId fun w ↦ { w with healthy := false }

/-- `w` is registered, healthy and of the given role, and no such worker has less load. -/
structure LeastLoaded (registry : WorkerRegistry) (role : RequestPhase) (w : WorkerEndpoint) :
    Prop where
  registered : w ∈ registry.workers.values
  role_eq : w.role = role
  healthy : w.healthy = true
  minimal : ∀ w' ∈ registry.workers.values, w'.role = role → w'.healthy = true → w.load ≤ w'.load

theorem mem_candidates {registry : WorkerRegistry} {role : RequestPhase} {w : WorkerEndpoint} :
    w ∈ registry.candidates role ↔
      w ∈ registry.workers.values ∧ w.role = role ∧ w.healthy = true := by
  rw [candidates, List.mem_filter, decide_eq_true_iff]

theorem leastLoaded_spec {registry : WorkerRegistry} {role : RequestPhase} {w : WorkerEndpoint}
    (h : registry.leastLoaded role = some w) : registry.LeastLoaded role w := by
  obtain ⟨hmem, hrole, hhealthy⟩ := mem_candidates.mp (List.argmin_mem h)
  refine ⟨hmem, hrole, hhealthy, fun w' hmem' hrole' hhealthy' ↦ ?_⟩
  exact List.le_of_mem_argmin (mem_candidates.mpr ⟨hmem', hrole', hhealthy'⟩) h

end WorkerRegistry

end AsrServe.DynamoOrchestration
