import AsrServe.DynamoOrchestration.Registry
import AsrServe.Reasoning.DictLog

/-!
# The registry as its operation history

What `least_loaded` answers, told from the operations alone: which register of an id still counts,
what has been reported about the worker since, and for how long the id has been there.
-/

open AsrServe.Reasoning

namespace AsrServe.DynamoOrchestration

inductive RegistryOp where
  | register (endpoint : WorkerEndpoint)
  | deregister (workerId : String)
  | updateLoad (workerId : String) (load : ℚ)
  | markUnhealthy (workerId : String)
deriving DecidableEq

namespace WorkerRegistry

def apply (registry : WorkerRegistry) : RegistryOp → WorkerRegistry
  | .register endpoint => registry.register endpoint
  | .deregister workerId => registry.deregister workerId
  | .updateLoad workerId load => registry.updateLoad workerId load
  | .markUnhealthy workerId => registry.markUnhealthy workerId

-- An empty registry after the operations of a list.
def after (ops : List RegistryOp) : WorkerRegistry := ops.foldl apply {}

end WorkerRegistry

/-! ## What the log says -/

/-- The latest register of an id, undone by no later deregister, with what happened after it. -/
structure Enrolled (ops : List RegistryOp) (endpoint : WorkerEndpoint)
    (later : List RegistryOp) : Prop where
  register : ∃ before, ops = before ++ .register endpoint :: later
  latest : ∀ e, .register e ∈ later → e.workerId ≠ endpoint.workerId
  not_undone : .deregister endpoint.workerId ∉ later

/-- Besides, the worker has the role, was registered healthy and has not been marked since. -/
structure Eligible (ops : List RegistryOp) (role : RequestPhase) (endpoint : WorkerEndpoint)
    (later : List RegistryOp) : Prop extends Enrolled ops endpoint later where
  role_eq : endpoint.role = role
  healthy : endpoint.healthy = true
  not_marked : .markUnhealthy endpoint.workerId ∉ later

-- The load an operation reports for a worker.
def RegistryOp.loadOf (workerId : String) : RegistryOp → Option ℚ
  | .updateLoad id load => if id = workerId then some load else none
  | _ => none

/-- The load reported last after the register, or else the registered one. -/
def currentLoad (endpoint : WorkerEndpoint) (later : List RegistryOp) : ℚ :=
  latest (RegistryOp.loadOf endpoint.workerId) later endpoint.load

def IsPresent (workerId : String) (ops : List RegistryOp) : Prop :=
  ∃ endpoint later, Enrolled ops endpoint later ∧ endpoint.workerId = workerId

/-- The id is absent after the first `n` operations and present after every longer part. -/
def PresentSince (ops : List RegistryOp) (workerId : String) (n : Nat) : Prop :=
  Since (IsPresent workerId) ops n

/-! ## The registry is the log's dictionary -/

def RegistryOp.write : RegistryOp → Write String WorkerEndpoint
  | .register endpoint => .put endpoint.workerId endpoint
  | .deregister workerId => .drop workerId
  | .updateLoad workerId load => .change workerId fun w ↦ { w with load := load }
  | .markUnhealthy workerId => .change workerId fun w ↦ { w with healthy := false }

theorem WorkerRegistry.modify_workers (registry : WorkerRegistry) (workerId : String)
    (change : WorkerEndpoint → WorkerEndpoint) :
    (registry.modify workerId change).workers = registry.workers.change workerId change := by
  rw [modify, Dict.change]
  cases registry.workers.get? workerId <;> rfl

theorem WorkerRegistry.apply_workers (registry : WorkerRegistry) (op : RegistryOp) :
    (registry.apply op).workers = registry.workers.write op.write := by
  cases op with
  | register endpoint => rfl
  | deregister workerId => rfl
  | updateLoad workerId load => exact modify_workers ..
  | markUnhealthy workerId => exact modify_workers ..

theorem WorkerRegistry.after_workers (ops : List RegistryOp) :
    (after ops).workers = replay (ops.map RegistryOp.write) := by
  rw [replay, List.foldl_map]
  exact (List.foldl_hom WorkerRegistry.workers fun _ _ ↦ (apply_workers ..).symm).symm

/-- What the registry holds about a worker: the endpoint as registered with its current load, and
unhealthy once it has been marked. -/
def current (endpoint : WorkerEndpoint) (later : List RegistryOp) : WorkerEndpoint :=
  { endpoint with
    load := currentLoad endpoint later
    healthy := decide (endpoint.healthy = true ∧ .markUnhealthy endpoint.workerId ∉ later) }

theorem current_nil (endpoint : WorkerEndpoint) : current endpoint [] = endpoint := by
  simp [current, currentLoad]

theorem current_concat (endpoint : WorkerEndpoint) (later : List RegistryOp) (op : RegistryOp) :
    current endpoint (later ++ [op]) =
      op.write.changes endpoint.workerId (current endpoint later) := by
  rw [current, currentLoad, latest_concat]
  cases op with
  | register e => simp [current, currentLoad, RegistryOp.loadOf, RegistryOp.write, Write.changes]
  | deregister id => simp [current, currentLoad, RegistryOp.loadOf, RegistryOp.write, Write.changes]
  | updateLoad id load =>
    by_cases hid : id = endpoint.workerId <;>
      simp [current, currentLoad, RegistryOp.loadOf, RegistryOp.write, Write.changes, hid]
  | markUnhealthy id =>
    by_cases hid : endpoint.workerId = id
    · simp [current, currentLoad, RegistryOp.loadOf, RegistryOp.write, Write.changes, hid]
    · simp [current, currentLoad, RegistryOp.loadOf, RegistryOp.write, Write.changes, hid,
        Ne.symm hid]

theorem changed_write (endpoint : WorkerEndpoint) (later : List RegistryOp) :
    changed endpoint.workerId endpoint (later.map RegistryOp.write) = current endpoint later := by
  induction later using List.reverseRecOn with
  | nil => exact (current_nil endpoint).symm
  | append_singleton later op ih =>
    rw [List.map_append, List.map_singleton, changed_concat, ih, current_concat]

theorem RegistryOp.write_eq_put {op : RegistryOp} {id : String} {e : WorkerEndpoint} :
    op.write = .put id e ↔ op = .register e ∧ id = e.workerId := by
  constructor
  · intro h
    cases op with
    | register endpoint =>
      rw [write, Write.put.injEq] at h
      obtain ⟨rfl, rfl⟩ := h
      exact ⟨rfl, rfl⟩
    | _ => cases h
  · rintro ⟨rfl, rfl⟩
    rfl

-- Only a register or a deregister of the id undoes what the log has registered under it.
theorem stays_iff {endpoint : WorkerEndpoint} {later : List RegistryOp} :
    (∀ w ∈ later.map RegistryOp.write, ¬ w.Resets endpoint.workerId) ↔
      (∀ e, .register e ∈ later → e.workerId ≠ endpoint.workerId) ∧
        .deregister endpoint.workerId ∉ later := by
  rw [List.forall_mem_map]
  constructor
  · intro h
    exact ⟨fun e he ↦ h _ he, fun hde ↦ h _ hde rfl⟩
  · rintro ⟨hlatest, hundone⟩ op hop
    cases op with
    | register e => exact hlatest e hop
    | deregister id => exact fun hid ↦ hundone (hid ▸ hop)
    | updateLoad _ _ => exact not_false
    | markUnhealthy _ => exact not_false

theorem stands_write {ops : List RegistryOp} {id : String} {e : WorkerEndpoint}
    {ws : List (Write String WorkerEndpoint)} :
    Stands (ops.map RegistryOp.write) id e ws ↔
      ∃ later, Enrolled ops e later ∧ id = e.workerId ∧ ws = later.map RegistryOp.write := by
  constructor
  · rintro ⟨⟨front, hput⟩, hstays⟩
    obtain ⟨before, rest, rfl, -, hrest⟩ := List.map_eq_append_iff.mp hput
    obtain ⟨op, later, rfl, hop, rfl⟩ := List.map_eq_cons_iff.mp hrest
    obtain ⟨rfl, rfl⟩ := RegistryOp.write_eq_put.mp hop
    obtain ⟨hlatest, hundone⟩ := stays_iff.mp hstays
    exact ⟨later, ⟨⟨before, rfl⟩, hlatest, hundone⟩, rfl, rfl⟩
  · rintro ⟨later, ⟨⟨before, rfl⟩, hlatest, hundone⟩, rfl, rfl⟩
    refine ⟨⟨before.map RegistryOp.write, ?_⟩, stays_iff.mpr ⟨hlatest, hundone⟩⟩
    rw [List.map_append, List.map_cons, RegistryOp.write]

theorem present_write (ops : List RegistryOp) (id : String) :
    Present id (ops.map RegistryOp.write) ↔ IsPresent id ops := by
  constructor
  · rintro ⟨e, ws, hstands⟩
    obtain ⟨later, henrolled, rfl, -⟩ := stands_write.mp hstands
    exact ⟨e, later, henrolled, rfl⟩
  · rintro ⟨e, later, henrolled, rfl⟩
    exact ⟨e, _, stands_write.mpr ⟨later, henrolled, rfl, rfl⟩⟩

theorem presentSince_iff {ops : List RegistryOp} {id : String} {n : Nat} :
    PresentSince ops id n ↔ Since (Present id) (ops.map RegistryOp.write) n := by
  rw [since_map, PresentSince]
  simp only [present_write]

theorem not_isPresent_nil (id : String) : ¬ IsPresent id [] := by
  rw [← present_write]
  exact not_present_nil

/-! ## The answer of `least_loaded` -/

theorem mem_values_after {ops : List RegistryOp} {w : WorkerEndpoint} :
    w ∈ (WorkerRegistry.after ops).workers.values ↔
      ∃ e later, Enrolled ops e later ∧ w = current e later := by
  rw [Dict.mem_values_iff, WorkerRegistry.after_workers]
  simp only [get?_replay, stands_write]
  constructor
  · rintro ⟨id, e, ws, ⟨later, henrolled, rfl, rfl⟩, rfl⟩
    exact ⟨e, later, henrolled, changed_write e later⟩
  · rintro ⟨e, later, henrolled, rfl⟩
    exact ⟨e.workerId, e, _, ⟨later, henrolled, rfl, rfl⟩, (changed_write e later).symm⟩

theorem keyed_after (ops : List RegistryOp) :
    (WorkerRegistry.after ops).workers.Keyed WorkerEndpoint.workerId := by
  intro id w hw
  rw [WorkerRegistry.after_workers, get?_replay] at hw
  obtain ⟨e, ws, hstands, rfl⟩ := hw
  obtain ⟨later, -, rfl, rfl⟩ := stands_write.mp hstands
  rw [changed_write]
  rfl

/-- The candidates are the eligible workers of the log, each with its current load. -/
theorem mem_candidates_after {ops : List RegistryOp} {role : RequestPhase} {w : WorkerEndpoint} :
    w ∈ (WorkerRegistry.after ops).candidates role ↔
      ∃ e later, Eligible ops role e later ∧ w = { e with load := currentLoad e later } := by
  rw [WorkerRegistry.mem_candidates, mem_values_after]
  constructor
  · rintro ⟨⟨e, later, henrolled, rfl⟩, hrole, hhealthy⟩
    obtain ⟨hreg, hmarked⟩ := of_decide_eq_true hhealthy
    refine ⟨e, later, ⟨henrolled, hrole, hreg, hmarked⟩, ?_⟩
    rw [current, decide_eq_true ⟨hreg, hmarked⟩, ← hreg]
  · rintro ⟨e, later, heligible, rfl⟩
    have hcurrent : { e with load := currentLoad e later } = current e later := by
      rw [current, decide_eq_true ⟨heligible.healthy, heligible.not_marked⟩, ← heligible.healthy]
    exact ⟨⟨e, later, heligible.toEnrolled, hcurrent⟩, heligible.role_eq, heligible.healthy⟩

-- The candidates stand in the order in which they came to stay.
theorem pairwise_candidates_after (ops : List RegistryOp) (role : RequestPhase) :
    ((WorkerRegistry.after ops).candidates role).Pairwise fun v w ↦
      Older (ops.map RegistryOp.write) v.workerId w.workerId := by
  apply List.Pairwise.filter
  rw [← List.pairwise_map (f := WorkerEndpoint.workerId), (keyed_after ops).map_values,
    WorkerRegistry.after_workers]
  exact pairwise_keys_replay

/-- An operation on an id that is not present, other than its register, changes nothing. -/
theorem apply_unknown {ops : List RegistryOp} {id : String} (op : RegistryOp)
    (hid : ¬ IsPresent id ops) (hop : op.write = .drop id ∨ ∃ f, op.write = .change id f) :
    (WorkerRegistry.after ops).apply op = WorkerRegistry.after ops := by
  have hnone : (WorkerRegistry.after ops).workers.get? id = none := by
    rw [← Dict.not_mem_iff, WorkerRegistry.after_workers, mem_replay, present_write]
    exact hid
  have hsame : ((WorkerRegistry.after ops).apply op).workers =
      (WorkerRegistry.after ops).workers := by
    rw [WorkerRegistry.apply_workers]
    rcases hop with hdrop | ⟨f, hchange⟩
    · rw [hdrop, Dict.write, Dict.erase_of_not_mem (Dict.not_mem_iff.mpr hnone)]
    · rw [hchange, Dict.write, Dict.change, hnone]
  exact congrArg WorkerRegistry.mk hsame

/-- After any operations on an empty registry, `least_loaded` answers with an eligible worker of
least current load, the one present longest among several, and `None` if no worker is eligible;
every eligible worker is present since exactly one operation; and operations on unknown ids
change nothing. -/
theorem registry_refines_log (ops : List RegistryOp) (role : RequestPhase) :
    ((WorkerRegistry.after ops).leastLoaded role = none ↔
        ∀ e later, ¬ Eligible ops role e later) ∧
      (∀ w, (WorkerRegistry.after ops).leastLoaded role = some w → ∃ e later n,
        Eligible ops role e later ∧ PresentSince ops e.workerId n ∧
          w = { e with load := currentLoad e later } ∧
          ∀ e' later' n', Eligible ops role e' later' → PresentSince ops e'.workerId n' →
            currentLoad e later ≤ currentLoad e' later' ∧
              (currentLoad e' later' = currentLoad e later →
                n < n' ∨ e'.workerId = e.workerId)) ∧
      (∀ e later, Eligible ops role e later → ∃! n, PresentSince ops e.workerId n) ∧
      ∀ id, ¬ IsPresent id ops → ∀ load,
        (WorkerRegistry.after ops).deregister id = WorkerRegistry.after ops ∧
          (WorkerRegistry.after ops).updateLoad id load = WorkerRegistry.after ops ∧
          (WorkerRegistry.after ops).markUnhealthy id = WorkerRegistry.after ops := by
  have hsince : ∀ e later, Eligible ops role e later → ∃! n, PresentSince ops e.workerId n := by
    intro e later heligible
    obtain ⟨n, hn⟩ := exists_since (not_isPresent_nil e.workerId)
      ⟨e, later, heligible.toEnrolled, rfl⟩
    exact ⟨n, hn, fun m hm ↦ hm.unique hn⟩
  refine ⟨?_, fun w hw ↦ ?_, hsince, fun id hid load ↦ ⟨?_, ?_, ?_⟩⟩
  · rw [WorkerRegistry.leastLoaded, List.argmin_eq_none, List.eq_nil_iff_forall_not_mem]
    constructor
    · exact fun h e later heligible ↦ h _ (mem_candidates_after.mpr ⟨e, later, heligible, rfl⟩)
    · intro h w hw
      obtain ⟨e, later, heligible, -⟩ := mem_candidates_after.mp hw
      exact h e later heligible
  · obtain ⟨e, later, heligible, rfl⟩ := mem_candidates_after.mp (List.argmin_mem hw)
    obtain ⟨n, hn, -⟩ := hsince e later heligible
    refine ⟨e, later, n, heligible, hn, rfl, fun e' later' n' heligible' hn' ↦ ?_⟩
    have hmem' := mem_candidates_after.mpr ⟨e', later', heligible', rfl⟩
    refine ⟨List.le_of_mem_argmin hmem' hw, fun htie ↦ ?_⟩
    rcases argmin_first (pairwise_candidates_after ops role) hw hmem' htie.le with heq | holder
    · exact .inr (WorkerEndpoint.mk.inj heq).1
    · exact .inl (holder n n' (presentSince_iff.mp hn) (presentSince_iff.mp hn'))
  · exact apply_unknown (.deregister id) hid (.inl rfl)
  · exact apply_unknown (.updateLoad id load) hid (.inr ⟨_, rfl⟩)
  · exact apply_unknown (.markUnhealthy id) hid (.inr ⟨_, rfl⟩)

-- A worker that registers again is healthy and idle again but keeps its place.
example :
    (WorkerRegistry.after
      [.register { workerId := "w0", role := .decode, address := "10.0.0.1:50051", load := 1 / 2 },
        .register { workerId := "w1", role := .decode, address := "10.0.0.2:50051" },
        .markUnhealthy "w0",
        .register { workerId := "w0", role := .decode, address := "10.0.0.3:50051" }]).leastLoaded
      .decode = some { workerId := "w0", role := .decode, address := "10.0.0.3:50051" } := by
  decide +kernel

end AsrServe.DynamoOrchestration
