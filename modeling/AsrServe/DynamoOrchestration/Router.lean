import AsrServe.DynamoOrchestration.Registry
import Mathlib.Logic.Function.Basic

/-!
# The smart router (`dynamo-orchestration/src/router.py`)

`SmartRouter.route` cut at its two `await`s.  A system is a router with the routes it has been
asked for; an event is one route's piece between two suspension points, or a registry operation in
between.  Each route remembers the calls it made and what the registry was when it chose their
workers.
-/

open AsrServe.Reasoning

namespace AsrServe.DynamoOrchestration.Router

structure RouterStats where
  requestsCompleted : Nat := 0
  prefillLatenciesMs : List ℚ := []
  decodeLatenciesMs : List ℚ := []
deriving DecidableEq

def RouterStats.recordPrefillLatency (stats : RouterStats) (seconds : ℚ) : RouterStats :=
  { stats with prefillLatenciesMs := stats.prefillLatenciesMs ++ [seconds * 1000] }

def RouterStats.recordDecodeLatency (stats : RouterStats) (seconds : ℚ) : RouterStats :=
  { stats with decodeLatenciesMs := stats.decodeLatenciesMs ++ [seconds * 1000] }

/-- Where a route can fail. -/
inductive RouteError where
  -- `int()` rejects the priority hint.
  | invalidPriority (role : RequestPhase)
  | noHealthyWorkers (role : RequestPhase)
  -- The RPC itself raised, or the route was cancelled in it.
  | callRaised (role : RequestPhase)
deriving DecidableEq, Repr

inductive RoutePhase where
  -- Suspended in `_call_prefill`, called at `t0`.
  | prefill (t0 : ℚ)
  -- Suspended in `_call_decode`, called at `t1`.
  | decode (t1 : ℚ)
  | returned (transcript : String)
  | raised (error : RouteError)
deriving DecidableEq

/-- A worker call as it was made: to whom, with which handle in the request, and the registry the
worker had been selected from. -/
structure Call where
  role : RequestPhase
  worker : WorkerEndpoint
  kvHandle : Option String
  registry : WorkerRegistry

structure Route where
  -- Which request object the route is about.
  object : Nat
  phase : RoutePhase
  -- The calls made so far.
  calls : List Call := []
  -- What `_call_prefill` returned.
  prefillResult : Option (Option String) := none

def Route.inProgress (r : Route) : Bool :=
  match r.phase with
  | .prefill _ | .decode _ => true
  | .returned _ | .raised _ => false

structure System where
  registry : WorkerRegistry
  inFlight : Dict String Nat := Dict.empty
  stats : RouterStats := {}
  requests : Nat → ASRRequest
  routes : Dict Nat Route := Dict.empty

inductive Event where
  | route (call object : Nat) (now : ℚ)
  -- `_call_prefill` returns; the decode call is made at `t1`.
  | prefillReturned (call : Nat) (kvHandle : Option String) (now t1 : ℚ)
  | prefillRaised (call : Nat)
  | decodeReturned (call : Nat) (transcript : String) (now : ℚ)
  | decodeRaised (call : Nat)
  | register (endpoint : WorkerEndpoint)
  | deregister (workerId : String)
  | updateLoad (workerId : String) (load : ℚ)
  | markUnhealthy (workerId : String)

-- A high-priority request on a worker loaded above 80 % is only logged.
def selectWorker (registry : WorkerRegistry) (role : RequestPhase) (request : ASRRequest) :
    Except RouteError (Option WorkerEndpoint) :=
  match request.intHint "priority" 5 with
  | none => .error (.invalidPriority role)
  | some _ => .ok (registry.leastLoaded role)

-- `_select_worker` and the test of its result: the worker to call, or the error raised.
def chooseWorker (registry : WorkerRegistry) (role : RequestPhase) (request : ASRRequest) :
    Except RouteError WorkerEndpoint :=
  match selectWorker registry role request with
  | .error e => .error e
  | .ok none => .error (.noHealthyWorkers role)
  | .ok (some worker) => .ok worker

-- The `finally` of `route`, on the way out with `phase`.
def finish (s : System) (call : Nat) (r : Route) (phase : RoutePhase) : System :=
  { s with
    inFlight := s.inFlight.erase (s.requests r.object).requestId
    routes := s.routes.set call { r with phase := phase } }

/-- The next hop of `_pdd_pipeline`: choose a worker and call it, or raise. -/
def hop (s : System) (call : Nat) (r : Route) (role : RequestPhase) (suspended : RoutePhase) :
    System :=
  match chooseWorker s.registry role (s.requests r.object) with
  | .error e => finish s call r (.raised e)
  | .ok worker =>
    let rpc : Call :=
      { role, worker, kvHandle := (s.requests r.object).kvHandle, registry := s.registry }
    { s with
      routes := s.routes.set call { r with phase := suspended, calls := r.calls ++ [rpc] } }

/-- What `_pdd_pipeline` does with the handle before its second hop. -/
def acceptHandle (s : System) (object : Nat) (kvHandle : Option String) (seconds : ℚ) : System :=
  { s with
    stats := s.stats.recordPrefillLatency seconds
    requests := Function.update s.requests object
      { s.requests object with phase := .decode, kvHandle := kvHandle } }

def complete (s : System) (seconds : ℚ) : System :=
  let stats := s.stats.recordDecodeLatency seconds
  { s with stats := { stats with requestsCompleted := stats.requestsCompleted + 1 } }

def step (s : System) : Event → Option System
  | .route call object now =>
    if call ∈ s.routes ∨ ∃ r ∈ s.routes.values, r.inProgress = true ∧ r.object = object then
      none
    else
      let s := { s with inFlight := s.inFlight.set (s.requests object).requestId object }
      some (hop s call { object, phase := .prefill now } .prefill (.prefill now))
  | .prefillReturned call kvHandle now t1 =>
    match s.routes.get? call with
    | some { object, phase := .prefill t0, calls, .. } =>
      let r : Route := { object, phase := .prefill t0, calls, prefillResult := some kvHandle }
      some (hop (acceptHandle s object kvHandle (now - t0)) call r .decode (.decode t1))
    | _ => none
  | .prefillRaised call =>
    match s.routes.get? call with
    | some r@{ phase := .prefill _, .. } => some (finish s call r (.raised (.callRaised .prefill)))
    | _ => none
  | .decodeReturned call transcript now =>
    match s.routes.get? call with
    | some r@{ phase := .decode t1, .. } =>
      some (finish (complete s (now - t1)) call r (.returned transcript))
    | _ => none
  | .decodeRaised call =>
    match s.routes.get? call with
    | some r@{ phase := .decode _, .. } => some (finish s call r (.raised (.callRaised .decode)))
    | _ => none
  | .register endpoint => some { s with registry := s.registry.register endpoint }
  | .deregister workerId => some { s with registry := s.registry.deregister workerId }
  | .updateLoad workerId load => some { s with registry := s.registry.updateLoad workerId load }
  | .markUnhealthy workerId => some { s with registry := s.registry.markUnhealthy workerId }

/-! ## What an event does -/

theorem finish_routes {s t : System} (hroutes : t.routes = s.routes) (call : Nat) (r : Route)
    (phase : RoutePhase) :
    (finish t call r phase).routes = s.routes.set call { r with phase := phase } := by
  rw [finish, hroutes]

-- A hop raises on the spot, or makes one more call.
theorem hop_eq (s : System) (call : Nat) (r : Route) (role : RequestPhase)
    (suspended : RoutePhase) :
    (∃ e, chooseWorker s.registry role (s.requests r.object) = .error e ∧
      hop s call r role suspended = finish s call r (.raised e)) ∨
    ∃ w c, chooseWorker s.registry role (s.requests r.object) = .ok w ∧ c.role = role ∧
      c.worker = w ∧ hop s call r role suspended =
        { s with
          routes := s.routes.set call { r with phase := suspended, calls := r.calls ++ [c] } } := by
  rw [hop]
  cases chooseWorker s.registry role (s.requests r.object) with
  | error e => exact .inl ⟨e, rfl, rfl⟩
  | ok w => exact .inr ⟨w, _, rfl, rfl, rfl, rfl⟩

-- The request object a route is asked for.
def Event.starts : Event → Option Nat
  | .route _ object _ => some object
  | _ => none

/-- The steps of `step`, each with the guard it has passed. -/
inductive Moves (s : System) : Event → System → Prop where
  | begins {call object : Nat} {now : ℚ} (hnew : call ∉ s.routes)
      (hfree : ¬ ∃ r ∈ s.routes.values, r.inProgress = true ∧ r.object = object) :
      Moves s (.route call object now)
        (hop { s with inFlight := s.inFlight.set (s.requests object).requestId object } call
          { object, phase := .prefill now } .prefill (.prefill now))
  | handsOver {call : Nat} {r : Route} {t0 now t1 : ℚ} {kvHandle : Option String}
      (hr : s.routes.get? call = some r) (hphase : r.phase = .prefill t0) :
      Moves s (.prefillReturned call kvHandle now t1)
        (hop (acceptHandle s r.object kvHandle (now - t0)) call
          { r with prefillResult := some kvHandle } .decode (.decode t1))
  | prefillRaises {call : Nat} {r : Route} {t0 : ℚ} (hr : s.routes.get? call = some r)
      (hphase : r.phase = .prefill t0) :
      Moves s (.prefillRaised call) (finish s call r (.raised (.callRaised .prefill)))
  | returns {call : Nat} {r : Route} {t1 now : ℚ} {transcript : String}
      (hr : s.routes.get? call = some r) (hphase : r.phase = .decode t1) :
      Moves s (.decodeReturned call transcript now)
        (finish (complete s (now - t1)) call r (.returned transcript))
  | decodeRaises {call : Nat} {r : Route} {t1 : ℚ} (hr : s.routes.get? call = some r)
      (hphase : r.phase = .decode t1) :
      Moves s (.decodeRaised call) (finish s call r (.raised (.callRaised .decode)))
  | registry {event : Event} (registry : WorkerRegistry) (hstarts : event.starts = none) :
      Moves s event { s with registry := registry }

theorem step_moves {s s' : System} {event : Event} (hstep : step s event = some s') :
    Moves s event s' := by
  cases event with
  | route call object now =>
    rw [step, Option.ite_none_left_eq_some, not_or, Option.some.injEq] at hstep
    obtain ⟨⟨hnew, hfree⟩, rfl⟩ := hstep
    exact .begins hnew hfree
  | prefillReturned call kvHandle now t1 =>
    simp only [step] at hstep
    split at hstep
    · rename_i object t0 calls result hr
      cases hstep
      exact .handsOver hr rfl
    · cases hstep
  | prefillRaised call =>
    simp only [step] at hstep
    split at hstep
    · rename_i hr
      cases hstep
      exact .prefillRaises hr rfl
    · cases hstep
  | decodeReturned call transcript now =>
    simp only [step] at hstep
    split at hstep
    · rename_i hr
      cases hstep
      exact .returns hr rfl
    · cases hstep
  | decodeRaised call =>
    simp only [step] at hstep
    split at hstep
    · rename_i hr
      cases hstep
      exact .decodeRaises hr rfl
    · cases hstep
  | register endpoint =>
    cases hstep
    exact .registry _ rfl
  | deregister workerId =>
    cases hstep
    exact .registry _ rfl
  | updateLoad workerId load =>
    cases hstep
    exact .registry _ rfl
  | markUnhealthy workerId =>
    cases hstep
    exact .registry _ rfl

end AsrServe.DynamoOrchestration.Router
