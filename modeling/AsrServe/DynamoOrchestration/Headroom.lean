import AsrServe.DynamoOrchestration.Retry

/-!
# Headroom for high-priority requests

`_select_worker` only warns when a high-priority request meets a worker above 80 % load: what the
registry has to offer for the request to get a worker with headroom.
-/

open AsrServe.Reasoning

namespace AsrServe.DynamoOrchestration.Router

/-- The priority hint is above 5. -/
def HighPriority (request : ASRRequest) : Prop :=
  ∃ priority, request.intHint "priority" 5 = some priority ∧ 5 < priority

/-- If a role has a healthy worker at all, it has one with headroom. -/
def OffersHeadroom (registry : WorkerRegistry) (role : RequestPhase) : Prop :=
  (∃ w ∈ registry.workers.values, w.role = role ∧ w.healthy = true) →
    ∃ w ∈ registry.workers.values, w.role = role ∧ w.healthy = true ∧ w.load ≤ 4 / 5

/-! ## One selection -/

theorem selectWorker_highPriority {request : ASRRequest} (h : HighPriority request)
    (registry : WorkerRegistry) (role : RequestPhase) :
    selectWorker registry role request = .ok (registry.leastLoaded role) := by
  obtain ⟨priority, hpriority, -⟩ := h
  rw [selectWorker, hpriority]

/-- The least loaded worker has headroom just when the role offers it. -/
theorem leastLoaded_headroom_iff (registry : WorkerRegistry) (role : RequestPhase) :
    (∀ w, registry.leastLoaded role = some w → w.load ≤ 4 / 5) ↔
      OffersHeadroom registry role := by
  constructor
  · rintro h ⟨w, hmem, hrole, hhealthy⟩
    cases hleast : registry.leastLoaded role with
    | none =>
      have hcandidate := WorkerRegistry.mem_candidates.mpr ⟨hmem, hrole, hhealthy⟩
      rw [List.argmin_eq_none.mp hleast] at hcandidate
      cases hcandidate
    | some best =>
      have hbest := WorkerRegistry.leastLoaded_spec hleast
      exact ⟨best, hbest.registered, hbest.role_eq, hbest.healthy, h best hleast⟩
  · intro h w hw
    have hbest := WorkerRegistry.leastLoaded_spec hw
    obtain ⟨other, hmem, hrole, hhealthy, hload⟩ :=
      h ⟨w, hbest.registered, hbest.role_eq, hbest.healthy⟩
    exact (hbest.minimal other hmem hrole hhealthy).trans hload

theorem chooseWorker_headroom_iff {request : ASRRequest} (h : HighPriority request)
    (registry : WorkerRegistry) (role : RequestPhase) :
    (∀ w, chooseWorker registry role request = .ok w → w.load ≤ 4 / 5) ↔
      OffersHeadroom registry role := by
  rw [← leastLoaded_headroom_iff]
  apply forall_congr' fun w ↦ imp_congr_left ?_
  rw [chooseWorker, selectWorker_highPriority h]
  cases registry.leastLoaded role with
  | none => exact iff_of_false nofun nofun
  | some best => simp

/-! ## Calls made so far -/

-- All calls made for a high-priority request went to workers with headroom.
def Route.KeepsHeadroom (requests : Nat → ASRRequest) (r : Route) : Prop :=
  HighPriority (requests r.object) → ∀ c ∈ r.calls, c.worker.load ≤ 4 / 5

def Headroom (s : System) : Prop :=
  ∀ call r, s.routes.get? call = some r → r.KeepsHeadroom s.requests

/-- The hop an event makes: the role a worker is selected for, and the request. -/
def System.selects (s : System) : Event → Option (RequestPhase × ASRRequest)
  | .route _ object _ => some (.prefill, s.requests object)
  | .prefillReturned call _ _ _ =>
    (s.routes.get? call).map fun r ↦ (.decode, s.requests r.object)
  | _ => none

/-- A worker selected for a high-priority request is selected from a role that offers headroom. -/
def SelectsHeadroom (s : System) (event : Event) : Prop :=
  ∀ role request, s.selects event = some (role, request) → HighPriority request →
    OffersHeadroom s.registry role

variable {s s' : System}

theorem headroom_idle (registry : WorkerRegistry) (requests : Nat → ASRRequest) :
    Headroom (.idle registry requests) :=
  fun _ _ h ↦ absurd h (by simp [System.idle])

theorem Headroom.congr (h : Headroom s) (hroutes : s'.routes = s.routes)
    (hhints : ∀ object, (s'.requests object).agentHints = (s.requests object).agentHints) :
    Headroom s' := by
  intro call r hr hhigh
  rw [hroutes] at hr
  rw [HighPriority, ASRRequest.intHint, hhints] at hhigh
  exact h call r hr hhigh

-- A state that has one route more, or one that has moved.
theorem headroom_set (h : Headroom s) {call : Nat} {r' : Route}
    (hroutes : s'.routes = s.routes.set call r') (hrequests : s'.requests = s.requests) :
    Headroom s' ↔ r'.KeepsHeadroom s.requests := by
  constructor
  · intro h'
    rw [← hrequests]
    apply h' call
    rw [hroutes, Dict.get?_set_self]
  · intro hr' j r hr
    rw [hroutes] at hr
    rw [hrequests]
    rcases Dict.get?_set_cases hr with ⟨-, rfl⟩ | ⟨-, hold⟩
    · exact hr'
    · exact h j r hold

/-- A hop for a high-priority request keeps the headroom just when its role offers it. -/
theorem headroom_hop (h : Headroom s) {call : Nat} {r : Route} {role : RequestPhase}
    {suspended : RoutePhase} (hr : r.KeepsHeadroom s.requests) :
    Headroom (hop s call r role suspended) ↔
      (HighPriority (s.requests r.object) → OffersHeadroom s.registry role) := by
  obtain ⟨r', hroutes, hrequests, hobject, -, hcase⟩ := hop_route s call r role suspended
  rw [headroom_set h hroutes hrequests, Route.KeepsHeadroom, hobject]
  apply forall_congr' fun hhigh ↦ ?_
  rw [← chooseWorker_headroom_iff hhigh]
  rcases hcase with ⟨e, he, hcalls⟩ | ⟨w, c, hw, hcalls, -, hworker⟩
  · rw [hcalls, he]
    exact iff_of_true (hr hhigh) nofun
  · rw [hcalls, hw, List.forall_mem_append, List.forall_mem_singleton, hworker,
      and_iff_right (hr hhigh)]
    simp

-- A route that ends has made the calls it had made.
theorem headroom_finish (h : Headroom s) {call : Nat} {r : Route}
    (hr : s.routes.get? call = some r) {t : System} (hroutes : t.routes = s.routes)
    (hrequests : t.requests = s.requests) (phase : RoutePhase) :
    Headroom (finish t call r phase) := by
  rw [headroom_set h (finish_routes hroutes call r phase) hrequests]
  exact h call r hr

theorem handsOver_of_step {call : Nat} {kvHandle : Option String} {now t1 : ℚ}
    (hstep : step s (.prefillReturned call kvHandle now t1) = some s') :
    ∃ r t0, s.routes.get? call = some r ∧ s' =
      hop (acceptHandle s r.object kvHandle (now - t0)) call
        { r with prefillResult := some kvHandle } .decode (.decode t1) := by
  simp only [step] at hstep
  split at hstep
  · rename_i object t0 calls result hr
    cases hstep
    exact ⟨_, t0, hr, rfl⟩
  · cases hstep

-- Taking over the handle leaves the hints of every request alone.
theorem agentHints_acceptHandle (s : System) (object : Nat) (kvHandle : Option String)
    (seconds : ℚ) (other : Nat) :
    ((acceptHandle s object kvHandle seconds).requests other).agentHints =
      (s.requests other).agentHints := by
  rw [acceptHandle]
  by_cases hother : other = object
  · simp [hother]
  · simp [hother]

theorem Headroom.of_selects_none (h : Headroom s) {event : Event} (hmoves : Moves s event s')
    (hnone : s.selects event = none) : Headroom s' := by
  cases hmoves with
  | begins hnew hfree => cases hnone
  | handsOver hr hphase =>
    rw [System.selects, hr] at hnone
    cases hnone
  | prefillRaises hr hphase => exact headroom_finish h hr rfl rfl _
  | returns hr hphase => exact headroom_finish h hr rfl rfl _
  | decodeRaises hr hphase => exact headroom_finish h hr rfl rfl _
  | registry registry hstarts => exact h.congr rfl fun _ ↦ rfl

theorem selectsHeadroom_of_none {event : Event} (h : s.selects event = none) :
    SelectsHeadroom s event := by
  intro role request hselects
  rw [h] at hselects
  cases hselects

/-- The headroom survives just the steps that select where it is offered. -/
theorem Headroom.step_iff (h : Headroom s) {event : Event} (hstep : step s event = some s') :
    Headroom s' ↔ SelectsHeadroom s event := by
  cases event with
  | route call object now =>
    cases step_moves hstep with
    | begins hnew hfree =>
      have hbegun : Headroom
          { s with inFlight := s.inFlight.set (s.requests object).requestId object } :=
        h.congr rfl fun _ ↦ rfl
      rw [headroom_hop hbegun fun _ c hc ↦ absurd hc List.not_mem_nil]
      simp [SelectsHeadroom, System.selects]
    | registry registry hstarts => cases hstarts
  | prefillReturned call kvHandle now t1 =>
    obtain ⟨r, t0, hr, rfl⟩ := handsOver_of_step hstep
    have hhints := agentHints_acceptHandle s r.object kvHandle (now - t0)
    have haccepted : Headroom (acceptHandle s r.object kvHandle (now - t0)) := h.congr rfl hhints
    have hkept : Route.KeepsHeadroom (acceptHandle s r.object kvHandle (now - t0)).requests
        { r with prefillResult := some kvHandle } := haccepted call r hr
    rw [headroom_hop haccepted hkept, HighPriority, ASRRequest.intHint, hhints]
    simp only [SelectsHeadroom, System.selects, hr, Option.map_some, Option.some.injEq,
      Prod.mk.injEq]
    constructor
    · rintro hoffers role request ⟨rfl, rfl⟩
      exact hoffers
    · exact fun hselects ↦ hselects .decode _ ⟨rfl, rfl⟩
  | _ => exact iff_of_true (h.of_selects_none (step_moves hstep) rfl) (selectsHeadroom_of_none rfl)

/-! ## Selections and runs -/

/-- What `_select_worker` is meant to return: no worker, or a healthy one of the role with
headroom. -/
def WithHeadroom (registry : WorkerRegistry) (role : RequestPhase)
    (result : Except RouteError (Option WorkerEndpoint)) : Prop :=
  result = .ok none ∨ ∃ w ∈ registry.workers.values, result = .ok (some w) ∧ w.role = role ∧
    w.healthy = true ∧ w.load ≤ 4 / 5

theorem selectWorker_withHeadroom_iff {request : ASRRequest} (h : HighPriority request)
    (registry : WorkerRegistry) (role : RequestPhase) :
    WithHeadroom registry role (selectWorker registry role request) ↔
      OffersHeadroom registry role := by
  rw [selectWorker_highPriority h, ← leastLoaded_headroom_iff, WithHeadroom]
  cases hleast : registry.leastLoaded role with
  | none => exact iff_of_true (.inl rfl) nofun
  | some best =>
    have hbest := WorkerRegistry.leastLoaded_spec hleast
    constructor
    · rintro (hnone | ⟨w, -, hw, -, -, hload⟩) best' hbest'
      · cases hnone
      · cases hw
        cases hbest'
        exact hload
    · exact fun hload ↦ .inr ⟨best, hbest.registered, rfl, hbest.role_eq, hbest.healthy,
        hload best rfl⟩

/-- A high-priority request gets a worker with headroom just when the role has no healthy worker
or one with headroom; and all the calls made for high-priority requests, on both hops and under any
interleaving, went to workers with headroom just when every selection found that so. -/
theorem high_priority_headroom_iff (registry : WorkerRegistry) :
    (∀ role request, HighPriority request →
      (WithHeadroom registry role (selectWorker registry role request) ↔
        OffersHeadroom registry role)) ∧
      ∀ requests events,
        Along step (fun _ _ s' ↦ Headroom s') (.idle registry requests) events ↔
          Along step (fun s event _ ↦ SelectsHeadroom s event) (.idle registry requests)
            events := by
  constructor
  · exact fun role request h ↦ selectWorker_withHeadroom_iff h registry role
  · intro requests events
    apply along_congr (I := Headroom)
    · exact fun s event s' h hstep ↦ h.step_iff hstep
    · exact fun s event s' _ _ h ↦ h
    · exact headroom_idle registry requests

-- A single worker, nearly saturated, and a request of the highest priority.
def saturated : WorkerEndpoint where
  workerId := "prefill-0"
  role := .prefill
  address := "10.0.1.10:50051"
  load := 9 / 10

def urgent : ASRRequest where
  requestId := "demo-001"
  agentHints := Dict.empty.set "priority" ⟨some 9⟩

theorem urgent_highPriority : HighPriority urgent := ⟨9, by decide +kernel, by decide⟩

/-- The saturated worker is selected and called. -/
theorem urgent_gets_saturated :
    HighPriority urgent ∧
      selectWorker (WorkerRegistry.register {} saturated) .prefill urgent = .ok (some saturated) ∧
      ¬ WithHeadroom (WorkerRegistry.register {} saturated) .prefill
        (selectWorker (WorkerRegistry.register {} saturated) .prefill urgent) ∧
      ¬ Along step (fun _ _ s' ↦ Headroom s')
        (.idle (WorkerRegistry.register {} saturated) fun _ ↦ urgent) [.route 0 0 0] := by
  have hselect : selectWorker (WorkerRegistry.register {} saturated) .prefill urgent =
      .ok (some saturated) := by
    rw [selectWorker_highPriority urgent_highPriority]
    decide +kernel
  have hload : ¬ saturated.load ≤ 4 / 5 := by decide +kernel
  have hnone : ¬ WithHeadroom (WorkerRegistry.register {} saturated) .prefill
      (selectWorker (WorkerRegistry.register {} saturated) .prefill urgent) := by
    rw [hselect]
    rintro (hnone | ⟨w, -, hw, -, -, h⟩)
    · cases hnone
    · cases hw
      exact hload h
  refine ⟨urgent_highPriority, hselect, hnone, fun h ↦ ?_⟩
  obtain ⟨s', hs'⟩ : ∃ s', step (.idle (WorkerRegistry.register {} saturated) fun _ ↦ urgent)
      (.route 0 0 0) = some s' := ⟨_, rfl⟩
  have hselects := ((headroom_idle _ _).step_iff hs').mp (h s' hs').1
  have hoffers := hselects .prefill urgent rfl urgent_highPriority
  exact hnone ((selectWorker_withHeadroom_iff urgent_highPriority _ _).mpr hoffers)

end AsrServe.DynamoOrchestration.Router
