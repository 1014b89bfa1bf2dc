import AsrServe.DynamoOrchestration.Router
import AsrServe.Reasoning.Runs

/-!
# Routing under concurrency

Whatever the interleaving of routes and registry operations: whom a route has called so far, with
which handle, and what the statistics add up to.
-/

open AsrServe.Reasoning

namespace AsrServe.DynamoOrchestration.Router

/-! ## What a route has done -/

/-- The call went to a worker of the given role that was least loaded when it was selected. -/
structure Call.Selected (c : Call) (role : RequestPhase) : Prop where
  role_eq : c.role = role
  leastLoaded : c.registry.LeastLoaded role c.worker

/-- One prefill call and then one decode call, which carried the handle `h` of the first. -/
def Route.Handed (r : Route) (h : Option String) : Prop :=
  ∃ c d, r.calls = [c, d] ∧ c.Selected .prefill ∧ d.Selected .decode ∧
    r.prefillResult = some h ∧ d.kvHandle = h

/-- The calls made before a route failed in this way. -/
def RouteError.callsMade : RouteError → List RequestPhase
  | .invalidPriority .prefill | .noHealthyWorkers .prefill => []
  | .callRaised .prefill | .invalidPriority .decode | .noHealthyWorkers .decode => [.prefill]
  | .callRaised .decode => [.prefill, .decode]

/-- What a route has done up to its phase; while its decode call is on its way, the request object
still carries the handle the call was made with. -/
def Route.WellFormed (requests : Nat → ASRRequest) (r : Route) : Prop :=
  match r.phase with
  | .prefill _ => ∃ c, r.calls = [c] ∧ c.Selected .prefill
  | .decode _ => r.Handed (requests r.object).kvHandle
  | .returned _ => ∃ h, r.Handed h
  | .raised error => r.calls.map (·.role) = error.callsMade

def Route.isReturned (r : Route) : Bool := r.phase matches .returned _

def Route.inDecode (r : Route) : Bool := r.phase matches .decode _

structure Tallied (s : System) : Prop where
  completed_eq : s.stats.requestsCompleted = s.routes.values.countP (·.isReturned)
  decode_eq : s.stats.decodeLatenciesMs.length = s.stats.requestsCompleted
  prefill_ge : s.stats.requestsCompleted + s.routes.values.countP (·.inDecode) ≤
    s.stats.prefillLatenciesMs.length

structure Inv (s : System) : Prop extends Tallied s where
  wellFormed : ∀ call r, s.routes.get? call = some r → r.WellFormed s.requests
  distinct : ∀ call call' r r', s.routes.get? call = some r → s.routes.get? call' = some r' →
    r.inProgress = true → r'.inProgress = true → r.object = r'.object → call = call'

/-! ## One route moves -/

-- A route only looks at its own request object, and only while it is in progress.
theorem Route.WellFormed.congr {requests requests' : Nat → ASRRequest} {r : Route}
    (h : r.WellFormed requests)
    (heq : r.inProgress = true → requests' r.object = requests r.object) :
    r.WellFormed requests' := by
  unfold Route.WellFormed at *
  unfold Route.inProgress at heq
  split at h
  · exact h
  · rename_i hphase
    rw [hphase] at heq
    rwa [heq rfl]
  · exact h
  · exact h

variable {s s' : System}

-- Replacing one route, no other route in progress being about its object.
theorem Inv.set_route (h : Inv s) {call : Nat} {r' : Route}
    (hroutes : s'.routes = s.routes.set call r')
    (hrequests : ∀ object, object ≠ r'.object → s'.requests object = s.requests object)
    (hsole : ∀ k r, s.routes.get? k = some r → r.inProgress = true → r.object = r'.object →
      k = call)
    (hwf : r'.WellFormed s'.requests) (htally : Tallied s') : Inv s' where
  toTallied := htally
  wellFormed := fun k r hk ↦ by
    rw [hroutes] at hk
    rcases Dict.get?_set_cases hk with ⟨-, rfl⟩ | ⟨hne, hold⟩
    · exact hwf
    · refine (h.wellFormed k r hold).congr fun hprogress ↦ hrequests _ fun hobject ↦ ?_
      exact hne (hsole k r hold hprogress hobject)
  distinct := fun k k' r₁ r₂ hk hk' h₁ h₂ hobject ↦ by
    rw [hroutes] at hk hk'
    rcases Dict.get?_set_cases hk with ⟨hcall, rfl⟩ | ⟨-, hold⟩
    · rcases Dict.get?_set_cases hk' with ⟨hcall', -⟩ | ⟨-, hold'⟩
      · rw [hcall, hcall']
      · rw [hcall, hsole k' r₂ hold' h₂ hobject.symm]
    · rcases Dict.get?_set_cases hk' with ⟨hcall', rfl⟩ | ⟨-, hold'⟩
      · rw [hcall', hsole k r₁ hold h₁ hobject]
      · exact h.distinct k k' r₁ r₂ hold hold' h₁ h₂ hobject

-- The route being moved is the only one in progress about its object.
theorem Inv.sole (h : Inv s) {call : Nat} {r : Route} (hr : s.routes.get? call = some r)
    (hprogress : r.inProgress = true) :
    ∀ k r₁, s.routes.get? k = some r₁ → r₁.inProgress = true → r₁.object = r.object →
      k = call :=
  fun k r₁ hk h₁ hobject ↦ h.distinct k call r₁ r hk hr h₁ hprogress hobject

-- What the invariant says of a route in each of the two calls.
theorem Inv.inPrefill (h : Inv s) {call : Nat} {r : Route} {t0 : ℚ}
    (hr : s.routes.get? call = some r) (hphase : r.phase = .prefill t0) :
    ∃ c, r.calls = [c] ∧ c.Selected .prefill := by
  have hwf := h.wellFormed call r hr
  rwa [Route.WellFormed, hphase] at hwf

theorem Inv.inDecode (h : Inv s) {call : Nat} {r : Route} {t1 : ℚ}
    (hr : s.routes.get? call = some r) (hphase : r.phase = .decode t1) :
    r.Handed (s.requests r.object).kvHandle := by
  have hwf := h.wellFormed call r hr
  rwa [Route.WellFormed, hphase] at hwf

/-! ## One hop -/

theorem chooseWorker_ok {registry : WorkerRegistry} {role : RequestPhase} {request : ASRRequest}
    {w : WorkerEndpoint} (h : chooseWorker registry role request = .ok w) :
    registry.LeastLoaded role w := by
  unfold chooseWorker selectWorker at h
  split at h
  · cases h
  · cases h
  · rename_i w' hselect
    cases h
    split at hselect
    · cases hselect
    · exact WorkerRegistry.leastLoaded_spec (Except.ok.inj hselect)

theorem chooseWorker_error {registry : WorkerRegistry} {role : RequestPhase}
    {request : ASRRequest} {e : RouteError} (h : chooseWorker registry role request = .error e) :
    e = .invalidPriority role ∨ e = .noHealthyWorkers role := by
  unfold chooseWorker selectWorker at h
  split at h
  · rename_i hselect
    cases h
    split at hselect
    · exact .inl (Except.error.inj hselect).symm
    · cases hselect
  · exact .inr (Except.error.inj h).symm
  · cases h

/-- What a hop does: the route raises, or it has made one more call, to a least loaded worker and
with the handle its request carries. -/
theorem hop_cases (s : System) (call : Nat) (r : Route) (role : RequestPhase)
    (suspended : RoutePhase) :
    ∃ r', (hop s call r role suspended).routes = s.routes.set call r' ∧
      (hop s call r role suspended).requests = s.requests ∧
      (hop s call r role suspended).stats = s.stats ∧
      ((∃ e, (e = .invalidPriority role ∨ e = .noHealthyWorkers role) ∧
          r' = { r with phase := .raised e }) ∨
        ∃ c, c.Selected role ∧ c.kvHandle = (s.requests r.object).kvHandle ∧
          r' = { r with phase := suspended, calls := r.calls ++ [c] }) := by
  unfold hop
  split
  · rename_i e he
    exact ⟨_, rfl, rfl, rfl, .inl ⟨e, chooseWorker_error he, rfl⟩⟩
  · rename_i w hw
    exact ⟨_, rfl, rfl, rfl, .inr ⟨_, ⟨rfl, chooseWorker_ok hw⟩, rfl, rfl⟩⟩

/-! ## The statistics -/

-- A new route is neither returned nor in its second hop.
theorem Tallied.start (h : Tallied s) {call : Nat} {r' : Route} (hnew : call ∉ s.routes)
    (hroutes : s'.routes = s.routes.set call r') (hstats : s'.stats = s.stats)
    (hreturned : r'.isReturned = false) (hdecode : r'.inDecode = false) : Tallied s' := by
  have hr := Dict.countP_values_set_of_not_mem (·.isReturned) r' hnew
  have hd := Dict.countP_values_set_of_not_mem (·.inDecode) r' hnew
  simp only [Dict.tally, hreturned, hdecode, Bool.false_eq_true, if_false, Nat.add_zero] at hr hd
  refine ⟨?_, ?_, ?_⟩
  · rw [hstats, hroutes, hr, h.completed_eq]
  · rw [hstats, h.decode_eq]
  · rw [hstats, hroutes, hd]
    exact h.prefill_ge

-- A route that moves without returning adds at most one to the second hops, and only against a
-- prefill latency of its own.
theorem Tallied.move (h : Tallied s) {call : Nat} {r r' : Route}
    (hr : s.routes.get? call = some r) (hroutes : s'.routes = s.routes.set call r')
    (hcompleted : s'.stats.requestsCompleted = s.stats.requestsCompleted)
    (hlatencies : s'.stats.decodeLatenciesMs = s.stats.decodeLatenciesMs)
    (hprogress : r.inProgress = true) (hreturned : r'.isReturned = false)
    (hdecode : s.stats.prefillLatenciesMs.length + Dict.tally (·.inDecode) r' ≤
      s'.stats.prefillLatenciesMs.length + Dict.tally (·.inDecode) r) : Tallied s' := by
  have hold : r.isReturned = false := by
    unfold Route.inProgress at hprogress
    unfold Route.isReturned
    split at hprogress <;> simp_all
  have hcount := Dict.countP_values_set (·.isReturned) r' hr
  have hcountDecode := Dict.countP_values_set (·.inDecode) r' hr
  simp only [Dict.tally, hold, hreturned, Bool.false_eq_true, if_false, Nat.add_zero] at hcount
  have hge := h.prefill_ge
  refine ⟨?_, ?_, ?_⟩
  · rw [hcompleted, hroutes, hcount, h.completed_eq]
  · rw [hlatencies, hcompleted, h.decode_eq]
  · rw [hcompleted, hroutes]
    omega

/-! ## Each event -/

theorem Inv.begin (h : Inv s) {call object : Nat} {now : ℚ} (hnew : call ∉ s.routes)
    (hsole : ¬ ∃ r ∈ s.routes.values, r.inProgress = true ∧ r.object = object)
    {inFlight : Dict String Nat} :
    Inv (hop { s with inFlight := inFlight } call { object, phase := .prefill now } .prefill
      (.prefill now)) := by
  obtain ⟨r', hroutes, hrequests, hstats, hcase⟩ := hop_cases { s with inFlight := inFlight } call
    { object, phase := .prefill now } .prefill (.prefill now)
  have hobject : r'.object = object := by
    rcases hcase with ⟨e, -, rfl⟩ | ⟨c, -, -, rfl⟩ <;> rfl
  refine h.set_route hroutes (fun _ _ ↦ congrFun hrequests _) ?_ ?_ ?_
  · intro k r hk hprogress heq
    exact absurd ⟨r, Dict.mem_values_iff.mpr ⟨k, hk⟩, hprogress, heq.trans hobject⟩ hsole
  · rcases hcase with ⟨e, rfl | rfl, rfl⟩ | ⟨c, hselected, -, rfl⟩
    · exact rfl
    · exact rfl
    · exact ⟨c, rfl, hselected⟩
  · refine h.toTallied.start hnew hroutes hstats ?_ ?_ <;>
      rcases hcase with ⟨e, -, rfl⟩ | ⟨c, -, -, rfl⟩ <;> rfl

-- The prefill call has returned a handle: it is stored in the request and the second hop made.
theorem Inv.prefillReturned (h : Inv s) {call : Nat} {r : Route} {t0 now t1 : ℚ}
    {kvHandle : Option String} (hr : s.routes.get? call = some r) (hphase : r.phase = .prefill t0) :
    Inv (hop (acceptHandle s r.object kvHandle (now - t0)) call
      { r with prefillResult := some kvHandle } .decode (.decode t1)) := by
  have hprogress : r.inProgress = true := by rw [Route.inProgress, hphase]
  obtain ⟨c, hcalls, hc⟩ := h.inPrefill hr hphase
  obtain ⟨r', hroutes, hrequests, hstats, hcase⟩ := hop_cases
    (acceptHandle s r.object kvHandle (now - t0)) call
    { r with prefillResult := some kvHandle } .decode (.decode t1)
  have hobject : r'.object = r.object := by
    rcases hcase with ⟨e, -, rfl⟩ | ⟨c, -, -, rfl⟩ <;> rfl
  have hcarried : ((acceptHandle s r.object kvHandle (now - t0)).requests r.object).kvHandle =
      kvHandle := by
    simp [acceptHandle]
  refine h.set_route hroutes ?_ ?_ ?_ ?_
  -- Only this route's request object changes, and no other route in progress is about it.
  · intro object hne
    rw [hrequests, acceptHandle]
    exact Function.update_of_ne (hobject ▸ hne) _ _
  · intro k r₁ hk h₁ heq
    exact h.sole hr hprogress k r₁ hk h₁ (heq.trans hobject)
  · rcases hcase with ⟨e, rfl | rfl, rfl⟩ | ⟨d, hd, hhandle, rfl⟩
    · show r.calls.map (·.role) = [.prefill]
      rw [hcalls, List.map_singleton, hc.role_eq]
    · show r.calls.map (·.role) = [.prefill]
      rw [hcalls, List.map_singleton, hc.role_eq]
    · -- the handle in the request is the one just returned, and the call has read it from there
      refine ⟨c, d, ?_, hc, hd, ?_, ?_⟩
      · show r.calls ++ [d] = [c, d]
        rw [hcalls, List.singleton_append]
      · rw [hrequests]
        exact congrArg some hcarried.symm
      · rw [hrequests]
        exact hhandle
  · refine h.toTallied.move hr hroutes ?_ ?_ hprogress ?_ ?_
    · rw [hstats]
      rfl
    · rw [hstats]
      rfl
    · rcases hcase with ⟨e, -, rfl⟩ | ⟨d, -, -, rfl⟩ <;> rfl
    · rw [hstats]
      have hlen : (acceptHandle s r.object kvHandle (now - t0)).stats.prefillLatenciesMs.length =
          s.stats.prefillLatenciesMs.length + 1 := List.length_append
      have htally : Dict.tally (·.inDecode) r' ≤ 1 := by
        rw [Dict.tally]
        split <;> omega
      omega

theorem Inv.callRaised (h : Inv s) {call : Nat} {r : Route} {role : RequestPhase}
    (hr : s.routes.get? call = some r) (hprogress : r.inProgress = true)
    (hcalls : r.calls.map (·.role) = (RouteError.callRaised role).callsMade) :
    Inv (finish s call r (.raised (.callRaised role))) := by
  have hroutes : (finish s call r (.raised (.callRaised role))).routes =
      s.routes.set call { r with phase := .raised (.callRaised role) } := rfl
  refine h.set_route hroutes (fun _ _ ↦ rfl) (fun k r₁ ↦ h.sole hr hprogress k r₁) hcalls ?_
  exact h.toTallied.move hr rfl rfl rfl hprogress rfl (Nat.le_add_right _ _)

theorem Inv.decodeReturned (h : Inv s) {call : Nat} {r : Route} {t1 seconds : ℚ}
    {transcript : String} (hr : s.routes.get? call = some r) (hphase : r.phase = .decode t1) :
    Inv (finish (complete s seconds) call r (.returned transcript)) := by
  have hprogress : r.inProgress = true := by rw [Route.inProgress, hphase]
  have hhanded := h.inDecode hr hphase
  have hroutes : (finish (complete s seconds) call r (.returned transcript)).routes =
      s.routes.set call { r with phase := .returned transcript } := rfl
  refine h.set_route hroutes (fun _ _ ↦ rfl) (fun k r₁ ↦ h.sole hr hprogress k r₁) ⟨_, hhanded⟩ ?_
  have hcount := Dict.countP_values_set (·.isReturned) { r with phase := .returned transcript } hr
  have hcountDecode :=
    Dict.countP_values_set (·.inDecode) { r with phase := .returned transcript } hr
  have hge := h.prefill_ge
  have hreturned : Dict.tally (·.isReturned) r = 0 := by
    simp [Dict.tally, Route.isReturned, hphase]
  have hdecode : Dict.tally (·.inDecode) r = 1 := by
    simp [Dict.tally, Route.inDecode, hphase]
  rw [hreturned] at hcount
  rw [hdecode] at hcountDecode
  refine ⟨?_, ?_, ?_⟩
  · show s.stats.requestsCompleted + 1 = _
    rw [h.completed_eq]
    exact hcount.symm
  · show (s.stats.decodeLatenciesMs ++ [_]).length = s.stats.requestsCompleted + 1
    rw [List.length_append, h.decode_eq]
    rfl
  · show s.stats.requestsCompleted + 1 +
      (s.routes.set call { r with phase := .returned transcript }).values.countP (·.inDecode) ≤
        s.stats.prefillLatenciesMs.length
    have hafter : Dict.tally (·.inDecode) { r with phase := .returned transcript } = 0 := rfl
    omega

theorem Inv.registry (h : Inv s) (registry : WorkerRegistry) :
    Inv { s with registry := registry } where
  completed_eq := h.completed_eq
  decode_eq := h.decode_eq
  prefill_ge := h.prefill_ge
  wellFormed := h.wellFormed
  distinct := h.distinct

theorem Inv.step (h : Inv s) (event : Event) (hstep : step s event = some s') : Inv s' := by
  cases step_moves hstep with
  | begins hnew hfree => exact h.begin hnew hfree
  | handsOver hr hphase => exact h.prefillReturned hr hphase
  | @prefillRaises call r t0 hr hphase =>
    obtain ⟨c, hcalls, hc⟩ := h.inPrefill hr hphase
    apply h.callRaised hr (by rw [Route.inProgress, hphase])
    rw [hcalls, List.map_singleton, hc.role_eq]
    rfl
  | returns hr hphase => exact h.decodeReturned hr hphase
  | @decodeRaises call r t1 hr hphase =>
    obtain ⟨c, d, hcalls, hc, hd, -, -⟩ := h.inDecode hr hphase
    apply h.callRaised hr (by rw [Route.inProgress, hphase])
    rw [hcalls, List.map_cons, List.map_singleton, hc.role_eq, hd.role_eq]
    rfl
  | registry registry => exact h.registry registry

/-! ## Whole runs -/

-- A router with whatever workers and requests there are, before its first route.
def System.idle (registry : WorkerRegistry) (requests : Nat → ASRRequest) : System where
  registry := registry
  requests := requests

theorem inv_idle (registry : WorkerRegistry) (requests : Nat → ASRRequest) :
    Inv (.idle registry requests) where
  completed_eq := rfl
  decode_eq := rfl
  prefill_ge := Nat.le_refl 0
  wellFormed := fun _ _ h ↦ absurd h (by simp [System.idle])
  distinct := fun _ _ _ _ h ↦ absurd h (by simp [System.idle])

/-- Under any interleaving of routes and registry operations: a route that returned made one call
to a least loaded healthy prefill worker and then one to a least loaded healthy decode worker,
which carried the handle of the first; a route that raised made the calls ahead of the step that
failed and no others; and the statistics count the returned routes. -/
theorem route_safety (registry : WorkerRegistry) (requests : Nat → ASRRequest)
    (events : List Event) (s : System)
    (hrun : runFrom step (.idle registry requests) events = some s) :
    (∀ call r transcript, s.routes.get? call = some r → r.phase = .returned transcript →
      ∃ h, r.Handed h) ∧
    (∀ call r error, s.routes.get? call = some r → r.phase = .raised error →
      r.calls.map (·.role) = error.callsMade) ∧
    (∀ call r t1, s.routes.get? call = some r → r.phase = .decode t1 →
      r.Handed (s.requests r.object).kvHandle) ∧
    s.stats.requestsCompleted = s.routes.values.countP (·.isReturned) ∧
    s.stats.decodeLatenciesMs.length = s.stats.requestsCompleted ∧
    s.stats.requestsCompleted ≤ s.stats.prefillLatenciesMs.length := by
  have h : Inv s := run_invariant (fun _ event _ hs hstep ↦ hs.step event hstep)
    (inv_idle registry requests) hrun
  refine ⟨?_, ?_, ?_, h.completed_eq, h.decode_eq, le_trans (Nat.le_add_right _ _) h.prefill_ge⟩
  · intro call r transcript hr hphase
    have hwf := h.wellFormed call r hr
    rwa [Route.WellFormed, hphase] at hwf
  · intro call r error hr hphase
    have hwf := h.wellFormed call r hr
    rwa [Route.WellFormed, hphase] at hwf
  · intro call r t1 hr hphase
    exact h.inDecode hr hphase

-- Two requests under one id, interleaved; the second one fails in its decode call.
def twoRoutes : List Event :=
  [.register { workerId := "prefill-0", role := .prefill, address := "10.0.1.10:50051" },
    .register { workerId := "decode-0", role := .decode, address := "10.0.2.10:50051" },
    .register { workerId := "decode-1", role := .decode, address := "10.0.2.11:50051" },
    .updateLoad "decode-0" (1 / 2), .route 0 0 0, .route 1 1 0,
    .prefillReturned 1 (some "kv-b") 1 1, .prefillReturned 0 (some "kv-a") 2 2,
    .decodeReturned 0 "hello world" 3, .decodeRaised 1]

def twoRoutesEnd : Option System :=
  runFrom step (.idle {} fun _ ↦ { requestId := "demo-001" }) twoRoutes

theorem twoRoutesEnd_isSome : twoRoutesEnd.isSome := by decide +kernel

theorem twoRoutes_safe : ∃ s, twoRoutesEnd = some s ∧
    (∃ r h, s.routes.get? 0 = some r ∧ r.Handed h) ∧ s.stats.requestsCompleted = 1 ∧
      s.stats.requestsCompleted ≤ s.stats.prefillLatenciesMs.length := by
  have hrun := (Option.some_get twoRoutesEnd_isSome).symm
  obtain ⟨hreturned, -, -, -, -, hle⟩ := route_safety {} _ twoRoutes _ hrun
  have hroute : ((twoRoutesEnd.get twoRoutesEnd_isSome).routes.get? 0).isSome := by
    decide +kernel
  obtain ⟨r, hr⟩ := Option.isSome_iff_exists.mp hroute
  have hphase : ((twoRoutesEnd.get twoRoutesEnd_isSome).routes.get? 0).map (·.phase) =
      some (.returned "hello world") := by decide +kernel
  rw [hr, Option.map_some, Option.some.injEq] at hphase
  obtain ⟨h, hh⟩ := hreturned 0 r "hello world" hr hphase
  exact ⟨_, hrun, ⟨r, h, hr, hh⟩, by decide +kernel, hle⟩

end AsrServe.DynamoOrchestration.Router
