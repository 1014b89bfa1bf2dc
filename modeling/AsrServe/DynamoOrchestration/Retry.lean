import AsrServe.DynamoOrchestration.RouterSafety
import AsrServe.DynamoOrchestration.Worker

/-!
# Routing a request again

The phase a request object is in when it reaches a prefill worker, over any number of attempts to
route it.
-/

open AsrServe.Reasoning

namespace AsrServe.DynamoOrchestration.Router

def System.callsOf (s : System) (call : Nat) : List Call :=
  (s.routes.get? call).elim [] (·.calls)

/-- The step presents `object` to a prefill worker. -/
def Presents (s s' : System) (object : Nat) : Prop :=
  ∃ call r c, s'.routes.get? call = some r ∧ r.object = object ∧
    r.calls = s.callsOf call ++ [c] ∧ c.role = .prefill

/-- A prefill worker that is given `request` starts its prefill. -/
def DispatchedToPrefill (request : ASRRequest) : Prop :=
  request.phase = .prefill ∧
    ∀ (w : Worker.DynamoWorker) objectId handle locked, w.role = .prefill →
      w.handleRequest request objectId handle locked = w.processPrefill request objectId handle

/-- Whatever the step presents of `object` is ready for the prefill worker. -/
def PresentedReady (object : Nat) (s : System) (_ : Event) (s' : System) : Prop :=
  Presents s s' object → DispatchedToPrefill (s'.requests object)

-- In no attempt on `object` so far has the prefill call returned.
def NeverPrefilled (s : System) (object : Nat) : Prop :=
  ∀ call r, s.routes.get? call = some r → r.object = object → r.prefillResult = none

/-- An attempt that finds a prefill worker comes after attempts whose prefill call did not
return. -/
def RetriedBeforePrefill (object : Nat) (s : System) (event : Event) (_ : System) : Prop :=
  event.starts = some object →
    (∃ w, chooseWorker s.registry .prefill (s.requests object) = .ok w) → NeverPrefilled s object

/-! ## The phase of a request object -/

variable {s s' : System} {object : Nat}

-- The phase tells whether a prefill call about the object has returned.
def PhaseSound (object : Nat) (s : System) : Prop :=
  (s.requests object).phase = .prefill ↔ NeverPrefilled s object

theorem dispatchedToPrefill_iff {request : ASRRequest} :
    DispatchedToPrefill request ↔ request.phase = .prefill := by
  constructor
  · exact fun h ↦ h.1
  · intro hphase
    refine ⟨hphase, fun w objectId handle locked hrole ↦ ?_⟩
    rw [Worker.DynamoWorker.handleRequest, hphase, hrole]

/-! ## One route moves -/

-- What a hop leaves of the route it is about.
theorem hop_route (s : System) (call : Nat) (r : Route) (role : RequestPhase)
    (suspended : RoutePhase) :
    ∃ r', (hop s call r role suspended).routes = s.routes.set call r' ∧
      (hop s call r role suspended).requests = s.requests ∧
      r'.object = r.object ∧ r'.prefillResult = r.prefillResult ∧
      ((∃ e, chooseWorker s.registry role (s.requests r.object) = .error e ∧ r'.calls = r.calls) ∨
        ∃ w c, chooseWorker s.registry role (s.requests r.object) = .ok w ∧
          r'.calls = r.calls ++ [c] ∧ c.role = role ∧ c.worker = w) := by
  rcases hop_eq s call r role suspended with ⟨e, he, hhop⟩ | ⟨w, c, hw, hrole, hworker, hhop⟩
  · rw [hhop]
    exact ⟨_, rfl, rfl, rfl, rfl, .inl ⟨e, he, rfl⟩⟩
  · rw [hhop]
    exact ⟨_, rfl, rfl, rfl, rfl, .inr ⟨w, c, hw, rfl, hrole, hworker⟩⟩

theorem neverPrefilled_set {call : Nat} {r' : Route} (hroutes : s'.routes = s.routes.set call r')
    (hsame : (r'.object = object → r'.prefillResult = none) ↔
      ∀ r, s.routes.get? call = some r → r.object = object → r.prefillResult = none) :
    NeverPrefilled s' object ↔ NeverPrefilled s object := by
  unfold NeverPrefilled
  rw [hroutes]
  constructor
  · intro h k r hk
    by_cases hcall : k = call
    · subst hcall
      exact hsame.mp (h k r' (Dict.get?_set_self ..)) r hk
    · exact h k r (by rw [Dict.get?_set_of_ne _ _ hcall, hk])
  · intro h k r hk
    rcases Dict.get?_set_cases hk with ⟨-, rfl⟩ | ⟨-, hold⟩
    · exact hsame.mpr (h call)
    · exact h k r hold

theorem not_presents_of_routes_eq (hroutes : s'.routes = s.routes) :
    ¬ Presents s s' object := by
  rintro ⟨call, r, c, hr, -, hcalls, -⟩
  rw [System.callsOf, ← hroutes, hr] at hcalls
  simp at hcalls

-- Only the route that moves can have made a call.
theorem presents_set {call : Nat} {r' : Route} (hroutes : s'.routes = s.routes.set call r') :
    Presents s s' object ↔
      r'.object = object ∧ ∃ c, r'.calls = s.callsOf call ++ [c] ∧ c.role = .prefill := by
  constructor
  · rintro ⟨k, r, c, hk, hobject, hcalls, hrole⟩
    rw [hroutes] at hk
    rcases Dict.get?_set_cases hk with ⟨rfl, rfl⟩ | ⟨-, hold⟩
    · exact ⟨hobject, c, hcalls, hrole⟩
    · rw [System.callsOf, hold] at hcalls
      simp at hcalls
  · rintro ⟨hobject, c, hcalls, hrole⟩
    exact ⟨call, r', c, by rw [hroutes, Dict.get?_set_self], hobject, hcalls, hrole⟩

-- A route that ends makes no call.
theorem not_presents_finish {call : Nat} {r : Route} {phase : RoutePhase} {t : System}
    (hr : s.routes.get? call = some r) (hroutes : t.routes = s.routes) :
    ¬ Presents s (finish t call r phase) object := by
  intro h
  obtain ⟨-, c, hcalls, -⟩ := (presents_set (finish_routes hroutes call r phase)).mp h
  rw [System.callsOf, hr] at hcalls
  simp at hcalls

theorem Moves.presents_iff {event : Event} (h : Moves s event s') :
    Presents s s' object ↔ event.starts = some object ∧
      ∃ w, chooseWorker s.registry .prefill (s.requests object) = .ok w := by
  cases h with
  | @begins call started now hnew hfree =>
    obtain ⟨r', hroutes, -, hobject, -, hcase⟩ := hop_route
      { s with inFlight := s.inFlight.set (s.requests started).requestId started } call
      { object := started, phase := .prefill now } .prefill (.prefill now)
    have hnone : s.callsOf call = [] := by rw [System.callsOf, Dict.not_mem_iff.mp hnew]; rfl
    rw [presents_set (s := s) hroutes, hobject, hnone, Event.starts, Option.some.injEq]
    apply and_congr_right
    rintro rfl
    rcases hcase with ⟨e, he, hcalls⟩ | ⟨w, c, hw, hcalls, hrole, -⟩
    · rw [hcalls, show chooseWorker s.registry .prefill (s.requests started) = .error e from he]
      simp
    · exact iff_of_true ⟨c, hcalls, hrole⟩ ⟨w, hw⟩
  | @handsOver call r t0 now t1 kvHandle hr hphase =>
    obtain ⟨r', hroutes, -, -, -, hcase⟩ := hop_route
      (acceptHandle s r.object kvHandle (now - t0)) call
      { r with prefillResult := some kvHandle } .decode (.decode t1)
    apply iff_of_false _ (by simp [Event.starts])
    rw [presents_set (s := s) hroutes, System.callsOf, hr]
    rintro ⟨-, c, hcalls, hrole⟩
    rcases hcase with ⟨e, -, hsame⟩ | ⟨w, d, -, hmore, hdecode, -⟩
    · rw [hsame] at hcalls
      simp at hcalls
    · -- the call made is a decode call
      rw [hmore] at hcalls
      have hcd : d = c := List.singleton_inj.mp (List.append_cancel_left hcalls)
      rw [← hcd, hdecode] at hrole
      cases hrole
  | prefillRaises hr hphase =>
    exact iff_of_false (not_presents_finish hr rfl) (by simp [Event.starts])
  | returns hr hphase =>
    exact iff_of_false (not_presents_finish hr rfl) (by simp [Event.starts])
  | decodeRaises hr hphase =>
    exact iff_of_false (not_presents_finish hr rfl) (by simp [Event.starts])
  | registry registry hstarts =>
    exact iff_of_false (not_presents_of_routes_eq rfl) (by simp [hstarts])

theorem neverPrefilled_finish {call : Nat} {r : Route} {phase : RoutePhase} {t : System}
    (hr : s.routes.get? call = some r) (hroutes : t.routes = s.routes) :
    NeverPrefilled (finish t call r phase) object ↔ NeverPrefilled s object := by
  apply neverPrefilled_set (finish_routes hroutes call r phase)
  rw [hr]
  simp

theorem PhaseSound.step {event : Event} (h : PhaseSound object s) (hmoves : Moves s event s') :
    PhaseSound object s' := by
  unfold PhaseSound at *
  cases hmoves with
  | @begins call started now hnew hfree =>
    obtain ⟨r', hroutes, hrequests, -, hresult, -⟩ := hop_route
      { s with inFlight := s.inFlight.set (s.requests started).requestId started } call
      { object := started, phase := .prefill now } .prefill (.prefill now)
    rw [hrequests, neverPrefilled_set (s := s) hroutes]
    · exact h
    · simp [hresult, Dict.not_mem_iff.mp hnew]
  | @handsOver call r t0 now t1 kvHandle hr hphase =>
    obtain ⟨r', hroutes, hrequests, hobject, hresult, -⟩ := hop_route
      (acceptHandle s r.object kvHandle (now - t0)) call
      { r with prefillResult := some kvHandle } .decode (.decode t1)
    rw [hrequests]
    by_cases hsame : r.object = object
    · -- the object has been handed over: its phase is DECODE and this route has its result
      subst hsame
      apply iff_of_false
      · simp [acceptHandle]
      · intro hnever
        have hnone := hnever call r' (by rw [hroutes, Dict.get?_set_self]) hobject
        rw [hresult] at hnone
        cases hnone
    · rw [neverPrefilled_set (s := s) hroutes]
      · have hframe : (acceptHandle s r.object kvHandle (now - t0)).requests object =
            s.requests object := Function.update_of_ne (Ne.symm hsame) _ _
        rw [hframe]
        exact h
      · simp [hobject, hr, hsame]
  | prefillRaises hr hphase =>
    rw [neverPrefilled_finish hr rfl]
    exact h
  | @returns call r t1 now transcript hr hphase =>
    rw [neverPrefilled_finish (t := complete s (now - t1)) hr rfl]
    exact h
  | decodeRaises hr hphase =>
    rw [neverPrefilled_finish hr rfl]
    exact h
  | registry registry hstarts => exact h

/-! ## Whole runs -/

theorem PhaseSound.presentedReady_iff {event : Event} (h : PhaseSound object s)
    (hmoves : Moves s event s') :
    PresentedReady object s event s' ↔ RetriedBeforePrefill object s event s' := by
  rw [PresentedReady, hmoves.presents_iff, dispatchedToPrefill_iff, and_imp, RetriedBeforePrefill]
  apply imp_congr_right
  intro hstarts
  apply imp_congr_right
  intro _
  rw [← show (s.requests object).phase = .prefill ↔ NeverPrefilled s object from h]
  -- starting a route leaves the requests as they are
  cases hmoves with
  | @begins call started now hnew hfree =>
    obtain ⟨-, -, hrequests, -⟩ := hop_route
      { s with inFlight := s.inFlight.set (s.requests started).requestId started } call
      { object := started, phase := .prefill now } .prefill (.prefill now)
    rw [hrequests]
  | registry registry hnone => exact Iff.rfl
  | _ => cases hstarts

/-- A request that starts in phase PREFILL is ready at every prefill worker it is presented to just
when each attempt that finds one comes after attempts that died before their prefill returned. -/
theorem presented_ready_iff (registry : WorkerRegistry) (requests : Nat → ASRRequest)
    (object : Nat) (hphase : (requests object).phase = .prefill) (events : List Event) :
    Along step (PresentedReady object) (.idle registry requests) events ↔
      Along step (RetriedBeforePrefill object) (.idle registry requests) events := by
  apply along_congr (I := PhaseSound object)
  · exact fun s event s' h hstep ↦ h.presentedReady_iff (step_moves hstep)
  · exact fun s event s' h hstep _ ↦ h.step (step_moves hstep)
  · apply iff_of_true hphase
    intro call r hr
    cases hr

-- The first attempt finds no prefill worker, the second loses its prefill call, the third returns.
def retriedInTime : List Event :=
  [.route 0 0 0,
    .register { workerId := "prefill-0", role := .prefill, address := "10.0.1.10:50051" },
    .register { workerId := "decode-0", role := .decode, address := "10.0.2.10:50051" },
    .route 1 0 1, .prefillRaised 1, .route 2 0 2, .prefillReturned 2 (some "kv-a") 3 3,
    .decodeReturned 2 "hello world" 4]

theorem retriedInTime_ready_iff :
    Along step (PresentedReady 0) (.idle {} fun _ ↦ { requestId := "demo-001" }) retriedInTime ↔
      Along step (RetriedBeforePrefill 0) (.idle {} fun _ ↦ { requestId := "demo-001" })
        retriedInTime :=
  presented_ready_iff {} (fun _ ↦ { requestId := "demo-001" }) 0 rfl retriedInTime

-- The first attempt has its prefill done and then finds no decode worker.
def diedBetweenHops : List Event :=
  [.register { workerId := "prefill-0", role := .prefill, address := "10.0.1.10:50051" },
    .route 0 0 0, .prefillReturned 0 (some "kv-a") 1 1,
    .register { workerId := "decode-0", role := .decode, address := "10.0.2.10:50051" }]

/-- The second attempt presents the request to a prefill worker in phase DECODE. -/
theorem retry_in_phase_decode :
    ¬ Along step (PresentedReady 0) (.idle {} fun _ ↦ { requestId := "demo-001" })
      (diedBetweenHops ++ [.route 1 0 2]) := by
  intro h
  have hready := along_iff_split.mp h diedBetweenHops (.route 1 0 2) [] _ _ rfl rfl rfl
  have hphase := (hready ⟨1, _, _, rfl, rfl, rfl, rfl⟩).1
  exact absurd hphase (by decide +kernel)

end AsrServe.DynamoOrchestration.Router
