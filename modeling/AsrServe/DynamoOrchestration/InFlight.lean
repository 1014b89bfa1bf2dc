import AsrServe.DynamoOrchestration.RouterSafety

/-!
# The in-flight table of the router

`_in_flight` against the routes that are under way, for any overlap of routes and any choice of
request ids.
-/

open AsrServe.Reasoning

namespace AsrServe.DynamoOrchestration.Router

/-- A route of the object has started and not yet finished. -/
def System.routing (s : System) (object : Nat) : Prop :=
  ∃ call r, s.routes.get? call = some r ∧ r.inProgress = true ∧ r.object = object

/-- The table stores exactly the objects being routed. -/
def Tracked (s : System) : Prop :=
  ∀ object, object ∈ s.inFlight.values ↔ s.routing object

def System.idOf (s : System) (object : Nat) : String := (s.requests object).requestId

/-- A route starts under an id that no object being routed has. -/
def StartsUnderFreshId (s : System) (event : Event) (_ : System) : Prop :=
  ∀ object, event.starts = some object → ∀ other, s.routing other → s.idOf other ≠ s.idOf object

structure Filed (s : System) : Prop extends Inv s where
  keyed : Dict.Keyed s.idOf s.inFlight
  tracked : Tracked s

/-! ## Which objects are being routed -/

variable {s s' : System}

-- One route changes, the only one in progress about its object.
theorem routing_set {call : Nat} {r' : Route} (hroutes : s'.routes = s.routes.set call r')
    (hold : ∀ r, s.routes.get? call = some r → r.object = r'.object)
    (hsole : ∀ k r, s.routes.get? k = some r → r.inProgress = true → r.object = r'.object →
      k = call) (object : Nat) :
    s'.routing object ↔ if object = r'.object then r'.inProgress = true else s.routing object := by
  unfold System.routing
  rw [hroutes]
  by_cases hobject : object = r'.object
  · rw [if_pos hobject]
    constructor
    · rintro ⟨k, r, hk, hprogress, hr⟩
      rcases Dict.get?_set_cases hk with ⟨-, rfl⟩ | ⟨hcall, hold⟩
      · exact hprogress
      · exact absurd (hsole k r hold hprogress (hr.trans hobject)) hcall
    · intro hprogress
      exact ⟨call, r', Dict.get?_set_self .., hprogress, hobject.symm⟩
  · rw [if_neg hobject]
    constructor
    · rintro ⟨k, r, hk, hprogress, hr⟩
      rcases Dict.get?_set_cases hk with ⟨-, rfl⟩ | ⟨-, hold⟩
      · exact absurd hr.symm hobject
      · exact ⟨k, r, hold, hprogress, hr⟩
    · rintro ⟨k, r, hk, hprogress, hr⟩
      have hcall : k ≠ call := fun heq ↦ hobject (hr ▸ hold r (heq ▸ hk))
      exact ⟨k, r, by rw [Dict.get?_set_of_ne _ _ hcall, hk], hprogress, hr⟩

-- Two objects being routed never share an id.
theorem Filed.eq_of_idOf_eq (h : Filed s) {object other : Nat} (ho : s.routing object)
    (ho' : s.routing other) (hid : s.idOf object = s.idOf other) : object = other := by
  have hget := h.keyed.mem_values_iff.mp ((h.tracked object).mpr ho)
  have hget' := h.keyed.mem_values_iff.mp ((h.tracked other).mpr ho')
  rw [hid, hget', Option.some.injEq] at hget
  exact hget.symm

/-! ## The pieces of a route -/

-- The ids of the requests are never written.
theorem idOf_acceptHandle (object : Nat) (kvHandle : Option String) (seconds : ℚ) :
    (acceptHandle s object kvHandle seconds).idOf = s.idOf := by
  funext other
  by_cases h : other = object
  · subst h
    simp [System.idOf, acceptHandle]
  · simp [System.idOf, acceptHandle, Function.update_of_ne h]

-- A route in progress ends: its object goes out of the table and no other one does.
theorem Filed.finish (h : Filed s) {call : Nat} {r r' : Route} {phase : RoutePhase} {t : System}
    (hr : s.routes.get? call = some r) (hprogress : r.inProgress = true)
    (hobject : r'.object = r.object) (hended : { r' with phase := phase }.inProgress = false)
    (hroutes : t.routes = s.routes) (hinFlight : t.inFlight = s.inFlight)
    (hid : t.idOf = s.idOf) :
    Dict.Keyed (finish t call r' phase).idOf (finish t call r' phase).inFlight ∧
      Tracked (finish t call r' phase) := by
  have hkeyed : Dict.Keyed s.idOf t.inFlight := hinFlight ▸ h.keyed
  have hids : (Router.finish t call r' phase).idOf = s.idOf := hid
  have hset := finish_routes hroutes call r' phase
  constructor
  · rw [hids]
    exact hkeyed.erase _
  · intro object
    show object ∈ (t.inFlight.erase (t.idOf r'.object)).values ↔ _
    rw [hkeyed.mem_values_erase, hinFlight, h.tracked, hid, hobject,
      routing_set (s := s) hset (fun r₁ h₁ ↦ by rw [hr] at h₁; cases h₁; exact hobject.symm)
        (fun k r₁ hk h₁ heq ↦ h.sole hr hprogress k r₁ hk h₁ (heq.trans hobject)) object, hended]
    by_cases heq : object = r.object
    · simp [heq, hobject]
    · rw [if_neg (fun he ↦ heq (he.trans hobject))]
      apply and_iff_left_of_imp
      intro hrouting hsame
      exact heq (h.eq_of_idOf_eq hrouting ⟨call, r, hr, hprogress, rfl⟩ hsame)

-- A route in progress moves on to another call.
theorem Filed.suspend (h : Filed s) {call : Nat} {r r' : Route} (hr : s.routes.get? call = some r)
    (hprogress : r.inProgress = true) (hobject : r'.object = r.object)
    (hprogress' : r'.inProgress = true) (hroutes : s'.routes = s.routes.set call r')
    (hinFlight : s'.inFlight = s.inFlight) (hid : s'.idOf = s.idOf) :
    Dict.Keyed s'.idOf s'.inFlight ∧ Tracked s' := by
  constructor
  · rw [hid, hinFlight]
    exact h.keyed
  · intro object
    rw [hinFlight, h.tracked, routing_set (s := s) hroutes
      (fun r₁ h₁ ↦ by rw [hr] at h₁; cases h₁; exact hobject.symm)
      (fun k r₁ hk h₁ heq ↦ h.sole hr hprogress k r₁ hk h₁ (heq.trans hobject)) object, hprogress']
    by_cases heq : object = r.object
    · rw [if_pos (heq.trans hobject.symm), heq]
      exact iff_of_true ⟨call, r, hr, hprogress, rfl⟩ rfl
    · rw [if_neg (fun he ↦ heq (he.trans hobject))]

-- A route starts about an object that is not being routed, and who is filed next to it is who was
-- being routed under another id.
theorem tracked_start_iff {call object : Nat} {r' : Route} (hnew : call ∉ s.routes)
    (hidle : ¬ s.routing object) (hroutes : s'.routes = s.routes.set call r')
    (hobject : r'.object = object)
    (hmem : ∀ other, other ∈ s'.inFlight.values ↔ if other = object then r'.inProgress = true
      else s.routing other ∧ s.idOf other ≠ s.idOf object) :
    Tracked s' ↔ ∀ other, s.routing other → s.idOf other ≠ s.idOf object := by
  have hrouting := routing_set hroutes (fun r hr ↦ absurd hr (by simp [Dict.not_mem_iff.mp hnew]))
    (fun k r hk hprogress hr ↦ absurd ⟨k, r, hk, hprogress, hr.trans hobject⟩ hidle)
  apply forall_congr'
  intro other
  rw [hmem, hrouting, hobject]
  by_cases hother : other = object
  · rw [if_pos hother, if_pos hother]
    exact iff_of_true Iff.rfl fun h ↦ absurd (hother ▸ h) hidle
  · rw [if_neg hother, if_neg hother]
    exact and_iff_left_iff_imp

-- A route that starts puts out whoever was filed under its id, whether it is suspended in its first
-- call or has already raised.
theorem Filed.begin (h : Filed s) {call object : Nat} {now : ℚ} (hnew : call ∉ s.routes)
    (hfree : ¬ ∃ r ∈ s.routes.values, r.inProgress = true ∧ r.object = object)
    (hs' : s' = hop { s with inFlight := s.inFlight.set (s.idOf object) object } call
      { object, phase := .prefill now } .prefill (.prefill now)) :
    Dict.Keyed s'.idOf s'.inFlight ∧
      (Tracked s' ↔ ∀ other, s.routing other → s.idOf other ≠ s.idOf object) := by
  have hidle : ¬ s.routing object := by
    rintro ⟨k, r, hk, hprogress, hr⟩
    exact hfree ⟨r, Dict.mem_values_iff.mpr ⟨k, hk⟩, hprogress, hr⟩
  rcases hop_eq { s with inFlight := s.inFlight.set (s.idOf object) object } call
    { object, phase := .prefill now } .prefill (.prefill now) with
    ⟨e, -, hhop⟩ | ⟨w, c, -, -, -, hhop⟩
  · rw [hhop] at hs'
    constructor
    · rw [hs']
      exact (h.keyed.set object).erase _
    · refine tracked_start_iff hnew hidle (by rw [hs']; rfl) rfl fun other ↦ ?_
      have hmem : other ∈ s'.inFlight.values ↔
          (other = object ∨ s.routing other ∧ s.idOf other ≠ s.idOf object) ∧
            s.idOf other ≠ s.idOf object := by
        rw [← h.tracked, ← h.keyed.mem_values_set, ← (h.keyed.set object).mem_values_erase, hs']
        rfl
      rw [hmem]
      by_cases hother : other = object
      · simp [hother, Route.inProgress]
      · rw [if_neg hother, or_iff_right hother, and_assoc, and_self]
  · rw [hhop] at hs'
    have hinFlight : s'.inFlight = s.inFlight.set (s.idOf object) object := by rw [hs']
    have hid : s'.idOf = s.idOf := by rw [hs']; rfl
    constructor
    · rw [hid, hinFlight]
      exact h.keyed.set object
    · refine tracked_start_iff hnew hidle (by rw [hs']) rfl fun other ↦ ?_
      rw [hinFlight, h.keyed.mem_values_set, h.tracked]
      by_cases hother : other = object
      · simp [hother, Route.inProgress]
      · rw [if_neg hother, or_iff_right hother]

/-! ## Whole runs -/

-- What a step that starts no route, or one under a fresh id, leaves.
theorem Filed.moves (h : Filed s) {event : Event} (hmoves : Moves s event s') :
    Dict.Keyed s'.idOf s'.inFlight ∧ (Tracked s' ↔ StartsUnderFreshId s event s') := by
  have hstarts {event : Event} (hnone : event.starts = none) : StartsUnderFreshId s event s' :=
    fun object hobject ↦ by rw [hnone] at hobject; cases hobject
  have hkept {event : Event} (hnone : event.starts = none)
      (hnext : Dict.Keyed s'.idOf s'.inFlight ∧ Tracked s') :
      Dict.Keyed s'.idOf s'.inFlight ∧ (Tracked s' ↔ StartsUnderFreshId s event s') :=
    ⟨hnext.1, iff_of_true hnext.2 (hstarts hnone)⟩
  cases hmoves with
  | begins hnew hfree =>
    obtain ⟨hkeyed, htracked⟩ := h.begin hnew hfree rfl
    refine ⟨hkeyed, htracked.trans ?_⟩
    simp [StartsUnderFreshId, Event.starts]
  | @handsOver call r t0 now t1 kvHandle hr hphase =>
    have hprogress : r.inProgress = true := by rw [Route.inProgress, hphase]
    apply hkept rfl
    have hid := idOf_acceptHandle (s := s) r.object kvHandle (now - t0)
    rcases hop_eq (acceptHandle s r.object kvHandle (now - t0)) call
      { r with prefillResult := some kvHandle } .decode (.decode t1) with
      ⟨e, -, hhop⟩ | ⟨w, c, -, -, -, hhop⟩
    · rw [hhop]
      exact h.finish hr hprogress rfl rfl rfl rfl hid
    · rw [hhop]
      refine h.suspend hr hprogress ?_ ?_ rfl rfl hid
      · rfl
      · rfl
  | prefillRaises hr hphase =>
    exact hkept rfl (h.finish hr (by rw [Route.inProgress, hphase]) rfl rfl rfl rfl rfl)
  | returns hr hphase =>
    exact hkept rfl (h.finish hr (by rw [Route.inProgress, hphase]) rfl rfl rfl rfl rfl)
  | decodeRaises hr hphase =>
    exact hkept rfl (h.finish hr (by rw [Route.inProgress, hphase]) rfl rfl rfl rfl rfl)
  | registry registry hnone => exact hkept hnone ⟨h.keyed, h.tracked⟩

theorem filed_idle (registry : WorkerRegistry) (requests : Nat → ASRRequest) :
    Filed (.idle registry requests) where
  toInv := inv_idle registry requests
  keyed := Dict.keyed_empty
  tracked := fun object ↦ iff_of_false (fun h ↦ by cases h) (by
    rintro ⟨call, r, hr, -⟩
    cases hr)

/-- In every state of a run the table stores exactly the objects being routed just when every route
starts under an id that none of them has. -/
theorem in_flight_tracked_iff (registry : WorkerRegistry) (requests : Nat → ASRRequest)
    (events : List Event) :
    Along step (fun _ _ s' ↦ Tracked s') (.idle registry requests) events ↔
      Along step StartsUnderFreshId (.idle registry requests) events := by
  apply along_congr (I := Filed)
  · exact fun s event s' h hstep ↦ (h.moves (step_moves hstep)).2
  · exact fun s event s' h hstep htracked ↦
      { toInv := h.toInv.step event hstep
        keyed := (h.moves (step_moves hstep)).1
        tracked := htracked }
  · exact filed_idle registry requests

-- Two requests under one id, the second routed while the first waits for its prefill.
def sharedId : List Event :=
  [.register { workerId := "prefill-0", role := .prefill, address := "10.0.1.10:50051" },
    .route 0 0 0]

/-- The second request takes the place of the first, which is still being routed. -/
theorem shared_id_untracked :
    ¬ Along step (fun _ _ s' ↦ Tracked s') (.idle {} fun _ ↦ { requestId := "demo-001" })
      (sharedId ++ [.route 1 1 0]) := by
  intro h
  have htracked := along_iff_split.mp h sharedId (.route 1 1 0) [] _ _ rfl rfl rfl
  have hstored := (htracked 0).mpr ⟨0, _, rfl, rfl, rfl⟩
  exact absurd hstored (by decide +kernel)

end AsrServe.DynamoOrchestration.Router
