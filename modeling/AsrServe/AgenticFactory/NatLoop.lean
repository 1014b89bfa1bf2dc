import AsrServe.AgenticFactory.NatAgent
import AsrServe.Reasoning.Dict
import AsrServe.Reasoning.Double
import AsrServe.Reasoning.Runs

/-!
# The loop of the agent (`NATAgent` in `agentic-factory/src/nat_agent.py`)

`run` as a machine that stands still at each `await`.  The next event says what the awaited call
has come to: an observation, a reply of the language model, the end of a tool call, or an
exception.  `stop` may be called at any time.
-/

open AsrServe.Reasoning

namespace AsrServe.AgenticFactory

/-- What the stub looks at; the other fields only go into the prompt. -/
structure FactoryObservation where
  activeWer : Double := .round false 1 0
  candidateModels : List (Dict String JsonValue) := []
  clusterLoad : Double := .round false 0 0

namespace NATAgent

-- The double `0.8`.
@[irreducible] def maxLoad : Double := .round false 7205759403792794 (-53)

-- The double `0.10`.
@[irreducible] def maxWer : Double := .round false 7205759403792794 (-56)

def raiseTtl (obs : FactoryObservation) : AgentAction where
  actionType := .str "set_hint"
  parameters := .dict [("key", .str "kv_ttl_ms"), ("value", .int 750)]
  rationale := .str ("Cluster load " ++ (obs.clusterLoad.scale 100).fixed 1 ++
    "% > 80%; increasing KV cache TTL to reduce eviction pressure.")

variable (isPrintable : Char → Bool) (loads : String → Except PyException JsonValue)
  (hasAgent : Bool)

def evaluateCandidate (obs : FactoryObservation) (modelId : JsonValue) : AgentAction where
  actionType := .str "evaluate"
  parameters := .dict [("model_id", modelId)]
  rationale := .str ("Active WER=" ++ obs.activeWer.fixed 3 ++
    " exceeds 0.10; evaluating candidate " ++ modelId.text isPrintable ++ ".")

def noop : AgentAction where
  actionType := .str "noop"
  rationale := .str "Metrics within acceptable range; no action required."

-- `not c.get("is_active")`.
def inactive (c : Dict String JsonValue) : Bool := !((c.get? "is_active").getD .null).truthy

-- The evaluation of the first candidate that is not active, if there is one.
def stubSearch (obs : FactoryObservation) : Except PyException (List AgentAction) :=
  match obs.candidateModels.find? inactive with
  | none => .ok []
  | some c =>
    match c.get? "model_id" with
    | none => .error .keyError
    | some modelId => .ok [evaluateCandidate isPrintable obs modelId]

def stubReason (obs : FactoryObservation) : Except PyException (List AgentAction) := do
  let hot := if maxLoad.lt obs.clusterLoad then [raiseTtl obs] else []
  let search ← if maxWer.lt obs.activeWer then stubSearch isPrintable obs else .ok []
  let actions := hot ++ search
  return if actions.isEmpty then [noop] else actions

/-- The tool an action calls, with its arguments; any other type calls none. -/
def toolCall (a : AgentAction) : Option (String × JsonValue) :=
  match a.actionType with
  | .str "evaluate" => some ("evaluate_model", a.parameters)
  | .str "promote" => some ("promote_model", a.parameters)
  | .str "set_hint" => some ("set_agent_hint", a.parameters)
  | _ => none

/-- One round of the loop: what was decided, how much of it was done, and whether an exception cut
it short. -/
structure Cycle where
  decided : List AgentAction := []
  taken : List AgentAction := []
  raised : Bool := false

/-- Where `run` stands. -/
inductive Phase where
  | idle
  | observing
  | replying
  -- In a tool call of the cycle, with the actions that come after it.
  | calling (cycle : Cycle) (rest : List AgentAction)
  | sleeping
  | ended

/-- The agent, and for each tool call and each cycle so far what they were. -/
structure Loop where
  running : Bool := false
  cycleCount : Nat := 0
  actionsTaken : List AgentAction := []
  phase : Phase := .idle
  calls : List (String × JsonValue) := []
  cycles : List Cycle := []

inductive Event where
  | start
  | observed (result : Except PyException FactoryObservation)
  | replied (response : Except PyException String)
  | called (result : Except PyException String)
  | woke
  | stop
  -- The task is cancelled, which `except Exception` does not catch.
  | cancel

-- The end of a round, on the way to `asyncio.sleep`.
def Loop.finish (s : Loop) (cycle : Cycle) : Loop :=
  { s with phase := .sleeping, cycles := s.cycles ++ [cycle] }

/-- `execute_actions` up to its next tool call. -/
def Loop.execute (s : Loop) (cycle : Cycle) : List AgentAction → Loop
  | [] => s.finish cycle
  | action :: rest =>
    let s := { s with actionsTaken := s.actionsTaken ++ [action] }
    let cycle := { cycle with taken := cycle.taken ++ [action] }
    match toolCall action with
    | none => s.execute cycle rest
    | some call => { s with calls := s.calls ++ [call], phase := .calling cycle rest }

-- `reason` has returned or raised.
def Loop.reasoned (s : Loop) : Except PyException (List AgentAction) → Loop
  | .error _ => s.finish { raised := true }
  | .ok actions => s.execute { decided := actions } actions

-- The head of the `while`.
def Loop.next (s : Loop) : Loop :=
  if s.running then { s with cycleCount := s.cycleCount + 1, phase := .observing }
  else { s with phase := .ended }

-- The round at hand, if there is one.
def Phase.cycle? : Phase → Option Cycle
  | .observing => some {}
  | .replying => some {}
  | .calling cycle _ => some cycle
  | _ => none

def Phase.awaiting : Phase → Bool
  | .idle => false
  | .ended => false
  | _ => true

def step (s : Loop) : Event → Option Loop
  | .stop => some { s with running := false }
  | .start => if s.phase.awaiting then none else some { s with running := true }.next
  | .cancel =>
    if s.phase.awaiting then
      some { s with
        phase := .ended
        cycles := s.cycles ++ (s.phase.cycle?.map fun c ↦ { c with raised := true }).toList }
    else none
  | .observed result =>
    match s.phase, result with
    | .observing, .error _ => some (s.finish { raised := true })
    | .observing, .ok obs =>
      if hasAgent then some { s with phase := .replying }
      else some (s.reasoned (stubReason isPrintable obs))
    | _, _ => none
  | .replied response =>
    match s.phase with
    | .replying => some (s.reasoned (response >>= parseActions loads))
    | _ => none
  | .called result =>
    match s.phase, result with
    | .calling cycle _, .error _ => some (s.finish { cycle with raised := true })
    | .calling cycle rest, .ok _ => some (s.execute cycle rest)
    | _, _ => none
  | .woke =>
    match s.phase with
    | .sleeping => some s.next
    | _ => none

/-! ## What an event does -/

inductive Moves (s : Loop) : Event → Loop → Prop where
  | stops : Moves s .stop { s with running := false }
  | starts (hphase : s.phase.awaiting = false) : Moves s .start { s with running := true }.next
  | cancels (hphase : s.phase.awaiting = true) : Moves s .cancel { s with
      phase := .ended
      cycles := s.cycles ++ (s.phase.cycle?.map fun c ↦ { c with raised := true }).toList }
  | observationFails {e : PyException} (hphase : s.phase = .observing) :
    Moves s (.observed (.error e)) (s.finish { raised := true })
  | asks {obs : FactoryObservation} (hphase : s.phase = .observing) (hagent : hasAgent = true) :
    Moves s (.observed (.ok obs)) { s with phase := .replying }
  | stubReasons {obs : FactoryObservation} (hphase : s.phase = .observing)
      (hagent : hasAgent = false) :
    Moves s (.observed (.ok obs)) (s.reasoned (stubReason isPrintable obs))
  | replies {response : Except PyException String} (hphase : s.phase = .replying) :
    Moves s (.replied response) (s.reasoned (response >>= parseActions loads))
  | callFails {e : PyException} {cycle : Cycle} {rest : List AgentAction}
      (hphase : s.phase = .calling cycle rest) :
    Moves s (.called (.error e)) (s.finish { cycle with raised := true })
  | callReturns {text : String} {cycle : Cycle} {rest : List AgentAction}
      (hphase : s.phase = .calling cycle rest) :
    Moves s (.called (.ok text)) (s.execute cycle rest)
  | wakes (hphase : s.phase = .sleeping) : Moves s .woke s.next

variable {isPrintable loads hasAgent} {s s' : Loop} {event : Event}

theorem step_moves (hstep : step isPrintable loads hasAgent s event = some s') :
    Moves isPrintable loads hasAgent s event s' := by
  cases event with
  | stop =>
    cases hstep
    exact .stops
  | start =>
    rw [step, Option.ite_none_left_eq_some, Option.some.injEq, Bool.not_eq_true] at hstep
    obtain ⟨hphase, rfl⟩ := hstep
    exact .starts hphase
  | cancel =>
    rw [step, Option.ite_none_right_eq_some, Option.some.injEq] at hstep
    obtain ⟨hphase, rfl⟩ := hstep
    exact .cancels hphase
  | observed result =>
    simp only [step] at hstep
    split at hstep
    · rename_i e hphase
      cases hstep
      exact .observationFails hphase
    · rename_i obs hphase
      split at hstep
      · rename_i hagent
        cases hstep
        exact .asks hphase hagent
      · rename_i hagent
        rw [Bool.not_eq_true] at hagent
        cases hstep
        exact .stubReasons hphase hagent
    · cases hstep
  | replied response =>
    simp only [step] at hstep
    split at hstep
    · rename_i hphase
      cases hstep
      exact .replies hphase
    · cases hstep
  | called result =>
    simp only [step] at hstep
    split at hstep
    · rename_i cycle rest e hphase
      cases hstep
      exact .callFails hphase
    · rename_i cycle rest text hphase
      cases hstep
      exact .callReturns hphase
    · cases hstep
  | woke =>
    simp only [step] at hstep
    split at hstep
    · rename_i hphase
      cases hstep
      exact .wakes hphase
    · cases hstep

/-! ## The journal -/

-- What the round at hand has done so far.
def Phase.taken : Phase → List AgentAction
  | .calling cycle _ => cycle.taken
  | _ => []

/-- `actions` are what `reason` made of an observation or of a reply. -/
def Decided (isPrintable : Char → Bool) (loads : String → Except PyException JsonValue)
    (hasAgent : Bool) (events : List Event) (actions : List AgentAction) : Prop :=
  (hasAgent = false ∧ ∃ obs, .observed (.ok obs) ∈ events ∧
    stubReason isPrintable obs = .ok actions) ∨
  hasAgent = true ∧ ∃ response, .replied (.ok response) ∈ events ∧
    parseActions loads response = .ok actions

/-- A round that is over has done what was decided, or a first part of it up to the tool call that
raised. -/
structure Cycle.Sound (c : Cycle) : Prop where
  taken_initial : c.taken <+: c.decided
  whole : c.raised = false → c.taken = c.decided
  cut : c.raised = true → c.taken = [] ∨ ∃ before a call, c.taken = before ++ [a] ∧
    toolCall a = some call

/-- The cycle of a tool call: `rest` is what remains of it. -/
structure Cycle.Underway (c : Cycle) (rest : List AgentAction) : Prop where
  decided_eq : c.decided = c.taken ++ rest
  raised_eq : c.raised = false

/-- The record the agent keeps agrees with what it has called and with what it has decided. -/
structure Journal (isPrintable : Char → Bool) (loads : String → Except PyException JsonValue)
    (hasAgent : Bool) (events : List Event) (s : Loop) : Prop where
  calls_eq : s.calls = s.actionsTaken.filterMap toolCall
  taken_eq : s.actionsTaken = s.cycles.flatMap Cycle.taken ++ s.phase.taken
  sound : ∀ c ∈ s.cycles, c.Sound
  decided : ∀ c, c ∈ s.cycles ∨ s.phase.cycle? = some c →
    c.decided = [] ∨ Decided isPrintable loads hasAgent events c.decided
  underway : ∀ c rest, s.phase = .calling c rest →
    c.Underway rest ∧ ∃ before a call, c.taken = before ++ [a] ∧ toolCall a = some call
  count : s.cycleCount = s.cycles.length + s.phase.cycle?.toList.length
  asked : s.phase = .replying → hasAgent = true

variable {events : List Event} {cycle : Cycle} {rest : List AgentAction}

theorem Decided.mono {actions : List AgentAction}
    (h : Decided isPrintable loads hasAgent events actions) (event : Event) :
    Decided isPrintable loads hasAgent (events ++ [event]) actions := by
  rcases h with ⟨hagent, obs, hmem, hreason⟩ | ⟨hagent, response, hmem, hparse⟩
  · exact .inl ⟨hagent, obs, List.mem_append_left _ hmem, hreason⟩
  · exact .inr ⟨hagent, response, List.mem_append_left _ hmem, hparse⟩

/-- A journal in which `cycle` is the round at hand, whatever the phase says. -/
structure Open (isPrintable : Char → Bool) (loads : String → Except PyException JsonValue)
    (hasAgent : Bool) (events : List Event) (s : Loop) (cycle : Cycle) : Prop where
  calls_eq : s.calls = s.actionsTaken.filterMap toolCall
  taken_eq : s.actionsTaken = s.cycles.flatMap Cycle.taken ++ cycle.taken
  sound : ∀ c ∈ s.cycles, c.Sound
  decided : ∀ c, c ∈ s.cycles ∨ c = cycle →
    c.decided = [] ∨ Decided isPrintable loads hasAgent events c.decided
  count : s.cycleCount = s.cycles.length + 1

-- The round ends.
theorem Open.finish (h : Open isPrintable loads hasAgent events s cycle) (hsound : cycle.Sound) :
    Journal isPrintable loads hasAgent events (s.finish cycle) where
  calls_eq := h.calls_eq
  taken_eq := by
    show s.actionsTaken = (s.cycles ++ [cycle]).flatMap Cycle.taken ++ []
    rw [h.taken_eq, List.flatMap_append, List.flatMap_singleton, List.append_nil]
  sound := by
    intro c hc
    rcases List.mem_append.mp hc with hc | hc
    · exact h.sound c hc
    · rw [List.mem_singleton.mp hc]
      exact hsound
  decided := by
    rintro c (hc | hc)
    · rcases List.mem_append.mp hc with hc | hc
      · exact h.decided c (.inl hc)
      · exact h.decided c (.inr (List.mem_singleton.mp hc))
    · cases hc
  underway := by
    intro c rest hphase
    cases hphase
  count := by
    show s.cycleCount = (s.cycles ++ [cycle]).length + 0
    rw [h.count, List.length_append, List.length_singleton]
  asked := by
    intro hphase
    cases hphase

-- What is carried out is written down first.
theorem Open.execute (h : Open isPrintable loads hasAgent events s cycle)
    (hunderway : cycle.Underway rest) :
    Journal isPrintable loads hasAgent events (s.execute cycle rest) := by
  induction rest generalizing s cycle with
  | nil =>
    have hwhole : cycle.taken = cycle.decided := by
      rw [hunderway.decided_eq, List.append_nil]
    refine h.finish ⟨hwhole ▸ List.prefix_rfl, fun _ ↦ hwhole, fun hraised ↦ ?_⟩
    rw [hunderway.raised_eq] at hraised
    cases hraised
  | cons action rest ih =>
    have hunderway' : Cycle.Underway { cycle with taken := cycle.taken ++ [action] } rest := by
      refine ⟨?_, hunderway.raised_eq⟩
      show cycle.decided = cycle.taken ++ [action] ++ rest
      rw [hunderway.decided_eq, List.append_assoc, List.singleton_append]
    have htaken : s.actionsTaken ++ [action] =
        s.cycles.flatMap Cycle.taken ++ (cycle.taken ++ [action]) := by
      rw [h.taken_eq, List.append_assoc]
    have hdecided : ∀ c, c ∈ s.cycles ∨ c = { cycle with taken := cycle.taken ++ [action] } →
        c.decided = [] ∨ Decided isPrintable loads hasAgent events c.decided := by
      rintro c (hc | rfl)
      · exact h.decided c (.inl hc)
      · exact h.decided cycle (.inr rfl)
    rw [Loop.execute]
    cases hcall : toolCall action with
    | none =>
      refine ih ⟨?_, htaken, h.sound, hdecided, h.count⟩ hunderway'
      rw [List.filterMap_append, List.filterMap_cons_none hcall, List.filterMap_nil,
        List.append_nil]
      exact h.calls_eq
    | some call =>
      refine ⟨?_, htaken, h.sound, ?_, ?_, h.count, fun hphase ↦ (by cases hphase)⟩
      · show s.calls ++ [call] = (s.actionsTaken ++ [action]).filterMap toolCall
        rw [List.filterMap_append, List.filterMap_cons_some hcall, List.filterMap_nil, h.calls_eq]
      · rintro c (hc | hc)
        · exact hdecided c (.inl hc)
        · exact hdecided c (.inr (Option.some.inj hc).symm)
      · intro c rest' hphase
        obtain ⟨rfl, rfl⟩ := Phase.calling.inj hphase
        exact ⟨hunderway', cycle.taken, action, call, rfl, hcall⟩

-- The journal of a state whose round is `cycle`.
theorem Journal.opened (h : Journal isPrintable loads hasAgent events s)
    (hcycle : s.phase.cycle? = some cycle) :
    Open isPrintable loads hasAgent events s cycle where
  calls_eq := h.calls_eq
  taken_eq := by
    have htaken : s.phase.taken = cycle.taken := by
      cases hphase : s.phase <;> rw [hphase] at hcycle <;> cases hcycle <;> rfl
    rw [h.taken_eq, htaken]
  sound := h.sound
  decided := by
    rintro c (hc | rfl)
    · exact h.decided c (.inl hc)
    · exact h.decided c (.inr hcycle)
  count := by
    rw [h.count, hcycle]
    rfl

theorem Journal.mono (h : Journal isPrintable loads hasAgent events s) (event : Event) :
    Journal isPrintable loads hasAgent (events ++ [event]) s :=
  { h with decided := fun c hc ↦ (h.decided c hc).imp_right fun hd ↦ hd.mono event }

-- Another phase with the same round at hand.
theorem Journal.setPhase (h : Journal isPrintable loads hasAgent events s) {phase : Phase}
    (htaken : phase.taken = s.phase.taken) (hcycle : phase.cycle? = s.phase.cycle?)
    (hcalling : ∀ c rest, phase ≠ .calling c rest) (hasked : phase = .replying → hasAgent = true) :
    Journal isPrintable loads hasAgent events { s with phase } where
  calls_eq := h.calls_eq
  taken_eq := h.taken_eq.trans (by rw [← htaken])
  sound := h.sound
  decided := fun c hc ↦ h.decided c (hc.imp_right fun h ↦ hcycle ▸ h)
  underway := fun c rest hphase ↦ absurd hphase (hcalling c rest)
  count := h.count.trans (by rw [← hcycle])
  asked := hasked

theorem Journal.next (h : Journal isPrintable loads hasAgent events s)
    (hcycle : s.phase.cycle? = none) :
    Journal isPrintable loads hasAgent events s.next := by
  have htaken : s.phase.taken = [] := by
    cases hphase : s.phase <;> rw [hphase] at hcycle <;> first | rfl | cases hcycle
  rw [Loop.next]
  split
  · refine ⟨h.calls_eq, ?_, h.sound, ?_, ?_, ?_, fun hphase ↦ (by cases hphase)⟩
    · exact h.taken_eq.trans (by rw [htaken]; rfl)
    · rintro c (hc | hc)
      · exact h.decided c (.inl hc)
      · cases hc
        exact .inl rfl
    · intro c rest hphase
      cases hphase
    · show s.cycleCount + 1 = _
      rw [h.count, hcycle]
      rfl
  · exact h.setPhase htaken.symm hcycle.symm (fun _ _ hphase ↦ (by cases hphase))
      fun hphase ↦ (by cases hphase)

-- `reason` comes to its end.
theorem Journal.reasoned (h : Journal isPrintable loads hasAgent events s)
    (hcycle : s.phase.cycle? = some {}) {result : Except PyException (List AgentAction)}
    (hresult : ∀ actions, result = .ok actions →
      Decided isPrintable loads hasAgent events actions) :
    Journal isPrintable loads hasAgent events (s.reasoned result) := by
  have hopened := h.opened hcycle
  cases result with
  | error e =>
    refine Open.finish { hopened with decided := ?_ } ⟨List.prefix_rfl, ?_, fun _ ↦ .inl rfl⟩
    · rintro c (hc | rfl)
      · exact hopened.decided c (.inl hc)
      · exact .inl rfl
    · exact fun hraised ↦ (by cases hraised)
  | ok actions =>
    refine Open.execute { hopened with decided := ?_ } ⟨rfl, rfl⟩
    rintro c (hc | rfl)
    · exact hopened.decided c (.inl hc)
    · exact .inr (hresult actions rfl)

-- A round that an exception ends at the await it has come to.
theorem Journal.cut (h : Journal isPrintable loads hasAgent events s)
    (hcycle : s.phase.cycle? = some cycle) :
    Journal isPrintable loads hasAgent events (s.finish { cycle with raised := true }) := by
  have hopened := h.opened hcycle
  refine Open.finish { hopened with decided := ?_ } ⟨?_, fun hraised ↦ (by cases hraised), ?_⟩
  · rintro c (hc | rfl)
    · exact hopened.decided c (.inl hc)
    · exact hopened.decided cycle (.inr rfl)
  · cases hphase : s.phase with
    | calling c rest =>
      obtain rfl : c = cycle := by
        rw [hphase] at hcycle
        exact Option.some.inj hcycle
      exact ⟨rest, ((h.underway c rest hphase).1.decided_eq).symm⟩
    | observing | replying =>
      rw [hphase] at hcycle
      cases hcycle
      exact List.prefix_rfl
    | idle | sleeping | ended =>
      rw [hphase] at hcycle
      cases hcycle
  · intro _
    cases hphase : s.phase with
    | calling c rest =>
      obtain rfl : c = cycle := by
        rw [hphase] at hcycle
        exact Option.some.inj hcycle
      exact .inr (h.underway c rest hphase).2
    | observing | replying =>
      rw [hphase] at hcycle
      cases hcycle
      exact .inl rfl
    | idle | sleeping | ended =>
      rw [hphase] at hcycle
      cases hcycle

theorem Journal.step (h : Journal isPrintable loads hasAgent events s)
    (hstep : NATAgent.step isPrintable loads hasAgent s event = some s') :
    Journal isPrintable loads hasAgent (events ++ [event]) s' := by
  have hmono := h.mono event
  cases step_moves hstep with
  | stops => exact { hmono with }
  | starts hphase =>
    have hcycle : s.phase.cycle? = none := by
      cases hp : s.phase <;> rw [hp] at hphase <;> first | rfl | cases hphase
    exact Journal.next (s := { s with running := true }) { hmono with } hcycle
  | cancels hphase =>
    cases hcycle : s.phase.cycle? with
    | none =>
      have htaken : s.phase.taken = [] := by
        cases hp : s.phase <;> rw [hp] at hcycle <;> first | rfl | cases hcycle
      show Journal isPrintable loads hasAgent _ { s with phase := .ended, cycles := s.cycles ++ [] }
      rw [List.append_nil]
      exact hmono.setPhase htaken.symm hcycle.symm (fun _ _ hphase ↦ (by cases hphase))
        fun hphase ↦ (by cases hphase)
    | some cycle =>
      exact (hmono.cut hcycle).setPhase rfl rfl (fun _ _ hphase ↦ (by cases hphase))
        fun hphase ↦ (by cases hphase)
  | observationFails hphase => exact hmono.cut (by rw [hphase]; rfl)
  | asks hphase hagent =>
    refine hmono.setPhase ?_ ?_ (fun _ _ hphase ↦ (by cases hphase)) fun _ ↦ hagent
    · rw [hphase]
      rfl
    · rw [hphase]
      rfl
  | stubReasons hphase hagent =>
    refine hmono.reasoned (by rw [hphase]; rfl) fun actions hactions ↦ ?_
    exact .inl ⟨hagent, _, List.mem_append_right _ List.mem_cons_self, hactions⟩
  | @replies response hphase =>
    refine hmono.reasoned (by rw [hphase]; rfl) fun actions hactions ↦ ?_
    cases response with
    | error e => cases hactions
    | ok text =>
      exact .inr ⟨h.asked hphase, text, List.mem_append_right _ List.mem_cons_self, hactions⟩
  | callFails hphase => exact hmono.cut (by rw [hphase]; rfl)
  | callReturns hphase =>
    exact (hmono.opened (by rw [hphase]; rfl)).execute (hmono.underway _ _ hphase).1
  | wakes hphase => exact hmono.next (by rw [hphase]; rfl)

theorem agent_run (hrun : runFrom (step isPrintable loads hasAgent) {} events = some s) :
    Journal isPrintable loads hasAgent events s := by
  refine run_invariant_history (I := fun events s ↦ Journal isPrintable loads hasAgent events s)
    (fun past s event s' h hstep ↦ h.step hstep) ?_ hrun
  refine ⟨rfl, rfl, fun c hc ↦ absurd hc List.not_mem_nil, ?_, ?_, rfl, ?_⟩
  · rintro c (hc | hc)
    · exact absurd hc List.not_mem_nil
    · cases hc
  · intro c rest hphase
    cases hphase
  · intro hphase
    cases hphase

-- The record only grows.
theorem actionsTaken_execute (s : Loop) (cycle : Cycle) (actions : List AgentAction) :
    s.actionsTaken <+: (s.execute cycle actions).actionsTaken := by
  induction actions generalizing s cycle with
  | nil => exact List.prefix_rfl
  | cons action rest ih =>
    rw [Loop.execute]
    cases toolCall action with
    | none =>
      exact (List.prefix_append _ [action]).trans
        (ih { s with actionsTaken := s.actionsTaken ++ [action] }
          { cycle with taken := cycle.taken ++ [action] })
    | some call => exact List.prefix_append _ [action]

theorem actionsTaken_step (hstep : step isPrintable loads hasAgent s event = some s') :
    s.actionsTaken <+: s'.actionsTaken := by
  have hnext (t : Loop) : t.next.actionsTaken = t.actionsTaken := by
    rw [Loop.next]
    split <;> rfl
  have hreasoned (result : Except PyException (List AgentAction)) :
      s.actionsTaken <+: (s.reasoned result).actionsTaken := by
    cases result with
    | error e => exact List.prefix_rfl
    | ok actions => exact actionsTaken_execute s _ actions
  cases step_moves hstep with
  | starts | wakes => exact ⟨[], by rw [List.append_nil, hnext]⟩
  | stubReasons | replies => exact hreasoned _
  | callReturns => exact actionsTaken_execute s _ _
  | stops | cancels | observationFails | asks | callFails => exact List.prefix_rfl

/-! ## Stopping -/

-- Whether the last word on running was `run`, and not `stop`.
def lastWord (events : List Event) : Bool :=
  events.foldl (fun running event ↦
    match event with
    | .start => true
    | .stop => false
    | _ => running) false

-- Whether the task has been cancelled since `run` was entered.
def wasCancelled (events : List Event) : Bool :=
  events.foldl (fun cancelled event ↦
    match event with
    | .start => false
    | .cancel => true
    | _ => cancelled) false

theorem lastWord_concat (events : List Event) (event : Event) :
    lastWord (events ++ [event]) = match event with
      | .start => true
      | .stop => false
      | _ => lastWord events := List.foldl_concat ..

theorem wasCancelled_concat (events : List Event) (event : Event) :
    wasCancelled (events ++ [event]) = match event with
      | .start => false
      | .cancel => true
      | _ => wasCancelled events := List.foldl_concat ..

theorem running_execute (s : Loop) (cycle : Cycle) (actions : List AgentAction) :
    (s.execute cycle actions).running = s.running ∧
      (s.execute cycle actions).cycleCount = s.cycleCount ∧
      (s.execute cycle actions).phase ≠ .ended := by
  induction actions generalizing s cycle with
  | nil => exact ⟨rfl, rfl, fun h ↦ (by cases h)⟩
  | cons action rest ih =>
    rw [Loop.execute]
    cases toolCall action with
    | none => exact ih _ _
    | some call => exact ⟨rfl, rfl, fun h ↦ (by cases h)⟩

theorem running_reasoned (s : Loop) (result : Except PyException (List AgentAction)) :
    (s.reasoned result).running = s.running ∧ (s.reasoned result).cycleCount = s.cycleCount ∧
      (s.reasoned result).phase ≠ .ended := by
  cases result with
  | error e => exact ⟨rfl, rfl, fun h ↦ (by cases h)⟩
  | ok actions => exact running_execute s _ actions

/-- Whether the loop goes on is settled by `run` and `stop` alone. -/
structure Governed (events : List Event) (s : Loop) : Prop where
  running_eq : s.running = lastWord events
  ended : s.phase = .ended → lastWord events = false ∨ wasCancelled events = true

theorem Governed.step (h : Governed events s)
    (hstep : NATAgent.step isPrintable loads hasAgent s event = some s') :
    Governed (events ++ [event]) s' := by
  refine ⟨?_, ?_⟩
  · rw [lastWord_concat, ← h.running_eq]
    cases step_moves hstep with
    | stops => rfl
    | starts => rfl
    | cancels | observationFails | asks | callFails => rfl
    | stubReasons | replies => exact (running_reasoned _ _).1
    | callReturns => exact (running_execute _ _ _).1
    | wakes =>
      show s.next.running = s.running
      unfold Loop.next
      split <;> rfl
  · rw [lastWord_concat, wasCancelled_concat]
    cases step_moves hstep with
    | stops => exact fun _ ↦ .inl rfl
    | starts => exact fun hphase ↦ (by cases hphase)
    | cancels => exact fun _ ↦ .inr rfl
    | observationFails | asks | callFails => exact fun hphase ↦ (by cases hphase)
    | stubReasons | replies => exact fun hphase ↦ absurd hphase (running_reasoned _ _).2.2
    | callReturns => exact fun hphase ↦ absurd hphase (running_execute _ _ _).2.2
    | wakes =>
      intro hphase
      rw [Loop.next] at hphase
      split at hphase
      · cases hphase
      · rename_i hrunning
        refine .inl ?_
        rwa [Bool.not_eq_true, h.running_eq] at hrunning

theorem governed_run (hrun : runFrom (step isPrintable loads hasAgent) {} events = some s) :
    Governed events s :=
  run_invariant_history (I := Governed) (fun _ _ _ _ h hstep ↦ h.step hstep)
    ⟨rfl, fun hphase ↦ (by cases hphase)⟩ hrun

-- Once stopped, no further round begins.
theorem cycleCount_stopped (hstopped : s.running = false) (hevent : event ≠ .start)
    (hstep : step isPrintable loads hasAgent s event = some s') :
    s'.cycleCount = s.cycleCount ∧ s'.running = false := by
  cases step_moves hstep with
  | stops => exact ⟨rfl, rfl⟩
  | starts => exact absurd rfl hevent
  | cancels | observationFails | asks | callFails => exact ⟨rfl, hstopped⟩
  | stubReasons | replies =>
    obtain ⟨hrunning, hcount, -⟩ := running_reasoned s _
    exact ⟨hcount, hrunning.trans hstopped⟩
  | callReturns =>
    obtain ⟨hrunning, hcount, -⟩ := running_execute s _ _
    exact ⟨hcount, hrunning.trans hstopped⟩
  | wakes =>
    rw [Loop.next, if_neg (by rw [hstopped]; exact Bool.false_ne_true)]
    exact ⟨rfl, hstopped⟩

/-- No exception ends the loop: it is only left after `stop`, or when the task is cancelled.  From
a `stop` on no new round begins, until `run` is called again; a `stop` before `run` is lost. -/
theorem agent_stops (isPrintable : Char → Bool) (loads : String → Except PyException JsonValue)
    (hasAgent : Bool) {events : List Event} {s : Loop}
    (hrun : runFrom (step isPrintable loads hasAgent) {} events = some s) :
    s.running = lastWord events ∧
      (s.phase = .ended → lastWord events = false ∨ wasCancelled events = true) ∧
      (s.running = false → ∀ later t, .start ∉ later →
        runFrom (step isPrintable loads hasAgent) s later = some t →
          t.cycleCount = s.cycleCount ∧ t.running = false) := by
  have hgoverned := governed_run hrun
  refine ⟨hgoverned.running_eq, hgoverned.ended, fun hstopped later t hlater hlaterRun ↦ ?_⟩
  clear hgoverned hrun
  induction later generalizing s with
  | nil =>
    cases hlaterRun
    exact ⟨rfl, hstopped⟩
  | cons event later ih =>
    obtain ⟨s', hstep, hrest⟩ := runFrom_cons_eq_some.mp hlaterRun
    rw [List.mem_cons, not_or] at hlater
    obtain ⟨hcount, hstopped'⟩ := cycleCount_stopped hstopped (Ne.symm hlater.1) hstep
    obtain ⟨hcount', hrunning⟩ := ih hstopped' hlater.2 hrest
    exact ⟨hcount'.trans hcount, hrunning⟩

-- A reply that promotes a model, and does nothing more.
def promotingReply (response : String) : Except PyException JsonValue :=
  .ok (.dict [("actions", .list [
    .dict [("action_type", .str "promote"), ("parameters", .dict [("model_id", .str response)])],
    .dict [("action_type", .str "noop")]])])

-- The first `stop` is lost, the second comes while a tool is called.
def stoppedTwice : List Event :=
  [.stop, .start, .observed (.ok {}), .replied (.ok "canary-1b"), .stop, .called (.ok "ok"), .woke]

theorem stoppedTwice_stops :
    ∃ s, runFrom (step (fun _ ↦ true) promotingReply true) {} stoppedTwice = some s ∧
      ∀ later t, .start ∉ later →
        runFrom (step (fun _ ↦ true) promotingReply true) s later = some t →
          t.cycleCount = s.cycleCount ∧ t.running = false := by
  have hrun : (runFrom (step (fun _ ↦ true) promotingReply true) {} stoppedTwice).isSome := rfl
  obtain ⟨s, hrun⟩ := Option.isSome_iff_exists.mp hrun
  obtain ⟨hrunning, -, hstopped⟩ := agent_stops _ _ _ hrun
  exact ⟨s, hrun, hstopped hrunning⟩

/-! ## Without a language model -/

/-- The two tool calls the stub makes: a longer TTL under a load above 80%, and the evaluation of a
candidate that is not active when the active model's error rate is above 0.10. -/
inductive StubCall (events : List Event) : String × JsonValue → Prop where
  | raiseTtl {obs : FactoryObservation} (hobs : .observed (.ok obs) ∈ events)
      (hload : maxLoad.lt obs.clusterLoad = true) :
    StubCall events
      ("set_agent_hint", .dict [("key", .str "kv_ttl_ms"), ("value", .int 750)])
  | evaluate {obs : FactoryObservation} {c : Dict String JsonValue} {modelId : JsonValue}
      (hobs : .observed (.ok obs) ∈ events) (hwer : maxWer.lt obs.activeWer = true)
      (hc : c ∈ obs.candidateModels) (hinactive : inactive c = true)
      (hid : c.get? "model_id" = some modelId) :
    StubCall events ("evaluate_model", .dict [("model_id", modelId)])

theorem mem_stubSearch {obs : FactoryObservation} {actions : List AgentAction}
    (h : stubSearch isPrintable obs = .ok actions) {a : AgentAction} (ha : a ∈ actions) :
    ∃ c modelId, c ∈ obs.candidateModels ∧ inactive c = true ∧
      c.get? "model_id" = some modelId ∧ a = evaluateCandidate isPrintable obs modelId := by
  rw [stubSearch] at h
  cases hfind : obs.candidateModels.find? inactive with
  | none =>
    rw [hfind] at h
    cases h
    cases ha
  | some c =>
    rw [hfind] at h
    dsimp only at h
    cases hid : c.get? "model_id" with
    | none =>
      rw [hid] at h
      cases h
    | some modelId =>
      rw [hid] at h
      cases h
      exact ⟨c, modelId, List.mem_of_find?_eq_some hfind, List.find?_some hfind, hid,
        List.mem_singleton.mp ha⟩

theorem stubReason_calls {obs : FactoryObservation} {actions : List AgentAction}
    (hobs : .observed (.ok obs) ∈ events) (h : stubReason isPrintable obs = .ok actions)
    {a : AgentAction} (ha : a ∈ actions) {call : String × JsonValue}
    (hcall : toolCall a = some call) : StubCall events call := by
  have hraise : a ∈ (if maxLoad.lt obs.clusterLoad then [raiseTtl obs] else []) →
      StubCall events call := by
    intro hmem
    split at hmem
    · rename_i hload
      obtain rfl := List.mem_singleton.mp hmem
      cases hcall
      exact .raiseTtl hobs hload
    · cases hmem
  -- one of the two lists has it, or it is the noop, which calls nothing
  have hactions (hot search : List AgentAction) (hhot : a ∈ hot → StubCall events call)
      (hsearch : a ∈ search → StubCall events call)
      (heq : (if (hot ++ search).isEmpty then [noop] else hot ++ search) = actions) :
      StubCall events call := by
    subst heq
    split at ha
    · obtain rfl := List.mem_singleton.mp ha
      cases hcall
    · exact (List.mem_append.mp ha).elim hhot hsearch
  by_cases hwer : maxWer.lt obs.activeWer = true
  · rw [stubReason, if_pos hwer] at h
    cases hfound : stubSearch isPrintable obs with
    | error e =>
      rw [hfound] at h
      cases h
    | ok search =>
      rw [hfound] at h
      refine hactions _ search hraise (fun hmem ↦ ?_) (Except.ok.inj h)
      obtain ⟨c, modelId, hc, hinactive, hid, rfl⟩ := mem_stubSearch hfound hmem
      cases hcall
      exact .evaluate hobs hwer hc hinactive hid
  · rw [stubReason, if_neg hwer] at h
    exact hactions _ [] hraise (fun hmem ↦ absurd hmem List.not_mem_nil) (Except.ok.inj h)

theorem StubCall.no_promotion {call : String × JsonValue} (h : StubCall events call) :
    call.1 ≠ "promote_model" := by
  cases h with
  | raiseTtl =>
    show "set_agent_hint" ≠ "promote_model"
    decide
  | evaluate =>
    show "evaluate_model" ≠ "promote_model"
    decide

-- What has been taken was decided.
theorem Journal.decided_of_taken (h : Journal isPrintable loads hasAgent events s)
    {a : AgentAction} (ha : a ∈ s.actionsTaken) :
    ∃ actions, a ∈ actions ∧ Decided isPrintable loads hasAgent events actions := by
  have hcycle (c : Cycle) (hc : c ∈ s.cycles ∨ s.phase.cycle? = some c) (hmem : a ∈ c.decided) :
      ∃ actions, a ∈ actions ∧ Decided isPrintable loads hasAgent events actions := by
    rcases h.decided c hc with hnone | hdecided
    · rw [hnone] at hmem
      cases hmem
    · exact ⟨c.decided, hmem, hdecided⟩
  rw [h.taken_eq, List.mem_append, List.mem_flatMap] at ha
  rcases ha with ⟨c, hc, hmem⟩ | hmem
  · exact hcycle c (.inl hc) ((h.sound c hc).taken_initial.subset hmem)
  · cases hphase : s.phase with
    | calling c rest =>
      rw [hphase] at hmem
      refine hcycle c (.inr (by rw [hphase]; rfl)) ?_
      rw [(h.underway c rest hphase).1.decided_eq]
      exact List.mem_append_left _ hmem
    | idle | observing | replying | sleeping | ended =>
      rw [hphase] at hmem
      cases hmem

-- What is called without a language model.
theorem stub_run_calls (hrun : runFrom (step isPrintable loads false) {} events = some s) :
    ∀ call ∈ s.calls, StubCall events call := by
  have hjournal : Journal isPrintable loads false events s := agent_run hrun
  intro call hmem
  rw [hjournal.calls_eq, List.mem_filterMap] at hmem
  obtain ⟨a, ha, hcall⟩ := hmem
  obtain ⟨actions, hin, ⟨-, obs, hobs, hreason⟩ | ⟨hagent, -⟩⟩ := hjournal.decided_of_taken ha
  · exact stubReason_calls hobs hreason hin hcall
  · cases hagent

/-- Without a language model the agent promotes nothing: it only ever raises the TTL hint to 750
under a load above 80%, or has an inactive candidate evaluated when the error rate is high. -/
theorem stub_agent_calls (isPrintable : Char → Bool)
    (loads : String → Except PyException JsonValue) {events : List Event} {s : Loop}
    (hrun : runFrom (step isPrintable loads false) {} events = some s) :
    (∀ call ∈ s.calls, StubCall events call) ∧
      ∀ parameters, ("promote_model", parameters) ∉ s.calls :=
  ⟨stub_run_calls hrun, fun _ hmem ↦ (stub_run_calls hrun _ hmem).no_promotion rfl⟩

-- A load of 15/16 and an error rate of 1 under the stub.
def busyCluster : FactoryObservation where
  candidateModels := [Dict.empty.set "model_id" (.str "canary-1b")]
  clusterLoad := .round false 15 (-4)

theorem busyCluster_stub_calls :
    ∃ s, runFrom (step (fun _ ↦ true) promotingReply false) {}
        [.start, .observed (.ok busyCluster), .called (.ok "ok")] = some s ∧
      ∀ call ∈ s.calls,
        StubCall [.start, .observed (.ok busyCluster), .called (.ok "ok")] call := by
  have hrun : (runFrom (step (fun _ ↦ true) promotingReply false) {}
      [.start, .observed (.ok busyCluster), .called (.ok "ok")]).isSome := by decide +kernel
  obtain ⟨s, hrun⟩ := Option.isSome_iff_exists.mp hrun
  exact ⟨s, hrun, (stub_agent_calls _ _ hrun).1⟩

end NATAgent

end AsrServe.AgenticFactory
