import AsrServe.AgenticFactory.McpServer
import AsrServe.AgenticFactory.NatLoop

/-!
# The agent in front of the tools (`nat_agent.py` and `mcp_client.py` in `agentic-factory/src`)

`NATAgent.run` whose `mcp_call` is `call_tool`, on one context.  What it observes and what the
language model replies is left open.
-/

open AsrServe.Reasoning

namespace AsrServe.AgenticFactory.McpServer.AgentTools

section Model

variable (isPrintable : Char → Bool) (callbacks : Callbacks)
  (loads : String → Except PyException JsonValue) (hasAgent : Bool)

def argumentsOf (items : List (String × JsonValue)) : Dict String JsonValue :=
  items.foldl (fun d item ↦ d.set item.1 item.2) Dict.empty

-- The tools an action calls begin with `arguments.get`.
def mcpCall (tool : String) : JsonValue → Method String
  | .dict items => callTool isPrintable callbacks tool (argumentsOf items)
  | _ => throw .attributeError

structure Factory where
  agent : NATAgent.Loop := {}
  ctx : FactoryContext := {}

inductive Event where
  -- An event of the agent that is not the end of a tool call.
  | agent (event : NATAgent.Event)
  -- The tool the agent waits for runs.
  | tool

def step (s : Factory) : Event → Option Factory
  | .agent (.called _) => none
  | .agent event =>
    (NATAgent.step isPrintable loads hasAgent s.agent event).map fun agent ↦ { s with agent }
  | .tool =>
    s.agent.calls.getLast?.bind fun call ↦
      let r := (mcpCall isPrintable callbacks call.1 call.2).run s.ctx
      (NATAgent.step isPrintable loads hasAgent s.agent (.called r.1)).map fun agent ↦
        { agent, ctx := r.2 }

end Model

/-! ## What the agent may do -/

/-- The action is a `set_hint` of `value` under the key. -/
def Sets (a : AgentAction) (k : DictKey) (value : JsonValue) : Prop :=
  a.actionType = .str "set_hint" ∧ ∃ items, a.parameters = .dict items ∧
    dictKey (argument (argumentsOf items) "key") = .ok k ∧
    ((argumentsOf items).get? "value").getD .null = value

/-- Since `ctx` nothing has changed but hints that actions on the record have set. -/
structure Confined (ctx ctx' : FactoryContext) (record : List AgentAction) : Prop where
  candidates_eq : ctx'.candidates = ctx.candidates
  metricsStore_eq : ctx'.metricsStore = ctx.metricsStore
  clusterLoad_eq : ctx'.clusterLoad = ctx.clusterLoad
  kept : ∀ k, k ∈ ctx.agentHints → k ∈ ctx'.agentHints
  hint : ∀ k entry, ctx'.agentHints.get? k = some entry →
    ctx.agentHints.get? k = some entry ∨ ∃ a ∈ record, Sets a k entry.2

theorem Confined.refl (ctx : FactoryContext) (record : List AgentAction) :
    Confined ctx ctx record :=
  ⟨rfl, rfl, rfl, fun _ h ↦ h, fun _ _ h ↦ .inl h⟩

variable {isPrintable : Char → Bool} {callbacks : Callbacks}
  {loads : String → Except PyException JsonValue} {hasAgent : Bool} {s s' : Factory}
  {event : Event} {events : List Event} {ctx ctx' : FactoryContext}
  {record record' : List AgentAction}

theorem Confined.mono (h : Confined ctx ctx' record) (hrecord : record ⊆ record') :
    Confined ctx ctx' record' :=
  { h with hint := fun k entry hk ↦
      (h.hint k entry hk).imp_right fun ⟨a, ha, hsets⟩ ↦ ⟨a, hrecord ha, hsets⟩ }

-- One more hint.
theorem Confined.set (h : Confined ctx ctx' record) {a : AgentAction} (ha : a ∈ record)
    {k : DictKey} {written value : JsonValue} (hsets : Sets a k value) :
    Confined ctx { ctx' with agentHints := ctx'.agentHints.set k (written, value) } record := by
  refine { h with kept := fun j hj ↦ ?_, hint := fun j entry hj ↦ ?_ }
  · obtain ⟨entry, hentry⟩ := Dict.mem_iff_exists.mp (h.kept j hj)
    apply Dict.mem_iff_get?_isSome.mpr
    rw [Dict.get?_set]
    split
    · rfl
    · rw [hentry]
      rfl
  · obtain ⟨rfl, rfl⟩ | ⟨-, hold⟩ := Dict.get?_set_cases hj
    · exact .inr ⟨a, ha, hsets⟩
    · exact h.hint j entry hold

/-! ## One call -/

theorem toolCall_cases {a : AgentAction} {call : String × JsonValue}
    (h : NATAgent.toolCall a = some call) :
    call = ("evaluate_model", a.parameters) ∨ call = ("promote_model", a.parameters) ∨
      a.actionType = .str "set_hint" ∧ call = ("set_agent_hint", a.parameters) := by
  rw [NATAgent.toolCall] at h
  split at h <;> cases h
  · exact .inl rfl
  · exact .inr (.inl rfl)
  · rename_i htype
    exact .inr (.inr ⟨htype, rfl⟩)

theorem callTool_evaluate (arguments : Dict String JsonValue) :
    callTool isPrintable callbacks "evaluate_model" arguments =
      handleEvaluateModel isPrintable callbacks arguments := rfl

theorem callTool_promote (arguments : Dict String JsonValue) :
    callTool isPrintable callbacks "promote_model" arguments =
      handlePromoteModel isPrintable callbacks arguments := rfl

theorem callTool_setHint (arguments : Dict String JsonValue) :
    callTool isPrintable callbacks "set_agent_hint" arguments =
      handleSetAgentHint isPrintable arguments := rfl

-- Without callbacks the two tools that would use one leave the context alone.
theorem run_handleEvaluateModel (arguments : Dict String JsonValue) (ctx : FactoryContext) :
    ∃ text, (handleEvaluateModel isPrintable {} arguments).run ctx = (.ok text, ctx) := by
  rw [handleEvaluateModel]
  cases (argument arguments "model_id").truthy <;> exact ⟨_, rfl⟩

theorem run_handlePromoteModel (arguments : Dict String JsonValue) (ctx : FactoryContext) :
    ∃ text, (handlePromoteModel isPrintable {} arguments).run ctx = (.ok text, ctx) := by
  rw [handlePromoteModel]
  cases (argument arguments "model_id").truthy <;> exact ⟨_, rfl⟩

theorem run_handleSetAgentHint (arguments : Dict String JsonValue) (ctx : FactoryContext) :
    ((handleSetAgentHint isPrintable arguments).run ctx).2 = ctx ∨
      ∃ k written, dictKey (argument arguments "key") = .ok k ∧
        ((handleSetAgentHint isPrintable arguments).run ctx).2 =
          { ctx with agentHints :=
              ctx.agentHints.set k (written, (arguments.get? "value").getD .null) } := by
  rw [handleSetAgentHint]
  generalize argument arguments "key" = key
  cases key.truthy with
  | false => exact .inl rfl
  | true =>
    show ((liftM (dictKey key) >>= _ : Method String).run ctx).2 = ctx ∨
      ∃ k written, _ ∧ ((liftM (dictKey key) >>= _ : Method String).run ctx).2 = _
    cases dictKey key with
    | error e => exact .inl rfl
    | ok k => exact .inr ⟨k, _, rfl, rfl⟩

/-- What a tool call of an action on the record does to the context. -/
theorem Confined.call (h : Confined ctx ctx' record) {a : AgentAction} (ha : a ∈ record)
    {call : String × JsonValue} (hcall : NATAgent.toolCall a = some call) :
    Confined ctx ((mcpCall isPrintable {} call.1 call.2).run ctx').2 record := by
  by_cases hdict : ∃ items, a.parameters = .dict items
  · obtain ⟨items, hitems⟩ := hdict
    obtain rfl | rfl | ⟨htype, rfl⟩ := toolCall_cases hcall
    · obtain ⟨text, hrun⟩ := run_handleEvaluateModel (argumentsOf items) ctx'
      rw [hitems, mcpCall, callTool_evaluate, hrun]
      exact h
    · obtain ⟨text, hrun⟩ := run_handlePromoteModel (argumentsOf items) ctx'
      rw [hitems, mcpCall, callTool_promote, hrun]
      exact h
    · rw [hitems, mcpCall, callTool_setHint]
      obtain hsame | ⟨k, written, hkey, hset⟩ := run_handleSetAgentHint (argumentsOf items) ctx'
      · rw [hsame]
        exact h
      · rw [hset]
        exact h.set ha ⟨htype, items, hitems, hkey, rfl⟩
  · have hparameters : call.2 = a.parameters := by
      obtain rfl | rfl | ⟨-, rfl⟩ := toolCall_cases hcall <;> rfl
    have hthrow : mcpCall isPrintable {} call.1 call.2 = throw .attributeError := by
      rw [hparameters]
      cases hp : a.parameters <;> first | rfl | exact absurd ⟨_, hp⟩ hdict
    rw [hthrow]
    exact h

/-! ## One event -/

/-- What an event does: the agent moves on, and the context with it when a tool has run. -/
theorem step_cases (h : step isPrintable callbacks loads hasAgent s event = some s') :
    (∃ e, event = .agent e ∧ NATAgent.step isPrintable loads hasAgent s.agent e = some s'.agent ∧
      s'.ctx = s.ctx) ∨
    (event = .tool ∧ ∃ call, s.agent.calls.getLast? = some call ∧
      NATAgent.step isPrintable loads hasAgent s.agent
        (.called ((mcpCall isPrintable callbacks call.1 call.2).run s.ctx).1) = some s'.agent ∧
      s'.ctx = ((mcpCall isPrintable callbacks call.1 call.2).run s.ctx).2) := by
  cases event with
  | agent e =>
    have hmap : (NATAgent.step isPrintable loads hasAgent s.agent e).map
        (fun agent ↦ { s with agent }) = some s' := by
      cases e with
      | called => cases h
      | _ => exact h
    obtain ⟨agent, hagent, rfl⟩ := Option.map_eq_some_iff.mp hmap
    exact .inl ⟨e, rfl, hagent, rfl⟩
  | tool =>
    obtain ⟨call, hcall, h⟩ := Option.bind_eq_some_iff.mp h
    obtain ⟨agent, hagent, rfl⟩ := Option.map_eq_some_iff.mp h
    exact .inr ⟨rfl, call, hcall, hagent, rfl⟩

/-- The agent is one that some run of `NATAgent` leads to, on what `events` bring. -/
def Started (isPrintable : Char → Bool) (loads : String → Except PyException JsonValue)
    (hasAgent : Bool) (events : List Event) (agent : NATAgent.Loop) : Prop :=
  ∃ es, runFrom (NATAgent.step isPrintable loads hasAgent) {} es = some agent ∧
    ∀ e ∈ es, .agent e ∈ events ∨ ∃ result, e = .called result

theorem started_init : Started isPrintable loads hasAgent [] {} :=
  ⟨[], rfl, fun _ he ↦ absurd he List.not_mem_nil⟩

theorem Started.step (h : Started isPrintable loads hasAgent events s.agent)
    (hstep : AgentTools.step isPrintable callbacks loads hasAgent s event = some s') :
    Started isPrintable loads hasAgent (events ++ [event]) s'.agent := by
  obtain ⟨es, hrun, hes⟩ := h
  have hold : ∀ e ∈ es, .agent e ∈ events ++ [event] ∨ ∃ result, e = .called result :=
    fun e he ↦ (hes e he).imp_left (List.mem_append_left _)
  obtain ⟨e, rfl, hagent, -⟩ | ⟨-, call, -, hagent, -⟩ := step_cases hstep
  · refine ⟨es ++ [e], runFrom_concat_eq_some.mpr ⟨_, hrun, hagent⟩, ?_⟩
    refine List.forall_mem_append.mpr ⟨hold, List.forall_mem_singleton.mpr (.inl ?_)⟩
    exact List.mem_append_right _ List.mem_cons_self
  · refine ⟨es ++ [_], runFrom_concat_eq_some.mpr ⟨_, hrun, hagent⟩, ?_⟩
    exact List.forall_mem_append.mpr ⟨hold, List.forall_mem_singleton.mpr (.inr ⟨_, rfl⟩)⟩

-- A call that was made is one of an action on the record.
theorem Started.mem_record (h : Started isPrintable loads hasAgent events s.agent)
    {call : String × JsonValue} (hcall : call ∈ s.agent.calls) :
    ∃ a ∈ s.agent.actionsTaken, NATAgent.toolCall a = some call := by
  obtain ⟨es, hrun, -⟩ := h
  rw [(NATAgent.agent_run hrun).calls_eq] at hcall
  exact List.mem_filterMap.mp hcall

theorem Confined.step (h : Confined ctx s.ctx s.agent.actionsTaken)
    (hstarted : Started isPrintable loads hasAgent events s.agent)
    (hstep : AgentTools.step isPrintable {} loads hasAgent s event = some s') :
    Confined ctx s'.ctx s'.agent.actionsTaken := by
  obtain ⟨e, -, hagent, hctx⟩ | ⟨-, call, hlast, hagent, hctx⟩ := step_cases hstep
  · rw [hctx]
    exact h.mono (NATAgent.actionsTaken_step hagent).subset
  · obtain ⟨a, ha, hcall⟩ := hstarted.mem_record (List.mem_of_getLast? hlast)
    rw [hctx]
    exact (h.call ha hcall).mono (NATAgent.actionsTaken_step hagent).subset

/-! ## Whole runs -/

-- The run goes on.
theorem Started.run {later : List Event}
    (hstarted : Started isPrintable loads hasAgent events s.agent)
    (hrun : runFrom (AgentTools.step isPrintable {} loads hasAgent) s later = some s') :
    Started isPrintable loads hasAgent (events ++ later) s'.agent ∧
      Confined s.ctx s'.ctx s'.agent.actionsTaken := by
  refine run_invariant_history (I := fun past m ↦
    Started isPrintable loads hasAgent (events ++ past) m.agent ∧
      Confined s.ctx m.ctx m.agent.actionsTaken) ?_ ?_ hrun
  · intro past m event m' h hstep
    rw [← List.append_assoc]
    exact ⟨h.1.step hstep, h.2.step h.1 hstep⟩
  · rw [List.append_nil]
    exact ⟨hstarted, .refl _ _⟩

/-- Whatever is observed and whatever a language model replies: an agent whose tools have no
callbacks changes nothing but hints in the context.  It removes none, and every hint that has
changed is as an action on its record has set it. -/
theorem agent_confined (isPrintable : Char → Bool)
    (loads : String → Except PyException JsonValue) (hasAgent : Bool) (ctx : FactoryContext)
    (events : List Event) (s : Factory)
    (hrun : runFrom (step isPrintable {} loads hasAgent) { ctx } events = some s) :
    Confined ctx s.ctx s.agent.actionsTaken :=
  (Started.run started_init hrun).2

-- A reply with two actions under an agent that has a language model.
def twoActions (_response : String) : Except PyException JsonValue :=
  .ok (.dict [("actions", .list [
    .dict [("action_type", .str "set_hint"),
      ("parameters", .dict [("key", .str "priority"), ("value", .str "9")])],
    .dict [("action_type", .str "promote"),
      ("parameters", .dict [("model_id", .str "canary-1b")])]])])

theorem twoActions_confined :
    ∃ s, runFrom (step (fun _ ↦ true) {} twoActions true) { ctx := {} }
        [.agent .start, .agent (.observed (.ok {})), .agent (.replied (.ok "")), .tool, .tool] =
          some s ∧
      Confined {} s.ctx s.agent.actionsTaken := by
  have hrun : (runFrom (step (fun _ ↦ true) {} twoActions true) { ctx := {} }
      [.agent .start, .agent (.observed (.ok {})), .agent (.replied (.ok "")), .tool,
        .tool]).isSome := by decide +kernel
  obtain ⟨s, hrun⟩ := Option.isSome_iff_exists.mp hrun
  exact ⟨s, hrun, agent_confined _ _ _ _ _ _ hrun⟩

/-! ## Without a language model -/

-- The TTL hint is 750.
def TtlRaised (ctx : FactoryContext) : Prop :=
  ∃ written, ctx.agentHints.get? (.str "kv_ttl_ms") = some (written, .int 750)

theorem Started.stub_calls (h : Started isPrintable loads false events s.agent)
    {call : String × JsonValue} (hcall : call ∈ s.agent.calls) :
    (call = ("set_agent_hint", .dict [("key", .str "kv_ttl_ms"), ("value", .int 750)]) ∧
        ∃ obs, .agent (.observed (.ok obs)) ∈ events ∧
          NATAgent.maxLoad.lt obs.clusterLoad = true) ∨
      ∃ modelId, call = ("evaluate_model", .dict [("model_id", modelId)]) := by
  obtain ⟨es, hrun, hes⟩ := h
  cases NATAgent.stub_run_calls hrun call hcall with
  | @raiseTtl obs hobs hload =>
    obtain hevent | ⟨result, hresult⟩ := hes _ hobs
    · exact .inl ⟨rfl, obs, hevent, hload⟩
    · cases hresult
  | @evaluate obs c modelId => exact .inr ⟨modelId, rfl⟩

-- The one hint on the record is the longer TTL.
theorem Started.stub_sets (h : Started isPrintable loads false events s.agent) {a : AgentAction}
    (ha : a ∈ s.agent.actionsTaken) {k : DictKey} {value : JsonValue} (hsets : Sets a k value) :
    k = .str "kv_ttl_ms" ∧ value = .int 750 ∧
      ∃ obs, .agent (.observed (.ok obs)) ∈ events ∧
        NATAgent.maxLoad.lt obs.clusterLoad = true := by
  obtain ⟨htype, items, hitems, hkey, hvalue⟩ := hsets
  have hcall : NATAgent.toolCall a = some ("set_agent_hint", a.parameters) := by
    obtain ⟨type, parameters, rationale⟩ := a
    obtain rfl : type = .str "set_hint" := htype
    rfl
  have hmem : ("set_agent_hint", a.parameters) ∈ s.agent.calls := by
    obtain ⟨es, hrun, -⟩ := h
    rw [(NATAgent.agent_run hrun).calls_eq]
    exact List.mem_filterMap.mpr ⟨a, ha, hcall⟩
  obtain ⟨heq, hobs⟩ | ⟨modelId, heq⟩ := h.stub_calls hmem
  · rw [hitems] at heq
    cases heq
    cases hkey
    exact ⟨rfl, hvalue.symm, hobs⟩
  · have hname : "set_agent_hint" = "evaluate_model" := congrArg Prod.fst heq
    exact absurd hname (by decide)

-- From then on the hint stays, whatever the load.
theorem Started.ttlRaised_stays (h : Started isPrintable loads false events s.agent)
    (hraised : TtlRaised s.ctx) {later : List Event} {t : Factory}
    (hlater : runFrom (AgentTools.step isPrintable {} loads false) s later = some t) :
    TtlRaised t.ctx := by
  obtain ⟨written, hraised⟩ := hraised
  obtain ⟨hstarted, hlast⟩ := h.run hlater
  have hthere : DictKey.str "kv_ttl_ms" ∈ t.ctx.agentHints :=
    hlast.kept _ (Dict.mem_iff_exists.mpr ⟨_, hraised⟩)
  obtain ⟨entry, hentry⟩ := Dict.mem_iff_exists.mp hthere
  obtain hold | ⟨a, ha, hsets⟩ := hlast.hint _ entry hentry
  · exact ⟨written, by rw [hentry, ← hold, hraised]⟩
  · exact ⟨entry.1, by rw [hentry, ← (hstarted.stub_sets ha hsets).2.1]⟩

/-! ## From a high load to the longer TTL -/

/-- The agent waits for the tool that sets the TTL hint. -/
structure Waiting (s : Factory) : Prop where
  calling : ∃ c rest, s.agent.phase = .calling c rest
  call : s.agent.calls.getLast? =
    some ("set_agent_hint", .dict [("key", .str "kv_ttl_ms"), ("value", .int 750)])

/-- The tool has not had its turn: nothing but `stop` has happened, or the task has been cancelled
before it ran. -/
def CutShort (later : List Event) : Prop :=
  ∃ stops rest, later = stops ++ rest ∧ (∀ e ∈ stops, e = .agent .stop) ∧
    (rest = [] ∨ ∃ behind, rest = .agent .cancel :: behind)

-- The tool that sets the hint does so.
theorem run_raiseTtl (ctx : FactoryContext) :
    TtlRaised ((mcpCall isPrintable {} "set_agent_hint"
      (.dict [("key", .str "kv_ttl_ms"), ("value", .int 750)])).run ctx).2 :=
  ⟨_, Dict.get?_set_self ..⟩

/-- While the agent waits it can be stopped or cancelled, or the tool runs and sets the hint. -/
theorem Waiting.step (h : Waiting s)
    (hstep : AgentTools.step isPrintable {} loads false s event = some s') :
    (event = .agent .stop ∧ Waiting s') ∨ event = .agent .cancel ∨ TtlRaised s'.ctx := by
  obtain ⟨c, rest, hphase⟩ := h.calling
  obtain ⟨e, rfl, hagent, -⟩ | ⟨-, call, hcall, -, hctx⟩ := step_cases hstep
  · have hmoves := NATAgent.step_moves hagent
    generalize hafter : s'.agent = agent at hmoves
    cases hmoves with
    | stops => exact .inl ⟨rfl, ⟨c, rest, by rw [hafter, hphase]⟩, by rw [hafter, h.call]⟩
    | cancels _ => exact .inr (.inl rfl)
    | starts hidle =>
      rw [hphase] at hidle
      cases hidle
    | callFails _ | callReturns _ => cases hstep
    | observationFails hother | asks hother _ | stubReasons hother _ | replies hother
    | wakes hother =>
      rw [hphase] at hother
      cases hother
  · rw [h.call, Option.some.injEq] at hcall
    rw [hctx, ← hcall]
    exact .inr (.inr (run_raiseTtl s.ctx))

theorem Waiting.run (h : Waiting s) (hstarted : Started isPrintable loads false events s.agent)
    {later : List Event} {t : Factory}
    (hrun : runFrom (AgentTools.step isPrintable {} loads false) s later = some t) :
    TtlRaised t.ctx ∨ CutShort later := by
  induction later generalizing s events with
  | nil => exact .inr ⟨[], [], rfl, fun _ he ↦ absurd he List.not_mem_nil, .inl rfl⟩
  | cons event later ih =>
    obtain ⟨s', hstep, hrest⟩ := runFrom_cons_eq_some.mp hrun
    obtain ⟨rfl, hwaiting⟩ | rfl | hraised := h.step hstep
    · refine (ih hwaiting (hstarted.step hstep) hrest).imp_right ?_
      rintro ⟨stops, rest, rfl, hstops, hend⟩
      exact ⟨.agent .stop :: stops, rest, rfl, List.forall_mem_cons.mpr ⟨rfl, hstops⟩, hend⟩
    · exact .inr ⟨[], _, rfl, fun _ he ↦ absurd he List.not_mem_nil, .inr ⟨later, rfl⟩⟩
    · exact .inl (Started.ttlRaised_stays (hstarted.step hstep) hraised hrest)

end AsrServe.AgenticFactory.McpServer.AgentTools
