import AsrServe.AgenticFactory.AgentHints
import Mathlib.Data.List.Induction

/-!
# Hints set through the agent's tool (`agentic-factory/src/mcp_client.py`)

`set_agent_hint` writes into `FactoryContext.agent_hints`, requests are decorated from the hints
manager: two stores with writers of their own.
-/

open AsrServe.Reasoning

namespace AsrServe.AgenticFactory

/-- `FactoryContext`, of which the tool uses `agent_hints` alone. -/
structure FactoryContext where
  agentHints : Dict String Value := Dict.empty

/-- The arguments of a `set_agent_hint` call with the defaults of those it leaves out. -/
structure SetAgentHintArguments where
  key : String := ""
  value : Value := .none
deriving DecidableEq, Repr

/-- `_handle_set_agent_hint`: the context and the text the agent is shown. -/
def handleSetAgentHint (ctx : FactoryContext) (arguments : SetAgentHintArguments) :
    FactoryContext × String :=
  if arguments.key = "" then
    (ctx, "ERROR: key is required")
  else
    ({ ctx with agentHints := ctx.agentHints.set arguments.key arguments.value },
      "Agent hint set: " ++ arguments.key ++ "=" ++ arguments.value.text)

/-! ## Hints -/

/-- A known key with a value of its type. -/
inductive Hint where
  | priority (n : Int)
  | kvTtlMs (n : Int)
  | modelId (id : String)
  | debug (b : Bool)
deriving DecidableEq, Repr

def Hint.arguments : Hint → SetAgentHintArguments
  | .priority n => { key := "priority", value := .int n }
  | .kvTtlMs n => { key := "kv_ttl_ms", value := .int n }
  | .modelId id => { key := "model_id", value := .str id }
  | .debug b => { key := "debug", value := .bool b }

def Hint.key (hint : Hint) : String := hint.arguments.key

def Hint.value (hint : Hint) : Value := hint.arguments.value

-- The header a hint is attached as, and what stands in it; `false` is attached by no header.
def Hint.header : Hint → String × Option String
  | .priority n => ("X-Agent-Priority", some (toString n))
  | .kvTtlMs n => ("X-Agent-KV-TTL-Ms", some (toString n))
  | .modelId id => ("X-Agent-Model-ID", some id)
  | .debug b => ("X-Agent-Debug", if b then some "true" else none)

/-- What a manager write puts under a key, when it writes the key. -/
def HintWrite.written (key : String) : HintWrite → Option Value
  | .setProfile profile => profile.toDict.get? key
  | .setHint written value => if written = key then value.converted written else none

/-- The two stores of hints. -/
structure HintStores where
  ctx : FactoryContext := {}
  hints : AgentHintsManager := {}

inductive HintEvent where
  | tool (hint : Hint)
  | manager (write : HintWrite)
deriving DecidableEq, Repr

def HintStores.step (stores : HintStores) : HintEvent → HintStores
  | .tool hint => { stores with ctx := (handleSetAgentHint stores.ctx hint.arguments).1 }
  | .manager write => { stores with hints := stores.hints.write write }

def HintStores.run (stores : HintStores) (events : List HintEvent) : HintStores :=
  events.foldl step stores

def HintEvent.managerWrote (key : String) : HintEvent → Option Value
  | .tool _ => none
  | .manager write => write.written key

-- What is known of the last write of a key after one more event.
def HintEvent.updateLastTool (key : String) (last : Option Hint) : HintEvent → Option Hint
  | .tool hint => if hint.key = key then some hint else last
  | .manager write => if (write.written key).isSome then none else last

/-- The hint of the last write of the key, when that was a tool call. -/
def lastTool (key : String) (events : List HintEvent) : Option Hint :=
  events.foldl (HintEvent.updateLastTool key) none

-- What the last manager write of the key wrote; at first, what the profile in force says.
def lastManager (start : AgentHintsManager) (key : String) (events : List HintEvent) :
    Option Value :=
  events.foldl (fun last event ↦ (event.managerWrote key).or last) (start.getDict.get? key)

/-- A hint is the one in force: reported by `get_dict` as the context holds it, and attached. -/
def HintStores.Attached (stores : HintStores) (hint : Hint) : Prop :=
  stores.ctx.agentHints.get? hint.key = some hint.value ∧
    stores.hints.getDict.get? hint.key = some hint.value ∧
    stores.hints.getHeaders.get? hint.header.1 = hint.header.2

/-! ## One write -/

theorem getDict_write (hints : AgentHintsManager) (write : HintWrite) (key : String) :
    (hints.write write).getDict.get? key = (write.written key).or (hints.getDict.get? key) := by
  cases write with
  | setProfile profile =>
    show profile.toDict.get? key = (profile.toDict.get? key).or (hints.active.toDict.get? key)
    rw [HintProfile.get?_toDict, HintProfile.get?_toDict]
    split_ifs <;> rfl
  | setHint written value =>
    rw [AgentHintsManager.write, getDict_setHint, HintWrite.written]
    by_cases hkey : written = key
    · subst hkey
      rw [if_pos rfl]
      cases value.converted written with
      | none => rfl
      | some v => exact Dict.get?_set_self _ _ _
    · rw [if_neg hkey, Option.none_or]
      cases value.converted written with
      | none => rfl
      | some v => exact Dict.get?_set_of_ne _ _ (Ne.symm hkey)

theorem getDict_step (stores : HintStores) (event : HintEvent) (key : String) :
    (stores.step event).hints.getDict.get? key =
      (event.managerWrote key).or (stores.hints.getDict.get? key) := by
  cases event with
  | tool hint => rfl
  | manager write => exact getDict_write stores.hints write key

theorem agentHints_tool (stores : HintStores) (hint : Hint) :
    (stores.step (.tool hint)).ctx.agentHints =
      stores.ctx.agentHints.set hint.key hint.value := by
  cases hint <;> rfl

-- What `get_dict` reports is what the headers say.
theorem getHeaders_of_getDict {hints : AgentHintsManager} {hint : Hint}
    (h : hints.getDict.get? hint.key = some hint.value) :
    hints.getHeaders.get? hint.header.1 = hint.header.2 := by
  rw [AgentHintsManager.getDict, HintProfile.get?_toDict] at h
  rw [AgentHintsManager.getHeaders, HintProfile.get?_toHeaders]
  cases hint with
  | priority n => simp_all [Hint.key, Hint.value, Hint.arguments, Hint.header]
  | kvTtlMs n => simp_all [Hint.key, Hint.value, Hint.arguments, Hint.header]
  | modelId id => simp_all [Hint.key, Hint.value, Hint.arguments, Hint.header]
  | debug b => cases b <;> simp_all [Hint.key, Hint.value, Hint.arguments, Hint.header]

/-! ## Whole runs -/

/-- `get_dict` knows the manager writes alone. -/
theorem getDict_run (stores : HintStores) (events : List HintEvent) (key : String) :
    (stores.run events).hints.getDict.get? key = lastManager stores.hints key events := by
  induction events using List.reverseRecOn with
  | nil => rfl
  | append_singleton events event ih =>
    rw [HintStores.run, List.foldl_concat, lastManager, List.foldl_concat, getDict_step]
    exact congrArg _ ih

/-- The context holds what the last tool call set. -/
theorem agentHints_run (stores : HintStores) (events : List HintEvent) {key : String} {hint : Hint}
    (h : lastTool key events = some hint) :
    hint.key = key ∧ (stores.run events).ctx.agentHints.get? key = some hint.value := by
  induction events using List.reverseRecOn with
  | nil => cases h
  | append_singleton events event ih =>
    rw [AgenticFactory.lastTool, List.foldl_concat] at h
    rw [HintStores.run, List.foldl_concat]
    cases event with
    | tool latest =>
      rw [HintEvent.updateLastTool] at h
      rw [agentHints_tool, Dict.get?_set]
      by_cases hkey : latest.key = key
      · rw [if_pos hkey, Option.some.injEq] at h
        subst h
        exact ⟨hkey, if_pos hkey.symm⟩
      · rw [if_neg hkey] at h
        rw [if_neg (Ne.symm hkey)]
        exact ih h
    | manager write =>
      rw [HintEvent.updateLastTool] at h
      by_cases hwritten : (write.written key).isSome
      · rw [if_pos hwritten] at h
        cases h
      · rw [if_neg hwritten] at h
        exact ih h

/-- A hint set through the tool is in force just when the manager had already been told so. -/
theorem tool_hints_attached_iff (stores : HintStores) (events : List HintEvent) :
    (∀ key hint, lastTool key events = some hint → (stores.run events).Attached hint) ↔
      ∀ key hint, lastTool key events = some hint →
        lastManager stores.hints key events = some hint.value := by
  apply forall_congr' fun key ↦ forall_congr' fun hint ↦ forall_congr' fun hlast ↦ ?_
  obtain ⟨rfl, hctx⟩ := agentHints_run stores events hlast
  rw [← getDict_run]
  constructor
  · exact fun h ↦ h.2.1
  · exact fun h ↦ ⟨hctx, h, getHeaders_of_getDict h⟩

/-- The agent sets the priority to 9 and is told so; requests go out with 5. -/
theorem tool_hint_not_attached :
    ¬ ∀ key hint, lastTool key [.tool (.priority 9)] = some hint →
      (HintStores.run {} [.tool (.priority 9)]).Attached hint := by
  intro h
  exact absurd (h "priority" (.priority 9) (by decide)).2.1 (by decide)

end AsrServe.AgenticFactory
