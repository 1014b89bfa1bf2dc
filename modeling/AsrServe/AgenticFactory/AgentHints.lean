import AsrServe.Reasoning.Dict

/-!
# Agent hints (`agentic-factory/src/agent_hints.py`)

The hint profile in force and the bounded history behind it.
-/

open AsrServe.Reasoning

namespace AsrServe.AgenticFactory

/-- A value given to `set_hint`, known by what `int()` and `bool()` make of it (`none` is an
exception) and by itself as a model id. -/
structure HintValue where
  toInt? : Option Int
  toBool? : Option Bool
  modelId : String
deriving DecidableEq, Repr

/-- A named set of hints; `updated_at` is left out. -/
structure HintProfile where
  modelId : String
  priority : Int := 5
  kvTtlMs : Int := 500
  debug : Bool := false
deriving DecidableEq, Repr

structure AgentHintsManager where
  active : HintProfile := { modelId := "whisper-large-v3" }
  history : List HintProfile := []
deriving DecidableEq, Repr

-- `_history.append(_active)`, then `pop(0)` once the list is longer than 100.
def AgentHintsManager.setProfile (hints : AgentHintsManager) (profile : HintProfile) :
    AgentHintsManager :=
  let history := hints.history ++ [hints.active]
  { active := profile
    history := if history.length > 100 then history.tail else history }

/-- `set_hint`: the profile in force with one key overwritten; `none` when a conversion raises.  A
key that names no hint leaves the profile as it was. -/
def AgentHintsManager.setHint (hints : AgentHintsManager) (key : String) (value : HintValue) :
    Option AgentHintsManager := do
  let current := hints.active
  let priority ← if key = "priority" then value.toInt? else some current.priority
  let kvTtlMs ← if key = "kv_ttl_ms" then value.toInt? else some current.kvTtlMs
  let debug ← if key = "debug" then value.toBool? else some current.debug
  return hints.setProfile
    { modelId := if key = "model_id" then value.modelId else current.modelId
      priority := priority
      kvTtlMs := kvTtlMs
      debug := debug }

/-! ## Reading -/

/-- A value of a hint dictionary. -/
inductive Value where
  | none
  | bool (b : Bool)
  | int (n : Int)
  | str (s : String)
  -- Any other value, known by its `str()`.
  | other (text : String)
deriving DecidableEq, Repr

-- `str()`.
def Value.text : Value → String
  | .none => "None"
  | .bool b => if b then "True" else "False"
  | .int n => toString n
  | .str s => s
  | .other text => text

/-- `to_headers`: the hints as request headers. -/
def HintProfile.toHeaders (p : HintProfile) : Dict String String :=
  let headers := Dict.empty.set "X-Agent-Priority" (toString p.priority)
    |>.set "X-Agent-KV-TTL-Ms" (toString p.kvTtlMs)
    |>.set "X-Agent-Model-ID" p.modelId
  if p.debug then headers.set "X-Agent-Debug" "true" else headers

/-- `to_dict`. -/
def HintProfile.toDict (p : HintProfile) : Dict String Value :=
  Dict.empty.set "priority" (.int p.priority)
    |>.set "kv_ttl_ms" (.int p.kvTtlMs)
    |>.set "model_id" (.str p.modelId)
    |>.set "debug" (.bool p.debug)

def AgentHintsManager.getHeaders (hints : AgentHintsManager) : Dict String String :=
  hints.active.toHeaders

def AgentHintsManager.getDict (hints : AgentHintsManager) : Dict String Value :=
  hints.active.toDict

-- The four keys one by one.
theorem HintProfile.get?_toDict (p : HintProfile) (key : String) :
    p.toDict.get? key =
      if key = "debug" then some (.bool p.debug)
      else if key = "model_id" then some (.str p.modelId)
      else if key = "kv_ttl_ms" then some (.int p.kvTtlMs)
      else if key = "priority" then some (.int p.priority)
      else none := by
  simp only [toDict, Dict.get?_set, Dict.get?_empty]

theorem HintProfile.get?_toHeaders (p : HintProfile) (header : String) :
    p.toHeaders.get? header =
      if header = "X-Agent-Debug" ∧ p.debug = true then some "true"
      else if header = "X-Agent-Model-ID" then some p.modelId
      else if header = "X-Agent-KV-TTL-Ms" then some (toString p.kvTtlMs)
      else if header = "X-Agent-Priority" then some (toString p.priority)
      else none := by
  rw [toHeaders]
  by_cases hdebug : p.debug = true
  · rw [if_pos hdebug]
    simp only [hdebug, and_true, Dict.get?_set, Dict.get?_empty]
  · rw [if_neg hdebug, if_neg (fun h ↦ hdebug h.2)]
    simp only [Dict.get?_set, Dict.get?_empty]

/-- What a value is stored as under a key; `none` when the key names no hint or the conversion
raises. -/
def HintValue.converted (value : HintValue) (key : String) : Option Value :=
  if key = "priority" ∨ key = "kv_ttl_ms" then value.toInt?.map .int
  else if key = "model_id" then some (.str value.modelId)
  else if key = "debug" then value.toBool?.map .bool
  else none

/-- `set_hint` sets its key in the dictionary, if it has something to set it to. -/
theorem getDict_setHint (hints : AgentHintsManager) (key : String) (value : HintValue) :
    ((hints.setHint key value).getD hints).getDict =
      (value.converted key).elim hints.getDict (hints.getDict.set key) := by
  rw [AgentHintsManager.setHint, HintValue.converted]
  by_cases hp : key = "priority"
  · subst hp
    cases value.toInt? with
    | none => rfl
    | some n => rfl
  · by_cases hk : key = "kv_ttl_ms"
    · subst hk
      cases value.toInt? with
      | none => rfl
      | some n => rfl
    · by_cases hm : key = "model_id"
      · subst hm
        rfl
      · by_cases hd : key = "debug"
        · subst hd
          cases value.toBool? with
          | none => rfl
          | some b => rfl
        · -- the profile is written back as it was
          simp only [hp, hk, hm, hd, or_self, if_false]
          rfl

/-! ## Writing -/

inductive HintWrite where
  | setProfile (profile : HintProfile)
  | setHint (key : String) (value : HintValue)
deriving DecidableEq, Repr

-- A write that raises has written nothing.
def AgentHintsManager.write (hints : AgentHintsManager) : HintWrite → AgentHintsManager
  | .setProfile profile => hints.setProfile profile
  | .setHint key value => (hints.setHint key value).getD hints

end AsrServe.AgenticFactory
