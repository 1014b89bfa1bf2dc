import AsrServe.AgenticFactory.AgentHints
import AsrServe.AgenticFactory.JsonValue
import AsrServe.Reasoning.BoundedLog
import AsrServe.Reasoning.History

/-!
# Patching one hint (`agentic-factory/src/agent_hints.py`)

`set_hint` with whatever JSON holds as its value.  The model id is stored as it comes, so a profile
holds a JSON value there.  A method may raise after it has changed the manager.
-/

open AsrServe.Reasoning

namespace AsrServe.AgenticFactory.SetHint

structure HintProfile where
  modelId : JsonValue
  priority : Int := 5
  kvTtlMs : Int := 500
  debug : Bool := false

structure AgentHintsManager where
  active : HintProfile
  history : List HintProfile := []

-- `AgentHintsManager(default_model_id)`.
def AgentHintsManager.init (defaultModelId : String) : AgentHintsManager where
  active := { modelId := .str defaultModelId }

def HintProfile.toDict (p : HintProfile) : Dict String JsonValue :=
  Dict.empty.set "priority" (.int p.priority)
    |>.set "kv_ttl_ms" (.int p.kvTtlMs)
    |>.set "model_id" p.modelId
    |>.set "debug" (.bool p.debug)

abbrev Method := ExceptT PyException (StateM AgentHintsManager)

def setProfile (profile : HintProfile) : Method Unit := do
  modify fun hints ↦ { hints with history := hints.history ++ [hints.active] }
  if (← get).history.length > 100 then
    modify fun hints ↦ { hints with history := hints.history.tail }
  modify fun hints ↦ { hints with active := profile }

variable (intOfStr : String → Option Int)

/-- The profile `set_hint` builds from the current one. -/
def HintProfile.patched (current : HintProfile) (key : String) (value : JsonValue) :
    Except PyException HintProfile := do
  let kwargs := current.toDict.set key value
  let modelId := (kwargs.get? "model_id").getD current.modelId
  let priority ← ((kwargs.get? "priority").getD (.int current.priority)).toInt intOfStr
  let kvTtlMs ← ((kwargs.get? "kv_ttl_ms").getD (.int current.kvTtlMs)).toInt intOfStr
  let debug := ((kwargs.get? "debug").getD (.bool current.debug)).truthy
  return { modelId, priority, kvTtlMs, debug }

def setHint (key : String) (value : JsonValue) : Method Unit := do
  let updated ← (← get).active.patched intOfStr key value
  setProfile updated

/-- A call of one of the two methods. -/
inductive Write where
  | setProfile (profile : HintProfile)
  | setHint (key : String) (value : JsonValue)

def call : Write → Method Unit
  | .setProfile profile => setProfile profile
  | .setHint key value => setHint intOfStr key value

-- Each call leaves the manager it has changed, whether it raises or not.
def after (hints : AgentHintsManager) (writes : List Write) : AgentHintsManager :=
  writes.foldl (fun hints write ↦ ((call intOfStr write).run hints).2) hints

/-! ## One call -/

theorem run_setProfile (profile : HintProfile) (hints : AgentHintsManager) :
    (setProfile profile).run hints = (.ok (),
      { active := profile, history := trim 100 (hints.history ++ [hints.active]) }) := by
  rw [trim]
  show (if (hints.history ++ [hints.active]).length > 100 then _ else _ : Method Unit).run
    { hints with history := hints.history ++ [hints.active] } = _
  split <;> rfl

theorem run_setHint (key : String) (value : JsonValue) (hints : AgentHintsManager) :
    (setHint intOfStr key value).run hints =
      match hints.active.patched intOfStr key value with
      | .error e => (.error e, hints)
      | .ok profile => (setProfile profile).run hints := by
  show (liftM (hints.active.patched intOfStr key value) >>= setProfile : Method Unit).run hints = _
  cases hints.active.patched intOfStr key value <;> rfl

/-- A patch changes the field its key names, if `int()` takes the value, and no other. -/
theorem HintProfile.patched_eq (current : HintProfile) (key : String) (value : JsonValue) :
    current.patched intOfStr key value =
      if key = "priority" then
        (value.toInt intOfStr).map fun n ↦ { current with priority := n }
      else if key = "kv_ttl_ms" then
        (value.toInt intOfStr).map fun n ↦ { current with kvTtlMs := n }
      else if key = "model_id" then .ok { current with modelId := value }
      else if key = "debug" then .ok { current with debug := value.truthy }
      else .ok current := by
  rw [patched]
  simp only [toDict, Dict.get?_set, Dict.get?_empty]
  by_cases hp : key = "priority"
  · subst hp
    cases hv : value.toInt intOfStr <;>
      simp [hv, bind, Except.bind, pure, Except.pure, Except.map]
  · by_cases hk : key = "kv_ttl_ms"
    · subst hk
      cases hv : value.toInt intOfStr <;>
      simp [hv, bind, Except.bind, pure, Except.pure, Except.map]
    · by_cases hm : key = "model_id"
      · subst hm
        simp [bind, Except.bind, pure, Except.pure]
      · by_cases hd : key = "debug"
        · subst hd
          simp [bind, Except.bind, pure, Except.pure]
        · -- the profile is built again as it was
          simp [hp, hk, hm, hd, Ne.symm hp, Ne.symm hk, Ne.symm hm, Ne.symm hd, bind, Except.bind,
            pure, Except.pure]

/-- What becomes of the current profile, told by the key. -/
inductive Patches (current : HintProfile) (value : JsonValue) :
    String → Except PyException HintProfile → Prop
  | priority : Patches current value "priority"
      ((value.toInt intOfStr).map fun n ↦ { current with priority := n })
  | kvTtlMs : Patches current value "kv_ttl_ms"
      ((value.toInt intOfStr).map fun n ↦ { current with kvTtlMs := n })
  | modelId : Patches current value "model_id" (.ok { current with modelId := value })
  | debug : Patches current value "debug" (.ok { current with debug := value.truthy })
  | other {key : String} (hp : key ≠ "priority") (hk : key ≠ "kv_ttl_ms") (hm : key ≠ "model_id")
      (hd : key ≠ "debug") : Patches current value key (.ok current)

theorem HintProfile.patches (current : HintProfile) (key : String) (value : JsonValue) :
    Patches intOfStr current value key (current.patched intOfStr key value) := by
  rw [patched_eq]
  split_ifs with hp hk hm hd
  · subst hp
    exact .priority
  · subst hk
    exact .kvTtlMs
  · subst hm
    exact .modelId
  · subst hd
    exact .debug
  · exact .other hp hk hm hd

/-- A hint for a field that holds an integer, with a value `int()` raises on. -/
def Write.Rejected (intOfStr : String → Option Int) : Write → Prop
  | .setProfile _ => False
  | .setHint key value =>
    (key = "priority" ∨ key = "kv_ttl_ms") ∧ ∃ e, value.toInt intOfStr = .error e

-- What a call writes into a field, if it does.
def Write.modelIdOf : Write → Option JsonValue
  | .setHint key value => if key = "model_id" then some value else none
  | .setProfile _ => none

def Write.intOf (intOfStr : String → Option Int) (field : String) : Write → Option Int
  | .setHint key value => if key = field then (value.toInt intOfStr).toOption else none
  | .setProfile _ => none

def Write.debugOf : Write → Option Bool
  | .setHint key value => if key = "debug" then some value.truthy else none
  | .setProfile _ => none

/-- `p` with the hints of the calls in `since`, for each field the last one that was taken. -/
def HintProfile.withHints (intOfStr : String → Option Int) (p : HintProfile)
    (since : List Write) : HintProfile where
  modelId := latest Write.modelIdOf since p.modelId
  priority := latest (Write.intOf intOfStr "priority") since p.priority
  kvTtlMs := latest (Write.intOf intOfStr "kv_ttl_ms") since p.kvTtlMs
  debug := latest Write.debugOf since p.debug

theorem patched_withHints (p : HintProfile) (since : List Write) (key : String)
    (value : JsonValue) :
    ((p.withHints intOfStr since).patched intOfStr key value).toOption.getD
        (p.withHints intOfStr since) =
      p.withHints intOfStr (since ++ [.setHint key value]) := by
  have hpatches := (p.withHints intOfStr since).patches intOfStr key value
  generalize (p.withHints intOfStr since).patched intOfStr key value = result at hpatches ⊢
  simp only [HintProfile.withHints, latest_concat, Write.modelIdOf, Write.intOf, Write.debugOf]
  cases hpatches with
  | priority =>
    cases hv : value.toInt intOfStr <;> simp [HintProfile.withHints, Except.map, Except.toOption]
  | kvTtlMs =>
    cases hv : value.toInt intOfStr <;> simp [HintProfile.withHints, Except.map, Except.toOption]
  | modelId => simp [HintProfile.withHints, Except.toOption]
  | debug => simp [HintProfile.withHints, Except.toOption]
  | other hp hk hm hd => simp [HintProfile.withHints, hp, hk, hm, hd, Except.toOption]

theorem patched_error_iff (current : HintProfile) (key : String) (value : JsonValue) :
    (∃ e, current.patched intOfStr key value = .error e) ↔
      (Write.setHint key value).Rejected intOfStr := by
  have hpatches := current.patches intOfStr key value
  rw [Write.Rejected]
  generalize current.patched intOfStr key value = result at hpatches ⊢
  cases hpatches with
  | priority => cases hv : value.toInt intOfStr <;> simp [Except.map]
  | kvTtlMs => cases hv : value.toInt intOfStr <;> simp [Except.map]
  | modelId => simp
  | debug => simp
  | other hp hk hm hd => simp [hp, hk]

-- The profile in force after a call.
theorem active_call (write : Write) (hints : AgentHintsManager) :
    ((call intOfStr write).run hints).2.active =
      match write with
      | .setProfile profile => profile
      | .setHint key value =>
        (hints.active.patched intOfStr key value).toOption.getD hints.active := by
  cases write with
  | setProfile profile => rw [call, run_setProfile]
  | setHint key value =>
    rw [call, run_setHint]
    dsimp only
    cases hints.active.patched intOfStr key value with
    | error e => rfl
    | ok updated =>
      dsimp only
      rw [run_setProfile]
      rfl

/-- A call raises just when its value is rejected, and has then changed nothing; otherwise the
profile it replaces joins the history. -/
theorem call_spec (write : Write) (hints : AgentHintsManager) :
    (write.Rejected intOfStr ∧ (∃ e, (call intOfStr write).run hints = (.error e, hints))) ∨
      ¬ write.Rejected intOfStr ∧ ((call intOfStr write).run hints).1 = .ok () ∧
        ((call intOfStr write).run hints).2.history =
          trim 100 (hints.history ++ [hints.active]) := by
  cases write with
  | setProfile profile =>
    rw [call, run_setProfile]
    exact .inr ⟨not_false, rfl, rfl⟩
  | setHint key value =>
    have hiff := patched_error_iff intOfStr hints.active key value
    rw [call, run_setHint]
    cases hpatched : hints.active.patched intOfStr key value with
    | error e => exact .inl ⟨hiff.mp ⟨e, hpatched⟩, e, rfl⟩
    | ok updated =>
      refine .inr ⟨fun hrejected ↦ ?_, ?_⟩
      · obtain ⟨e, he⟩ := hiff.mpr hrejected
        rw [hpatched] at he
        cases he
      · dsimp only
        rw [run_setProfile]
        exact ⟨rfl, rfl⟩

/-! ## Whole runs -/

/-- `p` is the last profile that was set, or the one at the start, and `since` the calls after. -/
structure LastProfile (start : HintProfile) (writes : List Write) (p : HintProfile)
    (since : List Write) : Prop where
  set : ∃ before, .setProfile start :: writes = before ++ .setProfile p :: since
  only_hints : ∀ q, .setProfile q ∉ since

theorem after_concat (hints : AgentHintsManager) (writes : List Write) (write : Write) :
    after intOfStr hints (writes ++ [write]) =
      ((call intOfStr write).run (after intOfStr hints writes)).2 := List.foldl_concat ..

theorem active_after (hints : AgentHintsManager) (writes : List Write) :
    ∃ p since, LastProfile hints.active writes p since ∧
      (after intOfStr hints writes).active = p.withHints intOfStr since := by
  induction writes using List.reverseRecOn with
  | nil => exact ⟨hints.active, [], ⟨⟨[], rfl⟩, fun _ ↦ List.not_mem_nil⟩, rfl⟩
  | append_singleton writes write ih =>
    rw [after_concat, active_call]
    cases write with
    | setProfile q =>
      exact ⟨q, [], ⟨⟨.setProfile hints.active :: writes, rfl⟩, fun _ ↦ List.not_mem_nil⟩, rfl⟩
    | setHint key value =>
      obtain ⟨p, since, ⟨⟨before, hset⟩, honly⟩, hactive⟩ := ih
      refine ⟨p, since ++ [.setHint key value], ⟨⟨before, ?_⟩, fun q hq ↦ ?_⟩, ?_⟩
      · rw [← List.cons_append, hset, List.append_assoc, List.cons_append]
      · rcases List.mem_append.mp hq with hold | hnew
        · exact honly q hold
        · cases List.mem_singleton.mp hnew
      · dsimp only
        rw [hactive]
        exact patched_withHints intOfStr p since key value

theorem length_history_after {hints : AgentHintsManager} (h : hints.history.length ≤ 100)
    (writes : List Write) : (after intOfStr hints writes).history.length ≤ 100 := by
  induction writes using List.reverseRecOn with
  | nil => exact h
  | append_singleton writes write ih =>
    rw [after_concat]
    rcases call_spec intOfStr write (after intOfStr hints writes) with
      ⟨-, e, herror⟩ | ⟨-, -, hhistory⟩
    · rw [herror]
      exact ih
    · rw [hhistory]
      exact length_trim_concat_le ih _

/-- After any calls of the two methods: the next call raises just when it gives a field that holds
an integer a value `int()` raises on, and has then changed nothing; otherwise exactly the profile
it replaces joins the bounded history; and each field of the profile in force is what the last
taken hint for it since the last profile says, or else that profile. -/
theorem set_hint_patches (intOfStr : String → Option Int) (defaultModelId : String)
    (writes : List Write) (write : Write) :
    let hints := after intOfStr (.init defaultModelId) writes
    ((∃ e, ((call intOfStr write).run hints).1 = .error e) ↔ write.Rejected intOfStr) ∧
      (write.Rejected intOfStr → ((call intOfStr write).run hints).2 = hints) ∧
      (¬ write.Rejected intOfStr →
        ((call intOfStr write).run hints).2.history = trim 100 (hints.history ++ [hints.active])) ∧
      hints.history.length ≤ 100 ∧
      ∃ p since, LastProfile { modelId := .str defaultModelId } writes p since ∧
        hints.active = p.withHints intOfStr since := by
  intro hints
  have hbound := length_history_after intOfStr
    (show (AgentHintsManager.init defaultModelId).history.length ≤ 100 from Nat.zero_le _) writes
  have hactive := active_after intOfStr (.init defaultModelId) writes
  rcases call_spec intOfStr write hints with
    ⟨hrejected, e, herror⟩ | ⟨htaken, hok, hhistory⟩
  · refine ⟨iff_of_true ⟨e, congrArg Prod.fst herror⟩ hrejected,
      fun _ ↦ congrArg Prod.snd herror, fun h ↦ absurd hrejected h, hbound, hactive⟩
  · refine ⟨iff_of_false ?_ htaken, fun h ↦ absurd h htaken, fun _ ↦ hhistory, hbound, hactive⟩
    rintro ⟨e, he⟩
    rw [hok] at he
    cases he

/-! ## Model ids that are strings -/

/-- The value as the manager of string model ids knows it. -/
def hintValue (intOfStr : String → Option Int) (value : JsonValue) : HintValue where
  toInt? := (value.toInt intOfStr).toOption
  toBool? := some value.truthy
  modelId := match value with | .str id => id | _ => ""

def ofStrings (p : AgenticFactory.HintProfile) : HintProfile where
  modelId := .str p.modelId
  priority := p.priority
  kvTtlMs := p.kvTtlMs
  debug := p.debug

/-- Both managers hold the same profiles. -/
structure Holds (hints : AgentHintsManager) (strings : AgenticFactory.AgentHintsManager) :
    Prop where
  active_eq : hints.active = ofStrings strings.active
  history_eq : hints.history = strings.history.map ofStrings

theorem Holds.setProfile {hints : AgentHintsManager} {strings : AgenticFactory.AgentHintsManager}
    (h : Holds hints strings) (p : AgenticFactory.HintProfile) :
    Holds ((SetHint.setProfile (ofStrings p)).run hints).2 (strings.setProfile p) := by
  rw [run_setProfile]
  refine ⟨rfl, ?_⟩
  show trim 100 (hints.history ++ [hints.active]) =
    (trim 100 (strings.history ++ [strings.active])).map ofStrings
  rw [map_trim, List.map_append, List.map_singleton, h.active_eq, h.history_eq]

-- The profile a patch builds is the same for both.
theorem patched_ofStrings (strings : AgenticFactory.AgentHintsManager) {key : String}
    {value : JsonValue} (hmodel : key = "model_id" → ∃ id, value = .str id) :
    ∃ q : Option AgenticFactory.HintProfile,
      strings.setHint key (hintValue intOfStr value) = q.map strings.setProfile ∧
        ((ofStrings strings.active).patched intOfStr key value).toOption = q.map ofStrings := by
  have hpatches := (ofStrings strings.active).patches intOfStr key value
  rw [AgenticFactory.AgentHintsManager.setHint,
    show (hintValue intOfStr value).toInt? = (value.toInt intOfStr).toOption from rfl]
  generalize (ofStrings strings.active).patched intOfStr key value = result at hpatches ⊢
  cases hpatches with
  | priority =>
    refine ⟨(value.toInt intOfStr).toOption.map fun n ↦ { strings.active with priority := n }, ?_⟩
    cases value.toInt intOfStr <;> exact ⟨rfl, rfl⟩
  | kvTtlMs =>
    refine ⟨(value.toInt intOfStr).toOption.map fun n ↦ { strings.active with kvTtlMs := n }, ?_⟩
    cases value.toInt intOfStr <;> exact ⟨rfl, rfl⟩
  | modelId =>
    obtain ⟨id, rfl⟩ := hmodel rfl
    exact ⟨some { strings.active with modelId := id }, rfl, rfl⟩
  | debug => exact ⟨some { strings.active with debug := value.truthy }, rfl, rfl⟩
  | other hp hk hm hd =>
    simp only [hp, hk, hm, hd, if_false]
    exact ⟨some strings.active, rfl, rfl⟩

/-- Where model ids are strings, this manager is the one that was modelled with strings. -/
theorem Holds.setHint {hints : AgentHintsManager} {strings : AgenticFactory.AgentHintsManager}
    (h : Holds hints strings) {key : String} {value : JsonValue}
    (hmodel : key = "model_id" → ∃ id, value = .str id) :
    Holds ((SetHint.setHint intOfStr key value).run hints).2
      ((strings.setHint key (hintValue intOfStr value)).getD strings) := by
  obtain ⟨q, hstrings, hpatched⟩ := patched_ofStrings intOfStr strings hmodel
  rw [run_setHint, hstrings, h.active_eq]
  cases hresult : (ofStrings strings.active).patched intOfStr key value with
  | error e =>
    rw [hresult] at hpatched
    obtain rfl := Option.map_eq_none_iff.mp hpatched.symm
    exact h
  | ok updated =>
    rw [hresult] at hpatched
    obtain ⟨p, rfl, rfl⟩ := Option.map_eq_some_iff.mp hpatched.symm
    exact h.setProfile p

end AsrServe.AgenticFactory.SetHint
