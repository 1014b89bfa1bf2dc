import AsrServe.AgenticFactory.JsonValue
import AsrServe.AgenticFactory.McpTools
import AsrServe.Reasoning.Double

/-!
# The tools of the MCP server (`agentic-factory/src/mcp_client.py`)

`call_tool` with whatever arguments a client sends.  A handler may raise after a callback has
changed the context.
-/

open AsrServe.Reasoning

namespace AsrServe.AgenticFactory.McpServer

/-- A number that a metric may be. -/
inductive PyNumber where
  | int (n : Int)
  | float (x : Double)

-- The double a format with `f` or `%` works on.
def PyNumber.toFloat : PyNumber → Except PyException Double
  | .int n =>
    match Double.ofInt n with
    | some x => .ok x
    | none => .error .overflowError
  | .float x => .ok x

-- `format(x, '.1%')`.
def PyNumber.percent (x : PyNumber) : Except PyException String :=
  x.toFloat.map fun y ↦ (y.scale 100).fixed 1 ++ "%"

/-- What `metrics.get(key, 'n/a')` gives. -/
inductive MetricValue where
  | number (x : PyNumber)
  | text (s : String)

-- `format(value, '.{places}f')`: a string has no format with `f`.
def MetricValue.fixed (places : Nat) : MetricValue → Except PyException String
  | .number x => x.toFloat.map (Double.fixed places)
  | .text _ => .error .valueError

/-- What makes two values one key of a dict: numbers are compared by value. -/
inductive DictKey where
  | none
  | number (q : ℚ)
  -- infinite, or the one `nan` that JSON is read with
  | special (repr : String)
  | str (s : String)
deriving DecidableEq

-- `hash()`.
def dictKey : JsonValue → Except PyException DictKey
  | .null => .ok .none
  | .bool b => .ok (.number (if b then 1 else 0))
  | .int n => .ok (.number n)
  | .float (some q) _ => .ok (.number q)
  | .float none repr => .ok (.special repr)
  | .str s => .ok (.str s)
  | .list _ => .error .typeError
  | .dict _ => .error .typeError

abbrev Metrics := Dict String PyNumber

/-- `FactoryContext`, its callbacks apart. -/
structure FactoryContext where
  candidates : List (Dict String JsonValue) := []
  metricsStore : Dict String Metrics := Dict.empty
  -- Each value with the key it was first set under.
  agentHints : Dict DictKey (JsonValue × JsonValue) := Dict.empty
  clusterLoad : PyNumber := .float (.round false 0 0)

def FactoryContext.updateMetrics (ctx : FactoryContext) (modelId : String) (metrics : Metrics) :
    FactoryContext :=
  { ctx with metricsStore := ctx.metricsStore.set modelId metrics }

/-- The callbacks the evaluator sets, which may change the context. -/
structure Callbacks where
  evaluateFn : Option (JsonValue → FactoryContext → Metrics × FactoryContext) := none
  promoteFn : Option (JsonValue → FactoryContext → FactoryContext) := none

abbrev Method := ExceptT PyException (StateM FactoryContext)

variable (isPrintable : Char → Bool) (callbacks : Callbacks)

-- `arguments.get(name, "")`.
def argument (arguments : Dict String JsonValue) (name : String) : JsonValue :=
  (arguments.get? name).getD (.str "")

def candidateLine (c : Dict String JsonValue) : Except PyException String := do
  let active := if ((c.get? "is_active").getD .null).truthy then " [ACTIVE]" else ""
  let some modelId := c.get? "model_id" | throw .keyError
  let version := (c.get? "version").getD (.str "?")
  return "  - " ++ modelId.text isPrintable ++ active ++ "  version=" ++ version.text isPrintable

def handleListModels (_arguments : Dict String JsonValue) : Method String := do
  let ctx ← get
  if ctx.candidates.isEmpty then
    return "No ASR model candidates registered."
  let lines ← liftM (ctx.candidates.mapM (candidateLine isPrintable))
  return "\n".intercalate ("Registered ASR model candidates:" :: lines)

-- A report of metrics as both tools lay it out.
def reportText (heading wer cer rtf ttft : String) : String :=
  heading ++ ":\n  WER=" ++ wer ++ "  CER=" ++ cer ++ "  RTF=" ++ rtf ++ "  TTFT=" ++ ttft ++ " ms"

def metricValue (metrics : Metrics) (key : String) : MetricValue :=
  (metrics.get? key).elim (.text "n/a") .number

def metricsReport (heading : String) (metrics : Metrics) : Except PyException String := do
  let wer ← (metricValue metrics "wer").fixed 3
  let cer ← (metricValue metrics "cer").fixed 3
  let rtf ← (metricValue metrics "rtf").fixed 4
  let ttft ← (metricValue metrics "ttft_ms").fixed 1
  return reportText heading wer cer rtf ttft

def handleEvaluateModel (arguments : Dict String JsonValue) : Method String := do
  let modelId := argument arguments "model_id"
  if !modelId.truthy then
    return "ERROR: model_id is required"
  match callbacks.evaluateFn with
  | none =>
    return "Evaluation triggered for " ++ modelId.text isPrintable ++
      " (stub – evaluator not wired)"
  | some evaluateFn =>
    let metrics ← modifyGetThe FactoryContext (evaluateFn modelId)
    metricsReport ("Evaluation complete for " ++ modelId.text isPrintable) metrics

-- `metrics_store.get(model_id)`: the keys are strings, and no other value is equal to one.
def lookupMetrics (store : Dict String Metrics) (modelId : JsonValue) :
    Except PyException (Option Metrics) := do
  match ← dictKey modelId with
  | .str id => return store.get? id
  | _ => return none

def handleGetMetrics (arguments : Dict String JsonValue) : Method String := do
  let modelId := argument arguments "model_id"
  if !modelId.truthy then
    return "ERROR: model_id is required"
  match ← lookupMetrics (← get).metricsStore modelId with
  | none => return "No metrics available for " ++ modelId.text isPrintable
  | some m => metricsReport ("Metrics for " ++ modelId.text isPrintable) m

def handleSetAgentHint (arguments : Dict String JsonValue) : Method String := do
  let key := argument arguments "key"
  let value := (arguments.get? "value").getD .null
  if !key.truthy then
    return "ERROR: key is required"
  let k ← dictKey key
  modify fun ctx ↦
    -- a key that is there already stays as it was written
    let written := ((ctx.agentHints.get? k).map Prod.fst).getD key
    { ctx with agentHints := ctx.agentHints.set k (written, value) }
  return "Agent hint set: " ++ key.text isPrintable ++ "=" ++ value.text isPrintable

def handlePromoteModel (arguments : Dict String JsonValue) : Method String := do
  let modelId := argument arguments "model_id"
  if !modelId.truthy then
    return "ERROR: model_id is required"
  match callbacks.promoteFn with
  | none =>
    return "Promotion requested for " ++ modelId.text isPrintable ++
      " (stub – promote_fn not wired)"
  | some promoteFn =>
    modify (promoteFn modelId)
    return "Model " ++ modelId.text isPrintable ++ " promoted to production."

def hintsText (hints : Dict DictKey (JsonValue × JsonValue)) : String :=
  let items := hints.values.map fun (key, value) ↦
    key.reprText isPrintable ++ ": " ++ value.reprText isPrintable
  "\x7b" ++ ", ".intercalate items ++ "\x7d"

def handleClusterStatus (_arguments : Dict String JsonValue) : Method String := do
  let ctx ← get
  let load ← ctx.clusterLoad.percent
  return "Cluster status:\n  overall_load=" ++ load ++
    "\n  active_hints=" ++ hintsText isPrintable ctx.agentHints ++
    "\n  models_evaluated=" ++ toString ctx.metricsStore.entries.length

inductive Tool where
  | listModels
  | evaluateModel
  | getMetrics
  | setAgentHint
  | promoteModel
  | getClusterStatus
deriving DecidableEq, Repr

def Tool.name : Tool → String
  | .listModels => "list_models"
  | .evaluateModel => "evaluate_model"
  | .getMetrics => "get_metrics"
  | .setAgentHint => "set_agent_hint"
  | .promoteModel => "promote_model"
  | .getClusterStatus => "get_cluster_status"

def Tool.handler : Tool → Dict String JsonValue → Method String
  | .listModels => handleListModels isPrintable
  | .evaluateModel => handleEvaluateModel isPrintable callbacks
  | .getMetrics => handleGetMetrics isPrintable
  | .setAgentHint => handleSetAgentHint isPrintable
  | .promoteModel => handlePromoteModel isPrintable callbacks
  | .getClusterStatus => handleClusterStatus isPrintable

-- `_TOOLS`.
def tools : List Tool :=
  [.listModels, .evaluateModel, .getMetrics, .setAgentHint, .promoteModel, .getClusterStatus]

/-- `call_tool`. -/
def callTool (name : String) (arguments : Dict String JsonValue) : Method String :=
  match tools.find? fun t ↦ t.name == name with
  | some t => t.handler isPrintable callbacks arguments
  | none => return "Unknown tool: " ++ name

/-! ## What a call should show -/

/-- `cell` is what a report should show of a metric. -/
def Shows (metrics : Metrics) (key : String) (places : Nat) (cell : String) : Prop :=
  match metrics.get? key with
  | none => cell = "n/a"
  | some x => ∃ y, x.toFloat = .ok y ∧ cell = y.fixed places

def IsReport (heading : String) (metrics : Metrics) (text : String) : Prop :=
  ∃ wer cer rtf ttft, Shows metrics "wer" 3 wer ∧ Shows metrics "cer" 3 cer ∧
    Shows metrics "rtf" 4 rtf ∧ Shows metrics "ttft_ms" 1 ttft ∧
    text = reportText heading wer cer rtf ttft

-- What is stored for the model, which only a string can name.
def storedMetrics (store : Dict String Metrics) : JsonValue → Option Metrics
  | .str id => store.get? id
  | _ => none

/-- The metrics a call of the tool reports, under their heading. -/
def Tool.reported (arguments : Dict String JsonValue) (ctx : FactoryContext) :
    Tool → Option (String × Metrics)
  | .evaluateModel =>
    let modelId := argument arguments "model_id"
    if modelId.truthy then
      callbacks.evaluateFn.map fun evaluateFn ↦
        ("Evaluation complete for " ++ modelId.text isPrintable, (evaluateFn modelId ctx).1)
    else none
  | .getMetrics =>
    let modelId := argument arguments "model_id"
    if modelId.truthy then
      (storedMetrics ctx.metricsStore modelId).map ("Metrics for " ++ modelId.text isPrintable, ·)
    else none
  | _ => none

/-- What a call gives is a text, with every metric the tool is to report, or `n/a` for it. -/
def Tool.Answers (arguments : Dict String JsonValue) (ctx : FactoryContext) (t : Tool)
    (result : Except PyException String) : Prop :=
  ∃ text, result = .ok text ∧ ∀ heading metrics,
    t.reported isPrintable callbacks arguments ctx = some (heading, metrics) →
      IsReport heading metrics text

/-- The call returns a text, and one that answers if a tool has the name. -/
def Answered (name : String) (arguments : Dict String JsonValue) (ctx : FactoryContext) : Prop :=
  let result := ((callTool isPrintable callbacks name arguments).run ctx).1
  (∃ text, result = .ok text) ∧
    ∀ t : Tool, t.name = name → t.Answers isPrintable callbacks arguments ctx result

-- Every integer but those past the largest double.
def PyNumber.InRange : PyNumber → Prop
  | .int n => n.natAbs < 2 ^ 1024 - 2 ^ 970
  | .float _ => True

-- All four metrics are there and can be formatted.
def Complete (metrics : Metrics) : Prop :=
  ∀ key ∈ ["wer", "cer", "rtf", "ttft_ms"], ∃ x, metrics.get? key = some x ∧ x.InRange

/-- What a tool needs of its arguments, the context and the callbacks. -/
def Tool.Answerable (arguments : Dict String JsonValue) (ctx : FactoryContext) : Tool → Prop
  | .listModels => True
  | .evaluateModel =>
    let modelId := argument arguments "model_id"
    modelId.truthy → ∀ evaluateFn ∈ callbacks.evaluateFn, Complete (evaluateFn modelId ctx).1
  | .getMetrics =>
    let modelId := argument arguments "model_id"
    modelId.truthy → modelId.hashable ∧
      ∀ metrics ∈ storedMetrics ctx.metricsStore modelId, Complete metrics
  | .setAgentHint =>
    let key := argument arguments "key"
    key.truthy → key.hashable
  | .promoteModel => True
  | .getClusterStatus => ctx.clusterLoad.InRange

/-! ## Formats -/

theorem PyNumber.toFloat_ok_iff (x : PyNumber) : (∃ y, x.toFloat = .ok y) ↔ x.InRange := by
  cases x with
  | int n =>
    rw [InRange, ← Double.ofInt_isSome_iff, toFloat]
    cases Double.ofInt n with
    | none => exact iff_of_false (fun ⟨y, hy⟩ ↦ nomatch hy) Bool.false_ne_true
    | some y => exact iff_of_true ⟨y, rfl⟩ rfl
  | float y => exact iff_of_true ⟨y, rfl⟩ trivial

theorem fixed_ok {metrics : Metrics} {key : String} (places : Nat)
    (h : ∃ x, metrics.get? key = some x ∧ x.InRange) :
    ∃ cell, (metricValue metrics key).fixed places = .ok cell ∧ Shows metrics key places cell := by
  obtain ⟨x, hx, hrange⟩ := h
  obtain ⟨y, hy⟩ := x.toFloat_ok_iff.mpr hrange
  refine ⟨y.fixed places, ?_, ?_⟩
  · rw [metricValue, hx]
    show x.toFloat.map (Double.fixed places) = _
    rw [hy]
    rfl
  · rw [Shows, hx]
    exact ⟨y, hy, rfl⟩

-- Neither `'n/a'` nor an integer past the largest double can be formatted.
theorem fixed_error {metrics : Metrics} {key : String} (places : Nat)
    (h : ¬ ∃ x, metrics.get? key = some x ∧ x.InRange) :
    ∃ e, (metricValue metrics key).fixed places = .error e := by
  rw [metricValue]
  cases hx : metrics.get? key with
  | none => exact ⟨.valueError, rfl⟩
  | some x =>
    show ∃ e, x.toFloat.map (Double.fixed places) = .error e
    cases hy : x.toFloat with
    | error e => exact ⟨e, rfl⟩
    | ok y => exact absurd ⟨x, hx, x.toFloat_ok_iff.mp ⟨y, hy⟩⟩ h

theorem metricsReport_ok (heading : String) {metrics : Metrics} (h : Complete metrics) :
    ∃ text, metricsReport heading metrics = .ok text ∧ IsReport heading metrics text := by
  obtain ⟨wer, hwer, showsWer⟩ := fixed_ok 3 (h "wer" (by decide))
  obtain ⟨cer, hcer, showsCer⟩ := fixed_ok 3 (h "cer" (by decide))
  obtain ⟨rtf, hrtf, showsRtf⟩ := fixed_ok 4 (h "rtf" (by decide))
  obtain ⟨ttft, httft, showsTtft⟩ := fixed_ok 1 (h "ttft_ms" (by decide))
  refine ⟨reportText heading wer cer rtf ttft, ?_, wer, cer, rtf, ttft, showsWer, showsCer,
    showsRtf, showsTtft, rfl⟩
  rw [metricsReport, hwer, hcer, hrtf, httft]
  rfl

theorem metricsReport_error (heading : String) {metrics : Metrics} (h : ¬ Complete metrics) :
    ∃ e, metricsReport heading metrics = .error e := by
  have hpresent : ∀ {key places cell}, (metricValue metrics key).fixed places = .ok cell →
      ∃ x, metrics.get? key = some x ∧ x.InRange := by
    intro key places cell hcell
    by_contra habsent
    obtain ⟨e, he⟩ := fixed_error places habsent
    rw [hcell] at he
    cases he
  rw [metricsReport]
  cases hwer : (metricValue metrics "wer").fixed 3 with
  | error e => exact ⟨e, rfl⟩
  | ok wer =>
    cases hcer : (metricValue metrics "cer").fixed 3 with
    | error e => exact ⟨e, rfl⟩
    | ok cer =>
      cases hrtf : (metricValue metrics "rtf").fixed 4 with
      | error e => exact ⟨e, rfl⟩
      | ok rtf =>
        cases httft : (metricValue metrics "ttft_ms").fixed 1 with
        | error e => exact ⟨e, rfl⟩
        | ok ttft =>
          refine absurd ?_ h
          simp only [Complete, List.forall_mem_cons]
          exact ⟨hpresent hwer, hpresent hcer, hpresent hrtf, hpresent httft, List.forall_mem_nil _⟩

theorem run_liftM {α : Type} (x : Except PyException α) (ctx : FactoryContext) :
    (liftM x : Method α).run ctx = (x, ctx) := by
  cases x <;> rfl

/-! ## The tools -/

section Tools

variable {isPrintable : Char → Bool} {callbacks : Callbacks} {arguments : Dict String JsonValue}
  {ctx : FactoryContext} {t : Tool} {result : Except PyException String}

theorem answers_text {text : String} (hresult : result = .ok text)
    (h : t.reported isPrintable callbacks arguments ctx = none) :
    t.Answers isPrintable callbacks arguments ctx result := by
  refine ⟨text, hresult, fun heading metrics hreported ↦ ?_⟩
  rw [h] at hreported
  cases hreported

theorem not_answers_error (hresult : ∃ e, result = .error e) :
    ¬ t.Answers isPrintable callbacks arguments ctx result := by
  rintro ⟨text, htext, -⟩
  obtain ⟨e, he⟩ := hresult
  rw [htext] at he
  cases he

theorem answers_report_iff {heading : String} {metrics : Metrics}
    (hresult : result = metricsReport heading metrics)
    (h : t.reported isPrintable callbacks arguments ctx = some (heading, metrics)) :
    t.Answers isPrintable callbacks arguments ctx result ↔ Complete metrics := by
  by_cases hcomplete : Complete metrics
  · obtain ⟨text, htext, hreport⟩ := metricsReport_ok heading hcomplete
    refine iff_of_true ⟨text, hresult.trans htext, fun heading' metrics' hreported ↦ ?_⟩ hcomplete
    rw [h] at hreported
    cases hreported
    exact hreport
  · refine iff_of_false (not_answers_error ?_) hcomplete
    rw [hresult]
    exact metricsReport_error heading hcomplete

/-! ### Each tool -/

theorem candidateLines_ok (isPrintable : Char → Bool) {candidates : List (Dict String JsonValue)}
    (h : ∀ c ∈ candidates, "model_id" ∈ c) :
    ∃ lines, candidates.mapM (candidateLine isPrintable) = .ok lines := by
  induction candidates with
  | nil => exact ⟨[], rfl⟩
  | cons c rest ih =>
    obtain ⟨hc, hrest⟩ := List.forall_mem_cons.mp h
    obtain ⟨modelId, hmodel⟩ := Dict.mem_iff_exists.mp hc
    obtain ⟨lines, hlines⟩ := ih hrest
    rw [List.mapM_cons, hlines, candidateLine, hmodel]
    exact ⟨_, rfl⟩

theorem listModels_answers (h : ∀ c ∈ ctx.candidates, "model_id" ∈ c) :
    Tool.listModels.Answers isPrintable callbacks arguments ctx
      ((handleListModels isPrintable arguments).run ctx).1 := by
  obtain ⟨lines, hlines⟩ := candidateLines_ok isPrintable h
  have hrun : ((handleListModels isPrintable arguments).run ctx).1 =
      if ctx.candidates.isEmpty then .ok "No ASR model candidates registered."
      else .ok ("\n".intercalate ("Registered ASR model candidates:" :: lines)) := by
    show ((if ctx.candidates.isEmpty then _ else _ : Method String).run ctx).1 = _
    split
    · rfl
    · rw [hlines]
      rfl
  rw [hrun]
  split <;> exact answers_text rfl rfl

theorem evaluateModel_answers_iff :
    Tool.evaluateModel.Answers isPrintable callbacks arguments ctx
        ((handleEvaluateModel isPrintable callbacks arguments).run ctx).1 ↔
      Tool.evaluateModel.Answerable callbacks arguments ctx := by
  rw [handleEvaluateModel, Tool.Answerable]
  cases htruthy : (argument arguments "model_id").truthy with
  | false =>
    apply iff_of_true (answers_text rfl _) nofun
    rw [Tool.reported, htruthy]
    rfl
  | true =>
    cases hfn : callbacks.evaluateFn with
    | none =>
      apply iff_of_true (answers_text rfl _) fun _ _ h ↦ nomatch h
      rw [Tool.reported, htruthy, hfn]
      rfl
    | some evaluateFn =>
      have hreported : Tool.evaluateModel.reported isPrintable callbacks arguments ctx =
          some ("Evaluation complete for " ++ (argument arguments "model_id").text isPrintable,
            (evaluateFn (argument arguments "model_id") ctx).1) := by
        rw [Tool.reported, htruthy, hfn]
        rfl
      show Tool.Answers _ _ _ _ _ ((liftM (metricsReport _ _) : Method String).run _).1 ↔ _
      rw [run_liftM, answers_report_iff rfl hreported]
      exact ⟨fun h _ _ hmem ↦ Option.some.inj hmem ▸ h, fun h ↦ h rfl evaluateFn rfl⟩

theorem lookupMetrics_eq (store : Dict String Metrics) (modelId : JsonValue) :
    lookupMetrics store modelId =
      if modelId.hashable then .ok (storedMetrics store modelId) else .error .typeError := by
  cases modelId with
  | float value repr => cases value <;> rfl
  | _ => rfl

theorem getMetrics_answers_iff :
    Tool.getMetrics.Answers isPrintable callbacks arguments ctx
        ((handleGetMetrics isPrintable arguments).run ctx).1 ↔
      Tool.getMetrics.Answerable callbacks arguments ctx := by
  rw [handleGetMetrics, Tool.Answerable]
  generalize hid : argument arguments "model_id" = modelId
  have hreported : Tool.getMetrics.reported isPrintable callbacks arguments ctx =
      if modelId.truthy then
        (storedMetrics ctx.metricsStore modelId).map ("Metrics for " ++ modelId.text isPrintable, ·)
      else none := by
    rw [← hid, Tool.reported]
  cases htruthy : modelId.truthy with
  | false =>
    rw [htruthy] at hreported
    exact iff_of_true (answers_text rfl hreported) nofun
  | true =>
    rw [htruthy, if_pos rfl] at hreported
    show Tool.Answers _ _ _ _ _ ((liftM (lookupMetrics ctx.metricsStore modelId) >>= _ :
      Method String).run ctx).1 ↔ _
    rw [lookupMetrics_eq]
    by_cases hhash : modelId.hashable = true
    · rw [if_pos hhash]
      cases hstored : storedMetrics ctx.metricsStore modelId with
      | none =>
        rw [hstored] at hreported
        exact iff_of_true (answers_text rfl hreported) fun _ ↦ ⟨hhash, nofun⟩
      | some m =>
        rw [hstored] at hreported
        show Tool.Answers _ _ _ _ _ ((liftM (metricsReport _ m) : Method String).run ctx).1 ↔ _
        rw [run_liftM, answers_report_iff rfl hreported]
        exact ⟨fun h _ ↦ ⟨hhash, fun _ hmem ↦ Option.some.inj hmem ▸ h⟩, fun h ↦ (h rfl).2 m rfl⟩
    · rw [if_neg hhash]
      exact iff_of_false (not_answers_error ⟨.typeError, rfl⟩) fun h ↦ hhash (h rfl).1

theorem dictKey_ok_iff (value : JsonValue) :
    (∃ k, dictKey value = .ok k) ∧ value.hashable = true ∨
      (∃ e, dictKey value = .error e) ∧ value.hashable = false := by
  cases value with
  | float value repr => cases value <;> exact .inl ⟨⟨_, rfl⟩, rfl⟩
  | list items => exact .inr ⟨⟨_, rfl⟩, rfl⟩
  | dict items => exact .inr ⟨⟨_, rfl⟩, rfl⟩
  | _ => exact .inl ⟨⟨_, rfl⟩, rfl⟩

theorem setAgentHint_answers_iff :
    Tool.setAgentHint.Answers isPrintable callbacks arguments ctx
        ((handleSetAgentHint isPrintable arguments).run ctx).1 ↔
      Tool.setAgentHint.Answerable callbacks arguments ctx := by
  rw [handleSetAgentHint, Tool.Answerable]
  generalize argument arguments "key" = key
  cases htruthy : key.truthy with
  | false => exact iff_of_true (answers_text rfl rfl) nofun
  | true =>
    show Tool.Answers _ _ _ _ _ ((liftM (dictKey key) >>= _ : Method String).run ctx).1 ↔ _
    rcases dictKey_ok_iff key with ⟨⟨k, hkey⟩, hhash⟩ | ⟨⟨e, hkey⟩, hhash⟩
    · rw [hkey]
      exact iff_of_true (answers_text rfl rfl) fun _ ↦ hhash
    · rw [hkey]
      refine iff_of_false (not_answers_error ⟨e, rfl⟩) fun h ↦ ?_
      rw [h rfl] at hhash
      cases hhash

theorem promoteModel_answers :
    Tool.promoteModel.Answers isPrintable callbacks arguments ctx
      ((handlePromoteModel isPrintable callbacks arguments).run ctx).1 := by
  rw [handlePromoteModel]
  cases (argument arguments "model_id").truthy with
  | false => exact answers_text rfl rfl
  | true => cases callbacks.promoteFn <;> exact answers_text rfl rfl

theorem clusterStatus_answers_iff :
    Tool.getClusterStatus.Answers isPrintable callbacks arguments ctx
        ((handleClusterStatus isPrintable arguments).run ctx).1 ↔
      Tool.getClusterStatus.Answerable callbacks arguments ctx := by
  rw [Tool.Answerable, ← PyNumber.toFloat_ok_iff]
  show Tool.Answers _ _ _ _ _ ((liftM (ctx.clusterLoad.percent) >>= _ : Method String).run ctx).1
    ↔ _
  rw [PyNumber.percent]
  cases hload : ctx.clusterLoad.toFloat with
  | error e => exact iff_of_false (not_answers_error ⟨e, rfl⟩) fun ⟨y, hy⟩ ↦ nomatch hy
  | ok y => exact iff_of_true (answers_text rfl rfl) ⟨y, rfl⟩

/-- A tool answers just when it has what it needs. -/
theorem handler_answers_iff (t : Tool) (h : ∀ c ∈ ctx.candidates, "model_id" ∈ c) :
    t.Answers isPrintable callbacks arguments ctx
        ((t.handler isPrintable callbacks arguments).run ctx).1 ↔
      t.Answerable callbacks arguments ctx := by
  cases t with
  | listModels => exact iff_of_true (listModels_answers h) trivial
  | evaluateModel => exact evaluateModel_answers_iff
  | getMetrics => exact getMetrics_answers_iff
  | setAgentHint => exact setAgentHint_answers_iff
  | promoteModel => exact iff_of_true promoteModel_answers trivial
  | getClusterStatus => exact clusterStatus_answers_iff

end Tools

/-! ## Calls by name -/

theorem name_injective : Function.Injective Tool.name := by
  intro t t' h
  cases t <;> cases t' <;> first | rfl | exact absurd h (by decide)

theorem callTool_name (t : Tool) :
    callTool isPrintable callbacks t.name = t.handler isPrintable callbacks := by
  have hfind : tools.find? (fun t' ↦ t'.name == t.name) = some t := by
    cases t <;> decide
  funext arguments
  rw [callTool, hfind]

theorem callTool_unknown {name : String} (h : ∀ t : Tool, t.name ≠ name)
    (arguments : Dict String JsonValue) :
    callTool isPrintable callbacks name arguments = pure ("Unknown tool: " ++ name) := by
  have hfind : tools.find? (fun t ↦ t.name == name) = none := by
    rw [List.find?_eq_none]
    intro t _
    rw [beq_iff_eq]
    exact h t
  rw [callTool, hfind]

/-- Where every candidate carries a model id, a call returns its text, absent metrics in it as
`n/a`, just when none is absent or too large of those it reports, the model id or key it looks up
is hashable, and the load it reports is not too large. -/
theorem call_tool_answers_iff (isPrintable : Char → Bool) (callbacks : Callbacks) (name : String)
    (arguments : Dict String JsonValue) (ctx : FactoryContext)
    (h : ∀ c ∈ ctx.candidates, "model_id" ∈ c) :
    Answered isPrintable callbacks name arguments ctx ↔
      ∀ t : Tool, t.name = name → t.Answerable callbacks arguments ctx := by
  rw [Answered]
  by_cases hname : ∃ t : Tool, t.name = name
  · obtain ⟨t, rfl⟩ := hname
    rw [callTool_name]
    have hiff : t.Answers isPrintable callbacks arguments ctx
          ((t.handler isPrintable callbacks arguments).run ctx).1 ↔
        t.Answerable callbacks arguments ctx := handler_answers_iff t h
    constructor
    · intro hanswered t' ht'
      obtain rfl := name_injective ht'
      exact hiff.mp (hanswered.2 t' rfl)
    · intro hanswerable
      have hanswers := hiff.mpr (hanswerable t rfl)
      obtain ⟨text, htext, -⟩ := id hanswers
      refine ⟨⟨text, htext⟩, fun t' ht' ↦ ?_⟩
      obtain rfl := name_injective ht'
      exact hanswers
  · rw [not_exists] at hname
    rw [callTool_unknown isPrintable callbacks hname]
    exact iff_of_true ⟨⟨_, rfl⟩, fun t ht ↦ absurd ht (hname t)⟩ fun t ht ↦ absurd ht (hname t)

-- `{"wer": 0.25, "rtf": 0.5, "ttft_ms": 45}`, as an evaluator without a CER leaves it.
def withoutCer : Metrics :=
  Dict.empty.set "wer" (.float (.round false 1 (-2)))
    |>.set "rtf" (.float (.round false 1 (-1)))
    |>.set "ttft_ms" (.int 45)

-- A context with one candidate, `"m"`, and its metrics.
def evaluated (metrics : Metrics) : FactoryContext :=
  let ctx : FactoryContext := { candidates := [Dict.empty.set "model_id" (.str "m")] }
  ctx.updateMetrics "m" metrics

/-- With all four metrics `get_metrics` answers. -/
theorem full_metrics_answered :
    Answered (fun _ ↦ true) {} "get_metrics" (Dict.empty.set "model_id" (.str "m"))
      (evaluated (withoutCer.set "cer" (.float (.round false 1 (-3))))) := by
  rw [call_tool_answers_iff _ _ _ _ _ (List.forall_mem_singleton.mpr (by decide))]
  intro t ht
  obtain rfl : t = .getMetrics := name_injective ht
  refine fun _ ↦ ⟨rfl, fun metrics hmem ↦ ?_⟩
  obtain rfl : withoutCer.set "cer" (.float (.round false 1 (-3))) = metrics :=
    Option.some.inj hmem
  intro key hkey
  simp only [List.mem_cons, List.not_mem_nil, or_false] at hkey
  rcases hkey with rfl | rfl | rfl | rfl
  · exact ⟨_, rfl, trivial⟩
  · exact ⟨_, rfl, trivial⟩
  · exact ⟨_, rfl, trivial⟩
  · refine ⟨_, rfl, ?_⟩
    show (45 : Int).natAbs < 2 ^ 1024 - 2 ^ 970
    decide +kernel

/-- `get_metrics` of a model without a CER raises: `'n/a'` has no format with `f`. -/
theorem absent_metric_raises :
    ¬ Answered (fun _ ↦ true) {} "get_metrics" (Dict.empty.set "model_id" (.str "m"))
      (evaluated withoutCer) := by
  have hrun : ((callTool (fun _ ↦ true) {} "get_metrics"
      (Dict.empty.set "model_id" (.str "m"))).run (evaluated withoutCer)).1 =
        .error .valueError := by
    rfl
  rintro ⟨⟨text, htext⟩, -⟩
  rw [hrun] at htext
  cases htext

/-! ## Hints under strings -/

-- The value as the tool that was modelled with string keys knows it.
def hintValue : JsonValue → Value
  | .null => .none
  | .bool b => .bool b
  | .int n => .int n
  | .str s => .str s
  | value => .other (value.text isPrintable)

theorem hintValue_text (value : JsonValue) :
    (hintValue isPrintable value).text = value.text isPrintable := by
  cases value <;> rfl

/-- Under strings both contexts hold the same hints. -/
def HoldsHints (ctx : FactoryContext) (strings : AgenticFactory.FactoryContext) : Prop :=
  ∀ key, strings.agentHints.get? key =
    (ctx.agentHints.get? (.str key)).map fun entry ↦ hintValue isPrintable entry.2

/-- With a string as its key the tool is the one that was modelled with strings. -/
theorem setAgentHint_string {ctx : FactoryContext} {strings : AgenticFactory.FactoryContext}
    (h : HoldsHints isPrintable ctx strings) {arguments : Dict String JsonValue} {key : String}
    (hkey : argument arguments "key" = .str key) :
    let result := (handleSetAgentHint isPrintable arguments).run ctx
    let value := hintValue isPrintable ((arguments.get? "value").getD .null)
    let expected := AgenticFactory.handleSetAgentHint strings { key, value }
    result.1 = .ok expected.2 ∧ HoldsHints isPrintable result.2 expected.1 := by
  unfold AgenticFactory.handleSetAgentHint
  rw [handleSetAgentHint, hkey]
  by_cases hempty : key = ""
  · subst hempty
    exact ⟨rfl, h⟩
  · have htruthy : (JsonValue.str key).truthy = true := decide_eq_true hempty
    dsimp only
    rw [htruthy, if_neg hempty]
    refine ⟨?_, fun key' ↦ ?_⟩
    · rw [hintValue_text]
      rfl
    · show (strings.agentHints.set key _).get? key' =
        ((ctx.agentHints.set (.str key) _).get? (.str key')).map _
      rw [Dict.get?_set, Dict.get?_set, h key']
      by_cases hsame : key' = key
      · subst hsame
        rw [if_pos rfl, if_pos rfl]
        rfl
      · rw [if_neg hsame, if_neg fun heq ↦ hsame (DictKey.str.inj heq)]

end AsrServe.AgenticFactory.McpServer
