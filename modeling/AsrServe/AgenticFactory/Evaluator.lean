import AsrServe.AgenticFactory.AgentHints
import AsrServe.Reasoning.Dict
import AsrServe.Reasoning.Selection
import Mathlib.Algebra.Order.Field.Rat
import Mathlib.Data.Prod.Lex

/-!
# The evaluation loop (`agentic-factory/src/evaluator.py`)

One evaluation cycle and the promotion it may trigger.  What the evaluator measures is an input:
any metrics at all, in exact rational arithmetic.
-/

open AsrServe.Reasoning

namespace AsrServe.AgenticFactory

structure ASRModelCandidate where
  modelId : String
  isActive : Bool := false
deriving DecidableEq, Repr

structure EvalSample where
  sampleId : String
  audioBytes : List UInt8
  referenceText : String
  durationS : ℚ
deriving DecidableEq

structure ModelMetrics where
  modelId : String
  wer : ℚ := 1
  cer : ℚ := 1
  rtf : ℚ := 1
  ttftMs : ℚ := 9999
  nSamples : Nat := 0
deriving DecidableEq

/-- What `evaluate_model` returns in one cycle: some metrics for each model, under its own id. -/
structure Evaluation where
  metrics : String → ModelMetrics
  modelId_metrics : ∀ modelId, (metrics modelId).modelId = modelId

structure EvaluationLoop where
  candidates : List ASRModelCandidate
  hints : AgentHintsManager
  werPromoteThresh : ℚ := 5 / 100
  bestMetrics : Dict String ModelMetrics := Dict.empty

/-! ## Helpers -/

def sortKey (m : ModelMetrics) : ℚ ×ₗ ℚ := toLex (m.wer, m.rtf)

def werToPriority (wer : ℚ) : Int :=
  if wer < 5 / 100 then 9
  else if wer < 10 / 100 then 7
  else if wer < 20 / 100 then 5
  else 3

def rtfToKvTtlMs (rtf : ℚ) : Int :=
  if rtf < 1 / 100 then 200
  else if rtf < 5 / 100 then 350
  else 500

/-! ## The loop -/

namespace EvaluationLoop

-- `_promote`: every candidate's flag is rewritten.
def promote (loop : EvaluationLoop) (modelId : String) : EvaluationLoop :=
  { loop with
    candidates := loop.candidates.map fun c ↦ { c with isActive := c.modelId == modelId } }

/-- The part of a cycle before the promotion decision: the winner's metrics are recorded and its
hints attached. -/
def recordBest (loop : EvaluationLoop) (best : ModelMetrics) : EvaluationLoop :=
  { loop with
    bestMetrics := loop.bestMetrics.set best.modelId best
    hints := loop.hints.setProfile
      { modelId := best.modelId
        priority := werToPriority best.wer
        kvTtlMs := rtfToKvTtlMs best.rtf } }

-- The active candidate, the first one flagged.
def active (loop : EvaluationLoop) : Option ASRModelCandidate := loop.candidates.find? (·.isActive)

-- `active_metrics and active_metrics.wer - best.wer > thresh` on the recorded metrics.
def recordExceeds (loop : EvaluationLoop) (activeId : String) (best : ModelMetrics) : Bool :=
  match loop.bestMetrics.get? activeId with
  | none => false
  | some activeMetrics => decide (activeMetrics.wer - best.wer > loop.werPromoteThresh)

/-- The promotion decision at the end of a cycle. -/
def triggerPromotion (loop : EvaluationLoop) (best : ModelMetrics) : EvaluationLoop :=
  match loop.active with
  | none => loop
  | some active =>
    if active.modelId ≠ best.modelId ∧ loop.recordExceeds active.modelId best then
      loop.promote best.modelId
    else
      loop

def results (loop : EvaluationLoop) (evaluation : Evaluation) : List ModelMetrics :=
  (loop.candidates.map fun c ↦ evaluation.metrics c.modelId).insertionSort
    fun m m' ↦ sortKey m ≤ sortKey m'

def evalCycle (loop : EvaluationLoop) (samples : List EvalSample) (evaluation : Evaluation) :
    EvaluationLoop :=
  if samples.isEmpty then
    loop
  else
    match (loop.results evaluation).head? with
    | none => loop
    | some best => (loop.recordBest best).triggerPromotion best

end EvaluationLoop

end AsrServe.AgenticFactory
