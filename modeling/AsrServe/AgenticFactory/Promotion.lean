import AsrServe.AgenticFactory.Evaluator
import AsrServe.Reasoning.Runs

/-!
# Which model serves production

Every writer of `is_active` seen as a step of the evaluation loop: how many candidates are active
after any run, and when a cycle promotes the candidate it should.
-/

open AsrServe.Reasoning

namespace AsrServe.AgenticFactory.EvaluationLoop

def modelIds (loop : EvaluationLoop) : List String := loop.candidates.map (·.modelId)

def activeIds (loop : EvaluationLoop) : List String :=
  (loop.candidates.filter (·.isActive)).map (·.modelId)

def ExactlyOneActive (loop : EvaluationLoop) : Prop := loop.candidates.countP (·.isActive) = 1

instance (loop : EvaluationLoop) : Decidable loop.ExactlyOneActive :=
  inferInstanceAs (Decidable (_ = 1))

/-- The best candidate of a cycle: minimal `(wer, rtf)`, the earliest of several. -/
def bestCandidate (loop : EvaluationLoop) (evaluation : Evaluation) : Option ASRModelCandidate :=
  loop.candidates.argmin fun c ↦ sortKey (evaluation.metrics c.modelId)

/-! ## `_promote` -/

@[simp] theorem modelIds_promote (loop : EvaluationLoop) (modelId : String) :
    (loop.promote modelId).modelIds = loop.modelIds := by
  simp [modelIds, promote, Function.comp_def]

theorem activeIds_promote (loop : EvaluationLoop) (modelId : String) :
    (loop.promote modelId).activeIds = List.replicate (loop.modelIds.count modelId) modelId := by
  rw [← List.filter_beq, modelIds, List.filter_map, activeIds, promote, List.filter_map,
    List.map_map]
  rfl

theorem activeIds_promote_of_mem {loop : EvaluationLoop} (hids : loop.modelIds.Nodup)
    {modelId : String} (h : modelId ∈ loop.modelIds) :
    (loop.promote modelId).activeIds = [modelId] := by
  rw [activeIds_promote, List.count_eq_one_of_mem hids h]
  rfl

theorem exactlyOneActive_iff_length (loop : EvaluationLoop) :
    loop.ExactlyOneActive ↔ loop.activeIds.length = 1 := by
  rw [ExactlyOneActive, activeIds, List.length_map, List.countP_eq_length_filter]

-- A promotion leaves one candidate active just when it names one.
theorem exactlyOneActive_promote_iff {loop : EvaluationLoop} (hids : loop.modelIds.Nodup)
    (modelId : String) :
    (loop.promote modelId).ExactlyOneActive ↔ modelId ∈ loop.modelIds := by
  rw [exactlyOneActive_iff_length, activeIds_promote, List.length_replicate,
    hids.count]
  split <;> simp_all

/-! ## One cycle -/

@[simp] theorem active_recordBest (loop : EvaluationLoop) (best : ModelMetrics) :
    (loop.recordBest best).active = loop.active := rfl

theorem head?_results (loop : EvaluationLoop) (evaluation : Evaluation) :
    (loop.results evaluation).head? =
      (loop.bestCandidate evaluation).map fun c ↦ evaluation.metrics c.modelId := by
  rw [results, head?_insertionSort, argmin_map]
  rfl

theorem bestCandidate_mem {loop : EvaluationLoop} {evaluation : Evaluation}
    {best : ASRModelCandidate} (h : loop.bestCandidate evaluation = some best) :
    best ∈ loop.candidates := List.argmin_mem h

theorem evalCycle_of_best {loop : EvaluationLoop} {samples : List EvalSample}
    {evaluation : Evaluation} {best : ASRModelCandidate} (hsamples : samples ≠ [])
    (hbest : loop.bestCandidate evaluation = some best) :
    loop.evalCycle samples evaluation =
      (loop.recordBest (evaluation.metrics best.modelId)).triggerPromotion
        (evaluation.metrics best.modelId) := by
  rw [evalCycle, if_neg (by rwa [List.isEmpty_iff]), head?_results, hbest]
  rfl

theorem evalCycle_of_no_best {loop : EvaluationLoop} {samples : List EvalSample}
    {evaluation : Evaluation} (h : samples = [] ∨ loop.bestCandidate evaluation = none) :
    loop.evalCycle samples evaluation = loop := by
  rw [evalCycle, head?_results]
  rcases h with rfl | h
  · rfl
  · rw [h]
    exact ite_id _

-- What a cycle can do to the candidates: nothing, or the promotion of one of them.
theorem evalCycle_candidates (loop : EvaluationLoop) (samples : List EvalSample)
    (evaluation : Evaluation) :
    (loop.evalCycle samples evaluation).candidates = loop.candidates ∨
      ∃ modelId ∈ loop.modelIds,
        (loop.evalCycle samples evaluation).candidates = (loop.promote modelId).candidates := by
  by_cases hsamples : samples = []
  · exact .inl (congrArg _ (evalCycle_of_no_best (.inl hsamples)))
  cases hbest : loop.bestCandidate evaluation with
  | none => exact .inl (congrArg _ (evalCycle_of_no_best (.inr hbest)))
  | some best =>
    rw [evalCycle_of_best hsamples hbest, triggerPromotion]
    split
    · exact .inl rfl
    · split
      · refine .inr ⟨best.modelId, List.mem_map_of_mem (bestCandidate_mem hbest), ?_⟩
        rw [evaluation.modelId_metrics]
        rfl
      · exact .inl rfl

theorem modelIds_evalCycle (loop : EvaluationLoop) (samples : List EvalSample)
    (evaluation : Evaluation) : (loop.evalCycle samples evaluation).modelIds = loop.modelIds := by
  obtain h | ⟨modelId, -, h⟩ := loop.evalCycle_candidates samples evaluation
  · rw [modelIds, h, modelIds]
  · rw [modelIds, h]
    exact modelIds_promote loop modelId

theorem exactlyOneActive_evalCycle {loop : EvaluationLoop} (hids : loop.modelIds.Nodup)
    (hactive : loop.ExactlyOneActive) (samples : List EvalSample) (evaluation : Evaluation) :
    (loop.evalCycle samples evaluation).ExactlyOneActive := by
  obtain h | ⟨modelId, hmem, h⟩ := loop.evalCycle_candidates samples evaluation
  · rwa [ExactlyOneActive, h]
  · rw [ExactlyOneActive, h]
    exact (exactlyOneActive_promote_iff hids modelId).mpr hmem

/-! ## Exactly one production model -/

/-- What can write `is_active`: a cycle, and a promotion asked for from outside. -/
inductive LoopEvent where
  | evalCycle (samples : List EvalSample) (evaluation : Evaluation)
  | promote (modelId : String)

def loopStep (loop : EvaluationLoop) : LoopEvent → Option EvaluationLoop
  | .evalCycle samples evaluation => some (loop.evalCycle samples evaluation)
  | .promote modelId => some (loop.promote modelId)

-- The id a promotion from outside asks for is one of `modelIds`.
def LoopEvent.Names (modelIds : List String) : LoopEvent → Prop
  | .evalCycle _ _ => True
  | .promote modelId => modelId ∈ modelIds

theorem loopStep_total (loop : EvaluationLoop) (event : LoopEvent) :
    ∃ loop', loopStep loop event = some loop' := by
  cases event with
  | evalCycle samples evaluation => exact ⟨_, rfl⟩
  | promote modelId => exact ⟨_, rfl⟩

theorem modelIds_loopStep {loop loop' : EvaluationLoop} {event : LoopEvent}
    (h : loopStep loop event = some loop') : loop'.modelIds = loop.modelIds := by
  cases event with
  | evalCycle samples evaluation =>
    cases h
    exact modelIds_evalCycle loop samples evaluation
  | promote modelId =>
    cases h
    exact modelIds_promote loop modelId

-- One step leaves exactly one candidate active unless it promotes an unknown id.
theorem exactlyOneActive_loopStep_iff {loop loop' : EvaluationLoop} {event : LoopEvent}
    (hids : loop.modelIds.Nodup) (hactive : loop.ExactlyOneActive)
    (h : loopStep loop event = some loop') :
    loop'.ExactlyOneActive ↔ event.Names loop.modelIds := by
  cases event with
  | evalCycle samples evaluation =>
    cases h
    exact iff_of_true (exactlyOneActive_evalCycle hids hactive samples evaluation) trivial
  | promote modelId =>
    cases h
    exact exactlyOneActive_promote_iff hids modelId

/-- Exactly one candidate is active after every step of a run just when every promotion in it
names a candidate. -/
theorem exactly_one_active_iff (loop : EvaluationLoop) (hids : loop.modelIds.Nodup)
    (hactive : loop.ExactlyOneActive) (events : List LoopEvent) :
    Along loopStep (fun _ _ loop' ↦ loop'.ExactlyOneActive) loop events ↔
      ∀ modelId, .promote modelId ∈ events → modelId ∈ loop.modelIds := by
  have hnames : Along loopStep (fun _ _ loop' ↦ loop'.ExactlyOneActive) loop events ↔
      Along loopStep (fun _ event _ ↦ event.Names loop.modelIds) loop events := by
    -- As long as one candidate has been active throughout, the next step decides alone.
    apply along_congr (I := fun s ↦ s.modelIds = loop.modelIds ∧ s.ExactlyOneActive)
    · rintro s event s' ⟨heq, hs⟩ hstep
      rw [← heq]
      exact exactlyOneActive_loopStep_iff (heq ▸ hids) hs hstep
    · rintro s event s' ⟨heq, hs⟩ hstep hs'
      exact ⟨(modelIds_loopStep hstep).trans heq, hs'⟩
    · exact ⟨rfl, hactive⟩
  rw [hnames, along_event_iff loopStep_total]
  constructor
  · intro h modelId hmem
    exact h _ hmem
  · intro h event hmem
    cases event with
    | evalCycle samples evaluation => trivial
    | promote modelId => exact h modelId hmem

-- Two candidates, the first one active, and no cycle run yet.
def twoModels : EvaluationLoop where
  candidates := [{ modelId := "whisper-large-v3", isActive := true }, { modelId := "canary-1b" }]
  hints := {}

theorem twoModels_exactly_one_active :
    Along loopStep (fun _ _ loop' ↦ loop'.ExactlyOneActive) twoModels [.promote "canary-1b"] :=
  (exactly_one_active_iff twoModels (by decide) (by decide) _).mpr fun modelId h ↦ by
    rw [List.mem_singleton, LoopEvent.promote.injEq] at h
    subst h
    decide

/-- A promotion of an id no candidate has takes every model out of production. -/
theorem promote_unknown_id :
    twoModels.modelIds.Nodup ∧ twoModels.ExactlyOneActive ∧
      (twoModels.promote "canary-1").activeIds = [] ∧
      ¬ Along loopStep (fun _ _ loop' ↦ loop'.ExactlyOneActive) twoModels
        [.promote "canary-1"] := by
  refine ⟨by decide, by decide, by decide, fun h ↦ ?_⟩
  have hone : (twoModels.promote "canary-1").ExactlyOneActive := (h _ rfl).1
  exact absurd hone (by decide)

/-! ## What the record holds -/

-- What one cycle is given: the fetched samples and what the evaluator reports on them.
structure CycleInput where
  samples : List EvalSample
  evaluation : Evaluation

def cycleStep (loop : EvaluationLoop) (input : CycleInput) : Option EvaluationLoop :=
  some (loop.evalCycle input.samples input.evaluation)

-- The winning metrics of a cycle over the models `modelIds`.
def winner (modelIds : List String) (input : CycleInput) : Option ModelMetrics :=
  if input.samples = [] then none else (modelIds.map input.evaluation.metrics).argmin sortKey

theorem bestMetrics_evalCycle (loop : EvaluationLoop) (input : CycleInput) :
    (loop.evalCycle input.samples input.evaluation).bestMetrics =
      match winner loop.modelIds input with
      | none => loop.bestMetrics
      | some best => loop.bestMetrics.set best.modelId best := by
  have hhead : (loop.results input.evaluation).head? =
      (loop.modelIds.map input.evaluation.metrics).argmin sortKey := by
    rw [results, head?_insertionSort, modelIds, List.map_map]
    rfl
  by_cases hsamples : input.samples = []
  · rw [evalCycle_of_no_best (.inl hsamples), winner, if_pos hsamples]
  · rw [evalCycle, if_neg (by rwa [List.isEmpty_iff]), hhead, winner, if_neg hsamples]
    cases (loop.modelIds.map input.evaluation.metrics).argmin sortKey with
    | none => rfl
    | some best =>
      simp only [triggerPromotion]
      split
      · rfl
      · split <;> rfl

/-- The metrics of a model in the last of these cycles that it won. -/
def lastWin (modelIds : List String) (inputs : List CycleInput) (modelId : String) :
    Option ModelMetrics :=
  (inputs.filterMap (winner modelIds)).reverse.find? (·.modelId == modelId)

/-- After any run the record of a model is its metrics in the last cycle it won. -/
theorem bestMetrics_run {loop loop' : EvaluationLoop} (hempty : loop.bestMetrics = Dict.empty)
    {inputs : List CycleInput} (hrun : runFrom cycleStep loop inputs = some loop') :
    loop'.bestMetrics.get? = lastWin loop.modelIds inputs := by
  -- The invariant reads the record off the cycles so far; the ids have to be those of the start.
  have h := run_invariant_history
    (I := fun past s ↦ s.modelIds = loop.modelIds ∧
      ∀ id, s.bestMetrics.get? id = lastWin loop.modelIds past id)
    ?_ ⟨rfl, fun id ↦ by rw [hempty]; rfl⟩ hrun
  · exact funext h.2
  · rintro past s input s' ⟨hids, hrecord⟩ hstep
    cases hstep
    refine ⟨(modelIds_evalCycle s _ _).trans hids, fun id ↦ ?_⟩
    rw [bestMetrics_evalCycle, hids, lastWin, List.filterMap_append, List.reverse_append]
    cases hwinner : winner loop.modelIds input with
    | none => simp [hwinner, hrecord, lastWin]
    | some best =>
      rw [List.filterMap_cons_some hwinner, List.filterMap_nil, List.reverse_singleton,
        List.singleton_append, List.find?_cons]
      simp only [Dict.get?_set]
      by_cases hid : id = best.modelId
      · simp [hid]
      · rw [if_neg hid, hrecord, beq_false_of_ne (Ne.symm hid), lastWin]

/-! ## The promotion rule -/

/-- The active candidate's WER exceeds the best one's by more than the threshold, both measured in
this cycle. -/
def measuredExceeds (loop : EvaluationLoop) (input : CycleInput)
    (best active : ASRModelCandidate) : Prop :=
  loop.werPromoteThresh <
    (input.evaluation.metrics active.modelId).wer - (input.evaluation.metrics best.modelId).wer

/-- The cycle calls for a promotion of `best` over `active`: both measured in this cycle. -/
structure CallsForPromotion (loop : EvaluationLoop) (input : CycleInput)
    (best active : ASRModelCandidate) : Prop where
  samples_ne : input.samples ≠ []
  best_eq : loop.bestCandidate input.evaluation = some best
  best_inactive : best.isActive = false
  active_mem : active ∈ loop.candidates
  isActive : active.isActive = true
  exceeds : loop.measuredExceeds input best active

/-- A cycle makes its best candidate the active one when this is called for, and otherwise leaves
the active candidate alone. -/
def PromotionRule (loop : EvaluationLoop) (input : CycleInput) (loop' : EvaluationLoop) : Prop :=
  (∀ best active, loop.CallsForPromotion input best active →
    loop'.activeIds = [best.modelId]) ∧
  ((¬ ∃ best active, loop.CallsForPromotion input best active) →
    loop'.activeIds = loop.activeIds)

/-- The metrics on record for the active candidate, if there are any, are on the same side of the
threshold as the ones measured in this cycle; none count as not exceeding it. -/
def AgreesWith (record : String → Option ModelMetrics) (loop : EvaluationLoop)
    (input : CycleInput) : Prop :=
  input.samples ≠ [] → ∀ best active, loop.bestCandidate input.evaluation = some best →
    best.isActive = false → active ∈ loop.candidates → active.isActive = true →
    ((∃ m, record active.modelId = some m ∧
        loop.werPromoteThresh < m.wer - (input.evaluation.metrics best.modelId).wer) ↔
      loop.measuredExceeds input best active)

-- The record the code decides on.
def RecordAgrees (loop : EvaluationLoop) (input : CycleInput) : Prop :=
  loop.AgreesWith loop.bestMetrics.get? input

theorem ExactlyOneActive.filter_eq {loop : EvaluationLoop} (h : loop.ExactlyOneActive)
    {active : ASRModelCandidate} (hmem : active ∈ loop.candidates)
    (hactive : active.isActive = true) : loop.candidates.filter (·.isActive) = [active] := by
  rw [ExactlyOneActive, List.countP_eq_length_filter, List.length_eq_one_iff] at h
  obtain ⟨c, hc⟩ := h
  have hin : active ∈ loop.candidates.filter (·.isActive) := List.mem_filter.mpr ⟨hmem, hactive⟩
  rw [hc, List.mem_singleton] at hin
  rw [hc, hin]

theorem ExactlyOneActive.activeIds_eq {loop : EvaluationLoop} (h : loop.ExactlyOneActive)
    {active : ASRModelCandidate} (hmem : active ∈ loop.candidates)
    (hactive : active.isActive = true) : loop.activeIds = [active.modelId] := by
  rw [activeIds, h.filter_eq hmem hactive, List.map_singleton]

theorem ExactlyOneActive.active_eq {loop : EvaluationLoop} (h : loop.ExactlyOneActive)
    {active : ASRModelCandidate} (hmem : active ∈ loop.candidates)
    (hactive : active.isActive = true) : loop.active = some active := by
  rw [EvaluationLoop.active, ← List.head?_filter, h.filter_eq hmem hactive, List.head?_cons]

theorem ExactlyOneActive.exists_active {loop : EvaluationLoop} (h : loop.ExactlyOneActive) :
    ∃ active ∈ loop.candidates, active.isActive = true := by
  have hpos : 0 < loop.candidates.countP (·.isActive) := by
    rw [h]
    exact Nat.one_pos
  exact List.countP_pos_iff.mp hpos

-- With distinct ids and one active candidate, another candidate is inactive.
theorem isActive_eq_false_iff {loop : EvaluationLoop} (hids : loop.modelIds.Nodup)
    (hone : loop.ExactlyOneActive) {best active : ASRModelCandidate}
    (hbest : best ∈ loop.candidates) (hmem : active ∈ loop.candidates)
    (hactive : active.isActive = true) :
    best.isActive = false ↔ active.modelId ≠ best.modelId := by
  constructor
  · rintro hfalse heq
    rw [List.inj_on_of_nodup_map hids hmem hbest heq, hfalse] at hactive
    cases hactive
  · intro hne
    by_contra htrue
    rw [Bool.not_eq_false] at htrue
    have h := (hone.activeIds_eq hmem hactive).symm.trans (hone.activeIds_eq hbest htrue)
    rw [List.singleton_inj] at h
    exact hne h

theorem recordExceeds_iff (loop : EvaluationLoop) (activeId : String) (best : ModelMetrics) :
    loop.recordExceeds activeId best = true ↔
      ∃ m, loop.bestMetrics.get? activeId = some m ∧ loop.werPromoteThresh < m.wer - best.wer := by
  rw [recordExceeds]
  cases loop.bestMetrics.get? activeId with
  | none => simp
  | some m => simp

-- Recording the best candidate leaves every other candidate's record alone.
theorem recordExceeds_recordBest (loop : EvaluationLoop) {activeId : String} {best : ModelMetrics}
    (h : activeId ≠ best.modelId) :
    (loop.recordBest best).recordExceeds activeId best = loop.recordExceeds activeId best := by
  have hget : (loop.recordBest best).bestMetrics.get? activeId = loop.bestMetrics.get? activeId :=
    Dict.get?_set_of_ne _ _ h
  have hthresh : (loop.recordBest best).werPromoteThresh = loop.werPromoteThresh := rfl
  unfold recordExceeds
  rw [hget, hthresh]

-- The active model after a cycle with a best candidate, as the code decides it.
theorem activeIds_evalCycle {loop : EvaluationLoop} {input : CycleInput}
    {best active : ASRModelCandidate} (hids : loop.modelIds.Nodup) (hone : loop.ExactlyOneActive)
    (hsamples : input.samples ≠ []) (hbest : loop.bestCandidate input.evaluation = some best)
    (hmem : active ∈ loop.candidates) (hactive : active.isActive = true) :
    (loop.evalCycle input.samples input.evaluation).activeIds =
      if active.modelId ≠ best.modelId ∧
          loop.recordExceeds active.modelId (input.evaluation.metrics best.modelId) = true then
        [best.modelId]
      else [active.modelId] := by
  have hid := input.evaluation.modelId_metrics best.modelId
  have hstay : (loop.recordBest (input.evaluation.metrics best.modelId)).activeIds =
      [active.modelId] := hone.activeIds_eq hmem hactive
  rw [evalCycle_of_best hsamples hbest, triggerPromotion, active_recordBest,
    hone.active_eq hmem hactive]
  simp only [hid]
  by_cases hne : active.modelId ≠ best.modelId
  · rw [recordExceeds_recordBest loop (by rwa [hid])]
    split
    · exact activeIds_promote_of_mem hids (List.mem_map_of_mem (bestCandidate_mem hbest))
    · exact hstay
  · rw [if_neg (fun h ↦ hne h.1), if_neg (fun h ↦ hne h.1)]
    exact hstay

-- The active candidate, as the only one, is the one every active candidate of a cycle is.
theorem ExactlyOneActive.unique {loop : EvaluationLoop} (h : loop.ExactlyOneActive)
    {a b : ASRModelCandidate} (ha : a ∈ loop.candidates) (haActive : a.isActive = true)
    (hb : b ∈ loop.candidates) (hbActive : b.isActive = true) : a = b :=
  Option.some.inj ((h.active_eq ha haActive).symm.trans (h.active_eq hb hbActive))

section OneActive

variable {loop : EvaluationLoop} {input : CycleInput} {best active : ASRModelCandidate}

-- With a best and an active candidate at hand, only these two can be called for.
theorem callsForPromotion_iff (hids : loop.modelIds.Nodup) (hone : loop.ExactlyOneActive)
    (hsamples : input.samples ≠ []) (hbest : loop.bestCandidate input.evaluation = some best)
    (hmem : active ∈ loop.candidates) (hactive : active.isActive = true)
    (b a : ASRModelCandidate) :
    loop.CallsForPromotion input b a ↔ b = best ∧ a = active ∧
      active.modelId ≠ best.modelId ∧ loop.measuredExceeds input best active := by
  have hinactive := isActive_eq_false_iff hids hone (bestCandidate_mem hbest) hmem hactive
  constructor
  · intro h
    obtain rfl : best = b := Option.some.inj (hbest.symm.trans h.best_eq)
    obtain rfl := hone.unique hmem hactive h.active_mem h.isActive
    exact ⟨rfl, rfl, hinactive.mp h.best_inactive, h.exceeds⟩
  · rintro ⟨rfl, rfl, hne, hexceeds⟩
    exact ⟨hsamples, hbest, hinactive.mpr hne, hmem, hactive, hexceeds⟩

theorem recordAgrees_iff (hids : loop.modelIds.Nodup) (hone : loop.ExactlyOneActive)
    (hsamples : input.samples ≠ []) (hbest : loop.bestCandidate input.evaluation = some best)
    (hmem : active ∈ loop.candidates) (hactive : active.isActive = true) :
    loop.RecordAgrees input ↔ (active.modelId ≠ best.modelId →
      (loop.recordExceeds active.modelId (input.evaluation.metrics best.modelId) = true ↔
        loop.measuredExceeds input best active)) := by
  have hinactive := isActive_eq_false_iff hids hone (bestCandidate_mem hbest) hmem hactive
  rw [recordExceeds_iff]
  constructor
  · intro h hne
    exact h hsamples best active hbest (hinactive.mpr hne) hmem hactive
  · intro h _ b a hb hbFalse ha haActive
    obtain rfl : best = b := Option.some.inj (hbest.symm.trans hb)
    obtain rfl := hone.unique hmem hactive ha haActive
    exact h (hinactive.mp hbFalse)

/-- A cycle follows the promotion rule just when the record it decides on agrees with what it
measured. -/
theorem promotionRule_evalCycle_iff (hids : loop.modelIds.Nodup) (hone : loop.ExactlyOneActive) :
    loop.PromotionRule input (loop.evalCycle input.samples input.evaluation) ↔
      loop.RecordAgrees input := by
  by_cases hsamples : input.samples = []
  · rw [evalCycle_of_no_best (.inl hsamples)]
    refine iff_of_true ⟨fun b a h ↦ absurd hsamples h.samples_ne, fun _ ↦ rfl⟩ ?_
    exact fun h ↦ absurd hsamples h
  obtain ⟨active, hmem, hactive⟩ := hone.exists_active
  obtain ⟨best, hbest⟩ : ∃ best, loop.bestCandidate input.evaluation = some best := by
    rw [← Option.ne_none_iff_exists', bestCandidate, Ne, List.argmin_eq_none]
    exact List.ne_nil_of_mem hmem
  have hcalls := callsForPromotion_iff hids hone hsamples hbest hmem hactive
  rw [recordAgrees_iff hids hone hsamples hbest hmem hactive, PromotionRule,
    activeIds_evalCycle hids hone hsamples hbest hmem hactive, hone.activeIds_eq hmem hactive]
  simp only [hcalls]
  -- The two verdicts differ in the state they lead to only when the best one is not yet active.
  by_cases hne : active.modelId ≠ best.modelId
  · by_cases hmeasured : loop.measuredExceeds input best active
    · by_cases hrecord : loop.recordExceeds active.modelId (input.evaluation.metrics best.modelId)
        <;> simp [hne, hmeasured, hrecord]
    · by_cases hrecord : loop.recordExceeds active.modelId (input.evaluation.metrics best.modelId)
        <;> simp [hne, hmeasured, hrecord, Ne.symm hne]
  · simp [hne]

end OneActive

theorem promotionRule_along_iff {loop : EvaluationLoop} (hids : loop.modelIds.Nodup)
    (hactive : loop.ExactlyOneActive) (inputs : List CycleInput) :
    Along cycleStep PromotionRule loop inputs ↔
      Along cycleStep (fun s input _ ↦ s.RecordAgrees input) loop inputs := by
  apply along_congr (I := fun s ↦ s.modelIds.Nodup ∧ s.ExactlyOneActive)
  · rintro s input s' ⟨hs, hone⟩ hstep
    cases hstep
    exact promotionRule_evalCycle_iff hs hone
  · rintro s input s' ⟨hs, hone⟩ hstep -
    cases hstep
    refine ⟨?_, exactlyOneActive_evalCycle hs hone _ _⟩
    rwa [modelIds_evalCycle]
  · exact ⟨hids, hactive⟩

/-- Along a run every cycle follows the promotion rule just when in every cycle the active
candidate's record agrees with its measurement.  From a loop that has recorded nothing yet, this is
its metrics in the last cycle before that it won. -/
theorem promotion_rule_iff (loop : EvaluationLoop) (hids : loop.modelIds.Nodup)
    (hactive : loop.ExactlyOneActive) (inputs : List CycleInput) :
    (Along cycleStep PromotionRule loop inputs ↔
      Along cycleStep (fun s input _ ↦ s.RecordAgrees input) loop inputs) ∧
    (loop.bestMetrics = Dict.empty →
      (Along cycleStep PromotionRule loop inputs ↔ ∀ before input after s,
        inputs = before ++ input :: after → runFrom cycleStep loop before = some s →
          s.AgreesWith (lastWin loop.modelIds before) input)) := by
  have hiff := promotionRule_along_iff hids hactive inputs
  refine ⟨hiff, fun hempty ↦ hiff.trans (along_iff_split.trans ?_)⟩
  constructor
  · intro h before input after s hinputs hbefore
    rw [← bestMetrics_run hempty hbefore]
    exact h before input after s _ hinputs hbefore rfl
  · intro h before input after s s' hinputs hbefore _
    rw [RecordAgrees, bestMetrics_run hempty hbefore]
    exact h before input after s hinputs hbefore

-- A cycle that finds the first of `twoModels` at error rate `werA`, the other at `werB`.
def measuredCycle (werA werB : ℚ) : CycleInput where
  samples :=
    [{ sampleId := "sample-0", audioBytes := [], referenceText := "hello world"
       durationS := 1 / 100 }]
  evaluation.metrics modelId :=
    { modelId, wer := if modelId = "whisper-large-v3" then werA else werB }
  evaluation.modelId_metrics _ := rfl

theorem measuredCycle_samples_ne (werA werB : ℚ) : (measuredCycle werA werB).samples ≠ [] :=
  List.cons_ne_nil _ _

theorem twoModels_promotion_rule :
    Along cycleStep PromotionRule twoModels
      [measuredCycle (1 / 10) (3 / 10), measuredCycle (1 / 10) (1 / 100)] := by
  refine (promotion_rule_iff twoModels (by decide) (by decide) _).1.mpr fun s hs ↦ ⟨?_, ?_⟩
  · cases hs
    have hbest : twoModels.bestCandidate (measuredCycle (1 / 10) (3 / 10)).evaluation =
        some { modelId := "whisper-large-v3", isActive := true } := by decide +kernel
    exact (recordAgrees_iff (by decide) (by decide) (measuredCycle_samples_ne _ _) hbest
      (List.mem_cons_self ..) rfl).mpr fun h ↦ absurd rfl h
  · rintro s' hs'
    cases hs
    refine ⟨?_, trivial⟩
    have hbest : (twoModels.evalCycle (measuredCycle (1 / 10) (3 / 10)).samples
        (measuredCycle (1 / 10) (3 / 10)).evaluation).bestCandidate
        (measuredCycle (1 / 10) (1 / 100)).evaluation =
        some { modelId := "canary-1b" } := by decide +kernel
    have hmem : ({ modelId := "whisper-large-v3", isActive := true } : ASRModelCandidate) ∈
        (twoModels.evalCycle (measuredCycle (1 / 10) (3 / 10)).samples
          (measuredCycle (1 / 10) (3 / 10)).evaluation).candidates := by decide +kernel
    refine (recordAgrees_iff (by decide +kernel) (by decide +kernel)
      (measuredCycle_samples_ne _ _) hbest hmem rfl).mpr fun _ ↦ iff_of_true ?_ ?_
    · decide +kernel
    · rw [measuredExceeds]
      decide +kernel

/-- A cycle that should promote and does not, the active model never having won a cycle; and one
that promotes on the error rate the active model had in an earlier cycle. -/
theorem promotion_by_stale_record :
    ¬ Along cycleStep PromotionRule twoModels [measuredCycle (1 / 2) (1 / 10)] ∧
      ¬ Along cycleStep PromotionRule twoModels
        [measuredCycle (1 / 2) (3 / 5), measuredCycle (1 / 5) (19 / 100)] := by
  constructor
  · intro h
    have hpromoted := (h _ rfl).1.1 { modelId := "canary-1b" }
      { modelId := "whisper-large-v3", isActive := true }
      ⟨measuredCycle_samples_ne _ _, by decide +kernel, rfl, by decide, rfl, by
        rw [measuredExceeds]
        decide +kernel⟩
    exact absurd hpromoted (by decide +kernel)
  · intro h
    have hmem : ({ modelId := "whisper-large-v3", isActive := true } : ASRModelCandidate) ∈
        (twoModels.evalCycle (measuredCycle (1 / 2) (3 / 5)).samples
          (measuredCycle (1 / 2) (3 / 5)).evaluation).candidates := by decide +kernel
    have hbest : (twoModels.evalCycle (measuredCycle (1 / 2) (3 / 5)).samples
        (measuredCycle (1 / 2) (3 / 5)).evaluation).bestCandidate
        (measuredCycle (1 / 5) (19 / 100)).evaluation =
        some { modelId := "canary-1b" } := by decide +kernel
    have hstays := ((h _ rfl).2 _ rfl).1.2 (by
      rintro ⟨best, active, hcall⟩
      obtain ⟨-, -, -, hexceeds⟩ := (callsForPromotion_iff (by decide +kernel)
        (by decide +kernel) (measuredCycle_samples_ne _ _) hbest hmem rfl _ _).mp hcall
      rw [measuredExceeds] at hexceeds
      exact absurd hexceeds (by decide +kernel))
    exact absurd hstays (by decide +kernel)

end AsrServe.AgenticFactory.EvaluationLoop
