import AsrServe.AgenticFactory.ErrorRates
import AsrServe.AgenticFactory.JsonValue
import AsrServe.AgenticFactory.Promotion

/-!
# The evaluation loop at work (`agentic-factory/src/evaluator.py`)

`run` from the telemetry to the promotion, over whatever the inference endpoint answers.  A failed
request counts as an empty transcript; an answer whose `text` is no string ends the loop.
-/

open AsrServe.Reasoning

namespace AsrServe.AgenticFactory.EvaluationRun

/-- What a request to the endpoint comes to. -/
inductive Reply where
  -- The request, its status or the reading of its body has raised.
  | failed
  | body (value : JsonValue)

structure Transcription where
  reply : Reply
  latencyMs : ℚ

/-- The exceptions `evaluate_model` may raise. -/
inductive EvaluationError where
  | attributeError
  -- Of the table of `_edit_distance`.
  | indexError
deriving DecidableEq, Repr

/-- `fetch_wer_samples`, which is a stub. -/
def fetchWerSamples (n : Nat) : List EvalSample :=
  (List.range (min n 5)).map fun i ↦
    { sampleId := "sample-" ++ toString i
      audioBytes := List.replicate 640 0
      referenceText := "hello world"
      durationS := 1 / 100 }

variable (casing : CaseMapping) (session : Bool)

/-- The transcript `transcribe` returns; without a session it is a stub. -/
def transcribe (t : Transcription) : JsonValue :=
  if session then
    match t.reply with
    | .failed => .str ""
    | .body value =>
      match value.get "text" (.str "") with
      | .ok transcript => transcript
      -- caught with everything else
      | .error _ => .str ""
  else
    .str "hello world"

-- `hyp.lower()` needs a string.
def hear (asked : EvalSample × Transcription) : Except EvaluationError Heard :=
  match transcribe session asked.2 with
  | .str transcript => .ok { sample := asked.1, transcript, latencyMs := asked.2.latencyMs }
  | _ => .error .attributeError

def evaluate (candidate : ASRModelCandidate) (asked : List (EvalSample × Transcription)) :
    Except EvaluationError ModelMetrics := do
  match evaluateModel casing candidate (← asked.mapM (hear session)) with
  | some metrics => return metrics
  | none => throw .indexError

/-- What one cycle is given: the samples, and for the `i`-th candidate and the `j`-th sample what
the request comes to. -/
structure Turn where
  samples : List EvalSample
  replies : Nat → Nat → Transcription

-- The samples with what the requests for the `i`-th candidate come to.
def Turn.asked (turn : Turn) (i : Nat) : List (EvalSample × Transcription) :=
  turn.samples.zipIdx.map fun (sample, j) ↦ (sample, turn.replies i j)

/-- The rest of a cycle, once every candidate has its metrics. -/
def conclude (loop : EvaluationLoop) (results : List ModelMetrics) : EvaluationLoop :=
  match (results.insertionSort fun m m' ↦ sortKey m ≤ sortKey m').head? with
  | none => loop
  | some best => (loop.recordBest best).triggerPromotion best

def measure (loop : EvaluationLoop) (turn : Turn) : Except EvaluationError (List ModelMetrics) :=
  loop.candidates.zipIdx.mapM fun (candidate, i) ↦
    evaluate casing session candidate (turn.asked i)

def cycle (loop : EvaluationLoop) (turn : Turn) : Except EvaluationError EvaluationLoop := do
  if turn.samples.isEmpty then
    return loop
  return conclude loop (← measure casing session loop turn)

/-! ## The loop -/

/-- `run`; nothing in it catches what a cycle raises. -/
structure Runner where
  loop : EvaluationLoop
  running : Bool := true
  raised : Option EvaluationError := none

inductive Event where
  | turn (turn : Turn)
  | stop

def step (s : Runner) : Event → Option Runner
  | .stop => some { s with running := false }
  | .turn turn =>
    if s.running ∧ s.raised = none then
      match cycle casing session s.loop turn with
      | .ok loop => some { s with loop }
      | .error e => some { s with raised := some e }
    else none

/-! ## What is heard -/

variable {casing session}

-- A loop that may raise goes through, or raises what one of its turns raises.
theorem mapM_cases {α β ε : Type} (f : α → Except ε β) (xs : List α) :
    (∃ ys, xs.mapM f = .ok ys ∧ List.Forall₂ (fun x y ↦ f x = .ok y) xs ys) ∨
      ∃ x ∈ xs, ∃ e, f x = .error e ∧ xs.mapM f = .error e := by
  induction xs with
  | nil => exact .inl ⟨[], rfl, .nil⟩
  | cons x xs ih =>
    rw [List.mapM_cons]
    cases hx : f x with
    | error e => exact .inr ⟨x, List.mem_cons_self, e, hx, rfl⟩
    | ok y =>
      rcases ih with ⟨ys, hys, hall⟩ | ⟨x', hx', e, he, herror⟩
      · rw [hys]
        exact .inl ⟨y :: ys, rfl, .cons hx hall⟩
      · rw [herror]
        exact .inr ⟨x', List.mem_cons_of_mem _ hx', e, he, rfl⟩

-- Each turn of such a loop has its result, and each result its turn.
theorem exists_right {α β : Type} {R : α → β → Prop} {xs : List α} {ys : List β}
    (h : List.Forall₂ R xs ys) {x : α} (hx : x ∈ xs) : ∃ y ∈ ys, R x y := by
  induction h with
  | nil => cases hx
  | @cons x' y' xs ys hr _ ih =>
    rcases List.mem_cons.mp hx with rfl | hx
    · exact ⟨y', List.mem_cons_self, hr⟩
    · obtain ⟨y, hy, hr'⟩ := ih hx
      exact ⟨y, List.mem_cons_of_mem _ hy, hr'⟩

theorem exists_left {α β : Type} {R : α → β → Prop} {xs : List α} {ys : List β}
    (h : List.Forall₂ R xs ys) {y : β} (hy : y ∈ ys) : ∃ x ∈ xs, R x y :=
  exists_right h.flip hy

-- The transcript is a text.
def Transcription.Yields (session : Bool) (t : Transcription) (transcript : String) : Prop :=
  transcribe session t = .str transcript

theorem hear_ok_iff {asked : EvalSample × Transcription} {heard : Heard} :
    hear session asked = .ok heard ↔ asked.2.Yields session heard.transcript ∧
      heard.sample = asked.1 ∧ heard.latencyMs = asked.2.latencyMs := by
  obtain ⟨sample, transcript, latencyMs⟩ := heard
  rw [hear, Transcription.Yields]
  constructor
  · intro h
    split at h
    · rename_i text htext
      cases h
      exact ⟨htext, rfl, rfl⟩
    · cases h
  · rintro ⟨htext, rfl, rfl⟩
    rw [htext]

theorem hear_error {asked : EvalSample × Transcription} {e : EvaluationError}
    (h : hear session asked = .error e) :
    e = .attributeError ∧ ∀ transcript, ¬ asked.2.Yields session transcript := by
  rw [hear] at h
  split at h
  · cases h
  · rename_i hno
    cases h
    exact ⟨rfl, fun transcript htext ↦ hno transcript htext⟩

theorem modelId_evaluateModel {candidate : ASRModelCandidate} {heard : List Heard}
    {metrics : ModelMetrics} (h : evaluateModel casing candidate heard = some metrics) :
    metrics.modelId = candidate.modelId := by
  rw [evaluateModel] at h
  split at h
  · cases h
    rfl
  · obtain ⟨totals, -, hmetrics⟩ := Option.bind_eq_some_iff.mp h
    cases hmetrics
    rfl

/-- What a candidate is measured at: its rates over the transcripts that were heard. -/
structure Measured (casing : CaseMapping) (session : Bool) (candidate : ASRModelCandidate)
    (asked : List (EvalSample × Transcription)) (metrics : ModelMetrics) : Prop where
  modelId_eq : metrics.modelId = candidate.modelId
  rates : ∃ heard, List.Forall₂ (fun a h ↦ hear session a = .ok h) asked heard ∧
    metrics.wer = reportedRate casing.words heard ∧ metrics.cer = reportedRate casing.chars heard

theorem Measured.yields {candidate : ASRModelCandidate}
    {asked : List (EvalSample × Transcription)} {metrics : ModelMetrics}
    (h : Measured casing session candidate asked metrics) {a : EvalSample × Transcription}
    (ha : a ∈ asked) : ∃ transcript, a.2.Yields session transcript := by
  obtain ⟨heard, hall, -, -⟩ := h.rates
  obtain ⟨heard, -, hhear⟩ := exists_right hall ha
  exact ⟨heard.transcript, (hear_ok_iff.mp hhear).1⟩

-- An evaluation goes through just when every answer is heard.
theorem evaluate_cases (casing : CaseMapping) (session : Bool) (candidate : ASRModelCandidate)
    {asked : List (EvalSample × Transcription)} (hne : asked ≠ []) :
    (∃ metrics, evaluate casing session candidate asked = .ok metrics ∧
        Measured casing session candidate asked metrics) ∨
      evaluate casing session candidate asked = .error .attributeError ∧
        ∃ a ∈ asked, ∀ transcript, ¬ a.2.Yields session transcript := by
  rw [evaluate]
  rcases mapM_cases (hear session) asked with ⟨heard, hheard, hall⟩ | ⟨a, ha, e, hearError, herror⟩
  · have hne' : heard ≠ [] := by
      rintro rfl
      cases hall
      exact hne rfl
    obtain ⟨metrics, hmetrics, hwer, hcer⟩ := evaluateModel_eq casing candidate hne'
    refine .inl ⟨metrics, ?_, modelId_evaluateModel hmetrics, heard, hall, hwer, hcer⟩
    rw [hheard]
    show (match evaluateModel casing candidate heard with | some _ => _ | none => _) = _
    rw [hmetrics]
    rfl
  · obtain ⟨rfl, hno⟩ := hear_error hearError
    rw [herror]
    exact .inr ⟨rfl, a, ha, hno⟩

/-! ## One cycle -/

/-- Every answer to the requests of the cycle, for `n` candidates, is heard as a text. -/
def Turn.Understood (session : Bool) (n : Nat) (turn : Turn) : Prop :=
  ∀ i < n, ∀ a ∈ turn.asked i, ∃ transcript, a.2.Yields session transcript

theorem asked_ne_nil {turn : Turn} (h : turn.samples ≠ []) (i : Nat) : turn.asked i ≠ [] := by
  intro hnil
  rw [Turn.asked, List.map_eq_nil_iff, List.zipIdx_eq_nil_iff] at hnil
  exact h hnil

theorem measure_cases (casing : CaseMapping) (session : Bool) (loop : EvaluationLoop) {turn : Turn}
    (hsamples : turn.samples ≠ []) :
    (∃ results, measure casing session loop turn = .ok results ∧
        turn.Understood session loop.candidates.length ∧
        List.Forall₂ (fun p m ↦ Measured casing session p.1 (turn.asked p.2) m)
          loop.candidates.zipIdx results) ∨
      measure casing session loop turn = .error .attributeError ∧
        ¬ turn.Understood session loop.candidates.length := by
  rw [measure]
  rcases mapM_cases (fun p : ASRModelCandidate × Nat ↦
      evaluate casing session p.1 (turn.asked p.2)) loop.candidates.zipIdx with
    ⟨results, hresults, hall⟩ | ⟨⟨candidate, i⟩, hmem, e, hevaluate, herror⟩
  · have hmeasured : List.Forall₂ (fun p m ↦ Measured casing session p.1 (turn.asked p.2) m)
        loop.candidates.zipIdx results := by
      refine hall.imp fun p m hevaluate ↦ ?_
      rcases evaluate_cases casing session p.1 (asked_ne_nil hsamples p.2) with
        ⟨metrics, hok, hmeasured⟩ | ⟨hfail, -⟩
      · rw [hok] at hevaluate
        cases hevaluate
        exact hmeasured
      · rw [hfail] at hevaluate
        cases hevaluate
    refine .inl ⟨results, hresults, fun i hi a ha ↦ ?_, hmeasured⟩
    have hmem : (loop.candidates[i], i) ∈ loop.candidates.zipIdx := by
      rw [List.mk_mem_zipIdx_iff_getElem?]
      exact List.getElem?_eq_getElem hi
    obtain ⟨metrics, -, hm⟩ := exists_right hmeasured hmem
    exact hm.yields ha
  · refine .inr ?_
    rcases evaluate_cases casing session candidate (asked_ne_nil hsamples i) with
      ⟨metrics, hok, -⟩ | ⟨hfail, a, ha, hno⟩
    · rw [hok] at hevaluate
      cases hevaluate
    · rw [hfail] at hevaluate
      cases hevaluate
      rw [List.mk_mem_zipIdx_iff_getElem?] at hmem
      refine ⟨herror, fun hunderstood ↦ ?_⟩
      obtain ⟨transcript, hyields⟩ :=
        hunderstood i (List.getElem?_eq_some_iff.mp hmem).1 a ha
      exact hno transcript hyields

theorem conclude_cases (loop : EvaluationLoop) (results : List ModelMetrics) :
    results = [] ∧ conclude loop results = loop ∨
      ∃ best ∈ results, (∀ m ∈ results, sortKey best ≤ sortKey m) ∧
        conclude loop results = (loop.recordBest best).triggerPromotion best := by
  rw [conclude, head?_insertionSort]
  cases hbest : results.argmin sortKey with
  | none => exact .inl ⟨List.argmin_eq_none.mp hbest, rfl⟩
  | some best =>
    exact .inr ⟨best, List.argmin_mem hbest, fun m hm ↦ List.le_of_mem_argmin hm hbest, rfl⟩

-- The candidates at the end of a cycle: as they were, or with the best one promoted.
theorem candidates_triggerPromotion (loop : EvaluationLoop) (best : ModelMetrics) :
    (loop.triggerPromotion best).candidates = loop.candidates ∨
      (∃ active, loop.active = some active ∧ active.modelId ≠ best.modelId ∧
        loop.recordExceeds active.modelId best = true) ∧
      (loop.triggerPromotion best).candidates = (loop.promote best.modelId).candidates := by
  rw [EvaluationLoop.triggerPromotion]
  cases hactive : loop.active with
  | none => exact .inl rfl
  | some active =>
    dsimp only
    split
    · rename_i h
      exact .inr ⟨⟨active, rfl, h.1, h.2⟩, rfl⟩
    · exact .inl rfl

theorem modelIds_conclude (loop : EvaluationLoop) (results : List ModelMetrics) :
    (conclude loop results).modelIds = loop.modelIds := by
  rcases conclude_cases loop results with ⟨-, heq⟩ | ⟨best, -, -, heq⟩
  · rw [heq]
  · rw [heq, EvaluationLoop.modelIds]
    rcases candidates_triggerPromotion (loop.recordBest best) best with hsame | ⟨-, hpromoted⟩
    · rw [hsame]
      rfl
    · rw [hpromoted]
      exact EvaluationLoop.modelIds_promote (loop.recordBest best) best.modelId

/-- A cycle goes through just when every answer is heard as a text; otherwise it raises. -/
theorem cycle_cases (casing : CaseMapping) (session : Bool) (loop : EvaluationLoop) (turn : Turn) :
    (∃ loop', cycle casing session loop turn = .ok loop' ∧
        turn.Understood session loop.candidates.length ∧ loop'.modelIds = loop.modelIds) ∨
      cycle casing session loop turn = .error .attributeError ∧
        ¬ turn.Understood session loop.candidates.length := by
  rw [cycle]
  by_cases hsamples : turn.samples = []
  · rw [hsamples]
    refine .inl ⟨loop, rfl, fun i _ a ha ↦ ?_, rfl⟩
    rw [Turn.asked, hsamples] at ha
    cases ha
  · rw [if_neg (by rwa [List.isEmpty_iff])]
    rcases measure_cases casing session loop hsamples with
      ⟨results, hresults, hunderstood, -⟩ | ⟨herror, hnot⟩
    · rw [hresults]
      exact .inl ⟨_, rfl, hunderstood, modelIds_conclude loop results⟩
    · rw [herror]
      exact .inr ⟨rfl, hnot⟩

/-! ## The end of the loop -/

-- The cycles of a run.
def turnsOf (events : List Event) : List Turn :=
  events.filterMap fun | .turn turn => some turn | .stop => none

theorem length_candidates {loop loop' : EvaluationLoop} (h : loop'.modelIds = loop.modelIds) :
    loop'.candidates.length = loop.candidates.length := by
  have hlength := congrArg List.length h
  rwa [EvaluationLoop.modelIds, EvaluationLoop.modelIds, List.length_map, List.length_map]
    at hlength

/-- The loop is up as long as every answer has been a text; the cycle that has raised is the last
one and has left the loop as it found it. -/
structure Survives (casing : CaseMapping) (session : Bool) (loop : EvaluationLoop)
    (events : List Event) (s : Runner) : Prop where
  modelIds_eq : s.loop.modelIds = loop.modelIds
  up : s.raised = none → ∀ turn ∈ turnsOf events,
    turn.Understood session loop.candidates.length
  down : ∀ e, s.raised = some e → e = .attributeError ∧ ∃ before last after m,
    events = before ++ .turn last :: after ∧ turnsOf after = [] ∧
      (∀ turn ∈ turnsOf before, turn.Understood session loop.candidates.length) ∧
      ¬ last.Understood session loop.candidates.length ∧
      runFrom (step casing session) { loop } before = some m ∧ s.loop = m.loop

theorem turnsOf_concat (events : List Event) (event : Event) :
    turnsOf (events ++ [event]) = turnsOf events ++ turnsOf [event] := List.filterMap_append

theorem Survives.step {loop : EvaluationLoop} {past : List Event} {event : Event} {s s' : Runner}
    (h : Survives casing session loop past s)
    (hrun : runFrom (step casing session) { loop } past = some s)
    (hstep : EvaluationRun.step casing session s event = some s') :
    Survives casing session loop (past ++ [event]) s' := by
  cases event with
  | stop =>
    cases hstep
    have hturns : turnsOf (past ++ [.stop]) = turnsOf past := by
      rw [turnsOf_concat]
      exact List.append_nil _
    refine ⟨h.modelIds_eq, fun hup ↦ ?_, fun e he ↦ ?_⟩
    · rw [hturns]
      exact h.up hup
    · obtain ⟨hattribute, before, last, after, m, rfl, hafter, hrest⟩ := h.down e he
      refine ⟨hattribute, before, last, after ++ [.stop], m, ?_, ?_, hrest⟩
      · rw [List.append_assoc, List.cons_append]
      · rw [turnsOf_concat, hafter]
        rfl
  | turn turn =>
    rw [EvaluationRun.step, Option.ite_none_right_eq_some] at hstep
    obtain ⟨⟨-, hup⟩, hstep⟩ := hstep
    rcases cycle_cases casing session s.loop turn with
      ⟨loop', hcycle, hunderstood, hids⟩ | ⟨hcycle, hnot⟩
    · rw [hcycle] at hstep
      cases hstep
      refine ⟨hids.trans h.modelIds_eq, fun _ t ht ↦ ?_, fun e he ↦ ?_⟩
      · rw [turnsOf_concat, List.mem_append] at ht
        rcases ht with ht | ht
        · exact h.up hup t ht
        · rw [List.mem_singleton.mp ht, ← length_candidates h.modelIds_eq]
          exact hunderstood
      · rw [show s.raised = some e from he] at hup
        cases hup
    · rw [hcycle] at hstep
      cases hstep
      refine ⟨h.modelIds_eq, fun hnone ↦ (by cases hnone), fun e he ↦ ?_⟩
      cases he
      refine ⟨rfl, past, turn, [], s, rfl, rfl, h.up hup, ?_, hrun, rfl⟩
      rw [← length_candidates h.modelIds_eq]
      exact hnot

/-- The evaluation loop lives as long as every answer of the endpoint is heard as a text: a failed
request or an answer without a `text` is, but a `text` that is no string ends it for good, in the
cycle it arrives in, with candidates, hints and records as the cycle before has left them. -/
theorem evaluation_loop_survives_iff (casing : CaseMapping) (session : Bool)
    (loop : EvaluationLoop) {events : List Event} {s : Runner}
    (hrun : runFrom (step casing session) { loop } events = some s) :
    (s.raised = none ↔
        ∀ turn ∈ turnsOf events, turn.Understood session loop.candidates.length) ∧
      ∀ e, s.raised = some e → ∃ before last after m,
        events = before ++ .turn last :: after ∧ turnsOf after = [] ∧
          ¬ last.Understood session loop.candidates.length ∧
          runFrom (step casing session) { loop } before = some m ∧ s.loop = m.loop := by
  have hboth : Survives casing session loop events s ∧
      runFrom (step casing session) { loop } events = some s := by
    refine run_invariant_history (I := fun past s ↦ Survives casing session loop past s ∧
      runFrom (step casing session) { loop } past = some s) ?_ ⟨⟨rfl, ?_, ?_⟩, rfl⟩ hrun
    · rintro past s event s' ⟨h, hpast⟩ hstep
      exact ⟨h.step hpast hstep, runFrom_concat_eq_some.mpr ⟨s, hpast, hstep⟩⟩
    · exact fun _ turn hturn ↦ absurd hturn List.not_mem_nil
    · intro e he
      cases he
  obtain ⟨h, -⟩ := hboth
  refine ⟨⟨h.up, fun hall ↦ ?_⟩, fun e he ↦ ?_⟩
  · cases hraised : s.raised with
    | none => rfl
    | some e =>
      obtain ⟨-, before, last, after, m, rfl, -, -, hnot, -⟩ := h.down e hraised
      refine absurd (hall last ?_) hnot
      rw [turnsOf, List.filterMap_append]
      exact List.mem_append_right _ List.mem_cons_self
  · obtain ⟨-, before, last, after, m, hsplit, hafter, -, hnot, hm, hloop⟩ := h.down e he
    exact ⟨before, last, after, m, hsplit, hafter, hnot, hm, hloop⟩

-- An answer whose `text` is `null`.
def nullText : Turn where
  samples := fetchWerSamples 1
  replies _ _ := { reply := .body (.dict [("text", .null)]), latencyMs := 5 }

theorem nullText_ends_loop :
    ∃ s, runFrom (step .lowerCase true) { loop := EvaluationLoop.twoModels } [.turn nullText] =
        some s ∧ s.raised = some .attributeError ∧
      (s.raised = none ↔ ∀ turn ∈ turnsOf [.turn nullText], turn.Understood true 2) := by
  refine ⟨_, rfl, rfl, ?_⟩
  exact (evaluation_loop_survives_iff .lowerCase true EvaluationLoop.twoModels rfl).1

/-! ## The cycle as it was modelled without the endpoint -/

/-- The metrics of a cycle as a function of the model id. -/
def evaluationOf (results : List ModelMetrics) : Evaluation where
  metrics id := (results.find? (·.modelId == id)).getD { modelId := id }
  modelId_metrics id := by
    cases hfind : results.find? (·.modelId == id) with
    | none => rfl
    | some m =>
      have hid := List.find?_some hfind
      exact beq_iff_eq.mp hid

-- With distinct ids each of the metrics is found again.
theorem metrics_evaluationOf {results : List ModelMetrics}
    (hids : (results.map (·.modelId)).Nodup) {m : ModelMetrics} (hm : m ∈ results) :
    (evaluationOf results).metrics m.modelId = m := by
  cases hfind : results.find? (·.modelId == m.modelId) with
  | none =>
    have hnone := List.find?_eq_none.mp hfind m hm
    rw [beq_self_eq_true] at hnone
    exact absurd rfl hnone
  | some m' =>
    have hid := List.find?_some hfind
    show (results.find? (·.modelId == m.modelId)).getD _ = m
    rw [hfind]
    exact List.inj_on_of_nodup_map hids (List.mem_of_find?_eq_some hfind) hm (beq_iff_eq.mp hid)

theorem modelIds_measured {ps : List (ASRModelCandidate × Nat)} {turn : Turn}
    {results : List ModelMetrics}
    (h : List.Forall₂ (fun p m ↦ Measured casing session p.1 (turn.asked p.2) m) ps results) :
    results.map (·.modelId) = ps.map fun p ↦ p.1.modelId := by
  induction h with
  | nil => rfl
  | cons hm _ ih => rw [List.map_cons, List.map_cons, hm.modelId_eq, ih]

/-- With distinct ids a cycle that goes through is the cycle over the rates of the transcripts. -/
theorem cycle_refines {loop loop' : EvaluationLoop} {turn : Turn} (hids : loop.modelIds.Nodup)
    (h : cycle casing session loop turn = .ok loop') :
    ∃ evaluation, loop' = loop.evalCycle turn.samples evaluation ∧
      (turn.samples ≠ [] → ∀ c i, (c, i) ∈ loop.candidates.zipIdx →
        Measured casing session c (turn.asked i) (evaluation.metrics c.modelId)) := by
  rw [cycle] at h
  by_cases hsamples : turn.samples = []
  · rw [hsamples] at h
    cases h
    exact ⟨evaluationOf [], by rw [hsamples]; rfl, fun hne ↦ absurd hsamples hne⟩
  · rw [if_neg (by rwa [List.isEmpty_iff])] at h
    rcases measure_cases casing session loop hsamples with
      ⟨results, hresults, -, hmeasured⟩ | ⟨herror, -⟩
    · rw [hresults] at h
      cases h
      have hresultIds : results.map (·.modelId) = loop.modelIds := by
        rw [modelIds_measured hmeasured, EvaluationLoop.modelIds]
        show List.map (ASRModelCandidate.modelId ∘ Prod.fst) _ = _
        rw [← List.map_map, List.zipIdx_map_fst]
      have hnodup : (results.map (·.modelId)).Nodup := hresultIds ▸ hids
      have hagain : loop.candidates.map (fun c ↦ (evaluationOf results).metrics c.modelId) =
          results := by
        calc loop.candidates.map (fun c ↦ (evaluationOf results).metrics c.modelId)
          _ = loop.modelIds.map (evaluationOf results).metrics := by
            rw [EvaluationLoop.modelIds, List.map_map]
            rfl
          _ = results.map fun m ↦ (evaluationOf results).metrics m.modelId := by
            rw [← hresultIds, List.map_map]
            rfl
          _ = results.map id := List.map_congr_left fun m hm ↦ metrics_evaluationOf hnodup hm
          _ = results := List.map_id results
      refine ⟨evaluationOf results, ?_, fun _ c i hmem ↦ ?_⟩
      · rw [EvaluationLoop.evalCycle, if_neg (by rwa [List.isEmpty_iff]), EvaluationLoop.results,
          hagain]
        rfl
      · obtain ⟨m, hm, hmeasured⟩ := exists_right hmeasured hmem
        have hfound := metrics_evaluationOf hnodup hm
        rw [hmeasured.modelId_eq] at hfound
        rw [hfound]
        exact hmeasured
    · rw [herror] at h
      cases h

/-- What a cycle over metrics is given when the endpoint has answered `turn`. -/
structure Reads (casing : CaseMapping) (session : Bool) (modelIds : List String) (turn : Turn)
    (input : EvaluationLoop.CycleInput) : Prop where
  samples_eq : input.samples = turn.samples
  measured : turn.samples ≠ [] → ∀ c i, modelIds[i]? = some c.modelId →
    Measured casing session c (turn.asked i) (input.evaluation.metrics c.modelId)

theorem cycle_reads {loop loop' : EvaluationLoop} {turn : Turn} (hids : loop.modelIds.Nodup)
    (h : cycle casing session loop turn = .ok loop') :
    ∃ input, EvaluationLoop.cycleStep loop input = some loop' ∧
      Reads casing session loop.modelIds turn input := by
  obtain ⟨evaluation, rfl, hmeasured⟩ := cycle_refines hids h
  refine ⟨⟨turn.samples, evaluation⟩, rfl, rfl, fun hsamples c i hid ↦ ?_⟩
  rw [EvaluationLoop.modelIds, List.getElem?_map, Option.map_eq_some_iff] at hid
  obtain ⟨c', hc', hid⟩ := hid
  have hm := hmeasured hsamples c' i (List.mk_mem_zipIdx_iff_getElem?.mpr hc')
  rw [hid] at hm
  exact ⟨hm.modelId_eq.trans hid, hm.rates⟩

-- The cycles of a run that have not raised.
def concluded (events : List Event) (s : Runner) : List Turn :=
  if s.raised = none then turnsOf events else (turnsOf events).dropLast

/-- With distinct ids the loop over the endpoint is a run of the loop over metrics, each cycle with
the rates of what it has heard; so exactly one candidate is in production all along. -/
theorem evaluation_run_refines (casing : CaseMapping) (session : Bool) {loop : EvaluationLoop}
    (hids : loop.modelIds.Nodup) (hone : loop.ExactlyOneActive) {events : List Event} {s : Runner}
    (hrun : runFrom (step casing session) { loop } events = some s) :
    s.loop.ExactlyOneActive ∧ ∃ inputs,
      runFrom EvaluationLoop.cycleStep loop inputs = some s.loop ∧
        List.Forall₂ (Reads casing session loop.modelIds) (concluded events s) inputs := by
  have hinv : s.loop.modelIds = loop.modelIds ∧ s.loop.ExactlyOneActive ∧ ∃ inputs,
      runFrom EvaluationLoop.cycleStep loop inputs = some s.loop ∧
        List.Forall₂ (Reads casing session loop.modelIds) (concluded events s) inputs := by
    refine run_invariant_history (I := fun events s ↦ s.loop.modelIds = loop.modelIds ∧
      s.loop.ExactlyOneActive ∧ ∃ inputs,
        runFrom EvaluationLoop.cycleStep loop inputs = some s.loop ∧
          List.Forall₂ (Reads casing session loop.modelIds) (concluded events s) inputs)
      ?_ ⟨rfl, hone, [], rfl, .nil⟩ hrun
    rintro past s event s' ⟨hsame, hactive, inputs, hinputs, hreads⟩ hstep
    cases event with
    | stop =>
      cases hstep
      have hconcluded : concluded (past ++ [.stop]) { s with running := false } =
          concluded past s := by
        have hturns : turnsOf (past ++ [.stop]) = turnsOf past := by
          rw [turnsOf_concat]
          exact List.append_nil _
        rw [concluded, concluded, hturns]
      rw [hconcluded]
      exact ⟨hsame, hactive, inputs, hinputs, hreads⟩
    | turn turn =>
      rw [step, Option.ite_none_right_eq_some] at hstep
      obtain ⟨⟨-, hup⟩, hstep⟩ := hstep
      rw [concluded, if_pos hup] at hreads
      cases hcycle : cycle casing session s.loop turn with
      | ok loop' =>
        rw [hcycle] at hstep
        cases hstep
        obtain ⟨input, hinput, hread⟩ := cycle_reads (hsame ▸ hids) hcycle
        obtain ⟨evaluation, hloop, -⟩ := cycle_refines (hsame ▸ hids) hcycle
        refine ⟨?_, ?_, inputs ++ [input], runFrom_concat_eq_some.mpr ⟨_, hinputs, hinput⟩, ?_⟩
        · rw [← hsame, hloop]
          exact EvaluationLoop.modelIds_evalCycle _ _ _
        · rw [hloop]
          exact EvaluationLoop.exactlyOneActive_evalCycle (hsame ▸ hids) hactive _ _
        · rw [concluded, if_pos hup, turnsOf_concat]
          rw [hsame] at hread
          exact List.rel_append hreads (.cons hread .nil)
      | error e =>
        rw [hcycle] at hstep
        cases hstep
        refine ⟨hsame, hactive, inputs, hinputs, ?_⟩
        rw [concluded, if_neg (fun h ↦ by cases h), turnsOf_concat]
        show List.Forall₂ _ (turnsOf past ++ [turn]).dropLast inputs
        rw [List.dropLast_concat]
        exact hreads
  exact hinv.2

-- Every sample is heard as the first of its two words.
def halfHeard : Turn where
  samples := fetchWerSamples 1
  replies _ _ := { reply := .body (.dict [("text", .str "hello")]), latencyMs := 5 }

/-- A cycle that goes through and one that raises: the loop over metrics makes the first. -/
theorem halfHeard_refines :
    ∃ s input, runFrom (step .lowerCase true) { loop := EvaluationLoop.twoModels }
        [.turn halfHeard, .turn nullText] = some s ∧ s.loop.ExactlyOneActive ∧
      EvaluationLoop.cycleStep EvaluationLoop.twoModels input = some s.loop ∧
      Reads .lowerCase true EvaluationLoop.twoModels.modelIds halfHeard input := by
  have hraised : (runFrom (step .lowerCase true) { loop := EvaluationLoop.twoModels }
      [.turn halfHeard, .turn nullText]).map (·.raised) = some (some .attributeError) := by
    decide +kernel
  obtain ⟨s, hrun, hraised⟩ := Option.map_eq_some_iff.mp hraised
  obtain ⟨hactive, inputs, hinputs, hreads⟩ :=
    evaluation_run_refines .lowerCase true (by decide) (by decide) hrun
  have hconcluded : concluded [.turn halfHeard, .turn nullText] s = [halfHeard] := by
    rw [concluded, hraised]
    rfl
  rw [hconcluded, List.forall₂_cons_left_iff] at hreads
  obtain ⟨input, rest, hread, hrest, rfl⟩ := hreads
  rw [List.forall₂_nil_left_iff.mp hrest, runFrom_singleton] at hinputs
  exact ⟨s, input, hrun, hactive, hinputs, hread⟩

/-! ## Cycles in which every candidate does equally well -/

/-- No record is above `wer` by more than the threshold. -/
def Settled (loop : EvaluationLoop) (wer : ℚ) : Prop :=
  ∀ id m, loop.bestMetrics.get? id = some m → m.wer ≤ wer + loop.werPromoteThresh

/-- All that a cycle with one error rate for all changes: the record of the best candidate, and the
hints with it. -/
structure Unmoved (wer : ℚ) (loop loop' : EvaluationLoop) : Prop where
  candidates_eq : loop'.candidates = loop.candidates
  thresh_eq : loop'.werPromoteThresh = loop.werPromoteThresh
  settled : Settled loop' wer

theorem conclude_uniform {loop : EvaluationLoop} {wer : ℚ} (hthresh : 0 ≤ loop.werPromoteThresh)
    (hsettled : Settled loop wer) {results : List ModelMetrics}
    (hresults : ∀ m ∈ results, m.wer = wer) :
    Unmoved wer loop (conclude loop results) ∧
      (results ≠ [] → (conclude loop results).hints.active.priority = werToPriority wer) := by
  rcases conclude_cases loop results with ⟨hnil, heq⟩ | ⟨best, hbest, -, heq⟩
  · rw [heq]
    exact ⟨⟨rfl, rfl, hsettled⟩, fun hne ↦ absurd hnil hne⟩
  · have hwer := hresults best hbest
    -- what is recorded does not exceed the best by more than the threshold
    have hrecorded : Settled (loop.recordBest best) wer := by
      intro id m hm
      rcases Dict.get?_set_cases hm with ⟨-, rfl⟩ | ⟨-, hold⟩
      · rw [hwer]
        exact le_add_of_nonneg_right hthresh
      · exact hsettled id m hold
    have hstays : (loop.recordBest best).triggerPromotion best = loop.recordBest best := by
      rw [EvaluationLoop.triggerPromotion]
      cases (loop.recordBest best).active with
      | none => rfl
      | some active =>
        dsimp only
        rw [if_neg]
        rintro ⟨-, hexceeds⟩
        rw [EvaluationLoop.recordExceeds] at hexceeds
        split at hexceeds
        · cases hexceeds
        · rename_i m hm
          have hle := hrecorded _ m hm
          have hgt := of_decide_eq_true hexceeds
          rw [hwer] at hgt
          exact absurd (sub_le_iff_le_add'.mpr hle) (not_le.mpr hgt)
    rw [heq, hstays]
    refine ⟨⟨rfl, rfl, hrecorded⟩, fun _ ↦ ?_⟩
    show werToPriority best.wer = _
    rw [hwer]

/-- The cycle measures every candidate at one error rate. -/
def Turn.Uniform (casing : CaseMapping) (session : Bool) (wer : ℚ) (turn : Turn) : Prop :=
  turn.samples ≠ [] ∧ ∀ candidate i, ∃ metrics,
    evaluate casing session candidate (turn.asked i) = .ok metrics ∧ metrics.wer = wer

theorem cycle_uniform {loop : EvaluationLoop} {wer : ℚ} (hthresh : 0 ≤ loop.werPromoteThresh)
    (hsettled : Settled loop wer) {turn : Turn} (huniform : turn.Uniform casing session wer) :
    ∃ loop', cycle casing session loop turn = .ok loop' ∧ Unmoved wer loop loop' ∧
      (loop.candidates ≠ [] → loop'.hints.active.priority = werToPriority wer) := by
  obtain ⟨hsamples, hall⟩ := huniform
  rw [cycle, if_neg (by rwa [List.isEmpty_iff]), measure]
  rcases mapM_cases (fun p : ASRModelCandidate × Nat ↦
      evaluate casing session p.1 (turn.asked p.2)) loop.candidates.zipIdx with
    ⟨results, hresults, heach⟩ | ⟨p, -, e, herror, -⟩
  · have hwer : ∀ m ∈ results, m.wer = wer := by
      intro m hm
      obtain ⟨p, -, hp⟩ := exists_left heach hm
      obtain ⟨metrics, hok, hmetrics⟩ := hall p.1 p.2
      rw [hok] at hp
      cases hp
      exact hmetrics
    obtain ⟨hunmoved, hpriority⟩ := conclude_uniform hthresh hsettled hwer
    refine ⟨conclude loop results, ?_, hunmoved, fun hne ↦ hpriority ?_⟩
    · rw [hresults]
      rfl
    · rintro rfl
      cases hzip : loop.candidates.zipIdx with
      | nil => exact hne (List.zipIdx_eq_nil_iff.mp hzip)
      | cons p ps =>
        rw [hzip] at heach
        cases heach
  · obtain ⟨metrics, hok, -⟩ := hall p.1 p.2
    rw [hok] at herror
    cases herror

/-- A run of such cycles never raises, and keeps the candidates as they are. -/
theorem run_uniform {loop : EvaluationLoop} {wer : ℚ} (hthresh : 0 ≤ loop.werPromoteThresh)
    (hsettled : Settled loop wer) {events : List Event} {s : Runner}
    (hrun : runFrom (step casing session) { loop } events = some s)
    (huniform : ∀ turn ∈ turnsOf events, turn.Uniform casing session wer) :
    s.raised = none ∧ Unmoved wer loop s.loop ∧
      (turnsOf events ≠ [] → loop.candidates ≠ [] →
        s.loop.hints.active.priority = werToPriority wer) := by
  refine run_invariant_history (I := fun events s ↦
    (∀ turn ∈ turnsOf events, turn.Uniform casing session wer) →
      s.raised = none ∧ Unmoved wer loop s.loop ∧
      (turnsOf events ≠ [] → loop.candidates ≠ [] →
        s.loop.hints.active.priority = werToPriority wer)) ?_ ?_ hrun huniform
  · intro past s event s' ih hstep huniform
    rw [turnsOf_concat] at huniform ⊢
    obtain ⟨hup, hunmoved, hpriority⟩ :=
      ih fun turn hturn ↦ huniform turn (List.mem_append_left _ hturn)
    cases event with
    | stop =>
      cases hstep
      refine ⟨hup, hunmoved, ?_⟩
      rw [show turnsOf [.stop] = [] from rfl, List.append_nil]
      exact hpriority
    | turn turn =>
      obtain ⟨loop', hcycle, hunmoved', hpriority'⟩ :=
        cycle_uniform (hunmoved.thresh_eq ▸ hthresh) hunmoved.settled
          (huniform turn (List.mem_append_right _ List.mem_cons_self))
      rw [EvaluationRun.step, Option.ite_none_right_eq_some, hcycle] at hstep
      obtain ⟨-, hstep⟩ := hstep
      cases hstep
      refine ⟨hup, ⟨hunmoved'.candidates_eq.trans hunmoved.candidates_eq,
        hunmoved'.thresh_eq.trans hunmoved.thresh_eq, hunmoved'.settled⟩, fun _ hne ↦ ?_⟩
      exact hpriority' (by rw [hunmoved.candidates_eq]; exact hne)
  · exact fun _ ↦ ⟨rfl, ⟨rfl, rfl, hsettled⟩, fun hne ↦ absurd rfl hne⟩

/-! ## Outages, and the loop as it is shipped -/

theorem reportedRate_empty {heard : List Heard} (hne : heard ≠ [])
    (hempty : ∀ h ∈ heard, h.transcript = "")
    (hwords : ∀ h ∈ heard, casing.words h.sample.referenceText ≠ []) :
    reportedRate casing.words heard = 1 := by
  have herrors : totalErrors casing.words heard = countedLength casing.words heard := by
    rw [countedLength_eq_iff.mpr hwords, totalErrors, totalLength]
    refine congrArg List.sum (List.map_congr_left fun h hmem ↦ ?_)
    rw [hempty h hmem, casing.words_empty, distance_nil_right]
  have hpos : 0 < countedLength casing.words heard := countedLength_pos hne
  rw [reportedRate, herrors, div_self]
  exact_mod_cast hpos.ne'

theorem reportedRate_perfect {heard : List Heard}
    (hperfect : ∀ h ∈ heard, h.transcript = h.sample.referenceText) :
    reportedRate casing.words heard = 0 := by
  have herrors : totalErrors casing.words heard = 0 := by
    rw [totalErrors_eq_zero_iff]
    exact fun h hmem ↦ congrArg casing.words (hperfect h hmem).symm
  rw [reportedRate, herrors, Nat.cast_zero, zero_div]

-- A cycle with one rate for all transcripts of a kind.
theorem uniform_of_yields {turn : Turn} (hsamples : turn.samples ≠ []) {wer : ℚ}
    (text : EvalSample → String)
    (hyields : ∀ i, ∀ a ∈ turn.asked i, a.2.Yields session (text a.1))
    (hrate : ∀ heard : List Heard, heard ≠ [] → (∀ h ∈ heard, h.sample ∈ turn.samples ∧
      h.transcript = text h.sample) → reportedRate casing.words heard = wer) :
    turn.Uniform casing session wer := by
  refine ⟨hsamples, fun candidate i ↦ ?_⟩
  rcases evaluate_cases casing session candidate (asked_ne_nil hsamples i) with
    ⟨metrics, hok, -, heard, hall, hwer, -⟩ | ⟨-, a, ha, hno⟩
  · refine ⟨metrics, hok, hwer.trans (hrate heard ?_ fun h hmem ↦ ?_)⟩
    · rintro rfl
      have hlength := hall.length_eq
      exact asked_ne_nil hsamples i (List.length_eq_zero_iff.mp hlength)
    · obtain ⟨a, ha, hhear⟩ := exists_left hall hmem
      obtain ⟨htext, hsample, -⟩ := hear_ok_iff.mp hhear
      have hmine := hyields i a ha
      rw [Transcription.Yields] at htext hmine
      rw [htext, JsonValue.str.injEq] at hmine
      rw [hsample]
      refine ⟨?_, hmine⟩
      obtain ⟨⟨sample, j⟩, hin, rfl⟩ := List.mem_map.mp ha
      exact (List.mem_zipIdx hin).2.2 ▸ List.getElem_mem _
  · exact absurd (hyields i a ha) (hno _)

/-- Nothing comes back from the endpoint, for references that all have a word. -/
def Turn.Outage (casing : CaseMapping) (turn : Turn) : Prop :=
  turn.samples ≠ [] ∧ (∀ sample ∈ turn.samples, casing.words sample.referenceText ≠ []) ∧
    ∀ i, ∀ a ∈ turn.asked i, a.2.Yields true ""

/-- An outage is taken for an error rate of 1: no cycle of it raises, none changes which model is
in production, unless a record is above 1 by more than the threshold already, and the hints fall to
the lowest priority. -/
theorem outage_keeps_model (casing : CaseMapping) {loop : EvaluationLoop}
    (hthresh : 0 ≤ loop.werPromoteThresh) (hsettled : Settled loop 1) {events : List Event}
    {s : Runner} (hrun : runFrom (step casing true) { loop } events = some s)
    (houtage : ∀ turn ∈ turnsOf events, turn.Outage casing) :
    s.raised = none ∧ s.loop.candidates = loop.candidates ∧
      (turnsOf events ≠ [] → loop.candidates ≠ [] → s.loop.hints.active.priority = 3) := by
  have huniform : ∀ turn ∈ turnsOf events, turn.Uniform casing true 1 := by
    intro turn hturn
    obtain ⟨hsamples, hwords, hyields⟩ := houtage turn hturn
    refine uniform_of_yields hsamples (fun _ ↦ "") hyields fun heard hne hall ↦ ?_
    exact reportedRate_empty hne (fun h hmem ↦ (hall h hmem).2)
      fun h hmem ↦ hwords _ (hall h hmem).1
  obtain ⟨hup, hunmoved, hpriority⟩ := run_uniform hthresh hsettled hrun huniform
  have hlowest : werToPriority 1 = 3 := by decide +kernel
  rw [hlowest] at hpriority
  exact ⟨hup, hunmoved.candidates_eq, hpriority⟩

/-- Without a session and with the samples of the stub every candidate is perfect: the loop never
raises and never promotes anything, and keeps the hints at the highest priority. -/
theorem stub_keeps_model (casing : CaseMapping) {loop : EvaluationLoop}
    (hthresh : 0 ≤ loop.werPromoteThresh) (hempty : loop.bestMetrics = Dict.empty)
    {events : List Event} {s : Runner}
    (hrun : runFrom (step casing false) { loop } events = some s)
    (hstub : ∀ turn ∈ turnsOf events, turn.samples = fetchWerSamples 100) :
    s.raised = none ∧ s.loop.candidates = loop.candidates ∧
      (turnsOf events ≠ [] → loop.candidates ≠ [] → s.loop.hints.active.priority = 9) := by
  have huniform : ∀ turn ∈ turnsOf events, turn.Uniform casing false 0 := by
    intro turn hturn
    have hsamples := hstub turn hturn
    refine uniform_of_yields (by rw [hsamples]; decide) (fun _ ↦ "hello world")
      (fun i a _ ↦ rfl) fun heard _ hall ↦ reportedRate_perfect fun h hmem ↦ ?_
    obtain ⟨hin, htext⟩ := hall h hmem
    rw [hsamples, fetchWerSamples, List.mem_map] at hin
    obtain ⟨j, -, hj⟩ := hin
    rw [htext, ← hj]
  have hsettled : Settled loop 0 := by
    intro id m hm
    rw [hempty] at hm
    cases hm
  obtain ⟨hup, hunmoved, hpriority⟩ := run_uniform hthresh hsettled hrun huniform
  have hhighest : werToPriority 0 = 9 := by decide +kernel
  rw [hhighest] at hpriority
  exact ⟨hup, hunmoved.candidates_eq, hpriority⟩

-- A cycle of the shipped telemetry in which every request fails.
def failing : Turn where
  samples := fetchWerSamples 100
  replies _ _ := { reply := .failed, latencyMs := 10000 }

theorem twoModels_settled (wer : ℚ) : Settled EvaluationLoop.twoModels wer := by
  intro id m hm
  cases hm

theorem failing_keeps_model :
    ∃ s, runFrom (step .lowerCase true) { loop := EvaluationLoop.twoModels }
        [.turn failing, .turn failing] = some s ∧
      s.loop.candidates = EvaluationLoop.twoModels.candidates := by
  have hrun : (runFrom (step .lowerCase true) { loop := EvaluationLoop.twoModels }
      [.turn failing, .turn failing]).isSome := by decide +kernel
  obtain ⟨s, hrun⟩ := Option.isSome_iff_exists.mp hrun
  have hyields (i : Nat) : ∀ a ∈ failing.asked i, a.2.Yields true "" := by
    intro a ha
    obtain ⟨⟨sample, j⟩, -, rfl⟩ := List.mem_map.mp ha
    rfl
  have houtage : failing.Outage .lowerCase := ⟨by decide, by decide, hyields⟩
  refine ⟨s, hrun,
    (outage_keeps_model .lowerCase (by decide +kernel) (twoModels_settled 1) hrun ?_).2.1⟩
  intro turn hturn
  simp only [turnsOf, List.filterMap_cons, List.filterMap_nil, List.mem_cons, List.not_mem_nil,
    or_false, or_self] at hturn
  rw [hturn]
  exact houtage

theorem shipped_keeps_model :
    ∃ s, runFrom (step .lowerCase false) { loop := EvaluationLoop.twoModels }
        [.turn failing, .stop] = some s ∧ s.loop.hints.active.priority = 9 := by
  have hrun : (runFrom (step .lowerCase false) { loop := EvaluationLoop.twoModels }
      [.turn failing, .stop]).isSome := by decide +kernel
  obtain ⟨s, hrun⟩ := Option.isSome_iff_exists.mp hrun
  refine ⟨s, hrun, (stub_keeps_model .lowerCase (by decide +kernel) rfl hrun ?_).2.2
    (List.cons_ne_nil _ _) (List.cons_ne_nil _ _)⟩
  intro turn hturn
  rw [List.mem_singleton.mp hturn]
  rfl

end AsrServe.AgenticFactory.EvaluationRun
