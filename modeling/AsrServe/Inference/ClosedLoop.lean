import AsrServe.AgenticFactory.EvaluationRun
import AsrServe.Inference.Worker

/-!
# The evaluator in front of the inference worker

`ModelEvaluator.transcribe` (`agentic-factory/src/evaluator.py`) names the model in a header, and
`transcribe_endpoint` (`inference/src/worker.py`) does not look at it: all candidates are measured
at the one model that is served.
-/

open AsrServe.Reasoning AsrServe.AgenticFactory
open AsrServe.AgenticFactory.EvaluationRun (Turn Runner turnsOf)

namespace AsrServe.Inference

/-- The request of `ModelEvaluator.transcribe`; what the client adds by itself is left out. -/
def evaluationRequest (modelId : String) (audio : List UInt8) : Request where
  headers := [("Content-Type", "application/octet-stream"), ("X-Model-ID", modelId)]
  body := audio

/-- What the evaluator makes of a reply: any status but 200 raises. -/
def received : Reply → EvaluationRun.Reply
  | .transcript text => .body (.dict [("text", .str text)])
  | .httpException _ _ => .failed
  | .internalError => .failed

/-- The replies to the requests of a cycle each come from the worker, if any comes. -/
def AnsweredByWorker (turn : Turn) : Prop :=
  ∀ i, ∀ a ∈ turn.asked i, a.2.reply = .failed ∨ ∃ transcribe modelId,
    a.2.reply = received (transcribeEndpoint transcribe (evaluationRequest modelId a.1.audioBytes))

/-- The worker has answered all requests of a cycle, transcribing as `transcribe` says. -/
def ServedBy (transcribe : List UInt8 → Dict String Value → Option String) (modelIds : List String)
    (turn : Turn) : Prop :=
  ∀ i, ∀ a ∈ turn.asked i, a.2.reply = received
    (transcribeEndpoint transcribe (evaluationRequest (modelIds.getD i "") a.1.audioBytes))

/-! ## What the evaluator hears -/

-- The evaluator sends no hints.
theorem agentHints_evaluationRequest (modelId : String) (audio : List UInt8) :
    (evaluationRequest modelId audio).agentHints = some Dict.empty := by
  have hpriority : (evaluationRequest modelId audio).header "X-Agent-Priority" = none := by
    have hcontent : ¬ (lowered "Content-Type" == lowered "X-Agent-Priority") = true := by decide
    have hmodel : ¬ (lowered "X-Model-ID" == lowered "X-Agent-Priority") = true := by decide
    rw [Request.header, evaluationRequest, List.find?_cons_of_neg (by exact hcontent),
      List.find?_cons_of_neg (by exact hmodel)]
    rfl
  have hkvTtlMs : (evaluationRequest modelId audio).header "X-Agent-KV-TTL-Ms" = none := by
    have hcontent : ¬ (lowered "Content-Type" == lowered "X-Agent-KV-TTL-Ms") = true := by decide
    have hmodel : ¬ (lowered "X-Model-ID" == lowered "X-Agent-KV-TTL-Ms") = true := by decide
    rw [Request.header, evaluationRequest, List.find?_cons_of_neg (by exact hcontent),
      List.find?_cons_of_neg (by exact hmodel)]
    rfl
  rw [Request.agentHints, Request.readHint, hpriority]
  show (evaluationRequest modelId audio).readHint _ _ _ = _
  rw [Request.readHint, hkvTtlMs]

variable (transcribe : List UInt8 → Dict String Value → Option String)

/-- The transcript an audio is evaluated with. -/
def heardOf (audio : List UInt8) : String :=
  if audio = [] then "" else (transcribe audio Dict.empty).getD ""

theorem transcribe_received (modelId : String) (audio : List UInt8) (latencyMs : ℚ) :
    EvaluationRun.transcribe true ⟨received (transcribeEndpoint transcribe
      (evaluationRequest modelId audio)), latencyMs⟩ = .str (heardOf transcribe audio) := by
  have hbody : (evaluationRequest modelId audio).body = audio := rfl
  rw [transcribeEndpoint, agentHints_evaluationRequest, heardOf, hbody, Option.bind_some]
  split
  · rfl
  · cases transcribe audio Dict.empty <;> rfl

variable {transcribe} {modelIds : List String} {turn : Turn} {casing : CaseMapping}

theorem ServedBy.yields (h : ServedBy transcribe modelIds turn) {i : Nat}
    {a : EvalSample × EvaluationRun.Transcription} (ha : a ∈ turn.asked i) :
    a.2.Yields true (heardOf transcribe a.1.audioBytes) := by
  obtain ⟨sample, reply, latencyMs⟩ := a
  have hreply := h i _ ha
  dsimp only at hreply
  rw [EvaluationRun.Transcription.Yields, hreply]
  exact transcribe_received transcribe _ _ latencyMs

theorem AnsweredByWorker.yields (h : AnsweredByWorker turn) {i : Nat}
    {a : EvalSample × EvaluationRun.Transcription} (ha : a ∈ turn.asked i) :
    ∃ transcript, a.2.Yields true transcript := by
  obtain ⟨sample, reply, latencyMs⟩ := a
  rcases h i _ ha with hfailed | ⟨transcribe, modelId, hreply⟩
  · dsimp only at hfailed
    exact ⟨"", by rw [hfailed]; rfl⟩
  · dsimp only at hreply
    refine ⟨heardOf transcribe sample.audioBytes, ?_⟩
    rw [EvaluationRun.Transcription.Yields, hreply]
    exact transcribe_received transcribe _ _ latencyMs

/-! ## What the candidates are measured at -/

section Rates

variable {β : Type} [DecidableEq β]

/-- The rate of the transcripts a worker gives of some samples, as an exact fraction. -/
def servedRate (transcribe : List UInt8 → Dict String Value → Option String)
    (units : String → List β) (samples : List EvalSample) : ℚ :=
  reportedRate units
    (samples.map fun sample ↦ ⟨sample, heardOf transcribe sample.audioBytes, 0⟩)

-- A rate does not depend on the latencies.
theorem reportedRate_congr {units : String → List β} {heard heard' : List Heard}
    (h : heard.map (fun h ↦ (h.sample, h.transcript)) =
      heard'.map fun h ↦ (h.sample, h.transcript)) :
    reportedRate units heard = reportedRate units heard' := by
  have herrors (l : List Heard) : totalErrors units l =
      ((l.map fun h ↦ (h.sample, h.transcript)).map fun p ↦
        distance (units p.1.referenceText) (units p.2)).sum := by
    rw [List.map_map]
    rfl
  have hlength (l : List Heard) : countedLength units l =
      ((l.map fun h ↦ (h.sample, h.transcript)).map fun p ↦
        max (units p.1.referenceText).length 1).sum := by
    rw [List.map_map]
    rfl
  rw [reportedRate, reportedRate, herrors, herrors, hlength, hlength, h]

end Rates

theorem map_heard {asked : List (EvalSample × EvaluationRun.Transcription)} {heard : List Heard}
    {text : EvalSample → String}
    (hheard : List.Forall₂ (fun a h ↦ EvaluationRun.hear true a = .ok h) asked heard)
    (hyields : ∀ a ∈ asked, a.2.Yields true (text a.1)) :
    heard.map (fun h ↦ (h.sample, h.transcript)) = asked.map fun a ↦ (a.1, text a.1) := by
  induction hheard with
  | nil => rfl
  | cons hhear _ ih =>
    obtain ⟨hmine, hrest⟩ := List.forall_mem_cons.mp hyields
    obtain ⟨htext, hsample, -⟩ := EvaluationRun.hear_ok_iff.mp hhear
    rw [EvaluationRun.Transcription.Yields] at htext hmine
    rw [htext, JsonValue.str.injEq] at hmine
    rw [List.map_cons, List.map_cons, ih hrest, hsample, hmine]

theorem heard_served (h : ServedBy transcribe modelIds turn) {i : Nat} {heard : List Heard}
    (hheard : List.Forall₂ (fun a h ↦ EvaluationRun.hear true a = .ok h) (turn.asked i) heard) :
    heard.map (fun h ↦ (h.sample, h.transcript)) =
      turn.samples.map fun sample ↦ (sample, heardOf transcribe sample.audioBytes) := by
  have hasked : (turn.asked i).map Prod.fst = turn.samples := by
    rw [Turn.asked, List.map_map]
    exact List.zipIdx_map_fst 0 turn.samples
  rw [@map_heard _ _ (fun sample ↦ heardOf transcribe sample.audioBytes) hheard
    fun a ha ↦ h.yields ha]
  conv_rhs => rw [← hasked, List.map_map]
  rfl

/-- Every candidate is measured at the same rates, whatever it is called. -/
theorem ServedBy.measured_alike (h : ServedBy transcribe modelIds turn) (hsamples : turn.samples ≠ [])
    (candidate : ASRModelCandidate) (i : Nat) :
    ∃ metrics, EvaluationRun.evaluate casing true candidate (turn.asked i) = .ok metrics ∧
      metrics.wer = servedRate transcribe casing.words turn.samples ∧
      metrics.cer = servedRate transcribe casing.chars turn.samples := by
  rcases EvaluationRun.evaluate_cases casing true candidate
    (EvaluationRun.asked_ne_nil hsamples i) with
    ⟨metrics, hok, -, heard, hall, hwer, hcer⟩ | ⟨-, a, ha, hno⟩
  · have hheard := heard_served h hall
    refine ⟨metrics, hok, hwer.trans (reportedRate_congr ?_), hcer.trans (reportedRate_congr ?_)⟩
    · rw [hheard, List.map_map]
      rfl
    · rw [hheard, List.map_map]
      rfl
  · exact absurd (h.yields ha) (hno _)

/-! ## Whole runs -/

/-- The evaluation loop outlives whatever the worker does: as long as every answer comes from it,
or none comes, no cycle raises. -/
theorem closed_loop_survives (casing : CaseMapping) (loop : EvaluationLoop)
    {events : List EvaluationRun.Event} {s : Runner}
    (hrun : runFrom (EvaluationRun.step casing true) { loop } events = some s)
    (hanswered : ∀ turn ∈ turnsOf events, AnsweredByWorker turn) : s.raised = none := by
  refine run_invariant_history (I := fun events s ↦
    (∀ turn ∈ turnsOf events, AnsweredByWorker turn) → s.raised = none) ?_ ?_ hrun hanswered
  · intro past s event s' ih hstep hall
    rw [EvaluationRun.turnsOf_concat] at hall
    have hup := ih fun turn hturn ↦ hall turn (List.mem_append_left _ hturn)
    cases event with
    | stop =>
      cases hstep
      exact hup
    | turn turn =>
      have hturn := hall turn (List.mem_append_right _ List.mem_cons_self)
      rw [EvaluationRun.step, Option.ite_none_right_eq_some] at hstep
      rcases EvaluationRun.cycle_cases casing true s.loop turn with
        ⟨loop', hcycle, -⟩ | ⟨-, hnot⟩
      · rw [hcycle] at hstep
        cases hstep.2
        exact hup
      · exact absurd (fun i _ a ha ↦ hturn.yields ha) hnot
  · exact fun _ ↦ rfl

theorem failing_survives :
    ∃ s, runFrom (EvaluationRun.step .lowerCase true) { loop := EvaluationLoop.twoModels }
        [.turn EvaluationRun.failing] = some s ∧ s.raised = none := by
  have hrun : (runFrom (EvaluationRun.step .lowerCase true) { loop := EvaluationLoop.twoModels }
      [.turn EvaluationRun.failing]).isSome := by decide +kernel
  obtain ⟨s, hrun⟩ := Option.isSome_iff_exists.mp hrun
  refine ⟨s, hrun, closed_loop_survives .lowerCase EvaluationLoop.twoModels hrun ?_⟩
  intro turn hturn i a ha
  rw [List.mem_singleton.mp hturn] at ha
  obtain ⟨⟨sample, j⟩, -, rfl⟩ := List.mem_map.mp ha
  exact .inl rfl

/-- Over the same samples again and again the candidates cannot be told apart: the loop never raises
and never changes which model is in production, and the priority of the hints is that of the served
model's error rate. -/
theorem closed_loop_keeps_model (casing : CaseMapping)
    (transcribe : List UInt8 → Dict String Value → Option String) {loop : EvaluationLoop}
    (hthresh : 0 ≤ loop.werPromoteThresh) (hempty : loop.bestMetrics = Dict.empty)
    {samples : List EvalSample} (hsamples : samples ≠ []) {events : List EvaluationRun.Event}
    {s : Runner} (hrun : runFrom (EvaluationRun.step casing true) { loop } events = some s)
    (hserved : ∀ turn ∈ turnsOf events,
      turn.samples = samples ∧ ServedBy transcribe loop.modelIds turn) :
    s.raised = none ∧ s.loop.candidates = loop.candidates ∧
      (turnsOf events ≠ [] → loop.candidates ≠ [] → s.loop.hints.active.priority =
        werToPriority (servedRate transcribe casing.words samples)) := by
  have huniform : ∀ turn ∈ turnsOf events,
      turn.Uniform casing true (servedRate transcribe casing.words samples) := by
    intro turn hturn
    obtain ⟨hsame, hturn⟩ := hserved turn hturn
    refine ⟨hsame ▸ hsamples, fun candidate i ↦ ?_⟩
    obtain ⟨metrics, hok, hwer, -⟩ := hturn.measured_alike (hsame ▸ hsamples) candidate i
    exact ⟨metrics, hok, hsame ▸ hwer⟩
  have hsettled : EvaluationRun.Settled loop (servedRate transcribe casing.words samples) := by
    intro id m hm
    rw [hempty] at hm
    cases hm
  obtain ⟨hup, hunmoved, hpriority⟩ := EvaluationRun.run_uniform hthresh hsettled hrun huniform
  exact ⟨hup, hunmoved.candidates_eq, hpriority⟩

-- A worker that always says the same, and a cycle over one sample; the two models differ in how
-- long it took.
def greets (_audio : List UInt8) (_hints : Dict String Value) : Option String := some "hello world"

def greeted (referenceText : String) (latencyMs latencyMs' : ℚ) : Turn where
  samples := [{ sampleId := "sample-0", audioBytes := [0, 0], referenceText, durationS := 1 }]
  replies i _ := { reply := .body (.dict [("text", .str "hello world")])
                   latencyMs := if i = 0 then latencyMs else latencyMs' }

theorem greeted_served (referenceText : String) (latencyMs latencyMs' : ℚ)
    (modelIds : List String) :
    ServedBy greets modelIds (greeted referenceText latencyMs latencyMs') := by
  intro i a ha
  obtain ⟨⟨sample, j⟩, hin, rfl⟩ := List.mem_map.mp ha
  have hsample : sample = ⟨"sample-0", [0, 0], referenceText, 1⟩ :=
    List.mem_singleton.mp (List.fst_mem_of_mem_zipIdx hin)
  rw [hsample]
  show EvaluationRun.Reply.body (.dict [("text", .str "hello world")]) = received
    (transcribeEndpoint greets (evaluationRequest (modelIds.getD i "") [0, 0]))
  rw [transcribeEndpoint, agentHints_evaluationRequest]
  rfl

theorem greeted_keeps_model :
    ∃ s, runFrom (EvaluationRun.step .lowerCase true) { loop := EvaluationLoop.twoModels }
        [.turn (greeted "hello" 5 6), .turn (greeted "hello" 6 5)] = some s ∧
      s.loop.candidates = EvaluationLoop.twoModels.candidates := by
  have hrun : (runFrom (EvaluationRun.step .lowerCase true) { loop := EvaluationLoop.twoModels }
      [.turn (greeted "hello" 5 6), .turn (greeted "hello" 6 5)]).isSome := by decide +kernel
  obtain ⟨s, hrun⟩ := Option.isSome_iff_exists.mp hrun
  refine ⟨s, hrun, (closed_loop_keeps_model .lowerCase greets (by decide +kernel) rfl
    (List.cons_ne_nil ⟨"sample-0", [0, 0], "hello", 1⟩ []) hrun ?_).2.1⟩
  intro turn hturn
  rcases List.mem_cons.mp hturn with rfl | hturn
  · exact ⟨rfl, greeted_served _ _ _ _⟩
  · rw [List.mem_singleton.mp hturn]
    exact ⟨rfl, greeted_served _ _ _ _⟩

-- What a cycle in front of the worker makes of the loop.
theorem cycle_served {loop loop' : EvaluationLoop} (h : ServedBy transcribe modelIds turn)
    (hcycle : EvaluationRun.cycle casing true loop turn = .ok loop') :
    loop' = loop ∨ turn.samples ≠ [] ∧ ∃ best : ModelMetrics,
      best.wer = servedRate transcribe casing.words turn.samples ∧
        loop' = (loop.recordBest best).triggerPromotion best := by
  rw [EvaluationRun.cycle] at hcycle
  by_cases hsamples : turn.samples = []
  · rw [hsamples] at hcycle
    cases hcycle
    exact .inl rfl
  · rw [if_neg (by rwa [List.isEmpty_iff])] at hcycle
    rcases EvaluationRun.measure_cases casing true loop hsamples with
      ⟨results, hresults, -, hmeasured⟩ | ⟨herror, -⟩
    · rw [hresults] at hcycle
      cases hcycle
      rcases EvaluationRun.conclude_cases loop results with ⟨-, heq⟩ | ⟨best, hbest, -, heq⟩
      · exact .inl heq
      · obtain ⟨p, -, hp⟩ := EvaluationRun.exists_left hmeasured hbest
        obtain ⟨heard, hall, hwer, -⟩ := hp.rates
        refine .inr ⟨hsamples, best, hwer.trans (reportedRate_congr ?_), heq⟩
        rw [heard_served h hall, List.map_map]
        rfl
    · rw [herror] at hcycle
      cases hcycle

theorem bestMetrics_triggerPromotion (loop : EvaluationLoop) (best : ModelMetrics) :
    (loop.triggerPromotion best).bestMetrics = loop.bestMetrics ∧
      (loop.triggerPromotion best).werPromoteThresh = loop.werPromoteThresh := by
  rw [EvaluationLoop.triggerPromotion]
  cases loop.active with
  | none => exact ⟨rfl, rfl⟩
  | some active =>
    dsimp only
    split <;> exact ⟨rfl, rfl⟩

/-- Every record is the rate of the served model over the samples of an earlier cycle. -/
structure Recorded (casing : CaseMapping)
    (transcribe : List UInt8 → Dict String Value → Option String) (loop : EvaluationLoop)
    (events : List EvaluationRun.Event) (s : Runner) : Prop where
  thresh_eq : s.loop.werPromoteThresh = loop.werPromoteThresh
  record : ∀ id m, s.loop.bestMetrics.get? id = some m → ∃ turn ∈ turnsOf events,
    turn.samples ≠ [] ∧ m.wer = servedRate transcribe casing.words turn.samples

theorem Recorded.step {loop : EvaluationLoop} {past : List EvaluationRun.Event} {s : Runner}
    (h : Recorded casing transcribe loop past s) (hserved : ServedBy transcribe modelIds turn)
    {loop' : EvaluationLoop} (hcycle : EvaluationRun.cycle casing true s.loop turn = .ok loop') :
    Recorded casing transcribe loop (past ++ [.turn turn]) { s with loop := loop' } := by
  have hold (id : String) (m : ModelMetrics) (hm : s.loop.bestMetrics.get? id = some m) :
      ∃ t ∈ turnsOf (past ++ [.turn turn]), t.samples ≠ [] ∧
        m.wer = servedRate transcribe casing.words t.samples := by
    obtain ⟨t, ht, hrest⟩ := h.record id m hm
    rw [EvaluationRun.turnsOf_concat]
    exact ⟨t, List.mem_append_left _ ht, hrest⟩
  rcases cycle_served hserved hcycle with rfl | ⟨hsamples, best, hwer, rfl⟩
  · exact ⟨h.thresh_eq, hold⟩
  · obtain ⟨hmetrics, hthresh⟩ := bestMetrics_triggerPromotion (s.loop.recordBest best) best
    refine ⟨hthresh.trans h.thresh_eq, fun id m hm ↦ ?_⟩
    dsimp only at hm
    rw [hmetrics] at hm
    rcases Dict.get?_set_cases hm with ⟨-, rfl⟩ | ⟨-, hm⟩
    · rw [EvaluationRun.turnsOf_concat]
      exact ⟨turn, List.mem_append_right _ List.mem_cons_self, hsamples, hwer⟩
    · exact hold id m hm

theorem recorded_run {loop : EvaluationLoop} (hempty : loop.bestMetrics = Dict.empty)
    {events : List EvaluationRun.Event} {s : Runner}
    (hrun : runFrom (EvaluationRun.step casing true) { loop } events = some s)
    (hserved : ∀ turn ∈ turnsOf events, ServedBy transcribe modelIds turn) :
    Recorded casing transcribe loop events s := by
  refine run_invariant_history (I := fun events s ↦
    (∀ turn ∈ turnsOf events, ServedBy transcribe modelIds turn) →
      Recorded casing transcribe loop events s) ?_ ?_ hrun hserved
  · intro past s event s' ih hstep hall
    rw [EvaluationRun.turnsOf_concat] at hall
    have h := ih fun turn hturn ↦ hall turn (List.mem_append_left _ hturn)
    cases event with
    | stop =>
      cases hstep
      refine ⟨h.thresh_eq, fun id m hm ↦ ?_⟩
      obtain ⟨turn, hturn, hrest⟩ := h.record id m hm
      rw [EvaluationRun.turnsOf_concat]
      exact ⟨turn, List.mem_append_left _ hturn, hrest⟩
    | turn turn =>
      have hturn := hall turn (List.mem_append_right _ List.mem_cons_self)
      rw [EvaluationRun.step, Option.ite_none_right_eq_some] at hstep
      cases hcycle : EvaluationRun.cycle casing true s.loop turn with
      | ok loop' =>
        rw [hcycle] at hstep
        cases hstep.2
        exact h.step hturn hcycle
      | error e =>
        rw [hcycle] at hstep
        cases hstep.2
        refine ⟨h.thresh_eq, fun id m hm ↦ ?_⟩
        obtain ⟨turn, hturn, hrest⟩ := h.record id m hm
        rw [EvaluationRun.turnsOf_concat]
        exact ⟨turn, List.mem_append_left _ hturn, hrest⟩
  · intro _
    refine ⟨rfl, fun id m hm ↦ ?_⟩
    rw [hempty] at hm
    cases hm

/-- In front of one worker a promotion says nothing about the models: a cycle changes which one is
in production only when its samples are easier for the served model, by more than the threshold,
than those of an earlier cycle; in the cycle itself all candidates are measured at one rate.  The
rates and their difference are exact here; the code rounds both, so that a difference of just the
threshold may promote there. -/
theorem promoted_by_easier_samples (casing : CaseMapping)
    (transcribe : List UInt8 → Dict String Value → Option String) {loop : EvaluationLoop}
    (hempty : loop.bestMetrics = Dict.empty) {events : List EvaluationRun.Event} {s s' : Runner}
    (hrun : runFrom (EvaluationRun.step casing true) { loop } events = some s) {turn : Turn}
    (hstep : EvaluationRun.step casing true s (.turn turn) = some s')
    (hserved : ∀ t ∈ turnsOf events ++ [turn], ServedBy transcribe loop.modelIds t)
    (hpromoted : s'.loop.candidates ≠ s.loop.candidates) :
    (∀ candidate i, ∃ metrics,
      EvaluationRun.evaluate casing true candidate (turn.asked i) = .ok metrics ∧
        metrics.wer = servedRate transcribe casing.words turn.samples ∧
        metrics.cer = servedRate transcribe casing.chars turn.samples) ∧
      ∃ earlier ∈ turnsOf events, earlier.samples ≠ [] ∧
        servedRate transcribe casing.words turn.samples + loop.werPromoteThresh <
          servedRate transcribe casing.words earlier.samples := by
  have hrecorded := recorded_run hempty hrun fun t ht ↦ hserved t (List.mem_append_left _ ht)
  have hturn := hserved turn (List.mem_append_right _ List.mem_cons_self)
  rw [EvaluationRun.step, Option.ite_none_right_eq_some] at hstep
  obtain ⟨-, hstep⟩ := hstep
  cases hcycle : EvaluationRun.cycle casing true s.loop turn with
  | error e =>
    rw [hcycle] at hstep
    cases hstep
    exact absurd rfl hpromoted
  | ok loop' =>
    rw [hcycle] at hstep
    cases hstep
    rcases cycle_served hturn hcycle with rfl | ⟨hsamples, best, hwer, rfl⟩
    · exact absurd rfl hpromoted
    · refine ⟨fun candidate i ↦ hturn.measured_alike hsamples candidate i, ?_⟩
      rcases EvaluationRun.candidates_triggerPromotion (s.loop.recordBest best) best with
        hsame | ⟨⟨active, -, hother, hexceeds⟩, -⟩
      · exact absurd hsame hpromoted
      · rw [EvaluationLoop.recordExceeds] at hexceeds
        split at hexceeds
        · cases hexceeds
        · rename_i m hm
          -- the record is not the one of this cycle, which is another model's
          rcases Dict.get?_set_cases hm with ⟨hid, -⟩ | ⟨-, hm⟩
          · exact absurd hid hother
          · obtain ⟨earlier, hearlier, hne, hrate⟩ := hrecorded.record _ m hm
            have hgt := of_decide_eq_true hexceeds
            rw [hrate, hwer] at hgt
            refine ⟨earlier, hearlier, hne, ?_⟩
            rw [← hrecorded.thresh_eq]
            exact lt_sub_iff_add_lt'.mp hgt

/-- A sample the model gets wrong, and then one it gets right: the other model is promoted. -/
theorem greeted_promotes :
    ∃ s s', runFrom (EvaluationRun.step .lowerCase true) { loop := EvaluationLoop.twoModels }
        [.turn (greeted "goodbye" 5 6)] = some s ∧
      EvaluationRun.step .lowerCase true s (.turn (greeted "hello world" 6 5)) = some s' ∧
      s'.loop.candidates ≠ s.loop.candidates ∧
      servedRate greets CaseMapping.lowerCase.words (greeted "hello world" 6 5).samples +
          EvaluationLoop.twoModels.werPromoteThresh <
        servedRate greets CaseMapping.lowerCase.words (greeted "goodbye" 5 6).samples := by
  have hpromotes : ((runFrom (EvaluationRun.step .lowerCase true)
      { loop := EvaluationLoop.twoModels } [.turn (greeted "goodbye" 5 6)]).bind fun s ↦
        (EvaluationRun.step .lowerCase true s (.turn (greeted "hello world" 6 5))).map fun s' ↦
          decide (s'.loop.candidates ≠ s.loop.candidates)) = some true := by decide +kernel
  obtain ⟨s, hrun, hpromotes⟩ := Option.bind_eq_some_iff.mp hpromotes
  obtain ⟨s', hstep, hpromotes⟩ := Option.map_eq_some_iff.mp hpromotes
  have hpromoted := of_decide_eq_true hpromotes
  refine ⟨s, s', hrun, hstep, hpromoted, ?_⟩
  have hserved : ∀ t ∈ turnsOf [.turn (greeted "goodbye" 5 6)] ++ [greeted "hello world" 6 5],
      ServedBy greets EvaluationLoop.twoModels.modelIds t := by
    intro t ht
    rcases List.mem_cons.mp ht with rfl | ht
    · exact greeted_served _ _ _ _
    · rw [List.mem_singleton.mp ht]
      exact greeted_served _ _ _ _
  obtain ⟨-, earlier, hearlier, -, hlt⟩ :=
    promoted_by_easier_samples .lowerCase greets rfl hrun hstep hserved hpromoted
  rwa [List.mem_singleton.mp hearlier] at hlt

end AsrServe.Inference
