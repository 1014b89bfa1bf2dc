import AsrServe.Inference.Worker
import AsrServe.Reasoning.Rounding
import AsrServe.Reasoning.Runs
import Mathlib.Algebra.Order.BigOperators.Group.List
import Mathlib.Algebra.Order.Field.Rat

/-!
# The inference server (`inference/src/worker.py`)

Requests to the transcription endpoint side by side, each cut where it waits for its body and where
`InferenceWorker.transcribe` waits for the engine, or sleeps without one.  The clock is read in
seconds; every operation on the readings is rounded as the code's is.
-/

open AsrServe.Reasoning AsrServe.AgenticFactory

namespace AsrServe.Inference.Serving

structure InferenceWorker where
  -- vLLM is there and the engine has been started.
  engine : Bool
  requestCount : Nat := 0
  totalLatencyMs : ℚ := 0

def InferenceWorker.avgLatencyMs (w : InferenceWorker) : ℚ :=
  if w.requestCount = 0 then 0 else toDouble (w.totalLatencyMs / toDouble w.requestCount)

/-! ## `transcribe` -/

-- `str()` of hints as the endpoint makes them: plain keys, integer values.
def hintsText (hints : Dict String Value) : String :=
  "\x7b" ++ ", ".intercalate (hints.entries.map fun h ↦ "'" ++ h.1 ++ "': " ++ h.2.text) ++ "\x7d"

def stubTranscript (audio : List UInt8) (hints : Dict String Value) : String :=
  "[stub transcript len=" ++ toString audio.length ++ "B hints=" ++ hintsText hints ++ "]"

/-- The last output of `generate`, if there was any, by the texts of its completions; `none` is the
`IndexError` of an output without one. -/
def engineTranscript : Option (List String) → Option String
  | none => some ""
  | some [] => none
  | some (text :: _) => some text

/-- The rest of `transcribe` once it has slept or `generate` has ended. -/
def transcribed (engine : Bool) (output : Option (List String)) (audio : List UInt8)
    (hints : Dict String Value) : Option String :=
  if engine then engineTranscript output else some (stubTranscript audio hints)

-- A transcript is counted together with the time it took.
def InferenceWorker.count (w : InferenceWorker) (elapsedMs : ℚ) : InferenceWorker :=
  { w with
    requestCount := w.requestCount + 1
    totalLatencyMs := toDouble (w.totalLatencyMs + elapsedMs) }

/-! ## Requests side by side -/

/-- Where the handler of a request is. -/
inductive CallPhase where
  -- Waits for the body.
  | reading
  -- In `transcribe`, entered when the clock read `t0`.
  | transcribing (hints : Dict String Value) (t0 : ℚ)
  | answered (reply : Reply)
  -- What it waited for has raised.
  | raised

def CallPhase.waiting : CallPhase → Bool
  | .reading | .transcribing _ _ => true
  | .answered _ | .raised => false

structure Call where
  request : Request
  phase : CallPhase

structure Server where
  -- What `time.monotonic()` reads.
  now : ℚ := 0
  worker : InferenceWorker
  calls : Dict Nat Call := Dict.empty
  -- How many milliseconds each transcript returned so far has taken, exactly.
  latencies : List ℚ := []

inductive Event where
  | request (call : Nat) (request : Request)
  | body (call : Nat)
  -- The sleep is over, or `generate` has ended with `output` last.
  | resume (call : Nat) (output : Option (List String))
  -- What the call waits for raises.
  | raise (call : Nat)
  | tick (duration : ℚ)

def Server.set (s : Server) (call : Nat) (request : Request) (phase : CallPhase) : Server :=
  { s with calls := s.calls.set call { request, phase } }

/-- `transcribe_endpoint` from the body on to its next suspension. -/
def onBody (s : Server) (call : Nat) (request : Request) : Server :=
  if request.body = [] then
    s.set call request (.answered (.httpException 400 "Empty request body"))
  else
    match request.agentHints with
    | none => s.set call request (.answered .internalError)
    | some hints => s.set call request (.transcribing hints s.now)

/-- `transcribe_endpoint` from there to its end. -/
def onTranscribed (s : Server) (call : Nat) (request : Request) (t0 : ℚ) :
    Option String → Server
  | none => s.set call request (.answered .internalError)
  | some text =>
    let elapsedMs := toDouble (toDouble (s.now - t0) * 1000)
    { s.set call request (.answered (.transcript text)) with
      worker := s.worker.count elapsedMs
      latencies := s.latencies ++ [(s.now - t0) * 1000] }

-- The sleep without an engine is of five milliseconds.
def stubSleep : ℚ := 5 / 1000

-- How much sooner than that the event loop may end it: the resolution of its clock.
variable (early : ℚ)

def step (s : Server) : Event → Option Server
  | .request call request =>
    if call ∈ s.calls then none else some (s.set call request .reading)
  | .body call =>
    match s.calls.get? call with
    | some ⟨request, .reading⟩ => some (onBody s call request)
    | _ => none
  | .resume call output =>
    match s.calls.get? call with
    | some ⟨request, .transcribing hints t0⟩ =>
      if s.worker.engine ∨ t0 + stubSleep ≤ s.now + early then
        some (onTranscribed s call request t0
          (transcribed s.worker.engine output request.body hints))
      else none
    | _ => none
  | .raise call =>
    match s.calls.get? call with
    | some ⟨request, phase⟩ => if phase.waiting then some (s.set call request .raised) else none
    | none => none
  | .tick duration => if 0 ≤ duration then some { s with now := s.now + duration } else none

/-! ## The two reports -/

-- `round(x, 2)`
def round2 (x : ℚ) : ℚ := toDouble (nearestInt (x * 100) / 100)

structure Health where
  status : String := "ok"
  requests : Nat
  avgLatencyMs : ℚ

structure MetricsReport where
  requestsTotal : Nat
  avgLatencyMs : ℚ

def Server.health (s : Server) : Health where
  requests := s.worker.requestCount
  avgLatencyMs := round2 s.worker.avgLatencyMs

def Server.metrics (s : Server) : MetricsReport where
  requestsTotal := s.worker.requestCount
  avgLatencyMs := round2 s.worker.avgLatencyMs

/-! ## What an event does -/

/-- The steps of `step`, each with the guard it has passed. -/
inductive Moves (s : Server) : Event → Server → Prop where
  | arrives {call : Nat} (request : Request) (hnew : call ∉ s.calls) :
      Moves s (.request call request) (s.set call request .reading)
  | reads {call : Nat} {request : Request}
      (hget : s.calls.get? call = some ⟨request, .reading⟩) :
      Moves s (.body call) (onBody s call request)
  | resumes {call : Nat} {request : Request} {hints : Dict String Value} {t0 : ℚ}
      (output : Option (List String))
      (hget : s.calls.get? call = some ⟨request, .transcribing hints t0⟩)
      (hslept : s.worker.engine = true ∨ t0 + stubSleep ≤ s.now + early) :
      Moves s (.resume call output) (onTranscribed s call request t0
        (transcribed s.worker.engine output request.body hints))
  | raises {call : Nat} {request : Request} {phase : CallPhase}
      (hget : s.calls.get? call = some ⟨request, phase⟩) (hwaiting : phase.waiting = true) :
      Moves s (.raise call) (s.set call request .raised)
  | ticks {duration : ℚ} (hduration : 0 ≤ duration) :
      Moves s (.tick duration) { s with now := s.now + duration }

variable {early}

theorem step_moves {s s' : Server} {event : Event} (hstep : step early s event = some s') :
    Moves early s event s' := by
  cases event with
  | request call request =>
    rw [step, Option.ite_none_left_eq_some, Option.some.injEq] at hstep
    obtain ⟨hnew, rfl⟩ := hstep
    exact .arrives request hnew
  | body call =>
    simp only [step] at hstep
    split at hstep
    · rename_i hget
      cases hstep
      exact .reads hget
    · cases hstep
  | resume call output =>
    simp only [step] at hstep
    split at hstep
    · rename_i hget
      rw [Option.ite_none_right_eq_some, Option.some.injEq] at hstep
      obtain ⟨hslept, rfl⟩ := hstep
      exact .resumes output hget hslept
    · cases hstep
  | raise call =>
    simp only [step] at hstep
    split at hstep
    · rename_i hget
      rw [Option.ite_none_right_eq_some, Option.some.injEq] at hstep
      obtain ⟨hwaiting, rfl⟩ := hstep
      exact .raises hget hwaiting
    · cases hstep
  | tick duration =>
    rw [step, Option.ite_none_right_eq_some, Option.some.injEq] at hstep
    obtain ⟨hduration, rfl⟩ := hstep
    exact .ticks hduration

/-! ## What every step keeps -/

def CallPhase.isTranscript : CallPhase → Bool
  | .answered (.transcript _) => true
  | _ => false

/-- What is known of a call by where it is. -/
def Call.Sound (engine : Bool) (now : ℚ) (c : Call) : Prop :=
  match c.phase with
  | .transcribing hints t0 =>
    c.request.body ≠ [] ∧ c.request.agentHints = some hints ∧ t0 ≤ now
  | .answered reply => ∃ output, reply = transcribeEndpoint (transcribed engine output) c.request
  | _ => True

structure Inv (early : ℚ) (engine : Bool) (s : Server) : Prop where
  engine_eq : s.worker.engine = engine
  sound : ∀ call c, s.calls.get? call = some c → c.Sound engine s.now
  answered_eq : s.calls.values.countP (·.phase.isTranscript) = s.latencies.length
  count_eq : s.worker.requestCount = s.latencies.length
  -- each latency is rounded twice, and the total once for each of them
  total_within : Within (s.latencies.length + 2) s.latencies.sum s.worker.totalLatencyMs
  nonneg : ∀ l ∈ s.latencies, 0 ≤ l
  slept : engine = false → ∀ l ∈ s.latencies, (stubSleep - early) * 1000 ≤ l

-- The server with no request yet.
def Server.start (engine : Bool) : Server where
  worker := { engine }

theorem inv_start (engine : Bool) : Inv early engine (.start engine) where
  engine_eq := rfl
  sound := fun _ _ hget ↦ by cases hget
  answered_eq := rfl
  count_eq := rfl
  total_within := .zero
  nonneg := fun _ hmem ↦ absurd hmem List.not_mem_nil
  slept := fun _ _ hmem ↦ absurd hmem List.not_mem_nil

variable {engine : Bool} {s s' : Server}

theorem Call.Sound.mono {now now' : ℚ} (hle : now ≤ now') {c : Call} (h : c.Sound engine now) :
    c.Sound engine now' := by
  unfold Call.Sound at h ⊢
  cases hphase : c.phase with
  | transcribing hints t0 =>
    rw [hphase] at h
    exact ⟨h.1, h.2.1, h.2.2.trans hle⟩
  | answered reply =>
    rw [hphase] at h
    exact h
  | reading => trivial
  | raised => trivial

theorem Inv.sound_set (h : Inv early engine s) {call : Nat} {request : Request} {phase : CallPhase}
    (hsound : Call.Sound engine s.now ⟨request, phase⟩) (j : Nat) (c : Call)
    (hget : (s.set call request phase).calls.get? j = some c) : c.Sound engine s.now := by
  rcases Dict.get?_set_cases hget with ⟨-, rfl⟩ | ⟨-, hget⟩
  · exact hsound
  · exact h.sound j c hget

-- How many transcripts a call that is or is not there has returned.
def Server.transcriptsOf (s : Server) (call : Nat) : Nat :=
  (s.calls.get? call).elim 0 (Dict.tally (·.phase.isTranscript))

theorem Inv.countP_set (h : Inv early engine s) {call : Nat} (hnone : s.transcriptsOf call = 0)
    (request : Request) (phase : CallPhase) :
    (s.set call request phase).calls.values.countP (·.phase.isTranscript) =
      s.latencies.length + if phase.isTranscript then 1 else 0 := by
  have hcount := Dict.countP_values_set_elim (·.phase.isTranscript) s.calls call
    (⟨request, phase⟩ : Call)
  rw [Server.transcriptsOf] at hnone
  rw [hnone, h.answered_eq] at hcount
  exact hcount

/-- A call that moves on without a transcript. -/
theorem Inv.moves (h : Inv early engine s) {call : Nat} (hnone : s.transcriptsOf call = 0)
    {request : Request} {phase : CallPhase} (hsound : Call.Sound engine s.now ⟨request, phase⟩)
    (hphase : phase.isTranscript = false) : Inv early engine (s.set call request phase) where
  engine_eq := h.engine_eq
  sound := h.sound_set hsound
  answered_eq := by
    rw [h.countP_set hnone, hphase]
    rfl
  count_eq := h.count_eq
  total_within := h.total_within
  nonneg := h.nonneg
  slept := h.slept

theorem Inv.onBody (h : Inv early engine s) {call : Nat} (hnone : s.transcriptsOf call = 0)
    (request : Request) : Inv early engine (onBody s call request) := by
  rw [Serving.onBody]
  split
  · rename_i hbody
    refine h.moves hnone ⟨none, ?_⟩ rfl
    rw [transcribeEndpoint, if_pos hbody]
  · rename_i hbody
    split
    · rename_i hhints
      refine h.moves hnone ⟨none, ?_⟩ rfl
      rw [transcribeEndpoint, if_neg hbody, hhints, Option.bind_none]
    · rename_i hints hhints
      exact h.moves hnone ⟨hbody, hhints, le_refl _⟩ rfl

-- A latency measured with two roundings and added with a third.
theorem total_within_count {n : Nat} {sum seconds : ℚ} {w : InferenceWorker}
    (h : Within (n + 2) sum w.totalLatencyMs) (hsum : 0 ≤ sum) (hseconds : 0 ≤ seconds) :
    Within (n + 1 + 2) (sum + seconds * 1000)
      (w.count (toDouble (toDouble seconds * 1000))).totalLatencyMs := by
  have hthousand : (0 : ℚ) ≤ 1000 := by norm_num
  have hexact : 0 ≤ seconds * 1000 := mul_nonneg hseconds hthousand
  have hmeasured := (Within.toDouble hseconds).mul_right hthousand
  have helapsed := hmeasured.trans (.toDouble (hmeasured.nonneg hexact))
  have hadded := h.add (helapsed.mono hexact (Nat.le_add_left 2 n))
  exact (hadded.trans (.toDouble (hadded.nonneg (add_nonneg hsum hexact)))).mono
    (add_nonneg hsum hexact) (by omega)

theorem Inv.onTranscribed (h : Inv early engine s) {call : Nat} (hnone : s.transcriptsOf call = 0)
    {request : Request} {hints : Dict String Value} {t0 : ℚ}
    (hsound : Call.Sound engine s.now ⟨request, .transcribing hints t0⟩)
    (hslept : s.worker.engine = true ∨ t0 + stubSleep ≤ s.now + early)
    (output : Option (List String)) :
    Inv early engine (onTranscribed s call request t0
      (transcribed s.worker.engine output request.body hints)) := by
  obtain ⟨hbody, hhints, ht0⟩ := hsound
  have hendpoint : transcribeEndpoint (transcribed engine output) request =
      (transcribed engine output request.body hints).elim .internalError .transcript := by
    rw [transcribeEndpoint, if_neg hbody, hhints, Option.bind_some]
    cases transcribed engine output request.body hints <;> rfl
  rw [h.engine_eq]
  cases htext : transcribed engine output request.body hints with
  | none =>
    rw [htext] at hendpoint
    exact h.moves hnone ⟨output, hendpoint.symm⟩ rfl
  | some text =>
    rw [htext] at hendpoint
    rw [Serving.onTranscribed]
    constructor
    case engine_eq => exact h.engine_eq
    case sound => exact h.sound_set ⟨output, hendpoint.symm⟩
    case answered_eq =>
      rw [List.length_append]
      exact h.countP_set hnone request _
    case count_eq =>
      rw [List.length_append]
      exact congrArg (· + 1) h.count_eq
    case total_within =>
      rw [List.sum_append, List.sum_singleton, List.length_append]
      exact total_within_count h.total_within (List.sum_nonneg h.nonneg) (sub_nonneg.mpr ht0)
    case nonneg =>
      intro l hl
      rcases List.mem_append.mp hl with hl | hl
      · exact h.nonneg l hl
      · rw [List.mem_singleton.mp hl]
        exact mul_nonneg (sub_nonneg.mpr ht0) (by norm_num)
    case slept =>
      rintro rfl l hl
      rcases List.mem_append.mp hl with hl | hl
      · exact h.slept rfl l hl
      · rw [List.mem_singleton.mp hl]
        rcases hslept with hengine | hslept
        · rw [h.engine_eq] at hengine
          cases hengine
        · exact mul_le_mul_of_nonneg_right (by linarith) (by norm_num)

theorem transcriptsOf_eq {call : Nat} {request : Request} {phase : CallPhase}
    (hget : s.calls.get? call = some ⟨request, phase⟩) (hphase : phase.isTranscript = false) :
    s.transcriptsOf call = 0 := by
  rw [Server.transcriptsOf, hget]
  exact if_neg (Bool.eq_false_iff.mp hphase)

theorem Inv.step (h : Inv early engine s) {event : Event} (hmoves : Moves early s event s') :
    Inv early engine s' := by
  cases hmoves with
  | arrives request hnew =>
    refine h.moves ?_ trivial rfl
    rw [Server.transcriptsOf, Dict.not_mem_iff.mp hnew]
    rfl
  | reads hget => exact h.onBody (transcriptsOf_eq hget rfl) _
  | resumes output hget hslept =>
    exact h.onTranscribed (transcriptsOf_eq hget rfl) (h.sound _ _ hget) hslept output
  | @raises call request phase hget hwaiting =>
    have hphase : phase.isTranscript = false := by
      cases phase with
      | reading => rfl
      | transcribing hints t0 => rfl
      | answered reply => cases hwaiting
      | raised => cases hwaiting
    exact h.moves (transcriptsOf_eq hget hphase) trivial rfl
  | ticks hduration =>
    exact
      { h with
        sound := fun call c hget ↦
          (h.sound call c hget).mono (le_add_of_nonneg_right hduration) }

theorem inv_run {events : List Event} (hrun : runFrom (step early) (.start engine) events = some s) :
    Inv early engine s :=
  run_invariant (fun _ _ _ h hstep ↦ h.step (step_moves hstep)) (inv_start engine) hrun

/-! ## Answers -/

theorem onBody_calls (s : Server) (call : Nat) (request : Request) :
    ∃ phase, (onBody s call request).calls = s.calls.set call ⟨request, phase⟩ := by
  rw [onBody]
  split
  · exact ⟨_, rfl⟩
  · split
    · exact ⟨_, rfl⟩
    · exact ⟨_, rfl⟩

theorem onTranscribed_calls (s : Server) (call : Nat) (request : Request) (t0 : ℚ)
    (text : Option String) :
    ∃ phase, (onTranscribed s call request t0 text).calls =
      s.calls.set call ⟨request, phase⟩ := by
  cases text with
  | none => exact ⟨_, rfl⟩
  | some text => exact ⟨_, rfl⟩

-- The requests of the calls there are came in under their names.
def Arrived (past : List Event) (s : Server) : Prop :=
  ∀ call c, s.calls.get? call = some c → .request call c.request ∈ past

theorem Arrived.set {past : List Event} (h : Arrived past s) {call : Nat} {request : Request}
    {phase : CallPhase} (event : Event) (hcalls : s'.calls = s.calls.set call ⟨request, phase⟩)
    (hin : .request call request ∈ past ++ [event]) : Arrived (past ++ [event]) s' := by
  intro j c hget
  rw [hcalls] at hget
  rcases Dict.get?_set_cases hget with ⟨rfl, rfl⟩ | ⟨-, hget⟩
  · exact hin
  · exact List.mem_append_left _ (h j c hget)

theorem Arrived.step {past : List Event} (h : Arrived past s) {event : Event}
    (hmoves : Moves early s event s') : Arrived (past ++ [event]) s' := by
  have hold {call : Nat} {request : Request} {phase : CallPhase}
      (hget : s.calls.get? call = some ⟨request, phase⟩) :
      Event.request call request ∈ past ++ [event] :=
    List.mem_append_left _ (h call _ hget)
  cases hmoves with
  | arrives request hnew =>
    exact h.set _ rfl (List.mem_append_right _ List.mem_cons_self)
  | reads hget =>
    obtain ⟨phase, hcalls⟩ := onBody_calls s _ _
    exact h.set _ hcalls (hold hget)
  | resumes output hget hslept =>
    obtain ⟨phase, hcalls⟩ := onTranscribed_calls s _ _ _ _
    exact h.set _ hcalls (hold hget)
  | raises hget hwaiting => exact h.set _ rfl (hold hget)
  | ticks hduration => exact fun call c hget ↦ List.mem_append_left _ (h call c hget)

theorem arrived_run {events : List Event} (hrun : runFrom (step early) (.start engine) events = some s) :
    Arrived events s :=
  run_invariant_history (fun _ _ _ _ h hstep ↦ h.step (step_moves hstep))
    (fun _ _ hget ↦ by cases hget) hrun

/-- However requests overlap, an answer is the endpoint's own reply to the request of that call:
without an engine the reply to it alone, with one the reply for some output of `generate`. -/
theorem answers_own_request (early : ℚ) (engine : Bool) (events : List Event) (s : Server)
    (hrun : runFrom (step early) (.start engine) events = some s) (call : Nat) (request : Request)
    (reply : Reply) (hanswered : s.calls.get? call = some ⟨request, .answered reply⟩) :
    .request call request ∈ events ∧
      (engine = false →
        reply = transcribeEndpoint (fun audio hints ↦ some (stubTranscript audio hints)) request) ∧
      ∃ output, reply = transcribeEndpoint (transcribed engine output) request := by
  have h := (inv_run hrun).sound call _ hanswered
  refine ⟨arrived_run hrun call _ hanswered, fun hengine ↦ ?_, h⟩
  obtain ⟨output, hreply⟩ := h
  subst hengine
  exact hreply

-- Two bytes of audio with a priority, and a request without a body, side by side.
def audioRequest : Request := ⟨[("x-agent-priority", "7")], [1, 2]⟩

def twoRequests : List Event :=
  [.request 0 audioRequest, .request 1 ⟨[], []⟩, .body 0, .tick (3 / 1000), .body 1,
    .tick (4 / 1000), .resume 0 none]

theorem twoRequests_answered : ∃ s, runFrom (step 0) (.start false) twoRequests = some s ∧
    ∃ reply, s.calls.get? 0 = some ⟨audioRequest, .answered reply⟩ ∧
      reply = transcribeEndpoint (fun audio hints ↦ some (stubTranscript audio hints))
        audioRequest := by
  have hrun : (runFrom (step 0) (.start false) twoRequests).isSome := by decide +kernel
  obtain ⟨s, hrun⟩ := Option.isSome_iff_exists.mp hrun
  have hphase : ((runFrom (step 0) (.start false) twoRequests).bind fun s ↦
      (s.calls.get? 0).map (·.phase.isTranscript)) = some true := by decide +kernel
  rw [hrun, Option.bind_some, Option.map_eq_some_iff] at hphase
  obtain ⟨⟨request, phase⟩, hget, hphase⟩ := hphase
  cases phase with
  | answered reply =>
    obtain ⟨hin, hreply, -⟩ := answers_own_request 0 false twoRequests s hrun 0 request reply hget
    have hrequest : request = audioRequest := by
      simp only [twoRequests, List.mem_cons, Event.request.injEq, reduceCtorEq, List.not_mem_nil,
        true_and, Nat.zero_ne_one, false_and, or_false] at hin
      exact hin
    subst hrequest
    exact ⟨s, hrun, reply, hget, hreply rfl⟩
  | reading => cases hphase
  | transcribing hints t0 => cases hphase
  | raised => cases hphase

/-! ## Counts -/

theorem mean_bounds {l : List ℚ} (hne : l ≠ []) {lo hi : ℚ} (hl : ∀ x ∈ l, lo ≤ x ∧ x ≤ hi) :
    lo ≤ l.sum / l.length ∧ l.sum / l.length ≤ hi := by
  have hpos : (0 : ℚ) < l.length := Nat.cast_pos.mpr (List.length_pos_iff.mpr hne)
  have hlo := List.card_nsmul_le_sum l lo fun x hx ↦ (hl x hx).1
  have hhi := List.sum_le_card_nsmul l hi fun x hx ↦ (hl x hx).2
  rw [nsmul_eq_mul] at hlo hhi
  constructor
  · rw [le_div_iff₀ hpos, mul_comm]
    exact hlo
  · rw [div_le_iff₀ hpos, mul_comm hi]
    exact hhi

/-- The number of transcripts is rounded too, and so is the quotient. -/
theorem Inv.avgLatencyMs_within (h : Inv early engine s) :
    Within (s.latencies.length + 4) (s.latencies.sum / s.latencies.length)
      s.worker.avgLatencyMs := by
  rw [InferenceWorker.avgLatencyMs, h.count_eq]
  split
  · rename_i hzero
    rw [hzero, Nat.cast_zero, div_zero]
    exact .zero
  · rename_i hne
    have hpos : (0 : ℚ) < s.latencies.length := Nat.cast_pos.mpr (Nat.pos_of_ne_zero hne)
    have hsum := List.sum_nonneg h.nonneg
    have hquotient := h.total_within.div (.toDouble hpos.le) hsum hpos
    exact hquotient.trans (.toDouble (hquotient.nonneg (div_nonneg hsum hpos.le)))

/-- Whatever is in progress, `requests` is the number of transcripts returned so far (requests that
were answered with an error or raised are not in it), and the average is that of their latencies up
to four roundings and one more for each of them: up to these it lies between the least and the
greatest of them, and without an engine above the five milliseconds of the sleep, less what the
event loop may take off it.  Both endpoints show it to the nearest hundredth. -/
theorem requests_accounted (early : ℚ) (engine : Bool) (events : List Event) (s : Server)
    (hrun : runFrom (step early) (.start engine) events = some s) :
    s.health.requests = s.calls.values.countP (·.phase.isTranscript) ∧
      s.metrics.requestsTotal = s.latencies.length ∧
      s.health.requests = s.metrics.requestsTotal ∧
      Within (s.latencies.length + 4) (s.latencies.sum / s.latencies.length)
        s.worker.avgLatencyMs ∧
      (∀ lo hi, s.latencies ≠ [] → (∀ l ∈ s.latencies, lo ≤ l ∧ l ≤ hi) →
        lo * (1 - unitRoundoff) ^ (s.latencies.length + 4) ≤ s.worker.avgLatencyMs ∧
          s.worker.avgLatencyMs * (1 - unitRoundoff) ^ (s.latencies.length + 4) ≤ hi) ∧
      (engine = false → s.latencies ≠ [] →
        (stubSleep - early) * 1000 * (1 - unitRoundoff) ^ (s.latencies.length + 4) ≤
          s.worker.avgLatencyMs) ∧
      ∃ hundredths : ℤ, |(hundredths : ℚ) - s.worker.avgLatencyMs * 100| ≤ 1 / 2 ∧
        s.health.avgLatencyMs = toDouble (hundredths / 100) ∧
        s.metrics.avgLatencyMs = toDouble (hundredths / 100) := by
  have h := inv_run hrun
  have hwithin := h.avgLatencyMs_within
  refine ⟨h.count_eq.trans h.answered_eq.symm, h.count_eq, rfl, hwithin, ?_, ?_,
    nearestInt (s.worker.avgLatencyMs * 100), abs_nearestInt_sub_le _, rfl, rfl⟩
  · intro lo hi hne hl
    obtain ⟨hlo, hhi⟩ := mean_bounds hne hl
    exact hwithin.bounds hlo hhi
  · intro hengine hne
    have hmean := (mean_bounds hne fun l hl ↦
      ⟨h.slept hengine l hl, List.single_le_sum h.nonneg l hl⟩).1
    exact (hwithin.bounds hmean le_rfl).1

theorem twoRequests_accounted : ∃ s, runFrom (step 0) (.start false) twoRequests = some s ∧
    s.latencies = [7] ∧ 7 * (1 - unitRoundoff) ^ 5 ≤ s.worker.avgLatencyMs ∧
    s.worker.avgLatencyMs * (1 - unitRoundoff) ^ 5 ≤ 7 := by
  have hlatencies : (runFrom (step 0) (.start false) twoRequests).map (·.latencies) =
      some [7] := by
    decide +kernel
  obtain ⟨s, hrun, hlatencies⟩ := Option.map_eq_some_iff.mp hlatencies
  have h := (requests_accounted 0 false twoRequests s hrun).2.2.2.2.1 7 7
  rw [hlatencies] at h
  have hbounds := h (List.cons_ne_nil _ _) fun l hl ↦ by
    rw [List.mem_singleton.mp hl]
    exact ⟨le_rfl, le_rfl⟩
  exact ⟨s, hrun, hlatencies, hbounds⟩

end AsrServe.Inference.Serving
