import AsrServe.AgenticFactory.AgentHints
import AsrServe.Reasoning.IntLiteral

/-!
# The transcription endpoint (`inference/src/worker.py`)

A request carries its agent hints as headers; the endpoint makes a dictionary of them again.
-/

open AsrServe.Reasoning AsrServe.AgenticFactory

namespace AsrServe.Inference

structure Request where
  headers : List (String × String)
  body : List UInt8
deriving DecidableEq, Repr

def lowered (name : String) : List Char := name.toList.map Char.toLower

/-- `request.headers.get`: the first header of that name, in whatever case. -/
def Request.header (request : Request) (name : String) : Option String :=
  (request.headers.find? fun h ↦ lowered h.1 == lowered name).map Prod.snd

-- The characters of a header value that `int()` skips at both ends.
def isBlank (c : Char) : Bool :=
  c = ' ' || c = '\t' || c = Char.ofNat 0x85 || c = Char.ofNat 0xA0

/-- Sets a hint to the integer its header holds, if there is one; `none` is the `ValueError` of
`int()`. -/
def Request.readHint (request : Request) (name key : String) (hints : Dict String Value) :
    Option (Dict String Value) :=
  match request.header name with
  | some text => (readInt isBlank text).map fun n ↦ hints.set key (.int n)
  | none => some hints

def Request.agentHints (request : Request) : Option (Dict String Value) := do
  let hints ← request.readHint "X-Agent-Priority" "priority" Dict.empty
  request.readHint "X-Agent-KV-TTL-Ms" "kv_ttl_ms" hints

inductive Reply where
  -- 200, `{"text": transcript}`.
  | transcript (text : String)
  | httpException (status : Nat) (detail : String)
  -- Any other exception.
  | internalError
deriving DecidableEq, Repr

/-- `transcribe_endpoint`; `transcribe` is the worker's, where `none` is an exception. -/
def transcribeEndpoint (transcribe : List UInt8 → Dict String Value → Option String)
    (request : Request) : Reply :=
  if request.body = [] then
    .httpException 400 "Empty request body"
  else
    match request.agentHints.bind (transcribe request.body) with
    | some text => .transcript text
    | none => .internalError

/-! ## Headers of a hint profile -/

/-- A request decorated with the headers of a profile. -/
def decorated (p : HintProfile) (body : List UInt8) : Request := ⟨p.toHeaders.entries, body⟩

@[simp] theorem decorated_body (p : HintProfile) (body : List UInt8) :
    (decorated p body).body = body := rfl

-- The two headers the endpoint reads come first.
theorem headers_decorated (p : HintProfile) (body : List UInt8) :
    ∃ rest, (decorated p body).headers =
      ("X-Agent-Priority", toString p.priority) :: ("X-Agent-KV-TTL-Ms", toString p.kvTtlMs) ::
        rest := by
  rw [decorated, HintProfile.toHeaders]
  by_cases hdebug : p.debug = true
  · rw [if_pos hdebug]
    exact ⟨_, rfl⟩
  · rw [if_neg hdebug]
    exact ⟨_, rfl⟩

theorem header_priority (p : HintProfile) (body : List UInt8) :
    (decorated p body).header "X-Agent-Priority" = some (toString p.priority) := by
  obtain ⟨rest, hheaders⟩ := headers_decorated p body
  rw [Request.header, hheaders, List.find?_cons_of_pos (by exact beq_self_eq_true _),
    Option.map_some]

theorem header_kvTtlMs (p : HintProfile) (body : List UInt8) :
    (decorated p body).header "X-Agent-KV-TTL-Ms" = some (toString p.kvTtlMs) := by
  obtain ⟨rest, hheaders⟩ := headers_decorated p body
  have hne : ¬ (lowered "X-Agent-Priority" == lowered "X-Agent-KV-TTL-Ms") = true := by decide
  rw [Request.header, hheaders, List.find?_cons_of_neg (by exact hne),
    List.find?_cons_of_pos (by exact beq_self_eq_true _), Option.map_some]

theorem isBlank_of_isDigit (c : Char) (h : c.isDigit = true) : isBlank c = false := by
  have hne {d : Char} (hd : d.isDigit = false) : c ≠ d := by
    intro heq
    rw [heq, hd] at h
    cases h
  rw [isBlank, decide_eq_false (hne (by decide)), decide_eq_false (hne (by decide)),
    decide_eq_false (hne (by decide)), decide_eq_false (hne (by decide))]
  rfl

theorem readHint_toString {request : Request} {name : String} {n : Int}
    (h : request.header name = some (toString n)) (key : String) (hints : Dict String Value) :
    request.readHint name key hints = some (hints.set key (.int n)) := by
  rw [Request.readHint, h]
  show (readInt isBlank (toString n)).map _ = _
  rw [readInt_toString isBlank_of_isDigit (by decide) n, Option.map_some]

theorem agentHints_decorated (p : HintProfile) (body : List UInt8) :
    (decorated p body).agentHints =
      some ((Dict.empty.set "priority" (.int p.priority)).set "kv_ttl_ms" (.int p.kvTtlMs)) := by
  rw [Request.agentHints, readHint_toString (header_priority p body)]
  exact readHint_toString (header_kvTtlMs p body) _ _

/-- The endpoint rebuilds, of the hints a profile is sent as, exactly the priority and the TTL, and
hands them to the worker. -/
theorem hint_headers_round_trip (p : HintProfile) :
    ∃ hints : Dict String Value,
      (∀ body, (decorated p body).agentHints = some hints) ∧
      (∀ key, hints.get? key =
        if key = "priority" ∨ key = "kv_ttl_ms" then p.toDict.get? key else none) ∧
      ∀ transcribe body, transcribeEndpoint transcribe (decorated p body) =
        if body = [] then .httpException 400 "Empty request body"
        else ((transcribe body hints).map Reply.transcript).getD .internalError := by
  refine ⟨_, agentHints_decorated p, fun key ↦ ?_, fun transcribe body ↦ ?_⟩
  · rw [Dict.get?_set, Dict.get?_set, HintProfile.get?_toDict]
    by_cases hk : key = "kv_ttl_ms"
    · simp [hk]
    · by_cases hp : key = "priority"
      · simp [hp]
      · simp [hk, hp]
  · rw [transcribeEndpoint, agentHints_decorated, Option.bind_some, decorated_body]
    by_cases hbody : body = []
    · rw [if_pos hbody, if_pos hbody]
    · rw [if_neg hbody, if_neg hbody]
      cases transcribe body _ <;> rfl

/-- The model and the debug flag of the default profile do not arrive. -/
theorem hint_headers_lossy :
    ¬ ∀ (p : HintProfile) (body : List UInt8), ∃ hints,
      (decorated p body).agentHints = some hints ∧
        ∀ key, hints.get? key = p.toDict.get? key := by
  intro h
  obtain ⟨hints, hrebuilt, heq⟩ := h { modelId := "whisper-large-v3" } [0]
  rw [agentHints_decorated, Option.some.injEq] at hrebuilt
  subst hrebuilt
  exact absurd (heq "model_id") (by decide)

end AsrServe.Inference
