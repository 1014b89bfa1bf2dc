import AsrServe.AgenticFactory.RecentHistory
import AsrServe.AgenticFactory.SetHint
import AsrServe.Reasoning.Monitor

/-!
# The hint manager under threads (`AgentHintsManager` in `agentic-factory/src/agent_hints.py`)

All six methods, cut at every access to an attribute or to the history, with the `RLock` around
them.  `set_hint` calls `set_profile` while it holds the lock.
-/

open AsrServe.Reasoning

namespace AsrServe.AgenticFactory.SetHint

-- `to_headers`; the model id is stored as it came.
def HintProfile.toHeaders (p : HintProfile) : Dict String JsonValue :=
  let headers := Dict.empty.set "X-Agent-Priority" (.str (toString p.priority))
    |>.set "X-Agent-KV-TTL-Ms" (.str (toString p.kvTtlMs))
    |>.set "X-Agent-Model-ID" p.modelId
  if p.debug then headers.set "X-Agent-Debug" (.str "true") else headers

inductive HintCall where
  | write (write : Write)
  | active
  | getHeaders
  | getDict
  | recentHistory (n : Int)

/-- What a call returns, or how it raises. -/
inductive HintResult where
  | written (result : Except PyException Unit)
  | profile (profile : HintProfile)
  | headers (headers : Dict String JsonValue)
  | hints (hints : Dict String JsonValue)
  | history (profiles : List HintProfile)

namespace Threads

abbrev Code := Reasoning.Code AgentHintsManager

def setProfile (profile : HintProfile) : Code Unit := .locked .exclusive do
  let active := (← .read).active
  .modify fun hints ↦ { hints with history := hints.history ++ [active] }
  if (← .read).history.length > 100 then
    .modify fun hints ↦ { hints with history := hints.history.tail }
  .modify fun hints ↦ { hints with active := profile }

variable (intOfStr : String → Option Int)

def setHint (key : String) (value : JsonValue) : Code (Except PyException Unit) :=
  .locked .exclusive do
    let current := (← .read).active
    match current.patched intOfStr key value with
    | .error e => return .error e
    | .ok updated =>
      setProfile updated
      return .ok ()

-- A method that looks at one attribute.
def reading (look : AgentHintsManager → HintResult) : Code HintResult := .locked .exclusive do
  return look (← .read)

def method : HintCall → Code HintResult
  | .write (.setProfile profile) => do
    setProfile profile
    return .written (.ok ())
  | .write (.setHint key value) => do
    return .written (← setHint intOfStr key value)
  | .active => reading fun hints ↦ .profile hints.active
  | .getHeaders => reading fun hints ↦ .headers hints.active.toHeaders
  | .getDict => reading fun hints ↦ .hints hints.active.toDict
  | .recentHistory n => reading fun hints ↦ .history (sliceFrom hints.history (-n))

/-! ## Each method under the lock -/

theorem setProfile_critical (profile : HintProfile) :
    (setProfile profile).Critical true .exclusive := by
  refine ⟨_, rfl, Code.under_read.bind fun hints ↦ ?_⟩
  refine (Code.under_modify _).bind fun _ ↦ Code.under_read.bind fun hints' ↦ ?_
  dsimp only
  split
  · exact (Code.under_modify _).bind fun _ ↦ Code.under_modify _
  · exact (Code.under_pure ()).bind fun _ ↦ Code.under_modify _

theorem setHint_critical (key : String) (value : JsonValue) :
    (setHint intOfStr key value).Critical true .exclusive := by
  refine ⟨_, rfl, Code.under_read.bind fun hints ↦ ?_⟩
  dsimp only
  split
  · exact Code.under_pure _
  · exact (setProfile_critical _).under.bind fun _ ↦ Code.under_pure _

theorem reading_critical (look : AgentHintsManager → HintResult) :
    (reading look).Critical true .exclusive :=
  ⟨_, rfl, Code.under_read.bind fun _ ↦ Code.under_pure _⟩

theorem method_guarded (c : HintCall) : (method intOfStr c).Guarded true := by
  cases c with
  | write w =>
    cases w with
    | setProfile profile => exact (setProfile_critical profile).guarded.map _
    | setHint key value => exact (setHint_critical intOfStr key value).guarded.map _
  | active | getHeaders | getDict | recentHistory => exact (reading_critical _).guarded

theorem eval_setProfile (profile : HintProfile) (hints : AgentHintsManager) :
    (setProfile profile).eval hints = ((), ((SetHint.setProfile profile).run hints).2) := by
  rw [run_setProfile, trim, setProfile, Code.eval_locked]
  show (if (hints.history ++ [hints.active]).length > 100 then _ else _ : Code Unit).eval
    { hints with history := hints.history ++ [hints.active] } = _
  split <;> rfl

theorem eval_setHint (key : String) (value : JsonValue) (hints : AgentHintsManager) :
    (setHint intOfStr key value).eval hints = (SetHint.setHint intOfStr key value).run hints := by
  rw [run_setHint, setHint, Code.eval_locked]
  show (match hints.active.patched intOfStr key value with | .error _ => _ | .ok _ => _ :
    Code (Except PyException Unit)).eval hints = _
  cases hints.active.patched intOfStr key value with
  | error e => rfl
  | ok updated =>
    refine (Code.eval_bind (setProfile updated) _ hints).trans ?_
    rw [eval_setProfile]
    dsimp only
    rw [run_setProfile]
    rfl

end Threads

/-- What a call comes to when nobody else is around. -/
def answer (intOfStr : String → Option Int) : HintCall → AgentHintsManager →
    HintResult × AgentHintsManager
  | .write write, hints =>
    let (result, hints') := (call intOfStr write).run hints
    (.written result, hints')
  | .active, hints => (.profile hints.active, hints)
  | .getHeaders, hints => (.headers hints.active.toHeaders, hints)
  | .getDict, hints => (.hints hints.active.toDict, hints)
  | .recentHistory n, hints => (.history (sliceFrom hints.history (-n)), hints)

theorem eval_method (intOfStr : String → Option Int) (c : HintCall) (hints : AgentHintsManager) :
    (Threads.method intOfStr c).eval hints = answer intOfStr c hints := by
  cases c with
  | write w =>
    cases w with
    | setProfile profile =>
      refine (Code.eval_bind (Threads.setProfile profile) _ hints).trans ?_
      rw [Threads.eval_setProfile, answer, call, run_setProfile]
      rfl
    | setHint key value =>
      refine (Code.eval_bind (Threads.setHint intOfStr key value) _ hints).trans ?_
      rw [Threads.eval_setHint]
      rfl
  | active | getHeaders | getDict | recentHistory => rfl

/-- The manager as a class whose lock is an `RLock`. -/
def monitor (intOfStr : String → Option Int) : Monitor HintCall AgentHintsManager HintResult where
  reentrant := true
  method := Threads.method intOfStr
  spec := answer intOfStr
  guarded := Threads.method_guarded intOfStr
  eval_eq := eval_method intOfStr

/-! ## Whole runs -/

-- The writes among the calls of an order.
def writesOf (order : List (Nat × HintCall)) : List Write :=
  order.filterMap fun | (_, .write write) => some write | _ => none

/-- One after the other, only the writes count. -/
theorem replay_eq_after (intOfStr : String → Option Int) (hints : AgentHintsManager)
    (order : List (Nat × HintCall)) :
    (monitor intOfStr).replay hints order = after intOfStr hints (writesOf order) := by
  induction order using List.reverseRecOn with
  | nil => rfl
  | append_singleton order entry ih =>
    obtain ⟨id, c⟩ := entry
    have hwrites : writesOf (order ++ [(id, c)]) = writesOf order ++ writesOf [(id, c)] :=
      List.filterMap_append
    rw [Monitor.replay_concat, ih, hwrites]
    cases c with
    | write write => exact (after_concat intOfStr hints _ write).symm
    | active | getHeaders | getDict | recentHistory =>
      show after intOfStr hints (writesOf order) = after intOfStr hints (writesOf order ++ [])
      rw [List.append_nil]

/-- Any number of threads call the six methods.  Some order of the calls, one that never puts a
call before another that had returned when it was made, explains everything: each call that is
through has returned what it returns after the writes before it, and unless a method is at work
the manager holds what the writes have made of it.  The threads never block each other for good. -/
theorem manager_linearizable (intOfStr : String → Option Int) (defaultModelId : String)
    {events : List (Monitor.Event HintCall)}
    {s : Monitor.Config HintCall AgentHintsManager HintResult}
    (hrun : runFrom (monitor intOfStr).step { object := .init defaultModelId } events = some s) :
    (∃ order, (monitor intOfStr).Linearizes (.init defaultModelId) events s order ∧
      (∀ id c result, s.calls.get? id = some c → c.code = .ret result →
        ∃ before rest, order = before ++ (id, c.op) :: rest ∧
          result = (answer intOfStr c.op
            (after intOfStr (.init defaultModelId) (writesOf before))).1) ∧
      ((∀ id c, s.calls.get? id = some c → c.held = []) →
        s.object = after intOfStr (.init defaultModelId) (writesOf order) ∧
          s.object.history.length ≤ 100)) ∧
      (monitor intOfStr).NeverStuck s := by
  refine ⟨?_, Monitor.neverStuck hrun⟩
  obtain ⟨order, horder⟩ := Monitor.linearizable hrun
  refine ⟨order, horder, ?_, ?_⟩
  · intro id c result hc hcode
    obtain ⟨before, rest, hsplit, hresult⟩ := horder.result id c result hc hcode
    rw [replay_eq_after] at hresult
    exact ⟨before, rest, hsplit, hresult⟩
  · intro hfree
    have hobject := horder.object fun id c hc ↦ by rw [hfree id c hc]; exact List.not_mem_nil
    rw [replay_eq_after] at hobject
    refine ⟨hobject, ?_⟩
    rw [hobject]
    exact length_history_after intOfStr (Nat.zero_le _) _

-- Two threads: `set_hint` has the lock while `get_headers` waits for it.
def twoThreads : List (Monitor.Event HintCall) :=
  [.invoke 0 (.write (.setHint "priority" (.int 9))), .invoke 1 .getHeaders] ++
    List.replicate 9 (.advance 0) ++ List.replicate 3 (.advance 1) ++ [.returns 1, .returns 0]

theorem twoThreads_linearizable :
    ∃ s, runFrom (monitor fun _ ↦ none).step { object := .init "whisper-large-v3" } twoThreads =
        some s ∧
      ∃ order, (monitor fun _ ↦ none).Linearizes (.init "whisper-large-v3") twoThreads s order := by
  have hrun : ∃ s, runFrom (monitor fun _ ↦ none).step { object := .init "whisper-large-v3" }
      twoThreads = some s := ⟨_, rfl⟩
  obtain ⟨s, hrun⟩ := hrun
  obtain ⟨⟨order, horder, -⟩, -⟩ := manager_linearizable _ _ hrun
  exact ⟨s, hrun, order, horder⟩

end AsrServe.AgenticFactory.SetHint
