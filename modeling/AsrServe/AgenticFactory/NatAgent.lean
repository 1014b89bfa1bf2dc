import AsrServe.AgenticFactory.JsonValue

/-!
# Replies of the language model (`agentic-factory/src/nat_agent.py`)

`_parse_actions` on whatever `json.loads` makes of a reply: a value of any shape, or an exception.
-/

namespace AsrServe.AgenticFactory

/-- An action as it was read: the types of the three fields are not checked. -/
structure AgentAction where
  actionType : JsonValue
  parameters : JsonValue := .dict []
  rationale : JsonValue := .str ""

def AgentAction.ofJson (a : JsonValue) : Except PyException AgentAction := do
  let actionType ← a.get "action_type" (.str "noop")
  let parameters ← a.get "parameters" (.dict [])
  let rationale ← a.get "rationale" (.str "")
  return { actionType, parameters, rationale }

def AgentAction.parseError : AgentAction where
  actionType := .str "noop"
  rationale := .str "parse error"

-- The exceptions `_parse_actions` handles.
def PyException.caught : PyException → Bool
  | .jsonDecodeError => true
  | .keyError => true
  | _ => false

def readActions (data : JsonValue) : Except PyException (List AgentAction) := do
  let actions ← data.get "actions" (.list [])
  (← actions.iter).mapM AgentAction.ofJson

def parseActions (loads : String → Except PyException JsonValue) (response : String) :
    Except PyException (List AgentAction) :=
  tryCatch (loads response >>= readActions) fun exc ↦
    if exc.caught then return [.parseError] else throw exc

/-! ## What a reply is meant to say -/

def JsonValue.items? : JsonValue → Option (List (String × JsonValue))
  | .dict items => some items
  | _ => none

def JsonValue.elements? : JsonValue → Option (List JsonValue)
  | .list elements => some elements
  | _ => none

/-- The objects in the list a reply has under `actions`, if it is an object with such a list and
nothing but objects in it. -/
def actionObjects (reply : Except PyException JsonValue) :
    Option (List (List (String × JsonValue))) := do
  let items ← (← reply.toOption).items?
  let elements ← (← items.lookup "actions").elements?
  elements.mapM JsonValue.items?

-- The action an object describes, with the defaults of the fields it leaves out.
def AgentAction.ofItems (items : List (String × JsonValue)) : AgentAction where
  actionType := (items.lookup "action_type").getD (.str "noop")
  parameters := (items.lookup "parameters").getD (.dict [])
  rationale := (items.lookup "rationale").getD (.str "")

/-- One action for each object of a reply of the agreed shape, a parse error for any other. -/
def meantActions (reply : Except PyException JsonValue) : List AgentAction :=
  match actionObjects reply with
  | some objects => objects.map AgentAction.ofItems
  | none => [.parseError]

/-! ## What is made of it -/

theorem AgentAction.ofJson_eq (a : JsonValue) :
    ofJson a = match a.items? with
      | some items => .ok (ofItems items)
      | none => .error .attributeError := by
  cases a <;> rfl

theorem mapM_ofJson (elements : List JsonValue) :
    elements.mapM AgentAction.ofJson = match elements.mapM JsonValue.items? with
      | some objects => .ok (objects.map AgentAction.ofItems)
      | none => .error .attributeError := by
  induction elements with
  | nil => rfl
  | cons a elements ih =>
    rw [List.mapM_cons, List.mapM_cons, AgentAction.ofJson_eq, ih]
    cases a.items? with
    | none => rfl
    | some items => cases elements.mapM JsonValue.items? <;> rfl

-- Strings are no objects: over an empty run of them nothing is read, over any other one raises.
theorem mapM_ofJson_strings {α : Type} (xs : List α) (text : α → String) :
    (xs.map fun x ↦ JsonValue.str (text x)).mapM AgentAction.ofJson = .ok [] ∨
      ∃ e, (xs.map fun x ↦ JsonValue.str (text x)).mapM AgentAction.ofJson = .error e ∧
        e.caught = false := by
  cases xs with
  | nil => exact .inl rfl
  | cons x xs =>
    refine .inr ⟨.attributeError, ?_, rfl⟩
    rw [mapM_ofJson, List.map_cons, List.mapM_cons]
    rfl

-- The loop over whatever stands under `actions`.
theorem iter_ofJson_spec (actions : JsonValue) :
    (∃ objects, (actions.elements?.bind fun elements ↦ elements.mapM JsonValue.items?) =
          some objects ∧
        (actions.iter >>= fun elements ↦ elements.mapM AgentAction.ofJson) =
          .ok (objects.map AgentAction.ofItems)) ∨
      (actions.elements?.bind fun elements ↦ elements.mapM JsonValue.items?) = none ∧
        ((actions.iter >>= fun elements ↦ elements.mapM AgentAction.ofJson) = .ok [] ∨
          ∃ e, (actions.iter >>= fun elements ↦ elements.mapM AgentAction.ofJson) = .error e ∧
            e.caught = false) := by
  cases actions with
  | list elements =>
    show (∃ objects, elements.mapM JsonValue.items? = some objects ∧
        elements.mapM AgentAction.ofJson = .ok (objects.map AgentAction.ofItems)) ∨
      elements.mapM JsonValue.items? = none ∧ (elements.mapM AgentAction.ofJson = .ok [] ∨
        ∃ e, elements.mapM AgentAction.ofJson = .error e ∧ e.caught = false)
    rw [mapM_ofJson]
    cases elements.mapM JsonValue.items? with
    | none => exact .inr ⟨rfl, .inr ⟨.attributeError, rfl, rfl⟩⟩
    | some objects => exact .inl ⟨objects, rfl, rfl⟩
  | dict members => exact .inr ⟨rfl, mapM_ofJson_strings members Prod.fst⟩
  | str text => exact .inr ⟨rfl, mapM_ofJson_strings text.toList String.singleton⟩
  | _ => exact .inr ⟨rfl, .inr ⟨.typeError, rfl, rfl⟩⟩

/-- A reply of the agreed shape is read as meant; any other raises something that is not caught
or, when there is nothing to run through, is read as no action at all. -/
theorem readActions_spec (data : JsonValue) :
    (∃ objects, actionObjects (.ok data) = some objects ∧
        readActions data = .ok (objects.map AgentAction.ofItems)) ∨
      actionObjects (.ok data) = none ∧
        (readActions data = .ok [] ∨ ∃ e, readActions data = .error e ∧ e.caught = false) := by
  cases data with
  | dict items =>
    rw [readActions, JsonValue.get]
    have hobjects : actionObjects (.ok (.dict items)) =
        (items.lookup "actions").bind fun actions ↦
          actions.elements?.bind fun elements ↦ elements.mapM JsonValue.items? := rfl
    rw [hobjects]
    cases items.lookup "actions" with
    | none => exact .inr ⟨rfl, .inl rfl⟩
    | some actions => exact iter_ofJson_spec actions
  | _ => exact .inr ⟨rfl, .inr ⟨.attributeError, rfl, rfl⟩⟩

theorem parseActions_eq (loads : String → Except PyException JsonValue) (response : String) :
    parseActions loads response =
      match loads response >>= readActions with
      | .ok actions => .ok actions
      | .error exc => if exc.caught then .ok [.parseError] else .error exc := by
  rw [parseActions]
  cases loads response >>= readActions <;> rfl

/-- A reply is parsed as meant just when `json.loads` rejects it as no JSON, or finds in it an
object whose `actions` are a list of objects. -/
theorem parseActions_meant_iff (loads : String → Except PyException JsonValue)
    (response : String) :
    parseActions loads response = .ok (meantActions (loads response)) ↔
      (∃ exc, loads response = .error exc ∧ exc.caught = true) ∨
        (actionObjects (loads response)).isSome := by
  rw [parseActions_eq, meantActions]
  cases loads response with
  | error exc =>
    show (if exc.caught then .ok [.parseError] else .error exc) =
      (.ok [.parseError] : Except PyException (List AgentAction)) ↔ _
    by_cases hcaught : exc.caught = true
    · rw [if_pos hcaught]
      exact iff_of_true rfl (.inl ⟨exc, rfl, hcaught⟩)
    · rw [if_neg hcaught]
      apply iff_of_false nofun
      rintro (⟨e, he, hcaught'⟩ | hsome)
      · cases he
        exact hcaught hcaught'
      · cases hsome
  | ok data =>
    have hbind : (.ok data >>= readActions) = readActions data := rfl
    rw [hbind]
    rcases readActions_spec data with ⟨objects, hobjects, hread⟩ | ⟨hobjects, hread⟩
    · rw [hread, hobjects]
      exact iff_of_true rfl (.inr rfl)
    · rw [hobjects]
      apply iff_of_false
      · rcases hread with hread | ⟨e, hread, hcaught⟩
        · -- no action at all, where a parse error is meant
          rw [hread]
          exact nofun
        · rw [hread]
          dsimp only
          rw [hcaught]
          exact nofun
      · rintro (⟨e, he, -⟩ | hsome)
        · cases he
        · cases hsome

-- `json.loads` where a reply is an empty list, and on anything that is no JSON.
def loadsEmptyList (response : String) : Except PyException JsonValue :=
  if response = "[]" then .ok (.list []) else .error .jsonDecodeError

/-- The list without the object around it: an exception, not a parse error. -/
theorem parseActions_bare_list :
    parseActions loadsEmptyList "[]" = .error .attributeError ∧
      meantActions (loadsEmptyList "[]") = [.parseError] ∧
      ¬ parseActions loadsEmptyList "[]" = .ok (meantActions (loadsEmptyList "[]")) := by
  refine ⟨rfl, rfl, ?_⟩
  show (.error .attributeError : Except PyException (List AgentAction)) ≠ .ok [.parseError]
  exact nofun

end AsrServe.AgenticFactory
