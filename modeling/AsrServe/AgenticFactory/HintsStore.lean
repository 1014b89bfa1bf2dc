import Mathlib.Algebra.Group.Int.Defs

/-!
# The hint store of the control plane (`agentic-factory/main.go`)

`HintsStore` and the `/hints` endpoint in front of it.  A request body is the JSON value it holds;
`Decode` is the decoder of the standard library at the one structure it is used for.
-/

namespace AsrServe.AgenticFactory.ControlPlane

/-- The Go structure, on a 64-bit target; the zero value is what `var p HintProfile` declares. -/
structure HintProfile where
  modelId : String := ""
  priority : Int64 := 0
  kvTtlMs : Int64 := 0
  debug : Bool := false
  updatedAt : Int64 := 0
deriving DecidableEq, Repr

structure HintsStore where
  active : HintProfile
  history : List HintProfile := []
deriving DecidableEq, Repr

def newHintsStore : HintsStore where
  active := { modelId := "whisper-large-v3", priority := 5, kvTtlMs := 500 }

-- `now` is `time.Now().UnixMilli()`.
def HintsStore.update (store : HintsStore) (p : HintProfile) (now : Int64) : HintsStore :=
  let history := store.history ++ [store.active]
  { active := { p with updatedAt := now }
    history := if history.length > 100 then history.tail else history }

/-! ## Decoding a body -/

inductive Json where
  | null
  | bool (value : Bool)
  -- A literal without fraction and exponent.
  | integer (value : Int)
  -- Any other number.
  | decimal (literal : String)
  | string (value : String)
  | array (elements : List Json)
  | object (members : List (String × Json))

/-- The case folding of member names: upper case, and the two signs outside ASCII that fold to a
letter. -/
def foldRune (c : Char) : Char :=
  if c = Char.ofNat 0x212A then 'k' else if c = Char.ofNat 0x017F then 's' else c.toLower

def foldName (name : String) : List Char := name.toList.map foldRune

-- `null` leaves the field as it is; the number has to be an integer literal in range.
def decodeInt (field : Int64) : Json → Option Int64
  | .null => some field
  | .integer n => if -2 ^ 63 ≤ n ∧ n < 2 ^ 63 then some (Int64.ofInt n) else none
  | _ => none

def decodeBool (field : Bool) : Json → Option Bool
  | .null => some field
  | .bool b => some b
  | _ => none

def decodeString (field : String) : Json → Option String
  | .null => some field
  | .string s => some s
  | _ => none

/-- One member of the body: the field it names, whatever the case of its letters, is assigned. -/
def HintProfile.decodeMember (p : HintProfile) (member : String × Json) : Option HintProfile :=
  let name := foldName member.1
  if name = foldName "model_id" then
    (decodeString p.modelId member.2).map fun v ↦ { p with modelId := v }
  else if name = foldName "priority" then
    (decodeInt p.priority member.2).map fun v ↦ { p with priority := v }
  else if name = foldName "kv_ttl_ms" then
    (decodeInt p.kvTtlMs member.2).map fun v ↦ { p with kvTtlMs := v }
  else if name = foldName "debug" then
    (decodeBool p.debug member.2).map fun v ↦ { p with debug := v }
  else if name = foldName "updated_at_unix_ms" then
    (decodeInt p.updatedAt member.2).map fun v ↦ { p with updatedAt := v }
  else
    some p

/-- `Decode` into a zero `HintProfile`; `none` is the error a value of the wrong kind causes. -/
def decode : Json → Option HintProfile
  | .null => some {}
  | .object members => members.foldlM HintProfile.decodeMember {}
  | _ => none

/-! ## The endpoint -/

inductive Method where
  | get
  | put
  | other (name : String)
deriving DecidableEq, Repr

inductive Response where
  -- 200 with the profile as JSON.
  | profile (p : HintProfile)
  -- 204.
  | noContent
  -- 400, "invalid JSON: " and the decoder's own message.
  | invalidJson
  -- 405, "method not allowed".
  | methodNotAllowed
deriving DecidableEq, Repr

/-- The `/hints` handler; a body of `none` holds no JSON value. -/
def HintsStore.hints (store : HintsStore) (method : Method) (body : Option Json) (now : Int64) :
    HintsStore × Response :=
  match method with
  | .get => (store, .profile store.active)
  | .put =>
    match body.bind decode with
    | none => (store, .invalidJson)
    | some p => (store.update p now, .noContent)
  | .other _ => (store, .methodNotAllowed)

inductive StoreEvent where
  | update (p : HintProfile) (now : Int64)
  | request (method : Method) (body : Option Json) (now : Int64)

def HintsStore.step (store : HintsStore) : StoreEvent → HintsStore
  | .update p now => store.update p now
  | .request method body now => (store.hints method body now).1

end AsrServe.AgenticFactory.ControlPlane
