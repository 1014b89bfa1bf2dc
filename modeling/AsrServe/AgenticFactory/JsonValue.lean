import Mathlib.Data.Rat.Init

/-!
# Values that come from JSON

What the Python sources receive in tool arguments and language-model replies, with the built-ins
they apply to it.
-/

namespace AsrServe.AgenticFactory

/-- The exceptions that are told apart. -/
inductive PyException where
  | typeError
  | valueError
  | overflowError
  | attributeError
  | keyError
  | jsonDecodeError
  | recursionError
deriving DecidableEq, Repr

/-- What `json.loads` returns. -/
inductive JsonValue where
  | null
  | bool (b : Bool)
  | int (n : Int)
  -- Its exact value, unless it is infinite or not a number, and its `repr`.
  | float (value : Option ℚ) (repr : String)
  | str (s : String)
  | list (items : List JsonValue)
  -- The items of the dict, each name once.
  | dict (items : List (String × JsonValue))

namespace JsonValue

/-- `int()`; what it makes of a string is left open. -/
def toInt (intOfStr : String → Option Int) : JsonValue → Except PyException Int
  | .null => .error .typeError
  | .bool b => .ok (if b then 1 else 0)
  | .int n => .ok n
  | .float (some q) _ => .ok (q.num.tdiv q.den)
  | .float none repr => .error (if repr = "nan" then .valueError else .overflowError)
  | .str s =>
    match intOfStr s with
    | some n => .ok n
    | none => .error .valueError
  | .list _ => .error .typeError
  | .dict _ => .error .typeError

-- `bool()`.
def truthy : JsonValue → Bool
  | .null => false
  | .bool b => b
  | .int n => n ≠ 0
  | .float value _ => value ≠ some 0
  | .str s => s ≠ ""
  | .list items => !items.isEmpty
  | .dict items => !items.isEmpty

-- Whether `hash()` accepts the value: only a list and a dict can be changed.
def hashable : JsonValue → Bool
  | .list _ => false
  | .dict _ => false
  | _ => true

-- `value.get(name, default)`: only a dict has the method.
def get (value : JsonValue) (name : String) (default : JsonValue) :
    Except PyException JsonValue :=
  match value with
  | .dict items => .ok ((items.lookup name).getD default)
  | _ => .error .attributeError

-- What a loop over the value runs through.
def iter : JsonValue → Except PyException (List JsonValue)
  | .list items => .ok items
  | .dict items => .ok (items.map fun item ↦ .str item.1)
  | .str s => .ok (s.toList.map fun c ↦ .str (String.singleton c))
  | _ => .error .typeError

/-! ## Texts -/

-- The lower-case hexadecimal digits of a character, at least `width` of them.
def hexDigits (width : Nat) (c : Char) : String :=
  String.ofList ((Nat.toDigits 16 c.toNat).leftpad width '0')

def apostrophe : Char := Char.ofNat 39

def quotationMark : Char := Char.ofNat 34

def backslash : Char := Char.ofNat 92

/-- A character in the `repr` of a string; which ones are printable is left open. -/
def reprChar (isPrintable : Char → Bool) (quote c : Char) : String :=
  if c = quote ∨ c = backslash then String.ofList [backslash, c]
  else if c = '\t' then String.ofList [backslash, 't']
  else if c = '\n' then String.ofList [backslash, 'n']
  else if c = '\r' then String.ofList [backslash, 'r']
  else if isPrintable c then String.singleton c
  else if c.toNat < 0x100 then String.ofList [backslash, 'x'] ++ hexDigits 2 c
  else if c.toNat < 0x10000 then String.ofList [backslash, 'u'] ++ hexDigits 4 c
  else String.ofList [backslash, 'U'] ++ hexDigits 8 c

-- `repr()` of a string: between quotation marks just when there is an apostrophe and none of them.
def reprStr (isPrintable : Char → Bool) (s : String) : String :=
  let quote :=
    if s.toList.contains apostrophe && !s.toList.contains quotationMark then quotationMark
    else apostrophe
  String.singleton quote ++ String.join (s.toList.map (reprChar isPrintable quote)) ++
    String.singleton quote

mutual

/-- `repr()`; `json.loads` reads no integer of more digits than it writes. -/
def reprText (isPrintable : Char → Bool) : JsonValue → String
  | .null => "None"
  | .bool b => if b then "True" else "False"
  | .int n => toString n
  | .float _ repr => repr
  | .str s => reprStr isPrintable s
  | .list items => "[" ++ ", ".intercalate (reprItems isPrintable items) ++ "]"
  | .dict items => "\x7b" ++ ", ".intercalate (reprEntries isPrintable items) ++ "\x7d"

def reprItems (isPrintable : Char → Bool) : List JsonValue → List String
  | [] => []
  | value :: rest => reprText isPrintable value :: reprItems isPrintable rest

def reprEntries (isPrintable : Char → Bool) : List (String × JsonValue) → List String
  | [] => []
  | (name, value) :: rest =>
    (reprStr isPrintable name ++ ": " ++ reprText isPrintable value) ::
      reprEntries isPrintable rest

end

-- `str()`.
def text (isPrintable : Char → Bool) : JsonValue → String
  | .str s => s
  | value => reprText isPrintable value

@[simp] theorem toInt_int (intOfStr : String → Option Int) (n : Int) :
    (JsonValue.int n).toInt intOfStr = .ok n := rfl

@[simp] theorem truthy_bool (b : Bool) : (JsonValue.bool b).truthy = b := rfl

end JsonValue

end AsrServe.AgenticFactory
