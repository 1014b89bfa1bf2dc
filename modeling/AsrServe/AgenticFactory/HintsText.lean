import AsrServe.AgenticFactory.HintsStore
import AsrServe.Reasoning.IntLiteral
import AsrServe.Reasoning.JsonWriter
import AsrServe.Reasoning.Runs

/-!
# Hint profiles as texts (`agentic-factory/main.go`)

What goes over the wire: the bodies of `GET` and `PUT /hints` and the datagrams of `broadcastLoop`,
with `encoding/json` at `HintProfile`.
-/

open AsrServe.Reasoning

namespace AsrServe.AgenticFactory.ControlPlane

/-! ## Encoding -/

-- The characters escaped for the sake of HTML and JavaScript.
def htmlMarked (c : Char) : Bool :=
  c = '<' || c = '>' || c = '&' || c = Char.ofNat 0x2028 || c = Char.ofNat 0x2029

/-- `json.Marshal`. -/
def HintProfile.marshal (p : HintProfile) : List Char :=
  JsonText.writeObject htmlMarked
    [("model_id".toList, JsonText.writeString htmlMarked p.modelId.toList),
      ("priority".toList, JsonText.writeInt p.priority.toInt),
      ("kv_ttl_ms".toList, JsonText.writeInt p.kvTtlMs.toInt),
      ("debug".toList, JsonText.writeBool p.debug),
      ("updated_at_unix_ms".toList, JsonText.writeInt p.updatedAt.toInt)]

-- `Encode` of an encoder.
def HintProfile.encode (p : HintProfile) : List Char := p.marshal ++ ['\n']

/-! ## Decoding -/

mutual

def ofText : JsonText.Json → Json
  | .null => .null
  | .bool b => .bool b
  | .number literal =>
    match readSigned literal with
    | some n => .integer n
    | none => .decimal (String.ofList literal)
  | .string value => .string (String.ofList value)
  | .array elements => .array (ofElements elements)
  | .object members => .object (ofMembers members)

def ofElements : List JsonText.Json → List Json
  | [] => []
  | v :: vs => ofText v :: ofElements vs

def ofMembers : List (List Char × JsonText.Json) → List (String × Json)
  | [] => []
  | (name, v) :: ms => (String.ofList name, ofText v) :: ofMembers ms

end

def maxNestingDepth : Nat := 10000

/-- The value a body begins with; a decoder reads no further. -/
def readBody (body : List Char) : Option Json :=
  (JsonText.readValue maxNestingDepth body).map fun r ↦ ofText r.1

-- `Decode` into a zero `HintProfile`.
def decodeText (body : List Char) : Option HintProfile := (readBody body).bind decode

/-! ## The endpoint -/

/-- A request to `/hints`, and when it is handled. -/
structure Request where
  method : Method
  body : List Char
  now : Int64

structure Reply where
  status : Nat
  body : List Char
deriving DecidableEq, Repr

-- `message` is what the decoder says about a body it rejects.
def Response.reply (message : String) : Response → Reply
  | .profile p => ⟨200, p.encode⟩
  | .noContent => ⟨204, []⟩
  | .invalidJson => ⟨400, ("invalid JSON: " ++ message ++ "\n").toList⟩
  | .methodNotAllowed => ⟨405, "method not allowed\n".toList⟩

section Serve

variable (message : List Char → String)

def HintsStore.serve (store : HintsStore) (request : Request) : HintsStore × Reply :=
  let (store, response) := store.hints request.method (readBody request.body) request.now
  (store, response.reply (message request.body))

/-- The store after some requests, and the replies to them. -/
def HintsStore.serveAll (store : HintsStore) : List Request → HintsStore × List Reply
  | [] => (store, [])
  | request :: requests =>
    let (store, reply) := store.serve message request
    let (store, replies) := store.serveAll requests
    (store, reply :: replies)

end Serve

/-! ## Members -/

theorem htmlMarked_lt (c : Char) (h : htmlMarked c = true) : c.toNat < 0x10000 := by
  simp only [htmlMarked, Bool.or_eq_true, decide_eq_true_eq] at h
  rcases h with (((rfl | rfl) | rfl) | rfl) | rfl <;> decide

theorem readSigned_writeInt (n : Int) : readSigned (JsonText.writeInt n) = some n := by
  cases n with
  | ofNat n =>
    rw [Int.ofNat_eq_natCast, JsonText.writeInt_ofNat]
    exact readSigned_toDigits n
  | negSucc n =>
    rw [JsonText.writeInt_negSucc, readSigned, readNat_toDigits]
    rfl

theorem decodeInt_toInt (field n : Int64) : decodeInt field (.integer n.toInt) = some n := by
  rw [decodeInt, if_pos ⟨Int64.le_toInt n, Int64.toInt_lt n⟩, Int64.ofInt_toInt]

/-! ## Round trip -/

-- The fields with their names: as they are written, and as they are read.
def HintProfile.members (p : HintProfile) : List (List Char × List Char × JsonText.Json) :=
  [("model_id".toList, JsonText.writeString htmlMarked p.modelId.toList,
      .string p.modelId.toList),
    ("priority".toList, JsonText.writeInt p.priority.toInt,
      .number (JsonText.writeInt p.priority.toInt)),
    ("kv_ttl_ms".toList, JsonText.writeInt p.kvTtlMs.toInt,
      .number (JsonText.writeInt p.kvTtlMs.toInt)),
    ("debug".toList, JsonText.writeBool p.debug, .bool p.debug),
    ("updated_at_unix_ms".toList, JsonText.writeInt p.updatedAt.toInt,
      .number (JsonText.writeInt p.updatedAt.toInt))]

theorem readValue_members (p : HintProfile) (depth : Nat) :
    ∀ m ∈ p.members, JsonText.readValue depth m.2.1 = some (m.2.2, []) := by
  intro m hm
  simp only [HintProfile.members, List.mem_cons, List.not_mem_nil, or_false] at hm
  rcases hm with rfl | rfl | rfl | rfl | rfl
  · exact JsonText.readValue_writeString htmlMarked_lt _
  · exact JsonText.readValue_writeInt _
  · exact JsonText.readValue_writeInt _
  · exact JsonText.readValue_writeBool _
  · exact JsonText.readValue_writeInt _

theorem ofText_members (p : HintProfile) :
    ofText (.object (p.members.map fun m ↦ (m.1, m.2.2))) =
      .object [("model_id", .string p.modelId), ("priority", .integer p.priority.toInt),
        ("kv_ttl_ms", .integer p.kvTtlMs.toInt), ("debug", .bool p.debug),
        ("updated_at_unix_ms", .integer p.updatedAt.toInt)] := by
  simp only [HintProfile.members, List.map_cons, List.map_nil, ofText, ofMembers,
    readSigned_writeInt, String.ofList_toList]

theorem decode_members (p : HintProfile) :
    decode (.object [("model_id", .string p.modelId), ("priority", .integer p.priority.toInt),
      ("kv_ttl_ms", .integer p.kvTtlMs.toInt), ("debug", .bool p.debug),
      ("updated_at_unix_ms", .integer p.updatedAt.toInt)]) = some p := by
  have hmodelId (q : HintProfile) : q.decodeMember ("model_id", .string p.modelId) =
      some { q with modelId := p.modelId } := if_pos rfl
  have hpriority (q : HintProfile) : q.decodeMember ("priority", .integer p.priority.toInt) =
      some { q with priority := p.priority } := by
    rw [HintProfile.decodeMember]
    dsimp only
    rw [if_neg (by decide), if_pos rfl, decodeInt_toInt]
    rfl
  have hkvTtlMs (q : HintProfile) : q.decodeMember ("kv_ttl_ms", .integer p.kvTtlMs.toInt) =
      some { q with kvTtlMs := p.kvTtlMs } := by
    rw [HintProfile.decodeMember]
    dsimp only
    rw [if_neg (by decide), if_neg (by decide), if_pos rfl,
      decodeInt_toInt]
    rfl
  have hdebug (q : HintProfile) : q.decodeMember ("debug", .bool p.debug) =
      some { q with debug := p.debug } := by
    rw [HintProfile.decodeMember]
    dsimp only
    rw [if_neg (by decide), if_neg (by decide), if_neg (by decide),
      if_pos rfl]
    rfl
  have hupdatedAt (q : HintProfile) :
      q.decodeMember ("updated_at_unix_ms", .integer p.updatedAt.toInt) =
        some { q with updatedAt := p.updatedAt } := by
    rw [HintProfile.decodeMember]
    dsimp only
    rw [if_neg (by decide), if_neg (by decide), if_neg (by decide),
      if_neg (by decide), if_pos rfl, decodeInt_toInt]
    rfl
  simp only [decode, List.foldlM_cons, List.foldlM_nil, hmodelId, hpriority, hkvTtlMs, hdebug,
    hupdatedAt, Option.bind_eq_bind, Option.bind_some]
  rfl

/-- A profile is decoded from its text, whatever stands behind it. -/
theorem decodeText_marshal (p : HintProfile) (t : List Char) :
    decodeText (p.marshal ++ t) = some p := by
  have hobject := JsonText.readValue_writeObject htmlMarked_lt (readValue_members p 9999)
  have happend := JsonText.readValue_append hobject (t := t) fun _ h ↦ by cases h
  have hread : readBody (p.marshal ++ t) =
      some (ofText (.object (p.members.map fun m ↦ (m.1, m.2.2)))) := by
    rw [readBody, maxNestingDepth]
    exact congrArg (Option.map _) happend
  rw [decodeText, hread, ofText_members]
  exact decode_members p

variable {message : List Char → String}

theorem serve_put {body : List Char} {p : HintProfile} (h : decodeText body = some p)
    (store : HintsStore) (now : Int64) :
    store.serve message ⟨.put, body, now⟩ = (store.update p now, ⟨204, []⟩) := by
  rw [decodeText] at h
  rw [HintsStore.serve, HintsStore.hints]
  dsimp only
  rw [h]
  rfl

/-- The active profile goes over the wire unchanged: the datagram and the body of `GET` are decoded
to it in every field, whatever stands behind them, and another control plane that is `PUT` the
body, from whatever state, has the profile in force with a timestamp of its own. -/
theorem profile_over_wire (store other : HintsStore) (body : List Char) (asked : Int64)
    (t : List Char) (now : Int64) :
    decodeText (store.active.marshal ++ t) = some store.active ∧
      let reply := (store.serve message ⟨.get, body, asked⟩).2
      reply.status = 200 ∧ decodeText (reply.body ++ t) = some store.active ∧
        ∃ other', other.serve message ⟨.put, reply.body ++ t, now⟩ = (other', ⟨204, []⟩) ∧
          other'.active = { store.active with updatedAt := now } := by
  have hbody : decodeText (store.active.encode ++ t) = some store.active := by
    rw [HintProfile.encode, List.append_assoc]
    exact decodeText_marshal store.active _
  exact ⟨decodeText_marshal store.active t, rfl, hbody, _, serve_put hbody other now, rfl⟩

/-! ## What stands behind a body -/

-- A number is no profile.
theorem decode_number (literal : List Char) : decode (ofText (.number literal)) = none := by
  rw [ofText]
  cases readSigned literal <;> rfl

theorem decodeText_append {body : List Char} {p : HintProfile} (h : decodeText body = some p)
    (t : List Char) : decodeText (body ++ t) = some p := by
  obtain ⟨json, hjson, hdecode⟩ := Option.bind_eq_some_iff.mp h
  obtain ⟨⟨v, rest⟩, hread, rfl⟩ := Option.map_eq_some_iff.mp hjson
  have happend := JsonText.readValue_append hread (t := t) (by
    rintro literal rfl
    rw [decode_number] at hdecode
    cases hdecode)
  rw [decodeText, readBody, happend]
  exact hdecode

/-- The same request, but for text behind a body that is accepted. -/
def Request.Extends (request request' : Request) : Prop :=
  request'.method = request.method ∧ request'.now = request.now ∧
    (request'.body = request.body ∨
      (decodeText request.body).isSome ∧ ∃ t, request'.body = request.body ++ t)

theorem serve_extends {request request' : Request} (h : request.Extends request')
    (store : HintsStore) : store.serve message request' = store.serve message request := by
  obtain ⟨method, body, now⟩ := request
  obtain ⟨method', body', now'⟩ := request'
  obtain ⟨hmethod, hnow, hbody⟩ := h
  dsimp only at hmethod hnow hbody
  subst hmethod hnow
  rcases hbody with rfl | ⟨haccepted, t, rfl⟩
  · rfl
  · cases method' with
    | get => rfl
    | put =>
      obtain ⟨p, hp⟩ := Option.isSome_iff_exists.mp haccepted
      rw [serve_put hp, serve_put (decodeText_append hp t)]
    | other name => rfl

/-- Text behind a body that is accepted changes nothing: two sequences of requests that differ in
such text alone get the same replies and leave the same store. -/
theorem text_behind_ignored {requests requests' : List Request}
    (h : List.Forall₂ Request.Extends requests requests') (store : HintsStore) :
    store.serveAll message requests' = store.serveAll message requests := by
  induction h generalizing store with
  | nil => rfl
  | cons hrequest _ ih => simp only [HintsStore.serveAll, serve_extends hrequest, ih]

-- A profile, once alone and once with a second one behind it.
def emptyProfile : Request := ⟨.put, ['{', '}'], 1700000000000⟩

def twoProfiles : Request := ⟨.put, ['{', '}', '{', '}'], 1700000000000⟩

theorem twoProfiles_served :
    newHintsStore.serveAll (fun _ ↦ "unexpected EOF") [twoProfiles] =
      newHintsStore.serveAll (fun _ ↦ "unexpected EOF") [emptyProfile] := by
  have haccepted : (decodeText emptyProfile.body).isSome := by decide +kernel
  have hextends : emptyProfile.Extends twoProfiles :=
    ⟨rfl, rfl, .inr ⟨haccepted, ['{', '}'], rfl⟩⟩
  exact text_behind_ignored (.cons hextends .nil) newHintsStore

end AsrServe.AgenticFactory.ControlPlane
