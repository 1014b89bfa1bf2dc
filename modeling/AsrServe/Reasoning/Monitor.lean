import AsrServe.Reasoning.Dict
import AsrServe.Reasoning.Runs

/-!
# Objects behind a lock

The methods of an object, called by any number of threads and carried out one access at a time.
Around its accesses a method holds the lock of the object, alone or together with other readers.
To the callers it looks as if every call had been carried out at once, in some order that never
contradicts real time.
-/

namespace AsrServe.Reasoning

/-- How a lock is held: alone, or together with others that only read. -/
inductive Mode where
  | exclusive
  | shared
deriving DecidableEq, Repr

def Mode.compatible : Mode → Mode → Bool
  | .shared, .shared => true
  | _, _ => false

@[simp] theorem Mode.exclusive_compatible (mode : Mode) :
    Mode.exclusive.compatible mode = false := rfl

theorem Mode.compatible_comm (mode mode' : Mode) :
    mode.compatible mode' = mode'.compatible mode := by
  cases mode <;> cases mode' <;> rfl

/-- What a method does with the object and its lock, one step at a time. -/
inductive Code (σ ρ : Type) where
  | ret (result : ρ)
  -- What the access stores, and how to go on with what it has read.
  | access (store : σ → σ) (next : σ → Code σ ρ)
  | acquire (mode : Mode) (next : Code σ ρ)
  | release (next : Code σ ρ)

namespace Code

variable {σ ρ ρ' : Type}

/-- The result and the object when nobody else is around. -/
def eval : Code σ ρ → σ → ρ × σ
  | ret result, s => (result, s)
  | access store next, s => (next s).eval (store s)
  | acquire _ next, s => next.eval s
  | release next, s => next.eval s

def bind : Code σ ρ → (ρ → Code σ ρ') → Code σ ρ'
  | ret result, k => k result
  | access store next, k => access store fun s ↦ (next s).bind k
  | acquire mode next, k => acquire mode (next.bind k)
  | release next, k => release (next.bind k)

instance : Monad (Code σ) where
  pure := ret
  bind := bind

def read : Code σ σ := access id ret

def modify (store : σ → σ) : Code σ Unit := access store fun _ ↦ ret ()

-- `with lock:` around a body.
def locked (mode : Mode) (body : Code σ ρ) : Code σ ρ :=
  acquire mode (body.bind fun result ↦ release (ret result))

/-- Code run by a thread that holds the lock, `depth` times more than it does at the end.  It
acquires the lock again only if that is possible, and as a reader it stores nothing. -/
def Under (reentrant : Bool) (mode : Mode) : Code σ ρ → Nat → Prop
  | ret _, depth => depth = 0
  | access store next, depth =>
    (mode = .shared → store = id) ∧ ∀ s, (next s).Under reentrant mode depth
  | acquire mode' next, depth =>
    reentrant = true ∧ mode' = mode ∧ next.Under reentrant mode (depth + 1)
  | release _, 0 => False
  | release next, depth + 1 => next.Under reentrant mode depth

/-- The rest of a method that holds the lock, `depth` times more than once: with the last release
it is through. -/
def Inside (reentrant : Bool) (mode : Mode) : Code σ ρ → Nat → Prop
  | ret _, _ => False
  | access store next, depth =>
    (mode = .shared → store = id) ∧ ∀ s, (next s).Inside reentrant mode depth
  | acquire mode' next, depth =>
    reentrant = true ∧ mode' = mode ∧ next.Inside reentrant mode (depth + 1)
  | release next, 0 => ∃ result, next = ret result
  | release next, depth + 1 => next.Inside reentrant mode depth

/-- A body with the lock around it. -/
def Critical (reentrant : Bool) (mode : Mode) (code : Code σ ρ) : Prop :=
  ∃ body : Code σ ρ, code = locked mode body ∧ body.Under reentrant mode 0

/-- All accesses are made under the lock, which is taken once. -/
inductive Guarded (reentrant : Bool) : Code σ ρ → Prop
  | free (result : ρ) : Guarded reentrant (ret result)
  | locked {mode : Mode} {next : Code σ ρ} (h : next.Inside reentrant mode 0) :
    Guarded reentrant (acquire mode next)

variable {reentrant : Bool} {mode : Mode} {code : Code σ ρ} {k : ρ → Code σ ρ'} {depth : Nat}

theorem eval_bind (code : Code σ ρ) (k : ρ → Code σ ρ') (s : σ) :
    (code.bind k).eval s = (k (code.eval s).1).eval (code.eval s).2 := by
  induction code generalizing s with
  | ret result => rfl
  | access store next ih => exact ih s (store s)
  | acquire mode next ih => exact ih s
  | release next ih => exact ih s

-- Alone, a method is not slowed down by its lock.
theorem eval_locked (mode : Mode) (body : Code σ ρ) (s : σ) :
    (locked mode body).eval s = body.eval s := eval_bind body _ s

theorem under_pure (result : ρ) : (pure result : Code σ ρ).Under reentrant mode 0 := rfl

theorem under_read : (read : Code σ σ).Under reentrant mode 0 := ⟨fun _ ↦ rfl, fun _ ↦ rfl⟩

theorem under_modify (store : σ → σ) : (modify store).Under reentrant .exclusive 0 :=
  ⟨fun h ↦ (by cases h), fun _ ↦ rfl⟩

theorem Under.bind (h : code.Under reentrant mode depth)
    (hk : ∀ result, (k result).Under reentrant mode 0) :
    (code.bind k).Under reentrant mode depth := by
  induction code generalizing depth with
  | ret result =>
    obtain rfl : depth = 0 := h
    exact hk result
  | access store next ih => exact ⟨h.1, fun s ↦ ih s (h.2 s)⟩
  | acquire mode' next ih => exact ⟨h.1, h.2.1, ih h.2.2⟩
  | release next ih =>
    cases depth with
    | zero => exact h.elim
    | succ depth => exact ih h

-- The body of a method, up to the release at its end.
theorem Under.inside (h : code.Under reentrant mode depth) :
    (code.bind fun result ↦ release (ret result)).Inside reentrant mode depth := by
  induction code generalizing depth with
  | ret result =>
    obtain rfl : depth = 0 := h
    exact ⟨result, rfl⟩
  | access store next ih => exact ⟨h.1, fun s ↦ ih s (h.2 s)⟩
  | acquire mode' next ih => exact ⟨h.1, h.2.1, ih h.2.2⟩
  | release next ih =>
    cases depth with
    | zero => exact h.elim
    | succ depth => exact ih h

theorem Critical.guarded (h : code.Critical reentrant mode) : code.Guarded reentrant := by
  obtain ⟨body, rfl, hbody⟩ := h
  exact .locked hbody.inside

-- A method called by one that holds the lock.
theorem Critical.under (h : code.Critical true mode) : code.Under true mode 0 := by
  obtain ⟨body, rfl, hbody⟩ := h
  refine ⟨rfl, rfl, ?_⟩
  suffices ∀ depth, body.Under true mode depth →
      (body.bind fun result ↦ release (ret result)).Under true mode (depth + 1) from this 0 hbody
  clear hbody
  induction body with
  | ret result =>
    intro depth h
    obtain rfl : depth = 0 := h
    exact rfl
  | access store next ih => exact fun depth h ↦ ⟨h.1, fun s ↦ ih s depth (h.2 s)⟩
  | acquire mode' next ih => exact fun depth h ↦ ⟨h.1, h.2.1, ih (depth + 1) h.2.2⟩
  | release next ih =>
    intro depth h
    cases depth with
    | zero => exact h.elim
    | succ depth => exact ih depth h

-- What is done with the result needs no lock.
theorem Inside.map (f : ρ → ρ') (h : code.Inside reentrant mode depth) :
    (code.bind fun result ↦ ret (f result)).Inside reentrant mode depth := by
  induction code generalizing depth with
  | ret result => exact h.elim
  | access store next ih => exact ⟨h.1, fun s ↦ ih s (h.2 s)⟩
  | acquire mode' next ih => exact ⟨h.1, h.2.1, ih h.2.2⟩
  | release next ih =>
    cases depth with
    | zero =>
      obtain ⟨result, rfl⟩ := h
      exact ⟨f result, rfl⟩
    | succ depth => exact ih h

theorem Guarded.map (f : ρ → ρ') (h : code.Guarded reentrant) :
    (code.bind fun result ↦ ret (f result)).Guarded reentrant := by
  cases h with
  | free result => exact .free (f result)
  | locked h => exact .locked (h.map f)

-- A reader leaves the object as it is.
theorem Inside.eval_shared (h : code.Inside reentrant .shared depth) (s : σ) :
    (code.eval s).2 = s := by
  induction code generalizing depth s with
  | ret result => exact h.elim
  | access store next ih =>
    obtain rfl := h.1 rfl
    exact ih s (h.2 s) s
  | acquire mode next ih => exact ih h.2.2 s
  | release next ih =>
    cases depth with
    | zero =>
      obtain ⟨result, rfl⟩ := h
      rfl
    | succ depth => exact ih h s

end Code

/-- The class of an object: for each operation its code, guarded, and what it comes to. -/
structure Monitor (Op σ ρ : Type) where
  -- Whether a thread may acquire the lock it holds.
  reentrant : Bool
  method : Op → Code σ ρ
  spec : Op → σ → ρ × σ
  guarded : ∀ op, (method op).Guarded reentrant
  eval_eq : ∀ op s, (method op).eval s = spec op s

namespace Monitor

variable {Op σ ρ : Type}

/-- A call on its way. -/
structure Call (Op σ ρ : Type) where
  op : Op
  code : Code σ ρ
  -- The modes the lock is held in, the last acquisition first.
  held : List Mode := []
  returned : Bool := false

/-- The object and its calls so far. -/
structure Config (Op σ ρ : Type) where
  object : σ
  calls : Dict Nat (Call Op σ ρ) := Dict.empty

inductive Event (Op : Type) where
  | invoke (call : Nat) (op : Op)
  | advance (call : Nat)
  | returns (call : Nat)
deriving DecidableEq, Repr

-- Every other call that holds the lock can share it.
def Config.admits (s : Config Op σ ρ) (call : Nat) (mode : Mode) : Bool :=
  s.calls.entries.all fun (k, c) ↦ k == call || c.held.all mode.compatible

def Config.put (s : Config Op σ ρ) (call : Nat) (c : Call Op σ ρ) : Config Op σ ρ :=
  { s with calls := s.calls.set call c }

variable (m : Monitor Op σ ρ)

def step (s : Config Op σ ρ) : Event Op → Option (Config Op σ ρ)
  | .invoke call op =>
    if call ∈ s.calls then none else some (s.put call { op, code := m.method op })
  | .advance call =>
    match s.calls.get? call with
    | none => none
    | some c =>
      match c.code with
      | .ret _ => none
      | .access store next =>
        some { s.put call { c with code := next s.object } with object := store s.object }
      | .acquire mode next =>
        if s.admits call mode ∧ (c.held = [] ∨ m.reentrant) then
          some (s.put call { c with code := next, held := mode :: c.held })
        else
          none
      | .release next =>
        match c.held with
        | [] => none
        | _ :: held => some (s.put call { c with code := next, held := held })
  | .returns call =>
    match s.calls.get? call with
    | none => none
    | some c =>
      match c.code, c.returned with
      | .ret _, false => some (s.put call { c with returned := true })
      | _, _ => none

theorem Config.admits_iff {s : Config Op σ ρ} {call : Nat} {mode : Mode} :
    s.admits call mode = true ↔ ∀ other o, other ≠ call → s.calls.get? other = some o →
      ∀ mode' ∈ o.held, mode.compatible mode' = true := by
  simp only [admits, List.all_eq_true, Prod.forall, Dict.mem_entries_iff, Bool.or_eq_true,
    beq_iff_eq, or_iff_not_imp_left]
  exact ⟨fun h other o hne ho ↦ h other o ho hne, fun h other o ho hne ↦ h other o hne ho⟩

/-! ## What an event does -/

inductive Moves (s : Config Op σ ρ) : Event Op → Config Op σ ρ → Prop where
  | invokes {call : Nat} {op : Op} (hnew : call ∉ s.calls) :
    Moves s (.invoke call op) (s.put call { op, code := m.method op })
  | accesses {call : Nat} {c : Call Op σ ρ} {store : σ → σ} {next : σ → Code σ ρ}
      (hc : s.calls.get? call = some c) (hcode : c.code = .access store next) :
    Moves s (.advance call)
      { s.put call { c with code := next s.object } with object := store s.object }
  | acquires {call : Nat} {c : Call Op σ ρ} {mode : Mode} {next : Code σ ρ}
      (hc : s.calls.get? call = some c) (hcode : c.code = .acquire mode next)
      (hadmits : s.admits call mode = true) (hheld : c.held = [] ∨ m.reentrant = true) :
    Moves s (.advance call) (s.put call { c with code := next, held := mode :: c.held })
  | releases {call : Nat} {c : Call Op σ ρ} {next : Code σ ρ} {mode : Mode} {held : List Mode}
      (hc : s.calls.get? call = some c) (hcode : c.code = .release next)
      (hheld : c.held = mode :: held) :
    Moves s (.advance call) (s.put call { c with code := next, held := held })
  | returns {call : Nat} {c : Call Op σ ρ} {result : ρ} (hc : s.calls.get? call = some c)
      (hcode : c.code = .ret result) (hreturned : c.returned = false) :
    Moves s (.returns call) (s.put call { c with returned := true })

theorem step_moves {s s' : Config Op σ ρ} {event : Event Op} (hstep : m.step s event = some s') :
    m.Moves s event s' := by
  cases event with
  | invoke call op =>
    rw [step, Option.ite_none_left_eq_some, Option.some.injEq] at hstep
    obtain ⟨hnew, rfl⟩ := hstep
    exact .invokes hnew
  | advance call =>
    simp only [step] at hstep
    split at hstep
    · cases hstep
    · rename_i c hc
      split at hstep
      · cases hstep
      · rename_i store next hcode
        cases hstep
        exact .accesses hc hcode
      · rename_i mode next hcode
        rw [Option.ite_none_right_eq_some, Option.some.injEq] at hstep
        obtain ⟨⟨hadmits, hheld⟩, rfl⟩ := hstep
        exact .acquires hc hcode hadmits hheld
      · rename_i next hcode
        split at hstep
        · cases hstep
        · rename_i mode held hheld
          cases hstep
          exact .releases hc hcode hheld
  | returns call =>
    simp only [step] at hstep
    split at hstep
    · cases hstep
    · rename_i c hc
      split at hstep
      · rename_i result hcode hreturned
        cases hstep
        exact .returns hc hcode hreturned
      · cases hstep

/-! ## One call after the other -/

-- The object after the calls of a list, each carried out at once.
def replay (object0 : σ) (order : List (Nat × Op)) : σ :=
  order.foldl (fun s call ↦ (m.spec call.2 s).2) object0

theorem replay_concat (object0 : σ) (order : List (Nat × Op)) (call : Nat) (op : Op) :
    m.replay object0 (order ++ [(call, op)]) = (m.spec op (m.replay object0 order)).2 :=
  List.foldl_concat ..

/-- `order` puts `call` where carrying out `op` gives `result`. -/
def Places (object0 : σ) (order : List (Nat × Op)) (call : Nat) (op : Op) (result : ρ) : Prop :=
  ∃ pre post, order = pre ++ (call, op) :: post ∧ result = (m.spec op (m.replay object0 pre)).1

/-- How far a call has come, and its place in the order of those that had the lock. -/
inductive Stage (object0 : σ) (order : List (Nat × Op)) (object : σ) (call : Nat)
    (c : Call Op σ ρ) : Prop where
  | waiting {mode : Mode} {next : Code σ ρ} (hcode : c.code = .acquire mode next)
      (hmethod : m.method c.op = c.code) (hinside : next.Inside m.reentrant mode 0)
      (hheld : c.held = []) (hreturned : c.returned = false)
      (horder : call ∉ order.map Prod.fst)
  | inside {pre post : List (Nat × Op)} {mode : Mode} {depth : Nat}
      (horder : order = pre ++ (call, c.op) :: post)
      (hheld : c.held = List.replicate (depth + 1) mode)
      (hinside : c.code.Inside m.reentrant mode depth)
      -- the rest of its code leads where the whole of it would have led
      (heval : c.code.eval object = m.spec c.op (m.replay object0 pre))
      (hafter : mode = .exclusive →
        m.replay object0 order = (m.spec c.op (m.replay object0 pre)).2)
  | done {result : ρ} (hcode : c.code = .ret result) (hheld : c.held = [])
      (hplace : m.Places object0 order call c.op result)

variable {m} {object0 : σ} {order : List (Nat × Op)} {object : σ} {call : Nat} {c : Call Op σ ρ}

-- Another call joins the order.
theorem Stage.extend (h : m.Stage object0 order object call c) {call' : Nat} {op' : Op}
    (hne : call' ≠ call)
    (hneutral : .exclusive ∈ c.held →
      m.replay object0 (order ++ [(call', op')]) = m.replay object0 order) :
    m.Stage object0 (order ++ [(call', op')]) object call c := by
  cases h with
  | waiting hcode hmethod hinside hheld hreturned horder =>
    refine .waiting hcode hmethod hinside hheld hreturned ?_
    rw [List.map_append, List.mem_append, not_or]
    exact ⟨horder, fun h ↦ hne (List.mem_singleton.mp h).symm⟩
  | @inside pre post mode depth horder hheld hinside heval hafter =>
    have horder' : order ++ [(call', op')] = pre ++ (call, c.op) :: (post ++ [(call', op')]) := by
      rw [horder, List.append_assoc, List.cons_append]
    refine .inside horder' hheld hinside heval fun hmode ↦ ?_
    rw [hneutral (by rw [hheld, hmode]; exact List.mem_replicate.mpr ⟨by omega, rfl⟩)]
    exact hafter hmode
  | done hcode hheld hplace =>
    obtain ⟨pre, post, horder, hresult⟩ := hplace
    refine .done hcode hheld ⟨pre, post ++ [(call', op')], ?_, hresult⟩
    rw [horder, List.append_assoc, List.cons_append]

-- A call that does not hold the lock knows nothing of the object.
theorem Stage.store (h : m.Stage object0 order object call c) (hheld : c.held = []) (object' : σ) :
    m.Stage object0 order object' call c := by
  cases h with
  | waiting hcode hmethod hinside hheld hreturned horder =>
    exact .waiting hcode hmethod hinside hheld hreturned horder
  | inside horder hheld' => rw [hheld] at hheld'; cases hheld'
  | done hcode hheld hplace => exact .done hcode hheld hplace

/-- The calls of `order` are those that have had the lock; nobody reads while another stores. -/
structure Inv (object0 : σ) (order : List (Nat × Op)) (s : Config Op σ ρ) : Prop where
  nodup : (order.map Prod.fst).Nodup
  known : ∀ call op, (call, op) ∈ order → ∃ c, s.calls.get? call = some c ∧ c.op = op
  stage : ∀ call c, s.calls.get? call = some c → m.Stage object0 order s.object call c
  exclusion : ∀ call call' c c', call ≠ call' → s.calls.get? call = some c →
    s.calls.get? call' = some c' → ∀ mode ∈ c.held, ∀ mode' ∈ c'.held, mode.compatible mode'
  object_eq : (∀ call c, s.calls.get? call = some c → .exclusive ∉ c.held) →
    s.object = m.replay object0 order

variable {s s' : Config Op σ ρ}

-- A call that has returned had the lock before.
theorem Inv.mem_of_returned (h : m.Inv object0 order s) (hc : s.calls.get? call = some c)
    (hreturned : c.returned = true) : call ∈ order.map Prod.fst := by
  cases h.stage call c hc with
  | waiting _ _ _ _ hnot => rw [hreturned] at hnot; cases hnot
  | inside horder =>
    rw [horder, List.map_append, List.map_cons]
    exact List.mem_append_right _ List.mem_cons_self
  | done _ _ hplace =>
    obtain ⟨pre, post, horder, -⟩ := hplace
    rw [horder, List.map_append, List.map_cons]
    exact List.mem_append_right _ List.mem_cons_self

theorem Inv.not_mem_order (h : m.Inv object0 order s) (hnew : call ∉ s.calls) :
    call ∉ order.map Prod.fst := by
  intro hmem
  obtain ⟨⟨_, op⟩, hentry, rfl⟩ := List.mem_map.mp hmem
  obtain ⟨c, hc, -⟩ := h.known _ op hentry
  rw [Dict.not_mem_iff, hc] at hnew
  cases hnew

theorem Inv.object_eq_of (h : m.Inv object0 order s)
    (hown : ∀ c, s.calls.get? call = some c → .exclusive ∉ c.held)
    (hothers : ∀ other o, other ≠ call → s.calls.get? other = some o → .exclusive ∉ o.held) :
    s.object = m.replay object0 order := by
  refine h.object_eq fun other o ho ↦ ?_
  by_cases hother : other = call
  · exact hown o (hother ▸ ho)
  · exact hothers other o hother ho

/-- What has to be shown when one call moves on, and with it perhaps the object and the order. -/
theorem Inv.put (h : m.Inv object0 order s) {order' : List (Nat × Op)} {object' : σ}
    (hop : ∀ old, s.calls.get? call = some old → old.op = c.op)
    (horder : order' = order ∨
      order' = order ++ [(call, c.op)] ∧ call ∉ order.map Prod.fst)
    (hstage : m.Stage object0 order' object' call c)
    (hothers : ∀ other o, other ≠ call → s.calls.get? other = some o →
      m.Stage object0 order' object' other o)
    (hcompatible : ∀ other o, other ≠ call → s.calls.get? other = some o →
      ∀ mode ∈ o.held, ∀ mode' ∈ c.held, mode.compatible mode')
    (hobject : .exclusive ∉ c.held →
      (∀ other o, other ≠ call → s.calls.get? other = some o → .exclusive ∉ o.held) →
        object' = m.replay object0 order') :
    m.Inv object0 order' { s.put call c with object := object' } where
  nodup := by
    rcases horder with rfl | ⟨rfl, hnew⟩
    · exact h.nodup
    · rw [List.map_append, List.map_singleton, ← List.concat_eq_append, List.nodup_concat]
      exact ⟨hnew, h.nodup⟩
  known := by
    intro other op hmem
    show ∃ o, (s.calls.set call c).get? other = some o ∧ o.op = op
    rw [Dict.get?_set]
    by_cases hother : other = call
    · subst hother
      refine ⟨c, if_pos rfl, ?_⟩
      rcases horder with rfl | ⟨rfl, hnew⟩
      · obtain ⟨old, hold, rfl⟩ := h.known other op hmem
        exact (hop old hold).symm
      · rcases List.mem_append.mp hmem with hmem | hmem
        · exact absurd (List.mem_map.mpr ⟨_, hmem, rfl⟩) hnew
        · cases List.mem_singleton.mp hmem
          rfl
    · rw [if_neg hother]
      rcases horder with rfl | ⟨rfl, -⟩
      · exact h.known other op hmem
      · rcases List.mem_append.mp hmem with hmem | hmem
        · exact h.known other op hmem
        · cases List.mem_singleton.mp hmem
          exact absurd rfl hother
  stage := by
    intro other o ho
    rcases Dict.get?_set_cases ho with ⟨rfl, rfl⟩ | ⟨hne, hold⟩
    · exact hstage
    · exact hothers other o hne hold
  exclusion := by
    intro other other' o o' hne ho ho' mode hmode mode' hmode'
    rcases Dict.get?_set_cases ho with ⟨rfl, rfl⟩ | ⟨hother, hold⟩
    · rcases Dict.get?_set_cases ho' with ⟨rfl, -⟩ | ⟨hother', hold'⟩
      · exact absurd rfl hne
      · rw [Mode.compatible_comm]
        exact hcompatible other' o' hother' hold' mode' hmode' mode hmode
    · rcases Dict.get?_set_cases ho' with ⟨rfl, rfl⟩ | ⟨-, hold'⟩
      · exact hcompatible other o hother hold mode hmode mode' hmode'
      · exact h.exclusion other other' o o' hne hold hold' mode hmode mode' hmode'
  object_eq := by
    intro hshared
    refine hobject (hshared call c (Dict.get?_set_self ..)) fun other o hne hold ↦ ?_
    exact hshared other o (by rw [← hold]; exact Dict.get?_set_of_ne _ _ hne)

theorem Inv.invokes (h : m.Inv object0 order s) {op : Op} (hnew : call ∉ s.calls) :
    ∃ order', (order' = order ∨ order' = order ++ [(call, op)]) ∧
      m.Inv object0 order' (s.put call { op, code := m.method op }) := by
  have hnone : s.calls.get? call = none := Dict.not_mem_iff.mp hnew
  have hop : ∀ old, s.calls.get? call = some old → old.op = op := by
    intro old hold
    rw [hnone] at hold
    cases hold
  have heval := m.eval_eq op (m.replay object0 order)
  cases hcode : m.method op with
  | ret result =>
    -- it never meets the lock, and takes its turn at once
    rw [hcode] at heval
    have hreplay : m.replay object0 (order ++ [(call, op)]) = m.replay object0 order := by
      rw [replay_concat, ← heval]
      rfl
    refine ⟨order ++ [(call, op)], .inr rfl,
      h.put hop (.inr ⟨rfl, h.not_mem_order hnew⟩) ?_ ?_ ?_ ?_⟩
    · exact .done rfl rfl ⟨order, [], rfl, congrArg Prod.fst heval⟩
    · exact fun other o hne ho ↦ (h.stage other o ho).extend (Ne.symm hne) fun _ ↦ hreplay
    · exact fun _ _ _ _ _ _ _ hmode' ↦ absurd hmode' List.not_mem_nil
    · intro _ hshared
      rw [hreplay]
      exact h.object_eq_of (fun old hold ↦ by rw [hnone] at hold; cases hold) hshared
  | access store next =>
    have hguarded := m.guarded op
    rw [hcode] at hguarded
    cases hguarded
  | acquire mode next =>
    have hguarded := m.guarded op
    rw [hcode] at hguarded
    obtain - | hinside := hguarded
    refine ⟨order, .inl rfl, h.put hop (.inl rfl) ?_ ?_ ?_ ?_⟩
    · exact .waiting rfl hcode hinside rfl rfl (h.not_mem_order hnew)
    · exact fun other o _ ho ↦ h.stage other o ho
    · exact fun _ _ _ _ _ _ _ hmode' ↦ absurd hmode' List.not_mem_nil
    · intro _ hshared
      exact h.object_eq_of (fun old hold ↦ by rw [hnone] at hold; cases hold) hshared
  | release next =>
    have hguarded := m.guarded op
    rw [hcode] at hguarded
    cases hguarded

theorem Inv.accesses (h : m.Inv object0 order s) (hc : s.calls.get? call = some c)
    {store : σ → σ} {next : σ → Code σ ρ} (hcode : c.code = .access store next) :
    m.Inv object0 order
      { s.put call { c with code := next s.object } with object := store s.object } := by
  cases h.stage call c hc with
  | waiting hcode' => rw [hcode] at hcode'; cases hcode'
  | done hcode' => rw [hcode] at hcode'; cases hcode'
  | @inside pre post mode depth horder hheld hinside heval hafter =>
    rw [hcode] at hinside heval
    have hmode : mode ∈ c.held := by
      rw [hheld]
      exact List.mem_replicate.mpr ⟨by omega, rfl⟩
    refine h.put (fun old hold ↦ by rw [hc] at hold; cases hold; rfl) (.inl rfl)
      (.inside horder hheld (hinside.2 s.object) heval hafter) ?_ ?_ ?_
    · intro other o hne ho
      cases mode with
      | exclusive =>
        -- nobody else is inside
        have hfree : o.held = [] := by
          rw [List.eq_nil_iff_forall_not_mem]
          intro mode' hmode'
          cases h.exclusion call other c o (Ne.symm hne) hc ho _ hmode mode' hmode'
        exact (h.stage other o ho).store hfree _
      | shared =>
        rw [hinside.1 rfl]
        exact h.stage other o ho
    · exact fun other o hne ho mode hmode mode' hmode' ↦
        h.exclusion other call o c hne ho hc mode hmode mode' hmode'
    · intro hshared hothers
      cases mode with
      | exclusive => exact absurd hmode hshared
      | shared =>
        rw [hinside.1 rfl]
        exact h.object_eq_of (fun old hold ↦ by rw [hc] at hold; cases hold; exact hshared) hothers

theorem Inv.acquires (h : m.Inv object0 order s) (hc : s.calls.get? call = some c) {mode : Mode}
    {next : Code σ ρ} (hcode : c.code = .acquire mode next)
    (hadmits : s.admits call mode = true) :
    ∃ order', (order' = order ∨ order' = order ++ [(call, c.op)]) ∧
      m.Inv object0 order' (s.put call { c with code := next, held := mode :: c.held }) := by
  rw [Config.admits_iff] at hadmits
  have hop : ∀ old, s.calls.get? call = some old → old.op = c.op := by
    intro old hold
    rw [hc] at hold
    cases hold
    rfl
  cases h.stage call c hc with
  | done hcode' => rw [hcode] at hcode'; cases hcode'
  | waiting hcode' hmethod hinside hheld hreturned hnew =>
    rw [hcode, Code.acquire.injEq] at hcode'
    obtain ⟨rfl, rfl⟩ := hcode'
    -- whoever else holds the lock can share it
    have hreaders : ∀ other o, other ≠ call → s.calls.get? other = some o →
        .exclusive ∉ o.held := by
      intro other o hne ho hmem
      have hcompatible := hadmits other o hne ho _ hmem
      rw [Mode.compatible_comm, Mode.exclusive_compatible] at hcompatible
      cases hcompatible
    have hown : ∀ old, s.calls.get? call = some old → .exclusive ∉ old.held := by
      intro old hold
      rw [hc] at hold
      cases hold
      rw [hheld]
      exact List.not_mem_nil
    have hobject := h.object_eq_of hown hreaders
    have heval : next.eval s.object = m.spec c.op (m.replay object0 order) := by
      rw [← hobject, ← m.eval_eq, hmethod, hcode]
      rfl
    refine ⟨order ++ [(call, c.op)], .inr rfl, h.put hop (.inr ⟨rfl, hnew⟩) ?_ ?_ ?_ ?_⟩
    · have hheld' : mode :: c.held = List.replicate (0 + 1) mode := by
        rw [hheld]
        rfl
      exact .inside rfl hheld' hinside heval fun _ ↦ m.replay_concat object0 order call c.op
    · exact fun other o hne ho ↦ (h.stage other o ho).extend (Ne.symm hne)
        fun hmem ↦ absurd hmem (hreaders other o hne ho)
    · intro other o hne ho mode' hmode' mode'' hmode''
      rw [hheld] at hmode''
      rw [List.mem_singleton.mp hmode'', Mode.compatible_comm]
      exact hadmits other o hne ho mode' hmode'
    · intro hshared _
      cases mode with
      | exclusive => exact absurd List.mem_cons_self hshared
      | shared => rw [replay_concat, ← heval, hinside.eval_shared]
  | @inside pre post mode' depth horder hheld hinside heval hafter =>
    rw [hcode] at hinside heval
    obtain ⟨-, rfl, hinside⟩ := hinside
    have hmem : ∀ mode'', mode'' ∈ mode :: c.held ↔ mode'' ∈ c.held := by
      intro mode''
      simp [hheld, List.mem_replicate]
    refine ⟨order, .inl rfl, h.put hop (.inl rfl) ?_ ?_ ?_ ?_⟩
    · exact .inside horder (by rw [hheld]; rfl) hinside heval hafter
    · exact fun other o _ ho ↦ h.stage other o ho
    · exact fun other o hne ho mode' hmode' mode'' hmode'' ↦
        h.exclusion other call o c hne ho hc mode' hmode' mode'' ((hmem mode'').mp hmode'')
    · intro hshared
      rw [hmem] at hshared
      exact h.object_eq_of fun old hold ↦ by rw [hc] at hold; cases hold; exact hshared

theorem Inv.releases (h : m.Inv object0 order s) (hc : s.calls.get? call = some c)
    {next : Code σ ρ} {mode : Mode} {held : List Mode} (hcode : c.code = .release next)
    (hheld : c.held = mode :: held) :
    m.Inv object0 order (s.put call { c with code := next, held := held }) := by
  have hop : ∀ old, s.calls.get? call = some old → old.op = c.op := by
    intro old hold
    rw [hc] at hold
    cases hold
    rfl
  have hcompatible : ∀ other o, other ≠ call → s.calls.get? other = some o →
      ∀ mode' ∈ o.held, ∀ mode'' ∈ held, mode'.compatible mode'' := by
    intro other o hne ho mode' hmode' mode'' hmode''
    refine h.exclusion other call o c hne ho hc mode' hmode' mode'' ?_
    rw [hheld]
    exact List.mem_cons_of_mem _ hmode''
  cases h.stage call c hc with
  | waiting hcode' => rw [hcode] at hcode'; cases hcode'
  | done hcode' => rw [hcode] at hcode'; cases hcode'
  | @inside pre post mode' depth horder hheld' hinside heval hafter =>
    rw [hcode] at hinside heval
    rw [hheld, List.replicate_succ, List.cons.injEq] at hheld'
    obtain ⟨rfl, rfl⟩ := hheld'
    cases depth with
    | zero =>
      obtain ⟨result, rfl⟩ := hinside
      change (result, s.object) = _ at heval
      refine h.put hop (.inl rfl) ?_ (fun other o _ ho ↦ h.stage other o ho) hcompatible ?_
      · exact .done rfl rfl ⟨pre, post, horder, congrArg Prod.fst heval⟩
      · intro _ hothers
        cases mode with
        | exclusive =>
          -- what it has stored is what it was to store
          rw [hafter rfl, ← heval]
        | shared =>
          refine h.object_eq_of (fun old hold ↦ ?_) hothers
          rw [hc] at hold
          cases hold
          rw [hheld]
          simp
    | succ depth =>
      refine h.put hop (.inl rfl) ?_ (fun other o _ ho ↦ h.stage other o ho) hcompatible ?_
      · exact .inside horder rfl hinside heval hafter
      · intro hshared
        refine h.object_eq_of fun old hold ↦ ?_
        rw [hc] at hold
        cases hold
        rw [hheld, List.mem_cons, not_or]
        refine ⟨fun hmode ↦ hshared ?_, hshared⟩
        rw [hmode]
        exact List.mem_replicate.mpr ⟨by omega, rfl⟩

theorem Inv.returns (h : m.Inv object0 order s) (hc : s.calls.get? call = some c) {result : ρ}
    (hcode : c.code = .ret result) :
    m.Inv object0 order (s.put call { c with returned := true }) := by
  refine h.put (fun old hold ↦ by rw [hc] at hold; cases hold; rfl) (.inl rfl) ?_
    (fun other o _ ho ↦ h.stage other o ho)
    (fun other o hne ho ↦ h.exclusion other call o c hne ho hc) ?_
  · cases h.stage call c hc with
    | waiting hcode' => rw [hcode] at hcode'; cases hcode'
    | inside _ _ hinside => rw [hcode] at hinside; exact hinside.elim
    | done hcode' hheld hplace => exact .done hcode' hheld hplace
  · exact fun hshared ↦ h.object_eq_of fun old hold ↦ by rw [hc] at hold; cases hold; exact hshared

/-- Each event keeps the invariant; at most it puts one call at the end of the order. -/
theorem Inv.step (h : m.Inv object0 order s) {event : Event Op} (hstep : m.step s event = some s') :
    ∃ order', (order' = order ∨ ∃ entry, order' = order ++ [entry]) ∧ m.Inv object0 order' s' := by
  cases m.step_moves hstep with
  | invokes hnew =>
    obtain ⟨order', horder, hinv⟩ := h.invokes hnew
    exact ⟨order', horder.imp_right fun heq ↦ ⟨_, heq⟩, hinv⟩
  | accesses hc hcode => exact ⟨order, .inl rfl, h.accesses hc hcode⟩
  | acquires hc hcode hadmits =>
    obtain ⟨order', horder, hinv⟩ := h.acquires hc hcode hadmits
    exact ⟨order', horder.imp_right fun heq ↦ ⟨_, heq⟩, hinv⟩
  | releases hc hcode hheld => exact ⟨order, .inl rfl, h.releases hc hcode hheld⟩
  | returns hc hcode => exact ⟨order, .inl rfl, h.returns hc hcode⟩

/-! ## Whole runs -/

/-- The call `earlier` had returned when the call `later` was made. -/
def Before (events : List (Event Op)) (earlier later : Nat) : Prop :=
  ∃ past op rest, events = past ++ .invoke later op :: rest ∧ .returns earlier ∈ past

/-- `order` explains a run: as if each of its calls had been carried out at once, in this order. -/
structure Linearizes (m : Monitor Op σ ρ) (object0 : σ) (events : List (Event Op))
    (s : Config Op σ ρ) (order : List (Nat × Op)) : Prop where
  -- No call counts twice, and every one that has returned counts.
  once : (order.map Prod.fst).Nodup
  invoked : ∀ call op, (call, op) ∈ order → .invoke call op ∈ events
  returned : ∀ call, .returns call ∈ events → call ∈ order.map Prod.fst
  -- A call that is through has the result it has at its place.
  result : ∀ call c result, s.calls.get? call = some c → c.code = .ret result →
    m.Places object0 order call c.op result
  -- A call that had returned comes before one that was made afterwards.
  realTime : ∀ earlier later, Before events earlier later → ∀ pre op post,
    order = pre ++ (later, op) :: post → earlier ∈ pre.map Prod.fst
  -- Unless somebody is about to change it, the object is what the calls have made of it.
  object : (∀ call c, s.calls.get? call = some c → .exclusive ∉ c.held) →
    s.object = m.replay object0 order

/-- What the events so far say of the calls. -/
structure Told (events : List (Event Op)) (order : List (Nat × Op)) (s : Config Op σ ρ) :
    Prop where
  invoked : ∀ call c, s.calls.get? call = some c → .invoke call c.op ∈ events
  returned : ∀ call, .returns call ∈ events →
    ∃ c, s.calls.get? call = some c ∧ c.returned = true
  realTime : ∀ earlier later, Before events earlier later → ∀ pre op post,
    order = pre ++ (later, op) :: post → earlier ∈ pre.map Prod.fst

/-- An event writes the record of one call, a new one or one that keeps its operation. -/
theorem step_calls {event : Event Op} (hstep : m.step s event = some s') :
    ∃ call c, s'.calls = s.calls.set call c ∧
      (event = .invoke call c.op ∧ call ∉ s.calls ∨
        ∃ old, s.calls.get? call = some old ∧ c.op = old.op ∧
          (event = .advance call ∧ c.returned = old.returned ∨
            event = .returns call ∧ c.returned = true)) := by
  cases m.step_moves hstep with
  | invokes hnew => exact ⟨_, _, rfl, .inl ⟨rfl, hnew⟩⟩
  | accesses hc => exact ⟨_, _, rfl, .inr ⟨_, hc, rfl, .inl ⟨rfl, rfl⟩⟩⟩
  | acquires hc => exact ⟨_, _, rfl, .inr ⟨_, hc, rfl, .inl ⟨rfl, rfl⟩⟩⟩
  | releases hc => exact ⟨_, _, rfl, .inr ⟨_, hc, rfl, .inl ⟨rfl, rfl⟩⟩⟩
  | returns hc => exact ⟨_, _, rfl, .inr ⟨_, hc, rfl, .inr ⟨rfl, rfl⟩⟩⟩

variable {events : List (Event Op)} {event : Event Op}

theorem Told.step_invoked (h : Told events order s) (hstep : m.step s event = some s')
    (hc : s'.calls.get? call = some c) : .invoke call c.op ∈ events ++ [event] := by
  obtain ⟨moved, new, hcalls, hmoved⟩ := step_calls hstep
  rw [hcalls] at hc
  rw [List.mem_append, List.mem_singleton]
  rcases Dict.get?_set_cases hc with ⟨rfl, rfl⟩ | ⟨-, hold⟩
  · rcases hmoved with ⟨rfl, -⟩ | ⟨old, hold, hop, -⟩
    · exact .inr rfl
    · rw [hop]
      exact .inl (h.invoked _ _ hold)
  · exact .inl (h.invoked _ _ hold)

theorem Told.step_returned (h : Told events order s) (hstep : m.step s event = some s')
    (hmem : .returns call ∈ events ++ [event]) :
    ∃ c, s'.calls.get? call = some c ∧ c.returned = true := by
  obtain ⟨moved, new, hcalls, hmoved⟩ := step_calls hstep
  rw [hcalls, Dict.get?_set]
  rw [List.mem_append, List.mem_singleton] at hmem
  by_cases hcall : call = moved
  · subst hcall
    refine ⟨new, if_pos rfl, ?_⟩
    rcases hmem with hmem | rfl
    · obtain ⟨c, hc, hreturned⟩ := h.returned call hmem
      rcases hmoved with ⟨-, hnew⟩ | ⟨old, hold, -, ⟨-, hkept⟩ | ⟨-, hnow⟩⟩
      · rw [Dict.not_mem_iff, hc] at hnew
        cases hnew
      · rw [hc, Option.some.injEq] at hold
        rw [hkept, ← hold, hreturned]
      · exact hnow
    · rcases hmoved with ⟨hevent, -⟩ | ⟨old, -, -, ⟨hevent, -⟩ | ⟨-, hnow⟩⟩
      · cases hevent
      · cases hevent
      · exact hnow
  · rw [if_neg hcall]
    rcases hmem with hmem | rfl
    · exact h.returned call hmem
    · rcases hmoved with ⟨hevent, -⟩ | ⟨old, -, -, ⟨hevent, -⟩ | ⟨hevent, -⟩⟩ <;>
        cases hevent
      exact absurd rfl hcall

-- An element of a longer list is the last one or in the rest.
theorem concat_eq_split {α : Type*} {l pre post : List α} {a x : α}
    (h : l ++ [a] = pre ++ x :: post) :
    post = [] ∧ l = pre ∧ a = x ∨ ∃ rest, post = rest ++ [a] ∧ l = pre ++ x :: rest := by
  rcases List.eq_nil_or_concat' post with rfl | ⟨rest, last, rfl⟩
  · obtain ⟨hpre, hlast⟩ := List.append_inj' h rfl
    cases hlast
    exact .inl ⟨rfl, hpre, rfl⟩
  · rw [← List.cons_append, ← List.append_assoc] at h
    obtain ⟨hpre, hlast⟩ := List.append_inj' h rfl
    cases hlast
    exact .inr ⟨rest, rfl, hpre⟩

-- A call made after others have returned comes after them, for they have their places already.
theorem Told.step_realTime (h : Told events order s) (hinv : m.Inv object0 order s)
    (hstep : m.step s event = some s') {order' : List (Nat × Op)}
    (horder : order' = order ∨ ∃ entry, order' = order ++ [entry]) {earlier later : Nat}
    (hbefore : Before (events ++ [event]) earlier later) {pre post : List (Nat × Op)} {op : Op}
    (hsplit : order' = pre ++ (later, op) :: post) : earlier ∈ pre.map Prod.fst := by
  obtain ⟨past, op', rest, hevents, hreturns⟩ := hbefore
  have hlast : .returns earlier ∈ events → order = pre → earlier ∈ pre.map Prod.fst := by
    rintro hmem rfl
    obtain ⟨c, hc, hreturned⟩ := h.returned earlier hmem
    exact hinv.mem_of_returned hc hreturned
  have hmember : order = pre ++ (later, op) :: post → later ∈ order.map Prod.fst := by
    rintro rfl
    rw [List.map_append, List.map_cons]
    exact List.mem_append_right _ List.mem_cons_self
  rcases concat_eq_split hevents with ⟨rfl, rfl, rfl⟩ | ⟨rest, rfl, rfl⟩
  · -- the call has just been made
    have hnew : later ∉ s.calls := by
      cases m.step_moves hstep with
      | invokes hnew => exact hnew
    rcases horder with rfl | ⟨entry, rfl⟩
    · exact absurd (hmember hsplit) (hinv.not_mem_order hnew)
    · rcases concat_eq_split hsplit with ⟨-, hpre, -⟩ | ⟨rest, rfl, rfl⟩
      · exact hlast hreturns hpre
      · refine absurd ?_ (hinv.not_mem_order hnew)
        simp
  · have hbefore : Before (past ++ .invoke later op' :: rest) earlier later :=
      ⟨past, op', rest, rfl, hreturns⟩
    rcases horder with rfl | ⟨entry, rfl⟩
    · exact h.realTime earlier later hbefore pre op post hsplit
    · rcases concat_eq_split hsplit with ⟨-, hpre, -⟩ | ⟨rest, -, hrest⟩
      · exact hlast (List.mem_append_left _ hreturns) hpre
      · exact h.realTime earlier later hbefore pre op rest hrest

theorem Inv.start (m : Monitor Op σ ρ) (object0 : σ) :
    m.Inv object0 [] { object := object0 } where
  nodup := List.nodup_nil
  known := fun _ _ h ↦ absurd h List.not_mem_nil
  stage := by
    intro _ _ h
    cases h
  exclusion := by
    intro _ _ _ _ _ h
    cases h
  object_eq := fun _ ↦ rfl

theorem Told.start (object0 : σ) :
    Told [] [] ({ object := object0 } : Config Op σ ρ) where
  invoked := by
    intro _ _ h
    cases h
  returned := fun _ h ↦ absurd h List.not_mem_nil
  realTime := by
    intro _ _ _ pre _ _ h
    cases pre <;> cases h

/-- Each run has an order that the invariant holds with. -/
theorem exists_inv (hrun : runFrom m.step { object := object0 } events = some s) :
    ∃ order, m.Inv object0 order s ∧ Told events order s := by
  refine run_invariant_history
    (I := fun events s ↦ ∃ order, m.Inv object0 order s ∧ Told events order s)
    ?_ ⟨[], Inv.start m object0, Told.start object0⟩ hrun
  intro past s event s' ⟨order, hinv, htold⟩ hstep
  obtain ⟨order', horder, hinv'⟩ := hinv.step hstep
  exact ⟨order', hinv', fun _ _ hc ↦ htold.step_invoked hstep hc,
    fun _ hmem ↦ htold.step_returned hstep hmem,
    fun _ _ hbefore _ _ _ hsplit ↦ htold.step_realTime hinv hstep horder hbefore hsplit⟩

/-- However the calls of a monitor interleave, some order explains the run. -/
theorem linearizable (hrun : runFrom m.step { object := object0 } events = some s) :
    ∃ order, m.Linearizes object0 events s order := by
  obtain ⟨order, hinv, htold⟩ := exists_inv hrun
  refine ⟨order, hinv.nodup, ?_, ?_, ?_, htold.realTime, hinv.object_eq⟩
  · intro call op hmem
    obtain ⟨c, hc, rfl⟩ := hinv.known call op hmem
    exact htold.invoked call c hc
  · intro call hmem
    obtain ⟨c, hc, hreturned⟩ := htold.returned call hmem
    exact hinv.mem_of_returned hc hreturned
  · intro call c result hc hcode
    cases hinv.stage call c hc with
    | waiting hcode' => rw [hcode] at hcode'; cases hcode'
    | inside _ _ hinside => rw [hcode] at hinside; exact hinside.elim
    | done hcode' _ hplace =>
      rw [hcode, Code.ret.injEq] at hcode'
      exact hcode' ▸ hplace

-- In the order, the place of the earlier call is part of what the later one has before it.
theorem Linearizes.split_before (h : m.Linearizes object0 events s order) {earlier later : Nat}
    (hbefore : Before events earlier later) {pre post pre' post' : List (Nat × Op)} {op op' : Op}
    (hearlier : order = pre ++ (earlier, op) :: post)
    (hlater : order = pre' ++ (later, op') :: post') :
    ∃ between, pre' = pre ++ (earlier, op) :: between := by
  obtain ⟨⟨id, other⟩, hmem, rfl⟩ :=
    List.mem_map.mp (h.realTime earlier later hbefore pre' op' post' hlater)
  obtain ⟨front, back, rfl⟩ := List.append_of_mem hmem
  have honce := h.once
  rw [hlater, List.append_assoc, List.cons_append, List.map_append, List.map_cons,
    List.nodup_middle, List.nodup_cons, ← List.map_append, List.mem_map] at honce
  have hnot : (id, op) ∉ front ++ (back ++ (later, op') :: post') :=
    fun hentry ↦ honce.1 ⟨_, hentry, rfl⟩
  rw [List.mem_append, not_or] at hnot
  rw [hlater, List.append_assoc, List.cons_append] at hearlier
  obtain ⟨rfl, hentry, -⟩ := (List.append_cons_inj_of_notMem hnot.1 hnot.2).mp hearlier
  exact ⟨back, by rw [hentry]⟩

/-! ## Progress -/

-- Whoever holds the lock can go on.
theorem Inv.holder_advances (h : m.Inv object0 order s) (hc : s.calls.get? call = some c)
    (hheld : c.held ≠ []) : (m.step s (.advance call)).isSome := by
  cases h.stage call c hc with
  | waiting _ _ _ hnone => exact absurd hnone hheld
  | done _ hnone => exact absurd hnone hheld
  | @inside _ _ mode depth _ hmodes hinside =>
    simp only [Monitor.step, hc]
    cases hcode : c.code with
    | ret result =>
      rw [hcode] at hinside
      exact hinside.elim
    | access store next => rfl
    | acquire mode' next =>
      rw [hcode] at hinside
      obtain ⟨hreentrant, rfl, -⟩ := hinside
      have hadmits : s.admits call mode' = true := by
        rw [Config.admits_iff]
        intro other o hne ho mode hmode
        refine h.exclusion call other c o (Ne.symm hne) hc ho mode' ?_ mode hmode
        rw [hmodes]
        exact List.mem_cons_self
      dsimp only
      rw [if_pos ⟨hadmits, .inr hreentrant⟩]
      rfl
    | release next =>
      dsimp only
      rw [hmodes]
      rfl

/-- No deadlock, whichever of the waiting calls is let in first. -/
structure NeverStuck (m : Monitor Op σ ρ) (s : Config Op σ ρ) : Prop where
  -- Whoever holds the lock can go on.
  holder : ∀ call c, s.calls.get? call = some c → c.held ≠ [] →
    (m.step s (.advance call)).isSome
  -- When nobody does, everybody can.
  free : (∀ call c, s.calls.get? call = some c → c.held = []) →
    ∀ call c, s.calls.get? call = some c → c.returned = false →
      (m.step s (.advance call)).isSome ∨ (m.step s (.returns call)).isSome

theorem neverStuck (hrun : runFrom m.step { object := object0 } events = some s) :
    m.NeverStuck s := by
  obtain ⟨order, hinv, -⟩ := exists_inv hrun
  refine ⟨fun call c hc hheld ↦ hinv.holder_advances hc hheld, ?_⟩
  intro hfree call c hc hreturned
  have hheld := hfree call c hc
  cases hinv.stage call c hc with
  | inside _ hmodes => rw [hheld] at hmodes; cases hmodes
  | done hcode =>
    refine .inr ?_
    simp only [Monitor.step, hc, hcode, hreturned]
    rfl
  | @waiting mode next hcode =>
    have hadmits : s.admits call mode = true := by
      rw [Config.admits_iff]
      intro other o _ ho mode' hmode'
      rw [hfree other o ho] at hmode'
      exact absurd hmode' List.not_mem_nil
    refine .inl ?_
    simp only [Monitor.step, hc, hcode]
    rw [if_pos ⟨hadmits, .inl hheld⟩]
    rfl

end Monitor

end AsrServe.Reasoning
