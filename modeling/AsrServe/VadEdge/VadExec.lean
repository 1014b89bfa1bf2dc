import AsrServe.Reasoning.Pcm

/-!
# WebAssembly calls

What `vad-edge/wasm/vad_module.wat` uses of WebAssembly.  `i32` and `i64` are bit vectors, a load
outside memory and a division by zero trap.  A call is a computation on an instance: besides how it
ends it says what instance it leaves behind and which addresses it has loaded from.
-/

open AsrServe.Reasoning

namespace AsrServe.VadEdge.Wasm

/-! ## The machine -/

/-- Linear memory: `size` bytes, a multiple of the 64 KiB page. -/
structure Memory where
  size : Nat
  byte : Nat → UInt8

-- A module instance: its memory and its mutable globals.
structure Instance where
  memory : Memory
  energyThreshold : BitVec 32
  zcrThreshold : BitVec 32

/-- How a call ends.  `outOfFuel` is the model's own: the loop was cut off. -/
inductive Outcome (α : Type)
  | value (a : α)
  | trap
  | outOfFuel
deriving DecidableEq, Repr

def Outcome.bind {α β : Type} : Outcome α → (α → Outcome β) → Outcome β
  | .value a, f => f a
  | .trap, _ => .trap
  | .outOfFuel, _ => .outOfFuel

-- `i32.load16_s`: trap outside memory, sign-extend inside.
def load16S (memory : Memory) (addr : BitVec 32) : Outcome (BitVec 32) :=
  if addr.toNat + 2 ≤ memory.size then
    .value ((sampleAt memory.byte addr.toNat).signExtend 32)
  else
    .trap

-- `div_u`.
def divU {w : Nat} (a b : BitVec w) : Outcome (BitVec w) :=
  if b = 0#w then .trap else .value (a / b)

-- The `i32` a comparison leaves.
def i32OfBool (b : Bool) : BitVec 32 := if b then 1#32 else 0#32

/-- The arithmetic instructions that can lose bits. -/
structure Arith where
  add {w : Nat} (a b : BitVec w) : Outcome (BitVec w)
  sub {w : Nat} (a b : BitVec w) : Outcome (BitVec w)
  mul {w : Nat} (a b : BitVec w) : Outcome (BitVec w)
  -- `i32.wrap_i64`.
  wrap (a : BitVec 64) : Outcome (BitVec 32)

-- WebAssembly's own.
def Arith.wrapping : Arith where
  add a b := .value (a + b)
  sub a b := .value (a - b)
  mul a b := .value (a * b)
  wrap a := .value (a.setWidth 32)

/-! ## Computations -/

/-- A finished call.  Each load is recorded by the address of its first byte, also one that
traps. -/
structure Run (α : Type) where
  outcome : Outcome α
  inst : Instance
  loads : List Nat

def Exec (α : Type) : Type := Instance → Run α

namespace Exec

variable {α β : Type}

-- A computation that has nothing to do with the instance.
def lift (o : Outcome α) : Exec α := fun inst ↦ { outcome := o, inst := inst, loads := [] }

def pure (a : α) : Exec α := lift (.value a)

def bind (x : Exec α) (f : α → Exec β) : Exec β := fun inst ↦
  match (x inst).outcome with
  | .value a =>
    { f a (x inst).inst with loads := (x inst).loads ++ (f a (x inst).inst).loads }
  | .trap => { outcome := .trap, inst := (x inst).inst, loads := (x inst).loads }
  | .outOfFuel => { outcome := .outOfFuel, inst := (x inst).inst, loads := (x inst).loads }

def load16S (addr : BitVec 32) : Exec (BitVec 32) := fun inst ↦
  { outcome := Wasm.load16S inst.memory addr, inst := inst, loads := [addr.toNat] }

-- `global.get` of the two globals.
def getEnergyThreshold : Exec (BitVec 32) := fun inst ↦ pure inst.energyThreshold inst

def getZcrThreshold : Exec (BitVec 32) := fun inst ↦ pure inst.zcrThreshold inst

/-! ## Computations that only read -/

/-- The computation leaves every instance as it found it. -/
def ReadOnly (x : Exec α) : Prop := ∀ inst, (x inst).inst = inst

theorem readOnly_lift (o : Outcome α) : (lift o).ReadOnly := fun _ ↦ rfl

theorem readOnly_pure (a : α) : (pure a).ReadOnly := fun _ ↦ rfl

theorem readOnly_load16S (addr : BitVec 32) : (load16S addr).ReadOnly := fun _ ↦ rfl

theorem readOnly_getEnergyThreshold : getEnergyThreshold.ReadOnly := fun _ ↦ rfl

theorem readOnly_getZcrThreshold : getZcrThreshold.ReadOnly := fun _ ↦ rfl

theorem ReadOnly.bind {x : Exec α} {f : α → Exec β} (hx : x.ReadOnly)
    (hf : ∀ a, (f a).ReadOnly) : (x.bind f).ReadOnly := by
  intro inst
  rw [Exec.bind]
  cases (x inst).outcome with
  | value a => exact (hf a _).trans (hx inst)
  | trap => exact hx inst
  | outOfFuel => exact hx inst

theorem ReadOnly.ite {x y : Exec α} (hx : x.ReadOnly) (hy : y.ReadOnly) (c : Prop)
    [Decidable c] : (if c then x else y).ReadOnly := by
  split
  · exact hx
  · exact hy

-- In a sequence that starts by only reading, the second part runs on the instance of the first.
theorem ReadOnly.bind_outcome {x : Exec α} (hx : x.ReadOnly) (f : α → Exec β)
    (inst : Instance) :
    (x.bind f inst).outcome = (x inst).outcome.bind fun a ↦ (f a inst).outcome := by
  rw [Exec.bind]
  cases (x inst).outcome with
  | value a => rw [hx inst]; rfl
  | trap => rfl
  | outOfFuel => rfl

theorem lift_value_bind (a : α) (f : α → Exec β) : (lift (.value a)).bind f = f a := rfl

theorem bind_of_value {x : Exec α} {inst : Instance} {a : α} (hx : x.ReadOnly)
    (hvalue : (x inst).outcome = .value a) (f : α → Exec β) :
    (x.bind f inst).outcome = (f a inst).outcome := by
  rw [hx.bind_outcome, hvalue, Outcome.bind]

theorem ReadOnly.mem_bind_loads {x : Exec α} (hx : x.ReadOnly) {f : α → Exec β}
    {inst : Instance} {addr : Nat} (h : addr ∈ (x.bind f inst).loads) :
    addr ∈ (x inst).loads ∨ ∃ a, (x inst).outcome = .value a ∧ addr ∈ (f a inst).loads := by
  rw [Exec.bind] at h
  cases ho : (x inst).outcome with
  | value a =>
    rw [ho, hx inst] at h
    rcases List.mem_append.mp h with h | h
    · exact Or.inl h
    · exact Or.inr ⟨a, rfl, h⟩
  | trap =>
    rw [ho] at h
    exact Or.inl h
  | outOfFuel =>
    rw [ho] at h
    exact Or.inl h

/-! ## What a computation reads -/

/-- Every load, in whatever instance it runs, is from an address with `P`. -/
def LoadsIn (P : Nat → Prop) (x : Exec α) : Prop := ∀ inst, ∀ addr ∈ (x inst).loads, P addr

theorem loadsIn_lift (P : Nat → Prop) (o : Outcome α) : LoadsIn P (lift o) :=
  fun _ _ h ↦ absurd h List.not_mem_nil

theorem loadsIn_load16S (addr : BitVec 32) : LoadsIn (· = addr.toNat) (load16S addr) :=
  fun _ _ h ↦ List.mem_singleton.mp h

theorem LoadsIn.ite {P : Nat → Prop} {x y : Exec α} (hx : LoadsIn P x) (hy : LoadsIn P y)
    (c : Prop) [Decidable c] : LoadsIn P (if c then x else y) := by
  split
  · exact hx
  · exact hy

theorem LoadsIn.bind {P : Nat → Prop} {x : Exec α} {f : α → Exec β} (hro : x.ReadOnly)
    (hx : LoadsIn P x) (hf : ∀ a, LoadsIn P (f a)) : LoadsIn P (x.bind f) := by
  intro inst addr h
  rcases hro.mem_bind_loads h with h | ⟨a, -, h⟩
  · exact hx inst addr h
  · exact hf a inst addr h

end Exec

end AsrServe.VadEdge.Wasm
