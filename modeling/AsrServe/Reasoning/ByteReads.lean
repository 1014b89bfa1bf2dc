import Mathlib.Data.List.Basic

/-!
# Programs that read a byte buffer

`Reads α` is a computation over a byte buffer that records the index of every byte it touches, in
order.  A read past the end is not stopped: it yields an arbitrary value and leaves its index in
the record, so that memory safety of a program is a statement about the record.
-/

namespace AsrServe.Reasoning

structure Reads (α : Type) where
  val : α
  reads : List Nat

namespace Reads

variable {α β : Type}

instance : Monad Reads where
  pure a := ⟨a, []⟩
  bind x f := ⟨(f x.val).val, x.reads ++ (f x.val).reads⟩

@[simp] theorem val_pure (a : α) : (pure a : Reads α).val = a := rfl

@[simp] theorem reads_pure (a : α) : (pure a : Reads α).reads = [] := rfl

@[simp] theorem val_bind (x : Reads α) (f : α → Reads β) : (x >>= f).val = (f x.val).val := rfl

@[simp] theorem reads_bind (x : Reads α) (f : α → Reads β) :
    (x >>= f).reads = x.reads ++ (f x.val).reads := rfl

theorem val_ite {p : Prop} [Decidable p] (x y : Reads α) :
    (if p then x else y).val = if p then x.val else y.val := apply_ite val p x y

/-- Every byte the computation touches lies below `n`. -/
def Within (x : Reads α) (n : Nat) : Prop := ∀ i ∈ x.reads, i < n

theorem within_pure (a : α) (n : Nat) : (pure a : Reads α).Within n := by
  intro i hi
  rw [reads_pure] at hi
  exact absurd hi List.not_mem_nil

theorem within_bind {x : Reads α} {f : α → Reads β} {n : Nat} (hx : x.Within n)
    (hf : (f x.val).Within n) : (x >>= f).Within n := by
  intro i hi
  rw [reads_bind, List.mem_append] at hi
  exact hi.elim (hx i) (hf i)

-- Both branches of a test have to stay inside, each under what the test says.
theorem within_ite {p : Prop} [Decidable p] {x y : Reads α} {n : Nat}
    (hx : p → x.Within n) (hy : ¬p → y.Within n) : (if p then x else y).Within n := by
  split
  · rename_i h
    exact hx h
  · rename_i h
    exact hy h

def byte (bytes : List UInt8) (i : Nat) : Reads UInt8 := ⟨bytes.getD i 0, [i]⟩

@[simp] theorem reads_byte (bytes : List UInt8) (i : Nat) : (byte bytes i).reads = [i] := rfl

theorem within_byte (bytes : List UInt8) {i n : Nat} (h : i < n) : (byte bytes i).Within n := by
  intro j hj
  rw [reads_byte, List.mem_singleton] at hj
  exact hj ▸ h

end Reads

end AsrServe.Reasoning
