import Mathlib.Data.List.DropRight

/-!
# Decimal integer literals

A signed integer as text: digits with single underscores between them, a sign in front, blanks
around.  What counts as a blank is a parameter.
-/

namespace AsrServe.Reasoning

/-- The value of a digit string whose beginning has the value `n`. -/
def readDigits (n : Nat) : List Char → Option Nat
  | [] => some n
  | '_' :: c :: cs => if c.isDigit then readDigits (10 * n + (c.toNat - '0'.toNat)) cs else none
  | c :: cs => if c.isDigit then readDigits (10 * n + (c.toNat - '0'.toNat)) cs else none

def readNat : List Char → Option Nat
  | [] => none
  | c :: cs => if c.isDigit then readDigits (c.toNat - '0'.toNat) cs else none

def strip (blank : Char → Bool) (cs : List Char) : List Char :=
  (cs.dropWhile blank).rdropWhile blank

def readSigned : List Char → Option Int
  | '+' :: cs => (readNat cs).map Int.ofNat
  | '-' :: cs => (readNat cs).map fun n ↦ -Int.ofNat n
  | cs => (readNat cs).map Int.ofNat

/-- The integer a text stands for, if it is a literal. -/
def readInt (blank : Char → Bool) (text : String) : Option Int :=
  readSigned (strip blank text.toList)

theorem readDigits_eq {cs : List Char} (h : ∀ c ∈ cs, c.isDigit = true) (n : Nat) :
    readDigits n cs = some (Nat.ofDigitChars 10 cs n) := by
  induction cs generalizing n with
  | nil => rw [readDigits, Nat.ofDigitChars_nil]
  | cons c cs ih =>
    obtain ⟨hc, hcs⟩ := List.forall_mem_cons.mp h
    have hne : c ≠ '_' := by
      intro heq
      rw [heq] at hc
      exact absurd hc (by decide)
    rw [readDigits, if_pos hc, ih hcs, Nat.ofDigitChars_cons]
    intro d ds heq
    exact absurd heq hne

theorem readNat_toDigits (n : Nat) : readNat (Nat.toDigits 10 n) = some n := by
  have hdigits : ∀ c ∈ Nat.toDigits 10 n, c.isDigit = true :=
    fun c hc ↦ Nat.isDigit_of_mem_toDigits (by decide) (by decide) hc
  have hvalue := Nat.ofDigitChars_ten_toDigits (n := n)
  cases hcs : Nat.toDigits 10 n with
  | nil => exact absurd hcs Nat.toDigits_ne_nil
  | cons c cs =>
    rw [hcs] at hdigits hvalue
    obtain ⟨hc, hrest⟩ := List.forall_mem_cons.mp hdigits
    rw [readNat, if_pos hc, readDigits_eq hrest, ← hvalue, Nat.ofDigitChars_cons, Nat.mul_zero,
      Nat.zero_add]

-- A digit is no sign.
theorem readSigned_toDigits (n : Nat) : readSigned (Nat.toDigits 10 n) = some (Int.ofNat n) := by
  have hdigits : ∀ c ∈ Nat.toDigits 10 n, c.isDigit = true :=
    fun c hc ↦ Nat.isDigit_of_mem_toDigits (by decide) (by decide) hc
  have hsign {c : Char} {cs : List Char} (hc : c.isDigit = false) :
      Nat.toDigits 10 n ≠ c :: cs := by
    intro heq
    have hmem := hdigits c (heq ▸ List.mem_cons_self)
    rw [hc] at hmem
    cases hmem
  rw [readSigned, readNat_toDigits, Option.map_some]
  · exact fun cs heq ↦ absurd heq (hsign (by decide))
  · exact fun cs heq ↦ absurd heq (hsign (by decide))

theorem strip_eq_self {blank : Char → Bool} {cs : List Char} (h : ∀ c ∈ cs, blank c = false) :
    strip blank cs = cs := by
  have hleft : cs.dropWhile blank = cs := by
    cases cs with
    | nil => rfl
    | cons c cs => rw [List.dropWhile_cons, h c List.mem_cons_self]; rfl
  rw [strip, hleft, List.rdropWhile_eq_self_iff]
  intro hne
  rw [h _ (List.getLast_mem hne)]
  exact Bool.false_ne_true

variable {blank : Char → Bool}

/-- An integer is read back from its decimal text. -/
theorem readInt_toString (hdigit : ∀ c : Char, c.isDigit = true → blank c = false)
    (hminus : blank '-' = false) (n : Int) : readInt blank (toString n) = some n := by
  have hblank (m : Nat) : ∀ c ∈ Nat.toDigits 10 m, blank c = false :=
    fun c hc ↦ hdigit c (Nat.isDigit_of_mem_toDigits (by decide) (by decide) hc)
  cases n with
  | ofNat m =>
    have htext : (toString (Int.ofNat m)).toList = Nat.toDigits 10 m := Nat.toList_repr
    rw [readInt, htext, strip_eq_self (hblank m), readSigned_toDigits]
  | negSucc m =>
    have htext : (toString (Int.negSucc m)).toList = '-' :: Nat.toDigits 10 (m + 1) := by
      show ("-" ++ (m + 1).repr).toList = _
      rw [String.toList_append, Nat.toList_repr]
      rfl
    rw [readInt, htext, strip_eq_self (List.forall_mem_cons.mpr ⟨hminus, hblank (m + 1)⟩),
      readSigned, readNat_toDigits]
    rfl

end AsrServe.Reasoning
