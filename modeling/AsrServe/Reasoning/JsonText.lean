import Mathlib.Data.List.TakeWhile
import Mathlib.Data.Nat.Digits.Defs

/-!
# JSON texts

A reader that takes one value from the front of a text.  Texts are lists of characters, so bytes
that are no characters are not looked at.  The reader is given a limit on the nesting, which it
recurses on.
-/

namespace AsrServe.Reasoning.JsonText

inductive Json where
  | null
  | bool (b : Bool)
  -- The literal as it stands in the text.
  | number (literal : List Char)
  | string (value : List Char)
  | array (elements : List Json)
  | object (members : List (List Char × Json))

/-! ## Reading strings -/

/-- What stands between the quotation marks: a character, or one half of a surrogate pair. -/
inductive Rune where
  | char (c : Char)
  | surrogate (u : Nat)
deriving DecidableEq, Repr

def runeOf (n : Nat) : Rune :=
  if 0xD800 ≤ n ∧ n < 0xE000 then .surrogate n else .char (Char.ofNat n)

def replacement : Char := Char.ofNat 0xFFFD

-- The first half of a pair, when no second one follows.
def lone (pending : Option Nat) : List Char :=
  match pending with
  | none => []
  | some _ => [replacement]

def pair (high low : Nat) : Char := Char.ofNat (0x10000 + (high - 0xD800) * 0x400 + (low - 0xDC00))

/-- The characters of a string; a first half followed by a second one is one character, any other
half is the replacement character. -/
def join (pending : Option Nat) : List Rune → List Char
  | [] => lone pending
  | .char c :: runes => lone pending ++ c :: join none runes
  | .surrogate u :: runes =>
    if u < 0xDC00 then lone pending ++ join (some u) runes
    else
      match pending with
      | none => replacement :: join none runes
      | some high => pair high u :: join none runes

def hexValue (c : Char) : Option Nat :=
  if c.isDigit then some (c.toNat - '0'.toNat)
  else if 'a' ≤ c ∧ c ≤ 'f' then some (c.toNat - 'a'.toNat + 10)
  else if 'A' ≤ c ∧ c ≤ 'F' then some (c.toNat - 'A'.toNat + 10)
  else none

def hex4 (a b c d : Char) : Option Nat := do
  let a ← hexValue a
  let b ← hexValue b
  let c ← hexValue c
  let d ← hexValue d
  return 4096 * a + 256 * b + 16 * c + d

-- The character a backslash and this one stand for.
def escaped (c : Char) : Option Char :=
  if c = '"' ∨ c = '\\' ∨ c = '/' then some c
  else if c = 'b' then some (Char.ofNat 8)
  else if c = 'f' then some (Char.ofNat 12)
  else if c = 'n' then some '\n'
  else if c = 'r' then some '\r'
  else if c = 't' then some '\t'
  else none

/-- The runes up to the closing quotation mark, and the text behind it. -/
def readRunes : List Char → Option (List Rune × List Char)
  | [] => none
  | '"' :: s => some ([], s)
  | '\\' :: 'u' :: a :: b :: c :: d :: s => do
    let n ← hex4 a b c d
    let (runes, rest) ← readRunes s
    return (runeOf n :: runes, rest)
  | '\\' :: e :: s => do
    let c ← escaped e
    let (runes, rest) ← readRunes s
    return (.char c :: runes, rest)
  | c :: s =>
    if c.toNat < 0x20 ∨ c = '\\' then none
    else do
      let (runes, rest) ← readRunes s
      return (.char c :: runes, rest)

def readString (s : List Char) : Option (List Char × List Char) :=
  (readRunes s).map fun r ↦ (join none r.1, r.2)

/-! ## Reading numbers -/

-- A character and what is read behind it.
def prepend (c : Char) (r : List Char × List Char) : List Char × List Char := (c :: r.1, r.2)

-- At least one digit.
def readDigits (s : List Char) : Option (List Char × List Char) :=
  let ds := s.takeWhile Char.isDigit
  if ds = [] then none else some (ds, s.dropWhile Char.isDigit)

def readIntPart (s : List Char) : Option (List Char × List Char) :=
  match s with
  | [] => none
  | c :: s' => if c = '0' then some ([c], s') else readDigits s

def readFraction (s : List Char) : Option (List Char × List Char) :=
  match s with
  | [] => some ([], [])
  | c :: s' => if c = '.' then (readDigits s').map (prepend c) else some ([], s)

-- The digits of an exponent and the sign before them.
def readPower (s : List Char) : Option (List Char × List Char) :=
  match s with
  | [] => none
  | c :: s' =>
    if c = '+' ∨ c = '-' then (readDigits s').map (prepend c) else readDigits s

def readExponent (s : List Char) : Option (List Char × List Char) :=
  match s with
  | [] => some ([], [])
  | c :: s' => if c = 'e' ∨ c = 'E' then (readPower s').map (prepend c) else some ([], s)

def readUnsigned (s : List Char) : Option (List Char × List Char) := do
  let (int, s) ← readIntPart s
  let (fraction, s) ← readFraction s
  let (exponent, s) ← readExponent s
  return (int ++ fraction ++ exponent, s)

/-- The longest literal at the front, and the text behind it. -/
def readNumber (s : List Char) : Option (List Char × List Char) :=
  match s with
  | [] => none
  | c :: s' =>
    if c = '-' then (readUnsigned s').map (prepend c) else readUnsigned s

/-! ## Reading values -/

def isBlank (c : Char) : Bool := c = ' ' || c = '\t' || c = '\r' || c = '\n'

def skip (s : List Char) : List Char := s.dropWhile isBlank

-- The text behind a word that has to come.
def keyword (word s : List Char) : Option (List Char) :=
  if word.isPrefixOf s then some (s.drop word.length) else none

def readScalar (s : List Char) : Option (Json × List Char) :=
  match s with
  | [] => none
  | c :: s' =>
    if c = 'n' then (keyword ['u', 'l', 'l'] s').map fun rest ↦ (.null, rest)
    else if c = 't' then (keyword ['r', 'u', 'e'] s').map fun rest ↦ (.bool true, rest)
    else if c = 'f' then (keyword ['a', 'l', 's', 'e'] s').map fun rest ↦ (.bool false, rest)
    else if c = '"' then (readString s').map fun r ↦ (.string r.1, r.2)
    else (readNumber s).map fun r ↦ (.number r.1, r.2)

section Items

variable {α : Type} (item : List Char → Option (α × List Char)) (close : Char)

-- At most `n` items with commas between them, and the closing bracket.
def readItems (n : Nat) (s : List Char) : Option (List α × List Char) :=
  match n with
  | 0 => none
  | n + 1 =>
    match item s with
    | none => none
    | some (x, s) =>
      match skip s with
      | [] => none
      | c :: rest =>
        if c = close then some ([x], rest)
        else if c = ',' then (readItems n rest).map fun r ↦ (x :: r.1, r.2)
        else none

/-- What stands between two brackets; no text has more items than characters. -/
def readBody (s : List Char) : Option (List α × List Char) :=
  match skip s with
  | [] => none
  | c :: rest =>
    if c = close then some ([], rest)
    else readItems item close (rest.length + 1) (c :: rest)

end Items

def readMember (value : List Char → Option (Json × List Char)) (s : List Char) :
    Option ((List Char × Json) × List Char) := do
  let s ← keyword ['"'] (skip s)
  let (name, s) ← readString s
  let s ← keyword [':'] (skip s)
  let (v, s) ← value s
  return ((name, v), s)

/-- The value at the front of a text and the text behind it; containers may be nested `depth`
deep. -/
def readValue (depth : Nat) (s : List Char) : Option (Json × List Char) :=
  match skip s with
  | [] => none
  | c :: s' =>
    if c = '[' then
      match depth with
      | 0 => none
      | depth + 1 => (readBody (readValue depth) ']' s').map fun r ↦ (.array r.1, r.2)
    else if c = '{' then
      match depth with
      | 0 => none
      | depth + 1 =>
        (readBody (readMember (readValue depth)) '}' s').map fun r ↦ (.object r.1, r.2)
    else readScalar (c :: s')

/-! ## Text behind what is read -/

-- A text that does not continue a number in front of it.
def Stops (s : List Char) : Prop :=
  ∀ c ∈ s.head?, c.isDigit = false ∧ c ≠ '.' ∧ c ≠ 'e' ∧ c ≠ 'E'

theorem stops_cons {c : Char} {s : List Char}
    (h : c.isDigit = false ∧ c ≠ '.' ∧ c ≠ 'e' ∧ c ≠ 'E') : Stops (c :: s) := by
  intro d hd
  rw [← Option.some.inj hd]
  exact h

theorem readRunes_append {s rest : List Char} {runes : List Rune}
    (h : readRunes s = some (runes, rest)) (t : List Char) :
    readRunes (s ++ t) = some (runes, rest ++ t) := by
  fun_induction readRunes s generalizing runes rest with
  | case1 => cases h
  | case2 s => cases h; rfl
  | case3 a b c d s ih =>
    obtain ⟨n, hn, h⟩ := Option.bind_eq_some_iff.mp h
    obtain ⟨r, hr, h⟩ := Option.bind_eq_some_iff.mp h
    cases h
    simp [readRunes, hn, ih hr]
  | case4 e s hu ih =>
    obtain ⟨c, hc, h⟩ := Option.bind_eq_some_iff.mp h
    obtain ⟨r, hr, h⟩ := Option.bind_eq_some_iff.mp h
    cases h
    have hne : e ≠ 'u' := by
      rintro rfl
      cases hc
    rw [List.cons_append, List.cons_append, readRunes, hc, ih hr]
    · rfl
    · exact fun _ _ _ _ _ hu ↦ absurd hu hne
  | case5 c s hq hu he hbad => cases h
  | case6 c s hq hu he hok ih =>
    obtain ⟨r, hr, h⟩ := Option.bind_eq_some_iff.mp h
    cases h
    rw [List.cons_append, readRunes, if_neg hok, ih hr]
    · rfl
    · exact hq
    · exact fun _ _ _ _ _ hc ↦ absurd (Or.inr hc) hok
    · exact fun _ _ hc ↦ absurd (Or.inr hc) hok

theorem readRunes_length {s rest : List Char} {runes : List Rune}
    (h : readRunes s = some (runes, rest)) : rest.length < s.length := by
  fun_induction readRunes s generalizing runes rest with
  | case1 => cases h
  | case2 s => cases h; exact Nat.lt_succ_self _
  | case3 a b c d s ih =>
    obtain ⟨n, hn, h⟩ := Option.bind_eq_some_iff.mp h
    obtain ⟨r, hr, h⟩ := Option.bind_eq_some_iff.mp h
    cases h
    have hlt := ih hr
    simp only [List.length_cons]
    omega
  | case4 e s hu ih =>
    obtain ⟨c, hc, h⟩ := Option.bind_eq_some_iff.mp h
    obtain ⟨r, hr, h⟩ := Option.bind_eq_some_iff.mp h
    cases h
    have hlt := ih hr
    simp only [List.length_cons]
    omega
  | case5 c s hq hu he hbad => cases h
  | case6 c s hq hu he hok ih =>
    obtain ⟨r, hr, h⟩ := Option.bind_eq_some_iff.mp h
    cases h
    exact Nat.lt_succ_of_lt (ih hr)

theorem readString_append {s rest value : List Char} (h : readString s = some (value, rest))
    (t : List Char) : readString (s ++ t) = some (value, rest ++ t) := by
  obtain ⟨r, hr, h⟩ := Option.map_eq_some_iff.mp h
  cases h
  rw [readString, readRunes_append hr t]
  rfl

theorem readString_length {s rest value : List Char} (h : readString s = some (value, rest)) :
    rest.length < s.length := by
  obtain ⟨r, hr, h⟩ := Option.map_eq_some_iff.mp h
  cases h
  exact readRunes_length hr

theorem keyword_eq_some {word s rest : List Char} :
    keyword word s = some rest ↔ s = word ++ rest := by
  rw [keyword]
  constructor
  · intro h
    split at h
    · rename_i hprefix
      obtain ⟨rest', rfl⟩ := List.isPrefixOf_iff_prefix.mp hprefix
      cases h
      rw [List.drop_left]
    · cases h
  · rintro rfl
    rw [if_pos (List.isPrefixOf_iff_prefix.mpr (List.prefix_append _ _)), List.drop_left]

theorem keyword_append {word s rest : List Char} (h : keyword word s = some rest)
    (t : List Char) : keyword word (s ++ t) = some (rest ++ t) := by
  rw [keyword_eq_some.mp h, keyword_eq_some, List.append_assoc]

theorem skip_append {s : List Char} (h : skip s ≠ []) (t : List Char) :
    skip (s ++ t) = skip s ++ t := by
  induction s with
  | nil => exact absurd rfl h
  | cons c s ih =>
    rw [skip, List.dropWhile_cons] at h
    rw [List.cons_append, skip, List.dropWhile_cons, skip, List.dropWhile_cons]
    split
    · rename_i hc
      rw [if_pos hc] at h
      exact ih h
    · rfl

theorem skip_length (s : List Char) : (skip s).length ≤ s.length :=
  (List.dropWhile_suffix isBlank).length_le

section Numbers

variable {s literal rest t : List Char}

theorem readDigits_eq_some : readDigits s = some (literal, rest) ↔
    s = literal ++ rest ∧ literal ≠ [] ∧ (∀ c ∈ literal, c.isDigit = true) ∧
      ∀ c ∈ rest.head?, c.isDigit = false := by
  rw [readDigits]
  constructor
  · intro h
    split at h
    · cases h
    · rename_i hne
      cases h
      refine ⟨List.takeWhile_append_dropWhile.symm, hne, fun c hc ↦ List.mem_takeWhile_imp hc, ?_⟩
      intro c hc
      have hhead := List.head?_dropWhile_not Char.isDigit s
      rw [hc] at hhead
      exact hhead
  · rintro ⟨rfl, hne, hdigits, hrest⟩
    have hstop : rest.takeWhile Char.isDigit = [] ∧ rest.dropWhile Char.isDigit = rest := by
      cases rest with
      | nil => exact ⟨rfl, rfl⟩
      | cons c rest =>
        rw [List.takeWhile_cons, List.dropWhile_cons, hrest c rfl]
        exact ⟨rfl, rfl⟩
    rw [List.takeWhile_append_of_pos hdigits, List.dropWhile_append_of_pos hdigits, hstop.1,
      hstop.2, List.append_nil, if_neg hne]

theorem readDigits_append (h : readDigits s = some (literal, rest)) (ht : rest = [] → Stops t) :
    readDigits (s ++ t) = some (literal, rest ++ t) := by
  obtain ⟨rfl, hne, hdigits, hrest⟩ := readDigits_eq_some.mp h
  refine readDigits_eq_some.mpr ⟨List.append_assoc _ _ _, hne, hdigits, ?_⟩
  intro c hc
  cases rest with
  | nil => exact (ht rfl c hc).1
  | cons d rest => exact hrest c hc

-- What is read and what is left are the text.
theorem readDigits_split (h : readDigits s = some (literal, rest)) : s = literal ++ rest :=
  (readDigits_eq_some.mp h).1

theorem prepend_append {read : List Char → Option (List Char × List Char)} {c : Char}
    (hread : ∀ {literal}, read s = some (literal, rest) → read (s ++ t) = some (literal, rest ++ t))
    (h : (read s).map (prepend c) = some (literal, rest)) :
    (read (s ++ t)).map (prepend c) = some (literal, rest ++ t) := by
  obtain ⟨r, hr, h⟩ := Option.map_eq_some_iff.mp h
  cases h
  rw [hread hr]
  rfl

theorem prepend_split {read : List Char → Option (List Char × List Char)} {c : Char}
    (hread : ∀ {literal}, read s = some (literal, rest) → s = literal ++ rest)
    (h : (read s).map (prepend c) = some (literal, rest)) : c :: s = literal ++ rest := by
  obtain ⟨r, hr, h⟩ := Option.map_eq_some_iff.mp h
  cases h
  rw [hread hr]
  rfl

theorem readIntPart_append (h : readIntPart s = some (literal, rest)) (ht : rest = [] → Stops t) :
    readIntPart (s ++ t) = some (literal, rest ++ t) := by
  cases s with
  | nil => cases h
  | cons c s =>
    rw [List.cons_append]
    rw [readIntPart] at h ⊢
    split at h
    · rename_i hc
      cases h
      rw [if_pos hc]
    · rename_i hc
      rw [if_neg hc]
      exact readDigits_append h ht

theorem readIntPart_split (h : readIntPart s = some (literal, rest)) :
    s = literal ++ rest ∧ literal ≠ [] := by
  cases s with
  | nil => cases h
  | cons c s =>
    rw [readIntPart] at h
    split at h
    · cases h
      exact ⟨rfl, List.cons_ne_nil _ _⟩
    · exact ⟨readDigits_split h, (readDigits_eq_some.mp h).2.1⟩

theorem readFraction_append (h : readFraction s = some (literal, rest))
    (ht : rest = [] → Stops t) : readFraction (s ++ t) = some (literal, rest ++ t) := by
  cases s with
  | nil =>
    cases h
    cases t with
    | nil => rfl
    | cons c t =>
      rw [List.nil_append, readFraction, if_neg (ht rfl c rfl).2.1]
  | cons c s =>
    rw [List.cons_append]
    rw [readFraction] at h ⊢
    split at h
    · rename_i hc
      rw [if_pos hc]
      exact prepend_append (fun h ↦ readDigits_append h ht) h
    · rename_i hc
      cases h
      rw [if_neg hc]
      rfl

theorem readFraction_split (h : readFraction s = some (literal, rest)) : s = literal ++ rest := by
  cases s with
  | nil => cases h; rfl
  | cons c s =>
    rw [readFraction] at h
    split at h
    · exact prepend_split readDigits_split h
    · cases h; rfl

theorem readPower_append (h : readPower s = some (literal, rest)) (ht : rest = [] → Stops t) :
    readPower (s ++ t) = some (literal, rest ++ t) := by
  cases s with
  | nil => cases h
  | cons c s =>
    rw [List.cons_append]
    rw [readPower] at h ⊢
    split at h
    · rename_i hc
      rw [if_pos hc]
      exact prepend_append (fun h ↦ readDigits_append h ht) h
    · rename_i hc
      rw [if_neg hc]
      exact readDigits_append h ht

theorem readPower_split (h : readPower s = some (literal, rest)) : s = literal ++ rest := by
  cases s with
  | nil => cases h
  | cons c s =>
    rw [readPower] at h
    split at h
    · exact prepend_split readDigits_split h
    · exact readDigits_split h

theorem readExponent_append (h : readExponent s = some (literal, rest))
    (ht : rest = [] → Stops t) : readExponent (s ++ t) = some (literal, rest ++ t) := by
  cases s with
  | nil =>
    cases h
    cases t with
    | nil => rfl
    | cons c t =>
      have hc := (ht rfl c rfl).2.2
      rw [List.nil_append, readExponent, if_neg (not_or.mpr hc)]
  | cons c s =>
    rw [List.cons_append]
    rw [readExponent] at h ⊢
    split at h
    · rename_i hc
      rw [if_pos hc]
      exact prepend_append (fun h ↦ readPower_append h ht) h
    · rename_i hc
      cases h
      rw [if_neg hc]
      rfl

theorem readExponent_split (h : readExponent s = some (literal, rest)) : s = literal ++ rest := by
  cases s with
  | nil => cases h; rfl
  | cons c s =>
    rw [readExponent] at h
    split at h
    · exact prepend_split readPower_split h
    · cases h; rfl

-- The three parts of a literal.
theorem readUnsigned_eq_some (h : readUnsigned s = some (literal, rest)) :
    ∃ int s₁ fraction s₂ exponent, readIntPart s = some (int, s₁) ∧
      readFraction s₁ = some (fraction, s₂) ∧ readExponent s₂ = some (exponent, rest) ∧
      literal = int ++ fraction ++ exponent := by
  obtain ⟨⟨int, s₁⟩, hint, h⟩ := Option.bind_eq_some_iff.mp h
  obtain ⟨⟨fraction, s₂⟩, hfraction, h⟩ := Option.bind_eq_some_iff.mp h
  obtain ⟨⟨exponent, s₃⟩, hexponent, h⟩ := Option.bind_eq_some_iff.mp h
  cases h
  exact ⟨int, s₁, fraction, s₂, exponent, hint, hfraction, hexponent, rfl⟩

theorem readUnsigned_append (h : readUnsigned s = some (literal, rest))
    (ht : rest = [] → Stops t) : readUnsigned (s ++ t) = some (literal, rest ++ t) := by
  obtain ⟨int, s₁, fraction, s₂, exponent, hint, hfraction, hexponent, rfl⟩ :=
    readUnsigned_eq_some h
  -- a part that reaches to the end leaves nothing to the next
  have ht₂ : s₂ = [] → Stops t := by
    rintro rfl
    cases hexponent
    exact ht rfl
  have ht₁ : s₁ = [] → Stops t := by
    rintro rfl
    cases hfraction
    exact ht₂ rfl
  rw [readUnsigned, readIntPart_append hint ht₁]
  show (readFraction (s₁ ++ t)).bind _ = _
  rw [readFraction_append hfraction ht₂]
  show (readExponent (s₂ ++ t)).bind _ = _
  rw [readExponent_append hexponent ht]
  rfl

theorem readUnsigned_split (h : readUnsigned s = some (literal, rest)) :
    s = literal ++ rest ∧ literal ≠ [] := by
  obtain ⟨int, s₁, fraction, s₂, exponent, hint, hfraction, hexponent, rfl⟩ :=
    readUnsigned_eq_some h
  obtain ⟨rfl, hne⟩ := readIntPart_split hint
  rw [readFraction_split hfraction, readExponent_split hexponent]
  simp [hne]

theorem readNumber_append (h : readNumber s = some (literal, rest)) (ht : rest = [] → Stops t) :
    readNumber (s ++ t) = some (literal, rest ++ t) := by
  cases s with
  | nil => cases h
  | cons c s =>
    rw [List.cons_append]
    rw [readNumber] at h ⊢
    split at h
    · rename_i hc
      rw [if_pos hc]
      exact prepend_append (fun h ↦ readUnsigned_append h ht) h
    · rename_i hc
      rw [if_neg hc]
      exact readUnsigned_append h ht

theorem readNumber_split (h : readNumber s = some (literal, rest)) :
    s = literal ++ rest ∧ literal ≠ [] := by
  cases s with
  | nil => cases h
  | cons c s =>
    rw [readNumber] at h
    split at h
    · refine ⟨prepend_split (fun h ↦ (readUnsigned_split h).1) h, ?_⟩
      obtain ⟨r, -, h⟩ := Option.map_eq_some_iff.mp h
      cases h
      exact List.cons_ne_nil _ _
    · exact readUnsigned_split h

end Numbers

/-! ### Values -/

section Items

variable {α : Type} {item : List Char → Option (α × List Char)} {close : Char}

/-- A reader that takes something off the text, and to which the text behind what it leaves makes
no difference. -/
structure Steady (item : List Char → Option (α × List Char)) : Prop where
  shorter {s x rest} : item s = some (x, rest) → rest.length < s.length
  append {s x rest} : item s = some (x, rest) → rest ≠ [] → ∀ t,
    item (s ++ t) = some (x, rest ++ t)

theorem skip_eq_cons {s rest : List Char} {c : Char} (h : skip s = c :: rest) :
    rest.length < s.length := by
  have hle := skip_length s
  rw [h, List.length_cons] at hle
  exact hle

theorem skip_append_cons {s rest : List Char} {c : Char} (h : skip s = c :: rest)
    (t : List Char) : skip (s ++ t) = c :: (rest ++ t) := by
  rw [skip_append (by rw [h]; exact List.cons_ne_nil _ _), h, List.cons_append]

-- An item, and what the character behind it says.
theorem readItems_succ {n : Nat} {s rest : List Char} {xs : List α}
    (h : readItems item close (n + 1) s = some (xs, rest)) :
    ∃ x s₁ c s₂, item s = some (x, s₁) ∧ skip s₁ = c :: s₂ ∧
      (c = close ∧ xs = [x] ∧ s₂ = rest ∨
        c ≠ close ∧ c = ',' ∧ ∃ xs', readItems item close n s₂ = some (xs', rest) ∧
          xs = x :: xs') := by
  rw [readItems] at h
  split at h
  · cases h
  · rename_i x s₁ hitem
    split at h
    · cases h
    · rename_i c s₂ hskip
      refine ⟨x, s₁, c, s₂, hitem, hskip, ?_⟩
      split at h
      · rename_i hc
        cases h
        exact .inl ⟨hc, rfl, rfl⟩
      · rename_i hc
        split at h
        · rename_i hcomma
          obtain ⟨r, hr, h⟩ := Option.map_eq_some_iff.mp h
          cases h
          exact .inr ⟨hc, hcomma, r.1, hr, rfl⟩
        · cases h

theorem readItems_shorter (hitem : Steady item) {n : Nat} {s rest : List Char} {xs : List α}
    (h : readItems item close n s = some (xs, rest)) : rest.length < s.length := by
  induction n generalizing s xs with
  | zero => cases h
  | succ n ih =>
    obtain ⟨x, s₁, c, s₂, hx, hskip, hrest⟩ := readItems_succ h
    have hlt := hitem.shorter hx
    have hlt' := skip_eq_cons hskip
    rcases hrest with ⟨-, -, rfl⟩ | ⟨-, -, xs', hxs, -⟩
    · omega
    · have hlt'' := ih hxs
      omega

/-- More text, and more items allowed. -/
theorem readItems_append (hitem : Steady item) {n m : Nat} {s rest : List Char} {xs : List α}
    (h : readItems item close n s = some (xs, rest)) (hm : s.length ≤ m) (t : List Char) :
    readItems item close m (s ++ t) = some (xs, rest ++ t) := by
  induction n generalizing s xs m with
  | zero => cases h
  | succ n ih =>
    obtain ⟨x, s₁, c, s₂, hx, hskip, hrest⟩ := readItems_succ h
    have hlt := hitem.shorter hx
    have hlt' := skip_eq_cons hskip
    have hne : s₁ ≠ [] := by
      rintro rfl
      cases hskip
    obtain ⟨m, rfl⟩ : ∃ k, m = k + 1 := ⟨m - 1, by omega⟩
    rw [readItems, hitem.append hx hne t]
    dsimp only
    rw [skip_append_cons hskip]
    rcases hrest with ⟨rfl, rfl, rfl⟩ | ⟨hc, rfl, xs', hxs, rfl⟩
    · exact if_pos rfl
    · dsimp only
      rw [if_neg hc, if_pos rfl, ih hxs (by omega)]
      rfl

theorem readBody_shorter (hitem : Steady item) {s rest : List Char} {xs : List α}
    (h : readBody item close s = some (xs, rest)) : rest.length < s.length := by
  rw [readBody] at h
  split at h
  · cases h
  · rename_i c s' hskip
    have hlt := skip_eq_cons hskip
    split at h
    · cases h
      exact hlt
    · have hlt' := readItems_shorter hitem h
      rw [List.length_cons] at hlt'
      omega

theorem readBody_append (hitem : Steady item) {s rest : List Char} {xs : List α}
    (h : readBody item close s = some (xs, rest)) (t : List Char) :
    readBody item close (s ++ t) = some (xs, rest ++ t) := by
  rw [readBody] at h ⊢
  split at h
  · cases h
  · rename_i c s' hskip
    rw [skip_append_cons hskip]
    dsimp only
    split at h
    · rename_i hc
      cases h
      exact if_pos hc
    · rename_i hc
      rw [if_neg hc, ← List.cons_append]
      refine readItems_append hitem h ?_ t
      rw [List.length_cons, List.length_append]
      omega

end Items

theorem keyword_shorter {word s rest : List Char} (h : keyword word s = some rest) :
    rest.length ≤ s.length := by
  rw [keyword_eq_some.mp h, List.length_append]
  exact Nat.le_add_left _ _

theorem readMember_eq_some {value : List Char → Option (Json × List Char)} {s rest : List Char}
    {member : List Char × Json} : readMember value s = some (member, rest) ↔
      ∃ s₁ s₂ s₃, keyword ['"'] (skip s) = some s₁ ∧ readString s₁ = some (member.1, s₂) ∧
        keyword [':'] (skip s₂) = some s₃ ∧ value s₃ = some (member.2, rest) := by
  constructor
  · intro h
    obtain ⟨s₁, h₁, h⟩ := Option.bind_eq_some_iff.mp h
    obtain ⟨⟨name, s₂⟩, h₂, h⟩ := Option.bind_eq_some_iff.mp h
    obtain ⟨s₃, h₃, h⟩ := Option.bind_eq_some_iff.mp h
    obtain ⟨⟨v, s₄⟩, h₄, h⟩ := Option.bind_eq_some_iff.mp h
    cases h
    exact ⟨s₁, s₂, s₃, h₁, h₂, h₃, h₄⟩
  · rintro ⟨s₁, s₂, s₃, h₁, h₂, h₃, h₄⟩
    refine Option.bind_eq_some_iff.mpr ⟨s₁, h₁, ?_⟩
    refine Option.bind_eq_some_iff.mpr ⟨_, h₂, ?_⟩
    refine Option.bind_eq_some_iff.mpr ⟨s₃, h₃, ?_⟩
    exact Option.bind_eq_some_iff.mpr ⟨_, h₄, rfl⟩

-- A word that comes is not behind the end of the text.
theorem skip_ne_nil {c : Char} {s rest : List Char} (h : keyword [c] (skip s) = some rest) :
    skip s ≠ [] := by
  rw [keyword_eq_some.mp h]
  exact List.cons_ne_nil _ _

theorem Steady.readMember {value : List Char → Option (Json × List Char)} (hvalue : Steady value) :
    Steady (readMember value) where
  shorter := by
    intro s member rest h
    obtain ⟨s₁, s₂, s₃, h₁, h₂, h₃, h₄⟩ := readMember_eq_some.mp h
    have hlt₁ := keyword_shorter h₁
    have hlt₂ := readString_length h₂
    have hlt₃ := keyword_shorter h₃
    have hlt₄ := hvalue.shorter h₄
    have hskip := skip_length s
    have hskip' := skip_length s₂
    omega
  append := by
    intro s member rest h hrest t
    obtain ⟨s₁, s₂, s₃, h₁, h₂, h₃, h₄⟩ := readMember_eq_some.mp h
    refine readMember_eq_some.mpr ⟨s₁ ++ t, s₂ ++ t, s₃ ++ t, ?_, readString_append h₂ t, ?_,
      hvalue.append h₄ hrest t⟩
    · rw [skip_append (skip_ne_nil h₁)]
      exact keyword_append h₁ t
    · rw [skip_append (skip_ne_nil h₃)]
      exact keyword_append h₃ t

theorem readScalar_shorter {s rest : List Char} {v : Json}
    (h : readScalar s = some (v, rest)) : rest.length < s.length := by
  cases s with
  | nil => cases h
  | cons c s =>
    have hword {word rest' : List Char} {x : Json}
        (h : (keyword word s).map (fun rest ↦ (x, rest)) = some (v, rest')) :
        rest'.length < (c :: s).length := by
      obtain ⟨r, hr, h⟩ := Option.map_eq_some_iff.mp h
      cases h
      exact Nat.lt_succ_of_le (keyword_shorter hr)
    rw [readScalar] at h
    split at h
    · exact hword h
    · split at h
      · exact hword h
      · split at h
        · exact hword h
        · split at h
          · obtain ⟨r, hr, h⟩ := Option.map_eq_some_iff.mp h
            cases h
            exact Nat.lt_succ_of_lt (readString_length hr)
          · obtain ⟨r, hr, h⟩ := Option.map_eq_some_iff.mp h
            cases h
            obtain ⟨heq, hne⟩ := readNumber_split hr
            rw [heq, List.length_append]
            have hpos := List.length_pos_iff.mpr hne
            omega

theorem readScalar_append {s rest : List Char} {v : Json} (h : readScalar s = some (v, rest))
    {t : List Char} (ht : ∀ literal, v = .number literal → rest = [] → Stops t) :
    readScalar (s ++ t) = some (v, rest ++ t) := by
  cases s with
  | nil => cases h
  | cons c s =>
    have hword {word : List Char} {x : Json}
        (h : (keyword word s).map (fun rest ↦ (x, rest)) = some (v, rest)) :
        (keyword word (s ++ t)).map (fun rest ↦ (x, rest)) = some (v, rest ++ t) := by
      obtain ⟨r, hr, h⟩ := Option.map_eq_some_iff.mp h
      cases h
      rw [keyword_append hr]
      rfl
    rw [List.cons_append]
    rw [readScalar] at h ⊢
    split at h
    · rename_i hn
      rw [if_pos hn]
      exact hword h
    · rename_i hn
      rw [if_neg hn]
      split at h
      · rename_i ht
        rw [if_pos ht]
        exact hword h
      · rename_i ht
        rw [if_neg ht]
        split at h
        · rename_i hf
          rw [if_pos hf]
          exact hword h
        · rename_i hf
          rw [if_neg hf]
          split at h
          · rename_i hq
            obtain ⟨r, hr, h⟩ := Option.map_eq_some_iff.mp h
            cases h
            rw [if_pos hq, readString_append hr]
            rfl
          · rename_i hq
            obtain ⟨r, hr, h⟩ := Option.map_eq_some_iff.mp h
            cases h
            rw [if_neg hq, ← List.cons_append, readNumber_append hr (ht _ rfl)]
            rfl

-- What a value begins with, and how it goes on.
theorem readValue_cases {depth : Nat} {s rest : List Char} {v : Json}
    (h : readValue depth s = some (v, rest)) :
    ∃ c s', skip s = c :: s' ∧
      ((∃ inner vs, c = '[' ∧ depth = inner + 1 ∧ v = .array vs ∧
          readBody (readValue inner) ']' s' = some (vs, rest)) ∨
        (∃ inner ms, c = '{' ∧ depth = inner + 1 ∧ v = .object ms ∧
          readBody (readMember (readValue inner)) '}' s' = some (ms, rest)) ∨
        c ≠ '[' ∧ c ≠ '{' ∧ readScalar (c :: s') = some (v, rest)) := by
  rw [readValue] at h
  split at h
  · cases h
  · rename_i c s' hskip
    refine ⟨c, s', hskip, ?_⟩
    split at h
    · rename_i hc
      cases depth with
      | zero => cases h
      | succ inner =>
        obtain ⟨r, hr, h⟩ := Option.map_eq_some_iff.mp h
        cases h
        exact .inl ⟨inner, r.1, hc, rfl, rfl, hr⟩
    · rename_i hc
      split at h
      · rename_i hc'
        cases depth with
        | zero => cases h
        | succ inner =>
          obtain ⟨r, hr, h⟩ := Option.map_eq_some_iff.mp h
          cases h
          exact .inr (.inl ⟨inner, r.1, hc', rfl, rfl, hr⟩)
      · rename_i hc'
        exact .inr (.inr ⟨hc, hc', h⟩)

section Value

variable {depth : Nat} {s rest : List Char} {v : Json}

theorem readValue_shorter (hinner : ∀ inner, depth = inner + 1 → Steady (readValue inner))
    (h : readValue depth s = some (v, rest)) : rest.length < s.length := by
  obtain ⟨c, s', hskip, hcases⟩ := readValue_cases h
  have hlt := skip_eq_cons hskip
  rcases hcases with ⟨inner, vs, -, hdepth, -, hbody⟩ | ⟨inner, ms, -, hdepth, -, hbody⟩ |
    ⟨-, -, hscalar⟩
  · have hlt' := readBody_shorter (hinner inner hdepth) hbody
    omega
  · have hlt' := readBody_shorter (hinner inner hdepth).readMember hbody
    omega
  · have hlt' := readScalar_shorter hscalar
    rw [List.length_cons] at hlt'
    omega

theorem readValue_append_aux (hinner : ∀ inner, depth = inner + 1 → Steady (readValue inner))
    (h : readValue depth s = some (v, rest)) {t : List Char}
    (ht : ∀ literal, v = .number literal → rest = [] → Stops t) :
    readValue depth (s ++ t) = some (v, rest ++ t) := by
  obtain ⟨c, s', hskip, hcases⟩ := readValue_cases h
  rw [readValue, skip_append_cons hskip]
  dsimp only
  rcases hcases with ⟨inner, vs, rfl, hdepth, rfl, hbody⟩ | ⟨inner, ms, rfl, hdepth, rfl, hbody⟩ |
    ⟨hc, hc', hscalar⟩
  · subst hdepth
    rw [if_pos rfl]
    dsimp only
    rw [readBody_append (hinner inner rfl) hbody]
    rfl
  · subst hdepth
    rw [if_neg (by decide), if_pos rfl]
    dsimp only
    rw [readBody_append (hinner inner rfl).readMember hbody]
    rfl
  · rw [if_neg hc, if_neg hc', ← List.cons_append]
    exact readScalar_append hscalar ht

variable (depth) in
theorem readValue_steady : Steady (readValue depth) := by
  induction depth with
  | zero =>
    have hinner (inner : Nat) (h : 0 = inner + 1) : Steady (readValue inner) := by cases h
    exact ⟨readValue_shorter hinner, fun h hrest t ↦
      readValue_append_aux hinner h fun _ _ hnil ↦ absurd hnil hrest⟩
  | succ depth ih =>
    have hinner (inner : Nat) (h : depth + 1 = inner + 1) : Steady (readValue inner) := by
      cases h
      exact ih
    exact ⟨readValue_shorter hinner, fun h hrest t ↦
      readValue_append_aux hinner h fun _ _ hnil ↦ absurd hnil hrest⟩

/-- A value is read as it is whatever stands behind it, unless it is a number and goes on. -/
theorem readValue_append (h : readValue depth s = some (v, rest)) {t : List Char}
    (ht : ∀ literal, v = .number literal → rest = [] → Stops t) :
    readValue depth (s ++ t) = some (v, rest ++ t) :=
  readValue_append_aux (fun inner _ ↦ readValue_steady inner) h ht

end Value

end AsrServe.Reasoning.JsonText
