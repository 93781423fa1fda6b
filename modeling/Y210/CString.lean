import Mathlib.Data.List.Basic

/-!
# C string functions

`strtol` and `strcasecmp` on lists of characters.
-/
namespace CString

def isSpace (c : Char) : Bool := c = ' ' || ('\t' ≤ c && c ≤ '\r')

/-- The value of a digit in any base up to 36. -/
def digitValue (c : Char) : Option Nat :=
  if '0' ≤ c && c ≤ '9' then some (c.toNat - '0'.toNat)
  else if 'a' ≤ c && c ≤ 'z' then some (c.toNat - 'a'.toNat + 10)
  else if 'A' ≤ c && c ≤ 'Z' then some (c.toNat - 'A'.toNat + 10)
  else none

/-- Accumulate digits of the base; the rest starts at the first other character. -/
def digits (base : Nat) : Nat → List Char → Nat × List Char
  | acc, [] => (acc, [])
  | acc, c :: rest =>
    match digitValue c with
    | some d => if d < base then digits base (acc * base + d) rest else (acc, c :: rest)
    | none => (acc, c :: rest)

/-- A first character that is a digit of the base. -/
def startsDigit (base : Nat) : List Char → Bool
  | [] => false
  | c :: _ => match digitValue c with
    | some d => d < base
    | none => false

/-- The optional `0x` of base 16 (or 0), kept only when a digit follows it; base 0
otherwise means octal after a leading zero and decimal without one. -/
def stripBase (base : Nat) (s : List Char) : Nat × List Char :=
  match s with
  | '0' :: x :: rest =>
    if (base = 0 ∨ base = 16) ∧ (x = 'x' ∨ x = 'X') ∧ startsDigit 16 rest then (16, rest)
    else (if base = 0 then 8 else base, s)
  | '0' :: [] => (if base = 0 then 8 else base, s)
  | _ => (if base = 0 then 10 else base, s)

def longMax : Int := 2147483647
def longMin : Int := -2147483648

/-- `strtol(s, &end, base)` with a 32-bit `long`: the value, clamped to its range,
and the text at `end`, which is all of `s` when nothing was converted. -/
def strtol (base : Nat) (s : List Char) : Int × List Char :=
  let t := s.dropWhile isSpace
  let (neg, t) := match t with
    | '-' :: rest => (true, rest)
    | '+' :: rest => (false, rest)
    | _ => (false, t)
  let (base, t) := stripBase base t
  if startsDigit base t then
    let (n, rest) := digits base 0 t
    (if neg then max longMin (-(n : Int)) else min longMax n, rest)
  else (0, s)

theorem digitValue_of_isSpace {c : Char} (h : isSpace c = true) : digitValue c = none := by
  have hlt : c.toNat < 48 := by
    rcases Bool.or_eq_true_iff.mp h with h | h
    · have hc : c = ' ' := by simpa using h
      rw [hc]
      decide
    · have hle : c ≤ '\r' := by simpa using (Bool.and_eq_true_iff.mp h).2
      have hnat : c.toNat ≤ '\r'.toNat := hle
      exact Nat.lt_of_le_of_lt hnat (by decide)
  have hnot : ∀ d : Char, 48 ≤ d.toNat → ¬ d ≤ c := by
    intro d hd hle
    have hnat : d.toNat ≤ c.toNat := hle
    omega
  simp [digitValue, hnot '0' (by decide), hnot 'a' (by decide), hnot 'A' (by decide)]

/-- Digits up to the blanks. -/
theorem digits_append_spaces {base acc : Nat} {s blanks : List Char} (hs : (digits base acc s).2 = [])
    (hb : ∀ c ∈ blanks, isSpace c = true) : digits base acc (s ++ blanks) = ((digits base acc s).1, blanks) := by
  induction s generalizing acc with
  | nil =>
    cases blanks with
    | nil => rfl
    | cons c blanks =>
      have hc := digitValue_of_isSpace (hb c List.mem_cons_self)
      simp [digits, hc]
  | cons c s ih =>
    rw [digits] at hs
    rw [List.cons_append, digits, digits]
    cases hd : digitValue c with
    | none => simp [hd] at hs
    | some d =>
      rw [hd] at hs
      by_cases hlt : d < base
      · simp only [hlt, if_true] at hs ⊢
        exact ih hs
      · simp [hlt] at hs

def toLower (c : Char) : Char := if 'A' ≤ c && c ≤ 'Z' then Char.ofNat (c.toNat + 32) else c

/-- `!strcasecmp(s, t)`. -/
def sameIgnoringCase (s t : String) : Bool := s.toList.map toLower = t.toList.map toLower

example : strtol 0 "0x06".toList = (6, []) := by decide
example : strtol 10 " -12;".toList = (-12, [';']) := by decide

end CString
