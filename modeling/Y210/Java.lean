import Mathlib.Data.List.Basic

/-!
# Java calls

What the framework's Java code does with arrays, numbers and texts, and the exceptions
that these calls throw. A reference to a string that may be null is an `Option String`.
-/
namespace Java

inductive Thrown where
  | numberFormat (text : Option String)
  | illegalArgument
  | nullPointer
  | indexOutOfBounds
  deriving DecidableEq, Repr

/-- `array[i]`. -/
def index {α : Type} (array : List α) (i : Nat) : Except Thrown α :=
  match array[i]? with
  | some a => .ok a
  | none => .error .indexOutOfBounds

/-- The value of decimal digits; `digit` is `Character.digit(c, 10)`. -/
def digitsValue (digit : Char → Option Nat) (digits : List Char) : Option Nat :=
  digits.foldlM (fun value c => (digit c).map (value * 10 + ·)) 0

/-- The number that a text stands for, within the range of `int`. -/
def intValue (digit : Char → Option Nat) (text : String) : Option Int :=
  let (negative, digits) := match text.toList with
    | '-' :: rest => (true, rest)
    | all => (false, all)
  if digits = [] then none
  else match digitsValue digit digits with
    | none => none
    | some n =>
      let value : Int := if negative then -n else n
      if -2147483648 ≤ value ∧ value ≤ 2147483647 then some value else none

/-- `Integer.parseInt`. -/
def parseInt (digit : Char → Option Nat) (text : Option String) : Except Thrown Int :=
  match text.bind (intValue digit) with
  | some value => .ok value
  | none => .error (.numberFormat text)

/-- `text.split(c)`: trailing empty parts are dropped, unless `c` is nowhere. -/
def split (c : Char) (text : String) : List String :=
  let parts := text.toList.splitOn c
  if parts.length = 1 then [text]
  else (parts.reverse.dropWhile List.isEmpty).reverse.map String.ofList

/-! ## Calls that return -/

variable {α β : Type}

/-- The call ends without an exception. -/
def Returns (x : Except Thrown α) : Prop := ∃ a, x = .ok a

theorem bind_eq_ok {x : Except Thrown α} {f : α → Except Thrown β} {b : β} :
    x >>= f = .ok b ↔ ∃ a, x = .ok a ∧ f a = .ok b := by
  cases x with
  | error e => exact ⟨nofun, fun ⟨_, h, _⟩ => nomatch h⟩
  | ok a => exact ⟨fun h => ⟨a, rfl, h⟩, fun ⟨_, h, hf⟩ => by cases h; exact hf⟩

@[simp] theorem returns_ok (a : α) : Returns (.ok a : Except Thrown α) := ⟨a, rfl⟩

@[simp] theorem not_returns_error (e : Thrown) : ¬ Returns (.error e : Except Thrown α) := nofun

theorem ok_bind (a : α) (f : α → Except Thrown β) : (Except.ok a : Except Thrown α) >>= f = f a := rfl

theorem returns_pure (a : α) : Returns (pure a : Except Thrown α) := ⟨a, rfl⟩

theorem returns_bind {x : Except Thrown α} {f : α → Except Thrown β} :
    Returns (x >>= f) ↔ ∃ a, x = .ok a ∧ Returns (f a) := by
  cases x with
  | error e => exact ⟨nofun, fun ⟨_, h, _⟩ => nomatch h⟩
  | ok a => exact ⟨fun h => ⟨a, rfl, h⟩, fun ⟨_, h, hf⟩ => by cases h; exact hf⟩

/-- What follows returns whatever the call gives. -/
theorem returns_bind_of {x : Except Thrown α} {f : α → Except Thrown β} (h : ∀ a, Returns (f a)) :
    Returns (x >>= f) ↔ Returns x := by
  rw [returns_bind]
  exact exists_congr fun a => and_iff_left (h a)

theorem index_lt {array : List α} {i : Nat} (h : i < array.length) : index array i = .ok array[i] := by
  rw [index, List.getElem?_eq_getElem h]

theorem parseInt_returns {digit : Char → Option Nat} {text : Option String} :
    Returns (parseInt digit text) ↔ ∃ t n, text = some t ∧ intValue digit t = some n := by
  unfold parseInt
  cases text with
  | none => simp
  | some t => cases h : intValue digit t <;> simp [h]

example : split ' ' "8.8.8.8 1.1.1.1 " = ["8.8.8.8", "1.1.1.1"] := by decide +kernel
example : split ' ' "  " = [] ∧ split ' ' "" = [""] := by decide +kernel

end Java
