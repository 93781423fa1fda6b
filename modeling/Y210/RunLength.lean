import Mathlib.Data.List.Basic

/-!
# Run-length codes

A code word stands for a number of copies of one symbol; a word of its own ends the text. Decoding
inverts the encoder of any format, and a decoder that fills memory as it goes leaves there what the
text decodes to.
-/
namespace RunLength

variable {α β : Type}

structure Code (α β : Type) where
  symbol : β → α
  count : β → Nat
  stop : β → Bool

/-- `none` where the text has no end. -/
def decode (k : Code α β) : List β → Option (List α)
  | [] => none
  | word :: rest =>
    if k.stop word then some []
    else (decode k rest).map (List.replicate (k.count word) (k.symbol word) ++ ·)

/-- The same words for other symbols. -/
def Code.map {γ : Type} (g : α → γ) (k : Code α β) : Code γ β := ⟨g ∘ k.symbol, k.count, k.stop⟩

theorem decode_map {γ : Type} (g : α → γ) (k : Code α β) (words : List β) :
    decode (k.map g) words = (decode k words).map (List.map g) := by
  induction words with
  | nil => rfl
  | cons word rest ih =>
    by_cases hstop : k.stop word
    · simp [decode, Code.map, hstop]
    · have hs : (k.map g).stop word = false := by simpa [Code.map] using hstop
      rw [decode, decode, hs, ih]
      simp [hstop, Code.map, Function.comp_def]

/-- A code with a word for each symbol and each count from 1 to `most`. -/
structure Format (α β : Type) extends Code α β where
  most : Nat
  most_pos : 0 < most
  word : α → Nat → β
  symbol_word : ∀ a n, n ≤ most → symbol (word a n) = a
  count_word : ∀ a n, n ≤ most → count (word a n) = n
  stop_word : ∀ a n, 0 < n → n ≤ most → stop (word a n) = false
  endWord : β
  stop_endWord : stop endWord = true

/-! ## The encoder -/

def expand (runs : List (α × Nat)) : List α := runs.flatMap fun r => List.replicate r.2 r.1

@[simp] theorem expand_nil : expand ([] : List (α × Nat)) = [] := rfl
@[simp] theorem expand_cons (r : α × Nat) (rs : List (α × Nat)) :
    expand (r :: rs) = List.replicate r.2 r.1 ++ expand rs := rfl

theorem decode_words (f : Format α β) (rest : List β) (rs : List (α × Nat))
    (h : ∀ r ∈ rs, 0 < r.2 ∧ r.2 ≤ f.most) :
    decode f.toCode (rs.map (fun r => f.word r.1 r.2) ++ f.endWord :: rest) = some (expand rs) := by
  induction rs with
  | nil => simp [decode, f.stop_endWord]
  | cons r rs ih =>
    obtain ⟨⟨hpos, hmost⟩, hrs⟩ := List.forall_mem_cons.mp h
    rw [List.map_cons, List.cons_append, decode, ih hrs, f.stop_word r.1 r.2 hpos hmost]
    simp [f.symbol_word r.1 r.2 hmost, f.count_word r.1 r.2 hmost]

section
variable [DecidableEq α]

/-- One more symbol in front; a full run is left as it is. -/
def push (most : Nat) (a : α) : List (α × Nat) → List (α × Nat)
  | [] => [(a, 1)]
  | (b, n) :: runs => if a = b ∧ n < most then (b, n + 1) :: runs else (a, 1) :: (b, n) :: runs

def runs (most : Nat) (text : List α) : List (α × Nat) := text.foldr (push most) []

def encode (f : Format α β) (text : List α) : List β :=
  (runs f.most text).map (fun r => f.word r.1 r.2) ++ [f.endWord]

theorem expand_push (most : Nat) (a : α) (rs : List (α × Nat)) : expand (push most a rs) = a :: expand rs := by
  cases rs with
  | nil => rfl
  | cons r rs =>
    obtain ⟨b, n⟩ := r
    simp only [push]
    split
    · rename_i h
      rw [h.1]
      simp [List.replicate_succ]
    · simp

theorem expand_runs (most : Nat) (text : List α) : expand (runs most text) = text := by
  induction text with
  | nil => rfl
  | cons a text ih =>
    rw [runs, List.foldr_cons, expand_push]
    exact congrArg (a :: ·) ih

theorem push_bounds {most : Nat} (hmost : 0 < most) {a : α} {rs : List (α × Nat)}
    (h : ∀ r ∈ rs, 0 < r.2 ∧ r.2 ≤ most) : ∀ r ∈ push most a rs, 0 < r.2 ∧ r.2 ≤ most := by
  have hone : 0 < 1 ∧ 1 ≤ most := ⟨by omega, hmost⟩
  cases rs with
  | nil => simpa [push] using hone
  | cons r rs =>
    obtain ⟨b, n⟩ := r
    obtain ⟨hb, hrs⟩ := List.forall_mem_cons.mp h
    simp only [push]
    split
    · rename_i hn
      exact List.forall_mem_cons.mpr ⟨⟨by omega, hn.2⟩, hrs⟩
    · exact List.forall_mem_cons.mpr ⟨hone, h⟩

theorem runs_bounds {most : Nat} (hmost : 0 < most) (text : List α) :
    ∀ r ∈ runs most text, 0 < r.2 ∧ r.2 ≤ most := by
  induction text with
  | nil => simp [runs]
  | cons a text ih => exact push_bounds hmost ih

/-- The round trip, whatever stands behind the text. -/
theorem decode_encode (f : Format α β) (text : List α) (rest : List β) :
    decode f.toCode (encode f text ++ rest) = some text := by
  rw [encode, List.append_assoc, List.singleton_append, decode_words f rest _ (runs_bounds f.most_pos text),
    expand_runs]

end

/-! ## Filling memory -/

/-- Memory that is filled from the left: its cells, the next one, and the places written so far. -/
structure Sheet (α : Type) where
  cells : Nat → Option α
  next : Nat
  writes : List Nat

namespace Sheet

def blank : Sheet α := ⟨fun _ => none, 0, []⟩

def put (a : α) (s : Sheet α) : Sheet α where
  cells i := if i = s.next then some a else s.cells i
  next := s.next + 1
  writes := s.next :: s.writes

def fill (a : α) : Nat → Sheet α → Sheet α
  | 0, s => s
  | n + 1, s => fill a n (s.put a)

/-- The sheet holds the text, and nothing else was written. -/
structure Holds (s : Sheet α) (text : List α) : Prop where
  cells : ∀ i, s.cells i = text[i]?
  next : s.next = text.length
  writes : ∀ i, i ∈ s.writes ↔ i < text.length

theorem holds_blank : Holds (blank : Sheet α) [] := ⟨by simp [blank], rfl, by simp [blank]⟩

theorem Holds.put {s : Sheet α} {text : List α} (h : s.Holds text) (a : α) : (s.put a).Holds (text ++ [a]) where
  cells i := by
    simp only [Sheet.put, h.next, h.cells, List.getElem?_append, List.getElem?_singleton]
    by_cases hlt : i < text.length
    · simp [hlt, Nat.ne_of_lt hlt]
    · by_cases heq : i = text.length
      · simp [heq]
      · simp [hlt, heq, show i - text.length ≠ 0 from by omega]
  next := by simp [Sheet.put, h.next]
  writes i := by
    simp only [Sheet.put, List.mem_cons, h.next, h.writes, List.length_append, List.length_singleton]
    omega

theorem Holds.fill {s : Sheet α} {text : List α} (h : s.Holds text) (a : α) (n : Nat) :
    (s.fill a n).Holds (text ++ List.replicate n a) := by
  induction n generalizing s text with
  | zero => simpa [Sheet.fill] using h
  | succ n ih =>
    have hstep := ih (h.put a)
    rwa [List.append_assoc, List.singleton_append, ← List.replicate_succ] at hstep

/-- Every place written lies in a block exactly when the text fits there. -/
theorem Holds.writes_lt_iff {s : Sheet α} {text : List α} (h : s.Holds text) (size : Nat) :
    (∀ i ∈ s.writes, i < size) ↔ text.length ≤ size := by
  constructor
  · intro hw
    by_contra hlt
    exact Nat.lt_irrefl size (hw size ((h.writes size).mpr (by omega)))
  · intro hle i hi
    exact Nat.lt_of_lt_of_le ((h.writes i).mp hi) hle

/-- Every cell of a block is written exactly when the text covers it. -/
theorem Holds.covers_iff {s : Sheet α} {text : List α} (h : s.Holds text) (size : Nat) :
    (∀ i, i < size → (s.cells i).isSome) ↔ size ≤ text.length := by
  constructor
  · intro hc
    by_contra hlt
    have hsome := hc text.length (by omega)
    simp [h.cells] at hsome
  · intro hle i hi
    rw [h.cells, List.getElem?_eq_getElem (Nat.lt_of_lt_of_le hi hle)]
    rfl

end Sheet

/-- A decoder that fills a sheet word by word. -/
def unpack (k : Code α β) : List β → Sheet α → Option (Sheet α)
  | [], _ => none
  | word :: rest, s => if k.stop word then some s else unpack k rest (s.fill (k.symbol word) (k.count word))

theorem unpack_eq_none_iff (k : Code α β) {words : List β} {s : Sheet α} :
    unpack k words s = none ↔ decode k words = none := by
  induction words generalizing s with
  | nil => simp [unpack, decode]
  | cons word rest ih =>
    by_cases hstop : k.stop word
    · simp [unpack, decode, hstop]
    · simp [unpack, decode, hstop, ih]

/-- It leaves the decoded text behind the old one. -/
theorem unpack_of_decode (k : Code α β) {words : List β} {text before : List α} {s : Sheet α}
    (hd : decode k words = some text) (h : s.Holds before) :
    ∃ s', unpack k words s = some s' ∧ s'.Holds (before ++ text) := by
  induction words generalizing s before text with
  | nil => cases hd
  | cons word rest ih =>
    by_cases hstop : k.stop word
    · obtain rfl : [] = text := by simpa [decode, hstop] using hd
      exact ⟨s, by simp [unpack, hstop], by simpa using h⟩
    · obtain ⟨tail, htail, rfl⟩ : ∃ tail, decode k rest = some tail ∧
          List.replicate (k.count word) (k.symbol word) ++ tail = text := by
        simpa [decode, hstop] using hd
      obtain ⟨s', hs', hholds⟩ := ih htail (h.fill (k.symbol word) (k.count word))
      exact ⟨s', by simpa [unpack, hstop] using hs', by rwa [List.append_assoc] at hholds⟩

end RunLength
