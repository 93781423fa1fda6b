import Mathlib.Data.List.TakeWhile

/-!
# Columns and tokens

Separators cut a line into columns. `strtok` runs over neighbouring separators at once: it
sees the columns that are not empty.
-/
namespace Tokens

variable {α : Type*} [DecidableEq α] (sep : α)

/-- The next token and what is behind the separator that ends it. -/
def strtok (s : List α) : Option (List α × List α) :=
  match s.dropWhile (· = sep) with
  | [] => none
  | c :: t => some ((c :: t).takeWhile (· ≠ sep), ((c :: t).dropWhile (· ≠ sep)).tail)

def columns (s : List α) : List (List α) := s.splitOn sep

/-- The columns that are not empty. -/
def tokens (s : List α) : List (List α) := (columns sep s).filter (· ≠ [])

/-- The text of a column; nothing when the line ends before it. -/
def column (s : List α) (k : Nat) : List α := (columns sep s).getD k []

def token (s : List α) (k : Nat) : List α := (tokens sep s).getD k []

/-! ## `strtok` reads the tokens -/

theorem strtok_sep (s : List α) : strtok sep (sep :: s) = strtok sep s := by
  unfold strtok
  rw [List.dropWhile_cons_of_pos (by simp)]

theorem tokens_sep (s : List α) : tokens sep (sep :: s) = tokens sep s := by
  simp [tokens, columns, List.splitOn_cons_eq_if_modifyHead]

variable {sep}

theorem strtok_cons {c : α} (h : c ≠ sep) (s : List α) : strtok sep (c :: s) =
    some (c :: s.takeWhile (· ≠ sep), (s.dropWhile (· ≠ sep)).tail) := by
  unfold strtok
  rw [List.dropWhile_cons_of_neg (by simpa using h)]
  simp [h]

/-- A text that begins with a token. -/
theorem columns_cons {c : α} (h : c ≠ sep) (s : List α) : columns sep (c :: s) =
    (c :: s.takeWhile (· ≠ sep)) ::
      if s.dropWhile (· ≠ sep) = [] then [] else columns sep (s.dropWhile (· ≠ sep)).tail := by
  have hsplit : c :: s = (c :: s.takeWhile (· ≠ sep)) ++ s.dropWhile (· ≠ sep) := by
    rw [List.cons_append, List.takeWhile_append_dropWhile]
  have hnot : sep ∉ c :: s.takeWhile (· ≠ sep) := by
    intro hmem
    rcases List.mem_cons.mp hmem with he | hmem
    · exact h he.symm
    · simpa using List.mem_takeWhile_imp hmem
  unfold columns
  cases hd : s.dropWhile (· ≠ sep) with
  | nil =>
    rw [hd, List.append_nil] at hsplit
    rw [if_pos rfl, hsplit]
    exact List.splitOn_eq_singleton hnot
  | cons d rest =>
    have hsep : d = sep := by
      have hhead := List.head?_dropWhile_not (fun x => decide (x ≠ sep)) s
      rw [hd] at hhead
      simpa using hhead
    rw [hd, hsep] at hsplit
    rw [if_neg (List.cons_ne_nil _ _), hsplit, List.tail_cons]
    exact List.splitOn_append_cons_self_of_not_mem hnot rest

/-- The tokens are what `strtok` returns call after call. -/
theorem tokens_eq (s : List α) : tokens sep s =
    match strtok sep s with
    | none => []
    | some (t, rest) => t :: tokens sep rest := by
  induction s with
  | nil => rfl
  | cons c s ih =>
    by_cases hc : c = sep
    · subst hc
      rw [tokens_sep, strtok_sep, ih]
    · rw [strtok_cons hc, tokens, columns_cons hc]
      cases hd : s.dropWhile (· ≠ sep) with
      | nil => simp [tokens, columns]
      | cons d rest => simp [tokens]

theorem tokens_of_none {s : List α} (h : strtok sep s = none) : tokens sep s = [] := by
  rw [tokens_eq, h]

theorem tokens_of_some {s t rest : List α} (h : strtok sep s = some (t, rest)) :
    tokens sep s = t :: tokens sep rest := by
  rw [tokens_eq, h]

/-! ## Where the tokens stand -/

omit [DecidableEq α] in
theorem getD_filter {l : List (List α)} {n : Nat} (h : ∀ j < n, l.getD j [] ≠ []) {k : Nat} (hk : k < n) :
    (l.filter (· ≠ [])).getD k [] = l.getD k [] := by
  induction l generalizing n k with
  | nil => rfl
  | cons c l ih =>
    have hc : c ≠ [] := h 0 (by omega)
    rw [List.filter_cons_of_pos (by simpa using hc)]
    cases k with
    | zero => rfl
    | succ k =>
      obtain ⟨n, rfl⟩ : ∃ m, n = m + 1 := ⟨n - 1, by omega⟩
      exact ih (fun j hj => h (j + 1) (by omega)) (Nat.lt_of_succ_lt_succ hk)

/-- As long as no column is empty, they are the tokens. -/
theorem token_eq_column {s : List α} {n : Nat} (h : ∀ j < n, column sep s j ≠ []) {k : Nat} (hk : k < n) :
    token sep s k = column sep s k := getD_filter h hk

/-- Behind an empty second column the tokens are one column ahead. -/
theorem token_of_gap {s : List α} {n : Nat} (h0 : column sep s 0 ≠ []) (h1 : column sep s 1 = [])
    (h : ∀ j < n, column sep s (2 + j) ≠ []) {k : Nat} (hk : k < n) :
    token sep s (1 + k) = column sep s (2 + k) := by
  unfold token tokens column at *
  have hlast := h k hk
  generalize columns sep s = l at *
  match l, h0, h1, h, hlast with
  | [], h0, _, _, _ => exact absurd rfl h0
  | [c], _, _, _, hlast => exact absurd (by simp [Nat.add_comm]) hlast
  | c :: d :: l, h0, h1, h, _ =>
    have hc : c ≠ [] := h0
    have hd : d = [] := h1
    have hrest : ∀ j < n, l.getD j [] ≠ [] := by
      intro j hj
      have hj' := h j hj
      rwa [Nat.add_comm] at hj'
    rw [List.filter_cons_of_pos (by simpa using hc), List.filter_cons_of_neg (by simpa using hd), Nat.add_comm 1,
      Nat.add_comm 2]
    exact getD_filter hrest hk

end Tokens
