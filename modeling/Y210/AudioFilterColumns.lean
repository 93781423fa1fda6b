import Mathlib.Data.List.DropRight
import Y210.AudioFilterRecords

/-!
# The columns of a filter record

`check_and_set_audpp_parameters` reads tokens where the file has columns, and takes of a token
what `strtol` makes of it. The laws below say for which lines that is the same.
-/
namespace AudioFilterColumns

open AudioDrivers AudioHardware AudioStreams AudioFilter AudioFilterRecords
open Tokens (tokens column token)

/-! ## Numbers -/

def trim (p : List Char) : List Char := (p.dropWhile CString.isSpace).rdropWhile CString.isSpace

def strip0x : List Char → List Char
  | '0' :: x :: rest => if x = 'x' ∨ x = 'X' then rest else '0' :: x :: rest
  | s => s

/-- The number of a column that is, apart from the blanks around it, a complete hexadecimal
literal of 16 bits. -/
def literal16 (p : List Char) : Option Nat :=
  let s := strip0x (trim p)
  if CString.startsDigit 16 s && (CString.digits 16 0 s).2 = [] && (CString.digits 16 0 s).1 < 65536 then
    some (CString.digits 16 0 s).1
  else none

theorem trim_append (p : List Char) : ∃ blanks : List Char, (∀ c ∈ blanks, CString.isSpace c = true) ∧
    p.dropWhile CString.isSpace = trim p ++ blanks := by
  refine ⟨(p.dropWhile CString.isSpace).rtakeWhile CString.isSpace, ?_, ?_⟩
  · intro c hc
    exact List.mem_rtakeWhile_imp hc
  · exact (List.rdropWhile_append_rtakeWhile ..).symm

theorem stripBase_literal {s blanks : List Char} (hs : CString.startsDigit 16 (strip0x s) = true)
    (hb : ∀ c ∈ blanks, CString.isSpace c = true) :
    CString.stripBase 16 (s ++ blanks) = (16, strip0x s ++ blanks) := by
  match s, hs with
  | [], hs => cases hs
  | [c], _ =>
    by_cases hc : c = '0'
    · subst hc
      cases blanks with
      | nil => rfl
      | cons b blanks =>
        have hnot : ¬ (b = 'x' ∨ b = 'X') := by
          have hsp := hb b List.mem_cons_self
          rintro (rfl | rfl) <;> cases hsp
        simp [CString.stripBase, strip0x, hnot]
    · simp [CString.stripBase, strip0x, hc]
  | c :: x :: rest, hs =>
    by_cases hc : c = '0'
    · subst hc
      by_cases hx : x = 'x' ∨ x = 'X'
      · have hrest : CString.startsDigit 16 (rest ++ blanks) = true := by
          rw [strip0x, if_pos hx] at hs
          cases rest with
          | nil => cases hs
          | cons d rest => exact hs
        simp [CString.stripBase, strip0x, hx, hrest]
      · simp [CString.stripBase, strip0x, hx]
    · simp [CString.stripBase, strip0x, hc]

/-- Of a complete literal `strtol` makes its number. -/
theorem value_of_literal {p : List Char} {v : Nat} (h : literal16 p = some v) : value p = v := by
  obtain ⟨blanks, hb, htrim⟩ := trim_append p
  simp only [literal16, Bool.and_eq_true, decide_eq_true_eq, Option.ite_none_right_eq_some, Option.some.injEq] at h
  obtain ⟨⟨⟨hstart, hrest⟩, hlt⟩, rfl⟩ := h
  have hbase := stripBase_literal hstart hb
  have hdigits := CString.digits_append_spaces hrest hb
  have hstart' : CString.startsDigit 16 (strip0x (trim p) ++ blanks) = true := by
    generalize strip0x (trim p) = s at hstart
    cases s with
    | nil => cases hstart
    | cons c s => exact hstart
  have hsign : ∀ c s, trim p ++ blanks = c :: s → c ≠ '-' ∧ c ≠ '+' := by
    intro c s hcs
    match ht : trim p, hstart with
    | [], hstart => cases hstart
    | c' :: s', hstart =>
      rw [ht] at hcs
      obtain rfl : c' = c := (List.cons.inj hcs).1
      constructor <;> rintro rfl <;> cases hstart
  have hstrtol : CString.strtol 16 p = (min CString.longMax ((CString.digits 16 0 (strip0x (trim p))).1 : Int),
      blanks) := by
    unfold CString.strtol
    rw [htrim]
    cases hcs : trim p ++ blanks with
    | nil =>
      rw [(List.append_eq_nil_iff.mp hcs).1] at hstart
      cases hstart
    | cons c s =>
      obtain ⟨hminus, hplus⟩ := hsign c s hcs
      rw [hcs] at hbase
      simp [hminus, hplus, hbase, hstart', hdigits]
  rw [value, hstrtol, uint16, CString.longMax]
  omega

/-! ## The shape of a record -/

/-- How many columns stand before the numbers, how many numbers there are, whether the last one
is cleared, and whether nothing else rejects the line. -/
structure Shape where
  base : Nat
  count : Nat
  cleared : Bool
  legal : Bool
  deriving DecidableEq

/-- The record of a line; the lengths of an MB_ADRC record are numbers of its own. -/
def shapeOf (lib : EqLibrary) (line : List Char) : Option Shape :=
  let c0 := line.getD 0 '\x00'
  let c1 := line.getD 1 '\x00'
  let device : Bool := c1 = '1' || c1 = '2' || c1 = '3'
  if c0 = 'A' && device then some ⟨2, 50, false, true⟩
  else if c0 = 'B' && device then some ⟨2, 9, false, true⟩
  else if c0 = 'C' && device then
    some ⟨2, 33, false, match lib with | .calccoefs _ => true | _ => false⟩
  else if c0 = 'D' && device then
    let bands := value (token ',' line 2)
    let size := value (token ',' line 5)
    some ⟨2, 8 + 10 * bands + size / 2, false, bands ≤ 5 && size ≤ 392⟩
  else if c0 = 'E' || c0 = 'F' || c0 = 'G' then
    let legal : Bool := get_sample_index c1 ≠ einval
    if c0 = 'E' then some ⟨2, 52, true, legal⟩
    else if c0 = 'F' then some ⟨1, 25, false, legal⟩
    else some ⟨1, 9, false, legal⟩
  else none

/-- The `k`-th number that the parser stores. -/
def readAt (sh : Shape) (line : List Char) (k : Nat) : Nat :=
  if sh.cleared ∧ k + 1 = sh.count then 0 else value (token ',' line (sh.base + k))

/-! ## Accepted and rejected lines -/

/-- What comes of a line: its numbers when it has them all, and otherwise an error. -/
structure Parsed (sh : Shape) (line : List Char) (r : Result) : Prop where
  accepted : sh.legal = true → sh.base + sh.count ≤ (tokens ',' line).length →
    ∃ st, r = .ok st ∧ st.stored = (List.range sh.count).map (readAt sh line)
  rejected : ¬ (sh.legal = true ∧ sh.base + sh.count ≤ (tokens ',' line).length) → ∃ e, r = .error e

theorem map_value_drop {ts : List (List Char)} {b n : Nat} (h : b + n ≤ ts.length) :
    ((ts.take (b + n)).drop b).map value = (List.range n).map fun k => value (ts.getD (b + k) []) := by
  apply List.ext_getElem
  · simp [h]
  · intro i hi _
    have hlt : b + i < ts.length := by
      simp at hi
      omega
    simp [List.getD_eq_getElem?_getD, hlt]

theorem parsed_of_reads {b n : Nat} {f : Parse → Result} (h : Reads (b + n) (fun ts => (ts.drop b).map value) f)
    (line : List Char) (tables : Tables) : Parsed ⟨b, n, false, true⟩ line (f ⟨line, tables, [], []⟩) := by
  constructor
  · intro _ hlen
    obtain ⟨st', he, -, hs⟩ := h.enough ⟨line, tables, [], []⟩ hlen
    have hvalues : st'.stored = (List.range n).map fun k => value ((tokens ',' line).getD (b + k) []) :=
      hs.trans (map_value_drop hlen)
    refine ⟨st', he, ?_⟩
    simp [hvalues, readAt, token]
  · intro hnot
    apply h.short
    simpa [toks] using hnot

theorem parsed_of_error {sh : Shape} (h : sh.legal = false) (line : List Char) {r : Result}
    (hr : ∃ e, r = .error e) : Parsed sh line r :=
  ⟨fun hl => absurd (h.symm.trans hl) Bool.false_ne_true, fun _ => hr⟩

theorem txIirRecord_parsed (s : Int) (line : List Char) (tables : Tables) :
    Parsed ⟨2, 52, true, true⟩ line (txIirRecord s ⟨line, tables, [], []⟩) := by
  constructor
  · intro _ hlen
    obtain ⟨st', he, -, hs⟩ := (txIirRecord_reads s).enough ⟨line, tables, [], []⟩ hlen
    refine ⟨st', he, ?_⟩
    have htake : (((toks ⟨line, tables, [], []⟩).take 54).drop 2).take 51 =
        ((toks ⟨line, tables, [], []⟩).take (2 + 51)).drop 2 := by
      rw [List.drop_take, List.drop_take, List.take_take]
      rfl
    have hlen' : 2 + 51 ≤ (toks ⟨line, tables, [], []⟩).length := by
      have hall : 54 ≤ (toks ⟨line, tables, [], []⟩).length := hlen
      omega
    rw [hs, List.nil_append, htake, map_value_drop hlen', List.range_succ (n := 51), List.map_append]
    congr 1
  · intro hnot
    apply (txIirRecord_reads s).short
    simpa [toks] using hnot

theorem mbadrcRecord_parsed (d : Int) (line : List Char) (tables : Tables) :
    Parsed ⟨2, 8 + 10 * value (token ',' line 2) + value (token ',' line 5) / 2, false,
      value (token ',' line 2) ≤ 5 && value (token ',' line 5) ≤ 392⟩ line
      (mbadrcRecord d ⟨line, tables, [], []⟩) := by
  have hwords := reads_readWords (mbadrcWords d (value (token ',' line 2)) (value (token ',' line 5)))
  have hreads := hwords.described.congr (Nat.add_comm _ 2) fun _ => rfl
  rw [length_mbadrcWords] at hreads
  have hall := parsed_of_reads hreads line tables
  constructor
  · intro hlegal hlen
    simp only [Bool.and_eq_true, decide_eq_true_eq] at hlegal
    obtain ⟨st', he, hs⟩ := hall.accepted rfl hlen
    exact ⟨st', (mbadrcRecord_iff d _ _).mpr ⟨hlegal.1, hlegal.2, he⟩, hs⟩
  · intro hnot
    cases hr : mbadrcRecord d ⟨line, tables, [], []⟩ with
    | error e => exact ⟨e, rfl⟩
    | ok st' =>
      obtain ⟨hb, he, hok⟩ := (mbadrcRecord_iff d _ _).mp hr
      have hshort := hall.rejected (by
        rintro ⟨-, hlen⟩
        exact hnot ⟨by simpa using ⟨hb, he⟩, hlen⟩)
      obtain ⟨e, herr⟩ := hshort
      exact absurd (herr.symm.trans hok) (by simp)

theorem eqRecord_parsed (lib : EqLibrary) (d : Int) (line : List Char) (tables : Tables) :
    Parsed ⟨2, 33, false, match lib with | .calccoefs _ => true | _ => false⟩ line
      (eqRecord lib d ⟨line, tables, [], []⟩) := by
  cases lib with
  | openFailure => exact parsed_of_error rfl line (eqRecord_fails (by simp) d _)
  | noSymbol => exact parsed_of_error rfl line (eqRecord_fails (by simp) d _)
  | calccoefs eq_cal => exact parsed_of_reads (eqRecord_reads eq_cal d) line tables

/-- The sample index of a pre-processing record is checked first. -/
theorem Parsed.sample {b n : Nat} {cleared : Bool} {line : List Char} {r : Result}
    (h : Parsed ⟨b, n, cleared, true⟩ line r) (c : Char) (e : Parse × Status) :
    Parsed ⟨b, n, cleared, get_sample_index c ≠ einval⟩ line
      (if get_sample_index c = einval then .error e else r) := by
  by_cases hsample : get_sample_index c = einval
  · rw [if_pos hsample]
    exact parsed_of_error (by simp [hsample]) line ⟨e, rfl⟩
  · rw [if_neg hsample, decide_eq_true hsample]
    exact h

/-- The parser does with a line what its shape says. -/
theorem check_parsed {lib : EqLibrary} {line : List Char} {sh : Shape} (h : shapeOf lib line = some sh)
    (tables : Tables) : Parsed sh line (check_and_set_audpp_parameters lib line tables) := by
  unfold shapeOf at h
  unfold check_and_set_audpp_parameters
  simp only at h ⊢
  generalize line.getD 0 '\x00' = c0 at h ⊢
  generalize line.getD 1 '\x00' = c1 at h ⊢
  generalize hdevice : (decide (c1 = '1') || decide (c1 = '2') || decide (c1 = '3')) = device at h ⊢
  by_cases hA : (decide (c0 = 'A') && device) = true
  · rw [if_pos hA] at h ⊢
    cases h
    exact parsed_of_reads (iirRecord_reads _) line tables
  rw [if_neg hA] at h ⊢
  by_cases hB : (decide (c0 = 'B') && device) = true
  · rw [if_pos hB] at h ⊢
    cases h
    exact parsed_of_reads (adrcRecord_reads _) line tables
  rw [if_neg hB] at h ⊢
  by_cases hC : (decide (c0 = 'C') && device) = true
  · rw [if_pos hC] at h ⊢
    cases h
    exact eqRecord_parsed lib _ line tables
  rw [if_neg hC] at h ⊢
  by_cases hD : (decide (c0 = 'D') && device) = true
  · rw [if_pos hD] at h ⊢
    cases h
    exact mbadrcRecord_parsed _ line tables
  rw [if_neg hD] at h ⊢
  by_cases hpre : (decide (c0 = 'E') || decide (c0 = 'F') || decide (c0 = 'G')) = true
  · rw [if_pos hpre] at h ⊢
    by_cases hE : c0 = 'E'
    · rw [if_pos hE] at h ⊢
      cases h
      exact (txIirRecord_parsed _ line tables).sample c1 _
    rw [if_neg hE] at h ⊢
    by_cases hF : c0 = 'F'
    · rw [if_pos hF] at h ⊢
      cases h
      exact (parsed_of_reads (agcRecord_reads _) line tables).sample c1 _
    rw [if_neg hF] at h ⊢
    cases h
    exact (parsed_of_reads (nsRecord_reads _) line tables).sample c1 _
  · rw [if_neg hpre] at h
    cases h

/-! ## Columns and numbers -/

theorem column_zero {line : List Char} {c : Char} (h : line.getD 0 '\x00' = c) (h0 : c ≠ '\x00') (hsep : c ≠ ',') :
    column ',' line 0 ≠ [] := by
  cases line with
  | nil => exact absurd h.symm h0
  | cons d s =>
    obtain rfl : d = c := h
    rw [column, Tokens.columns_cons hsep]
    exact List.cons_ne_nil _ _

theorem shapeOf_spec {lib : EqLibrary} {line : List Char} {sh : Shape} (h : shapeOf lib line = some sh) :
    (sh.base = 1 ∨ sh.base = 2) ∧ 0 < sh.count ∧ column ',' line 0 ≠ [] := by
  unfold shapeOf at h
  simp only at h
  split_ifs at h with hA hB hC hD hpre hE hF
  all_goals obtain rfl := Option.some.inj h
  · have hc := of_decide_eq_true (Bool.and_eq_true_iff.mp hA).1
    exact ⟨.inr rfl, Nat.succ_pos _, column_zero hc (by decide) (by decide)⟩
  · have hc := of_decide_eq_true (Bool.and_eq_true_iff.mp hB).1
    exact ⟨.inr rfl, Nat.succ_pos _, column_zero hc (by decide) (by decide)⟩
  · have hc := of_decide_eq_true (Bool.and_eq_true_iff.mp hC).1
    exact ⟨.inr rfl, Nat.succ_pos _, column_zero hc (by decide) (by decide)⟩
  · have hc := of_decide_eq_true (Bool.and_eq_true_iff.mp hD).1
    exact ⟨.inr rfl, by change 0 < 8 + _ + _; omega, column_zero hc (by decide) (by decide)⟩
  · exact ⟨.inr rfl, Nat.succ_pos _, column_zero hE (by decide) (by decide)⟩
  · exact ⟨.inl rfl, Nat.succ_pos _, column_zero hF (by decide) (by decide)⟩
  · have hc : line.getD 0 '\x00' = 'G' := by
      rcases Bool.or_eq_true_iff.mp hpre with hpre | hpre
      · rcases Bool.or_eq_true_iff.mp hpre with hpre | hpre
        · exact absurd (of_decide_eq_true hpre) hE
        · exact absurd (of_decide_eq_true hpre) hF
      · exact of_decide_eq_true hpre
    exact ⟨.inl rfl, Nat.succ_pos _, column_zero hc (by decide) (by decide)⟩

/-- The line has a token for each of its numbers, and nothing else rejects it. -/
def Complete (sh : Shape) (line : List Char) : Prop :=
  sh.legal = true ∧ sh.base + sh.count ≤ (tokens ',' line).length

/-- The columns of the numbers are complete literals, and a column that is cleared says so. Only
numbers that are all the same, the one behind them included, let the description be missing. -/
structure Regular (sh : Shape) (line : List Char) : Prop where
  literals : ∀ k < sh.count, literal16 (column ',' line (sh.base + k)) ≠ none
  cleared : sh.cleared = true → literal16 (column ',' line (sh.base + (sh.count - 1))) = some 0
  described : sh.base = 2 → column ',' line 1 = [] →
    ∃ v, (∀ k < sh.count, literal16 (column ',' line (2 + k)) = some v) ∧
      (sh.cleared = false → value (token ',' line (1 + sh.count)) = v)

theorem literal16_nil : literal16 [] = none := rfl

theorem column_of_literal {line : List Char} {k : Nat} (h : literal16 (column ',' line k) ≠ none) :
    column ',' line k ≠ [] := by
  intro hnil
  rw [hnil] at h
  exact h literal16_nil

theorem readAt_cleared {sh : Shape} (h : sh.cleared = true) (hpos : 0 < sh.count) (line : List Char) :
    readAt sh line (sh.count - 1) = 0 := by
  rw [readAt, if_pos ⟨h, by omega⟩]

theorem readAt_before {sh : Shape} {k : Nat} (h : sh.cleared = false ∨ k + 1 < sh.count) (line : List Char) :
    readAt sh line k = value (token ',' line (sh.base + k)) := by
  rw [readAt, if_neg]
  rintro ⟨hc, hk⟩
  rcases h with h | h
  · exact Bool.false_ne_true (h.symm.trans hc)
  · omega

/-- Without an empty column before or among the numbers, the tokens are the columns. -/
theorem token_of_literals {sh : Shape} {line : List Char} (hbase : sh.base = 1 ∨ sh.base = 2)
    (h0 : column ',' line 0 ≠ []) (h1 : sh.base = 2 → column ',' line 1 ≠ [])
    (h : ∀ k < sh.count, literal16 (column ',' line (sh.base + k)) ≠ none) {k : Nat} (hk : k < sh.count) :
    token ',' line (sh.base + k) = column ',' line (sh.base + k) := by
  refine Tokens.token_eq_column (n := sh.base + sh.count) (fun j hj => ?_) (by omega)
  by_cases hlt : j < sh.base
  · match j with
    | 0 => exact h0
    | 1 => exact h1 (by omega)
    | j + 2 => omega
  · obtain ⟨i, rfl⟩ := Nat.exists_eq_add_of_le (not_lt.mp hlt)
    exact column_of_literal (h i (by omega))

/-- With an empty description they are one column ahead. -/
theorem token_of_missing {line : List Char} {n : Nat} (h0 : column ',' line 0 ≠ []) (h1 : column ',' line 1 = [])
    (h : ∀ k < n, literal16 (column ',' line (2 + k)) ≠ none) {k : Nat} (hk : k + 1 < n) :
    token ',' line (2 + k) = column ',' line (2 + (k + 1)) := by
  have hahead := Tokens.token_of_gap h0 h1 (fun j hj => column_of_literal (h j hj)) hk
  rwa [show 1 + (k + 1) = 2 + k by omega] at hahead

/-- The numbers of a regular line are those of its columns. -/
theorem Regular.numbers {sh : Shape} {line : List Char} (h : Regular sh line) (hbase : sh.base = 1 ∨ sh.base = 2)
    (h0 : column ',' line 0 ≠ []) {k : Nat} (hk : k < sh.count) :
    literal16 (column ',' line (sh.base + k)) = some (readAt sh line k) := by
  obtain ⟨v, hv⟩ := Option.ne_none_iff_exists'.mp (h.literals k hk)
  by_cases hlast : sh.cleared = true ∧ k + 1 = sh.count
  · obtain rfl : k = sh.count - 1 := by omega
    rw [readAt, if_pos hlast, h.cleared hlast.1]
  · rw [readAt, if_neg hlast, hv]
    by_cases hgap : sh.base = 2 ∧ column ',' line 1 = []
    · obtain ⟨hb, h1⟩ := hgap
      obtain ⟨u, hu, hbehind⟩ := h.described hb h1
      rw [hb] at hv ⊢
      obtain rfl : v = u := Option.some.inj (hv.symm.trans (hu k hk))
      by_cases hk1 : k + 1 < sh.count
      · have hahead := token_of_missing h0 h1 (fun j hj => by rw [hu j hj]; exact Option.some_ne_none _) hk1
        rw [hahead, value_of_literal (hu (k + 1) hk1)]
      · have hcount : 2 + k = 1 + sh.count := by omega
        have hnot : sh.cleared = false := by
          cases hc : sh.cleared with
          | false => rfl
          | true => exact absurd ⟨hc, by omega⟩ hlast
        rw [hcount, hbehind hnot]
    · rw [token_of_literals hbase h0 (fun hb h1 => hgap ⟨hb, h1⟩) h.literals hk, value_of_literal hv]

/-- A complete line whose numbers are those of its columns is regular. -/
theorem regular_of_numbers {sh : Shape} {line : List Char} (hpos : 0 < sh.count) (h0 : column ',' line 0 ≠ [])
    (h : ∀ k < sh.count, literal16 (column ',' line (sh.base + k)) = some (readAt sh line k)) :
    Regular sh line := by
  have hsome : ∀ k < sh.count, literal16 (column ',' line (sh.base + k)) ≠ none := by
    intro k hk
    rw [h k hk]
    exact Option.some_ne_none _
  refine ⟨hsome, fun hc => ?_, fun hb h1 => ?_⟩
  · rw [h _ (by omega), readAt_cleared hc hpos]
  · rw [hb] at h hsome
    -- every number is the next one
    have hnext : ∀ k, k + 1 < sh.count → readAt sh line (k + 1) = readAt sh line k := by
      intro k hk
      have hahead := token_of_missing h0 h1 hsome hk
      rw [readAt_before (.inr hk), hb, hahead, value_of_literal (h (k + 1) hk)]
    have hsame : ∀ k < sh.count, readAt sh line k = readAt sh line 0 := by
      intro k
      induction k with
      | zero => exact fun _ => rfl
      | succ k ih => exact fun hk => (hnext k hk).trans (ih (by omega))
    refine ⟨readAt sh line 0, fun k hk => ?_, fun hc => ?_⟩
    · rw [h k hk, hsame k hk]
    · have hlast := readAt_before (k := sh.count - 1) (.inl hc) line
      rw [hb, show 2 + (sh.count - 1) = 1 + sh.count by omega] at hlast
      rw [← hlast, hsame _ (by omega)]

/-! ## Lines -/

/-- What the parser accepts has its numbers in their columns. -/
def StoresColumns (lib : EqLibrary) (line : List Char) (tables : Tables) : Prop :=
  ∀ sh, shapeOf lib line = some sh → ∀ st, check_and_set_audpp_parameters lib line tables = .ok st →
    ∀ k v, st.stored[k]? = some v → literal16 (column ',' line (sh.base + k)) = some v

/-- A record line whose columns are not all complete literals, or whose description is missing,
has numbers stored that are not those of its columns. -/
theorem stores_columns_iff_regular (lib : EqLibrary) (line : List Char) (tables : Tables) :
    StoresColumns lib line tables ↔
      ∀ sh, shapeOf lib line = some sh → Complete sh line → Regular sh line := by
  constructor
  · intro h sh hsh hcomplete
    obtain ⟨-, hpos, h0⟩ := shapeOf_spec hsh
    obtain ⟨st, hok, hstored⟩ := (check_parsed hsh tables).accepted hcomplete.1 hcomplete.2
    refine regular_of_numbers hpos h0 fun k hk => ?_
    apply h sh hsh st hok
    simp [hstored, hk]
  · intro h sh hsh st hok k v hv
    obtain ⟨hbase, hpos, h0⟩ := shapeOf_spec hsh
    have hcomplete : Complete sh line := by
      by_contra hnot
      obtain ⟨e, he⟩ := (check_parsed hsh tables).rejected hnot
      rw [he] at hok
      cases hok
    obtain ⟨st', hok', hstored⟩ := (check_parsed hsh tables).accepted hcomplete.1 hcomplete.2
    obtain rfl : st = st' := Except.ok.inj (hok.symm.trans hok')
    have hk : k < sh.count := by
      obtain ⟨hlt, -⟩ := List.getElem?_eq_some_iff.mp hv
      simpa [hstored] using hlt
    have hread : readAt sh line k = v := by simpa [hstored, hk] using hv
    rw [(h sh hsh hcomplete).numbers hbase h0 hk, hread]

/-- The shipped equalizer record of the speaker, without the empty columns at its end. -/
def equalizerLine : List Char :=
  ("C1,AUDFMT EQ,0,0,003C,1,016A,0,00AA,1,016A,3,136,3,016A,4,258,3,016A,4,3.00E+08,3,016A," ++
    "4,0BB8,3,016A,3,1770,2,016A,0,2EE0,2,016A").toList

/-- Its frequency 3.00E+08 is stored as 3. -/
theorem equalizer_frequency_truncated :
    ¬ ∀ (lib : EqLibrary) (line : List Char) (tables : Tables), StoresColumns lib line tables := by
  intro h
  let lib : EqLibrary := .calccoefs fun _ _ _ _ => ⟨fun _ => 0, fun _ => 0, fun _ => 0⟩
  -- one evaluation, as each takes the line apart anew
  have hline : shapeOf lib equalizerLine = some ⟨2, 33, false, true⟩ ∧
      readAt ⟨2, 33, false, true⟩ equalizerLine 18 = 3 ∧
      literal16 (column ',' equalizerLine 20) = none ∧
      35 ≤ (tokens ',' equalizerLine).length := by decide +kernel
  obtain ⟨hsh, hread, hcolumn, hlong⟩ := hline
  obtain ⟨st, hok, hstored⟩ := (check_parsed hsh fun _ => 0).accepted rfl hlong
  have hthree : st.stored[18]? = some 3 := by simp [hstored, hread]
  have hliteral := h lib equalizerLine _ _ hsh st hok 18 3 hthree
  rw [hcolumn] at hliteral
  cases hliteral

end AudioFilterColumns
