import Y210.AudioFilterTables

/-!
# The filter file in memory

`get_audpp_filter` maps the file and looks for its newlines with `strchr`, which stops at a NUL and
not at the end of the file. Each line is cut out in place.
-/
namespace AudioFilterFile

open AudioHardware AudioFilter AudioFilterTables

/-! ## The loop -/

/-- What ends a scan. -/
inductive Found where
  | char
  | terminator
  | fault
  deriving DecidableEq, Repr

/-- `strchr` on the bytes that can be read: what ends it and how many bytes stand before that. -/
def strchr (c : Char) : List Char → Found × Nat
  | [] => (.fault, 0)
  | x :: s =>
    if x = c then (.char, 0)
    else if x = '\x00' then (.terminator, 0)
    else match strchr c s with
      | (found, n) => (found, n + 1)

/-- The NULs of `strtok`: one for each separator behind a token. -/
def cutTokens : Bool → List Char → List Char
  | _, [] => []
  | inToken, c :: s =>
    if c = ',' then (if inToken then '\x00' else ',') :: cutTokens false s else c :: cutTokens true s

/-- How `get_audpp_filter` ends; a read outside of the mapped pages kills the process. -/
inductive FilterEnd where
  | returned (value : Int)
  | killed
  deriving DecidableEq, Repr

/-- The mapped bytes with what follows them, the words that the parser accessed, the lines that it was
given and the (offset, length) pairs that were read. -/
structure FilterRun where
  mem : List Char
  current_str : Nat
  tables : Tables
  touched : List Word
  passed : List (List Char)
  reads : List (Nat × Nat)

/-- A round of the loop; nothing ends it while lines are accepted. The parser reads the bytes that
`strchr` has read. The library may answer differently on each line. -/
def round (lib : Nat → EqLibrary) (r : FilterRun) : FilterRun × Option FilterEnd :=
  match strchr '\n' (r.mem.drop r.current_str) with
  | (.fault, n) => ({ r with reads := (r.current_str, n + 1) :: r.reads }, some .killed)
  | (.terminator, n) => ({ r with reads := (r.current_str, n + 1) :: r.reads }, some (.returned 0))
  | (.char, len) =>
    let next_str := r.current_str + len + 1
    let line := (r.mem.drop r.current_str).take len
    let parsed := check_and_set_audpp_parameters (lib r.passed.length) line r.tables
    let used := len - (reached parsed).rest.length
    let r := { r with
      mem := r.mem.take r.current_str ++
        (cutTokens false (line.take used) ++ line.drop used ++ '\x00' :: r.mem.drop next_str)
      tables := (reached parsed).tables
      touched := (reached parsed).touched ++ r.touched
      passed := r.passed ++ [line]
      reads := (r.current_str, len + 1) :: r.reads }
    match parsed with
    | .error _ => (r, some (.returned (-1)))
    | .ok _ => ({ r with current_str := next_str }, none)

/-- The loop, for a number of rounds. -/
def filterLoop (lib : Nat → EqLibrary) : Nat → FilterRun → FilterRun × Option FilterEnd
  | 0, r => (r, none)
  | fuel + 1, r =>
    match round lib r with
    | (r, some fin) => (r, some fin)
    | (r, none) => filterLoop lib fuel r

/-- `mmap` fills the last page with zeros. -/
def padding (content : List Char) : List Char := List.replicate ((4096 - content.length % 4096) % 4096) '\x00'

/-- The bytes from the start of the file on; `behind` can be read behind its last page. -/
def memory (behind content : List Char) : List Char := content ++ (padding content ++ behind)

/-- The mapped file on tables that the constructor has cleared. -/
def mapped (behind content : List Char) : FilterRun := ⟨memory behind content, 0, fun _ => 0, [], [], []⟩

/-- A file that cannot be mapped. -/
def unmapped : FilterRun × Option FilterEnd := (⟨[], 0, fun _ => 0, [], [], []⟩, some (.returned (-1)))

/-- `get_audpp_filter` on a file that can be opened. An empty file cannot be mapped. -/
def loadFile (lib : Nat → EqLibrary) (behind content : List Char) : FilterRun × Option FilterEnd :=
  if content = [] then unmapped
  else filterLoop lib ((mapped behind content).mem.length + 1) (mapped behind content)

/-- `get_audpp_filter`. There is no content when neither file can be opened and mapped. -/
def get_audpp_filter (lib : Nat → EqLibrary) (behind : List Char) : Option (List Char) → FilterRun × Option FilterEnd
  | some content => loadFile lib behind content
  | none => unmapped

/-- What the constructor keeps: `audpp_filter_inited` is set when 0 is returned. -/
def loaded (run : FilterRun × Option FilterEnd) : Loaded :=
  ⟨run.1.tables, run.1.touched, run.2 = some (.returned 0)⟩

/-! ## The lines of a text -/

/-- A newline ends a line. So does the end of a text that does not end in one. -/
def textLines : List Char → List (List Char)
  | [] => []
  | c :: s =>
    if c = '\n' then [] :: textLines s
    else match textLines s with
      | [] => [[c]]
      | line :: lines => (c :: line) :: lines

/-- Lines given to the parser, in their order and up to the first that it rejects, and whether it
accepts them all; `n` lines came before. -/
def passLines (lib : Nat → EqLibrary) : Nat → List (List Char) → Tables → List (List Char) × Bool
  | _, [], _ => ([], true)
  | n, line :: lines, tables =>
    match check_and_set_audpp_parameters (lib n) line tables with
    | .error _ => ([line], false)
    | .ok st => (line :: (passLines lib (n + 1) lines st.tables).1, (passLines lib (n + 1) lines st.tables).2)

/-- Every line of the text is passed, nothing is read behind the text, and 0 says that all lines were
accepted. -/
structure Conforms (lib : Nat → EqLibrary) (content : List Char) (run : FilterRun × Option FilterEnd) : Prop where
  passed : run.1.passed = (passLines lib 0 (textLines content) fun _ => 0).1
  reads : ∀ t ∈ run.1.reads, t.1 + t.2 ≤ content.length
  zero : run.2 = some (.returned 0) ↔ (passLines lib 0 (textLines content) fun _ => 0).2 = true

/-- No byte that ends a scan. -/
def Clean (s : List Char) : Prop := ∀ c ∈ s, c ≠ '\n' ∧ c ≠ '\x00'

theorem clean_cons {c : Char} {s : List Char} (hc : c ≠ '\n' ∧ c ≠ '\x00') (hs : Clean s) : Clean (c :: s) :=
  List.forall_mem_cons.mpr ⟨hc, hs⟩

/-- What comes first in a text. -/
theorem text_cases (s : List Char) :
    (∃ line rest, s = line ++ '\n' :: rest ∧ Clean line) ∨
      (∃ front rest, s = front ++ '\x00' :: rest ∧ Clean front) ∨ Clean s := by
  induction s with
  | nil => exact .inr (.inr nofun)
  | cons c s ih =>
    by_cases hline : c = '\n'
    · exact .inl ⟨[], s, by rw [hline]; rfl, nofun⟩
    by_cases hnul : c = '\x00'
    · exact .inr (.inl ⟨[], s, by rw [hnul]; rfl, nofun⟩)
    have hc : c ≠ '\n' ∧ c ≠ '\x00' := ⟨hline, hnul⟩
    rcases ih with ⟨line, rest, rfl, h⟩ | ⟨front, rest, rfl, h⟩ | h
    · exact .inl ⟨c :: line, rest, rfl, clean_cons hc h⟩
    · exact .inr (.inl ⟨c :: front, rest, rfl, clean_cons hc h⟩)
    · exact .inr (.inr (clean_cons hc h))

theorem strchr_append {s : List Char} (h : Clean s) (t : List Char) :
    strchr '\n' (s ++ t) = ((strchr '\n' t).1, s.length + (strchr '\n' t).2) := by
  induction s with
  | nil => rw [List.nil_append, List.length_nil, Nat.zero_add]
  | cons c s ih =>
    obtain ⟨hc, hs⟩ := List.forall_mem_cons.mp h
    rw [List.cons_append, strchr, if_neg hc.1, if_neg hc.2, ih hs, List.length_cons, Nat.add_right_comm]

theorem strchr_line {line : List Char} (h : Clean line) (rest : List Char) :
    strchr '\n' (line ++ '\n' :: rest) = (.char, line.length) := by
  rw [strchr_append h]
  rfl

theorem strchr_nul {front : List Char} (h : Clean front) (rest : List Char) :
    strchr '\n' (front ++ '\x00' :: rest) = (.terminator, front.length) := by
  rw [strchr_append h]
  rfl

theorem takeWhile_clean {s : List Char} (h : Clean s) (t : List Char) :
    (s ++ t).takeWhile (· ≠ '\x00') = s ++ t.takeWhile (· ≠ '\x00') :=
  List.takeWhile_append_of_pos fun c hc => by simpa using (h c hc).2

/-- The line before a newline. -/
theorem fileLines_line {line : List Char} (h : Clean line) (rest : List Char) :
    fileLines (line ++ '\n' :: rest) = line :: fileLines rest := by
  have hnot : '\n' ∉ line := fun hmem => (h _ hmem).1 rfl
  unfold fileLines
  rw [takeWhile_clean h, List.takeWhile_cons_of_pos (by decide), List.splitOn_append_cons_self_of_not_mem hnot,
    List.dropLast_cons_of_ne_nil (List.splitOn_ne_nil _ _)]

theorem fileLines_clean {s : List Char} (h : Clean s) : fileLines s = [] := by
  have hnot : '\n' ∉ s := fun hmem => (h _ hmem).1 rfl
  have hall := takeWhile_clean h []
  rw [List.append_nil, List.takeWhile_nil, List.append_nil] at hall
  rw [fileLines, hall, List.splitOn_eq_singleton hnot]
  rfl

theorem fileLines_nul {front : List Char} (h : Clean front) (rest : List Char) :
    fileLines (front ++ '\x00' :: rest) = [] := by
  have hfront := fileLines_clean h
  have hall := takeWhile_clean h []
  rw [List.append_nil, List.takeWhile_nil, List.append_nil] at hall
  rw [fileLines, hall] at hfront
  rw [fileLines, takeWhile_clean h, List.takeWhile_cons_of_neg (by decide), List.append_nil, hfront]

/-- What stands behind a NUL is not looked at. -/
theorem fileLines_nul_behind (s tail : List Char) : fileLines (s ++ '\x00' :: tail) = fileLines s := by
  have hcut : (s ++ '\x00' :: tail).takeWhile (· ≠ '\x00') = s.takeWhile (· ≠ '\x00') := by
    induction s with
    | nil => rfl
    | cons c s ih =>
      rw [List.cons_append, List.takeWhile_cons, List.takeWhile_cons, ih]
  rw [fileLines, hcut, fileLines]

theorem textLines_line {line : List Char} (h : Clean line) (rest : List Char) :
    textLines (line ++ '\n' :: rest) = line :: textLines rest := by
  induction line with
  | nil => rfl
  | cons c line ih =>
    obtain ⟨hc, hline⟩ := List.forall_mem_cons.mp h
    rw [List.cons_append, textLines, if_neg hc.1, ih hline]

theorem textLines_ne_nil {s : List Char} (h : s ≠ []) : textLines s ≠ [] := by
  cases s with
  | nil => exact absurd rfl h
  | cons c s =>
    rw [textLines]
    split
    · exact List.cons_ne_nil _ _
    · split <;> exact List.cons_ne_nil _ _

/-- The loop gets to the first lines of a text. -/
theorem textLines_eq (content : List Char) : ∃ dropped, textLines content = fileLines content ++ dropped := by
  induction hn : content.length using Nat.strong_induction_on generalizing content with
  | h n ih =>
    rcases text_cases content with ⟨line, rest, rfl, hline⟩ | ⟨front, rest, rfl, hfront⟩ | hs
    · rw [List.length_append, List.length_cons] at hn
      obtain ⟨dropped, he⟩ := ih rest.length (by omega) rest rfl
      refine ⟨dropped, ?_⟩
      rw [textLines_line hline, fileLines_line hline, he, List.cons_append]
    · exact ⟨_, by rw [fileLines_nul hfront, List.nil_append]⟩
    · exact ⟨_, by rw [fileLines_clean hs, List.nil_append]⟩

/-- Something is passed of a text with a line. -/
theorem passLines_ne_nil (lib : Nat → EqLibrary) (n : Nat) {lines : List (List Char)} (h : lines ≠ [])
    (tables : Tables) : (passLines lib n lines tables).1 ≠ [] := by
  cases lines with
  | nil => exact absurd rfl h
  | cons line lines =>
    rw [passLines]
    split <;> exact List.cons_ne_nil _ _

/-! ## The rounds -/

theorem length_cutTokens (inToken : Bool) (s : List Char) : (cutTokens inToken s).length = s.length := by
  induction s generalizing inToken with
  | nil => rfl
  | cons c s ih =>
    rw [cutTokens]
    split <;> simp [ih]

/-- The rest of the mapped bytes is `s`. -/
structure At (r : FilterRun) (s : List Char) : Prop where
  inside : r.current_str ≤ r.mem.length
  rest : r.mem.drop r.current_str = s

section
variable {lib : Nat → EqLibrary} {r : FilterRun} {line s : List Char}

variable (lib) in
/-- A round on a line: what it passes and reads, and where the next one begins. -/
theorem round_line (hline : Clean line) (h : At r (line ++ '\n' :: s)) :
    let parsed := check_and_set_audpp_parameters (lib r.passed.length) line r.tables
    (round lib r).1.passed = r.passed ++ [line] ∧ (round lib r).1.tables = (reached parsed).tables ∧
      (round lib r).1.touched = (reached parsed).touched ++ r.touched ∧
      (round lib r).1.reads = (r.current_str, line.length + 1) :: r.reads ∧
      match parsed with
      | .error _ => (round lib r).2 = some (.returned (-1))
      | .ok _ => (round lib r).2 = none ∧ (round lib r).1.current_str = r.current_str + line.length + 1 ∧
          At (round lib r).1 s := by
  have hfirst : (line ++ '\n' :: s).take line.length = line := List.take_left
  have hnext : r.mem.drop (r.current_str + line.length + 1) = s := by
    rw [Nat.add_assoc, ← List.drop_drop, h.rest, List.append_cons]
    exact List.drop_left' List.length_append
  have hlength : (r.mem.take r.current_str).length = r.current_str := List.length_take_of_le h.inside
  unfold round
  rw [h.rest, strchr_line hline]
  dsimp only
  rw [hfirst]
  cases check_and_set_audpp_parameters (lib r.passed.length) line r.tables with
  | error e => exact ⟨rfl, rfl, rfl, rfl, rfl⟩
  | ok st =>
    refine ⟨rfl, rfl, rfl, rfl, rfl, rfl, ?_, ?_⟩
    · simp only [List.length_append, hlength, length_cutTokens, List.length_take, List.length_drop, List.length_cons]
      omega
    · dsimp only
      rw [hnext, List.append_cons, ← List.append_assoc]
      refine List.drop_left' ?_
      simp only [List.length_append, hlength, length_cutTokens, List.length_take, List.length_drop,
        List.length_singleton]
      omega

/-- What a scan reads stays recorded. -/
theorem round_reads (lib : Nat → EqLibrary) (r : FilterRun) : (round lib r).1.reads =
    (r.current_str, (strchr '\n' (r.mem.drop r.current_str)).2 + 1) :: r.reads := by
  unfold round
  rcases strchr '\n' (r.mem.drop r.current_str) with ⟨_ | _ | _, n⟩
  · dsimp only
    cases check_and_set_audpp_parameters (lib r.passed.length) ((r.mem.drop r.current_str).take n) r.tables <;> rfl
  · rfl
  · rfl

theorem filterLoop_reads (fuel : Nat) {t : Nat × Nat} (ht : t ∈ r.reads) :
    t ∈ (filterLoop lib fuel r).1.reads := by
  induction fuel generalizing r with
  | zero => exact ht
  | succ fuel ih =>
    have hnext : t ∈ (round lib r).1.reads := by
      rw [round_reads]
      exact List.mem_cons_of_mem _ ht
    rw [filterLoop]
    generalize round lib r = next at hnext
    obtain ⟨r', _ | fin⟩ := next
    · exact ih hnext
    · exact hnext

theorem filterLoop_end {fin : FilterEnd} (fuel : Nat) (h : (round lib r).2 = some fin) :
    filterLoop lib (fuel + 1) r = ((round lib r).1, some fin) := by
  rw [filterLoop]
  generalize round lib r = next at h
  obtain ⟨r', fin'⟩ := next
  obtain rfl : fin' = some fin := h
  rfl

theorem filterLoop_next (fuel : Nat) (h : (round lib r).2 = none) :
    filterLoop lib (fuel + 1) r = filterLoop lib fuel (round lib r).1 := by
  rw [filterLoop]
  generalize round lib r = next at h
  obtain ⟨r', fin⟩ := next
  obtain rfl : fin = none := h
  rfl

/-- A text that begins with a NUL, or in which the scan gets to one, is taken to its end. -/
theorem round_nul {front : List Char} (hfront : Clean front) (h : At r (front ++ '\x00' :: s)) :
    round lib r = ({ r with reads := (r.current_str, front.length + 1) :: r.reads }, some (.returned 0)) := by
  unfold round
  rw [h.rest, strchr_nul hfront]

theorem round_fault (hs : Clean s) (h : At r s) :
    round lib r = ({ r with reads := (r.current_str, s.length + 1) :: r.reads }, some .killed) := by
  have hscan := strchr_append hs []
  rw [List.append_nil] at hscan
  unfold round
  rw [h.rest, hscan]
  rfl

/-- A round for each byte is enough. -/
theorem filterLoop_ends {fuel : Nat} (hfuel : s.length < fuel) (h : At r s) : (filterLoop lib fuel r).2 ≠ none := by
  induction fuel generalizing r s with
  | zero => exact absurd hfuel (Nat.not_lt_zero _)
  | succ fuel ih =>
    rcases text_cases s with ⟨line, rest, rfl, hline⟩ | ⟨front, rest, rfl, hfront⟩ | hs
    · obtain ⟨-, -, -, -, hend⟩ := round_line lib hline h
      cases hc : check_and_set_audpp_parameters (lib r.passed.length) line r.tables with
      | error e =>
        rw [hc] at hend
        rw [filterLoop_end fuel hend]
        exact Option.some_ne_none _
      | ok st =>
        rw [hc] at hend
        rw [filterLoop_next fuel hend.1]
        refine ih ?_ hend.2.2
        rw [List.length_append, List.length_cons] at hfuel
        omega
    · rw [filterLoop_end fuel (congrArg Prod.snd (round_nul hfront h))]
      exact Option.some_ne_none _
    · rw [filterLoop_end fuel (congrArg Prod.snd (round_fault hs h))]
      exact Option.some_ne_none _

end

/-! ## The file -/

section
variable {lib : Nat → EqLibrary} {r : FilterRun} {s tail : List Char} {fuel : Nat}

/-- Up to a line that is rejected the loop does what it should. -/
theorem filterLoop_rejected (hfuel : s.length < fuel) (h : At r (s ++ tail))
    (hrej : RejectedIn lib r.passed.length (fileLines s)) :
    (filterLoop lib fuel r).1.passed = r.passed ++ (passLines lib r.passed.length (textLines s) r.tables).1 ∧
      (passLines lib r.passed.length (textLines s) r.tables).2 = false ∧
      (filterLoop lib fuel r).2 = some (.returned (-1)) ∧
      ∀ t ∈ (filterLoop lib fuel r).1.reads, t ∈ r.reads ∨ t.1 + t.2 ≤ r.current_str + s.length := by
  induction fuel generalizing r s with
  | zero => exact absurd hfuel (Nat.not_lt_zero _)
  | succ fuel ih =>
    rcases text_cases s with ⟨line, rest, rfl, hline⟩ | ⟨front, rest, rfl, hfront⟩ | hs
    · rw [fileLines_line hline, rejectedIn_cons] at hrej
      rw [List.append_assoc, List.cons_append] at h
      obtain ⟨hpassed, htables, -, hreads, hend⟩ := round_line lib hline h
      rw [textLines_line hline, passLines, List.length_append, List.length_cons]
      cases hc : check_and_set_audpp_parameters (lib r.passed.length) line r.tables with
      | error e =>
        rw [hc] at hend
        rw [filterLoop_end fuel hend]
        refine ⟨hpassed, rfl, rfl, fun t ht => ?_⟩
        rw [hreads] at ht
        rcases List.mem_cons.mp ht with rfl | ht
        · right
          dsimp only
          omega
        · exact .inl ht
      | ok st =>
        rw [hc] at hend htables
        obtain ⟨hgo, hcur, hat⟩ := hend
        have hlen : (round lib r).1.passed.length = r.passed.length + 1 := by rw [hpassed, List.length_append]; rfl
        have hrest : RejectedIn lib (round lib r).1.passed.length (fileLines rest) := by
          rw [hlen]
          exact hrej.resolve_left (not_accepts_and_rejects (accepts_of_ok hc))
        rw [List.length_append, List.length_cons] at hfuel
        obtain ⟨hp, hno, hret, hr⟩ := ih (by omega) hat hrest
        rw [filterLoop_next fuel hgo]
        rw [hlen, show (round lib r).1.tables = st.tables from htables] at hp hno
        refine ⟨?_, hno, hret, fun t ht => ?_⟩
        · rw [hp, hpassed, List.append_assoc]
          rfl
        · rcases hr t ht with ht | ht
          · rw [hreads] at ht
            rcases List.mem_cons.mp ht with rfl | ht
            · right
              dsimp only
              omega
            · exact .inl ht
          · right
            omega
    · rw [fileLines_nul hfront] at hrej
      exact absurd hrej (not_rejectedIn_nil lib _)
    · rw [fileLines_clean hs] at hrej
      exact absurd hrej (not_rejectedIn_nil lib _)

/-- Behind the last line the scan leaves the text, or stops at a NUL in it. -/
theorem filterLoop_accepted (hfuel : s.length < fuel) (h : At r (s ++ tail))
    (hacc : ¬ RejectedIn lib r.passed.length (fileLines s)) :
    (∃ t ∈ (filterLoop lib fuel r).1.reads, r.current_str + s.length < t.1 + t.2) ∨
      (filterLoop lib fuel r).1.passed ≠ r.passed ++ (passLines lib r.passed.length (textLines s) r.tables).1 := by
  induction fuel generalizing r s with
  | zero => exact absurd hfuel (Nat.not_lt_zero _)
  | succ fuel ih =>
    rcases text_cases s with ⟨line, rest, rfl, hline⟩ | ⟨front, rest, rfl, hfront⟩ | hs
    · rw [fileLines_line hline, rejectedIn_cons, not_or] at hacc
      rw [List.append_assoc, List.cons_append] at h
      obtain ⟨hpassed, htables, -, hreads, hend⟩ := round_line lib hline h
      obtain ⟨st, hc⟩ := (accepts_or_rejects _ line).resolve_right hacc.1 r.tables
      rw [hc] at hend htables
      obtain ⟨hgo, hcur, hat⟩ := hend
      have hlen : (round lib r).1.passed.length = r.passed.length + 1 := by rw [hpassed, List.length_append]; rfl
      rw [List.length_append, List.length_cons] at hfuel ⊢
      have hnext := ih (by omega) hat (by rw [hlen]; exact hacc.2)
      rw [hlen, show (round lib r).1.tables = st.tables from htables, hpassed, hcur, List.append_assoc] at hnext
      rw [filterLoop_next fuel hgo, textLines_line hline, passLines, hc]
      rcases hnext with ⟨t, ht, hlt⟩ | hne
      · exact .inl ⟨t, ht, by omega⟩
      · exact .inr hne
    · right
      rw [List.append_assoc, List.cons_append] at h
      rw [filterLoop_end fuel (congrArg Prod.snd (round_nul hfront h)), round_nul hfront h]
      intro he
      have hne := textLines_ne_nil (List.append_ne_nil_of_right_ne_nil front (List.cons_ne_nil '\x00' rest))
      exact passLines_ne_nil lib _ hne _ (List.self_eq_append_right.mp he)
    · left
      refine ⟨(r.current_str, s.length + (strchr '\n' tail).2 + 1), ?_, ?_⟩
      · have hread := round_reads lib r
        rw [h.rest, strchr_append hs] at hread
        have hmem : (r.current_str, s.length + (strchr '\n' tail).2 + 1) ∈ (round lib r).1.reads := by
          rw [hread]
          exact List.mem_cons_self
        rcases hfin : (round lib r).2 with _ | fin
        · rw [filterLoop_next fuel hfin]
          exact filterLoop_reads fuel hmem
        · rw [filterLoop_end fuel hfin]
          exact hmem
      · dsimp only
        omega

/-- What lines leave is what the loop leaves, and 0 is returned when they are accepted and the scan behind
them stops at a NUL. -/
structure Parses (f : Loaded) (s : List Char) (passed : List (List Char)) (run : FilterRun × Option FilterEnd) : Prop where
  tables : run.1.tables = f.tables
  touched : run.1.touched = f.touched
  passed : f.accepted = true → run.1.passed = passed ++ fileLines s
  zero : run.2 = some (.returned 0) ↔ f.accepted = true ∧ '\x00' ∈ s

/-- The loop parses the lines that end in a newline before the first NUL. -/
theorem filterLoop_parses {f : Loaded} (hfuel : s.length < fuel) (h : At r s) (htables : f.tables = r.tables)
    (htouched : f.touched = r.touched) (haccepted : f.accepted = true) :
    Parses (parseLines lib r.passed.length (fileLines s) f) s r.passed (filterLoop lib fuel r) := by
  induction fuel generalizing r s f with
  | zero => exact absurd hfuel (Nat.not_lt_zero _)
  | succ fuel ih =>
    rcases text_cases s with ⟨line, rest, rfl, hline⟩ | ⟨front, rest, rfl, hfront⟩ | hs
    · obtain ⟨hpassed, htables', htouched', -, hend⟩ := round_line lib hline h
      rw [fileLines_line hline, parseLines, htables]
      cases hc : check_and_set_audpp_parameters (lib r.passed.length) line r.tables with
      | error e =>
        rw [hc] at hend htables' htouched'
        rw [filterLoop_end fuel hend]
        exact ⟨htables', htouched'.trans (congrArg (_ ++ ·) htouched.symm), fun hacc => absurd hacc Bool.false_ne_true,
          iff_of_false (by simp) fun hacc => Bool.false_ne_true hacc.1⟩
      | ok st =>
        rw [hc] at hend htables' htouched'
        obtain ⟨hgo, -, hat⟩ := hend
        rw [List.length_append, List.length_cons] at hfuel
        have hnext := ih (f := ⟨st.tables, st.touched ++ f.touched, f.accepted⟩) (by omega) hat htables'.symm
          ((congrArg (st.touched ++ ·) htouched).trans htouched'.symm) haccepted
        have hlen : (round lib r).1.passed.length = r.passed.length + 1 := by rw [hpassed, List.length_append]; rfl
        rw [hlen] at hnext
        rw [filterLoop_next fuel hgo]
        refine ⟨hnext.tables, hnext.touched, fun hacc => ?_, ?_⟩
        · rw [hnext.passed hacc, hpassed, fileLines_line hline, List.append_assoc]
          rfl
        · rw [hnext.zero]
          refine and_congr_right fun _ => ?_
          have hnul : '\x00' ∉ line := fun hmem => (hline _ hmem).2 rfl
          simp [hnul]
    · rw [filterLoop_end fuel (congrArg Prod.snd (round_nul hfront h)), round_nul hfront h, fileLines_nul hfront]
      exact ⟨htables.symm, htouched.symm, fun _ => by rw [fileLines_nul hfront, List.append_nil],
        iff_of_true rfl ⟨haccepted, by simp⟩⟩
    · rw [filterLoop_end fuel (congrArg Prod.snd (round_fault hs h)), round_fault hs h, fileLines_clean hs]
      exact ⟨htables.symm, htouched.symm, fun _ => by rw [fileLines_clean hs, List.append_nil],
        iff_of_false (by simp) fun hnul => (hs _ hnul.2).2 rfl⟩

end

theorem mapped_at (behind content : List Char) : At (mapped behind content) (memory behind content) :=
  ⟨Nat.zero_le _, rfl⟩

/-- The call ends: no round is missing. -/
theorem loadFile_ends (lib : Nat → EqLibrary) (behind content : List Char) :
    (loadFile lib behind content).2 ≠ none := by
  unfold loadFile
  split
  · exact Option.some_ne_none _
  · exact filterLoop_ends (Nat.lt_succ_self _) (mapped_at behind content)

/-- What the lines in memory leave of cleared tables. -/
def scanned (lib : Nat → EqLibrary) (behind content : List Char) : Loaded :=
  parseLines lib 0 (fileLines (memory behind content)) ⟨fun _ => 0, [], true⟩

/-- A file that can be mapped leaves what its lines leave, those behind its end included. -/
theorem loadFile_parses (lib : Nat → EqLibrary) (behind : List Char) {content : List Char} (hne : content ≠ []) :
    Parses (scanned lib behind content) (memory behind content) [] (loadFile lib behind content) := by
  rw [loadFile, if_neg hne]
  exact filterLoop_parses (r := mapped behind content) (Nat.lt_succ_self _) (mapped_at behind content) rfl rfl rfl

/-- A file is treated as it should be exactly when a line of it is rejected that ends in a newline
and no NUL comes before. -/
theorem loadFile_conforms_iff (lib : Nat → EqLibrary) (behind content : List Char) :
    Conforms lib content (loadFile lib behind content) ↔ ∃ pre line post,
      fileLines content = pre ++ line :: post ∧ Rejects (lib pre.length) line := by
  have hlines : (∃ pre line post, fileLines content = pre ++ line :: post ∧ Rejects (lib pre.length) line) ↔
      RejectedIn lib 0 (fileLines content) := by simp only [RejectedIn, Nat.zero_add]
  rw [hlines, loadFile]
  by_cases hempty : content = []
  · subst hempty
    rw [if_pos rfl]
    constructor
    · intro h
      exact absurd (h.zero.mpr rfl) (by decide)
    · exact fun h => absurd h (not_rejectedIn_nil lib 0)
  · rw [if_neg hempty]
    have hfuel : content.length < (mapped behind content).mem.length + 1 := by
      simp only [mapped, memory, List.length_append]
      omega
    by_cases hrej : RejectedIn lib 0 (fileLines content)
    · obtain ⟨hpassed, hno, hret, hreads⟩ := filterLoop_rejected hfuel (mapped_at behind content) hrej
      refine iff_of_true ⟨hpassed, fun t ht => ?_, ?_⟩ hrej
      · have hin := (hreads t ht).resolve_left List.not_mem_nil
        rwa [show (mapped behind content).current_str = 0 from rfl, Nat.zero_add] at hin
      · rw [hret]
        refine iff_of_false (by decide) ?_
        rw [show passLines lib 0 (textLines content) (fun _ => 0) = passLines lib 0 (textLines content)
          (mapped behind content).tables from rfl]
        exact fun h => Bool.false_ne_true (hno.symm.trans h)
    · refine iff_of_false (fun h => ?_) hrej
      rcases filterLoop_accepted hfuel (mapped_at behind content) hrej with ⟨t, ht, hlt⟩ | hne
      · have hin := h.reads t ht
        rw [show (mapped behind content).current_str = 0 from rfl] at hlt
        omega
      · exact hne h.passed

/-- A last line without its newline, which the parser would reject, is not looked at. -/
theorem last_line_dropped : ¬ Conforms (fun _ => .openFailure) ['#', '\n', 'E']
    (loadFile (fun _ => .openFailure) [] ['#', '\n', 'E']) := by
  intro h
  have hret : (loadFile (fun _ => .openFailure) [] ['#', '\n', 'E']).2 = some (.returned 0) := by decide +kernel
  exact absurd (h.zero.mp hret) (by decide)

end AudioFilterFile
