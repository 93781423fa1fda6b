import Y210.AudioFilter

/-!
# The tokens of a filter record

How many tokens each record takes and what it stores of them. An MB_ADRC record is the words
that its own lengths tell, one after the other.
-/
namespace AudioFilterRecords

open AudioDrivers AudioHardware AudioStreams AudioFilter
open Tokens (strtok tokens)

/-! ## Reading tokens -/

def toks (st : Parse) : List (List Char) := tokens ',' st.rest

/-- `f` takes `n` tokens and stores what `vals` makes of them; with fewer it fails. -/
structure Reads (n : Nat) (vals : List (List Char) → List Nat) (f : Parse → Result) : Prop where
  enough : ∀ st, n ≤ (toks st).length → ∃ st', f st = .ok st' ∧ toks st' = (toks st).drop n ∧
    st'.stored = st.stored ++ vals ((toks st).take n)
  short : ∀ st, (toks st).length < n → ∃ e, f st = .error e

theorem toks_of_none {st : Parse} (h : strtok ',' st.rest = none) : toks st = [] := Tokens.tokens_of_none h

theorem toks_of_some {st : Parse} {t rest : List Char} (h : strtok ',' st.rest = some (t, rest)) :
    toks st = t :: tokens ',' rest := Tokens.tokens_of_some h

/-- One token, from which `k` makes a state and `v` tells the values stored. -/
theorem reads_token {k : List Char → Parse → Parse} {v : List Char → List Nat}
    (hrest : ∀ t st, (k t st).rest = st.rest) (hstored : ∀ t st, (k t st).stored = st.stored ++ v t) :
    Reads 1 (List.flatMap v) (fun st => match strtok ',' st.rest with
      | none => .error (st, einval)
      | some (t, rest) => .ok (k t { st with rest := rest })) := by
  constructor
  · intro st hlen
    cases hs : strtok ',' st.rest with
    | none =>
      rw [toks_of_none hs] at hlen
      cases hlen
    | some r =>
      obtain ⟨t, rest⟩ := r
      refine ⟨_, rfl, ?_, ?_⟩
      · rw [toks_of_some hs, toks, hrest]
        rfl
      · rw [toks_of_some hs, hstored]
        simp
  · intro st hlen
    cases hs : strtok ',' st.rest with
    | none => exact ⟨_, rfl⟩
    | some r =>
      rw [toks_of_some hs, List.length_cons] at hlen
      omega

section
variable {n m : Nat} {v u : List (List Char) → List Nat} {f g : Parse → Result}

/-- One after the other. -/
theorem Reads.bind (hf : Reads n v f) (hg : Reads m u g) :
    Reads (n + m) (fun ts => v (ts.take n) ++ u (ts.drop n)) (fun st => f st >>= g) := by
  constructor
  · intro st hlen
    obtain ⟨st₁, h₁, ht₁, hs₁⟩ := hf.enough st (by omega)
    have hlen₁ : m ≤ (toks st₁).length := by
      rw [ht₁, List.length_drop]
      omega
    obtain ⟨st₂, h₂, ht₂, hs₂⟩ := hg.enough st₁ hlen₁
    refine ⟨st₂, ?_, ?_, ?_⟩
    · rw [h₁]
      exact h₂
    · rw [ht₂, ht₁, List.drop_drop]
    · rw [hs₂, hs₁, ht₁, List.append_assoc, List.take_take, Nat.min_eq_left (Nat.le_add_right n m), List.drop_take,
        Nat.add_sub_cancel_left]
  · intro st hlen
    by_cases hn : n ≤ (toks st).length
    · obtain ⟨st₁, h₁, ht₁, -⟩ := hf.enough st hn
      have hlen₁ : (toks st₁).length < m := by
        rw [ht₁, List.length_drop]
        omega
      obtain ⟨e, he⟩ := hg.short st₁ hlen₁
      refine ⟨e, ?_⟩
      rw [h₁]
      exact he
    · obtain ⟨e, he⟩ := hf.short st (not_le.mp hn)
      refine ⟨e, ?_⟩
      rw [he]
      rfl

theorem Reads.congr (h : Reads n v f) (hn : n = m) (hv : ∀ ts, v ts = u ts) : Reads m u f := by
  subst hn
  constructor
  · intro st hlen
    obtain ⟨st', he, ht, hs⟩ := h.enough st hlen
    refine ⟨st', he, ht, ?_⟩
    rw [hs, hv]
  · exact h.short

theorem Reads.ok (h : Reads n v f) {st st' : Parse} (hok : f st = .ok st') :
    n ≤ (toks st).length ∧ toks st' = (toks st).drop n := by
  by_cases hlen : n ≤ (toks st).length
  · obtain ⟨st'', he, ht, -⟩ := h.enough st hlen
    obtain rfl := Except.ok.inj (hok.symm.trans he)
    exact ⟨hlen, ht⟩
  · obtain ⟨e, he⟩ := h.short st (not_le.mp hlen)
    rw [he] at hok
    cases hok

theorem reads_skip : Reads 1 (fun _ => []) skip :=
  (reads_token (k := fun _ st => st) (fun _ _ => rfl) fun _ st => (List.append_nil st.stored).symm).congr rfl
    fun _ => List.flatMap_eq_nil_iff.mpr fun _ _ => rfl

theorem reads_readWord (w : Word) : Reads 1 (List.map value) (readWord w) :=
  (reads_token (k := fun t st => put w (value t) { st with stored := st.stored ++ [value t] }) (fun _ _ => rfl)
    fun _ _ => rfl).congr rfl fun _ => List.flatMap_pure_eq_map value _

/-- Behind a token that is passed over. -/
theorem Reads.behind (h : Reads n v f) :
    Reads (n + 1) (fun ts => v (ts.drop 1)) (fun st => skip st >>= f) := by
  exact (reads_skip.bind h).congr (Nat.add_comm 1 n) fun _ => rfl

/-- What happens to the tables only. -/
theorem Reads.pure {k : Parse → Parse} (h : Reads n v f)
    (hk : ∀ st, (k st).rest = st.rest ∧ (k st).stored = st.stored) :
    Reads n v (fun st => f st >>= fun st => .ok (k st)) := by
  constructor
  · intro st hlen
    obtain ⟨st', he, ht, hs⟩ := h.enough st hlen
    refine ⟨k st', ?_, ?_, ?_⟩
    · rw [he]
      rfl
    · rw [← ht, toks, (hk st').1]
      rfl
    · rw [(hk st').2, hs]
  · intro st hlen
    obtain ⟨e, he⟩ := h.short st hlen
    refine ⟨e, ?_⟩
    rw [he]
    rfl

end

theorem reads_readWords (ws : List Word) : Reads ws.length (List.map value) (readWords ws) := by
  induction ws with
  | nil =>
    constructor
    · intro st _
      exact ⟨st, rfl, rfl, (List.append_nil _).symm⟩
    · intro st hlen
      cases hlen
  | cons w ws ih =>
    refine ((reads_readWord w).bind ih).congr (Nat.add_comm 1 ws.length) fun ts => ?_
    rw [← List.map_append, List.take_append_drop]

/-- The words of a loop. -/
theorem reads_loop (n : Nat) (g : Nat → Word) : Reads n (List.map value) (readWords ((List.range n).map g)) := by
  have hlen : ((List.range n).map g).length = n := by rw [List.length_map, List.length_range]
  exact (reads_readWords _).congr hlen fun _ => rfl

theorem reads_clearWord (w : Word) : Reads 1 (fun _ => [0]) (clearWord w) := by
  constructor
  · intro st hlen
    obtain ⟨st', he, ht, hs⟩ := reads_skip.enough st hlen
    refine ⟨put w 0 { st' with stored := st'.stored ++ [0] }, ?_, ht, ?_⟩
    · rw [clearWord, he]
      rfl
    · change st'.stored ++ [0] = _
      rw [hs, List.append_nil]
  · intro st hlen
    obtain ⟨e, he⟩ := reads_skip.short st hlen
    refine ⟨e, ?_⟩
    rw [clearWord, he]
    rfl

/-! ## The records -/

/-- Numbers on numbers. -/
theorem Reads.append {n m k : Nat} {f g : Parse → Result} (hf : Reads n (List.map value) f)
    (hg : Reads m (List.map value) g) (hk : n + m = k) : Reads k (List.map value) (fun st => f st >>= g) := by
  refine (hf.bind hg).congr hk fun ts => ?_
  rw [← List.map_append, List.take_append_drop]

/-- Numbers behind a header and a description. -/
theorem Reads.described {n : Nat} {f : Parse → Result} (h : Reads n (List.map value) f) :
    Reads (n + 2) (fun ts => (ts.drop 2).map value) (fun st => skip st >>= fun st => skip st >>= f) :=
  h.behind.behind.congr rfl fun ts => by rw [List.drop_drop]

theorem iirRecord_reads (d : Int) : Reads 52 (fun ts => (ts.drop 2).map value) (iirRecord d) := by
  have hparams := reads_loop 48 (.iirParams d)
  have hflags := reads_readWords [.rxIirFlag d, .iirNumBands d]
  exact (hparams.append hflags rfl).described

theorem adrcRecord_reads (d : Int) : Reads 11 (fun ts => (ts.drop 2).map value) (adrcRecord d) := by
  have hparams := reads_readWords (.adrcFlag d :: (List.range 8).map (.adrcParams d))
  exact hparams.described

theorem putAll_frame (stores : List (Word × Nat)) (st : Parse) :
    (putAll stores st).rest = st.rest ∧ (putAll stores st).stored = st.stored := by
  induction stores generalizing st with
  | nil => exact ⟨rfl, rfl⟩
  | cons s stores ih => exact ih (put s.1 s.2 st)

theorem eqBand_reads (eq_cal : Nat → Nat → Nat → Nat → EqCoefs) (d : Int) (i : Nat) :
    Reads 4 (List.map value) (eqBand eq_cal d i) :=
  (reads_readWords [.eqGain i, .eqFreq i, .eqType i, .eqQf i]).pure fun st => putAll_frame _ st

theorem eqBands_reads (eq_cal : Nat → Nat → Nat → Nat → EqCoefs) (d : Int) (bands : List Nat) :
    Reads (4 * bands.length) (List.map value) (fun st => bands.foldlM (fun st i => eqBand eq_cal d i st) st) := by
  induction bands with
  | nil => exact reads_readWords []
  | cons i bands ih => exact (eqBand_reads eq_cal d i).append ih (Nat.add_comm 4 _)

theorem eqRecord_reads (eq_cal : Nat → Nat → Nat → Nat → EqCoefs) (d : Int) :
    Reads 35 (fun ts => (ts.drop 2).map value) (eqRecord (.calccoefs eq_cal) d) := by
  have hclear : Reads 1 (List.map value) (fun st => readWord (.eqFlag d) st >>= fun st =>
      .ok (put (.eqBands d) 8 { st with tables := clearEqualizer d st.tables })) :=
    (reads_readWord (.eqFlag d)).pure fun st => ⟨rfl, rfl⟩
  have hbands : Reads 33 (List.map value) _ := hclear.append (eqBands_reads eq_cal d (List.range 8)) rfl
  have hsame : eqRecord (.calccoefs eq_cal) d = fun st => skip st >>= fun st => skip st >>= fun st =>
      (readWord (.eqFlag d) st >>= fun st =>
        .ok (put (.eqBands d) 8 { st with tables := clearEqualizer d st.tables })) >>= fun st =>
        (List.range 8).foldlM (fun st i => eqBand eq_cal d i st) st := by
    funext st
    simp only [eqRecord, bind_assoc]
    rfl
  rw [hsame]
  exact hbands.described

/-- An error at the end is an error. -/
theorem fails_bind (f : Parse → Result) {g : Parse → Result} (hg : ∀ st, ∃ e, g st = .error e) (st : Parse) :
    ∃ e, (f st >>= g) = .error e := by
  cases h : f st with
  | error e => exact ⟨e, rfl⟩
  | ok st' => exact hg st'

theorem eqRecord_fails {lib : EqLibrary} (h : ∀ eq_cal, lib ≠ .calccoefs eq_cal) (d : Int) (st : Parse) :
    ∃ e, eqRecord lib d st = .error e := by
  refine fails_bind skip (fails_bind skip (fails_bind (readWord (.eqFlag d)) fun st => ?_)) st
  cases lib with
  | openFailure => exact ⟨_, rfl⟩
  | noSymbol => exact ⟨_, rfl⟩
  | calccoefs eq_cal => exact absurd rfl (h eq_cal)

theorem enableFeature_frame (flag : Word) (bit : Nat) (s : Int) (st : Parse) :
    (enableFeature flag bit s st).rest = st.rest ∧ (enableFeature flag bit s st).stored = st.stored := by
  unfold enableFeature
  split <;> exact ⟨rfl, rfl⟩

theorem txIirRecord_reads (s : Int) :
    Reads 54 (fun ts => ((ts.drop 2).take 51).map value ++ [0]) (txIirRecord s) := by
  have hcleared : Reads 1 (fun _ => [0]) (fun st => clearWord (.txIirCmdId s) st >>= fun st =>
      .ok (enableFeature (.txiirFlag 0) 4 s st)) :=
    (reads_clearWord (.txIirCmdId s)).pure fun st => enableFeature_frame _ _ s st
  have hparams := reads_loop 48 fun i =>
    .txIirParams s (if 40 ≤ i then i else if i % 2 ≠ 0 then i - 1 else i + 1)
  have hflags := reads_readWords [.txIirActiveFlag s, .txiirFlag 0, .txIirNumBands s]
  have hnumbers := (hparams.bind (hflags.bind hcleared)).behind.behind
  refine hnumbers.congr rfl fun ts => ?_
  have htake : (ts.drop 2).take 51 = (ts.drop 2).take 48 ++ ((ts.drop 2).drop 48).take 3 :=
    List.take_add (i := 48) (j := 3)
  rw [htake, List.map_append, List.append_assoc, List.drop_drop]
  rfl

theorem agcRecord_reads (s : Int) : Reads 26 (fun ts => (ts.drop 1).map value) (agcRecord s) := by
  have hflag : Reads 1 (List.map value) (fun st => readWord (.agcFlag 0) st >>= fun st =>
      .ok (enableFeature (.agcFlag 0) 1 s st)) :=
    (reads_readWord (.agcFlag 0)).pure fun st => enableFeature_frame _ _ s st
  have hparams := (reads_loop 19 (.agcParams s)).append hflag rfl
  have hheader := reads_readWords [.agcCmdId s, .txAgcParamMask s, .txAgcEnableFlag s, .staticGain s,
    .adaptiveGainFlag s]
  exact (hheader.append hparams rfl).behind

theorem nsRecord_reads (s : Int) : Reads 10 (fun ts => (ts.drop 1).map value) (nsRecord s) := by
  have hparams := reads_readWords [.nsCmdId s, .ecModeNew s, .densGammaN s, .densNfeBlockSize s, .densLimitNs s,
    .densLimitNsD s, .wbGammaE s, .wbGammaN s, .nsFlag 0]
  exact (hparams.pure fun st => enableFeature_frame (.nsFlag 0) 2 s st).behind

/-! ## The lengths of an MB_ADRC record -/

/-- Words that get the values in their order. -/
def assign : List Word → List Nat → Tables → Tables
  | w :: ws, v :: vs, t => assign ws vs (Function.update t w v)
  | _, _, t => t

theorem assign_of_notMem {w : Word} {ws : List Word} (h : w ∉ ws) (vs : List Nat) (t : Tables) :
    assign ws vs t w = t w := by
  induction ws generalizing vs t with
  | nil => rfl
  | cons x ws ih =>
    rw [List.mem_cons, not_or] at h
    cases vs with
    | nil => rfl
    | cons v vs => rw [assign, ih h.2, Function.update_of_ne h.1]

theorem assign_getElem {ws : List Word} (h : ws.Nodup) {vs : List Nat} (t : Tables) {i : Nat} {w : Word} {v : Nat}
    (hw : ws[i]? = some w) (hv : vs[i]? = some v) : assign ws vs t w = v := by
  induction ws generalizing vs t i with
  | nil => cases hw
  | cons x ws ih =>
    rw [List.nodup_cons] at h
    cases vs with
    | nil => cases hv
    | cons y vs =>
      cases i with
      | zero =>
        obtain rfl := Option.some.inj hw
        obtain rfl := Option.some.inj hv
        rw [assign, assign_of_notMem h.1, Function.update_self]
      | succ i => exact ih h.2 _ hw hv

theorem readWords_tables {ws : List Word} {st st' : Parse} (h : readWords ws st = .ok st') :
    st'.tables = assign ws ((toks st).map value) st.tables := by
  induction ws generalizing st with
  | nil =>
    obtain rfl := Except.ok.inj h
    rfl
  | cons w ws ih =>
    rw [readWords, readWord] at h
    cases hs : strtok ',' st.rest with
    | none =>
      rw [hs] at h
      cases h
    | some r =>
      obtain ⟨t, rest⟩ := r
      rw [hs] at h
      rw [ih h, toks_of_some hs]
      rfl

/-- The words of an MB_ADRC record, in the order of its columns. -/
def mbadrcWords (d : Int) (bands size : Nat) : List Word :=
  [.mbNumBands d, .downSampLevel d, .adrcDelay d, .extBufSize d, .extPartition d, .extBufMsw d, .extBufLsw d] ++
  ((List.range bands).flatMap fun i => (List.range 10).map (.adrcBand d i)) ++
  (List.range (size / 2)).map (.extBuf d) ++ [.mbadrcFlag d]

theorem length_mbadrcWords (d : Int) (bands size : Nat) :
    (mbadrcWords d bands size).length = 8 + 10 * bands + size / 2 := by
  simp only [mbadrcWords, List.length_append, List.length_cons, List.length_nil, List.length_flatMap, List.length_map,
    List.length_range, List.map_const', List.sum_replicate_nat]
  omega

theorem readWords_append (ws ws' : List Word) :
    readWords (ws ++ ws') = fun st => readWords ws st >>= readWords ws' := by
  induction ws with
  | nil => rfl
  | cons w ws ih =>
    funext st
    rw [List.cons_append, readWords, readWords, bind_assoc, ih]

/-- The word that is read from a token. -/
theorem readWords_read {ws : List Word} {st st' : Parse} (hn : ws.Nodup) (h : readWords ws st = .ok st') {i : Nat}
    {w : Word} (hw : ws[i]? = some w) : st'.tables w = value ((toks st).getD i []) := by
  have hi : i < (toks st).length := by
    obtain ⟨hlt, -⟩ := List.getElem?_eq_some_iff.mp hw
    exact lt_of_lt_of_le hlt ((reads_readWords ws).ok h).1
  rw [readWords_tables h]
  refine assign_getElem hn _ hw ?_
  rw [List.getElem?_map, List.getD_eq_getElem?_getD, List.getElem?_eq_getElem hi]
  rfl

theorem readWords_keeps {ws : List Word} {st st' : Parse} (h : readWords ws st = .ok st') {w : Word} (hw : w ∉ ws) :
    st'.tables w = st.tables w := by
  rw [readWords_tables h, assign_of_notMem hw]

theorem readWord_eq (w : Word) (st : Parse) : readWord w st = readWords [w] st := by
  rw [readWords]
  cases readWord w st <;> rfl

theorem ok_bind (st : Parse) (f : Parse → Result) : ((.ok st : Result) >>= f) = f st := rfl
theorem error_bind (e : Parse × Status) (f : Parse → Result) : ((.error e : Result) >>= f) = .error e := rfl

/-- Behind a result, only what it leaves matters. -/
theorem bind_congr_ok {r : Result} {f g : Parse → Result} (h : ∀ st, r = .ok st → f st = g st) :
    (r >>= f) = (r >>= g) := by
  cases r with
  | error e => rfl
  | ok st => exact h st rfl

/-- The words of the record in the portions of the parser. -/
theorem readWords_mbadrcWords (d : Int) (b e : Nat) (st : Parse) : readWords (mbadrcWords d b e) st =
    readWord (.mbNumBands d) st >>= fun st =>
      readWords [.downSampLevel d, .adrcDelay d, .extBufSize d] st >>= fun st =>
      readWords [.extPartition d, .extBufMsw d, .extBufLsw d] st >>= fun st =>
      readWords ((List.range b).flatMap fun i => (List.range 10).map (.adrcBand d i)) st >>= fun st =>
      readWords ((List.range (e / 2)).map (.extBuf d)) st >>= readWord (.mbadrcFlag d) := by
  have happ : mbadrcWords d b e = [.mbNumBands d] ++ ([.downSampLevel d, .adrcDelay d, .extBufSize d] ++
      ([.extPartition d, .extBufMsw d, .extBufLsw d] ++
        (((List.range b).flatMap fun i => (List.range 10).map (.adrcBand d i)) ++
          ((List.range (e / 2)).map (.extBuf d) ++ [.mbadrcFlag d])))) := by
    simp [mbadrcWords]
  have hflag : readWord (.mbadrcFlag d) = readWords [.mbadrcFlag d] := by
    funext st
    exact readWord_eq _ st
  rw [happ, readWord_eq, hflag]
  simp only [readWords_append]

/-- The columns behind the lengths leave the lengths as they are. -/
theorem mbadrcTail_eq (d : Int) (st : Parse) :
    (readWords [.extPartition d, .extBufMsw d, .extBufLsw d] st >>= fun st =>
      readWords ((List.range (st.tables (.mbNumBands d))).flatMap fun i =>
        (List.range 10).map (.adrcBand d i)) st >>= fun st =>
      readWords ((List.range (st.tables (.extBufSize d) / 2)).map (.extBuf d)) st >>= readWord (.mbadrcFlag d)) =
    readWords [.extPartition d, .extBufMsw d, .extBufLsw d] st >>= fun st₁ =>
      readWords ((List.range (st.tables (.mbNumBands d))).flatMap fun i =>
        (List.range 10).map (.adrcBand d i)) st₁ >>= fun st₂ =>
      readWords ((List.range (st.tables (.extBufSize d) / 2)).map (.extBuf d)) st₂ >>= readWord (.mbadrcFlag d) := by
  apply bind_congr_ok
  intro st₁ h₁
  rw [readWords_keeps h₁ (by simp)]
  apply bind_congr_ok
  intro st₂ h₂
  rw [readWords_keeps h₂ (by simp), readWords_keeps h₁ (by simp)]

/-- The numbers of the record: the words of the record one after the other, unless a length is
too big. -/
theorem mbadrcBody_iff (d : Int) (st st' : Parse) :
    (readWord (.mbNumBands d) st >>= fun st =>
      if 5 < st.tables (.mbNumBands d) then .error (st, einval)
      else readWords [.downSampLevel d, .adrcDelay d, .extBufSize d] st >>= fun st =>
        if 392 < st.tables (.extBufSize d) then .error (st, einval)
        else readWords [.extPartition d, .extBufMsw d, .extBufLsw d] st >>= fun st =>
          readWords ((List.range (st.tables (.mbNumBands d))).flatMap fun i =>
            (List.range 10).map (.adrcBand d i)) st >>= fun st =>
          readWords ((List.range (st.tables (.extBufSize d) / 2)).map (.extBuf d)) st >>=
            readWord (.mbadrcFlag d)) = .ok st' ↔
    value ((toks st).getD 0 []) ≤ 5 ∧ value ((toks st).getD 3 []) ≤ 392 ∧
      readWords (mbadrcWords d (value ((toks st).getD 0 [])) (value ((toks st).getD 3 []))) st = .ok st' := by
  rw [readWords_mbadrcWords]
  generalize hb : value ((toks st).getD 0 []) = b
  generalize he : value ((toks st).getD 3 []) = e
  cases h₁ : readWord (.mbNumBands d) st with
  | error err => simp [error_bind]
  | ok st₁ =>
    rw [readWord_eq] at h₁
    have hb₁ : st₁.tables (.mbNumBands d) = b := by rw [readWords_read (by simp) h₁ (i := 0) rfl, hb]
    have ht₁ : toks st₁ = (toks st).drop 1 := ((reads_readWords _).ok h₁).2
    simp only [ok_bind, hb₁]
    by_cases hlow : 5 < b
    · simp [hlow, not_le.mpr hlow]
    · rw [if_neg hlow]
      cases h₂ : readWords [.downSampLevel d, .adrcDelay d, .extBufSize d] st₁ with
      | error err => simp [error_bind]
      | ok st₂ =>
        have he₂ : st₂.tables (.extBufSize d) = e := by
          rw [readWords_read (by simp) h₂ (i := 2) rfl, ht₁, List.getD_eq_getElem?_getD, List.getElem?_drop,
            ← List.getD_eq_getElem?_getD, ← he]
        have hb₂ : st₂.tables (.mbNumBands d) = b := by rw [readWords_keeps h₂ (by simp), hb₁]
        simp only [ok_bind]
        rw [mbadrcTail_eq, hb₂, he₂]
        by_cases hsize : 392 < e
        · simp [hsize, not_le.mpr hsize]
        · simp [hsize, not_lt.mp hlow, not_lt.mp hsize]

theorem skip_toks {st st' : Parse} (h : skip st = .ok st') : toks st' = (toks st).drop 1 := (reads_skip.ok h).2

/-- With lengths that are not too big, the record is its words one after the other. -/
theorem mbadrcRecord_iff (d : Int) (st st' : Parse) : mbadrcRecord d st = .ok st' ↔
    value ((toks st).getD 2 []) ≤ 5 ∧ value ((toks st).getD 5 []) ≤ 392 ∧
      (skip st >>= fun st₁ => skip st₁ >>= readWords
        (mbadrcWords d (value ((toks st).getD 2 [])) (value ((toks st).getD 5 [])))) = .ok st' := by
  unfold mbadrcRecord
  cases h₁ : skip st with
  | error e => simp [error_bind]
  | ok st₁ =>
    simp only [ok_bind]
    cases h₂ : skip st₁ with
    | error e => simp [error_bind]
    | ok st₂ =>
      have ht : ∀ i, (toks st).getD (2 + i) [] = (toks st₂).getD i [] := by
        intro i
        rw [skip_toks h₂, skip_toks h₁, List.drop_drop, List.getD_eq_getElem?_getD, List.getD_eq_getElem?_getD,
          List.getElem?_drop]
      have hb := ht 0
      have he := ht 3
      simp only [Nat.add_zero, Nat.reduceAdd] at hb he
      rw [hb, he]
      exact mbadrcBody_iff d st₂ st'

end AudioFilterRecords
