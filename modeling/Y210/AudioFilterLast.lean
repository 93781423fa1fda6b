import Y210.AudioFilterFile

/-!
# The last record of a kind

A filter file may hold several records of one kind and index. Each overwrites the words of its
table. The flags of the pre-processing records are ORed into a mask.
-/
namespace AudioFilterLast

open AudioDrivers AudioHardware AudioFilter AudioFilterRecords AudioFilterTables AudioFilterFile

/-! ## What a record decides -/

theorem put_same (w : Word) (v : Nat) (st : Parse) : (put w v st).tables w = v := Function.update_self ..

theorem put_other {w x : Word} (h : x ≠ w) (v : Nat) (st : Parse) : (put w v st).tables x = st.tables x :=
  Function.update_of_ne h ..

/-- Two parses with the same text left and the same words of `S`. -/
structure Agree (S : Set Word) (a b : Parse) : Prop where
  rest : a.rest = b.rest
  words : ∀ w ∈ S, a.tables w = b.tables w

/-- `f` writes the words of `S`, and what it writes is decided by the text and the words of `P`. -/
structure Sets (P S : Set Word) (f : Parse → Result) : Prop where
  frame : ∀ {st st'}, f st = .ok st' → ∀ w ∉ S, st'.tables w = st.tables w
  fixed : ∀ {a b a' b'}, Agree P a b → f a = .ok a' → f b = .ok b' → Agree S a' b'

section
variable {P Q S T : Set Word} {f g : Parse → Result}

theorem bind_ok {r : Result} {st' : Parse} (h : (r >>= g) = .ok st') : ∃ mid, r = .ok mid ∧ g mid = .ok st' := by
  cases r with
  | error e => cases h
  | ok mid => exact ⟨mid, rfl, h⟩

theorem Agree.mono {a b : Parse} (h : Agree S a b) (hsub : T ⊆ S) : Agree T a b :=
  ⟨h.rest, fun w hw => h.words w (hsub hw)⟩

/-- The words that were decided before stay so. -/
theorem Sets.both (hf : Sets P S f) (hsub : P ⊆ Q) {a b a' b' : Parse} (h : Agree Q a b) (ha : f a = .ok a')
    (hb : f b = .ok b') : Agree (Q ∪ S) a' b' := by
  have hnew := hf.fixed (h.mono hsub) ha hb
  refine ⟨hnew.rest, fun w hw => ?_⟩
  by_cases hS : w ∈ S
  · exact hnew.words w hS
  · rw [hf.frame ha w hS, hf.frame hb w hS]
    exact h.words w (hw.resolve_right hS)

theorem Sets.bind (hf : Sets P S f) (hg : Sets Q T g) (hQ : Q ⊆ P ∪ S) : Sets P (S ∪ T) fun st => f st >>= g := by
  constructor
  · intro st st' h w hw
    obtain ⟨mid, h₁, h₂⟩ := bind_ok h
    rw [Set.mem_union, not_or] at hw
    rw [hg.frame h₂ w hw.2, hf.frame h₁ w hw.1]
  · intro a b a' b' hP ha hb
    obtain ⟨mid, h₁, h₂⟩ := bind_ok ha
    obtain ⟨mid', h₁', h₂'⟩ := bind_ok hb
    have hall := hg.both hQ (hf.both subset_rfl hP h₁ h₁') h₂ h₂'
    exact hall.mono (Set.union_subset_union_left T Set.subset_union_right)

theorem Sets.congr (hf : Sets P S f) (h : S = T) : Sets P T f := h ▸ hf

theorem Sets.weaken (hf : Sets P S f) (h : P ⊆ Q) : Sets Q S f := ⟨hf.frame, fun hQ => hf.fixed (hQ.mono h)⟩

/-- A change of the tables alone. -/
theorem sets_ok {k : Parse → Parse} (hrest : ∀ st, (k st).rest = st.rest)
    (hframe : ∀ st, ∀ w ∉ S, (k st).tables w = st.tables w)
    (hfixed : ∀ {a b}, Agree P a b → ∀ w ∈ S, (k a).tables w = (k b).tables w) :
    Sets P S fun st => .ok (k st) := by
  constructor
  · intro st st' h w hw
    obtain rfl := Except.ok.inj h
    exact hframe st w hw
  · intro a b a' b' hP ha hb
    obtain rfl := Except.ok.inj ha
    obtain rfl := Except.ok.inj hb
    refine ⟨?_, hfixed hP⟩
    rw [hrest, hrest, hP.rest]

/-- One token, from which `k` makes a state. -/
theorem sets_token {k : List Char → Parse → Parse} (hrest : ∀ t st, (k t st).rest = st.rest)
    (hframe : ∀ t st, ∀ w ∉ S, (k t st).tables w = st.tables w)
    (hfixed : ∀ t a b, ∀ w ∈ S, (k t a).tables w = (k t b).tables w) :
    Sets ∅ S fun st => match Tokens.strtok ',' st.rest with
      | none => .error (st, einval)
      | some (t, rest) => .ok (k t { st with rest := rest }) := by
  constructor
  · intro st st' h w hw
    cases hs : Tokens.strtok ',' st.rest with
    | none =>
      simp only [hs] at h
      cases h
    | some r =>
      simp only [hs] at h
      obtain rfl := Except.ok.inj h
      exact hframe r.1 _ w hw
  · intro a b a' b' hP ha hb
    cases hs : Tokens.strtok ',' a.rest with
    | none =>
      simp only [hs] at ha
      cases ha
    | some r =>
      simp only [hs] at ha
      simp only [← hP.rest, hs] at hb
      obtain rfl := Except.ok.inj ha
      obtain rfl := Except.ok.inj hb
      refine ⟨?_, hfixed r.1 _ _⟩
      rw [hrest, hrest]

theorem sets_skip : Sets ∅ ∅ skip :=
  sets_token (k := fun _ st => st) (fun _ _ => rfl) (fun _ _ _ _ => rfl) fun _ _ _ _ hw => hw.elim

theorem sets_readWord (w : Word) : Sets ∅ {w} (readWord w) := by
  refine sets_token (k := fun t st => put w (value t) { st with stored := st.stored ++ [value t] })
    (fun _ _ => rfl) (fun t st x hx => put_other hx ..) fun t a b x hx => ?_
  obtain rfl : x = w := hx
  rw [put_same, put_same]

theorem sets_readWords (ws : List Word) : Sets ∅ {w | w ∈ ws} (readWords ws) := by
  induction ws with
  | nil => exact (sets_ok (P := ∅) (S := ∅) (k := id) (fun _ => rfl) (fun _ _ _ => rfl) fun _ w hw =>
      absurd hw (Set.notMem_empty w)).congr (by simp)
  | cons w ws ih =>
    refine ((sets_readWord w).bind ih (Set.empty_subset _)).congr ?_
    ext x
    simp

theorem sets_clearWord (w : Word) : Sets ∅ {w} (clearWord w) := by
  refine (sets_skip.bind (sets_ok (P := ∅) (S := {w}) (k := fun st => put w 0 { st with stored := st.stored ++ [0] })
    (fun _ => rfl) (fun st x hx => put_other hx ..) fun {a b} _ x hx => ?_)
    (Set.empty_subset _)).congr (Set.empty_union _)
  obtain rfl : x = w := hx
  rw [put_same, put_same]

theorem Sets.behind (hf : Sets ∅ S f) : Sets ∅ S fun st => skip st >>= f :=
  (sets_skip.bind hf (Set.empty_subset _)).congr (Set.empty_union S)

end

/-! ## The records -/

theorem iirRecord_sets (d : Int) : Sets ∅ {w | w ∈ (List.range 48).map (.iirParams d) ++ [.rxIirFlag d, .iirNumBands d]}
    (iirRecord d) := by
  have hwords := (sets_readWords ((List.range 48).map (.iirParams d))).bind
    (sets_readWords [.rxIirFlag d, .iirNumBands d]) (Set.empty_subset _)
  refine hwords.behind.behind.congr ?_
  ext w
  simp only [Set.mem_union, Set.mem_ofPred_eq, List.mem_append]

theorem adrcRecord_sets (d : Int) : Sets ∅ {w | w ∈ .adrcFlag d :: (List.range 8).map (.adrcParams d)}
    (adrcRecord d) := (sets_readWords _).behind.behind

/-- The coefficients of an equalizer. -/
def eqCoefs (d : Int) : Set Word := {w | ∃ n, w = .eqParams d n}

/-- The words that a band is read into. -/
def bandInput (i : Nat) : List Word := [.eqGain i, .eqFreq i, .eqType i, .eqQf i]

theorem putAll_agree {S : Set Word} (stores : List (Word × Nat)) {a b : Parse} (h : Agree S a b) :
    Agree S (putAll stores a) (putAll stores b) := by
  induction stores generalizing a b with
  | nil => exact h
  | cons s stores ih =>
    refine ih ⟨h.rest, fun w hw => ?_⟩
    by_cases he : w = s.1
    · rw [he, put_same, put_same]
    · rw [put_other he, put_other he]
      exact h.words w hw

theorem putAll_keeps {stores : List (Word × Nat)} {w : Word} (h : ∀ s ∈ stores, s.1 ≠ w) (st : Parse) :
    (putAll stores st).tables w = st.tables w := by
  induction stores generalizing st with
  | nil => rfl
  | cons s stores ih =>
    obtain ⟨hfirst, hrest⟩ := List.forall_mem_cons.mp h
    change (putAll stores (put s.1 s.2 st)).tables w = st.tables w
    rw [ih hrest, put_other hfirst.symm]

theorem bandStores_coefs (d : Int) (i : Nat) (c : EqCoefs) : ∀ s ∈ bandStores d i c, s.1 ∈ eqCoefs d := by
  intro s hs
  simp only [bandStores, List.mem_append, List.mem_map, List.mem_singleton] at hs
  obtain (⟨j, -, rfl⟩ | ⟨j, -, rfl⟩) | rfl := hs <;> exact ⟨_, rfl⟩

/-- A band is decided by its columns. -/
theorem eqBand_sets (eq_cal : Nat → Nat → Nat → Nat → EqCoefs) (d : Int) (i : Nat) :
    Sets (eqCoefs d) ({w | w ∈ bandInput i} ∪ eqCoefs d) (eqBand eq_cal d i) := by
  refine ((sets_readWords (bandInput i)).weaken (Set.empty_subset _)).bind
    (sets_ok (P := eqCoefs d ∪ {w | w ∈ bandInput i}) (k := fun st => putAll (bandStores d i (eq_cal
      (st.tables (.eqGain i)) (st.tables (.eqFreq i)) (st.tables (.eqType i)) (st.tables (.eqQf i)))) st)
      (fun st => (putAll_frame _ st).1) (fun st w hw => ?_) fun {a b} h w hw => ?_) subset_rfl
  · refine putAll_keeps (fun s hs he => hw ?_) st
    rw [← he]
    exact bandStores_coefs d i _ s hs
  · have hin : ∀ x ∈ bandInput i, a.tables x = b.tables x := fun x hx => h.words x (.inr hx)
    rw [hin (.eqGain i) (by simp [bandInput]), hin (.eqFreq i) (by simp [bandInput]),
      hin (.eqType i) (by simp [bandInput]), hin (.eqQf i) (by simp [bandInput])]
    exact (putAll_agree _ h).words w (.inl hw)

theorem eqBands_sets (eq_cal : Nat → Nat → Nat → Nat → EqCoefs) (d : Int) (bands : List Nat) :
    Sets (eqCoefs d) ({w | w ∈ bands.flatMap bandInput} ∪ eqCoefs d)
      fun st => bands.foldlM (fun st i => eqBand eq_cal d i st) st := by
  induction bands with
  | nil =>
    refine (sets_ok (P := eqCoefs d) (S := eqCoefs d) (k := id) (fun _ => rfl) (fun _ _ _ => rfl)
      fun h w hw => h.words w hw).congr ?_
    ext w
    simp
  | cons i bands ih =>
    refine ((eqBand_sets eq_cal d i).bind ih Set.subset_union_left).congr ?_
    ext w
    simp only [Set.mem_union, Set.mem_ofPred_eq, List.flatMap_cons, List.mem_append]
    tauto

theorem clearEqualizer_sets (d : Int) : Sets ∅ ({.eqBands d} ∪ eqCoefs d)
    fun st => .ok (put (.eqBands d) 8 { st with tables := clearEqualizer d st.tables }) := by
  refine sets_ok (fun _ => rfl) (fun st w hw => ?_) fun {a b} _ w hw => ?_
  · rw [Set.mem_union, not_or] at hw
    rw [put_other hw.1]
    cases w with
    | eqBands d' => exact if_neg fun (he : d' = d) => hw.1 (by rw [he]; rfl)
    | eqParams d' n => exact if_neg fun (he : d' = d) => hw.2 ⟨n, by rw [he]⟩
    | _ => rfl
  · rcases hw with rfl | ⟨n, rfl⟩
    · rw [put_same, put_same]
    · rw [put_other (by simp), put_other (by simp)]
      exact (if_pos rfl).trans (if_pos rfl).symm

theorem eqRecord_sets (eq_cal : Nat → Nat → Nat → Nat → EqCoefs) (d : Int) :
    Sets ∅ ({.eqFlag d} ∪ ({.eqBands d} ∪ eqCoefs d ∪ ({w | w ∈ (List.range 8).flatMap bandInput} ∪ eqCoefs d)))
      (eqRecord (.calccoefs eq_cal) d) := by
  have hbands := (clearEqualizer_sets d).bind (eqBands_sets eq_cal d (List.range 8))
    (Set.subset_union_right.trans Set.subset_union_right)
  exact ((sets_readWord (.eqFlag d)).bind hbands (Set.empty_subset _)).behind.behind

/-! ## The pre-processing records -/

/-- The end of a pre-processing record. -/
structure Masks (S : Set Word) (flag : Word) (bit : Nat) (s : Int) (f : Parse → Result) : Prop where
  frame : ∀ {st st'}, f st = .ok st' → ∀ w ∉ S, w ≠ .enablePreprocMask s → st'.tables w = st.tables w
  fixed : ∀ {a b a' b'}, a.rest = b.rest → f a = .ok a' → f b = .ok b' → ∀ w ∈ S, a'.tables w = b'.tables w
  mask : ∀ {st st'}, f st = .ok st' → st'.tables (.enablePreprocMask s) =
    if st'.tables flag ≠ 0 then st.tables (.enablePreprocMask s) ||| bit else st.tables (.enablePreprocMask s)

theorem enableFeature_keeps {flag : Word} {bit : Nat} {s : Int} {w : Word} (h : w ≠ .enablePreprocMask s) (st : Parse) :
    (enableFeature flag bit s st).tables w = st.tables w := by
  unfold enableFeature
  split
  · exact put_other h ..
  · rfl

theorem Sets.masks {S : Set Word} {f : Parse → Result} (hf : Sets ∅ S f) (flag : Word) (bit : Nat) (s : Int)
    (hmask : .enablePreprocMask s ∉ S) (hflag : flag ≠ .enablePreprocMask s) :
    Masks S flag bit s fun st => f st >>= fun st => .ok (enableFeature flag bit s st) := by
  constructor
  · intro st st' h w hw hne
    obtain ⟨mid, h₁, h₂⟩ := bind_ok (g := fun st => .ok (enableFeature flag bit s st)) h
    obtain rfl := Except.ok.inj h₂
    rw [enableFeature_keeps hne, hf.frame h₁ w hw]
  · intro a b a' b' hrest ha hb w hw
    obtain ⟨mid, h₁, h₂⟩ := bind_ok (g := fun st => .ok (enableFeature flag bit s st)) ha
    obtain ⟨mid', h₁', h₂'⟩ := bind_ok (g := fun st => .ok (enableFeature flag bit s st)) hb
    obtain rfl := Except.ok.inj h₂
    obtain rfl := Except.ok.inj h₂'
    have hne : w ≠ .enablePreprocMask s := fun he => hmask (he ▸ hw)
    rw [enableFeature_keeps hne, enableFeature_keeps hne]
    exact (hf.fixed ⟨hrest, fun x hx => hx.elim⟩ h₁ h₁').words w hw
  · intro st st' h
    obtain ⟨mid, h₁, h₂⟩ := bind_ok (g := fun st => .ok (enableFeature flag bit s st)) h
    obtain rfl := Except.ok.inj h₂
    rw [enableFeature_keeps hflag, ← hf.frame h₁ _ hmask]
    unfold enableFeature
    split
    · exact put_same ..
    · rfl

/-- The words of a TX_IIR record. -/
def txIirWords (s : Int) : List Word :=
  ((List.range 48).map fun i => .txIirParams s (if 40 ≤ i then i else if i % 2 ≠ 0 then i - 1 else i + 1)) ++
    ([.txIirActiveFlag s, .txiirFlag 0, .txIirNumBands s] ++ [.txIirCmdId s])

/-- The words of an AGC record. -/
def agcWords (s : Int) : List Word :=
  [.agcCmdId s, .txAgcParamMask s, .txAgcEnableFlag s, .staticGain s, .adaptiveGainFlag s] ++
    ((List.range 19).map (.agcParams s) ++ [.agcFlag 0])

/-- The words of an NS record. -/
def nsWords (s : Int) : List Word :=
  [.nsCmdId s, .ecModeNew s, .densGammaN s, .densNfeBlockSize s, .densLimitNs s, .densLimitNsD s, .wbGammaE s,
    .wbGammaN s, .nsFlag 0]

theorem txIirRecord_masks (s : Int) : Masks {w | w ∈ txIirWords s} (.txiirFlag 0) 4 s (txIirRecord s) := by
  have hwords := (sets_readWords ((List.range 48).map fun i =>
      .txIirParams s (if 40 ≤ i then i else if i % 2 ≠ 0 then i - 1 else i + 1))).bind
    ((sets_readWords [.txIirActiveFlag s, .txiirFlag 0, .txIirNumBands s]).bind (sets_clearWord (.txIirCmdId s))
      (Set.empty_subset _)) (Set.empty_subset _)
  have hset := hwords.behind.behind.congr (T := {w | w ∈ txIirWords s}) (by
    ext w
    simp only [txIirWords, Set.mem_union, Set.mem_ofPred_eq, List.mem_append, Set.mem_singleton_iff,
      List.mem_singleton])
  have hmasks := hset.masks (.txiirFlag 0) 4 s (by simp [txIirWords]) (by simp)
  simp only [bind_assoc] at hmasks
  exact hmasks

theorem agcRecord_masks (s : Int) : Masks {w | w ∈ agcWords s} (.agcFlag 0) 1 s (agcRecord s) := by
  have hwords := (sets_readWords [.agcCmdId s, .txAgcParamMask s, .txAgcEnableFlag s, .staticGain s,
      .adaptiveGainFlag s]).bind ((sets_readWords ((List.range 19).map (.agcParams s))).bind
    (sets_readWord (.agcFlag 0)) (Set.empty_subset _)) (Set.empty_subset _)
  have hset := hwords.behind.congr (T := {w | w ∈ agcWords s}) (by
    ext w
    simp only [agcWords, Set.mem_union, Set.mem_ofPred_eq, List.mem_append, Set.mem_singleton_iff, List.mem_singleton])
  have hmasks := hset.masks (.agcFlag 0) 1 s (by simp [agcWords]) (by simp)
  simp only [bind_assoc] at hmasks
  exact hmasks

theorem nsRecord_masks (s : Int) : Masks {w | w ∈ nsWords s} (.nsFlag 0) 2 s (nsRecord s) := by
  have hmasks := (sets_readWords (nsWords s)).behind.masks (.nsFlag 0) 2 s (by simp [nsWords]) (by simp)
  simp only [bind_assoc] at hmasks
  exact hmasks

/-! ## Kinds of records -/

/-- The kind and the index of a record. -/
inductive Record where
  | iir (device_id : Int)
  | adrc (device_id : Int)
  | eq (device_id : Int)
  | mbadrc (device_id : Int)
  | txIir (samp_index : Int)
  | agc (samp_index : Int)
  | ns (samp_index : Int)
  deriving DecidableEq, Repr

def recordOf (line : List Char) : Option Record :=
  let c0 := line.getD 0 '\x00'
  let c1 := line.getD 1 '\x00'
  let device : Bool := c1 = '1' || c1 = '2' || c1 = '3'
  if c0 = 'A' && device then some (.iir (get_device_id c1))
  else if c0 = 'B' && device then some (.adrc (get_device_id c1))
  else if c0 = 'C' && device then some (.eq (get_device_id c1))
  else if c0 = 'D' && device then some (.mbadrc (get_device_id c1))
  else if c0 = 'E' || c0 = 'F' || c0 = 'G' then
    let samp_index := get_sample_index c1
    if samp_index = einval then none
    else if c0 = 'E' then some (.txIir samp_index)
    else if c0 = 'F' then some (.agc samp_index)
    else some (.ns samp_index)
  else none

def parseRecord (lib : EqLibrary) : Record → Parse → Result
  | .iir d => iirRecord d
  | .adrc d => adrcRecord d
  | .eq d => eqRecord lib d
  | .mbadrc d => mbadrcRecord d
  | .txIir s => txIirRecord s
  | .agc s => agcRecord s
  | .ns s => nsRecord s

/-- The coefficients of a record; the lengths in an MB_ADRC table tell how far it goes. -/
def tableWords : Record → Tables → List Word
  | .iir d, _ => .iirNumBands d :: (List.range 48).map (.iirParams d)
  | .adrc d, _ => (List.range 8).map (.adrcParams d)
  | .eq d, _ => .eqBands d :: (List.range 132).map (.eqParams d)
  | .mbadrc d, t => mbadrcWords d (t (.mbNumBands d)) (t (.extBufSize d))
  | .txIir s, _ => [.txIirCmdId s, .txIirActiveFlag s, .txIirNumBands s] ++ (List.range 48).map (.txIirParams s)
  | .agc s, _ => [.agcCmdId s, .txAgcParamMask s, .txAgcEnableFlag s, .staticGain s, .adaptiveGainFlag s] ++
      (List.range 19).map (.agcParams s)
  | .ns s, _ => [.nsCmdId s, .ecModeNew s, .densGammaN s, .densNfeBlockSize s, .densLimitNs s, .densLimitNsD s,
      .wbGammaE s, .wbGammaN s]

/-- The word that a record reads its flag into. -/
def flagWord : Record → Word
  | .iir d => .rxIirFlag d
  | .adrc d => .adrcFlag d
  | .eq d => .eqFlag d
  | .mbadrc d => .mbadrcFlag d
  | .txIir _ => .txiirFlag 0
  | .agc _ => .agcFlag 0
  | .ns _ => .nsFlag 0

/-- The mask and the bit that a pre-processing record enables: `TX_IIR_ENABLE`, `AGC_ENABLE`, `NS_ENABLE`. -/
def preprocBit : Record → Option (Int × Nat)
  | .txIir s => some (s, 2)
  | .agc s => some (s, 0)
  | .ns s => some (s, 1)
  | _ => none

/-- The enabling state that the drivers go by. -/
def enabling (k : Record) (t : Tables) : Nat :=
  match preprocBit k with
  | some (s, b) => ((t (.enablePreprocMask s)).testBit b).toNat
  | none => t (flagWord k)

/-- The record whose table or flag a word belongs to. -/
def owner : Word → Option Record
  | .iirParams d _ | .rxIirFlag d | .iirNumBands d => some (.iir d)
  | .adrcFlag d | .adrcParams d _ => some (.adrc d)
  | .eqFlag d | .eqBands d | .eqParams d _ => some (.eq d)
  | .mbNumBands d | .downSampLevel d | .adrcDelay d | .extBufSize d | .extPartition d | .extBufMsw d | .extBufLsw d
  | .adrcBand d _ _ | .extBuf d _ | .mbadrcFlag d => some (.mbadrc d)
  | .txIirParams s _ | .txIirActiveFlag s | .txIirNumBands s | .txIirCmdId s => some (.txIir s)
  | .agcCmdId s | .txAgcParamMask s | .txAgcEnableFlag s | .staticGain s | .adaptiveGainFlag s | .agcParams s _ =>
    some (.agc s)
  | .nsCmdId s | .ecModeNew s | .densGammaN s | .densNfeBlockSize s | .densLimitNs s | .densLimitNsD s | .wbGammaE s
  | .wbGammaN s => some (.ns s)
  | .eqGain _ | .eqFreq _ | .eqType _ | .eqQf _ | .txiirFlag _ | .agcFlag _ | .nsFlag _ | .enablePreprocMask _ => none

/-- A line is parsed as the record it holds, or changes nothing. -/
theorem check_line (line : List Char) (lib : EqLibrary) (t : Tables) :
    match recordOf line with
    | some k => check_and_set_audpp_parameters lib line t = parseRecord lib k ⟨line, t, [], []⟩
    | none => ∀ st, check_and_set_audpp_parameters lib line t = .ok st → st.tables = t := by
  unfold recordOf check_and_set_audpp_parameters
  dsimp only
  generalize line.getD 0 '\x00' = c0
  generalize line.getD 1 '\x00' = c1
  generalize (decide (c1 = '1') || decide (c1 = '2') || decide (c1 = '3')) = device
  by_cases hA : (c0 = 'A' && device) = true
  · rw [if_pos hA, if_pos hA]
    rfl
  rw [if_neg hA, if_neg hA]
  by_cases hB : (c0 = 'B' && device) = true
  · rw [if_pos hB, if_pos hB]
    rfl
  rw [if_neg hB, if_neg hB]
  by_cases hC : (c0 = 'C' && device) = true
  · rw [if_pos hC, if_pos hC]
    rfl
  rw [if_neg hC, if_neg hC]
  by_cases hD : (c0 = 'D' && device) = true
  · rw [if_pos hD, if_pos hD]
    rfl
  rw [if_neg hD, if_neg hD]
  by_cases hpre : (c0 = 'E' || c0 = 'F' || c0 = 'G') = true
  · rw [if_pos hpre, if_pos hpre]
    by_cases hs : get_sample_index c1 = einval
    · rw [if_pos hs, if_pos hs]
      exact nofun
    rw [if_neg hs, if_neg hs]
    by_cases hE : c0 = 'E'
    · rw [if_pos hE, if_pos hE]
      rfl
    rw [if_neg hE, if_neg hE]
    by_cases hF : c0 = 'F'
    · rw [if_pos hF, if_pos hF]
      rfl
    · rw [if_neg hF, if_neg hF]
      rfl
  · rw [if_neg hpre, if_neg hpre]
    rintro st ⟨⟩
    rfl

theorem check_record {line : List Char} {k : Record} (h : recordOf line = some k) (lib : EqLibrary) (t : Tables) :
    check_and_set_audpp_parameters lib line t = parseRecord lib k ⟨line, t, [], []⟩ := by
  have hline := check_line line lib t
  rw [h] at hline
  exact hline

theorem check_plain {line : List Char} (h : recordOf line = none) {lib : EqLibrary} {t : Tables} {st : Parse}
    (hok : check_and_set_audpp_parameters lib line t = .ok st) : st.tables = t := by
  have hline := check_line line lib t
  rw [h] at hline
  exact hline st hok

theorem owner_tableWords (k : Record) (t : Tables) : ∀ w ∈ tableWords k t, owner w = some k := by
  cases k with
  | mbadrc d =>
    intro w hw
    have hof := ofMbadrc_of_mem hw
    cases w <;> first | exact hof.elim | exact congrArg (fun d => some (Record.mbadrc d)) hof
  | _ => simp [tableWords, owner]

theorem owner_flagWord {k : Record} (h : preprocBit k = none) : owner (flagWord k) = some k := by
  cases k <;> first | rfl | cases h

theorem preprocBit_inj {k k' : Record} {x : Int × Nat} (h : preprocBit k = some x) (h' : preprocBit k' = some x) :
    k = k' := by
  obtain ⟨s, b⟩ := x
  cases k <;> cases k' <;> simp [preprocBit] at h h' ⊢ <;> omega

/-- What an accepted record leaves of the tables, `own` being what it leaves of cleared ones. -/
structure Leaves (k : Record) (t t' own : Tables) : Prop where
  kept : ∀ w k', owner w = some k' → k' ≠ k → t' w = t w
  table : ∀ w ∈ tableWords k own, t' w = own w
  flag : t' (flagWord k) = own (flagWord k)
  masks : ∀ s b, (t' (.enablePreprocMask s)).testBit b = ((t (.enablePreprocMask s)).testBit b ||
    (decide (preprocBit k = some (s, b)) && decide (own (flagWord k) ≠ 0)))

/-- A word of the record's own, or one that belongs to no record and is no mask. -/
def Owned (k : Record) (w : Word) : Prop := owner w = some k ∨ (owner w = none ∧ ∀ s, w ≠ .enablePreprocMask s)

theorem Sets.leaves {k : Record} {S : Set Word} {f : Parse → Result} (hf : Sets ∅ S f) (hbit : preprocBit k = none)
    (hown : ∀ w ∈ S, Owned k w)
    (htable : ∀ t, ∀ w ∈ tableWords k t, w ∈ S) (hflag : flagWord k ∈ S) {line : List Char} {t₀ t : Tables}
    {st₀ st : Parse} (h₀ : f ⟨line, t₀, [], []⟩ = .ok st₀) (h : f ⟨line, t, [], []⟩ = .ok st) :
    Leaves k t st.tables st₀.tables := by
  have hsame := hf.fixed (a := ⟨line, t, [], []⟩) (b := ⟨line, t₀, [], []⟩)
    ⟨rfl, fun w hw => absurd hw (Set.notMem_empty w)⟩ h h₀
  refine ⟨fun w k' hw hne => hf.frame h w fun hS => ?_, fun w hw => hsame.words w (htable _ w hw),
    hsame.words _ hflag, fun s b => ?_⟩
  · rcases hown w hS with he | ⟨he, -⟩
    · exact hne (Option.some.inj (hw.symm.trans he))
    · rw [he] at hw
      cases hw
  · have hmask : .enablePreprocMask s ∉ S := by
      intro hS
      rcases hown _ hS with he | ⟨-, he⟩
      · cases he
      · exact he s rfl
    rw [hf.frame h _ hmask, hbit]
    simp

theorem Masks.leaves {k : Record} {S : Set Word} {s : Int} {b : Nat} {f : Parse → Result}
    (hf : Masks S (flagWord k) (2 ^ b) s f) (hbit : preprocBit k = some (s, b))
    (hown : ∀ w ∈ S, Owned k w)
    (htable : ∀ t, ∀ w ∈ tableWords k t, w ∈ S) (hflag : flagWord k ∈ S) {line : List Char} {t₀ t : Tables}
    {st₀ st : Parse} (h₀ : f ⟨line, t₀, [], []⟩ = .ok st₀) (h : f ⟨line, t, [], []⟩ = .ok st) :
    Leaves k t st.tables st₀.tables := by
  have hsame := hf.fixed (a := ⟨line, t, [], []⟩) (b := ⟨line, t₀, [], []⟩) rfl h h₀
  refine ⟨fun w k' hw hne => hf.frame h w (fun hS => ?_) fun he => ?_, fun w hw => hsame w (htable _ w hw),
    hsame _ hflag, fun s' b' => ?_⟩
  · rcases hown w hS with he | ⟨he, -⟩
    · exact hne (Option.some.inj (hw.symm.trans he))
    · rw [he] at hw
      cases hw
  · subst he
    cases hw
  · by_cases hs : s' = s
    · subst hs
      rw [hf.mask h, hsame _ hflag, hbit]
      split
      · rename_i hset
        simp [hset, Nat.testBit_or, Nat.testBit_two_pow]
      · rename_i hset
        simp [not_not.mp hset]
    · have hmask : .enablePreprocMask s' ∉ S := by
        intro hS
        rcases hown _ hS with he | ⟨-, he⟩
        · cases he
        · exact he s' rfl
      rw [hf.frame h _ hmask (by simpa using hs), hbit]
      simp [Ne.symm hs]

/-- The pairs of coefficients that a TX_IIR record swaps cover all places. -/
theorem txIirParams_mem (s : Int) {i : Nat} (hi : i < 48) : .txIirParams s i ∈ txIirWords s := by
  have hplace : ∃ a < 48, (if 40 ≤ a then a else if a % 2 ≠ 0 then a - 1 else a + 1) = i := by
    by_cases hlast : 40 ≤ i
    · exact ⟨i, hi, if_pos hlast⟩
    by_cases hodd : i % 2 ≠ 0
    · refine ⟨i - 1, by omega, ?_⟩
      rw [if_neg (by omega), if_neg (by omega)]
      omega
    · refine ⟨i + 1, by omega, ?_⟩
      rw [if_neg (by omega), if_pos (by omega)]
      omega
  obtain ⟨a, ha, he⟩ := hplace
  refine List.mem_append_left _ (List.mem_map.mpr ⟨a, List.mem_range.mpr ha, ?_⟩)
  rw [he]

theorem mbadrcRecord_leaves {d : Int} (hd : DeviceId d) {line : List Char} {t₀ t : Tables} {st₀ st : Parse}
    (h₀ : mbadrcRecord d ⟨line, t₀, [], []⟩ = .ok st₀) (h : mbadrcRecord d ⟨line, t, [], []⟩ = .ok st) :
    Leaves (.mbadrc d) t st.tables st₀.tables := by
  have hkept := ((mbadrcRecord_writes (K := fun w => ¬ OfMbadrc d w) hd fun w hw hnot => hnot hw).ok trivial h).1.kept
  have hown := mbadrcRecord_taken h₀
  have htaken := mbadrcRecord_taken h
  have hsame : ∀ w ∈ mbadrcWords d (Tokens.token ',' line 2 |> value) (Tokens.token ',' line 5 |> value),
      st.tables w = st₀.tables w := by
    intro w hw
    obtain ⟨n, hn⟩ := List.mem_iff_getElem?.mp hw
    rw [hown.words hn, htaken.words hn]
  have hbands : st₀.tables (.mbNumBands d) = value (Tokens.token ',' line 2) := hown.words (k := 0) rfl
  have hsize : st₀.tables (.extBufSize d) = value (Tokens.token ',' line 5) := hown.words (k := 3) rfl
  refine ⟨fun w k' hw hne => hkept w fun hof => hne ?_, fun w hw => hsame w ?_, hsame _ ?_, fun s b => ?_⟩
  · have howner : owner w = some (.mbadrc d) := by
      cases w <;> first | exact hof.elim | exact congrArg (fun d => some (Record.mbadrc d)) hof
    exact Option.some.inj (hw.symm.trans howner)
  · rwa [tableWords, hbands, hsize] at hw
  · simp [mbadrcWords, flagWord]
  · rw [hkept (.enablePreprocMask s) fun hof => hof]
    simp [preprocBit]

/-- Of a line that is accepted, on cleared tables as well. -/
theorem check_leaves {line : List Char} {k : Record} (hrec : recordOf line = some k) {lib : EqLibrary} {t₀ t : Tables}
    {st₀ st : Parse} (h₀ : check_and_set_audpp_parameters lib line t₀ = .ok st₀)
    (h : check_and_set_audpp_parameters lib line t = .ok st) : Leaves k t st.tables st₀.tables := by
  rw [check_record hrec] at h h₀
  cases k with
  | iir d =>
    have hown : ∀ w ∈ {w | w ∈ (List.range 48).map (.iirParams d) ++ [.rxIirFlag d, .iirNumBands d]},
        Owned (.iir d) w :=
      List.forall_mem_append.mpr ⟨List.forall_mem_map.mpr fun _ _ => .inl rfl,
        List.forall_mem_cons.mpr ⟨.inl rfl, List.forall_mem_singleton.mpr (.inl rfl)⟩⟩
    exact (iirRecord_sets d).leaves rfl hown (by simp [tableWords]) (by simp [flagWord]) h₀ h
  | adrc d =>
    have hown : ∀ w ∈ {w | w ∈ .adrcFlag d :: (List.range 8).map (.adrcParams d)}, Owned (.adrc d) w :=
      List.forall_mem_cons.mpr ⟨.inl rfl, List.forall_mem_map.mpr fun _ _ => .inl rfl⟩
    exact (adrcRecord_sets d).leaves rfl hown (by simp [tableWords]) (by simp [flagWord]) h₀ h
  | eq d =>
    have hloaded : ∃ eq_cal, lib = .calccoefs eq_cal := by
      by_contra hno
      obtain ⟨e, he⟩ := eqRecord_fails (not_exists.mp hno) d ⟨line, t, [], []⟩
      cases he.symm.trans h
    obtain ⟨eq_cal, rfl⟩ := hloaded
    refine (eqRecord_sets eq_cal d).leaves (k := .eq d) rfl (fun w hw => ?_) (fun _ w hw => ?_) (.inl rfl) h₀ h
    · rcases hw with rfl | ((rfl | ⟨n, rfl⟩) | hw | ⟨n, rfl⟩)
      · exact .inl rfl
      · exact .inl rfl
      · exact .inl rfl
      · obtain ⟨i, -, hin⟩ := List.mem_flatMap.mp hw
        simp only [bandInput, List.mem_cons, List.not_mem_nil, or_false] at hin
        obtain rfl | rfl | rfl | rfl := hin <;> exact .inr ⟨rfl, nofun⟩
      · exact .inl rfl
    · simp only [tableWords, List.mem_cons, List.mem_map] at hw
      rcases hw with rfl | ⟨n, -, rfl⟩
      · exact .inr (.inl (.inl rfl))
      · exact .inr (.inl (.inr ⟨n, rfl⟩))
  | mbadrc d =>
    refine mbadrcRecord_leaves ?_ h₀ h
    unfold recordOf at hrec
    dsimp only at hrec
    split_ifs at hrec with _ _ _ hD <;> cases hrec
    exact deviceId_of_code (Bool.and_eq_true_iff.mp hD).2
  | txIir s =>
    have hown : ∀ w ∈ {w | w ∈ txIirWords s}, Owned (.txIir s) w :=
      List.forall_mem_append.mpr ⟨List.forall_mem_map.mpr fun _ _ => .inl rfl,
        List.forall_mem_cons.mpr ⟨.inl rfl, List.forall_mem_cons.mpr ⟨.inr ⟨rfl, nofun⟩,
          List.forall_mem_cons.mpr ⟨.inl rfl, List.forall_mem_singleton.mpr (.inl rfl)⟩⟩⟩⟩
    refine (txIirRecord_masks s).leaves (b := 2) rfl hown (fun _ w hw => ?_) (by simp [txIirWords, flagWord]) h₀ h
    simp only [tableWords, List.mem_append, List.mem_map, List.mem_range] at hw
    rcases hw with hw | ⟨i, hi, rfl⟩
    · simp only [List.mem_cons, List.not_mem_nil, or_false] at hw
      obtain rfl | rfl | rfl := hw <;> simp [txIirWords]
    · exact txIirParams_mem s hi
  | agc s =>
    have hown : ∀ w ∈ {w | w ∈ agcWords s}, Owned (.agc s) w := by
      simp only [Set.mem_ofPred_eq, agcWords, List.forall_mem_append, List.forall_mem_cons, List.forall_mem_map]
      exact ⟨⟨.inl rfl, .inl rfl, .inl rfl, .inl rfl, .inl rfl, nofun⟩, fun _ _ => .inl rfl, .inr ⟨rfl, nofun⟩, nofun⟩
    refine (agcRecord_masks s).leaves (b := 0) rfl hown (fun _ w hw => ?_) (by simp [agcWords, flagWord]) h₀ h
    rw [Set.mem_ofPred_eq, agcWords, ← List.append_assoc]
    exact List.mem_append_left _ hw
  | ns s =>
    have hown : ∀ w ∈ {w | w ∈ nsWords s}, Owned (.ns s) w := by
      simp only [Set.mem_ofPred_eq, nsWords, List.forall_mem_cons]
      exact ⟨.inl rfl, .inl rfl, .inl rfl, .inl rfl, .inl rfl, .inl rfl, .inl rfl, .inl rfl, .inr ⟨rfl, nofun⟩, nofun⟩
    refine (nsRecord_masks s).leaves (b := 1) rfl hown (fun _ w hw => ?_) (by simp [nsWords, flagWord]) h₀ h
    exact List.mem_append_left [.nsFlag 0] hw

/-! ## The flags of the pre-processing records -/

/-- The place of the flag among the tokens of a pre-processing record. -/
def flagToken : Record → Nat
  | .txIir _ => 51
  | .agc _ => 25
  | .ns _ => 9
  | _ => 0

def flag (k : Record) (line : List Char) : Nat := value (Tokens.token ',' line (flagToken k))

/-- The tokens that are left are those of the line from some place on. -/
theorem toks_token {st : Parse} {line : List Char} {n : Nat} (h : toks st = (Tokens.tokens ',' line).drop n) (i : Nat) :
    (toks st).getD i [] = Tokens.token ',' line (n + i) := by
  rw [h, List.getD_eq_getElem?_getD, List.getElem?_drop, ← List.getD_eq_getElem?_getD]
  rfl

section
variable {s : Int} {line : List Char} {t : Tables} {st : Parse}

theorem txIir_flag (h : txIirRecord s ⟨line, t, [], []⟩ = .ok st) :
    st.tables (.txiirFlag 0) = value (Tokens.token ',' line 51) := by
  obtain ⟨st₁, h₁, h⟩ := bind_ok h
  obtain ⟨st₂, h₂, h⟩ := bind_ok h
  obtain ⟨st₃, h₃, h⟩ := bind_ok h
  obtain ⟨st₄, h₄, h⟩ := bind_ok h
  obtain ⟨st₅, h₅, h⟩ := bind_ok h
  obtain rfl := Except.ok.inj h
  have htoks : toks st₃ = (Tokens.tokens ',' line).drop 50 := by
    rw [((reads_loop 48 _).ok h₃).2, skip_toks h₂, skip_toks h₁, List.drop_drop, List.drop_drop]
    rfl
  rw [enableFeature_keeps (by simp), (sets_clearWord _).frame h₅ _ (by simp), readWords_read (by simp) h₄ (i := 1) rfl,
    toks_token htoks]

theorem agc_flag (h : agcRecord s ⟨line, t, [], []⟩ = .ok st) :
    st.tables (.agcFlag 0) = value (Tokens.token ',' line 25) := by
  obtain ⟨st₁, h₁, h⟩ := bind_ok h
  obtain ⟨st₂, h₂, h⟩ := bind_ok h
  obtain ⟨st₃, h₃, h⟩ := bind_ok h
  obtain ⟨st₄, h₄, h⟩ := bind_ok h
  obtain rfl := Except.ok.inj h
  have htoks : toks st₃ = (Tokens.tokens ',' line).drop 25 := by
    rw [((reads_loop 19 _).ok h₃).2, ((reads_readWords _).ok h₂).2, skip_toks h₁, List.drop_drop, List.drop_drop]
    rfl
  rw [readWord_eq] at h₄
  rw [enableFeature_keeps (by simp), readWords_read (by simp) h₄ (i := 0) rfl, toks_token htoks]

theorem ns_flag (h : nsRecord s ⟨line, t, [], []⟩ = .ok st) :
    st.tables (.nsFlag 0) = value (Tokens.token ',' line 9) := by
  obtain ⟨st₁, h₁, h⟩ := bind_ok h
  obtain ⟨st₂, h₂, h⟩ := bind_ok h
  obtain rfl := Except.ok.inj h
  have htoks : toks st₁ = (Tokens.tokens ',' line).drop 1 := skip_toks h₁
  rw [enableFeature_keeps (by simp), readWords_read (by simp) h₂ (i := 8) rfl, toks_token htoks]

/-- The flag of a pre-processing record is read from its token. -/
theorem preproc_flag {k : Record} {x : Int × Nat} (hrec : recordOf line = some k) (hbit : preprocBit k = some x)
    {lib : EqLibrary} (h : check_and_set_audpp_parameters lib line t = .ok st) :
    st.tables (flagWord k) = flag k line := by
  rw [check_record hrec] at h
  cases k with
  | txIir s => exact txIir_flag h
  | agc s => exact agc_flag h
  | ns s => exact ns_flag h
  | iir | adrc | eq | mbadrc => cases hbit

end

/-! ## The file -/

/-- What a line leaves of cleared tables. -/
def alone (lib : EqLibrary) (line : List Char) : Tables :=
  (reached (check_and_set_audpp_parameters lib line fun _ => 0)).tables

/-- Table and enabling state of a kind are those of one record. -/
structure TableFrom (k : Record) (t own : Tables) : Prop where
  table : ∀ w ∈ tableWords k own, t w = own w
  enabling : enabling k t = enabling k own

/-- A record with none of its kind behind it. -/
structure IsLast (k : Record) (line : List Char) (post : List (List Char)) : Prop where
  record : recordOf line = some k
  last : ∀ l ∈ post, recordOf l ≠ some k

/-- The last record of each kind in the file has been passed to the parser, with none of its kind behind
it, and its table and its enabling state are those in force. -/
def FromLast (lib : Nat → EqLibrary) (behind content : List Char) : Prop :=
  ∀ k pre line post, textLines content = pre ++ line :: post → IsLast k line post →
    (∃ post', (loadFile lib behind content).1.passed = pre ++ line :: post' ∧ IsLast k line post') ∧
      TableFrom k (loadFile lib behind content).1.tables (alone (lib pre.length) line)

/-- The last record of each kind in the file is a line in memory as well, and last of its kind there. -/
def LastInMemory (behind content : List Char) : Prop :=
  ∀ k pre line post, textLines content = pre ++ line :: post → IsLast k line post →
    ∃ post', fileLines (memory behind content) = pre ++ line :: post' ∧ IsLast k line post'

/-- A pre-processing record whose flag is 0, last of its kind, comes after records of its kind that have
flag 0 as well. -/
def NeverDisabled (lines : List (List Char)) : Prop :=
  ∀ k pre line post, lines = pre ++ line :: post → IsLast k line post → preprocBit k ≠ none → flag k line = 0 →
    ∀ l ∈ pre, recordOf l = some k → flag k l = 0

section
variable {lib : Nat → EqLibrary} {n : Nat} {line : List Char} {lines : List (List Char)} {f : Loaded} {k : Record}

/-- The first line of a file that is accepted. -/
theorem parseLines_first (h : (parseLines lib n (line :: lines) f).accepted = true) : ∃ st st₀,
    check_and_set_audpp_parameters (lib n) line f.tables = .ok st ∧
      check_and_set_audpp_parameters (lib n) line (fun _ => 0) = .ok st₀ ∧
      alone (lib n) line = st₀.tables ∧
      parseLines lib n (line :: lines) f = parseLines lib (n + 1) lines ⟨st.tables, st.touched ++ f.touched, f.accepted⟩ := by
  rw [parseLines] at h ⊢
  cases hc : check_and_set_audpp_parameters (lib n) line f.tables with
  | error e =>
    rw [hc] at h
    cases h
  | ok st =>
    obtain ⟨st₀, h₀⟩ := accepts_of_ok hc fun _ => 0
    refine ⟨st, st₀, rfl, h₀, ?_, rfl⟩
    rw [alone, h₀]
    rfl

/-- Records of other kinds keep a table and its flag. -/
theorem parseLines_kept (h : (parseLines lib n lines f).accepted = true) (hno : ∀ l ∈ lines, recordOf l ≠ some k)
    {w : Word} (hw : owner w = some k) : (parseLines lib n lines f).tables w = f.tables w := by
  induction lines generalizing n f with
  | nil => rfl
  | cons line lines ih =>
    obtain ⟨st, st₀, hok, h₀, -, hrest⟩ := parseLines_first h
    obtain ⟨hline, hlines⟩ := List.forall_mem_cons.mp hno
    rw [hrest] at h ⊢
    rw [ih h hlines]
    cases hrec : recordOf line with
    | none => exact congrFun (check_plain hrec hok) w
    | some k' => exact (check_leaves hrec h₀ hok).kept w k hw fun he => hline (he ▸ hrec)

/-- The last record of a kind leaves its table. -/
theorem parseLines_last {pre post : List (List Char)} (hlast : IsLast k line post)
    (h : (parseLines lib n (pre ++ line :: post) f).accepted = true) :
    (∀ w ∈ tableWords k (alone (lib (n + pre.length)) line),
      (parseLines lib n (pre ++ line :: post) f).tables w = alone (lib (n + pre.length)) line w) ∧
    (preprocBit k = none → (parseLines lib n (pre ++ line :: post) f).tables (flagWord k) =
      alone (lib (n + pre.length)) line (flagWord k)) := by
  induction pre generalizing n f with
  | nil =>
    rw [List.nil_append] at h ⊢
    rw [List.length_nil, Nat.add_zero]
    obtain ⟨st, st₀, hok, h₀, halone, hrest⟩ := parseLines_first h
    have hleaves := check_leaves hlast.record h₀ hok
    rw [hrest] at h ⊢
    rw [halone]
    refine ⟨fun w hw => ?_, fun hbit => ?_⟩
    · exact (parseLines_kept h hlast.last (owner_tableWords k _ w hw)).trans (hleaves.table w hw)
    · exact (parseLines_kept h hlast.last (owner_flagWord hbit)).trans hleaves.flag
  | cons first pre ih =>
    rw [List.cons_append] at h ⊢
    obtain ⟨st, st₀, -, -, -, hrest⟩ := parseLines_first h
    rw [hrest] at h ⊢
    rw [List.length_cons, Nat.add_comm pre.length, ← Nat.add_assoc]
    exact ih h

/-- A bit of a mask is set as soon as one record of its kind sets it. -/
theorem parseLines_mask {s : Int} {b : Nat} (hbit : preprocBit k = some (s, b))
    (h : (parseLines lib n lines f).accepted = true) :
    ((parseLines lib n lines f).tables (.enablePreprocMask s)).testBit b = true ↔
      (f.tables (.enablePreprocMask s)).testBit b = true ∨ ∃ l ∈ lines, recordOf l = some k ∧ flag k l ≠ 0 := by
  induction lines generalizing n f with
  | nil => simp [parseLines]
  | cons line lines ih =>
    obtain ⟨st, st₀, hok, h₀, -, hrest⟩ := parseLines_first h
    rw [hrest] at h ⊢
    have hstep : (st.tables (.enablePreprocMask s)).testBit b = true ↔
        (f.tables (.enablePreprocMask s)).testBit b = true ∨ recordOf line = some k ∧ flag k line ≠ 0 := by
      cases hrec : recordOf line with
      | none => simp [check_plain hrec hok]
      | some k' =>
        rw [(check_leaves hrec h₀ hok).masks, Bool.or_eq_true, Bool.and_eq_true, decide_eq_true_eq, decide_eq_true_eq,
          Option.some.injEq]
        refine or_congr_right ?_
        constructor
        · rintro ⟨hk, hset⟩
          obtain rfl := preprocBit_inj hk hbit
          rw [preproc_flag hrec hbit h₀] at hset
          exact ⟨rfl, hset⟩
        · rintro ⟨rfl, hset⟩
          rw [preproc_flag hrec hbit h₀]
          exact ⟨hbit, hset⟩
    rw [ih h, hstep, or_assoc]
    refine or_congr_right ?_
    simp only [List.exists_mem_cons_iff]

/-- What the last pre-processing record of a kind says, and what is in force. -/
theorem last_enabling {pre post : List (List Char)} {x : Int × Nat} (hlast : IsLast k line post)
    (hbit : preprocBit k = some x) (hf : f.accepted = true) (hcleared : f.tables = fun _ => 0)
    (h : (parseLines lib n (pre ++ line :: post) f).accepted = true) :
    enabling k (parseLines lib n (pre ++ line :: post) f).tables = enabling k (alone (lib (n + pre.length)) line) ↔
      (flag k line = 0 → ∀ l ∈ pre, recordOf l = some k → flag k l = 0) := by
  obtain ⟨s, b⟩ := x
  have haccepts : Accepts (lib (n + pre.length)) line := (accepts_or_rejects _ _).resolve_right fun hrej =>
    (parseLines_accepted lib n _ hf).mp h ⟨pre, line, post, rfl, hrej⟩
  obtain ⟨st₀, h₀⟩ := haccepts fun _ => 0
  have hown : ((alone (lib (n + pre.length)) line) (.enablePreprocMask s)).testBit b = decide (flag k line ≠ 0) := by
    rw [alone, h₀, reached, (check_leaves hlast.record h₀ h₀).masks, preproc_flag hlast.record hbit h₀]
    simp [hbit]
  have hfinal := parseLines_mask hbit h
  rw [hcleared, Nat.zero_testBit] at hfinal
  simp only [Bool.false_eq_true, false_or, List.mem_append, List.mem_cons] at hfinal
  unfold enabling
  rw [hbit]
  dsimp only
  have hbits : ∀ a b : Bool, a.toNat = b.toNat ↔ (a = true ↔ b = true) := by decide
  rw [hbits, hown, hfinal, decide_eq_true_eq]
  constructor
  · intro hsame hzero l hl hrec
    by_contra hset
    exact hsame.mp ⟨l, .inl hl, hrec, hset⟩ hzero
  · intro hnever
    refine ⟨?_, fun hset => ⟨line, .inr (.inl rfl), hlast.record, hset⟩⟩
    rintro ⟨l, hl | rfl | hl, hrec, hset⟩ hzero
    · exact hset (hnever hzero l hl hrec)
    · exact hset hzero
    · exact hlast.last l hl hrec

end

/-- A last record of the lines in memory decides, unless it says 0 behind a record that enables. -/
theorem tableFrom_iff {lib : Nat → EqLibrary} {behind content : List Char} {k : Record} {pre post : List (List Char)}
    {line : List Char} (hlines : fileLines (memory behind content) = pre ++ line :: post) (hlast : IsLast k line post)
    (h : (scanned lib behind content).accepted = true) :
    TableFrom k (scanned lib behind content).tables (alone (lib pre.length) line) ↔
      (preprocBit k ≠ none → flag k line = 0 → ∀ l ∈ pre, recordOf l = some k → flag k l = 0) := by
  unfold scanned at h ⊢
  rw [hlines] at h ⊢
  obtain ⟨htable, hflag⟩ := parseLines_last hlast h
  rw [Nat.zero_add] at htable hflag
  cases hbit : preprocBit k with
  | none =>
    refine iff_of_true ⟨htable, ?_⟩ fun hne => absurd rfl hne
    unfold enabling
    rw [hbit]
    exact hflag hbit
  | some x =>
    have henabling := last_enabling hlast hbit rfl rfl h
    rw [Nat.zero_add] at henabling
    exact ⟨fun ht _ => henabling.mp ht.enabling, fun hn => ⟨htable, henabling.mpr (hn (Option.some_ne_none x))⟩⟩

/-- In a file that is accepted the last record of each kind is in force exactly when the loop finds it as it
stands, and none of its kind behind it, and no pre-processing record is disabled after it was enabled. -/
theorem from_last_iff (lib : Nat → EqLibrary) (behind content : List Char)
    (h : (loadFile lib behind content).2 = some (.returned 0)) :
    FromLast lib behind content ↔ LastInMemory behind content ∧ NeverDisabled (textLines content) := by
  have hne : content ≠ [] := by
    rintro rfl
    exact absurd h (by rw [loadFile, if_pos rfl]; decide)
  have hparses := loadFile_parses lib behind hne
  have hacc := (hparses.zero.mp h).1
  have hpassed : (loadFile lib behind content).1.passed = fileLines (memory behind content) := hparses.passed hacc
  unfold FromLast
  rw [hpassed, hparses.tables]
  constructor
  · intro hfrom
    refine ⟨fun k pre line post htext hlast => (hfrom k pre line post htext hlast).1, ?_⟩
    intro k pre line post htext hlast
    obtain ⟨⟨post', hlines, hlast'⟩, htable⟩ := hfrom k pre line post htext hlast
    exact (tableFrom_iff hlines hlast' hacc).mp htable
  · rintro ⟨hmemory, hnever⟩ k pre line post htext hlast
    obtain ⟨post', hlines, hlast'⟩ := hmemory k pre line post htext hlast
    exact ⟨⟨post', hlines, hlast'⟩, (tableFrom_iff hlines hlast' hacc).mpr (hnever k pre line post htext hlast)⟩

theorem exists_last {k : Record} {lines : List (List Char)} (h : ∃ l ∈ lines, recordOf l = some k) :
    ∃ pre line post, lines = pre ++ line :: post ∧ IsLast k line post := by
  induction lines with
  | nil =>
    obtain ⟨l, hl, -⟩ := h
    cases hl
  | cons first lines ih =>
    by_cases hlater : ∃ l ∈ lines, recordOf l = some k
    · obtain ⟨pre, line, post, rfl, hlast⟩ := ih hlater
      exact ⟨first :: pre, line, post, rfl, hlast⟩
    · obtain ⟨l, hl, hrec⟩ := h
      rcases List.mem_cons.mp hl with rfl | hl
      · exact ⟨[], l, lines, rfl, hrec, fun l' hl' hrec' => hlater ⟨l', hl', hrec'⟩⟩
      · exact absurd ⟨l, hl, hrec⟩ hlater

/-- A file that does not fill its last page: no record stands behind its last newline, or from the line of
a NUL on. -/
theorem lastInMemory_iff {behind content tail : List Char} (hnul : padding content ++ behind = '\x00' :: tail) :
    LastInMemory behind content ↔ ∀ l ∈ (textLines content).drop (fileLines content).length, recordOf l = none := by
  obtain ⟨dropped, htext⟩ := textLines_eq content
  have hmemory : fileLines (memory behind content) = fileLines content := by
    rw [memory, hnul, fileLines_nul_behind]
  rw [htext, List.drop_left]
  unfold LastInMemory
  rw [hmemory, htext]
  constructor
  · intro hlasts l hl
    by_contra hrec
    obtain ⟨k, hk⟩ := Option.ne_none_iff_exists'.mp hrec
    obtain ⟨pre, line, post, rfl, hlast⟩ := exists_last ⟨l, hl, hk⟩
    obtain ⟨post', hlines, -⟩ := hlasts k (fileLines content ++ pre) line post (List.append_assoc ..).symm hlast
    have hlength := congrArg List.length hlines
    simp only [List.length_append, List.length_cons] at hlength
    omega
  · intro hdropped k pre line post he hlast
    rcases List.append_eq_append_iff.mp he with ⟨mid, hpre, hrest⟩ | ⟨mid, hlines, hrest⟩
    · have hnone := hdropped line (by rw [hrest]; exact List.mem_append_right _ List.mem_cons_self)
      rw [hlast.record] at hnone
      cases hnone
    · cases mid with
      | nil =>
        have hnone := hdropped line (by rw [← List.nil_append dropped, ← hrest]; exact List.mem_cons_self)
        rw [hlast.record] at hnone
        cases hnone
      | cons first mid =>
        obtain ⟨rfl, rfl⟩ := List.cons.inj hrest
        exact ⟨mid, hlines, hlast.record, fun l hl => hlast.last l (List.mem_append_left _ hl)⟩

/-- Two NS records for 8000 Hz: the first enables, the second disables. -/
def nsTwice : List Char := "G1,0,0,0,0,0,0,0,0,1\nG1,0,0,0,0,0,0,0,0,0\n".toList

theorem nsTwice_accepted : (loadFile (fun _ => .openFailure) [] nsTwice).2 = some (.returned 0) := by
  decide +kernel

/-- The second record is last and leaves the bit of the first. -/
theorem disabled_bit_kept : ¬ ((loadFile (fun _ => .openFailure) [] nsTwice).2 = some (.returned 0) →
    FromLast (fun _ => .openFailure) [] nsTwice) := by
  intro h
  have hlast : IsLast (.ns 0) "G1,0,0,0,0,0,0,0,0,0".toList [] := ⟨by decide +kernel, nofun⟩
  have htable := (h nsTwice_accepted (.ns 0) ["G1,0,0,0,0,0,0,0,0,1".toList] _ [] (by decide +kernel) hlast).2
  exact absurd htable.enabling (by decide +kernel)

/-- One NS record is in force. -/
theorem from_last_ns_once : FromLast (fun _ => .openFailure) [] "G1,0,0,0,0,0,0,0,0,1\n".toList := by
  have hpadding : padding "G1,0,0,0,0,0,0,0,0,1\n".toList ++ [] = '\x00' :: List.replicate 4074 '\x00' := by
    decide +kernel
  refine (from_last_iff _ _ _ (by decide +kernel)).mpr ⟨(lastInMemory_iff hpadding).mpr (by decide +kernel), ?_⟩
  intro k pre line post htext hlast hbit hzero l hl
  have hone : textLines "G1,0,0,0,0,0,0,0,0,1\n".toList = ["G1,0,0,0,0,0,0,0,0,1".toList] := by decide +kernel
  rw [hone] at htext
  cases pre with
  | nil => cases hl
  | cons first pre => simp at htext

end AudioFilterLast
