import Y210.AudioFilterColumns

/-!
# The tables that a filter file leaves

Every subscript of the parser stays in its array, for any line. The words of an MB_ADRC table
whose flag is set are those of one line.
-/
namespace AudioFilterTables

open AudioDrivers AudioHardware AudioStreams AudioFilter AudioFilterRecords AudioFilterColumns
open Tokens (tokens token)

/-! ## Subscripts -/

def DeviceId (d : Int) : Prop := 0 ≤ d ∧ d < 3

def SampleIndex (i : Int) : Prop := 0 ≤ i ∧ i < 9

/-- The subscripts of a word lie in their arrays. -/
def InBounds : Word → Prop
  | .iirParams d i => DeviceId d ∧ i < 48
  | .adrcParams d i => DeviceId d ∧ i < 8
  | .eqGain i | .eqFreq i | .eqType i | .eqQf i => i < 12
  | .eqParams d i => DeviceId d ∧ i < 132
  | .adrcBand d i j => DeviceId d ∧ i < 5 ∧ j < 10
  | .extBuf d i => DeviceId d ∧ i < 196
  | .rxIirFlag d | .iirNumBands d | .adrcFlag d | .eqFlag d | .eqBands d | .mbNumBands d | .downSampLevel d
  | .adrcDelay d | .extBufSize d | .extPartition d | .extBufMsw d | .extBufLsw d | .mbadrcFlag d | .txiirFlag d
  | .agcFlag d | .nsFlag d => DeviceId d
  | .txIirParams i j => SampleIndex i ∧ j < 48
  | .agcParams i j => SampleIndex i ∧ j < 19
  | .txIirActiveFlag i | .txIirNumBands i | .txIirCmdId i | .agcCmdId i | .txAgcParamMask i | .txAgcEnableFlag i
  | .staticGain i | .adaptiveGainFlag i | .nsCmdId i | .ecModeNew i | .densGammaN i | .densNfeBlockSize i
  | .densLimitNs i | .densLimitNsD i | .wbGammaE i | .wbGammaN i | .enablePreprocMask i => SampleIndex i

/-- The words of the MB_ADRC table of a device. -/
def OfMbadrc (device_id : Int) : Word → Prop
  | .mbNumBands d | .downSampLevel d | .adrcDelay d | .extBufSize d | .extPartition d | .extBufMsw d
  | .extBufLsw d | .adrcBand d _ _ | .extBuf d _ | .mbadrcFlag d => d = device_id
  | _ => False

/-! ## What a record writes -/

/-- Only words in their arrays were accessed, and the words of `K` were kept. -/
structure Changes (K : Word → Prop) (st st' : Parse) : Prop where
  touched : ∀ w ∈ st'.touched, w ∈ st.touched ∨ InBounds w
  kept : ∀ w, K w → st'.tables w = st.tables w

/-- With `P` of the tables before it, `f` writes in bounds and outside of `K`; if it accepts, `Q`
holds of the tables after it. -/
structure Writes (K : Word → Prop) (P : Tables → Prop) (f : Parse → Result) (Q : Tables → Prop) : Prop where
  ok : ∀ {st st'}, P st.tables → f st = .ok st' → Changes K st st' ∧ Q st'.tables
  error : ∀ {st e}, P st.tables → f st = .error e → Changes K st e.1

/-- What has been parsed, also of a record that is rejected. -/
def reached : Result → Parse
  | .ok st => st
  | .error e => e.1

/-- A word that may be written. -/
def Fits (K : Word → Prop) (w : Word) : Prop := InBounds w ∧ ¬ K w

section
variable {K : Word → Prop} {P Q R : Tables → Prop} {f g : Parse → Result}

theorem Changes.refl (st : Parse) : Changes K st st := ⟨fun _ hw => .inl hw, fun _ _ => rfl⟩

theorem Changes.trans {a b c : Parse} (h₁ : Changes K a b) (h₂ : Changes K b c) : Changes K a c := by
  constructor
  · intro w hw
    rcases h₂.touched w hw with hb | hin
    · exact h₁.touched w hb
    · exact .inr hin
  · intro w hw
    rw [h₂.kept w hw, h₁.kept w hw]

theorem Writes.bind (hf : Writes K P f Q) (hg : Writes K Q g R) : Writes K P (fun st => f st >>= g) R := by
  constructor
  · intro st st' hP h
    cases h₁ : f st with
    | error e =>
      rw [h₁] at h
      cases h
    | ok st₁ =>
      rw [h₁] at h
      obtain ⟨hfirst, hQ⟩ := hf.ok hP h₁
      obtain ⟨hsecond, hR⟩ := hg.ok hQ h
      exact ⟨hfirst.trans hsecond, hR⟩
  · intro st e hP h
    cases h₁ : f st with
    | error e₁ =>
      rw [h₁] at h
      obtain rfl := Except.error.inj h
      exact hf.error hP h₁
    | ok st₁ =>
      rw [h₁] at h
      obtain ⟨hfirst, hQ⟩ := hf.ok hP h₁
      exact hfirst.trans (hg.error hQ h)

theorem Writes.mono (hf : Writes K P f Q) {P' Q' : Tables → Prop} (hP : ∀ t, P' t → P t)
    (hQ : ∀ t, Q t → Q' t) : Writes K P' f Q' := by
  constructor
  · intro st st' h hok
    obtain ⟨hchanges, hq⟩ := hf.ok (hP _ h) hok
    exact ⟨hchanges, hQ _ hq⟩
  · intro st e h herr
    exact hf.error (hP _ h) herr

theorem Writes.reached (hf : Writes K P f Q) {st : Parse} (hP : P st.tables) : Changes K st (reached (f st)) := by
  cases h : f st with
  | ok st' => exact (hf.ok hP h).1
  | error e => exact hf.error hP h

theorem writes_ok {k : Parse → Parse} (hk : ∀ st, Changes K st (k st)) :
    Writes K P (fun st => .ok (k st)) fun _ => True := by
  constructor
  · intro st st' _ h
    obtain rfl := Except.ok.inj h
    exact ⟨hk st, trivial⟩
  · intro st e _ h
    cases h

theorem writes_error {code : Status} : Writes K P (fun st => .error (st, code)) Q := by
  constructor
  · intro st st' _ h
    cases h
  · intro st e _ h
    obtain rfl := Except.error.inj h
    exact .refl st

/-- One token, from which `k` makes a state. -/
theorem writes_token {k : List Char → Parse → Parse} (hk : ∀ t st, Changes K st (k t st))
    (hQ : ∀ t st, P st.tables → Q (k t st).tables) :
    Writes K P (fun st => match Tokens.strtok ',' st.rest with
      | none => .error (st, einval)
      | some (t, rest) => .ok (k t { st with rest := rest })) Q := by
  constructor
  · intro st st' hP h
    cases hs : Tokens.strtok ',' st.rest with
    | none =>
      simp only [hs] at h
      cases h
    | some r =>
      simp only [hs] at h
      obtain rfl := Except.ok.inj h
      have hchanges := hk r.1 { st with rest := r.2 }
      exact ⟨⟨hchanges.touched, hchanges.kept⟩, hQ _ _ hP⟩
  · intro st e _ h
    cases hs : Tokens.strtok ',' st.rest with
    | none =>
      simp only [hs] at h
      obtain rfl := Except.error.inj h
      exact .refl st
    | some r =>
      simp only [hs] at h
      cases h

theorem writes_skip : Writes K P skip P :=
  writes_token (k := fun _ st => st) (fun _ st => .refl st) fun _ _ hP => hP

theorem put_changes {w : Word} (hw : Fits K w) (v : Nat) (st : Parse) : Changes K st (put w v st) := by
  constructor
  · intro x hx
    rcases List.mem_cons.mp hx with rfl | hx
    · exact .inr hw.1
    · exact .inl hx
  · intro x hx
    refine Function.update_of_ne ?_ ..
    rintro rfl
    exact hw.2 hx

theorem writes_readWord {w : Word} (hw : Fits K w) : Writes K (fun _ => True) (readWord w) fun _ => True := by
  refine writes_token (k := fun t st => put w (value t) { st with stored := st.stored ++ [value t] })
    (fun t st => ?_) fun _ _ _ => trivial
  have hput := put_changes hw (value t) { st with stored := st.stored ++ [value t] }
  exact ⟨hput.touched, hput.kept⟩

/-- Words that are read, whatever the tables are. -/
theorem writes_readWords {ws : List Word} (hws : ∀ w ∈ ws, Fits K w) :
    Writes K (fun _ => True) (readWords ws) fun _ => True := by
  induction ws with
  | nil => exact writes_ok fun st => .refl st
  | cons w ws ih =>
    have hrest := ih fun x hx => hws x (List.mem_cons_of_mem w hx)
    exact (writes_readWord (hws w List.mem_cons_self)).bind hrest

/-- Words that the tables tell; what depends on other words only survives. -/
theorem writes_told (ws : Tables → List Word) (hws : ∀ t, P t → ∀ w ∈ ws t, Fits K w)
    (hP : ∀ t t' : Tables, P t → (∀ w ∉ ws t, t' w = t w) → P t') :
    Writes K P (fun st => readWords (ws st.tables) st) P := by
  constructor
  · intro st st' hPst h
    have hkeep := hP st.tables st'.tables hPst fun w hw => readWords_keeps h hw
    exact ⟨((writes_readWords (hws _ hPst)).ok trivial h).1, hkeep⟩
  · intro st e hPst h
    exact (writes_readWords (hws _ hPst)).error trivial h

/-- A check of the tables. -/
theorem writes_guard {c : Tables → Prop} [∀ t, Decidable (c t)] (hf : Writes K R f Q)
    (hR : ∀ t, P t → ¬ c t → R t) :
    Writes K P (fun st => if c st.tables then .error (st, einval) else f st) Q := by
  constructor
  · intro st st' hP h
    by_cases hc : c st.tables
    · rw [if_pos hc] at h
      cases h
    · rw [if_neg hc] at h
      exact hf.ok (hR _ hP hc) h
  · intro st e hP h
    by_cases hc : c st.tables
    · rw [if_pos hc] at h
      obtain rfl := Except.error.inj h
      exact .refl st
    · rw [if_neg hc] at h
      exact hf.error (hR _ hP hc) h

theorem putAll_changes {stores : List (Word × Nat)} (h : ∀ s ∈ stores, Fits K s.1) (st : Parse) :
    Changes K st (putAll stores st) := by
  induction stores generalizing st with
  | nil => exact .refl st
  | cons s stores ih =>
    have hfirst := put_changes (h s List.mem_cons_self) s.2 st
    exact hfirst.trans (ih (fun x hx => h x (List.mem_cons_of_mem s hx)) _)

theorem clearWord_writes {w : Word} (hw : Fits K w) :
    Writes K (fun _ => True) (clearWord w) fun _ => True := by
  refine writes_skip.bind (writes_ok fun st => ?_)
  have hput := put_changes hw 0 { st with stored := st.stored ++ [0] }
  exact ⟨hput.touched, hput.kept⟩

theorem writes_described (hf : Writes K P f Q) :
    Writes K P (fun st => skip st >>= fun st => skip st >>= f) Q :=
  writes_skip.bind (writes_skip.bind hf)

end

/-! ## The records -/

section
variable {K : Word → Prop} (hK : ∀ w, K w → ∃ d, OfMbadrc d w)
include hK

theorem fits (ws : List Word) (hin : ∀ w ∈ ws, InBounds w) (hnot : ∀ w ∈ ws, ∀ d, ¬ OfMbadrc d w) :
    ∀ w ∈ ws, Fits K w := by
  intro w hw
  refine ⟨hin w hw, fun h => ?_⟩
  obtain ⟨d, hd⟩ := hK w h
  exact hnot w hw d hd

theorem fits_one (w : Word) (hin : InBounds w) (hnot : ∀ d, ¬ OfMbadrc d w) : Fits K w :=
  fits hK [w] (fun _ hx => by rwa [List.mem_singleton.mp hx]) (fun _ hx => by rwa [List.mem_singleton.mp hx]) w
    List.mem_cons_self

theorem iirRecord_writes {d : Int} (hd : DeviceId d) :
    Writes K (fun _ => True) (iirRecord d) fun _ => True := by
  have hparams := writes_readWords (fits hK ((List.range 48).map (.iirParams d))
    (by simp [InBounds, hd]) (by simp [OfMbadrc]))
  have hflags := writes_readWords (fits hK [.rxIirFlag d, .iirNumBands d]
    (by simp [InBounds, hd]) (by simp [OfMbadrc]))
  exact writes_described (hparams.bind hflags)

theorem adrcRecord_writes {d : Int} (hd : DeviceId d) :
    Writes K (fun _ => True) (adrcRecord d) fun _ => True := by
  have hparams := writes_readWords (fits hK (.adrcFlag d :: (List.range 8).map (.adrcParams d))
    (by simp [InBounds, hd]) (by simp [OfMbadrc]))
  exact writes_described hparams

theorem bandStores_fit {d : Int} (hd : DeviceId d) {i : Nat} (hi : i < 8) (c : EqCoefs) :
    ∀ s ∈ bandStores d i c, Fits K s.1 := by
  have hparam : ∀ k < 132, Fits K (.eqParams d k) := by
    intro k hk
    refine ⟨⟨hd, hk⟩, fun h => ?_⟩
    obtain ⟨d', hd'⟩ := hK _ h
    exact hd'
  intro s hs
  simp only [bandStores, List.mem_append, List.mem_map, List.mem_singleton] at hs
  obtain (⟨j, -, rfl⟩ | ⟨j, -, rfl⟩) | rfl := hs
  · exact hparam _ (by omega)
  · exact hparam _ (by omega)
  · exact hparam _ (by omega)

theorem eqBand_writes (eq_cal : Nat → Nat → Nat → Nat → EqCoefs) {d : Int} (hd : DeviceId d) {i : Nat} (hi : i < 8) :
    Writes K (fun _ => True) (eqBand eq_cal d i) fun _ => True := by
  have hreads := writes_readWords (fits hK [.eqGain i, .eqFreq i, .eqType i, .eqQf i]
    (by simp [InBounds]; omega) (by simp [OfMbadrc]))
  exact hreads.bind (writes_ok fun st => putAll_changes (bandStores_fit hK hd hi _) st)

theorem eqBands_writes (eq_cal : Nat → Nat → Nat → Nat → EqCoefs) {d : Int} (hd : DeviceId d) (bands : List Nat)
    (hb : ∀ i ∈ bands, i < 8) :
    Writes K (fun _ => True) (fun st => bands.foldlM (fun st i => eqBand eq_cal d i st) st) fun _ => True := by
  induction bands with
  | nil => exact writes_ok fun st => .refl st
  | cons i bands ih =>
    have hrest := ih fun j hj => hb j (List.mem_cons_of_mem i hj)
    exact (eqBand_writes hK eq_cal hd (hb i List.mem_cons_self)).bind hrest

theorem clearEqualizer_changes {d : Int} (hd : DeviceId d) (st : Parse) :
    Changes K st (put (.eqBands d) 8 { st with tables := clearEqualizer d st.tables }) := by
  have hfits := fits_one hK (.eqBands d) hd (by simp [OfMbadrc])
  have hput := put_changes hfits 8 { st with tables := clearEqualizer d st.tables }
  refine ⟨hput.touched, fun w hw => (hput.kept w hw).trans ?_⟩
  obtain ⟨d', hd'⟩ := hK w hw
  cases w with
  | eqBands | eqParams => exact hd'.elim
  | _ => rfl

theorem eqRecord_writes (lib : EqLibrary) {d : Int} (hd : DeviceId d) :
    Writes K (fun _ => True) (eqRecord lib d) fun _ => True := by
  have hflag := writes_readWord (fits_one hK (.eqFlag d) hd (by simp [OfMbadrc]))
  refine writes_described (hflag.bind ?_)
  cases lib with
  | openFailure => exact writes_error
  | noSymbol => exact writes_error
  | calccoefs eq_cal =>
    have hbands := eqBands_writes hK eq_cal hd (List.range 8) fun i hi => List.mem_range.mp hi
    exact (writes_ok (P := fun _ => True) fun st => clearEqualizer_changes hK hd st).bind hbands

theorem enableFeature_changes {flag : Word} (bit : Nat) {s : Int} (hs : SampleIndex s) (st : Parse) :
    Changes K st (enableFeature flag bit s st) := by
  have hfits := fits_one hK (.enablePreprocMask s) hs (by simp [OfMbadrc])
  unfold enableFeature
  split
  · exact put_changes hfits _ st
  · exact .refl st

theorem txIirRecord_writes {s : Int} (hs : SampleIndex s) :
    Writes K (fun _ => True) (txIirRecord s) fun _ => True := by
  have hdevice : DeviceId 0 := ⟨le_rfl, by decide⟩
  have hparams := writes_readWords (fits hK ((List.range 48).map fun i =>
    .txIirParams s (if 40 ≤ i then i else if i % 2 ≠ 0 then i - 1 else i + 1))
    (by
      simp only [List.forall_mem_map, List.mem_range]
      intro i hi
      refine ⟨hs, ?_⟩
      split_ifs <;> omega)
    (by simp [OfMbadrc]))
  have hflags := writes_readWords (fits hK [.txIirActiveFlag s, .txiirFlag 0, .txIirNumBands s]
    (by simp [InBounds, hs, hdevice]) (by simp [OfMbadrc]))
  have hclear := clearWord_writes (fits_one hK (.txIirCmdId s) hs (by simp [OfMbadrc]))
  exact writes_described (hparams.bind (hflags.bind (hclear.bind
    (writes_ok fun st => enableFeature_changes hK 4 hs st))))

theorem agcRecord_writes {s : Int} (hs : SampleIndex s) :
    Writes K (fun _ => True) (agcRecord s) fun _ => True := by
  have hdevice : DeviceId 0 := ⟨le_rfl, by decide⟩
  have hheader := writes_readWords (fits hK [.agcCmdId s, .txAgcParamMask s, .txAgcEnableFlag s,
    .staticGain s, .adaptiveGainFlag s] (by simp [InBounds, hs]) (by simp [OfMbadrc]))
  have hparams := writes_readWords (fits hK ((List.range 19).map (.agcParams s))
    (by simp [InBounds, hs]) (by simp [OfMbadrc]))
  have hflag := writes_readWord (fits_one hK (.agcFlag 0) hdevice (by simp [OfMbadrc]))
  exact writes_skip.bind (hheader.bind (hparams.bind (hflag.bind
    (writes_ok fun st => enableFeature_changes hK 1 hs st))))

theorem nsRecord_writes {s : Int} (hs : SampleIndex s) :
    Writes K (fun _ => True) (nsRecord s) fun _ => True := by
  have hdevice : DeviceId 0 := ⟨le_rfl, by decide⟩
  have hparams := writes_readWords (fits hK [.nsCmdId s, .ecModeNew s, .densGammaN s, .densNfeBlockSize s,
    .densLimitNs s, .densLimitNsD s, .wbGammaE s, .wbGammaN s, .nsFlag 0]
    (by simp [InBounds, hs, hdevice]) (by simp [OfMbadrc]))
  exact writes_skip.bind (hparams.bind (writes_ok fun st => enableFeature_changes hK 2 hs st))

end

section
variable {K : Word → Prop} {d : Int} (hd : DeviceId d) (hK : ∀ w, OfMbadrc d w → ¬ K w)
include hd hK

/-- The loop over the bands. -/
theorem bandWords_writes : Writes K (fun t => t (.mbNumBands d) ≤ 5 ∧ t (.extBufSize d) ≤ 392)
    (fun st => readWords ((List.range (st.tables (.mbNumBands d))).flatMap fun i =>
      (List.range 10).map (.adrcBand d i)) st) fun t => t (.extBufSize d) ≤ 392 := by
  refine (writes_told (fun t => (List.range (t (.mbNumBands d))).flatMap fun i =>
    (List.range 10).map (.adrcBand d i)) (fun t ht => ?_) fun t t' ht hsame => ?_).mono (fun _ h => h) fun _ h => h.2
  · simp only [List.mem_flatMap, List.mem_map, List.mem_range]
    rintro w ⟨i, hi, j, hj, rfl⟩
    exact ⟨⟨hd, by omega, hj⟩, hK _ rfl⟩
  · rwa [hsame _ (by simp), hsame _ (by simp)]

/-- The loop over the buffer. -/
theorem bufferWords_writes : Writes K (fun t => t (.extBufSize d) ≤ 392)
    (fun st => readWords ((List.range (st.tables (.extBufSize d) / 2)).map (.extBuf d)) st) fun _ => True := by
  refine (writes_told (fun t => (List.range (t (.extBufSize d) / 2)).map (.extBuf d)) (fun t ht => ?_)
    fun t t' ht hsame => ?_).mono (fun _ h => h) fun _ _ => trivial
  · simp only [List.forall_mem_map, List.mem_range]
    intro i hi
    have hlt : i < 196 := by omega
    exact ⟨⟨hd, hlt⟩, hK _ rfl⟩
  · rwa [hsame _ (by simp)]

/-- The lengths are checked before the loops that they bound. -/
theorem mbadrcRecord_writes : Writes K (fun _ => True) (mbadrcRecord d) fun _ => True := by
  have hfixed : ∀ w, OfMbadrc d w → InBounds w → Fits K w := fun w hw hin => ⟨hin, hK w hw⟩
  have hexternal : Writes K (fun t => t (.mbNumBands d) ≤ 5 ∧ t (.extBufSize d) ≤ 392)
      (readWords [.extPartition d, .extBufMsw d, .extBufLsw d])
      fun t => t (.mbNumBands d) ≤ 5 ∧ t (.extBufSize d) ≤ 392 := by
    refine writes_told (fun _ => [.extPartition d, .extBufMsw d, .extBufLsw d]) (fun _ _ => ?_) fun t t' ht hsame => ?_
    · simp only [List.forall_mem_cons, List.not_mem_nil, false_imp_iff, implies_true, and_true]
      exact ⟨hfixed _ rfl hd, hfixed _ rfl hd, hfixed _ rfl hd⟩
    · rwa [hsame _ (by simp), hsame _ (by simp)]
  have hlevels : Writes K (fun t => t (.mbNumBands d) ≤ 5)
      (readWords [.downSampLevel d, .adrcDelay d, .extBufSize d]) fun t => t (.mbNumBands d) ≤ 5 := by
    refine writes_told (fun _ => [.downSampLevel d, .adrcDelay d, .extBufSize d]) (fun _ _ => ?_)
      fun t t' ht hsame => ?_
    · simp only [List.forall_mem_cons, List.not_mem_nil, false_imp_iff, implies_true, and_true]
      exact ⟨hfixed _ rfl hd, hfixed _ rfl hd, hfixed _ rfl hd⟩
    · rwa [hsame _ (by simp)]
  have hflag := writes_readWord (hfixed (.mbadrcFlag d) rfl hd)
  have htail := hexternal.bind ((bandWords_writes hd hK).bind ((bufferWords_writes hd hK).bind hflag))
  have hsize := hlevels.bind (writes_guard (c := fun t => 392 < t (.extBufSize d)) htail
    fun t hb hc => ⟨hb, not_lt.mp hc⟩)
  have hnum := (writes_readWord (hfixed (.mbNumBands d) rfl hd)).bind
    (writes_guard (c := fun t => 5 < t (.mbNumBands d)) hsize fun t _ hc => not_lt.mp hc)
  exact writes_described hnum

end

/-! ## Lines -/

/-- The device of an MB_ADRC record. -/
def mbadrcDevice (line : List Char) : Option Int :=
  let c0 := line.getD 0 '\x00'
  let c1 := line.getD 1 '\x00'
  if c0 = 'D' && (c1 = '1' || c1 = '2' || c1 = '3') then some (get_device_id c1) else none

theorem deviceId_of_code {c : Char} (h : (decide (c = '1') || decide (c = '2') || decide (c = '3')) = true) :
    DeviceId (get_device_id c) := by
  simp only [Bool.or_eq_true, decide_eq_true_eq] at h
  obtain (rfl | rfl) | rfl := h
  · exact ⟨by decide, by decide⟩
  · exact ⟨by decide, by decide⟩
  · exact ⟨by decide, by decide⟩

theorem sampleIndex_of_code {c : Char} (h : get_sample_index c ≠ einval) : SampleIndex (get_sample_index c) := by
  unfold get_sample_index at h ⊢
  split at h
  all_goals first | exact ⟨by decide, by decide⟩ | exact absurd rfl h

/-- A line writes in bounds; only its own MB_ADRC record writes into a table of that kind. -/
theorem check_writes {K : Word → Prop} (hK : ∀ w, K w → ∃ d, OfMbadrc d w) (line : List Char)
    (hline : ∀ d ∈ mbadrcDevice line, ∀ w, OfMbadrc d w → ¬ K w) (lib : EqLibrary) (tables : Tables) :
    Changes K ⟨line, tables, [], []⟩ (reached (check_and_set_audpp_parameters lib line tables)) := by
  unfold check_and_set_audpp_parameters
  unfold mbadrcDevice at hline
  simp only at hline ⊢
  generalize line.getD 0 '\x00' = c0 at hline ⊢
  generalize line.getD 1 '\x00' = c1 at hline ⊢
  generalize hdevice : (decide (c1 = '1') || decide (c1 = '2') || decide (c1 = '3')) = device at hline ⊢
  split_ifs with hA hB hC hD hpre hsample hE hF
  · exact (iirRecord_writes hK (deviceId_of_code (hdevice.trans (Bool.and_eq_true_iff.mp hA).2))).reached trivial
  · exact (adrcRecord_writes hK (deviceId_of_code (hdevice.trans (Bool.and_eq_true_iff.mp hB).2))).reached trivial
  · exact (eqRecord_writes hK lib (deviceId_of_code (hdevice.trans (Bool.and_eq_true_iff.mp hC).2))).reached trivial
  · rw [if_pos hD] at hline
    have hdev := deviceId_of_code (hdevice.trans (Bool.and_eq_true_iff.mp hD).2)
    exact (mbadrcRecord_writes hdev (hline _ rfl)).reached trivial
  · exact .refl _
  · exact (txIirRecord_writes hK (sampleIndex_of_code hsample)).reached trivial
  · exact (agcRecord_writes hK (sampleIndex_of_code hsample)).reached trivial
  · exact (nsRecord_writes hK (sampleIndex_of_code hsample)).reached trivial
  · exact .refl _

theorem check_inBounds (lib : EqLibrary) (line : List Char) (tables : Tables) :
    ∀ w ∈ (reached (check_and_set_audpp_parameters lib line tables)).touched, InBounds w := by
  have hwrites := check_writes (K := fun _ => False) (fun _ h => h.elim) line (fun _ _ _ _ h => h) lib tables
  intro w hw
  exact (hwrites.touched w hw).resolve_left List.not_mem_nil

/-- Whatever the lines are, every subscript of the loop lies in its array. -/
theorem parseLines_inBounds (lib : Nat → EqLibrary) (n : Nat) (lines : List (List Char)) {f : Loaded}
    (h : ∀ w ∈ f.touched, InBounds w) : ∀ w ∈ (parseLines lib n lines f).touched, InBounds w := by
  induction lines generalizing n f with
  | nil => exact h
  | cons line lines ih =>
    have hline := check_inBounds (lib n) line f.tables
    have hall : ∀ w ∈ (reached (check_and_set_audpp_parameters (lib n) line f.tables)).touched ++ f.touched,
        InBounds w := List.forall_mem_append.mpr ⟨hline, h⟩
    rw [parseLines]
    cases hc : check_and_set_audpp_parameters (lib n) line f.tables with
    | error e =>
      rw [hc] at hall
      exact hall
    | ok st =>
      rw [hc] at hall
      exact ih (n + 1) hall

/-! ## The MB_ADRC tables -/

/-- The table of a device is that of a line. -/
structure TakenFrom (line : List Char) (d : Int) (t : Tables) : Prop where
  bands : value (token ',' line 2) ≤ 5
  size : value (token ',' line 5) ≤ 392
  words : ∀ {k w}, (mbadrcWords d (value (token ',' line 2)) (value (token ',' line 5)))[k]? = some w →
    t w = value (token ',' line (2 + k))

theorem mbadrcWords_nodup (d : Int) (bands size : Nat) : (mbadrcWords d bands size).Nodup := by
  have hbands : ((List.range bands).flatMap fun i => (List.range 10).map (Word.adrcBand d i)).Nodup := by
    refine List.nodup_flatMap.mpr ⟨fun i _ => ?_, ?_⟩
    · exact List.nodup_range.map fun j k h => (Word.adrcBand.inj h).2.2
    · refine List.nodup_range.imp fun {i k} hne => ?_
      simp only [Function.onFun, List.Disjoint, List.mem_map]
      rintro w ⟨j, -, rfl⟩ ⟨l, -, he⟩
      exact hne (Word.adrcBand.inj he).2.1.symm
  have hbuffer : ((List.range (size / 2)).map (Word.extBuf d)).Nodup :=
    List.nodup_range.map fun j k h => (Word.extBuf.inj h).2
  refine List.nodup_append.mpr ⟨List.nodup_append.mpr ⟨List.nodup_append.mpr ⟨by simp, hbands, ?_⟩, hbuffer, ?_⟩,
    by simp, ?_⟩
  · rintro w hw _ hb rfl
    obtain ⟨i, -, hb⟩ := List.mem_flatMap.mp hb
    obtain ⟨j, -, rfl⟩ := List.mem_map.mp hb
    simp at hw
  · rintro w hw _ hb rfl
    obtain ⟨k, -, rfl⟩ := List.mem_map.mp hb
    simp at hw
  · rintro w hw _ hb rfl
    obtain rfl := List.mem_singleton.mp hb
    simp at hw

theorem ofMbadrc_of_mem {d : Int} {bands size : Nat} {w : Word} (h : w ∈ mbadrcWords d bands size) : OfMbadrc d w := by
  simp only [mbadrcWords, List.mem_append, List.mem_cons, List.not_mem_nil, or_false, List.mem_flatMap, List.mem_map,
    List.mem_range] at h
  obtain ((h | ⟨i, -, j, -, rfl⟩) | ⟨i, -, rfl⟩) | rfl := h
  · obtain rfl | rfl | rfl | rfl | rfl | rfl | rfl := h <;> rfl
  · rfl
  · rfl
  · rfl

theorem ofMbadrc_unique {d d' : Int} {w : Word} (h : OfMbadrc d w) (h' : OfMbadrc d' w) : d = d' := by
  cases w <;> first | exact h.elim | exact h.symm.trans h'

theorem TakenFrom.congr {line : List Char} {d : Int} {t t' : Tables} (h : TakenFrom line d t)
    (hsame : ∀ w, OfMbadrc d w → t' w = t w) : TakenFrom line d t' := by
  refine ⟨h.bands, h.size, fun hw => ?_⟩
  rw [hsame _ (ofMbadrc_of_mem (List.mem_of_getElem? hw)), h.words hw]

/-- An accepted record is the whole table. -/
theorem mbadrcRecord_taken {line : List Char} {d : Int} {tables : Tables} {st : Parse}
    (h : mbadrcRecord d ⟨line, tables, [], []⟩ = .ok st) : TakenFrom line d st.tables := by
  obtain ⟨hb, hs, hok⟩ := (mbadrcRecord_iff d _ _).mp h
  refine ⟨hb, hs, fun {k w} hw => ?_⟩
  cases h₁ : skip ⟨line, tables, [], []⟩ with
  | error e =>
    rw [h₁] at hok
    cases hok
  | ok st₁ =>
    rw [h₁, ok_bind] at hok
    cases h₂ : skip st₁ with
    | error e =>
      rw [h₂] at hok
      cases hok
    | ok st₂ =>
      rw [h₂, ok_bind] at hok
      rw [readWords_read (mbadrcWords_nodup ..) hok hw, skip_toks h₂, skip_toks h₁, List.drop_drop,
        List.getD_eq_getElem?_getD, List.getElem?_drop, ← List.getD_eq_getElem?_getD]
      rfl

theorem check_mbadrc {line : List Char} {d : Int} (h : mbadrcDevice line = some d) (lib : EqLibrary) (tables : Tables) :
    check_and_set_audpp_parameters lib line tables = mbadrcRecord d ⟨line, tables, [], []⟩ := by
  unfold mbadrcDevice at h
  unfold check_and_set_audpp_parameters
  simp only at h ⊢
  generalize line.getD 0 '\x00' = c0 at h ⊢
  generalize line.getD 1 '\x00' = c1 at h ⊢
  generalize (decide (c1 = '1') || decide (c1 = '2') || decide (c1 = '3')) = device at h ⊢
  simp only [Option.ite_none_right_eq_some, Option.some.injEq, Bool.and_eq_true, decide_eq_true_eq] at h
  obtain ⟨⟨rfl, rfl⟩, rfl⟩ := h
  rfl

/-! ## Files -/

/-- Whatever the tables are, the line is accepted. -/
def Accepts (lib : EqLibrary) (line : List Char) : Prop :=
  ∀ tables, ∃ st, check_and_set_audpp_parameters lib line tables = .ok st

def Rejects (lib : EqLibrary) (line : List Char) : Prop :=
  ∀ tables, ∃ e, check_and_set_audpp_parameters lib line tables = .error e

theorem check_of_none {lib : EqLibrary} {line : List Char} (h : shapeOf lib line = none) (tables : Tables) :
    check_and_set_audpp_parameters lib line tables = .ok ⟨line, tables, [], []⟩ := by
  unfold shapeOf at h
  unfold check_and_set_audpp_parameters
  simp only at h ⊢
  split_ifs at h ⊢
  rfl

/-- The tables do not decide it. -/
theorem accepts_or_rejects (lib : EqLibrary) (line : List Char) : Accepts lib line ∨ Rejects lib line := by
  cases hsh : shapeOf lib line with
  | none => exact .inl fun tables => ⟨_, check_of_none hsh tables⟩
  | some sh =>
    by_cases hc : Complete sh line
    · left
      intro tables
      obtain ⟨st, hok, -⟩ := (check_parsed hsh tables).accepted hc.1 hc.2
      exact ⟨st, hok⟩
    · exact .inr fun tables => (check_parsed hsh tables).rejected hc

theorem not_accepts_and_rejects {lib : EqLibrary} {line : List Char} (h : Accepts lib line) : ¬ Rejects lib line := by
  intro hrej
  obtain ⟨st, hok⟩ := h fun _ => 0
  obtain ⟨e, he⟩ := hrej fun _ => 0
  cases he.symm.trans hok

/-- What one parse of the line says of all. -/
theorem accepts_of_ok {lib : EqLibrary} {line : List Char} {tables : Tables} {st : Parse}
    (h : check_and_set_audpp_parameters lib line tables = .ok st) : Accepts lib line := by
  refine (accepts_or_rejects _ _).resolve_right fun hrej => ?_
  obtain ⟨e, he⟩ := hrej tables
  cases he.symm.trans h

theorem rejects_of_error {lib : EqLibrary} {line : List Char} {tables : Tables} {e : Parse × Status}
    (h : check_and_set_audpp_parameters lib line tables = .error e) : Rejects lib line := by
  refine (accepts_or_rejects _ _).resolve_left fun hacc => ?_
  obtain ⟨st, hok⟩ := hacc tables
  cases hok.symm.trans h

/-- A line that is accepted. -/
def AcceptedLine (lib : Nat → EqLibrary) (lines : List (List Char)) (line : List Char) : Prop :=
  ∃ pre post, lines = pre ++ line :: post ∧ Accepts (lib pre.length) line

/-- One of the lines is rejected; `n` lines came before. -/
def RejectedIn (lib : Nat → EqLibrary) (n : Nat) (lines : List (List Char)) : Prop :=
  ∃ pre line post, lines = pre ++ line :: post ∧ Rejects (lib (n + pre.length)) line

theorem rejectedIn_cons {lib : Nat → EqLibrary} {n : Nat} {line : List Char} {lines : List (List Char)} :
    RejectedIn lib n (line :: lines) ↔ Rejects (lib n) line ∨ RejectedIn lib (n + 1) lines := by
  constructor
  · rintro ⟨_ | ⟨first, pre⟩, bad, post, he, hbad⟩
    · obtain ⟨rfl, -⟩ := List.cons.inj he
      exact .inl hbad
    · obtain ⟨-, rfl⟩ := List.cons.inj he
      refine .inr ⟨pre, bad, post, rfl, ?_⟩
      rwa [Nat.add_assoc, Nat.add_comm 1]
  · rintro (h | ⟨pre, bad, post, rfl, hbad⟩)
    · exact ⟨[], line, lines, rfl, h⟩
    · refine ⟨line :: pre, bad, post, rfl, ?_⟩
      rwa [Nat.add_assoc, Nat.add_comm 1] at hbad

theorem not_rejectedIn_nil (lib : Nat → EqLibrary) (n : Nat) : ¬ RejectedIn lib n [] := by
  rintro ⟨pre, line, post, he, -⟩
  exact List.append_ne_nil_of_right_ne_nil pre (List.cons_ne_nil line post) he.symm

/-- Whatever the tables are. -/
theorem parseLines_accepted (lib : Nat → EqLibrary) (n : Nat) (lines : List (List Char)) {f : Loaded}
    (hf : f.accepted = true) : (parseLines lib n lines f).accepted = true ↔ ¬ RejectedIn lib n lines := by
  induction lines generalizing n f with
  | nil => exact iff_of_true hf (not_rejectedIn_nil lib n)
  | cons line lines ih =>
    rw [rejectedIn_cons, not_or, parseLines]
    cases hc : check_and_set_audpp_parameters (lib n) line f.tables with
    | error e => exact iff_of_false Bool.false_ne_true fun h => h.1 (rejects_of_error hc)
    | ok st =>
      rw [and_iff_right (not_accepts_and_rejects (accepts_of_ok hc))]
      exact ih (n + 1) hf

/-- An MB_ADRC table whose flag is set is that of a line. -/
def Sourced (Q : List Char → Prop) (t : Tables) : Prop :=
  ∀ d, t (.mbadrcFlag d) ≠ 0 → ∃ line, Q line ∧ TakenFrom line d t

theorem sourced_line {Q : List Char → Prop} {lib : EqLibrary} {line : List Char} {tables : Tables} {st : Parse}
    (h : Sourced Q tables) (hline : Q line) (hok : check_and_set_audpp_parameters lib line tables = .ok st) :
    Sourced Q st.tables := by
  intro d hflag
  by_cases hd : mbadrcDevice line = some d
  · rw [check_mbadrc hd] at hok
    exact ⟨line, hline, mbadrcRecord_taken hok⟩
  · have hother : ∀ d' ∈ mbadrcDevice line, ∀ w, OfMbadrc d' w → ¬ OfMbadrc d w := by
      intro d' hd' w hw hw'
      obtain rfl := ofMbadrc_unique hw hw'
      exact hd hd'
    have hwrites := check_writes (K := OfMbadrc d) (fun w hw => ⟨d, hw⟩) line hother lib tables
    rw [hok, reached] at hwrites
    rw [hwrites.kept (.mbadrcFlag d) rfl] at hflag
    obtain ⟨line', hline', htaken⟩ := h d hflag
    exact ⟨line', hline', htaken.congr hwrites.kept⟩

theorem parseLines_sourced {lib : Nat → EqLibrary} {all lines : List (List Char)} (pre : List (List Char))
    (hall : all = pre ++ lines) {f : Loaded} (h : Sourced (AcceptedLine lib all) f.tables)
    (hok : (parseLines lib pre.length lines f).accepted = true) :
    Sourced (AcceptedLine lib all) (parseLines lib pre.length lines f).tables := by
  induction lines generalizing pre f with
  | nil => exact h
  | cons line lines ih =>
    rw [parseLines] at hok ⊢
    cases hc : check_and_set_audpp_parameters (lib pre.length) line f.tables with
    | error e =>
      rw [hc] at hok
      cases hok
    | ok st =>
      rw [hc] at hok
      have hline : AcceptedLine lib all line := ⟨pre, lines, hall, accepts_of_ok hc⟩
      have hnext : pre.length + 1 = (pre ++ [line]).length := by rw [List.length_append, List.length_singleton]
      have hrest : all = pre ++ [line] ++ lines := by
        rw [hall, List.append_assoc]
        rfl
      dsimp only at hok ⊢
      rw [hnext] at hok ⊢
      exact ih (pre ++ [line]) hrest (sourced_line h hline hc) hok

end AudioFilterTables
