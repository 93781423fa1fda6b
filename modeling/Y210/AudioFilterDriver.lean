import Y210.AudioFilterFile
import Y210.AudioPreProc

/-!
# What the drivers get of the filter file

The tables are sent only after every line that the loop comes to has been accepted, and an MB_ADRC
table only when its flag is set. In a run of any length the driver therefore sees checked lengths and
the words of one line. A line that the loop does not come to cannot keep the tables back.
-/
namespace AudioFilterDriver

open AudioDrivers AudioHardware AudioStreams AudioRouting AudioCalls AudioFilter AudioFilterRecords
  AudioFilterColumns AudioFilterTables AudioFilterFile AudioPreProc
open Tokens (token)

variable {p : Platform}

/-! ## The guards -/

/-- The file was parsed, and an MB_ADRC table is one whose flag is set. -/
def Guarded (p : Platform) (cmd : AudppCmd) : Prop :=
  p.filters.inited = true ∧
    ∀ cfg, cmd = .setMbadrc cfg → ∃ id, p.filters.mbadrcFlag id ≠ 0 ∧ cfg = p.filters.mbadrcCfg id

/-- The post-processing driver has got guarded commands, if any. -/
def Posts (p : Platform) (w w' : World) : Prop := ∀ c ∈ w'.audpp, c ∈ w.audpp ∨ Guarded p c.1

theorem Posts.of_eq {w w' : World} (h : w'.audpp = w.audpp) : Posts p w w' := by
  intro c hc
  exact .inl (h ▸ hc)

theorem Posts.trans {a b c : World} (h₁ : Posts p a b) (h₂ : Posts p b c) : Posts p a c := by
  intro x hx
  rcases h₂ x hx with hb | hg
  · exact h₁ x hb
  · exact .inr hg

theorem issueAudpp_mem (cmds : List AudppCmd) (log : List (AudppCmd × Bool)) {c : AudppCmd × Bool}
    (h : c ∈ (issueAudpp p cmds log).1) : c ∈ log ∨ c.1 ∈ cmds := by
  induction cmds generalizing log with
  | nil => exact .inl h
  | cons cmd rest ih =>
    rw [issueAudpp] at h
    by_cases hok : p.audppOk log.length = true
    · rw [if_pos hok] at h
      rcases ih _ h with hlog | hrest
      · rcases List.mem_cons.mp hlog with rfl | hlog
        · exact .inr List.mem_cons_self
        · exact .inl hlog
      · exact .inr (List.mem_cons_of_mem cmd hrest)
    · rw [if_neg hok] at h
      rcases List.mem_cons.mp h with rfl | hlog
      · exact .inr List.mem_cons_self
      · exact .inl hlog

/-- A flag that is not set takes the bit away. -/
theorem mbadrc_bit {f : AudppFilters} {feature : BitVec 32} {id : Fin 3}
    (h : postprocEnableMask f feature id &&& mbadrcEnable ≠ 0) : f.mbadrcFlag id ≠ 0 := by
  intro hflag
  apply h
  have hkeep : ∀ (c : Prop) [Decidable c] (m a : BitVec 32), m &&& mbadrcEnable = 0 →
      (if c then m &&& a else m) &&& mbadrcEnable = 0 := by
    intro c _ m a hm
    split
    · rw [BitVec.and_assoc, BitVec.and_comm a, ← BitVec.and_assoc, hm]
      exact BitVec.zero_and
    · exact hm
  have hfirst : feature &&& mbadrcDisable &&& mbadrcEnable = 0 := by
    have hconst : mbadrcDisable &&& mbadrcEnable = 0 := by decide
    rw [BitVec.and_assoc, hconst]
    exact BitVec.and_zero
  unfold postprocEnableMask
  simp only [hflag, true_or, if_true]
  exact hkeep _ _ _ (hkeep _ _ _ (hkeep _ _ _ hfirst))

theorem postprocTables_guarded (hi : p.filters.inited = true) {feature : BitVec 32} {id : Fin 3} {cmd : AudppCmd}
    (h : cmd ∈ postprocTables p.filters (postprocEnableMask p.filters feature id) id) : Guarded p cmd := by
  refine ⟨hi, ?_⟩
  rintro cfg rfl
  unfold postprocTables at h
  simp only [List.mem_append] at h
  obtain ((h | h) | h) | h := h
  · by_cases hbit : postprocEnableMask p.filters feature id &&& mbadrcEnable ≠ 0
    · rw [if_pos hbit, List.mem_singleton] at h
      exact ⟨id, mbadrc_bit hbit, AudppCmd.setMbadrc.inj h⟩
    · rw [if_neg hbit] at h
      cases h
  all_goals
    split at h
    · cases List.mem_singleton.mp h
    · cases h

theorem postproc_posts (state : Bool) (w : World) : Posts p w (msm72xx_enable_postproc p state w).1 := by
  unfold msm72xx_enable_postproc
  by_cases hi : p.filters.inited = true
  · rw [if_neg (by simp [hi])]
    split
    · exact .of_eq rfl
    cases postprocDeviceId p.dev w.hw.mCurSndDevice with
    | none => exact .of_eq rfl
    | some id =>
      dsimp only
      split
      · intro c hc
        rcases List.mem_cons.mp hc with rfl | hlog
        · exact .inr ⟨hi, nofun⟩
        · exact .inl hlog
      cases state with
      | true =>
        intro c hc
        rcases issueAudpp_mem _ _ hc with hlog | hcmd
        · exact .inl hlog
        rcases List.mem_append.mp hcmd with htable | hmask
        · exact .inr (postprocTables_guarded hi htable)
        · rw [List.mem_singleton.mp hmask]
          exact .inr ⟨hi, nofun⟩
      | false =>
        intro c hc
        rcases issueAudpp_mem _ _ hc with hlog | hcmd
        · exact .inl hlog
        · rw [List.mem_singleton.mp hcmd]
          exact .inr ⟨hi, nofun⟩
  · rw [if_pos (Bool.eq_false_iff.mpr hi)]
    exact .of_eq rfl

/-! ## The calls -/

theorem applyRoute_posts (device : Int) (mask : BitVec 32) (w : World) : Posts p w (applyRoute p device mask w).1 := by
  unfold applyRoute
  dsimp only
  have hroute : Posts p w (doAudioRouteOrMute p device w).1 := .of_eq (route_audpp ..)
  generalize (doAudioRouteOrMute p device w).1 = v at hroute ⊢
  have hoff : Posts p w (if v.hw.playback_in_progress then (msm72xx_enable_postproc p false v).1 else v) := by
    split
    · exact hroute.trans (postproc_posts false v)
    · exact hroute
  generalize (if v.hw.playback_in_progress then (msm72xx_enable_postproc p false v).1 else v) = u at hoff ⊢
  split
  · exact hoff.trans (postproc_posts true _)
  · exact hoff

theorem doRouting_posts (input : Option Devices) (w : World) : Posts p w (doRouting p input w).1 := by
  by_cases h : Sends p input w
  · rw [doRouting_of_sends h]
    exact applyRoute_posts _ _ { w with hw := selectMic w.hw input }
  · rw [doRouting_of_not_sends h]
    exact .of_eq rfl

theorem posts_law : PlaybackLaw p (Posts p) :=
  ⟨fun _ _ _ _ => .of_eq rfl, postproc_posts, Posts.trans⟩

theorem set_volume_rpc_audpp (device : Int) (method volume : Nat) (w : World) :
    (set_volume_rpc p device method volume w).1.audpp = w.audpp := by
  unfold set_volume_rpc
  split
  · rfl
  · cases h : sndSetVolume p device method volume w.snd with
    | mk snd ok => cases ok <;> rfl

theorem call_posts (c : Call) (w : World) : Posts p w (call p w c) := by
  cases c with
  | setMode mode =>
    refine .of_eq ?_
    simp only [call, setMode]
    split <;> rfl
  | setMicMute state =>
    refine .of_eq ?_
    simp only [call, setMicMute, setMicMute_nosync]
    split
    · exact route_audpp ..
    · rfl
  | doRouting input => exact doRouting_posts input w
  | reroute input => exact doRouting_posts input (clearCurDevice w)
  | setFm on off =>
    obtain ⟨log, fd, hfm⟩ := switchFm_frame p on off w
    have hfirst : Posts p w (switchFm p on off w) := .of_eq (by rw [hfm])
    exact hfirst.trans (doRouting_posts none _)
  | setSettings | record | setProperty => exact .of_eq rfl
  | setVoiceVolume v => exact .of_eq (set_volume_rpc_audpp ..)
  | setFmVolume v => exact .of_eq (set_volume_rpc_audpp ..)
  | openOutputStream devices a =>
    refine .of_eq ?_
    simp only [call, openOutputStream]
    repeat' split
    all_goals rfl
  | closeOutputStream =>
    refine .of_eq ?_
    simp only [call, closeOutputStream]
    split <;> rfl
  | setOutDevices devices =>
    refine .of_eq ?_
    simp only [call, setOutDevices]
    split <;> rfl
  | write buffer answers => exact posts_law.write buffer answers w
  | outStandby => exact posts_law.outStandby w

/-- In every state of every run the driver has got guarded commands only. -/
theorem guarded_in_runs (p : Platform) (ops : List Op) :
    Run.AllStates (step p) (fun w => ∀ c ∈ w.audpp, Guarded p c.1) (boot p) ops := by
  refine holds_in_runs _ (fun w c h x hx => ?_) (fun c hc => by cases hc) ops
  rcases call_posts c w x hx with hw | hg
  · exact h x hw
  · exact hg

/-- Without filters the pre-processing driver gets nothing. -/
theorem audpre_silent (hi : p.filters.inited = false) (ops : List Op) :
    Run.AllStates (step p) (fun w => w.audpre = []) (boot p) ops := by
  refine Run.allStates_of_invariant ?_ ?_ ops
  · intro w op hw
    rw [audpre_step]
    cases preprocCall p w op with
    | none => exact hw
    | some c => simp [sent, Issues, hi, hw]
  · rfl

/-- Without filters neither driver gets anything. -/
theorem silent_runs (hi : p.filters.inited = false) (ops : List Op) :
    Run.AllStates (step p) (fun w => w.audpp = [] ∧ w.audpre = []) (boot p) ops := by
  have hguarded := (Run.allStates_iff_prefixes _ _ _ _).mp (guarded_in_runs p ops)
  have hsilent := (Run.allStates_iff_prefixes _ _ _ _).mp (audpre_silent hi ops)
  refine (Run.allStates_iff_prefixes _ _ _ _).mpr fun pre hpre => ⟨?_, hsilent pre hpre⟩
  apply List.eq_nil_iff_forall_not_mem.mpr
  intro c hc
  exact Bool.false_ne_true (hi.symm.trans (hguarded pre hpre c hc).1)

/-! ## The loaded file -/

/-- The platform on which the constructor finds this file. -/
def withFilters (p : Platform) (lib : Nat → EqLibrary) (behind : List Char) (content : Option (List Char)) :
    Platform :=
  { p with filters := filtersOf (loaded (get_audpp_filter lib behind content)) }

/-- The lengths of a table are legal, and its words are columns of the line. -/
structure TableOf (line : List Char) (cfg : MbadrcFilter) : Prop where
  num_bands : cfg.numBands.toNat ≤ 5 ∧ cfg.numBands.toNat = value (token ',' line 2)
  ext_buf_size : cfg.extBufSize.toNat ≤ 392 ∧ cfg.extBufSize.toNat = value (token ',' line 5)
  header : cfg.downSampLevel.toNat = value (token ',' line 3) ∧ cfg.adrcDelay.toNat = value (token ',' line 4) ∧
    cfg.extPartition.toNat = value (token ',' line 6) ∧ cfg.extBufMsw.toNat = value (token ',' line 7) ∧
    cfg.extBufLsw.toNat = value (token ',' line 8)
  adrc_band : ∀ (i : Fin 5) (j : Fin 10), i.val < cfg.numBands.toNat →
    cfg.adrcBand[i][j].toNat = value (token ',' line (9 + 10 * i + j))
  ext_buf : ∀ i : Fin 196, i.val < cfg.extBufSize.toNat / 2 →
    cfg.extBuf[i].toNat = value (token ',' line (9 + 10 * cfg.numBands.toNat + i))

theorem length_rows (f : Nat → Nat → Word) (rows width : Nat) :
    ((List.range rows).flatMap fun i => (List.range width).map (f i)).length = width * rows := by
  simp [List.length_flatMap, Nat.mul_comm]

theorem getElem?_rows (f : Nat → Nat → Word) {rows width i j : Nat} (hi : i < rows) (hj : j < width) :
    ((List.range rows).flatMap fun i => (List.range width).map (f i))[width * i + j]? = some (f i j) := by
  induction rows with
  | zero => omega
  | succ rows ih =>
    have hlen := length_rows f rows width
    rw [List.range_succ, List.flatMap_append]
    by_cases hlt : i < rows
    · have hpos : width * i + j < width * rows := by
        calc width * i + j < width * i + width := by omega
          _ = width * (i + 1) := (Nat.mul_succ width i).symm
          _ ≤ width * rows := Nat.mul_le_mul_left width hlt
      rw [List.getElem?_append_left (by omega), ih hlt]
    · obtain rfl : i = rows := by omega
      rw [List.getElem?_append_right (by omega), hlen, Nat.add_sub_cancel_left]
      simp [hj]

section
variable (d : Int) {bands size : Nat}

theorem mbadrcWords_band {i j : Nat} (hi : i < bands) (hj : j < 10) :
    (mbadrcWords d bands size)[7 + 10 * i + j]? = some (.adrcBand d i j) := by
  have hlen := length_rows (Word.adrcBand d) bands 10
  have hrow := getElem?_rows (Word.adrcBand d) hi hj
  unfold mbadrcWords
  rw [List.append_assoc, List.append_assoc, List.getElem?_append_right (by simp; omega),
    List.getElem?_append_left (by rw [hlen]; simp; omega)]
  simpa [show 7 + 10 * i + j - 7 = 10 * i + j by omega] using hrow

theorem mbadrcWords_buffer {i : Nat} (hi : i < size / 2) :
    (mbadrcWords d bands size)[7 + 10 * bands + i]? = some (.extBuf d i) := by
  have hlen := length_rows (Word.adrcBand d) bands 10
  unfold mbadrcWords
  rw [List.append_assoc, List.append_assoc, List.getElem?_append_right (by simp; omega),
    List.getElem?_append_right (by rw [hlen]; simp; omega), hlen]
  have hindex : 7 + 10 * bands + i - 7 - 10 * bands = i := by omega
  simp only [List.length_cons, List.length_nil, hindex]
  rw [List.getElem?_append_left (by simpa using hi)]
  simp [hi]

end

theorem value_lt (c : List Char) : value c < 65536 := by
  unfold value uint16
  omega

/-- The table that the driver gets of tables taken from a line. -/
theorem tableOf_taken {line : List Char} {f : Loaded} {id : Fin 3} (h : TakenFrom line id f.tables) :
    TableOf line ((filtersOf f).mbadrcCfg id) := by
  have hword : ∀ {k w}, (mbadrcWords id (value (token ',' line 2)) (value (token ',' line 5)))[k]? = some w →
      (BitVec.ofNat 16 (f.tables w)).toNat = value (token ',' line (2 + k)) := by
    intro k w hw
    rw [h.words hw, BitVec.toNat_ofNat, Nat.mod_eq_of_lt (value_lt _)]
  have hbands : ((filtersOf f).mbadrcCfg id).numBands.toNat = value (token ',' line 2) := hword (k := 0) rfl
  have hsize : ((filtersOf f).mbadrcCfg id).extBufSize.toNat = value (token ',' line 5) := hword (k := 3) rfl
  refine ⟨⟨hbands ▸ h.bands, hbands⟩, ⟨hsize ▸ h.size, hsize⟩, ⟨hword (k := 1) rfl, hword (k := 2) rfl,
    hword (k := 4) rfl, hword (k := 5) rfl, hword (k := 6) rfl⟩, fun i j hi => ?_, fun i hi => ?_⟩
  · rw [hbands] at hi
    have hband := hword (mbadrcWords_band id hi j.isLt)
    simpa [filtersOf, Nat.add_assoc, ← Nat.add_assoc 2 7] using hband
  · rw [hsize] at hi
    have hbuffer := hword (mbadrcWords_buffer id hi)
    rw [hbands]
    simpa [filtersOf, Nat.add_assoc, ← Nat.add_assoc 2 7] using hbuffer

/-- No command has been issued; an open alone is none. -/
def Silent (w : World) : Prop := (∀ c ∈ w.audpp, c.1 = .openFailed) ∧ ∀ c ∈ w.audpre, c.1 = .openFailed

/-- In one run: the subscripts of the parser stay in their arrays; every MB_ADRC table that the driver gets
has legal lengths and the words of one line that was parsed; and with a rejected line in the file neither
driver gets a command. -/
structure FileSafe (p : Platform) (lib : Nat → EqLibrary) (behind : List Char) (content : Option (List Char))
    (ops : List Op) : Prop where
  bounds : ∀ w ∈ (get_audpp_filter lib behind content).1.touched, InBounds w
  mbadrc : Run.AllStates (step (withFilters p lib behind content)) (fun w => ∀ cfg ok,
    (AudppCmd.setMbadrc cfg, ok) ∈ w.audpp → ∃ line,
      AcceptedLine lib (get_audpp_filter lib behind content).1.passed line ∧ TableOf line cfg)
    (boot (withFilters p lib behind content)) ops
  silent : (∃ text ∈ content, RejectedIn lib 0 (textLines text)) →
    Run.AllStates (step (withFilters p lib behind content)) Silent (boot (withFilters p lib behind content)) ops

section
variable {lib : Nat → EqLibrary} {behind : List Char} {content : Option (List Char)}

theorem file_inBounds (lib : Nat → EqLibrary) (behind : List Char) (content : Option (List Char)) :
    ∀ w ∈ (get_audpp_filter lib behind content).1.touched, InBounds w := by
  cases content with
  | none => exact List.forall_mem_nil _
  | some text =>
    by_cases hempty : text = []
    · rw [get_audpp_filter, loadFile, if_pos hempty]
      exact List.forall_mem_nil _
    · rw [get_audpp_filter, (loadFile_parses lib behind hempty).touched]
      exact parseLines_inBounds lib 0 _ (List.forall_mem_nil _)

/-- The filters are those of a file whose lines in memory are accepted, with a NUL behind them. -/
theorem inited_iff : (loaded (get_audpp_filter lib behind content)).accepted = true ↔ ∃ text ∈ content,
    text ≠ [] ∧ ¬ RejectedIn lib 0 (fileLines (memory behind text)) ∧ '\x00' ∈ memory behind text := by
  rw [loaded, decide_eq_true_eq]
  have hfailed : unmapped.2 ≠ some (.returned 0) := by decide
  cases content with
  | none => exact iff_of_false hfailed fun ⟨_, h, _⟩ => Option.not_mem_none _ h
  | some text =>
    simp only [Option.mem_some_iff, exists_eq_left']
    by_cases hempty : text = []
    · rw [get_audpp_filter, loadFile, if_pos hempty]
      exact iff_of_false hfailed fun h => h.1 hempty
    · rw [get_audpp_filter, (loadFile_parses lib behind hempty).zero, and_iff_right hempty, scanned,
        parseLines_accepted lib 0 _ rfl]

/-- A loaded file has a line for each MB_ADRC table that is sent. -/
theorem loaded_tables (hi : (loaded (get_audpp_filter lib behind content)).accepted = true) {id : Fin 3}
    (hflag : (filtersOf (loaded (get_audpp_filter lib behind content))).mbadrcFlag id ≠ 0) :
    ∃ line, AcceptedLine lib (get_audpp_filter lib behind content).1.passed line ∧
      TableOf line ((filtersOf (loaded (get_audpp_filter lib behind content))).mbadrcCfg id) := by
  obtain ⟨text, rfl, hne, hacc, -⟩ := inited_iff.mp hi
  have hparses := loadFile_parses lib behind hne
  have haccepted : (scanned lib behind text).accepted = true := (parseLines_accepted lib 0 _ rfl).mpr hacc
  have hsourced : Sourced (AcceptedLine lib (fileLines (memory behind text))) (scanned lib behind text).tables :=
    parseLines_sourced [] rfl (fun d hd => absurd rfl hd) haccepted
  have hpassed : (get_audpp_filter lib behind (some text)).1.passed = fileLines (memory behind text) :=
    hparses.passed haccepted
  have htables : (loaded (get_audpp_filter lib behind (some text))).tables = (scanned lib behind text).tables :=
    hparses.tables
  rw [← hpassed, ← htables] at hsourced
  have hset : (loaded (get_audpp_filter lib behind (some text))).tables (.mbadrcFlag id) ≠ 0 := by
    intro hzero
    apply hflag
    simp [filtersOf, hzero]
  obtain ⟨line, hline, htaken⟩ := hsourced id hset
  exact ⟨line, hline, tableOf_taken htaken⟩

theorem file_tables (p : Platform) (lib : Nat → EqLibrary) (behind : List Char) (content : Option (List Char))
    (ops : List Op) : Run.AllStates (step (withFilters p lib behind content)) (fun w => ∀ cfg ok,
      (AudppCmd.setMbadrc cfg, ok) ∈ w.audpp → ∃ line,
        AcceptedLine lib (get_audpp_filter lib behind content).1.passed line ∧ TableOf line cfg)
      (boot (withFilters p lib behind content)) ops := by
  refine (guarded_in_runs (withFilters p lib behind content) ops).mono fun w h cfg ok hmem => ?_
  obtain ⟨hi, htable⟩ := h _ hmem
  obtain ⟨id, hflag, rfl⟩ := htable cfg rfl
  exact loaded_tables hi hflag

end

/-! ## Runs that send -/

theorem issueAudpre_mem (cmd : AudpreCmd) (cmds : List AudpreCmd) (log : List (AudpreCmd × Bool)) :
    cmd ∈ cmds ∨ (∃ ok, (cmd, ok) ∈ log) → ∃ ok, (cmd, ok) ∈ issueAudpre p cmds log := by
  induction cmds generalizing log with
  | nil => exact fun h => h.resolve_left List.not_mem_nil
  | cons first rest ih =>
    rintro (hcmd | ⟨ok, hlog⟩)
    · rcases List.mem_cons.mp hcmd with rfl | hrest
      · exact ih _ (.inr ⟨_, List.mem_cons_self⟩)
      · exact ih _ (.inl hrest)
    · exact ih _ (.inr ⟨ok, List.mem_cons_of_mem _ hlog⟩)

/-- A recording is opened and stopped. -/
def briefRecording : List Op := [.openInputStream 7 deviceInBuiltinMic ⟨pcm16Bit, channelInMono, 8000⟩, .inStandby 7]

/-- With any filters at all that sends a mask. -/
theorem briefRecording_sends {f : AudppFilters} (hi : f.inited = true) :
    ¬ Silent (Run.exec (step { acceptAll with filters := f }) (boot { acceptAll with filters := f }) briefRecording) := by
  intro hsilent
  have hlog := audpre_step (p := { acceptAll with filters := f }) (.inStandby 7)
    (step { acceptAll with filters := f } (boot { acceptAll with filters := f })
      (.openInputStream 7 deviceInBuiltinMic ⟨pcm16Bit, channelInMono, 8000⟩))
  have hcall : preprocCall { acceptAll with filters := f }
      (step { acceptAll with filters := f } (boot { acceptAll with filters := f })
        (.openInputStream 7 deviceInBuiltinMic ⟨pcm16Bit, channelInMono, 8000⟩)) (.inStandby 7) =
      some ⟨8000, 0, false⟩ := rfl
  rw [hcall] at hlog
  dsimp only at hlog
  rw [sent, if_pos ⟨hi, rfl⟩] at hlog
  obtain ⟨ok, hmem⟩ := issueAudpre_mem (p := { acceptAll with filters := f }) (.enableAudpre 0)
    (preprocCmds { acceptAll with filters := f } 0 false) _ (.inl (by simp [preprocCmds]))
  rw [← hlog] at hmem
  cases hsilent.2 _ hmem

/-- Every file is loaded safely but for one kind: a line of it is rejected that the loop does not come to,
all lines up to the first NUL in memory are accepted, and there is one. -/
theorem filter_file_safe_iff (lib : Nat → EqLibrary) (behind : List Char) (content : Option (List Char)) :
    (∀ p ops, FileSafe p lib behind content ops) ↔ ∀ text ∈ content, RejectedIn lib 0 (textLines text) →
      RejectedIn lib 0 (fileLines (memory behind text)) ∨ '\x00' ∉ memory behind text := by
  constructor
  · rintro hsafe text rfl hrej
    by_contra hno
    rw [not_or, not_not] at hno
    have hne : text ≠ [] := by
      rintro rfl
      exact not_rejectedIn_nil lib 0 hrej
    have hi := inited_iff.mpr ⟨text, rfl, hne, hno⟩
    have hsilent := (hsafe acceptAll briefRecording).silent ⟨text, rfl, hrej⟩
    exact briefRecording_sends hi hsilent.last
  · intro hcond p ops
    refine ⟨file_inBounds lib behind content, file_tables p lib behind content ops, ?_⟩
    rintro ⟨text, rfl, hrej⟩
    have hi : (withFilters p lib behind (some text)).filters.inited = false := by
      refine Bool.eq_false_iff.mpr fun hi => ?_
      obtain ⟨text', he, -, hacc, hnul⟩ := inited_iff.mp hi
      obtain rfl := Option.some.inj he
      rcases hcond text rfl hrej with hlines | hno
      · exact hacc hlines
      · exact hno hnul
    refine (silent_runs hi ops).mono fun w hw => ?_
    rw [Silent, hw.1, hw.2]
    exact ⟨List.forall_mem_nil _, List.forall_mem_nil _⟩

/-- A comment, and a TX_IIR record without an index and without its newline. -/
def openLine : List Char := ['#', '\n', 'E']

/-- Playback on the speaker, with a route and the two writes that start it. -/
def playback : List Op :=
  [.openOutputStream deviceOutSpeaker ⟨none, none, none⟩, .outSetParameters ⟨9, [("routing", "2")]⟩,
    .write [0] [.wrote 1], .write [0] [.wrote 1]]

/-- The record is rejected, but the loop does not come to it: the filters are enabled all the same. -/
theorem open_line_sends : ¬ FileSafe acceptAll (fun _ => .openFailure) [] (some openLine) playback := by
  intro h
  have hrej : RejectedIn (fun _ => .openFailure) 0 (textLines openLine) :=
    ⟨[['#']], ['E'], [], by decide +kernel, fun _ => ⟨_, rfl⟩⟩
  have hsilent := (h.silent ⟨openLine, rfl, hrej⟩).last.1 (.enableAudpp 0, true) (by decide +kernel)
  cases hsilent

end AudioFilterDriver
