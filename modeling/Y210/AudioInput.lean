import Y210.AudioCalls
import Y210.AudioDescriptors

/-!
# The opening of an input

`set` is the one way into a recording session, for `openInputStream` and for a `read` that
opens its stream again. What it leaves is read off the driver's answers here, together with
the operations that do not touch the recording side at all.
-/
namespace AudioInput

open AudioDrivers AudioHardware AudioStreams AudioRouting AudioCalls AudioDescriptors

variable {p : Platform}

/-! ## The other side -/

/-- What the recording side of a world stores. -/
def recordingOf (w : World) : Recording :=
  ⟨w.pcmIn, w.audpre, w.hw.audpre_index, w.hw.mInputs, w.hw.streams⟩

theorem recordingOf_applyRoute (device : Int) (mask : BitVec 32) (w : World) :
    recordingOf (applyRoute p device mask w).1 = recordingOf w := by
  have hroute : recordingOf (doAudioRouteOrMute p device w).1 = recordingOf w := by
    unfold doAudioRouteOrMute
    dsimp only
    split <;> rfl
  have hpost : ∀ state v, recordingOf (msm72xx_enable_postproc p state v).1 = recordingOf v := by
    intro state v
    obtain ⟨log, h⟩ := postproc_frame (p := p) state v
    rw [h]
    rfl
  unfold applyRoute
  dsimp only
  by_cases hp : (doAudioRouteOrMute p device w).1.hw.playback_in_progress = true
  · obtain ⟨log, h⟩ := postproc_frame (p := p) false (doAudioRouteOrMute p device w).1
    simp only [hp, if_true, h]
    exact (hpost true _).trans hroute
  · simp only [hp, Bool.false_eq_true, if_false]
    exact hroute

theorem recordingOf_doRouting (input : Option Devices) (w : World) :
    recordingOf (doRouting p input w).1 = recordingOf w := by
  have hselect : recordingOf { w with hw := selectMic w.hw input } = recordingOf w := by
    cases input <;> rfl
  by_cases h : Sends p input w
  · rw [doRouting_of_sends h, recordingOf_applyRoute, hselect]
  · rw [doRouting_of_not_sends h, hselect]

theorem recordingOf_settles {w w' : World} (h : SettlesTo p w w') : recordingOf w' = recordingOf w := by
  refine h.preserves (fun v => recordingOf v = recordingOf w) (fun v c hc hv => ?_) rfl
  rw [← hv]
  cases c with
  | doRouting input => exact recordingOf_doRouting input v
  | setFm on off =>
    obtain ⟨log, fd, he⟩ := switchFm_frame p on off v
    rw [call, recordingOf_doRouting, he]
    rfl
  | setSettings nrec id dualMic tty => rfl
  | setOutDevices devices =>
    rw [call, setOutDevices]
    split <;> rfl
  | _ => exact hc.elim

theorem recordingOf_played {w w' : World} (h : Played w w') : recordingOf w' = recordingOf w := by
  obtain ⟨_, _, _, _, rfl⟩ := h
  rfl

theorem recordingOf_set_volume_rpc (device : Int) (method volume : Nat) (w : World) :
    recordingOf (set_volume_rpc p device method volume w).1 = recordingOf w := by
  unfold set_volume_rpc sndSetVolume
  repeat' split
  · rfl
  all_goals
    rename_i h
    obtain ⟨rfl, -⟩ := Prod.mk.inj h
    rfl

/-- The operations on input streams. -/
def OnInput : Op → Prop
  | .openInputStream _ _ _ | .closeInputStream _ | .inSetParameters _ _ | .read _ _ _ _ | .inStandby _ => True
  | _ => False

/-- All others leave the recording side alone. -/
theorem recordingOf_step {op : Op} (h : ¬ OnInput op) (w : World) : recordingOf (step p w op) = recordingOf w := by
  cases op with
  | openInputStream | closeInputStream | inSetParameters | read | inStandby => exact absurd trivial h
  | setMode mode =>
    rw [step, setMode]
    split <;> rfl
  | setMicMute state =>
    simp only [step, setMicMute, setMicMute_nosync]
    split
    · unfold doAudioRouteOrMute
      dsimp only
      split <;> rfl
    · rfl
  | setParameters kv => exact recordingOf_settles (setParameters_settles kv w)
  | outSetParameters kv => exact recordingOf_settles (outSetParameters_settles kv w)
  | setVoiceVolume v => exact recordingOf_set_volume_rpc _ _ _ _
  | setFmVolume v => exact recordingOf_set_volume_rpc _ _ _ _
  | openOutputStream devices a => exact recordingOf_played (openOutputStream_played devices a w)
  | closeOutputStream => exact recordingOf_played (closeOutputStream_played w)
  | write buffer answers => exact recordingOf_played (played_law.write buffer answers w)
  | outStandby => exact recordingOf_played (played_law.outStandby w)
  | setProperty value => rfl

/-! ## Sample rates -/

theorem nearestRate_mem (rate : BitVec 32) {rates : List (BitVec 32)} {prev : BitVec 32}
    (hprev : prev ∈ inputSamplingRates) (hrates : ∀ r ∈ rates, r ∈ inputSamplingRates) (delta : BitVec 32) :
    nearestRate rate rates prev delta ∈ inputSamplingRates := by
  induction rates generalizing prev delta with
  | nil => exact hprev
  | cons r rates ih =>
    unfold nearestRate
    dsimp only
    split
    · exact hprev
    · exact ih (hrates r List.mem_cons_self) (fun q hq => hrates q (List.mem_cons_of_mem _ hq)) _

/-- The first round always moves on, so that the answer is a rate of the table. -/
theorem getInputSampleRate_mem (rate : BitVec 32) : getInputSampleRate rate ∈ inputSamplingRates := by
  have hfirst : ¬ (0xffffffff : BitVec 32) < absDelta rate 8000 := by
    rw [BitVec.lt_def, not_lt]
    exact Nat.le_of_lt_succ (absDelta rate 8000).isLt
  unfold getInputSampleRate
  rw [inputSamplingRates, nearestRate, if_neg hfirst]
  exact nearestRate_mem rate List.mem_cons_self (fun r hr => List.mem_cons_of_mem _ hr) _

/-- The rates of the table have a subscript, the others have none. -/
theorem audpre_index_bounds {rate : BitVec 32} (h : rate ∈ inputSamplingRates) :
    0 ≤ calculate_audpre_table_index rate ∧ calculate_audpre_table_index rate ≤ 8 := by
  simp only [inputSamplingRates, List.mem_cons, List.not_mem_nil, or_false] at h
  rcases h with rfl | rfl | rfl | rfl | rfl | rfl | rfl | rfl | rfl <;> decide

theorem audpre_index_unknown {rate : BitVec 32} (h : rate ∉ inputSamplingRates) :
    calculate_audpre_table_index rate = -1 := by
  have hne : ∀ r ∈ inputSamplingRates, rate.toNat ≠ r.toNat := by
    intro r hr he
    rw [BitVec.toNat_inj.mp he] at h
    exact h hr
  simp only [inputSamplingRates, List.mem_cons, List.not_mem_nil, or_false, forall_eq_or_imp, forall_eq,
    BitVec.reduceToNat] at hne
  unfold calculate_audpre_table_index
  split <;> first | rfl | omega

theorem audpre_index_neg_iff (rate : BitVec 32) :
    calculate_audpre_table_index rate < 0 ↔ rate ∉ inputSamplingRates := by
  constructor
  · intro hneg hmem
    exact absurd (audpre_index_bounds hmem).1 (not_le.mpr hneg)
  · intro hno
    rw [audpre_index_unknown hno]
    exact Int.negSucc_lt_zero 0

/-! ## What `set` leaves -/

/-- The sample rate of the stream, once the driver has accepted every request of `set`:
the reported one, for AAC the requested one. -/
def acceptedRate (p : Platform) (a : InArgs) (log : List PcmCall) : Option (BitVec 32) :=
  let ok (n : Nat) : Bool := p.pcmInOk (log.length + n)
  if a.format = pcm16Bit then
    if ok 0 && ok 1 && ok 2 && ok 3 then some (p.pcmInConfig (log.length + 3)).sampleRate else none
  else if a.format = amrNb then
    if ok 0 && ok 1 && ok 2 && ok 3 then some (p.pcmInConfig (log.length + 1)).sampleRate else none
  else if ok 0 && ok 1 && ok 2 then some a.sampleRate else none

/-- The branches of `set` behind the checks: the driver accepted everything, and the
stream has the next descriptor; or it did not, and the stream has none. Other clients may
hold descriptors of the node. -/
structure Opened (s : AudioStreamIn) (log : List PcmCall) (rate : BitVec 32) (r : SetResult) : Prop where
  status : r.status = noError
  proposal : r.proposal = none
  fd : r.stream.mFd = log.length
  rate : r.stream.mSampleRate = rate
  state : r.stream.mState = s.mState
  hardware : r.stream.mHardware = s.mHardware
  node : ∀ held, NodeLog held log → NodeLog (fun fd => fd = log.length ∨ held fd) r.log

structure Refused (s : AudioStreamIn) (log : List PcmCall) (r : SetResult) : Prop where
  status : r.status ≠ noError
  fd : s.mFd = -1 → r.stream.mFd = -1
  state : r.stream.mState = s.mState
  hardware : r.stream.mHardware = s.mHardware
  node : ∀ held, NodeLog held log → NodeLog held r.log

/-- How a branch ends, told by what the driver accepts. -/
def Ends (p : Platform) (a : InArgs) (s : AudioStreamIn) (log : List PcmCall) (r : SetResult) : Prop :=
  match acceptedRate p a log with
  | some rate => Opened s log rate r
  | none => Refused s log r

section
variable {devices : Devices} {a : InArgs} {s : AudioStreamIn} {log : List PcmCall}

theorem requests_nil (fd : Int) : NodeLog.Requests fd [] := fun c hc => by cases hc

theorem requests_cons {fd : Int} {c : PcmCall} {calls : List PcmCall} (ha : pcmEvents.acquires c = none)
    (hr : pcmEvents.releases c = none) (hu : pcmEvents.uses c = some fd) (h : NodeLog.Requests fd calls) :
    NodeLog.Requests fd (c :: calls) := by
  intro c' hc'
  rcases List.mem_cons.mp hc' with rfl | hc'
  · exact ⟨ha, hr, hu⟩
  · exact h c' hc'

theorem setPcm_ends (hf : a.format = pcm16Bit) :
    Ends p a s log (setPcm p devices a s log) := by
  have hget := fun ok => requests_cons (c := .getConfig log.length ok) rfl rfl rfl (requests_nil _)
  have hset := fun ok cfg ok' => requests_cons (c := .setConfig log.length cfg ok') rfl rfl rfl (hget ok)
  have hagain := fun ok cfg ok' ok'' =>
    requests_cons (c := .getConfig log.length ok'') rfl rfl rfl (hset ok cfg ok')
  have hneg : (-1 : Status) ≠ noError := by decide
  unfold Ends acceptedRate setPcm
  simp only [hf, if_true, List.length_cons, Nat.add_zero, add_assoc, Nat.reduceAdd]
  by_cases h0 : p.pcmInOk log.length = true
  · by_cases h1 : p.pcmInOk (log.length + 1) = true
    · by_cases h2 : p.pcmInOk (log.length + 2) = true
      · by_cases h3 : p.pcmInOk (log.length + 3) = true
        · simp only [h0, h1, h2, h3, Bool.true_eq_false, if_false, Bool.and_self, if_true]
          exact ⟨rfl, rfl, rfl, rfl, rfl, rfl, fun _ h => h.kept (hagain _ _ _ _)⟩
        · simp only [h0, h1, h2, h3, Bool.true_eq_false, if_false, Bool.and_false, Bool.false_eq_true, if_true]
          exact ⟨hneg, fun _ => rfl, rfl, rfl, fun _ h => h.discarded (hagain _ _ _ _)⟩
      · simp only [h0, h1, h2, Bool.true_eq_false, if_false, Bool.and_false, Bool.false_and,
          Bool.false_eq_true, if_true]
        exact ⟨hneg, fun _ => rfl, rfl, rfl, fun _ h => h.discarded (hagain _ _ _ _)⟩
    · simp only [h0, h1, Bool.true_eq_false, if_false, Bool.and_false, Bool.false_and,
        Bool.false_eq_true, if_true]
      exact ⟨hneg, fun _ => rfl, rfl, rfl, fun _ h => h.discarded (hget _)⟩
  · simp only [h0, Bool.false_and, Bool.false_eq_true, if_false, if_true]
    exact ⟨hneg, id, rfl, rfl, fun _ h => h.openFailed⟩

theorem setAmr_ends (hf : a.format = amrNb) :
    Ends p a s log (setAmr p devices a s log) := by
  have hget := fun ok => requests_cons (c := .getConfig log.length ok) rfl rfl rfl (requests_nil _)
  have hset := fun ok cfg ok' => requests_cons (c := .setVoicememo log.length cfg ok') rfl rfl rfl (hget ok)
  have hagain := fun ok cfg ok' ok'' =>
    requests_cons (c := .getVoicememo log.length ok'') rfl rfl rfl (hset ok cfg ok')
  have hpcm : ¬ amrNb = pcm16Bit := by decide
  have hneg : (-1 : Status) ≠ noError := by decide
  have hone : (1 : Status) ≠ noError := by decide
  unfold Ends acceptedRate setAmr
  simp only [hf, hpcm, if_true, if_false, List.length_cons, Nat.add_zero, add_assoc, Nat.reduceAdd]
  by_cases h0 : p.pcmInOk log.length = true
  · by_cases h1 : p.pcmInOk (log.length + 1) = true
    · by_cases h2 : p.pcmInOk (log.length + 2) = true
      · by_cases h3 : p.pcmInOk (log.length + 3) = true
        · simp only [h0, h1, h2, h3, Bool.true_eq_false, if_false, Bool.and_self, if_true]
          exact ⟨rfl, rfl, rfl, rfl, rfl, rfl, fun _ h => h.kept (hagain _ _ _ _)⟩
        · simp only [h0, h1, h2, h3, Bool.true_eq_false, if_false, Bool.and_false, Bool.false_eq_true, if_true]
          exact ⟨hone, fun _ => rfl, rfl, rfl, fun _ h => h.discarded (hagain _ _ _ _)⟩
      · simp only [h0, h1, h2, Bool.true_eq_false, if_false, Bool.and_false, Bool.false_and,
          Bool.false_eq_true, if_true]
        exact ⟨hone, fun _ => rfl, rfl, rfl, fun _ h => h.discarded (hset _ _ _)⟩
    · simp only [h0, h1, Bool.true_eq_false, if_false, Bool.and_false, Bool.false_and,
        Bool.false_eq_true, if_true]
      exact ⟨hone, fun _ => rfl, rfl, rfl, fun _ h => h.discarded (hget _)⟩
  · simp only [h0, Bool.false_and, Bool.false_eq_true, if_false, if_true]
    exact ⟨hneg, id, rfl, rfl, fun _ h => h.openFailed⟩

theorem setAac_ends (hpcm : ¬ a.format = pcm16Bit) (hamr : ¬ a.format = amrNb) :
    Ends p a s log (setAac p devices a s log) := by
  have hget := fun ok => requests_cons (c := .getConfig log.length ok) rfl rfl rfl (requests_nil _)
  have hset := fun ok cfg ok' => requests_cons (c := .setConfig log.length cfg ok') rfl rfl rfl (hget ok)
  have hone : (1 : Status) ≠ noError := by decide
  unfold Ends acceptedRate setAac
  simp only [hpcm, hamr, if_false, List.length_cons, Nat.add_zero, add_assoc, Nat.reduceAdd]
  by_cases h0 : p.pcmInOk log.length = true
  · by_cases h1 : p.pcmInOk (log.length + 1) = true
    · by_cases h2 : p.pcmInOk (log.length + 2) = true
      · simp only [h0, h1, h2, Bool.true_eq_false, if_false, Bool.and_self, if_true]
        exact ⟨rfl, rfl, rfl, rfl, rfl, rfl, fun _ h => h.kept (hset _ _ _)⟩
      · simp only [h0, h1, h2, Bool.true_eq_false, if_false, Bool.and_false, Bool.false_eq_true, if_true]
        exact ⟨hone, fun _ => rfl, rfl, rfl, fun _ h => h.discarded (hset _ _ _)⟩
    · simp only [h0, h1, Bool.true_eq_false, if_false, Bool.and_false, Bool.false_and,
        Bool.false_eq_true, if_true]
      exact ⟨hone, fun _ => rfl, rfl, rfl, fun _ h => h.discarded (hget _)⟩
  · simp only [h0, Bool.false_and, Bool.false_eq_true, if_false, if_true]
    exact ⟨hone, id, rfl, rfl, fun _ h => h.openFailed⟩

theorem setFormat_ends : Ends p a s log (setFormat p devices a s log) := by
  unfold setFormat
  split
  · exact setPcm_ends ‹_›
  · split
    · exact setAmr_ends ‹_›
    · exact setAac_ends ‹_› ‹_›

/-- Arguments that pass the checks ask for a rate of the table. -/
theorem checked_rate (h : checkInArgs a = none) : a.sampleRate ∈ inputSamplingRates := by
  unfold checkInArgs at h
  split at h
  · cases h
  · split at h
    · cases h
    · rename_i hrate
      rw [not_not] at hrate
      rw [← hrate]
      exact getInputSampleRate_mem a.sampleRate

end

/-- The ways `set` ends on a stream without a descriptor. -/
inductive SetEnds (p : Platform) (a : InArgs) (s : AudioStreamIn) (w : World)
    (r : AudioStreamIn × Option InArgs × World × Status) : Prop
  | unchecked (proposal : InArgs) (hc : checkInArgs a = some proposal) (he : r = (s, some proposal, w, badValue))
  | refused (hc : checkInArgs a = none) (hrate : acceptedRate p a w.pcmIn = none) (hstatus : r.2.2.2 ≠ noError)
      (hfd : s.mFd = -1 → r.1.mFd = -1) (hstate : r.1.mState = s.mState) (hhw : r.1.mHardware = true)
      (hnode : ∀ held, NodeLog held w.pcmIn → NodeLog held r.2.2.1.pcmIn)
      (hframe : ∃ log, r.2.2.1 = { w with pcmIn := log })
  | unknown (rate : BitVec 32) (hc : checkInArgs a = none) (hrate : acceptedRate p a w.pcmIn = some rate)
      (hno : rate ∉ inputSamplingRates) (hstatus : r.2.2.2 ≠ noError) (hfd : r.1.mFd = -1)
      (hstate : r.1.mState = .opened) (hhw : r.1.mHardware = true) (hrate' : r.1.mSampleRate = rate)
      (hnode : ∀ held, NodeLog held w.pcmIn → NodeLog held r.2.2.1.pcmIn)
      (hframe : ∃ log, r.2.2.1 = { w with pcmIn := log, hw := { w.hw with audpre_index := -1 } })
  | opened (rate : BitVec 32) (hc : checkInArgs a = none) (hrate : acceptedRate p a w.pcmIn = some rate)
      (hin : rate ∈ inputSamplingRates) (hproposal : r.2.1 = none) (hstatus : r.2.2.2 = noError)
      (hfd : r.1.mFd = w.pcmIn.length) (hstate : r.1.mState = .opened) (hhw : r.1.mHardware = true)
      (hrate' : r.1.mSampleRate = rate)
      (hnode : ∀ held, NodeLog held w.pcmIn → NodeLog (fun fd => fd = w.pcmIn.length ∨ held fd) r.2.2.1.pcmIn)
      (hframe : ∃ log, r.2.2.1 = { w with pcmIn := log, hw := { w.hw with
        audpre_index := calculate_audpre_table_index rate } })

theorem inSet_ends {s : AudioStreamIn} (hfd : s.mFd < 0) (devices : Devices) (a : InArgs) (w : World) :
    SetEnds p a s w (inSet p devices a s w) := by
  cases hc : checkInArgs a with
  | some proposal => exact .unchecked proposal hc (by simp [inSet, hc])
  | none =>
    have hno : ¬ 0 ≤ ({ s with mHardware := true } : AudioStreamIn).mFd := not_le.mpr hfd
    have hends : Ends p a { s with mHardware := true } w.pcmIn
        (setFormat p devices a { s with mHardware := true } w.pcmIn) := setFormat_ends
    unfold Ends at hends
    simp only [inSet, hc, if_neg hno]
    generalize setFormat p devices a { s with mHardware := true } w.pcmIn = r at hends ⊢
    cases hrate : acceptedRate p a w.pcmIn with
    | none =>
      rw [hrate] at hends
      rw [if_pos hends.status]
      exact .refused hc hrate hends.status hends.fd hends.state hends.hardware hends.node ⟨_, rfl⟩
    | some rate =>
      rw [hrate] at hends
      dsimp only at hends
      rw [if_neg (not_not.mpr hends.status)]
      by_cases hin : rate ∈ inputSamplingRates
      · rw [hends.rate, if_neg fun hneg => (audpre_index_neg_iff rate).mp hneg hin]
        exact .opened rate hc hrate hin rfl rfl hends.fd rfl hends.hardware rfl hends.node ⟨_, rfl⟩
      · have hclose : ∀ held, NodeLog held w.pcmIn → NodeLog held (closeFd r.stream.mFd r.log) := by
          intro held h
          rw [closeFd, hends.fd, if_pos (Int.natCast_nonneg _)]
          exact h.reclosed (hends.node held h)
        have hneg : calculate_audpre_table_index rate < 0 := (audpre_index_neg_iff rate).mpr hin
        have hinval : einval ≠ noError := by decide
        rw [hends.rate, if_pos hneg, audpre_index_unknown hin]
        exact .unknown rate hc hrate hin hinval rfl rfl hends.hardware rfl hclose ⟨_, rfl⟩

/-- All that a `set` changes besides its stream. -/
theorem inSet_frame (devices : Devices) (a : InArgs) (s : AudioStreamIn) (w : World) : ∃ log index,
    (inSet p devices a s w).2.2.1 = { w with pcmIn := log, hw := { w.hw with audpre_index := index } } := by
  unfold inSet
  split
  · exact ⟨_, _, rfl⟩
  · dsimp only
    repeat' split
    all_goals exact ⟨_, _, rfl⟩

theorem reopen_frame (s : AudioStreamIn) (w : World) : ∃ log index,
    (reopen p s w).2.1 = { w with pcmIn := log, hw := { w.hw with audpre_index := index } } := by
  unfold reopen
  split
  · exact inSet_frame _ _ s w
  · exact ⟨_, _, rfl⟩

/-- `read` takes over what `set` made of the state, the descriptor and the hardware. -/
theorem reopen_closed {s : AudioStreamIn} (hc : s.mState = .closed) (w : World) :
    let r := inSet p s.mDevices ⟨s.mFormat, s.mChannels, s.mSampleRate⟩ s w
    (reopen p s w).1.mState = r.1.mState ∧ (reopen p s w).1.mFd = r.1.mFd ∧
      (reopen p s w).1.mHardware = r.1.mHardware ∧ (reopen p s w).2 = r.2.2 := by
  intro r
  unfold reopen
  rw [if_pos hc]
  dsimp only
  split <;> exact ⟨rfl, rfl, rfl, rfl⟩

/-- The `set` that an operation makes: its devices, its arguments and its stream. -/
def setCall (p : Platform) (w : World) : Op → Option (Devices × InArgs × AudioStreamIn)
  | .openInputStream ptr devices a =>
    if p.isInputDevice devices = false ∨ (w.hw.streams ptr).isSome then none
    else if w.hw.mMode = modeInCall ∧ 8000 < getInputSampleRate a.sampleRate ∧ a.format = pcm16Bit then none
    else some (devices, a, newStreamIn)
  | .read ptr _ _ _ =>
    match w.hw.streams ptr with
    | some s =>
      if s.mHardware = true ∧ s.mState = .closed then
        some (s.mDevices, ⟨s.mFormat, s.mChannels, s.mSampleRate⟩, s)
      else none
    | none => none
  | _ => none

theorem openInputStream_none {ptr : Nat} {devices : Devices} {a : InArgs} {w : World}
    (h : setCall p w (.openInputStream ptr devices a) = none) : (openInputStream p ptr devices a w).1 = w := by
  simp only [setCall] at h
  unfold openInputStream
  split at h
  · rename_i hguard
    rw [if_pos hguard]
  · rename_i hguard
    split at h
    · rename_i hcall
      rw [if_neg hguard, if_pos hcall]
    · cases h

/-- Behind its first checks `openInputStream` is a `set`. -/
theorem openInputStream_called {ptr : Nat} {devices : Devices} {a : InArgs} {w : World}
    (h : setCall p w (.openInputStream ptr devices a) ≠ none) : openInputStream p ptr devices a w =
      let r := inSet p devices a newStreamIn w
      if r.2.2.2 ≠ noError then
        let v := (inStandby p ptr (setStream ptr r.1 r.2.2.1)).1
        ({ v with hw := { v.hw with streams := Function.update v.hw.streams ptr none } }, r.2.1.getD a, r.2.2.2)
      else
        let v := setStream ptr r.1 r.2.2.1
        ({ v with hw := { v.hw with mInputs := v.hw.mInputs.orderedInsert (· ≤ ·) ptr } }, r.2.1.getD a,
          r.2.2.2) := by
  simp only [setCall] at h
  unfold openInputStream
  split at h
  · exact absurd rfl h
  · rename_i hguard
    split at h
    · exact absurd rfl h
    · rename_i hcall
      rw [if_neg hguard, if_neg hcall]

theorem setCall_open {ptr : Nat} {devices : Devices} {a : InArgs} {w : World}
    (h : setCall p w (.openInputStream ptr devices a) ≠ none) :
    setCall p w (.openInputStream ptr devices a) = some (devices, a, newStreamIn) ∧ w.hw.streams ptr = none := by
  simp only [setCall] at h ⊢
  split at h
  · exact absurd rfl h
  · rename_i hguard
    rw [not_or, Option.not_isSome_iff_eq_none] at hguard
    split at h
    · exact absurd rfl h
    · rename_i hcall
      refine ⟨?_, hguard.2⟩
      rw [if_neg (by simp [hguard]), if_neg hcall]

theorem setCall_read {w : World} {ptr : Nat} {s : AudioStreamIn} (hs : w.hw.streams ptr = some s)
    (hhw : s.mHardware = true) (hc : s.mState = .closed) (mem : Records.Memory) (bytes : Nat)
    (answers : List ReadAnswer) :
    setCall p w (.read ptr mem bytes answers) =
      some (s.mDevices, ⟨s.mFormat, s.mChannels, s.mSampleRate⟩, s) := by
  simp only [setCall, hs, if_pos (And.intro hhw hc)]

/-! ## Reading and standby -/

section
variable {ptr : Nat} {s : AudioStreamIn} {w : World}

/-- A stream that was never set does not read. -/
theorem read_idle (hs : w.hw.streams ptr = some s) (hhw : ¬ s.mHardware = true) (mem : Records.Memory) (bytes : Nat)
    (answers : List ReadAnswer) : (AudioStreams.read p ptr mem bytes answers w).1 = w := by
  have hidle : startInput p ptr s w = (w, none) := by
    unfold startInput
    rw [if_pos (Bool.eq_false_iff.mpr hhw)]
  simp only [AudioStreams.read, hs, hidle]

theorem inStandby_idle (hs : w.hw.streams ptr = some s) (hc : s.mState = .closed) :
    recordingOf (inStandby p ptr w).1 = recordingOf w := by
  simp only [inStandby, hs, hc, if_true]
  split
  · rfl
  · exact recordingOf_doRouting none (clearCurDevice w)

/-- The standby of an open stream. -/
theorem inStandby_open (hs : w.hw.streams ptr = some s) (hhw : s.mHardware = true) (hc : s.mState ≠ .closed) :
    recordingOf (inStandby p ptr w).1 = { recordingOf w with
      pcmIn := closeFd s.mFd w.pcmIn, audpre := (msm72xx_enable_preproc p false w).1.audpre,
      streams := Function.update w.hw.streams ptr
        (some { s with mFd := if 0 ≤ s.mFd then -1 else s.mFd, mState := .closed }) } := by
  have hhw' : ¬ s.mHardware = false := by simp [hhw]
  obtain ⟨log, h⟩ := preproc_frame (p := p) false w
  simp only [inStandby, hs, hhw', hc, if_false, h]
  exact recordingOf_doRouting none _

end

end AudioInput
