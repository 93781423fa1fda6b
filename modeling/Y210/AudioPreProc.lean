import Y210.AudioInput

/-!
# The table entry of a recording

`audpre_index` is one member of the HAL. The last `set` of any stream writes it, and the
start, the standby and the destructor of every other stream read it.
-/
namespace AudioPreProc

open AudioDrivers AudioHardware AudioStreams AudioRouting AudioCalls AudioInput

variable {p : Platform}

/-- The filters are loaded and the control device opens. -/
def Issues (p : Platform) (log : List (AudpreCmd × Bool)) : Prop :=
  p.filters.inited = true ∧ p.preprocOpenOk log.length = true

instance (log : List (AudpreCmd × Bool)) : Decidable (Issues p log) := inferInstanceAs (Decidable (_ ∧ _))

/-- The commands of one entry of the tables. -/
def preprocCmds (p : Platform) (i : Int) (state : Bool) : List AudpreCmd :=
  let mask := p.filters.enablePreprocMask i
  (if mask &&& agcEnable ≠ 0 then [.setAgc i (p.filters.txAgcCfg i)] else []) ++
  (if mask &&& nsEnable ≠ 0 then [.setNs i (p.filters.nsCfg i)] else []) ++
  (if mask &&& txIirEnable ≠ 0 then [.setTxIir i (p.filters.txIirCfg i)] else []) ++
  [.enableAudpre (if state then mask else 0)]

/-- A call of `msm72xx_enable_preproc`: the rate of the stream it is for, the subscript it
finds, and its argument. -/
structure PreprocCall where
  rate : BitVec 32
  index : Int
  state : Bool
  deriving DecidableEq

/-- What a call sends; an open that fails sends nothing. -/
def sent (p : Platform) (i : Int) (state : Bool) (log : List (AudpreCmd × Bool)) : List (AudpreCmd × Bool) :=
  if Issues p log then issueAudpre p (preprocCmds p i state) log
  else if p.filters.inited then (.openFailed, false) :: log else log

/-- The call of `standby`. -/
def standbyCall (w : World) (s : AudioStreamIn) : Option PreprocCall :=
  if s.mHardware = true ∧ s.mState ≠ .closed then some ⟨s.mSampleRate, w.hw.audpre_index, false⟩ else none

/-- The call that an operation makes: the standby of an open stream, also in the destructor of a
stream that is closed or rejected, and the start. A start that fails goes to standby. -/
def preprocCall (p : Platform) (w : World) : Op → Option PreprocCall
  | .inStandby ptr => (w.hw.streams ptr).bind (standbyCall w)
  | .closeInputStream ptr => if ptr ∈ w.hw.mInputs then (w.hw.streams ptr).bind (standbyCall w) else none
  | .openInputStream ptr devices a =>
    (setCall p w (.openInputStream ptr devices a)).bind fun c =>
      let r := inSet p c.1 c.2.1 c.2.2 w
      if r.2.2.2 ≠ noError then standbyCall r.2.2.1 r.1 else none
  | .read ptr _ _ _ =>
    (w.hw.streams ptr).bind fun s =>
      let r := reopen p s w
      if s.mHardware = true ∧ r.2.2 = noError ∧ r.1.mState ≠ .started then
        some ⟨r.1.mSampleRate, r.2.1.hw.audpre_index, p.pcmInOk r.2.1.pcmIn.length⟩
      else none
  | _ => none

/-- What an operation sends is of the entry for the stream's own rate. -/
def OwnEntry (p : Platform) (w : World) (op : Op) : Prop :=
  match preprocCall p w op with
  | some c => (step p w op).audpre = sent p (calculate_audpre_table_index c.rate) c.state w.audpre ∧
      (Issues p w.audpre → c.index = calculate_audpre_table_index c.rate ∧ 0 ≤ c.index ∧ c.index ≤ 8)
  | none => (step p w op).audpre = w.audpre

/-! ## The condition -/

/-- The rate with which the `set` of an operation comes to the table. -/
def setRate (p : Platform) (w : World) (op : Op) : Option (BitVec 32) :=
  (setCall p w op).bind fun c =>
    if checkInArgs c.2.1 = none ∧ c.2.2.mFd < 0 then acceptedRate p c.2.1 w.pcmIn else none

/-- A world, and the rate of the last `set` that came to the table, whatever its stream. -/
structure Session where
  world : World
  lastRate : Option (BitVec 32)

def advance (p : Platform) (t : Session) (op : Op) : Session :=
  ⟨step p t.world op, (setRate p t.world op).or t.lastRate⟩

/-- The subscript that such a `set` leaves; 0 before the first one. -/
def tableIndex (lastRate : Option (BitVec 32)) : Int := (lastRate.map calculate_audpre_table_index).getD 0

/-- The last `set` was one for the rate of `s`, and the rate is of the table. -/
def Matches (t : Session) (s : AudioStreamIn) : Prop :=
  s.mSampleRate ∈ inputSamplingRates ∧ tableIndex t.lastRate = calculate_audpre_table_index s.mSampleRate

/-- Only streams that match start without being opened again, or stop; and no new stream gets a
rate outside the table. -/
def OwnRate (p : Platform) (t : Session) (op : Op) : Prop :=
  Issues p t.world.audpre → match op with
    | .openInputStream _ _ _ => ∀ rate ∈ setRate p t.world op, rate ∈ inputSamplingRates
    | .closeInputStream ptr => ptr ∈ t.world.hw.mInputs → ∀ s ∈ t.world.hw.streams ptr,
      s.mHardware = true → s.mState ≠ .closed → Matches t s
    | .read ptr _ _ _ => ∀ s ∈ t.world.hw.streams ptr, s.mHardware = true → s.mState = .opened → Matches t s
    | .inStandby ptr => ∀ s ∈ t.world.hw.streams ptr, s.mHardware = true → s.mState ≠ .closed → Matches t s
    | _ => True

/-! ## What is sent -/

section
variable {w : World} {ptr : Nat} {s : AudioStreamIn}

theorem enable_preproc_audpre (state : Bool) (w : World) :
    (msm72xx_enable_preproc p state w).1.audpre = sent p w.hw.audpre_index state w.audpre := by
  unfold msm72xx_enable_preproc sent Issues
  by_cases hi : p.filters.inited = true
  · by_cases ho : p.preprocOpenOk w.audpre.length = true
    · simp only [hi, ho, Bool.true_eq_false, if_false, and_self, if_true]
      rfl
    · simp [hi, ho]
  · simp [hi]

theorem audpre_inStandby (ptr : Nat) (w : World) : (inStandby p ptr w).1.audpre =
    match (w.hw.streams ptr).bind (standbyCall w) with
    | some c => sent p c.index c.state w.audpre
    | none => w.audpre := by
  cases hs : w.hw.streams ptr with
  | none => simp only [inStandby, hs, Option.bind_none]
  | some s =>
    rw [Option.bind_some, standbyCall]
    by_cases hc : s.mState = .closed
    · rw [if_neg (fun h => h.2 hc)]
      exact congrArg Recording.audpre (inStandby_idle hs hc)
    · by_cases hhw : s.mHardware = true
      · rw [if_pos ⟨hhw, hc⟩]
        refine (congrArg Recording.audpre (inStandby_open hs hhw hc)).trans ?_
        exact enable_preproc_audpre false w
      · rw [if_neg (fun h => hhw h.1)]
        simp only [inStandby, hs, if_pos (Bool.eq_false_iff.mpr hhw)]

theorem index_inStandby (ptr : Nat) (w : World) : (inStandby p ptr w).1.hw.audpre_index = w.hw.audpre_index := by
  cases hs : w.hw.streams ptr with
  | none => simp only [inStandby, hs]
  | some s =>
    by_cases hc : s.mState = .closed
    · exact congrArg Recording.audpre_index (inStandby_idle (p := p) hs hc)
    · by_cases hhw : s.mHardware = true
      · exact congrArg Recording.audpre_index (inStandby_open (p := p) hs hhw hc)
      · simp only [inStandby, hs, if_pos (Bool.eq_false_iff.mpr hhw)]

theorem frame_doRouting (input : Option Devices) (w : World) :
    (doRouting p input w).1.audpre = w.audpre ∧ (doRouting p input w).1.pcmIn = w.pcmIn ∧
      (doRouting p input w).1.hw.audpre_index = w.hw.audpre_index ∧
      (doRouting p input w).1.hw.streams = w.hw.streams := by
  have h := recordingOf_doRouting (p := p) input w
  exact ⟨congrArg Recording.audpre h, congrArg Recording.pcmIn h, congrArg Recording.audpre_index h,
    congrArg Recording.streams h⟩

/-- The start sends the entry, or the standby behind it does. -/
theorem audpre_startDevice (hhw : s.mHardware = true) (ptr : Nat) (w : World) :
    (startDevice p ptr s w).1.audpre = sent p w.hw.audpre_index (p.pcmInOk w.pcmIn.length) w.audpre ∧
      (startDevice p ptr s w).1.hw.audpre_index = w.hw.audpre_index := by
  obtain ⟨haudpre, hpcm, hindex, hstreams⟩ := frame_doRouting (p := p) (some s.mDevices)
    (clearCurDevice (setStream ptr { s with mState := .started } w))
  have hself : (doRouting p (some s.mDevices)
      (clearCurDevice (setStream ptr { s with mState := .started } w))).1.hw.streams ptr =
        some { s with mState := .started } := by
    rw [hstreams]
    exact Function.update_self ..
  unfold startDevice
  dsimp only
  generalize (doRouting p (some s.mDevices) (clearCurDevice (setStream ptr { s with mState := .started } w))).1 = v
    at haudpre hpcm hindex hself ⊢
  have hlen : v.pcmIn.length = w.pcmIn.length := congrArg List.length hpcm
  rw [hlen]
  by_cases hok : p.pcmInOk w.pcmIn.length = true
  · rw [if_neg (by simp [hok])]
    constructor
    · rw [enable_preproc_audpre, hok]
      dsimp only
      rw [haudpre, hindex]
      rfl
    · obtain ⟨log, hpre⟩ := preproc_frame (p := p) true
        { v with pcmIn := .started s.mFd (p.pcmInOk w.pcmIn.length) :: v.pcmIn }
      rw [hpre]
      exact hindex
  · rw [if_pos (Bool.eq_false_iff.mpr hok)]
    constructor
    · rw [audpre_inStandby]
      dsimp only
      rw [hself, Option.bind_some, standbyCall, if_pos ⟨hhw, by simp⟩]
      dsimp only
      rw [haudpre, hindex, Bool.eq_false_iff.mpr hok]
      rfl
    · exact (index_inStandby ptr _).trans hindex

theorem setFormat_hardware (devices : Devices) (a : InArgs) (s : AudioStreamIn) (log : List PcmCall) :
    (setFormat p devices a s log).stream.mHardware = s.mHardware := by
  have h : Ends p a s log (setFormat p devices a s log) := setFormat_ends
  unfold Ends at h
  split at h
  · exact h.hardware
  · exact h.hardware

theorem reopen_hardware (hhw : s.mHardware = true) (w : World) : (reopen p s w).1.mHardware = true := by
  by_cases hc : s.mState = .closed
  · have hset : (inSet p s.mDevices ⟨s.mFormat, s.mChannels, s.mSampleRate⟩ s w).1.mHardware = true := by
      unfold inSet
      split
      · exact hhw
      · dsimp only
        repeat' split
        all_goals first | rfl | exact setFormat_hardware ..
    exact (reopen_closed (p := p) hc w).2.2.1.trans hset
  · rw [reopen, if_neg hc]
    exact hhw

theorem startInput_spec (ptr : Nat) (s : AudioStreamIn) (w : World) :
    ((startInput p ptr s w).1.audpre =
      if s.mHardware = true ∧ (reopen p s w).2.2 = noError ∧ (reopen p s w).1.mState ≠ .started then
        sent p (reopen p s w).2.1.hw.audpre_index (p.pcmInOk (reopen p s w).2.1.pcmIn.length) w.audpre
      else w.audpre) ∧
    (startInput p ptr s w).1.hw.audpre_index =
      if s.mHardware = true then (reopen p s w).2.1.hw.audpre_index else w.hw.audpre_index := by
  unfold startInput
  by_cases hhw : s.mHardware = true
  · have haudpre : (reopen p s w).2.1.audpre = w.audpre := by
      obtain ⟨log, index, hframe⟩ := reopen_frame (p := p) s w
      rw [hframe]
    have hhw' := reopen_hardware (p := p) hhw w
    rw [if_neg (by simp [hhw]), if_pos hhw]
    simp only [hhw, true_and]
    generalize reopen p s w = r at haudpre hhw' ⊢
    obtain ⟨s', v, status⟩ := r
    dsimp only at haudpre hhw' ⊢
    by_cases hok : status = noError
    · rw [if_neg (not_not.mpr hok)]
      by_cases hst : s'.mState = .started
      · rw [if_pos hst, if_neg (fun h => h.2 hst)]
        exact ⟨haudpre, rfl⟩
      · obtain ⟨hlog, hindex⟩ := audpre_startDevice (p := p) hhw' ptr (setStream ptr s' v)
        rw [if_neg hst, if_pos ⟨hok, hst⟩, hlog, hindex, ← haudpre]
        exact ⟨rfl, rfl⟩
    · rw [if_pos hok, if_neg (fun h => hok h.1)]
      exact ⟨haudpre, rfl⟩
  · rw [if_pos (Bool.eq_false_iff.mpr hhw), if_neg (fun h => hhw h.1), if_neg hhw]
    exact ⟨rfl, rfl⟩

/-- The commands and the subscript behind `read`. -/
theorem read_spec (hs : w.hw.streams ptr = some s) (mem : Records.Memory) (bytes : Nat) (answers : List ReadAnswer) :
    (AudioStreams.read p ptr mem bytes answers w).1.audpre = (startInput p ptr s w).1.audpre ∧
      (AudioStreams.read p ptr mem bytes answers w).1.hw.audpre_index =
        (startInput p ptr s w).1.hw.audpre_index := by
  simp only [AudioStreams.read, hs]
  generalize startInput p ptr s w = r
  obtain ⟨v, next⟩ := r
  cases next with
  | none => exact ⟨rfl, rfl⟩
  | some t => exact ⟨rfl, rfl⟩

theorem inSet_index (devices : Devices) (a : InArgs) (s : AudioStreamIn) (w : World) :
    (inSet p devices a s w).2.2.1.hw.audpre_index =
      (((if checkInArgs a = none ∧ s.mFd < 0 then acceptedRate p a w.pcmIn else none).map
        calculate_audpre_table_index).getD w.hw.audpre_index) := by
  by_cases hfd : s.mFd < 0
  · have hends := inSet_ends (p := p) hfd devices a w
    generalize inSet p devices a s w = r at hends ⊢
    cases hends with
    | unchecked proposal hc he => simp [he, hc]
    | refused hc hrate hstatus hfd' hstate hhw hnode hframe =>
      obtain ⟨log, hframe⟩ := hframe
      simp [hc, hfd, hrate, hframe]
    | unknown rate hc hrate hno hstatus hfd' hstate hhw hrate' hnode hframe =>
      obtain ⟨log, hframe⟩ := hframe
      simp [hc, hfd, hrate, hframe, audpre_index_unknown hno]
    | opened rate hc hrate hin hproposal hstatus hfd' hstate hhw hrate' hnode hframe =>
      obtain ⟨log, hframe⟩ := hframe
      simp [hc, hfd, hrate, hframe]
  · rw [if_neg (fun h => hfd h.2)]
    unfold inSet
    split
    · rfl
    · dsimp only
      rw [if_pos (not_lt.mp hfd)]
      rfl

/-- A stream that has a descriptor is not set again. -/
theorem inSet_occupied (hfd : ¬ s.mFd < 0) (devices : Devices) (a : InArgs) (w : World) :
    (inSet p devices a s w).2.2.2 ≠ noError := by
  have hbad : badValue ≠ noError := by decide
  have hperm : eperm ≠ noError := by decide
  unfold inSet
  split
  · exact hbad
  · dsimp only
    rw [if_pos (not_lt.mp hfd)]
    exact hperm

/-! ## One operation -/

theorem audpre_step (op : Op) (w : World) : (step p w op).audpre =
    match preprocCall p w op with
    | some c => sent p c.index c.state w.audpre
    | none => w.audpre := by
  by_cases hop : OnInput op
  · cases op with
    | openInputStream ptr devices a =>
      by_cases hset : setCall p w (.openInputStream ptr devices a) = none
      · simp only [step, openInputStream_none hset, preprocCall, hset, Option.bind_none]
      · obtain ⟨hcall, -⟩ := setCall_open hset
        obtain ⟨log, index, hframe⟩ := inSet_frame (p := p) devices a newStreamIn w
        simp only [step, openInputStream_called hset, preprocCall, hcall, Option.bind_some]
        generalize inSet p devices a newStreamIn w = r at hframe ⊢
        by_cases hok : r.2.2.2 ≠ noError
        · have hself : (setStream ptr r.1 r.2.2.1).hw.streams ptr = some r.1 := Function.update_self ..
          have hlog : (setStream ptr r.1 r.2.2.1).audpre = w.audpre := by
            rw [hframe]
            rfl
          rw [if_pos hok, if_pos hok]
          refine (audpre_inStandby ptr _).trans ?_
          rw [hself, Option.bind_some, hlog]
          rfl
        · rw [if_neg hok, if_neg hok, hframe]
          rfl
    | closeInputStream ptr =>
      simp only [step, closeInputStream, preprocCall]
      by_cases hin : ptr ∈ w.hw.mInputs
      · rw [if_pos hin, if_pos hin]
        exact audpre_inStandby ptr w
      · rw [if_neg hin, if_neg hin]
    | inSetParameters ptr kv =>
      simp only [step, preprocCall]
      cases hd : inputRouting p ptr kv w with
      | none => rw [inSetParameters_none hd]
      | some d =>
        obtain ⟨s, hs, he⟩ := inSetParameters_routes hd
        rw [he]
        exact (frame_doRouting _ _).1
    | read ptr mem bytes answers =>
      rw [step]
      cases hs : w.hw.streams ptr with
      | none => simp only [AudioStreams.read, hs, preprocCall, Option.bind_none]
      | some s =>
        rw [(read_spec hs mem bytes answers).1, (startInput_spec ptr s w).1]
        simp only [preprocCall, hs, Option.bind_some]
        split <;> rfl
    | inStandby ptr => exact audpre_inStandby ptr w
    | _ => exact hop.elim
  · have h := congrArg Recording.audpre (recordingOf_step (p := p) hop w)
    cases op with
    | openInputStream | closeInputStream | inSetParameters | read | inStandby => exact absurd trivial hop
    | _ => exact h

theorem index_step (op : Op) (w : World) : (step p w op).hw.audpre_index =
    ((setRate p w op).map calculate_audpre_table_index).getD w.hw.audpre_index := by
  by_cases hop : OnInput op
  · cases op with
    | openInputStream ptr devices a =>
      by_cases hset : setCall p w (.openInputStream ptr devices a) = none
      · simp only [step, openInputStream_none hset, setRate, hset, Option.bind_none, Option.map_none, Option.getD_none]
      · have hindex := inSet_index (p := p) devices a newStreamIn w
        simp only [step, openInputStream_called hset, setRate, (setCall_open hset).1, Option.bind_some]
        rw [← hindex]
        split
        · exact index_inStandby ptr _
        · rfl
    | closeInputStream ptr =>
      simp only [step, closeInputStream]
      split
      · exact index_inStandby ptr w
      · rfl
    | inSetParameters ptr kv =>
      simp only [step]
      cases hd : inputRouting p ptr kv w with
      | none =>
        rw [inSetParameters_none hd]
        rfl
      | some d =>
        obtain ⟨s, hs, he⟩ := inSetParameters_routes hd
        rw [he]
        exact (frame_doRouting _ _).2.2.1
    | read ptr mem bytes answers =>
      rw [step]
      cases hs : w.hw.streams ptr with
      | none => simp only [AudioStreams.read, hs, setRate, setCall, Option.bind_none, Option.map_none, Option.getD_none]
      | some s =>
        rw [(read_spec hs mem bytes answers).2, (startInput_spec ptr s w).2]
        by_cases hhw : s.mHardware = true
        · rw [if_pos hhw]
          by_cases hc : s.mState = .closed
          · rw [setRate, setCall_read hs hhw hc mem bytes answers, Option.bind_some, ← inSet_index]
            exact congrArg (fun r : World × Status => r.1.hw.audpre_index) (reopen_closed (p := p) hc w).2.2.2
          · have hset : setCall p w (.read ptr mem bytes answers) = none := by
              simp only [setCall, hs, hc, and_false, if_false]
            rw [setRate, hset, reopen, if_neg hc]
            rfl
        · have hset : setCall p w (.read ptr mem bytes answers) = none := by
            simp only [setCall, hs, hhw, Bool.false_eq_true, false_and, if_false]
          rw [if_neg hhw, setRate, hset]
          rfl
    | inStandby ptr => exact index_inStandby ptr w
    | _ => exact hop.elim
  · have h := congrArg Recording.audpre_index (recordingOf_step (p := p) hop w)
    cases op with
    | openInputStream | closeInputStream | inSetParameters | read | inStandby => exact absurd trivial hop
    | _ => exact h

/-- The commands are of the right entry when the subscript is. -/
theorem ownEntry_iff (op : Op) (w : World) : OwnEntry p w op ↔ (Issues p w.audpre → ∀ c ∈ preprocCall p w op,
    c.rate ∈ inputSamplingRates ∧ c.index = calculate_audpre_table_index c.rate) := by
  have hstep := audpre_step (p := p) op w
  have hindex : ∀ c : PreprocCall, (c.index = calculate_audpre_table_index c.rate ∧ 0 ≤ c.index ∧ c.index ≤ 8) ↔
      c.rate ∈ inputSamplingRates ∧ c.index = calculate_audpre_table_index c.rate := by
    intro c
    constructor
    · rintro ⟨he, hlow, -⟩
      refine ⟨?_, he⟩
      by_contra hno
      have hneg := (audpre_index_neg_iff c.rate).mpr hno
      omega
    · rintro ⟨hin, he⟩
      rw [he]
      exact ⟨rfl, audpre_index_bounds hin⟩
  unfold OwnEntry
  cases hc : preprocCall p w op with
  | none =>
    rw [hc] at hstep
    constructor
    · intro _ _ c hc'
      cases hc'
    · intro _
      exact hstep
  | some c =>
    rw [hc] at hstep
    simp only [Option.mem_some_iff, forall_eq', hindex]
    constructor
    · rintro ⟨-, hown⟩
      exact hown
    · intro hown
      refine ⟨?_, hown⟩
      dsimp only at hstep
      by_cases hi : Issues p w.audpre
      · rw [hstep, (hown hi).2]
      · rw [hstep, sent, sent, if_neg hi, if_neg hi]

end

/-! ## Runs -/

section
variable {t : Session}

/-- The subscript is that of the last `set`. -/
def IndexInv (t : Session) : Prop := t.world.hw.audpre_index = tableIndex t.lastRate

theorem indexInv_advance (op : Op) (h : IndexInv t) : IndexInv (advance p t op) := by
  unfold IndexInv at h ⊢
  rw [advance, index_step, h]
  cases setRate p t.world op with
  | none => rfl
  | some rate => rfl

theorem standbyCall_matches (h : IndexInv t) (s : AudioStreamIn) :
    (∀ c ∈ standbyCall t.world s, c.rate ∈ inputSamplingRates ∧ c.index = calculate_audpre_table_index c.rate) ↔
      (s.mHardware = true → s.mState ≠ .closed → Matches t s) := by
  unfold standbyCall Matches
  rw [← h]
  by_cases hopen : s.mHardware = true ∧ s.mState ≠ .closed
  · simp [hopen.1, hopen.2]
  · rw [if_neg hopen]
    constructor
    · intro _ hhw hc
      exact absurd ⟨hhw, hc⟩ hopen
    · intro _ c hc
      cases hc

theorem standby_matches (h : IndexInv t) (ptr : Nat) :
    (∀ c ∈ (t.world.hw.streams ptr).bind (standbyCall t.world),
        c.rate ∈ inputSamplingRates ∧ c.index = calculate_audpre_table_index c.rate) ↔
      ∀ s ∈ t.world.hw.streams ptr, s.mHardware = true → s.mState ≠ .closed → Matches t s := by
  cases hs : t.world.hw.streams ptr with
  | none => simp
  | some s => simpa using standbyCall_matches h s

/-- The opening is wrong only when it leaves a stream that it destroys open. -/
theorem open_matches {ptr : Nat} {devices : Devices} {a : InArgs} :
    (∀ c ∈ preprocCall p t.world (.openInputStream ptr devices a),
        c.rate ∈ inputSamplingRates ∧ c.index = calculate_audpre_table_index c.rate) ↔
      ∀ rate ∈ setRate p t.world (.openInputStream ptr devices a), rate ∈ inputSamplingRates := by
  by_cases hset : setCall p t.world (.openInputStream ptr devices a) = none
  · simp [preprocCall, setRate, hset]
  · obtain ⟨hcall, -⟩ := setCall_open hset
    have hneg : newStreamIn.mFd < 0 := Int.negSucc_lt_zero 0
    have hends := inSet_ends (p := p) hneg devices a t.world
    have hclosed : newStreamIn.mState = .closed := rfl
    simp only [preprocCall, setRate, hcall, Option.bind_some, hneg, and_true]
    generalize inSet p devices a newStreamIn t.world = r at hends ⊢
    unfold standbyCall
    cases hends with
    | unchecked proposal hc he => simp [he, hc, hclosed]
    | refused hc hrate hstatus hfd hstate hhw => simp [hc, hrate, hstate, hclosed]
    | unknown rate hc hrate hno hstatus hfd hstate hhw hrate' =>
      simp [hc, hrate, hno, hstatus, hstate, hhw, hrate']
    | opened rate hc hrate hin hproposal hstatus => simp [hc, hrate, hin, hstatus]

/-- A stream that has just been opened again has its own subscript in place. -/
theorem reopen_own {s : AudioStreamIn} {w : World} (hc : s.mState = .closed) (hok : (reopen p s w).2.2 = noError) :
    (reopen p s w).1.mSampleRate ∈ inputSamplingRates ∧
      (reopen p s w).2.1.hw.audpre_index = calculate_audpre_table_index (reopen p s w).1.mSampleRate := by
  have hbad : badValue ≠ noError := by decide
  have hset : (inSet p s.mDevices ⟨s.mFormat, s.mChannels, s.mSampleRate⟩ s w).2.2.2 = noError := by
    rw [← hok, (reopen_closed (p := p) hc w).2.2.2]
  by_cases hfd : s.mFd < 0
  · have hends := inSet_ends (p := p) hfd s.mDevices ⟨s.mFormat, s.mChannels, s.mSampleRate⟩ w
    unfold reopen
    rw [if_pos hc]
    generalize inSet p s.mDevices ⟨s.mFormat, s.mChannels, s.mSampleRate⟩ s w = r at hends hset ⊢
    cases hends with
    | unchecked proposal hcheck he =>
      subst he
      exact absurd hset hbad
    | refused hcheck hrate hstatus => exact absurd hset hstatus
    | unknown rate hcheck hrate hno hstatus => exact absurd hset hstatus
    | opened rate hcheck hrate hin hproposal hstatus hfd' hstate hhw hrate' hnode hframe =>
      obtain ⟨log, hframe⟩ := hframe
      simp [hproposal, hstatus, hrate', hframe, hin]
  · exact absurd hset (inSet_occupied hfd _ _ w)

/-- A read that has opened its stream again starts with its own entry. -/
theorem read_matches (h : IndexInv t) {ptr : Nat} {mem : Records.Memory} {bytes : Nat} {answers : List ReadAnswer} :
    (∀ c ∈ preprocCall p t.world (.read ptr mem bytes answers),
        c.rate ∈ inputSamplingRates ∧ c.index = calculate_audpre_table_index c.rate) ↔
      ∀ s ∈ t.world.hw.streams ptr, s.mHardware = true → s.mState = .opened → Matches t s := by
  cases hs : t.world.hw.streams ptr with
  | none => simp [preprocCall, hs]
  | some s =>
    simp only [preprocCall, hs, Option.bind_some, Option.mem_some_iff, forall_eq']
    by_cases hc : s.mState = .closed
    · constructor
      · intro _ _ hopen
        rw [hc] at hopen
        cases hopen
      · intro _ c hcall
        split at hcall
        · rename_i hstart
          obtain rfl := Option.some.inj hcall
          exact reopen_own hc hstart.2.1
        · cases hcall
    · have hsame : reopen p s t.world = (s, t.world, noError) := by rw [reopen, if_neg hc]
      rw [hsame]
      unfold Matches
      rw [← h]
      cases hst : s.mState with
      | closed => exact absurd hst hc
      | opened => simp
      | started => simp

theorem ownEntry_iff_ownRate (op : Op) (h : IndexInv t) : OwnEntry p t.world op ↔ OwnRate p t op := by
  rw [ownEntry_iff]
  unfold OwnRate
  refine imp_congr_right fun _ => ?_
  cases op with
  | openInputStream ptr devices a => exact open_matches
  | closeInputStream ptr =>
    simp only [preprocCall]
    by_cases hin : ptr ∈ t.world.hw.mInputs
    · rw [if_pos hin]
      refine (standby_matches h ptr).trans ?_
      exact ⟨fun hm _ => hm, fun hm => hm hin⟩
    · simp [hin]
  | read ptr mem bytes answers => exact read_matches h
  | inStandby ptr => exact standby_matches h ptr
  | _ => exact ⟨fun _ => trivial, fun _ c hc => by cases hc⟩

end

/-- The pre-processing commands are of the entry for the rate of their own stream exactly in the
runs in which streams match when they start or stop. -/
theorem preproc_own_entry_iff_rates_match (p : Platform) (ops : List Op) :
    Run.AllSteps (advance p) (fun t op => OwnEntry p t.world op) ⟨boot p, none⟩ ops ↔
      Run.AllSteps (advance p) (OwnRate p) ⟨boot p, none⟩ ops := by
  have hboot : IndexInv ⟨boot p, none⟩ := rfl
  have hinv : ∀ t op, IndexInv t → IndexInv (advance p t op) := fun t op h => indexInv_advance op h
  exact Run.allSteps_iff_of_invariant IndexInv hinv (fun t op h => ownEntry_iff_ownRate op h) hboot ops

/-- An AAC stream at 16 kHz starts after a voice memo at 8 kHz has been opened. -/
def memoBetween : List Op :=
  [.openInputStream 7 deviceInBuiltinMic ⟨aac, channelInMono, 16000⟩,
    .openInputStream 8 deviceInBuiltinMic ⟨amrNb, channelInMono, 8000⟩, .read 7 (fun _ => 0) 64 []]

/-- It gets the entry of the memo. -/
theorem entry_of_other_stream :
    ¬ Run.AllSteps (advance acceptAll) (fun t op => OwnEntry acceptAll t.world op) ⟨boot acceptAll, none⟩
      memoBetween := by
  intro h
  have hread := (ownEntry_iff _ _).mp h.2.2.1 (by decide +kernel)
  have hcall : preprocCall acceptAll (advance acceptAll (advance acceptAll ⟨boot acceptAll, none⟩
      (.openInputStream 7 deviceInBuiltinMic ⟨aac, channelInMono, 16000⟩))
      (.openInputStream 8 deviceInBuiltinMic ⟨amrNb, channelInMono, 8000⟩)).world
        (.read 7 (fun _ => 0) 64 []) = some ⟨16000, 0, true⟩ := by
    decide +kernel
  exact absurd (hread _ hcall).2 (by decide)

end AudioPreProc
