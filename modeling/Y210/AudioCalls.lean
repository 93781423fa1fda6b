import Y210.AudioRouting
import Y210.Run

/-!
# The calls behind the operations

The operations of clients are sequences of a few calls on the object. A law that
every call keeps therefore holds in every state a client can reach.
-/
namespace AudioCalls

open AudioDrivers AudioHardware AudioStreams AudioRouting

/-- What the recording side stores; no route and no filter reads it. -/
structure Recording where
  pcmIn : List PcmCall
  audpre : List (AudpreCmd × Bool)
  audpre_index : Int
  mInputs : List Nat
  streams : Nat → Option AudioStreamIn

/-- A call on the object. `reroute` is `doRouting` behind `clearCurDevice`, as the start
and the standby of an input make it; `setFm` is the end of `setParameters`, the `fm_on`
and `fm_off` pairs and the `doRouting` after them. -/
inductive Call where
  | setMode (mode : Int)
  | setMicMute (state : Bool)
  | doRouting (input : Option Devices)
  | reroute (input : Option Devices)
  | setFm (on off : Bool)
  | setSettings (nrec : Bool) (id : BitVec 32) (dualMic : Bool) (tty : TtyMode)
  | setVoiceVolume (v : ℚ)
  | setFmVolume (v : ℚ)
  | openOutputStream (devices : Devices) (a : OutArgs)
  | closeOutputStream
  | setOutDevices (devices : Devices)
  | write (buffer : List (BitVec 8)) (answers : List WriteAnswer)
  | outStandby
  | record (r : Recording)
  | setProperty (value : String)

/-- The flag and the FM session after an `fm_on` and an `fm_off` pair. -/
def switchFm (p : Platform) (on off : Bool) (w : World) : World :=
  let w := if on then setFmOnOff p true w else w
  if off then setFmOnOff p false w else w

def setSettings (nrec : Bool) (id : BitVec 32) (dualMic : Bool) (tty : TtyMode) (w : World) : World :=
  { w with hw := { w.hw with
    mBluetoothNrec := nrec, mBluetoothId := id, mDualMicEnabled := dualMic, mTtyMode := tty } }

def setOutDevices (devices : Devices) (w : World) : World :=
  match w.hw.mOutput with
  | none => w
  | some out => setOut { out with mDevices := devices } w

def record (r : Recording) (w : World) : World :=
  { w with pcmIn := r.pcmIn, audpre := r.audpre, hw := { w.hw with
    audpre_index := r.audpre_index, mInputs := r.mInputs, streams := r.streams } }

def call (p : Platform) (w : World) : Call → World
  | .setMode mode => setMode p mode w
  | .setMicMute state => (setMicMute p state w).1
  | .doRouting input => (doRouting p input w).1
  | .reroute input => (doRouting p input (clearCurDevice w)).1
  | .setFm on off => (doRouting p none (switchFm p on off w)).1
  | .setSettings nrec id dualMic tty => setSettings nrec id dualMic tty w
  | .setVoiceVolume v => setVoiceVolume p v w
  | .setFmVolume v => (setFmVolume p v w).1
  | .openOutputStream devices a => (openOutputStream devices a w).1
  | .closeOutputStream => closeOutputStream w
  | .setOutDevices devices => setOutDevices devices w
  | .write buffer answers => (write p buffer answers w).1
  | .outStandby => outStandby p w
  | .record r => record r w
  | .setProperty value => { w with headsetPostproc := value }

/-- Every call but the two that answer to a mute or an input routing pair. -/
def Plain : Call → Prop
  | .setMicMute _ => False
  | .doRouting input => input = none
  | _ => True

/-- The FM flag after both pairs. -/
def switchedFm (on off fm : Bool) : Bool := if off then false else on || fm

theorem setFmOnOff_frame (p : Platform) (onoff : Bool) (w : World) :
    ∃ log fd, setFmOnOff p onoff w =
      { w with fm := log, hw := { w.hw with mFmRadioEnabled := onoff, fmfd := fd } } := by
  unfold setFmOnOff run_fm_audmgr_session
  dsimp only
  repeat' split
  all_goals exact ⟨_, _, rfl⟩

theorem switchFm_frame (p : Platform) (on off : Bool) (w : World) :
    ∃ log fd, switchFm p on off w = { w with fm := log, hw := { w.hw with
      mFmRadioEnabled := switchedFm on off w.hw.mFmRadioEnabled, fmfd := fd } } := by
  obtain ⟨log, fd, h⟩ := setFmOnOff_frame p true w
  cases on with
  | false =>
    cases off with
    | false => exact ⟨_, _, rfl⟩
    | true => exact setFmOnOff_frame p false w
  | true =>
    cases off with
    | false => exact ⟨log, fd, h⟩
    | true =>
      obtain ⟨log', fd', h'⟩ := setFmOnOff_frame p false (setFmOnOff p true w)
      refine ⟨log', fd', ?_⟩
      simp only [switchFm, switchedFm, if_true, h']
      rw [h]

/-! ## Every operation is a sequence of calls -/

variable {p : Platform}

/-- `w'` is what plain calls make of `w`. -/
abbrev Follows (p : Platform) (w w' : World) : Prop := Run.Reaches (call p) Plain w w'

/-- The plain calls that neither open, write, stop nor close the output stream. -/
def Aside : Call → Prop
  | .openOutputStream _ _ | .closeOutputStream | .write _ _ | .outStandby => False
  | c => Plain c

theorem Aside.plain {c : Call} (h : Aside c) : Plain c := by
  cases c with
  | openOutputStream | closeOutputStream | write | outStandby => exact h.elim
  | _ => exact h

/-- `w'` is what such calls make of `w`. -/
abbrev Passes (p : Platform) (w w' : World) : Prop := Run.Reaches (call p) Aside w w'

/-- Only the recording side differs. -/
def Recorded (w w' : World) : Prop := ∃ r, w' = record r w

theorem Recorded.refl (w : World) : Recorded w w :=
  ⟨⟨w.pcmIn, w.audpre, w.hw.audpre_index, w.hw.mInputs, w.hw.streams⟩, rfl⟩

theorem Recorded.trans {a b c : World} (h₁ : Recorded a b) (h₂ : Recorded b c) : Recorded a c := by
  obtain ⟨r, rfl⟩ := h₁
  obtain ⟨r', rfl⟩ := h₂
  exact ⟨r', rfl⟩

theorem Recorded.passes {w w' : World} (h : Recorded w w') : Passes p w w' := by
  obtain ⟨r, rfl⟩ := h
  exact Run.Reaches.single (i := Call.record r) trivial

theorem setStream_recorded (ptr : Nat) (s : AudioStreamIn) (w : World) :
    Recorded w (setStream ptr s w) := ⟨⟨_, _, _, _, _⟩, rfl⟩

theorem streams_recorded (f : Nat → Option AudioStreamIn) (l : List Nat) (w : World) :
    Recorded w { w with hw := { w.hw with streams := f, mInputs := l } } := ⟨⟨_, _, _, _, _⟩, rfl⟩

theorem pcmIn_recorded (log : List PcmCall) (w : World) : Recorded w { w with pcmIn := log } :=
  ⟨⟨_, _, _, _, _⟩, rfl⟩

theorem preproc_recorded (state : Bool) (w : World) :
    Recorded w (msm72xx_enable_preproc p state w).1 := by
  obtain ⟨log, h⟩ := preproc_frame (p := p) state w
  rw [h]
  exact ⟨⟨_, _, _, _, _⟩, rfl⟩

theorem inSet_recorded (devices : Devices) (a : InArgs) (s : AudioStreamIn) (w : World) :
    Recorded w (inSet p devices a s w).2.2.1 := by
  unfold inSet
  cases checkInArgs a with
  | some proposal => exact .refl w
  | none =>
    dsimp only
    by_cases hfd : 0 ≤ s.mFd
    · rw [if_pos hfd]
      exact .refl w
    · rw [if_neg hfd]
      repeat' split
      all_goals exact ⟨⟨_, _, _, _, _⟩, rfl⟩

/-- `standby` of an input: bookkeeping, then the output's route again. -/
theorem inStandby_passes (ptr : Nat) (w : World) : Passes p w (inStandby p ptr w).1 := by
  unfold inStandby
  cases hs : w.hw.streams ptr with
  | none => exact .refl w
  | some s =>
    dsimp only
    by_cases hh : s.mHardware = false
    · rw [if_pos hh]
      exact .refl w
    · rw [if_neg hh]
      have hroute : ∀ v, Recorded w v → Passes p w (doRouting p none (clearCurDevice v)).1 :=
        fun v hv => hv.passes.trans (Run.Reaches.single (i := Call.reroute none) trivial)
      by_cases hc : s.mState = .closed
      · rw [if_pos hc]
        exact hroute w (.refl w)
      · rw [if_neg hc]
        refine hroute _ (((preproc_recorded (p := p) false w).trans ?_).trans (setStream_recorded ptr _ _))
        exact pcmIn_recorded _ _

theorem reopen_recorded (s : AudioStreamIn) (w : World) : Recorded w (reopen p s w).2.1 := by
  unfold reopen
  by_cases hc : s.mState = .closed
  · rw [if_pos hc]
    exact inSet_recorded _ _ _ _
  · rw [if_neg hc]
    exact .refl w

theorem startDevice_passes (ptr : Nat) (s : AudioStreamIn) (w : World) :
    Passes p w (startDevice p ptr s w).1 := by
  unfold startDevice
  dsimp only
  have hroute := ((setStream_recorded ptr { s with mState := .started } w).passes (p := p)).trans
    (Run.Reaches.single (i := Call.reroute (some s.mDevices)) trivial)
  have hstart := fun log => hroute.trans (pcmIn_recorded log _).passes
  split
  · exact (hstart _).trans (inStandby_passes ptr _)
  · exact (hstart _).trans (preproc_recorded true _).passes

/-- The start of a `read`: bookkeeping, and when the device is started its route. -/
theorem startInput_passes (ptr : Nat) (s : AudioStreamIn) (w : World) :
    Passes p w (startInput p ptr s w).1 := by
  unfold startInput
  by_cases hh : s.mHardware = false
  · rw [if_pos hh]
    exact .refl w
  · rw [if_neg hh]
    have hopen := ((reopen_recorded (p := p) s w).trans
      (setStream_recorded ptr (reopen p s w).1 _)).passes (p := p)
    dsimp only
    split
    · exact hopen
    · split
      · exact hopen
      · exact hopen.trans (startDevice_passes ptr _ _)

theorem read_passes (ptr : Nat) (mem : Records.Memory) (bytes : Nat) (answers : List ReadAnswer)
    (w : World) : Passes p w (AudioStreams.read p ptr mem bytes answers w).1 := by
  unfold AudioStreams.read
  cases hs : w.hw.streams ptr with
  | none => exact .refl w
  | some s =>
    have hstart := startInput_passes (p := p) ptr s w
    dsimp only
    cases hr : startInput p ptr s w with
    | mk w₁ r =>
      rw [hr] at hstart
      cases r with
      | none => exact hstart
      | some s₁ =>
        refine hstart.trans (Recorded.passes ((pcmIn_recorded _ _).trans (setStream_recorded ptr _ _)))

theorem openInputStream_passes (ptr : Nat) (devices : Devices) (a : InArgs) (w : World) :
    Passes p w (openInputStream p ptr devices a w).1 := by
  unfold openInputStream
  split
  · exact .refl w
  · split
    · exact .refl w
    · have hset := ((inSet_recorded (p := p) devices a newStreamIn w).trans
        (setStream_recorded ptr (inSet p devices a newStreamIn w).1 _)).passes (p := p)
      dsimp only
      split
      · exact (hset.trans (inStandby_passes ptr _)).trans (streams_recorded _ _ _).passes
      · exact hset.trans (streams_recorded _ _ _).passes

theorem closeInputStream_passes (ptr : Nat) (w : World) :
    Passes p w (closeInputStream p ptr w) := by
  unfold closeInputStream
  split
  · exact (inStandby_passes ptr w).trans (streams_recorded _ _ _).passes
  · exact .refl w

/-- The calls that `setParameters` of the object and of an output is made of. -/
def Settles : Call → Prop
  | .doRouting input => input = none
  | .setFm _ _ | .setSettings _ _ _ _ | .setOutDevices _ => True
  | _ => False

theorem Settles.aside {c : Call} (h : Settles c) : Aside c := by
  cases c with
  | doRouting | setFm | setSettings | setOutDevices => exact h
  | _ => exact h.elim

/-- `w'` is what such calls make of `w`. -/
abbrev SettlesTo (p : Platform) (w w' : World) : Prop := Run.Reaches (call p) Settles w w'

/-- Only members that `setParameters` stores differ. -/
def Stored (w w' : World) : Prop := ∃ nrec id dualMic tty, w' = setSettings nrec id dualMic tty w

theorem Stored.settles {w w' : World} (h : Stored w w') : SettlesTo p w w' := by
  obtain ⟨nrec, id, dualMic, tty, rfl⟩ := h
  exact Run.Reaches.single (i := Call.setSettings nrec id dualMic tty) trivial

theorem setNrec_stored (value : Option String) (w : World) :
    Stored w { w with hw := setNrec value w.hw } := by
  cases value <;> exact ⟨_, _, _, _, rfl⟩

theorem setTty_stored (value : Option String) (w : World) :
    Stored w { w with hw := setTty value w.hw } := by
  cases value <;> exact ⟨_, _, _, _, rfl⟩

theorem routeOutput_settles (w : World) : SettlesTo p w (doRouting p none w).1 :=
  Run.Reaches.single (i := Call.doRouting none) rfl

theorem setBtName_settles (value : Option String) (w : World) :
    SettlesTo p w (setBtName p value w) := by
  cases value with
  | none => exact .refl w
  | some v =>
    have hid : SettlesTo p w { w with hw := { w.hw with mBluetoothId := bluetoothId p v } } :=
      Stored.settles ⟨_, _, _, _, rfl⟩
    unfold setBtName
    dsimp only
    split
    · exact hid.trans (routeOutput_settles _)
    · exact hid

theorem setDualMic_settles (value : Option String) (w : World) :
    SettlesTo p w (setDualMic p value w) := by
  cases value with
  | none => exact .refl w
  | some v =>
    have hb : SettlesTo p w { w with hw := { w.hw with mDualMicEnabled := v = "true" } } :=
      Stored.settles ⟨_, _, _, _, rfl⟩
    exact hb.trans (routeOutput_settles _)

theorem setParameters_settles (kv : KeyValues) (w : World) :
    SettlesTo p w (setParameters p kv w).1 := by
  unfold setParameters
  split
  · exact .refl w
  · have hstored := (((setNrec_stored (kv.get "bt_headset_nrec") w).settles (p := p)).trans
      (setBtName_settles (kv.get "bt_headset_name") _)).trans
        (setDualMic_settles (kv.get "dualmic_enabled") _)
    have htty := hstored.trans (setTty_stored (kv.get "tty_mode") _).settles
    dsimp only
    split
    · exact htty
    · exact htty.trans (Run.Reaches.single (i := Call.setFm (kv.getInt p "fm_on").isSome
        (kv.getInt p "fm_off").isSome) trivial)

theorem outSetParameters_settles (kv : KeyValues) (w : World) :
    SettlesTo p w (outSetParameters p kv w).1 := by
  unfold outSetParameters
  cases ho : w.hw.mOutput with
  | none => exact .refl w
  | some out =>
    cases hk : kv.getInt p "routing" with
    | none => exact .refl w
    | some device =>
      have hset : SettlesTo p w (setOut { out with mDevices := BitVec.ofInt 32 device } w) := by
        have h : SettlesTo p w (setOutDevices (BitVec.ofInt 32 device) w) :=
          Run.Reaches.single (i := Call.setOutDevices (BitVec.ofInt 32 device)) trivial
        simpa only [setOutDevices, ho] using h
      exact (hset.trans (setParameters_settles kv _)).trans (routeOutput_settles _)

/-- The operations on the output stream itself. -/
def OnOutput : Op → Prop
  | .openOutputStream _ _ | .closeOutputStream | .write _ _ | .outStandby => True
  | _ => False

/-- The other operations but two are sequences of calls that leave the output stream aside. -/
theorem step_passes {op : Op} (ho : ¬ OnOutput op) (hm : ∀ state, op ≠ .setMicMute state)
    (hr : ∀ ptr kv, op ≠ .inSetParameters ptr kv) (w : World) : Passes p w (step p w op) := by
  cases op with
  | openOutputStream | closeOutputStream | write | outStandby => exact absurd trivial ho
  | setMicMute state => exact absurd rfl (hm state)
  | inSetParameters ptr kv => exact absurd rfl (hr ptr kv)
  | setParameters kv => exact (setParameters_settles kv w).mono fun _ => Settles.aside
  | outSetParameters kv => exact (outSetParameters_settles kv w).mono fun _ => Settles.aside
  | openInputStream ptr devices a => exact openInputStream_passes ptr devices a w
  | closeInputStream ptr => exact closeInputStream_passes ptr w
  | read ptr mem bytes answers => exact read_passes ptr mem bytes answers w
  | inStandby ptr => exact inStandby_passes ptr w
  | setMode mode => exact Run.Reaches.single (i := Call.setMode mode) trivial
  | setVoiceVolume v => exact Run.Reaches.single (i := Call.setVoiceVolume v) trivial
  | setFmVolume v => exact Run.Reaches.single (i := Call.setFmVolume v) trivial
  | setProperty value => exact Run.Reaches.single (i := Call.setProperty value) trivial

/-- Every operation but two is a sequence of plain calls. -/
theorem step_follows {op : Op} (hm : ∀ state, op ≠ .setMicMute state)
    (hr : ∀ ptr kv, op ≠ .inSetParameters ptr kv) (w : World) : Follows p w (step p w op) := by
  by_cases ho : OnOutput op
  · cases op with
    | openOutputStream devices a => exact Run.Reaches.single (i := Call.openOutputStream devices a) trivial
    | closeOutputStream => exact Run.Reaches.single (i := Call.closeOutputStream) trivial
    | write buffer answers => exact Run.Reaches.single (i := Call.write buffer answers) trivial
    | outStandby => exact Run.Reaches.single (i := Call.outStandby) trivial
    | _ => exact ho.elim
  · exact (step_passes ho hm hr w).mono fun _ => Aside.plain

/-- The device that a routing pair moves an input to; several bits at once are refused. -/
def inputRouting (p : Platform) (ptr : Nat) (kv : KeyValues) (w : World) : Option Devices :=
  match w.hw.streams ptr, kv.getInt p "routing" with
  | some _, some device =>
    if BitVec.ofInt 32 device &&& (BitVec.ofInt 32 device - 1) ≠ (0 : Devices) then none
    else some (BitVec.ofInt 32 device)
  | _, _ => none

/-- Without such a device the call changes nothing. -/
theorem inSetParameters_none {ptr : Nat} {kv : KeyValues} {w : World}
    (h : inputRouting p ptr kv w = none) : (inSetParameters p ptr kv w).1 = w := by
  unfold inSetParameters
  cases hs : w.hw.streams ptr with
  | none => rfl
  | some s =>
    cases hk : kv.getInt p "routing" with
    | none => rfl
    | some device =>
      by_cases hd : BitVec.ofInt 32 device &&& (BitVec.ofInt 32 device - 1) ≠ (0 : Devices)
      · simp only [if_pos hd]
      · simp only [inputRouting, hs, hk, if_neg hd, reduceCtorEq] at h

/-- With one, the call stores it and is a `doRouting` for it. -/
theorem inSetParameters_routes {ptr : Nat} {kv : KeyValues} {w : World} {d : Devices}
    (h : inputRouting p ptr kv w = some d) :
    ∃ s, w.hw.streams ptr = some s ∧ (inSetParameters p ptr kv w).1 =
      (doRouting p (some d) (setStream ptr { s with mDevices := d } w)).1 := by
  unfold inSetParameters
  cases hs : w.hw.streams ptr with
  | none => simp [inputRouting, hs] at h
  | some s =>
    cases hk : kv.getInt p "routing" with
    | none => simp [inputRouting, hs, hk] at h
    | some device =>
      by_cases hd : BitVec.ofInt 32 device &&& (BitVec.ofInt 32 device - 1) ≠ (0 : Devices)
      · simp only [inputRouting, hs, hk, if_pos hd, reduceCtorEq] at h
      · simp only [inputRouting, hs, hk, if_neg hd, Option.some.injEq] at h
        subst h
        refine ⟨s, rfl, ?_⟩
        simp only [if_neg hd]

theorem inSetParameters_some {ptr : Nat} {kv : KeyValues} {w : World} {d : Devices}
    (h : inputRouting p ptr kv w = some d) :
    ∃ v, Recorded w v ∧ (inSetParameters p ptr kv w).1 = (doRouting p (some d) v).1 := by
  obtain ⟨s, -, he⟩ := inSetParameters_routes h
  exact ⟨_, setStream_recorded ptr { s with mDevices := d } w, he⟩

/-- Only `setMicMute` itself makes a mute change. -/
theorem step_keeps_mute {op : Op} (hm : ∀ state, op ≠ .setMicMute state) (w : World) :
    Run.Reaches (call p) (fun c => ∀ state, c ≠ .setMicMute state) w (step p w op) := by
  have hplain : ∀ {v}, Follows p w v →
      Run.Reaches (call p) (fun c => ∀ state, c ≠ .setMicMute state) w v := fun h =>
    h.mono fun c hc state he => by
      rw [he] at hc
      exact hc
  by_cases hr : ∃ ptr kv, op = .inSetParameters ptr kv
  · obtain ⟨ptr, kv, rfl⟩ := hr
    change Run.Reaches _ _ w (inSetParameters p ptr kv w).1
    cases hd : inputRouting p ptr kv w with
    | none =>
      rw [inSetParameters_none hd]
      exact .refl w
    | some d =>
      obtain ⟨v, hv, he⟩ := inSetParameters_some hd
      rw [he]
      have hset := hplain (hv.passes.mono fun _ => Aside.plain)
      exact hset.trans (Run.Reaches.single (i := Call.doRouting (some d)) nofun)
  · exact hplain (step_follows hm (fun ptr kv h => hr ⟨ptr, kv, h⟩) w)

/-- Every operation is a sequence of calls. -/
theorem step_reaches (op : Op) (w : World) :
    Run.Reaches (call p) (fun _ => True) w (step p w op) := by
  by_cases hm : ∃ state, op = .setMicMute state
  · obtain ⟨state, rfl⟩ := hm
    exact Run.Reaches.single (i := Call.setMicMute state) trivial
  · exact (step_keeps_mute (fun state h => hm ⟨state, h⟩) w).mono fun _ _ => trivial

/-- A law that every call keeps holds in every state of every run of operations. -/
theorem holds_in_runs (Inv : World → Prop) (hstep : ∀ w c, Inv w → Inv (call p w c)) {w : World}
    (h : Inv w) (ops : List Op) : Run.AllStates (step p) Inv w ops :=
  Run.allStates_of_invariant (fun w op hw => (step_reaches op w).preserves Inv
    (fun w c _ => hstep w c) hw) h ops

/-! ## The routes that calls make -/

/-- The `doRouting` that a call makes: its input and the state it starts in. -/
def routing (p : Platform) (w : World) : Call → Option (World × Option Devices)
  | .doRouting input => some (w, input)
  | .reroute input => some (clearCurDevice w, input)
  | .setFm on off => some (switchFm p on off w, none)
  | _ => none

theorem call_routing {w : World} {c : Call} {r : World × Option Devices} (h : r ∈ routing p w c) :
    call p w c = (doRouting p r.2 r.1).1 := by
  cases c with
  | doRouting i | reroute i | setFm on off =>
    obtain rfl := Option.some.inj h
    rfl
  | _ => cases h

/-! ## Calls that leave the route alone -/

/-- What the mutes and the pins are decided on, and what they were set to, is the same. -/
structure SameRoute (dev : SndDevices) (w w' : World) : Prop where
  mMode : w'.hw.mMode = w.hw.mMode
  mMicMute : w'.hw.mMicMute = w.hw.mMicMute
  mBuiltinMicSelected : w'.hw.mBuiltinMicSelected = w.hw.mBuiltinMicSelected
  mFmRadioEnabled : w'.hw.mFmRadioEnabled = w.hw.mFmRadioEnabled
  mFmPrev : w'.hw.mFmPrev = w.hw.mFmPrev
  mCurSndDevice : w'.hw.mCurSndDevice = w.hw.mCurSndDevice
  mActSndDevice : w'.hw.mActSndDevice = w.hw.mActSndDevice
  config : routeConfig (dev .current) w'.snd = routeConfig (dev .current) w.snd
  accepted : lastAccepted w'.snd = lastAccepted w.snd
  i2c : w'.i2c = w.i2c

theorem SameRoute.refl (w : World) : SameRoute p.dev w w := ⟨rfl, rfl, rfl, rfl, rfl, rfl, rfl, rfl, rfl, rfl⟩

/-- A call that neither routes nor moves a member that routing depends on. -/
def Quiet : Call → Prop
  | .setMode _ | .setMicMute _ | .doRouting _ | .reroute _ | .setFm _ _ => False
  | _ => True

/-- Only the playback side differs. -/
def Played (w w' : World) : Prop :=
  ∃ out playing audpp pcmOut, w' = { w with audpp := audpp, pcmOut := pcmOut, hw := { w.hw with
    mOutput := out, playback_in_progress := playing } }

theorem Played.refl (w : World) : Played w w := ⟨_, _, _, _, rfl⟩

theorem Played.trans {a b c : World} (h₁ : Played a b) (h₂ : Played b c) : Played a c := by
  obtain ⟨_, _, _, _, rfl⟩ := h₁
  obtain ⟨_, _, _, _, rfl⟩ := h₂
  exact ⟨_, _, _, _, rfl⟩

theorem Played.sameRoute {w w' : World} (h : Played w w') : SameRoute p.dev w w' := by
  obtain ⟨_, _, _, _, rfl⟩ := h
  exact ⟨rfl, rfl, rfl, rfl, rfl, rfl, rfl, rfl, rfl, rfl⟩

theorem postproc_played (state : Bool) (w : World) :
    Played w (msm72xx_enable_postproc p state w).1 := by
  obtain ⟨log, h⟩ := postproc_frame (p := p) state w
  rw [h]
  exact ⟨_, _, _, _, rfl⟩

/-- What the parts of playback keep: assignments to the stream and its node, and the switch of the
filters. -/
structure PlaybackLaw (p : Platform) (R : World → World → Prop) : Prop where
  aside : ∀ w out playing log, R w { w with pcmOut := log, hw := { w.hw with
    mOutput := out, playback_in_progress := playing } }
  postproc : ∀ state w, R w (msm72xx_enable_postproc p state w).1
  trans : ∀ {a b c}, R a b → R b c → R a c

section
variable {R : World → World → Prop} (h : PlaybackLaw p R)
include h

theorem PlaybackLaw.refl (w : World) : R w w := h.aside w _ _ _

theorem PlaybackLaw.startPlayback (bytes : Nat) (out : AudioStreamOut) (w : World) :
    R w (startPlayback p bytes out w).1 := by
  unfold AudioStreams.startPlayback
  split
  · exact h.refl w
  · split
    · exact h.aside w _ _ _
    · dsimp only
      split
      · exact h.trans (h.aside w _ _ _) (h.postproc true _)
      · exact h.trans (h.aside w _ _ _) (h.postproc false _)

theorem PlaybackLaw.playBuffer (buffer : List (BitVec 8)) (answers : List WriteAnswer) (out : AudioStreamOut)
    (w : World) : R w (playBuffer p buffer answers out w).1 := by
  unfold AudioStreams.playBuffer
  split
  · exact h.refl w
  · dsimp only
    split
    · exact h.aside w _ _ _
    · exact h.aside w _ _ _
    · exact h.trans (h.aside w _ _ _) (h.startPlayback _ _ _)

theorem PlaybackLaw.write (buffer : List (BitVec 8)) (answers : List WriteAnswer) (w : World) :
    R w (write p buffer answers w).1 := by
  unfold AudioStreams.write
  cases ho : w.hw.mOutput with
  | none => exact h.refl w
  | some out =>
    dsimp only
    split
    · split
      · exact h.aside w _ _ _
      · exact h.trans (h.aside w _ _ _) (h.playBuffer _ _ _ _)
    · exact h.playBuffer _ _ _ _

theorem PlaybackLaw.outStandby (w : World) : R w (outStandby p w) := by
  unfold AudioStreams.outStandby
  cases ho : w.hw.mOutput with
  | none => exact h.refl w
  | some out =>
    dsimp only
    split
    · exact h.trans (h.postproc false w) (h.aside _ _ _ _)
    · exact h.aside w _ _ _

end

theorem played_law : PlaybackLaw p Played :=
  ⟨fun _ _ _ _ => ⟨_, _, _, _, rfl⟩, postproc_played, Played.trans⟩

theorem openOutputStream_played (devices : Devices) (a : OutArgs) (w : World) :
    Played w (openOutputStream devices a w).1 := by
  unfold openOutputStream
  repeat' split
  · exact .refl w
  · exact ⟨_, _, _, _, rfl⟩
  · exact .refl w

theorem closeOutputStream_played (w : World) : Played w (closeOutputStream w) := by
  unfold closeOutputStream
  split
  · exact ⟨_, _, _, _, rfl⟩
  · exact .refl w

theorem setOutDevices_played (devices : Devices) (w : World) : Played w (setOutDevices devices w) := by
  unfold setOutDevices
  split
  · exact .refl w
  · exact ⟨_, _, _, _, rfl⟩

theorem set_volume_rpc_sameRoute (device : Int) (method volume : Nat) (w : World) :
    SameRoute p.dev w (set_volume_rpc p device method volume w).1 := by
  unfold set_volume_rpc sndSetVolume
  repeat' split
  · exact .refl w
  all_goals
    rename_i h
    obtain ⟨rfl, -⟩ := Prod.mk.inj h
    exact ⟨rfl, rfl, rfl, rfl, rfl, rfl, rfl, rfl, rfl, rfl⟩

theorem quiet_sameRoute {c : Call} (hc : Quiet c) (w : World) : SameRoute p.dev w (call p w c) := by
  cases c with
  | setMode | setMicMute | doRouting | reroute | setFm => exact hc.elim
  | setSettings | record | setProperty => exact ⟨rfl, rfl, rfl, rfl, rfl, rfl, rfl, rfl, rfl, rfl⟩
  | setVoiceVolume v => exact set_volume_rpc_sameRoute _ _ _ _
  | setFmVolume v =>
    have h := set_volume_rpc_sameRoute (p := p) (p.dev .current) sndMethodVoice (fmLevel p v)
      { w with hw := { w.hw with mFmVolume := fmLevel p v } }
    exact ⟨h.1, h.2, h.3, h.4, h.5, h.6, h.7, h.8, h.9, h.10⟩
  | openOutputStream devices a => exact (openOutputStream_played devices a w).sameRoute
  | closeOutputStream => exact (closeOutputStream_played w).sameRoute
  | setOutDevices devices => exact (setOutDevices_played devices w).sameRoute
  | write buffer answers => exact (played_law.write buffer answers w).sameRoute
  | outStandby => exact (played_law.outStandby w).sameRoute

end AudioCalls
