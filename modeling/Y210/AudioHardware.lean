import Mathlib.Data.List.Sort
import Y210.AudioDrivers
import Y210.CString

/-!
# AudioHardware: routing, mutes and post-processing

The members of `AudioHardware`, the streams it owns, and the functions that
decide what the sound driver is asked for. A function of the class takes the
`World`, the object together with the drivers below it, and returns the next one.
-/
namespace AudioHardware

open AudioDrivers

inductive TtyMode where
  | off | vco | hco | full
  deriving DecidableEq, Repr

/-- `AudioStreamOutMSM72xx`. -/
structure AudioStreamOut where
  mFd : Int
  mStartCount : Nat
  mRetryCount : Nat
  mStandby : Bool
  mDevices : Devices
  deriving DecidableEq, Repr

/-- `input_state`. -/
inductive InputState where
  | closed | opened | started
  deriving DecidableEq, Repr

/-- `AudioStreamInMSM72xx`. `mHardware` says whether the pointer has been set. -/
structure AudioStreamIn where
  mHardware : Bool
  mFd : Int
  mState : InputState
  mRetryCount : Nat
  mFormat : Int
  mChannels : BitVec 32
  mSampleRate : BitVec 32
  mBufferSize : Nat
  mDevices : Devices
  mFirstread : Bool
  deriving DecidableEq, Repr

/-- The members of `AudioHardware`; `streams` is the heap of input streams by address. -/
structure Hal where
  mMode : Int
  mMicMute : Bool
  mBluetoothNrec : Bool
  mBluetoothId : BitVec 32
  mTtyMode : TtyMode
  mDualMicEnabled : Bool
  mBuiltinMicSelected : Bool
  mFmRadioEnabled : Bool
  mFmPrev : Bool
  mFmVolume : Nat
  mFmIsAnalog : Bool
  fmfd : Int
  mActSndDevice : Int
  mCurSndDevice : Int
  post_proc_feature_mask : BitVec 32
  playback_in_progress : Bool
  audpre_index : Int
  mOutput : Option AudioStreamOut
  mInputs : List Nat
  streams : Nat → Option AudioStreamIn

/-- The HAL, the drivers' logs, and the property that other processes may set. -/
structure World where
  hw : Hal
  snd : List SndCall
  i2c : I2cBus
  audpp : List (AudppCmd × Bool)
  audpre : List (AudpreCmd × Bool)
  pcmOut : List PcmCall
  pcmIn : List PcmCall
  fm : List FmCall
  headsetPostproc : String

def adrcEnable : BitVec 32 := 0x0001
def adrcDisable : BitVec 32 := 0xFFFE
def eqEnable : BitVec 32 := 0x0002
def eqDisable : BitVec 32 := 0xFFFD
def rxIirEnable : BitVec 32 := 0x0004
def rxIirDisable : BitVec 32 := 0xFFFB
def mbadrcEnable : BitVec 32 := 0x0010
def mbadrcDisable : BitVec 32 := 0xFFEF
def agcEnable : BitVec 32 := 0x0001
def nsEnable : BitVec 32 := 0x0002
def txIirEnable : BitVec 32 := 0x0004

/-- `ADRC_ENABLE | EQ_ENABLE | RX_IIR_ENABLE | MBADRC_ENABLE`. -/
def allPostProc : BitVec 32 := adrcEnable ||| eqEnable ||| rxIirEnable ||| mbadrcEnable

def clampPostProcMask (mask : BitVec 32) : BitVec 32 := mask &&& allPostProc

/-- `getHeadsetPostProcMask`, on the value of `persist.sys.headset-postproc`. -/
def getHeadsetPostProcMask (value : String) : BitVec 32 :=
  if value = "off" ∨ value = "0" then 0
  else if value = "lite" then eqEnable ||| rxIirEnable
  else if value = "full" ∨ value = "1" then allPostProc
  else match CString.strtol 0 value.toList with
    | (mask, []) =>
      if value = "" then eqEnable ||| rxIirEnable else clampPostProcMask (BitVec.ofInt 32 mask)
    | _ => eqEnable ||| rxIirEnable

/-! ## The route RPC -/

/-- `do_route_audio_rpc`. An unmuted route is requested with the mic muted first. -/
def do_route_audio_rpc (p : Platform) (device : Int) (earMute micMute : Bool)
    (log : List SndCall) : List SndCall × Status :=
  if device = -1 then (log, noError)
  else if device ≠ p.dev .current ∧ micMute = false then
    match sndSetDevice p device earMute true log with
    | (log, false) => (log, eio)
    | (log, true) =>
      match sndSetDevice p device earMute false log with
      | (log, false) => (log, eio)
      | (log, true) => (log, noError)
  else
    match sndSetDevice p device earMute micMute log with
    | (log, false) => (log, eio)
    | (log, true) => (log, noError)

def pinControl : BitVec 8 := 0x15
def pinNormal : BitVec 8 := 0x40
def btPins : List (BitVec 8) := [0x88, 0x89, 0x8a, 0x8b]
def fmPins : List (BitVec 8) := [0x8e, 0x8f, 0x90]

/-- `MODE_FM` and `MODE_BTSCO`. -/
inductive PinMode where
  | fm | btSco
  deriving DecidableEq, Repr

/-- The writes of `run_btfm_pin_switch`: one side in normal mode, the other tristated. -/
def pinWrites (mode : PinMode) : List (BitVec 8 × BitVec 8) :=
  let btVal := if mode = .fm then pinControl else pinNormal
  let fmVal := if mode = .fm then pinNormal else pinControl
  btPins.map (·, btVal) ++ fmPins.map (·, fmVal)

/-- One opening of the bus: the writes up to the first that fails. -/
def busWrite (p : Platform) (b : I2cBus) (writes : List (BitVec 8 × BitVec 8)) : I2cBus :=
  if p.i2cOpenOk b.opens then (i2cWriteAll p writes b.tried).1 else b.tried

/-- `run_btfm_pin_switch`; the read-backs only log. -/
def run_btfm_pin_switch (p : Platform) (mode : PinMode) (b : I2cBus) : I2cBus :=
  busWrite p b (pinWrites mode)

def fmAudioPathWrites : List (BitVec 8 × BitVec 8) :=
  [(0x11, 0x0c), (0x13, 0x01), (0x81, 0x00), (0x82, 0x00), (0xe6, 0x38), (0xe7, 0x06), (0xe9, 0x21)]

/-- `run_fm_audio_path_enable`; the read-backs only log. -/
def run_fm_audio_path_enable (p : Platform) (b : I2cBus) : I2cBus :=
  busWrite p b fmAudioPathWrites

/-- `is_fm_snd_device`, with the four members of the class. -/
def is_fm_snd_device (dev : SndDevices) (device : Int) : Bool :=
  device = dev .fmHeadset || device = dev .fmSpeaker ||
    device = dev .fmAnalogHeadset || device = dev .fmAnalogSpeaker

/-- The ear mute of `doAudioRouteOrMute`: the audio circuit is open in a call, for
the radio, and on the handset while the built-in mic records. -/
def earMute (p : Platform) (hw : Hal) (fm : Bool) (device : Int) : Bool :=
  if fm then false
  else if !p.isInCall hw.mMode && device = p.dev .handset then !hw.mBuiltinMicSelected
  else !p.isInCall hw.mMode

/-- The mic mute of `doAudioRouteOrMute`: the FM path needs an open mic. -/
def micMute (hw : Hal) (fm : Bool) : Bool := if fm then false else hw.mMicMute

/-- `doAudioRouteOrMute`. -/
def doAudioRouteOrMute (p : Platform) (device : Int) (w : World) : World × Status :=
  let hw := { w.hw with mFmPrev := w.hw.mFmRadioEnabled }
  let ear := earMute p hw hw.mFmRadioEnabled device
  let mic := micMute hw hw.mFmRadioEnabled
  if hw.mFmRadioEnabled then
    let (snd, rc) := do_route_audio_rpc p device ear mic w.snd
    -- mCurSndDevice is still the previous device here
    let i2c := if is_fm_snd_device p.dev device && device != hw.mCurSndDevice then
        run_fm_audio_path_enable p (run_btfm_pin_switch p .fm w.i2c)
      else w.i2c
    ({ w with hw := hw, snd := snd, i2c := i2c }, rc)
  else
    let i2c := if is_fm_snd_device p.dev hw.mCurSndDevice && !is_fm_snd_device p.dev device then
        run_btfm_pin_switch p .btSco w.i2c
      else w.i2c
    let (snd, rc) := do_route_audio_rpc p device ear mic w.snd
    ({ w with hw := hw, snd := snd, i2c := i2c }, rc)

/-! ## Post- and pre-processing -/

/-- The filter table of a sound device. -/
def postprocDeviceId (dev : SndDevices) (device : Int) : Option (Fin 3) :=
  if device = dev .speaker then some 0
  else if device = dev .handset then some 1
  else if device = dev .headset then some 2
  else none

/-- The mask `msm72xx_enable_postproc` enables for a filter table. -/
def postprocEnableMask (f : AudppFilters) (feature : BitVec 32) (id : Fin 3) : BitVec 32 :=
  let mask := feature
  let mask := if f.mbadrcFlag id = 0 ∨ feature &&& mbadrcEnable = 0 then mask &&& mbadrcDisable
    else mask &&& adrcDisable
  let mask := if f.adrcFlag id = 0 ∨ feature &&& adrcEnable = 0 then mask &&& adrcDisable else mask
  let mask := if f.eqFlag id = 0 ∨ feature &&& eqEnable = 0 then mask &&& eqDisable else mask
  if f.rxIirFlag id = 0 ∨ feature &&& rxIirEnable = 0 then mask &&& rxIirDisable else mask

/-- The tables sent before the mask, in the order of the source. -/
def postprocTables (f : AudppFilters) (mask : BitVec 32) (id : Fin 3) : List AudppCmd :=
  (if mask &&& mbadrcEnable ≠ 0 then [.setMbadrc (f.mbadrcCfg id)] else []) ++
  (if mask &&& adrcEnable ≠ 0 then [.setAdrc (f.adrcCfg id)] else []) ++
  (if mask &&& eqEnable ≠ 0 then [.setEq (f.equalizer id)] else []) ++
  (if mask &&& rxIirEnable ≠ 0 then [.setRxIir (f.iirCfg id)] else [])

/-- `msm72xx_enable_postproc`. The disable mask starts at zero and only loses bits. -/
def msm72xx_enable_postproc (p : Platform) (state : Bool) (w : World) : World × Status :=
  if p.filters.inited = false then (w, einval)
  else if w.hw.mCurSndDevice < 0 then (w, einval)
  else match postprocDeviceId p.dev w.hw.mCurSndDevice with
    | none => (w, einval)
    | some id =>
      if p.pcmCtlOpenOk w.audpp.length = false then
        ({ w with audpp := (.openFailed, false) :: w.audpp }, eperm)
      else if state then
        let mask := postprocEnableMask p.filters w.hw.post_proc_feature_mask id
        let (audpp, rc) :=
          issueAudpp p (postprocTables p.filters mask id ++ [.enableAudpp mask]) w.audpp
        ({ w with audpp := audpp }, rc)
      else
        let (audpp, rc) := issueAudpp p [.enableAudpp 0] w.audpp
        ({ w with audpp := audpp }, rc)

/-- `msm72xx_enable_preproc`. -/
def msm72xx_enable_preproc (p : Platform) (state : Bool) (w : World) : World × Status :=
  if p.filters.inited = false then (w, noError)
  else if p.preprocOpenOk w.audpre.length = false then
    ({ w with audpre := (.openFailed, false) :: w.audpre }, eperm)
  else
    let i := w.hw.audpre_index
    let mask := p.filters.enablePreprocMask i
    let cmds :=
      (if mask &&& agcEnable ≠ 0 then [.setAgc i (p.filters.txAgcCfg i)] else []) ++
      (if mask &&& nsEnable ≠ 0 then [.setNs i (p.filters.nsCfg i)] else []) ++
      (if mask &&& txIirEnable ≠ 0 then [.setTxIir i (p.filters.txIirCfg i)] else []) ++
      [.enableAudpre (if state then mask else 0)]
    ({ w with audpre := issueAudpre p cmds w.audpre }, noError)

/-! ## Routing -/

/-- The block of `doRouting` that picks a route for an input device; -1 leaves the
choice to the output. -/
def inputRoute (p : Platform) (headsetPostproc : String) (inputDevice outputDevices : Devices) :
    Int × BitVec 32 :=
  if inputDevice = 0 then (-1, 0)
  else if has inputDevice deviceInBluetoothScoHeadset then (p.dev .bt, 0)
  else if has inputDevice deviceInWiredHeadset then
    (p.dev .headset, getHeadsetPostProcMask headsetPostproc)
  else if has outputDevices deviceOutSpeaker then (p.dev .speaker, allPostProc)
  else (p.dev .handset, 0)

/-- The block of `doRouting` that restores the output route. The FM tests inside its
later branches are dead: the first branch has taken every FM case. -/
def outputRoute (p : Platform) (hw : Hal) (headsetPostproc : String) (outputDevices : Devices)
    (mask : BitVec 32) : Int × BitVec 32 :=
  if hw.mFmRadioEnabled then
    let fmSpk := if hw.mFmIsAnalog then p.dev .fmAnalogSpeaker else p.dev .fmSpeaker
    let fmHst := if hw.mFmIsAnalog then p.dev .fmAnalogHeadset else p.dev .fmHeadset
    let device := if has outputDevices (deviceOutWiredHeadset ||| deviceOutWiredHeadphone)
      then fmHst else fmSpk
    (device, (eqEnable ||| rxIirEnable) &&& (mbadrcDisable ||| adrcDisable))
  else if hw.mTtyMode ≠ .off ∧ hw.mMode = modeInCall ∧ has outputDevices deviceOutWiredHeadset then
    match hw.mTtyMode with
    | .full => (p.dev .ttyHeadset, mask)
    | .vco => (p.dev .ttyVco, mask)
    | .hco => (p.dev .ttyHco, mask)
    | .off => (-1, mask)
  else if has outputDevices (deviceOutBluetoothSco ||| deviceOutBluetoothScoHeadset) then
    (p.dev .bt, mask)
  else if has outputDevices deviceOutBluetoothScoCarkit then (p.dev .carkit, mask)
  else if has outputDevices deviceOutWiredHeadset then
    (p.dev .headset, getHeadsetPostProcMask headsetPostproc)
  else if has outputDevices deviceOutWiredHeadphone then
    (p.dev .headset, getHeadsetPostProcMask headsetPostproc)
  else if has outputDevices deviceOutSpeaker then (p.dev .speaker, allPostProc)
  else (p.dev .handset, allPostProc)

/-- The dual-mic block of `doRouting`. -/
def dualMicRoute (p : Platform) (hw : Hal) (device : Int) : Int :=
  if hw.mDualMicEnabled ∧ hw.mMode = modeInCall then
    if device = p.dev .handset then p.dev .inSSadcOutHandset
    else if device = p.dev .speaker then p.dev .inSSadcOutSpeakerPhone
    else device
  else device

def outputDevices (hw : Hal) : Devices :=
  match hw.mOutput with
  | some out => out.mDevices
  | none => 0

/-- `new_snd_device` and `new_post_proc_feature_mask` of `doRouting`. -/
def newSndDevice (p : Platform) (hw : Hal) (headsetPostproc : String) (input : Option Devices) :
    Int × BitVec 32 :=
  let out := outputDevices hw
  let (device, mask) := match input with
    | some inputDevice => inputRoute p headsetPostproc inputDevice out
    | none => (-1, 0)
  let (device, mask) := if device = -1 then outputRoute p hw headsetPostproc out mask
    else (device, mask)
  (dualMicRoute p hw device, mask)

/-- The block of `doRouting` that applies a new device and caches it. -/
def applyRoute (p : Platform) (device : Int) (mask : BitVec 32) (w : World) : World × Status :=
  let (w, ret) := doAudioRouteOrMute p device w
  let w := if w.hw.playback_in_progress then (msm72xx_enable_postproc p false w).1 else w
  let w := { w with hw := { w.hw with
    mActSndDevice := device, mCurSndDevice := device, post_proc_feature_mask := mask } }
  let w := if w.hw.playback_in_progress then (msm72xx_enable_postproc p true w).1 else w
  (w, ret)

/-- The test of `doRouting` that decides whether the route is sent at all. -/
def needsRoute (hw : Hal) (device : Int) : Prop :=
  device ≠ -1 ∧ (device ≠ hw.mCurSndDevice ∨ hw.mFmRadioEnabled ≠ hw.mFmPrev)

instance (hw : Hal) (device : Int) : Decidable (needsRoute hw device) :=
  inferInstanceAs (Decidable (_ ∧ _))

/-- `mBuiltinMicSelected` after the first lines of `doRouting`. -/
def selectMic (hw : Hal) : Option Devices → Hal
  | some inputDevice => { hw with mBuiltinMicSelected := inputDevice = deviceInBuiltinMic }
  | none => hw

/-- `doRouting`; the argument is the device of the input stream, when there is one. -/
def doRouting (p : Platform) (input : Option Devices) (w : World) : World × Status :=
  let w := { w with hw := selectMic w.hw input }
  if input = some deviceInVoiceCall then (w, noError)
  else
    let route := newSndDevice p w.hw w.headsetPostproc input
    if needsRoute w.hw route.1 then applyRoute p route.1 route.2 w else (w, noError)

def clearCurDevice (w : World) : World := { w with hw := { w.hw with mCurSndDevice := -1 } }

/-! ## The interface of the class -/

/-- `setMode`: a mode that was taken makes the next `doRouting` send its route. -/
def setMode (p : Platform) (mode : Int) (w : World) : World :=
  if p.setModeOk w.hw.mMode mode then clearCurDevice { w with hw := { w.hw with mMode := mode } }
  else w

/-- `setMicMute_nosync`. -/
def setMicMute_nosync (p : Platform) (state : Bool) (w : World) : World × Status :=
  if w.hw.mMicMute ≠ state then
    doAudioRouteOrMute p (p.dev .current) { w with hw := { w.hw with mMicMute := state } }
  else (w, noError)

def setMicMute (p : Platform) (state : Bool) (w : World) : World × Status :=
  setMicMute_nosync p state w

/-- `run_fm_audmgr_session`. -/
def run_fm_audmgr_session (p : Platform) (onoff : Bool) (w : World) : World :=
  if onoff then
    if 0 ≤ w.hw.fmfd then w
    else
      let ok := p.fmOk w.fm.length
      let log := .opened ok :: w.fm
      if ok = false then { w with fm := log }
      else if p.fmOk log.length = false then { w with fm := .closed :: .started false :: log }
      else { w with fm := .started true :: log, hw := { w.hw with fmfd := log.length } }
  else if 0 ≤ w.hw.fmfd then
    { w with fm := .closed :: .stopped :: w.fm, hw := { w.hw with fmfd := -1 } }
  else w

/-- `setFmOnOff`. `run_fm_dac_config` runs a helper program and its result is unused. -/
def setFmOnOff (p : Platform) (onoff : Bool) (w : World) : World :=
  run_fm_audmgr_session p onoff { w with hw := { w.hw with mFmRadioEnabled := onoff } }

/-- A key-value string as `AudioParameter` sees it: its length and its pairs. -/
structure KeyValues where
  length : Nat
  pairs : List (String × String)
  deriving DecidableEq, Repr

def KeyValues.get (kv : KeyValues) (key : String) : Option String :=
  (kv.pairs.find? (·.1 = key)).map (·.2)

def KeyValues.getInt (p : Platform) (kv : KeyValues) (key : String) : Option Int :=
  (kv.get key).bind p.parseInt

/-- The `bt_headset_nrec` handler of `setParameters`. -/
def setNrec (value : Option String) (hw : Hal) : Hal :=
  match value with
  | some v => { hw with mBluetoothNrec := v = "on" }
  | none => hw

/-- `mBluetoothId` for a headset name: the first endpoint of that name, else 0. -/
def bluetoothId (p : Platform) (name : String) : BitVec 32 :=
  match p.endpoints.find? (fun ept => CString.sameIgnoringCase name ept.2) with
  | some ept => ept.1
  | none => 0

/-- The `bt_headset_name` handler of `setParameters`. -/
def setBtName (p : Platform) (value : Option String) (w : World) : World :=
  match value with
  | some v =>
    let w := { w with hw := { w.hw with mBluetoothId := bluetoothId p v } }
    if w.hw.mBluetoothId = 0 then (doRouting p none w).1 else w
  | none => w

/-- The `dualmic_enabled` handler of `setParameters`. -/
def setDualMic (p : Platform) (value : Option String) (w : World) : World :=
  match value with
  | some v => (doRouting p none { w with hw := { w.hw with mDualMicEnabled := v = "true" } }).1
  | none => w

def ttyModeOf (value : String) : TtyMode :=
  if value = "full" then .full
  else if value = "hco" then .hco
  else if value = "vco" then .vco
  else .off

/-- The `tty_mode` handler of `setParameters`. -/
def setTty (value : Option String) (hw : Hal) : Hal :=
  match value with
  | some v => { hw with mTtyMode := ttyModeOf v }
  | none => hw

/-- The `fm_on` and `fm_off` handlers of `setParameters`. -/
def setFm (p : Platform) (kv : KeyValues) (w : World) : World :=
  let w := if (kv.getInt p "fm_on").isSome then setFmOnOff p true w else w
  if (kv.getInt p "fm_off").isSome then setFmOnOff p false w else w

/-- `AudioHardware::setParameters`. -/
def setParameters (p : Platform) (kv : KeyValues) (w : World) : World × Status :=
  if kv.length = 0 then (w, badValue)
  else
    let w := { w with hw := setNrec (kv.get "bt_headset_nrec") w.hw }
    let w := setBtName p (kv.get "bt_headset_name") w
    let w := setDualMic p (kv.get "dualmic_enabled") w
    let w := { w with hw := setTty (kv.get "tty_mode") w.hw }
    -- outside a call a tty_mode pair ends the request here
    if (kv.get "tty_mode").isSome ∧ w.hw.mMode ≠ modeInCall then (w, noError)
    else ((doRouting p none (setFm p kv w)).1, noError)

/-! ## Volume -/

def sndMethodVoice : Nat := 0

/-- `set_volume_rpc`. -/
def set_volume_rpc (p : Platform) (device : Int) (method volume : Nat) (w : World) :
    World × Status :=
  if device = -1 then (w, noError)
  else match sndSetVolume p device method volume w.snd with
    | (snd, true) => ({ w with snd := snd }, noError)
    | (snd, false) => ({ w with snd := snd }, eio)

/-- `lrint`: to the nearest integer, halves to even. -/
def lrint (q : ℚ) : Int :=
  let n := q.floor
  if q - n < 1 / 2 then n
  else if 1 / 2 < q - n then n + 1
  else if n % 2 = 0 then n else n + 1

/-- A volume clamped to the unit interval, as `setVoiceVolume` does it. -/
def clampUnit (v : ℚ) : ℚ := if v < 0 then 0 else if 1 < v then 1 else v

/-- The level `setVoiceVolume` sends; the TTY devices take level 1 only. -/
def voiceLevel (p : Platform) (hw : Hal) (v : ℚ) : Nat :=
  if hw.mCurSndDevice ≠ -1 ∧
      (hw.mCurSndDevice = p.dev .ttyHeadset ∨ hw.mCurSndDevice = p.dev .ttyVco) then 1
  else (lrint (clampUnit v * 5) + 1).toNat

/-- `setVoiceVolume`. -/
def setVoiceVolume (p : Platform) (v : ℚ) (w : World) : World :=
  (set_volume_rpc p (p.dev .current) sndMethodVoice (voiceLevel p w.hw v) w).1

/-- The level `setFmVolume` sends. -/
def fmLevel (p : Platform) (v : ℚ) : Nat :=
  let volPct := if 0 < v then max 0 (min 100 (p.logToLinear (if 1 < v then 1 else v))) else 0
  let vol := if 0 < volPct then (volPct + 19) / 20 else 0
  (min 5 vol).toNat

/-- `setFmVolume`. -/
def setFmVolume (p : Platform) (v : ℚ) (w : World) : World × Status :=
  set_volume_rpc p (p.dev .current) sndMethodVoice (fmLevel p v)
    { w with hw := { w.hw with mFmVolume := fmLevel p v } }

end AudioHardware
