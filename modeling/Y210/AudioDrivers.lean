import Mathlib.Data.List.Nodup
import Mathlib.Data.Rat.Init
import Mathlib.Logic.Function.Basic
import Y210.CString

/-!
# The drivers below the audio HAL

Each driver is the log of the requests it has seen, newest first, with the
answer it gave; what the driver holds is read off its log. The answers come
from a `Platform`, which also carries the code the HAL links against but the
repository does not contain (`AudioHardwareBase`, `AudioSystem`, properties).
-/
namespace AudioDrivers

/-- `status_t`: zero or a negated errno. -/
abbrev Status := Int

def noError : Status := 0
def badValue : Status := -22
def invalidOperation : Status := -38
def noInit : Status := -19
def eio : Status := -5
def eperm : Status := -1
def einval : Status := -22

/-- A device mask of `AudioSystem::audio_devices`. -/
abbrev Devices := BitVec 32

def deviceOutSpeaker : Devices := 0x2
def deviceOutWiredHeadset : Devices := 0x4
def deviceOutWiredHeadphone : Devices := 0x8
def deviceOutBluetoothSco : Devices := 0x10
def deviceOutBluetoothScoHeadset : Devices := 0x20
def deviceOutBluetoothScoCarkit : Devices := 0x40
def deviceInBuiltinMic : Devices := 0x40000
def deviceInBluetoothScoHeadset : Devices := 0x80000
def deviceInWiredHeadset : Devices := 0x100000
def deviceInVoiceCall : Devices := 0x400000

/-- The C test `mask & bits`. -/
def has (mask bits : Devices) : Bool := mask &&& bits != 0

/-- `AudioSystem::audio_mode`. -/
def modeNormal : Int := 0
def modeInCall : Int := 2

/-- The endpoints the HAL keeps a `SND_DEVICE_*` member for. -/
inductive Endpoint where
  | current | handset | speaker | bt | btEcOff | headset | headsetAndSpeaker
  | inSSadcOutHandset | inSSadcOutSpeakerPhone | ttyHeadset | ttyHco | ttyVco | carkit
  | fmSpeaker | fmHeadset | fmAnalogHeadset | fmAnalogSpeaker | noMicHeadset
  deriving DecidableEq, Repr

/-- The `SND_DEVICE_*` members: endpoint ids, -1 for an endpoint that is missing. -/
structure SndDevices where
  id : Endpoint → Int
  valid : ∀ e, -1 ≤ id e

instance : CoeFun SndDevices (fun _ => Endpoint → Int) := ⟨SndDevices.id⟩

def Endpoint.isFm : Endpoint → Bool
  | .fmSpeaker | .fmHeadset | .fmAnalogHeadset | .fmAnalogSpeaker => true
  | _ => false

/-- A request to `/dev/msm_snd` and whether the driver accepted it. -/
inductive SndCall where
  | setDevice (device : Int) (earMute micMute accepted : Bool)
  | setVolume (device : Int) (method volume : Nat) (accepted : Bool)
  deriving DecidableEq, Repr

/-- What `SND_SET_DEVICE` leaves in the driver. -/
structure RouteConfig where
  device : Int
  earMute : Bool
  micMute : Bool
  deriving DecidableEq, Repr

/-- The route the driver holds. A request on `SND_DEVICE_CURRENT` changes only
the mutes of the device already routed. -/
def routeConfig (current : Int) : List SndCall → Option RouteConfig
  | [] => none
  | .setDevice d ear mic true :: log =>
    if d = current then (routeConfig current log).map (fun c => ⟨c.device, ear, mic⟩)
    else some ⟨d, ear, mic⟩
  | .setDevice _ _ _ false :: log => routeConfig current log
  | .setVolume _ _ _ _ :: log => routeConfig current log

/-- The configuration of the last `SND_SET_DEVICE` the driver accepted, as requested. -/
def lastAccepted : List SndCall → Option RouteConfig
  | [] => none
  | .setDevice d ear mic true :: _ => some ⟨d, ear, mic⟩
  | .setDevice _ _ _ false :: log => lastAccepted log
  | .setVolume _ _ _ _ :: log => lastAccepted log

/-- The shared I2C bus: the Marimba registers, and the openings and transfers tried so far. -/
structure I2cBus where
  regs : BitVec 8 → BitVec 8
  opens : Nat
  transfers : Nat

/-- The bus after an attempt to open it. -/
def I2cBus.tried (b : I2cBus) : I2cBus := { b with opens := b.opens + 1 }

@[simp] theorem I2cBus.tried_regs (b : I2cBus) : b.tried.regs = b.regs := rfl

@[simp] theorem I2cBus.tried_transfers (b : I2cBus) : b.tried.transfers = b.transfers := rfl

/-- Filter tables, as the driver takes them. -/
structure RxIirFilter where
  numBands : BitVec 16
  iirParams : Vector (BitVec 16) 48
  deriving DecidableEq, Repr

structure AdrcFilter where
  adrcParams : Vector (BitVec 16) 8
  deriving DecidableEq, Repr

structure EqFilter where
  bands : BitVec 16
  params : Vector (BitVec 16) 132
  deriving DecidableEq, Repr

structure MbadrcFilter where
  numBands : BitVec 16
  downSampLevel : BitVec 16
  adrcDelay : BitVec 16
  extBufSize : BitVec 16
  extPartition : BitVec 16
  extBufMsw : BitVec 16
  extBufLsw : BitVec 16
  adrcBand : Vector (Vector (BitVec 16) 10) 5
  extBuf : Vector (BitVec 16) 196
  deriving DecidableEq, Repr

structure TxIir where
  cmdId : BitVec 16
  activeFlag : BitVec 16
  numBands : BitVec 16
  iirParams : Vector (BitVec 16) 48
  deriving DecidableEq, Repr

structure Ns where
  cmdId : BitVec 16
  ecModeNew : BitVec 16
  densGammaN : BitVec 16
  densNfeBlockSize : BitVec 16
  densLimitNs : BitVec 16
  densLimitNsD : BitVec 16
  wbGammaE : BitVec 16
  wbGammaN : BitVec 16
  deriving DecidableEq, Repr

structure TxAgc where
  cmdId : BitVec 16
  txAgcParamMask : BitVec 16
  txAgcEnableFlag : BitVec 16
  staticGain : BitVec 16
  adaptiveGainFlag : BitVec 16
  agcParams : Vector (BitVec 16) 19
  deriving DecidableEq, Repr

/-- What the constructor read from the filter file. The pre-processing tables
are indexed by `int`: a subscript outside 0..8 reads whatever lies there. -/
structure AudppFilters where
  inited : Bool
  iirCfg : Fin 3 → RxIirFilter
  adrcCfg : Fin 3 → AdrcFilter
  mbadrcCfg : Fin 3 → MbadrcFilter
  equalizer : Fin 3 → EqFilter
  adrcFlag : Fin 3 → BitVec 16
  mbadrcFlag : Fin 3 → BitVec 16
  eqFlag : Fin 3 → BitVec 16
  rxIirFlag : Fin 3 → BitVec 16
  txIirCfg : Int → TxIir
  nsCfg : Int → Ns
  txAgcCfg : Int → TxAgc
  enablePreprocMask : Int → BitVec 32

/-- A call on `/dev/msm_pcm_ctl`: an open that failed, or a command. -/
inductive AudppCmd where
  | openFailed
  | setMbadrc (cfg : MbadrcFilter)
  | setAdrc (cfg : AdrcFilter)
  | setEq (cfg : EqFilter)
  | setRxIir (cfg : RxIirFilter)
  | enableAudpp (mask : BitVec 32)
  deriving DecidableEq, Repr

/-- The mask of the last accepted `AUDIO_ENABLE_AUDPP`; nothing is enabled at boot. -/
def audppMask : List (AudppCmd × Bool) → BitVec 32
  | [] => 0
  | (.enableAudpp mask, true) :: _ => mask
  | _ :: log => audppMask log

/-- A call on `/dev/msm_preproc_ctl`: an open that failed, or a command; the table
commands name their subscript. -/
inductive AudpreCmd where
  | openFailed
  | setAgc (index : Int) (cfg : TxAgc)
  | setNs (index : Int) (cfg : Ns)
  | setTxIir (index : Int) (cfg : TxIir)
  | enableAudpre (mask : BitVec 32)
  deriving DecidableEq, Repr

/-- `struct msm_audio_config`, the fields the HAL uses. -/
structure AudioConfig where
  bufferSize : Nat
  bufferCount : Nat
  channelCount : Nat
  sampleRate : BitVec 32
  type : Nat
  deriving DecidableEq, Repr

/-- `struct msm_audio_voicememo_config`. -/
structure VoicememoConfig where
  recType : Nat
  recIntervalMs : Nat
  autoStopMs : Nat
  capability : Nat
  maxRate : Nat
  minRate : Nat
  frameFormat : Nat
  dtxEnable : Nat
  dataReqMs : Nat
  deriving DecidableEq, Repr

/-- A call on a PCM node. A descriptor is the position of its `open` in the log,
so that two opens never share one. -/
inductive PcmCall where
  | opened (fd : Int)
  | openFailed
  | closed (fd : Int)
  | getConfig (fd : Int) (ok : Bool)
  | setConfig (fd : Int) (cfg : AudioConfig) (ok : Bool)
  | setVoicememo (fd : Int) (cfg : VoicememoConfig) (ok : Bool)
  | getVoicememo (fd : Int) (ok : Bool)
  | started (fd : Int) (ok : Bool)
  | wrote (fd : Int) (bytes : List (BitVec 8))
  | read (fd : Int) (count : Nat)
  deriving DecidableEq, Repr

/-- A call on `/dev/msm_fm`. -/
inductive FmCall where
  | opened (ok : Bool)
  | started (ok : Bool)
  | stopped
  | closed
  deriving DecidableEq, Repr

/-- Everything the HAL does not decide itself. An answer is indexed by the number
of requests its driver has already seen, an open that failed among them, so any
sequence of answers is possible. -/
structure Platform where
  dev : SndDevices
  /-- `mSndEndpoints`: id and name of each endpoint. -/
  endpoints : List (BitVec 32 × String)
  filters : AudppFilters
  fmIsAnalog : Bool
  /-- `AudioHardwareBase::isInCall`, a function of the mode. -/
  isInCall : Int → Bool
  /-- Whether `AudioHardwareBase::setMode` moves from the first mode to the second. -/
  setModeOk : Int → Int → Bool
  isInputDevice : Devices → Bool
  /-- `AudioParameter::getInt`: the integer at the front of a value. -/
  parseInt : String → Option Int
  /-- `AudioSystem::logToLinear`. -/
  logToLinear : ℚ → Int
  sndSetDeviceOk : Nat → Bool
  sndSetVolumeOk : Nat → Bool
  i2cOpenOk : Nat → Bool
  i2cOk : Nat → Bool
  fmOk : Nat → Bool
  pcmCtlOpenOk : Nat → Bool
  audppOk : Nat → Bool
  preprocOpenOk : Nat → Bool
  audpreOk : Nat → Bool
  pcmOutOk : Nat → Bool
  pcmInOk : Nat → Bool
  /-- The configuration `AUDIO_GET_CONFIG` reports for a recording node. -/
  pcmInConfig : Nat → AudioConfig

/-- `ioctl(m7xsnddriverfd, SND_SET_DEVICE, ..)`. -/
def sndSetDevice (p : Platform) (device : Int) (earMute micMute : Bool) (log : List SndCall) :
    List SndCall × Bool :=
  (.setDevice device earMute micMute (p.sndSetDeviceOk log.length) :: log,
    p.sndSetDeviceOk log.length)

/-- `ioctl(m7xsnddriverfd, SND_SET_VOLUME, ..)`. -/
def sndSetVolume (p : Platform) (device : Int) (method volume : Nat) (log : List SndCall) :
    List SndCall × Bool :=
  (.setVolume device method volume (p.sndSetVolumeOk log.length) :: log,
    p.sndSetVolumeOk log.length)

/-- `i2c1_write_reg`. -/
def i2c1WriteReg (p : Platform) (reg value : BitVec 8) (b : I2cBus) : I2cBus × Bool :=
  if p.i2cOk b.transfers then
    ({ b with regs := Function.update b.regs reg value, transfers := b.transfers + 1 }, true)
  else ({ b with transfers := b.transfers + 1 }, false)

/-- Write registers in order, up to the first write that fails. -/
def i2cWriteAll (p : Platform) : List (BitVec 8 × BitVec 8) → I2cBus → I2cBus × Bool
  | [], b => (b, true)
  | (reg, value) :: rest, b =>
    match i2c1WriteReg p reg value b with
    | (b, true) => i2cWriteAll p rest b
    | (b, false) => (b, false)

/-- When every transfer succeeds, a register that is not written keeps its value. -/
theorem i2cWriteAll_of_notMem {p : Platform} (hok : ∀ n, p.i2cOk n = true)
    {writes : List (BitVec 8 × BitVec 8)} {reg : BitVec 8} (h : reg ∉ writes.map Prod.fst)
    (b : I2cBus) : (i2cWriteAll p writes b).1.regs reg = b.regs reg := by
  induction writes generalizing b with
  | nil => rfl
  | cons w rest ih =>
    obtain ⟨r, value⟩ := w
    rw [List.map_cons, List.mem_cons, not_or] at h
    simp only [i2cWriteAll, i2c1WriteReg, hok, if_true]
    rw [ih h.2]
    exact Function.update_of_ne h.1 _ _

/-- When every transfer succeeds and no register is written twice, each write is found. -/
theorem i2cWriteAll_of_mem {p : Platform} (hok : ∀ n, p.i2cOk n = true)
    {writes : List (BitVec 8 × BitVec 8)} (hn : (writes.map Prod.fst).Nodup) {w : BitVec 8 × BitVec 8}
    (hw : w ∈ writes) (b : I2cBus) : (i2cWriteAll p writes b).1.regs w.1 = w.2 := by
  induction writes generalizing b with
  | nil => cases hw
  | cons v rest ih =>
    obtain ⟨reg, value⟩ := v
    rw [List.map_cons, List.nodup_cons] at hn
    simp only [i2cWriteAll, i2c1WriteReg, hok, if_true]
    rcases List.mem_cons.mp hw with rfl | hw
    · rw [i2cWriteAll_of_notMem hok hn.1]
      exact Function.update_self _ _ _
    · exact ih hn.2 hw _

/-- Send commands in order, up to the first that fails. -/
def issueAudpp (p : Platform) : List AudppCmd → List (AudppCmd × Bool) →
    List (AudppCmd × Bool) × Status
  | [], log => (log, noError)
  | cmd :: rest, log =>
    if p.audppOk log.length then issueAudpp p rest ((cmd, true) :: log)
    else ((cmd, false) :: log, eperm)

/-- Send commands in order; a failure is logged and ignored. -/
def issueAudpre (p : Platform) : List AudpreCmd → List (AudpreCmd × Bool) →
    List (AudpreCmd × Bool)
  | [], log => log
  | cmd :: rest, log => issueAudpre p rest ((cmd, p.audpreOk log.length) :: log)

@[simp] theorem audppMask_enable (mask : BitVec 32) (log : List (AudppCmd × Bool)) :
    audppMask ((.enableAudpp mask, true) :: log) = mask := rfl

theorem issueAudpp_append {p : Platform} (hok : ∀ n, p.audppOk n = true) (cmds : List AudppCmd)
    (mask : BitVec 32) (log : List (AudppCmd × Bool)) :
    audppMask (issueAudpp p (cmds ++ [.enableAudpp mask]) log).1 = mask := by
  induction cmds generalizing log with
  | nil => simp [issueAudpp, hok]
  | cons cmd rest ih => simp only [List.cons_append, issueAudpp, hok, if_true, ih]

/-! ## A platform without failures -/

/-- Ids of the kind the kernel hands out, all different. -/
def stockDevices : SndDevices where
  id
    | .handset => 0
    | .speaker => 1
    | .headset => 2
    | .bt => 3
    | .carkit => 4
    | .ttyHeadset => 5
    | .ttyVco => 6
    | .ttyHco => 7
    | .noMicHeadset => 8
    | .fmHeadset => 9
    | .headsetAndSpeaker => 10
    | .fmSpeaker => 11
    | .inSSadcOutHandset => 12
    | .inSSadcOutSpeakerPhone => 13
    | .fmAnalogHeadset => 14
    | .fmAnalogSpeaker => 15
    | .btEcOff => 45
    | .current => 256
  valid e := by cases e <;> decide

/-- A filter file that enables everything, with every coefficient zero. -/
def stockFilters : AudppFilters where
  inited := true
  iirCfg _ := ⟨0, .replicate 48 0⟩
  adrcCfg _ := ⟨.replicate 8 0⟩
  mbadrcCfg _ := ⟨0, 0, 0, 0, 0, 0, 0, .replicate 5 (.replicate 10 0), .replicate 196 0⟩
  equalizer _ := ⟨0, .replicate 132 0⟩
  adrcFlag _ := 0xffff
  mbadrcFlag _ := 0xffff
  eqFlag _ := 0xffff
  rxIirFlag _ := 0xffff
  txIirCfg _ := ⟨0, 0, 0, .replicate 48 0⟩
  nsCfg _ := ⟨0, 0, 0, 0, 0, 0, 0, 0⟩
  txAgcCfg _ := ⟨0, 0, 0, 0, 0, .replicate 19 0⟩
  enablePreprocMask _ := 7

/-- A platform whose drivers accept every request. -/
def acceptAll : Platform where
  dev := stockDevices
  endpoints := []
  filters := stockFilters
  fmIsAnalog := false
  isInCall mode := mode = modeInCall
  setModeOk old new := old ≠ new ∧ 0 ≤ new ∧ new ≤ 3
  isInputDevice d := d ≠ 0 ∧ d &&& (d - 1) = 0 ∧ d &&& 0xffff = 0
  parseInt s := if s = "" then none else some (CString.strtol 10 s.toList).1
  logToLinear v := v.floor
  sndSetDeviceOk _ := true
  sndSetVolumeOk _ := true
  i2cOpenOk _ := true
  i2cOk _ := true
  fmOk _ := true
  pcmCtlOpenOk _ := true
  audppOk _ := true
  preprocOpenOk _ := true
  audpreOk _ := true
  pcmOutOk _ := true
  pcmInOk _ := true
  pcmInConfig _ := ⟨2048, 2, 1, 8000, 0⟩

end AudioDrivers
