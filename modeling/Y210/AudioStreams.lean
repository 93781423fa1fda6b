import Y210.AudioHardware
import Y210.Records

/-!
# Audio streams and the operations of the HAL

Playback and recording streams, with every exit of their `set`, `write`, `read`
and `standby`, and the machine whose inputs are the calls that clients make.
-/
namespace AudioStreams

open AudioDrivers AudioHardware
open Records (Byte Memory)

def pcm16Bit : Int := 1
def amrNb : Int := 0x2000000
def aac : Int := 0x4000000

def channelOutStereo : BitVec 32 := 0xc
def channelInMono : BitVec 32 := 0x10
def channelInStereo : BitVec 32 := 0xc
def channelInVoiceUplink : BitVec 32 := 0x4000
def channelInVoiceDnlink : BitVec 32 := 0x8000

/-- `AudioSystem::popCount`. -/
def popCount (x : BitVec 32) : Nat := (List.range 32).countP (fun i => x.getLsbD i)

/-! ## Playback -/

def outSampleRate : BitVec 32 := 44100
def outBufferSize : Nat := 4800
/-- `AUDIO_HW_NUM_OUT_BUF`. -/
def audioHwNumOutBuf : Nat := 2

def newStreamOut : AudioStreamOut := ⟨-1, 0, 0, true, 0⟩

/-- The values behind the pointers of `AudioStreamOutMSM72xx::set`, when given. -/
structure OutArgs where
  format : Option Int
  channels : Option (BitVec 32)
  sampleRate : Option (BitVec 32)
  deriving DecidableEq, Repr

/-- `AudioStreamOutMSM72xx::set`. Zero asks for the default. -/
def outSet (devices : Devices) (a : OutArgs) (out : AudioStreamOut) :
    AudioStreamOut × OutArgs × Status :=
  let lFormat := if a.format.getD 0 = 0 then pcm16Bit else a.format.getD 0
  let lChannels := if a.channels.getD 0 = 0 then channelOutStereo else a.channels.getD 0
  let lRate := if a.sampleRate.getD 0 = 0 then outSampleRate else a.sampleRate.getD 0
  if lFormat ≠ pcm16Bit ∨ lChannels ≠ channelOutStereo ∨ lRate ≠ outSampleRate then
    (out, ⟨a.format.map fun _ => pcm16Bit, a.channels.map fun _ => channelOutStereo,
      a.sampleRate.map fun _ => outSampleRate⟩, badValue)
  else
    ({ out with mDevices := devices }, ⟨a.format.map fun _ => lFormat,
      a.channels.map fun _ => lChannels, a.sampleRate.map fun _ => lRate⟩, noError)

/-- `openOutputStream`: only one output stream is allowed. -/
def openOutputStream (devices : Devices) (a : OutArgs) (w : World) : World × OutArgs × Status :=
  if w.hw.mOutput.isSome then (w, a, invalidOperation)
  else match outSet devices a newStreamOut with
    | (out, a, status) =>
      if status = noError then ({ w with hw := { w.hw with mOutput := some out } }, a, status)
      else (w, a, status)

/-- The `close` of `close_stream`, the destructor and `standby`. -/
def closeFd (fd : Int) (log : List PcmCall) : List PcmCall := if 0 ≤ fd then .closed fd :: log else log

/-- `closeOutputStream` on the open stream: its destructor closes the descriptor. -/
def closeOutputStream (w : World) : World :=
  match w.hw.mOutput with
  | some out => { w with hw := { w.hw with mOutput := none }, pcmOut := closeFd out.mFd w.pcmOut }
  | none => w

/-- The configuration `write` asks for. -/
def outConfig : AudioConfig := ⟨outBufferSize, audioHwNumOutBuf, popCount channelOutStereo, outSampleRate, 0⟩

/-- The first block of `write`: open and configure the driver. -/
def openPcmOut (p : Platform) (out : AudioStreamOut) (log : List PcmCall) :
    AudioStreamOut × List PcmCall × Status :=
  if p.pcmOutOk log.length = false then
    ({ out with mFd := -1 }, closeFd out.mFd (.openFailed :: log), -1)
  else
    let fd : Int := log.length
    let log := .opened fd :: log
    let getOk := p.pcmOutOk log.length
    let log := .getConfig fd getOk :: log
    if getOk = false then ({ out with mFd := -1 }, .closed fd :: log, -1)
    else
      let setOk := p.pcmOutOk log.length
      let log := .setConfig fd outConfig setOk :: log
      if setOk = false then ({ out with mFd := -1 }, .closed fd :: log, -1)
      else ({ out with mFd := fd, mStartCount := audioHwNumOutBuf, mStandby := false }, log, noError)

/-- The driver's answer to a `write`: how much it took, `EAGAIN`, or another error. -/
inductive WriteAnswer where
  | wrote (n : Nat)
  | again
  | error
  deriving DecidableEq, Repr

/-- How the loop of `write` ends; a loop whose driver has not answered yet is blocked. -/
inductive WriteEnd where
  | done
  | failed
  | blocked
  deriving DecidableEq, Repr

/-- The loop of `write` on the bytes that are left. -/
def writeLoop (fd : Int) : List WriteAnswer → List Byte → Nat → List PcmCall →
    Nat × List PcmCall × WriteEnd
  | _, [], retries, log => (retries, log, .done)
  | [], _ :: _, retries, log => (retries, log, .blocked)
  | .wrote n :: rest, b :: bytes, retries, log =>
    writeLoop fd rest ((b :: bytes).drop n) retries (.wrote fd ((b :: bytes).take n) :: log)
  | .again :: rest, b :: bytes, retries, log => writeLoop fd rest (b :: bytes) (retries + 1) log
  | .error :: _, _ :: _, retries, log => (retries, log, .failed)

def setOut (out : AudioStreamOut) (w : World) : World := { w with hw := { w.hw with mOutput := some out } }

/-- The last block of `write`: start playback once two buffers are filled. -/
def startPlayback (p : Platform) (bytes : Nat) (out : AudioStreamOut) (w : World) : World × Int :=
  if out.mStartCount = 0 then (w, bytes)
  else if out.mStartCount - 1 ≠ 0 then (setOut { out with mStartCount := out.mStartCount - 1 } w, bytes)
  else
    let ok := p.pcmOutOk w.pcmOut.length
    let w := { w with pcmOut := .started out.mFd ok :: w.pcmOut }
    if ok then
      let w := setOut { out with mStartCount := 0 } w
      let w := { w with hw := { w.hw with playback_in_progress := true } }
      ((msm72xx_enable_postproc p true w).1, bytes)
    else
      let w := { w with pcmOut := closeFd out.mFd w.pcmOut }
      let w := setOut { out with mFd := -1, mStandby := true, mStartCount := 0 } w
      let w := { w with hw := { w.hw with playback_in_progress := false } }
      ((msm72xx_enable_postproc p false w).1, eio)

/-- The blocks of `write` behind the opening of the driver; no result while it is blocked. -/
def playBuffer (p : Platform) (buffer : List Byte) (answers : List WriteAnswer) (out : AudioStreamOut)
    (w : World) : World × Option Int :=
  if out.mFd < 0 ∧ buffer ≠ [] then (w, some noInit)
  else match writeLoop out.mFd answers buffer out.mRetryCount w.pcmOut with
    | (retries, log, fin) =>
      let out := { out with mRetryCount := retries }
      let w := setOut out { w with pcmOut := log }
      match fin with
      | .blocked => (w, none)
      | .failed => (w, some (-1))
      | .done =>
        let (w, value) := startPlayback p buffer.length out w
        (w, some value)

/-- `AudioStreamOutMSM72xx::write` on the open stream. -/
def write (p : Platform) (buffer : List Byte) (answers : List WriteAnswer) (w : World) :
    World × Option Int :=
  match w.hw.mOutput with
  | none => (w, none)
  | some out =>
    if out.mStandby then
      match openPcmOut p out w.pcmOut with
      | (out, log, status) =>
        let w := setOut out { w with pcmOut := log }
        if status < 0 then (w, some status) else playBuffer p buffer answers out w
    else playBuffer p buffer answers out w

/-- `AudioStreamOutMSM72xx::standby` on the open stream. -/
def outStandby (p : Platform) (w : World) : World :=
  match w.hw.mOutput with
  | none => w
  | some out =>
    if out.mStandby = false ∧ 0 ≤ out.mFd then
      let w := (msm72xx_enable_postproc p false w).1
      let w := { w with hw := { w.hw with playback_in_progress := false } }
      let w := { w with pcmOut := .closed out.mFd :: w.pcmOut }
      setOut { out with mFd := -1, mStandby := true } w
    else setOut { out with mStandby := true } w

/-- `AudioStreamOutMSM72xx::setParameters`: a routing pair re-routes the output. -/
def outSetParameters (p : Platform) (kv : KeyValues) (w : World) : World × Status :=
  match w.hw.mOutput, kv.getInt p "routing" with
  | none, _ => (w, noError)
  | some _, none => (w, if kv.pairs = [] then noError else badValue)
  | some out, some device =>
    let w := setOut { out with mDevices := BitVec.ofInt 32 device } w
    let w := (setParameters p kv w).1
    let (w, status) := doRouting p none w
    (w, if (kv.pairs.filter (·.1 ≠ "routing")) = [] then status else badValue)

/-! ## Recording -/

def audioHwInBuffersize : Nat := 2048

def newStreamIn : AudioStreamIn :=
  ⟨false, -1, .closed, 0, pcm16Bit, channelInMono, 8000, audioHwInBuffersize, 0, false⟩

/-- `inputSamplingRates`. -/
def inputSamplingRates : List (BitVec 32) :=
  [8000, 11025, 12000, 16000, 22050, 24000, 32000, 44100, 48000]

/-- `abs` of the unsigned difference, taken as an `int`. -/
def absDelta (a b : BitVec 32) : BitVec 32 := if (a - b).msb then -(a - b) else a - b

/-- The loop of `getInputSampleRate`, with the rate and distance of the round before. -/
def nearestRate (sampleRate : BitVec 32) : List (BitVec 32) → BitVec 32 → BitVec 32 → BitVec 32
  | [], prev, _ => prev
  | rate :: rest, prev, prevDelta =>
    let delta := absDelta sampleRate rate
    if prevDelta < delta then prev else nearestRate sampleRate rest rate delta

def getInputSampleRate (sampleRate : BitVec 32) : BitVec 32 :=
  nearestRate sampleRate inputSamplingRates 0 0xffffffff

/-- `calculate_audpre_table_index`, read back as an `int`. -/
def calculate_audpre_table_index (rate : BitVec 32) : Int :=
  match rate.toNat with
  | 48000 => 8
  | 44100 => 7
  | 32000 => 6
  | 24000 => 5
  | 22050 => 4
  | 16000 => 3
  | 12000 => 2
  | 11025 => 1
  | 8000 => 0
  | _ => -1

/-- The values behind the pointers of `AudioStreamInMSM72xx::set`. -/
structure InArgs where
  format : Int
  channels : BitVec 32
  sampleRate : BitVec 32
  deriving DecidableEq, Repr

/-- What `AudioStreamInMSM72xx::set` leaves: the stream, the values it wrote through
its pointers when it made a counter-proposal, the node's log, and the status. -/
structure SetResult where
  stream : AudioStreamIn
  proposal : Option InArgs
  log : List PcmCall
  status : Status

/-- The PCM branch of `set`. -/
def setPcm (p : Platform) (devices : Devices) (a : InArgs) (s : AudioStreamIn) (log : List PcmCall) :
    SetResult :=
  if p.pcmInOk log.length = false then ⟨s, none, .openFailed :: log, -1⟩
  else
    let fd : Int := log.length
    let log := .opened fd :: log
    let ok := p.pcmInOk log.length
    let log := .getConfig fd ok :: log
    if ok = false then ⟨{ s with mFd := -1 }, none, .closed fd :: log, -1⟩
    else
      let ok := p.pcmInOk log.length
      let log := .setConfig fd ⟨s.mBufferSize, 2, popCount a.channels, a.sampleRate, 0⟩ ok :: log
      if ok = false then
        let ok := p.pcmInOk log.length
        let cfg := p.pcmInConfig log.length
        let log := .closed fd :: .getConfig fd ok :: log
        let proposal := if ok then
            some { a with channels := if cfg.channelCount = 1 then channelInMono else channelInStereo,
                          sampleRate := cfg.sampleRate }
          else none
        ⟨{ s with mFd := -1 }, proposal, log, -1⟩
      else
        let ok := p.pcmInOk log.length
        let cfg := p.pcmInConfig log.length
        let log := .getConfig fd ok :: log
        if ok = false then ⟨{ s with mFd := -1 }, none, .closed fd :: log, -1⟩
        else
          ⟨{ s with mFd := fd, mDevices := devices, mFormat := pcm16Bit, mChannels := a.channels,
                    mSampleRate := cfg.sampleRate, mBufferSize := cfg.bufferSize }, none, log, noError⟩

/-- The recording source of a voice-memo stream. -/
def voicememoRecType (devices : Devices) (channels : BitVec 32) : Nat :=
  let dnlink := channels &&& channelInVoiceDnlink ≠ 0
  let uplink := channels &&& channelInVoiceUplink ≠ 0
  if devices = deviceInVoiceCall then
    if dnlink ∧ uplink then 3 else if dnlink then 1 else if uplink then 2 else 0
  else 2

/-- The AMR branch of `set`; its errors come back with the sign turned. -/
def setAmr (p : Platform) (devices : Devices) (a : InArgs) (s : AudioStreamIn) (log : List PcmCall) :
    SetResult :=
  if p.pcmInOk log.length = false then ⟨s, none, .openFailed :: log, -1⟩
  else
    let fd : Int := log.length
    let log := .opened fd :: log
    let ok := p.pcmInOk log.length
    let cfg := p.pcmInConfig log.length
    let log := .getConfig fd ok :: log
    if ok = false then ⟨{ s with mFd := -1 }, none, .closed fd :: log, 1⟩
    else
      let s := { s with mFd := fd, mDevices := devices, mChannels := a.channels,
                        mSampleRate := cfg.sampleRate, mFormat := amrNb, mBufferSize := 320 }
      let ok := p.pcmInOk log.length
      let gcfg := ⟨voicememoRecType devices a.channels, 0, 0, 64, 7, 7, 4, 0, 20⟩
      let log := .setVoicememo fd gcfg ok :: log
      if ok = false then ⟨{ s with mFd := -1 }, none, .closed fd :: log, 1⟩
      else
        let ok := p.pcmInOk log.length
        let log := .getVoicememo fd ok :: log
        if ok = false then ⟨{ s with mFd := -1 }, none, .closed fd :: log, 1⟩
        else ⟨s, none, log, noError⟩

/-- The AAC branch of `set`. -/
def setAac (p : Platform) (devices : Devices) (a : InArgs) (s : AudioStreamIn) (log : List PcmCall) :
    SetResult :=
  if p.pcmInOk log.length = false then ⟨s, none, .openFailed :: log, 1⟩
  else
    let fd : Int := log.length
    let log := .opened fd :: log
    let ok := p.pcmInOk log.length
    let cfg := p.pcmInConfig log.length
    let log := .getConfig fd ok :: log
    if ok = false then ⟨{ s with mFd := -1 }, none, .closed fd :: log, 1⟩
    else
      let s := { s with mFd := fd, mDevices := devices, mChannels := a.channels,
                        mSampleRate := a.sampleRate, mBufferSize := 2048, mFormat := a.format }
      let ok := p.pcmInOk log.length
      let log := .setConfig fd ⟨cfg.bufferSize, cfg.bufferCount, popCount a.channels, a.sampleRate, 1⟩ ok
        :: log
      if ok = false then ⟨{ s with mFd := -1 }, none, .closed fd :: log, 1⟩
      else ⟨s, none, log, noError⟩

/-- The argument checks of `set`: the first failure and its counter-proposal. -/
def checkInArgs (a : InArgs) : Option InArgs :=
  if a.format ≠ pcm16Bit ∧ a.format ≠ amrNb ∧ a.format ≠ aac then some { a with format := pcm16Bit }
  else if getInputSampleRate a.sampleRate ≠ a.sampleRate then
    some { a with sampleRate := getInputSampleRate a.sampleRate }
  else if a.channels &&& (channelInMono ||| channelInStereo) = 0 then
    some { a with channels := channelInMono }
  else none

/-- The branch of `set` for the format. -/
def setFormat (p : Platform) (devices : Devices) (a : InArgs) (s : AudioStreamIn)
    (log : List PcmCall) : SetResult :=
  if a.format = pcm16Bit then setPcm p devices a s log
  else if a.format = amrNb then setAmr p devices a s log
  else setAac p devices a s log

/-- `AudioStreamInMSM72xx::set`. The last check comes after the state has moved on. -/
def inSet (p : Platform) (devices : Devices) (a : InArgs) (s : AudioStreamIn) (w : World) :
    AudioStreamIn × Option InArgs × World × Status :=
  match checkInArgs a with
  | some proposal => (s, some proposal, w, badValue)
  | none =>
    let s := { s with mHardware := true }
    if 0 ≤ s.mFd then (s, none, w, eperm)
    else
      let r := setFormat p devices a s w.pcmIn
      let w := { w with pcmIn := r.log }
      if r.status ≠ noError then (r.stream, r.proposal, w, r.status)
      else
        let s := { r.stream with mState := .opened }
        let index := calculate_audpre_table_index s.mSampleRate
        let w := { w with hw := { w.hw with audpre_index := index } }
        if index < 0 then
          ({ s with mFd := -1 }, none, { w with pcmIn := closeFd s.mFd w.pcmIn }, einval)
        else (s, none, w, noError)

def setStream (ptr : Nat) (s : AudioStreamIn) (w : World) : World :=
  { w with hw := { w.hw with streams := Function.update w.hw.streams ptr (some s) } }

/-- `AudioStreamInMSM72xx::standby`. -/
def inStandby (p : Platform) (ptr : Nat) (w : World) : World × Status :=
  match w.hw.streams ptr with
  | none => (w, noError)
  | some s =>
    if s.mHardware = false then (w, -1)
    else
      let w := if s.mState = .closed then w
        else
          let w := (msm72xx_enable_preproc p false w).1
          let w := { w with pcmIn := closeFd s.mFd w.pcmIn }
          setStream ptr { s with mFd := if 0 ≤ s.mFd then -1 else s.mFd, mState := .closed } w
      ((doRouting p none (clearCurDevice w)).1, noError)

/-- `openInputStream`; `ptr` is the address that `new` returns, which no live stream has. -/
def openInputStream (p : Platform) (ptr : Nat) (devices : Devices) (a : InArgs) (w : World) :
    World × InArgs × Status :=
  if p.isInputDevice devices = false ∨ (w.hw.streams ptr).isSome then (w, a, noError)
  else if w.hw.mMode = modeInCall ∧ 8000 < getInputSampleRate a.sampleRate ∧ a.format = pcm16Bit then
    (w, { a with sampleRate := 8000 }, badValue)
  else match inSet p devices a newStreamIn w with
    | (s, proposal, w, status) =>
      let a := proposal.getD a
      if status ≠ noError then
        -- the destructor of the rejected stream runs standby()
        let w := (inStandby p ptr (setStream ptr s w)).1
        ({ w with hw := { w.hw with streams := Function.update w.hw.streams ptr none } }, a, status)
      else
        let w := setStream ptr s w
        ({ w with hw := { w.hw with mInputs := w.hw.mInputs.orderedInsert (· ≤ ·) ptr } }, a, status)

/-- `closeInputStream`: delete the stream, whose destructor runs `standby`. -/
def closeInputStream (p : Platform) (ptr : Nat) (w : World) : World :=
  if ptr ∈ w.hw.mInputs then
    let w := (inStandby p ptr w).1
    { w with hw := { w.hw with
      streams := Function.update w.hw.streams ptr none, mInputs := w.hw.mInputs.erase ptr } }
  else w

/-- The block of `read` that re-opens a closed stream. `set` gets the addresses of the
stream's own fields: a counter-proposal lands in them. -/
def reopen (p : Platform) (s : AudioStreamIn) (w : World) : AudioStreamIn × World × Status :=
  if s.mState = .closed then
    match inSet p s.mDevices ⟨s.mFormat, s.mChannels, s.mSampleRate⟩ s w with
    | (s', proposal, w, status) =>
      let b := proposal.getD ⟨s'.mFormat, s'.mChannels, s'.mSampleRate⟩
      let s' := { s' with mFormat := b.format, mChannels := b.channels, mSampleRate := b.sampleRate }
      (if status = noError then { s' with mFirstread := false } else s', w, status)
  else (s, w, noError)

/-- The block of `read` that routes to an opened stream and starts its device. -/
def startDevice (p : Platform) (ptr : Nat) (s : AudioStreamIn) (w : World) :
    World × Option AudioStreamIn :=
  let s := { s with mState := .started }
  let w := (doRouting p (some s.mDevices) (clearCurDevice (setStream ptr s w))).1
  let ok := p.pcmInOk w.pcmIn.length
  let w := { w with pcmIn := .started s.mFd ok :: w.pcmIn }
  if ok = false then ((inStandby p ptr w).1, none) else ((msm72xx_enable_preproc p true w).1, some s)

/-- The blocks of `read` before the loop. The result is the stream to read from, unless
the call returns -1. -/
def startInput (p : Platform) (ptr : Nat) (s : AudioStreamIn) (w : World) :
    World × Option AudioStreamIn :=
  if s.mHardware = false then (w, none)
  else match reopen p s w with
    | (s, w, status) =>
      let w := setStream ptr s w
      if status ≠ noError then (w, none)
      else if s.mState = .started then (w, some s)
      else startDevice p ptr s w

/-- The driver's answer to a `read`: a chunk, cut to the count that was asked for
(nothing is the end), `EAGAIN`, or another error. -/
inductive ReadAnswer where
  | data (chunk : List Byte)
  | again
  | error
  deriving DecidableEq, Repr

/-- The cursors of `read`, the memory from `buffer` on, and what the driver delivered.
`touched` lists the (offset, length) pairs written or handed to the driver. -/
structure ReadState where
  mem : Memory
  p : Nat
  count : Nat
  bytes : Nat
  frameSizePtr : Nat
  firstread : Bool
  retries : Nat
  delivered : List (List Byte)
  touched : List (Nat × Nat)
  log : List PcmCall

/-- How the loop of `read` ends; a loop whose driver has not answered yet is blocked. -/
inductive ReadEnd where
  | returned
  | failed
  | blocked
  deriving DecidableEq, Repr

/-- `size_t` subtraction. -/
def subSize (a b : Nat) : Nat := (a + 4294967296 - b) % 4294967296

/-- `frameCountPtr` points behind the magic word. -/
def frameCountOff : Nat := 4

/-- The AAC header of `read`. -/
def aacHeader (st : ReadState) : ReadState :=
  let mem := Records.store st.mem 0 (Records.leBytes 4 0x51434F4D)
  { st with mem := Records.store16 mem frameCountOff 0, p := 6, count := subSize st.count 6,
            touched := (frameCountOff, 2) :: (0, 4) :: st.touched }

/-- The head of a round: the test of the loop and, for AAC, the slot of the frame size.
The flag tells whether the driver is asked. -/
def nextSlot (isAac : Bool) (st : ReadState) : ReadState × Bool :=
  if st.count = 0 then (st, false)
  else if isAac then
    let st := { st with frameSizePtr := st.p, p := st.p + 2 }
    if 2 < st.count then ({ st with count := st.count - 2 }, true) else (st, false)
  else (st, true)

/-- The request to the driver: `count` bytes at `p`. -/
def askDriver (fd : Int) (st : ReadState) : ReadState :=
  { st with touched := (st.p, st.count) :: st.touched, log := .read fd st.count :: st.log }

/-- A chunk has arrived at `p`. -/
def takeChunk (isAac : Bool) (chunk : List Byte) (st : ReadState) : ReadState :=
  let st := { st with mem := Records.store st.mem st.p chunk, count := st.count - chunk.length,
                      p := st.p + chunk.length, bytes := st.bytes + chunk.length,
                      delivered := st.delivered ++ [chunk] }
  if isAac then
    let mem := Records.store16 st.mem st.frameSizePtr chunk.length
    { st with mem := Records.store16 mem frameCountOff (Records.load16 mem frameCountOff + 1),
              touched := (frameCountOff, 2) :: (st.frameSizePtr, 2) :: st.touched }
  else st

/-- The loop of `read`; the last component is what the driver was not asked for. -/
def readLoop (isAac : Bool) (fd : Int) : List ReadAnswer → ReadState →
    ReadState × ReadEnd × List ReadAnswer
  | [], st =>
    match nextSlot isAac st with
    | (st, false) => (st, .returned, [])
    | (st, true) => (askDriver fd st, .blocked, [])
  | answer :: rest, st =>
    match nextSlot isAac st with
    | (st, false) => (st, .returned, answer :: rest)
    | (st, true) =>
      let st := askDriver fd st
      match answer with
      | .data chunk =>
        if chunk.take st.count = [] then (st, .returned, rest)
        else if st.firstread then readLoop isAac fd rest (takeChunk isAac (chunk.take st.count) st)
        else ({ takeChunk isAac (chunk.take st.count) st with firstread := true }, .returned, rest)
      | .again => readLoop isAac fd rest { st with retries := st.retries + 1 }
      | .error => (st, .failed, rest)

/-- What a `read` call leaves in the caller's buffer and returns. -/
structure ReadResult where
  mem : Memory
  delivered : List (List Byte)
  touched : List (Nat × Nat)
  /-- no value while the call is blocked -/
  value : Option Int
  rest : List ReadAnswer

/-- The loop of `read` from its start, for a stream that has been started. -/
def readFrames (s : AudioStreamIn) (mem : Memory) (bytes : Nat) (answers : List ReadAnswer)
    (log : List PcmCall) : ReadState × ReadEnd × List ReadAnswer :=
  let isAac : Bool := s.mFormat = aac
  let st : ReadState := ⟨mem, 0, bytes, 0, 0, s.mFirstread, s.mRetryCount, [], [], log⟩
  readLoop isAac s.mFd answers (if isAac then aacHeader st else st)

/-- `AudioStreamInMSM72xx::read` on a live stream. -/
def read (p : Platform) (ptr : Nat) (mem : Memory) (bytes : Nat) (answers : List ReadAnswer)
    (w : World) : World × ReadResult :=
  match w.hw.streams ptr with
  | none => (w, ⟨mem, [], [], none, answers⟩)
  | some s =>
    match startInput p ptr s w with
    | (w, none) => (w, ⟨mem, [], [], some (-1), answers⟩)
    | (w, some s) =>
      match readFrames s mem bytes answers w.pcmIn with
      | (st, fin, rest) =>
        let s := { s with mFirstread := st.firstread, mRetryCount := st.retries }
        let value := match fin with
          | .returned => some (if s.mFormat = aac then (bytes : Int) else (st.bytes : Int))
          | .failed => some (-1)
          | .blocked => none
        (setStream ptr s { w with pcmIn := st.log }, ⟨st.mem, st.delivered, st.touched, value, rest⟩)

/-- `AudioStreamInMSM72xx::setParameters`: a routing pair re-routes the input. -/
def inSetParameters (p : Platform) (ptr : Nat) (kv : KeyValues) (w : World) : World × Status :=
  match w.hw.streams ptr, kv.getInt p "routing" with
  | none, _ => (w, noError)
  | some _, none => (w, if kv.pairs = [] then noError else badValue)
  | some s, some device =>
    let d : Devices := BitVec.ofInt 32 device
    if d &&& (d - 1) ≠ 0 then (w, badValue)
    else
      let (w, status) := doRouting p (some d) (setStream ptr { s with mDevices := d } w)
      (w, if (kv.pairs.filter (·.1 ≠ "routing")) = [] then status else badValue)

/-! ## The machine -/

/-- A call of a client; the answers of `write` and `read` come with the call. The last
one is another process setting `persist.sys.headset-postproc`. -/
inductive Op where
  | setMode (mode : Int)
  | setMicMute (state : Bool)
  | setParameters (kv : KeyValues)
  | setVoiceVolume (v : ℚ)
  | setFmVolume (v : ℚ)
  | openOutputStream (devices : Devices) (a : OutArgs)
  | closeOutputStream
  | outSetParameters (kv : KeyValues)
  | write (buffer : List Byte) (answers : List WriteAnswer)
  | outStandby
  | openInputStream (ptr : Nat) (devices : Devices) (a : InArgs)
  | closeInputStream (ptr : Nat)
  | inSetParameters (ptr : Nat) (kv : KeyValues)
  | read (ptr : Nat) (mem : Memory) (bytes : Nat) (answers : List ReadAnswer)
  | inStandby (ptr : Nat)
  | setProperty (value : String)

def step (p : Platform) (w : World) : Op → World
  | .setMode mode => setMode p mode w
  | .setMicMute state => (setMicMute p state w).1
  | .setParameters kv => (setParameters p kv w).1
  | .setVoiceVolume v => setVoiceVolume p v w
  | .setFmVolume v => (setFmVolume p v w).1
  | .openOutputStream devices a => (openOutputStream devices a w).1
  | .closeOutputStream => closeOutputStream w
  | .outSetParameters kv => (outSetParameters p kv w).1
  | .write buffer answers => (write p buffer answers w).1
  | .outStandby => outStandby p w
  | .openInputStream ptr devices a => (openInputStream p ptr devices a w).1
  | .closeInputStream ptr => closeInputStream p ptr w
  | .inSetParameters ptr kv => (inSetParameters p ptr kv w).1
  | .read ptr mem bytes answers => (read p ptr mem bytes answers w).1
  | .inStandby ptr => (inStandby p ptr w).1
  | .setProperty value => { w with headsetPostproc := value }

/-- The members after the constructor. -/
def newHal (p : Platform) : Hal where
  mMode := modeNormal
  mMicMute := true
  mBluetoothNrec := true
  mBluetoothId := 0
  mTtyMode := .off
  mDualMicEnabled := false
  mBuiltinMicSelected := false
  mFmRadioEnabled := false
  mFmPrev := false
  mFmVolume := 0
  mFmIsAnalog := p.fmIsAnalog
  fmfd := -1
  mActSndDevice := -1
  mCurSndDevice := -1
  post_proc_feature_mask := allPostProc
  playback_in_progress := false
  audpre_index := 0
  mOutput := none
  mInputs := []
  streams := fun _ => none

/-- The bus in BT mode: BT pins in normal mode, FM pins tristated. -/
def btRegs : BitVec 8 → BitVec 8 := fun reg =>
  if reg ∈ btPins then pinNormal else if reg ∈ fmPins then pinControl else 0

/-- After boot nothing has been asked of a driver. -/
def boot (p : Platform) : World :=
  ⟨newHal p, [], ⟨btRegs, 0, 0⟩, [], [], [], [], [], "lite"⟩

end AudioStreams
