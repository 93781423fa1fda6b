import Y210.CameraParameters
import Y210.Run

/-!
# The camera wrapper

`Y210CameraWrapper` stands between the camera service and the proprietary camera
object, the blob. Every call that reaches the blob is logged, newest first; what the
blob answers is a function of the calls it has seen.
-/
namespace CameraWrapper

open CameraParameters

abbrev Status := Int

def noError : Status := 0
def invalidOperation : Status := -38

/-- `CAMERA_MSG_COMPRESSED_IMAGE`. -/
def msgCompressedImage : Int := 0x100

/-- A call on the blob. The pointers of `setCallbacks` are given by whether they are set;
the calls from `takePicture` on go to the blob's slots 21, 22, 27, 23, 25 and 26. -/
inductive BlobCall where
  | getPreviewHeap
  | getRawHeap
  | setCallbacks (notify data dataTimestamp user : Bool)
  | enableMsgType (msgType : Int)
  | disableMsgType (msgType : Int)
  | msgTypeEnabled (msgType : Int)
  | startPreview
  | getBufferInfo
  | encodeData
  | setOverlay (overlay : Nat)
  | stopPreview
  | startRecording
  | stopRecording
  | releaseRecordingFrame (mem : Nat)
  | autoFocus
  | cancelAutoFocus
  | takePicture
  | cancelPicture
  | dump (fd : Int) (args : List String)
  | setParameters (params : Params)
  | sendCommand (command arg1 arg2 : Int)
  | release

/-- What the blob answers after the calls it has seen. -/
structure Blob where
  status : List BlobCall → Status
  heap : List BlobCall → Option Nat
  enabled : List BlobCall → Bool

/-- A blob that takes every call. -/
def obedient : Blob := ⟨fun _ => noError, fun _ => none, fun _ => false⟩

/-- A client callback that was invoked, with the client's `user` pointer. -/
inductive ClientCall where
  | notify (cb : Nat) (msgType ext1 ext2 : Int) (user : Nat)
  | data (cb : Nat) (msgType : Int) (dataPtr : Option Nat) (user : Nat)
  | dataTimestamp (cb : Nat) (timestamp msgType : Int) (dataPtr : Option Nat) (user : Nat)
  deriving DecidableEq, Repr

/-- The members of `Y210CameraWrapper`; `mLibInterface` tells whether the pointer is set. -/
structure Wrapper where
  mLibInterface : Bool
  mReleased : Bool
  mPreviewRunning : Bool
  mRecordingRunning : Bool
  mNotifyCb : Option Nat
  mDataCb : Option Nat
  mDataCbTimestamp : Option Nat
  mCallbackUser : Nat
  mLastGoodParameters : Params
  mHasLastGoodParameters : Bool

/-- The wrapper, the logs of both sides, and the system properties (`""` when unset). -/
structure World where
  wrapper : Wrapper
  calls : List BlobCall
  client : List ClientCall
  properties : String → String

/-- After the constructor; `iface` tells whether the blob's open function gave an object. -/
def create (iface : Bool) (properties : String → String) : World :=
  ⟨⟨iface, false, false, false, none, none, none, 0, empty, false⟩, [], [], properties⟩

def isUsable (w : World) : Bool := w.wrapper.mLibInterface && !w.wrapper.mReleased

def callBlob (call : BlobCall) (w : World) : World := { w with calls := call :: w.calls }

/-- The body of the methods that pass a call on: the blob's answer, or the default. -/
def forward {α : Type} (call : BlobCall) (answer : List BlobCall → α) (dflt : α) (w : World) :
    World × α :=
  if isUsable w then (callBlob call w, answer w.calls) else (w, dflt)

/-- `property_get`. -/
def property_get (name dflt : String) (w : World) : String :=
  if w.properties name = "" then dflt else w.properties name

def shouldDelegateSetParameters (w : World) : Bool :=
  if property_get "debug.camera.delegate_setparams" "" w ≠ "" then
    property_get "debug.camera.delegate_setparams" "" w ≠ "0"
  else if property_get "camera.delegate_setparams" "" w ≠ "" then
    property_get "camera.delegate_setparams" "" w ≠ "0"
  else property_get "persist.camera.delegate_setparams" "1" w ≠ "0"

/-! ## The methods -/

section
variable (f : Framework) (b : Blob)

def getPreviewHeap : World → World × Option Nat := forward .getPreviewHeap b.heap none
def getRawHeap : World → World × Option Nat := forward .getRawHeap b.heap none

def setCallbacks (notify_cb data_cb data_cb_timestamp : Option Nat) (user : Nat) (w : World) : World :=
  if isUsable w then
    let wrapper := { w.wrapper with mNotifyCb := notify_cb, mDataCb := data_cb,
                                    mDataCbTimestamp := data_cb_timestamp, mCallbackUser := user }
    callBlob (.setCallbacks notify_cb.isSome data_cb.isSome data_cb_timestamp.isSome true)
      { w with wrapper }
  else w

def enableMsgType (msgType : Int) (w : World) : World :=
  (forward (.enableMsgType msgType) (fun _ => ()) () w).1
def disableMsgType (msgType : Int) (w : World) : World :=
  (forward (.disableMsgType msgType) (fun _ => ()) () w).1
def msgTypeEnabled (msgType : Int) : World → World × Bool :=
  forward (.msgTypeEnabled msgType) b.enabled false

/-- The cache, or the seeds, which are cached while the wrapper is usable. -/
def getParameters (w : World) : World × Params :=
  if isUsable w = false then
    if w.wrapper.mHasLastGoodParameters then (w, w.wrapper.mLastGoodParameters)
    else (w, seedParameters f)
  else if w.wrapper.mHasLastGoodParameters then (w, w.wrapper.mLastGoodParameters)
  else
    let safe := seedParameters f
    ({ w with wrapper := { w.wrapper with mLastGoodParameters := safe, mHasLastGoodParameters := true } }, safe)

/-- The parameters are read for the log only; a busy blob is asked once more. -/
def startPreview (w : World) : World × Status :=
  if isUsable w = false then (w, invalidOperation)
  else
    let w := (getParameters f w).1
    let rc := b.status w.calls
    let w := callBlob .startPreview w
    let (w, rc) :=
      if rc ≠ noError ∧ rc ≠ invalidOperation then (callBlob .startPreview w, b.status w.calls)
      else (w, rc)
    (if rc = noError then { w with wrapper := { w.wrapper with mPreviewRunning := true } } else w, rc)

/-- Built with `USE_GETBUFFERINFO` only. -/
def getBufferInfo : World → World × Status := forward .getBufferInfo b.status invalidOperation

/-- Built with `CAF_CAMERA_GB_REL` only. -/
def encodeData (w : World) : World := (forward .encodeData (fun _ => ()) () w).1

def useOverlay (w : World) : Bool := property_get "debug.camera.use_overlay" "0" w = "1"

def setOverlay (overlay : Nat) (w : World) : World × Status :=
  if isUsable w = false then (w, invalidOperation)
  else if property_get "debug.camera.use_overlay" "0" w ≠ "1" then (w, invalidOperation)
  else (callBlob (.setOverlay overlay) w, b.status w.calls)

def stopPreview (w : World) : World :=
  if isUsable w = false then w
  else if w.wrapper.mPreviewRunning = false then w
  else
    let w := callBlob .stopPreview w
    { w with wrapper := { w.wrapper with mPreviewRunning := false } }

def previewEnabled (w : World) : Bool := isUsable w && w.wrapper.mPreviewRunning

def startRecording (w : World) : World × Status :=
  if isUsable w = false then (w, invalidOperation)
  else
    let w := (getParameters f w).1
    let rc := b.status w.calls
    let w := callBlob .startRecording w
    (if rc = noError then { w with wrapper := { w.wrapper with mRecordingRunning := true } } else w, rc)

def stopRecording (w : World) : World :=
  if isUsable w = false then w
  else
    let w := callBlob .stopRecording w
    { w with wrapper := { w.wrapper with mRecordingRunning := false } }

def recordingEnabled (w : World) : Bool := isUsable w && w.wrapper.mRecordingRunning

def releaseRecordingFrame (mem : Nat) (w : World) : World :=
  (forward (.releaseRecordingFrame mem) (fun _ => ()) () w).1

def autoFocus : World → World × Status := forward .autoFocus b.status invalidOperation
def cancelAutoFocus : World → World × Status := forward .cancelAutoFocus b.status invalidOperation

def takePicture (w : World) : World × Status :=
  if isUsable w = false then (w, invalidOperation)
  else
    let w := (getParameters f w).1
    (callBlob .takePicture w, b.status w.calls)

def cancelPicture : World → World × Status := forward .cancelPicture b.status invalidOperation

def dump (fd : Int) (args : List String) : World → World × Status :=
  forward (.dump fd args) b.status invalidOperation

/-- The defaults that `setParameters` fills in. -/
def patch (params : Params) : Params :=
  let params := if params .previewSize = none then setPreviewSize f 480 320 params else params
  let params := if params .pictureSize = none then setPictureSize f 640 480 params else params
  let params :=
    if params .previewFormat = none then set f .previewFormat pixelFormatYuv420sp params else params
  if params .pictureFormat = none then set f .pictureFormat pixelFormatJpeg params else params

/-- The cache is written first, and once more for a remapped preview size; an error of
the blob becomes `NO_ERROR`. -/
def setParameters (params : Params) (w : World) : World × Status :=
  if isUsable w = false then (w, invalidOperation)
  else
    let safe := sanitizeParameters f (some (patch f params))
    let w := { w with wrapper :=
      { w.wrapper with mLastGoodParameters := safe, mHasLastGoodParameters := true } }
    if shouldDelegateSetParameters w = false then (w, noError)
    else
      let delegated := buildDelegatedParameters f safe
      let remapped : Bool := getPreviewSize f delegated = (432, 320)
      let delegated := if remapped then setPreviewSize f 480 320 delegated else delegated
      let w := callBlob (.setParameters delegated) w
      let w := if remapped then
          { w with wrapper := { w.wrapper with
            mLastGoodParameters := setPreviewSize f 480 320 w.wrapper.mLastGoodParameters } }
        else w
      (w, noError)

def sendCommand (command arg1 arg2 : Int) : World → World × Status :=
  forward (.sendCommand command arg1 arg2) b.status invalidOperation

/-- The teardown: preview, callbacks, the blob, the members. -/
def release (w : World) : World :=
  if isUsable w = false then w
  else
    let w := if w.wrapper.mPreviewRunning then stopPreview w else w
    let w := if w.wrapper.mLibInterface then callBlob (.setCallbacks false false false false) w else w
    let w := { w with wrapper := { w.wrapper with
      mNotifyCb := none, mDataCb := none, mDataCbTimestamp := none, mCallbackUser := 0 } }
    let w := if w.wrapper.mLibInterface then callBlob .release w else w
    { w with wrapper := { w.wrapper with
      mReleased := true, mPreviewRunning := false, mRecordingRunning := false, mLibInterface := false } }

/-! ## The callbacks

`user` tells whether the pointer that comes with a message is the wrapper or null. -/

def notifyCallbackShim (msgType ext1 ext2 : Int) (user : Bool) (w : World) : World :=
  if user = false then w
  else match w.wrapper.mNotifyCb with
    | some cb => { w with client := .notify cb msgType ext1 ext2 w.wrapper.mCallbackUser :: w.client }
    | none => w

def dataCallbackShim (msgType : Int) (dataPtr : Option Nat) (user : Bool) (w : World) : World :=
  if user = false then w
  else
    -- the blob stops preview internally during capture
    let w := if msgType = msgCompressedImage then
        { w with wrapper := { w.wrapper with mPreviewRunning := false } }
      else w
    match w.wrapper.mDataCb with
    | some cb => { w with client := .data cb msgType dataPtr w.wrapper.mCallbackUser :: w.client }
    | none => w

def dataCallbackTimestampShim (timestamp msgType : Int) (dataPtr : Option Nat) (user : Bool) (w : World) :
    World :=
  if user = false then w
  else match w.wrapper.mDataCbTimestamp with
    | some cb =>
      { w with client := .dataTimestamp cb timestamp msgType dataPtr w.wrapper.mCallbackUser :: w.client }
    | none => w

end

/-! ## The machine -/

/-- A call of the camera service, a message of the blob, or another process setting a
system property. -/
inductive Op where
  | getPreviewHeap
  | getRawHeap
  | setCallbacks (notify_cb data_cb data_cb_timestamp : Option Nat) (user : Nat)
  | enableMsgType (msgType : Int)
  | disableMsgType (msgType : Int)
  | msgTypeEnabled (msgType : Int)
  | startPreview
  | getBufferInfo
  | encodeData
  | useOverlay
  | setOverlay (overlay : Nat)
  | stopPreview
  | previewEnabled
  | startRecording
  | stopRecording
  | recordingEnabled
  | releaseRecordingFrame (mem : Nat)
  | autoFocus
  | cancelAutoFocus
  | takePicture
  | cancelPicture
  | dump (fd : Int) (args : List String)
  | setParameters (params : Params)
  | getParameters
  | sendCommand (command arg1 arg2 : Int)
  | release
  | notifyCallback (msgType ext1 ext2 : Int) (user : Bool)
  | dataCallback (msgType : Int) (dataPtr : Option Nat) (user : Bool)
  | dataCallbackTimestamp (timestamp msgType : Int) (dataPtr : Option Nat) (user : Bool)
  | setProperty (name value : String)

def step (f : Framework) (b : Blob) (w : World) : Op → World
  | .getPreviewHeap => (getPreviewHeap b w).1
  | .getRawHeap => (getRawHeap b w).1
  | .setCallbacks notify_cb data_cb data_cb_timestamp user =>
    setCallbacks notify_cb data_cb data_cb_timestamp user w
  | .enableMsgType msgType => enableMsgType msgType w
  | .disableMsgType msgType => disableMsgType msgType w
  | .msgTypeEnabled msgType => (msgTypeEnabled b msgType w).1
  | .startPreview => (startPreview f b w).1
  | .getBufferInfo => (getBufferInfo b w).1
  | .encodeData => encodeData w
  | .useOverlay => w
  | .setOverlay overlay => (setOverlay b overlay w).1
  | .stopPreview => stopPreview w
  | .previewEnabled => w
  | .startRecording => (startRecording f b w).1
  | .stopRecording => stopRecording w
  | .recordingEnabled => w
  | .releaseRecordingFrame mem => releaseRecordingFrame mem w
  | .autoFocus => (autoFocus b w).1
  | .cancelAutoFocus => (cancelAutoFocus b w).1
  | .takePicture => (takePicture f b w).1
  | .cancelPicture => (cancelPicture b w).1
  | .dump fd args => (dump b fd args w).1
  | .setParameters params => (setParameters f params w).1
  | .getParameters => (getParameters f w).1
  | .sendCommand command arg1 arg2 => (sendCommand b command arg1 arg2 w).1
  | .release => release w
  | .notifyCallback msgType ext1 ext2 user => notifyCallbackShim msgType ext1 ext2 user w
  | .dataCallback msgType dataPtr user => dataCallbackShim msgType dataPtr user w
  | .dataCallbackTimestamp timestamp msgType dataPtr user =>
    dataCallbackTimestampShim timestamp msgType dataPtr user w
  | .setProperty name value => { w with properties := Function.update w.properties name value }

/-- The calls that neither preview, recording, pictures nor parameters depend on. -/
def BlobCall.neutral : BlobCall → Bool
  | .startPreview | .stopPreview | .startRecording | .stopRecording | .takePicture | .setParameters _
  | .release => false
  | _ => true

/-- The operations that pass on a neutral call at most. -/
def Op.plain : Op → Bool
  | .startPreview | .stopPreview | .startRecording | .stopRecording | .takePicture | .setParameters _
  | .getParameters | .release | .dataCallback _ _ _ => false
  | _ => true

/-! ## What the methods leave alone -/

section
variable (f : Framework) (call : BlobCall) (w : World)

@[simp] theorem callBlob_calls : (callBlob call w).calls = call :: w.calls := rfl

theorem forward_fst {α : Type} (answer : List BlobCall → α) (dflt : α) :
    (forward call answer dflt w).1 = if isUsable w then callBlob call w else w := by
  unfold forward
  split <;> rfl

/-- `getParameters` only fills the cache. -/
theorem getParameters_fst : (getParameters f w).1 = { w with wrapper :=
    { w.wrapper with mLastGoodParameters := (getParameters f w).1.wrapper.mLastGoodParameters,
                     mHasLastGoodParameters := (getParameters f w).1.wrapper.mHasLastGoodParameters } } := by
  unfold getParameters
  split
  · split <;> rfl
  · split <;> rfl

@[simp] theorem getParameters_calls : (getParameters f w).1.calls = w.calls := by rw [getParameters_fst]
@[simp] theorem getParameters_mPreviewRunning :
    (getParameters f w).1.wrapper.mPreviewRunning = w.wrapper.mPreviewRunning := by rw [getParameters_fst]
@[simp] theorem isUsable_getParameters : isUsable (getParameters f w).1 = isUsable w := by
  rw [getParameters_fst]
  rfl

end

/-- What a plain operation may change: the log by one neutral call, the registered
callbacks, the client's log and the properties. -/
structure Plain (w w' : World) : Prop where
  usable : isUsable w' = isUsable w
  preview : w'.wrapper.mPreviewRunning = w.wrapper.mPreviewRunning
  recording : w'.wrapper.mRecordingRunning = w.wrapper.mRecordingRunning
  cached : w'.wrapper.mHasLastGoodParameters = w.wrapper.mHasLastGoodParameters
  cache : w'.wrapper.mLastGoodParameters = w.wrapper.mLastGoodParameters
  calls : w'.calls = w.calls ∨ ∃ call, call.neutral = true ∧ w'.calls = call :: w.calls

theorem step_plain {f : Framework} {b : Blob} {op : Op} (h : op.plain = true) (w : World) :
    Plain w (step f b w op) := by
  have hsame : Plain w w := ⟨rfl, rfl, rfl, rfl, rfl, .inl rfl⟩
  have hforward : ∀ (call : BlobCall) {α : Type} (answer : List BlobCall → α) (dflt : α),
      call.neutral = true → Plain w (forward call answer dflt w).1 := by
    intro call α answer dflt hn
    rw [forward_fst]
    split
    · exact ⟨rfl, rfl, rfl, rfl, rfl, .inr ⟨call, hn, rfl⟩⟩
    · exact hsame
  cases op with
  | getPreviewHeap | getRawHeap | enableMsgType | disableMsgType | msgTypeEnabled | getBufferInfo
  | encodeData | releaseRecordingFrame | autoFocus | cancelAutoFocus | cancelPicture | dump
  | sendCommand => exact hforward _ _ _ rfl
  | useOverlay | previewEnabled | recordingEnabled => exact hsame
  | setProperty => exact ⟨rfl, rfl, rfl, rfl, rfl, .inl rfl⟩
  | setCallbacks =>
    simp only [step, setCallbacks]
    split
    · exact ⟨rfl, rfl, rfl, rfl, rfl, .inr ⟨_, rfl, rfl⟩⟩
    · exact hsame
  | setOverlay overlay =>
    simp only [step, setOverlay]
    split
    · exact hsame
    · split
      · exact hsame
      · exact ⟨rfl, rfl, rfl, rfl, rfl, .inr ⟨.setOverlay overlay, rfl, rfl⟩⟩
  | notifyCallback =>
    simp only [step, notifyCallbackShim]
    split
    · exact hsame
    · split <;> exact ⟨rfl, rfl, rfl, rfl, rfl, .inl rfl⟩
  | dataCallbackTimestamp =>
    simp only [step, dataCallbackTimestampShim]
    split
    · exact hsame
    · split <;> exact ⟨rfl, rfl, rfl, rfl, rfl, .inl rfl⟩
  | _ => cases h

section
variable {f : Framework} {b : Blob} {w : World}

/-- The flag of a running preview is set. -/
def previewOn (w : World) : World := { w with wrapper := { w.wrapper with mPreviewRunning := true } }

/-- `startPreview` on a usable wrapper: which of its two tries, if any, switched the blob on. -/
theorem startPreview_cases (hu : isUsable w = true) :
    let v := callBlob .startPreview (getParameters f w).1
    b.status w.calls = noError ∧ (startPreview f b w).1 = previewOn v ∨
    b.status w.calls = invalidOperation ∧ (startPreview f b w).1 = v ∨
    b.status w.calls ≠ noError ∧ b.status v.calls = noError ∧
      (startPreview f b w).1 = previewOn (callBlob .startPreview v) ∨
    b.status w.calls ≠ noError ∧ b.status v.calls ≠ noError ∧
      (startPreview f b w).1 = callBlob .startPreview v := by
  intro v
  have hu' : ¬ isUsable w = false := by simp [hu]
  have hc : (getParameters f w).1.calls = w.calls := getParameters_calls f w
  by_cases h0 : b.status w.calls = noError
  · left
    refine ⟨h0, ?_⟩
    simp [startPreview, hu', h0, v, previewOn]
  · by_cases h1 : b.status w.calls = invalidOperation
    · right; left
      refine ⟨h1, ?_⟩
      simp [startPreview, hu', h1, v, noError, invalidOperation]
    · right; right
      by_cases h2 : b.status v.calls = noError
      · left
        refine ⟨h0, h2, ?_⟩
        have h2' : b.status (.startPreview :: w.calls) = noError := by
          rw [← hc]
          exact h2
        simp [startPreview, hu', h0, h1, h2', v, previewOn]
      · right
        refine ⟨h0, h2, ?_⟩
        have h2' : b.status (.startPreview :: w.calls) ≠ noError := by
          rw [← hc]
          exact h2
        simp [startPreview, hu', h0, h1, h2', v]

/-- The set that `setParameters` caches first. -/
def sanitized (f : Framework) (params : Params) : Params := sanitizeParameters f (some (patch f params))

def remapped (f : Framework) (params : Params) : Bool :=
  getPreviewSize f (buildDelegatedParameters f (sanitized f params)) = (432, 320)

/-- The set that the blob is told. -/
def told (f : Framework) (params : Params) : Params :=
  if remapped f params then setPreviewSize f 480 320 (buildDelegatedParameters f (sanitized f params))
  else buildDelegatedParameters f (sanitized f params)

/-- The set that stays cached. -/
def stored (f : Framework) (params : Params) : Params :=
  if remapped f params then setPreviewSize f 480 320 (sanitized f params) else sanitized f params

theorem setParameters_delegated (params : Params) (hu : isUsable w = true)
    (hd : shouldDelegateSetParameters w = true) :
    (setParameters f params w).1 = { callBlob (.setParameters (told f params)) w with
      wrapper := { w.wrapper with mLastGoodParameters := stored f params, mHasLastGoodParameters := true } } := by
  have hu' : ¬ isUsable w = false := by simp [hu]
  have hd' : shouldDelegateSetParameters { w with wrapper := { w.wrapper with
      mLastGoodParameters := sanitized f params, mHasLastGoodParameters := true } } = true := hd
  unfold setParameters
  dsimp only
  rw [if_neg hu', if_neg (by rw [← sanitized, hd']; decide)]
  unfold told stored remapped sanitized
  split <;> rfl

theorem setParameters_cached (params : Params) (hu : isUsable w = true)
    (hd : shouldDelegateSetParameters w = false) :
    (setParameters f params w).1 = { w with wrapper := { w.wrapper with
      mLastGoodParameters := sanitized f params, mHasLastGoodParameters := true } } := by
  have hu' : ¬ isUsable w = false := by simp [hu]
  have hd' : shouldDelegateSetParameters { w with wrapper := { w.wrapper with
      mLastGoodParameters := sanitized f params, mHasLastGoodParameters := true } } = false := hd
  unfold setParameters
  dsimp only
  rw [if_neg hu', if_pos (by rw [← sanitized]; exact hd')]
  rfl

/-- A data message: the flag of the preview, then the client. -/
theorem dataCallbackShim_user (msgType : Int) (dataPtr : Option Nat) :
    dataCallbackShim msgType dataPtr true w = { w with
      wrapper := { w.wrapper with mPreviewRunning :=
        if msgType = msgCompressedImage then false else w.wrapper.mPreviewRunning },
      client := match w.wrapper.mDataCb with
        | some cb => .data cb msgType dataPtr w.wrapper.mCallbackUser :: w.client
        | none => w.client } := by
  obtain ⟨⟨_, _, _, _, _, mDataCb, _, _, _, _⟩, _, _, _⟩ := w
  by_cases hm : msgType = msgCompressedImage <;> cases mDataCb <;> simp [dataCallbackShim, hm]

/-- The teardown of a usable wrapper. -/
theorem release_usable (hu : isUsable w = true) :
    release w = ⟨{ w.wrapper with
        mLibInterface := false, mReleased := true, mPreviewRunning := false, mRecordingRunning := false,
        mNotifyCb := none, mDataCb := none, mDataCbTimestamp := none, mCallbackUser := 0 },
      .release :: .setCallbacks false false false false ::
        (if w.wrapper.mPreviewRunning then .stopPreview :: w.calls else w.calls),
      w.client, w.properties⟩ := by
  have hu' : ¬ isUsable w = false := by simp [hu]
  have hl : w.wrapper.mLibInterface = true := by
    unfold isUsable at hu
    exact (Bool.and_eq_true _ _ ▸ hu).1
  unfold release
  rw [if_neg hu']
  cases hp : w.wrapper.mPreviewRunning <;> simp [stopPreview, hu', hp, hl, callBlob]

end

end CameraWrapper
