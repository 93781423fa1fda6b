import Mathlib.Data.List.Basic
import Y210.CameraRelease

/-!
# The wrapper between the service and the blob

What the service asks of an open camera reaches the blob once and in order, and what the blob tells
reaches the client that registered last.
-/
namespace CameraProxy

open Run CameraParameters CameraWrapper CameraRelease

/-- The call that an operation is there to pass on. Preview, overlay, parameters, registration and
release are decided by the wrapper. -/
def passed : Op → Option BlobCall
  | .getPreviewHeap => some .getPreviewHeap
  | .getRawHeap => some .getRawHeap
  | .enableMsgType msgType => some (.enableMsgType msgType)
  | .disableMsgType msgType => some (.disableMsgType msgType)
  | .msgTypeEnabled msgType => some (.msgTypeEnabled msgType)
  | .getBufferInfo => some .getBufferInfo
  | .encodeData => some .encodeData
  | .startRecording => some .startRecording
  | .stopRecording => some .stopRecording
  | .releaseRecordingFrame mem => some (.releaseRecordingFrame mem)
  | .autoFocus => some .autoFocus
  | .cancelAutoFocus => some .cancelAutoFocus
  | .takePicture => some .takePicture
  | .cancelPicture => some .cancelPicture
  | .dump fd args => some (.dump fd args)
  | .sendCommand command arg1 arg2 => some (.sendCommand command arg1 arg2)
  | _ => none

/-- The calls that are nothing but passed on. -/
def isPassed : BlobCall → Bool
  | .setCallbacks .. | .startPreview | .stopPreview | .setOverlay _ | .setParameters _ | .release => false
  | _ => true

def releases : Op → Bool
  | .release => true
  | _ => false

variable {f : Framework} {b : Blob}

theorem not_releases {op : Op} (h : releases op = false) : op ≠ .release := by
  rintro rfl
  cases h

/-! ## From the service to the blob -/

/-- The callbacks that the blob is told of. -/
def registered : Op → Option (Bool × Bool × Bool)
  | .setCallbacks notify_cb data_cb data_cb_timestamp _ =>
    some (notify_cb.isSome, data_cb.isSome, data_cb_timestamp.isSome)
  | .release => some (false, false, false)
  | _ => none

/-- What an operation adds to the blob's log: the call it is there to pass on and no other of its
kind, and the callbacks it registers. -/
structure Adds (op : Op) (newer : List BlobCall) : Prop where
  passed : newer.filter isPassed = (passed op).toList
  registered : ∀ older, blobCallbacks (newer ++ older) = (registered op).or (blobCallbacks older)

/-- One operation on an open camera. -/
theorem step_adds (op : Op) {w : World} (hu : isUsable w = true) :
    ∃ newer, (step f b w op).calls = newer ++ w.calls ∧ Adds op newer := by
  have hu' : ¬ isUsable w = false := by simp [hu]
  have hget := getParameters_calls f w
  cases op with
  | getPreviewHeap | getRawHeap | enableMsgType | disableMsgType | msgTypeEnabled | getBufferInfo
  | encodeData | releaseRecordingFrame | autoFocus | cancelAutoFocus | cancelPicture | dump | sendCommand =>
    have hforward : ∀ (call : BlobCall) {α : Type} (answer : List BlobCall → α) (dflt : α),
        (forward call answer dflt w).1.calls = [call] ++ w.calls := by
      intro call α answer dflt
      rw [forward_fst, if_pos hu]
      rfl
    exact ⟨_, hforward _ _ _, rfl, fun _ => rfl⟩
  | useOverlay | previewEnabled | recordingEnabled | setProperty => exact ⟨[], rfl, rfl, fun _ => rfl⟩
  | getParameters => exact ⟨[], hget, rfl, fun _ => rfl⟩
  | setCallbacks =>
    rw [step, setCallbacks, if_pos hu]
    exact ⟨[_], rfl, rfl, fun _ => rfl⟩
  | setOverlay overlay =>
    rw [step, setOverlay, if_neg hu']
    split
    · exact ⟨[], rfl, rfl, fun _ => rfl⟩
    · exact ⟨[.setOverlay overlay], rfl, rfl, fun _ => rfl⟩
  | startPreview =>
    have hone : (callBlob .startPreview (getParameters f w).1).calls = [.startPreview] ++ w.calls := by
      rw [callBlob_calls, hget]
      rfl
    have htwo : (callBlob .startPreview (callBlob .startPreview (getParameters f w).1)).calls =
        [.startPreview, .startPreview] ++ w.calls := by
      rw [callBlob_calls, hone]
      rfl
    rcases startPreview_cases (f := f) (b := b) hu with ⟨-, h⟩ | ⟨-, h⟩ | ⟨-, -, h⟩ | ⟨-, -, h⟩ <;> rw [step, h]
    · exact ⟨_, hone, rfl, fun _ => rfl⟩
    · exact ⟨_, hone, rfl, fun _ => rfl⟩
    · exact ⟨_, htwo, rfl, fun _ => rfl⟩
    · exact ⟨_, htwo, rfl, fun _ => rfl⟩
  | stopPreview =>
    rw [step, stopPreview, if_neg hu']
    split
    · exact ⟨[], rfl, rfl, fun _ => rfl⟩
    · exact ⟨[.stopPreview], rfl, rfl, fun _ => rfl⟩
  | startRecording =>
    have hcall : (callBlob .startRecording (getParameters f w).1).calls = [.startRecording] ++ w.calls := by
      rw [callBlob_calls, hget]
      rfl
    rw [step, startRecording, if_neg hu']
    dsimp only
    split <;> exact ⟨_, hcall, rfl, fun _ => rfl⟩
  | stopRecording =>
    rw [step, stopRecording, if_neg hu']
    exact ⟨[.stopRecording], rfl, rfl, fun _ => rfl⟩
  | takePicture =>
    rw [step, takePicture, if_neg hu']
    refine ⟨[.takePicture], ?_, rfl, fun _ => rfl⟩
    dsimp only
    rw [callBlob_calls, hget]
    rfl
  | setParameters params =>
    cases hd : shouldDelegateSetParameters w with
    | false =>
      rw [step, setParameters_cached params hu hd]
      exact ⟨[], rfl, rfl, fun _ => rfl⟩
    | true =>
      rw [step, setParameters_delegated params hu hd]
      exact ⟨[.setParameters (told f params)], rfl, rfl, fun _ => rfl⟩
  | release =>
    rw [step, release_usable hu]
    cases w.wrapper.mPreviewRunning with
    | false => exact ⟨[.release, .setCallbacks false false false false], rfl, rfl, fun _ => rfl⟩
    | true => exact ⟨[.release, .setCallbacks false false false false, .stopPreview], rfl, rfl, fun _ => rfl⟩
  | notifyCallback =>
    simp only [step, notifyCallbackShim]
    split
    · exact ⟨[], rfl, rfl, fun _ => rfl⟩
    · split <;> exact ⟨[], rfl, rfl, fun _ => rfl⟩
  | dataCallback msgType dataPtr user =>
    cases user with
    | false => exact ⟨[], rfl, rfl, fun _ => rfl⟩
    | true =>
      rw [step, dataCallbackShim_user]
      exact ⟨[], rfl, rfl, fun _ => rfl⟩
  | dataCallbackTimestamp =>
    simp only [step, dataCallbackTimestampShim]
    split
    · exact ⟨[], rfl, rfl, fun _ => rfl⟩
    · split <;> exact ⟨[], rfl, rfl, fun _ => rfl⟩

theorem step_passed (op : Op) {w : World} (hu : isUsable w = true) :
    (step f b w op).calls.filter isPassed = (passed op).toList ++ w.calls.filter isPassed := by
  obtain ⟨newer, hcalls, hadds⟩ := step_adds (f := f) (b := b) op hu
  rw [hcalls, List.filter_append, hadds.passed]

theorem isUsable_step_release (w : World) : isUsable (step f b w .release) = false := by
  cases hu : isUsable w with
  | true =>
    rw [step, release_usable hu]
    rfl
  | false => exact (step_silent .release hu).usable

/-- The calls of an open camera's life, from any point of it. -/
theorem exec_passed (ops : List Op) {w : World} (hu : isUsable w = true) :
    ((exec (step f b) w ops).calls.filter isPassed).reverse =
      (w.calls.filter isPassed).reverse ++ (ops.takeWhile fun op => !releases op).filterMap passed := by
  induction ops generalizing w with
  | nil => simp
  | cons op ops ih =>
    rw [exec_cons]
    cases hr : releases op with
    | true =>
      obtain rfl : op = .release := by
        cases op with
        | release => rfl
        | _ => cases hr
      have hsilent : ∀ (ops : List Op) {v : World}, isUsable v = false →
          (exec (step f b) v ops).calls = v.calls := by
        intro ops
        induction ops with
        | nil => exact fun _ => rfl
        | cons op ops ih =>
          intro v hv
          have hs := step_silent (f := f) (b := b) op hv
          rw [exec_cons, ih hs.usable, hs.calls]
      rw [hsilent ops (isUsable_step_release w), step_passed .release hu]
      simp [passed, releases]
    | false =>
      have husable : isUsable (step f b w op) = true := (step_kept (not_releases hr) w).usable.trans hu
      rw [ih husable, step_passed op hu, List.takeWhile_cons_of_pos (by simp [hr])]
      cases hp : passed op with
      | none => simp [hp]
      | some call => simp [hp]

/-- Over the whole life of a camera, the calls that the wrapper only passes on reach the blob exactly
once each and in the order of the service's operations, up to the first release. -/
theorem passed_in_order (f : Framework) (b : Blob) (properties : String → String) (ops : List Op) :
    ((exec (step f b) (create true properties) ops).calls.filter isPassed).reverse =
      (ops.takeWhile fun op => !releases op).filterMap passed := by
  have h := exec_passed (f := f) (b := b) ops (show isUsable (create true properties) = true from rfl)
  rw [h]
  rfl

/-! ## From the blob to the client -/

/-- What a client has registered. -/
structure Registration where
  notify : Option Nat
  data : Option Nat
  dataTimestamp : Option Nat
  user : Nat
  deriving DecidableEq

def nobody : Registration := ⟨none, none, none, 0⟩

/-- A message of the blob, delivered. -/
def deliver (r : Registration) : Op → Option ClientCall
  | .notifyCallback msgType ext1 ext2 true => r.notify.map fun cb => .notify cb msgType ext1 ext2 r.user
  | .dataCallback msgType dataPtr true => r.data.map fun cb => .data cb msgType dataPtr r.user
  | .dataCallbackTimestamp timestamp msgType dataPtr true =>
    r.dataTimestamp.map fun cb => .dataTimestamp cb timestamp msgType dataPtr r.user
  | _ => none

/-- The registration after an operation on a camera that is open or not. -/
def register (usable : Bool) (r : Registration) : Op → Registration
  | .setCallbacks notify_cb data_cb data_cb_timestamp user =>
    if usable then ⟨notify_cb, data_cb, data_cb_timestamp, user⟩ else r
  | .release => if usable then nobody else r
  | _ => r

/-- The clients' side of a run: each message goes to the registration of its moment. -/
def route : Bool → Registration → List Op → List ClientCall
  | _, _, [] => []
  | usable, r, op :: ops =>
    (deliver r op).toList ++ route (usable && !releases op) (register usable r op) ops

def registration (w : World) : Registration :=
  ⟨w.wrapper.mNotifyCb, w.wrapper.mDataCb, w.wrapper.mDataCbTimestamp, w.wrapper.mCallbackUser⟩

/-- Nothing but a registration, a release and a message touches the clients' side. -/
structure Same (w w' : World) : Prop where
  registration : registration w' = registration w
  client : w'.client = w.client

theorem same_getParameters (w : World) : Same w (getParameters f w).1 := by
  rw [getParameters_fst]
  exact ⟨rfl, rfl⟩

theorem step_client (op : Op) (w : World) :
    registration (step f b w op) = register (isUsable w) (registration w) op ∧
      (step f b w op).client = (deliver (registration w) op).toList ++ w.client := by
  have hsame : ∀ {w' : World}, Same w w' → register (isUsable w) (registration w) op = registration w →
      deliver (registration w) op = none →
      registration w' = register (isUsable w) (registration w) op ∧
        w'.client = (deliver (registration w) op).toList ++ w.client := by
    intro w' h hr hd
    rw [hr, hd]
    exact ⟨h.registration, h.client⟩
  have hrefl : Same w w := ⟨rfl, rfl⟩
  have hforward : ∀ (call : BlobCall) {α : Type} (answer : List BlobCall → α) (dflt : α),
      Same w (forward call answer dflt w).1 := by
    intro call α answer dflt
    rw [forward_fst]
    split <;> exact ⟨rfl, rfl⟩
  cases op with
  | getPreviewHeap | getRawHeap | enableMsgType | disableMsgType | msgTypeEnabled | getBufferInfo
  | encodeData | releaseRecordingFrame | autoFocus | cancelAutoFocus | cancelPicture | dump
  | sendCommand => exact hsame (hforward _ _ _) rfl rfl
  | useOverlay | previewEnabled | recordingEnabled | setProperty => exact ⟨rfl, rfl⟩
  | getParameters => exact hsame (same_getParameters w) rfl rfl
  | setOverlay overlay =>
    refine hsame ?_ rfl rfl
    simp only [step, setOverlay]
    split
    · exact hrefl
    · split <;> exact ⟨rfl, rfl⟩
  | stopPreview =>
    refine hsame ?_ rfl rfl
    simp only [step, stopPreview]
    split
    · exact hrefl
    · split <;> exact ⟨rfl, rfl⟩
  | stopRecording =>
    refine hsame ?_ rfl rfl
    simp only [step, stopRecording]
    split <;> exact ⟨rfl, rfl⟩
  | startPreview =>
    refine hsame ?_ rfl rfl
    have hget := same_getParameters (f := f) w
    cases hu : isUsable w with
    | false => simpa only [step, startPreview, hu, if_true] using hrefl
    | true =>
      rcases startPreview_cases (f := f) (b := b) hu with ⟨-, h⟩ | ⟨-, h⟩ | ⟨-, -, h⟩ | ⟨-, -, h⟩ <;>
        (rw [step, h]; exact ⟨hget.registration, hget.client⟩)
  | startRecording =>
    refine hsame ?_ rfl rfl
    have hget := same_getParameters (f := f) w
    simp only [step, startRecording]
    split
    · exact hrefl
    · split <;> exact ⟨hget.registration, hget.client⟩
  | takePicture =>
    refine hsame ?_ rfl rfl
    have hget := same_getParameters (f := f) w
    simp only [step, takePicture]
    split
    · exact hrefl
    · exact ⟨hget.registration, hget.client⟩
  | setParameters params =>
    refine hsame ?_ rfl rfl
    cases hu : isUsable w with
    | false => simpa only [step, setParameters, hu, if_true] using hrefl
    | true =>
      cases hd : shouldDelegateSetParameters w with
      | false =>
        rw [step, setParameters_cached params hu hd]
        exact ⟨rfl, rfl⟩
      | true =>
        rw [step, setParameters_delegated params hu hd]
        exact ⟨rfl, rfl⟩
  | setCallbacks notify_cb data_cb data_cb_timestamp user =>
    cases hu : isUsable w <;> simp [step, setCallbacks, hu, register, registration, deliver, callBlob]
  | release =>
    cases hu : isUsable w with
    | false => simp [step, release, hu, register, deliver]
    | true =>
      rw [step, release_usable hu]
      exact ⟨rfl, rfl⟩
  | notifyCallback msgType ext1 ext2 user =>
    cases user with
    | false => exact ⟨rfl, rfl⟩
    | true =>
      cases hcb : w.wrapper.mNotifyCb <;>
        simp [step, notifyCallbackShim, hcb, register, registration, deliver]
  | dataCallback msgType dataPtr user =>
    cases user with
    | false => exact ⟨rfl, rfl⟩
    | true =>
      rw [step, dataCallbackShim_user]
      cases hcb : w.wrapper.mDataCb <;> simp [hcb, register, registration, deliver]
  | dataCallbackTimestamp timestamp msgType dataPtr user =>
    cases user with
    | false => exact ⟨rfl, rfl⟩
    | true =>
      cases hcb : w.wrapper.mDataCbTimestamp <;>
        simp [step, dataCallbackTimestampShim, hcb, register, registration, deliver]

theorem isUsable_step (op : Op) (w : World) : isUsable (step f b w op) = (isUsable w && !releases op) := by
  cases hr : releases op with
  | false => rw [(step_kept (not_releases hr) w).usable, Bool.not_false, Bool.and_true]
  | true =>
    obtain rfl : op = .release := by
      cases op with
      | release => rfl
      | _ => cases hr
    rw [isUsable_step_release, Bool.not_true, Bool.and_false]

theorem exec_client (ops : List Op) (w : World) : (exec (step f b) w ops).client.reverse =
    w.client.reverse ++ route (isUsable w) (registration w) ops := by
  induction ops generalizing w with
  | nil => simp [route]
  | cons op ops ih =>
    obtain ⟨hr, hc⟩ := step_client (f := f) (b := b) op w
    rw [exec_cons, ih, hr, hc, isUsable_step, route, List.reverse_append, List.append_assoc]
    cases deliver (registration w) op <;> rfl

/-- Over the whole life of a wrapper, each message of the blob goes once, in order and with its data to
the client that registered last before it, and to nobody once the camera is released. -/
theorem messages_routed (f : Framework) (b : Blob) (iface : Bool) (properties : String → String) (ops : List Op) :
    (exec (step f b) (create iface properties) ops).client.reverse = route iface nobody ops := by
  have h := exec_client (f := f) (b := b) ops (create iface properties)
  rw [h]
  cases iface <;> rfl

/-! ## What the blob knows of the registration -/

/-- The blob was last told of exactly the callbacks that there are. -/
def Told (w : World) : Prop := (blobCallbacks w.calls).getD (false, false, false) =
  ((registration w).notify.isSome, (registration w).data.isSome, (registration w).dataTimestamp.isSome)

theorem told_step (w : World) (op : Op) (h : Told w) : Told (step f b w op) := by
  have hr := (step_client (f := f) (b := b) op w).1
  unfold Told
  cases hu : isUsable w with
  | false =>
    have hsame : register false (registration w) op = registration w := by cases op <;> rfl
    rw [hr, hu, hsame, (step_silent op hu).calls]
    exact h
  | true =>
    obtain ⟨newer, hcalls, hadds⟩ := step_adds (f := f) (b := b) op hu
    rw [hr, hu, hcalls, hadds.registered]
    cases op with
    | setCallbacks => rfl
    | release => rfl
    | _ => exact h

/-- In every state of every life, what the blob was last told to call back is exactly what a client has
registered, and nothing once the camera is released: no message of an honest blob is dropped. -/
theorem told_always (f : Framework) (b : Blob) (iface : Bool) (properties : String → String) (ops : List Op) :
    AllStates (step f b) Told (create iface properties) ops :=
  allStates_of_invariant told_step (by rfl) ops

end CameraProxy
