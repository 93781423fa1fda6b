import Y210.CameraWrapper

/-!
# The release of the blob

Every method is guarded by `isUsable`. The teardown therefore runs once, and it is the
last thing the blob hears of.
-/
namespace CameraRelease

open CameraParameters CameraWrapper

variable {f : Framework} {b : Blob}

def isRelease : BlobCall → Bool
  | .release => true
  | _ => false

/-- The callbacks that the blob holds after the calls it has seen, if it was told any. -/
def blobCallbacks : List BlobCall → Option (Bool × Bool × Bool)
  | [] => none
  | .setCallbacks notify data dataTimestamp _ :: _ => some (notify, data, dataTimestamp)
  | _ :: older => blobCallbacks older

/-- What the blob hears of its release: once, behind null callbacks, and nothing after it. -/
structure TornDown (calls : List BlobCall) : Prop where
  once : calls.countP isRelease ≤ 1
  callbacks : ∀ newer older, calls = newer ++ .release :: older →
    blobCallbacks older = some (false, false, false)
  last : ∀ newer older, calls = newer ++ .release :: older → newer = []

/-! ## While the wrapper lives -/

/-- The log may grow, but not by a release. -/
structure Kept (w w' : World) : Prop where
  usable : isUsable w' = isUsable w
  grown : ∃ newer, w'.calls = newer ++ w.calls ∧ .release ∉ newer

namespace Kept

variable {w w' w'' : World}

theorem of_eq (hu : isUsable w' = isUsable w) (hc : w'.calls = w.calls) : Kept w w' :=
  ⟨hu, [], hc, List.not_mem_nil⟩

theorem trans (h₁ : Kept w w') (h₂ : Kept w' w'') : Kept w w'' := by
  obtain ⟨xs, hx, hxr⟩ := h₁.grown
  obtain ⟨ys, hy, hyr⟩ := h₂.grown
  refine ⟨h₂.usable.trans h₁.usable, ys ++ xs, ?_, ?_⟩
  · rw [hy, hx, List.append_assoc]
  · simp [hxr, hyr]

theorem call (call : BlobCall) (h : call ≠ .release) (w : World) : Kept w (callBlob call w) :=
  ⟨rfl, [call], rfl, by simpa using h.symm⟩

theorem of_plain (h : Plain w w') : Kept w w' := by
  rcases h.calls with hc | ⟨call, hn, hc⟩
  · exact .of_eq h.usable hc
  · refine ⟨h.usable, [call], hc, fun hm => ?_⟩
    rw [← List.mem_singleton.mp hm] at hn
    cases hn

theorem getParameters (w : World) : Kept w (getParameters f w).1 :=
  of_eq (isUsable_getParameters f w) (getParameters_calls f w)

end Kept

/-- No other method releases the blob or ends the wrapper. -/
theorem step_kept {op : Op} (h : op ≠ .release) (w : World) : Kept w (step f b w op) := by
  cases hp : op.plain with
  | true => exact .of_plain (step_plain hp w)
  | false =>
    cases op with
    | getParameters => exact Kept.getParameters w
    | startPreview =>
      cases hu : isUsable w with
      | false =>
        simp only [step, startPreview, hu, if_true]
        exact .of_eq rfl rfl
      | true =>
        have hone := (Kept.getParameters w).trans (.call .startPreview (by simp) (getParameters f w).1)
        have htwo := hone.trans (.call .startPreview (by simp) _)
        rw [step]
        rcases startPreview_cases (f := f) (b := b) hu with ⟨-, h⟩ | ⟨-, h⟩ | ⟨-, -, h⟩ | ⟨-, -, h⟩ <;> rw [h]
        · exact ⟨hone.usable, hone.grown⟩
        · exact hone
        · exact ⟨htwo.usable, htwo.grown⟩
        · exact htwo
    | stopPreview =>
      simp only [step, stopPreview]
      split
      · exact .of_eq rfl rfl
      · split
        · exact .of_eq rfl rfl
        · exact ⟨rfl, [.stopPreview], rfl, by simp⟩
    | startRecording =>
      have hask := (Kept.getParameters w).trans (.call .startRecording (by simp) (getParameters f w).1)
      simp only [step, startRecording]
      split
      · exact .of_eq rfl rfl
      · split
        · exact ⟨hask.usable, hask.grown⟩
        · exact hask
    | stopRecording =>
      simp only [step, stopRecording]
      split
      · exact .of_eq rfl rfl
      · exact ⟨rfl, [.stopRecording], rfl, by simp⟩
    | takePicture =>
      simp only [step, takePicture]
      split
      · exact .of_eq rfl rfl
      · exact (Kept.getParameters w).trans (.call .takePicture (by simp) _)
    | setParameters params =>
      cases hu : isUsable w with
      | false =>
        simp only [step, setParameters, hu, if_true]
        exact .of_eq rfl rfl
      | true =>
        cases hd : shouldDelegateSetParameters w with
        | false =>
          rw [step, setParameters_cached params hu hd]
          exact .of_eq rfl rfl
        | true =>
          rw [step, setParameters_delegated params hu hd]
          exact ⟨rfl, [_], rfl, by simp⟩
    | dataCallback msgType dataPtr user =>
      cases user with
      | false => exact .of_eq rfl rfl
      | true =>
        rw [step, dataCallbackShim_user]
        exact .of_eq rfl rfl
    | release => exact absurd rfl h
    | _ => cases hp

/-! ## After the release -/

/-- No client callback is registered. -/
def Deaf (w : World) : Prop :=
  w.wrapper.mNotifyCb = none ∧ w.wrapper.mDataCb = none ∧ w.wrapper.mDataCbTimestamp = none

/-- An unusable wrapper does not reach the blob, nor the client once it is deaf. -/
structure Silent (w w' : World) : Prop where
  usable : isUsable w' = false
  calls : w'.calls = w.calls
  deaf : Deaf w → Deaf w' ∧ w'.client = w.client

/-- No method gets past the guard, and no message past a null callback. -/
theorem step_silent (op : Op) {w : World} (hu : isUsable w = false) : Silent w (step f b w op) := by
  have hsame : Silent w w := ⟨hu, rfl, fun h => ⟨h, rfl⟩⟩
  have hget : Silent w (getParameters f w).1 := by
    rw [getParameters_fst]
    exact ⟨hu, rfl, fun h => ⟨h, rfl⟩⟩
  have hforward : ∀ (call : BlobCall) {α : Type} (answer : List BlobCall → α) (dflt : α),
      Silent w (forward call answer dflt w).1 := fun call _ answer dflt => by
    rw [forward_fst, if_neg (by simp [hu])]
    exact hsame
  cases op with
  | getPreviewHeap | getRawHeap | enableMsgType | disableMsgType | msgTypeEnabled | getBufferInfo
  | encodeData | releaseRecordingFrame | autoFocus | cancelAutoFocus | cancelPicture | dump
  | sendCommand => exact hforward _ _ _
  | useOverlay | previewEnabled | recordingEnabled => exact hsame
  | setProperty => exact ⟨hu, rfl, fun h => ⟨h, rfl⟩⟩
  | getParameters => exact hget
  | setCallbacks => simpa [step, setCallbacks, hu] using hsame
  | startPreview => simpa [step, startPreview, hu] using hsame
  | setOverlay => simpa [step, setOverlay, hu] using hsame
  | stopPreview => simpa [step, stopPreview, hu] using hsame
  | startRecording => simpa [step, startRecording, hu] using hsame
  | stopRecording => simpa [step, stopRecording, hu] using hsame
  | takePicture => simpa [step, takePicture, hu] using hsame
  | setParameters => simpa [step, setParameters, hu] using hsame
  | release => simpa [step, release, hu] using hsame
  | notifyCallback =>
    simp only [step, notifyCallbackShim]
    split
    · exact hsame
    · split
      · rename_i hcb
        exact ⟨hu, rfl, fun h => absurd (hcb.symm.trans h.1) (by simp)⟩
      · exact hsame
  | dataCallback msgType dataPtr user =>
    cases user with
    | false => exact hsame
    | true =>
      rw [step, dataCallbackShim_user]
      refine ⟨hu, rfl, fun h => ⟨h, ?_⟩⟩
      simp [h.2.1]
  | dataCallbackTimestamp =>
    simp only [step, dataCallbackTimestampShim]
    split
    · exact hsame
    · split
      · rename_i hcb
        exact ⟨hu, rfl, fun h => absurd (hcb.symm.trans h.2.2) (by simp)⟩
      · exact hsame

/-- A deaf, unusable wrapper stays so and stays silent, whatever comes. -/
theorem exec_silent (ops : List Op) {w : World} (hu : isUsable w = false) (hd : Deaf w) :
    (Run.exec (step f b) w ops).calls = w.calls ∧ (Run.exec (step f b) w ops).client = w.client := by
  have hstep : ∀ v op, (isUsable v = false ∧ Deaf v ∧ v.calls = w.calls ∧ v.client = w.client) →
      isUsable (step f b v op) = false ∧ Deaf (step f b v op) ∧ (step f b v op).calls = w.calls ∧
        (step f b v op).client = w.client := by
    rintro v op ⟨hu, hd, hc, hcl⟩
    have hs := step_silent (f := f) (b := b) op hu
    exact ⟨hs.usable, (hs.deaf hd).1, hs.calls.trans hc, (hs.deaf hd).2.trans hcl⟩
  exact (Run.allStates_of_invariant hstep ⟨hu, hd, rfl, rfl⟩ ops).last.2.2

/-! ## Whole lives -/

theorem countP_isRelease {calls : List BlobCall} (h : .release ∉ calls) : calls.countP isRelease = 0 := by
  refine List.countP_eq_zero.mpr fun call hc hr => ?_
  cases call with
  | release => exact h hc
  | _ => cases hr

theorem tornDown_of_notMem {calls : List BlobCall} (h : .release ∉ calls) : TornDown calls := by
  have hno : ∀ newer older, calls ≠ newer ++ .release :: older := by
    rintro newer older rfl
    simp at h
  exact ⟨by simp [countP_isRelease h], fun newer older he => absurd he (hno newer older),
    fun newer older he => absurd he (hno newer older)⟩

/-- The two calls that end the life of the blob. -/
theorem tornDown_release {older : List BlobCall} (h : .release ∉ older) :
    TornDown (.release :: .setCallbacks false false false false :: older) := by
  have hsplit : ∀ newer rest, .release :: .setCallbacks false false false false :: older =
      newer ++ .release :: rest → newer = [] := by
    intro newer rest he
    cases newer with
    | nil => rfl
    | cons call newer =>
      rw [List.cons_append, List.cons.injEq] at he
      have hmem : BlobCall.release ∈ newer ++ .release :: rest :=
        List.mem_append_right _ List.mem_cons_self
      rw [← he.2] at hmem
      simp [h] at hmem
  refine ⟨?_, fun newer rest he => ?_, hsplit⟩
  · simp [List.countP_cons, isRelease, countP_isRelease h]
  · obtain rfl := hsplit newer rest he
    rw [← (List.cons.inj he).2]
    rfl

/-- Usable and never released, or deaf and torn down. -/
def Inv (w : World) : Prop :=
  isUsable w = true ∧ .release ∉ w.calls ∨ isUsable w = false ∧ Deaf w ∧ TornDown w.calls

theorem inv_create (iface : Bool) (properties : String → String) : Inv (create iface properties) := by
  cases iface with
  | true => exact .inl ⟨rfl, List.not_mem_nil⟩
  | false => exact .inr ⟨rfl, ⟨rfl, rfl, rfl⟩, tornDown_of_notMem List.not_mem_nil⟩

theorem inv_step (w : World) (op : Op) (h : Inv w) : Inv (step f b w op) := by
  rcases h with ⟨hu, hno⟩ | ⟨hu, hd, ht⟩
  · by_cases hop : op = .release
    · subst hop
      right
      rw [step, release_usable hu]
      refine ⟨rfl, ⟨rfl, rfl, rfl⟩, tornDown_release ?_⟩
      split <;> simp [hno]
    · left
      have hk := step_kept (f := f) (b := b) hop w
      obtain ⟨newer, hc, hnew⟩ := hk.grown
      exact ⟨hk.usable.trans hu, by simp [hc, hnew, hno]⟩
  · right
    have hs := step_silent (f := f) (b := b) op hu
    exact ⟨hs.usable, (hs.deaf hd).1, hs.calls ▸ ht⟩

/-- After `release` returned the wrapper is unusable and deaf. -/
theorem release_done {w : World} (h : Inv w) : isUsable (release w) = false ∧ Deaf (release w) := by
  rcases h with ⟨hu, -⟩ | ⟨hu, hd, -⟩
  · rw [release_usable hu]
    exact ⟨rfl, rfl, rfl, rfl⟩
  · have hs : release w = w := by simp [release, hu]
    rw [hs]
    exact ⟨hu, hd⟩

/-- Over every life of a wrapper the blob is released at most once, with its callbacks
null and nothing after it, and what comes after `release` returned reaches neither the
blob nor the client. -/
theorem release_ends_the_life (f : Framework) (b : Blob) (iface : Bool) (properties : String → String)
    (ops : List Op) :
    TornDown (Run.exec (step f b) (create iface properties) ops).calls ∧
      ∀ pre post, ops = pre ++ .release :: post →
        (Run.exec (step f b) (create iface properties) ops).calls =
            (Run.exec (step f b) (create iface properties) (pre ++ [.release])).calls ∧
          (Run.exec (step f b) (create iface properties) ops).client =
            (Run.exec (step f b) (create iface properties) (pre ++ [.release])).client := by
  have hinv : ∀ pre, Inv (Run.exec (step f b) (create iface properties) pre) := fun pre =>
    (Run.allStates_of_invariant inv_step (inv_create iface properties) pre).last
  constructor
  · rcases hinv ops with ⟨-, hno⟩ | ⟨-, -, ht⟩
    · exact tornDown_of_notMem hno
    · exact ht
  · rintro pre post rfl
    have hdone := release_done (hinv pre)
    have hsplit : pre ++ .release :: post = (pre ++ [.release]) ++ post := by simp
    rw [hsplit, Run.exec_append]
    have hlast : Run.exec (step f b) (create iface properties) (pre ++ [.release]) =
        release (Run.exec (step f b) (create iface properties) pre) := by
      rw [Run.exec_append]
      rfl
    rw [hlast]
    exact exec_silent post hdone.1 hdone.2

end CameraRelease
