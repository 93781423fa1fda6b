import Y210.CameraWrapper

/-!
# The flag of the running preview

The blob stops its preview by itself for a picture. The wrapper learns of it from the
picture's message, which may come after the preview has been started again.
-/
namespace CameraPreview

open CameraParameters CameraWrapper

variable {f : Framework} {b : Blob}

/-- Whether the blob's preview is on: a start that it accepts switches it on, a stop or a
picture that it accepts switches it off. -/
def blobPreview (b : Blob) : List BlobCall → Bool
  | [] => false
  | .startPreview :: older => b.status older = noError || blobPreview b older
  | .stopPreview :: _ => false
  | .takePicture :: older => b.status older ≠ noError && blobPreview b older
  | _ :: older => blobPreview b older

/-- A preview that is not flagged as running is off. -/
def Honest (b : Blob) (w : World) : Prop :=
  w.wrapper.mPreviewRunning = false → blobPreview b w.calls = false

/-- `stopPreview` and `release` on a usable wrapper end the blob's preview. -/
def Stops (f : Framework) (b : Blob) (w : World) (op : Op) : Prop :=
  op = .stopPreview ∨ op = .release → isUsable w = true →
    blobPreview b (step f b w op).calls = false

/-- The message of a picture, delivered to the wrapper. -/
def isPicture : Op → Bool
  | .dataCallback msgType _ user => user && msgType = msgCompressedImage
  | _ => false

/-- The message of a picture comes while the blob's preview is off. -/
def Timely (b : Blob) (w : World) (op : Op) : Prop := isPicture op = true → blobPreview b w.calls = false

/-! ## One step -/

section
variable {w : World}

theorem honest_plain {w' : World} (h : Honest b w) (hp : Plain w w') : Honest b w' := by
  intro hoff
  have hw := h (hp.preview.symm.trans hoff)
  rcases hp.calls with hc | ⟨call, hn, hc⟩
  · rw [hc, hw]
  · rw [hc, ← hw]
    cases call <;> first | rfl | cases hn

theorem honest_getParameters (h : Honest b w) : Honest b (getParameters f w).1 := by
  intro hp
  rw [getParameters_mPreviewRunning] at hp
  rw [getParameters_calls]
  exact h hp

/-- A start of the preview that the blob refuses leaves it as it was. -/
theorem blobPreview_refused {older : List BlobCall} (h : b.status older ≠ noError) :
    blobPreview b (.startPreview :: older) = blobPreview b older := by
  simp [blobPreview, h]

theorem honest_startPreview (h : Honest b w) : Honest b (startPreview f b w).1 := by
  cases hu : isUsable w with
  | false => simpa [startPreview, hu] using h
  | true =>
    have hc := getParameters_calls f w
    have hp := getParameters_mPreviewRunning f w
    rcases startPreview_cases (f := f) (b := b) hu with ⟨-, he⟩ | ⟨h1, he⟩ | ⟨-, -, he⟩ | ⟨h1, h2, he⟩ <;>
      rw [he]
    · intro hq
      cases hq
    · intro hq
      rw [callBlob_calls, hc, blobPreview_refused (by rw [h1]; decide)]
      exact h (hp.symm.trans hq)
    · intro hq
      cases hq
    · intro hq
      rw [callBlob_calls, blobPreview_refused h2, callBlob_calls, hc, blobPreview_refused h1]
      exact h (hp.symm.trans hq)

theorem honest_release (h : Honest b w) : Honest b (release w) := by
  cases hu : isUsable w with
  | false => simpa [release, hu] using h
  | true =>
    rw [release_usable hu]
    intro _
    cases hp : w.wrapper.mPreviewRunning with
    | false => exact h hp
    | true => rfl

/-- Every operation but the message of a picture keeps the flag honest. -/
theorem honest_step {op : Op} (hop : isPicture op = false) (h : Honest b w) : Honest b (step f b w op) := by
  cases hplain : op.plain with
  | true => exact honest_plain h (step_plain hplain w)
  | false =>
    cases op with
    | getParameters => exact honest_getParameters h
    | startPreview => exact honest_startPreview h
    | release => exact honest_release h
    | stopPreview =>
      simp only [step, stopPreview]
      split
      · exact h
      · split
        · exact h
        · exact fun _ => rfl
    | startRecording =>
      have hget := honest_getParameters (f := f) h
      simp only [step, startRecording]
      split
      · exact h
      · split <;> exact hget
    | stopRecording =>
      simp only [step, stopRecording]
      split <;> exact h
    | takePicture =>
      have hget := honest_getParameters (f := f) h
      simp only [step, takePicture]
      split
      · exact h
      · intro hp
        have hoff := hget hp
        rw [getParameters_calls] at hoff
        simp [blobPreview, hoff]
    | setParameters params =>
      cases hu : isUsable w with
      | false => simpa [step, setParameters, hu] using h
      | true =>
        cases hd : shouldDelegateSetParameters w with
        | false =>
          rw [step, setParameters_cached params hu hd]
          exact h
        | true =>
          rw [step, setParameters_delegated params hu hd]
          exact h
    | dataCallback msgType dataPtr user =>
      cases user with
      | false => exact h
      | true =>
        have hm : msgType ≠ msgCompressedImage := by simpa [isPicture] using hop
        rw [step, dataCallbackShim_user, if_neg hm]
        exact h
    | _ => cases hplain

/-- That message clears the flag, and is honest if the preview is off. -/
theorem honest_picture {op : Op} (hop : isPicture op = true) :
    Honest b (step f b w op) ↔ blobPreview b w.calls = false := by
  cases op with
  | dataCallback msgType dataPtr user =>
    obtain ⟨rfl, hm⟩ : user = true ∧ msgType = msgCompressedImage := by simpa [isPicture] using hop
    rw [step, dataCallbackShim_user, if_pos hm]
    exact ⟨fun h => h rfl, fun h _ => h⟩
  | _ => cases hop

theorem honest_step_iff (op : Op) (h : Honest b w) : Honest b (step f b w op) ↔ Timely b w op := by
  cases hop : isPicture op with
  | false => exact iff_of_true (honest_step hop h) fun hp => absurd (hop.symm.trans hp) (by decide)
  | true => exact (honest_picture hop).trans ⟨fun hoff _ => hoff, fun ht => ht hop⟩

/-- With an honest flag no stop is left out. -/
theorem stops_of_honest (op : Op) (h : Honest b w) : Stops f b w op := by
  rintro (rfl | rfl) hu
  · have hu' : ¬ isUsable w = false := by simp [hu]
    simp only [step, stopPreview]
    rw [if_neg hu']
    split
    · rename_i hp
      exact h hp
    · rfl
  · have hstep := honest_release h
    rw [release_usable hu] at hstep
    rw [step, release_usable hu]
    exact hstep rfl

end

/-! ## Runs -/

theorem stops_of_allStates {w : World} {ops : List Op} (h : Run.AllStates (step f b) (Honest b) w ops) :
    Run.AllSteps (step f b) (Stops f b) w ops :=
  Run.allSteps_of_allStates (C := Stops f b) (fun _ op hw => stops_of_honest op hw) h

/-- In every life of a wrapper the flag tells the truth and no stop is left out exactly
when every picture's message comes while the blob's preview is off. -/
theorem honest_iff_timely (f : Framework) (b : Blob) (iface : Bool) (properties : String → String)
    (ops : List Op) :
    Run.AllStates (step f b) (Honest b) (create iface properties) ops ∧
        Run.AllSteps (step f b) (Stops f b) (create iface properties) ops ↔
      Run.AllSteps (step f b) (Timely b) (create iface properties) ops := by
  have hcreate : Honest b (create iface properties) := fun _ => rfl
  have hruns : Run.AllStates (step f b) (Honest b) (create iface properties) ops ↔
      Run.AllSteps (step f b) (Timely b) (create iface properties) ops :=
    Run.allStates_iff_allSteps (fun _ => True) (fun _ _ => id) (fun w op _ h => honest_step_iff op h)
      trivial hcreate ops
  exact ⟨fun h => hruns.mp h.1, fun h => ⟨hruns.mpr h, stops_of_allStates (hruns.mpr h)⟩⟩

/-- The picture's message comes after the preview was started again: the stop that
follows is skipped, and the blob goes on. -/
theorem late_picture_stops_no_preview :
    ¬ (Run.AllStates (step stockFramework obedient) (Honest obedient) (create true fun _ => "")
          [.startPreview, .takePicture, .startPreview, .dataCallback msgCompressedImage (some 1) true,
            .stopPreview] ∧
        Run.AllSteps (step stockFramework obedient) (Stops stockFramework obedient)
          (create true fun _ => "")
          [.startPreview, .takePicture, .startPreview, .dataCallback msgCompressedImage (some 1) true,
            .stopPreview]) := by
  rintro ⟨-, -, -, -, -, h, -⟩
  exact absurd (h (.inl rfl) (by decide)) (by decide)

end CameraPreview
