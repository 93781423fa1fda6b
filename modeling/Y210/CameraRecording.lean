import Y210.CameraPreview
import Y210.CameraRelease

/-!
# The recording at the release

The teardown consults the flag of the preview only. The flag of the recording is exact,
so it tells which releases leave a recording behind.
-/
namespace CameraRecording

open CameraParameters CameraWrapper CameraPreview CameraRelease

variable {f : Framework} {b : Blob}

/-- Whether the blob records: a start that it accepts switches it on, a stop switches it off. -/
def blobRecording (b : Blob) : List BlobCall → Bool
  | [] => false
  | .startRecording :: older => b.status older = noError || blobRecording b older
  | .stopRecording :: _ => false
  | _ :: older => blobRecording b older

/-- Whenever its release slot is called, the blob neither records nor previews. -/
def ReleasedIdle (b : Blob) (w : World) : Prop :=
  ∀ newer older, w.calls = newer ++ .release :: older →
    blobRecording b older = false ∧ blobPreview b older = false

/-- `release` on a usable wrapper comes with no recording flagged and an honest flag of the preview. -/
def QuietRelease (b : Blob) (w : World) (op : Op) : Prop :=
  op = .release → isUsable w = true → w.wrapper.mRecordingRunning = false ∧ Honest b w

/-- While the wrapper is usable its flag is what the blob does. -/
def Flagged (b : Blob) (w : World) : Prop :=
  isUsable w = true → w.wrapper.mRecordingRunning = blobRecording b w.calls

/-! ## The flag -/

section
variable {w : World}

theorem flagged_of_eq {w' : World} (h : Flagged b w) (hu : isUsable w' = isUsable w)
    (hr : w'.wrapper.mRecordingRunning = w.wrapper.mRecordingRunning)
    (hc : blobRecording b w'.calls = blobRecording b w.calls) : Flagged b w' := by
  intro hu'
  rw [hr, hc]
  exact h (hu.symm.trans hu')

theorem flagged_plain {w' : World} (h : Flagged b w) (hp : Plain w w') : Flagged b w' := by
  apply flagged_of_eq h hp.usable hp.recording
  rcases hp.calls with hc | ⟨call, hn, hc⟩
  · rw [hc]
  · rw [hc]
    cases call <;> first | rfl | cases hn

theorem flagged_getParameters (h : Flagged b w) : Flagged b (getParameters f w).1 := by
  rw [getParameters_fst]
  exact h

theorem flagged_startRecording (h : Flagged b w) : Flagged b (startRecording f b w).1 := by
  cases hu : isUsable w with
  | false => simpa [startRecording, hu] using h
  | true =>
    have hu' : ¬ isUsable w = false := by simp [hu]
    have hget := flagged_getParameters (f := f) h
    have hflag := hget ((isUsable_getParameters f w).trans hu)
    intro _
    unfold startRecording
    rw [if_neg hu']
    dsimp only
    split
    · rename_i hrc
      rw [getParameters_calls] at hrc
      simp [blobRecording, hrc]
    · rename_i hrc
      rw [getParameters_calls] at hrc hflag
      simp only [callBlob_calls, getParameters_calls, blobRecording, hrc, decide_false, Bool.false_or]
      exact hflag

/-- Every operation keeps the flag exact. -/
theorem flagged_step (op : Op) (h : Flagged b w) : Flagged b (step f b w op) := by
  cases hplain : op.plain with
  | true => exact flagged_plain h (step_plain hplain w)
  | false =>
    cases op with
    | getParameters => exact flagged_getParameters h
    | startRecording => exact flagged_startRecording h
    | stopRecording =>
      simp only [step, stopRecording]
      split
      · exact h
      · exact fun _ => rfl
    | startPreview =>
      cases hu : isUsable w with
      | false => simpa [step, startPreview, hu] using h
      | true =>
        have hget := flagged_getParameters (f := f) h
        rw [step]
        rcases startPreview_cases (f := f) (b := b) hu with ⟨-, he⟩ | ⟨-, he⟩ | ⟨-, -, he⟩ | ⟨-, -, he⟩ <;>
          rw [he] <;> exact flagged_of_eq hget rfl rfl rfl
    | stopPreview =>
      simp only [step, stopPreview]
      split
      · exact h
      · split
        · exact h
        · exact flagged_of_eq h rfl rfl rfl
    | takePicture =>
      simp only [step, takePicture]
      split
      · exact h
      · exact flagged_of_eq (flagged_getParameters (f := f) h) rfl rfl rfl
    | setParameters params =>
      cases hu : isUsable w with
      | false => simpa [step, setParameters, hu] using h
      | true =>
        cases hd : shouldDelegateSetParameters w with
        | false =>
          rw [step, setParameters_cached params hu hd]
          exact flagged_of_eq h rfl rfl rfl
        | true =>
          rw [step, setParameters_delegated params hu hd]
          exact flagged_of_eq h rfl rfl rfl
    | release =>
      cases hu : isUsable w with
      | false => simpa [step, release, hu] using h
      | true =>
        rw [step, release_usable hu]
        exact fun hu' => by cases hu'
    | dataCallback msgType dataPtr user =>
      cases user with
      | false => exact h
      | true =>
        rw [step, dataCallbackShim_user]
        exact flagged_of_eq h rfl rfl rfl
    | _ => cases hplain

/-! ## One step -/

/-- A log that grows by no release has the same releases. -/
theorem releasedIdle_kept {w' : World} (hk : Kept w w') (h : ReleasedIdle b w) : ReleasedIdle b w' := by
  obtain ⟨grown, hc, hno⟩ := hk.grown
  intro newer older he
  rw [hc, List.append_eq_append_iff] at he
  rcases he with ⟨mid, rfl, he⟩ | ⟨mid, rfl, he⟩
  · exact h mid older he
  · cases mid with
    | nil => exact h [] older he.symm
    | cons call mid =>
      rw [List.cons_append, List.cons.injEq] at he
      simp [← he.1] at hno

/-- The release of a usable wrapper: the preview is stopped by its flag, the recording is not. -/
theorem releasedIdle_release (hu : isUsable w = true) (hno : .release ∉ w.calls) (hflag : Flagged b w) :
    ReleasedIdle b (release w) ↔ w.wrapper.mRecordingRunning = false ∧ Honest b w := by
  have hlast : ReleasedIdle b (release w) ↔
      blobRecording b w.calls = false ∧ (w.wrapper.mPreviewRunning = false → blobPreview b w.calls = false) := by
    have hnot : BlobCall.release ∉ (if w.wrapper.mPreviewRunning then .stopPreview :: w.calls else w.calls) := by
      split <;> simp [hno]
    have honly := (tornDown_release hnot).last
    rw [release_usable hu]
    constructor
    · intro h
      have hidle := h [] _ rfl
      cases hp : w.wrapper.mPreviewRunning <;> simpa [hp, blobRecording, blobPreview] using hidle
    · rintro ⟨hr, hp⟩ newer older he
      obtain rfl := honly newer older he
      rw [List.nil_append, List.cons.injEq] at he
      rw [← he.2]
      cases hpr : w.wrapper.mPreviewRunning with
      | true => simpa [blobRecording, blobPreview] using hr
      | false => simpa [blobRecording, blobPreview] using ⟨hr, hp hpr⟩
  rw [hlast, ← hflag hu, Honest]

theorem releasedIdle_step_iff (op : Op) (hi : Inv w) (hflag : Flagged b w) (h : ReleasedIdle b w) :
    ReleasedIdle b (step f b w op) ↔ QuietRelease b w op := by
  by_cases hop : op = .release
  · subst hop
    rcases hi with ⟨hu, hno⟩ | ⟨hu, -, -⟩
    · exact (releasedIdle_release hu hno hflag).trans ⟨fun hq _ _ => hq, fun hq => hq rfl hu⟩
    · have hsame : release w = w := by simp [release, hu]
      rw [step, hsame]
      exact iff_of_true h fun _ hu' => absurd (hu.symm.trans hu') (by decide)
  · exact iff_of_true (releasedIdle_kept (step_kept hop w) h) fun he => absurd he hop

end

/-! ## Runs -/

/-- In every life of a wrapper the blob is released idle exactly when `release` comes neither
behind a recording that the wrapper has flagged nor with a preview that it has lost sight of. -/
theorem released_idle_iff_quiet (f : Framework) (b : Blob) (iface : Bool) (properties : String → String)
    (ops : List Op) :
    Run.AllStates (step f b) (ReleasedIdle b) (create iface properties) ops ↔
      Run.AllSteps (step f b) (QuietRelease b) (create iface properties) ops := by
  have hnone : ReleasedIdle b (create iface properties) := by
    intro newer older he
    simp [create] at he
  have hinv : ∀ w op, Inv w ∧ Flagged b w → Inv (step f b w op) ∧ Flagged b (step f b w op) :=
    fun w op h => ⟨inv_step w op h.1, flagged_step op h.2⟩
  exact Run.allStates_iff_allSteps (fun w => Inv w ∧ Flagged b w) hinv
    (fun w op hi h => releasedIdle_step_iff op hi.1 hi.2 h) ⟨inv_create iface properties, fun _ => rfl⟩
    hnone ops

/-- A recording is started and the wrapper released: the blob records to the end. -/
theorem release_leaves_recording :
    ¬ Run.AllStates (step stockFramework obedient) (ReleasedIdle obedient) (create true fun _ => "")
      [.startRecording, .release] := by
  rintro ⟨-, -, h⟩
  exact absurd (h [] _ rfl).1 (by decide)

end CameraRecording
