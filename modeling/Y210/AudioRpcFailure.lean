import Y210.AudioRouting
import Y210.Run

/-!
# Rejected route requests

`mCurSndDevice` and `mMicMute` are caches of what the driver was told. They are
written whatever the driver answered, so a rejected request is not made again.
-/
namespace AudioRpcFailure

open AudioDrivers AudioHardware AudioStreams AudioRouting

variable {p : Platform}

/-- The two calls that end in `do_route_audio_rpc`. -/
inductive RouteCall where
  | doRouting (input : Option Devices)
  | setMicMute (state : Bool)

def perform (p : Platform) (w : World) : RouteCall → World × Status
  | .doRouting input => doRouting p input w
  | .setMicMute state => setMicMute p state w

/-- What the caches promise about one call: an error leaves them as they were, and the
same call made again reaches the driver. -/
def Recoverable (p : Platform) (w : World) (c : RouteCall) : Prop :=
  (perform p w c).2 ≠ noError →
    (perform p w c).1.hw.mCurSndDevice = w.hw.mCurSndDevice ∧
    (perform p w c).1.hw.mMicMute = w.hw.mMicMute ∧
    (perform p (perform p w c).1 c).1.snd ≠ (perform p w c).1.snd

/-- The driver accepts what one `do_route_audio_rpc` asks: a second request follows the
first when the mic is to be opened on a named device. -/
def Answered (p : Platform) (device : Int) (mic : Bool) (log : List SndCall) : Prop :=
  device = -1 ∨ p.sndSetDeviceOk log.length = true ∧
    (device ≠ p.dev .current → mic = false → p.sndSetDeviceOk (log.length + 1) = true)

/-- The driver accepts every request of a call. -/
def Accepts (p : Platform) (w : World) : RouteCall → Prop
  | .doRouting input =>
    Sends p input w → Answered p (target p input w).1 (micMute w.hw w.hw.mFmRadioEnabled) w.snd
  | .setMicMute state => w.hw.mMicMute ≠ state →
    Answered p (p.dev .current) (if w.hw.mFmRadioEnabled then false else state) w.snd

/-! ## When a call returns an error -/

theorem rpc_status (device : Int) (ear mic : Bool) (log : List SndCall) :
    (do_route_audio_rpc p device ear mic log).2 = noError ↔ Answered p device mic log := by
  unfold do_route_audio_rpc Answered
  by_cases hd : device = -1
  · simp [hd]
  · by_cases hm : device ≠ p.dev .current ∧ mic = false
    · rw [if_neg hd, if_pos hm]
      cases h₁ : p.sndSetDeviceOk log.length <;> cases h₂ : p.sndSetDeviceOk (log.length + 1) <;>
        simp [sndSetDevice, hd, hm, h₁, h₂, noError, eio]
    · rw [if_neg hd, if_neg hm]
      have hm' : (device ≠ p.dev .current → mic = false →
          p.sndSetDeviceOk (log.length + 1) = true) ↔ True :=
        iff_true_intro fun hc hf => absurd ⟨hc, hf⟩ hm
      rw [hm']
      cases h₁ : p.sndSetDeviceOk log.length <;> simp [sndSetDevice, hd, h₁, noError, eio]

theorem micMute_selectMic (hw : Hal) (input : Option Devices) (fm : Bool) :
    micMute (selectMic hw input) fm = micMute hw fm := by
  rw [micMute, micMute, selectMic_mMicMute]

/-- A call returns an error exactly when the driver rejected one of its requests. -/
theorem perform_status (w : World) (c : RouteCall) :
    (perform p w c).2 = noError ↔ Accepts p w c := by
  cases c with
  | doRouting input =>
    by_cases hs : Sends p input w
    · simp only [perform, doRouting_of_sends hs, applyRoute_status, route_status, rpc_status, Accepts,
        hs, true_imp_iff, selectMic_mFmRadioEnabled, micMute_selectMic]
    · simp only [perform, doRouting_of_not_sends hs, Accepts, hs, false_imp_iff]
  | setMicMute state =>
    by_cases hm : w.hw.mMicMute = state
    · simp only [perform, setMicMute, setMicMute_nosync, ne_eq, hm, not_true_eq_false, if_false, Accepts,
        false_imp_iff]
    · simp only [perform, setMicMute, setMicMute_nosync, ne_eq, hm, not_false_eq_true, if_true,
        route_status, rpc_status, Accepts, true_imp_iff, micMute]

/-! ## What an error leaves behind -/

/-- The route that was picked once is picked again. -/
theorem target_applyRoute (device : Int) (mask : BitVec 32) (input : Option Devices) (w : World) :
    target p input (applyRoute p device mask { w with hw := selectMic w.hw input }).1 =
      target p input w := by
  rw [target, applyRoute_hw, applyRoute_headsetPostproc]
  cases input <;> rfl

/-- The caches record the request whatever the driver said, so the same call made again
is taken for done. -/
theorem repeat_silent (w : World) (c : RouteCall) (h : (perform p w c).2 ≠ noError) :
    (match c with
      | .doRouting input => (perform p w c).1.hw.mCurSndDevice = (target p input w).1
      | .setMicMute state => (perform p w c).1.hw.mMicMute = state) ∧
    perform p (perform p w c).1 c = ((perform p w c).1, noError) := by
  cases c with
  | doRouting input =>
    by_cases hs : Sends p input w
    · have hagain : ¬ Sends p input (doRouting p input w).1 := by
        rw [doRouting_of_sends hs]
        rintro ⟨-, -, hn⟩
        rw [target_applyRoute, applyRoute_hw] at hn
        rcases hn with hn | hn <;> simp [routedHal] at hn
      have hmic : selectMic (doRouting p input w).1.hw input = (doRouting p input w).1.hw := by
        rw [doRouting_of_sends hs, applyRoute_hw]
        cases input <;> rfl
      constructor
      · simp only [perform]
        rw [doRouting_of_sends hs, applyRoute_hw]
        rfl
      · simp only [perform]
        rw [doRouting_of_not_sends hagain, hmic]
    · rw [perform, doRouting_of_not_sends hs] at h
      exact absurd rfl h
  | setMicMute state =>
    by_cases hm : w.hw.mMicMute = state
    · simp [perform, setMicMute, setMicMute_nosync, hm] at h
    · have hrec : (perform p w (.setMicMute state)).1.hw.mMicMute = state := by
        simp [perform, setMicMute, setMicMute_nosync, hm]
      refine ⟨hrec, ?_⟩
      have hagain : ∀ v : World, v.hw.mMicMute = state → setMicMute p state v = (v, noError) := by
        intro v hv
        simp [setMicMute, setMicMute_nosync, hv]
      exact hagain _ hrec

theorem recoverable_iff_accepts (w : World) (c : RouteCall) : Recoverable p w c ↔ Accepts p w c := by
  rw [← perform_status]
  constructor
  · intro h
    by_contra he
    exact (h he).2.2 (by rw [(repeat_silent w c he).2])
  · exact fun h he => absurd h he

/-- From any state, a run of `doRouting` and `setMicMute` calls keeps what the caches
promise exactly when the driver accepts every request of the run. -/
theorem recoverable_iff_never_rejected (p : Platform) (w : World) (calls : List RouteCall) :
    Run.AllSteps (fun w c => (perform p w c).1) (Recoverable p) w calls ↔
      Run.AllSteps (fun w c => (perform p w c).1) (Accepts p) w calls :=
  Run.allSteps_iff_of_invariant (fun _ => True) (fun _ _ => id)
    (fun w c _ => recoverable_iff_accepts w c) trivial calls

/-- The second request of the route to the handset fails: the device is cached, and
asking again does nothing. -/
theorem rejected_route_is_cached :
    ¬ Run.AllSteps (fun w c => (perform { acceptAll with sndSetDeviceOk := fun n => n ≠ 2 } w c).1)
      (Recoverable { acceptAll with sndSetDeviceOk := fun n => n ≠ 2 }) (boot acceptAll)
      [.setMicMute false, .doRouting none] := by
  rintro ⟨-, h, -⟩
  have hcached := (h (by decide)).1
  exact absurd hcached (by decide)

end AudioRpcFailure
