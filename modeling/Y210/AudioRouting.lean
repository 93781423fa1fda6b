import Y210.AudioStreams

/-!
# What a routing call does

One spec lemma for each function on the way to the sound driver, and for each
operation the routing calls it makes. The claims about routes, mutes, pins and
post-processing are read off these lemmas; no later proof unfolds the code.
-/
namespace AudioRouting

open AudioDrivers AudioHardware AudioStreams

variable {p : Platform}

/-- Every endpoint exists. -/
def AllExist (dev : SndDevices) : Prop := ∀ e, dev e ≠ -1

/-- No two endpoints share an id. -/
def Distinct (dev : SndDevices) : Prop := Function.Injective dev.id

theorem stock_allExist : AllExist stockDevices := fun e => by cases e <;> decide

theorem stock_distinct : Distinct stockDevices := fun a b h => by
  cases a <;> cases b <;> first | rfl | exact absurd h (by decide)

/-! ## The route RPC -/

/-- When the driver accepts everything, one RPC leaves it with what was asked for. -/
theorem rpc_accepted (hok : ∀ n, p.sndSetDeviceOk n = true) {device : Int} (hd : device ≠ -1)
    (ear mic : Bool) (log : List SndCall) :
    (do_route_audio_rpc p device ear mic log).2 = noError ∧
    lastAccepted (do_route_audio_rpc p device ear mic log).1 = some ⟨device, ear, mic⟩ := by
  unfold do_route_audio_rpc
  rw [if_neg hd]
  by_cases hm : device ≠ p.dev .current ∧ mic = false
  · rw [if_pos hm]
    simp [sndSetDevice, hok, lastAccepted, hm.2]
  · rw [if_neg hm]
    simp [sndSetDevice, hok, lastAccepted]

/-- An accepted RPC for a device other than `SND_DEVICE_CURRENT` is the route held. -/
theorem routeConfig_rpc (hok : ∀ n, p.sndSetDeviceOk n = true) {device : Int} (hd : device ≠ -1)
    (hc : device ≠ p.dev .current) (ear mic : Bool) (log : List SndCall) :
    routeConfig (p.dev .current) (do_route_audio_rpc p device ear mic log).1 =
      some ⟨device, ear, mic⟩ := by
  unfold do_route_audio_rpc
  rw [if_neg hd]
  by_cases hm : device ≠ p.dev .current ∧ mic = false
  · rw [if_pos hm]
    simp [sndSetDevice, hok, routeConfig, hc, hm.2]
  · rw [if_neg hm]
    simp [sndSetDevice, hok, routeConfig, hc]

/-- An accepted RPC for `SND_DEVICE_CURRENT` only changes the mutes. -/
theorem routeConfig_rpc_current (hok : ∀ n, p.sndSetDeviceOk n = true) (hd : p.dev .current ≠ -1)
    (ear mic : Bool) (log : List SndCall) :
    routeConfig (p.dev .current) (do_route_audio_rpc p (p.dev .current) ear mic log).1 =
      (routeConfig (p.dev .current) log).map (fun c => ⟨c.device, ear, mic⟩) := by
  simp [do_route_audio_rpc, hd, sndSetDevice, hok, routeConfig]

/-! ## `doAudioRouteOrMute` -/

section
variable (device : Int) (w : World)

@[simp] theorem route_hw : (doAudioRouteOrMute p device w).1.hw =
    { w.hw with mFmPrev := w.hw.mFmRadioEnabled } := by
  unfold doAudioRouteOrMute; dsimp only; split <;> rfl

@[simp] theorem route_snd : (doAudioRouteOrMute p device w).1.snd =
    (do_route_audio_rpc p device (earMute p w.hw w.hw.mFmRadioEnabled device)
      (micMute w.hw w.hw.mFmRadioEnabled) w.snd).1 := by
  unfold doAudioRouteOrMute; dsimp only; split <;> rfl

@[simp] theorem route_status : (doAudioRouteOrMute p device w).2 =
    (do_route_audio_rpc p device (earMute p w.hw w.hw.mFmRadioEnabled device)
      (micMute w.hw w.hw.mFmRadioEnabled) w.snd).2 := by
  unfold doAudioRouteOrMute; dsimp only; split <;> rfl

@[simp] theorem route_audpp : (doAudioRouteOrMute p device w).1.audpp = w.audpp := by
  unfold doAudioRouteOrMute; dsimp only; split <;> rfl

theorem route_i2c : (doAudioRouteOrMute p device w).1.i2c =
    if w.hw.mFmRadioEnabled then
      if is_fm_snd_device p.dev device && device != w.hw.mCurSndDevice then
        run_fm_audio_path_enable p (run_btfm_pin_switch p .fm w.i2c) else w.i2c
    else if is_fm_snd_device p.dev w.hw.mCurSndDevice && !is_fm_snd_device p.dev device then
      run_btfm_pin_switch p .btSco w.i2c else w.i2c := by
  unfold doAudioRouteOrMute; dsimp only; split <;> rfl

@[simp] theorem route_pcmOut : (doAudioRouteOrMute p device w).1.pcmOut = w.pcmOut := by
  unfold doAudioRouteOrMute; dsimp only; split <;> rfl

@[simp] theorem route_headsetPostproc :
    (doAudioRouteOrMute p device w).1.headsetPostproc = w.headsetPostproc := by
  unfold doAudioRouteOrMute; dsimp only; split <;> rfl

end

/-! ## Post-processing and pre-processing touch their own driver only -/

theorem postproc_frame (state : Bool) (w : World) :
    ∃ log, (msm72xx_enable_postproc p state w).1 = { w with audpp := log } := by
  unfold msm72xx_enable_postproc
  repeat' split
  all_goals exact ⟨_, rfl⟩

theorem preproc_frame (state : Bool) (w : World) :
    ∃ log, (msm72xx_enable_preproc p state w).1 = { w with audpre := log } := by
  unfold msm72xx_enable_preproc
  repeat' split
  all_goals exact ⟨_, rfl⟩

section
variable (state : Bool) (w : World)

@[simp] theorem postproc_hw : (msm72xx_enable_postproc p state w).1.hw = w.hw := by
  obtain ⟨log, h⟩ := postproc_frame (p := p) state w
  rw [h]

@[simp] theorem postproc_snd : (msm72xx_enable_postproc p state w).1.snd = w.snd := by
  obtain ⟨log, h⟩ := postproc_frame (p := p) state w
  rw [h]

@[simp] theorem postproc_i2c : (msm72xx_enable_postproc p state w).1.i2c = w.i2c := by
  obtain ⟨log, h⟩ := postproc_frame (p := p) state w
  rw [h]

@[simp] theorem postproc_pcmOut : (msm72xx_enable_postproc p state w).1.pcmOut = w.pcmOut := by
  obtain ⟨log, h⟩ := postproc_frame (p := p) state w
  rw [h]

@[simp] theorem postproc_headsetPostproc :
    (msm72xx_enable_postproc p state w).1.headsetPostproc = w.headsetPostproc := by
  obtain ⟨log, h⟩ := postproc_frame (p := p) state w
  rw [h]

end

/-! ## `doRouting` -/

/-- The members after a route has been applied. -/
def routedHal (device : Int) (mask : BitVec 32) (hw : Hal) : Hal :=
  { hw with mFmPrev := hw.mFmRadioEnabled, mActSndDevice := device, mCurSndDevice := device,
            post_proc_feature_mask := mask }

section
variable (device : Int) (mask : BitVec 32) (w : World)

@[simp] theorem applyRoute_hw : (applyRoute p device mask w).1.hw = routedHal device mask w.hw := by
  unfold applyRoute; dsimp only; repeat' split
  all_goals simp [routedHal]

@[simp] theorem applyRoute_snd : (applyRoute p device mask w).1.snd =
    (doAudioRouteOrMute p device w).1.snd := by
  unfold applyRoute; dsimp only; repeat' split
  all_goals simp

@[simp] theorem applyRoute_i2c : (applyRoute p device mask w).1.i2c =
    (doAudioRouteOrMute p device w).1.i2c := by
  unfold applyRoute; dsimp only; repeat' split
  all_goals simp

@[simp] theorem applyRoute_pcmOut : (applyRoute p device mask w).1.pcmOut = w.pcmOut := by
  unfold applyRoute; dsimp only; repeat' split
  all_goals simp

@[simp] theorem applyRoute_headsetPostproc :
    (applyRoute p device mask w).1.headsetPostproc = w.headsetPostproc := by
  unfold applyRoute; dsimp only; repeat' split
  all_goals simp

@[simp] theorem applyRoute_status : (applyRoute p device mask w).2 =
    (doAudioRouteOrMute p device w).2 := rfl

end

section
variable (hw : Hal) (input : Option Devices)

@[simp] theorem selectMic_mMicMute : (selectMic hw input).mMicMute = hw.mMicMute := by
  cases input <;> rfl
@[simp] theorem selectMic_mFmRadioEnabled :
    (selectMic hw input).mFmRadioEnabled = hw.mFmRadioEnabled := by cases input <;> rfl
@[simp] theorem selectMic_mFmPrev : (selectMic hw input).mFmPrev = hw.mFmPrev := by cases input <;> rfl
@[simp] theorem selectMic_mCurSndDevice : (selectMic hw input).mCurSndDevice = hw.mCurSndDevice := by
  cases input <;> rfl
@[simp] theorem selectMic_mActSndDevice : (selectMic hw input).mActSndDevice = hw.mActSndDevice := by
  cases input <;> rfl
@[simp] theorem selectMic_mOutput : (selectMic hw input).mOutput = hw.mOutput := by
  cases input <;> rfl
@[simp] theorem selectMic_playback_in_progress :
    (selectMic hw input).playback_in_progress = hw.playback_in_progress := by cases input <;> rfl
@[simp] theorem selectMic_post_proc_feature_mask :
    (selectMic hw input).post_proc_feature_mask = hw.post_proc_feature_mask := by cases input <;> rfl

end

/-- The route that `doRouting` picks, with the mic flag it has just set. -/
def target (p : Platform) (input : Option Devices) (w : World) : Int × BitVec 32 :=
  newSndDevice p (selectMic w.hw input) w.headsetPostproc input

/-- Whether `doRouting` reaches the RPC. -/
def Sends (p : Platform) (input : Option Devices) (w : World) : Prop :=
  input ≠ some deviceInVoiceCall ∧ needsRoute (selectMic w.hw input) (target p input w).1

instance (input : Option Devices) (w : World) : Decidable (Sends p input w) :=
  inferInstanceAs (Decidable (_ ∧ _))

/-- `doRouting` with the mic flag set but nothing sent. -/
theorem doRouting_of_not_sends {input : Option Devices} {w : World} (h : ¬ Sends p input w) :
    doRouting p input w = ({ w with hw := selectMic w.hw input }, noError) := by
  unfold doRouting
  by_cases hv : input = some deviceInVoiceCall
  · simp [hv]
  · have hn : ¬ needsRoute (selectMic w.hw input) (target p input w).1 := fun hr => h ⟨hv, hr⟩
    simp only [target] at hn
    simp [hv, hn]

/-- `doRouting` when it sends its route. -/
theorem doRouting_of_sends {input : Option Devices} {w : World} (h : Sends p input w) :
    doRouting p input w = applyRoute p (target p input w).1 (target p input w).2
      { w with hw := selectMic w.hw input } := by
  have hr := h.2
  simp only [target] at hr
  simp [doRouting, target, h.1, hr]

/-- The requests that the sound driver has seen after a `doRouting`. -/
def routedLog (p : Platform) (input : Option Devices) (w : World) : List SndCall :=
  if Sends p input w then
    (do_route_audio_rpc p (target p input w).1
      (earMute p (selectMic w.hw input) w.hw.mFmRadioEnabled (target p input w).1)
      (micMute w.hw w.hw.mFmRadioEnabled) w.snd).1
  else w.snd

theorem doRouting_snd (input : Option Devices) (w : World) :
    (doRouting p input w).1.snd = routedLog p input w := by
  unfold routedLog
  by_cases h : Sends p input w
  · rw [doRouting_of_sends h, if_pos h, applyRoute_snd, route_snd, selectMic_mFmRadioEnabled]
    simp only [micMute, selectMic_mMicMute]
  · rw [doRouting_of_not_sends h, if_neg h]

@[simp] theorem doRouting_mOutput (input : Option Devices) (w : World) :
    (doRouting p input w).1.hw.mOutput = w.hw.mOutput := by
  by_cases h : Sends p input w
  · rw [doRouting_of_sends h, applyRoute_hw]
    exact selectMic_mOutput _ _
  · rw [doRouting_of_not_sends h]
    exact selectMic_mOutput _ _

@[simp] theorem doRouting_pcmOut (input : Option Devices) (w : World) :
    (doRouting p input w).1.pcmOut = w.pcmOut := by
  by_cases h : Sends p input w
  · rw [doRouting_of_sends h, applyRoute_pcmOut]
  · rw [doRouting_of_not_sends h]

theorem doRouting_mFmRadioEnabled (input : Option Devices) (w : World) :
    (doRouting p input w).1.hw.mFmRadioEnabled = w.hw.mFmRadioEnabled := by
  by_cases h : Sends p input w
  · rw [doRouting_of_sends h, applyRoute_hw]
    exact selectMic_mFmRadioEnabled _ _
  · rw [doRouting_of_not_sends h]
    exact selectMic_mFmRadioEnabled _ _

/-! ## The endpoint that is picked -/

theorem inputRoute_endpoint (s : String) (input out : Devices) :
    (inputRoute p s input out).1 = -1 ∨
      ∃ e, e ≠ .current ∧ e.isFm = false ∧ (inputRoute p s input out).1 = p.dev e := by
  unfold inputRoute
  repeat' split
  · exact .inl rfl
  · exact .inr ⟨.bt, by decide, rfl, rfl⟩
  · exact .inr ⟨.headset, by decide, rfl, rfl⟩
  · exact .inr ⟨.speaker, by decide, rfl, rfl⟩
  · exact .inr ⟨.handset, by decide, rfl, rfl⟩

/-- The output block picks an FM endpoint exactly when the radio is on. -/
theorem outputRoute_endpoint (hw : Hal) (s : String) (out : Devices) (mask : BitVec 32) :
    ∃ e, e ≠ .current ∧ e.isFm = hw.mFmRadioEnabled ∧ (outputRoute p hw s out mask).1 = p.dev e := by
  unfold outputRoute
  by_cases hf : hw.mFmRadioEnabled = true
  · simp only [hf, if_true]
    repeat' split
    · exact ⟨.fmAnalogHeadset, by decide, rfl, rfl⟩
    · exact ⟨.fmHeadset, by decide, rfl, rfl⟩
    · exact ⟨.fmAnalogSpeaker, by decide, rfl, rfl⟩
    · exact ⟨.fmSpeaker, by decide, rfl, rfl⟩
  · simp only [Bool.not_eq_true] at hf
    simp only [hf, Bool.false_eq_true, if_false]
    split
    · rename_i ht
      cases hm : hw.mTtyMode with
      | full => exact ⟨.ttyHeadset, by decide, rfl, rfl⟩
      | vco => exact ⟨.ttyVco, by decide, rfl, rfl⟩
      | hco => exact ⟨.ttyHco, by decide, rfl, rfl⟩
      | off => exact absurd hm ht.1
    · repeat' split
      · exact ⟨.bt, by decide, rfl, rfl⟩
      · exact ⟨.carkit, by decide, rfl, rfl⟩
      · exact ⟨.headset, by decide, rfl, rfl⟩
      · exact ⟨.headset, by decide, rfl, rfl⟩
      · exact ⟨.speaker, by decide, rfl, rfl⟩
      · exact ⟨.handset, by decide, rfl, rfl⟩

/-- The dual-mic block only replaces the handset and the speaker. -/
theorem dualMicRoute_cases (hw : Hal) (d : Int) :
    dualMicRoute p hw d = d ∨
      (d = p.dev .handset ∧ dualMicRoute p hw d = p.dev .inSSadcOutHandset) ∨
      (d = p.dev .speaker ∧ dualMicRoute p hw d = p.dev .inSSadcOutSpeakerPhone) := by
  unfold dualMicRoute
  by_cases hm : hw.mDualMicEnabled = true ∧ hw.mMode = modeInCall
  · rw [if_pos hm]
    by_cases hh : d = p.dev .handset
    · simp [hh]
    · by_cases hs : d = p.dev .speaker
      · rw [if_neg hh, if_pos hs]
        exact .inr (.inr ⟨hs, rfl⟩)
      · simp [hh, hs]
  · simp [hm]

/-- The route before the dual-mic block. -/
theorem newSndDevice_base (hw : Hal) (s : String) (input : Option Devices) :
    ∃ e, e ≠ .current ∧ (e.isFm = true → hw.mFmRadioEnabled = true) ∧
      (input = none → e.isFm = hw.mFmRadioEnabled) ∧
      (newSndDevice p hw s input).1 = dualMicRoute p hw (p.dev e) := by
  have hout := fun mask => outputRoute_endpoint (p := p) hw s (outputDevices hw) mask
  cases input with
  | none =>
    obtain ⟨e, hc, hf, he⟩ := hout 0
    refine ⟨e, hc, fun h => hf ▸ h, fun _ => hf, ?_⟩
    simpa [newSndDevice] using congrArg (dualMicRoute p hw) he
  | some d =>
    by_cases hi : (inputRoute p s d (outputDevices hw)).1 = -1
    · obtain ⟨e, hc, hf, he⟩ := hout (inputRoute p s d (outputDevices hw)).2
      exact ⟨e, hc, fun h => hf ▸ h, nofun, by simp [newSndDevice, hi, he]⟩
    · rcases inputRoute_endpoint (p := p) s d (outputDevices hw) with h | ⟨e, hc, hf, he⟩
      · exact absurd h hi
      · refine ⟨e, hc, fun h => ?_, nofun, ?_⟩
        · rw [hf] at h
          cases h
        · rw [he] at hi
          simp only [newSndDevice, he, if_neg hi]

/-- When every endpoint exists, `doRouting` always has an endpoint to go to. -/
theorem target_exists (hx : AllExist p.dev) (input : Option Devices) (w : World) :
    (target p input w).1 ≠ -1 := by
  obtain ⟨e, -, -, -, he⟩ := newSndDevice_base (p := p) (selectMic w.hw input) w.headsetPostproc input
  rw [target, he]
  rcases dualMicRoute_cases (p := p) (selectMic w.hw input) (p.dev e) with h | ⟨-, h⟩ | ⟨-, h⟩ <;> rw [h]
  exacts [hx _, hx _, hx _]

/-- It never goes to `SND_DEVICE_CURRENT`. -/
theorem target_ne_current (hd : Distinct p.dev) (input : Option Devices) (w : World) :
    (target p input w).1 ≠ p.dev .current := by
  obtain ⟨e, hc, -, -, he⟩ := newSndDevice_base (p := p) (selectMic w.hw input) w.headsetPostproc input
  rw [target, he]
  rcases dualMicRoute_cases (p := p) (selectMic w.hw input) (p.dev e) with h | ⟨-, h⟩ | ⟨-, h⟩ <;> rw [h]
  exacts [hd.ne hc, hd.ne (by decide), hd.ne (by decide)]

/-- When every endpoint exists, the RPC is skipped for a voice-call input, or when the
device is the cached one and the radio has not been switched. -/
theorem not_sends (hx : AllExist p.dev) {input : Option Devices} {w : World}
    (h : ¬ Sends p input w) : input = some deviceInVoiceCall ∨
      (target p input w).1 = w.hw.mCurSndDevice ∧ w.hw.mFmRadioEnabled = w.hw.mFmPrev := by
  by_cases hv : input = some deviceInVoiceCall
  · exact .inl hv
  · refine .inr ?_
    by_contra hn
    refine h ⟨hv, target_exists hx input w, ?_⟩
    rw [selectMic_mCurSndDevice, selectMic_mFmRadioEnabled, selectMic_mFmPrev]
    by_cases hc : (target p input w).1 = w.hw.mCurSndDevice
    · exact .inr fun hf => hn ⟨hc, hf⟩
    · exact .inl hc

end AudioRouting
