import Y210.AudioCalls

/-!
# AudioPolicyManager: stream volumes

`checkAndSetVolume` and the calls it makes on its client, of which the voice and FM
volumes reach the HAL.
-/
namespace AudioPolicy

open AudioDrivers AudioCalls

/-- `AudioSystem::stream_type`. -/
inductive StreamType where
  | voiceCall | system | ring | music | alarm | notification | bluetoothSco | enforcedAudible
  | dtmf | tts | fm
  deriving DecidableEq, Repr

/-- `AudioSystem::forced_config`. -/
inductive ForcedConfig where
  | none | speaker | headphones | btSco | btA2dp | wiredAccessory | btCarDock | btDeskDock
  deriving DecidableEq, Repr

/-- The members that `checkAndSetVolume` uses; `mForceUse` is the entry for communication. -/
structure Policy where
  mForceUse : ForcedConfig
  mMuteCount : Nat → StreamType → Int
  mCurVolume : Nat → StreamType → ℚ
  mIndexMax : StreamType → Nat
  mHardwareOutput : Nat
  mLastVoiceVolume : ℚ

/-- The float arithmetic: `v * pow(10, -atof(s) / 20)`, `0.01 + 0.99 * v`, and
`(float)index / (float)max`. -/
structure FloatOps where
  attenuate : ℚ → String → ℚ
  offset : ℚ → ℚ
  ratio : Int → Nat → ℚ

/-- The arguments of `checkAndSetVolume`, the answer of `computeVolume` for them, and the
attenuation properties, where they are set. -/
structure VolumeRequest where
  stream : StreamType
  index : Int
  output : Nat
  device : Devices
  force : Bool
  computed : ℚ
  speakerAttn : Option String
  headsetAttn : Option String
  fmAttn : Option String

/-- A call on `mpClientInterface`. -/
inductive ClientCall where
  | setStreamVolume (stream : StreamType) (volume : ℚ) (output : Nat)
  | setFmVolume (volume : ℚ)
  | setVoiceVolume (volume : ℚ)
  deriving DecidableEq, Repr

/-- The computed volume with the attenuations of its device and stream. -/
def attenuated (f : FloatOps) (r : VolumeRequest) : ℚ :=
  let v := r.computed
  let v := if r.device = deviceOutSpeaker then f.attenuate v (r.speakerAttn.getD "6") else v
  let v := if r.device = deviceOutWiredHeadset ∨ r.device = deviceOutWiredHeadphone then
      f.attenuate v (r.headsetAttn.getD "0")
    else v
  if r.stream = .fm then f.attenuate v (r.fmAttn.getD "0") else v

/-- The volume of the voice path; Bluetooth SCO is always at its maximum. -/
def voiceVolume (f : FloatOps) (r : VolumeRequest) (m : Policy) : ℚ :=
  if r.stream = .voiceCall then f.ratio r.index (m.mIndexMax r.stream) else 1

/-- The last block of `checkAndSetVolume`. -/
def setVoice (f : FloatOps) (r : VolumeRequest) (m : Policy) : Policy × List ClientCall :=
  if (r.stream = .voiceCall ∨ r.stream = .bluetoothSco) ∧ 0 ≤ voiceVolume f r m ∧
      r.output = m.mHardwareOutput then
    ({ m with mLastVoiceVolume := voiceVolume f r m }, [.setVoiceVolume (voiceVolume f r m)])
  else (m, [])

/-- The update of an output's `mCurVolume`. -/
def storeVolume (r : VolumeRequest) (volume : ℚ) (m : Policy) : Policy :=
  { m with mCurVolume := fun output stream =>
      if output = r.output ∧ stream = r.stream then volume else m.mCurVolume output stream }

/-- `AudioPolicyManager::checkAndSetVolume`, with the client calls in order. -/
def checkAndSetVolume (f : FloatOps) (r : VolumeRequest) (m : Policy) :
    Policy × List ClientCall × Status :=
  if m.mMuteCount r.output r.stream ≠ 0 then (m, [], noError)
  else if (r.stream = .voiceCall ∧ m.mForceUse = .btSco) ∨
      (r.stream = .bluetoothSco ∧ m.mForceUse ≠ .btSco) then (m, [], invalidOperation)
  else
    let volume := attenuated f r
    if volume ≠ m.mCurVolume r.output r.stream ∨ r.stream = .voiceCall ∨ r.stream = .fm ∨
        r.force = true then
      let m := storeVolume r volume m
      if r.stream = .fm then
        (m, if 0 ≤ volume ∧ r.output = m.mHardwareOutput then [.setFmVolume volume] else [], noError)
      else
        let volume := if r.stream = .voiceCall ∨ r.stream = .dtmf ∨ r.stream = .bluetoothSco then
            f.offset volume
          else volume
        let (m, calls) := setVoice f r m
        (m, .setStreamVolume r.stream volume r.output :: calls, noError)
    else
      let (m, calls) := setVoice f r m
      (m, calls, noError)

/-- What AudioFlinger passes on to the HAL; stream volumes are applied by its mixer. -/
def toHal : ClientCall → Option Call
  | .setStreamVolume _ _ _ => none
  | .setFmVolume v => some (.setFmVolume v)
  | .setVoiceVolume v => some (.setVoiceVolume v)

/-- A request that moves the FM volume of the HAL. -/
def ReachesFm (f : FloatOps) (r : VolumeRequest) (m : Policy) : Prop :=
  r.stream = .fm ∧ m.mMuteCount r.output r.stream = 0 ∧ 0 ≤ attenuated f r ∧
    r.output = m.mHardwareOutput

/-- A request that moves the voice volume of the HAL. -/
def ReachesVoice (f : FloatOps) (r : VolumeRequest) (m : Policy) : Prop :=
  (r.stream = .voiceCall ∧ m.mForceUse ≠ .btSco ∨ r.stream = .bluetoothSco ∧ m.mForceUse = .btSco) ∧
    m.mMuteCount r.output r.stream = 0 ∧ 0 ≤ voiceVolume f r m ∧ r.output = m.mHardwareOutput

instance (f : FloatOps) (r : VolumeRequest) (m : Policy) : Decidable (ReachesFm f r m) :=
  inferInstanceAs (Decidable (_ ∧ _))

instance (f : FloatOps) (r : VolumeRequest) (m : Policy) : Decidable (ReachesVoice f r m) :=
  inferInstanceAs (Decidable (_ ∧ _))

theorem setVoice_toHal (f : FloatOps) (r : VolumeRequest) (m : Policy) :
    (setVoice f r m).2.filterMap toHal =
      if (r.stream = .voiceCall ∨ r.stream = .bluetoothSco) ∧ 0 ≤ voiceVolume f r m ∧
        r.output = m.mHardwareOutput then [.setVoiceVolume (voiceVolume f r m)] else [] := by
  unfold setVoice
  split <;> rfl

/-- Storing the volume changes nothing that the voice path reads. -/
theorem setVoice_storeVolume (f : FloatOps) (r : VolumeRequest) (v : ℚ) (m : Policy) :
    (setVoice f r (storeVolume r v m)).2 = (setVoice f r m).2 := by
  have hv : voiceVolume f r (storeVolume r v m) = voiceVolume f r m := rfl
  have ho : (storeVolume r v m).mHardwareOutput = m.mHardwareOutput := rfl
  simp only [setVoice, hv, ho]
  split <;> rfl

/-- At most one call of a request reaches the HAL. -/
theorem checkAndSetVolume_toHal (f : FloatOps) (r : VolumeRequest) (m : Policy) :
    (checkAndSetVolume f r m).2.1.filterMap toHal =
      if ReachesFm f r m then [.setFmVolume (attenuated f r)]
      else if ReachesVoice f r m then [.setVoiceVolume (voiceVolume f r m)]
      else [] := by
  unfold checkAndSetVolume
  by_cases hm : m.mMuteCount r.output r.stream = 0
  · rw [if_neg (not_not.mpr hm)]
    by_cases hb : (r.stream = .voiceCall ∧ m.mForceUse = .btSco) ∨
        (r.stream = .bluetoothSco ∧ m.mForceUse ≠ .btSco)
    · have hf : ¬ ReachesFm f r m := fun h => by rcases hb with hb | hb <;> simp [h.1] at hb
      have hv : ¬ ReachesVoice f r m := fun h => by
        rcases hb with hb | hb <;> rcases h.1 with h | h <;> simp_all
      rw [if_pos hb, if_neg hf, if_neg hv]
      rfl
    · rw [if_neg hb]
      by_cases hfm : r.stream = .fm
      · have hv : ¬ ReachesVoice f r m := fun h => by rcases h.1 with h | h <;> simp [hfm] at h
        simp only [hfm, true_or, or_true, if_true, if_neg hv]
        have hiff : ReachesFm f r m ↔ 0 ≤ attenuated f r ∧ r.output = m.mHardwareOutput :=
          ⟨fun h => h.2.2, fun h => ⟨hfm, hm, h⟩⟩
        have ho : (storeVolume r (attenuated f r) m).mHardwareOutput = m.mHardwareOutput := rfl
        simp only [hiff, ho]
        split <;> rfl
      · have hf : ¬ ReachesFm f r m := fun h => hfm h.1
        have hiff : ReachesVoice f r m ↔ (r.stream = .voiceCall ∨ r.stream = .bluetoothSco) ∧
            0 ≤ voiceVolume f r m ∧ r.output = m.mHardwareOutput := by
          refine ⟨fun h => ⟨h.1.imp And.left And.left, h.2.2⟩, fun h => ⟨?_, hm, h.2⟩⟩
          by_cases hsco : m.mForceUse = .btSco
          · exact h.1.imp (fun hs => absurd (.inl ⟨hs, hsco⟩) hb) fun hs => ⟨hs, hsco⟩
          · exact h.1.imp (fun hs => ⟨hs, hsco⟩) fun hs => absurd (.inr ⟨hs, hsco⟩) hb
        simp only [if_neg hf, hiff, ← setVoice_toHal, if_neg hfm]
        split
        · rw [← setVoice_storeVolume f r (attenuated f r) m]
          rfl
        · rfl
  · have hf : ¬ ReachesFm f r m := fun h => hm h.2.1
    have hv : ¬ ReachesVoice f r m := fun h => hm h.2.1
    rw [if_pos hm, if_neg hf, if_neg hv]
    rfl

end AudioPolicy
