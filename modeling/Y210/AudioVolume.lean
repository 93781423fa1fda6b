import Y210.AudioPolicy

/-!
# One volume command for two streams

The policy manager sends the volumes of calls and of the radio on two paths, which end in
the same `SND_SET_VOLUME` on `SND_DEVICE_CURRENT`. The laws below say when the driver
still holds the level of the call while the radio is off.
-/
namespace AudioVolume

open AudioDrivers AudioHardware AudioStreams AudioRouting AudioCalls AudioPolicy

variable {p : Platform} {f : FloatOps}

/-- The level that the driver holds for a device when it is routed there. This is the
driver's own affair: any function of the requests it has seen. -/
abbrev Handover := List SndCall → Int → Option Nat

/-- The voice level that the driver holds for the routed device. -/
def heldLevel (h : Handover) (current : Int) : List SndCall → Option Nat
  | [] => none
  | .setVolume d method volume true :: log =>
    if d = current ∧ method = sndMethodVoice then some volume else heldLevel h current log
  | .setDevice d _ _ true :: log => if d = current then heldLevel h current log else h log d
  | .setVolume _ _ _ false :: log => heldLevel h current log
  | .setDevice _ _ _ false :: log => heldLevel h current log

/-- The level belongs to `SND_DEVICE_CURRENT`: a device that is routed takes over what the driver held
for the one before it. -/
def HandsOver (p : Platform) (h : Handover) : Prop := ∀ log d, h log d = heldLevel h (p.dev .current) log

/-- The last voice level that the driver took on `SND_DEVICE_CURRENT`. -/
def lastTaken (current : Int) : List SndCall → Option Nat
  | [] => none
  | .setVolume d method volume true :: log =>
    if d = current ∧ method = sndMethodVoice then some volume else lastTaken current log
  | _ :: log => lastTaken current log

/-- The policy manager and the HAL, with the level that the last `setVoiceVolume` sent. -/
structure System where
  policy : Policy
  world : World
  lastVoice : Option Nat

inductive SystemOp where
  | checkAndSetVolume (r : VolumeRequest)
  | setForceUse (config : ForcedConfig)
  | hal (c : Call)

/-- A call reaches the HAL. -/
def deliver (p : Platform) (s : System) (c : Call) : System :=
  { s with
    world := call p s.world c
    lastVoice := match c with
      | .setVoiceVolume v => some (voiceLevel p s.world.hw v)
      | _ => s.lastVoice }

/-- AudioFlinger forwards the calls of the policy manager in the order they were made. -/
def systemStep (p : Platform) (f : FloatOps) (s : System) : SystemOp → System
  | .checkAndSetVolume r =>
    let (policy, calls, _) := checkAndSetVolume f r s.policy
    Run.exec (deliver p) { s with policy := policy } (calls.filterMap toHal)
  | .setForceUse config => { s with policy := { s.policy with mForceUse := config } }
  | .hal c => deliver p s c

/-- While the radio is off, the driver holds the level of the last `setVoiceVolume`. -/
def VoiceHeld (p : Platform) (h : Handover) (s : System) : Prop :=
  s.world.hw.mFmRadioEnabled = false →
    ∀ level ∈ s.lastVoice, heldLevel h (p.dev .current) s.world.snd = some level

/-- The next `SND_SET_VOLUME` on `SND_DEVICE_CURRENT` is made and accepted. -/
def Taken (p : Platform) (w : World) : Prop :=
  p.dev .current ≠ -1 ∧ p.sndSetVolumeOk w.snd.length = true

instance (w : World) : Decidable (Taken p w) := inferInstanceAs (Decidable (_ ∧ _))

/-- With the radio off, an FM level that the driver takes must be the voice level, and a voice level
must be taken, unless the driver took it before; and where the radio goes off, the driver must have taken
the voice level last. -/
def DeliverSafe (p : Platform) (s : System) : Call → Prop
  | .setFmVolume v => ¬ (s.world.hw.mFmRadioEnabled = false ∧ Taken p s.world ∧
      ∃ level ∈ s.lastVoice, fmLevel p v ≠ level)
  | .setVoiceVolume v => ¬ (s.world.hw.mFmRadioEnabled = false ∧ ¬ Taken p s.world ∧
      lastTaken (p.dev .current) s.world.snd ≠ some (voiceLevel p s.world.hw v))
  | .setFm _ off => ¬ (s.world.hw.mFmRadioEnabled = true ∧ off = true ∧
      ∃ level ∈ s.lastVoice, lastTaken (p.dev .current) s.world.snd ≠ some level)
  | _ => True

instance (s : System) : (c : Call) → Decidable (DeliverSafe p s c)
  | .setFmVolume _ | .setVoiceVolume _ | .setFm _ _ => inferInstanceAs (Decidable (¬ (_ ∧ _ ∧ _)))
  | .setMode _ | .setMicMute _ | .doRouting _ | .reroute _ | .setSettings .. | .openOutputStream _ _
  | .closeOutputStream | .setOutDevices _ | .write _ _ | .outStandby | .record _ | .setProperty _ => isTrue trivial

/-- The steps after which the driver holds the voice level, with the state before them. -/
def VolumeSafe (p : Platform) (f : FloatOps) (s : System) : SystemOp → Prop
  | .checkAndSetVolume r =>
    (ReachesFm f r s.policy → DeliverSafe p s (.setFmVolume (attenuated f r))) ∧
    (ReachesVoice f r s.policy → DeliverSafe p s (.setVoiceVolume (voiceVolume f r s.policy)))
  | .setForceUse _ => True
  | .hal c => DeliverSafe p s c

instance (s : System) : (op : SystemOp) → Decidable (VolumeSafe p f s op)
  | .checkAndSetVolume _ => inferInstanceAs (Decidable ((_ → _) ∧ (_ → _)))
  | .setForceUse _ => isTrue trivial
  | .hal c => inferInstanceAs (Decidable (DeliverSafe p s c))

/-! ## What the calls do to the level -/

/-- No route changes the level that is held. -/
theorem heldLevel_eq {h : Handover} (hh : HandsOver p h) (log : List SndCall) :
    heldLevel h (p.dev .current) log = lastTaken (p.dev .current) log := by
  induction log with
  | nil => rfl
  | cons c log ih =>
    cases c with
    | setVolume d method volume ok =>
      cases ok with
      | true => simp only [heldLevel, lastTaken, ih]
      | false => exact ih
    | setDevice d ear mic ok =>
      cases ok with
      | true =>
        rw [heldLevel, hh log d, ite_self]
        exact ih
      | false => exact ih

theorem lastTaken_set_volume_rpc (volume : Nat) (w : World) :
    lastTaken (p.dev .current) (set_volume_rpc p (p.dev .current) sndMethodVoice volume w).1.snd =
      if Taken p w then some volume else lastTaken (p.dev .current) w.snd := by
  unfold set_volume_rpc sndSetVolume Taken
  by_cases hc : p.dev .current = -1
  · simp [hc]
  · rcases Bool.eq_false_or_eq_true (p.sndSetVolumeOk w.snd.length) with hok | hok <;>
      simp [hc, hok, lastTaken]

/-- A route is no volume. -/
theorem lastTaken_rpc (current device : Int) (ear mic : Bool) (log : List SndCall) :
    lastTaken current (do_route_audio_rpc p device ear mic log).1 = lastTaken current log := by
  unfold do_route_audio_rpc sndSetDevice
  by_cases hno : device = -1
  · rw [if_pos hno]
  rw [if_neg hno]
  cases hfirst : p.sndSetDeviceOk log.length with
  | false => split <;> rfl
  | true =>
    split
    · dsimp only [List.length_cons]
      cases hsecond : p.sndSetDeviceOk (log.length + 1) <;> rfl
    · rfl

theorem lastTaken_routed (current : Int) (input : Option Devices) (w : World) :
    lastTaken current (doRouting p input w).1.snd = lastTaken current w.snd := by
  rw [doRouting_snd, routedLog]
  split
  · exact lastTaken_rpc ..
  · rfl

/-- A call that neither switches the radio nor sets a volume. -/
def Levelled : Call → Prop
  | .setFm _ _ | .setVoiceVolume _ | .setFmVolume _ => False
  | _ => True

/-- Such a call moves neither the radio nor the level. -/
theorem levelled_call {c : Call} (hc : Levelled c) (w : World) :
    (call p w c).hw.mFmRadioEnabled = w.hw.mFmRadioEnabled ∧
      lastTaken (p.dev .current) (call p w c).snd = lastTaken (p.dev .current) w.snd := by
  have hplayed : ∀ {w'}, Played w w' → w'.hw.mFmRadioEnabled = w.hw.mFmRadioEnabled ∧
      lastTaken (p.dev .current) w'.snd = lastTaken (p.dev .current) w.snd := by
    rintro w' ⟨_, _, _, _, rfl⟩
    exact ⟨rfl, rfl⟩
  cases c with
  | setFm | setVoiceVolume | setFmVolume => exact hc.elim
  | setSettings | record | setProperty => exact ⟨rfl, rfl⟩
  | doRouting input => exact ⟨doRouting_mFmRadioEnabled input w, lastTaken_routed _ input w⟩
  | reroute input => exact ⟨doRouting_mFmRadioEnabled input _, lastTaken_routed _ input (clearCurDevice w)⟩
  | setMode mode =>
    simp only [call, setMode]
    split <;> exact ⟨rfl, rfl⟩
  | setMicMute state =>
    simp only [call, setMicMute, setMicMute_nosync]
    split
    · rw [route_hw, route_snd, lastTaken_rpc]
      exact ⟨rfl, rfl⟩
    · exact ⟨rfl, rfl⟩
  | openOutputStream devices a => exact hplayed (openOutputStream_played devices a w)
  | closeOutputStream => exact hplayed (closeOutputStream_played w)
  | setOutDevices devices => exact hplayed (setOutDevices_played devices w)
  | write buffer answers => exact hplayed (played_law.write buffer answers w)
  | outStandby => exact hplayed (played_law.outStandby w)

theorem set_volume_rpc_fm (device : Int) (method volume : Nat) (w : World) :
    (set_volume_rpc p device method volume w).1.hw.mFmRadioEnabled = w.hw.mFmRadioEnabled :=
  (set_volume_rpc_sameRoute device method volume w).mFmRadioEnabled

/-- In terms of the level last taken. -/
theorem voiceHeld_iff {h : Handover} (hh : HandsOver p h) (s : System) : VoiceHeld p h s ↔
    (s.world.hw.mFmRadioEnabled = false → ∀ level ∈ s.lastVoice,
      lastTaken (p.dev .current) s.world.snd = some level) := by
  rw [VoiceHeld, heldLevel_eq hh]

section
variable {h : Handover} {s : System}

theorem voiceHeld_setFmVolume (hh : HandsOver p h) (hP : VoiceHeld p h s) (v : ℚ) :
    VoiceHeld p h (deliver p s (.setFmVolume v)) ↔ DeliverSafe p s (.setFmVolume v) := by
  have hheld := lastTaken_set_volume_rpc (p := p) (fmLevel p v)
    { s.world with hw := { s.world.hw with mFmVolume := fmLevel p v } }
  have hfm := set_volume_rpc_fm (p := p) (p.dev .current) sndMethodVoice (fmLevel p v)
    { s.world with hw := { s.world.hw with mFmVolume := fmLevel p v } }
  rw [voiceHeld_iff hh] at hP ⊢
  simp only [DeliverSafe, deliver, call, setFmVolume, hheld, hfm]
  by_cases ht : Taken p s.world
  · have ht' : Taken p { s.world with hw := { s.world.hw with mFmVolume := fmLevel p v } } := ht
    simp only [ht, ht', if_true, true_and, Option.some.injEq, not_and, not_exists, not_not]
  · have ht' : ¬ Taken p { s.world with hw := { s.world.hw with mFmVolume := fmLevel p v } } := ht
    simp only [ht, ht', if_false, false_and, and_false, not_false_eq_true, iff_true]
    exact hP

theorem voiceHeld_setVoiceVolume (hh : HandsOver p h) (s : System) (v : ℚ) :
    VoiceHeld p h (deliver p s (.setVoiceVolume v)) ↔ DeliverSafe p s (.setVoiceVolume v) := by
  have hheld := lastTaken_set_volume_rpc (p := p) (voiceLevel p s.world.hw v) s.world
  have hfm := set_volume_rpc_fm (p := p) (p.dev .current) sndMethodVoice
    (voiceLevel p s.world.hw v) s.world
  rw [voiceHeld_iff hh]
  simp only [DeliverSafe, deliver, call, setVoiceVolume, hheld, hfm, Option.mem_def,
    Option.some.injEq, forall_eq']
  by_cases ht : Taken p s.world <;> simp [ht]

/-- The radio that goes off leaves the level as it is. -/
theorem voiceHeld_setFm (hh : HandsOver p h) (hP : VoiceHeld p h s) (on off : Bool) :
    VoiceHeld p h (deliver p s (.setFm on off)) ↔ DeliverSafe p s (.setFm on off) := by
  obtain ⟨log, fd, hswitch⟩ := switchFm_frame p on off s.world
  have hlast : (deliver p s (.setFm on off)).lastVoice = s.lastVoice := rfl
  have hworld : (deliver p s (.setFm on off)).world = (doRouting p none (switchFm p on off s.world)).1 := rfl
  have hsnd : (switchFm p on off s.world).snd = s.world.snd := by rw [hswitch]
  have hradio : (switchFm p on off s.world).hw.mFmRadioEnabled = switchedFm on off s.world.hw.mFmRadioEnabled := by
    rw [hswitch]
  rw [voiceHeld_iff hh] at hP ⊢
  rw [hlast, hworld, lastTaken_routed, doRouting_mFmRadioEnabled, hsnd, hradio, DeliverSafe, not_and, not_and,
    not_exists]
  simp only [not_and, not_not]
  cases hoff : off with
  | false =>
    cases on with
    | true => simp [switchedFm]
    | false => simpa [switchedFm] using hP
  | true =>
    cases hfm : s.world.hw.mFmRadioEnabled with
    | false => simpa [switchedFm] using hP hfm
    | true => simp [switchedFm]

/-- One call: the level survives exactly the calls that are safe. -/
theorem voiceHeld_deliver (hh : HandsOver p h) (hP : VoiceHeld p h s) (c : Call) :
    VoiceHeld p h (deliver p s c) ↔ DeliverSafe p s c := by
  by_cases hc : Levelled c
  · have hl := levelled_call (p := p) hc s.world
    refine iff_of_true ?_ ?_
    · rw [voiceHeld_iff hh] at hP ⊢
      cases c with
      | setVoiceVolume v => exact hc.elim
      | _ =>
        simp only [deliver, hl]
        exact hP
    · cases c <;> first | exact hc.elim | trivial
  · cases c with
    | setFmVolume v => exact voiceHeld_setFmVolume hh hP v
    | setVoiceVolume v => exact voiceHeld_setVoiceVolume hh s v
    | setFm on off => exact voiceHeld_setFm hh hP on off
    | _ => exact absurd trivial hc

/-- One step of the policy manager or of the HAL. -/
theorem voiceHeld_step (hh : HandsOver p h) (s : System) (op : SystemOp) (hP : VoiceHeld p h s) :
    VoiceHeld p h (systemStep p f s op) ↔ VolumeSafe p f s op := by
  cases op with
  | setForceUse config => exact iff_of_true hP trivial
  | hal c => exact voiceHeld_deliver hh hP c
  | checkAndSetVolume r =>
    have hstep : systemStep p f s (.checkAndSetVolume r) = Run.exec (deliver p)
        { s with policy := (checkAndSetVolume f r s.policy).1 }
        ((checkAndSetVolume f r s.policy).2.1.filterMap toHal) := rfl
    have hP' : VoiceHeld p h { s with policy := (checkAndSetVolume f r s.policy).1 } := hP
    rw [hstep, checkAndSetVolume_toHal]
    by_cases hf : ReachesFm f r s.policy
    · have hv : ¬ ReachesVoice f r s.policy := fun hv => by
        have := hf.1
        rcases hv.1 with h | h <;> simp [this] at h
      rw [if_pos hf, Run.exec_cons, Run.exec_nil, voiceHeld_deliver hh hP']
      exact ⟨fun hd => ⟨fun _ => hd, fun hv' => absurd hv' hv⟩, fun hs => hs.1 hf⟩
    · rw [if_neg hf]
      by_cases hv : ReachesVoice f r s.policy
      · rw [if_pos hv, Run.exec_cons, Run.exec_nil, voiceHeld_deliver hh hP']
        exact ⟨fun hd => ⟨fun hf' => absurd hf' hf, fun _ => hd⟩, fun hs => hs.2 hv⟩
      · rw [if_neg hv, Run.exec_nil]
        exact iff_of_true hP' ⟨fun hf' => absurd hf' hf, fun hv' => absurd hv' hv⟩

end

/-- A request for the hardware output at the given index, at full computed volume. -/
def requestFor (stream : StreamType) (index : Int) (computed : ℚ) : VolumeRequest :=
  ⟨stream, index, 0, deviceOutSpeaker, false, computed, none, none, none⟩

def stockPolicy : Policy := ⟨.none, fun _ _ => 0, fun _ _ => -1, fun _ => 5, 0, 0⟩

/-- Attenuations that attenuate nothing, and exact quotients. -/
def exactFloats : FloatOps := ⟨fun v _ => v, id, fun index indexMax => index / indexMax⟩

/-- A driver that keeps the last level it took. -/
def keepsLevel : Handover := fun log _ => lastTaken (acceptAll.dev .current) log

theorem keepsLevel_handsOver : HandsOver acceptAll keepsLevel := by
  intro log d
  unfold keepsLevel
  induction log with
  | nil => rfl
  | cons c log ih =>
    cases c with
    | setVolume d' method volume ok =>
      cases ok with
      | true => simp only [heldLevel, lastTaken, ih]
      | false => exact ih
    | setDevice d' ear mic ok =>
      cases ok with
      | true => simp only [heldLevel, lastTaken, ← ih, ite_self]
      | false => exact ih

end AudioVolume
