import Mathlib.Data.List.Induction
import Y210.AudioCalls

/-!
# The mutes the driver holds

Five members feed the mutes of `doAudioRouteOrMute`, but the RPC is skipped on the
device id and the FM flag alone, and `setMicMute` decides the mutes for
`SND_DEVICE_CURRENT`. The laws below say when the driver is still up to date.
-/
namespace AudioMute

open AudioDrivers AudioHardware AudioStreams AudioRouting AudioCalls

variable {p : Platform}

/-- The configuration that `doAudioRouteOrMute` computes for a device. -/
def computedRoute (p : Platform) (hw : Hal) (device : Int) : RouteConfig :=
  ⟨device, earMute p hw hw.mFmRadioEnabled device, micMute hw hw.mFmRadioEnabled⟩

/-- The cached device, if there is one, is routed with the mutes computed for it now. -/
def MutesCurrent (p : Platform) (w : World) : Prop :=
  w.hw.mCurSndDevice ≠ -1 →
    routeConfig (p.dev .current) w.snd = some (computedRoute p w.hw w.hw.mCurSndDevice)

/-- No switch of the radio is waiting for its route. -/
def Settled (w : World) : Prop := w.hw.mFmPrev = w.hw.mFmRadioEnabled

/-- The handset is routed for neither a call nor the radio: its ear mute follows the
built-in mic. -/
def OnHandset (p : Platform) (hw : Hal) : Prop :=
  hw.mCurSndDevice = p.dev .handset ∧ hw.mFmRadioEnabled = false ∧ p.isInCall hw.mMode = false

instance (hw : Hal) : Decidable (OnHandset p hw) := inferInstanceAs (Decidable (_ ∧ _))

/-- The mute change of `setMicMute` asks for the ear mute of a device that is not the
handset; a mic selection without an RPC leaves the ear mute of the mic before. -/
def CallSafe (p : Platform) (w : World) : Call → Prop
  | .setMicMute state =>
    ¬ (state ≠ w.hw.mMicMute ∧ OnHandset p w.hw ∧ w.hw.mBuiltinMicSelected = true)
  | .doRouting (some d) => Sends p (some d) w ∨
    ¬ (OnHandset p w.hw ∧ w.hw.mBuiltinMicSelected ≠ decide (d = deviceInBuiltinMic))
  | _ => True

/-! ## What the calls do to the mutes -/

theorem mutesCurrent_congr {w w' : World} (h : SameRoute p.dev w w') :
    MutesCurrent p w' ↔ MutesCurrent p w := by
  simp only [MutesCurrent, computedRoute, earMute, micMute, h.mMode, h.mMicMute, h.mBuiltinMicSelected,
    h.mFmRadioEnabled, h.mCurSndDevice, h.config]

theorem settled_congr {w w' : World} (h : SameRoute p.dev w w') : Settled w' ↔ Settled w := by
  simp only [Settled, h.mFmRadioEnabled, h.mFmPrev]

theorem mutesCurrent_of_none {w : World} (h : w.hw.mCurSndDevice = -1) : MutesCurrent p w :=
  fun hn => absurd h hn

/-- The ear mute follows the mic flag on the handset, and nowhere else. -/
theorem earMute_mic (hw : Hal) (b : Bool) :
    earMute p { hw with mBuiltinMicSelected := b } hw.mFmRadioEnabled hw.mCurSndDevice =
        earMute p hw hw.mFmRadioEnabled hw.mCurSndDevice ↔
      ¬ (OnHandset p hw ∧ hw.mBuiltinMicSelected ≠ b) := by
  unfold earMute OnHandset
  cases hw.mFmRadioEnabled <;> cases p.isInCall hw.mMode <;>
    cases hw.mBuiltinMicSelected <;> cases b <;> by_cases hh : hw.mCurSndDevice = p.dev .handset <;>
    simp [hh]

/-- The mutes for `SND_DEVICE_CURRENT` are those of the routed device, unless the handset
is open for the built-in mic. -/
theorem earMute_current (hd : Distinct p.dev) (hw : Hal) :
    earMute p hw hw.mFmRadioEnabled (p.dev .current) =
        earMute p hw hw.mFmRadioEnabled hw.mCurSndDevice ↔
      ¬ (OnHandset p hw ∧ hw.mBuiltinMicSelected = true) := by
  have hc : p.dev .current ≠ p.dev .handset := fun h => nomatch hd h
  unfold earMute OnHandset
  cases hw.mFmRadioEnabled <;> cases p.isInCall hw.mMode <;>
    cases hw.mBuiltinMicSelected <;> by_cases hh : hw.mCurSndDevice = p.dev .handset <;>
    simp [hh, hc]

theorem not_onHandset (hx : AllExist p.dev) {hw : Hal} (h : hw.mCurSndDevice = -1) :
    ¬ OnHandset p hw := fun ho => hx .handset (ho.1.symm.trans h)

/-- A route that is sent carries the mutes of its device. -/
theorem mutes_of_sends (hx : AllExist p.dev) (hd : Distinct p.dev)
    (hok : ∀ n, p.sndSetDeviceOk n = true) {input : Option Devices} {w : World}
    (h : Sends p input w) : MutesCurrent p (doRouting p input w).1 := by
  intro _
  rw [doRouting_of_sends h, applyRoute_hw, applyRoute_snd, route_snd,
    routeConfig_rpc hok (target_exists hx input w) (target_ne_current hd input w)]
  rfl

/-- Without an RPC only the mic selection can make a mute stale. -/
theorem mutes_of_not_sends (hx : AllExist p.dev) {d : Devices} {w : World} (hP : MutesCurrent p w)
    (h : ¬ Sends p (some d) w) : MutesCurrent p (doRouting p (some d) w).1 ↔
      ¬ (OnHandset p w.hw ∧ w.hw.mBuiltinMicSelected ≠ decide (d = deviceInBuiltinMic)) := by
  rw [doRouting_of_not_sends h]
  by_cases hn : w.hw.mCurSndDevice = -1
  · exact iff_of_true (mutesCurrent_of_none hn) fun hc => not_onHandset hx hn hc.1
  · rw [← earMute_mic]
    simp only [MutesCurrent, ne_eq, hn, not_false_eq_true, true_imp_iff, hP hn,
      computedRoute, Option.some.injEq, RouteConfig.mk.injEq, true_and, selectMic]
    exact ⟨fun he => he.1.symm, fun he => ⟨he.symm, rfl⟩⟩

theorem settled_doRouting {input : Option Devices} {w : World} (hs : Settled w) :
    Settled (doRouting p input w).1 := by
  by_cases h : Sends p input w
  · rw [doRouting_of_sends h, Settled, applyRoute_hw]
    rfl
  · rw [doRouting_of_not_sends h, Settled, selectMic_mFmPrev, selectMic_mFmRadioEnabled]
    exact hs

/-- An output route always answers a switch of the radio. -/
theorem settled_doRouting_none (hx : AllExist p.dev) (w : World) :
    Settled (doRouting p none w).1 := by
  by_cases h : Sends p none w
  · rw [doRouting_of_sends h, Settled, applyRoute_hw]
    rfl
  · rw [doRouting_of_not_sends h]
    rcases not_sends hx h with hv | ⟨-, hf⟩
    · cases hv
    · exact hf.symm

/-- Behind `clearCurDevice` the route is sent, or no device is cached. -/
theorem mutes_reroute (hx : AllExist p.dev) (hd : Distinct p.dev)
    (hok : ∀ n, p.sndSetDeviceOk n = true) (input : Option Devices) (w : World) :
    MutesCurrent p (doRouting p input (clearCurDevice w)).1 := by
  by_cases h : Sends p input (clearCurDevice w)
  · exact mutes_of_sends hx hd hok h
  · rw [doRouting_of_not_sends h]
    exact mutesCurrent_of_none (by simp [clearCurDevice])

theorem switchFm_sameRoute {on off : Bool} {w : World}
    (h : (switchFm p on off w).hw.mFmRadioEnabled = w.hw.mFmRadioEnabled) :
    SameRoute p.dev w (switchFm p on off w) := by
  obtain ⟨log, fd, he⟩ := switchFm_frame p on off w
  rw [he] at h ⊢
  exact ⟨rfl, rfl, rfl, h, rfl, rfl, rfl, rfl, rfl, rfl⟩

/-- The route after a switch of the radio is sent, or the radio has not moved. -/
theorem mutes_setFm (hx : AllExist p.dev) (hd : Distinct p.dev)
    (hok : ∀ n, p.sndSetDeviceOk n = true) (on off : Bool) {w : World} (hs : Settled w)
    (hP : MutesCurrent p w) : MutesCurrent p (doRouting p none (switchFm p on off w)).1 := by
  by_cases h : Sends p none (switchFm p on off w)
  · exact mutes_of_sends hx hd hok h
  · rw [doRouting_of_not_sends h]
    rcases not_sends hx h with hv | ⟨-, hf⟩
    · cases hv
    · have hf' : (switchFm p on off w).hw.mFmRadioEnabled = w.hw.mFmRadioEnabled := by
        obtain ⟨log, fd, he⟩ := switchFm_frame p on off w
        rw [hf, he]
        exact hs
      refine (mutesCurrent_congr (switchFm_sameRoute hf')).mpr hP

/-- `setMicMute` keeps the mutes current unless it closes the handset's audio circuit. -/
theorem mutes_setMicMute (hx : AllExist p.dev) (hd : Distinct p.dev)
    (hok : ∀ n, p.sndSetDeviceOk n = true) (state : Bool) {w : World} (hP : MutesCurrent p w) :
    MutesCurrent p (setMicMute p state w).1 ↔ CallSafe p w (.setMicMute state) := by
  unfold setMicMute setMicMute_nosync
  by_cases hm : w.hw.mMicMute = state
  · rw [if_neg (not_not.mpr hm)]
    exact iff_of_true hP fun hc => hc.1 hm.symm
  · rw [if_pos hm]
    by_cases hn : w.hw.mCurSndDevice = -1
    · refine iff_of_true (mutesCurrent_of_none ?_) fun hc => not_onHandset hx hn hc.2.1
      rw [route_hw]
      exact hn
    · have hc : CallSafe p w (.setMicMute state) ↔
          ¬ (OnHandset p w.hw ∧ w.hw.mBuiltinMicSelected = true) := by
        simp only [CallSafe, ne_eq, Ne.symm hm, not_false_eq_true, true_and]
      rw [hc, ← earMute_current hd]
      simp only [MutesCurrent, route_hw, route_snd, ne_eq, hn, not_false_eq_true, true_imp_iff,
        routeConfig_rpc_current hok (hx .current), hP hn, Option.map_some, computedRoute,
        Option.some.injEq, RouteConfig.mk.injEq, true_and]
      exact ⟨fun he => he.1, fun he => ⟨he, rfl⟩⟩

/-- One call: the law survives exactly the calls that are safe. -/
theorem mutes_call (hx : AllExist p.dev) (hd : Distinct p.dev) (hok : ∀ n, p.sndSetDeviceOk n = true)
    {w : World} (hs : Settled w) (hP : MutesCurrent p w) (c : Call) :
    MutesCurrent p (call p w c) ↔ CallSafe p w c := by
  by_cases hq : Quiet c
  · refine iff_of_true ((mutesCurrent_congr (quiet_sameRoute hq w)).mpr hP) ?_
    cases c <;> first | exact hq.elim | trivial
  · cases c with
    | setMicMute state => exact mutes_setMicMute hx hd hok state hP
    | doRouting input =>
      by_cases h : Sends p input w
      · refine iff_of_true (mutes_of_sends hx hd hok h) ?_
        cases input with
        | none => trivial
        | some d => exact .inl h
      · cases input with
        | none =>
          refine iff_of_true ?_ trivial
          simp only [call, doRouting_of_not_sends h]
          exact hP
        | some d =>
          rw [call, mutes_of_not_sends hx hP h]
          exact ⟨.inr, fun hc => hc.resolve_left h⟩
    | reroute input => exact iff_of_true (mutes_reroute hx hd hok input w) trivial
    | setFm on off => exact iff_of_true (mutes_setFm hx hd hok on off hs hP) trivial
    | setMode mode =>
      refine iff_of_true ?_ trivial
      simp only [call, setMode]
      split
      · exact mutesCurrent_of_none rfl
      · exact hP
    | setSettings | setVoiceVolume | setFmVolume | openOutputStream | closeOutputStream
    | setOutDevices | write | outStandby | record | setProperty => exact absurd trivial hq

theorem settled_call (hx : AllExist p.dev) {w : World} (hs : Settled w)
    (c : Call) : Settled (call p w c) := by
  by_cases hq : Quiet c
  · exact (settled_congr (quiet_sameRoute (p := p) hq w)).mpr hs
  · cases c with
    | setMicMute state =>
      simp only [call, setMicMute, setMicMute_nosync]
      split
      · rw [Settled, route_hw]
      · exact hs
    | doRouting input => exact settled_doRouting hs
    | reroute input => exact settled_doRouting (w := clearCurDevice w) hs
    | setFm on off => exact settled_doRouting_none hx _
    | setMode mode =>
      simp only [call, setMode]
      split <;> exact hs
    | setSettings | setVoiceVolume | setFmVolume | openOutputStream | closeOutputStream
    | setOutDevices | write | outStandby | record | setProperty => exact absurd trivial hq

/-! ## Runs of operations -/

/-- The operations whose call can leave a mute stale, with the state before them. -/
def MuteSafe (p : Platform) (w : World) : Op → Prop
  | .setMicMute state => CallSafe p w (.setMicMute state)
  | .inSetParameters ptr kv =>
    ∀ d, inputRouting p ptr kv w = some d → CallSafe p w (.doRouting (some d))
  | _ => True

theorem callSafe_of_plain {c : Call} (hc : Plain c) (w : World) : CallSafe p w c := by
  cases c with
  | setMicMute state => exact hc.elim
  | doRouting input =>
    obtain rfl : input = none := hc
    trivial
  | _ => trivial

theorem settled_step (hx : AllExist p.dev) (w : World) (op : Op) (hs : Settled w) :
    Settled (step p w op) :=
  (step_reaches op w).preserves Settled (fun _ c _ hw => settled_call hx hw c) hs

theorem mutes_step (hx : AllExist p.dev) (hd : Distinct p.dev) (hok : ∀ n, p.sndSetDeviceOk n = true)
    (w : World) (op : Op) (hs : Settled w) (hP : MutesCurrent p w) :
    MutesCurrent p (step p w op) ↔ MuteSafe p w op := by
  by_cases hm : ∃ state, op = .setMicMute state
  · obtain ⟨state, rfl⟩ := hm
    exact mutes_call hx hd hok hs hP (.setMicMute state)
  · by_cases hr : ∃ ptr kv, op = .inSetParameters ptr kv
    · obtain ⟨ptr, kv, rfl⟩ := hr
      change MutesCurrent p (inSetParameters p ptr kv w).1 ↔ _
      cases hi : inputRouting p ptr kv w with
      | none =>
        rw [inSetParameters_none hi]
        exact iff_of_true hP fun d hd => by simp [hi] at hd
      | some d =>
        obtain ⟨v, ⟨r, rfl⟩, he⟩ := inSetParameters_some hi
        rw [he]
        have hv := mutes_call hx hd hok (w := record r w) hs hP (.doRouting (some d))
        refine hv.trans ⟨fun hc d' hd' => ?_, fun hc => hc d hi⟩
        obtain rfl : d = d' := Option.some.inj (hi.symm.trans hd')
        exact hc
    · refine iff_of_true ?_ ?_
      · have hfollows := step_follows (p := p) (fun state h => hm ⟨state, h⟩)
          (fun ptr kv h => hr ⟨ptr, kv, h⟩) w
        have hinv := hfollows.preserves (fun v => Settled v ∧ MutesCurrent p v) (fun v c hc hv =>
          ⟨settled_call hx hv.1 c, (mutes_call hx hd hok hv.1 hv.2 c).mpr (callSafe_of_plain hc v)⟩)
          ⟨hs, hP⟩
        exact hinv.2
      · cases op with
        | setMicMute state => exact absurd ⟨state, rfl⟩ hm
        | inSetParameters ptr kv => exact absurd ⟨ptr, kv, rfl⟩ hr
        | _ => trivial

/-- In a run of operations the driver holds the computed mutes in every state exactly
when no operation of the run is one of the two that leave a mute stale. -/
theorem mutesCurrent_iff_muteSafe (p : Platform) (hx : AllExist p.dev) (hd : Distinct p.dev)
    (hok : ∀ n, p.sndSetDeviceOk n = true) (ops : List Op) :
    Run.AllStates (step p) (MutesCurrent p) (boot p) ops ↔
      Run.AllSteps (step p) (MuteSafe p) (boot p) ops :=
  Run.allStates_iff_allSteps Settled (settled_step hx) (mutes_step hx hd hok) (s := boot p) rfl
    (mutesCurrent_of_none rfl) ops

/-- A call and its mute changes leave every mute current. -/
theorem mutesCurrent_in_call : Run.AllStates (step acceptAll) (MutesCurrent acceptAll) (boot acceptAll)
    [.setMode modeInCall, .setMicMute false, .setParameters ⟨11, [("tty_mode", "off")]⟩,
      .setMicMute true] :=
  (mutesCurrent_iff_muteSafe acceptAll stock_allExist stock_distinct (fun _ => rfl) _).mpr
    ⟨trivial, by unfold MuteSafe CallSafe; decide, trivial, by unfold MuteSafe CallSafe; decide, trivial⟩

/-- The handset records with its circuit open until the mic is unmuted. -/
theorem unmuting_closes_handset : ¬ Run.AllStates (step acceptAll) (MutesCurrent acceptAll)
    (boot acceptAll) [.openInputStream 1 deviceInBuiltinMic ⟨pcm16Bit, channelInMono, 8000⟩,
      .read 1 (fun _ => 0) 4 [.data [1, 2, 3, 4]], .setMicMute false] := by
  intro h
  have hlast := h.last (by decide)
  revert hlast
  decide

/-! ## The user's mute in a call -/

/-- Whether the last `setMicMute` of a run muted the mic. -/
def userMuted (ops : List Op) : Bool :=
  ops.foldl (fun muted op => match op with
    | .setMicMute state => state
    | _ => muted) false

/-- The mic of the last accepted configuration: open for the radio, else the user's. -/
def MicAccepted (w : World) : Prop :=
  ∀ c, lastAccepted w.snd = some c → c.micMute = micMute w.hw w.hw.mFmPrev

theorem micAccepted_congr {w w' : World} (hm : w'.hw.mMicMute = w.hw.mMicMute)
    (hp : w'.hw.mFmPrev = w.hw.mFmPrev) (ha : lastAccepted w'.snd = lastAccepted w.snd) :
    MicAccepted w' ↔ MicAccepted w := by
  simp only [MicAccepted, micMute, hm, hp, ha]

theorem micAccepted_route (hok : ∀ n, p.sndSetDeviceOk n = true) {device : Int} (hd : device ≠ -1)
    (w : World) : MicAccepted (doAudioRouteOrMute p device w).1 := by
  intro c hc
  rw [route_snd, (rpc_accepted hok hd _ _ _).2] at hc
  obtain rfl := Option.some.inj hc
  rw [route_hw]
  rfl

theorem micAccepted_doRouting (hx : AllExist p.dev) (hok : ∀ n, p.sndSetDeviceOk n = true)
    (input : Option Devices) {w : World} (h : MicAccepted w) : MicAccepted (doRouting p input w).1 := by
  by_cases hs : Sends p input w
  · have hr := micAccepted_route hok (target_exists hx input w) { w with hw := selectMic w.hw input }
    rw [doRouting_of_sends hs]
    refine (micAccepted_congr ?_ ?_ ?_).mp hr <;> simp [routedHal]
  · rw [doRouting_of_not_sends hs]
    have hv : MicAccepted { w with hw := selectMic w.hw input } ↔ MicAccepted w :=
      micAccepted_congr (selectMic_mMicMute _ _) (selectMic_mFmPrev _ _) rfl
    exact hv.mpr h

theorem micAccepted_call (hx : AllExist p.dev) (hok : ∀ n, p.sndSetDeviceOk n = true) {w : World}
    (h : MicAccepted w) (c : Call) : MicAccepted (call p w c) := by
  by_cases hq : Quiet c
  · have hs := quiet_sameRoute (p := p) hq w
    exact (micAccepted_congr hs.mMicMute hs.mFmPrev hs.accepted).mpr h
  · cases c with
    | setMicMute state =>
      simp only [call, setMicMute, setMicMute_nosync]
      split
      · exact micAccepted_route hok (hx .current) _
      · exact h
    | doRouting input => exact micAccepted_doRouting hx hok input h
    | reroute input => exact micAccepted_doRouting hx hok input (w := clearCurDevice w) h
    | setFm on off =>
      obtain ⟨log, fd, he⟩ := switchFm_frame p on off w
      refine micAccepted_doRouting hx hok none ?_
      rw [he]
      exact h
    | setMode mode =>
      simp only [call, setMode]
      split <;> exact h
    | setSettings | setVoiceVolume | setFmVolume | openOutputStream | closeOutputStream
    | setOutDevices | write | outStandby | record | setProperty => exact absurd trivial hq

/-- The user's mute moves with `setMicMute` alone. -/
theorem mMicMute_call {c : Call} (hc : ∀ state, c ≠ .setMicMute state) (w : World) :
    (call p w c).hw.mMicMute = w.hw.mMicMute := by
  by_cases hq : Quiet c
  · exact (quiet_sameRoute (p := p) hq w).mMicMute
  · have hroute : ∀ input v, (doRouting p input v).1.hw.mMicMute = v.hw.mMicMute := by
      intro input v
      by_cases hs : Sends p input v
      · rw [doRouting_of_sends hs, applyRoute_hw]
        exact selectMic_mMicMute _ _
      · rw [doRouting_of_not_sends hs]
        exact selectMic_mMicMute _ _
    cases c with
    | setMicMute state => exact absurd rfl (hc state)
    | doRouting input => exact hroute input w
    | reroute input => exact hroute input (clearCurDevice w)
    | setFm on off =>
      obtain ⟨log, fd, he⟩ := switchFm_frame p on off w
      rw [call, hroute, he]
    | setMode mode =>
      simp only [call, setMode]
      split <;> rfl
    | setSettings | setVoiceVolume | setFmVolume | openOutputStream | closeOutputStream
    | setOutDevices | write | outStandby | record | setProperty => exact absurd trivial hq

theorem mMicMute_step {op : Op} (hm : ∀ state, op ≠ .setMicMute state) (w : World) :
    (step p w op).hw.mMicMute = w.hw.mMicMute := by
  exact (step_keeps_mute hm w).preserves (fun v => v.hw.mMicMute = w.hw.mMicMute)
    (fun v c hc hv => (mMicMute_call hc v).trans hv) rfl

theorem mMicMute_setMicMute (state : Bool) (w : World) :
    (setMicMute p state w).1.hw.mMicMute = state := by
  unfold setMicMute setMicMute_nosync
  by_cases hs : w.hw.mMicMute = state
  · rw [if_neg (not_not.mpr hs)]
    exact hs
  · rw [if_pos hs, route_hw]

/-- The member is the user's last word, once there has been one. -/
theorem mMicMute_of_userMuted (ops : List Op) (h : userMuted ops = true) :
    (Run.exec (step p) (boot p) ops).hw.mMicMute = true := by
  induction ops using List.reverseRecOn with
  | nil => cases h
  | append_singleton ops op ih =>
    rw [Run.exec_append, Run.exec_cons, Run.exec_nil]
    rw [userMuted, List.foldl_append] at h
    by_cases hm : ∃ state, op = .setMicMute state
    · obtain ⟨state, rfl⟩ := hm
      exact (mMicMute_setMicMute state _).trans h
    · rw [mMicMute_step fun state he => hm ⟨state, he⟩]
      refine ih ?_
      cases op with
      | setMicMute state => exact absurd ⟨state, rfl⟩ hm
      | _ => exact h

/-- In every run of operations, while the user's last word is to mute, the last
configuration that the driver accepted has the mic muted exactly when the radio is off. -/
theorem mic_muted_iff_fm_off (p : Platform) (hx : AllExist p.dev)
    (hok : ∀ n, p.sndSetDeviceOk n = true) (ops : List Op) (hu : userMuted ops = true) :
    ∀ c, lastAccepted (Run.exec (step p) (boot p) ops).snd = some c →
      (c.micMute = true ↔ (Run.exec (step p) (boot p) ops).hw.mFmRadioEnabled = false) := by
  intro c hc
  have hboot : MicAccepted (boot p) ∧ Settled (boot p) := ⟨nofun, rfl⟩
  have hrun := (holds_in_runs (fun w => MicAccepted w ∧ Settled w) (fun w c hw =>
    ⟨micAccepted_call hx hok hw.1 c, settled_call hx hw.2 c⟩) hboot ops).last
  rw [hrun.1 c hc, hrun.2, micMute, mMicMute_of_userMuted ops hu]
  cases (Run.exec (step p) (boot p) ops).hw.mFmRadioEnabled <;> simp

/-- A muted call that moves to the headset stays muted. -/
theorem headset_call_muted :
    (lastAccepted (Run.exec (step acceptAll) (boot acceptAll)
      [.openOutputStream deviceOutSpeaker ⟨none, none, none⟩, .setMicMute false, .setMode modeInCall,
        .setMicMute true, .outSetParameters ⟨9, [("routing", "4")]⟩]).snd).map RouteConfig.micMute =
      some true := by
  have hc : lastAccepted (Run.exec (step acceptAll) (boot acceptAll)
      [.openOutputStream deviceOutSpeaker ⟨none, none, none⟩, .setMicMute false, .setMode modeInCall,
        .setMicMute true, .outSetParameters ⟨9, [("routing", "4")]⟩]).snd = some ⟨2, false, true⟩ := by
    decide
  have hmute := (mic_muted_iff_fm_off acceptAll stock_allExist (fun _ => rfl) _ rfl _ hc).mpr (by decide)
  rw [hc]
  exact congrArg some hmute

/-- Radio on in a call that the user has muted. -/
theorem fm_unmutes_call :
    ¬ ((Run.exec (step acceptAll) (boot acceptAll) [.setMode modeInCall, .setMicMute false,
          .setMicMute true, .setParameters ⟨7, [("fm_on", "1")]⟩]).hw.mMode = modeInCall →
        userMuted [.setMode modeInCall, .setMicMute false, .setMicMute true,
          .setParameters ⟨7, [("fm_on", "1")]⟩] = true →
        ∀ c, lastAccepted (Run.exec (step acceptAll) (boot acceptAll) [.setMode modeInCall,
            .setMicMute false, .setMicMute true, .setParameters ⟨7, [("fm_on", "1")]⟩]).snd = some c →
          c.micMute = true) := by
  intro h
  have hfm := h (by decide) rfl ⟨11, false, false⟩ (by decide)
  exact absurd hfm (by decide)

end AudioMute
