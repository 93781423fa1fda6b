import Y210.AudioCalls

/-!
# The pins shared by BT and FM

The pins are switched on an edge of `mCurSndDevice`, which other operations clear. The
laws below say for which routes the pins end up on the side of the routed device.
-/
namespace AudioPins

open AudioDrivers AudioHardware AudioStreams AudioRouting AudioCalls

variable {p : Platform}

/-- The FM endpoints differ from all others. -/
def FmApart (dev : SndDevices) : Prop :=
  ∀ e e' : Endpoint, e.isFm = true → e'.isFm = false → dev e ≠ dev e'

theorem stock_fmApart : FmApart stockDevices := fun e e' he he' h => by
  rw [stock_distinct h, he'] at he
  cases he

/-- Every transfer on the bus succeeds. -/
def BusWorks (p : Platform) : Prop := (∀ n, p.i2cOpenOk n = true) ∧ ∀ n, p.i2cOk n = true

/-- The pins as `run_btfm_pin_switch` writes them for a mode. -/
def PinsAre (mode : PinMode) (b : I2cBus) : Prop := ∀ w ∈ pinWrites mode, b.regs w.1 = w.2

instance (mode : PinMode) (b : I2cBus) : Decidable (PinsAre mode b) :=
  List.decidableBAll _ (pinWrites mode)

/-- After a route that was sent, the pins are in FM mode exactly when the route goes to
an FM endpoint. -/
def PinsFollow (p : Platform) (w : World) (c : Call) : Prop :=
  ∀ r ∈ routing p w c, Sends p r.2 r.1 →
    (PinsAre .fm (call p w c).i2c ↔ is_fm_snd_device p.dev (target p r.2 r.1).1 = true)

/-- A route to another device while the pins are in FM mode, with the radio still on or
the FM device no longer cached: the pins are not given back. -/
def LeavesFm (p : Platform) (input : Option Devices) (v : World) : Prop :=
  is_fm_snd_device p.dev (target p input v).1 = false ∧ PinsAre .fm v.i2c ∧
    ¬ (v.hw.mFmRadioEnabled = false ∧ is_fm_snd_device p.dev v.hw.mCurSndDevice = true)

/-- A route to the FM device that is still cached, after the pins were given back. -/
def KeepsBt (p : Platform) (input : Option Devices) (v : World) : Prop :=
  is_fm_snd_device p.dev (target p input v).1 = true ∧ PinsAre .btSco v.i2c ∧
    (target p input v).1 = v.hw.mCurSndDevice

/-- The calls whose route misses no switch of the pins. -/
def PinSafe (p : Platform) (w : World) (c : Call) : Prop :=
  ∀ r ∈ routing p w c, Sends p r.2 r.1 → ¬ LeavesFm p r.2 r.1 ∧ ¬ KeepsBt p r.2 r.1

instance (input : Option Devices) (v : World) : Decidable (LeavesFm p input v) :=
  inferInstanceAs (Decidable (_ ∧ _ ∧ ¬ (_ ∧ _)))

instance (input : Option Devices) (v : World) : Decidable (KeepsBt p input v) :=
  inferInstanceAs (Decidable (_ ∧ _ ∧ _))

instance (w : World) (c : Call) : Decidable (PinSafe p w c) :=
  Option.decidableForallMem (routing p w c)

/-! ## The switch -/

theorem pins_exclusive {b : I2cBus} (h : PinsAre .fm b) : ¬ PinsAre .btSco b := by
  intro h'
  have h₁ := h (0x88, 0x15) (by decide)
  have h₂ := h' (0x88, 0x40) (by decide)
  rw [h₁] at h₂
  exact absurd h₂ (by decide)

theorem pins_after_switch (hb : BusWorks p) (mode : PinMode) (b : I2cBus) :
    PinsAre mode (run_btfm_pin_switch p mode b) := by
  intro w hw
  rw [run_btfm_pin_switch, busWrite, if_pos (hb.1 _)]
  exact i2cWriteAll_of_mem hb.2 (by cases mode <;> decide) hw b.tried

/-- The codec registers are none of the pins. -/
theorem pins_after_path (hb : BusWorks p) {mode : PinMode} {b : I2cBus} (h : PinsAre mode b) :
    PinsAre mode (run_fm_audio_path_enable p b) := by
  intro w hw
  have hall : (pinWrites mode).all (fun w => w.1 ∉ fmAudioPathWrites.map Prod.fst) = true := by
    cases mode <;> decide
  have hout : w.1 ∉ fmAudioPathWrites.map Prod.fst := of_decide_eq_true (List.all_eq_true.mp hall w hw)
  rw [run_fm_audio_path_enable, busWrite, if_pos (hb.1 _), i2cWriteAll_of_notMem hb.2 hout]
  exact h w hw

/-! ## The FM endpoints -/

theorem is_fm_endpoint (h : FmApart p.dev) (e : Endpoint) :
    is_fm_snd_device p.dev (p.dev e) = e.isFm := by
  cases he : e.isFm with
  | true => cases e <;> simp [is_fm_snd_device, Endpoint.isFm] at he ⊢
  | false =>
    have hne : ∀ e', e'.isFm = true → p.dev e ≠ p.dev e' := fun e' hf hq => h e' e hf he hq.symm
    simp [is_fm_snd_device, hne .fmHeadset rfl, hne .fmSpeaker rfl, hne .fmAnalogHeadset rfl,
      hne .fmAnalogSpeaker rfl]

/-- With the radio off no route goes to an FM endpoint. -/
theorem target_not_fm (h : FmApart p.dev) {input : Option Devices} {v : World}
    (hf : v.hw.mFmRadioEnabled = false) : is_fm_snd_device p.dev (target p input v).1 = false := by
  obtain ⟨e, -, he, -, ht⟩ := newSndDevice_base (p := p) (selectMic v.hw input) v.headsetPostproc input
  have hne : e.isFm = false := by
    cases hq : e.isFm with
    | false => rfl
    | true => simpa [hf] using he hq
  rw [target, ht]
  rcases dualMicRoute_cases (p := p) (selectMic v.hw input) (p.dev e) with hd | ⟨-, hd⟩ | ⟨-, hd⟩ <;>
    rw [hd, is_fm_endpoint h]
  exacts [hne, rfl, rfl]

/-! ## What the calls do to the pins -/

/-- The pins are in one of the two modes. -/
def PinsKnown (w : World) : Prop := PinsAre .fm w.i2c ∨ PinsAre .btSco w.i2c

theorem not_fm_iff {w : World} (h : PinsKnown w) : ¬ PinsAre .fm w.i2c ↔ PinsAre .btSco w.i2c :=
  ⟨fun hn => h.resolve_left hn, fun hb hf => pins_exclusive hf hb⟩

/-- `doAudioRouteOrMute` switches the pins to a mode or leaves them alone. -/
theorem pinsKnown_route (hb : BusWorks p) (device : Int) {w : World} (h : PinsKnown w) :
    PinsKnown (doAudioRouteOrMute p device w).1 := by
  unfold PinsKnown
  rw [route_i2c]
  repeat' split
  · exact .inl (pins_after_path hb (pins_after_switch hb .fm _))
  · exact h
  · exact .inr (pins_after_switch hb .btSco _)
  · exact h

theorem pinsKnown_doRouting (hb : BusWorks p) (input : Option Devices) {w : World} (h : PinsKnown w) :
    PinsKnown (doRouting p input w).1 := by
  by_cases hs : Sends p input w
  · rw [doRouting_of_sends hs, PinsKnown, applyRoute_i2c]
    exact pinsKnown_route hb _ (w := { w with hw := selectMic w.hw input }) h
  · rw [doRouting_of_not_sends hs]
    exact h

theorem pinsKnown_call (hb : BusWorks p) (w : World) (c : Call) (h : PinsKnown w) :
    PinsKnown (call p w c) := by
  by_cases hq : Quiet c
  · rw [PinsKnown, (quiet_sameRoute (p := p) hq w).i2c]
    exact h
  · cases c with
    | setMicMute state =>
      simp only [call, setMicMute, setMicMute_nosync]
      split
      · exact pinsKnown_route hb _ (w := { w with hw := { w.hw with mMicMute := state } }) h
      · exact h
    | doRouting input => exact pinsKnown_doRouting hb input h
    | reroute input => exact pinsKnown_doRouting hb input (w := clearCurDevice w) h
    | setFm on off =>
      obtain ⟨log, fd, he⟩ := switchFm_frame p on off w
      refine pinsKnown_doRouting hb none ?_
      rw [he]
      exact h
    | setMode mode =>
      simp only [call, setMode]
      split <;> exact h
    | setSettings | setVoiceVolume | setFmVolume | openOutputStream | closeOutputStream
    | setOutDevices | write | outStandby | record | setProperty => exact absurd trivial hq

/-- A route that is sent ends with the pins on its side, unless it misses a switch. -/
theorem pins_of_sends (h : FmApart p.dev) (hb : BusWorks p) {input : Option Devices} {v : World}
    (hk : PinsKnown v) (hs : Sends p input v) :
    (PinsAre .fm (doRouting p input v).1.i2c ↔ is_fm_snd_device p.dev (target p input v).1 = true) ↔
      ¬ LeavesFm p input v ∧ ¬ KeepsBt p input v := by
  rw [doRouting_of_sends hs, applyRoute_i2c, route_i2c]
  simp only [selectMic_mFmRadioEnabled, selectMic_mCurSndDevice, LeavesFm, KeepsBt, ← not_fm_iff hk]
  have hsw := fun mode b => pins_after_switch hb mode b
  have hpath := fun b => pins_after_path hb (pins_after_switch hb .fm b)
  have hbt : ∀ b, ¬ PinsAre .fm (run_btfm_pin_switch p .btSco b) := fun b hf =>
    pins_exclusive hf (hsw .btSco b)
  cases hf : v.hw.mFmRadioEnabled with
  | true =>
    cases ht : is_fm_snd_device p.dev (target p input v).1 with
    | true => by_cases hc : (target p input v).1 = v.hw.mCurSndDevice <;> simp [hc, hpath]
    | false => simp
  | false =>
    rw [target_not_fm h hf]
    cases hc : is_fm_snd_device p.dev v.hw.mCurSndDevice <;> simp [hbt]

theorem pinsFollow_iff (h : FmApart p.dev) (hb : BusWorks p) {w : World} (hk : PinsKnown w) (c : Call) :
    PinsFollow p w c ↔ PinSafe p w c := by
  have hv : ∀ r ∈ routing p w c, PinsKnown r.1 := by
    intro r hr
    cases c with
    | doRouting i | reroute i =>
      obtain rfl := Option.some.inj hr
      exact hk
    | setFm on off =>
      obtain rfl := Option.some.inj hr
      obtain ⟨log, fd, he⟩ := switchFm_frame p on off w
      rw [PinsKnown, he]
      exact hk
    | _ => cases hr
  refine forall₂_congr fun r hr => forall_congr' fun hs => ?_
  rw [call_routing hr]
  exact pins_of_sends h hb (hv r hr) hs

theorem pinsKnown_boot : PinsKnown (boot p) := by
  have h : PinsAre .btSco ⟨btRegs, 0, 0⟩ := by decide
  exact .inr h

/-- In a run of calls, every route that is sent leaves the pins on the side of its device
exactly when no route of the run misses a switch. -/
theorem pinsFollow_iff_pinSafe (p : Platform) (h : FmApart p.dev) (hb : BusWorks p)
    (calls : List Call) : Run.AllSteps (call p) (PinsFollow p) (boot p) calls ↔
      Run.AllSteps (call p) (PinSafe p) (boot p) calls :=
  Run.allSteps_iff_of_invariant PinsKnown (pinsKnown_call hb) (fun _ c hk => pinsFollow_iff h hb hk c)
    pinsKnown_boot calls

/-- The radio is switched on and off again. -/
theorem pins_follow_the_radio : Run.AllSteps (call acceptAll) (PinsFollow acceptAll) (boot acceptAll)
    [.setFm true false, .setMicMute false, .setFm false true] :=
  (pinsFollow_iff_pinSafe acceptAll stock_fmApart ⟨fun _ => rfl, fun _ => rfl⟩ _).mpr (by decide)

/-- A recording from the built-in mic starts while the radio plays: the handset is routed
with the pins still in FM mode. -/
theorem recording_keeps_fm_pins : ¬ Run.AllSteps (call acceptAll) (PinsFollow acceptAll)
    (boot acceptAll) [.setFm true false, .reroute (some deviceInBuiltinMic)] := by
  rintro ⟨-, h, -⟩
  have hpins := h _ rfl (by decide)
  revert hpins
  decide

end AudioPins
