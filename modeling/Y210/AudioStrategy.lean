import Y210.AudioPolicy

/-!
# AudioPolicyManager: the device of a strategy

`getDeviceForStrategy` as `BoardConfig.mk` builds it, with `HAVE_FM_RADIO` and `WITH_A2DP`.
Every rule takes the first connected device of a priority list; media adds the FM bits and,
in a call, asks for the phone device without saying that the cache will not do.
-/
namespace AudioPolicy

open AudioDrivers

def deviceOutEarpiece : Devices := 0x1
def deviceOutBluetoothA2dp : Devices := 0x80
def deviceOutBluetoothA2dpHeadphones : Devices := 0x100
def deviceOutBluetoothA2dpSpeaker : Devices := 0x200
def deviceOutAuxDigital : Devices := 0x400
def deviceOutFm : Devices := 0x800
def deviceOutFmSpeaker : Devices := 0x1000
def deviceOutFmAll : Devices := deviceOutFm ||| deviceOutFmSpeaker

def modeRingtone : Int := 1

/-- `AudioPolicyManagerBase::routing_strategy`. -/
inductive RoutingStrategy where
  | media | phone | sonification | mediaSonification | dtmf | numStrategies
  deriving DecidableEq, Repr

/-- The members that `getDeviceForStrategy` reads; of `mForceUse` the entries for
communication and for media. -/
structure Manager where
  mAvailableOutputDevices : Devices
  forCommunication : ForcedConfig
  forMedia : ForcedConfig
  mPhoneState : Int
  mA2dpOutput : Int
  mDeviceForStrategy : RoutingStrategy → Devices

/-- A chain of `device = mAvailableOutputDevices & bit; if (device) break;`. -/
def firstConnected (available : Devices) : List Devices → Devices
  | [] => 0
  | bit :: bits =>
    if available &&& bit = 0 then firstConnected available bits else available &&& bit

/-- The `default` case of the phone rules, `FORCE_NONE`. -/
def defaultPhonePriority (m : Manager) : List Devices :=
  [deviceOutWiredHeadphone, deviceOutWiredHeadset] ++
    (if m.mPhoneState ≠ modeInCall then
      [deviceOutBluetoothA2dp, deviceOutBluetoothA2dpHeadphones] else []) ++
    (if m.mPhoneState = modeRingtone then [deviceOutSpeaker] else []) ++
    [deviceOutEarpiece]

/-- The car kit is no device for DTMF tones in a call. -/
def carkit (m : Manager) (strategy : RoutingStrategy) : List Devices :=
  if m.mPhoneState ≠ modeInCall ∨ strategy ≠ .dtmf then [deviceOutBluetoothScoCarkit] else []

/-- The devices of `STRATEGY_PHONE` and, in a call, `STRATEGY_DTMF`, in their order. -/
def phonePriority (m : Manager) (strategy : RoutingStrategy) : List Devices :=
  match m.forCommunication with
  | .btSco =>
    carkit m strategy ++ [deviceOutBluetoothScoHeadset, deviceOutBluetoothSco] ++
      defaultPhonePriority m
  | .speaker =>
    carkit m strategy ++
      (if m.mPhoneState ≠ modeInCall then [deviceOutBluetoothA2dpSpeaker] else []) ++
      [deviceOutSpeaker]
  | _ => defaultPhonePriority m

/-- The devices of `STRATEGY_MEDIA` in their order. -/
def mediaPriority (m : Manager) : List Devices :=
  (if m.forMedia = .speaker then [deviceOutSpeaker] else []) ++ [deviceOutAuxDigital] ++
    (if m.mA2dpOutput ≠ 0 then
      [deviceOutBluetoothA2dp, deviceOutBluetoothA2dpHeadphones, deviceOutBluetoothA2dpSpeaker]
    else []) ++
    [deviceOutWiredHeadphone, deviceOutWiredHeadset, deviceOutSpeaker, deviceOutEarpiece]

def phoneDevice (m : Manager) (strategy : RoutingStrategy) : Devices :=
  firstConnected m.mAvailableOutputDevices (phonePriority m strategy)

/-- The media device with the FM bits, before the check on calls. -/
def mediaDevice (m : Manager) : Devices :=
  let device := firstConnected m.mAvailableOutputDevices (mediaPriority m)
  if m.mAvailableOutputDevices &&& deviceOutFmAll ≠ 0 then device ||| deviceOutFmAll else device

section
variable (isA2dpDevice : Devices → Bool)

/-- The end of `case STRATEGY_MEDIA`: `getDeviceForStrategy(STRATEGY_PHONE)` has
`fromCache = true`. -/
def mediaOutsideCalls (m : Manager) : Devices :=
  if m.mPhoneState = modeInCall ∧ isA2dpDevice (mediaDevice m) = false ∧
      mediaDevice m ≠ m.mDeviceForStrategy .phone then 0
  else mediaDevice m

/-- `AudioPolicyManager::getDeviceForStrategy`. -/
def getDeviceForStrategy (m : Manager) (strategy : RoutingStrategy) (fromCache : Bool) : Devices :=
  if fromCache then m.mDeviceForStrategy strategy
  else match strategy with
    | .dtmf =>
      if m.mPhoneState ≠ modeInCall then mediaOutsideCalls isA2dpDevice m else phoneDevice m .dtmf
    | .phone => phoneDevice m .phone
    | .sonification =>
      if m.mPhoneState = modeInCall then phoneDevice m .phone
      else m.mAvailableOutputDevices &&& deviceOutSpeaker
    | .mediaSonification =>
      if m.mPhoneState = modeInCall then phoneDevice m .phone else mediaOutsideCalls isA2dpDevice m
    | .media => mediaOutsideCalls isA2dpDevice m
    | .numStrategies => 0

end

/-! ## Sets of devices -/

/-- Every device of `d` is one of `e`. -/
def Within (d e : Devices) : Prop := d &&& e = d

def AtMostOne (d : Devices) : Prop :=
  ∀ i j : Nat, d.getLsbD i = true → d.getLsbD j = true → i = j

instance (d e : Devices) : Decidable (Within d e) := inferInstanceAs (Decidable (_ = _))

theorem within_iff {d e : Devices} :
    Within d e ↔ ∀ i : Nat, d.getLsbD i = true → e.getLsbD i = true := by
  constructor
  · intro h i hi
    have hd : (d &&& e).getLsbD i = true := by rw [h, hi]
    rw [BitVec.getLsbD_and, Bool.and_eq_true] at hd
    exact hd.2
  · intro h
    apply BitVec.eq_of_getLsbD_eq
    intro i _
    rw [BitVec.getLsbD_and]
    cases hd : d.getLsbD i with
    | false => rfl
    | true => rw [h i hd]; rfl

theorem within_zero (e : Devices) : Within 0 e := BitVec.zero_and

theorem within_and (d e : Devices) : Within (d &&& e) d := by
  rw [within_iff]
  intro i hi
  rw [BitVec.getLsbD_and, Bool.and_eq_true] at hi
  exact hi.1

theorem Within.or {d e a : Devices} (hd : Within d a) (he : Within e a) : Within (d ||| e) a := by
  rw [within_iff] at *
  intro i hi
  rw [BitVec.getLsbD_or, Bool.or_eq_true] at hi
  exact hi.elim (hd i) (he i)

theorem Within.of_or {d e a : Devices} (h : Within (d ||| e) a) : Within e a := by
  rw [within_iff] at *
  intro i hi
  apply h i
  rw [BitVec.getLsbD_or, hi, Bool.or_true]

theorem AtMostOne.within {d e : Devices} (he : AtMostOne e) (h : Within d e) : AtMostOne d := by
  rw [within_iff] at h
  intro i j hi hj
  exact he i j (h i hi) (h j hj)

theorem atMostOne_twoPow (k : Nat) : AtMostOne (BitVec.twoPow 32 k) := by
  intro i j hi hj
  simp only [BitVec.getLsbD_twoPow, Bool.and_eq_true, decide_eq_true_eq] at hi hj
  omega

theorem atMostOne_zero : AtMostOne 0 := by
  intro i _ hi
  simp at hi

/-- A mask of one device. -/
def IsBit (bit : Devices) : Prop := ∃ k, bit = BitVec.twoPow 32 k

theorem firstConnected_within (available : Devices) (bits : List Devices) :
    Within (firstConnected available bits) available := by
  induction bits with
  | nil => exact within_zero available
  | cons bit bits ih =>
    simp only [firstConnected]
    split
    · exact ih
    · exact within_and available bit

theorem firstConnected_atMostOne (available : Devices) {bits : List Devices}
    (h : ∀ bit ∈ bits, IsBit bit) : AtMostOne (firstConnected available bits) := by
  induction bits with
  | nil => exact atMostOne_zero
  | cons bit bits ih =>
    simp only [firstConnected]
    split
    · exact ih fun b hb => h b (List.mem_cons_of_mem bit hb)
    · obtain ⟨k, hk⟩ := h bit List.mem_cons_self
      rw [hk, BitVec.and_comm]
      exact (atMostOne_twoPow k).within (within_and _ _)

/-! ## What the rules choose from -/

section
variable (m : Manager)

theorem isBit_wired : ∀ bit ∈ [deviceOutWiredHeadphone, deviceOutWiredHeadset], IsBit bit := by
  rw [List.forall_mem_cons, List.forall_mem_singleton]
  exact ⟨⟨3, rfl⟩, ⟨2, rfl⟩⟩

theorem isBit_speaker : IsBit deviceOutSpeaker := ⟨1, rfl⟩

theorem isBit_earpiece : IsBit deviceOutEarpiece := ⟨0, rfl⟩

theorem isBit_a2dp : ∀ bit ∈ [deviceOutBluetoothA2dp, deviceOutBluetoothA2dpHeadphones],
    IsBit bit := by
  rw [List.forall_mem_cons, List.forall_mem_singleton]
  exact ⟨⟨7, rfl⟩, ⟨8, rfl⟩⟩

theorem isBit_a2dpSpeaker : IsBit deviceOutBluetoothA2dpSpeaker := ⟨9, rfl⟩

theorem isBit_sco : ∀ bit ∈ [deviceOutBluetoothScoHeadset, deviceOutBluetoothSco], IsBit bit := by
  rw [List.forall_mem_cons, List.forall_mem_singleton]
  exact ⟨⟨5, rfl⟩, ⟨4, rfl⟩⟩

/-- A device list that stands under an `if` of the source. -/
theorem isBit_ite {c : Prop} [Decidable c] {bits : List Devices} (h : ∀ bit ∈ bits, IsBit bit) :
    ∀ bit ∈ (if c then bits else []), IsBit bit := by
  split
  · exact h
  · intro bit hb
    cases hb

theorem isBit_singleton {bit : Devices} (h : IsBit bit) : ∀ b ∈ [bit], IsBit b := by
  rw [List.forall_mem_singleton]
  exact h

theorem carkit_isBit (strategy : RoutingStrategy) : ∀ bit ∈ carkit m strategy, IsBit bit :=
  isBit_ite (isBit_singleton ⟨6, rfl⟩)

theorem defaultPhonePriority_isBit : ∀ bit ∈ defaultPhonePriority m, IsBit bit := by
  unfold defaultPhonePriority
  rw [List.forall_mem_append, List.forall_mem_append, List.forall_mem_append]
  exact ⟨⟨⟨isBit_wired, isBit_ite isBit_a2dp⟩, isBit_ite (isBit_singleton isBit_speaker)⟩,
    isBit_singleton isBit_earpiece⟩

theorem phonePriority_isBit (strategy : RoutingStrategy) :
    ∀ bit ∈ phonePriority m strategy, IsBit bit := by
  unfold phonePriority
  cases m.forCommunication with
  | btSco =>
    rw [List.forall_mem_append, List.forall_mem_append]
    exact ⟨⟨carkit_isBit m strategy, isBit_sco⟩, defaultPhonePriority_isBit m⟩
  | speaker =>
    rw [List.forall_mem_append, List.forall_mem_append]
    exact ⟨⟨carkit_isBit m strategy, isBit_ite (isBit_singleton isBit_a2dpSpeaker)⟩,
      isBit_singleton isBit_speaker⟩
  | none => exact defaultPhonePriority_isBit m
  | headphones => exact defaultPhonePriority_isBit m
  | btA2dp => exact defaultPhonePriority_isBit m
  | wiredAccessory => exact defaultPhonePriority_isBit m
  | btCarDock => exact defaultPhonePriority_isBit m
  | btDeskDock => exact defaultPhonePriority_isBit m

theorem mediaPriority_isBit : ∀ bit ∈ mediaPriority m, IsBit bit := by
  have hspeakers : ∀ bit ∈ [deviceOutSpeaker, deviceOutEarpiece], IsBit bit := by
    rw [List.forall_mem_cons, List.forall_mem_singleton]
    exact ⟨isBit_speaker, isBit_earpiece⟩
  have ha2dp := List.forall_mem_append.mpr ⟨isBit_a2dp, isBit_singleton isBit_a2dpSpeaker⟩
  have hlast := List.forall_mem_append.mpr ⟨isBit_wired, hspeakers⟩
  unfold mediaPriority
  rw [List.forall_mem_append, List.forall_mem_append, List.forall_mem_append]
  exact ⟨⟨⟨isBit_ite (isBit_singleton isBit_speaker), isBit_singleton ⟨10, rfl⟩⟩,
    isBit_ite ha2dp⟩, hlast⟩

/-- Media stays within the connected devices as long as the FM bits do. -/
theorem mediaDevice_within_iff : Within (mediaDevice m) m.mAvailableOutputDevices ↔
    m.mAvailableOutputDevices &&& deviceOutFmAll = 0 ∨
      Within deviceOutFmAll m.mAvailableOutputDevices := by
  have hd := firstConnected_within m.mAvailableOutputDevices (mediaPriority m)
  unfold mediaDevice
  by_cases h : m.mAvailableOutputDevices &&& deviceOutFmAll = 0
  · rw [if_neg (not_not.mpr h)]
    exact iff_of_true hd (.inl h)
  · rw [if_pos h, or_iff_right h]
    exact ⟨Within.of_or, hd.or⟩

theorem mediaDevice_atMostOne : AtMostOne (mediaDevice m &&& ~~~deviceOutFmAll) := by
  apply (firstConnected_atMostOne m.mAvailableOutputDevices (mediaPriority_isBit m)).within
  rw [within_iff]
  intro i hi
  unfold mediaDevice at hi
  rw [BitVec.getLsbD_and, Bool.and_eq_true] at hi
  obtain ⟨hm, hn⟩ := hi
  split at hm
  · rw [BitVec.getLsbD_not, Bool.and_eq_true] at hn
    rw [BitVec.getLsbD_or, Bool.or_eq_true] at hm
    exact hm.resolve_right fun hf => by simp [hf] at hn
  · exact hm

end

section
variable (isA2dpDevice : Devices → Bool) (m : Manager)

/-- When the answer for a strategy is the media device: outside calls for the three strategies
that follow the media rules, in a call for media itself on A2DP or on the cached phone device. -/
def PlaysMedia : RoutingStrategy → Prop
  | .media => m.mPhoneState = modeInCall →
      isA2dpDevice (mediaDevice m) = true ∨ mediaDevice m = m.mDeviceForStrategy .phone
  | .mediaSonification | .dtmf => m.mPhoneState ≠ modeInCall
  | .phone | .sonification | .numStrategies => False

theorem mediaOutsideCalls_eq :
    (PlaysMedia isA2dpDevice m .media ∧ mediaOutsideCalls isA2dpDevice m = mediaDevice m) ∨
      (¬ PlaysMedia isA2dpDevice m .media ∧ mediaOutsideCalls isA2dpDevice m = 0) := by
  unfold mediaOutsideCalls
  split
  · rename_i h
    obtain ⟨hc, ha, hp⟩ := h
    exact .inr ⟨fun hm => (hm hc).elim (fun ht => by simp [ha] at ht) hp, rfl⟩
  · rename_i h
    refine .inl ⟨fun hc => ?_, rfl⟩
    by_contra hn
    rw [not_or] at hn
    exact h ⟨hc, Bool.eq_false_iff.mpr hn.1, hn.2⟩

theorem mediaOutsideCalls_off (h : m.mPhoneState ≠ modeInCall) :
    mediaOutsideCalls isA2dpDevice m = mediaDevice m := by
  unfold mediaOutsideCalls
  rw [if_neg fun hc => h hc.1]

/-- The answer is the media device, or the first connected one of a list. -/
theorem getDeviceForStrategy_cases (strategy : RoutingStrategy) :
    (PlaysMedia isA2dpDevice m strategy ∧
      getDeviceForStrategy isA2dpDevice m strategy false = mediaDevice m) ∨
    (¬ PlaysMedia isA2dpDevice m strategy ∧ ∃ bits, (∀ bit ∈ bits, IsBit bit) ∧
      getDeviceForStrategy isA2dpDevice m strategy false =
        firstConnected m.mAvailableOutputDevices bits) := by
  have hphone (s : RoutingStrategy) : ∃ bits, (∀ bit ∈ bits, IsBit bit) ∧
      phoneDevice m s = firstConnected m.mAvailableOutputDevices bits :=
    ⟨phonePriority m s, phonePriority_isBit m s, rfl⟩
  have hnone : ∀ bit ∈ ([] : List Devices), IsBit bit := by
    intro bit hb
    cases hb
  by_cases hc : m.mPhoneState = modeInCall
  · have hoff : ¬ (m.mPhoneState ≠ modeInCall) := not_not.mpr hc
    cases strategy with
    | media =>
      rcases mediaOutsideCalls_eq isA2dpDevice m with ⟨hp, he⟩ | ⟨hp, he⟩
      · exact .inl ⟨hp, he⟩
      · exact .inr ⟨hp, [], hnone, he⟩
    | phone => exact .inr ⟨not_false, hphone .phone⟩
    | numStrategies => exact .inr ⟨not_false, [], hnone, rfl⟩
    | sonification =>
      refine .inr ⟨not_false, ?_⟩
      simp only [getDeviceForStrategy, Bool.false_eq_true, if_false, if_pos hc]
      exact hphone .phone
    | mediaSonification =>
      refine .inr ⟨hoff, ?_⟩
      simp only [getDeviceForStrategy, Bool.false_eq_true, if_false, if_pos hc]
      exact hphone .phone
    | dtmf =>
      refine .inr ⟨hoff, ?_⟩
      simp only [getDeviceForStrategy, Bool.false_eq_true, if_false, if_neg hoff]
      exact hphone .dtmf
  · have hmedia := mediaOutsideCalls_off isA2dpDevice m hc
    cases strategy with
    | media => exact .inl ⟨fun h => absurd h hc, hmedia⟩
    | phone => exact .inr ⟨not_false, hphone .phone⟩
    | numStrategies => exact .inr ⟨not_false, [], hnone, rfl⟩
    | sonification =>
      refine .inr ⟨not_false, [deviceOutSpeaker], isBit_singleton isBit_speaker, ?_⟩
      simp only [getDeviceForStrategy, Bool.false_eq_true, if_false, if_neg hc, firstConnected]
      split
      · assumption
      · rfl
    | mediaSonification =>
      refine .inl ⟨hc, ?_⟩
      simp only [getDeviceForStrategy, Bool.false_eq_true, if_false, if_neg hc]
      exact hmedia
    | dtmf =>
      refine .inl ⟨hc, ?_⟩
      simp only [getDeviceForStrategy, Bool.false_eq_true, if_false, if_pos (show
        m.mPhoneState ≠ modeInCall from hc)]
      exact hmedia

/-- Only connected devices, and one of them besides the FM bits. -/
def SelectsConnected (d : Devices) : Prop :=
  Within d m.mAvailableOutputDevices ∧ AtMostOne (d &&& ~~~deviceOutFmAll)

/-- `device |= DEVICE_OUT_FM_ALL` names both FM devices when one of them is connected. -/
theorem getDeviceForStrategy_selectsConnected_iff (strategy : RoutingStrategy) :
    SelectsConnected m (getDeviceForStrategy isA2dpDevice m strategy false) ↔
      m.mAvailableOutputDevices &&& deviceOutFmAll = 0 ∨
        Within deviceOutFmAll m.mAvailableOutputDevices ∨
        ¬ PlaysMedia isA2dpDevice m strategy := by
  rcases getDeviceForStrategy_cases isA2dpDevice m strategy with ⟨hp, he⟩ | ⟨hp, bits, hb, he⟩
  · rw [he, SelectsConnected, mediaDevice_within_iff, and_iff_left (mediaDevice_atMostOne m)]
    exact or_congr_right (or_iff_left (not_not.mpr hp)).symm
  · refine iff_of_true ?_ (.inr (.inr hp))
    rw [he]
    exact ⟨firstConnected_within _ bits,
      (firstConnected_atMostOne _ hb).within (within_and _ _)⟩

/-- One A2DP device, as `AudioSystem::isA2dpDevice` has it. -/
def isOneA2dp (d : Devices) : Bool :=
  d = deviceOutBluetoothA2dp || d = deviceOutBluetoothA2dpHeadphones ||
    d = deviceOutBluetoothA2dpSpeaker

/-- The radio with a headset: earpiece, speaker, headset and `DEVICE_OUT_FM` connected. -/
def radioOn : Manager where
  mAvailableOutputDevices := 0x807
  forCommunication := .none
  forMedia := .none
  mPhoneState := modeNormal
  mA2dpOutput := 0
  mDeviceForStrategy _ := 0

theorem radioOn_selects_fmSpeaker :
    getDeviceForStrategy isOneA2dp radioOn .media false = 0x1804 ∧
      ¬ SelectsConnected radioOn (getDeviceForStrategy isOneA2dp radioOn .media false) := by
  refine ⟨by decide, fun h => ?_⟩
  exact absurd h.1 (by decide)

/-- What media may use in a call: nothing, A2DP, or the route of the call. -/
def KeepsCallRoute (d : Devices) : Prop :=
  d = 0 ∨ isA2dpDevice d = true ∨ d = getDeviceForStrategy isA2dpDevice m .phone false

/-- In a call media is held against the cached phone device, so a stale entry lets through
the one media device that it equals. -/
theorem media_keepsCallRoute_iff (h : m.mPhoneState = modeInCall) :
    KeepsCallRoute isA2dpDevice m (getDeviceForStrategy isA2dpDevice m .media false) ↔
      m.mDeviceForStrategy .phone = phoneDevice m .phone ∨
        m.mDeviceForStrategy .phone ≠ mediaDevice m ∨
        mediaDevice m = 0 ∨ isA2dpDevice (mediaDevice m) = true := by
  have hphone : getDeviceForStrategy isA2dpDevice m .phone false = phoneDevice m .phone := rfl
  have hmedia : getDeviceForStrategy isA2dpDevice m .media false =
      mediaOutsideCalls isA2dpDevice m := rfl
  rw [hmedia, KeepsCallRoute, hphone]
  rcases mediaOutsideCalls_eq isA2dpDevice m with ⟨hp, he⟩ | ⟨hp, he⟩
  · rw [he]
    rcases hp h with ha | hc
    · exact iff_of_true (.inr (.inl ha)) (.inr (.inr (.inr ha)))
    · rw [← hc]
      constructor
      · rintro (h0 | ha | hm)
        · exact .inr (.inr (.inl h0))
        · exact .inr (.inr (.inr ha))
        · exact .inl hm
      · rintro (hm | hn | h0 | ha)
        · exact .inr (.inr hm)
        · exact absurd rfl hn
        · exact .inl h0
        · exact .inr (.inl ha)
  · rw [he]
    exact iff_of_true (.inl rfl) (.inr (.inl fun hc => hp fun _ => .inr hc.symm))

end

/-- A call moved from the headset to the speaker, with the headset still in the cache. -/
def movedToSpeaker : Manager where
  mAvailableOutputDevices := 0x7
  forCommunication := .speaker
  forMedia := .none
  mPhoneState := modeInCall
  mA2dpOutput := 0
  mDeviceForStrategy _ := deviceOutWiredHeadset

theorem movedToSpeaker_media_on_headset :
    getDeviceForStrategy isOneA2dp movedToSpeaker .phone false = deviceOutSpeaker ∧
      ¬ KeepsCallRoute isOneA2dp movedToSpeaker
        (getDeviceForStrategy isOneA2dp movedToSpeaker .media false) := by
  refine ⟨by decide, ?_⟩
  rintro (h | h | h)
  · exact absurd h (by decide)
  · exact absurd h (by decide)
  · exact absurd h (by decide)

theorem movedToSpeaker_keepsCallRoute_iff :
    KeepsCallRoute isOneA2dp movedToSpeaker
        (getDeviceForStrategy isOneA2dp movedToSpeaker .media false) ↔
      movedToSpeaker.mDeviceForStrategy .phone = phoneDevice movedToSpeaker .phone ∨
        movedToSpeaker.mDeviceForStrategy .phone ≠ mediaDevice movedToSpeaker ∨
        mediaDevice movedToSpeaker = 0 ∨ isOneA2dp (mediaDevice movedToSpeaker) = true :=
  media_keepsCallRoute_iff isOneA2dp movedToSpeaker rfl

end AudioPolicy
