import Mathlib.Tactic.Linarith
import Mathlib.Tactic.NormNum
import Y210.AudioCalls

/-!
# The volume of a text telephone

`setVoiceVolume` holds the volume of the TTY devices at level 1. It tells the device from
`mCurSndDevice`, which mode changes and recordings clear while the driver keeps its
route; the laws below say when the level is still held.
-/
namespace AudioTtyVolume

open AudioDrivers AudioHardware AudioStreams AudioRouting AudioCalls

variable {p : Platform}

/-- The driver's routed device is `TTY_HEADSET` or `TTY_VCO`. -/
def TtyRouted (p : Platform) (log : List SndCall) : Prop :=
  ∃ c ∈ routeConfig (p.dev .current) log, c.device = p.dev .ttyHeadset ∨ c.device = p.dev .ttyVco

/-- On a TTY device the `SND_SET_VOLUME` that `setVoiceVolume` issues carries level 1. -/
def Capped (p : Platform) (w : World) : Op → Prop
  | .setVoiceVolume v => TtyRouted p w.snd → ∀ method level accepted,
      (step p w (.setVoiceVolume v)).snd =
        .setVolume (p.dev .current) method level accepted :: w.snd → level = 1
  | _ => True

/-- On a TTY device the cached device has not been cleared, or the volume rounds to level 1. -/
def CacheKept (p : Platform) (w : World) : Op → Prop
  | .setVoiceVolume v => TtyRouted p w.snd → p.dev .current ≠ -1 →
      w.hw.mCurSndDevice ≠ -1 ∨ v ≤ 1 / 10
  | _ => True

/-! ## The cached device is the routed one -/

/-- The cached device, if there is one, is the device that the driver has routed. -/
def CacheRouted (p : Platform) (w : World) : Prop :=
  w.hw.mCurSndDevice ≠ -1 →
    ∃ c ∈ routeConfig (p.dev .current) w.snd, c.device = w.hw.mCurSndDevice

theorem cacheRouted_congr {w w' : World} (h : SameRoute p.dev w w') :
    CacheRouted p w' ↔ CacheRouted p w := by
  simp only [CacheRouted, h.mCurSndDevice, h.config]

theorem cacheRouted_cleared (w : World) : CacheRouted p (clearCurDevice w) :=
  fun h => absurd rfl h

/-- A change of the mutes keeps the device. -/
theorem cacheRouted_mute (hok : ∀ n, p.sndSetDeviceOk n = true) {w : World} (h : CacheRouted p w) :
    CacheRouted p (doAudioRouteOrMute p (p.dev .current) w).1 := by
  intro hn
  rw [route_hw] at hn ⊢
  obtain ⟨c, hc, hdev⟩ := h hn
  rw [route_snd]
  by_cases hcur : p.dev .current = -1
  · refine ⟨c, ?_, hdev⟩
    simpa only [do_route_audio_rpc, if_pos hcur] using hc
  · rw [routeConfig_rpc_current hok hcur]
    exact ⟨_, Option.mem_map_of_mem _ hc, hdev⟩

/-- A route that is sent is cached; without one the cache stays. -/
theorem cacheRouted_doRouting (hok : ∀ n, p.sndSetDeviceOk n = true) (hd : Distinct p.dev)
    (input : Option Devices) {w : World} (h : CacheRouted p w) :
    CacheRouted p (doRouting p input w).1 := by
  by_cases hs : Sends p input w
  · intro _
    rw [doRouting_of_sends hs, applyRoute_hw, applyRoute_snd, route_snd,
      routeConfig_rpc hok hs.2.1 (target_ne_current hd input w)]
    exact ⟨_, rfl, rfl⟩
  · rw [doRouting_of_not_sends hs]
    intro hn
    rw [selectMic_mCurSndDevice] at hn ⊢
    exact h hn

theorem cacheRouted_call (hok : ∀ n, p.sndSetDeviceOk n = true) (hd : Distinct p.dev) (w : World)
    (c : Call) (h : CacheRouted p w) : CacheRouted p (call p w c) := by
  by_cases hc : Quiet c
  · exact (cacheRouted_congr (quiet_sameRoute hc w)).mpr h
  · cases c with
    | setMode mode =>
      simp only [call, setMode]
      split
      · exact cacheRouted_cleared _
      · exact h
    | setMicMute state =>
      simp only [call, setMicMute, setMicMute_nosync]
      split
      · exact cacheRouted_mute hok h
      · exact h
    | doRouting input => exact cacheRouted_doRouting hok hd input h
    | reroute input => exact cacheRouted_doRouting hok hd input (cacheRouted_cleared w)
    | setFm on off =>
      obtain ⟨log, fd, hfm⟩ := switchFm_frame p on off w
      refine cacheRouted_doRouting hok hd none ?_
      rw [hfm]
      exact h
    | _ => exact absurd trivial hc

/-- One operation keeps the cache true. -/
theorem cacheRouted_step (hok : ∀ n, p.sndSetDeviceOk n = true) (hd : Distinct p.dev) (w : World)
    (op : Op) (h : CacheRouted p w) : CacheRouted p (step p w op) :=
  (step_reaches op w).preserves (CacheRouted p) (fun w c _ => cacheRouted_call hok hd w c) h

/-! ## The level that is sent -/

theorem floor_le_lrint (q : ℚ) : q.floor ≤ lrint q := by
  unfold lrint
  dsimp only
  split
  · exact le_rfl
  · split
    · omega
    · split <;> omega

/-- Halves round to even, so a half itself still rounds to zero. -/
theorem lrint_zero {q : ℚ} (h : 0 ≤ q) : lrint q = 0 ↔ q ≤ 1 / 2 := by
  have hfloor : 0 ≤ q.floor := Rat.le_floor_iff.mpr (by exact_mod_cast h)
  have hle := floor_le_lrint q
  by_cases hz : q.floor = 0
  · have hl : lrint q = if q < 1 / 2 then 0 else if 1 / 2 < q then 1 else 0 := by
      simp [lrint, hz]
    rw [hl]
    rcases lt_trichotomy q (1 / 2) with hq | hq | hq
    · simp only [if_pos hq, hq.le]
    · simp only [hq, lt_irrefl, if_false, le_refl]
    · simp only [if_neg hq.not_gt, if_pos hq, one_ne_zero, hq.not_ge]
  · have hq : (1 : ℚ) ≤ q := by
      have h₁ : (1 : ℤ) ≤ q.floor := by omega
      exact_mod_cast Rat.le_floor_iff.mp h₁
    refine iff_of_false (by omega) ?_
    linarith

theorem clampUnit_nonneg (v : ℚ) : 0 ≤ clampUnit v := by
  unfold clampUnit
  split
  · exact le_rfl
  · split
    · exact zero_le_one
    · linarith

theorem clampUnit_le {v b : ℚ} (hb : 0 ≤ b) (h : b < 1) : clampUnit v ≤ b ↔ v ≤ b := by
  unfold clampUnit
  split
  · exact iff_of_true hb (by linarith)
  · split
    · exact iff_of_false (by linarith) (by linarith)
    · exact Iff.rfl

/-- The lowest level is what a volume up to a tenth rounds to. -/
theorem lrint_low (v : ℚ) : (lrint (clampUnit v * 5) + 1).toNat = 1 ↔ v ≤ 1 / 10 := by
  have hpos : 0 ≤ clampUnit v * 5 := mul_nonneg (clampUnit_nonneg v) (by norm_num)
  have hfloor : 0 ≤ (clampUnit v * 5).floor := Rat.le_floor_iff.mpr (by exact_mod_cast hpos)
  have hle := floor_le_lrint (clampUnit v * 5)
  calc (lrint (clampUnit v * 5) + 1).toNat = 1 ↔ lrint (clampUnit v * 5) = 0 := by omega
    _ ↔ clampUnit v * 5 ≤ 1 / 2 := lrint_zero hpos
    _ ↔ clampUnit v ≤ 1 / 10 := by constructor <;> intro h <;> linarith
    _ ↔ v ≤ 1 / 10 := clampUnit_le (by norm_num) (by norm_num)

theorem setVoiceVolume_snd (v : ℚ) (w : World) (hc : p.dev .current ≠ -1) :
    (setVoiceVolume p v w).snd =
      .setVolume (p.dev .current) sndMethodVoice (voiceLevel p w.hw v)
        (p.sndSetVolumeOk w.snd.length) :: w.snd := by
  unfold setVoiceVolume set_volume_rpc sndSetVolume
  rw [if_neg hc]
  rcases Bool.eq_false_or_eq_true (p.sndSetVolumeOk w.snd.length) with hok | hok <;> simp [hok]

/-- On a TTY device the level is 1 exactly when the cache still names it or the volume is low. -/
theorem voiceLevel_tty {w : World} (h : CacheRouted p w) (ht : TtyRouted p w.snd) (v : ℚ) :
    voiceLevel p w.hw v = 1 ↔ w.hw.mCurSndDevice ≠ -1 ∨ v ≤ 1 / 10 := by
  by_cases hn : w.hw.mCurSndDevice = -1
  · simp only [voiceLevel, hn, ne_eq, not_true_eq_false, false_and, if_false, false_or]
    exact lrint_low v
  · obtain ⟨c, hc, hdev⟩ := h hn
    obtain ⟨c', hc', htty⟩ := ht
    obtain rfl : c = c' := Option.mem_unique hc hc'
    rw [hdev] at htty
    refine iff_of_true ?_ (.inl hn)
    rw [voiceLevel, if_pos ⟨hn, htty⟩]

/-- One operation. -/
theorem capped_iff {w : World} (h : CacheRouted p w) (op : Op) :
    Capped p w op ↔ CacheKept p w op := by
  cases op with
  | setVoiceVolume v =>
    refine forall_congr' fun ht => ?_
    change (∀ method level accepted, (setVoiceVolume p v w).snd = _ → level = 1) ↔ _
    constructor
    · intro hl hc
      exact (voiceLevel_tty h ht v).mp (hl _ _ _ (setVoiceVolume_snd v w hc))
    · intro hk method level accepted hs
      have hc : p.dev .current ≠ -1 := by
        intro hc
        simp [setVoiceVolume, set_volume_rpc, hc] at hs
      rw [setVoiceVolume_snd v w hc] at hs
      simp only [List.cons.injEq, SndCall.setVolume.injEq, and_true, true_and] at hs
      rw [← hs.2.1]
      exact (voiceLevel_tty h ht v).mpr (hk hc)
  | _ => exact Iff.rfl

/-- In every run of operations from boot with a driver that takes every route, the volume
is held at level 1 on the TTY devices exactly when no voice volume above a tenth is set
between the clearing of the cached device and the next route. -/
theorem capped_iff_cacheKept (p : Platform) (hok : ∀ n, p.sndSetDeviceOk n = true)
    (hd : Distinct p.dev) (ops : List Op) :
    Run.AllSteps (step p) (Capped p) (boot p) ops ↔
      Run.AllSteps (step p) (CacheKept p) (boot p) ops :=
  Run.allSteps_iff_of_invariant (CacheRouted p) (cacheRouted_step hok hd)
    (fun _ op h => capped_iff h op) (fun h => absurd rfl h) ops

theorem tty_call_capped : Run.AllSteps (step acceptAll) (Capped acceptAll) (boot acceptAll)
    [.openOutputStream deviceOutWiredHeadset ⟨none, none, none⟩, .setMode modeInCall,
      .setParameters ⟨13, [("tty_mode", "full")]⟩, .setVoiceVolume 1] :=
  (capped_iff_cacheKept acceptAll (fun _ => rfl) stock_distinct _).mpr
    ⟨trivial, trivial, trivial, fun _ _ => .inl (by decide +kernel), trivial⟩

/-- A call over a text telephone in full mode ends; the next volume is sent at level 6 to
the device that is still routed. -/
theorem level_after_call : ¬ Run.AllSteps (step acceptAll) (Capped acceptAll) (boot acceptAll)
    [.openOutputStream deviceOutWiredHeadset ⟨none, none, none⟩, .setMode modeInCall,
      .setParameters ⟨13, [("tty_mode", "full")]⟩, .setMode 0, .setVoiceVolume 1] := by
  intro h
  have hcap := h.2.2.2.2.1 ⟨⟨5, false, true⟩, by decide +kernel, by decide +kernel⟩ sndMethodVoice 6 true
  exact absurd (hcap (by decide +kernel)) (by decide)

end AudioTtyVolume
