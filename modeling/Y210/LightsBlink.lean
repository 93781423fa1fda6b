import Y210.Lights

/-!
# The blink registers

A blinking state of the RGB variant is shown as a frequency and a duty cycle. The code takes their
sum, product and quotient in `int`.
-/
namespace LightsBlink

open Lights

/-! ## Over the integers -/

def onTime (state : LightState) : Int := state.flashOnMS.toInt
def offTime (state : LightState) : Int := state.flashOffMS.toInt
def total (state : LightState) : Int := onTime state + offTime state

def raised (q : Int) : Int := if 0 < q ∧ q < 16 then 16 else q

def exactFreq (state : LightState) : Int := total state / 50
def exactPwm (state : LightState) : Int := raised (255 * onTime state / total state)

/-- The registers hold the values of a state. -/
def Holds (state : LightState) (s : State) : Prop :=
  (contents s .redFreq).toInt = exactFreq state ∧ (contents s .redPwm).toInt = exactPwm state

/-- What the two registers are to hold for a blinking state: as a lit battery light, as a notification
without one, and wherever else the state is applied. -/
structure Conforms (d : Device) (state : LightState) : Prop where
  battery : is_lit state = true → ∀ s, Holds state (set_light_battery d state s)
  notification : ∀ s, is_lit s.g_battery = false → Holds state (set_light_notifications d state s)
  applied : ∀ s, Holds state (set_speaker_light_locked d state s)
  divisor : totalMS state ≠ 0
  range : 0 ≤ (pwm state).toInt ∧ (pwm state).toInt ≤ 255
  monotone : ∀ shorter, Blinking shorter → total shorter = total state → onTime shorter ≤ onTime state →
    (pwm shorter).toInt ≤ (pwm state).toInt

/-- No `int` overflows. The product may where the true quotient is at most 16 and the other one is
positive: both are raised to 16. -/
def Fits (state : LightState) : Prop :=
  total state < 2147483648 ∧ (255 * onTime state < 2147483648 ∨
    total state ≤ (255 * onTime state).bmod 4294967296 ∧ 255 * onTime state < 17 * total state)

theorem raised_mono {q q' : Int} (h : q ≤ q') : raised q ≤ raised q' := by
  unfold raised
  split <;> split <;> omega

theorem tdiv_nonpos {x t : Int} (ht : 0 < t) (hx : x < t) : x.tdiv t ≤ 0 := by
  have hzero : (t - 1).tdiv t = 0 := Int.tdiv_eq_zero_of_lt (by omega) (by omega)
  rw [← hzero]
  exact Int.tdiv_le_tdiv ht (by omega)

/-- A product that has wrapped around divides to less than it should. -/
theorem tdiv_lt_of_wrapped {a t : Int} (ht : 0 < t) (hlow : 2147483648 ≤ 255 * a) (htotal : t < 2147483648) :
    ((255 * a).bmod 4294967296).tdiv t < 255 * a / t := by
  have hpos : 1 ≤ 255 * a / t := Int.le_ediv_of_mul_le ht (by omega)
  by_cases hx : (255 * a).bmod 4294967296 < t
  · have hnonpos := tdiv_nonpos ht hx
    omega
  · have hwrapped : (255 * a).bmod 4294967296 ≤ 255 * a + -2 * t := by
      rw [Int.bmod_def]
      omega
    have hle := Int.tdiv_le_tdiv ht hwrapped
    rw [Int.tdiv_eq_ediv_of_nonneg (by omega : 0 ≤ 255 * a + -2 * t), Int.add_mul_ediv_right _ _ (by omega)] at hle
    omega

/-- However the product wraps around, the quotient is no greater than it should be. -/
theorem tdiv_bmod_le {a a' t : Int} (ht : 0 < t) (ha' : 0 ≤ a') (h : a' ≤ a) :
    ((255 * a').bmod 4294967296).tdiv t ≤ 255 * a / t := by
  have hle : (255 * a').bmod 4294967296 ≤ 255 * a := by
    rw [Int.bmod_def]
    omega
  rw [← Int.tdiv_eq_ediv_of_nonneg (by omega : 0 ≤ 255 * a)]
  exact Int.tdiv_le_tdiv ht hle

/-! ## In the code's arithmetic -/

theorem toInt_roundUp (value : Int32) : (roundUp value).toInt = raised value.toInt := by
  have hrange : 0 < value ∧ value < 16 ↔ 0 < value.toInt ∧ value.toInt < 16 :=
    and_congr Int32.lt_iff_toInt_lt Int32.lt_iff_toInt_lt
  unfold roundUp raised
  by_cases h : 0 < value ∧ value < 16
  · rw [if_pos h, if_pos (hrange.mp h)]
    rfl
  · rw [if_neg h, if_neg fun hr => h (hrange.mpr hr)]

section
variable {state : LightState}

theorem onMS_of_blinking (hb : Blinking state) : onMS state = state.flashOnMS := if_pos hb.1

theorem offMS_of_blinking (hb : Blinking state) : offMS state = state.flashOffMS := if_pos hb.1

theorem times (hb : Blinking state) : 0 < onTime state ∧ onTime state < total state := by
  have hon := toInt_pos hb.2.1
  have hoff := toInt_pos hb.2.2
  unfold total onTime offTime
  omega

/-- The sum, or what is left of it. -/
theorem totalMS_cases (hb : Blinking state) :
    total state < 2147483648 ∧ (totalMS state).toInt = total state ∨
      2147483648 ≤ total state ∧ (totalMS state).toInt < 0 := by
  have hsum := toInt_add_pos hb.2.1 hb.2.2
  have hlow := (state.flashOnMS + state.flashOffMS).le_toInt
  have hhigh := (state.flashOnMS + state.flashOffMS).toInt_lt
  unfold totalMS total onTime offTime
  rw [onMS_of_blinking hb, offMS_of_blinking hb]
  omega

theorem freq_toInt (hb : Blinking state) : (freq state).toInt = (totalMS state).toInt.tdiv 50 := by
  rw [freq, if_pos ((blink_iff state).mpr hb), Int32.toInt_div_of_ne_right _ _ (by decide)]
  rfl

theorem pwm_toInt (hb : Blinking state) : (pwm state).toInt =
    raised (((255 * onTime state).bmod 4294967296).tdiv (totalMS state).toInt) := by
  have hblink := (blink_iff state).mpr hb
  have h255 : (255 : Int32).toInt = 255 := rfl
  rw [pwm, if_pos hblink, toInt_roundUp, Int32.toInt_div_of_ne_right _ _ (totalMS_ne hblink).2, Int32.toInt_mul,
    onMS_of_blinking hb, h255, Int.mul_comm]
  rfl

/-! ## The registers -/

theorem freq_exact_iff (hb : Blinking state) : (freq state).toInt = exactFreq state ↔ total state < 2147483648 := by
  have htimes := times hb
  rw [freq_toInt hb, exactFreq]
  rcases totalMS_cases hb with ⟨hlt, htotal⟩ | ⟨hge, hneg⟩
  · rw [htotal, Int.tdiv_eq_ediv_of_nonneg (by omega)]
    exact iff_of_true rfl hlt
  · have hnonpos : (totalMS state).toInt.tdiv 50 ≤ 0 := tdiv_nonpos (by decide) (by omega)
    exact iff_of_false (by omega) (by omega)

theorem pwm_exact_iff (hb : Blinking state) (htotal : total state < 2147483648) :
    (pwm state).toInt = exactPwm state ↔ 255 * onTime state < 2147483648 ∨
      total state ≤ (255 * onTime state).bmod 4294967296 ∧ 255 * onTime state < 17 * total state := by
  obtain ⟨hon, hless⟩ := times hb
  have hsum : (totalMS state).toInt = total state := by
    rcases totalMS_cases hb with ⟨-, h⟩ | ⟨h, -⟩
    · exact h
    · omega
  have hpos : 0 < total state := by omega
  rw [pwm_toInt hb, hsum, exactPwm]
  by_cases hfits : 255 * onTime state < 2147483648
  · have hsame : (255 * onTime state).bmod 4294967296 = 255 * onTime state := Int.bmod_eq_of_le (by omega) (by omega)
    rw [hsame, Int.tdiv_eq_ediv_of_nonneg (by omega)]
    exact iff_of_true rfl (.inl hfits)
  · have hlt := tdiv_lt_of_wrapped hpos (Int.not_lt.mp hfits) htotal
    have hquot : 255 * onTime state / total state < 17 ↔ 255 * onTime state < 17 * total state :=
      Int.ediv_lt_iff_lt_mul hpos
    rw [or_iff_right hfits, ← hquot]
    by_cases hwrapped : total state ≤ (255 * onTime state).bmod 4294967296
    · have hone := Int.tdiv_le_tdiv hpos hwrapped
      rw [Int.tdiv_self (by omega)] at hone
      unfold raised
      split <;> split <;> omega
    · have hnonpos := tdiv_nonpos hpos (Int.not_le.mp hwrapped)
      unfold raised
      split <;> split <;> omega

/-- The duty cycle is never above the one that a longer on-time is to have. -/
theorem pwm_le_exactPwm {shorter : LightState} (hb : Blinking state) (hs : Blinking shorter)
    (hlt : total state < 2147483648) (htotal : total shorter = total state) (hle : onTime shorter ≤ onTime state) :
    (pwm shorter).toInt ≤ exactPwm state := by
  have htimes := times hb
  have hshorter := times hs
  have hsum : (totalMS shorter).toInt = total state := by
    rcases totalMS_cases hs with ⟨-, h⟩ | ⟨h, -⟩
    · rw [h, htotal]
    · omega
  rw [pwm_toInt hs, hsum, exactPwm]
  exact raised_mono (tdiv_bmod_le (by omega) (by omega) hle)

theorem exactPwm_range (hb : Blinking state) : 0 ≤ exactPwm state ∧ exactPwm state ≤ 255 := by
  have htimes := times hb
  have hnonneg : 0 ≤ 255 * onTime state / total state := Int.ediv_nonneg (by omega) (by omega)
  have hlt : 255 * onTime state / total state < 255 := Int.ediv_lt_of_lt_mul (by omega) (by omega)
  unfold exactPwm raised
  split <;> omega

end

section
variable {d : Device} {state : LightState}

/-- Both registers are written, whatever the state of the device. -/
theorem registers_applied (hrgb : d.g_haveAmberLed = false) (hb : Blinking state) (s : State) :
    contents (set_speaker_light_locked d state s) .redFreq = freq state ∧
      contents (set_speaker_light_locked d state s) .redPwm = pwm state := by
  have hblink := (blink_iff state).mpr hb
  rw [contents_speaker, contents_speaker, shown_redFreq hrgb, shown_redPwm hrgb, if_pos hblink, if_pos hblink]
  exact ⟨rfl, rfl⟩

theorem holds_iff (hrgb : d.g_haveAmberLed = false) (hb : Blinking state) (s : State) :
    Holds state (set_speaker_light_locked d state s) ↔ Fits state := by
  obtain ⟨hfreq, hpwm⟩ := registers_applied hrgb hb s
  unfold Holds Fits
  rw [hfreq, hpwm, freq_exact_iff hb]
  exact and_congr_right fun htotal => pwm_exact_iff hb htotal

/-- The setters end with the winning state. -/
theorem battery_eq (d : Device) (hlit : is_lit state = true) (s : State) :
    ∃ s', set_light_battery d state s = set_speaker_light_locked d state s' := by
  have hwinner : winner (set_light_battery d state s) = state := by
    have hbattery := step_g_battery d s (.battery state)
    rw [step_battery] at hbattery
    rw [winner, hbattery, if_pos hlit]
  rw [set_light_battery, winner_handle] at hwinner
  rw [set_light_battery, handle_speaker_battery_eq, hwinner]
  exact ⟨_, rfl⟩

theorem notification_eq (d : Device) (state : LightState) (s : State) (hdark : is_lit s.g_battery = false) :
    ∃ s', set_light_notifications d state s = set_speaker_light_locked d state s' := by
  have hwinner : winner (set_light_notifications d state s) = state := by
    have hbattery := step_g_battery d s (.notifications state)
    have hnotification := step_g_notification d s (.notifications state)
    rw [step_notifications] at hbattery hnotification
    rw [winner, hbattery, hnotification, if_neg (by rw [hdark]; decide)]
  rw [set_light_notifications, winner_handle] at hwinner
  rw [set_light_notifications, handle_speaker_battery_eq, hwinner]
  exact ⟨_, rfl⟩

/-- The registers hold what they are to hold exactly when the sum fits, and the product where it
counts. -/
theorem registers_exact_iff (hrgb : d.g_haveAmberLed = false) (hb : Blinking state) :
    Conforms d state ↔ Fits state := by
  constructor
  · intro h
    exact (holds_iff hrgb hb boot).mp (h.applied boot)
  · intro hfits
    have happlied (s : State) : Holds state (set_speaker_light_locked d state s) := (holds_iff hrgb hb s).mpr hfits
    have hpwm : (pwm state).toInt = exactPwm state := (pwm_exact_iff hb hfits.1).mpr hfits.2
    refine ⟨fun hlit s => ?_, fun s hdark => ?_, happlied, (totalMS_ne ((blink_iff state).mpr hb)).1, ?_,
      fun shorter hs heq hle => ?_⟩
    · obtain ⟨s', hs'⟩ := battery_eq d hlit s
      rw [hs']
      exact happlied s'
    · obtain ⟨s', hs'⟩ := notification_eq d state s hdark
      rw [hs']
      exact happlied s'
    · rw [hpwm]
      exact exactPwm_range hb
    · rw [hpwm]
      exact pwm_le_exactPwm hb hs hfits.1 heq hle

/-- Half a second on and off. -/
theorem half_second_conforms : Conforms ⟨false, false⟩ ⟨0xff00ff00, LIGHT_FLASH_TIMED, 500, 500⟩ :=
  (registers_exact_iff rfl (by decide)).mpr ⟨by decide, .inl (by decide)⟩

/-- Three hours on and off: the product does not fit, and the duty cycle is negative. -/
theorem three_hours_negative : ¬ ∀ (d : Device) (state : LightState), d.g_haveAmberLed = false → Blinking state →
    Conforms d state := by
  intro h
  have hrange := (h ⟨false, false⟩ ⟨0xff00ff00, LIGHT_FLASH_TIMED, 10800000, 10800000⟩ rfl (by decide)).range.1
  exact absurd hrange (by decide)

end

end LightsBlink
