import Mathlib.Data.List.Induction
import Y210.Run

/-!
# The lights HAL

The device's globals and the files under `/sys/class/leds` it writes. Every `write_int` here
succeeds; a file's contents are the last value written to it. The code's `int` is two's
complement and wraps around.
-/
namespace Lights

open Run

inductive File where
  | trackball | redLed | greenLed | blueLed | amberLed | lcd | redFreq | redPwm | amberBlink
  | keyboard | button
  deriving DecidableEq, Repr

def LIGHT_FLASH_NONE : Int32 := 0
def LIGHT_FLASH_TIMED : Int32 := 1
def LIGHT_FLASH_HARDWARE : Int32 := 2

/-- The fields of `light_state_t` that the device reads. -/
structure LightState where
  color : UInt32
  flashMode : Int32
  flashOnMS : Int32
  flashOffMS : Int32
  deriving DecidableEq, Repr

/-- What `init_globals` found. -/
structure Device where
  g_haveTrackballLight : Bool
  g_haveAmberLed : Bool
  deriving DecidableEq, Repr

/-- The globals, and the writes to the files with the last one first. -/
structure State where
  g_notification : LightState
  g_battery : LightState
  g_backlight : Int32
  g_trackball : Int32
  g_buttons : Int32
  g_attention : Int32
  writes : List (File × Int32)

/-- A static `light_state_t`. -/
def zeroState : LightState := ⟨0, 0, 0, 0⟩

def boot : State := ⟨zeroState, zeroState, 255, -1, 0, 0, []⟩

def write_int (f : File) (value : Int32) (s : State) : State :=
  { s with writes := (f, value) :: s.writes }

def lastWrite (writes : List (File × Int32)) (f : File) : Option Int32 :=
  (writes.find? fun w => w.1 = f).map Prod.snd

/-- A file that was not written holds 0. -/
def contents (s : State) (f : File) : Int32 := (lastWrite s.writes f).getD 0

def is_lit (state : LightState) : Bool := (state.color &&& 0x00ffffff) != 0

/-- The byte of a colour from the given bit up. -/
def byte (color shift : UInt32) : UInt32 := (color >>> shift) &&& 0x00ff

def rgb_to_brightness (state : LightState) : Int32 :=
  let color := state.color &&& 0x00ffffff
  ((77 * byte color 16 + 150 * byte color 8 + 29 * byte color 0) >>> 8).toInt32

/-- The mode that `handle_trackball_light_locked` computes. -/
def trackballMode (s : State) : Int32 :=
  if s.g_attention = 7 ∧ s.g_backlight ≠ 0 then 0 else s.g_attention

def handle_trackball_light_locked (s : State) : State :=
  if s.g_trackball = trackballMode s then s else write_int .trackball (trackballMode s) s

/-! ## The speaker light -/

def onMS (state : LightState) : Int32 :=
  if state.flashMode = LIGHT_FLASH_TIMED then state.flashOnMS else 0

def offMS (state : LightState) : Int32 :=
  if state.flashMode = LIGHT_FLASH_TIMED then state.flashOffMS else 0

def totalMS (state : LightState) : Int32 := onMS state + offMS state

def red (state : LightState) : Int32 := (byte state.color 16).toInt32
def green (state : LightState) : Int32 := (byte state.color 8).toInt32
def blue (state : LightState) : Int32 := (byte state.color 0).toInt32

def blink (state : LightState) : Bool := 0 < onMS state && 0 < offMS state

def freq (state : LightState) : Int32 := if blink state then totalMS state / 50 else 0

/-- The low 4 bits are ignored, so 1 to 15 become 16. -/
def roundUp (pwm : Int32) : Int32 := if 0 < pwm ∧ pwm < 16 then 16 else pwm

def pwm (state : LightState) : Int32 :=
  if blink state then roundUp (onMS state * 255 / totalMS state) else 0

def set_speaker_light_locked (d : Device) (state : LightState) (s : State) : State :=
  if d.g_haveAmberLed = false then
    let s := write_int .redLed (red state) s
    let s := write_int .greenLed (green state) s
    let s := write_int .blueLed (blue state) s
    -- only a blinking state writes the registers
    if blink state then write_int .redPwm (pwm state) (write_int .redFreq (freq state) s) else s
  else
    let s :=
      if red state ≠ 0 then write_int .greenLed 0 (write_int .amberLed 1 s)
      else if green state ≠ 0 then write_int .greenLed 1 (write_int .amberLed 0 s)
      else write_int .amberLed 0 (write_int .greenLed 0 s)
    write_int .amberBlink (if blink state then 1 else 0) s

def handle_speaker_battery_locked (d : Device) (s : State) : State :=
  if is_lit s.g_battery then set_speaker_light_locked d s.g_battery s
  else set_speaker_light_locked d s.g_notification s

/-! ## The methods of the device -/

def set_light_backlight (d : Device) (state : LightState) (s : State) : State :=
  let s := { s with g_backlight := rgb_to_brightness state }
  let s := write_int .lcd (rgb_to_brightness state) s
  if d.g_haveTrackballLight then handle_trackball_light_locked s else s

def set_light_keyboard (state : LightState) (s : State) : State :=
  write_int .keyboard (if is_lit state then 255 else 0) s

def set_light_buttons (state : LightState) (s : State) : State :=
  let s := { s with g_buttons := (state.color &&& 0x00ffffff).toInt32 }
  write_int .button (if is_lit state then 255 else 0) s

def set_light_battery (d : Device) (state : LightState) (s : State) : State :=
  let s := { s with g_battery := state }
  let s := if d.g_haveTrackballLight then set_speaker_light_locked d state s else s
  handle_speaker_battery_locked d s

def set_light_notifications (d : Device) (state : LightState) (s : State) : State :=
  let s := { s with g_notification := state }
  let s := if d.g_haveTrackballLight then handle_trackball_light_locked s else s
  handle_speaker_battery_locked d s

def set_light_attention (d : Device) (state : LightState) (s : State) : State :=
  let attention :=
    if state.flashMode = LIGHT_FLASH_HARDWARE then state.flashOnMS
    else if state.flashMode = LIGHT_FLASH_NONE then 0
    else s.g_attention
  let s := { s with g_attention := attention }
  if d.g_haveTrackballLight then handle_trackball_light_locked s else s

/-- Each holds `g_lock` from beginning to end. -/
inductive Call where
  | backlight (state : LightState)
  | keyboard (state : LightState)
  | buttons (state : LightState)
  | battery (state : LightState)
  | notifications (state : LightState)
  | attention (state : LightState)
  deriving DecidableEq, Repr

def step (d : Device) (s : State) : Call → State
  | .backlight state => set_light_backlight d state s
  | .keyboard state => set_light_keyboard state s
  | .buttons state => set_light_buttons state s
  | .battery state => set_light_battery d state s
  | .notifications state => set_light_notifications d state s
  | .attention state => set_light_attention d state s

@[simp] theorem step_backlight (d : Device) (s : State) (state : LightState) :
    step d s (.backlight state) = set_light_backlight d state s := rfl
@[simp] theorem step_keyboard (d : Device) (s : State) (state : LightState) :
    step d s (.keyboard state) = set_light_keyboard state s := rfl
@[simp] theorem step_buttons (d : Device) (s : State) (state : LightState) :
    step d s (.buttons state) = set_light_buttons state s := rfl
@[simp] theorem step_battery (d : Device) (s : State) (state : LightState) :
    step d s (.battery state) = set_light_battery d state s := rfl
@[simp] theorem step_notifications (d : Device) (s : State) (state : LightState) :
    step d s (.notifications state) = set_light_notifications d state s := rfl
@[simp] theorem step_attention (d : Device) (s : State) (state : LightState) :
    step d s (.attention state) = set_light_attention d state s := rfl

/-! ## What a call writes -/

theorem lastWrite_cons (f g : File) (value : Int32) (writes : List (File × Int32)) :
    lastWrite ((g, value) :: writes) f = if f = g then some value else lastWrite writes f := by
  unfold lastWrite
  by_cases h : f = g
  · simp [h]
  · rw [List.find?_cons_of_neg (by simpa using Ne.symm h), if_neg h]

theorem lastWrite_append (f : File) (later earlier : List (File × Int32)) :
    lastWrite (later ++ earlier) f = (lastWrite later f).or (lastWrite earlier f) := by
  unfold lastWrite
  rw [List.find?_append]
  cases later.find? fun w => w.1 = f <;> rfl

/-- The value that applying a state leaves in a file, or `none` when it does not write the file. -/
def shown (d : Device) (state : LightState) (f : File) : Option Int32 :=
  lastWrite (set_speaker_light_locked d state boot).writes f

section
variable (d : Device) (state : LightState) (s : State)

theorem contents_write_int (f g : File) (value : Int32) :
    contents (write_int g value s) f = if f = g then value else contents s f := by
  unfold contents
  rw [write_int, lastWrite_cons]
  split <;> rfl

theorem contents_write_int_ne {f g : File} (h : f ≠ g) (value : Int32) :
    contents (write_int g value s) f = contents s f := by
  rw [contents_write_int, if_neg h]

theorem contents_trackball {f : File} (h : f ≠ .trackball) :
    contents (handle_trackball_light_locked s) f = contents s f := by
  unfold handle_trackball_light_locked
  split
  · rfl
  · exact contents_write_int_ne _ h _

@[simp] theorem trackball_g_battery : (handle_trackball_light_locked s).g_battery = s.g_battery := by
  unfold handle_trackball_light_locked
  split <;> rfl

@[simp] theorem trackball_g_notification :
    (handle_trackball_light_locked s).g_notification = s.g_notification := by
  unfold handle_trackball_light_locked
  split <;> rfl

/-- Applying a state only adds writes, the same ones in every state of the device. -/
theorem speaker_writes : set_speaker_light_locked d state s =
    { s with writes := (set_speaker_light_locked d state boot).writes ++ s.writes } := by
  unfold set_speaker_light_locked
  by_cases hamber : d.g_haveAmberLed = false
  · cases hb : blink state <;> simp [hamber, write_int, boot]
  · by_cases hr : red state = 0
    · by_cases hg : green state = 0 <;> simp [hamber, hr, hg, write_int, boot]
    · simp [hamber, hr, write_int, boot]

theorem contents_speaker (f : File) :
    contents (set_speaker_light_locked d state s) f = (shown d state f).getD (contents s f) := by
  rw [speaker_writes]
  unfold contents shown
  rw [lastWrite_append]
  cases lastWrite (set_speaker_light_locked d state boot).writes f <;> rfl

@[simp] theorem speaker_g_battery : (set_speaker_light_locked d state s).g_battery = s.g_battery := by
  rw [speaker_writes]

@[simp] theorem speaker_g_notification :
    (set_speaker_light_locked d state s).g_notification = s.g_notification := by
  rw [speaker_writes]

end

/-! ## The indicator -/

/-- The files of the indicator LED. -/
def indicatorFiles (d : Device) : List File :=
  if d.g_haveAmberLed then [.amberLed, .greenLed, .amberBlink]
  else [.redLed, .greenLed, .blueLed, .redFreq, .redPwm]

/-- A timed state with both times positive. -/
def Blinking (state : LightState) : Prop :=
  state.flashMode = LIGHT_FLASH_TIMED ∧ 0 < state.flashOnMS ∧ 0 < state.flashOffMS

def lastBattery (calls : List Call) : LightState :=
  calls.foldl (fun last c => match c with | .battery state => state | _ => last) zeroState

def lastNotification (calls : List Call) : LightState :=
  calls.foldl (fun last c => match c with | .notifications state => state | _ => last) zeroState

/-- The last battery state if it is lit, else the last notification state. -/
def winning (calls : List Call) : LightState :=
  if is_lit (lastBattery calls) then lastBattery calls else lastNotification calls

theorem blink_iff (state : LightState) : blink state = true ↔ Blinking state := by
  unfold blink onMS offMS Blinking
  by_cases h : state.flashMode = LIGHT_FLASH_TIMED <;> simp [h]

instance (state : LightState) : Decidable (Blinking state) := decidable_of_iff _ (blink_iff state)

theorem not_blinking_iff (state : LightState) : ¬ Blinking state ↔ blink state = false := by
  rw [← blink_iff, Bool.not_eq_true]

/-! ### Blink times -/

theorem natAbs_lt_of_tdiv_eq_zero {a b : Int} (hb : b ≠ 0) (h : a.tdiv b = 0) : a.natAbs < b.natAbs := by
  have hz : a.natAbs / b.natAbs = 0 := by
    rw [← Int.natAbs_zero, ← h]
    exact (Int.natAbs_tdiv a b).symm
  exact (Nat.div_eq_zero_iff.mp hz).resolve_left (Int.natAbs_ne_zero.mpr hb)

/-- A quotient of 0, for a divisor at which `int` division does not overflow. -/
theorem toInt_lt_of_div_eq_zero {a b : Int32} (hb : b ≠ 0) (hb' : b ≠ -1) (h : a / b = 0) :
    a.toInt.natAbs < b.toInt.natAbs := by
  refine natAbs_lt_of_tdiv_eq_zero (fun hz => hb (Int32.toInt_inj.mp hz)) ?_
  rw [← Int32.toInt_div_of_ne_right a b hb', h]
  rfl

theorem toInt_pos {a : Int32} (h : 0 < a) : 0 < a.toInt := Int32.lt_iff_toInt_lt.mp h

/-- The sum of two positive times, which may have wrapped around. -/
theorem toInt_add_pos {a b : Int32} (ha : 0 < a) (hb : 0 < b) :
    2 ≤ (a + b).toInt ∧ (a + b).toInt = a.toInt + b.toInt ∨
      (a + b).toInt ≤ -2 ∧ (a + b).toInt = a.toInt + b.toInt - 4294967296 := by
  have ha' := toInt_pos ha
  have hb' := toInt_pos hb
  have hla := a.toInt_lt
  have hlb := b.toInt_lt
  rw [Int32.toInt_add, Int.bmod_def]
  omega

theorem roundUp_eq_zero {x : Int32} (h : roundUp x = 0) : x = 0 := by
  unfold roundUp at h
  split at h
  · cases h
  · exact h

/-- The divisor of the duty cycle is one at which `int` division is defined. -/
theorem totalMS_ne {state : LightState} (h : blink state = true) : totalMS state ≠ 0 ∧ totalMS state ≠ -1 := by
  simp only [blink, Bool.and_eq_true, decide_eq_true_eq] at h
  have hsum := toInt_add_pos h.1 h.2
  rw [← totalMS] at hsum
  constructor
  · intro hz
    rw [hz] at hsum
    rcases hsum with ⟨hle, -⟩ | ⟨hle, -⟩ <;> exact absurd hle (by decide)
  · intro hz
    rw [hz] at hsum
    rcases hsum with ⟨hle, -⟩ | ⟨hle, -⟩ <;> exact absurd hle (by decide)

/-- The two registers of a blinking state are not both 0. -/
theorem freq_pwm_ne_zero {state : LightState} (h : blink state = true) :
    ¬ (freq state = 0 ∧ pwm state = 0) := by
  rintro ⟨hfreq, hpwm⟩
  rw [freq, if_pos h] at hfreq
  rw [pwm, if_pos h] at hpwm
  obtain ⟨hne, hne'⟩ := totalMS_ne h
  have hsmall := toInt_lt_of_div_eq_zero (by decide) (by decide) hfreq
  have hless := toInt_lt_of_div_eq_zero hne hne' (roundUp_eq_zero hpwm)
  simp only [blink, Bool.and_eq_true, decide_eq_true_eq] at h
  obtain ⟨hon, hoff⟩ := h
  have hsum := toInt_add_pos hon hoff
  rw [← totalMS] at hsum
  have hon' := toInt_pos hon
  have hoff' := toInt_pos hoff
  have hlon := (onMS state).toInt_lt
  have hloff := (offMS state).toInt_lt
  have h50 : (50 : Int32).toInt = 50 := rfl
  have h255 : (255 : Int32).toInt = 255 := rfl
  rw [h50] at hsmall
  rw [Int32.toInt_mul, h255, Int.bmod_def] at hless
  rcases hsum with ⟨hle, htotal⟩ | ⟨hle, htotal⟩
  · have hquot : (onMS state).toInt * 255 / 4294967296 = 0 := by omega
    omega
  · -- both times are close to the greatest `int`
    have hquot : (onMS state).toInt * 255 / 4294967296 = 127 := by omega
    omega

/-! ### Runs -/

/-- The state that `handle_speaker_battery_locked` applies. -/
def winner (s : State) : LightState := if is_lit s.g_battery then s.g_battery else s.g_notification

theorem handle_speaker_battery_eq (d : Device) (s : State) :
    handle_speaker_battery_locked d s = set_speaker_light_locked d (winner s) s := by
  unfold handle_speaker_battery_locked winner
  split <;> rfl

theorem exec_concat (d : Device) (s : State) (calls : List Call) (c : Call) :
    exec (step d) s (calls ++ [c]) = step d (exec (step d) s calls) c := by
  rw [exec_append, exec_cons, exec_nil]

section
variable (d : Device) (s : State)

theorem step_g_battery (c : Call) :
    (step d s c).g_battery = match c with | .battery state => state | _ => s.g_battery := by
  cases c <;> simp [set_light_backlight, set_light_keyboard, set_light_buttons, set_light_battery,
    set_light_notifications, set_light_attention, handle_speaker_battery_eq, write_int,
    apply_ite State.g_battery]

theorem step_g_notification (c : Call) :
    (step d s c).g_notification = match c with | .notifications state => state | _ => s.g_notification := by
  cases c <;> simp [set_light_backlight, set_light_keyboard, set_light_buttons, set_light_battery,
    set_light_notifications, set_light_attention, handle_speaker_battery_eq, write_int,
    apply_ite State.g_notification]

end

/-- The states that a call applies to the indicator, in order. -/
def applied (d : Device) (s : State) (c : Call) : List LightState :=
  match c with
  | .battery state => (if d.g_haveTrackballLight then [state] else []) ++ [winner (step d s c)]
  | .notifications _ => [winner (step d s c)]
  | _ => []

theorem lastBattery_concat (calls : List Call) (c : Call) :
    lastBattery (calls ++ [c]) = match c with | .battery state => state | _ => lastBattery calls := by
  simp only [lastBattery, List.foldl_concat]

theorem lastNotification_concat (calls : List Call) (c : Call) :
    lastNotification (calls ++ [c]) = match c with | .notifications state => state | _ => lastNotification calls := by
  simp only [lastNotification, List.foldl_concat]

theorem exec_g_battery (d : Device) (calls : List Call) :
    (exec (step d) boot calls).g_battery = lastBattery calls := by
  induction calls using List.reverseRecOn with
  | nil => rfl
  | append_singleton calls c ih =>
    rw [exec_concat, step_g_battery, ih, lastBattery_concat]

theorem exec_g_notification (d : Device) (calls : List Call) :
    (exec (step d) boot calls).g_notification = lastNotification calls := by
  induction calls using List.reverseRecOn with
  | nil => rfl
  | append_singleton calls c ih =>
    rw [exec_concat, step_g_notification, ih, lastNotification_concat]

theorem winner_exec (d : Device) (calls : List Call) : winner (exec (step d) boot calls) = winning calls := by
  unfold winner winning
  rw [exec_g_battery, exec_g_notification]

section
variable {d : Device} {s : State}

theorem winner_congr {s s' : State} (hb : s'.g_battery = s.g_battery)
    (hn : s'.g_notification = s.g_notification) : winner s' = winner s := by
  unfold winner
  rw [hb, hn]

theorem winner_handle (d : Device) (s : State) : winner (handle_speaker_battery_locked d s) = winner s := by
  rw [handle_speaker_battery_eq]
  exact winner_congr (speaker_g_battery d _ s) (speaker_g_notification d _ s)

/-- The last state a call applies is the winning one; a call that applies none leaves it as it was. -/
theorem applied_cases (d : Device) (s : State) (c : Call) :
    (applied d s c = [] ∧ winner (step d s c) = winner s) ∨
      ∃ before, applied d s c = before ++ [winner (step d s c)] := by
  cases c with
  | battery state => exact .inr ⟨_, rfl⟩
  | notifications state => exact .inr ⟨[], rfl⟩
  | backlight | keyboard | buttons | attention =>
    exact .inl ⟨rfl, winner_congr (step_g_battery d s _) (step_g_notification d s _)⟩

theorem indicator_ne {f : File} (h : f ∈ indicatorFiles d) :
    f ≠ .trackball ∧ f ≠ .lcd ∧ f ≠ .keyboard ∧ f ≠ .button := by
  unfold indicatorFiles at h
  split at h <;> simp only [List.mem_cons, List.not_mem_nil, or_false] at h
  · rcases h with rfl | rfl | rfl <;> decide
  · rcases h with rfl | rfl | rfl | rfl | rfl <;> decide

/-- The indicator after a call is what the applied states make of it. -/
theorem contents_step {f : File} (h : f ∈ indicatorFiles d) (s : State) (c : Call) :
    contents (step d s c) f =
      (applied d s c).foldl (fun x state => (shown d state f).getD x) (contents s f) := by
  obtain ⟨htrackball, hlcd, hkeyboard, hbutton⟩ := indicator_ne h
  have hite (s : State) :
      contents (if d.g_haveTrackballLight = true then handle_trackball_light_locked s else s) f =
        contents s f := by
    split
    · exact contents_trackball s htrackball
    · rfl
  cases c with
  | backlight state =>
    rw [step_backlight, set_light_backlight, hite, contents_write_int_ne _ hlcd]
    rfl
  | keyboard state => exact contents_write_int_ne _ hkeyboard _
  | buttons state => exact contents_write_int_ne _ hbutton _
  | attention state =>
    rw [step_attention, set_light_attention, hite]
    rfl
  | battery state =>
    rw [applied, List.foldl_concat, step_battery, set_light_battery, winner_handle,
      handle_speaker_battery_eq, contents_speaker]
    congr 1
    split
    · exact contents_speaker d state _ f
    · rfl
  | notifications state =>
    rw [applied, List.foldl_cons, List.foldl_nil, step_notifications, set_light_notifications,
      winner_handle, handle_speaker_battery_eq, contents_speaker, hite]
    rfl

/-- The winning state's own writes are in the indicator's files. -/
def InPlace (d : Device) (s : State) : Prop :=
  ∀ f ∈ indicatorFiles d, ∀ x ∈ shown d (winner s) f, contents s f = x

theorem inPlace_boot (d : Device) : InPlace d boot := by
  have hzero : ∀ f ∈ indicatorFiles d, (shown d zeroState f).getD 0 = 0 := by
    obtain ⟨trackball, amber⟩ := d
    cases trackball <;> cases amber <;> decide +kernel
  intro f hf x hx
  have hx' : shown d zeroState f = some x := hx
  have hf' := hzero f hf
  rw [hx', Option.getD_some] at hf'
  exact hf'.symm

theorem InPlace.step (h : InPlace d s) (c : Call) : InPlace d (step d s c) := by
  intro f hf x hx
  rw [contents_step hf]
  rcases applied_cases d s c with ⟨happlied, hwinner⟩ | ⟨before, happlied⟩
  · rw [hwinner] at hx
    rw [happlied]
    exact h f hf x hx
  · rw [happlied, List.foldl_concat, Option.mem_def.mp hx]
    rfl

/-- Both blink registers hold 0. -/
def Clean (s : State) : Prop := contents s .redFreq = 0 ∧ contents s .redPwm = 0

theorem shown_redFreq (hrgb : d.g_haveAmberLed = false) (state : LightState) :
    shown d state .redFreq = if blink state then some (freq state) else none := by
  unfold shown set_speaker_light_locked
  cases hb : blink state
  · simp [hrgb, write_int, lastWrite_cons, boot]
    rfl
  · simp [hrgb, write_int, lastWrite_cons, boot]

theorem shown_redPwm (hrgb : d.g_haveAmberLed = false) (state : LightState) :
    shown d state .redPwm = if blink state then some (pwm state) else none := by
  unfold shown set_speaker_light_locked
  cases hb : blink state
  · simp [hrgb, write_int, lastWrite_cons, boot]
    rfl
  · simp [hrgb, write_int, lastWrite_cons, boot]

/-- Every state writes every file of the indicator; of the registers only a blinking one does. -/
theorem shown_cases {f : File} (hf : f ∈ indicatorFiles d) (state : LightState) :
    (shown d state f).isSome = true ∨
      d.g_haveAmberLed = false ∧ blink state = false ∧ (f = .redFreq ∨ f = .redPwm) := by
  cases hamber : d.g_haveAmberLed with
  | false =>
    simp only [indicatorFiles, hamber, Bool.false_eq_true, if_false, List.mem_cons, List.not_mem_nil,
      or_false] at hf
    cases hb : blink state with
    | false =>
      rcases hf with rfl | rfl | rfl | hregister
      · exact .inl (by simp [shown, set_speaker_light_locked, hamber, hb, write_int, lastWrite_cons])
      · exact .inl (by simp [shown, set_speaker_light_locked, hamber, hb, write_int, lastWrite_cons])
      · exact .inl (by simp [shown, set_speaker_light_locked, hamber, hb, write_int, lastWrite_cons])
      · exact .inr ⟨rfl, rfl, hregister⟩
    | true =>
      left
      rcases hf with rfl | rfl | rfl | rfl | rfl <;>
      simp [shown, set_speaker_light_locked, hamber, hb, write_int, lastWrite_cons]
  | true =>
    simp only [indicatorFiles, hamber, if_true, List.mem_cons, List.not_mem_nil, or_false] at hf
    left
    unfold shown set_speaker_light_locked
    rw [hamber]
    -- one of the three colours is chosen, and each writes both LEDs
    have hled {f : File} (hf : f = .amberLed ∨ f = .greenLed) (s : State) :
        (lastWrite (if red state ≠ 0 then write_int .greenLed 0 (write_int .amberLed 1 s)
          else if green state ≠ 0 then write_int .greenLed 1 (write_int .amberLed 0 s)
          else write_int .amberLed 0 (write_int .greenLed 0 s)).writes f).isSome = true := by
      split
      · rcases hf with rfl | rfl <;> simp [write_int, lastWrite_cons]
      · split <;> rcases hf with rfl | rfl <;> simp [write_int, lastWrite_cons]
    rcases hf with rfl | rfl | rfl
    · simpa [write_int, lastWrite_cons] using hled (.inl rfl) boot
    · simpa [write_int, lastWrite_cons] using hled (.inr rfl) boot
    · simp [write_int, lastWrite_cons]

/-- A blinking state leaves the registers dirty and a steady one leaves them as they are. -/
theorem clean_applied (hrgb : d.g_haveAmberLed = false) (states : List LightState) (x y : Int32) :
    states.foldl (fun x state => (shown d state .redFreq).getD x) x = 0 ∧
        states.foldl (fun x state => (shown d state .redPwm).getD x) y = 0 ↔
      (∀ state ∈ states, ¬ Blinking state) ∧ x = 0 ∧ y = 0 := by
  induction states generalizing x y with
  | nil => simp
  | cons state states ih =>
    rw [List.foldl_cons, List.foldl_cons, ih, List.forall_mem_cons, shown_redFreq hrgb, shown_redPwm hrgb,
      not_blinking_iff]
    cases hb : blink state with
    | true => simpa using fun _ hfreq hpwm => freq_pwm_ne_zero hb ⟨hfreq, hpwm⟩
    | false => simp

theorem clean_step (hrgb : d.g_haveAmberLed = false) (s : State) (c : Call) :
    Clean (step d s c) ↔ (∀ state ∈ applied d s c, ¬ Blinking state) ∧ Clean s := by
  have hfreq : File.redFreq ∈ indicatorFiles d := by simp [indicatorFiles, hrgb]
  have hpwm : File.redPwm ∈ indicatorFiles d := by simp [indicatorFiles, hrgb]
  unfold Clean
  rw [contents_step hfreq, contents_step hpwm, clean_applied hrgb]

/-- Every state that has been the winning one, and where there is a trackball every battery state,
was a steady one. -/
def Steady (d : Device) (calls : List Call) : Prop :=
  (∀ first, first <+: calls → ¬ Blinking (winning first)) ∧
    (d.g_haveTrackballLight = true → ∀ state, .battery state ∈ calls → ¬ Blinking state)

theorem steady_nil (d : Device) : Steady d [] := by
  refine ⟨fun first hfirst => ?_, fun _ state hstate => by cases hstate⟩
  rw [List.prefix_nil.mp hfirst]
  decide

/-- A call that applies nothing leaves the winning state and the battery calls as they were. -/
theorem steady_concat_none {calls : List Call} {c : Call} (hwinning : winning (calls ++ [c]) = winning calls)
    (hbattery : ∀ s, .battery s ∈ calls ++ [c] ↔ .battery s ∈ calls) :
    Steady d (calls ++ [c]) ↔ Steady d calls := by
  unfold Steady
  simp only [hbattery]
  refine and_congr_left' ⟨fun h first hfirst => ?_, fun h first hfirst => ?_⟩
  · exact h first (hfirst.trans (List.prefix_append calls [c]))
  · rcases List.prefix_concat_iff.mp hfirst with rfl | hfirst
    · rw [hwinning]
      exact h calls List.prefix_rfl
    · exact h first hfirst

theorem steady_concat (calls : List Call) (c : Call) :
    Steady d (calls ++ [c]) ↔
      (∀ state ∈ applied d (exec (step d) boot calls) c, ¬ Blinking state) ∧ Steady d calls := by
  have hwinner : winner (step d (exec (step d) boot calls) c) = winning (calls ++ [c]) := by
    rw [← exec_concat, winner_exec]
  have hfirsts : (∀ first, first <+: calls ++ [c] → ¬ Blinking (winning first)) ↔
      ¬ Blinking (winning (calls ++ [c])) ∧ ∀ first, first <+: calls → ¬ Blinking (winning first) := by
    simp only [List.prefix_concat_iff, or_imp, forall_and, forall_eq]
  cases c with
  | battery state =>
    unfold Steady
    rw [hfirsts, applied, hwinner]
    have hlast (s : LightState) : .battery s ∈ calls ++ [.battery state] ↔ .battery s ∈ calls ∨ s = state := by
      simp
    cases d.g_haveTrackballLight with
    | false => simp
    | true =>
      simp only [hlast, or_imp, forall_and, forall_eq, forall_const, if_true, List.singleton_append,
        List.forall_mem_cons, List.not_mem_nil, false_imp_iff, implies_true, and_true]
      constructor
      · rintro ⟨⟨hwinning, hall⟩, hbattery, hstate⟩
        exact ⟨⟨hstate, hwinning⟩, hall, hbattery⟩
      · rintro ⟨⟨hstate, hwinning⟩, hall, hbattery⟩
        exact ⟨⟨hwinning, hall⟩, hbattery, hstate⟩
  | notifications state =>
    have hbattery (s : LightState) : .battery s ∈ calls ++ [.notifications state] ↔ .battery s ∈ calls := by
      simp
    unfold Steady
    simp only [hfirsts, applied, hwinner, hbattery, List.forall_mem_singleton, and_assoc]
  | backlight | keyboard | buttons | attention =>
    rw [steady_concat_none (by rw [winning, lastBattery_concat, lastNotification_concat, winning]) (by simp)]
    simp [applied]

theorem clean_exec (hrgb : d.g_haveAmberLed = false) (calls : List Call) :
    Clean (exec (step d) boot calls) ↔ Steady d calls := by
  induction calls using List.reverseRecOn with
  | nil => exact iff_of_true ⟨rfl, rfl⟩ (steady_nil d)
  | append_singleton calls c ih => rw [exec_concat, clean_step hrgb, steady_concat, ih]

theorem contents_boot (f : File) : contents boot f = 0 := rfl

/-- What can survive is in the blink registers of the RGB variant, under a steady winning state. -/
theorem InPlace.fresh_iff (h : InPlace d s) :
    (∀ f ∈ indicatorFiles d, contents s f = contents (set_speaker_light_locked d (winner s) boot) f) ↔
      d.g_haveAmberLed = true ∨ Blinking (winner s) ∨ Clean s := by
  simp only [contents_speaker, contents_boot]
  constructor
  · intro hall
    by_cases hamber : d.g_haveAmberLed = true
    · exact .inl hamber
    · by_cases hb : Blinking (winner s)
      · exact .inr (.inl hb)
      · rw [Bool.not_eq_true] at hamber
        rw [not_blinking_iff] at hb
        have hfreq := hall .redFreq (by simp [indicatorFiles, hamber])
        have hpwm := hall .redPwm (by simp [indicatorFiles, hamber])
        rw [shown_redFreq hamber, hb] at hfreq
        rw [shown_redPwm hamber, hb] at hpwm
        exact .inr (.inr ⟨hfreq, hpwm⟩)
  · intro hkept f hf
    rcases shown_cases hf (winner s) with hsome | ⟨hrgb, hb, hregister⟩
    · obtain ⟨x, hx⟩ := Option.isSome_iff_exists.mp hsome
      rw [h f hf x hx, hx, Option.getD_some]
    · have hclean : Clean s := by
        rcases hkept with hamber | hblink | hclean
        · rw [hrgb] at hamber
          cases hamber
        · exact absurd hblink ((not_blinking_iff _).mpr hb)
        · exact hclean
      rcases hregister with rfl | rfl
      · rw [hclean.1, shown_redFreq hrgb, hb]
        rfl
      · rw [hclean.2, shown_redPwm hrgb, hb]
        rfl

end

/-- The indicator shows what the winning state alone would, unless a blinking state's registers
survive under a steady one. -/
theorem indicator_fresh_iff (d : Device) (calls : List Call) :
    (∀ f ∈ indicatorFiles d, contents (exec (step d) boot calls) f =
        contents (set_speaker_light_locked d (winning calls) boot) f) ↔
      d.g_haveAmberLed = true ∨ Blinking (winning calls) ∨ Steady d calls := by
  have hinPlace : InPlace d (exec (step d) boot calls) :=
    (allStates_of_invariant (fun _ c h => h.step c) (inPlace_boot d) calls).last
  rw [← winner_exec d, hinPlace.fresh_iff]
  cases hamber : d.g_haveAmberLed with
  | true => simp
  | false => rw [clean_exec hamber]

/-- A timed notification and a steady one after it: the registers still hold 20 and 127. -/
theorem blink_survives : ¬ ∀ (d : Device) (calls : List Call), ∀ f ∈ indicatorFiles d,
    contents (exec (step d) boot calls) f =
      contents (set_speaker_light_locked d (winning calls) boot) f := by
  intro h
  have hfreq := h ⟨false, false⟩
    [.notifications ⟨0xff00ff00, LIGHT_FLASH_TIMED, 500, 500⟩, .notifications ⟨0xff00ff00, LIGHT_FLASH_NONE, 0, 0⟩]
    .redFreq (by decide)
  exact absurd hfreq (by decide)

end Lights
