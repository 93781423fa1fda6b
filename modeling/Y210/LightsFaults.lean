import Mathlib.Data.List.Induction
import Y210.Lights

/-!
# The lights HAL on files that refuse

Any `write_int` may fail to open its file, or to write to it. The code looks at no result but to hand
it on, so the device makes the same attempts; a file that refused one holds what it was last written.
-/
namespace LightsFaults

open Run Lights

/-- How a `write_int` ends; the errors carry `errno`. -/
inductive Answer where
  | written
  | unopened (errno : Int32)
  | refused (errno : Int32)
  deriving DecidableEq, Repr

structure Platform where
  device : Device
  /-- The answer to each `write_int`. -/
  answers : Nat → Answer

structure Attempt where
  file : File
  value : Int32
  accepted : Bool
  deriving DecidableEq, Repr

/-- The globals, the warnings that were logged and the attempts, the last one first. -/
structure World where
  g_notification : LightState
  g_battery : LightState
  g_backlight : Int32
  g_trackball : Int32
  g_buttons : Int32
  g_attention : Int32
  already_warned : Bool
  warnings : List File
  attempts : List Attempt

def boot : World := ⟨zeroState, zeroState, 255, -1, 0, 0, false, [], []⟩

/-- What `write_int` returns. -/
def Answer.code : Answer → Int32
  | .written => 0
  | .unopened errno | .refused errno => -errno

/-! ## The functions -/

section
variable (p : Platform)

def write_int (f : File) (value : Int32) (w : World) : World × Int32 :=
  let answer := p.answers w.attempts.length
  let w := { w with attempts := ⟨f, value, answer = .written⟩ :: w.attempts }
  match answer with
  | .unopened _ =>
    -- only the first file that cannot be opened is logged
    let warnings := if w.already_warned then w.warnings else f :: w.warnings
    ({ w with already_warned := true, warnings := warnings }, answer.code)
  | _ => (w, answer.code)

def handle_trackball_light_locked (w : World) : World × Int32 :=
  let mode := if w.g_attention = 7 ∧ w.g_backlight ≠ 0 then 0 else w.g_attention
  if w.g_trackball = mode then (w, 0) else write_int p .trackball mode w

def set_speaker_light_locked (state : LightState) (w : World) : World × Int32 :=
  if p.device.g_haveAmberLed = false then
    let w := (write_int p .redLed (red state) w).1
    let w := (write_int p .greenLed (green state) w).1
    let w := (write_int p .blueLed (blue state) w).1
    if blink state then
      let w := (write_int p .redFreq (freq state) w).1
      let w := (write_int p .redPwm (pwm state) w).1
      (w, 0)
    else (w, 0)
  else
    let w :=
      if red state ≠ 0 then (write_int p .greenLed 0 (write_int p .amberLed 1 w).1).1
      else if green state ≠ 0 then (write_int p .greenLed 1 (write_int p .amberLed 0 w).1).1
      else (write_int p .amberLed 0 (write_int p .greenLed 0 w).1).1
    ((write_int p .amberBlink (if blink state then 1 else 0) w).1, 0)

def handle_speaker_battery_locked (w : World) : World :=
  if is_lit w.g_battery then (set_speaker_light_locked p w.g_battery w).1
  else (set_speaker_light_locked p w.g_notification w).1

def set_light_backlight (state : LightState) (w : World) : World × Int32 :=
  let w := { w with g_backlight := rgb_to_brightness state }
  let (w, err) := write_int p .lcd (rgb_to_brightness state) w
  let w := if p.device.g_haveTrackballLight then (handle_trackball_light_locked p w).1 else w
  (w, err)

def set_light_keyboard (state : LightState) (w : World) : World × Int32 :=
  write_int p .keyboard (if is_lit state then 255 else 0) w

def set_light_buttons (state : LightState) (w : World) : World × Int32 :=
  let w := { w with g_buttons := (state.color &&& 0x00ffffff).toInt32 }
  write_int p .button (if is_lit state then 255 else 0) w

def set_light_battery (state : LightState) (w : World) : World × Int32 :=
  let w := { w with g_battery := state }
  let w := if p.device.g_haveTrackballLight then (set_speaker_light_locked p state w).1 else w
  (handle_speaker_battery_locked p w, 0)

def set_light_notifications (state : LightState) (w : World) : World × Int32 :=
  let w := { w with g_notification := state }
  let w := if p.device.g_haveTrackballLight then (handle_trackball_light_locked p w).1 else w
  (handle_speaker_battery_locked p w, 0)

def set_light_attention (state : LightState) (w : World) : World × Int32 :=
  let attention :=
    if state.flashMode = LIGHT_FLASH_HARDWARE then state.flashOnMS
    else if state.flashMode = LIGHT_FLASH_NONE then 0
    else w.g_attention
  let w := { w with g_attention := attention }
  let w := if p.device.g_haveTrackballLight then (handle_trackball_light_locked p w).1 else w
  (w, 0)

def set_light (w : World) : Call → World × Int32
  | .backlight state => set_light_backlight p state w
  | .keyboard state => set_light_keyboard p state w
  | .buttons state => set_light_buttons p state w
  | .battery state => set_light_battery p state w
  | .notifications state => set_light_notifications p state w
  | .attention state => set_light_attention p state w

def step (w : World) (c : Call) : World := (set_light p w c).1

end

/-! ## The files -/

/-- The last value that the file accepted. -/
def lastAccepted (attempts : List Attempt) (f : File) : Option Int32 :=
  (attempts.find? fun a => a.file = f && a.accepted).map Attempt.value

/-- A file that accepted nothing holds 0. -/
def contents (w : World) (f : File) : Int32 := (lastAccepted w.attempts f).getD 0

/-- The last attempt at the file failed. -/
def Refused (attempts : List Attempt) (f : File) : Prop :=
  ∃ a, attempts.find? (fun a => a.file = f) = some a ∧ a.accepted = false

/-- The device without the answers: each attempt counts as a write. -/
def plain (w : World) : State :=
  ⟨w.g_notification, w.g_battery, w.g_backlight, w.g_trackball, w.g_buttons, w.g_attention,
    w.attempts.map fun a => (a.file, a.value)⟩

/-- What a call returns behind others: the state of its own file, or 0 for the indicator and the trackball. -/
def returned (p : Platform) (calls : List Call) : Call → Int32
  | .backlight _ | .keyboard _ | .buttons _ =>
    (p.answers (exec (Lights.step p.device) Lights.boot calls).writes.length).code
  | .battery _ | .notifications _ | .attention _ => 0

/-! ## Attempts -/

section
variable {p : Platform} {f g : File} {attempts : List Attempt} {a : Attempt}

theorem plain_write_int (f : File) (value : Int32) (w : World) :
    plain (write_int p f value w).1 = Lights.write_int f value (plain w) := by
  unfold write_int
  dsimp only
  split <;> rfl

theorem write_int_code (f : File) (value : Int32) (w : World) :
    (write_int p f value w).2 = (p.answers w.attempts.length).code := by
  unfold write_int
  dsimp only
  split <;> rfl

/-- A file holds the last value it was sent, unless it refused that. -/
theorem lastAccepted_or_refused (attempts : List Attempt) (f : File) :
    lastAccepted attempts f = lastWrite (attempts.map fun a => (a.file, a.value)) f ∨ Refused attempts f := by
  induction attempts with
  | nil => exact .inl rfl
  | cons a attempts ih =>
    by_cases hf : a.file = f
    · cases ha : a.accepted with
      | true => left; simp [lastAccepted, lastWrite, hf, ha]
      | false => exact .inr ⟨a, by simp [hf], ha⟩
    · simpa [lastAccepted, lastWrite, Refused, hf] using ih

end

/-! ## Calls -/

section
variable {p : Platform} (w : World)

theorem plain_trackball :
    plain (handle_trackball_light_locked p w).1 = Lights.handle_trackball_light_locked (plain w) := by
  unfold handle_trackball_light_locked Lights.handle_trackball_light_locked trackballMode
  simp only [apply_ite Prod.fst, apply_ite plain, plain_write_int]
  rfl

theorem plain_speaker (state : LightState) :
    plain (set_speaker_light_locked p state w).1 =
      Lights.set_speaker_light_locked p.device state (plain w) := by
  unfold set_speaker_light_locked Lights.set_speaker_light_locked
  simp only [apply_ite Prod.fst, apply_ite plain, plain_write_int]

theorem plain_battery :
    plain (handle_speaker_battery_locked p w) = Lights.handle_speaker_battery_locked p.device (plain w) := by
  unfold handle_speaker_battery_locked Lights.handle_speaker_battery_locked
  rw [apply_ite plain, plain_speaker, plain_speaker]
  rfl

/-- A call makes the attempts that it makes when nothing fails, and the same globals. -/
theorem plain_step (c : Call) : plain (step p w c) = Lights.step p.device (plain w) c := by
  cases c with
  | backlight state =>
    simp only [step, set_light, set_light_backlight, Lights.step, Lights.set_light_backlight,
      apply_ite plain, plain_trackball, plain_write_int]
    rfl
  | keyboard state => exact plain_write_int _ _ _
  | buttons state => exact plain_write_int _ _ _
  | battery state =>
    simp only [step, set_light, set_light_battery, Lights.step, Lights.set_light_battery, plain_battery,
      apply_ite plain, plain_speaker]
    rfl
  | notifications state =>
    simp only [step, set_light, set_light_notifications, Lights.step, Lights.set_light_notifications,
      plain_battery, apply_ite plain, plain_trackball]
    rfl
  | attention state =>
    simp only [step, set_light, set_light_attention, Lights.step, Lights.set_light_attention,
      apply_ite plain, plain_trackball]
    rfl

/-- What a call returns. -/
theorem set_light_code (c : Call) : (set_light p w c).2 = match c with
    | .backlight _ | .keyboard _ | .buttons _ => (p.answers w.attempts.length).code
    | .battery _ | .notifications _ | .attention _ => 0 := by
  cases c with
  | backlight state => exact write_int_code _ _ _
  | keyboard state => exact write_int_code _ _ _
  | buttons state => exact write_int_code _ _ _
  | battery state => rfl
  | notifications state => rfl
  | attention state => rfl

end

/-! ## The warning -/

/-- One warning is logged, when the first file cannot be opened. -/
def Warned (w : World) : Prop := w.warnings.length = if w.already_warned then 1 else 0

section
variable {p : Platform} {w : World}

theorem Warned.write_int (h : Warned w) (f : File) (value : Int32) : Warned (write_int p f value w).1 := by
  unfold Warned at h
  unfold LightsFaults.write_int
  dsimp only
  split
  · cases hw : w.already_warned with
    | true => simpa [Warned, hw] using h
    | false => simpa [Warned, hw] using h
  · exact h

theorem Warned.trackball (h : Warned w) : Warned (handle_trackball_light_locked p w).1 := by
  unfold handle_trackball_light_locked
  generalize (if w.g_attention = 7 ∧ w.g_backlight ≠ 0 then 0 else w.g_attention) = mode
  dsimp only
  split
  · exact h
  · exact h.write_int _ _

theorem Warned.speaker (h : Warned w) (state : LightState) : Warned (set_speaker_light_locked p state w).1 := by
  unfold set_speaker_light_locked
  split
  · have hrgb := ((h.write_int (p := p) .redLed (red state)).write_int (p := p) .greenLed (green state)).write_int
      (p := p) .blueLed (blue state)
    dsimp only
    split
    · exact (hrgb.write_int _ _).write_int _ _
    · exact hrgb
  · refine Warned.write_int ?_ _ _
    split
    · exact (h.write_int _ _).write_int _ _
    · split
      · exact (h.write_int _ _).write_int _ _
      · exact (h.write_int _ _).write_int _ _

theorem Warned.battery (h : Warned w) : Warned (handle_speaker_battery_locked p w) := by
  unfold handle_speaker_battery_locked
  split
  · exact h.speaker _
  · exact h.speaker _

theorem Warned.step (h : Warned w) (c : Call) : Warned (step p w c) := by
  have htrackball : ∀ w : World, Warned w →
      Warned (if p.device.g_haveTrackballLight then (handle_trackball_light_locked p w).1 else w) := by
    intro w h
    split
    · exact h.trackball
    · exact h
  cases c with
  | backlight state =>
    refine htrackball (LightsFaults.write_int p .lcd (rgb_to_brightness state) { w with g_backlight := _ }).1 ?_
    exact Warned.write_int (w := { w with g_backlight := rgb_to_brightness state }) h _ _
  | keyboard state => exact h.write_int _ _
  | buttons state =>
    exact Warned.write_int (w := { w with g_buttons := (state.color &&& 0x00ffffff).toInt32 }) h _ _
  | battery state =>
    refine Warned.battery ?_
    split
    · exact Warned.speaker (w := { w with g_battery := state }) h state
    · exact h
  | notifications state => exact (htrackball { w with g_notification := state } h).battery
  | attention state => exact htrackball { w with g_attention := _ } h

end

/-! ## Runs -/

section
variable (p : Platform) (calls : List Call)

theorem plain_exec : plain (exec (step p) boot calls) = exec (Lights.step p.device) Lights.boot calls := by
  induction calls using List.reverseRecOn with
  | nil => rfl
  | append_singleton calls c ih =>
    rw [Lights.exec_concat, exec_append, exec_cons, exec_nil, plain_step, ih]

theorem attempts_length :
    (exec (step p) boot calls).attempts.length = (exec (Lights.step p.device) Lights.boot calls).writes.length := by
  rw [← plain_exec]
  simp [plain]

/-- Whatever fails: the globals and the attempts are those of a run in which nothing fails, one warning is
logged at most, and the next call returns its own file's error; that of the indicator or the trackball it
never returns. -/
theorem failures_contained : plain (exec (step p) boot calls) = exec (Lights.step p.device) Lights.boot calls ∧
    Warned (exec (step p) boot calls) ∧
    ∀ c, (set_light p (exec (step p) boot calls) c).2 = returned p calls c := by
  have hboot : Warned boot := rfl
  have hwarned : AllStates (step p) Warned boot calls := allStates_of_invariant (fun _ c h => h.step c) hboot calls
  refine ⟨plain_exec p calls, hwarned.last, fun c => ?_⟩
  rw [set_light_code, attempts_length]
  rfl

/-- Whatever failed before, each file of the indicator shows the winning state, if that writes the file,
or has refused the last attempt. -/
theorem indicator_or_refused : ∀ f ∈ indicatorFiles p.device, ∀ x ∈ shown p.device (winning calls) f,
    contents (exec (step p) boot calls) f = x ∨ Refused (exec (step p) boot calls).attempts f := by
  intro f hf x hx
  have hinPlace : InPlace p.device (exec (Lights.step p.device) Lights.boot calls) :=
    (allStates_of_invariant (fun _ c h => h.step c) (inPlace_boot p.device) calls).last
  have hshown := hinPlace f hf x (winner_exec p.device calls ▸ hx)
  rw [← plain_exec] at hshown
  refine (lastAccepted_or_refused (exec (step p) boot calls).attempts f).imp_left fun hlast => ?_
  rw [contents, hlast]
  exact hshown

end

/-- The second write is refused. -/
def flaky : Platform := ⟨⟨false, false⟩, fun n => if n = 1 then .refused 5 else .written⟩

theorem indicator_or_refused_green :
    contents (exec (step flaky) boot [.notifications ⟨0xff00ff00, LIGHT_FLASH_NONE, 0, 0⟩]) .greenLed = 255 ∨
      Refused (exec (step flaky) boot [.notifications ⟨0xff00ff00, LIGHT_FLASH_NONE, 0, 0⟩]).attempts .greenLed :=
  indicator_or_refused flaky [.notifications ⟨0xff00ff00, LIGHT_FLASH_NONE, 0, 0⟩] .greenLed (by decide) 255 (by decide)

end LightsFaults
