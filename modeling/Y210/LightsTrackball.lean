import Mathlib.Data.List.Chain
import Y210.Lights

/-!
# The trackball

`handle_trackball_light_locked` skips a mode that `g_trackball` already holds. Nothing ever writes
`g_trackball`, so only the mode -1 is skipped.
-/
namespace LightsTrackball

open Run Lights

/-- The values written to a file, the last one first. -/
def written (f : File) (writes : List (File × Int32)) : List Int32 :=
  (writes.filter fun w => w.1 = f).map Prod.snd

/-- The calls that handle the trackball. -/
def handles : Call → Bool
  | .backlight _ | .notifications _ | .attention _ => true
  | .keyboard _ | .buttons _ | .battery _ => false

/-- `g_attention` after the calls. -/
def lastAttention (calls : List Call) : Int32 :=
  calls.foldl (fun last c => match c with
    | .attention state =>
      if state.flashMode = LIGHT_FLASH_HARDWARE then state.flashOnMS
      else if state.flashMode = LIGHT_FLASH_NONE then 0
      else last
    | _ => last) 0

/-- `g_backlight` after the calls. -/
def lastBacklight (calls : List Call) : Int32 :=
  calls.foldl (fun last c => match c with | .backlight state => rgb_to_brightness state | _ => last) 255

/-- The mode that the calls ask for. -/
def modeOf (calls : List Call) : Int32 :=
  if lastAttention calls = 7 ∧ lastBacklight calls ≠ 0 then 0 else lastAttention calls

section
variable (d : Device)

/-- No two consecutive writes to the trackball carry the same value. -/
def NoRepeat (calls : List Call) : Prop :=
  (written .trackball (exec (step d) boot calls).writes).IsChain (· ≠ ·)

/-- After each call that handles the trackball, the file was last written the mode of the globals. -/
def Follows (calls : List Call) : Prop :=
  ∀ first c, first ++ [c] <+: calls → handles c = true →
    lastWrite (exec (step d) boot (first ++ [c])).writes .trackball =
      some (trackballMode (exec (step d) boot (first ++ [c])))

end

/-- Every call that handles the trackball, but the first one, changes the mode; none makes it -1. -/
def Changing (calls : List Call) : Prop :=
  ∀ first c, first ++ [c] <+: calls → handles c = true →
    modeOf (first ++ [c]) ≠ -1 ∧ (first.any handles = true → modeOf (first ++ [c]) ≠ modeOf first)

/-! ## Calls one after the other -/

theorem not_concat_prefix_nil {first : List Call} {c : Call} : ¬ first ++ [c] <+: [] :=
  fun hp => absurd (List.prefix_nil.mp hp) (List.concat_ne_nil c first)

theorem forall_concat_prefix {P : List Call → Call → Prop} {calls : List Call} {c : Call} :
    (∀ first c', first ++ [c'] <+: calls ++ [c] → P first c') ↔
      (∀ first c', first ++ [c'] <+: calls → P first c') ∧ P calls c := by
  constructor
  · intro h
    exact ⟨fun first c' hp => h first c' (hp.trans (List.prefix_append calls [c])), h calls c List.prefix_rfl⟩
  · rintro ⟨hall, hlast⟩ first c' hp
    rcases List.prefix_concat_iff.mp hp with he | hp
    · obtain ⟨rfl, hc⟩ := List.append_inj' he rfl
      cases hc
      exact hlast
    · exact hall first c' hp

section
variable {d : Device} {calls : List Call} {c : Call}

theorem follows_concat : Follows d (calls ++ [c]) ↔ Follows d calls ∧ (handles c = true →
    lastWrite (exec (step d) boot (calls ++ [c])).writes .trackball =
      some (trackballMode (exec (step d) boot (calls ++ [c])))) := forall_concat_prefix

theorem changing_nil : Changing [] := fun _ _ hp => absurd hp not_concat_prefix_nil

theorem changing_concat : Changing (calls ++ [c]) ↔ Changing calls ∧ (handles c = true →
    modeOf (calls ++ [c]) ≠ -1 ∧ (calls.any handles = true → modeOf (calls ++ [c]) ≠ modeOf calls)) :=
  forall_concat_prefix

theorem lastWrite_eq_head (f : File) (writes : List (File × Int32)) :
    lastWrite writes f = (written f writes).head? := by
  unfold lastWrite written
  rw [List.head?_map, List.head?_filter]

theorem written_cons (f g : File) (value : Int32) (writes : List (File × Int32)) :
    written f ((g, value) :: writes) = if f = g then value :: written f writes else written f writes := by
  unfold written
  by_cases h : f = g
  · simp [h]
  · simp [h, Ne.symm h]

end

/-! ## One call -/

/-- The globals that the trackball depends on and the writes to its file are the same. -/
structure Same (s s' : State) : Prop where
  attention : s'.g_attention = s.g_attention
  backlight : s'.g_backlight = s.g_backlight
  trackball : s'.g_trackball = s.g_trackball
  file : written .trackball s'.writes = written .trackball s.writes

theorem Same.refl (s : State) : Same s s := ⟨rfl, rfl, rfl, rfl⟩

theorem Same.trans {s s' s'' : State} (h : Same s s') (h' : Same s' s'') : Same s s'' :=
  ⟨h'.attention.trans h.attention, h'.backlight.trans h.backlight, h'.trackball.trans h.trackball,
    h'.file.trans h.file⟩

theorem Same.mode {s s' : State} (h : Same s s') : trackballMode s' = trackballMode s := by
  unfold trackballMode
  rw [h.attention, h.backlight]

theorem same_write {f : File} (hf : f ≠ .trackball) (value : Int32) (s : State) : Same s (write_int f value s) :=
  ⟨rfl, rfl, rfl, by rw [write_int, written_cons, if_neg hf.symm]⟩

theorem same_speaker (d : Device) (state : LightState) (s : State) :
    Same s (set_speaker_light_locked d state s) := by
  have hnone : written .trackball (set_speaker_light_locked d state boot).writes = [] := by
    unfold set_speaker_light_locked
    by_cases hamber : d.g_haveAmberLed = false
    · cases hb : blink state <;> simp [hamber, write_int, written, boot]
    · by_cases hr : red state = 0
      · by_cases hg : green state = 0 <;> simp [hamber, hr, hg, write_int, written, boot]
      · simp [hamber, hr, write_int, written, boot]
  rw [speaker_writes]
  refine ⟨rfl, rfl, rfl, ?_⟩
  rw [written, List.filter_append, List.map_append]
  rw [written] at hnone
  rw [hnone]
  rfl

/-- The mode is written unless `g_trackball` holds it; the globals stay. -/
theorem handle_trackball (s : State) :
    (handle_trackball_light_locked s).g_attention = s.g_attention ∧
      (handle_trackball_light_locked s).g_backlight = s.g_backlight ∧
      (handle_trackball_light_locked s).g_trackball = s.g_trackball ∧
      written .trackball (handle_trackball_light_locked s).writes =
        if s.g_trackball = trackballMode s then written .trackball s.writes
        else trackballMode s :: written .trackball s.writes := by
  unfold handle_trackball_light_locked
  split
  · exact ⟨rfl, rfl, rfl, rfl⟩
  · refine ⟨rfl, rfl, rfl, ?_⟩
    rw [write_int, written_cons, if_pos rfl]

/-- A call that sets its globals, handles the trackball and goes on elsewhere. -/
theorem handled {s s' : State} (s₁ : State) (ht : s₁.g_trackball = s.g_trackball)
    (hw : written .trackball s₁.writes = written .trackball s.writes)
    (hrest : Same (handle_trackball_light_locked s₁) s') :
    s'.g_trackball = s.g_trackball ∧ written .trackball s'.writes =
      if s.g_trackball = trackballMode s' then written .trackball s.writes
      else trackballMode s' :: written .trackball s.writes := by
  obtain ⟨hattention, hbacklight, htrackball, hfile⟩ := handle_trackball s₁
  have hmode : trackballMode s' = trackballMode s₁ := by
    rw [hrest.mode, trackballMode, trackballMode, hattention, hbacklight]
  refine ⟨by rw [hrest.trackball, htrackball, ht], ?_⟩
  rw [hrest.file, hfile, hmode, ht, hw]

section
variable {d : Device} {c : Call}

theorem step_handled (hd : d.g_haveTrackballLight = true) (hc : handles c = true) (s : State) :
    (step d s c).g_trackball = s.g_trackball ∧ written .trackball (step d s c).writes =
      if s.g_trackball = trackballMode (step d s c) then written .trackball s.writes
      else trackballMode (step d s c) :: written .trackball s.writes := by
  cases c with
  | backlight state =>
    have hlcd := same_write (f := .lcd) (by decide) (rgb_to_brightness state)
      { s with g_backlight := rgb_to_brightness state }
    rw [step_backlight, set_light_backlight, if_pos hd]
    exact handled _ hlcd.trackball hlcd.file (Same.refl _)
  | notifications state =>
    rw [step_notifications, set_light_notifications, if_pos hd, handle_speaker_battery_eq]
    exact handled { s with g_notification := state } rfl rfl (same_speaker d _ _)
  | attention state =>
    rw [step_attention, set_light_attention, if_pos hd]
    refine handled _ ?_ ?_ (Same.refl _) <;> rfl
  | keyboard state | buttons state | battery state => cases hc

theorem step_same (hc : handles c = false) (s : State) : Same s (step d s c) := by
  cases c with
  | backlight state | notifications state | attention state => cases hc
  | keyboard state => exact same_write (f := .keyboard) (by decide) _ s
  | buttons state =>
    have hset : Same s { s with g_buttons := (state.color &&& 0x00ffffff).toInt32 } := ⟨rfl, rfl, rfl, rfl⟩
    exact hset.trans (same_write (f := .button) (by decide) _ _)
  | battery state =>
    have hset : Same s { s with g_battery := state } := ⟨rfl, rfl, rfl, rfl⟩
    rw [step_battery, set_light_battery, handle_speaker_battery_eq]
    refine Same.trans ?_ (same_speaker d _ _)
    split
    · exact hset.trans (same_speaker d state _)
    · exact hset

/-! ## The globals of a run -/

theorem step_globals (s : State) :
    (step d s c).g_attention = (match c with
      | .attention state =>
        if state.flashMode = LIGHT_FLASH_HARDWARE then state.flashOnMS
        else if state.flashMode = LIGHT_FLASH_NONE then 0
        else s.g_attention
      | _ => s.g_attention) ∧
    (step d s c).g_backlight = match c with
      | .backlight state => rgb_to_brightness state
      | _ => s.g_backlight := by
  cases c with
  | keyboard state | buttons state | battery state => exact ⟨(step_same rfl s).attention, (step_same rfl s).backlight⟩
  | backlight state =>
    rw [step_backlight, set_light_backlight]
    split
    · exact ⟨(handle_trackball _).1, (handle_trackball _).2.1⟩
    · exact ⟨rfl, rfl⟩
  | notifications state =>
    have hspeaker := same_speaker d
    rw [step_notifications, set_light_notifications, handle_speaker_battery_eq, (hspeaker _ _).attention,
      (hspeaker _ _).backlight]
    split
    · exact ⟨(handle_trackball _).1, (handle_trackball _).2.1⟩
    · exact ⟨rfl, rfl⟩
  | attention state =>
    rw [step_attention, set_light_attention]
    split
    · exact ⟨(handle_trackball _).1, (handle_trackball _).2.1⟩
    · exact ⟨rfl, rfl⟩

theorem lastAttention_concat (calls : List Call) (c : Call) : lastAttention (calls ++ [c]) = match c with
    | .attention state =>
      if state.flashMode = LIGHT_FLASH_HARDWARE then state.flashOnMS
      else if state.flashMode = LIGHT_FLASH_NONE then 0
      else lastAttention calls
    | _ => lastAttention calls := by
  simp only [lastAttention, List.foldl_concat]

theorem lastBacklight_concat (calls : List Call) (c : Call) : lastBacklight (calls ++ [c]) = match c with
    | .backlight state => rgb_to_brightness state
    | _ => lastBacklight calls := by
  simp only [lastBacklight, List.foldl_concat]

theorem exec_trackballMode (d : Device) (calls : List Call) :
    trackballMode (exec (step d) boot calls) = modeOf calls := by
  have hglobals : (exec (step d) boot calls).g_attention = lastAttention calls ∧
      (exec (step d) boot calls).g_backlight = lastBacklight calls := by
    induction calls using List.reverseRecOn with
    | nil => exact ⟨rfl, rfl⟩
    | append_singleton calls c ih =>
      obtain ⟨hattention, hbacklight⟩ := step_globals (d := d) (c := c) (exec (step d) boot calls)
      rw [exec_concat, hattention, hbacklight, ih.1, ih.2, lastAttention_concat, lastBacklight_concat]
      exact ⟨rfl, rfl⟩
  rw [trackballMode, hglobals.1, hglobals.2, modeOf]

end

/-! ## Runs -/

section
variable {d : Device} {calls : List Call} {c : Call}

theorem mode_of_not_handles (hc : handles c = false) : modeOf (calls ++ [c]) = modeOf calls := by
  rw [← exec_trackballMode ⟨true, false⟩, exec_concat, (step_same hc _).mode, exec_trackballMode]

theorem exec_g_trackball (hd : d.g_haveTrackballLight = true) (calls : List Call) :
    (exec (step d) boot calls).g_trackball = -1 := by
  induction calls using List.reverseRecOn with
  | nil => rfl
  | append_singleton calls c ih =>
    rw [exec_concat, ← ih]
    cases hc : handles c with
    | true => exact (step_handled hd hc _).1
    | false => exact (step_same hc _).trackball

theorem written_concat (hd : d.g_haveTrackballLight = true) (hc : handles c = true) (calls : List Call) :
    written .trackball (exec (step d) boot (calls ++ [c])).writes =
      if modeOf (calls ++ [c]) = -1 then written .trackball (exec (step d) boot calls).writes
      else modeOf (calls ++ [c]) :: written .trackball (exec (step d) boot calls).writes := by
  have hstep := (step_handled hd hc (exec (step d) boot calls)).2
  rw [← exec_concat, exec_trackballMode, exec_g_trackball hd] at hstep
  rw [hstep]
  exact if_congr eq_comm rfl rfl

/-- The mode -1 is never written. -/
theorem written_ne (hd : d.g_haveTrackballLight = true) (calls : List Call) :
    ∀ value ∈ written .trackball (exec (step d) boot calls).writes, value ≠ -1 := by
  induction calls using List.reverseRecOn with
  | nil => nofun
  | append_singleton calls c ih =>
    cases hc : handles c with
    | false =>
      rw [exec_concat, (step_same hc _).file]
      exact ih
    | true =>
      rw [written_concat hd hc]
      split
      · exact ih
      · rename_i hmode
        exact List.forall_mem_cons.mpr ⟨hmode, ih⟩

/-- The file shows the mode as soon as one call has handled the trackball. -/
theorem Follows.head (h : Follows d calls) : (written .trackball (exec (step d) boot calls).writes).head? =
    if calls.any handles then some (modeOf calls) else none := by
  induction calls using List.reverseRecOn with
  | nil => rfl
  | append_singleton calls c ih =>
    obtain ⟨hcalls, hlast⟩ := follows_concat.mp h
    rw [List.any_append, List.any_cons, List.any_nil, Bool.or_false]
    cases hc : handles c with
    | true =>
      rw [Bool.or_true, if_pos rfl, ← lastWrite_eq_head, hlast hc, exec_trackballMode]
    | false =>
      rw [Bool.or_false, exec_concat, (step_same hc _).file, mode_of_not_handles hc]
      exact ih hcalls

/-- What one more call must do to keep a good run good. -/
theorem good_concat (hd : d.g_haveTrackballLight = true) (hrepeat : NoRepeat d calls) (hfollows : Follows d calls) :
    NoRepeat d (calls ++ [c]) ∧ Follows d (calls ++ [c]) ↔ (handles c = true →
      modeOf (calls ++ [c]) ≠ -1 ∧ (calls.any handles = true → modeOf (calls ++ [c]) ≠ modeOf calls)) := by
  rw [follows_concat, and_iff_right hfollows]
  cases hc : handles c with
  | false =>
    refine iff_of_true ⟨?_, nofun⟩ nofun
    rw [NoRepeat, exec_concat, (step_same hc _).file]
    exact hrepeat
  | true =>
    rw [NoRepeat, lastWrite_eq_head, exec_trackballMode, written_concat hd hc]
    by_cases hskip : modeOf (calls ++ [c]) = -1
    · -- nothing is written, and the file never shows -1
      refine iff_of_false (fun h => ?_) fun h => (h rfl).1 hskip
      have hlast := h.2 rfl
      rw [if_pos hskip] at hlast
      exact written_ne hd calls _ (List.mem_of_mem_head? hlast) hskip
    · rw [if_neg hskip, List.isChain_cons, hfollows.head, List.head?_cons]
      constructor
      · rintro ⟨⟨hhead, -⟩, -⟩ -
        refine ⟨hskip, fun hany => hhead _ ?_⟩
        rw [if_pos hany]
        rfl
      · intro h
        refine ⟨⟨fun value hvalue => ?_, hrepeat⟩, fun _ => rfl⟩
        split at hvalue
        · rename_i hany
          cases hvalue
          exact (h rfl).2 hany
        · cases hvalue

theorem NoRepeat.before (hd : d.g_haveTrackballLight = true) (h : NoRepeat d (calls ++ [c])) : NoRepeat d calls := by
  unfold NoRepeat at h ⊢
  cases hc : handles c with
  | false =>
    rw [exec_concat, (step_same hc _).file] at h
    exact h
  | true =>
    rw [written_concat hd hc] at h
    split at h
    · exact h
    · exact (List.isChain_cons.mp h).2

end

/-- The trackball is written as it should be in exactly the runs whose calls change its mode. -/
theorem trackball_iff (d : Device) (hd : d.g_haveTrackballLight = true) (calls : List Call) :
    NoRepeat d calls ∧ Follows d calls ↔ Changing calls := by
  induction calls using List.reverseRecOn with
  | nil =>
    have hfollows : Follows d [] := fun _ _ hp => absurd hp not_concat_prefix_nil
    exact iff_of_true ⟨.nil, hfollows⟩ changing_nil
  | append_singleton calls c ih =>
    rw [changing_concat]
    constructor
    · intro hgood
      have hbefore : NoRepeat d calls ∧ Follows d calls := ⟨hgood.1.before hd, (follows_concat.mp hgood.2).1⟩
      exact ⟨ih.mp hbefore, (good_concat hd hbefore.1 hbefore.2).mp hgood⟩
    · rintro ⟨hchanging, hlast⟩
      have hbefore := ih.mpr hchanging
      exact (good_concat hd hbefore.1 hbefore.2).mpr hlast

/-- A breathing attention that waits for the backlight to go out: modes 0 and 7. -/
theorem attention_then_dark : NoRepeat ⟨true, false⟩
      [.attention ⟨0, LIGHT_FLASH_HARDWARE, 7, 0⟩, .backlight ⟨0, LIGHT_FLASH_NONE, 0, 0⟩] ∧
    Follows ⟨true, false⟩ [.attention ⟨0, LIGHT_FLASH_HARDWARE, 7, 0⟩, .backlight ⟨0, LIGHT_FLASH_NONE, 0, 0⟩] := by
  refine (trackball_iff ⟨true, false⟩ rfl _).mpr ?_
  have hfirst : Changing ([] ++ [.attention ⟨0, LIGHT_FLASH_HARDWARE, 7, 0⟩]) :=
    changing_concat.mpr ⟨changing_nil, fun _ => by decide⟩
  exact changing_concat.mpr ⟨hfirst, fun _ => by decide⟩

/-- Two notifications write the mode 0 twice. -/
theorem notifications_repeat : ¬ ∀ d : Device, d.g_haveTrackballLight = true → ∀ calls,
    NoRepeat d calls ∧ Follows d calls := by
  intro h
  have hrepeat := (h ⟨true, false⟩ rfl [.notifications zeroState, .notifications zeroState]).1
  unfold NoRepeat at hrepeat
  exact absurd hrepeat (by decide)

end LightsTrackball
