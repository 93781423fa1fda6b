import Y210.AudioCalls
import Y210.Typestate

/-!
# The audio session of the FM radio

`/dev/msm_fm` is opened, started, stopped and closed by `run_fm_audmgr_session` behind the
`fm_on` and `fm_off` pairs. Any of the calls may fail, and the radio stays on without a session.
-/
namespace AudioFm

open AudioDrivers AudioHardware AudioStreams AudioRouting AudioCalls Typestate

variable {p : Platform}

/-- The node; `ended` is a session that can only be closed any more. -/
inductive Session where
  | closed | opened | started | ended
  deriving DecidableEq, Repr

/-- The calls in turn: a session is started once and stopped before it is closed. -/
def Session.next : Session → FmCall → Option Session
  | .closed, .opened ok => some (if ok then .opened else .closed)
  | .opened, .started ok => some (if ok then .started else .ended)
  | .started, .stopped => some .ended
  | .ended, .closed => some .closed
  | _, _ => none

def fmProtocol : Protocol FmCall Unit Session := ⟨fun _ => some (), .closed, Session.next⟩

/-- The driver's last answer to an `open` or to `AUDIO_START`. -/
def answered : List FmCall → Bool
  | [] => false
  | .opened ok :: _ | .started ok :: _ => ok
  | _ :: older => answered older

/-- The calls came in turn; the session is started exactly when there is a descriptor, which is when
the radio is on and the last try to start it did not fail. -/
structure Kept (w : World) : Prop where
  session : stage fmProtocol w.fm () = some (if 0 ≤ w.hw.fmfd then .started else .closed)
  held : 0 ≤ w.hw.fmfd ↔ w.hw.mFmRadioEnabled = true ∧ answered w.fm = true

/-! ## Off and on -/

theorem Kept.moves {w : World} (h : Kept w) : Moves fmProtocol () w.fm w.fm
    (if 0 ≤ w.hw.fmfd then .started else .closed) := by
  refine .refl (fun _ => ?_) h.session
  rw [h.session]
  rfl

theorem Kept.of_moves {w : World} {log : List FmCall} {s : Session} (h : Moves fmProtocol () log w.fm s)
    (hs : s = if 0 ≤ w.hw.fmfd then .started else .closed)
    (hheld : 0 ≤ w.hw.fmfd ↔ w.hw.mFmRadioEnabled = true ∧ answered w.fm = true) : Kept w :=
  ⟨hs ▸ h.stage, hheld⟩

theorem kept_on {w : World} (h : Kept w) : Kept (setFmOnOff p true w) := by
  have hmoves := h.moves
  unfold setFmOnOff run_fm_audmgr_session
  by_cases hfd : 0 ≤ w.hw.fmfd
  · simp only [hfd, if_true] at hmoves ⊢
    refine .of_moves hmoves (if_pos hfd).symm ?_
    simpa [hfd] using (h.held.mp hfd).2
  · simp only [hfd, if_true, if_false] at hmoves ⊢
    have hopen := fun ok => hmoves.event (e := .opened ok) rfl rfl
    by_cases hopened : p.fmOk w.fm.length = false
    · simp only [hopened, if_true]
      refine .of_moves (hopen false) (if_neg hfd).symm ?_
      simp [answered, hfd]
    · rw [Bool.not_eq_false] at hopened
      have hstart := fun ok => (hopen true).event (e := .started ok) rfl rfl
      by_cases hstarted : p.fmOk (w.fm.length + 1) = false
      · simp only [hopened, List.length_cons, hstarted, if_true, Bool.true_eq_false, if_false]
        refine .of_moves ((hstart false).event (e := .closed) rfl rfl) (if_neg hfd).symm ?_
        simp [answered, hfd]
      · simp only [hopened, List.length_cons, hstarted, Bool.true_eq_false, if_false]
        have hnew : (0 : Int) ≤ ((w.fm.length + 1 : Nat) : Int) := Int.natCast_nonneg _
        refine .of_moves (hstart true) (if_pos hnew).symm ?_
        simpa [answered] using hnew

theorem kept_off {w : World} (h : Kept w) : Kept (setFmOnOff p false w) := by
  have hmoves := h.moves
  unfold setFmOnOff run_fm_audmgr_session
  by_cases hfd : 0 ≤ w.hw.fmfd
  · simp only [hfd, if_true, Bool.false_eq_true, if_false] at hmoves ⊢
    have hstop := hmoves.event (e := .stopped) rfl rfl
    refine .of_moves (hstop.event (e := .closed) rfl rfl) rfl ?_
    simp
  · simp only [hfd, Bool.false_eq_true, if_false] at hmoves ⊢
    refine .of_moves hmoves (if_neg hfd).symm ?_
    simp [hfd]

theorem kept_switchFm {w : World} (on off : Bool) (h : Kept w) : Kept (switchFm p on off w) := by
  have hon : Kept (if on then setFmOnOff p true w else w) := by
    cases on with
    | true => exact kept_on h
    | false => exact h
  cases off with
  | true => exact kept_off (p := p) hon
  | false => exact hon

/-! ## The other calls -/

/-- What a world stores of the radio. -/
def radioOf (w : World) : List FmCall × Bool × Int := (w.fm, w.hw.mFmRadioEnabled, w.hw.fmfd)

theorem kept_congr {w w' : World} (he : radioOf w' = radioOf w) (h : Kept w) : Kept w' := by
  simp only [radioOf, Prod.mk.injEq] at he
  obtain ⟨hlog, hon, hfd⟩ := he
  constructor
  · rw [hlog, hfd]
    exact h.session
  · rw [hlog, hon, hfd]
    exact h.held

theorem radioOf_doAudioRouteOrMute (device : Int) (w : World) :
    radioOf (doAudioRouteOrMute p device w).1 = radioOf w := by
  unfold doAudioRouteOrMute
  dsimp only
  split <;> rfl

theorem radioOf_postproc (state : Bool) (w : World) : radioOf (msm72xx_enable_postproc p state w).1 = radioOf w := by
  obtain ⟨log, h⟩ := postproc_frame (p := p) state w
  rw [h]
  rfl

theorem radioOf_applyRoute (device : Int) (mask : BitVec 32) (w : World) :
    radioOf (applyRoute p device mask w).1 = radioOf w := by
  have hroute := radioOf_doAudioRouteOrMute (p := p) device w
  unfold applyRoute
  dsimp only
  by_cases hp : (doAudioRouteOrMute p device w).1.hw.playback_in_progress = true
  · obtain ⟨log, h⟩ := postproc_frame (p := p) false (doAudioRouteOrMute p device w).1
    simp only [hp, if_true, h]
    exact (radioOf_postproc true _).trans hroute
  · simp only [hp, Bool.false_eq_true, if_false]
    exact hroute

theorem radioOf_doRouting (input : Option Devices) (w : World) : radioOf (doRouting p input w).1 = radioOf w := by
  have hselect : radioOf { w with hw := selectMic w.hw input } = radioOf w := by
    cases input <;> rfl
  by_cases h : Sends p input w
  · rw [doRouting_of_sends h, radioOf_applyRoute, hselect]
  · rw [doRouting_of_not_sends h, hselect]

theorem radioOf_set_volume_rpc (device : Int) (method volume : Nat) (w : World) :
    radioOf (set_volume_rpc p device method volume w).1 = radioOf w := by
  unfold set_volume_rpc sndSetVolume
  repeat' split
  · rfl
  all_goals
    rename_i h
    obtain ⟨rfl, -⟩ := Prod.mk.inj h
    rfl

theorem radioOf_played {w w' : World} (h : Played w w') : radioOf w' = radioOf w := by
  obtain ⟨_, _, _, _, rfl⟩ := h
  rfl

theorem kept_call (w : World) (c : Call) (h : Kept w) : Kept (call p w c) := by
  cases c with
  | setFm on off => exact kept_congr (radioOf_doRouting none _) (kept_switchFm on off h)
  | doRouting input => exact kept_congr (radioOf_doRouting input w) h
  | reroute input => exact kept_congr (w := w) (radioOf_doRouting input (clearCurDevice w)) h
  | setMode mode =>
    refine kept_congr ?_ h
    rw [call, setMode]
    split <;> rfl
  | setMicMute state =>
    refine kept_congr ?_ h
    simp only [call, setMicMute, setMicMute_nosync]
    split
    · exact radioOf_doAudioRouteOrMute _ _
    · rfl
  | setVoiceVolume v => exact kept_congr (radioOf_set_volume_rpc _ _ _ w) h
  | setFmVolume v => exact kept_congr (w := w) (radioOf_set_volume_rpc _ _ _ _) h
  | openOutputStream devices a => exact kept_congr (radioOf_played (openOutputStream_played devices a w)) h
  | closeOutputStream => exact kept_congr (radioOf_played (closeOutputStream_played w)) h
  | setOutDevices devices => exact kept_congr (radioOf_played (setOutDevices_played devices w)) h
  | write buffer answers => exact kept_congr (radioOf_played (played_law.write buffer answers w)) h
  | outStandby => exact kept_congr (radioOf_played (played_law.outStandby w)) h
  | setSettings | record | setProperty => exact kept_congr (w := w) rfl h

/-! ## Runs -/

theorem kept_boot : Kept (boot p) := by
  refine ⟨rfl, ?_⟩
  simp [boot, newHal, answered]

end AudioFm
