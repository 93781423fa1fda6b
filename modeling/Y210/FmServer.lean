import Y210.FmInit
import Y210.Run

/-!
# The property of the FM radio

`FMRadioService` takes `hw.fm.init` for a sign that `fminit` serves. The laws below say which
steps leave the property at "1" without a server.
-/
namespace FmServer

open FmInit

/-- A process that holds the device open still accepts connections. -/
def Serving (w : World) : Prop := ∃ pid, w.server = some pid ∧ (w.fminits pid).radiofd ≠ none

/-- The property promises a server. -/
def Promised (w : World) : Prop := w.hw_fm_init = .one → Serving w

/-- The call ends a process that serves: the loop breaks, or a signal kills it. -/
def ends : Fminit → Outcome → Bool
  | .accept _, .failed | .accept _, .killed | .send_fd _ _, .killed => true
  | _, _ => false

/-- No process that serves ends while the property is "1", and the script sets it only where a
process serves. -/
def Harmless (w : World) : Event → Prop
  | .fminit pid r => ends (w.fminits pid) r = true → w.hw_fm_init ≠ .one
  | .script i r => w.scripts i = .setprop → r = .ok → Serving w
  | _ => True

/-! ## Who serves -/

section
variable {w w' : World} {pid : Nat} {x : Fminit} {r : Outcome}

theorem serving_iff (hs : w.server = some pid) : Serving w ↔ (w.fminits pid).radiofd ≠ none := by
  constructor
  · rintro ⟨q, hq, hfd⟩
    obtain rfl : pid = q := Option.some.inj (hs.symm.trans hq)
    exact hfd
  · intro hfd
    exact ⟨pid, hs, hfd⟩

theorem not_serving (hs : w.server = none) : ¬ Serving w := by
  rintro ⟨q, hq, -⟩
  rw [hs] at hq
  cases hq

theorem serving_congr (hf : w'.fminits = w.fminits) (hs : w'.server = w.server) : Serving w' ↔ Serving w := by
  unfold Serving
  rw [hf, hs]

/-- The process of the socket moves on and has the device. -/
theorem serving_moves (hs : w.server = some pid) (hf : w'.fminits = Function.update w.fminits pid x)
    (hs' : w'.server = w.server) (hx : x.radiofd ≠ none) : Serving w' := by
  refine ⟨pid, hs'.trans hs, ?_⟩
  rw [hf, Function.update_self]
  exact hx

/-- Another process moves on. -/
theorem serving_other (hs : w.server ≠ some pid) (hf : w'.fminits = Function.update w.fminits pid x)
    (hs' : w'.server = w.server) : Serving w' ↔ Serving w := by
  unfold Serving
  rw [hf, hs']
  refine exists_congr fun q => and_congr_right fun hq => ?_
  have hne : q ≠ pid := by
    rintro rfl
    exact hs hq
  rw [Function.update_of_ne hne]

theorem Promised.other (h : Promised w) (hs : w.server ≠ some pid)
    (hf : w'.fminits = Function.update w.fminits pid x) (hs' : w'.server = w.server)
    (hi : w'.hw_fm_init = w.hw_fm_init) : Promised w' := by
  intro hone
  rw [hi] at hone
  exact (serving_other hs hf hs').mpr (h hone)

theorem promised_moves (hs : w.server = some pid) (hf : w'.fminits = Function.update w.fminits pid x)
    (hs' : w'.server = w.server) (hx : x.radiofd ≠ none) : Promised w' := fun _ => serving_moves hs hf hs' hx

theorem promised_exit (pid : Nat) (w : World) : Promised (exit pid w) ↔ w.hw_fm_init ≠ .one := by
  obtain ⟨c, hc⟩ := exit_frame pid w
  rw [hc]
  constructor
  · intro h hone
    exact not_serving rfl (h hone)
  · intro hne hone
    exact absurd hone hne

/-! ## One step -/

theorem fminit_ends (hends : ends (w.fminits pid) r = true) :
    Promised (fminit pid r w) ↔ w.hw_fm_init ≠ .one := by
  unfold fminit
  cases hp : w.fminits pid with
  | accept fd =>
    rw [hp] at hends
    cases r with
    | failed | killed => exact promised_exit pid w
    | ok | interrupted => cases hends
  | send_fd fd conn =>
    rw [hp] at hends
    cases r with
    | killed =>
      obtain ⟨c, hc⟩ := hangUp_frame conn w
      dsimp only
      rw [hc]
      exact promised_exit pid _
    | ok | failed | interrupted => cases hends
  | _ =>
    rw [hp] at hends
    cases hends

theorem fminit_keeps (h : Exclusive w) (hP : Promised w) {r : Outcome} (hends : ends (w.fminits pid) r = false) :
    Promised (fminit pid r w) := by
  unfold fminit
  cases hp : w.fminits pid with
  | absent | exited => exact hP
  | property_get => exact hP.other (h.not_server hp rfl) rfl rfl rfl
  | socket_local_server =>
    dsimp only
    split
    · rename_i hc
      intro hone
      exact absurd (hP hone) (not_serving hc.2)
    · exact hP.other (h.not_server hp rfl) rfl rfl rfl
  | «open» =>
    have hs := h.server hp rfl
    dsimp only
    split
    · exact promised_moves hs rfl rfl (Option.some_ne_none _)
    · -- nothing was promised while the device was not open
      rw [promised_exit]
      intro hone
      have hfd := (serving_iff hs).mp (hP hone)
      rw [hp] at hfd
      exact hfd rfl
  | load_firmware fd =>
    have hs := h.server hp rfl
    cases r <;> exact promised_moves hs rfl rfl (Option.some_ne_none fd)
  | fork fd | waitpid fd | property_set fd =>
    have hs := h.server hp rfl
    cases r <;> exact promised_moves hs rfl rfl (Option.some_ne_none fd)
  | accept fd =>
    have hs := h.server hp rfl
    rw [hp] at hends
    cases r with
    | ok =>
      cases hb : w.backlog with
      | nil => exact hP
      | cons conn rest => exact promised_moves hs rfl rfl (Option.some_ne_none fd)
    | interrupted => exact hP
    | failed | killed => cases hends
  | send_fd fd conn =>
    have hs := h.server hp rfl
    rw [hp] at hends
    obtain ⟨c, hc⟩ := hangUp_frame conn w
    obtain ⟨c', hc'⟩ := sendmsg_frame pid conn fd w
    dsimp only
    rw [hc, hc']
    cases r with
    | ok | failed | interrupted => exact promised_moves hs rfl rfl (Option.some_ne_none fd)
    | killed => cases hends

theorem start_keeps (h : Exclusive w) (hP : Promised w) (pid : Nat) : Promised (start pid w) := by
  unfold start
  split
  · rename_i hp
    exact hP.other (h.not_server hp rfl) rfl rfl rfl
  · exact hP

/-- Nothing of the daemon moves, and the property stays or is cleared. -/
theorem Promised.aside (hP : Promised w) (hf : w'.fminits = w.fminits) (hs : w'.server = w.server)
    (hi : w'.hw_fm_init = .one → w.hw_fm_init = .one) : Promised w' :=
  fun hone => (serving_congr hf hs).mpr (hP (hi hone))

theorem script_promised (hP : Promised w) (i : Nat) (r : Outcome) :
    Promised (script i r w) ↔ (w.scripts i = .setprop → r = .ok → Serving w) := by
  by_cases hset : w.scripts i = .setprop ∧ r = .ok
  · obtain ⟨hi, rfl⟩ := hset
    have hscript : script i .ok w = setScript i .exited { w with hw_fm_init := .one } := by
      simp only [script, hi, if_true]
    rw [hscript]
    constructor
    · intro h _ _
      exact (serving_congr rfl rfl).mp (h rfl)
    · intro h _
      exact (serving_congr rfl rfl).mpr (h hi rfl)
  · refine ⟨fun _ hi hr => absurd ⟨hi, hr⟩ hset, fun _ => ?_⟩
    unfold script
    cases hi : w.scripts i with
    | absent | exited => exact hP
    | reset =>
      cases r with
      | ok => exact hP.aside rfl rfl nofun
      | failed | interrupted | killed => exact hP.aside rfl rfl id
    | transport | power | fm_qsoc_patches => cases r <;> exact hP.aside rfl rfl id
    | setprop =>
      have hr : r ≠ .ok := fun hr => hset ⟨hi, hr⟩
      dsimp only
      rw [if_neg hr]
      exact hP.aside rfl rfl id

theorem promised_step (h : Exclusive w) (hP : Promised w) (e : Event) : Promised (step w e) ↔ Harmless w e := by
  cases e with
  | start pid => exact iff_of_true (start_keeps h hP pid) trivial
  | onCreate pid =>
    rw [step]
    split
    · exact iff_of_true (start_keeps h hP pid) trivial
    · exact iff_of_true hP trivial
  | fminit pid r =>
    by_cases hends : ends (w.fminits pid) r = true
    · refine (fminit_ends hends).trans ?_
      exact ⟨fun hne _ => hne, fun hne => hne hends⟩
    · refine iff_of_true (fminit_keeps h hP (Bool.eq_false_iff.mpr hends)) fun h => absurd h hends
  | fmAcquireFdNative i =>
    rw [step]
    split
    · exact iff_of_true (hP.aside rfl rfl id) trivial
    · exact iff_of_true hP trivial
  | client i r =>
    obtain ⟨_, _, _, _, hc⟩ := client_frame i r w
    rw [step, hc]
    exact iff_of_true (hP.aside rfl rfl id) trivial
  | fm_dl i =>
    rw [step]
    split
    · exact iff_of_true (hP.aside rfl rfl id) trivial
    · exact iff_of_true hP trivial
  | script i r => exact script_promised hP i r

end

/-! ## Runs -/

/-- The property promises a server in every state exactly of the runs in which no serving process
ends under a property of "1" and no script sets it without a server. -/
theorem promised_iff_harmless (events : List Event) :
    Run.AllStates step Promised boot events ↔ Run.AllSteps step Harmless boot events := by
  have hboot : Promised boot := fun hone => by cases hone
  have hstep : ∀ w e, Exclusive w → Exclusive (step w e) := fun w e h => exclusive_step h e
  exact Run.allStates_iff_allSteps Exclusive hstep (fun w e h hP => promised_step h hP e) exclusive_boot hboot events

/-- A run of the script without a daemon. -/
def scriptAlone : List Event :=
  [.fm_dl 0, .script 0 .ok, .script 0 .failed, .script 0 .ok, .script 0 .ok, .script 0 .ok]

/-- A daemon whose `accept` fails. -/
def acceptFails : List Event :=
  [.onCreate 0, .fminit 0 .ok, .fminit 0 .ok, .fminit 0 .ok, .fminit 0 .ok, .fminit 0 .ok, .fminit 0 .ok,
    .fminit 0 .ok, .fminit 0 .failed]

/-- Either leaves the property at "1" without a server, and the next `onCreate` starts none. -/
theorem property_without_server :
    ¬ Run.AllStates step Promised boot scriptAlone ∧ ¬ Run.AllStates step Promised boot acceptFails ∧
      (step (Run.exec step boot acceptFails) (.onCreate 1)).fminits 1 = .absent := by
  refine ⟨fun h => ?_, fun h => ?_, by decide⟩
  · have hone : (Run.exec step boot scriptAlone).hw_fm_init = .one := by decide
    have hnone : (Run.exec step boot scriptAlone).server = none := by decide
    exact not_serving hnone (h.last hone)
  · have hone : (Run.exec step boot acceptFails).hw_fm_init = .one := by decide
    have hnone : (Run.exec step boot acceptFails).server = none := by decide
    exact not_serving hnone (h.last hone)

end FmServer
