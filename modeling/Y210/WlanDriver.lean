import Y210.WlanTool

/-!
# What the framework learns of the Wi-Fi driver

Each party keeps a contract, whatever the others do between its calls; the run is then told from the
contracts alone.
-/
namespace WlanDriver

open WlanTool Programs Prog Run

/-- The value that asks for a task. -/
def request : Task → Status
  | .load => .insmod
  | .unload => .rmmod

/-- The value that answers that it is done. -/
def goal : Task → Status
  | .load => .ok
  | .unload => .unloaded

@[simp] theorem goal_load : goal .load = .ok := rfl
@[simp] theorem goal_unload : goal .unload = .unloaded := rfl

/-! ## The framework's side -/

/-- How far a call of the framework is; `polling done` says whether it last read its goal. -/
inductive View where
  | start
  | reported
  | polling (done : Bool)
  | leaving
  deriving DecidableEq

/-- The framework asks first, and writes no answers. -/
def frameworkContract (task : Task) : Contract Call Answer View where
  allowed v
    | .setprop value => value ≠ .ok ∧ value ≠ .unloaded ∧ (v = .start → value = request task) ∧ v ≠ .reported
    | .getprop => v ≠ .start ∧ v ≠ .reported
    | .check_driver_loaded => v = .start ∧ task = .load
    | _ => False
  possible _ _ _ := True
  next v
    | .setprop _, _ => if v = .start then .polling false else .leaving
    | .getprop, a =>
      match v with
      | .polling _ => .polling (a = goal task)
      | v => v
    | .check_driver_loaded, a => if a then .reported else v
    | _, _ => v

/-- It returns 0 for what it was told only. -/
def Returns (r : Int) (v : View) : Prop := r = 0 → v = .reported ∨ v = .polling true

theorem keeps_poll {ρ : Type} {task : Task} {look : Status → Option ρ} {S : Option ρ → View → Prop} {b : Bool}
    (count : Nat) (hsome : ∀ value r, look value = some r → S (some r) (.polling (value = goal task)))
    (hnone : ∀ b, S none (.polling b)) :
    Keeps (frameworkContract task) S (poll count look) (.polling b) := by
  refine keeps_attempts (fun v => ∃ b, v = .polling b) ?_ ?_ count ⟨b, rfl⟩
  · rintro v ⟨b, rfl⟩
    refine ⟨by simp [frameworkContract], fun value _ => ⟨fun _ => ⟨_, rfl⟩, fun h => ?_⟩⟩
    obtain ⟨r, hr⟩ := Option.ne_none_iff_exists'.mp h
    rw [hr]
    exact hsome value r hr
  · rintro v ⟨b, rfl⟩
    exact hnone b

/-- The unloading at the end of a failed `wifi_load_driver`. -/
theorem keeps_leave {v : View} (hv : v ≠ .start) (hr : v ≠ .reported) :
    Keeps (frameworkContract .load) (fun _ v => v = .leaving) wifi_unload_driver v := by
  unfold wifi_unload_driver
  simp only [lift_bind, keeps_call]
  refine ⟨by simp [frameworkContract, hv, hr], fun _ _ => ?_⟩
  have hnext : (frameworkContract .load).next v (.setprop .rmmod) () = .leaving := by
    simp [frameworkContract, hv]
  rw [hnext, keeps_bind]
  refine keeps_attempts (fun v => v = .leaving) ?_ ?_ 20 rfl
  · rintro v rfl
    refine ⟨by simp [frameworkContract], fun value _ => ⟨fun _ => rfl, fun _ => ?_⟩⟩
    cases lookUnloaded value <;> rfl
  · rintro v rfl
    rfl

theorem wifi_unload_driver_keeps : Keeps (frameworkContract .unload) Returns wifi_unload_driver .start := by
  unfold wifi_unload_driver
  simp only [lift_bind, keeps_call]
  refine ⟨by simp [frameworkContract, request], fun _ _ => keeps_bind.mpr ?_⟩
  refine keeps_poll 20 (fun value r hr => ?_) (fun b => ?_)
  · have hv : value = .unloaded := by
      simp only [lookUnloaded] at hr
      split at hr
      · assumption
      · cases hr
    simp [Returns, hv]
  · simp [Returns]

theorem wifi_load_driver_keeps : Keeps (frameworkContract .load) Returns wifi_load_driver .start := by
  unfold wifi_load_driver
  simp only [lift_bind, keeps_call]
  refine ⟨⟨rfl, rfl⟩, fun loaded _ => ?_⟩
  cases loaded with
  | true => simp [Returns, frameworkContract]
  | false =>
    simp only [Bool.false_eq_true, if_false, keeps_call]
    refine ⟨by simp [frameworkContract, request], fun _ _ => keeps_bind.mpr ?_⟩
    refine keeps_poll 100 (fun value r hr => ?_) (fun b => ?_)
    · simp only [lookLoaded] at hr
      split at hr
      · rename_i hv
        obtain rfl := Option.some.inj hr
        simp [concludeLoad, Returns, hv]
      · split at hr
        · obtain rfl := Option.some.inj hr
          simp only [concludeLoad, keeps_bind]
          refine (keeps_leave (by simp) (by simp)).mono fun r v _ => ?_
          simp [Returns]
        · cases hr
    · simp only [concludeLoad, lift_bind, keeps_call]
      refine ⟨by simp [frameworkContract], fun _ _ => keeps_bind.mpr ?_⟩
      refine (keeps_leave (by simp [frameworkContract]) (by simp [frameworkContract])).mono fun r v _ => ?_
      simp [Returns]

theorem function_keeps : ∀ task, Keeps (frameworkContract task) Returns (function task) .start
  | .load => wifi_load_driver_keeps
  | .unload => wifi_unload_driver_keeps

/-! ## The answers are the services' own -/

/-- A service answers for its own task only, and `ok` on a check that succeeded. -/
def answerContract (task : Task) : Contract Call Answer Bool where
  allowed checked
    | .setprop value => ∀ t, value = goal t → t = task ∧ (t = .load → checked = true)
    | .check_driver_loaded => False
    | _ => True
  possible _ _ _ := True
  next checked
    | .wlanEnableCheck, a => a
    | _, _ => checked

section
variable {task : Task} {S : Unit → Bool → Prop} {checked : Bool}

theorem keeps_do_setprop {value : Status}
    (h : ∀ t, value = goal t → t = task ∧ (t = .load → checked = true)) (hS : S () checked) :
    Keeps (answerContract task) S (do_setprop value) checked := by
  unfold do_setprop
  simp only [lift_bind, keeps_call, keeps_bind]
  refine ⟨h, fun _ _ => ?_⟩
  refine keeps_attempts (fun v => v = checked) ?_ ?_ 20 rfl
  · rintro v rfl
    simp only [keeps_call]
    refine ⟨trivial, fun now _ => ?_⟩
    split
    · exact ⟨by simp, fun _ => hS⟩
    · exact ⟨h, fun _ _ => ⟨fun _ => rfl, by simp⟩⟩
  · rintro v rfl
    exact hS

/-- A value that nobody looks for. -/
theorem keeps_do_setprop_other {value : Status} (h₁ : value ≠ .ok) (h₂ : value ≠ .unloaded)
    (hS : S () checked) : Keeps (answerContract task) S (do_setprop value) checked := by
  refine keeps_do_setprop (fun t ht => ?_) hS
  cases t with
  | load => exact absurd ht h₁
  | unload => exact absurd ht h₂

theorem keeps_waitFor {look : Script Bool} (hS : ∀ checked, S () checked)
    (hlook : ∀ checked, Keeps (answerContract task) (fun _ _ => True) look checked) :
    Keeps (answerContract task) S (waitFor look) checked := by
  refine keeps_bind.mpr (keeps_attempts (fun _ => True) (fun v _ => ?_) (fun v _ => hS v) 10 trivial)
  refine keeps_bind.mpr ((hlook v).mono fun b u _ => ?_)
  exact ⟨fun _ => trivial, fun _ => hS u⟩

theorem keeps_do_rmmod (hS : ∀ checked, S () checked) : Keeps (answerContract task) S do_rmmod checked := by
  unfold do_rmmod
  simp only [lift_bind, keeps_call]
  refine ⟨trivial, fun removed _ => ?_⟩
  cases removed with
  | true => exact hS _
  | false =>
    simp only [Bool.false_eq_true, if_false, keeps_bind]
    refine keeps_do_setprop_other (by decide) (by decide) ?_
    exact keeps_waitFor hS fun _ => ⟨trivial, fun _ _ => trivial⟩

theorem keeps_do_insmod (hS : ∀ checked, S () checked) : Keeps (answerContract task) S do_insmod checked := by
  unfold do_insmod
  simp only [lift_bind, keeps_call]
  refine ⟨trivial, fun inserted _ => ?_⟩
  cases inserted with
  | true => exact hS _
  | false =>
    simp only [Bool.false_eq_true, if_false, keeps_bind]
    refine keeps_do_setprop_other (by decide) (by decide) ?_
    exact keeps_waitFor hS fun _ => ⟨trivial, fun _ _ => trivial⟩

theorem keeps_reload (hS : ∀ checked, S () checked) : Keeps (answerContract task) S reload checked := by
  unfold reload
  simp only [lift_bind, call_bind, keeps_call, keeps_bind]
  have hwait : ∀ checked, Keeps (answerContract task) S (waitFor wlanEnableCheck) checked :=
    fun _ => keeps_waitFor hS fun _ => ⟨trivial, fun _ _ => trivial⟩
  refine ⟨trivial, fun present _ => ?_⟩
  cases present with
  | true => exact keeps_do_rmmod fun _ => keeps_do_insmod hwait
  | false => exact keeps_do_insmod hwait

end

theorem loaddriver_answers : Keeps (answerContract .load) (fun _ _ => True) loaddriver false := by
  unfold loaddriver
  simp only [lift_bind, keeps_call]
  refine ⟨trivial, fun apmode _ => ?_⟩
  cases apmode with
  | true => exact keeps_do_setprop_other (by decide) (by decide) trivial
  | false =>
    simp only [Bool.false_eq_true, if_false, call_bind, keeps_call, keeps_bind]
    refine keeps_do_setprop_other (by decide) (by decide) ⟨trivial, fun present _ => ?_⟩
    have hrest : ∀ checked, Keeps (answerContract .load) (fun _ _ => True)
        (call .wlanEnableCheck fun b => if b then do_setprop .ok else do_setprop .failed) checked := by
      refine fun _ => ⟨trivial, fun enabled _ => ?_⟩
      cases enabled with
      | true => exact keeps_do_setprop (by intro t ht; cases t <;> simp_all [answerContract]) trivial
      | false => exact keeps_do_setprop_other (by decide) (by decide) trivial
    cases present with
    | true => exact hrest _
    | false => exact keeps_reload hrest

theorem unloaddriver_answers : Keeps (answerContract .unload) (fun _ _ => True) unloaddriver false := by
  unfold unloaddriver
  simp only [lift_bind, keeps_call]
  refine ⟨trivial, fun apmode _ => ?_⟩
  cases apmode with
  | true => exact keeps_do_setprop_other (by decide) (by decide) trivial
  | false =>
    simp only [Bool.false_eq_true, if_false, keeps_bind]
    have hdone : ∀ checked, Keeps (answerContract .unload) (fun _ _ => True) (do_setprop .unloaded) checked :=
      fun _ => keeps_do_setprop (by intro t ht; cases t <;> simp_all) trivial
    exact keeps_do_rmmod fun _ => keeps_waitFor hdone fun _ => ⟨trivial, fun _ _ => trivial⟩

theorem script_answers : ∀ task, Keeps (answerContract task) (fun _ _ => True) (script task) false
  | .load => loaddriver_answers
  | .unload => unloaddriver_answers

/-! ## What a run writes down -/

/-- Since the service that loads was started, one of its checks has succeeded. -/
def confirmed : List Entry → Prop
  | [] => False
  | .enabled .load :: _ => True
  | .started .load :: _ => False
  | _ :: log => confirmed log

/-- Since the call, the service for the task has written its answer, `ok` after a check that
succeeded. -/
def acknowledged (task : Task) : List Entry → Prop
  | [] => False
  | .called _ :: _ => False
  | .set party value :: log =>
    (party = .service task ∧ value = goal task ∧ (task = .load → confirmed log)) ∨ acknowledged task log
  | _ :: log => acknowledged task log

/-- Since the call, the kernel has reported the driver. -/
def reportedSince : List Entry → Prop
  | [] => False
  | .called _ :: _ => False
  | .reported :: _ => True
  | _ :: log => reportedSince log

def justified (task : Task) (log : List Entry) : Prop :=
  (task = .load ∧ reportedSince log) ∨ acknowledged task log

/-- Every 0 that was returned was justified then. -/
def Accounted (log : List Entry) : Prop :=
  ∀ later task earlier, log = later ++ .returned task 0 :: earlier → justified task earlier

/-- What a call of a script writes down. -/
def ofCall : Entry → Prop
  | .set _ _ | .enabled _ | .reported => True
  | _ => False

section
variable {e : Entry} {log : List Entry} {task : Task}

theorem confirmed_cons (he : e ≠ .started .load) (h : confirmed log) : confirmed (e :: log) := by
  cases e with
  | enabled t => cases t <;> simp [confirmed, h]
  | started t =>
    cases t with
    | load => exact absurd rfl he
    | unload => exact h
  | _ => exact h

theorem acknowledged_cons (he : ∀ t, e ≠ .called t) (h : acknowledged task log) :
    acknowledged task (e :: log) := by
  cases e with
  | called t => exact absurd rfl (he t)
  | set party value => exact .inr h
  | _ => exact h

theorem reportedSince_cons (he : ∀ t, e ≠ .called t) (h : reportedSince log) : reportedSince (e :: log) := by
  cases e with
  | called t => exact absurd rfl (he t)
  | reported => trivial
  | _ => exact h

theorem accounted_cons (he : ∀ t, e = .returned t 0 → justified t log) (h : Accounted log) :
    Accounted (e :: log) := by
  intro later t earlier hlog
  cases later with
  | nil =>
    obtain ⟨rfl, rfl⟩ := List.cons.inj hlog
    exact he t rfl
  | cons e' later => exact h later t earlier (List.cons.inj hlog).2

end

/-- A call writes down at most one entry, of its own kind. -/
theorem perform_log (party : Party) (b : Bool) (w : World) (c : Call) :
    (perform party b w c).log = w.log ∨ ∃ e, ofCall e ∧ (perform party b w c).log = e :: w.log := by
  cases c with
  | setprop value => exact .inr ⟨.set party value, trivial, rfl⟩
  | wlanEnableCheck =>
    cases party with
    | framework => exact .inl rfl
    | service task =>
      simp only [perform]
      split
      · exact .inr ⟨.enabled task, trivial, rfl⟩
      · exact .inl rfl
  | check_driver_loaded =>
    simp only [perform]
    split
    · exact .inr ⟨.reported, trivial, rfl⟩
    · exact .inl rfl
  | _ => exact .inl rfl

/-- What new entries of calls keep, a call keeps. -/
theorem perform_log_keeps {P : List Entry → Prop} (hP : ∀ e log, ofCall e → P log → P (e :: log))
    {w : World} (party : Party) (b : Bool) (c : Call) (h : P w.log) : P (perform party b w c).log := by
  obtain hl | ⟨e, he, hl⟩ := perform_log party b w c
  · rwa [hl]
  · rw [hl]
    exact hP e w.log he h

section
variable {w : World} (party : Party) (b : Bool) (c : Call)

theorem confirmed_perform (h : confirmed w.log) : confirmed (perform party b w c).log :=
  perform_log_keeps (fun _ _ he => confirmed_cons (by rintro rfl; exact he)) party b c h

theorem acknowledged_perform {task : Task} (h : acknowledged task w.log) :
    acknowledged task (perform party b w c).log :=
  perform_log_keeps (fun _ _ he => acknowledged_cons (by rintro t rfl; exact he)) party b c h

theorem reportedSince_perform (h : reportedSince w.log) : reportedSince (perform party b w c).log :=
  perform_log_keeps (fun _ _ he => reportedSince_cons (by rintro t rfl; exact he)) party b c h

theorem accounted_perform (h : Accounted w.log) : Accounted (perform party b w c).log :=
  perform_log_keeps (fun _ _ he => accounted_cons (by rintro t rfl; exact he.elim)) party b c h

end

/-! ## Every run -/

/-- What the framework knows by its view. -/
def Learned (task : Task) (w : World) : View → Prop
  | .start => True
  | .reported => task = .load ∧ reportedSince w.log
  | .polling done => w.status = goal task ∨ done = true → acknowledged task w.log
  | .leaving => True

structure Informed (w : World) : Prop where
  service : ∀ task p, w.services task = some p → ∃ checked,
    Keeps (answerContract task) (fun _ _ => True) p checked ∧ (task = .load → checked = true → confirmed w.log)
  framework : ∀ task p, w.framework = .running task p → ∃ v,
    Keeps (frameworkContract task) Returns p v ∧ Learned task w v
  log : Accounted w.log

theorem informed_boot (module : Bool) : Informed (boot module) where
  service _ _ h := by cases h
  framework _ _ h := by cases h
  log later _ _ h := by cases later <;> cases h

section
variable {w : World} {task : Task} {b : Bool} {c : Call}

theorem goal_ne {value : Status} (h₁ : value ≠ .ok) (h₂ : value ≠ .unloaded) (task : Task) : value ≠ goal task := by
  cases task <;> assumption

/-- The framework's own call: what it may be answered it has learned. -/
theorem learned_next {v : View} (h : Learned task w v) (hc : (frameworkContract task).allowed v c) :
    Learned task (perform .framework b w c) ((frameworkContract task).next v c (answer b w c)) := by
  cases c with
  | setprop value =>
    obtain ⟨h₁, h₂, -⟩ := hc
    by_cases hv : v = .start
    · simp only [frameworkContract, hv, if_true]
      rintro (hs | hs)
      · exact absurd hs (goal_ne h₁ h₂ task)
      · cases hs
    · simp only [frameworkContract, hv, if_false]
      trivial
  | getprop =>
    cases v with
    | polling done => exact fun hd => h (.inl (hd.elim id of_decide_eq_true))
    | _ => exact h
  | check_driver_loaded =>
    obtain ⟨rfl, rfl⟩ := hc
    by_cases hd : b && w.module
    · simp only [frameworkContract, answer, perform, hd, if_true]
      exact ⟨rfl, trivial⟩
    · simp only [frameworkContract, answer, perform, hd, Bool.false_eq_true, if_false]
      trivial
  | _ => exact hc.elim

/-- A service's call: an answer that appears is the service's own. -/
theorem learned_service {t : Task} {v : View} {checked : Bool} (h : Learned task w v)
    (hc : (answerContract t).allowed checked c) (hchecked : t = .load → checked = true → confirmed w.log) :
    Learned task (perform (.service t) b w c) v := by
  cases v with
  | start => trivial
  | leaving => trivial
  | reported => exact ⟨h.1, reportedSince_perform _ b c h.2⟩
  | polling done =>
    rintro (hs | hs)
    · cases c with
      | setprop value =>
        obtain ⟨rfl, hok⟩ := hc task hs
        exact .inl ⟨rfl, hs, fun hl => hchecked hl (hok hl)⟩
      | _ => exact acknowledged_perform _ b _ (h (.inl (by simpa using hs)))
    · exact acknowledged_perform _ b c (h (.inr hs))

/-- A service's call: a check that succeeds is written down. -/
theorem confirmed_next {t : Task} {checked : Bool} (hchecked : t = .load → checked = true → confirmed w.log)
    (ht : t = .load) (hn : (answerContract t).next checked c (answer b w c) = true) :
    confirmed (perform (.service t) b w c).log := by
  cases c with
  | wlanEnableCheck =>
    subst ht
    have hd : (b && w.module) = true := hn
    simp only [perform, hd, if_true]
    trivial
  | _ => exact confirmed_perform _ b _ (hchecked ht hn)

end

theorem Learned.mono {task : Task} {w w' : World} {v : View} (hs : w'.status = w.status)
    (hlog : ∃ e, w'.log = e :: w.log ∧ ∀ t, e ≠ .called t) (h : Learned task w v) : Learned task w' v := by
  obtain ⟨e, hl, he⟩ := hlog
  cases v with
  | start => trivial
  | leaving => trivial
  | reported => exact ⟨h.1, hl ▸ reportedSince_cons he h.2⟩
  | polling done =>
    intro hd
    rw [hs] at hd
    exact hl ▸ acknowledged_cons he (h hd)

section
variable {w : World}

theorem informed_call (h : Informed w) (task : Task) : Informed (step w (.call task)) := by
  cases hf : w.framework with
  | running t p => simpa only [step, hf] using h
  | idle last =>
    simp only [step, hf]
    constructor
    · intro t p hp
      obtain ⟨checked, hk, hc⟩ := h.service t p hp
      exact ⟨checked, hk, fun ht hd => confirmed_cons (by simp) (hc ht hd)⟩
    · rintro t p hp
      cases hp
      exact ⟨.start, function_keeps task, trivial⟩
    · exact accounted_cons (by simp) h.log

theorem informed_framework (h : Informed w) (b : Bool) : Informed (step w (.framework b)) := by
  cases hf : w.framework with
  | idle last => simpa only [step, hf] using h
  | running task p =>
    obtain ⟨v, hk, hv⟩ := h.framework task p hf
    cases p with
    | ret r =>
      simp only [step, hf]
      constructor
      · intro t p hp
        obtain ⟨checked, hk, hc⟩ := h.service t p hp
        exact ⟨checked, hk, fun ht hd => confirmed_cons (by simp) (hc ht hd)⟩
      · intro t p hp
        cases hp
      · refine accounted_cons ?_ h.log
        rintro t he
        cases he
        obtain rfl | rfl := hk rfl
        · exact .inl hv
        · exact .inr (hv (.inr rfl))
    | call c k =>
      simp only [step, hf]
      constructor
      · intro t p hp
        obtain ⟨checked, hk, hc⟩ := h.service t p (by simpa using hp)
        exact ⟨checked, hk, fun ht hd => confirmed_perform _ b c (hc ht hd)⟩
      · rintro t p hp
        cases hp
        exact ⟨_, hk.2 _ trivial, learned_next hv hk.1⟩
      · exact accounted_perform _ b c h.log

theorem informed_service (h : Informed w) (task : Task) (b : Bool) : Informed (step w (.service task b)) := by
  cases hs : w.services task with
  | none => simpa only [step, hs] using h
  | some p =>
    cases p with
    | ret r =>
      simp only [step, hs]
      refine ⟨fun t p hp => ?_, h.framework, h.log⟩
      by_cases ht : t = task
      · subst ht
        simp at hp
      · exact h.service t p (by simpa [ht] using hp)
    | call c k =>
      obtain ⟨checked, hk, hc⟩ := h.service task _ hs
      simp only [step, hs]
      constructor
      · intro t p hp
        by_cases ht : t = task
        · subst ht
          obtain rfl : k (answer b w c) = p := by simpa using hp
          exact ⟨_, hk.2 _ trivial, fun ht hd => confirmed_next hc ht hd⟩
        · obtain ⟨checked', hk', hc'⟩ := h.service t p (by simpa [ht] using hp)
          exact ⟨checked', hk', fun ht hd => confirmed_perform _ b c (hc' ht hd)⟩
      · intro t p hp
        obtain ⟨v, hk', hv⟩ := h.framework t p (by simpa using hp)
        exact ⟨v, hk', learned_service hv hk.1 hc⟩
      · exact accounted_perform _ b c h.log

theorem informed_init (h : Informed w) : Informed (step w .init) := by
  cases hq : w.queue with
  | nil => simpa only [step, hq] using h
  | cons task queue =>
    cases hs : w.services task with
    | some p =>
      simp only [step, hq, hs]
      exact ⟨h.service, h.framework, h.log⟩
    | none =>
      simp only [step, hq, hs]
      constructor
      · intro t p hp
        by_cases ht : t = task
        · subst ht
          obtain rfl : script t = p := by simpa using hp
          exact ⟨false, script_answers t, by simp⟩
        · obtain ⟨checked, hk, hc⟩ := h.service t p (by simpa [ht] using hp)
          refine ⟨checked, hk, fun hl hd => confirmed_cons ?_ (hc hl hd)⟩
          rintro he
          exact ht (hl.trans (Entry.started.inj he).symm)
      · intro t p hp
        obtain ⟨v, hk, hv⟩ := h.framework t p hp
        exact ⟨v, hk, hv.mono (w := w) rfl ⟨.started task, rfl, by simp⟩⟩
      · exact accounted_cons (by simp) h.log

theorem informed_step (e : Event) (h : Informed w) : Informed (step w e) := by
  cases e with
  | call task => exact informed_call h task
  | framework b => exact informed_framework h b
  | service task b => exact informed_service h task b
  | init => exact informed_init h

end

/-- However the framework, `init` and the services take turns, a call that returns 0 was told so
since it began: by the kernel, or by the service for that very task, which has then done its work. -/
theorem returned_zero (module : Bool) (es : List Event) (later earlier : List Entry) (task : Task)
    (h : (exec step (boot module) es).log = later ++ .returned task 0 :: earlier) : justified task earlier :=
  (allStates_of_invariant (fun _ e => informed_step e) (informed_boot module) es).last.log later task earlier h

/-- The driver is inserted, its check succeeds, and the framework reads `ok`. -/
theorem returned_zero_loaded :
    justified .load (exec step (boot false) ([.call .load, .framework false, .framework false, .init,
      .service .load false] ++ List.replicate 8 (.service .load true) ++ [.framework false])).log :=
  returned_zero false ([.call .load, .framework false, .framework false, .init, .service .load false] ++
    List.replicate 8 (.service .load true) ++ [.framework false, .framework false]) [] _ .load (by rfl)

/-! ## Every call returns -/

theorem poll_within {ρ : Type} (count : Nat) (look : Status → Option ρ) : (poll count look).Within count := by
  have h : (poll count look).Within (count * 1) := by
    refine Within.attempts ?_ count
    exact fun _ => trivial
  rwa [Nat.mul_one] at h

theorem wifi_unload_driver_within : wifi_unload_driver.Within 21 :=
  fun _ => (poll_within 20 lookUnloaded).bind (n := 0) fun r => by cases r <;> trivial

theorem concludeLoad_within (r : Option Bool) : (concludeLoad r).Within 22 := by
  have hleave : (wifi_unload_driver >>= fun _ => ret (-1 : Int) : Script Int).Within 21 :=
    wifi_unload_driver_within.bind (n := 0) fun _ => trivial
  match r with
  | some true => trivial
  | some false => exact hleave.mono (by decide)
  | none => exact fun _ => hleave

theorem function_within : ∀ task, (function task).Within 124
  | .load => by
    intro loaded
    cases loaded with
    | true => trivial
    | false => exact fun _ => (poll_within 100 lookLoaded).bind concludeLoad_within
  | .unload => wifi_unload_driver_within.mono (by decide)

def isFramework : Event → Bool
  | .framework _ => true
  | _ => false

theorem step_log (w : World) (e : Event) : ∃ new, (step w e).log = new ++ w.log := by
  have hperform : ∀ party b c, ∃ new, (perform party b w c).log = new ++ w.log := by
    intro party b c
    obtain h | ⟨e, -, h⟩ := perform_log party b w c
    · exact ⟨[], h⟩
    · exact ⟨[e], h⟩
  cases e with
  | call task =>
    simp only [step]
    split
    · exact ⟨[.called task], rfl⟩
    · exact ⟨[], rfl⟩
  | framework b =>
    simp only [step]
    split
    · exact ⟨[], rfl⟩
    · exact ⟨[_], rfl⟩
    · exact hperform _ _ _
  | service task b =>
    simp only [step]
    split
    · exact ⟨[], rfl⟩
    · exact ⟨[], rfl⟩
    · exact hperform _ _ _
  | init =>
    simp only [step]
    split
    · exact ⟨[], rfl⟩
    · split
      · exact ⟨[_], rfl⟩
      · exact ⟨[], rfl⟩

theorem exec_log (w : World) (es : List Event) : ∃ new, (exec step w es).log = new ++ w.log := by
  induction es generalizing w with
  | nil => exact ⟨[], rfl⟩
  | cons e es ih =>
    obtain ⟨new, hnew⟩ := step_log w e
    obtain ⟨rest, hrest⟩ := ih (step w e)
    exact ⟨rest ++ new, by rw [exec_cons, hrest, hnew, List.append_assoc]⟩

/-- A step of the others leaves the framework's program where it is. -/
theorem step_framework_of_running {w : World} {task : Task} {p : Script Int} (hf : w.framework = .running task p)
    {e : Event} (he : isFramework e = false) : (step w e).framework = .running task p := by
  cases e with
  | call t => simp only [step, hf]
  | framework b => cases he
  | service t b =>
    simp only [step]
    split
    · exact hf
    · exact hf
    · exact (perform_framework ..).trans hf
  | init =>
    simp only [step]
    split
    · exact hf
    · split <;> exact hf

/-- The induction is on the events, with the calls that are left as the measure. -/
theorem returned_of_within {w : World} {task : Task} {p : Script Int} {n : Nat} (hp : p.Within n)
    (hf : w.framework = .running task p) (es : List Event) (hn : n < es.countP isFramework) :
    ∃ r new, (exec step w es).log = new ++ w.log ∧ .returned task r ∈ new := by
  induction es generalizing w p n with
  | nil => simp at hn
  | cons e es ih =>
    rw [exec_cons]
    by_cases he : isFramework e = true
    · rw [List.countP_cons_of_pos he] at hn
      obtain ⟨b, rfl⟩ : ∃ b, e = .framework b := by
        cases e with
        | framework b => exact ⟨b, rfl⟩
        | _ => cases he
      cases p with
      | ret r =>
        obtain ⟨new, hnew⟩ := exec_log (step w (.framework b)) es
        refine ⟨r, new ++ [.returned task r], ?_, by simp⟩
        rw [hnew]
        simp [step, hf]
      | call c k =>
        cases n with
        | zero => exact hp.elim
        | succ n =>
          have hf' : (step w (.framework b)).framework = .running task (k (answer b w c)) := by simp [step, hf]
          obtain ⟨r, new, hnew, hr⟩ := ih (hp _) hf' (by omega)
          obtain ⟨first, hfirst⟩ := step_log w (.framework b)
          exact ⟨r, new ++ first, by rw [hnew, hfirst, List.append_assoc], List.mem_append_left _ hr⟩
    · rw [List.countP_cons_of_neg he] at hn
      obtain ⟨r, new, hnew, hr⟩ := ih hp (step_framework_of_running hf (by simpa using he)) hn
      obtain ⟨first, hfirst⟩ := step_log w e
      exact ⟨r, new ++ first, by rw [hnew, hfirst, List.append_assoc], List.mem_append_left _ hr⟩

/-- A call has returned after 125 steps of the framework, whatever the others do between them. -/
theorem returns_within {w : World} {last : Option (Task × Int)} (hidle : w.framework = .idle last) (task : Task)
    (es : List Event) (hn : 125 ≤ es.countP isFramework) :
    ∃ r new, (exec step (step w (.call task)) es).log = new ++ .called task :: w.log ∧ .returned task r ∈ new := by
  have hf : (step w (.call task)).framework = .running task (function task) := by simp [step, hidle]
  obtain ⟨r, new, hnew, hr⟩ := returned_of_within (function_within task) hf es (by omega)
  refine ⟨r, new, ?_, hr⟩
  rw [hnew]
  simp [step, hidle]

/-- The answer never comes. -/
theorem returns_within_alone :
    ∃ r new, (exec step (step (boot false) (.call .load)) (List.replicate 125 (.framework false))).log =
      new ++ [.called .load] ∧ .returned .load r ∈ new :=
  returns_within rfl .load (List.replicate 125 (.framework false)) (by rw [List.countP_replicate]; decide)

end WlanDriver
