import Y210.WlanDriver

/-!
# The framework and the kernel agree

A call that begins when the services are at rest meets only the service it asked for. The contract of
that service has the module and the property in view, as nobody else changes them meanwhile; it holds
whether or not the kernel grants each `rmmod` (`granted`), and says more when it does.
-/
namespace WlanAgreement

open WlanTool WlanDriver Programs Prog Run

def other : Task → Task
  | .load => .unload
  | .unload => .load

/-- Whether the module is there when the task is done. -/
def want : Task → Bool
  | .load => true
  | .unload => false

@[simp] theorem want_load : want .load = true := rfl
@[simp] theorem want_unload : want .unload = false := rfl

theorem other_ne : ∀ task, other task ≠ task
  | .load => by decide
  | .unload => by decide

theorem eq_other_of_ne {t task : Task} (h : t ≠ task) : t = other task := by
  cases t <;> cases task <;> first | rfl | exact absurd rfl h

/-- What a service sees: whether the module is there, and the property. -/
abbrev View := Bool × Status

def agreement (granted : Prop) (task : Task) : Contract Call Answer View where
  allowed v
    | .setprop value =>
      (granted → value = goal task → v.1 = want task) ∧ trigger value ≠ some (other task)
    | .insmod => task = .load
    | .rmmod => task = .unload
    | .check_driver_loaded => False
    | _ => True
  possible v
    | .getprop, a => a = v.2
    | .moduleCheck, a => a = v.1
    | .wlanEnableCheck, a => a = true → v.1 = true
    | .insmod, a => a = true → v.1 = false
    | .rmmod, a => granted → v.1 = true → a = true
    | _, _ => True
  next v
    | .setprop value, _ => (v.1, value)
    | .insmod, a => (v.1 || a, v.2)
    | .rmmod, a => (v.1 && !a, v.2)
    | _, _ => v

/-- A service leaves an answer behind. -/
def Answered (task : Task) (_ : Unit) (v : View) : Prop := v.2 = goal task ∨ v.2 = .failed

/-! ## The services keep it -/

section
variable {granted : Prop} {task : Task} {S : Unit → View → Prop} {v : View}

theorem keeps_do_setprop {value : Status} (h : granted → value = goal task → v.1 = want task)
    (ht : trigger value ≠ some (other task)) (hS : S () (v.1, value)) :
    Keeps (agreement granted task) S (do_setprop value) v := by
  unfold do_setprop
  simp only [lift_bind, keeps_call, keeps_bind]
  refine ⟨⟨h, ht⟩, fun _ _ => ?_⟩
  refine keeps_attempts (fun u => u = (v.1, value)) ?_ ?_ 20 rfl
  · rintro u rfl
    simp only [keeps_call]
    refine ⟨trivial, fun now hnow => ?_⟩
    obtain rfl : now = value := hnow
    simp only [if_true]
    exact ⟨by simp, fun _ => hS⟩
  · rintro u rfl
    exact hS

theorem keeps_waitFor {look : Script Bool} (hS : S () v)
    (hlook : Keeps (agreement granted task) (fun _ u => u = v) look v) :
    Keeps (agreement granted task) S (waitFor look) v := by
  refine keeps_bind.mpr (keeps_attempts (fun u => u = v) ?_ ?_ 10 rfl)
  · rintro u rfl
    refine keeps_bind.mpr (hlook.mono fun b u hu => ?_)
    subst hu
    exact ⟨fun _ => rfl, fun _ => hS⟩
  · rintro u rfl
    exact hS

theorem keeps_do_rmmod (hS : ∀ v : View, (granted → v.1 = false) → S () v) :
    Keeps (agreement granted .unload) S do_rmmod v := by
  unfold do_rmmod
  simp only [lift_bind, keeps_call]
  refine ⟨rfl, fun removed hremoved => ?_⟩
  cases removed with
  | true => exact hS _ fun _ => by simp [agreement]
  | false =>
    have hv : granted → v.1 = false := fun hg => by simpa using hremoved hg
    simp only [Bool.false_eq_true, if_false, keeps_bind]
    refine keeps_do_setprop (fun _ he => by cases he) (by decide) ?_
    have hnext : ((agreement granted .unload).next v .rmmod false).1 = v.1 := by simp [agreement]
    exact keeps_waitFor (hS _ fun hg => hnext.trans (hv hg)) ⟨trivial, fun _ _ => rfl⟩

theorem keeps_do_insmod (hS : ∀ v, S () v) : Keeps (agreement granted .load) S do_insmod v := by
  unfold do_insmod
  simp only [lift_bind, keeps_call]
  refine ⟨rfl, fun inserted _ => ?_⟩
  cases inserted with
  | true => exact hS _
  | false =>
    simp only [Bool.false_eq_true, if_false, keeps_bind]
    refine keeps_do_setprop (fun _ he => by cases he) (by decide) ?_
    exact keeps_waitFor (hS _) ⟨trivial, fun _ _ => rfl⟩

/-- There is nothing to remove where there was nothing before. -/
theorem keeps_reload (hv : v.1 = false) (hS : ∀ v, S () v) : Keeps (agreement granted .load) S reload v := by
  unfold reload
  simp only [lift_bind, call_bind, keeps_call, keeps_bind]
  refine ⟨trivial, fun present hpresent => ?_⟩
  obtain rfl : present = v.1 := hpresent
  rw [hv]
  exact keeps_do_insmod fun _ => keeps_waitFor (hS _) ⟨trivial, fun _ _ => rfl⟩

end

section
variable {granted : Prop} {v : View}

theorem loaddriver_agrees : Keeps (agreement granted .load) (Answered .load) loaddriver v := by
  unfold loaddriver
  simp only [lift_bind, keeps_call]
  refine ⟨trivial, fun apmode _ => ?_⟩
  cases apmode with
  | true => exact keeps_do_setprop (fun _ he => by cases he) (by decide) (.inr rfl)
  | false =>
    simp only [Bool.false_eq_true, if_false, call_bind, keeps_call, keeps_bind]
    refine keeps_do_setprop (fun _ he => by cases he) (by decide) ⟨trivial, fun present hpresent => ?_⟩
    have hrest : ∀ v, Keeps (agreement granted .load) (Answered .load)
        (call .wlanEnableCheck fun b => if b then do_setprop .ok else do_setprop .failed) v := by
      refine fun v => ⟨trivial, fun enabled henabled => ?_⟩
      cases enabled with
      | true => exact keeps_do_setprop (fun _ _ => henabled rfl) (by decide) (.inl rfl)
      | false => exact keeps_do_setprop (fun _ he => by cases he) (by decide) (.inr rfl)
    cases present with
    | true => exact hrest _
    | false => exact keeps_reload hpresent.symm hrest

theorem unloaddriver_agrees : Keeps (agreement granted .unload) (Answered .unload) unloaddriver v := by
  unfold unloaddriver
  simp only [lift_bind, keeps_call]
  refine ⟨trivial, fun apmode _ => ?_⟩
  cases apmode with
  | true => exact keeps_do_setprop (fun _ he => by cases he) (by decide) (.inr rfl)
  | false =>
    simp only [Bool.false_eq_true, if_false, keeps_bind]
    refine keeps_do_rmmod fun v hv => keeps_waitFor ?_ ⟨trivial, fun _ _ => rfl⟩
    exact keeps_do_setprop (fun hg _ => hv hg) (by decide) (.inl rfl)

theorem script_agrees : ∀ task, Keeps (agreement granted task) (Answered task) (script task) v
  | .load => loaddriver_agrees
  | .unload => unloaddriver_agrees

end

/-! ## A run whose calls wait for rest -/

/-- No service runs, and none is about to. -/
def Quiet (w : World) : Prop := (∀ task, (w.services task).isNone) ∧ w.queue = []

instance (w : World) : Decidable (Quiet w) :=
  decidable_of_iff (((w.services .load).isNone ∧ (w.services .unload).isNone) ∧ w.queue = [])
    (and_congr_left fun _ => ⟨fun h task => by cases task; exacts [h.1, h.2], fun h => ⟨h _, h _⟩⟩)

/-- The service is about to remove the module. -/
def removes : Option (Script Unit) → Bool
  | some (.call .rmmod _) => true
  | _ => false

/-- The framework calls in quiet moments only; where `granted`, no `rmmod` of a module that is there
is refused. -/
def Orderly (granted : Prop) (w : World) : Event → Prop
  | .call _ => Quiet w
  | .service task b => granted → removes (w.services task) = true → b = true
  | _ => True

instance (granted : Prop) [Decidable granted] (w : World) : ∀ e, Decidable (Orderly granted w e)
  | .call _ => inferInstanceAs (Decidable (Quiet w))
  | .service task b => inferInstanceAs (Decidable (granted → removes (w.services task) = true → b = true))
  | .framework _ => inferInstanceAs (Decidable True)
  | .init => inferInstanceAs (Decidable True)

/-- The service for the task is the only one at work. -/
structure Working (granted : Prop) (task : Task) (w : World) : Prop where
  alone : w.services (other task) = none
  queue : ∀ t ∈ w.queue, t = task
  run : ∀ p, w.services task = some p → Keeps (agreement granted task) (Answered task) p (w.module, w.status)

def Phase (granted : Prop) (task : Task) (w : World) : WlanDriver.View → Prop
  | .start => Quiet w
  | .reported => Quiet w ∧ w.module = want task
  | .polling done =>
    Working granted task w ∧ (Quiet w → Answered task () (w.module, w.status)) ∧
      (granted → w.status = goal task ∨ done = true → w.module = want task)
  | .leaving => True

def Coherent (granted : Prop) (w : World) : Prop :=
  match w.framework with
  | .idle none => True
  | .idle (some (task, r)) => r = 0 → Working granted task w ∧ (granted → w.module = want task)
  | .running task p => ∃ v, Keeps (frameworkContract task) Returns p v ∧ Phase granted task w v

section
variable {granted : Prop} {task : Task} {w w' : World}

theorem Quiet.working (h : Quiet w) : Working granted task w where
  alone := by simpa using h.1 (other task)
  queue := by simp [h.2]
  run p hp := by
    have hnone := h.1 task
    simp [hp] at hnone

/-- What services alone do not change. -/
theorem Quiet.congr (h : Quiet w) (hs : w'.services = w.services) (hq : w'.queue = w.queue) : Quiet w' := by
  unfold Quiet
  rw [hs, hq]
  exact h

/-- The answer to a service is a possible one. -/
theorem possible_answer {b : Bool} {c : Call} {k : Answer c → Script Unit}
    (hs : w.services task = some (.call c k)) (ho : Orderly granted w (.service task b)) :
    (agreement granted task).possible (w.module, w.status) c (answer b w c) := by
  cases c with
  | getprop => rfl
  | moduleCheck => rfl
  | wlanEnableCheck =>
    intro h
    exact (Bool.and_eq_true_iff.mp h).2
  | insmod =>
    intro h
    simpa using (Bool.and_eq_true_iff.mp h).2
  | rmmod =>
    intro hg hm
    have hb := ho hg (by rw [hs]; rfl)
    exact Bool.and_eq_true_iff.mpr ⟨hb, hm⟩
  | _ => trivial

/-- The view follows the device. -/
theorem next_answer (party : Party) (b : Bool) (w : World) (c : Call) :
    (agreement granted task).next (w.module, w.status) c (answer b w c) =
      ((perform party b w c).module, (perform party b w c).status) := by
  cases c <;> simp only [agreement, answer, perform_module, perform_status]
  · cases w.module <;> cases b <;> rfl
  · cases w.module <;> cases b <;> rfl

theorem mem_queue_perform {party : Party} {b : Bool} {c : Call} (hq : ∀ t ∈ w.queue, t = task)
    (hc : ∀ value, c = .setprop value → trigger value ≠ some (other task)) :
    ∀ t ∈ (perform party b w c).queue, t = task := by
  intro t ht
  rw [perform_queue] at ht
  cases c with
  | setprop value =>
    simp only [enqueue] at ht
    split at ht
    · rename_i o ho
      split at ht
      · exact hq t ht
      · rcases List.mem_append.mp ht with ht | ht
        · exact hq t ht
        · obtain rfl := List.mem_singleton.mp ht
          by_contra hne
          exact hc value rfl (by rw [ho, eq_other_of_ne hne])
    · exact hq t ht
  | _ => exact hq t ht

/-- A module that is as wanted stays so. -/
theorem want_next {b : Bool} {c : Call} {party : Party} {v : View}
    (hc : (agreement granted task).allowed v c) (hm : w.module = want task) :
    (perform party b w c).module = want task := by
  rw [perform_module]
  cases c with
  | insmod =>
    obtain rfl : task = .load := hc
    simp_all
  | rmmod =>
    obtain rfl : task = .unload := hc
    simp_all
  | _ => exact hm

end

/-! ## One step -/

section
variable {granted : Prop} {task t : Task} {w w' : World} {b : Bool}

theorem step_service_framework : (step w (.service t b)).framework = w.framework := by
  simp only [step]
  split <;> simp

theorem step_init_framework : (step w .init).framework = w.framework := by
  simp only [step]
  split
  · rfl
  · split <;> simp

theorem Quiet.step_service (h : Quiet w) : step w (.service t b) = w := by
  have hs : w.services t = none := by simpa using h.1 t
  simp only [step, hs]

theorem Quiet.step_init (h : Quiet w) : step w .init = w := by
  simp only [step, h.2]

theorem Working.congr (h : Working granted task w) (hs : w'.services = w.services) (hq : w'.queue = w.queue)
    (hm : w'.module = w.module) (hst : w'.status = w.status) : Working granted task w' where
  alone := hs ▸ h.alone
  queue := hq ▸ h.queue
  run := by
    rw [hs, hm, hst]
    exact h.run

/-- While the framework waits: what its service does. -/
inductive Served (granted : Prop) (task : Task) (w w' : World) : Prop where
  | rest (h : w' = w)
  | ended (hm : w'.module = w.module) (hs : w'.status = w.status) (ha : Answered task () (w.module, w.status))
  | called (hrun : ¬ Quiet w') (hm : w.module = want task → w'.module = want task)
      (hgoal : granted → w'.status = goal task → w.status = goal task ∨ w'.module = want task)

theorem Working.service (h : Working granted task w) (ho : Orderly granted w (.service t b)) :
    Working granted task (step w (.service t b)) ∧ Served granted task w (step w (.service t b)) := by
  by_cases ht : t = task
  · subst ht
    cases hs : w.services t with
    | none =>
      have hw : step w (.service t b) = w := by simp only [step, hs]
      rw [hw]
      exact ⟨h, .rest rfl⟩
    | some p =>
      have hkeeps := h.run p hs
      cases p with
      | ret r =>
        have hw : step w (.service t b) = setService t none w := by simp only [step, hs]
        rw [hw]
        refine ⟨⟨?_, h.queue, ?_⟩, .ended rfl rfl hkeeps⟩
        · simpa [Function.update_of_ne (other_ne t)] using h.alone
        · simp
      | call c k =>
        have hw : step w (.service t b) =
            setService t (some (k (answer b w c))) (perform (.service t) b w c) := by simp only [step, hs]
        rw [hw]
        refine ⟨⟨?_, ?_, ?_⟩, .called ?_ ?_ ?_⟩
        · simpa [Function.update_of_ne (other_ne t)] using h.alone
        · refine mem_queue_perform h.queue ?_
          rintro value rfl
          exact hkeeps.1.2
        · intro p hp
          obtain rfl : k (answer b w c) = p := by simpa using hp
          have hnext := hkeeps.2 _ (possible_answer hs ho)
          rwa [next_answer (.service t)] at hnext
        · intro hq
          simpa using hq.1 t
        · exact want_next hkeeps.1
        · intro hg hgoal
          rw [setService_status, perform_status] at hgoal
          cases c with
          | setprop value => exact .inr (hkeeps.1.1 hg hgoal)
          | _ => exact .inl hgoal
  · have hs : w.services t = none := by rw [eq_other_of_ne ht, h.alone]
    have hw : step w (.service t b) = w := by simp only [step, hs]
    rw [hw]
    exact ⟨h, .rest rfl⟩

theorem Working.init (h : Working granted task w) :
    Working granted task (step w .init) ∧ Served granted task w (step w .init) := by
  cases hq : w.queue with
  | nil =>
    have hw : step w .init = w := by simp only [step, hq]
    rw [hw]
    exact ⟨h, .rest rfl⟩
  | cons t queue =>
    have hin : ∀ t' ∈ queue, t' = task := fun t' ht' => h.queue t' (by simp [hq, ht'])
    obtain rfl : t = task := h.queue t (by simp [hq])
    cases hs : w.services t with
    | some p =>
      have hw : step w .init = { w with queue } := by simp only [step, hq, hs]
      rw [hw]
      refine ⟨⟨h.alone, hin, h.run⟩, .called ?_ id fun _ => .inl⟩
      intro hquiet
      have hnone := hquiet.1 t
      simp [hs] at hnone
    | none =>
      have hw : step w .init = note (.started t) (setService t (some (script t)) { w with queue }) := by
        simp only [step, hq, hs]
      rw [hw]
      refine ⟨⟨?_, hin, ?_⟩, .called ?_ id fun _ => .inl⟩
      · simpa [Function.update_of_ne (other_ne t)] using h.alone
      · intro p hp
        obtain rfl : script t = p := by simpa using hp
        exact script_agrees t
      · intro hquiet
        simpa using hquiet.1 t

/-- What the service does suits every phase of the call. -/
theorem Phase.served {v : WlanDriver.View} (hw : Working granted task w') (hserved : Served granted task w w')
    (h : Phase granted task w v) (hquiet : Quiet w → w' = w) : Phase granted task w' v := by
  cases v with
  | start => exact hquiet h ▸ h
  | reported => exact hquiet h.1 ▸ h
  | leaving => trivial
  | polling done =>
    obtain ⟨-, hanswered, hwant⟩ := h
    refine ⟨hw, ?_⟩
    cases hserved with
    | rest hrest =>
      subst hrest
      exact ⟨hanswered, hwant⟩
    | ended hm hs ha =>
      rw [hm, hs]
      exact ⟨fun _ => ha, hwant⟩
    | called hrun hm hgoal =>
      refine ⟨fun hq => absurd hq hrun, fun hg hd => ?_⟩
      rcases hd with hd | hd
      · rcases hgoal hg hd with hd | hd
        · exact hm (hwant hg (.inl hd))
        · exact hd
      · exact hm (hwant hg (.inr hd))

theorem Served.want (h : Served granted task w w') (hm : w.module = want task) : w'.module = want task := by
  cases h with
  | rest h => rwa [h]
  | ended h => rwa [h]
  | called _ h => exact h hm

/-- The framework's own call in any phase. -/
theorem Phase.next {v : WlanDriver.View} {c : Call} {p : Script Int} (h : Phase granted task w v)
    (hc : (frameworkContract task).allowed v c) :
    Phase granted task { perform .framework b w c with framework := .running task p }
      ((frameworkContract task).next v c (answer b w c)) := by
  cases c with
  | setprop value =>
    obtain ⟨h₁, h₂, hstart, hr⟩ := hc
    by_cases hv : v = .start
    · subst hv
      obtain rfl := hstart rfl
      have hq : Quiet w := h
      have hqueue : (perform .framework b w (.setprop (request task))).queue = [task] := by
        rw [perform_queue, hq.2]
        cases task <;> rfl
      simp only [frameworkContract, if_true]
      refine ⟨⟨by simpa using hq.1 (other task), fun t ht => ?_, fun p hp => ?_⟩, fun hq' => ?_, fun _ hd => ?_⟩
      · rw [hqueue] at ht
        exact List.mem_singleton.mp ht
      · have hnone := hq.1 task
        simp_all
      · cases hqueue.symm.trans hq'.2
      · rcases hd with hd | hd
        · cases task <;> cases hd
        · cases hd
    · simp only [frameworkContract, hv, if_false]
      trivial
  | getprop =>
    cases v with
    | start => exact absurd rfl hc.1
    | reported => exact absurd rfl hc.2
    | leaving => trivial
    | polling done =>
      obtain ⟨hw, hanswered, hwant⟩ := h
      refine ⟨hw.congr rfl rfl rfl rfl, fun hq => hanswered (hq.congr rfl rfl), fun hg hd => hwant hg (.inl ?_)⟩
      exact hd.elim id of_decide_eq_true
  | check_driver_loaded =>
    obtain ⟨rfl, rfl⟩ := hc
    have hq : Quiet w := h
    have hquiet : Quiet { perform .framework b w .check_driver_loaded with framework := .running .load p } :=
      hq.congr (perform_services ..) (perform_queue ..)
    by_cases hd : b && w.module
    · simp only [frameworkContract, answer, hd, if_true]
      exact ⟨hquiet, by simpa using (Bool.and_eq_true_iff.mp hd).2⟩
    · simp only [frameworkContract, answer, hd, Bool.false_eq_true, if_false]
      exact hquiet
  | _ => exact hc.elim

/-- What a call has come to when it returns 0. -/
theorem Phase.returned {v : WlanDriver.View} {r : Int} (h : Phase granted task w v) (hr : Returns r v)
    (h0 : r = 0) : Working granted task w ∧ (granted → w.module = want task) := by
  obtain rfl | rfl := hr h0
  · exact ⟨h.1.working, fun _ => h.2⟩
  · exact ⟨h.1, fun hg => h.2.2 hg (.inr rfl)⟩

end

section
variable {granted : Prop} {w w' : World}

theorem Coherent.of_eq (hf : w'.framework = w.framework)
    (hidle : ∀ task, Working granted task w → (granted → w.module = want task) →
      Working granted task w' ∧ (granted → w'.module = want task))
    (hrun : ∀ task v, Phase granted task w v → Phase granted task w' v) (h : Coherent granted w) :
    Coherent granted w' := by
  unfold Coherent at h ⊢
  rw [hf]
  split
  · trivial
  · rename_i task r he
    rw [he] at h
    exact fun h0 => hidle task (h h0).1 (h h0).2
  · rename_i task p he
    rw [he] at h
    obtain ⟨v, hk, hv⟩ := h
    exact ⟨v, hk, hrun task v hv⟩

theorem coherent_service {t : Task} {b : Bool} (h : Coherent granted w) (ho : Orderly granted w (.service t b)) :
    Coherent granted (step w (.service t b)) := by
  refine h.of_eq step_service_framework (fun task hw hm => ?_) fun task v hv => ?_
  · obtain ⟨hw', hserved⟩ := hw.service ho
    exact ⟨hw', fun hg => hserved.want (hm hg)⟩
  · cases v with
    | leaving => trivial
    | polling done =>
      obtain ⟨hw', hserved⟩ := hv.1.service ho
      exact hv.served hw' hserved Quiet.step_service
    | start =>
      obtain ⟨hw', hserved⟩ := (Quiet.working hv).service ho
      exact hv.served hw' hserved Quiet.step_service
    | reported =>
      obtain ⟨hw', hserved⟩ := hv.1.working.service ho
      exact hv.served hw' hserved Quiet.step_service

theorem coherent_init (h : Coherent granted w) : Coherent granted (step w .init) := by
  refine h.of_eq step_init_framework (fun task hw hm => ?_) fun task v hv => ?_
  · obtain ⟨hw', hserved⟩ := hw.init
    exact ⟨hw', fun hg => hserved.want (hm hg)⟩
  · cases v with
    | leaving => trivial
    | polling done =>
      obtain ⟨hw', hserved⟩ := hv.1.init
      exact hv.served hw' hserved Quiet.step_init
    | start =>
      rw [Quiet.step_init hv]
      exact hv
    | reported =>
      rw [Quiet.step_init hv.1]
      exact hv

theorem coherent_framework {b : Bool} (h : Coherent granted w) : Coherent granted (step w (.framework b)) := by
  cases hf : w.framework with
  | idle last => simpa only [step, hf] using h
  | running task p =>
    unfold Coherent at h
    rw [hf] at h
    obtain ⟨v, hk, hv⟩ := h
    cases p with
    | ret r =>
      simp only [step, hf]
      intro h0
      obtain ⟨hw, hm⟩ := hv.returned hk h0
      exact ⟨hw.congr rfl rfl rfl rfl, hm⟩
    | call c k =>
      simp only [step, hf]
      exact ⟨_, hk.2 _ trivial, hv.next hk.1⟩

theorem coherent_call {task : Task} (h : Coherent granted w) (ho : Quiet w) :
    Coherent granted (step w (.call task)) := by
  cases hf : w.framework with
  | running t p => simpa only [step, hf] using h
  | idle last =>
    simp only [step, hf]
    exact ⟨.start, function_keeps task, ho.congr rfl rfl⟩

theorem coherent_step (e : Event) (h : Coherent granted w) (ho : Orderly granted w e) :
    Coherent granted (step w e) := by
  cases e with
  | call task => exact coherent_call h ho
  | framework b => exact coherent_framework h
  | service t b => exact coherent_service h ho
  | init => exact coherent_init h

end

theorem coherent_exec {granted : Prop} {module : Bool} {es : List Event}
    (h : AllSteps step (Orderly granted) (boot module) es) : Coherent granted (exec step (boot module) es) :=
  (allStates_of_guarded (fun _ e hs ho => coherent_step e hs ho) (show Coherent granted (boot module) from trivial)
    h).last

/-- From the moment a call has returned 0 until the next one begins, the module is as that call was
to leave it, whatever the services still do. -/
theorem module_of_returned (module : Bool) (es : List Event) (task : Task)
    (h : AllSteps step (Orderly True) (boot module) es)
    (hidle : (exec step (boot module) es).framework = .idle (some (task, 0))) :
    (exec step (boot module) es).module = want task := by
  have hc := coherent_exec h
  unfold Coherent at hc
  rw [hidle] at hc
  exact (hc rfl).2 trivial

/-- The module is loaded, then removed again. -/
theorem module_of_returned_unloaded :
    (exec step (boot false) ([.call .load, .framework false, .framework false, .init, .service .load false] ++
      List.replicate 10 (.service .load true) ++ [.framework false, .framework false, .call .unload,
      .framework false, .init, .service .unload false] ++ List.replicate 5 (.service .unload true) ++
      [.framework false, .framework false])).module = false :=
  module_of_returned false _ .unload (by decide) (by rfl)

-- Without the wait: the first call leaves a trigger behind, and its unloading overtakes the second.
example :
    let w := exec step (boot false) ([.call .load, .framework false, .framework false, .init] ++
      List.replicate 4 (.service .load true) ++ List.replicate 23 (.framework false) ++
      [.call .load, .framework false, .framework false, .init, .init, .service .load false] ++
      List.replicate 10 (.service .load true) ++ [.framework false, .framework false, .service .unload false] ++
      [.service .unload true])
    w.log.head? = some (.returned .load 0) ∧ w.module = false := by
  decide

/-! ## No answer is lost -/

theorem keeps_loop {v : WlanDriver.View} {n : Nat}
    (h : Keeps (frameworkContract .load) Returns (poll (n + 1) lookLoaded >>= concludeLoad) v) :
    ∃ done, v = .polling done := by
  obtain ⟨⟨hstart, hreported⟩, hok⟩ := h
  have h0 : Returns 0 ((frameworkContract .load).next v .getprop .ok) := hok .ok trivial
  cases v with
  | start => exact absurd rfl hstart
  | reported => exact absurd rfl hreported
  | polling done => exact ⟨done, rfl⟩
  | leaving => simp [Returns, frameworkContract] at h0

/-- While `wifi_load_driver` looks at the property with a look left, either a service is still at work
for it, or this look ends the wait. -/
theorem answered_of_quiet (module : Bool) (es : List Event) (n : Nat)
    (h : AllSteps step (Orderly False) (boot module) es)
    (hloop : (exec step (boot module) es).framework = .running .load (poll (n + 1) lookLoaded >>= concludeLoad))
    (hquiet : Quiet (exec step (boot module) es)) : lookLoaded (exec step (boot module) es).status ≠ none := by
  have hc := coherent_exec h
  unfold Coherent at hc
  rw [hloop] at hc
  obtain ⟨v, hk, hv⟩ := hc
  obtain ⟨done, rfl⟩ := keeps_loop hk
  have ha : (exec step (boot module) es).status = .ok ∨ (exec step (boot module) es).status = .failed :=
    hv.2.1 hquiet
  rcases ha with ha | ha
  · rw [ha]
    decide
  · rw [ha]
    decide

/-- The service finds the access point running and has answered so. -/
theorem answered_of_quiet_failed :
    lookLoaded (exec step (boot true) ([.call .load, .framework false, .framework false, .init] ++
      List.replicate 4 (.service .load true))).status ≠ none :=
  answered_of_quiet true _ 99 (by decide) (by rfl) (by decide)

end WlanAgreement
