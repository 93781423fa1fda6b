import Mathlib.Data.List.Basic

/-!
# Runs of a deterministic machine

A machine is a total step function on states and inputs. The two predicates
below speak about every state, respectively every step, of the run that a list
of inputs produces; the rules turn one-step facts into facts about runs of any
length.
-/
namespace Run

variable {σ τ ι : Type*}

/-- The state after consuming the whole input list. -/
def exec (step : σ → ι → σ) (s : σ) (ops : List ι) : σ := ops.foldl step s

@[simp] theorem exec_nil (step : σ → ι → σ) (s : σ) : exec step s [] = s := rfl
@[simp] theorem exec_cons (step : σ → ι → σ) (s : σ) (i : ι) (ops : List ι) :
    exec step s (i :: ops) = exec step (step s i) ops := rfl

theorem exec_append (step : σ → ι → σ) (s : σ) (xs ys : List ι) :
    exec step s (xs ++ ys) = exec step (exec step s xs) ys := List.foldl_append

/-- `P` holds in the first state and after each input. -/
def AllStates (step : σ → ι → σ) (P : σ → Prop) : σ → List ι → Prop
  | s, [] => P s
  | s, i :: ops => P s ∧ AllStates step P (step s i) ops

/-- `C` holds of each input and the state it is consumed in. -/
def AllSteps (step : σ → ι → σ) (C : σ → ι → Prop) : σ → List ι → Prop
  | _, [] => True
  | s, i :: ops => C s i ∧ AllSteps step C (step s i) ops

@[simp] theorem allStates_nil (step : σ → ι → σ) (P : σ → Prop) (s : σ) :
    AllStates step P s [] ↔ P s := Iff.rfl
@[simp] theorem allStates_cons (step : σ → ι → σ) (P : σ → Prop) (s : σ) (i : ι) (ops : List ι) :
    AllStates step P s (i :: ops) ↔ P s ∧ AllStates step P (step s i) ops := Iff.rfl
@[simp] theorem allSteps_nil (step : σ → ι → σ) (C : σ → ι → Prop) (s : σ) :
    AllSteps step C s [] ↔ True := Iff.rfl
@[simp] theorem allSteps_cons (step : σ → ι → σ) (C : σ → ι → Prop) (s : σ) (i : ι)
    (ops : List ι) :
    AllSteps step C s (i :: ops) ↔ C s i ∧ AllSteps step C (step s i) ops := Iff.rfl

instance decidableAllSteps (step : σ → ι → σ) (C : σ → ι → Prop) [∀ s i, Decidable (C s i)] :
    ∀ (s : σ) (ops : List ι), Decidable (AllSteps step C s ops)
  | _, [] => inferInstanceAs (Decidable True)
  | s, i :: ops =>
    have := decidableAllSteps step C (step s i) ops
    inferInstanceAs (Decidable (C s i ∧ AllSteps step C (step s i) ops))

/-- A property of every state is a property of the state after every prefix. -/
theorem allStates_iff_prefixes (step : σ → ι → σ) (P : σ → Prop) (s : σ) (ops : List ι) :
    AllStates step P s ops ↔ ∀ pre, pre <+: ops → P (exec step s pre) := by
  induction ops generalizing s with
  | nil => simp
  | cons i ops ih =>
    rw [allStates_cons, ih]
    constructor
    · rintro ⟨hs, h⟩ pre hpre
      cases pre with
      | nil => exact hs
      | cons j pre =>
        obtain ⟨rfl, ht⟩ := List.cons_prefix_cons.mp hpre
        exact h pre ht
    · intro h
      refine ⟨h [] List.nil_prefix, fun pre hpre => ?_⟩
      exact h (i :: pre) (List.cons_prefix_cons.mpr ⟨rfl, hpre⟩)

theorem AllStates.mono {step : σ → ι → σ} {P Q : σ → Prop} (hPQ : ∀ s, P s → Q s) {s : σ}
    {ops : List ι} (h : AllStates step P s ops) : AllStates step Q s ops := by
  rw [allStates_iff_prefixes] at h ⊢
  exact fun pre hpre => hPQ _ (h pre hpre)

theorem AllStates.last {step : σ → ι → σ} {P : σ → Prop} {s : σ} {ops : List ι}
    (h : AllStates step P s ops) : P (exec step s ops) :=
  (allStates_iff_prefixes step P s ops).mp h ops List.prefix_rfl

/-- The invariant rule: what every step preserves holds in every state. -/
theorem allStates_of_invariant {step : σ → ι → σ} {Inv : σ → Prop}
    (hstep : ∀ s i, Inv s → Inv (step s i)) {s : σ} (h : Inv s) (ops : List ι) :
    AllStates step Inv s ops := by
  induction ops generalizing s with
  | nil => exact h
  | cons i ops ih => exact ⟨h, ih (hstep s i h)⟩

/-- The invariant rule for guarded runs. -/
theorem allStates_of_guarded {step : σ → ι → σ} {Inv : σ → Prop} {C : σ → ι → Prop}
    (hstep : ∀ s i, Inv s → C s i → Inv (step s i)) {s : σ} (h : Inv s) {ops : List ι}
    (hC : AllSteps step C s ops) : AllStates step Inv s ops := by
  induction ops generalizing s with
  | nil => exact h
  | cons i ops ih => exact ⟨h, ih (hstep s i h hC.1) hC.2⟩

/-- What holds of each step from a good state holds of all steps of a run through good states. -/
theorem allSteps_of_allStates {step : σ → ι → σ} {P : σ → Prop} {C : σ → ι → Prop}
    (h : ∀ s i, P s → C s i) {s : σ} {ops : List ι} (hP : AllStates step P s ops) :
    AllSteps step C s ops := by
  induction ops generalizing s with
  | nil => trivial
  | cons i ops ih => exact ⟨h s i hP.1, ih hP.2⟩

/-- Two step conditions combine step by step. -/
theorem AllSteps.map₂ {step : σ → ι → σ} {C D E : σ → ι → Prop} (h : ∀ s i, C s i → D s i → E s i)
    {s : σ} {ops : List ι} (hC : AllSteps step C s ops) (hD : AllSteps step D s ops) :
    AllSteps step E s ops := by
  induction ops generalizing s with
  | nil => trivial
  | cons i ops ih => exact ⟨h s i hC.1 hD.1, ih hC.2 hD.2⟩

/-- Two step conditions that agree wherever an invariant holds agree on runs. -/
theorem allSteps_iff_of_invariant {step : σ → ι → σ} (Inv : σ → Prop) {C D : σ → ι → Prop}
    (hinv : ∀ s i, Inv s → Inv (step s i)) (h : ∀ s i, Inv s → (C s i ↔ D s i)) {s : σ} (hs : Inv s)
    (ops : List ι) : AllSteps step C s ops ↔ AllSteps step D s ops := by
  induction ops generalizing s with
  | nil => exact Iff.rfl
  | cons i ops ih => rw [allSteps_cons, allSteps_cons, h s i hs, ih (hinv s i hs)]

/-- Two step conditions that agree wherever an invariant holds, which the second one keeps. -/
theorem allSteps_iff_of_guarded {step : σ → ι → σ} (Inv : σ → Prop) {C D : σ → ι → Prop}
    (hinv : ∀ s i, Inv s → D s i → Inv (step s i)) (h : ∀ s i, Inv s → (C s i ↔ D s i)) {s : σ}
    (hs : Inv s) (ops : List ι) : AllSteps step C s ops ↔ AllSteps step D s ops := by
  induction ops generalizing s with
  | nil => exact Iff.rfl
  | cons i ops ih =>
    rw [allSteps_cons, allSteps_cons, h s i hs]
    exact and_congr_right fun hd => ih (hinv s i hs hd)

/-- The exact rule for guarded runs: the steps that meet `C` keep the background invariant. -/
theorem allStates_iff_allSteps_of_guarded {step : σ → ι → σ} (Inv : σ → Prop) {P : σ → Prop} {C : σ → ι → Prop}
    (hinv : ∀ s i, Inv s → P s → C s i → Inv (step s i))
    (hstep : ∀ s i, Inv s → P s → (P (step s i) ↔ C s i))
    {s : σ} (hs : Inv s) (hP : P s) (ops : List ι) :
    AllStates step P s ops ↔ AllSteps step C s ops := by
  induction ops generalizing s with
  | nil => simpa using hP
  | cons i ops ih =>
    simp only [allStates_cons, allSteps_cons, hP, true_and]
    constructor
    · intro h
      have hi : P (step s i) := by
        cases ops with
        | nil => exact h
        | cons j ops => exact h.1
      have hc := (hstep s i hs hP).mp hi
      exact ⟨hc, (ih (hinv s i hs hP hc) hi).mp h⟩
    · rintro ⟨hc, h⟩
      exact (ih (hinv s i hs hP hc) ((hstep s i hs hP).mpr hc)).mpr h

/-- The exact rule. Under a background invariant `Inv`, a good state stays good
in exactly the steps that meet `C`; then the runs through good states only are
exactly the runs whose steps all meet `C`. -/
theorem allStates_iff_allSteps {step : σ → ι → σ} (Inv : σ → Prop) {P : σ → Prop} {C : σ → ι → Prop}
    (hinv : ∀ s i, Inv s → Inv (step s i))
    (hstep : ∀ s i, Inv s → P s → (P (step s i) ↔ C s i))
    {s : σ} (hs : Inv s) (hP : P s) (ops : List ι) :
    AllStates step P s ops ↔ AllSteps step C s ops :=
  allStates_iff_allSteps_of_guarded Inv (fun s i h _ _ => hinv s i h) hstep hs hP ops

/-- `s'` comes from `s` by inputs that all meet `Q`. -/
def Reaches (step : σ → ι → σ) (Q : ι → Prop) (s s' : σ) : Prop :=
  ∃ ops, (∀ i ∈ ops, Q i) ∧ exec step s ops = s'

namespace Reaches

variable {step : σ → ι → σ} {Q : ι → Prop} {s t u : σ}

theorem refl (s : σ) : Reaches step Q s s := ⟨[], by simp, rfl⟩

theorem single {i : ι} (hi : Q i) : Reaches step Q s (step s i) := ⟨[i], by simpa using hi, rfl⟩

theorem trans (h₁ : Reaches step Q s t) (h₂ : Reaches step Q t u) : Reaches step Q s u := by
  obtain ⟨xs, hx, rfl⟩ := h₁
  obtain ⟨ys, hy, rfl⟩ := h₂
  refine ⟨xs ++ ys, fun i hi => ?_, exec_append step s xs ys⟩
  rcases List.mem_append.mp hi with h | h
  · exact hx i h
  · exact hy i h

theorem mono {Q' : ι → Prop} (hQ : ∀ i, Q i → Q' i) (h : Reaches step Q s t) :
    Reaches step Q' s t := by
  obtain ⟨ops, hops, ht⟩ := h
  exact ⟨ops, fun i hi => hQ i (hops i hi), ht⟩

/-- The invariant rule for a composite step. -/
theorem preserves (Inv : σ → Prop) (hstep : ∀ s i, Q i → Inv s → Inv (step s i))
    (h : Reaches step Q s t) (hs : Inv s) : Inv t := by
  obtain ⟨ops, hops, rfl⟩ := h
  induction ops generalizing s with
  | nil => exact hs
  | cons i ops ih =>
    exact ih (hstep s i (hops i List.mem_cons_self) hs) fun j hj => hops j (List.mem_cons_of_mem i hj)

end Reaches

end Run
