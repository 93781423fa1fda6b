import Mathlib.Logic.Function.Basic

/-!
# Steps that act on one component

A script over several components, each step of which reads and writes one of them and may
fail, is one script for each component.
-/
namespace LocalSteps

universe u v w

variable {ι : Type u} {κ : Type v} {σ : Type w} [DecidableEq κ]

/-- A step on the component it belongs to. -/
def lift (place : ι → κ) (f : σ → ι → Option σ) (t : κ → σ) (i : ι) : Option (κ → σ) :=
  (f (t (place i)) i).map (Function.update t (place i))

theorem lift_eq_some {place : ι → κ} {f : σ → ι → Option σ} {t t' : κ → σ} {i : ι} :
    lift place f t i = some t' ↔ ∃ s, f (t (place i)) i = some s ∧ Function.update t (place i) s = t' := by
  unfold lift
  rw [Option.map_eq_some_iff]

/-- A script succeeds with a state exactly when each component's own steps lead to its part of it. -/
theorem foldlM_lift_iff (place : ι → κ) (f : σ → ι → Option σ) (l : List ι) (t t' : κ → σ) :
    l.foldlM (lift place f) t = some t' ↔
      ∀ k, (l.filter fun i => place i = k).foldlM f (t k) = some (t' k) := by
  induction l generalizing t with
  | nil => simp [funext_iff]
  | cons i l ih =>
    have hself : ((i :: l).filter fun j => place j = place i) = i :: l.filter fun j => place j = place i :=
      List.filter_cons_of_pos (by simp)
    have hother {k : κ} (hk : k ≠ place i) :
        ((i :: l).filter fun j => place j = k) = l.filter fun j => place j = k :=
      List.filter_cons_of_neg (by simpa using hk.symm)
    rw [List.foldlM_cons, Option.bind_eq_bind, Option.bind_eq_some_iff]
    constructor
    · rintro ⟨u, hu, hrest⟩ k
      obtain ⟨s, hs, rfl⟩ := lift_eq_some.mp hu
      have hk := (ih _).mp hrest k
      by_cases he : k = place i
      · subst he
        rw [hself, List.foldlM_cons, hs]
        rw [Function.update_self] at hk
        exact hk
      · rw [hother he]
        rw [Function.update_of_ne he] at hk
        exact hk
    · intro h
      have hi := h (place i)
      rw [hself, List.foldlM_cons, Option.bind_eq_bind, Option.bind_eq_some_iff] at hi
      obtain ⟨s, hs, hrest⟩ := hi
      refine ⟨Function.update t (place i) s, lift_eq_some.mpr ⟨s, hs, rfl⟩, (ih _).mpr fun k => ?_⟩
      by_cases he : k = place i
      · subst he
        rw [Function.update_self]
        exact hrest
      · rw [Function.update_of_ne he, ← hother he]
        exact h k

/-- Some state is reached, with a property of each component, exactly when each component's own
steps reach one. -/
theorem exists_foldlM_lift_iff (place : ι → κ) (f : σ → ι → Option σ) (l : List ι) (t : κ → σ)
    (P : κ → σ → Prop) :
    (∃ t', l.foldlM (lift place f) t = some t' ∧ ∀ k, P k (t' k)) ↔
      ∀ k, ∃ s, (l.filter fun i => place i = k).foldlM f (t k) = some s ∧ P k s := by
  constructor
  · rintro ⟨t', h, hP⟩ k
    exact ⟨t' k, (foldlM_lift_iff place f l t t').mp h k, hP k⟩
  · intro h
    obtain ⟨t', ht'⟩ := Classical.axiomOfChoice h
    exact ⟨t', (foldlM_lift_iff place f l t t').mpr fun k => (ht' k).1, fun k => (ht' k).2⟩

/-! ## Steps that do not meet -/

/-- Whether `j` succeeds is the same before and behind `i`. -/
def Spares (f : σ → ι → Option σ) (i j : ι) : Prop :=
  ∀ s s', f s i = some s' → ((f s' j).isSome = true ↔ (f s j).isSome = true)

/-- A script of steps that do not meet succeeds exactly when each of its steps would alone. -/
theorem exists_foldlM_iff {f : σ → ι → Option σ} {l : List ι} (hl : l.Pairwise (Spares f)) (s : σ) :
    (∃ s', l.foldlM f s = some s') ↔ ∀ i ∈ l, (f s i).isSome = true := by
  induction l generalizing s with
  | nil => exact iff_of_true ⟨s, rfl⟩ nofun
  | cons i l ih =>
    obtain ⟨hhead, htail⟩ := List.pairwise_cons.mp hl
    rw [List.forall_mem_cons, List.foldlM_cons]
    cases hi : f s i with
    | none => exact iff_of_false (fun ⟨_, he⟩ => nomatch he) fun he => Bool.noConfusion he.1
    | some u =>
      have hrest : (∀ j ∈ l, (f u j).isSome = true) ↔ ∀ j ∈ l, (f s j).isSome = true :=
        forall₂_congr fun j hj => hhead j hj s u hi
      rw [Option.bind_eq_bind, Option.bind_some, ih htail, hrest]
      exact ⟨fun he => ⟨rfl, he⟩, fun he => he.2⟩

end LocalSteps
