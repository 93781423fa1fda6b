import Mathlib.Data.List.Pairwise
import Mathlib.Order.Lattice
import Mathlib.Data.Int.Order.Basic
import Mathlib.Data.Nat.Basic

/-!
# The nearest entry of a table

The entries have places on a line. A scan of an ascending table that stops as soon as the distance
grows finds the nearest entry, when distances that have grown keep growing.
-/
namespace Nearest

variable {α κ δ ε : Type*} [LinearOrder κ] [LinearOrder δ] [LinearOrder ε]

/-- At the least distance, and the highest entry on a tie. -/
structure IsNearest (place : α → κ) (l : List α) (d : α → δ) (a : α) : Prop where
  mem : a ∈ l
  below : ∀ b ∈ l, place b < place a → d a ≤ d b
  above : ∀ b ∈ l, place a < place b → d a < d b

/-- The entry before the first one that is farther than the one before it. -/
def scan (d : α → δ) : α → List α → α
  | a, [] => a
  | a, b :: l => if d a < d b then a else scan d b l

/-- Distances that have grown keep growing. -/
def Valley (place : α → κ) (d : α → δ) (l : List α) : Prop :=
  ∀ a ∈ l, ∀ b ∈ l, ∀ c ∈ l, place a < place b → place b < place c → d a < d b → d b < d c

def Ascending (place : α → κ) (l : List α) : Prop := l.Pairwise fun a b => place a < place b

variable {place : α → κ} {d : α → δ} {d' : α → ε} {l : List α} {a b : α}

theorem Valley.congr (h : Valley place d l)
    (hd : ∀ b ∈ l, ∀ c ∈ l, place b < place c → (d b < d c ↔ d' b < d' c)) : Valley place d' l := by
  intro a ha b hb c hc hab hbc hgrows
  rw [← hd a ha b hb hab] at hgrows
  rw [← hd b hb c hc hbc]
  exact h a ha b hb c hc hab hbc hgrows

theorem Valley.tail (h : Valley place d (a :: l)) : Valley place d l :=
  fun x hx y hy z hz => h x (List.mem_cons_of_mem a hx) y (List.mem_cons_of_mem a hy) z (List.mem_cons_of_mem a hz)

/-- An entry that is nearer than all behind it. -/
theorem isNearest_head (hhead : ∀ b ∈ l, place a < place b ∧ d a < d b) : IsNearest place (a :: l) d a := by
  refine ⟨List.mem_cons_self, fun b hb hlt => ?_, fun b hb hlt => ?_⟩
  · rcases List.mem_cons.mp hb with rfl | hb
    · exact le_rfl
    · exact absurd hlt (lt_asymm (hhead b hb).1)
  · rcases List.mem_cons.mp hb with rfl | hb
    · exact absurd hlt (lt_irrefl _)
    · exact (hhead b hb).2

/-- An entry in front that is no nearer than the next one does not count. -/
theorem IsNearest.cons {c : α} (hsorted : Ascending place (a :: b :: l)) (hab : d b ≤ d a)
    (h : IsNearest place (b :: l) d c) : IsNearest place (a :: b :: l) d c := by
  obtain ⟨hhead, htail⟩ := List.pairwise_cons.mp hsorted
  refine ⟨List.mem_cons_of_mem a h.mem, fun x hx hlt => ?_, fun x hx hlt => ?_⟩
  · rcases List.mem_cons.mp hx with rfl | hx
    · refine le_trans ?_ hab
      rcases List.mem_cons.mp h.mem with rfl | hc
      · exact le_rfl
      · exact h.below b List.mem_cons_self ((List.pairwise_cons.mp htail).1 c hc)
    · exact h.below x hx hlt
  · rcases List.mem_cons.mp hx with rfl | hx
    · exact absurd hlt (lt_asymm (hhead c h.mem))
    · exact h.above x hx hlt

theorem scan_nearest (hsorted : Ascending place (a :: l)) (hvalley : Valley place d (a :: l)) :
    IsNearest place (a :: l) d (scan d a l) := by
  induction l generalizing a with
  | nil => exact isNearest_head nofun
  | cons b l ih =>
    obtain ⟨hhead, htail⟩ := List.pairwise_cons.mp hsorted
    have hab : place a < place b := hhead b List.mem_cons_self
    unfold scan
    by_cases hgrows : d a < d b
    · rw [if_pos hgrows]
      refine isNearest_head fun c hc => ⟨hhead c hc, ?_⟩
      rcases List.mem_cons.mp hc with rfl | hc
      · exact hgrows
      · have hbc : place b < place c := (List.pairwise_cons.mp htail).1 c hc
        exact lt_trans hgrows (hvalley a (by simp) b (by simp) c (by simp [hc]) hab hbc hgrows)
    · rw [if_neg hgrows]
      exact (ih htail hvalley.tail).cons hsorted (not_lt.mp hgrows)

/-- Only the order of the distances counts. -/
theorem IsNearest.congr (h : IsNearest place l d a)
    (hd : ∀ b ∈ l, ∀ c ∈ l, place b < place c → (d b < d c ↔ d' b < d' c)) : IsNearest place l d' a := by
  refine ⟨h.mem, fun b hb hlt => ?_, fun b hb hlt => ?_⟩
  · rw [← not_lt, ← hd b hb a h.mem hlt, not_lt]
    exact h.below b hb hlt
  · rw [← hd a h.mem b hb hlt]
    exact h.above b hb hlt

/-! ## Distances on the line -/

/-- How far an entry is from `x`. -/
def away (place : α → Int) (x : Int) (a : α) : Nat := (x - place a).natAbs

section
variable {place : α → Int} {x y : Int}

theorem valley_away (place : α → Int) (x : Int) (l : List α) : Valley place (away place x) l := by
  intro a _ b _ c _ hab hbc hgrows
  unfold away at hgrows ⊢
  omega

/-- The nearest entry of a greater number is no lower. -/
theorem IsNearest.mono (hxy : x ≤ y) (ha : IsNearest place l (away place x) a)
    (hb : IsNearest place l (away place y) b) : place a ≤ place b := by
  by_contra hlt
  rw [not_le] at hlt
  have hx := ha.below b hb.mem hlt
  have hy := hb.above a ha.mem hlt
  unfold away at hx hy
  omega

end

end Nearest
