import Mathlib.Data.List.Basic

/-!
# Ledgers of descriptors

A log, newest event first, in which some events hand an item out, some take it back and
some use it. A ledger is in order when everything that was handed out is either held or
was taken back once, and nothing is used that is not out.
-/
namespace Ledger

variable {ε ι : Type*}

/-- What the events of a log say about the items. -/
structure Events (ε ι : Type*) where
  acquires : ε → Option ι
  releases : ε → Option ι
  uses : ε → Option ι

variable [DecidableEq ι] (k : Events ε ι)

def acquired (log : List ε) (i : ι) : Nat := log.countP fun e => k.acquires e = some i
def released (log : List ε) (i : ι) : Nat := log.countP fun e => k.releases e = some i

/-- The item was handed out and not taken back. -/
def Live (log : List ε) (i : ι) : Prop := acquired k log i = 1 ∧ released k log i = 0

/-- Each use is of an item that is out at that point. -/
def UsesLive : List ε → Prop
  | [] => True
  | e :: older => (∀ i ∈ k.uses e, Live k older i) ∧ UsesLive older

instance (log : List ε) (i : ι) : Decidable (Live k log i) := inferInstanceAs (Decidable (_ ∧ _))

/-- `held` are the items that are out; every other one has come back as often as it went, once
at most. -/
structure InOrder (held : ι → Prop) (log : List ε) : Prop where
  live : ∀ i, held i → Live k log i
  settled : ∀ i, ¬ held i → released k log i = acquired k log i ∧ acquired k log i ≤ 1
  used : UsesLive k log

/-! ## The rules -/

@[simp] theorem acquired_cons (e : ε) (log : List ε) (i : ι) : acquired k (e :: log) i =
    acquired k log i + if k.acquires e = some i then 1 else 0 := by
  simp [acquired, List.countP_cons]

@[simp] theorem released_cons (e : ε) (log : List ε) (i : ι) : released k (e :: log) i =
    released k log i + if k.releases e = some i then 1 else 0 := by
  simp [released, List.countP_cons]

theorem inOrder_nil : InOrder k (fun _ => False) [] := by
  constructor
  · intro i hi
    exact hi.elim
  · intro i _
    exact ⟨rfl, Nat.zero_le 1⟩
  · trivial

variable {k} {held : ι → Prop} {log : List ε} {e : ε} {i : ι}

theorem InOrder.congr {held' : ι → Prop} (h : InOrder k held log) (he : ∀ i, held' i ↔ held i) :
    InOrder k held' log := by
  have hsame : held' = held := funext fun i => propext (he i)
  rw [hsame]
  exact h

/-- What is out is held. -/
theorem InOrder.live_iff (h : InOrder k held log) (i : ι) : Live k log i ↔ held i := by
  constructor
  · intro hl
    by_contra hno
    have hs := (h.settled i hno).1
    rw [hl.1, hl.2] at hs
    cases hs
  · exact h.live i

/-- An event that uses a held item, or none. -/
theorem InOrder.use (h : InOrder k held log) (ha : k.acquires e = none) (hr : k.releases e = none)
    (hu : ∀ i ∈ k.uses e, held i) : InOrder k held (e :: log) := by
  have hlive : ∀ i, Live k (e :: log) i ↔ Live k log i := by
    intro i
    simp [Live, ha, hr]
  constructor
  · intro i hi
    exact (hlive i).mpr (h.live i hi)
  · intro i hi
    simpa [ha, hr] using h.settled i hi
  · exact ⟨fun i hi => h.live i (hu i hi), h.used⟩

/-- A new item is handed out. -/
theorem InOrder.acquire (h : InOrder k held log) (ha : k.acquires e = some i) (hr : k.releases e = none)
    (hu : k.uses e = none) (hnew : acquired k log i = 0) :
    InOrder k (fun j => j = i ∨ held j) (e :: log) := by
  have hi : ¬ held i := by
    intro hi
    have hl := (h.live i hi).1
    omega
  constructor
  · rintro j (rfl | hj)
    · have hs := h.settled j hi
      exact ⟨by simp [ha, hnew], by simp [hr]; omega⟩
    · have hne : i ≠ j := by
        rintro rfl
        exact hi hj
      simpa [Live, ha, hr, hne] using h.live j hj
  · intro j hj
    rw [not_or] at hj
    have hne : i ≠ j := fun hij => hj.1 hij.symm
    simpa [ha, hr, hne] using h.settled j hj.2
  · refine ⟨fun j hj => ?_, h.used⟩
    rw [hu] at hj
    cases hj

/-- A held item is taken back. -/
theorem InOrder.release (h : InOrder k held log) (ha : k.acquires e = none) (hr : k.releases e = some i)
    (hu : ∀ j ∈ k.uses e, j = i) (hi : held i) : InOrder k (fun j => held j ∧ j ≠ i) (e :: log) := by
  have hl := h.live i hi
  constructor
  · rintro j ⟨hj, hne⟩
    simpa [Live, ha, hr, Ne.symm hne] using h.live j hj
  · intro j hj
    by_cases hij : j = i
    · subst hij
      simp [ha, hr, hl.1, hl.2]
    · have hs := h.settled j fun hh => hj ⟨hh, hij⟩
      simpa [ha, hr, Ne.symm hij] using hs
  · refine ⟨fun j hj => ?_, h.used⟩
    rw [hu j hj]
    exact hl

/-- What was handed out and is not held was taken back once. -/
theorem InOrder.released_once (h : InOrder k held log) (hi : ¬ held i) (ha : acquired k log i ≠ 0) :
    acquired k log i = 1 ∧ released k log i = 1 := by
  have hs := h.settled i hi
  omega

end Ledger
