import Mathlib.Data.List.Induction
import Mathlib.Data.List.Perm.Basic

/-!
# A slot that elements claim

Elements are offered to a slot one after the other: some take it, some take it when it is empty.
What ends up in it does not depend on their order exactly when all that may end up in it agree.
-/
namespace Preference

variable {α β : Type*}

/-- How an element claims the slot. -/
inductive Rule where
  | overwrite
  | fill
  | skip
  deriving DecidableEq, Repr

section
variable (rule : α → Rule) (value : α → β)

/-- The slot after an offer. -/
def offer (slot : Option β) (a : α) : Option β :=
  match rule a with
  | .overwrite => some (value a)
  | .fill => some (slot.getD (value a))
  | .skip => slot

def pick (l : List α) : Option β := l.foldl (offer rule value) none

/-- The elements that take the slot; without any, those that fill it. -/
def Candidate (l : List α) (a : α) : Prop :=
  a ∈ l ∧ (rule a = .overwrite ∨ rule a = .fill ∧ ∀ b ∈ l, rule b ≠ .overwrite)

end

variable {rule : α → Rule} {value : α → β}

theorem pick_concat (l : List α) (a : α) : pick rule value (l ++ [a]) = offer rule value (pick rule value l) a := by
  rw [pick, List.foldl_append]
  rfl

theorem Candidate.concat {l : List α} {a b : α} (h : Candidate rule l b) (ha : rule a ≠ .overwrite) :
    Candidate rule (l ++ [a]) b := by
  refine ⟨List.mem_append_left _ h.1, h.2.imp_right fun ⟨hfill, hno⟩ => ⟨hfill, fun c hc => ?_⟩⟩
  rcases List.mem_append.mp hc with hc | hc
  · exact hno c hc
  · rw [List.mem_singleton.mp hc]
    exact ha

theorem Candidate.perm {l l' : List α} {a : α} (h : Candidate rule l a) (hperm : l'.Perm l) : Candidate rule l' a :=
  ⟨hperm.mem_iff.mpr h.1, h.2.imp_right fun ⟨hfill, hno⟩ => ⟨hfill, fun b hb => hno b (hperm.mem_iff.mp hb)⟩⟩

/-- The slot holds a candidate, unless nobody claims it. -/
theorem pick_candidate (rule : α → Rule) (value : α → β) (l : List α) :
    (pick rule value l = none ∧ ∀ a ∈ l, rule a = .skip) ∨
    ∃ a, Candidate rule l a ∧ pick rule value l = some (value a) := by
  induction l using List.reverseRecOn with
  | nil => exact .inl ⟨rfl, nofun⟩
  | append_singleton l a ih =>
    rw [pick_concat, offer]
    have hlast : a ∈ l ++ [a] := List.mem_append_right _ List.mem_cons_self
    cases ha : rule a with
    | overwrite => exact .inr ⟨a, ⟨hlast, .inl ha⟩, rfl⟩
    | fill =>
      rcases ih with ⟨hnone, hskip⟩ | ⟨b, hb, hpick⟩
      · refine .inr ⟨a, ⟨hlast, .inr ⟨ha, fun c hc hover => ?_⟩⟩, by rw [hnone]; rfl⟩
        rcases List.mem_append.mp hc with hc | hc
        · rw [hskip c hc] at hover
          cases hover
        · rw [List.mem_singleton.mp hc, ha] at hover
          cases hover
      · refine .inr ⟨b, hb.concat ?_, by rw [hpick]; rfl⟩
        rw [ha]
        exact nofun
    | skip =>
      rcases ih with ⟨hnone, hskip⟩ | ⟨b, hb, hpick⟩
      · refine .inl ⟨hnone, fun c hc => ?_⟩
        rcases List.mem_append.mp hc with hc | hc
        · exact hskip c hc
        · rw [List.mem_singleton.mp hc, ha]
      · refine .inr ⟨b, hb.concat ?_, hpick⟩
        rw [ha]
        exact nofun

theorem pick_eq_none_iff {l : List α} : pick rule value l = none ↔ ∀ a ∈ l, rule a = .skip := by
  constructor
  · intro h
    rcases pick_candidate rule value l with ⟨-, hskip⟩ | ⟨a, -, hpick⟩
    · exact hskip
    · cases h.symm.trans hpick
  · intro h
    rcases pick_candidate rule value l with ⟨hnone, -⟩ | ⟨a, ⟨ha, hrule⟩, -⟩
    · exact hnone
    · rw [h a ha] at hrule
      rcases hrule with hrule | ⟨hrule, -⟩ <;> cases hrule

/-- A slot that is taken stays so while nobody takes it over. -/
theorem foldl_offer_some {l : List α} (h : ∀ b ∈ l, rule b ≠ .overwrite) (v : β) :
    l.foldl (offer rule value) (some v) = some v := by
  induction l with
  | nil => rfl
  | cons b l ih =>
    obtain ⟨hb, hl⟩ := List.forall_mem_cons.mp h
    have hkeep : offer rule value (some v) b = some v := by
      unfold offer
      cases hrule : rule b with
      | overwrite => exact absurd hrule hb
      | fill => rfl
      | skip => rfl
    rw [List.foldl_cons, hkeep, ih hl]

/-- In some order a candidate ends up in the slot. -/
theorem Candidate.picked {l : List α} {a : α} (h : Candidate rule l a) (value : α → β) :
    ∃ l' : List α, l'.Perm l ∧ pick rule value l' = some (value a) := by
  obtain ⟨hmem, hrule⟩ := h
  obtain ⟨s, t, rfl⟩ := List.append_of_mem hmem
  rcases hrule with hover | ⟨hfill, hno⟩
  · refine ⟨s ++ t ++ [a], (List.perm_append_singleton a (s ++ t)).trans List.perm_middle.symm, ?_⟩
    rw [pick_concat, offer, hover]
  · refine ⟨a :: (s ++ t), List.perm_middle.symm, ?_⟩
    have hrest : ∀ b ∈ s ++ t, rule b ≠ .overwrite := fun b hb => hno b (List.perm_middle.mem_iff.mpr (.tail a hb))
    rw [pick, List.foldl_cons, offer, hfill]
    exact foldl_offer_some hrest (value a)

/-- The order does not matter exactly when the candidates have one value. -/
theorem pick_perm_iff (l : List α) : (∀ l' : List α, l'.Perm l → pick rule value l' = pick rule value l) ↔
    ∀ a b, Candidate rule l a → Candidate rule l b → value a = value b := by
  constructor
  · intro h a b ha hb
    obtain ⟨la, hla, hpa⟩ := ha.picked value
    obtain ⟨lb, hlb, hpb⟩ := hb.picked value
    have hsame : some (value a) = some (value b) := by rw [← hpa, ← hpb, h la hla, h lb hlb]
    exact Option.some.inj hsame
  · intro h l' hperm
    rcases pick_candidate rule value l with ⟨hnone, hskip⟩ | ⟨a, ha, hpick⟩
    · rw [hnone, pick_eq_none_iff]
      exact fun a ha => hskip a (hperm.mem_iff.mp ha)
    · rcases pick_candidate rule value l' with ⟨-, hskip⟩ | ⟨b, hb, hpick'⟩
      · have hnone : pick rule value l = none := pick_eq_none_iff.mpr fun c hc => hskip c (hperm.mem_iff.mpr hc)
        cases hnone.symm.trans hpick
      · rw [hpick, hpick', h b a (hb.perm hperm.symm) ha]

end Preference
