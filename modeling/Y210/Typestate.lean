import Mathlib.Data.List.Basic

/-!
# The protocols of items

A log, newest event first, in which an event is about one item or about none. A protocol says
which events an item takes at which stage; a log obeys it when no item got an event out of turn.
-/
namespace Typestate

structure Protocol (ε ι σ : Type*) where
  item : ε → Option ι
  init : σ
  next : σ → ε → Option σ

variable {ε ι σ : Type*} [DecidableEq ι] (P : Protocol ε ι σ)

/-- The stage that the events of a log bring an item to; none from an event out of turn on. -/
def stage : List ε → ι → Option σ
  | [], _ => some P.init
  | e :: older, i => if P.item e = some i then (stage older i).bind fun s => P.next s e else stage older i

def Obeys (log : List ε) : Prop := ∀ i, (stage P log i).isSome

/-- Between the two logs only the item got events, each in turn, and it is at stage `s`. -/
structure Moves (i : ι) (log log' : List ε) (s : σ) : Prop where
  obeys : Obeys P log'
  stage : stage P log' i = some s
  others : ∀ j, j ≠ i → Typestate.stage P log' j = Typestate.stage P log j

/-! ## The rules -/

@[simp] theorem stage_nil (i : ι) : stage P [] i = some P.init := rfl

theorem obeys_nil : Obeys P ([] : List ε) := fun _ => rfl

variable {P} {i : ι} {log log' : List ε} {e : ε} {s s' : σ}

theorem stage_cons_self (h : P.item e = some i) :
    stage P (e :: log) i = (stage P log i).bind fun s => P.next s e := by
  rw [stage, if_pos h]

theorem stage_cons_other (h : P.item e ≠ some i) : stage P (e :: log) i = stage P log i := by
  rw [stage, if_neg h]

/-- An event about no item. -/
theorem stage_cons_aside (h : P.item e = none) (i : ι) : stage P (e :: log) i = stage P log i := by
  refine stage_cons_other ?_
  rw [h]
  nofun

theorem Obeys.aside (h : Obeys P log) (he : P.item e = none) : Obeys P (e :: log) := by
  intro i
  rw [stage_cons_aside he]
  exact h i

theorem Moves.refl (h : Obeys P log) (hs : Typestate.stage P log i = some s) : Moves P i log log s :=
  ⟨h, hs, fun _ _ => rfl⟩

/-- One more event of the item, in turn. -/
theorem Moves.event (h : Moves P i log log' s) (hi : P.item e = some i) (hn : P.next s e = some s') :
    Moves P i log (e :: log') s' := by
  have hself : Typestate.stage P (e :: log') i = some s' := by
    rw [stage_cons_self hi, h.stage]
    exact hn
  have hother : ∀ j, j ≠ i → Typestate.stage P (e :: log') j = Typestate.stage P log' j := by
    intro j hj
    refine stage_cons_other fun he => hj ?_
    rw [hi] at he
    exact (Option.some.inj he).symm
  constructor
  · intro j
    by_cases hj : j = i
    · rw [hj, hself]
      rfl
    · rw [hother j hj]
      exact h.obeys j
  · exact hself
  · intro j hj
    rw [hother j hj, h.others j hj]

end Typestate
