import Mathlib.Data.List.Count
import Mathlib.Data.List.Sort
import Y210.Run

/-!
# Opening and closing input streams at the same time

`closeInputStream` holds the lock to look up an index and again to remove it, and deletes
what is at the index in between. Other calls may move the vector while the lock is free.
-/
namespace AudioClosing

open Run

/-- How far a stream is. Its `closeInputStream` has looked up an index, and has deleted there. -/
inductive Phase where
  | fresh
  | held
  | found (index : Nat)
  | freed (index : Nat)
  | closed
  deriving DecidableEq, Repr

/-- A stream: the pointer that its client got, and its phase. -/
structure Stream where
  address : Nat
  phase : Phase
  deriving DecidableEq, Repr

/-- `mInputs` holds pointers, the heap the number of the stream that lives at a pointer;
`deletions` has what each `delete` has met. -/
structure State where
  mInputs : List Nat
  heap : Nat → Option Nat
  streams : Nat → Stream
  deletions : List (Option Nat)

/-- The sections of `openInputStream` and `closeInputStream`; `new` returns `ptr`. -/
inductive Event where
  | openInputStream (id ptr : Nat)
  | lookUp (id : Nat)
  | delete (id : Nat)
  | remove (id : Nat)
  deriving DecidableEq, Repr

/-- `SortedVector::add`: an item that is there is replaced. -/
def add (ptr : Nat) (l : List Nat) : List Nat := if ptr ∈ l then l else l.orderedInsert (· ≤ ·) ptr

def moveTo (s : State) (id : Nat) (phase : Phase) : State :=
  { s with streams := Function.update s.streams id ⟨(s.streams id).address, phase⟩ }

/-- One section. An index behind the vector names nothing. -/
def step (s : State) : Event → State
  | .openInputStream id ptr =>
    if (s.streams id).phase = .fresh ∧ s.heap ptr = none then
      { s with
        mInputs := add ptr s.mInputs, heap := Function.update s.heap ptr (some id),
        streams := Function.update s.streams id ⟨ptr, .held⟩ }
    else s
  | .lookUp id =>
    match (s.streams id).phase with
    | .held =>
      match s.mInputs.idxOf? (s.streams id).address with
      | some index => moveTo s id (.found index)
      | none => moveTo s id .closed
    | _ => s
  | .delete id =>
    match (s.streams id).phase with
    | .found index =>
      match s.mInputs[index]? with
      | some ptr =>
        { moveTo s id (.freed index) with
          heap := Function.update s.heap ptr none, deletions := s.heap ptr :: s.deletions }
      | none => { moveTo s id (.freed index) with deletions := none :: s.deletions }
    | _ => s
  | .remove id =>
    match (s.streams id).phase with
    | .freed index => { moveTo s id .closed with mInputs := s.mInputs.eraseIdx index }
    | _ => s

def noStreams : State := ⟨[], fun _ => none, fun _ => ⟨0, .fresh⟩, []⟩

/-- No call is between its sections. -/
def Quiet (s : State) : Prop :=
  ∀ id, (s.streams id).phase = .fresh ∨ (s.streams id).phase = .held ∨ (s.streams id).phase = .closed

/-- Each closed stream has been deleted once; when no call is under way the vector has the
streams that are still open, and they live. -/
structure Settled (s : State) : Prop where
  once : ∀ id, (s.streams id).phase = .closed → s.deletions.count (some id) = 1
  inputs : Quiet s → ∀ ptr, ptr ∈ s.mInputs ↔ ∃ id, s.streams id = ⟨ptr, .held⟩
  live : Quiet s → ∀ id, (s.streams id).phase = .held → s.heap (s.streams id).address = some id

/-- The index with which a call goes into its next section. -/
def Phase.index : Phase → Option Nat
  | .found index | .freed index => some index
  | .fresh | .held | .closed => none

/-- The index still has the stream of the call; and `new` does not return the address of a
deleted stream that is still in the vector. -/
def InPlace (s : State) : Event → Prop
  | .openInputStream _ ptr => ptr ∉ s.mInputs
  | .lookUp _ => True
  | .delete id | .remove id => ∀ index ∈ (s.streams id).phase.index,
      s.mInputs[index]? = some (s.streams id).address

instance (s : State) (e : Event) : Decidable (InPlace s e) :=
  match e with
  | .openInputStream _ ptr => inferInstanceAs (Decidable (ptr ∉ s.mInputs))
  | .lookUp _ => isTrue trivial
  | .delete id | .remove id => inferInstanceAs (Decidable (∀ index ∈ (s.streams id).phase.index,
      s.mInputs[index]? = some (s.streams id).address))

/-! ## The invariant -/

/-- In the vector. -/
def Phase.listed : Phase → Bool
  | .held | .found _ | .freed _ => true
  | .fresh | .closed => false

/-- On the heap. -/
def Phase.live : Phase → Bool
  | .held | .found _ => true
  | .fresh | .freed _ | .closed => false

/-- How often it has been deleted. -/
def Phase.deleted : Phase → Nat
  | .freed _ | .closed => 1
  | .fresh | .held | .found _ => 0

theorem Phase.listed_of_live {q : Phase} (h : q.live = true) : q.listed = true := by
  cases q with
  | held | found index => rfl
  | fresh | freed index | closed => cases h

structure Inv (s : State) : Prop where
  nodup : s.mInputs.Nodup
  listed : ∀ ptr, ptr ∈ s.mInputs ↔ ∃ id, (s.streams id).phase.listed = true ∧ (s.streams id).address = ptr
  apart : ∀ id id', (s.streams id).phase.listed = true → (s.streams id').phase.listed = true →
    (s.streams id).address = (s.streams id').address → id = id'
  heap : ∀ ptr id, s.heap ptr = some id ↔ (s.streams id).phase.live = true ∧ (s.streams id).address = ptr
  deletions : ∀ id, s.deletions.count (some id) = (s.streams id).phase.deleted

theorem inv_noStreams : Inv noStreams := by
  constructor
  · exact List.nodup_nil
  · intro ptr
    refine iff_of_false List.not_mem_nil ?_
    rintro ⟨id, h, -⟩
    cases h
  · intro id id' h
    cases h
  · intro ptr id
    refine iff_of_false (fun h => by cases h) ?_
    rintro ⟨h, -⟩
    cases h
  · intro id
    rfl

/-- What the invariant comes to when no call is under way. -/
theorem Inv.settled {s : State} (h : Inv s) : Settled s := by
  have hheld (hq : Quiet s) (id : Nat) : (s.streams id).phase.listed = true ↔ (s.streams id).phase = .held := by
    rcases hq id with hp | hp | hp
    · rw [hp]
      decide
    · rw [hp]
      decide
    · rw [hp]
      decide
  constructor
  · intro id hid
    rw [h.deletions id, hid]
    rfl
  · intro hq ptr
    rw [h.listed ptr]
    refine exists_congr fun id => ?_
    rw [hheld hq id]
    exact ⟨fun ⟨hp, ha⟩ => by rw [← hp, ← ha], fun he => by rw [he]; exact ⟨rfl, rfl⟩⟩
  · intro hq id hid
    rw [h.heap]
    rw [hid]
    exact ⟨rfl, rfl⟩

section
variable {s : State} {id ptr index : Nat}

@[simp] theorem moveTo_self (q : Phase) : (moveTo s id q).streams id = ⟨(s.streams id).address, q⟩ :=
  Function.update_self ..

theorem moveTo_other {id' : Nat} (he : id' ≠ id) (q : Phase) :
    (moveTo s id q).streams id' = s.streams id' := Function.update_of_ne he ..

theorem moveTo_address (q : Phase) (id' : Nat) :
    ((moveTo s id q).streams id').address = (s.streams id').address := by
  by_cases he : id' = id
  · rw [he, moveTo_self]
  · rw [moveTo_other he]

/-- What a phase says is unchanged when the next phase says the same. -/
theorem moveTo_observed {α : Type} (f : Phase → α) {q : Phase} (hf : f q = f (s.streams id).phase) (id' : Nat) :
    f ((moveTo s id q).streams id').phase = f (s.streams id').phase := by
  by_cases he : id' = id
  · rw [he, moveTo_self, hf]
  · rw [moveTo_other he]

theorem Inv.moved (h : Inv s) {q : Phase} (hl : q.listed = (s.streams id).phase.listed)
    (hv : q.live = (s.streams id).phase.live) (hd : q.deleted = (s.streams id).phase.deleted) :
    Inv (moveTo s id q) := by
  constructor
  · exact h.nodup
  · intro ptr
    simp only [moveTo_observed Phase.listed hl, moveTo_address]
    exact h.listed ptr
  · intro id' id''
    simp only [moveTo_observed Phase.listed hl, moveTo_address]
    exact h.apart id' id''
  · intro ptr id'
    simp only [moveTo_observed Phase.live hv, moveTo_address]
    exact h.heap ptr id'
  · intro id'
    simp only [moveTo_observed Phase.deleted hd]
    exact h.deletions id'

/-- A new stream at an address that neither the heap nor the vector has. -/
theorem Inv.opened (h : Inv s) (hfresh : (s.streams id).phase = .fresh) (hfree : s.heap ptr = none)
    (hnew : ptr ∉ s.mInputs) : Inv (step s (.openInputStream id ptr)) := by
  have hnone (id' : Nat) (hl : (s.streams id').phase.listed = true) : (s.streams id').address ≠ ptr :=
    fun he => hnew ((h.listed ptr).mpr ⟨id', hl, he⟩)
  have hother (id' : Nat) (hl : (s.streams id').phase.listed = true) : id' ≠ id := by
    intro he
    rw [he, hfresh] at hl
    cases hl
  simp only [step, hfresh, hfree, and_self, if_true, add, if_neg hnew]
  constructor
  · have hperm := List.perm_orderedInsert (· ≤ ·) ptr s.mInputs
    exact hperm.nodup_iff.mpr (List.nodup_cons.mpr ⟨hnew, h.nodup⟩)
  · intro ptr'
    dsimp only
    rw [List.mem_orderedInsert, h.listed ptr',
      Function.exists_update_iff s.streams fun _ t => t.phase.listed = true ∧ t.address = ptr']
    constructor
    · rintro (he | ⟨id', hl, ha⟩)
      · exact .inl ⟨rfl, he.symm⟩
      · exact .inr ⟨id', hother id' hl, hl, ha⟩
    · rintro (⟨-, ha⟩ | ⟨id', -, hl, ha⟩)
      · exact .inl ha.symm
      · exact .inr ⟨id', hl, ha⟩
  · intro id' id'' hl hl' ha
    dsimp only at hl hl' ha
    by_cases he : id' = id
    · by_cases he' : id'' = id
      · rw [he, he']
      · rw [he, Function.update_self, Function.update_of_ne he'] at ha
        rw [Function.update_of_ne he'] at hl'
        exact absurd ha.symm (hnone id'' hl')
    · rw [Function.update_of_ne he] at hl ha
      by_cases he' : id'' = id
      · rw [he', Function.update_self] at ha
        exact absurd ha (hnone id' hl)
      · rw [Function.update_of_ne he'] at hl' ha
        exact h.apart id' id'' hl hl' ha
  · intro ptr' id'
    dsimp only
    by_cases he : id' = id
    · rw [he, Function.update_self]
      by_cases hp : ptr' = ptr
      · rw [hp, Function.update_self]
        exact iff_of_true rfl ⟨rfl, rfl⟩
      · rw [Function.update_of_ne hp, h.heap, hfresh]
        exact iff_of_false (fun hh => by cases hh.1) fun hh => hp hh.2.symm
    · rw [Function.update_of_ne he]
      by_cases hp : ptr' = ptr
      · rw [hp, Function.update_self]
        refine iff_of_false (fun hh => he (Option.some.inj hh).symm) fun hh => ?_
        exact hnone id' (Phase.listed_of_live hh.1) hh.2
      · rw [Function.update_of_ne hp]
        exact h.heap ptr' id'
  · intro id'
    dsimp only
    rw [h.deletions id']
    by_cases he : id' = id
    · rw [he, Function.update_self, hfresh]
      rfl
    · rw [Function.update_of_ne he]

theorem Inv.lookedUp (h : Inv s) (hheld : (s.streams id).phase = .held) : Inv (step s (.lookUp id)) := by
  have hmem : (s.streams id).address ∈ s.mInputs :=
    (h.listed _).mpr ⟨id, by rw [hheld]; rfl, rfl⟩
  simp only [step, hheld]
  cases hi : s.mInputs.idxOf? (s.streams id).address with
  | none => exact absurd hmem (List.idxOf?_eq_none_iff.mp hi)
  | some index => exact h.moved (by rw [hheld]; rfl) (by rw [hheld]; rfl) (by rw [hheld]; rfl)

/-- The stream of the call leaves the heap; its pointer stays in the vector. -/
theorem Inv.freed (h : Inv s) (hfound : (s.streams id).phase = .found index)
    (hplace : s.mInputs[index]? = some (s.streams id).address) : Inv (step s (.delete id)) := by
  have hlive : s.heap (s.streams id).address = some id := (h.heap _ _).mpr ⟨by rw [hfound]; rfl, rfl⟩
  have hlisted : (Phase.freed index).listed = (s.streams id).phase.listed := by
    rw [hfound]
    rfl
  simp only [step, hfound, hplace, hlive]
  constructor
  · exact h.nodup
  · intro ptr
    simp only [moveTo_observed Phase.listed hlisted, moveTo_address]
    exact h.listed ptr
  · intro id' id''
    simp only [moveTo_observed Phase.listed hlisted, moveTo_address]
    exact h.apart id' id''
  · intro ptr id'
    simp only [moveTo_address]
    by_cases he : id' = id
    · rw [he, moveTo_self]
      refine iff_of_false (fun hh => ?_) fun hh => by cases hh.1
      by_cases hp : ptr = (s.streams id).address
      · rw [hp, Function.update_self] at hh
        cases hh
      · rw [Function.update_of_ne hp] at hh
        exact hp ((h.heap ptr id).mp hh).2.symm
    · rw [moveTo_other he]
      by_cases hp : ptr = (s.streams id).address
      · rw [hp, Function.update_self]
        refine iff_of_false (fun hh => by cases hh) fun hh => he ?_
        refine h.apart id' id (Phase.listed_of_live hh.1) ?_ hh.2
        rw [← hlisted]
        rfl
      · rw [Function.update_of_ne hp]
        exact h.heap ptr id'
  · intro id'
    dsimp only
    by_cases he : id' = id
    · rw [he, moveTo_self, List.count_cons_self, h.deletions id, hfound]
      rfl
    · rw [moveTo_other he, List.count_cons_of_ne fun hh => he (Option.some.inj hh).symm]
      exact h.deletions id'

/-- The pointer of the deleted stream leaves the vector. -/
theorem Inv.removed (h : Inv s) (hfreed : (s.streams id).phase = .freed index)
    (hplace : s.mInputs[index]? = some (s.streams id).address) : Inv (step s (.remove id)) := by
  obtain ⟨hlt, hget⟩ := List.getElem?_eq_some_iff.mp hplace
  have herase : s.mInputs.eraseIdx index = s.mInputs.erase (s.streams id).address := by
    rw [← hget, h.nodup.erase_getElem index hlt]
  have hlisted : (s.streams id).phase.listed = true := by
    rw [hfreed]
    rfl
  have hlive : Phase.closed.live = (s.streams id).phase.live := by
    rw [hfreed]
    rfl
  have hdeleted : Phase.closed.deleted = (s.streams id).phase.deleted := by
    rw [hfreed]
    rfl
  have hother {id' : Nat} (hl : ((moveTo s id .closed).streams id').phase.listed = true) : id' ≠ id := by
    intro he
    rw [he, moveTo_self] at hl
    cases hl
  simp only [step, hfreed, herase]
  constructor
  · exact h.nodup.erase _
  · intro ptr
    dsimp only
    rw [h.nodup.mem_erase_iff, h.listed ptr]
    constructor
    · rintro ⟨hne, id', hl, ha⟩
      have he : id' ≠ id := by
        intro he
        rw [he] at ha
        exact hne ha.symm
      refine ⟨id', ?_⟩
      rw [moveTo_other he]
      exact ⟨hl, ha⟩
    · rintro ⟨id', hl, ha⟩
      have he := hother hl
      rw [moveTo_other he] at hl ha
      refine ⟨fun hp => he (h.apart id' id hl hlisted ?_), id', hl, ha⟩
      rw [ha, hp]
  · intro id' id'' hl hl'
    have he := hother hl
    have he' := hother hl'
    simp only [moveTo_other he, moveTo_other he'] at hl hl' ⊢
    exact h.apart id' id'' hl hl'
  · intro ptr id'
    simp only [moveTo_observed Phase.live hlive, moveTo_address]
    exact h.heap ptr id'
  · intro id'
    simp only [moveTo_observed Phase.deleted hdeleted]
    exact h.deletions id'

/-- A section that finds what it expects keeps the invariant. -/
theorem Inv.step (h : Inv s) (e : Event) (hplace : InPlace s e) : Inv (step s e) := by
  cases e with
  | openInputStream id ptr =>
    by_cases hguard : (s.streams id).phase = .fresh ∧ s.heap ptr = none
    · exact h.opened hguard.1 hguard.2 hplace
    · simp only [AudioClosing.step, if_neg hguard]
      exact h
  | lookUp id =>
    cases hp : (s.streams id).phase with
    | held => exact h.lookedUp hp
    | fresh | found index | freed index | closed => simpa only [AudioClosing.step, hp] using h
  | delete id =>
    cases hp : (s.streams id).phase with
    | found index => exact h.freed hp (hplace index (by rw [hp]; rfl))
    | fresh | held | freed index | closed => simpa only [AudioClosing.step, hp] using h
  | remove id =>
    cases hp : (s.streams id).phase with
    | freed index => exact h.removed hp (hplace index (by rw [hp]; rfl))
    | fresh | held | found index | closed => simpa only [AudioClosing.step, hp] using h

end

/-- Runs in which no section meets a vector that another call has moved under it. -/
theorem settled_of_inPlace (events : List Event) (h : AllSteps step InPlace noStreams events) :
    AllStates step Settled noStreams events :=
  (allStates_of_guarded (fun _ e hi hp => hi.step e hp) inv_noStreams h).mono fun _ hi => hi.settled

/-- Two streams and the close of the lower one; another is opened above it in between. -/
def openedAbove : List Event :=
  [.openInputStream 1 40, .openInputStream 2 20, .lookUp 2, .openInputStream 3 60, .delete 2, .remove 2]

theorem openedAbove_settled : AllStates step Settled noStreams openedAbove := by
  apply settled_of_inPlace
  exact ⟨by decide, by decide, trivial, by decide, by decide, by decide, trivial⟩

/-- A stream is opened below the one whose index has been looked up. -/
def openedBelow : List Event :=
  [.openInputStream 1 40, .lookUp 1, .openInputStream 2 20, .delete 1, .remove 1]

theorem openedBelow_deletes_other : (exec step noStreams openedBelow).deletions = [some 2] ∧
    (exec step noStreams openedBelow).mInputs = [40] ∧
    ¬ Settled (exec step noStreams openedBelow) := by
  refine ⟨by decide, by decide, fun h => ?_⟩
  have honce := h.once 1 (by decide)
  exact absurd honce (by decide)

end AudioClosing
