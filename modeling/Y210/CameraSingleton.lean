import Y210.CameraRelease

/-!
# The one camera

`createInstance` keeps a weak pointer to the wrapper it made. Clients hold the strong
references, and `release` ends a wrapper that may still be alive.
-/
namespace CameraSingleton

open Run CameraParameters CameraWrapper CameraRelease

/-- A live wrapper, and how many references clients hold. -/
structure Instance where
  world : World
  refs : Nat

/-- Live wrappers by number, in the order of their construction; the weak pointer `sSingleton`,
with `none` for a cleared one; and how many wrappers have been constructed, each of which has
called the blob's open function. -/
structure State where
  live : Nat → Option Instance
  sSingleton : Option Nat
  constructed : Nat

/-- What the camera service does. A library that does not load leaves `gOpenCameraHardware` NULL;
`object` tells whether the blob's open function gives an object. -/
inductive Event where
  | createInstance (library object : Bool) (properties : String → String)
  | call (id : Nat) (op : Op)
  | copy (id : Nat)
  | drop (id : Nat)

/-- `sSingleton.promote()`. -/
def promote (s : State) : Option (Nat × Instance) :=
  s.sSingleton.bind fun id => (s.live id).map fun i => (id, i)

def setInstance (id : Nat) (i : Option Instance) (s : State) : State :=
  { s with live := Function.update s.live id i }

/-- `createInstance` when there is no usable wrapper to return. -/
def openCamera (library object : Bool) (properties : String → String) (s : State) : State × Option Nat :=
  let s := { s with sSingleton := none }
  if library = false then (s, none)
  else
    let w := create object properties
    let id := s.constructed
    let s := { s with constructed := id + 1 }
    -- a wrapper without an object goes with its last reference
    if isUsable w = false then (s, none)
    else ({ setInstance id (some ⟨w, 1⟩) s with sSingleton := some id }, some id)

/-- `Y210CameraWrapper::createInstance`. -/
def createInstance (library object : Bool) (properties : String → String) (s : State) :
    State × Option Nat :=
  match promote s with
  | some (id, i) =>
    if isUsable i.world then (setInstance id (some { i with refs := i.refs + 1 }) s, some id)
    else openCamera library object properties s
  | none => openCamera library object properties s

/-- The call on `sSingleton` that ends `release` of a usable wrapper. -/
def clearsSingleton (op : Op) (w : World) : Bool :=
  match op with
  | .release => isUsable w
  | _ => false

section
variable (f : Framework) (b : Blob)

/-- A method of a live wrapper. -/
def callMethod (id : Nat) (op : Op) (s : State) : State :=
  match s.live id with
  | none => s
  | some i =>
    let s := setInstance id (some { i with world := CameraWrapper.step f b i.world op }) s
    if clearsSingleton op i.world then { s with sSingleton := none } else s

def step (s : State) : Event → State
  | .createInstance library object properties => (createInstance library object properties s).1
  | .call id op => callMethod f b id op s
  | .copy id =>
    match s.live id with
    | none => s
    | some i => setInstance id (some { i with refs := i.refs + 1 }) s
  | .drop id =>
    match s.live id with
    | none => s
    | some i =>
      if i.refs ≤ 1 then setInstance id none s
      else setInstance id (some { i with refs := i.refs - 1 }) s

end

def noCamera : State := ⟨fun _ => none, none, 0⟩

/-! ## Usable wrappers -/

def Usable (s : State) (id : Nat) : Prop := ∃ i ∈ s.live id, isUsable i.world = true

/-- The weak pointer refers to the usable wrapper, of which there is one. -/
structure OneCamera (s : State) : Prop where
  singleton : ∀ id, Usable s id → s.sSingleton = some id
  unique : ∀ id id', Usable s id → Usable s id' → id = id'

/-- The event constructs a wrapper, and so calls the blob's open function. -/
def OpensBlob (f : Framework) (b : Blob) (s : State) (e : Event) : Prop :=
  s.constructed < (step f b s e).constructed

/-- The result of the event, if it is a `createInstance` and not NULL. -/
def created (s : State) : Event → Option Nat
  | .createInstance library object properties => (createInstance library object properties s).2
  | _ => none

section
variable {f : Framework} {b : Blob} {s : State} {id : Nat}

theorem usable_setInstance {id' : Nat} (i : Option Instance) :
    Usable (setInstance id i s) id' ↔
      (id' = id ∧ ∃ x ∈ i, isUsable x.world = true) ∨ id' ≠ id ∧ Usable s id' := by
  unfold Usable setInstance
  by_cases he : id' = id
  · rw [he]
    simp
  · simp [he]

theorem step_release_unusable (w : World) : isUsable (CameraWrapper.step f b w .release) = false := by
  change isUsable (release w) = false
  cases hu : isUsable w with
  | true =>
    rw [release_usable hu]
    rfl
  | false =>
    unfold release
    rw [if_pos hu]
    exact hu

/-- The weak pointer refers to every usable wrapper, and the next number is free. -/
structure Inv (s : State) : Prop where
  singleton : ∀ id, Usable s id → s.sSingleton = some id
  fresh : ∀ id, s.constructed ≤ id → s.live id = none

theorem inv_noCamera : Inv noCamera := by
  constructor
  · rintro id ⟨i, hi, -⟩
    cases hi
  · intro id _
    rfl

theorem Inv.oneCamera (h : Inv s) : OneCamera s :=
  ⟨h.singleton, fun id id' hu hu' => Option.some.inj ((h.singleton id hu).symm.trans (h.singleton id' hu'))⟩

/-- A live wrapper has a number below the next one. -/
theorem Inv.setInstance (h : Inv s) {i : Instance} (hi : s.live id = some i) {x : Option Instance}
    (hx : ∀ i' ∈ x, isUsable i'.world = true → isUsable i.world = true) : Inv (setInstance id x s) := by
  constructor
  · intro id' hu
    rw [usable_setInstance] at hu
    rcases hu with ⟨rfl, i', hi', hu'⟩ | ⟨-, hu⟩
    · exact h.singleton id' ⟨i, hi, hx i' hi' hu'⟩
    · exact h.singleton id' hu
  · intro id' hle
    have hne : id' ≠ id := by
      intro he
      rw [← he, h.fresh id' hle] at hi
      cases hi
    exact (Function.update_of_ne hne _ _).trans (h.fresh id' hle)

/-- A usable wrapper is what the weak pointer is promoted to. -/
theorem Inv.promote_usable (h : Inv s) (hu : Usable s id) :
    ∃ i, promote s = some (id, i) ∧ isUsable i.world = true := by
  have hs := h.singleton id hu
  obtain ⟨i, hi, hui⟩ := hu
  refine ⟨i, ?_, hui⟩
  rw [Option.mem_def] at hi
  simp only [promote, hs, hi, Option.bind_some, Option.map_some]

theorem promote_live {i : Instance} (h : promote s = some (id, i)) : s.live id = some i := by
  unfold promote at h
  cases hs : s.sSingleton with
  | none =>
    rw [hs] at h
    cases h
  | some id' =>
    rw [hs] at h
    cases hl : s.live id' with
    | none =>
      simp only [Option.bind_some, hl, Option.map_none] at h
      cases h
    | some i' =>
      simp only [Option.bind_some, hl, Option.map_some, Option.some.injEq, Prod.mk.injEq] at h
      rw [← h.1, hl, h.2]

/-- No wrapper is usable when the weak pointer is not promoted to a usable one. -/
theorem Inv.none_usable (h : Inv s) (hp : ∀ c ∈ promote s, isUsable c.2.world = false) (id : Nat) :
    ¬ Usable s id := by
  intro hu
  obtain ⟨i, hpi, hui⟩ := h.promote_usable hu
  rw [hp (id, i) hpi] at hui
  cases hui

/-- A new wrapper is the only usable one. -/
theorem Inv.openCamera (h : Inv s) (hno : ∀ id, ¬ Usable s id) (library object : Bool)
    (properties : String → String) : Inv (openCamera library object properties s).1 ∧
      ∀ id ∈ (CameraSingleton.openCamera library object properties s).2,
        Usable (CameraSingleton.openCamera library object properties s).1 id := by
  unfold CameraSingleton.openCamera
  dsimp only
  split
  · exact ⟨⟨fun id hu => absurd hu (hno id), h.fresh⟩, fun id hid => by cases hid⟩
  · split
    · refine ⟨⟨fun id hu => absurd hu (hno id), fun id hle => h.fresh id ?_⟩, fun id hid => ?_⟩
      · exact Nat.le_of_succ_le hle
      · cases hid
    · rename_i hu
      rw [Bool.not_eq_false] at hu
      have hnew : Usable (CameraSingleton.setInstance s.constructed (some ⟨create object properties, 1⟩)
          s) s.constructed := by
        rw [usable_setInstance]
        exact .inl ⟨rfl, _, rfl, hu⟩
      refine ⟨⟨fun id hid => ?_, fun id hle => ?_⟩, fun id hid => ?_⟩
      · have hid' : Usable (CameraSingleton.setInstance s.constructed
            (some ⟨create object properties, 1⟩) s) id := hid
        rw [usable_setInstance] at hid'
        rcases hid' with ⟨rfl, -⟩ | ⟨-, hid'⟩
        · rfl
        · exact absurd hid' (hno id)
      · have hlt : s.constructed < id := Nat.lt_of_succ_le hle
        exact (Function.update_of_ne (Nat.ne_of_gt hlt) _ _).trans (h.fresh id (Nat.le_of_lt hlt))
      · obtain rfl := Option.some.inj hid
        exact hnew

/-- `createInstance` returns the usable wrapper or nothing. -/
theorem Inv.createInstance (h : Inv s) (library object : Bool) (properties : String → String) :
    Inv (createInstance library object properties s).1 ∧
      ∀ id ∈ (CameraSingleton.createInstance library object properties s).2,
        Usable (CameraSingleton.createInstance library object properties s).1 id := by
  unfold CameraSingleton.createInstance
  cases hp : promote s with
  | none =>
    refine h.openCamera (h.none_usable fun c hc => ?_) library object properties
    rw [hp] at hc
    cases hc
  | some c =>
    obtain ⟨id, i⟩ := c
    have hi := promote_live hp
    dsimp only
    split
    · rename_i hu
      refine ⟨h.setInstance hi fun i' hi' _ => hu, fun id' hid' => ?_⟩
      obtain rfl := Option.some.inj hid'
      rw [usable_setInstance]
      exact .inl ⟨rfl, _, rfl, hu⟩
    · rename_i hu
      refine h.openCamera (h.none_usable fun c hc => ?_) library object properties
      obtain rfl := Option.some.inj (hp.symm.trans hc)
      exact Bool.eq_false_iff.mpr hu

/-- `release` of the usable wrapper leaves none; every other method leaves them as they are. -/
theorem Inv.callMethod (h : Inv s) (id : Nat) (op : Op) : Inv (callMethod f b id op s) := by
  unfold CameraSingleton.callMethod
  cases hi : s.live id with
  | none => exact h
  | some i =>
    dsimp only
    have hkept (hu : isUsable (CameraWrapper.step f b i.world op) = true) : isUsable i.world = true := by
      by_cases hop : op = .release
      · rw [hop, step_release_unusable] at hu
        cases hu
      · rw [← (step_kept hop i.world).usable]
        exact hu
    have hset := h.setInstance hi (x := some { i with world := CameraWrapper.step f b i.world op })
      fun i' hi' hu => by
        obtain rfl := Option.some.inj hi'
        exact hkept hu
    split
    · rename_i hclears
      refine ⟨fun id' hu => ?_, hset.fresh⟩
      -- the released wrapper was the usable one
      have hrelease : op = .release ∧ isUsable i.world = true := by
        cases op with
        | release => exact ⟨rfl, hclears⟩
        | _ => cases hclears
      have hu' : Usable (CameraSingleton.setInstance id
          (some { i with world := CameraWrapper.step f b i.world op }) s) id' := hu
      rw [usable_setInstance] at hu'
      rcases hu' with ⟨-, i', hi', hui⟩ | ⟨hne, hui⟩
      · obtain rfl := Option.some.inj hi'
        rw [hrelease.1, step_release_unusable] at hui
        cases hui
      · exact absurd (h.oneCamera.unique id' id hui ⟨i, hi, hrelease.2⟩) hne
    · exact hset

theorem Inv.step (h : Inv s) (e : Event) : Inv (step f b s e) := by
  cases e with
  | createInstance library object properties => exact (h.createInstance library object properties).1
  | call id op => exact h.callMethod id op
  | copy id =>
    simp only [CameraSingleton.step]
    cases hi : s.live id with
    | none => exact h
    | some i =>
      refine h.setInstance hi fun i' hi' hu => ?_
      obtain rfl := Option.some.inj hi'
      exact hu
  | drop id =>
    simp only [CameraSingleton.step]
    cases hi : s.live id with
    | none => exact h
    | some i =>
      dsimp only
      split
      · exact h.setInstance hi fun i' hi' => by cases hi'
      · refine h.setInstance hi fun i' hi' hu => ?_
        obtain rfl := Option.some.inj hi'
        exact hu

/-- A result is the usable wrapper, and the blob is opened when there is none. -/
structure Serves (f : Framework) (b : Blob) (s : State) (e : Event) : Prop where
  result : ∀ id ∈ created s e, Usable (step f b s e) id
  opens : OpensBlob f b s e → ∀ id, ¬ Usable s id

theorem callMethod_constructed (id : Nat) (op : Op) (s : State) :
    (callMethod f b id op s).constructed = s.constructed := by
  unfold callMethod
  split
  · rfl
  · dsimp only
    split <;> rfl

/-- The blob is opened by a `createInstance` that finds no usable wrapper. -/
theorem OpensBlob.promoted {e : Event} (h : OpensBlob f b s e) :
    ∀ c ∈ promote s, isUsable c.2.world = false := by
  intro c hc
  unfold OpensBlob at h
  cases e with
  | createInstance library object properties =>
    by_contra hu
    rw [Bool.not_eq_false] at hu
    simp only [step, createInstance, Option.mem_def.mp hc, if_pos hu] at h
    exact absurd h (Nat.lt_irrefl _)
  | call id op =>
    rw [step, callMethod_constructed] at h
    exact absurd h (Nat.lt_irrefl _)
  | copy id =>
    simp only [step] at h
    split at h
    · exact absurd h (Nat.lt_irrefl _)
    · exact absurd h (Nat.lt_irrefl _)
  | drop id =>
    simp only [step] at h
    split at h
    · exact absurd h (Nat.lt_irrefl _)
    · split at h
      · exact absurd h (Nat.lt_irrefl _)
      · exact absurd h (Nat.lt_irrefl _)

theorem Inv.serves (h : Inv s) (e : Event) : Serves f b s e := by
  refine ⟨fun id hid => ?_, fun ho => h.none_usable ho.promoted⟩
  cases e with
  | createInstance library object properties => exact (h.createInstance library object properties).2 id hid
  | call | copy | drop => cases hid

end

/-- In every run there is at most one usable camera, and the weak pointer refers to it. -/
theorem one_usable_camera (f : Framework) (b : Blob) (events : List Event) :
    AllStates (step f b) OneCamera noCamera events ∧
      AllSteps (step f b) (Serves f b) noCamera events := by
  have hinv : AllStates (step f b) Inv noCamera events :=
    allStates_of_invariant (fun _ e h => h.step e) inv_noCamera events
  exact ⟨hinv.mono fun _ h => h.oneCamera, allSteps_of_allStates (fun _ e h => h.serves e) hinv⟩

end CameraSingleton
