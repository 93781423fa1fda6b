import Y210.CString
import Y210.CameraSingleton

/-!
# The camera library

The blob is loaded at the first need of it, with three entry points that may be missing. Opening its
camera needs a target type, which `getCameraInfo` of the blob stores; the camera service promises no
order of the two.
-/
namespace CameraLibrary

open Run CameraParameters CameraWrapper CameraSingleton

/-- The entry points that `libcamera.y210.so` has. -/
structure Symbols where
  HAL_openCameraHardware : Bool
  HAL_getCameraInfo : Bool
  HAL_getNumberOfCameras : Bool
  deriving DecidableEq

/-- A call of the loader or of the blob. -/
inductive LibCall where
  | dlopen (loaded : Bool)
  | dlopenOem (loaded : Bool)
  | getCameraInfo (cameraId : Int)
  | getNumberOfCameras
  | openCameraHardware (cameraId mode : Int)
  deriving DecidableEq, Repr

/-- The static variables of the wrapper, the cameras, and the calls, newest first. -/
structure State where
  gLibHandle : Bool
  gOemCameraHandle : Bool
  gOpenCameraHardware : Bool
  gGetCameraInfo : Bool
  gGetNumberOfCameras : Bool
  cameras : CameraSingleton.State
  log : List LibCall

def notLoaded : State := ⟨false, false, false, false, false, noCamera, []⟩

def note (c : LibCall) (s : State) : State := { s with log := c :: s.log }

def kDefaultCameraMode : Int := 1

def getCameraMode (properties : String → String) : Int :=
  let value := (properties "persist.camera.mode").toList
  if value = [] then kDefaultCameraMode
  else
    let (mode, rest) := CString.strtol 0 value
    if rest = value ∨ rest ≠ [] then kDefaultCameraMode else mode

section
variable (symbols : Symbols)

/-- Both libraries, and the entry points of the first. -/
def resolve (oem : Bool) (s : State) : State :=
  note (.dlopenOem oem) { s with
    gLibHandle := true
    gOemCameraHandle := oem
    gOpenCameraHardware := symbols.HAL_openCameraHardware
    gGetCameraInfo := symbols.HAL_getCameraInfo
    gGetNumberOfCameras := symbols.HAL_getNumberOfCameras }

/-- The blob is asked once where all entry points were found. -/
def prime (s : State) : State :=
  if s.gOpenCameraHardware && s.gGetCameraInfo && s.gGetNumberOfCameras then note (.getCameraInfo 0) s else s

/-- `loads` and `oem` tell whether the two libraries load. -/
def ensureY210CameraLibOpened (loads oem : Bool) (s : State) : State :=
  if s.gLibHandle then s
  else if loads = false then note (.dlopen false) s
  else prime (resolve symbols oem (note (.dlopen true) s))

/-- The blob's answer, or 1. -/
def HAL_getNumberOfCameras (loads oem : Bool) (number : Int) (s : State) : State × Int :=
  let s := ensureY210CameraLibOpened symbols loads oem s
  if s.gGetNumberOfCameras then (note .getNumberOfCameras s, number) else (s, 1)

/-- `CAMERA_FACING_BACK` is 0. -/
structure CameraInfo where
  facing : Int
  orientation : Int
  deriving DecidableEq, Repr

/-- `cameraInfo` is what the caller passes, if it is not NULL, and `filled` what the blob makes of it. -/
def HAL_getCameraInfo (loads oem : Bool) (cameraId : Int) (cameraInfo filled : Option CameraInfo) (s : State) :
    State × Option CameraInfo :=
  let s := ensureY210CameraLibOpened symbols loads oem s
  let (s, cameraInfo) :=
    if s.gGetCameraInfo then (note (.getCameraInfo cameraId) s, filled)
    else (s, cameraInfo.map fun _ => ⟨0, 0⟩)
  (s, cameraInfo.map fun info => { info with orientation := 90 })

/-- `createInstance` has a usable wrapper to return. -/
def returnsExisting (s : CameraSingleton.State) : Bool :=
  match promote s with
  | some (_, i) => isUsable i.world
  | none => false

/-- `createInstance`, with what it needs of the library; `object` tells whether the blob's open
function gives an object. -/
def HAL_openCameraHardware (loads oem object : Bool) (cameraId : Int) (properties : String → String) (s : State) :
    State :=
  let s := if returnsExisting s.cameras then s
    else
      let s := ensureY210CameraLibOpened symbols loads oem s
      if s.gOpenCameraHardware then note (.openCameraHardware cameraId (getCameraMode properties)) s else s
  { s with cameras := (createInstance s.gOpenCameraHardware object properties s.cameras).1 }

/-- What the camera service asks for, and what happens to the cameras besides. -/
inductive Call where
  | getNumberOfCameras (loads oem : Bool) (number : Int)
  | getCameraInfo (loads oem : Bool) (cameraId : Int) (cameraInfo filled : Option CameraInfo)
  | openCameraHardware (loads oem object : Bool) (cameraId : Int) (properties : String → String)
  | camera (e : CameraSingleton.Event)

/-- Cameras are created by `HAL_openCameraHardware` only. -/
def step (f : Framework) (b : Blob) (s : State) : Call → State
  | .getNumberOfCameras loads oem number => (HAL_getNumberOfCameras symbols loads oem number s).1
  | .getCameraInfo loads oem cameraId cameraInfo filled =>
    (HAL_getCameraInfo symbols loads oem cameraId cameraInfo filled s).1
  | .openCameraHardware loads oem object cameraId properties =>
    HAL_openCameraHardware symbols loads oem object cameraId properties s
  | .camera (.createInstance _ _ _) => s
  | .camera e => { s with cameras := CameraSingleton.step f b s.cameras e }

end

/-! ## The target type -/

/-- The blob has stored its target type. -/
def primed (log : List LibCall) : Prop := ∃ cameraId, .getCameraInfo cameraId ∈ log

/-- No camera was opened before that. -/
def PrimedFirst (log : List LibCall) : Prop :=
  ∀ newer older cameraId mode, log = newer ++ .openCameraHardware cameraId mode :: older → primed older

/-- The library was loaded at most once. -/
def LoadedOnce (log : List LibCall) : Prop := log.count (.dlopen true) ≤ 1

def LibCall.opens : LibCall → Bool
  | .openCameraHardware _ _ => true
  | _ => false

theorem primed_cons {log : List LibCall} (c : LibCall) (h : primed log) : primed (c :: log) := by
  obtain ⟨id, hid⟩ := h
  exact ⟨id, List.mem_cons_of_mem c hid⟩

theorem primedFirst_cons {log : List LibCall} {c : LibCall} (h : PrimedFirst log)
    (hc : c.opens = true → primed log) : PrimedFirst (c :: log) := by
  intro newer older id mode he
  cases newer with
  | nil =>
    obtain ⟨rfl, rfl⟩ := List.cons.inj he
    exact hc rfl
  | cons c' newer => exact h newer older id mode (List.cons.inj he).2

/-- Nothing is loaded, or the entry points are those of the library. -/
structure Inv (symbols : Symbols) (s : State) : Prop where
  unloaded : s.gLibHandle = false → s.gOpenCameraHardware = false ∧ .dlopen true ∉ s.log
  loaded : s.gOpenCameraHardware = true → symbols.HAL_openCameraHardware = true
  ready : symbols.HAL_getCameraInfo = true → symbols.HAL_getNumberOfCameras = true →
    s.gOpenCameraHardware = true → primed s.log
  once : LoadedOnce s.log

section
variable {symbols : Symbols} {s s' : State}

theorem Inv.note (h : Inv symbols s) {c : LibCall} (hc : c ≠ .dlopen true) : Inv symbols (note c s) where
  unloaded hl := ⟨(h.unloaded hl).1, by simpa [CameraLibrary.note, Ne.symm hc] using (h.unloaded hl).2⟩
  loaded := h.loaded
  ready hi hn ho := primed_cons c (h.ready hi hn ho)
  once := by
    unfold LoadedOnce CameraLibrary.note
    rw [List.count_cons_of_ne (by simpa using hc)]
    exact h.once

theorem prime_log (s : State) : (prime s).log =
    (if s.gOpenCameraHardware && s.gGetCameraInfo && s.gGetNumberOfCameras then [.getCameraInfo 0] else []) ++ s.log := by
  unfold prime
  split <;> rfl

theorem prime_gLibHandle (s : State) : (prime s).gLibHandle = s.gLibHandle := by
  unfold prime
  split <;> rfl

theorem prime_gOpenCameraHardware (s : State) : (prime s).gOpenCameraHardware = s.gOpenCameraHardware := by
  unfold prime
  split <;> rfl

/-- The state once the library is loaded. -/
theorem Inv.load (h : Inv symbols s) (hl : s.gLibHandle = false) (oem : Bool) :
    Inv symbols (prime (resolve symbols oem (CameraLibrary.note (.dlopen true) s))) where
  unloaded hf := by simp [prime_gLibHandle, resolve, CameraLibrary.note] at hf
  loaded ho := by simpa [prime_gOpenCameraHardware, resolve, CameraLibrary.note] using ho
  ready hi hn ho := by
    have hopen : symbols.HAL_openCameraHardware = true := by
      simpa [prime_gOpenCameraHardware, resolve, CameraLibrary.note] using ho
    refine ⟨0, ?_⟩
    rw [prime_log]
    simp [resolve, CameraLibrary.note, hi, hn, hopen]
  once := by
    have hcount : s.log.count (.dlopen true) = 0 := List.count_eq_zero.mpr (h.unloaded hl).2
    unfold LoadedOnce
    rw [prime_log, List.count_append]
    have hfirst : ∀ p : Bool, (if p then [.getCameraInfo 0] else [] : List LibCall).count (.dlopen true) = 0 := by
      decide
    rw [hfirst]
    simp [resolve, CameraLibrary.note, hcount]

theorem Inv.ensure (h : Inv symbols s) (loads oem : Bool) :
    Inv symbols (ensureY210CameraLibOpened symbols loads oem s) := by
  unfold ensureY210CameraLibOpened
  split
  · exact h
  · rename_i hl
    split
    · exact h.note (by decide)
    · exact h.load (by simpa using hl) oem

theorem primedFirst_ensure (loads oem : Bool) (hp : PrimedFirst s.log) :
    PrimedFirst (ensureY210CameraLibOpened symbols loads oem s).log := by
  unfold ensureY210CameraLibOpened
  split
  · exact hp
  · split
    · exact primedFirst_cons hp nofun
    · rw [prime_log]
      have hresolved : PrimedFirst (resolve symbols oem (note (.dlopen true) s)).log :=
        primedFirst_cons (primedFirst_cons hp nofun) nofun
      split
      · exact primedFirst_cons hresolved nofun
      · exact hresolved

theorem Inv.cameras (h : Inv symbols s) (cameras : CameraSingleton.State) : Inv symbols { s with cameras } :=
  ⟨h.unloaded, h.loaded, h.ready, h.once⟩

/-- What every library keeps to, and what a complete one does besides. -/
theorem inv_step (f : Framework) (b : Blob) (h : Inv symbols s) (c : Call) : Inv symbols (step symbols f b s c) := by
  cases c with
  | getNumberOfCameras loads oem number =>
    simp only [step, HAL_getNumberOfCameras]
    split
    · exact (h.ensure loads oem).note (by decide)
    · exact h.ensure loads oem
  | getCameraInfo loads oem cameraId cameraInfo filled =>
    simp only [step, HAL_getCameraInfo]
    split
    · exact (h.ensure loads oem).note nofun
    · exact h.ensure loads oem
  | openCameraHardware loads oem object cameraId properties =>
    simp only [step, HAL_openCameraHardware]
    refine Inv.cameras ?_ _
    split
    · exact h
    · split
      · exact (h.ensure loads oem).note nofun
      · exact h.ensure loads oem
  | camera e =>
    cases e with
    | createInstance => exact h
    | _ => exact h.cameras _

theorem primedFirst_step (f : Framework) (b : Blob)
    (hsymbols : symbols.HAL_openCameraHardware = true →
      symbols.HAL_getCameraInfo = true ∧ symbols.HAL_getNumberOfCameras = true)
    (h : Inv symbols s) (hp : PrimedFirst s.log) (c : Call) : PrimedFirst (step symbols f b s c).log := by
  cases c with
  | getNumberOfCameras loads oem number =>
    simp only [step, HAL_getNumberOfCameras]
    split
    · exact primedFirst_cons (primedFirst_ensure loads oem hp) nofun
    · exact primedFirst_ensure loads oem hp
  | getCameraInfo loads oem cameraId cameraInfo filled =>
    simp only [step, HAL_getCameraInfo]
    split
    · exact primedFirst_cons (primedFirst_ensure loads oem hp) nofun
    · exact primedFirst_ensure loads oem hp
  | openCameraHardware loads oem object cameraId properties =>
    simp only [step, HAL_openCameraHardware]
    split
    · exact hp
    · split
      · rename_i ho
        have hinv := h.ensure loads oem
        obtain ⟨hi, hn⟩ := hsymbols (hinv.loaded ho)
        exact primedFirst_cons (primedFirst_ensure loads oem hp) fun _ => hinv.ready hi hn ho
      · exact primedFirst_ensure loads oem hp
  | camera e =>
    cases e with
    | createInstance => exact hp
    | _ => exact hp

end

theorem inv_notLoaded (symbols : Symbols) : Inv symbols notLoaded where
  unloaded _ := ⟨rfl, List.not_mem_nil⟩
  loaded := nofun
  ready _ _ := nofun
  once := by
    unfold LoadedOnce
    decide

/-- In every order of the service's calls the blob has its target type before a camera of it is opened,
exactly if the library that can open one has its other entry points too; and it is loaded once. -/
theorem primed_before_open_iff (symbols : Symbols) (f : Framework) (b : Blob) :
    (∀ calls, PrimedFirst (exec (step symbols f b) notLoaded calls).log ∧
      LoadedOnce (exec (step symbols f b) notLoaded calls).log) ↔
    (symbols.HAL_openCameraHardware = true →
      symbols.HAL_getCameraInfo = true ∧ symbols.HAL_getNumberOfCameras = true) := by
  constructor
  · intro h ho
    have hunprimed : ¬ primed [.dlopenOem true, .dlopen true] := by
      rintro ⟨id, hid⟩
      simp at hid
    -- the first call opens a camera
    have hfirst := (h [.openCameraHardware true true true 0 fun _ => ""]).1
    obtain ⟨o, i, n⟩ := symbols
    obtain rfl : o = true := ho
    cases i with
    | false => exact absurd (hfirst [] [.dlopenOem true, .dlopen true] 0 1 rfl) hunprimed
    | true =>
      cases n with
      | false => exact absurd (hfirst [] [.dlopenOem true, .dlopen true] 0 1 rfl) hunprimed
      | true => exact ⟨rfl, rfl⟩
  · intro hsymbols calls
    have hstep : ∀ s c, (Inv symbols s ∧ PrimedFirst s.log) →
        Inv symbols (step symbols f b s c) ∧ PrimedFirst (step symbols f b s c).log :=
      fun s c h => ⟨inv_step f b h.1 c, primedFirst_step f b hsymbols h.1 h.2 c⟩
    have hstart : PrimedFirst notLoaded.log := by
      intro newer older id mode he
      cases newer <;> cases he
    have hlast := (allStates_of_invariant hstep ⟨inv_notLoaded symbols, hstart⟩ calls).last
    exact ⟨hlast.2, hlast.1.once⟩

end CameraLibrary
