import Y210.Programs
import Y210.Run

/-!
# Loading the Wi-Fi driver

`wifi_load_driver` and `wifi_unload_driver`, as the patch leaves them, write a request into the
property `wlan.driver.status`; `init` starts a service of `wlan_tool` for it, and the framework looks
at the property until the service has written its answer there. The framework, `init` and the two
services go on at the same time; an event is the next call of one of them. Left out are sleeping,
log lines, what `wmiconfig` and `ifconfig` do to a driver that is loaded, and the start of the service
`wlan_detect`, which lays the chip's files out under `/data/misc/wifi` and touches neither the property
nor the module.

What stands outside the script and the two functions is assumed: `answer` and `perform` say what of the
kernel, `wmiconfig` and `check_driver_loaded`, `enqueue` and `step` what of `init`.
-/
namespace WlanTool

open Programs Prog

/-- The values of `wlan.driver.status`. -/
inductive Status where
  | unset
  | insmod
  | rmmod
  | x
  | ok
  | failed
  | unloaded
  | timeout
  deriving DecidableEq, Repr

/-- What the framework asks for; `wlan_tool_load` and `wlan_tool_unload` are the services for it. -/
inductive Task where
  | load
  | unload
  deriving DecidableEq, Repr

/-- `MODULE_CHECK` and `WLAN_ENABLE_CHECK` are commands of the script, `checkapmode` is one too as
it looks at another property; `check_driver_loaded` belongs to the framework. -/
inductive Call where
  | setprop (value : Status)
  | getprop
  | checkapmode
  | moduleCheck
  | wlanEnableCheck
  | insmod
  | rmmod
  | check_driver_loaded
  deriving DecidableEq, Repr

abbrev Answer : Call → Type
  | .setprop _ => Unit
  | .getprop => Status
  | _ => Bool

abbrev Script := Prog Call Answer

abbrev setprop (value : Status) : Script Unit := lift (Call.setprop value)
abbrev getprop : Script Status := lift Call.getprop
abbrev checkapmode : Script Bool := lift Call.checkapmode
abbrev moduleCheck : Script Bool := lift Call.moduleCheck
abbrev wlanEnableCheck : Script Bool := lift Call.wlanEnableCheck
abbrev insmod : Script Bool := lift Call.insmod
abbrev rmmod : Script Bool := lift Call.rmmod
abbrev check_driver_loaded : Script Bool := lift Call.check_driver_loaded

/-! ## `wlan_tool` -/

/-- `for i in 1 2 ..; do if look; then break; fi; sleep 1; done` -/
def waitFor (look : Script Bool) : Script Unit := do
  let _ ← attempts 10 (do
    let b ← look
    pure (if b then some () else none))

/-- Set, and set again while something else is read. -/
def do_setprop (value : Status) : Script Unit := do
  setprop value
  let _ ← attempts 20 (do
    let now ← getprop
    if now = value then pure (some ())
    else do
      setprop value
      pure none)

def do_rmmod : Script Unit := do
  if ← rmmod then pure ()
  else do
    do_setprop .rmmod
    waitFor (do return !(← moduleCheck))

def do_insmod : Script Unit := do
  if ← insmod then pure ()
  else do
    do_setprop .insmod
    waitFor moduleCheck

def reload : Script Unit := do
  (do if ← moduleCheck then do_rmmod else pure ())
  do_insmod
  waitFor wlanEnableCheck

/-- The service `wlan_tool_load`. -/
def loaddriver : Script Unit := do
  if ← checkapmode then do_setprop .failed
  else do
    do_setprop .x
    (do if ← moduleCheck then pure () else reload)
    if ← wlanEnableCheck then do_setprop .ok else do_setprop .failed

/-- The service `wlan_tool_unload`; `CLK_HELPER` is 0. -/
def unloaddriver : Script Unit := do
  if ← checkapmode then do_setprop .failed
  else do
    do_rmmod
    waitFor (do return !(← wlanEnableCheck))
    do_setprop .unloaded

def script : Task → Script Unit
  | .load => loaddriver
  | .unload => unloaddriver

/-! ## The framework -/

/-- `while (count-- > 0)` around one look at the property. -/
def poll {ρ : Type} (count : Nat) (look : Status → Option ρ) : Script (Option ρ) :=
  attempts count (do return look (← getprop))

def lookUnloaded (driver_status : Status) : Option Unit :=
  if driver_status = .unloaded then some () else none

def wifi_unload_driver : Script Int := do
  setprop .rmmod
  match ← poll 20 lookUnloaded with
  | some _ => pure 0
  | none => pure (-1)

/-- `true` for `ok`, `false` for `failed`. -/
def lookLoaded (driver_status : Status) : Option Bool :=
  if driver_status = .ok then some true else if driver_status = .failed then some false else none

/-- The end of `wifi_load_driver` once it has looked, or has given up. -/
def concludeLoad : Option Bool → Script Int
  | some true => pure 0
  | some false => do
    let _ ← wifi_unload_driver
    pure (-1)
  | none => do
    setprop .timeout
    let _ ← wifi_unload_driver
    pure (-1)

def wifi_load_driver : Script Int := do
  if ← check_driver_loaded then pure 0
  else do
    setprop .insmod
    concludeLoad (← poll 100 lookLoaded)

def function : Task → Script Int
  | .load => wifi_load_driver
  | .unload => wifi_unload_driver

/-! ## The device -/

inductive Framework where
  | idle (last : Option (Task × Int))
  | running (task : Task) (rest : Script Int)

inductive Party where
  | framework
  | service (task : Task)
  deriving DecidableEq, Repr

/-- What is written down of a run, the newest first: `enabled` is a `WLAN_ENABLE_CHECK` that
succeeded, `reported` a `check_driver_loaded` that did. -/
inductive Entry where
  | called (task : Task)
  | returned (task : Task) (status : Int)
  | started (task : Task)
  | set (party : Party) (value : Status)
  | enabled (task : Task)
  | reported
  deriving DecidableEq, Repr

/-- `module` says whether `/sys/bus/sdio/drivers/ar6k_wlan` is there, `queue` holds the triggers
that `init` has yet to act on. -/
structure World where
  status : Status
  module : Bool
  queue : List Task
  services : Task → Option (Script Unit)
  framework : Framework
  log : List Entry

def boot (module : Bool) : World := ⟨.unset, module, [], fun _ => none, .idle none, []⟩

def note (e : Entry) (w : World) : World := { w with log := e :: w.log }

/-- `on property:wlan.driver.status=..` -/
def trigger : Status → Option Task
  | .insmod => some .load
  | .rmmod => some .unload
  | _ => none

/-- `init` is assumed to keep one queue of triggers: one that is on it already is not put there twice. -/
def enqueue (t : Option Task) (queue : List Task) : List Task :=
  match t with
  | some t => if t ∈ queue then queue else queue ++ [t]
  | none => queue

/-- The answer of a call; `b` is what the rest of the device has to say to it. Assumed: `wmiconfig` and
`check_driver_loaded` succeed with the module only, though they may fail with it; `insmod` fails with it
and `rmmod` without it, and either may fail otherwise. -/
def answer (b : Bool) (w : World) : (c : Call) → Answer c
  | .setprop _ => ()
  | .getprop => w.status
  | .checkapmode => b
  | .moduleCheck => w.module
  | .wlanEnableCheck => b && w.module
  | .insmod => b && !w.module
  | .rmmod => b && w.module
  | .check_driver_loaded => b && w.module

/-- What a call does. The module is assumed to come and go with these `insmod` and `rmmod` only, at once
when they succeed, and a property to hold what was set last. -/
def perform (party : Party) (b : Bool) (w : World) : Call → World
  | .setprop value =>
    note (.set party value) { w with status := value, queue := enqueue (trigger value) w.queue }
  | .wlanEnableCheck =>
    match party with
    | .service task => if b && w.module then note (.enabled task) w else w
    | .framework => w
  | .insmod => { w with module := w.module || b }
  | .rmmod => { w with module := w.module && !b }
  | .check_driver_loaded => if b && w.module then note .reported w else w
  | _ => w

def setService (task : Task) (s : Option (Script Unit)) (w : World) : World :=
  { w with services := Function.update w.services task s }

inductive Event where
  | call (task : Task)
  | framework (b : Bool)
  | service (task : Task) (b : Bool)
  | init
  deriving DecidableEq, Repr

/-- `init` acts on its queue in order, at any time, and is the only one to start the services; the framework
makes one call of the two at a time. -/
def step (w : World) : Event → World
  | .call task =>
    match w.framework with
    | .idle _ => note (.called task) { w with framework := .running task (function task) }
    | .running _ _ => w
  | .framework b =>
    match w.framework with
    | .idle _ => w
    | .running task (.ret r) => note (.returned task r) { w with framework := .idle (some (task, r)) }
    | .running task (.call c k) =>
      { perform .framework b w c with framework := .running task (k (answer b w c)) }
  | .service task b =>
    match w.services task with
    | none => w
    | some (.ret _) => setService task none w
    | some (.call c k) => setService task (some (k (answer b w c))) (perform (.service task) b w c)
  | .init =>
    match w.queue with
    | [] => w
    | task :: queue =>
      -- `start` leaves a service alone that is running
      match w.services task with
      | none => note (.started task) (setService task (some (script task)) { w with queue })
      | some _ => { w with queue }

/-! ## The fields of the device after a call -/

section
variable (w : World) (e : Entry) (party : Party) (b : Bool) (c : Call) (task : Task) (s : Option (Script Unit))

@[simp] theorem note_log : (note e w).log = e :: w.log := rfl
@[simp] theorem note_status : (note e w).status = w.status := rfl
@[simp] theorem note_module : (note e w).module = w.module := rfl
@[simp] theorem note_queue : (note e w).queue = w.queue := rfl
@[simp] theorem note_services : (note e w).services = w.services := rfl
@[simp] theorem note_framework : (note e w).framework = w.framework := rfl

@[simp] theorem setService_log : (setService task s w).log = w.log := rfl
@[simp] theorem setService_status : (setService task s w).status = w.status := rfl
@[simp] theorem setService_module : (setService task s w).module = w.module := rfl
@[simp] theorem setService_queue : (setService task s w).queue = w.queue := rfl
@[simp] theorem setService_services : (setService task s w).services = Function.update w.services task s := rfl
@[simp] theorem setService_framework : (setService task s w).framework = w.framework := rfl

@[simp] theorem perform_services : (perform party b w c).services = w.services := by
  cases c <;> simp only [perform] <;> (repeat' split) <;> rfl

@[simp] theorem perform_framework : (perform party b w c).framework = w.framework := by
  cases c <;> simp only [perform] <;> (repeat' split) <;> rfl

@[simp] theorem perform_status :
    (perform party b w c).status = match c with | .setprop value => value | _ => w.status := by
  cases c <;> simp only [perform] <;> (repeat' split) <;> rfl

@[simp] theorem perform_module : (perform party b w c).module =
    match c with | .insmod => w.module || b | .rmmod => w.module && !b | _ => w.module := by
  cases c <;> simp only [perform] <;> (repeat' split) <;> rfl

@[simp] theorem perform_queue : (perform party b w c).queue =
    match c with | .setprop value => enqueue (trigger value) w.queue | _ => w.queue := by
  cases c <;> simp only [perform] <;> (repeat' split) <;> rfl

end

end WlanTool
