import Mathlib.Logic.Function.Basic

/-!
# The FM radio and its daemon

`fminit` opens `/dev/radio0`, loads the firmware and hands its descriptor out over the abstract
socket `fminit_radio0`. Any number of its processes, of native calls that acquire a descriptor, and
of runs of `init.qcom.fm.sh` go on at the same time; an event is the next system call of one of
them, with its outcome. Left out are `sleep` and `usleep`, log lines, and what a call does after
it has returned its descriptor.
-/
namespace FmInit

/-- The values of the property `hw.fm.init`. -/
inductive InitProperty where
  | unset
  | zero
  | one
  deriving DecidableEq, Repr

/-- How a system call ends. `killed` is the `SIGPIPE` of a `sendmsg` whose peer is gone. -/
inductive Outcome where
  | ok
  | failed
  | interrupted
  | killed
  deriving DecidableEq, Repr

/-- An open file of the driver, by the number of opens before it. -/
abbrev File := Nat

/-- A process of `fminit`, by the call that it makes next; from `open` on it holds the socket. -/
inductive Fminit where
  | absent
  | property_get
  | socket_local_server
  | open
  | load_firmware (radiofd : File)
  | fork (radiofd : File)
  | waitpid (radiofd : File)
  | property_set (radiofd : File)
  | accept (radiofd : File)
  | send_fd (radiofd : File) (conn : Nat)
  | exited
  deriving DecidableEq, Repr

/-- What a connected client finds on its socket. -/
inductive Inbox where
  | empty
  | message (radiofd : File)
  | closed
  deriving DecidableEq, Repr

/-- A call of `fmAcquireFdNative("/dev/radio0")`, by what it does next. -/
inductive Client where
  | absent
  | socket_local_client (attempt : Nat)
  | recvmsg (inbox : Inbox)
  | open
  | returned (fd : Option File)
  deriving DecidableEq, Repr

/-- A run of `init.qcom.fm.sh`. -/
inductive Script where
  | absent
  | reset
  | transport
  | power
  | fm_qsoc_patches
  | setprop
  | exited
  deriving DecidableEq, Repr

inductive Opener where
  | fminit (pid : Nat)
  | client (i : Nat)
  | script (i : Nat)
  deriving DecidableEq, Repr

/-- What is written down of a run, the newest first: a call of the driver's `open`, a refused
connection, a `load_firmware` that returned, and a descriptor that was sent. -/
inductive Entry where
  | opened (opener : Opener) (file : File)
  | refused (i : Nat)
  | loaded (pid : Nat)
  | sent (pid : Nat) (conn : Nat) (file : File)
  deriving DecidableEq, Repr

structure World where
  hw_fm_init : InitProperty
  /-- the process whose socket is bound to the name -/
  server : Option Nat
  /-- connections that are not accepted yet -/
  backlog : List Nat
  files : File
  fminits : Nat → Fminit
  clients : Nat → Client
  scripts : Nat → Script
  log : List Entry

def boot : World := ⟨.unset, none, [], 0, fun _ => .absent, fun _ => .absent, fun _ => .absent, []⟩

def setFminit (pid : Nat) (x : Fminit) (w : World) : World :=
  { w with fminits := Function.update w.fminits pid x }

def setClient (i : Nat) (c : Client) (w : World) : World := { w with clients := Function.update w.clients i c }

def setScript (i : Nat) (s : Script) (w : World) : World := { w with scripts := Function.update w.scripts i s }

def note (e : Entry) (w : World) : World := { w with log := e :: w.log }

/-- The driver's `open`. -/
def openDevice (opener : Opener) (w : World) : World :=
  note (.opened opener w.files) { w with files := w.files + 1 }

/-! ## `fminit` -/

/-- The other end closes a connection that has nothing in it. -/
def hangUp (conn : Nat) (w : World) : World :=
  if w.clients conn = .recvmsg .empty then setClient conn (.recvmsg .closed) w else w

/-- The end of a process that holds the socket: its connections are closed with it. -/
def exit (pid : Nat) (w : World) : World :=
  setFminit pid .exited { w.backlog.foldl (fun w conn => hangUp conn w) w with server := none, backlog := [] }

/-- `load_firmware` returns, and `main` enters the loop. -/
def loaded (pid : Nat) (radiofd : File) (w : World) : World :=
  note (.loaded pid) (setFminit pid (.accept radiofd) w)

/-- `sendmsg` of the descriptor. -/
def sendmsg (pid conn : Nat) (radiofd : File) (w : World) : World :=
  let w := note (.sent pid conn radiofd) w
  if w.clients conn = .recvmsg .empty then setClient conn (.recvmsg (.message radiofd)) w else w

/-- The next call of a process of `fminit`. The outcome of `property_get` says whether there is a
version, that of `waitpid` whether the loader exited with 0. -/
def fminit (pid : Nat) (r : Outcome) (w : World) : World :=
  match w.fminits pid with
  | .absent | .exited => w
  | .property_get => setFminit pid (if r = .ok then .socket_local_server else .exited) w
  | .socket_local_server =>
    if r = .ok ∧ w.server = none then setFminit pid .open { w with server := some pid }
    else setFminit pid .exited w
  | .open => if r = .ok then setFminit pid (.load_firmware w.files) (openDevice (.fminit pid) w) else exit pid w
  | .load_firmware radiofd =>
    setFminit pid (.fork radiofd) (if r = .ok then { w with hw_fm_init := .zero } else w)
  | .fork radiofd => if r = .ok then setFminit pid (.waitpid radiofd) w else loaded pid radiofd w
  | .waitpid radiofd => if r = .ok then setFminit pid (.property_set radiofd) w else loaded pid radiofd w
  | .property_set radiofd => loaded pid radiofd (if r = .ok then { w with hw_fm_init := .one } else w)
  | .accept radiofd =>
    match r with
    | .ok =>
      match w.backlog with
      | [] => w
      | conn :: rest => setFminit pid (.send_fd radiofd conn) { w with backlog := rest }
    | .interrupted => w
    | _ => exit pid w
  | .send_fd radiofd conn =>
    match r with
    | .ok => setFminit pid (.accept radiofd) (sendmsg pid conn radiofd w)
    | .killed => exit pid (hangUp conn w)
    | _ => setFminit pid (.accept radiofd) (hangUp conn w)

/-! ## Native calls -/

/-- A connection that is refused; after the last attempt the call opens the device itself. -/
def refuse (i attempt : Nat) (w : World) : World :=
  note (.refused i) (setClient i (if attempt + 1 < 60 then .socket_local_client (attempt + 1) else .open) w)

/-- The next step of a native call. A connection is queued as soon as the name is bound. -/
def client (i : Nat) (r : Outcome) (w : World) : World :=
  match w.clients i with
  | .absent | .returned _ => w
  | .socket_local_client attempt =>
    if r = .ok ∧ w.server ≠ none then setClient i (.recvmsg .empty) { w with backlog := w.backlog ++ [i] }
    else refuse i attempt w
  | .recvmsg inbox =>
    if r = .ok then
      match inbox with
      | .empty => w
      | .message radiofd => setClient i (.returned (some radiofd)) w
      | .closed => setClient i .open w
    else setClient i .open w
  | .open =>
    if r = .ok then setClient i (.returned (some w.files)) (openDevice (.client i) w)
    else setClient i (.returned none) w

/-! ## The script -/

/-- The next command of the script. The outcome of `transport` says whether it is smd, that of
`power` whether the device was there and opened. -/
def script (i : Nat) (r : Outcome) (w : World) : World :=
  match w.scripts i with
  | .absent | .exited => w
  | .reset => setScript i .transport (if r = .ok then { w with hw_fm_init := .zero } else w)
  | .transport => setScript i (if r = .ok then .setprop else .power) w
  | .power => setScript i .fm_qsoc_patches (if r = .ok then openDevice (.script i) w else w)
  | .fm_qsoc_patches => setScript i (if r = .ok then .setprop else .exited) w
  | .setprop => setScript i .exited (if r = .ok then { w with hw_fm_init := .one } else w)

/-! ## Runs -/

/-- A start of `fminit`, the one of `FMRadioService.onCreate`, a step of a process, a native call
and its steps, a start of the service `fm_dl` and the steps of its script. -/
inductive Event where
  | start (pid : Nat)
  | onCreate (pid : Nat)
  | fminit (pid : Nat) (r : Outcome)
  | fmAcquireFdNative (i : Nat)
  | client (i : Nat) (r : Outcome)
  | fm_dl (i : Nat)
  | script (i : Nat) (r : Outcome)
  deriving DecidableEq, Repr

/-- A new process. -/
def start (pid : Nat) (w : World) : World :=
  if w.fminits pid = .absent then setFminit pid .property_get w else w

def step (w : World) : Event → World
  | .start pid => start pid w
  | .onCreate pid => if w.hw_fm_init ≠ .one then start pid w else w
  | .fminit pid r => fminit pid r w
  | .fmAcquireFdNative i =>
    if w.clients i = .absent then setClient i (.socket_local_client 0) w else w
  | .client i r => client i r w
  | .fm_dl i => if w.scripts i = .absent then setScript i .reset w else w
  | .script i r => script i r w

/-! ## The socket -/

/-- The process holds the socket. -/
def Fminit.bound : Fminit → Bool
  | .absent | .property_get | .socket_local_server | .exited => false
  | _ => true

/-- The descriptor of the device, while the process lives. -/
def Fminit.radiofd : Fminit → Option File
  | .load_firmware fd | .fork fd | .waitpid fd | .property_set fd | .accept fd | .send_fd fd _ => some fd
  | _ => none

/-- The socket is held by the process that the name is bound to, and by no other. -/
def Exclusive (w : World) : Prop := ∀ pid, (w.fminits pid).bound = true ↔ w.server = some pid

section
variable {w w' : World} {pid : Nat} {x y : Fminit}

theorem exclusive_boot : Exclusive boot := fun pid => by simp [boot, Fminit.bound]

theorem Exclusive.server (h : Exclusive w) (hp : w.fminits pid = x) (hb : x.bound = true) : w.server = some pid := by
  rw [← hp] at hb
  exact (h pid).mp hb

theorem Exclusive.not_server (h : Exclusive w) (hp : w.fminits pid = x) (hb : x.bound = false) :
    w.server ≠ some pid := by
  intro hs
  rw [← hp] at hb
  exact Bool.false_ne_true (hb.symm.trans ((h pid).mpr hs))

theorem Exclusive.congr (h : Exclusive w) (hf : w'.fminits = w.fminits) (hs : w'.server = w.server) : Exclusive w' := by
  intro q
  rw [hf, hs]
  exact h q

/-- A process goes on and keeps the socket, or goes on without one. -/
theorem Exclusive.moves (h : Exclusive w) (hp : w.fminits pid = y) (hf : w'.fminits = Function.update w.fminits pid x)
    (hs : w'.server = w.server) (hb : x.bound = y.bound) : Exclusive w' := by
  intro q
  rw [hf, hs, ← h q]
  by_cases hq : q = pid
  · subst hq
    rw [Function.update_self, hb, hp]
  · rw [Function.update_of_ne hq]

theorem Exclusive.bind (h : Exclusive w) (hs : w.server = none) :
    Exclusive (setFminit pid .open { w with server := some pid }) := by
  intro q
  by_cases hq : q = pid
  · subst hq
    simp [setFminit, Fminit.bound]
  · have hnot : (w.fminits q).bound = true ↔ False := by simp [h q, hs]
    simp [setFminit, hq, hnot, Ne.symm hq]

theorem hangUp_frame (conn : Nat) (w : World) : ∃ clients, hangUp conn w = { w with clients := clients } := by
  unfold hangUp
  split
  · exact ⟨_, rfl⟩
  · exact ⟨_, rfl⟩

theorem hangUps_frame (conns : List Nat) (w : World) :
    ∃ clients, conns.foldl (fun w conn => hangUp conn w) w = { w with clients := clients } := by
  induction conns generalizing w with
  | nil => exact ⟨_, rfl⟩
  | cons conn conns ih =>
    obtain ⟨c, hc⟩ := hangUp_frame conn w
    obtain ⟨c', hc'⟩ := ih (hangUp conn w)
    exact ⟨c', by rw [List.foldl_cons, hc', hc]⟩

theorem exit_frame (pid : Nat) (w : World) : ∃ clients, exit pid w =
    { w with fminits := Function.update w.fminits pid .exited, clients := clients, server := none, backlog := [] } := by
  obtain ⟨c, hc⟩ := hangUps_frame w.backlog w
  exact ⟨c, by rw [exit, hc, setFminit]⟩

theorem Exclusive.exit (h : Exclusive w) (hs : w.server = some pid) : Exclusive (exit pid w) := by
  obtain ⟨c, hc⟩ := exit_frame pid w
  intro q
  rw [hc]
  by_cases hq : q = pid
  · subst hq
    simp [Fminit.bound]
  · have hnot : (w.fminits q).bound = true ↔ False := by simp [h q, hs, Ne.symm hq]
    simp [hq, hnot]

theorem sendmsg_frame (pid conn : Nat) (fd : File) (w : World) : ∃ clients, sendmsg pid conn fd w =
    { w with clients := clients, log := .sent pid conn fd :: w.log } := by
  unfold sendmsg note
  dsimp only
  split
  · exact ⟨_, rfl⟩
  · exact ⟨_, rfl⟩

/-- The name is bound for one process at most, whatever happens. -/
theorem exclusive_fminit (h : Exclusive w) (pid : Nat) (r : Outcome) : Exclusive (fminit pid r w) := by
  unfold fminit
  cases hp : w.fminits pid with
  | absent | exited => exact h
  | property_get => cases r <;> exact h.moves hp rfl rfl rfl
  | socket_local_server =>
    dsimp only
    split
    · rename_i hc
      exact h.bind hc.2
    · exact h.moves hp rfl rfl rfl
  | «open» =>
    have hs := h.server hp rfl
    dsimp only
    split
    · exact h.moves hp rfl rfl rfl
    · exact h.exit hs
  | load_firmware fd => cases r <;> exact h.moves hp rfl rfl rfl
  | fork fd | waitpid fd | property_set fd => cases r <;> exact h.moves hp rfl rfl rfl
  | accept fd =>
    have hs := h.server hp rfl
    cases r with
    | ok =>
      cases hb : w.backlog with
      | nil => exact h
      | cons conn rest => exact h.moves hp rfl rfl rfl
    | interrupted => exact h
    | failed | killed => exact h.exit hs
  | send_fd fd conn =>
    have hs := h.server hp rfl
    obtain ⟨c, hc⟩ := hangUp_frame conn w
    obtain ⟨c', hc'⟩ := sendmsg_frame pid conn fd w
    dsimp only
    rw [hc, hc']
    cases r with
    | ok | failed | interrupted => exact h.moves hp rfl rfl rfl
    | killed => exact Exclusive.exit (h.congr rfl rfl) hs

theorem client_frame (i : Nat) (r : Outcome) (w : World) : ∃ backlog files clients log,
    client i r w = { w with backlog := backlog, files := files, clients := clients, log := log } := by
  unfold client
  cases w.clients i with
  | absent | returned => exact ⟨_, _, _, _, rfl⟩
  | socket_local_client attempt =>
    dsimp only
    split <;> exact ⟨_, _, _, _, rfl⟩
  | recvmsg inbox => cases inbox <;> cases r <;> exact ⟨_, _, _, _, rfl⟩
  | «open» =>
    dsimp only
    split <;> exact ⟨_, _, _, _, rfl⟩

theorem script_frame (i : Nat) (r : Outcome) (w : World) : ∃ init files scripts log,
    script i r w = { w with hw_fm_init := init, files := files, scripts := scripts, log := log } := by
  unfold script
  cases w.scripts i with
  | absent | exited => exact ⟨_, _, _, _, rfl⟩
  | reset | transport | power | fm_qsoc_patches | setprop => cases r <;> exact ⟨_, _, _, _, rfl⟩

theorem exclusive_start (h : Exclusive w) (pid : Nat) : Exclusive (start pid w) := by
  unfold start
  split
  · rename_i hp
    exact h.moves hp rfl rfl rfl
  · exact h

theorem exclusive_step (h : Exclusive w) (e : Event) : Exclusive (step w e) := by
  cases e with
  | start pid => exact exclusive_start h pid
  | onCreate pid =>
    rw [step]
    split
    · exact exclusive_start h pid
    · exact h
  | fminit pid r => exact exclusive_fminit h pid r
  | fmAcquireFdNative i =>
    rw [step]
    split
    · exact h.congr rfl rfl
    · exact h
  | client i r =>
    obtain ⟨_, _, _, _, hc⟩ := client_frame i r w
    rw [step, hc]
    exact h.congr rfl rfl
  | fm_dl i =>
    rw [step]
    split
    · exact h.congr rfl rfl
    · exact h
  | script i r =>
    obtain ⟨_, _, _, _, hs⟩ := script_frame i r w
    rw [step, hs]
    exact h.congr rfl rfl

end

end FmInit
