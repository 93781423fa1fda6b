import Y210.Ledger

/-!
# Connecting to the supplicant

`wifi_connect_to_supplicant`, as the patch leaves it. The calls of the wpa_ctrl library are logged,
newest first, and a connection is the place in the log of the call that opened it.
-/
namespace WifiSupplicant

inductive Call where
  | opened (path : List Char) (conn : Option Nat)
  | attached (conn : Nat) (ok : Bool)
  | closed (conn : Nat)
  | slept
  deriving DecidableEq, Repr

/-- What is not in the function: the build's constants, the properties (empty where not set), the
files that `access` finds and the outcome of each library call, by the calls before it. -/
structure Platform where
  DRIVER_MODULE_NAME : List Char
  WIFI_TEST_INTERFACE : List Char
  property : String → List Char
  access : List Char → Bool
  answers : Nat → Bool

/-- The two connections, `ifname` and the library calls. -/
structure State where
  ctrl_conn : Option Nat
  monitor_conn : Option Nat
  ifname : List Char
  log : List Call
  deriving DecidableEq, Repr

/-! ## Names and paths -/

def IFACE_DIR : List Char := "/data/system/wpa_supplicant".toList
def SOCKET_DIR : List Char := "/data/misc/wifi/sockets".toList
def ATH_IFACE_DIR : List Char := "/data/misc/wpa_supplicant".toList
def SUPP_PROP_NAME : String := "init.svc.wpa_supplicant"
def ATH_SUPP_PROP_NAME : String := "init.svc.ath_supplicant"

/-- What fits into a buffer of 256 bytes. -/
def strlcpy (s : List Char) : List Char := s.take 255

def join (dir name : List Char) : List Char := strlcpy (dir ++ '/' :: name)

section
variable (p : Platform)

def wifi_uses_ath_supplicant : Bool := p.DRIVER_MODULE_NAME.take 6 = "ar6000".toList

def wifi_get_supplicant_prop_name : String :=
  if wifi_uses_ath_supplicant p then ATH_SUPP_PROP_NAME else SUPP_PROP_NAME

def wifi_get_supplicant_iface_dir : List Char :=
  if wifi_uses_ath_supplicant p then ATH_IFACE_DIR else IFACE_DIR

def supplicantRunning : Bool := p.property (wifi_get_supplicant_prop_name p) = "running".toList

/-- The static `iface`, after `property_get`. -/
def iface : List Char :=
  if p.property "wifi.interface" = [] then p.WIFI_TEST_INTERFACE else p.property "wifi.interface"

/-- The first `ifname`. -/
def firstIfname : List Char :=
  let iface_dir := wifi_get_supplicant_iface_dir p
  if wifi_uses_ath_supplicant p then
    if p.access (join iface_dir (iface p)) then join iface_dir (iface p)
    else if p.access (join SOCKET_DIR (iface p)) then join SOCKET_DIR (iface p)
    else strlcpy (iface p)
  else if p.access iface_dir then join iface_dir (iface p)
  else strlcpy (iface p)

/-! ## The library calls -/

def logged (c : Call) (s : State) : State := { s with log := c :: s.log }

/-- A connection, or null. -/
def wpa_ctrl_open (path : List Char) (s : State) : Option Nat × State :=
  let conn := if p.answers s.log.length then some s.log.length else none
  (conn, logged (.opened path conn) s)

def wpa_ctrl_attach (conn : Nat) (s : State) : Bool × State :=
  (p.answers s.log.length, logged (.attached conn (p.answers s.log.length)) s)

def wpa_ctrl_close (conn : Nat) (s : State) : State := logged (.closed conn) s

def usleep (s : State) : State := logged .slept s

/-! ## The rounds -/

/-- A connection to `ifname`, or to the bare interface, which `ifname` is from then on. -/
def openEither (bare : List Char) (s : State) : Option Nat × State :=
  let first := wpa_ctrl_open p s.ifname s
  if first.1 = none ∧ s.ifname ≠ iface p then
    let second := wpa_ctrl_open p bare first.2
    if second.1 ≠ none then (second.1, { second.2 with ifname := strlcpy bare }) else second
  else first

/-- One round; `true` where it returns 0. -/
def round (s : State) : Bool × State :=
  -- the bare name goes through `legacy_ifname` for the one connection only
  let ctrl := openEither p (strlcpy (iface p)) s
  let s := { ctrl.2 with ctrl_conn := ctrl.1 }
  match s.ctrl_conn with
  | none => (false, usleep s)
  | some ctrl_conn =>
    let monitor := openEither p (iface p) s
    let s := { monitor.2 with monitor_conn := monitor.1 }
    match s.monitor_conn with
    | none => (false, usleep { wpa_ctrl_close ctrl_conn s with ctrl_conn := none })
    | some monitor_conn =>
      let attach := wpa_ctrl_attach p monitor_conn s
      if attach.1 then (true, attach.2)
      else
        let s := wpa_ctrl_close ctrl_conn (wpa_ctrl_close monitor_conn attach.2)
        (false, usleep { s with monitor_conn := none, ctrl_conn := none })

/-- What the call returns, the state it leaves and the rounds it made. -/
structure Outcome where
  status : Int
  state : State
  rounds : Nat
  deriving DecidableEq, Repr

/-- `for (tries = 0; tries < 20; ++tries)`; `none` where the fuel runs out. -/
def connectLoop : Nat → Nat → State → Option Outcome
  | 0, _, _ => none
  | fuel + 1, tries, s =>
    if tries < 20 then
      let r := round p s
      if r.1 then some ⟨0, r.2, tries + 1⟩ else connectLoop fuel (tries + 1) r.2
    else some ⟨-1, s, tries⟩

def wifi_connect_to_supplicant (s : State) : Option Outcome :=
  if supplicantRunning p then connectLoop p 21 0 { s with ifname := firstIfname p }
  else some ⟨-1, s, 0⟩

end

/-- Both connections null and no library call made yet. -/
def called : State := ⟨none, none, [], []⟩

/-! ## The connections that are open -/

def events : Ledger.Events Call Nat where
  acquires
    | .opened _ conn => conn
    | _ => none
  releases
    | .closed conn => some conn
    | _ => none
  uses
    | .attached conn _ | .closed conn => some conn
    | _ => none

/-- Of the connections opened those of `held` are open, the others were closed once. -/
structure Owns (held : Nat → Prop) (log : List Call) : Prop where
  inOrder : Ledger.InOrder events held log
  fresh : ∀ conn, log.length ≤ conn → Ledger.acquired events log conn = 0

namespace Owns

variable {held : Nat → Prop} {log : List Call} {c : Call} {conn : Nat}

theorem nil : Owns (fun _ => False) [] := ⟨Ledger.inOrder_nil events, fun _ _ => rfl⟩

theorem congr {held' : Nat → Prop} (h : Owns held log) (he : ∀ conn, held' conn ↔ held conn) : Owns held' log :=
  ⟨h.inOrder.congr he, h.fresh⟩

/-- A call opens the next place of the log or nothing. -/
theorem fresh_cons (h : Owns held log) (hc : ∀ conn ∈ events.acquires c, conn = log.length) :
    ∀ conn, (c :: log).length ≤ conn → Ledger.acquired events (c :: log) conn = 0 := by
  intro conn hconn
  rw [List.length_cons] at hconn
  rw [Ledger.acquired_cons, h.fresh conn (by omega), if_neg]
  intro he
  have hplace := hc conn he
  omega

theorem not_held (h : Owns held log) : ¬ held log.length := by
  intro hheld
  have hone := (h.inOrder.live _ hheld).1
  rw [h.fresh _ (Nat.le_refl _)] at hone
  cases hone

theorem opened (h : Owns held log) (path : List Char) :
    Owns (fun i => i = log.length ∨ held i) (.opened path (some log.length) :: log) :=
  ⟨h.inOrder.acquire rfl rfl rfl (h.fresh _ (Nat.le_refl _)), h.fresh_cons fun _ hc => (Option.some.inj hc).symm⟩

theorem notOpened (h : Owns held log) (path : List Char) : Owns held (.opened path none :: log) :=
  ⟨h.inOrder.use rfl rfl nofun, h.fresh_cons nofun⟩

theorem slept (h : Owns held log) : Owns held (.slept :: log) := ⟨h.inOrder.use rfl rfl nofun, h.fresh_cons nofun⟩

theorem attached (h : Owns held log) (hconn : held conn) (ok : Bool) : Owns held (.attached conn ok :: log) := by
  refine ⟨h.inOrder.use rfl rfl fun i hi => ?_, h.fresh_cons nofun⟩
  obtain rfl := Option.some.inj hi
  exact hconn

theorem closed (h : Owns held log) (hconn : held conn) :
    Owns (fun i => held i ∧ i ≠ conn) (.closed conn :: log) :=
  ⟨h.inOrder.release rfl rfl (fun _ hi => (Option.some.inj hi).symm) hconn, h.fresh_cons nofun⟩

end Owns

/-! ## One round -/

/-- What a call that opens a connection leaves, null or not. -/
structure Opens (held : Nat → Prop) (s : State) (r : Option Nat × State) : Prop where
  ctrl : r.2.ctrl_conn = s.ctrl_conn
  monitor : r.2.monitor_conn = s.monitor_conn
  null : r.1 = none → Owns held r.2.log
  conn : ∀ conn, r.1 = some conn → ¬ held conn ∧ Owns (fun i => i = conn ∨ held i) r.2.log

section
variable {p : Platform} {held : Nat → Prop} {s : State}

theorem wpa_ctrl_open_opens (h : Owns held s.log) (path : List Char) : Opens held s (wpa_ctrl_open p path s) := by
  unfold wpa_ctrl_open logged
  cases p.answers s.log.length with
  | true =>
    refine ⟨rfl, rfl, nofun, fun conn hconn => ?_⟩
    obtain rfl := Option.some.inj hconn
    exact ⟨h.not_held, h.opened path⟩
  | false => exact ⟨rfl, rfl, fun _ => h.notOpened path, nofun⟩

theorem openEither_opens (h : Owns held s.log) (bare : List Char) : Opens held s (openEither p bare s) := by
  have hfirst : Opens held s (wpa_ctrl_open p s.ifname s) := wpa_ctrl_open_opens h s.ifname
  unfold openEither
  dsimp only
  split
  · rename_i hretry
    have hsecond : Opens held (wpa_ctrl_open p s.ifname s).2 (wpa_ctrl_open p bare (wpa_ctrl_open p s.ifname s).2) :=
      wpa_ctrl_open_opens (hfirst.null hretry.1) bare
    have hctrl := hsecond.ctrl.trans hfirst.ctrl
    have hmonitor := hsecond.monitor.trans hfirst.monitor
    split
    · exact ⟨hctrl, hmonitor, hsecond.null, hsecond.conn⟩
    · exact ⟨hctrl, hmonitor, hsecond.null, hsecond.conn⟩
  · exact hfirst

/-- Both connections are null and nothing is open. -/
structure Idle (s : State) : Prop where
  ctrl : s.ctrl_conn = none
  monitor : s.monitor_conn = none
  owns : Owns (fun _ => False) s.log

/-- Both connections are open, nothing else is, and the last call attached the monitor. -/
def Connected (s : State) : Prop :=
  ∃ ctrl monitor older, s.ctrl_conn = some ctrl ∧ s.monitor_conn = some monitor ∧ ctrl ≠ monitor ∧
    s.log = .attached monitor true :: older ∧ Owns (fun i => i = ctrl ∨ i = monitor) s.log

/-- A round connects, or leaves nothing open. -/
theorem round_cases (h : Idle s) :
    (round p s).1 = true ∧ Connected (round p s).2 ∨ (round p s).1 = false ∧ Idle (round p s).2 := by
  have hctrl : Opens (fun _ => False) s (openEither p (strlcpy (iface p)) s) := openEither_opens h.owns _
  unfold round
  generalize openEither p (strlcpy (iface p)) s = ctrl at hctrl
  obtain ⟨ctrlConn, s₁⟩ := ctrl
  cases ctrlConn with
  | none => exact .inr ⟨rfl, rfl, hctrl.monitor.trans h.monitor, (hctrl.null rfl).slept⟩
  | some ctrl_conn =>
    have hfirst : Owns (fun i => i = ctrl_conn) s₁.log :=
      (hctrl.conn ctrl_conn rfl).2.congr fun _ => (or_iff_left id).symm
    have hmonitor : Opens (fun i => i = ctrl_conn) { s₁ with ctrl_conn := some ctrl_conn }
        (openEither p (iface p) { s₁ with ctrl_conn := some ctrl_conn }) :=
      openEither_opens (s := { s₁ with ctrl_conn := some ctrl_conn }) hfirst _
    dsimp only
    generalize openEither p (iface p) { s₁ with ctrl_conn := some ctrl_conn } = monitor at hmonitor
    obtain ⟨monitorConn, s₂⟩ := monitor
    cases monitorConn with
    | none =>
      have hclosed := (hmonitor.null rfl).closed rfl
      exact .inr ⟨rfl, rfl, rfl, (hclosed.congr fun _ => (and_not_self_iff _).symm).slept⟩
    | some monitor_conn =>
      obtain ⟨hne, hboth⟩ := hmonitor.conn monitor_conn rfl
      have hattached := hboth.attached (.inl rfl) (p.answers s₂.log.length)
      unfold wpa_ctrl_attach logged
      dsimp only
      cases hok : p.answers s₂.log.length with
      | true =>
        rw [hok] at hattached
        refine .inl ⟨rfl, ctrl_conn, monitor_conn, s₂.log, hmonitor.ctrl, rfl, Ne.symm hne, rfl, ?_⟩
        exact hattached.congr fun _ => or_comm
      | false =>
        rw [hok] at hattached
        have hctrlHeld : ctrl_conn = monitor_conn ∨ ctrl_conn = ctrl_conn := .inr rfl
        have hclosed := (hattached.closed (.inl rfl)).closed ⟨hctrlHeld, Ne.symm hne⟩
        refine .inr ⟨rfl, rfl, rfl, (hclosed.congr fun i => ?_).slept⟩
        exact iff_of_false id fun hi => hi.1.1.elim hi.1.2 hi.2

/-! ## The loop -/

/-- What a call that began with nothing open leaves. -/
structure Owned (r : Outcome) : Prop where
  status : r.status = 0 ∨ r.status = -1
  connected : r.status = 0 → Connected r.state
  idle : r.status = -1 → r.state.ctrl_conn = none ∧ r.state.monitor_conn = none
  closed : ∀ conn, Ledger.acquired events r.state.log conn ≠ 0 →
    r.state.ctrl_conn ≠ some conn → r.state.monitor_conn ≠ some conn →
    Ledger.acquired events r.state.log conn = 1 ∧ Ledger.released events r.state.log conn = 1
  kept : ∀ conn, r.state.ctrl_conn = some conn ∨ r.state.monitor_conn = some conn → Ledger.Live events r.state.log conn
  used : Ledger.UsesLive events r.state.log
  rounds : r.rounds ≤ 20

theorem Connected.owned {n : Nat} (h : Connected s) (hn : n ≤ 20) : Owned ⟨0, s, n⟩ := by
  obtain ⟨ctrl, monitor, older, hctrl, hmonitor, hne, hlog, howns⟩ := id h
  have hheld (i : Nat) : s.ctrl_conn = some i ∨ s.monitor_conn = some i ↔ i = ctrl ∨ i = monitor := by
    rw [hctrl, hmonitor, Option.some.injEq, Option.some.injEq, eq_comm, @eq_comm _ monitor]
  refine ⟨.inl rfl, fun _ => h, nofun, fun i hi hnc hnm => ?_, fun i hi => ?_, howns.inOrder.used, hn⟩
  · refine howns.inOrder.released_once (fun hi' => ?_) hi
    exact ((hheld i).mpr hi').elim hnc hnm
  · exact howns.inOrder.live i ((hheld i).mp hi)

theorem Idle.owned {n : Nat} (h : Idle s) (hn : n ≤ 20) : Owned ⟨-1, s, n⟩ := by
  refine ⟨.inr rfl, nofun, fun _ => ⟨h.ctrl, h.monitor⟩, fun i hi _ _ => ?_, fun i hi => ?_, h.owns.inOrder.used, hn⟩
  · exact h.owns.inOrder.released_once id hi
  · dsimp only at hi
    rw [h.ctrl, h.monitor] at hi
    rcases hi with hi | hi <;> cases hi

theorem connectLoop_owned {fuel tries : Nat} (h : Idle s) (htries : tries ≤ 20) (hfuel : 20 - tries < fuel) :
    ∃ r, connectLoop p fuel tries s = some r ∧ Owned r := by
  induction fuel generalizing tries s with
  | zero => omega
  | succ fuel ih =>
    unfold connectLoop
    by_cases hmore : tries < 20
    · rw [if_pos hmore]
      dsimp only
      rcases round_cases (p := p) h with ⟨hdone, hconnected⟩ | ⟨hagain, hidle⟩
      · rw [if_pos hdone]
        exact ⟨_, rfl, hconnected.owned (by omega)⟩
      · rw [if_neg (by rw [hagain]; decide)]
        exact ih hidle (by omega) (by omega)
    · rw [if_neg hmore]
      exact ⟨_, rfl, h.owned htries⟩

end

/-- With the supplicant running, the call returns after at most 20 rounds and accounts for every
connection it opened. -/
theorem connect_owned (p : Platform) (hrunning : supplicantRunning p = true) :
    ∃ r, wifi_connect_to_supplicant p called = some r ∧ Owned r := by
  unfold wifi_connect_to_supplicant
  rw [if_pos hrunning]
  exact connectLoop_owned ⟨rfl, rfl, .nil⟩ (by decide) (by decide)

/-- The AR6000 driver, with a supplicant that answers under the bare name from the second round on. -/
def lateSupplicant : Platform where
  DRIVER_MODULE_NAME := "ar6000".toList
  WIFI_TEST_INTERFACE := "sta".toList
  property name := if name = "wifi.interface" then "wlan0".toList else "running".toList
  access path := path = "/data/misc/wpa_supplicant/wlan0".toList
  answers n := 4 ≤ n

theorem lateSupplicant_owned : ∃ r, wifi_connect_to_supplicant lateSupplicant called = some r ∧ Owned r :=
  connect_owned lateSupplicant (by decide +kernel)

end WifiSupplicant
