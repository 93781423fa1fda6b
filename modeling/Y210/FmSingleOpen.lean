import Y210.FmInit
import Y210.Run

/-!
# The one open of the radio

The driver's `open` wipes the firmware, so `fminit` opens the device once and hands the descriptor
out. As long as nothing fails it stays the only process that opens it, and what it hands out has
its firmware; a native call opens the device itself after sixty refused connections.
-/
namespace FmSingleOpen

open FmInit

/-- The outcomes of a process of `fminit` when opens, forks and sockets do not fail: the version may
be missing, the loader may fail, and `accept` may be interrupted. -/
def succeeds : Fminit → Outcome → Bool
  | .socket_local_server, r | .open, r | .fork _, r | .send_fd _ _, r => r = .ok
  | .accept _, r => r = .ok || r = .interrupted
  | _, _ => true

/-- Nothing fails, and only `fminit` and native calls run. -/
def NoFailure (w : World) : Event → Prop
  | .fminit pid r => succeeds (w.fminits pid) r = true
  | .client _ r => r = .ok
  | .start _ | .onCreate _ | .fmAcquireFdNative _ => True
  | .fm_dl _ | .script _ _ => False

instance (w : World) : ∀ e, Decidable (NoFailure w e)
  | .fminit pid r => inferInstanceAs (Decidable (succeeds (w.fminits pid) r = true))
  | .client _ r => inferInstanceAs (Decidable (r = .ok))
  | .start _ | .onCreate _ | .fmAcquireFdNative _ => inferInstanceAs (Decidable True)
  | .fm_dl _ | .script _ _ => inferInstanceAs (Decidable False)

def isOpen : Entry → Bool
  | .opened _ _ => true
  | _ => false

def isDaemonOpen : Entry → Bool
  | .opened (.fminit _) _ => true
  | _ => false

/-- The call got a descriptor that `fminit` sent after its `load_firmware` had returned, and the
file is the one that this process had opened. -/
def Duplicate (log : List Entry) (i : Nat) (fd : File) : Prop :=
  ∃ pid post pre, log = post ++ .sent pid i fd :: pre ∧ .loaded pid ∈ pre ∧ .opened (.fminit pid) fd ∈ pre

/-- The call opened the device itself, after sixty refused connections. -/
def OwnOpen (log : List Entry) (i : Nat) (fd : File) : Prop :=
  ∃ post pre, log = post ++ .opened (.client i) fd :: pre ∧ pre.count (.refused i) = 60

/-- The driver is opened once at most, and who obtains a descriptor obtains a duplicate of it. -/
structure SingleOpen (w : World) : Prop where
  opens : w.log.countP isOpen ≤ 1
  duplicates : ∀ i fd, w.clients i = .returned (some fd) → Duplicate w.log i fd

/-- The same, with the calls that open the device themselves. -/
structure Handed (w : World) : Prop where
  daemon : w.log.countP isDaemonOpen ≤ 1
  opens : ∀ opener fd, .opened opener fd ∈ w.log →
    (∃ pid, opener = .fminit pid) ∨ ∃ i, opener = .client i ∧ OwnOpen w.log i fd
  returned : ∀ i fd, w.clients i = .returned (some fd) → Duplicate w.log i fd ∨ OwnOpen w.log i fd

/-! ## What a run writes down -/

/-- Each entry has its reason before it. -/
def Justified : List Entry → Prop
  | [] => True
  | .opened (.fminit _) _ :: log => (∀ pid fd, .opened (.fminit pid) fd ∉ log) ∧ Justified log
  | .opened (.client i) _ :: log => log.count (.refused i) = 60 ∧ Justified log
  | .opened (.script _) _ :: _ => False
  | .sent pid _ fd :: log => (.loaded pid ∈ log ∧ .opened (.fminit pid) fd ∈ log) ∧ Justified log
  | .refused _ :: log | .loaded _ :: log => Justified log

section
variable {log post : List Entry} {e : Entry}

theorem Justified.tail (h : Justified (e :: log)) : Justified log := by
  cases e with
  | opened opener fd =>
    cases opener with
    | fminit pid | client i => exact h.2
    | script i => exact h.elim
  | sent pid conn fd => exact h.2
  | refused i | loaded pid => exact h

theorem Justified.suffix (h : Justified (post ++ log)) : Justified log := by
  induction post with
  | nil => exact h
  | cons e post ih => exact ih h.tail

theorem Justified.duplicate (h : Justified log) {pid i : Nat} {fd : File} (hs : .sent pid i fd ∈ log) :
    Duplicate log i fd := by
  obtain ⟨post, pre, rfl⟩ := List.append_of_mem hs
  exact ⟨pid, post, pre, rfl, h.suffix.1⟩

theorem Justified.ownOpen (h : Justified log) {i : Nat} {fd : File} (ho : .opened (.client i) fd ∈ log) :
    OwnOpen log i fd := by
  obtain ⟨post, pre, rfl⟩ := List.append_of_mem ho
  exact ⟨post, pre, rfl, h.suffix.1⟩

theorem OwnOpen.refused {i : Nat} {fd : File} (h : OwnOpen log i fd) : 60 ≤ log.count (.refused i) := by
  obtain ⟨post, pre, rfl, hcount⟩ := h
  rw [List.count_append, List.count_cons]
  omega

theorem Justified.not_script (h : Justified log) (i : Nat) (fd : File) : .opened (.script i) fd ∉ log := by
  intro ho
  obtain ⟨post, pre, rfl⟩ := List.append_of_mem ho
  exact h.suffix

theorem Justified.daemon (h : Justified log) : log.countP isDaemonOpen ≤ 1 := by
  induction log with
  | nil => exact Nat.zero_le 1
  | cons e log ih =>
    rw [List.countP_cons]
    have hlog := ih h.tail
    by_cases hd : isDaemonOpen e = true
    · match e, hd with
      | .opened (.fminit pid) fd, _ =>
        have hnone : log.countP isDaemonOpen = 0 := by
          rw [List.countP_eq_zero]
          intro x hx hdx
          match x, hdx with
          | .opened (.fminit q) fd', _ => exact h.1 q fd' hx
        simp [hnone, isDaemonOpen]
    · simpa [hd] using hlog

/-- With fewer than sixty refusals each, only `fminit` has opened the device. -/
theorem Justified.opens (h : Justified log) (hr : ∀ i, log.count (.refused i) < 60) : log.countP isOpen ≤ 1 := by
  have hsame : log.countP isOpen = log.countP isDaemonOpen := by
    apply List.countP_congr
    intro e he
    match e with
    | .opened (.fminit pid) fd => exact Iff.rfl
    | .opened (.client i) fd =>
      exact absurd (h.ownOpen he).refused (Nat.not_le.mpr (hr i))
    | .opened (.script i) fd => exact absurd he (h.not_script i fd)
    | .refused i | .loaded pid | .sent pid conn fd => exact Iff.rfl
  rw [hsame]
  exact h.daemon

end

/-! ## The invariant -/

/-- What a process of `fminit` has behind it. -/
structure Behind (log : List Entry) (pid : Nat) (x : Fminit) : Prop where
  opened : ∀ fd, x.radiofd = some fd → .opened (.fminit pid) fd ∈ log
  loaded : ∀ fd conn, x = .accept fd ∨ x = .send_fd fd conn → .loaded pid ∈ log

/-- What a native call has behind it. -/
def Accounted (log : List Entry) (i : Nat) : Client → Prop
  | .absent => log.count (.refused i) = 0
  | .socket_local_client attempt => attempt < 60 ∧ log.count (.refused i) = attempt
  | .recvmsg .empty | .returned none => True
  | .recvmsg (.message fd) => ∃ pid, .sent pid i fd ∈ log
  | .recvmsg .closed => False
  | .open => log.count (.refused i) = 60
  | .returned (some fd) => (∃ pid, .sent pid i fd ∈ log) ∨ .opened (.client i) fd ∈ log

structure Inv (w : World) : Prop where
  exclusive : Exclusive w
  unopened : (∀ pid, w.server = some pid → w.fminits pid = .open) → ∀ pid fd, .opened (.fminit pid) fd ∉ w.log
  processes : ∀ pid, Behind w.log pid (w.fminits pid)
  calls : ∀ i, Accounted w.log i (w.clients i)
  justified : Justified w.log

/-- Before its open a process has nothing behind it. -/
theorem Behind.of_none {log : List Entry} {pid : Nat} {x : Fminit} (hx : x.radiofd = none) : Behind log pid x where
  opened := by
    intro fd hfd
    rw [hx] at hfd
    cases hfd
  loaded := by
    intro fd conn h
    rcases h with rfl | rfl
    · cases hx
    · cases hx

theorem inv_boot : Inv boot where
  exclusive := exclusive_boot
  unopened := fun _ _ _ => List.not_mem_nil
  processes := fun _ => .of_none rfl
  calls := fun _ => rfl
  justified := trivial

section
variable {w w' : World} {pid i : Nat} {x y : Fminit} {c : Client} {e : Entry} {log : List Entry}

theorem Behind.cons (h : Behind log pid x) (e : Entry) : Behind (e :: log) pid x :=
  ⟨fun fd hfd => List.mem_cons_of_mem e (h.opened fd hfd),
    fun fd conn hx => List.mem_cons_of_mem e (h.loaded fd conn hx)⟩

theorem Accounted.cons (h : Accounted log i c) (he : e ≠ .refused i) : Accounted (e :: log) i c := by
  have hcount : (e :: log).count (.refused i) = log.count (.refused i) := List.count_cons_of_ne he
  match c, h with
  | .absent, h => exact hcount.trans h
  | .socket_local_client n, h => exact ⟨h.1, hcount.trans h.2⟩
  | .recvmsg .empty, _ => trivial
  | .returned none, _ => trivial
  | .recvmsg (.message fd), ⟨pid, h⟩ => exact ⟨pid, List.mem_cons_of_mem e h⟩
  | .open, h => exact hcount.trans h
  | .returned (some fd), h =>
    rcases h with ⟨pid, h⟩ | h
    · exact .inl ⟨pid, List.mem_cons_of_mem e h⟩
    · exact .inr (List.mem_cons_of_mem e h)

/-- An entry that is neither an open of `fminit` nor a refusal. -/
theorem Inv.note (h : Inv w) (hd : ∀ pid fd, e ≠ .opened (.fminit pid) fd) (hr : ∀ i, e ≠ .refused i)
    (he : Justified (e :: w.log)) : Inv (note e w) where
  exclusive := h.exclusive.congr rfl rfl
  unopened := by
    intro hs pid fd hmem
    rcases List.mem_cons.mp hmem with rfl | hmem
    · exact hd pid fd rfl
    · exact h.unopened hs pid fd hmem
  processes := fun pid => (h.processes pid).cons e
  calls := fun i => (h.calls i).cons (hr i)
  justified := he

/-- A process moves on. -/
theorem Inv.moves (h : Inv w) (hp : w.fminits pid = y) (hf : w'.fminits = Function.update w.fminits pid x)
    (hs : w'.server = w.server) (hc : w'.clients = w.clients) (hlog : w'.log = w.log) (hb : x.bound = y.bound)
    (hopen : x ≠ .open) (hx : Behind w.log pid x) : Inv w' where
  exclusive := h.exclusive.moves hp hf hs hb
  unopened := by
    intro hall
    rw [hlog]
    refine h.unopened fun q hq => ?_
    have hall' := hall q (hs.trans hq)
    rw [hf] at hall'
    by_cases hqp : q = pid
    · subst hqp
      rw [Function.update_self] at hall'
      exact absurd hall' hopen
    · rwa [Function.update_of_ne hqp] at hall'
  processes := by
    rw [hlog, hf]
    exact (Function.forall_update_iff _ (Behind w.log)).mpr ⟨hx, fun q _ => h.processes q⟩
  calls := by
    rw [hc, hlog]
    exact h.calls
  justified := by
    rw [hlog]
    exact h.justified

/-- A native call moves on. -/
theorem Inv.call (h : Inv w) (hf : w'.fminits = w.fminits) (hs : w'.server = w.server)
    (hc : w'.clients = Function.update w.clients i c) (hlog : w'.log = w.log) (hi : Accounted w.log i c) : Inv w' where
  exclusive := h.exclusive.congr hf hs
  unopened := by
    rw [hf, hs, hlog]
    exact h.unopened
  processes := by
    rw [hf, hlog]
    exact h.processes
  calls := by
    rw [hc, hlog]
    exact (Function.forall_update_iff _ (Accounted w.log)).mpr ⟨hi, fun j _ => h.calls j⟩
  justified := by
    rw [hlog]
    exact h.justified

theorem Inv.bind (h : Inv w) (hs : w.server = none) : Inv (setFminit pid .open { w with server := some pid }) where
  exclusive := h.exclusive.bind hs
  unopened := fun _ => h.unopened fun q hq => by
    rw [hs] at hq
    cases hq
  processes := (Function.forall_update_iff _ (Behind w.log)).mpr ⟨.of_none rfl, fun q _ => h.processes q⟩
  calls := h.calls
  justified := h.justified

/-- The one open of `fminit`. -/
theorem Inv.opens (h : Inv w) (hp : w.fminits pid = .open) :
    Inv (setFminit pid (.load_firmware w.files) (openDevice (.fminit pid) w)) := by
  have hs : w.server = some pid := h.exclusive.server hp rfl
  have hnone : ∀ q fd, .opened (.fminit q) fd ∉ w.log := by
    refine h.unopened fun q hq => ?_
    obtain rfl : pid = q := Option.some.inj (hs.symm.trans hq)
    exact hp
  constructor
  · exact h.exclusive.moves hp rfl rfl rfl
  · intro hall
    have hself := hall pid hs
    simp [setFminit] at hself
  · refine (Function.forall_update_iff _ (Behind (.opened (.fminit pid) w.files :: w.log))).mpr
      ⟨?_, fun q _ => (h.processes q).cons _⟩
    constructor
    · intro fd hfd
      obtain rfl : w.files = fd := Option.some.inj hfd
      exact List.mem_cons_self
    · intro fd conn hx
      rcases hx with hx | hx
      · cases hx
      · cases hx
  · intro i
    apply (h.calls i).cons
    intro he
    cases he
  · exact ⟨hnone, h.justified⟩

theorem Inv.refuse {attempt : Nat} (h : Inv w) (hi : w.clients i = .socket_local_client attempt) :
    Inv (refuse i attempt w) := by
  have hacc := h.calls i
  rw [hi] at hacc
  obtain ⟨hlt, hcount⟩ := hacc
  have hnext : (Entry.refused i :: w.log).count (.refused i) = attempt + 1 := by
    rw [List.count_cons_self, hcount]
  constructor
  · exact h.exclusive.congr rfl rfl
  · intro hall q fd hmem
    rcases List.mem_cons.mp hmem with he | hmem
    · cases he
    · exact h.unopened hall q fd hmem
  · exact fun q => (h.processes q).cons _
  · refine (Function.forall_update_iff _ (Accounted (.refused i :: w.log))).mpr ⟨?_, fun j hji => ?_⟩
    · by_cases hmore : attempt + 1 < 60
      · rw [if_pos hmore]
        exact ⟨hmore, hnext⟩
      · rw [if_neg hmore]
        exact hnext.trans (by omega)
    · exact (h.calls j).cons fun he => hji (Entry.refused.inj he).symm
  · exact h.justified

/-- `load_firmware` returns. -/
theorem Inv.loaded (h : Inv w) {fd : File} (hp : w.fminits pid = y) (hfd : y.radiofd = some fd)
    (hb : y.bound = true) : Inv (loaded pid fd w) := by
  have hnote : Inv (FmInit.note (.loaded pid) w) := h.note nofun nofun h.justified
  refine hnote.moves hp rfl rfl rfl rfl hb.symm nofun ⟨fun fd' hfd' => ?_, fun _ _ _ => ?_⟩
  · obtain rfl : fd = fd' := Option.some.inj hfd'
    exact List.mem_cons_of_mem _ ((h.processes pid).opened fd (hp ▸ hfd))
  · exact List.mem_cons_self

/-- A descriptor is sent, and waits at the client's end. -/
theorem Inv.sendmsg {fd : File} {conn : Nat} (h : Inv w) (hp : w.fminits pid = .send_fd fd conn) :
    Inv (sendmsg pid conn fd w) := by
  have hbehind := h.processes pid
  rw [hp] at hbehind
  have hnote : Inv (FmInit.note (.sent pid conn fd) w) :=
    h.note nofun nofun ⟨⟨hbehind.loaded fd conn (.inr rfl), hbehind.opened fd rfl⟩, h.justified⟩
  unfold FmInit.sendmsg
  dsimp only
  split
  · exact hnote.call rfl rfl rfl rfl ⟨pid, List.mem_cons_self⟩
  · exact hnote

/-! ## One step -/

theorem inv_fminit {r : Outcome} (h : Inv w) (hok : NoFailure w (.fminit pid r)) : Inv (fminit pid r w) := by
  have hbehind := h.processes pid
  unfold fminit
  rw [NoFailure] at hok
  cases hp : w.fminits pid with
  | absent | exited => exact h
  | property_get => cases r <;> exact h.moves hp rfl rfl rfl rfl rfl nofun (.of_none rfl)
  | socket_local_server =>
    dsimp only
    split
    · rename_i hc
      exact h.bind hc.2
    · exact h.moves hp rfl rfl rfl rfl rfl nofun (.of_none rfl)
  | «open» =>
    rw [hp] at hok
    obtain rfl : r = .ok := of_decide_eq_true hok
    exact h.opens hp
  | load_firmware fd =>
    rw [hp] at hbehind
    cases r <;> exact h.moves hp rfl rfl rfl rfl rfl nofun ⟨hbehind.opened, nofun⟩
  | fork fd =>
    rw [hp] at hok hbehind
    obtain rfl : r = .ok := of_decide_eq_true hok
    exact h.moves hp rfl rfl rfl rfl rfl nofun ⟨hbehind.opened, nofun⟩
  | waitpid fd =>
    rw [hp] at hbehind
    have hloaded := h.loaded hp rfl rfl
    cases r with
    | ok => exact h.moves hp rfl rfl rfl rfl rfl nofun ⟨hbehind.opened, nofun⟩
    | failed | interrupted | killed => exact hloaded
  | property_set fd =>
    have hset : ∀ init, Inv { w with hw_fm_init := init } := fun init =>
      ⟨h.exclusive, h.unopened, h.processes, h.calls, h.justified⟩
    cases r with
    | ok => exact (hset .one).loaded hp rfl rfl
    | failed | interrupted | killed => exact h.loaded hp rfl rfl
  | accept fd =>
    rw [hp] at hok hbehind
    obtain rfl | rfl : r = .ok ∨ r = .interrupted := by simpa [succeeds] using hok
    · cases hb : w.backlog with
      | nil => exact h
      | cons conn rest =>
        refine h.moves hp rfl rfl rfl rfl rfl nofun ⟨hbehind.opened, fun _ _ _ => ?_⟩
        exact hbehind.loaded fd conn (.inl rfl)
    · exact h
  | send_fd fd conn =>
    rw [hp] at hok hbehind
    obtain rfl : r = .ok := of_decide_eq_true hok
    have hsend := h.sendmsg hp
    obtain ⟨c, hc⟩ := sendmsg_frame pid conn fd w
    have hsame : (sendmsg pid conn fd w).fminits pid = .send_fd fd conn := by rw [hc]; exact hp
    have hafter := hsend.processes pid
    rw [hsame] at hafter
    refine hsend.moves hsame rfl rfl rfl rfl rfl nofun ⟨hafter.opened, fun _ _ _ => ?_⟩
    exact hafter.loaded fd conn (.inr rfl)

theorem inv_client (h : Inv w) (i : Nat) : Inv (client i .ok w) := by
  have hacc := h.calls i
  unfold client
  cases hi : w.clients i with
  | absent | returned => exact h
  | socket_local_client attempt =>
    dsimp only
    split
    · exact h.call rfl rfl rfl rfl trivial
    · exact h.refuse hi
  | recvmsg inbox =>
    rw [hi] at hacc
    cases inbox with
    | empty => exact h
    | message fd => exact h.call rfl rfl rfl rfl (.inl hacc)
    | closed => exact hacc.elim
  | «open» =>
    rw [hi] at hacc
    have hnote : Inv (FmInit.note (.opened (.client i) w.files) w) := h.note nofun nofun ⟨hacc, h.justified⟩
    exact hnote.call rfl rfl rfl rfl (.inr List.mem_cons_self)

theorem inv_start (h : Inv w) (pid : Nat) : Inv (start pid w) := by
  unfold start
  split
  · rename_i hp
    exact h.moves hp rfl rfl rfl rfl rfl nofun (.of_none rfl)
  · exact h

theorem inv_step (h : Inv w) {e : Event} (hok : NoFailure w e) : Inv (step w e) := by
  cases e with
  | start pid => exact inv_start h pid
  | onCreate pid =>
    rw [step]
    split
    · exact inv_start h pid
    · exact h
  | fminit pid r => exact inv_fminit h hok
  | fmAcquireFdNative i =>
    rw [step]
    split
    · rename_i hi
      have hacc := h.calls i
      rw [hi] at hacc
      exact h.call rfl rfl rfl rfl ⟨by decide, hacc⟩
    · exact h
  | client i r =>
    obtain rfl : r = .ok := hok
    exact inv_client h i
  | fm_dl i | script i r => exact hok.elim

/-! ## Runs -/

theorem Inv.handed (h : Inv w) : Handed w where
  daemon := h.justified.daemon
  opens := by
    intro opener fd hmem
    cases opener with
    | fminit pid => exact .inl ⟨pid, rfl⟩
    | client i => exact .inr ⟨i, rfl, h.justified.ownOpen hmem⟩
    | script i => exact absurd hmem (h.justified.not_script i fd)
  returned := by
    intro i fd hi
    have hacc := h.calls i
    rw [hi] at hacc
    rcases hacc with ⟨pid, hsent⟩ | hown
    · exact .inl (h.justified.duplicate hsent)
    · exact .inr (h.justified.ownOpen hown)

/-- Without sixty refusals of one call nobody opens the device but `fminit`. -/
theorem Inv.singleOpen (h : Inv w) (hr : ∀ i, w.log.count (.refused i) < 60) : SingleOpen w where
  opens := h.justified.opens hr
  duplicates := by
    intro i fd hi
    exact (h.handed.returned i fd hi).resolve_right fun hown => absurd hown.refused (Nat.not_le.mpr (hr i))

end

/-- In every run without failures `fminit` opens the device once at most, what it sends has been
opened and loaded before, and another open is that of a native call that has been refused sixty
times. As long as no call has been, the driver is opened once and all descriptors are of it. -/
theorem one_open_without_fallback (events : List Event) (h : Run.AllSteps step NoFailure boot events) :
    Run.AllStates step (fun w => Handed w ∧ ((∀ i, w.log.count (.refused i) < 60) → SingleOpen w)) boot events := by
  have hstep : ∀ w e, Inv w → NoFailure w e → Inv (step w e) := fun w e hw hok => inv_step hw hok
  have hinv : Run.AllStates step Inv boot events := Run.allStates_of_guarded hstep inv_boot h
  exact hinv.mono fun w hw => ⟨hw.handed, hw.singleOpen⟩

/-- A call finds the daemon at its second attempt, and gets its descriptor. -/
def handOut : List Event :=
  [.fmAcquireFdNative 0, .onCreate 0, .client 0 .ok, .fminit 0 .ok, .fminit 0 .ok, .client 0 .ok, .fminit 0 .ok,
    .fminit 0 .ok, .fminit 0 .ok, .fminit 0 .ok, .fminit 0 .ok, .fminit 0 .ok, .fminit 0 .ok, .client 0 .ok]

theorem hand_out_one_open : (Run.exec step boot handOut).clients 0 = .returned (some 0) ∧
    Run.AllStates step (fun w => Handed w ∧ ((∀ i, w.log.count (.refused i) < 60) → SingleOpen w)) boot handOut :=
  ⟨by decide, one_open_without_fallback handOut (by decide)⟩

/-- A call gives up before `fminit` has started. -/
def tooLate : List Event :=
  .fmAcquireFdNative 0 :: List.replicate 61 (.client 0 .ok) ++
    [.start 0, .fminit 0 .ok, .fminit 0 .ok, .fminit 0 .ok]

/-- The device is opened twice. -/
theorem fallback_opens_again :
    ¬ ∀ events, Run.AllSteps step NoFailure boot events → Run.AllStates step SingleOpen boot events := by
  intro h
  have hok : Run.AllSteps step NoFailure boot tooLate := by decide +kernel
  have htwice : (Run.exec step boot tooLate).log.countP isOpen = 2 := by decide +kernel
  have hone := (h tooLate hok).last.opens
  omega


end FmSingleOpen
