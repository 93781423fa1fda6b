import Y210.AudioInput
import Y210.AudioPostProc
import Y210.Typestate

/-!
# What a PCM driver is told

A descriptor of a PCM node is opened, configured, started and closed; a playback node is written to
from its configuration on, a recording node is read once it runs. A request that the driver refuses
is followed by the close; only recording asks first for the configuration that it would take.
-/
namespace AudioNodes

open AudioDrivers AudioHardware AudioStreams AudioRouting AudioCalls AudioInput Typestate

variable {p : Platform}

/-- How far a descriptor has come; a `failed` one can only be closed. -/
inductive Stage where
  | fresh | opened | asked | refused | memo | ready | running | failed | closed
  deriving DecidableEq, Repr

/-- The requests of playback. -/
def playing : Stage → PcmCall → Option Stage
  | .opened, .getConfig _ ok => some (if ok then .asked else .failed)
  | .asked, .setConfig _ _ ok => some (if ok then .ready else .failed)
  | .ready, .started _ ok => some (if ok then .running else .failed)
  | .ready, .wrote _ _ => some .ready
  | .running, .wrote _ _ => some .running
  | _, _ => none

/-- The requests of recording. -/
def recording : Stage → PcmCall → Option Stage
  | .opened, .getConfig _ ok => some (if ok then .asked else .failed)
  | .asked, .setConfig _ _ ok => some (if ok then .ready else .refused)
  | .asked, .setVoicememo _ _ ok => some (if ok then .memo else .failed)
  | .refused, .getConfig _ _ => some .failed
  | .memo, .getVoicememo _ ok => some (if ok then .ready else .failed)
  | .ready, .getConfig _ ok => some (if ok then .ready else .failed)
  | .ready, .started _ ok => some (if ok then .running else .failed)
  | .running, .read _ _ => some .running
  | _, _ => none

/-- A descriptor is opened once, takes the requests of its node, and is closed once. -/
def Stage.next (requests : Stage → PcmCall → Option Stage) : Stage → PcmCall → Option Stage
  | s, .opened _ => if s = .fresh then some .opened else none
  | s, .closed _ => if s = .fresh ∨ s = .closed then none else some .closed
  | s, c => requests s c

/-- -1 is no descriptor. -/
def descriptor : PcmCall → Option Int
  | .openFailed => none
  | .opened fd | .closed fd | .getConfig fd _ | .setConfig fd _ _ | .setVoicememo fd _ _ | .getVoicememo fd _
  | .started fd _ | .wrote fd _ | .read fd _ => if 0 ≤ fd then some fd else none

def pcmProtocol (requests : Stage → PcmCall → Option Stage) : Protocol PcmCall Int Stage :=
  ⟨descriptor, .fresh, Stage.next requests⟩

/-- Every descriptor got its calls in turn, and those to come got none. -/
structure Node (requests : Stage → PcmCall → Option Stage) (log : List PcmCall) : Prop where
  obeys : Obeys (pcmProtocol requests) log
  fresh : ∀ fd : Int, log.length ≤ fd → stage (pcmProtocol requests) log fd = some .fresh

/-! ## Calls on one descriptor -/

/-- Calls on the descriptor, each in turn, bring it to the stage. -/
structure Path (requests : Stage → PcmCall → Option Stage) (fd : Int) (log log' : List PcmCall)
    (s : Stage) : Prop where
  moves : Moves (pcmProtocol requests) fd log log' s
  longer : log.length ≤ log'.length
  bounds : 0 ≤ fd ∧ fd < log'.length

section
variable {requests : Stage → PcmCall → Option Stage} {log log' : List PcmCall} {fd : Int} {s s' : Stage}
  {c : PcmCall}

theorem node_nil : Node requests [] := ⟨obeys_nil (pcmProtocol requests), fun _ _ => rfl⟩

/-- A descriptor that is not fresh is older than the log is long. -/
theorem Node.lt_length (h : Node requests log) (hs : stage (pcmProtocol requests) log fd = some s)
    (hne : s ≠ .fresh) : fd < log.length := by
  by_contra hle
  have hfresh := h.fresh fd (by omega)
  rw [hs] at hfresh
  exact hne (Option.some.inj hfresh)

theorem Path.refl (h : Node requests log) (hfd : 0 ≤ fd)
    (hs : stage (pcmProtocol requests) log fd = some s) (hne : s ≠ .fresh) : Path requests fd log log s :=
  ⟨.refl h.obeys hs, le_rfl, hfd, h.lt_length hs hne⟩

theorem Path.call (h : Path requests fd log log' s) (hc : descriptor c = if 0 ≤ fd then some fd else none)
    (hn : s.next requests c = some s') : Path requests fd log (c :: log') s' := by
  obtain ⟨hmoves, hlonger, hfd, hlt⟩ := h
  rw [if_pos hfd] at hc
  refine ⟨hmoves.event hc hn, ?_, hfd, ?_⟩
  · rw [List.length_cons]
    omega
  · rw [List.length_cons]
    omega

theorem Path.close (h : Path requests fd log log' s) (hs : s ≠ .fresh ∧ s ≠ .closed) :
    Path requests fd log (.closed fd :: log') .closed := by
  refine h.call rfl ?_
  rw [Stage.next, if_neg]
  exact not_or.mpr hs

theorem Path.node (h : Path requests fd log log' s) (hn : Node requests log) : Node requests log' := by
  obtain ⟨hmoves, hlonger, hfd, hlt⟩ := h
  refine ⟨hmoves.obeys, fun i hi => ?_⟩
  rw [hmoves.others i (by omega)]
  exact hn.fresh i (by omega)

/-- The next descriptor. -/
theorem path_opened (h : Node requests log) :
    Path requests log.length log (.opened log.length :: log) .opened := by
  have hnew : (0 : Int) ≤ log.length := Int.natCast_nonneg _
  have hitem : descriptor (.opened (log.length : Int)) = some (log.length : Int) := by
    rw [descriptor, if_pos hnew]
  refine ⟨(Moves.refl h.obeys (h.fresh _ le_rfl)).event hitem rfl, ?_, hnew, ?_⟩
  · simp
  · rw [List.length_cons]
    omega

/-- A call on no descriptor. -/
theorem node_aside (hc : descriptor c = none) (h : Node requests log) : Node requests (c :: log) := by
  refine ⟨h.obeys.aside hc, fun i hi => ?_⟩
  rw [stage_cons_aside hc]
  rw [List.length_cons] at hi
  exact h.fresh i (by omega)

end

/-! ## Playback -/

/-- A stream in standby has no descriptor; another one has a configured one, started after two buffers. -/
def FitsOut (o : AudioStreamOut) (log : List PcmCall) : Prop :=
  if o.mStandby then o.mFd = -1
  else 0 ≤ o.mFd ∧ stage (pcmProtocol playing) log o.mFd = some (if o.mStartCount = 0 then .running else .ready)

/-- The playback node and its stream: a descriptor that was opened and is not the stream's has been
closed. -/
structure Plays (out : Option AudioStreamOut) (log : List PcmCall) : Prop where
  node : Node playing log
  fits : ∀ o ∈ out, FitsOut o log
  done : ∀ fd : Int, 0 ≤ fd → (∀ o ∈ out, o.mFd ≠ fd) →
    stage (pcmProtocol playing) log fd = some .fresh ∨ stage (pcmProtocol playing) log fd = some .closed

section
variable {o o' : AudioStreamOut} {out out' : Option AudioStreamOut} {log log' : List PcmCall} {w : World} {s : Stage}
  {fd : Int} {c : PcmCall}

theorem fitsOut_standby (hb : o.mStandby = true) : FitsOut o log ↔ o.mFd = -1 := by simp [FitsOut, hb]

theorem fitsOut_open (hb : o.mStandby = false) : FitsOut o log ↔ 0 ≤ o.mFd ∧
    stage (pcmProtocol playing) log o.mFd = some (if o.mStartCount = 0 then .running else .ready) := by
  simp [FitsOut, hb]

/-- The stream out of standby, as the start of a path. -/
theorem Plays.path (h : Plays (some o) log) (hb : o.mStandby = false) :
    Path playing o.mFd log log (if o.mStartCount = 0 then .running else .ready) := by
  obtain ⟨hfd, hs⟩ := (fitsOut_open hb).mp (h.fits o rfl)
  refine .refl h.node hfd hs ?_
  split <;> decide

theorem own_self : ∀ q ∈ some o, q.mFd = o.mFd ∨ q.mFd = -1 := by
  intro q hq
  obtain rfl := Option.some.inj hq
  exact .inl rfl

theorem idle_some (hb : o.mStandby = true) (hfd : o.mFd = -1) :
    ∀ q ∈ some o, q.mStandby = true ∧ q.mFd = -1 := by
  intro q hq
  obtain rfl := Option.some.inj hq
  exact ⟨hb, hfd⟩

/-- Calls on a descriptor that no other stream has; at their end it is closed, or the stream's. -/
theorem Plays.of_path (h : Plays out log) (hp : Path playing fd log log' s)
    (hown : ∀ o ∈ out, o.mFd = fd ∨ o.mFd = -1) (hf : ∀ o ∈ out', FitsOut o log')
    (hend : s = .closed ∨ ∃ o ∈ out', o.mFd = fd) : Plays out' log' := by
  refine ⟨hp.node h.node, hf, fun i hi hne => ?_⟩
  by_cases heq : i = fd
  · subst heq
    rcases hend with hend | ⟨o, ho, hfd⟩
    · subst hend
      exact .inr hp.moves.stage
    · exact absurd hfd (hne o ho)
  · rw [hp.moves.others i heq]
    refine h.done i hi fun o ho hfd => ?_
    rcases hown o ho with hown | hown <;> omega

/-- Such calls that leave the stream out of standby. -/
theorem Plays.running (h : Plays out log) (hp : Path playing fd log log' s)
    (hown : ∀ o ∈ out, o.mFd = fd ∨ o.mFd = -1) (hfd : o.mFd = fd) (hb : o.mStandby = false)
    (hs : s = if o.mStartCount = 0 then .running else .ready) : Plays (some o) log' := by
  subst hfd
  refine h.of_path hp hown (fun o' ho' => ?_) (.inr ⟨o, rfl, rfl⟩)
  obtain rfl := Option.some.inj ho'
  refine (fitsOut_open hb).mpr ⟨hp.bounds.1, ?_⟩
  rw [← hs]
  exact hp.moves.stage

/-- Such calls that end with the close. -/
theorem Plays.stopped (h : Plays out log) (hp : Path playing fd log log' s) (hs : s ≠ .fresh ∧ s ≠ .closed)
    (hown : ∀ o ∈ out, o.mFd = fd ∨ o.mFd = -1) (hidle : ∀ o ∈ out', o.mStandby = true ∧ o.mFd = -1) :
    Plays out' (.closed fd :: log') :=
  h.of_path (hp.close hs) hown (fun o ho => (fitsOut_standby (hidle o ho).1).mpr (hidle o ho).2) (.inl rfl)

/-- A stream without a descriptor goes, or comes. -/
theorem Plays.idle (h : Plays out log) (hidle : ∀ o ∈ out, o.mFd = -1)
    (hidle' : ∀ o ∈ out', o.mStandby = true ∧ o.mFd = -1) : Plays out' log := by
  refine ⟨h.node, fun o ho => (fitsOut_standby (hidle' o ho).1).mpr (hidle' o ho).2, fun fd hfd _ => ?_⟩
  refine h.done fd hfd fun o ho heq => ?_
  rw [hidle o ho] at heq
  omega

/-- A call on no descriptor. -/
theorem Plays.aside (h : Plays out log) (hc : descriptor c = none) : Plays out (c :: log) := by
  refine ⟨node_aside hc h.node, fun o ho => ?_, fun fd hfd hne => ?_⟩
  · have hfits := h.fits o ho
    unfold FitsOut at hfits ⊢
    rw [stage_cons_aside hc]
    exact hfits
  · rw [stage_cons_aside hc]
    exact h.done fd hfd hne

/-- The members besides the descriptor, the start count and the standby flag may change. -/
theorem Plays.members (h : Plays (some o) log) (hfd : o'.mFd = o.mFd) (hc : o'.mStartCount = o.mStartCount)
    (hb : o'.mStandby = o.mStandby) : Plays (some o') log := by
  refine ⟨h.node, fun q hq => ?_, fun fd hn hne => h.done fd hn fun q hq => ?_⟩
  · obtain rfl := Option.some.inj hq
    unfold FitsOut
    rw [hfd, hc, hb]
    exact h.fits o rfl
  · obtain rfl := Option.some.inj hq
    rw [← hfd]
    exact hne o' rfl

theorem Plays.standby (h : Plays (some o) log) (hb : o.mStandby = true) : o.mFd = -1 :=
  (fitsOut_standby hb).mp (h.fits o rfl)

theorem openPcmOut_plays (h : Plays (some o) log) (hb : o.mStandby = true) :
    Plays (some (openPcmOut p o log).1) (openPcmOut p o log).2.1 ∧
      (0 ≤ (openPcmOut p o log).2.2 → (openPcmOut p o log).1.mStandby = false) := by
  have hidle := h.standby hb
  have hown : ∀ q ∈ some o, q.mFd = log.length ∨ q.mFd = -1 := by
    intro q hq
    obtain rfl := Option.some.inj hq
    exact .inr hidle
  have hgone := idle_some (o := { o with mFd := -1 }) hb rfl
  have hget := fun ok => (path_opened h.node).call (c := .getConfig log.length ok) rfl rfl
  have hset := fun ok => (hget true).call (c := .setConfig log.length outConfig ok) rfl rfl
  have hneg : ¬ 0 ≤ (-1 : Status) := by decide
  unfold openPcmOut
  simp only [List.length_cons]
  by_cases h0 : p.pcmOutOk log.length = true
  · by_cases h1 : p.pcmOutOk (log.length + 1) = true
    · by_cases h2 : p.pcmOutOk (log.length + 1 + 1) = true
      · simp only [h0, h1, h2, Bool.true_eq_false, if_false]
        exact ⟨h.running (hset true) hown rfl rfl rfl, fun _ => trivial⟩
      · simp only [h0, h1, h2, Bool.true_eq_false, if_false, if_true]
        exact ⟨h.stopped (hset false) (by decide) hown hgone, fun hok => absurd hok hneg⟩
    · simp only [h0, h1, Bool.true_eq_false, if_false, if_true]
      exact ⟨h.stopped (hget false) (by decide) hown hgone, fun hok => absurd hok hneg⟩
  · simp only [h0, hidle, closeFd, if_true]
    exact ⟨(h.aside rfl).members hidle.symm rfl rfl, fun hok => absurd hok hneg⟩

/-- The loop writes to its descriptor. -/
theorem path_writeLoop {fd : Int} {s : Stage} (hs : ∀ bytes, s.next playing (.wrote fd bytes) = some s)
    (answers : List WriteAnswer) (bytes : List (BitVec 8)) (retries : Nat) {log' : List PcmCall}
    (h : Path playing fd log log' s) : Path playing fd log (writeLoop fd answers bytes retries log').2.1 s := by
  fun_induction writeLoop fd answers bytes retries log' with
  | case3 n rest b bytes retries log' ih => exact ih (h.call rfl (hs _))
  | case4 rest b bytes retries log' ih => exact ih h
  | _ => exact h

/-- The last block of a `write`. -/
theorem plays_startPlayback (n : Nat) (ho : w.hw.mOutput = some o) (hb : o.mStandby = false)
    (h : Plays (some o) w.pcmOut) :
    Plays (startPlayback p n o w).1.hw.mOutput (startPlayback p n o w).1.pcmOut := by
  have hpath := h.path hb
  unfold startPlayback
  split
  · rw [ho]
    exact h
  · rename_i hne
    rw [if_neg hne] at hpath
    split
    · rename_i hmore
      exact h.running hpath own_self rfl hb (if_neg hmore).symm
    · have hstart := fun ok => hpath.call (c := .started o.mFd ok) rfl rfl
      dsimp only
      split
      · rename_i hok
        rw [postproc_hw, postproc_pcmOut, hok]
        exact h.running (hstart true) own_self rfl hb rfl
      · rename_i hok
        rw [Bool.not_eq_true] at hok
        rw [postproc_hw, postproc_pcmOut, hok]
        change Plays _ (closeFd o.mFd (.started o.mFd false :: w.pcmOut))
        rw [closeFd, if_pos hpath.bounds.1]
        exact h.stopped (hstart false) (by decide) own_self (idle_some rfl rfl)

theorem plays_playBuffer (buffer : List (BitVec 8)) (answers : List WriteAnswer) (hb : o.mStandby = false)
    (h : Plays (some o) w.pcmOut) :
    Plays (playBuffer p buffer answers o w).1.hw.mOutput (playBuffer p buffer answers o w).1.pcmOut := by
  have hpath := h.path hb
  have hwrites : ∀ bytes, (if o.mStartCount = 0 then Stage.running else .ready).next playing (.wrote o.mFd bytes) =
      some (if o.mStartCount = 0 then .running else .ready) := by
    intro bytes
    split <;> rfl
  have hloop := path_writeLoop hwrites answers buffer o.mRetryCount hpath
  unfold playBuffer
  rw [if_neg fun hneg => absurd hneg.1 (not_lt.mpr hpath.bounds.1)]
  generalize writeLoop o.mFd answers buffer o.mRetryCount w.pcmOut = r at hloop ⊢
  obtain ⟨retries, log, fin⟩ := r
  have hplays : Plays (some { o with mRetryCount := retries }) log :=
    h.running hloop own_self rfl hb rfl
  cases fin with
  | blocked => exact hplays
  | failed => exact hplays
  | done => exact plays_startPlayback buffer.length (w := setOut _ _) rfl hb hplays

theorem plays_write (buffer : List (BitVec 8)) (answers : List WriteAnswer) (h : Plays w.hw.mOutput w.pcmOut) :
    Plays (write p buffer answers w).1.hw.mOutput (write p buffer answers w).1.pcmOut := by
  unfold write
  cases ho : w.hw.mOutput with
  | none => exact h
  | some o =>
    rw [ho] at h
    dsimp only
    cases hb : o.mStandby with
    | false => exact plays_playBuffer buffer answers hb h
    | true =>
      obtain ⟨hopen, hready⟩ := openPcmOut_plays (p := p) h hb
      simp only [if_true]
      generalize openPcmOut p o w.pcmOut = r at hopen hready ⊢
      obtain ⟨o', log, status⟩ := r
      dsimp only at hopen hready ⊢
      split
      · exact hopen
      · rename_i hok
        exact plays_playBuffer buffer answers (w := setOut o' { w with pcmOut := log }) (hready (not_lt.mp hok)) hopen

theorem plays_outStandby (h : Plays w.hw.mOutput w.pcmOut) :
    Plays (outStandby p w).hw.mOutput (outStandby p w).pcmOut := by
  unfold outStandby
  cases ho : w.hw.mOutput with
  | none =>
    dsimp only
    rw [ho] at h ⊢
    exact h
  | some o =>
    rw [ho] at h
    dsimp only
    split
    · rename_i hopen
      simp only [setOut, postproc_pcmOut]
      exact h.stopped (h.path hopen.1) (by split <;> decide) own_self (idle_some rfl rfl)
    · rename_i hclosed
      have hb : o.mStandby = true := by
        by_contra hb
        rw [Bool.not_eq_true] at hb
        exact hclosed ⟨hb, (h.path hb).bounds.1⟩
      exact h.members rfl rfl hb.symm

theorem plays_closeOutputStream (h : Plays w.hw.mOutput w.pcmOut) :
    Plays (closeOutputStream w).hw.mOutput (closeOutputStream w).pcmOut := by
  unfold closeOutputStream
  cases ho : w.hw.mOutput with
  | none =>
    dsimp only
    rw [ho] at h ⊢
    exact h
  | some o =>
    rw [ho] at h
    dsimp only
    cases hb : o.mStandby with
    | false =>
      have hpath := h.path hb
      rw [closeFd, if_pos hpath.bounds.1]
      exact h.stopped hpath (by split <;> decide) own_self fun q hq => by cases hq
    | true =>
      have hidle := h.standby hb
      rw [closeFd, hidle, if_neg (by decide)]
      exact h.idle (fun q hq => Option.some.inj hq ▸ hidle) fun q hq => by cases hq

theorem plays_openOutputStream (devices : Devices) (a : OutArgs) (h : Plays w.hw.mOutput w.pcmOut) :
    Plays (openOutputStream devices a w).1.hw.mOutput (openOutputStream devices a w).1.pcmOut := by
  unfold openOutputStream
  split
  · exact h
  · rename_i hnone
    have hnew := AudioPostProc.outSet_new devices a
    dsimp only
    split
    · exact h.idle (fun q hq => absurd (Option.isSome_of_mem hq) hnone) (idle_some hnew.2 hnew.1)
    · exact h

theorem plays_of_eq {w' : World} (h : Plays w.hw.mOutput w.pcmOut) (hlog : w'.pcmOut = w.pcmOut)
    (hout : w'.hw.mOutput = w.hw.mOutput) : Plays w'.hw.mOutput w'.pcmOut := by
  rw [hlog, hout]
  exact h

theorem plays_call (w : World) (c : Call) (h : Plays w.hw.mOutput w.pcmOut) :
    Plays (call p w c).hw.mOutput (call p w c).pcmOut := by
  cases c with
  | write buffer answers => exact plays_write buffer answers h
  | outStandby => exact plays_outStandby h
  | openOutputStream devices a => exact plays_openOutputStream devices a h
  | closeOutputStream => exact plays_closeOutputStream h
  | doRouting input => exact plays_of_eq h (doRouting_pcmOut input w) (doRouting_mOutput input w)
  | reroute input => exact plays_of_eq (w := w) h (doRouting_pcmOut input _) (doRouting_mOutput input _)
  | setFm on off =>
    obtain ⟨log, fd, he⟩ := switchFm_frame p on off w
    rw [call, he]
    exact plays_of_eq (w := w) h (doRouting_pcmOut none _) (doRouting_mOutput none _)
  | setMode mode =>
    have hsame := AudioPostProc.sameFilters_setMode (p := p) mode w
    exact plays_of_eq h hsame.pcmOut hsame.mOutput
  | setMicMute state =>
    have hsame := AudioPostProc.sameFilters_setMicMute (p := p) state w
    exact plays_of_eq h hsame.pcmOut hsame.mOutput
  | setVoiceVolume v =>
    have hsame := AudioPostProc.sameFilters_set_volume_rpc (p := p) (p.dev .current) sndMethodVoice
      (voiceLevel p w.hw v) w
    exact plays_of_eq h hsame.pcmOut hsame.mOutput
  | setFmVolume v =>
    have hsame := AudioPostProc.sameFilters_set_volume_rpc (p := p) (p.dev .current) sndMethodVoice
      (fmLevel p v) { w with hw := { w.hw with mFmVolume := fmLevel p v } }
    exact plays_of_eq (w := w) h hsame.pcmOut hsame.mOutput
  | setSettings | record | setProperty => exact plays_of_eq (w := w) h rfl rfl
  | setOutDevices devices =>
    rw [call, setOutDevices]
    cases ho : w.hw.mOutput with
    | none =>
      dsimp only
      rw [ho] at h ⊢
      exact h
    | some o =>
      rw [ho] at h
      exact h.members rfl rfl rfl

end

/-! ## Runs -/

theorem plays_boot : Plays (boot p).hw.mOutput (boot p).pcmOut :=
  ⟨node_nil, fun o ho => (by cases ho), fun _ _ _ => .inl rfl⟩

end AudioNodes
