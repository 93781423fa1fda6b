import Y210.AudioDescriptors
import Y210.AudioPostProc

/-!
# The descriptor of the output stream

`write` opens the node, fills it and starts it; `standby`, the destructor and every error
behind the opening close it. The members of the stream always agree with the node's log.
-/
namespace AudioPlayback

open AudioDrivers AudioHardware AudioStreams AudioRouting AudioCalls AudioDescriptors
open AudioPostProc (consumed writeLoop_done)

variable {p : Platform}

/-- The descriptor that a call of `write` hands its whole buffer to. -/
def handedTo (p : Platform) (w : World) : Op → Option Int
  | .write buffer answers =>
    match w.hw.mOutput with
    | none => none
    | some out =>
      let r := if out.mStandby then openPcmOut p out w.pcmOut else (out, w.pcmOut, noError)
      if 0 ≤ r.2.2 ∧ 0 ≤ r.1.mFd ∧ consumed answers buffer.length = true then some r.1.mFd else none
  | _ => none

/-- A world, and the descriptors that calls of `write` handed a whole buffer to so far. -/
structure Session where
  world : World
  handed : List Int

def advance (p : Platform) (t : Session) (op : Op) : Session :=
  ⟨step p t.world op, (handedTo p t.world op).toList ++ t.handed⟩

def isStart (fd : Int) : PcmCall → Bool
  | .started fd' _ => fd' = fd
  | _ => false

/-- How often `AUDIO_START` was tried on a descriptor. -/
def starts (log : List PcmCall) (fd : Int) : Nat := log.countP (isStart fd)

/-- The stream is out of standby exactly when its descriptor is open. Whatever was opened
and is not the open descriptor of the stream has been closed once, calls go to open
descriptors only, and none is started twice. -/
structure Sound (t : Session) : Prop where
  standby : ∀ out ∈ t.world.hw.mOutput,
    out.mStandby = false ↔ Ledger.Live pcmEvents t.world.pcmOut out.mFd
  closed : ∀ fd, Ledger.acquired pcmEvents t.world.pcmOut fd ≠ 0 →
    (∀ out ∈ t.world.hw.mOutput, out.mStandby = false → out.mFd ≠ fd) →
      Ledger.acquired pcmEvents t.world.pcmOut fd = 1 ∧ Ledger.released pcmEvents t.world.pcmOut fd = 1
  used : Ledger.UsesLive pcmEvents t.world.pcmOut
  started : ∀ fd, starts t.world.pcmOut fd ≤ 1

/-- A step that starts a descriptor has filled it, and no `write` finds its descriptor invalid. -/
structure Filled (p : Platform) (t : Session) (op : Op) : Prop where
  starts : ∀ fd, starts (step p t.world op).pcmOut fd ≠ starts t.world.pcmOut fd →
    (advance p t op).handed.count fd = audioHwNumOutBuf
  valid : ∀ buffer answers, op = .write buffer answers → (write p buffer answers t.world).2 ≠ some noInit

/-! ## The invariant -/

/-- The descriptor of a stream out of standby. -/
def heldBy (out : Option AudioStreamOut) (fd : Int) : Prop := ∃ o ∈ out, o.mStandby = false ∧ o.mFd = fd

/-- The stream has `mStartCount` buffers to go, or was started. -/
def Counted (o : AudioStreamOut) (log : List PcmCall) (handed : List Int) : Prop :=
  o.mStartCount ≠ 0 ∧ o.mStartCount + handed.count o.mFd = audioHwNumOutBuf ∧ starts log o.mFd = 0 ∨
    o.mStartCount = 0 ∧ starts log o.mFd = 1

structure OutputInv (out : Option AudioStreamOut) (log : List PcmCall) (handed : List Int) : Prop where
  node : NodeLog (heldBy out) log
  idle : ∀ o ∈ out, o.mStandby = true → o.mFd = -1
  counted : ∀ o ∈ out, o.mStandby = false → Counted o log handed
  once : ∀ fd, starts log fd ≤ 1
  unused : ∀ fd, Ledger.acquired pcmEvents log fd = 0 → starts log fd = 0 ∧ handed.count fd = 0

section
variable {out : Option AudioStreamOut} {o : AudioStreamOut} {log : List PcmCall} {handed : List Int}

theorem heldBy_some (o : AudioStreamOut) (fd : Int) : heldBy (some o) fd ↔ o.mStandby = false ∧ o.mFd = fd := by
  simp [heldBy]

theorem outputInv_nil : OutputInv none [] [] := by
  constructor
  · exact NodeLog.nil.congr fun fd => by simp [heldBy]
  · intro o ho
    cases ho
  · intro o ho
    cases ho
  · intro fd
    exact Nat.zero_le 1
  · intro fd _
    exact ⟨rfl, rfl⟩

/-- The members that no law mentions may change. -/
theorem OutputInv.congr {o' : AudioStreamOut} (h : OutputInv (some o) log handed) (hfd : o'.mFd = o.mFd)
    (hs : o'.mStandby = o.mStandby) (hc : o'.mStartCount = o.mStartCount) : OutputInv (some o') log handed := by
  constructor
  · refine h.node.congr fun fd => ?_
    rw [heldBy_some, heldBy_some, hfd, hs]
  · intro q hq hb
    obtain rfl := Option.some.inj hq
    rw [hfd]
    exact h.idle o rfl (hs.symm.trans hb)
  · intro q hq hb
    obtain rfl := Option.some.inj hq
    rw [Counted, hfd, hc]
    exact h.counted o rfl (hs.symm.trans hb)
  · exact h.once
  · exact h.unused

/-- A call that neither opens, closes nor starts. -/
theorem OutputInv.use (h : OutputInv out log handed) {c : PcmCall} (ha : pcmEvents.acquires c = none)
    (hr : pcmEvents.releases c = none) (hu : ∀ fd ∈ pcmEvents.uses c, heldBy out fd)
    (hs : ∀ fd, isStart fd c = false) : OutputInv out (c :: log) handed := by
  have hstarts : ∀ fd, starts (c :: log) fd = starts log fd := by
    intro fd
    simp [starts, hs fd]
  constructor
  · exact h.node.use ha hr hu
  · exact h.idle
  · intro o ho hb
    rw [Counted, hstarts]
    exact h.counted o ho hb
  · intro fd
    rw [hstarts]
    exact h.once fd
  · intro fd hfd
    rw [hstarts]
    exact h.unused fd (by simpa [ha] using hfd)

theorem OutputInv.fd_nonneg (h : OutputInv (some o) log handed) (hb : o.mStandby = false) : 0 ≤ o.mFd :=
  (h.node.held_bounds ((heldBy_some o o.mFd).mpr ⟨hb, rfl⟩)).1

/-- Closing the descriptor of a stream leaves `out'`, which holds none. -/
theorem OutputInv.close (h : OutputInv (some o) log handed) (hb : o.mStandby = false)
    {out' : Option AudioStreamOut} (hout : ∀ o' ∈ out', o'.mStandby = true ∧ o'.mFd = -1) :
    OutputInv out' (.closed o.mFd :: log) handed := by
  constructor
  · refine (h.node.closed ((heldBy_some o o.mFd).mpr ⟨hb, rfl⟩)).congr fun fd => ?_
    rw [heldBy_some]
    constructor
    · rintro ⟨o', ho', hb', -⟩
      rw [(hout o' ho').1] at hb'
      cases hb'
    · rintro ⟨⟨-, he⟩, hne⟩
      exact absurd he.symm hne
  · intro o' ho' _
    exact (hout o' ho').2
  · intro o' ho' hb'
    rw [(hout o' ho').1] at hb'
    cases hb'
  · exact h.once
  · intro fd hfd
    exact h.unused fd (by simpa [pcmEvents] using hfd)

/-- A stream in standby holds no descriptor, nor does a stream that takes its place. -/
theorem OutputInv.swap (h : OutputInv out log handed) (hb : ∀ o ∈ out, o.mStandby = true)
    {out' : Option AudioStreamOut} (hout : ∀ o' ∈ out', o'.mStandby = true ∧ o'.mFd = -1) :
    OutputInv out' log handed := by
  constructor
  · refine h.node.congr fun fd => ?_
    constructor
    · rintro ⟨o', ho', hb', -⟩
      rw [(hout o' ho').1] at hb'
      cases hb'
    · rintro ⟨o, ho, hb', -⟩
      rw [hb o ho] at hb'
      cases hb'
  · intro o' ho' _
    exact (hout o' ho').2
  · intro o' ho' hb'
    rw [(hout o' ho').1] at hb'
    cases hb'
  · exact h.once
  · exact h.unused

/-- A whole buffer has been handed to the descriptor. -/
theorem OutputInv.hand (h : OutputInv (some o) log handed) (hb : o.mStandby = false) {count : Nat}
    (hc : Counted { o with mStartCount := count } log (o.mFd :: handed)) :
    OutputInv (some { o with mStartCount := count }) log (o.mFd :: handed) := by
  have hlive := (h.node.inOrder.live o.mFd ((heldBy_some o o.mFd).mpr ⟨hb, rfl⟩)).1
  constructor
  · refine h.node.congr fun fd => ?_
    rw [heldBy_some, heldBy_some]
  · intro q hq hq'
    obtain rfl := Option.some.inj hq
    exact absurd (hb.symm.trans hq') (by decide)
  · intro q hq _
    obtain rfl := Option.some.inj hq
    exact hc
  · exact h.once
  · intro fd hfd
    have hne : o.mFd ≠ fd := by
      rintro rfl
      omega
    have hun := h.unused fd hfd
    exact ⟨hun.1, by rw [List.count_cons_of_ne hne]; exact hun.2⟩

theorem starts_started (log : List PcmCall) (fd fd' : Int) (ok : Bool) :
    starts (.started fd ok :: log) fd' = starts log fd' + if fd = fd' then 1 else 0 := by
  simp [starts, List.countP_cons, isStart]

/-- The start behind the last missing buffer. -/
theorem OutputInv.start (h : OutputInv (some o) log handed) (hb : o.mStandby = false) (h1 : o.mStartCount = 1)
    (ok : Bool) : OutputInv (some { o with mStartCount := 0 }) (.started o.mFd ok :: log) (o.mFd :: handed) := by
  have hheld := (heldBy_some o o.mFd).mpr ⟨hb, rfl⟩
  have hlive := (h.node.inOrder.live o.mFd hheld).1
  have hzero : starts log o.mFd = 0 := by
    rcases h.counted o rfl hb with ⟨-, -, hs⟩ | ⟨h0, -⟩
    · exact hs
    · omega
  constructor
  · refine (h.node.use rfl rfl fun fd hfd => ?_).congr fun fd => ?_
    · obtain rfl := Option.some.inj hfd
      exact hheld
    · rw [heldBy_some, heldBy_some]
  · intro q hq hq'
    obtain rfl := Option.some.inj hq
    exact absurd (hb.symm.trans hq') (by decide)
  · intro q hq _
    obtain rfl := Option.some.inj hq
    right
    refine ⟨rfl, ?_⟩
    rw [starts_started, if_pos rfl, hzero]
  · intro fd
    rw [starts_started]
    split
    · rename_i he
      rw [← he, hzero]
    · exact h.once fd
  · intro fd hfd
    have hacq : Ledger.acquired pcmEvents log fd = 0 := by simpa [pcmEvents] using hfd
    have hne : o.mFd ≠ fd := by
      rintro rfl
      omega
    have hun := h.unused fd hacq
    rw [starts_started, if_neg hne, List.count_cons_of_ne hne]
    exact hun

/-! ## The stages of a write -/

/-- The opening of the node for a stream in standby. -/
theorem outputInv_open (h : OutputInv (some o) log handed) (hb : o.mStandby = true) :
    OutputInv (some (openPcmOut p o log).1) (openPcmOut p o log).2.1 handed ∧
      (∀ fd, starts (openPcmOut p o log).2.1 fd = starts log fd) ∧
      ((openPcmOut p o log).2.2 = -1 ∨
        (openPcmOut p o log).2.2 = noError ∧ (openPcmOut p o log).1.mStandby = false) := by
  have hidle := h.idle o rfl hb
  have hnew : OutputInv (some { o with mFd := log.length, mStartCount := audioHwNumOutBuf, mStandby := false })
      (.opened log.length :: log) handed := by
    have hun := h.unused log.length (h.node.fresh _ (.inr le_rfl))
    constructor
    · refine h.node.opened.congr fun fd => ?_
      rw [heldBy_some, heldBy_some, hb]
      simp [eq_comm]
    · intro q hq hq'
      obtain rfl := Option.some.inj hq
      cases hq'
    · intro q hq _
      obtain rfl := Option.some.inj hq
      left
      exact ⟨Nat.succ_ne_zero 1, by simp [hun.2], hun.1⟩
    · exact h.once
    · intro fd hfd
      refine h.unused fd ?_
      rw [Ledger.acquired_cons] at hfd
      omega
  have huse : ∀ {calls : List PcmCall}, OutputInv (some { o with
      mFd := log.length, mStartCount := audioHwNumOutBuf, mStandby := false }) calls handed →
      OutputInv (some { o with mFd := -1 }) (.closed log.length :: calls) handed := by
    intro calls hcalls
    refine hcalls.close rfl fun o' ho' => ?_
    obtain rfl := Option.some.inj ho'
    exact ⟨hb, rfl⟩
  have hheld : ∀ fd ∈ some (log.length : Int), heldBy (some { o with
      mFd := log.length, mStartCount := audioHwNumOutBuf, mStandby := false }) fd := by
    intro fd hfd
    obtain rfl := Option.some.inj hfd
    exact (heldBy_some _ _).mpr ⟨rfl, rfl⟩
  have hget := fun ok => hnew.use (c := .getConfig log.length ok) rfl rfl hheld fun _ => rfl
  have hset := fun ok ok' => (hget ok).use (c := .setConfig log.length outConfig ok') rfl rfl hheld fun _ => rfl
  unfold openPcmOut
  dsimp only
  split
  · have hnone : closeFd o.mFd (.openFailed :: log) = .openFailed :: log := by
      rw [hidle]
      rfl
    rw [hnone]
    refine ⟨?_, fun _ => rfl, .inl rfl⟩
    exact (h.use rfl rfl (fun fd hfd => by cases hfd) fun _ => rfl).congr hidle.symm rfl rfl
  · split
    · exact ⟨huse (hget _), fun _ => rfl, .inl rfl⟩
    · split
      · exact ⟨huse (hset _ _), fun _ => rfl, .inl rfl⟩
      · exact ⟨hset _ _, fun _ => rfl, .inr ⟨rfl, rfl⟩⟩

/-- The loop hands bytes to the descriptor and starts nothing. -/
theorem outputInv_writeLoop {fd : Int} (hfd : heldBy out fd) (answers : List WriteAnswer)
    (bytes : List (BitVec 8)) (retries : Nat) {log : List PcmCall} (h : OutputInv out log handed) :
    OutputInv out (writeLoop fd answers bytes retries log).2.1 handed ∧
      ∀ fd', starts (writeLoop fd answers bytes retries log).2.1 fd' = starts log fd' := by
  fun_induction writeLoop fd answers bytes retries log with
  | case3 n rest b bytes retries log ih =>
    refine ih (h.use rfl rfl (fun fd' hu => ?_) fun _ => rfl)
    obtain rfl := Option.some.inj hu
    exact hfd
  | case4 rest b bytes retries log ih => exact ih h
  | _ => exact ⟨h, fun _ => rfl⟩

/-- The end of a `write` whose buffer was taken. -/
theorem outputInv_startPlayback (n : Nat) {w : World} (ho : w.hw.mOutput = some o) (hb : o.mStandby = false)
    (h : OutputInv (some o) w.pcmOut handed) :
    OutputInv (startPlayback p n o w).1.hw.mOutput (startPlayback p n o w).1.pcmOut (o.mFd :: handed) ∧
      ∀ fd, starts (startPlayback p n o w).1.pcmOut fd ≠ starts w.pcmOut fd →
        (o.mFd :: handed).count fd = audioHwNumOutBuf := by
  have hcount := h.counted o rfl hb
  unfold startPlayback
  split
  · rename_i h0
    refine ⟨?_, fun fd hne => absurd rfl hne⟩
    have hstarted : Counted { o with mStartCount := o.mStartCount } w.pcmOut (o.mFd :: handed) := by
      rcases hcount with ⟨hne, -⟩ | hc
      · exact absurd h0 hne
      · exact .inr hc
    rw [ho]
    exact h.hand hb hstarted
  · rename_i hne
    rcases hcount with ⟨-, hsum, hzero⟩ | ⟨h0, -⟩
    · split
      · rename_i hmore
        refine ⟨h.hand hb (.inl ⟨hmore, ?_, hzero⟩), fun fd hne => absurd rfl hne⟩
        rw [List.count_cons_self]
        dsimp only
        omega
      · rename_i hlast
        have h1 : o.mStartCount = 1 := by omega
        have hfull : ∀ ok fd, starts (.started o.mFd ok :: w.pcmOut) fd ≠ starts w.pcmOut fd →
            (o.mFd :: handed).count fd = audioHwNumOutBuf := by
          intro ok fd hdiff
          rw [starts_started] at hdiff
          by_cases he : o.mFd = fd
          · subst he
            rw [List.count_cons_self]
            omega
          · simp [he] at hdiff
        dsimp only
        split
        · rw [postproc_hw, postproc_pcmOut]
          exact ⟨h.start hb h1 _, hfull _⟩
        · rw [postproc_hw, postproc_pcmOut]
          change OutputInv (some { o with mFd := -1, mStandby := true, mStartCount := 0 })
            (closeFd o.mFd _) _ ∧ ∀ fd, starts (closeFd o.mFd _) fd ≠ _ → _
          rw [closeFd, if_pos (h.fd_nonneg hb)]
          refine ⟨(h.start hb h1 _).close hb fun o' ho' => ?_, hfull _⟩
          obtain rfl := Option.some.inj ho'
          exact ⟨rfl, rfl⟩
    · exact absurd h0 hne

theorem startPlayback_status (n : Nat) (o : AudioStreamOut) (w : World) :
    (startPlayback p n o w).2 = n ∨ (startPlayback p n o w).2 = eio := by
  unfold startPlayback
  split
  · exact .inl rfl
  · split
    · exact .inl rfl
    · dsimp only
      split
      · exact .inl rfl
      · exact .inr rfl

/-- The descriptor, when the buffer was taken. -/
def whole (fd : Int) (answers : List WriteAnswer) (buffer : List (BitVec 8)) : List Int :=
  if consumed answers buffer.length = true then [fd] else []

/-- What `write` hands over, once it holds a descriptor. -/
theorem whole_eq {fd : Int} (hfd : 0 ≤ fd) (answers : List WriteAnswer) (buffer : List (BitVec 8)) :
    (if 0 ≤ noError ∧ 0 ≤ fd ∧ consumed answers buffer.length = true then some fd else none).toList =
      whole fd answers buffer := by
  unfold whole
  by_cases hc : consumed answers buffer.length = true
  · simp [hc, hfd, noError]
  · simp [hc]

/-- What one call leaves: the invariant with what it handed over, starts of filled
descriptors only, and no invalid descriptor. -/
structure Plays (w w' : World) (value : Option Int) (handed' : List Int) : Prop where
  inv : OutputInv w'.hw.mOutput w'.pcmOut handed'
  starts : ∀ fd, starts w'.pcmOut fd ≠ starts w.pcmOut fd → handed'.count fd = audioHwNumOutBuf
  valid : value ≠ some noInit

/-- The blocks of `write` behind the opening. -/
theorem plays_playBuffer (buffer : List (BitVec 8)) (answers : List WriteAnswer) {w : World}
    (hb : o.mStandby = false) (h : OutputInv (some o) w.pcmOut handed) :
    Plays w (playBuffer p buffer answers o w).1 (playBuffer p buffer answers o w).2
      (whole o.mFd answers buffer ++ handed) := by
  have hheld := (heldBy_some o o.mFd).mpr ⟨hb, rfl⟩
  have hloop := outputInv_writeLoop hheld answers buffer o.mRetryCount h
  have hdone := writeLoop_done o.mFd answers buffer o.mRetryCount w.pcmOut
  unfold playBuffer
  rw [if_neg fun hneg => absurd hneg.1 (not_lt.mpr (h.fd_nonneg hb))]
  generalize writeLoop o.mFd answers buffer o.mRetryCount w.pcmOut = r at hloop hdone ⊢
  obtain ⟨retries, log, fin⟩ := r
  dsimp only at hloop hdone ⊢
  have hlog : OutputInv (some { o with mRetryCount := retries }) log handed := hloop.1.congr rfl rfl rfl
  have hsame : ∀ fd, starts log fd ≠ starts w.pcmOut fd → handed.count fd = audioHwNumOutBuf :=
    fun fd hne => absurd (hloop.2 fd) hne
  cases fin with
  | blocked =>
    have hpart : whole o.mFd answers buffer = [] := if_neg fun hc => absurd (hdone.mpr hc) (by decide)
    rw [hpart]
    exact ⟨hlog, hsame, by simp⟩
  | failed =>
    have hpart : whole o.mFd answers buffer = [] := if_neg fun hc => absurd (hdone.mpr hc) (by decide)
    rw [hpart]
    exact ⟨hlog, hsame, fun hno => absurd (Option.some.inj hno) (by decide)⟩
  | done =>
    have hpart : whole o.mFd answers buffer = [o.mFd] := if_pos (hdone.mp rfl)
    have hstart := outputInv_startPlayback (p := p) buffer.length
      (w := setOut { o with mRetryCount := retries } { w with pcmOut := log }) rfl hb hlog
    rw [hpart]
    refine ⟨hstart.1, fun fd hne => hstart.2 fd ?_, ?_⟩
    · intro he
      exact hne (he.trans (hloop.2 fd))
    · have hvalue := startPlayback_status (p := p) buffer.length { o with mRetryCount := retries }
        (setOut { o with mRetryCount := retries } { w with pcmOut := log })
      intro hno
      have hno := Option.some.inj hno
      rcases hvalue with hv | hv <;> rw [hv] at hno
      · unfold noInit at hno
        omega
      · exact absurd hno (by decide)

theorem plays_write (buffer : List (BitVec 8)) (answers : List WriteAnswer) {w : World}
    (h : OutputInv w.hw.mOutput w.pcmOut handed) :
    Plays w (write p buffer answers w).1 (write p buffer answers w).2
      ((handedTo p w (.write buffer answers)).toList ++ handed) := by
  unfold write handedTo
  cases ho : w.hw.mOutput with
  | none =>
    refine ⟨?_, fun fd hne => absurd rfl hne, by simp⟩
    simpa [ho] using h
  | some o =>
    rw [ho] at h
    dsimp only
    cases hb : o.mStandby with
    | false =>
      have hplay := plays_playBuffer (p := p) buffer answers hb h
      simp only [Bool.false_eq_true, if_false, whole_eq (h.fd_nonneg hb)]
      exact hplay
    | true =>
      obtain ⟨hopen, hstarts, hcases⟩ := outputInv_open (p := p) h hb
      simp only [if_true]
      generalize openPcmOut p o w.pcmOut = r at hopen hstarts hcases ⊢
      obtain ⟨o', log, status⟩ := r
      dsimp only at hopen hstarts hcases ⊢
      rcases hcases with rfl | ⟨rfl, hb'⟩
      · refine ⟨?_, fun fd hne => absurd (hstarts fd) hne, fun hno => absurd (Option.some.inj hno) (by decide)⟩
        have hno : ¬ (0 ≤ (-1 : Status) ∧ 0 ≤ o'.mFd ∧ consumed answers buffer.length = true) :=
          fun hc => absurd hc.1 (by decide)
        rw [if_neg hno]
        exact hopen
      · have hplay := plays_playBuffer (p := p) buffer answers (w := setOut o' { w with pcmOut := log }) hb' hopen
        rw [whole_eq (hopen.fd_nonneg hb'), if_neg (by decide)]
        refine ⟨hplay.inv, fun fd hne => hplay.starts fd ?_, hplay.valid⟩
        intro he
        exact hne (he.trans (hstarts fd))

end

/-! ## The other operations -/

/-- What an operation without a `write` leaves: the invariant, and no new start. -/
structure Rests (handed : List Int) (w w' : World) : Prop where
  inv : OutputInv w'.hw.mOutput w'.pcmOut handed
  starts : ∀ fd, starts w'.pcmOut fd = starts w.pcmOut fd

section
variable {handed : List Int} {w : World}

theorem rests_of_eq {w' : World} (h : OutputInv w.hw.mOutput w.pcmOut handed)
    (ho : w'.hw.mOutput = w.hw.mOutput) (hl : w'.pcmOut = w.pcmOut) : Rests handed w w' := by
  constructor
  · rw [ho, hl]
    exact h
  · intro fd
    rw [hl]

theorem rests_aside {c : Call} (hc : Aside c) (h : OutputInv w.hw.mOutput w.pcmOut handed) :
    Rests handed w (call p w c) := by
  cases c with
  | openOutputStream | closeOutputStream | write | outStandby | setMicMute => exact hc.elim
  | doRouting input => exact rests_of_eq h (doRouting_mOutput input w) (doRouting_pcmOut input w)
  | reroute input => exact rests_of_eq h (doRouting_mOutput input _) (doRouting_pcmOut input _)
  | setFm on off =>
    obtain ⟨log, fd, he⟩ := switchFm_frame p on off w
    rw [call, he]
    exact rests_of_eq h (doRouting_mOutput none _) (doRouting_pcmOut none _)
  | setMode mode =>
    have hsame := AudioPostProc.sameFilters_setMode (p := p) mode w
    exact rests_of_eq h hsame.mOutput hsame.pcmOut
  | setVoiceVolume v =>
    have hsame := AudioPostProc.sameFilters_set_volume_rpc (p := p) (p.dev .current) sndMethodVoice
      (voiceLevel p w.hw v) w
    exact rests_of_eq h hsame.mOutput hsame.pcmOut
  | setFmVolume v =>
    have hsame := AudioPostProc.sameFilters_set_volume_rpc (p := p) (p.dev .current) sndMethodVoice
      (fmLevel p v) { w with hw := { w.hw with mFmVolume := fmLevel p v } }
    exact rests_of_eq h hsame.mOutput hsame.pcmOut
  | setSettings | record | setProperty => exact rests_of_eq h rfl rfl
  | setOutDevices devices =>
    rw [call, setOutDevices]
    cases ho : w.hw.mOutput with
    | none => exact rests_of_eq h rfl rfl
    | some out =>
      rw [ho] at h
      exact ⟨h.congr rfl rfl rfl, fun _ => rfl⟩

theorem rests_passes {w' : World} (hp : Passes p w w') (h : OutputInv w.hw.mOutput w.pcmOut handed) :
    Rests handed w w' := by
  have hrests := hp.preserves (Rests handed w) (fun v c hc hv => ?_) (rests_of_eq h rfl rfl)
  · exact hrests
  · have hcall := rests_aside (p := p) hc hv.inv
    exact ⟨hcall.inv, fun fd => (hcall.starts fd).trans (hv.starts fd)⟩

theorem rests_outStandby (h : OutputInv w.hw.mOutput w.pcmOut handed) : Rests handed w (outStandby p w) := by
  unfold outStandby
  cases ho : w.hw.mOutput with
  | none => exact rests_of_eq h rfl rfl
  | some o =>
    rw [ho] at h
    dsimp only
    split
    · rename_i hopen
      constructor
      · simp only [setOut, postproc_pcmOut]
        refine h.close hopen.1 fun o' ho' => ?_
        obtain rfl := Option.some.inj ho'
        exact ⟨rfl, rfl⟩
      · intro fd
        simp [setOut, starts, isStart]
    · rename_i hopen
      refine ⟨?_, fun _ => rfl⟩
      cases hb : o.mStandby with
      | false => exact absurd ⟨hb, h.fd_nonneg hb⟩ hopen
      | true => exact h.congr rfl hb.symm rfl

theorem rests_closeOutputStream (h : OutputInv w.hw.mOutput w.pcmOut handed) :
    Rests handed w (closeOutputStream w) := by
  unfold closeOutputStream
  cases ho : w.hw.mOutput with
  | none => exact rests_of_eq h rfl rfl
  | some o =>
    rw [ho] at h
    dsimp only
    cases hb : o.mStandby with
    | false =>
      rw [closeFd, if_pos (h.fd_nonneg hb)]
      exact ⟨h.close hb (fun o' ho' => by cases ho'), fun _ => rfl⟩
    | true =>
      have hidle : closeFd o.mFd w.pcmOut = w.pcmOut := by
        rw [h.idle o rfl hb]
        rfl
      rw [hidle]
      refine ⟨h.swap (fun o' ho' => ?_) (fun o' ho' => by cases ho'), fun _ => rfl⟩
      obtain rfl := Option.some.inj ho'
      exact hb

theorem rests_openOutputStream (devices : Devices) (a : OutArgs) (h : OutputInv w.hw.mOutput w.pcmOut handed) :
    Rests handed w (openOutputStream devices a w).1 := by
  unfold openOutputStream
  split
  · exact rests_of_eq h rfl rfl
  · rename_i hnone
    have hnew := AudioPostProc.outSet_new devices a
    dsimp only
    split
    · refine ⟨h.swap (fun o ho => absurd (Option.isSome_of_mem ho) hnone) fun o' ho' => ?_, fun _ => rfl⟩
      obtain rfl := Option.some.inj ho'
      exact ⟨hnew.2, hnew.1⟩
    · exact rests_of_eq h rfl rfl

/-- Every operation but `write`. -/
theorem rests_step {op : Op} (hop : ∀ buffer answers, op ≠ .write buffer answers)
    (h : OutputInv w.hw.mOutput w.pcmOut handed) : Rests handed w (step p w op) := by
  by_cases ho : OnOutput op
  · cases op with
    | openOutputStream devices a => exact rests_openOutputStream devices a h
    | closeOutputStream => exact rests_closeOutputStream h
    | outStandby => exact rests_outStandby h
    | write buffer answers => exact absurd rfl (hop buffer answers)
    | _ => exact ho.elim
  · by_cases hm : ∃ state, op = .setMicMute state
    · obtain ⟨state, rfl⟩ := hm
      have hsame := AudioPostProc.sameFilters_setMicMute (p := p) state w
      exact rests_of_eq h hsame.mOutput hsame.pcmOut
    · by_cases hr : ∃ ptr kv, op = .inSetParameters ptr kv
      · obtain ⟨ptr, kv, rfl⟩ := hr
        rw [step]
        cases hd : inputRouting p ptr kv w with
        | none =>
          rw [inSetParameters_none hd]
          exact rests_of_eq h rfl rfl
        | some d =>
          obtain ⟨v, ⟨r, rfl⟩, he⟩ := inSetParameters_some hd
          rw [he]
          exact rests_of_eq h (doRouting_mOutput _ _) (doRouting_pcmOut _ _)
      · exact rests_passes (step_passes ho (fun state he => hm ⟨state, he⟩)
          (fun ptr kv he => hr ⟨ptr, kv, he⟩) w) h

end

/-! ## Runs -/

def SessionInv (t : Session) : Prop := OutputInv t.world.hw.mOutput t.world.pcmOut t.handed

/-- One operation, with what it hands over. -/
theorem advance_spec {t : Session} (op : Op) (h : SessionInv t) :
    SessionInv (advance p t op) ∧ Filled p t op := by
  by_cases hop : ∃ buffer answers, op = .write buffer answers
  · obtain ⟨buffer, answers, rfl⟩ := hop
    have hplay := plays_write (p := p) buffer answers h
    refine ⟨hplay.inv, hplay.starts, fun b a he => ?_⟩
    cases he
    exact hplay.valid
  · have hrest := rests_step (p := p) (fun buffer answers he => hop ⟨buffer, answers, he⟩) h
    have hnone : handedTo p t.world op = none := by
      cases op with
      | write buffer answers => exact absurd ⟨buffer, answers, rfl⟩ hop
      | _ => rfl
    constructor
    · rw [SessionInv, advance, hnone]
      exact hrest.inv
    · exact ⟨fun fd hne => absurd (hrest.starts fd) hne, fun buffer answers he => absurd ⟨buffer, answers, he⟩ hop⟩

theorem sound_of_inv {t : Session} (h : SessionInv t) : Sound t := by
  constructor
  · intro out ho
    rw [h.node.inOrder.live_iff]
    constructor
    · intro hb
      exact ⟨out, ho, hb, rfl⟩
    · rintro ⟨o, ho', hb, -⟩
      obtain rfl : out = o := Option.some.inj (ho.symm.trans ho')
      exact hb
  · intro fd hacq hno
    refine h.node.inOrder.released_once ?_ hacq
    rintro ⟨o, ho, hb, he⟩
    exact hno o ho hb he
  · exact h.node.inOrder.used
  · exact h.once

/-- In every run of operations, whatever the drivers answer: the stream is out of standby
exactly while its descriptor is open, every descriptor is closed once, and `AUDIO_START` is
tried once at most, behind two whole buffers. -/
theorem output_descriptors (p : Platform) (ops : List Op) :
    Run.AllStates (advance p) Sound ⟨boot p, []⟩ ops ∧ Run.AllSteps (advance p) (Filled p) ⟨boot p, []⟩ ops := by
  have hboot : SessionInv ⟨boot p, []⟩ := outputInv_nil
  have hstep : ∀ t op, SessionInv t → SessionInv (advance p t op) := fun t op h => (advance_spec op h).1
  have hinv : Run.AllStates (advance p) SessionInv ⟨boot p, []⟩ ops :=
    Run.allStates_of_invariant hstep hboot ops
  exact ⟨hinv.mono fun _ => sound_of_inv,
    Run.allSteps_of_allStates (C := Filled p) (fun t op h => (advance_spec op h).2) hinv⟩

end AudioPlayback
