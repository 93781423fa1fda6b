import Y210.AudioCalls

/-!
# The filters of the output

`msm72xx_enable_postproc` looks its table up by `mCurSndDevice` and does nothing when
that device is cleared or has no table. The laws below say when the mask the driver
holds is still the one of the device that is routed.
-/
namespace AudioPostProc

open AudioDrivers AudioHardware AudioStreams AudioRouting AudioCalls

variable {p : Platform}

/-- The filter file was parsed and the drivers of the output accept every request. -/
structure FiltersWork (p : Platform) : Prop where
  inited : p.filters.inited = true
  pcmCtlOpen : ∀ n, p.pcmCtlOpenOk n = true
  audpp : ∀ n, p.audppOk n = true
  pcmOut : ∀ n, p.pcmOutOk n = true

/-- The filter table of a device, if it has one. -/
def filterTable (dev : SndDevices) (device : Int) : Option (Fin 3) :=
  if device < 0 then none else postprocDeviceId dev device

/-- The mask that `msm72xx_enable_postproc` computes for a device; 0 without a table. -/
def deviceMask (p : Platform) (feature : BitVec 32) (device : Int) : BitVec 32 :=
  match filterTable p.dev device with
  | some id => postprocEnableMask p.filters feature id
  | none => 0

/-- The mask for the device of the last route. -/
def routedMask (p : Platform) (w : World) : BitVec 32 :=
  deviceMask p w.hw.post_proc_feature_mask w.hw.mActSndDevice

/-- An output stream exists, and its open descriptor was started. -/
def Started (w : World) : Prop :=
  ∃ out ∈ w.hw.mOutput, 0 ≤ out.mFd ∧ PcmCall.started out.mFd true ∈ w.pcmOut

instance (w : World) : Decidable (Started w) :=
  Option.decidableExistsMem w.hw.mOutput

/-- The driver holds the mask of the routed device while playback runs, and 0 otherwise. -/
def FiltersFollow (p : Platform) (w : World) : Prop :=
  audppMask w.audpp = if Started w then routedMask p w else 0

/-! ## What the switch of the filters leaves in the driver -/

theorem postproc_mask (hf : FiltersWork p) (state : Bool) (w : World) :
    audppMask (msm72xx_enable_postproc p state w).1.audpp =
      match filterTable p.dev w.hw.mCurSndDevice with
      | some id => if state then postprocEnableMask p.filters w.hw.post_proc_feature_mask id else 0
      | none => audppMask w.audpp := by
  unfold msm72xx_enable_postproc filterTable
  by_cases hneg : w.hw.mCurSndDevice < 0
  · simp [hf.inited, hneg]
  · cases hid : postprocDeviceId p.dev w.hw.mCurSndDevice with
    | none => simp [hf.inited, hneg]
    | some id =>
      cases state with
      | false => simp [hf.inited, hneg, hf.pcmCtlOpen, issueAudpp, hf.audpp]
      | true => simp [hf.inited, hneg, hf.pcmCtlOpen, issueAudpp_append hf.audpp]

/-- A route disables the filters of the cached device and enables those of the new one. -/
theorem applyRoute_mask (hf : FiltersWork p) (device : Int) (mask : BitVec 32) (w : World) :
    audppMask (applyRoute p device mask w).1.audpp =
      if w.hw.playback_in_progress then
        match filterTable p.dev device, filterTable p.dev w.hw.mCurSndDevice with
        | some id, _ => postprocEnableMask p.filters mask id
        | none, some _ => 0
        | none, none => audppMask w.audpp
      else audppMask w.audpp := by
  unfold applyRoute
  cases hp : w.hw.playback_in_progress with
  | false => simp [hp]
  | true =>
    simp only [route_hw, hp, if_true, postproc_hw, postproc_mask hf, route_audpp]
    cases filterTable p.dev device <;> cases filterTable p.dev w.hw.mCurSndDevice <;> rfl

/-! ## The bookkeeping of playback -/

/-- Whether a driver that gives these answers takes `n` bytes. -/
def consumed : List WriteAnswer → Nat → Bool
  | _, 0 => true
  | [], _ + 1 => false
  | .wrote k :: rest, n + 1 => consumed rest (n + 1 - k)
  | .again :: rest, n + 1 => consumed rest (n + 1)
  | .error :: _, _ + 1 => false

theorem writeLoop_done (fd : Int) (answers : List WriteAnswer) (bytes : List (BitVec 8)) (retries : Nat)
    (log : List PcmCall) :
    (writeLoop fd answers bytes retries log).2.2 = .done ↔ consumed answers bytes.length = true := by
  fun_induction writeLoop fd answers bytes retries log with
  | case1 answers retries log => cases answers <;> simp [consumed]
  | case2 b bytes retries log => simp [consumed]
  | case3 n rest b bytes retries log ih => simpa [consumed] using ih
  | case4 rest b bytes retries log ih => simpa [consumed] using ih
  | case5 rest b bytes retries log => simp [consumed]

/-- The loop logs writes only. -/
theorem writeLoop_log (fd : Int) (answers : List WriteAnswer) (bytes : List (BitVec 8)) (retries : Nat)
    (log : List PcmCall) : log.length ≤ (writeLoop fd answers bytes retries log).2.1.length ∧
      ∀ f ok, PcmCall.started f ok ∈ (writeLoop fd answers bytes retries log).2.1 ↔
        PcmCall.started f ok ∈ log := by
  fun_induction writeLoop fd answers bytes retries log with
  | case3 n rest b bytes retries log ih =>
    refine ⟨(Nat.le_succ _).trans ih.1, fun f ok => (ih.2 f ok).trans ?_⟩
    simp
  | case4 rest b bytes retries log ih => exact ih
  | _ => simp

/-- The members of a stream agree with the log of its node. -/
structure StreamOk (out : AudioStreamOut) (log : List PcmCall) : Prop where
  fd_lt : out.mFd < log.length
  closed : out.mStandby = true → out.mFd = -1
  opened : out.mStandby = false → 0 ≤ out.mFd
  started : out.mStandby = false → (PcmCall.started out.mFd true ∈ log ↔ out.mStartCount = 0)

/-- Only descriptors that were handed out have been started. -/
def LogOk (log : List PcmCall) : Prop := ∀ fd ok, PcmCall.started fd ok ∈ log → fd < log.length

structure PlaybackInv (w : World) : Prop where
  log : LogOk w.pcmOut
  stream : ∀ out ∈ w.hw.mOutput, StreamOk out w.pcmOut
  playing : Started w → w.hw.playback_in_progress = true
  cached : w.hw.mCurSndDevice = -1 ∨ w.hw.mCurSndDevice = w.hw.mActSndDevice

theorem started_iff {w : World} {out : AudioStreamOut} (ho : w.hw.mOutput = some out)
    (hs : StreamOk out w.pcmOut) : Started w ↔ out.mStandby = false ∧ out.mStartCount = 0 := by
  constructor
  · rintro ⟨out', ho', hfd, hmem⟩
    obtain rfl : out = out' := Option.some.inj (ho.symm.trans ho')
    cases hb : out.mStandby with
    | true => exact absurd (hs.closed hb) (by omega)
    | false => exact ⟨rfl, (hs.started hb).mp hmem⟩
  · rintro ⟨hb, hc⟩
    exact ⟨out, ho, hs.opened hb, (hs.started hb).mpr hc⟩

theorem not_started_of_none {w : World} (ho : w.hw.mOutput = none) : ¬ Started w := by
  rintro ⟨out, ho', -⟩
  rw [ho] at ho'
  cases ho'

/-- The stream and its node have moved on, but playback has neither started nor stopped. -/
structure Idle (w w' : World) : Prop where
  frame : ∃ out log, w' = { w with pcmOut := log, hw := { w.hw with mOutput := out } }
  inv : PlaybackInv w'
  started : Started w' ↔ Started w

theorem Idle.refl {w : World} (hinv : PlaybackInv w) : Idle w w := ⟨⟨_, _, rfl⟩, hinv, Iff.rfl⟩

theorem Idle.trans {a b c : World} (h₁ : Idle a b) (h₂ : Idle b c) : Idle a c where
  frame := by
    obtain ⟨_, _, rfl⟩ := h₁.frame
    obtain ⟨out, log, rfl⟩ := h₂.frame
    exact ⟨out, log, rfl⟩
  inv := h₂.inv
  started := h₂.started.trans h₁.started

theorem idle_setOut {w : World} {out : AudioStreamOut} {log : List PcmCall} (hinv : PlaybackInv w)
    (hlog : LogOk log) (hs : StreamOk out log)
    (hst : out.mStandby = false ∧ out.mStartCount = 0 ↔ Started w) :
    Idle w (setOut out { w with pcmOut := log }) := by
  have hst' : Started (setOut out { w with pcmOut := log }) ↔ Started w :=
    (started_iff rfl hs).trans hst
  exact ⟨⟨some out, log, rfl⟩, ⟨hlog, fun o ho => Option.some.inj ho ▸ hs, fun h => hinv.playing (hst'.mp h),
    hinv.cached⟩, hst'⟩

/-- Opening the driver for a stream in standby. -/
theorem openPcmOut_ok (hf : FiltersWork p) (out : AudioStreamOut) (log : List PcmCall) :
    openPcmOut p out log = ({ out with mFd := log.length, mStartCount := 2, mStandby := false },
      .setConfig log.length outConfig true :: .getConfig log.length true :: .opened log.length :: log,
      noError) := by
  simp [openPcmOut, hf.pcmOut, audioHwNumOutBuf]

theorem open_idle {w : World} {out : AudioStreamOut} (hinv : PlaybackInv w)
    (ho : w.hw.mOutput = some out) (hb : out.mStandby = true) :
    Idle w (setOut { out with mFd := w.pcmOut.length, mStartCount := 2, mStandby := false }
      { w with pcmOut := .setConfig w.pcmOut.length outConfig true ::
        .getConfig w.pcmOut.length true :: .opened w.pcmOut.length :: w.pcmOut }) := by
  have hnew : ∀ fd ok, PcmCall.started fd ok ∈ w.pcmOut → fd ≠ (w.pcmOut.length : Int) :=
    fun fd ok hm => by
      have := hinv.log fd ok hm
      omega
  refine idle_setOut hinv (fun fd ok hm => ?_) ⟨?_, nofun, fun _ => ?_, fun _ => ?_⟩ ?_
  · have := hinv.log fd ok (by simpa using hm)
    simp only [List.length_cons]
    omega
  · simp only [List.length_cons]
    omega
  · exact Int.natCast_nonneg _
  · refine iff_of_false (fun hm => ?_) (Nat.succ_ne_zero 1)
    exact hnew _ true (by simpa using hm) rfl
  · rw [started_iff ho (hinv.stream out ho), hb]
    simp

/-- A `write` that reaches `AUDIO_START`: its second full buffer since the driver was opened. -/
def StartsPlayback (w : World) (buffer : List (BitVec 8)) (answers : List WriteAnswer) : Prop :=
  ∃ out ∈ w.hw.mOutput, out.mStandby = false ∧ out.mStartCount = 1 ∧ consumed answers buffer.length = true

instance (w : World) (buffer : List (BitVec 8)) (answers : List WriteAnswer) :
    Decidable (StartsPlayback w buffer answers) :=
  Option.decidableExistsMem w.hw.mOutput

/-- What the loop of `write` leaves agrees with the members. -/
theorem streamOk_writeLoop {out : AudioStreamOut} {log : List PcmCall} (hs : StreamOk out log)
    (answers : List WriteAnswer) (buffer : List (BitVec 8)) (retries : Nat) :
    StreamOk { out with mRetryCount := (writeLoop out.mFd answers buffer retries log).1 }
      (writeLoop out.mFd answers buffer retries log).2.1 := by
  have hl := writeLoop_log out.mFd answers buffer retries log
  refine ⟨?_, hs.closed, hs.opened, fun hb => (hl.2 _ _).trans (hs.started hb)⟩
  have := hs.fd_lt
  have := hl.1
  dsimp only
  omega

theorem logOk_writeLoop {log : List PcmCall} (h : LogOk log) (fd : Int) (answers : List WriteAnswer)
    (buffer : List (BitVec 8)) (retries : Nat) :
    LogOk (writeLoop fd answers buffer retries log).2.1 := by
  intro f ok hm
  have hl := writeLoop_log fd answers buffer retries log
  have := h f ok ((hl.2 f ok).mp hm)
  have := hl.1
  omega

/-- Playback begins: the filters are enabled in a state that is otherwise as `Idle` leaves it. -/
def Begins (p : Platform) (w w' : World) : Prop :=
  ∃ out log, w' = (msm72xx_enable_postproc p true (setOut out { w with pcmOut := log, hw := { w.hw with
      playback_in_progress := true } })).1 ∧ LogOk log ∧ StreamOk out log ∧
    out.mStandby = false ∧ out.mStartCount = 0

theorem playBuffer_spec (hf : FiltersWork p) {w : World} {out : AudioStreamOut}
    (hinv : PlaybackInv w) (ho : w.hw.mOutput = some out) (hb : out.mStandby = false)
    (buffer : List (BitVec 8)) (answers : List WriteAnswer) :
    if out.mStartCount = 1 ∧ consumed answers buffer.length = true then
      Begins p w (playBuffer p buffer answers out w).1
    else Idle w (playBuffer p buffer answers out w).1 := by
  have hs := hinv.stream out ho
  have hs' := streamOk_writeLoop hs answers buffer out.mRetryCount
  have hlog := logOk_writeLoop hinv.log out.mFd answers buffer out.mRetryCount
  have hdone := writeLoop_done out.mFd answers buffer out.mRetryCount w.pcmOut
  have hst := started_iff ho hs
  have hfd : ¬ (out.mFd < 0 ∧ buffer ≠ []) := fun h => absurd (hs.opened hb) (not_le.mpr h.1)
  simp only [playBuffer, if_neg hfd]
  generalize writeLoop out.mFd answers buffer out.mRetryCount w.pcmOut = r at hs' hlog hdone ⊢
  obtain ⟨retries, log, fin⟩ := r
  dsimp only at hs' hlog hdone ⊢
  cases fin with
  | blocked | failed =>
    rw [if_neg fun h => by simpa using hdone.mpr h.2]
    exact idle_setOut hinv hlog hs' hst.symm
  | done =>
    have hc := hdone.mp rfl
    simp only [hc, and_true, startPlayback]
    by_cases h0 : out.mStartCount = 0
    · rw [if_pos h0, if_neg (by omega)]
      exact idle_setOut hinv hlog hs' hst.symm
    · rw [if_neg h0]
      by_cases h1 : out.mStartCount = 1
      · rw [if_pos h1, if_neg (by omega), if_pos (hf.pcmOut _), hf.pcmOut]
        refine ⟨{ out with mRetryCount := retries, mStartCount := 0 }, .started out.mFd true :: log, rfl,
          fun fd ok hm => ?_, ⟨?_, hs'.closed, hs'.opened, fun _ => ?_⟩, hb, rfl⟩
        · rw [List.length_cons]
          rcases List.mem_cons.mp hm with hq | hm
          · have hlt : out.mFd < log.length := hs'.fd_lt
            obtain ⟨rfl, -⟩ := PcmCall.started.inj hq
            omega
          · have := hlog fd ok hm
            omega
        · have hlt : out.mFd < log.length := hs'.fd_lt
          rw [List.length_cons]
          change out.mFd < _
          omega
        · exact iff_of_true List.mem_cons_self rfl
      · rw [if_neg h1, if_pos (by omega)]
        have hs'' : StreamOk { out with mRetryCount := retries, mStartCount := out.mStartCount - 1 } log :=
          ⟨hs'.fd_lt, hs'.closed, hs'.opened, fun hb => (hs'.started hb).trans (by simp; omega)⟩
        refine idle_setOut hinv hlog hs'' ?_
        rw [hst]
        simp only
        omega

/-- A `write` opens a driver in standby, and begins playback with its second buffer. -/
theorem write_spec (hf : FiltersWork p) {w : World} (hinv : PlaybackInv w) (buffer : List (BitVec 8))
    (answers : List WriteAnswer) :
    (StartsPlayback w buffer answers ∧ ¬ Started w ∧ Begins p w (write p buffer answers w).1) ∨
      (¬ StartsPlayback w buffer answers ∧ Idle w (write p buffer answers w).1) := by
  unfold write StartsPlayback
  cases ho : w.hw.mOutput with
  | none => exact .inr ⟨fun ⟨_, h, _⟩ => (nomatch h), .refl hinv⟩
  | some out =>
    dsimp only
    cases hb : out.mStandby with
    | true =>
      -- two buffers are missing: the driver is opened but not started
      have hopen := open_idle hinv ho hb
      have hplay := playBuffer_spec hf hopen.inv rfl rfl buffer answers
      rw [if_neg fun h => absurd h.1 (Nat.succ_ne_self 1)] at hplay
      refine .inr ⟨fun ⟨o, h, hn, _⟩ => ?_, ?_⟩
      · obtain rfl := Option.some.inj h
        rw [hb] at hn
        cases hn
      · simp only [if_true, openPcmOut_ok hf, noError, lt_irrefl, if_false]
        exact hopen.trans hplay
    | false =>
      have hplay := playBuffer_spec hf hinv ho hb buffer answers
      simp only [Bool.false_eq_true, if_false]
      by_cases hc : out.mStartCount = 1 ∧ consumed answers buffer.length = true
      · rw [if_pos hc] at hplay
        refine .inl ⟨⟨out, rfl, hb, hc⟩, fun hst => ?_, hplay⟩
        have := ((started_iff ho (hinv.stream out ho)).mp hst).2
        omega
      · rw [if_neg hc] at hplay
        refine .inr ⟨fun ⟨o, h, _, hn⟩ => ?_, hplay⟩
        obtain rfl := Option.some.inj h
        exact hc hn

/-! ## What the playback calls do to the filters -/

theorem filterTable_neg (dev : SndDevices) : filterTable dev (-1) = none := rfl

/-- Without a table for the cached device, it is cleared or the routed device has none. -/
theorem routedMask_of_none {w : World} (hinv : PlaybackInv w)
    (ht : filterTable p.dev w.hw.mCurSndDevice = none) :
    w.hw.mCurSndDevice = -1 ∨ routedMask p w = 0 := by
  rcases hinv.cached with hc | hc
  · exact .inl hc
  · right
    rw [routedMask, deviceMask, ← hc, ht]

theorem filters_idle {w w' : World} (h : Idle w w') : FiltersFollow p w' ↔ FiltersFollow p w := by
  obtain ⟨out, log, rfl⟩ := h.frame
  simp only [FiltersFollow, h.started]
  rfl

theorem filters_begins (hf : FiltersWork p) {w w' : World} (hinv : PlaybackInv w)
    (hP : FiltersFollow p w) (hst : ¬ Started w) (h : Begins p w w') :
    FiltersFollow p w' ↔ ¬ (w.hw.mCurSndDevice = -1 ∧ routedMask p w ≠ 0) := by
  obtain ⟨out, log, rfl, hlog, hs, hb, hc⟩ := h
  have hst' : Started (msm72xx_enable_postproc p true (setOut out { w with pcmOut := log, hw := { w.hw with
      playback_in_progress := true } })).1 := by
    rw [Started, postproc_hw, postproc_pcmOut]
    exact (started_iff rfl hs).mpr ⟨hb, hc⟩
  have hmask : audppMask w.audpp = 0 := by simpa only [FiltersFollow, if_neg hst] using hP
  rw [FiltersFollow, if_pos hst', postproc_mask hf, routedMask, postproc_hw]
  change (match filterTable p.dev w.hw.mCurSndDevice with
    | some id => postprocEnableMask p.filters w.hw.post_proc_feature_mask id
    | none => audppMask w.audpp) = routedMask p w ↔ _
  cases ht : filterTable p.dev w.hw.mCurSndDevice with
  | none =>
    dsimp only
    rw [hmask]
    rcases routedMask_of_none hinv ht with hn | hn
    · refine ⟨fun h hc => hc.2 h.symm, fun h => ?_⟩
      by_contra hq
      exact h ⟨hn, fun hz => hq hz.symm⟩
    · simp [hn]
  | some id =>
    have hn : w.hw.mCurSndDevice ≠ -1 := fun h => by rw [h, filterTable_neg] at ht; cases ht
    refine iff_of_true ?_ fun h => hn h.1
    rw [routedMask, deviceMask, ← hinv.cached.resolve_left hn, ht]

theorem inv_begins {w w' : World} (hinv : PlaybackInv w) (h : Begins p w w') : PlaybackInv w' := by
  obtain ⟨out, log, rfl, hlog, hs, hb, hc⟩ := h
  refine ⟨?_, ?_, ?_, ?_⟩
  · rw [postproc_pcmOut]
    exact hlog
  · rw [postproc_hw, postproc_pcmOut]
    exact fun o ho => Option.some.inj ho ▸ hs
  · rw [postproc_hw]
    exact fun _ => rfl
  · rw [postproc_hw]
    exact hinv.cached

/-- A stream without a descriptor, or none at all, is not playing. -/
theorem inv_stopped {w : World} (hlog : LogOk w.pcmOut)
    (ho : ∀ out ∈ w.hw.mOutput, out.mFd = -1 ∧ out.mStandby = true)
    (hc : w.hw.mCurSndDevice = -1 ∨ w.hw.mCurSndDevice = w.hw.mActSndDevice) :
    PlaybackInv w ∧ ¬ Started w := by
  have hst : ¬ Started w := fun ⟨out, h, hfd, _⟩ => by
    rw [(ho out h).1] at hfd
    exact absurd hfd (by decide)
  refine ⟨⟨hlog, fun out h => ⟨?_, fun _ => (ho out h).1, fun hb => ?_, fun hb => ?_⟩,
    fun h => absurd h hst, hc⟩, hst⟩
  · rw [(ho out h).1]
    omega
  · rw [(ho out h).2] at hb
    cases hb
  · rw [(ho out h).2] at hb
    cases hb

theorem logOk_closed {log : List PcmCall} (h : LogOk log) (fd : Int) : LogOk (.closed fd :: log) := by
  intro f ok hm
  have := h f ok (by simpa using hm)
  rw [List.length_cons]
  omega

theorem logOk_closeFd {log : List PcmCall} (h : LogOk log) (fd : Int) : LogOk (closeFd fd log) := by
  unfold closeFd
  split
  · exact logOk_closed h fd
  · exact h

/-- Standby disables the filters only when the cached device has a table. -/
theorem filters_standby (hf : FiltersWork p) {w : World} (hinv : PlaybackInv w) :
    PlaybackInv (outStandby p w) ∧ (FiltersFollow p w → (FiltersFollow p (outStandby p w) ↔
      ¬ (Started w ∧ w.hw.mCurSndDevice = -1 ∧ routedMask p w ≠ 0))) := by
  unfold outStandby
  cases ho : w.hw.mOutput with
  | none =>
    exact ⟨hinv, fun hP => iff_of_true hP fun h => not_started_of_none ho h.1⟩
  | some out =>
    have hs := hinv.stream out ho
    dsimp only
    cases hb : out.mStandby with
    | true =>
      rw [if_neg fun h => Bool.noConfusion h.1]
      have hidle : Idle w (setOut { out with mStandby := true } { w with pcmOut := w.pcmOut }) :=
        idle_setOut hinv hinv.log ⟨hs.fd_lt, fun _ => hs.closed hb, nofun, nofun⟩
          (by rw [started_iff ho hs, hb])
      refine ⟨hidle.inv, fun hP => iff_of_true ((filters_idle hidle).mpr hP) fun h => ?_⟩
      have := ((started_iff ho hs).mp h.1).1
      rw [hb] at this
      cases this
    | false =>
      rw [if_pos ⟨rfl, hs.opened hb⟩]
      have hstop := inv_stopped (w := setOut { out with mFd := -1, mStandby := true }
          { w with audpp := (msm72xx_enable_postproc p false w).1.audpp, pcmOut := .closed out.mFd :: w.pcmOut,
                   hw := { w.hw with playback_in_progress := false } })
        (logOk_closed hinv.log out.mFd) (fun o h => Option.some.inj h ▸ ⟨rfl, rfl⟩) hinv.cached
      obtain ⟨log, hlog⟩ := postproc_frame (p := p) false w
      have hmask := postproc_mask hf false w
      rw [hlog] at hstop hmask ⊢
      refine ⟨hstop.1, fun hP => ?_⟩
      rw [FiltersFollow, if_neg hstop.2]
      change audppMask log = 0 ↔ _
      change audppMask log = _ at hmask
      rw [hmask]
      cases ht : filterTable p.dev w.hw.mCurSndDevice with
      | none =>
        dsimp only
        rw [show audppMask w.audpp = _ from hP]
        rcases routedMask_of_none hinv ht with hn | hn
        · by_cases hst : Started w <;> simp [hst, hn]
        · simp [hn]
      | some id =>
        refine iff_of_true rfl fun h => ?_
        rw [h.2.1, filterTable_neg] at ht
        cases ht

/-- Closing the stream never disables its filters. -/
theorem filters_close {w : World} (hinv : PlaybackInv w) :
    PlaybackInv (closeOutputStream w) ∧ (FiltersFollow p w →
      (FiltersFollow p (closeOutputStream w) ↔ ¬ (Started w ∧ routedMask p w ≠ 0))) := by
  unfold closeOutputStream
  cases ho : w.hw.mOutput with
  | none => exact ⟨hinv, fun hP => iff_of_true hP fun h => not_started_of_none ho h.1⟩
  | some out =>
    have hstop := inv_stopped
      (w := { w with hw := { w.hw with mOutput := none }, pcmOut := closeFd out.mFd w.pcmOut })
      (logOk_closeFd hinv.log out.mFd) nofun hinv.cached
    refine ⟨hstop.1, fun hP => ?_⟩
    rw [FiltersFollow, if_neg hstop.2]
    change audppMask w.audpp = 0 ↔ _
    rw [show audppMask w.audpp = _ from hP]
    by_cases hst : Started w <;> simp [hst]

/-- A new stream is in standby. -/
theorem outSet_new (devices : Devices) (a : OutArgs) :
    (outSet devices a newStreamOut).1.mFd = -1 ∧ (outSet devices a newStreamOut).1.mStandby = true := by
  unfold outSet
  dsimp only
  repeat' split
  all_goals exact ⟨rfl, rfl⟩

theorem open_stream_idle {w : World} (hinv : PlaybackInv w) (devices : Devices) (a : OutArgs) :
    Idle w (openOutputStream devices a w).1 := by
  unfold openOutputStream
  by_cases ho : w.hw.mOutput.isSome
  · rw [if_pos ho]
    exact .refl hinv
  · rw [if_neg ho]
    dsimp only
    split
    · have hn : ¬ Started w := not_started_of_none (Option.not_isSome_iff_eq_none.mp ho)
      have hnew := inv_stopped
        (w := { w with hw := { w.hw with mOutput := some (outSet devices a newStreamOut).1 } })
        hinv.log (fun o h => Option.some.inj h ▸ outSet_new devices a) hinv.cached
      exact ⟨⟨_, _, rfl⟩, hnew.1, iff_of_false hnew.2 hn⟩
    · exact .refl hinv

theorem setOutDevices_idle {w : World} (hinv : PlaybackInv w) (devices : Devices) :
    Idle w (setOutDevices devices w) := by
  unfold setOutDevices
  cases ho : w.hw.mOutput with
  | none => exact .refl hinv
  | some out =>
    have hs := hinv.stream out ho
    exact idle_setOut hinv hinv.log ⟨hs.fd_lt, hs.closed, hs.opened, hs.started⟩
      (started_iff ho hs).symm

/-! ## What a route does to the filters -/

/-- The route of a playing output to a device without a table, with no device cached to
disable the filters of; or any route to a device with filters while
`playback_in_progress` was left set by a stream that is gone. -/
def MissesFilters (p : Platform) (input : Option Devices) (v : World) : Prop :=
  Sends p input v ∧
    (Started v ∧ v.hw.mCurSndDevice = -1 ∧ filterTable p.dev (target p input v).1 = none ∧
        routedMask p v ≠ 0 ∨
      ¬ Started v ∧ v.hw.playback_in_progress = true ∧
        deviceMask p (target p input v).2 (target p input v).1 ≠ 0)

instance (input : Option Devices) (v : World) : Decidable (MissesFilters p input v) :=
  inferInstanceAs (Decidable (_ ∧ (_ ∧ _ ∧ _ ∧ _ ∨ _ ∧ _ ∧ _)))

theorem started_congr {w w' : World} (ho : w'.hw.mOutput = w.hw.mOutput) (hl : w'.pcmOut = w.pcmOut) :
    Started w' ↔ Started w := by
  rw [Started, Started, ho, hl]

theorem inv_congr {w w' : World} (hinv : PlaybackInv w) (ho : w'.hw.mOutput = w.hw.mOutput)
    (hl : w'.pcmOut = w.pcmOut) (hp : w'.hw.playback_in_progress = w.hw.playback_in_progress)
    (hc : w'.hw.mCurSndDevice = -1 ∨ w'.hw.mCurSndDevice = w'.hw.mActSndDevice) : PlaybackInv w' := by
  refine ⟨?_, ?_, ?_, hc⟩
  · rw [hl]
    exact hinv.log
  · rw [ho, hl]
    exact hinv.stream
  · rw [started_congr ho hl, hp]
    exact hinv.playing

theorem inv_route (input : Option Devices) {v : World} (hinv : PlaybackInv v) :
    PlaybackInv (doRouting p input v).1 := by
  by_cases hs : Sends p input v
  · rw [doRouting_of_sends hs]
    refine inv_congr hinv ?_ (applyRoute_pcmOut _ _ _) ?_ ?_ <;> rw [applyRoute_hw]
    · exact selectMic_mOutput _ _
    · exact selectMic_playback_in_progress _ _
    · exact .inr rfl
  · rw [doRouting_of_not_sends hs]
    refine inv_congr hinv (selectMic_mOutput _ _) rfl (selectMic_playback_in_progress _ _) ?_
    simpa using hinv.cached

theorem filters_route (hf : FiltersWork p) (input : Option Devices) {v : World}
    (hinv : PlaybackInv v) (hP : FiltersFollow p v) :
    FiltersFollow p (doRouting p input v).1 ↔ ¬ MissesFilters p input v := by
  by_cases hs : Sends p input v
  · have hst : Started (doRouting p input v).1 ↔ Started v := by
      rw [doRouting_of_sends hs]
      exact started_congr (by rw [applyRoute_hw]; exact selectMic_mOutput _ _) (applyRoute_pcmOut _ _ _)
    have hmask : routedMask p (doRouting p input v).1 =
        deviceMask p (target p input v).2 (target p input v).1 := by
      rw [doRouting_of_sends hs, routedMask, applyRoute_hw]
      rfl
    rw [FiltersFollow, hmask, MissesFilters]
    simp only [hst, hs, true_and]
    rw [doRouting_of_sends hs, applyRoute_mask hf]
    simp only [selectMic_playback_in_progress, selectMic_mCurSndDevice, deviceMask]
    by_cases hstv : Started v
    · have hm : audppMask v.audpp = routedMask p v := by simpa only [FiltersFollow, if_pos hstv] using hP
      simp only [hstv, hinv.playing hstv, if_true, true_and, not_true_eq_false, false_and, or_false, hm]
      cases filterTable p.dev (target p input v).1 with
      | some id => simp
      | none =>
        cases hc : filterTable p.dev v.hw.mCurSndDevice with
        | none => rcases routedMask_of_none hinv hc with hn | hn <;> simp [hn]
        | some id =>
          have hn : v.hw.mCurSndDevice ≠ -1 := fun h => by rw [h, filterTable_neg] at hc; cases hc
          simp [hn]
    · have hm : audppMask v.audpp = 0 := by simpa only [FiltersFollow, if_neg hstv] using hP
      simp only [hstv, if_false, false_and, not_false_eq_true, true_and, false_or, hm]
      cases v.hw.playback_in_progress <;> cases filterTable p.dev (target p input v).1 <;>
        cases filterTable p.dev v.hw.mCurSndDevice <;> simp
  · rw [doRouting_of_not_sends hs]
    refine iff_of_true ?_ fun h => hs h.1
    have hst : Started { v with hw := selectMic v.hw input } ↔ Started v :=
      started_congr (selectMic_mOutput _ _) rfl
    simp only [FiltersFollow, hst, routedMask, selectMic_post_proc_feature_mask, selectMic_mActSndDevice]
    exact hP

/-! ## Runs of calls -/

/-- The calls after which the driver holds the right mask, with the state before them. -/
def FilterSafe (p : Platform) (w : World) : Call → Prop
  | .write buffer answers =>
    ¬ (StartsPlayback w buffer answers ∧ w.hw.mCurSndDevice = -1 ∧ routedMask p w ≠ 0)
  | .outStandby => ¬ (Started w ∧ w.hw.mCurSndDevice = -1 ∧ routedMask p w ≠ 0)
  | .closeOutputStream => ¬ (Started w ∧ routedMask p w ≠ 0)
  | c => ∀ r ∈ routing p w c, ¬ MissesFilters p r.2 r.1

/-- A call that touches neither the filters nor the output stream. -/
structure SameFilters (w w' : World) : Prop where
  audpp : w'.audpp = w.audpp
  pcmOut : w'.pcmOut = w.pcmOut
  mOutput : w'.hw.mOutput = w.hw.mOutput
  playback_in_progress : w'.hw.playback_in_progress = w.hw.playback_in_progress
  mActSndDevice : w'.hw.mActSndDevice = w.hw.mActSndDevice
  mCurSndDevice : w'.hw.mCurSndDevice = -1 ∨ w'.hw.mCurSndDevice = w.hw.mCurSndDevice
  post_proc_feature_mask : w'.hw.post_proc_feature_mask = w.hw.post_proc_feature_mask

theorem filters_same {w w' : World} (h : SameFilters w w') (hinv : PlaybackInv w) :
    PlaybackInv w' ∧ (FiltersFollow p w' ↔ FiltersFollow p w) := by
  constructor
  · refine inv_congr hinv h.mOutput h.pcmOut h.playback_in_progress ?_
    rw [h.mActSndDevice]
    exact h.mCurSndDevice.elim .inl fun hc => hc ▸ hinv.cached
  · simp only [FiltersFollow, started_congr h.mOutput h.pcmOut, routedMask, h.audpp, h.mActSndDevice,
      h.post_proc_feature_mask]

theorem sameFilters_setMode (mode : Int) (w : World) : SameFilters w (setMode p mode w) := by
  unfold setMode
  split
  · exact ⟨rfl, rfl, rfl, rfl, rfl, .inl rfl, rfl⟩
  · exact ⟨rfl, rfl, rfl, rfl, rfl, .inr rfl, rfl⟩

theorem sameFilters_setMicMute (state : Bool) (w : World) :
    SameFilters w (setMicMute p state w).1 := by
  unfold setMicMute setMicMute_nosync
  split
  · refine ⟨?_, ?_, ?_, ?_, ?_, .inr ?_, ?_⟩ <;> simp
  · exact ⟨rfl, rfl, rfl, rfl, rfl, .inr rfl, rfl⟩

theorem sameFilters_set_volume_rpc (device : Int) (method volume : Nat) (w : World) :
    SameFilters w (set_volume_rpc p device method volume w).1 := by
  unfold set_volume_rpc sndSetVolume
  repeat' split
  · exact ⟨rfl, rfl, rfl, rfl, rfl, .inr rfl, rfl⟩
  all_goals
    rename_i h
    obtain ⟨rfl, -⟩ := Prod.mk.inj h
    exact ⟨rfl, rfl, rfl, rfl, rfl, .inr rfl, rfl⟩

/-- What comes before the `doRouting` of a call leaves the filters alone. -/
theorem sameFilters_routing {w : World} {c : Call} {r : World × Option Devices}
    (hr : r ∈ routing p w c) : SameFilters w r.1 := by
  cases c with
  | doRouting input =>
    obtain rfl := Option.some.inj hr
    exact ⟨rfl, rfl, rfl, rfl, rfl, .inr rfl, rfl⟩
  | reroute input =>
    obtain rfl := Option.some.inj hr
    exact ⟨rfl, rfl, rfl, rfl, rfl, .inl rfl, rfl⟩
  | setFm on off =>
    obtain rfl := Option.some.inj hr
    obtain ⟨log, fd, he⟩ := switchFm_frame p on off w
    dsimp only
    rw [he]
    exact ⟨rfl, rfl, rfl, rfl, rfl, .inr rfl, rfl⟩
  | _ => cases hr

theorem filters_routing (hf : FiltersWork p) {w : World} (hinv : PlaybackInv w) {c : Call}
    {r : World × Option Devices} (hr : r ∈ routing p w c) :
    PlaybackInv (call p w c) ∧ (FiltersFollow p w →
      (FiltersFollow p (call p w c) ↔ ∀ r ∈ routing p w c, ¬ MissesFilters p r.2 r.1)) := by
  have hsame := filters_same (p := p) (sameFilters_routing hr) hinv
  rw [call_routing hr]
  refine ⟨inv_route r.2 hsame.1, fun hP => (filters_route hf r.2 hsame.1 (hsame.2.mpr hP)).trans ?_⟩
  refine ⟨fun h r' hr' => ?_, fun h => h r hr⟩
  obtain rfl : r = r' := Option.some.inj (hr.symm.trans hr')
  exact h

theorem filters_call (hf : FiltersWork p) (w : World) (c : Call) (hinv : PlaybackInv w) :
    PlaybackInv (call p w c) ∧
      (FiltersFollow p w → (FiltersFollow p (call p w c) ↔ FilterSafe p w c)) := by
  have hsame : ∀ {w'}, SameFilters w w' → routing p w c = none → PlaybackInv w' ∧
      (FiltersFollow p w → (FiltersFollow p w' ↔ ∀ r ∈ routing p w c, ¬ MissesFilters p r.2 r.1)) := by
    intro w' h hn
    have hw := filters_same (p := p) h hinv
    refine ⟨hw.1, fun hP => iff_of_true (hw.2.mpr hP) fun r hr => ?_⟩
    rw [hn] at hr
    cases hr
  have hidle : ∀ {w'}, Idle w w' → routing p w c = none → PlaybackInv w' ∧
      (FiltersFollow p w → (FiltersFollow p w' ↔ ∀ r ∈ routing p w c, ¬ MissesFilters p r.2 r.1)) := by
    intro w' h hn
    refine ⟨h.inv, fun hP => iff_of_true ((filters_idle h).mpr hP) fun r hr => ?_⟩
    rw [hn] at hr
    cases hr
  cases c with
  | doRouting input => exact filters_routing hf hinv (c := .doRouting input) rfl
  | reroute input => exact filters_routing hf hinv (c := .reroute input) rfl
  | setFm on off => exact filters_routing hf hinv (c := .setFm on off) rfl
  | setMode mode => exact hsame (sameFilters_setMode mode w) rfl
  | setMicMute state => exact hsame (sameFilters_setMicMute state w) rfl
  | setSettings | record | setProperty => exact hsame ⟨rfl, rfl, rfl, rfl, rfl, .inr rfl, rfl⟩ rfl
  | setVoiceVolume v => exact hsame (sameFilters_set_volume_rpc _ _ _ _) rfl
  | setFmVolume v =>
    have h := sameFilters_set_volume_rpc (p := p) (p.dev .current) sndMethodVoice (fmLevel p v)
      { w with hw := { w.hw with mFmVolume := fmLevel p v } }
    exact hsame ⟨h.1, h.2, h.3, h.4, h.5, h.6, h.7⟩ rfl
  | openOutputStream devices a => exact hidle (open_stream_idle hinv devices a) rfl
  | setOutDevices devices => exact hidle (setOutDevices_idle hinv devices) rfl
  | closeOutputStream => exact filters_close hinv
  | outStandby => exact filters_standby hf hinv
  | write buffer answers =>
    rcases write_spec hf hinv buffer answers with ⟨hst, hn, hbeg⟩ | ⟨hst, hidle⟩
    · refine ⟨inv_begins hinv hbeg, fun hP => (filters_begins hf hinv hP hn hbeg).trans ?_⟩
      exact not_congr ⟨fun h => ⟨hst, h⟩, fun h => h.2⟩
    · exact ⟨hidle.inv, fun hP => iff_of_true ((filters_idle hidle).mpr hP) fun h => hst h.1⟩

/-- In a run of calls, the driver holds the mask of the routed device in every state
exactly when no call of the run misses its filters. -/
theorem filtersFollow_iff_filterSafe (p : Platform) (hf : FiltersWork p) (calls : List Call) :
    Run.AllStates (call p) (FiltersFollow p) (boot p) calls ↔
      Run.AllSteps (call p) (FilterSafe p) (boot p) calls := by
  have hboot : PlaybackInv (boot p) ∧ ¬ Started (boot p) := inv_stopped nofun nofun (.inl rfl)
  have hP : FiltersFollow p (boot p) := by
    rw [FiltersFollow, if_neg hboot.2]
    rfl
  exact Run.allStates_iff_allSteps PlaybackInv (fun w c hinv => (filters_call hf w c hinv).1)
    (fun w c hinv => (filters_call hf w c hinv).2) hboot.1 hP calls

theorem stock_filtersWork : FiltersWork acceptAll := ⟨rfl, fun _ => rfl, fun _ => rfl, fun _ => rfl⟩

/-- Playback on the speaker, from the first buffer to standby. -/
theorem filters_follow_playback : Run.AllStates (call acceptAll) (FiltersFollow acceptAll)
    (boot acceptAll) [.openOutputStream deviceOutSpeaker ⟨none, none, none⟩, .doRouting none,
      .write [1, 2] [.wrote 2], .write [3, 4] [.wrote 2], .outStandby] := by
  refine (filtersFollow_iff_filterSafe acceptAll stock_filtersWork _).mpr ?_
  simp only [Run.allSteps_cons, Run.allSteps_nil]
  refine ⟨?_, ?_, ?_, ?_, ?_, trivial⟩
  all_goals
    unfold FilterSafe
    decide

/-- Standby after a mode change: the cached device is cleared, and the filters of the
speaker stay enabled without a stream. -/
theorem mode_change_keeps_filters : ¬ Run.AllStates (call acceptAll) (FiltersFollow acceptAll)
    (boot acceptAll) [.openOutputStream deviceOutSpeaker ⟨none, none, none⟩, .doRouting none,
      .write [1, 2] [.wrote 2], .write [3, 4] [.wrote 2], .setMode modeInCall, .outStandby] := by
  intro h
  have hlast := h.last
  unfold FiltersFollow at hlast
  revert hlast
  decide

end AudioPostProc
