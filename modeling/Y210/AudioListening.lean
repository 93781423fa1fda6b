import Y210.AudioNodes
import Y210.AudioRecording

/-!
# What the recording drivers are told

Any number of input streams share the recording nodes. Each keeps its calls in turn, also the one
whose rate check has taken its descriptor away behind its back: what it asks then goes to -1.
-/
namespace AudioListening

open AudioDrivers AudioHardware AudioStreams AudioRouting AudioCalls AudioInput AudioNodes Typestate

variable {p : Platform}

/-- The stage of an open stream's descriptor. -/
def stageOf (s : AudioStreamIn) : Stage := if s.mState = .started then .running else .ready

/-- A stream with a descriptor is open, and the descriptor has come as far as the stream says. -/
def Fits (s : AudioStreamIn) (log : List PcmCall) : Prop :=
  s.mFd = -1 ∨ 0 ≤ s.mFd ∧ s.mState ≠ .closed ∧ stage (pcmProtocol recording) log s.mFd = some (stageOf s)

/-- The calls came in turn, and the streams have descriptors of their own. -/
structure Listens (r : Recording) : Prop where
  node : Node recording r.pcmIn
  fits : ∀ ptr s, r.streams ptr = some s → Fits s r.pcmIn
  apart : ∀ ptr ptr' s s', r.streams ptr = some s → r.streams ptr' = some s' → 0 ≤ s.mFd → s.mFd = s'.mFd →
    ptr = ptr'

/-! ## One stream -/

/-- What calls of one stream leave: it fits the log, and the descriptors that were not its own are as
they were. -/
structure Turns (s : AudioStreamIn) (log : List PcmCall) (s' : AudioStreamIn) (log' : List PcmCall) : Prop where
  node : Node recording log'
  fits : Fits s' log'
  longer : log.length ≤ log'.length
  kept : ∀ fd : Int, 0 ≤ fd → fd < log.length → fd ≠ s.mFd →
    stage (pcmProtocol recording) log' fd = stage (pcmProtocol recording) log fd
  own : s'.mFd = -1 ∨ s'.mFd = s.mFd ∨ (log.length : Int) ≤ s'.mFd

section
variable {s s' s'' : AudioStreamIn} {log log' log'' : List PcmCall} {fd : Int} {g : Stage}

theorem Turns.refl (hn : Node recording log) (hf : Fits s log) : Turns s log s log :=
  ⟨hn, hf, le_rfl, fun _ _ _ _ => rfl, .inr (.inl rfl)⟩

theorem Turns.trans (h : Turns s log s' log') (h' : Turns s' log' s'' log'') : Turns s log s'' log'' := by
  have hlonger := h.longer
  have hown := h.own
  have hown' := h'.own
  refine ⟨h'.node, h'.fits, hlonger.trans h'.longer, fun fd hfd hlt hne => ?_, by omega⟩
  rw [h'.kept fd hfd (by omega) (by omega), h.kept fd hfd hlt hne]

/-- The members besides the descriptor and the state may change. -/
theorem Turns.members (h : Turns s log s' log') (hfd : s''.mFd = s'.mFd) (hs : s''.mState = s'.mState) :
    Turns s log s'' log' := by
  refine ⟨h.node, ?_, h.longer, h.kept, hfd ▸ h.own⟩
  unfold Fits stageOf
  rw [hfd, hs]
  exact h.fits

/-- A stream that lost its descriptor fits any log. -/
theorem Turns.gone (h : Turns s log s' log') (hfd : s''.mFd = -1) : Turns s log s'' log' :=
  ⟨h.node, .inl hfd, h.longer, h.kept, .inl hfd⟩

/-- Calls on the stream's descriptor, or on the next one. -/
theorem Turns.of_path (hn : Node recording log) (h : Path recording fd log log' g) (hfd : fd = s.mFd ∨ (log.length : Int) ≤ fd)
    (hf : Fits s' log') (hown : s'.mFd = -1 ∨ s'.mFd = s.mFd ∨ (log.length : Int) ≤ s'.mFd) :
    Turns s log s' log' := by
  refine ⟨h.node hn, hf, h.longer, fun i _ hlt hne => h.moves.others i ?_, hown⟩
  omega

/-- The open stream, as the start of a path. -/
theorem Fits.path (h : Fits s log) (hn : Node recording log) (hfd : s.mFd ≠ -1) : Path recording s.mFd log log (stageOf s) := by
  obtain ⟨hnonneg, -, hs⟩ := h.resolve_left hfd
  refine .refl hn hnonneg hs ?_
  unfold stageOf
  split <;> decide

theorem stageOf_held (s : AudioStreamIn) : stageOf s ≠ .fresh ∧ stageOf s ≠ .closed := by
  unfold stageOf
  split <;> decide

/-- The close of a stream. -/
theorem turns_close (hn : Node recording log) (hf : Fits s log) :
    Turns s log { s with mFd := if 0 ≤ s.mFd then -1 else s.mFd, mState := .closed } (closeFd s.mFd log) := by
  by_cases hfd : s.mFd = -1
  · have hneg : ¬ 0 ≤ s.mFd := by omega
    rw [closeFd, if_neg hneg, if_neg hneg]
    exact ⟨hn, .inl hfd, le_rfl, fun _ _ _ _ => rfl, .inl hfd⟩
  · have hpath := hf.path hn hfd
    rw [closeFd, if_pos hpath.bounds.1, if_pos hpath.bounds.1]
    exact .of_path hn (hpath.close (stageOf_held s)) (.inl rfl) (.inl rfl) (.inl rfl)

end

/-- A call on -1. -/
theorem turns_aside (hn : Node recording log) (hfd : s.mFd = -1) {c : PcmCall} (hc : descriptor c = none) :
    Turns s log s (c :: log) := by
  refine ⟨node_aside hc hn, .inl hfd, ?_, fun fd _ _ _ => stage_cons_aside hc fd, .inl hfd⟩
  simp

/-- A start that the driver accepts. -/
theorem turns_started (hn : Node recording log) (hf : Fits s log) (hne : s.mState ≠ .started) :
    Turns s log { s with mState := .started } (.started s.mFd true :: log) := by
  by_cases hfd : s.mFd = -1
  · refine (turns_aside hn hfd ?_).gone hfd
    rw [descriptor, hfd, if_neg (by decide)]
  · have hpath := hf.path hn hfd
    rw [stageOf, if_neg hne] at hpath
    have hstart := hpath.call (c := .started s.mFd true) rfl rfl
    exact .of_path hn hstart (.inl rfl) (.inr ⟨hpath.bounds.1, by simp, hstart.moves.stage⟩) (.inr (.inl rfl))

/-- A start that it refuses, and the standby behind it. -/
theorem turns_refused (hn : Node recording log) (hf : Fits s log) (hne : s.mState ≠ .started) :
    Turns s log { s with mFd := if 0 ≤ s.mFd then -1 else s.mFd, mState := .closed }
      (closeFd s.mFd (.started s.mFd false :: log)) := by
  by_cases hfd : s.mFd = -1
  · have hneg : ¬ 0 ≤ s.mFd := by omega
    rw [closeFd, if_neg hneg, if_neg hneg]
    refine (turns_aside hn hfd ?_).gone hfd
    rw [descriptor, if_neg hneg]
  · have hpath := hf.path hn hfd
    rw [stageOf, if_neg hne] at hpath
    have hstart := hpath.call (c := .started s.mFd false) rfl rfl
    rw [closeFd, if_pos hpath.bounds.1, if_pos hpath.bounds.1]
    exact .of_path hn (hstart.close (by decide)) (.inl rfl) (.inl rfl) (.inl rfl)

/-! ## The opening -/

/-- What the branch of `set` for a format leaves, on a stream without a descriptor. -/
structure Sets (log : List PcmCall) (r : SetResult) : Prop where
  node : Node recording r.log
  longer : log.length ≤ r.log.length
  kept : ∀ fd : Int, fd < log.length → stage (pcmProtocol recording) r.log fd = stage (pcmProtocol recording) log fd
  accepted : r.status = noError → r.stream.mFd = log.length ∧
    stage (pcmProtocol recording) r.log log.length = some .ready
  refused : r.status ≠ noError → r.stream.mFd = -1

section
variable {devices : Devices} {a : InArgs} {s s' : AudioStreamIn} {log log' : List PcmCall} {status : Status}
  {proposal : Option InArgs} {g : Stage}

theorem sets_refused (hn : Node recording log) (h : Path recording log.length log log' g) (hs : status ≠ noError) (hfd : s'.mFd = -1) :
    Sets log ⟨s', proposal, log', status⟩ :=
  ⟨h.node hn, h.longer, fun fd hlt => h.moves.others fd (by omega), fun hok => absurd hok hs, fun _ => hfd⟩

theorem sets_accepted (hn : Node recording log) (h : Path recording log.length log log' .ready) (hfd : s'.mFd = log.length) :
    Sets log ⟨s', proposal, log', noError⟩ :=
  ⟨h.node hn, h.longer, fun fd hlt => h.moves.others fd (by omega), fun _ => ⟨hfd, h.moves.stage⟩,
    fun hs => absurd rfl hs⟩

theorem sets_unopened (hn : Node recording log) (hs : status ≠ noError) (hfd : s'.mFd = -1) :
    Sets log ⟨s', proposal, .openFailed :: log, status⟩ := by
  refine ⟨node_aside rfl hn, ?_, fun fd _ => stage_cons_aside rfl fd, fun hok => absurd hok hs, fun _ => hfd⟩
  simp

theorem setPcm_sets (hn : Node recording log) (hfd : s.mFd = -1) : Sets log (setPcm p devices a s log) := by
  have hneg : (-1 : Status) ≠ noError := by decide
  have hget := fun ok => (path_opened hn).call (c := .getConfig log.length ok) rfl rfl
  have hset := fun cfg ok => (hget true).call (c := .setConfig log.length cfg ok) rfl rfl
  unfold setPcm
  simp only [List.length_cons]
  by_cases h0 : p.pcmInOk log.length = true
  · by_cases h1 : p.pcmInOk (log.length + 1) = true
    · by_cases h2 : p.pcmInOk (log.length + 1 + 1) = true
      · have hagain := fun cfg ok => (hset cfg true).call (c := .getConfig log.length ok) rfl rfl
        by_cases h3 : p.pcmInOk (log.length + 1 + 1 + 1) = true
        · simp only [h0, h1, h2, h3, Bool.true_eq_false, if_false]
          exact sets_accepted hn (hagain _ true) rfl
        · simp only [h0, h1, h2, h3, Bool.true_eq_false, if_false, if_true]
          exact sets_refused hn ((hagain _ false).close (by decide)) hneg rfl
      · have hasked := fun cfg ok => (hset cfg false).call (c := .getConfig log.length ok) rfl rfl
        simp only [h0, h1, h2, Bool.true_eq_false, if_false, if_true]
        exact sets_refused hn ((hasked _ _).close (by decide)) hneg rfl
    · simp only [h0, h1, Bool.true_eq_false, if_false, if_true]
      exact sets_refused hn ((hget false).close (by decide)) hneg rfl
  · simp only [h0, if_true]
    exact sets_unopened hn hneg hfd

theorem setAmr_sets (hn : Node recording log) (hfd : s.mFd = -1) : Sets log (setAmr p devices a s log) := by
  have hneg : (-1 : Status) ≠ noError := by decide
  have hone : (1 : Status) ≠ noError := by decide
  have hget := fun ok => (path_opened hn).call (c := .getConfig log.length ok) rfl rfl
  have hset := fun cfg ok => (hget true).call (c := .setVoicememo log.length cfg ok) rfl rfl
  have hagain := fun cfg ok => (hset cfg true).call (c := .getVoicememo log.length ok) rfl rfl
  unfold setAmr
  simp only [List.length_cons]
  by_cases h0 : p.pcmInOk log.length = true
  · by_cases h1 : p.pcmInOk (log.length + 1) = true
    · by_cases h2 : p.pcmInOk (log.length + 1 + 1) = true
      · by_cases h3 : p.pcmInOk (log.length + 1 + 1 + 1) = true
        · simp only [h0, h1, h2, h3, Bool.true_eq_false, if_false]
          exact sets_accepted hn (hagain _ true) rfl
        · simp only [h0, h1, h2, h3, Bool.true_eq_false, if_false, if_true]
          exact sets_refused hn ((hagain _ false).close (by decide)) hone rfl
      · simp only [h0, h1, h2, Bool.true_eq_false, if_false, if_true]
        exact sets_refused hn ((hset _ false).close (by decide)) hone rfl
    · simp only [h0, h1, Bool.true_eq_false, if_false, if_true]
      exact sets_refused hn ((hget false).close (by decide)) hone rfl
  · simp only [h0, if_true]
    exact sets_unopened hn hneg hfd

theorem setAac_sets (hn : Node recording log) (hfd : s.mFd = -1) : Sets log (setAac p devices a s log) := by
  have hone : (1 : Status) ≠ noError := by decide
  have hget := fun ok => (path_opened hn).call (c := .getConfig log.length ok) rfl rfl
  have hset := fun cfg ok => (hget true).call (c := .setConfig log.length cfg ok) rfl rfl
  unfold setAac
  simp only [List.length_cons]
  by_cases h0 : p.pcmInOk log.length = true
  · by_cases h1 : p.pcmInOk (log.length + 1) = true
    · by_cases h2 : p.pcmInOk (log.length + 1 + 1) = true
      · simp only [h0, h1, h2, Bool.true_eq_false, if_false]
        exact sets_accepted hn (hset _ true) rfl
      · simp only [h0, h1, h2, Bool.true_eq_false, if_false, if_true]
        exact sets_refused hn ((hset _ false).close (by decide)) hone rfl
    · simp only [h0, h1, Bool.true_eq_false, if_false, if_true]
      exact sets_refused hn ((hget false).close (by decide)) hone rfl
  · simp only [h0, if_true]
    exact sets_unopened hn hone hfd

theorem setFormat_sets (devices : Devices) (a : InArgs) (hn : Node recording log) (hfd : s.mFd = -1) :
    Sets log (setFormat p devices a s log) := by
  unfold setFormat
  split
  · exact setPcm_sets hn hfd
  · split
    · exact setAmr_sets hn hfd
    · exact setAac_sets hn hfd

/-- `set` on any stream. -/
theorem inSet_turns (devices : Devices) (a : InArgs) {w : World} (hn : Node recording w.pcmIn) (hf : Fits s w.pcmIn) :
    Turns s w.pcmIn (inSet p devices a s w).1 (inSet p devices a s w).2.2.1.pcmIn := by
  unfold inSet
  cases checkInArgs a with
  | some proposal => exact .refl hn hf
  | none =>
    dsimp only
    split
    · exact (Turns.refl hn hf).members rfl rfl
    · rename_i hneg
      have hfd : s.mFd = -1 := by
        rcases hf with hfd | ⟨hfd, -⟩
        · exact hfd
        · exact absurd hfd hneg
      have hsets := setFormat_sets (p := p) (s := { s with mHardware := true }) devices a hn hfd
      generalize setFormat p devices a { s with mHardware := true } w.pcmIn = r at hsets ⊢
      have hkept := fun fd (_ : (0 : Int) ≤ fd) hlt (_ : fd ≠ s.mFd) => hsets.kept fd hlt
      split
      · rename_i hs
        exact ⟨hsets.node, .inl (hsets.refused hs), hsets.longer, hkept, .inl (hsets.refused hs)⟩
      · rename_i hs
        obtain ⟨hnew, hready⟩ := hsets.accepted (not_not.mp hs)
        have hopened : Fits { r.stream with mState := .opened } r.log := by
          refine .inr ⟨?_, by simp, ?_⟩
          · rw [hnew]
            exact Int.natCast_nonneg _
          · rw [hnew]
            exact hready
        have hturns : Turns s w.pcmIn { r.stream with mState := .opened } r.log := by
          refine ⟨hsets.node, hopened, hsets.longer, hkept, .inr (.inr ?_)⟩
          rw [hnew]
        split
        · exact (hturns.trans (turns_close hsets.node hopened)).gone rfl
        · exact hturns

end

/-! ## One stream of the world -/

/-- Where calls of the stream at `ptr` leave it, the log and the other streams. -/
structure Turned (ptr : Nat) (s : AudioStreamIn) (w : World) (t : AudioStreamIn) (w' : World) : Prop where
  turns : Turns s w.pcmIn t w'.pcmIn
  streams : w'.hw.streams = Function.update w.hw.streams ptr (some t)

section
variable {ptr : Nat} {s t u : AudioStreamIn} {w v w' : World}

theorem Turned.trans (h : Turned ptr s w t v) (h' : Turned ptr t v u w') : Turned ptr s w u w' := by
  refine ⟨h.turns.trans h'.turns, ?_⟩
  rw [h'.streams, h.streams, Function.update_idem]

theorem Turned.self (h : Turned ptr s w t w') : w'.hw.streams ptr = some t := by
  rw [h.streams, Function.update_self]

/-- Only what the recording side stores counts. -/
theorem Turned.of_recording (h : Turned ptr s w t v) (he : recordingOf w' = recordingOf v) :
    Turned ptr s w t w' := by
  have hs : w'.hw.streams = v.hw.streams := congrArg Recording.streams he
  have hl : w'.pcmIn = v.pcmIn := congrArg Recording.pcmIn he
  refine ⟨?_, hs.trans h.streams⟩
  rw [hl]
  exact h.turns

theorem turned_refl (hs : w.hw.streams ptr = some s) (hn : Node recording w.pcmIn) (hf : Fits s w.pcmIn) :
    Turned ptr s w s w := by
  refine ⟨.refl hn hf, ?_⟩
  rw [← hs, Function.update_eq_self]

theorem turned_setStream (h : Turns s w.pcmIn t v.pcmIn) (hs : v.hw.streams = w.hw.streams) :
    Turned ptr s w t (setStream ptr t v) := by
  refine ⟨h, ?_⟩
  rw [← hs]
  rfl

theorem turned_inStandby (hs : w.hw.streams ptr = some s) (hn : Node recording w.pcmIn) (hf : Fits s w.pcmIn) :
    ∃ t, Turned ptr s w t (inStandby p ptr w).1 := by
  have hself := turned_refl hs hn hf
  by_cases hhw : s.mHardware = true
  · by_cases hc : s.mState = .closed
    · exact ⟨s, hself.of_recording (inStandby_idle hs hc)⟩
    · have hopen := inStandby_open (p := p) hs hhw hc
      refine ⟨_, ?_, congrArg Recording.streams hopen⟩
      have hl : (inStandby p ptr w).1.pcmIn = closeFd s.mFd w.pcmIn := congrArg Recording.pcmIn hopen
      rw [hl]
      exact turns_close hn hf
  · refine ⟨s, ?_⟩
    have hsame : inStandby p ptr w = (w, -1) := by simp only [inStandby, hs, if_pos (Bool.eq_false_iff.mpr hhw)]
    rw [hsame]
    exact hself

/-! ## Reading -/

theorem reopen_turns (hn : Node recording w.pcmIn) (hf : Fits s w.pcmIn) :
    Turns s w.pcmIn (reopen p s w).1 (reopen p s w).2.1.pcmIn := by
  unfold reopen
  split
  · have hset := inSet_turns (p := p) s.mDevices ⟨s.mFormat, s.mChannels, s.mSampleRate⟩ hn hf
    dsimp only
    split <;> exact hset.members rfl rfl
  · exact .refl hn hf

theorem inSet_hardware (devices : Devices) (a : InArgs) (hhw : s.mHardware = true) :
    (inSet p devices a s w).1.mHardware = true := by
  have hends : Ends p a { s with mHardware := true } w.pcmIn
      (setFormat p devices a { s with mHardware := true } w.pcmIn) := setFormat_ends
  have hformat : (setFormat p devices a { s with mHardware := true } w.pcmIn).stream.mHardware = true := by
    unfold Ends at hends
    split at hends <;> exact hends.hardware
  unfold inSet
  split
  · exact hhw
  · dsimp only
    split
    · rfl
    · split
      · exact hformat
      · split <;> exact hformat

theorem reopen_hardware (hhw : s.mHardware = true) : (reopen p s w).1.mHardware = true := by
  unfold reopen
  split
  · have hset := inSet_hardware (p := p) (w := w) s.mDevices ⟨s.mFormat, s.mChannels, s.mSampleRate⟩ hhw
    dsimp only
    split <;> exact hset
  · exact hhw

/-- The start of an opened stream; a refused one is closed. -/
theorem turned_startDevice (ptr : Nat) (hn : Node recording w.pcmIn) (hf : Fits s w.pcmIn) (hhw : s.mHardware = true)
    (hne : s.mState ≠ .started) :
    ∃ t, Turned ptr s w t (startDevice p ptr s w).1 ∧
      ∀ t' ∈ (startDevice p ptr s w).2, t' = t ∧ t.mState = .started := by
  have hroute := recordingOf_doRouting (p := p) (some s.mDevices)
    (clearCurDevice (setStream ptr { s with mState := .started } w))
  unfold startDevice
  dsimp only
  generalize (doRouting p (some s.mDevices) (clearCurDevice (setStream ptr { s with mState := .started } w))).1 = v
    at hroute ⊢
  have hstreams : v.hw.streams = Function.update w.hw.streams ptr (some { s with mState := .started }) :=
    congrArg Recording.streams hroute
  have hlog : v.pcmIn = w.pcmIn := congrArg Recording.pcmIn hroute
  cases hok : p.pcmInOk v.pcmIn.length with
  | false =>
    simp only [if_true]
    have hlive : ({ v with pcmIn := .started s.mFd false :: v.pcmIn } : World).hw.streams ptr =
        some { s with mState := .started } := by
      change v.hw.streams ptr = _
      rw [hstreams, Function.update_self]
    have hopen := inStandby_open (p := p) hlive hhw (by simp)
    refine ⟨{ s with mFd := if 0 ≤ s.mFd then -1 else s.mFd, mState := .closed }, ⟨?_, ?_⟩,
      fun t' ht' => by cases ht'⟩
    · have hl := congrArg Recording.pcmIn hopen
      change (inStandby p ptr _).1.pcmIn = closeFd s.mFd (.started s.mFd false :: v.pcmIn) at hl
      rw [hl, hlog]
      exact turns_refused hn hf hne
    · refine (congrArg Recording.streams hopen).trans ?_
      dsimp only
      rw [hstreams, Function.update_idem]
  | true =>
    simp only [Bool.true_eq_false, if_false]
    obtain ⟨log, hpre⟩ := preproc_frame (p := p) true { v with pcmIn := .started s.mFd true :: v.pcmIn }
    rw [hpre]
    refine ⟨{ s with mState := .started }, ⟨?_, hstreams⟩, fun t' ht' => ?_⟩
    · change Turns _ _ _ (.started s.mFd true :: v.pcmIn)
      rw [hlog]
      exact turns_started hn hf hne
    · obtain rfl := Option.some.inj ht'
      exact ⟨rfl, rfl⟩

theorem turned_startInput (hs : w.hw.streams ptr = some s) (hn : Node recording w.pcmIn) (hf : Fits s w.pcmIn) :
    ∃ t, Turned ptr s w t (startInput p ptr s w).1 ∧
      ∀ t' ∈ (startInput p ptr s w).2, t' = t ∧ t.mState = .started := by
  have hself := turned_refl hs hn hf
  unfold startInput
  by_cases hhw : s.mHardware = false
  · rw [if_pos hhw]
    exact ⟨s, hself, fun t' ht' => by cases ht'⟩
  · rw [if_neg hhw]
    have hturns := reopen_turns (p := p) hn hf
    have hhw' := reopen_hardware (p := p) (w := w) (Bool.not_eq_false _ ▸ hhw)
    obtain ⟨log, index, hframe⟩ := reopen_frame (p := p) s w
    generalize reopen p s w = r at hturns hhw' hframe ⊢
    obtain ⟨s', v, status⟩ := r
    dsimp only at hturns hhw' hframe ⊢
    have hset : Turned ptr s w s' (setStream ptr s' v) := turned_setStream hturns (by rw [hframe])
    split
    · exact ⟨s', hset, fun t' ht' => by cases ht'⟩
    · split
      · rename_i hstarted
        refine ⟨s', hset, fun t' ht' => ?_⟩
        obtain rfl := Option.some.inj ht'
        exact ⟨rfl, hstarted⟩
      · rename_i hne
        obtain ⟨t, ht, hgo⟩ := turned_startDevice (p := p) (w := setStream ptr s' v) ptr hturns.node hturns.fits
          hhw' hne
        exact ⟨t, hset.trans ht, hgo⟩

/-- What holds of a log and outlives the requests to the driver holds behind the loop of `read`. -/
theorem readLoop_keeps {C : List PcmCall → Prop} {fd : Int} (hC : ∀ log n, C log → C (.read fd n :: log))
    (isAac : Bool) (answers : List ReadAnswer) {st : ReadState} (h : C st.log) :
    C (readLoop isAac fd answers st).1.log := by
  have hslot : ∀ st : ReadState, C st.log → C (nextSlot isAac st).1.log := by
    intro st h
    rw [AudioRecording.nextSlot_log]
    exact h
  have htake : ∀ (st : ReadState) chunk, C st.log → C (takeChunk isAac chunk st).log := by
    intro st chunk h
    rw [AudioRecording.takeChunk_log]
    exact h
  induction answers generalizing st with
  | nil =>
    have hnext := hslot st h
    rw [readLoop]
    generalize nextSlot isAac st = r at hnext ⊢
    obtain ⟨st', more⟩ := r
    cases more with
    | false => exact hnext
    | true => exact hC _ _ hnext
  | cons answer rest ih =>
    have hnext := hslot st h
    rw [readLoop]
    generalize nextSlot isAac st = r at hnext ⊢
    obtain ⟨st', more⟩ := r
    cases more with
    | false => exact hnext
    | true =>
      have hasked : C (askDriver fd st').log := hC _ _ hnext
      cases answer with
      | error => exact hasked
      | again => exact ih hasked
      | data chunk =>
        dsimp only
        split
        · exact hasked
        · split
          · exact ih (htake _ _ hasked)
          · exact htake _ _ hasked

theorem readFrames_turns (hn : Node recording w.pcmIn) (hf : Fits s w.pcmIn) (hs : s.mState = .started) (mem : Records.Memory)
    (bytes : Nat) (answers : List ReadAnswer) :
    Turns s w.pcmIn s (readFrames s mem bytes answers w.pcmIn).1.log := by
  unfold readFrames
  refine readLoop_keeps (C := Turns s w.pcmIn s) (fun log n h => ?_) _ _ ?_
  · by_cases hfd : s.mFd = -1
    · refine h.trans (turns_aside h.node hfd ?_)
      rw [descriptor, hfd, if_neg (by decide)]
    · have hpath := h.fits.path h.node hfd
      have hrunning : stageOf s = .running := if_pos hs
      rw [hrunning] at hpath
      have hread := hpath.call (c := .read s.mFd n) rfl rfl
      refine h.trans (.of_path h.node hread (.inl rfl) (.inr ⟨hpath.bounds.1, ?_, ?_⟩) (.inr (.inl rfl)))
      · simp [hs]
      · rw [hrunning]
        exact hread.moves.stage
  · have hself := Turns.refl hn hf
    split <;> exact hself

theorem turned_read (hs : w.hw.streams ptr = some s) (hn : Node recording w.pcmIn) (hf : Fits s w.pcmIn) (mem : Records.Memory)
    (bytes : Nat) (answers : List ReadAnswer) :
    ∃ t, Turned ptr s w t (AudioStreams.read p ptr mem bytes answers w).1 := by
  obtain ⟨t, ht, hgo⟩ := turned_startInput (p := p) hs hn hf
  simp only [AudioStreams.read, hs]
  generalize startInput p ptr s w = r at ht hgo ⊢
  obtain ⟨v, next⟩ := r
  cases next with
  | none => exact ⟨t, ht⟩
  | some s' =>
    obtain ⟨rfl, hstarted⟩ := hgo s' rfl
    have hframes := readFrames_turns ht.turns.node ht.turns.fits hstarted mem bytes answers
    dsimp only
    generalize readFrames s' mem bytes answers v.pcmIn = r at hframes ⊢
    obtain ⟨st, fin, rest⟩ := r
    refine ⟨{ s' with mFirstread := st.firstread, mRetryCount := st.retries }, ?_, ?_⟩
    · exact (ht.turns.trans hframes).members rfl rfl
    · change Function.update v.hw.streams ptr _ = _
      rw [ht.streams, Function.update_idem]

end

/-! ## One operation -/

section
variable {ptr : Nat} {s t : AudioStreamIn} {w w' : World}

/-- The other streams do not notice. -/
theorem Listens.put (h : Listens (recordingOf w)) (ht : Turned ptr s w t w')
    (hs : ∀ ptr' s', ptr' ≠ ptr → w.hw.streams ptr' = some s' → 0 ≤ s'.mFd → s'.mFd ≠ s.mFd) :
    Listens (recordingOf w') := by
  have hother : ∀ ptr', ptr' ≠ ptr → w'.hw.streams ptr' = w.hw.streams ptr' := by
    intro ptr' hne
    rw [ht.streams, Function.update_of_ne hne]
  have hlow : ∀ {ptr' s'}, w.hw.streams ptr' = some s' → 0 ≤ s'.mFd → s'.mFd < w.pcmIn.length := by
    intro ptr' s' hs' hfd
    have hpath := (h.fits ptr' s' hs').path h.node (by omega)
    exact hpath.bounds.2
  have happart : ∀ {ptr' s'}, ptr' ≠ ptr → w.hw.streams ptr' = some s' → 0 ≤ s'.mFd → s'.mFd ≠ t.mFd := by
    intro ptr' s' hne hs' hfd heq
    have hlt := hlow hs' hfd
    rcases ht.turns.own with hown | hown | hown
    · omega
    · exact hs ptr' s' hne hs' hfd (heq.trans hown)
    · omega
  constructor
  · exact ht.turns.node
  · intro ptr' s' hs'
    by_cases hne : ptr' = ptr
    · subst hne
      obtain rfl := Option.some.inj (ht.self.symm.trans hs')
      exact ht.turns.fits
    · change w'.hw.streams ptr' = some s' at hs'
      rw [hother ptr' hne] at hs'
      rcases h.fits ptr' s' hs' with hfd | ⟨hfd, hopen, hstage⟩
      · exact .inl hfd
      · refine .inr ⟨hfd, hopen, ?_⟩
        exact (ht.turns.kept _ hfd (hlow hs' hfd) (hs ptr' s' hne hs' hfd)).trans hstage
  · intro a b x y hx hy hfd heq
    change w'.hw.streams a = some x at hx
    change w'.hw.streams b = some y at hy
    by_cases ha : a = ptr
    · by_cases hb : b = ptr
      · exact ha.trans hb.symm
      · subst ha
        obtain rfl := Option.some.inj (ht.self.symm.trans hx)
        rw [hother b hb] at hy
        exact absurd heq.symm (happart hb hy (heq ▸ hfd))
    · rw [hother a ha] at hx
      by_cases hb : b = ptr
      · subst hb
        obtain rfl := Option.some.inj (ht.self.symm.trans hy)
        exact absurd heq (happart ha hx hfd)
      · rw [hother b hb] at hy
        exact h.apart a b x y hx hy hfd heq

/-- Calls of a live stream. -/
theorem Listens.turned (h : Listens (recordingOf w)) (hs : w.hw.streams ptr = some s)
    (ht : Turned ptr s w t w') : Listens (recordingOf w') :=
  h.put ht fun ptr' s' hne hs' hfd heq => hne (h.apart ptr' ptr s' s hs' hs hfd heq)

/-- The destruction of a stream. -/
theorem Listens.destroyed (h : Listens (recordingOf w)) (hs : w'.hw.streams = Function.update w.hw.streams ptr none)
    (hl : w'.pcmIn = w.pcmIn) : Listens (recordingOf w') := by
  have hlive : ∀ {ptr' s'}, w'.hw.streams ptr' = some s' → w.hw.streams ptr' = some s' := by
    intro ptr' s' hs'
    rw [hs] at hs'
    by_cases hne : ptr' = ptr
    · subst hne
      rw [Function.update_self] at hs'
      cases hs'
    · rwa [Function.update_of_ne hne] at hs'
  constructor
  · change Node recording w'.pcmIn
    rw [hl]
    exact h.node
  · intro ptr' s' hs'
    change Fits s' w'.pcmIn
    rw [hl]
    exact h.fits ptr' s' (hlive hs')
  · intro a b x y hx hy
    exact h.apart a b x y (hlive hx) (hlive hy)

theorem listens_openInputStream {devices : Devices} {a : InArgs} (h : Listens (recordingOf w)) :
    Listens (recordingOf (openInputStream p ptr devices a w).1) := by
  unfold openInputStream
  split
  · exact h
  · rename_i hguard
    split
    · exact h
    · have hnone : w.hw.streams ptr = none := by
        rw [not_or, Option.not_isSome_iff_eq_none] at hguard
        exact hguard.2
      have hset := inSet_turns (p := p) (s := newStreamIn) (w := w) devices a h.node (.inl rfl)
      obtain ⟨log, index, hframe⟩ := inSet_frame (p := p) devices a newStreamIn w
      generalize inSet p devices a newStreamIn w = r at hset hframe ⊢
      obtain ⟨s, proposal, v, status⟩ := r
      dsimp only at hset hframe ⊢
      have hcreated : Turned ptr newStreamIn w s (setStream ptr s v) := turned_setStream hset (by rw [hframe])
      have hnew : ∀ {t v'}, Turned ptr newStreamIn w t v' → Listens (recordingOf v') := by
        intro t v' ht
        refine h.put ht fun ptr' s' _ _ hfd heq => ?_
        have hidle : newStreamIn.mFd = -1 := rfl
        omega
      split
      · obtain ⟨t, ht⟩ := turned_inStandby (p := p) hcreated.self hcreated.turns.node hcreated.turns.fits
        exact (hnew (hcreated.trans ht)).destroyed rfl rfl
      · exact hnew ⟨hcreated.turns, hcreated.streams⟩

theorem listens_step (op : Op) (h : Listens (recordingOf w)) : Listens (recordingOf (step p w op)) := by
  by_cases hop : OnInput op
  · cases op with
    | openInputStream ptr devices a => exact listens_openInputStream h
    | closeInputStream ptr =>
      rw [step, closeInputStream]
      split
      · cases hs : w.hw.streams ptr with
        | none =>
          have hsame : inStandby p ptr w = (w, noError) := by simp only [inStandby, hs]
          rw [hsame]
          exact h.destroyed rfl rfl
        | some s =>
          obtain ⟨t, ht⟩ := turned_inStandby (p := p) hs h.node (h.fits ptr s hs)
          exact (h.turned hs ht).destroyed rfl rfl
      · exact h
    | inSetParameters ptr kv =>
      rw [step]
      cases hd : inputRouting p ptr kv w with
      | none =>
        rw [inSetParameters_none hd]
        exact h
      | some d =>
        obtain ⟨s, hs, he⟩ := inSetParameters_routes hd
        have hset : Turned ptr s w { s with mDevices := d } (setStream ptr { s with mDevices := d } w) :=
          turned_setStream ((Turns.refl h.node (h.fits ptr s hs)).members rfl rfl) rfl
        rw [he]
        exact h.turned hs (hset.of_recording (recordingOf_doRouting _ _))
    | read ptr mem bytes answers =>
      rw [step]
      cases hs : w.hw.streams ptr with
      | none => simpa only [AudioStreams.read, hs] using h
      | some s =>
        obtain ⟨t, ht⟩ := turned_read (p := p) hs h.node (h.fits ptr s hs) mem bytes answers
        exact h.turned hs ht
    | inStandby ptr =>
      rw [step]
      cases hs : w.hw.streams ptr with
      | none => simpa only [inStandby, hs] using h
      | some s =>
        obtain ⟨t, ht⟩ := turned_inStandby (p := p) hs h.node (h.fits ptr s hs)
        exact h.turned hs ht
    | _ => exact hop.elim
  · rw [recordingOf_step hop]
    exact h

end

/-! ## Runs -/

theorem listens_boot : Listens (recordingOf (boot p)) := by
  constructor
  · exact node_nil
  · intro ptr s hs
    cases hs
  · intro ptr ptr' s s' hs
    cases hs

/-- However the calls of the streams are mixed and whatever the driver refuses or reports, each
descriptor gets its calls in turn, and its stream alone uses it. -/
theorem recording_in_turn (p : Platform) (ops : List Op) :
    Run.AllStates (step p) (fun w => Listens (recordingOf w)) (boot p) ops := by
  refine Run.allStates_of_invariant (fun w op h => ?_) ?_ ops
  · exact listens_step op h
  · exact listens_boot

end AudioListening
