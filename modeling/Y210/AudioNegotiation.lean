import Y210.AudioRecording

/-!
# What an input stream says about itself

`openInputStream` settles format, channels and rate with the client. A `read` that opens
the device again hands the addresses of these members to `set`, and the driver's answers
end up in them.
-/
namespace AudioNegotiation

open AudioDrivers AudioHardware AudioStreams AudioRouting AudioCalls AudioInput AudioRecording

variable {p : Platform}

/-- `format()`, `channels()`, `sampleRate()`, `bufferSize()` and `devices()`. -/
structure Shape where
  format : Int
  channels : BitVec 32
  sampleRate : BitVec 32
  bufferSize : Nat
  devices : Devices
  deriving DecidableEq

def shapeOf (s : AudioStreamIn) : Shape := ⟨s.mFormat, s.mChannels, s.mSampleRate, s.mBufferSize, s.mDevices⟩

def shapes (w : World) (ptr : Nat) : Option Shape := (w.hw.streams ptr).map shapeOf

/-- A world, and what the clients of its streams go by. -/
structure Session where
  world : World
  agreed : Nat → Option Shape

/-- The arguments as `openInputStream` leaves them, with the buffer size of the new stream, and
the last routing. -/
def agree (p : Platform) (t : Session) : Op → Nat → Option Shape
  | .openInputStream ptr devices a =>
    let r := openInputStream p ptr devices a t.world
    if (t.world.hw.streams ptr).isSome then t.agreed
    else Function.update t.agreed ptr ((r.1.hw.streams ptr).map fun s =>
      ⟨r.2.1.format, r.2.1.channels, r.2.1.sampleRate, s.mBufferSize, devices⟩)
  | .inSetParameters ptr kv =>
    match inputRouting p ptr kv t.world with
    | some d => Function.update t.agreed ptr ((t.agreed ptr).map fun sh => { sh with devices := d })
    | none => t.agreed
  | _ => t.agreed

def advance (p : Platform) (t : Session) (op : Op) : Session := ⟨step p t.world op, agree p t op⟩

/-- Every live stream is what its client goes by. -/
def Kept (t : Session) : Prop := ∀ ptr, ∀ sh ∈ shapes t.world ptr, t.agreed ptr = some sh

/-- What the driver reports while `set` re-opens a stream is what the stream has. The answer
to the first request is at `log.length`. -/
def Repeats (p : Platform) (s : AudioStreamIn) (log : List PcmCall) : Prop :=
  let ok (n : Nat) : Bool := p.pcmInOk (log.length + n)
  let cfg (n : Nat) := p.pcmInConfig (log.length + n)
  if s.mFormat = pcm16Bit then
    ok 0 = true → ok 1 = true → ok 3 = true → (cfg 3).sampleRate = s.mSampleRate ∧
      if ok 2 = true then (cfg 3).bufferSize = s.mBufferSize
      else (if (cfg 3).channelCount = 1 then channelInMono else channelInStereo) = s.mChannels
  else if s.mFormat = amrNb then ok 0 = true → ok 1 = true → (cfg 1).sampleRate = s.mSampleRate
  else True

/-- The driver takes a new stream at the rate that was asked for, or not at all; and it repeats
itself when a stream is opened again. -/
def Confirms (p : Platform) (w : World) (op : Op) : Prop :=
  ∀ c ∈ setCall p w op, match op with
    | .openInputStream _ _ a => checkInArgs a = none → ∀ rate ∈ acceptedRate p a w.pcmIn,
      rate ∈ inputSamplingRates → rate = a.sampleRate
    | _ => Repeats p c.2.2 w.pcmIn

/-! ## What the operations do to the shapes -/

section
variable {w w' : World} {ptr : Nat} {s : AudioStreamIn}

theorem shapes_recording (h : recordingOf w' = recordingOf w) : shapes w' = shapes w := by
  have hs : w'.hw.streams = w.hw.streams := congrArg Recording.streams h
  funext ptr
  rw [shapes, hs]
  rfl

theorem shapes_update {x : Option AudioStreamIn} (h : w'.hw.streams = Function.update w.hw.streams ptr x) :
    shapes w' = Function.update (shapes w) ptr (x.map shapeOf) := by
  funext q
  by_cases hq : q = ptr
  · subst hq
    rw [shapes, h, Function.update_self, Function.update_self]
  · rw [shapes, h, Function.update_of_ne hq, Function.update_of_ne hq]
    rfl

theorem shapes_setStream (ptr : Nat) (s : AudioStreamIn) (w : World) :
    shapes (setStream ptr s w) = Function.update (shapes w) ptr (some (shapeOf s)) :=
  shapes_update (x := some s) rfl

theorem shapes_some (hs : w.hw.streams ptr = some s) : shapes w ptr = some (shapeOf s) := by
  rw [shapes, hs, Option.map_some]

theorem shapes_self (hs : w.hw.streams ptr = some s) :
    Function.update (shapes w) ptr (some (shapeOf s)) = shapes w := by
  rw [← shapes_some hs, Function.update_eq_self]

theorem shapes_inStandby (ptr : Nat) (w : World) : shapes (inStandby p ptr w).1 = shapes w := by
  cases hs : w.hw.streams ptr with
  | none => simp only [inStandby, hs]
  | some s =>
    by_cases hc : s.mState = .closed
    · exact shapes_recording (inStandby_idle hs hc)
    · by_cases hhw : s.mHardware = true
      · have hopen := congrArg Recording.streams (inStandby_open (p := p) hs hhw hc)
        have hself := shapes_self hs
        exact (shapes_update hopen).trans hself
      · simp only [inStandby, hs, if_pos (Bool.eq_false_iff.mpr hhw)]

theorem shapes_startDevice (ptr : Nat) (s : AudioStreamIn) (w : World) :
    shapes (startDevice p ptr s w).1 = Function.update (shapes w) ptr (some (shapeOf s)) ∧
      ∀ t ∈ (startDevice p ptr s w).2, shapeOf t = shapeOf s := by
  have hroute : shapes (doRouting p (some s.mDevices)
      (clearCurDevice (setStream ptr { s with mState := .started } w))).1 =
        Function.update (shapes w) ptr (some (shapeOf s)) :=
    (shapes_recording (recordingOf_doRouting _ _)).trans (shapes_setStream ptr { s with mState := .started } w)
  unfold startDevice
  dsimp only
  generalize (doRouting p (some s.mDevices) (clearCurDevice (setStream ptr { s with mState := .started } w))).1 = v
    at hroute ⊢
  split
  · exact ⟨(shapes_inStandby ptr _).trans hroute, fun t ht => by cases ht⟩
  · obtain ⟨log, hpre⟩ := preproc_frame (p := p) true
      { v with pcmIn := .started s.mFd (p.pcmInOk v.pcmIn.length) :: v.pcmIn }
    rw [hpre]
    refine ⟨hroute, fun t ht => ?_⟩
    obtain rfl := Option.some.inj ht
    rfl

theorem shapes_startInput (hhw : s.mHardware = true) (ptr : Nat) (w : World) :
    shapes (startInput p ptr s w).1 = Function.update (shapes w) ptr (some (shapeOf (reopen p s w).1)) ∧
      ∀ t ∈ (startInput p ptr s w).2, shapeOf t = shapeOf (reopen p s w).1 := by
  have hset : shapes (setStream ptr (reopen p s w).1 (reopen p s w).2.1) =
      Function.update (shapes w) ptr (some (shapeOf (reopen p s w).1)) := by
    refine shapes_update (x := some (reopen p s w).1) ?_
    obtain ⟨log, index, hframe⟩ := reopen_frame (p := p) s w
    rw [hframe]
    rfl
  have hno : ¬ s.mHardware = false := by simp [hhw]
  unfold startInput
  rw [if_neg hno]
  dsimp only
  split
  · exact ⟨hset, fun t ht => by cases ht⟩
  · split
    · refine ⟨hset, fun t ht => ?_⟩
      obtain rfl := Option.some.inj ht
      rfl
    · obtain ⟨hstart, hnext⟩ := shapes_startDevice (p := p) ptr (reopen p s w).1
        (setStream ptr (reopen p s w).1 (reopen p s w).2.1)
      refine ⟨?_, hnext⟩
      rw [hstart, hset, Function.update_idem]

/-- `read` leaves the members as the re-opening leaves them. -/
theorem shapes_read (hs : w.hw.streams ptr = some s) (hhw : s.mHardware = true) (mem : Records.Memory)
    (bytes : Nat) (answers : List ReadAnswer) : shapes (AudioStreams.read p ptr mem bytes answers w).1 =
      Function.update (shapes w) ptr (some (shapeOf (reopen p s w).1)) := by
  obtain ⟨hstart, hnext⟩ := shapes_startInput (p := p) hhw ptr w
  simp only [AudioStreams.read, hs]
  generalize startInput p ptr s w = r at hstart hnext ⊢
  obtain ⟨v, next⟩ := r
  cases next with
  | none => exact hstart
  | some t =>
    have ht := hnext t rfl
    dsimp only
    generalize readFrames t mem bytes answers v.pcmIn = r
    obtain ⟨st, fin, rest⟩ := r
    refine (shapes_setStream ptr _ _).trans ?_
    change Function.update (shapes v) ptr (some (shapeOf t)) = _
    rw [ht]
    dsimp only at hstart
    rw [hstart, Function.update_idem]

end

/-! ## The answers of the driver -/

section
variable {s : AudioStreamIn} {log : List PcmCall} {devices : Devices} {a : InArgs}

/-- The members when a `set` with their addresses has returned: a counter-proposal lands in them. -/
def landed (r : SetResult) : Shape :=
  let b := r.proposal.getD ⟨r.stream.mFormat, r.stream.mChannels, r.stream.mSampleRate⟩
  ⟨b.format, b.channels, b.sampleRate, r.stream.mBufferSize, r.stream.mDevices⟩

/-- A stream as `set` makes it: AMR and AAC have buffers of a fixed size. -/
structure Shaped (sh : Shape) : Prop where
  checked : checkInArgs ⟨sh.format, sh.channels, sh.sampleRate⟩ = none
  amr : sh.format = amrNb → sh.bufferSize = 320
  aac : sh.format = aac → sh.bufferSize = 2048

/-- `set` makes no proposal when it succeeds. -/
theorem setFormat_proposal (h : (setFormat p devices a s log).status = noError) :
    (setFormat p devices a s log).proposal = none := by
  have hneg : (-1 : Status) ≠ noError := by decide
  unfold setFormat setPcm setAmr setAac at *
  dsimp only at *
  grind

theorem reopen_landed {w : World} (hc : s.mState = .closed) (hfd : s.mFd = -1)
    (hcheck : checkInArgs ⟨s.mFormat, s.mChannels, s.mSampleRate⟩ = none) :
    shapeOf (reopen p s w).1 = landed (setFormat p s.mDevices ⟨s.mFormat, s.mChannels, s.mSampleRate⟩
      { s with mHardware := true } w.pcmIn) := by
  have hno : ¬ 0 ≤ ({ s with mHardware := true } : AudioStreamIn).mFd := by
    rw [hfd]
    decide
  unfold reopen
  simp only [if_pos hc, inSet, hcheck, if_neg hno]
  by_cases hok : (setFormat p s.mDevices ⟨s.mFormat, s.mChannels, s.mSampleRate⟩
      { s with mHardware := true } w.pcmIn).status = noError
  · have hprop := setFormat_proposal hok
    rw [if_neg (not_not.mpr hok), landed, hprop]
    split
    · split <;> rfl
    · split <;> rfl
  · rw [if_pos hok, landed]
    split <;> rfl

/-- The stream with its arguments, as `read` hands it to `set`. -/
abbrev again (s : AudioStreamIn) : InArgs := ⟨s.mFormat, s.mChannels, s.mSampleRate⟩

theorem landed_pcm (hf : s.mFormat = pcm16Bit) :
    landed (setPcm p s.mDevices (again s) s log) = shapeOf s ↔ Repeats p s log := by
  unfold Repeats setPcm landed shapeOf
  simp only [hf, if_true, List.length_cons, Nat.add_zero, add_assoc, Nat.reduceAdd]
  by_cases h0 : p.pcmInOk log.length = true
  · by_cases h1 : p.pcmInOk (log.length + 1) = true
    · by_cases h2 : p.pcmInOk (log.length + 2) = true
      · by_cases h3 : p.pcmInOk (log.length + 3) = true
        · simp [h0, h1, h2, h3]
        · simp [h0, h1, h2, h3]
      · by_cases h3 : p.pcmInOk (log.length + 3) = true
        · simp [h0, h1, h2, h3, and_comm]
        · simp [h0, h1, h2, h3]
    · simp [h0, h1]
  · simp [h0, hf]

theorem landed_amr (hf : s.mFormat = amrNb) (hb : s.mBufferSize = 320) :
    landed (setAmr p s.mDevices (again s) s log) = shapeOf s ↔ Repeats p s log := by
  have hpcm : ¬ amrNb = pcm16Bit := by decide
  unfold Repeats setAmr landed shapeOf
  simp only [hf, hpcm, if_true, if_false, List.length_cons, Nat.add_zero, add_assoc, Nat.reduceAdd]
  by_cases h0 : p.pcmInOk log.length = true
  · by_cases h1 : p.pcmInOk (log.length + 1) = true
    · by_cases h2 : p.pcmInOk (log.length + 2) = true
      · by_cases h3 : p.pcmInOk (log.length + 3) = true
        · simp [h0, h1, h2, h3, hb]
        · simp [h0, h1, h2, h3, hb]
      · simp [h0, h1, h2, hb]
    · simp [h0, h1]
  · simp [h0, hf]

theorem landed_aac (hpcm : ¬ s.mFormat = pcm16Bit) (hamr : ¬ s.mFormat = amrNb) (hb : s.mBufferSize = 2048) :
    landed (setAac p s.mDevices (again s) s log) = shapeOf s ↔ Repeats p s log := by
  have hsame : landed (setAac p s.mDevices (again s) s log) = shapeOf s := by
    unfold setAac landed shapeOf
    dsimp only
    split
    · rfl
    · split
      · rfl
      · split <;> simp [hb]
  unfold Repeats
  simp only [hsame, hpcm, hamr, if_false]

/-- The members survive the re-opening exactly when the driver repeats them. -/
theorem reopen_keeps_iff {w : World} (hc : s.mState = .closed) (hfd : s.mFd = -1) (hs : Shaped (shapeOf s)) :
    shapeOf (reopen p s w).1 = shapeOf s ↔ Repeats p s w.pcmIn := by
  have hsame : shapeOf s = shapeOf { s with mHardware := true } := rfl
  have hrep : Repeats p s w.pcmIn ↔ Repeats p { s with mHardware := true } w.pcmIn := Iff.rfl
  rw [reopen_landed hc hfd hs.checked, hsame, hrep]
  unfold setFormat
  by_cases hpcm : s.mFormat = pcm16Bit
  · rw [if_pos hpcm]
    exact landed_pcm (s := { s with mHardware := true }) hpcm
  · by_cases hamr : s.mFormat = amrNb
    · rw [if_neg hpcm, if_pos hamr]
      exact landed_amr (s := { s with mHardware := true }) hamr (hs.amr hamr)
    · have haac : s.mFormat = aac := by
        have hchecked := hs.checked
        unfold checkInArgs at hchecked
        by_contra hno
        rw [if_pos ⟨hpcm, hamr, hno⟩] at hchecked
        cases hchecked
      rw [if_neg hpcm, if_neg hamr]
      exact landed_aac (s := { s with mHardware := true }) hpcm hamr (hs.aac haac)

/-- What a `set` that succeeds takes over from its arguments. -/
structure Accepted (devices : Devices) (a : InArgs) (s : AudioStreamIn) : Prop where
  format : s.mFormat = a.format
  channels : s.mChannels = a.channels
  devices : s.mDevices = devices
  amr : a.format = amrNb → s.mBufferSize = 320
  aac : a.format = aac → s.mBufferSize = 2048

theorem setFormat_accepts (h : (setFormat p devices a s log).status = noError) :
    Accepted devices a (setFormat p devices a s log).stream := by
  have hneg : (-1 : Status) ≠ noError := by decide
  have hone : (1 : Status) ≠ noError := by decide
  have hpa : pcm16Bit ≠ amrNb := by decide
  have hpc : pcm16Bit ≠ aac := by decide
  have hac : amrNb ≠ aac := by decide
  unfold setFormat setPcm setAmr setAac at *
  dsimp only at *
  constructor <;> grind

theorem inSet_accepts {w : World} (h : (inSet p devices a s w).2.2.2 = noError) :
    Accepted devices a (inSet p devices a s w).1 := by
  have hbad : badValue ≠ noError := by decide
  have hperm : eperm ≠ noError := by decide
  have hinval : einval ≠ noError := by decide
  unfold inSet at h ⊢
  cases hc : checkInArgs a with
  | some proposal =>
    simp only [hc] at h
    exact absurd h hbad
  | none =>
    simp only [hc] at h ⊢
    split
    · rename_i hfd
      rw [if_pos hfd] at h
      exact absurd h hperm
    · rename_i hfd
      rw [if_neg hfd] at h
      split
      · rename_i hst
        rw [if_pos hst] at h
        exact absurd h hst
      · rename_i hst
        rw [if_neg hst] at h
        have hacc := setFormat_accepts (not_not.mp hst)
        split
        · rename_i hidx
          rw [if_pos hidx] at h
          exact absurd h hinval
        · exact ⟨hacc.format, hacc.channels, hacc.devices, hacc.amr, hacc.aac⟩

end

/-! ## The opening -/

/-- How `openInputStream` ends behind its first checks. -/
inductive OpenEnds (p : Platform) (ptr : Nat) (devices : Devices) (a : InArgs) (w : World)
    (r : World × InArgs × Status) : Prop
  | rejected (hno : checkInArgs a = none → ∀ rate ∈ acceptedRate p a w.pcmIn, rate ∉ inputSamplingRates)
      (hs : r.1.hw.streams = Function.update w.hw.streams ptr none)
  | accepted (s : AudioStreamIn) (rate : BitVec 32) (hcheck : checkInArgs a = none)
      (hrate : acceptedRate p a w.pcmIn = some rate) (hin : rate ∈ inputSamplingRates)
      (hs : r.1.hw.streams = Function.update w.hw.streams ptr (some s)) (ha : r.2.1 = a)
      (hshape : shapeOf s = ⟨a.format, a.channels, rate, s.mBufferSize, devices⟩)
      (hamr : a.format = amrNb → s.mBufferSize = 320) (haac : a.format = aac → s.mBufferSize = 2048)

theorem openInputStream_ends {ptr : Nat} {devices : Devices} {a : InArgs} {w : World}
    (hset : setCall p w (.openInputStream ptr devices a) ≠ none) :
    OpenEnds p ptr devices a w (openInputStream p ptr devices a w) := by
  simp only [setCall] at hset
  by_cases hguard : p.isInputDevice devices = false ∨ (w.hw.streams ptr).isSome
  · exact absurd (if_pos hguard) hset
  · rw [if_neg hguard] at hset
    by_cases hcall : w.hw.mMode = modeInCall ∧ 8000 < getInputSampleRate a.sampleRate ∧ a.format = pcm16Bit
    · exact absurd (if_pos hcall) hset
    · -- the destructor of a rejected stream leaves nothing at its address
      have hgone : ∀ (s : AudioStreamIn) (v : World), v.hw.streams = w.hw.streams → s.mFd = -1 →
          Function.update (inStandby p ptr (setStream ptr s v)).1.hw.streams ptr none =
            Function.update w.hw.streams ptr none := by
        intro s v hv hfd
        have hself : (setStream ptr s v).hw.streams ptr = some s := Function.update_self ..
        obtain ⟨-, x, hx⟩ := inStandby_without (p := p) hself hfd
        rw [hx, Function.update_idem]
        change Function.update (Function.update v.hw.streams ptr (some s)) ptr none = _
        rw [Function.update_idem, hv]
      unfold openInputStream
      rw [if_neg hguard, if_neg hcall]
      have hends := inSet_ends (p := p) (s := newStreamIn) (Int.negSucc_lt_zero 0) devices a w
      have haccepts : (inSet p devices a newStreamIn w).2.2.2 = noError →
          Accepted devices a (inSet p devices a newStreamIn w).1 := inSet_accepts
      generalize inSet p devices a newStreamIn w = r at hends haccepts ⊢
      obtain ⟨s, proposal, v, status⟩ := r
      cases hends with
      | unchecked proposal' hcheck he =>
        cases he
        have hbad : badValue ≠ noError := by decide
        dsimp only
        rw [if_pos hbad]
        refine .rejected (fun hnone => ?_) (hgone newStreamIn w rfl rfl)
        rw [hcheck] at hnone
        cases hnone
      | refused hcheck hrate hstatus hfd hstate hhw hnode hframe =>
        obtain ⟨log, rfl⟩ := hframe
        dsimp only
        rw [if_pos hstatus]
        refine .rejected (fun _ rate hr => ?_) (hgone s _ rfl (hfd rfl))
        rw [hrate] at hr
        cases hr
      | unknown rate hcheck hrate hno hstatus hfd hstate hhw hrate' hnode hframe =>
        obtain ⟨log, rfl⟩ := hframe
        dsimp only
        rw [if_pos hstatus]
        refine .rejected (fun _ rate' hr => ?_) (hgone s _ rfl hfd)
        obtain rfl := Option.some.inj (hrate.symm.trans hr)
        exact hno
      | opened rate hcheck hrate hin hproposal hstatus hfd hstate hhw hrate' hnode hframe =>
        obtain ⟨log, rfl⟩ := hframe
        have hacc := haccepts hstatus
        dsimp only at hproposal hstatus hrate' hacc ⊢
        rw [if_neg (not_not.mpr hstatus), hproposal]
        refine .accepted s rate hcheck hrate hin rfl rfl ?_ hacc.amr hacc.aac
        rw [shapeOf, hacc.format, hacc.channels, hacc.devices, hrate']

/-! ## One operation -/

/-- Live streams have their descriptors and pass the checks of `set`. -/
structure Inv (w : World) : Prop where
  inputs : InputInv (recordingOf w)
  shaped : ∀ ptr, ∀ sh ∈ shapes w ptr, Shaped sh

section
variable {t t' : Session} {ptr : Nat} {x y : Option Shape}

/-- From `t` to `t'` one stream changes, and what its client goes by. -/
def Moves (t t' : Session) (ptr : Nat) (x y : Option Shape) : Prop :=
  shapes t'.world = Function.update (shapes t.world) ptr x ∧ t'.agreed = Function.update t.agreed ptr y

theorem moves_same (hs : shapes t'.world = shapes t.world) (ha : t'.agreed = t.agreed) (ptr : Nat) :
    Moves t t' ptr (shapes t.world ptr) (t.agreed ptr) := by
  constructor
  · rw [hs, Function.update_eq_self]
  · rw [ha, Function.update_eq_self]

theorem Moves.kept_iff (h : Moves t t' ptr x y) (hk : Kept t) : Kept t' ↔ ∀ sh ∈ x, y = some sh := by
  unfold Kept
  rw [h.1, h.2]
  constructor
  · intro hk' sh hsh
    have hself := hk' ptr sh
    rw [Function.update_self, Function.update_self] at hself
    exact hself hsh
  · intro hxy q sh hsh
    by_cases hq : q = ptr
    · subst hq
      rw [Function.update_self] at hsh ⊢
      exact hxy sh hsh
    · rw [Function.update_of_ne hq] at hsh ⊢
      exact hk q sh hsh

theorem Moves.shaped (h : Moves t t' ptr x y) (hs : ∀ ptr, ∀ sh ∈ shapes t.world ptr, Shaped sh)
    (hx : ∀ sh ∈ x, Shaped sh) : ∀ ptr, ∀ sh ∈ shapes t'.world ptr, Shaped sh := by
  rw [h.1]
  exact (Function.forall_update_iff _ fun _ o => ∀ sh ∈ o, Shaped sh).mpr ⟨hx, fun q _ => hs q⟩

/-- The move that a step makes, whether the client goes by its result, and whether the
result passes the checks. -/
def Step (p : Platform) (t : Session) (op : Op) : Prop :=
  ∃ ptr x y, Moves t (advance p t op) ptr x y ∧ ((∀ sh ∈ x, y = some sh) ↔ Confirms p t.world op) ∧
    (Confirms p t.world op → ∀ sh ∈ x, Shaped sh)

theorem confirms_of_none {w : World} {op : Op} (hset : setCall p w op = none) : Confirms p w op := by
  intro c hc
  rw [hset] at hc
  cases hc

/-- A step that opens nothing, re-opens nothing and only forgets streams. -/
theorem step_quiet {op : Op} (hi : Inv t.world) (hk : Kept t) (hset : setCall p t.world op = none)
    (h : Moves t (advance p t op) ptr x (t.agreed ptr)) (hx : ∀ sh ∈ x, sh ∈ shapes t.world ptr) :
    Step p t op := by
  have hc := confirms_of_none hset
  exact ⟨ptr, x, t.agreed ptr, h, ⟨fun _ => hc, fun _ sh hsh => hk ptr sh (hx sh hsh)⟩,
    fun _ sh hsh => hi.shaped ptr sh (hx sh hsh)⟩

theorem step_same {op : Op} (hi : Inv t.world) (hk : Kept t) (hset : setCall p t.world op = none)
    (hs : shapes (step p t.world op) = shapes t.world) (ha : agree p t op = t.agreed) : Step p t op :=
  step_quiet hi hk hset (moves_same hs ha 0) fun _ h => h

theorem step_openInputStream {ptr : Nat} {devices : Devices} {a : InArgs} (hi : Inv t.world) (hk : Kept t) :
    Step p t (.openInputStream ptr devices a) := by
  by_cases hset : setCall p t.world (.openInputStream ptr devices a) = none
  · have hsame := openInputStream_none hset
    cases hs : t.world.hw.streams ptr with
    | some s =>
      refine step_same hi hk hset ?_ ?_
      · rw [step, hsame]
      · simp only [agree, hs, Option.isSome_some, if_true]
    | none =>
      have hx : shapes t.world ptr = none := by rw [shapes, hs, Option.map_none]
      have hc := confirms_of_none hset
      refine ⟨ptr, none, none, ⟨?_, ?_⟩, ⟨fun _ => hc, fun _ sh hsh => by cases hsh⟩, fun _ sh hsh => by cases hsh⟩
      · rw [← hx, Function.update_eq_self, advance, step, hsame]
      · simp [advance, agree, hsame, hs]
  · obtain ⟨hcall, hs⟩ := setCall_open hset
    have hends := openInputStream_ends hset
    have hagree : agree p t (.openInputStream ptr devices a) = Function.update t.agreed ptr
        (((openInputStream p ptr devices a t.world).1.hw.streams ptr).map fun s =>
          ⟨(openInputStream p ptr devices a t.world).2.1.format, (openInputStream p ptr devices a t.world).2.1.channels,
            (openInputStream p ptr devices a t.world).2.1.sampleRate, s.mBufferSize, devices⟩) := by
      simp [agree, hs]
    have hconf : Confirms p t.world (.openInputStream ptr devices a) ↔ (checkInArgs a = none →
        ∀ rate ∈ acceptedRate p a t.world.pcmIn, rate ∈ inputSamplingRates → rate = a.sampleRate) := by
      simp only [Confirms, hcall, Option.mem_some_iff, forall_eq']
    cases hends with
    | rejected hno hstreams =>
      refine ⟨ptr, none, none, ⟨shapes_update hstreams, ?_⟩, ?_, fun _ sh hsh => by cases hsh⟩
      · rw [advance, hagree, hstreams, Function.update_self, Option.map_none]
      · rw [hconf]
        constructor
        · intro _ hcheck rate hrate hin
          exact absurd hin (hno hcheck rate hrate)
        · intro _ sh hsh
          cases hsh
    | accepted s rate hcheck hrate hin hstreams ha hshape hamr haac =>
      refine ⟨ptr, some (shapeOf s), some ⟨a.format, a.channels, a.sampleRate, s.mBufferSize, devices⟩,
        ⟨shapes_update hstreams, ?_⟩, ?_, ?_⟩
      · rw [advance, hagree, hstreams, Function.update_self, Option.map_some, ha]
      · rw [hconf, hshape]
        simp [hcheck, hrate, hin, eq_comm]
      · intro hcond sh hsh
        obtain rfl := Option.some.inj hsh
        have hsame := hconf.mp hcond hcheck rate hrate hin
        rw [hshape, hsame]
        exact ⟨hcheck, hamr, haac⟩

theorem step_read {ptr : Nat} {mem : Records.Memory} {bytes : Nat} {answers : List ReadAnswer}
    (hi : Inv t.world) (hk : Kept t) : Step p t (.read ptr mem bytes answers) := by
  cases hs : t.world.hw.streams ptr with
  | none =>
    refine step_same hi hk ?_ ?_ rfl
    · simp only [setCall, hs]
    · simp only [step, AudioStreams.read, hs]
  | some s =>
    by_cases hhw : s.mHardware = true
    · have hread := shapes_read (p := p) hs hhw mem bytes answers
      by_cases hc : s.mState = .closed
      · have hshaped := hi.shaped ptr _ (shapes_some hs)
        have hkeeps := reopen_keeps_iff (p := p) (w := t.world) hc ((hi.inputs.valid ptr s hs).2 hc) hshaped
        have hset := setCall_read (p := p) hs hhw hc mem bytes answers
        have hagreed := hk ptr _ (shapes_some hs)
        have hconf : Confirms p t.world (.read ptr mem bytes answers) ↔ Repeats p s t.world.pcmIn := by
          simp only [Confirms, hset, Option.mem_some_iff, forall_eq']
        refine ⟨ptr, _, t.agreed ptr, ⟨hread, ?_⟩, ?_, ?_⟩
        · rw [Function.update_eq_self]
          rfl
        · rw [hconf, ← hkeeps, hagreed]
          simp [eq_comm]
        · intro hcond sh hsh
          obtain rfl := Option.some.inj hsh
          rw [hkeeps.mpr (hconf.mp hcond)]
          exact hshaped
      · refine step_same hi hk ?_ ?_ rfl
        · simp only [setCall, hs, hc, and_false, if_false]
        · have hsame : (reopen p s t.world).1 = s := by rw [reopen, if_neg hc]
          rw [hsame, shapes_self hs] at hread
          exact hread
    · refine step_same hi hk ?_ ?_ rfl
      · simp only [setCall, hs, hhw, Bool.false_eq_true, false_and, if_false]
      · rw [step, read_idle hs hhw]

theorem step_closeInputStream {ptr : Nat} (hi : Inv t.world) (hk : Kept t) : Step p t (.closeInputStream ptr) := by
  by_cases hin : ptr ∈ t.world.hw.mInputs
  · have hmoves : Moves t (advance p t (.closeInputStream ptr)) ptr none (t.agreed ptr) := by
      constructor
      · rw [advance, step, closeInputStream, if_pos hin]
        refine (shapes_update (w := (inStandby p ptr t.world).1) (x := none) rfl).trans ?_
        rw [shapes_inStandby]
        rfl
      · rw [Function.update_eq_self]
        rfl
    exact step_quiet hi hk rfl hmoves fun sh hsh => by cases hsh
  · refine step_same hi hk rfl ?_ rfl
    rw [step, closeInputStream, if_neg hin]

theorem step_inSetParameters {ptr : Nat} {kv : KeyValues} (hi : Inv t.world) (hk : Kept t) :
    Step p t (.inSetParameters ptr kv) := by
  cases hd : inputRouting p ptr kv t.world with
  | none =>
    refine step_same hi hk rfl ?_ ?_
    · rw [step, inSetParameters_none hd]
    · simp only [agree, hd]
  | some d =>
    obtain ⟨s, hs, he⟩ := inSetParameters_routes hd
    have hagreed := hk ptr _ (shapes_some hs)
    have hshaped := hi.shaped ptr _ (shapes_some hs)
    refine ⟨ptr, some { shapeOf s with devices := d }, some { shapeOf s with devices := d }, ⟨?_, ?_⟩, ?_, ?_⟩
    · rw [advance, step, he]
      exact (shapes_recording (recordingOf_doRouting _ _)).trans (shapes_setStream ptr { s with mDevices := d } _)
    · simp only [advance, agree, hd, hagreed, Option.map_some]
    · constructor
      · intro _ c hc
        cases hc
      · intro _ sh hsh
        exact hsh
    · intro _ sh hsh
      obtain rfl := Option.some.inj hsh
      exact ⟨hshaped.checked, hshaped.amr, hshaped.aac⟩

theorem advance_step (op : Op) (hi : Inv t.world) (hk : Kept t) : Step p t op := by
  by_cases hop : OnInput op
  · cases op with
    | openInputStream ptr devices a => exact step_openInputStream hi hk
    | closeInputStream ptr => exact step_closeInputStream hi hk
    | inSetParameters ptr kv => exact step_inSetParameters hi hk
    | read ptr mem bytes answers => exact step_read hi hk
    | inStandby ptr => exact step_same hi hk rfl (shapes_inStandby ptr _) rfl
    | _ => exact hop.elim
  · have hs := shapes_recording (recordingOf_step (p := p) hop t.world)
    cases op with
    | openInputStream | closeInputStream | inSetParameters | read | inStandby => exact absurd trivial hop
    | _ => exact step_same hi hk rfl hs rfl

/-- The rates that the driver repeats are rates of the table. -/
theorem knownReopens_of_confirms {w : World} {op : Op} (hc : Confirms p w op) : KnownReopens p w op := by
  rintro ptr mem bytes answers rfl s hs hhw hclosed hcheck rate hrate
  have hrep : Repeats p s w.pcmIn := hc _ (setCall_read hs hhw hclosed mem bytes answers)
  have hown : s.mSampleRate ∈ inputSamplingRates := checked_rate hcheck
  have hsame : rate = s.mSampleRate := by
    unfold acceptedRate at hrate
    unfold Repeats at hrep
    dsimp only at hrate hrep
    grind
  rw [hsame]
  exact hown

theorem inv_advance (op : Op) (hi : Inv t.world) (hk : Kept t) (hc : Confirms p t.world op) :
    Inv (step p t.world op) := by
  obtain ⟨ptr, x, y, hmove, -, hshaped⟩ := advance_step op hi hk
  constructor
  · exact inputInv_step op hi.inputs (knownReopens_of_confirms hc)
  · exact hmove.shaped hi.shaped (hshaped hc)

end

/-! ## Runs -/

/-- The members of every stream stay what its client goes by exactly in the runs whose drivers
confirm what they are asked for. -/
theorem streams_keep_shape_iff_confirmed (p : Platform) (ops : List Op) :
    Run.AllStates (advance p) Kept ⟨boot p, fun _ => none⟩ ops ↔
      Run.AllSteps (advance p) (fun t op => Confirms p t.world op) ⟨boot p, fun _ => none⟩ ops := by
  have hboot : Inv (boot p) := ⟨inputInv_boot p, fun ptr sh hsh => by cases hsh⟩
  have hkept : Kept ⟨boot p, fun _ => none⟩ := fun ptr sh hsh => by cases hsh
  have hinv : ∀ t op, Inv t.world → Kept t → Confirms p t.world op → Inv (advance p t op).world :=
    fun t op hi hk hc => inv_advance op hi hk hc
  have hstep : ∀ t op, Inv t.world → Kept t → (Kept (advance p t op) ↔ Confirms p t.world op) := by
    intro t op hi hk
    obtain ⟨ptr, x, y, hmove, hiff, -⟩ := advance_step op hi hk
    exact (hmove.kept_iff hk).trans hiff
  exact Run.allStates_iff_allSteps_of_guarded (fun t => Inv t.world) hinv hstep hboot hkept ops

/-- A driver that refuses the configuration when the device is opened again. -/
def refusesAgain : Platform :=
  { acceptAll with
    pcmInOk := fun n => n ≠ 7
    pcmInConfig := fun n => if n = 8 then ⟨4096, 2, 2, 44100, 0⟩ else acceptAll.pcmInConfig n }

def readsAgain : List Op :=
  [.openInputStream 7 deviceInBuiltinMic ⟨pcm16Bit, channelInMono, 8000⟩, .inStandby 7, .read 7 (fun _ => 0) 64 []]

/-- The read fails, and the stream is another one. -/
theorem failed_reopen_changes_stream :
    ¬ Run.AllStates (advance refusesAgain) Kept ⟨boot refusesAgain, fun _ => none⟩ readsAgain := by
  intro h
  have hread : shapes (Run.exec (advance refusesAgain) ⟨boot refusesAgain, fun _ => none⟩ readsAgain).world 7 =
      some ⟨pcm16Bit, channelInStereo, 44100, 2048, deviceInBuiltinMic⟩ := by
    decide +kernel
  have hagreed : (Run.exec (advance refusesAgain) ⟨boot refusesAgain, fun _ => none⟩ readsAgain).agreed 7 =
      some ⟨pcm16Bit, channelInMono, 8000, 2048, deviceInBuiltinMic⟩ := by
    decide +kernel
  have hkept := h.last 7 _ hread
  rw [hagreed] at hkept
  exact absurd hkept (by decide)

end AudioNegotiation
