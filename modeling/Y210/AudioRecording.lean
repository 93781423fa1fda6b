import Y210.AudioInput

/-!
# The descriptors of the input streams

Any number of input streams open, start, read and close the recording nodes. `mState` and
`mFd` agree at every exit of `set` but one: the check of the sample rate comes after
`mState` has moved on, and closes the descriptor behind its back.
-/
namespace AudioRecording

open AudioDrivers AudioHardware AudioStreams AudioRouting AudioCalls AudioDescriptors AudioInput

variable {p : Platform}

/-- `mState` is closed exactly when there is no descriptor. -/
def Agrees (s : AudioStreamIn) : Prop := s.mState = .closed ↔ s.mFd = -1

/-- The members of every stream agree, every descriptor that no stream has any more was
closed once, and calls go to open descriptors only. -/
structure Sound (w : World) : Prop where
  state : ∀ ptr s, w.hw.streams ptr = some s → Agrees s
  closed : ∀ fd, Ledger.acquired pcmEvents w.pcmIn fd ≠ 0 →
    (∀ ptr s, w.hw.streams ptr = some s → s.mFd ≠ fd) →
      Ledger.acquired pcmEvents w.pcmIn fd = 1 ∧ Ledger.released pcmEvents w.pcmIn fd = 1
  used : Ledger.UsesLive pcmEvents w.pcmIn

/-- The members agree when `set` returns, also for a stream that is about to be destroyed. -/
def SetAgrees (p : Platform) (w : World) (op : Op) : Prop :=
  ∀ c ∈ setCall p w op, Agrees (inSet p c.1 c.2.1 c.2.2 w).1

/-- A driver that accepts all requests of a `set` reports a rate of the table. -/
def KnownRates (p : Platform) (w : World) (op : Op) : Prop :=
  ∀ c ∈ setCall p w op, checkInArgs c.2.1 = none →
    ∀ rate ∈ acceptedRate p c.2.1 w.pcmIn, rate ∈ inputSamplingRates

/-! ## The invariant -/

/-- The descriptor of an open stream. -/
def Holds (x : Option AudioStreamIn) (fd : Int) : Prop := ∃ s ∈ x, s.mState ≠ .closed ∧ s.mFd = fd

/-- An open stream has the hardware, a closed one has no descriptor. -/
def Valid (s : AudioStreamIn) : Prop :=
  (s.mState ≠ .closed → s.mHardware = true) ∧ (s.mState = .closed → s.mFd = -1)

/-- Open streams have descriptors of their own, and no other descriptor is open. -/
structure InputInv (r : Recording) : Prop where
  node : NodeLog (fun fd => ∃ ptr, Holds (r.streams ptr) fd) r.pcmIn
  apart : ∀ ptr ptr' fd, Holds (r.streams ptr) fd → Holds (r.streams ptr') fd → ptr = ptr'
  valid : ∀ ptr s, r.streams ptr = some s → Valid s

/-- The descriptors of the streams at other addresses. -/
def Others (streams : Nat → Option AudioStreamIn) (ptr : Nat) (fd : Int) : Prop :=
  ∃ ptr', ptr' ≠ ptr ∧ Holds (streams ptr') fd

/-- The invariant as one stream sees it. -/
structure Focus (others : Int → Prop) (x : Option AudioStreamIn) (log : List PcmCall) : Prop where
  node : NodeLog (fun fd => Holds x fd ∨ others fd) log
  apart : ∀ fd, Holds x fd → ¬ others fd
  valid : ∀ s ∈ x, Valid s

theorem InputInv.focus {r : Recording} (h : InputInv r) (ptr : Nat) :
    Focus (Others r.streams ptr) (r.streams ptr) r.pcmIn := by
  constructor
  · refine h.node.congr fun fd => ?_
    constructor
    · rintro (hx | ⟨ptr', -, hx⟩)
      · exact ⟨ptr, hx⟩
      · exact ⟨ptr', hx⟩
    · rintro ⟨ptr', hx⟩
      by_cases he : ptr' = ptr
      · subst he
        exact .inl hx
      · exact .inr ⟨ptr', he, hx⟩
  · rintro fd hx ⟨ptr', hne, hx'⟩
    exact hne (h.apart ptr' ptr fd hx' hx)
  · exact h.valid ptr

theorem Focus.inputInv {r r' : Recording} (h : InputInv r) {ptr : Nat} {x : Option AudioStreamIn}
    (hx : Focus (Others r.streams ptr) x r'.pcmIn) (hs : r'.streams = Function.update r.streams ptr x) :
    InputInv r' := by
  have hself : r'.streams ptr = x := by rw [hs, Function.update_self]
  have hother : ∀ ptr', ptr' ≠ ptr → r'.streams ptr' = r.streams ptr' := by
    intro ptr' hne
    rw [hs, Function.update_of_ne hne]
  constructor
  · refine hx.node.congr fun fd => ?_
    constructor
    · rintro ⟨ptr', hh⟩
      by_cases he : ptr' = ptr
      · subst he
        rw [hself] at hh
        exact .inl hh
      · rw [hother ptr' he] at hh
        exact .inr ⟨ptr', he, hh⟩
    · rintro (hh | ⟨ptr', hne, hh⟩)
      · exact ⟨ptr, by rwa [hself]⟩
      · exact ⟨ptr', by rwa [hother ptr' hne]⟩
  · intro q q' fd hq hq'
    by_cases he : q = ptr
    · by_cases he' : q' = ptr
      · exact he.trans he'.symm
      · subst he
        rw [hself] at hq
        rw [hother q' he'] at hq'
        exact absurd ⟨q', he', hq'⟩ (hx.apart fd hq)
    · by_cases he' : q' = ptr
      · subst he'
        rw [hself] at hq'
        rw [hother q he] at hq
        exact absurd ⟨q, he, hq⟩ (hx.apart fd hq')
      · rw [hother q he] at hq
        rw [hother q' he'] at hq'
        exact h.apart q q' fd hq hq'
  · intro q s hq
    by_cases he : q = ptr
    · subst he
      rw [hself] at hq
      exact hx.valid s hq
    · rw [hother q he] at hq
      exact h.valid q s hq

/-! ## What one stream does -/

section
variable {others : Int → Prop} {s s' : AudioStreamIn} {x : Option AudioStreamIn} {log : List PcmCall}

theorem holds_some (s : AudioStreamIn) (fd : Int) : Holds (some s) fd ↔ s.mState ≠ .closed ∧ s.mFd = fd := by
  simp [Holds]

theorem holds_closed (hc : ∀ s ∈ x, s.mState = .closed) (fd : Int) : ¬ Holds x fd := by
  rintro ⟨s, hs, hne, -⟩
  exact hne (hc s hs)

/-- Without an open stream only the others hold descriptors. -/
theorem focus_of_closed (h : NodeLog others log) (hc : ∀ s ∈ x, s.mState = .closed) (hv : ∀ s ∈ x, Valid s) :
    Focus others x log := by
  constructor
  · refine h.congr fun fd => ?_
    simp [holds_closed hc fd]
  · intro fd hx
    exact absurd hx (holds_closed hc fd)
  · exact hv

theorem Focus.node_of_closed (h : Focus others x log) (hc : ∀ s ∈ x, s.mState = .closed) :
    NodeLog others log := by
  refine h.node.congr fun fd => ?_
  simp [holds_closed hc fd]

/-- The members besides the state, the descriptor and the hardware may change. -/
theorem Focus.congr (h : Focus others (some s) log) (hhw : s'.mHardware = s.mHardware)
    (hc : s'.mState = .closed ↔ s.mState = .closed) (hfd : s'.mFd = s.mFd) : Focus others (some s') log := by
  have hholds : ∀ fd, Holds (some s') fd ↔ Holds (some s) fd := by
    intro fd
    rw [holds_some, holds_some, hfd, Ne, Ne, hc]
  have hs := h.valid s rfl
  constructor
  · refine h.node.congr fun fd => ?_
    rw [hholds]
  · intro fd hx
    exact h.apart fd ((hholds fd).mp hx)
  · intro t ht
    obtain rfl := Option.some.inj ht
    exact ⟨fun ho => hhw.trans (hs.1 fun hcl => ho (hc.mpr hcl)), fun hcl => hfd.trans (hs.2 (hc.mp hcl))⟩

/-- Requests on the descriptor of the open stream. -/
theorem Focus.requests (h : Focus others (some s) log) (ho : s.mState ≠ .closed) {calls : List PcmCall}
    (hc : NodeLog.Requests s.mFd calls) : Focus others (some s) (calls ++ log) :=
  ⟨h.node.requests (.inl ((holds_some s s.mFd).mpr ⟨ho, rfl⟩)) hc, h.apart, h.valid⟩

theorem Focus.fd_nonneg (h : Focus others (some s) log) (ho : s.mState ≠ .closed) : 0 ≤ s.mFd :=
  (h.node.held_bounds (.inl ((holds_some s s.mFd).mpr ⟨ho, rfl⟩))).1

/-- The close in `standby`. -/
theorem Focus.close (h : Focus others (some s) log) (ho : s.mState ≠ .closed) :
    Focus others (some { s with mFd := if 0 ≤ s.mFd then -1 else s.mFd, mState := .closed })
      (closeFd s.mFd log) := by
  have hfd := h.fd_nonneg ho
  have hheld := (holds_some s s.mFd).mpr ⟨ho, rfl⟩
  have hnode : NodeLog others (.closed s.mFd :: log) := by
    refine (h.node.closed (.inl hheld)).congr fun fd => ?_
    constructor
    · intro hother
      refine ⟨.inr hother, ?_⟩
      rintro rfl
      exact h.apart _ hheld hother
    · rintro ⟨hx | hother, hne⟩
      · exact absurd ((holds_some s fd).mp hx).2.symm hne
      · exact hother
  rw [closeFd, if_pos hfd, if_pos hfd]
  refine focus_of_closed hnode (fun t ht => ?_) fun t ht => ?_
  · obtain rfl := Option.some.inj ht
    rfl
  · obtain rfl := Option.some.inj ht
    exact ⟨fun hne => absurd rfl hne, fun _ => rfl⟩

/-- A stream that has just got the next descriptor. -/
theorem focus_of_opened (h : NodeLog others log) {calls : List PcmCall}
    (hnode : NodeLog (fun fd => fd = log.length ∨ others fd) calls) (hfd : s.mFd = log.length)
    (ho : s.mState = .opened) (hhw : s.mHardware = true) : Focus others (some s) calls := by
  have hopen : s.mState ≠ .closed := by
    rw [ho]
    decide
  have hholds : ∀ fd, Holds (some s) fd ↔ fd = log.length := by
    intro fd
    rw [holds_some, hfd]
    constructor
    · exact fun hh => hh.2.symm
    · exact fun hh => ⟨hopen, hh.symm⟩
  constructor
  · refine hnode.congr fun fd => ?_
    rw [hholds]
  · intro fd hh hother
    have hlt := (h.held_bounds hother).2
    rw [(hholds fd).mp hh] at hlt
    exact absurd hlt (lt_irrefl _)
  · intro t ht
    obtain rfl := Option.some.inj ht
    exact ⟨fun _ => hhw, fun hc => absurd hc hopen⟩

/-- What `read` re-opens with is known to the table. -/
def KnownReopen (p : Platform) (s : AudioStreamIn) (log : List PcmCall) : Prop :=
  s.mState = .closed → checkInArgs ⟨s.mFormat, s.mChannels, s.mSampleRate⟩ = none →
    ∀ rate ∈ acceptedRate p ⟨s.mFormat, s.mChannels, s.mSampleRate⟩ log, rate ∈ inputSamplingRates

theorem focus_reopen {w : World} (h : Focus others (some s) w.pcmIn) (hk : KnownReopen p s w.pcmIn) :
    Focus others (some (reopen p s w).1) (reopen p s w).2.1.pcmIn ∧
      (reopen p s w).2.1.hw.streams = w.hw.streams ∧
      ((reopen p s w).2.2 = noError → (reopen p s w).1.mState ≠ .closed) := by
  by_cases hc : s.mState = .closed
  · have hs := h.valid s rfl
    have hnode := h.node_of_closed fun t ht => by
      obtain rfl := Option.some.inj ht
      exact hc
    obtain ⟨hstate, hfd, hhw, hrest⟩ := reopen_closed (p := p) hc w
    have hneg : s.mFd < 0 := by
      rw [hs.2 hc]
      decide
    have hends := inSet_ends (p := p) hneg s.mDevices ⟨s.mFormat, s.mChannels, s.mSampleRate⟩ w
    generalize inSet p s.mDevices ⟨s.mFormat, s.mChannels, s.mSampleRate⟩ s w = r at hstate hfd hhw hrest hends
    rw [hrest]
    cases hends with
    | unchecked proposal hcheck he =>
      subst he
      have hbad : badValue ≠ noError := by decide
      refine ⟨h.congr hhw ?_ hfd, rfl, fun hok => absurd hok hbad⟩
      rw [hstate]
    | refused hcheck hrate hstatus hfd' hstate' hhw' hnode' hframe =>
      obtain ⟨log, hframe⟩ := hframe
      refine ⟨focus_of_closed (hnode' _ hnode) (fun t ht => ?_) fun t ht => ?_, by rw [hframe],
        fun hok => absurd hok hstatus⟩
      · obtain rfl := Option.some.inj ht
        rw [hstate, hstate', hc]
      · obtain rfl := Option.some.inj ht
        exact ⟨fun _ => hhw.trans hhw', fun _ => hfd.trans (hfd' (hs.2 hc))⟩
    | unknown rate hcheck hrate hno =>
      exact absurd (hk hc hcheck rate hrate) hno
    | opened rate hcheck hrate hin hproposal hstatus hfd' hstate' hhw' hrate' hnode' hframe =>
      obtain ⟨log, hframe⟩ := hframe
      have hopen := hstate.trans hstate'
      refine ⟨focus_of_opened hnode (hnode' _ hnode) (hfd.trans hfd') hopen (hhw.trans hhw'), by rw [hframe],
        fun _ => ?_⟩
      rw [hopen]
      decide
  · unfold reopen
    rw [if_neg hc]
    exact ⟨h, rfl, fun _ => hc⟩

/-- Where an operation on the stream at `ptr` leaves the streams and the node. -/
def At (others : Int → Prop) (streams : Nat → Option AudioStreamIn) (ptr : Nat) (x : Option AudioStreamIn)
    (w : World) : Prop :=
  w.hw.streams = Function.update streams ptr x ∧ Focus others x w.pcmIn

theorem At.setStream {streams : Nat → Option AudioStreamIn} {ptr : Nat} {w : World}
    (h : w.hw.streams = Function.update streams ptr x) (hf : Focus others (some s) w.pcmIn) :
    At others streams ptr (some s) (setStream ptr s w) := by
  refine ⟨?_, hf⟩
  change Function.update w.hw.streams ptr (some s) = _
  rw [h, Function.update_idem]

/-- Only what the recording side stores counts. -/
theorem At.of_recording {streams : Nat → Option AudioStreamIn} {ptr : Nat} {w w' : World}
    (h : At others streams ptr x w) (he : recordingOf w' = recordingOf w) : At others streams ptr x w' := by
  have hs : w'.hw.streams = w.hw.streams := congrArg Recording.streams he
  have hl : w'.pcmIn = w.pcmIn := congrArg Recording.pcmIn he
  unfold At
  rw [hs, hl]
  exact h

theorem at_inStandby {streams : Nat → Option AudioStreamIn} {ptr : Nat} {w : World}
    (h : At others streams ptr (some s) w) :
    ∃ t, t.mState = .closed ∧ At others streams ptr (some t) (inStandby p ptr w).1 := by
  have hs : w.hw.streams ptr = some s := by rw [h.1, Function.update_self]
  by_cases hc : s.mState = .closed
  · exact ⟨s, hc, h.of_recording (inStandby_idle hs hc)⟩
  · have hopen := inStandby_open (p := p) hs ((h.2.valid s rfl).1 hc) hc
    refine ⟨{ s with mFd := if 0 ≤ s.mFd then -1 else s.mFd, mState := .closed }, rfl, ?_, ?_⟩
    · have hstreams := congrArg Recording.streams hopen
      refine hstreams.trans ?_
      dsimp only
      rw [h.1, Function.update_idem]
    · have hl : (inStandby p ptr w).1.pcmIn = closeFd s.mFd w.pcmIn := congrArg Recording.pcmIn hopen
      rw [hl]
      exact h.2.close hc

/-- The start of an open stream: it goes on, or it is in standby again. -/
theorem at_startDevice {streams : Nat → Option AudioStreamIn} {ptr : Nat} {w : World}
    (h : At others streams ptr (some s) w) (ho : s.mState ≠ .closed) :
    ∃ t, At others streams ptr (some t) (startDevice p ptr s w).1 ∧
      ∀ t' ∈ (startDevice p ptr s w).2, t' = t ∧ t.mState ≠ .closed := by
  have hstarted : Focus others (some { s with mState := .started }) w.pcmIn :=
    h.2.congr rfl (by simp [ho]) rfl
  have hroute : At others streams ptr (some { s with mState := .started })
      (doRouting p (some s.mDevices) (clearCurDevice (setStream ptr { s with mState := .started } w))).1 :=
    (At.setStream h.1 hstarted).of_recording (recordingOf_doRouting _ _)
  have hne : ({ s with mState := .started } : AudioStreamIn).mState ≠ .closed := by simp
  unfold startDevice
  dsimp only
  generalize (doRouting p (some s.mDevices) (clearCurDevice (setStream ptr { s with mState := .started } w))).1 = v
    at hroute ⊢
  have hstart : ∀ ok, At others streams ptr (some { s with mState := .started })
      { v with pcmIn := .started s.mFd ok :: v.pcmIn } := fun ok =>
    ⟨hroute.1, hroute.2.requests hne (requests_cons rfl rfl rfl (requests_nil _))⟩
  split
  · obtain ⟨t, -, ht⟩ := at_inStandby (p := p) (hstart (p.pcmInOk v.pcmIn.length))
    exact ⟨t, ht, fun t' ht' => by cases ht'⟩
  · refine ⟨{ s with mState := .started }, ?_, fun t' ht' => ?_⟩
    · obtain ⟨log, hpre⟩ := preproc_frame (p := p) true
        { v with pcmIn := .started s.mFd (p.pcmInOk v.pcmIn.length) :: v.pcmIn }
      rw [hpre]
      exact hstart _
    · obtain rfl := Option.some.inj ht'
      exact ⟨rfl, hne⟩

theorem at_startInput {streams : Nat → Option AudioStreamIn} {ptr : Nat} {w : World}
    (h : At others streams ptr (some s) w) (hk : KnownReopen p s w.pcmIn) :
    ∃ t, At others streams ptr (some t) (startInput p ptr s w).1 ∧
      ∀ t' ∈ (startInput p ptr s w).2, t' = t ∧ t.mState ≠ .closed := by
  obtain ⟨hf, hstreams, hopen⟩ := focus_reopen h.2 hk
  have hset := At.setStream (hstreams.trans h.1) hf
  unfold startInput
  by_cases hhw : s.mHardware = false
  · rw [if_pos hhw]
    exact ⟨s, h, fun t' ht' => by cases ht'⟩
  · rw [if_neg hhw]
    dsimp only
    split
    · exact ⟨_, hset, fun t' ht' => by cases ht'⟩
    · rename_i hok
      have ho := hopen (not_not.mp hok)
      split
      · refine ⟨_, hset, fun t' ht' => ?_⟩
        obtain rfl := Option.some.inj ht'
        exact ⟨rfl, ho⟩
      · exact at_startDevice hset ho

theorem nextSlot_log (isAac : Bool) (st : ReadState) : (nextSlot isAac st).1.log = st.log := by
  unfold nextSlot
  split
  · rfl
  · split
    · dsimp only
      split <;> rfl
    · rfl

theorem takeChunk_log (isAac : Bool) (chunk : List (BitVec 8)) (st : ReadState) :
    (takeChunk isAac chunk st).log = st.log := by
  unfold takeChunk
  dsimp only
  split <;> rfl

/-- The loop of `read` makes requests on its descriptor only. -/
theorem readLoop_requests (isAac : Bool) (fd : Int) (answers : List ReadAnswer) (st : ReadState) :
    ∃ calls, NodeLog.Requests fd calls ∧ (readLoop isAac fd answers st).1.log = calls ++ st.log := by
  have hnone : ∃ calls, NodeLog.Requests fd calls ∧ st.log = calls ++ st.log := ⟨[], requests_nil fd, rfl⟩
  have hask : ∀ st', NodeLog.Requests fd [.read fd st'] :=
    fun _ => requests_cons rfl rfl rfl (requests_nil fd)
  induction answers generalizing st with
  | nil =>
    have hlog := nextSlot_log isAac st
    rw [readLoop]
    cases hn : nextSlot isAac st with
    | mk st' more =>
      rw [hn] at hlog
      cases more with
      | false => exact ⟨[], requests_nil fd, hlog⟩
      | true => exact ⟨[_], hask _, congrArg (PcmCall.read fd st'.count :: ·) hlog⟩
  | cons answer rest ih =>
    have hlog := nextSlot_log isAac st
    rw [readLoop]
    cases hn : nextSlot isAac st with
    | mk st' more =>
      rw [hn] at hlog
      cases more with
      | false => exact ⟨[], requests_nil fd, hlog⟩
      | true =>
        have hasked : ∃ calls, NodeLog.Requests fd calls ∧ (askDriver fd st').log = calls ++ st.log :=
          ⟨[_], hask _, congrArg (PcmCall.read fd st'.count :: ·) hlog⟩
        have hgoes : ∀ v : ReadState, v.log = (askDriver fd st').log →
            ∃ calls, NodeLog.Requests fd calls ∧ (readLoop isAac fd rest v).1.log = calls ++ st.log := by
          intro v hv
          obtain ⟨calls, hcalls, he⟩ := ih v ⟨[], requests_nil fd, rfl⟩
          obtain ⟨first, hfirst, hf⟩ := hasked
          refine ⟨calls ++ first, fun c hc => ?_, by rw [he, hv, hf, List.append_assoc]⟩
          rcases List.mem_append.mp hc with hc | hc
          · exact hcalls c hc
          · exact hfirst c hc
        cases answer with
        | error => exact hasked
        | again => exact hgoes _ rfl
        | data chunk =>
          dsimp only
          split
          · exact hasked
          · split
            · exact hgoes _ (takeChunk_log isAac _ _)
            · obtain ⟨calls, hcalls, he⟩ := hasked
              exact ⟨calls, hcalls, (takeChunk_log isAac _ _).trans he⟩

theorem readFrames_requests (s : AudioStreamIn) (mem : Records.Memory) (bytes : Nat) (answers : List ReadAnswer)
    (log : List PcmCall) :
    ∃ calls, NodeLog.Requests s.mFd calls ∧ (readFrames s mem bytes answers log).1.log = calls ++ log := by
  unfold readFrames
  dsimp only
  split
  · exact readLoop_requests _ _ _ _
  · exact readLoop_requests _ _ _ _

theorem at_read {streams : Nat → Option AudioStreamIn} {ptr : Nat} (mem : Records.Memory) (bytes : Nat)
    (answers : List ReadAnswer) {w : World} (h : At others streams ptr (some s) w) (hk : KnownReopen p s w.pcmIn) :
    ∃ t, At others streams ptr (some t) (AudioStreams.read p ptr mem bytes answers w).1 := by
  have hs : w.hw.streams ptr = some s := by rw [h.1, Function.update_self]
  obtain ⟨t, ht, hgo⟩ := at_startInput h hk
  simp only [AudioStreams.read, hs]
  generalize startInput p ptr s w = r at ht hgo ⊢
  obtain ⟨v, next⟩ := r
  cases next with
  | none => exact ⟨t, ht⟩
  | some s' =>
    obtain ⟨rfl, ho⟩ := hgo s' rfl
    obtain ⟨calls, hcalls, hlog⟩ := readFrames_requests s' mem bytes answers v.pcmIn
    dsimp only
    generalize readFrames s' mem bytes answers v.pcmIn = r at hlog ⊢
    obtain ⟨st, fin, rest⟩ := r
    have hf : Focus others (some { s' with mFirstread := st.firstread, mRetryCount := st.retries }) st.log := by
      dsimp only at hlog
      rw [hlog]
      exact (ht.2.requests ho hcalls).congr rfl Iff.rfl rfl
    exact ⟨_, At.setStream (w := { v with pcmIn := st.log }) ht.1 hf⟩

end

/-! ## One operation -/

section
variable {w : World}

/-- Where an operation on one stream leaves all of them. -/
theorem At.inputInv {ptr : Nat} {x : Option AudioStreamIn} {w' : World} (h : InputInv (recordingOf w))
    (hx : At (Others w.hw.streams ptr) w.hw.streams ptr x w') : InputInv (recordingOf w') :=
  Focus.inputInv (r := recordingOf w) h hx.2 hx.1

theorem at_self {ptr : Nat} {x : Option AudioStreamIn} (h : InputInv (recordingOf w)) (hs : w.hw.streams ptr = x) :
    At (Others w.hw.streams ptr) w.hw.streams ptr x w := by
  subst hs
  exact ⟨(Function.update_eq_self ptr w.hw.streams).symm, h.focus ptr⟩

/-- The destruction of a stream that is closed, or was never there. -/
theorem inputInv_destroyed {ptr : Nat} {x : Option AudioStreamIn} {v w' : World} (h : InputInv (recordingOf w))
    (hx : At (Others w.hw.streams ptr) w.hw.streams ptr x v) (hc : ∀ s ∈ x, s.mState = .closed)
    (hs : w'.hw.streams = Function.update v.hw.streams ptr none) (hl : w'.pcmIn = v.pcmIn) :
    InputInv (recordingOf w') := by
  have hgone : At (Others w.hw.streams ptr) w.hw.streams ptr none w' := by
    constructor
    · rw [hs, hx.1, Function.update_idem]
    · rw [hl]
      exact focus_of_closed (hx.2.node_of_closed hc) (fun s hs => by cases hs) fun s hs => by cases hs
  exact hgone.inputInv h

/-- The destructor of a stream without a descriptor. -/
theorem inStandby_without {ptr : Nat} {s : AudioStreamIn} (hs : w.hw.streams ptr = some s) (hfd : s.mFd = -1) :
    (inStandby p ptr w).1.pcmIn = w.pcmIn ∧
      ∃ x, (inStandby p ptr w).1.hw.streams = Function.update w.hw.streams ptr x := by
  have hself : w.hw.streams = Function.update w.hw.streams ptr (some s) := by rw [← hs, Function.update_eq_self]
  by_cases hc : s.mState = .closed
  · have hidle := inStandby_idle (p := p) hs hc
    exact ⟨congrArg Recording.pcmIn hidle, some s, (congrArg Recording.streams hidle).trans hself⟩
  · by_cases hhw : s.mHardware = true
    · have hopen := inStandby_open (p := p) hs hhw hc
      have hlog : closeFd s.mFd w.pcmIn = w.pcmIn := by
        rw [closeFd, hfd, if_neg (by decide)]
      exact ⟨(congrArg Recording.pcmIn hopen).trans hlog, _, congrArg Recording.streams hopen⟩
    · have hnone : inStandby p ptr w = (w, -1) := by
        simp only [inStandby, hs, if_pos (Bool.eq_false_iff.mpr hhw)]
      rw [hnone]
      exact ⟨rfl, some s, hself⟩

/-- The destructor of a stream that `openInputStream` gives up, in state `v`. -/
theorem inputInv_rejected {ptr : Nat} {s : AudioStreamIn} {v w' : World} (h : InputInv (recordingOf w))
    (hv : v.hw.streams = w.hw.streams) (hnode : NodeLog (Others w.hw.streams ptr) v.pcmIn) (hfd : s.mFd = -1)
    (hs : w'.hw.streams = Function.update (inStandby p ptr (setStream ptr s v)).1.hw.streams ptr none)
    (hl : w'.pcmIn = (inStandby p ptr (setStream ptr s v)).1.pcmIn) : InputInv (recordingOf w') := by
  have hset : (setStream ptr s v).hw.streams ptr = some s := Function.update_self ..
  obtain ⟨hlog, x, hx⟩ := inStandby_without (p := p) hset hfd
  have hgone : At (Others w.hw.streams ptr) w.hw.streams ptr none w' := by
    constructor
    · rw [hs, hx, Function.update_idem]
      change Function.update (Function.update v.hw.streams ptr (some s)) ptr none = _
      rw [Function.update_idem, hv]
    · rw [hl, hlog]
      exact focus_of_closed hnode (fun t ht => by cases ht) fun t ht => by cases ht
  exact hgone.inputInv h

theorem inputInv_openInputStream {ptr : Nat} {devices : Devices} {a : InArgs} (h : InputInv (recordingOf w)) :
    InputInv (recordingOf (openInputStream p ptr devices a w).1) := by
  unfold openInputStream
  by_cases hguard : p.isInputDevice devices = false ∨ (w.hw.streams ptr).isSome
  · rw [if_pos hguard]
    exact h
  · by_cases hcall : w.hw.mMode = modeInCall ∧ 8000 < getInputSampleRate a.sampleRate ∧ a.format = pcm16Bit
    · rw [if_neg hguard, if_pos hcall]
      exact h
    · have hnone : w.hw.streams ptr = none := by
        rw [not_or, Option.not_isSome_iff_eq_none] at hguard
        exact hguard.2
      have hnode : NodeLog (Others w.hw.streams ptr) w.pcmIn :=
        (at_self h hnone).2.node_of_closed fun s hs => by cases hs
      rw [if_neg hguard, if_neg hcall]
      have hends := inSet_ends (p := p) (s := newStreamIn) (Int.negSucc_lt_zero 0) devices a w
      generalize inSet p devices a newStreamIn w = r at hends ⊢
      obtain ⟨s, proposal, v, status⟩ := r
      cases hends with
      | unchecked proposal' hcheck he =>
        cases he
        have hbad : badValue ≠ noError := by decide
        dsimp only
        rw [if_pos hbad]
        exact inputInv_rejected h rfl hnode rfl rfl rfl
      | refused hcheck hrate hstatus hfd hstate hhw hnode' hframe =>
        obtain ⟨log, rfl⟩ := hframe
        dsimp only
        rw [if_pos hstatus]
        exact inputInv_rejected (v := { w with pcmIn := log }) h rfl (hnode' _ hnode) (hfd rfl) rfl rfl
      | unknown rate hcheck hrate hno hstatus hfd hstate hhw hrate' hnode' hframe =>
        obtain ⟨log, rfl⟩ := hframe
        dsimp only
        rw [if_pos hstatus]
        exact inputInv_rejected (v := { w with pcmIn := log, hw := { w.hw with audpre_index := -1 } }) h rfl
          (hnode' _ hnode) hfd rfl rfl
      | opened rate hcheck hrate hin hproposal hstatus hfd hstate hhw hrate' hnode' hframe =>
        obtain ⟨log, rfl⟩ := hframe
        dsimp only at hstatus hfd hstate hhw hnode' ⊢
        rw [if_neg (not_not.mpr hstatus)]
        have hat : At (Others w.hw.streams ptr) w.hw.streams ptr (some s) (setStream ptr s { w with pcmIn := log }) :=
          ⟨rfl, focus_of_opened hnode (hnode' _ hnode) hfd hstate hhw⟩
        exact hat.inputInv h

/-- The streams that are opened again have known rates. -/
def KnownReopens (p : Platform) (w : World) (op : Op) : Prop :=
  ∀ ptr mem bytes answers, op = .read ptr mem bytes answers → ∀ s, w.hw.streams ptr = some s →
    s.mHardware = true → KnownReopen p s w.pcmIn

theorem knownReopens {op : Op} (hk : KnownRates p w op) : KnownReopens p w op := by
  rintro ptr mem bytes answers rfl s hs hhw hc hcheck rate hrate
  exact hk _ (setCall_read hs hhw hc mem bytes answers) hcheck rate hrate

/-- Every operation keeps the invariant while re-opened streams have known rates. -/
theorem inputInv_step (op : Op) (h : InputInv (recordingOf w)) (hk : KnownReopens p w op) :
    InputInv (recordingOf (step p w op)) := by
  by_cases hop : OnInput op
  · cases op with
    | openInputStream ptr devices a => exact inputInv_openInputStream h
    | closeInputStream ptr =>
      rw [step, closeInputStream]
      split
      · cases hs : w.hw.streams ptr with
        | none =>
          have hsame : inStandby p ptr w = (w, noError) := by simp only [inStandby, hs]
          rw [hsame]
          exact inputInv_destroyed h (at_self h hs) (fun s hs => by cases hs) rfl rfl
        | some s =>
          obtain ⟨t, ht, hat⟩ := at_inStandby (p := p) (at_self h hs)
          refine inputInv_destroyed h hat (fun t' ht' => ?_) rfl rfl
          obtain rfl := Option.some.inj ht'
          exact ht
      · exact h
    | inSetParameters ptr kv =>
      rw [step]
      cases hd : inputRouting p ptr kv w with
      | none =>
        rw [inSetParameters_none hd]
        exact h
      | some d =>
        obtain ⟨s, hs, he⟩ := inSetParameters_routes hd
        obtain ⟨hself, hf⟩ := at_self h hs
        have hset : At (Others w.hw.streams ptr) w.hw.streams ptr (some { s with mDevices := d })
            (setStream ptr { s with mDevices := d } w) := At.setStream hself (hf.congr rfl Iff.rfl rfl)
        rw [he]
        exact (hset.of_recording (recordingOf_doRouting _ _)).inputInv h
    | read ptr mem bytes answers =>
      rw [step]
      cases hs : w.hw.streams ptr with
      | none => simpa only [AudioStreams.read, hs] using h
      | some s =>
        by_cases hhw : s.mHardware = true
        · obtain ⟨t, ht⟩ := at_read mem bytes answers (at_self h hs) (hk ptr mem bytes answers rfl s hs hhw)
          exact ht.inputInv h
        · rw [read_idle hs hhw]
          exact h
    | inStandby ptr =>
      rw [step]
      cases hs : w.hw.streams ptr with
      | none => simpa only [inStandby, hs] using h
      | some s =>
        obtain ⟨t, -, hat⟩ := at_inStandby (p := p) (at_self h hs)
        exact hat.inputInv h
    | _ => exact hop.elim
  · rw [recordingOf_step hop]
    exact h

/-! ## Runs -/

theorem sound_of_inv (h : InputInv (recordingOf w)) : Sound w := by
  constructor
  · intro ptr s hs
    obtain ⟨hopen, hclosed⟩ := h.valid ptr s hs
    constructor
    · exact hclosed
    · intro hfd
      by_contra hne
      have hfd' := (h.node.held_bounds ⟨ptr, s, hs, hne, rfl⟩).1
      omega
  · intro fd hacq hno
    refine h.node.inOrder.released_once ?_ hacq
    rintro ⟨ptr, s, hs, -, he⟩
    exact hno ptr s hs he
  · exact h.node.inOrder.used

/-- The stream of a `set` has no descriptor yet. -/
theorem setCall_closed (h : InputInv (recordingOf w)) {op : Op} {c : Devices × InArgs × AudioStreamIn}
    (hc : setCall p w op = some c) : c.2.2.mState = .closed ∧ c.2.2.mFd = -1 := by
  cases op with
  | openInputStream ptr devices a =>
    simp only [setCall] at hc
    split at hc
    · cases hc
    · split at hc
      · cases hc
      · obtain rfl := Option.some.inj hc
        exact ⟨rfl, rfl⟩
  | read ptr mem bytes answers =>
    simp only [setCall] at hc
    split at hc
    · rename_i s hs
      split at hc
      · rename_i hclosed
        obtain rfl := Option.some.inj hc
        exact ⟨hclosed.2, (h.valid ptr s hs).2 hclosed.2⟩
      · cases hc
    · cases hc
  | _ => cases hc

/-- The exits of `set`: only the one behind an unknown rate leaves the members apart. -/
theorem setAgrees_iff (h : InputInv (recordingOf w)) (op : Op) : SetAgrees p w op ↔ KnownRates p w op := by
  have heach : ∀ c, setCall p w op = some c →
      (Agrees (inSet p c.1 c.2.1 c.2.2 w).1 ↔ (checkInArgs c.2.1 = none →
        ∀ rate ∈ acceptedRate p c.2.1 w.pcmIn, rate ∈ inputSamplingRates)) := by
    intro c hc
    obtain ⟨hclosed, hfd⟩ := setCall_closed h hc
    have hne : InputState.opened ≠ .closed := by decide
    have hneg : c.2.2.mFd < 0 := by
      rw [hfd]
      decide
    have hends := inSet_ends (p := p) hneg c.1 c.2.1 w
    generalize inSet p c.1 c.2.1 c.2.2 w = r at hends
    unfold Agrees
    cases hends with
    | unchecked proposal hcheck he =>
      subst he
      simp [hcheck, hclosed, hfd]
    | refused hcheck hrate hstatus hfd' hstate' =>
      simp [hrate, hstate', hclosed, hfd' hfd]
    | unknown rate hcheck hrate hno hstatus hfd' hstate' =>
      simp [hcheck, hrate, hno, hstate', hfd']
    | opened rate hcheck hrate hin hproposal hstatus hfd' hstate' =>
      have hpos : ¬ (w.pcmIn.length : Int) = -1 := by omega
      simp [hcheck, hrate, hin, hstate', hfd', hpos]
  constructor
  · intro hset c hc
    exact (heach c hc).mp (hset c hc)
  · intro hknown c hc
    exact (heach c hc).mpr (hknown c hc)

end

theorem inputInv_boot (p : Platform) : InputInv (recordingOf (boot p)) := by
  constructor
  · refine NodeLog.nil.congr fun fd => ?_
    constructor
    · rintro ⟨ptr, s, hs, -⟩
      cases hs
    · exact False.elim
  · rintro ptr ptr' fd ⟨s, hs, -⟩
    cases hs
  · intro ptr s hs
    cases hs

/-- A run in which no driver that accepts a `set` reports a rate outside the table, and no
other, keeps `mState`, `mFd` and the descriptors together. -/
theorem descriptors_sound_iff_known_rates (p : Platform) (ops : List Op) :
    (Run.AllStates (step p) Sound (boot p) ops ∧ Run.AllSteps (step p) (SetAgrees p) (boot p) ops) ↔
      Run.AllSteps (step p) (KnownRates p) (boot p) ops := by
  have hboot := inputInv_boot p
  have hstep : ∀ w op, InputInv (recordingOf w) → KnownRates p w op → InputInv (recordingOf (step p w op)) :=
    fun w op h hk => inputInv_step op h (knownReopens hk)
  have hiff : Run.AllSteps (step p) (SetAgrees p) (boot p) ops ↔ Run.AllSteps (step p) (KnownRates p) (boot p) ops :=
    Run.allSteps_iff_of_guarded (fun w => InputInv (recordingOf w)) hstep (fun w op h => setAgrees_iff h op) hboot ops
  constructor
  · rintro ⟨-, hset⟩
    exact hiff.mp hset
  · intro hknown
    refine ⟨?_, hiff.mpr hknown⟩
    exact (Run.allStates_of_guarded hstep hboot hknown).mono fun w => sound_of_inv

/-- A driver that comes back with another rate when the node is opened again; `ioctl` on
descriptor -1 fails. -/
def oddDriver : Platform :=
  { acceptAll with
    pcmInOk := fun n => n ≠ 10
    pcmInConfig := fun n => { acceptAll.pcmInConfig n with sampleRate := if n = 8 then 8001 else 8000 } }

/-- The first read closes the descriptor of a stream that it leaves opened, the second one
starts it. -/
def startsClosed : List Op :=
  [.openInputStream 7 deviceInBuiltinMic ⟨pcm16Bit, channelInMono, 8000⟩, .inStandby 7,
    .read 7 (fun _ => 0) 64 [], .read 7 (fun _ => 0) 64 []]

theorem start_without_descriptor :
    ¬ (Run.AllStates (step oddDriver) Sound (boot oddDriver) startsClosed ∧
      Run.AllSteps (step oddDriver) (SetAgrees oddDriver) (boot oddDriver) startsClosed) := by
  rintro ⟨h, -⟩
  have hlog : ∃ older, (Run.exec (step oddDriver) (boot oddDriver) startsClosed).pcmIn =
      .started (-1) false :: older ∧ Ledger.acquired pcmEvents older (-1) = 0 :=
    ⟨(Run.exec (step oddDriver) (boot oddDriver) startsClosed).pcmIn.tail, by decide +kernel, by decide +kernel⟩
  obtain ⟨older, he, hnone⟩ := hlog
  have hused := h.last.used
  rw [he] at hused
  have hlive := (hused.1 (-1) rfl).1
  rw [hnone] at hlive
  cases hlive

end AudioRecording
