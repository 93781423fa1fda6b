import Mathlib.Data.List.Count
import Y210.AudioRecording

/-!
# The destructor of AudioHardware

The loop goes by index over the vector that `closeInputStream` shrinks, and passes over
every other stream.
-/
namespace AudioTeardown

open Run AudioDrivers AudioHardware AudioStreams AudioCalls AudioRouting AudioInput

variable {p : Platform} {w w' w'' : World}

/-! ## The vector and the live streams -/

/-- Neither the vector nor the set of live streams changes. -/
structure Stays (w w' : World) : Prop where
  inputs : w'.hw.mInputs = w.hw.mInputs
  live : ∀ ptr, (w'.hw.streams ptr).isSome = (w.hw.streams ptr).isSome

theorem Stays.refl (w : World) : Stays w w := ⟨rfl, fun _ => rfl⟩

theorem Stays.trans (h : Stays w w') (h' : Stays w' w'') : Stays w w'' :=
  ⟨h'.inputs.trans h.inputs, fun ptr => (h'.live ptr).trans (h.live ptr)⟩

theorem Stays.of_recording (h : recordingOf w' = recordingOf w) : Stays w w' := by
  have hs : w'.hw.streams = w.hw.streams := congrArg Recording.streams h
  refine ⟨congrArg Recording.mInputs h, fun ptr => ?_⟩
  rw [hs]

theorem Stays.setStream {ptr : Nat} (h : Stays w w') (hs : (w.hw.streams ptr).isSome)
    (s : AudioStreamIn) : Stays w (setStream ptr s w') := by
  refine ⟨h.inputs, fun ptr' => ?_⟩
  unfold AudioStreams.setStream
  dsimp only
  by_cases he : ptr' = ptr
  · rw [he, Function.update_self, hs]
    rfl
  · rw [Function.update_of_ne he]
    exact h.live ptr'

/-- A standby that closes the device changes the stream in place. -/
theorem stays_inStandby (ptr : Nat) (w : World) : Stays w (inStandby p ptr w).1 := by
  cases hs : w.hw.streams ptr with
  | none =>
    simp only [inStandby, hs]
    exact Stays.refl w
  | some s =>
    have hlive : (w.hw.streams ptr).isSome := by rw [hs]; rfl
    by_cases hc : s.mState = .closed
    · exact Stays.of_recording (inStandby_idle hs hc)
    · by_cases hhw : s.mHardware = true
      · have hopen := inStandby_open (p := p) hs hhw hc
        have hset := (Stays.refl w).setStream hlive
          { s with mFd := if 0 ≤ s.mFd then -1 else s.mFd, mState := .closed }
        have hstreams := congrArg Recording.streams hopen
        refine ⟨congrArg Recording.mInputs hopen, fun ptr' => ?_⟩
        rw [← hset.live ptr']
        exact congrArg Option.isSome (congrFun hstreams ptr')
      · simp only [inStandby, hs, if_pos (Bool.eq_false_iff.mpr hhw)]
        exact Stays.refl w

theorem stays_startDevice {ptr : Nat} {s : AudioStreamIn} (hs : (w.hw.streams ptr).isSome) :
    Stays w (startDevice p ptr s w).1 := by
  have hset := (Stays.refl w).setStream hs { s with mState := .started }
  have hroute : Stays w (doRouting p (some s.mDevices)
      (clearCurDevice (setStream ptr { s with mState := .started } w))).1 :=
    hset.trans (Stays.of_recording (recordingOf_doRouting _ _))
  unfold startDevice
  dsimp only
  generalize (doRouting p (some s.mDevices) (clearCurDevice (setStream ptr { s with mState := .started } w))).1 = v
    at hroute ⊢
  have hstarted : Stays w { v with pcmIn := .started s.mFd (p.pcmInOk v.pcmIn.length) :: v.pcmIn } :=
    ⟨hroute.inputs, hroute.live⟩
  split
  · exact hstarted.trans (stays_inStandby ptr _)
  · obtain ⟨log, hpre⟩ := preproc_frame (p := p) true
      { v with pcmIn := .started s.mFd (p.pcmInOk v.pcmIn.length) :: v.pcmIn }
    rw [hpre]
    exact ⟨hroute.inputs, hroute.live⟩

theorem stays_startInput {ptr : Nat} {s : AudioStreamIn} (hs : (w.hw.streams ptr).isSome) :
    Stays w (startInput p ptr s w).1 := by
  unfold startInput
  split
  · exact Stays.refl w
  · obtain ⟨log, index, hframe⟩ := reopen_frame (p := p) s w
    have hopen : Stays w (reopen p s w).2.1 := by
      rw [hframe]
      exact ⟨rfl, fun _ => rfl⟩
    have hset := hopen.setStream hs (reopen p s w).1
    dsimp only
    split
    · exact hset
    · split
      · exact hset
      · refine hset.trans (stays_startDevice ?_)
        rw [hset.live ptr]
        exact hs

theorem stays_read (ptr : Nat) (mem : Records.Memory) (bytes : Nat) (answers : List ReadAnswer)
    (w : World) : Stays w (AudioStreams.read p ptr mem bytes answers w).1 := by
  cases hs : w.hw.streams ptr with
  | none =>
    simp only [AudioStreams.read, hs]
    exact Stays.refl w
  | some s =>
    have hlive : (w.hw.streams ptr).isSome := by rw [hs]; rfl
    have hstart : Stays w (startInput p ptr s w).1 := stays_startInput hlive
    simp only [AudioStreams.read, hs]
    generalize startInput p ptr s w = r at hstart ⊢
    obtain ⟨v, next⟩ := r
    cases next with
    | none => exact hstart
    | some t =>
      have hlog : Stays w { v with pcmIn := (readFrames t mem bytes answers v.pcmIn).1.log } :=
        ⟨hstart.inputs, hstart.live⟩
      exact hlog.setStream hlive _

theorem stays_inSetParameters (ptr : Nat) (kv : KeyValues) (w : World) :
    Stays w (inSetParameters p ptr kv w).1 := by
  cases hd : inputRouting p ptr kv w with
  | none =>
    rw [inSetParameters_none hd]
    exact Stays.refl w
  | some d =>
    obtain ⟨s, hs, he⟩ := inSetParameters_routes hd
    have hlive : (w.hw.streams ptr).isSome := by rw [hs]; rfl
    rw [he]
    exact ((Stays.refl w).setStream hlive _).trans (Stays.of_recording (recordingOf_doRouting _ _))

/-- The vector lists the live streams, each once. -/
structure Listed (w : World) : Prop where
  nodup : w.hw.mInputs.Nodup
  live : ∀ ptr, (w.hw.streams ptr).isSome ↔ ptr ∈ w.hw.mInputs

theorem Listed.stays (h : Listed w) (hs : Stays w w') : Listed w' := by
  constructor
  · rw [hs.inputs]
    exact h.nodup
  · intro ptr
    rw [hs.live, hs.inputs]
    exact h.live ptr

/-- A deleted stream goes out of the vector. -/
theorem listed_closeInputStream (ptr : Nat) (h : Listed w) : Listed (closeInputStream p ptr w) := by
  unfold closeInputStream
  split
  · have hstandby := h.stays (stays_inStandby (p := p) ptr w)
    refine ⟨hstandby.nodup.erase ptr, fun ptr' => ?_⟩
    dsimp only
    rw [hstandby.nodup.mem_erase_iff]
    by_cases he : ptr' = ptr
    · rw [he, Function.update_self]
      simp
    · rw [Function.update_of_ne he, hstandby.live ptr']
      exact (and_iff_right he).symm
  · exact h

/-- A new stream goes into the vector, a rejected one leaves nothing behind. -/
theorem listed_openInputStream (ptr : Nat) (devices : Devices) (a : InArgs) (h : Listed w) :
    Listed (openInputStream p ptr devices a w).1 := by
  by_cases hset : setCall p w (.openInputStream ptr devices a) = none
  · rw [openInputStream_none hset]
    exact h
  · have hfree := (setCall_open hset).2
    have hnot : ptr ∉ w.hw.mInputs := by
      rw [← h.live ptr, hfree]
      simp
    obtain ⟨log, index, hframe⟩ := inSet_frame (p := p) devices a newStreamIn w
    rw [openInputStream_called hset]
    generalize inSet p devices a newStreamIn w = r at hframe ⊢
    obtain ⟨s, proposal, v, status⟩ := r
    dsimp only at hframe ⊢
    subst hframe
    split
    · -- the destructor of the rejected stream
      generalize hv : setStream ptr s _ = v
      have hinputs : v.hw.mInputs = w.hw.mInputs := by rw [← hv]; rfl
      have hstreams : v.hw.streams = Function.update w.hw.streams ptr (some s) := by rw [← hv]; rfl
      have hstandby := stays_inStandby (p := p) ptr v
      refine ⟨?_, fun ptr' => ?_⟩
      · dsimp only
        rw [hstandby.inputs, hinputs]
        exact h.nodup
      · dsimp only
        rw [hstandby.inputs, hinputs, ← h.live ptr']
        by_cases he : ptr' = ptr
        · rw [he, Function.update_self, hfree]
        · rw [Function.update_of_ne he, hstandby.live, hstreams, Function.update_of_ne he]
    · refine ⟨?_, fun ptr' => ?_⟩
      · have hperm := List.perm_orderedInsert (· ≤ ·) ptr w.hw.mInputs
        exact hperm.nodup_iff.mpr (List.nodup_cons.mpr ⟨hnot, h.nodup⟩)
      · change (Function.update w.hw.streams ptr (some s) ptr').isSome ↔
          ptr' ∈ w.hw.mInputs.orderedInsert (· ≤ ·) ptr
        rw [List.mem_orderedInsert]
        by_cases he : ptr' = ptr
        · rw [he, Function.update_self]
          simp
        · rw [Function.update_of_ne he, h.live ptr']
          exact (or_iff_right he).symm

theorem listed_step (op : Op) (h : Listed w) : Listed (step p w op) := by
  by_cases hop : OnInput op
  · cases op with
    | openInputStream ptr devices a => exact listed_openInputStream ptr devices a h
    | closeInputStream ptr => exact listed_closeInputStream ptr h
    | inSetParameters ptr kv => exact h.stays (stays_inSetParameters ptr kv w)
    | read ptr mem bytes answers => exact h.stays (stays_read ptr mem bytes answers w)
    | inStandby ptr => exact h.stays (stays_inStandby ptr w)
    | _ => exact absurd hop id
  · exact h.stays (Stays.of_recording (recordingOf_step hop w))

theorem listed_boot (p : Platform) : Listed (boot p) := by
  refine ⟨List.nodup_nil, fun ptr => ?_⟩
  exact iff_of_false Bool.false_ne_true List.not_mem_nil

theorem listed_run (p : Platform) (ops : List Op) : Listed (exec (step p) (boot p) ops) :=
  (allStates_of_invariant (fun _ op h => listed_step op h) (listed_boot p) ops).last

/-! ## The destructor -/

/-- A `delete` that the destructor of AudioHardware makes. -/
inductive Deleted where
  | input (ptr : Nat)
  | output
  deriving DecidableEq, Repr

theorem closeInputStream_inputs (ptr : Nat) (w : World) :
    (closeInputStream p ptr w).hw.mInputs = w.hw.mInputs.erase ptr := by
  unfold closeInputStream
  split
  · exact congrArg (fun l => l.erase ptr) (stays_inStandby (p := p) ptr w).inputs
  · exact (List.erase_of_not_mem ‹_›).symm

/-- The loop of the destructor, from an index on. -/
def closeInputs (p : Platform) (index : Nat) (w : World) : World × List Deleted :=
  if h : index < w.hw.mInputs.length then
    let r := closeInputs p (index + 1) (closeInputStream p w.hw.mInputs[index] w)
    (r.1, .input w.hw.mInputs[index] :: r.2)
  else (w, [])
termination_by w.hw.mInputs.length - index
decreasing_by
  have hle : (w.hw.mInputs.erase w.hw.mInputs[index]).length ≤ w.hw.mInputs.length :=
    List.length_erase_le
  rw [closeInputStream_inputs]
  omega

/-- `AudioHardware::~AudioHardware`. -/
def destroy (p : Platform) (w : World) : World × List Deleted :=
  let r := closeInputs p 0 w
  let w' := { r.1 with hw := { r.1.hw with mInputs := [] } }
  (closeOutputStream w', r.2 ++ if w'.hw.mOutput.isSome then [.output] else [])

/-- The elements at even positions. -/
def everyOther : List Nat → List Nat
  | [] => []
  | [x] => [x]
  | x :: _ :: l => x :: everyOther l

theorem everyOther_subset (l : List Nat) : everyOther l ⊆ l := by
  induction l using everyOther.induct with
  | case1 => exact List.Subset.refl []
  | case2 x => exact List.Subset.refl [x]
  | case3 x y l ih =>
    intro z hz
    rcases List.mem_cons.mp hz with rfl | hz
    · exact List.mem_cons_self
    · exact List.mem_cons_of_mem x (List.mem_cons_of_mem y (ih hz))

/-- What is left from an index on when the element at the index is taken out. -/
theorem drop_erase_getElem {l : List Nat} (hl : l.Nodup) {i : Nat} (h : i < l.length) :
    (l.erase l[i]).drop (i + 1) = l.drop (i + 2) := by
  have hlen : (l.take i).length = i := List.length_take_of_le (Nat.le_of_lt h)
  have hfirst : (l.take i).drop (i + 1) = [] := List.drop_of_length_le (by omega)
  rw [hl.erase_getElem i h, List.eraseIdx_eq_take_drop_succ, List.drop_append, hfirst, hlen,
    List.nil_append, List.drop_drop]
  congr 1
  omega

theorem closeInputs_deleted (index : Nat) (h : Listed w) :
    (closeInputs p index w).2 = (everyOther (w.hw.mInputs.drop index)).map .input := by
  induction index, w using closeInputs.induct p with
  | case1 index w hlt ih =>
    have hclosed := ih (listed_closeInputStream _ h)
    rw [closeInputStream_inputs, drop_erase_getElem h.nodup hlt] at hclosed
    rw [closeInputs, dif_pos hlt]
    dsimp only
    rw [hclosed, List.drop_eq_getElem_cons hlt]
    by_cases hnext : index + 1 < w.hw.mInputs.length
    · rw [List.drop_eq_getElem_cons hnext]
      rfl
    · rw [List.drop_of_length_le (Nat.le_of_not_lt hnext),
        List.drop_of_length_le (by omega : w.hw.mInputs.length ≤ index + 2)]
      rfl
  | case2 index w hge =>
    rw [closeInputs, dif_neg hge, List.drop_of_length_le (Nat.le_of_not_lt hge)]
    rfl

theorem closeInputStream_mOutput (ptr : Nat) (w : World) :
    (closeInputStream p ptr w).hw.mOutput = w.hw.mOutput := by
  have hstandby : (inStandby p ptr w).1.hw.mOutput = w.hw.mOutput := by
    unfold inStandby
    cases w.hw.streams ptr with
    | none => rfl
    | some s =>
      dsimp only
      split
      · rfl
      · obtain ⟨log, hpre⟩ := preproc_frame (p := p) false w
        rw [doRouting_mOutput, hpre]
        split <;> rfl
  unfold closeInputStream
  split
  · exact hstandby
  · rfl

theorem closeInputs_mOutput (index : Nat) (w : World) :
    (closeInputs p index w).1.hw.mOutput = w.hw.mOutput := by
  induction index, w using closeInputs.induct p with
  | case1 index w hlt ih =>
    rw [closeInputs, dif_pos hlt]
    exact ih.trans (closeInputStream_mOutput _ w)
  | case2 index w hge => rw [closeInputs, dif_neg hge]

theorem listed_closeInputs (index : Nat) (h : Listed w) : Listed (closeInputs p index w).1 := by
  induction index, w using closeInputs.induct p with
  | case1 index w hlt ih =>
    rw [closeInputs, dif_pos hlt]
    exact ih (listed_closeInputStream _ h)
  | case2 index w hge =>
    rw [closeInputs, dif_neg hge]
    exact h

theorem closeInputs_length (index : Nat) (w : World) :
    (closeInputs p index w).1.hw.mInputs.length + (closeInputs p index w).2.length =
      w.hw.mInputs.length := by
  induction index, w using closeInputs.induct p with
  | case1 index w hlt ih =>
    rw [closeInputs, dif_pos hlt]
    rw [closeInputStream_inputs, List.length_erase_of_mem (List.getElem_mem hlt)] at ih
    dsimp only
    rw [List.length_cons]
    omega
  | case2 index w hge =>
    rw [closeInputs, dif_neg hge]
    rfl

/-- The output stream is deleted whatever happened to the inputs. -/
theorem destroy_deleted (h : Listed w) : (destroy p w).2 =
    (everyOther w.hw.mInputs).map .input ++ if w.hw.mOutput.isSome then [.output] else [] := by
  unfold destroy
  dsimp only
  rw [closeInputs_deleted 0 h, closeInputs_mOutput, List.drop_zero]

/-- Every stream is deleted once, and none is left with an open descriptor. -/
structure DestroysAll (p : Platform) (w : World) : Prop where
  inputs : ∀ ptr ∈ w.hw.mInputs, (destroy p w).2.count (.input ptr) = 1
  output : (destroy p w).2.count .output = if w.hw.mOutput.isSome then 1 else 0
  released : ∀ ptr, ∀ s ∈ (destroy p w).1.hw.streams ptr, s.mFd < 0
  closed : (destroy p w).1.hw.mOutput = none

theorem count_input (l : List Nat) (b : Bool) (ptr : Nat) :
    (l.map Deleted.input ++ if b then [Deleted.output] else []).count (.input ptr) = l.count ptr := by
  have hinj : Function.Injective Deleted.input := fun _ _ h => Deleted.input.inj h
  rw [List.count_append, List.count_map_of_injective l Deleted.input hinj]
  cases b <;> rfl

theorem count_output (l : List Nat) (b : Bool) :
    (l.map Deleted.input ++ if b then [Deleted.output] else []).count .output = if b then 1 else 0 := by
  have hno : Deleted.output ∉ l.map Deleted.input := by
    rw [List.mem_map]
    rintro ⟨ptr, -, h⟩
    cases h
  rw [List.count_append, List.count_eq_zero.mpr hno]
  cases b <;> rfl

/-- The second stream is passed over. -/
theorem second_notMem_everyOther {x y : Nat} {l : List Nat} (h : (x :: y :: l).Nodup) :
    y ∉ everyOther (x :: y :: l) := by
  rw [List.nodup_cons, List.nodup_cons] at h
  rw [everyOther, List.mem_cons, not_or]
  refine ⟨fun he => h.1 ?_, fun hm => h.2.1 (everyOther_subset l hm)⟩
  rw [← he]
  exact List.mem_cons_self

theorem everyOther_eq {l : List Nat} (h : l.length ≤ 1) : everyOther l = l := by
  match l with
  | [] => rfl
  | [x] => rfl
  | x :: y :: l =>
    simp only [List.length_cons] at h
    omega

/-- With one input at most the loop empties the vector, and no stream is live behind it. -/
theorem destroy_streams_none (h : Listed w) (hle : w.hw.mInputs.length ≤ 1) (ptr : Nat) :
    (destroy p w).1.hw.streams ptr = none := by
  have hlen := closeInputs_length (p := p) 0 w
  rw [closeInputs_deleted 0 h, List.drop_zero, everyOther_eq hle, List.length_map] at hlen
  have hempty : (closeInputs p 0 w).1.hw.mInputs = [] := List.length_eq_zero_iff.mp (by omega)
  have hstreams : (destroy p w).1.hw.streams = (closeInputs p 0 w).1.hw.streams := by
    unfold destroy closeOutputStream
    dsimp only
    split <;> rfl
  rw [hstreams, ← Option.not_isSome_iff_eq_none, (listed_closeInputs 0 h).live ptr, hempty]
  exact List.not_mem_nil

/-- The second of several streams is never deleted. -/
theorem destroysAll_iff (h : Listed w) : DestroysAll p w ↔ w.hw.mInputs.length ≤ 1 := by
  constructor
  · intro hall
    have hinputs := hall.inputs
    have hnodup := h.nodup
    rw [destroy_deleted h] at hinputs
    generalize w.hw.mInputs = l at hinputs hnodup
    match l with
    | [] => exact Nat.zero_le 1
    | [x] => exact Nat.le_refl 1
    | x :: y :: l =>
      have hy := hinputs y (List.mem_cons_of_mem x List.mem_cons_self)
      rw [count_input, List.count_eq_zero.mpr (second_notMem_everyOther hnodup)] at hy
      cases hy
  · intro hle
    constructor
    · intro ptr hptr
      rw [destroy_deleted h, count_input, everyOther_eq hle]
      exact List.count_eq_one_of_mem h.nodup hptr
    · rw [destroy_deleted h, count_output]
    · intro ptr s hs
      rw [destroy_streams_none h hle] at hs
      cases hs
    · unfold destroy closeOutputStream
      dsimp only
      split
      · rfl
      · assumption

/-- Whatever has happened before, the destructor is complete for at most one input stream. -/
theorem destroy_complete_iff (p : Platform) (ops : List Op) :
    DestroysAll p (exec (step p) (boot p) ops) ↔
      (exec (step p) (boot p) ops).hw.mInputs.length ≤ 1 :=
  destroysAll_iff (listed_run p ops)

/-- Two recordings. -/
def twoInputs : List Op :=
  [.openInputStream 7 deviceInBuiltinMic ⟨pcm16Bit, channelInMono, 8000⟩,
    .openInputStream 8 deviceInBuiltinMic ⟨pcm16Bit, channelInMono, 8000⟩]

theorem destroy_keeps_second : ¬ DestroysAll acceptAll (exec (step acceptAll) (boot acceptAll) twoInputs) := by
  rw [destroysAll_iff (listed_run acceptAll twoInputs)]
  decide +kernel

end AudioTeardown
