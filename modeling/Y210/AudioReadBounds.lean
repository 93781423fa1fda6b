import Y210.AudioCapture

/-!
# Where a `read` writes

The pointer of `read` and its count move together, so the driver is always asked for room inside
the buffer. Only the AAC header is written before anything compares it with the count.
-/
namespace AudioReadBounds

open AudioDrivers AudioHardware AudioStreams AudioCapture
open Records (Byte Memory)

variable {p : Platform}

/-- The subtraction from `count` for the slot of a frame size: the count before it and the amount. -/
def slotTaken (isAac : Bool) (st : ReadState) : List (Nat × Nat) :=
  if isAac = true ∧ 2 < st.count then [(st.count, 2)] else []

/-- The subtractions from `count` in the loop of `read`. -/
def loopTaken (isAac : Bool) (fd : Int) : List ReadAnswer → ReadState → List (Nat × Nat)
  | [], st => slotTaken isAac st
  | answer :: rest, st =>
    slotTaken isAac st ++
      match nextSlot isAac st with
      | (_, false) => []
      | (st, true) =>
        let st := askDriver fd st
        match answer with
        | .data chunk =>
          if chunk.take st.count = [] then []
          else (st.count, (chunk.take st.count).length) ::
            if st.firstread then loopTaken isAac fd rest (takeChunk isAac (chunk.take st.count) st) else []
        | .again => loopTaken isAac fd rest { st with retries := st.retries + 1 }
        | .error => []

/-- The cursors of a started stream before its loop. -/
def firstSlot (s : AudioStreamIn) (mem : Memory) (bytes : Nat) (log : List PcmCall) : ReadState :=
  let st : ReadState := ⟨mem, 0, bytes, 0, 0, s.mFirstread, s.mRetryCount, [], [], log⟩
  if s.mFormat = aac then aacHeader st else st

/-- All subtractions from `count` in a call. -/
def taken (p : Platform) (ptr : Nat) (mem : Memory) (bytes : Nat) (answers : List ReadAnswer) (w : World) :
    List (Nat × Nat) :=
  match w.hw.streams ptr with
  | none => []
  | some s =>
    match startInput p ptr s w with
    | (_, none) => []
    | (w, some s) =>
      (if s.mFormat = aac then [(bytes, 6)] else []) ++
        loopTaken (s.mFormat = aac) s.mFd answers (firstSlot s mem bytes w.pcmIn)

/-- Nothing outside the buffer is touched, and no subtraction wraps. -/
structure Inside (p : Platform) (ptr : Nat) (mem : Memory) (bytes : Nat) (answers : List ReadAnswer)
    (w : World) : Prop where
  touched : ∀ t ∈ (read p ptr mem bytes answers w).2.touched, t.1 + t.2 ≤ bytes
  outside : ∀ i, bytes ≤ i → (read p ptr mem bytes answers w).2.mem i = mem i
  taken : ∀ t ∈ taken p ptr mem bytes answers w, t.2 ≤ t.1

/-! ## The rounds -/

/-- So far everything was inside a buffer of `bytes` bytes that held `mem`. -/
structure Kept (bytes : Nat) (mem : Memory) (st : ReadState) : Prop where
  touched : ∀ t ∈ st.touched, t.1 + t.2 ≤ bytes
  outside : ∀ i, bytes ≤ i → st.mem i = mem i

section
variable {isAac : Bool} {bytes : Nat} {mem : Memory} {st : ReadState}

variable (isAac) in
theorem nextSlot_kept (h : Kept bytes mem st) : Kept bytes mem (nextSlot isAac st).1 := by
  unfold nextSlot
  dsimp only
  split_ifs <;> first | exact h | exact ⟨h.touched, h.outside⟩

variable (isAac) in
/-- When the driver is asked there is room for the slot and for what it may deliver. -/
theorem nextSlot_room (hroom : st.p + st.count ≤ bytes) (hgo : (nextSlot isAac st).2 = true) :
    (nextSlot isAac st).1.p + (nextSlot isAac st).1.count ≤ bytes ∧
      (isAac = true → (nextSlot isAac st).1.frameSizePtr + 2 ≤ bytes) := by
  unfold nextSlot at hgo ⊢
  dsimp only at hgo ⊢
  split_ifs at hgo ⊢ with h0 haac h2
  · constructor
    · change st.p + 2 + (st.count - 2) ≤ bytes
      omega
    · intro _
      change st.p + 2 ≤ bytes
      omega
  · exact ⟨hroom, fun h => absurd h haac⟩

theorem askDriver_kept (h : Kept bytes mem st) (hroom : st.p + st.count ≤ bytes) (fd : Int) :
    Kept bytes mem (askDriver fd st) := by
  refine ⟨fun t ht => ?_, h.outside⟩
  rcases List.mem_cons.mp ht with rfl | ht
  · exact hroom
  · exact h.touched t ht

theorem store_outside {mem' : Memory} (h : ∀ i, bytes ≤ i → mem' i = mem i) {off : Nat} {chunk : List Byte}
    (hfits : off + chunk.length ≤ bytes) (i : Nat) (hi : bytes ≤ i) : Records.store mem' off chunk i = mem i := by
  rw [Records.store_above _ _ (hfits.trans hi), h i hi]

/-- A chunk, its size and the frame count all lie in the room. -/
theorem takeChunk_kept (h : Kept bytes mem st) (hroom : st.p + st.count ≤ bytes)
    (hframe : isAac = true → 6 ≤ bytes ∧ st.frameSizePtr + 2 ≤ bytes) {chunk : List Byte}
    (hlen : chunk.length ≤ st.count) :
    Kept bytes mem (takeChunk isAac chunk st) ∧
      (takeChunk isAac chunk st).p + (takeChunk isAac chunk st).count ≤ bytes := by
  have hchunk : ∀ i, bytes ≤ i → Records.store st.mem st.p chunk i = mem i := store_outside h.outside (by omega)
  cases isAac with
  | false =>
    refine ⟨⟨h.touched, hchunk⟩, ?_⟩
    change st.p + chunk.length + (st.count - chunk.length) ≤ bytes
    omega
  | true =>
    obtain ⟨h6, hsize⟩ := hframe rfl
    refine ⟨⟨fun t ht => ?_, ?_⟩, ?_⟩
    · change t ∈ (frameCountOff, 2) :: (st.frameSizePtr, 2) :: st.touched at ht
      rcases List.mem_cons.mp ht with rfl | ht
      · exact h6
      rcases List.mem_cons.mp ht with rfl | ht
      · exact hsize
      · exact h.touched t ht
    · exact store_outside (store_outside hchunk (by simpa using hsize)) (by simpa [frameCountOff] using h6)
    · change st.p + chunk.length + (st.count - chunk.length) ≤ bytes
      omega

/-- The loop stays inside when its first round does. -/
theorem readLoop_kept (fd : Int) (haac : isAac = true → 6 ≤ bytes) (answers : List ReadAnswer)
    (h : Kept bytes mem st) (hroom : st.p + st.count ≤ bytes) :
    Kept bytes mem (readLoop isAac fd answers st).1 := by
  induction answers generalizing st with
  | nil =>
    have hslot := nextSlot_kept isAac h
    have hgo := nextSlot_room isAac hroom
    rw [readLoop]
    generalize nextSlot isAac st = slot at hslot hgo
    obtain ⟨st', _ | _⟩ := slot
    · exact hslot
    · exact askDriver_kept hslot (hgo rfl).1 fd
  | cons answer rest ih =>
    have hslot := nextSlot_kept isAac h
    have hgo := nextSlot_room isAac hroom
    rw [readLoop]
    generalize nextSlot isAac st = slot at hslot hgo
    obtain ⟨st', _ | _⟩ := slot
    · exact hslot
    · obtain ⟨hroom', hframe⟩ := hgo rfl
      have hasked := askDriver_kept hslot hroom' fd
      cases answer with
      | error => exact hasked
      | again => exact ih ⟨hasked.touched, hasked.outside⟩ hroom'
      | data chunk =>
        have hchunk := takeChunk_kept hasked hroom' (fun h => ⟨haac h, hframe h⟩)
          (List.length_take_le st'.count chunk)
        dsimp only
        split_ifs with hend hfirst
        · exact hasked
        · exact ih hchunk.1 hchunk.2
        · exact ⟨hchunk.1.touched, hchunk.1.outside⟩

/-- No round takes more from `count` than there is. -/
theorem loopTaken_fits (fd : Int) (answers : List ReadAnswer) :
    ∀ t ∈ loopTaken isAac fd answers st, t.2 ≤ t.1 := by
  have hslot : ∀ st, ∀ t ∈ slotTaken isAac st, t.2 ≤ t.1 := by
    intro st t ht
    unfold slotTaken at ht
    split_ifs at ht with h2
    · rw [List.mem_singleton.mp ht]
      exact h2.2.le
    · cases ht
  induction answers generalizing st with
  | nil => exact hslot st
  | cons answer rest ih =>
    intro t ht
    rw [loopTaken] at ht
    rcases List.mem_append.mp ht with ht | ht
    · exact hslot st t ht
    rcases hnext : nextSlot isAac st with ⟨st', _ | _⟩
    · rw [hnext] at ht
      cases ht
    · rw [hnext] at ht
      cases answer with
      | error => cases ht
      | again => exact ih t ht
      | data chunk =>
        dsimp only at ht
        split_ifs at ht with hend hfirst
        · cases ht
        · rcases List.mem_cons.mp ht with rfl | ht
          · exact List.length_take_le _ _
          · exact ih t ht
        · rw [List.mem_singleton.mp ht]
          exact List.length_take_le _ _

end

/-! ## The call -/

/-- The header fits a buffer of six bytes or more. -/
theorem firstSlot_kept (s : AudioStreamIn) (mem : Memory) {bytes : Nat} (log : List PcmCall)
    (h6 : s.mFormat = aac → 6 ≤ bytes) :
    Kept bytes mem (firstSlot s mem bytes log) ∧
      (firstSlot s mem bytes log).p + (firstSlot s mem bytes log).count ≤ bytes := by
  unfold firstSlot
  split_ifs with haac
  · have hbytes := h6 haac
    refine ⟨⟨fun t ht => ?_, ?_⟩, ?_⟩
    · change t ∈ [(frameCountOff, 2), (0, 4)] at ht
      have hfour : (0, 4).1 + (0, 4).2 ≤ 6 := by decide
      have hsix : (frameCountOff, 2).1 + (frameCountOff, 2).2 ≤ 6 := by decide
      rcases List.mem_cons.mp ht with rfl | ht
      · exact hsix.trans hbytes
      · rw [List.mem_singleton.mp ht]
        omega
    · refine store_outside (store_outside (fun i _ => rfl) ?_) ?_
      · rw [Records.length_leBytes]
        omega
      · rw [Records.length_leBytes]
        exact hbytes
    · change 6 + subSize bytes 6 ≤ bytes
      unfold subSize
      omega
  · refine ⟨⟨nofun, fun i _ => rfl⟩, ?_⟩
    change 0 + bytes ≤ bytes
    omega

/-- A call whose stream does not start touches nothing. -/
theorem inside_of_not_started {ptr : Nat} {mem : Memory} {bytes : Nat} {answers : List ReadAnswer} {w : World}
    (h : ∀ s ∈ w.hw.streams ptr, (startInput p ptr s w).2 = none) : Inside p ptr mem bytes answers w := by
  cases hs : w.hw.streams ptr with
  | none =>
    refine ⟨?_, ?_, ?_⟩ <;> simp [AudioStreams.read, taken, hs]
  | some s =>
    have hnone := h s hs
    rcases hst : startInput p ptr s w with ⟨w', s'⟩
    rw [hst] at hnone
    obtain rfl : s' = none := hnone
    refine ⟨?_, ?_, ?_⟩ <;> simp [AudioStreams.read, taken, hs, hst]

section
variable {ptr : Nat} {s s' : AudioStreamIn} {w w' : World} (mem : Memory) (bytes : Nat) (answers : List ReadAnswer)

/-- What a call touches once its stream has started. -/
theorem read_of_start (hs : w.hw.streams ptr = some s) (hst : startInput p ptr s w = (w', some s')) :
    (read p ptr mem bytes answers w).2.mem =
        (readLoop (s'.mFormat = aac) s'.mFd answers (firstSlot s' mem bytes w'.pcmIn)).1.mem ∧
      (read p ptr mem bytes answers w).2.touched =
        (readLoop (s'.mFormat = aac) s'.mFd answers (firstSlot s' mem bytes w'.pcmIn)).1.touched ∧
      taken p ptr mem bytes answers w = (if s'.mFormat = aac then [(bytes, 6)] else []) ++
        loopTaken (s'.mFormat = aac) s'.mFd answers (firstSlot s' mem bytes w'.pcmIn) := by
  unfold AudioStreams.read taken
  simp only [hs, hst, readFrames, firstSlot, decide_eq_true_eq, and_self]

theorem inside_of_started (hs : w.hw.streams ptr = some s) (hst : startInput p ptr s w = (w', some s'))
    (h6 : s'.mFormat = aac → 6 ≤ bytes) : Inside p ptr mem bytes answers w := by
  obtain ⟨hmem, htouched, htaken⟩ := read_of_start mem bytes answers hs hst
  obtain ⟨hkept, hroom⟩ := firstSlot_kept s' mem w'.pcmIn h6
  have hloop := readLoop_kept s'.mFd (fun h => h6 (of_decide_eq_true h)) answers hkept hroom
  refine ⟨htouched ▸ hloop.touched, fun i hi => ?_, fun t ht => ?_⟩
  · rw [hmem, hloop.outside i hi]
  · rw [htaken] at ht
    rcases List.mem_append.mp ht with ht | ht
    · split_ifs at ht with haac
      · rw [List.mem_singleton.mp ht]
        exact h6 haac
      · cases ht
    · exact loopTaken_fits _ _ t ht

end

/-- A call stays inside its buffer, with no count that wraps, exactly when it is not an AAC
capture that starts on fewer than six bytes. -/
theorem read_inside_iff (p : Platform) (ptr : Nat) (mem : Memory) (bytes : Nat) (answers : List ReadAnswer)
    (w : World) : Inside p ptr mem bytes answers w ↔
      ∀ s ∈ w.hw.streams ptr, s.mFormat = aac → bytes < 6 → (startInput p ptr s w).2 = none := by
  constructor
  · intro h s hs haac hshort
    rcases hst : startInput p ptr s w with ⟨w', _ | s'⟩
    · rfl
    · obtain ⟨-, -, htaken⟩ := read_of_start mem bytes answers hs hst
      have haac' : s'.mFormat = aac := (startInput_session (congrArg Prod.snd hst)).1.trans haac
      have hheader := h.taken (bytes, 6) (by rw [htaken, if_pos haac']; exact List.mem_cons_self)
      exact absurd hheader (by simpa using hshort)
  · intro h
    by_cases hstart : ∀ s ∈ w.hw.streams ptr, (startInput p ptr s w).2 = none
    · exact inside_of_not_started hstart
    · push Not at hstart
      obtain ⟨s, hs, hsome⟩ := hstart
      rcases hst : startInput p ptr s w with ⟨w', _ | s'⟩
      · exact absurd (congrArg Prod.snd hst) hsome
      · refine inside_of_started mem bytes answers hs hst fun haac' => ?_
        by_contra hshort
        have haac := (startInput_session (congrArg Prod.snd hst)).1.symm.trans haac'
        exact hsome (h s hs haac (by omega))

/-- A capture with a buffer of four bytes: the frame count lands behind it. -/
theorem read_header_outside : ¬ Inside acceptAll 7 (fun _ => 0) 4 [.data [1]] capturing := by
  intro h
  have htouched := h.touched (4, 2) (by decide +kernel)
  exact absurd htouched (by decide)

end AudioReadBounds
