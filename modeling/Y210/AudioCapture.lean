import Y210.AudioStreams
import Y210.Run

/-!
# The framing of an AAC capture

`read` lays the chunks of the driver out as length-prefixed records behind a header. A
round in which the driver answers `EAGAIN` moves the slot of the next record by two
bytes. The laws below say when the buffer still decodes to the chunks.
-/
namespace AudioCapture

open AudioDrivers AudioHardware AudioStreams
open Records (Byte Memory RecordsAt decodeRecords load16 store16 slice leBytes)

/-- The chunks in a buffer of `limit` bytes: the magic word, a 16-bit count, and that
many records. -/
def decodeBuffer (mem : Memory) (limit : Nat) : Option (List (List Byte)) :=
  if slice mem 0 4 = leBytes 4 0x51434F4D then decodeRecords mem limit (load16 mem 4) 6 else none

/-- Whether, with `count` bytes left, the driver delivers a chunk after an `EAGAIN` with
no chunk between them; `again` tells whether there has been one already. The first chunk
of a session ends the call. -/
def ChunkAfterRetry : Bool → Nat → Bool → List ReadAnswer → Prop
  | _, _, _, [] => False
  | firstread, count, again, .data chunk :: rest =>
    2 < count ∧ chunk ≠ [] ∧ (again = true ∨ firstread = true ∧
      ChunkAfterRetry true (count - 2 - (chunk.take (count - 2)).length) false rest)
  | firstread, count, _, .again :: rest => 2 < count ∧ ChunkAfterRetry firstread (count - 2) true rest
  | _, _, _, .error :: _ => False

/-! ## The rounds of the loop -/

/-- The state in which the driver is asked for a chunk. -/
def asked (fd : Int) (st : ReadState) : ReadState :=
  askDriver fd { st with frameSizePtr := st.p, p := st.p + 2, count := st.count - 2 }

/-- The state after `EAGAIN`: the cursors have moved over the slot of the size. -/
def waited (fd : Int) (st : ReadState) : ReadState := { asked fd st with retries := st.retries + 1 }

/-- The state after a chunk. -/
def framed (fd : Int) (chunk : List Byte) (st : ReadState) : ReadState :=
  takeChunk true chunk (asked fd st)

/-- With two bytes or less the loop ends. -/
theorem readLoop_stop (fd : Int) (answers : List ReadAnswer) {st : ReadState} (h : st.count ≤ 2) :
    ∃ st', readLoop true fd answers st = (st', .returned, answers) ∧ st'.mem = st.mem ∧
      st'.delivered = st.delivered ∧ st.p ≤ st'.p := by
  have hs : ∃ st', nextSlot true st = (st', false) ∧ st'.mem = st.mem ∧
      st'.delivered = st.delivered ∧ st.p ≤ st'.p := by
    unfold nextSlot
    by_cases h0 : st.count = 0
    · rw [if_pos h0]
      exact ⟨st, rfl, rfl, rfl, le_rfl⟩
    · rw [if_neg h0, if_pos rfl]
      dsimp only
      rw [if_neg (by omega)]
      exact ⟨_, rfl, rfl, rfl, Nat.le_add_right _ _⟩
  obtain ⟨st', hn, hst⟩ := hs
  refine ⟨st', ?_, hst⟩
  cases answers <;> rw [readLoop, hn]

/-- With more the driver is asked. -/
theorem readLoop_asks (fd : Int) (answers : List ReadAnswer) {st : ReadState} (h : 2 < st.count) :
    readLoop true fd answers st = match answers with
      | [] => (asked fd st, .blocked, [])
      | .data chunk :: rest =>
        if chunk.take (st.count - 2) = [] then (asked fd st, .returned, rest)
        else if st.firstread then readLoop true fd rest (framed fd (chunk.take (st.count - 2)) st)
        else ({ framed fd (chunk.take (st.count - 2)) st with firstread := true }, .returned, rest)
      | .again :: rest => readLoop true fd rest (waited fd st)
      | .error :: rest => (asked fd st, .failed, rest) := by
  have hn : nextSlot true st = ({ st with frameSizePtr := st.p, p := st.p + 2, count := st.count - 2 },
      true) := by
    unfold nextSlot
    rw [if_neg (by omega), if_pos rfl]
    dsimp only
    rw [if_pos h]
  cases answers with
  | nil =>
    rw [readLoop, hn]
    rfl
  | cons answer rest =>
    rw [readLoop, hn]
    cases answer <;> rfl

/-- The invariant rule of the loop: `Inv` is about the answers to come and the state, and
gives `Q` wherever the loop may end. -/
theorem readLoop_invariant (fd : Int) (Inv : List ReadAnswer → ReadState → Prop)
    {Q : Memory → List (List Byte) → Prop}
    (hend : ∀ answers st, Inv answers st → Q st.mem st.delivered)
    (hwait : ∀ rest st, 2 < st.count → Inv (.again :: rest) st → Inv rest (waited fd st))
    (hchunk : ∀ chunk rest st, 2 < st.count → chunk.take (st.count - 2) ≠ [] →
      Inv (.data chunk :: rest) st →
        Inv (if st.firstread then rest else []) (framed fd (chunk.take (st.count - 2)) st))
    {answers : List ReadAnswer} {st : ReadState} (h : Inv answers st) :
    Q (readLoop true fd answers st).1.mem (readLoop true fd answers st).1.delivered := by
  induction answers generalizing st with
  | nil =>
    have hQ := hend [] st h
    by_cases hc : 2 < st.count
    · rw [readLoop_asks fd [] hc]
      exact hQ
    · obtain ⟨st', he, hm, hd, -⟩ := readLoop_stop fd [] (not_lt.mp hc)
      rw [he, hm, hd]
      exact hQ
  | cons answer rest ih =>
    have hQ := hend (answer :: rest) st h
    by_cases hc : 2 < st.count
    · rw [readLoop_asks fd _ hc]
      cases answer with
      | error => exact hQ
      | again => exact ih (hwait rest st hc h)
      | data chunk =>
        dsimp only
        by_cases hnil : chunk.take (st.count - 2) = []
        · rw [if_pos hnil]
          exact hQ
        · have hnext := hchunk chunk rest st hc hnil h
          rw [if_neg hnil]
          split
          · rename_i hfirst
            rw [if_pos hfirst] at hnext
            exact ih hnext
          · rename_i hfirst
            rw [if_neg hfirst] at hnext
            have hQ' := hend [] _ hnext
            exact hQ'
    · obtain ⟨st', he, hm, hd, -⟩ := readLoop_stop fd (answer :: rest) (not_lt.mp hc)
      rw [he, hm, hd]
      exact hQ

/-! ## What a chunk does to the buffer -/

section
variable (fd : Int) (chunk : List Byte) (st : ReadState)

/-- The memory with the chunk and its size, before the frame count moves. -/
def withRecord : Memory := store16 (Records.store st.mem (st.p + 2) chunk) st.p chunk.length

@[simp] theorem framed_mem : (framed fd chunk st).mem =
    store16 (withRecord chunk st) 4 (load16 (withRecord chunk st) 4 + 1) := rfl
@[simp] theorem framed_p : (framed fd chunk st).p = st.p + 2 + chunk.length := rfl
@[simp] theorem framed_count : (framed fd chunk st).count = st.count - 2 - chunk.length := rfl
@[simp] theorem framed_delivered : (framed fd chunk st).delivered = st.delivered ++ [chunk] := rfl
@[simp] theorem framed_firstread : (framed fd chunk st).firstread = st.firstread := rfl

end

theorem withRecord_below {chunk : List Byte} {st : ReadState} {i : Nat} (h : i < st.p) :
    withRecord chunk st i = st.mem i := by
  rw [withRecord, store16, Records.store_below _ _ h, Records.store_below _ _ (by omega)]

/-- Below the slot only the frame count changes. -/
theorem framed_below {fd : Int} {chunk : List Byte} {st : ReadState} {i : Nat} (h : i < st.p)
    (hc : i < 4 ∨ 6 ≤ i) : (framed fd chunk st).mem i = st.mem i := by
  rw [framed_mem, store16]
  rcases hc with hc | hc
  · rw [Records.store_below _ _ hc, withRecord_below h]
  · rw [Records.store_above _ _ (by simpa using hc), withRecord_below h]

theorem framed_frameCount {fd : Int} {chunk : List Byte} {st : ReadState} (hp : 6 ≤ st.p)
    (hc : load16 st.mem 4 + 1 < 65536) :
    load16 (framed fd chunk st).mem 4 = load16 st.mem 4 + 1 := by
  have hw : load16 (withRecord chunk st) 4 = load16 st.mem 4 :=
    Records.load16_congr fun i _ hi => withRecord_below (by omega)
  rw [framed_mem, hw, Records.load16_store16 _ _ _ hc]

/-- The new record follows the old ones. -/
theorem framed_records (fd : Int) {chunk : List Byte} {st : ReadState} {ds : List (List Byte)}
    (h : RecordsAt st.mem 6 ds st.p) (hlen : chunk.length < 65536) :
    RecordsAt (framed fd chunk st).mem 6 (ds ++ [chunk]) (framed fd chunk st).p := by
  have hpush := h.push chunk hlen
  refine hpush.congr fun i hi _ => ?_
  rw [framed_mem, store16, Records.store_above _ _ (by simpa using hi)]
  rfl

/-! ## Without a retry before a chunk -/

/-- The cursors stay inside the buffer, and every chunk took at least three bytes. -/
structure Bounded (bytes : Nat) (st : ReadState) : Prop where
  fits : bytes ≤ 65535
  inside : st.p + st.count ≤ bytes
  dense : 6 + 3 * st.delivered.length ≤ st.p

/-- The header is written and its count is right. -/
structure Headed (st : ReadState) : Prop where
  magic : slice st.mem 0 4 = leBytes 4 0x51434F4D
  frameCount : load16 st.mem 4 = st.delivered.length

theorem bounded_framed {bytes : Nat} {st : ReadState} (h : Bounded bytes st) (fd : Int)
    {chunk : List Byte} (hne : chunk ≠ []) (hlen : chunk.length ≤ st.count - 2) (hc : 2 < st.count) :
    Bounded bytes (framed fd chunk st) := by
  have hin := h.inside
  have hd := h.dense
  have hpos := List.length_pos_of_ne_nil hne
  refine ⟨h.fits, ?_, ?_⟩
  · simp only [framed_p, framed_count]
    omega
  · simp only [framed_p, framed_delivered, List.length_append, List.length_singleton]
    omega

theorem headed_framed {bytes : Nat} {st : ReadState} (h : Headed st) (hb : Bounded bytes st) (fd : Int)
    (chunk : List Byte) : Headed (framed fd chunk st) := by
  have hd := hb.dense
  have hin := hb.inside
  have hf := hb.fits
  refine ⟨?_, ?_⟩
  · rw [Records.slice_congr fun i _ hi => framed_below (by omega) (.inl (by omega)), h.magic]
  · rw [framed_frameCount (by omega) (by rw [h.frameCount]; omega), h.frameCount, framed_delivered,
      List.length_append, List.length_singleton]

/-- Waiting changes neither the header nor the bounds. -/
theorem bounded_waited {bytes : Nat} {st : ReadState} (h : Bounded bytes st) (fd : Int)
    (hc : 2 < st.count) : Bounded bytes (waited fd st) := by
  have hin := h.inside
  have hd := h.dense
  refine ⟨h.fits, ?_, ?_⟩
  · change st.p + 2 + (st.count - 2) ≤ bytes
    omega
  · change 6 + 3 * st.delivered.length ≤ st.p + 2
    omega

theorem headed_waited {st : ReadState} (h : Headed st) (fd : Int) : Headed (waited fd st) :=
  ⟨h.magic, h.frameCount⟩

/-- The records are laid out from the header up to some place inside the buffer. -/
def Laid (bytes : Nat) (mem : Memory) (ds : List (List Byte)) : Prop :=
  slice mem 0 4 = leBytes 4 0x51434F4D ∧ load16 mem 4 = ds.length ∧
    ∃ fin, RecordsAt mem 6 ds fin ∧ fin ≤ bytes

theorem decodeBuffer_of_laid {bytes : Nat} {mem : Memory} {ds : List (List Byte)}
    (h : Laid bytes mem ds) : decodeBuffer mem bytes = some ds := by
  obtain ⟨hm, hc, fin, hr, hf⟩ := h
  rw [decodeBuffer, if_pos hm, hc]
  exact Records.decodeRecords_of_recordsAt hr hf

/-- The records end at the cursor; or, behind an `EAGAIN` that no chunk follows, they lie
where they were. -/
def Orderly (bytes : Nat) (answers : List ReadAnswer) (st : ReadState) : Prop :=
  (Bounded bytes st ∧ Headed st ∧ RecordsAt st.mem 6 st.delivered st.p ∧
    ¬ ChunkAfterRetry st.firstread st.count false answers) ∨
  (Laid bytes st.mem st.delivered ∧ ¬ ChunkAfterRetry st.firstread st.count true answers)

theorem laid_of_orderly {bytes : Nat} (answers : List ReadAnswer) (st : ReadState)
    (h : Orderly bytes answers st) : Laid bytes st.mem st.delivered := by
  rcases h with ⟨hb, hh, hr, -⟩ | ⟨hl, -⟩
  · have hin := hb.inside
    exact ⟨hh.magic, hh.frameCount, st.p, hr, by omega⟩
  · exact hl

/-- Without a retry before a chunk the records stay back to back. -/
theorem readLoop_lays (fd : Int) {bytes : Nat} {answers : List ReadAnswer} {st : ReadState}
    (hb : Bounded bytes st) (hh : Headed st) (hr : RecordsAt st.mem 6 st.delivered st.p)
    (h : ¬ ChunkAfterRetry st.firstread st.count false answers) :
    Laid bytes (readLoop true fd answers st).1.mem (readLoop true fd answers st).1.delivered := by
  refine readLoop_invariant fd (Orderly bytes) laid_of_orderly ?_ ?_ (.inl ⟨hb, hh, hr, h⟩)
  · intro rest st hc hinv
    refine .inr ⟨laid_of_orderly _ st hinv, fun hretry => ?_⟩
    rcases hinv with ⟨-, -, -, hno⟩ | ⟨-, hno⟩
    · exact hno ⟨hc, hretry⟩
    · exact hno ⟨hc, hretry⟩
  · intro chunk rest st hc hnil hinv
    have hne : chunk ≠ [] := fun he => hnil (by rw [he, List.take_nil])
    rcases hinv with ⟨hb, hh, hr, hno⟩ | ⟨-, hno⟩
    · have hlen : (chunk.take (st.count - 2)).length ≤ st.count - 2 := List.length_take_le _ _
      have hin := hb.inside
      have hf := hb.fits
      refine .inl ⟨bounded_framed hb fd hnil hlen hc, headed_framed hh hb fd _,
        framed_records fd hr (by omega), ?_⟩
      rw [framed_firstread]
      cases hfirst : st.firstread with
      | true => exact fun hretry => hno ⟨hc, hne, .inr ⟨hfirst, hretry⟩⟩
      | false => exact id
    · exact absurd ⟨hc, hne, .inl rfl⟩ hno

/-! ## A chunk after a retry -/

/-- A slot behind the records `pre` that no size was written to, and the cursor past it. -/
structure Gap (pre : List (List Byte)) (fin : Nat) (st : ReadState) : Prop where
  records : RecordsAt st.mem 6 pre fin
  zero : load16 st.mem fin = 0
  past : fin + 2 ≤ st.p

theorem gap_framed {pre : List (List Byte)} {fin : Nat} {st : ReadState} (h : Gap pre fin st) (fd : Int)
    (chunk : List Byte) : Gap pre fin (framed fd chunk st) := by
  have hle := h.records.le
  have hpast := h.past
  refine ⟨?_, ?_, ?_⟩
  · exact h.records.congr fun i hi hlt => framed_below (by omega) (.inr hi)
  · rw [Records.load16_congr fun i hi hlt => framed_below (by omega) (.inr (by omega)), h.zero]
  · rw [framed_p]
    omega

theorem gap_waited {pre : List (List Byte)} {fin : Nat} {st : ReadState} (h : Gap pre fin st) (fd : Int) :
    Gap pre fin (waited fd st) :=
  ⟨h.records, h.zero, Nat.le_add_right_of_le h.past⟩

/-- A decoder reads an empty chunk from the slot. -/
theorem decodeBuffer_of_gap (bytes : Nat) {pre : List (List Byte)} {fin : Nat} {st : ReadState} {c : List Byte}
    (h : Gap pre fin st) (hh : Headed st) (hc : st.delivered[pre.length]? = some c) (hne : c ≠ []) :
    decodeBuffer st.mem bytes ≠ some st.delivered := by
  intro hd
  unfold decodeBuffer at hd
  rw [if_pos hh.magic, hh.frameCount] at hd
  have hlt : pre.length < st.delivered.length := (List.getElem?_eq_some_iff.mp hc).1
  have hgap := Records.decodeRecords_gap h.records h.zero hlt hd
  rw [hc] at hgap
  exact hne (Option.some.inj hgap)

/-- Once a chunk lies behind a gap the buffer stays broken. -/
theorem readLoop_keeps_gap (fd : Int) {bytes fin : Nat} {pre : List (List Byte)} {c : List Byte}
    {answers : List ReadAnswer} {st : ReadState} (hb : Bounded bytes st) (hh : Headed st)
    (hg : Gap pre fin st) (hc : st.delivered[pre.length]? = some c) (hne : c ≠ []) :
    decodeBuffer (readLoop true fd answers st).1.mem bytes ≠
      some (readLoop true fd answers st).1.delivered := by
  refine readLoop_invariant fd (Q := fun mem delivered => decodeBuffer mem bytes ≠ some delivered)
    (fun _ st => Bounded bytes st ∧ Headed st ∧ Gap pre fin st ∧ st.delivered[pre.length]? = some c)
    ?_ ?_ ?_ ⟨hb, hh, hg, hc⟩
  · rintro _ st ⟨-, hh, hg, hc⟩
    exact decodeBuffer_of_gap bytes hg hh hc hne
  · rintro _ st h2 ⟨hb, hh, hg, hc⟩
    exact ⟨bounded_waited hb fd h2, headed_waited hh fd, gap_waited hg fd, hc⟩
  · rintro chunk _ st h2 hnil ⟨hb, hh, hg, hc⟩
    have hlen : (chunk.take (st.count - 2)).length ≤ st.count - 2 := List.length_take_le _ _
    refine ⟨bounded_framed hb fd hnil hlen h2, headed_framed hh hb fd _, gap_framed hg fd _, ?_⟩
    rw [framed_delivered, List.getElem?_append_left (List.getElem?_eq_some_iff.mp hc).1, hc]

/-- The first chunk behind a gap lies where no decoder looks for it. -/
theorem chunk_behind_gap (fd : Int) {bytes fin : Nat} {chunk : List Byte} {rest : List ReadAnswer}
    {st : ReadState} (hb : Bounded bytes st) (hh : Headed st) (hg : Gap st.delivered fin st)
    (h2 : 2 < st.count) (hne : chunk ≠ []) :
    decodeBuffer (readLoop true fd (.data chunk :: rest) st).1.mem bytes ≠
      some (readLoop true fd (.data chunk :: rest) st).1.delivered := by
  have hnil : chunk.take (st.count - 2) ≠ [] := by
    simp only [ne_eq, List.take_eq_nil_iff, hne, or_false]
    omega
  have hlen : (chunk.take (st.count - 2)).length ≤ st.count - 2 := List.length_take_le _ _
  have hb' := bounded_framed hb fd hnil hlen h2
  have hh' := headed_framed hh hb fd (chunk.take (st.count - 2))
  have hg' := gap_framed hg fd (chunk.take (st.count - 2))
  have hc' : (framed fd (chunk.take (st.count - 2)) st).delivered[st.delivered.length]? =
      some (chunk.take (st.count - 2)) := by
    rw [framed_delivered, List.getElem?_concat_length]
  have hbroken := decodeBuffer_of_gap bytes hg' hh' hc' hnil
  rw [readLoop_asks fd _ h2]
  dsimp only
  rw [if_neg hnil]
  split
  · exact readLoop_keeps_gap fd hb' hh' hg' hc' hnil
  · exact hbroken

/-- After an `EAGAIN` the next chunk breaks the buffer. -/
theorem readLoop_waits_gap (fd : Int) {bytes fin : Nat} {answers : List ReadAnswer} {st : ReadState}
    (hb : Bounded bytes st) (hh : Headed st) (hg : Gap st.delivered fin st)
    (h : ChunkAfterRetry st.firstread st.count true answers) :
    decodeBuffer (readLoop true fd answers st).1.mem bytes ≠
      some (readLoop true fd answers st).1.delivered := by
  induction answers generalizing st with
  | nil => exact h.elim
  | cons answer rest ih =>
    cases answer with
    | error => exact h.elim
    | again =>
      rw [readLoop_asks fd _ h.1]
      exact ih (bounded_waited hb fd h.1) (headed_waited hh fd) (gap_waited hg fd) h.2
    | data chunk => exact chunk_behind_gap fd hb hh hg h.1 h.2.1

/-- In a buffer that was zero, a chunk after an `EAGAIN` breaks the framing. -/
theorem readLoop_breaks (fd : Int) {bytes : Nat} {answers : List ReadAnswer} {st : ReadState}
    (hb : Bounded bytes st) (hh : Headed st) (hr : RecordsAt st.mem 6 st.delivered st.p)
    (hz : ∀ i, st.p ≤ i → st.mem i = 0) (h : ChunkAfterRetry st.firstread st.count false answers) :
    decodeBuffer (readLoop true fd answers st).1.mem bytes ≠
      some (readLoop true fd answers st).1.delivered := by
  induction answers generalizing st with
  | nil => exact h.elim
  | cons answer rest ih =>
    cases answer with
    | error => exact h.elim
    | again =>
      have hslot : load16 st.mem st.p = 0 := by
        simp [load16, Records.slice, Records.leValue, List.range_succ, hz]
      rw [readLoop_asks fd _ h.1]
      exact readLoop_waits_gap fd (bounded_waited hb fd h.1) (headed_waited hh fd) ⟨hr, hslot, le_rfl⟩ h.2
    | data chunk =>
      obtain ⟨h2, hne, hfalse | ⟨hfirst, hrest⟩⟩ := h
      · cases hfalse
      · have hnil : chunk.take (st.count - 2) ≠ [] := by
          simp only [ne_eq, List.take_eq_nil_iff, hne, or_false]
          omega
        have hlen : (chunk.take (st.count - 2)).length ≤ st.count - 2 := List.length_take_le _ _
        have hin := hb.inside
        have hd := hb.dense
        have hf := hb.fits
        have hb' := bounded_framed hb fd hnil hlen h2
        have hh' := headed_framed hh hb fd (chunk.take (st.count - 2))
        have hr' := framed_records fd hr (by omega : (chunk.take (st.count - 2)).length < 65536)
        rw [readLoop_asks fd _ h2]
        dsimp only
        rw [if_neg hnil, if_pos hfirst]
        refine ih hb' hh' hr' (fun i hi => ?_) (by rwa [framed_firstread, hfirst])
        rw [framed_p] at hi
        rw [framed_mem, withRecord, store16, store16, Records.store_above _ _ (by simp; omega),
          Records.store_above _ _ (by simp; omega), Records.store_above _ _ hi]
        exact hz i (by omega)

/-! ## The call -/

/-- The state behind the header of a buffer. -/
def headed (mem : Memory) (bytes : Nat) (firstread : Bool) (retries : Nat) (log : List PcmCall) :
    ReadState :=
  aacHeader ⟨mem, 0, bytes, 0, 0, firstread, retries, [], [], log⟩

section
variable (mem : Memory) {bytes : Nat} (firstread : Bool) (retries : Nat) (log : List PcmCall)

theorem headed_count (h6 : 6 ≤ bytes) (h64 : bytes ≤ 65535) :
    (headed mem bytes firstread retries log).count = bytes - 6 := by
  change subSize bytes 6 = bytes - 6
  unfold subSize
  omega

theorem bounded_headed (h6 : 6 ≤ bytes) (h64 : bytes ≤ 65535) :
    Bounded bytes (headed mem bytes firstread retries log) := by
  refine ⟨h64, ?_, le_rfl⟩
  rw [headed_count _ _ _ _ h6 h64]
  exact (Nat.add_sub_cancel' h6).le

theorem headed_headed : Headed (headed mem bytes firstread retries log) := by
  refine ⟨?_, Records.load16_store16 _ _ _ (by decide)⟩
  calc slice (headed mem bytes firstread retries log).mem 0 4
      = slice (Records.store mem 0 (leBytes 4 0x51434F4D)) 0 4 :=
        Records.slice_congr fun i _ hi => Records.store_below _ _ hi
    _ = leBytes 4 0x51434F4D := Records.slice_store mem 0 (leBytes 4 0x51434F4D)

theorem headed_zero {i : Nat} (hi : 6 ≤ i) : (headed (fun _ => 0) bytes firstread retries log).mem i = 0 := by
  change store16 (Records.store _ 0 (leBytes 4 0x51434F4D)) 4 0 i = 0
  rw [store16, Records.store_above _ _ (by simpa using hi), Records.store_above _ _ (by simp; omega)]

end

/-- How the loop ends does not depend on what is in the buffer. -/
theorem readLoop_end (fd : Int) {answers : List ReadAnswer} {st st' : ReadState}
    (hc : st'.count = st.count) (hf : st'.firstread = st.firstread) :
    (readLoop true fd answers st').2.1 = (readLoop true fd answers st).2.1 := by
  induction answers generalizing st st' with
  | nil =>
    by_cases h2 : 2 < st.count
    · rw [readLoop_asks fd _ h2, readLoop_asks fd _ (hc ▸ h2)]
    · obtain ⟨_, he, -⟩ := readLoop_stop fd [] (not_lt.mp h2)
      obtain ⟨_, he', -⟩ := readLoop_stop fd [] (hc ▸ not_lt.mp h2)
      rw [he, he']
  | cons answer rest ih =>
    by_cases h2 : 2 < st.count
    · rw [readLoop_asks fd _ h2, readLoop_asks fd _ (hc ▸ h2)]
      cases answer with
      | error => rfl
      | again => exact ih (congrArg (· - 2) hc) hf
      | data chunk =>
        dsimp only
        rw [hc, hf]
        split
        · rfl
        · split
          · refine ih ?_ hf
            rw [framed_count, framed_count, hc]
          · rfl
    · obtain ⟨_, he, -⟩ := readLoop_stop fd (answer :: rest) (not_lt.mp h2)
      obtain ⟨_, he', -⟩ := readLoop_stop fd (answer :: rest) (hc ▸ not_lt.mp h2)
      rw [he, he']

/-- Whether the first chunk of the session has been read. A closed stream starts a new one. -/
def sessionFirstread (s : AudioStreamIn) : Bool := s.mState ≠ .closed && s.mFirstread

/-- Every branch of `set` keeps the format. -/
theorem setFormat_ok {p : Platform} {devices : Devices} {a : InArgs} {s : AudioStreamIn}
    {log : List PcmCall} (h : (setFormat p devices a s log).status = noError) :
    (setFormat p devices a s log).stream.mFormat = a.format := by
  have hlow : ¬ (-1 : Status) = noError := by decide
  have hhigh : ¬ (1 : Status) = noError := by decide
  unfold setFormat at h ⊢
  split_ifs at h ⊢ with hpcm hamr
  · unfold setPcm at h ⊢
    dsimp only at h ⊢
    split_ifs at h ⊢ <;> first | exact absurd h hlow | exact hpcm.symm
  · unfold setAmr at h ⊢
    dsimp only at h ⊢
    split_ifs at h ⊢ <;> first | exact absurd h hlow | exact absurd h hhigh | exact hamr.symm
  · unfold setAac at h ⊢
    dsimp only at h ⊢
    split_ifs at h ⊢ <;> first | exact absurd h hhigh | rfl

/-- A `set` that succeeds keeps the format and makes no proposal. -/
theorem inSet_format {p : Platform} {devices : Devices} {a : InArgs} {s : AudioStreamIn} {w : World}
    (h : (inSet p devices a s w).2.2.2 = noError) :
    (inSet p devices a s w).1.mFormat = a.format ∧ (inSet p devices a s w).2.1 = none := by
  unfold inSet at h ⊢
  cases hcheck : checkInArgs a with
  | some proposal =>
    rw [hcheck] at h
    exact absurd (show badValue = noError from h) (by decide)
  | none =>
    rw [hcheck] at h
    dsimp only at h ⊢
    split_ifs at h ⊢ with hfd hstatus hindex
    · exact absurd (show eperm = noError from h) (by decide)
    · exact absurd h hstatus
    · exact absurd (show einval = noError from h) (by decide)
    · exact ⟨setFormat_ok (not_not.mp hstatus), rfl⟩

/-- Re-opening a stream keeps the format. -/
theorem reopen_session {p : Platform} {s : AudioStreamIn} {w : World} (h : (reopen p s w).2.2 = noError) :
    (reopen p s w).1.mFormat = s.mFormat ∧ (reopen p s w).1.mFirstread = sessionFirstread s := by
  unfold reopen sessionFirstread at *
  by_cases hclosed : s.mState = .closed
  · rw [if_pos hclosed] at h ⊢
    have hset := inSet_format (a := ⟨s.mFormat, s.mChannels, s.mSampleRate⟩) h
    dsimp only at h ⊢
    rw [if_pos h, hset.2]
    exact ⟨hset.1, by simp [hclosed]⟩
  · rw [if_neg hclosed]
    exact ⟨rfl, by simp [hclosed]⟩

/-- So does starting it. -/
theorem startInput_session {p : Platform} {ptr : Nat} {s s' : AudioStreamIn} {w : World}
    (h : (startInput p ptr s w).2 = some s') :
    s'.mFormat = s.mFormat ∧ s'.mFirstread = sessionFirstread s := by
  unfold startInput at h
  by_cases hhw : s.mHardware = false
  · rw [if_pos hhw] at h
    cases h
  · rw [if_neg hhw] at h
    dsimp only at h
    split_ifs at h with hstatus hstarted
    · obtain rfl := Option.some.inj h
      exact reopen_session (not_not.mp hstatus)
    · unfold startDevice at h
      dsimp only at h
      split_ifs at h
      obtain rfl := Option.some.inj h
      exact reopen_session (not_not.mp hstatus)

/-- A call that gets to the loop: its buffer and its value are those of the loop. -/
theorem read_of_started {p : Platform} {ptr : Nat} {s s' : AudioStreamIn} (bytes : Nat)
    (answers : List ReadAnswer) {w w' : World} (hs : w.hw.streams ptr = some s)
    (hst : startInput p ptr s w = (w', some s')) (haac : s'.mFormat = aac) (mem : Memory) :
    let fin := readLoop true s'.mFd answers (headed mem bytes s'.mFirstread s'.mRetryCount w'.pcmIn)
    (read p ptr mem bytes answers w).2.mem = fin.1.mem ∧
      (read p ptr mem bytes answers w).2.delivered = fin.1.delivered ∧
      ((read p ptr mem bytes answers w).2.value = some (bytes : Int) ↔ fin.2.1 = .returned) := by
  have hframes : readFrames s' mem bytes answers w'.pcmIn =
      readLoop true s'.mFd answers (headed mem bytes s'.mFirstread s'.mRetryCount w'.pcmIn) := by
    unfold readFrames headed
    simp [haac]
  unfold AudioStreams.read
  rw [hs]
  dsimp only
  rw [hst]
  dsimp only
  rw [hframes]
  refine ⟨rfl, rfl, ?_⟩
  cases (readLoop true s'.mFd answers (headed mem bytes s'.mFirstread s'.mRetryCount w'.pcmIn)).2.1 with
  | returned => simp [haac]
  | failed => simp only [Option.some.injEq, reduceCtorEq]
  | blocked => simp

/-- A call that returns the size of the buffer got to the loop. -/
theorem startInput_of_returned {p : Platform} {ptr : Nat} {s : AudioStreamIn} {mem : Memory} {bytes : Nat}
    {answers : List ReadAnswer} {w : World} (hs : w.hw.streams ptr = some s)
    (hret : (read p ptr mem bytes answers w).2.value = some (bytes : Int)) :
    ∃ w' s', startInput p ptr s w = (w', some s') := by
  unfold AudioStreams.read at hret
  rw [hs] at hret
  dsimp only at hret
  rcases hst : startInput p ptr s w with ⟨w', _ | s'⟩
  · rw [hst] at hret
    have := Option.some.inj hret
    omega
  · exact ⟨w', s', rfl⟩

/-- The buffers of an AAC `read` that returns its frame size all decode to the chunks of
the driver exactly when no chunk follows an `EAGAIN`. -/
theorem decodes_iff_no_chunk_after_retry (p : Platform) {w : World} {ptr : Nat} {s : AudioStreamIn}
    {bytes : Nat} (answers : List ReadAnswer) {buffer : Memory} (hs : w.hw.streams ptr = some s)
    (haac : s.mFormat = aac) (h8 : 8 ≤ bytes) (h64 : bytes ≤ 65535)
    (hret : (read p ptr buffer bytes answers w).2.value = some (bytes : Int)) :
    (∀ mem, (read p ptr mem bytes answers w).2.value = some (bytes : Int) →
      decodeBuffer (read p ptr mem bytes answers w).2.mem bytes =
        some (read p ptr mem bytes answers w).2.delivered) ↔
      ¬ ChunkAfterRetry (sessionFirstread s) (bytes - 6) false answers := by
  obtain ⟨w', s', hst⟩ := startInput_of_returned hs hret
  obtain ⟨hformat, hfirst⟩ := startInput_session (congrArg Prod.snd hst)
  have haac' := hformat.trans haac
  have hread := read_of_started bytes answers hs hst haac'
  have h6 : 6 ≤ bytes := by omega
  have hcond : ∀ mem, ChunkAfterRetry (headed mem bytes s'.mFirstread s'.mRetryCount w'.pcmIn).firstread
      (headed mem bytes s'.mFirstread s'.mRetryCount w'.pcmIn).count false answers ↔
      ChunkAfterRetry (sessionFirstread s) (bytes - 6) false answers := fun mem => by
    rw [headed_count _ _ _ _ h6 h64, ← hfirst]
    rfl
  constructor
  · intro h hretry
    obtain ⟨hmem, hdel, hval⟩ := hread fun _ => 0
    have hzero : (read p ptr (fun _ => 0) bytes answers w).2.value = some (bytes : Int) := by
      rw [hval, ← (hread buffer).2.2.mp hret]
      exact readLoop_end _ rfl rfl
    have hdecode := h _ hzero
    rw [hmem, hdel] at hdecode
    exact readLoop_breaks _ (bounded_headed _ _ _ _ h6 h64) (headed_headed _ _ _ _) rfl
      (fun i hi => headed_zero _ _ _ hi) ((hcond _).mpr hretry) hdecode
  · intro hno mem _
    obtain ⟨hmem, hdel, -⟩ := hread mem
    rw [hmem, hdel]
    exact decodeBuffer_of_laid (readLoop_lays _ (bounded_headed _ _ _ _ h6 h64) (headed_headed _ _ _ _)
      rfl fun hretry => hno ((hcond mem).mp hretry))

/-- An AAC stream on the microphone whose first chunk has been read. -/
def capturing : World :=
  Run.exec (step acceptAll) (boot acceptAll)
    [.openInputStream 7 deviceInBuiltinMic ⟨aac, channelInMono, 8000⟩, .read 7 (fun _ => 0) 64 [.data [1]]]

/-- Two chunks, a retry, and the end. -/
theorem two_chunks_decode :
    decodeBuffer (read acceptAll 7 (fun _ => 0) 64
        [.data [1, 2], .data [3], .again, .data []] capturing).2.mem 64 = some [[1, 2], [3]] := by
  have hs : capturing.hw.streams 7 =
      some ⟨true, 0, .started, 0, aac, channelInMono, 8000, 2048, deviceInBuiltinMic, true⟩ := by
    decide +kernel
  have hret : (read acceptAll 7 (fun _ => 0) 64 [.data [1, 2], .data [3], .again, .data []]
      capturing).2.value = some ((64 : Nat) : Int) := by
    decide +kernel
  have hno : ¬ ChunkAfterRetry true 58 false [.data [1, 2], .data [3], .again, .data []] := by
    simp [ChunkAfterRetry]
  exact (decodes_iff_no_chunk_after_retry acceptAll _ hs rfl (by decide) (by decide) hret).mpr hno _ hret

/-- A chunk after a retry: the decoder sees an empty one. -/
theorem chunk_after_retry_is_lost :
    ¬ ((read acceptAll 7 (fun _ => 0) 64 [.again, .data [3], .data []] capturing).2.value =
        some ((64 : Nat) : Int) →
      decodeBuffer (read acceptAll 7 (fun _ => 0) 64 [.again, .data [3], .data []] capturing).2.mem 64 =
        some (read acceptAll 7 (fun _ => 0) 64 [.again, .data [3], .data []] capturing).2.delivered) := by
  decide +kernel

end AudioCapture
