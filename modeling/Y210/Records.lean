import Mathlib.Algebra.Group.Nat.Defs
import Mathlib.Data.List.Basic

/-!
# Length-prefixed records in byte memory

Little-endian words, byte memory as a function of the address, and sequences of
records, each a 16-bit length and its payload, stored back to back. A record
sequence laid out in memory decodes to the payloads; a length word that is zero
where a record should start decodes to an empty payload.
-/
namespace Records

abbrev Byte := BitVec 8
abbrev Memory := Nat → Byte

/-- Overwrite the bytes from an address on. -/
def store (mem : Memory) (off : Nat) (bytes : List Byte) : Memory := fun i =>
  if off ≤ i then (bytes[i - off]?).getD (mem i) else mem i

/-- The bytes from an address on. -/
def slice (mem : Memory) (off len : Nat) : List Byte := (List.range len).map (fun i => mem (off + i))

theorem store_below (mem : Memory) {off i : Nat} (bytes : List Byte) (h : i < off) :
    store mem off bytes i = mem i := by
  simp [store, Nat.not_le.mpr h]

theorem store_above (mem : Memory) {off i : Nat} (bytes : List Byte) (h : off + bytes.length ≤ i) :
    store mem off bytes i = mem i := by
  have hn : bytes[i - off]? = none := List.getElem?_eq_none (by omega)
  simp [store, hn]

@[simp] theorem length_slice (mem : Memory) (off len : Nat) : (slice mem off len).length = len := by
  simp [slice]

theorem slice_congr {mem mem' : Memory} {off len : Nat}
    (h : ∀ i, off ≤ i → i < off + len → mem' i = mem i) : slice mem' off len = slice mem off len := by
  apply List.map_congr_left
  intro i hi
  have := List.mem_range.mp hi
  exact h _ (by omega) (by omega)

@[simp] theorem slice_store (mem : Memory) (off : Nat) (bytes : List Byte) :
    slice (store mem off bytes) off bytes.length = bytes := by
  apply List.ext_getElem
  · simp
  · intro i h₁ h₂
    simp [slice, store, h₂]

/-- The value of little-endian bytes. -/
def leValue : List Byte → Nat
  | [] => 0
  | b :: rest => b.toNat + 256 * leValue rest

/-- The low bytes of a number, least significant first. -/
def leBytes : Nat → Nat → List Byte
  | 0, _ => []
  | k + 1, n => BitVec.ofNat 8 n :: leBytes k (n / 256)

@[simp] theorem length_leBytes (k n : Nat) : (leBytes k n).length = k := by
  induction k generalizing n with
  | zero => rfl
  | succ k ih => simp [leBytes, ih]

theorem leValue_leBytes (k n : Nat) (h : n < 256 ^ k) : leValue (leBytes k n) = n := by
  induction k generalizing n with
  | zero => simp only [Nat.pow_zero] at h; simp [leBytes, leValue]; omega
  | succ k ih =>
    have hd : n / 256 < 256 ^ k := by
      apply Nat.div_lt_of_lt_mul
      rw [Nat.pow_succ] at h
      omega
    simp only [leBytes, leValue, ih _ hd, BitVec.toNat_ofNat]
    omega

/-- The 16-bit word at an address. -/
def load16 (mem : Memory) (off : Nat) : Nat := leValue (slice mem off 2)

def store16 (mem : Memory) (off n : Nat) : Memory := store mem off (leBytes 2 n)

theorem load16_store16 (mem : Memory) (off n : Nat) (h : n < 65536) :
    load16 (store16 mem off n) off = n := by
  have hs := slice_store mem off (leBytes 2 n)
  rw [length_leBytes] at hs
  rw [load16, store16, hs]
  exact leValue_leBytes 2 n (by omega)

theorem load16_congr {mem mem' : Memory} {off : Nat}
    (h : ∀ i, off ≤ i → i < off + 2 → mem' i = mem i) : load16 mem' off = load16 mem off := by
  rw [load16, slice_congr h, load16]

/-- The records `payloads` fill the memory from `off` up to `fin`. -/
def RecordsAt (mem : Memory) : Nat → List (List Byte) → Nat → Prop
  | off, [], fin => off = fin
  | off, payload :: rest, fin =>
    load16 mem off = payload.length ∧ slice mem (off + 2) payload.length = payload ∧
      RecordsAt mem (off + 2 + payload.length) rest fin

theorem RecordsAt.le {mem : Memory} {off fin : Nat} {payloads : List (List Byte)}
    (h : RecordsAt mem off payloads fin) : off ≤ fin := by
  induction payloads generalizing off with
  | nil => exact Nat.le_of_eq h
  | cons payload rest ih => have := ih h.2.2; omega

/-- Records only depend on the memory they fill. -/
theorem RecordsAt.congr {mem mem' : Memory} {off fin : Nat} {payloads : List (List Byte)}
    (h : RecordsAt mem off payloads fin) (he : ∀ i, off ≤ i → i < fin → mem' i = mem i) :
    RecordsAt mem' off payloads fin := by
  induction payloads generalizing off with
  | nil => exact h
  | cons payload rest ih =>
    obtain ⟨hsize, hpay, hrest⟩ := h
    have hle := hrest.le
    refine ⟨?_, ?_, ih hrest (fun i hi => he i (by omega))⟩
    · rw [load16_congr (fun i h₁ h₂ => he i h₁ (by omega)), hsize]
    · rw [slice_congr (fun i h₁ h₂ => he i (by omega) (by omega)), hpay]

theorem RecordsAt.append {mem : Memory} {off mid fin : Nat} {xs ys : List (List Byte)}
    (hx : RecordsAt mem off xs mid) (hy : RecordsAt mem mid ys fin) :
    RecordsAt mem off (xs ++ ys) fin := by
  induction xs generalizing off with
  | nil => rw [show off = mid from hx]; exact hy
  | cons payload rest ih => exact ⟨hx.1, hx.2.1, ih hx.2.2⟩

/-- Write one record at the end of a sequence. -/
theorem RecordsAt.push {mem : Memory} {off fin : Nat} {payloads : List (List Byte)}
    (h : RecordsAt mem off payloads fin) (payload : List Byte) (hlen : payload.length < 65536) :
    RecordsAt (store16 (store mem (fin + 2) payload) fin payload.length) off
      (payloads ++ [payload]) (fin + 2 + payload.length) := by
  have hsize : load16 (store16 (store mem (fin + 2) payload) fin payload.length) fin =
      payload.length := load16_store16 _ _ _ hlen
  have hpay := calc
    slice (store16 (store mem (fin + 2) payload) fin payload.length) (fin + 2) payload.length
      = slice (store mem (fin + 2) payload) (fin + 2) payload.length :=
        slice_congr (fun i h₁ _ => store_above _ _ (by simpa using h₁))
    _ = payload := slice_store mem (fin + 2) payload
  refine RecordsAt.append (h.congr ?_) ⟨hsize, hpay, rfl⟩
  intro i _ hi
  rw [store16, store_below _ _ hi, store_below _ _ (by omega)]

/-- Read a number of records from an address, inside a limit. -/
def decodeRecords (mem : Memory) (limit : Nat) : Nat → Nat → Option (List (List Byte))
  | 0, _ => some []
  | n + 1, off =>
    let size := load16 mem off
    if off + 2 + size ≤ limit then
      (decodeRecords mem limit n (off + 2 + size)).map (slice mem (off + 2) size :: ·)
    else none

/-- The round trip: records laid out inside the limit decode to their payloads. -/
theorem decodeRecords_of_recordsAt {mem : Memory} {limit off fin : Nat}
    {payloads : List (List Byte)} (h : RecordsAt mem off payloads fin) (hfin : fin ≤ limit) :
    decodeRecords mem limit payloads.length off = some payloads := by
  induction payloads generalizing off with
  | nil => rfl
  | cons payload rest ih =>
    obtain ⟨hsize, hpay, hrest⟩ := h
    have hle := hrest.le
    simp only [List.length_cons, decodeRecords, hsize, hpay, ih hrest]
    rw [if_pos (by omega)]
    rfl

/-- A zero length word after some records decodes to an empty payload there. -/
theorem decodeRecords_gap {mem : Memory} {limit off fin n : Nat} {payloads ds : List (List Byte)}
    (h : RecordsAt mem off payloads fin) (hz : load16 mem fin = 0) (hn : payloads.length < n)
    (hd : decodeRecords mem limit n off = some ds) : ds[payloads.length]? = some [] := by
  induction payloads generalizing off n ds with
  | nil =>
    obtain ⟨m, rfl⟩ : ∃ m, n = m + 1 := ⟨n - 1, by simp at hn; omega⟩
    rw [show off = fin from h] at hd
    simp only [decodeRecords, hz] at hd
    split at hd
    · obtain ⟨rest, _, rfl⟩ := Option.map_eq_some_iff.mp hd
      simp [slice]
    · cases hd
  | cons payload rest ih =>
    obtain ⟨hsize, _, hrest⟩ := h
    obtain ⟨m, rfl⟩ : ∃ m, n = m + 1 := ⟨n - 1, by simp at hn; omega⟩
    simp only [decodeRecords, hsize] at hd
    split at hd
    · obtain ⟨tail, ht, rfl⟩ := Option.map_eq_some_iff.mp hd
      simpa using ih hrest (by simpa using hn) ht
    · cases hd

end Records
