import Y210.AudioStreams
import Y210.CString
import Y210.Tokens

/-!
# The filter file

`get_audpp_filter` parses the lines of `AudioFilter.csv` into the tables that the pre- and
post-processing drivers get. `strtok` cuts the lines and `strtol` reads the numbers.
-/
namespace AudioFilter

open AudioDrivers AudioHardware AudioStreams

/-- The words that the parser writes, by their place in the tables; the gain, the frequency,
the type and the quality factor of an equalizer band are in an array of its own. -/
inductive Word where
  | iirParams (device_id : Int) (i : Nat)
  | rxIirFlag (device_id : Int)
  | iirNumBands (device_id : Int)
  | adrcFlag (device_id : Int)
  | adrcParams (device_id : Int) (i : Nat)
  | eqFlag (device_id : Int)
  | eqGain (i : Nat)
  | eqFreq (i : Nat)
  | eqType (i : Nat)
  | eqQf (i : Nat)
  | eqBands (device_id : Int)
  | eqParams (device_id : Int) (i : Nat)
  | mbNumBands (device_id : Int)
  | downSampLevel (device_id : Int)
  | adrcDelay (device_id : Int)
  | extBufSize (device_id : Int)
  | extPartition (device_id : Int)
  | extBufMsw (device_id : Int)
  | extBufLsw (device_id : Int)
  | adrcBand (device_id : Int) (i j : Nat)
  | extBuf (device_id : Int) (i : Nat)
  | mbadrcFlag (device_id : Int)
  | txIirParams (samp_index : Int) (i : Nat)
  | txIirActiveFlag (samp_index : Int)
  | txIirNumBands (samp_index : Int)
  | txIirCmdId (samp_index : Int)
  | txiirFlag (device_id : Int)
  | agcCmdId (samp_index : Int)
  | txAgcParamMask (samp_index : Int)
  | txAgcEnableFlag (samp_index : Int)
  | staticGain (samp_index : Int)
  | adaptiveGainFlag (samp_index : Int)
  | agcParams (samp_index : Int) (i : Nat)
  | agcFlag (device_id : Int)
  | nsCmdId (samp_index : Int)
  | ecModeNew (samp_index : Int)
  | densGammaN (samp_index : Int)
  | densNfeBlockSize (samp_index : Int)
  | densLimitNs (samp_index : Int)
  | densLimitNsD (samp_index : Int)
  | wbGammaE (samp_index : Int)
  | wbGammaN (samp_index : Int)
  | nsFlag (device_id : Int)
  | enablePreprocMask (samp_index : Int)
  deriving DecidableEq

/-- The tables, word by word. -/
abbrev Tables := Word → Nat

/-- A line being parsed: what `strtok` has left, and the tables. Two lists are kept beside:
the values stored from columns, in their order, and the words accessed. -/
structure Parse where
  rest : List Char
  tables : Tables
  stored : List Nat
  touched : List Word

/-- An error comes with what has been parsed before it. -/
abbrev Result := Except (Parse × Status) Parse

/-- The cast of a `long`. -/
def uint16 (n : Int) : Nat := (n % 65536).toNat

/-- `(uint16_t)strtol(p, &ps, 16)`. -/
def value (p : List Char) : Nat := uint16 (CString.strtol 16 p).1

/-- An assignment. -/
def put (w : Word) (v : Nat) (st : Parse) : Parse :=
  { st with tables := Function.update st.tables w v, touched := w :: st.touched }

/-- A token that is passed over. -/
def skip (st : Parse) : Result :=
  match Tokens.strtok ',' st.rest with
  | none => .error (st, einval)
  | some (_, rest) => .ok { st with rest := rest }

/-- A token that is read into a word. -/
def readWord (w : Word) (st : Parse) : Result :=
  match Tokens.strtok ',' st.rest with
  | none => .error (st, einval)
  | some (p, rest) => .ok (put w (value p) { st with rest := rest, stored := st.stored ++ [value p] })

/-- The next tokens are read into words. -/
def readWords : List Word → Parse → Result
  | [], st => .ok st
  | w :: ws, st => do
    let st ← readWord w st
    readWords ws st

/-- A token is passed over, and the word is cleared. -/
def clearWord (w : Word) (st : Parse) : Result := do
  let st ← skip st
  .ok (put w 0 { st with stored := st.stored ++ [0] })

/-! ## The records -/

/-- IIR record (code 'A'). -/
def iirRecord (device_id : Int) (st : Parse) : Result := do
  let st ← skip st
  let st ← skip st
  let st ← readWords ((List.range 48).map (.iirParams device_id)) st
  readWords [.rxIirFlag device_id, .iirNumBands device_id] st

/-- ADRC record (code 'B'). -/
def adrcRecord (device_id : Int) (st : Parse) : Result := do
  let st ← skip st
  let st ← skip st
  readWords (.adrcFlag device_id :: (List.range 8).map (.adrcParams device_id)) st

/-- What `audioeq_calccoefs` returns. -/
structure EqCoefs where
  numerator : Fin 6 → BitVec 16
  denominator : Fin 4 → BitVec 16
  shift : Fin 2 → BitVec 16

/-- How the loading of `libaudioeq.so` goes; the function gets gain, frequency, type and
quality factor of a band. -/
inductive EqLibrary where
  | openFailure
  | noSymbol
  | calccoefs (eq_cal : Nat → Nat → Nat → Nat → EqCoefs)

/-- Assignments in their order. -/
def putAll (stores : List (Word × Nat)) (st : Parse) : Parse :=
  stores.foldl (fun st s => put s.1 s.2 st) st

/-- The words of the `i`-th of eight bands. -/
def bandStores (device_id : Int) (i : Nat) (c : EqCoefs) : List (Word × Nat) :=
  (List.finRange 6).map (fun j => (.eqParams device_id (i * 6 + j), (c.numerator j).toNat)) ++
  (List.finRange 4).map (fun j => (.eqParams device_id (8 * 6 + i * 4 + j), (c.denominator j).toNat)) ++
  [(.eqParams device_id (8 * 10 + i), (c.shift 0).toNat)]

/-- A round of the loop over the bands. -/
def eqBand (eq_cal : Nat → Nat → Nat → Nat → EqCoefs) (device_id : Int) (i : Nat) (st : Parse) : Result := do
  let st ← readWords [.eqGain i, .eqFreq i, .eqType i, .eqQf i] st
  let c := eq_cal (st.tables (.eqGain i)) (st.tables (.eqFreq i)) (st.tables (.eqType i)) (st.tables (.eqQf i))
  .ok (putAll (bandStores device_id i c) st)

/-- `memset(&equalizer[device_id], 0, sizeof(eq_filter))`. -/
def clearEqualizer (device_id : Int) (tables : Tables) : Tables
  | .eqBands d => if d = device_id then 0 else tables (.eqBands d)
  | .eqParams d i => if d = device_id then 0 else tables (.eqParams d i)
  | w => tables w

/-- EQ record (code 'C'). -/
def eqRecord (lib : EqLibrary) (device_id : Int) (st : Parse) : Result := do
  let st ← skip st
  let st ← skip st
  let st ← readWord (.eqFlag device_id) st
  match lib with
  | .openFailure => .error (st, -1)
  | .noSymbol => .error (st, -1)
  | .calccoefs eq_cal =>
    let st := put (.eqBands device_id) 8 { st with tables := clearEqualizer device_id st.tables }
    (List.range 8).foldlM (fun st i => eqBand eq_cal device_id i st) st

/-- MB_ADRC record (code 'D'). The lengths are stored before they are checked. -/
def mbadrcRecord (device_id : Int) (st : Parse) : Result := do
  let st ← skip st
  let st ← skip st
  let st ← readWord (.mbNumBands device_id) st
  if 5 < st.tables (.mbNumBands device_id) then .error (st, einval)
  else
    let st ← readWords [.downSampLevel device_id, .adrcDelay device_id, .extBufSize device_id] st
    if 392 < st.tables (.extBufSize device_id) then .error (st, einval)
    else
      let st ← readWords [.extPartition device_id, .extBufMsw device_id, .extBufLsw device_id] st
      let st ← readWords ((List.range (st.tables (.mbNumBands device_id))).flatMap fun i =>
        (List.range 10).map (.adrcBand device_id i)) st
      let st ← readWords ((List.range (st.tables (.extBufSize device_id) / 2)).map (.extBuf device_id)) st
      readWord (.mbadrcFlag device_id) st

/-- The end of the pre-processing records: a flag that is set enables the feature. -/
def enableFeature (flag : Word) (bit : Nat) (samp_index : Int) (st : Parse) : Parse :=
  if st.tables flag ≠ 0 then
    put (.enablePreprocMask samp_index) (st.tables (.enablePreprocMask samp_index) ||| bit) st
  else st

/-- TX_IIR record (code 'E'). The flags of these records are always those of device 0. -/
def txIirRecord (samp_index : Int) (st : Parse) : Result := do
  let st ← skip st
  let st ← skip st
  let st ← readWords ((List.range 48).map fun i =>
    .txIirParams samp_index (if 40 ≤ i then i else if i % 2 ≠ 0 then i - 1 else i + 1)) st
  let st ← readWords [.txIirActiveFlag samp_index, .txiirFlag 0, .txIirNumBands samp_index] st
  let st ← clearWord (.txIirCmdId samp_index) st
  .ok (enableFeature (.txiirFlag 0) 4 samp_index st)

/-- AGC record (code 'F'). -/
def agcRecord (samp_index : Int) (st : Parse) : Result := do
  let st ← skip st
  let st ← readWords [.agcCmdId samp_index, .txAgcParamMask samp_index, .txAgcEnableFlag samp_index,
    .staticGain samp_index, .adaptiveGainFlag samp_index] st
  let st ← readWords ((List.range 19).map (.agcParams samp_index)) st
  let st ← readWord (.agcFlag 0) st
  .ok (enableFeature (.agcFlag 0) 1 samp_index st)

/-- NS record (code 'G'). -/
def nsRecord (samp_index : Int) (st : Parse) : Result := do
  let st ← skip st
  let st ← readWords [.nsCmdId samp_index, .ecModeNew samp_index, .densGammaN samp_index,
    .densNfeBlockSize samp_index, .densLimitNs samp_index, .densLimitNsD samp_index, .wbGammaE samp_index,
    .wbGammaN samp_index, .nsFlag 0] st
  .ok (enableFeature (.nsFlag 0) 2 samp_index st)

/-! ## The file -/

def get_device_id (device_code : Char) : Int :=
  match device_code with
  | '1' => 0
  | '2' => 1
  | '3' => 2
  | _ => einval

def get_sample_index (sample_code : Char) : Int :=
  match sample_code with
  | '1' => 0
  | '2' => 1
  | '3' => 2
  | '4' => 3
  | '5' => 4
  | '6' => 5
  | '7' => 6
  | '8' => 7
  | '9' => 8
  | _ => einval

/-- `check_and_set_audpp_parameters` on a line. -/
def check_and_set_audpp_parameters (lib : EqLibrary) (buf : List Char) (tables : Tables) : Result :=
  let st : Parse := ⟨buf, tables, [], []⟩
  let c0 := buf.getD 0 '\x00'
  let c1 := buf.getD 1 '\x00'
  let device : Bool := c1 = '1' || c1 = '2' || c1 = '3'
  if c0 = 'A' && device then iirRecord (get_device_id c1) st
  else if c0 = 'B' && device then adrcRecord (get_device_id c1) st
  else if c0 = 'C' && device then eqRecord lib (get_device_id c1) st
  else if c0 = 'D' && device then mbadrcRecord (get_device_id c1) st
  else if c0 = 'E' || c0 = 'F' || c0 = 'G' then
    let samp_index := get_sample_index c1
    if samp_index = einval then .error (st, einval)
    else if c0 = 'E' then txIirRecord samp_index st
    else if c0 = 'F' then agcRecord samp_index st
    else nsRecord samp_index st
  else .ok st

/-- What lines leave: the tables, the words accessed, and whether every line was accepted. -/
structure Loaded where
  tables : Tables
  touched : List Word
  accepted : Bool

/-- The loop of `get_audpp_filter`, on lines: the first that is rejected ends it. The library may
answer differently each time; `n` lines came before. -/
def parseLines (lib : Nat → EqLibrary) : Nat → List (List Char) → Loaded → Loaded
  | _, [], f => f
  | n, line :: lines, f =>
    match check_and_set_audpp_parameters (lib n) line f.tables with
    | .error (st, _) => ⟨st.tables, st.touched ++ f.touched, false⟩
    | .ok st => parseLines lib (n + 1) lines ⟨st.tables, st.touched ++ f.touched, f.accepted⟩

/-- The lines that `strchr` finds in memory: up to a NUL, and without what follows the last newline. -/
def fileLines (mem : List Char) : List (List Char) :=
  ((mem.takeWhile (· ≠ '\x00')).splitOn '\n').dropLast

/-- The tables as the drivers get them, with `audpp_filter_inited`. -/
def filtersOf (f : Loaded) : AudppFilters :=
  let w (x : Word) : BitVec 16 := BitVec.ofNat 16 (f.tables x)
  { inited := f.accepted
    iirCfg := fun d => ⟨w (.iirNumBands d), .ofFn fun i => w (.iirParams d i)⟩
    adrcCfg := fun d => ⟨.ofFn fun i => w (.adrcParams d i)⟩
    mbadrcCfg := fun d => ⟨w (.mbNumBands d), w (.downSampLevel d), w (.adrcDelay d), w (.extBufSize d),
      w (.extPartition d), w (.extBufMsw d), w (.extBufLsw d), .ofFn fun i => .ofFn fun j => w (.adrcBand d i j),
      .ofFn fun i => w (.extBuf d i)⟩
    equalizer := fun d => ⟨w (.eqBands d), .ofFn fun i => w (.eqParams d i)⟩
    adrcFlag := fun d => w (.adrcFlag d)
    mbadrcFlag := fun d => w (.mbadrcFlag d)
    eqFlag := fun d => w (.eqFlag d)
    rxIirFlag := fun d => w (.rxIirFlag d)
    txIirCfg := fun i => ⟨w (.txIirCmdId i), w (.txIirActiveFlag i), w (.txIirNumBands i),
      .ofFn fun j => w (.txIirParams i j)⟩
    nsCfg := fun i => ⟨w (.nsCmdId i), w (.ecModeNew i), w (.densGammaN i), w (.densNfeBlockSize i),
      w (.densLimitNs i), w (.densLimitNsD i), w (.wbGammaE i), w (.wbGammaN i)⟩
    txAgcCfg := fun i => ⟨w (.agcCmdId i), w (.txAgcParamMask i), w (.txAgcEnableFlag i), w (.staticGain i),
      w (.adaptiveGainFlag i), .ofFn fun j => w (.agcParams i j)⟩
    enablePreprocMask := fun i => BitVec.ofNat 32 (f.tables (.enablePreprocMask i)) }

end AudioFilter
