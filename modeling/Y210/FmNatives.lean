import Mathlib.Data.BitVec
import Y210.Programs

/-!
# The natives of the FM radio

The functions of `gMethods`, as programs that call the driver, the sockets and the virtual machine.
What these answer is up to them; what the natives ask, and what they hold of the virtual machine and
of the sockets when they return, is up to the natives. Log lines, sleeping and the fields that are
cleared are not part of the model.
-/
namespace FmNatives

open Programs Prog

abbrev Jint := BitVec 32

def FM_JNI_SUCCESS : Jint := 0
def FM_JNI_FAILURE : Jint := -1

/-- The header of a control message, and the descriptor behind it. -/
structure Cmsghdr where
  solSocket : Bool
  scmRights : Bool
  lenOfInt : Bool
  fd : Jint

/-- What `recvmsg` leaves behind. -/
structure Received where
  n : Int
  ctrunc : Bool
  cmsg : Option Cmsghdr

/-- An array or a string is known by a number. -/
inductive Call where
  | socket_local_client
  | recvmsg (sock : Jint)
  | close (fd : Jint)
  | open (path : Nat)
  | isRadio0 (path : Nat)
  | gTuner (fd : Jint)
  | gFrequency (fd : Jint)
  | sFrequency (fd : Jint) (frequency : BitVec 32)
  | gCtrl (fd : Jint) (id : BitVec 32)
  | sCtrl (fd : Jint) (id : BitVec 32) (value : Jint)
  | dqbuf (fd : Jint) (userptr : Nat) (length : BitVec 32)
  | read (fd : Jint) (buf : Nat) (count : Jint)
  | getArrayLength (array : Nat)
  | getByteArrayElements (array : Nat)
  | releaseByteArrayElements (array : Nat)
  | getStringUTFChars (string : Nat)
  | releaseStringUTFChars (string : Nat)
  deriving DecidableEq, Repr

/-- `none` and `false` stand for a call that fails; `gTuner` answers with the bit `CAP_LOW`. -/
abbrev Answer : Call → Type
  | .socket_local_client | .close _ | .open _ | .read .. | .getArrayLength _ => Jint
  | .recvmsg _ => Received
  | .gTuner _ => Option Bool
  | .gFrequency _ | .gCtrl .. | .dqbuf .. => Option (BitVec 32)
  | .isRadio0 _ | .sFrequency .. | .sCtrl .. | .getByteArrayElements _ | .getStringUTFChars _ => Bool
  | .releaseByteArrayElements _ | .releaseStringUTFChars _ => Unit

abbrev Native := Prog Call Answer Jint

def negative (n : Jint) : Bool := n.toInt < 0

/-! ## The descriptor -/

/-- The message of a connection, once it is closed. -/
def received (m : Received) : Jint :=
  if m.n ≤ 0 || m.ctrunc then -1
  else match m.cmsg with
    | none => -1
    | some cmsg => if !cmsg.solSocket || !cmsg.scmRights || !cmsg.lenOfInt then -1 else cmsg.fd

def acquireFdFromFminit : Native := do
  let sock ← attempts 60 (do
    let sock ← lift Call.socket_local_client
    pure (if negative sock then none else some sock))
  match sock with
  | none => pure (-1)
  | some sock => do
    let m ← lift (Call.recvmsg sock)
    let _ ← lift (Call.close sock)
    pure (received m)

/-- `open` where there is no descriptor yet. -/
def orOpen (path : Nat) (fd : Jint) : Native := if negative fd then lift (Call.open path) else pure fd

def fmAcquireFdNative (path : Option Nat) : Native :=
  match path with
  | none => pure FM_JNI_FAILURE
  | some path => do
    if ← lift (Call.getStringUTFChars path) then do
      let fd ← (do if ← lift (Call.isRadio0 path) then acquireFdFromFminit else pure (-1))
      let fd ← orOpen path fd
      let _ ← lift (Call.releaseStringUTFChars path)
      pure fd
    else pure FM_JNI_FAILURE

def fmCloseFdNative (fd : Jint) : Native :=
  if negative fd then pure FM_JNI_FAILURE else lift (Call.close fd)

/-! ## The tuner -/

def tunerUsesLowUnits (fd : Jint) : Prog Call Answer Bool := do return (← lift (Call.gTuner fd)).getD true

/-- 62.5 Hz for a tuner with low units. -/
def khzToV4l2 (freqKhz : Jint) (lowUnits : Bool) : BitVec 32 :=
  if freqKhz.toInt ≤ 0 then 0 else if lowUnits then freqKhz * 16 else freqKhz

def v4l2ToKhz (freq : BitVec 32) (lowUnits : Bool) : Jint := if lowUnits then freq / 16 else freq

def fmGetFreqNative (fd : Jint) : Native :=
  if negative fd then pure FM_JNI_FAILURE
  else do
    match ← lift (Call.gFrequency fd) with
    | none => pure FM_JNI_FAILURE
    | some frequency => return v4l2ToKhz frequency (← tunerUsesLowUnits fd)

def fmSetFreqNative (fd freqKhz : Jint) : Native :=
  if negative fd then pure FM_JNI_FAILURE
  else do
    let lowUnits ← tunerUsesLowUnits fd
    if ← lift (Call.sFrequency fd (khzToV4l2 freqKhz lowUnits)) then pure FM_JNI_SUCCESS
    else pure FM_JNI_FAILURE

/-! ## Controls -/

def fmGetControlNative (fd id : Jint) : Native :=
  if negative fd then pure FM_JNI_FAILURE
  else do return (← lift (Call.gCtrl fd id)).getD FM_JNI_FAILURE

def fmSetControlNative (fd id value : Jint) : Native :=
  if negative fd then pure FM_JNI_FAILURE
  else do
    if ← lift (Call.sCtrl fd id value) then pure FM_JNI_SUCCESS else pure FM_JNI_FAILURE

/-- `V4L2_CID_PRIVATE_BASE + 3` -/
def V4L2_CID_PRIVATE_TAVARUA_SRCHON : Jint := 0x8000003

def fmStartSearchNative (fd dir : Jint) : Native := do
  if (← fmSetControlNative fd V4L2_CID_PRIVATE_TAVARUA_SRCHON (if dir ≠ 0 then 1 else 0)) = FM_JNI_SUCCESS then
    pure FM_JNI_SUCCESS
  else fmSetControlNative fd V4L2_CID_PRIVATE_TAVARUA_SRCHON (if dir ≠ 0 then 1 else 2)

def fmCancelSearchNative (fd : Jint) : Native := fmSetControlNative fd V4L2_CID_PRIVATE_TAVARUA_SRCHON 0
def fmAudioControlNative (fd control field : Jint) : Native := fmSetControlNative fd control field

def fmGetRSSINative : Native := pure 0
def fmSetBandNative : Native := pure FM_JNI_SUCCESS
def fmGetLowerBandNative : Native := pure 87500
def fmSetMonoStereoNative : Native := pure FM_JNI_SUCCESS

/-! ## Buffers -/

def fmGetBufferNative (fd : Jint) (buff : Option Nat) : Native :=
  match buff with
  | none => pure FM_JNI_FAILURE
  | some buff =>
    if negative fd then pure FM_JNI_FAILURE
    else do
      let len ← lift (Call.getArrayLength buff)
      if len.toInt ≤ 0 then pure 0
      else do
        if ← lift (Call.getByteArrayElements buff) then do
          let r := (← lift (Call.dqbuf fd buff len)).getD FM_JNI_FAILURE
          let _ ← lift (Call.releaseByteArrayElements buff)
          pure r
        else pure FM_JNI_FAILURE

def fmGetRawRdsNative (fd : Jint) (buff : Option Nat) (count : Jint) : Native :=
  match buff with
  | none => pure FM_JNI_FAILURE
  | some buff =>
    if negative fd then pure FM_JNI_FAILURE
    else do
      let len ← lift (Call.getArrayLength buff)
      if len.toInt ≤ 0 then pure 0
      else if count.toInt ≤ 0 then pure (if count = 0 then 0 else FM_JNI_FAILURE)
      else do
        let count := if len.toInt < count.toInt then len else count
        if ← lift (Call.getByteArrayElements buff) then do
          let r ← lift (Call.read fd buff count)
          let _ ← lift (Call.releaseByteArrayElements buff)
          if negative r then pure FM_JNI_FAILURE else pure r
        else pure FM_JNI_FAILURE

/-- The entries of `gMethods` with their arguments. -/
inductive Method where
  | acquireFd (path : Option Nat)
  | audioControl (fd control field : Jint)
  | closeFd (fd : Jint)
  | getFreq (fd : Jint)
  | setFreq (fd freqKhz : Jint)
  | getControl (fd id : Jint)
  | setControl (fd id value : Jint)
  | startSearch (fd dir : Jint)
  | cancelSearch (fd : Jint)
  | getRSSI
  | setBand
  | getLowerBand
  | getBuffer (fd : Jint) (buff : Option Nat)
  | setMonoStereo
  | getRawRds (fd : Jint) (buff : Option Nat) (count : Jint)

def native : Method → Native
  | .acquireFd path => fmAcquireFdNative path
  | .audioControl fd control field => fmAudioControlNative fd control field
  | .closeFd fd => fmCloseFdNative fd
  | .getFreq fd => fmGetFreqNative fd
  | .setFreq fd freqKhz => fmSetFreqNative fd freqKhz
  | .getControl fd id => fmGetControlNative fd id
  | .setControl fd id value => fmSetControlNative fd id value
  | .startSearch fd dir => fmStartSearchNative fd dir
  | .cancelSearch fd => fmCancelSearchNative fd
  | .getRSSI => fmGetRSSINative
  | .setBand => fmSetBandNative
  | .getLowerBand => fmGetLowerBandNative
  | .getBuffer fd buff => fmGetBufferNative fd buff
  | .setMonoStereo => fmSetMonoStereoNative
  | .getRawRds fd buff count => fmGetRawRdsNative fd buff count

/-! ## What a native holds -/

/-- The connection to `fminit`, a descriptor that the caller has given to be closed, the string and the
array of the virtual machine; and whether the driver has reported more than it was asked for. -/
structure Held where
  sock : Option Jint
  given : Option Jint
  string : Option Nat
  array : Option Nat
  overrun : Bool
  deriving DecidableEq

def Held.nothing : Held := ⟨none, none, none, none, false⟩

/-- Everything has been released. -/
structure Held.Released (v : Held) : Prop where
  sock : v.sock = none
  given : v.given = none
  string : v.string = none
  array : v.array = none

/-- The driver is given descriptors that may be valid and memory that is held, no longer than it is, and
what is released is what is held. `len` are the lengths of the arrays; all other answers are free. -/
def discipline (len : Nat → Jint) : Contract Call Answer Held where
  allowed v
    | .socket_local_client => v.sock = none
    | .recvmsg sock => v.sock = some sock
    | .close fd => v.sock = some fd ∨ v.given = some fd
    | .open path | .isRadio0 path => v.string = some path
    | .gTuner fd | .gFrequency fd | .sFrequency fd _ | .gCtrl fd _ | .sCtrl fd _ _ => negative fd = false
    | .dqbuf fd userptr length =>
      negative fd = false ∧ v.array = some userptr ∧ 0 < length.toInt ∧ length.toInt ≤ (len userptr).toInt
    | .read fd buf count =>
      negative fd = false ∧ v.array = some buf ∧ 0 < count.toInt ∧ count.toInt ≤ (len buf).toInt
    | .getArrayLength _ => True
    | .getByteArrayElements _ => v.array = none
    | .releaseByteArrayElements array => v.array = some array
    | .getStringUTFChars _ => v.string = none
    | .releaseStringUTFChars string => v.string = some string
  possible _
    | .getArrayLength array, n => n = len array
    | _, _ => True
  next v
    | .socket_local_client, sock => { v with sock := if negative sock then none else some sock }
    | .close fd, _ => if v.sock = some fd then { v with sock := none } else { v with given := none }
    | .dqbuf _ _ length, bytesused =>
      { v with overrun := v.overrun || bytesused.any fun n => length.toNat < n.toNat }
    | .read _ _ count, r => { v with overrun := v.overrun || count.toInt < r.toInt }
    | .getByteArrayElements array, got => { v with array := if got then some array else none }
    | .releaseByteArrayElements _, _ => { v with array := none }
    | .getStringUTFChars string, got => { v with string := if got then some string else none }
    | .releaseStringUTFChars _, _ => { v with string := none }
    | _, _ => v

def Method.buffer : Method → Option Nat
  | .getBuffer _ buff | .getRawRds _ buff _ => buff
  | _ => none

/-- `closeFdNative` is given the descriptor that it closes, if it is one. -/
def Method.given : Method → Option Jint
  | .closeFd fd => if negative fd then none else some fd
  | _ => none

/-- What is held when a native is called. -/
def Method.start (m : Method) : Held := { Held.nothing with given := m.given }

/-- Nothing is held any more, and no more bytes are reported than the array has, unless the driver has
reported more. -/
def Returns (len : Nat → Jint) (m : Method) (r : Jint) (v : Held) : Prop :=
  v.Released ∧ (v.overrun = false → ∀ array, m.buffer = some array → r.toInt ≤ max 0 (len array).toInt)

section
variable {len : Nat → Jint} {ρ : Type} {S : ρ → Held → Prop} {v : Held} {fd : Jint}

theorem released_nothing : Held.nothing.Released := ⟨rfl, rfl, rfl, rfl⟩

theorem keeps_acquireFdFromFminit {Q : Jint → Held → Prop} {string array : Option Nat}
    (hQ : ∀ fd, Q fd ⟨none, none, string, array, false⟩) :
    Keeps (discipline len) Q acquireFdFromFminit ⟨none, none, string, array, false⟩ := by
  unfold acquireFdFromFminit
  simp only [lift_bind, keeps_bind]
  refine keeps_attempts (fun v => v = ⟨none, none, string, array, false⟩) ?_ ?_ 60 rfl
  · rintro v rfl
    refine ⟨rfl, fun sock _ => ?_⟩
    by_cases hs : negative sock
    · simp [hs, discipline]
    · have hv : (discipline len).next ⟨none, none, string, array, false⟩ .socket_local_client sock =
          ⟨some sock, none, string, array, false⟩ := by simp [discipline, hs]
      rw [hv]
      simp only [hs, Bool.false_eq_true, if_false, pure_eq, keeps_ret]
      refine ⟨fun h => absurd h (Option.some_ne_none sock), fun _ => ⟨rfl, fun m _ => ⟨.inl rfl, fun _ _ => ?_⟩⟩⟩
      have hclosed : (discipline len).next ((discipline len).next ⟨some sock, none, string, array, false⟩
          (.recvmsg sock) m) (.close sock) = fun _ => ⟨none, none, string, array, false⟩ := by
        funext _
        simp [discipline]
      rw [hclosed]
      exact hQ _
  · rintro v rfl
    exact hQ _

theorem keeps_fmAcquireFd (path : Option Nat) :
    Keeps (discipline len) (fun _ v => v = Held.nothing) (fmAcquireFdNative path) Held.nothing := by
  cases path with
  | none => rfl
  | some path =>
    unfold fmAcquireFdNative
    simp only [lift_bind, keeps_call]
    refine ⟨rfl, fun got _ => ?_⟩
    cases got with
    | false => rfl
    | true =>
      have hrest : ∀ fd, Keeps (discipline len) (fun _ v => v = Held.nothing)
          (orOpen path fd >>= fun fd => call (.releaseStringUTFChars path) fun _ => ret fd)
          ⟨none, none, some path, none, false⟩ := by
        intro fd
        unfold orOpen
        split
        · exact ⟨rfl, fun _ _ => ⟨rfl, fun _ _ => rfl⟩⟩
        · exact ⟨rfl, fun _ _ => rfl⟩
      simp only [if_true, call_bind, keeps_call, keeps_bind]
      refine ⟨rfl, fun radio0 _ => ?_⟩
      cases radio0 with
      | true => exact keeps_acquireFdFromFminit fun fd => keeps_bind.mp (hrest fd)
      | false => exact keeps_bind.mp (hrest (-1))

theorem not_negative {fd : Jint} (h : ¬ negative fd = true) : negative fd = false := by simpa using h

theorem keeps_fmGetFreq : Keeps (discipline len) (fun _ u => u = v) (fmGetFreqNative fd) v := by
  unfold fmGetFreqNative
  split
  · rfl
  · rename_i hfd
    refine ⟨not_negative hfd, fun frequency _ => ?_⟩
    cases frequency with
    | none => rfl
    | some frequency => exact ⟨not_negative hfd, fun _ _ => rfl⟩

theorem keeps_fmSetFreq (freqKhz : Jint) :
    Keeps (discipline len) (fun _ u => u = v) (fmSetFreqNative fd freqKhz) v := by
  unfold fmSetFreqNative
  split
  · rfl
  · rename_i hfd
    refine ⟨not_negative hfd, fun low _ => ⟨not_negative hfd, fun done _ => ?_⟩⟩
    cases done <;> rfl

theorem keeps_fmGetControl (id : Jint) :
    Keeps (discipline len) (fun _ u => u = v) (fmGetControlNative fd id) v := by
  unfold fmGetControlNative
  split
  · rfl
  · rename_i hfd
    exact ⟨not_negative hfd, fun _ _ => rfl⟩

theorem keeps_fmSetControl (id value : Jint) :
    Keeps (discipline len) (fun _ u => u = v) (fmSetControlNative fd id value) v := by
  unfold fmSetControlNative
  split
  · rfl
  · rename_i hfd
    refine ⟨not_negative hfd, fun done _ => ?_⟩
    cases done <;> rfl

theorem keeps_fmStartSearch (dir : Jint) :
    Keeps (discipline len) (fun _ u => u = v) (fmStartSearchNative fd dir) v := by
  refine keeps_bind.mpr ((keeps_fmSetControl _ _).mono fun r u hu => ?_)
  subst hu
  split
  · rfl
  · exact keeps_fmSetControl _ _

/-- The descriptor is closed once, whatever `close` says. -/
theorem keeps_fmCloseFd : Keeps (discipline len) (fun _ u => u = Held.nothing) (fmCloseFdNative fd)
    (Method.closeFd fd).start := by
  have hstart : (Method.closeFd fd).start = ⟨none, if negative fd then none else some fd, none, none, false⟩ := rfl
  rw [hstart, fmCloseFdNative]
  by_cases hfd : negative fd = true
  · rw [if_pos hfd, if_pos hfd]
    rfl
  · rw [if_neg hfd, if_neg hfd]
    exact ⟨.inr rfl, fun _ _ => rfl⟩

theorem toInt_le_of_toNat_le {n length : BitVec 32} (h : n.toNat ≤ length.toNat) (hl : 0 ≤ length.toInt) :
    n.toInt ≤ length.toInt := by
  rw [BitVec.toInt_eq_toNat_cond] at hl ⊢
  rw [BitVec.toInt_eq_toNat_cond]
  split at hl <;> split <;> omega

theorem keeps_fmGetBuffer (buff : Nat) :
    Keeps (discipline len) (fun r u => u.Released ∧ (u.overrun = false → r.toInt ≤ max 0 (len buff).toInt))
      (fmGetBufferNative fd (some buff)) Held.nothing := by
  have hfail : FM_JNI_FAILURE.toInt ≤ max 0 (len buff).toInt := by
    have : FM_JNI_FAILURE.toInt = -1 := rfl
    omega
  have hzero : (0 : Jint).toInt ≤ max 0 (len buff).toInt := by
    have : (0 : Jint).toInt = 0 := rfl
    omega
  simp only [fmGetBufferNative, lift_bind]
  split
  · exact ⟨released_nothing, fun _ => hfail⟩
  · rename_i hfd
    simp only [keeps_call]
    refine ⟨trivial, fun length hlength => ?_⟩
    obtain rfl : length = len buff := hlength
    split
    · exact ⟨released_nothing, fun _ => hzero⟩
    · rename_i hpos
      refine ⟨rfl, fun got _ => ?_⟩
      cases got with
      | false => exact ⟨released_nothing, fun _ => hfail⟩
      | true =>
        refine ⟨⟨not_negative hfd, rfl, by omega, le_refl _⟩, fun used _ => ⟨rfl, fun _ _ => ?_⟩⟩
        refine ⟨⟨rfl, rfl, rfl, rfl⟩, fun hover => ?_⟩
        cases used with
        | none => exact hfail
        | some n =>
          have hused : n.toNat ≤ (len buff).toNat := by simpa [discipline, Held.nothing] using hover
          exact le_trans (toInt_le_of_toNat_le hused (by omega)) (le_max_right _ _)

theorem keeps_fmGetRawRds (buff : Nat) (count : Jint) :
    Keeps (discipline len) (fun r u => u.Released ∧ (u.overrun = false → r.toInt ≤ max 0 (len buff).toInt))
      (fmGetRawRdsNative fd (some buff) count) Held.nothing := by
  have hfail : FM_JNI_FAILURE.toInt ≤ max 0 (len buff).toInt := by
    have : FM_JNI_FAILURE.toInt = -1 := rfl
    omega
  have hzero : (0 : Jint).toInt ≤ max 0 (len buff).toInt := by
    have : (0 : Jint).toInt = 0 := rfl
    omega
  simp only [fmGetRawRdsNative, lift_bind]
  split
  · exact ⟨released_nothing, fun _ => hfail⟩
  · rename_i hfd
    simp only [keeps_call]
    refine ⟨trivial, fun length hlength => ?_⟩
    obtain rfl : length = len buff := hlength
    split
    · exact ⟨released_nothing, fun _ => hzero⟩
    · rename_i hpos
      split
      · split
        · exact ⟨released_nothing, fun _ => hzero⟩
        · exact ⟨released_nothing, fun _ => hfail⟩
      · rename_i hcount
        -- the count that is read is the smaller one
        have hclip : ∀ c : Jint, c = (if (len buff).toInt < count.toInt then len buff else count) →
            0 < c.toInt ∧ c.toInt ≤ (len buff).toInt := by
          rintro c rfl
          split <;> omega
        refine ⟨rfl, fun got _ => ?_⟩
        cases got with
        | false => exact ⟨released_nothing, fun _ => hfail⟩
        | true =>
          obtain ⟨h₁, h₂⟩ := hclip _ rfl
          refine ⟨⟨not_negative hfd, rfl, h₁, h₂⟩, fun r _ => ⟨rfl, fun _ _ => ?_⟩⟩
          split
          · exact ⟨⟨rfl, rfl, rfl, rfl⟩, fun _ => hfail⟩
          · refine ⟨⟨rfl, rfl, rfl, rfl⟩, fun hover => ?_⟩
            have hr : r.toInt ≤ (if (len buff).toInt < count.toInt then len buff else count).toInt := by
              simpa [discipline, Held.nothing] using hover
            exact le_trans (le_trans hr h₂) (le_max_right _ _)

end

/-- However the driver, the sockets and the virtual machine answer, every native keeps the discipline
to its end. -/
theorem native_keeps (len : Nat → Jint) (m : Method) : Keeps (discipline len) (Returns len m) (native m) m.start := by
  have hfree : ∀ {p : Native} {v : Held}, m.buffer = none →
      Keeps (discipline len) (fun _ v => v = Held.nothing) p v → Keeps (discipline len) (Returns len m) p v := by
    intro p v hm hp
    refine hp.mono fun r v hv => ?_
    rw [hv]
    refine ⟨released_nothing, fun _ array ha => ?_⟩
    rw [hm] at ha
    cases ha
  cases m with
  | acquireFd path => exact hfree rfl (keeps_fmAcquireFd path)
  | audioControl fd control field => exact hfree rfl (keeps_fmSetControl control field)
  | closeFd fd => exact hfree rfl keeps_fmCloseFd
  | getFreq fd => exact hfree rfl keeps_fmGetFreq
  | setFreq fd freqKhz => exact hfree rfl (keeps_fmSetFreq freqKhz)
  | getControl fd id => exact hfree rfl (keeps_fmGetControl id)
  | setControl fd id value => exact hfree rfl (keeps_fmSetControl id value)
  | startSearch fd dir => exact hfree rfl (keeps_fmStartSearch dir)
  | cancelSearch fd => exact hfree rfl (keeps_fmSetControl _ _)
  | getRSSI => exact hfree rfl rfl
  | setBand => exact hfree rfl rfl
  | getLowerBand => exact hfree rfl rfl
  | setMonoStereo => exact hfree rfl rfl
  | getBuffer fd buff =>
    cases buff with
    | none => exact ⟨released_nothing, fun _ => nofun⟩
    | some buff =>
      refine (keeps_fmGetBuffer buff).mono fun r v hv => ⟨hv.1, fun hover array ha => ?_⟩
      obtain rfl := Option.some.inj ha
      exact hv.2 hover
  | getRawRds fd buff count =>
    cases buff with
    | none => exact ⟨released_nothing, fun _ => nofun⟩
    | some buff =>
      refine (keeps_fmGetRawRds buff count).mono fun r v hv => ⟨hv.1, fun hover array ha => ?_⟩
      obtain rfl := Option.some.inj ha
      exact hv.2 hover

/-! ## The frequency -/

/-- A driver that stores the frequency as it is given; `tuner` is its answer to `VIDIOC_G_TUNER`, and
what else it is asked it refuses. -/
def ioctl (tuner : Option Bool) (frequency : BitVec 32) : (c : Call) → Answer c × BitVec 32
  | .gTuner _ => (tuner, frequency)
  | .gFrequency _ => (some frequency, frequency)
  | .sFrequency _ f => (true, f)
  | .gCtrl .. | .dqbuf .. => (none, frequency)
  | .sCtrl .. | .isRadio0 _ | .getByteArrayElements _ | .getStringUTFChars _ => (false, frequency)
  | .releaseByteArrayElements _ | .releaseStringUTFChars _ => ((), frequency)
  | .recvmsg _ => (⟨0, false, none⟩, frequency)
  | .socket_local_client | .close _ | .open _ | .read .. | .getArrayLength _ => ((-1 : Jint), frequency)

def drive {ρ : Type} (tuner : Option Bool) : Prog Call Answer ρ → BitVec 32 → ρ × BitVec 32
  | .ret r, frequency => (r, frequency)
  | .call c k, frequency => drive tuner (k (ioctl tuner frequency c).1) (ioctl tuner frequency c).2

/-- The kilohertz that come back: none is lost exactly where both ways use the same units and they fit. -/
theorem v4l2ToKhz_khzToV4l2 (f : Jint) (low low' : Bool) : v4l2ToKhz (khzToV4l2 f low) low' = f ↔
    f = 0 ∨ (0 < f.toInt ∧ low = low' ∧ (low = true → f.toNat < 2 ^ 28)) := by
  have hsign : 0 < f.toInt ↔ 0 < f.toNat ∧ f.toNat < 2 ^ 31 := by
    rw [BitVec.toInt_eq_toNat_cond]
    split <;> omega
  have hzero : f = 0 ↔ f.toNat = 0 := by rw [← BitVec.toNat_inj]; rfl
  unfold khzToV4l2
  by_cases hpos : f.toInt ≤ 0
  · have hv : v4l2ToKhz 0 low' = 0 := by cases low' <;> rfl
    simp only [hpos, if_true, hv]
    constructor
    · exact fun h => .inl h.symm
    · rintro (h | ⟨h, -⟩)
      · exact h.symm
      · omega
  · have hf := hsign.mp (by omega)
    have hmul : (f * 16).toNat = f.toNat * 16 % 2 ^ 32 := by rw [BitVec.toNat_mul]; rfl
    have hdiv : ∀ x : BitVec 32, (x / 16).toNat = x.toNat / 16 := fun x => by rw [BitVec.toNat_udiv]; rfl
    simp only [hpos, if_false, hzero, hsign]
    cases low with
    | true =>
      cases low' with
      | true =>
        rw [← BitVec.toNat_inj]
        simp only [v4l2ToKhz, if_true, hdiv, hmul, true_imp_iff, true_and]
        omega
      | false =>
        rw [← BitVec.toNat_inj]
        simp only [v4l2ToKhz, if_true, Bool.false_eq_true, if_false, hmul, false_and, and_false, or_false,
          reduceCtorEq]
        omega
    | false =>
      cases low' with
      | true =>
        rw [← BitVec.toNat_inj]
        simp only [v4l2ToKhz, if_true, Bool.false_eq_true, if_false, hdiv, false_and, and_false, or_false]
        omega
      | false =>
        simp only [v4l2ToKhz, Bool.false_eq_true, if_false, true_iff]
        exact .inr ⟨hf, trivial, nofun⟩

/-- A frequency that was set is read back exactly where the tuner's units were taken for the same both
times (as low where it does not answer) and the frequency fits in them. -/
theorem getFreq_setFreq (fd f : Jint) (hfd : negative fd = false) (tuner tuner' : Option Bool)
    (frequency : BitVec 32) :
    (drive tuner (fmSetFreqNative fd f) frequency).1 = FM_JNI_SUCCESS ∧
      ((drive tuner' (fmGetFreqNative fd) (drive tuner (fmSetFreqNative fd f) frequency).2).1 = f ↔
        f = 0 ∨ (0 < f.toInt ∧ tuner.getD true = tuner'.getD true ∧
          (tuner.getD true = true → f.toNat < 2 ^ 28))) := by
  have hset : drive tuner (fmSetFreqNative fd f) frequency = (FM_JNI_SUCCESS, khzToV4l2 f (tuner.getD true)) := by
    simp [fmSetFreqNative, hfd, tunerUsesLowUnits, drive, ioctl]
  have hget : ∀ frequency, (drive tuner' (fmGetFreqNative fd) frequency).1 =
      v4l2ToKhz frequency (tuner'.getD true) := by
    intro frequency
    simp [fmGetFreqNative, hfd, tunerUsesLowUnits, drive, ioctl]
  rw [hset, hget]
  exact ⟨rfl, v4l2ToKhz_khzToV4l2 f _ _⟩

/-- 95.5 MHz, which is not read back where the tuner answered once only. -/
theorem getFreq_setFreq_unanswered :
    (drive (some false) (fmSetFreqNative 3 95500) 0).1 = FM_JNI_SUCCESS ∧
      ((drive none (fmGetFreqNative 3) (drive (some false) (fmSetFreqNative 3 95500) 0).2).1 = 95500 ↔
        (95500 : Jint) = 0 ∨ (0 < (95500 : Jint).toInt ∧ (some false).getD true = (none : Option Bool).getD true ∧
          ((some false).getD true = true → (95500 : Jint).toNat < 2 ^ 28))) :=
  getFreq_setFreq 3 95500 (by decide) (some false) none 0

end FmNatives
