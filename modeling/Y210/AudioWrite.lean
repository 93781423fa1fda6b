import Y210.AudioRouting

/-!
# What a `write` hands to the driver

The loop of `write` moves a pointer and a count over the buffer while the driver takes some
of it, nothing, or asks for a retry.
-/
namespace AudioWrite

open AudioDrivers AudioHardware AudioStreams AudioRouting
open Records (Byte)

variable {p : Platform}

/-- The bytes that the driver took, in their order. -/
def delivered : List PcmCall → List Byte
  | [] => []
  | .wrote _ bytes :: log => delivered log ++ bytes
  | _ :: log => delivered log

/-- A buffer whose length fits a `size_t`. -/
structure Buffer where
  bytes : List Byte
  fits : bytes.length < 4294967296

/-- The returned value as a `ssize_t`. -/
def ssize (value : Int) : Int := value.bmod 4294967296

/-- `close_stream`. -/
def closeStream (out : AudioStreamOut) (w : World) : World :=
  setOut { out with mFd := if 0 ≤ out.mFd then -1 else out.mFd } { w with pcmOut := closeFd out.mFd w.pcmOut }

/-- `write` from its first test on; `set` gives every open stream its hardware. -/
def writeBuffer (p : Platform) (mHardware : Bool) (buffer : Buffer) (answers : List WriteAnswer) (w : World) :
    World × Option Int :=
  match w.hw.mOutput with
  | none => (w, none)
  | some out =>
    if mHardware = false then (closeStream out w, some noInit)
    else match write p buffer.bytes answers w with
      | (w, value) => (w, value.map ssize)

/-- From one log to the next the driver took a prefix of the bytes, and all of them when the value is
not negative. -/
def Delivers (bytes : List Byte) (log log' : List PcmCall) (value : Option Int) : Prop :=
  ∃ calls, log' = calls ++ log ∧ delivered calls <+: bytes ∧
    ∀ v ∈ value, 0 ≤ v → delivered calls = bytes ∧ v = bytes.length

/-- Calls that hand nothing to the driver. -/
def Silent (log log' : List PcmCall) : Prop := ∃ calls, log' = calls ++ log ∧ delivered calls = []

theorem delivered_append (calls log : List PcmCall) : delivered (calls ++ log) = delivered log ++ delivered calls := by
  induction calls with
  | nil => simp [delivered]
  | cons call calls ih => cases call <;> simp [delivered, ih]

theorem Silent.refl (log : List PcmCall) : Silent log log := ⟨[], rfl, rfl⟩

theorem Silent.cons {log log' : List PcmCall} (h : Silent log log') (call : PcmCall)
    (hcall : ∀ fd bytes, call ≠ .wrote fd bytes) : Silent log (call :: log') := by
  obtain ⟨calls, rfl, hcalls⟩ := h
  refine ⟨call :: calls, rfl, ?_⟩
  cases call with
  | wrote fd bytes => exact absurd rfl (hcall fd bytes)
  | _ => exact hcalls

theorem closeFd_silent {log log' : List PcmCall} (h : Silent log log') (fd : Int) : Silent log (closeFd fd log') := by
  unfold closeFd
  split
  · exact h.cons _ nofun
  · exact h

/-- A call that fails before it hands anything over. -/
theorem Silent.delivers {log log' : List PcmCall} (h : Silent log log') (bytes : List Byte) {value : Int}
    (hvalue : value < 0) : Delivers bytes log log' (some value) := by
  obtain ⟨calls, rfl, hcalls⟩ := h
  refine ⟨calls, rfl, hcalls ▸ List.nil_prefix, fun v hv hnonneg => ?_⟩
  obtain rfl := Option.some.inj hv
  omega

/-- Silent calls before a delivery. -/
theorem Delivers.after {bytes : List Byte} {log mid log' : List PcmCall} {value : Option Int}
    (h : Delivers bytes mid log' value) (hsilent : Silent log mid) : Delivers bytes log log' value := by
  obtain ⟨calls, rfl, hcalls⟩ := h
  obtain ⟨first, rfl, hfirst⟩ := hsilent
  have hsame : delivered (calls ++ first) = delivered calls := by rw [delivered_append, hfirst, List.nil_append]
  exact ⟨calls ++ first, (List.append_assoc ..).symm, by rwa [hsame]⟩

/-! ## The loop -/

/-- What has been taken and what is left is the buffer, in every round. -/
theorem writeLoop_delivers (fd : Int) (answers : List WriteAnswer) (bytes : List Byte) (retries : Nat)
    (log : List PcmCall) : ∃ calls, (writeLoop fd answers bytes retries log).2.1 = calls ++ log ∧
      delivered calls <+: bytes ∧ ((writeLoop fd answers bytes retries log).2.2 = .done → delivered calls = bytes) := by
  fun_induction writeLoop fd answers bytes retries log with
  | case1 answers retries log => exact ⟨[], rfl, List.prefix_rfl, fun _ => rfl⟩
  | case2 b bytes retries log => exact ⟨[], rfl, List.nil_prefix, nofun⟩
  | case3 n rest b bytes retries log ih =>
    obtain ⟨calls, hlog, hpre, hdone⟩ := ih
    have htaken : delivered (calls ++ [.wrote fd ((b :: bytes).take n)]) = (b :: bytes).take n ++ delivered calls := by
      rw [delivered_append]
      rfl
    refine ⟨calls ++ [.wrote fd ((b :: bytes).take n)], ?_, ?_, fun he => ?_⟩
    · rw [hlog, List.append_assoc]
      rfl
    · rw [htaken]
      have hwhole := List.take_append_drop n (b :: bytes)
      calc (b :: bytes).take n ++ delivered calls <+: (b :: bytes).take n ++ (b :: bytes).drop n :=
            (List.prefix_append_right_inj _).mpr hpre
        _ = b :: bytes := hwhole
    · rw [htaken, hdone he, List.take_append_drop]
  | case4 rest b bytes retries log ih => exact ih
  | case5 rest b bytes retries log => exact ⟨[], rfl, List.nil_prefix, nofun⟩

/-- The last block hands nothing over. It returns the count or an error. -/
theorem startPlayback_silent (n : Nat) (out : AudioStreamOut) (w : World) :
    Silent w.pcmOut (startPlayback p n out w).1.pcmOut ∧
      ((startPlayback p n out w).2 = n ∨ (startPlayback p n out w).2 = eio) := by
  have hstarted : ∀ ok, Silent w.pcmOut (.started out.mFd ok :: w.pcmOut) := fun ok => (Silent.refl _).cons _ nofun
  unfold startPlayback
  split
  · exact ⟨.refl _, .inl rfl⟩
  · split
    · exact ⟨.refl _, .inl rfl⟩
    · dsimp only
      split
      · refine ⟨?_, .inl rfl⟩
        rw [postproc_pcmOut]
        exact hstarted _
      · refine ⟨?_, .inr rfl⟩
        rw [postproc_pcmOut]
        exact closeFd_silent (hstarted _) _

/-- A count that does not come out negative comes out as it is. -/
theorem ssize_count {n : Nat} (hn : n < 4294967296) (h : 0 ≤ ssize n) : ssize n = n := by
  unfold ssize at h ⊢
  rw [Int.bmod_def] at h ⊢
  split at h <;> rename_i hlow
  · rw [if_pos hlow]
    omega
  · omega

theorem playBuffer_delivers (buffer : Buffer) (answers : List WriteAnswer) (out : AudioStreamOut) (w : World) :
    Delivers buffer.bytes w.pcmOut (playBuffer p buffer.bytes answers out w).1.pcmOut
      ((playBuffer p buffer.bytes answers out w).2.map ssize) := by
  unfold playBuffer
  split
  · exact (Silent.refl _).delivers _ (by decide)
  · obtain ⟨calls, hlog, hpre, hdone⟩ := writeLoop_delivers out.mFd answers buffer.bytes out.mRetryCount w.pcmOut
    generalize writeLoop out.mFd answers buffer.bytes out.mRetryCount w.pcmOut = r at hlog hdone
    obtain ⟨retries, log, fin⟩ := r
    obtain rfl : log = calls ++ w.pcmOut := hlog
    cases fin with
    | blocked => exact ⟨calls, rfl, hpre, nofun⟩
    | failed =>
      refine ⟨calls, rfl, hpre, fun v hv hnonneg => ?_⟩
      obtain rfl := Option.some.inj hv
      exact absurd hnonneg (by decide)
    | done =>
      obtain ⟨⟨last, hlast, hsilent⟩, hvalue⟩ := startPlayback_silent (p := p) buffer.bytes.length
        { out with mRetryCount := retries }
        (setOut { out with mRetryCount := retries } { w with pcmOut := calls ++ w.pcmOut })
      have hall : delivered (last ++ calls) = buffer.bytes := by
        rw [delivered_append, hsilent, List.append_nil, hdone rfl]
      refine ⟨last ++ calls, ?_, hall ▸ List.prefix_rfl, fun v hv hnonneg => ⟨hall, ?_⟩⟩
      · rw [List.append_assoc]
        exact hlast
      · obtain rfl := Option.some.inj hv
        rcases hvalue with hvalue | hvalue
        · rw [hvalue] at hnonneg ⊢
          exact ssize_count buffer.fits hnonneg
        · rw [hvalue] at hnonneg
          exact absurd hnonneg (by decide)

/-! ## The call -/

theorem openPcmOut_silent (out : AudioStreamOut) (log : List PcmCall) :
    Silent log (openPcmOut p out log).2.1 ∧
      ((openPcmOut p out log).2.2 < 0 → (openPcmOut p out log).2.2 = -1) := by
  unfold openPcmOut
  dsimp only
  have hopened := (Silent.refl log).cons (.opened (log.length : Int)) nofun
  have hread := fun ok => hopened.cons (.getConfig (log.length : Int) ok) nofun
  have hset := fun ok ok' => (hread ok).cons (.setConfig (log.length : Int) outConfig ok') nofun
  have hclosed := fun log' (h : Silent log log') => h.cons (.closed (log.length : Int)) nofun
  have hfailed := (Silent.refl log).cons (.openFailed) nofun
  split
  · exact ⟨closeFd_silent hfailed _, fun _ => rfl⟩
  · split
    · exact ⟨hclosed _ (hread _), fun _ => rfl⟩
    · split
      · exact ⟨hclosed _ (hset _ _), fun _ => rfl⟩
      · exact ⟨hset _ _, fun h => absurd h (Int.lt_irrefl 0)⟩

/-- Whatever the driver answers, it has taken a prefix of the buffer, and a value that is not negative
tells the length of a buffer that it has taken whole. -/
theorem write_delivers (p : Platform) (mHardware : Bool) (buffer : Buffer) (answers : List WriteAnswer)
    (w : World) : Delivers buffer.bytes w.pcmOut (writeBuffer p mHardware buffer answers w).1.pcmOut
      (writeBuffer p mHardware buffer answers w).2 := by
  unfold writeBuffer
  cases ho : w.hw.mOutput with
  | none => exact ⟨[], rfl, List.nil_prefix, nofun⟩
  | some out =>
    cases mHardware with
    | false => exact (closeFd_silent (Silent.refl _) out.mFd).delivers _ (by decide)
    | true =>
      simp only [write, ho, Bool.true_eq_false, if_false]
      split
      · obtain ⟨hsilent, herror⟩ := openPcmOut_silent (p := p) out w.pcmOut
        generalize openPcmOut p out w.pcmOut = r at hsilent herror
        obtain ⟨out', log, status⟩ := r
        dsimp only at hsilent herror ⊢
        split
        · rename_i hstatus
          rw [herror hstatus]
          exact hsilent.delivers _ (by decide)
        · exact (playBuffer_delivers buffer answers out' (setOut out' { w with pcmOut := log })).after hsilent
      · exact playBuffer_delivers buffer answers out w

end AudioWrite
