import Y210.AudioInput

/-!
# Counter-proposals of `openInputStream`

The checks on the mode, the format, the rate and the channels stand one after the other, and
each returns at its first failure with its own argument put right. A client that takes the
proposal finds the next failure.
-/
namespace AudioProposal

open AudioDrivers AudioHardware AudioStreams AudioInput

def FormatBad (a : InArgs) : Prop := a.format ≠ pcm16Bit ∧ a.format ≠ amrNb ∧ a.format ≠ aac

/-- No rate of the table, or a rate above 8 kHz for a PCM recording in a call. A format that is
no format becomes PCM. -/
def RateBad (mode : Int) (a : InArgs) : Prop :=
  getInputSampleRate a.sampleRate ≠ a.sampleRate ∨
    mode = modeInCall ∧ 8000 < getInputSampleRate a.sampleRate ∧ (a.format = pcm16Bit ∨ FormatBad a)

def ChannelsBad (a : InArgs) : Prop := a.channels &&& (channelInMono ||| channelInStereo) = 0

instance (a : InArgs) : Decidable (FormatBad a) := inferInstanceAs (Decidable (_ ∧ _))

instance (mode : Int) (a : InArgs) : Decidable (RateBad mode a) := inferInstanceAs (Decidable (_ ∨ _))

instance (a : InArgs) : Decidable (ChannelsBad a) := inferInstanceAs (Decidable (_ = _))

/-- The counter-proposal of `openInputStream` and `set`: the first failure. -/
def propose (mode : Int) (a : InArgs) : Option InArgs :=
  if mode = modeInCall ∧ 8000 < getInputSampleRate a.sampleRate ∧ a.format = pcm16Bit then
    some { a with sampleRate := 8000 }
  else checkInArgs a

theorem checkInArgs_eq (a : InArgs) : checkInArgs a =
    if FormatBad a then some { a with format := pcm16Bit }
    else if getInputSampleRate a.sampleRate ≠ a.sampleRate then
      some { a with sampleRate := getInputSampleRate a.sampleRate }
    else if ChannelsBad a then some { a with channels := channelInMono }
    else none := rfl

/-- A rate of the table is its own nearest. -/
theorem getInputSampleRate_of_mem {rate : BitVec 32} (h : rate ∈ inputSamplingRates) :
    getInputSampleRate rate = rate := by
  simp only [inputSamplingRates, List.mem_cons, List.not_mem_nil, or_false] at h
  rcases h with rfl | rfl | rfl | rfl | rfl | rfl | rfl | rfl | rfl <;> decide

theorem getInputSampleRate_idem (rate : BitVec 32) :
    getInputSampleRate (getInputSampleRate rate) = getInputSampleRate rate :=
  getInputSampleRate_of_mem (getInputSampleRate_mem rate)

theorem getInputSampleRate_8000 : getInputSampleRate 8000 = 8000 :=
  getInputSampleRate_of_mem List.mem_cons_self

section
variable {mode : Int} {a b : InArgs}

theorem mono_not_bad : ¬ ChannelsBad { a with channels := channelInMono } := by
  have hmono : channelInMono &&& (channelInMono ||| channelInStereo) ≠ 0 := by decide
  exact hmono

/-- The checks pass when no argument is bad. -/
theorem propose_eq_none_iff :
    propose mode a = none ↔ ¬ FormatBad a ∧ ¬ RateBad mode a ∧ ¬ ChannelsBad a := by
  unfold propose RateBad
  rw [checkInArgs_eq]
  by_cases hf : FormatBad a
  · have hpcm : ¬ (mode = modeInCall ∧ 8000 < getInputSampleRate a.sampleRate ∧ a.format = pcm16Bit) :=
      fun h => hf.1 h.2.2
    rw [if_neg hpcm, if_pos hf]
    exact iff_of_false (by simp) fun h => h.1 hf
  · by_cases hcall : mode = modeInCall ∧ 8000 < getInputSampleRate a.sampleRate ∧ a.format = pcm16Bit
    · rw [if_pos hcall]
      exact iff_of_false (by simp) fun h => h.2.1 (.inr ⟨hcall.1, hcall.2.1, .inl hcall.2.2⟩)
    · rw [if_neg hcall, if_neg hf]
      by_cases hr : getInputSampleRate a.sampleRate ≠ a.sampleRate
      · rw [if_pos hr]
        exact iff_of_false (by simp) fun h => h.2.1 (.inl hr)
      · rw [if_neg hr]
        have hrate : ¬ RateBad mode a := by
          rintro (h | ⟨hm, hlt, hpcm | hbad⟩)
          · exact hr h
          · exact hcall ⟨hm, hlt, hpcm⟩
          · exact hf hbad
        by_cases hc : ChannelsBad a
        · rw [if_pos hc]
          exact iff_of_false (by simp) fun h => h.2.2 hc
        · exact iff_of_true (if_neg hc) ⟨hf, hrate, hc⟩

/-- A proposal puts one argument right and leaves the others: the format before the rate and
the rate before the channels. -/
inductive Corrects (mode : Int) (a : InArgs) : InArgs → Prop
  | format (hf : FormatBad a) : Corrects mode a { a with format := pcm16Bit }
  | rate (rate : BitVec 32) (hf : ¬ FormatBad a) (hr : RateBad mode a)
      (hrate : getInputSampleRate rate = rate)
      (hcall : mode = modeInCall → 8000 < rate → a.format ≠ pcm16Bit) :
      Corrects mode a { a with sampleRate := rate }
  | channels (hf : ¬ FormatBad a) (hr : ¬ RateBad mode a) (hc : ChannelsBad a) :
      Corrects mode a { a with channels := channelInMono }

theorem propose_corrects (h : propose mode a = some b) : Corrects mode a b := by
  unfold propose at h
  split at h
  · rename_i hcall
    obtain ⟨hm, hlt, hpcm⟩ := hcall
    cases h
    exact .rate 8000 (fun hf => hf.1 hpcm) (.inr ⟨hm, hlt, .inl hpcm⟩) getInputSampleRate_8000
      fun _ h8 => absurd h8 (BitVec.lt_irrefl _)
  · rename_i hcall
    rw [checkInArgs_eq] at h
    split at h
    · rename_i hf
      cases h
      exact .format hf
    · rename_i hf
      have hpcm : mode = modeInCall → 8000 < getInputSampleRate a.sampleRate → a.format ≠ pcm16Bit :=
        fun hm hlt hpcm => hcall ⟨hm, hlt, hpcm⟩
      split at h
      · rename_i hr
        cases h
        exact .rate _ hf (.inl hr) (getInputSampleRate_idem _) hpcm
      · rename_i hr
        split at h
        · rename_i hc
          cases h
          refine .channels hf ?_ hc
          rintro (h | ⟨hm, hlt, hp | hb⟩)
          · exact hr h
          · exact hpcm hm hlt hp
          · exact hf hb
        · cases h

/-- More than one argument is bad. -/
def TwoBad (mode : Int) (a : InArgs) : Prop :=
  FormatBad a ∧ (RateBad mode a ∨ ChannelsBad a) ∨ RateBad mode a ∧ ChannelsBad a

/-- A proposal passes the checks when it had one argument to put right. -/
theorem propose_again_iff (h : Corrects mode a b) : propose mode b = none ↔ ¬ TwoBad mode a := by
  rw [propose_eq_none_iff]
  cases h with
  | format hf =>
    have hf' : ¬ FormatBad { a with format := pcm16Bit } := fun h => h.1 rfl
    have hr : RateBad mode { a with format := pcm16Bit } ↔ RateBad mode a := by
      unfold RateBad
      simp [hf]
    have hc : ChannelsBad { a with format := pcm16Bit } ↔ ChannelsBad a := Iff.rfl
    rw [hr, hc, TwoBad]
    constructor
    · rintro ⟨-, hnr, hnc⟩ (⟨-, h | h⟩ | ⟨h, -⟩)
      · exact hnr h
      · exact hnc h
      · exact hnr h
    · intro h
      exact ⟨hf', fun hr => h (.inl ⟨hf, .inl hr⟩), fun hc => h (.inl ⟨hf, .inr hc⟩)⟩
  | rate rate hf hr hrate hcall =>
    have hf' : FormatBad { a with sampleRate := rate } ↔ FormatBad a := Iff.rfl
    have hr' : ¬ RateBad mode { a with sampleRate := rate } := by
      rintro (h | ⟨hm, hlt, hp | hb⟩)
      · exact h hrate
      · rw [hrate] at hlt
        exact hcall hm hlt hp
      · exact hf hb
    have hc : ChannelsBad { a with sampleRate := rate } ↔ ChannelsBad a := Iff.rfl
    rw [hf', hc, TwoBad]
    constructor
    · rintro ⟨-, -, hnc⟩ (⟨h, -⟩ | ⟨-, h⟩)
      · exact hf h
      · exact hnc h
    · intro h
      exact ⟨hf, hr', fun hc => h (.inr ⟨hr, hc⟩)⟩
  | channels hf hr hc =>
    have hf' : FormatBad { a with channels := channelInMono } ↔ FormatBad a := Iff.rfl
    have hr' : RateBad mode { a with channels := channelInMono } ↔ RateBad mode a := Iff.rfl
    have hc' : ¬ ChannelsBad { a with channels := channelInMono } := mono_not_bad
    rw [hf', hr', TwoBad]
    refine iff_of_true ⟨hf, hr, hc'⟩ ?_
    rintro (⟨h, -⟩ | ⟨h, -⟩)
    · exact hf h
    · exact hr h

theorem Corrects.ne (h : Corrects mode a b) : b ≠ a := by
  intro he
  cases h with
  | format hf => exact hf.1 (congrArg InArgs.format he).symm
  | rate rate hf hr hrate hcall =>
    have hsame : rate = a.sampleRate := congrArg InArgs.sampleRate he
    rcases hr with hr | ⟨hm, hlt, hp | hb⟩
    · rw [hsame] at hrate
      exact hr hrate
    · rw [← hsame, hrate] at hlt
      exact hcall hm hlt hp
    · exact hf hb
  | channels hf hr hc =>
    have hsame : channelInMono = a.channels := congrArg InArgs.channels he
    rw [ChannelsBad, ← hsame] at hc
    exact absurd hc (by decide)

theorem Corrects.amr (h : Corrects mode a b) :
    b.format = amrNb ↔ a.format = amrNb ∧ (RateBad mode a ∨ ChannelsBad a) := by
  cases h with
  | format hf =>
    have hpcm : pcm16Bit ≠ amrNb := by decide
    exact iff_of_false hpcm fun h => hf.2.1 h.1
  | rate rate hf hr hrate hcall => exact ⟨fun h => ⟨h, .inl hr⟩, And.left⟩
  | channels hf hr hc => exact ⟨fun h => ⟨h, .inr hc⟩, And.left⟩

end

/-! ## Two rounds with the driver -/

section
variable {p : Platform} {devices : Devices} {ptr : Nat} {a b : InArgs} {w : World}

/-- A proposal leaves no trace: the rejected stream never got its hardware. -/
theorem openInputStream_proposed (hdev : p.isInputDevice devices = true)
    (hfree : w.hw.streams ptr = none) (h : propose w.hw.mMode a = some b) :
    openInputStream p ptr devices a w = (w, b, badValue) := by
  have hguard : ¬ (p.isInputDevice devices = false ∨ (w.hw.streams ptr).isSome) := by
    rw [hdev, hfree]
    simp
  unfold openInputStream
  rw [if_neg hguard]
  unfold propose at h
  split at h
  · rename_i hcall
    rw [if_pos hcall, Option.some.inj h]
  · rename_i hcall
    have hself : (setStream ptr newStreamIn w).hw.streams ptr = some newStreamIn :=
      Function.update_self ..
    have hstandby : inStandby p ptr (setStream ptr newStreamIn w) =
        (setStream ptr newStreamIn w, -1) := by
      unfold inStandby
      rw [hself]
      rfl
    have hbad : badValue ≠ noError := by decide
    rw [if_neg hcall, inSet, h]
    dsimp only
    rw [if_pos hbad, hstandby]
    simp only [setStream, Function.update_idem, Option.getD_some]
    rw [← hfree, Function.update_eq_self]

/-- The rate that the stream takes over when the driver accepts everything. -/
def reportedRate (p : Platform) (a : InArgs) (log : List PcmCall) : BitVec 32 :=
  if a.format = pcm16Bit then (p.pcmInConfig (log.length + 3)).sampleRate
  else if a.format = amrNb then (p.pcmInConfig (log.length + 1)).sampleRate
  else a.sampleRate

theorem acceptedRate_of_ok (hok : ∀ n, p.pcmInOk n = true) (log : List PcmCall) :
    acceptedRate p a log = some (reportedRate p a log) := by
  unfold acceptedRate reportedRate
  simp only [hok, Bool.and_self, if_true]
  split
  · rfl
  · split <;> rfl

/-- Behind the checks `set` can only fail at the table of rates. -/
theorem inSet_unproposed (hok : ∀ n, p.pcmInOk n = true) (hc : checkInArgs a = none)
    (devices : Devices) (w : World) :
    (inSet p devices a newStreamIn w).2.1 = none ∧ (inSet p devices a newStreamIn w).2.2.2 =
      if reportedRate p a w.pcmIn ∈ inputSamplingRates then noError else einval := by
  have hends : Ends p a { newStreamIn with mHardware := true } w.pcmIn
      (setFormat p devices a { newStreamIn with mHardware := true } w.pcmIn) := setFormat_ends
  have hclosed : ¬ 0 ≤ ({ newStreamIn with mHardware := true } : AudioStreamIn).mFd := by decide
  rw [Ends, acceptedRate_of_ok hok] at hends
  unfold inSet
  rw [hc]
  dsimp only at hends ⊢
  rw [if_neg hclosed]
  generalize setFormat p devices a _ w.pcmIn = r at hends ⊢
  rw [if_neg (not_not.mpr hends.status), hends.rate]
  by_cases hin : reportedRate p a w.pcmIn ∈ inputSamplingRates
  · rw [if_neg fun hneg => (audpre_index_neg_iff _).mp hneg hin, if_pos hin]
    exact ⟨rfl, rfl⟩
  · rw [if_pos ((audpre_index_neg_iff _).mpr hin), if_neg hin]
    exact ⟨rfl, rfl⟩

theorem openInputStream_unproposed (hok : ∀ n, p.pcmInOk n = true)
    (hdev : p.isInputDevice devices = true) (hfree : w.hw.streams ptr = none)
    (h : propose w.hw.mMode a = none) : (openInputStream p ptr devices a w).2 =
      (a, if reportedRate p a w.pcmIn ∈ inputSamplingRates then noError else einval) := by
  have hguard : ¬ (p.isInputDevice devices = false ∨ (w.hw.streams ptr).isSome) := by
    rw [hdev, hfree]
    simp
  unfold propose at h
  split at h
  · cases h
  · rename_i hcall
    obtain ⟨hproposal, hstatus⟩ := inSet_unproposed hok h devices w
    unfold openInputStream
    rw [if_neg hguard, if_neg hcall, ← hstatus]
    generalize inSet p devices a newStreamIn w = r at hproposal ⊢
    dsimp only
    rw [hproposal]
    split <;> rfl

/-- A request that is rejected with a proposal is not rejected when it is made again with the
values of the proposal. -/
def SettlesInOneRound (p : Platform) (devices : Devices) (ptr again : Nat) (a : InArgs) (w : World) :
    Prop :=
  let r := openInputStream p ptr devices a w
  r.2.2 = badValue → r.2.1 ≠ a → (openInputStream p again devices r.2.1 r.1).2.2 ≠ badValue

/-- The rate a node reports is one of the table, up to the driver's own rate for voice memos. -/
theorem reportedRate_mem_iff {b : InArgs} {log : List PcmCall} (hrate : b.sampleRate ∈ inputSamplingRates)
    (hpcm : b.format = pcm16Bit → (p.pcmInConfig (log.length + 3)).sampleRate = b.sampleRate) :
    reportedRate p b log ∈ inputSamplingRates ↔
      (b.format = amrNb → (p.pcmInConfig (log.length + 1)).sampleRate ∈ inputSamplingRates) := by
  unfold reportedRate
  by_cases hformat : b.format = pcm16Bit
  · have hamr : b.format ≠ amrNb := by
      rw [hformat]
      decide
    rw [if_pos hformat, hpcm hformat]
    exact iff_of_true hrate fun h => absurd h hamr
  · rw [if_neg hformat]
    by_cases hamr : b.format = amrNb
    · rw [if_pos hamr]
      exact ⟨fun h _ => h, fun h => h hamr⟩
    · rw [if_neg hamr]
      exact iff_of_true hrate fun h => absurd h hamr

/-- One round is enough for one bad argument. A voice memo takes its rate from the driver and
needs one of the table. -/
theorem settlesInOneRound_iff {again : Nat} (hok : ∀ n, p.pcmInOk n = true)
    (hdev : p.isInputDevice devices = true) (hfree : w.hw.streams ptr = none)
    (hfree' : w.hw.streams again = none)
    (hconfirms : ∀ b, propose w.hw.mMode a = some b → b.format = pcm16Bit →
      (p.pcmInConfig (w.pcmIn.length + 3)).sampleRate = b.sampleRate) :
    SettlesInOneRound p devices ptr again a w ↔ ¬ TwoBad w.hw.mMode a ∧
      (a.format = amrNb → RateBad w.hw.mMode a ∨ ChannelsBad a →
        (p.pcmInConfig (w.pcmIn.length + 1)).sampleRate ∈ inputSamplingRates) := by
  unfold SettlesInOneRound
  cases hp : propose w.hw.mMode a with
  | none =>
    dsimp only
    rw [openInputStream_unproposed hok hdev hfree hp]
    obtain ⟨hf, hr, hc⟩ := propose_eq_none_iff.mp hp
    refine iff_of_true (fun _ hne => absurd rfl hne) ⟨?_, fun _ h => absurd h (not_or.mpr ⟨hr, hc⟩)⟩
    rintro (⟨h, -⟩ | ⟨h, -⟩)
    · exact hf h
    · exact hr h
  | some b =>
    have hcorrects := propose_corrects hp
    rw [openInputStream_proposed hdev hfree hp]
    simp only [forall_const, hcorrects.ne, ne_eq, not_false_eq_true]
    cases hp' : propose w.hw.mMode b with
    | some c =>
      rw [openInputStream_proposed hdev hfree' hp']
      refine iff_of_false (fun h => h rfl) fun h => ?_
      have hnone := (propose_again_iff hcorrects).mpr h.1
      rw [hp'] at hnone
      cases hnone
    | none =>
      have hsettled := (propose_again_iff hcorrects).mp hp'
      have hrate : b.sampleRate ∈ inputSamplingRates := by
        unfold propose at hp'
        split at hp'
        · cases hp'
        · exact checked_rate hp'
      rw [openInputStream_unproposed hok hdev hfree' hp']
      have hstatus : (if reportedRate p b w.pcmIn ∈ inputSamplingRates then noError else einval) = badValue ↔
          reportedRate p b w.pcmIn ∉ inputSamplingRates := by
        split
        · exact iff_of_false (by decide) (not_not.mpr ‹_›)
        · exact iff_of_true rfl ‹_›
      rw [hstatus, not_not, and_iff_right hsettled, ← and_imp, ← hcorrects.amr]
      exact reportedRate_mem_iff hrate (hconfirms b hp)

theorem outSet_rejected {a : OutArgs} {out : AudioStreamOut} (h : (outSet devices a out).2.2 = badValue) :
    (outSet devices a out).2.1 = ⟨a.format.map fun _ => pcm16Bit,
      a.channels.map fun _ => channelOutStereo, a.sampleRate.map fun _ => outSampleRate⟩ := by
  have hok : noError ≠ badValue := by decide
  unfold outSet at h ⊢
  dsimp only at h ⊢
  generalize (if a.format.getD 0 = 0 then pcm16Bit else a.format.getD 0) = lFormat at h ⊢
  generalize (if a.channels.getD 0 = 0 then channelOutStereo else a.channels.getD 0) = lChannels at h ⊢
  generalize (if a.sampleRate.getD 0 = 0 then outSampleRate else a.sampleRate.getD 0) = lRate at h ⊢
  split at h
  · rename_i hbad
    rw [if_pos hbad]
  · exact absurd h hok

/-- The output stream puts all three right at once. -/
theorem outSet_settles {a : OutArgs} {out : AudioStreamOut} (out' : AudioStreamOut)
    (h : (outSet devices a out).2.2 = badValue) :
    (outSet devices (outSet devices a out).2.1 out').2.2 = noError := by
  rw [outSet_rejected h]
  cases a.format <;> cases a.channels <;> cases a.sampleRate <;> rfl

end

/-- A PCM request at 7 kHz without channels; its first proposal is 8 kHz without channels. -/
def badRateAndChannels : InArgs := ⟨pcm16Bit, 0, 7000⟩

theorem badRateAndChannels_not_settled :
    ¬ SettlesInOneRound acceptAll deviceInBuiltinMic 7 7 badRateAndChannels (boot acceptAll) := by
  intro h
  exact h (by decide +kernel) (by decide +kernel) (by decide +kernel)

theorem badRateAndChannels_settles_iff :
    SettlesInOneRound acceptAll deviceInBuiltinMic 7 7 badRateAndChannels (boot acceptAll) ↔
      ¬ TwoBad (boot acceptAll).hw.mMode badRateAndChannels ∧
        (badRateAndChannels.format = amrNb →
          RateBad (boot acceptAll).hw.mMode badRateAndChannels ∨ ChannelsBad badRateAndChannels →
            (acceptAll.pcmInConfig ((boot acceptAll).pcmIn.length + 1)).sampleRate ∈
              inputSamplingRates) := by
  refine settlesInOneRound_iff (fun _ => rfl) (by decide) rfl rfl ?_
  intro b hb _
  have hproposed : propose (boot acceptAll).hw.mMode badRateAndChannels = some ⟨pcm16Bit, 0, 8000⟩ := by
    decide +kernel
  rw [hproposed] at hb
  cases hb
  rfl

end AudioProposal
