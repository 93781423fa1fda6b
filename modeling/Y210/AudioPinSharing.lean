import Mathlib.Data.Bool.AllAny
import Y210.AudioCalls

/-!
# The pins while a switch is under way

FM and BT share the bus: only one side may drive it. A switch writes the BT pins before the FM pins in
both directions, one transfer each, and stops at the first that fails. What the bus looks like between
two transfers depends on the direction.
-/
namespace AudioPinSharing

open AudioDrivers AudioHardware AudioStreams AudioRouting AudioCalls

variable {p : Platform}

/-- Some pin of the side is in normal mode. -/
def Drives (pins : List (BitVec 8)) (b : I2cBus) : Prop := ∃ reg ∈ pins, b.regs reg = pinNormal

def Shared (b : I2cBus) : Prop := Drives btPins b ∧ Drives fmPins b

instance (pins : List (BitVec 8)) (b : I2cBus) : Decidable (Drives pins b) := List.decidableBEx _ pins

instance (b : I2cBus) : Decidable (Shared b) := inferInstanceAs (Decidable (_ ∧ _))

/-! ## The transfers of a call -/

/-- The bus after each transfer. -/
def writeMoments (p : Platform) : List (BitVec 8 × BitVec 8) → I2cBus → List I2cBus
  | [], _ => []
  | (reg, value) :: rest, b =>
    match i2c1WriteReg p reg value b with
    | (b, true) => b :: writeMoments p rest b
    | (b, false) => [b]

/-- The bus after an attempt to open it, and after each transfer of the opening. -/
def openMoments (p : Platform) (writes : List (BitVec 8 × BitVec 8)) (b : I2cBus) : List I2cBus :=
  b.tried :: if p.i2cOpenOk b.opens then writeMoments p writes b.tried else []

/-- The bus after each step of several openings. -/
def moments (p : Platform) : List (List (BitVec 8 × BitVec 8)) → I2cBus → List I2cBus
  | [], _ => []
  | writes :: rest, b => openMoments p writes b ++ moments p rest (busWrite p b writes)

/-- What `doAudioRouteOrMute` writes. -/
def routeWrites (p : Platform) (device : Int) (w : World) : List (List (BitVec 8 × BitVec 8)) :=
  if w.hw.mFmRadioEnabled then
    if is_fm_snd_device p.dev device && device != w.hw.mCurSndDevice then [pinWrites .fm, fmAudioPathWrites] else []
  else if is_fm_snd_device p.dev w.hw.mCurSndDevice && !is_fm_snd_device p.dev device then [pinWrites .btSco]
  else []

/-- What a call writes: a mute goes to the current device, a route that is sent to its own. -/
def callWrites (p : Platform) (w : World) (c : Call) : List (List (BitVec 8 × BitVec 8)) :=
  match c with
  | .setMicMute state => if w.hw.mMicMute ≠ state then routeWrites p (p.dev .current) w else []
  | c =>
    match routing p w c with
    | some (v, input) => if Sends p input v then routeWrites p (target p input v).1 v else []
    | none => []

/-- The bus before a call, and after each of its transfers. -/
def callMoments (p : Platform) (w : World) (c : Call) : List I2cBus := w.i2c :: moments p (callWrites p w c) w.i2c

/-- Only one side drives the bus, from before the call to behind it. -/
def Exclusive (p : Platform) (w : World) (c : Call) : Prop := ∀ b ∈ callMoments p w c, ¬ Shared b

/-- The call gives the pins back to BT, its first transfer is accepted, and the FM side still drives. -/
def GivesBack (p : Platform) (w : World) (c : Call) : Prop :=
  pinWrites .btSco ∈ callWrites p w c ∧ p.i2cOpenOk w.i2c.opens = true ∧
    p.i2cOk w.i2c.transfers = true ∧ Drives fmPins w.i2c

/-- The pins are given back to BT as above, and the transfer that would tristate some driving FM pin, or one
before it, fails. The FM pins come behind the four BT pins. -/
def CutShort (p : Platform) (w : World) (c : Call) : Prop :=
  GivesBack p w c ∧ ∃ i : Fin 3, w.i2c.regs (fmPins.get i) = pinNormal ∧
    ∃ k ≤ 4 + i.val, p.i2cOk (w.i2c.transfers + k) = false

instance (w : World) (c : Call) : Decidable (Exclusive p w c) := List.decidableBAll _ _

instance (w : World) (c : Call) : Decidable (GivesBack p w c) :=
  inferInstanceAs (Decidable (_ ∧ _ ∧ _ ∧ _))

/-! ## Writes -/

section
variable {b b' : I2cBus} {writes writes' : List (BitVec 8 × BitVec 8)} {pins : List (BitVec 8)}
  {reg value : BitVec 8} {Q : I2cBus → Prop}

theorem write_ok (h : p.i2cOk b.transfers = true) :
    i2c1WriteReg p reg value b =
      ({ b with regs := Function.update b.regs reg value, transfers := b.transfers + 1 }, true) := if_pos h

theorem write_failed (h : ¬ p.i2cOk b.transfers = true) :
    i2c1WriteReg p reg value b = ({ b with transfers := b.transfers + 1 }, false) := if_neg h

theorem written_self (h : p.i2cOk b.transfers = true) : (i2c1WriteReg p reg value b).1.regs reg = value := by
  rw [write_ok h]
  exact Function.update_self reg value b.regs

theorem written_other {r : BitVec 8} (h : r ≠ reg) : (i2c1WriteReg p reg value b).1.regs r = b.regs r := by
  by_cases hok : p.i2cOk b.transfers = true
  · rw [write_ok hok]
    exact Function.update_of_ne h value b.regs
  · rw [write_failed hok]

/-- A side that drives after a write drove before, or its own pin was put in normal mode. -/
theorem drives_write (h : Drives pins (i2c1WriteReg p reg value b).1) :
    Drives pins b ∨ reg ∈ pins ∧ value = pinNormal := by
  obtain ⟨r, hr, hv⟩ := h
  by_cases he : r = reg
  · subst he
    by_cases hok : p.i2cOk b.transfers = true
    · exact .inr ⟨hr, (written_self hok).symm.trans hv⟩
    · rw [write_failed hok] at hv
      exact .inl ⟨r, hr, hv⟩
  · exact .inl ⟨r, hr, (written_other he).symm.trans hv⟩

theorem writeMoments_cons : writeMoments p ((reg, value) :: writes) b =
    (i2c1WriteReg p reg value b).1 ::
      if (i2c1WriteReg p reg value b).2 then writeMoments p writes (i2c1WriteReg p reg value b).1 else [] := by
  by_cases hok : p.i2cOk b.transfers = true
  · simp only [writeMoments, write_ok hok, if_true]
  · simp only [writeMoments, write_failed hok, Bool.false_eq_true, if_false]

theorem i2cWriteAll_cons : i2cWriteAll p ((reg, value) :: writes) b =
    if (i2c1WriteReg p reg value b).2 then i2cWriteAll p writes (i2c1WriteReg p reg value b).1
    else i2c1WriteReg p reg value b := by
  by_cases hok : p.i2cOk b.transfers = true
  · simp only [i2cWriteAll, write_ok hok, if_true]
  · simp only [i2cWriteAll, write_failed hok, Bool.false_eq_true, if_false]

/-- What each write keeps is kept in every moment. -/
theorem writeMoments_keep (hQ : ∀ b, Q b → ∀ w ∈ writes, Q (i2c1WriteReg p w.1 w.2 b).1) (h : Q b) :
    (∀ b' ∈ writeMoments p writes b, Q b') ∧ Q (i2cWriteAll p writes b).1 := by
  induction writes generalizing b with
  | nil => exact ⟨List.forall_mem_nil Q, h⟩
  | cons w rest ih =>
    obtain ⟨reg, value⟩ := w
    have hw := hQ b h _ List.mem_cons_self
    have hrest := ih (fun b hb w hw => hQ b hb w (List.mem_cons_of_mem _ hw)) hw
    rw [writeMoments_cons, i2cWriteAll_cons]
    by_cases hok : (i2c1WriteReg p reg value b).2 = true
    · simp only [hok, if_true, List.forall_mem_cons]
      exact ⟨⟨hw, hrest.1⟩, hrest.2⟩
    · simp only [hok, List.forall_mem_cons]
      exact ⟨⟨hw, List.forall_mem_nil Q⟩, hw⟩

/-- Writes stop at the first failure. -/
theorem writeMoments_append : writeMoments p (writes ++ writes') b = writeMoments p writes b ++
    if (i2cWriteAll p writes b).2 then writeMoments p writes' (i2cWriteAll p writes b).1 else [] := by
  induction writes generalizing b with
  | nil => rfl
  | cons w rest ih =>
    obtain ⟨reg, value⟩ := w
    rw [List.cons_append, writeMoments_cons, writeMoments_cons, i2cWriteAll_cons]
    by_cases hok : (i2c1WriteReg p reg value b).2 = true
    · simp only [hok, if_true, ih, List.cons_append]
    · simp [hok]

theorem i2cWriteAll_append : i2cWriteAll p (writes ++ writes') b =
    if (i2cWriteAll p writes b).2 then i2cWriteAll p writes' (i2cWriteAll p writes b).1
    else i2cWriteAll p writes b := by
  induction writes generalizing b with
  | nil => rfl
  | cons w rest ih =>
    obtain ⟨reg, value⟩ := w
    rw [List.cons_append, i2cWriteAll_cons, i2cWriteAll_cons]
    by_cases hok : (i2c1WriteReg p reg value b).2 = true
    · simp only [hok, if_true, ih]
    · simp [hok]

/-- Writes to other registers, or none that puts a pin in normal mode, make no side drive. -/
theorem idle_write (hw : ∀ w ∈ writes, w.1 ∉ pins ∨ w.2 ≠ pinNormal) (b : I2cBus) (h : ¬ Drives pins b) :
    ∀ w ∈ writes, ¬ Drives pins (i2c1WriteReg p w.1 w.2 b).1 := by
  intro w hmem hd
  rcases drives_write hd with hold | ⟨hin, hv⟩
  · exact h hold
  · rcases hw w hmem with hout | hne
    · exact hout hin
    · exact hne hv

theorem idle_moments (writes : List (BitVec 8 × BitVec 8)) (hw : ∀ w ∈ writes, w.1 ∉ pins ∨ w.2 ≠ pinNormal) (h : ¬ Drives pins b) :
    (∀ b' ∈ writeMoments p writes b, ¬ Drives pins b') ∧ ¬ Drives pins (i2cWriteAll p writes b).1 :=
  writeMoments_keep (Q := fun b => ¬ Drives pins b) (fun b hb => idle_write hw b hb) h

/-- Writes of one value that all succeed leave it in their registers. -/
theorem i2cWriteAll_value (hv : ∀ w ∈ writes, w.2 = value) (hok : (i2cWriteAll p writes b).2 = true) :
    ∀ w ∈ writes, (i2cWriteAll p writes b).1.regs w.1 = value := by
  induction writes generalizing b with
  | nil => exact List.forall_mem_nil _
  | cons w rest ih =>
    obtain ⟨reg, v⟩ := w
    obtain rfl : v = value := hv _ List.mem_cons_self
    have hrest := fun w hw => hv w (List.mem_cons_of_mem _ hw)
    rw [i2cWriteAll_cons] at hok ⊢
    by_cases hfirst : p.i2cOk b.transfers = true
    · have hgo : (i2c1WriteReg p reg v b).2 = true := by rw [write_ok hfirst]
      rw [if_pos hgo] at hok ⊢
      rw [List.forall_mem_cons]
      refine ⟨?_, ih hrest hok⟩
      refine (writeMoments_keep (Q := fun b => b.regs reg = v) (fun b hb w hw => ?_) (written_self hfirst)).2
      by_cases he : reg = w.1
      · by_cases hok : p.i2cOk b.transfers = true
        · rw [he, written_self hok, hrest w hw]
        · rw [write_failed hok]
          exact hb
      · rw [written_other he]
        exact hb
    · simp only [write_failed hfirst, Bool.false_eq_true, if_false] at hok

/-- Pins that were all tristated do not drive. -/
theorem tristated (hok : (i2cWriteAll p (pins.map (·, pinControl)) b).2 = true) :
    ¬ Drives pins (i2cWriteAll p (pins.map (·, pinControl)) b).1 := by
  have hvalue : ∀ w ∈ pins.map (·, pinControl), (i2cWriteAll p (pins.map (·, pinControl)) b).1.regs w.1 = pinControl :=
    i2cWriteAll_value (by simp) hok
  rintro ⟨reg, hreg, hnormal⟩
  have hcontrol := hvalue (reg, pinControl) (List.mem_map_of_mem hreg)
  rw [hnormal] at hcontrol
  exact absurd hcontrol (by decide)

/-- A register that is not written stays as it is. -/
theorem i2cWriteAll_other (h : reg ∉ writes.map Prod.fst) : (i2cWriteAll p writes b).1.regs reg = b.regs reg := by
  refine (writeMoments_keep (p := p) (Q := fun b' => b'.regs reg = b.regs reg) (fun b' hb' w hw => ?_) rfl).2
  have hne : reg ≠ w.1 := by
    intro he
    rw [he] at h
    exact h (List.mem_map_of_mem hw)
  rw [written_other hne]
  exact hb'

/-- A register is written when its transfer and all before it succeed. -/
theorem i2cWriteAll_reg (hn : (writes.map Prod.fst).Nodup) {j : Nat} (hj : j < writes.length) :
    (i2cWriteAll p writes b).1.regs writes[j].1 =
      if ∀ k ≤ j, p.i2cOk (b.transfers + k) = true then writes[j].2 else b.regs writes[j].1 := by
  induction writes generalizing b j with
  | nil => cases hj
  | cons w rest ih =>
    obtain ⟨reg, value⟩ := w
    rw [List.map_cons, List.nodup_cons] at hn
    rw [i2cWriteAll_cons]
    by_cases hok : p.i2cOk b.transfers = true
    · have hgo : (i2c1WriteReg p reg value b).2 = true := by rw [write_ok hok]
      have hnext : (i2c1WriteReg p reg value b).1.transfers = b.transfers + 1 := by rw [write_ok hok]
      rw [if_pos hgo]
      cases j with
      | zero =>
        rw [List.getElem_cons_zero, i2cWriteAll_other hn.1, written_self hok, if_pos]
        intro k hk
        obtain rfl := Nat.le_zero.mp hk
        exact hok
      | succ j =>
        have hlt : j < rest.length := Nat.lt_of_succ_lt_succ hj
        have hne : rest[j].1 ≠ reg := by
          intro he
          rw [← he] at hn
          exact hn.1 (List.mem_map.mpr ⟨rest[j], List.getElem_mem hlt, rfl⟩)
        have hshift : (∀ k ≤ j, p.i2cOk (b.transfers + 1 + k) = true) ↔ ∀ k ≤ j + 1, p.i2cOk (b.transfers + k) = true := by
          constructor
          · intro h k hk
            cases k with
            | zero => exact hok
            | succ k => exact (Nat.add_right_comm b.transfers 1 k ▸ h k (Nat.le_of_succ_le_succ hk))
          · intro h k hk
            exact Nat.add_right_comm b.transfers 1 k ▸ h (k + 1) (Nat.succ_le_succ hk)
        rw [List.getElem_cons_succ, ih hn.2 hlt, hnext, written_other hne]
        simp only [hshift]
    · have hstop : ¬ ∀ k ≤ j, p.i2cOk (b.transfers + k) = true := fun h => hok (h 0 (Nat.zero_le j))
      rw [write_failed hok, if_neg Bool.false_ne_true, if_neg hstop]

/-! ## Switches -/

theorem not_shared_of_fm (h : ¬ Drives fmPins b) : ¬ Shared b := fun hs => h hs.2

theorem not_shared_of_bt (h : ¬ Drives btPins b) : ¬ Shared b := fun hs => h hs.1

/-- The BT pins are tristated before the first FM pin drives, whatever fails. -/
theorem fm_moments (h : ¬ Shared b) :
    (∀ b' ∈ writeMoments p (pinWrites .fm) b, ¬ Shared b') ∧ ¬ Shared (i2cWriteAll p (pinWrites .fm) b).1 := by
  have htristate : (∀ b' ∈ writeMoments p (btPins.map (·, pinControl)) b, ¬ Shared b') ∧
      ¬ Shared (i2cWriteAll p (btPins.map (·, pinControl)) b).1 := writeMoments_keep (fun b hb w hw hs => hb ?_) h
  · have hsplit : pinWrites .fm = btPins.map (·, pinControl) ++ fmPins.map (·, pinNormal) := rfl
    rw [hsplit, writeMoments_append, i2cWriteAll_append]
    by_cases hok : (i2cWriteAll p (btPins.map (·, pinControl)) b).2 = true
    · have hnormal := idle_moments (p := p) (fmPins.map (·, pinNormal))
        (List.all_iff_forall_prop.mp (by decide)) (tristated hok)
      simp only [hok, if_true]
      refine ⟨fun b' hb' => ?_, not_shared_of_bt hnormal.2⟩
      rcases List.mem_append.mp hb' with hb' | hb'
      · exact htristate.1 b' hb'
      · exact not_shared_of_bt (hnormal.1 b' hb')
    · rw [if_neg hok, if_neg hok, List.append_nil]
      exact htristate
  · have hcontrol : w.2 = pinControl := by
      obtain ⟨reg, -, rfl⟩ := List.mem_map.mp hw
      rfl
    have hold : ∀ pins, Drives pins (i2c1WriteReg p w.1 w.2 b).1 → Drives pins b := by
      intro pins hd
      refine (drives_write hd).resolve_right fun hn => ?_
      rw [hcontrol] at hn
      exact absurd hn.2 (by decide)
    exact ⟨hold _ hs.1, hold _ hs.2⟩

/-- The codec registers are none of the pins. -/
theorem path_moments (h : ¬ Shared b) :
    (∀ b' ∈ writeMoments p fmAudioPathWrites b, ¬ Shared b') ∧ ¬ Shared (i2cWriteAll p fmAudioPathWrites b).1 := by
  refine writeMoments_keep (fun b hb w hw hs => hb ?_) h
  have hout : w.1 ∉ btPins ∧ w.1 ∉ fmPins := by
    have hall : ∀ w ∈ fmAudioPathWrites, w.1 ∉ btPins ∧ w.1 ∉ fmPins := List.all_iff_forall_prop.mp (by decide)
    exact hall w hw
  exact ⟨(drives_write hs.1).resolve_right fun hn => hout.1 hn.1,
    (drives_write hs.2).resolve_right fun hn => hout.2 hn.1⟩

/-- The BT pins drive from the first transfer on, and the FM pins up to the last. -/
theorem bt_moments (h : ¬ Shared b) :
    (∀ b' ∈ writeMoments p (pinWrites .btSco) b, ¬ Shared b') ↔
      ¬ (p.i2cOk b.transfers = true ∧ Drives fmPins b) := by
  constructor
  · rintro hall ⟨hok, reg, hreg, hnormal⟩
    have hsplit : pinWrites .btSco = (0x88, pinNormal) :: (pinWrites .btSco).tail := rfl
    rw [hsplit, writeMoments_cons] at hall
    have hfirst := hall _ List.mem_cons_self
    have hne : ∀ reg ∈ fmPins, reg ≠ 0x88 := by decide
    refine hfirst ⟨⟨0x88, by decide, written_self hok⟩, reg, hreg, ?_⟩
    rw [written_other (hne reg hreg)]
    exact hnormal
  · intro hno
    by_cases hfm : Drives fmPins b
    · have hfailed : ¬ p.i2cOk b.transfers = true := fun hok => hno ⟨hok, hfm⟩
      have hsplit : pinWrites .btSco = (0x88, pinNormal) :: (pinWrites .btSco).tail := rfl
      rw [hsplit, writeMoments_cons, write_failed hfailed, if_neg Bool.false_ne_true, List.forall_mem_singleton]
      exact h
    · have hidle := idle_moments (p := p) (pinWrites .btSco)
        (List.all_iff_forall_prop.mp (by decide)) hfm
      exact fun b' hb' => not_shared_of_fm (hidle.1 b' hb')

/-- What a switch back leaves on the FM side. -/
theorem fm_after_bt {i : Fin 3} : (i2cWriteAll p (pinWrites .btSco) b).1.regs (fmPins.get i) = pinNormal ↔
    b.regs (fmPins.get i) = pinNormal ∧ ∃ k ≤ 4 + i.val, p.i2cOk (b.transfers + k) = false := by
  have hn : ((pinWrites .btSco).map Prod.fst).Nodup := by decide
  have hj : 4 + i.val < (pinWrites .btSco).length := by
    have hlength : (pinWrites .btSco).length = 7 := by decide
    omega
  have hwrite : (pinWrites .btSco)[4 + i.val] = (fmPins.get i, pinControl) := by
    have hall : ∀ i : Fin 3, (pinWrites .btSco)[4 + i.val]? = some (fmPins.get i, pinControl) := by decide
    exact Option.some.inj ((List.getElem?_eq_getElem hj).symm.trans (hall i))
  have hreg := i2cWriteAll_reg (p := p) (b := b) hn hj
  rw [hwrite] at hreg
  rw [hreg]
  by_cases hall : ∀ k ≤ 4 + i.val, p.i2cOk (b.transfers + k) = true
  · rw [if_pos hall]
    refine iff_of_false (show ¬ pinControl = pinNormal by decide) ?_
    rintro ⟨-, k, hk, hfail⟩
    rw [hall k hk] at hfail
    cases hfail
  · rw [if_neg hall]
    push Not at hall
    simpa using fun _ => hall

theorem drives_fm_iff : Drives fmPins b ↔ ∃ i : Fin 3, b.regs (fmPins.get i) = pinNormal := by
  constructor
  · rintro ⟨reg, hreg, hnormal⟩
    obtain ⟨i, rfl⟩ := List.get_of_mem hreg
    exact ⟨i, hnormal⟩
  · rintro ⟨i, hnormal⟩
    exact ⟨fmPins.get i, List.get_mem _ _, hnormal⟩

/-- Behind a switch back both sides drive when it got under way and did not reach a driving FM pin. -/
theorem bt_settled (h : ¬ Shared b) : Shared (i2cWriteAll p (pinWrites .btSco) b).1 ↔ p.i2cOk b.transfers = true ∧
    ∃ i : Fin 3, b.regs (fmPins.get i) = pinNormal ∧ ∃ k ≤ 4 + i.val, p.i2cOk (b.transfers + k) = false := by
  by_cases hok : p.i2cOk b.transfers = true
  · have hbt : Drives btPins (i2cWriteAll p (pinWrites .btSco) b).1 := by
      have hn : ((pinWrites .btSco).map Prod.fst).Nodup := by decide
      have hfirst := i2cWriteAll_reg (p := p) (b := b) hn (j := 0) (by decide)
      rw [if_pos fun k hk => by rw [Nat.le_zero.mp hk]; exact hok] at hfirst
      exact ⟨_, by decide, hfirst⟩
    rw [Shared, and_iff_right hbt, drives_fm_iff, and_iff_right hok]
    exact exists_congr fun i => fm_after_bt
  · have hsplit : pinWrites .btSco = (0x88, pinNormal) :: (pinWrites .btSco).tail := rfl
    rw [hsplit, i2cWriteAll_cons, write_failed hok]
    exact iff_of_false h fun hc => hok hc.1

/-- The bus behind a sequence is the last moment, or the bus before it. -/
theorem i2cWriteAll_mem : (i2cWriteAll p writes b).1 ∈ b :: writeMoments p writes b := by
  induction writes generalizing b with
  | nil => exact List.mem_cons_self
  | cons w rest ih =>
    obtain ⟨reg, value⟩ := w
    refine List.mem_cons_of_mem _ ?_
    rw [i2cWriteAll_cons, writeMoments_cons]
    by_cases hok : (i2c1WriteReg p reg value b).2 = true
    · rw [if_pos hok, if_pos hok]
      exact ih
    · rw [if_neg hok, if_neg hok]
      exact List.mem_cons_self

/-- An opening alone moves no pin. -/
theorem openMoments_safe (h : ¬ Shared b) : (∀ b' ∈ openMoments p writes b, ¬ Shared b') ↔
    (p.i2cOpenOk b.opens = true → ∀ b' ∈ writeMoments p writes b.tried, ¬ Shared b') := by
  have htried : ¬ Shared b.tried := h
  unfold openMoments
  rw [List.forall_mem_cons, and_iff_right htried]
  by_cases hopen : p.i2cOpenOk b.opens = true
  · rw [if_pos hopen]
    exact ⟨fun hall _ => hall, fun hall => hall hopen⟩
  · rw [if_neg hopen]
    exact iff_of_true (List.forall_mem_nil _) fun hok => absurd hok hopen

theorem busWrite_mem : busWrite p b writes ∈ openMoments p writes b := by
  unfold busWrite openMoments
  split
  · exact i2cWriteAll_mem
  · exact List.mem_cons_self

theorem settled_mem (all : List (List (BitVec 8 × BitVec 8))) (b : I2cBus) :
    all.foldl (busWrite p) b ∈ b :: moments p all b := by
  induction all generalizing b with
  | nil => exact List.mem_cons_self
  | cons writes rest ih =>
    refine List.mem_cons_of_mem _ ?_
    rw [List.foldl_cons, moments]
    rcases List.mem_cons.mp (ih (busWrite p b writes)) with he | hlater
    · rw [he]
      exact List.mem_append_left _ busWrite_mem
    · exact List.mem_append_right _ hlater

end

/-! ## One call -/

section
variable {w : World} {c : Call}

theorem routeWrites_cases (device : Int) (w : World) : routeWrites p device w = [] ∨
    routeWrites p device w = [pinWrites .fm, fmAudioPathWrites] ∨ routeWrites p device w = [pinWrites .btSco] := by
  unfold routeWrites
  repeat' split
  · exact .inr (.inl rfl)
  · exact .inl rfl
  · exact .inr (.inr rfl)
  · exact .inl rfl

theorem callWrites_cases (w : World) (c : Call) : callWrites p w c = [] ∨
    callWrites p w c = [pinWrites .fm, fmAudioPathWrites] ∨ callWrites p w c = [pinWrites .btSco] := by
  unfold callWrites
  repeat' split
  all_goals first | exact .inl rfl | exact routeWrites_cases _ _

theorem route_settled (device : Int) (w : World) :
    (doAudioRouteOrMute p device w).1.i2c = (routeWrites p device w).foldl (busWrite p) w.i2c := by
  rw [route_i2c]
  unfold routeWrites
  repeat' split
  all_goals rfl

theorem doRouting_settled (input : Option Devices) (w : World) : (doRouting p input w).1.i2c =
    (if Sends p input w then routeWrites p (target p input w).1 w else []).foldl (busWrite p) w.i2c := by
  have hselect : routeWrites p (target p input w).1 { w with hw := selectMic w.hw input } =
      routeWrites p (target p input w).1 w := by
    simp only [routeWrites, selectMic_mFmRadioEnabled, selectMic_mCurSndDevice]
  by_cases hs : Sends p input w
  · rw [doRouting_of_sends hs, applyRoute_i2c, route_settled, hselect, if_pos hs]
  · rw [doRouting_of_not_sends hs, if_neg hs]
    rfl

theorem routing_i2c {r : World × Option Devices} (h : r ∈ routing p w c) : r.1.i2c = w.i2c := by
  cases c with
  | doRouting i | reroute i =>
    obtain rfl := Option.some.inj h
    rfl
  | setFm on off =>
    obtain rfl := Option.some.inj h
    obtain ⟨log, fd, he⟩ := switchFm_frame p on off w
    rw [he]
  | _ => cases h

/-- The writes of a call are all that moves the bus. -/
theorem call_settled (w : World) (c : Call) : (call p w c).i2c = (callWrites p w c).foldl (busWrite p) w.i2c := by
  by_cases hq : Quiet c
  · have hnone : callWrites p w c = [] := by
      cases c with
      | setMode | setMicMute | doRouting | reroute | setFm => exact hq.elim
      | _ => rfl
    rw [hnone, (quiet_sameRoute (p := p) hq w).i2c]
    rfl
  · cases c with
    | setMode mode =>
      rw [call, setMode]
      split <;> rfl
    | setMicMute state =>
      simp only [call, setMicMute, setMicMute_nosync, callWrites]
      split
      · rw [route_settled]
        rfl
      · rfl
    | doRouting input => exact doRouting_settled input w
    | reroute input => exact doRouting_settled input (clearCurDevice w)
    | setFm on off =>
      have hbus := routing_i2c (p := p) (w := w) (c := .setFm on off) (Option.mem_some_self _)
      rw [call, doRouting_settled, hbus]
      rfl
    | _ => exact absurd trivial hq

theorem exclusive_settled (h : Exclusive p w c) : ¬ Shared (call p w c).i2c := by
  rw [call_settled]
  exact h _ (settled_mem _ _)

theorem moments_single (writes : List (BitVec 8 × BitVec 8)) (b : I2cBus) :
    moments p [writes] b = openMoments p writes b := by
  rw [moments, moments, List.append_nil]

/-- The radio never makes both sides drive, nor does BT without the FM side. -/
theorem exclusive_step (h : ¬ Shared w.i2c) (c : Call) : Exclusive p w c ↔ ¬ GivesBack p w c := by
  unfold Exclusive GivesBack callMoments
  rw [List.forall_mem_cons, and_iff_right h]
  rcases callWrites_cases (p := p) w c with hw | hw | hw
  · rw [hw]
    simp [moments]
  · have hno : pinWrites .btSco ∉ [pinWrites .fm, fmAudioPathWrites] := by decide
    have hfm : ∀ b ∈ openMoments p (pinWrites .fm) w.i2c, ¬ Shared b :=
      (openMoments_safe h).mpr fun _ => (fm_moments (b := w.i2c.tried) h).1
    rw [hw]
    refine iff_of_true (fun b hb => ?_) fun hback => hno hback.1
    rw [moments, moments_single] at hb
    rcases List.mem_append.mp hb with hb | hb
    · exact hfm b hb
    · have hswitched : ¬ Shared (busWrite p w.i2c (pinWrites .fm)) := hfm _ busWrite_mem
      exact (openMoments_safe hswitched).mpr (fun _ => (path_moments (b := I2cBus.tried _) hswitched).1) b hb
  · rw [hw, moments_single, and_iff_right (List.mem_singleton_self _), openMoments_safe h, not_and]
    exact imp_congr_right fun _ => bt_moments (b := w.i2c.tried) h

/-- The bus at rest behind a call. -/
theorem settled_step (h : ¬ Shared w.i2c) (c : Call) : ¬ Shared (call p w c).i2c ↔ ¬ CutShort p w c := by
  rw [call_settled]
  unfold CutShort GivesBack
  rcases callWrites_cases (p := p) w c with hw | hw | hw
  · rw [hw]
    simpa using h
  · have hback : ¬ GivesBack p w c := by
      intro hback
      have hmem := hback.1
      rw [hw] at hmem
      exact absurd hmem (by decide)
    exact iff_of_true (call_settled (p := p) w c ▸ exclusive_settled ((exclusive_step h c).mpr hback))
      fun hcut => hback hcut.1
  · rw [hw, List.foldl_cons, List.foldl_nil, not_iff_not, and_iff_right (List.mem_singleton_self _), busWrite]
    by_cases hopen : p.i2cOpenOk w.i2c.opens = true
    · rw [if_pos hopen, and_iff_right hopen, bt_settled (b := w.i2c.tried) h, and_assoc]
      refine and_congr_right fun hok => ⟨fun hcut => ⟨?_, hcut⟩, fun hcut => hcut.2⟩
      obtain ⟨i, hnormal, -⟩ := hcut
      exact drives_fm_iff.mpr ⟨i, hnormal⟩
    · rw [if_neg hopen]
      exact iff_of_false h fun hcut => hopen hcut.1.1

end

/-! ## Runs -/

theorem not_shared_boot : ¬ Shared (boot p).i2c := by
  have h : ¬ Shared ⟨btRegs, 0, 0⟩ := by decide
  exact h

/-- In a run, whatever fails, the two sides never drive the bus at once exactly when no call gives the
pins back to BT while the FM side drives. -/
theorem exclusive_iff (p : Platform) (calls : List Call) : Run.AllSteps (call p) (Exclusive p) (boot p) calls ↔
    Run.AllSteps (call p) (fun w c => ¬ GivesBack p w c) (boot p) calls :=
  Run.allSteps_iff_of_guarded (fun w => ¬ Shared w.i2c)
    (fun _ c h hno => exclusive_settled ((exclusive_step h c).mpr hno)) (fun _ c h => exclusive_step h c)
    not_shared_boot calls

/-- Every radio that is switched off again passes through such a moment. -/
example : ¬ Run.AllSteps (call acceptAll) (Exclusive acceptAll) (boot acceptAll) [.setFm true false, .setFm false true] := by
  decide

/-- In a run, whatever fails, only one side drives the bus behind every call exactly when no switch back to
BT is cut short. -/
theorem settled_iff (p : Platform) (calls : List Call) : Run.AllStates (call p) (fun w => ¬ Shared w.i2c) (boot p) calls ↔
    Run.AllSteps (call p) (fun w c => ¬ CutShort p w c) (boot p) calls :=
  Run.allStates_iff_allSteps (P := fun w : World => ¬ Shared w.i2c) (fun _ => True) (fun _ _ _ => trivial)
    (fun _ c _ h => settled_step h c) trivial not_shared_boot calls

end AudioPinSharing
