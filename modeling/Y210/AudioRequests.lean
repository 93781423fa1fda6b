import Y210.AudioCalls

/-!
# One request for several keys

`setParameters` runs a handler for each key of a request, in a fixed order and with a
`doRouting` after some of them.
-/
namespace AudioRequests

open AudioDrivers AudioHardware AudioStreams AudioRouting AudioCalls

/-- The keys `setParameters` knows, in the order of their handlers. -/
inductive Key where
  | btNrec | btName | dualMic | ttyMode | fmOn | fmOff
  deriving DecidableEq, Repr

def Key.name : Key → String
  | .btNrec => "bt_headset_nrec"
  | .btName => "bt_headset_name"
  | .dualMic => "dualmic_enabled"
  | .ttyMode => "tty_mode"
  | .fmOn => "fm_on"
  | .fmOff => "fm_off"

def keys : List Key := [.btNrec, .btName, .dualMic, .ttyMode, .fmOn, .fmOff]

/-- The text of a request: `key=value` for each pair, separated by semicolons. -/
def text (pairs : List (Key × String)) : List Char :=
  List.intercalate [';'] (pairs.map fun c => c.1.name.toList ++ '=' :: c.2.toList)

def keyValues (pairs : List (Key × String)) : KeyValues :=
  ⟨(text pairs).length, pairs.map fun c => (c.1.name, c.2)⟩

def value (pairs : List (Key × String)) (k : Key) : Option String :=
  (pairs.find? fun c => c.1 = k).map (·.2)

def given (pairs : List (Key × String)) (k : Key) : Bool := (value pairs k).isSome

/-- One request with every pair. -/
def together (p : Platform) (pairs : List (Key × String)) (w : World) : World :=
  (setParameters p (keyValues pairs) w).1

/-- One request for each pair, in the order of the keys. -/
def apart (p : Platform) (pairs : List (Key × String)) (w : World) : World :=
  keys.foldl (fun w k => match value pairs k with
    | some v => together p [(k, v)] w
    | none => w) w

/-- What a client can tell from the settings, the FM session and the routed device. -/
structure Same (w w' : World) : Prop where
  nrec : w.hw.mBluetoothNrec = w'.hw.mBluetoothNrec
  id : w.hw.mBluetoothId = w'.hw.mBluetoothId
  dualMic : w.hw.mDualMicEnabled = w'.hw.mDualMicEnabled
  tty : w.hw.mTtyMode = w'.hw.mTtyMode
  fm : w.hw.mFmRadioEnabled = w'.hw.mFmRadioEnabled
  session : w.hw.fmfd = w'.hw.fmfd
  device : w.hw.mCurSndDevice = w'.hw.mCurSndDevice

/-! ## When nothing is lost -/

/-- What the handler of a key stores. -/
def store (p : Platform) (v : String) (w : World) : Key → World
  | .btNrec => { w with hw := setNrec (some v) w.hw }
  | .btName => { w with hw := { w.hw with mBluetoothId := bluetoothId p v } }
  | .dualMic => { w with hw := { w.hw with mDualMicEnabled := v = "true" } }
  | .ttyMode => { w with hw := setTty (some v) w.hw }
  | .fmOn => if (p.parseInt v).isSome then setFmOnOff p true w else w
  | .fmOff => if (p.parseInt v).isSome then setFmOnOff p false w else w

def storeGiven (p : Platform) (pairs : List (Key × String)) (w : World) (k : Key) : World :=
  match value pairs k with
  | some v => store p v w k
  | none => w

/-- What the handlers of some keys store, one after the other. -/
def stored (p : Platform) (pairs : List (Key × String)) (w : World) (ks : List Key) : World :=
  ks.foldl (storeGiven p pairs) w

/-- The device `doRouting(NULL)` chooses. -/
def chosen (p : Platform) (hw : Hal) : Int := (newSndDevice p hw "" none).1

/-- The device it chooses once the pairs up to a key are stored. -/
def chosenAfter (p : Platform) (pairs : List (Key × String)) (w : World) (k : Key) : Int :=
  chosen p (stored p pairs w (keys.take (keys.idxOf k + 1))).hw

/-- The routed device after a choice, if the choice is made; -1 leaves the device as it is. -/
def choose (device : Int) (c : Bool × Int) : Int := if c.1 = true ∧ c.2 ≠ -1 then c.2 else device

def lastChosen (device : Int) (choices : List (Bool × Int)) : Int := choices.foldl choose device

def unknownName (p : Platform) (pairs : List (Key × String)) : Bool :=
  (value pairs .btName).any fun v => bluetoothId p v = 0

/-- A `tty_mode` pair outside a call ends a request. -/
def Cut (pairs : List (Key × String)) (hw : Hal) : Prop :=
  given pairs .ttyMode = true ∧ hw.mMode ≠ modeInCall

/-- Whether the FM handlers take their value as a number. -/
def taken (p : Platform) (pairs : List (Key × String)) (k : Key) : Bool :=
  ((value pairs k).bind p.parseInt).isSome

/-- An open of `/dev/msm_fm` now, with the start after it, goes through. -/
def opens (p : Platform) (w : World) : Bool := p.fmOk w.fm.length && p.fmOk (w.fm.length + 1)

/-- The FM pairs leave the radio as it is. -/
def FmKept (p : Platform) (pairs : List (Key × String)) (w : World) : Prop :=
  if taken p pairs .fmOff then
    w.hw.mFmRadioEnabled = false ∧ w.hw.fmfd < 0 ∧
      (taken p pairs .fmOn = true → w.hw.fmfd = -1 ∨ opens p w = false)
  else
    taken p pairs .fmOn = true → w.hw.mFmRadioEnabled = true ∧ (0 ≤ w.hw.fmfd ∨ opens p w = false)

/-- A request that ends early has nothing left to route. -/
def CutRoute (p : Platform) (pairs : List (Key × String)) (w : World) : Prop :=
  (chosen p w.hw = -1 ∨ chosen p w.hw = w.hw.mCurSndDevice ∨ given pairs .dualMic = true ∨
      unknownName p pairs = true ∨ ∀ k, given pairs k = true → k = .ttyMode) ∧
    (chosen p w.hw = -1 → taken p pairs .fmOn = true → taken p pairs .fmOff = true →
      chosenAfter p pairs w .fmOn = -1 ∨ chosenAfter p pairs w .fmOn = w.hw.mCurSndDevice)

/-- A request that runs to its end chooses a device there; on a board without that endpoint the
choices on the way have to agree. -/
def FullRoute (p : Platform) (pairs : List (Key × String)) (w : World) : Prop :=
  chosenAfter p pairs w .fmOff ≠ -1 ∨
    lastChosen w.hw.mCurSndDevice
        [(unknownName p pairs, chosen p w.hw), (given pairs .dualMic, chosenAfter p pairs w .dualMic)] =
      lastChosen w.hw.mCurSndDevice
        [(given pairs .btNrec || given pairs .btName, chosen p w.hw),
          (given pairs .dualMic, chosenAfter p pairs w .dualMic),
          (given pairs .ttyMode, chosenAfter p pairs w .ttyMode),
          (given pairs .fmOn, chosenAfter p pairs w .fmOn)]

/-- Nothing in a request is lost because of another pair of it. -/
def Combines (p : Platform) (pairs : List (Key × String)) (w : World) : Prop :=
  (Cut pairs w.hw → FmKept p pairs w ∧ CutRoute p pairs w) ∧ (¬ Cut pairs w.hw → FullRoute p pairs w)

/-! ## Up to the drivers -/

/-- A world without what only the drivers and the next comparison of routes read. -/
def erase (w : World) : World :=
  { w with snd := [], i2c := ⟨fun _ => 0, 0, 0⟩, audpp := [], headsetPostproc := "",
           hw := { w.hw with mFmPrev := false, mActSndDevice := -1, post_proc_feature_mask := 0 } }

def withDevice (device : Int) (w : World) : World := { w with hw := { w.hw with mCurSndDevice := device } }

section
variable {p : Platform}

/-- The post-processing property does not bear on the device. -/
theorem newSndDevice_chosen (hw : Hal) (s : String) : (newSndDevice p hw s none).1 = chosen p hw := by
  have hout : (outputRoute p hw s (outputDevices hw) 0).1 = (outputRoute p hw "" (outputDevices hw) 0).1 := by
    unfold outputRoute
    cases hw.mTtyMode <;> simp only [apply_ite Prod.fst]
  unfold chosen newSndDevice
  simp only [if_pos, hout]

theorem erase_route (device : Int) (w : World) : erase (doAudioRouteOrMute p device w).1 = erase w := by
  unfold doAudioRouteOrMute
  dsimp only
  split <;> rfl

theorem erase_postproc (playing state : Bool) (w : World) :
    erase (if playing = true then (msm72xx_enable_postproc p state w).1 else w) = erase w := by
  split
  · obtain ⟨log, h⟩ := postproc_frame (p := p) state w
    rw [h]
    rfl
  · rfl

theorem erase_applyRoute (device : Int) (mask : BitVec 32) (w : World) :
    erase (applyRoute p device mask w).1 = withDevice device (erase w) := by
  have hcached (w : World) : erase { w with hw := { w.hw with
      mActSndDevice := device, mCurSndDevice := device, post_proc_feature_mask := mask } } =
        withDevice device (erase w) := rfl
  unfold applyRoute
  dsimp only
  rw [erase_postproc, hcached, erase_postproc, erase_route]

theorem choose_false (device d : Int) : choose device (false, d) = device := if_neg (fun h => nomatch h.1)

theorem erase_doRouting (w : World) : erase (doRouting p none w).1 =
    withDevice (choose w.hw.mCurSndDevice (true, chosen p w.hw)) (erase w) := by
  have htarget : (target p none w).1 = chosen p w.hw := newSndDevice_chosen w.hw w.headsetPostproc
  by_cases hs : Sends p none w
  · have hne : chosen p w.hw ≠ -1 := htarget ▸ hs.2.1
    rw [doRouting_of_sends hs, erase_applyRoute, htarget, choose, if_pos ⟨rfl, hne⟩]
    rfl
  · rw [doRouting_of_not_sends hs]
    -- the choice is -1 or the device routed already
    have hsame : choose w.hw.mCurSndDevice (true, chosen p w.hw) = w.hw.mCurSndDevice := by
      unfold choose
      split
      · rename_i hc
        by_contra hne
        exact hs ⟨nofun, htarget ▸ hc.2, .inl (htarget ▸ hne)⟩
      · rfl
    rw [hsame]
    rfl

/-! ## What the handlers store -/

theorem erase_setFmOnOff (on : Bool) (w : World) : erase (setFmOnOff p on w) = setFmOnOff p on (erase w) := by
  unfold setFmOnOff run_fm_audmgr_session
  simp only [apply_ite erase]
  rfl

theorem withDevice_setFmOnOff (device : Int) (on : Bool) (w : World) :
    withDevice device (setFmOnOff p on w) = setFmOnOff p on (withDevice device w) := by
  unfold setFmOnOff run_fm_audmgr_session
  simp only [apply_ite (withDevice device)]
  rfl

theorem erase_store (v : String) (w : World) (k : Key) : erase (store p v w k) = store p v (erase w) k := by
  cases k with
  | fmOn | fmOff =>
    simp only [store]
    split
    · exact erase_setFmOnOff _ w
    · rfl
  | _ => rfl

theorem withDevice_store (device : Int) (v : String) (w : World) (k : Key) :
    withDevice device (store p v w k) = store p v (withDevice device w) k := by
  cases k with
  | fmOn | fmOff =>
    simp only [store]
    split
    · exact withDevice_setFmOnOff device _ w
    · rfl
  | _ => rfl

/-! ## Requests -/

theorem keyValues_get (pairs : List (Key × String)) (k : Key) :
    (keyValues pairs).get k.name = value pairs k := by
  have hname (c : Key × String) : decide (c.1.name = k.name) = decide (c.1 = k) := by
    cases c.1 <;> cases k <;> decide
  unfold keyValues KeyValues.get value
  rw [List.find?_map, Option.map_map]
  simp only [Function.comp_def, hname]

theorem keyValues_length {pairs : List (Key × String)} (h : pairs ≠ []) : (keyValues pairs).length ≠ 0 := by
  obtain ⟨c, rest, rfl⟩ := List.exists_cons_of_ne_nil h
  intro hz
  have hnil : text (c :: rest) = [] := List.length_eq_zero_iff.mp hz
  unfold text at hnil
  cases rest with
  | nil => simp at hnil
  | cons c' rest => simp [List.intercalate_cons_cons] at hnil

/-- A request up to its `tty_mode` pair. -/
def tune (p : Platform) (pairs : List (Key × String)) (w : World) : World :=
  let w := { w with hw := setNrec (value pairs .btNrec) w.hw }
  let w := setDualMic p (value pairs .dualMic) (setBtName p (value pairs .btName) w)
  { w with hw := setTty (value pairs .ttyMode) w.hw }

/-- A request with pairs runs the handlers. -/
theorem together_eq {pairs : List (Key × String)} (h : pairs ≠ []) (w : World) :
    together p pairs w =
      if given pairs .ttyMode = true ∧ (tune p pairs w).hw.mMode ≠ modeInCall then tune p pairs w
      else (doRouting p none
        (switchFm p (taken p pairs .fmOn) (taken p pairs .fmOff) (tune p pairs w))).1 := by
  have hget (k : Key) : (keyValues pairs).get k.name = value pairs k := keyValues_get pairs k
  have hint (k : Key) : (keyValues pairs).getInt p k.name = (value pairs k).bind p.parseInt := by
    rw [KeyValues.getInt, hget]
  have hfm (w : World) : setFm p (keyValues pairs) w =
      switchFm p (taken p pairs .fmOn) (taken p pairs .fmOff) w := by
    unfold setFm switchFm taken
    rw [← hint .fmOn, ← hint .fmOff]
    rfl
  unfold together setParameters
  rw [if_neg (keyValues_length h)]
  simp only [hfm, apply_ite Prod.fst]
  rw [given, tune, ← hget .btNrec, ← hget .btName, ← hget .dualMic, ← hget .ttyMode]
  rfl

/-- Up to the drivers, `w` is `v` with another device routed. -/
def Routed (w : World) (device : Int) (v : World) : Prop := erase w = withDevice device (erase v)

theorem routed_self (w : World) : Routed w w.hw.mCurSndDevice w := rfl

namespace Routed

variable {w v : World} {device : Int}

theorem mCurSndDevice (h : Routed w device v) : w.hw.mCurSndDevice = device :=
  congrArg (fun w => w.hw.mCurSndDevice) h

theorem mMode (h : Routed w device v) : w.hw.mMode = v.hw.mMode := congrArg (fun w => w.hw.mMode) h

theorem chosen (h : Routed w device v) : AudioRequests.chosen p w.hw = AudioRequests.chosen p v.hw :=
  congrArg (fun w => AudioRequests.chosen p w.hw) h

theorem store (h : Routed w device v) (value : String) (k : Key) :
    Routed (store p value w k) device (AudioRequests.store p value v k) := by
  unfold Routed at h ⊢
  rw [erase_store, h, ← withDevice_store, erase_store]

theorem storeGiven (h : Routed w device v) (pairs : List (Key × String)) (k : Key) :
    Routed (storeGiven p pairs w k) device (AudioRequests.storeGiven p pairs v k) := by
  unfold AudioRequests.storeGiven
  cases value pairs k with
  | none => exact h
  | some x => exact h.store x k

theorem doRouting (h : Routed w device v) :
    Routed (doRouting p none w).1 (choose device (true, AudioRequests.chosen p v.hw)) v := by
  unfold Routed
  rw [erase_doRouting, h.mCurSndDevice, h.chosen, h]
  rfl

end Routed

theorem setNrec_eq (pairs : List (Key × String)) (w : World) :
    { w with hw := setNrec (value pairs .btNrec) w.hw } = storeGiven p pairs w .btNrec := by
  unfold storeGiven
  cases value pairs .btNrec <;> rfl

theorem setTty_eq (pairs : List (Key × String)) (w : World) :
    { w with hw := setTty (value pairs .ttyMode) w.hw } = storeGiven p pairs w .ttyMode := by
  unfold storeGiven
  cases value pairs .ttyMode <;> rfl

theorem switchFm_eq (pairs : List (Key × String)) (w : World) :
    switchFm p (taken p pairs .fmOn) (taken p pairs .fmOff) w =
      storeGiven p pairs (storeGiven p pairs w .fmOn) .fmOff := by
  unfold switchFm storeGiven taken
  cases value pairs .fmOn <;> cases value pairs .fmOff <;> rfl

theorem routed_setBtName {w v : World} {device : Int} (h : Routed w device v) (pairs : List (Key × String)) :
    Routed (setBtName p (value pairs .btName) w)
      (choose device (unknownName p pairs, chosen p (storeGiven p pairs v .btName).hw))
      (storeGiven p pairs v .btName) := by
  unfold setBtName storeGiven unknownName
  cases value pairs .btName with
  | none => exact h
  | some x =>
    have hs := h.store (p := p) x .btName
    change Routed (if bluetoothId p x = 0 then (doRouting p none (store p x w .btName)).1
      else store p x w .btName) (choose device (decide (bluetoothId p x = 0), _)) _
    by_cases hz : bluetoothId p x = 0
    · rw [if_pos hz, decide_eq_true hz]
      exact hs.doRouting
    · rw [if_neg hz, decide_eq_false hz, choose_false]
      exact hs

theorem routed_setDualMic {w v : World} {device : Int} (h : Routed w device v) (pairs : List (Key × String)) :
    Routed (setDualMic p (value pairs .dualMic) w)
      (choose device (given pairs .dualMic, chosen p (storeGiven p pairs v .dualMic).hw))
      (storeGiven p pairs v .dualMic) := by
  unfold setDualMic storeGiven given
  cases value pairs .dualMic with
  | none => exact h
  | some x => exact (h.store (p := p) x .dualMic).doRouting

/-- The members that no handler of a key stores and the route reads. -/
structure SameRoute (hw hw' : Hal) : Prop where
  mMode : hw.mMode = hw'.mMode
  mOutput : hw.mOutput = hw'.mOutput
  mFmIsAnalog : hw.mFmIsAnalog = hw'.mFmIsAnalog

theorem sameRoute_store (x : String) (w : World) (k : Key) : SameRoute (store p x w k).hw w.hw := by
  cases k with
  | fmOn | fmOff =>
    simp only [store]
    split
    · obtain ⟨log, fd, h⟩ := setFmOnOff_frame p _ w
      rw [h]
      exact ⟨rfl, rfl, rfl⟩
    · exact ⟨rfl, rfl, rfl⟩
  | _ => exact ⟨rfl, rfl, rfl⟩

theorem sameRoute_stored (pairs : List (Key × String)) (w : World) (ks : List Key) :
    SameRoute (stored p pairs w ks).hw w.hw := by
  induction ks generalizing w with
  | nil => exact ⟨rfl, rfl, rfl⟩
  | cons k ks ih =>
    have hrest := ih (storeGiven p pairs w k)
    have hk : SameRoute (storeGiven p pairs w k).hw w.hw := by
      unfold storeGiven
      cases value pairs k with
      | none => exact ⟨rfl, rfl, rfl⟩
      | some x => exact sameRoute_store x w k
    exact ⟨hrest.mMode.trans hk.mMode, hrest.mOutput.trans hk.mOutput, hrest.mFmIsAnalog.trans hk.mFmIsAnalog⟩

theorem mMode_stored (pairs : List (Key × String)) (w : World) (ks : List Key) :
    (stored p pairs w ks).hw.mMode = w.hw.mMode := (sameRoute_stored pairs w ks).mMode

/-- The headset's pairs do not bear on the device. -/
theorem chosen_named (pairs : List (Key × String)) (w : World) :
    chosen p (stored p pairs w [.btNrec, .btName]).hw = chosen p w.hw := by
  simp only [stored, List.foldl_cons, List.foldl_nil, storeGiven]
  cases value pairs .btNrec <;> cases value pairs .btName <;> rfl

/-- The device after the pairs before `tty_mode`. -/
def tunedDevice (p : Platform) (pairs : List (Key × String)) (device : Int) (w : World) : Int :=
  lastChosen device [(unknownName p pairs, chosen p w.hw), (given pairs .dualMic, chosenAfter p pairs w .dualMic)]

def tuneKeys : List Key := [.btNrec, .btName, .dualMic, .ttyMode]

theorem routed_tune {w v : World} {device : Int} (h : Routed w device v) (pairs : List (Key × String)) :
    Routed (tune p pairs w) (tunedDevice p pairs device v) (stored p pairs v tuneKeys) := by
  have hnamed := routed_setBtName (p := p) (h.storeGiven (p := p) pairs .btNrec) pairs
  have hstored := (routed_setDualMic (p := p) hnamed pairs).storeGiven (p := p) pairs .ttyMode
  have hchosen : chosen p (storeGiven p pairs (storeGiven p pairs v .btNrec) .btName).hw = chosen p v.hw :=
    chosen_named pairs v
  unfold tune
  dsimp only
  rw [hchosen] at hstored
  rw [setNrec_eq (p := p), setTty_eq (p := p)]
  exact hstored

theorem together_cut {pairs : List (Key × String)} (hne : pairs ≠ []) {w v : World} {device : Int}
    (h : Routed w device v) (hcut : Cut pairs v.hw) :
    Routed (together p pairs w) (tunedDevice p pairs device v) (stored p pairs v tuneKeys) := by
  have ht := routed_tune (p := p) h pairs
  have hmode : (tune p pairs w).hw.mMode ≠ modeInCall := by
    rw [ht.mMode, mMode_stored]
    exact hcut.2
  rw [together_eq hne, if_pos ⟨hcut.1, hmode⟩]
  exact ht

theorem together_full {pairs : List (Key × String)} (hne : pairs ≠ []) {w v : World} {device : Int}
    (h : Routed w device v) (hcut : ¬ Cut pairs v.hw) :
    Routed (together p pairs w) (choose (tunedDevice p pairs device v) (true, chosenAfter p pairs v .fmOff))
      (stored p pairs v keys) := by
  have ht := routed_tune (p := p) h pairs
  have hmode : ¬ (given pairs .ttyMode = true ∧ (tune p pairs w).hw.mMode ≠ modeInCall) := by
    rw [ht.mMode, mMode_stored]
    exact hcut
  rw [together_eq hne, if_neg hmode, switchFm_eq]
  exact ((ht.storeGiven pairs .fmOn).storeGiven pairs .fmOff).doRouting

/-- Whether a request for one pair ends in a `doRouting`. -/
def routes (w : World) (k : Key) : Bool := k != .ttyMode || w.hw.mMode = modeInCall

theorem value_single (k k' : Key) (x : String) : value [(k, x)] k' = if k = k' then some x else none := by
  unfold value
  by_cases hk : k = k' <;> simp [hk]

theorem choose_again (device d : Int) (asked : Bool) :
    choose (choose device (asked, d)) (true, d) = choose device (true, d) := by
  unfold choose
  by_cases hd : d = -1 <;> simp [hd]

theorem routed_single {w v : World} {device : Int} (h : Routed w device v) (k : Key) (x : String) :
    Routed (together p [(k, x)] w) (choose device (routes v k, chosen p (store p x v k).hw)) (store p x v k) := by
  have hne : [(k, x)] ≠ [] := List.cons_ne_nil _ _
  by_cases hcut : Cut [(k, x)] v.hw
  · have hk : k = .ttyMode := by
      by_contra hk
      have hgiven := hcut.1
      rw [given, value_single, if_neg hk] at hgiven
      cases hgiven
    subst hk
    have hroutes : routes v .ttyMode = false := by simp [routes, hcut.2]
    rw [hroutes, choose_false]
    have ht := together_cut (p := p) hne h hcut
    simpa [stored, tuneKeys, tunedDevice, lastChosen, storeGiven, given, unknownName, value_single, choose_false]
      using ht
  · have hroutes : routes v k = true := by
      cases k with
      | ttyMode => simpa [Cut, given, value_single, routes] using hcut
      | _ => rfl
    rw [hroutes]
    have ht := together_full (p := p) hne h hcut
    have hstored : stored p [(k, x)] v keys = store p x v k := by
      cases k <;> simp [stored, keys, storeGiven, value_single]
    have hchosen : chosenAfter p [(k, x)] v .fmOff = chosen p (store p x v k).hw := by
      rw [← hstored]
      rfl
    have htuned : choose (tunedDevice p [(k, x)] device v) (true, chosen p (store p x v k).hw) =
        choose device (true, chosen p (store p x v k).hw) := by
      cases k with
      | btName => exact choose_again _ _ _
      | dualMic => exact choose_again _ _ _
      | _ => rfl
    rw [hstored, hchosen, htuned] at ht
    exact ht

/-- The devices routed by a request for each of some pairs. -/
def apartDevice (p : Platform) (pairs : List (Key × String)) : Int → World → List Key → Int
  | device, _, [] => device
  | device, w, k :: ks =>
    let w' := storeGiven p pairs w k
    apartDevice p pairs (choose device (given pairs k && routes w k, chosen p w'.hw)) w' ks

theorem routed_apart {w v : World} {device : Int} (h : Routed w device v) (pairs : List (Key × String))
    (ks : List Key) :
    Routed (ks.foldl (fun w k => match value pairs k with
        | some x => together p [(k, x)] w
        | none => w) w)
      (apartDevice p pairs device v ks) (stored p pairs v ks) := by
  induction ks generalizing w v device with
  | nil => exact h
  | cons k ks ih =>
    rw [List.foldl_cons]
    simp only [apartDevice, stored, List.foldl_cons]
    refine ih ?_
    unfold storeGiven given
    cases value pairs k with
    | none => exact h
    | some x => exact routed_single h k x

/-! ## The exact condition -/

section
variable {pairs : List (Key × String)} {w : World}

theorem routes_eq_not_cut (hgiven : given pairs .ttyMode = true) : routes w .ttyMode = true ↔ ¬ Cut pairs w.hw := by
  simp [routes, Cut, hgiven]

/-- The devices of the requests for each pair, one after the other. -/
theorem apartDevice_keys (device : Int) (w : World) :
    apartDevice p pairs device w keys = lastChosen device
      [(given pairs .btNrec, chosen p w.hw), (given pairs .btName, chosen p w.hw),
        (given pairs .dualMic, chosenAfter p pairs w .dualMic),
        (given pairs .ttyMode && routes w .ttyMode, chosenAfter p pairs w .ttyMode),
        (given pairs .fmOn, chosenAfter p pairs w .fmOn), (given pairs .fmOff, chosenAfter p pairs w .fmOff)] := by
  have hnrec : chosen p (storeGiven p pairs w .btNrec).hw = chosen p w.hw := by
    unfold storeGiven
    cases value pairs .btNrec <;> rfl
  have hname : chosen p (storeGiven p pairs (storeGiven p pairs w .btNrec) .btName).hw = chosen p w.hw :=
    chosen_named pairs w
  have hends (v : World) {k : Key} (hk : k ≠ .ttyMode) : (given pairs k && routes v k) = given pairs k := by
    simp [routes, hk]
  have htty : routes (stored p pairs w [.btNrec, .btName, .dualMic]) .ttyMode = routes w .ttyMode := by
    unfold routes
    rw [mMode_stored]
  simp only [stored, List.foldl_cons, List.foldl_nil] at htty
  simp only [keys, apartDevice, lastChosen, List.foldl_cons, List.foldl_nil, hnrec, hname, htty,
    hends _ (show Key.btNrec ≠ .ttyMode by decide), hends _ (show Key.btName ≠ .ttyMode by decide),
    hends _ (show Key.dualMic ≠ .ttyMode by decide), hends _ (show Key.fmOn ≠ .ttyMode by decide),
    hends _ (show Key.fmOff ≠ .ttyMode by decide)]
  rfl

theorem storeGiven_none {k : Key} (h : given pairs k = false) (w : World) : storeGiven p pairs w k = w := by
  unfold storeGiven
  rw [given, Option.isSome_eq_false_iff, Option.isNone_iff_eq_none] at h
  rw [h]

theorem exists_given (hne : pairs ≠ []) : ∃ k, given pairs k = true := by
  obtain ⟨c, rest, rfl⟩ := List.exists_cons_of_ne_nil hne
  exact ⟨c.1, by simp [given, value]⟩

theorem given_of_taken {k : Key} (h : taken p pairs k = true) : given pairs k = true := by
  unfold taken at h
  unfold given
  cases hv : value pairs k with
  | none =>
    rw [hv] at h
    cases h
  | some x => rfl

theorem given_of_unknownName (h : unknownName p pairs = true) : given pairs .btName = true := by
  unfold unknownName at h
  unfold given
  cases hv : value pairs .btName with
  | none =>
    rw [hv] at h
    cases h
  | some x => rfl

theorem choose_or (device d : Int) (b b' : Bool) :
    choose (choose device (b, d)) (b', d) = choose device (b || b', d) := by
  by_cases hd : d = -1
  · simp [choose, hd]
  · cases b <;> cases b' <;> simp [choose, hd]

theorem choose_neg_one (device : Int) (b : Bool) : choose device (b, -1) = device :=
  if_neg fun h => h.2 rfl

theorem choose_true {d : Int} (hd : d ≠ -1) (device : Int) : choose device (true, d) = d := if_pos ⟨rfl, hd⟩

/-- A choice that is not made is the one that was. -/
theorem choose_settled {device d : Int} {b : Bool} (hd : d ≠ -1) (h : b = false → device = d) :
    choose device (b, d) = d := by
  cases b with
  | true => exact choose_true hd device
  | false => rw [choose_false, h rfl]

theorem chosen_storeGiven_none {k : Key} (h : given pairs k = false) (w : World) :
    chosen p (storeGiven p pairs w k).hw = chosen p w.hw := by
  rw [storeGiven_none h]

theorem chosenAfter_fmOff (h : given pairs .fmOff = false) :
    chosenAfter p pairs w .fmOff = chosenAfter p pairs w .fmOn :=
  chosen_storeGiven_none h _

theorem chosenAfter_fmOn (h : given pairs .fmOn = false) :
    chosenAfter p pairs w .fmOn = chosenAfter p pairs w .ttyMode :=
  chosen_storeGiven_none h _

theorem chosenAfter_ttyMode (h : given pairs .ttyMode = false) :
    chosenAfter p pairs w .ttyMode = chosenAfter p pairs w .dualMic :=
  chosen_storeGiven_none h _

theorem chosenAfter_dualMic (h : given pairs .dualMic = false) :
    chosenAfter p pairs w .dualMic = chosen p w.hw :=
  (chosen_storeGiven_none h _).trans (chosen_named pairs w)

/-- A request that runs to its end routes the last device of the requests for each pair. -/
theorem full_device_iff (hne : pairs ≠ []) (hcut : ¬ Cut pairs w.hw) :
    choose (tunedDevice p pairs w.hw.mCurSndDevice w) (true, chosenAfter p pairs w .fmOff) =
      apartDevice p pairs w.hw.mCurSndDevice w keys ↔ FullRoute p pairs w := by
  have htty : (given pairs .ttyMode && routes w .ttyMode) = given pairs .ttyMode := by
    cases hg : given pairs .ttyMode with
    | false => rfl
    | true => exact (routes_eq_not_cut hg).mpr hcut
  rw [apartDevice_keys, htty]
  by_cases hlast : chosenAfter p pairs w .fmOff = -1
  · unfold FullRoute tunedDevice lastChosen
    rw [hlast]
    simp only [List.foldl_cons, List.foldl_nil, choose_neg_one, choose_or]
    simp
  · refine iff_of_true ?_ (.inl hlast)
    simp only [choose_true hlast, lastChosen, List.foldl_cons, List.foldl_nil]
    -- back to the last pair of the request
    symm
    refine choose_settled hlast fun hoff => ?_
    rw [chosenAfter_fmOff hoff] at hlast ⊢
    refine choose_settled hlast fun hon => ?_
    rw [chosenAfter_fmOn hon] at hlast ⊢
    refine choose_settled hlast fun htty => ?_
    rw [chosenAfter_ttyMode htty] at hlast ⊢
    refine choose_settled hlast fun hdual => ?_
    rw [chosenAfter_dualMic hdual] at hlast ⊢
    refine choose_settled hlast fun hname => choose_settled hlast fun hnrec => ?_
    obtain ⟨k, hk⟩ := exists_given hne
    cases k <;> simp_all

/-! ### The FM pairs -/

theorem storeGiven_fmOn (w : World) :
    storeGiven p pairs w .fmOn = if taken p pairs .fmOn = true then setFmOnOff p true w else w := by
  unfold storeGiven taken
  cases value pairs .fmOn <;> rfl

theorem storeGiven_fmOff (w : World) :
    storeGiven p pairs w .fmOff = if taken p pairs .fmOff = true then setFmOnOff p false w else w := by
  unfold storeGiven taken
  cases value pairs .fmOff <;> rfl

theorem setFmOnOff_mFmRadioEnabled (on : Bool) (w : World) : (setFmOnOff p on w).hw.mFmRadioEnabled = on := by
  obtain ⟨log, fd, h⟩ := setFmOnOff_frame p on w
  rw [h]

theorem fmfd_on (w : World) : (setFmOnOff p true w).hw.fmfd =
    if w.hw.fmfd < 0 ∧ opens p w = true then (w.fm.length : Int) + 1 else w.hw.fmfd := by
  unfold setFmOnOff run_fm_audmgr_session opens
  by_cases hfd : 0 ≤ w.hw.fmfd
  · simp [hfd]
  · have hlt : w.hw.fmfd < 0 := by omega
    cases h1 : p.fmOk w.fm.length with
    | false => simp [hfd]
    | true => cases h2 : p.fmOk (w.fm.length + 1) <;> simp [hfd, hlt, h2]

theorem fmfd_off (w : World) :
    (setFmOnOff p false w).hw.fmfd = if 0 ≤ w.hw.fmfd then -1 else w.hw.fmfd := by
  unfold setFmOnOff run_fm_audmgr_session
  by_cases hfd : 0 ≤ w.hw.fmfd <;> simp [hfd]

/-- The FM pairs leave flag and session as they are. -/
theorem fmKept_iff (w : World) :
    (storeGiven p pairs (storeGiven p pairs w .fmOn) .fmOff).hw.mFmRadioEnabled = w.hw.mFmRadioEnabled ∧
        (storeGiven p pairs (storeGiven p pairs w .fmOn) .fmOff).hw.fmfd = w.hw.fmfd ↔
      FmKept p pairs w := by
  unfold FmKept
  rw [storeGiven_fmOff, storeGiven_fmOn]
  cases taken p pairs .fmOn with
  | false =>
    cases taken p pairs .fmOff with
    | false => simp
    | true =>
      simp only [if_true, Bool.false_eq_true, if_false, setFmOnOff_mFmRadioEnabled, fmfd_off]
      split <;> grind
  | true =>
    cases taken p pairs .fmOff with
    | false =>
      simp only [if_true, Bool.false_eq_true, if_false, setFmOnOff_mFmRadioEnabled, fmfd_on]
      split <;> grind
    | true =>
      simp only [if_true, setFmOnOff_mFmRadioEnabled, fmfd_off, fmfd_on]
      split <;> grind

/-! ### Outside a call -/

/-- Outside a call the choice reads the outputs and the FM flag only. -/
theorem chosen_outside {hw hw' : Hal} (h : SameRoute hw' hw) (hmode : hw.mMode ≠ modeInCall)
    (hfm : hw'.mFmRadioEnabled = hw.mFmRadioEnabled) : chosen p hw' = chosen p hw := by
  unfold chosen newSndDevice dualMicRoute outputRoute outputDevices
  simp [h.mMode, h.mOutput, h.mFmIsAnalog, hfm, hmode]

/-- The same flag, session and driver log of the radio. -/
def SameRadio (w w' : World) : Prop :=
  w.fm = w'.fm ∧ w.hw.mFmRadioEnabled = w'.hw.mFmRadioEnabled ∧ w.hw.fmfd = w'.hw.fmfd

/-- The pairs before the FM ones leave the radio alone. -/
theorem sameRadio_stored (pairs : List (Key × String)) (w : World) {ks : List Key} (hks : ks <+: tuneKeys) :
    SameRadio (stored p pairs w ks) w := by
  have hone (w : World) {k : Key} (hk : k ∈ tuneKeys) : SameRadio (storeGiven p pairs w k) w := by
    unfold storeGiven
    cases value pairs k with
    | none => exact ⟨rfl, rfl, rfl⟩
    | some x =>
      cases k with
      | fmOn | fmOff => exact absurd hk (by decide)
      | _ => exact ⟨rfl, rfl, rfl⟩
  have hmem : ∀ k ∈ ks, k ∈ tuneKeys := fun k hk => hks.subset hk
  clear hks
  induction ks generalizing w with
  | nil => exact ⟨rfl, rfl, rfl⟩
  | cons k ks ih =>
    obtain ⟨hlog, hflag, hfd⟩ := hone w (hmem k List.mem_cons_self)
    obtain ⟨hlog', hflag', hfd'⟩ := ih (storeGiven p pairs w k) fun k hk => hmem k (List.mem_cons_of_mem _ hk)
    exact ⟨hlog'.trans hlog, hflag'.trans hflag, hfd'.trans hfd⟩

theorem stored_keys (w : World) : stored p pairs w keys =
    storeGiven p pairs (storeGiven p pairs (stored p pairs w tuneKeys) .fmOn) .fmOff := rfl

theorem fmKept_tuned (w : World) : FmKept p pairs (stored p pairs w tuneKeys) ↔ FmKept p pairs w := by
  obtain ⟨hlog, hflag, hfd⟩ := sameRadio_stored (p := p) pairs w (List.prefix_refl tuneKeys)
  unfold FmKept opens
  rw [hlog, hflag, hfd]

theorem mFm_storeOn (w : World) : (storeGiven p pairs w .fmOn).hw.mFmRadioEnabled =
    (taken p pairs .fmOn || w.hw.mFmRadioEnabled) := by
  rw [storeGiven_fmOn]
  cases taken p pairs .fmOn with
  | true => exact setFmOnOff_mFmRadioEnabled true w
  | false => rfl

theorem only_ttyMode_iff : (∀ k, given pairs k = true → k = .ttyMode) ↔
    (given pairs .btNrec || given pairs .btName || given pairs .dualMic || given pairs .fmOn ||
      given pairs .fmOff) = false := by
  simp only [Bool.or_eq_false_iff]
  constructor
  · intro h
    have hnone {k : Key} (hk : k ≠ .ttyMode) : given pairs k = false :=
      Bool.eq_false_iff.mpr fun hg => hk (h k hg)
    exact ⟨⟨⟨⟨hnone (by decide), hnone (by decide)⟩, hnone (by decide)⟩, hnone (by decide)⟩, hnone (by decide)⟩
  · rintro ⟨⟨⟨⟨hnrec, hname⟩, hdual⟩, hon⟩, hoff⟩ k hk
    cases k <;> simp_all

theorem chosenAfter_dualMic_outside (hcut : Cut pairs w.hw) :
    chosenAfter p pairs w .dualMic = chosen p w.hw :=
  chosen_outside (sameRoute_stored pairs w _) hcut.2 (sameRadio_stored pairs w (by decide)).2.1

/-- With the radio kept, the last choice of the separate requests is the one there was. -/
theorem chosenAfter_fmOff_outside (hcut : Cut pairs w.hw) (hfm : FmKept p pairs w) :
    chosenAfter p pairs w .fmOff = chosen p w.hw := by
  obtain ⟨-, hflag, -⟩ := sameRadio_stored (p := p) pairs w (List.prefix_refl tuneKeys)
  have hkept := (fmKept_iff _).mpr ((fmKept_tuned w).mpr hfm)
  exact chosen_outside (sameRoute_stored pairs w _) hcut.2 (hkept.1.trans hflag)

/-- The choice in between differs at most when both FM pairs are taken. -/
theorem chosenAfter_fmOn_outside (hcut : Cut pairs w.hw) (hfm : FmKept p pairs w)
    (h : taken p pairs .fmOn = false ∨ taken p pairs .fmOff = false) :
    chosenAfter p pairs w .fmOn = chosen p w.hw := by
  refine chosen_outside (sameRoute_stored pairs w _) hcut.2 ((mFm_storeOn (stored p pairs w tuneKeys)).trans ?_)
  rw [(sameRadio_stored (p := p) pairs w (List.prefix_refl tuneKeys)).2.1]
  unfold FmKept at hfm
  cases ht : taken p pairs .fmOn with
  | false => rfl
  | true =>
    rw [if_neg (by simpa [ht] using h)] at hfm
    exact (hfm ht).1.symm

/-- With a device to choose, the separate requests route it unless `tty_mode` is the only pair. -/
theorem apart_choices_outside (hcut : Cut pairs w.hw) (hfm : FmKept p pairs w) (hc : chosen p w.hw ≠ -1)
    (device : Int) :
    choose (choose (choose device
        (given pairs .btNrec || given pairs .btName || given pairs .dualMic, chosen p w.hw))
          (given pairs .fmOn, chosenAfter p pairs w .fmOn)) (given pairs .fmOff, chosen p w.hw) =
      choose device (given pairs .btNrec || given pairs .btName || given pairs .dualMic ||
        given pairs .fmOn || given pairs .fmOff, chosen p w.hw) := by
  cases hg : given pairs .fmOff with
  | true => rw [choose_true hc, Bool.or_true, choose_true hc]
  | false =>
    have hnot : taken p pairs .fmOff = false := by
      cases ht : taken p pairs .fmOff with
      | false => rfl
      | true =>
        rw [given_of_taken ht] at hg
        cases hg
    rw [chosenAfter_fmOn_outside hcut hfm (.inr hnot), choose_false, choose_or, Bool.or_false]

/-- A request that ends early routes the last device of the requests for each pair. -/
theorem cut_device_iff (hcut : Cut pairs w.hw) (hfm : FmKept p pairs w) :
    tunedDevice p pairs w.hw.mCurSndDevice w = apartDevice p pairs w.hw.mCurSndDevice w keys ↔
      CutRoute p pairs w := by
  have htty : (given pairs .ttyMode && routes w .ttyMode) = false := by
    simp [routes, hcut.2]
  rw [apartDevice_keys, htty]
  unfold tunedDevice lastChosen CutRoute
  simp only [chosenAfter_dualMic_outside hcut, chosenAfter_fmOff_outside hcut hfm, List.foldl_cons,
    List.foldl_nil, choose_or, choose_false]
  by_cases hc : chosen p w.hw = -1
  · -- only the choice between the FM pairs can route a device
    simp only [hc, choose_neg_one, true_or, true_and, true_imp_iff]
    by_cases hboth : taken p pairs .fmOn = true ∧ taken p pairs .fmOff = true
    · rw [given_of_taken hboth.1]
      simp only [hboth.1, hboth.2, true_imp_iff, choose]
      grind
    · rw [chosenAfter_fmOn_outside hcut hfm (by grind), hc, choose_neg_one]
      simp
  · rw [apart_choices_outside hcut hfm hc, only_ttyMode_iff]
    simp only [hc, false_or, false_imp_iff, and_true]
    cases hu : unknownName p pairs with
    | true => simp [given_of_unknownName hu, choose_true hc]
    | false =>
      cases hd : given pairs .dualMic with
      | true => simp [choose_true hc]
      | false =>
        rw [Bool.false_or, choose_false]
        cases given pairs .btNrec || given pairs .btName || false || given pairs .fmOn || given pairs .fmOff with
        | true => simp [choose_true hc, eq_comm]
        | false => simp [choose_false]

/-! ### The law -/

/-- Two worlds known up to the drivers differ in what a client can tell as those do. -/
theorem same_iff {w w' v v' : World} {device device' : Int} (h : Routed w device v)
    (h' : Routed w' device' v') (hframe : ∃ log fm fd, v' =
      { v with fm := log, hw := { v.hw with mFmRadioEnabled := fm, fmfd := fd } }) :
    Same w w' ↔ (v'.hw.mFmRadioEnabled = v.hw.mFmRadioEnabled ∧ v'.hw.fmfd = v.hw.fmfd) ∧ device = device' := by
  have hfm : w.hw.mFmRadioEnabled = v.hw.mFmRadioEnabled := congrArg (fun w => w.hw.mFmRadioEnabled) h
  have hfm' : w'.hw.mFmRadioEnabled = v'.hw.mFmRadioEnabled := congrArg (fun w => w.hw.mFmRadioEnabled) h'
  have hfd : w.hw.fmfd = v.hw.fmfd := congrArg (fun w => w.hw.fmfd) h
  have hfd' : w'.hw.fmfd = v'.hw.fmfd := congrArg (fun w => w.hw.fmfd) h'
  constructor
  · intro hs
    refine ⟨⟨?_, ?_⟩, ?_⟩
    · rw [← hfm, ← hfm', hs.fm]
    · rw [← hfd, ← hfd', hs.session]
    · rw [← h.mCurSndDevice, ← h'.mCurSndDevice, hs.device]
  · rintro ⟨⟨hsame, hsession⟩, hdevice⟩
    refine ⟨?_, ?_, ?_, ?_, ?_, ?_, ?_⟩
    rotate_left 4
    · rw [hfm, hfm', hsame]
    · rw [hfd, hfd', hsession]
    · rw [h.mCurSndDevice, h'.mCurSndDevice, hdevice]
    all_goals obtain ⟨log, fm, fd, rfl⟩ := hframe
    · exact (congrArg (fun w => w.hw.mBluetoothNrec) h).trans (congrArg (fun w => w.hw.mBluetoothNrec) h').symm
    · exact (congrArg (fun w => w.hw.mBluetoothId) h).trans (congrArg (fun w => w.hw.mBluetoothId) h').symm
    · exact (congrArg (fun w => w.hw.mDualMicEnabled) h).trans (congrArg (fun w => w.hw.mDualMicEnabled) h').symm
    · exact (congrArg (fun w => w.hw.mTtyMode) h).trans (congrArg (fun w => w.hw.mTtyMode) h').symm

/-- One request leaves what one request for each pair leaves, exactly when it runs to its end or
has nothing left to do. -/
theorem together_same_apart_iff (p : Platform) (pairs : List (Key × String)) (w : World) :
    Same (together p pairs w) (apart p pairs w) ↔ Combines p pairs w := by
  by_cases hne : pairs = []
  · subst hne
    refine iff_of_true ⟨rfl, rfl, rfl, rfl, rfl, rfl, rfl⟩ ⟨fun hcut => ?_, fun _ => .inr rfl⟩
    cases hcut.1
  have hapart := routed_apart (p := p) (routed_self w) pairs keys
  by_cases hcut : Cut pairs w.hw
  · have htogether := together_cut (p := p) hne (routed_self w) hcut
    have hframe := switchFm_frame p (taken p pairs .fmOn) (taken p pairs .fmOff) (stored p pairs w tuneKeys)
    rw [switchFm_eq, ← stored_keys] at hframe
    obtain ⟨log, fd, hframe⟩ := hframe
    refine (same_iff htogether hapart ⟨log, _, fd, hframe⟩).trans ?_
    rw [stored_keys, fmKept_iff, fmKept_tuned]
    constructor
    · rintro ⟨hfm, hdevice⟩
      exact ⟨fun _ => ⟨hfm, (cut_device_iff hcut hfm).mp hdevice⟩, fun h => absurd hcut h⟩
    · rintro ⟨h, -⟩
      obtain ⟨hfm, hroute⟩ := h hcut
      exact ⟨hfm, (cut_device_iff hcut hfm).mpr hroute⟩
  · have htogether := together_full (p := p) hne (routed_self w) hcut
    refine (same_iff htogether hapart ⟨_, _, _, rfl⟩).trans ?_
    rw [full_device_iff hne hcut]
    exact ⟨fun h => ⟨fun hc => absurd hc hcut, fun _ => h.2⟩, fun h => ⟨⟨rfl, rfl⟩, h.2 hcut⟩⟩

end

end

/-- The `fm_on` of a request is lost behind its `tty_mode`. -/
theorem fm_on_lost : ¬ ∀ (p : Platform) (pairs : List (Key × String)) (w : World),
    Same (together p pairs w) (apart p pairs w) := by
  intro h
  have hfm := (h acceptAll [(.ttyMode, "off"), (.fmOn, "1")] (boot acceptAll)).fm
  exact absurd hfm (by decide +kernel)

end AudioRequests
