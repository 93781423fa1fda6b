import Y210.AudioDrivers
import Y210.Preference

/-!
# The endpoints of the sound driver

`get_sound_endpoints` asks the driver for its endpoints one after the other and keeps the ids of
those whose names it knows. Several names compete for an FM device.
-/
namespace SoundEndpoints

open AudioDrivers
open Preference (Rule Candidate pick offer)

/-- An endpoint of the driver's table, and whether `SND_GET_ENDPOINT` succeeds for it. -/
structure SndEndpoint where
  id : Nat
  name : String
  answers : Bool
  deriving DecidableEq, Repr

/-- The `SND_DEVICE_*` members. -/
abbrev Ids := Endpoint → Int

/-- `CHECK_FOR`. -/
def checkFor (desc : String) (device : Endpoint) (ept : SndEndpoint) (ids : Ids) : Ids :=
  if ept.name = desc then Function.update ids device ept.id else ids

/-- A device that one name takes and others get while it is missing. -/
def checkPreferred (desc : String) (others : List String) (device : Endpoint) (ept : SndEndpoint) (ids : Ids) : Ids :=
  if ept.name = desc then Function.update ids device ept.id
  else if ept.name ∈ others then
    if ids device = -1 then Function.update ids device ept.id else ids
  else ids

/-- A round of the scan. -/
def scanEndpoint (ids : Ids) (ept : SndEndpoint) : Ids :=
  if ept.answers = false then ids
  else
    let ids := checkFor "CURRENT" .current ept ids
    let ids := checkFor "HANDSET" .handset ept ids
    let ids := checkFor "SPEAKER" .speaker ept ids
    let ids := checkFor "BT" .bt ept ids
    let ids := checkFor "BT_EC_OFF" .btEcOff ept ids
    let ids := checkFor "HEADSET" .headset ept ids
    let ids := checkFor "HEADSET_AND_SPEAKER" .headsetAndSpeaker ept ids
    let ids := checkFor "IN_S_SADC_OUT_HANDSET" .inSSadcOutHandset ept ids
    let ids := checkFor "IN_S_SADC_OUT_SPEAKER_PHONE" .inSSadcOutSpeakerPhone ept ids
    let ids := checkFor "TTY_HEADSET" .ttyHeadset ept ids
    let ids := checkFor "TTY_HCO" .ttyHco ept ids
    let ids := checkFor "TTY_VCO" .ttyVco ept ids
    let ids := checkFor "FM_SPEAKER" .fmSpeaker ept ids
    let ids := checkFor "FM_HEADSET" .fmHeadset ept ids
    -- digital endpoints
    let ids := checkPreferred "FM_DIGITAL_STEREO_HEADSET" ["FM_RADIO_STEREO_HEADSET"] .fmHeadset ept ids
    let ids := checkPreferred "FM_DIGITAL_SPEAKER_PHONE" ["FM_RADIO_SPEAKER_PHONE"] .fmSpeaker ept ids
    -- analog endpoints
    let ids := checkPreferred "FM_ANALOG_STEREO_HEADSET" ["FM_ANALOG_STEREO_HEADSET_CODEC", "FM_RADIO_STEREO_HEADSET"]
      .fmAnalogHeadset ept ids
    checkFor "FM_RADIO_SPEAKER_PHONE" .fmAnalogSpeaker ept ids

/-- A device that is missing gets the id of another. -/
def fallBack (device other : Endpoint) (ids : Ids) : Ids :=
  if ids device = -1 then Function.update ids device (ids other) else ids

/-- `get_sound_endpoints` on the table of the driver, after the constructor. -/
def get_sound_endpoints (table : List SndEndpoint) : Ids :=
  let ids := table.foldl scanEndpoint fun _ => -1
  let ids := fallBack .fmHeadset .headset ids
  let ids := fallBack .fmSpeaker .speaker ids
  let ids := fallBack .fmAnalogHeadset .fmHeadset ids
  fallBack .fmAnalogSpeaker .fmSpeaker ids

/-! ## The names of a device -/

/-- The names that take a device. -/
def overNames : Endpoint → List String
  | .current => ["CURRENT"]
  | .handset => ["HANDSET"]
  | .speaker => ["SPEAKER"]
  | .bt => ["BT"]
  | .btEcOff => ["BT_EC_OFF"]
  | .headset => ["HEADSET"]
  | .headsetAndSpeaker => ["HEADSET_AND_SPEAKER"]
  | .inSSadcOutHandset => ["IN_S_SADC_OUT_HANDSET"]
  | .inSSadcOutSpeakerPhone => ["IN_S_SADC_OUT_SPEAKER_PHONE"]
  | .ttyHeadset => ["TTY_HEADSET"]
  | .ttyHco => ["TTY_HCO"]
  | .ttyVco => ["TTY_VCO"]
  | .fmSpeaker => ["FM_SPEAKER", "FM_DIGITAL_SPEAKER_PHONE"]
  | .fmHeadset => ["FM_HEADSET", "FM_DIGITAL_STEREO_HEADSET"]
  | .fmAnalogHeadset => ["FM_ANALOG_STEREO_HEADSET"]
  | .fmAnalogSpeaker => ["FM_RADIO_SPEAKER_PHONE"]
  | .carkit | .noMicHeadset => []

/-- The names that get a device while it is missing. -/
def fillNames : Endpoint → List String
  | .fmSpeaker => ["FM_RADIO_SPEAKER_PHONE"]
  | .fmHeadset => ["FM_RADIO_STEREO_HEADSET"]
  | .fmAnalogHeadset => ["FM_ANALOG_STEREO_HEADSET_CODEC", "FM_RADIO_STEREO_HEADSET"]
  | _ => []

def rule (device : Endpoint) (ept : SndEndpoint) : Rule :=
  if ept.answers = false then .skip
  else if ept.name ∈ overNames device then .overwrite
  else if ept.name ∈ fillNames device then .fill
  else .skip

/-- A member as a slot: -1 is empty. -/
def member : Option Nat → Int
  | none => -1
  | some id => id

@[simp] theorem member_none : member none = -1 := rfl
@[simp] theorem member_some (id : Nat) : member (some id) = id := rfl

theorem member_inj {a b : Option Nat} (h : member a = member b) : a = b := by
  cases a <;> cases b <;> simp [member] at h ⊢ ; omega

@[simp] theorem member_eq_neg_one {a : Option Nat} : member a = -1 ↔ a = none :=
  ⟨fun h => member_inj (b := none) h, fun h => h ▸ rfl⟩

theorem checkFor_apply (desc : String) (d device : Endpoint) (ept : SndEndpoint) (ids : Ids) :
    checkFor desc d ept ids device = if device = d ∧ ept.name = desc then (ept.id : Int) else ids device := by
  unfold checkFor
  by_cases hname : ept.name = desc
  · simp [hname, Function.update_apply]
  · simp [hname]

theorem checkPreferred_apply (desc : String) (others : List String) (d device : Endpoint) (ept : SndEndpoint)
    (ids : Ids) : checkPreferred desc others d ept ids device = if device = d ∧ ept.name = desc then (ept.id : Int)
      else if device = d ∧ ept.name ∈ others ∧ ids device = -1 then (ept.id : Int) else ids device := by
  unfold checkPreferred
  by_cases hd : device = d
  · subst hd
    by_cases hname : ept.name = desc
    · simp [hname]
    by_cases hother : ept.name ∈ others
    · by_cases hmissing : ids device = -1 <;> simp [hname, hother, hmissing]
    · simp [hname, hother]
  · simp only [hd, false_and, if_false]
    split_ifs <;> simp [Function.update_of_ne hd]

/-- Of a device with one name. -/
theorem offer_single (named : Prop) [Decidable named] (id : Nat) (slot : Option Nat) :
    (if named then (id : Int) else member slot) = member (match if named then Rule.overwrite else .skip with
      | .overwrite => some id
      | .fill => some (slot.getD id)
      | .skip => slot) := by
  by_cases h : named <;> simp [h]

/-- Of a device with names that compete. -/
theorem offer_competing (taken preferred other : Prop) [Decidable taken] [Decidable preferred] [Decidable other]
    (id : Nat) (slot : Option Nat) :
    (if preferred then (id : Int)
      else if other ∧ (if taken then (id : Int) else member slot) = -1 then (id : Int)
      else if taken then (id : Int) else member slot) =
    member (match if taken ∨ preferred then Rule.overwrite else if other then .fill else .skip with
      | .overwrite => some id
      | .fill => some (slot.getD id)
      | .skip => slot) := by
  have hid : ¬ (id : Int) = -1 := by omega
  by_cases hpreferred : preferred
  · simp [hpreferred]
  by_cases htaken : taken
  · simp [hpreferred, htaken, hid]
  by_cases hother : other
  · cases slot <;> simp [hpreferred, htaken, hother]
  · simp [hpreferred, htaken, hother]

/-- Of a device that one name takes. -/
theorem offer_preferred (preferred other : Prop) [Decidable preferred] [Decidable other] (id : Nat)
    (slot : Option Nat) :
    (if preferred then (id : Int) else if other ∧ member slot = -1 then (id : Int) else member slot) =
    member (match if preferred then Rule.overwrite else if other then .fill else .skip with
      | .overwrite => some id
      | .fill => some (slot.getD id)
      | .skip => slot) := by
  by_cases hpreferred : preferred
  · simp [hpreferred]
  by_cases hother : other
  · cases slot <;> simp [hpreferred, hother]
  · simp [hpreferred, hother]

/-- A round offers the endpoint to each device. -/
theorem scanEndpoint_apply {ids : Ids} {device : Endpoint} {slot : Option Nat} (h : ids device = member slot)
    (ept : SndEndpoint) : scanEndpoint ids ept device = member (offer (rule device) SndEndpoint.id slot ept) := by
  unfold scanEndpoint offer rule
  by_cases hans : ept.answers = false
  · rw [if_pos hans, if_pos hans, h]
  · rw [if_neg hans, if_neg hans]
    cases device <;> simp only [checkFor_apply, checkPreferred_apply, reduceCtorEq, false_and, true_and, if_false, h,
      overNames, fillNames, List.mem_cons, List.not_mem_nil, or_false]
    case fmSpeaker => exact offer_competing _ _ _ _ _
    case fmHeadset => exact offer_competing _ _ _ _ _
    case fmAnalogHeadset => exact offer_preferred _ _ _ _
    all_goals exact offer_single _ _ _

/-- After the scan each member holds what was picked for it. -/
theorem scan_pick (table : List SndEndpoint) (device : Endpoint) :
    table.foldl scanEndpoint (fun _ => -1) device = member (pick (rule device) SndEndpoint.id table) := by
  have hfold : ∀ (l : List SndEndpoint) (ids : Ids) (slot : Option Nat), ids device = member slot →
      l.foldl scanEndpoint ids device = member (l.foldl (offer (rule device) SndEndpoint.id) slot) := by
    intro l
    induction l with
    | nil => exact fun _ _ h => h
    | cons ept l ih => exact fun ids slot h => ih _ _ (scanEndpoint_apply h ept)
  exact hfold table _ none rfl

/-! ## The fall-backs -/

theorem fallBack_apply (d other device : Endpoint) (ids : Ids) : fallBack d other ids device =
    if device = d ∧ ids d = -1 then ids other else ids device := by
  unfold fallBack
  by_cases hmissing : ids d = -1 <;> simp [hmissing, Function.update_apply]

/-- The ids are decided by what is picked. -/
theorem get_sound_endpoints_congr {table table' : List SndEndpoint}
    (h : ∀ device, pick (rule device) SndEndpoint.id table' = pick (rule device) SndEndpoint.id table) :
    get_sound_endpoints table' = get_sound_endpoints table := by
  have hscan : table'.foldl scanEndpoint (fun _ => -1) = table.foldl scanEndpoint (fun _ => -1) := by
    funext device
    rw [scan_pick, scan_pick, h device]
  rw [get_sound_endpoints, get_sound_endpoints, hscan]

/-- A fall-back does not touch a device that was found. -/
theorem get_sound_endpoints_found {table : List SndEndpoint} {device : Endpoint} {id : Nat}
    (h : pick (rule device) SndEndpoint.id table = some id) : get_sound_endpoints table device = id := by
  have hscan := scan_pick table device
  rw [h, member_some] at hscan
  have hid : ¬ (id : Int) = -1 := by omega
  unfold get_sound_endpoints
  simp only [fallBack_apply]
  cases device <;> simp [hscan, hid]

/-- The id of an endpoint that answers under a name. -/
def Answers (table : List SndEndpoint) (name : String) (id : Nat) : Prop :=
  ∃ ept ∈ table, ept.answers = true ∧ ept.name = name ∧ ept.id = id

/-- Endpoints that answer under the two names have one id. -/
def Agree (table : List SndEndpoint) (name name' : String) : Prop :=
  ∀ id id', Answers table name id → Answers table name' id' → id = id'

theorem rule_over_iff {device : Endpoint} {ept : SndEndpoint} :
    rule device ept = .overwrite ↔ ept.answers = true ∧ ept.name ∈ overNames device := by
  unfold rule
  split_ifs <;> simp_all

theorem rule_fill {device : Endpoint} {ept : SndEndpoint} (h : rule device ept = .fill) :
    ept.answers = true ∧ ept.name ∈ fillNames device := by
  unfold rule at h
  split_ifs at h
  simp_all

/-- Endpoints of one name are one endpoint. -/
theorem same_name {table : List SndEndpoint} (hnames : (table.map SndEndpoint.name).Nodup) {a b : SndEndpoint}
    (ha : a ∈ table) (hb : b ∈ table) (h : a.name = b.name) : a.id = b.id :=
  congrArg SndEndpoint.id (List.inj_on_of_nodup_map hnames ha hb h)

/-- Candidates for a device all take it, or all fill it while nobody takes it. -/
theorem candidate_names {table : List SndEndpoint} {device : Endpoint} {a b : SndEndpoint}
    (ha : Candidate (rule device) table a) (hb : Candidate (rule device) table b) :
    a.answers = true ∧ b.answers = true ∧ (a.name ∈ overNames device ∧ b.name ∈ overNames device ∨
      a.name ∈ fillNames device ∧ b.name ∈ fillNames device ∧ ∀ ept ∈ table, rule device ept ≠ .overwrite) := by
  obtain ⟨hmem, hruleA⟩ := ha
  obtain ⟨hmem', hruleB⟩ := hb
  rcases hruleA with hruleA | ⟨hruleA, hno⟩
  · rcases hruleB with hruleB | ⟨-, hno⟩
    · obtain ⟨hans, hname⟩ := rule_over_iff.mp hruleA
      obtain ⟨hans', hname'⟩ := rule_over_iff.mp hruleB
      exact ⟨hans, hans', .inl ⟨hname, hname'⟩⟩
    · exact absurd hruleA (hno a hmem)
  · rcases hruleB with hruleB | ⟨hruleB, -⟩
    · exact absurd hruleB (hno b hmem')
    · obtain ⟨hans, hname⟩ := rule_fill hruleA
      obtain ⟨hans', hname'⟩ := rule_fill hruleB
      exact ⟨hans, hans', .inr ⟨hname, hname', hno⟩⟩

/-- The candidates for each device have one id exactly when the names that compete for the FM devices
agree. -/
theorem candidates_agree_iff {table : List SndEndpoint} (hnames : (table.map SndEndpoint.name).Nodup) :
    (∀ device a b, Candidate (rule device) table a → Candidate (rule device) table b → a.id = b.id) ↔
      Agree table "FM_HEADSET" "FM_DIGITAL_STEREO_HEADSET" ∧
      Agree table "FM_SPEAKER" "FM_DIGITAL_SPEAKER_PHONE" ∧
      ((∀ id, ¬ Answers table "FM_ANALOG_STEREO_HEADSET" id) →
        Agree table "FM_ANALOG_STEREO_HEADSET_CODEC" "FM_RADIO_STEREO_HEADSET") := by
  constructor
  · intro h
    refine ⟨?_, ?_, fun hmissing => ?_⟩
    · rintro _ _ ⟨a, ha, hans, hname, rfl⟩ ⟨b, hb, hans', hname', rfl⟩
      exact h .fmHeadset a b ⟨ha, .inl (rule_over_iff.mpr ⟨hans, by simp [hname, overNames]⟩)⟩
        ⟨hb, .inl (rule_over_iff.mpr ⟨hans', by simp [hname', overNames]⟩)⟩
    · rintro _ _ ⟨a, ha, hans, hname, rfl⟩ ⟨b, hb, hans', hname', rfl⟩
      exact h .fmSpeaker a b ⟨ha, .inl (rule_over_iff.mpr ⟨hans, by simp [hname, overNames]⟩)⟩
        ⟨hb, .inl (rule_over_iff.mpr ⟨hans', by simp [hname', overNames]⟩)⟩
    · have hno : ∀ ept ∈ table, rule .fmAnalogHeadset ept ≠ .overwrite := by
        intro ept hept hover
        obtain ⟨hans, hname⟩ := rule_over_iff.mp hover
        exact hmissing ept.id ⟨ept, hept, hans, List.mem_singleton.mp hname, rfl⟩
      have hfill : ∀ ept : SndEndpoint, ept.answers = true → ept.name ∈ fillNames .fmAnalogHeadset →
          ept ∈ table → Candidate (rule .fmAnalogHeadset) table ept := by
        intro ept hans hname hept
        refine ⟨hept, .inr ⟨?_, hno⟩⟩
        unfold rule
        rw [if_neg (by simp [hans]), if_neg fun hin => hno ept hept (rule_over_iff.mpr ⟨hans, hin⟩), if_pos hname]
      rintro _ _ ⟨a, ha, hans, hname, rfl⟩ ⟨b, hb, hans', hname', rfl⟩
      exact h .fmAnalogHeadset a b (hfill a hans (by simp [hname, fillNames]) ha)
        (hfill b hans' (by simp [hname', fillNames]) hb)
  · rintro ⟨hheadset, hspeaker, hanalog⟩ device a b ha hb
    obtain ⟨hansA, hansB, hnamed⟩ := candidate_names ha hb
    have hone : ∀ n, a.name = n → b.name = n → a.id = b.id := fun n hA hB =>
      same_name hnames ha.1 hb.1 (hA.trans hB.symm)
    have hpair : ∀ n n', Agree table n n' → a.name = n ∨ a.name = n' → b.name = n ∨ b.name = n' → a.id = b.id := by
      rintro n n' hagree (hA | hA) (hB | hB)
      · exact hone n hA hB
      · exact hagree a.id b.id ⟨a, ha.1, hansA, hA, rfl⟩ ⟨b, hb.1, hansB, hB, rfl⟩
      · exact (hagree b.id a.id ⟨b, hb.1, hansB, hB, rfl⟩ ⟨a, ha.1, hansA, hA, rfl⟩).symm
      · exact hone n' hA hB
    rcases hnamed with ⟨hA, hB⟩ | ⟨hA, hB, hno⟩
    · cases device with
      | fmHeadset => exact hpair _ _ hheadset (by simpa [overNames] using hA) (by simpa [overNames] using hB)
      | fmSpeaker => exact hpair _ _ hspeaker (by simpa [overNames] using hA) (by simpa [overNames] using hB)
      | carkit | noMicHeadset => cases hA
      | _ => exact hone _ (List.mem_singleton.mp hA) (List.mem_singleton.mp hB)
    · cases device with
      | fmAnalogHeadset =>
        have hmissing : ∀ id, ¬ Answers table "FM_ANALOG_STEREO_HEADSET" id := by
          rintro _ ⟨ept, hept, hans, hname, rfl⟩
          exact hno ept hept (rule_over_iff.mpr ⟨hans, by simp [hname, overNames]⟩)
        exact hpair _ _ (hanalog hmissing) (by simpa [fillNames] using hA) (by simpa [fillNames] using hB)
      | fmHeadset | fmSpeaker => exact hone _ (List.mem_singleton.mp hA) (List.mem_singleton.mp hB)
      | _ => cases hA

/-- The ids do not depend on the order of the table exactly when the names that compete for the FM
headset, for the FM speaker and, without their preferred name, for the analog headset stand for one
endpoint each. -/
theorem endpoints_perm_iff (table : List SndEndpoint) (hnames : (table.map SndEndpoint.name).Nodup) :
    (∀ table' : List SndEndpoint, table'.Perm table → get_sound_endpoints table' = get_sound_endpoints table) ↔
      Agree table "FM_HEADSET" "FM_DIGITAL_STEREO_HEADSET" ∧
      Agree table "FM_SPEAKER" "FM_DIGITAL_SPEAKER_PHONE" ∧
      ((∀ id, ¬ Answers table "FM_ANALOG_STEREO_HEADSET" id) →
        Agree table "FM_ANALOG_STEREO_HEADSET_CODEC" "FM_RADIO_STEREO_HEADSET") := by
  rw [← candidates_agree_iff hnames]
  constructor
  · intro h device
    refine (Preference.pick_perm_iff table).mp fun table' hperm => ?_
    have hids := congrFun (h table' hperm) device
    cases hp : pick (rule device) SndEndpoint.id table with
    | none =>
      have hskip := Preference.pick_eq_none_iff.mp hp
      exact Preference.pick_eq_none_iff.mpr fun a ha => hskip a (hperm.mem_iff.mp ha)
    | some id =>
      cases hp' : pick (rule device) SndEndpoint.id table' with
      | none =>
        have hskip := Preference.pick_eq_none_iff.mp hp'
        have hnone : pick (rule device) SndEndpoint.id table = none :=
          Preference.pick_eq_none_iff.mpr fun a ha => hskip a (hperm.mem_iff.mpr ha)
        cases hnone.symm.trans hp
      | some id' =>
        rw [get_sound_endpoints_found hp, get_sound_endpoints_found hp'] at hids
        rw [Int.ofNat.inj hids]
  · intro h table' hperm
    exact get_sound_endpoints_congr fun device => (Preference.pick_perm_iff table).mpr (h device) table' hperm

/-- Two names of the FM headset, both in the driver. -/
def twoHeadsets : List SndEndpoint := [⟨26, "FM_DIGITAL_STEREO_HEADSET", true⟩, ⟨9, "FM_HEADSET", true⟩]

/-- The one that the driver numbers last is taken. -/
theorem headset_by_number : ¬ ((twoHeadsets.map SndEndpoint.name).Nodup → ∀ table' : List SndEndpoint,
    table'.Perm twoHeadsets → get_sound_endpoints table' = get_sound_endpoints twoHeadsets) := by
  intro h
  have hsame := congrFun (h (by decide +kernel) twoHeadsets.reverse (List.reverse_perm _)) .fmHeadset
  exact absurd hsame (by decide +kernel)

/-- The FM endpoints of the device's kernel, which have no such names. -/
def y210Endpoints : List SndEndpoint :=
  [⟨0, "HANDSET", true⟩, ⟨1, "SPEAKER", true⟩, ⟨2, "HEADSET", true⟩, ⟨26, "FM_DIGITAL_STEREO_HEADSET", true⟩,
    ⟨27, "FM_DIGITAL_SPEAKER_PHONE", true⟩, ⟨29, "FM_RADIO_STEREO_HEADSET", true⟩,
    ⟨30, "FM_RADIO_SPEAKER_PHONE", true⟩, ⟨35, "FM_ANALOG_STEREO_HEADSET", true⟩,
    ⟨36, "FM_ANALOG_STEREO_HEADSET_CODEC", false⟩]

theorem y210_endpoints_reversed :
    get_sound_endpoints y210Endpoints.reverse = get_sound_endpoints y210Endpoints := by
  refine (endpoints_perm_iff y210Endpoints (by decide +kernel)).mpr ⟨?_, ?_, fun hmissing => ?_⟩
    _ (List.reverse_perm _)
  · have hno : ∀ ept ∈ y210Endpoints, ept.name ≠ "FM_HEADSET" := by decide +kernel
    rintro _ _ ⟨ept, hept, -, hname, -⟩
    exact absurd hname (hno ept hept)
  · have hno : ∀ ept ∈ y210Endpoints, ept.name ≠ "FM_SPEAKER" := by decide +kernel
    rintro _ _ ⟨ept, hept, -, hname, -⟩
    exact absurd hname (hno ept hept)
  · exact absurd ⟨⟨35, "FM_ANALOG_STEREO_HEADSET", true⟩, by decide +kernel, rfl, rfl, rfl⟩ (hmissing 35)

end SoundEndpoints
