import Y210.Java

/-!
# The card status of the modem

`HuaweiQualcommRIL` reads a card status from a parcel and remembers the AID of the
subscribed application for every later SIM request. The number of applications is
limited, the index of the subscribed one is taken as it comes.
-/
namespace HuaweiQualcommRIL

open Java

variable {σ : Type}

/-! ## The code -/

/-- `IccCardApplication`; an enumerator is given by its ordinal. -/
structure IccCardApplication where
  app_type : Nat
  app_state : Nat
  perso_substate : Nat
  aid : Option String
  app_label : Option String
  pin1_replaced : Int
  pin1 : Int
  pin2 : Int
  deriving DecidableEq, Repr

structure IccCardStatus where
  cardState : Nat
  universalPinState : Nat
  gsmUmtsSubscriptionAppIndex : Int
  cdmaSubscriptionAppIndex : Int
  numApplications : Int
  applications : List IccCardApplication
  deriving DecidableEq, Repr

/-- The framework below the class: the reads of a parcel, the conversions of the modem's
codes, and `IccCardStatus.getApplication` on the applications that were added. -/
structure Telephony (σ : Type) where
  readInt : σ → Int × σ
  readString : σ → Option String × σ
  setCardState : Int → Except Thrown Nat
  setUniversalPinState : Int → Except Thrown Nat
  appTypeFromRILInt : Int → Except Thrown Nat
  appStateFromRILInt : Int → Except Thrown Nat
  persoSubstateFromRILInt : Int → Except Thrown Nat
  getApplication : List IccCardApplication → Int → Except Thrown (Option IccCardApplication)
  cardMaxApps : Int
  cdmaPhone : Int

/-- The members that a card status reads and sets. -/
structure Ril where
  mPhoneType : Int
  mAid : Option String
  deriving DecidableEq, Repr

section
variable (l : Telephony σ)

/-- One round of the loop over the applications. -/
def readApplication (p : σ) : Except Thrown (IccCardApplication × σ) := do
  let (type, p) := l.readInt p
  let app_type ← l.appTypeFromRILInt type
  let (state, p) := l.readInt p
  let app_state ← l.appStateFromRILInt state
  let (substate, p) := l.readInt p
  let perso_substate ← l.persoSubstateFromRILInt substate
  let (aid, p) := l.readString p
  let (app_label, p) := l.readString p
  let (pin1_replaced, p) := l.readInt p
  let (pin1, p) := l.readInt p
  let (pin2, p) := l.readInt p
  return (⟨app_type, app_state, perso_substate, aid, app_label, pin1_replaced, pin1, pin2⟩, p)

def readApplications : Nat → σ → List IccCardApplication → Except Thrown (List IccCardApplication)
  | 0, _, applications => return applications
  | n + 1, p, applications => do
    let (ca, p) ← readApplication l p
    readApplications n p (applications ++ [ca])

/-- The limit on the number of applications. -/
def limitApplications (numApplications : Int) : Int :=
  if l.cardMaxApps < numApplications then l.cardMaxApps else numApplications

def readCardStatus (p : σ) : Except Thrown IccCardStatus := do
  let (state, p) := l.readInt p
  let cardState ← l.setCardState state
  let (pinState, p) := l.readInt p
  let universalPinState ← l.setUniversalPinState pinState
  let (gsmIndex, p) := l.readInt p
  let (cdmaIndex, p) := l.readInt p
  let (_, p) := l.readInt p -- ImsSubscriptionAppIndex
  let (num, p) := l.readInt p
  let numApplications := limitApplications l num
  let applications ← readApplications l numApplications.toNat p []
  return ⟨cardState, universalPinState, gsmIndex, cdmaIndex, numApplications, applications⟩

/-- `responseIccCardStatus`; an exception leaves `mAid` as it was. -/
def responseIccCardStatus (p : σ) (ril : Ril) : Ril × Except Thrown IccCardStatus :=
  match readCardStatus l p with
  | .error e => (ril, .error e)
  | .ok status =>
    let appIndex := if ril.mPhoneType = l.cdmaPhone then status.cdmaSubscriptionAppIndex
      else status.gsmUmtsSubscriptionAppIndex
    match l.getApplication status.applications appIndex with
    | .error e => (ril, .error e)
    | .ok application =>
      ({ ril with mAid := application.bind IccCardApplication.aid }, .ok status)

end

/-- `getApplication` answers for the positions of the applications that were added and
throws for every other index. -/
structure Documented (l : Telephony σ) : Prop where
  added : ∀ (applications : List IccCardApplication) (i : Nat) (h : i < applications.length),
    l.getApplication applications i = .ok (some applications[i])
  others : ∀ (applications : List IccCardApplication) (i : Int), i < 0 ∨ applications.length ≤ i →
    ¬ Returns (l.getApplication applications i)

/-! ## What a parcel holds -/

/-- An application as the modem sends it. -/
structure SentApplication where
  app_type : Int
  app_state : Int
  perso_substate : Int
  aid : Option String
  app_label : Option String
  pin1_replaced : Int
  pin1 : Int
  pin2 : Int

/-- A card status as the modem sends it, with the applications within the limit. -/
structure SentStatus where
  cardState : Int
  universalPinState : Int
  gsmUmtsSubscriptionAppIndex : Int
  cdmaSubscriptionAppIndex : Int
  applications : List SentApplication

section
variable (l : Telephony σ)

def sentApplication (p : σ) : SentApplication × σ :=
  let (type, p) := l.readInt p
  let (state, p) := l.readInt p
  let (substate, p) := l.readInt p
  let (aid, p) := l.readString p
  let (app_label, p) := l.readString p
  let (pin1_replaced, p) := l.readInt p
  let (pin1, p) := l.readInt p
  let (pin2, p) := l.readInt p
  (⟨type, state, substate, aid, app_label, pin1_replaced, pin1, pin2⟩, p)

def sentApplications : Nat → σ → List SentApplication
  | 0, _ => []
  | n + 1, p => (sentApplication l p).1 :: sentApplications n (sentApplication l p).2

def sentStatus (p : σ) : SentStatus :=
  let (state, p) := l.readInt p
  let (pinState, p) := l.readInt p
  let (gsmIndex, p) := l.readInt p
  let (cdmaIndex, p) := l.readInt p
  let (_, p) := l.readInt p
  let (num, p) := l.readInt p
  ⟨state, pinState, gsmIndex, cdmaIndex, sentApplications l (limitApplications l num).toNat p⟩

/-- The subscription index for the type of the phone. -/
def subscription (ril : Ril) (sent : SentStatus) : Int :=
  if ril.mPhoneType = l.cdmaPhone then sent.cdmaSubscriptionAppIndex else sent.gsmUmtsSubscriptionAppIndex

/-- The application at an index, if there is one. -/
def SentStatus.selected (sent : SentStatus) (i : Int) : Option SentApplication :=
  if 0 ≤ i then sent.applications[i.toNat]? else none

/-- A status is returned, and `mAid` is the AID of the subscribed application, or null. -/
def Answers (ril : Ril) (p : σ) : Prop :=
  Returns (responseIccCardStatus l p ril).2 ∧
    (responseIccCardStatus l p ril).1.mAid =
      ((sentStatus l p).selected (subscription l ril (sentStatus l p))).bind SentApplication.aid

/-- The framework knows the codes of an application. -/
structure Converts (sent : SentApplication) : Prop where
  app_type : Returns (l.appTypeFromRILInt sent.app_type)
  app_state : Returns (l.appStateFromRILInt sent.app_state)
  perso_substate : Returns (l.persoSubstateFromRILInt sent.perso_substate)

/-- The framework knows all codes of a status. -/
structure Known (sent : SentStatus) : Prop where
  cardState : Returns (l.setCardState sent.cardState)
  universalPinState : Returns (l.setUniversalPinState sent.universalPinState)
  applications : ∀ application ∈ sent.applications, Converts l application

end

/-! ## Reading -/

variable {l : Telephony σ}

/-- The conversions stand between the reads, but do not touch the parcel. -/
theorem readApplication_eq (p : σ) : readApplication l p = (do
    let app_type ← l.appTypeFromRILInt (sentApplication l p).1.app_type
    let app_state ← l.appStateFromRILInt (sentApplication l p).1.app_state
    let perso_substate ← l.persoSubstateFromRILInt (sentApplication l p).1.perso_substate
    return (⟨app_type, app_state, perso_substate, (sentApplication l p).1.aid, (sentApplication l p).1.app_label,
      (sentApplication l p).1.pin1_replaced, (sentApplication l p).1.pin1, (sentApplication l p).1.pin2⟩,
      (sentApplication l p).2)) := rfl

theorem readApplication_returns (p : σ) :
    Returns (readApplication l p) ↔ Converts l (sentApplication l p).1 := by
  rw [readApplication_eq, returns_bind]
  constructor
  · rintro ⟨t, ht, hrest⟩
    obtain ⟨s, hs, hrest⟩ := returns_bind.mp hrest
    exact ⟨⟨t, ht⟩, ⟨s, hs⟩, (returns_bind_of fun _ => returns_pure _).mp hrest⟩
  · rintro ⟨⟨t, ht⟩, ⟨s, hs⟩, hsub⟩
    exact ⟨t, ht, returns_bind.mpr ⟨s, hs, (returns_bind_of fun _ => returns_pure _).mpr hsub⟩⟩

theorem readApplication_ok {p : σ} {ca : IccCardApplication × σ} (h : readApplication l p = .ok ca) :
    ca.1.aid = (sentApplication l p).1.aid ∧ ca.2 = (sentApplication l p).2 := by
  rw [readApplication_eq] at h
  obtain ⟨t, -, h⟩ := bind_eq_ok.mp h
  obtain ⟨s, -, h⟩ := bind_eq_ok.mp h
  obtain ⟨sub, -, h⟩ := bind_eq_ok.mp h
  cases h
  exact ⟨rfl, rfl⟩

/-- The loop returns when every application converts. -/
theorem readApplications_returns (n : Nat) (p : σ) (applications : List IccCardApplication) :
    Returns (readApplications l n p applications) ↔ ∀ sent ∈ sentApplications l n p, Converts l sent := by
  induction n generalizing p applications with
  | zero => exact iff_of_true (returns_pure _) nofun
  | succ n ih =>
    rw [readApplications, sentApplications, List.forall_mem_cons, returns_bind, ← readApplication_returns]
    constructor
    · rintro ⟨ca, hca, hrest⟩
      rw [ih, (readApplication_ok hca).2] at hrest
      exact ⟨⟨ca, hca⟩, hrest⟩
    · rintro ⟨⟨ca, hca⟩, hrest⟩
      refine ⟨ca, hca, (ih _ _).mpr ?_⟩
      rw [(readApplication_ok hca).2]
      exact hrest

/-- It adds the applications of the parcel in their order. -/
theorem readApplications_aids {n : Nat} {p : σ} {applications result : List IccCardApplication}
    (h : readApplications l n p applications = .ok result) :
    result.map IccCardApplication.aid =
      applications.map IccCardApplication.aid ++ (sentApplications l n p).map SentApplication.aid := by
  induction n generalizing p applications with
  | zero =>
    cases h
    simp [sentApplications]
  | succ n ih =>
    obtain ⟨ca, hca, hrest⟩ := bind_eq_ok.mp h
    obtain ⟨haid, hp⟩ := readApplication_ok hca
    rw [ih hrest, sentApplications, ← hp]
    simp [haid]

theorem readCardStatus_eq (p : σ) : ∃ (n : Nat) (q : σ) (num : Int),
    (sentStatus l p).applications = sentApplications l n q ∧ readCardStatus l p = (do
      let cardState ← l.setCardState (sentStatus l p).cardState
      let universalPinState ← l.setUniversalPinState (sentStatus l p).universalPinState
      let applications ← readApplications l n q []
      return ⟨cardState, universalPinState, (sentStatus l p).gsmUmtsSubscriptionAppIndex,
        (sentStatus l p).cdmaSubscriptionAppIndex, num, applications⟩) := ⟨_, _, _, rfl, rfl⟩

theorem readCardStatus_returns (p : σ) : Returns (readCardStatus l p) ↔ Known l (sentStatus l p) := by
  obtain ⟨n, q, num, hsent, hread⟩ := readCardStatus_eq (l := l) p
  have happs := readApplications_returns (l := l) n q []
  rw [← hsent] at happs
  rw [hread, returns_bind]
  constructor
  · rintro ⟨c, hc, hrest⟩
    obtain ⟨u, hu, hrest⟩ := returns_bind.mp hrest
    exact ⟨⟨c, hc⟩, ⟨u, hu⟩, happs.mp ((returns_bind_of fun _ => returns_pure _).mp hrest)⟩
  · rintro ⟨⟨c, hc⟩, ⟨u, hu⟩, hall⟩
    exact ⟨c, hc, returns_bind.mpr ⟨u, hu, (returns_bind_of fun _ => returns_pure _).mpr (happs.mpr hall)⟩⟩

/-- The status has the indices of the parcel and the AIDs of its applications. -/
theorem readCardStatus_ok {p : σ} {status : IccCardStatus} (h : readCardStatus l p = .ok status) :
    status.gsmUmtsSubscriptionAppIndex = (sentStatus l p).gsmUmtsSubscriptionAppIndex ∧
    status.cdmaSubscriptionAppIndex = (sentStatus l p).cdmaSubscriptionAppIndex ∧
    status.applications.map IccCardApplication.aid =
      (sentStatus l p).applications.map SentApplication.aid := by
  obtain ⟨n, q, num, hsent, hread⟩ := readCardStatus_eq (l := l) p
  rw [hread] at h
  obtain ⟨c, -, h⟩ := bind_eq_ok.mp h
  obtain ⟨u, -, h⟩ := bind_eq_ok.mp h
  obtain ⟨applications, happs, h⟩ := bind_eq_ok.mp h
  cases h
  exact ⟨rfl, rfl, by rw [readApplications_aids happs, hsent]; rfl⟩

/-! ## The answer -/

/-- A call of `getApplication` returns for the positions only. -/
theorem getApplication_returns (hl : Documented l) (applications : List IccCardApplication) (i : Int) :
    Returns (l.getApplication applications i) ↔ 0 ≤ i ∧ i < applications.length := by
  constructor
  · intro h
    by_contra hn
    exact hl.others applications i (by omega) h
  · rintro ⟨h0, hlt⟩
    have hadded := hl.added applications i.toNat (by omega)
    rw [Int.toNat_of_nonneg h0] at hadded
    exact ⟨_, hadded⟩

/-- The whole call for a status that was read. -/
theorem response_of_read (hl : Documented l) (ril : Ril) {p : σ} {status : IccCardStatus}
    (h : readCardStatus l p = .ok status) :
    Answers l ril p ↔ 0 ≤ subscription l ril (sentStatus l p) ∧
      subscription l ril (sentStatus l p) < (sentStatus l p).applications.length := by
  obtain ⟨hgsm, hcdma, haids⟩ := readCardStatus_ok h
  have hindex : (if ril.mPhoneType = l.cdmaPhone then status.cdmaSubscriptionAppIndex
      else status.gsmUmtsSubscriptionAppIndex) = subscription l ril (sentStatus l p) := by
    rw [hgsm, hcdma, subscription]
  have hlen : status.applications.length = (sentStatus l p).applications.length := by
    simpa using congrArg List.length haids
  unfold Answers responseIccCardStatus
  simp only [h, hindex]
  generalize subscription l ril (sentStatus l p) = i
  rw [← hlen, ← getApplication_returns hl]
  cases hg : l.getApplication status.applications i with
  | error e => exact iff_of_false (fun ha => not_returns_error e ha.1) (not_returns_error e)
  | ok application =>
    refine iff_of_true ⟨returns_ok _, ?_⟩ (returns_ok _)
    obtain ⟨h0, hlt⟩ := (getApplication_returns hl _ _).mp ⟨_, hg⟩
    have hadded := hl.added status.applications i.toNat (by omega)
    rw [Int.toNat_of_nonneg h0, hg] at hadded
    cases hadded
    have haid := congrArg (·[i.toNat]?) haids
    simp only [List.getElem?_map] at haid
    rw [List.getElem?_eq_getElem (by omega)] at haid
    rw [SentStatus.selected, if_pos h0]
    cases hs : (sentStatus l p).applications[i.toNat]? with
    | none => rw [hs] at haid; cases haid
    | some sent =>
      rw [hs] at haid
      exact Option.some.inj haid

/-- For every parcel and both types of phones, a status is returned with the right AID
remembered exactly when the framework knows its codes and the subscription index is the
position of an application within the limit. -/
theorem answers_iff (l : Telephony σ) (hl : Documented l) (ril : Ril) (p : σ) :
    Answers l ril p ↔ Known l (sentStatus l p) ∧ 0 ≤ subscription l ril (sentStatus l p) ∧
      subscription l ril (sentStatus l p) < (sentStatus l p).applications.length := by
  rw [← readCardStatus_returns]
  cases h : readCardStatus l p with
  | error e =>
    refine iff_of_false (fun ha => ?_) fun hk => not_returns_error e hk.1
    have hthrown := ha.1
    rw [responseIccCardStatus, h] at hthrown
    exact not_returns_error e hthrown
  | ok status =>
    rw [response_of_read hl ril h, and_iff_right (returns_ok _)]

/-! ## A parcel of words -/

/-- A parcel as its values in their order; behind the end they read as 0 and null. -/
abbrev Words := List (Int ⊕ Option String)

def Words.readInt : Words → Int × Words
  | .inl n :: rest => (n, rest)
  | _ :: rest => (0, rest)
  | [] => (0, [])

def Words.readString : Words → Option String × Words
  | .inr text :: rest => (text, rest)
  | _ :: rest => (none, rest)
  | [] => (none, [])

/-- Codes from zero on, up to the last enumerator. -/
def ordinal (last : Nat) (code : Int) : Except Thrown Nat :=
  if 0 ≤ code ∧ code ≤ last then .ok code.toNat else .error .illegalArgument

def stockTelephony : Telephony Words where
  readInt := Words.readInt
  readString := Words.readString
  setCardState := ordinal 2
  setUniversalPinState := ordinal 5
  appTypeFromRILInt := ordinal 4
  appStateFromRILInt := ordinal 5
  persoSubstateFromRILInt := ordinal 24
  getApplication applications i :=
    if 0 ≤ i then (index applications i.toNat).map some else .error .indexOutOfBounds
  cardMaxApps := 8
  cdmaPhone := 2

theorem stockTelephony_documented : Documented stockTelephony := by
  constructor
  · intro applications i h
    change (if 0 ≤ (i : Int) then (index applications (i : Int).toNat).map some
      else .error .indexOutOfBounds) = _
    rw [if_pos (by omega), Int.toNat_natCast, index_lt h]
    rfl
  · intro applications i hi
    change ¬ Returns (if 0 ≤ i then (index applications i.toNat).map some else .error .indexOutOfBounds)
    split
    · have hnone : applications[i.toNat]? = none := List.getElem?_eq_none (by omega)
      rw [index, hnone]
      exact not_returns_error _
    · exact not_returns_error _

/-- A card with one application, subscribed for GSM. -/
def oneApplication : Words := [.inl 1, .inl 0, .inl 0, .inl (-1), .inl (-1), .inl 1,
  .inl 2, .inl 5, .inl 2, .inr (some "a0000000871002"), .inr (some "USIM"), .inl 0, .inl 3, .inl 2]

theorem one_application_answers : Answers stockTelephony ⟨1, none⟩ oneApplication := by
  refine (answers_iff stockTelephony stockTelephony_documented ⟨1, none⟩ oneApplication).mpr
    ⟨⟨⟨1, by decide⟩, ⟨0, by decide⟩, ?_⟩, by decide, by decide⟩
  intro sent hsent
  obtain rfl := List.mem_singleton.mp hsent
  exact ⟨⟨2, by decide⟩, ⟨5, by decide⟩, ⟨2, by decide⟩⟩

/-- No card: no applications, and -1 for both indices. -/
theorem absent_card_throws :
    ¬ Answers stockTelephony ⟨1, none⟩ [.inl 0, .inl 0, .inl (-1), .inl (-1), .inl (-1), .inl 0] := by
  rintro ⟨⟨status, h⟩, -⟩
  exact absurd h nofun

end HuaweiQualcommRIL
