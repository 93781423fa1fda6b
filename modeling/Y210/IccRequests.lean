import Y210.HuaweiQualcommRIL
import Y210.Run

/-!
# The SIM requests

Each request is written to a parcel, behind its number; those to the SIM carry `mAid`. A card status that
is not answered leaves `mAid` as it was, so the requests after it go to the application that the last
answered one subscribed.
-/
namespace IccRequests

open Java HuaweiQualcommRIL

variable {σ : Type}

/-! ## The requests -/

inductive RequestNumber where
  | deactivateDataCall | getImsi | simIo | queryFacilityLock | setFacilityLock
  deriving DecidableEq, Repr

/-- A request on its way to `rild`. -/
structure RILRequest where
  mRequest : RequestNumber
  mp : Words
  deriving DecidableEq

def RILRequest.obtain (number : RequestNumber) : RILRequest := ⟨number, []⟩

def RILRequest.writeInt (rr : RILRequest) (n : Int) : RILRequest := { rr with mp := rr.mp ++ [.inl n] }

def RILRequest.writeString (rr : RILRequest) (text : Option String) : RILRequest :=
  { rr with mp := rr.mp ++ [.inr text] }

def deactivateDataCall (cid : Int) : RILRequest :=
  ((RILRequest.obtain .deactivateDataCall).writeInt 2).writeString (toString cid) |>.writeString "0"

def getIMSI (ril : Ril) : RILRequest := ((RILRequest.obtain .getImsi).writeInt 1).writeString ril.mAid

def iccIO (command fileid : Int) (path : Option String) (p1 p2 p3 : Int) (data pin2 : Option String) (ril : Ril) :
    RILRequest :=
  let rr := (((RILRequest.obtain .simIo).writeInt command).writeInt fileid).writeString path
  let rr := ((rr.writeInt p1).writeInt p2).writeInt p3
  ((rr.writeString data).writeString pin2).writeString ril.mAid

def queryFacilityLock (facility password : Option String) (serviceClass : Int) (ril : Ril) : RILRequest :=
  let rr := ((RILRequest.obtain .queryFacilityLock).writeInt 4).writeString facility
  ((rr.writeString password).writeString (toString serviceClass)).writeString ril.mAid

def setFacilityLock (facility : Option String) (lockState : Bool) (password : Option String) (serviceClass : Int)
    (ril : Ril) : RILRequest :=
  let rr := ((RILRequest.obtain .setFacilityLock).writeInt 5).writeString facility
  let rr := (rr.writeString (if lockState then "1" else "0")).writeString password
  (rr.writeString (toString serviceClass)).writeString ril.mAid

/-- What the framework asks for. -/
inductive Request where
  | deactivateDataCall (cid : Int)
  | getIMSI
  | iccIO (command fileid : Int) (path : Option String) (p1 p2 p3 : Int) (data pin2 : Option String)
  | queryFacilityLock (facility password : Option String) (serviceClass : Int)
  | setFacilityLock (facility : Option String) (lockState : Bool) (password : Option String) (serviceClass : Int)

def Request.write (ril : Ril) : Request → RILRequest
  | .deactivateDataCall cid => IccRequests.deactivateDataCall cid
  | .getIMSI => IccRequests.getIMSI ril
  | Request.iccIO command fileid path p1 p2 p3 data pin2 => IccRequests.iccIO command fileid path p1 p2 p3 data pin2 ril
  | .queryFacilityLock facility password serviceClass =>
    IccRequests.queryFacilityLock facility password serviceClass ril
  | .setFacilityLock facility lockState password serviceClass =>
    IccRequests.setFacilityLock facility lockState password serviceClass ril

/-! ## The phone -/

/-- A card status of the modem, a request of the framework, or a change of the phone's type. -/
inductive Event (σ : Type) where
  | cardStatus (p : σ)
  | request (r : Request)
  | setPhoneType (phoneType : Int)

/-- The members and what was sent, the last request first. -/
structure Phone where
  ril : Ril
  sent : List RILRequest

def step (l : Telephony σ) (phone : Phone) : Event σ → Phone
  | .cardStatus p => { phone with ril := (responseIccCardStatus l p phone.ril).1 }
  | .request r => { phone with sent := r.write phone.ril :: phone.sent }
  | .setPhoneType phoneType => { phone with ril := { phone.ril with mPhoneType := phoneType } }

/-! ## What the requests name -/

/-- The status is answered: the framework knows its codes, and an application is subscribed. -/
def Answerable (l : Telephony σ) (phoneType : Int) (sent : SentStatus) : Prop :=
  Known l sent ∧ 0 ≤ subscription l ⟨phoneType, none⟩ sent ∧
    subscription l ⟨phoneType, none⟩ sent < sent.applications.length

/-- The AID of the application that a status subscribes. -/
def subscribed (l : Telephony σ) (phoneType : Int) (sent : SentStatus) : Option String :=
  (sent.selected (subscription l ⟨phoneType, none⟩ sent)).bind SentApplication.aid

/-- Strings behind their number. -/
def counted (texts : List (Option String)) : Words := .inl texts.length :: texts.map .inr

/-- The parcel that a request is to have: its own arguments, and the AID where it is for the SIM. -/
def Request.parcel (aid : Option String) : Request → RILRequest
  | .deactivateDataCall cid => ⟨.deactivateDataCall, counted [some (toString cid), some "0"]⟩
  | .getIMSI => ⟨.getImsi, counted [aid]⟩
  | Request.iccIO command fileid path p1 p2 p3 data pin2 =>
    ⟨.simIo, [.inl command, .inl fileid, .inr path, .inl p1, .inl p2, .inl p3, .inr data, .inr pin2, .inr aid]⟩
  | .queryFacilityLock facility password serviceClass =>
    ⟨.queryFacilityLock, counted [facility, password, some (toString serviceClass), aid]⟩
  | .setFacilityLock facility lockState password serviceClass =>
    ⟨.setFacilityLock,
      counted [facility, some (if lockState then "1" else "0"), password, some (toString serviceClass), aid]⟩

open Classical in
/-- The requests in their order, each with the AID of the last status that was answered. -/
noncomputable def expected (l : Telephony σ) (phoneType : Int) (aid : Option String) : List (Event σ) → List RILRequest
  | [] => []
  | .cardStatus p :: rest =>
    if Answerable l phoneType (sentStatus l p) then
      expected l phoneType (subscribed l phoneType (sentStatus l p)) rest
    else expected l phoneType aid rest
  | .request r :: rest => r.parcel aid :: expected l phoneType aid rest
  | .setPhoneType phoneType :: rest => expected l phoneType aid rest

section
variable {l : Telephony σ}

theorem subscription_type (ril : Ril) (sent : SentStatus) :
    subscription l ⟨ril.mPhoneType, none⟩ sent = subscription l ril sent := rfl

/-- A status is answered with the right AID, or it changes nothing. -/
theorem response_cases (hl : Documented l) (ril : Ril) (p : σ) :
    Answerable l ril.mPhoneType (sentStatus l p) ∧
        (responseIccCardStatus l p ril).1 = { ril with mAid := subscribed l ril.mPhoneType (sentStatus l p) } ∨
      ¬ Answerable l ril.mPhoneType (sentStatus l p) ∧ (responseIccCardStatus l p ril).1 = ril := by
  have hiff : Answers l ril p ↔ Answerable l ril.mPhoneType (sentStatus l p) := answers_iff l hl ril p
  by_cases ha : Answers l ril p
  · refine .inl ⟨hiff.mp ha, ?_⟩
    have haid := ha.2
    have htype : (responseIccCardStatus l p ril).1.mPhoneType = ril.mPhoneType := by
      unfold responseIccCardStatus
      split
      · rfl
      · dsimp only
        split <;> rfl
    generalize (responseIccCardStatus l p ril).1 = after at haid htype
    obtain ⟨phoneType, aid⟩ := after
    obtain rfl : phoneType = ril.mPhoneType := htype
    rw [subscribed, subscription_type, ← haid]
  · refine .inr ⟨fun h => ha (hiff.mpr h), ?_⟩
    cases hread : readCardStatus l p with
    | error e => rw [responseIccCardStatus, hread]
    | ok status =>
      have hrange := (response_of_read hl ril hread).not.mp ha
      obtain ⟨hgsm, hcdma, haids⟩ := readCardStatus_ok hread
      have hlen : status.applications.length = (sentStatus l p).applications.length := by
        simpa using congrArg List.length haids
      rw [← hlen, ← getApplication_returns hl, subscription, ← hgsm, ← hcdma] at hrange
      rw [responseIccCardStatus, hread]
      dsimp only
      split
      · rfl
      · rename_i application happ
        exact absurd ⟨application, happ⟩ hrange

/-- What the code writes for a request. -/
theorem write_parcel (ril : Ril) (r : Request) : r.write ril = r.parcel ril.mAid := by
  cases r with
  | deactivateDataCall cid => rfl
  | getIMSI => rfl
  | iccIO command fileid path p1 p2 p3 data pin2 => rfl
  | queryFacilityLock facility password serviceClass => rfl
  | setFacilityLock facility lockState password serviceClass => cases lockState <;> rfl

/-- From any state of the phone. -/
theorem exec_sent (hl : Documented l) (events : List (Event σ)) (phoneType : Int) (aid : Option String)
    (sent : List RILRequest) :
    (Run.exec (step l) ⟨⟨phoneType, aid⟩, sent⟩ events).sent = (expected l phoneType aid events).reverse ++ sent := by
  induction events generalizing phoneType aid sent with
  | nil => rfl
  | cons event rest ih =>
    rw [Run.exec_cons]
    cases event with
    | cardStatus p =>
      rw [step, expected]
      rcases response_cases hl ⟨phoneType, aid⟩ p with ⟨hanswered, hril⟩ | ⟨hunanswered, hril⟩
      · rw [hril, if_pos hanswered]
        exact ih _ _ _
      · rw [hril, if_neg hunanswered]
        exact ih _ _ _
    | request r =>
      rw [step, expected, write_parcel, ih, List.reverse_cons, List.append_assoc, List.singleton_append]
    | setPhoneType phoneType => exact ih _ _ _

/-- From the start of the telephony process on, the requests are sent in their order, each with its own
arguments and the AID that the last answered status subscribed, null before there was one. -/
theorem requests_name_last_answered (hl : Documented l) (phoneType : Int) (events : List (Event σ)) :
    (Run.exec (step l) ⟨⟨phoneType, none⟩, []⟩ events).sent.reverse = expected l phoneType none events := by
  have hsent := exec_sent hl events phoneType none []
  rw [hsent, List.append_nil, List.reverse_reverse]

end

/-- A card is read and then taken out. -/
def cardRemoved : List (Event Words) :=
  [.cardStatus oneApplication, .cardStatus [.inl 0, .inl 0, .inl (-1), .inl (-1), .inl (-1), .inl 0], .request .getIMSI]

theorem requests_name_last_answered_removed :
    (Run.exec (step stockTelephony) ⟨⟨1, none⟩, []⟩ cardRemoved).sent.reverse =
      expected stockTelephony 1 none cardRemoved :=
  requests_name_last_answered stockTelephony_documented 1 cardRemoved

/-- The request names the card that is gone. -/
example : (Run.exec (step stockTelephony) ⟨⟨1, none⟩, []⟩ cardRemoved).sent =
    [⟨.getImsi, [.inl 1, .inr (some "a0000000871002")]⟩] := by
  decide

end IccRequests
