import Y210.Java

/-!
# The answer to a data call

`libril` passes the strings of a `SETUP_DATA_CALL` response on, without the pointers that
cannot be strings; `DataConnection` decodes the array and repairs one malformed shape of
it. The laws below say which arrays it decodes.
-/
namespace DataConnection

open Java

/-! ## libril -/

def sanitizeRilString (value : BitVec 32) : Option (BitVec 32) :=
  if value = 0 then none
  else if value < 4096 then none
  else some value

/-- What the other side of the parcel reads; `text` is the string at an address. -/
def responseStrings (text : BitVec 32 → String) (response : List (BitVec 32)) : List (Option String) :=
  response.map fun p_cur => (sanitizeRilString p_cur).map text

/-! ## DataConnection -/

/-- The members that a response sets. -/
structure Setup where
  cid : Int
  interfaceName : Option String
  ipAddress : Option String
  gatewayAddress : Option String
  dnsServers : Option String × Option String
  deriving DecidableEq, Repr

/-- The framework around the patched lines: `Character.digit`, `SystemProperties.get`, the
interface of the branch for Samsung's CDMA devices where its test holds, and the addresses
that the last branch takes from a response and its property names. -/
structure Framework where
  digit : Char → Option Nat
  get : String → Except Thrown String
  samsungCdma : Option (Option String)
  lastBranch : List (Option String) → String → Except Thrown (Option String × Option String)

/-- `"net." + interfaceName + "."`. -/
def netOf (interfaceName : Option String) : String := "net." ++ interfaceName.getD "null" ++ "."

def malformedQcomDataCall (response : List (Option String)) : Bool :=
  6 ≤ response.length && response[0]? = some none && response[4]?.join.isSome && response[5]?.join.isSome

section
variable (f : Framework) (response : List (Option String))

def decodeCid : Except Thrown Int :=
  if malformedQcomDataCall response then .ok 0
  else do
    let cid ← index response 0
    parseInt f.digit cid

/-- The three branches: the interface, its address and its gateway. -/
def decodeInterface : Except Thrown (Option String × Option String × Option String) :=
  match f.samsungCdma with
  | some interfaceName => do
    let ipAddress ← f.get (netOf interfaceName ++ "local-ip")
    let gatewayAddress ← f.get (netOf interfaceName ++ "remote-ip")
    return (interfaceName, some ipAddress, some gatewayAddress)
  | none =>
    if malformedQcomDataCall response then do
      let interfaceName ← index response 4
      let ipAddress ← index response 5
      let gatewayAddress ← f.get (netOf interfaceName ++ "gw")
      return (interfaceName, ipAddress, some gatewayAddress)
    else do
      let interfaceName ← index response 1
      let addresses ← f.lastBranch response (netOf interfaceName)
      return (interfaceName, addresses)

/-- `if (dns.length > i) dnsServers[i] = dns[i]`. -/
def replaceServer (dns : List String) (i : Nat) (server : Option String) : Except Thrown (Option String) :=
  if i < dns.length then do
    let address ← index dns i
    return some address
  else .ok server

/-- The name servers of a malformed response, where the properties have none. -/
def fallBackDns (dnsServers : Option String × Option String) : Except Thrown (Option String × Option String) :=
  if dnsServers.1.getD "" = "" ∧ 6 < response.length then do
    match ← index response 6 with
    | none => return dnsServers
    | some text =>
      let first ← replaceServer (split ' ' text) 0 dnsServers.1
      let second ← replaceServer (split ' ' text) 1 dnsServers.2
      return (first, second)
  else .ok dnsServers

def fallBackGateway (gatewayAddress : Option String) : Except Thrown (Option String) :=
  if gatewayAddress.getD "" = "" ∧ 7 < response.length then index response 7 else .ok gatewayAddress

/-- The decoding in `onSetupConnectionCompleted`. -/
def onSetupConnectionCompleted (s : Setup) : Except Thrown Setup :=
  if response.length < 2 then .ok s
  else do
    let cid ← decodeCid f response
    if response.length ≤ 2 then return { s with cid := cid }
    else
      let (interfaceName, ipAddress, gatewayAddress) ← decodeInterface f response
      let dns1 ← f.get (netOf interfaceName ++ "dns1")
      let dns2 ← f.get (netOf interfaceName ++ "dns2")
      if malformedQcomDataCall response then
        let dnsServers ← fallBackDns response (some dns1, some dns2)
        let gatewayAddress ← fallBackGateway response gatewayAddress
        return ⟨cid, interfaceName, ipAddress, gatewayAddress, dnsServers⟩
      else return ⟨cid, interfaceName, ipAddress, gatewayAddress, (some dns1, some dns2)⟩

/-! ## Which arrays are decoded -/

/-- The array has the shape that is repaired, or its first entry is a number. -/
def CidRead : Prop :=
  malformedQcomDataCall response = true ∨
    ∃ text n, response[0]? = some (some text) ∧ intValue f.digit text = some n

/-- The properties of an interface can be asked for. -/
def Taken (interfaceName : Option String) (keys : List String) : Prop :=
  ∀ key ∈ keys, Returns (f.get (netOf interfaceName ++ key))

/-- The interface that the properties are asked for. -/
def interfaceOf : Option String :=
  match f.samsungCdma with
  | some interfaceName => interfaceName
  | none => if malformedQcomDataCall response then response[4]?.join else response[1]?.join

/-- The branch of the addresses ends without an exception. -/
def AddressesTaken : Prop :=
  match f.samsungCdma with
  | some interfaceName => Taken f interfaceName ["local-ip", "remote-ip"]
  | none =>
    if malformedQcomDataCall response then Taken f response[4]?.join ["gw"]
    else Returns (f.lastBranch response (netOf response[1]?.join))

/-- The array can be decoded: its cid can be read, and behind two entries the properties of
its interface can be asked for. -/
structure Decodable : Prop where
  cid : CidRead f response
  properties : 2 < response.length → AddressesTaken f response ∧ Taken f (interfaceOf f response) ["dns1", "dns2"]

end

/-! ## The parts of the decoding -/

variable {f : Framework} {response : List (Option String)}

theorem malformed_length (h : malformedQcomDataCall response = true) : 6 ≤ response.length := by
  simp only [malformedQcomDataCall, Bool.and_eq_true, decide_eq_true_eq] at h
  exact h.1.1.1

theorem index_join {i : Nat} (h : i < response.length) : index response i = .ok response[i]?.join := by
  rw [index_lt h, List.getElem?_eq_getElem h]
  rfl

theorem decodeCid_returns (h : 2 ≤ response.length) : Returns (decodeCid f response) ↔ CidRead f response := by
  unfold decodeCid CidRead
  by_cases hm : malformedQcomDataCall response = true
  · simp [hm]
  · have h0 : 0 < response.length := by omega
    rw [if_neg hm, returns_bind, or_iff_right hm]
    simp only [index_lt h0, List.getElem?_eq_getElem h0, Except.ok.injEq, exists_eq_left', Option.some.injEq]
    exact parseInt_returns

@[simp] theorem taken_nil (interfaceName : Option String) : Taken f interfaceName [] := nofun

@[simp] theorem taken_cons (interfaceName : Option String) (key : String) (keys : List String) :
    Taken f interfaceName (key :: keys) ↔
      Returns (f.get (netOf interfaceName ++ key)) ∧ Taken f interfaceName keys := List.forall_mem_cons

theorem decodeInterface_returns (h : 2 ≤ response.length) :
    Returns (decodeInterface f response) ↔ AddressesTaken f response := by
  unfold decodeInterface AddressesTaken
  cases f.samsungCdma with
  | some interfaceName =>
    simp only [taken_cons, taken_nil, and_true]
    rw [returns_bind]
    constructor
    · rintro ⟨ip, hip, hrest⟩
      exact ⟨⟨ip, hip⟩, (returns_bind_of fun _ => returns_pure _).mp hrest⟩
    · rintro ⟨⟨ip, hip⟩, hgw⟩
      exact ⟨ip, hip, (returns_bind_of fun _ => returns_pure _).mpr hgw⟩
  | none =>
    dsimp only
    split
    · rename_i hm
      have hlen := malformed_length hm
      rw [index_join (by omega), index_join (by omega), ok_bind, ok_bind]
      simp only [taken_cons, taken_nil, and_true]
      exact returns_bind_of fun _ => returns_pure _
    · rw [index_join (by omega), ok_bind]
      exact returns_bind_of fun _ => returns_pure _

/-- The interface is the one whose properties are asked for. -/
theorem decodeInterface_name {t : Option String × Option String × Option String} (h : 2 ≤ response.length)
    (ht : decodeInterface f response = .ok t) : t.1 = interfaceOf f response := by
  unfold decodeInterface at ht
  unfold interfaceOf
  cases hs : f.samsungCdma with
  | some interfaceName =>
    simp only [hs] at ht
    obtain ⟨ip, -, ht⟩ := bind_eq_ok.mp ht
    obtain ⟨gw, -, ht⟩ := bind_eq_ok.mp ht
    cases ht
    rfl
  | none =>
    simp only [hs] at ht
    dsimp only
    split at ht
    · rename_i hm
      have hlen := malformed_length hm
      rw [if_pos hm]
      rw [index_join (by omega), index_join (by omega), ok_bind, ok_bind] at ht
      obtain ⟨gw, -, ht⟩ := bind_eq_ok.mp ht
      cases ht
      rfl
    · rename_i hm
      rw [if_neg hm]
      rw [index_join (by omega), ok_bind] at ht
      obtain ⟨addresses, -, ht⟩ := bind_eq_ok.mp ht
      cases ht
      rfl

theorem replaceServer_returns (dns : List String) (i : Nat) (server : Option String) :
    Returns (replaceServer dns i server) := by
  unfold replaceServer
  split
  · rename_i h
    rw [index_lt h]
    exact returns_ok _
  · exact returns_ok _

/-- Both fallbacks test the length before they read. -/
theorem fallBackDns_returns (dnsServers : Option String × Option String) :
    Returns (fallBackDns response dnsServers) := by
  unfold fallBackDns
  split
  · rename_i h
    rw [index_join h.2, ok_bind]
    cases response[6]?.join with
    | none => exact returns_pure _
    | some text =>
      obtain ⟨first, hfirst⟩ := replaceServer_returns (split ' ' text) 0 dnsServers.1
      obtain ⟨second, hsecond⟩ := replaceServer_returns (split ' ' text) 1 dnsServers.2
      exact returns_bind.mpr ⟨first, hfirst, returns_bind.mpr ⟨second, hsecond, returns_pure _⟩⟩
  · exact returns_ok _

theorem fallBackGateway_returns (gatewayAddress : Option String) :
    Returns (fallBackGateway response gatewayAddress) := by
  unfold fallBackGateway
  split
  · rename_i h
    rw [index_lt h.2]
    exact returns_ok _
  · exact returns_ok _

/-! ## The whole decoding -/

/-- An array with at least two entries is decoded exactly when it is decodable. -/
theorem onSetupConnectionCompleted_returns (h : 2 ≤ response.length) (s : Setup) :
    Returns (onSetupConnectionCompleted f response s) ↔ Decodable f response := by
  have hcid := decodeCid_returns (f := f) h
  unfold onSetupConnectionCompleted
  rw [if_neg (by omega)]
  by_cases hlen : response.length ≤ 2
  · simp only [if_pos hlen]
    rw [returns_bind_of fun _ => returns_pure _, hcid]
    exact ⟨fun hc => ⟨hc, fun hn => absurd hlen (by omega)⟩, fun hd => hd.cid⟩
  · simp only [if_neg hlen]
    rw [returns_bind]
    constructor
    · rintro ⟨cid, hc, hrest⟩
      obtain ⟨t, ht, hrest⟩ := returns_bind.mp hrest
      obtain ⟨dns1, hdns1, hrest⟩ := returns_bind.mp hrest
      obtain ⟨dns2, hdns2, -⟩ := returns_bind.mp hrest
      rw [decodeInterface_name h ht] at hdns1 hdns2
      refine ⟨hcid.mp ⟨cid, hc⟩, fun _ => ⟨(decodeInterface_returns h).mp ⟨t, ht⟩, ?_⟩⟩
      simp only [taken_cons, taken_nil, and_true]
      exact ⟨⟨dns1, hdns1⟩, dns2, hdns2⟩
    · intro hd
      obtain ⟨cid, hc⟩ := hcid.mpr hd.cid
      obtain ⟨haddresses, hdns⟩ := hd.properties (by omega)
      obtain ⟨t, ht⟩ := (decodeInterface_returns h).mpr haddresses
      simp only [taken_cons, taken_nil, and_true, ← decodeInterface_name h ht] at hdns
      obtain ⟨⟨dns1, hdns1⟩, dns2, hdns2⟩ := hdns
      refine ⟨cid, hc, returns_bind.mpr ⟨t, ht, returns_bind.mpr ⟨dns1, hdns1,
        returns_bind.mpr ⟨dns2, hdns2, ?_⟩⟩⟩⟩
      obtain ⟨dns, hfall⟩ : Returns (fallBackDns response (some dns1, some dns2)) := fallBackDns_returns _
      obtain ⟨gw, hgw⟩ : Returns (fallBackGateway response t.2.2) := fallBackGateway_returns _
      split
      · exact returns_bind.mpr ⟨dns, hfall, returns_bind.mpr ⟨gw, hgw, returns_pure _⟩⟩
      · exact returns_pure _

/-- A null first entry outside the repaired shape reaches `parseInt`. -/
theorem null_cid_thrown (h : 2 ≤ response.length) (hnull : response[0]? = some none)
    (hm : malformedQcomDataCall response = false) (s : Setup) :
    onSetupConnectionCompleted f response s = .error (.numberFormat none) := by
  have h0 : index response 0 = .ok none := by rw [index, hnull]
  unfold onSetupConnectionCompleted decodeCid
  rw [if_neg (by omega), hm, if_neg (by decide), h0]
  rfl

theorem sanitizeRilString_none (value : BitVec 32) : sanitizeRilString value = none ↔ value < 4096 := by
  unfold sanitizeRilString
  split
  · rename_i hz
    rw [hz]
    exact iff_of_true rfl (by decide)
  · split
    · rename_i hlow
      exact iff_of_true rfl hlow
    · rename_i hlow
      exact iff_of_false nofun hlow

/-- The entries that libril drops are those of the low addresses. -/
theorem responseStrings_null (text : BitVec 32 → String) (response : List (BitVec 32)) (i : Nat) :
    (responseStrings text response)[i]? = some none ↔ ∃ p_cur, response[i]? = some p_cur ∧ p_cur < 4096 := by
  unfold responseStrings
  rw [List.getElem?_map]
  cases response[i]? with
  | none => simp
  | some p_cur =>
    simp only [Option.map_some, Option.some.injEq, Option.map_eq_none_iff, exists_eq_left']
    exact sanitizeRilString_none p_cur

/-- Whatever pointers the vendor's array holds, its decoding ends without an exception
exactly when libril leaves a decodable array. -/
theorem decoding_ends_iff (f : Framework) (text : BitVec 32 → String) (response : List (BitVec 32))
    (h : 2 ≤ response.length) (s : Setup) :
    Returns (onSetupConnectionCompleted f (responseStrings text response) s) ↔
      Decodable f (responseStrings text response) := by
  have hlen : (responseStrings text response).length = response.length := List.length_map ..
  exact onSetupConnectionCompleted_returns (hlen ▸ h) s

/-- Property keys of at most 31 characters, and no property set. -/
def stockFramework : Framework where
  digit c := if '0' ≤ c ∧ c ≤ '9' then some (c.toNat - '0'.toNat) else none
  get key := if 31 < key.length then .error .illegalArgument else .ok ""
  samsungCdma := none
  lastBranch response _ := .ok (response[2]?.join, some "")

def unset : Setup := ⟨0, none, none, none, (none, none)⟩

/-- The strings of a vendor's array. -/
def vendorText (p_cur : BitVec 32) : String := if p_cur = 0x8000 then "rmnet0" else "10.0.0.2"

/-- The shape that is repaired: six entries, the last two of them strings. -/
theorem repaired_shape_ends : Returns (onSetupConnectionCompleted stockFramework
    (responseStrings vendorText [2, 0, 0, 0, 0x8000, 0x9000]) unset) := by
  refine (decoding_ends_iff stockFramework vendorText _ (by decide) unset).mpr
    ⟨.inl (by decide +kernel), fun _ => ⟨?_, ?_⟩⟩
  · change Taken stockFramework (some "rmnet0") ["gw"]
    simp only [taken_cons, taken_nil, and_true]
    exact ⟨"", by decide +kernel⟩
  · change Taken stockFramework (some "rmnet0") ["dns1", "dns2"]
    simp only [taken_cons, taken_nil, and_true]
    exact ⟨⟨"", by decide +kernel⟩, "", by decide +kernel⟩

/-- Two entries, the first of them dropped by libril. -/
theorem dropped_cid_throws : ¬ Returns (onSetupConnectionCompleted stockFramework
    (responseStrings vendorText [2, 0x8000]) unset) := by
  rw [null_cid_thrown (by decide) (by decide) (by decide)]
  exact not_returns_error _

end DataConnection
