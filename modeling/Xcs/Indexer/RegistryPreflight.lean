import Xcs.Indexer.LedgerResponse
import Xcs.Indexer.ProfilePreflight
import Xcs.Run.Program

/-!
# The registry account

A source is used only if the registry account of the profile was a black hole at activation: nothing
can sign for it any more.  `preflight` asks for the account and, page by page, for the objects it
owns; what the server answers is not trusted, so that the loop over the pages keeps the markers it
has seen and counts its requests.

* `IsAccountRoot`, `IsPage` and `IsPaging` say what the server has to answer, `IsBlackholed` what
  has to hold of the account and the objects of all pages together.
* `ensures_getAllAccountObjects`: the loop returns the objects of a paging, and nothing otherwise.
* `registryStage_blackholed`: the stage ends after at most 1001 requests, and passes exactly on an
  account, a paging and a black hole; how the objects are divided over pages makes no difference.
-/

namespace Xcs
namespace Indexer

open Js Json Core

namespace ProfilePreflight

/-! ## The account -/

/-- `XRPL_ACCOUNT_ZERO` -/
def xrplAccountZero : JsString := js "rrrrrrrrrrrrrrrrrrrrrhoLvTp"

/-- `XRPL_ACCOUNT_ONE` -/
def xrplAccountOne : JsString := js "rrrrrrrrrrrrrrrrrrrrBZbvji"

/-- `LSF_DISABLE_MASTER` -/
def lsfDisableMaster : ℕ := 0x00100000

/-- `LSF_DEPOSIT_AUTH` -/
def lsfDepositAuth : ℕ := 0x01000000

/-- `LSF_REQUIRE_DEST_TAG` -/
def lsfRequireDestTag : ℕ := 0x00020000

/-- `(flags & flag) !== 0` -/
def isSet (flags flag : ℕ) : Bool := flags &&& flag != 0

/-- `Object.hasOwn(value, key)`, and the value. -/
def ownMember (members : Members) (key : JsString) : List JsValue :=
  (members.lookup key).toList

/-- `signerLists` -/
def signerLists (result accountData : Members) : Except Thrown (List JsValue) := do
  let candidates := ownMember result (js "signer_lists")
    ++ ownMember accountData (js "signer_lists")
  let lists ← candidates.mapM fun candidate =>
    readItems candidate (js "account_info signer_lists must be an array when present")
  pure lists.flatten

/-- `classicAddress` -/
def classicAddress (P : Platform) (value : JsValue) (label : JsString) : Except Thrown JsString :=
  match value with
  | .str s =>
      if P.isValidClassicAddress s then .ok s
      else responseInvalid (label ++ js " must be a classic XRPL address")
  | _ => responseInvalid (label ++ js " must be a classic XRPL address")

/-- `RegistryAccountRoot` -/
structure RegistryAccountRoot where
  result : Members
  accountData : Members
  flags : ℕ

/-- `sourceFailure('SOURCE_ACTIVATION_MISMATCH', message)` -/
def activationMismatch (message : JsString) : Thrown :=
  .source .activationMismatch message

/-- `registryAccountRoot` -/
def registryAccountRoot (accountInfo : JsValue) (profile : NetworkProfile) :
    Except Thrown RegistryAccountRoot := do
  let result ← record accountInfo (js "account_info result")
  ensure (XrplSource.isTrue ((JsValue.obj result).get (js "validated")))
    (.source .responseInvalid (js "Registry account_info is not validated"))
  let ledgerHash ← hash ((JsValue.obj result).get (js "ledger_hash"))
    (js "account_info.ledger_hash")
  ensure (ledgerHash == profile.activationLedgerHash)
    (activationMismatch (js "Registry account_info does not come from the activation ledger"))
  let ledgerIndex ← uint32 ((JsValue.obj result).get (js "ledger_index"))
    (js "account_info.ledger_index")
  ensure (ledgerIndex == profile.activationLedgerIndex) (activationMismatch
    (js "Registry account_info ledger index does not match the activation profile"))
  let accountData ← record ((JsValue.obj result).get (js "account_data"))
    (js "account_info.account_data")
  ensure (((JsValue.obj accountData).get (js "LedgerEntryType")).isStr (js "AccountRoot"))
    (.source .responseInvalid
      (js "account_info.account_data must be an AccountRoot ledger entry"))
  ensure (((JsValue.obj accountData).get (js "Account")).isStr profile.registryAddress)
    (.source .responseInvalid
      (js "account_info account does not match the configured registry"))
  let flags ← uint32 ((JsValue.obj accountData).get (js "Flags"))
    (js "account_info.account_data.Flags")
  pure { result, accountData, flags }

/-- `failures.push(failure)` under a condition. -/
def failureIf (condition : Bool) (failure : String) : List JsString :=
  if condition then [js failure] else []

/-- The failures that the account itself shows, but for its signer lists. -/
def accountFailures (root : RegistryAccountRoot) : List JsString :=
  let regularKey := (JsValue.obj root.accountData).get (js "RegularKey")
  failureIf (!isSet root.flags lsfDisableMaster) "master_key_enabled"
    ++ failureIf (isSet root.flags lsfDepositAuth) "deposit_auth_enabled"
    ++ failureIf (isSet root.flags lsfRequireDestTag) "destination_tag_required"
    ++ failureIf (!regularKey.isStr xrplAccountZero && !regularKey.isStr xrplAccountOne)
      "regular_key_not_blackholed"

/-- The failures that an object of the account shows. -/
def objectFailures (P : Platform) (profile : NetworkProfile) (rawObject : JsValue) :
    Except Thrown (List JsString) := do
  let members ← record rawObject (js "account_objects entry")
  let object := JsValue.obj members
  let entryType := object.get (js "LedgerEntryType")
  let failures := failureIf (entryType.isStr (js "SignerList")) "signer_list_present"
  if entryType.isStr (js "Delegate") then do
    let account ← classicAddress P (object.get (js "Account")) (js "Delegate.Account")
    let _ ← classicAddress P (object.get (js "Authorize")) (js "Delegate.Authorize")
    pure (failures ++ failureIf (account == profile.registryAddress) "delegate_present")
  else pure failures

/-- `assertRegistryBlackholed` -/
def assertRegistryBlackholed (P : Platform) (accountInfo : JsValue) (accountObjects : List JsValue)
    (profile : NetworkProfile) : Except Thrown Unit := do
  let root ← registryAccountRoot accountInfo profile
  let lists ← signerLists root.result root.accountData
  let ofObjects ← accountObjects.mapM (objectFailures P profile)
  let failures := accountFailures root ++ failureIf (!lists.isEmpty) "signer_list_present"
    ++ ofObjects.flatten
  ensure failures.isEmpty (.source .registryNotBlackholed
    (js "Registry account does not satisfy the XCS blackhole policy"))

/-- `assertRegistryReceivable` -/
def assertRegistryReceivable (accountInfo : JsValue) (profile : NetworkProfile) :
    Except Thrown Unit := do
  let root ← registryAccountRoot accountInfo profile
  let failures := failureIf (isSet root.flags lsfDepositAuth) "deposit_auth_enabled"
    ++ failureIf (isSet root.flags lsfRequireDestTag) "destination_tag_required"
  ensure failures.isEmpty (.source .registryNotReceivable
    (js "Registry account cannot receive registration payments without extra authorization"))

/-- `RegistryPolicy` -/
inductive RegistryPolicy where
  | blackholed
  | controlledTestnetPilot
  deriving DecidableEq

/-- `assertRegistryPolicy` -/
def assertRegistryPolicy (P : Platform) (accountInfo : JsValue) (accountObjects : List JsValue)
    (profile : NetworkProfile) (policy : RegistryPolicy) : Except Thrown Unit :=
  if policy = .controlledTestnetPilot then assertRegistryReceivable accountInfo profile
  else assertRegistryBlackholed P accountInfo accountObjects profile

/-! ## The pages -/

/-- A page of `account_objects`; the marker is `undefined` on the last one. -/
structure AccountObjectsPage where
  objects : List Members
  marker : JsValue

/-- The text of an error about an object of a page. -/
def objectLabel (index : ℕ) : JsString :=
  js "account_objects.account_objects[" ++ natToString index ++ js "]"

/-- The function that `normalizeAccountObjectsPage` maps over the objects. -/
def normalizeObject (value : JsValue) (index : ℕ) : Except Thrown Members := do
  let members ← record value (objectLabel index)
  match (JsValue.obj members).get (js "LedgerEntryType") with
  | .str (_ :: _) => pure members
  | _ => responseInvalid (objectLabel index ++ js ".LedgerEntryType must be a non-empty string")

/-- `normalizeAccountObjectsPage` -/
def normalizeAccountObjectsPage (value : JsValue) (profile : NetworkProfile) :
    Except Thrown AccountObjectsPage := do
  let result ← record value (js "account_objects result")
  ensure (XrplSource.isTrue ((JsValue.obj result).get (js "validated")))
    (.source .responseInvalid (js "Registry account_objects is not validated"))
  let ledgerHash ← hash ((JsValue.obj result).get (js "ledger_hash"))
    (js "account_objects.ledger_hash")
  ensure (ledgerHash == profile.activationLedgerHash) (activationMismatch
    (js "Registry account_objects does not come from the activation ledger"))
  let ledgerIndex ← uint32 ((JsValue.obj result).get (js "ledger_index"))
    (js "account_objects.ledger_index")
  ensure (ledgerIndex == profile.activationLedgerIndex) (activationMismatch
    (js "Registry account_objects ledger index does not match the activation profile"))
  ensure (((JsValue.obj result).get (js "account")).isStr profile.registryAddress)
    (.source .responseInvalid
      (js "account_objects account does not match the configured registry"))
  let items ← readItems ((JsValue.obj result).get (js "account_objects"))
    (js "account_objects.account_objects must be an array")
  let objects ← items.zipIdx.mapM fun item => normalizeObject item.1 item.2
  pure { objects, marker := (JsValue.obj result).get (js "marker") }

end ProfilePreflight

namespace XrplSource

open ProfilePreflight

/-! ## The requests -/

/-- The requests of `preflight`. -/
inductive XrplRequest where
  | serverInfo
  | feature (amendmentId : JsString)
  | ledger (ledgerIndex : ℕ)
  | accountInfo (account ledgerHash : JsString)
  | accountObjects (account ledgerHash : JsString) (marker : JsValue)

/-- What a request is answered: a result, or an error of the client. -/
abbrev XrplAnswer (_ : XrplRequest) : Type := Except Thrown JsValue

/-- A program that talks to the server. -/
abbrev SourceProgram := Program XrplRequest XrplAnswer Thrown

/-- `request` -/
def request (r : XrplRequest) : SourceProgram JsValue :=
  .call r fun answer => .done answer

/-- The loop of `getAllAccountObjects`, with the requests that are left, the markers that were seen,
the marker of the last page and the objects so far. -/
def accountObjectsLoop (profile : NetworkProfile) :
    ℕ → List JsString → JsValue → List JsValue → SourceProgram (List JsValue)
  | 0, _, _, _ => .throwing (.source .responseInvalid
      (js "account_objects pagination exceeded 1000 pages"))
  | left + 1, markers, marker, objects => do
      let response ← request
        (.accountObjects profile.registryAddress profile.activationLedgerHash marker)
      let page ← Program.done (normalizeAccountObjectsPage response profile)
      let objects := objects ++ page.objects.map JsValue.obj
      if page.marker.isUndefined then pure objects
      else if markers.contains (render page.marker) then
        .throwing (.source .responseInvalid (js "account_objects marker repeated"))
      else accountObjectsLoop profile left (render page.marker :: markers) page.marker objects

/-- `getAllAccountObjects` -/
def getAllAccountObjects (profile : NetworkProfile) : SourceProgram (List JsValue) :=
  accountObjectsLoop profile 1000 [] .undefined []

/-- The part of `preflight` that is about the registry. -/
def registryStage (P : Platform) (profile : NetworkProfile) (policy : RegistryPolicy) :
    SourceProgram Unit := do
  let accountInfo ← request
    (.accountInfo profile.registryAddress profile.activationLedgerHash)
  let accountObjects ← getAllAccountObjects profile
  Program.done (assertRegistryPolicy P accountInfo accountObjects profile policy)

end XrplSource

open ProfilePreflight XrplSource

/-! ## What the server has to answer -/

section Spec

variable (profile : NetworkProfile)

/-- A response is validated and comes from the ledger the profile was activated at. -/
structure IsOfActivation (result : Members) : Prop where
  validated : (JsValue.obj result).get (js "validated") = .bool true
  ledgerHash : ∃ s, (JsValue.obj result).get (js "ledger_hash") = .str s ∧ isHash s = true ∧
    toLowerCase s = profile.activationLedgerHash
  ledgerIndex : Indexer.uint32 ((JsValue.obj result).get (js "ledger_index"))
    = some profile.activationLedgerIndex

/-- A response to `account_info` is about the registry account. -/
structure IsAccountRoot (accountInfo : JsValue) (root : RegistryAccountRoot) : Prop where
  isRecord : accountInfo = .obj root.result
  activation : IsOfActivation profile root.result
  accountData : (JsValue.obj root.result).get (js "account_data") = .obj root.accountData
  entryType : (JsValue.obj root.accountData).get (js "LedgerEntryType") = .str (js "AccountRoot")
  account : (JsValue.obj root.accountData).get (js "Account") = .str profile.registryAddress
  flags : Indexer.uint32 ((JsValue.obj root.accountData).get (js "Flags")) = some root.flags

/-- A response to `account_objects` is a page of objects of the registry account. -/
structure IsPage (response : JsValue) (page : AccountObjectsPage) : Prop where
  exists_result : ∃ result, response = .obj result ∧ IsOfActivation profile result ∧
    (JsValue.obj result).get (js "account") = .str profile.registryAddress ∧
    (JsValue.obj result).get (js "account_objects") = .arr (page.objects.map .obj) ∧
    page.marker = (JsValue.obj result).get (js "marker")
  entryType : ∀ members ∈ page.objects, ∃ s,
    (JsValue.obj members).get (js "LedgerEntryType") = .str s ∧ s ≠ []

/-- Responses are the pages of a list of objects: at most a thousand, each but the last one with a
marker, and no marker twice. -/
def IsPaging (responses : List JsValue) (objects : List Members) : Prop :=
  ∃ pages last, List.Forall₂ (IsPage profile) responses (pages ++ [last]) ∧
    responses.length ≤ 1000 ∧ (∀ page ∈ pages, page.marker ≠ .undefined) ∧
    last.marker = .undefined ∧ (pages.map fun page => render page.marker).Nodup ∧
    objects = (pages ++ [last]).flatMap AccountObjectsPage.objects

/-- Nothing can sign for the account, and payments reach it. -/
structure IsBlackholed (P : Platform) (root : RegistryAccountRoot) (objects : List Members) :
    Prop where
  masterKey : isSet root.flags lsfDisableMaster = true
  depositAuth : isSet root.flags lsfDepositAuth = false
  destinationTag : isSet root.flags lsfRequireDestTag = false
  regularKey : (JsValue.obj root.accountData).get (js "RegularKey") = .str xrplAccountZero ∨
    (JsValue.obj root.accountData).get (js "RegularKey") = .str xrplAccountOne
  resultSigners : ∀ lists, root.result.lookup (js "signer_lists") = some lists → lists = .arr []
  accountSigners : ∀ lists, root.accountData.lookup (js "signer_lists") = some lists →
    lists = .arr []
  objectSigners : ∀ members ∈ objects,
    (JsValue.obj members).get (js "LedgerEntryType") ≠ .str (js "SignerList")
  delegates : ∀ members ∈ objects,
    (JsValue.obj members).get (js "LedgerEntryType") = .str (js "Delegate") →
      ∃ account authorize, (JsValue.obj members).get (js "Account") = .str account ∧
        (JsValue.obj members).get (js "Authorize") = .str authorize ∧
        P.isValidClassicAddress account = true ∧ P.isValidClassicAddress authorize = true ∧
        account ≠ profile.registryAddress

end Spec

/-! ## What is accepted -/

variable {profile : NetworkProfile} {P : Platform}

theorem uint32_eq_ok {value : JsValue} {label : JsString} {n : ℕ} :
    ProfilePreflight.uint32 value label = .ok n ↔ Indexer.uint32 value = some n :=
  readUint32_eq_ok

theorem registryAccountRoot_eq_ok {accountInfo : JsValue} {root : RegistryAccountRoot} :
    registryAccountRoot accountInfo profile = .ok root ↔
      IsAccountRoot profile accountInfo root := by
  simp only [registryAccountRoot, record, ProfilePreflight.hash, bind_eq_ok, readRecord_eq_ok,
    ensure_eq_ok, exists_const, isTrue_iff, readHash_eq_ok, uint32_eq_ok, beq_iff_eq,
    JsValue.isStr_iff, pure_eq_ok']
  constructor
  · rintro ⟨result, rfl, hvalidated, h, ⟨s, hs, hhash, rfl⟩, hlower, index, hindex, rfl,
      accountData, hdata, htype, haccount, flags, hflags, rfl⟩
    exact ⟨rfl, ⟨hvalidated, ⟨s, hs, hhash, hlower⟩, hindex⟩, hdata, htype, haccount, hflags⟩
  · rintro ⟨hrecord, ⟨hvalidated, ⟨s, hs, hhash, hlower⟩, hindex⟩, hdata, htype, haccount, hflags⟩
    exact ⟨root.result, hrecord, hvalidated, toLowerCase s, ⟨s, hs, hhash, rfl⟩, hlower, _, hindex,
      rfl, root.accountData, hdata, htype, haccount, root.flags, hflags, rfl⟩

theorem normalizeObject_eq_ok {value : JsValue} {index : ℕ} {members : Members} :
    normalizeObject value index = .ok members ↔ value = .obj members ∧
      ∃ s, (JsValue.obj members).get (js "LedgerEntryType") = .str s ∧ s ≠ [] := by
  simp only [normalizeObject, record, bind_eq_ok, readRecord_eq_ok]
  constructor
  · rintro ⟨members', rfl, h⟩
    cases htype : (JsValue.obj members').get (js "LedgerEntryType") with
    | str s =>
      rw [htype] at h
      cases s with
      | nil => exact absurd h responseInvalid_ne_ok
      | cons u rest =>
        obtain rfl := pure_eq_ok.mp h
        exact ⟨rfl, u :: rest, htype, List.cons_ne_nil u rest⟩
    | _ =>
      rw [htype] at h
      exact absurd h responseInvalid_ne_ok
  · rintro ⟨rfl, s, hs, hne⟩
    refine ⟨members, rfl, ?_⟩
    cases s with
    | nil => exact absurd rfl hne
    | cons u rest => rw [hs]; rfl

theorem mapM_normalizeObject_eq_ok {objects : List Members} {items : List JsValue} {start : ℕ} :
    (items.zipIdx start).mapM (fun item => normalizeObject item.1 item.2) = .ok objects ↔
      items = objects.map .obj ∧ ∀ members ∈ objects, ∃ s,
        (JsValue.obj members).get (js "LedgerEntryType") = .str s ∧ s ≠ [] := by
  rw [mapM_eq_ok]
  induction items generalizing start objects with
  | nil =>
    rw [List.zipIdx_nil, List.forall₂_nil_left_iff]
    constructor
    · rintro rfl
      exact ⟨rfl, List.forall_mem_nil _⟩
    · rintro ⟨h, -⟩
      exact List.map_eq_nil_iff.mp h.symm
  | cons value items ih =>
    rw [List.zipIdx_cons, List.forall₂_cons_left_iff]
    constructor
    · rintro ⟨members, rest, hfirst, hrest, rfl⟩
      obtain ⟨rfl, htype⟩ := normalizeObject_eq_ok.mp hfirst
      obtain ⟨rfl, hall⟩ := ih.mp hrest
      exact ⟨rfl, List.forall_mem_cons.mpr ⟨htype, hall⟩⟩
    · rintro ⟨h, hall⟩
      cases objects with
      | nil => cases h
      | cons members rest =>
        obtain ⟨hvalue, hitems⟩ := List.cons.inj h
        obtain ⟨htype, hall⟩ := List.forall_mem_cons.mp hall
        exact ⟨members, rest, normalizeObject_eq_ok.mpr ⟨hvalue, htype⟩, ih.mpr ⟨hitems, hall⟩, rfl⟩

theorem normalizeAccountObjectsPage_eq_ok {response : JsValue} {page : AccountObjectsPage} :
    normalizeAccountObjectsPage response profile = .ok page ↔ IsPage profile response page := by
  simp only [normalizeAccountObjectsPage, record, ProfilePreflight.hash, bind_eq_ok,
    readRecord_eq_ok, readItems_eq_ok, ensure_eq_ok, exists_const, isTrue_iff, readHash_eq_ok,
    uint32_eq_ok, beq_iff_eq, JsValue.isStr_iff, pure_eq_ok', mapM_normalizeObject_eq_ok]
  constructor
  · rintro ⟨result, rfl, hvalidated, h, ⟨s, hs, hhash, rfl⟩, hlower, index, hindex, rfl, haccount,
      items, hitems, objects, ⟨rfl, htypes⟩, rfl⟩
    exact ⟨⟨result, rfl, ⟨hvalidated, ⟨s, hs, hhash, hlower⟩, hindex⟩, haccount, hitems, rfl⟩,
      htypes⟩
  · rintro ⟨⟨result, rfl, ⟨hvalidated, ⟨s, hs, hhash, hlower⟩, hindex⟩, haccount, hitems, hmarker⟩,
      htypes⟩
    refine ⟨result, rfl, hvalidated, toLowerCase s, ⟨s, hs, hhash, rfl⟩, hlower, _, hindex, rfl,
      haccount, _, hitems, page.objects, ⟨rfl, htypes⟩, ?_⟩
    rw [← hmarker]

/-! ## The black hole -/

theorem failureIf_eq_nil {condition : Bool} {failure : String} :
    failureIf condition failure = [] ↔ condition = false := by
  cases condition
  · exact iff_of_true rfl rfl
  · exact iff_of_false (List.cons_ne_nil _ _) (by decide)

theorem forall_mem_ownMember {members : Members} {key : JsString} {Q : JsValue → Prop} :
    (∀ v ∈ ownMember members key, Q v) ↔ ∀ v, members.lookup key = some v → Q v := by
  simp only [ownMember, Option.mem_toList]

/-- A map returns only empty lists if and only if each of its calls does. -/
theorem mapM_flatten_eq_nil {α β : Type} {f : α → Except Thrown (List β)} {xs : List α} :
    (∃ lists, xs.mapM f = .ok lists ∧ lists.flatten = []) ↔ ∀ a ∈ xs, f a = .ok [] := by
  simp only [mapM_eq_ok]
  induction xs with
  | nil => exact iff_of_true ⟨[], .nil, rfl⟩ (List.forall_mem_nil _)
  | cons a xs ih =>
    rw [List.forall_mem_cons, ← ih]
    constructor
    · rintro ⟨lists, hall, hflat⟩
      obtain ⟨items, rest, ha, hrest, rfl⟩ := List.forall₂_cons_left_iff.mp hall
      rw [List.flatten_cons, List.append_eq_nil_iff] at hflat
      exact ⟨hflat.1 ▸ ha, rest, hrest, hflat.2⟩
    · rintro ⟨ha, rest, hrest, hflat⟩
      exact ⟨[] :: rest, .cons ha hrest, hflat⟩

/-- There is no signer list, and no value that is none. -/
theorem signerLists_eq_nil {result accountData : Members} :
    signerLists result accountData = .ok [] ↔
      (∀ v, result.lookup (js "signer_lists") = some v → v = .arr []) ∧
      ∀ v, accountData.lookup (js "signer_lists") = some v → v = .arr [] := by
  have hitems : ∀ v : JsValue,
      readItems v (js "account_info signer_lists must be an array when present") = .ok []
        ↔ v = .arr [] :=
    fun _ => readItems_eq_ok
  rw [← forall_mem_ownMember, ← forall_mem_ownMember, ← List.forall_mem_append]
  simp only [← hitems]
  rw [← mapM_flatten_eq_nil]
  simp only [signerLists, bind_eq_ok, pure_eq_ok]

theorem classicAddress_eq_ok {value : JsValue} {label address : JsString} :
    classicAddress P value label = .ok address ↔
      value = .str address ∧ P.isValidClassicAddress address = true := by
  cases value with
  | str s =>
    rw [classicAddress]
    by_cases hs : P.isValidClassicAddress s = true
    · rw [if_pos hs, Except.ok.injEq, JsValue.str.injEq]
      exact ⟨fun h => ⟨h, h ▸ hs⟩, fun h => h.1⟩
    · rw [if_neg hs, JsValue.str.injEq]
      refine iff_of_false responseInvalid_ne_ok ?_
      rintro ⟨rfl, hvalid⟩
      exact hs hvalid
  | _ => simp [classicAddress, responseInvalid]

/-- An object shows no failure: it is no signer list, and a delegation of another account if it is
one. -/
theorem objectFailures_eq_nil {members : Members} :
    objectFailures P profile (.obj members) = .ok [] ↔
      (JsValue.obj members).get (js "LedgerEntryType") ≠ .str (js "SignerList") ∧
      ((JsValue.obj members).get (js "LedgerEntryType") = .str (js "Delegate") →
        ∃ account authorize, (JsValue.obj members).get (js "Account") = .str account ∧
          (JsValue.obj members).get (js "Authorize") = .str authorize ∧
          P.isValidClassicAddress account = true ∧ P.isValidClassicAddress authorize = true ∧
          account ≠ profile.registryAddress) := by
  have hsigner : (JsValue.obj members).get (js "LedgerEntryType") ≠ .str (js "SignerList") ↔
      failureIf (((JsValue.obj members).get (js "LedgerEntryType")).isStr (js "SignerList"))
        "signer_list_present" = [] := by
    rw [failureIf_eq_nil, ← Bool.not_eq_true, JsValue.isStr_iff]
  rw [hsigner]
  simp only [objectFailures, record, bind_eq_ok, readRecord_eq_ok, JsValue.obj.injEq,
    exists_eq_left']
  by_cases hdelegate : ((JsValue.obj members).get (js "LedgerEntryType")).isStr (js "Delegate")
      = true
  · rw [if_pos hdelegate]
    simp only [JsValue.isStr_iff.mp hdelegate, true_implies, bind_eq_ok, classicAddress_eq_ok,
      pure_eq_ok, List.append_eq_nil_iff, failureIf_eq_nil, beq_eq_false_iff_ne]
    constructor
    · rintro ⟨account, ⟨haccount, hvalid⟩, authorize, ⟨hauthorize, hvalid'⟩, hnone, hne⟩
      exact ⟨hnone, account, authorize, haccount, hauthorize, hvalid, hvalid', hne⟩
    · rintro ⟨hnone, account, authorize, haccount, hauthorize, hvalid, hvalid', hne⟩
      exact ⟨account, ⟨haccount, hvalid⟩, authorize, ⟨hauthorize, hvalid'⟩, hnone, hne⟩
  · rw [if_neg hdelegate, pure_eq_ok]
    refine ⟨fun h => ⟨h, fun htype => ?_⟩, fun h => h.1⟩
    exact absurd (JsValue.isStr_iff.mpr htype) hdelegate

/-- The four tests of the account itself. -/
theorem accountFailures_eq_nil {root : RegistryAccountRoot} :
    accountFailures root = [] ↔ isSet root.flags lsfDisableMaster = true ∧
      isSet root.flags lsfDepositAuth = false ∧ isSet root.flags lsfRequireDestTag = false ∧
      ((JsValue.obj root.accountData).get (js "RegularKey") = .str xrplAccountZero ∨
        (JsValue.obj root.accountData).get (js "RegularKey") = .str xrplAccountOne) := by
  simp only [accountFailures, List.append_eq_nil_iff, failureIf_eq_nil, Bool.not_eq_false',
    Bool.and_eq_false_iff, JsValue.isStr_iff, and_assoc]

theorem assertRegistryBlackholed_eq_ok {accountInfo : JsValue} {objects : List Members} :
    assertRegistryBlackholed P accountInfo (objects.map .obj) profile = .ok () ↔
      ∃ root, IsAccountRoot profile accountInfo root ∧ IsBlackholed profile P root objects := by
  have hobjects : (∀ v ∈ objects.map JsValue.obj, objectFailures P profile v = .ok []) ↔
      ∀ members ∈ objects, objectFailures P profile (.obj members) = .ok [] :=
    List.forall_mem_map
  simp only [assertRegistryBlackholed, bind_eq_ok, ensure_eq_ok, registryAccountRoot_eq_ok,
    List.isEmpty_iff, List.append_eq_nil_iff, failureIf_eq_nil, Bool.not_eq_false',
    accountFailures_eq_nil]
  refine exists_congr fun root => and_congr_right fun _ => ?_
  constructor
  · rintro ⟨lists, hlists, ofObjects, hmap, ⟨⟨hmaster, hdeposit, htag, hkey⟩, rfl⟩, hflat⟩
    obtain ⟨hresult, haccount⟩ := signerLists_eq_nil.mp hlists
    have hall := hobjects.mp (mapM_flatten_eq_nil.mp ⟨ofObjects, hmap, hflat⟩)
    exact ⟨hmaster, hdeposit, htag, hkey, hresult, haccount,
      fun members hm => (objectFailures_eq_nil.mp (hall members hm)).1,
      fun members hm => (objectFailures_eq_nil.mp (hall members hm)).2⟩
  · rintro ⟨hmaster, hdeposit, htag, hkey, hresult, haccount, hsigners, hdelegates⟩
    obtain ⟨ofObjects, hmap, hflat⟩ := mapM_flatten_eq_nil.mpr (hobjects.mpr fun members hm =>
      objectFailures_eq_nil.mpr ⟨hsigners members hm, hdelegates members hm⟩)
    exact ⟨[], signerLists_eq_nil.mpr ⟨hresult, haccount⟩, ofObjects, hmap,
      ⟨⟨hmaster, hdeposit, htag, hkey⟩, rfl⟩, hflat⟩

/-! ## The loop -/

/-- Pages as the loop reads them, with the requests that are left and the markers seen so far. -/
inductive PagesFrom (profile : NetworkProfile) :
    ℕ → List JsString → List JsValue → List Members → Prop
  | last {left : ℕ} {markers : List JsString} {response : JsValue} {page : AccountObjectsPage} :
      IsPage profile response page → page.marker = .undefined →
      PagesFrom profile (left + 1) markers [response] page.objects
  | more {left : ℕ} {markers : List JsString} {response : JsValue} {page : AccountObjectsPage}
      {responses : List JsValue} {objects : List Members} :
      IsPage profile response page → page.marker ≠ .undefined → render page.marker ∉ markers →
      PagesFrom profile left (render page.marker :: markers) responses objects →
      PagesFrom profile (left + 1) markers (response :: responses) (page.objects ++ objects)

theorem PagesFrom.exists_pages {left : ℕ} {markers : List JsString} {responses : List JsValue}
    {objects : List Members} (h : PagesFrom profile left markers responses objects) :
    ∃ pages last, List.Forall₂ (IsPage profile) responses (pages ++ [last]) ∧
      responses.length ≤ left ∧ (∀ page ∈ pages, page.marker ≠ .undefined) ∧
      last.marker = .undefined ∧ (pages.map fun page => render page.marker).Nodup ∧
      (∀ page ∈ pages, render page.marker ∉ markers) ∧
      objects = (pages ++ [last]).flatMap AccountObjectsPage.objects := by
  induction h with
  | @last left markers response page hpage hmarker =>
    refine ⟨[], page, .cons hpage .nil, ?_, List.forall_mem_nil _, hmarker, List.nodup_nil,
      List.forall_mem_nil _, ?_⟩
    · rw [List.length_singleton]
      omega
    · simp
  | @more left markers response page responses objects hpage hmarker hnew _ ih =>
    obtain ⟨pages, last, hall, hlength, hmarkers, hlast, hnodup, hfresh, rfl⟩ := ih
    refine ⟨page :: pages, last, .cons hpage hall, ?_, List.forall_mem_cons.mpr ⟨hmarker, hmarkers⟩,
      hlast, ?_, List.forall_mem_cons.mpr ⟨hnew, fun p hp hmem => ?_⟩, ?_⟩
    · rw [List.length_cons]
      omega
    · rw [List.map_cons, List.nodup_cons]
      refine ⟨fun hmem => ?_, hnodup⟩
      obtain ⟨p, hp, heq⟩ := List.mem_map.mp hmem
      exact hfresh p hp (heq ▸ List.mem_cons_self)
    · exact hfresh p hp (List.mem_cons_of_mem _ hmem)
    · rw [List.cons_append, List.flatMap_cons]

theorem pagesFrom_of_pages (pages : List AccountObjectsPage) {last : AccountObjectsPage} :
    ∀ {left : ℕ} {markers : List JsString} {responses : List JsValue},
      List.Forall₂ (IsPage profile) responses (pages ++ [last]) → responses.length ≤ left →
      (∀ page ∈ pages, page.marker ≠ .undefined) → last.marker = .undefined →
      (pages.map fun page => render page.marker).Nodup →
      (∀ page ∈ pages, render page.marker ∉ markers) →
      PagesFrom profile left markers responses
        ((pages ++ [last]).flatMap AccountObjectsPage.objects) := by
  induction pages with
  | nil =>
    intro left markers responses hall hlength _ hlast _ _
    obtain ⟨response, rest, hpage, hrest, rfl⟩ := List.forall₂_cons_right_iff.mp hall
    obtain rfl := List.forall₂_nil_right_iff.mp hrest
    obtain ⟨n, rfl⟩ := Nat.exists_eq_add_of_le' hlength
    have hlast : PagesFrom profile (n + 1) markers [response] last.objects := .last hpage hlast
    simpa using hlast
  | cons page pages ih =>
    intro left markers responses hall hlength hmarkers hlast hnodup hfresh
    obtain ⟨response, rest, hpage, hrest, rfl⟩ := List.forall₂_cons_right_iff.mp hall
    obtain ⟨n, rfl⟩ := Nat.exists_eq_add_of_le' hlength
    rw [List.map_cons, List.nodup_cons] at hnodup
    rw [List.cons_append, List.flatMap_cons]
    refine .more hpage (hmarkers page List.mem_cons_self) (hfresh page List.mem_cons_self)
      (ih hrest (by simp) (fun p hp => hmarkers p (List.mem_cons_of_mem page hp)) hlast hnodup.2 ?_)
    intro p hp hmem
    rcases List.mem_cons.mp hmem with heq | hmem
    · exact hnodup.1 (heq ▸ List.mem_map_of_mem hp)
    · exact hfresh p (List.mem_cons_of_mem page hp) hmem

/-- What the loop reads from the start are the pagings. -/
theorem pagesFrom_iff {responses : List JsValue} {objects : List Members} :
    PagesFrom profile 1000 [] responses objects ↔ IsPaging profile responses objects := by
  constructor
  · intro h
    obtain ⟨pages, last, hall, hlength, hmarkers, hlast, hnodup, -, hobjects⟩ := h.exists_pages
    exact ⟨pages, last, hall, hlength, hmarkers, hlast, hnodup, hobjects⟩
  · rintro ⟨pages, last, hall, hlength, hmarkers, hlast, hnodup, rfl⟩
    exact pagesFrom_of_pages pages hall hlength hmarkers hlast hnodup fun _ _ => List.not_mem_nil

/-- What the requests of a history were answered. -/
def answers (h : List (Program.Event XrplAnswer)) : List (Except Thrown JsValue) :=
  h.map fun e => e.2

theorem answers_append (h h' : List (Program.Event XrplAnswer)) :
    answers (h ++ h') = answers h ++ answers h' :=
  List.map_append ..

theorem IsPage.unique {response : JsValue} {page page' : AccountObjectsPage}
    (h : IsPage profile response page) (h' : IsPage profile response page') : page = page' :=
  Except.ok.inj ((normalizeAccountObjectsPage_eq_ok.mpr h).symm.trans
    (normalizeAccountObjectsPage_eq_ok.mpr h'))

/-- What the loop ends with, after some more answers: the objects of the pages that were answered,
and nothing if the answers are no pages. -/
def LoopEnds (profile : NetworkProfile) (left : ℕ) (markers : List JsString)
    (objects : List JsValue) (h h' : List (Program.Event XrplAnswer))
    (result : Except Thrown (List JsValue)) : Prop :=
  ∃ more, answers h' = answers h ++ more ∧ h'.length ≤ h.length + left ∧ ∀ all,
    result = .ok all ↔ ∃ responses new, more = responses.map .ok ∧
      PagesFrom profile left markers responses new ∧ all = objects ++ new.map .obj

/-- A page that ends the loop early. -/
theorem loopEnds_error {left : ℕ} {markers : List JsString} {objects : List JsValue}
    {h : List (Program.Event XrplAnswer)} {e : Program.Event XrplAnswer} {error : Thrown}
    (hnone : ∀ response new, e.2 = .ok response →
      ¬ PagesFrom profile (left + 1) markers [response] new) :
    LoopEnds profile (left + 1) markers objects h (h ++ [e]) (.error error) := by
  refine ⟨[e.2], answers_append h [e], ?_, fun all => iff_of_false (fun heq => ?_) ?_⟩
  · rw [List.length_append, List.length_singleton]
    omega
  · cases heq
  · rintro ⟨responses, new, hmore, hpages, -⟩
    cases responses with
    | nil => cases hmore
    | cons response rest =>
      obtain ⟨he, hrest⟩ := List.cons.inj hmore
      cases rest with
      | nil => exact hnone response new he hpages
      | cons _ _ => cases hrest

theorem PagesFrom.cons_inv {left : ℕ} {markers : List JsString} {response : JsValue}
    {responses : List JsValue} {new : List Members} {page : AccountObjectsPage}
    (h : PagesFrom profile left markers (response :: responses) new)
    (hpage : IsPage profile response page) :
    ∃ n, left = n + 1 ∧
      (page.marker = .undefined ∧ responses = [] ∧ new = page.objects ∨
        page.marker ≠ .undefined ∧ render page.marker ∉ markers ∧ ∃ rest,
          PagesFrom profile n (render page.marker :: markers) responses rest ∧
            new = page.objects ++ rest) := by
  cases h with
  | last hpage' hmarker =>
    obtain rfl := hpage.unique hpage'
    exact ⟨_, rfl, .inl ⟨hmarker, rfl, rfl⟩⟩
  | more hpage' hmarker hnew hrest =>
    obtain rfl := hpage.unique hpage'
    exact ⟨_, rfl, .inr ⟨hmarker, hnew, _, hrest, rfl⟩⟩

/-- A first answer that is no page is the first of no pages. -/
theorem PagesFrom.isPage_of_cons {left : ℕ} {markers : List JsString} {response : JsValue}
    {responses : List JsValue} {new : List Members}
    (h : PagesFrom profile left markers (response :: responses) new) :
    ∃ page, IsPage profile response page := by
  cases h with
  | last hpage _ => exact ⟨_, hpage⟩
  | more hpage _ _ _ => exact ⟨_, hpage⟩

/-- The loop goes on behind a page. -/
theorem LoopEnds.more {left : ℕ} {markers : List JsString} {objects : List JsValue}
    {h h' : List (Program.Event XrplAnswer)} {c : XrplRequest} {response : JsValue}
    {page : AccountObjectsPage} {result : Except Thrown (List JsValue)}
    (hpage : IsPage profile response page) (hmarker : page.marker ≠ .undefined)
    (hnew : render page.marker ∉ markers)
    (hends : LoopEnds profile left (render page.marker :: markers)
      (objects ++ page.objects.map .obj) (h ++ [⟨c, .ok response⟩]) h' result) :
    LoopEnds profile (left + 1) markers objects h h' result := by
  obtain ⟨more, hanswers, hlength, hresult⟩ := hends
  refine ⟨.ok response :: more, ?_, ?_, fun all => ?_⟩
  · rw [hanswers, answers_append, List.append_assoc]
    rfl
  · rw [List.length_append, List.length_singleton] at hlength
    omega
  · rw [hresult all]
    constructor
    · rintro ⟨responses, new, rfl, hpages, rfl⟩
      refine ⟨response :: responses, page.objects ++ new, rfl, .more hpage hmarker hnew hpages, ?_⟩
      rw [List.map_append, List.append_assoc]
    · rintro ⟨responses, new, hmore, hpages, rfl⟩
      cases responses with
      | nil => cases hmore
      | cons first responses =>
        obtain ⟨hfirst, rfl⟩ := List.cons.inj hmore
        obtain rfl := Except.ok.inj hfirst
        obtain ⟨n, hn, ⟨hundefined, -, -⟩ | ⟨-, -, rest, hrest, rfl⟩⟩ := hpages.cons_inv hpage
        · exact absurd hundefined hmarker
        · obtain rfl : left = n := by omega
          refine ⟨responses, rest, rfl, hrest, ?_⟩
          rw [List.map_append, List.append_assoc]

/-- The loop ends with the last page. -/
theorem LoopEnds.last {left : ℕ} {markers : List JsString} {objects : List JsValue}
    {h : List (Program.Event XrplAnswer)} {c : XrplRequest} {response : JsValue}
    {page : AccountObjectsPage} (hpage : IsPage profile response page)
    (hmarker : page.marker = .undefined) :
    LoopEnds profile (left + 1) markers objects h (h ++ [⟨c, .ok response⟩])
      (.ok (objects ++ page.objects.map .obj)) := by
  refine ⟨[.ok response], answers_append h _, ?_, fun all => ?_⟩
  · rw [List.length_append, List.length_singleton]
    omega
  · constructor
    · intro hall
      exact ⟨[response], page.objects, rfl, .last hpage hmarker, (Except.ok.inj hall).symm⟩
    · rintro ⟨responses, new, hmore, hpages, rfl⟩
      cases responses with
      | nil => cases hmore
      | cons first responses =>
        obtain ⟨hfirst, -⟩ := List.cons.inj hmore
        obtain rfl := Except.ok.inj hfirst
        obtain ⟨n, -, ⟨-, -, rfl⟩ | ⟨hdefined, -⟩⟩ := hpages.cons_inv hpage
        · rfl
        · exact absurd hmarker hdefined

theorem ensures_accountObjectsLoop (left : ℕ) : ∀ (markers : List JsString) (marker : JsValue)
    (objects : List JsValue) (h : List (Program.Event XrplAnswer)), h.length + left ≤ 1001 →
    Program.Ensures (fun h _ => h.length ≤ 1000) (LoopEnds profile left markers objects h) h
      (accountObjectsLoop profile left markers marker objects) := by
  induction left with
  | zero =>
    intro markers marker objects h _
    refine ⟨[], (List.append_nil _).symm, Nat.le_refl _, fun all => iff_of_false (fun heq => ?_) ?_⟩
    · cases heq
    · rintro ⟨responses, new, -, hpages, -⟩
      cases hpages
  | succ left ih =>
    intro markers marker objects h hleft
    refine ⟨by omega, fun r => Program.Ensures.bind_done (fun response hresponse => ?_)
      (fun error herror => ?_)⟩
    · subst hresponse
      refine Program.Ensures.bind_done (fun page hpage => ?_) (fun error herror => ?_)
      · rw [normalizeAccountObjectsPage_eq_ok] at hpage
        dsimp only
        by_cases hlast : page.marker.isUndefined = true
        · rw [if_pos hlast]
          exact LoopEnds.last hpage (JsValue.isUndefined_iff.mp hlast)
        · rw [if_neg hlast]
          have hmarker : page.marker ≠ .undefined := fun heq => hlast (heq ▸ rfl)
          by_cases hseen : markers.contains (render page.marker) = true
          · rw [if_pos hseen]
            refine loopEnds_error fun response' new he hpages => ?_
            obtain rfl := Except.ok.inj he
            obtain ⟨n, -, ⟨hundefined, -, -⟩ | ⟨-, hnew, -⟩⟩ := hpages.cons_inv hpage
            · exact hmarker hundefined
            · exact hnew (List.contains_iff_mem.mp hseen)
          · rw [if_neg hseen]
            have hnew : render page.marker ∉ markers :=
              fun hmem => hseen (List.contains_iff_mem.mpr hmem)
            refine (ih _ page.marker _ _ ?_).mono fun h' result hends =>
              hends.more hpage hmarker hnew
            rw [List.length_append, List.length_singleton]
            omega
      · refine loopEnds_error fun response' new he hpages => ?_
        obtain rfl := Except.ok.inj he
        obtain ⟨page, hpage⟩ := hpages.isPage_of_cons
        rw [normalizeAccountObjectsPage_eq_ok.mpr hpage] at herror
        cases herror
    · subst herror
      exact loopEnds_error fun response new he => by cases he

/-- What `getAllAccountObjects` returns are the objects of a paging, and it returns nothing if the
answers are no paging. -/
theorem ensures_getAllAccountObjects {h : List (Program.Event XrplAnswer)} (hh : h.length ≤ 1) :
    Program.Ensures (fun h _ => h.length ≤ 1000) (LoopEnds profile 1000 [] [] h) h
      (getAllAccountObjects profile) :=
  ensures_accountObjectsLoop 1000 [] .undefined [] h (by omega)

theorem neverStops_accountObjectsLoop (left : ℕ) : ∀ (markers : List JsString) (marker : JsValue)
    (objects : List JsValue),
    Program.NeverStops (accountObjectsLoop profile left markers marker objects) := by
  induction left with
  | zero => exact fun _ _ _ => trivial
  | succ left ih =>
    intro markers marker objects
    refine Program.NeverStops.bind (fun response => ?_) fun r => trivial
    refine Program.NeverStops.bind (fun page => ?_) trivial
    by_cases hlast : page.marker.isUndefined = true
    · dsimp only
      rw [if_pos hlast]
      exact trivial
    · dsimp only
      rw [if_neg hlast]
      by_cases hseen : markers.contains (render page.marker) = true
      · rw [if_pos hseen]
        exact trivial
      · rw [if_neg hseen]
        exact ih _ _ _

/-! ## The stage -/

/-- What the stage ends with: the verdict on the account and the objects of the paging, if the
answers are an account and a paging, and an error otherwise. -/
structure StageEnds (P : Platform) (profile : NetworkProfile)
    (h : List (Program.Event XrplAnswer)) (result : Except Thrown Unit) : Prop where
  verdict : ∀ info responses objects, answers h = .ok info :: responses.map .ok →
    IsPaging profile responses objects →
    result = assertRegistryBlackholed P info (objects.map .obj) profile
  paging : result = .ok () → ∃ info responses objects,
    answers h = .ok info :: responses.map .ok ∧ IsPaging profile responses objects

theorem stageEnds_error {h : List (Program.Event XrplAnswer)} {error : Thrown}
    (hnone : ∀ info responses objects, answers h = .ok info :: responses.map .ok →
      ¬ IsPaging profile responses objects) : StageEnds P profile h (.error error) where
  verdict info responses objects hanswers hpaging :=
    absurd hpaging (hnone info responses objects hanswers)
  paging h := by cases h

/-- The objects of a paging are determined by its pages. -/
theorem LoopEnds.objects_eq {h h' : List (Program.Event XrplAnswer)} {all : List JsValue}
    (hends : LoopEnds profile 1000 [] [] h h' (.ok all)) (responses : List JsValue)
    (objects : List Members)
    (hanswers : answers h' = answers h ++ responses.map .ok)
    (hpaging : IsPaging profile responses objects) : all = objects.map .obj := by
  obtain ⟨more, hmore, -, hresult⟩ := hends
  obtain rfl := List.append_cancel_left (hmore.symm.trans hanswers)
  have hok := (hresult ([] ++ objects.map .obj)).mpr
    ⟨responses, objects, rfl, pagesFrom_iff.mpr hpaging, rfl⟩
  exact Except.ok.inj hok

theorem ensures_registryStage (P : Platform) (profile : NetworkProfile) :
    Program.Ensures (fun h _ => h.length ≤ 1000) (StageEnds P profile) []
      (registryStage P profile .blackholed) := by
  refine ⟨Nat.zero_le _, fun r => Program.Ensures.bind_done (fun info hinfo => ?_)
    fun error herror => ?_⟩
  · subst hinfo
    refine Program.Ensures.bind (fun h all hends => ?_) (fun h error hends => ?_)
      (ensures_getAllAccountObjects (Nat.le_refl 1))
    · have hobjects := hends.objects_eq
      obtain ⟨more, hmore, -, hresult⟩ := hends
      refine ⟨fun info' responses objects hanswers hpaging => ?_, fun _ => ?_⟩
      · obtain ⟨hinfo, -⟩ := List.cons.inj (hmore.symm.trans hanswers)
        obtain rfl := Except.ok.inj hinfo
        rw [hobjects responses objects hanswers hpaging]
        rfl
      · obtain ⟨responses, objects, rfl, hpages, -⟩ := (hresult all).mp rfl
        exact ⟨info, responses, objects, hmore, pagesFrom_iff.mp hpages⟩
    · obtain ⟨more, hmore, -, hresult⟩ := hends
      refine stageEnds_error fun info' responses objects hanswers hpaging => ?_
      obtain ⟨-, hresponses⟩ := List.cons.inj (hmore.symm.trans hanswers)
      have hok := (hresult ([] ++ objects.map .obj)).mpr
        ⟨responses, objects, hresponses, pagesFrom_iff.mpr hpaging, rfl⟩
      cases hok
  · subst herror
    refine stageEnds_error fun info responses objects hanswers _ => ?_
    cases (List.cons.inj hanswers).1

/-- A run of the stage makes at most 1001 requests. -/
theorem length_le_of_run {tr : List (Program.Event XrplAnswer)} {q : SourceProgram Unit}
    (hrun : Run Program.Step (registryStage P profile .blackholed) tr q) : tr.length ≤ 1001 := by
  rcases List.eq_nil_or_concat tr with rfl | ⟨before, e, rfl⟩
  · exact Nat.zero_le _
  · rw [List.concat_eq_append] at hrun ⊢
    have hguard := (ensures_registryStage P profile).guard_of_run hrun
    rw [List.length_append, List.length_singleton]
    exact Nat.succ_le_succ hguard

theorem neverStops_registryStage : Program.NeverStops (registryStage P profile .blackholed) := by
  refine Program.NeverStops.bind (fun info => ?_) fun r => trivial
  refine Program.NeverStops.bind (fun objects => ?_) ?_
  · exact trivial
  · exact neverStops_accountObjectsLoop 1000 [] .undefined []

/-- The stage is never cut short and ends after at most 1001 requests.  It passes if and only if the
server has answered with the account and with a paging, both from the activation ledger, and the
account is a black hole by the account and all the objects together.  Two pagings of the same
objects give the same verdict. -/
theorem registryStage_blackholed (P : Platform) (profile : NetworkProfile) :
    Program.NeverStops (registryStage P profile .blackholed) ∧
    (∀ tr q, Run Program.Step (registryStage P profile .blackholed) tr q → tr.length ≤ 1001) ∧
    (∀ tr result, Run Program.Step (registryStage P profile .blackholed) tr (.done result) →
      (result = .ok () ↔ ∃ info responses root objects,
        answers tr = .ok info :: responses.map .ok ∧ IsAccountRoot profile info root ∧
          IsPaging profile responses objects ∧ IsBlackholed profile P root objects)) ∧
    ∀ tr tr' result result' info responses responses' objects,
      Run Program.Step (registryStage P profile .blackholed) tr (.done result) →
      Run Program.Step (registryStage P profile .blackholed) tr' (.done result') →
      answers tr = .ok info :: responses.map .ok →
      answers tr' = .ok info :: responses'.map .ok →
      IsPaging profile responses objects → IsPaging profile responses' objects →
      result = result' := by
  refine ⟨neverStops_registryStage, fun tr q => length_le_of_run, fun tr result hrun => ?_, ?_⟩
  · have hends := (ensures_registryStage P profile).result_of_run hrun
    constructor
    · intro hok
      obtain ⟨info, responses, objects, hanswers, hpaging⟩ := hends.paging hok
      have hverdict := hends.verdict info responses objects hanswers hpaging
      obtain ⟨root, hroot, hblackholed⟩ :=
        assertRegistryBlackholed_eq_ok.mp (hverdict.symm.trans hok)
      exact ⟨info, responses, root, objects, hanswers, hroot, hpaging, hblackholed⟩
    · rintro ⟨info, responses, root, objects, hanswers, hroot, hpaging, hblackholed⟩
      rw [hends.verdict info responses objects hanswers hpaging]
      exact assertRegistryBlackholed_eq_ok.mpr ⟨root, hroot, hblackholed⟩
  · intro tr tr' result result' info responses responses' objects hrun hrun' hanswers hanswers'
      hpaging hpaging'
    have hends := (ensures_registryStage P profile).result_of_run hrun
    have hends' := (ensures_registryStage P profile).result_of_run hrun'
    rw [hends.verdict info responses objects hanswers hpaging,
      hends'.verdict info responses' objects hanswers' hpaging']

/-- The members that every response has. -/
def sampleResult (members : Members) : JsValue :=
  .obj ((js "validated", .bool true) :: (js "ledger_hash", sampleHash 0x61)
    :: (js "ledger_index", .num (.ofNat 7)) :: members)

/-- The account of a black hole. -/
def sampleAccountInfo : JsValue :=
  sampleResult [(js "account_data", .obj [(js "LedgerEntryType", .str (js "AccountRoot")),
    (js "Account", .str testnetProfile.registryAddress), (js "Flags", .num (.ofNat 0x00100000)),
    (js "RegularKey", .str xrplAccountOne)])]

/-- A page with one object, and a marker unless it is the last one. -/
def sampleAccountObjects (entryType : String) (marker : Members) : JsValue :=
  sampleResult ((js "account", .str testnetProfile.registryAddress)
    :: (js "account_objects", .arr [.obj [(js "LedgerEntryType", .str (js entryType))]]) :: marker)

/-- A server with two pages of objects. -/
def sampleServer : (r : XrplRequest) → XrplAnswer r
  | .accountInfo _ _ => .ok sampleAccountInfo
  | .accountObjects _ _ .undefined =>
      .ok (sampleAccountObjects "Check" [(js "marker", .str (js "next"))])
  | .accountObjects _ _ _ => .ok (sampleAccountObjects "Offer" [])
  | _ => .ok .undefined

/-- A program has passed. -/
def hasPassed : SourceProgram Unit → Bool
  | .done (.ok _) => true
  | _ => false

theorem eq_of_hasPassed : ∀ {p : SourceProgram Unit}, hasPassed p = true → p = .done (.ok ())
  | .done (.ok _), _ => rfl

theorem registryStage_blackholed_sample :
    ∃ tr, Run Program.Step (registryStage Platform.sample testnetProfile .blackholed) tr
      (.done (.ok ())) ∧
      ∃ info responses root objects, answers tr = .ok info :: responses.map .ok ∧
        IsAccountRoot testnetProfile info root ∧ IsPaging testnetProfile responses objects ∧
        IsBlackholed testnetProfile Platform.sample root objects := by
  have hrun := Program.run_advance sampleServer 3
    (registryStage Platform.sample testnetProfile .blackholed)
  have hpassed : hasPassed (Program.advance sampleServer 3
      (registryStage Platform.sample testnetProfile .blackholed)).2 = true := by
    decide +kernel
  rw [eq_of_hasPassed hpassed] at hrun
  exact ⟨_, hrun,
    ((registryStage_blackholed Platform.sample testnetProfile).2.2.1 _ _ hrun).mp rfl⟩

end Indexer
end Xcs
