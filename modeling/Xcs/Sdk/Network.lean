import Xcs.Indexer.Types

/-!
# Network profiles

The client and the indexer are configured with a profile of the network.  `parseNetworkProfile`
checks every field of it, first in the protocol package and then, for the address of the registry,
once more in the client.
-/

namespace Xcs
namespace Sdk

open Js Xcs.Core Indexer

/-! ## What is thrown -/

/-- What a function of the client throws: an `XcsSdkError`, an error of the protocol package, or an
error of the language or of another package. -/
inductive SdkError where
  | sdk (code message : JsString) (details : Members)
  | core (error : Thrown)
  | other

/-- What a function of the client returns. -/
abbrev SdkResult (α : Type) := Except SdkError α

/-- `throw new XcsSdkError(code, message, details)` -/
def failSdk {α : Type} (code message : JsString) (details : Members) : SdkResult α :=
  .error (.sdk code message details)

/-- A call of the protocol package. -/
def ofCore {α : Type} (result : Except Thrown α) : SdkResult α :=
  result.mapError .core

@[simp] theorem ofCore_eq_ok {α : Type} {result : Except Thrown α} {a : α} :
    ofCore result = .ok a ↔ result = .ok a := by
  cases result with
  | ok b => exact ⟨fun h => (by cases h; rfl), fun h => (by cases h; rfl)⟩
  | error e => exact ⟨fun h => (by cases h), fun h => (by cases h)⟩

/-! ## Addresses -/

/-- `isValidClassicAddress` on any value; what is no string is no address. -/
def isClassicAddress (P : Platform) : JsValue → Bool
  | .str s => P.isValidClassicAddress s
  | _ => false

/-- `assertClassicAddress` -/
def assertClassicAddress (P : Platform) (address : JsValue) (field : JsString) : SdkResult Unit :=
  if isClassicAddress P address then .ok ()
  else
    failSdk (js "XCS_SDK_INVALID_ADDRESS")
      (field ++ js (" must be a valid XRPL classic address. "
        ++ "X-addresses are not accepted by XCS v0.1."))
      [(js "field", .str field), (js "address", address)]

@[simp] theorem assertClassicAddress_eq_ok {P : Platform} {address : JsValue} {field : JsString}
    {u : Unit} : assertClassicAddress P address field = .ok u ↔
      ∃ s, address = .str s ∧ P.isValidClassicAddress s = true := by
  unfold assertClassicAddress
  cases address with
  | str s =>
      by_cases h : isClassicAddress P (.str s) = true
      · rw [if_pos h]
        exact iff_of_true rfl ⟨s, rfl, h⟩
      · rw [if_neg h]
        refine iff_of_false (fun he => (by cases he)) ?_
        rintro ⟨_, hs, hvalid⟩
        cases hs
        exact h hvalid
  | _ =>
      refine iff_of_false (fun he => (by cases he)) ?_
      rintro ⟨_, hs, -⟩
      cases hs

/-! ## The profile -/

/-- `PROFILE_PROPERTIES` -/
def profileProperties : List JsString :=
  [js "profileId", js "xcsVersion", js "networkId", js "requiredAmendment", js "registryAddress",
    js "registrationAmountDrops", js "activationLedgerIndex", js "activationLedgerHash"]

/-- `fail` with the code `INVALID_NETWORK_PROFILE`. -/
def invalidProfile {α : Type} (message path : JsString) : Except Thrown α :=
  failXcs .invalidNetworkProfile message path []

/-- The loop of `parseNetworkProfile` over the properties. -/
def rejectUnknownProfileProperties (members : Members) : Except Thrown Unit :=
  match members.find? fun m => decide (m.1 ∉ profileProperties) with
  | some m => invalidProfile (js "Unknown property " ++ m.1) (js "$." ++ m.1)
  | none => .ok ()

/-- A property that is a string of a shape. -/
def profileText (valid : JsString → Bool) (value : JsValue) (message path : JsString) :
    Except Thrown JsString :=
  match value with
  | .str s => if valid s then .ok s else invalidProfile message path
  | _ => invalidProfile message path

/-- A property that is a uint32 in a range. -/
def profileUint32 (valid : ℕ → Bool) (value : JsValue) (message path : JsString) :
    Except Thrown ℕ :=
  match value with
  | .num n =>
      match n.toUint32? with
      | some m => if valid m then .ok m else invalidProfile message path
      | none => invalidProfile message path
  | _ => invalidProfile message path

/-- `parseNetworkProfile` of the protocol package. -/
def parseCoreNetworkProfile (P : Platform) (input : JsValue) : Except Thrown NetworkProfile :=
  match input with
  | .obj members => do
      rejectUnknownProfileProperties members
      let profileId ← profileText matchesProfileId (input.get (js "profileId"))
        (js "Invalid profileId") (js "$.profileId")
      let _ ← profileText (· == js "0.1") (input.get (js "xcsVersion"))
        (js "Unsupported XCS version") (js "$.xcsVersion")
      let networkId ← profileUint32 (fun _ => true) (input.get (js "networkId"))
        (js "networkId must be a uint32") (js "$.networkId")
      let requiredAmendment ← profileText isHash (input.get (js "requiredAmendment"))
        (js "requiredAmendment must be a 32-byte hexadecimal value") (js "$.requiredAmendment")
      let registryAddress ← profileText P.isValidClassicAddress (input.get (js "registryAddress"))
        (js "Invalid XRPL registry address") (js "$.registryAddress")
      let _ ← profileText (· == js "1") (input.get (js "registrationAmountDrops"))
        (js "registrationAmountDrops must equal \"1\"") (js "$.registrationAmountDrops")
      let activationLedgerIndex ← profileUint32 (fun n => decide (n ≠ 0))
        (input.get (js "activationLedgerIndex"))
        (js "activationLedgerIndex must be a positive uint32") (js "$.activationLedgerIndex")
      let activationLedgerHash ← profileText isHash (input.get (js "activationLedgerHash"))
        (js "activationLedgerHash must be a 32-byte hexadecimal value")
        (js "$.activationLedgerHash")
      pure { profileId, networkId, requiredAmendment := toUpperCase requiredAmendment,
             registryAddress, activationLedgerIndex,
             activationLedgerHash := toLowerCase activationLedgerHash }
  | _ => invalidProfile (js "Network profile must be an object") (js "$")

/-- `parseNetworkProfile` -/
def parseNetworkProfile (P : Platform) (input : JsValue) : SdkResult NetworkProfile := do
  let profile ← ofCore (parseCoreNetworkProfile P input)
  assertClassicAddress P (.str profile.registryAddress) (js "registryAddress")
  pure profile

theorem profileText_eq_ok {valid : JsString → Bool} {value : JsValue} {message path s : JsString} :
    profileText valid value message path = .ok s ↔ value = .str s ∧ valid s = true := by
  unfold profileText
  cases value with
  | str t =>
      by_cases h : valid t = true
      · simp only [h, if_true, Except.ok.injEq, JsValue.str.injEq]
        refine ⟨?_, And.left⟩
        rintro rfl
        exact ⟨rfl, h⟩
      · simp only [h, JsValue.str.injEq]
        refine iff_of_false (fun he => (by cases he)) ?_
        rintro ⟨rfl, hvalid⟩
        exact h hvalid
  | _ => exact iff_of_false (fun he => (by cases he)) (fun he => (by cases he.1))

theorem of_profileUint32 {valid : ℕ → Bool} {value : JsValue} {message path : JsString} {n : ℕ}
    (h : profileUint32 valid value message path = .ok n) : n ≤ 0xffffffff ∧ valid n = true := by
  unfold profileUint32 at h
  split at h
  · split at h
    · rename_i m hm
      split_ifs at h with hvalid
      · cases h
        unfold JsNumber.toUint32? at hm
        exact ⟨of_decide_eq_true (Option.mem_filter_iff.mp hm).2, hvalid⟩
      · cases h
    · cases h
  · cases h

/-- The numbers of a profile that was parsed. -/
theorem of_parseCoreNetworkProfile {P : Platform} {input : JsValue} {profile : NetworkProfile}
    (h : parseCoreNetworkProfile P input = .ok profile) :
    profile.networkId ≤ 0xffffffff ∧ profile.activationLedgerIndex ≤ 0xffffffff ∧
      profile.activationLedgerIndex ≠ 0 := by
  cases input with
  | obj members =>
      simp only [parseCoreNetworkProfile, bind_eq_ok, pure_eq_ok] at h
      obtain ⟨_, -, _, -, _, -, networkId, hnetworkId, _, -, _, -, _, -, activation, hactivation,
        _, -, rfl⟩ := h
      obtain ⟨hle, hne⟩ := of_profileUint32 hactivation
      exact ⟨(of_profileUint32 hnetworkId).1, hle, of_decide_eq_true hne⟩
  | _ => cases h

/-- What is known of a profile that was parsed. -/
theorem parseNetworkProfile_eq_ok {P : Platform} {input : JsValue} {profile : NetworkProfile}
    (h : parseNetworkProfile P input = .ok profile) :
    P.isValidClassicAddress profile.registryAddress = true ∧ profile.networkId ≤ 0xffffffff := by
  simp only [parseNetworkProfile, bind_eq_ok, ofCore_eq_ok, assertClassicAddress_eq_ok,
    exists_const, pure_eq_ok] at h
  obtain ⟨_, hparse, ⟨s, hs, hvalid⟩, rfl⟩ := h
  rw [JsValue.str.injEq] at hs
  subst hs
  exact ⟨hvalid, (of_parseCoreNetworkProfile hparse).1⟩

/-! ## Profiles as values -/

/-- The object a profile is. -/
def profileJs (profile : NetworkProfile) : JsValue :=
  .obj [(js "profileId", .str profile.profileId), (js "xcsVersion", .str profile.xcsVersion),
    (js "networkId", .num (JsNumber.ofNat profile.networkId)),
    (js "requiredAmendment", .str profile.requiredAmendment),
    (js "registryAddress", .str profile.registryAddress),
    (js "registrationAmountDrops", .str profile.registrationAmountDrops),
    (js "activationLedgerIndex", .num (JsNumber.ofNat profile.activationLedgerIndex)),
    (js "activationLedgerHash", .str profile.activationLedgerHash)]

/-- What a profile that was parsed fulfils. -/
structure IsProfile (P : Platform) (profile : NetworkProfile) : Prop where
  profileId : matchesProfileId profile.profileId = true
  networkId : profile.networkId ≤ 0xffffffff
  requiredAmendment : isHash profile.requiredAmendment = true
  requiredAmendment_upper : toUpperCase profile.requiredAmendment = profile.requiredAmendment
  registryAddress : P.isValidClassicAddress profile.registryAddress = true
  activationLedgerIndex : profile.activationLedgerIndex ≤ 0xffffffff
  activationLedgerIndex_ne : profile.activationLedgerIndex ≠ 0
  activationLedgerHash : isLowerHash profile.activationLedgerHash = true

theorem profileUint32_ofNat {valid : ℕ → Bool} {n : ℕ} (hn : n ≤ 0xffffffff)
    (hvalid : valid n = true) (message path : JsString) :
    profileUint32 valid (.num (JsNumber.ofNat n)) message path = .ok n := by
  have huint : (JsNumber.ofNat n).toUint32? = some n := by
    unfold JsNumber.toUint32?
    rw [JsNumber.toNat?_ofNat (by omega)]
    exact if_pos (decide_eq_true hn)
  unfold profileUint32
  dsimp only
  rw [huint]
  exact if_pos hvalid

theorem profileText_str {valid : JsString → Bool} {s : JsString} (h : valid s = true)
    (message path : JsString) : profileText valid (.str s) message path = .ok s :=
  profileText_eq_ok.mpr ⟨rfl, h⟩

/-- **A profile is parsed again**, to itself. -/
theorem parseNetworkProfile_profileJs {P : Platform} {profile : NetworkProfile}
    (h : IsProfile P profile) : parseNetworkProfile P (profileJs profile) = .ok profile := by
  have hcore : parseCoreNetworkProfile P (profileJs profile) = .ok profile := by
    have hversion : profile.xcsVersion == js "0.1" := beq_self_eq_true _
    have hamount : profile.registrationAmountDrops == js "1" := beq_self_eq_true _
    unfold parseCoreNetworkProfile profileJs
    simp only [bind_eq_ok]
    refine ⟨(), rfl, _, profileText_str h.profileId _ _, _, profileText_str hversion _ _,
      _, profileUint32_ofNat h.networkId rfl _ _, _, profileText_str h.requiredAmendment _ _,
      _, profileText_str h.registryAddress _ _, _, profileText_str hamount _ _,
      _, profileUint32_ofNat h.activationLedgerIndex
        (decide_eq_true h.activationLedgerIndex_ne) _ _,
      _, profileText_str (isHash_of_isLowerHash h.activationLedgerHash) _ _, ?_⟩
    rw [h.requiredAmendment_upper, toLowerCase_of_isLowerHash h.activationLedgerHash]
    rfl
  have haddress : assertClassicAddress P (.str profile.registryAddress) (js "registryAddress")
      = .ok () := assertClassicAddress_eq_ok.mpr ⟨_, rfl, h.registryAddress⟩
  unfold parseNetworkProfile
  rw [hcore]
  show (assertClassicAddress P (.str profile.registryAddress) _ >>= fun _ => pure profile) = _
  rw [haddress]
  rfl

end Sdk
end Xcs
