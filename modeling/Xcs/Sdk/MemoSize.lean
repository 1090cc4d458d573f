import Xcs.Sdk.Builders

/-!
# The size of the memos of a transaction

The ledger refuses a transaction whose memos take more than 1024 bytes in the binary format.  The
validation measures one memo that it writes anew from the definition, whatever the transaction
carries beside it.

* `measureTransactionMemoBytes_eq`: the measure is the number of bytes of the memos.
* `registrationMemos_fit_iff`: the memos of an accepted registration keep to the limit exactly when
  the other memos fit in what the memo of the registration leaves.
-/

namespace Xcs
namespace Sdk

open Js Json Xcs.Core

/-! ## The binary format -/

/-- The length in front of a field of variable length, in one to three bytes. -/
def lengthPrefix (length : ℕ) : List UInt8 :=
  if length ≤ 192 then [UInt8.ofNat length]
  else if length ≤ 12480 then
    [UInt8.ofNat (193 + (length - 193) / 256), UInt8.ofNat ((length - 193) % 256)]
  else
    [UInt8.ofNat (241 + (length - 12481) / 65536), UInt8.ofNat ((length - 12481) / 256 % 256),
      UInt8.ofNat ((length - 12481) % 256)]

/-- A field of a memo, where it is present: its header, its length and its bytes. -/
def serializedMemoField (header : UInt8) (value : JsValue) : List UInt8 :=
  match value with
  | .str digits =>
      match hexToBytes digits with
      | some bytes => header :: (lengthPrefix bytes.length ++ bytes)
      | none => []
  | _ => []

/-- A memo: its header, its fields in the order of their codes, and the end of an object. -/
def serializedMemo (memo : JsValue) : List UInt8 :=
  0xea :: (serializedMemoField 0x7c (memo.get (js "MemoType"))
    ++ serializedMemoField 0x7d (memo.get (js "MemoData"))
    ++ serializedMemoField 0x7e (memo.get (js "MemoFormat")) ++ [0xe1])

/-- The objects of an array of memos. -/
def serializedMemos (entries : List JsValue) : List UInt8 :=
  entries.flatMap fun entry => serializedMemo (entry.get (js "Memo"))

/-- `encode` writes the binary format: the memos are the last field of the payment the client
measures with, between the header of the array and its end. -/
structure WritesBinaryFormat (X : XrplLibrary) : Prop where
  memos : ∀ entries blob, isMemosField (.arr entries) = true →
    X.encode (.obj (memoPayment ++ [(js "Memos", .arr entries)])) = some blob →
      ∃ base, X.encode (.obj memoPayment) = some base ∧
        blob = base ++ toUpperCase (bytesToHex (0xf9 :: (serializedMemos entries ++ [0xf1])))

variable {P : Platform} {X : XrplLibrary}

/-- **The measure is the number of bytes of the memos.** -/
theorem measureTransactionMemoBytes_eq (hX : WritesBinaryFormat X) {entries : List JsValue} {n : ℤ}
    (hentries : isMemosField (.arr entries) = true)
    (h : measureTransactionMemoBytes X entries = .ok n) :
    n = ((serializedMemos entries).length : ℤ) := by
  unfold measureTransactionMemoBytes encodedLength at h
  cases hblob : X.encode (.obj (memoPayment ++ [(js "Memos", .arr entries)])) with
  | none =>
      rw [hblob] at h
      cases h
  | some blob =>
      obtain ⟨base, hbase, rfl⟩ := hX.memos entries blob hentries hblob
      rw [hblob, hbase] at h
      simp only [bind_eq_ok, Except.ok.injEq, exists_eq_left', pure_eq_ok', List.length_append,
        length_toUpperCase, length_bytesToHex, List.length_cons, List.length_nil] at h
      unfold xrplMemosFieldEnvelopeBytes at h
      omega

theorem length_serializedMemoField {header : UInt8} {digits : JsString} {bytes : List UInt8}
    (h : hexToBytes digits = some bytes) : (serializedMemoField header (.str digits)).length
      = 1 + (lengthPrefix bytes.length).length + bytes.length := by
  unfold serializedMemoField
  dsimp only
  rw [h]
  dsimp only
  rw [List.length_cons, List.length_append]
  omega

theorem serializedMemos_cons (entry : JsValue) (entries : List JsValue) :
    serializedMemos (entry :: entries)
      = serializedMemo (entry.get (js "Memo")) ++ serializedMemos entries := by
  unfold serializedMemos
  rw [List.flatMap_cons]

/-! ## The memo of the registration and the others -/

/-- Whether an entry is a memo of a registration. -/
def isXcsEntry (entry : JsValue) : Bool :=
  decodeOptionalMemoField ((entry.get (js "Memo")).get (js "MemoType")) == some xcsSchemaMemoType

/-- The other memos. -/
def foreignMemos (entries : List JsValue) : List JsValue :=
  entries.filter fun entry => !isXcsEntry entry

/-- What the memo of a registration with a number of bytes of data leaves of the limit. -/
def memoRoom (dataBytes : ℕ) : ℕ :=
  982 - ((lengthPrefix dataBytes).length + dataBytes)

theorem memoOf_eq_ok {entry memo : JsValue} (h : memoOf entry = .ok memo) :
    memo = entry.get (js "Memo") := by
  unfold memoOf at h
  split_ifs at h
  exact (Except.ok.inj h).symm

/-- The bytes of the memos are those of the memos of registrations and those of the others. -/
theorem length_serializedMemos_of_selectXcsMemos {entries memos : List JsValue}
    (h : selectXcsMemos entries = .ok memos) :
    (serializedMemos entries).length
      = (memos.flatMap serializedMemo).length
        + (serializedMemos (foreignMemos entries)).length := by
  induction entries generalizing memos with
  | nil =>
      cases h
      rfl
  | cons entry entries ih =>
      simp only [selectXcsMemos, bind_eq_ok, pure_eq_ok'] at h
      obtain ⟨memo, hmemo, rest, hrest, rfl⟩ := h
      obtain rfl := memoOf_eq_ok hmemo
      rw [serializedMemos_cons, List.length_append, ih hrest]
      by_cases hxcs : isXcsEntry entry = true
      · have hforeign : foreignMemos (entry :: entries) = foreignMemos entries :=
          List.filter_cons_of_neg (by rw [hxcs]; decide)
        unfold isXcsEntry at hxcs
        rw [hforeign, if_pos hxcs, List.flatMap_cons, List.length_append]
        omega
      · have hforeign : foreignMemos (entry :: entries) = entry :: foreignMemos entries :=
          List.filter_cons_of_pos (by rw [Bool.not_eq_true] at hxcs; rw [hxcs]; rfl)
        unfold isXcsEntry at hxcs
        rw [hforeign, if_neg hxcs, serializedMemos_cons, List.length_append]
        omega

/-- A field that decodes to a text holds its bytes. -/
theorem hexToBytes_of_decodeOptionalMemoField {value : JsValue} {text : JsString}
    (h : decodeOptionalMemoField value = some text) :
    ∃ digits, value = .str digits ∧ hexToBytes digits = some (encodeUtf8 text) := by
  cases value with
  | str digits =>
      rw [decodeOptionalMemoField_str, Option.bind_eq_some_iff] at h
      obtain ⟨bytes, hbytes, hdecode⟩ := h
      rw [(decodeUtf8_eq_some hdecode).2]
      exact ⟨digits, rfl, hbytes⟩
  | _ => cases h

/-- The bytes of a memo of a registration. -/
theorem length_serializedMemo {memo : JsValue} {memoData : JsString} {bytes : List UInt8}
    (htype : decodeOptionalMemoField (memo.get (js "MemoType")) = some xcsSchemaMemoType)
    (hformat : decodeOptionalMemoField (memo.get (js "MemoFormat")) = some xcsSchemaMemoFormat)
    (hdata : memo.get (js "MemoData") = .str memoData) (hbytes : hexToBytes memoData = some bytes) :
    (serializedMemo memo).length = 42 + (lengthPrefix bytes.length).length + bytes.length := by
  obtain ⟨typeDigits, htypeDigits, htypeBytes⟩ := hexToBytes_of_decodeOptionalMemoField htype
  obtain ⟨formatDigits, hformatDigits, hformatBytes⟩ :=
    hexToBytes_of_decodeOptionalMemoField hformat
  unfold serializedMemo
  rw [htypeDigits, hformatDigits, hdata]
  simp only [List.length_cons, List.length_append, length_serializedMemoField htypeBytes,
    length_serializedMemoField hformatBytes, length_serializedMemoField hbytes]
  have htypeLength : (encodeUtf8 xcsSchemaMemoType).length = 19 := by decide
  have hformatLength : (encodeUtf8 xcsSchemaMemoFormat).length = 16 := by decide
  have htypePrefix : (lengthPrefix 19).length = 1 := rfl
  have hformatPrefix : (lengthPrefix 16).length = 1 := rfl
  rw [htypeLength, hformatLength, htypePrefix, hformatPrefix, List.length_nil]
  omega

theorem type_of_mem_selectXcsMemos {entries memos : List JsValue}
    (h : selectXcsMemos entries = .ok memos) {memo : JsValue} (hmemo : memo ∈ memos) :
    decodeOptionalMemoField (memo.get (js "MemoType")) = some xcsSchemaMemoType := by
  induction entries generalizing memos with
  | nil =>
      cases h
      cases hmemo
  | cons entry entries ih =>
      simp only [selectXcsMemos, bind_eq_ok, pure_eq_ok'] at h
      obtain ⟨first, -, rest, hrest, rfl⟩ := h
      split_ifs at hmemo with hfirst
      · rw [beq_iff_eq] at hfirst
        rcases List.mem_cons.mp hmemo with rfl | hmem
        · exact hfirst
        · exact ih hrest hmem
      · exact ih hrest hmemo

/-- What is measured, the memo written anew, keeps to the limit. -/
theorem length_le_of_assertMemoFits (hX : WritesBinaryFormat X) {canonicalSchema : JsString}
    (hpositive : 0 < (encodeUtf8 canonicalSchema).length)
    (h : assertMemoFits X canonicalSchema = .ok ()) :
    42 + (lengthPrefix (encodeUtf8 canonicalSchema).length).length
      + (encodeUtf8 canonicalSchema).length ≤ 1024 := by
  simp only [assertMemoFits, measureSchemaRegistrationMemoBytes, bind_eq_ok] at h
  obtain ⟨n, hn, hlimit⟩ := h
  have hentries : isMemosField (.arr [schemaMemo canonicalSchema]) = true := by
    show (isMemoEntry (schemaMemo canonicalSchema) && true) = true
    rw [isMemoEntry_schemaMemo hpositive]
    rfl
  have hmeasure := measureTransactionMemoBytes_eq hX hentries hn
  have hone : serializedMemos [schemaMemo canonicalSchema]
      = serializedMemo (memoFieldsOf canonicalSchema) := List.append_nil _
  have htype : decodeOptionalMemoField ((memoFieldsOf canonicalSchema).get (js "MemoType"))
      = some xcsSchemaMemoType := decodeOptional_encodeMemoField (by decide)
  have hformat : decodeOptionalMemoField ((memoFieldsOf canonicalSchema).get (js "MemoFormat"))
      = some xcsSchemaMemoFormat := decodeOptional_encodeMemoField (by decide)
  rw [hone, length_serializedMemo htype hformat rfl (hexToBytes_encodeMemoField _)] at hmeasure
  split_ifs at hlimit with htoo
  · cases hlimit
  · unfold maxXrplMemoBytes at htoo
    omega

/-- **The memos of an accepted registration take at most 1024 bytes if and only if the other memos
fit in what the memo of the registration leaves.**  That memo alone always fits. -/
theorem registrationMemos_fit_iff (P : Platform) (X : XrplLibrary) (hX : WritesBinaryFormat X)
    (transaction profileInput tx : JsValue)
    (h : assertXcsTransactionSemantics P X transaction profileInput
      = .ok (.schemaRegistration tx)) :
    ∃ entries memo memoData bytes, memosOf (transaction.get (js "Memos")) = .ok entries ∧
      selectXcsMemos entries = .ok [memo] ∧ memo.get (js "MemoData") = .str memoData ∧
        hexToBytes memoData = some bytes ∧
          ((serializedMemos entries).length ≤ 1024 ↔
            (serializedMemos (foreignMemos entries)).length ≤ memoRoom bytes.length) := by
  obtain ⟨profile, -, -, hregistration⟩ := isSchemaRegistration_of_accepted h
  obtain ⟨entries, memo, hentries, hmemos, hmemo⟩ := hregistration.memo
  obtain ⟨hformat, memoData, hdata, hchecked⟩ := checkMemo_eq_ok.mp hmemo
  obtain ⟨bytes, text, schema, hbytes, hdecode, hparse, hfits⟩ := checkMemoData_eq_ok.mp hchecked
  refine ⟨entries, memo, memoData, bytes, hentries, hmemos, hdata, hbytes, ?_⟩
  have htext : encodeUtf8 text = bytes := (decodeUtf8_eq_some hdecode).2
  have hlimit := length_le_of_assertMemoFits hX
    (by rw [htext]; exact length_pos_of_parseSchemaBytes hparse) hfits
  rw [htext] at hlimit
  have hxcs := length_serializedMemo
    (type_of_mem_selectXcsMemos hmemos (List.mem_singleton.mpr rfl)) hformat hdata hbytes
  have hone : [memo].flatMap serializedMemo = serializedMemo memo := List.append_nil _
  rw [length_serializedMemos_of_selectXcsMemos hmemos, hone, hxcs]
  unfold memoRoom
  omega

/-! ## A registration with another memo -/

/-- The payment the client measures with, in the binary format. -/
def memoPaymentBlob : JsString :=
  js ("12000024000000016140000000000000016840000000000000" ++ "0C7300"
    ++ "8114B5F762798A53D543A014CAF8B297CFF8F2F937E8"
    ++ "83145E7B112523F68D2F5E879DB4EAC51C6698A69304")

/-- A library that writes the memos of this payment. -/
def binaryLibrary : XrplLibrary :=
  { countingLibrary with
    encode := fun transaction =>
      match transaction.get (js "Memos") with
      | .arr entries => some (memoPaymentBlob
          ++ toUpperCase (bytesToHex (0xf9 :: (serializedMemos entries ++ [0xf1]))))
      | _ => some memoPaymentBlob }

theorem writesBinaryFormat_binaryLibrary : WritesBinaryFormat binaryLibrary where
  memos := by
    intro entries blob _ hblob
    exact ⟨memoPaymentBlob, rfl, (Option.some.inj hblob).symm⟩

/-- The definition of the sample, as it is written. -/
def sampleSchemaText : JsString :=
  canonicalText (SchemaDefinition.toJs
    ⟨js "a", js "b", [(js "c", .scalar .string false)], none, none⟩)

/-- Another memo, with 1024 bytes of data. -/
def largeMemo : JsValue :=
  .obj [(js "Memo", .obj [(js "MemoData", .str (List.replicate 2048 0x41))])]

/-- A registration of the sample with other memos. -/
def registrationWithMemos (others : List JsValue) : JsValue :=
  .obj [(js "TransactionType", .str (js "Payment")), (js "Account", .str sampleIssuer),
    (js "Destination", .str Indexer.testnetProfile.registryAddress),
    (js "Amount", .str Indexer.testnetProfile.registrationAmountDrops),
    (js "Memos", .arr (schemaMemo sampleSchemaText :: others))]

theorem measureTransactionMemoBytes_binaryLibrary (entries : List JsValue) :
    measureTransactionMemoBytes binaryLibrary entries
      = .ok ((serializedMemos entries).length : ℤ) := by
  have hmemos : encodedLength binaryLibrary (memoPayment ++ [(js "Memos", .arr entries)])
      = .ok ((memoPaymentBlob
        ++ toUpperCase (bytesToHex (0xf9 :: (serializedMemos entries ++ [0xf1])))).length : ℤ) :=
    rfl
  have hbase : encodedLength binaryLibrary memoPayment = .ok (memoPaymentBlob.length : ℤ) := rfl
  simp only [measureTransactionMemoBytes, bind_eq_ok, hmemos, hbase, Except.ok.injEq,
    exists_eq_left', pure_eq_ok', List.length_append, length_toUpperCase, length_bytesToHex,
    List.length_cons, List.length_nil, xrplMemosFieldEnvelopeBytes]
  omega

theorem assertMemoFits_sampleSchemaText :
    assertMemoFits binaryLibrary sampleSchemaText = .ok () := by
  have hlength : ¬maxXrplMemoBytes
      < ((serializedMemos [schemaMemo sampleSchemaText]).length : ℤ) := by
    decide +kernel
  simp only [assertMemoFits, measureSchemaRegistrationMemoBytes,
    measureTransactionMemoBytes_binaryLibrary, bind_eq_ok, Except.ok.injEq, exists_eq_left',
    if_neg hlength, pure_eq_ok']

theorem checkMemo_sampleSchemaText :
    checkMemo zerosPlatform binaryLibrary (memoFieldsOf sampleSchemaText) = .ok () := by
  have hschema : parseSchema sampleRegistration.schema
      = .ok ⟨js "a", js "b", [(js "c", .scalar .string false)], none, none⟩ := rfl
  obtain ⟨schema', hparse, -⟩ := parseSchemaBytes_of_encodeSchema (P := zerosPlatform)
    sampleRegistration.schema_distinctKeys hschema (by decide)
  refine checkMemo_eq_ok.mpr ⟨decodeOptional_encodeMemoField (by decide), _, rfl, ?_⟩
  exact checkMemoData_eq_ok.mpr ⟨_, _, schema', hexToBytes_encodeMemoField _,
    decodeUtf8_canonicalText _, hparse, assertMemoFits_sampleSchemaText⟩

/-- A registration of the sample is accepted with any memos of another type beside its own. -/
theorem accepted_registrationWithMemos {others : List JsValue}
    (h : selectXcsMemos others = .ok []) :
    assertXcsTransactionSemantics zerosPlatform binaryLibrary (registrationWithMemos others)
      (profileJs Indexer.testnetProfile)
        = .ok (.schemaRegistration (registrationWithMemos others)) := by
  have hselect : selectXcsMemos (schemaMemo sampleSchemaText :: others)
      = .ok [memoFieldsOf sampleSchemaText] := by
    have hone := selectXcsMemos_schemaMemo sampleSchemaText
    unfold selectXcsMemos at hone ⊢
    rw [h]
    exact hone
  have hregistration : IsSchemaRegistration zerosPlatform binaryLibrary
      (registrationWithMemos others) Indexer.testnetProfile :=
    ⟨⟨sampleIssuer, rfl, by decide⟩, rfl, rfl, rfl, rfl, rfl, rfl,
      ⟨_, _, rfl, hselect, checkMemo_sampleSchemaText⟩⟩
  exact assertXcsTransactionSemantics_eq_ok.mpr ⟨rfl, _,
    parseNetworkProfile_testnet zerosPlatform (by decide), Or.inl ⟨rfl,
      validateSchemaRegistration_eq_ok.mpr ⟨hregistration, rfl⟩⟩⟩

/-- A registration is accepted beside a memo of 1024 bytes of data, and its memos take more than the
limit. -/
theorem registrationWithLargeMemo_exceeds : WritesBinaryFormat binaryLibrary ∧
    assertXcsTransactionSemantics zerosPlatform binaryLibrary (registrationWithMemos [largeMemo])
        (profileJs Indexer.testnetProfile)
      = .ok (.schemaRegistration (registrationWithMemos [largeMemo])) ∧
    ∃ entries, (registrationWithMemos [largeMemo]).get (js "Memos") = .arr entries ∧
      isMemosField (.arr entries) = true ∧
        measureTransactionMemoBytes binaryLibrary entries
          = .ok ((serializedMemos entries).length : ℤ) ∧
        1024 < (serializedMemos entries).length := by
  refine ⟨writesBinaryFormat_binaryLibrary, accepted_registrationWithMemos rfl, _, rfl, ?_,
    measureTransactionMemoBytes_binaryLibrary _, ?_⟩
  · decide +kernel
  · decide +kernel

/-- Without other memos the sample keeps to the limit. -/
theorem registrationMemos_fit_iff_sample :
    (serializedMemos [schemaMemo sampleSchemaText]).length ≤ 1024 := by
  obtain ⟨entries, memo, memoData, bytes, hentries, -, -, -, hfit⟩ :=
    registrationMemos_fit_iff zerosPlatform binaryLibrary writesBinaryFormat_binaryLibrary
      (registrationWithMemos []) (profileJs Indexer.testnetProfile) (registrationWithMemos [])
      (accepted_registrationWithMemos rfl)
  have hone : entries = [schemaMemo sampleSchemaText] := (Except.ok.inj hentries).symm
  subst hone
  refine hfit.mpr ?_
  have hforeign : foreignMemos [schemaMemo sampleSchemaText] = [] := by decide +kernel
  rw [hforeign]
  exact Nat.zero_le _

end Sdk
end Xcs
