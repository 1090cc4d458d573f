import Mathlib.Data.List.TakeWhile
import Xcs.Core.Json

/-!
# Payload URIs

A credential names its payload by an IPFS URI, whose content identifier carries the digest, or by
an HTTPS URI whose fragment is the digest.  `parsePayloadUri` accepts such a URI and derives the
URL to fetch and the digest to expect.
-/

namespace Xcs
namespace Core

open Js Json

/-- `PayloadUri` -/
inductive PayloadUri where
  | ipfs (uri cid digestHex : JsString)
  | https (uri fetchUrl digestHex : JsString)
  deriving DecidableEq

/-- `HTTPS_PREFIX` -/
def httpsPrefix : JsString := js "https://"

/-- `SHA_256_MULTIHASH_CODE` -/
def sha256MultihashCode : ℕ := 0x12

/-- The code of the raw codec. -/
def rawCode : ℕ := 0x55

/-- `fail` with the code `INVALID_PAYLOAD_URI`. -/
def invalidPayloadUri {α : Type} (message : JsString) : Except Thrown α :=
  failXcs .invalidPayloadUri message (js "$uri") []

/-! ## Strings -/

/-- The text before the first unit of a set, and the text from there on. -/
def spanUntil (stop : CodeUnit → Bool) (s : JsString) : JsString × JsString :=
  s.span fun u => !stop u

/-- The text before the last occurrence of a unit, and the text from there on; everything comes
before where the unit does not occur. -/
def spanLast (u : CodeUnit) : JsString → JsString × JsString
  | [] => ([], [])
  | v :: rest =>
      if v == u && !rest.contains u then ([], v :: rest)
      else ((v :: (spanLast u rest).1), (spanLast u rest).2)

/-- The pieces of a text between the occurrences of a unit. -/
def splitAll (u : CodeUnit) : JsString → List JsString
  | [] => [[]]
  | v :: rest =>
      match splitAll u rest with
      | [] => [[v]]
      | piece :: pieces => if v == u then [] :: piece :: pieces else (v :: piece) :: pieces

/-- `/` `?` `#` -/
def isAuthorityEnd (u : CodeUnit) : Bool :=
  u == 0x2f || u == 0x3f || u == 0x23

/-- `INVALID_RAW_HTTPS_CHARACTER` -/
def isInvalidRawHttps (u : CodeUnit) : Bool :=
  u ≤ 0x20 || u == 0x7f || u == 0x5c

/-- A character that `hasInvalidHostCharacter` looks for. -/
def isInvalidHostCharacter (u : CodeUnit) : Bool :=
  u ≤ 0x20 || u == 0x7f || decide (u ∈ js "/?#@:[]\\%<>^|`\x7b\x7d")

/-- The ASCII letters and digits. -/
def isAlphanumeric (u : CodeUnit) : Bool :=
  isUpper u || isLower u || isDigit u

/-- `CANONICAL_HTTPS_PATH_ASCII` -/
def isCanonicalPathUnit (u : CodeUnit) : Bool :=
  isAlphanumeric u || decide (u ∈ js "-._~!$&'()*+,;=:@/")

/-- `CANONICAL_HTTPS_QUERY_ASCII` -/
def isCanonicalQueryUnit (u : CodeUnit) : Bool :=
  isAlphanumeric u || decide (u ∈ js "-._~!$&()*+,;=:@/?")

/-- `isCanonicalComponent` -/
def isCanonicalComponent (allowed : CodeUnit → Bool) : JsString → Bool
  | [] => true
  | [u] => u != 0x25 && allowed u
  | [u, v] => u != 0x25 && allowed u && v != 0x25 && allowed v
  | u :: a :: b :: rest =>
      if u == 0x25 then isHexDigit a && isHexDigit b && isCanonicalComponent allowed rest
      else allowed u && isCanonicalComponent allowed (a :: b :: rest)

/-- A path segment with every `%2e` read as a dot. -/
def decodeDots : JsString → JsString
  | u :: a :: b :: rest =>
      if u == 0x25 && a == 0x32 && (b == 0x65 || b == 0x45) then 0x2e :: decodeDots rest
      else u :: decodeDots (a :: b :: rest)
  | s => s

/-- The escapes of a text as bytes and the other units as they are. -/
def percentUnits : JsString → Option (List (UInt8 ⊕ CodeUnit))
  | [] => some []
  | [u] => if u == 0x25 then none else some [.inr u]
  | [u, v] => if u == 0x25 || v == 0x25 then none else some [.inr u, .inr v]
  | u :: a :: b :: rest =>
      if u == 0x25 then
        match hexValue a, hexValue b, percentUnits rest with
        | some x, some y, some units => some (.inl (x * 16 + y).toUInt8 :: units)
        | _, _, _ => none
      else (percentUnits (a :: b :: rest)).map (.inr u :: ·)

/-- The text of escaped bytes and other units; a run of bytes is UTF-8. -/
def decodePercentUnits : List UInt8 → List (UInt8 ⊕ CodeUnit) → Option JsString
  | run, [] => decodeUtf8 run.reverse
  | run, .inl b :: units => decodePercentUnits (b :: run) units
  | run, .inr u :: units =>
      match decodeUtf8 run.reverse, decodePercentUnits [] units with
      | some s, some t => some (s ++ u :: t)
      | _, _ => none

/-- `decodeURIComponent`; `none` is a `URIError`. -/
def decodeURIComponent (s : JsString) : Option JsString :=
  (percentUnits s).bind (decodePercentUnits [])

/-! ## HTTPS -/

/-- `normalizePort` -/
def normalizePort (portSuffix : JsString) : Option JsString :=
  match portSuffix with
  | [] => some []
  | u :: digits =>
      if u == 0x3a && digits.all isDigit then
        let port := ofDigits (digits.map fun d => d.toNat - 0x30)
        if digits.isEmpty then some []
        else if port > 65535 then none
        else if port = 443 then some []
        else some (0x3a :: natToString port)
      else none

/-- `IPV4_MAPPED_IPV6_HOST` -/
def isIpv4MappedIpv6 (host : JsString) : Bool :=
  let head := js "[::ffff:"
  let isGroup (s : JsString) : Bool :=
    decide (1 ≤ s.length ∧ s.length ≤ 4) && s.all isLowerHexDigit
  match head.isPrefixOf host, splitAll 0x3a (host.drop head.length) with
  | true, [a, b] => isGroup a && b.getLast? == some 0x5d && isGroup b.dropLast
  | _, _ => false

/-- The branch of `normalizeHttpsAuthority` for an authority in brackets. -/
def normalizeBracketAuthority (P : Platform) (authority suffix : JsString) : Option JsString := do
  guard (authority.contains 0x5d && !authority.contains 0x25)
  let port ← normalizePort ((spanUntil (· == 0x5d) authority).2.drop 1)
  let url ← P.parseUrl (httpsPrefix ++ authority ++ js "/")
  guard (!isIpv4MappedIpv6 url.hostname)
  pure (httpsPrefix ++ url.hostname ++ port ++ suffix)

/-- The branch of `normalizeHttpsAuthority` for a named host. -/
def normalizeNamedAuthority (P : Platform) (authority suffix : JsString) : Option JsString := do
  guard (decide (authority.count 0x3a ≤ 1))
  let (host, portSuffix) := spanLast 0x3a authority
  let port ← normalizePort portSuffix
  let decodedHost ← decodeURIComponent host
  let asciiHost ← P.domainToAscii decodedHost
  guard (!asciiHost.isEmpty && !asciiHost.any isInvalidHostCharacter)
  let url ← P.parseUrl (httpsPrefix ++ asciiHost ++ port ++ js "/")
  pure (httpsPrefix ++ url.host ++ suffix)

/-- `normalizeHttpsAuthority` -/
def normalizeHttpsAuthority (P : Platform) (uri : JsString) : Option JsString :=
  let (authority, suffix) := spanUntil isAuthorityEnd (uri.drop httpsPrefix.length)
  if authority.head? = some 0x5b then normalizeBracketAuthority P authority suffix
  else normalizeNamedAuthority P authority suffix

/-- `buildFetchUrl` -/
def buildFetchUrl (normalizedUri : JsString) : Option JsString := do
  guard (normalizedUri.contains 0x23)
  let withoutFragment := (spanUntil (· == 0x23) normalizedUri).1
  let (authority, resource) :=
    spanUntil (fun u => u == 0x2f || u == 0x3f) (withoutFragment.drop httpsPrefix.length)
  let (path, query) := spanUntil (· == 0x3f) resource
  guard (isCanonicalComponent isCanonicalPathUnit path)
  guard (isCanonicalComponent isCanonicalQueryUnit (query.drop 1))
  guard ((splitAll 0x2f path).all fun segment =>
    decodeDots segment != js "." && decodeDots segment != js "..")
  pure (httpsPrefix ++ authority ++ (if path.isEmpty then js "/" else path) ++ query)

/-- `/^#xcs-sha256=[0-9a-f]{64}$/` -/
def isDigestFragment (hash : JsString) : Bool :=
  (js "#xcs-sha256=").isPrefixOf hash && isLowerHash (hash.drop 12)

/-- The HTTPS branch of `parsePayloadUri`. -/
def parseHttpsUri (P : Platform) (uri : JsString) : Except Thrown PayloadUri :=
  let authority := (spanUntil isAuthorityEnd (uri.drop httpsPrefix.length)).1
  if !httpsPrefix.isPrefixOf uri || uri.any isInvalidRawHttps then
    invalidPayloadUri (js "Expected a canonical HTTPS or IPFS URI")
  else if authority.isEmpty || authority.contains 0x40 then
    invalidPayloadUri (js "HTTPS authority cannot be empty or contain userinfo")
  else
    match normalizeHttpsAuthority P uri with
    | none => invalidPayloadUri (js "Invalid HTTPS authority")
    | some normalizedUri =>
        match P.parseUrl normalizedUri, buildFetchUrl normalizedUri with
        | none, _ => invalidPayloadUri (js "Invalid HTTPS URI")
        | some parsed, some fetchUrl =>
            if parsed.protocol = js "https:" ∧ parsed.username = [] ∧ parsed.password = []
                ∧ isDigestFragment parsed.hash = true then
              .ok (.https uri fetchUrl (parsed.hash.drop 12))
            else invalidPayloadUri
              (js "HTTPS URI must end in #xcs-sha256=<lowercase-sha256>")
        | some _, none =>
            invalidPayloadUri (js "HTTPS URI must end in #xcs-sha256=<lowercase-sha256>")

/-! ## IPFS -/

/-- The match of `/^ipfs:\/\/(b[a-z2-7]+)$/`. -/
def ipfsCidText (uri : JsString) : Option JsString :=
  let cidText := uri.drop 7
  let isBase32 (u : CodeUnit) : Bool := isLower u || (0x32 ≤ u && u ≤ 0x37)
  if (js "ipfs://").isPrefixOf uri && cidText.head? == some 0x62 && decide (2 ≤ cidText.length)
      && cidText.tail.all isBase32 then some cidText
  else none

/-- `parseIpfsUri` -/
def parseIpfsUri (P : Platform) (uri : JsString) : Except Thrown (Option PayloadUri) :=
  match ipfsCidText uri with
  | none => .ok none
  | some cidText =>
      match P.parseCid cidText with
      | none => invalidPayloadUri (js "Invalid IPFS CID")
      | some cid =>
          if cid.version = 1 ∧ cid.code = rawCode ∧ cid.multihashCode = sha256MultihashCode
              ∧ cid.multihashSize = 32 ∧ cid.text = cidText then
            .ok (some (.ipfs uri cidText (bytesToHex cid.digest)))
          else invalidPayloadUri (js "Expected a canonical raw SHA-256 CIDv1")

/-- `parsePayloadUri` -/
def parsePayloadUri (P : Platform) (uri : JsString) : Except Thrown PayloadUri := do
  let length ← utf8ByteLength uri
  if length < 1 ∨ 256 < length then
    invalidPayloadUri (js "URI must contain 1 to 256 UTF-8 bytes")
  else do
    let ipfs ← parseIpfsUri P uri
    match ipfs with
    | some ipfs => .ok ipfs
    | none => parseHttpsUri P uri

/-- The digest a URI commits to. -/
def PayloadUri.digestHex : PayloadUri → JsString
  | .ipfs _ _ digestHex => digestHex
  | .https _ _ digestHex => digestHex

/-! ## What is thrown -/

variable {P : Platform}

theorem onlyXcs_invalidPayloadUri {α : Type} (message : JsString) :
    OnlyXcs (invalidPayloadUri message : Except Thrown α) :=
  onlyXcs_failXcs _ _ _ _

theorem onlyXcs_parseIpfsUri (uri : JsString) : OnlyXcs (parseIpfsUri P uri) := by
  unfold parseIpfsUri
  split
  · exact onlyXcs_ok _
  · split
    · exact onlyXcs_invalidPayloadUri _
    · split_ifs
      · exact onlyXcs_ok _
      · exact onlyXcs_invalidPayloadUri _

theorem onlyXcs_parseHttpsUri (uri : JsString) : OnlyXcs (parseHttpsUri P uri) := by
  unfold parseHttpsUri
  dsimp only
  split_ifs
  · exact onlyXcs_invalidPayloadUri _
  · exact onlyXcs_invalidPayloadUri _
  · split
    · exact onlyXcs_invalidPayloadUri _
    · split
      · exact onlyXcs_invalidPayloadUri _
      · split_ifs
        · exact onlyXcs_ok _
        · exact onlyXcs_invalidPayloadUri _
      · exact onlyXcs_invalidPayloadUri _

theorem onlyXcs_parsePayloadUri (uri : JsString) : OnlyXcs (parsePayloadUri P uri) := by
  refine (onlyXcs_utf8ByteLength uri).bind fun length _ => ?_
  split_ifs
  · exact onlyXcs_invalidPayloadUri _
  · refine (onlyXcs_parseIpfsUri uri).bind fun ipfs _ => ?_
    cases ipfs with
    | some ipfs => exact onlyXcs_ok _
    | none => exact onlyXcs_parseHttpsUri uri

/-! ## What is accepted -/

/-- What the HTTPS branch asks of a URI and of its two readings. -/
theorem parseHttpsUri_eq_ok {uri : JsString} {target : PayloadUri} :
    parseHttpsUri P uri = .ok target ↔
      (httpsPrefix.isPrefixOf uri = true ∧ uri.any isInvalidRawHttps = false) ∧
      ((spanUntil isAuthorityEnd (uri.drop httpsPrefix.length)).1 ≠ [] ∧
        0x40 ∉ (spanUntil isAuthorityEnd (uri.drop httpsPrefix.length)).1) ∧
      ∃ normalizedUri parsed fetchUrl, normalizeHttpsAuthority P uri = some normalizedUri ∧
        P.parseUrl normalizedUri = some parsed ∧ buildFetchUrl normalizedUri = some fetchUrl ∧
          (parsed.protocol = js "https:" ∧ parsed.username = [] ∧ parsed.password = [] ∧
            isDigestFragment parsed.hash = true) ∧
          target = .https uri fetchUrl (parsed.hash.drop 12) := by
  unfold parseHttpsUri
  dsimp only
  split_ifs with hraw hauthority
  · refine iff_of_false (fun h => (by cases h)) ?_
    rintro ⟨⟨hscheme, hinvalid⟩, -⟩
    rw [hscheme, hinvalid] at hraw
    cases hraw
  · refine iff_of_false (fun h => (by cases h)) ?_
    rintro ⟨-, ⟨hempty, huser⟩, -⟩
    rw [Bool.or_eq_true, List.isEmpty_iff, List.contains_iff_mem] at hauthority
    exact hauthority.elim hempty huser
  · rw [Bool.or_eq_true, Bool.not_eq_true', not_or, Bool.not_eq_false, Bool.not_eq_true] at hraw
    rw [Bool.or_eq_true, List.isEmpty_iff, List.contains_iff_mem, not_or] at hauthority
    rw [and_iff_right hraw, and_iff_right hauthority]
    constructor
    · intro h
      split at h
      · cases h
      · rename_i normalizedUri hnormalized
        split at h
        · cases h
        · rename_i parsed fetchUrl hparsed hfetch
          split_ifs at h with hchecks
          · exact ⟨normalizedUri, parsed, fetchUrl, hnormalized, hparsed, hfetch, hchecks,
              (Except.ok.inj h).symm⟩
          · cases h
        · cases h
    · rintro ⟨normalizedUri, parsed, fetchUrl, hnormalized, hparsed, hfetch, hchecks, rfl⟩
      rw [hnormalized]
      dsimp only
      rw [hparsed, hfetch]
      dsimp only
      rw [if_pos hchecks]

/-! ## The units of an accepted URI -/

/-- What a parser of URLs does with the characters of a text: a host has no `#`, and what follows
the first `#` is the fragment, where a character outside ASCII becomes escapes. -/
structure EscapesFragments (P : Platform) : Prop where
  host : ∀ text url, P.parseUrl text = some url → 0x23 ∉ url.host ∧ 0x23 ∉ url.hostname
  hash : ∀ text u url, P.parseUrl (text ++ [u]) = some url → 0x23 ∈ text → 0x80 ≤ u →
    ∃ encoded a b, url.hash = encoded ++ [0x25, a, b]

theorem not_mem_natToString (n : ℕ) : 0x23 ∉ natToString n := by
  intro h
  obtain ⟨d, hd, hunit⟩ := List.mem_map.mp h
  have hlt := lt_ten_of_mem_natDigits hd
  have := congrArg UInt16.toNat hunit
  rw [toNat_toUInt16 (by omega)] at this
  simp only [UInt16.reduceToNat] at this
  omega

theorem not_mem_of_normalizePort {suffix port : JsString} (h : normalizePort suffix = some port) :
    0x23 ∉ port := by
  unfold normalizePort at h
  split at h
  · cases h
    exact List.not_mem_nil
  · dsimp only at h
    split_ifs at h
    · cases h
      exact List.not_mem_nil
    · cases h
      exact List.not_mem_nil
    · cases h
      rw [List.mem_cons]
      rintro (h | h)
      · cases h
      · exact not_mem_natToString _ h

/-- Normalizing the authority keeps what follows it, and puts no `#` in front. -/
theorem normalizeHttpsAuthority_eq_some (hP : EscapesFragments P) {uri normalizedUri : JsString}
    (h : normalizeHttpsAuthority P uri = some normalizedUri) :
    ∃ front, 0x23 ∉ front ∧ normalizedUri
      = front ++ (spanUntil isAuthorityEnd (uri.drop httpsPrefix.length)).2 := by
  have hbegins : 0x23 ∉ httpsPrefix := by decide
  unfold normalizeHttpsAuthority at h
  dsimp only at h
  split_ifs at h
  · simp only [normalizeBracketAuthority, Option.bind_eq_bind, Option.bind_eq_some_iff,
      Option.pure_def, Option.some.injEq] at h
    obtain ⟨_, -, port, hport, url, hurl, _, -, rfl⟩ := h
    refine ⟨httpsPrefix ++ url.hostname ++ port, ?_, rfl⟩
    rw [List.mem_append, List.mem_append]
    rintro ((h | h) | h)
    · exact hbegins h
    · exact (hP.host _ _ hurl).2 h
    · exact not_mem_of_normalizePort hport h
  · simp only [normalizeNamedAuthority, Option.bind_eq_bind, Option.bind_eq_some_iff,
      Option.pure_def, Option.some.injEq] at h
    obtain ⟨_, -, port, -, host, -, asciiHost, -, _, -, url, hurl, rfl⟩ := h
    refine ⟨httpsPrefix ++ url.host, ?_, rfl⟩
    rw [List.mem_append]
    rintro (h | h)
    · exact hbegins h
    · exact (hP.host _ _ hurl).1 h

theorem spanUntil_append (stop : CodeUnit → Bool) (s : JsString) :
    (spanUntil stop s).1 ++ (spanUntil stop s).2 = s := by
  rw [spanUntil, List.span_eq_takeWhile_dropWhile]
  exact List.takeWhile_append_dropWhile

theorem not_mem_spanUntil {stop : CodeUnit → Bool} {s : JsString} {u : CodeUnit}
    (hu : stop u = true) : u ∉ (spanUntil stop s).1 := by
  rw [spanUntil, List.span_eq_takeWhile_dropWhile]
  intro hmem
  have := List.mem_takeWhile_imp hmem
  rw [hu] at this
  cases this

theorem spanUntil_snd (stop : CodeUnit → Bool) (s : JsString) :
    (spanUntil stop s).2 = [] ∨ ∃ u rest, (spanUntil stop s).2 = u :: rest ∧ stop u = true := by
  rw [spanUntil, List.span_eq_takeWhile_dropWhile]
  cases hrest : s.dropWhile fun u => !stop u with
  | nil => exact Or.inl rfl
  | cons u rest =>
      refine Or.inr ⟨u, rest, rfl, ?_⟩
      have := List.head?_dropWhile_not (fun u => !stop u) s
      rw [hrest] at this
      simpa using this

/-- The text from a delimiter on is empty, or ends as the whole text. -/
theorem snd_spanUntil (stop : CodeUnit → Bool) (t : JsString) (u : CodeUnit) (n : ℕ) :
    (spanUntil stop ((t ++ [u]).drop n)).2 = [] ∨
      ∃ rest, (spanUntil stop ((t ++ [u]).drop n)).2 = rest ++ [u] := by
  have hsuffix : (spanUntil stop ((t ++ [u]).drop n)).2 <:+ t ++ [u] := by
    unfold spanUntil
    rw [List.span_eq_takeWhile_dropWhile]
    exact (List.dropWhile_suffix _).trans (List.drop_suffix _ _)
  rcases List.suffix_concat_iff.mp hsuffix with hnil | ⟨rest, hrest, -⟩
  · exact Or.inl hnil
  · exact Or.inr ⟨rest, hrest⟩

/-- A fragment that ends in an escape is not the fragment of a digest. -/
theorem not_isDigestFragment_of_escape (encoded : JsString) (a b : CodeUnit) :
    isDigestFragment (encoded ++ [0x25, a, b]) ≠ true := by
  intro h
  simp only [isDigestFragment, isLowerHash, Bool.and_eq_true, beq_iff_eq, List.all_eq_true,
    List.length_drop, List.length_append, List.length_cons, List.length_nil] at h
  obtain ⟨-, hlength, hall⟩ := h
  have hmem : 0x25 ∈ (encoded ++ [0x25, a, b]).drop 12 := by
    rw [List.drop_append_of_le_length (by omega)]
    exact List.mem_append_right _ List.mem_cons_self
  exact absurd (hall _ hmem) (by decide)

/-- A URI does not begin with the character of a byte order mark. -/
theorem parsePayloadUri_bom (uri : JsString) :
    (parsePayloadUri P (0xfeff :: uri)).isOk = false := by
  have hipfs : parseIpfsUri P (0xfeff :: uri) = .ok none := by
    unfold parseIpfsUri
    rfl
  have hhttps : (parseHttpsUri P (0xfeff :: uri)).isOk = false := by
    unfold parseHttpsUri
    rfl
  unfold parsePayloadUri
  cases utf8ByteLength (0xfeff :: uri) with
  | error e => rfl
  | ok length =>
      show (if length < 1 ∨ 256 < length then _ else _ : Except Thrown PayloadUri).isOk = false
      split_ifs
      · rfl
      · rw [hipfs]
        exact hhttps

/-- An accepted IPFS URI ends in a base-32 character. -/
theorem not_ipfs_of_high {t : JsString} {u : CodeUnit} (hu : isHighSurrogate u = true) :
    ipfsCidText (t ++ [u]) = none := by
  rw [isHighSurrogate_iff] at hu
  unfold ipfsCidText
  dsimp only
  refine if_neg fun h => ?_
  simp only [Bool.and_eq_true, decide_eq_true_eq, List.all_eq_true] at h
  obtain ⟨⟨⟨-, -⟩, hlength⟩, hall⟩ := h
  have hmem : u ∈ ((t ++ [u]).drop 7).tail := by
    rw [List.tail_drop]
    rw [List.length_drop, List.length_append, List.length_singleton] at hlength
    rw [List.drop_append_of_le_length (by omega)]
    exact List.mem_append_right _ (List.mem_singleton_self u)
  have hbase := hall u hmem
  simp only [isLower, Bool.or_eq_true, Bool.and_eq_true, decide_eq_true_eq,
    UInt16.le_iff_toNat_le, UInt16.reduceToNat] at hbase
  omega

/-- An accepted HTTPS URI ends in a digit of its digest. -/
theorem not_https_of_high (hP : EscapesFragments P) {t : JsString} {u : CodeUnit}
    (hu : isHighSurrogate u = true) (target : PayloadUri) :
    parseHttpsUri P (t ++ [u]) ≠ .ok target := by
  intro h
  rw [isHighSurrogate_iff] at hu
  obtain ⟨-, -, normalizedUri, parsed, fetchUrl, hnormalized, hparsed, hfetch, hchecks, -⟩ :=
    parseHttpsUri_eq_ok.mp h
  obtain ⟨front, hfront, heq⟩ := normalizeHttpsAuthority_eq_some hP hnormalized
  have hcontains : 0x23 ∈ normalizedUri := by
    simp only [buildFetchUrl, Option.bind_eq_bind, Option.bind_eq_some_iff] at hfetch
    obtain ⟨_, hguard, -⟩ := hfetch
    simpa using hguard
  -- the text after the authority is not empty, so it ends as the URI does
  obtain ⟨rest, hrest⟩ : ∃ rest,
      (spanUntil isAuthorityEnd ((t ++ [u]).drop httpsPrefix.length)).2 = rest ++ [u] := by
    rcases snd_spanUntil isAuthorityEnd t u httpsPrefix.length with hnil | hrest
    · rw [hnil, List.append_nil] at heq
      rw [heq] at hcontains
      exact absurd hcontains hfront
    · exact hrest
  rw [hrest, ← List.append_assoc] at heq
  subst heq
  have hbefore : 0x23 ∈ front ++ rest := by
    rcases List.mem_append.mp hcontains with h | h
    · exact h
    · rw [List.mem_singleton] at h
      subst h
      simp only [UInt16.reduceToNat] at hu
      omega
  obtain ⟨encoded, a, b, hhash⟩ := hP.hash _ _ _ hparsed hbefore (by
    rw [UInt16.le_iff_toNat_le]
    simp only [UInt16.reduceToNat]
    omega)
  have hdigest := hchecks.2.2.2
  rw [hhash] at hdigest
  exact not_isDigestFragment_of_escape encoded a b hdigest

/-- **The text of an accepted URI has no lone surrogate**: what `utf8ByteLength` misses at the end
of a text is refused by the rules of the URI. -/
theorem isWellFormed_of_parsePayloadUri (hP : EscapesFragments P) {uri : JsString}
    {target : PayloadUri} (h : parsePayloadUri P uri = .ok target) : isWellFormed uri = true := by
  simp only [parsePayloadUri, utf8ByteLength, bind_eq_ok, assertWellFormed_eq_ok] at h
  obtain ⟨length, ⟨_, haccepted, -⟩, h⟩ := h
  rcases isAccepted_iff.mp haccepted with hwell | ⟨t, u, rfl, -, hu⟩
  · exact hwell
  · exfalso
    split_ifs at h
    · cases h
    · obtain ⟨ipfs, hipfs, h⟩ := bind_eq_ok.mp h
      unfold parseIpfsUri at hipfs
      rw [not_ipfs_of_high hu] at hipfs
      cases hipfs
      exact not_https_of_high hP hu target h

/-! ## A reader of URLs -/

/-- A reader of HTTPS URLs to evaluate the program with: of an ASCII text that names no user. -/
def readHttpsUrl (text : JsString) : Option Url :=
  if text.all fun u => decide (u.toNat < 0x80) then
    let authority := (spanUntil isAuthorityEnd (text.drop httpsPrefix.length)).1
    some
      { protocol := js "https:"
        username := []
        password := []
        hostname := (spanUntil (· == 0x3a) authority).1
        host := authority
        hash := (spanUntil (· == 0x23) text).2 }
  else none

theorem isSome_readHttpsUrl {text : JsString} : (readHttpsUrl text).isSome = true ↔
    (text.all fun u => decide (u.toNat < 0x80)) = true := by
  unfold readHttpsUrl
  split_ifs with h
  · exact iff_of_true rfl h
  · exact iff_of_false (fun hnone => (by cases hnone)) h

/-- The host ends before a fragment, and no character is escaped. -/
theorem escapesFragments_of_readHttpsUrl (hP : P.parseUrl = readHttpsUrl) : EscapesFragments P := by
  constructor
  · intro text url h
    rw [hP, readHttpsUrl] at h
    split_ifs at h
    cases h
    have hhost : (0x23 : CodeUnit)
        ∉ (spanUntil isAuthorityEnd (text.drop httpsPrefix.length)).1 :=
      not_mem_spanUntil (by decide)
    refine ⟨hhost, fun hmem => hhost ?_⟩
    rw [← spanUntil_append (· == 0x3a) (spanUntil isAuthorityEnd (text.drop httpsPrefix.length)).1]
    exact List.mem_append_left _ hmem
  · intro text u url h _ hu
    rw [hP, readHttpsUrl] at h
    split_ifs at h with hall
    have hascii := of_decide_eq_true (List.all_eq_true.mp hall u
      (List.mem_append_right _ (List.mem_singleton_self u)))
    rw [UInt16.le_iff_toNat_le] at hu
    simp only [UInt16.reduceToNat] at hu
    omega

theorem hash_of_readHttpsUrl {text fragment : JsString} {url : Url} (htext : 0x23 ∉ text)
    (h : readHttpsUrl (text ++ 0x23 :: fragment) = some url) : url.hash = 0x23 :: fragment := by
  rw [readHttpsUrl] at h
  split_ifs at h
  cases h
  show (spanUntil _ _).2 = _
  rw [spanUntil, List.span_eq_takeWhile_dropWhile]
  dsimp only
  rw [List.dropWhile_append_of_pos fun u hu => ?_]
  · rfl
  · rw [Bool.not_eq_true', beq_eq_false_iff_ne]
    rintro rfl
    exact htext hu

end Core
end Xcs
