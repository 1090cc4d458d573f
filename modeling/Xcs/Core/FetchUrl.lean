import Xcs.Core.PayloadUri
import Xcs.Json.Integers

/-!
# The URL to fetch

`parsePayloadUri` reads an HTTPS URI twice: as a text, whose path and query it checks and keeps, and
through the parser of URLs, which rewrites hosts and may rewrite everything else.  The URL to fetch
takes the host from the second reading and the rest from the first.

* `buildFetchUrl_text` and `normalizeHttpsAuthority_text` say what the two halves of the derivation
  do to the components of a URI.
* `httpsUri_fetchUrl`: what is kept, what is dropped, and that the URL to fetch with the digest is
  read as itself again.
-/

namespace Xcs
namespace Core

open Js Json

/-! ## Texts and delimiters -/

/-- A text that is empty or begins with a delimiter. -/
def BeginsWith (stop : CodeUnit → Bool) (t : JsString) : Prop :=
  t = [] ∨ ∃ u rest, t = u :: rest ∧ stop u = true

theorem BeginsWith.of_cons {stop : CodeUnit → Bool} {u : CodeUnit} {rest : JsString}
    (h : stop u = true) : BeginsWith stop (u :: rest) :=
  Or.inr ⟨u, rest, rfl, h⟩

theorem BeginsWith.mono {stop stop' : CodeUnit → Bool} {t : JsString} (h : BeginsWith stop t)
    (himp : ∀ u, stop u = true → stop' u = true) : BeginsWith stop' t := by
  rcases h with rfl | ⟨u, rest, rfl, hu⟩
  · exact Or.inl rfl
  · exact BeginsWith.of_cons (himp u hu)

/-- What follows a text that is empty or begins with a delimiter begins there. -/
theorem BeginsWith.append {stop : CodeUnit → Bool} {s t : JsString} (hs : BeginsWith stop s)
    (ht : BeginsWith stop t) : BeginsWith stop (s ++ t) := by
  rcases hs with rfl | ⟨u, rest, rfl, hu⟩
  · exact ht
  · exact BeginsWith.of_cons hu

/-- A text is cut at its first delimiter. -/
theorem spanUntil_eq {stop : CodeUnit → Bool} {s t : JsString} (hs : ∀ u ∈ s, stop u = false)
    (ht : BeginsWith stop t) : spanUntil stop (s ++ t) = (s, t) := by
  rw [spanUntil, List.span_eq_takeWhile_dropWhile]
  have hall : ∀ u ∈ s, (!stop u) = true := by
    intro u hu
    rw [hs u hu]
    rfl
  rw [List.takeWhile_append_of_pos hall, List.dropWhile_append_of_pos hall]
  rcases ht with rfl | ⟨u, rest, rfl, hu⟩
  · rw [List.takeWhile_nil, List.dropWhile_nil, List.append_nil]
  · rw [List.takeWhile_cons, List.dropWhile_cons, hu, Bool.not_true, if_neg Bool.false_ne_true,
      if_neg Bool.false_ne_true, List.append_nil]

theorem stop_of_mem_spanUntil {stop : CodeUnit → Bool} {s : JsString} {u : CodeUnit}
    (hu : u ∈ (spanUntil stop s).1) : stop u = false := by
  by_contra h
  rw [Bool.not_eq_false] at h
  exact not_mem_spanUntil h hu

theorem spanLast_of_not_mem {u : CodeUnit} {s : JsString} (h : u ∉ s) : spanLast u s = (s, []) := by
  induction s with
  | nil => rfl
  | cons v rest ih =>
      rw [List.mem_cons, not_or] at h
      rw [spanLast, ih h.2, beq_false_of_ne (Ne.symm h.1)]
      rfl

/-- A text is cut at the last occurrence of a unit. -/
theorem spanLast_append_cons {u : CodeUnit} {s t : JsString} (hs : u ∉ s) (ht : u ∉ t) :
    spanLast u (s ++ u :: t) = (s, u :: t) := by
  induction s with
  | nil =>
      have hcontains : t.contains u = false := by
        rw [Bool.eq_false_iff, Ne, List.contains_iff_mem]
        exact ht
      rw [List.nil_append, spanLast, hcontains, beq_self_eq_true]
      rfl
  | cons v rest ih =>
      rw [List.mem_cons, not_or] at hs
      rw [List.cons_append, spanLast, ih hs.2, beq_false_of_ne (Ne.symm hs.1)]
      rfl

/-- A text with at most one occurrence of a unit is cut there. -/
theorem exists_spanLast {u : CodeUnit} {s : JsString} (h : s.count u ≤ 1) :
    ∃ front back, s = front ++ back ∧ u ∉ front ∧ BeginsWith (· == u) back ∧
      spanLast u s = (front, back) := by
  by_cases hmem : u ∈ s
  · obtain ⟨front, rest, rfl, hfront⟩ := List.eq_append_cons_of_mem hmem
    rw [List.count_append, List.count_eq_zero_of_not_mem hfront, List.count_cons_self] at h
    have hrest : u ∉ rest := List.count_eq_zero.mp (by omega)
    exact ⟨front, u :: rest, rfl, hfront, BeginsWith.of_cons (beq_self_eq_true u),
      spanLast_append_cons hfront hrest⟩
  · exact ⟨s, [], (List.append_nil s).symm, hmem, Or.inl rfl, spanLast_of_not_mem hmem⟩

/-! ## Components -/

/-- `?` `#` -/
def isPathEnd (u : CodeUnit) : Bool :=
  u == 0x3f || u == 0x23

/-- The components of an HTTPS URI: the query with its `?`, the fragment with its `#`. -/
structure UriComponents where
  authority : JsString
  path : JsString
  query : JsString
  fragment : JsString
  deriving DecidableEq

namespace UriComponents

/-- The text of the components. -/
def text (c : UriComponents) : JsString :=
  httpsPrefix ++ (c.authority ++ (c.path ++ (c.query ++ c.fragment)))

/-- The components end where their text shows it. -/
structure WellDelimited (c : UriComponents) : Prop where
  authority : ∀ u ∈ c.authority, isAuthorityEnd u = false
  path : ∀ u ∈ c.path, isPathEnd u = false
  path_begins : BeginsWith (· == 0x2f) c.path
  query : ∀ u ∈ c.query, (u == 0x23) = false
  query_begins : BeginsWith (· == 0x3f) c.query
  fragment_begins : BeginsWith (· == 0x23) c.fragment

end UriComponents

/-- The components of a text. -/
def uriComponents (uri : JsString) : UriComponents :=
  let resource := (spanUntil isAuthorityEnd (uri.drop httpsPrefix.length)).2
  let tail := (spanUntil isPathEnd resource).2
  { authority := (spanUntil isAuthorityEnd (uri.drop httpsPrefix.length)).1
    path := (spanUntil isPathEnd resource).1
    query := (spanUntil (· == 0x23) tail).1
    fragment := (spanUntil (· == 0x23) tail).2 }

theorem begins_of_spanUntil (stop : CodeUnit → Bool) (s : JsString) :
    BeginsWith stop (spanUntil stop s).2 :=
  spanUntil_snd stop s

/-- The first part of a text that begins with one of several delimiters. -/
theorem begins_fst_spanUntil {stop outer first : CodeUnit → Bool} {s : JsString}
    (hs : BeginsWith outer s) (h : ∀ u, outer u = true → stop u = false → first u = true) :
    BeginsWith first (spanUntil stop s).1 := by
  rcases hs with rfl | ⟨u, rest, rfl, hu⟩
  · exact Or.inl rfl
  · rw [spanUntil, List.span_eq_takeWhile_dropWhile, List.takeWhile_cons]
    by_cases hstop : stop u = true
    · rw [hstop, Bool.not_true, if_neg Bool.false_ne_true]
      exact Or.inl rfl
    · rw [Bool.not_eq_true] at hstop
      rw [hstop, Bool.not_false, if_pos rfl]
      exact BeginsWith.of_cons (h u hu hstop)

theorem wellDelimited_uriComponents (uri : JsString) : (uriComponents uri).WellDelimited where
  authority := fun _ hu => stop_of_mem_spanUntil hu
  path := fun _ hu => stop_of_mem_spanUntil hu
  path_begins := by
    refine begins_fst_spanUntil (begins_of_spanUntil isAuthorityEnd _) fun u hu hstop => ?_
    simp only [isAuthorityEnd, isPathEnd, Bool.or_eq_true, Bool.or_eq_false_iff] at hu hstop
    rcases hu with (hu | hu) | hu
    · exact hu
    · rw [hu] at hstop
      cases hstop.1
    · rw [hu] at hstop
      cases hstop.2
  query := fun _ hu => @stop_of_mem_spanUntil (· == 0x23) _ _ hu
  query_begins := by
    refine begins_fst_spanUntil (begins_of_spanUntil isPathEnd _) fun u hu hstop => ?_
    simp only [isPathEnd, Bool.or_eq_true] at hu
    rcases hu with hu | hu
    · exact hu
    · rw [hu] at hstop
      cases hstop
  fragment_begins := begins_of_spanUntil _ _

/-- A text that begins as an HTTPS URI is the text of its components. -/
theorem text_uriComponents {uri : JsString} (h : httpsPrefix.isPrefixOf uri = true) :
    (uriComponents uri).text = uri := by
  obtain ⟨rest, rfl⟩ := List.isPrefixOf_iff_prefix.mp h
  have hdrop : (httpsPrefix ++ rest).drop httpsPrefix.length = rest := List.drop_left
  unfold uriComponents UriComponents.text
  dsimp only
  rw [hdrop, spanUntil_append, spanUntil_append, spanUntil_append]

namespace UriComponents

variable {c : UriComponents}

theorem begins_tail (hc : c.WellDelimited) : BeginsWith isPathEnd (c.query ++ c.fragment) := by
  refine (hc.query_begins.mono fun u hu => ?_).append (hc.fragment_begins.mono fun u hu => ?_)
  · rw [isPathEnd, hu]
    rfl
  · rw [isPathEnd, hu, Bool.or_true]

theorem begins_resource (hc : c.WellDelimited) :
    BeginsWith isAuthorityEnd (c.path ++ (c.query ++ c.fragment)) := by
  refine (hc.path_begins.mono fun u hu => ?_).append ((begins_tail hc).mono fun u hu => ?_)
  · rw [isAuthorityEnd, hu]
    rfl
  · rw [isAuthorityEnd, Bool.or_assoc]
    rw [isPathEnd] at hu
    rw [hu, Bool.or_true]

/-- The authority ends at the first delimiter. -/
theorem spanUntil_authority (hc : c.WellDelimited) :
    spanUntil isAuthorityEnd (c.text.drop httpsPrefix.length)
      = (c.authority, c.path ++ (c.query ++ c.fragment)) := by
  unfold text
  rw [List.drop_left]
  exact spanUntil_eq hc.authority (begins_resource hc)

/-- Components that are delimited are the components of their text. -/
theorem uriComponents_text (hc : c.WellDelimited) : uriComponents c.text = c := by
  unfold uriComponents
  rw [spanUntil_authority hc]
  dsimp only
  rw [spanUntil_eq hc.path (begins_tail hc)]
  dsimp only
  rw [spanUntil_eq hc.query hc.fragment_begins]

end UriComponents

/-! ## Ports -/

/-- The number that digits denote. -/
def portNumber (digits : JsString) : ℕ :=
  ofDigits (digits.map fun d => d.toNat - 0x30)

/-- What becomes of a port: the default port is dropped, and a colon without a number; any other
port is kept, without leading zeros. -/
inductive KeepsPort : JsString → JsString → Prop
  | absent : KeepsPort [] []
  | empty : KeepsPort [0x3a] []
  | default {digits : JsString} : digits.all isDigit = true → digits ≠ [] →
      portNumber digits = 443 → KeepsPort (0x3a :: digits) []
  | kept {digits : JsString} : digits.all isDigit = true → digits ≠ [] →
      portNumber digits ≠ 443 → portNumber digits ≤ 65535 →
        KeepsPort (0x3a :: digits) (0x3a :: natToString (portNumber digits))

theorem keepsPort_of_normalizePort {rawPort port : JsString}
    (h : normalizePort rawPort = some port) : KeepsPort rawPort port := by
  unfold normalizePort at h
  split at h
  · cases h
    exact .absent
  · rename_i u digits
    dsimp only at h
    split_ifs at h with hform hempty hlarge hdefault
    · cases h
      rw [Bool.and_eq_true, beq_iff_eq] at hform
      obtain ⟨rfl, -⟩ := hform
      rw [List.isEmpty_iff] at hempty
      subst hempty
      exact .empty
    · cases h
      rw [Bool.and_eq_true, beq_iff_eq] at hform
      obtain ⟨rfl, hdigits⟩ := hform
      rw [List.isEmpty_iff] at hempty
      exact .default hdigits hempty hdefault
    · cases h
      rw [Bool.and_eq_true, beq_iff_eq] at hform
      obtain ⟨rfl, hdigits⟩ := hform
      rw [List.isEmpty_iff] at hempty
      exact .kept hdigits hempty hdefault (Nat.le_of_not_lt hlarge)

theorem all_isDigit_natToString (n : ℕ) : (natToString n).all isDigit = true :=
  all_isDigit_digitUnits fun _ hd => lt_ten_of_mem_natDigits hd

theorem portNumber_natToString (n : ℕ) : portNumber (natToString n) = n := by
  rw [portNumber, natToString, map_digitUnits fun _ hd => lt_ten_of_mem_natDigits hd,
    ofDigits_natDigits]

/-- A normal port stays as it is. -/
theorem normalizePort_of_keepsPort {rawPort port : JsString} (h : KeepsPort rawPort port) :
    normalizePort port = some port := by
  cases h with
  | absent => rfl
  | empty => rfl
  | default => rfl
  | @kept digits _ _ hdefault hlarge =>
      have hne : (natToString (portNumber digits)).isEmpty = false := by
        rw [List.isEmpty_eq_false_iff, natToString, digitUnits, Ne, List.map_eq_nil_iff]
        exact natDigits_ne_nil _
      have hport : ofDigits ((natToString (portNumber digits)).map fun d => d.toNat - 0x30)
          = portNumber digits := portNumber_natToString _
      unfold normalizePort
      dsimp only
      rw [all_isDigit_natToString, hne, hport, beq_self_eq_true, Bool.and_self, if_pos rfl,
        if_neg Bool.false_ne_true, if_neg (Nat.not_lt.mpr hlarge), if_neg hdefault]

/-- A normal port is a colon and digits, if it is not empty. -/
theorem KeepsPort.begins {rawPort port : JsString} (h : KeepsPort rawPort port) :
    port = [] ∨ ∃ digits, port = 0x3a :: digits ∧ digits.all isDigit = true := by
  cases h with
  | absent => exact Or.inl rfl
  | empty => exact Or.inl rfl
  | default => exact Or.inl rfl
  | kept => exact Or.inr ⟨_, rfl, all_isDigit_natToString _⟩

/-! ## The resource -/

/-- A path and a query that are fetched as they are. -/
def isFetchable (path query : JsString) : Bool :=
  isCanonicalComponent isCanonicalPathUnit path
    && (isCanonicalComponent isCanonicalQueryUnit (query.drop 1)
      && (splitAll 0x2f path).all fun segment =>
        decodeDots segment != js "." && decodeDots segment != js "..")

/-- The components of the URL to fetch. -/
def UriComponents.fetched (c : UriComponents) : UriComponents :=
  { c with path := if c.path.isEmpty then js "/" else c.path, fragment := [] }

namespace UriComponents

variable {c : UriComponents}

theorem not_mem_text_of_fragment (hc : c.WellDelimited) :
    0x23 ∉ httpsPrefix ++ (c.authority ++ (c.path ++ c.query)) := by
  simp only [List.mem_append, not_or]
  refine ⟨by decide, fun h => ?_, fun h => ?_, fun h => ?_⟩
  · exact absurd (hc.authority _ h) (by decide)
  · exact absurd (hc.path _ h) (by decide)
  · exact absurd (hc.query _ h) (by decide)

/-- The text before the fragment. -/
theorem spanUntil_fragment (hc : c.WellDelimited) : spanUntil (· == 0x23) c.text
    = (httpsPrefix ++ (c.authority ++ (c.path ++ c.query)), c.fragment) := by
  have htext : c.text = (httpsPrefix ++ (c.authority ++ (c.path ++ c.query))) ++ c.fragment := by
    unfold text
    simp only [List.append_assoc]
  rw [htext]
  refine spanUntil_eq (fun u hu => ?_) hc.fragment_begins
  rw [beq_eq_false_iff_ne]
  rintro rfl
  exact not_mem_text_of_fragment hc hu

/-- **The URL to fetch** has the path and the query of the URI, without its fragment. -/
theorem buildFetchUrl_text (hc : c.WellDelimited) {fetchUrl : JsString} :
    buildFetchUrl c.text = some fetchUrl ↔
      c.fragment ≠ [] ∧ isFetchable c.path c.query = true ∧ fetchUrl = c.fetched.text := by
  have hcontains : c.text.contains 0x23 = true ↔ c.fragment ≠ [] := by
    rw [List.contains_iff_mem]
    have htext := spanUntil_append (· == 0x23) c.text
    rw [spanUntil_fragment hc] at htext
    rw [← htext, List.mem_append, or_iff_right (not_mem_text_of_fragment hc)]
    rcases hc.fragment_begins with hnil | ⟨u, rest, hcons, hu⟩
    · rw [hnil]
      exact iff_of_false List.not_mem_nil (fun h => h rfl)
    · rw [beq_iff_eq] at hu
      subst hu
      rw [hcons]
      exact iff_of_true List.mem_cons_self (List.cons_ne_nil _ _)
  have hauthority : spanUntil (fun u => u == 0x2f || u == 0x3f) (c.authority ++ (c.path ++ c.query))
      = (c.authority, c.path ++ c.query) := by
    refine spanUntil_eq (fun u hu => ?_)
      ((hc.path_begins.mono fun u hu => ?_).append (hc.query_begins.mono fun u hu => ?_))
    · have := hc.authority u hu
      rw [isAuthorityEnd, Bool.or_eq_false_iff] at this
      exact this.1
    · rw [hu, Bool.true_or]
    · rw [hu, Bool.or_true]
  have hpath : spanUntil (· == 0x3f) (c.path ++ c.query) = (c.path, c.query) := by
    refine spanUntil_eq (fun u hu => ?_) hc.query_begins
    have := hc.path u hu
    rw [isPathEnd, Bool.or_eq_false_iff] at this
    exact this.1
  unfold buildFetchUrl
  rw [spanUntil_fragment hc]
  dsimp only
  rw [List.drop_left, hauthority]
  dsimp only
  rw [hpath]
  simp only [Option.bind_eq_bind, Option.bind_eq_some_iff, Option.guard_eq_some', hcontains,
    Option.pure_def, Option.some.injEq, exists_const, isFetchable, Bool.and_eq_true]
  constructor
  · rintro ⟨hfragment, hpath, hquery, hdots, rfl⟩
    refine ⟨hfragment, ⟨hpath, hquery, hdots⟩, ?_⟩
    unfold fetched text
    simp only [List.append_assoc, List.append_nil]
  · rintro ⟨hfragment, ⟨hpath, hquery, hdots⟩, rfl⟩
    refine ⟨hfragment, hpath, hquery, hdots, ?_⟩
    unfold fetched text
    simp only [List.append_assoc, List.append_nil]

/-- What was fetched as it is, is so again. -/
theorem isFetchable_fetched (h : isFetchable c.path c.query = true) :
    isFetchable c.fetched.path c.fetched.query = true := by
  unfold fetched
  dsimp only
  split_ifs with hempty
  · rw [List.isEmpty_iff] at hempty
    rw [hempty] at h
    exact h
  · exact h

end UriComponents

/-! ## Hosts -/

/-- A host without a port: a name, or an address in brackets. -/
def IsHost (host : JsString) : Prop :=
  0x3a ∉ host ∨ ∃ inner, 0x5d ∉ inner ∧ host = 0x5b :: (inner ++ [0x5d])

/-- A name in ASCII that may be the name of a host. -/
structure IsHostName (host : JsString) : Prop where
  nonempty : host ≠ []
  ascii : ∀ u ∈ host, u.toNat < 0x80
  valid : ∀ u ∈ host, isInvalidHostCharacter u = false

/-- What the libraries do with a URI.  Names of hosts become ASCII; a name and an address are
normalized with any port, and stay as they are from then on; an empty path is the path `/`; and a
fragment in which nothing is escaped is the text after the first `#`. -/
structure NormalizesHosts (P : Platform) : Prop where
  ascii : ∀ host asciiHost, P.domainToAscii host = some asciiHost → ∀ u ∈ asciiHost, u.toNat < 0x80
  named : ∀ host port url, IsHostName host → normalizePort port = some port →
    P.parseUrl (httpsPrefix ++ host ++ port ++ js "/") = some url →
      url.host = url.hostname ++ port ∧ IsHostName url.hostname ∧
        P.domainToAscii url.hostname = some url.hostname ∧
        ∃ again, P.parseUrl (httpsPrefix ++ url.hostname ++ port ++ js "/") = some again ∧
          again.host = url.host
  address : ∀ inner rawPort port url, 0x5d ∉ inner → normalizePort rawPort = some port →
    P.parseUrl (httpsPrefix ++ 0x5b :: (inner ++ 0x5d :: rawPort) ++ js "/") = some url →
      ∃ address, url.hostname = 0x5b :: (address ++ [0x5d]) ∧
        (∀ u ∈ address, isLowerHexDigit u = true ∨ u = 0x3a) ∧
        ∃ again, P.parseUrl (httpsPrefix ++ url.hostname ++ port ++ js "/") = some again ∧
          again.hostname = url.hostname
  emptyPath : ∀ authority tail, authority ≠ [] →
    (∀ u ∈ authority, isAuthorityEnd u = false ∧ isInvalidRawHttps u = false) →
      BeginsWith isPathEnd tail → P.parseUrl (httpsPrefix ++ (authority ++ (js "/" ++ tail)))
        = P.parseUrl (httpsPrefix ++ (authority ++ tail))
  hash : ∀ text fragment url, 0x23 ∉ text → (∀ u ∈ fragment, isInvalidRawHttps u = false) →
    P.parseUrl (text ++ 0x23 :: fragment) = some url → 0x25 ∉ url.hash →
      url.hash = 0x23 :: fragment ∨ url.hash = []

/-! ## The authority -/

/-- A unit that leaves an authority as it is. -/
def isAuthorityUnit (u : CodeUnit) : Bool :=
  decide (u.toNat < 0x80)
    && (!isAuthorityEnd u && (u != 0x40 && (u != 0x25 && !isInvalidRawHttps u)))

/-- `normalizeHttpsAuthority` on an authority and what follows it. -/
def normalizeAuthority (P : Platform) (authority suffix : JsString) : Option JsString :=
  if authority.head? = some 0x5b then normalizeBracketAuthority P authority suffix
  else normalizeNamedAuthority P authority suffix

/-- The normal form of an authority. -/
structure NormalizesAuthority (P : Platform) (raw authority : JsString) : Prop where
  hosts : ∃ rawHost rawPort host port, raw = rawHost ++ rawPort ∧ IsHost rawHost ∧
    authority = host ++ port ∧ IsHost host ∧ KeepsPort rawPort port
  nonempty : authority ≠ []
  units : ∀ u ∈ authority, isAuthorityUnit u = true
  again : ∀ suffix, normalizeAuthority P authority suffix
    = some (httpsPrefix ++ (authority ++ suffix))

theorem isAuthorityUnit_iff {u : CodeUnit} : isAuthorityUnit u = true ↔
    (0x20 < u.toNat ∧ u.toNat < 0x7f) ∧
      u ≠ 0x2f ∧ u ≠ 0x3f ∧ u ≠ 0x23 ∧ u ≠ 0x40 ∧ u ≠ 0x25 ∧ u ≠ 0x5c := by
  simp only [isAuthorityUnit, isAuthorityEnd, isInvalidRawHttps, Bool.and_eq_true,
    decide_eq_true_eq, Bool.not_eq_true', Bool.or_eq_false_iff, beq_eq_false_iff_ne, bne_iff_ne,
    decide_eq_false_iff_not, UInt16.le_iff_toNat_le, Ne, ← UInt16.toNat_inj, UInt16.reduceToNat]
  omega

/-- The units of a normal port. -/
theorem isAuthorityUnit_of_digit {u : CodeUnit} (h : isDigit u = true) :
    isAuthorityUnit u = true := by
  rw [isAuthorityUnit_iff]
  simp only [isDigit, Bool.and_eq_true, decide_eq_true_eq, UInt16.le_iff_toNat_le,
    UInt16.reduceToNat] at h
  simp only [Ne, ← UInt16.toNat_inj, UInt16.reduceToNat]
  omega

/-- The units of an address. -/
theorem isAuthorityUnit_of_address {u : CodeUnit} (h : isLowerHexDigit u = true ∨ u = 0x3a) :
    isAuthorityUnit u = true := by
  rw [isAuthorityUnit_iff]
  rcases h with h | rfl
  · simp only [isLowerHexDigit, Bool.or_eq_true, Bool.and_eq_true, decide_eq_true_eq,
      UInt16.le_iff_toNat_le, UInt16.reduceToNat] at h
    simp only [Ne, ← UInt16.toNat_inj, UInt16.reduceToNat]
    omega
  · decide

theorem ne_of_valid {u v : CodeUnit} (h : isInvalidHostCharacter u = false)
    (hv : isInvalidHostCharacter v = true) : u ≠ v := by
  rintro rfl
  rw [h] at hv
  cases hv

/-- The units of the name of a host. -/
theorem IsHostName.unit {host : JsString} (hhost : IsHostName host) {u : CodeUnit} (hu : u ∈ host) :
    isAuthorityUnit u = true := by
  have hascii := hhost.ascii u hu
  have hvalid := hhost.valid u hu
  have hdel := ne_of_valid hvalid (v := 0x7f) (by decide)
  have hlow : ¬u ≤ 0x20 := by
    rw [isInvalidHostCharacter, Bool.or_eq_false_iff, Bool.or_eq_false_iff,
      decide_eq_false_iff_not] at hvalid
    exact hvalid.1.1
  rw [UInt16.le_iff_toNat_le] at hlow
  rw [Ne, ← UInt16.toNat_inj] at hdel
  simp only [UInt16.reduceToNat] at hlow hdel
  exact isAuthorityUnit_iff.mpr ⟨⟨by omega, by omega⟩, ne_of_valid hvalid (by decide),
    ne_of_valid hvalid (by decide), ne_of_valid hvalid (by decide),
    ne_of_valid hvalid (by decide), ne_of_valid hvalid (by decide),
    ne_of_valid hvalid (by decide)⟩

theorem KeepsPort.unit {rawPort port : JsString} (h : KeepsPort rawPort port) {u : CodeUnit}
    (hu : u ∈ port) : isAuthorityUnit u = true := by
  rcases h.begins with rfl | ⟨digits, rfl, hdigits⟩
  · cases hu
  · rcases List.mem_cons.mp hu with rfl | hu
    · decide
    · exact isAuthorityUnit_of_digit (List.all_eq_true.mp hdigits u hu)

/-- A text without escapes is its own decoding. -/
theorem decodeURIComponent_of_not_mem {s : JsString} (h : 0x25 ∉ s) :
    decodeURIComponent s = some s := by
  have hunits : percentUnits s = some (s.map Sum.inr) := by
    fun_induction percentUnits s with
    | case1 => rfl
    | case2 u hu => exact absurd (by rw [beq_iff_eq.mp hu]; exact List.mem_cons_self) h
    | case3 u hu => rfl
    | case4 u v huv =>
        rw [List.mem_cons, List.mem_singleton, not_or] at h
        rw [Bool.or_eq_true, beq_iff_eq, beq_iff_eq] at huv
        exact absurd huv (not_or.mpr ⟨Ne.symm h.1, Ne.symm h.2⟩)
    | case5 u v huv => rfl
    | case6 u a b rest hu =>
        exact absurd (by rw [beq_iff_eq.mp hu]; exact List.mem_cons_self) h
    | case7 u a b rest hu =>
        exact absurd (by rw [beq_iff_eq.mp hu]; exact List.mem_cons_self) h
    | case8 u a b rest hu ih =>
        rw [ih fun hmem => h (List.mem_cons_of_mem u hmem)]
        rfl
  have hdecode : ∀ t : JsString, decodePercentUnits [] (t.map Sum.inr) = some t := by
    intro t
    induction t with
    | nil => rfl
    | cons u t ih =>
        rw [List.map_cons, decodePercentUnits, ih]
        rfl
  rw [decodeURIComponent, hunits, Option.bind_some, hdecode]

/-- An authority in brackets becomes its address and its port. -/
theorem normalizesAuthority_of_bracket {P : Platform} (hP : NormalizesHosts P)
    {authority suffix normalizedUri : JsString} (hhead : authority.head? = some 0x5b)
    (h : normalizeBracketAuthority P authority suffix = some normalizedUri) :
    ∃ normal, normalizedUri = httpsPrefix ++ (normal ++ suffix) ∧
      NormalizesAuthority P authority normal := by
  simp only [normalizeBracketAuthority, Option.bind_eq_bind, Option.bind_eq_some_iff,
    Option.guard_eq_some', Option.pure_def, Option.some.injEq, exists_const, Bool.and_eq_true,
    Bool.not_eq_true', List.contains_iff_mem] at h
  obtain ⟨⟨hclosing, -⟩, port, hport, url, hurl, hmapped, rfl⟩ := h
  -- the authority is the address in its brackets and the text of a port
  obtain ⟨front, rawPort, rfl, hfront⟩ := List.eq_append_cons_of_mem hclosing
  obtain ⟨inner, rfl⟩ : ∃ inner, front = 0x5b :: inner := by
    cases front with
    | nil => cases hhead
    | cons u inner =>
        cases hhead
        exact ⟨inner, rfl⟩
  have hinner : 0x5d ∉ inner := fun hmem => hfront (List.mem_cons_of_mem _ hmem)
  have hspan : ∀ back t : JsString, 0x5d ∉ back →
      spanUntil (· == 0x5d) (0x5b :: (back ++ 0x5d :: t)) = (0x5b :: back, 0x5d :: t) := by
    intro back t hback
    refine @spanUntil_eq _ (0x5b :: back) _ (fun u hu => ?_) (BeginsWith.of_cons rfl)
    rw [beq_eq_false_iff_ne]
    rintro rfl
    rcases List.mem_cons.mp hu with h | h
    · cases h
    · exact hback h
  have hsplit : spanUntil (· == 0x5d) (0x5b :: inner ++ 0x5d :: rawPort)
      = (0x5b :: inner, 0x5d :: rawPort) := hspan inner rawPort hinner
  rw [hsplit, List.drop_one, List.tail_cons] at hport
  have hkeeps := keepsPort_of_normalizePort hport
  have hnormal := normalizePort_of_keepsPort hkeeps
  obtain ⟨address, hhostname, haddress, again, hagain, hsame⟩ :=
    hP.address inner rawPort port url hinner hport hurl
  have haddressClosing : 0x5d ∉ address := by
    intro hmem
    rcases haddress _ hmem with h | h <;> cases h
  have hunits : ∀ u ∈ url.hostname ++ port, isAuthorityUnit u = true := by
    intro u hu
    rw [hhostname] at hu
    rcases List.mem_append.mp hu with hu | hu
    · rcases List.mem_cons.mp hu with rfl | hu
      · decide
      · rcases List.mem_append.mp hu with hu | hu
        · exact isAuthorityUnit_of_address (haddress u hu)
        · rw [List.mem_singleton.mp hu]
          decide
    · exact hkeeps.unit hu
  refine ⟨url.hostname ++ port, by simp only [List.append_assoc], ?_⟩
  refine
    { hosts := ⟨0x5b :: (inner ++ [0x5d]), rawPort, url.hostname, port, by simp,
        Or.inr ⟨inner, hinner, rfl⟩, rfl, Or.inr ⟨address, haddressClosing, hhostname⟩, hkeeps⟩
      nonempty := by rw [hhostname]; exact List.cons_ne_nil _ _
      units := hunits
      again := ?_ }
  intro suffix
  have htext : url.hostname ++ port = 0x5b :: (address ++ 0x5d :: port) := by
    rw [hhostname, List.cons_append, List.append_assoc]
    rfl
  have hpercent : (url.hostname ++ port).contains 0x25 = false := by
    rw [Bool.eq_false_iff, Ne, List.contains_iff_mem]
    exact fun hmem => absurd (hunits _ hmem) (by decide)
  have hsplit' : spanUntil (· == 0x5d) (url.hostname ++ port)
      = (0x5b :: address, 0x5d :: port) := by
    rw [htext]
    exact hspan address port haddressClosing
  unfold normalizeAuthority
  rw [if_pos (by rw [htext]; rfl)]
  simp only [normalizeBracketAuthority, Option.bind_eq_bind, Option.bind_eq_some_iff,
    Option.guard_eq_some', Option.pure_def, Option.some.injEq, exists_const, Bool.and_eq_true,
    Bool.not_eq_true', List.contains_iff_mem]
  refine ⟨⟨?_, hpercent⟩, port, ?_, again, ?_, ?_, ?_⟩
  · rw [htext]
    exact List.mem_cons_of_mem _ (List.mem_append_right _ List.mem_cons_self)
  · rw [hsplit', List.drop_one, List.tail_cons]
    exact hnormal
  · rw [← List.append_assoc]
    exact hagain
  · rw [hsame]
    exact hmapped
  · rw [hsame]
    simp only [List.append_assoc]

/-- The name of a host becomes the host of the parser of URLs. -/
theorem normalizesAuthority_of_named {P : Platform} (hP : NormalizesHosts P)
    {authority suffix normalizedUri : JsString}
    (h : normalizeNamedAuthority P authority suffix = some normalizedUri) :
    ∃ normal, normalizedUri = httpsPrefix ++ (normal ++ suffix) ∧
      NormalizesAuthority P authority normal := by
  simp only [normalizeNamedAuthority, Option.bind_eq_bind, Option.bind_eq_some_iff,
    Option.guard_eq_some', Option.pure_def, Option.some.injEq, exists_const, Bool.and_eq_true,
    Bool.not_eq_true', decide_eq_true_eq] at h
  obtain ⟨hcount, port, hport, decodedHost, -, asciiHost, hascii, ⟨hnonempty, hvalid⟩, url, hurl,
    rfl⟩ := h
  obtain ⟨rawHost, rawPort, rfl, hrawHost, -, hspan⟩ := exists_spanLast hcount
  rw [hspan] at hport
  have hkeeps := keepsPort_of_normalizePort hport
  have hnormal := normalizePort_of_keepsPort hkeeps
  have hname : IsHostName asciiHost :=
    { nonempty := List.isEmpty_eq_false_iff.mp hnonempty
      ascii := hP.ascii _ _ hascii
      valid := fun u hu => by
        rw [List.any_eq_false] at hvalid
        exact Bool.eq_false_iff.mpr (hvalid u hu) }
  obtain ⟨hhost, hhostname, hagainAscii, again, hagain, hsame⟩ :=
    hP.named asciiHost port url hname hnormal hurl
  have hcolon : 0x3a ∉ url.hostname :=
    fun hmem => absurd (hhostname.valid _ hmem) (by decide)
  have hunits : ∀ u ∈ url.host, isAuthorityUnit u = true := by
    intro u hu
    rw [hhost] at hu
    rcases List.mem_append.mp hu with hu | hu
    · exact hhostname.unit hu
    · exact hkeeps.unit hu
  have hne : url.host ≠ [] := by
    rw [hhost]
    exact List.append_ne_nil_of_left_ne_nil hhostname.nonempty _
  refine ⟨url.host, by simp only [List.append_assoc], ?_⟩
  refine
    { hosts := ⟨rawHost, rawPort, url.hostname, port, rfl, Or.inl hrawHost, hhost,
        Or.inl hcolon, hkeeps⟩
      nonempty := hne
      units := hunits
      again := ?_ }
  intro suffix
  have hbracket : url.host.head? ≠ some 0x5b := by
    obtain ⟨u, rest, hcons⟩ := List.exists_cons_of_ne_nil hhostname.nonempty
    rw [hhost, hcons, List.cons_append, List.head?_cons, Ne, Option.some.injEq]
    have hu := hhostname.valid u (by rw [hcons]; exact List.mem_cons_self)
    exact ne_of_valid hu (by decide)
  -- the port is again what follows the only colon
  have hsplit : url.host.count 0x3a ≤ 1 ∧ spanLast 0x3a url.host = (url.hostname, port) := by
    rw [hhost, List.count_append, List.count_eq_zero_of_not_mem hcolon]
    rcases hkeeps.begins with rfl | ⟨digits, rfl, hdigits⟩
    · rw [List.append_nil]
      exact ⟨by decide, spanLast_of_not_mem hcolon⟩
    · have hdigit : (0x3a : CodeUnit) ∉ digits :=
        fun hmem => absurd (List.all_eq_true.mp hdigits _ hmem) (by decide)
      rw [List.count_cons_self, List.count_eq_zero_of_not_mem hdigit]
      exact ⟨by decide, spanLast_append_cons hcolon hdigit⟩
  have hdecoded : decodeURIComponent url.hostname = some url.hostname :=
    decodeURIComponent_of_not_mem fun hmem => absurd (hhostname.valid _ hmem) (by decide)
  unfold normalizeAuthority
  rw [if_neg hbracket]
  simp only [normalizeNamedAuthority, Option.bind_eq_bind, Option.bind_eq_some_iff,
    Option.guard_eq_some', Option.pure_def, Option.some.injEq, exists_const, Bool.and_eq_true,
    Bool.not_eq_true', decide_eq_true_eq, hsplit.2]
  refine ⟨hsplit.1, port, hnormal, url.hostname, hdecoded, url.hostname, hagainAscii, ⟨?_, ?_⟩,
    again, hagain, ?_⟩
  · exact List.isEmpty_eq_false_iff.mpr hhostname.nonempty
  · rw [List.any_eq_false]
    exact fun u hu => Bool.eq_false_iff.mp (hhostname.valid u hu)
  · rw [hsame, List.append_assoc]

/-- **The authority of a URI** is put in a normal form, which stays as it is; the rest is kept. -/
theorem normalizeHttpsAuthority_text {P : Platform} (hP : NormalizesHosts P) {c : UriComponents}
    (hc : c.WellDelimited) {normalizedUri : JsString}
    (h : normalizeHttpsAuthority P c.text = some normalizedUri) :
    ∃ normal, normalizedUri = { c with authority := normal }.text ∧
      NormalizesAuthority P c.authority normal := by
  unfold normalizeHttpsAuthority at h
  rw [UriComponents.spanUntil_authority hc] at h
  dsimp only at h
  split_ifs at h with hhead
  · exact normalizesAuthority_of_bracket hP hhead h
  · exact normalizesAuthority_of_named hP h

/-! ## The derivation -/

/-- What the URL to fetch has of a URI. -/
structure DerivesFetchUrl (uri fetchUrl digestHex : JsString) : Prop where
  https : httpsPrefix.isPrefixOf fetchUrl = true
  noFragment : 0x23 ∉ fetchUrl
  noUser : 0x40 ∉ (uriComponents fetchUrl).authority
  noDots : ∀ segment ∈ splitAll 0x2f (uriComponents fetchUrl).path,
    decodeDots segment ≠ js "." ∧ decodeDots segment ≠ js ".."
  path : (uriComponents fetchUrl).path
    = if (uriComponents uri).path.isEmpty then js "/" else (uriComponents uri).path
  query : (uriComponents fetchUrl).query = (uriComponents uri).query
  port : ∃ rawHost rawPort host port, (uriComponents uri).authority = rawHost ++ rawPort ∧
    IsHost rawHost ∧ (uriComponents fetchUrl).authority = host ++ port ∧ IsHost host ∧
      KeepsPort rawPort port
  digest : (uriComponents uri).fragment = js "#xcs-sha256=" ++ digestHex
  digest_form : isLowerHash digestHex = true

namespace UriComponents

variable {c : UriComponents}

theorem WellDelimited.withAuthority (hc : c.WellDelimited) {authority : JsString}
    (h : ∀ u ∈ authority, isAuthorityUnit u = true) :
    ({ c with authority := authority } : UriComponents).WellDelimited :=
  { hc with
    authority := fun u hu => by
      have hunit := isAuthorityUnit_iff.mp (h u hu)
      rw [isAuthorityEnd, beq_false_of_ne hunit.2.1, beq_false_of_ne hunit.2.2.1,
        beq_false_of_ne hunit.2.2.2.1]
      rfl }

/-- The URL to fetch with a fragment. -/
theorem WellDelimited.fetched (hc : c.WellDelimited) {fragment : JsString}
    (h : BeginsWith (· == 0x23) fragment) :
    ({ c.fetched with fragment := fragment } : UriComponents).WellDelimited where
  authority := hc.authority
  path := by
    intro u hu
    unfold UriComponents.fetched at hu
    dsimp only at hu
    split_ifs at hu with hempty
    · obtain rfl : u = 0x2f := by simpa [js] using hu
      decide
    · exact hc.path u hu
  path_begins := by
    unfold UriComponents.fetched
    dsimp only
    split_ifs with hempty
    · exact BeginsWith.of_cons (by decide)
    · exact hc.path_begins
  query := hc.query
  query_begins := hc.query_begins
  fragment_begins := h

end UriComponents

/-- The fragment of a digest has no escapes, so it is the text of the fragment. -/
theorem eq_of_isDigestFragment {hash : JsString} (h : isDigestFragment hash = true) :
    hash = js "#xcs-sha256=" ++ hash.drop 12 ∧ isLowerHash (hash.drop 12) = true ∧
      0x25 ∉ hash := by
  rw [isDigestFragment, Bool.and_eq_true] at h
  obtain ⟨hbegins, hdigest⟩ := h
  obtain ⟨digest, rfl⟩ := List.isPrefixOf_iff_prefix.mp hbegins
  have hdrop : (js "#xcs-sha256=" ++ digest).drop 12 = digest := List.drop_left' (by decide)
  rw [hdrop] at hdigest ⊢
  refine ⟨rfl, hdigest, fun hmem => ?_⟩
  rcases List.mem_append.mp hmem with hmem | hmem
  · exact absurd hmem (by decide)
  · rw [isLowerHash, Bool.and_eq_true] at hdigest
    exact absurd (List.all_eq_true.mp hdigest.2 _ hmem) (by decide)

/-- A unit that the checks of the raw text let pass. -/
def isUriUnit (u : CodeUnit) : Bool :=
  decide (u.toNat < 0x80) && !isInvalidRawHttps u

theorem isUriUnit_of_authority {u : CodeUnit} (h : isAuthorityUnit u = true) :
    isUriUnit u = true := by
  simp only [isAuthorityUnit, Bool.and_eq_true] at h
  rw [isUriUnit, h.1, h.2.2.2.2]
  rfl

theorem isUriUnit_of_alphanumeric {u : CodeUnit} (h : isAlphanumeric u = true) :
    isUriUnit u = true := by
  simp only [isAlphanumeric, isUpper, isLower, isDigit, Bool.or_eq_true, Bool.and_eq_true,
    decide_eq_true_eq, UInt16.le_iff_toNat_le, UInt16.reduceToNat] at h
  simp only [isUriUnit, isInvalidRawHttps, Bool.and_eq_true, decide_eq_true_eq,
    Bool.not_eq_true', Bool.or_eq_false_iff, beq_eq_false_iff_ne, decide_eq_false_iff_not,
    UInt16.le_iff_toNat_le, Ne, ← UInt16.toNat_inj, UInt16.reduceToNat]
  omega

theorem isAlphanumeric_of_isHexDigit {u : CodeUnit} (h : isHexDigit u = true) :
    isAlphanumeric u = true := by
  simp only [isHexDigit, isLowerHexDigit, Bool.or_eq_true, Bool.and_eq_true,
    decide_eq_true_eq, UInt16.le_iff_toNat_le, UInt16.reduceToNat] at h
  simp only [isAlphanumeric, isUpper, isLower, isDigit, Bool.or_eq_true, Bool.and_eq_true,
    decide_eq_true_eq, UInt16.le_iff_toNat_le, UInt16.reduceToNat]
  omega

theorem isUriUnit_of_path {u : CodeUnit} (h : isCanonicalPathUnit u = true) :
    isUriUnit u = true := by
  have hlist : (js "-._~!$&'()*+,;=:@/").all isUriUnit = true := by decide
  rw [isCanonicalPathUnit, Bool.or_eq_true, decide_eq_true_eq] at h
  exact h.elim isUriUnit_of_alphanumeric (List.all_eq_true.mp hlist u)

theorem isUriUnit_of_query {u : CodeUnit} (h : isCanonicalQueryUnit u = true) :
    isUriUnit u = true := by
  have hlist : (js "-._~!$&()*+,;=:@/?").all isUriUnit = true := by decide
  rw [isCanonicalQueryUnit, Bool.or_eq_true, decide_eq_true_eq] at h
  exact h.elim isUriUnit_of_alphanumeric (List.all_eq_true.mp hlist u)

/-- The units of a canonical component: escapes and what is allowed. -/
theorem isUriUnit_of_canonical {allowed : CodeUnit → Bool}
    (hallowed : ∀ u, allowed u = true → isUriUnit u = true) {s : JsString}
    (h : isCanonicalComponent allowed s = true) : ∀ u ∈ s, isUriUnit u = true := by
  fun_induction isCanonicalComponent allowed s with
  | case1 =>
      intro u hu
      cases hu
  | case2 u =>
      rw [Bool.and_eq_true] at h
      rw [List.forall_mem_singleton]
      exact hallowed u h.2
  | case3 u v =>
      simp only [Bool.and_eq_true] at h
      rw [List.forall_mem_cons, List.forall_mem_singleton]
      exact ⟨hallowed u h.1.1.2, hallowed v h.2⟩
  | case4 u a b rest hu ih =>
      simp only [Bool.and_eq_true] at h
      rw [beq_iff_eq] at hu
      subst hu
      rw [List.forall_mem_cons, List.forall_mem_cons, List.forall_mem_cons]
      exact ⟨by decide, isUriUnit_of_alphanumeric (isAlphanumeric_of_isHexDigit h.1.1),
        isUriUnit_of_alphanumeric (isAlphanumeric_of_isHexDigit h.1.2), ih h.2⟩
  | case5 u a b rest hu ih =>
      rw [Bool.and_eq_true] at h
      rw [List.forall_mem_cons]
      exact ⟨hallowed u h.1, ih h.2⟩

theorem isUriUnit_of_digest {digest : JsString} (h : isLowerHash digest = true) :
    ∀ u ∈ js "#xcs-sha256=" ++ digest, isUriUnit u = true := by
  intro u hu
  rcases List.mem_append.mp hu with hu | hu
  · have hlist : (js "#xcs-sha256=").all isUriUnit = true := by decide
    exact List.all_eq_true.mp hlist u hu
  · rw [isLowerHash, Bool.and_eq_true] at h
    exact isUriUnit_of_authority
      (isAuthorityUnit_of_address (Or.inl (List.all_eq_true.mp h.2 u hu)))

variable {P : Platform}

/-- What `parsePayloadUri` asks of an HTTPS URI. -/
theorem parsePayloadUri_https {uri raw fetchUrl digestHex : JsString} :
    parsePayloadUri P uri = .ok (.https raw fetchUrl digestHex) ↔
      isAccepted uri = true ∧
        (1 ≤ (encodeUtf8 uri).length ∧ (encodeUtf8 uri).length ≤ 256) ∧
        parseIpfsUri P uri = .ok none ∧
        parseHttpsUri P uri = .ok (.https raw fetchUrl digestHex) := by
  simp only [parsePayloadUri, utf8ByteLength, bind_eq_ok, assertWellFormed_eq_ok, exists_const,
    pure_eq_ok]
  constructor
  · rintro ⟨length, ⟨haccepted, rfl⟩, h⟩
    split_ifs at h with hlength
    · cases h
    · obtain ⟨ipfs, hipfs, h⟩ := bind_eq_ok.mp h
      refine ⟨haccepted, by omega, ?_⟩
      cases ipfs with
      | none => exact ⟨hipfs, h⟩
      | some target =>
          -- an IPFS URI has no URL to fetch
          obtain rfl := Except.ok.inj h
          unfold parseIpfsUri at hipfs
          split at hipfs
          · cases hipfs
          · split at hipfs
            · cases hipfs
            · split_ifs at hipfs
              · cases hipfs
              · cases hipfs
  · rintro ⟨haccepted, hlength, hipfs, h⟩
    refine ⟨_, ⟨haccepted, rfl⟩, ?_⟩
    rw [if_neg (by omega), hipfs]
    exact h

/-- The components of an accepted URI with its authority in normal form, of which the URL to fetch
and the digest are made. -/
structure ReadsAs (P : Platform) (uri : JsString) (c : UriComponents)
    (fetchUrl digestHex : JsString) :
    Prop where
  delimited : c.WellDelimited
  components : uriComponents uri = { c with authority := (uriComponents uri).authority }
  authority : NormalizesAuthority P (uriComponents uri).authority c.authority
  fetchable : isFetchable c.path c.query = true
  fetchUrl : fetchUrl = c.fetched.text
  fragment : c.fragment = js "#xcs-sha256=" ++ digestHex
  digest : isLowerHash digestHex = true
  parsed : ∃ parsed, P.parseUrl c.text = some parsed ∧ parsed.protocol = js "https:" ∧
    parsed.username = [] ∧ parsed.password = [] ∧ parsed.hash = js "#xcs-sha256=" ++ digestHex

theorem readsAs_of_parseHttpsUri (hP : NormalizesHosts P) {uri raw fetchUrl digestHex : JsString}
    (h : parseHttpsUri P uri = .ok (.https raw fetchUrl digestHex)) :
    raw = uri ∧ ∃ c, ReadsAs P uri c fetchUrl digestHex := by
  obtain ⟨⟨hbegins, hinvalid⟩, -, normalizedUri, parsed, fetchUrl', hnormalized, hparsed, hfetch,
    ⟨hprotocol, husername, hpassword, hdigest⟩, htarget⟩ := parseHttpsUri_eq_ok.mp h
  obtain ⟨hraw, rfl, rfl⟩ := PayloadUri.https.inj htarget
  refine ⟨hraw, ?_⟩
  have hc := wellDelimited_uriComponents uri
  have htext := text_uriComponents hbegins
  generalize hcomponents : uriComponents uri = c at hc htext
  rw [← htext] at hnormalized hinvalid
  obtain ⟨normal, rfl, hnormal⟩ := normalizeHttpsAuthority_text hP hc hnormalized
  have hc' := hc.withAuthority hnormal.units
  obtain ⟨hfragment, hfetchable, hfetchUrl⟩ := (UriComponents.buildFetchUrl_text hc').mp hfetch
  obtain ⟨hhash, hlower, hpercent⟩ := eq_of_isDigestFragment hdigest
  -- the fragment that the parser of URLs returns is the text of the fragment
  have hliteral : c.fragment = parsed.hash := by
    rcases hc.fragment_begins with hnil | ⟨u, rest, hcons, hu⟩
    · exact absurd hnil hfragment
    · rw [beq_iff_eq] at hu
      subst hu
      have hbefore := UriComponents.not_mem_text_of_fragment hc'
      have hsplit : ({ c with authority := normal } : UriComponents).text
          = (httpsPrefix ++ (normal ++ (c.path ++ c.query))) ++ 0x23 :: rest := by
        unfold UriComponents.text
        dsimp only
        rw [hcons]
        simp only [List.append_assoc]
      have hrest : ∀ u ∈ rest, isInvalidRawHttps u = false := by
        intro u hu
        rw [List.any_eq_false] at hinvalid
        refine Bool.eq_false_iff.mpr (hinvalid u ?_)
        unfold UriComponents.text
        rw [hcons]
        simp [hu]
      rw [hsplit] at hparsed
      rcases hP.hash _ rest parsed hbefore hrest hparsed hpercent with hsame | hempty
      · rw [hcons, hsame]
      · rw [hempty] at hdigest
        cases hdigest
  refine ⟨{ c with authority := normal }, hc', ?_, ?_, hfetchable, hfetchUrl, ?_, hlower, parsed,
    hparsed, hprotocol, husername, hpassword, hhash⟩
  · rw [hcomponents]
  · rw [hcomponents]
    exact hnormal
  · exact hliteral.trans hhash

theorem path_fetched_ne (c : UriComponents) : c.fetched.path.isEmpty = false := by
  unfold UriComponents.fetched
  dsimp only
  split_ifs with hempty
  · decide
  · exact Bool.eq_false_iff.mpr hempty

namespace ReadsAs

variable {uri fetchUrl digestHex : JsString} {c : UriComponents}

theorem derivesFetchUrl (h : ReadsAs P uri c fetchUrl digestHex) :
    DerivesFetchUrl uri fetchUrl digestHex := by
  have hdelimited : c.fetched.WellDelimited := h.delimited.fetched (Or.inl rfl)
  have hfetched : uriComponents fetchUrl = c.fetched := by
    rw [h.fetchUrl]
    exact UriComponents.uriComponents_text hdelimited
  have hpath : (uriComponents uri).path = c.path := by rw [h.components]
  have hquery : (uriComponents uri).query = c.query := by rw [h.components]
  have hfragment : (uriComponents uri).fragment = c.fragment := by rw [h.components]
  have hnone : c.fetched.text
      = httpsPrefix ++ (c.fetched.authority ++ (c.fetched.path ++ c.fetched.query)) := by
    have : c.fetched.fragment = [] := rfl
    rw [UriComponents.text, this, List.append_nil]
  obtain ⟨rawHost, rawPort, host, port, hraw, hrawHost, hhost, hhostForm, hport⟩ :=
    h.authority.hosts
  refine
    { https := ?_
      noFragment := ?_
      noUser := ?_
      noDots := ?_
      path := by rw [hfetched, hpath]; rfl
      query := by rw [hfetched, hquery]; rfl
      port := ⟨rawHost, rawPort, host, port, hraw, hrawHost, by rw [hfetched]; exact hhost,
        hhostForm, hport⟩
      digest := hfragment.trans h.fragment
      digest_form := h.digest }
  · rw [h.fetchUrl, UriComponents.text]
    exact List.isPrefixOf_iff_prefix.mpr (List.prefix_append _ _)
  · rw [h.fetchUrl, hnone]
    exact UriComponents.not_mem_text_of_fragment hdelimited
  · rw [hfetched]
    exact fun hmem => absurd (h.authority.units _ hmem) (by decide)
  · intro segment hsegment
    rw [hfetched] at hsegment
    have hfetchable := UriComponents.isFetchable_fetched h.fetchable
    rw [isFetchable, Bool.and_eq_true, Bool.and_eq_true] at hfetchable
    have hdots := List.all_eq_true.mp hfetchable.2.2 segment hsegment
    rwa [Bool.and_eq_true, bne_iff_ne, bne_iff_ne] at hdots

/-- The units of the URL to fetch and of the digest pass the checks of the raw text. -/
theorem units (h : ReadsAs P uri c fetchUrl digestHex) :
    ∀ u ∈ ({ c.fetched with fragment := c.fragment } : UriComponents).text,
      isUriUnit u = true := by
  have hfetchable := UriComponents.isFetchable_fetched h.fetchable
  rw [isFetchable, Bool.and_eq_true, Bool.and_eq_true] at hfetchable
  intro u hu
  simp only [UriComponents.text, List.mem_append] at hu
  rcases hu with hu | hu | hu | hu | hu
  · have hlist : httpsPrefix.all isUriUnit = true := by decide
    exact List.all_eq_true.mp hlist u hu
  · exact isUriUnit_of_authority (h.authority.units u hu)
  · exact isUriUnit_of_canonical (fun _ => isUriUnit_of_path) hfetchable.1 u hu
  · have hquery := isUriUnit_of_canonical (fun _ => isUriUnit_of_query) hfetchable.2.1
    rcases h.delimited.query_begins with hnil | ⟨v, rest, hcons, hv⟩
    · rw [show c.fetched.query = c.query from rfl, hnil] at hu
      cases hu
    · rw [beq_iff_eq] at hv
      subst hv
      rw [show c.fetched.query = c.query from rfl, hcons, List.drop_one, List.tail_cons] at hquery
      rw [show c.fetched.query = c.query from rfl, hcons] at hu
      rcases List.mem_cons.mp hu with rfl | hu
      · decide
      · exact hquery u hu
  · rw [h.fragment] at hu
    exact isUriUnit_of_digest h.digest u hu

/-- The URL of the URI is the URL of what is fetched, with the digest. -/
theorem parseUrl_again (hP : NormalizesHosts P) (h : ReadsAs P uri c fetchUrl digestHex) :
    P.parseUrl ({ c.fetched with fragment := c.fragment } : UriComponents).text
      = P.parseUrl c.text := by
  by_cases hempty : c.path.isEmpty = true
  · have hpath : c.fetched.path = js "/" := if_pos hempty
    rw [List.isEmpty_iff] at hempty
    have htext : c.text = httpsPrefix ++ (c.authority ++ (c.query ++ c.fragment)) := by
      rw [UriComponents.text, hempty, List.nil_append]
    have hagain : ({ c.fetched with fragment := c.fragment } : UriComponents).text
        = httpsPrefix ++ (c.authority ++ (js "/" ++ (c.query ++ c.fragment))) := by
      rw [UriComponents.text, hpath]
      rfl
    rw [htext, hagain]
    refine hP.emptyPath _ _ h.authority.nonempty (fun u hu => ⟨h.delimited.authority u hu, ?_⟩)
      (UriComponents.begins_tail h.delimited)
    have hunit := isUriUnit_of_authority (h.authority.units u hu)
    rw [isUriUnit, Bool.and_eq_true, Bool.not_eq_true'] at hunit
    exact hunit.2
  · have hpath : c.fetched.path = c.path := if_neg hempty
    have hsame : ({ c.fetched with fragment := c.fragment } : UriComponents) = c := by
      show (⟨c.authority, c.fetched.path, c.query, c.fragment⟩ : UriComponents) = c
      rw [hpath]
    rw [hsame]

/-- **The URL to fetch with the digest is read as itself.** -/
theorem parse_again (hP : NormalizesHosts P) (h : ReadsAs P uri c fetchUrl digestHex)
    (hlength : (encodeUtf8 (fetchUrl ++ (js "#xcs-sha256=" ++ digestHex))).length ≤ 256) :
    parsePayloadUri P (fetchUrl ++ (js "#xcs-sha256=" ++ digestHex))
      = .ok (.https (fetchUrl ++ (js "#xcs-sha256=" ++ digestHex)) fetchUrl digestHex) := by
  have htext : fetchUrl ++ (js "#xcs-sha256=" ++ digestHex)
      = ({ c.fetched with fragment := c.fragment } : UriComponents).text := by
    have hnone : c.fetched.fragment = [] := rfl
    rw [h.fetchUrl, ← h.fragment]
    simp only [UriComponents.text, hnone, List.append_nil, List.append_assoc]
  have hunits := h.units
  have hparse := h.parseUrl_again hP
  have hdelimited := h.delimited.fetched h.delimited.fragment_begins
  obtain ⟨parsed, hparsed, hprotocol, husername, hpassword, hhash⟩ := h.parsed
  rw [← hparse, ← htext] at hparsed
  rw [← htext] at hunits
  have hspan := UriComponents.spanUntil_authority hdelimited
  rw [← htext] at hspan
  have hascii : ∀ u ∈ fetchUrl ++ (js "#xcs-sha256=" ++ digestHex), u.toNat < 0x80 := by
    intro u hu
    have hunit := hunits u hu
    rw [isUriUnit, Bool.and_eq_true, decide_eq_true_eq] at hunit
    exact hunit.1
  have hwell : isWellFormed (fetchUrl ++ (js "#xcs-sha256=" ++ digestHex)) = true := by
    refine isWellFormed_of_forall_not_surrogate fun u hu => ?_
    have hlow := hascii u hu
    rw [Bool.eq_false_iff, Bool.eq_false_iff, Ne, Ne, isHighSurrogate_iff, isLowSurrogate_iff]
    omega
  have hbegins : httpsPrefix.isPrefixOf (fetchUrl ++ (js "#xcs-sha256=" ++ digestHex)) = true := by
    rw [htext, UriComponents.text]
    exact List.isPrefixOf_iff_prefix.mpr (List.prefix_append _ _)
  have hdrop : (js "#xcs-sha256=" ++ digestHex).drop 12 = digestHex := List.drop_left' (by decide)
  refine parsePayloadUri_https.mpr ⟨isAccepted_of_isWellFormed hwell, ⟨?_, hlength⟩, ?_,
    parseHttpsUri_eq_ok.mpr ⟨⟨hbegins, ?_⟩, ⟨?_, ?_⟩, fetchUrl ++ (js "#xcs-sha256=" ++ digestHex),
      parsed, fetchUrl, ?_, hparsed, ?_, ⟨hprotocol, husername, hpassword, ?_⟩, ?_⟩⟩
  · rw [length_encodeUtf8_of_ascii hascii, htext, UriComponents.text, List.length_append]
    have : httpsPrefix.length = 8 := by decide
    omega
  · rw [htext]
    rfl
  · rw [List.any_eq_false]
    intro u hu
    have hunit := hunits u hu
    rw [isUriUnit, Bool.and_eq_true, Bool.not_eq_true'] at hunit
    exact Bool.eq_false_iff.mp hunit.2
  · rw [hspan]
    exact h.authority.nonempty
  · rw [hspan]
    exact fun hmem => absurd (h.authority.units _ hmem) (by decide)
  · unfold normalizeHttpsAuthority
    rw [hspan]
    dsimp only
    rw [htext]
    exact h.authority.again _
  · rw [htext, UriComponents.buildFetchUrl_text hdelimited]
    refine ⟨?_, UriComponents.isFetchable_fetched h.fetchable, ?_⟩
    · show c.fragment ≠ []
      rw [h.fragment]
      exact List.append_ne_nil_of_left_ne_nil (by decide) _
    · rw [h.fetchUrl]
      have hpath : (if c.fetched.path.isEmpty = true then js "/" else c.fetched.path)
          = c.fetched.path := if_neg (by rw [path_fetched_ne]; decide)
      show (⟨c.authority, c.fetched.path, c.query, []⟩ : UriComponents).text
        = (⟨c.authority, _, c.query, []⟩ : UriComponents).text
      rw [hpath]
  · rw [hhash, isDigestFragment, hdrop, h.digest, Bool.and_true]
    exact List.isPrefixOf_iff_prefix.mpr (List.prefix_append _ _)
  · rw [hhash, hdrop]

end ReadsAs

/-- A reader of HTTPS URLs whose hosts are names. -/
def readNamedUrl (text : JsString) : Option Url :=
  if (text.drop httpsPrefix.length).head? = some 0x5b then none else readHttpsUrl text

/-- A platform that reads these, with names in ASCII. -/
def namesPlatform : Platform :=
  { Platform.sample with
    parseUrl := readNamedUrl
    domainToAscii := fun host =>
      if host.all fun u => decide (u.toNat < 0x80) then some host else none }

/-- What comes before the first delimiter does not matter to what comes after. -/
theorem spanUntil_append_right {stop : CodeUnit → Bool} {s : JsString}
    (hs : ∀ u ∈ s, stop u = false) (t : JsString) :
    spanUntil stop (s ++ t) = (s ++ (spanUntil stop t).1, (spanUntil stop t).2) := by
  have hparts : ∀ u ∈ s ++ (spanUntil stop t).1, stop u = false := by
    intro u hu
    rcases List.mem_append.mp hu with hu | hu
    · exact hs u hu
    · exact stop_of_mem_spanUntil hu
  have hspan := spanUntil_eq hparts (begins_of_spanUntil stop t)
  rwa [List.append_assoc, spanUntil_append] at hspan

/-- What the reader returns for a text with a given authority. -/
theorem readNamedUrl_text {authority tail : JsString}
    (hauthority : ∀ u ∈ authority, isAuthorityEnd u = false)
    (htail : BeginsWith isAuthorityEnd tail) :
    readNamedUrl (httpsPrefix ++ (authority ++ tail)) =
      if (authority ++ tail).head? = some 0x5b then none
      else if (authority ++ tail).all fun u => decide (u.toNat < 0x80) then
        some
          { protocol := js "https:"
            username := []
            password := []
            hostname := (spanUntil (· == 0x3a) authority).1
            host := authority
            hash := (spanUntil (· == 0x23) tail).2 }
      else none := by
  have hhash : spanUntil (· == 0x23) (httpsPrefix ++ (authority ++ tail))
      = (httpsPrefix ++ (authority ++ (spanUntil (· == 0x23) tail).1),
        (spanUntil (· == 0x23) tail).2) := by
    rw [← List.append_assoc, spanUntil_append_right, List.append_assoc]
    intro u hu
    rw [beq_eq_false_iff_ne]
    rintro rfl
    rcases List.mem_append.mp hu with hu | hu
    · exact absurd hu (by decide)
    · exact absurd (hauthority _ hu) (by decide)
  have hbegin : (httpsPrefix.all fun u => decide (u.toNat < 0x80)) = true := by decide
  unfold readNamedUrl readHttpsUrl
  rw [List.drop_left, spanUntil_eq hauthority htail, hhash, List.all_append, hbegin, Bool.true_and]

theorem normalizesHosts_namesPlatform : NormalizesHosts namesPlatform where
  ascii := by
    intro host asciiHost h
    change (if _ then some host else none) = some asciiHost at h
    split_ifs at h with hascii
    obtain rfl := Option.some.inj h
    exact fun u hu => of_decide_eq_true (List.all_eq_true.mp hascii u hu)
  named := by
    intro host port url hhost hport hurl
    have hkeeps := keepsPort_of_normalizePort hport
    have hauthority : ∀ u ∈ host ++ port, isAuthorityEnd u = false := by
      intro u hu
      have hunit : isAuthorityUnit u = true := by
        rcases List.mem_append.mp hu with hu | hu
        · exact hhost.unit hu
        · exact hkeeps.unit hu
      rw [isAuthorityUnit, Bool.and_eq_true, Bool.and_eq_true, Bool.not_eq_true'] at hunit
      exact hunit.2.1
    have hcolon : ∀ u ∈ host, (u == 0x3a) = false := by
      intro u hu
      exact beq_false_of_ne (ne_of_valid (hhost.valid u hu) (by decide))
    have hname : spanUntil (· == 0x3a) (host ++ port) = (host, port) := by
      refine spanUntil_eq hcolon ?_
      rcases hkeeps.begins with rfl | ⟨digits, rfl, -⟩
      · exact Or.inl rfl
      · exact BeginsWith.of_cons rfl
    have hurl' := hurl
    rw [List.append_assoc, List.append_assoc, ← List.append_assoc host] at hurl'
    change readNamedUrl (httpsPrefix ++ ((host ++ port) ++ js "/")) = some url at hurl'
    have hslash : BeginsWith isAuthorityEnd (js "/") := BeginsWith.of_cons (by decide)
    rw [readNamedUrl_text hauthority hslash, hname] at hurl'
    split_ifs at hurl'
    obtain rfl := Option.some.inj hurl'
    refine ⟨rfl, hhost, ?_, _, hurl, rfl⟩
    have hascii : (host.all fun u => decide (u.toNat < 0x80)) = true :=
      List.all_eq_true.mpr fun u hu => decide_eq_true (hhost.ascii u hu)
    exact if_pos hascii
  address := by
    intro inner rawPort port url _ _ hurl
    cases hurl
  emptyPath := by
    intro authority tail hne hauthority htail
    have hends : ∀ u ∈ authority, isAuthorityEnd u = false := fun u hu => (hauthority u hu).1
    obtain ⟨u, rest, rfl⟩ := List.exists_cons_of_ne_nil hne
    have hbegins : BeginsWith isAuthorityEnd tail := by
      refine htail.mono fun v hv => ?_
      rw [isAuthorityEnd, Bool.or_assoc]
      rw [isPathEnd] at hv
      rw [hv, Bool.or_true]
    have hslash : BeginsWith isAuthorityEnd (js "/" ++ tail) := BeginsWith.of_cons (by decide)
    have hhash : spanUntil (· == 0x23) (js "/" ++ tail)
        = (js "/" ++ (spanUntil (· == 0x23) tail).1, (spanUntil (· == 0x23) tail).2) :=
      spanUntil_append_right (List.forall_mem_singleton.mpr rfl) tail
    have hall : ((u :: rest) ++ (js "/" ++ tail)).all (fun u => decide (u.toNat < 0x80))
        = ((u :: rest) ++ tail).all fun u => decide (u.toNat < 0x80) := by
      have hone : ((js "/").all fun u => decide (u.toNat < 0x80)) = true := by decide
      rw [List.all_append, List.all_append, List.all_append, hone, Bool.true_and]
    show readNamedUrl _ = readNamedUrl _
    rw [readNamedUrl_text hends hslash, readNamedUrl_text hends hbegins, hhash, hall]
    rfl
  hash := by
    intro text fragment url htext _ hurl _
    change readNamedUrl _ = some url at hurl
    unfold readNamedUrl at hurl
    split_ifs at hurl
    exact Or.inl (hash_of_readHttpsUrl htext hurl)

def zerosDigest : JsString := List.replicate 64 0x30

end Core
end Xcs
