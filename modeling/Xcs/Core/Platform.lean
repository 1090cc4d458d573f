import Xcs.Js.Value

/-!
# Third-party functions

What the protocol takes from other packages: the hash function, the address check of the ledger
library, one decision of the canonical serialiser, and the parsers of URLs, domain names and content
identifiers.  Of an address only its shape is known: an `r` and base-58 digits.  A serialiser that
meets a lone surrogate either writes the escape `JSON.stringify` writes or refuses the string; both
occur in practice, and `escapesLoneSurrogates` says which.

A `jsonb` column gives back the value that was written, up to the order of object members.
`JsonbReader` is a reader that does so.
-/

namespace Xcs

open Js

/-- The characters of `[1-9A-HJ-NP-Za-km-z]`. -/
def isBase58 (u : CodeUnit) : Bool :=
  (0x31 ≤ u && u ≤ 0x39) || (0x41 ≤ u && u ≤ 0x48) || (0x4a ≤ u && u ≤ 0x4e)
    || (0x50 ≤ u && u ≤ 0x5a) || (0x61 ≤ u && u ≤ 0x6b) || (0x6d ≤ u && u ≤ 0x7a)

/-- `^r[1-9A-HJ-NP-Za-km-z]{24,34}$` -/
def hasAddressShape : JsString → Bool
  | [] => false
  | u :: rest => u == 0x72 && decide (24 ≤ rest.length ∧ rest.length ≤ 34) && rest.all isBase58

/-- What the program reads of a `URL`. -/
structure Url where
  protocol : JsString
  username : JsString
  password : JsString
  hostname : JsString
  host : JsString
  hash : JsString
  deriving DecidableEq

/-- What the program reads of a `CID`: the parts of the identifier and its base-32 text. -/
structure Cid where
  version : ℕ
  code : ℕ
  multihashCode : ℕ
  multihashSize : ℕ
  digest : List UInt8
  text : JsString
  deriving DecidableEq

/-- The functions other packages provide. -/
structure Platform where
  /-- `sha256` -/
  sha256 : List UInt8 → List UInt8
  sha256_length : ∀ bytes, (sha256 bytes).length = 32
  /-- `isValidClassicAddress` -/
  isValidClassicAddress : JsString → Bool
  hasAddressShape_of_valid : ∀ s, isValidClassicAddress s = true → hasAddressShape s = true
  /-- `canonicalize` writes a lone surrogate as an escape, rather than to throw. -/
  escapesLoneSurrogates : Bool
  /-- `new URL(text)`; `none` where it throws. -/
  parseUrl : JsString → Option Url
  /-- `tr46.toASCII`; `none` is `null`. -/
  domainToAscii : JsString → Option JsString
  /-- `CID.parse(text, base32.decoder)`; `none` where it throws. -/
  parseCid : JsString → Option Cid

/-- A platform to evaluate the program with: every hash is the same, every text in the shape of an
address is one, and no text is a URL or a content identifier. -/
def Platform.sample : Platform where
  sha256 := fun _ => List.replicate 32 0
  sha256_length := fun _ => List.length_replicate
  isValidClassicAddress := hasAddressShape
  hasAddressShape_of_valid := fun _ h => h
  escapesLoneSurrogates := true
  parseUrl := fun _ => none
  domainToAscii := fun _ => none
  parseCid := fun _ => none

/-- The same with a hash that tells some values apart: the last byte is the sum of the bytes. -/
def Platform.summing : Platform :=
  { Platform.sample with
    sha256 := fun bytes => List.replicate 31 0 ++ [bytes.foldl (· + ·) 0]
    sha256_length := fun bytes => by rw [List.length_append, List.length_replicate]; rfl }

/-- A way to read a `jsonb` column: what was written, in some order of members. -/
structure JsonbReader where
  read : JsValue → JsValue
  canon_read : ∀ v, (read v).canon = v.canon

namespace JsonbReader

/-- The reader that keeps the order. -/
def exact : JsonbReader := ⟨id, fun _ => rfl⟩

/-- The reader that sorts the members of every object. -/
def sorted : JsonbReader := ⟨JsValue.canon, JsValue.canon_canon⟩

end JsonbReader

end Xcs
