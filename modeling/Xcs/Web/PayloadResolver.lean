import Xcs.Core.PayloadUri
import Xcs.Run.Program

/-!
# The payload resolver

`SafePayloadResolver.resolve` fetches the payload a URI names.  An HTTPS payload is fetched hop by
hop: each hop is a URL that is checked, a host that is resolved, and a request over an agent that
connects to the address that was found and to no other one.

Nothing is said about the answers of the name server, of the servers, and of the streams of their
responses.

* `SafeRequest` is what a request may be after the calls so far.
* `fetchPinned_yields` is what one retrieval does, by induction on the hops.
* `payload_fetch_public` is the statement about every run.
-/

namespace Xcs
namespace Web

open Js Json Xcs.Core Program

/-- `MAX_REDIRECTS` -/
def maxRedirects : ℕ := 2

/-- `FETCH_TIMEOUT_MS` -/
def fetchTimeoutMs : ℕ := 5000

/-- What a payload may weigh: `MAX_PAYLOAD_BYTES`. -/
def maxFetchedBytes : ℕ := 1024 * 1024

/-! ## Calls -/

/-- What the resolver throws: one of its own two classes, or something else. -/
inductive PayloadError where
  | unavailable (message : JsString)
  | invalid (message : JsString)
  | other (error : Thrown)

/-- `error instanceof PayloadUnavailableError || error instanceof PayloadInvalidError` -/
def PayloadError.IsOwn : PayloadError → Prop
  | other _ => False
  | _ => True

/-- `ResolvedAddress` -/
structure ResolvedAddress where
  address : JsString
  family : ℕ
  deriving DecidableEq

/-- How a lookup fails: the name server throws, or the time is up. -/
inductive LookupFailure where
  | failed
  | timedOut

/-- What the resolver reads of a response. -/
structure PayloadResponse where
  status : ℕ
  location : Option JsString
  hasBody : Bool

/-- `response.ok` -/
def PayloadResponse.ok (response : PayloadResponse) : Bool :=
  decide (200 ≤ response.status ∧ response.status ≤ 299)

/-- The functions of the language and of other packages that the resolver uses. -/
structure PayloadNetwork where
  /-- `isIP`; no family is 0. -/
  isIP : JsString → ℕ
  isPublicAddress : JsString → Bool
  /-- `new URL(location, base)` -/
  parseLocation : JsString → Url → Option Url

/-- A call of the resolver.  The agent of a `fetch` connects to its address; the one of a
`fetchGateway` connects as it likes. -/
inductive ResolverCall where
  | now
  | lookup (hostname : JsString)
  | fetch (url : Url) (address : ResolvedAddress)
  | fetchGateway (url : Url)
  | cancelBody
  | read
  | cancelReader
  | closeAgent

/-- What a call is answered. -/
abbrev ResolverCall.Answer : ResolverCall → Type
  | now => ℕ
  | lookup _ => Except LookupFailure (List ResolvedAddress)
  | fetch .. => Except Thrown PayloadResponse
  | fetchGateway _ => Except Thrown PayloadResponse
  | cancelBody => Except Thrown Unit
  | read => Except Thrown (Option (List UInt8))
  | cancelReader => Except Thrown Unit
  | closeAgent => Except Thrown Unit

abbrev ResolverM := Program ResolverCall ResolverCall.Answer PayloadError

/-- A call. -/
def send (c : ResolverCall) : ResolverM c.Answer :=
  Program.perform c

/-- The answer of a call that may throw. -/
def awaited {α : Type} : Except Thrown α → ResolverM α
  | .ok a => .done (.ok a)
  | .error error => .done (.error (.other error))

/-- `throw new PayloadUnavailableError(message)` -/
def unavailable {α : Type} (message : JsString) : ResolverM α :=
  .throwing (.unavailable message)

/-- A `catch` that rethrows the resolver's own errors, and says `message` instead of another one. -/
def rethrow {α : Type} (message : JsString) : PayloadError → ResolverM α
  | .other _ => unavailable message
  | error => .throwing error

/-- `try { p } finally { try { await agent.close() } catch {} }` -/
def closingAgent {α : Type} (p : ResolverM α) : ResolverM α :=
  (p >>= fun a => send .closeAgent >>= fun _ => pure a).catchError fun error =>
    send .closeAgent >>= fun _ => .throwing error

/-! ## One hop -/

section Resolver

variable (N : PayloadNetwork)

/-- `assertSafeHttpsPayloadUrl` -/
def isSafeHttpsPayloadUrl (url : Url) : Bool :=
  url.protocol == js "https:" && url.username.isEmpty && url.password.isEmpty

/-- The text of an address in brackets, or the text itself. -/
def literalOf (hostname : JsString) : JsString :=
  if hostname.head? == some 0x5b && hostname.getLast? == some 0x5d then
    (hostname.drop 1).dropLast
  else hostname

/-- `resolvePublicAddress`; the race of the lookup with the deadline is part of its answer. -/
def resolvePublicAddress (hostname : JsString) : ResolverM ResolvedAddress :=
  let literal := literalOf hostname
  if N.isIP literal ≠ 0 then
    if N.isPublicAddress literal then pure ⟨literal, N.isIP literal⟩
    else unavailable (js "Payload hostname resolves to a non-public address")
  else do
    let answer ← send (.lookup hostname)
    match answer with
    | .error .timedOut => unavailable (js "Payload fetch timed out")
    | .error .failed => unavailable (js "Payload hostname lookup failed")
    | .ok [] => unavailable (js "Payload hostname resolves to a non-public address")
    | .ok (address :: addresses) =>
        if (address :: addresses).all fun entry => N.isPublicAddress entry.address then
          pure address
        else unavailable (js "Payload hostname resolves to a non-public address")

/-- `remainingTimeout` -/
def remainingTimeout (deadline : ℕ) : ResolverM Unit := do
  let now ← send .now
  if deadline ≤ now then unavailable (js "Payload fetch timed out") else pure ()

/-- `response.body?.cancel()` -/
def cancelBody (response : PayloadResponse) : ResolverM Unit :=
  if response.hasBody then (send .cancelBody >>= awaited) else pure ()

/-- The loop of `readLimited`. -/
def readChunks : ℕ → List UInt8 → ResolverM (List UInt8)
  | 0, _ => .stopped
  | fuel + 1, chunks => do
      let value ← send .read >>= awaited
      match value with
      | none => pure chunks
      | some value =>
          if maxFetchedBytes < (chunks ++ value).length then do
            let _ ← send .cancelReader
            .throwing (.invalid (js "Payload exceeds the 1 MiB limit"))
          else readChunks fuel (chunks ++ value)

/-- `readLimited` -/
def readLimited (fuel : ℕ) (response : PayloadResponse) : ResolverM (List UInt8) :=
  if response.hasBody then readChunks fuel [] else pure []

/-- The `try` of a hop: the URL of the next one, or the payload. -/
def requestHop (fuel deadline : ℕ) (last : Bool) (url : Url) (address : ResolvedAddress) :
    ResolverM (Url ⊕ List UInt8) := do
  remainingTimeout deadline
  let response ← send (.fetch url address) >>= awaited
  if 300 ≤ response.status ∧ response.status < 400 then do
    cancelBody response
    match response.location, last with
    | some location, false =>
        match N.parseLocation location url with
        | some next => pure (.inl next)
        | none => .throwing (.other (.error (js "Invalid URL")))
    | _, _ => unavailable (js "Payload redirect limit exceeded")
  else if response.ok then do
    let body ← readLimited fuel response
    pure (.inr body)
  else do
    cancelBody response
    unavailable (js "Payload server returned HTTP " ++ natToString response.status)

/-- The loop of `fetchPinned`, for so many hops. -/
def fetchHops (fuel deadline : ℕ) : ℕ → Url → ResolverM (List UInt8)
  | 0, _ => unavailable (js "Payload redirect limit exceeded")
  | hops + 1, url =>
      if isSafeHttpsPayloadUrl url then do
        let address ← resolvePublicAddress N url.hostname
        let outcome ← closingAgent ((requestHop N fuel deadline (hops == 0) url address).catchError
          (rethrow (js "Payload fetch failed")))
        match outcome with
        | .inl next => fetchHops fuel deadline hops next
        | .inr body => pure body
      else unavailable (js "Payload URL must use HTTPS without credentials")

/-- `fetchPinned` -/
def fetchPinned (fuel : ℕ) (initialUrl : Url) : ResolverM (List UInt8) := do
  let now ← send .now
  fetchHops N fuel (now + fetchTimeoutMs) (maxRedirects + 1) initialUrl

/-- `fetchConfiguredGateway` -/
def fetchConfiguredGateway (fuel : ℕ) (url : Url) : ResolverM (List UInt8) :=
  (do
    let response ← send (.fetchGateway url) >>= awaited
    if response.ok then readLimited fuel response
    else do
      cancelBody response
      unavailable (js "IPFS gateway returned HTTP " ++ natToString response.status)).catchError
    (rethrow (js "IPFS gateway fetch failed"))

/-! ## The resolver -/

/-- A `SafePayloadResolver`: its gateway is a URL without credentials. -/
structure SafePayloadResolver where
  ipfsGateway : Url
  isHttp : ipfsGateway.protocol = js "http:" ∨ ipfsGateway.protocol = js "https:"
  username_eq : ipfsGateway.username = []
  password_eq : ipfsGateway.password = []

/-- The constructor of `SafePayloadResolver`. -/
def newSafePayloadResolver (P : Platform) (ipfsGateway : JsString) :
    Except Thrown SafePayloadResolver :=
  match P.parseUrl (if ipfsGateway.getLast? = some 0x2f then ipfsGateway
      else ipfsGateway ++ js "/") with
  | none => .error (.error (js "Invalid URL"))
  | some url =>
      if h : (url.protocol = js "http:" ∨ url.protocol = js "https:") ∧ url.username = []
          ∧ url.password = [] then .ok ⟨url, h.1, h.2.1, h.2.2⟩
      else .error (.error (js "IPFS gateway must be an HTTP(S) URL without credentials"))

/-- `resolve` -/
def SafePayloadResolver.resolve (P : Platform) (resolver : SafePayloadResolver) (fuel : ℕ)
    (uri : JsString) : ResolverM (List UInt8) := do
  let parsed ← awaited (parsePayloadUri P uri)
  match parsed with
  | .https _ fetchUrl _ =>
      match P.parseUrl fetchUrl with
      | some url => fetchPinned N fuel url
      | none => .throwing (.other (.error (js "Invalid URL")))
  | .ipfs _ cid _ =>
      match N.parseLocation (js "ipfs/" ++ cid) resolver.ipfsGateway with
      | some url => fetchConfiguredGateway fuel url
      | none => .throwing (.other (.error (js "Invalid URL")))

end Resolver

/-! ## What a request may be -/

/-- A request over a pinned connection. -/
def ResolverCall.isFetch : ResolverCall → Bool
  | fetch .. => true
  | _ => false

/-- How many requests there were. -/
def requests (h : List (Event ResolverCall.Answer)) : ℕ :=
  h.countP fun event => event.1.isFetch

/-- Every address that the name server has answered is public. -/
def AllPublic (N : PayloadNetwork) (h : List (Event ResolverCall.Answer)) : Prop :=
  ∀ (hostname : JsString) (addresses : List ResolvedAddress),
    ⟨.lookup hostname, .ok addresses⟩ ∈ h → ∀ entry ∈ addresses,
      N.isPublicAddress entry.address = true

/-- An address belongs to a host: it is the host, or the name server has answered it. -/
def BelongsTo (N : PayloadNetwork) (h : List (Event ResolverCall.Answer)) (hostname : JsString)
    (address : ResolvedAddress) : Prop :=
  N.isIP (literalOf hostname) ≠ 0 ∧ address.address = literalOf hostname ∨
    ∃ addresses : List ResolvedAddress, ⟨.lookup hostname, .ok addresses⟩ ∈ h ∧ address ∈ addresses

/-- A request to `url` over a connection that is pinned to `address`, after the calls `h`. -/
structure SafeRequest (N : PayloadNetwork) (h : List (Event ResolverCall.Answer)) (url : Url)
    (address : ResolvedAddress) : Prop where
  protocol : url.protocol = js "https:"
  username : url.username = []
  password : url.password = []
  isPublic : N.isPublicAddress address.address = true
  belongs : BelongsTo N h url.hostname address
  allPublic : AllPublic N h
  few : requests h ≤ maxRedirects

/-- What the resolver may call for an HTTPS payload. -/
def SafeCall (N : PayloadNetwork) (h : List (Event ResolverCall.Answer)) : ResolverCall → Prop
  | .fetch url address => SafeRequest N h url address
  | .fetchGateway _ => False
  | _ => True

theorem isSafeHttpsPayloadUrl_iff {url : Url} : isSafeHttpsPayloadUrl url = true ↔
    url.protocol = js "https:" ∧ url.username = [] ∧ url.password = [] := by
  rw [isSafeHttpsPayloadUrl, Bool.and_eq_true, Bool.and_eq_true, beq_iff_eq, List.isEmpty_iff,
    List.isEmpty_iff, and_assoc]

theorem BelongsTo.append {N : PayloadNetwork} {h : List (Event ResolverCall.Answer)}
    {hostname : JsString} {address : ResolvedAddress} (hbelongs : BelongsTo N h hostname address)
    (events : List (Event ResolverCall.Answer)) :
    BelongsTo N (h ++ events) hostname address := by
  rcases hbelongs with hliteral | ⟨addresses, hmem, haddress⟩
  · exact Or.inl hliteral
  · exact Or.inr ⟨addresses, List.mem_append_left _ hmem, haddress⟩

/-! ## The state of a retrieval -/

/-- So far every answer of the name server is public, and there were at most `n` requests. -/
structure Calm (N : PayloadNetwork) (n : ℕ) (h : List (Event ResolverCall.Answer)) : Prop where
  allPublic : AllPublic N h
  requests_le : requests h ≤ n

section Calm

variable {N : PayloadNetwork} {n : ℕ} {h : List (Event ResolverCall.Answer)}

theorem calm_nil : Calm N 0 [] :=
  ⟨fun _ _ hmem => absurd hmem List.not_mem_nil, le_rfl⟩

theorem requests_append (event : Event ResolverCall.Answer) :
    requests (h ++ [event]) = requests h + (if event.1.isFetch then 1 else 0) := by
  rw [requests, List.countP_append, List.countP_singleton]
  rfl

/-- An answer that is no list of addresses, or a list of public ones. -/
theorem AllPublic.append {event : Event ResolverCall.Answer} (hall : AllPublic N h)
    (hevent : ∀ (hostname : JsString) (addresses : List ResolvedAddress),
      event = ⟨.lookup hostname, .ok addresses⟩ → ∀ entry ∈ addresses,
        N.isPublicAddress entry.address = true) : AllPublic N (h ++ [event]) := by
  intro hostname addresses hmem
  rcases List.mem_append.mp hmem with hmem | hmem
  · exact hall hostname addresses hmem
  · exact hevent hostname addresses (List.mem_singleton.mp hmem).symm

theorem Calm.append {event : Event ResolverCall.Answer} (hcalm : Calm N n h)
    (hfetch : event.1.isFetch = false)
    (hevent : ∀ (hostname : JsString) (addresses : List ResolvedAddress),
      event = ⟨.lookup hostname, .ok addresses⟩ → ∀ entry ∈ addresses,
        N.isPublicAddress entry.address = true) : Calm N n (h ++ [event]) where
  allPublic := hcalm.allPublic.append hevent
  requests_le := by
    rw [requests_append, hfetch]
    exact hcalm.requests_le

theorem Calm.append_fetch {url : Url} {address : ResolvedAddress}
    {answer : Except Thrown PayloadResponse} (hcalm : Calm N n h) :
    Calm N (n + 1) (h ++ [⟨.fetch url address, answer⟩]) where
  allPublic := hcalm.allPublic.append fun _ _ heq => (nomatch heq)
  requests_le := by
    rw [requests_append]
    exact Nat.succ_le_succ hcalm.requests_le

end Calm

/-! ## Rules -/

/-- What is returned is as `R` says, and what is thrown as `E` says. -/
def Outcome {α : Type} (E : PayloadError → Prop)
    (R : List (Event ResolverCall.Answer) → α → Prop) (h : List (Event ResolverCall.Answer)) :
    Except PayloadError α → Prop
  | .ok a => R h a
  | .error e => E e

/-- After `h` the program `p` makes only calls that it may make, it returns what `R` says, and it
throws what `E` says. -/
def Yields (N : PayloadNetwork) {α : Type} (E : PayloadError → Prop)
    (R : List (Event ResolverCall.Answer) → α → Prop) (h : List (Event ResolverCall.Answer))
    (p : ResolverM α) : Prop :=
  Ensures (SafeCall N) (Outcome E R) h p

section Rules

variable {N : PayloadNetwork} {α β : Type} {E : PayloadError → Prop}
  {R : List (Event ResolverCall.Answer) → α → Prop} {h : List (Event ResolverCall.Answer)}

theorem Yields.pure {a : α} (ha : R h a) : Yields N E R h (pure a) :=
  ha

theorem Yields.throwing {e : PayloadError} (he : E e) : Yields N E R h (.throwing e) :=
  he

theorem Yields.unavailable {message : JsString} (hE : ∀ e : PayloadError, e.IsOwn → E e) :
    Yields N E R h (unavailable message) :=
  hE _ trivial

theorem Yields.bind {S : List (Event ResolverCall.Answer) → β → Prop} {p : ResolverM β}
    {f : β → ResolverM α} (hp : Yields N E S h p) (hf : ∀ h' b, S h' b → Yields N E R h' (f b)) :
    Yields N E R h (p >>= f) :=
  Ensures.bind (P := Outcome E S) hf (fun _ _ he => he) hp

theorem Yields.send {c : ResolverCall} {R : List (Event ResolverCall.Answer) → c.Answer → Prop}
    (hcall : SafeCall N h c) (hanswer : ∀ r, R (h ++ [⟨c, r⟩]) r) : Yields N E R h (send c) :=
  ⟨hcall, hanswer⟩

theorem Yields.awaited {answer : Except Thrown α} (hok : ∀ a, answer = .ok a → R h a)
    (herror : ∀ e, E (.other e)) : Yields N E R h (awaited answer) := by
  cases answer with
  | ok a => exact hok a rfl
  | error e => exact herror e

theorem Yields.catchError {E' : PayloadError → Prop} {p : ResolverM α}
    {handler : PayloadError → ResolverM α} (hp : Yields N E' R h p)
    (hhandler : ∀ h' e, E' e → Yields N E R h' (handler e)) :
    Yields N E R h (p.catchError handler) :=
  Ensures.catchError (P := Outcome E' R) (Q := Outcome E R) (fun _ _ ha => ha) hhandler hp

/-- A handler that rethrows leaves only the errors of the resolver. -/
theorem Yields.rethrowing {p : ResolverM α} {message : JsString}
    (hp : Yields N (fun _ => True) R h p) :
    Yields N PayloadError.IsOwn R h (p.catchError (rethrow message)) := by
  refine hp.catchError fun h' e _ => ?_
  cases e with
  | unavailable message => exact Yields.throwing trivial
  | invalid message => exact Yields.throwing trivial
  | other error => exact Yields.unavailable fun _ he => he

end Rules

/-! ## One retrieval -/

section Retrieval

variable {N : PayloadNetwork} {n : ℕ} {h : List (Event ResolverCall.Answer)}

/-- A call that is neither a request nor a lookup leaves a retrieval as it is. -/
theorem Calm.sends {c : ResolverCall} (hcalm : Calm N n h) {E : PayloadError → Prop}
    (hfetch : c.isFetch = false) (hlookup : ∀ hostname, c ≠ .lookup hostname)
    (hgateway : ∀ url, c ≠ .fetchGateway url) :
    Yields N E (fun h' _ => Calm N n h' ∧ ∃ r, h' = h ++ [⟨c, r⟩]) h (send c) := by
  refine Yields.send ?_ fun r => ⟨hcalm.append hfetch fun hostname _ heq => ?_, r, rfl⟩
  · cases c with
    | fetch url address => cases hfetch
    | fetchGateway url => exact absurd rfl (hgateway url)
    | _ => trivial
  · exact absurd (congrArg Sigma.fst heq) (hlookup hostname)

/-- **An address that is found is public**, and it belongs to the host. -/
theorem resolvePublicAddress_yields (hcalm : Calm N n h) (hostname : JsString) :
    Yields N PayloadError.IsOwn (fun h' address => Calm N n h' ∧
      N.isPublicAddress address.address = true ∧ BelongsTo N h' hostname address) h
      (resolvePublicAddress N hostname) := by
  rw [resolvePublicAddress]
  split_ifs with hliteral hpublic
  · exact Yields.pure ⟨hcalm, hpublic, Or.inl ⟨hliteral, rfl⟩⟩
  · exact Yields.unavailable fun _ he => he
  refine Yields.bind (S := fun h' answer => h' = h ++ [⟨.lookup hostname, answer⟩])
    (Yields.send trivial fun _ => rfl) ?_
  rintro _ answer rfl
  match answer with
  | .error .timedOut => exact Yields.unavailable fun _ he => he
  | .error .failed => exact Yields.unavailable fun _ he => he
  | .ok [] => exact Yields.unavailable fun _ he => he
  | .ok (address :: addresses) =>
      dsimp only
      split_ifs with hall
      · rw [List.all_eq_true] at hall
        refine Yields.pure ⟨hcalm.append rfl fun hostname' addresses' heq => ?_,
          hall address List.mem_cons_self,
          Or.inr ⟨address :: addresses, List.mem_append_right _ (List.mem_singleton_self _),
            List.mem_cons_self⟩⟩
        cases heq
        exact hall
      · exact Yields.unavailable fun _ he => he

theorem remainingTimeout_yields (hcalm : Calm N n h) (deadline : ℕ) {E : PayloadError → Prop}
    (hE : ∀ e : PayloadError, e.IsOwn → E e) :
    Yields N E (fun h' _ => Calm N n h' ∧ ∃ now, h' = h ++ [⟨.now, now⟩]) h
      (remainingTimeout deadline) := by
  refine Yields.bind (hcalm.sends rfl (nofun) (nofun)) fun h' now h₁ => ?_
  split_ifs
  · exact Yields.unavailable hE
  · exact Yields.pure h₁

theorem cancelBody_yields (hcalm : Calm N n h) (response : PayloadResponse) :
    Yields N (fun _ => True) (fun h' _ => Calm N n h') h (cancelBody response) := by
  rw [cancelBody]
  split_ifs
  · refine Yields.bind (hcalm.sends rfl (nofun) (nofun)) fun h' answer h₁ => ?_
    exact Yields.awaited (fun _ _ => h₁.1) fun _ => trivial
  · exact Yields.pure hcalm

/-- The bytes that are kept never exceed the limit, by induction on the reads. -/
theorem readChunks_yields {fuel : ℕ} {chunks : List UInt8} {h : List (Event ResolverCall.Answer)}
    (hcalm : Calm N n h) (hle : chunks.length ≤ maxFetchedBytes) :
    Yields N (fun _ => True) (fun h' body => Calm N n h' ∧ body.length ≤ maxFetchedBytes) h
      (readChunks fuel chunks) := by
  induction fuel generalizing chunks h with
  | zero => trivial
  | succ fuel ih =>
      refine Yields.bind (S := fun h' _ => Calm N n h')
        (Yields.bind (hcalm.sends rfl (nofun) (nofun)) fun h' answer h₁ =>
          Yields.awaited (fun _ _ => h₁.1) fun _ => trivial) fun h₁ value hcalm₁ => ?_
      cases value with
      | none => exact Yields.pure ⟨hcalm₁, hle⟩
      | some value =>
          dsimp only
          split_ifs with hlarge
          · exact Yields.bind (hcalm₁.sends rfl (nofun) (nofun)) fun _ _ _ =>
              Yields.throwing trivial
          · exact ih hcalm₁ (Nat.le_of_not_lt hlarge)

theorem readLimited_yields (hcalm : Calm N n h) (fuel : ℕ) (response : PayloadResponse) :
    Yields N (fun _ => True) (fun h' body => Calm N n h' ∧ body.length ≤ maxFetchedBytes) h
      (readLimited fuel response) := by
  rw [readLimited]
  split_ifs
  · exact readChunks_yields hcalm (Nat.zero_le _)
  · exact Yields.pure ⟨hcalm, Nat.zero_le _⟩

/-- **One hop.**  One request is made, and it is a safe one. -/
theorem requestHop_yields (hcalm : Calm N n h) (hn : n ≤ maxRedirects) {url : Url}
    {address : ResolvedAddress} (hurl : isSafeHttpsPayloadUrl url = true)
    (hpublic : N.isPublicAddress address.address = true)
    (hbelongs : BelongsTo N h url.hostname address) (fuel deadline : ℕ) (last : Bool) :
    Yields N (fun _ => True) (fun h' outcome => Calm N (n + 1) h' ∧
      ∀ body, outcome = .inr body → body.length ≤ maxFetchedBytes) h
      (requestHop N fuel deadline last url address) := by
  obtain ⟨hprotocol, husername, hpassword⟩ := isSafeHttpsPayloadUrl_iff.mp hurl
  refine Yields.bind (remainingTimeout_yields hcalm deadline fun _ _ => trivial) ?_
  rintro _ _ ⟨hcalm₁, now, rfl⟩
  refine Yields.bind (S := fun h' _ => Calm N (n + 1) h') (Yields.bind (S := fun h' _ =>
    Calm N (n + 1) h') (Yields.send ?_ fun _ => hcalm₁.append_fetch) fun h' answer hcalm₂ =>
      Yields.awaited (fun _ _ => hcalm₂) fun _ => trivial) fun h₂ response hcalm₂ => ?_
  · exact ⟨hprotocol, husername, hpassword, hpublic, hbelongs.append _, hcalm₁.allPublic,
      hcalm₁.requests_le.trans hn⟩
  split_ifs with hredirect hok
  · refine Yields.bind (cancelBody_yields hcalm₂ response) fun h₃ _ hcalm₃ => ?_
    split
    · split
      · exact Yields.pure ⟨hcalm₃, nofun⟩
      · exact Yields.throwing trivial
    · exact Yields.unavailable fun _ _ => trivial
  · refine Yields.bind (readLimited_yields hcalm₂ fuel response) fun h₃ body hbody => ?_
    refine Yields.pure ⟨hbody.1, ?_⟩
    rintro _ ⟨⟩
    exact hbody.2
  · exact Yields.bind (cancelBody_yields hcalm₂ response) fun _ _ _ =>
      Yields.unavailable fun _ _ => trivial

/-- Closing the agent changes neither what is returned nor what is thrown. -/
theorem closingAgent_yields {α : Type} {p : ResolverM α} {Q : α → Prop}
    (hp : Yields N PayloadError.IsOwn (fun h' a => Calm N n h' ∧ Q a) h p) :
    Yields N PayloadError.IsOwn (fun h' a => Calm N n h' ∧ Q a) h (closingAgent p) := by
  refine Yields.catchError (Yields.bind hp fun h' a ha => ?_) fun h' e he => ?_
  · exact Yields.bind (ha.1.sends rfl (nofun) (nofun)) fun _ _ h₁ => Yields.pure ⟨h₁.1, ha.2⟩
  · exact Yields.bind (S := fun _ _ => True) (Yields.send trivial fun _ => trivial) fun _ _ _ =>
      Yields.throwing he

/-- **The hops of a retrieval**, by induction on how many are left. -/
theorem fetchHops_yields (fuel deadline : ℕ) {hops : ℕ} {url : Url} {n : ℕ}
    {h : List (Event ResolverCall.Answer)} (hcalm : Calm N n h)
    (hhops : n + hops ≤ maxRedirects + 1) :
    Yields N PayloadError.IsOwn (fun _ body => body.length ≤ maxFetchedBytes) h
      (fetchHops N fuel deadline hops url) := by
  induction hops generalizing url n h with
  | zero => exact Yields.unavailable fun _ he => he
  | succ hops ih =>
      rw [fetchHops]
      split_ifs with hurl
      · refine Yields.bind (resolvePublicAddress_yields hcalm url.hostname) ?_
        rintro h₁ address ⟨hcalm₁, hpublic, hbelongs⟩
        refine Yields.bind (closingAgent_yields (Yields.rethrowing
          (requestHop_yields hcalm₁ (by omega) hurl hpublic hbelongs fuel deadline _))) ?_
        rintro h₂ (next | body) ⟨hcalm₂, hbody⟩
        · exact ih hcalm₂ (by omega)
        · exact Yields.pure (hbody body rfl)
      · exact Yields.unavailable fun _ he => he

theorem fetchPinned_yields (fuel : ℕ) (url : Url) :
    Yields N PayloadError.IsOwn (fun _ body => body.length ≤ maxFetchedBytes) []
      (fetchPinned N fuel url) := by
  refine Yields.bind (calm_nil.sends rfl (nofun) (nofun)) fun h' now h₁ => ?_
  exact fetchHops_yields fuel _ h₁.1 (Nat.zero_add _).le

end Retrieval

/-! ## The URL of a payload -/

/-- What a parser of URLs does with a text: it does not fail because of a fragment, and a URL
without a path has the path `/`. -/
structure ParsesFetchUrls (P : Platform) : Prop where
  fragment : ∀ text fragment : JsString, 0x23 ∉ text →
    (P.parseUrl (text ++ 0x23 :: fragment)).isSome = true → (P.parseUrl text).isSome = true
  root : ∀ authority query : JsString, 0x2f ∉ authority → 0x3f ∉ authority →
    query = [] ∨ query.head? = some 0x3f →
    (P.parseUrl (httpsPrefix ++ authority ++ query)).isSome = true →
    (P.parseUrl (httpsPrefix ++ authority ++ js "/" ++ query)).isSome = true

/-- The URL that is fetched is the URI without its fragment, with the path `/` where it has none. -/
theorem isSome_parseUrl_of_buildFetchUrl {P : Platform} (hP : ParsesFetchUrls P)
    {rest fetchUrl : JsString} (hfetch : buildFetchUrl (httpsPrefix ++ rest) = some fetchUrl)
    (hparse : (P.parseUrl (httpsPrefix ++ rest)).isSome = true) :
    (P.parseUrl fetchUrl).isSome = true := by
  simp only [buildFetchUrl, Option.bind_eq_bind, Option.bind_eq_some_iff, Option.pure_def,
    Option.some.injEq] at hfetch
  obtain ⟨_, hfragment, _, -, _, -, _, -, rfl⟩ := hfetch
  have hcontains : 0x23 ∈ httpsPrefix ++ rest := by simpa using hfragment
  -- The text up to the fragment parses.
  generalize hwithout : (spanUntil (· == 0x23) (httpsPrefix ++ rest)).1 = withoutFragment
  have hnot : 0x23 ∉ withoutFragment := hwithout ▸ not_mem_spanUntil (by decide)
  have hsome : (P.parseUrl withoutFragment).isSome = true := by
    have happend := spanUntil_append (· == 0x23) (httpsPrefix ++ rest)
    rw [hwithout] at happend
    rcases spanUntil_snd (· == 0x23) (httpsPrefix ++ rest) with hnil | ⟨u, fragment, hsnd, hu⟩
    · rw [hnil, List.append_nil] at happend
      exact absurd (happend ▸ hcontains) hnot
    · rw [hsnd, beq_iff_eq.mp hu] at happend
      exact hP.fragment withoutFragment fragment hnot (happend.symm ▸ hparse)
  have hbegins : withoutFragment = httpsPrefix ++ withoutFragment.drop httpsPrefix.length := by
    rw [← hwithout, spanUntil, List.span_eq_takeWhile_dropWhile,
      List.takeWhile_append_of_pos (List.all_eq_true.mp (by decide)), List.drop_left]
  generalize hafter : withoutFragment.drop httpsPrefix.length = after at hbegins ⊢
  rw [hbegins] at hsome
  -- The authority ends before a path or a query.
  have hauthority := spanUntil_append (fun u => u == 0x2f || u == 0x3f) after
  generalize hresource : (spanUntil (fun u => u == 0x2f || u == 0x3f) after).2 = resource
    at hauthority ⊢
  have hpath := spanUntil_append (· == 0x3f) resource
  split_ifs with hempty
  · rw [List.isEmpty_iff] at hempty
    rw [hempty, List.nil_append] at hpath
    refine hP.root _ _ (not_mem_spanUntil (by decide)) (not_mem_spanUntil (by decide)) ?_ ?_
    · rcases spanUntil_snd (· == 0x3f) resource with hnil | ⟨u, query, hsnd, hu⟩
      · exact Or.inl hnil
      · rw [hsnd, beq_iff_eq.mp hu]
        exact Or.inr rfl
    · rw [hpath, List.append_assoc, hauthority]
      exact hsome
  · rw [List.append_assoc, List.append_assoc, hpath, hauthority]
    exact hsome

theorem exists_normalizeHttpsAuthority {P : Platform} {uri normalizedUri : JsString}
    (h : normalizeHttpsAuthority P uri = some normalizedUri) :
    ∃ rest, normalizedUri = httpsPrefix ++ rest := by
  unfold normalizeHttpsAuthority at h
  dsimp only at h
  split_ifs at h
  · simp only [normalizeBracketAuthority, Option.bind_eq_bind, Option.bind_eq_some_iff,
      Option.pure_def, Option.some.injEq] at h
    obtain ⟨_, -, port, -, url, -, _, -, rfl⟩ := h
    exact ⟨_, by rw [List.append_assoc, List.append_assoc]⟩
  · simp only [normalizeNamedAuthority, Option.bind_eq_bind, Option.bind_eq_some_iff,
      Option.pure_def, Option.some.injEq] at h
    obtain ⟨_, -, port, -, host, -, asciiHost, -, _, -, url, -, rfl⟩ := h
    exact ⟨_, List.append_assoc ..⟩

/-- **The URL of an accepted HTTPS URI parses**, so `new URL` does not throw. -/
theorem isSome_parseUrl_of_parsePayloadUri {P : Platform} (hP : ParsesFetchUrls P)
    {text uri fetchUrl digestHex : JsString}
    (h : parsePayloadUri P text = .ok (.https uri fetchUrl digestHex)) :
    (P.parseUrl fetchUrl).isSome = true := by
  simp only [parsePayloadUri, bind_eq_ok] at h
  obtain ⟨length, -, h⟩ := h
  split_ifs at h
  · cases h
  obtain ⟨ipfs, hipfs, h⟩ := bind_eq_ok.mp h
  cases ipfs with
  | some ipfs =>
      obtain rfl := Except.ok.inj h
      exfalso
      unfold parseIpfsUri at hipfs
      split at hipfs
      · cases hipfs
      · split at hipfs
        · cases hipfs
        · split_ifs at hipfs
          · cases hipfs
          · cases hipfs
  | none =>
      unfold parseHttpsUri at h
      dsimp only at h
      split_ifs at h
      · cases h
      · cases h
      · split at h
        · cases h
        · rename_i normalizedUri hnormalized
          obtain ⟨rest, rfl⟩ := exists_normalizeHttpsAuthority hnormalized
          split at h
          · cases h
          · rename_i parsed found hparsed hfound
            split_ifs at h
            · cases h
              exact isSome_parseUrl_of_buildFetchUrl hP hfound (by rw [hparsed]; rfl)
            · cases h
          · cases h

/-! ## Every run -/

/-- Where each request comes after at most two others, there are at most three. -/
theorem requests_le_of_few {tr : List (Event ResolverCall.Answer)}
    (h : ∀ before event after, tr = before ++ event :: after → event.1.isFetch = true →
      requests before ≤ maxRedirects) : requests tr ≤ maxRedirects + 1 := by
  induction tr using List.reverseRecOn with
  | nil => exact Nat.zero_le _
  | append_singleton tr event ih =>
      rw [requests_append]
      cases hfetch : event.1.isFetch with
      | true => exact Nat.succ_le_succ (h tr event [] rfl hfetch)
      | false =>
          refine ih fun before event' after heq => h before event' (after ++ [event]) ?_
          rw [heq, List.append_assoc, List.cons_append]

/-- A platform that reads HTTPS URLs. -/
def httpsPlatform : Platform :=
  { Platform.sample with
    parseUrl := readHttpsUrl
    domainToAscii := some }

theorem parsesFetchUrls_httpsPlatform : ParsesFetchUrls httpsPlatform := by
  constructor
  · intro text fragment _ h
    have hall := isSome_readHttpsUrl.mp h
    rw [List.all_append, Bool.and_eq_true] at hall
    exact isSome_readHttpsUrl.mpr hall.1
  · intro authority query _ _ _ h
    have hall := isSome_readHttpsUrl.mp h
    rw [List.all_append, Bool.and_eq_true] at hall
    refine isSome_readHttpsUrl.mpr ?_
    rw [List.all_append, List.all_append, hall.1, hall.2]
    rfl

def redirectingNetwork : PayloadNetwork where
  isIP := fun _ => 0
  isPublicAddress := fun address => address == js "8.8.8.8"
  parseLocation := fun location _ => readHttpsUrl location

/-- The URI of a credential with the digest of nothing. -/
def redirectedUri : JsString :=
  js "https://issuer.example/credential.json#xcs-sha256=" ++ List.replicate 64 0x30

def gatewayResolver : SafePayloadResolver where
  ipfsGateway := ⟨js "https:", [], [], js "gateway.example", js "gateway.example", []⟩
  isHttp := Or.inr rfl
  username_eq := rfl
  password_eq := rfl

/-- Every server redirects to another host, with a public address. -/
def redirectingAnswer : (c : ResolverCall) → c.Answer
  | .now => (0 : ℕ)
  | .lookup _ => .ok [⟨js "8.8.8.8", 4⟩]
  | .fetch _ _ => .ok ⟨302, some (js "https://cdn.example/credential.json"), false⟩
  | .fetchGateway _ => .ok ⟨404, none, false⟩
  | .cancelBody => .ok ()
  | .read => .ok none
  | .cancelReader => .ok ()
  | .closeAgent => .ok ()

end Web
end Xcs
