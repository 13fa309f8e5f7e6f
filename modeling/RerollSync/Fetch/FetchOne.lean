import RerollSync.Client.RetryAfter
import RerollSync.Store.Schema
import RerollSync.Support.Exceptions
import Mathlib.Data.List.Infix

/-!
# Fetching one sidecar

`fetch_one` of `fetch.py`, with `_bridge_lookup` and the client's `fetch_metadata`.  What
is outside answers as it likes: the environment, the bridge database, the limiter, `httpx`
and the server.  Each of them has exceptions of its own, and the clauses of the code name
some of these.
-/

namespace RerollSync.Fetch

open RerollSync.Support RerollSync.Store RerollSync.Client

/-! ## Exceptions -/

/-- `PyPIError`, with the text of those that have one. -/
inductive PyPIError
  | transient (message : String)
  | rateLimited (retryAfter : Option PyFloat)
  | notFound (message : String)
  | protocol (message : String)
  | hashMismatch (expected actual : String)

/-- The exceptions of `httpx`; `HTTPError` has a text. -/
inductive HttpxError
  | httpError (message : String)
  | invalidUrl
  | cookieConflict
  | streamError

/-- What `fetch_one` and the functions below it raise: besides the errors of the client and
of `httpx`, those of `expanduser`, of `exists`, of a query, of `zlib`, of a value that is
no bytes, of the limiter, of `idna`, of the codec of a response and of a date. -/
inductive Raised
  | pypi (e : PyPIError)
  | httpx (e : HttpxError)
  | runtimeError
  | osError
  | sqliteError
  | zlibError
  | typeError
  | keyError
  | idnaError
  | codecError
  | date (e : DateError)

/-- The subclasses of `PyPIError`. -/
def Raised.IsPyPIError : Raised → Prop
  | .pypi _ => True
  | _ => False

/-- The subclasses of `HTTPError`. -/
def HttpxError.IsHTTPError : HttpxError → Prop
  | .httpError _ => True
  | _ => False

/-- `except httpx.HTTPError`. -/
def Raised.asTransient : Raised → Raised
  | .httpx (.httpError message) => .pypi (.transient message)
  | e => e

/-! ## Outside -/

/-- The value of a column: bytes, or something else. -/
inductive Column
  | blob (data : Bytes)
  | other

/-- What the query of the bridge gives: an error of `execute` or `fetchone`, no row, or the
column of a row. -/
inductive Selected
  | raises
  | missing
  | row (zBody : Column)

/-- The bridge: the variable is not set; its home directory is unknown; `exists` raises; no
such file; `connect` raises an `OperationalError`; or an answer to each query. -/
inductive Bridge
  | unset
  | homeless
  | unreadable
  | absent
  | refused
  | opened (select : String → Selected)

/-- A response: its head, the chunks of its body with the exception that ends them, if one
does, the text of a body, if the codec that its head names decodes it, and the exception
of its closing. -/
structure Response where
  status : ℕ
  url : String
  retryAfter : Option (List Char) := none
  chunks : List Bytes := []
  failure : Option HttpxError := none
  text : Bytes → Option (List Char) := fun _ => some []
  closing : Option HttpxError := none

/-- A status for which `_check_status` returns. -/
def Response.Passes (r : Response) : Prop := r.status = 304 ∨ 200 ≤ r.status ∧ r.status < 300

instance (r : Response) : Decidable r.Passes := inferInstanceAs (Decidable (_ ∨ _))

/-- `f"{status} for {response.url}"`. -/
def Response.describe (r : Response) : String := toString r.status ++ " for " ++ r.url

/-- What `stream` gives. -/
inductive Exchange
  | failed (e : HttpxError)
  | answered (r : Response)

/-- How `httpx.URL(url).host` fails. -/
inductive UrlError
  | invalidUrl (message : String)
  | idnaError

/-- What `fetch_one` meets: `hexdigest` of `sha256`, `zlib.decompress`, `repr`, the bridge,
the hosts of URLs, the limiter (`none` is the `KeyError` for a host it does not know), the
exchanges, the tables of Unicode and the clock. -/
structure World where
  hexdigest : Bytes → String
  decompress : Bytes → Option Bytes
  repr : String → String
  bridge : Bridge
  urlHost : String → Except UrlError String
  acquire : String → Option Bool
  stream : String → Exchange
  unicode : UnicodeData
  now : ℚ

/-! ## The bridge -/

namespace World

variable (w : World)

/-- `_bridge_lookup`. -/
def bridgeLookup (metadataSha256 : Option String) : Except Raised (Option Bytes) :=
  match w.bridge, metadataSha256 with
  | .homeless, _ => .error .runtimeError
  | _, none => .ok none
  | .unset, some _ => .ok none
  | .unreadable, some _ => .error .osError
  | .absent, some _ => .ok none
  | .refused, some _ => .ok none
  | .opened select, some sha256 =>
      match select sha256 with
      | .raises => .error .sqliteError
      | .missing => .ok none
      | .row .other => .error .typeError
      | .row (.blob zBody) =>
          match w.decompress zBody with
          | none => .error .zlibError
          | some data => .ok (if w.hexdigest data ≠ sha256 then none else some data)

/-! ## The client -/

/-- `_host_of`. -/
def hostOf (url : String) : Except Raised String :=
  match w.urlHost url with
  | .ok host => .ok host
  | .error (.invalidUrl message) =>
      .error (.pypi (.protocol ("invalid URL " ++ w.repr url ++ ": " ++ message)))
  | .error .idnaError => .error .idnaError

/-- What the body of a throttled request says. -/
def rateLimitText : List Char := "rate limit".toList

/-- `_is_rate_limited_body`. -/
def isRateLimitedBody (r : Response) : Except Raised Bool :=
  match r.failure with
  | some e => .error (.httpx e)
  | none =>
      match r.text r.chunks.flatten with
      | none => .error .codecError
      | some text => .ok (rateLimitText <:+: lowerChars w.unicode text)

/-- The status of a throttled request. -/
def isThrottled (r : Response) : Except Raised Bool :=
  if r.status = 429 then .ok true
  else if r.status = 403 then w.isRateLimitedBody r
  else .ok false

/-- The exception of `_check_status` for a throttled request. -/
def rateLimited (r : Response) : Raised :=
  match parseRetryAfter w.unicode r.retryAfter w.now with
  | .ok retryAfter => .pypi (.rateLimited retryAfter)
  | .error e => .date e

/-- `_check_status`. -/
def checkStatus (r : Response) : Except Raised Unit :=
  if r.Passes then .ok ()
  else if r.status = 404 ∨ r.status = 410 then .error (.pypi (.notFound r.describe))
  else do
    if ← w.isThrottled r then .error (w.rateLimited r)
    else if 500 ≤ r.status ∧ r.status < 600 then .error (.pypi (.transient r.describe))
    else .error (.pypi (.protocol ("unexpected status " ++ r.describe)))

/-- `_MAX_METADATA_BYTES`. -/
def maxMetadataBytes : ℕ := 32 * 1024 * 1024

/-- The exception for a body beyond the cap. -/
def oversized (url : String) : Raised :=
  .pypi (.protocol ("metadata response from " ++ url ++ " exceeded " ++
    toString maxMetadataBytes ++ " bytes"))

/-- The loop over the chunks of a response. -/
def download (url : String) (failure : Option HttpxError) (content : Bytes) :
    List Bytes → Except Raised Bytes
  | [] =>
      match failure with
      | some e => .error (.httpx e)
      | none => .ok content
  | chunk :: chunks =>
      if maxMetadataBytes < (content ++ chunk).length then .error (oversized url)
      else download url failure (content ++ chunk) chunks

/-- The body of the `with` statement of `fetch_metadata`, and its end. -/
def readResponse (url : String) (r : Response) : Except Raised Bytes :=
  match r.closing with
  | some e => .error (.httpx e)
  | none => do
      w.checkStatus r
      download url r.failure [] r.chunks

/-- The request of `fetch_metadata`, inside of its `try`. -/
def exchange (url : String) : Except Raised Bytes :=
  match w.stream url with
  | .failed e => .error (.httpx e)
  | .answered r => w.readResponse url r

/-- The request of `fetch_metadata`. -/
def request (url : String) : Except Raised Bytes := (w.exchange url).mapError Raised.asTransient

/-- The end of `fetch_metadata`. -/
def verify (expectedSha256 : Option String) (data : Bytes) : Except Raised Bytes :=
  match expectedSha256 with
  | none => .ok data
  | some expected =>
      if w.hexdigest data ≠ expected then
        .error (.pypi (.hashMismatch expected (w.hexdigest data)))
      else .ok data

/-- `fetch_metadata`. -/
def fetchMetadata (url : String) (expectedSha256 : Option String) : Except Raised Bytes := do
  let host ← w.hostOf url
  match w.acquire host with
  | none => .error .keyError
  | some false => .error (.pypi (.rateLimited none))
  | some true =>
      let data ← w.request url
      w.verify expectedSha256 data

end World

/-! ## The function -/

/-- `FetchItem`, less what `fetch_one` does not read. -/
structure FetchItem where
  id : ℕ
  filename : String
  url : String
  metadataSha256 : Option String
  hasMetadata : Bool := true

/-- Neither a hash nor the flag of a sidecar. -/
def FetchItem.NoMetadata (wheel : FetchItem) : Prop :=
  wheel.metadataSha256 = none ∧ wheel.hasMetadata = false

instance (wheel : FetchItem) : Decidable wheel.NoMetadata := inferInstanceAs (Decidable (_ ∧ _))

/-- The URL of a wheel's sidecar. -/
def FetchItem.sidecarUrl (wheel : FetchItem) : String := wheel.url ++ ".metadata"

/-- `FetchOutcome`. -/
inductive FetchOutcome
  | ok (data : Bytes) (sha256 : String)
  | skip (reason subcategory details : String) (permanent : Bool) (rerollVersion : Option String)
  | retry (reason details : String)
  | rateLimited (outcome : FetchRateLimited)

namespace World

variable (w : World)

/-- The outcome of a download. -/
def fetchOk (data : Bytes) : FetchOutcome := .ok data (w.hexdigest data)

/-- The `except` clauses of `fetch_one`. -/
def classify (url : String) : Raised → Except Raised FetchOutcome
  | .pypi (.notFound message) =>
      .ok (.skip "metadata_missing" "PyPINotFound" message true none)
  | .pypi (.hashMismatch expected actual) =>
      .ok (.skip "metadata_hash_mismatch" "MetadataHashMismatch"
        ("expected sha256=" ++ expected ++ ", actual sha256=" ++ actual) false "reroll-sync")
  | .pypi (.transient message) => .ok (.retry "pypi_transient_error" message)
  | .pypi (.protocol message) => .ok (.retry "pypi_transient_error" message)
  | .pypi (.rateLimited retryAfter) => do
      let child ← w.hostOf url
      .ok (.rateLimited ⟨child, retryAfter⟩)
  | e => .error e

/-- The `try` statement of `fetch_one` and its end. -/
def settle (url : String) : Except Raised Bytes → Except Raised FetchOutcome
  | .ok data => .ok (w.fetchOk data)
  | .error e => w.classify url e

/-- `fetch_one` past its first check. -/
def fetchClaimed (wheel : FetchItem) : Except Raised FetchOutcome := do
  match ← w.bridgeLookup wheel.metadataSha256 with
  | some bridged => .ok (w.fetchOk bridged)
  | none =>
      w.settle wheel.sidecarUrl (w.fetchMetadata wheel.sidecarUrl wheel.metadataSha256)

/-- `fetch_one`. -/
def fetchOne (wheel : FetchItem) : Except Raised FetchOutcome :=
  if wheel.NoMetadata then
    .ok (.retry "missing_metadata_hash_and_flag" ("wheel " ++ w.repr wheel.filename ++ " (id=" ++
      toString wheel.id ++ ") should have been NO_METADATA"))
  else w.fetchClaimed wheel

end World

end RerollSync.Fetch
