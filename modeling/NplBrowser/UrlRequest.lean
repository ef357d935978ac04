import NplBrowser.Bytes
import NplBrowser.Lib.Run
import NplBrowser.Lib.Utf8
import Mathlib.Logic.Function.Basic

/-!
# The URL request handler

`urlrequest_test::Handler` answers a `URLRequestTest` query with what a `CefURLRequest` downloads.
There is one pending query and one pending request at most; the request's client calls the handler
through an unretained pointer, and a request that is cancelled may still report its completion, so
the handler rests on detaching the client before it lets go of a request.

Queries are numbered as they are accepted, and a request and its client go by the number of the
query they were made for.
-/

namespace NplBrowser

namespace UrlRequest

/-! ### Replies -/

def errNone : Int := 0

def errAborted : Int := -3

/-- The codes `test_runner::GetErrorString` knows, with the names it returns. -/
def errorNames : List (Int × String) :=
  [(0, "ERR_NONE"), (-2, "ERR_FAILED"), (-3, "ERR_ABORTED"), (-4, "ERR_INVALID_ARGUMENT"),
    (-5, "ERR_INVALID_HANDLE"), (-6, "ERR_FILE_NOT_FOUND"), (-7, "ERR_TIMED_OUT"),
    (-8, "ERR_FILE_TOO_BIG"), (-9, "ERR_UNEXPECTED"), (-10, "ERR_ACCESS_DENIED"),
    (-11, "ERR_NOT_IMPLEMENTED"), (-100, "ERR_CONNECTION_CLOSED"), (-101, "ERR_CONNECTION_RESET"),
    (-102, "ERR_CONNECTION_REFUSED"), (-103, "ERR_CONNECTION_ABORTED"),
    (-104, "ERR_CONNECTION_FAILED"), (-105, "ERR_NAME_NOT_RESOLVED"),
    (-106, "ERR_INTERNET_DISCONNECTED"), (-107, "ERR_SSL_PROTOCOL_ERROR"),
    (-108, "ERR_ADDRESS_INVALID"), (-109, "ERR_ADDRESS_UNREACHABLE"),
    (-110, "ERR_SSL_CLIENT_AUTH_CERT_NEEDED"), (-111, "ERR_TUNNEL_CONNECTION_FAILED"),
    (-112, "ERR_NO_SSL_VERSIONS_ENABLED"), (-113, "ERR_SSL_VERSION_OR_CIPHER_MISMATCH"),
    (-114, "ERR_SSL_RENEGOTIATION_REQUESTED"), (-200, "ERR_CERT_COMMON_NAME_INVALID"),
    (-201, "ERR_CERT_DATE_INVALID"), (-202, "ERR_CERT_AUTHORITY_INVALID"),
    (-203, "ERR_CERT_CONTAINS_ERRORS"), (-204, "ERR_CERT_NO_REVOCATION_MECHANISM"),
    (-205, "ERR_CERT_UNABLE_TO_CHECK_REVOCATION"), (-206, "ERR_CERT_REVOKED"),
    (-207, "ERR_CERT_INVALID"), (-213, "ERR_CERT_END"), (-300, "ERR_INVALID_URL"),
    (-301, "ERR_DISALLOWED_URL_SCHEME"), (-302, "ERR_UNKNOWN_URL_SCHEME"),
    (-310, "ERR_TOO_MANY_REDIRECTS"), (-311, "ERR_UNSAFE_REDIRECT"), (-312, "ERR_UNSAFE_PORT"),
    (-320, "ERR_INVALID_RESPONSE"), (-321, "ERR_INVALID_CHUNKED_ENCODING"),
    (-322, "ERR_METHOD_NOT_SUPPORTED"), (-323, "ERR_UNEXPECTED_PROXY_AUTH"),
    (-324, "ERR_EMPTY_RESPONSE"), (-325, "ERR_RESPONSE_HEADERS_TOO_BIG"),
    (-400, "ERR_CACHE_MISS"), (-501, "ERR_INSECURE_RESPONSE")]

def getErrorString (code : Int) : String := (errorNames.lookup code).getD "UNKNOWN"

/-- A `CefString` made of a `std::string`. The conversion is not in the repository: a text in UTF-8 becomes
the same text in UTF-16, what becomes of other bytes is left open. -/
inductive CefString
  | utf16 (units : List UInt16)
  | converted (bytes : Bytes)
  deriving DecidableEq

def CefString.ofBytes (s : Bytes) : CefString :=
  match Utf8.toUtf16 s with
  | some units => .utf16 units
  | none => .converted s

/-- What a router callback is executed with. -/
inductive Reply
  | success (response : CefString)
  | failure (code : Int) (text : String)
  deriving DecidableEq

/-- The reply `Handler::OnRequestComplete` chooses. -/
def Reply.ofError (code : Int) (data : Bytes) : Reply :=
  if code = errNone then .success (.ofBytes data) else .failure code (getErrorString code)

def Reply.aborted : Reply := .failure errAborted (getErrorString errAborted)

/-! ### The handler -/

structure RequestClient where
  /-- The URL set on the request this client was made for. -/
  loadUrl : Bytes := []
  /-- `callback_` is not null: it is bound to `Handler::OnRequestComplete`, unretained. -/
  callback : Bool := false
  downloadData : Bytes := []

structure Handler where
  /-- Not destroyed yet. -/
  alive : Bool := true
  /-- `callback_`, by the number of its query. -/
  callback : Option Nat := none
  urlrequest : Option Nat := none
  /-- How many queries have been accepted. -/
  queries : Nat := 0
  client : Nat → RequestClient := fun _ => {}
  /-- `CefURLRequest::Create` has returned a request. -/
  started : Nat → Bool := fun _ => false
  /-- The router callbacks executed so far. -/
  replies : List (Nat × Reply) := []
  nullDeref : Bool := false
  /-- A member function ran after the destructor. -/
  ranDestroyed : Bool := false

def kTestMessageName : Bytes := lit "URLRequestTest"

namespace Handler

/-- `RequestClient::Detach`, also the `callback_.Reset()` of `RequestClient::OnRequestComplete`. -/
def detach (h : Handler) (q : Nat) : Handler :=
  { h with client := Function.update h.client q { h.client q with callback := false } }

/-- `callback_->Success` or `callback_->Failure`. -/
def execute (h : Handler) (r : Reply) : Handler :=
  match h.callback with
  | some q => { h with replies := h.replies ++ [(q, r)] }
  | none => { h with nullDeref := true }

def cancelPendingRequest (h : Handler) : Handler :=
  let h := match h.urlrequest with
    -- `Cancel` may have the request report its completion, to a client that is detached by then
    | some q => { h.detach q with urlrequest := none }
    | none => h
  if h.callback.isSome then { h.execute .aborted with callback := none } else h

/-- The part of `Handler::OnQuery` that sets up a request, `created` when `CefURLRequest::Create`
returns one. -/
def accept (h : Handler) (loadUrl : Bytes) (created : Bool) : Handler :=
  let h := h.cancelPendingRequest
  { h with
    callback := some h.queries
    urlrequest := if created then some h.queries else none
    queries := h.queries + 1
    client := Function.update h.client h.queries { loadUrl, callback := true }
    started := Function.update h.started h.queries created }

/-- `Handler::OnQuery` of a query whose frame is at the test URL or not. `none`: `substr` throws
`std::out_of_range`. -/
def onQuery (h : Handler) (isTestUrl : Bool) (request : Bytes) (created : Bool) : Option Handler :=
  if !isTestUrl then some h
  else if kTestMessageName.isPrefixOf request then
    -- `sizeof` counts the terminator: the message name and one more byte are dropped
    if request.length < kTestMessageName.length + 1 then none
    else some (h.accept (request.drop (kTestMessageName.length + 1)) created)
  else some h

/-- `Handler::OnRequestComplete`. -/
def onRequestComplete (h : Handler) (code : Int) (data : Bytes) : Handler :=
  if h.alive then
    { h.execute (.ofError code data) with callback := none, urlrequest := none }
  else { h with ranDestroyed := true }

/-- `RequestClient::OnRequestComplete` of query `q`'s client. -/
def clientComplete (h : Handler) (q : Nat) (code : Int) : Handler :=
  if (h.client q).callback then (h.onRequestComplete code (h.client q).downloadData).detach q
  else h

/-- `RequestClient::OnDownloadData`. -/
def clientData (h : Handler) (q : Nat) (data : Bytes) : Handler :=
  let client := { h.client q with downloadData := (h.client q).downloadData ++ data }
  { h with client := Function.update h.client q client }

def destroy (h : Handler) : Handler := { h.cancelPendingRequest with alive := false }

end Handler

/-- What happens on the UI thread. A started request may report data and its completion at any
time, also when it has been cancelled or has completed before. -/
inductive Event
  | onQuery (isTestUrl : Bool) (request : Bytes) (created : Bool)
  | onDownloadData (q : Nat) (data : Bytes)
  | onRequestComplete (q : Nat) (code : Int)
  | destroy

/-- `OnQuery` returns true. -/
def Event.accepted : Event → Bool
  | .onQuery isTestUrl request _ =>
    isTestUrl && kTestMessageName.isPrefixOf request && decide (kTestMessageName.length < request.length)
  | _ => false

def step (h : Handler) : Event → Option Handler
  | .onQuery isTestUrl request created =>
    if h.alive then h.onQuery isTestUrl request created else none
  | .onDownloadData q data => if h.started q then some (h.clientData q data) else none
  | .onRequestComplete q code => if h.started q then some (h.clientComplete q code) else none
  | .destroy => if h.alive then some h.destroy else none

/-- `substr` throws out of `OnQuery`. -/
def Handler.throws (h : Handler) : Event → Bool
  | .onQuery isTestUrl request created => h.alive && (h.onQuery isTestUrl request created).isNone
  | _ => false

/-- The browser process, which does not outlive an exception. -/
structure Process where
  handler : Handler := {}
  terminated : Bool := false

def Process.step (p : Process) (e : Event) : Option Process :=
  if p.terminated then none
  else if p.handler.throws e then some { p with terminated := true }
  else (UrlRequest.step p.handler e).map fun handler => { p with handler }

end UrlRequest

end NplBrowser
