import NplBrowser.CefMessageRouter

/-!
# The browser side of the message router

A query is offered to the handlers in turn. One that is accepted is kept under a query ID with the
callback its handler has been given, until the callback completes it or it is canceled. What a callback
is executed with is sent by a task of the UI thread.

A handler may execute callbacks and call the router while it is asked a query (`OnQuery`). A callback
executed on another thread posts itself to the UI thread, and is executed there like any other. A handler
that is told of a canceled query (`OnQueryCanceled`) may execute callbacks, which is as if it had done so
just before; calling the router from there, in the middle of a cancellation, is left out.
-/

namespace NplBrowser

open Visit

namespace CefMessageRouter

/-- Without the router it does nothing. -/
structure CallbackImpl where
  browserId : Int32
  queryId : Int64
  persistent : Bool
  router : Bool := true
deriving DecidableEq

/-- The callback is that of the query ID. -/
structure QueryInfo where
  browserId : Int32
  frameId : Int64
  isMainFrame : Bool
  id : RequestId
  persistent : Bool
  handler : Nat
deriving DecidableEq

/-- `OnCallbackSuccess` or `OnCallbackFailure`. -/
structure UiTask where
  browserId : Int32
  queryId : Int64
  reply : Reply
deriving DecidableEq

/-- `GetMainFrame()` or `GetFrame(frame_id)` of the browser. -/
inductive FrameRef
  | main
  | frame (frameId : Int64)
deriving DecidableEq

def frameOf (isMainFrame : Bool) (frameId : Int64) : FrameRef := if isMainFrame then .main else .frame frameId

/-- What has become of queries, in its order. -/
inductive HandlerEvent
  | received (queryId : Int64) (browserId : Int32) (query : Query)
  | onQuery (handler : Nat) (browserId : Int32) (frame : FrameRef) (queryId : Int64) (request : Bytes)
    (persistent : Bool)
  | accepted (handler : Nat) (queryId : Int64)
  /-- The callback has been executed, and had its router. -/
  | replied (queryId : Int64) (reply : Reply)
  | onQueryCanceled (handler : Nat) (browserId : Int32) (frame : FrameRef) (queryId : Int64) (notified : Bool)
deriving DecidableEq

structure BrowserSide where
  queryIdGenerator : Int64 := 0
  /-- A `std::set` of pointers: by their addresses. -/
  handlerSet : List Nat := []
  browserQueryInfoMap : CefBrowserInfoMap Int64 QueryInfo := ∅
  callbacks : List (Int64 × CallbackImpl) := []
  /-- To the renderer process. -/
  sent : List (Int32 × CefProcessMessage) := []
  /-- Of the UI thread. -/
  tasks : List UiTask := []
  log : List HandlerEvent := []

/-- What a handler does; the callbacks are those of their queries. -/
inductive HandlerAction
  | success (queryId : Int64) (response : Bytes)
  | failure (queryId : Int64) (errorCode : Int32) (errorMessage : Bytes)
  | addHandler (handler : Nat) (first : Bool)
  | removeHandler (handler : Nat)
  | cancelPending (browserId : Option Int32) (handler : Option Nat)
deriving DecidableEq

/-- What a handler does when it is asked, and what it returns. -/
abbrev OnQuery := Nat → List HandlerAction × Bool

namespace BrowserSide

/-! ### Callbacks -/

/-- The router is `NULL` then. -/
def resetRouter (s : BrowserSide) (queryId : Int64) (c : CallbackImpl) : BrowserSide :=
  { s with callbacks := Assoc.insert queryId { c with router := false } s.callbacks }

/-- `CallbackImpl::Success`, on the UI thread. -/
def callbackSuccess (s : BrowserSide) (queryId : Int64) (response : Bytes) : BrowserSide :=
  match Assoc.find? queryId s.callbacks with
  | none => s
  | some c =>
    if c.router then
      let task : UiTask := { browserId := c.browserId, queryId := c.queryId, reply := .success response }
      let s : BrowserSide := { s with
        tasks := s.tasks ++ [task]
        log := s.log ++ [.replied queryId (.success response)] }
      -- those of non-persistent queries are good for a single use
      if c.persistent then s else s.resetRouter queryId c
    else s

/-- `CallbackImpl::Failure`, on the UI thread. -/
def callbackFailure (s : BrowserSide) (queryId : Int64) (errorCode : Int32) (errorMessage : Bytes) : BrowserSide :=
  match Assoc.find? queryId s.callbacks with
  | none => s
  | some c =>
    if c.router then
      let task : UiTask :=
        { browserId := c.browserId, queryId := c.queryId, reply := .failure errorCode errorMessage }
      let s : BrowserSide := { s with
        tasks := s.tasks ++ [task]
        log := s.log ++ [.replied queryId (.failure errorCode errorMessage)] }
      -- those of persistent queries are not good for a failure and more
      s.resetRouter queryId c
    else s

/-- `CallbackImpl::Detach`. -/
def detach (s : BrowserSide) (queryId : Int64) : BrowserSide :=
  match Assoc.find? queryId s.callbacks with
  | none => s
  | some c => s.resetRouter queryId c

/-! ### Replies -/

/-- `SendQuerySuccess` and `SendQueryFailure`. -/
def sendReply (config : Config) (s : BrowserSide) (browserId : Int32) (id : RequestId) (reply : Reply) :
    BrowserSide :=
  { s with sent := s.sent ++ [(browserId, replyMessage config id reply)] }

def getQueryInfo (s : BrowserSide) (browserId : Int32) (queryId : Int64) (alwaysRemove : Bool) :
    Option QueryInfo × BrowserSide :=
  let (info, m) := s.browserQueryInfoMap.find browserId queryId fun info => alwaysRemove || !info.persistent
  (info, { s with browserQueryInfoMap := m })

def onCallbackSuccess (config : Config) (s : BrowserSide) (browserId : Int32) (queryId : Int64)
    (response : Bytes) : BrowserSide :=
  match s.getQueryInfo browserId queryId false with
  | (some info, s) => s.sendReply config info.browserId info.id (.success response)
  | (none, s) => s

def onCallbackFailure (config : Config) (s : BrowserSide) (browserId : Int32) (queryId : Int64)
    (errorCode : Int32) (errorMessage : Bytes) : BrowserSide :=
  match s.getQueryInfo browserId queryId true with
  | (some info, s) => s.sendReply config info.browserId info.id (.failure errorCode errorMessage)
  | (none, s) => s

def runTask (config : Config) (s : BrowserSide) (t : UiTask) : BrowserSide :=
  match t.reply with
  | .success response => s.onCallbackSuccess config t.browserId t.queryId response
  | .failure errorCode errorMessage => s.onCallbackFailure config t.browserId t.queryId errorCode errorMessage

/-! ### Canceling -/

/-- Cancels a query that has not been sent to a handler. -/
def cancelUnhandledQuery (config : Config) (s : BrowserSide) (browserId : Int32) (id : RequestId) : BrowserSide :=
  s.sendReply config browserId id canceled

/-- Cancels a query that has. -/
def cancelQuery (config : Config) (s : BrowserSide) (queryId : Int64) (info : QueryInfo) (notifyRenderer : Bool) :
    BrowserSide :=
  let s := if notifyRenderer then s.sendReply config info.browserId info.id canceled else s
  let frame := frameOf info.isMainFrame info.frameId
  let s : BrowserSide := { s with
    log := s.log ++ [.onQueryCanceled info.handler info.browserId frame queryId notifyRenderer] }
  s.detach queryId

def pendingForVisitor (config : Config) (handler : Option Nat) (notifyRenderer : Bool) (_browserId : Int32)
    (e : Int64 × QueryInfo) (s : BrowserSide) : Visited BrowserSide :=
  if handler.all (e.2.handler = ·) then
    { remove := true, state := s.cancelQuery config e.1 e.2 notifyRenderer }
  else pass s

/-- Of the browser and the handler, of all browsers and of all handlers if there is none. -/
def cancelPendingFor (config : Config) (s : BrowserSide) (browserId : Option Int32) (handler : Option Nat)
    (notifyRenderer : Bool) : BrowserSide :=
  if s.browserQueryInfoMap.empty then s
  else
    let visitor := pendingForVisitor config handler notifyRenderer
    let (m, s) := match browserId with
      | some browserId => s.browserQueryInfoMap.findAllOf browserId visitor s
      | none => s.browserQueryInfoMap.findAll visitor s
    { s with browserQueryInfoMap := m }

def pendingRequestVisitor (config : Config) (id : RequestId) (_browserId : Int32) (e : Int64 × QueryInfo)
    (s : BrowserSide) : Visited BrowserSide :=
  if e.2.id.contextId = id.contextId ∧ (id.requestId = kReservedId ∨ e.2.id.requestId = id.requestId) then
    -- only a single request is stopped at
    { remove := true, keepgoing := id.requestId = kReservedId, state := s.cancelQuery config e.1 e.2 false }
  else pass s

def cancelPendingRequest (config : Config) (s : BrowserSide) (browserId : Int32) (id : RequestId) : BrowserSide :=
  let (m, s) := s.browserQueryInfoMap.findAllOf browserId (pendingRequestVisitor config id) s
  { s with browserQueryInfoMap := m }

/-! ### Handlers -/

/-- Of a `std::set`. -/
def insertSorted (h : Nat) : List Nat → List Nat
  | [] => [h]
  | h' :: hs => if h < h' then h :: h' :: hs else if h = h' then h' :: hs else h' :: insertSorted h hs

/-- What the set is given with `first` is a hint where to look. -/
def addHandler (s : BrowserSide) (handler : Nat) (_first : Bool) : Bool × BrowserSide :=
  if handler ∈ s.handlerSet then (false, s)
  else (true, { s with handlerSet := insertSorted handler s.handlerSet })

def removeHandler (config : Config) (s : BrowserSide) (handler : Nat) : Bool × BrowserSide :=
  if handler ∈ s.handlerSet then
    (true, { s with handlerSet := s.handlerSet.erase handler }.cancelPendingFor config none (some handler) true)
  else (false, s)

def cancelPending (config : Config) (s : BrowserSide) (browserId : Option Int32) (handler : Option Nat) :
    BrowserSide :=
  s.cancelPendingFor config browserId handler true

def handlerVisitor (handler : Nat) (_browserId : Int32) (e : Int64 × QueryInfo) (count : Nat) : Visited Nat :=
  if e.2.handler = handler then { state := count + 1 } else pass count

/-- The count is an `int`; it is taken to stay below 2 ^ 31. -/
def getPendingCount (s : BrowserSide) (browserId : Option Int32) (handler : Option Nat) : Nat :=
  if s.browserQueryInfoMap.empty then 0
  else
    match handler, browserId with
    | some handler, some browserId => (s.browserQueryInfoMap.findAllOf browserId (handlerVisitor handler) 0).2
    | some handler, none => (s.browserQueryInfoMap.findAll (handlerVisitor handler) 0).2
    | none, some browserId => s.browserQueryInfoMap.sizeOf browserId
    | none, none => s.browserQueryInfoMap.size

def perform (config : Config) (s : BrowserSide) : HandlerAction → BrowserSide
  | .success queryId response => s.callbackSuccess queryId response
  | .failure queryId errorCode errorMessage => s.callbackFailure queryId errorCode errorMessage
  | .addHandler handler first => (s.addHandler handler first).2
  | .removeHandler handler => (s.removeHandler config handler).2
  | .cancelPending browserId handler => s.cancelPending config browserId handler

/-! ### Queries -/

/-- Up to the first handler that accepts the query. -/
def askHandlers (config : Config) (onQuery : OnQuery) (browserId : Int32) (queryId : Int64) (q : Query) :
    List Nat → BrowserSide → Option Nat × BrowserSide
  | [], s => (none, s)
  | h :: hs, s =>
    let asked : HandlerEvent :=
      .onQuery h browserId (frameOf q.isMainFrame q.frameId) queryId q.request q.persistent
    let s := (onQuery h).1.foldl (perform config) { s with log := s.log ++ [asked] }
    if (onQuery h).2 then (some h, s) else askHandlers config onQuery browserId queryId q hs s

/-- A new query ID and its callback. -/
def receive (s : BrowserSide) (browserId : Int32) (q : Query) : Int64 × BrowserSide :=
  let queryId := getNextId s.queryIdGenerator
  (queryId, { s with
    queryIdGenerator := queryId
    callbacks := Assoc.insert queryId { browserId, queryId, persistent := q.persistent } s.callbacks
    log := s.log ++ [.received queryId browserId q] })

/-- The query is kept until the callback executes. -/
def accept (s : BrowserSide) (browserId : Int32) (queryId : Int64) (q : Query) (handler : Nat) : BrowserSide :=
  let info : QueryInfo :=
    { browserId, frameId := q.frameId, isMainFrame := q.isMainFrame, id := q.id, persistent := q.persistent, handler }
  { s with
    browserQueryInfoMap := s.browserQueryInfoMap.add browserId queryId info
    log := s.log ++ [.accepted handler queryId] }

def onQueryMessage (config : Config) (s : BrowserSide) (onQuery : OnQuery) (browserId : Int32) (q : Query) :
    BrowserSide :=
  if s.handlerSet.isEmpty then s.cancelUnhandledQuery config browserId q.id
  else
    let (queryId, s) := s.receive browserId q
    match askHandlers config onQuery browserId queryId q s.handlerSet s with
    | (some handler, s) => s.accept browserId queryId q handler
    | (none, s) => (s.detach queryId).cancelUnhandledQuery config browserId q.id

/-- Whether the message is the router's. -/
def onProcessMessageReceived (config : Config) (s : BrowserSide) (onQuery : OnQuery) (browserId : Int32)
    (m : CefProcessMessage) : Bool × BrowserSide :=
  match ToBrowser.read config m with
  | some (.query q) => (true, s.onQueryMessage config onQuery browserId q)
  | some (.cancel id) => (true, s.cancelPendingRequest config browserId id)
  | none => (false, s)

def onBeforeClose (config : Config) (s : BrowserSide) (browserId : Int32) : BrowserSide :=
  s.cancelPendingFor config (some browserId) none false

def onRenderProcessTerminated (config : Config) (s : BrowserSide) (browserId : Int32) : BrowserSide :=
  s.cancelPendingFor config (some browserId) none false

def onBeforeBrowse (config : Config) (s : BrowserSide) (browserId : Int32) (isMain : Bool) : BrowserSide :=
  if isMain then s.cancelPendingFor config (some browserId) none false else s

end BrowserSide

end CefMessageRouter

end NplBrowser
