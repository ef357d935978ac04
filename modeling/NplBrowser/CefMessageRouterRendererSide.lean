import NplBrowser.CefMessageRouter

/-!
# The renderer side of the message router

The functions of a page's window. A query is sent under the IDs of its context and of the request, and
its callback functions are kept until it completes, is canceled by the page, or its context is released.
A reply that is received is a task of the render thread.

A page that calls the functions from within a callback function calls them when the router has done
with its state, and so as if it did so afterwards.
-/

namespace NplBrowser

open Visit

namespace CefMessageRouter

/-- A value of the page, `F` being its functions. -/
inductive V8Value (F : Type)
  | undefined
  | null
  | bool (b : Bool)
  | int (n : Int32)
  | double (x : Double)
  | string (s : Bytes)
  | object (members : List (Bytes × V8Value F))
  | function (f : F) (members : List (Bytes × V8Value F))

namespace V8Value

variable {F : Type}

def isObject : V8Value F → Bool
  | object _ => true
  | function _ _ => true
  | _ => false

def members : V8Value F → List (Bytes × V8Value F)
  | object members => members
  | function _ members => members
  | _ => []

def hasValue (v : V8Value F) (key : Bytes) : Bool := (Assoc.find? key v.members).isSome

def getValue (v : V8Value F) (key : Bytes) : V8Value F := (Assoc.find? key v.members).getD .undefined

end V8Value

/-- What is kept of a request. -/
structure RequestInfo (F : Type) where
  persistent : Bool
  successCallback : Option F
  failureCallback : Option F

/-- What `cefQuery` has been called with. -/
structure QueryArguments (F : Type) extends RequestInfo F where
  request : Bytes

/-- A context with the `V8HandlerImpl` of its functions. -/
structure V8Context where
  browserId : Int32
  frameId : Int64
  isMain : Bool
  contextId : Int32 := kReservedId

structure RendererTask where
  browserId : Int32
  id : RequestId
  reply : Reply

/-- What has become of requests, in its order. -/
inductive PageEvent (F : Type)
  | query (browserId : Int32) (id : RequestId) (ctx : V8Context) (args : QueryArguments F)
  /-- With the function executed, if one is. -/
  | replied (browserId : Int32) (id : RequestId) (reply : Reply) (called : Option F)
  /-- Without a reply. -/
  | canceled (browserId : Int32) (id : RequestId)

structure RendererSide (F : Type) where
  contextIdGenerator : Int32 := kReservedId
  requestIdGenerator : Int32 := kReservedId
  browserRequestInfoMap : CefBrowserInfoMap RequestId (RequestInfo F) := ∅
  contextMap : List (Int32 × Nat) := []
  /-- The contexts there are. -/
  contexts : List (Nat × V8Context) := []
  /-- To the browser process. -/
  sent : List (Int32 × CefProcessMessage) := []
  /-- Of the render thread. -/
  tasks : List RendererTask := []
  log : List (PageEvent F) := []

/-- What a function of the window returns to the page. -/
inductive Executed
  | unhandled
  | exception (message : Bytes)
  | int (n : Int32)
  | bool (b : Bool)
deriving DecidableEq

/-! ### Arguments -/

section
variable {F : Type}

/-- The member `onSuccess` or `onFailure`. -/
def functionMember (arg : V8Value F) (member : Bytes) : Except Bytes (Option F) :=
  if arg.hasValue member then
    match arg.getValue member with
    | .function f _ => .ok (some f)
    | _ => .error (lit "Invalid arguments; object member '" ++ member ++ lit "' must have type function")
  else .ok none

def persistentMember (arg : V8Value F) : Except Bytes Bool :=
  if arg.hasValue kMemberPersistent then
    match arg.getValue kMemberPersistent with
    | .bool b => .ok b
    | _ => .error (lit "Invalid arguments; object member '" ++ kMemberPersistent ++ lit "' must have type boolean")
  else .ok false

def requestMember (arg : V8Value F) : Except Bytes Bytes :=
  match arg.getValue kMemberRequest with
  | .string s => .ok s
  | _ => .error (lit "Invalid arguments; object member '" ++ kMemberRequest ++
      lit "' is required and must have type string")

def queryArguments (arguments : List (V8Value F)) : Except Bytes (QueryArguments F) :=
  match arguments with
  | [arg] =>
    if arg.isObject then do
      let request ← requestMember arg
      let successCallback ← functionMember arg kMemberOnSuccess
      let failureCallback ← functionMember arg kMemberOnFailure
      let persistent ← persistentMember arg
      return { request, successCallback, failureCallback, persistent }
    else .error (lit "Invalid arguments; expecting a single object")
  | _ => .error (lit "Invalid arguments; expecting a single object")

def cancelArguments (arguments : List (V8Value F)) : Except Bytes Int32 :=
  match arguments with
  | [.int requestId] => .ok requestId
  | _ => .error (lit "Invalid arguments; expecting a single integer")

end

namespace RendererSide

variable {F : Type}

/-! ### Contexts -/

def createIDForContext (s : RendererSide F) (c : Nat) : Int32 × RendererSide F :=
  let contextId := getNextId s.contextIdGenerator
  (contextId, { s with
    contextIdGenerator := contextId
    contextMap := BrowserInfoMap.emplace contextId c s.contextMap })

def getIDForContext (s : RendererSide F) (c : Nat) (remove : Bool) : Int32 × RendererSide F :=
  match s.contextMap.find? fun e => e.2 = c with
  | some e => (e.1, if remove then { s with contextMap := Assoc.erase e.1 s.contextMap } else s)
  | none => (kReservedId, s)

def getContextByID (s : RendererSide F) (contextId : Int32) : Option Nat := Assoc.find? contextId s.contextMap

/-- `V8HandlerImpl::GetIDForContext`: the ID is not created until it is needed. -/
def handlerContextId (s : RendererSide F) (c : Nat) (ctx : V8Context) : Int32 × RendererSide F :=
  if ctx.contextId = kReservedId then
    let (contextId, s) := s.createIDForContext c
    (contextId, { s with contexts := Assoc.insert c { ctx with contextId } s.contexts })
  else (ctx.contextId, s)

/-! ### Requests -/

def getRequestInfo (s : RendererSide F) (browserId : Int32) (id : RequestId) (alwaysRemove : Bool) :
    Option (RequestInfo F) × RendererSide F :=
  let (info, m) := s.browserRequestInfoMap.find browserId id fun info => alwaysRemove || !info.persistent
  (info, { s with browserRequestInfoMap := m })

/-- Returns the new request ID. -/
def sendQuery (config : Config) (s : RendererSide F) (ctx : V8Context) (contextId : Int32)
    (args : QueryArguments F) : Int32 × RendererSide F :=
  let requestId := getNextId s.requestIdGenerator
  let id : RequestId := { contextId, requestId }
  let query : Query :=
    { frameId := ctx.frameId, isMainFrame := ctx.isMain, id, request := args.request, persistent := args.persistent }
  (requestId, { s with
    requestIdGenerator := requestId
    browserRequestInfoMap := s.browserRequestInfoMap.add ctx.browserId id args.toRequestInfo
    sent := s.sent ++ [(ctx.browserId, queryMessage config query)]
    log := s.log ++ [.query ctx.browserId id ctx args] })

/-- The visitor of `SendCancel`, of all requests of a context. -/
def cancelVisitor (contextId : Int32) (browserId : Int32) (e : RequestId × RequestInfo F)
    (log : List (PageEvent F)) : Visited (List (PageEvent F)) :=
  if e.1.contextId = contextId then { remove := true, state := log ++ [.canceled browserId e.1] } else pass log

/-- Whether any request was canceled. -/
def sendCancel (config : Config) (s : RendererSide F) (browserId : Int32) (id : RequestId) :
    Bool × RendererSide F :=
  let (canceled, s) :=
    if id.requestId ≠ kReservedId then
      match s.getRequestInfo browserId id true with
      | (some _, s) => (true, { s with log := s.log ++ [.canceled browserId id] })
      | (none, s) => (false, s)
    else
      let (m, canceled) := s.browserRequestInfoMap.findAllOf browserId (cancelVisitor id.contextId) []
      (!canceled.isEmpty, { s with browserRequestInfoMap := m, log := s.log ++ canceled })
  if canceled then (true, { s with sent := s.sent ++ [(browserId, cancelMessage config id)] }) else (false, s)

def executeSuccessCallback (s : RendererSide F) (browserId : Int32) (id : RequestId) (response : Bytes) :
    RendererSide F :=
  match s.getRequestInfo browserId id false with
  | (none, s) => s
  | (some info, s) =>
    let called := (s.getContextByID id.contextId).bind fun _ => info.successCallback
    { s with log := s.log ++ [.replied browserId id (.success response) called] }

def executeFailureCallback (s : RendererSide F) (browserId : Int32) (id : RequestId) (errorCode : Int32)
    (errorMessage : Bytes) : RendererSide F :=
  match s.getRequestInfo browserId id true with
  | (none, s) => s
  | (some info, s) =>
    let called := (s.getContextByID id.contextId).bind fun _ => info.failureCallback
    { s with log := s.log ++ [.replied browserId id (.failure errorCode errorMessage) called] }

/-! ### What the router is called for -/

/-- Of the context `c`, in which the functions are called. -/
def execute (config : Config) (s : RendererSide F) (c : Nat) (ctx : V8Context) (name : Bytes)
    (arguments : List (V8Value F)) : Executed × RendererSide F :=
  if name = config.jsQueryFunction then
    match queryArguments arguments with
    | .error message => (.exception message, s)
    | .ok args =>
      let (contextId, s) := s.handlerContextId c ctx
      let (requestId, s) := s.sendQuery config ctx contextId args
      (.int requestId, s)
  else if name = config.jsCancelFunction then
    match cancelArguments arguments with
    | .error message => (.exception message, s)
    | .ok requestId =>
      if requestId ≠ kReservedId then
        let (contextId, s) := s.handlerContextId c ctx
        let (canceled, s) := s.sendCancel config ctx.browserId { contextId, requestId }
        (.bool canceled, s)
      else (.bool false, s)
  else (.unhandled, s)

def onContextCreated (s : RendererSide F) (c : Nat) (browserId : Int32) (frameId : Int64) (isMain : Bool) :
    RendererSide F :=
  { s with contexts := Assoc.insert c { browserId, frameId, isMain } s.contexts }

def onContextReleased (config : Config) (s : RendererSide F) (c : Nat) (ctx : V8Context) : RendererSide F :=
  let (contextId, s) := s.getIDForContext c true
  let s := if contextId ≠ kReservedId then
      (s.sendCancel config ctx.browserId { contextId, requestId := kReservedId }).2
    else s
  { s with contexts := Assoc.erase c s.contexts }

/-- Whether the message is the router's. -/
def onProcessMessageReceived (config : Config) (s : RendererSide F) (browserId : Int32) (m : CefProcessMessage) :
    Bool × RendererSide F :=
  match ToRenderer.read config m with
  | some r => (true, { s with tasks := s.tasks ++ [{ browserId, id := r.id, reply := r.reply }] })
  | none => (false, s)

def runTask (s : RendererSide F) (t : RendererTask) : RendererSide F :=
  match t.reply with
  | .success response => s.executeSuccessCallback t.browserId t.id response
  | .failure errorCode errorMessage => s.executeFailureCallback t.browserId t.id errorCode errorMessage

end RendererSide

end CefMessageRouter

end NplBrowser
