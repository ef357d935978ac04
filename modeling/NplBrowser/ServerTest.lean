import NplBrowser.CefValue
import NplBrowser.Lib.Run
import Mathlib.Logic.Function.Basic

/-!
# The test server

`server_test::Handler` starts and stops a server at the request of a page. A `ServerHandler` is made
for each start; the server's own thread tells it of the server's creation and destruction, and it
posts what the two come to back to the UI thread, where the one callback in its slot is run.

Queries are numbered as the handler takes them, servers as they are started. `log` is the history of
the queries: which was accepted to start or stop which server, and what its router callback was
executed with.
-/

namespace NplBrowser

namespace ServerTest

def kMessageFormatError : Int := 1

def kActionStateError : Int := 1

def kActionKey : Bytes := lit "action"

def kResultKey : Bytes := lit "result"

def kPortKey : Bytes := lit "port"

def kStatusKey : Bytes := lit "status"

def kMessageKey : Bytes := lit "message"

def kTestUrl : Bytes := lit "http://tests/server"

def kServerPortDefault : Int := 8099

/-- What a router callback is executed with; the response is the dictionary that is written as
JSON. -/
inductive Reply
  | success (response : CefDictionaryValue)
  | failure (code : Int) (text : Bytes)

/-- An accepted request, with the number of its server. -/
inductive Op
  | start (n : Nat)
  | stop (n : Nat)
  deriving DecidableEq

def Op.server : Op → Nat
  | start n => n
  | stop n => n

inductive Entry
  | accept (q : Nat) (op : Op)
  /-- The router callback is executed, at the completion of `op` or in place of accepting one. -/
  | reply (q : Nat) (op : Option Op) (r : Reply)

def Entry.query : Entry → Nat
  | accept q _ => q
  | reply q _ _ => q

/-- Where the server's own thread stands. -/
inductive ServerThread
  | creating
  /-- In `OnServerCreated`, `server_` is set. -/
  | created
  | serving
  /-- In `OnServerDestroyed`, `server_` is reset. -/
  | destroyed
  | finished
  deriving DecidableEq

structure ServerHandler where
  port : Int
  /-- `server_` is not null. -/
  server : Bool := false
  /-- `complete_callback_`: `OnStartComplete` or `OnStopComplete` with a query's router callback. -/
  completeCallback : Option (Op × Nat) := none
  thread : ServerThread := .creating
  /-- What `IsRunning` says in `OnServerCreated`. -/
  isRunning : Bool := false
  /-- `CefServer::Shutdown` has been called. -/
  shutdown : Bool := false

structure Handler where
  /-- Not destroyed yet: weak pointers to it are valid. -/
  alive : Bool := true
  /-- `handler_`. -/
  handler : Option Nat := none
  servers : Nat → ServerHandler := fun _ => { port := 0 }
  started : Nat := 0
  /-- Calls of `RunCompleteCallback` posted to the UI thread. -/
  uiQueue : List (Nat × Bool) := []
  queries : Nat := 0
  log : List Entry := []
  nullDeref : Bool := false

namespace Handler

def setServer (s : Handler) (n : Nat) (h : ServerHandler) : Handler :=
  { s with servers := Function.update s.servers n h }

/-- `ServerHandler::StartServer`, of the handler that has just been made. -/
def startServer (s : Handler) (port : Int) (q : Nat) : Handler :=
  let n := s.started
  { s.setServer n { port, completeCallback := some (.start n, q) } with started := n + 1 }

/-- `ServerHandler::StopServer`. -/
def stopServer (s : Handler) (n : Nat) (completeCallback : Option (Op × Nat)) : Handler :=
  let h := s.servers n
  if h.server then s.setServer n { h with completeCallback, shutdown := true }
  else { s.setServer n { h with completeCallback } with nullDeref := true }

/-! ### Replies -/

/-- `SendResponse`. -/
def sendResponse (success : Bool) (resultDict : CefDictionaryValue) : Reply :=
  .success (Assoc.insert kResultKey (.string (if success then lit "success" else lit "failure"))
    resultDict)

def startResponse (success : Bool) : Reply :=
  sendResponse success
    (if success then [] else [(kMessageKey, .string (lit "Server failed to start."))])

def stopResponse (success : Bool) : Reply :=
  sendResponse success
    (if success then [] else [(kMessageKey, .string (lit "Server failed to stop."))])

/-- The router callback of query `q` is executed before `OnQuery` returns. -/
def reply (s : Handler) (q : Nat) (r : Reply) : Handler :=
  { s with log := s.log ++ [.reply q none r] }

/-- The failure of `VerifyKey`, none when the key is there with its type. -/
def verifyKey (dictionary : CefDictionaryValue) (key : Bytes) (valueType : VType) : Option Reply :=
  if dictionary.hasKey key && decide (dictionary.getType key = valueType) then none
  else some (.failure kMessageFormatError
    (lit "Missing or incorrectly formatted message key: " ++ key))

/-! ### Queries -/

def handleQueryAction (s : Handler) (q : Nat) : Handler :=
  match s.handler with
  | some n => s.reply q (sendResponse true
      [(kPortKey, .int (s.servers n).port), (kStatusKey, .string (lit "running"))])
  | none => s.reply q (sendResponse true
      [(kPortKey, .int kServerPortDefault), (kStatusKey, .string (lit "stopped"))])

def handleStartAction (s : Handler) (requestDict : CefDictionaryValue) (q : Nat) : Handler :=
  match s.handler with
  | some _ => s.reply q (.failure kActionStateError (lit "Server is currently running"))
  | none =>
    match verifyKey requestDict kPortKey .int with
    | some r => s.reply q r
    | none =>
      let port := (requestDict.get kPortKey).getInt
      if port < 8000 ∨ 65535 < port then
        s.reply q (.failure kMessageFormatError (lit "Invalid port number specified"))
      else
        { s.startServer port q with
          handler := some s.started
          log := s.log ++ [.accept q (.start s.started)] }

def handleStopAction (s : Handler) (q : Nat) : Handler :=
  match s.handler with
  | none => s.reply q (.failure kActionStateError (lit "Server is not currently running"))
  | some n =>
    { s.stopServer n (some (.stop n, q)) with
      handler := none
      log := s.log ++ [.accept q (.stop n)] }

/-- What `OnQuery` does with the query it has numbered `q`; `requestDict` is what `CefParseJSON`
makes of the request, none when that is no dictionary. -/
def handleRequest (s : Handler) (requestDict : Option CefDictionaryValue) (q : Nat) : Handler :=
  match requestDict with
  | none => s.reply q (.failure kMessageFormatError (lit "Incorrect message format"))
  | some d =>
    match verifyKey d kActionKey .string with
    | some r => s.reply q r
    | none =>
      let action := (d.get kActionKey).getString
      if action = lit "query" then s.handleQueryAction q
      else if action = lit "start" then s.handleStartAction d q
      else if action = lit "stop" then s.handleStopAction q
      else s.reply q (.failure kMessageFormatError (lit "Unrecognized action: " ++ action))

def onQuery (s : Handler) (url : Bytes) (requestDict : Option CefDictionaryValue) : Handler :=
  if kTestUrl.isPrefixOf url then
    { s with queries := s.queries + 1 }.handleRequest requestDict s.queries
  else s

/-! ### Completions -/

def onStartComplete (s : Handler) (callback : Op × Nat) (success : Bool) : Handler :=
  let s := if success then s else { s with handler := none }
  { s with log := s.log ++ [.reply callback.2 callback.1 (startResponse success)] }

def onStopComplete (s : Handler) (callback : Op × Nat) (success : Bool) : Handler :=
  { s with log := s.log ++ [.reply callback.2 callback.1 (stopResponse success)] }

/-- `complete_callback_.Run(success)`: the callbacks are bound to a weak pointer. -/
def runCallback (s : Handler) (callback : Op × Nat) (success : Bool) : Handler :=
  if s.alive then
    match callback.1 with
    | .start _ => s.onStartComplete callback success
    | .stop _ => s.onStopComplete callback success
  else s

/-- `RunCompleteCallback` on the UI thread. -/
def runCompleteCallback (s : Handler) (n : Nat) (success : Bool) : Handler :=
  match (s.servers n).completeCallback with
  | some callback =>
    (s.runCallback callback success).setServer n { s.servers n with completeCallback := none }
  | none => s

def destroy (s : Handler) : Handler :=
  match s.handler with
  | some n => { s.stopServer n none with handler := none, alive := false }
  | none => { s with alive := false }

end Handler

/-! ### Steps -/

inductive Event
  | onQuery (url : Bytes) (requestDict : Option CefDictionaryValue)
  /-- The destructor. -/
  | destroy
  /-- The UI thread runs the next posted call. -/
  | runTask
  /-- `OnServerCreated` sets `server_`. -/
  | onServerCreated (n : Nat) (isRunning : Bool)
  /-- `OnServerCreated` posts its completion. -/
  | postCreated (n : Nat)
  /-- `OnServerDestroyed` resets `server_`. -/
  | onServerDestroyed (n : Nat)
  /-- `OnServerDestroyed` posts its completion. -/
  | postDestroyed (n : Nat)

/-- A step of server `n`'s thread, at `thread`. -/
def serverStep (s : Handler) (n : Nat) (thread : ServerThread) (s' : Handler) : Option Handler :=
  if n < s.started ∧ (s.servers n).thread = thread then some s' else none

def step (s : Handler) : Event → Option Handler
  | .onQuery url requestDict => if s.alive then some (s.onQuery url requestDict) else none
  | .destroy => if s.alive then some s.destroy else none
  | .runTask =>
    match s.uiQueue with
    | [] => none
    | (n, success) :: q => some ({ s with uiQueue := q }.runCompleteCallback n success)
  | .onServerCreated n isRunning =>
    serverStep s n .creating
      (s.setServer n { s.servers n with server := true, isRunning, thread := .created })
  | .postCreated n =>
    serverStep s n .created { s.setServer n { s.servers n with thread := .serving } with
      uiQueue := s.uiQueue ++ [(n, (s.servers n).isRunning)] }
  | .onServerDestroyed n =>
    -- a server that failed to start is destroyed at once, another one when it is shut down
    if (s.servers n).isRunning && !(s.servers n).shutdown then none
    else serverStep s n .serving
      (s.setServer n { s.servers n with server := false, thread := .destroyed })
  | .postDestroyed n =>
    serverStep s n .destroyed { s.setServer n { s.servers n with thread := .finished } with
      uiQueue := s.uiQueue ++ [(n, true)] }

end ServerTest

end NplBrowser
