import NplBrowser.CefBrowserInfoMap
import NplBrowser.CefValue
import NplBrowser.StdString

/-!
# The message router

What the two sides of the router have in common: its configuration, the IDs it gives out, the messages
it sends from one process to the other and how they are read there. `cefQuery` and `cefQueryCancel` of a
page's window are answered by the handlers of the browser process.
-/

namespace NplBrowser

open Visit

/-! ### Frame IDs -/

/-- `CefInt64GetLow`. -/
def cefInt64GetLow (v : Int64) : Int32 := v.toInt32

/-- `CefInt64GetHigh`. -/
def cefInt64GetHigh (v : Int64) : Int32 := (v >>> 32).toInt32

/-- `CefInt64Set`. -/
def cefInt64Set (low high : Int32) : Int64 := low.toUInt32.toUInt64.toInt64 ||| (high.toInt64 <<< 32)

theorem or_shiftLeft_halves (b : BitVec 64) : (b.setWidth 32).setWidth 64 |||
    ((b.sshiftRight 32).signExtend 32).signExtend 64 <<< 32 = b := by
  ext i hi
  simp only [BitVec.getElem_or, BitVec.getElem_setWidth, BitVec.getElem_shiftLeft, BitVec.getElem_signExtend,
    BitVec.getElem_sshiftRight, BitVec.getLsbD_setWidth]
  by_cases h : i < 32
  · simp [h, BitVec.getLsbD_eq_getElem hi]
  · have hlow : i - 32 < 32 := by omega
    have hhigh : i - 32 < 64 := by omega
    have hadd : 32 + (i - 32) = i := by omega
    simp [h, hlow, hhigh, hadd, hi]

/-- A frame ID is put together from the halves it has been sent in. -/
theorem cefInt64Set_get (v : Int64) : cefInt64Set (cefInt64GetLow v) (cefInt64GetHigh v) = v := by
  have h32 : (32 : Int64).toBitVec.smod 64 = 32#64 := by decide
  have hlow : (cefInt64GetLow v).toUInt32.toUInt64.toInt64.toBitVec = (v.toBitVec.setWidth 32).setWidth 64 := by
    simp [cefInt64GetLow, BitVec.signExtend_eq_setWidth_of_le]
  have hhigh : ((cefInt64GetHigh v).toInt64 <<< 32).toBitVec =
      ((v.toBitVec.sshiftRight 32).signExtend 32).signExtend 64 <<< 32 := by
    unfold cefInt64GetHigh
    rw [Int64.toBitVec_shiftLeft, h32, Int32.toBitVec_toInt64, Int64.toBitVec_toInt32, Int64.toBitVec_shiftRight,
      h32]
    simp
  apply Int64.toBitVec_inj.1
  unfold cefInt64Set
  rw [Int64.toBitVec_or, hlow, hhigh]
  exact or_shiftLeft_halves _

namespace CefMessageRouter

/-- Reserved for internal use. -/
def kReservedId : Int32 := 0

def kMessageSuffix : Bytes := lit "Msg"

def kMemberRequest : Bytes := lit "request"

def kMemberOnSuccess : Bytes := lit "onSuccess"

def kMemberOnFailure : Bytes := lit "onFailure"

def kMemberPersistent : Bytes := lit "persistent"

def kCanceledErrorCode : Int32 := -1

def kCanceledErrorMessage : Bytes := lit "The query has been canceled"

structure Config where
  jsQueryFunction : Bytes := lit "cefQuery"
  jsCancelFunction : Bytes := lit "cefQueryCancel"

/-- Both names are given, and, as the documentation asks for, they are two. -/
structure Config.Valid (config : Config) : Prop where
  query : config.jsQueryFunction ≠ []
  cancel : config.jsCancelFunction ≠ []
  ne : config.jsQueryFunction ≠ config.jsCancelFunction

/-- `IdGenerator::GetNextId`: the last ID is the state, and the reserved one is passed over. -/
def getNextId {T : Type} [DecidableEq T] [Add T] [OfNat T 0] [OfNat T 1] (nextId : T) : T :=
  if nextId + 1 = 0 then nextId + 1 + 1 else nextId + 1

/-! ### Messages -/

/-- What identifies a request in the renderer process. -/
structure RequestId where
  contextId : Int32
  requestId : Int32
deriving DecidableEq

/-- Of `std::pair`. -/
instance : LT RequestId :=
  ⟨fun a b => a.contextId < b.contextId ∨ a.contextId = b.contextId ∧ a.requestId < b.requestId⟩

instance : DecidableLT RequestId := fun a b =>
  inferInstanceAs (Decidable (a.contextId < b.contextId ∨ a.contextId = b.contextId ∧ a.requestId < b.requestId))

/-- What a callback is executed with. -/
inductive Reply
  | success (response : Bytes)
  | failure (errorCode : Int32) (errorMessage : Bytes)
deriving DecidableEq

def canceled : Reply := .failure kCanceledErrorCode kCanceledErrorMessage

/-- The last reply to a request. -/
def Reply.closing (persistent : Bool) : Reply → Bool
  | .success _ => !persistent
  | .failure _ _ => true

/-- The request is, or is one of those, that a message with `i` cancels. -/
def RequestId.Covers (i id : RequestId) : Prop :=
  id.contextId = i.contextId ∧ (i.requestId = kReservedId ∨ id.requestId = i.requestId)

instance (i id : RequestId) : Decidable (i.Covers id) :=
  inferInstanceAs (Decidable (id.contextId = i.contextId ∧ (i.requestId = kReservedId ∨ id.requestId = i.requestId)))

structure CefProcessMessage where
  name : Bytes
  args : CefListValue

structure Query where
  frameId : Int64
  isMainFrame : Bool
  id : RequestId
  request : Bytes
  persistent : Bool
deriving DecidableEq

def queryMessageName (config : Config) : Bytes := config.jsQueryFunction ++ kMessageSuffix

def cancelMessageName (config : Config) : Bytes := config.jsCancelFunction ++ kMessageSuffix

def queryMessage (config : Config) (q : Query) : CefProcessMessage where
  name := queryMessageName config
  args := [.int (cefInt64GetLow q.frameId).toInt, .int (cefInt64GetHigh q.frameId).toInt, .bool q.isMainFrame,
    .int q.id.contextId.toInt, .int q.id.requestId.toInt, .string q.request, .bool q.persistent]

def cancelMessage (config : Config) (id : RequestId) : CefProcessMessage where
  name := cancelMessageName config
  args := [.int id.contextId.toInt, .int id.requestId.toInt]

/-- Of `SendQuerySuccess` and `SendQueryFailure`. -/
def replyMessage (config : Config) (id : RequestId) (reply : Reply) : CefProcessMessage where
  name := queryMessageName config
  args := [.int id.contextId.toInt, .int id.requestId.toInt] ++
    match reply with
    | .success response => [.bool true, .string response]
    | .failure errorCode errorMessage => [.bool false, .int errorCode.toInt, .string errorMessage]

namespace CefProcessMessage

def getInt (m : CefProcessMessage) (i : Nat) : Int32 := .ofInt (m.args.getD i .null).getInt

def getBool (m : CefProcessMessage) (i : Nat) : Bool := (m.args.getD i .null).getBool

def getString (m : CefProcessMessage) (i : Nat) : Bytes := (m.args.getD i .null).getString

end CefProcessMessage

inductive ToBrowser
  | query (q : Query)
  | cancel (id : RequestId)
deriving DecidableEq

/-- The arguments of a message, as `OnProcessMessageReceived` reads them in the browser process. -/
def ToBrowser.read (config : Config) (m : CefProcessMessage) : Option ToBrowser :=
  if m.name = queryMessageName config then
    some (.query
      { frameId := cefInt64Set (m.getInt 0) (m.getInt 1)
        isMainFrame := m.getBool 2
        id := { contextId := m.getInt 3, requestId := m.getInt 4 }
        request := m.getString 5
        persistent := m.getBool 6 })
  else if m.name = cancelMessageName config then
    some (.cancel { contextId := m.getInt 0, requestId := m.getInt 1 })
  else none

structure ToRenderer where
  id : RequestId
  reply : Reply
deriving DecidableEq

/-- And in the renderer process. -/
def ToRenderer.read (config : Config) (m : CefProcessMessage) : Option ToRenderer :=
  if m.name = queryMessageName config then
    some
      { id := { contextId := m.getInt 0, requestId := m.getInt 1 }
        reply := if m.getBool 2 then .success (m.getString 3) else .failure (m.getInt 3) (m.getString 4) }
  else none

theorem queryMessageName_ne {config : Config} (hv : config.Valid) :
    cancelMessageName config ≠ queryMessageName config := fun h =>
  hv.ne (List.append_cancel_right h).symm

theorem read_queryMessage (config : Config) (q : Query) :
    ToBrowser.read config (queryMessage config q) = some (.query q) := by
  have hframe := cefInt64Set_get q.frameId
  simp [ToBrowser.read, queryMessage, CefProcessMessage.getInt, CefProcessMessage.getBool,
    CefProcessMessage.getString, CefValue.getInt, CefValue.getBool, CefValue.getString, hframe]

theorem read_cancelMessage {config : Config} (hv : config.Valid) (id : RequestId) :
    ToBrowser.read config (cancelMessage config id) = some (.cancel id) := by
  have hne := queryMessageName_ne hv
  simp [ToBrowser.read, cancelMessage, CefProcessMessage.getInt, CefValue.getInt, hne]

theorem read_replyMessage (config : Config) (id : RequestId) (reply : Reply) :
    ToRenderer.read config (replyMessage config id reply) = some { id, reply } := by
  cases reply <;>
    simp [ToRenderer.read, replyMessage, CefProcessMessage.getInt, CefProcessMessage.getBool,
      CefProcessMessage.getString, CefValue.getInt, CefValue.getBool, CefValue.getString]

end CefMessageRouter

end NplBrowser
