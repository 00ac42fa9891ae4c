/-
VerityBackend.Queue.Gateway — the queue and its sockets, one service.

A socket takes the user of its token; when a socket closes,
`handleDisconnect` leaves the queue for the user. It asks how many sockets of
the user remain, through an optional chain over the object that Nest injects:
`this.server?.sockets?.adapter?.rooms?.get(room)?.size ?? 0`.
-/
import VerityBackend.Auth.TokenKinds
import VerityBackend.Queue.Issued

namespace VerityBackend.Queue

open Async

/-- `QueueGateway.handleConnection`: a token is verified at the current time. -/
def handleConnection (env : Auth.SecretEnv) (client : Auth.Handshake) : Prog Auth.Connection := do
  let now ← host .now
  pure (Auth.QueueGateway.handleConnection env now client)

/-! ## Optional chains -/

/-- What the chain can come across. -/
inductive JsValue where
  | undefined
  | number (n : Nat)
  | set (members : List String)
  | map (entries : List (String × JsValue))
  | object (fields : List (String × JsValue))

namespace JsValue

/-- `value?.name`. A collection has a `size` and no fields. -/
def field (name : String) : JsValue → JsValue
  | .undefined => .undefined
  | .number _ => .undefined
  | .set members => if name = "size" then .number members.length else .undefined
  | .map entries => if name = "size" then .number entries.length else .undefined
  | .object fields => (fields.lookup name).getD .undefined

/-- `value?.get(key)`. -/
def get (key : String) : JsValue → Except Err JsValue
  | .undefined => .ok .undefined
  | .map entries => .ok ((entries.lookup key).getD .undefined)
  | _ => .error (.command "TypeError: get is not a function")

/-- `(value ?? 0) > 0` asks no more than this: what is no number is not
greater. -/
def orZero : JsValue → Nat
  | .number n => n
  | _ => 0

end JsValue

/-! ## The namespace -/

abbrev SocketId := String

/-- `userId` is what `handleConnection` has put into `client.data`. -/
structure Socket where
  id : SocketId
  userId : Option UserId
  deriving DecidableEq, Repr

abbrev Rooms := List (String × List SocketId)

structure Namespace where
  nextId : Nat
  sockets : List Socket
  rooms : Rooms
  deriving DecidableEq, Repr

def userRoom (userId : UserId) : String := "user:" ++ userId

namespace Rooms

/-- `Adapter.addAll`, of one room. -/
def join (room : String) (id : SocketId) : Rooms → Rooms
  | [] => [(room, [id])]
  | (r, ids) :: rest =>
      if r = room then (r, if id ∈ ids then ids else ids ++ [id]) :: rest
      else (r, ids) :: join room id rest

/-- `Adapter.delAll`: a room without sockets is deleted. -/
def leaveAll (id : SocketId) (rooms : Rooms) : Rooms :=
  (rooms.map fun entry => (entry.1, entry.2.filter (· ≠ id))).filter fun entry => entry.2 ≠ []

/-- Who is in a room. -/
def members (rooms : Rooms) (room : String) : List SocketId := (List.lookup room rooms).getD []

end Rooms

namespace Namespace

def empty : Namespace := ⟨0, [], []⟩

/-- A socket has a room of its own. -/
def connect (n : Namespace) (userId : Option UserId) : Namespace :=
  let id := freshId n.nextId
  let rooms := n.rooms.join id id
  { nextId := n.nextId + 1
    sockets := n.sockets ++ [⟨id, userId⟩]
    rooms :=
      match userId with
      | some u => rooms.join (userRoom u) id
      | none => rooms }

def close (n : Namespace) (id : SocketId) : Namespace :=
  { n with sockets := n.sockets.filter (·.id ≠ id), rooms := n.rooms.leaveAll id }

/-- `namespace.adapter`. -/
def adapter (n : Namespace) : JsValue :=
  .object [("rooms", .map (n.rooms.map fun entry => (entry.1, .set entry.2)))]

/-- The object of the namespace. Of the fields of its sockets none is read. -/
def toJs (n : Namespace) : JsValue :=
  .object [("sockets", .map (n.sockets.map fun socket => (socket.id, .object []))),
    ("adapter", n.adapter)]

/-- A `Server` with this namespace as its main one. -/
def toServer (n : Namespace) : JsValue := .object [("sockets", n.toJs)]

end Namespace

/-! ## The gateway -/

/-- `this.server?.sockets?.adapter?.rooms?.get(this.userRoom(userId))?.size ?? 0`. -/
def remainingConnections (server : JsValue) (userId : UserId) : Except Err Nat := do
  let room ← (((server.field "sockets").field "adapter").field "rooms").get (userRoom userId)
  pure (room.field "size").orZero

/-- What `handleDisconnect` does with the queue that was left. -/
def emitLeftStatus : Option QueueKey → Prog Unit
  | some queueKey => emitQueueStatus queueKey
  | none => pure ()

/-- What is done for the user of a socket that has closed. A failure is logged
and goes no further. -/
def settleDisconnect (userId : UserId) (remainingConnections : Nat) : Prog Unit :=
  if 0 < remainingConnections then pure ()
  else
    Proc.tryCatch
      (do
        let result ← leaveQueue userId
        emitLeftStatus result.queueKey)
      (fun _ => pure ())

/-- `QueueGateway.handleDisconnect`, with `this.server`. -/
def QueueGateway.handleDisconnect (server : JsValue) (client : Socket) : Prog Unit :=
  match client.userId with
  | none => pure ()
  | some userId =>
      if userId = "" then pure ()
      else
        match remainingConnections server userId with
        | .error e => Proc.fail e
        | .ok remainingConnections => settleDisconnect userId remainingConnections

/-- The `Map` of the sockets has no adapter. -/
theorem remainingConnections_toJs (n : Namespace) (u : UserId) :
    remainingConnections n.toJs u = .ok 0 := rfl

/-! ## The service -/

/-- A socket closes when the namespace is as given; that is the server which
the gateway has. -/
inductive GatewayOp where
  | joinQueue (userId : UserId) (input : QueueJoinInput)
  | leaveQueue (userId : UserId)
  | processQueueKey (queueKey : QueueKey)
  | handleConnection (env : Auth.SecretEnv) (client : Auth.Handshake)
  | handleDisconnect (server : Namespace) (client : Socket)

abbrev GatewayOp.Ret : GatewayOp → Type
  | .joinQueue _ _ => QueueJoinResult
  | .leaveQueue _ => QueueLeaveResult
  | .processQueueKey _ => Unit
  | .handleConnection _ _ => Auth.Connection
  | .handleDisconnect _ _ => Unit

def GatewayOp.code : (o : GatewayOp) → Prog o.Ret
  | .joinQueue userId input => Queue.joinQueue userId input
  | .leaveQueue userId => Queue.leaveQueue userId
  | .processQueueKey queueKey => Queue.processQueueKey queueKey
  | .handleConnection env client => Queue.handleConnection env client
  | .handleDisconnect server client => QueueGateway.handleDisconnect server.toJs client

@[reducible] def queueGateway : Service where
  Op := GatewayOp
  Ret := GatewayOp.Ret
  code := GatewayOp.code

end VerityBackend.Queue
