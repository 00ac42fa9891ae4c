/-
VerityBackend.Mobile.ChatCache — the messages of one match in the query cache
of the mobile app: sending (`verity-mobile/src/queries/useChatQuery.ts`), and
what the chat screen does with what the chat socket delivers
(`screens/chat/ChatScreen.tsx`, `hooks/useWebSocket.ts`).

The socket's handler puts a message into `lastMessage`; the screen's effect
takes it from there when the screen is next rendered. A mutation is
`onMutate`, then its request, then `onSuccess` or `onError`, each of the three
callbacks in one go.
-/
import VerityBackend.Mobile.Api

namespace VerityBackend.Mobile

open Async

structure ChatMessage where
  id : String
  matchId : String
  senderId : String
  text : String
  createdAt : Nat
  deriving DecidableEq, Repr

/-- The body of an answer to `POST /matches/:id/messages`: the message, and
what `parseApiErrorCode` finds in it. -/
structure SendData where
  message : ChatMessage
  code : Option String
  deriving DecidableEq, Repr

def REVEAL_ACK_REQUIRED_CODE : String := "REVEAL_ACK_REQUIRED"

/-- The mounted screen, and who has logged in. -/
structure ChatScreen where
  matchId : String
  revealAcknowledged : Bool
  user : Option String
  deriving DecidableEq, Repr

abbrev ChatCache := List ChatMessage

def ChatCache.has (cache : ChatCache) (id : String) : Bool := cache.any (·.id == id)

/-! ## The callbacks of a mutation -/

def optimisticId (now : Nat) : String := "temp-" ++ toString now

def onMutate (screen : ChatScreen) (now : Nat) (text : String) (data : ChatCache) : ChatCache :=
  data ++ [⟨optimisticId now, screen.matchId, screen.user.getD "me", text, now⟩]

def onError (optimisticId : String) (data : ChatCache) : ChatCache :=
  data.filter (·.id != optimisticId)

/-- Where the message is there already, the cache is left as it is. -/
def onSuccess (message : ChatMessage) (optimisticId : String) (data : ChatCache) : ChatCache :=
  let filtered : ChatCache := data.filter (·.id != optimisticId)
  if filtered.has message.id then data else filtered ++ [message]

/-! ## The screen's effect -/

def messageEffect (screen : ChatScreen) (lastMessage : Option ChatMessage) (existing : ChatCache) :
    ChatCache :=
  match lastMessage with
  | none => existing
  | some message =>
      if message.matchId ≠ screen.matchId then existing
      else if !screen.revealAcknowledged then existing
      else if existing.has message.id then existing
      else existing ++ [message]

/-! ## Commands -/

/-- The server: what it answers a message with. -/
structure ChatServer where
  State : Type
  send : String → String → State → Except ClientError (Response SendData) × State

/-- `stale` says that `lastMessage` has changed since the screen was rendered.
`received` is a record of all payloads of `message:new`, newest first. -/
structure ChatWorld (server : ChatServer) where
  cache : ChatCache
  lastMessage : Option ChatMessage
  stale : Bool
  clock : Nat
  server : server.State
  received : List ChatMessage

inductive ChatCmd where
  | onMutate (text : String)
  | post (text : String)
  | onSuccess (message : ChatMessage) (optimisticId : String)
  | onError (optimisticId : String)

abbrev ChatCmd.Res : ChatCmd → Type
  | .onMutate _ => String
  | .post _ => Response SendData
  | .onSuccess _ _ | .onError _ => Unit

variable {server : ChatServer}

def ChatCmd.exec (server : ChatServer) (screen : ChatScreen) :
    (c : ChatCmd) → ChatWorld server → Except ClientError c.Res × ChatWorld server
  | .onMutate text, w =>
      (.ok (optimisticId w.clock), { w with cache := Mobile.onMutate screen w.clock text w.cache })
  | .post text, w =>
      let answered := server.send screen.matchId text w.server
      (answered.1, { w with server := answered.2 })
  | .onSuccess message optimisticId, w =>
      (.ok (), { w with cache := Mobile.onSuccess message optimisticId w.cache })
  | .onError optimisticId, w => (.ok (), { w with cache := Mobile.onError optimisticId w.cache })

abbrev ChatProg (α : Type) := Proc ChatCmd ChatCmd.Res ClientError α

abbrev chat (c : ChatCmd) : ChatProg c.Res := Proc.await c

/-! ## Procedures -/

def mutationFn (text : String) : ChatProg ChatMessage := do
  let response ← chat (.post text)
  if response.status = 401 then Proc.fail (.thrown "Unauthorized")
  else if response.status = 403 then
    if response.data.bind (·.code) = some REVEAL_ACK_REQUIRED_CODE then
      Proc.fail (.thrown REVEAL_ACK_REQUIRED_CODE)
    else Proc.fail (.thrown "FORBIDDEN")
  else
    match response.ok, response.data with
    | true, some data => pure data.message
    | _, _ => Proc.fail (.thrown "Send failed")

/-- `mutateAsync`. -/
def sendMutation (text : String) : ChatProg ChatMessage := do
  let optimisticId ← chat (.onMutate text)
  (do
    let message ← mutationFn text
    chat (.onSuccess message optimisticId)
    pure message).tryCatch fun error => do
      chat (.onError optimisticId)
      Proc.fail error

/-- The one call there is: a message is sent. -/
structure ChatOp where
  text : String
  deriving DecidableEq, Repr

/-- `message:new` is delivered, the screen is rendered, time passes, or
something happens on the server. -/
inductive ChatEnv (server : ChatServer) where
  | deliver (payload : ChatMessage)
  | rendered
  | elapse (ms : Nat)
  | server (f : server.State → server.State)

def ChatEnv.apply (screen : ChatScreen) : ChatEnv server → ChatWorld server → ChatWorld server
  | .deliver payload, w =>
      { w with lastMessage := some payload, stale := true, received := payload :: w.received }
  | .rendered, w =>
      if w.stale then
        { w with cache := messageEffect screen w.lastMessage w.cache, stale := false }
      else w
  | .elapse ms, w => { w with clock := w.clock + ms }
  | .server f, w => { w with server := f w.server }

/-- The cache of one match, and any number of messages that are sent. -/
@[reducible] def chatCache (server : ChatServer) (screen : ChatScreen) : System where
  Cmd := ChatCmd
  Res := ChatCmd.Res
  Err := ClientError
  World := ChatWorld server
  exec := ChatCmd.exec server screen
  Op := ChatOp
  Ret := fun _ => ChatMessage
  code := fun o => sendMutation o.text
  Env := ChatEnv server
  env := ChatEnv.apply screen

end VerityBackend.Mobile
