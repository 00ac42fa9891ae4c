/-
VerityBackend.Chat.Service — the messages of a match
(`chat/chat.service.ts`).
-/
import VerityBackend.Backend.Service

namespace VerityBackend.Chat

open Async

def DEFAULT_MESSAGE_LIMIT : Nat := 50
def REVEAL_ACK_REQUIRED_CODE : String := "REVEAL_ACK_REQUIRED"

/-! ## Checks -/

/-- The row, where the user is one of its two. -/
def getMatchForUser (matchId : MatchId) (userId : UserId) : Prog (Option Match) := do
  match ← prisma (.matchFindUnique matchId) with
  | none => pure none
  | some m =>
      if m.userAId ≠ userId ∧ m.userBId ≠ userId then
        Proc.fail (.forbidden "Not a match participant")
      else pure (some m)

def assertNotBlocked (userAId userBId : UserId) : Prog Unit := do
  let block ← prisma (.blockFindFirst userAId userBId)
  if block.isSome then Proc.fail (.forbidden "Conversation unavailable") else pure ()

def hasRevealAcknowledged (m : Match) (userId : UserId) : Bool :=
  if m.userAId = userId then m.userARevealAcknowledgedAt.isSome
  else m.userBRevealAcknowledgedAt.isSome

def assertRevealAcknowledged (m : Match) (userId : UserId) : Prog Unit :=
  if hasRevealAcknowledged m userId then pure ()
  else
    Proc.fail (.revealAckRequired REVEAL_ACK_REQUIRED_CODE
      "Profile reveal acknowledgement required before chat")

/-- The row of a match in which the user may chat. -/
def openMatch (matchId : MatchId) (userId : UserId) : Prog Match := do
  match ← getMatchForUser matchId userId with
  | none => Proc.fail (.notFound "Match not found")
  | some m => do
      assertNotBlocked m.userAId m.userBId
      assertRevealAcknowledged m userId
      pure m

/-- `Math.round` of the seconds since the match. -/
def timeFromMutualMatchSec (now matchCreatedAt : Nat) : Nat := (now - matchCreatedAt + 500) / 1000

/-! ## Reading -/

/-- `limit` is an integer; the controller leaves it out where the query has
no number. -/
def safeLimit (limit : Option Int) : Nat :=
  match limit with
  | none => DEFAULT_MESSAGE_LIMIT
  | some n => (max 1 (min n 100)).toNat

def listMessages (matchId : MatchId) (userId : UserId) (limit : Option Int) :
    Prog (List Message) := do
  let m ← openMatch matchId userId
  let messages ← prisma (.messageFindMany matchId (safeLimit limit))
  let now ← host .now
  host (.emit [.track userId "match_chat_opened"
    [("matchId", .str matchId), ("messageCount", .num messages.length),
      ("timeFromMutualMatchSec", .num (timeFromMutualMatchSec now m.createdAt))]])
  pure messages.reverse

/-! ## Writing -/

/-- What is emitted for a message. -/
def messagePayload (message : Message) : ChatMessagePayload where
  id := message.id
  matchId := message.matchId
  senderId := message.senderId
  text := message.text
  createdAt := message.createdAt

/-- The rooms of the users who have acknowledged the reveal. -/
def messageEvents (m : Match) (message : Message) : List Output :=
  (if m.userARevealAcknowledgedAt.isSome then [.messageNew m.userAId (messagePayload message)]
    else []) ++
  (if m.userBRevealAcknowledgedAt.isSome then [.messageNew m.userBId (messagePayload message)]
    else [])

def recipientOf (m : Match) (userId : UserId) : UserId :=
  if m.userAId = userId then m.userBId else m.userAId

/-- `sender?.displayName?.trim() || 'Someone'`. -/
def senderDisplayName (sender : Option User) : String :=
  match sender.bind (·.displayName) with
  | some name => if jsTrim name = "" then "Someone" else jsTrim name
  | none => "Someone"

def newMessagePush (recipientId : UserId) (message : Message) (sender : Option User) : Output :=
  .push [recipientId] .chat_message_new
    [("matchId", .str message.matchId), ("messageId", .str message.id),
      ("senderId", .str message.senderId), ("title", .str "New message"),
      ("body", .str ("From " ++ senderDisplayName sender)), ("deepLinkTarget", .str "chat")]

def revealRequiredPush (recipientId : UserId) (message : Message) : Output :=
  .push [recipientId] .chat_reveal_required
    [("matchId", .str message.matchId), ("messageId", .str message.id),
      ("senderId", .str message.senderId), ("title", .str "New match"),
      ("body", .str "A message is waiting — reveal to view"), ("deepLinkTarget", .str "reveal")]

/-- The push to the recipient. -/
def notifyRecipient (m : Match) (userId : UserId) (message : Message) : Prog Unit := do
  let recipientId := recipientOf m userId
  if hasRevealAcknowledged m recipientId then
    let sender ← prisma (.userFindUnique userId)
    host (.emit [newMessagePush recipientId message sender])
  else
    host (.emit [revealRequiredPush recipientId message])

def sentEvents (matchId : MatchId) (userId : UserId) (messageId : String)
    (existingCount timeFromMutualMatchSec : Nat) : List Output :=
  let isFirstMessage := existingCount = 0
  [.track userId (if isFirstMessage then "first_message_sent" else "message_sent")
      [("matchId", .str matchId), ("messageId", .str messageId)],
    .track userId "match_message_sent"
      [("matchId", .str matchId), ("messageId", .str messageId),
        ("isFirstMessage", .bool isFirstMessage),
        ("timeFromMutualMatchSec", .num timeFromMutualMatchSec)]]

/-- The second check that the sender is a participant never fails:
`getMatchForUser` has made it. Irreducible, so that nothing is trimmed where
the text is not known. -/
@[irreducible] def sendMessage (matchId : MatchId) (userId : UserId) (text : String) : Prog Message := do
  let content := jsTrim text
  if content = "" then Proc.fail (.badRequest "Message text is required")
  else
    let m ← openMatch matchId userId
    if m.userAId ≠ userId ∧ m.userBId ≠ userId then
      Proc.fail (.forbidden "Not a match participant")
    else
      let existingCount ← prisma (.messageCount matchId)
      let now ← host .now
      let message ← prisma (.messageCreate matchId userId content)
      host (.emit (messageEvents m message))
      notifyRecipient m userId message
      host (.emit (sentEvents matchId userId message.id existingCount
        (timeFromMutualMatchSec now m.createdAt)))
      pure message

end VerityBackend.Chat
