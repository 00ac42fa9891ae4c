/-
VerityBackend.Notifications.Service — push tokens and pushes
(`notifications/notifications.service.ts`).

A device has one token and the table has one row for each token, so a
device that changes hands takes its row with it. Each call is one statement
of Prisma, and calls are made one after the other here. What the dispatch
webhook answers is logged and goes no further.
-/
import VerityBackend.Backend.Commands

namespace VerityBackend.Notifications

inductive PushPlatform where
  | WEB
  | IOS
  | ANDROID
  deriving DecidableEq, Repr

structure PushToken where
  id : String
  userId : UserId
  token : String
  platform : PushPlatform
  deviceId : Option String
  lastSeenAt : Nat
  revokedAt : Option Nat
  deriving DecidableEq, Repr

/-- `users` are the ids of the table of users, `webhook` is
`process.env.PUSH_DISPATCH_WEBHOOK_URL`. -/
structure PushWorld where
  clock : Nat
  nextId : Nat
  users : List UserId
  pushTokens : List PushToken
  webhook : Option String

structure RegisterPushTokenDto where
  token : String
  platform : PushPlatform
  deviceId : Option String
  deriving DecidableEq, Repr

/-- What `upsert` selects. -/
structure PushTokenRecord where
  id : String
  platform : PushPlatform
  lastSeenAt : Nat
  deriving DecidableEq, Repr

def PushToken.select (row : PushToken) : PushTokenRecord := ⟨row.id, row.platform, row.lastSeenAt⟩

/-- `update: { userId, platform, deviceId, lastSeenAt, revokedAt: null }`. -/
def PushToken.reassign (row : PushToken) (userId : UserId) (platform : PushPlatform)
    (deviceId : Option String) (lastSeenAt : Nat) : PushToken :=
  { row with
    userId := userId
    platform := platform
    deviceId := deviceId
    lastSeenAt := lastSeenAt
    revokedAt := none }

def registerPushToken (userId : UserId) (dto : RegisterPushTokenDto) (w : PushWorld) :
    Except Err PushTokenRecord × PushWorld :=
  let token := jsTrim dto.token
  let deviceId := (dto.deviceId.map jsTrim).filter (· ≠ "")
  let now := w.clock
  -- the foreign key of the row
  if userId ∉ w.users then (.error (.prisma "P2003"), w)
  else
    match w.pushTokens.find? (·.token = token) with
    | some row =>
        (.ok (row.reassign userId dto.platform deviceId now).select,
          { w with
            pushTokens := w.pushTokens.map fun row =>
              if row.token = token then row.reassign userId dto.platform deviceId now else row })
    | none =>
        let row : PushToken := ⟨freshId w.nextId, userId, token, dto.platform, deviceId, now, none⟩
        (.ok row.select, { w with pushTokens := w.pushTokens ++ [row], nextId := w.nextId + 1 })

/-- `where: { userId, token, revokedAt: null }`. -/
def PushToken.activeOf (row : PushToken) (userId : UserId) (token : String) : Bool :=
  row.userId = userId && row.token = token && row.revokedAt.isNone

/-- The answer is `removed`. -/
def unregisterPushToken (userId : UserId) (tokenRaw : String) (w : PushWorld) : Nat × PushWorld :=
  let token := jsTrim tokenRaw
  (w.pushTokens.countP (·.activeOf userId token),
    { w with
      pushTokens := w.pushTokens.map fun row =>
        if row.activeOf userId token then { row with revokedAt := some w.clock } else row })

/-! ## Pushes -/

structure Delivery where
  userId : UserId
  token : String
  platform : PushPlatform
  data : List (String × JsonField)
  deriving DecidableEq, Repr

/-- The body that is posted to the webhook. -/
structure PushPayload where
  event : PushEventType
  sentAt : Nat
  deliveries : List Delivery
  deriving DecidableEq, Repr

structure NotifyResult where
  attemptedUsers : Nat
  tokenCount : Nat
  deriving DecidableEq, Repr

/-- `[...new Set(userIds.filter(Boolean))]`. -/
def uniqueUserIds (userIds : List UserId) : List UserId :=
  (userIds.filter (· ≠ "")).foldl (fun seen u => if u ∈ seen then seen else seen ++ [u]) []

/-- The rows `findMany` returns. -/
def activeTokens (ids : List UserId) (rows : List PushToken) : List PushToken :=
  rows.filter fun row => row.userId ∈ ids ∧ row.revokedAt.isNone

/-- The result, and what is posted. Without a webhook that is nothing. -/
def notifyUsers (userIds : List UserId) (event : PushEventType) (data : List (String × JsonField))
    (w : PushWorld) : NotifyResult × Option PushPayload :=
  let ids := uniqueUserIds userIds
  if ids.length = 0 then (⟨0, 0⟩, none)
  else
    let tokens := activeTokens ids w.pushTokens
    if tokens.length = 0 then (⟨ids.length, 0⟩, none)
    else
      match (w.webhook.map jsTrim).filter (· ≠ "") with
      | none => (⟨ids.length, tokens.length⟩, none)
      | some _ =>
          (⟨ids.length, tokens.length⟩, some
            { event
              sentAt := w.clock
              deliveries := tokens.map fun entry => ⟨entry.userId, entry.token, entry.platform, data⟩ })

/-! ## Histories -/

/-- A call that changes the table, or time that passes. -/
inductive PushOp where
  | registerPushToken (userId : UserId) (dto : RegisterPushTokenDto)
  | unregisterPushToken (userId : UserId) (tokenRaw : String)
  | tick (ms : Nat)
  deriving DecidableEq, Repr

namespace PushWorld

def next (w : PushWorld) : PushOp → PushWorld
  | .registerPushToken userId dto => (registerPushToken userId dto w).2
  | .unregisterPushToken userId tokenRaw => (unregisterPushToken userId tokenRaw w).2
  | .tick ms => { w with clock := w.clock + ms }

def after (w : PushWorld) (ops : List PushOp) : PushWorld := ops.foldl next w

@[simp] theorem after_nil (w : PushWorld) : w.after [] = w := rfl

theorem after_concat (w : PushWorld) (ops : List PushOp) (op : PushOp) :
    w.after (ops ++ [op]) = (w.after ops).next op := by
  simp [after]

end PushWorld

end VerityBackend.Notifications
