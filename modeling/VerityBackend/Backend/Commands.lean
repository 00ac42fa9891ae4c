/-
VerityBackend.Backend.Commands — every command the services await, and
what it does to the world.

One constructor is one Redis command (a `MULTI … EXEC` block counts as one,
it is atomic), one Prisma call (a `$transaction` counts as one, likewise)
or one stretch of synchronous code of a process. Redis commands do not
fail here; Prisma calls fail where a constraint of the schema is violated,
with the error code of Prisma. `exec` leaves the world of a failed call as
it was.
-/
import VerityBackend.Async.Proc
import VerityBackend.Backend.Reveal
import VerityBackend.Backend.Tokens

namespace VerityBackend

open Store Async

/-! ## What leaves the backend -/

/-- `partnerAnonymousId`: the first 12 digits of the SHA-256 of
`<sessionId>:<userId>`, kept as the pair that is hashed. -/
structure AnonymousId where
  sessionId : SessionId
  userId : UserId
  deriving DecidableEq, Repr

inductive EndReason where
  | timeout
  | ended
  | token_error
  deriving DecidableEq, Repr

structure ChatMessagePayload where
  id : String
  matchId : MatchId
  senderId : UserId
  text : String
  createdAt : Nat
  deriving DecidableEq, Repr

inductive PushEventType where
  | queue_match_found
  | match_mutual
  | chat_message_new
  | chat_reveal_required
  deriving DecidableEq, Repr

/-- What synchronous code sends: socket events to the room of a user,
pushes handed to `NotificationsService.notifyUsers`, analytics events, and
the call `void sessionService.handleSessionCreated(session)`. -/
inductive Output where
  | queueMatch (room : UserId) (sessionId : SessionId) (partner : AnonymousId)
      (queueKey : Option QueueKey) (matchedAt : Nat)
  | queueStatus (room : UserId) (usersSearching : Nat)
  | sessionStart (room : UserId) (sessionId : SessionId) (channelName : String)
      (tokens : UserTokens) (startAt endAt expiresAt durationSeconds : Nat)
  | sessionEnd (room : UserId) (sessionId : SessionId) (reason : EndReason) (endedAt : Nat)
  | matchMutual (room : UserId) (sessionId : SessionId) (matchId : MatchId)
      (partnerReveal : Option PartnerReveal)
  | matchNonMutual (room : UserId) (sessionId : SessionId)
  | messageNew (room : UserId) (payload : ChatMessagePayload)
  | moderationAction (room : UserId) (action : String) (reason : JsonField)
  | push (users : List UserId) (event : PushEventType) (data : List (String × JsonField))
  | track (userId : UserId) (name : String) (properties : List (String × JsonField))
  | sessionCreated (session : Session)
  deriving DecidableEq, Repr

/-! ## Redis commands -/

inductive RedisCmd where
  | get (k : RedisKey)
  | mget (k₁ k₂ : RedisKey)
  | set (k : RedisKey) (v : RedisString) (ttl : Option Nat)
  | setNX (k : RedisKey) (v : RedisString) (ttl : Nat)
  | del (ks : List RedisKey)
  | releaseLock (k : RedisKey) (v : RedisString)
  | hget (id : SessionId) (user : UserId)
  | hset (id : SessionId) (user : UserId) (choice : SessionChoice)
  | hmget (id : SessionId) (user₁ user₂ : UserId)
  | pexpireChoices (id : SessionId) (ttl : Nat)
  | zadd (q : QueueKey) (xs : List (Ranked UserId))
  | zrem (q : QueueKey) (user : UserId)
  | zpopmin (q : QueueKey) (count : Nat)
  | zcard (q : QueueKey)
  | zrank (q : QueueKey) (user : UserId)
  | zrange (q : QueueKey)
  | srem (q : QueueKey)
  | smembers
  | multiJoin (q : QueueKey) (user : UserId) (joinedAt : Nat) (state : RedisString)
  | multiMarkMatched (userA userB : UserId) (sessionId : SessionId) (ttl : Nat)
  | scanSessionStates
  | scanChoiceDeadlines
  deriving DecidableEq, Repr

/-- Answers. `set` and `del` are awaited for their effect; `setNX` says
whether the key was set, `zrem` how many members were removed, `multiJoin`
whether `EXEC` returned results. -/
abbrev RedisCmd.Res : RedisCmd → Type
  | .get _ => Option RedisString
  | .mget _ _ => Option RedisString × Option RedisString
  | .set _ _ _ => Unit
  | .setNX _ _ _ => Bool
  | .del _ => Unit
  | .releaseLock _ _ => Unit
  | .hget _ _ => Option SessionChoice
  | .hset _ _ _ => Unit
  | .hmget _ _ _ => Option SessionChoice × Option SessionChoice
  | .pexpireChoices _ _ => Unit
  | .zadd _ _ => Unit
  | .zrem _ _ => Nat
  | .zpopmin _ _ => List (Ranked UserId)
  | .zcard _ => Nat
  | .zrank _ _ => Option Nat
  | .zrange _ => List UserId
  | .srem _ => Unit
  | .smembers => List QueueKey
  | .multiJoin _ _ _ _ => Bool
  | .multiMarkMatched _ _ _ _ => Unit
  | .scanSessionStates => List SessionId
  | .scanChoiceDeadlines => List SessionId

/-! ### Their effect -/

namespace World

def mapRedis (w : World) (f : Redis → Redis) : World := { w with redis := f w.redis }

def zset (w : World) (q : QueueKey) : SortedSet UserId := w.redis.zsets q

/-- Replace one sorted set. -/
def setZset (w : World) (q : QueueKey) (z : SortedSet UserId) : World :=
  w.mapRedis fun r => { r with zsets := fun q' => if q' = q then z else r.zsets q' }

/-- `SADD queue:keys`. -/
def sadd (w : World) (q : QueueKey) : World :=
  w.mapRedis fun r => { r with queueKeys := r.queueKeys.insert q }

/-- `SREM queue:keys`. -/
def srem (w : World) (q : QueueKey) : World :=
  w.mapRedis fun r => { r with queueKeys := r.queueKeys.filter (· ≠ q) }

/-- The fields of a choice hash a reader sees. -/
def choices (w : World) (id : SessionId) : List (UserId × SessionChoice) :=
  (w.redis.choices.get w.clock id).getD []

/-- `HGET`. -/
def choice (w : World) (id : SessionId) (user : UserId) : Option SessionChoice :=
  (w.choices id).lookup user

/-- `HSET`: a field is replaced, the expiry of the hash stays. -/
def setChoice (w : World) (id : SessionId) (user : UserId) (c : SessionChoice) : World :=
  let hash : Stamped (List (UserId × SessionChoice)) :=
    { val := (user, c) :: (w.choices id).filter (·.1 ≠ user)
      expiresAt := (w.redis.choices.entry w.clock id).bind (·.expiresAt) }
  w.mapRedis fun r => { r with choices := r.choices.put id hash }

/-- `PEXPIRE`. -/
def expireChoices (w : World) (id : SessionId) (ttl : Nat) : World :=
  match w.redis.choices.entry w.clock id with
  | none => w
  | some e =>
      w.mapRedis fun r => { r with choices := r.choices.put id ⟨e.val, some (w.clock + ttl)⟩ }

theorem choices_def (w : World) (id : SessionId) :
    w.choices id = ((w.redis.choices.entry w.clock id).map (·.val)).getD [] := rfl

/-- A positive time to live hides nothing yet. -/
theorem choices_expireChoices (w : World) (id id' : SessionId) {ttl : Nat} (h : 0 < ttl) :
    (w.expireChoices id ttl).choices id' = w.choices id' := by
  cases he : w.redis.choices.entry w.clock id with
  | none => simp only [expireChoices, he]
  | some e =>
      simp only [expireChoices, he, choices_def, mapRedis]
      by_cases hid : id' = id
      · subst hid
        have halive : (⟨e.val, some (w.clock + ttl)⟩ : Stamped _).alive w.clock = true := by
          simp only [Stamped.alive, decide_eq_true_eq]
          omega
        rw [Keyspace.entry_put_self _ _ _ halive, he]
        rfl
      · rw [Keyspace.entry_put_ne _ _ _ hid]

theorem choices_setChoice_self (w : World) (id : SessionId) (user : UserId)
    (c : SessionChoice) :
    (w.setChoice id user c).choices id = (user, c) :: (w.choices id).filter (·.1 ≠ user) := by
  simp only [setChoice, choices_def, mapRedis]
  rw [Keyspace.entry_put_self]
  · rfl
  · cases he : w.redis.choices.entry w.clock id with
    | none => rfl
    | some e =>
        have halive := Keyspace.alive_of_entry he
        simpa only [Stamped.alive, Option.bind_some] using halive

theorem choices_setChoice_ne (w : World) {id id' : SessionId} (user : UserId)
    (c : SessionChoice) (h : id' ≠ id) : (w.setChoice id user c).choices id' = w.choices id' := by
  simp only [setChoice, choices_def, mapRedis]
  rw [Keyspace.entry_put_ne _ _ _ h]

theorem choice_setChoice_self (w : World) (id : SessionId) (user : UserId) (c : SessionChoice) :
    (w.setChoice id user c).choice id user = some c := by
  unfold choice
  rw [choices_setChoice_self, List.lookup_cons_self]

theorem choice_setChoice_ne (w : World) (id : SessionId) {user user' : UserId}
    (c : SessionChoice) (h : user' ≠ user) :
    (w.setChoice id user c).choice id user' = w.choice id user' := by
  unfold choice
  rw [choices_setChoice_self, List.lookup_cons, beq_false_of_ne h]
  induction w.choices id with
  | nil => rfl
  | cons p rest ih =>
      by_cases hp : p.1 = user
      · rw [List.filter_cons_of_neg (by simp [hp]), List.lookup_cons,
          beq_false_of_ne (by rw [hp]; exact h)]
        exact ih
      · rw [List.filter_cons_of_pos (by simp [hp]), List.lookup_cons, List.lookup_cons]
        cases hb : user' == p.1 with
        | true => rfl
        | false => simpa only using ih

end World

/-- The sessions whose key of a kind a full scan returns. -/
def scanFor (w : World) (f : RedisKey → Option SessionId) : List SessionId :=
  (w.redis.strings.keys w.clock).filterMap f

def RedisKey.stateOf : RedisKey → Option SessionId
  | .sessionState id => some id
  | _ => none

def RedisKey.choiceDeadlineOf : RedisKey → Option SessionId
  | .sessionChoiceDeadline id => some id
  | _ => none

def RedisCmd.exec : (c : RedisCmd) → World → c.Res × World
  | .get k, w => (w.get k, w)
  | .mget k₁ k₂, w => ((w.get k₁, w.get k₂), w)
  | .set k v ttl, w => ((), w.set k v ttl)
  | .setNX k v ttl, w =>
      match w.get k with
      | some _ => (false, w)
      | none => (true, w.set k v (some ttl))
  | .del ks, w => ((), ks.foldl World.del w)
  | .releaseLock k v, w => ((), if w.get k = some v then w.del k else w)
  | .hget id user, w => (w.choice id user, w)
  | .hset id user c, w => ((), w.setChoice id user c)
  | .hmget id user₁ user₂, w => ((w.choice id user₁, w.choice id user₂), w)
  | .pexpireChoices id ttl, w => ((), w.expireChoices id ttl)
  | .zadd q xs, w => ((), w.setZset q ((w.zset q).zaddAll xs))
  | .zrem q user, w =>
      (if user ∈ w.zset q then 1 else 0, w.setZset q ((w.zset q).zrem user))
  | .zpopmin q count, w => ((w.zset q).lowest count, w.setZset q ((w.zset q).zpopmin count))
  | .zcard q, w => ((w.zset q).zcard, w)
  | .zrank q user, w => ((w.zset q).zrank user, w)
  | .zrange q, w => ((w.zset q).members, w)
  | .srem q, w => ((), w.srem q)
  | .smembers, w => (w.redis.queueKeys, w)
  | .multiJoin q user joinedAt state, w =>
      (true, ((w.setZset q ((w.zset q).zadd joinedAt user)).set (.queueUser user) state none).sadd q)
  | .multiMarkMatched userA userB sessionId ttl, w =>
      ((), (((w.del (.queueUser userA)).del (.queueUser userB)).set
        (.queueMatched userA) (.text sessionId) (some ttl)).set
        (.queueMatched userB) (.text sessionId) (some ttl))
  | .scanSessionStates, w => (scanFor w RedisKey.stateOf, w)
  | .scanChoiceDeadlines, w => (scanFor w RedisKey.choiceDeadlineOf, w)

/-! ## Prisma calls -/

/-- The column of a participant of a match. -/
inductive Side where
  | A
  | B
  deriving DecidableEq, Repr

inductive DbCmd where
  | sessionFindUnique (id : SessionId)
  | sessionCreate (userAId userBId : UserId) (region : Option String) (queueKey : Option QueueKey)
  | sessionDeleteMany (cutoff : Nat)
  | matchUpsert (userAId userBId : UserId)
  | matchFindUnique (id : MatchId)
  | matchFindWithUsers (id : MatchId)
  | matchFindMany (userId : UserId)
  | matchAcknowledge (id : MatchId) (side : Side) (now : Nat)
  | userFindUnique (id : UserId)
  | userFindMany (ids : List UserId)
  | userDebit (id : UserId)
  | userRefund (id : UserId)
  | blockFindFirst (userAId userBId : UserId)
  | blockFindUnique (blockerId blockedId : UserId)
  | blockFindMany (userId : UserId)
  | blockCreate (blockerId blockedId : UserId)
  | blockReopen (id : String)
  | blockLift (id : String) (now : Nat)
  | reportCount (reporterId : UserId) (since : Nat)
  | reportTransaction (reporterId reportedUserId : UserId) (reason : String)
      (details : Option String)
  | reportUpdate (id : String) (status : String)
  | moderationEventCreate (userId : UserId)
  | moderationEventCount (userId : UserId) (since : Nat)
  | tokenTransactionFindUnique (stripeEventId : String)
  | creditTransaction (userId : UserId) (packId : String) (tokens : Nat)
      (stripeSessionId stripeEventId : String)
  | messageCount (matchId : MatchId)
  | messageFindMany (matchId : MatchId) (take : Nat)
  | messageCreate (matchId : MatchId) (senderId : UserId) (text : String)
  | refreshTokenFindUnique (id : String)
  | refreshTokenCreate (row : RefreshToken)
  | refreshTokenRevokeFamily (familyId : String) (now : Nat)
  | refreshTokenRevokeUser (userId : UserId) (now : Nat)
  | refreshTokenRevoke (id : String) (now : Nat)
  | refreshTokenRotate (cfg : AuthConfig) (stored : RefreshToken) (sub fid : String)
      (now : Nat) (userAgent ipAddress : Option String)

/-- Answers. `userDebit`, `sessionDeleteMany` and the revocations answer with
a row count, `blockFindFirst` with the id of an unlifted block between the
two users, `blockFindMany` with the unlifted blocks of a user. -/
abbrev DbCmd.Res : DbCmd → Type
  | .sessionFindUnique _ => Option Session
  | .sessionCreate _ _ _ _ => Session
  | .sessionDeleteMany _ => Nat
  | .matchUpsert _ _ => Match
  | .matchFindUnique _ => Option Match
  | .matchFindWithUsers _ => Option (Match × User × User)
  | .matchFindMany _ => List Match
  | .matchAcknowledge _ _ _ => Unit
  | .userFindUnique _ => Option User
  | .userFindMany _ => List (UserId × User)
  | .userDebit _ => Nat
  | .userRefund _ => Unit
  | .blockFindFirst _ _ => Option String
  | .blockFindUnique _ _ => Option Block
  | .blockFindMany _ => List Block
  | .blockCreate _ _ => Block
  | .blockReopen _ => Block
  | .blockLift _ _ => Unit
  | .reportCount _ _ => Nat
  | .reportTransaction _ _ _ _ => ModerationReport
  | .reportUpdate _ _ => ModerationReport
  | .moderationEventCreate _ => Unit
  | .moderationEventCount _ _ => Nat
  | .tokenTransactionFindUnique _ => Option TokenTransaction
  | .creditTransaction _ _ _ _ _ => Unit
  | .messageCount _ => Nat
  | .messageFindMany _ _ => List Message
  | .messageCreate _ _ _ => Message
  | .refreshTokenFindUnique _ => Option RefreshToken
  | .refreshTokenCreate _ => Unit
  | .refreshTokenRevokeFamily _ _ => Nat
  | .refreshTokenRevokeUser _ _ => Nat
  | .refreshTokenRevoke _ _ => Unit
  | .refreshTokenRotate _ _ _ _ _ _ _ => IssuedTokens

/-! ### Their effect -/

/-- `liftedAt: null`, and the two users in either direction. -/
def Block.isBetween (b : Block) (x y : UserId) : Bool :=
  b.liftedAt.isNone &&
    ((b.blockerId == x && b.blockedId == y) || (b.blockerId == y && b.blockedId == x))

namespace Db

def hasUser (d : Db) (id : UserId) : Bool := (d.users id).isSome

def setUser (d : Db) (id : UserId) (u : User) : Db :=
  { d with users := fun id' => if id' = id then some u else d.users id' }

/-- The Match row with these two columns. -/
def findMatch (d : Db) (userAId userBId : UserId) : Option Match :=
  d.matchRows.find? fun m => m.userAId = userAId ∧ m.userBId = userBId

def findBlockBetween (d : Db) (x y : UserId) : Option Block :=
  d.blocks.find? (·.isBetween x y)

def findBlock (d : Db) (blockerId blockedId : UserId) : Option Block :=
  d.blocks.find? fun b => b.blockerId = blockerId ∧ b.blockedId = blockedId

/-- `update({ where: { id }, data: { liftedAt: null } })`. -/
def reopenBlock (d : Db) (id : String) : Db :=
  { d with blocks := d.blocks.map fun b => if b.id = id then { b with liftedAt := none } else b }

/-- `update({ where: { id }, data: { liftedAt: now } })`. -/
def liftBlock (d : Db) (id : String) (now : Nat) : Db :=
  { d with
    blocks := d.blocks.map fun b => if b.id = id then { b with liftedAt := some now } else b }

/-- `update({ where: { id }, data })` with the acknowledgement of one side. -/
def acknowledge (d : Db) (id : MatchId) (side : Side) (now : Nat) : Db :=
  { d with
    matchRows := d.matchRows.map fun m =>
      if m.id = id then
        match side with
        | .A => { m with userARevealAcknowledgedAt := some now }
        | .B => { m with userBRevealAcknowledgedAt := some now }
      else m }

/-- `orderBy: { createdAt: 'desc' }`. -/
def latestFirst {α : Type} (createdAt : α → Nat) (rows : List α) : List α :=
  rows.insertionSort fun x y => createdAt y ≤ createdAt x

/-- `update({ where: { id }, data: { status } })` on a report. -/
def setReportStatus (d : Db) (id : String) (status : String) : Db :=
  { d with reports := d.reports.map fun r => if r.id = id then { r with status := status } else r }

end Db

/-- The largest value of an `Int` column. -/
def INT_MAX : Nat := 2147483647

/-- `TokenTransaction` rows that `stripeEventId` or `stripeSessionId`
forbids a second one of. -/
def TokenTransaction.clashes (stripeSessionId stripeEventId : String) (t : TokenTransaction) : Bool :=
  t.stripeSessionId == some stripeSessionId || t.stripeEventId == some stripeEventId

/-- `{ revokedAt: now, lastUsedAt: now }` on the rows that satisfy `p` and
are not revoked yet. -/
def revokeWhere (p : RefreshToken → Bool) (now : Nat) (rows : List RefreshToken) :
    List RefreshToken :=
  rows.map fun t =>
    if p t && t.revokedAt.isNone then { t with revokedAt := some now, lastUsedAt := some now } else t

/-- How many rows `revokeWhere` changes. -/
def countActive (p : RefreshToken → Bool) (rows : List RefreshToken) : Nat :=
  rows.countP fun t => p t && t.revokedAt.isNone

/-- `refreshToken.create`: the primary key, the unique `tokenHash` and the
reference to the user are checked. -/
def insertRefreshToken (d : Db) (row : RefreshToken) : Except Err Db :=
  if d.refreshTokens.any fun t => t.id = row.id ∨ t.tokenHash = row.tokenHash then
    .error (.prisma "P2002")
  else if !d.hasUser row.userId then .error (.prisma "P2003")
  else .ok { d with refreshTokens := d.refreshTokens ++ [row] }

/-- The body of the rotation transaction of `refreshSession`. -/
def rotateRefreshToken (cfg : AuthConfig) (clock : Nat) (nextTokenId : String)
    (stored : RefreshToken) (sub fid : String) (now : Nat) (userAgent ipAddress : Option String)
    (d : Db) : Except Err (IssuedTokens × Db) := do
  let nextToken := cfg.signRefreshToken clock sub fid nextTokenId
  let unused (t : RefreshToken) : Bool := t.id == stored.id && t.revokedAt.isNone
  let updated := d.refreshTokens.map fun t =>
    if unused t then
      { t with revokedAt := some now, replacedById := some nextTokenId, lastUsedAt := some now }
    else t
  if d.refreshTokens.countP unused ≠ 1 then throw .refreshReuse
  let d' ← insertRefreshToken { d with refreshTokens := updated }
    { id := nextTokenId
      userId := sub
      tokenHash := cfg.hashToken nextToken
      familyId := stored.familyId
      expiresAt := refreshExpiry now
      revokedAt := none
      replacedById := none
      userAgent := userAgent
      ipAddress := ipAddress
      lastUsedAt := some now
      createdAt := now }
  match d.users sub with
  | none => throw (.unauthorized "User not found")
  | some user => return (⟨cfg.signAccessToken clock sub user.role, nextToken⟩, d')

namespace World

def mapDb (w : World) (f : Db → Db) : World := { w with db := f w.db }

/-- Insert a row that takes the next identifier. -/
def create {α : Type} (w : World) (row : α) (insert : Db → Db) : Except Err α × World :=
  (.ok row, { w with db := insert w.db, nextId := w.nextId + 1 })

end World

def DbCmd.exec : (c : DbCmd) → World → Except Err c.Res × World
  | .sessionFindUnique id, w => (.ok (w.db.sessions.find? (·.id = id)), w)
  | .sessionCreate userAId userBId region queueKey, w =>
      if w.db.hasUser userAId && w.db.hasUser userBId then
        let row : Session :=
          ⟨freshId w.nextId, userAId, userBId, region, queueKey, w.clock⟩
        w.create row fun d => { d with sessions := d.sessions ++ [row] }
      else (.error (.prisma "P2003"), w)
  | .sessionDeleteMany cutoff, w =>
      (.ok (w.db.sessions.countP (·.createdAt < cutoff)),
        w.mapDb fun d => { d with sessions := d.sessions.filter (cutoff ≤ ·.createdAt) })
  | .matchUpsert userAId userBId, w =>
      match w.db.findMatch userAId userBId with
      | some m => (.ok m, w)
      | none =>
          if w.db.hasUser userAId && w.db.hasUser userBId then
            let row : Match := ⟨freshId w.nextId, userAId, userBId, w.clock, none, none⟩
            w.create row fun d => { d with matchRows := d.matchRows ++ [row] }
          else (.error (.prisma "P2003"), w)
  | .matchFindUnique id, w => (.ok (w.db.matchRows.find? (·.id = id)), w)
  | .matchFindWithUsers id, w =>
      match w.db.matchRows.find? (·.id = id) with
      | none => (.ok none, w)
      | some m =>
          -- the foreign keys of the row see to it that both users exist
          match w.db.users m.userAId, w.db.users m.userBId with
          | some userA, some userB => (.ok (some (m, userA, userB)), w)
          | _, _ => (.error (.prisma "P2025"), w)
  | .matchFindMany userId, w =>
      (.ok (Db.latestFirst (·.createdAt)
        (w.db.matchRows.filter fun m => m.userAId = userId ∨ m.userBId = userId)), w)
  | .matchAcknowledge id side now, w =>
      if w.db.matchRows.any (·.id = id) then (.ok (), w.mapDb (·.acknowledge id side now))
      else (.error (.prisma "P2025"), w)
  | .userFindUnique id, w => (.ok (w.db.users id), w)
  | .userFindMany ids, w => (.ok (ids.filterMap fun id => (w.db.users id).map fun u => (id, u)), w)
  | .userDebit id, w =>
      match w.db.users id with
      | some u =>
          if 1 ≤ u.tokenBalance then
            (.ok 1, w.mapDb (·.setUser id { u with tokenBalance := u.tokenBalance - 1 }))
          else (.ok 0, w)
      | none => (.ok 0, w)
  | .userRefund id, w =>
      match w.db.users id with
      | some u => (.ok (), w.mapDb (·.setUser id { u with tokenBalance := u.tokenBalance + 1 }))
      | none => (.error (.prisma "P2025"), w)
  | .blockFindFirst userAId userBId, w =>
      (.ok ((w.db.findBlockBetween userAId userBId).map (·.id)), w)
  | .blockFindUnique blockerId blockedId, w => (.ok (w.db.findBlock blockerId blockedId), w)
  | .blockFindMany userId, w =>
      (.ok (w.db.blocks.filter fun b =>
        b.liftedAt.isNone ∧ (b.blockerId = userId ∨ b.blockedId = userId)), w)
  | .blockCreate blockerId blockedId, w =>
      if (w.db.findBlock blockerId blockedId).isSome then (.error (.prisma "P2002"), w)
      else if w.db.hasUser blockerId && w.db.hasUser blockedId then
        let row : Block := ⟨freshId w.nextId, blockerId, blockedId, w.clock, none⟩
        w.create row fun d => { d with blocks := d.blocks ++ [row] }
      else (.error (.prisma "P2003"), w)
  | .blockReopen id, w =>
      match w.db.blocks.find? (·.id = id) with
      | some b => (.ok { b with liftedAt := none }, w.mapDb (·.reopenBlock id))
      | none => (.error (.prisma "P2025"), w)
  | .reportCount reporterId since, w =>
      (.ok (w.db.reports.countP fun r => r.reporterId = reporterId ∧ since ≤ r.createdAt), w)
  | .reportTransaction reporterId reportedUserId reason details, w =>
      if w.db.hasUser reporterId && w.db.hasUser reportedUserId then
        let report : ModerationReport :=
          ⟨freshId w.nextId, w.clock, reporterId, reportedUserId, reason, details, "OPEN"⟩
        let d := { w.db with reports := w.db.reports ++ [report] }
        let d' := match w.db.findBlock reporterId reportedUserId with
          | none =>
              { d with blocks := d.blocks ++
                  [⟨freshId (w.nextId + 1), reporterId, reportedUserId, w.clock, none⟩] }
          | some b => if b.liftedAt.isSome then d.reopenBlock b.id else d
        (.ok report, { w with db := d', nextId := w.nextId + 2 })
      else (.error (.prisma "P2003"), w)
  | .blockLift id now, w =>
      if w.db.blocks.any (·.id = id) then (.ok (), w.mapDb (·.liftBlock id now))
      else (.error (.prisma "P2025"), w)
  | .reportUpdate id status, w =>
      match w.db.reports.find? (·.id = id) with
      | some r => (.ok { r with status := status }, w.mapDb (·.setReportStatus id status))
      | none => (.error (.prisma "P2025"), w)
  | .moderationEventCreate userId, w =>
      if w.db.hasUser userId then
        let row : ModerationEvent := ⟨freshId w.nextId, w.clock, userId⟩
        (.ok (), (w.create row fun d => { d with moderationEvents := d.moderationEvents ++ [row] }).2)
      else (.error (.prisma "P2003"), w)
  | .moderationEventCount userId since, w =>
      (.ok (w.db.moderationEvents.countP fun e => e.userId = userId ∧ since ≤ e.createdAt), w)
  | .tokenTransactionFindUnique stripeEventId, w =>
      (.ok (w.db.tokenTransactions.find? (·.stripeEventId = some stripeEventId)), w)
  | .creditTransaction userId packId tokens stripeSessionId stripeEventId, w =>
      -- the row lock of the update and the unique indexes make a second writer
      -- wait, so both statements take effect where the transaction commits
      match w.db.users userId with
      | none => (.error (.prisma "P2025"), w)
      | some u =>
          let balanceAfter := u.tokenBalance + tokens
          if INT_MAX < balanceAfter then (.error (.prisma "P2020"), w)
          else if w.db.tokenTransactions.any (·.clashes stripeSessionId stripeEventId) then
            (.error (.prisma "P2002"), w)
          else
            let row : TokenTransaction :=
              ⟨freshId w.nextId, w.clock, userId, .CREDIT, tokens, balanceAfter,
                some stripeSessionId, some stripeEventId, (packId, tokens)⟩
            (.ok (), (w.create row fun d =>
              { d.setUser userId { u with tokenBalance := balanceAfter } with
                tokenTransactions := d.tokenTransactions ++ [row] }).2)
  | .messageCount matchId, w => (.ok (w.db.messages.countP (·.matchId = matchId)), w)
  | .messageFindMany matchId take, w =>
      (.ok ((Db.latestFirst (·.createdAt) (w.db.messages.filter (·.matchId = matchId))).take take), w)
  | .messageCreate matchId senderId text, w =>
      if w.db.matchRows.any (·.id = matchId) && w.db.hasUser senderId then
        let row : Message := ⟨freshId w.nextId, w.clock, matchId, senderId, text⟩
        w.create row fun d => { d with messages := d.messages ++ [row] }
      else (.error (.prisma "P2003"), w)
  | .refreshTokenFindUnique id, w => (.ok (w.db.refreshTokens.find? (·.id = id)), w)
  | .refreshTokenCreate row, w =>
      match insertRefreshToken w.db row with
      | .ok d => (.ok (), { w with db := d })
      | .error e => (.error e, w)
  | .refreshTokenRevokeFamily familyId now, w =>
      (.ok (countActive (·.familyId = familyId) w.db.refreshTokens),
        w.mapDb fun d =>
          { d with refreshTokens := revokeWhere (·.familyId = familyId) now d.refreshTokens })
  | .refreshTokenRevokeUser userId now, w =>
      (.ok (countActive (·.userId = userId) w.db.refreshTokens),
        w.mapDb fun d =>
          { d with refreshTokens := revokeWhere (·.userId = userId) now d.refreshTokens })
  | .refreshTokenRevoke id now, w =>
      if w.db.refreshTokens.any (·.id = id) then
        (.ok (), w.mapDb fun d =>
          { d with refreshTokens := d.refreshTokens.map fun t =>
              if t.id = id then { t with revokedAt := some now, lastUsedAt := some now } else t })
      else (.error (.prisma "P2025"), w)
  | .refreshTokenRotate cfg stored sub fid now userAgent ipAddress, w =>
      match rotateRefreshToken cfg w.clock (freshId w.nextId) stored sub fid now userAgent
          ipAddress w.db with
      | .ok (tokens, d) => (.ok tokens, { w with db := d, nextId := w.nextId + 1 })
      | .error e => (.error e, { w with nextId := w.nextId + 1 })

/-! ## Synchronous code of a process -/

inductive HostCmd where
  | now
  | randomUUID
  | emit (os : List Output)
  | buildSessionTokens (id : SessionId) (userAId userBId : UserId)
  | scheduleSessionEnd (self : Instance) (id : SessionId) (userAId userBId : UserId) (endAt : Nat)
  | clearSessionEnd (self : Instance) (id : SessionId)
  | scheduleChoiceTimeout (self : Instance) (id : SessionId) (userAId userBId : UserId)
      (deadline : Nat)
  | clearChoiceTimeout (self : Instance) (id : SessionId)
  deriving DecidableEq, Repr

abbrev HostCmd.Res : HostCmd → Type
  | .now => Nat
  | .randomUUID => String
  | .buildSessionTokens _ _ _ => SessionTokens
  | .emit _ => Unit
  | .scheduleSessionEnd _ _ _ _ _ => Unit
  | .clearSessionEnd _ _ => Unit
  | .scheduleChoiceTimeout _ _ _ _ _ => Unit
  | .clearChoiceTimeout _ _ => Unit

/-- Replace one entry of a timer map. -/
def setTimer (m : Instance → SessionId → Option Timer) (self : Instance) (id : SessionId)
    (t : Option Timer) : Instance → SessionId → Option Timer :=
  fun self' id' => if self' = self ∧ id' = id then t else m self' id'

/-- A timer replaces the one of its session and fires no earlier than
now: the delay is `Math.max(0, at - Date.now())`. -/
def HostCmd.exec : (c : HostCmd) → World → Except Err c.Res × World
  | .now, w => (.ok w.clock, w)
  | .randomUUID, w => (.ok (freshId w.nextId), { w with nextId := w.nextId + 1 })
  | .emit _, w => (.ok (), w)
  | .buildSessionTokens id userAId userBId, w => (w.video id userAId userBId, w)
  | .scheduleSessionEnd self id userAId userBId endAt, w =>
      let timer : Timer := ⟨userAId, userBId, max endAt w.clock⟩
      (.ok (), { w with timers := setTimer w.timers self id (some timer) })
  | .clearSessionEnd self id, w =>
      (.ok (), { w with timers := setTimer w.timers self id none })
  | .scheduleChoiceTimeout self id userAId userBId deadline, w =>
      let timer : Timer := ⟨userAId, userBId, max deadline w.clock⟩
      (.ok (), { w with choiceTimers := setTimer w.choiceTimers self id (some timer) })
  | .clearChoiceTimeout self id, w =>
      (.ok (), { w with choiceTimers := setTimer w.choiceTimers self id none })

/-! ## All commands -/

inductive Cmd where
  | redis (c : RedisCmd)
  | db (c : DbCmd)
  | host (c : HostCmd)

abbrev Cmd.Res : Cmd → Type
  | .redis c => c.Res
  | .db c => c.Res
  | .host c => c.Res

def Cmd.exec : (c : Cmd) → World → Except Err c.Res × World
  | .redis c, w => (.ok (c.exec w).1, (c.exec w).2)
  | .db c, w => c.exec w
  | .host c, w => c.exec w

@[simp] theorem Cmd.exec_redis (c : RedisCmd) (w : World) :
    (Cmd.redis c).exec w = (.ok (c.exec w).1, (c.exec w).2) := rfl

@[simp] theorem Cmd.exec_db (c : DbCmd) (w : World) : (Cmd.db c).exec w = c.exec w := rfl

@[simp] theorem Cmd.exec_host (c : HostCmd) (w : World) : (Cmd.host c).exec w = c.exec w := rfl

/-- An `async` function of the backend. -/
abbrev Prog (α : Type) := Proc Cmd Cmd.Res Err α

abbrev redis (c : RedisCmd) : Prog c.Res := Proc.await (Cmd.redis c)

abbrev prisma (c : DbCmd) : Prog c.Res := Proc.await (Cmd.db c)

abbrev host (c : HostCmd) : Prog c.Res := Proc.await (Cmd.host c)

end VerityBackend
