/-
VerityBackend.Backend.World — what the services share: Redis, the
database, the clock and the timers of each process.

Redis keys are typed by their prefix (`session:decision:<id>` is
`RedisKey.sessionDecision id`), so two keys are equal exactly when the
strings are: identifiers contain no colon, and the SHA-256 of
`<timestamp>:<signature>` in `moderation:hive:webhook:<hash>` is kept as the
pair that is hashed. Table rows carry the columns the
modelled services read or write. `World.users` is a partial function,
every other table is the list of its rows.
-/
import VerityBackend.Backend.Values
import VerityBackend.Store.Keyspace
import VerityBackend.Store.SortedSet
import Mathlib.Data.String.Basic

namespace VerityBackend

open Store

/-! ## Redis -/

inductive RedisKey where
  | sessionState (id : SessionId)
  | sessionActive (user : UserId)
  | sessionLock (id : SessionId)
  | sessionEnded (id : SessionId)
  | sessionChoiceDeadline (id : SessionId)
  | sessionDecision (id : SessionId)
  | queueUser (user : UserId)
  | queueLock (user : UserId)
  | queueMatched (user : UserId)
  | moderationBan (user : UserId)
  | moderationBanCooldown (user : UserId)
  | hiveWebhook (timestamp signature : String)
  | userReports (user : UserId)
  deriving DecidableEq, Repr

/-- `choices` holds the hashes `session:choice:<id>`, `zsets` the sorted
sets `queue:zset:<queueKey>`, `queueKeys` the set `queue:keys`. -/
structure Redis where
  strings : Keyspace RedisKey RedisString
  choices : Keyspace SessionId (List (UserId × SessionChoice))
  zsets : QueueKey → SortedSet UserId
  queueKeys : List QueueKey

def Redis.empty : Redis where
  strings := []
  choices := []
  zsets := fun _ => .empty
  queueKeys := []

/-! ## The database -/

/-- `photos` is `none` where the JSON column is not an array. -/
structure User where
  role : UserRole
  tokenBalance : Nat
  displayName : Option String
  photos : Option (List JsonField)
  age : Option Nat
  bio : Option String
  deriving DecidableEq, Repr

structure Session where
  id : SessionId
  userAId : UserId
  userBId : UserId
  region : Option String
  queueKey : Option QueueKey
  createdAt : Nat
  deriving DecidableEq, Repr

structure Match where
  id : MatchId
  userAId : UserId
  userBId : UserId
  createdAt : Nat
  userARevealAcknowledgedAt : Option Nat
  userBRevealAcknowledgedAt : Option Nat
  deriving DecidableEq, Repr

structure Message where
  id : String
  createdAt : Nat
  matchId : MatchId
  senderId : UserId
  text : String
  deriving DecidableEq, Repr

structure Block where
  id : String
  blockerId : UserId
  blockedId : UserId
  createdAt : Nat
  liftedAt : Option Nat
  deriving DecidableEq, Repr

structure ModerationReport where
  id : String
  createdAt : Nat
  reporterId : UserId
  reportedUserId : UserId
  reason : String
  details : Option String
  status : String
  deriving DecidableEq, Repr

structure ModerationEvent where
  id : String
  createdAt : Nat
  userId : UserId
  deriving DecidableEq, Repr

inductive TokenTransactionType where
  | CREDIT
  | DEBIT
  deriving DecidableEq, Repr

/-- `metadata` holds the pack and the number of tokens bought. -/
structure TokenTransaction where
  id : String
  createdAt : Nat
  userId : UserId
  type : TokenTransactionType
  amount : Nat
  balanceAfter : Nat
  stripeSessionId : Option String
  stripeEventId : Option String
  metadata : String × Nat
  deriving DecidableEq, Repr

structure RefreshToken where
  id : String
  userId : UserId
  tokenHash : String
  familyId : String
  expiresAt : Nat
  revokedAt : Option Nat
  replacedById : Option String
  userAgent : Option String
  ipAddress : Option String
  lastUsedAt : Option Nat
  createdAt : Nat
  deriving DecidableEq, Repr

structure Db where
  users : UserId → Option User
  sessions : List Session
  matchRows : List Match
  messages : List Message
  blocks : List Block
  reports : List ModerationReport
  moderationEvents : List ModerationEvent
  tokenTransactions : List TokenTransaction
  refreshTokens : List RefreshToken

def Db.empty : Db where
  users := fun _ => none
  sessions := []
  matchRows := []
  messages := []
  blocks := []
  reports := []
  moderationEvents := []
  tokenTransactions := []
  refreshTokens := []

/-! ## Processes -/

/-- A `setTimeout` for a session, armed to fire at `fireAt`. -/
structure Timer where
  userAId : UserId
  userBId : UserId
  fireAt : Nat
  deriving DecidableEq, Repr

/-- The Agora tokens of one user. -/
structure UserTokens where
  rtcToken : String
  rtcUid : Nat
  rtmToken : String
  rtmUserId : String
  deriving DecidableEq, Repr

/-- What `VideoService.buildSessionTokens` returns. -/
structure SessionTokens where
  channelName : String
  expiresAt : Nat
  byUser : UserId → UserTokens

/-- `nextId` numbers the identifiers handed out; `video` is
`VideoService.buildSessionTokens`; `timers` and `choiceTimers` are the
maps of those names in each process. -/
structure World where
  clock : Nat
  nextId : Nat
  redis : Redis
  db : Db
  video : SessionId → UserId → UserId → Except Err SessionTokens
  timers : Instance → SessionId → Option Timer
  choiceTimers : Instance → SessionId → Option Timer

/-- What `buildSessionTokens` returns where a world needs some value. -/
def noVideo : SessionId → UserId → UserId → Except Err SessionTokens :=
  fun _ _ _ => .error (.command "video tokens are not configured")

def World.empty : World where
  clock := 0
  nextId := 0
  redis := .empty
  db := .empty
  video := noVideo
  timers := fun _ _ => none
  choiceTimers := fun _ _ => none

/-- A world in which nothing has happened yet, with these users and so
many tokens for each of them. -/
def World.peopled (users : List UserId) (tokenBalance : Nat) : World :=
  let user : User := ⟨.USER, tokenBalance, none, none, none, none⟩
  { World.empty with
    db := { Db.empty with users := fun id => if id ∈ users then some user else none } }

/-- The environment of the backend only lets time pass. -/
inductive Env where
  | tick (ms : Nat)
  deriving DecidableEq, Repr

def World.env : Env → World → World
  | .tick ms, w => { w with clock := w.clock + ms }

/-- No key under which Redis stores a string disappears as time passes. -/
def World.KeysSurvive (w : World) : Env → Prop
  | .tick ms => w.redis.strings.Survives w.clock (w.clock + ms)

instance (w : World) (e : Env) : Decidable (w.KeysSurvive e) :=
  match e with
  | .tick ms => inferInstanceAs (Decidable (w.redis.strings.Survives w.clock (w.clock + ms)))

/-- `GET`, on the world. -/
def World.get (w : World) (k : RedisKey) : Option RedisString :=
  w.redis.strings.get w.clock k

theorem World.get_tick {w : World} {ms : Nat} (h : w.KeysSurvive (.tick ms)) (k : RedisKey) :
    (w.env (.tick ms)).get k = w.get k :=
  Keyspace.get_of_survives (Nat.le_add_right _ _) h k

/-- What is visible later was visible before. -/
theorem World.get_of_get_tick {w : World} {ms : Nat} {k : RedisKey} {r : RedisString}
    (h : (w.env (.tick ms)).get k = some r) : w.get k = some r := by
  obtain ⟨e, he, rfl⟩ := Keyspace.get_eq_some.mp h
  exact Keyspace.get_eq_some.mpr ⟨e, Keyspace.entry_antitone (Nat.le_add_right _ _) he, rfl⟩

/-- `SET`, on the world. -/
def World.set (w : World) (k : RedisKey) (v : RedisString) (ttl : Option Nat) : World :=
  { w with redis := { w.redis with strings := w.redis.strings.set w.clock k v ttl } }

/-- `DEL` of one key, on the world. -/
def World.del (w : World) (k : RedisKey) : World :=
  { w with redis := { w.redis with strings := w.redis.strings.del k } }

section Frames

variable (w : World) (k k' : RedisKey) (v : RedisString) (ttl : Option Nat)

@[simp] theorem World.set_clock : (w.set k v ttl).clock = w.clock := rfl
@[simp] theorem World.set_db : (w.set k v ttl).db = w.db := rfl
@[simp] theorem World.set_nextId : (w.set k v ttl).nextId = w.nextId := rfl
@[simp] theorem World.set_choices : (w.set k v ttl).redis.choices = w.redis.choices := rfl
@[simp] theorem World.set_zsets : (w.set k v ttl).redis.zsets = w.redis.zsets := rfl
@[simp] theorem World.set_queueKeys :
    (w.set k v ttl).redis.queueKeys = w.redis.queueKeys := rfl
@[simp] theorem World.del_clock : (w.del k).clock = w.clock := rfl
@[simp] theorem World.del_db : (w.del k).db = w.db := rfl
@[simp] theorem World.del_nextId : (w.del k).nextId = w.nextId := rfl
@[simp] theorem World.del_choices : (w.del k).redis.choices = w.redis.choices := rfl
@[simp] theorem World.del_zsets : (w.del k).redis.zsets = w.redis.zsets := rfl
@[simp] theorem World.del_queueKeys : (w.del k).redis.queueKeys = w.redis.queueKeys := rfl

variable {w k k' v ttl}

theorem World.get_set_self (h : ∀ t ∈ ttl, 0 < t) : (w.set k v ttl).get k = some v :=
  Keyspace.get_set_self _ _ _ _ h

theorem World.eq_of_get_set {r : RedisString} (h : (w.set k v ttl).get k = some r) : r = v :=
  Keyspace.eq_of_get_set h

theorem World.get_set_ne (h : k' ≠ k) : (w.set k v ttl).get k' = w.get k' :=
  Keyspace.get_set_ne _ _ _ _ _ h

@[simp] theorem World.get_del_self : (w.del k).get k = none :=
  Keyspace.get_del_self _ _ _

theorem World.get_del_ne (h : k' ≠ k) : (w.del k).get k' = w.get k' :=
  Keyspace.get_del_ne _ _ h

end Frames

end VerityBackend
