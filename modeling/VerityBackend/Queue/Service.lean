/-
VerityBackend.Queue.Service — joining, leaving and matching
(`queue/queue.service.ts` and `queue/matching.worker.ts`).

A user in the queue is a member of the sorted set of a queue key and has
the string `queue:user:<id>` that names the key. The worker takes members
out of the set in pairs; what it does with a pair until it is put back,
dropped or matched is `matchPair`. `void handleSessionCreated(session)` is
handed over with `Output.sessionCreated`.
-/
import VerityBackend.Backend.Service

namespace VerityBackend.Queue

open Async Store

def LOCK_TTL_MS : Nat := 3000
def MATCHED_TTL_MS : Nat := 60 * 60 * 1000
def DEFAULT_QUEUE_CITY : String := "canberra"
def MAX_MATCHES_PER_KEY : Nat := 10
def CLEANUP_INTERVAL_MS : Nat := 10 * 60 * 1000

/-! ## Queue keys -/

/-- A value of type `unknown`. -/
inductive Unknown where
  | undefined
  | str (s : String)
  | other
  deriving DecidableEq, Repr

/-- `preferences` is the digest of the preferences: the first 12 digits of
the SHA-256 of `stableStringify(preferences ?? {})`. -/
structure QueueJoinInput where
  city : Unknown
  region : Unknown
  preferences : String
  deriving DecidableEq, Repr

def isSlugChar (c : Char) : Bool := ('a' ≤ c && c ≤ 'z') || ('0' ≤ c && c ≤ '9')

/-- `.replace(/[^a-z0-9]+/g, '-')`: a run of other characters becomes one
dash. -/
def slug : List Char → List Char
  | [] => []
  | c :: rest =>
      if isSlugChar c then c :: slug rest
      else
        match slug rest with
        | '-' :: rest' => '-' :: rest'
        | rest' => '-' :: rest'

/-- `.replace(/^-+|-+$/g, '')`. -/
def stripDashes (cs : List Char) : List Char :=
  ((cs.dropWhile (· = '-')).reverse.dropWhile (· = '-')).reverse

def normalizeQueueCity : Unknown → Option String
  | .str value =>
      let normalized := stripDashes (slug ((jsTrim value).toList.flatMap jsLower))
      if normalized = [] then none else some (String.ofList normalized)
  | _ => none

def resolveQueueCity (input : QueueJoinInput) : Except Err String :=
  match input.city with
  | .undefined =>
      match normalizeQueueCity input.region with
      | some "au" => .ok DEFAULT_QUEUE_CITY
      | some legacyRegion => .ok legacyRegion
      | none => .ok DEFAULT_QUEUE_CITY
  | city =>
      match normalizeQueueCity city with
      | some city => .ok city
      | none => .error (.badRequest "City must be a non-empty string when provided")

def buildQueueKey (cityRaw : String) (preferences : String) : Except Err QueueKey :=
  match normalizeQueueCity (.str cityRaw) with
  | some city => .ok (city ++ ":" ++ preferences)
  | none => .error (.badRequest "City is required")

/-- A queue key is never the empty string. -/
theorem buildQueueKey_ne_empty {cityRaw preferences : String} {k : QueueKey}
    (h : buildQueueKey cityRaw preferences = .ok k) : k ≠ "" := by
  unfold buildQueueKey at h
  split at h
  · next city _ =>
      cases h
      intro hempty
      have hchars := congrArg String.toList hempty
      simp at hchars
  · cases h

/-! ## Queue entries -/

structure QueueEntryState where
  queueKey : QueueKey
  joinedAt : Int
  deriving DecidableEq, Repr

/-- `JSON.stringify({ queueKey, joinedAt })`. A queue key does not read as a
date. -/
def QueueEntryState.toJson (state : QueueEntryState) : RedisString :=
  .json [("queueKey", .str state.queueKey), ("joinedAt", .num state.joinedAt)]

def parseQueueEntryState (raw : Option RedisString) : Option QueueEntryState :=
  raw.bind fun r =>
    match r.field "queueKey", r.field "joinedAt" with
    | some (.str queueKey), some (.num joinedAt) =>
        if queueKey = "" then none else some ⟨queueKey, joinedAt⟩
    | _, _ => none

/-- What is stored is what is read back. -/
theorem parseQueueEntryState_toJson {state : QueueEntryState} (h : state.queueKey ≠ "") :
    parseQueueEntryState (some state.toJson) = some state := by
  have hfields : parseQueueEntryState (some state.toJson) =
      if state.queueKey = "" then none else some state := rfl
  rw [hfields, if_neg h]

theorem not_truthy_of_parse {raw : Option RedisString} (h : ¬truthy raw = true) :
    parseQueueEntryState raw = none := by
  cases raw with
  | none => rfl
  | some r =>
      have hempty : r = .text "" := by
        by_contra hne
        exact h (by simp [truthy, hne])
      rw [hempty]
      rfl

structure QueuePair where
  userA : UserId
  scoreA : Nat
  userB : UserId
  scoreB : Nat
  deriving DecidableEq, Repr

inductive LeaveStatus where
  | left
  | not_queued
  | already_matched
  deriving DecidableEq, Repr

structure QueueLeaveResult where
  status : LeaveStatus
  refunded : Bool
  queueKey : Option QueueKey
  deriving DecidableEq, Repr

inductive QueueJoinResult where
  | queued (queueKey : QueueKey) (position : Option Nat)
  | already_queued (queueKey : QueueKey) (position : Option Nat)
  deriving DecidableEq, Repr

/-! ## Locks -/

section Locks

def acquireLock (userId : UserId) : Prog (Option String) := do
  let lockValue ← host .randomUUID
  let acquired ← redis (.setNX (.queueLock userId) (.text lockValue) LOCK_TTL_MS)
  pure (if acquired then some lockValue else none)

def releaseLock (userId : UserId) (lockValue : String) : Prog Unit :=
  redis (.releaseLock (.queueLock userId) (.text lockValue))

def withUserLock {α : Type} (userId : UserId) (fn : Prog α) : Prog α := do
  match ← acquireLock userId with
  | none => Proc.fail (.conflict "Queue operation in progress")
  | some lockValue => Proc.tryFinally fn (releaseLock userId lockValue)

def releaseUserLocks : List (UserId × String) → Prog Unit
  | [] => pure ()
  | (userId, lockValue) :: rest => do
      releaseLock userId lockValue
      releaseUserLocks rest

/-- `locks.set(userId, lockValue)`: a key that is there keeps its place. -/
def setLock (userId : UserId) (lockValue : String) :
    List (UserId × String) → List (UserId × String)
  | [] => [(userId, lockValue)]
  | (u, v) :: rest =>
      if u = userId then (u, lockValue) :: rest else (u, v) :: setLock userId lockValue rest

theorem setLock_of_not_mem {userId : UserId} {lockValue : String} {locks : List (UserId × String)}
    (h : userId ∉ locks.map (·.1)) : setLock userId lockValue locks = locks ++ [(userId, lockValue)] := by
  induction locks with
  | nil => rfl
  | cons lock rest ih =>
      rw [List.map_cons, List.mem_cons, not_or] at h
      rw [setLock, if_neg (Ne.symm h.1), ih h.2, List.cons_append]

/-- The locks taken so far are given back when one is missing. -/
def lockUsersFrom (locks : List (UserId × String)) :
    List UserId → Prog (Option (List (UserId × String)))
  | [] => pure (some locks)
  | userId :: rest => do
      match ← acquireLock userId with
      | none =>
          releaseUserLocks locks
          pure none
      | some lockValue => lockUsersFrom (setLock userId lockValue locks) rest

def lockUsers (userIds : List UserId) : Prog (Option (List (UserId × String))) :=
  lockUsersFrom [] userIds

end Locks

/-! ## Joining and leaving -/

section JoinLeave

def getQueueSize (queueKey : QueueKey) : Prog Nat :=
  if queueKey = "" then pure 0 else redis (.zcard queueKey)

def getQueuedUserIds (queueKey : QueueKey) : Prog (List UserId) :=
  if queueKey = "" then pure [] else redis (.zrange queueKey)

def cleanupQueueKey (queueKey : QueueKey) : Prog Unit := do
  let remaining ← redis (.zcard queueKey)
  if remaining = 0 then redis (.srem queueKey) else pure ()

/-- The `try … catch` around `MULTI`: a failure gives the token back. -/
def enqueueEntry (userId : UserId) (queueKey : QueueKey) (joinedAt : Nat) : Prog Unit :=
  Proc.tryCatch
    (do
      let results ← redis (.multiJoin queueKey userId joinedAt
        (QueueEntryState.mk queueKey joinedAt).toJson)
      if !results then Proc.fail (.command "Redis transaction failed") else pure ())
    (fun error => do
      prisma (.userRefund userId)
      Proc.fail error)

/-- The events of a user who has joined. -/
def joinedEvents (userId : UserId) (queueCity : String) (queueKey : QueueKey)
    (position : Option Nat) : List Output :=
  [.track userId "queue_joined"
      [("city", .str queueCity), ("queueKey", .str queueKey), ("status", .str "queued"),
        ("position", .num (match position with | some n => n | none => -1))],
    .track userId "token_spent"
      [("spendReason", .str "queue_entry"), ("amount", .num 1), ("queueKey", .str queueKey)]]

/-- The answer to a user who has an entry. -/
def alreadyQueued (userId : UserId) (state : QueueEntryState) : Prog QueueJoinResult := do
  let position ← redis (.zrank state.queueKey userId)
  pure (.already_queued state.queueKey position)

/-- The part of `joinQueue` done under the lock. -/
def enqueue (userId : UserId) (queueCity : String) (queueKey : QueueKey) :
    Prog QueueJoinResult := do
  let existing ← redis (.get (.queueUser userId))
  match parseQueueEntryState existing with
  | some state => alreadyQueued userId state
  | none =>
      let updated ← prisma (.userDebit userId)
      if updated ≠ 1 then Proc.fail (.badRequest "Insufficient token balance")
      else
        let joinedAt ← host .now
        enqueueEntry userId queueKey joinedAt
        let position ← redis (.zrank queueKey userId)
        host (.emit (joinedEvents userId queueCity queueKey position))
        pure (.queued queueKey position)

/-- The answer to a user whose lock is taken. -/
def joinBusy (userId : UserId) : Prog QueueJoinResult := do
  let existing ← redis (.get (.queueUser userId))
  match parseQueueEntryState existing with
  | some state => alreadyQueued userId state
  | none => Proc.fail (.conflict "Queue operation in progress")

/-- What `joinQueue` does with the lock. -/
def joinLocked (userId : UserId) (queueCity : String) (queueKey : QueueKey) :
    Option String → Prog QueueJoinResult
  | none => joinBusy userId
  | some lockValue =>
      Proc.tryFinally (enqueue userId queueCity queueKey) (releaseLock userId lockValue)

/-- `joinQueue` once the ban and the input are checked. -/
def joinChecked (userId : UserId) (queueCity : String) (queueKey : QueueKey) :
    Prog QueueJoinResult := do
  let lock ← acquireLock userId
  joinLocked userId queueCity queueKey lock

def joinQueue (userId : UserId) (input : QueueJoinInput) : Prog QueueJoinResult := do
  let banned ← redis (.get (.moderationBan userId))
  if truthy banned then Proc.fail (.unauthorized "Account is temporarily suspended")
  else
    match resolveQueueCity input with
    | .error e => Proc.fail e
    | .ok queueCity =>
        match buildQueueKey queueCity input.preferences with
        | .error e => Proc.fail e
        | .ok queueKey => joinChecked userId queueCity queueKey

def mapQueueLeftReason (result : QueueLeaveResult) : String :=
  if result.status = .already_matched then "matched"
  else if result.status = .not_queued then "system"
  else if result.refunded then "manual"
  else "system"

def leaveStatusName : LeaveStatus → String
  | .left => "left"
  | .not_queued => "not_queued"
  | .already_matched => "already_matched"

def queueLeftEvent (userId : UserId) (result : QueueLeaveResult) : Output :=
  .track userId "queue_left"
    [("queueKey", match result.queueKey with | some k => .str k | none => .null),
      ("reason", .str (mapQueueLeftReason result)),
      ("status", .str (leaveStatusName result.status)), ("refunded", .bool result.refunded)]

def queueCancelEvent (userId : UserId) (status : String) : Output :=
  .track userId "queue_cancel" [("status", .str status)]

/-- What is left of `leaveQueue` once the entry is removed. -/
def settleLeave (userId : UserId) (queueKey : QueueKey) (removed : Nat) (matched : Bool) :
    Prog QueueLeaveResult :=
  if removed = 1 ∧ matched = false then do
    prisma (.userRefund userId)
    let result : QueueLeaveResult := ⟨.left, true, some queueKey⟩
    host (.emit [queueCancelEvent userId "refunded", queueLeftEvent userId result])
    pure result
  else do
    let result : QueueLeaveResult :=
      ⟨if matched then .already_matched else .left, false, some queueKey⟩
    host (.emit [queueCancelEvent userId (if matched then "matched_concurrently" else "not_refunded"),
      queueLeftEvent userId result])
    pure result

/-- What is done once an entry has been read. -/
def leaveEntry (userId : UserId) (queueKey : QueueKey) : Prog QueueLeaveResult := do
  let matched ← redis (.get (.queueMatched userId))
  let removed ← redis (.zrem queueKey userId)
  redis (.del [.queueUser userId])
  cleanupQueueKey queueKey
  settleLeave userId queueKey removed (truthy matched)

/-- The body of `leaveQueue` under the lock. -/
def leaveLocked (userId : UserId) : Prog QueueLeaveResult := do
  let notQueued : QueueLeaveResult := ⟨.not_queued, false, none⟩
  let stateRaw ← redis (.get (.queueUser userId))
  if !truthy stateRaw then
    host (.emit [queueLeftEvent userId notQueued])
    pure notQueued
  else
    match parseQueueEntryState stateRaw with
    | none =>
        redis (.del [.queueUser userId])
        host (.emit [queueLeftEvent userId notQueued])
        pure notQueued
    | some state => leaveEntry userId state.queueKey

def leaveQueue (userId : UserId) : Prog QueueLeaveResult :=
  withUserLock userId (leaveLocked userId)

end JoinLeave

/-! ## Matching -/

section Matching

/-- A lone member goes back with its old score. -/
def popPair (queueKey : QueueKey) : Prog (Option QueuePair) := do
  let popped ← redis (.zpopmin queueKey 2)
  match popped with
  | a :: b :: _ => pure (some ⟨a.member, a.score, b.member, b.score⟩)
  | [] => pure none
  | lone => do
      redis (.zadd queueKey lone)
      pure none

def isPairBlocked (userAId userBId : UserId) : Prog Bool := do
  let block ← prisma (.blockFindFirst userAId userBId)
  pure block.isSome

def deferBlockedPair (queueKey : QueueKey) (pair : QueuePair) : Prog Unit := do
  let now ← host .now
  let scoreBase := now + 5000
  redis (.zadd queueKey [⟨scoreBase, pair.userA⟩, ⟨scoreBase + 1, pair.userB⟩])

/-- The state of a popped user names the queue. -/
def inQueue (queueKey : QueueKey) (rawState : Option RedisString) : Bool :=
  (parseQueueEntryState rawState).any (·.queueKey = queueKey)

/-- The users of the pair are returned, or `null`. -/
def validatePair (queueKey : QueueKey) (pair : QueuePair) : Prog Bool := do
  let (rawStateA, rawStateB) ← redis (.mget (.queueUser pair.userA) (.queueUser pair.userB))
  if !inQueue queueKey rawStateA && !inQueue queueKey rawStateB then pure false
  else if !inQueue queueKey rawStateA then do
    redis (.zadd queueKey [⟨pair.scoreB, pair.userB⟩])
    pure false
  else if !inQueue queueKey rawStateB then do
    redis (.zadd queueKey [⟨pair.scoreA, pair.userA⟩])
    pure false
  else
    if ← isPairBlocked pair.userA pair.userB then
      deferBlockedPair queueKey pair
      pure false
    else pure true

/-- `queueKey.split(':')[0]`. -/
def cityOf (queueKey : QueueKey) : String :=
  String.ofList (queueKey.toList.takeWhile (· ≠ ':'))

def createSession (userAId userBId : UserId) (queueKey : QueueKey) : Prog Session := do
  let session ← prisma (.sessionCreate userAId userBId (some (cityOf queueKey)) (some queueKey))
  host (.emit [.sessionCreated session])
  pure session

def markMatched (userAId userBId : UserId) (sessionId : SessionId) : Prog Unit :=
  redis (.multiMarkMatched userAId userBId sessionId MATCHED_TTL_MS)

def requeuePair (queueKey : QueueKey) (pair : QueuePair) : Prog Unit :=
  redis (.zadd queueKey [⟨pair.scoreA, pair.userA⟩, ⟨pair.scoreB, pair.userB⟩])

/-- `Math.round` of the elapsed seconds. -/
def waitSeconds (now joinedAt : Nat) : Nat := (now - joinedAt + 500) / 1000

def matchFoundEvent (userId partnerId : UserId) (session : Session) (wait : Nat) : Output :=
  .track userId "queue_match_found"
    [("sessionId", .str session.id), ("queueKey", .str (session.queueKey.getD "")),
      ("partnerId", .str partnerId), ("waitSeconds", .num wait)]

def queueMatchOutput (userId partnerId : UserId) (session : Session) : Output :=
  .queueMatch userId session.id ⟨session.id, partnerId⟩ session.queueKey session.createdAt

/-- The `try` block of `processQueueKey`. -/
def matchLocked (queueKey : QueueKey) (pair : QueuePair) : Prog Unit := do
  let now ← host .now
  let session ← createSession pair.userA pair.userB queueKey
  markMatched pair.userA pair.userB session.id
  host (.emit
    [matchFoundEvent pair.userA pair.userB session (waitSeconds now pair.scoreA),
      matchFoundEvent pair.userB pair.userA session (waitSeconds now pair.scoreB),
      queueMatchOutput pair.userA pair.userB session,
      queueMatchOutput pair.userB pair.userA session,
      .push [pair.userA, pair.userB] .queue_match_found
        [("sessionId", .str session.id),
          ("queueKey", match session.queueKey with | some k => .str k | none => .null)]])

/-- One popped pair. -/
def matchPair (queueKey : QueueKey) (pair : QueuePair) : Prog Unit := do
  let valid ← validatePair queueKey pair
  if !valid then pure ()
  else
    match ← lockUsers [pair.userA, pair.userB] with
    | none => requeuePair queueKey pair
    | some locks => Proc.tryFinally (matchLocked queueKey pair) (releaseUserLocks locks)

/-- At most `n` rounds of the loop. -/
def matchLoop (queueKey : QueueKey) : Nat → Prog Unit
  | 0 => pure ()
  | n + 1 => do
      match ← popPair queueKey with
      | none => pure ()
      | some pair =>
          matchPair queueKey pair
          matchLoop queueKey n

/-- A failure is logged and goes no further. -/
def emitQueueStatus (queueKey : QueueKey) : Prog Unit :=
  if queueKey = "" then pure ()
  else
    Proc.tryCatch
      (do
        let userIds ← getQueuedUserIds queueKey
        if userIds = [] then pure ()
        else
          let usersSearching ← getQueueSize queueKey
          host (.emit (userIds.map (Output.queueStatus · usersSearching))))
      (fun _ => pure ())

def processQueueKey (queueKey : QueueKey) : Prog Unit := do
  let sizeBefore ← getQueueSize queueKey
  matchLoop queueKey MAX_MATCHES_PER_KEY
  cleanupQueueKey queueKey
  let sizeAfter ← getQueueSize queueKey
  if sizeAfter ≠ sizeBefore then emitQueueStatus queueKey else pure ()

def processKeys : List QueueKey → Prog Unit
  | [] => pure ()
  | key :: rest => do
      processQueueKey key
      processKeys rest

end Matching

/-! ## The service -/

inductive QueueOp where
  | joinQueue (userId : UserId) (input : QueueJoinInput)
  | leaveQueue (userId : UserId)
  | processQueueKey (queueKey : QueueKey)
  deriving DecidableEq, Repr

abbrev QueueOp.Ret : QueueOp → Type
  | .joinQueue _ _ => QueueJoinResult
  | .leaveQueue _ => QueueLeaveResult
  | .processQueueKey _ => Unit

def QueueOp.code : (o : QueueOp) → Prog o.Ret
  | .joinQueue userId input => Queue.joinQueue userId input
  | .leaveQueue userId => Queue.leaveQueue userId
  | .processQueueKey queueKey => Queue.processQueueKey queueKey

@[reducible] def queueService : Service where
  Op := QueueOp
  Ret := QueueOp.Ret
  code := QueueOp.code

end VerityBackend.Queue
