/-
VerityBackend.Moderation.Service — reports, blocks, bans and the webhook of
the moderation vendor (`moderation/moderation.service.ts` and
`moderation/moderation.webhook.controller.ts`).

The `parsed.queueKey` of `removeFromQueueIfPresent` is read as the string it
is: nothing else is stored there. `Promise.all` takes a schedule (see
`Async.Parallel`).
-/
import VerityBackend.Async.Parallel
import VerityBackend.Session.Service

namespace VerityBackend.Moderation

open Async

def VIOLATION_WINDOW_MS : Nat := 24 * 60 * 60 * 1000
def BAN_THRESHOLD : Nat := 3
def BAN_TTL_MS : Nat := 24 * 60 * 60 * 1000
def BAN_RATE_LIMIT_MS : Nat := 60 * 1000
def REPORT_SPAM_WINDOW_MS : Nat := 24 * 60 * 60 * 1000
def MAX_REPORTS_PER_USER_PER_DAY : Nat := 10
def REPORT_ESCALATION_TTL_MS : Nat := 24 * 60 * 60 * 1000
def WEBHOOK_REPLAY_TTL_MS : Nat := 10 * 60 * 1000

/-! ## Reports and blocks -/

section Reports

structure ReportUserDto where
  reportedUserId : UserId
  reason : String
  details : Option String
  deriving DecidableEq, Repr

inductive BlockResult where
  | blocked (block : Block)
  | already_blocked (block : Block)
  deriving DecidableEq, Repr

inductive UnblockResult where
  | not_blocked
  | unblocked
  deriving DecidableEq, Repr

inductive ModerationAction where
  | warn
  | ban
  deriving DecidableEq, Repr

structure ResolveResult where
  id : String
  status : String
  action : ModerationAction
  deriving DecidableEq, Repr

/-- `parsed.queueKey`, where it is truthy. -/
def storedQueueKey (r : RedisString) : Option QueueKey :=
  match r.field "queueKey" with
  | some (.str queueKey) => if queueKey = "" then none else some queueKey
  | _ => none

/-- A failure of `ZREM` is caught together with malformed JSON. -/
def removeFromQueueIfPresent (userId : UserId) : Prog Unit := do
  let stateRaw ← redis (.get (.queueUser userId))
  match stateRaw with
  | none => pure ()
  | some r =>
      if !truthy stateRaw then pure ()
      else
        Proc.tryFinally
          (Proc.tryCatch
            (match storedQueueKey r with
              | some queueKey => do
                  let _ ← redis (.zrem queueKey userId)
                  pure ()
              | none => pure ())
            (fun _ => pure ()))
          (redis (.del [.queueUser userId]))

/-- `Number.parseInt(currentRaw, 10)`, zero where it is `NaN`. -/
def reportCountOf (currentRaw : Option RedisString) : Int :=
  match currentRaw with
  | some (.text s) => (parseInt s).getD 0
  | _ => 0

def bumpReportEscalation (userId : UserId) : Prog Unit := do
  let currentRaw ← redis (.get (.userReports userId))
  let next := reportCountOf currentRaw + 1
  redis (.set (.userReports userId) (.text (toString next)) (some REPORT_ESCALATION_TTL_MS))

def reportSubmittedEvent (reporterId : UserId) (report : ModerationReport)
    (hasDetails : Bool) : Output :=
  .track reporterId "safety_report_submitted"
    [("reportId", .str report.id), ("reportedUserId", .str report.reportedUserId),
      ("category", .str report.reason), ("hasDetails", .bool hasDetails)]

def createReport (reporterId : UserId) (input : ReportUserDto) : Prog ModerationReport :=
  if reporterId = input.reportedUserId then Proc.fail (.badRequest "Cannot report yourself")
  else
    let details := input.details.map jsTrim
    if details.any (500 < jsLength ·) then
      Proc.fail (.badRequest "Report details must be 500 characters or fewer")
    else do
      let now ← host .now
      let reportCount ← prisma (.reportCount reporterId (now - REPORT_SPAM_WINDOW_MS))
      if MAX_REPORTS_PER_USER_PER_DAY ≤ reportCount then
        Proc.fail (.badRequest "Daily report limit reached")
      else
        let report ← prisma (.reportTransaction reporterId input.reportedUserId input.reason details)
        bumpReportEscalation input.reportedUserId
        removeFromQueueIfPresent input.reportedUserId
        host (.emit [reportSubmittedEvent reporterId report (details.any (· ≠ ""))])
        pure report

def createBlock (blockerId blockedId : UserId) : Prog BlockResult :=
  if blockerId = blockedId then Proc.fail (.badRequest "Cannot block yourself")
  else do
    match ← prisma (.blockFindUnique blockerId blockedId) with
    | none =>
        let created ← prisma (.blockCreate blockerId blockedId)
        removeFromQueueIfPresent blockedId
        pure (.blocked created)
    | some existing =>
        if existing.liftedAt.isNone then pure (.already_blocked existing)
        else
          let reopened ← prisma (.blockReopen existing.id)
          removeFromQueueIfPresent blockedId
          pure (.blocked reopened)

def unblock (blockerId blockedId : UserId) : Prog UnblockResult := do
  match ← prisma (.blockFindUnique blockerId blockedId) with
  | none => pure .not_blocked
  | some existing =>
      if existing.liftedAt.isSome then pure .not_blocked
      else
        let now ← host .now
        prisma (.blockLift existing.id now)
        pure .unblocked

def actionName : ModerationAction → String
  | .warn => "warn"
  | .ban => "ban"

def reportStatus : ModerationAction → String
  | .ban => "BANNED"
  | .warn => "WARNED"

def resolveReport (reportId : String) (action : ModerationAction) : Prog ResolveResult := do
  let report ← prisma (.reportUpdate reportId (reportStatus action))
  let _ ← createBlock report.reporterId report.reportedUserId
  if action = .ban then
    redis (.set (.moderationBan report.reportedUserId) (.text "1") (some BAN_TTL_MS))
  else pure ()
  let now ← host .now
  host (.emit
    [.moderationAction report.reportedUserId (actionName action) (.str report.reason),
      .track report.reportedUserId "safety_action_taken"
        [("action", .str (actionName action)), ("policyReason", .str report.reason),
          ("automated", .bool false), ("source", .str "admin_report_resolution"),
          ("actionLatencyMs", .num (now - report.createdAt : Nat))]])
  pure ⟨report.id, report.status, action⟩

end Reports

/-! ## Violations -/

section Violations

/-- The body of a webhook. Nothing checks the types it declares: the fields
that are handed on can be any JSON values. A `sessionId` or a `userId` that is
no string fails at the first query. -/
structure HiveViolationPayload where
  sessionId : Option String
  userId : Option String
  violation : Option Bool
  action : Option JsonValue
  event : Option JsonValue
  labels : Option (List String)
  severity : Option JsonValue
  reason : Option JsonValue
  deriving DecidableEq, Repr

structure HiveWebhookDelivery where
  signature : Option String
  timestamp : Option String
  deriving DecidableEq, Repr

/-- `if (value)`, of an optional string. -/
def present (value : Option String) : Option String := value.filter (· ≠ "")

/-- `signature.startsWith('sha256=') ? signature.slice(7) : signature`. -/
def rawSignature (signature : String) : String :=
  if "sha256=".toList.isPrefixOf signature.toList then String.ofList (signature.toList.drop 7)
  else signature

def reserveWebhookDelivery (signature timestamp : String) : Prog Bool :=
  redis (.setNX (.hiveWebhook timestamp (rawSignature signature)) (.text "1")
    WEBHOOK_REPLAY_TTL_MS)

/-- `type && type.toLowerCase() === 'violation'`. -/
def namesViolation : Option JsonValue → Except Err Bool
  | none => .ok false
  | some (.str type) => .ok (type.toList.flatMap jsLower = "violation".toList)
  | some type =>
      if type.truthy then .error (.command "type.toLowerCase is not a function") else .ok false

def isViolation (payload : HiveViolationPayload) : Except Err Bool :=
  if payload.violation = some true then .ok true
  else
    match namesViolation ((nonNull payload.action).or payload.event) with
    | .error e => .error e
    | .ok named => .ok (named || payload.labels.any (· ≠ []))

/-- `policyReason`. -/
def policyReason (payload : HiveViolationPayload) : JsonValue :=
  ((nonNull payload.reason).or (nonNull payload.severity)).getD (.str "violation")

def detector (payload : HiveViolationPayload) : JsonValue :=
  ((nonNull payload.event).or (nonNull payload.action)).getD (.str "hive_webhook")

def logModerationEvent (userId : UserId) : Prog Unit := prisma (.moderationEventCreate userId)

def actionTakenEvent (userId : UserId) (action : String) (policyReason : JsonValue)
    (count latency : Nat) : Output :=
  .track userId "safety_action_taken"
    [("action", .str action), ("policyReason", .given policyReason), ("automated", .bool true),
      ("violationCount24h", .num count), ("actionLatencyMs", .num latency)]

def announceAction (userId : UserId) (action : String) (policyReason : JsonValue)
    (count detectedAtMs : Nat) : Prog Unit := do
  let now ← host .now
  host (.emit [.moderationAction userId action (.given policyReason),
    actionTakenEvent userId action policyReason count (now - detectedAtMs)])

def applyModerationAction (userId : UserId) (policyReason : JsonValue) (detectedAtMs : Nat) :
    Prog Unit := do
  let now ← host .now
  let count ← prisma (.moderationEventCount userId (now - VIOLATION_WINDOW_MS))
  if BAN_THRESHOLD ≤ count then
    let allowed ← redis (.setNX (.moderationBanCooldown userId) (.text "1") BAN_RATE_LIMIT_MS)
    if allowed then
      redis (.set (.moderationBan userId) (.text "1") (some BAN_TTL_MS))
      announceAction userId "ban" policyReason count detectedAtMs
    else pure ()
  else announceAction userId "warn" policyReason count detectedAtMs

def detectedEvent (payload : HiveViolationPayload) (sessionId : SessionId) (offenderId : UserId) :
    Output :=
  .track offenderId "safety_violation_detected"
    [("sessionId", .str sessionId), ("detector", .given (detector payload)),
      ("policyType", .given (policyReason payload)),
      ("confidenceBand", .given ((nonNull payload.severity).getD (.str "unknown")))]

/-- The order in which two `Promise.all` issue their commands. -/
structure Schedules where
  events : List Bool
  actions : List Bool
  deriving DecidableEq, Repr

def offendersOf (payload : HiveViolationPayload) (session : Session) : List UserId :=
  match present payload.userId with
  | some userId => [userId]
  | none => [session.userAId, session.userBId]

/-- What a violation of an existing session leads to. -/
def punish (self : Instance) (sched : Schedules) (payload : HiveViolationPayload)
    (session : Session) : Prog Unit := do
  let offenderIds := offendersOf payload session
  let actionStartedAtMs ← host .now
  Proc.all sched.events (offenderIds.map logModerationEvent)
  host (.emit (offenderIds.map (detectedEvent payload session.id)))
  Proc.all sched.actions
    (offenderIds.map fun id => applyModerationAction id (policyReason payload) actionStartedAtMs)
  Sessions.endSession self session .ended

/-- The part of `handleWebhook` a delivery reaches that is accepted. -/
def processDelivery (self : Instance) (sched : Schedules) (payload : HiveViolationPayload)
    (sessionId : SessionId) : Prog Unit :=
  match isViolation payload with
  | .error e => Proc.fail e
  | .ok false => pure ()
  | .ok true => do
      match ← prisma (.sessionFindUnique sessionId) with
      | none => pure ()
      | some session => punish self sched payload session

/-- `{ received: true }` is the answer to everything that does not throw. -/
def handleWebhook (self : Instance) (sched : Schedules) (payload : HiveViolationPayload)
    (delivery : HiveWebhookDelivery) : Prog Unit :=
  match present payload.sessionId with
  | none => Proc.fail (.badRequest "Missing sessionId")
  | some sessionId =>
      match present delivery.signature, present delivery.timestamp with
      | some signature, some timestamp => do
          let accepted ← reserveWebhookDelivery signature timestamp
          if !accepted then pure ()
          else processDelivery self sched payload sessionId
      | _, _ => processDelivery self sched payload sessionId

end Violations

/-! ## Signatures -/

section Signatures

abbrev Body := List UInt8

/-- The environment: `HIVE_WEBHOOK_SECRET`, HMAC-SHA256 under a secret, and
the JSON parser of the framework. -/
structure HiveConfig where
  secret : Option String
  hmac : String → Body → List UInt8
  parse : Body → HiveViolationPayload

/-- `/^\d{10,16}$/`. -/
def isTimestamp (s : String) : Bool :=
  10 ≤ s.toList.length && s.toList.length ≤ 16 && s.toList.all Char.isDigit

/-- Seconds and milliseconds are told apart by their size. -/
def timestampMs (timestamp : String) : Nat :=
  let ts := digitsValue timestamp.toList
  if ts < 1000000000000 then ts * 1000 else ts

def hexDigit (c : Char) : Option Nat :=
  if '0' ≤ c ∧ c ≤ '9' then some (c.toNat - '0'.toNat)
  else if 'a' ≤ c ∧ c ≤ 'f' then some (c.toNat - 'a'.toNat + 10)
  else if 'A' ≤ c ∧ c ≤ 'F' then some (c.toNat - 'A'.toNat + 10)
  else none

/-- `/^[0-9a-fA-F]{64}$/`. -/
def isHexDigest (s : String) : Bool :=
  s.toList.length == 64 && s.toList.all (fun c => (hexDigit c).isSome)

/-- `Buffer.from(s, 'hex')`, of hexadecimal digits. -/
def bytesOfHex : List Char → List UInt8
  | c :: d :: rest =>
      UInt8.ofNat (16 * (hexDigit c).getD 0 + (hexDigit d).getD 0) :: bytesOfHex rest
  | _ => []

/-- How far a webhook timestamp may be from the clock. -/
def MAX_DRIFT_MS : Nat := 5 * 60 * 1000

def drift (now ts : Nat) : Nat := (now - ts) + (ts - now)

def verifyWebhookSignature (cfg : HiveConfig) (rawBody : Body) (signature timestamp : Option String) :
    Prog Unit :=
  match present cfg.secret with
  | none => Proc.fail (.badRequest "Hive webhook secret not configured")
  | some secret =>
      match present signature with
      | none => Proc.fail (.badRequest "Missing Hive signature")
      | some signature =>
          match present timestamp with
          | none => Proc.fail (.badRequest "Missing Hive webhook timestamp")
          | some timestamp =>
              if !isTimestamp timestamp then
                Proc.fail (.badRequest "Invalid Hive webhook timestamp")
              else do
                let now ← host .now
                if MAX_DRIFT_MS < drift now (timestampMs timestamp) then
                  Proc.fail (.badRequest "Stale Hive webhook timestamp")
                else
                  let rawSig := rawSignature signature
                  if !isHexDigest rawSig then Proc.fail (.badRequest "Invalid Hive signature")
                  else if bytesOfHex rawSig.toList ≠ cfg.hmac secret rawBody then
                    Proc.fail (.badRequest "Invalid Hive signature")
                  else pure ()

/-- The controller of `POST /webhooks/hive`. -/
def hiveWebhook (cfg : HiveConfig) (self : Instance) (sched : Schedules) (rawBody : Body)
    (delivery : HiveWebhookDelivery) : Prog Unit := do
  verifyWebhookSignature cfg rawBody delivery.signature delivery.timestamp
  handleWebhook self sched (cfg.parse rawBody) delivery

/-- The bytes of the JSON object with `sessionId: "s"` and `violation: true`. -/
def violationBody : Body :=
  [123, 34, 115, 101, 115, 115, 105, 111, 110, 73, 100, 34, 58, 34, 115, 34, 44, 34, 118, 105,
    111, 108, 97, 116, 105, 111, 110, 34, 58, 116, 114, 117, 101, 125]

/-- Its HMAC-SHA256 under the secret `hive`. -/
def violationSignature : String :=
  "d8c72d169546b6e0f0764668b8e4fd40306c2f37031df4da7693fb0433237a9c"

/-- A configuration that can check and parse this body. -/
def violationConfig : HiveConfig where
  secret := some "hive"
  hmac secret body :=
    if secret = "hive" ∧ body = violationBody then bytesOfHex violationSignature.toList else []
  parse _ := ⟨some "s", none, some true, none, none, none, none, none⟩

end Signatures

end VerityBackend.Moderation
