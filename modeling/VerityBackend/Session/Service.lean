/-
VerityBackend.Session.Service — the life of a session, from
`session:created` to its decision (`session/session.service.ts`).

Every function that reads or arms a timer takes `self`, the process it runs
in. A timer that fires is the call of the function its callback names:
`SessionOp.sessionTimeout` and `SessionOp.choiceTimeout`. `finalizeDecision`
is cut where the source reads, writes and announces (`decisionOf`,
`storeDecision`, `announceDecision`).
-/
import VerityBackend.Backend.Service

namespace VerityBackend.Sessions

open Async

def SESSION_DURATION_MS : Nat := 45000
def SESSION_STATE_TTL_MS : Nat := 60 * 60 * 1000
def SESSION_LOCK_TTL_MS : Nat := 10000
def CHOICE_WINDOW_MS : Nat := 60000
def CHOICE_STATE_TTL_MS : Nat := 2 * 60 * 60 * 1000
def SESSION_RETENTION_MS : Nat := 24 * 60 * 60 * 1000
def RECOVERY_MAX_DURATION_MS : Nat := 5000

/-! ## Decisions -/

/-- What is stored under `session:decision:<id>` once it is resolved. -/
inductive ResolvedChoiceResult where
  | mutual (matchId : MatchId)
  | nonMutual
  deriving DecidableEq, Repr

inductive ChoiceResult where
  | pending (deadline : Nat)
  | resolved (value : ResolvedChoiceResult) (partnerReveal : Option PartnerReveal)
  deriving DecidableEq, Repr

inductive ParsedStoredDecision where
  | none
  | invalid
  | resolved (value : ResolvedChoiceResult)
  | pending (deadline : Nat)
  deriving DecidableEq, Repr

/-- `JSON.stringify(payload)`. -/
def ResolvedChoiceResult.payload : ResolvedChoiceResult → RedisString
  | .mutual matchId =>
      .json [("status", .str "resolved"), ("outcome", .str "mutual"), ("matchId", .str matchId)]
  | .nonMutual => .json [("status", .str "resolved"), ("outcome", .str "non_mutual")]

def parsePending (deadline : Option JsonField) : ParsedStoredDecision :=
  match deadline.bind JsonField.parseDate with
  | some ms => .pending ms
  | none => .invalid

/-- The id of a Match row does not read as a date. -/
def parseStoredDecision (raw : Option RedisString) : ParsedStoredDecision :=
  match raw with
  | none => .none
  | some (.text "") => .none
  | some r =>
      match r.field "status", r.field "outcome", r.field "matchId" with
      | some (.str "resolved"), some (.str "mutual"), some (.str matchId) =>
          .resolved (.mutual matchId)
      | some (.str "resolved"), some (.str "non_mutual"), _ => .resolved .nonMutual
      | some (.str "pending"), _, _ => parsePending (r.field "deadline")
      | _, _, _ => .invalid

/-- What is stored is what is read back. -/
@[simp] theorem parseStoredDecision_payload (v : ResolvedChoiceResult) :
    parseStoredDecision (some v.payload) = .resolved v := by
  cases v <;> rfl

@[simp] theorem parseStoredDecision_none : parseStoredDecision none = .none := rfl

structure SessionStateRecord where
  sessionId : SessionId
  userAId : UserId
  userBId : UserId
  endAt : JsonField
  deriving DecidableEq, Repr

/-- `typeof endAt === 'string'`. -/
def isStringField : JsonField → Bool
  | .str _ => true
  | .date _ => true
  | _ => false

def parseSessionState (raw : Option RedisString) : Option SessionStateRecord :=
  raw.bind fun r =>
    match r.field "sessionId", r.field "userAId", r.field "userBId", r.field "endAt" with
    | some (.str sessionId), some (.str userAId), some (.str userBId), some endAt =>
        if isStringField endAt then some ⟨sessionId, userAId, userBId, endAt⟩ else none
    | _, _, _, _ => none

/-- Identifiers are ASCII, where `<` of JavaScript is the order of
strings. -/
def canonicalPair (userAId userBId : UserId) : UserId × UserId :=
  if userAId < userBId then (userAId, userBId) else (userBId, userAId)

def buildSyntheticSession (sessionId : SessionId) (userAId userBId : UserId) : Session :=
  ⟨sessionId, userAId, userBId, none, none, 0⟩

/-! ## Finalizing -/

section Finalize

def readStoredDecision (sessionId : SessionId) : Prog ParsedStoredDecision := do
  let raw ← redis (.get (.sessionDecision sessionId))
  pure (parseStoredDecision raw)

def buildPartnerRevealForUser (session : Session) (userId : UserId) :
    Prog (Option PartnerReveal) :=
  let partnerId :=
    if session.userAId = userId then some session.userBId
    else if session.userBId = userId then some session.userAId
    else none
  match partnerId with
  | none => pure none
  | some partnerId => do
      if partnerId = "" then pure none
      else
        let partner ← prisma (.userFindUnique partnerId)
        pure (partner.map (buildPartnerReveal partnerId))

def enrichChoiceResultForUser (result : ChoiceResult) (session : Session)
    (userId : UserId) : Prog ChoiceResult :=
  match result with
  | .resolved (.mutual matchId) reveal => do
      match ← buildPartnerRevealForUser session userId with
      | none => pure (.resolved (.mutual matchId) reveal)
      | some partnerReveal => pure (.resolved (.mutual matchId) (some partnerReveal))
  | _ => pure result

/-- The outcome, and the Match row of a mutual one. -/
def decisionOf (session : Session) (choiceA choiceB : SessionChoice) :
    Prog ResolvedChoiceResult :=
  if choiceA = .MATCH ∧ choiceB = .MATCH then do
    let (userLow, userHigh) := canonicalPair session.userAId session.userBId
    let m ← prisma (.matchUpsert userLow userHigh)
    if m.id = "" then
      Proc.fail (.command ("Mutual decision missing matchId for session " ++ session.id))
    else
      pure (.mutual m.id)
  else
    pure .nonMutual

/-- The unconditional write of the payload. -/
def overwriteDecision (sessionId : SessionId) (payload : ResolvedChoiceResult) :
    Prog (Option ResolvedChoiceResult) := do
  redis (.set (.sessionDecision sessionId) payload.payload (some CHOICE_STATE_TTL_MS))
  pure none

/-- What a lost write with `NX` does with the decision it finds. -/
def storeLost (sessionId : SessionId) (payload : ResolvedChoiceResult) :
    ParsedStoredDecision → Prog (Option ResolvedChoiceResult)
  | .resolved value => pure (some value)
  | .pending _ => overwriteDecision sessionId payload
  | _ => pure none

/-- The write with `NX`. What a lost one finds resolved is returned. -/
def storeUnlessDecided (sessionId : SessionId) (payload : ResolvedChoiceResult) :
    Prog (Option ResolvedChoiceResult) := do
  let stored ← redis (.setNX (.sessionDecision sessionId) payload.payload CHOICE_STATE_TTL_MS)
  if stored then pure none
  else
    let found ← readStoredDecision sessionId
    storeLost sessionId payload found

/-- A pending decision is overwritten. -/
def storeDecision (sessionId : SessionId) (existing : ParsedStoredDecision)
    (payload : ResolvedChoiceResult) : Prog (Option ResolvedChoiceResult) :=
  match existing with
  | .pending _ => overwriteDecision sessionId payload
  | _ => storeUnlessDecided sessionId payload

/-- The analytics events of one participant. -/
def resolvedEvents (sessionId : SessionId) (userId : UserId) (payload : ResolvedChoiceResult)
    (bothPassed : Bool) : List Output :=
  let (outcome, resolvedResult, hasMatch) := match payload with
    | .mutual _ => ("mutual", "mutual_match", true)
    | .nonMutual => ("non_mutual", "non_mutual", false)
  [.track userId "session_choice_resolved"
      [("sessionId", .str sessionId), ("outcome", .str outcome), ("hasMatch", .bool hasMatch)],
    .track userId "session_result"
      [("sessionId", .str sessionId), ("result", .str resolvedResult),
        ("bothPassed", .bool bothPassed), ("hasMatch", .bool hasMatch)]]

def emitMatchMutual (session : Session) (matchId : MatchId) : Prog Unit := do
  let revealForUserA ← buildPartnerRevealForUser session session.userAId
  let revealForUserB ← buildPartnerRevealForUser session session.userBId
  host (.emit
    [.matchMutual session.userAId session.id matchId revealForUserA,
      .matchMutual session.userBId session.id matchId revealForUserB])

def announceDecision (self : Instance) (session : Session)
    (choiceA choiceB : SessionChoice) (payload : ResolvedChoiceResult) : Prog Unit := do
  let bothPassed := decide (choiceA = .PASS ∧ choiceB = .PASS)
  host (.emit (resolvedEvents session.id session.userAId payload bothPassed ++
    resolvedEvents session.id session.userBId payload bothPassed))
  match payload with
  | .mutual matchId =>
      emitMatchMutual session matchId
      host (.emit [.push [session.userAId, session.userBId] .match_mutual
        [("sessionId", .str session.id), ("matchId", .str matchId)]])
  | .nonMutual =>
      host (.emit [.matchNonMutual session.userAId session.id,
        .matchNonMutual session.userBId session.id])
  host (.clearChoiceTimeout self session.id)

/-- What `finalizeDecision` does with its payload. -/
def settlePayload (self : Instance) (sessionId : SessionId) (session : Session)
    (choiceA choiceB : SessionChoice) (existing : ParsedStoredDecision)
    (payload : ResolvedChoiceResult) : Prog ChoiceResult := do
  match ← storeDecision sessionId existing payload with
  | some value => pure (.resolved value none)
  | none =>
      announceDecision self session choiceA choiceB payload
      pure (.resolved payload none)

/-- What `finalizeDecision` does where nothing is resolved. -/
def settleDecision (self : Instance) (session : Session) (choiceA choiceB : SessionChoice)
    (existing : ParsedStoredDecision) : Prog ChoiceResult := do
  let payload ← decisionOf session choiceA choiceB
  settlePayload self session.id session choiceA choiceB existing payload

def finalizeDecision (self : Instance) (session : Session)
    (choiceA choiceB : SessionChoice) : Prog ChoiceResult := do
  match ← readStoredDecision session.id with
  | .resolved value => pure (.resolved value none)
  | existing => settleDecision self session choiceA choiceB existing

end Finalize

/-! ## Choices -/

section Choices

def ensureChoiceDeadline (sessionId : SessionId) : Prog JsDate := do
  let existing ← redis (.get (.sessionChoiceDeadline sessionId))
  if truthy existing then
    pure (existing.bind RedisString.parseDate)
  else
    let now ← host .now
    let deadline := now + CHOICE_WINDOW_MS
    let _ ← redis (.setNX (.sessionChoiceDeadline sessionId) (.date deadline) CHOICE_STATE_TTL_MS)
    pure (some deadline)

/-- `deadline.toISOString()` throws for an invalid date. -/
def pendingResult (deadline : JsDate) : Prog ChoiceResult :=
  match deadline with
  | some ms => pure (.pending ms)
  | none => Proc.fail (.command "Invalid time value")

def evaluateChoices (self : Instance) (session : Session) (deadline : JsDate) :
    Prog ChoiceResult := do
  let (choiceA, choiceB) ← redis (.hmget session.id session.userAId session.userBId)
  if choiceA = some .PASS ∨ choiceB = some .PASS then
    finalizeDecision self session (choiceA.getD .PASS) (choiceB.getD .PASS)
  else if choiceA = some .MATCH ∧ choiceB = some .MATCH then
    finalizeDecision self session .MATCH .MATCH
  else
    let now ← host .now
    if deadline.reachedAt now then
      finalizeDecision self session (choiceA.getD .PASS) (choiceB.getD .PASS)
    else
      pendingResult deadline

def getDecision (session : Session) (userId : UserId) :
    Prog (Option ChoiceResult) := do
  match ← readStoredDecision session.id with
  | .none => pure none
  | .invalid => pure none
  | .resolved value =>
      let result ← enrichChoiceResultForUser (.resolved value none) session userId
      pure (some result)
  | .pending deadline =>
      let result ← enrichChoiceResultForUser (.pending deadline) session userId
      pure (some result)

/-- `PEXPIRE` with the rest of the window; of an invalid date that is
`NaN`, which Redis refuses. -/
def expireChoices (sessionId : SessionId) (deadline : JsDate) : Prog Unit :=
  match deadline with
  | some ms => do
      let now ← host .now
      redis (.pexpireChoices sessionId (max 1 (ms - now)))
  | none => Proc.fail (.command "ERR value is not an integer or out of range")

def choiceName : SessionChoice → String
  | .MATCH => "MATCH"
  | .PASS => "PASS"

def submitChoice (self : Instance) (sessionId : SessionId) (userId : UserId)
    (choice : SessionChoice) : Prog ChoiceResult := do
  match ← prisma (.sessionFindUnique sessionId) with
  | none => Proc.fail (.notFound "Session not found")
  | some session =>
      if session.userAId ≠ userId ∧ session.userBId ≠ userId then
        Proc.fail (.forbidden "Not a session participant")
      else
        let ended ← redis (.get (.sessionEnded sessionId))
        if !truthy ended then
          Proc.fail (.badRequest "Session has not ended")
        else
          match ← getDecision session userId with
          | some storedDecision => pure storedDecision
          | none =>
              let deadline ← ensureChoiceDeadline sessionId
              let existingChoice ← redis (.hget sessionId userId)
              if existingChoice.isSome then
                let evaluated ← evaluateChoices self session deadline
                enrichChoiceResultForUser evaluated session userId
              else
                redis (.hset sessionId userId choice)
                expireChoices sessionId deadline
                host (.emit [.track userId "session_choice_submitted"
                  [("sessionId", .str sessionId), ("choice", .str (choiceName choice))]])
                let evaluated ← evaluateChoices self session deadline
                enrichChoiceResultForUser evaluated session userId

/-- `setTimeout` of `NaN` fires at once. -/
def scheduleChoiceTimeout (self : Instance) (sessionId : SessionId) (userAId userBId : UserId)
    (deadline : JsDate) : Prog Unit :=
  host (.scheduleChoiceTimeout self sessionId userAId userBId (deadline.getD 0))

/-- The callback of `scheduleChoiceTimeout`. -/
def choiceTimeout (self : Instance) (sessionId : SessionId) (userAId userBId : UserId) :
    Prog ChoiceResult :=
  finalizeDecision self (buildSyntheticSession sessionId userAId userBId) .PASS .PASS

end Choices

/-! ## Start and end -/

section Lifecycle

def mapEndedBy : EndReason → String
  | .timeout => "timer"
  | .ended => "moderation"
  | .token_error => "error"

def reasonName : EndReason → String
  | .timeout => "timeout"
  | .ended => "ended"
  | .token_error => "token_error"

/-- The analytics event of one participant. -/
def endedEvent (sessionId : SessionId) (userId : UserId) (reason : EndReason)
    (durationSeconds : Nat) : Output :=
  .track userId "session_ended"
    [("sessionId", .str sessionId), ("endReason", .str (reasonName reason)),
      ("endedBy", .str (mapEndedBy reason)), ("durationSeconds", .num durationSeconds)]

def endSession (self : Instance) (session : Session) (reason : EndReason) :
    Prog Unit := do
  let alreadyEnded ← redis (.setNX (.sessionEnded session.id) (.text "1") SESSION_STATE_TTL_MS)
  if !alreadyEnded then pure ()
  else
    host (.clearSessionEnd self session.id)
    redis (.del [.sessionActive session.userAId, .sessionActive session.userBId])
    let now ← host .now
    let durationSeconds := (now - session.createdAt + 500) / 1000
    host (.emit
      [.sessionEnd session.userAId session.id reason now,
        .sessionEnd session.userBId session.id reason now,
        endedEvent session.id session.userAId reason durationSeconds,
        endedEvent session.id session.userBId reason durationSeconds])
    let deadline ← ensureChoiceDeadline session.id
    scheduleChoiceTimeout self session.id session.userAId session.userBId deadline

/-- The callback of `scheduleSessionEnd`. -/
def sessionTimeout (self : Instance) (sessionId : SessionId) (userAId userBId : UserId) :
    Prog Unit :=
  endSession self (buildSyntheticSession sessionId userAId userBId) .timeout

def persistSessionState (session : Session) (channelName : String)
    (startAt endAt : Nat) : Prog Unit := do
  redis (.set (.sessionState session.id)
    (.json [("sessionId", .str session.id), ("userAId", .str session.userAId),
      ("userBId", .str session.userBId), ("channelName", .str channelName),
      ("startAt", .date startAt), ("endAt", .date endAt)])
    (some SESSION_STATE_TTL_MS))
  redis (.set (.sessionActive session.userAId) (.text session.id) (some SESSION_STATE_TTL_MS))
  redis (.set (.sessionActive session.userBId) (.text session.id) (some SESSION_STATE_TTL_MS))

/-- The body of the `try` block of `handleSessionCreated` after
`persistSessionState`. -/
def startSession (self : Instance) (session : Session) (tokens : SessionTokens)
    (startAt endAt : Nat) : Prog Unit := do
  let started (userId : UserId) : Output :=
    .sessionStart userId session.id tokens.channelName (tokens.byUser userId) startAt endAt
      tokens.expiresAt (SESSION_DURATION_MS / 1000)
  let tracked (userId : UserId) : Output :=
    .track userId "session_started"
      [("sessionId", .str session.id), ("durationSeconds", .num (SESSION_DURATION_MS / 1000))]
  host (.emit [started session.userAId, started session.userBId, tracked session.userAId,
    tracked session.userBId])
  host (.scheduleSessionEnd self session.id session.userAId session.userBId endAt)

def handleSessionCreated (self : Instance) (session : Session) : Prog Unit := do
  let lockAcquired ← redis (.setNX (.sessionLock session.id) (.text "1") SESSION_LOCK_TTL_MS)
  if !lockAcquired then pure ()
  else
    let startAt ← host .now
    let endAt := startAt + SESSION_DURATION_MS
    Proc.tryCatch
      (do
        let tokens ← host (.buildSessionTokens session.id session.userAId session.userBId)
        persistSessionState session tokens.channelName startAt endAt
        startSession self session tokens startAt endAt)
      (fun _ => endSession self session .token_error)

end Lifecycle

/-! ## Recovery -/

section Recovery

/-- What `recoverSessionEnd` does with the stored state. -/
def recoverEndBy (self : Instance) : Option SessionStateRecord → Prog Unit
  | none => pure ()
  | some state => do
      let ended ← redis (.get (.sessionEnded state.sessionId))
      if truthy ended then pure ()
      else
        match state.endAt.parseDate with
        | none => pure ()
        | some endAt =>
            let now ← host .now
            if endAt ≤ now then
              endSession self (buildSyntheticSession state.sessionId state.userAId state.userBId)
                .timeout
            else
              host (.scheduleSessionEnd self state.sessionId state.userAId state.userBId endAt)

/-- One key of the scan of `session:state:*`. -/
def recoverSessionEnd (self : Instance) (sessionId : SessionId) : Prog Unit := do
  let raw ← redis (.get (.sessionState sessionId))
  recoverEndBy self (parseSessionState raw)

/-- What `resolveSessionParticipants` does with the stored state. -/
def participantsBy (sessionId : SessionId) : Option SessionStateRecord → Prog (Option (UserId × UserId))
  | some state => pure (some (state.userAId, state.userBId))
  | none => do
      match ← prisma (.sessionFindUnique sessionId) with
      | none => pure none
      | some session => pure (some (session.userAId, session.userBId))

def resolveSessionParticipants (sessionId : SessionId) : Prog (Option (UserId × UserId)) := do
  let raw ← redis (.get (.sessionState sessionId))
  participantsBy sessionId (parseSessionState raw)

/-- The deadline the recovery goes by: that of a pending decision, or the
one stored under the scanned key. -/
def recoveryDeadline (sessionId : SessionId) (decision : ParsedStoredDecision) : Prog JsDate :=
  match decision with
  | .pending deadline => pure (some deadline)
  | _ => do
      let rawDeadline ← redis (.get (.sessionChoiceDeadline sessionId))
      pure (rawDeadline.bind RedisString.parseDate)

/-- An overdue session is finalized, any other gets its timer back. -/
def recoverFound (self : Instance) (sessionId : SessionId) (deadline : Nat) :
    Option (UserId × UserId) → Prog Unit
  | none => pure ()
  | some (userAId, userBId) => do
      let now ← host .now
      if deadline ≤ now then
        let _ ← finalizeDecision self (buildSyntheticSession sessionId userAId userBId) .PASS .PASS
        pure ()
      else
        scheduleChoiceTimeout self sessionId userAId userBId (some deadline)

def recoverFrom (self : Instance) (sessionId : SessionId) (deadline : Nat) : Prog Unit := do
  let participants ← resolveSessionParticipants sessionId
  recoverFound self sessionId deadline participants

/-- What `recoverChoice` does with the deadline. -/
def recoverBy (self : Instance) (sessionId : SessionId) : JsDate → Prog Unit
  | none => pure ()
  | some deadline => recoverFrom self sessionId deadline

/-- What `recoverChoice` does with the decision. -/
def recoverUndecided (self : Instance) (sessionId : SessionId) : ParsedStoredDecision → Prog Unit
  | .resolved _ => pure ()
  | decision => do
      let deadline ← recoveryDeadline sessionId decision
      recoverBy self sessionId deadline

/-- One key of the scan of `session:choice:deadline:*`. -/
def recoverChoice (self : Instance) (sessionId : SessionId) : Prog Unit := do
  if sessionId = "" then pure ()
  else
    let decision ← readStoredDecision sessionId
    recoverUndecided self sessionId decision

/-- The loop over the scanned keys, which gives up after
`RECOVERY_MAX_DURATION_MS`. -/
def recoverEach (recover : SessionId → Prog Unit) (startedAt : Nat) : List SessionId → Prog Unit
  | [] => pure ()
  | sessionId :: rest => do
      let now ← host .now
      if RECOVERY_MAX_DURATION_MS ≤ now - startedAt then pure ()
      else
        recover sessionId
        recoverEach recover startedAt rest

def recoverSessionEndTimers (self : Instance) : Prog Unit := do
  let startedAt ← host .now
  let keys ← redis .scanSessionStates
  recoverEach (recoverSessionEnd self) startedAt keys

def recoverChoiceTimeouts (self : Instance) : Prog Unit := do
  let startedAt ← host .now
  let keys ← redis .scanChoiceDeadlines
  recoverEach (recoverChoice self) startedAt keys

def onModuleInit (self : Instance) : Prog Unit := do
  recoverSessionEndTimers self
  recoverChoiceTimeouts self

end Recovery

/-! ## Retention -/

def cleanupExpiredSessions : Prog Unit := do
  let now ← host .now
  let _ ← prisma (.sessionDeleteMany (now - SESSION_RETENTION_MS))
  pure ()

/-! ## The service -/

/-- `recoverChoice` is the recovery of one session. -/
inductive SessionOp where
  | submitChoice (self : Instance) (sessionId : SessionId) (userId : UserId)
      (choice : SessionChoice)
  | choiceTimeout (self : Instance) (sessionId : SessionId) (userAId userBId : UserId)
  | recoverChoice (self : Instance) (sessionId : SessionId)
  deriving DecidableEq, Repr

abbrev SessionOp.Ret : SessionOp → Type
  | .submitChoice _ _ _ _ => ChoiceResult
  | .choiceTimeout _ _ _ _ => ChoiceResult
  | .recoverChoice _ _ => Unit

def SessionOp.code : (o : SessionOp) → Prog o.Ret
  | .submitChoice self sessionId userId choice => Sessions.submitChoice self sessionId userId choice
  | .choiceTimeout self sessionId userAId userBId =>
      Sessions.choiceTimeout self sessionId userAId userBId
  | .recoverChoice self sessionId => Sessions.recoverChoice self sessionId

def SessionOp.sessionId : SessionOp → SessionId
  | .submitChoice _ sessionId _ _ => sessionId
  | .choiceTimeout _ sessionId _ _ => sessionId
  | .recoverChoice _ sessionId => sessionId

@[reducible] def sessionService : Service where
  Op := SessionOp
  Ret := SessionOp.Ret
  code := SessionOp.code

/-- The session of `ann` and `bob`, which has just ended. -/
def endedSession : World :=
  let w := World.peopled ["ann", "bob"] 1
  World.set { w with db := { w.db with sessions := [⟨"s", "ann", "bob", none, none, 0⟩] } }
    (.sessionEnded "s") (.text "1") (some SESSION_STATE_TTL_MS)

/-- The runs of one session in which no key expires. -/
def OfSession (sessionId : SessionId) (c : Config sessionService.system) :
    Event sessionService.system → Prop
  | .start o => o.sessionId = sessionId
  | .step _ => True
  | .env e => World.KeysSurvive c.world e

instance (sessionId : SessionId) (c : Config sessionService.system)
    (e : Event sessionService.system) : Decidable (OfSession sessionId c e) :=
  match e with
  | .start o => inferInstanceAs (Decidable (o.sessionId = sessionId))
  | .step _ => inferInstanceAs (Decidable True)
  | .env e => inferInstanceAs (Decidable (World.KeysSurvive c.world e))

end VerityBackend.Sessions
