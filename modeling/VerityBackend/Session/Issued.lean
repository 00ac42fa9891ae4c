/-
VerityBackend.Session.Issued — which commands the sessions issue.

One inductive predicate for each procedure lists the commands it can issue,
as `Queue.Issued` does for the queue. `FinalizeCommand` is about every
finalizer of a session, whatever the two choices are.
-/
import VerityBackend.Session.Service

namespace VerityBackend.Sessions

open Async

/-! ## Decisions -/

/-- The stored decision: it is read, set with `NX`, or set over a pending
one. -/
inductive StoreCommand (id : SessionId) : Cmd → Prop
  | read : StoreCommand id (.redis (.get (.sessionDecision id)))
  | claim (payload : ResolvedChoiceResult) : StoreCommand id
      (.redis (.setNX (.sessionDecision id) payload.payload CHOICE_STATE_TTL_MS))
  | overwrite (payload : ResolvedChoiceResult) : StoreCommand id
      (.redis (.set (.sessionDecision id) payload.payload (some CHOICE_STATE_TTL_MS)))

/-- `buildPartnerRevealForUser`. -/
inductive PartnerCommand : Cmd → Prop
  | find (userId : UserId) : PartnerCommand (.db (.userFindUnique userId))

/-- `announceDecision`. -/
inductive AnnounceCommand (self : Instance) (session : Session) : Cmd → Prop
  | track (payload : ResolvedChoiceResult) (bothPassed : Bool) : AnnounceCommand self session
      (.host (.emit (resolvedEvents session.id session.userAId payload bothPassed ++
        resolvedEvents session.id session.userBId payload bothPassed)))
  | partner {c : Cmd} (h : PartnerCommand c) : AnnounceCommand self session c
  | tellMutual (matchId : MatchId) (revealForUserA revealForUserB : Option PartnerReveal) :
      AnnounceCommand self session (.host (.emit
        [.matchMutual session.userAId session.id matchId revealForUserA,
          .matchMutual session.userBId session.id matchId revealForUserB]))
  | push (matchId : MatchId) : AnnounceCommand self session (.host (.emit
      [.push [session.userAId, session.userBId] .match_mutual
        [("sessionId", .str session.id), ("matchId", .str matchId)]]))
  | tellNonMutual : AnnounceCommand self session (.host (.emit
      [.matchNonMutual session.userAId session.id, .matchNonMutual session.userBId session.id]))
  | disarm : AnnounceCommand self session (.host (.clearChoiceTimeout self session.id))

/-- `finalizeDecision`. -/
inductive FinalizeCommand (self : Instance) (session : Session) : Cmd → Prop
  | store {c : Cmd} (h : StoreCommand session.id c) : FinalizeCommand self session c
  | upsert (userLow userHigh : UserId) :
      FinalizeCommand self session (.db (.matchUpsert userLow userHigh))
  | announce {c : Cmd} (h : AnnounceCommand self session c) : FinalizeCommand self session c

/-- `ensureChoiceDeadline`. -/
inductive DeadlineCommand (id : SessionId) : Cmd → Prop
  | read : DeadlineCommand id (.redis (.get (.sessionChoiceDeadline id)))
  | now : DeadlineCommand id (.host .now)
  | store (deadline : Nat) : DeadlineCommand id
      (.redis (.setNX (.sessionChoiceDeadline id) (.date deadline) CHOICE_STATE_TTL_MS))

/-- `evaluateChoices`. -/
inductive EvaluateCommand (self : Instance) (session : Session) : Cmd → Prop
  | choices : EvaluateCommand self session (.redis (.hmget session.id session.userAId session.userBId))
  | now : EvaluateCommand self session (.host .now)
  | finalize {c : Cmd} (h : FinalizeCommand self session c) : EvaluateCommand self session c

/-- `expireChoices`: the rest of the window is at least a millisecond. -/
inductive ExpireCommand (id : SessionId) : Cmd → Prop
  | now : ExpireCommand id (.host .now)
  | expire {ttl : Nat} (h : 0 < ttl) : ExpireCommand id (.redis (.pexpireChoices id ttl))

/-- `submitChoice`, with everything it does for the session it finds. -/
inductive SubmitCommand (self : Instance) (sessionId : SessionId) (userId : UserId)
    (choice : SessionChoice) : Cmd → Prop
  | find : SubmitCommand self sessionId userId choice (.db (.sessionFindUnique sessionId))
  | ended : SubmitCommand self sessionId userId choice (.redis (.get (.sessionEnded sessionId)))
  | evaluate {session : Session} {c : Cmd} (h : EvaluateCommand self session c) :
      SubmitCommand self sessionId userId choice c
  | deadline {c : Cmd} (h : DeadlineCommand sessionId c) :
      SubmitCommand self sessionId userId choice c
  | chosen : SubmitCommand self sessionId userId choice (.redis (.hget sessionId userId))
  | choose : SubmitCommand self sessionId userId choice (.redis (.hset sessionId userId choice))
  | expire {c : Cmd} (h : ExpireCommand sessionId c) : SubmitCommand self sessionId userId choice c
  | tell : SubmitCommand self sessionId userId choice (.host (.emit
      [.track userId "session_choice_submitted"
        [("sessionId", .str sessionId), ("choice", .str (choiceName choice))]]))

/-! ## Start and end -/

/-- `endSession`. -/
inductive EndCommand (self : Instance) (session : Session) (reason : EndReason) : Cmd → Prop
  | claim : EndCommand self session reason
      (.redis (.setNX (.sessionEnded session.id) (.text "1") SESSION_STATE_TTL_MS))
  | disarm : EndCommand self session reason (.host (.clearSessionEnd self session.id))
  | release : EndCommand self session reason
      (.redis (.del [.sessionActive session.userAId, .sessionActive session.userBId]))
  | now : EndCommand self session reason (.host .now)
  | tell (now : Nat) : EndCommand self session reason (.host (.emit
      [.sessionEnd session.userAId session.id reason now,
        .sessionEnd session.userBId session.id reason now,
        endedEvent session.id session.userAId reason ((now - session.createdAt + 500) / 1000),
        endedEvent session.id session.userBId reason ((now - session.createdAt + 500) / 1000)]))
  | deadline {c : Cmd} (h : DeadlineCommand session.id c) : EndCommand self session reason c
  | arm (deadline : Nat) : EndCommand self session reason
      (.host (.scheduleChoiceTimeout self session.id session.userAId session.userBId deadline))

/-- `persistSessionState`. -/
inductive PersistCommand (session : Session) : Cmd → Prop
  | state (channelName : String) (startAt endAt : Nat) : PersistCommand session
      (.redis (.set (.sessionState session.id)
        (.json [("sessionId", .str session.id), ("userAId", .str session.userAId),
          ("userBId", .str session.userBId), ("channelName", .str channelName),
          ("startAt", .date startAt), ("endAt", .date endAt)])
        (some SESSION_STATE_TTL_MS)))
  | activate (userId : UserId) : PersistCommand session
      (.redis (.set (.sessionActive userId) (.text session.id) (some SESSION_STATE_TTL_MS)))

/-- `startSession`. -/
inductive StartCommand (self : Instance) (session : Session) : Cmd → Prop
  | tell (tokens : SessionTokens) (startAt endAt : Nat) : StartCommand self session (.host (.emit
      [.sessionStart session.userAId session.id tokens.channelName (tokens.byUser session.userAId)
          startAt endAt tokens.expiresAt (SESSION_DURATION_MS / 1000),
        .sessionStart session.userBId session.id tokens.channelName (tokens.byUser session.userBId)
          startAt endAt tokens.expiresAt (SESSION_DURATION_MS / 1000),
        .track session.userAId "session_started" [("sessionId", .str session.id),
          ("durationSeconds", .num (SESSION_DURATION_MS / 1000))],
        .track session.userBId "session_started" [("sessionId", .str session.id),
          ("durationSeconds", .num (SESSION_DURATION_MS / 1000))]]))
  | arm (endAt : Nat) : StartCommand self session
      (.host (.scheduleSessionEnd self session.id session.userAId session.userBId endAt))

/-- `handleSessionCreated`. -/
inductive CreatedCommand (self : Instance) (session : Session) : Cmd → Prop
  | lock : CreatedCommand self session
      (.redis (.setNX (.sessionLock session.id) (.text "1") SESSION_LOCK_TTL_MS))
  | now : CreatedCommand self session (.host .now)
  | tokens : CreatedCommand self session
      (.host (.buildSessionTokens session.id session.userAId session.userBId))
  | persist {c : Cmd} (h : PersistCommand session c) : CreatedCommand self session c
  | start {c : Cmd} (h : StartCommand self session c) : CreatedCommand self session c
  | finish {c : Cmd} (h : EndCommand self session .token_error c) : CreatedCommand self session c

/-! ## Recovery -/

/-- `recoverSessionEnd`: the stored state names the session. -/
inductive RecoverEndCommand (self : Instance) (sessionId : SessionId) : Cmd → Prop
  | state : RecoverEndCommand self sessionId (.redis (.get (.sessionState sessionId)))
  | ended (id : SessionId) : RecoverEndCommand self sessionId (.redis (.get (.sessionEnded id)))
  | now : RecoverEndCommand self sessionId (.host .now)
  | finish {session : Session} {c : Cmd} (h : EndCommand self session .timeout c)
      (hsynthetic : session.createdAt = 0) : RecoverEndCommand self sessionId c
  | arm (id : SessionId) (userAId userBId : UserId) (endAt : Nat) :
      RecoverEndCommand self sessionId (.host (.scheduleSessionEnd self id userAId userBId endAt))

/-- `resolveSessionParticipants`. -/
inductive ParticipantsCommand (id : SessionId) : Cmd → Prop
  | state : ParticipantsCommand id (.redis (.get (.sessionState id)))
  | find : ParticipantsCommand id (.db (.sessionFindUnique id))

/-- `recoverChoice`. -/
inductive RecoverChoiceCommand (self : Instance) (id : SessionId) : Cmd → Prop
  | decision : RecoverChoiceCommand self id (.redis (.get (.sessionDecision id)))
  | deadline : RecoverChoiceCommand self id (.redis (.get (.sessionChoiceDeadline id)))
  | participants {c : Cmd} (h : ParticipantsCommand id c) : RecoverChoiceCommand self id c
  | now : RecoverChoiceCommand self id (.host .now)
  | finalize {userAId userBId : UserId} {c : Cmd}
      (h : FinalizeCommand self (buildSyntheticSession id userAId userBId) c) :
      RecoverChoiceCommand self id c
  | arm (userAId userBId : UserId) (deadline : Nat) : RecoverChoiceCommand self id
      (.host (.scheduleChoiceTimeout self id userAId userBId deadline))

/-- `onModuleInit`. -/
inductive InitCommand (self : Instance) : Cmd → Prop
  | now : InitCommand self (.host .now)
  | scanStates : InitCommand self (.redis .scanSessionStates)
  | scanDeadlines : InitCommand self (.redis .scanChoiceDeadlines)
  | recoverEnd {id : SessionId} {c : Cmd} (h : RecoverEndCommand self id c) : InitCommand self c
  | recoverChoice {id : SessionId} {c : Cmd} (h : RecoverChoiceCommand self id c) :
      InitCommand self c

/-- `cleanupExpiredSessions`. -/
inductive CleanupCommand : Cmd → Prop
  | now : CleanupCommand (.host .now)
  | delete (before : Nat) : CleanupCommand (.db (.sessionDeleteMany before))

/-! ## Finalizing -/

section Finalize

variable (self : Instance) (session : Session)

theorem readStoredDecision_issues (id : SessionId) :
    (readStoredDecision id).Conforms (StoreCommand id) True :=
  (Proc.conforms_await .read).bind fun _ => Proc.conforms_pure _

theorem storeDecision_issues (id : SessionId) (existing : ParsedStoredDecision)
    (payload : ResolvedChoiceResult) :
    (storeDecision id existing payload).Conforms (StoreCommand id) True := by
  have hoverwrite : (overwriteDecision id payload).Conforms (StoreCommand id) True :=
    (Proc.conforms_await (.overwrite payload)).bind fun _ => Proc.conforms_pure _
  have hunless : (storeUnlessDecided id payload).Conforms (StoreCommand id) True := by
    refine (Proc.conforms_await (.claim payload)).bind fun stored => ?_
    split
    · exact Proc.conforms_pure _
    · refine (readStoredDecision_issues id).bind fun found => ?_
      cases found with
      | pending deadline => exact hoverwrite
      | _ => exact Proc.conforms_pure _
  cases existing with
  | pending deadline => exact hoverwrite
  | _ => exact hunless

theorem buildPartnerReveal_issues (userId : UserId) :
    (buildPartnerRevealForUser session userId).Conforms PartnerCommand True := by
  unfold buildPartnerRevealForUser
  dsimp only
  split
  · exact Proc.conforms_pure _
  split
  · exact Proc.conforms_pure _
  · exact (Proc.conforms_await (.find _)).bind fun _ => Proc.conforms_pure _

theorem enrich_issues (result : ChoiceResult) (userId : UserId) :
    (enrichChoiceResultForUser result session userId).Conforms PartnerCommand True := by
  unfold enrichChoiceResultForUser
  split
  · refine (buildPartnerReveal_issues session userId).bind fun reveal => ?_
    cases reveal <;> exact Proc.conforms_pure _
  · exact Proc.conforms_pure _

theorem decisionOf_issues (choiceA choiceB : SessionChoice) :
    (decisionOf session choiceA choiceB).Conforms (FinalizeCommand self session) True := by
  unfold decisionOf
  split
  · refine (Proc.conforms_await (.upsert _ _)).bind fun m => ?_
    split
    · exact Proc.conforms_fail _ trivial
    · exact Proc.conforms_pure _
  · exact Proc.conforms_pure _

theorem announceDecision_issues (choiceA choiceB : SessionChoice) (payload : ResolvedChoiceResult) :
    (announceDecision self session choiceA choiceB payload).Conforms (AnnounceCommand self session)
      True := by
  have hdisarm : (host (.clearChoiceTimeout self session.id)).Conforms
      (AnnounceCommand self session) True := Proc.conforms_await .disarm
  refine (Proc.conforms_await (.track payload _)).bind fun _ => ?_
  cases payload with
  | nonMutual => exact (Proc.conforms_await .tellNonMutual).bind fun _ => hdisarm
  | «mutual» matchId =>
      have hmutual : (emitMatchMutual session matchId).Conforms (AnnounceCommand self session) True :=
        ((buildPartnerReveal_issues session _).mono fun _ h => .partner h).bind fun _ =>
          ((buildPartnerReveal_issues session _).mono fun _ h => .partner h).bind fun _ =>
            Proc.conforms_await (.tellMutual matchId _ _)
      exact hmutual.bind fun _ => (Proc.conforms_await (.push matchId)).bind fun _ => hdisarm

theorem settleDecision_issues (choiceA choiceB : SessionChoice) (existing : ParsedStoredDecision) :
    (settleDecision self session choiceA choiceB existing).Conforms (FinalizeCommand self session)
      True := by
  refine (decisionOf_issues self session choiceA choiceB).bind fun payload => ?_
  refine ((storeDecision_issues session.id existing payload).mono fun _ h => .store h).bind
    fun stored => ?_
  cases stored with
  | some value => exact Proc.conforms_pure _
  | none =>
      exact ((announceDecision_issues self session choiceA choiceB payload).mono
        fun _ h => .announce h).bind fun _ => Proc.conforms_pure _

theorem finalizeDecision_issues (choiceA choiceB : SessionChoice) :
    (finalizeDecision self session choiceA choiceB).Conforms (FinalizeCommand self session) True := by
  refine ((readStoredDecision_issues session.id).mono fun _ h => .store h).bind fun existing => ?_
  cases existing with
  | resolved value => exact Proc.conforms_pure _
  | none | invalid | pending deadline => exact settleDecision_issues self session choiceA choiceB _

end Finalize

/-! ## Choosing -/

section Choosing

variable (self : Instance) (sessionId : SessionId) (userId : UserId) (choice : SessionChoice)

theorem ensureChoiceDeadline_issues {b : Prop} :
    (ensureChoiceDeadline sessionId).Conforms (DeadlineCommand sessionId) b := by
  refine (Proc.conforms_await .read).bind fun existing => ?_
  split
  · exact Proc.conforms_pure _
  · exact (Proc.conforms_await .now).bind fun now =>
      (Proc.conforms_await (.store _)).bind fun _ => Proc.conforms_pure _

theorem expireChoices_issues (deadline : JsDate) :
    (expireChoices sessionId deadline).Conforms (ExpireCommand sessionId) True := by
  cases deadline with
  | none => exact Proc.conforms_fail _ trivial
  | some ms => exact (Proc.conforms_await .now).bind fun now =>
      Proc.conforms_await (.expire (Nat.lt_of_lt_of_le Nat.one_pos (Nat.le_max_left ..)))

theorem evaluateChoices_issues (session : Session) (deadline : JsDate) :
    (evaluateChoices self session deadline).Conforms (EvaluateCommand self session) True := by
  have hfinal (choiceA choiceB : SessionChoice) : (finalizeDecision self session choiceA
      choiceB).Conforms (EvaluateCommand self session) True :=
    (finalizeDecision_issues self session choiceA choiceB).mono fun _ h => .finalize h
  refine (Proc.conforms_await .choices).bind fun choices => ?_
  dsimp only
  split
  · exact hfinal _ _
  split
  · exact hfinal _ _
  refine (Proc.conforms_await .now).bind fun now => ?_
  split
  · exact hfinal _ _
  · cases deadline with
    | none => exact Proc.conforms_fail _ trivial
    | some ms => exact Proc.conforms_pure _

theorem getDecision_issues (session : Session) : (getDecision session userId).Conforms
    (FinalizeCommand self session) True := by
  have henrich (result : ChoiceResult) :
      ((enrichChoiceResultForUser result session userId).bind fun r => pure (some r)).Conforms
        (FinalizeCommand self session) True :=
    ((enrich_issues session result userId).mono fun _ h => .announce (.partner h)).bind
      fun _ => Proc.conforms_pure _
  refine ((readStoredDecision_issues session.id).mono fun _ h => .store h).bind fun decision => ?_
  cases decision with
  | resolved value | pending deadline => exact henrich _
  | none | invalid => exact Proc.conforms_pure _

theorem submitChoice_issues : (submitChoice self sessionId userId choice).Conforms
    (SubmitCommand self sessionId userId choice) True := by
  refine (Proc.conforms_await .find).bind fun found => ?_
  cases found with
  | none => exact Proc.conforms_fail _ trivial
  | some session =>
      dsimp only
      split
      · exact Proc.conforms_fail _ trivial
      refine (Proc.conforms_await .ended).bind fun ended => ?_
      split
      · exact Proc.conforms_fail _ trivial
      refine ((getDecision_issues self userId session).mono fun _ h => .evaluate (.finalize h)).bind
        fun storedDecision => ?_
      cases storedDecision with
      | some storedDecision => exact Proc.conforms_pure _
      | none =>
          refine ((ensureChoiceDeadline_issues sessionId).mono fun _ h => .deadline h).bind
            fun deadline => (Proc.conforms_await .chosen).bind fun existingChoice => ?_
          have hevaluated : ((evaluateChoices self session deadline).bind fun evaluated =>
              enrichChoiceResultForUser evaluated session userId).Conforms
                (SubmitCommand self sessionId userId choice) True :=
            ((evaluateChoices_issues self session deadline).mono fun _ h => .evaluate h).bind
              fun evaluated => (enrich_issues session evaluated userId).mono fun _ h =>
                .evaluate (.finalize (.announce (.partner h) : FinalizeCommand self session _))
          split
          · exact hevaluated
          · exact (Proc.conforms_await .choose).bind fun _ =>
              ((expireChoices_issues sessionId deadline).mono fun _ h => .expire h).bind fun _ =>
                (Proc.conforms_await .tell).bind fun _ => hevaluated

end Choosing

/-! ## Start and end -/

section Lifecycle

variable (self : Instance) (session : Session)

theorem endSession_issues {b : Prop} (reason : EndReason) :
    (endSession self session reason).Conforms (EndCommand self session reason) b := by
  refine (Proc.conforms_await .claim).bind fun alreadyEnded => ?_
  split
  · exact Proc.conforms_pure ()
  refine (Proc.conforms_await .disarm).bind fun _ => (Proc.conforms_await .release).bind fun _ => ?_
  refine (Proc.conforms_await .now).bind fun now => (Proc.conforms_await (.tell now)).bind fun _ => ?_
  exact ((ensureChoiceDeadline_issues session.id).mono fun _ h => .deadline h).bind
    fun deadline => Proc.conforms_await (.arm _)

theorem persistSessionState_issues (channelName : String) (startAt endAt : Nat) :
    (persistSessionState session channelName startAt endAt).Conforms (PersistCommand session) True :=
  (Proc.conforms_await (.state channelName startAt endAt)).bind fun _ =>
    (Proc.conforms_await (.activate _)).bind fun _ => Proc.conforms_await (.activate _)

theorem startSession_issues (tokens : SessionTokens) (startAt endAt : Nat) :
    (startSession self session tokens startAt endAt).Conforms (StartCommand self session) True :=
  (Proc.conforms_await (.tell tokens startAt endAt)).bind fun _ => Proc.conforms_await (.arm endAt)

theorem handleSessionCreated_issues :
    (handleSessionCreated self session).Conforms (CreatedCommand self session) True := by
  refine (Proc.conforms_await .lock).bind fun lockAcquired => ?_
  split
  · exact Proc.conforms_pure ()
  refine (Proc.conforms_await .now).bind fun startAt => ?_
  refine Proc.Conforms.tryCatch ?_ fun _ =>
    (endSession_issues self session .token_error).mono fun _ h => .finish h
  exact (Proc.conforms_await .tokens).bind fun tokens =>
    ((persistSessionState_issues session _ _ _).mono fun _ h => .persist h).bind fun _ =>
      (startSession_issues self session tokens _ _).mono fun _ h => .start h

end Lifecycle

/-! ## Recovering -/

section Recovery

variable (self : Instance) (sessionId : SessionId)

theorem recoverSessionEnd_issues :
    (recoverSessionEnd self sessionId).Conforms (RecoverEndCommand self sessionId) True := by
  refine (Proc.conforms_await .state).bind fun raw => ?_
  cases parseSessionState raw with
  | none => exact Proc.conforms_pure ()
  | some state =>
      refine (Proc.conforms_await (.ended _)).bind fun ended => ?_
      split
      · exact Proc.conforms_pure ()
      split
      · exact Proc.conforms_pure ()
      refine (Proc.conforms_await .now).bind fun now => ?_
      split
      · exact (endSession_issues self _ .timeout).mono fun _ h => .finish h rfl
      · exact Proc.conforms_await (.arm _ _ _ _)

theorem resolveSessionParticipants_issues :
    (resolveSessionParticipants sessionId).Conforms (ParticipantsCommand sessionId) True := by
  refine (Proc.conforms_await .state).bind fun raw => ?_
  cases parseSessionState raw with
  | some state => exact Proc.conforms_pure _
  | none =>
      refine (Proc.conforms_await .find).bind fun found => ?_
      cases found <;> exact Proc.conforms_pure _

theorem recoveryDeadline_issues (decision : ParsedStoredDecision) :
    (recoveryDeadline sessionId decision).Conforms (RecoverChoiceCommand self sessionId) True := by
  have hstored : ((redis (.get (.sessionChoiceDeadline sessionId))).bind fun raw =>
      pure (raw.bind RedisString.parseDate)).Conforms (RecoverChoiceCommand self sessionId) True :=
    (Proc.conforms_await .deadline).bind fun _ => Proc.conforms_pure _
  cases decision with
  | pending deadline => exact Proc.conforms_pure _
  | _ => exact hstored

theorem recoverFrom_issues (deadline : Nat) : (recoverFrom self sessionId deadline).Conforms
    (RecoverChoiceCommand self sessionId) True := by
  refine ((resolveSessionParticipants_issues sessionId).mono fun _ h => .participants h).bind
    fun participants => ?_
  cases participants with
  | none => exact Proc.conforms_pure ()
  | some pair =>
      refine (Proc.conforms_await .now).bind fun now => ?_
      split
      · exact ((finalizeDecision_issues self (buildSyntheticSession sessionId pair.1 pair.2) _ _).mono
          fun _ h => .finalize h).bind fun _ => Proc.conforms_pure ()
      · exact Proc.conforms_await (.arm _ _ _)

theorem recoverChoice_issues :
    (recoverChoice self sessionId).Conforms (RecoverChoiceCommand self sessionId) True := by
  have hrest (decision : ParsedStoredDecision) : ((recoveryDeadline sessionId decision).bind
      (recoverBy self sessionId)).Conforms (RecoverChoiceCommand self sessionId) True := by
    refine (recoveryDeadline_issues self sessionId decision).bind fun deadline => ?_
    cases deadline with
    | none => exact Proc.conforms_pure ()
    | some deadline => exact recoverFrom_issues self sessionId deadline
  unfold recoverChoice
  split
  · exact Proc.conforms_pure ()
  refine Proc.Conforms.bind ((Proc.conforms_await .decision).bind fun _ => Proc.conforms_pure _)
    fun decision => ?_
  cases decision with
  | resolved value => exact Proc.conforms_pure ()
  | none | invalid | pending deadline => exact hrest _

theorem recoverEach_issues {recover : SessionId → Prog Unit}
    (h : ∀ id, (recover id).Conforms (InitCommand self) True) (startedAt : Nat)
    (ids : List SessionId) : (recoverEach recover startedAt ids).Conforms (InitCommand self) True := by
  induction ids with
  | nil => exact Proc.conforms_pure ()
  | cons id rest ih =>
      refine (Proc.conforms_await .now).bind fun now => ?_
      split
      · exact Proc.conforms_pure ()
      · exact (h id).bind fun _ => ih

theorem onModuleInit_issues : (onModuleInit self).Conforms (InitCommand self) True := by
  have hends : (recoverSessionEndTimers self).Conforms (InitCommand self) True :=
    (Proc.conforms_await .now).bind fun startedAt => (Proc.conforms_await .scanStates).bind
      fun keys => recoverEach_issues self
        (fun id => (recoverSessionEnd_issues self id).mono fun _ h => .recoverEnd h) startedAt keys
  have hchoices : (recoverChoiceTimeouts self).Conforms (InitCommand self) True :=
    (Proc.conforms_await .now).bind fun startedAt => (Proc.conforms_await .scanDeadlines).bind
      fun keys => recoverEach_issues self
        (fun id => (recoverChoice_issues self id).mono fun _ h => .recoverChoice h) startedAt keys
  exact hends.bind fun _ => hchoices

theorem cleanupExpiredSessions_issues : cleanupExpiredSessions.Conforms CleanupCommand True :=
  (Proc.conforms_await .now).bind fun _ => (Proc.conforms_await (.delete _)).bind
    fun _ => Proc.conforms_pure ()

end Recovery

end VerityBackend.Sessions
