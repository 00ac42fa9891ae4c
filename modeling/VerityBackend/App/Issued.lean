/-
VerityBackend.App.Issued — which commands the backend issues.

Each module that acts on the world has its lists (`Queue.Issued`,
`Session.Issued`, `Moderation.Issued`); here are those of the reads, the
chat, the payments and the refresh tokens, and one list for all operations
(`code_issues`).
-/
import VerityBackend.App.Service
import VerityBackend.Chat.Issued
import VerityBackend.Moderation.Issued
import VerityBackend.Queue.Issued

namespace VerityBackend.App

open Async

/-! ## Matches and chat -/

/-- The reads of `Matches.ReadCall`. -/
inductive ReadCommand (userId : UserId) : Cmd → Prop
  | matches {c : Cmd} (h : Matches.ReadCommand userId c) : ReadCommand userId c
  | messages {matchId : MatchId} {c : Cmd} (h : Chat.MessagesCommand matchId userId c) :
      ReadCommand userId c

theorem read_issues (userId : UserId) (call : Matches.ReadCall) :
    (call.code userId).Conforms (ReadCommand userId) True := by
  cases call with
  | listMatches blocksFirst => exact (Matches.listMatches_issues blocksFirst userId).mono fun _ h => .matches h
  | getReveal matchId => exact (Matches.getReveal_issues matchId userId).mono fun _ h => .matches h
  | acknowledgeReveal matchId => exact (Matches.acknowledgeReveal_issues matchId userId).mono fun _ h => .matches h
  | listMessages matchId limit =>
      exact (Chat.listMessages_issues matchId userId limit).mono fun _ h => .messages h

/-! ## Payments -/

/-- `handleStripeWebhookEvent`. -/
inductive PaymentsCommand (event : Payments.StripeEvent) : Cmd → Prop
  | find : PaymentsCommand event (.db (.tokenTransactionFindUnique event.id))
  | credit (purchase : Payments.Purchase) : PaymentsCommand event (.db (.creditTransaction
      purchase.userId purchase.packId purchase.tokens event.object.id event.id))
  | tell (purchase : Payments.Purchase) : PaymentsCommand event (.host (.emit
      [Payments.purchaseEvent "token_purchase_succeeded" event purchase,
        Payments.purchaseEvent "token_purchase_completed" event purchase]))

theorem handleStripeWebhookEvent_issues (event : Payments.StripeEvent) :
    (Payments.handleStripeWebhookEvent event).Conforms (PaymentsCommand event) True := by
  have hcredit (purchase : Payments.Purchase) :
      (Payments.creditPurchase event purchase).Conforms (PaymentsCommand event) True := by
    refine (Proc.conforms_await .find).bind fun existing => ?_
    split
    · exact Proc.conforms_pure ()
    · exact Proc.conforms_await (.credit purchase)
  unfold Payments.handleStripeWebhookEvent
  split
  · exact Proc.conforms_pure ()
  · exact (hcredit _).bind fun _ => Proc.conforms_await (.tell _)

/-! ## Refresh tokens -/

/-- `refreshSession`. -/
inductive RefreshCommand : Cmd → Prop
  | now : RefreshCommand (.host .now)
  | find (id : String) : RefreshCommand (.db (.refreshTokenFindUnique id))
  | rotate (cfg : AuthConfig) (stored : RefreshToken) (userId : UserId) (familyId : String)
      (now : Nat) (userAgent ipAddress : Option String) : RefreshCommand
        (.db (.refreshTokenRotate cfg stored userId familyId now userAgent ipAddress))
  | revoke (id : String) (now : Nat) : RefreshCommand (.db (.refreshTokenRevoke id now))
  | revokeFamily (familyId : String) (now : Nat) :
      RefreshCommand (.db (.refreshTokenRevokeFamily familyId now))

/-- The operations of `AuthService`. -/
inductive AuthCommand : Cmd → Prop
  | now : AuthCommand (.host .now)
  | draw : AuthCommand (.host .randomUUID)
  | user (userId : UserId) : AuthCommand (.db (.userFindUnique userId))
  | create (row : RefreshToken) : AuthCommand (.db (.refreshTokenCreate row))
  | refresh {c : Cmd} (h : RefreshCommand c) : AuthCommand c
  | revokeUser (userId : UserId) (now : Nat) : AuthCommand (.db (.refreshTokenRevokeUser userId now))

section Auth

variable (cfg : AuthConfig)

theorem issueTokens_issues (userId : UserId) (options : Auth.IssueOptions) :
    (Auth.issueTokens cfg userId options).Conforms AuthCommand True := by
  have hrole : (Auth.getUserRole userId).Conforms AuthCommand True := by
    refine (Proc.conforms_await (.user userId)).bind fun found => ?_
    cases found with
    | none => exact Proc.conforms_fail _ trivial
    | some user => exact Proc.conforms_pure user.role
  have haccess (role : Option UserRole) :
      (Auth.createAccessToken cfg userId role).Conforms AuthCommand True := by
    have hsign (r : UserRole) : ((host .now).bind fun now =>
        pure (cfg.signAccessToken now userId r)).Conforms AuthCommand True :=
      (Proc.conforms_await .now).bind fun _ => Proc.conforms_pure _
    cases role with
    | none => exact hrole.bind hsign
    | some r => exact hsign r
  have hrest (now : Nat) (familyId : String) : (do
      let refreshTokenId ← host .randomUUID
      let signedAt ← host .now
      let refreshToken := cfg.signRefreshToken signedAt userId familyId refreshTokenId
      prisma (.refreshTokenCreate
        ⟨refreshTokenId, userId, cfg.hashToken refreshToken, familyId, refreshExpiry now, none,
          none, options.userAgent, options.ipAddress, some now, now⟩)
      let accessToken ← Auth.createAccessToken cfg userId options.role
      pure (⟨accessToken, refreshToken⟩ : IssuedTokens)).Conforms AuthCommand True :=
    (Proc.conforms_await .draw).bind fun _ => (Proc.conforms_await .now).bind fun _ =>
      (Proc.conforms_await (.create _)).bind fun _ => (haccess _).bind fun _ => Proc.conforms_pure _
  refine (Proc.conforms_await .now).bind fun now => ?_
  cases options.familyId with
  | none => exact (Proc.conforms_await .draw).bind (hrest now)
  | some familyId => exact hrest now familyId

theorem refreshSession_issues (refreshToken : Jwt) (userAgent ipAddress : Option String) :
    (Auth.refreshSession cfg refreshToken userAgent ipAddress).Conforms RefreshCommand True := by
  have hverify : (Auth.verifyRefreshToken cfg refreshToken).Conforms RefreshCommand True := by
    refine (Proc.conforms_await .now).bind fun now => ?_
    split
    · exact Proc.conforms_fail _ trivial
    split
    · exact Proc.conforms_fail _ trivial
    · exact Proc.conforms_pure _
  have hrevoke (familyId : String) (now : Nat) (message : String) :
      (Auth.revokeFamilyAndThrow familyId now message).Conforms RefreshCommand True :=
    (Proc.conforms_await (.revokeFamily familyId now)).bind fun _ => Proc.conforms_fail _ trivial
  have hrotate (payload : Auth.RefreshPayload) (stored : RefreshToken) (now : Nat) :
      (Auth.rotate cfg payload stored now userAgent ipAddress).Conforms RefreshCommand True := by
    refine Proc.Conforms.tryCatch (Proc.conforms_await (.rotate _ _ _ _ _ _ _)) fun error => ?_
    split
    · exact hrevoke _ _ _
    · exact Proc.conforms_fail _ trivial
  refine hverify.bind fun payload => (Proc.conforms_await .now).bind fun now => ?_
  refine (Proc.conforms_await (.find _)).bind fun found => ?_
  cases found with
  | none => exact Proc.conforms_fail _ trivial
  | some stored =>
      dsimp only
      split
      · split
        · exact hrevoke _ _ _
        · exact Proc.conforms_fail _ trivial
      split
      · exact hrevoke _ _ _
      split
      · exact hrevoke _ _ _
      split
      · exact (Proc.conforms_await (.revoke _ _)).bind fun _ => Proc.conforms_fail _ trivial
      · exact hrotate _ _ _

theorem auth_issues (o : Auth.AuthOp) : (o.code cfg).Conforms AuthCommand True := by
  cases o with
  | signup userId userAgent ipAddress role => exact issueTokens_issues cfg userId ⟨none, userAgent, ipAddress, role⟩
  | refreshSession refreshToken userAgent ipAddress =>
      exact (refreshSession_issues cfg refreshToken userAgent ipAddress).mono fun _ h => .refresh h
  | logoutAll userId => exact (Proc.conforms_await .now).bind fun _ =>
      (Proc.conforms_await (.revokeUser userId _)).bind fun _ => Proc.conforms_pure ()

end Auth

/-! ## Every operation -/

/-- What an operation of the queue issues. -/
inductive QueueOpCommand : Queue.QueueOp → Cmd → Prop
  | join {userId : UserId} {input : Queue.QueueJoinInput} {c : Cmd}
      (h : Queue.JoinCommand userId input c) : QueueOpCommand (.joinQueue userId input) c
  | leave {userId : UserId} {c : Cmd} (h : Queue.LeaveCommand userId c) :
      QueueOpCommand (.leaveQueue userId) c
  | pass {queueKey : QueueKey} {c : Cmd} (h : Queue.PassCommand queueKey c) :
      QueueOpCommand (.processQueueKey queueKey) c

/-- What an operation of the backend issues. -/
inductive AppCommand (cfg : AppConfig) : AppOp → Cmd → Prop
  | queue {o : Queue.QueueOp} {c : Cmd} (h : QueueOpCommand o c) : AppCommand cfg (.queue o) c
  | created {self : Instance} {session : Session} {c : Cmd}
      (h : Sessions.CreatedCommand self session c) :
      AppCommand cfg (.handleSessionCreated self session) c
  | timeout {self : Instance} {id : SessionId} {userAId userBId : UserId} {c : Cmd}
      (h : Sessions.EndCommand self (Sessions.buildSyntheticSession id userAId userBId) .timeout c) :
      AppCommand cfg (.sessionTimeout self id userAId userBId) c
  | finalize {self : Instance} {id : SessionId} {userAId userBId : UserId} {c : Cmd}
      (h : Sessions.FinalizeCommand self (Sessions.buildSyntheticSession id userAId userBId) c) :
      AppCommand cfg (.choiceTimeout self id userAId userBId) c
  | submit {self : Instance} {id : SessionId} {userId : UserId} {choice : SessionChoice} {c : Cmd}
      (h : Sessions.SubmitCommand self id userId choice c) :
      AppCommand cfg (.submitChoice self id userId choice) c
  | init {self : Instance} {c : Cmd} (h : Sessions.InitCommand self c) :
      AppCommand cfg (.onModuleInit self) c
  | cleanup {c : Cmd} (h : Sessions.CleanupCommand c) : AppCommand cfg .cleanupExpiredSessions c
  | report {reporterId : UserId} {input : Moderation.ReportUserDto} {c : Cmd}
      (h : Moderation.ReportCommand reporterId input c) :
      AppCommand cfg (.createReport reporterId input) c
  | block {blockerId blockedId : UserId} {c : Cmd}
      (h : Moderation.BlockCommand blockerId blockedId c) :
      AppCommand cfg (.createBlock blockerId blockedId) c
  | unblock {blockerId blockedId : UserId} {c : Cmd}
      (h : Moderation.UnblockCommand blockerId blockedId c) :
      AppCommand cfg (.unblock blockerId blockedId) c
  | resolve {reportId : String} {action : Moderation.ModerationAction} {c : Cmd}
      (h : Moderation.ResolveCommand reportId action c) :
      AppCommand cfg (.resolveReport reportId action) c
  | check {self : Instance} {sched : Moderation.Schedules} {rawBody : Moderation.Body}
      {delivery : Moderation.HiveWebhookDelivery} :
      AppCommand cfg (.hiveWebhook self sched rawBody delivery) (.host .now)
  | webhook {self : Instance} {sched : Moderation.Schedules} {rawBody : Moderation.Body}
      {delivery : Moderation.HiveWebhookDelivery} {c : Cmd}
      (h : Moderation.WebhookCommand self (cfg.hive.parse rawBody) c) :
      AppCommand cfg (.hiveWebhook self sched rawBody delivery) c
  | read {userId : UserId} {call : Matches.ReadCall} {c : Cmd} (h : ReadCommand userId c) :
      AppCommand cfg (.read userId call) c
  | send {matchId : MatchId} {userId : UserId} {text : String} {c : Cmd}
      (h : Chat.SendCommand matchId userId c) : AppCommand cfg (.sendMessage matchId userId text) c
  | payments {o : Payments.PaymentsOp} {c : Cmd} (h : PaymentsCommand o.event c) :
      AppCommand cfg (.payments o) c
  | auth {o : Auth.AuthOp} {c : Cmd} (h : AuthCommand c) : AppCommand cfg (.auth o) c

theorem queue_issues (o : Queue.QueueOp) : o.code.Conforms (QueueOpCommand o) True := by
  cases o with
  | joinQueue userId input => exact (Queue.joinQueue_issues userId input).mono fun _ h => .join h
  | leaveQueue userId => exact (Queue.leaveQueue_issues userId).mono fun _ h => .leave h
  | processQueueKey queueKey =>
      exact (Queue.processQueueKey_issues queueKey).mono fun _ h => .pass h

theorem code_issues (cfg : AppConfig) (o : AppOp) : (o.code cfg).Conforms (AppCommand cfg o) True := by
  cases o with
  | queue o => exact (queue_issues o).mono fun _ h => .queue h
  | handleSessionCreated self session =>
      exact (Sessions.handleSessionCreated_issues self session).mono fun _ h => .created h
  | sessionTimeout self id userAId userBId =>
      exact (Sessions.endSession_issues self _ .timeout).mono fun _ h => .timeout h
  | choiceTimeout self id userAId userBId =>
      exact (Sessions.finalizeDecision_issues self _ _ _).mono fun _ h => .finalize h
  | submitChoice self id userId choice =>
      exact (Sessions.submitChoice_issues self id userId choice).mono fun _ h => .submit h
  | onModuleInit self => exact (Sessions.onModuleInit_issues self).mono fun _ h => .init h
  | cleanupExpiredSessions => exact Sessions.cleanupExpiredSessions_issues.mono fun _ h => .cleanup h
  | createReport reporterId input =>
      exact (Moderation.createReport_issues reporterId input).mono fun _ h => .report h
  | createBlock blockerId blockedId =>
      exact (Moderation.createBlock_issues blockerId blockedId).mono fun _ h => .block h
  | unblock blockerId blockedId =>
      exact (Moderation.unblock_issues blockerId blockedId).mono fun _ h => .unblock h
  | resolveReport reportId action =>
      exact (Moderation.resolveReport_issues reportId action).mono fun _ h => .resolve h
  | hiveWebhook self sched rawBody delivery =>
      refine ((Moderation.verifyWebhookSignature_issues cfg.hive rawBody _ _).mono ?_).bind fun _ =>
        (Moderation.handleWebhook_issues self sched _ delivery).mono fun _ h => .webhook h
      intro c h
      rw [h]
      exact .check
  | read userId call => exact (read_issues userId call).mono fun _ h => .read h
  | sendMessage matchId userId text =>
      exact (Chat.sendMessage_issues matchId userId text).mono fun _ h => .send h
  | payments o => exact (handleStripeWebhookEvent_issues o.event).mono fun _ h => .payments h
  | auth o => exact (auth_issues cfg.auth o).mono fun _ h => .auth h

end VerityBackend.App
