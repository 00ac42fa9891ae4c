/-
VerityBackend.App.Service — the whole backend (`app.module.ts`): every
modelled operation of every module, over one world.

The calls of the controllers are operations, and so are the callbacks that
the backend leaves to its timers (`sessionTimeout`, `choiceTimeout`), the
passes of the matching worker and of its cleanup, and the call
`void sessionService.handleSessionCreated(session)`.
-/
import VerityBackend.Auth.Service
import VerityBackend.Matches.Blocks
import VerityBackend.Moderation.Service
import VerityBackend.Payments.Service
import VerityBackend.Queue.Service

namespace VerityBackend.App

open Async

structure AppConfig where
  auth : AuthConfig
  hive : Moderation.HiveConfig

inductive AppOp where
  | queue (o : Queue.QueueOp)
  | handleSessionCreated (self : Instance) (session : Session)
  | sessionTimeout (self : Instance) (sessionId : SessionId) (userAId userBId : UserId)
  | choiceTimeout (self : Instance) (sessionId : SessionId) (userAId userBId : UserId)
  | submitChoice (self : Instance) (sessionId : SessionId) (userId : UserId)
      (choice : SessionChoice)
  | onModuleInit (self : Instance)
  | cleanupExpiredSessions
  | createReport (reporterId : UserId) (input : Moderation.ReportUserDto)
  | createBlock (blockerId blockedId : UserId)
  | unblock (blockerId blockedId : UserId)
  | resolveReport (reportId : String) (action : Moderation.ModerationAction)
  | hiveWebhook (self : Instance) (sched : Moderation.Schedules) (rawBody : Moderation.Body)
      (delivery : Moderation.HiveWebhookDelivery)
  | read (userId : UserId) (call : Matches.ReadCall)
  | sendMessage (matchId : MatchId) (userId : UserId) (text : String)
  | payments (o : Payments.PaymentsOp)
  | auth (o : Auth.AuthOp)
  deriving DecidableEq, Repr

abbrev AppOp.Ret : AppOp → Type
  | .queue o => o.Ret
  | .handleSessionCreated _ _ => Unit
  | .sessionTimeout _ _ _ _ => Unit
  | .choiceTimeout _ _ _ _ => Sessions.ChoiceResult
  | .submitChoice _ _ _ _ => Sessions.ChoiceResult
  | .onModuleInit _ => Unit
  | .cleanupExpiredSessions => Unit
  | .createReport _ _ => ModerationReport
  | .createBlock _ _ => Moderation.BlockResult
  | .unblock _ _ => Moderation.UnblockResult
  | .resolveReport _ _ => Moderation.ResolveResult
  | .hiveWebhook _ _ _ _ => Unit
  | .read _ call => call.Ret
  | .sendMessage _ _ _ => Message
  | .payments _ => Unit
  | .auth o => o.Ret

def AppOp.code (cfg : AppConfig) : (o : AppOp) → Prog o.Ret
  | .queue o => o.code
  | .handleSessionCreated self session => Sessions.handleSessionCreated self session
  | .sessionTimeout self sessionId userAId userBId =>
      Sessions.sessionTimeout self sessionId userAId userBId
  | .choiceTimeout self sessionId userAId userBId =>
      Sessions.choiceTimeout self sessionId userAId userBId
  | .submitChoice self sessionId userId choice =>
      Sessions.submitChoice self sessionId userId choice
  | .onModuleInit self => Sessions.onModuleInit self
  | .cleanupExpiredSessions => Sessions.cleanupExpiredSessions
  | .createReport reporterId input => Moderation.createReport reporterId input
  | .createBlock blockerId blockedId => Moderation.createBlock blockerId blockedId
  | .unblock blockerId blockedId => Moderation.unblock blockerId blockedId
  | .resolveReport reportId action => Moderation.resolveReport reportId action
  | .hiveWebhook self sched rawBody delivery =>
      Moderation.hiveWebhook cfg.hive self sched rawBody delivery
  | .read userId call => call.code userId
  | .sendMessage matchId userId text => Chat.sendMessage matchId userId text
  | .payments o => Payments.handleStripeWebhookEvent o.event
  | .auth o => o.code cfg.auth

@[reducible] def appService (cfg : AppConfig) : Service where
  Op := AppOp
  Ret := AppOp.Ret
  code := AppOp.code cfg

end VerityBackend.App
