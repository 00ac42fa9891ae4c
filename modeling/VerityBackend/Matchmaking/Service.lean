/-
VerityBackend.Matchmaking.Service — the operations that decide who waits and
who is matched: the queue, its worker and moderation, over one world.
-/
import VerityBackend.Async.Sequential
import VerityBackend.Moderation.Service
import VerityBackend.Queue.Service

namespace VerityBackend.Matchmaking

open Async

inductive Op where
  | joinQueue (userId : UserId) (input : Queue.QueueJoinInput)
  | leaveQueue (userId : UserId)
  | processQueueKey (queueKey : QueueKey)
  | createReport (reporterId : UserId) (input : Moderation.ReportUserDto)
  | createBlock (blockerId blockedId : UserId)
  | unblock (blockerId blockedId : UserId)
  | resolveReport (reportId : String) (action : Moderation.ModerationAction)
  | handleWebhook (self : Instance) (sched : Moderation.Schedules)
      (payload : Moderation.HiveViolationPayload) (delivery : Moderation.HiveWebhookDelivery)
  deriving DecidableEq, Repr

abbrev Op.Ret : Op → Type
  | .joinQueue _ _ => Queue.QueueJoinResult
  | .leaveQueue _ => Queue.QueueLeaveResult
  | .processQueueKey _ => Unit
  | .createReport _ _ => ModerationReport
  | .createBlock _ _ => Moderation.BlockResult
  | .unblock _ _ => Moderation.UnblockResult
  | .resolveReport _ _ => Moderation.ResolveResult
  | .handleWebhook _ _ _ _ => Unit

def Op.code : (o : Op) → Prog o.Ret
  | .joinQueue userId input => Queue.joinQueue userId input
  | .leaveQueue userId => Queue.leaveQueue userId
  | .processQueueKey queueKey => Queue.processQueueKey queueKey
  | .createReport reporterId input => Moderation.createReport reporterId input
  | .createBlock blockerId blockedId => Moderation.createBlock blockerId blockedId
  | .unblock blockerId blockedId => Moderation.unblock blockerId blockedId
  | .resolveReport reportId action => Moderation.resolveReport reportId action
  | .handleWebhook self sched payload delivery =>
      Moderation.handleWebhook self sched payload delivery

@[reducible] def matchmaking : Service where
  Op := Op
  Ret := Op.Ret
  code := Op.code

abbrev History := List (Act matchmaking.system)

/-- Nothing is in Redis yet; the database may hold anything. -/
def flushed (w : World) : World := { w with redis := .empty }

/-- What a history leads to from an empty Redis. -/
def after (w : World) (h : History) : Past matchmaking.system := (Past.initial (flushed w)).run h

end VerityBackend.Matchmaking
