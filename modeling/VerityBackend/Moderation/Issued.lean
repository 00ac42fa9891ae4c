/-
VerityBackend.Moderation.Issued — which commands moderation issues.

One inductive predicate for each operation lists the commands its procedure
can issue, as `Queue.Issued` does for the queue. Taking somebody out of the
queue throws nothing that its commands do not throw; so its lemma is for
every `b`.
-/
import VerityBackend.Moderation.Appeals
import VerityBackend.Session.Issued

namespace VerityBackend.Moderation

open Async Store

/-- `removeFromQueueIfPresent`. -/
inductive RemoveCommand (u : UserId) : Cmd → Prop
  | entry : RemoveCommand u (.redis (.get (.queueUser u)))
  | leave (k : QueueKey) : RemoveCommand u (.redis (.zrem k u))
  | clear : RemoveCommand u (.redis (.del [.queueUser u]))

inductive ReportCommand (reporterId : UserId) (input : ReportUserDto) : Cmd → Prop
  | now : ReportCommand reporterId input (.host .now)
  | count (since : Nat) : ReportCommand reporterId input (.db (.reportCount reporterId since))
  | file (details : Option String) : ReportCommand reporterId input
      (.db (.reportTransaction reporterId input.reportedUserId input.reason details))
  | readCounter : ReportCommand reporterId input (.redis (.get (.userReports input.reportedUserId)))
  | writeCounter (number : Int) : ReportCommand reporterId input (.redis
      (.set (.userReports input.reportedUserId) (.text (toString number)) (some REPORT_ESCALATION_TTL_MS)))
  | remove {c : Cmd} (h : RemoveCommand input.reportedUserId c) : ReportCommand reporterId input c
  | tell (report : ModerationReport) (hasDetails : Bool) : ReportCommand reporterId input
      (.host (.emit [reportSubmittedEvent reporterId report hasDetails]))

inductive BlockCommand (blockerId blockedId : UserId) : Cmd → Prop
  | find : BlockCommand blockerId blockedId (.db (.blockFindUnique blockerId blockedId))
  | create : BlockCommand blockerId blockedId (.db (.blockCreate blockerId blockedId))
  | reopen (id : String) : BlockCommand blockerId blockedId (.db (.blockReopen id))
  | remove {c : Cmd} (h : RemoveCommand blockedId c) : BlockCommand blockerId blockedId c

inductive UnblockCommand (blockerId blockedId : UserId) : Cmd → Prop
  | find : UnblockCommand blockerId blockedId (.db (.blockFindUnique blockerId blockedId))
  | now : UnblockCommand blockerId blockedId (.host .now)
  | lift (id : String) (now : Nat) : UnblockCommand blockerId blockedId (.db (.blockLift id now))

inductive ResolveCommand (reportId : String) (action : ModerationAction) : Cmd → Prop
  | update : ResolveCommand reportId action (.db (.reportUpdate reportId (reportStatus action)))
  | block {reporterId reportedUserId : UserId} {c : Cmd} (h : BlockCommand reporterId reportedUserId c) :
      ResolveCommand reportId action c
  | ban (u : UserId) : ResolveCommand reportId action
      (.redis (.set (.moderationBan u) (.text "1") (some BAN_TTL_MS)))
  | now : ResolveCommand reportId action (.host .now)
  | tell (report : ModerationReport) (now : Nat) : ResolveCommand reportId action (.host (.emit
      [.moderationAction report.reportedUserId (actionName action) (.str report.reason),
        .track report.reportedUserId "safety_action_taken"
          [("action", .str (actionName action)), ("policyReason", .str report.reason),
            ("automated", .bool false), ("source", .str "admin_report_resolution"),
            ("actionLatencyMs", .num (now - report.createdAt : Nat))]]))

/-- `applyModerationAction`. -/
inductive ActionCommand (userId : UserId) (policyReason : JsonValue) : Cmd → Prop
  | now : ActionCommand userId policyReason (.host .now)
  | count (since : Nat) : ActionCommand userId policyReason (.db (.moderationEventCount userId since))
  | cooldown : ActionCommand userId policyReason
      (.redis (.setNX (.moderationBanCooldown userId) (.text "1") BAN_RATE_LIMIT_MS))
  | ban : ActionCommand userId policyReason
      (.redis (.set (.moderationBan userId) (.text "1") (some BAN_TTL_MS)))
  | tell (action : String) (count latency : Nat) (h : action ∈ ["warn", "ban"]) :
      ActionCommand userId policyReason (.host (.emit
        [.moderationAction userId action (.given policyReason),
          actionTakenEvent userId action policyReason count latency]))

/-- `punish`. -/
inductive PunishCommand (self : Instance) (payload : HiveViolationPayload) (session : Session) :
    Cmd → Prop
  | now : PunishCommand self payload session (.host .now)
  | record (u : UserId) : PunishCommand self payload session (.db (.moderationEventCreate u))
  | detect : PunishCommand self payload session
      (.host (.emit ((offendersOf payload session).map (detectedEvent payload session.id))))
  | act {u : UserId} {c : Cmd} (h : ActionCommand u (policyReason payload) c) :
      PunishCommand self payload session c
  | finish {c : Cmd} (h : Sessions.EndCommand self session .ended c) :
      PunishCommand self payload session c

/-- `processDelivery`. -/
inductive ViolationCommand (self : Instance) (payload : HiveViolationPayload) : Cmd → Prop
  | find (id : SessionId) : ViolationCommand self payload (.db (.sessionFindUnique id))
  | punish {session : Session} {c : Cmd} (h : PunishCommand self payload session c) :
      ViolationCommand self payload c

/-- `handleWebhook`. -/
inductive WebhookCommand (self : Instance) (payload : HiveViolationPayload) : Cmd → Prop
  | reserve (signature timestamp : String) : WebhookCommand self payload (.redis
      (.setNX (.hiveWebhook timestamp signature) (.text "1") WEBHOOK_REPLAY_TTL_MS))
  | process {c : Cmd} (h : ViolationCommand self payload c) : WebhookCommand self payload c

/-- `createAppeal`. -/
inductive AppealCommand (userId : UserId) (input : CreateAppealDto) : AppealCmd → Prop
  | report (id : String) : AppealCommand userId input (.reportFindUnique id)
  | create (moderationReportId reason : Option String) : AppealCommand userId input
      (.appealCreate userId moderationReportId input.actionType reason)
  | now : AppealCommand userId input (.backend (.host .now))
  | tell (appeal : ModerationAppeal) (timeFromActionSec : Option Nat) : AppealCommand userId input
      (.backend (.host (.emit [appealOpenedEvent appeal timeFromActionSec])))

/-- `resolveAppeal`. -/
inductive RulingCommand (appealId : String) (resolverUserId : UserId) (resolution : Resolution) :
    AppealCmd → Prop
  | find : RulingCommand appealId resolverUserId resolution (.appealFindUnique appealId)
  | now : RulingCommand appealId resolverUserId resolution (.backend (.host .now))
  | update (id : String) (resolvedAt : Nat) : RulingCommand appealId resolverUserId resolution
      (.appealUpdate id (appealStatus resolution) resolution resolvedAt resolverUserId)
  | lift (existing : ModerationAppeal)
      (h : existing.status = "OPEN" ∧ resolution = .overturned ∧ existing.actionType = .ban) :
      RulingCommand appealId resolverUserId resolution
        (.backend (.redis (.del [.moderationBan existing.userId])))
  | tell (existing : ModerationAppeal) (resolvedAt : Nat) :
      RulingCommand appealId resolverUserId resolution
        (.backend (.host (.emit [appealResolvedEvent existing resolution resolvedAt])))

variable {b : Prop}

theorem removeFromQueueIfPresent_issues (u : UserId) :
    (removeFromQueueIfPresent u).Conforms (RemoveCommand u) b := by
  refine (Proc.conforms_await .entry).bind fun stateRaw => ?_
  split
  · exact Proc.conforms_pure ()
  split
  · exact Proc.conforms_pure ()
  refine (Proc.Conforms.tryCatch ?_ fun _ => Proc.conforms_pure ()).tryFinally (Proc.conforms_await .clear)
  split
  · exact (Proc.conforms_await (.leave _)).bind fun _ => Proc.conforms_pure ()
  · exact Proc.conforms_pure ()

theorem createReport_issues (reporterId : UserId) (input : ReportUserDto) :
    (createReport reporterId input).Conforms (ReportCommand reporterId input) True := by
  unfold createReport
  split
  · exact Proc.conforms_fail _ trivial
  dsimp only
  split
  · exact Proc.conforms_fail _ trivial
  refine (Proc.conforms_await .now).bind fun now => (Proc.conforms_await (.count _)).bind fun count => ?_
  split
  · exact Proc.conforms_fail _ trivial
  refine (Proc.conforms_await (.file _)).bind fun report => ?_
  refine Proc.Conforms.bind ((Proc.conforms_await .readCounter).bind fun raw =>
    Proc.conforms_await (.writeCounter _)) fun _ => ?_
  exact ((removeFromQueueIfPresent_issues _).mono fun _ h => .remove h).bind fun _ =>
    (Proc.conforms_await (.tell report _)).bind fun _ => Proc.conforms_pure report

theorem createBlock_issues (blockerId blockedId : UserId) :
    (createBlock blockerId blockedId).Conforms (BlockCommand blockerId blockedId) True := by
  have hremove : (removeFromQueueIfPresent blockedId).Conforms (BlockCommand blockerId blockedId) True :=
    (removeFromQueueIfPresent_issues blockedId).mono fun _ h => .remove h
  unfold createBlock
  split
  · exact Proc.conforms_fail _ trivial
  refine (Proc.conforms_await .find).bind fun existing => ?_
  split
  · exact (Proc.conforms_await .create).bind fun _ => hremove.bind fun _ => Proc.conforms_pure _
  split
  · exact Proc.conforms_pure _
  · exact (Proc.conforms_await (.reopen _)).bind fun _ => hremove.bind fun _ => Proc.conforms_pure _

theorem unblock_issues (blockerId blockedId : UserId) :
    (unblock blockerId blockedId).Conforms (UnblockCommand blockerId blockedId) True := by
  refine (Proc.conforms_await .find).bind fun existing => ?_
  split
  · exact Proc.conforms_pure _
  split
  · exact Proc.conforms_pure _
  · exact (Proc.conforms_await .now).bind fun now =>
      (Proc.conforms_await (.lift _ now)).bind fun _ => Proc.conforms_pure _

theorem resolveReport_issues (reportId : String) (action : ModerationAction) :
    (resolveReport reportId action).Conforms (ResolveCommand reportId action) True := by
  refine (Proc.conforms_await .update).bind fun report => ?_
  refine ((createBlock_issues report.reporterId report.reportedUserId).mono fun _ h => .block h).bind fun _ => ?_
  dsimp only
  split
  · exact (Proc.conforms_await (.ban _)).bind fun _ => (Proc.conforms_await .now).bind fun now =>
      (Proc.conforms_await (.tell report now)).bind fun _ => Proc.conforms_pure _
  · exact (Proc.conforms_await .now).bind fun now =>
      (Proc.conforms_await (.tell report now)).bind fun _ => Proc.conforms_pure _

theorem applyModerationAction_issues (userId : UserId) (policyReason : JsonValue)
    (detectedAtMs : Nat) : (applyModerationAction userId policyReason detectedAtMs).Conforms
      (ActionCommand userId policyReason) b := by
  have htell (action : String) (count : Nat) (h : action ∈ ["warn", "ban"]) :
      (announceAction userId action policyReason count detectedAtMs).Conforms
        (ActionCommand userId policyReason) b :=
    (Proc.conforms_await .now).bind fun _ => Proc.conforms_await (.tell action count _ h)
  refine (Proc.conforms_await .now).bind fun now => (Proc.conforms_await (.count _)).bind fun count => ?_
  split
  · refine (Proc.conforms_await .cooldown).bind fun allowed => ?_
    split
    · exact (Proc.conforms_await .ban).bind fun _ => htell "ban" count (by decide)
    · exact Proc.conforms_pure ()
  · exact htell "warn" count (by decide)

theorem punish_issues (self : Instance) (sched : Schedules) (payload : HiveViolationPayload)
    (session : Session) :
    (punish self sched payload session).Conforms (PunishCommand self payload session) True := by
  have hrecord : ∀ u ∈ offendersOf payload session,
      (logModerationEvent u).Conforms (PunishCommand self payload session) True :=
    fun u _ => Proc.conforms_await (.record u)
  have hact (startedAt : Nat) : ∀ u ∈ offendersOf payload session,
      (applyModerationAction u (policyReason payload) startedAt).Conforms
        (PunishCommand self payload session) True := fun u _ =>
    (applyModerationAction_issues u (policyReason payload) startedAt).mono fun _ h => .act h
  refine (Proc.conforms_await .now).bind fun startedAt => ?_
  refine (Proc.Conforms.all _ (List.forall_mem_map.mpr hrecord)).bind fun _ => ?_
  refine (Proc.conforms_await .detect).bind fun _ => ?_
  refine (Proc.Conforms.all _ (List.forall_mem_map.mpr (hact startedAt))).bind fun _ => ?_
  exact (Sessions.endSession_issues self session .ended).mono fun _ h => .finish h

theorem processDelivery_issues (self : Instance) (sched : Schedules)
    (payload : HiveViolationPayload) (sessionId : SessionId) :
    (processDelivery self sched payload sessionId).Conforms (ViolationCommand self payload) True := by
  unfold processDelivery
  split
  · exact Proc.conforms_fail _ trivial
  · exact Proc.conforms_pure ()
  · refine (Proc.conforms_await (.find sessionId)).bind fun found => ?_
    cases found with
    | none => exact Proc.conforms_pure ()
    | some session => exact (punish_issues self sched payload session).mono fun _ h => .punish h

theorem handleWebhook_issues (self : Instance) (sched : Schedules) (payload : HiveViolationPayload)
    (delivery : HiveWebhookDelivery) :
    (handleWebhook self sched payload delivery).Conforms (WebhookCommand self payload) True := by
  unfold handleWebhook
  split
  · exact Proc.conforms_fail _ trivial
  split
  · refine (Proc.conforms_await (.reserve _ _)).bind fun accepted => ?_
    split
    · exact Proc.conforms_pure ()
    · exact (processDelivery_issues self sched payload _).mono fun _ h => .process h
  · exact (processDelivery_issues self sched payload _).mono fun _ h => .process h

/-- The check of a signature reads the clock. -/
theorem verifyWebhookSignature_issues (cfg : HiveConfig) (rawBody : Body) (signature timestamp : Option String) :
    (verifyWebhookSignature cfg rawBody signature timestamp).Conforms (· = .host .now) True := by
  unfold verifyWebhookSignature
  split
  · exact Proc.conforms_fail _ trivial
  split
  · exact Proc.conforms_fail _ trivial
  split
  · exact Proc.conforms_fail _ trivial
  split
  · exact Proc.conforms_fail _ trivial
  have hnow : (host .now).Conforms (· = Cmd.host .now) True :=
    Proc.conforms_await (P := (· = Cmd.host .now)) rfl
  refine Proc.Conforms.bind hnow fun now => ?_
  split
  · exact Proc.conforms_fail _ trivial
  dsimp only
  split
  · exact Proc.conforms_fail _ trivial
  split
  · exact Proc.conforms_fail _ trivial
  · exact Proc.conforms_pure ()

theorem createAppeal_issues (userId : UserId) (input : CreateAppealDto) :
    (createAppeal userId input).Conforms (AppealCommand userId input) True := by
  have hreport : (appealedReport userId input.moderationReportId).Conforms
      (AppealCommand userId input) True := by
    unfold appealedReport
    split
    · exact Proc.conforms_pure _
    · refine (Proc.conforms_await (.report _)).bind fun found => ?_
      cases found with
      | none => exact Proc.conforms_fail _ trivial
      | some report =>
          dsimp only
          split
          · exact Proc.conforms_fail _ trivial
          · exact Proc.conforms_pure _
  unfold createAppeal
  dsimp only
  split
  · exact Proc.conforms_fail _ trivial
  · exact hreport.bind fun report => (Proc.conforms_await (.create _ _)).bind fun appeal =>
      (Proc.conforms_await .now).bind fun now => (Proc.conforms_await (.tell appeal _)).bind
        fun _ => Proc.conforms_pure appeal

theorem concludeAppeal_issues (appealId : String) (resolverUserId : UserId)
    (resolution : Resolution) (existing : ModerationAppeal) :
    (concludeAppeal resolverUserId resolution existing).Conforms
      (RulingCommand appealId resolverUserId resolution) True := by
  unfold concludeAppeal
  split
  · exact Proc.conforms_fail _ trivial
  next hopen =>
    refine (Proc.conforms_await .now).bind fun resolvedAt => ?_
    refine (Proc.conforms_await (.update _ _)).bind fun updated => ?_
    have htell : ((backend (.host (.emit [appealResolvedEvent existing resolution resolvedAt]))).bind
        fun _ => pure updated).Conforms (RulingCommand appealId resolverUserId resolution) True :=
      (Proc.conforms_await (.tell existing resolvedAt)).bind fun _ => Proc.conforms_pure updated
    dsimp only
    split
    · next hban =>
        exact (Proc.conforms_await (.lift existing ⟨not_not.mp hopen, hban⟩)).bind fun _ => htell
    · exact htell

theorem resolveAppeal_issues (appealId : String) (resolverUserId : UserId)
    (resolution : Resolution) : (resolveAppeal resolverUserId appealId resolution).Conforms
      (RulingCommand appealId resolverUserId resolution) True := by
  refine (Proc.conforms_await .find).bind fun found => ?_
  cases found with
  | none => exact Proc.conforms_fail _ trivial
  | some existing => exact concludeAppeal_issues appealId resolverUserId resolution existing

end VerityBackend.Moderation
