/-
VerityBackend.Moderation.Appeals — appeals against moderation
(`createAppeal` and `resolveAppeal` of `moderation/moderation.service.ts`).

Appeals are the one part of the backend that reads the table of appeals, so
it is kept beside the `World` and not inside it: a `Docket` is both, and a
procedure over `AppealCmd` may issue any command of the backend as well.
`Docket.next` is the moderation of users one call after the other.
-/
import VerityBackend.Backend.Frames
import VerityBackend.Moderation.Service

namespace VerityBackend.Moderation

open Async

inductive AppealAction where
  | warn
  | ban
  | terminate_session
  deriving DecidableEq, Repr

inductive Resolution where
  | upheld
  | overturned
  deriving DecidableEq, Repr

structure ModerationAppeal where
  id : String
  createdAt : Nat
  userId : UserId
  moderationReportId : Option String
  actionType : AppealAction
  reason : Option String
  status : String
  resolution : Option Resolution
  resolvedAt : Option Nat
  resolverUserId : Option UserId
  deriving DecidableEq, Repr

/-- The backend and the table of appeals. -/
structure Docket where
  world : World
  appeals : List ModerationAppeal

/-! ## Commands -/

/-- A command of the backend, or a Prisma call that reads or writes appeals;
`reportFindUnique` is `moderationReport.findUnique`. -/
inductive AppealCmd where
  | backend (c : Cmd)
  | reportFindUnique (id : String)
  | appealCreate (userId : UserId) (moderationReportId : Option String) (actionType : AppealAction)
      (reason : Option String)
  | appealFindUnique (id : String)
  | appealUpdate (id : String) (status : String) (resolution : Resolution) (resolvedAt : Nat)
      (resolverUserId : UserId)

abbrev AppealCmd.Res : AppealCmd → Type
  | .backend c => c.Res
  | .reportFindUnique _ => Option ModerationReport
  | .appealCreate _ _ _ _ => ModerationAppeal
  | .appealFindUnique _ => Option ModerationAppeal
  | .appealUpdate _ _ _ _ _ => ModerationAppeal

namespace Docket

def findReport (d : Docket) (id : String) : Option ModerationReport :=
  d.world.db.reports.find? (·.id = id)

def findAppeal (d : Docket) (id : String) : Option ModerationAppeal :=
  d.appeals.find? (·.id = id)

end Docket

/-- `update({ where: { id }, data: { status, resolution, resolvedAt, resolverUserId } })`. -/
def ModerationAppeal.resolve (appeal : ModerationAppeal) (status : String)
    (resolution : Resolution) (resolvedAt : Nat) (resolverUserId : UserId) : ModerationAppeal :=
  { appeal with
    status := status
    resolution := some resolution
    resolvedAt := some resolvedAt
    resolverUserId := some resolverUserId }

def AppealCmd.exec : (c : AppealCmd) → Docket → Except Err c.Res × Docket
  | .backend c, d => ((c.exec d.world).1, { d with world := (c.exec d.world).2 })
  | .reportFindUnique id, d => (.ok (d.findReport id), d)
  | .appealCreate userId moderationReportId actionType reason, d =>
      if d.world.db.hasUser userId && moderationReportId.all (fun id => (d.findReport id).isSome) then
        let row : ModerationAppeal :=
          { id := freshId d.world.nextId
            createdAt := d.world.clock
            userId := userId
            moderationReportId := moderationReportId
            actionType := actionType
            reason := reason
            status := "OPEN"
            resolution := none
            resolvedAt := none
            resolverUserId := none }
        (.ok row,
          { world := { d.world with nextId := d.world.nextId + 1 }, appeals := d.appeals ++ [row] })
      else (.error (.prisma "P2003"), d)
  | .appealFindUnique id, d => (.ok (d.findAppeal id), d)
  | .appealUpdate id status resolution resolvedAt resolverUserId, d =>
      match d.findAppeal id with
      | none => (.error (.prisma "P2025"), d)
      | some appeal =>
          (.ok (appeal.resolve status resolution resolvedAt resolverUserId),
            { d with
              appeals := d.appeals.map fun a =>
                if a.id = id then a.resolve status resolution resolvedAt resolverUserId else a })

/-- What the command touches, if it is one of the backend. -/
def AppealCmd.touches : AppealCmd → RedisKey → Prop
  | .backend c, k => c.touches k
  | _, _ => False

theorem AppealCmd.clock_exec (c : AppealCmd) (d : Docket) :
    (c.exec d).2.world.clock = d.world.clock := by
  cases c with
  | backend c => exact Cmd.clock_exec c d.world
  | appealCreate userId id actionType reason =>
      simp only [AppealCmd.exec]
      split <;> rfl
  | appealUpdate id status resolution resolvedAt resolverUserId =>
      simp only [AppealCmd.exec]
      split <;> rfl
  | _ => rfl

theorem AppealCmd.stored_exec {c : AppealCmd} {k : RedisKey} (h : ¬c.touches k) (d : Docket) :
    (c.exec d).2.world.stored k = d.world.stored k := by
  cases c with
  | backend c => exact Cmd.stored_exec h d.world
  | appealCreate userId id actionType reason =>
      simp only [AppealCmd.exec]
      split <;> rfl
  | appealUpdate id status resolution resolvedAt resolverUserId =>
      simp only [AppealCmd.exec]
      split <;> rfl
  | _ => rfl

abbrev AppealProg (α : Type) := Proc AppealCmd AppealCmd.Res Err α

abbrev backend (c : Cmd) : AppealProg c.Res := Proc.await (AppealCmd.backend c)

abbrev appealTable (c : AppealCmd) : AppealProg c.Res := Proc.await c

/-! ## Procedures -/

structure CreateAppealDto where
  moderationReportId : Option String
  actionType : AppealAction
  reason : Option String
  deriving DecidableEq, Repr

def appealActionName : AppealAction → String
  | .warn => "warn"
  | .ban => "ban"
  | .terminate_session => "terminate_session"

def resolutionName : Resolution → String
  | .upheld => "upheld"
  | .overturned => "overturned"

def appealStatus : Resolution → String
  | .upheld => "UPHELD"
  | .overturned => "OVERTURNED"

/-- `Math.max(0, Math.round(ms / 1000))`. -/
def elapsedSeconds (now since : Nat) : Nat := (now - since + 500) / 1000

/-- `value ?? null`, of a string. -/
def orNull (value : Option String) : JsonField :=
  match value with
  | some s => .str s
  | none => .null

def appealOpenedEvent (appeal : ModerationAppeal) (timeFromActionSec : Option Nat) : Output :=
  .track appeal.userId "safety_appeal_opened"
    [("appealId", .str appeal.id), ("moderationReportId", orNull appeal.moderationReportId),
      ("actionType", .str (appealActionName appeal.actionType)),
      ("timeFromActionSec", (timeFromActionSec.map fun n => JsonField.num n).getD .null)]

/-- The report an appeal is about, once it has been checked. -/
def appealedReport (userId : UserId) (moderationReportId : Option String) :
    AppealProg (Option ModerationReport) :=
  match present moderationReportId with
  | none => pure none
  | some id => do
      match ← appealTable (.reportFindUnique id) with
      | none => Proc.fail (.badRequest "Moderation report not found")
      | some report =>
          if report.reportedUserId ≠ userId then
            Proc.fail (.badRequest "Only the reported user can appeal this report")
          else pure (some report)

def createAppeal (userId : UserId) (input : CreateAppealDto) : AppealProg ModerationAppeal :=
  let reason := input.reason.map jsTrim
  if reason.any (500 < jsLength ·) then
    Proc.fail (.badRequest "Appeal reason must be 500 characters or fewer")
  else do
    let report ← appealedReport userId input.moderationReportId
    let appeal ← appealTable (.appealCreate userId (report.map (·.id)) input.actionType reason)
    let now ← backend (.host .now)
    backend (.host (.emit
      [appealOpenedEvent appeal (report.map fun r => elapsedSeconds now r.createdAt)]))
    pure appeal

def appealResolvedEvent (existing : ModerationAppeal) (resolution : Resolution) (resolvedAt : Nat) :
    Output :=
  .track existing.userId "safety_appeal_resolved"
    [("appealId", .str existing.id), ("actionType", .str (appealActionName existing.actionType)),
      ("resolution", .str (resolutionName resolution)),
      ("resolutionLatencySec", .num (elapsedSeconds resolvedAt existing.createdAt))]

/-- What `resolveAppeal` does with the appeal it has found. -/
def concludeAppeal (resolverUserId : UserId) (resolution : Resolution)
    (existing : ModerationAppeal) : AppealProg ModerationAppeal :=
  if existing.status ≠ "OPEN" then Proc.fail (.badRequest "Appeal is already resolved")
  else do
    let resolvedAt ← backend (.host .now)
    let updated ← appealTable
      (.appealUpdate existing.id (appealStatus resolution) resolution resolvedAt resolverUserId)
    if resolution = .overturned ∧ existing.actionType = .ban then
      backend (.redis (.del [.moderationBan existing.userId]))
    else pure ()
    backend (.host (.emit [appealResolvedEvent existing resolution resolvedAt]))
    pure updated

def resolveAppeal (resolverUserId : UserId) (appealId : String) (resolution : Resolution) :
    AppealProg ModerationAppeal := do
  match ← appealTable (.appealFindUnique appealId) with
  | none => Proc.fail (.badRequest "Appeal not found")
  | some existing => concludeAppeal resolverUserId resolution existing

/-! ## One call after the other -/

/-- A call that runs to its end at one time, or time that passes. -/
inductive Proceeding where
  | handleWebhook (self : Instance) (sched : Schedules) (payload : HiveViolationPayload)
      (delivery : HiveWebhookDelivery)
  | resolveReport (reportId : String) (action : ModerationAction)
  | createAppeal (userId : UserId) (input : CreateAppealDto)
  | resolveAppeal (resolverUserId : UserId) (appealId : String) (resolution : Resolution)
  | tick (ms : Nat)
  deriving DecidableEq, Repr

namespace Docket

/-- What a call of the backend leaves. -/
def runBackend {α : Type} (d : Docket) (p : Prog α) : Docket :=
  { d with world := (p.run Cmd.exec d.world).2 }

def next (d : Docket) : Proceeding → Docket
  | .handleWebhook self sched payload delivery =>
      d.runBackend (Moderation.handleWebhook self sched payload delivery)
  | .resolveReport reportId action => d.runBackend (Moderation.resolveReport reportId action)
  | .createAppeal userId input => ((Moderation.createAppeal userId input).run AppealCmd.exec d).2
  | .resolveAppeal resolverUserId appealId resolution =>
      ((Moderation.resolveAppeal resolverUserId appealId resolution).run AppealCmd.exec d).2
  | .tick ms => { d with world := d.world.env (.tick ms) }

/-- What a history leads to. -/
def after (d : Docket) (h : List Proceeding) : Docket := h.foldl next d

@[simp] theorem after_nil (d : Docket) : d.after [] = d := rfl

theorem after_append (d : Docket) (h h' : List Proceeding) :
    d.after (h ++ h') = (d.after h).after h' := List.foldl_append ..

theorem after_concat (d : Docket) (h : List Proceeding) (a : Proceeding) :
    d.after (h ++ [a]) = (d.after h).next a := d.after_append h [a]

end Docket

end VerityBackend.Moderation
