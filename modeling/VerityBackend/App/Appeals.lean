/-
VerityBackend.App.Appeals — the whole backend and the appeals against its
moderation.

The operations of the backend know nothing of the table of appeals; here
they are issued beside the two that do, over one `Docket`.
-/
import VerityBackend.App.Issued
import VerityBackend.Async.Answers

namespace VerityBackend.App

open Async Moderation

inductive DocketOp where
  | app (o : AppOp)
  | createAppeal (userId : UserId) (input : CreateAppealDto)
  | resolveAppeal (resolverUserId : UserId) (appealId : String) (resolution : Resolution)
  deriving DecidableEq, Repr

abbrev DocketOp.Ret : DocketOp → Type
  | .app o => o.Ret
  | .createAppeal _ _ => ModerationAppeal
  | .resolveAppeal _ _ _ => ModerationAppeal

def DocketOp.code (cfg : AppConfig) : (o : DocketOp) → AppealProg o.Ret
  | .app o => (o.code cfg).embed AppealCmd.backend fun _ r => r
  | .createAppeal userId input => Moderation.createAppeal userId input
  | .resolveAppeal resolverUserId appealId resolution =>
      Moderation.resolveAppeal resolverUserId appealId resolution

/-- The environment lets time pass. -/
@[reducible] def docketSystem (cfg : AppConfig) : System where
  Cmd := AppealCmd
  Res := AppealCmd.Res
  Err := Err
  World := Docket
  exec := AppealCmd.exec
  Op := DocketOp
  Ret := DocketOp.Ret
  code := DocketOp.code cfg
  Env := Env
  env e d := { d with world := d.world.env e }

/-! ## The commands issued -/

/-- What an operation issues. -/
inductive DocketCommand (cfg : AppConfig) : DocketOp → AppealCmd → Prop
  | app {o : AppOp} {c : Cmd} (h : AppCommand cfg o c) : DocketCommand cfg (.app o) (.backend c)
  | appeal {userId : UserId} {input : CreateAppealDto} {c : AppealCmd}
      (h : AppealCommand userId input c) : DocketCommand cfg (.createAppeal userId input) c
  | ruling {resolverUserId : UserId} {appealId : String} {resolution : Resolution} {c : AppealCmd}
      (h : RulingCommand appealId resolverUserId resolution c) :
      DocketCommand cfg (.resolveAppeal resolverUserId appealId resolution) c

theorem docket_issues (cfg : AppConfig) (o : DocketOp) :
    (o.code cfg).Conforms (DocketCommand cfg o) True := by
  cases o with
  | app o => exact (code_issues cfg o).embed fun _ h => .app h
  | createAppeal userId input => exact (createAppeal_issues userId input).mono fun _ h => .appeal h
  | resolveAppeal resolverUserId appealId resolution =>
      exact (resolveAppeal_issues appealId resolverUserId resolution).mono fun _ h => .ruling h

/-- Every command of a run is one of an operation's. -/
theorem docket_issued (cfg : AppConfig) (d : Docket) (es : List (Event (docketSystem cfg))) :
    Config.Issues (S := docketSystem cfg) (DocketCommand cfg)
      ((Config.initial d : Config (docketSystem cfg)).run es) := by
  have hobeys : (Config.initial d : Config (docketSystem cfg)).Obeys (fun _ _ => True) es :=
    Config.obeys_of_forall (fun _ _ => trivial) _ es
  have hstart : Config.Issues (S := docketSystem cfg) (DocketCommand cfg) (Config.initial d) :=
    Config.issues_initial (S := docketSystem cfg) (DocketCommand cfg) d
  exact Config.run_induct (P := Config.Issues (DocketCommand cfg))
    (fun c e _ h => h.next (docket_issues cfg) e) es _ hobeys hstart

end VerityBackend.App
