/-
VerityBackend.Session.Choosing — the commands that lead to a decision.

`getDecision`, `evaluateChoices` and `finalizeDecision` are called in many
places, and most of what there is to say about their commands is what they
are not: they store no choice and no deadline, arm no timer and announce
nothing but the decision. `Deciding` lists them, and `Recovering` those of the
recovery of a choice window, which arms timers besides.
-/
import VerityBackend.Session.Issued

namespace VerityBackend.Sessions

open Async

/-- What is announced of a decision. -/
def isDecisionEvent : Output → Bool
  | .track _ name _ => name == "session_choice_resolved" || name == "session_result"
  | .matchMutual _ _ _ _ | .matchNonMutual _ _ | .push _ _ _ => true
  | _ => false

/-- A command that leads to a decision. -/
inductive Deciding : Cmd → Prop
  | readDecision (id : SessionId) : Deciding (.redis (.get (.sessionDecision id)))
  | overwrite (id : SessionId) (v : RedisString) (ttl : Option Nat) :
      Deciding (.redis (.set (.sessionDecision id) v ttl))
  | store (id : SessionId) (v : RedisString) (ttl : Nat) :
      Deciding (.redis (.setNX (.sessionDecision id) v ttl))
  | readChoices (id : SessionId) (userA userB : UserId) :
      Deciding (.redis (.hmget id userA userB))
  | expire (id : SessionId) {ttl : Nat} (h : 0 < ttl) : Deciding (.redis (.pexpireChoices id ttl))
  | findUser (id : UserId) : Deciding (.db (.userFindUnique id))
  | upsert (userA userB : UserId) : Deciding (.db (.matchUpsert userA userB))
  | now : Deciding (.host .now)
  | announce (os : List Output) (h : ∀ o ∈ os, isDecisionEvent o = true) : Deciding (.host (.emit os))
  | clearChoiceTimeout (self : Instance) (id : SessionId) :
      Deciding (.host (.clearChoiceTimeout self id))

/-- The profile of a partner is read for the reveal. -/
theorem deciding_partner {c : Cmd} (h : PartnerCommand c) : Deciding c := by
  cases h
  exact .findUser _

/-- A decision is read and stored. -/
theorem deciding_store {id : SessionId} {c : Cmd} (h : StoreCommand id c) : Deciding c := by
  cases h with
  | read => exact .readDecision id
  | claim payload => exact .store id _ _
  | overwrite payload => exact .overwrite id _ _

/-- What is tracked of a decision is of that session and that user. -/
theorem decisionEvent_resolvedEvents (sessionId : SessionId) (userId : UserId)
    (payload : ResolvedChoiceResult) (bothPassed : Bool) :
    ∀ o ∈ resolvedEvents sessionId userId payload bothPassed, isDecisionEvent o = true := by
  intro o ho
  unfold resolvedEvents at ho
  simp only [List.mem_cons, List.not_mem_nil, or_false] at ho
  rcases ho with rfl | rfl <;> rfl

/-- Nothing but the decision is announced. -/
theorem deciding_announce {self : Instance} {session : Session} {c : Cmd}
    (h : AnnounceCommand self session c) : Deciding c := by
  cases h with
  | partner h => exact deciding_partner h
  | disarm => exact .clearChoiceTimeout self session.id
  | push matchId => exact .announce _ (List.forall_mem_singleton.mpr rfl)
  | tellMutual _ _ _ | tellNonMutual =>
      exact .announce _ (List.forall_mem_cons.mpr ⟨rfl, List.forall_mem_singleton.mpr rfl⟩)
  | track payload bothPassed =>
      exact .announce _ (List.forall_mem_append.mpr ⟨decisionEvent_resolvedEvents _ _ payload bothPassed,
        decisionEvent_resolvedEvents _ _ payload bothPassed⟩)

/-- A finalizer touches no choice. -/
theorem deciding_finalize {self : Instance} {session : Session} {c : Cmd}
    (h : FinalizeCommand self session c) : Deciding c := by
  cases h with
  | store h => exact deciding_store h
  | upsert userLow userHigh => exact .upsert userLow userHigh
  | announce h => exact deciding_announce h

/-- The choices are read before they are decided on. -/
theorem deciding_evaluate {self : Instance} {session : Session} {c : Cmd}
    (h : EvaluateCommand self session c) : Deciding c := by
  cases h with
  | choices => exact .readChoices _ _ _
  | now => exact .now
  | finalize h => exact deciding_finalize h

/-- All commands of the procedure lead to a decision. -/
abbrev Decides {α : Type} (p : Prog α) : Prop := p.Conforms Deciding True

theorem decides_finalizeDecision (self : Instance) (session : Session)
    (choiceA choiceB : SessionChoice) :
    Decides (finalizeDecision self session choiceA choiceB) :=
  (finalizeDecision_issues self session choiceA choiceB).mono fun _ => deciding_finalize

/-- The evaluation, and what the caller is told of it. -/
theorem decides_evaluated (self : Instance) (session : Session) (deadline : JsDate)
    (userId : UserId) :
    Decides ((evaluateChoices self session deadline).bind
      (enrichChoiceResultForUser · session userId)) :=
  ((evaluateChoices_issues self session deadline).mono fun _ => deciding_evaluate).bind fun result =>
    (enrich_issues session result userId).mono fun _ => deciding_partner

/-- Asking for the decision decides nothing. -/
theorem decides_getDecision (self : Instance) (session : Session) (userId : UserId) :
    Decides (getDecision session userId) :=
  (getDecision_issues self userId session).mono fun _ => deciding_finalize

theorem decides_expireChoices (sessionId : SessionId) (deadline : JsDate) :
    Decides (expireChoices sessionId deadline) := by
  refine (expireChoices_issues sessionId deadline).mono fun c hc => ?_
  cases hc with
  | now => exact .now
  | expire h => exact .expire sessionId h

/-! ## The recovery -/

/-- A command of a decision, or one that puts a timer back. -/
inductive Recovering : Cmd → Prop
  | deciding {c : Cmd} (h : Deciding c) : Recovering c
  | get (k : RedisKey) : Recovering (.redis (.get k))
  | findSession (id : SessionId) : Recovering (.db (.sessionFindUnique id))
  | arm (self : Instance) (id : SessionId) (userA userB : UserId) (deadline : Nat) :
      Recovering (.host (.scheduleChoiceTimeout self id userA userB deadline))

/-- The procedure recovers choices. -/
abbrev Recovers {α : Type} (p : Prog α) : Prop := p.Conforms Recovering True

theorem recovers_recoverChoice (self : Instance) (sessionId : SessionId) :
    Recovers (recoverChoice self sessionId) := by
  refine (recoverChoice_issues self sessionId).mono fun c hc => ?_
  cases hc with
  | decision => exact .get _
  | deadline => exact .get _
  | participants h =>
      cases h with
      | state => exact .get _
      | find => exact .findSession sessionId
  | now => exact .deciding .now
  | finalize h => exact .deciding (deciding_finalize h)
  | arm userAId userBId deadline => exact .arm self sessionId userAId userBId deadline

end VerityBackend.Sessions
