/-
VerityBackend.Session.Lifecycle — what every stored string of a session
looks like, whenever the process stops.

`lifecycleService` lets the process run the four functions that carry a
session from its creation to its decision, and the recovery. Whichever
commands of them have been executed, every string in Redis is of the kind
its key calls for (`Typed`): `lifecycle_typed` holds of every state a
process can leave behind. The proof goes over the functions once and asks
which commands they issue (`About`), not in which order.
-/
import VerityBackend.Session.Service

namespace VerityBackend.Sessions

open Async

/-! ## The process -/

inductive LifecycleOp where
  | handleSessionCreated (self : Instance) (session : Session)
  | endSession (self : Instance) (session : Session) (reason : EndReason)
  | submitChoice (self : Instance) (sessionId : SessionId) (userId : UserId)
      (choice : SessionChoice)
  | finalizeDecision (self : Instance) (session : Session) (choiceA choiceB : SessionChoice)
  | onModuleInit (self : Instance)
  deriving DecidableEq, Repr

abbrev LifecycleOp.Ret : LifecycleOp → Type
  | .handleSessionCreated _ _ => Unit
  | .endSession _ _ _ => Unit
  | .submitChoice _ _ _ _ => ChoiceResult
  | .finalizeDecision _ _ _ _ => ChoiceResult
  | .onModuleInit _ => Unit

def LifecycleOp.code : (o : LifecycleOp) → Prog o.Ret
  | .handleSessionCreated self session => Sessions.handleSessionCreated self session
  | .endSession self session reason => Sessions.endSession self session reason
  | .submitChoice self sessionId userId choice => Sessions.submitChoice self sessionId userId choice
  | .finalizeDecision self session choiceA choiceB =>
      Sessions.finalizeDecision self session choiceA choiceB
  | .onModuleInit self => Sessions.onModuleInit self

@[reducible] def lifecycleService : Service where
  Op := LifecycleOp
  Ret := LifecycleOp.Ret
  code := LifecycleOp.code

/-- The runs in which no key expires. -/
def KeysKept (c : Config lifecycleService.system) : Event lifecycleService.system → Prop
  | .start _ => True
  | .step _ => True
  | .env e => World.KeysSurvive c.world e

instance (c : Config lifecycleService.system) (e : Event lifecycleService.system) :
    Decidable (KeysKept c e) :=
  match e with
  | .start _ => inferInstanceAs (Decidable True)
  | .step _ => inferInstanceAs (Decidable True)
  | .env e => inferInstanceAs (Decidable (World.KeysSurvive c.world e))

/-! ## Stored strings -/

/-- What a key of a session may hold. -/
def Fitting (k : RedisKey) (r : RedisString) : Prop :=
  match k with
  | .sessionState id => ∃ userAId userBId endAt,
      parseSessionState (some r) = some ⟨id, userAId, userBId, .date endAt⟩
  | .sessionEnded _ => r = .text "1"
  | .sessionChoiceDeadline _ => ∃ ms, r = .date ms
  | .sessionDecision _ => ∃ v : ResolvedChoiceResult, r = v.payload
  | _ => True

/-- Every stored string fits its key. -/
def Typed (w : World) : Prop := ∀ k r, w.get k = some r → Fitting k r

/-- The session a key belongs to, where it belongs to one. -/
def sessionOf : RedisKey → Option SessionId
  | .sessionState id => some id
  | .sessionLock id => some id
  | .sessionEnded id => some id
  | .sessionChoiceDeadline id => some id
  | .sessionDecision id => some id
  | _ => none

/-- The commands a function issues on behalf of session `id`. Those that
may fail are let in by `b`. -/
def About (id : SessionId) (b : Prop) : Cmd → Prop
  | .redis (.get _) => True
  | .redis (.set k v _) => (∀ x ∈ sessionOf k, x = id) ∧ Fitting k v
  | .redis (.setNX k v _) => (∀ x ∈ sessionOf k, x = id) ∧ Fitting k v
  | .redis (.del ks) => ∀ k ∈ ks, sessionOf k = none
  | .redis (.hget _ _) => True
  | .redis (.hset _ _ _) => True
  | .redis (.hmget _ _ _) => True
  | .redis (.pexpireChoices _ _) => True
  | .db (.sessionFindUnique _) => True
  | .db (.userFindUnique _) => True
  | .db (.matchUpsert _ _) => b
  | .host .now => True
  | .host (.emit _) => True
  | .host (.buildSessionTokens _ _ _) => b
  | .host (.scheduleSessionEnd _ x _ _ _) => x = id
  | .host (.clearSessionEnd _ x) => x = id
  | .host (.scheduleChoiceTimeout _ x _ _ _) => x = id
  | .host (.clearChoiceTimeout _ x) => x = id
  | _ => False

/-- A command issued on behalf of some session. -/
def Lawful (c : Cmd) : Prop := ∃ id, About id True c

/-- Such a command, or a scan of the recovery. -/
def Issued (c : Cmd) : Prop :=
  Lawful c ∨ c = .redis .scanSessionStates ∨ c = .redis .scanChoiceDeadlines

theorem about_true {id : SessionId} {b : Prop} {c : Cmd} (hc : About id b c) :
    About id True c := by
  cases c with
  | redis c => cases c <;> exact hc
  | db c => cases c <;> first | exact hc | trivial
  | host c => cases c <;> first | exact hc | trivial

/-- Only the calls let in by `b` can fail. -/
theorem about_answers {id : SessionId} {c : Cmd} (hc : About id False c) (w : World) :
    ∃ a, (c.exec w).1 = .ok a := by
  cases c with
  | redis c => exact ⟨_, rfl⟩
  | db c => cases c <;> first | exact ⟨_, rfl⟩ | exact hc.elim
  | host c => cases c <;> first | exact ⟨_, rfl⟩ | exact hc.elim

theorem get_of_get_delAll {ks : List RedisKey} {w : World} {k : RedisKey} {r : RedisString}
    (h : (ks.foldl World.del w).get k = some r) : w.get k = some r := by
  induction ks generalizing w with
  | nil => exact h
  | cons k' ks ih =>
      have hdel := ih h
      by_cases hk : k = k'
      · subst hk
        rw [World.get_del_self] at hdel
        cases hdel
      · rw [World.get_del_ne hk] at hdel
        exact hdel

theorem get_delAll {ks : List RedisKey} {w : World} {k : RedisKey} (h : k ∉ ks) :
    (ks.foldl World.del w).get k = w.get k := by
  induction ks generalizing w with
  | nil => rfl
  | cons k' ks ih =>
      rw [List.mem_cons, not_or] at h
      exact (ih h.2).trans (World.get_del_ne h.1)

theorem typed_set {w : World} {k : RedisKey} {v : RedisString} {ttl : Option Nat} (hw : Typed w)
    (hv : Fitting k v) : Typed (w.set k v ttl) := by
  intro k' r hr
  by_cases hk : k' = k
  · subst hk
    rw [World.eq_of_get_set hr]
    exact hv
  · rw [World.get_set_ne hk] at hr
    exact hw k' r hr

/-- A world that shows the same strings. -/
theorem typed_of_get_eq {w w' : World} (hw : Typed w) (h : ∀ k, w'.get k = w.get k) :
    Typed w' := by
  intro k r hr
  rw [h] at hr
  exact hw k r hr

theorem get_expireChoices (w : World) (id : SessionId) (ttl : Nat) (k : RedisKey) :
    (w.expireChoices id ttl).get k = w.get k := by
  unfold World.expireChoices
  split <;> rfl

theorem typed_about {id : SessionId} {b : Prop} {c : Cmd} (hc : About id b c) {w : World}
    (hw : Typed w) : Typed (c.exec w).2 := by
  cases c with
  | db c => exact typed_of_get_eq hw (c.get_exec w)
  | host c => exact typed_of_get_eq hw (c.get_exec w)
  | redis c =>
      cases c with
      | set k v ttl => exact typed_set hw hc.2
      | setNX k v ttl =>
          simp only [Cmd.exec_redis, RedisCmd.exec]
          split
          · exact hw
          · exact typed_set hw hc.2
      | del ks => exact fun k r hr => hw k r (get_of_get_delAll hr)
      | pexpireChoices id ttl => exact typed_of_get_eq hw (get_expireChoices w id ttl)
      | get k => exact hw
      | hget id user => exact hw
      | hset id user choice => exact hw
      | hmget id user₁ user₂ => exact hw
      | _ => exact hc.elim

theorem typed_issued {c : Cmd} (hc : Issued c) {w : World} (hw : Typed w) :
    Typed (c.exec w).2 := by
  rcases hc with ⟨id, habout⟩ | rfl | rfl
  · exact typed_about habout hw
  · exact hw
  · exact hw

/-- No session row is created, changed or removed. -/
theorem sessions_issued {c : Cmd} (hc : Issued c) (w : World) :
    (c.exec w).2.db.sessions = w.db.sessions := by
  rcases hc with ⟨id, habout⟩ | rfl | rfl
  · cases c with
    | db c =>
        cases c with
        | sessionFindUnique id => rfl
        | userFindUnique id => rfl
        | matchUpsert a b =>
            simp only [Cmd.exec_db, DbCmd.exec, World.create]
            split
            · rfl
            · split <;> rfl
        | _ => exact habout.elim
    | host c => exact congrArg Db.sessions (c.exec_redis w).2.2
    | redis c => exact congrArg Db.sessions (c.exec_db w)
  · rfl
  · rfl

/-! ## What the functions issue -/

section Conforms

variable {self : Instance} {session : Session} {id : SessionId} {b : Prop}

theorem conforms_readStoredDecision : (readStoredDecision id).Conforms (About id b) b :=
  (Proc.conforms_await trivial).bind fun _ => Proc.conforms_pure _

theorem conforms_buildPartnerReveal {user : UserId} :
    (buildPartnerRevealForUser session user).Conforms (About id b) b := by
  unfold buildPartnerRevealForUser
  dsimp only
  split
  · exact Proc.conforms_pure _
  · split
    · exact Proc.conforms_pure _
    · exact (Proc.conforms_await trivial).bind fun _ => Proc.conforms_pure _

theorem conforms_enrich {result : ChoiceResult} {user : UserId} :
    (enrichChoiceResultForUser result session user).Conforms (About id b) b := by
  unfold enrichChoiceResultForUser
  split
  · refine conforms_buildPartnerReveal.bind fun reveal => ?_
    cases reveal <;> exact Proc.conforms_pure _
  · exact Proc.conforms_pure _

/-- Only two MATCH need the database. -/
theorem conforms_decisionOf {choiceA choiceB : SessionChoice}
    (h : b ∨ ¬(choiceA = .MATCH ∧ choiceB = .MATCH)) :
    (decisionOf session choiceA choiceB).Conforms (About id b) b := by
  unfold decisionOf
  split
  · next hboth =>
      have hb : b := h.resolve_right (not_not_intro hboth)
      refine (Proc.conforms_await hb).bind fun m => ?_
      split
      · exact Proc.conforms_fail _ hb
      · exact Proc.conforms_pure _
  · exact Proc.conforms_pure _

theorem about_set {k : RedisKey} {v : RedisString} {ttl : Option Nat} (hk : sessionOf k = some id)
    (hv : Fitting k v) : About id b (.redis (.set k v ttl)) :=
  ⟨fun _ hx => (Option.some.inj (hk.symm.trans hx)).symm, hv⟩

theorem about_setNX {k : RedisKey} {v : RedisString} {ttl : Nat} (hk : sessionOf k = some id)
    (hv : Fitting k v) : About id b (.redis (.setNX k v ttl)) :=
  ⟨fun _ hx => (Option.some.inj (hk.symm.trans hx)).symm, hv⟩

theorem conforms_overwrite {v : ResolvedChoiceResult} :
    (overwriteDecision id v).Conforms (About id b) b := by
  refine Proc.Conforms.bind (Proc.conforms_await ?_) fun _ => Proc.conforms_pure _
  exact about_set rfl ⟨v, rfl⟩

theorem conforms_storeUnlessDecided {v : ResolvedChoiceResult} :
    (storeUnlessDecided id v).Conforms (About id b) b := by
  refine Proc.Conforms.bind (Proc.conforms_await ?_) fun stored => ?_
  · exact about_setNX rfl ⟨v, rfl⟩
  split
  · exact Proc.conforms_pure _
  · refine conforms_readStoredDecision.bind fun decision => ?_
    cases decision with
    | pending deadline => exact conforms_overwrite
    | _ => exact Proc.conforms_pure _

theorem conforms_storeDecision {existing : ParsedStoredDecision} {v : ResolvedChoiceResult} :
    (storeDecision id existing v).Conforms (About id b) b := by
  cases existing with
  | pending deadline => exact conforms_overwrite
  | _ => exact conforms_storeUnlessDecided

theorem conforms_announceDecision {choiceA choiceB : SessionChoice} {v : ResolvedChoiceResult} :
    (announceDecision self session choiceA choiceB v).Conforms (About session.id b) b := by
  refine (Proc.conforms_await trivial).bind fun _ => ?_
  cases v with
  | nonMutual =>
      exact (Proc.conforms_await trivial).bind fun _ => Proc.conforms_await rfl
  | «mutual» matchId =>
      refine Proc.Conforms.bind ?_ fun _ =>
        (Proc.conforms_await trivial).bind fun _ => Proc.conforms_await rfl
      exact conforms_buildPartnerReveal.bind fun _ =>
        conforms_buildPartnerReveal.bind fun _ => Proc.conforms_await trivial

theorem conforms_finalizeDecision {choiceA choiceB : SessionChoice}
    (h : b ∨ ¬(choiceA = .MATCH ∧ choiceB = .MATCH)) :
    (finalizeDecision self session choiceA choiceB).Conforms (About session.id b) b := by
  refine conforms_readStoredDecision.bind fun existing => ?_
  have hrest : Proc.Conforms (About session.id b) b
      (settleDecision self session choiceA choiceB existing) := by
    refine (conforms_decisionOf h).bind fun payload => conforms_storeDecision.bind fun stored => ?_
    cases stored with
    | some value => exact Proc.conforms_pure _
    | none => exact conforms_announceDecision.bind fun _ => Proc.conforms_pure _
  cases existing with
  | resolved value => exact Proc.conforms_pure _
  | none => exact hrest
  | invalid => exact hrest
  | pending deadline => exact hrest

theorem conforms_ensureChoiceDeadline : (ensureChoiceDeadline id).Conforms (About id b) b := by
  refine (Proc.conforms_await trivial).bind fun existing => ?_
  split
  · exact Proc.conforms_pure _
  · refine (Proc.conforms_await trivial).bind fun now => ?_
    refine Proc.Conforms.bind (Proc.conforms_await ?_) fun _ => Proc.conforms_pure _
    exact about_setNX rfl ⟨_, rfl⟩

theorem conforms_endSession {reason : EndReason} :
    (endSession self session reason).Conforms (About session.id b) b := by
  refine Proc.Conforms.bind (Proc.conforms_await ?_) fun alreadyEnded => ?_
  · exact about_setNX rfl rfl
  split
  · exact Proc.conforms_pure _
  · refine Proc.Conforms.bind (Proc.conforms_await rfl) fun _ => ?_
    refine Proc.Conforms.bind (Proc.conforms_await ?_) fun _ => ?_
    · intro k hk
      simp only [List.mem_cons, List.not_mem_nil, or_false] at hk
      rcases hk with rfl | rfl <;> rfl
    refine Proc.Conforms.bind (Proc.conforms_await trivial) fun now => ?_
    refine Proc.Conforms.bind (Proc.conforms_await trivial) fun _ => ?_
    exact conforms_ensureChoiceDeadline.bind fun deadline => Proc.conforms_await rfl

theorem conforms_evaluateChoices {deadline : JsDate} :
    (evaluateChoices self session deadline).Conforms (About session.id True) True := by
  refine Proc.Conforms.bind (Proc.conforms_await trivial) fun choices => ?_
  dsimp only
  split
  · exact conforms_finalizeDecision (.inl trivial)
  · split
    · exact conforms_finalizeDecision (.inl trivial)
    · refine Proc.Conforms.bind (Proc.conforms_await trivial) fun now => ?_
      split
      · exact conforms_finalizeDecision (.inl trivial)
      · cases deadline with
        | some ms => exact Proc.conforms_pure _
        | none => exact Proc.conforms_fail _ trivial

theorem conforms_getDecision {user : UserId} :
    (getDecision session user).Conforms (About session.id True) True := by
  refine conforms_readStoredDecision.bind fun decision => ?_
  cases decision with
  | none => exact Proc.conforms_pure _
  | invalid => exact Proc.conforms_pure _
  | resolved value => exact conforms_enrich.bind fun _ => Proc.conforms_pure _
  | pending deadline => exact conforms_enrich.bind fun _ => Proc.conforms_pure _

theorem conforms_expireChoices {deadline : JsDate} :
    (expireChoices id deadline).Conforms (About session.id True) True := by
  cases deadline with
  | none => exact Proc.conforms_fail _ trivial
  | some ms =>
      exact Proc.Conforms.bind (Proc.conforms_await trivial) fun now =>
        Proc.conforms_await trivial

theorem conforms_evaluated {deadline : JsDate} {user : UserId} :
    ((evaluateChoices self session deadline).bind fun evaluated =>
      enrichChoiceResultForUser evaluated session user).Conforms (About session.id True) True :=
  conforms_evaluateChoices.bind fun _ => conforms_enrich

/-- What is done on behalf of one session is lawful. -/
theorem lawful_of_about {α : Type} {p : Prog α} (h : p.Conforms (About id True) True) :
    p.Conforms Lawful True :=
  h.mono fun _ hc => ⟨id, hc⟩

theorem conforms_submitChoice {user : UserId} {choice : SessionChoice} :
    (submitChoice self id user choice).Conforms Lawful True := by
  refine Proc.Conforms.bind (Proc.conforms_await ?_) fun found => ?_
  · exact ⟨id, trivial⟩
  cases found with
  | none => exact Proc.conforms_fail _ trivial
  | some session =>
      have hread : ∀ c, About session.id True c → Lawful c := fun c hc => ⟨session.id, hc⟩
      dsimp only
      split
      · exact Proc.conforms_fail _ trivial
      · refine Proc.Conforms.bind (Proc.conforms_await (hread _ trivial)) fun ended => ?_
        split
        · exact Proc.conforms_fail _ trivial
        · refine (lawful_of_about conforms_getDecision).bind fun decision => ?_
          cases decision with
          | some stored => exact Proc.conforms_pure _
          | none =>
              refine (lawful_of_about conforms_ensureChoiceDeadline).bind fun deadline => ?_
              refine Proc.Conforms.bind (Proc.conforms_await (hread _ trivial)) fun existing => ?_
              split
              · exact lawful_of_about conforms_evaluated
              · refine Proc.Conforms.bind (Proc.conforms_await (hread _ trivial)) fun _ => ?_
                have hexpire : (expireChoices id deadline).Conforms (About session.id True) True :=
                  conforms_expireChoices
                refine (lawful_of_about hexpire).bind fun _ => ?_
                refine Proc.Conforms.bind (Proc.conforms_await (hread _ trivial)) fun _ => ?_
                exact lawful_of_about conforms_evaluated

theorem conforms_persistSessionState {channelName : String} {startAt endAt : Nat} :
    (persistSessionState session channelName startAt endAt).Conforms
      (About session.id b) b := by
  refine Proc.Conforms.bind (Proc.conforms_await ?_) fun _ => ?_
  · exact about_set rfl ⟨session.userAId, session.userBId, endAt, rfl⟩
  have hactive : ∀ user v ttl, About session.id b (.redis (.set (.sessionActive user) v ttl)) :=
    fun user v ttl => ⟨fun x hx => (by cases hx), trivial⟩
  exact (Proc.conforms_await (hactive _ _ _)).bind fun _ => Proc.conforms_await (hactive _ _ _)

theorem conforms_handleSessionCreated :
    (handleSessionCreated self session).Conforms (About session.id True) True := by
  refine Proc.Conforms.bind (Proc.conforms_await ?_) fun lockAcquired => ?_
  · exact about_setNX rfl trivial
  split
  · exact Proc.conforms_pure _
  · refine Proc.Conforms.bind (Proc.conforms_await trivial) fun startAt => ?_
    refine Proc.Conforms.tryCatch ?_ fun _ => conforms_endSession
    refine Proc.Conforms.bind (Proc.conforms_await trivial) fun tokens => ?_
    refine conforms_persistSessionState.bind fun _ => ?_
    exact Proc.Conforms.bind (Proc.conforms_await trivial) fun _ => Proc.conforms_await rfl

/-- The recovery of a session acts on behalf of the session its state
names. -/
theorem conforms_recoverSessionEnd : (recoverSessionEnd self id).Conforms Lawful True := by
  refine Proc.Conforms.bind (Proc.conforms_await ⟨id, trivial⟩) fun raw => ?_
  cases parseSessionState raw with
  | none => exact Proc.conforms_pure _
  | some state =>
      refine @lawful_of_about state.sessionId _ _ ?_
      refine Proc.Conforms.bind (Proc.conforms_await trivial) fun ended => ?_
      split
      · exact Proc.conforms_pure _
      · cases state.endAt.parseDate with
        | none => exact Proc.conforms_pure _
        | some endAt =>
            refine Proc.Conforms.bind (Proc.conforms_await trivial) fun now => ?_
            split
            · exact conforms_endSession
            · exact Proc.conforms_await rfl

theorem conforms_resolveSessionParticipants :
    (resolveSessionParticipants id).Conforms (About id b) b := by
  refine Proc.Conforms.bind (Proc.conforms_await trivial) fun raw => ?_
  cases parseSessionState raw with
  | some state => exact Proc.conforms_pure _
  | none =>
      refine Proc.Conforms.bind (Proc.conforms_await trivial) fun found => ?_
      cases found <;> exact Proc.conforms_pure _

theorem conforms_recoverFrom {deadline : Nat} :
    (recoverFrom self id deadline).Conforms (About id b) b := by
  refine conforms_resolveSessionParticipants.bind fun found => ?_
  cases found with
  | none => exact Proc.conforms_pure _
  | some pair =>
      refine Proc.Conforms.bind (Proc.conforms_await trivial) fun now => ?_
      split
      · have hfin : (finalizeDecision self (buildSyntheticSession id pair.1 pair.2) .PASS
            .PASS).Conforms (About id b) b := conforms_finalizeDecision (.inr (by decide))
        exact hfin.bind fun _ => Proc.conforms_pure _
      · exact Proc.conforms_await rfl

theorem conforms_recoverChoice : (recoverChoice self id).Conforms (About id b) b := by
  unfold recoverChoice
  split
  · exact Proc.conforms_pure _
  · refine conforms_readStoredDecision.bind fun decision => ?_
    have hrest : ∀ deadline : JsDate, Proc.Conforms (About id b) b (recoverBy self id deadline) := by
      intro deadline
      cases deadline with
      | none => exact Proc.conforms_pure _
      | some deadline => exact conforms_recoverFrom
    have hkey : Proc.Conforms (About id b) b
        ((redis (.get (.sessionChoiceDeadline id))).bind fun raw =>
          (pure (raw.bind RedisString.parseDate) : Prog JsDate)) :=
      Proc.Conforms.bind (Proc.conforms_await trivial) fun _ => Proc.conforms_pure _
    cases decision with
    | resolved value => exact Proc.conforms_pure _
    | none => exact hkey.bind hrest
    | invalid => exact hkey.bind hrest
    | pending deadline => exact Proc.Conforms.bind (Proc.conforms_pure _) hrest

theorem conforms_recoverEach {recover : SessionId → Prog Unit} {startedAt : Nat}
    (h : ∀ id, (recover id).Conforms Lawful True) (ids : List SessionId) :
    (recoverEach recover startedAt ids).Conforms Issued True := by
  induction ids with
  | nil => exact Proc.conforms_pure _
  | cons id rest ih =>
      refine Proc.Conforms.bind (Proc.conforms_await (.inl ⟨id, trivial⟩)) fun now => ?_
      split
      · exact Proc.conforms_pure _
      · exact ((h id).mono fun _ => .inl).bind fun _ => ih

theorem conforms_onModuleInit : (onModuleInit self).Conforms Issued True := by
  have hnow : Issued (.host .now) := .inl ⟨"", trivial⟩
  refine Proc.Conforms.bind ?_ fun _ => ?_
  · refine Proc.Conforms.bind (Proc.conforms_await hnow) fun startedAt => ?_
    refine Proc.Conforms.bind (Proc.conforms_await (.inr (.inl rfl))) fun ids => ?_
    exact conforms_recoverEach (fun _ => conforms_recoverSessionEnd) ids
  · refine Proc.Conforms.bind (Proc.conforms_await hnow) fun startedAt => ?_
    refine Proc.Conforms.bind (Proc.conforms_await (.inr (.inr rfl))) fun ids => ?_
    exact conforms_recoverEach (fun _ => lawful_of_about conforms_recoverChoice) ids

theorem conforms_code (o : LifecycleOp) : o.code.Conforms Issued True := by
  cases o with
  | handleSessionCreated self session =>
      exact (lawful_of_about conforms_handleSessionCreated).mono fun _ => .inl
  | endSession self session reason =>
      exact (lawful_of_about conforms_endSession).mono fun _ => .inl
  | submitChoice self id user choice => exact conforms_submitChoice.mono fun _ => .inl
  | finalizeDecision self session choiceA choiceB =>
      exact (lawful_of_about (conforms_finalizeDecision (.inl trivial))).mono fun _ => .inl
  | onModuleInit self => exact conforms_onModuleInit

end Conforms

/-! ## Where a process may stop -/

/-- **Whatever has been executed when the process stops**, every stored
string fits its key, and the session rows are those of the start. -/
theorem lifecycle_typed {w : World} (hw : Typed w) {es : List (Event lifecycleService.system)}
    (hes : (Config.initial w : Config lifecycleService.system).Obeys KeysKept es) :
    Typed ((Config.initial w : Config lifecycleService.system).run es).world ∧
      (World.db ((Config.initial w : Config lifecycleService.system).run es).world).sessions =
        w.db.sessions := by
  refine Config.run_conforms (S := lifecycleService.system) (P := Issued)
    (I := fun w' => Typed w' ∧ (World.db w').sessions = w.db.sessions) conforms_code ?_ ?_ es hes
    ⟨hw, rfl⟩
  · intro c w' hc hI
    exact ⟨typed_issued hc hI.1, (sessions_issued hc w').trans hI.2⟩
  · intro c e hok hI
    cases e with
    | tick ms => exact ⟨typed_of_get_eq hI.1 fun k => World.get_tick hok k, hI.2⟩

end VerityBackend.Sessions
