/-
VerityBackend.App.Guards — how the backend guards what is to be done once.

Three kinds of key are guards, all set with `NX`: `session:ended:<id>`,
`session:decision:<id>` and `moderation:hive:webhook:<hash>`. Most of the
backend leaves them alone (`Sparing`). The rest sets them as the source has
it, and nothing deletes or overwrites one (`Guarding`): a pending decision
would be overwritten, but as long as none is found none is stored.
-/
import VerityBackend.App.Aside
import VerityBackend.Async.Answers

namespace VerityBackend.App

open Async Sessions Store

/-! ## Sparing procedures -/

/-- No command of the procedure touches a key that guards what is done
once. -/
abbrev Sparing {α : Type} (p : Prog α) : Prop := p.Conforms (fun c => c.sparing = true) True

theorem Aside.sparing {α : Type} {p : Prog α} (h : Aside p) : Sparing p :=
  h.mono fun _ => Cmd.sparing_of_aside

theorem sparing_await {c : Cmd} (h : c.sparing = true) : Sparing (Proc.await c) :=
  Proc.conforms_await h

/-- Reading partners and telling the decision. -/
theorem sparing_partner {c : Cmd} (h : PartnerCommand c) : c.sparing = true := by cases h; rfl

/-- Telling the participants how they decided sets no guard. -/
theorem sparing_announce {self : Instance} {session : Session} {c : Cmd}
    (h : AnnounceCommand self session c) : c.sparing = true := by
  cases h with
  | partner h => exact sparing_partner h
  | _ => rfl

/-- The choice deadline is no guard: it may be set again. -/
theorem sparing_deadline {id : SessionId} {c : Cmd} (h : DeadlineCommand id c) :
    c.sparing = true := by cases h <;> rfl

theorem sparing_expire {id : SessionId} {c : Cmd} (h : ExpireCommand id c) : c.sparing = true := by
  cases h <;> rfl

/-- Who takes part is read, from the state or from the row. -/
theorem sparing_participants {id : SessionId} {c : Cmd} (h : ParticipantsCommand id c) :
    c.sparing = true := by cases h <;> rfl

/-- The reveal of the partner is a read. -/
theorem sparing_enrich (session : Session) (result : ChoiceResult) (userId : UserId) :
    Sparing (enrichChoiceResultForUser result session userId) :=
  (enrich_issues session result userId).mono fun _ => sparing_partner

/-- Only the row of the match is written. -/
theorem sparing_decisionOf (session : Session) (choiceA choiceB : SessionChoice) :
    Sparing (decisionOf session choiceA choiceB) := by
  unfold decisionOf
  split
  · refine (sparing_await rfl).bind fun m => ?_
    split
    · exact Proc.conforms_fail _ trivial
    · exact Proc.conforms_pure _
  · exact Proc.conforms_pure _

theorem sparing_announceDecision (self : Instance) (session : Session)
    (choiceA choiceB : SessionChoice) (payload : ResolvedChoiceResult) :
    Sparing (announceDecision self session choiceA choiceB payload) :=
  (announceDecision_issues self session choiceA choiceB payload).mono fun _ => sparing_announce

/-- Also where the recovery reads the deadline. -/
theorem sparing_recoveryDeadline (id : SessionId) (decision : ParsedStoredDecision) :
    Sparing (recoveryDeadline id decision) := by
  unfold recoveryDeadline
  split
  · exact Proc.conforms_pure _
  · exact (sparing_await rfl).bind fun _ => Proc.conforms_pure _

/-! ## Reveals, chat and tokens -/

theorem sparing_read (userId : UserId) (call : Matches.ReadCall) : Sparing (call.code userId) := by
  refine (read_issues userId call).mono fun c hc => ?_
  cases hc with
  | «matches» h => cases h <;> rfl
  | messages h =>
      cases h with
      | openMatch h => exact Cmd.sparing_of_aside (aside_openCommand h)
      | _ => rfl

/-- A message sets no guard, delivered or not. -/
theorem sparing_sendMessage (matchId : MatchId) (userId : UserId) (text : String) :
    Sparing (Chat.sendMessage matchId userId text) := by
  refine (Chat.sendMessage_issues matchId userId text).mono fun c hc => ?_
  cases hc with
  | openMatch h => exact Cmd.sparing_of_aside (aside_openCommand h)
  | _ => rfl

/-- Accounts and tokens have nothing to do with the guards. -/
theorem sparing_auth (cfg : AuthConfig) (o : Auth.AuthOp) : Sparing (o.code cfg) := by
  refine (auth_issues cfg o).mono fun c hc => ?_
  cases hc with
  | refresh h => cases h <;> rfl
  | _ => rfl

/-! ## The guards -/

/-- The keys are set with `NX`, for as long as the source has it, and
otherwise left alone: those of the session `id`, if one is given, and
those of the deliveries. -/
structure Guarding (id : Option SessionId) (c : Cmd) : Prop where
  ended : ∀ x ∈ id, c.touches (.sessionEnded x) →
    ∃ v, c = .redis (.setNX (.sessionEnded x) v SESSION_STATE_TTL_MS)
  decision : ∀ x ∈ id, c.touches (.sessionDecision x) → ∃ v : ResolvedChoiceResult,
    c = .redis (.setNX (.sessionDecision x) v.payload CHOICE_STATE_TTL_MS)
  delivery : ∀ timestamp signature, c.touches (.hiveWebhook timestamp signature) →
    ∃ v, c = .redis (.setNX (.hiveWebhook timestamp signature) v
      Moderation.WEBHOOK_REPLAY_TTL_MS)

/-- What is found under the decision key is a resolved decision. -/
def Expected (id : Option SessionId) : (c : Cmd) → Except Err c.Res → Prop
  | .redis (.get k), r =>
      ∀ x ∈ id, k = .sessionDecision x → ∀ raw, r = .ok (some raw) →
        ∃ v : ResolvedChoiceResult, raw = v.payload
  | _, _ => True

/-- Of no session, anything may be found. -/
theorem expected_none (c : Cmd) (r : Except Err c.Res) : Expected none c r := by
  cases c with
  | redis c =>
      cases c with
      | get k => exact fun x hx => (by cases hx)
      | _ => trivial
  | _ => trivial

/-- The procedure keeps to the guards. -/
abbrev Guarded (id : Option SessionId) {α : Type} (p : Prog α) : Prop :=
  p.Keeps (Guarding id) (Expected id)

/-- What touches no guard keeps to all of them. -/
theorem guarding_of_sparing {id : Option SessionId} {c : Cmd} (h : c.sparing = true) :
    Guarding id c where
  ended _ _ ht := absurd ht (Cmd.not_touches_of_sparing h rfl)
  decision _ _ ht := absurd ht (Cmd.not_touches_of_sparing h rfl)
  delivery _ _ ht := absurd ht (Cmd.not_touches_of_sparing h rfl)

/-- So does a procedure of such commands, whatever it finds. -/
theorem Sparing.guarded {id : Option SessionId} {α : Type} {p : Prog α} (h : Sparing p) :
    Guarded id p :=
  (h.mono fun _ => guarding_of_sparing).keeps trivial

section Guarded

variable {id : Option SessionId} {sid : SessionId} {self : Instance} {session : Session}

/-- How `endSession` marks a session. -/
theorem guarding_setNX_ended (v : RedisString) :
    Guarding id (.redis (.setNX (.sessionEnded sid) v SESSION_STATE_TTL_MS)) where
  ended _ _ ht := by
    cases ht
    exact ⟨v, rfl⟩
  decision _ _ ht := by cases ht
  delivery _ _ ht := by cases ht

/-- How a decision is stored that is the first one. -/
theorem guarding_setNX_decision (v : ResolvedChoiceResult) :
    Guarding id (.redis (.setNX (.sessionDecision sid) v.payload CHOICE_STATE_TTL_MS)) where
  ended _ _ ht := by cases ht
  decision _ _ ht := by
    cases ht
    exact ⟨v, rfl⟩
  delivery _ _ ht := by cases ht

/-- How a delivery is reserved. -/
theorem guarding_reserve (timestamp signature : String) (v : RedisString) :
    Guarding id (.redis (.setNX (.hiveWebhook timestamp signature) v
      Moderation.WEBHOOK_REPLAY_TTL_MS)) where
  ended _ _ ht := by cases ht
  decision _ _ ht := by cases ht
  delivery _ _ ht := by
    cases ht
    exact ⟨v, rfl⟩

/-- Of this session, no pending decision is read. -/
theorem guarded_readStoredDecision : (readStoredDecision sid).Meets (Guarding id) (Expected id)
    fun r => ∀ deadline, r = .ok (.pending deadline) → id ≠ some sid := by
  refine Proc.Meets.bind (Proc.meets_await (guarding_of_sparing rfl) fun _ hr => hr) ?_ ?_
  · rintro raw hraw deadline hpending rfl
    have hparse : parseStoredDecision raw = .pending deadline := Except.ok.inj hpending
    cases raw with
    | none => cases hparse
    | some r =>
        obtain ⟨v, rfl⟩ := hraw sid rfl rfl r rfl
        rw [parseStoredDecision_payload] at hparse
        cases hparse
  · intro e _ deadline h
    cases h

/-- Over a pending decision another one is stored without `NX`; so it must not be
that of the session in question. -/
theorem guarded_overwriteDecision (h : id ≠ some sid) (payload : ResolvedChoiceResult) :
    Guarded id (overwriteDecision sid payload) := by
  refine (Proc.keeps_await ⟨?_, ?_, ?_⟩).keeps_bind fun _ _ => trivial
  · intro x _ ht
    cases ht
  · intro x hx ht
    exact absurd (hx.trans (congrArg some (RedisKey.sessionDecision.inj ht))) h
  · intro timestamp signature ht
    cases ht

/-- A decision is stored with `NX`, unless a pending one was found. -/
theorem guarded_storeDecision {existing : ParsedStoredDecision}
    (h : ∀ deadline, existing = .pending deadline → id ≠ some sid) (payload : ResolvedChoiceResult) :
    Guarded id (storeDecision sid existing payload) := by
  have hunless : Guarded id (storeUnlessDecided sid payload) := by
    refine (Proc.keeps_await (guarding_setNX_decision payload)).keeps_bind fun stored _ => ?_
    split
    · trivial
    · refine guarded_readStoredDecision.keeps_bind fun decision hdecision => ?_
      cases decision with
      | pending deadline => exact guarded_overwriteDecision (hdecision deadline rfl) payload
      | _ => trivial
  cases existing with
  | pending deadline => exact guarded_overwriteDecision (h deadline rfl) payload
  | _ => exact hunless

/-- Of the session in question none is found, so its finalizers keep to the guard. -/
theorem guarded_finalizeDecision (choiceA choiceB : SessionChoice) :
    Guarded id (finalizeDecision self session choiceA choiceB) := by
  refine guarded_readStoredDecision.keeps_bind fun existing hexisting => ?_
  have hrest : Guarded id (settleDecision self session choiceA choiceB existing) := by
    refine (sparing_decisionOf _ _ _).guarded.keeps_bind fun payload _ => ?_
    refine (guarded_storeDecision (fun d hd => hexisting d (by rw [hd])) _).keeps_bind
      fun stored _ => ?_
    cases stored with
    | some value => trivial
    | none => exact (sparing_announceDecision _ _ _ _ _).guarded.keeps_bind fun _ _ => trivial
  cases existing with
  | resolved value => trivial
  | none => exact hrest
  | invalid => exact hrest
  | pending deadline => exact hrest

theorem guarded_evaluateChoices (deadline : JsDate) :
    Guarded id (evaluateChoices self session deadline) := by
  refine (Proc.keeps_await (guarding_of_sparing rfl)).keeps_bind fun choices _ => ?_
  dsimp only
  split
  · exact guarded_finalizeDecision _ _
  split
  · exact guarded_finalizeDecision _ _
  refine (Proc.keeps_await (guarding_of_sparing rfl)).keeps_bind fun now _ => ?_
  split
  · exact guarded_finalizeDecision _ _
  · cases deadline <;> trivial

theorem guarded_getDecision (userId : UserId) : Guarded id (getDecision session userId) := by
  refine guarded_readStoredDecision.keeps_bind fun decision _ => ?_
  cases decision with
  | none => trivial
  | invalid => trivial
  | resolved value => exact (sparing_enrich _ _ _).guarded.keeps_bind fun _ _ => trivial
  | pending deadline => exact (sparing_enrich _ _ _).guarded.keeps_bind fun _ _ => trivial

theorem guarded_evaluated (deadline : JsDate) (userId : UserId) :
    Guarded id ((evaluateChoices self session deadline).bind fun evaluated =>
      enrichChoiceResultForUser evaluated session userId) :=
  (guarded_evaluateChoices deadline).keeps_bind fun _ _ => (sparing_enrich _ _ _).guarded

/-- A choice leads to a decision at most. -/
theorem guarded_submitChoice (userId : UserId) (choice : SessionChoice) :
    Guarded id (submitChoice self sid userId choice) := by
  refine (Proc.keeps_await (guarding_of_sparing rfl)).keeps_bind fun found _ => ?_
  cases found with
  | none => trivial
  | some session =>
      dsimp only
      split
      · trivial
      refine (Proc.keeps_await (guarding_of_sparing rfl)).keeps_bind fun ended _ => ?_
      split
      · trivial
      refine (guarded_getDecision userId).keeps_bind fun decision _ => ?_
      cases decision with
      | some stored => trivial
      | none =>
          have hensure : Sparing (ensureChoiceDeadline sid) :=
            (ensureChoiceDeadline_issues sid).mono fun _ => sparing_deadline
          refine hensure.guarded.keeps_bind fun deadline _ => ?_
          refine (Proc.keeps_await (guarding_of_sparing rfl)).keeps_bind fun existing _ => ?_
          split
          · exact guarded_evaluated deadline userId
          refine (Proc.keeps_await (guarding_of_sparing rfl)).keeps_bind fun _ _ => ?_
          have hexpire : Sparing (expireChoices sid deadline) :=
            (expireChoices_issues sid deadline).mono fun _ => sparing_expire
          refine hexpire.guarded.keeps_bind fun _ _ => ?_
          refine (Proc.keeps_await (guarding_of_sparing rfl)).keeps_bind fun _ _ => ?_
          exact guarded_evaluated deadline userId

/-- The end of a session sets its key with `NX`. -/
theorem guarding_end {reason : EndReason} {c : Cmd} (h : EndCommand self session reason c) :
    Guarding id c := by
  cases h with
  | claim => exact guarding_setNX_ended _
  | deadline h => exact guarding_of_sparing (sparing_deadline h)
  | _ => exact guarding_of_sparing rfl

/-- A session that cannot be started is ended at once. -/
theorem guarding_created {c : Cmd} (h : CreatedCommand self session c) : Guarding id c := by
  cases h with
  | persist h => cases h <;> exact guarding_of_sparing rfl
  | start h => cases h <;> exact guarding_of_sparing rfl
  | finish h => exact guarding_end h
  | _ => exact guarding_of_sparing rfl

theorem guarding_recoverEnd {c : Cmd} (h : RecoverEndCommand self sid c) : Guarding id c := by
  cases h with
  | finish h => exact guarding_end h
  | _ => exact guarding_of_sparing rfl

/-- A delivery is reserved with `NX`. -/
theorem guarding_webhook {payload : Moderation.HiveViolationPayload} {c : Cmd}
    (h : Moderation.WebhookCommand self payload c) : Guarding id c := by
  rcases h with _ | h
  · exact guarding_reserve _ _ _
  rcases h with _ | h
  · exact guarding_of_sparing rfl
  cases h with
  | act h => cases h <;> exact guarding_of_sparing rfl
  | finish h => exact guarding_end h
  | _ => exact guarding_of_sparing rfl

theorem guarded_recoverFrom (deadline : Nat) : Guarded id (recoverFrom self sid deadline) := by
  have hparticipants : Sparing (resolveSessionParticipants sid) :=
    (resolveSessionParticipants_issues sid).mono fun _ => sparing_participants
  refine hparticipants.guarded.keeps_bind fun found _ => ?_
  cases found with
  | none => trivial
  | some pair =>
      refine (Proc.keeps_await (guarding_of_sparing rfl)).keeps_bind fun now _ => ?_
      split
      · exact (guarded_finalizeDecision _ _).keeps_bind fun _ _ => trivial
      · exact Proc.keeps_await (guarding_of_sparing rfl)

/-- The recovery decides what is overdue, like any finalizer. -/
theorem guarded_recoverChoice : Guarded id (recoverChoice self sid) := by
  unfold recoverChoice
  split
  · trivial
  · refine guarded_readStoredDecision.keeps_bind fun decision _ => ?_
    have hrest : Guarded id ((recoveryDeadline sid decision).bind (recoverBy self sid)) := by
      refine (sparing_recoveryDeadline sid decision).guarded.keeps_bind fun deadline _ => ?_
      cases deadline with
      | none => trivial
      | some deadline => exact guarded_recoverFrom deadline
    cases decision with
    | resolved value => trivial
    | none => exact hrest
    | invalid => exact hrest
    | pending deadline => exact hrest

/-- The loop of a recovery is as guarded as what it does for each key. -/
theorem guarded_recoverEach {recover : SessionId → Prog Unit} (startedAt : Nat)
    (h : ∀ sid, Guarded id (recover sid)) (sids : List SessionId) :
    Guarded id (recoverEach recover startedAt sids) := by
  induction sids with
  | nil => trivial
  | cons sid rest ih =>
      refine (Proc.keeps_await (guarding_of_sparing rfl)).keeps_bind fun now _ => ?_
      split
      · trivial
      · exact (h sid).keeps_bind fun _ _ => ih

theorem guarded_onModuleInit : Guarded id (onModuleInit self) := by
  refine Proc.Meets.keeps_bind (Q := fun _ => True) ?_ fun _ _ => ?_
  · refine (Proc.keeps_await (guarding_of_sparing rfl)).keeps_bind fun startedAt _ => ?_
    refine (Proc.keeps_await (guarding_of_sparing rfl)).keeps_bind fun keys _ => ?_
    exact guarded_recoverEach startedAt
      (fun _ => (recoverSessionEnd_issues self _).mono (fun _ => guarding_recoverEnd) |>.keeps trivial) keys
  · refine (Proc.keeps_await (guarding_of_sparing rfl)).keeps_bind fun startedAt _ => ?_
    refine (Proc.keeps_await (guarding_of_sparing rfl)).keeps_bind fun keys _ => ?_
    exact guarded_recoverEach startedAt (fun _ => guarded_recoverChoice) keys

/-- Every operation of the backend keeps to the guards of every session. -/
theorem guarded_code (cfg : AppConfig) (o : AppOp) : Guarded id (o.code cfg) := by
  cases o with
  | queue o => exact (aside_queue o).sparing.guarded
  | handleSessionCreated self session =>
      exact ((handleSessionCreated_issues self session).mono fun _ => guarding_created).keeps trivial
  | sessionTimeout self sid userAId userBId =>
      exact ((endSession_issues self _ .timeout).mono fun _ => guarding_end).keeps trivial
  | choiceTimeout self sid userAId userBId => exact guarded_finalizeDecision _ _
  | submitChoice self sid userId choice => exact guarded_submitChoice userId choice
  | onModuleInit self => exact guarded_onModuleInit
  | cleanupExpiredSessions => exact aside_cleanupExpiredSessions.sparing.guarded
  | createReport reporterId input => exact (aside_createReport reporterId input).sparing.guarded
  | createBlock blockerId blockedId => exact (aside_createBlock blockerId blockedId).sparing.guarded
  | unblock blockerId blockedId => exact (aside_unblock blockerId blockedId).sparing.guarded
  | resolveReport reportId action => exact (aside_resolveReport reportId action).sparing.guarded
  | hiveWebhook self sched rawBody delivery =>
      exact (aside_verifyWebhookSignature _ _ _ _).sparing.guarded.keeps_bind fun _ _ =>
        ((Moderation.handleWebhook_issues self sched _ delivery).mono
          fun _ => guarding_webhook).keeps trivial
  | read userId call => exact (sparing_read userId call).guarded
  | sendMessage matchId userId text =>
      -- unfolding would decide whether the text is empty
      change Guarded id (Chat.sendMessage matchId userId text)
      with_reducible exact (sparing_sendMessage matchId userId text).guarded
  | payments o => exact (aside_handleStripeWebhookEvent o.event).sparing.guarded
  | auth o => exact (sparing_auth cfg.auth o).guarded

end Guarded

end VerityBackend.App
