/-
VerityBackend.Telemetry.Ends — how often the end of a session is reported.

`endSession` sets `session:ended:<id>` with `NX` and reports the end only if
the key was not there. So every report has been paid for by a mark of the
same call (`paid_docket`), and as long as nobody tries to end a session after
its mark has expired, the session is marked once and its end is reported once
(`reportsEnd_le_one`).
-/
import VerityBackend.Async.Credit
import VerityBackend.Async.Outcomes
import VerityBackend.Telemetry.Reports

namespace VerityBackend.Telemetry

open App Async Moderation Store

/-! ## What is paid for -/

/-- The session whose end the event reports. -/
def endedSession : Output → Option SessionId
  | .track _ "session_ended" properties =>
      match properties.lookup "sessionId" with
      | some (.str id) => some id
      | _ => none
  | _ => none

/-- The command reports the end of the session. -/
def reportsEnd (id : SessionId) (c : AppealCmd) : Nat :=
  if (tracked c).any (endedSession · = some id) then 1 else 0

/-- The session is marked as ended, and was not. -/
def marksEnd (id : SessionId) : (c : AppealCmd) → Except Err c.Res → Nat
  | .backend (.redis (.setNX k _ _)), .ok true => if k = .sessionEnded id then 1 else 0
  | _, _ => 0

variable {id : SessionId} {cfg : AppConfig}

theorem endedSession_other {o : Output} (h : isCompared o = false) : endedSession o = none := by
  unfold endedSession
  split
  · cases h
  · rfl

/-- Only the end that is reported is reported. -/
theorem Told.endedSession {ended : Option SessionId} {os : List Output} (h : Told ended os) :
    ∀ o ∈ os, ∀ id, endedSession o = some id → ended = some id := by
  intro o ho id hid
  cases h with
  | started session tokens startAt endAt =>
      simp only [List.mem_cons, List.not_mem_nil, or_false] at ho
      rcases ho with rfl | rfl | rfl | rfl <;> cases hid
  | ended session reason now =>
      simp only [endReport, List.mem_cons, List.not_mem_nil, or_false] at ho
      rcases ho with rfl | rfl | rfl | rfl
      · cases hid
      · cases hid
      · exact hid
      · exact hid
  | resolved session payload bothPassed =>
      simp only [Sessions.resolvedEvents, List.mem_append, List.mem_cons, List.not_mem_nil,
        or_false] at ho
      rcases ho with (rfl | rfl) | (rfl | rfl) <;> cases hid
  | opened matchId userId messageCount seconds =>
      rw [List.mem_singleton.mp ho] at hid
      cases hid
  | other _ hother =>
      rw [endedSession_other (hother o ho)] at hid
      cases hid

theorem reportsEnd_of_told {ended : Option SessionId} {c : AppealCmd} (h : Told ended (tracked c))
    (hne : ended ≠ some id) : reportsEnd id c = 0 := by
  refine if_neg fun hany => ?_
  obtain ⟨o, ho, hid⟩ := List.any_eq_true.mp hany
  exact hne (h.endedSession o ho id (of_decide_eq_true hid))

/-! ## The procedures -/

section Procedures

variable {self : Instance} {session : Session}

/-- Every end that is reported has been marked before. -/
abbrev Paid {α : Type} (id : SessionId) (p : Prog α) (credits : Nat) : Prop :=
  p.Affords (fun _ => True) (fun c r => marksEnd id (.backend c) r)
    (fun c => reportsEnd id (.backend c)) credits

theorem Telling.free {c : Cmd} (h : Telling none c) : reportsEnd id (.backend c) = 0 :=
  reportsEnd_of_told h.told (by simp)

/-- No end is reported. -/
theorem paid_of_telling {α : Type} {p : Prog α} (h : p.Conforms (Telling none) True) (credits : Nat) :
    Paid id p credits :=
  Proc.affords_of_conforms (h.mono fun _ hc => ⟨trivial, hc.free⟩)

theorem Paid.after {α β : Type} {p : Prog α} (h : p.Conforms (Telling none) True) {credits : Nat}
    {f : α → Prog β} (hf : ∀ a, Paid id (f a) credits) : Paid id (p.bind f) credits :=
  Proc.Affords.after (h.mono fun _ hc => ⟨trivial, hc.free⟩) hf

theorem tells_now : (host .now).Conforms (Telling none) True :=
  Proc.conforms_await (telling_silent rfl fun _ => nofun)

theorem tells_get (k : RedisKey) : (redis (.get k)).Conforms (Telling none) True :=
  Proc.conforms_await (telling_silent rfl fun _ => nofun)

theorem tells_prisma (c : DbCmd) : (prisma c).Conforms (Telling none) True :=
  Proc.conforms_await (telling_silent rfl fun _ => nofun)

/-- The key is none of those that mark a session as ended. -/
theorem tells_setNX {k : RedisKey} (h : ∀ id, k ≠ .sessionEnded id) (v : RedisString) (ttl : Nat) :
    (redis (.setNX k v ttl)).Conforms (Telling none) True :=
  Proc.conforms_await (telling_silent rfl fun id hk => h id hk.symm)

/-- The report is paid for by the mark. -/
theorem paid_endSession (reason : EndReason) :
    Paid id (Sessions.endSession self session reason) 0 := by
  refine Proc.affords_await (c := Cmd.redis (.setNX (.sessionEnded session.id) (.text "1")
    Sessions.SESSION_STATE_TTL_MS)) trivial (Nat.zero_le _) fun marked => ?_
  cases marked with
  | false => exact paid_of_telling (Proc.conforms_pure ()) _
  | true =>
      have hrest : ((Sessions.ensureChoiceDeadline session.id).bind fun deadline =>
          Sessions.scheduleChoiceTimeout self session.id session.userAId session.userBId
            deadline).Conforms (Telling none) True :=
        ((Sessions.ensureChoiceDeadline_issues session.id).mono fun _ => telling_deadline).bind
          fun deadline => Proc.conforms_await (telling_silent rfl fun _ => nofun)
      have hdisarm : (host (.clearSessionEnd self session.id)).Conforms (Telling none) True :=
        Proc.conforms_await (telling_silent rfl fun _ => nofun)
      have hrelease : (redis (.del [.sessionActive session.userAId,
          .sessionActive session.userBId])).Conforms (Telling none) True :=
        Proc.conforms_await (telling_silent rfl fun _ => by simp [Cmd.touches])
      refine Paid.after hdisarm fun _ => Paid.after hrelease fun _ => Paid.after tells_now fun now => ?_
      refine Proc.affords_await (c := Cmd.host (.emit (endReport session.id session.userAId
        session.userBId session.createdAt reason now))) trivial ?_ fun _ => paid_of_telling hrest _
      by_cases hid : session.id = id
      · have hearned : marksEnd id (.backend (.redis (.setNX (.sessionEnded session.id) (.text "1")
            Sessions.SESSION_STATE_TTL_MS))) (.ok true) = 1 := if_pos (by rw [hid])
        have hle : ∀ c, reportsEnd id c ≤ 1 := fun c => by
          unfold reportsEnd
          split <;> omega
        exact (hle _).trans (by rw [hearned]; omega)
      · have htold : Told (some session.id) (tracked (.backend (.host (.emit
            (endReport session.id session.userAId session.userBId session.createdAt reason now))))) :=
          .ended session reason now
        exact (reportsEnd_of_told htold (by simpa using hid)).trans_le (Nat.zero_le _)

theorem paid_handleSessionCreated :
    Paid id (Sessions.handleSessionCreated self session) 0 := by
  refine Paid.after (tells_setNX (k := .sessionLock session.id) (fun _ => nofun) _ _)
    fun lockAcquired => ?_
  split
  · exact paid_of_telling (Proc.conforms_pure ()) _
  refine Paid.after tells_now fun startAt => ?_
  refine Proc.Affords.tryCatch (paid_of_telling ?_ _) fun _ => paid_endSession _
  have htokens : (host (.buildSessionTokens session.id session.userAId session.userBId)).Conforms
      (Telling none) True := Proc.conforms_await (telling_silent rfl fun _ => nofun)
  exact htokens.bind fun tokens =>
    ((Sessions.persistSessionState_issues session _ _ _).mono fun _ => telling_persist).bind fun _ =>
      (Sessions.startSession_issues self session tokens _ _).mono fun _ => telling_start

theorem paid_recoverSessionEnd (sessionId : SessionId) :
    Paid id (Sessions.recoverSessionEnd self sessionId) 0 := by
  have harm (sessionId : SessionId) (userAId userBId : UserId) (endAt : Nat) :
      (host (.scheduleSessionEnd self sessionId userAId userBId endAt)).Conforms (Telling none) True :=
    Proc.conforms_await (telling_silent rfl fun _ => nofun)
  refine Paid.after (tells_get _) fun raw => ?_
  cases Sessions.parseSessionState raw with
  | none => exact paid_of_telling (Proc.conforms_pure ()) _
  | some state =>
      refine Paid.after (tells_get _) fun ended => ?_
      split
      · exact paid_of_telling (Proc.conforms_pure ()) _
      split
      · exact paid_of_telling (Proc.conforms_pure ()) _
      refine Paid.after tells_now fun now => ?_
      split
      · exact paid_endSession _
      · exact paid_of_telling (harm _ _ _ _) _

theorem paid_recoverEach {recover : SessionId → Prog Unit} (h : ∀ sessionId, Paid id (recover sessionId) 0)
    (startedAt : Nat) (keys : List SessionId) :
    Paid id (Sessions.recoverEach recover startedAt keys) 0 := by
  induction keys with
  | nil => exact paid_of_telling (Proc.conforms_pure ()) _
  | cons key keys ih =>
      refine Paid.after tells_now fun now => ?_
      split
      · exact paid_of_telling (Proc.conforms_pure ()) _
      · exact (h key).bind fun _ => ih

theorem paid_onModuleInit : Paid id (Sessions.onModuleInit self) 0 := by
  have hstates : (redis .scanSessionStates).Conforms (Telling none) True :=
    Proc.conforms_await (telling_silent rfl fun _ => nofun)
  have hdeadlines : (redis .scanChoiceDeadlines).Conforms (Telling none) True :=
    Proc.conforms_await (telling_silent rfl fun _ => nofun)
  have hends : Paid id (Sessions.recoverSessionEndTimers self) 0 :=
    Paid.after tells_now fun startedAt =>
      Paid.after hstates fun keys => paid_recoverEach paid_recoverSessionEnd startedAt keys
  have hchoices : Paid id (Sessions.recoverChoiceTimeouts self) 0 :=
    Paid.after tells_now fun startedAt =>
      Paid.after hdeadlines fun keys => paid_recoverEach (fun key => paid_of_telling
          ((Sessions.recoverChoice_issues self key).mono fun _ => telling_recoverChoice) _) startedAt keys
  exact hends.bind fun _ => hchoices

/-- A violation ends the session after everything else. -/
theorem paid_punish (sched : Schedules) (payload : HiveViolationPayload) :
    Paid id (punish self sched payload session) 0 := by
  have hrecord : ∀ u ∈ offendersOf payload session, (logModerationEvent u).Conforms (Telling none) True :=
    fun u _ => tells_prisma _
  have hact (startedAt : Nat) : ∀ u ∈ offendersOf payload session,
      (applyModerationAction u (policyReason payload) startedAt).Conforms (Telling none) True :=
    fun u _ => (applyModerationAction_issues u (policyReason payload) startedAt).mono
      fun _ => telling_action
  refine Paid.after tells_now fun startedAt => ?_
  refine Paid.after (Proc.Conforms.all _ (List.forall_mem_map.mpr hrecord)) fun _ => ?_
  refine Paid.after (Proc.conforms_await (telling_detect payload session)) fun _ => ?_
  refine Paid.after (Proc.Conforms.all _ (List.forall_mem_map.mpr (hact startedAt))) fun _ => ?_
  exact paid_endSession _

theorem paid_processDelivery (sched : Schedules) (payload : HiveViolationPayload)
    (sessionId : SessionId) : Paid id (processDelivery self sched payload sessionId) 0 := by
  unfold processDelivery
  split
  · exact paid_of_telling (Proc.conforms_fail _ trivial) _
  · exact paid_of_telling (Proc.conforms_pure ()) _
  · refine Paid.after (tells_prisma _) fun found => ?_
    cases found with
    | none => exact paid_of_telling (Proc.conforms_pure ()) _
    | some session => exact paid_punish sched payload

theorem paid_handleWebhook (sched : Schedules) (payload : HiveViolationPayload)
    (delivery : HiveWebhookDelivery) : Paid id (handleWebhook self sched payload delivery) 0 := by
  have hreserve (signature timestamp : String) :
      (reserveWebhookDelivery signature timestamp).Conforms (Telling none) True :=
    tells_setNX (k := .hiveWebhook timestamp (rawSignature signature)) (fun _ => nofun) (.text "1")
      WEBHOOK_REPLAY_TTL_MS
  unfold handleWebhook
  split
  · exact paid_of_telling (Proc.conforms_fail _ trivial) _
  split
  · refine Paid.after (hreserve _ _) fun accepted => ?_
    split
    · exact paid_of_telling (Proc.conforms_pure ()) _
    · exact paid_processDelivery sched payload _
  · exact paid_processDelivery sched payload _

/-- **Every operation of the backend.** -/
theorem paid_app (cfg : AppConfig) (o : AppOp) : Paid id (o.code cfg) 0 := by
  cases o with
  | handleSessionCreated self session => exact paid_handleSessionCreated
  | sessionTimeout self sessionId userAId userBId => exact paid_endSession _
  | onModuleInit self => exact paid_onModuleInit
  | hiveWebhook self sched rawBody delivery =>
      refine Paid.after ((verifyWebhookSignature_issues _ _ _ _).mono fun c hc => ?_)
        fun _ => paid_handleWebhook sched _ delivery
      rw [hc]
      exact telling_silent rfl fun _ => nofun
  | queue o => exact paid_of_telling ((queue_issues o).mono fun _ => telling_queue) _
  | choiceTimeout self sessionId userAId userBId =>
      exact paid_of_telling ((Sessions.finalizeDecision_issues self _ _ _).mono
        fun _ => telling_finalize) _
  | submitChoice self sessionId userId choice =>
      exact paid_of_telling ((Sessions.submitChoice_issues self sessionId userId choice).mono
        fun _ => telling_submit) _
  | cleanupExpiredSessions =>
      refine paid_of_telling (Sessions.cleanupExpiredSessions_issues.mono fun c hc => ?_) _
      cases hc <;> exact telling_silent rfl fun _ => nofun
  | createReport reporterId input =>
      exact paid_of_telling ((createReport_issues reporterId input).mono fun _ => telling_report) _
  | createBlock blockerId blockedId =>
      exact paid_of_telling ((createBlock_issues blockerId blockedId).mono fun _ => telling_block) _
  | unblock blockerId blockedId =>
      refine paid_of_telling ((unblock_issues blockerId blockedId).mono fun c hc => ?_) _
      cases hc <;> exact telling_silent rfl fun _ => nofun
  | resolveReport reportId action =>
      exact paid_of_telling ((resolveReport_issues reportId action).mono fun _ => telling_resolve) _
  | read userId call => exact paid_of_telling ((read_issues userId call).mono fun _ => telling_read) _
  | sendMessage matchId userId text =>
      exact paid_of_telling ((Chat.sendMessage_issues matchId userId text).mono fun _ => telling_send) _
  | payments o =>
      exact paid_of_telling ((handleStripeWebhookEvent_issues o.event).mono fun _ => telling_payments) _
  | auth o => exact paid_of_telling ((auth_issues cfg.auth o).mono fun _ => telling_auth) _

/-- The appeals as well. -/
theorem paid_docket (cfg : AppConfig) (id : SessionId) (o : DocketOp) :
    (o.code cfg).Affords (fun _ => True) (marksEnd id) (reportsEnd id) 0 := by
  have hfree {α : Type} {p : AppealProg α} (h : p.Conforms (fun c => Told none (tracked c)) True) :
      p.Affords (fun _ => True) (marksEnd id) (reportsEnd id) 0 :=
    Proc.affords_of_conforms (h.mono fun c hc => ⟨trivial, reportsEnd_of_told hc (by simp)⟩)
  cases o with
  | app o => exact (paid_app cfg o).embed (fun _ h => h) (fun _ => rfl) fun _ _ => rfl
  | createAppeal userId input =>
      exact hfree ((createAppeal_issues userId input).mono fun _ => told_appeal)
  | resolveAppeal resolverUserId appealId resolution =>
      exact hfree ((resolveAppeal_issues appealId resolverUserId resolution).mono fun _ => told_ruling)

end Procedures

/-! ## Runs -/

section Runs

variable {s : Snap (docketSystem cfg)}

/-- The session was marked as ended by this entry. -/
def marked (id : SessionId) (e : Entry (docketSystem cfg)) : Bool :=
  match e.cmd with
  | .backend (.redis (.setNX k _ _)) => k = .sessionEnded id ∧ (e.before.world.get k).isNone
  | _ => false

/-- Less than an hour has passed since the session was marked. -/
def MarkLives (id : SessionId) (s : Snap (docketSystem cfg)) : Prop :=
  ∀ e ∈ s.trace, marked id e = true →
    s.world.world.clock < e.before.world.clock + Sessions.SESSION_STATE_TTL_MS

instance (id : SessionId) (s : Snap (docketSystem cfg)) : Decidable (MarkLives id s) :=
  List.decidableBAll _ s.trace

/-- Nobody tries to end a session whose mark has expired. -/
def EndsOnce (c : Config (docketSystem cfg)) : Event (docketSystem cfg) → Prop
  | .step i =>
      match c.pending i with
      | some (.backend (.redis (.setNX (.sessionEnded id) _ _))) => MarkLives id c.toSnap
      | _ => True
  | _ => True

instance (c : Config (docketSystem cfg)) (e : Event (docketSystem cfg)) : Decidable (EndsOnce c e) := by
  unfold EndsOnce
  split
  · split <;> infer_instance
  · infer_instance

/-- The mark is there until its time to live is over, and was set once. -/
structure MarkedOnce (id : SessionId) (s : Snap (docketSystem cfg)) : Prop where
  kept : ∀ e ∈ s.trace, marked id e = true → ∃ v t,
    s.world.world.stored (.sessionEnded id) = some ⟨v, some t⟩ ∧
      e.before.world.clock + Sessions.SESSION_STATE_TTL_MS ≤ t
  once : (s.trace.filter (marked id)).length ≤ 1

/-- Only `SET NX` on this key sets the mark. -/
theorem marked_eq_false {i : Nat} {c : AppealCmd} (h : ¬c.touches (.sessionEnded id)) (d : Docket) :
    marked id (⟨i, c, d⟩ : Entry (docketSystem cfg)) = false := by
  unfold marked
  split
  · next k v ttl heq =>
      obtain rfl : c = .backend (.redis (.setNX k v ttl)) := heq
      have hne : k ≠ .sessionEnded id := fun hk => h hk.symm
      simp [hne]
  · rfl

/-- A command that sets no mark and leaves the key as it is. -/
theorem MarkedOnce.frame (h : MarkedOnce id s) {i : Nat} {c : AppealCmd}
    (hstored : (c.exec s.world).2.world.stored (.sessionEnded id) =
      s.world.world.stored (.sessionEnded id))
    (hmarked : marked id (⟨i, c, s.world⟩ : Entry (docketSystem cfg)) = false) :
    MarkedOnce id (s.exec i c) where
  kept e he hm := by
    rcases List.mem_cons.mp he with rfl | he
    · rw [hmarked] at hm
      cases hm
    · obtain ⟨v, t, hsame, ht⟩ := h.kept e he hm
      exact ⟨v, t, hstored.trans hsame, ht⟩
  once := by
    rw [Snap.exec_trace, List.filter_cons_of_neg (by rw [hmarked]; decide)]
    exact h.once

/-- While the mark is less than an hour old, it is seen. -/
theorem MarkedOnce.unmarked (h : MarkedOnce id s) (hlives : MarkLives id s)
    (hnone : s.world.world.get (.sessionEnded id) = none) : ∀ e ∈ s.trace, marked id e = false := by
  intro e he
  by_contra hm
  have hm : marked id e = true := by simpa using hm
  obtain ⟨v, t, hstored, ht⟩ := h.kept e he hm
  have hlt := hlives e he hm
  rw [World.get_of_stored hstored (by omega)] at hnone
  cases hnone

/-- **`endSession` at its guard.** -/
theorem MarkedOnce.mark (h : MarkedOnce id s) (i : Nat) (v : RedisString) (hlives : MarkLives id s) :
    MarkedOnce id (s.exec i
      (.backend (.redis (.setNX (.sessionEnded id) v Sessions.SESSION_STATE_TTL_MS)))) := by
  cases hget : s.world.world.get (.sessionEnded id) with
  | some r =>
      refine h.frame ?_ (by simp [marked, hget])
      simp only [AppealCmd.exec, Cmd.exec_redis, RedisCmd.exec, hget]
  | none =>
      have hearlier := h.unmarked hlives hget
      have hexec : (AppealCmd.exec (.backend (.redis (.setNX (.sessionEnded id) v
          Sessions.SESSION_STATE_TTL_MS))) s.world).2.world =
          s.world.world.set (.sessionEnded id) v (some Sessions.SESSION_STATE_TTL_MS) := by
        simp only [AppealCmd.exec, Cmd.exec_redis, RedisCmd.exec, hget]
      constructor
      · intro e he hm
        rcases List.mem_cons.mp he with rfl | he
        · refine ⟨v, s.world.world.clock + Sessions.SESSION_STATE_TTL_MS, ?_, Nat.le_refl _⟩
          exact (congrArg (World.stored · (.sessionEnded id)) hexec).trans
            (World.stored_set_self _ _ _ _)
        · rw [hearlier e he] at hm
          cases hm
      · have hnil : s.trace.filter (marked id) = [] :=
          List.filter_eq_nil_iff.mpr fun e he => by rw [hearlier e he]; decide
        rw [Snap.exec_trace, List.filter_cons, hnil]
        split <;> simp

/-- **Run lemma**: every session is marked once. -/
theorem markedOnce_run (id : SessionId) (d : Docket) {es : List (Event (docketSystem cfg))}
    (hes : (Config.initial d : Config (docketSystem cfg)).Obeys EndsOnce es) :
    MarkedOnce id ((Config.initial d : Config (docketSystem cfg)).run es).toSnap := by
  refine (Config.run_answered (P := fun c => ∃ o, DocketCommand cfg o c) (A := fun _ _ => True)
    (fun c o _ => ((docket_issues cfg o).mono fun _ h => ⟨o, h⟩).keeps trivial)
    (fun _ _ _ _ _ _ _ => trivial) ?_ ?_ es hes
    ⟨fun e he => absurd he List.not_mem_nil, Nat.zero_le _⟩).1
  · rintro c i cmd hok hp ⟨o, hcmd⟩ h
    by_cases ht : cmd.touches (.sessionEnded id)
    · obtain ⟨v, rfl⟩ := mark_docket hcmd id ht
      simp only [EndsOnce, hp] at hok
      exact h.mark i v hok
    · exact h.frame (AppealCmd.stored_exec ht _) (marked_eq_false ht _)
  · intro c e _ h
    cases e with
    | tick ms => exact ⟨h.kept, h.once⟩

/-- `SET NX` answers that the key was set if it was not there. -/
theorem marksEnd_exec (e : Entry (docketSystem cfg)) :
    marksEnd id e.cmd (AppealCmd.exec e.cmd e.before).1 = if marked id e then 1 else 0 := by
  obtain ⟨i, c, d⟩ := e
  cases c with
  | backend c =>
      cases c with
      | redis c =>
          cases c with
          | setNX k v ttl =>
              cases hget : d.world.get k with
              | some r => simp [marksEnd, marked, AppealCmd.exec, RedisCmd.exec, hget]
              | none => simp [marksEnd, marked, AppealCmd.exec, RedisCmd.exec, hget]
          | _ => rfl
      | _ => rfl
  | _ => rfl

/-- **The end of a session is reported once.** -/
theorem reportsEnd_le_one (id : SessionId) (d : Docket) {es : List (Event (docketSystem cfg))}
    (hes : (Config.initial d : Config (docketSystem cfg)).Obeys EndsOnce es) :
    Config.total (reportsEnd id) ((Config.initial d : Config (docketSystem cfg)).run es).trace ≤ 1 := by
  have hpaid := Config.cost_le_earned (S := docketSystem cfg) (paid_docket cfg id) d es
  have hmarks : ∀ trace : List (Entry (docketSystem cfg)),
      Config.earned (marksEnd id) trace = (trace.filter (marked id)).length := by
    intro trace
    induction trace with
    | nil => rfl
    | cons e trace ih =>
        rw [Config.earned_cons, ih, List.filter_cons, marksEnd_exec]
        split
        · rw [List.length_cons, Nat.add_comm]
        · rw [Nat.zero_add]
  rw [hmarks] at hpaid
  exact hpaid.trans (markedOnce_run id d hes).once

end Runs

end VerityBackend.Telemetry
