/-
VerityBackend.Telemetry.Reports — what the commands of the backend report.

The start, the end and the result of a session are reported to both
participants by one command, the opening of a chat to the one who opens it;
all other events have other names (`Told`). That a session has ended is
marked by `endSession` alone. This is so for every command of the backend (`told_docket`,
`mark_docket`), whatever the procedures are answered.
-/
import VerityBackend.App.Appeals
import VerityBackend.Telemetry.Fitting

namespace VerityBackend.Telemetry

open App Async Moderation

/-! ## Reports -/

/-- The event is one that the gates compare with another one. -/
def isCompared : Output → Bool
  | .track _ name _ =>
      name ∈ ["session_started", "session_ended", "session_result", "match_chat_opened"]
  | _ => false

/-- What one command reports, and of which session it reports the end. -/
inductive Told : Option SessionId → List Output → Prop
  | started (session : Session) (tokens : SessionTokens) (startAt endAt : Nat) : Told none
      [.sessionStart session.userAId session.id tokens.channelName (tokens.byUser session.userAId)
          startAt endAt tokens.expiresAt (Sessions.SESSION_DURATION_MS / 1000),
        .sessionStart session.userBId session.id tokens.channelName (tokens.byUser session.userBId)
          startAt endAt tokens.expiresAt (Sessions.SESSION_DURATION_MS / 1000),
        .track session.userAId "session_started" [("sessionId", .str session.id),
          ("durationSeconds", .num (Sessions.SESSION_DURATION_MS / 1000))],
        .track session.userBId "session_started" [("sessionId", .str session.id),
          ("durationSeconds", .num (Sessions.SESSION_DURATION_MS / 1000))]]
  | ended (session : Session) (reason : EndReason) (now : Nat) : Told (some session.id)
      (endReport session.id session.userAId session.userBId session.createdAt reason now)
  | resolved (session : Session) (payload : Sessions.ResolvedChoiceResult) (bothPassed : Bool) :
      Told none (Sessions.resolvedEvents session.id session.userAId payload bothPassed ++
        Sessions.resolvedEvents session.id session.userBId payload bothPassed)
  | opened (matchId : MatchId) (userId : UserId) (messageCount seconds : Nat) : Told none
      [.track userId "match_chat_opened" [("matchId", .str matchId),
        ("messageCount", .num messageCount), ("timeFromMutualMatchSec", .num seconds)]]
  | other {os : List Output} (hsourced : ∀ o ∈ os, Sourced o)
      (hother : ∀ o ∈ os, isCompared o = false) : Told none os

/-- All events are of the source. -/
theorem Told.sourced {ended : Option SessionId} {os : List Output} (h : Told ended os) :
    ∀ o ∈ os, Sourced o := by
  cases h with
  | started session tokens startAt endAt =>
      exact List.forall_mem_cons.mpr ⟨trivial, List.forall_mem_cons.mpr ⟨trivial,
        List.forall_mem_cons.mpr ⟨sourced_sessionStarted,
          List.forall_mem_singleton.mpr sourced_sessionStarted⟩⟩⟩
  | ended session reason now =>
      exact List.forall_mem_cons.mpr ⟨trivial, List.forall_mem_cons.mpr ⟨trivial,
        List.forall_mem_cons.mpr ⟨sourced_endedEvent reason _,
          List.forall_mem_singleton.mpr (sourced_endedEvent reason _)⟩⟩⟩
  | resolved session payload bothPassed =>
      exact List.forall_mem_append.mpr
        ⟨sourced_resolvedEvents payload bothPassed, sourced_resolvedEvents payload bothPassed⟩
  | opened matchId userId messageCount seconds =>
      exact List.forall_mem_singleton.mpr (sourced_chatOpened matchId messageCount seconds)
  | other hsourced _ => exact hsourced

/-- Nothing is reported. -/
theorem told_nil : Told none [] := .other (List.forall_mem_nil _) (List.forall_mem_nil _)

/-- What the command reports, and that it marks no session as ended but as
`endSession` does. -/
structure Telling (ended : Option SessionId) (c : Cmd) : Prop where
  told : Told ended (emitted c)
  mark : ∀ id, c.touches (.sessionEnded id) →
    ∃ v, c = .redis (.setNX (.sessionEnded id) v Sessions.SESSION_STATE_TTL_MS)

theorem telling_silent {c : Cmd} (hsilent : emitted c = [])
    (hmark : ∀ id, ¬c.touches (.sessionEnded id)) : Telling none c where
  told := by
    rw [hsilent]
    exact told_nil
  mark id ht := absurd ht (hmark id)

theorem telling_emit {ended : Option SessionId} {os : List Output} (h : Told ended os) :
    Telling ended (.host (.emit os)) where
  told := h
  mark _ ht := ht.elim

/-- One event. -/
theorem telling_track {o : Output} (hsourced : Sourced o) (hother : isCompared o = false) :
    Telling none (.host (.emit [o])) :=
  telling_emit (.other (List.forall_mem_singleton.mpr hsourced) (List.forall_mem_singleton.mpr hother))

/-! ## Operations -/

section Operations

variable {cfg : AppConfig} {self : Instance} {session : Session}

theorem telling_join {userId : UserId} {input : Queue.QueueJoinInput} {c : Cmd}
    (h : Queue.JoinCommand userId input c) : Telling none c := by
  cases h with
  | tell hcity hkey position =>
      exact telling_emit (.other (sourced_joinedEvents _ _ position)
        (List.forall_mem_cons.mpr ⟨rfl, List.forall_mem_singleton.mpr rfl⟩))
  | lock h => cases h <;> exact telling_silent rfl fun _ => nofun
  | _ => exact telling_silent rfl fun _ => nofun

theorem telling_leave {userId : UserId} {c : Cmd} (h : Queue.LeaveCommand userId c) :
    Telling none c := by
  cases h with
  | tell result => exact telling_track (sourced_queueLeftEvent result) rfl
  | lock h => cases h <;> exact telling_silent rfl fun _ => nofun
  | cleanup h => cases h <;> exact telling_silent rfl fun _ => nofun
  | clear => exact telling_silent rfl fun _ => by simp [Cmd.touches]
  | settle h =>
      cases h with
      | refund => exact telling_silent rfl fun _ => nofun
      | tell status result hstatus =>
          have hwritten : status ∈ SERVER_STRINGS := by
            simp only [List.mem_cons, List.not_mem_nil, or_false] at hstatus
            rcases hstatus with rfl | rfl | rfl <;> decide
          exact telling_emit (.other
            (List.forall_mem_cons.mpr ⟨sourced_queueCancelEvent hwritten,
              List.forall_mem_singleton.mpr (sourced_queueLeftEvent result)⟩)
            (List.forall_mem_cons.mpr ⟨rfl, List.forall_mem_singleton.mpr rfl⟩))
  | _ => exact telling_silent rfl fun _ => nofun

/-- Of a match, two events are tracked; the rest is for the participants. -/
theorem telling_pair {queueKey : QueueKey} {c : Cmd} (h : Queue.PairCommand queueKey c) :
    Telling none c := by
  cases h with
  | lock h => cases h <;> exact telling_silent rfl fun _ => nofun
  | created session => exact telling_track trivial rfl
  | mark a b id => exact telling_silent rfl fun _ => by simp [Cmd.touches]
  | tell pair session waitA waitB =>
      refine telling_emit (.other ?_ ?_)
      · refine List.forall_mem_cons.mpr ⟨sourced_matchFoundEvent _ session waitA, ?_⟩
        refine List.forall_mem_cons.mpr ⟨sourced_matchFoundEvent _ session waitB, ?_⟩
        exact List.forall_mem_cons.mpr ⟨trivial, List.forall_mem_cons.mpr
          ⟨trivial, List.forall_mem_singleton.mpr trivial⟩⟩
      · exact List.forall_mem_cons.mpr ⟨rfl, List.forall_mem_cons.mpr ⟨rfl, List.forall_mem_cons.mpr
          ⟨rfl, List.forall_mem_cons.mpr ⟨rfl, List.forall_mem_singleton.mpr rfl⟩⟩⟩⟩
  | _ => exact telling_silent rfl fun _ => nofun

theorem telling_pass {queueKey : QueueKey} {c : Cmd} (h : Queue.PassCommand queueKey c) :
    Telling none c := by
  cases h with
  | pop => exact telling_silent rfl fun _ => nofun
  | cleanup h => cases h <;> exact telling_silent rfl fun _ => nofun
  | pair h => exact telling_pair h
  | status h =>
      cases h with
      | tell userIds usersSearching =>
          exact telling_emit (.other (List.forall_mem_map.mpr fun _ _ => trivial)
            (List.forall_mem_map.mpr fun _ _ => rfl))
      | _ => exact telling_silent rfl fun _ => nofun

theorem telling_finalize {c : Cmd} (h : Sessions.FinalizeCommand self session c) :
    Telling none c := by
  cases h with
  | store h => cases h <;> exact telling_silent rfl fun _ => nofun
  | upsert userLow userHigh => exact telling_silent rfl fun _ => nofun
  | announce h =>
      cases h with
      | track payload bothPassed => exact telling_emit (.resolved session payload bothPassed)
      | partner h => cases h; exact telling_silent rfl fun _ => nofun
      | tellMutual _ _ _ | tellNonMutual =>
          exact telling_emit (.other
            (List.forall_mem_cons.mpr ⟨trivial, List.forall_mem_singleton.mpr trivial⟩)
            (List.forall_mem_cons.mpr ⟨rfl, List.forall_mem_singleton.mpr rfl⟩))
      | push matchId => exact telling_track trivial rfl
      | disarm => exact telling_silent rfl fun _ => nofun

theorem telling_deadline {id : SessionId} {c : Cmd} (h : Sessions.DeadlineCommand id c) :
    Telling none c := by cases h <;> exact telling_silent rfl fun _ => nofun

theorem telling_submit {id : SessionId} {userId : UserId} {choice : SessionChoice} {c : Cmd}
    (h : Sessions.SubmitCommand self id userId choice c) : Telling none c := by
  cases h with
  | tell => exact telling_track (sourced_choiceSubmitted choice) rfl
  | deadline h => exact telling_deadline h
  | expire h => cases h <;> exact telling_silent rfl fun _ => nofun
  | evaluate h =>
      cases h with
      | finalize h => exact telling_finalize h
      | _ => exact telling_silent rfl fun _ => nofun
  | _ => exact telling_silent rfl fun _ => nofun

/-- The mark of the session is set, and its end is reported. -/
theorem telling_end {reason : EndReason} {c : Cmd}
    (h : Sessions.EndCommand self session reason c) : ∃ ended, Telling ended c := by
  cases h with
  | claim =>
      refine ⟨none, told_nil, fun id ht => ?_⟩
      cases ht
      exact ⟨_, rfl⟩
  | release => exact ⟨none, telling_silent rfl fun _ => by simp [Cmd.touches]⟩
  | deadline h => exact ⟨none, telling_deadline h⟩
  | tell now => exact ⟨some session.id, telling_emit (.ended session reason now)⟩
  | _ => exact ⟨none, telling_silent rfl fun _ => nofun⟩

theorem telling_persist {c : Cmd} (h : Sessions.PersistCommand session c) : Telling none c := by
  cases h <;> exact telling_silent rfl fun _ => nofun

theorem telling_start {c : Cmd} (h : Sessions.StartCommand self session c) : Telling none c := by
  cases h with
  | arm endAt => exact telling_silent rfl fun _ => nofun
  | tell tokens startAt endAt => exact telling_emit (.started session tokens startAt endAt)

theorem telling_created {c : Cmd} (h : Sessions.CreatedCommand self session c) :
    ∃ ended, Telling ended c := by
  cases h with
  | persist h => exact ⟨none, telling_persist h⟩
  | start h => exact ⟨none, telling_start h⟩
  | finish h => exact telling_end h
  | _ => exact ⟨none, telling_silent rfl fun _ => nofun⟩

theorem telling_recoverChoice {id : SessionId} {c : Cmd}
    (h : Sessions.RecoverChoiceCommand self id c) : Telling none c := by
  cases h with
  | participants h => cases h <;> exact telling_silent rfl fun _ => nofun
  | finalize h => exact telling_finalize h
  | _ => exact telling_silent rfl fun _ => nofun

theorem telling_init {c : Cmd} (h : Sessions.InitCommand self c) : ∃ ended, Telling ended c := by
  cases h with
  | recoverEnd h =>
      cases h with
      | finish h _ => exact telling_end h
      | _ => exact ⟨none, telling_silent rfl fun _ => nofun⟩
  | recoverChoice h => exact ⟨none, telling_recoverChoice h⟩
  | _ => exact ⟨none, telling_silent rfl fun _ => nofun⟩

theorem telling_remove {userId : UserId} {c : Cmd} (h : RemoveCommand userId c) :
    Telling none c := by
  cases h with
  | clear => exact telling_silent rfl fun _ => by simp [Cmd.touches]
  | _ => exact telling_silent rfl fun _ => nofun

theorem telling_block {blockerId blockedId : UserId} {c : Cmd}
    (h : BlockCommand blockerId blockedId c) : Telling none c := by
  cases h with
  | remove h => exact telling_remove h
  | _ => exact telling_silent rfl fun _ => nofun

theorem telling_report {reporterId : UserId} {input : ReportUserDto} {c : Cmd}
    (h : ReportCommand reporterId input c) : Telling none c := by
  cases h with
  | remove h => exact telling_remove h
  | tell report hasDetails => exact telling_track (sourced_reportSubmittedEvent report hasDetails) rfl
  | _ => exact telling_silent rfl fun _ => nofun

theorem telling_resolve {reportId : String} {action : ModerationAction} {c : Cmd}
    (h : ResolveCommand reportId action c) : Telling none c := by
  cases h with
  | block h => exact telling_block h
  | tell report now =>
      exact telling_emit (.other
        (List.forall_mem_cons.mpr ⟨trivial,
          List.forall_mem_singleton.mpr (sourced_reportResolved report.reason action _)⟩)
        (List.forall_mem_cons.mpr ⟨rfl, List.forall_mem_singleton.mpr rfl⟩))
  | _ => exact telling_silent rfl fun _ => nofun

theorem telling_action {userId : UserId} {policyReason : JsonValue} {c : Cmd}
    (h : ActionCommand userId policyReason c) : Telling none c := by
  cases h with
  | tell action count latency haction =>
      have hwritten : action ∈ SERVER_STRINGS := by
        simp only [List.mem_cons, List.not_mem_nil, or_false] at haction
        rcases haction with rfl | rfl <;> decide
      exact telling_emit (.other
        (List.forall_mem_cons.mpr ⟨trivial, List.forall_mem_singleton.mpr
          (sourced_actionTakenEvent hwritten _ count latency)⟩)
        (List.forall_mem_cons.mpr ⟨rfl, List.forall_mem_singleton.mpr rfl⟩))
  | _ => exact telling_silent rfl fun _ => nofun

/-- The offenders' events tell of the violation. -/
theorem telling_detect (payload : HiveViolationPayload) (session : Session) : Telling none
    (.host (.emit ((offendersOf payload session).map (detectedEvent payload session.id)))) :=
  telling_emit (.other (List.forall_mem_map.mpr fun _ _ => sourced_detectedEvent payload)
    (List.forall_mem_map.mpr fun _ _ => rfl))

theorem telling_webhook {payload : HiveViolationPayload} {c : Cmd}
    (h : WebhookCommand self payload c) : ∃ ended, Telling ended c := by
  rcases h with _ | h
  · exact ⟨none, telling_silent rfl fun _ => nofun⟩
  rcases h with _ | h
  · exact ⟨none, telling_silent rfl fun _ => nofun⟩
  cases h with
  | detect => exact ⟨none, telling_detect payload _⟩
  | finish h => exact telling_end h
  | act h => exact ⟨none, telling_action h⟩
  | _ => exact ⟨none, telling_silent rfl fun _ => nofun⟩

theorem telling_read {userId : UserId} {c : Cmd} (h : App.ReadCommand userId c) :
    Telling none c := by
  cases h with
  | «matches» h => cases h <;> exact telling_silent rfl fun _ => nofun
  | messages h =>
      cases h with
      | openMatch h => cases h <;> exact telling_silent rfl fun _ => nofun
      | tell messageCount seconds => exact telling_emit (.opened _ userId messageCount seconds)
      | _ => exact telling_silent rfl fun _ => nofun

theorem telling_send {matchId : MatchId} {userId : UserId} {c : Cmd}
    (h : Chat.SendCommand matchId userId c) : Telling none c := by
  cases h with
  | openMatch h => cases h <;> exact telling_silent rfl fun _ => nofun
  | tell messageId existingCount seconds =>
      refine telling_emit (.other (sourced_sentEvents _ messageId existingCount seconds) ?_)
      refine List.forall_mem_cons.mpr ⟨?_, List.forall_mem_singleton.mpr rfl⟩
      unfold isCompared
      dsimp only
      split_ifs <;> rfl
  | push _ _ _ | ask _ _ => exact telling_track trivial rfl
  | deliver m message =>
      -- a participant gets it who has acknowledged the reveal
      have hmessage : ∀ o ∈ Chat.messageEvents m message, Sourced o ∧ isCompared o = false := by
        intro o ho
        rcases List.mem_append.mp ho with ho | ho <;> split at ho
        · rw [List.mem_singleton.mp ho]
          exact ⟨trivial, rfl⟩
        · cases ho
        · rw [List.mem_singleton.mp ho]
          exact ⟨trivial, rfl⟩
        · cases ho
      exact telling_emit (.other (fun o ho => (hmessage o ho).1) fun o ho => (hmessage o ho).2)
  | _ => exact telling_silent rfl fun _ => nofun

theorem telling_payments {event : Payments.StripeEvent} {c : Cmd} (h : PaymentsCommand event c) :
    Telling none c := by
  cases h with
  | tell purchase =>
      have hsucceeded : Sourced (Payments.purchaseEvent "token_purchase_succeeded" event purchase) :=
        sourced_purchaseEvent event purchase (by simp [SERVER_EVENTS])
      have hcompleted : Sourced (Payments.purchaseEvent "token_purchase_completed" event purchase) :=
        sourced_purchaseEvent event purchase (by simp [SERVER_EVENTS])
      exact telling_emit (.other
        (List.forall_mem_cons.mpr ⟨hsucceeded, List.forall_mem_singleton.mpr hcompleted⟩)
        (List.forall_mem_cons.mpr ⟨rfl, List.forall_mem_singleton.mpr rfl⟩))
  | _ => exact telling_silent rfl fun _ => id

theorem telling_queue {o : Queue.QueueOp} {c : Cmd} (h : QueueOpCommand o c) : Telling none c := by
  cases h with
  | join h => exact telling_join h
  | leave h => exact telling_leave h
  | pass h => exact telling_pass h

theorem telling_auth {c : Cmd} (h : AuthCommand c) : Telling none c := by
  cases h with
  | refresh h => cases h <;> exact telling_silent rfl fun _ => nofun
  | _ => exact telling_silent rfl fun _ => nofun

/-- **Every operation of the backend.** -/
theorem telling_app {o : AppOp} {c : Cmd} (h : AppCommand cfg o c) : ∃ ended, Telling ended c := by
  cases h with
  | queue h => exact ⟨none, telling_queue h⟩
  | created h => exact telling_created h
  | timeout h => exact telling_end h
  | finalize h => exact ⟨none, telling_finalize h⟩
  | submit h => exact ⟨none, telling_submit h⟩
  | init h => exact telling_init h
  | cleanup h => exact ⟨none, by cases h <;> exact telling_silent rfl fun _ => nofun⟩
  | report h => exact ⟨none, telling_report h⟩
  | block h => exact ⟨none, telling_block h⟩
  | unblock h => exact ⟨none, by cases h <;> exact telling_silent rfl fun _ => nofun⟩
  | resolve h => exact ⟨none, telling_resolve h⟩
  | check => exact ⟨none, telling_silent rfl fun _ => nofun⟩
  | webhook h => exact telling_webhook h
  | read h => exact ⟨none, telling_read h⟩
  | send h => exact ⟨none, telling_send h⟩
  | payments h => exact ⟨none, telling_payments h⟩
  | auth h => exact ⟨none, telling_auth h⟩

/-- What a command tracks. -/
def tracked : AppealCmd → List Output
  | .backend c => emitted c
  | _ => []

theorem told_appeal {userId : UserId} {input : CreateAppealDto} {c : AppealCmd}
    (h : AppealCommand userId input c) : Told none (tracked c) := by
  cases h with
  | tell appeal seconds => exact (telling_track (sourced_appealOpenedEvent appeal seconds) rfl).told
  | _ => exact told_nil

theorem told_ruling {appealId : String} {resolverUserId : UserId} {resolution : Resolution}
    {c : AppealCmd} (h : RulingCommand appealId resolverUserId resolution c) :
    Told none (tracked c) := by
  cases h with
  | tell existing resolvedAt =>
      exact (telling_track (sourced_appealResolvedEvent existing _ resolvedAt) rfl).told
  | _ => exact told_nil

/-- The appeals as well. -/
theorem told_docket {o : DocketOp} {c : AppealCmd} (h : DocketCommand cfg o c) :
    ∃ ended, Told ended (tracked c) := by
  cases h with
  | app h =>
      obtain ⟨ended, htelling⟩ := telling_app h
      exact ⟨ended, htelling.told⟩
  | appeal h => exact ⟨none, told_appeal h⟩
  | ruling h => exact ⟨none, told_ruling h⟩

/-- No appeal marks a session as ended. -/
theorem mark_docket {o : DocketOp} {c : AppealCmd} (h : DocketCommand cfg o c) :
    ∀ id, c.touches (.sessionEnded id) → ∃ v,
      c = .backend (.redis (.setNX (.sessionEnded id) v Sessions.SESSION_STATE_TTL_MS)) := by
  intro id ht
  cases h with
  | app h =>
      obtain ⟨ended, htelling⟩ := telling_app h
      obtain ⟨v, rfl⟩ := htelling.mark id ht
      exact ⟨v, rfl⟩
  | appeal h => cases h <;> exact ht.elim
  | ruling h =>
      cases h with
      | lift existing _ => simp [AppealCmd.touches, Cmd.touches] at ht
      | _ => exact ht.elim

end Operations

end VerityBackend.Telemetry
