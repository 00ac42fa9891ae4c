/-
VerityBackend.Telemetry.Durations — the reported duration of a call.

`endSession` reports the time since `session.createdAt`. A token error and a
moderation webhook end the session with its row; the end timer and the
recovery make up a `Session` of 1970. `duration_real_iff` says of every end
in every run whether both `session_ended` events carry the real duration,
and with it whether the completion metric counts what it should: they do
unless the end is a timeout (or the clock happens to hide it).
-/
import VerityBackend.Analytics.Properties
import VerityBackend.Async.Knowledge
import VerityBackend.Backend.Frames
import VerityBackend.Moderation.Issued
import VerityBackend.Session.Choosing
import VerityBackend.Telemetry.Snapshots

namespace VerityBackend.Telemetry

open Async Analytics

/-! ## The service -/

/-- All that ends sessions, and what deletes their rows. -/
inductive EndingOp where
  | handleSessionCreated (self : Instance) (session : Session)
  | sessionTimeout (self : Instance) (sessionId : SessionId) (userAId userBId : UserId)
  | onModuleInit (self : Instance)
  | handleWebhook (self : Instance) (sched : Moderation.Schedules)
      (payload : Moderation.HiveViolationPayload) (delivery : Moderation.HiveWebhookDelivery)
  | cleanupExpiredSessions
  deriving DecidableEq, Repr

def EndingOp.code : EndingOp → Prog Unit
  | .handleSessionCreated self session => Sessions.handleSessionCreated self session
  | .sessionTimeout self sessionId userAId userBId =>
      Sessions.sessionTimeout self sessionId userAId userBId
  | .onModuleInit self => Sessions.onModuleInit self
  | .handleWebhook self sched payload delivery =>
      Moderation.handleWebhook self sched payload delivery
  | .cleanupExpiredSessions => Sessions.cleanupExpiredSessions

@[reducible] def endingService : Service where
  Op := EndingOp
  Ret _ := Unit
  code := EndingOp.code

/-- `handleSessionCreated` is called with the row that was created. -/
def HandlesRow (row : Session) (_ : Config endingService.system) : Event endingService.system → Prop
  | .start (.handleSessionCreated _ session) => session.id = row.id → session = row
  | _ => True

/-! ## What is reported -/

/-- `Math.round` of the milliseconds between, in seconds. -/
def secondsBetween (createdAt now : Nat) : Nat := (now - createdAt + 500) / 1000

/-- What `endSession` sends out. -/
def endReport (id : SessionId) (userAId userBId : UserId) (createdAt : Nat) (reason : EndReason)
    (now : Nat) : List Output :=
  [.sessionEnd userAId id reason now, .sessionEnd userBId id reason now,
    Sessions.endedEvent id userAId reason (secondsBetween createdAt now),
    Sessions.endedEvent id userBId reason (secondsBetween createdAt now)]

def emitted : Cmd → List Output
  | .host (.emit os) => os
  | _ => []

/-- The durations the `session_ended` events of the session carry. -/
def durations (id : SessionId) (os : List Output) : List Int :=
  os.filterMap fun
    | .track _ "session_ended" properties =>
        if properties.lookup "sessionId" = some (.str id) then
          match properties.lookup "durationSeconds" with
          | some (.num seconds) => some seconds
          | _ => none
        else none
    | _ => none

def jsonValue : JsonField → JsonValue
  | .str s => .str s
  | .num n => .num n
  | .bool b => .bool b
  | .null => .null
  | .date _ => .composite
  | .given v => v

/-- The argument of `trackServerEvent`. -/
def serverEvent : Output → Option ServerEvent
  | .track userId name properties => some
      { userId := some userId, name
        properties := some (.object (properties.map fun p => (p.1, jsonValue p.2)))
        occurredAt := none, eventId := none, eventSchemaVersion := none }
  | _ => none

/-- Both participants' events carry the seconds since the row was created,
and where they are accepted the completion metric counts them if these are
40 at least. -/
structure Truthful (row : Session) (now : Nat) (os : List Output) : Prop where
  real : durations row.id os =
    [(secondsBetween row.createdAt now : Int), (secondsBetween row.createdAt now : Int)]
  counted : ∀ o ∈ os, ∀ event, serverEvent o = some event → ∀ env nowMs uuid normalized,
    normalizeEvent env nowMs uuid (event.raw env) false = .ok normalized →
      ∀ t : Tally, (t.count ⟨normalized.name, normalized.properties⟩).sessionCompleted =
        t.sessionCompleted + if 40 ≤ secondsBetween row.createdAt now then 1 else 0

/-! ## One end -/

/-- Where the clock hides that a session is from 1970. -/
theorem secondsBetween_zero_iff (createdAt now : Nat) :
    secondsBetween 0 now = secondsBetween createdAt now ↔
      createdAt ≤ (now + 500) % 1000 ∨ now < 500 := by
  unfold secondsBetween
  omega

theorem durations_endReport (id : SessionId) (userAId userBId : UserId) (createdAt : Nat)
    (reason : EndReason) (now : Nat) :
    durations id (endReport id userAId userBId createdAt reason now) =
      [(secondsBetween createdAt now : Int), (secondsBetween createdAt now : Int)] := by
  simp [durations, endReport, Sessions.endedEvent, List.lookup_cons]

theorem parseProperty_durationSeconds (eventName : String) (output : AnalyticsObject) (x : Rat) :
    parseProperty eventName output "durationSeconds" (.num x) =
      .ok (setProperty output "durationSeconds" (.num x)) := by
  have htrim : jsTrim "durationSeconds" = "durationSeconds" := by decide +kernel
  have hkey : ¬("durationSeconds" = "" ∨ jsLength "durationSeconds" > 64 ∨
      KEY_PATTERN "durationSeconds" = false) := by decide +kernel
  have hallowed : ¬BLOCKED_PROPERTY_KEYS.contains (jsLowerCase "durationSeconds") = true := by
    decide +kernel
  unfold parseProperty
  rw [htrim]
  simp only [if_neg hkey, if_neg hallowed]

/-- A duration that comes last is kept. -/
theorem parseProperties_durationSeconds {entries : List (String × JsonValue)} {x : Rat}
    {eventName : String} {properties : AnalyticsProperties}
    (h : parseProperties (some (.object (entries ++ [("durationSeconds", .num x)]))) eventName =
      .ok properties) : properties.lookup "durationSeconds" = some (.num x) := by
  simp only [parseProperties] at h
  split at h
  · cases h
  · rw [List.foldlM_append] at h
    cases hfirst : entries.foldlM (fun output p => parseProperty eventName output p.1 p.2) .empty with
    | error e =>
        rw [hfirst] at h
        cases h
    | ok output =>
        rw [hfirst] at h
        simp only [bind, Except.bind, pure, Except.pure, List.foldlM_cons, List.foldlM_nil,
          parseProperty_durationSeconds] at h
        obtain rfl := Except.ok.inj h
        exact lookup_setProperty_self _ _ (by decide)

/-- The completion metric goes by the duration of an event. -/
theorem counted_endedEvent {id : SessionId} {userId : UserId} {reason : EndReason} {seconds : Nat}
    {event : ServerEvent} (hevent : serverEvent (Sessions.endedEvent id userId reason seconds) = some event)
    {env : AnalyticsEnv} {nowMs : Nat} {uuid : String} {normalized : EmitInput}
    (h : normalizeEvent env nowMs uuid (event.raw env) false = .ok normalized) (t : Tally) :
    (t.count ⟨normalized.name, normalized.properties⟩).sessionCompleted =
      t.sessionCompleted + if 40 ≤ seconds then 1 else 0 := by
  obtain rfl := Option.some.inj hevent
  obtain ⟨hname, hproperties, -⟩ := normalizeEvent_ok h
  have hparse : parseEventName (some (.str "session_ended")) false = .ok .session_ended := by
    decide +kernel
  have hended : normalized.name = .session_ended := Except.ok.inj (hname.symm.trans hparse)
  have hlast : parseProperties (some (.object ([("sessionId", .str id),
      ("endReason", .str (Sessions.reasonName reason)),
      ("endedBy", .str (Sessions.mapEndedBy reason))] ++
      [("durationSeconds", .num ((seconds : Int) : Rat))]))) normalized.name.text =
      .ok normalized.properties := hproperties
  have hlookup := parseProperties_durationSeconds hlast
  unfold Tally.count
  rw [hended]
  simp only [hlookup, numberProperty, Option.any_some, decide_eq_true_eq]
  by_cases h40 : 40 ≤ seconds
  · rw [if_pos h40, if_pos (by exact_mod_cast h40)]
  · rw [if_neg h40, if_neg (by exact_mod_cast h40)]
    rfl

/-- An end that reports the row's time of creation is truthful. -/
theorem truthful_endReport_iff (row : Session) (userAId userBId : UserId) (createdAt : Nat)
    (reason : EndReason) (now : Nat) :
    Truthful row now (endReport row.id userAId userBId createdAt reason now) ↔
      secondsBetween createdAt now = secondsBetween row.createdAt now := by
  constructor
  · rintro ⟨hreal, -⟩
    rw [durations_endReport] at hreal
    exact_mod_cast (List.cons.inj hreal).1
  · intro h
    refine ⟨by rw [durations_endReport, h], fun o ho event hevent env nowMs uuid normalized hok t => ?_⟩
    simp only [endReport, List.mem_cons, List.not_mem_nil, or_false] at ho
    rcases ho with rfl | rfl | rfl | rfl
    · cases hevent
    · cases hevent
    · rw [counted_endedEvent hevent hok, h]
    · rw [counted_endedEvent hevent hok, h]

/-! ## Every end -/

section Ends

variable {row : Session}

/-- The time of creation `endSession` goes by. -/
def assumedCreation (row : Session) (reason : EndReason) : Nat :=
  if reason = .timeout then 0 else row.createdAt

/-- The command creates no session, and what it tells of the end of this one
is such a report. -/
structure Reporting (row : Session) (c : Cmd) : Prop where
  creates : ¬c.createsSession
  report : ∀ user reason now, .sessionEnd user row.id reason now ∈ emitted c →
    ∃ userAId userBId,
      emitted c = endReport row.id userAId userBId (assumedCreation row reason) reason now

/-- The end of a session. -/
def isEnd : Output → Bool
  | .sessionEnd _ _ _ _ => true
  | _ => false

/-- Neither creates a session nor ends one. -/
def Unending : Cmd → Prop
  | .host (.emit os) => ∀ o ∈ os, isEnd o = false
  | .db (.sessionCreate _ _ _ _) => False
  | _ => True

theorem Unending.reporting {c : Cmd} (h : Unending c) : Reporting row c where
  creates hcreates := by
    cases c with
    | redis c | host c => exact hcreates
    | db c => cases c <;> first | exact hcreates | exact h
  report user reason now hmem := by
    cases c with
    | redis c | db c => cases hmem
    | host c =>
        cases c with
        | emit os => cases h _ hmem
        | _ => cases hmem

variable (row) in
abbrev Reports {α : Type} (p : Prog α) : Prop := p.Conforms (Reporting row) True

abbrev Unends {α : Type} (p : Prog α) : Prop := p.Conforms Unending True

theorem unends_await {c : Cmd} (h : Unending c) : Unends (Proc.await c) := Proc.conforms_await h

theorem Unends.reports {α : Type} {p : Prog α} (hp : Unends p) : Reports row p :=
  Proc.Conforms.mono hp fun _ => Unending.reporting

theorem unending_deciding {c : Cmd} (h : Sessions.Deciding c) : Unending c := by
  cases h with
  | announce os hos =>
      intro o ho
      have hevent := hos o ho
      cases o <;> first | rfl | cases hevent
  | _ => trivial

theorem reporting_endReport {session : Session} {reason : EndReason}
    (h : session.id = row.id → session.createdAt = assumedCreation row reason) (now : Nat) :
    Reporting row (.host (.emit
      (endReport session.id session.userAId session.userBId session.createdAt reason now))) where
  creates h := h
  report user reason' now' hmem := by
    simp only [emitted, endReport, List.mem_cons, Sessions.endedEvent, List.not_mem_nil, or_false,
      Output.sessionEnd.injEq, reduceCtorEq] at hmem
    obtain ⟨hid, rfl, rfl⟩ : row.id = session.id ∧ reason' = reason ∧ now' = now := by
      rcases hmem with h | h <;> exact h.2
    refine ⟨session.userAId, session.userBId, ?_⟩
    rw [h hid.symm, hid]
    rfl

/-- The session ended is the row, but for a timeout. -/
theorem reporting_end {self : Instance} {session : Session} {reason : EndReason} {c : Cmd}
    (hrow : session.id = row.id → session.createdAt = assumedCreation row reason)
    (h : Sessions.EndCommand self session reason c) : Reporting row c := by
  cases h with
  | tell now => exact reporting_endReport hrow now
  | deadline h => cases h <;> exact Unending.reporting trivial
  | _ => exact Unending.reporting trivial

/-- A made-up session is one of 1970. -/
theorem reporting_recoverEnd {self : Instance} {id : SessionId} {c : Cmd}
    (h : Sessions.RecoverEndCommand self id c) : Reporting row c := by
  cases h with
  | finish h hsynthetic => exact reporting_end (fun _ => hsynthetic) h
  | _ => exact Unending.reporting trivial

theorem unending_recoverChoice {self : Instance} {id : SessionId} {c : Cmd}
    (h : Sessions.RecoverChoiceCommand self id c) : Unending c := by
  cases h with
  | participants h => cases h <;> trivial
  | finalize h => exact unending_deciding (Sessions.deciding_finalize h)
  | _ => trivial

theorem reports_sessionTimeout (self : Instance) (sessionId : SessionId) (userAId userBId : UserId) :
    Reports row (Sessions.sessionTimeout self sessionId userAId userBId) :=
  (Sessions.endSession_issues self _ .timeout).mono fun _ => reporting_end fun _ => rfl

theorem reports_onModuleInit (self : Instance) : Reports row (Sessions.onModuleInit self) := by
  refine (Sessions.onModuleInit_issues self).mono fun c hc => ?_
  cases hc with
  | recoverEnd h => exact reporting_recoverEnd h
  | recoverChoice h => exact (unending_recoverChoice h).reporting
  | _ => exact Unending.reporting trivial

theorem reports_handleSessionCreated (self : Instance) {session : Session}
    (h : session.id = row.id → session = row) :
    Reports row (Sessions.handleSessionCreated self session) := by
  refine (Sessions.handleSessionCreated_issues self session).mono fun c hc => ?_
  cases hc with
  | persist h => cases h <;> exact Unending.reporting trivial
  | finish hend => exact reporting_end (fun hid => by rw [h hid]; rfl) hend
  | start hstart =>
      refine Unending.reporting ?_
      cases hstart with
      | arm endAt => trivial
      | tell tokens startAt endAt =>
          intro o ho
          simp only [List.mem_cons, List.not_mem_nil, or_false] at ho
          rcases ho with rfl | rfl | rfl | rfl <;> rfl
  | _ => exact Unending.reporting trivial

/-- A violation ends the session it was found in. -/
theorem reports_punish (self : Instance) (sched : Moderation.Schedules)
    (payload : Moderation.HiveViolationPayload) {session : Session}
    (h : session.id = row.id → session = row) :
    Reports row (Moderation.punish self sched payload session) := by
  refine (Moderation.punish_issues self sched payload session).mono fun c hc => ?_
  cases hc with
  | now | record _ => exact Unending.reporting trivial
  | finish hend => exact reporting_end (fun hid => by rw [h hid]; rfl) hend
  | detect =>
      refine Unending.reporting fun o ho => ?_
      obtain ⟨id, -, rfl⟩ := List.mem_map.mp ho
      rfl
  | act hact =>
      refine Unending.reporting ?_
      cases hact with
      | tell action count latency haction =>
          intro o ho
          simp only [List.mem_cons, List.not_mem_nil, or_false] at ho
          rcases ho with rfl | rfl <;> rfl
      | _ => trivial

/-- The row of the session is the only one with its id. -/
def IsRow (row : Session) (w : World) : Prop := ∀ s ∈ w.db.sessions, s.id = row.id → s = row

def reporting (row : Session) : Practice endingService.system where
  inv := IsRow row
  proper _ := Reporting row
  keeps c w hinv hc s hs := hinv s (Cmd.sessions_subset hc.creates w s hs)
  env e w hinv := by
    cases e with
    | tick ms => exact hinv

theorem learns_reports {α : Type} {p : Prog α} {F : World → Prop} (hp : Reports row p) :
    (reporting row).Learns F p fun _ _ => True :=
  Practice.learns_conforms (fun _ _ h => h) hp

/-- The session found is the row. -/
theorem learns_processDelivery (self : Instance) (sched : Moderation.Schedules)
    (payload : Moderation.HiveViolationPayload) (sessionId : SessionId) :
    (reporting row).Learns (fun _ => True)
      (Moderation.processDelivery self sched payload sessionId) fun _ _ => True := by
  have hfound : (reporting row).Learns (fun _ => True) (prisma (.sessionFindUnique sessionId))
      fun found _ => ∀ s, found = some s → s.id = row.id → s = row := by
    refine Practice.learns_await (.const _) (fun _ _ _ => Unending.reporting trivial) ?_
    intro w found hinv _ hanswer s hs
    obtain rfl := Except.ok.inj hanswer
    exact hinv s (List.mem_of_find?_eq_some hs)
  unfold Moderation.processDelivery
  split
  · exact Practice.learns_fail _
  · exact learns_reports (Proc.conforms_pure _)
  · refine hfound.bind (.const _) fun found => ?_
    cases found with
    | none => exact learns_reports (Proc.conforms_pure _)
    | some session =>
        intro o i s hs
        exact learns_reports (F := fun _ => True)
          (reports_punish self sched payload (hs.2 session rfl)) o i s trivial

theorem learns_handleWebhook (self : Instance) (sched : Moderation.Schedules)
    (payload : Moderation.HiveViolationPayload) (delivery : Moderation.HiveWebhookDelivery) :
    (reporting row).Learns (fun _ => True) (Moderation.handleWebhook self sched payload delivery)
      fun _ _ => True := by
  have hreserve (signature timestamp : String) :
      Reports row (Moderation.reserveWebhookDelivery signature timestamp) :=
    (unends_await (c := .redis (.setNX _ _ _)) trivial).reports
  unfold Moderation.handleWebhook
  split
  · exact Practice.learns_fail _
  · split
    · refine Practice.learns_conforms_bind (fun _ _ h => h) (hreserve _ _) (.const _) fun accepted => ?_
      split
      · exact learns_reports (Proc.conforms_pure _)
      · exact learns_processDelivery _ _ _ _
    · exact learns_processDelivery _ _ _ _

theorem learns_code {c : Config endingService.system} {o : EndingOp} (h : HandlesRow row c (.start o)) :
    (reporting row).Learns (fun _ => True) o.code fun _ _ => True := by
  cases o with
  | handleSessionCreated self session => exact learns_reports (reports_handleSessionCreated self h)
  | sessionTimeout self sessionId userAId userBId =>
      exact learns_reports (reports_sessionTimeout self sessionId userAId userBId)
  | onModuleInit self => exact learns_reports (reports_onModuleInit self)
  | handleWebhook self sched payload delivery => exact learns_handleWebhook self sched payload delivery
  | cleanupExpiredSessions =>
      refine learns_reports (Sessions.cleanupExpiredSessions_issues.mono fun c hc => ?_)
      cases hc <;> exact Unending.reporting trivial

end Ends

/-! ## Runs -/

/-- Whatever ends the session, its events carry the real duration exactly if
it is not a timeout. -/
theorem duration_real_iff (row : Session) (w : World) (hrow : IsRow row w)
    (es : List (Event endingService.system))
    (hes : (Config.initial w : Config endingService.system).Obeys (HandlesRow row) es) :
    ∀ e ∈ ((Config.initial w : Config endingService.system).run es).trace,
      ∀ user reason now, .sessionEnd user row.id reason now ∈ emitted e.cmd →
        (Truthful row now (emitted e.cmd) ↔
          reason ≠ .timeout ∨ row.createdAt ≤ (now + 500) % 1000 ∨ now < 500) := by
  intro e he user reason now hmem
  obtain ⟨-, hpast, -⟩ := (reporting row).run (fun _ _ h => learns_code h)
    (fun _ _ => .const True) hrow hes
  obtain ⟨userAId, userBId, hreport⟩ := (hpast e he).1.report user reason now hmem
  rw [hreport, truthful_endReport_iff, assumedCreation]
  by_cases htimeout : reason = .timeout
  · rw [if_pos htimeout, secondsBetween_zero_iff]
    simp [htimeout]
  · rw [if_neg htimeout]
    simp [htimeout]

instance (row : Session) (c : Config endingService.system) (e : Event endingService.system) :
    Decidable (HandlesRow row c e) :=
  match e with
  | .start (.handleSessionCreated _ session) =>
      inferInstanceAs (Decidable (session.id = row.id → session = row))
  | .start (.sessionTimeout _ _ _ _) | .start (.onModuleInit _) | .start (.handleWebhook _ _ _ _)
  | .start .cleanupExpiredSessions | .step _ | .env _ => .isTrue trivial

instance (row : Session) (w : World) : Decidable (IsRow row w) :=
  inferInstanceAs (Decidable (∀ s ∈ w.db.sessions, s.id = row.id → s = row))

/-- The call of `ann` and `bob`, 1000 s after the epoch. -/
def call : Session := ⟨"s", "ann", "bob", none, none, 1000000⟩

/-- The call has lasted for 45 s. -/
def lasted : World :=
  let w := World.peopled ["ann", "bob"] 1
  { w with clock := 1045000, db := { w.db with sessions := [call] } }

/-- A violation is reported. -/
def violation : List (Event endingService.system) :=
  .start (.handleWebhook 0 ⟨[], []⟩ ⟨some "s", some "bob", some true, none, none, none, none, none⟩
    ⟨none, none⟩) :: List.replicate 16 (.step 0)

theorem duration_real_iff_violation :
    ∃ e ∈ ((Config.initial lasted : Config endingService.system).run violation).trace,
      .sessionEnd "bob" "s" .ended 1045000 ∈ emitted e.cmd ∧ Truthful call 1045000 (emitted e.cmd) := by
  have hreported : ((Config.initial lasted : Config endingService.system).run violation).trace.any
      (fun e => decide (.sessionEnd "bob" "s" .ended 1045000 ∈ emitted e.cmd)) = true := by decide +kernel
  obtain ⟨e, he, hmem⟩ := List.any_eq_true.mp hreported
  have hend := of_decide_eq_true hmem
  exact ⟨e, he, hend, (duration_real_iff call lasted (by decide) violation (by decide +kernel) e he "bob"
    .ended 1045000 hend).mpr (.inl (by decide))⟩

/-- The end timer fires. -/
def timerFires : List (Event endingService.system) :=
  .start (.sessionTimeout 0 "s" "ann" "bob") :: List.replicate 9 (.step 0)

theorem duration_not_real : ¬∀ (row : Session) (w : World), IsRow row w →
    ∀ es : List (Event endingService.system),
      (Config.initial w : Config endingService.system).Obeys (HandlesRow row) es →
      ∀ e ∈ ((Config.initial w : Config endingService.system).run es).trace,
        ∀ user reason now, .sessionEnd user row.id reason now ∈ emitted e.cmd →
          Truthful row now (emitted e.cmd) := by
  intro h
  have hreported : endReport "s" "ann" "bob" 0 .timeout 1045000 ∈
      ((Config.initial lasted : Config endingService.system).run timerFires).trace.map
        fun e => emitted e.cmd := by
    decide +kernel
  obtain ⟨e, he, hcmd⟩ := List.mem_map.mp hreported
  have htruthful := h call lasted (by decide) timerFires (by decide +kernel) e he "ann" .timeout
    1045000 (by rw [hcmd]; exact List.mem_cons_self)
  rw [hcmd] at htruthful
  have hseconds := (truthful_endReport_iff call "ann" "bob" 0 .timeout 1045000).mp htruthful
  revert hseconds
  decide

end VerityBackend.Telemetry
