/-
VerityBackend.Telemetry.Fitting — which events of the backend pass its own
validator.

`trackServerEvent` drops what `normalizeEvent` refuses, with a line in the
log. The backend gives no id, no time and no version, so its name and its
properties decide (`reachesPersist_iff`). The names and the keys are written
in the source, and so are most values; the other ones are brought in
(`broughtIn`). Of every place that tracks an event, a lemma says that nothing
but what it brings in can be refused (`Sourced`).
-/
import VerityBackend.Chat.Service
import VerityBackend.Moderation.Appeals
import VerityBackend.Payments.Service
import VerityBackend.Queue.Service
import VerityBackend.Telemetry.Durations

namespace VerityBackend.Telemetry

open Async Analytics

/-! ## What reaches `persistEvent` -/

/-- The event passes `normalizeEvent`, whatever the time and the id are, and
goes on to `persistEvent`. -/
def ReachesPersist (env : AnalyticsEnv) (event : ServerEvent) : Prop :=
  ∃ normalized : Nat → String → EmitInput,
    (∀ nowMs uuid,
      normalizeEvent env nowMs uuid (event.raw env) false = .ok (normalized nowMs uuid)) ∧
    trackServerEvent env event = (do
      let nowMs ← Analytics.await .now
      let uuid ← Analytics.await .randomUUID
      Proc.tryCatch (do let _ ← persistEvent (normalized nowMs uuid) false; return ())
        fun _ => pure ())

/-- A string that is not too long for a property. -/
def Fits (s : String) : Prop := jsLength s ≤ MAX_STRING_LENGTH

instance (s : String) : Decidable (Fits s) := inferInstanceAs (Decidable (_ ≤ _))

/-- A value that `parseProperties` accepts. -/
def FittingField : JsonField → Prop
  | .str s | .given (.str s) => Fits s
  | .num _ | .bool _ | .null | .given (.num _) | .given (.bool _) | .given .null => True
  | .date _ | .given .infinity | .given .composite => False

instance (v : JsonField) : Decidable (FittingField v) := by
  unfold FittingField
  split <;> infer_instance

instance (key : String) : Decidable (AllowedKey key) := decidable_of_iff _ allowedKey_iff.symm

/-- A name and keys that are accepted. -/
structure WellKeyed (name : String) (keys : List String) : Prop where
  known : (ANALYTICS_EVENT_NAMES.lookup name).isSome = true
  count : keys.length ≤ MAX_PROPERTY_COUNT
  allowed : ∀ key ∈ keys, AllowedKey (jsTrim key)

instance (name : String) (keys : List String) : Decidable (WellKeyed name keys) :=
  decidable_of_iff ((ANALYTICS_EVENT_NAMES.lookup name).isSome = true ∧
    keys.length ≤ MAX_PROPERTY_COUNT ∧ ∀ key ∈ keys, AllowedKey (jsTrim key))
    ⟨fun ⟨h, h', h''⟩ => ⟨h, h', h''⟩, fun ⟨h, h', h''⟩ => ⟨h, h', h''⟩⟩

/-- What is tracked is accepted; the rest is not for analytics. -/
def Passes : Output → Prop
  | .track _ name properties =>
      WellKeyed name (properties.map (·.1)) ∧ ∀ p ∈ properties, FittingField p.2
  | _ => True

theorem exists_json_iff (v : JsonField) :
    ((∃ a : AnalyticsPrimitive, a.json = jsonValue v) ∧ FittingString (jsonValue v)) ↔
      FittingField v := by
  cases v with
  | str s => exact ⟨fun h => h.2, fun h => ⟨⟨.str s, rfl⟩, h⟩⟩
  | num n => exact ⟨fun _ => trivial, fun _ => ⟨⟨.num n, rfl⟩, trivial⟩⟩
  | bool b => exact ⟨fun _ => trivial, fun _ => ⟨⟨.bool b, rfl⟩, trivial⟩⟩
  | null => exact ⟨fun _ => trivial, fun _ => ⟨⟨.null, rfl⟩, trivial⟩⟩
  | date ms =>
      refine ⟨fun h => ?_, False.elim⟩
      obtain ⟨a, ha⟩ := h.1
      exact a.json_finite.2 ha
  | given v =>
      cases v with
      | str s => exact ⟨fun h => h.2, fun h => ⟨⟨.str s, rfl⟩, h⟩⟩
      | num x => exact ⟨fun _ => trivial, fun _ => ⟨⟨.num x, rfl⟩, trivial⟩⟩
      | bool b => exact ⟨fun _ => trivial, fun _ => ⟨⟨.bool b, rfl⟩, trivial⟩⟩
      | null => exact ⟨fun _ => trivial, fun _ => ⟨⟨.null, rfl⟩, trivial⟩⟩
      | infinity =>
          refine ⟨fun h => ?_, False.elim⟩
          obtain ⟨a, ha⟩ := h.1
          exact a.json_finite.1 ha
      | composite =>
          refine ⟨fun h => ?_, False.elim⟩
          obtain ⟨a, ha⟩ := h.1
          exact a.json_finite.2 ha

theorem exists_accepts_iff (key : String) (v : JsonField) :
    (∃ p, Accepts (key, jsonValue v) p) ↔ AllowedKey (jsTrim key) ∧ FittingField v := by
  rw [← exists_json_iff]
  constructor
  · rintro ⟨p, hp⟩
    exact ⟨hp.key ▸ hp.allowed, ⟨p.2, hp.value⟩, hp.fits⟩
  · rintro ⟨hkey, ⟨a, ha⟩, hfits⟩
    exact ⟨(jsTrim key, a), rfl, ha, hkey, hfits⟩

theorem acceptable_iff (properties : List (String × JsonField)) :
    Acceptable (properties.map fun p => (p.1, jsonValue p.2)) ↔
      (properties.map (·.1)).length ≤ MAX_PROPERTY_COUNT ∧
        (∀ key ∈ properties.map (·.1), AllowedKey (jsTrim key)) ∧
        ∀ p ∈ properties, FittingField p.2 := by
  simp only [List.length_map, List.forall_mem_map]
  constructor
  · rintro ⟨hcount, hentry⟩
    rw [List.length_map] at hcount
    have hall : ∀ p ∈ properties, AllowedKey (jsTrim p.1) ∧ FittingField p.2 := fun p hp =>
      (exists_accepts_iff p.1 p.2).mp (hentry _ (List.mem_map_of_mem hp))
    exact ⟨hcount, fun p hp => (hall p hp).1, fun p hp => (hall p hp).2⟩
  · rintro ⟨hcount, hkeys, hfields⟩
    refine ⟨by rwa [List.length_map], fun e he => ?_⟩
    obtain ⟨p, hp, rfl⟩ := List.mem_map.mp he
    exact (exists_accepts_iff p.1 p.2).mpr ⟨hkeys p hp, hfields p hp⟩

/-- What `normalizeEvent` makes of an event of the backend is decided by its
name and its properties. -/
theorem normalizeEvent_track_iff (env : AnalyticsEnv) {userId : Option UserId} {name : String}
    {properties : Option PropertiesValue} (nowMs : Nat) (uuid : String) :
    (∃ normalized, normalizeEvent env nowMs uuid
      (ServerEvent.raw env ⟨userId, name, properties, none, none, none⟩) false = .ok normalized) ↔
      ∃ known, ANALYTICS_EVENT_NAMES.lookup name = some known ∧
        ∃ parsed, parseProperties properties known.text = .ok parsed := by
  cases hname : ANALYTICS_EVENT_NAMES.lookup name with
  | none =>
      refine ⟨fun ⟨n, h⟩ => ?_, fun ⟨_, h, _⟩ => by cases h⟩
      have hparse := (normalizeEvent_ok h).1
      simp only [ServerEvent.raw, parseEventName, hname] at hparse
      cases hparse
  | some known =>
      cases hproperties : parseProperties properties known.text with
      | error refusal =>
          refine ⟨fun ⟨n, h⟩ => ?_, fun ⟨k, hk, parsed, h⟩ => ?_⟩
          · obtain ⟨hparse, hprops, -⟩ := normalizeEvent_ok h
            simp only [ServerEvent.raw, parseEventName, hname] at hparse
            obtain rfl := Except.ok.inj hparse
            simp only [ServerEvent.raw] at hprops
            rw [hproperties] at hprops
            cases hprops
          · obtain rfl := Option.some.inj hk
            rw [hproperties] at h
            cases h
      | ok parsed =>
          refine ⟨fun _ => ⟨known, rfl, parsed, hproperties⟩, fun _ => ?_⟩
          simp only [normalizeEvent, ServerEvent.raw, parseEventName, hname, hproperties,
            parseEventSchemaVersion, parseEventId, parseOccurredAt, bind, Except.bind, pure,
            Except.pure]
          exact ⟨_, rfl⟩

/-- **What passes the validator.** -/
theorem reachesPersist_iff (env : AnalyticsEnv) {o : Output} {event : ServerEvent}
    (h : serverEvent o = some event) : ReachesPersist env event ↔ Passes o := by
  cases o with
  | track userId name properties =>
      obtain rfl := Option.some.inj h
      have hnormal (nowMs : Nat) (uuid : String) := @normalizeEvent_track_iff env (some userId) name
        (some (.object (properties.map fun p => (p.1, jsonValue p.2)))) nowMs uuid
      constructor
      · rintro ⟨normalized, hok, -⟩
        obtain ⟨known, hknown, hparsed⟩ := (hnormal 0 "").mp ⟨_, hok 0 ""⟩
        obtain ⟨hcount, hkeys, hfields⟩ := (acceptable_iff _).mp (parseProperties_ok_iff.mp hparsed)
        exact ⟨⟨by rw [hknown]; rfl, hcount, hkeys⟩, hfields⟩
      · rintro ⟨⟨hknown, hcount, hkeys⟩, hfields⟩
        obtain ⟨known, hknown⟩ := Option.isSome_iff_exists.mp hknown
        have hparsed := (@parseProperties_ok_iff _ known.text).mpr
          ((acceptable_iff properties).mpr ⟨hcount, hkeys, hfields⟩)
        have hall (nowMs : Nat) (uuid : String) := (hnormal nowMs uuid).mpr ⟨known, hknown, hparsed⟩
        refine ⟨fun nowMs uuid => (hall nowMs uuid).choose, fun nowMs uuid => (hall nowMs uuid).choose_spec, ?_⟩
        unfold trackServerEvent
        refine congrArg _ (funext fun nowMs => congrArg _ (funext fun uuid => ?_))
        rw [(hall nowMs uuid).choose_spec]
  | _ => cases h

/-! ## The events of the backend -/

section Events

/-- The events as they are written in the source, with the keys of their
properties. -/
def SERVER_EVENTS : List (String × List String) :=
  [("queue_joined", ["city", "queueKey", "status", "position"]),
    ("token_spent", ["spendReason", "amount", "queueKey"]),
    ("queue_left", ["queueKey", "reason", "status", "refunded"]),
    ("queue_cancel", ["status"]),
    ("queue_match_found", ["sessionId", "queueKey", "partnerId", "waitSeconds"]),
    ("session_started", ["sessionId", "durationSeconds"]),
    ("session_ended", ["sessionId", "endReason", "endedBy", "durationSeconds"]),
    ("session_choice_submitted", ["sessionId", "choice"]),
    ("session_choice_resolved", ["sessionId", "outcome", "hasMatch"]),
    ("session_result", ["sessionId", "result", "bothPassed", "hasMatch"]),
    ("match_chat_opened", ["matchId", "messageCount", "timeFromMutualMatchSec"]),
    ("first_message_sent", ["matchId", "messageId"]),
    ("message_sent", ["matchId", "messageId"]),
    ("match_message_sent", ["matchId", "messageId", "isFirstMessage", "timeFromMutualMatchSec"]),
    ("safety_report_submitted", ["reportId", "reportedUserId", "category", "hasDetails"]),
    ("safety_action_taken", ["action", "policyReason", "automated", "source", "actionLatencyMs"]),
    ("safety_action_taken",
      ["action", "policyReason", "automated", "violationCount24h", "actionLatencyMs"]),
    ("safety_violation_detected", ["sessionId", "detector", "policyType", "confidenceBand"]),
    ("token_purchase_succeeded", ["pack", "tokenAmount", "stripeSessionId", "currency"]),
    ("token_purchase_completed", ["pack", "tokenAmount", "stripeSessionId", "currency"]),
    ("safety_appeal_opened", ["appealId", "moderationReportId", "actionType", "timeFromActionSec"]),
    ("safety_appeal_resolved", ["appealId", "actionType", "resolution", "resolutionLatencySec"])]

/-- The values that are written there. -/
def SERVER_STRINGS : List String :=
  ["queued", "queue_entry", "refunded", "matched_concurrently", "not_refunded", "matched", "system",
    "manual", "left", "not_queued", "already_matched", "timeout", "ended", "token_error", "timer",
    "moderation", "error", "MATCH", "PASS", "mutual", "non_mutual", "mutual_match", "warn", "ban",
    "terminate_session", "admin_report_resolution", "upheld", "overturned", "global"]

/-- The keys of the values that are brought in: from the input of a call,
from Redis or from the database. -/
def BROUGHT_IN : List String :=
  ["city", "queueKey", "sessionId", "partnerId", "matchId", "messageId", "reportId",
    "reportedUserId", "category", "policyReason", "detector", "policyType", "confidenceBand",
    "pack", "stripeSessionId", "currency", "appealId", "moderationReportId"]

/-- What an event brings in. -/
def broughtIn : Output → List JsonField
  | .track _ _ properties => (properties.filter (·.1 ∈ BROUGHT_IN)).map (·.2)
  | _ => []

theorem fits_serverStrings : ∀ s ∈ SERVER_STRINGS, Fits s := by decide +kernel

theorem wellKeyed_serverEvents : ∀ e ∈ SERVER_EVENTS, WellKeyed e.1 e.2 := by decide +kernel

/-- The event is one of the source, whose own values are accepted. -/
def Sourced : Output → Prop
  | .track _ name properties =>
      (name, properties.map (·.1)) ∈ SERVER_EVENTS ∧
        ∀ p ∈ properties, p.1 ∉ BROUGHT_IN → FittingField p.2
  | _ => True

/-- **What it brings in decides.** -/
theorem Sourced.passes_iff {o : Output} (h : Sourced o) :
    Passes o ↔ ∀ v ∈ broughtIn o, FittingField v := by
  cases o with
  | track userId name properties =>
      unfold broughtIn
      rw [List.forall_mem_map]
      refine ⟨fun hpasses p hp => hpasses.2 p (List.mem_of_mem_filter hp), fun hbrought =>
        ⟨wellKeyed_serverEvents _ h.1, fun p hp => ?_⟩⟩
      by_cases hkey : p.1 ∈ BROUGHT_IN
      · exact hbrought p (List.mem_filter.mpr ⟨hp, decide_eq_true hkey⟩)
      · exact h.2 p hp hkey
  | _ => exact ⟨fun _ v hv => (by cases hv), fun _ => trivial⟩

/-- A value that is brought in is none of the source. -/
theorem brought {key : String} {v : JsonField} (h : key ∈ BROUGHT_IN) :
    key ∉ BROUGHT_IN → FittingField v := fun hnot => absurd h hnot

/-- A value the source writes. -/
theorem written {key s : String} (h : s ∈ SERVER_STRINGS) :
    key ∉ BROUGHT_IN → FittingField (.str s) := fun _ => fits_serverStrings s h

variable {userId : UserId} {sessionId : SessionId}

theorem sourced_joinedEvents (queueCity : String) (queueKey : QueueKey) (position : Option Nat) :
    ∀ o ∈ Queue.joinedEvents userId queueCity queueKey position, Sourced o := by
  have hjoined (n : Int) : Sourced (.track userId "queue_joined" [("city", .str queueCity),
      ("queueKey", .str queueKey), ("status", .str "queued"), ("position", .num n)]) := by
    refine ⟨by simp [SERVER_EVENTS], ?_⟩
    simp only [List.forall_mem_cons]
    exact ⟨brought (by decide), brought (by decide), written (by decide), fun _ => trivial,
      List.forall_mem_nil _⟩
  have hspent : Sourced (.track userId "token_spent" [("spendReason", .str "queue_entry"),
      ("amount", .num 1), ("queueKey", .str queueKey)]) := by
    refine ⟨by simp [SERVER_EVENTS], ?_⟩
    simp only [List.forall_mem_cons]
    exact ⟨written (by decide), fun _ => trivial, brought (by decide), List.forall_mem_nil _⟩
  exact List.forall_mem_cons.mpr ⟨hjoined _, List.forall_mem_singleton.mpr hspent⟩

theorem sourced_queueLeftEvent (result : Queue.QueueLeaveResult) :
    Sourced (Queue.queueLeftEvent userId result) := by
  have hreason : Queue.mapQueueLeftReason result ∈ SERVER_STRINGS := by
    unfold Queue.mapQueueLeftReason
    split_ifs <;> decide
  have hstatus : Queue.leaveStatusName result.status ∈ SERVER_STRINGS := by
    cases result.status <;> decide
  refine ⟨by simp [SERVER_EVENTS], ?_⟩
  simp only [List.forall_mem_cons]
  exact ⟨brought (by decide), written hreason, written hstatus, fun _ => trivial,
    List.forall_mem_nil _⟩

theorem sourced_queueCancelEvent {status : String} (h : status ∈ SERVER_STRINGS) :
    Sourced (Queue.queueCancelEvent userId status) :=
  ⟨by simp [SERVER_EVENTS], List.forall_mem_singleton.mpr (written h)⟩

theorem sourced_matchFoundEvent (partnerId : UserId) (session : Session) (wait : Nat) :
    Sourced (Queue.matchFoundEvent userId partnerId session wait) := by
  refine ⟨by simp [SERVER_EVENTS], ?_⟩
  simp only [List.forall_mem_cons]
  exact ⟨brought (by decide), brought (by decide), brought (by decide), fun _ => trivial,
    List.forall_mem_nil _⟩

theorem sourced_sessionStarted : Sourced (.track userId "session_started"
    [("sessionId", .str sessionId),
      ("durationSeconds", .num (Sessions.SESSION_DURATION_MS / 1000))]) := by
  refine ⟨by simp [SERVER_EVENTS], ?_⟩
  simp only [List.forall_mem_cons]
  exact ⟨brought (by decide), fun _ => trivial, List.forall_mem_nil _⟩

theorem sourced_endedEvent (reason : EndReason) (durationSeconds : Nat) :
    Sourced (Sessions.endedEvent sessionId userId reason durationSeconds) := by
  have hreason : Sessions.reasonName reason ∈ SERVER_STRINGS := by cases reason <;> decide
  have hendedBy : Sessions.mapEndedBy reason ∈ SERVER_STRINGS := by cases reason <;> decide
  refine ⟨by simp [SERVER_EVENTS], ?_⟩
  simp only [List.forall_mem_cons]
  exact ⟨brought (by decide), written hreason, written hendedBy, fun _ => trivial,
    List.forall_mem_nil _⟩

theorem sourced_choiceSubmitted (choice : SessionChoice) :
    Sourced (.track userId "session_choice_submitted"
      [("sessionId", .str sessionId), ("choice", .str (Sessions.choiceName choice))]) := by
  have hchoice : Sessions.choiceName choice ∈ SERVER_STRINGS := by cases choice <;> decide
  refine ⟨by simp [SERVER_EVENTS], ?_⟩
  simp only [List.forall_mem_cons]
  exact ⟨brought (by decide), written hchoice, List.forall_mem_nil _⟩

theorem sourced_resolvedEvents (payload : Sessions.ResolvedChoiceResult) (bothPassed : Bool) :
    ∀ o ∈ Sessions.resolvedEvents sessionId userId payload bothPassed, Sourced o := by
  have hresolved {outcome : String} (hasMatch : Bool) (houtcome : outcome ∈ SERVER_STRINGS) :
      Sourced (.track userId "session_choice_resolved" [("sessionId", .str sessionId),
        ("outcome", .str outcome), ("hasMatch", .bool hasMatch)]) := by
    refine ⟨by simp [SERVER_EVENTS], ?_⟩
    simp only [List.forall_mem_cons]
    exact ⟨brought (by decide), written houtcome, fun _ => trivial, List.forall_mem_nil _⟩
  have hresult {result : String} (hasMatch : Bool) (hwritten : result ∈ SERVER_STRINGS) :
      Sourced (.track userId "session_result" [("sessionId", .str sessionId),
        ("result", .str result), ("bothPassed", .bool bothPassed), ("hasMatch", .bool hasMatch)]) := by
    refine ⟨by simp [SERVER_EVENTS], ?_⟩
    simp only [List.forall_mem_cons]
    exact ⟨brought (by decide), written hwritten, fun _ => trivial, fun _ => trivial,
      List.forall_mem_nil _⟩
  cases payload with
  | «mutual» matchId =>
      exact List.forall_mem_cons.mpr ⟨hresolved true (by decide),
        List.forall_mem_singleton.mpr (hresult true (by decide))⟩
  | nonMutual =>
      exact List.forall_mem_cons.mpr ⟨hresolved false (by decide),
        List.forall_mem_singleton.mpr (hresult false (by decide))⟩

theorem sourced_chatOpened (matchId : MatchId) (messageCount seconds : Nat) :
    Sourced (.track userId "match_chat_opened" [("matchId", .str matchId),
      ("messageCount", .num messageCount), ("timeFromMutualMatchSec", .num seconds)]) := by
  refine ⟨by simp [SERVER_EVENTS], ?_⟩
  simp only [List.forall_mem_cons]
  exact ⟨brought (by decide), fun _ => trivial, fun _ => trivial, List.forall_mem_nil _⟩

theorem sourced_sentEvents (matchId : MatchId) (messageId : String) (existingCount seconds : Nat) :
    ∀ o ∈ Chat.sentEvents matchId userId messageId existingCount seconds, Sourced o := by
  have hsent {name : String} (hname : (name, ["matchId", "messageId"]) ∈ SERVER_EVENTS) :
      Sourced (.track userId name [("matchId", .str matchId), ("messageId", .str messageId)]) := by
    refine ⟨hname, ?_⟩
    simp only [List.forall_mem_cons]
    exact ⟨brought (by decide), brought (by decide), List.forall_mem_nil _⟩
  have hmatched (isFirstMessage : Bool) : Sourced (.track userId "match_message_sent"
      [("matchId", .str matchId), ("messageId", .str messageId),
        ("isFirstMessage", .bool isFirstMessage), ("timeFromMutualMatchSec", .num seconds)]) := by
    refine ⟨by simp [SERVER_EVENTS], ?_⟩
    simp only [List.forall_mem_cons]
    exact ⟨brought (by decide), brought (by decide), fun _ => trivial, fun _ => trivial,
      List.forall_mem_nil _⟩
  refine List.forall_mem_cons.mpr ⟨hsent ?_, List.forall_mem_singleton.mpr (hmatched _)⟩
  split_ifs <;> simp [SERVER_EVENTS]

theorem sourced_reportSubmittedEvent (report : ModerationReport) (hasDetails : Bool) :
    Sourced (Moderation.reportSubmittedEvent userId report hasDetails) := by
  refine ⟨by simp [SERVER_EVENTS], ?_⟩
  simp only [List.forall_mem_cons]
  exact ⟨brought (by decide), brought (by decide), brought (by decide), fun _ => trivial,
    List.forall_mem_nil _⟩

theorem sourced_reportResolved (reason : String) (action : Moderation.ModerationAction)
    (latency : Nat) : Sourced (.track userId "safety_action_taken"
      [("action", .str (Moderation.actionName action)), ("policyReason", .str reason),
        ("automated", .bool false), ("source", .str "admin_report_resolution"),
        ("actionLatencyMs", .num latency)]) := by
  have haction : Moderation.actionName action ∈ SERVER_STRINGS := by cases action <;> decide
  refine ⟨by simp [SERVER_EVENTS], ?_⟩
  simp only [List.forall_mem_cons]
  exact ⟨written haction, brought (by decide), fun _ => trivial, written (by decide),
    fun _ => trivial, List.forall_mem_nil _⟩

theorem sourced_actionTakenEvent {action : String} (h : action ∈ SERVER_STRINGS)
    (policyReason : JsonValue) (count latency : Nat) :
    Sourced (Moderation.actionTakenEvent userId action policyReason count latency) := by
  refine ⟨by simp [SERVER_EVENTS], ?_⟩
  simp only [List.forall_mem_cons]
  exact ⟨written h, brought (by decide), fun _ => trivial, fun _ => trivial, fun _ => trivial,
    List.forall_mem_nil _⟩

theorem sourced_detectedEvent (payload : Moderation.HiveViolationPayload) :
    Sourced (Moderation.detectedEvent payload sessionId userId) := by
  refine ⟨by simp [SERVER_EVENTS], ?_⟩
  simp only [List.forall_mem_cons]
  exact ⟨brought (by decide), brought (by decide), brought (by decide), brought (by decide),
    List.forall_mem_nil _⟩

theorem sourced_purchaseEvent {name : String} (event : Payments.StripeEvent)
    (purchase : Payments.Purchase)
    (hname : (name, ["pack", "tokenAmount", "stripeSessionId", "currency"]) ∈ SERVER_EVENTS) :
    Sourced (Payments.purchaseEvent name event purchase) := by
  refine ⟨hname, ?_⟩
  simp only [List.forall_mem_cons]
  exact ⟨brought (by decide), fun _ => trivial, brought (by decide), brought (by decide),
    List.forall_mem_nil _⟩

theorem appealActionName_mem (action : Moderation.AppealAction) :
    Moderation.appealActionName action ∈ SERVER_STRINGS := by cases action <;> decide

theorem sourced_appealOpenedEvent (appeal : Moderation.ModerationAppeal) (seconds : Option Nat) :
    Sourced (Moderation.appealOpenedEvent appeal seconds) := by
  have hseconds : FittingField ((seconds.map fun n => JsonField.num n).getD .null) := by
    cases seconds <;> trivial
  refine ⟨by simp [SERVER_EVENTS], ?_⟩
  simp only [List.forall_mem_cons]
  exact ⟨brought (by decide), brought (by decide), written (appealActionName_mem _),
    fun _ => hseconds, List.forall_mem_nil _⟩

theorem sourced_appealResolvedEvent (existing : Moderation.ModerationAppeal)
    (resolution : Moderation.Resolution) (resolvedAt : Nat) :
    Sourced (Moderation.appealResolvedEvent existing resolution resolvedAt) := by
  have hresolution : Moderation.resolutionName resolution ∈ SERVER_STRINGS := by
    cases resolution <;> decide
  refine ⟨by simp [SERVER_EVENTS], ?_⟩
  simp only [List.forall_mem_cons]
  exact ⟨brought (by decide), written (appealActionName_mem _), written hresolution,
    fun _ => trivial, List.forall_mem_nil _⟩

end Events

end VerityBackend.Telemetry
