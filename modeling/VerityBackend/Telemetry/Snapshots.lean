/-
VerityBackend.Telemetry.Snapshots — the stage gates
(`computeAndPersistSnapshot` of `telemetry/telemetry-metrics.service.ts`).

A snapshot counts the events of the last 24 hours that have one of nine
names. It does not look at who has sent them, and the order in which the
database returns them does not matter (`snapshotOf_perm`). Rates are exact
here, and doubles in the source.
-/
import Mathlib.Data.List.Sort
import Mathlib.Data.Rat.Defs
import VerityBackend.Analytics.Service

namespace VerityBackend.Telemetry

open Analytics

def SNAPSHOT_WINDOW_HOURS : Nat := 24

inductive StageStatus where
  | GREEN
  | AMBER
  | RED
  deriving DecidableEq, Repr

structure StageGateSnapshot where
  windowStart : Int
  windowEnd : Int
  waitP50Seconds : Option Rat
  waitP90Seconds : Option Rat
  abandonmentRate : Option Rat
  completionRate : Option Rat
  mutualMatchRate : Option Rat
  chatActivationRate : Option Rat
  severeIncidentPer10k : Option Rat
  appealOverturnRate : Option Rat
  severeActionLatencyP95 : Option Rat
  stage0Status : StageStatus
  stage1Status : StageStatus
  stage2Status : StageStatus
  autoPauseTriggered : Bool
  autoPauseReasons : List String
  deriving DecidableEq, Repr

/-- The names `findMany` selects. -/
def GATE_EVENTS : List AnalyticsEventName :=
  [.queue_match_found, .queue_left, .queue_joined, .session_ended, .session_started,
    .session_result, .match_chat_opened, .safety_action_taken, .safety_appeal_resolved]

/-- What `findMany` selects of a row. -/
structure GateEvent where
  eventName : AnalyticsEventName
  properties : AnalyticsProperties
  deriving DecidableEq, Repr

/-! ## Counting -/

def numberProperty (value : Option AnalyticsPrimitive) : Option Rat :=
  match value with
  | some (.num x) => some x
  | _ => none

def stringProperty (value : Option AnalyticsPrimitive) : Option String :=
  match value with
  | some (.str s) =>
      let trimmed := jsTrim s
      if trimmed = "" then none else some trimmed
  | _ => none

/-- The variables of the loop. -/
structure Tally where
  waits : List Rat
  actionLatencies : List Rat
  queueJoined : Nat
  queueAbandoned : Nat
  sessionStarted : Nat
  sessionCompleted : Nat
  sessionResults : Nat
  mutualResults : Nat
  chatOpened : Nat
  severeActions : Nat
  appealResolved : Nat
  appealOverturned : Nat

def Tally.zero : Tally := ⟨[], [], 0, 0, 0, 0, 0, 0, 0, 0, 0, 0⟩

/-- One turn of the loop. -/
def Tally.count (t : Tally) (event : GateEvent) : Tally :=
  let property (key : String) := event.properties.lookup key
  match event.eventName with
  | .queue_match_found =>
      { t with waits := t.waits ++ (numberProperty (property "waitSeconds")).toList }
  | .queue_joined => { t with queueJoined := t.queueJoined + 1 }
  | .queue_left =>
      if stringProperty (property "reason") = some "matched" then t
      else { t with queueAbandoned := t.queueAbandoned + 1 }
  | .session_started => { t with sessionStarted := t.sessionStarted + 1 }
  | .session_ended =>
      if (numberProperty (property "durationSeconds")).any (40 ≤ ·) then
        { t with sessionCompleted := t.sessionCompleted + 1 }
      else t
  | .session_result =>
      { t with
        sessionResults := t.sessionResults + 1
        mutualResults :=
          if stringProperty (property "result") = some "mutual_match" then t.mutualResults + 1
          else t.mutualResults }
  | .match_chat_opened => { t with chatOpened := t.chatOpened + 1 }
  | .safety_action_taken =>
      let action := stringProperty (property "action")
      { t with
        actionLatencies := t.actionLatencies ++ (numberProperty (property "actionLatencyMs")).toList
        severeActions :=
          if action = some "ban" ∨ action = some "terminate_session" then t.severeActions + 1
          else t.severeActions }
  | .safety_appeal_resolved =>
      { t with
        appealResolved := t.appealResolved + 1
        appealOverturned :=
          if stringProperty (property "resolution") = some "overturned" then t.appealOverturned + 1
          else t.appealOverturned }
  | _ => t

def tally (events : List GateEvent) : Tally := events.foldl Tally.count .zero

/-! ## Metrics -/

def percentile (values : List Rat) (rank : Rat) : Option Rat :=
  if values = [] then none
  else
    let sorted := values.insertionSort (· ≤ ·)
    let index := max 0 (min ((sorted.length : Int) - 1) ((rank * sorted.length).ceil - 1))
    sorted[index.toNat]?

/-- `total > 0 ? part / total : null`. -/
def rate (part total : Nat) : Option Rat :=
  if 0 < total then some ((part : Rat) / total) else none

def stage0Status (severeActionLatencyP95 : Option Rat) : StageStatus :=
  match severeActionLatencyP95 with
  | none => .AMBER
  | some latency => if latency ≤ 2000 then .GREEN else .RED

def stage1Status (waitP50Seconds waitP90Seconds abandonmentRate severeIncidentPer10k : Option Rat) :
    StageStatus :=
  match waitP50Seconds, waitP90Seconds, abandonmentRate, severeIncidentPer10k with
  | some waitP50, some waitP90, some abandonment, some severe =>
      if waitP50 ≤ 30 ∧ waitP90 ≤ 90 ∧ abandonment ≤ 15 / 100 ∧ severe ≤ 3 then .GREEN else .RED
  | _, _, _, _ => .AMBER

/-- No values are green. -/
def stage2Status (completionRate mutualMatchRate chatActivationRate : Option Rat) : StageStatus :=
  match completionRate, mutualMatchRate, chatActivationRate with
  | some completion, some mutualMatch, some chatActivation =>
      if 85 / 100 ≤ completion ∧ 12 / 100 ≤ mutualMatch ∧ mutualMatch ≤ 35 / 100 ∧
          60 / 100 ≤ chatActivation then .AMBER
      else .RED
  | _, _, _ => .AMBER

def autoPauseReasons (severeIncidentPer10k waitP90Seconds : Option Rat) : List String :=
  (if severeIncidentPer10k.any (5 < ·) then ["severe_incidents_over_5_per_10k"] else []) ++
    if waitP90Seconds.any (150 < ·) then ["wait_p90_over_150s"] else []

/-- The snapshot of a tally, with this way to compute a percentile. -/
def snapshotWith (percentile : List Rat → Rat → Option Rat) (windowStart windowEnd : Int) (t : Tally) :
    StageGateSnapshot :=
  let waitP50Seconds := percentile t.waits (1 / 2)
  let waitP90Seconds := percentile t.waits (9 / 10)
  let abandonmentRate := rate t.queueAbandoned t.queueJoined
  let completionRate := rate t.sessionCompleted t.sessionStarted
  let mutualMatchRate := rate t.mutualResults t.sessionResults
  let chatActivationRate := rate t.chatOpened t.mutualResults
  let severeIncidentPer10k := rate (t.severeActions * 10000) t.sessionStarted
  let appealOverturnRate := rate t.appealOverturned t.appealResolved
  let severeActionLatencyP95 := percentile t.actionLatencies (95 / 100)
  let reasons := autoPauseReasons severeIncidentPer10k waitP90Seconds
  { windowStart, windowEnd, waitP50Seconds, waitP90Seconds, abandonmentRate, completionRate,
    mutualMatchRate, chatActivationRate, severeIncidentPer10k, appealOverturnRate,
    severeActionLatencyP95
    stage0Status := stage0Status severeActionLatencyP95
    stage1Status := stage1Status waitP50Seconds waitP90Seconds abandonmentRate severeIncidentPer10k
    stage2Status := stage2Status completionRate mutualMatchRate chatActivationRate
    autoPauseTriggered := 0 < reasons.length
    autoPauseReasons := reasons }

/-- The snapshot of these events. -/
def snapshotOf (windowStart windowEnd : Int) (events : List GateEvent) : StageGateSnapshot :=
  snapshotWith percentile windowStart windowEnd (tally events)

/-! ## The service -/

/-- The tables of analytics, and `TelemetryGateSnapshot` with the newest row
last. -/
structure TelemetryWorld where
  analytics : AnalyticsWorld
  snapshots : List StageGateSnapshot

def InWindow (windowStart windowEnd : Int) (row : AnalyticsEvent) : Prop :=
  windowStart ≤ row.occurredAt ∧ row.occurredAt ≤ windowEnd ∧ row.eventName ∈ GATE_EVENTS

instance (windowStart windowEnd : Int) (row : AnalyticsEvent) :
    Decidable (InWindow windowStart windowEnd row) := by
  unfold InWindow
  infer_instance

def findGateEvents (events : List AnalyticsEvent) (windowStart windowEnd : Int) : List GateEvent :=
  (events.filter fun row => InWindow windowStart windowEnd row).map fun row =>
    ⟨row.eventName, row.properties⟩

def computeAndPersistSnapshot (w : TelemetryWorld) : StageGateSnapshot × TelemetryWorld :=
  let windowEnd : Int := w.analytics.clock
  let windowStart := windowEnd - SNAPSHOT_WINDOW_HOURS * 60 * 60 * 1000
  let snapshot :=
    snapshotOf windowStart windowEnd (findGateEvents w.analytics.events windowStart windowEnd)
  (snapshot, { w with snapshots := w.snapshots ++ [snapshot] })

/-- The view shows the fields of the snapshot. -/
def getStageGateView (w : TelemetryWorld) : StageGateSnapshot × TelemetryWorld :=
  match w.snapshots.getLast? with
  | some latest => (latest, w)
  | none => computeAndPersistSnapshot w

/-- The constant `synthetic`. -/
def syntheticEvents (queueKey sessionId matchId : String) : List GateEvent :=
  [⟨.queue_joined, [("queueKey", .str queueKey), ("usersSearchingSnapshot", .num 3)]⟩,
    ⟨.queue_match_found,
      [("queueKey", .str queueKey), ("sessionId", .str sessionId), ("waitSeconds", .num 24)]⟩,
    ⟨.session_started, [("sessionId", .str sessionId)]⟩,
    ⟨.session_ended,
      [("sessionId", .str sessionId), ("durationSeconds", .num 58), ("endedBy", .str "timer")]⟩,
    ⟨.session_result,
      [("sessionId", .str sessionId), ("matchId", .str matchId), ("result", .str "mutual_match")]⟩,
    ⟨.match_chat_opened, [("matchId", .str matchId), ("timeFromMutualMatchSec", .num 8)]⟩,
    ⟨.safety_action_taken,
      [("action", .str "warn"), ("actionLatencyMs", .num 850), ("automated", .bool true)]⟩,
    ⟨.safety_appeal_resolved,
      [("actionType", .str "warn"), ("resolution", .str "upheld"), ("resolutionLatencySec", .num 45)]⟩]

/-- The row of a synthetic event. -/
def syntheticRow (env : AnalyticsEnv) (userId : UserId) (now : Nat) (event : GateEvent)
    (eventId : String) : AnalyticsEvent where
  eventSchemaVersion := 1
  eventId := eventId
  eventName := event.eventName
  occurredAt := now
  receivedAt := now
  source := .backend
  platform := .backend
  appVersion := none
  buildNumber := none
  region := some (env.APP_REGION.getD "synthetic")
  requestId := none
  userId := some userId
  sessionId := some ("synthetic-session-" ++ toString now)
  matchId := some ("synthetic-match-" ++ toString now)
  queueKey := some "synthetic:default"
  properties := event.properties

/-- The loop of `emitSyntheticBackendEvents`: what cannot be inserted is
skipped. -/
def emitAll (row : GateEvent → String → AnalyticsEvent) : List GateEvent → AnalyticsProg Unit
  | [] => pure ()
  | event :: events => do
      Async.Proc.tryCatch
        (do
          let eventId ← await .randomUUID
          await (.eventCreate (row event eventId)))
        fun _ => pure ()
      emitAll row events

def emitSyntheticBackendEvents (env : AnalyticsEnv) (userId : UserId) : AnalyticsProg Unit := do
  let now ← await .now
  emitAll (syntheticRow env userId now)
    (syntheticEvents "synthetic:default" ("synthetic-session-" ++ toString now)
      ("synthetic-match-" ++ toString now))

/-! ## Order does not matter -/

/-- What is counted, without the values that are collected. -/
def Tally.counters (t : Tally) : Tally := { t with waits := [], actionLatencies := [] }

/-- The same values, the collected ones in any order. -/
structure Tally.Same (t t' : Tally) : Prop where
  waits : t.waits.Perm t'.waits
  actionLatencies : t.actionLatencies.Perm t'.actionLatencies
  counters : t.counters = t'.counters

/-- Tallies are added up. -/
def Tally.add (t t' : Tally) : Tally where
  waits := t.waits ++ t'.waits
  actionLatencies := t.actionLatencies ++ t'.actionLatencies
  queueJoined := t.queueJoined + t'.queueJoined
  queueAbandoned := t.queueAbandoned + t'.queueAbandoned
  sessionStarted := t.sessionStarted + t'.sessionStarted
  sessionCompleted := t.sessionCompleted + t'.sessionCompleted
  sessionResults := t.sessionResults + t'.sessionResults
  mutualResults := t.mutualResults + t'.mutualResults
  chatOpened := t.chatOpened + t'.chatOpened
  severeActions := t.severeActions + t'.severeActions
  appealResolved := t.appealResolved + t'.appealResolved
  appealOverturned := t.appealOverturned + t'.appealOverturned

namespace Tally

theorem Same.trans {t₁ t₂ t₃ : Tally} (h : t₁.Same t₂) (h' : t₂.Same t₃) : t₁.Same t₃ :=
  ⟨h.waits.trans h'.waits, h.actionLatencies.trans h'.actionLatencies, h.counters.trans h'.counters⟩

theorem add_assoc (t₁ t₂ t₃ : Tally) : (t₁.add t₂).add t₃ = t₁.add (t₂.add t₃) := by
  simp only [add, List.append_assoc, Nat.add_assoc]

/-- An event adds what it adds to nothing. -/
theorem count_eq_add (t : Tally) (event : GateEvent) : t.count event = t.add (zero.count event) := by
  unfold count
  dsimp only
  split
  all_goals repeat' split
  all_goals simp [add, zero]

theorem foldl_count (events : List GateEvent) (t : Tally) :
    events.foldl count t = t.add (tally events) := by
  unfold tally
  induction events generalizing t with
  | nil => simp [add, zero]
  | cons event events ih =>
      rw [List.foldl_cons, List.foldl_cons, ih, ih (zero.count event), count_eq_add, add_assoc]

theorem tally_cons (event : GateEvent) (events : List GateEvent) :
    tally (event :: events) = (zero.count event).add (tally events) := foldl_count events _

theorem counters_add (t t' : Tally) : (t.add t').counters = t.counters.add t'.counters := rfl

theorem Same.add_left {t t' : Tally} (h : t.Same t') (a : Tally) : (a.add t).Same (a.add t') where
  waits := h.waits.append_left _
  actionLatencies := h.actionLatencies.append_left _
  counters := by rw [counters_add, counters_add, h.counters]

theorem add_left_comm (a b t : Tally) : (a.add (b.add t)).Same (b.add (a.add t)) := by
  have hlists : ∀ xs ys zs : List Rat, (xs ++ (ys ++ zs)).Perm (ys ++ (xs ++ zs)) := fun xs ys zs => by
    rw [← List.append_assoc, ← List.append_assoc]
    exact List.perm_append_comm.append_right zs
  refine ⟨hlists _ _ _, hlists _ _ _, ?_⟩
  simp only [counters, add, Nat.add_left_comm]

end Tally

theorem tally_perm {events events' : List GateEvent} (h : events.Perm events') :
    (tally events).Same (tally events') := by
  induction h with
  | nil => exact ⟨.refl _, .refl _, rfl⟩
  | cons event _ ih =>
      rw [Tally.tally_cons, Tally.tally_cons]
      exact ih.add_left _
  | swap a b events =>
      simp only [Tally.tally_cons]
      exact Tally.add_left_comm _ _ _
  | trans _ _ ih ih' => exact ih.trans ih'

theorem percentile_perm {values values' : List Rat} (h : values.Perm values') (rank : Rat) :
    percentile values rank = percentile values' rank := by
  have hsorted : values.insertionSort (· ≤ ·) = values'.insertionSort (· ≤ ·) :=
    List.Perm.eq_of_pairwise' (List.pairwise_insertionSort _ _) (List.pairwise_insertionSort _ _)
      (((List.perm_insertionSort _ _).trans h).trans (List.perm_insertionSort _ _).symm)
  have hnil : values = [] ↔ values' = [] := by
    constructor
    · rintro rfl
      exact h.nil_eq.symm
    · rintro rfl
      exact h.eq_nil
  unfold percentile
  rw [hsorted]
  simp only [hnil]

theorem snapshotWith_same {t t' : Tally} (h : t.Same t') (windowStart windowEnd : Int) :
    snapshotWith percentile windowStart windowEnd t = snapshotWith percentile windowStart windowEnd t' := by
  obtain ⟨hwaits, hlatencies, hcounters⟩ := h
  simp only [Tally.counters, Tally.mk.injEq, true_and] at hcounters
  unfold snapshotWith
  simp only [percentile_perm hwaits, percentile_perm hlatencies, hcounters]

/-- **The order of the rows does not matter.** -/
theorem snapshotOf_perm {events events' : List GateEvent} (h : events.Perm events')
    (windowStart windowEnd : Int) :
    snapshotOf windowStart windowEnd events = snapshotOf windowStart windowEnd events' :=
  snapshotWith_same (tally_perm h) windowStart windowEnd

end VerityBackend.Telemetry
