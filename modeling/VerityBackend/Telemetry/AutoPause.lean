/-
VerityBackend.Telemetry.AutoPause — two answers to one question
(`computePersistAndAlert` of `telemetry/telemetry-metrics.service.ts` and
`evaluateAndAlert` of `telemetry/telemetry-alerts.service.ts`).

A snapshot is stored with the flag `autoPauseTriggered`, and is then judged
again by the service of alerts. The flag knows the snapshot alone; the alerts
wait until a wait has been too long for two hours, and look at the appeals.
`agree_iff` says when the two come to the same answer. The values an alert
shows stand for its texts.
-/
import VerityBackend.Moderation.Appeals
import VerityBackend.Telemetry.Alerts
import VerityBackend.Telemetry.Snapshots

namespace VerityBackend.Telemetry

open Analytics Moderation Store

/-! ## `evaluateAndAlert` -/

def AUTO_PAUSE_COOLDOWN_MS : Nat := 15 * 60 * 1000
def SEVERE_INCIDENT_THRESHOLD_PER_10K : Rat := 5

/-- `AUTO_PAUSE_COOLDOWN_KEY`, `telemetry:alerts:auto_pause:cooldown`. -/
inductive CooldownKey where
  | autoPauseCooldown
  deriving DecidableEq, Repr

/-- `TELEMETRY_ALERT_WEBHOOK_URL` is given trimmed. -/
structure AlertEnv where
  TELEMETRY_APPEAL_BACKLOG_SLA_HOURS : Option String
  TELEMETRY_ALERT_WEBHOOK_URL : Option String

inductive AlertReason where
  | severeIncidents (severeIncidentPer10k : Rat)
  | waitP90 (waitP90Seconds : Option Rat)
  | appealBacklog (count slaHours : Nat)
  deriving DecidableEq, Repr

structure AlertResult where
  triggered : Bool
  reasons : List AlertReason
  sent : Bool
  deriving DecidableEq, Repr

/-- One tick of the timer: what the database holds, the times at which the
clock is read, and the answer of the webhook. -/
structure Tick where
  analytics : AnalyticsWorld
  appeals : List ModerationAppeal
  evaluatedAt : Nat
  countedAt : Nat
  sentAt : Nat
  responseOk : Bool

structure AlertState where
  snapshots : List StageGateSnapshot
  alerts : AlertStore
  cooldown : Keyspace CooldownKey String

def appealBacklogSlaHours (env : AlertEnv) : Nat :=
  readPositiveIntEnv env.TELEMETRY_APPEAL_BACKLOG_SLA_HOURS 24

def getAppealBacklogBreachCount (env : AlertEnv) (nowMs : Nat) (appeals : List ModerationAppeal) : Nat :=
  let cutoff : Int := nowMs - appealBacklogSlaHours env * 60 * 60 * 1000
  appeals.countP fun appeal => appeal.status = "OPEN" ∧ (appeal.createdAt : Int) ≤ cutoff

/-- At most one alert is sent in fifteen minutes. -/
def sendAutoPauseAlert (env : AlertEnv) (t : Tick) (cooldown : Keyspace CooldownKey String) :
    Bool × Keyspace CooldownKey String :=
  match cooldown.get t.sentAt .autoPauseCooldown with
  | some _ => (false, cooldown)
  | none =>
      (env.TELEMETRY_ALERT_WEBHOOK_URL.any (· ≠ "") && t.responseOk,
        cooldown.set t.sentAt .autoPauseCooldown "1" (some AUTO_PAUSE_COOLDOWN_MS))

/-- The reasons, in the order in which they are found. -/
def alertReasons (env : AlertEnv) (snapshot : StageGateSnapshot) (sustainedWaitBreach : Bool)
    (appealBacklog : Nat) : List AlertReason :=
  (snapshot.severeIncidentPer10k.filter (SEVERE_INCIDENT_THRESHOLD_PER_10K < ·)).toList.map
      .severeIncidents ++
    (if sustainedWaitBreach then [.waitP90 snapshot.waitP90Seconds] else []) ++
    if 0 < appealBacklog then [.appealBacklog appealBacklog (appealBacklogSlaHours env)] else []

def evaluateAndAlert (env : AlertEnv) (s : AlertState) (t : Tick) (snapshot : StageGateSnapshot) :
    AlertResult × AlertState :=
  let (sustainedWaitBreach, alerts) :=
    isSustainedWaitBreach s.alerts t.evaluatedAt snapshot.waitP90Seconds
  let appealBacklog := getAppealBacklogBreachCount env t.countedAt t.appeals
  let reasons := alertReasons env snapshot sustainedWaitBreach appealBacklog
  if reasons = [] then (⟨false, reasons, false⟩, { s with alerts })
  else
    let (sent, cooldown) := sendAutoPauseAlert env t s.cooldown
    (⟨true, reasons, sent⟩, { s with alerts, cooldown })

/-- The snapshot of a tick. -/
def Tick.snapshot (t : Tick) : StageGateSnapshot := (computeAndPersistSnapshot ⟨t.analytics, []⟩).1

def computePersistAndAlert (env : AlertEnv) (s : AlertState) (t : Tick) : AlertResult × AlertState :=
  let computed := computeAndPersistSnapshot ⟨t.analytics, s.snapshots⟩
  evaluateAndAlert env { s with snapshots := computed.2.snapshots } t computed.1

/-! ## Sequences -/

/-- What the service of alerts answers, tick by tick. -/
def answers (env : AlertEnv) (s : AlertState) : List Tick → List (Tick × AlertResult)
  | [] => []
  | t :: ts =>
      let r := computePersistAndAlert env s t
      (t, r.1) :: answers env r.2 ts

/-- Both deciders say the same of every snapshot. -/
def Agree (env : AlertEnv) (s : AlertState) (ts : List Tick) : Prop :=
  ∀ x ∈ answers env s ts, x.1.snapshot.autoPauseTriggered = x.2.triggered

instance (env : AlertEnv) (s : AlertState) (ts : List Tick) : Decidable (Agree env s ts) := by
  unfold Agree
  infer_instance

/-- The clock does not go back. -/
def InOrder (ts : List Tick) : Prop :=
  (ts.flatMap fun t => [t.analytics.clock, t.evaluatedAt, t.countedAt, t.sentAt]).Pairwise (· ≤ ·)

instance (ts : List Tick) : Decidable (InOrder ts) := by
  unfold InOrder
  infer_instance

/-! ## Streaks -/

/-- When the streak of snapshots with too long a wait began. It begins anew
after four hours. -/
def streak (since : Option Nat) (e : Evaluation) : Option Nat :=
  if e.Breaches then
    match since with
    | some t => if e.nowMs < t + WAIT_P90_SUSTAIN_MS * 2 then some t else some e.nowMs
    | none => some e.nowMs
  else none

/-- The streak has lasted for two hours, and for less than four. -/
def Lasting (since : Option Nat) (e : Evaluation) : Prop :=
  e.Breaches ∧ ∃ t ∈ since, t + WAIT_P90_SUSTAIN_MS ≤ e.nowMs ∧ e.nowMs < t + WAIT_P90_SUSTAIN_MS * 2

/-- The key says when the streak began. -/
def Dates (redis : AlertStore) (since : Option Nat) : Prop :=
  redis.lookup .waitP90Breach = since.map fun t => ⟨toString t, some (t + WAIT_P90_SUSTAIN_MS * 2)⟩

section Streak

variable {redis : AlertStore} {since : Option Nat} {e : Evaluation}

theorem Dates.get (h : Dates redis since) (now : Nat) :
    redis.get now .waitP90Breach =
      (since.filter fun t => now < t + WAIT_P90_SUSTAIN_MS * 2).map toString := by
  unfold Dates at h
  cases since with
  | none => simp [Keyspace.get, Keyspace.entry, h]
  | some t =>
      by_cases hlt : now < t + WAIT_P90_SUSTAIN_MS * 2 <;>
        simp [Keyspace.get, Keyspace.entry, h, Option.filter, Stamped.alive, hlt]

/-- A streak begins, and is dated. -/
theorem dates_begins (he : e.Breaches) (hget : redis.get e.nowMs .waitP90Breach = none) :
    (isSustainedWaitBreach redis e.nowMs e.waitP90Seconds).1 = false ∧
      Dates (isSustainedWaitBreach redis e.nowMs e.waitP90Seconds).2 (some e.nowMs) := by
  rw [isSustainedWaitBreach_begins he hget]
  exact ⟨rfl, by simp [Dates, Keyspace.set]⟩

/-- **Step lemma.** -/
theorem Dates.evaluate (h : Dates redis since) :
    ((isSustainedWaitBreach redis e.nowMs e.waitP90Seconds).1 = true ↔ Lasting since e) ∧
      Dates (isSustainedWaitBreach redis e.nowMs e.waitP90Seconds).2 (streak since e) := by
  have hget := h.get e.nowMs
  by_cases he : e.Breaches
  · unfold streak Lasting
    rw [if_pos he]
    cases since with
    | none =>
        obtain ⟨hfalse, hdates⟩ := dates_begins he hget
        rw [hfalse]
        exact ⟨by simp, hdates⟩
    | some t =>
        by_cases hlt : e.nowMs < t + WAIT_P90_SUSTAIN_MS * 2
        · have hkey : redis.get e.nowMs .waitP90Breach = some (toString t) := by
            rw [hget]
            simp [Option.filter, hlt]
          rw [isSustainedWaitBreach_continues he hkey]
          simp only [if_pos hlt]
          exact ⟨by simp [he, hlt], h⟩
        · have hkey : redis.get e.nowMs .waitP90Breach = none := by
            rw [hget]
            simp [Option.filter, hlt]
          obtain ⟨hfalse, hdates⟩ := dates_begins he hkey
          rw [hfalse]
          simp only [if_neg hlt]
          exact ⟨by simp [hlt], hdates⟩
  · unfold streak Lasting
    rw [if_neg he, isSustainedWaitBreach_quiet he]
    exact ⟨by simp [he], by simp [Dates]⟩

end Streak

/-! ## One tick -/

section Tick

variable {env : AlertEnv} {s : AlertState} {t : Tick}

/-- What `isSustainedWaitBreach` is asked at a tick. -/
def Tick.evaluation (t : Tick) : Evaluation := ⟨t.evaluatedAt, t.snapshot.waitP90Seconds⟩

/-- There have been too many severe incidents. -/
def Tick.Severe (t : Tick) : Prop :=
  ∃ severe ∈ t.snapshot.severeIncidentPer10k, SEVERE_INCIDENT_THRESHOLD_PER_10K < severe

/-- An appeal has been open for too long. -/
def Tick.Backlogged (env : AlertEnv) (t : Tick) : Prop :=
  ∃ appeal ∈ t.appeals, appeal.status = "OPEN" ∧
    (appeal.createdAt : Int) ≤ t.countedAt - appealBacklogSlaHours env * 60 * 60 * 1000

theorem flag_iff : t.snapshot.autoPauseTriggered = true ↔ t.Severe ∨ t.evaluation.Breaches := by
  have hflag : t.snapshot.autoPauseTriggered = decide (0 <
      (autoPauseReasons t.snapshot.severeIncidentPer10k t.snapshot.waitP90Seconds).length) := rfl
  unfold Tick.Severe Evaluation.Breaches Tick.evaluation
  rw [hflag, decide_eq_true_eq, List.length_pos_iff]
  unfold autoPauseReasons
  cases t.snapshot.severeIncidentPer10k <;> cases t.snapshot.waitP90Seconds <;>
    simp [SEVERE_INCIDENT_THRESHOLD_PER_10K, WAIT_P90_THRESHOLD_SECONDS, imp_iff_not_or]

theorem backlog_pos_iff :
    0 < getAppealBacklogBreachCount env t.countedAt t.appeals ↔ t.Backlogged env := by
  unfold getAppealBacklogBreachCount Tick.Backlogged
  simp [List.countP_pos_iff]

variable (env) in
theorem alertReasons_ne_nil (snapshot : StageGateSnapshot) (sustainedWaitBreach : Bool)
    (appealBacklog : Nat) :
    alertReasons env snapshot sustainedWaitBreach appealBacklog ≠ [] ↔
      (∃ severe ∈ snapshot.severeIncidentPer10k, SEVERE_INCIDENT_THRESHOLD_PER_10K < severe) ∨
        sustainedWaitBreach = true ∨ 0 < appealBacklog := by
  unfold alertReasons
  cases snapshot.severeIncidentPer10k with
  | none => cases sustainedWaitBreach <;> simp
  | some severe =>
      by_cases hsevere : SEVERE_INCIDENT_THRESHOLD_PER_10K < severe <;>
        cases sustainedWaitBreach <;> simp [Option.filter, hsevere]

theorem evaluateAndAlert_triggered (s : AlertState) (snapshot : StageGateSnapshot) :
    (evaluateAndAlert env s t snapshot).1.triggered = true ↔
      (∃ severe ∈ snapshot.severeIncidentPer10k, SEVERE_INCIDENT_THRESHOLD_PER_10K < severe) ∨
        (isSustainedWaitBreach s.alerts t.evaluatedAt snapshot.waitP90Seconds).1 = true ∨
          0 < getAppealBacklogBreachCount env t.countedAt t.appeals := by
  rw [← alertReasons_ne_nil env]
  unfold evaluateAndAlert
  dsimp only
  split
  · next hnone => simp [hnone]
  · next hsome => simp [hsome]

variable (env t) in
/-- The wait is judged by the key, whatever else is decided. -/
theorem evaluateAndAlert_alerts (s : AlertState) (snapshot : StageGateSnapshot) :
    (evaluateAndAlert env s t snapshot).2.alerts =
      (isSustainedWaitBreach s.alerts t.evaluatedAt snapshot.waitP90Seconds).2 := by
  unfold evaluateAndAlert
  dsimp only
  split <;> rfl

/-- What is answered at a tick. -/
theorem triggered_iff {since : Option Nat} (h : Dates s.alerts since) :
    (computePersistAndAlert env s t).1.triggered = true ↔
      t.Severe ∨ Lasting since t.evaluation ∨ t.Backlogged env := by
  refine (evaluateAndAlert_triggered _ _).trans ?_
  rw [backlog_pos_iff]
  exact or_congr_right (or_congr_left (h.evaluate (e := t.evaluation)).1)

variable (env t) in
theorem dates_tick {since : Option Nat} (h : Dates s.alerts since) :
    Dates (computePersistAndAlert env s t).2.alerts (streak since t.evaluation) := by
  have halerts := evaluateAndAlert_alerts env t
    { s with snapshots := s.snapshots ++ [t.snapshot] } t.snapshot
  exact halerts ▸ (h.evaluate (e := t.evaluation)).2

end Tick

/-! ## When the deciders agree -/

/-- At every tick there have been too many severe incidents, or a wait is too
long exactly when it has been for two hours, or appeals are overdue. -/
def SameGrounds (env : AlertEnv) (since : Option Nat) : List Tick → Prop
  | [] => True
  | t :: ts =>
      (t.Severe ∨ (t.evaluation.Breaches ↔ Lasting since t.evaluation ∨ t.Backlogged env)) ∧
        SameGrounds env (streak since t.evaluation) ts

theorem agree_tick_iff {env : AlertEnv} {s : AlertState} {t : Tick} {since : Option Nat}
    (h : Dates s.alerts since) :
    t.snapshot.autoPauseTriggered = (computePersistAndAlert env s t).1.triggered ↔
      t.Severe ∨ (t.evaluation.Breaches ↔ Lasting since t.evaluation ∨ t.Backlogged env) := by
  rw [Bool.eq_iff_iff, flag_iff, triggered_iff h]
  tauto

/-- **When the two deciders agree.** For every sequence of ticks that finds no
breach on record, whatever the tables hold at each: the flag of every snapshot
is what the service of alerts answers exactly if their grounds are the same at
every tick. -/
theorem agree_iff (env : AlertEnv) (snapshots : List StageGateSnapshot)
    (cooldown : Keyspace CooldownKey String) (ts : List Tick) :
    Agree env ⟨snapshots, [], cooldown⟩ ts ↔ SameGrounds env none ts := by
  suffices ∀ (s : AlertState) (since : Option Nat), Dates s.alerts since →
      (Agree env s ts ↔ SameGrounds env since ts) from this _ none rfl
  induction ts with
  | nil => exact fun s since _ => ⟨fun _ => trivial, fun _ x hx => nomatch hx⟩
  | cons t ts ih =>
      intro s since h
      have hrest := ih _ _ (dates_tick env t h)
      have hcons : Agree env s (t :: ts) ↔
          t.snapshot.autoPauseTriggered = (computePersistAndAlert env s t).1.triggered ∧
            Agree env (computePersistAndAlert env s t).2 ts := List.forall_mem_cons
      rw [hcons, agree_tick_iff h, hrest]
      rfl

/-- One match after 200 seconds, and nothing else. -/
def longWait : Tick where
  analytics :=
    { clock := 0, uuids := 1, hourly := [], fault := none
      events := [{
        eventSchemaVersion := 1, eventId := freshId 0, eventName := .queue_match_found
        occurredAt := 0, receivedAt := 0, source := .backend, platform := .backend
        appVersion := none, buildNumber := none, region := none, requestId := none, userId := none
        sessionId := none, matchId := none, queueKey := none
        properties := [("waitSeconds", .num 200)] }] }
  appeals := []
  evaluatedAt := 0
  countedAt := 0
  sentAt := 0
  responseOk := true

/-- The snapshot is flagged, and nothing is triggered. -/
theorem longWait_disagrees :
    ¬∀ ts, InOrder ts → Agree ⟨none, none⟩ ⟨[], [], []⟩ ts := by
  intro hall
  have hagree := hall [longWait] (by decide)
  revert hagree
  decide +kernel

end VerityBackend.Telemetry
