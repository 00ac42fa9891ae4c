/-
VerityBackend.Telemetry.Alerting — alerts of several processes
(`telemetry/telemetry-alerts.service.ts`).

Every worker process evaluates the snapshots it has computed. The processes
share the keys in Redis, the table of appeals and the webhook, and their
evaluations are interleaved command by command; one that is alone does what
`AutoPause` says (`run_evaluateAndAlert`). An alert is posted by a call that
has set the cooldown key, no other one of it, and the key is set at most once
in fifteen minutes: so many alerts are posted, and no more (`alerts_apart`).
-/
import VerityBackend.Async.Discipline
import VerityBackend.Telemetry.AutoPause

namespace VerityBackend.Telemetry

open Async Moderation Store

/-! ## Commands -/

/-- The variables of `process.env` that are read. -/
structure AlertingEnv where
  TELEMETRY_APPEAL_BACKLOG_SLA_HOURS : Option String
  TELEMETRY_ALERT_WEBHOOK_URL : Option String
  TELEMETRY_ALERT_ESCALATION_OWNER : Option String
  TELEMETRY_ALERT_RUNBOOK_URL : Option String
  deriving DecidableEq, Repr

def AlertingEnv.alertEnv (env : AlertingEnv) : AlertEnv where
  TELEMETRY_APPEAL_BACKLOG_SLA_HOURS := env.TELEMETRY_APPEAL_BACKLOG_SLA_HOURS
  TELEMETRY_ALERT_WEBHOOK_URL := env.TELEMETRY_ALERT_WEBHOOK_URL.map jsTrim

/-- What is posted: the values that the texts of its blocks show. -/
structure AutoPauseAlert where
  escalationOwner : String
  windowStart : Int
  windowEnd : Int
  runbookLink : String
  reasons : List AlertReason
  waitP90Seconds : Option Rat
  severeIncidentPer10k : Option Rat
  appealOverturnRate : Option Rat
  deriving DecidableEq, Repr

/-- `webhook` is the webhook's answer: `response.ok`, or what `fetch` throws. -/
structure AlertWorld where
  clock : Nat
  alerts : AlertStore
  cooldown : Keyspace CooldownKey String
  appeals : List ModerationAppeal
  webhook : Except Err Bool

inductive AlertCmd where
  | now
  | breachGet
  | breachSet (value : String)
  | breachDel
  | appealCount (cutoff : Int)
  | cooldownSetNX
  | post (url : String) (alert : AutoPauseAlert)

abbrev AlertCmd.Res : AlertCmd → Type
  | .now => Nat
  | .breachGet => Option String
  | .breachSet _ => Unit
  | .breachDel => Unit
  | .appealCount _ => Nat
  | .cooldownSetNX => Bool
  | .post _ _ => Bool

def AlertCmd.exec : (c : AlertCmd) → AlertWorld → Except Err c.Res × AlertWorld
  | .now, w => (.ok w.clock, w)
  | .breachGet, w => (.ok (w.alerts.get w.clock .waitP90Breach), w)
  | .breachSet value, w =>
      (.ok (),
        { w with alerts := w.alerts.set w.clock .waitP90Breach value (some (WAIT_P90_SUSTAIN_MS * 2)) })
  | .breachDel, w => (.ok (), { w with alerts := w.alerts.del .waitP90Breach })
  | .appealCount cutoff, w =>
      (.ok (w.appeals.countP fun appeal =>
        appeal.status = "OPEN" ∧ (appeal.createdAt : Int) ≤ cutoff), w)
  | .cooldownSetNX, w =>
      match w.cooldown.get w.clock .autoPauseCooldown with
      | some _ => (.ok false, w)
      | none =>
          (.ok true,
            { w with
              cooldown := w.cooldown.set w.clock .autoPauseCooldown "1"
                (some AUTO_PAUSE_COOLDOWN_MS) })
  | .post _ _, w => (w.webhook, w)

abbrev AlertProg (α : Type) := Proc AlertCmd AlertCmd.Res Err α

abbrev alerting (c : AlertCmd) : AlertProg c.Res := Proc.await c

namespace Alerting

/-! ## The service -/

/-- A breach that is not on record begins now. -/
def judgeBreach (nowMs : Nat) (existing : Option String) : AlertProg Bool :=
  match (existing.filter (· ≠ "")).bind parseInt with
  | none => do
      alerting (.breachSet (toString nowMs))
      pure false
  | some breachStartedMs => pure (decide ((WAIT_P90_SUSTAIN_MS : Int) ≤ nowMs - breachStartedMs))

def isSustainedWaitBreach (waitP90Seconds : Option Rat) : AlertProg Bool :=
  match waitP90Seconds.filter (WAIT_P90_THRESHOLD_SECONDS < ·) with
  | none => do
      alerting .breachDel
      pure false
  | some _ => do
      let nowMs ← alerting .now
      let existing ← alerting .breachGet
      judgeBreach nowMs existing

def getAppealBacklogBreachCount (env : AlertingEnv) : AlertProg Nat := do
  let nowMs ← alerting .now
  alerting (.appealCount ((nowMs : Int) - appealBacklogSlaHours env.alertEnv * 60 * 60 * 1000))

def alertOf (env : AlertingEnv) (snapshot : StageGateSnapshot) (reasons : List AlertReason) :
    AutoPauseAlert where
  escalationOwner := (env.TELEMETRY_ALERT_ESCALATION_OWNER.map jsTrim).getD "unassigned"
  windowStart := snapshot.windowStart
  windowEnd := snapshot.windowEnd
  runbookLink := (env.TELEMETRY_ALERT_RUNBOOK_URL.map jsTrim).getD
    "docs/notes/incident-runbook.md#telemetry-outage-play"
  reasons := reasons
  waitP90Seconds := snapshot.waitP90Seconds
  severeIncidentPer10k := snapshot.severeIncidentPer10k
  appealOverturnRate := snapshot.appealOverturnRate

/-- The request, whose failure is logged. -/
def postAlert (env : AlertingEnv) (alert : AutoPauseAlert) : AlertProg Bool :=
  match env.alertEnv.TELEMETRY_ALERT_WEBHOOK_URL.filter (· ≠ "") with
  | none => pure false
  | some webhook => (alerting (.post webhook alert)).tryCatch fun _ => pure false

def sendAutoPauseAlert (env : AlertingEnv) (snapshot : StageGateSnapshot)
    (reasons : List AlertReason) : AlertProg Bool := do
  let allowed ← alerting .cooldownSetNX
  if allowed then postAlert env (alertOf env snapshot reasons) else pure false

/-- What is done about the reasons. -/
def alertFor (env : AlertingEnv) (snapshot : StageGateSnapshot) (reasons : List AlertReason) :
    AlertProg AlertResult :=
  if reasons = [] then pure ⟨false, reasons, false⟩
  else do
    let sent ← sendAutoPauseAlert env snapshot reasons
    pure ⟨true, reasons, sent⟩

def evaluateAndAlert (env : AlertingEnv) (snapshot : StageGateSnapshot) : AlertProg AlertResult := do
  let sustainedWaitBreach ← isSustainedWaitBreach snapshot.waitP90Seconds
  let appealBacklog ← getAppealBacklogBreachCount env
  alertFor env snapshot (alertReasons env.alertEnv snapshot sustainedWaitBreach appealBacklog)

end Alerting

/-! ## The system -/

/-- An evaluation of a snapshot. -/
structure AlertOp where
  snapshot : StageGateSnapshot
  deriving DecidableEq, Repr

/-- Time passes, the table of appeals changes, the webhook answers as it
likes. -/
inductive AlertingEvent where
  | tick (ms : Nat)
  | appeals (rows : List ModerationAppeal)
  | webhook (answer : Except Err Bool)

def AlertWorld.env : AlertingEvent → AlertWorld → AlertWorld
  | .tick ms, w => { w with clock := w.clock + ms }
  | .appeals rows, w => { w with appeals := rows }
  | .webhook answer, w => { w with webhook := answer }

@[reducible] def alertSystem (env : AlertingEnv) : System where
  Cmd := AlertCmd
  Res := AlertCmd.Res
  Err := Err
  World := AlertWorld
  exec := AlertCmd.exec
  Op := AlertOp
  Ret := fun _ => AlertResult
  code := fun o => Alerting.evaluateAndAlert env o.snapshot
  Env := AlertingEvent
  env := AlertWorld.env

/-! ## A call alone -/

/-- The tick of a call that nothing happens to. -/
def AlertWorld.tick (analytics : Analytics.AnalyticsWorld) (w : AlertWorld) : Tick where
  analytics := analytics
  appeals := w.appeals
  evaluatedAt := w.clock
  countedAt := w.clock
  sentAt := w.clock
  responseOk := match w.webhook with | .ok ok => ok | .error _ => false

section Alone

variable (env : AlertingEnv) (w : AlertWorld)

theorem run_isSustainedWaitBreach (waitP90Seconds : Option Rat) :
    (Alerting.isSustainedWaitBreach waitP90Seconds).run AlertCmd.exec w =
      (.ok (isSustainedWaitBreach w.alerts w.clock waitP90Seconds).1,
        { w with alerts := (isSustainedWaitBreach w.alerts w.clock waitP90Seconds).2 }) := by
  unfold Alerting.isSustainedWaitBreach isSustainedWaitBreach
  cases waitP90Seconds with
  | none => rfl
  | some seconds =>
      by_cases hle : seconds ≤ WAIT_P90_THRESHOLD_SECONDS
      · have hfilter : (some seconds).filter (WAIT_P90_THRESHOLD_SECONDS < ·) = none := by
          simp [Option.filter, Rat.not_lt.mpr hle]
        rw [hfilter]
        simp only [if_pos hle]
        rfl
      · have hfilter : (some seconds).filter (WAIT_P90_THRESHOLD_SECONDS < ·) = some seconds := by
          simp [Option.filter, Rat.not_le.mp hle]
        rw [hfilter]
        simp only [if_neg hle]
        change (Alerting.judgeBreach w.clock (w.alerts.get w.clock .waitP90Breach)).run
          AlertCmd.exec w = _
        unfold Alerting.judgeBreach
        cases w.alerts.get w.clock .waitP90Breach with
        | none => rfl
        | some existing =>
            by_cases hempty : existing = ""
            · simp only [hempty, if_true]
              rfl
            · have hset : (some existing).filter (· ≠ "") = some existing := by
                simp [Option.filter, hempty]
              rw [hset]
              simp only [if_neg hempty, Option.bind_some]
              cases parseInt existing <;> rfl

theorem run_sendAutoPauseAlert (analytics : Analytics.AnalyticsWorld) (snapshot : StageGateSnapshot)
    (reasons : List AlertReason) :
    (Alerting.sendAutoPauseAlert env snapshot reasons).run AlertCmd.exec w =
      (.ok (sendAutoPauseAlert env.alertEnv (w.tick analytics) w.cooldown).1,
        { w with cooldown := (sendAutoPauseAlert env.alertEnv (w.tick analytics) w.cooldown).2 }) := by
  unfold Alerting.sendAutoPauseAlert sendAutoPauseAlert
  cases hkey : w.cooldown.get w.clock .autoPauseCooldown with
  | some value =>
      simp only [AlertWorld.tick, hkey, Proc.bind_eq, Proc.run_bind, Proc.run_await, AlertCmd.exec]
      rfl
  | none =>
      have hpost : ∀ w' : AlertWorld, w'.webhook = w.webhook →
          (Alerting.postAlert env (Alerting.alertOf env snapshot reasons)).run AlertCmd.exec w' =
            (.ok (env.alertEnv.TELEMETRY_ALERT_WEBHOOK_URL.any (· ≠ "") &&
              (w.tick analytics).responseOk), w') := by
        intro w' hw'
        unfold Alerting.postAlert
        cases env.alertEnv.TELEMETRY_ALERT_WEBHOOK_URL with
        | none => rfl
        | some url =>
            by_cases hurl : url = ""
            · simp [Option.filter, hurl]
            · have hset : (some url).filter (· ≠ "") = some url := by simp [Option.filter, hurl]
              rw [hset]
              simp only [Proc.run_tryCatch, Proc.run_await, AlertCmd.exec, hw', AlertWorld.tick]
              cases w.webhook <;> simp [hurl]
      simp only [AlertWorld.tick, hkey, Proc.bind_eq, Proc.run_bind, Proc.run_await, AlertCmd.exec,
        if_true]
      exact hpost _ rfl

theorem run_getAppealBacklogBreachCount :
    (Alerting.getAppealBacklogBreachCount env).run AlertCmd.exec w =
      (.ok (getAppealBacklogBreachCount env.alertEnv w.clock w.appeals), w) := rfl

/-- **Alone, a call does what the plain evaluation says.** -/
theorem run_evaluateAndAlert (analytics : Analytics.AnalyticsWorld)
    (snapshots : List StageGateSnapshot) (snapshot : StageGateSnapshot) :
    let plain := evaluateAndAlert env.alertEnv ⟨snapshots, w.alerts, w.cooldown⟩ (w.tick analytics)
      snapshot
    (Alerting.evaluateAndAlert env snapshot).run AlertCmd.exec w =
      (.ok plain.1, { w with alerts := plain.2.alerts, cooldown := plain.2.cooldown }) := by
  intro plain
  let judged := isSustainedWaitBreach w.alerts w.clock snapshot.waitP90Seconds
  let judgedWorld : AlertWorld := { w with alerts := judged.2 }
  have hcount : (Alerting.getAppealBacklogBreachCount env).run AlertCmd.exec judgedWorld =
      (.ok (getAppealBacklogBreachCount env.alertEnv w.clock w.appeals), judgedWorld) :=
    run_getAppealBacklogBreachCount env judgedWorld
  unfold Alerting.evaluateAndAlert
  rw [Proc.bind_eq, Proc.run_bind_ok AlertCmd.exec (run_isSustainedWaitBreach w snapshot.waitP90Seconds),
    Proc.bind_eq, Proc.run_bind_ok AlertCmd.exec hcount]
  have hplain : plain = evaluateAndAlert env.alertEnv ⟨snapshots, w.alerts, w.cooldown⟩
      (w.tick analytics) snapshot := rfl
  unfold evaluateAndAlert at hplain
  unfold Alerting.alertFor
  by_cases hnone : alertReasons env.alertEnv snapshot judged.1
      (getAppealBacklogBreachCount env.alertEnv w.clock w.appeals) = []
  · rw [if_pos hnone]
    rw [hplain]
    dsimp only [AlertWorld.tick]
    rw [if_pos hnone]
    rfl
  · rw [if_neg hnone, hplain, Proc.bind_eq,
      Proc.run_bind_ok AlertCmd.exec (run_sendAutoPauseAlert env judgedWorld analytics snapshot _)]
    dsimp only [AlertWorld.tick]
    rw [if_neg hnone]
    rfl

end Alone

/-! ## Alerts -/

/-- An alert. -/
def AlertCmd.isPost : AlertCmd → Bool
  | .post _ _ => true
  | _ => false

/-- In this world, the command sets the cooldown key. -/
def AlertCmd.reserves (w : AlertWorld) : AlertCmd → Bool
  | .cooldownSetNX => (w.cooldown.get w.clock .autoPauseCooldown).isNone
  | _ => false

variable {env : AlertingEnv}

abbrev Posts (e : Entry (alertSystem env)) : Prop := e.cmd.isPost = true

abbrev Reserves (e : Entry (alertSystem env)) : Prop := e.cmd.reserves e.before = true

/-- The key is set until fifteen minutes after the last reservation, and
before that there is no other one. -/
structure Spaced (start : Nat) (s : Snap (alertSystem env)) : Prop where
  since : ∀ e ∈ s.trace, start ≤ e.before.clock ∧ e.before.clock ≤ s.world.clock
  sorted : s.trace.Pairwise fun e e' => e'.before.clock ≤ e.before.clock
  held : ∀ e ∈ s.trace, Reserves e → ∃ value t,
    s.world.cooldown.lookup .autoPauseCooldown = some ⟨value, some t⟩ ∧
      e.before.clock + AUTO_PAUSE_COOLDOWN_MS ≤ t
  apart : s.trace.Pairwise fun e e' => Reserves e → Reserves e' →
    e'.before.clock + AUTO_PAUSE_COOLDOWN_MS ≤ e.before.clock

section Spaced

variable {start : Nat} {s : Snap (alertSystem env)}

theorem clock_exec (c : AlertCmd) (w : AlertWorld) : (c.exec w).2.clock = w.clock := by
  cases c with
  | cooldownSetNX =>
      simp only [AlertCmd.exec]
      split <;> rfl
  | _ => rfl

/-- What a command does to the cooldown key. -/
theorem cooldown_exec (c : AlertCmd) (w : AlertWorld) :
    (c.reserves w = false ∧ (c.exec w).2.cooldown = w.cooldown) ∨
      (c.reserves w = true ∧ w.cooldown.get w.clock .autoPauseCooldown = none ∧
        (c.exec w).2.cooldown.lookup .autoPauseCooldown =
          some ⟨"1", some (w.clock + AUTO_PAUSE_COOLDOWN_MS)⟩) := by
  cases c with
  | cooldownSetNX =>
      cases hkey : w.cooldown.get w.clock .autoPauseCooldown with
      | some value => exact .inl ⟨by simp [AlertCmd.reserves, hkey], by simp only [AlertCmd.exec, hkey]⟩
      | none =>
          refine .inr ⟨by simp [AlertCmd.reserves, hkey], rfl, ?_⟩
          simp only [AlertCmd.exec, hkey]
          exact Keyspace.lookup_put_self _ _ _
  | _ => exact .inl ⟨rfl, rfl⟩

/-- **Step lemma.** -/
theorem Spaced.exec (h : Spaced start s) (hstart : start ≤ s.world.clock) (i : Nat) (c : AlertCmd) :
    Spaced start (s.exec i c) := by
  have hclock : (c.exec s.world).2.clock = s.world.clock := clock_exec c s.world
  refine ⟨fun e he => ?_, ?_, ?_, ?_⟩
  · change start ≤ e.before.clock ∧ e.before.clock ≤ (c.exec s.world).2.clock
    rw [hclock]
    rcases List.mem_cons.mp he with rfl | he
    · exact ⟨hstart, Nat.le_refl _⟩
    · exact h.since e he
  · exact List.pairwise_cons.mpr ⟨fun e he => (h.since e he).2, h.sorted⟩
  · rcases cooldown_exec c s.world with ⟨hno, hsame⟩ | ⟨-, -, hkey⟩
    · intro e he hres
      change ∃ value t, (c.exec s.world).2.cooldown.lookup .autoPauseCooldown = _ ∧ _
      rw [hsame]
      rcases List.mem_cons.mp he with rfl | he
      · exact absurd (hno.symm.trans hres) (by decide)
      · exact h.held e he hres
    · intro e he _
      refine ⟨"1", s.world.clock + AUTO_PAUSE_COOLDOWN_MS, hkey, ?_⟩
      rcases List.mem_cons.mp he with rfl | he
      · exact Nat.le_refl _
      · exact Nat.add_le_add_right (h.since e he).2 _
  · refine List.pairwise_cons.mpr ⟨fun e he hnew hold => ?_, h.apart⟩
    rcases cooldown_exec c s.world with ⟨hno, -⟩ | ⟨-, hfree, -⟩
    · exact absurd (hno.symm.trans hnew) (by decide)
    · -- the key of the earlier reservation has expired
      obtain ⟨value, t, hlookup, ht⟩ := h.held e he hold
      have hexpired : ¬s.world.clock < t := by
        intro hlt
        simp [Keyspace.get, Keyspace.entry, hlookup, Option.filter, Stamped.alive, hlt] at hfree
      exact Nat.le_trans ht (Nat.le_of_not_lt hexpired)

theorem Spaced.happens (h : Spaced start s) (e : AlertingEvent) :
    Spaced start ⟨s.world.env e, s.trace⟩ := by
  refine ⟨fun x hx => ⟨(h.since x hx).1, Nat.le_trans (h.since x hx).2 ?_⟩, h.sorted, ?_, h.apart⟩
  · cases e with
    | tick ms => exact Nat.le_add_right _ _
    | appeals rows => exact Nat.le_refl _
    | webhook answer => exact Nat.le_refl _
  · have hsame : (s.world.env e).cooldown = s.world.cooldown := by
      cases e <;> rfl
    change ∀ x ∈ s.trace, Reserves x → ∃ value t, (s.world.env e).cooldown.lookup _ = _ ∧ _
    rw [hsame]
    exact h.held

end Spaced

/-! ## One call -/

/-- What a call has done: it has posted once at most, after a reservation. -/
structure Fair (own : List (Entry (alertSystem env))) : Prop where
  once : own.countP (·.cmd.isPost) ≤ 1
  reserved : ∀ later e earlier, own = later ++ e :: earlier → Posts e → ∃ d ∈ earlier, Reserves d

section Fair

variable {own : List (Entry (alertSystem env))} {e : Entry (alertSystem env)}

theorem fair_nil : Fair ([] : List (Entry (alertSystem env))) :=
  ⟨Nat.zero_le _, fun later e earlier h => absurd h (by simp)⟩

theorem Fair.cons (h : Fair own) (he : e.cmd.isPost = false) : Fair (e :: own) := by
  refine ⟨?_, fun later x earlier hsplit hx => ?_⟩
  · rw [List.countP_cons_of_neg (by simp [he])]
    exact h.once
  · cases later with
    | nil =>
        obtain ⟨rfl, rfl⟩ := List.cons.inj hsplit
        exact absurd (he.symm.trans hx) (by decide)
    | cons y later =>
        obtain ⟨rfl, hrest⟩ := List.cons.inj hsplit
        exact h.reserved later x earlier hrest hx

theorem fair_post (hquiet : ∀ x ∈ own, x.cmd.isPost = false) (hres : ∃ d ∈ own, Reserves d) :
    Fair (e :: own) := by
  have hnone : own.countP (·.cmd.isPost) = 0 :=
    List.countP_eq_zero.mpr fun x hx => by simp [hquiet x hx]
  refine ⟨?_, fun later x earlier hsplit hx => ?_⟩
  · rw [List.countP_cons, hnone]
    split <;> omega
  · cases later with
    | nil =>
        obtain ⟨rfl, rfl⟩ := List.cons.inj hsplit
        exact hres
    | cons y later =>
        obtain ⟨rfl, hrest⟩ := List.cons.inj hsplit
        have hmem : x ∈ own := hrest ▸ List.mem_append_right later List.mem_cons_self
        exact absurd ((hquiet x hmem).symm.trans hx) (by decide)

end Fair

/-- What calls rely on: nobody writes their record. -/
def paging (env : AlertingEnv) (start : Nat) : Discipline (alertSystem env) where
  inv s := start ≤ s.world.clock ∧ Spaced start s ∧ ∀ i, Fair (s.own i)
  admits _ _ _ _ := True
  rely i s s' := s'.own i = s.own i
  guar _ _ _ _ := True
  rely_refl _ _ := rfl
  rely_trans _ _ _ _ h h' := h'.trans h

section Paging

variable {start : Nat} {o : AlertOp} {i : Nat} {s : Snap (alertSystem env)} {α : Type}

theorem paging_keeps {c : AlertCmd} (hinv : (paging env start).inv s)
    (hfair : Fair (⟨i, c, s.world⟩ :: s.own i)) : (paging env start).Keeps o i c s := by
  obtain ⟨hstart, hspaced, hall⟩ := hinv
  refine ⟨trivial, ⟨?_, hspaced.exec hstart i c, fun j => ?_⟩, fun j hj => Snap.exec_own_ne s c hj⟩
  · change start ≤ (c.exec s.world).2.clock
    rw [clock_exec]
    exact hstart
  · by_cases hj : j = i
    · subst hj
      rw [Snap.exec_own_self]
      exact hfair
    · rw [Snap.exec_own_ne s c hj]
      exact hall j

/-- The call has posted nothing. -/
def Unposted (i : Nat) (s : Snap (alertSystem env)) : Prop := ∀ e ∈ s.own i, e.cmd.isPost = false

theorem Unposted.exec (h : Unposted i s) {c : AlertCmd} (hc : c.isPost = false) :
    Unposted i (s.exec i c) := by
  intro e he
  rw [Snap.exec_own_self] at he
  rcases List.mem_cons.mp he with rfl | he
  · exact hc
  · exact h e he

theorem valid_quiet {p : AlertProg α} (hp : p.Conforms (fun c => c.isPost = false) True)
    (h : Unposted i s) :
    (paging env start).Valid o i p (fun _ s' => Unposted i s') s := by
  have hrely : ∀ s s', (paging env start).rely i s s' → Unposted i s → Unposted i s' := by
    intro s s' hr h e he
    have hown : s'.own i = s.own i := hr
    exact h e (hown ▸ he)
  refine (Discipline.valid_of_conforms hp hrely (fun c s hc hinv hs => ?_) h).weaken
    fun r s' h => h.2
  exact ⟨paging_keeps hinv ((hinv.2.2 i).cons hc), hs.exec hc, .inr trivial⟩

theorem conforms_isSustainedWaitBreach (waitP90Seconds : Option Rat) :
    (Alerting.isSustainedWaitBreach waitP90Seconds).Conforms (fun c => c.isPost = false) True := by
  unfold Alerting.isSustainedWaitBreach
  split
  · exact Proc.Conforms.bind (Proc.conforms_await rfl) fun _ => Proc.conforms_pure _
  · refine Proc.Conforms.bind (Proc.conforms_await rfl) fun nowMs => ?_
    refine Proc.Conforms.bind (Proc.conforms_await rfl) fun existing => ?_
    unfold Alerting.judgeBreach
    split
    · exact Proc.Conforms.bind (Proc.conforms_await rfl) fun _ => Proc.conforms_pure _
    · exact Proc.conforms_pure _

theorem conforms_getAppealBacklogBreachCount (env : AlertingEnv) :
    (Alerting.getAppealBacklogBreachCount env).Conforms (fun c => c.isPost = false) True :=
  Proc.Conforms.bind (Proc.conforms_await rfl) fun _ => Proc.conforms_await rfl

/-- With a reservation, an alert may be posted. -/
theorem valid_postAlert {env' : AlertingEnv} {alert : AutoPauseAlert} (h : Unposted i s)
    (hres : ∃ d ∈ s.own i, Reserves d) :
    (paging env start).Valid o i (Alerting.postAlert env' alert) (fun _ _ => True) s := by
  unfold Alerting.postAlert
  split
  · trivial
  · refine Discipline.valid_tryCatch fun s' hr hinv _ => ?_
    have hown : s'.own i = s.own i := hr
    refine ⟨paging_keeps hinv (fair_post (hown ▸ h) (hown ▸ hres)), ?_⟩
    change (paging env start).Valid o i (Proc.ret s'.world.webhook) _ _
    cases s'.world.webhook with
    | ok ok => exact True.intro
    | error e => exact True.intro

theorem valid_sendAutoPauseAlert {env' : AlertingEnv} {snapshot : StageGateSnapshot}
    {reasons : List AlertReason} (h : Unposted i s) :
    (paging env start).Valid o i (Alerting.sendAutoPauseAlert env' snapshot reasons)
      (fun _ _ => True) s := by
  refine Discipline.valid_await fun s' hr hinv _ => ?_
  have hown : s'.own i = s.own i := hr
  have hquiet : Unposted i s' := fun e he => h e (hown ▸ he)
  refine ⟨paging_keeps hinv ((hinv.2.2 i).cons rfl), ?_⟩
  cases hkey : s'.world.cooldown.get s'.world.clock .autoPauseCooldown with
  | some value =>
      have hanswer : (AlertCmd.cooldownSetNX.exec s'.world).1 = .ok false := by
        simp only [AlertCmd.exec, hkey]
      rw [hanswer]
      trivial
  | none =>
      have hanswer : (AlertCmd.cooldownSetNX.exec s'.world).1 = .ok true := by
        simp only [AlertCmd.exec, hkey]
      rw [hanswer]
      refine valid_postAlert (hquiet.exec rfl) ⟨⟨i, .cooldownSetNX, s'.world⟩, ?_, ?_⟩
      · rw [Snap.exec_own_self]
        exact List.mem_cons_self
      · exact Option.isNone_iff_eq_none.mpr hkey

theorem valid_evaluateAndAlert (snapshot : StageGateSnapshot) (h : Unposted i s) :
    (paging env start).Valid o i (Alerting.evaluateAndAlert env snapshot) (fun _ _ => True) s := by
  refine Discipline.valid_bind ((valid_quiet (conforms_isSustainedWaitBreach _) h).weaken
    fun r s₁ h₁ => ?_)
  cases r with
  | error e => trivial
  | ok sustained =>
      refine Discipline.valid_bind ((valid_quiet (conforms_getAppealBacklogBreachCount env) h₁).weaken
        fun r s₂ h₂ => ?_)
      cases r with
      | error e => trivial
      | ok backlog =>
          change (paging env start).Valid o i (Alerting.alertFor env snapshot _) _ s₂
          unfold Alerting.alertFor
          split
          · trivial
          · refine Discipline.valid_bind ((valid_sendAutoPauseAlert h₂).weaken fun r s₃ _ => ?_)
            cases r <;> trivial

end Paging

/-- **Run lemma.** -/
theorem paging_run (w : AlertWorld) (es : List (Event (alertSystem env))) :
    (paging env w.clock).inv ((Config.initial w).run es).toSnap := by
  have hgoverns : (paging env w.clock).Governs (fun _ _ => True) fun _ _ _ _ => True := by
    refine ⟨fun c o _ _ hfresh => ?_, fun _ _ _ _ _ _ _ _ => trivial, fun c e _ hinv => ?_⟩
    · refine valid_evaluateAndAlert o.snapshot fun e he => ?_
      rw [hfresh] at he
      cases he
    · refine ⟨⟨Nat.le_trans hinv.1 ?_, hinv.2.1.happens e, hinv.2.2⟩, fun i => rfl⟩
      cases e with
      | tick ms => exact Nat.le_add_right _ _
      | appeals rows => exact Nat.le_refl _
      | webhook answer => exact Nat.le_refl _
  have hstart : (paging env w.clock).inv ⟨w, []⟩ :=
    ⟨Nat.le_refl _, ⟨fun e he => absurd he List.not_mem_nil, .nil,
      fun e he => absurd he List.not_mem_nil, .nil⟩, fun i => fair_nil⟩
  exact (hgoverns.sound_run (fun _ _ _ _ _ _ _ => trivial) hstart
    (Config.obeys_of_forall (fun _ _ => trivial) _ es)).1.inv

/-! ## All calls -/

/-- So many times fit between two others, at this distance. -/
theorem length_mul_le {d start stop : Nat} {times : List Nat}
    (hrange : ∀ t ∈ times, start ≤ t ∧ t ≤ stop) (hapart : times.Pairwise fun t t' => t' + d ≤ t) :
    times.length * d ≤ stop - start + d := by
  induction times generalizing stop with
  | nil => simp
  | cons t times ih =>
      obtain ⟨hhead, htail⟩ := List.pairwise_cons.mp hapart
      obtain ⟨hlo, hhi⟩ := hrange t List.mem_cons_self
      cases times with
      | nil => simp
      | cons t' times =>
          have hnext := hhead t' List.mem_cons_self
          have hbelow : ∀ x ∈ t' :: times, start ≤ x ∧ x ≤ t - d := by
            intro x hx
            have hgap := hhead x hx
            exact ⟨(hrange x (.tail _ hx)).1, by omega⟩
          have hrest := ih hbelow htail
          have hlo' := (hrange t' (.tail _ List.mem_cons_self)).1
          rw [List.length_cons, Nat.add_mul, Nat.one_mul]
          omega

section Counts

variable {start : Nat} {s : Snap (alertSystem env)}

theorem posts_once (hfair : ∀ i, Fair (s.own i)) (i : Nat) :
    s.trace.countP (fun e => e.call = i && e.cmd.isPost) ≤ 1 := by
  have hone := (hfair i).once
  rw [Snap.own, List.countP_filter] at hone
  refine Nat.le_trans (Nat.le_of_eq (List.countP_congr fun e _ => ?_)) hone
  rw [Bool.and_comm]

theorem posts_reserved (hspaced : Spaced start s) (hfair : ∀ i, Fair (s.own i))
    {e : Entry (alertSystem env)} (he : e ∈ s.trace) (hpost : Posts e) :
    ∃ d ∈ s.trace, d.call = e.call ∧ Reserves d ∧ d.before.clock ≤ e.before.clock := by
  have hown : e ∈ s.own e.call := List.mem_filter.mpr ⟨he, by simp⟩
  obtain ⟨later, earlier, hsplit⟩ := List.append_of_mem hown
  obtain ⟨d, hd, hres⟩ := (hfair e.call).reserved later e earlier hsplit hpost
  have hmem : d ∈ s.own e.call := hsplit ▸ List.mem_append_right later (.tail _ hd)
  obtain ⟨htrace, hcall⟩ := List.mem_filter.mp hmem
  have hsorted : (s.own e.call).Pairwise fun e e' => e'.before.clock ≤ e.before.clock :=
    hspaced.sorted.filter _
  rw [hsplit] at hsorted
  have hle := (List.pairwise_cons.mp (List.pairwise_append.mp hsorted).2.1).1 d hd
  exact ⟨d, htrace, by simpa using hcall, hres, hle⟩

/-- The calls that have posted are among those that have reserved. -/
theorem countP_posts_le (hspaced : Spaced start s) (hfair : ∀ i, Fair (s.own i)) :
    s.trace.countP (·.cmd.isPost) ≤ s.trace.countP fun e => e.cmd.reserves e.before := by
  let posts := (s.trace.filter (·.cmd.isPost)).map (·.call)
  let reservations := (s.trace.filter fun e => e.cmd.reserves e.before).map (·.call)
  have hnodup : posts.Nodup := by
    refine List.nodup_iff_count_le_one.mpr fun i => ?_
    rw [List.count_eq_countP, List.countP_map, List.countP_filter]
    refine Nat.le_trans (Nat.le_of_eq (List.countP_congr fun e _ => ?_)) (posts_once hfair i)
    simp
  have hsub : posts ⊆ reservations := by
    intro i hi
    obtain ⟨e, he, rfl⟩ := List.mem_map.mp hi
    obtain ⟨htrace, hpost⟩ := List.mem_filter.mp he
    obtain ⟨d, hd, hcall, hres, -⟩ := posts_reserved hspaced hfair htrace hpost
    exact hcall ▸ List.mem_map_of_mem (List.mem_filter.mpr ⟨hd, hres⟩)
  have hlength := (List.subperm_of_subset hnodup hsub).length_le
  rw [List.length_map, List.length_map, ← List.countP_eq_length_filter,
    ← List.countP_eq_length_filter] at hlength
  exact hlength

theorem reservations_mul_le (hspaced : Spaced start s) :
    (s.trace.countP fun e => e.cmd.reserves e.before) * AUTO_PAUSE_COOLDOWN_MS ≤
      s.world.clock - start + AUTO_PAUSE_COOLDOWN_MS := by
  let reservations := s.trace.filter fun e => e.cmd.reserves e.before
  have htimes : (reservations.map (·.before.clock)).length * AUTO_PAUSE_COOLDOWN_MS ≤
      s.world.clock - start + AUTO_PAUSE_COOLDOWN_MS := by
    refine length_mul_le (fun t ht => ?_) ?_
    · obtain ⟨e, he, rfl⟩ := List.mem_map.mp ht
      exact hspaced.since e (List.mem_filter.mp he).1
    · refine List.pairwise_map.mpr ((hspaced.apart.filter _).imp_of_mem fun {d d'} hd hd' h => ?_)
      exact h (List.mem_filter.mp hd).2 (List.mem_filter.mp hd').2
  rw [List.length_map, ← List.countP_eq_length_filter] at htimes
  exact htimes

end Counts

/-- **Alerts are fifteen minutes apart.** In every interleaving of
evaluations: an alert is posted after its call has set the cooldown key, and
by no call twice; the key is set again after fifteen minutes at the earliest;
and the alerts posted since the start are no more than fit in there. -/
theorem alerts_apart (env : AlertingEnv) (w : AlertWorld) (es : List (Event (alertSystem env))) :
    let c := (Config.initial w).run es
    (∀ e ∈ c.trace, Posts e → ∃ d ∈ c.trace, d.call = e.call ∧ Reserves d ∧
        d.before.clock ≤ e.before.clock) ∧
      (∀ i, c.trace.countP (fun e => e.call = i && e.cmd.isPost) ≤ 1) ∧
      (c.trace.Pairwise fun d d' => Reserves d → Reserves d' →
        d'.before.clock + AUTO_PAUSE_COOLDOWN_MS ≤ d.before.clock) ∧
      c.trace.countP (·.cmd.isPost) * AUTO_PAUSE_COOLDOWN_MS ≤
        c.world.clock - w.clock + AUTO_PAUSE_COOLDOWN_MS := by
  intro c
  obtain ⟨-, hspaced, hfair⟩ := paging_run w es
  have hcount : c.trace.countP (·.cmd.isPost) * AUTO_PAUSE_COOLDOWN_MS ≤
      c.world.clock - w.clock + AUTO_PAUSE_COOLDOWN_MS :=
    calc c.trace.countP (·.cmd.isPost) * AUTO_PAUSE_COOLDOWN_MS
        ≤ (c.trace.countP fun e => e.cmd.reserves e.before) * AUTO_PAUSE_COOLDOWN_MS :=
          Nat.mul_le_mul_right _ (countP_posts_le hspaced hfair)
      _ ≤ c.world.clock - w.clock + AUTO_PAUSE_COOLDOWN_MS := reservations_mul_le hspaced
  exact ⟨fun e he hpost => posts_reserved hspaced hfair he hpost, posts_once hfair, hspaced.apart,
    hcount⟩

end VerityBackend.Telemetry
