/-
VerityBackend.Telemetry.Sustained — what a reported wait rests on, with
several processes (`isSustainedWaitBreach` of
`telemetry/telemetry-alerts.service.ts`).

The key is stored by an evaluation that has found too long a wait, with a time
that this one has read, and removed by one that has not. Between the store and
a read that finds it there is no removal (`Dated`), in whatever order the
commands of the processes come. So a wait is reported only if the time that
was stored is two hours before one that the reporting call has read
(`wait_reported`).
-/
import VerityBackend.Async.Outcomes
import VerityBackend.Telemetry.Alerting

namespace VerityBackend.Telemetry

open Async Moderation Store

variable {env : AlertingEnv}

/-! ## The key -/

/-- The store of a value, and no removal since. -/
structure StoredBy (later : List (Entry (alertSystem env))) (e : Entry (alertSystem env))
    (value : String) : Prop where
  store : e.cmd = .breachSet value
  kept : ∀ x ∈ later, x.cmd ≠ .breachDel

/-- What is stored has been stored, and not been removed since. -/
def Dated (s : Snap (alertSystem env)) : Prop :=
  ∀ entry, s.world.alerts.lookup .waitP90Breach = some entry →
    ∃ later e earlier, s.trace = later ++ e :: earlier ∧ StoredBy later e entry.val

/-- **Step lemma.** -/
theorem Dated.exec {s : Snap (alertSystem env)} (h : Dated s) (i : Nat) (c : AlertCmd) :
    Dated (s.exec i c) := by
  have hsame : c ≠ .breachDel → (c.exec s.world).2.alerts = s.world.alerts → Dated (s.exec i c) := by
    intro hc halerts entry hentry
    change (c.exec s.world).2.alerts.lookup .waitP90Breach = some entry at hentry
    rw [halerts] at hentry
    obtain ⟨later, e, earlier, hsplit, hstored⟩ := h entry hentry
    refine ⟨⟨i, c, s.world⟩ :: later, e, earlier, ?_, hstored.store, fun x hx => ?_⟩
    · rw [Snap.exec_trace, hsplit]
      rfl
    · rcases List.mem_cons.mp hx with rfl | hx
      · exact hc
      · exact hstored.kept x hx
  cases c with
  | breachDel =>
      intro entry hentry
      exact absurd ((Keyspace.lookup_del_self s.world.alerts AlertKey.waitP90Breach).symm.trans hentry)
        (by simp)
  | breachSet value =>
      intro entry hentry
      have hput := (Keyspace.lookup_put_self s.world.alerts AlertKey.waitP90Breach
        ⟨value, some (s.world.clock + WAIT_P90_SUSTAIN_MS * 2)⟩).symm.trans hentry
      obtain rfl := Option.some.inj hput
      exact ⟨[], _, s.trace, rfl, rfl, fun x hx => absurd hx List.not_mem_nil⟩
  | cooldownSetNX =>
      refine hsame (by simp) ?_
      simp only [AlertCmd.exec]
      split <;> rfl
  | now => exact hsame (by simp) rfl
  | breachGet => exact hsame (by simp) rfl
  | appealCount cutoff => exact hsame (by simp) rfl
  | post url alert => exact hsame (by simp) rfl

/-! ## What calls read -/

/-- Call `i` has read this time. -/
def HasReadAt (trace : List (Entry (alertSystem env))) (i nowMs : Nat) : Prop :=
  ∃ e ∈ trace, e.call = i ∧ e.cmd = .now ∧ e.before.clock = nowMs

/-- Call `i` has found this value, and it had been stored and not removed. -/
def HasFound (trace : List (Entry (alertSystem env))) (i : Nat) (value : String) : Prop :=
  ∃ after g later e earlier, trace = after ++ g :: (later ++ e :: earlier) ∧ g.call = i ∧
    g.cmd = .breachGet ∧ StoredBy later e value

theorem HasFound.cons {trace : List (Entry (alertSystem env))} {i : Nat} {value : String}
    (h : HasFound trace i value) (x : Entry (alertSystem env)) : HasFound (x :: trace) i value := by
  obtain ⟨after, g, later, e, earlier, rfl, hrest⟩ := h
  exact ⟨x :: after, g, later, e, earlier, rfl, hrest⟩

/-- Every value that is found has been stored. -/
def Founded (s : Snap (alertSystem env)) : Prop :=
  ∀ g ∈ s.trace, g.cmd = .breachGet → ∀ value,
    g.before.alerts.get g.before.clock .waitP90Breach = some value → HasFound s.trace g.call value

/-- **Run lemma.** -/
theorem founded_run {w : AlertWorld} (hw : w.alerts = []) (es : List (Event (alertSystem env))) :
    Founded ((Config.initial w).run es).toSnap := by
  have hes : (Config.initial w : Config (alertSystem env)).Obeys (fun _ _ => True) es :=
    Config.obeys_of_forall (fun _ _ => trivial) _ _
  have hstart : Dated (⟨w, []⟩ : Snap (alertSystem env)) ∧ Founded (⟨w, []⟩ : Snap (alertSystem env)) := by
    refine ⟨fun entry hentry => ?_, fun g hg => absurd hg List.not_mem_nil⟩
    change w.alerts.lookup .waitP90Breach = some entry at hentry
    rw [hw] at hentry
    cases hentry
  refine (Config.run_induct
    (P := fun c : Config (alertSystem env) => Dated c.toSnap ∧ Founded c.toSnap) ?_ es _ hes hstart).2
  rintro c ev - ⟨hdated, hfounded⟩
  cases ev with
  | start o => exact ⟨hdated, hfounded⟩
  | env e =>
      refine ⟨?_, hfounded⟩
      cases e with
      | tick ms => exact hdated
      | appeals rows => exact hdated
      | webhook answer => exact hdated
  | step i =>
      cases hp : c.pending i with
      | none =>
          rw [Config.next_step_of_pending_none hp]
          exact ⟨hdated, hfounded⟩
      | some cmd =>
          obtain ⟨o, k, hc⟩ := Config.pending_eq_some.mp hp
          rw [Config.next_step_of_call hc]
          refine ⟨hdated.exec i cmd, fun g hg hcmd value hvalue => ?_⟩
          rcases List.mem_cons.mp hg with rfl | hg
          · obtain ⟨entry, hentry, rfl⟩ := Keyspace.get_eq_some.mp hvalue
            obtain ⟨later, e, earlier, hsplit, hstored⟩ :=
              hdated entry (Option.filter_eq_some_iff.mp hentry).1
            refine ⟨[], _, later, e, earlier, ?_, rfl, hcmd, hstored⟩
            rw [Snap.exec_trace, hsplit]
            rfl
          · exact (hfounded g hg hcmd value hvalue).cons _

/-! ## Calls -/

/-- The wait of the snapshot is too long. -/
def TooLong (snapshot : StageGateSnapshot) : Prop :=
  ∃ seconds ∈ snapshot.waitP90Seconds, WAIT_P90_THRESHOLD_SECONDS < seconds

/-- A time is stored that has been read, about a wait that is too long. -/
def StoresRead (trace : List (Entry (alertSystem env))) (o : AlertOp) (i : Nat) : AlertCmd → Prop
  | .breachSet value => ∃ nowMs, value = toString nowMs ∧ HasReadAt trace i nowMs ∧ TooLong o.snapshot
  | _ => True

/-- Times and values are those on the trace. -/
def AlertAnswer (trace : List (Entry (alertSystem env))) (i : Nat) :
    (c : AlertCmd) → Except Err c.Res → Prop
  | .now, r => ∀ nowMs, r = .ok nowMs → HasReadAt trace i nowMs
  | .breachGet, r => ∀ value, r = .ok (some value) → HasFound trace i value
  | _, _ => True

/-- The wait is too long, and the call has found a time two hours before one
that it has read. -/
def Lasted (trace : List (Entry (alertSystem env))) (o : AlertOp) (i : Nat) : Prop :=
  TooLong o.snapshot ∧ ∃ nowMs value breachStartedMs, HasReadAt trace i nowMs ∧
    HasFound trace i value ∧ parseInt value = some breachStartedMs ∧
      breachStartedMs + (WAIT_P90_SUSTAIN_MS : Int) ≤ nowMs

section Calls

variable {trace : List (Entry (alertSystem env))} {o : AlertOp} {i : Nat}

theorem meets_judgeBreach {nowMs : Nat} {existing : Option String} (hlong : TooLong o.snapshot)
    (hread : HasReadAt trace i nowMs) (hfound : ∀ value, existing = some value → HasFound trace i value) :
    (Alerting.judgeBreach nowMs existing).Meets (StoresRead trace o i) (AlertAnswer trace i)
      fun r => r = .ok true → Lasted trace o i := by
  unfold Alerting.judgeBreach
  cases hparsed : (existing.filter (· ≠ "")).bind parseInt with
  | none =>
      refine ⟨⟨nowMs, rfl, hread, hlong⟩, fun r _ => ?_⟩
      cases r with
      | ok _ => exact fun h => by cases h
      | error e => exact fun h => by cases h
  | some breachStartedMs =>
      obtain ⟨value, hvalue, hparse⟩ := Option.bind_eq_some_iff.mp hparsed
      refine Proc.meets_pure fun h => ⟨hlong, nowMs, value, breachStartedMs, hread,
        hfound value (Option.filter_eq_some_iff.mp hvalue).1, hparse, ?_⟩
      have hle : (WAIT_P90_SUSTAIN_MS : Int) ≤ nowMs - breachStartedMs :=
        of_decide_eq_true (Except.ok.inj h)
      omega

theorem meets_isSustainedWaitBreach :
    (Alerting.isSustainedWaitBreach o.snapshot.waitP90Seconds).Meets (StoresRead trace o i)
      (AlertAnswer trace i) fun r => r = .ok true → Lasted trace o i := by
  unfold Alerting.isSustainedWaitBreach
  cases hlong : o.snapshot.waitP90Seconds.filter (WAIT_P90_THRESHOLD_SECONDS < ·) with
  | none =>
      refine ⟨trivial, fun r _ => ?_⟩
      cases r with
      | ok _ => exact fun h => by cases h
      | error e => exact fun h => by cases h
  | some seconds =>
      obtain ⟨hseconds, hlt⟩ := Option.filter_eq_some_iff.mp hlong
      refine ⟨trivial, fun r hread => ?_⟩
      cases r with
      | error e => exact fun h => by cases h
      | ok nowMs =>
          refine ⟨trivial, fun r hfound => ?_⟩
          cases r with
          | error e => exact fun h => by cases h
          | ok existing =>
              exact meets_judgeBreach ⟨seconds, hseconds, of_decide_eq_true hlt⟩ (hread nowMs rfl)
                fun value h => hfound value (congrArg Except.ok h)

theorem sustained_of_mem_alertReasons {alertEnv : AlertEnv} {snapshot : StageGateSnapshot} {sustained : Bool}
    {backlog : Nat} {x : Option Rat}
    (h : .waitP90 x ∈ alertReasons alertEnv snapshot sustained backlog) : sustained = true := by
  unfold alertReasons at h
  rcases List.mem_append.mp h with h | h
  · rcases List.mem_append.mp h with h | h
    · obtain ⟨severe, -, hsevere⟩ := List.mem_map.mp h
      cases hsevere
    · cases sustained with
      | false => cases h
      | true => rfl
  · split at h
    · cases List.mem_singleton.mp h
    · cases h

theorem meets_alertFor {snapshot : StageGateSnapshot} {reasons : List AlertReason} :
    (Alerting.alertFor env snapshot reasons).Meets (StoresRead trace o i) (AlertAnswer trace i)
      fun r => ∀ a, r = .ok a → a.reasons = reasons := by
  have hpost : (Alerting.sendAutoPauseAlert env snapshot reasons).Conforms
      (StoresRead trace o i) True := by
    refine Proc.Conforms.bind (Proc.conforms_await trivial) fun allowed => ?_
    split
    · unfold Alerting.postAlert
      split
      · exact Proc.conforms_pure _
      · exact Proc.Conforms.tryCatch (Proc.conforms_await trivial) fun _ => Proc.conforms_pure _
    · exact Proc.conforms_pure _
  unfold Alerting.alertFor
  split
  · exact Proc.meets_pure fun a h => by
      rw [← Except.ok.inj h]
  · refine (hpost.keeps trivial).bind (fun sent _ => ?_) fun e _ a h => by cases h
    exact Proc.meets_pure fun a h => by
      rw [← Except.ok.inj h]

theorem meets_evaluateAndAlert :
    (Alerting.evaluateAndAlert env o.snapshot).Meets (StoresRead trace o i) (AlertAnswer trace i)
      fun r => ∀ a x, r = .ok a → .waitP90 x ∈ a.reasons → Lasted trace o i := by
  have hcount : (Alerting.getAppealBacklogBreachCount env).Conforms (StoresRead trace o i) True :=
    Proc.Conforms.bind (Proc.conforms_await trivial) fun _ => Proc.conforms_await trivial
  refine meets_isSustainedWaitBreach.bind (fun sustained hlasted => ?_) fun e _ a x h => by cases h
  refine (hcount.keeps trivial).bind (fun backlog _ => ?_) fun e _ a x h => by cases h
  refine meets_alertFor.mono (fun _ h => h) fun r hr a x ha hx => ?_
  rw [hr a ha] at hx
  obtain rfl := sustained_of_mem_alertReasons hx
  exact hlasted rfl

end Calls

/-! ## The result -/

/-- The answers of a run are on its trace. -/
theorem alertAnswers {w : AlertWorld} (hw : w.alerts = []) (es : List (Event (alertSystem env))) :
    ∀ e ∈ ((Config.initial w).run es).trace,
      AlertAnswer ((Config.initial w).run es).trace e.call e.cmd e.res := by
  have hfounded := founded_run hw es
  rintro ⟨i, cmd, before⟩ he
  cases cmd with
  | now => exact fun nowMs h => ⟨_, he, rfl, rfl, Except.ok.inj h⟩
  | breachGet => exact fun value h => hfounded _ he rfl value (Except.ok.inj h)
  | _ => trivial

/-- **A wait that is reported has lasted.** In every interleaving that finds no
key: if a call reports the wait, then this is too long in its snapshot, and the
call has found a time in the key, two hours before one it has read, that an
evaluation had read and stored about a wait that was too long, and no
evaluation had removed the key from then on. -/
theorem wait_reported {w : AlertWorld} (hw : w.alerts = []) {es : List (Event (alertSystem env))}
    {i : Nat} {o : AlertOp} {r : AlertResult} {x : Option Rat} :
    let c := (Config.initial w).run es
    c.Settled i o (.ok r) → .waitP90 x ∈ r.reasons → TooLong o.snapshot ∧
      ∃ (after : List (Entry (alertSystem env))) (g : Entry (alertSystem env))
        (later : List (Entry (alertSystem env))) (e : Entry (alertSystem env))
        (earlier : List (Entry (alertSystem env))) (breachStartedMs nowMs : Nat)
        (o' : (alertSystem env).Op) (p : _),
        c.trace = after ++ g :: (later ++ e :: earlier) ∧ g.call = i ∧ g.cmd = .breachGet ∧
        e.cmd = .breachSet (toString breachStartedMs) ∧ (∀ y ∈ later, y.cmd ≠ .breachDel) ∧
        c.calls[e.call]? = some ⟨o', p⟩ ∧ TooLong o'.snapshot ∧
        HasReadAt c.trace e.call breachStartedMs ∧ HasReadAt c.trace i nowMs ∧
        breachStartedMs + WAIT_P90_SUSTAIN_MS ≤ nowMs := by
  intro c hsettled hreason
  have hcode : ∀ (o : AlertOp) i, (Alerting.evaluateAndAlert env o.snapshot).Meets
      (StoresRead c.trace o i) (AlertAnswer c.trace i)
      fun r => ∀ a x, r = .ok a → .waitP90 x ∈ a.reasons → Lasted c.trace o i :=
    fun o i => meets_evaluateAndAlert
  have hcourse := Config.run_meets hcode w es (alertAnswers hw es)
  obtain ⟨hlong, nowMs, value, started, hread, hfound, hparse, hle⟩ :=
    hcourse.settled hsettled r x rfl hreason
  obtain ⟨after, g, later, e, earlier, hsplit, hcall, hget, hstored⟩ := hfound
  have he : e ∈ c.trace := by
    rw [hsplit]
    exact List.mem_append_right after (.tail _ (List.mem_append_right later List.mem_cons_self))
  obtain ⟨o', p, hcalled, hstores⟩ := hcourse.issued e he
  rw [hstored.store] at hstores
  obtain ⟨breachStartedMs, rfl, hread', hlong'⟩ := hstores
  rw [parseInt_toString] at hparse
  obtain rfl := Option.some.inj hparse
  exact ⟨hlong, after, g, later, e, earlier, breachStartedMs, nowMs, o', p, hsplit, hcall, hget,
    hstored.store, hstored.kept, hcalled, hlong', hread', hread, by omega⟩

/-- A snapshot with a wait of 200 seconds. -/
def slowSnapshot : StageGateSnapshot :=
  ⟨0, 1, none, some 200, none, none, none, none, none, none, none, .GREEN, .GREEN, .GREEN, false, []⟩

/-- Nothing is stored. -/
def quietAlerts : AlertWorld := ⟨5, [], [], [], .ok true⟩

/-- Two evaluations, two hours apart. -/
def twoHoursOfWaiting : List (Event (alertSystem ⟨none, none, none, none⟩)) :=
  [.start ⟨slowSnapshot⟩, .step 0, .step 0, .step 0, .step 0, .step 0,
    .env (.tick WAIT_P90_SUSTAIN_MS),
    .start ⟨slowSnapshot⟩, .step 1, .step 1, .step 1, .step 1, .step 1]

theorem wait_reported_twoHoursOfWaiting :
    let c := (Config.initial quietAlerts).run twoHoursOfWaiting
    TooLong slowSnapshot ∧
      ∃ (after : List (Entry (alertSystem ⟨none, none, none, none⟩)))
        (g : Entry (alertSystem ⟨none, none, none, none⟩))
        (later : List (Entry (alertSystem ⟨none, none, none, none⟩)))
        (e : Entry (alertSystem ⟨none, none, none, none⟩))
        (earlier : List (Entry (alertSystem ⟨none, none, none, none⟩)))
        (breachStartedMs nowMs : Nat)
        (o' : (alertSystem ⟨none, none, none, none⟩).Op) (p : _),
        c.trace = after ++ g :: (later ++ e :: earlier) ∧ g.call = 1 ∧ g.cmd = .breachGet ∧
        e.cmd = .breachSet (toString breachStartedMs) ∧ (∀ y ∈ later, y.cmd ≠ .breachDel) ∧
        c.calls[e.call]? = some ⟨o', p⟩ ∧ TooLong o'.snapshot ∧
        HasReadAt c.trace e.call breachStartedMs ∧ HasReadAt c.trace 1 nowMs ∧
        breachStartedMs + WAIT_P90_SUSTAIN_MS ≤ nowMs := by
  have hsettled : ((Config.initial quietAlerts).run twoHoursOfWaiting).Settled 1 ⟨slowSnapshot⟩
      (.ok ⟨true, [.waitP90 (some 200)], false⟩) := rfl
  exact wait_reported rfl hsettled List.mem_cons_self

end VerityBackend.Telemetry
