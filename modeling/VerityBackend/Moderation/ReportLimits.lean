/-
VerityBackend.Moderation.ReportLimits — many reports at once.

`createReport` counts the reports of the last day and then files one more,
and it reads the escalation counter and then writes the next number. Both
hold (`limits_survive`) as long as nobody files or counts between the two
halves; `limits_lost` is a run in which somebody does both.
-/
import VerityBackend.Async.Commit
import VerityBackend.Async.Windows
import VerityBackend.Backend.Frames
import VerityBackend.Moderation.Issued

namespace VerityBackend.Moderation

open Async Store

/-- A call of `createReport`. -/
structure Filing where
  reporterId : UserId
  input : ReportUserDto
  deriving DecidableEq, Repr

@[reducible] def filings : Service where
  Op := Filing
  Ret := fun _ => ModerationReport
  code := fun f => createReport f.reporterId f.input

/-- The reports of a user that fall into the 24 hours from `t` on. -/
def reportsIn (w : World) (reporterId : UserId) (t : Nat) : Nat :=
  w.db.reports.countP fun r =>
    r.reporterId = reporterId ∧ t ≤ r.createdAt ∧ r.createdAt ≤ t + REPORT_SPAM_WINDOW_MS

/-- Nobody has reported too often in any 24 hours. -/
def WithinLimit (w : World) : Prop :=
  ∀ reporterId t, reportsIn w reporterId t ≤ MAX_REPORTS_PER_USER_PER_DAY

/-- The calls against `u` that have returned. -/
def returnedAgainst (u : UserId) (c : Config filings.system) : Nat :=
  c.calls.countP fun t => (t.1.input.reportedUserId == u) && Config.returnedOk t

/-- All counters are the numbers of the calls that have returned. -/
def CountersExact (c : Config filings.system) : Prop :=
  ∀ u, reportCountOf (c.world.get (.userReports u)) = returnedAgainst u c

/-- All of it happens in the 24 hours from `start` on. -/
def WithinADay (start : Nat) (c : Config filings.system) : Event filings.system → Prop
  | .env (.tick ms) => c.world.clock + ms < start + REPORT_SPAM_WINDOW_MS
  | _ => True

instance (start : Nat) (c : Config filings.system) (e : Event filings.system) :
    Decidable (WithinADay start c e) :=
  match e with
  | .env (.tick ms) => inferInstanceAs (Decidable (c.world.clock + ms < start + REPORT_SPAM_WINDOW_MS))
  | .start _ | .step _ => .isTrue trivial

/-- Who files a report of the reporter. -/
def files (reporterId : UserId) : Cmd → Bool
  | .db (.reportTransaction reporterId' _ _ _) => reporterId' == reporterId
  | _ => false

def counts (reporterId : UserId) : Cmd → Bool
  | .db (.reportCount reporterId' _) => reporterId' == reporterId
  | _ => false

/-- The counter of `u` is written. -/
def bumps (u : UserId) : Cmd → Bool
  | .redis (.set (.userReports u') _ _) => u' == u
  | _ => false

def reads (u : UserId) : Cmd → Bool
  | .redis (.get (.userReports u')) => u' == u
  | _ => false

/-- Since the call has counted the reports of the reporter, none has been
filed; since it has read the counter, nobody has written it. -/
def unraced (s : Snap filings.system) (i : Nat) : Cmd → Bool
  | .db (.reportTransaction reporterId _ _ _) => s.undisturbed i (counts reporterId) (files reporterId)
  | .redis (.set (.userReports u) _ _) => s.undisturbed i (reads u) (bumps u)
  | _ => true

/-- No two reports overlap there. -/
def UnracedStep (c : Config filings.system) : Event filings.system → Prop
  | .step i => (c.pending i).all (unraced c.toSnap i) = true
  | _ => True

instance (c : Config filings.system) (e : Event filings.system) : Decidable (UnracedStep c e) :=
  match e with
  | .step i => inferInstanceAs (Decidable ((c.pending i).all (unraced c.toSnap i) = true))
  | .start _ | .env _ => .isTrue trivial

/-! ## The commands of a report -/

section Commands

/-- What may follow the write of the counter. -/
def Trailing : Cmd → Prop
  | .redis (.get _) | .redis (.zrem _ _) | .redis (.del _) | .host (.emit _) => True
  | _ => False

theorem trailing_await {c : Cmd} (h : Trailing c) :
    (Proc.await c : Prog c.Res).Conforms Trailing False := Proc.conforms_await h

theorem trailing_removeFromQueueIfPresent (u : UserId) :
    (removeFromQueueIfPresent u).Conforms Trailing False :=
  (removeFromQueueIfPresent_issues u).mono fun c hc => by cases hc <;> trivial

/-- A call commits with the write of the counter. -/
theorem commits_createReport (f : Filing) :
    (createReport f.reporterId f.input).Commits (bumps f.input.reportedUserId) Trailing := by
  have hquiet {c : Cmd} (hc : bumps f.input.reportedUserId c = false) :
      (Proc.await c : Prog c.Res).Conforms (fun c => bumps f.input.reportedUserId c = false) True :=
    Proc.conforms_await hc
  unfold createReport
  split
  · exact Proc.commits_fail _
  · dsimp only
    split
    · exact Proc.commits_fail _
    · refine .after (hquiet rfl) fun now => .after (hquiet rfl) fun count => ?_
      split
      · exact Proc.commits_fail _
      · refine .after (hquiet rfl) fun report => ?_
        unfold bumpReportEscalation
        rw [Proc.bind_eq, Proc.bind_eq, Proc.bind_assoc]
        refine .after (hquiet rfl) fun currentRaw => Proc.commits_await ?_ fun _ => ?_
        · exact beq_self_eq_true _
        · refine (trailing_removeFromQueueIfPresent _).bind fun _ => ?_
          refine (trailing_await ?_).bind fun _ => Proc.conforms_pure _
          trivial

/-- Other counters are left alone. -/
theorem quiet_createReport {u : UserId} {f : Filing} (h : f.input.reportedUserId ≠ u) :
    (createReport f.reporterId f.input).Conforms (fun c => bumps u c = false) True := by
  refine (createReport_issues f.reporterId f.input).mono fun c hc => ?_
  cases hc with
  | writeCounter number => exact beq_false_of_ne h
  | remove hc => cases hc <;> rfl
  | _ => rfl

theorem answered_bumps (u : UserId) : Config.Answered (S := filings.system) (bumps u) Trailing where
  commit c w hc := by
    cases c with
    | redis c => exact ⟨_, rfl⟩
    | db c => cases hc
    | host c => cases hc
  after c w hc := by
    cases c with
    | redis c =>
        refine ⟨?_, _, rfl⟩
        cases c with
        | set k v ttl => exact hc.elim
        | _ => rfl
    | db c => exact hc.elim
    | host c =>
        cases c with
        | emit os => exact ⟨rfl, _, rfl⟩
        | _ => exact hc.elim

end Commands

/-! ## Runs -/

section Runs

variable {start : Nat} {s : Snap filings.system} {i : Nat} {c : Cmd}

/-- The counter of `u` is the number of times it has been written. -/
inductive Counted (start : Nat) (u : UserId) (s : Snap filings.system) : Prop
  | unwritten (hunwritten : s.trace.countP (fun e => bumps u e.cmd) = 0)
      (habsent : s.world.get (.userReports u) = none)
  | written (expiresAt : Nat)
      (hstored : s.world.stored (.userReports u) =
        some ⟨.text (toString (s.trace.countP fun e => bumps u e.cmd)), some expiresAt⟩)
      (hlasts : start + REPORT_SPAM_WINDOW_MS ≤ expiresAt)

/-- What holds while nobody is raced. -/
structure Kept (start : Nat) (s : Snap filings.system) : Prop where
  started : start ≤ s.world.clock
  within : s.world.clock < start + REPORT_SPAM_WINDOW_MS
  limit : WithinLimit s.world
  counted : ∀ u, Counted start u s

theorem Counted.value {u : UserId} (h : Counted start u s)
    (hwithin : s.world.clock < start + REPORT_SPAM_WINDOW_MS) :
    reportCountOf (s.world.get (.userReports u)) = (s.trace.countP fun e => bumps u e.cmd : Nat) := by
  cases h with
  | unwritten hunwritten habsent =>
      rw [habsent, hunwritten]
      rfl
  | written expiresAt hstored hlasts =>
      rw [World.get_of_stored hstored (by omega), reportCountOf, parseInt_toString]
      rfl

/-- A command that does not touch the counter. -/
theorem Counted.exec {u : UserId} (h : Counted start u s) (hkeeps : ¬c.touches (.userReports u))
    (hquiet : bumps u c = false) : Counted start u (s.exec i c) := by
  have hstored := Cmd.stored_exec hkeeps s.world
  have hcount : (s.exec i c).trace.countP (fun e => bumps u e.cmd) =
      s.trace.countP fun e => bumps u e.cmd := List.countP_cons_of_neg (by simp [hquiet])
  cases h with
  | unwritten hunwritten habsent =>
      refine .unwritten (hcount.trans hunwritten) ?_
      exact (World.get_congr hstored (c.clock_exec s.world)).trans habsent
  | written expiresAt hbefore hlasts =>
      refine .written expiresAt ?_ hlasts
      rw [hcount]
      exact hstored.trans hbefore

/-- The counter is written with its successor. -/
theorem Counted.bump {u : UserId} (h : Counted start u s) (hstarted : start ≤ s.world.clock)
    (hwithin : s.world.clock < start + REPORT_SPAM_WINDOW_MS) {v : RedisString}
    (hv : v = .text (toString (reportCountOf (s.world.get (.userReports u)) + 1))) :
    Counted start u
      (s.exec i (.redis (.set (.userReports u) v (some REPORT_ESCALATION_TTL_MS)))) := by
  have hcount : (s.exec i (.redis (.set (.userReports u) v (some REPORT_ESCALATION_TTL_MS)))).trace.countP
      (fun e => bumps u e.cmd) = s.trace.countP (fun e => bumps u e.cmd) + 1 :=
    List.countP_cons_of_pos (beq_self_eq_true u)
  refine .written (s.world.clock + REPORT_ESCALATION_TTL_MS) ?_ (Nat.add_le_add_right hstarted _)
  rw [hcount]
  refine (World.stored_set_self _ _ _ _).trans ?_
  rw [hv, h.value hwithin]
  rfl

/-- Time passes, and the counter is still there. -/
theorem Counted.tick {u : UserId} (h : Counted start u s) (ms : Nat) :
    Counted start u ⟨s.world.env (.tick ms), s.trace⟩ := by
  cases h with
  | unwritten hunwritten habsent =>
      refine .unwritten hunwritten ?_
      cases hget : (s.world.env (.tick ms)).get (.userReports u) with
      | none => rfl
      | some r =>
          have hbefore := World.get_of_get_tick hget
          rw [habsent] at hbefore
          cases hbefore
  | written expiresAt hstored hlasts => exact .written expiresAt hstored hlasts

/-- A report is filed, if both are users. -/
theorem reports_file (f : Filing) (details : Option String) (w : World) :
    ((DbCmd.reportTransaction f.reporterId f.input.reportedUserId f.input.reason details).exec w).2.db.reports =
        w.db.reports ∨
      ((DbCmd.reportTransaction f.reporterId f.input.reportedUserId f.input.reason details).exec w).2.db.reports =
        w.db.reports ++ [⟨freshId w.nextId, w.clock, f.reporterId, f.input.reportedUserId, f.input.reason,
          details, "OPEN"⟩] := by
  by_cases husers : (w.db.hasUser f.reporterId && w.db.hasUser f.input.reportedUserId) = true
  · right
    simp only [DbCmd.exec, if_pos husers]
    split
    · rfl
    · split <;> rfl
  · left
    simp only [DbCmd.exec, if_neg husers]

/-- A report is filed while there is room. -/
theorem WithinLimit.file {w : World} (h : WithinLimit w) {f : Filing} {details : Option String}
    (hroom : w.db.reports.countP (fun r => r.reporterId = f.reporterId ∧
      w.clock - REPORT_SPAM_WINDOW_MS ≤ r.createdAt) < MAX_REPORTS_PER_USER_PER_DAY) :
    WithinLimit ((DbCmd.reportTransaction f.reporterId f.input.reportedUserId f.input.reason
      details).exec w).2 := by
  intro reporterId t
  unfold reportsIn
  rcases reports_file f details w with hreports | hreports
  · rw [hreports]
    exact h reporterId t
  · rw [hreports, List.countP_append, List.countP_singleton]
    split
    · next hin =>
        simp only [decide_eq_true_eq] at hin
        obtain ⟨rfl, hfrom, huntil⟩ := hin
        have hwindow : w.db.reports.countP (fun r => r.reporterId = f.reporterId ∧
            t ≤ r.createdAt ∧ r.createdAt ≤ t + REPORT_SPAM_WINDOW_MS) ≤
            w.db.reports.countP fun r => r.reporterId = f.reporterId ∧
              w.clock - REPORT_SPAM_WINDOW_MS ≤ r.createdAt := by
          refine List.countP_mono_left fun r _ hr => ?_
          simp only [decide_eq_true_eq] at hr ⊢
          exact ⟨hr.1, by omega⟩
        omega
    · exact h reporterId t

/-- **Step lemma** for commands: a report finds room, and the number that is
written continues the stored one. -/
theorem Kept.exec (h : Kept start s) {f : Filing} (hc : ReportCommand f.reporterId f.input c)
    (hroom : ∀ details, c = .db (.reportTransaction f.reporterId f.input.reportedUserId
      f.input.reason details) → s.world.db.reports.countP (fun r => r.reporterId = f.reporterId ∧
        s.world.clock - REPORT_SPAM_WINDOW_MS ≤ r.createdAt) < MAX_REPORTS_PER_USER_PER_DAY)
    (hnext : ∀ v, c = .redis (.set (.userReports f.input.reportedUserId) v
      (some REPORT_ESCALATION_TTL_MS)) →
        v = .text (toString (reportCountOf (s.world.get (.userReports f.input.reportedUserId)) + 1))) :
    Kept start (s.exec i c) := by
  have hclock : (s.exec i c).world.clock = s.world.clock := c.clock_exec s.world
  refine ⟨by rw [hclock]; exact h.started, by rw [hclock]; exact h.within, ?_, fun u => ?_⟩
  · cases hc with
    | file details => exact h.limit.file (hroom details rfl)
    | remove hc => cases hc <;> exact h.limit
    | _ => exact h.limit
  · cases hc with
    | remove hc =>
        cases hc with
        | clear => exact (h.counted u).exec (by simp [Cmd.touches]) rfl
        | _ => exact (h.counted u).exec (fun htouch => htouch) rfl
    | writeCounter number =>
        by_cases hu : f.input.reportedUserId = u
        · subst hu
          exact (h.counted _).bump h.started h.within (hnext _ rfl)
        · refine (h.counted u).exec ?_ (beq_false_of_ne hu)
          simpa [Cmd.touches] using Ne.symm hu
    | _ => exact (h.counted u).exec (fun htouch => htouch) rfl

/-- Time passes within the day. -/
theorem Kept.tick (h : Kept start s) {ms : Nat} (hday : s.world.clock + ms < start + REPORT_SPAM_WINDOW_MS) :
    Kept start ⟨s.world.env (.tick ms), s.trace⟩ :=
  ⟨Nat.le_trans h.started (Nat.le_add_right _ _), hday, h.limit, fun u => (h.counted u).tick ms⟩

/-! ## Between two halves -/

/-- The commands that calls of `createReport` execute. -/
def Filed (c : Cmd) : Prop := ∃ f : Filing, ReportCommand f.reporterId f.input c

/-- Room has been found for one more report. -/
def roomFor (reporterId : UserId) (since : Nat) : Window filings.system Filed where
  opens := counts reporterId
  disturbs := files reporterId
  fact w := w.db.reports.countP (fun r => r.reporterId = reporterId ∧ since ≤ r.createdAt) <
    MAX_REPORTS_PER_USER_PER_DAY
  exec := by
    rintro c w ⟨f, hc⟩ hquiet hroom
    cases hc with
    | file details =>
        have hne : f.reporterId ≠ reporterId := ne_of_beq_false hquiet
        change List.countP _ ((DbCmd.reportTransaction f.reporterId f.input.reportedUserId
          f.input.reason details).exec w).2.db.reports < _
        rcases reports_file f details w with hreports | hreports
        · rwa [hreports]
        · rw [hreports, List.countP_append, List.countP_singleton, if_neg (by simp [hne])]
          exact hroom
    | remove hc => cases hc <;> exact hroom
    | _ => exact hroom
  env e w h := h

/-- The counter is what has been read. -/
def counterIs (u : UserId) (x : Option (Stamped RedisString)) : Window filings.system Filed where
  opens := reads u
  disturbs := bumps u
  fact w := w.stored (.userReports u) = x
  exec := by
    rintro c w ⟨f, hc⟩ hquiet hx
    refine (Cmd.stored_exec ?_ w).trans hx
    cases hc with
    | writeCounter number =>
        have hne : f.input.reportedUserId ≠ u := ne_of_beq_false hquiet
        simpa [Cmd.touches] using Ne.symm hne
    | remove hc =>
        cases hc with
        | clear => simp [Cmd.touches]
        | _ => exact fun htouch => htouch
    | _ => exact fun htouch => htouch
  env e w h := h

theorem lasting_clock (t : Nat) : Lasting (S := filings.system) fun w => t ≤ w.clock where
  exec c w h := by
    have hclock : (c.exec w).2.clock = w.clock := c.clock_exec w
    exact h.trans hclock.ge
  env e w h := by
    cases e with
    | tick ms => exact h.trans (Nat.le_add_right _ _)

/-- Within the day the stored counter is seen, or there is none. -/
theorem Counted.value_congr {u : UserId} {s' : Snap filings.system} (h : Counted start u s)
    (h' : Counted start u s') (hwithin : s.world.clock < start + REPORT_SPAM_WINDOW_MS)
    (hwithin' : s'.world.clock < start + REPORT_SPAM_WINDOW_MS)
    (hstored : s'.world.stored (.userReports u) = s.world.stored (.userReports u)) :
    s'.world.get (.userReports u) = s.world.get (.userReports u) := by
  cases h with
  | written expiresAt hbefore hlasts =>
      rw [World.get_of_stored hbefore (by omega), World.get_of_stored (hstored.trans hbefore) (by omega)]
  | unwritten hunwritten habsent =>
      cases h' with
      | unwritten hunwritten' habsent' => rw [habsent, habsent']
      | written expiresAt hafter hlasts =>
          rw [World.get_of_stored (hstored.symm.trans hafter) (by omega)] at habsent
          cases habsent

/-- A call whose halves nobody comes between. -/
abbrev reportLimits (start : Nat) : Discipline filings.system :=
  windows Filed (Kept start) fun i c s => unraced s i c = true

/-- **The procedure**: what it writes, it has just counted or read. -/
theorem createReport_valid (start : Nat) (o f : Filing) (i : Nat) (s : Snap filings.system) :
    (reportLimits start).Valid o i (createReport f.reporterId f.input) (fun _ _ => True) s := by
  have hquiet : ∀ {c : Cmd} {s : Snap filings.system}, ReportCommand f.reporterId f.input c →
      (∀ details, c ≠ .db (.reportTransaction f.reporterId f.input.reportedUserId f.input.reason details)) →
      (∀ v, c ≠ .redis (.set (.userReports f.input.reportedUserId) v (some REPORT_ESCALATION_TTL_MS))) →
      Kept start s → Kept start (s.exec i c) :=
    fun hc hfile hwrite hkept => hkept.exec hc (fun details h => absurd h (hfile details))
      fun v h => absurd h (hwrite v)
  unfold createReport
  split
  · trivial
  dsimp only
  split
  · trivial
  -- the time is read, and the reports of the day before it are counted
  refine Discipline.windows_await ⟨f, .now⟩ fun s₁ _ hkept₁ _ => ⟨hquiet .now nofun nofun hkept₁, ?_⟩
  refine Discipline.windows_await ⟨f, .count _⟩ fun s₂ hawaits₂ hkept₂ _ =>
    ⟨hquiet (.count _) nofun nofun hkept₂, ?_⟩
  have hclock₂ : s₁.world.clock ≤ s₂.world.clock := hawaits₂.lasting (lasting_clock _) (Nat.le_refl _)
  change (reportLimits start).Valid o i (if MAX_REPORTS_PER_USER_PER_DAY ≤ _ then _ else _) _ _
  split
  · trivial
  next hless =>
  have hroom₂ : (roomFor f.reporterId (s₁.world.clock - REPORT_SPAM_WINDOW_MS)).Rests i
      (s₂.exec i (.db (.reportCount f.reporterId (s₁.world.clock - REPORT_SPAM_WINDOW_MS)))) :=
    Window.rests_of_fact (Nat.lt_of_not_le hless)
  -- nobody has filed since the count, so there still is room
  refine Discipline.windows_await ⟨f, .file _⟩ fun s₃ hawaits₃ hkept₃ hunraced₃ => ⟨?_, ?_⟩
  · have hroom₃ := hawaits₃ _ hroom₂ hunraced₃
    have hclock₃ : s₁.world.clock ≤ s₃.world.clock := hawaits₃.lasting (lasting_clock _) hclock₂
    refine hkept₃.exec (.file _) (fun details _ => Nat.lt_of_le_of_lt (List.countP_mono_left ?_) hroom₃)
      nofun
    intro r _ hr
    simp only [decide_eq_true_eq] at hr ⊢
    exact ⟨hr.1, by omega⟩
  generalize (filings.system.exec (.db (.reportTransaction f.reporterId f.input.reportedUserId
    f.input.reason (f.input.details.map jsTrim))) s₃.world).1 = filed
  cases filed with
  | error e => trivial
  | ok report =>
      -- nobody has written the counter since it was read, so its successor is written
      change (reportLimits start).Valid o i ((bumpReportEscalation f.input.reportedUserId).bind _) _ _
      unfold bumpReportEscalation
      rw [Proc.bind_eq, Proc.bind_assoc]
      refine Discipline.windows_await ⟨f, .readCounter⟩ fun s₄ _ hkept₄ _ =>
        ⟨hquiet .readCounter nofun nofun hkept₄, ?_⟩
      have hread : (counterIs f.input.reportedUserId (s₄.world.stored (.userReports f.input.reportedUserId))).Rests
          i (s₄.exec i (.redis (.get (.userReports f.input.reportedUserId)))) := Window.rests_of_fact rfl
      refine Discipline.windows_await ⟨f, .writeCounter _⟩ fun s₅ hawaits₅ hkept₅ hunraced₅ => ⟨?_, ?_⟩
      · have hstored := hawaits₅ _ hread hunraced₅
        have hget := (hkept₄.counted f.input.reportedUserId).value_congr (hkept₅.counted _) hkept₄.within
          hkept₅.within hstored
        refine hkept₅.exec (.writeCounter _) nofun fun v hv => ?_
        cases hv
        rw [hget]
        rfl
      · refine Discipline.windows_conforms (P := fun c => ReportCommand f.reporterId f.input c ∧ Trailing c)
          (J := fun _ => True) ?_ (fun _ _ _ h => h)
          (fun c s hc hkept _ _ => ⟨⟨f, hc.1⟩, hquiet hc.1 ?_ ?_ hkept, trivial⟩) trivial
        · refine ((removeFromQueueIfPresent_issues _).mono fun c hc =>
            ⟨.remove hc, by cases hc <;> trivial⟩).bind fun _ => Proc.Conforms.bind ?_ fun _ =>
              Proc.conforms_pure report
          exact Proc.conforms_await ⟨.tell report _, trivial⟩
        · rintro details rfl
          exact hc.2
        · rintro v rfl
          exact hc.2

end Runs

/-- **Limits and counters survive** any number of reports in a day, however
they are interleaved, if no report of a reporter is filed between the count
and the insert of another one, and no counter written between the read and
the write of another call. -/
theorem limits_survive (w : World) (es : List (Event filings.system)) (hlimit : WithinLimit w)
    (hfresh : ∀ u, w.get (.userReports u) = none)
    (hday : (Config.initial w : Config filings.system).Obeys (WithinADay w.clock) es)
    (hunraced : (Config.initial w).Obeys UnracedStep es) :
    WithinLimit ((Config.initial w).run es).world ∧
      (((Config.initial w).run es).Quiet → CountersExact ((Config.initial w).run es)) := by
  have hstart : Kept w.clock (⟨w, []⟩ : Snap filings.system) :=
    ⟨Nat.le_refl _, Nat.lt_add_of_pos_right (by simp [REPORT_SPAM_WINDOW_MS]), hlimit,
      fun u => .unwritten rfl (hfresh u)⟩
  have hkept : Kept w.clock ((Config.initial w).run es).toSnap := by
    have hobeys : (Config.initial w : Config filings.system).Obeys
        (fun c e => WithinADay w.clock c e ∧ UnracedStep c e) es := Config.obeys_and hday hunraced
    refine Discipline.windows_run (fun o i s => createReport_valid w.clock o o i s)
      (fun c i cmd hok hpending => ?_) (fun c e hok hkept => ?_) hstart hobeys
    · have hall : (c.pending i).all (unraced c.toSnap i) = true := hok.2
      rwa [hpending] at hall
    · cases e with
      | tick ms => exact hkept.tick hok.1
  refine ⟨hkept.limit, fun hquiet u => ?_⟩
  rw [(hkept.counted u).value hkept.within]
  refine congrArg Nat.cast (Config.commits_eq_returned (answered_bumps u) (fun f hsel => ?_)
    (fun f hsel => quiet_createReport (ne_of_beq_false hsel)) w es hquiet)
  obtain rfl : f.input.reportedUserId = u := eq_of_beq hsel
  exact commits_createReport f

def annReportsBob : Filing := ⟨"ann", "bob", "spam", none⟩

theorem limits_survive_two :
    WithinLimit ((Config.initial (World.peopled ["ann", "bob"] 0) : Config filings.system).run
      (.start annReportsBob :: .start annReportsBob :: ((List.replicate 8 (.step 0) :
        List (Event filings.system)) ++
        (.env (.tick 5) :: List.replicate 8 (.step 1) : List (Event filings.system))))).world ∧
    CountersExact ((Config.initial (World.peopled ["ann", "bob"] 0) : Config filings.system).run
      (.start annReportsBob :: .start annReportsBob :: ((List.replicate 8 (.step 0) :
        List (Event filings.system)) ++
        (.env (.tick 5) :: List.replicate 8 (.step 1) : List (Event filings.system))))) :=
  (limits_survive _ _ (fun _ _ => Nat.zero_le _) (fun _ => rfl) (by decide +kernel)
    (by decide +kernel)).imp_right fun h => h (by decide +kernel)

/-- Ann has filed nine reports. -/
def busyDay : World :=
  let report : ModerationReport := ⟨"r", 0, "ann", "cat", "spam", none, "OPEN"⟩
  (World.peopled ["ann", "bob"] 0).mapDb fun d => { d with reports := List.replicate 9 report }

/-- Two reports at once: both are within the limit, and both are the first. -/
theorem limits_lost : ∃ (w : World) (es : List (Event filings.system)), WithinLimit w ∧
    (∀ u, w.get (.userReports u) = none) ∧ (Config.initial w).Obeys (WithinADay w.clock) es ∧
    ((Config.initial w).run es).Quiet ∧ ¬WithinLimit ((Config.initial w).run es).world ∧
    ¬CountersExact ((Config.initial w).run es) := by
  refine ⟨busyDay, .start annReportsBob :: .start annReportsBob ::
    (List.replicate 8 [.step 0, .step 1]).flatten, fun reporterId t => ?_, fun _ => rfl,
    by decide +kernel, by decide +kernel, fun h => ?_, fun h => ?_⟩
  · exact Nat.le_trans List.countP_le_length (by decide)
  · have hann := h "ann" 0
    revert hann
    decide +kernel
  · have hbob := h "bob"
    revert hbob
    decide +kernel

end VerityBackend.Moderation
