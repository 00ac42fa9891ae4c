/-
VerityBackend.Matchmaking.Accounting — where the tokens of the queue go when
no worker runs.

A token taken by `joinQueue` is with a user who waits, or comes back by
`leaveQueue`. Moderation has its own way out of the queue,
`removeFromQueueIfPresent`, and gives nothing back. Whom a call of moderation
takes out can be read off the state it finds (`takenOut`), and the books
balance exactly where it is nobody who waits (`tokens_accounted_iff`).
-/
import VerityBackend.Matchmaking.Refunds

namespace VerityBackend.Matchmaking

open Async Store Queue Moderation

/-- No pass of the worker. -/
def noPass : Op → Bool
  | .processQueueKey _ => false
  | _ => true

/-- `u` is a member of a sorted set. -/
def isMember (u : UserId) (w : World) : Bool := w.redis.queueKeys.any fun k => u ∈ w.zset k

theorem isMember_eq {w : World} (h : Waiting [] (board w)) (u : UserId) :
    isMember u w = ((board w).queued u).isSome := by
  rw [Bool.eq_iff_iff, isMember, List.any_eq_true]
  constructor
  · rintro ⟨k, -, hk⟩
    rw [(h.mem_zset u k).mp (of_decide_eq_true hk)]
    rfl
  · intro hsome
    obtain ⟨k, hk⟩ := Option.isSome_iff_exists.mp hsome
    exact ⟨k, h.listed u k hk, decide_eq_true ((h.mem_zset u k).mpr hk)⟩

/-! ## Whom moderation takes out -/

/-- `createBlock` gets as far as `removeFromQueueIfPresent`: there is no block
yet, or it has been lifted. -/
def blocksAnew (db : Db) (blockerId blockedId : UserId) : Bool :=
  blockerId ≠ blockedId &&
    match db.findBlock blockerId blockedId with
    | none => db.hasUser blockerId && db.hasUser blockedId
    | some existing => existing.liftedAt.isSome

/-- `createReport` does: the report is in order, and the reporter has filed
fewer than ten in the last day. -/
def filesReport (w : World) (reporterId : UserId) (input : ReportUserDto) : Bool :=
  reporterId ≠ input.reportedUserId && !(input.details.map jsTrim).any (500 < jsLength ·) &&
    (w.db.reports.countP fun r => r.reporterId = reporterId ∧
      w.clock - REPORT_SPAM_WINDOW_MS ≤ r.createdAt) < MAX_REPORTS_PER_USER_PER_DAY &&
    (w.db.hasUser reporterId && w.db.hasUser input.reportedUserId)

/-- The user whom the operation takes out of the queue, if its first command
is executed in `w`. -/
def takenOut (w : World) : Op → Option UserId
  | .createReport reporterId input =>
      if filesReport w reporterId input then some input.reportedUserId else none
  | .createBlock blockerId blockedId =>
      if blocksAnew w.db blockerId blockedId then some blockedId else none
  | .resolveReport reportId _ =>
      match w.db.reports.find? (·.id = reportId) with
      | none => none
      | some report =>
          if blocksAnew w.db report.reporterId report.reportedUserId then some report.reportedUserId
          else none
  | _ => none

/-- The act takes `u` out of the queue while `u` waits. -/
def evicts (u : UserId) (p : Past System) : Act System → Bool
  | .call o gaps =>
      isMember u p.world && takenOut (p.toSnap.elapse (gaps.headD [])).world o == some u
  | .env _ => false

section Takes

variable {V : Service} {o : V.Op} {i : Nat} {s : Snap V.system}

theorem db_elapse (s : Snap V.system) (es : List Env) : (s.elapse es).world.db = s.world.db := by
  unfold Snap.elapse
  dsimp only
  induction es generalizing s with
  | nil => rfl
  | cons e es ih =>
      refine (ih ⟨s.world.env e, s.trace⟩).trans ?_
      cases e
      rfl

/-- Commands that do not fail. -/
theorem takes_of_answered {α : Type} {p : Prog α}
    (hp : p.Conforms (fun c => Mild c ∧ ∀ w, ∃ a, (c.exec w).1 = .ok a) False)
    (hw : Waiting [] (board s.world)) :
    Alone o i p (fun r s' => (∃ a, r = .ok a) ∧ Takes none s s') s := by
  refine (Discipline.solo_conforms (J := fun s' => Takes none s s') hp
    (fun s' es h => h.trans ((still_elapse s' es).takes h.moderated.waiting))
    (fun c s' hc h => ⟨h.trans (takes_exec hc.1 h.moderated.waiting), .inl (hc.2 s'.world)⟩)
    ((Still.refl s).takes hw)).weaken ?_
  exact fun r s' h => ⟨h.1.resolve_right id, h.2⟩

/-- One more command on the database. -/
theorem takes_prisma {c : DbCmd} {α : Type} {f : c.Res → Prog α} {out : Option UserId}
    (hc : Mild (.db c)) (hw : Waiting [] (board s.world))
    (h : ∀ s₁ : Snap V.system, s₁.world.db = s.world.db → Waiting [] (board (s₁.exec i (.db c)).world) →
      (Discipline.solo i).Resumes o i f (fun _ s' => Takes out (s₁.exec i (.db c)) s')
        (c.exec s₁.world).1 (s₁.exec i (.db c))) :
    Alone o i ((prisma c).bind f) (fun _ s' => Takes out s s') s := by
  refine Discipline.solo_await fun es => ?_
  have htakes : Takes none s ((s.elapse es).exec i (.db c)) :=
    ((still_elapse s es).takes hw).trans (takes_exec hc ((still_elapse s es).moderated hw).waiting)
  refine Discipline.Resumes.weaken (h (s.elapse es) (db_elapse s es) htakes.moderated.waiting) ?_
  exact fun _ _ h' => htakes.trans h'

theorem exec_blockCreate {a b : UserId} {w : World} (hnone : w.db.findBlock a b = none)
    (hrows : (w.db.hasUser a && w.db.hasUser b) = true) :
    ((DbCmd.blockCreate a b).exec w).1 = .ok ⟨freshId w.nextId, a, b, w.clock, none⟩ := by
  simp only [DbCmd.exec, hnone, hrows]
  rfl

theorem exec_blockCreate_error {a b : UserId} {w : World} (hnone : w.db.findBlock a b = none)
    (hrows : (w.db.hasUser a && w.db.hasUser b) = false) :
    ((DbCmd.blockCreate a b).exec w).1 = .error (.prisma "P2003") := by
  simp only [DbCmd.exec, hnone, hrows]
  rfl

theorem exec_blockReopen {a b : UserId} {w : World} {row : Block}
    (hrow : w.db.findBlock a b = some row) :
    ∃ reopened, ((DbCmd.blockReopen row.id).exec w).1 = .ok reopened := by
  obtain ⟨found, hfound⟩ : ∃ found, w.db.blocks.find? (·.id = row.id) = some found := by
    refine Option.isSome_iff_exists.mp (List.find?_isSome.mpr ⟨row, ?_, by simp⟩)
    exact List.mem_of_find?_eq_some hrow
  exact ⟨{ found with liftedAt := none }, by simp only [DbCmd.exec, hfound]⟩

theorem exec_reportTransaction {a b : UserId} {reason : String} {details : Option String} {w : World}
    (hrows : (w.db.hasUser a && w.db.hasUser b) = true) :
    ∃ report, ((DbCmd.reportTransaction a b reason details).exec w).1 = .ok report := by
  refine ⟨⟨freshId w.nextId, w.clock, a, b, reason, details, "OPEN"⟩, ?_⟩
  unfold DbCmd.exec
  dsimp only
  rw [if_pos hrows]

theorem exec_reportTransaction_error {a b : UserId} {reason : String} {details : Option String}
    {w : World} (hrows : (w.db.hasUser a && w.db.hasUser b) = false) :
    ((DbCmd.reportTransaction a b reason details).exec w).1 = .error (.prisma "P2003") := by
  unfold DbCmd.exec
  dsimp only
  rw [hrows, if_neg Bool.false_ne_true]

/-- The removal, and what is returned after it. -/
theorem takes_removal_bind {α : Type} (u : UserId) {f : Unit → Prog α}
    (hf : ∀ a, (f a).Conforms Mild True) (hw : Waiting [] (board s.world)) :
    Alone o i ((removeFromQueueIfPresent u).bind f) (fun _ s' => Takes (some u) s s') s := by
  refine Discipline.valid_bind ((takes_removeFromQueueIfPresent u hw).weaken ?_)
  rintro (e | a) s₁ h₁
  · exact h₁
  · exact (takes_of_conforms (hf a) h₁.moderated.waiting).weaken fun _ _ h₂ => h₁.trans_none h₂

theorem takes_createBlock (a b : UserId) (hw : Waiting [] (board s.world)) :
    Alone o i (createBlock a b)
      (fun _ s' => Takes (if blocksAnew s.world.db a b then some b else none) s s') s := by
  unfold createBlock
  by_cases hab : a = b
  · have hno : blocksAnew s.world.db a b = false := by simp [blocksAnew, hab]
    rw [if_pos hab, hno]
    exact (Still.refl s).takes hw
  rw [if_neg hab]
  refine takes_prisma (mild_db id id) hw fun s₁ hdb hw₁ => ?_
  change Discipline.Resumes (S := V.system) (.solo i) o i _ _ (.ok (s₁.world.db.findBlock a b)) _
  have hdb₁ : (s₁.exec i (.db (.blockFindUnique a b))).world.db = s.world.db := hdb
  rw [hdb]
  cases hfind : s.world.db.findBlock a b with
  | none =>
      cases hrows : s.world.db.hasUser a && s.world.db.hasUser b with
      | false =>
          have hno : blocksAnew s.world.db a b = false := by simp [blocksAnew, hfind, hrows]
          rw [hno]
          refine takes_prisma (mild_db id id) hw₁ fun s₂ hdb₂ hw₂ => ?_
          rw [hdb₁] at hdb₂
          rw [exec_blockCreate_error (hdb₂ ▸ hfind) (hdb₂ ▸ hrows)]
          exact (Still.refl _).takes hw₂
      | true =>
          have hyes : blocksAnew s.world.db a b = true := by simp [blocksAnew, hab, hfind, hrows]
          rw [hyes]
          refine takes_prisma (mild_db id id) hw₁ fun s₂ hdb₂ hw₂ => ?_
          rw [hdb₁] at hdb₂
          rw [exec_blockCreate (hdb₂ ▸ hfind) (hdb₂ ▸ hrows)]
          exact takes_removal_bind b (fun _ => Proc.conforms_pure _) hw₂
  | some row =>
      cases hlifted : row.liftedAt with
      | none =>
          have hno : blocksAnew s.world.db a b = false := by simp [blocksAnew, hfind, hlifted]
          rw [hno]
          change Alone o i (if row.liftedAt.isNone = true then _ else _) _ _
          rw [hlifted]
          exact (Still.refl _).takes hw₁
      | some liftedAt =>
          have hyes : blocksAnew s.world.db a b = true := by simp [blocksAnew, hab, hfind, hlifted]
          rw [hyes]
          change Alone o i (if row.liftedAt.isNone = true then _ else _) _ _
          rw [hlifted]
          refine takes_prisma (mild_db id id) hw₁ fun s₂ hdb₂ hw₂ => ?_
          rw [hdb₁] at hdb₂
          obtain ⟨reopened, hreopened⟩ := exec_blockReopen (hdb₂ ▸ hfind)
          rw [hreopened]
          exact takes_removal_bind b (fun _ => Proc.conforms_pure _) hw₂

theorem takes_resolveReport (reportId : String) (action : ModerationAction)
    (hw : Waiting [] (board s.world)) :
    Alone o i (resolveReport reportId action)
      (fun _ s' => Takes (takenOut s.world (.resolveReport reportId action)) s s') s := by
  refine takes_prisma (mild_db id id) hw fun s₁ hdb hw₁ => ?_
  cases hfind : s₁.world.db.reports.find? (·.id = reportId) with
  | none =>
      have hout : takenOut s.world (.resolveReport reportId action) = none := by
        simp only [takenOut, ← hdb, hfind]
      have hanswer : ((DbCmd.reportUpdate reportId (reportStatus action)).exec s₁.world).1 =
          .error (.prisma "P2025") := by
        simp only [DbCmd.exec, hfind]
      rw [hout, hanswer]
      exact (Still.refl _).takes hw₁
  | some report =>
      have hout : takenOut s.world (.resolveReport reportId action) =
          if blocksAnew s₁.world.db report.reporterId report.reportedUserId then
            some report.reportedUserId else none := by
        simp only [takenOut, ← hdb, hfind]
      have hexec : (DbCmd.reportUpdate reportId (reportStatus action)).exec s₁.world =
          (.ok { report with status := reportStatus action },
            s₁.world.mapDb (·.setReportStatus reportId (reportStatus action))) := by
        simp only [DbCmd.exec, hfind]
      rw [hout, hexec]
      have hsame : blocksAnew (s₁.exec i (.db (.reportUpdate reportId (reportStatus action)))).world.db
          report.reporterId report.reportedUserId =
            blocksAnew s₁.world.db report.reporterId report.reportedUserId := by
        change blocksAnew ((DbCmd.reportUpdate reportId (reportStatus action)).exec s₁.world).2.db _ _ = _
        rw [hexec]
        rfl
      have hblock := takes_createBlock (o := o) (i := i) report.reporterId report.reportedUserId hw₁
      rw [hsame] at hblock
      refine Discipline.valid_bind (hblock.weaken ?_)
      rintro (e | a) s₂ h₂
      · exact h₂
      · refine (takes_of_conforms ?_ h₂.moderated.waiting).weaken fun _ _ h₃ => h₂.trans_none h₃
        dsimp only
        split
        · exact (Proc.conforms_await (mild_ban _ _)).bind fun _ => (Proc.conforms_await (mild_host _)).bind
            fun _ => (Proc.conforms_await (mild_host _)).bind fun _ => Proc.conforms_pure _
        · exact (Proc.conforms_await (mild_host _)).bind fun _ =>
            (Proc.conforms_await (mild_host _)).bind fun _ => Proc.conforms_pure _

/-- What `createReport` does once it has read the clock, at `s`. -/
theorem takes_fileReport (reporterId : UserId) (input : ReportUserDto)
    (hself : reporterId ≠ input.reportedUserId)
    (hdetails : (input.details.map jsTrim).any (500 < jsLength ·) = false)
    (hw : Waiting [] (board s.world)) :
    Alone o i
      ((prisma (.reportCount reporterId (s.world.clock - REPORT_SPAM_WINDOW_MS))).bind fun reportCount =>
        if MAX_REPORTS_PER_USER_PER_DAY ≤ reportCount then
          Proc.fail (.badRequest "Daily report limit reached")
        else
          (prisma (.reportTransaction reporterId input.reportedUserId input.reason
            (input.details.map jsTrim))).bind fun report =>
              (bumpReportEscalation input.reportedUserId).bind fun _ =>
                (removeFromQueueIfPresent input.reportedUserId).bind fun _ =>
                  (host (.emit [reportSubmittedEvent reporterId report
                    ((input.details.map jsTrim).any (· ≠ ""))])).bind fun _ => pure report)
      (fun _ s' => Takes (if filesReport s.world reporterId input then some input.reportedUserId
        else none) s s') s := by
  refine takes_prisma (mild_db id id) hw fun s₁ hdb hw₁ => ?_
  let count := s.world.db.reports.countP fun r => r.reporterId = reporterId ∧
    s.world.clock - REPORT_SPAM_WINDOW_MS ≤ r.createdAt
  have hanswer : ((DbCmd.reportCount reporterId (s.world.clock - REPORT_SPAM_WINDOW_MS)).exec
      s₁.world).1 = .ok count := by
    simp only [DbCmd.exec, hdb, count]
  rw [hanswer]
  by_cases hlimit : MAX_REPORTS_PER_USER_PER_DAY ≤ count
  · have hno : filesReport s.world reporterId input = false := by
      change (_ && decide (count < MAX_REPORTS_PER_USER_PER_DAY) && _) = false
      rw [decide_eq_false (Nat.not_lt.mpr hlimit), Bool.and_false, Bool.false_and]
    rw [hno]
    change Alone o i (if MAX_REPORTS_PER_USER_PER_DAY ≤ count then _ else _) _ _
    rw [if_pos hlimit]
    exact (Still.refl _).takes hw₁
  change Alone o i (if MAX_REPORTS_PER_USER_PER_DAY ≤ count then _ else _) _ _
  rw [if_neg hlimit]
  have hdb₁ : (s₁.exec i (.db (.reportCount reporterId
    (s.world.clock - REPORT_SPAM_WINDOW_MS)))).world.db = s.world.db := hdb
  refine takes_prisma (mild_db id id) hw₁ fun s₂ hdb₂ hw₂ => ?_
  rw [hdb₁] at hdb₂
  cases hrows : s.world.db.hasUser reporterId && s.world.db.hasUser input.reportedUserId with
  | false =>
      have hno : filesReport s.world reporterId input = false := by simp [filesReport, hrows]
      have herror : ((DbCmd.reportTransaction reporterId input.reportedUserId input.reason
          (input.details.map jsTrim)).exec s₂.world).1 = .error (.prisma "P2003") :=
        exec_reportTransaction_error (hdb₂ ▸ hrows)
      rw [hno, herror]
      exact (Still.refl _).takes hw₂
  | true =>
      have hyes : filesReport s.world reporterId input = true := by
        simp only [filesReport, hrows, hdetails, Bool.and_true, Bool.not_false, Bool.and_eq_true,
          decide_eq_true_eq]
        exact ⟨hself, Nat.lt_of_not_le hlimit⟩
      obtain ⟨report, hreport⟩ : ∃ report, ((DbCmd.reportTransaction reporterId input.reportedUserId
          input.reason (input.details.map jsTrim)).exec s₂.world).1 = .ok report :=
        exec_reportTransaction (hdb₂ ▸ hrows)
      rw [hyes, hreport]
      have hbump : (bumpReportEscalation input.reportedUserId).Conforms
          (fun c => Mild c ∧ ∀ w, ∃ a, (c.exec w).1 = .ok a) False :=
        (Proc.conforms_await ⟨mild_get fun _ hu => (by cases hu), fun _ => ⟨_, rfl⟩⟩).bind fun _ =>
          Proc.conforms_await ⟨mild_set (by trivial) _ _, fun _ => ⟨_, rfl⟩⟩
      refine Discipline.valid_bind ((takes_of_answered hbump hw₂).weaken ?_)
      rintro r s₃ ⟨⟨a, rfl⟩, h₃⟩
      refine (takes_removal_bind input.reportedUserId (fun _ => ?_) h₃.moderated.waiting).weaken
        fun _ _ h₄ => h₃.trans h₄
      exact (Proc.conforms_await (mild_host _)).bind fun _ => Proc.conforms_pure _

end Takes

/-- The operations of moderation. -/
def ofModeration : Op → Bool
  | .joinQueue _ _ => false
  | .leaveQueue _ => false
  | .processQueueKey _ => false
  | _ => true

/-- **A call of moderation** takes out whom `takenOut` names. -/
theorem takes_call {p : Past System} (h : Settled p.world) {o : Op} (ho : ofModeration o = true)
    (gaps : List (List Env)) :
    Takes (takenOut (p.toSnap.elapse (gaps.headD [])).world o) p.toSnap (p.call o gaps).toSnap := by
  have hdb := db_elapse (V := matchmaking) p.toSnap (gaps.headD [])
  cases o with
  | joinQueue u input => cases ho
  | leaveQueue u => cases ho
  | processQueueKey k => cases ho
  | createReport reporterId input =>
      have hrefused : filesReport (p.toSnap.elapse (gaps.headD [])).world reporterId input = false →
          (p.call (.createReport reporterId input) gaps).toSnap = p.toSnap →
          Takes (takenOut (p.toSnap.elapse (gaps.headD [])).world (.createReport reporterId input))
            p.toSnap (p.call (.createReport reporterId input) gaps).toSnap := by
        intro hno hsame
        rw [hsame, takenOut, hno]
        exact (Still.refl _).takes h.waiting
      by_cases hself : reporterId = input.reportedUserId
      · refine hrefused (by simp [filesReport, hself]) ?_
        simp only [Past.call, Op.code, createReport, if_pos hself]
        rfl
      cases hdetails : (input.details.map jsTrim).any (500 < jsLength ·) with
      | true =>
          refine hrefused (by simp [filesReport, hdetails]) ?_
          simp only [Past.call, Op.code, createReport, if_neg hself, hdetails]
          rfl
      | false =>
          let s₁ := p.toSnap.elapse (gaps.headD [])
          have hstill := still_elapse (V := matchmaking) p.toSnap (gaps.headD [])
          have hnow : Takes none p.toSnap (s₁.exec p.done.length (.host .now)) :=
            (hstill.takes h.waiting).trans (takes_exec (mild_host _) (hstill.moderated h.waiting).waiting)
          have hrest := (takes_fileReport (o := Op.createReport reporterId input) (i := p.done.length)
            reporterId input hself hdetails hnow.moderated.waiting).runGapped gaps.tail
          refine hnow.trans ?_
          simp only [Past.call, Op.code, createReport, if_neg hself, hdetails]
          exact hrest
  | createBlock blockerId blockedId =>
      have hrun := (takes_createBlock (o := Op.createBlock blockerId blockedId) (i := p.done.length)
        blockerId blockedId h.waiting).runGapped gaps
      unfold takenOut
      rw [hdb]
      exact hrun
  | unblock blockerId blockedId =>
      exact (takes_of_conforms (o := Op.unblock blockerId blockedId) (i := p.done.length)
        (mild_unblock blockerId blockedId) h.waiting).runGapped gaps
  | resolveReport reportId action =>
      have hrun := (takes_resolveReport (o := Op.resolveReport reportId action) (i := p.done.length)
        reportId action h.waiting).runGapped gaps
      unfold takenOut at hrun ⊢
      rw [hdb]
      exact hrun
  | handleWebhook self sched payload delivery =>
      exact (takes_of_conforms (o := Op.handleWebhook self sched payload delivery) (i := p.done.length)
        (mild_handleWebhook self sched payload delivery) h.waiting).runGapped gaps

/-! ## Without the worker there are no marks -/

/-- There is no mark, and there never was one. -/
def Markless (s : Snap System) : Prop :=
  (∀ v, World.get s.world (.queueMatched v) = none) ∧
    ∀ e ∈ s.trace, ∀ v, World.get e.before (.queueMatched v) = none

theorem markless_env {s : Snap System} (es : List Env) (h : Markless s) : Markless (s.elapse es) := by
  refine ⟨fun v => ?_, h.2⟩
  induction es generalizing s with
  | nil => exact h.1 v
  | cons e es ih =>
      refine ih (s := ⟨World.env e s.world, s.trace⟩) ⟨fun v' => ?_, h.2⟩
      cases e
      cases hr : World.get (World.env (.tick _) s.world) (.queueMatched v') with
      | none => rfl
      | some r =>
          have hbefore := World.get_of_get_tick hr
          rw [h.1 v'] at hbefore
          cases hbefore

theorem markless_exec {s : Snap System} (i : Nat) {c : Cmd}
    (hc : ∀ v, ¬c.writes (.queueMatched v)) (h : Markless s) :
    Markless (Snap.exec s i c) := by
  refine ⟨fun v => ?_, fun e he => ?_⟩
  · cases hr : World.get (c.exec s.world).2 (.queueMatched v) with
    | none => exact hr
    | some r =>
        have hbefore := Cmd.get_of_get_exec (hc v) hr
        rw [h.1 v] at hbefore
        cases hbefore
  · rcases List.mem_cons.mp he with rfl | he
    · exact h.1
    · exact h.2 e he

section Called

variable {o : Op} {r : Except Err o.Ret} {p p' : Past System}

/-- Everybody but the worker leaves the marks alone. -/
theorem Called.unmarked (h : Called o r p p') (hop : noPass o = true) :
    p.Between (fun e => ∀ v, ¬Cmd.writes e.cmd (.queueMatched v)) p'.toSnap := by
  have heffect := h.effect
  have hplain : p.Between (fun e => Plain e.cmd) p'.toSnap →
      p.Between (fun e => ∀ v, ¬Cmd.writes e.cmd (.queueMatched v)) p'.toSnap :=
    fun hbetween => hbetween.mono fun _ hcmd => hcmd.marks
  cases o with
  | joinQueue u input =>
      rcases heffect.1 with ⟨hmoved, -⟩ | ⟨k, position, -, hjoined⟩
      · exact hplain hmoved.plain
      · exact hplain hjoined.plain
  | leaveQueue u =>
      rcases heffect with ⟨hmoved, -⟩ | ⟨k, m, hleft, -⟩
      · exact hplain hmoved.plain
      · exact hleft.found.mono fun _ hfound => hfound.2.2
  | processQueueKey k => cases hop
  | createReport reporterId input => exact hplain (Moderated.plain heffect)
  | createBlock blockerId blockedId => exact hplain (Moderated.plain heffect)
  | unblock blockerId blockedId => exact hplain (Moderated.plain heffect)
  | resolveReport reportId action => exact hplain (Moderated.plain heffect)
  | handleWebhook self sched payload delivery => exact hplain (Moderated.plain heffect)

theorem Called.markless (h : Called o r p p') (hop : noPass o = true) (hp : Markless p.toSnap) :
    Markless p'.toSnap :=
  h.keeps (h.unmarked hop) (fun _ es hs => markless_env es hs) (fun _ i _ hc hs => markless_exec i hc hs)
    hp

/-! ## The books -/

/-- All tokens of `u` that were taken are accounted for, but `n`. -/
def Accounted (u : UserId) (n : Nat) (p : Past System) : Prop :=
  debits p.toSnap u = refunds p.toSnap u + (if ((board p.world).queued u).isSome then 1 else 0) + n

end Called

theorem Accounted.of_deltas {u : UserId} {n m : Nat} {p p' : Past System} (h : Accounted u n p)
    (hdelta : debits p'.toSnap u + refunds p.toSnap u +
        (if ((board p.world).queued u).isSome then 1 else 0) =
      debits p.toSnap u + refunds p'.toSnap u +
        (if ((board p'.world).queued u).isSome then 1 else 0) + m) : Accounted u (n + m) p' := by
  unfold Accounted at h ⊢
  omega

/-- A call of moderation. -/
theorem Accounted.moderated {u : UserId} {n : Nat} {p : Past System} (h : Accounted u n p)
    (hp : Settled p.world) {o : Op} (ho : ofModeration o = true) (gaps : List (List Env)) :
    Accounted u (n + if evicts u p (.call o gaps) then 1 else 0) (p.call o gaps) := by
  have htakes := takes_call hp ho gaps
  refine h.of_deltas ?_
  rw [htakes.moderated.debits, htakes.moderated.refunds, htakes.queued, evicts,
    isMember_eq hp.waiting]
  generalize takenOut (p.toSnap.elapse (gaps.headD [])).world o = out
  by_cases hout : out = some u
  · cases (board p.world).queued u <;> simp [hout]
  · cases (board p.world).queued u <;> simp [hout]

/-- A call that is not of moderation. -/
theorem Accounted.called {u : UserId} {n : Nat} {o : Op} {r : Except Err o.Ret} {p p' : Past System}
    (h : Accounted u n p) (hcalled : Called o r p p') (hop : noPass o = true)
    (ho : ofModeration o = false) (hmarkless : Markless p'.toSnap) : Accounted u n p' := by
  have heffect := hcalled.effect
  have hunmoved : Unmoved p.toSnap p'.toSnap → Accounted u n p' := fun hmoved =>
    h.of_deltas (m := 0) (by rw [hmoved.debits, hmoved.refunds, hmoved.board]; rfl)
  cases o with
  | joinQueue v input =>
      rcases heffect.1 with ⟨hmoved, -⟩ | ⟨k, position, -, hjoined⟩
      · exact hunmoved hmoved
      · refine h.of_deltas (m := 0) ?_
        obtain ⟨joinedAt, user, -, -, hboard⟩ := hjoined.board
        rw [hjoined.debits, hjoined.refunds, hboard, Board.queued_enter _ _ hjoined.named]
        change _ + _ + (if ((board p.world).queued u).isSome then 1 else 0) = _ + _ +
          (if (if u = v then some k else (board p.world).queued u).isSome then 1 else 0) + 0
        by_cases hv : u = v
        · subst hv
          rw [hjoined.free]
          simp
          omega
        · simp [hv]
  | leaveQueue v =>
      rcases heffect with ⟨hmoved, -⟩ | ⟨k, m, hleft, -⟩
      · exact hunmoved hmoved
      · -- no mark was found
        have hm : m = false := by
          obtain ⟨t, ht, e, he, hcmd⟩ := hleft.asked
          obtain ⟨t', ht', hfound⟩ := hleft.found
          cases List.append_cancel_right (ht.symm.trans ht')
          have hnone := hmarkless.2 e (by rw [ht]; exact List.mem_append_left _ he) v
          rw [← (hfound e he).1 hcmd]
          exact congrArg truthy hnone
        subst hm
        refine h.of_deltas (m := 0) ?_
        rw [hleft.debits, hleft.refunds, hleft.without.queued]
        by_cases hv : u = v
        · subst hv
          rw [hleft.queued]
          simp
          omega
        · simp [hv]
  | processQueueKey k => cases hop
  | createReport reporterId input => cases ho
  | createBlock blockerId blockedId => cases ho
  | unblock blockerId blockedId => cases ho
  | resolveReport reportId action => cases ho
  | handleWebhook self sched payload delivery => cases ho

/-- How many tokens of `u` a history loses from `p` on. -/
def lost (u : UserId) : Past System → History → Nat
  | _, [] => 0
  | p, a :: h => (if evicts u p a then 1 else 0) + lost u (p.next a) h

theorem lost_eq_zero {u : UserId} {p : Past System} {h : History} :
    lost u p h = 0 ↔ ∀ h₁ a h₂, h = h₁ ++ a :: h₂ → evicts u (p.run h₁) a = false := by
  induction h generalizing p with
  | nil => simp [lost]
  | cons a h ih =>
      rw [lost, Nat.add_eq_zero_iff, ih]
      constructor
      · rintro ⟨ha, hrest⟩ h₁ b h₂ hsplit
        cases h₁ with
        | nil =>
            obtain ⟨rfl, rfl⟩ := List.cons.inj hsplit
            simpa using ha
        | cons c h₁ =>
            obtain ⟨rfl, htail⟩ := List.cons.inj hsplit
            exact hrest h₁ b h₂ htail
      · intro hall
        refine ⟨?_, fun h₁ b h₂ hsplit => hall (a :: h₁) b h₂ (congrArg (a :: ·) hsplit)⟩
        have ha := hall [] a h rfl
        rw [Past.run_nil] at ha
        rw [ha]
        rfl

/-- **Run lemma**: what is not accounted for is what was lost. -/
theorem accounted_run {h : History} (hops : Only noPass h = true) {u : UserId} {n : Nat}
    {p : Past System} (hp : Settled p.world) (hmarkless : Markless p.toSnap) (hn : Accounted u n p) :
    Accounted u (n + lost u p h) (p.run h) := by
  induction h generalizing n p with
  | nil => exact hn
  | cons a h ih =>
      obtain ⟨hop, hrest⟩ := Bool.and_eq_true_iff.mp hops
      rw [lost, ← Nat.add_assoc]
      cases a with
      | call o gaps =>
          obtain ⟨r, hcalled⟩ := Past.called hp o gaps
          have hmarkless' := hcalled.markless hop hmarkless
          refine ih hrest hcalled.after hmarkless' ?_
          cases ho : ofModeration o with
          | true => exact hn.moderated hp ho gaps
          | false =>
              have hnone : evicts u p (.call o gaps) = false := by
                cases o with
                | joinQueue v input => simp [evicts, takenOut]
                | leaveQueue v => simp [evicts, takenOut]
                | processQueueKey k => simp [evicts, takenOut]
                | _ => cases ho
              rw [hnone]
              exact hn.called hcalled hop ho hmarkless'
      | env e =>
          refine ih hrest (hp.env e) (markless_env [e] hmarkless) ?_
          unfold Accounted at hn ⊢
          change debits p.toSnap u = refunds p.toSnap u +
            (if ((board (p.world.env e)).queued u).isSome then 1 else 0) + (n + 0)
          rw [board_env]
          exact hn

/-- **The books balance** exactly if no call of moderation takes the user out
of a queue: no report that is in order, and no block that is new or had been
lifted, is against the user while the user is in a sorted set. -/
theorem tokens_accounted_iff (w : World) (h : History) (hops : Only noPass h = true) (u : UserId) :
    debits (after w h).toSnap u =
        refunds (after w h).toSnap u + (if isMember u (after w h).world then 1 else 0) ↔
      ∀ h₁ a h₂, h = h₁ ++ a :: h₂ → evicts u (after w h₁) a = false := by
  have hstart : Accounted u 0 (Past.initial (flushed w) : Past System) := rfl
  have haccounted := accounted_run hops (settled_flushed w)
    ⟨fun _ => rfl, fun _ he => absurd he List.not_mem_nil⟩ hstart
  unfold Accounted at haccounted
  change debits (after w h).toSnap u = refunds (after w h).toSnap u +
    (if ((board (after w h).world).queued u).isSome then 1 else 0) + (0 + lost u _ h) at haccounted
  rw [isMember_eq (settled_after w h).waiting, haccounted]
  refine Iff.trans ?_ lost_eq_zero
  omega

/-- ann joins, and bob blocks her. -/
def blockedWhileWaiting : History :=
  [instantly (.joinQueue "ann" anywhere), instantly (.createBlock "bob" "ann")]

/-- Her token is gone: she waits no longer and got nothing back. -/
theorem tokens_lost_of_block : ¬∀ u, debits (after people blockedWhileWaiting).toSnap u =
    refunds (after people blockedWhileWaiting).toSnap u +
      (if isMember u (after people blockedWhileWaiting).world then 1 else 0) := by
  intro h
  have hann := h "ann"
  revert hann
  decide +kernel

/-- ann leaves first; cat is reported and was never in a queue. -/
def blockedAfterLeaving : History :=
  [instantly (.joinQueue "ann" anywhere), instantly (.joinQueue "bob" anywhere),
    instantly (.leaveQueue "ann"), instantly (.createBlock "bob" "ann"),
    instantly (.createReport "ann" ⟨"cat", "spam", none⟩)]

theorem tokens_accounted_iff_afterLeaving :
    debits (after people blockedAfterLeaving).toSnap "ann" =
      refunds (after people blockedAfterLeaving).toSnap "ann" +
        (if isMember "ann" (after people blockedAfterLeaving).world then 1 else 0) :=
  (tokens_accounted_iff people blockedAfterLeaving (by decide) "ann").mpr
    (lost_eq_zero.mp (by decide +kernel))

end VerityBackend.Matchmaking
