/-
VerityBackend.Matchmaking.Joining — what `joinQueue` and `leaveQueue` do.

`joinQueue_spec` and `leaveQueue_spec` say what one call does to the board,
to the balances and to what it returns, when the call runs alone. Nothing
above this module looks into the two functions again.
-/
import VerityBackend.Matchmaking.Alone

namespace VerityBackend.Matchmaking

open Async Store Queue

variable {V : Service} {o : V.Op} {i : Nat} {β : Type}

/-! ## Taking a token and giving it back -/

/-- The row of the user is found with a token, or nothing happens. -/
theorem userDebit_cases (u : UserId) (w : World) :
    (∃ user, w.db.users u = some user ∧ 1 ≤ user.tokenBalance ∧
      (DbCmd.userDebit u).exec w = (.ok 1, w.mapDb (·.setUser u
        { user with tokenBalance := user.tokenBalance - 1 }))) ∨
    ((w.db.users u).any (1 ≤ ·.tokenBalance) = false ∧ (DbCmd.userDebit u).exec w = (.ok 0, w)) := by
  cases hu : w.db.users u with
  | none => exact .inr ⟨rfl, by simp only [DbCmd.exec, hu]⟩
  | some user =>
      by_cases hbal : 1 ≤ user.tokenBalance
      · exact .inl ⟨user, rfl, hbal, by simp only [DbCmd.exec, hu, if_pos hbal]⟩
      · exact .inr ⟨by simpa using hbal, by simp only [DbCmd.exec, hu, if_neg hbal]⟩

theorem userRefund_exec {u : UserId} {w : World} {user : User} (h : w.db.users u = some user) :
    (DbCmd.userRefund u).exec w = (.ok (), w.mapDb (·.setUser u
      { user with tokenBalance := user.tokenBalance + 1 })) := by
  simp only [DbCmd.exec, h]

/-- A debit that finds no token moves nothing. -/
theorem unmoved_userDebit {u : UserId} {s : Snap V.system} (i : Nat)
    (hany : (s.world.db.users u).any (1 ≤ ·.tokenBalance) = false)
    (hexec : (DbCmd.userDebit u).exec s.world = (.ok 0, s.world)) :
    Unmoved s (s.exec i (.db (.userDebit u))) := by
  have hworld : (s.exec i (.db (.userDebit u))).world = s.world := congrArg Prod.snd hexec
  refine ⟨congrArg board hworld, fun v r hr => ?_, fun v => ?_, fun v => ?_,
    .exec (plain_db id)⟩
  · rwa [hworld] at hr
  · rw [debits_exec]
    by_cases hv : u = v
    · subst hv
      simp [isDebit, hany]
    · simp [isDebit, hv]
  · rw [refunds_exec]
    rfl

/-! ## `joinQueue` -/

/-- A successful join. -/
structure Joined (u : UserId) (k : QueueKey) (s s' : Snap V.system) : Prop where
  named : k ≠ ""
  free : (board s.world).queued u = none
  board : ∃ joinedAt user, (board s.world).users u = some user ∧ 1 ≤ user.tokenBalance ∧
    board s'.world = ((board s.world).setUser u
      { user with tokenBalance := user.tokenBalance - 1 }).enter u k joinedAt
  bans : BansFade s.world s'.world
  debits : ∀ v, debits s' v = debits s v + if v = u then 1 else 0
  refunds : ∀ v, refunds s' v = refunds s v
  plain : s.Between (fun e => Plain e.cmd) s'

/-- Before and after a join time may pass. -/
theorem Joined.widen {u : UserId} {k : QueueKey} {s₀ s s' s₁ : Snap V.system} (h : Joined u k s s')
    (h₀ : Unmoved s₀ s) (h₁ : Unmoved s' s₁) : Joined u k s₀ s₁ where
  named := h.named
  free := by rw [← h₀.board]; exact h.free
  board := by
    obtain ⟨joinedAt, user, huser, hbal, hboard⟩ := h.board
    rw [h₀.board] at huser hboard
    exact ⟨joinedAt, user, huser, hbal, h₁.board.trans hboard⟩
  bans := (h₀.bans.trans h.bans).trans h₁.bans
  debits v := by rw [h₁.debits, h.debits, h₀.debits]
  refunds v := by rw [h₁.refunds, h.refunds, h₀.refunds]
  plain := h₀.plain.trans (h.plain.trans h₁.plain)

/-- What a call of `joinQueue` does: it adds the user or moves nothing. -/
def JoinDone (u : UserId) (r : Except Err QueueJoinResult) (s s' : Snap V.system) : Prop :=
  (Unmoved s s' ∧ ∀ k position, r ≠ .ok (.queued k position)) ∨
    ∃ k position, r = .ok (.queued k position) ∧ Joined u k s s'

theorem JoinDone.widen {u : UserId} {r : Except Err QueueJoinResult} {s₀ s s' s₁ : Snap V.system}
    (h : JoinDone u r s s') (h₀ : Unmoved s₀ s) (h₁ : Unmoved s' s₁) : JoinDone u r s₀ s₁ := by
  rcases h with ⟨hmoved, hr⟩ | ⟨k, position, hr, hjoined⟩
  · exact .inl ⟨(h₀.trans hmoved).trans h₁, hr⟩
  · exact .inr ⟨k, position, hr, hjoined.widen h₀ h₁⟩

/-- The answer to a user who waits already. -/
theorem alreadyQueued_spec {u : UserId} (state : QueueEntryState) (s : Snap V.system) :
    Alone o i (alreadyQueued u state)
      (fun r s' => Still s s' ∧ ∀ k position, r ≠ .ok (.queued k position)) s := by
  refine alone_zrank fun position s₁ h₁ => ?_
  exact ⟨h₁, nofun⟩

/-- The commands of `enqueueEntry` where `MULTI` answers. -/
theorem enqueueEntry_spec {u : UserId} {k : QueueKey} {joinedAt : Nat} {s : Snap V.system} :
    Alone o i (enqueueEntry u k joinedAt) (fun r s' => r = .ok () ∧ ∃ s₁, Still s s₁ ∧
      s' = s₁.exec i (.redis (.multiJoin k u joinedAt (QueueEntryState.mk k joinedAt).toJson))) s := by
  refine Discipline.valid_tryCatch (alone_redis fun s₁ h₁ => ?_)
  exact ⟨rfl, s₁, h₁, rfl⟩

theorem joined_of_steps {u : UserId} {k : QueueKey} {joinedAt : Nat} {user : User} (hk : k ≠ "")
    {s s₁ : Snap V.system} (hfree : (board s.world).queued u = none)
    (huser : s.world.db.users u = some user) (hbal : 1 ≤ user.tokenBalance)
    (hexec : (DbCmd.userDebit u).exec s.world = (.ok 1, s.world.mapDb (·.setUser u
      { user with tokenBalance := user.tokenBalance - 1 })))
    (h₁ : Still (s.exec i (.db (.userDebit u))) s₁) :
    Joined u k s (s₁.exec i (.redis (.multiJoin k u joinedAt (QueueEntryState.mk k joinedAt).toJson))) ∧
      Fades s.world (s₁.exec i
        (.redis (.multiJoin k u joinedAt (QueueEntryState.mk k joinedAt).toJson))).world := by
  have hworld : (s.exec i (.db (.userDebit u))).world = s.world.mapDb (·.setUser u
      { user with tokenBalance := user.tokenBalance - 1 }) := congrArg Prod.snd hexec
  have hboard : board (s.exec i (.db (.userDebit u))).world = (board s.world).setUser u
      { user with tokenBalance := user.tokenBalance - 1 } := by rw [hworld]; rfl
  have hfades : Fades s.world (s₁.exec i
      (.redis (.multiJoin k u joinedAt (QueueEntryState.mk k joinedAt).toJson))).world := by
    refine (fades_db (.userDebit u) s.world).trans (h₁.fades.trans (fades_exec ?_ s₁.world))
    rintro key hkey rfl
    exact hkey
  refine ⟨⟨hk, hfree, ⟨joinedAt, user, huser, hbal, ?_⟩, hfades.bans, fun v => ?_, fun v => ?_, ?_⟩,
    hfades⟩
  · rw [← hboard, ← h₁.board]
    exact board_multiJoin s₁.world k u joinedAt
  · rw [debits_exec, h₁.unmoved.debits, debits_exec]
    by_cases hv : u = v
    · subst hv
      simp [isDebit, huser, hbal]
    · simp [isDebit, hv, Ne.symm hv]
  · rw [refunds_exec, h₁.unmoved.refunds, refunds_exec]
    rfl
  · exact (Snap.Between.exec (plain_db id)).trans
      (h₁.unmoved.plain.trans (.exec (plain_redis (by nofun) (by nofun))))

theorem enqueue_spec {u : UserId} {queueCity : String} {k : QueueKey} (hk : k ≠ "")
    {s : Snap V.system} (hw : Waiting [] (board s.world)) :
    Alone o i (enqueue u queueCity k)
      (fun r s' => Fades s.world s'.world ∧ JoinDone u r s s') s := by
  refine alone_get (by nofun) fun s₁ h₁ => ?_
  have hw₁ : Waiting [] (board s₁.world) := by rw [h₁.board]; exact hw
  have hparse := hw₁.parse_entry u
  rw [h₁.board] at hparse
  cases hstate : parseQueueEntryState (s₁.world.get (.queueUser u)) with
  | some state =>
      refine (alreadyQueued_spec state s₁).weaken fun r s₂ ⟨h₂, hr⟩ => ?_
      exact ⟨(h₁.trans h₂).fades, .inl ⟨(h₁.trans h₂).unmoved, hr⟩⟩
  | none =>
      have hfree : (board s.world).queued u = none := by rw [← hparse, hstate]; rfl
      refine alone_prisma fun s₂ h₂ => ?_
      have h₁₂ := h₁.trans h₂
      rcases userDebit_cases u s₂.world with ⟨user, huser, hbal, hexec⟩ | ⟨hany, hexec⟩
      · rw [hexec]
        refine alone_now fun joinedAt s₃ h₃ => ?_
        refine Discipline.valid_bind (enqueueEntry_spec.weaken ?_)
        rintro r s₄ ⟨rfl, s₅, h₅, rfl⟩
        have hfree₂ : (board s₂.world).queued u = none := by rw [h₁₂.board]; exact hfree
        obtain ⟨hjoined, hfades⟩ := joined_of_steps hk hfree₂ huser hbal hexec (h₃.trans h₅)
        refine alone_zrank fun position s₆ h₆ => ?_
        refine alone_emit fun _ s₇ h₇ => ?_
        have h₆₇ := h₆.trans h₇
        exact ⟨h₁₂.fades.trans (hfades.trans h₆₇.fades),
          .inr ⟨k, position, rfl, hjoined.widen h₁₂.unmoved h₆₇.unmoved⟩⟩
      · rw [hexec]
        have hmoved := unmoved_userDebit i hany hexec
        exact ⟨h₁₂.fades.trans (fades_db (.userDebit u) s₂.world),
          .inl ⟨h₁₂.unmoved.trans hmoved, nofun⟩⟩

/-- **`joinQueue`.** The call adds the user, who was not waiting and is not
banned, or it moves nothing. -/
theorem joinQueue_spec {u : UserId} {input : QueueJoinInput} {s : Snap V.system}
    (hw : Waiting [] (board s.world)) (hun : Unlocked s.world) :
    Alone o i (joinQueue u input) (fun r s' => Unlocked s'.world ∧ JoinDone u r s s' ∧
      ((∃ k position, r = .ok (.queued k position)) → ∀ ban,
        s'.world.get (.moderationBan u) = some ban → ban = .text "")) s := by
  refine alone_get (by nofun) fun s₁ h₁ => ?_
  have hrefuse : ∀ e : Err, (Unlocked s₁.world ∧ JoinDone u (.error e) s s₁ ∧
      ((∃ k position, (.error e : Except Err QueueJoinResult) = .ok (.queued k position)) → ∀ ban,
        s₁.world.get (.moderationBan u) = some ban → ban = .text "")) := fun e =>
    ⟨hun.fades h₁.fades, .inl ⟨h₁.unmoved, nofun⟩, by rintro ⟨k, position, h⟩; cases h⟩
  split
  · exact hrefuse _
  · next hban =>
      split
      · exact hrefuse _
      · next queueCity _ =>
          split
          · exact hrefuse _
          · next k hkey =>
              have hk := buildQueueKey_ne_empty hkey
              refine alone_acquire (holds_nil.mpr (hun.fades h₁.fades)) (by simp) fun v s₂ h₂ hl => ?_
              have hw₂ : Waiting [] (board s₂.world) := by rw [h₂.board, h₁.board]; exact hw
              refine alone_tryFinally (fun s₃ (hl₃ : Holds [(u, v)] s₃.world) => ?_) ?_
              · exact (alone_releaseLock hl₃).weaken fun r s₄ ⟨hr, h₄, hl₄⟩ =>
                  ⟨hr, h₄, holds_nil.mp hl₄⟩
              · refine (enqueue_spec hk hw₂).weaken ?_
                rintro r s₃ ⟨hfades, hdone⟩
                refine ⟨hl.fades hfades, fun s₄ h₄ hun₄ => ⟨hun₄, ?_, fun _ ban hseen => ?_⟩⟩
                · exact hdone.widen (h₁.unmoved.trans h₂) h₄.unmoved
                · -- the ban would have been seen by the first command
                  have hfirst := h₂.bans u ban (hfades.bans u ban (h₄.fades.bans u ban hseen))
                  by_contra hne
                  rw [hfirst] at hban
                  exact hban (by simp [truthy, hne])

/-! ## `leaveQueue` -/

/-- In between no session was created and no mark written, and whoever asked
for the mark of `u` found it truthy or not, as `m` says. -/
def Found (u : UserId) (m : Bool) (s s' : Snap V.system) : Prop :=
  s.Between (fun (e : Entry V.system) => (e.cmd = .redis (.get (.queueMatched u)) →
    truthy (e.before.get (.queueMatched u)) = m) ∧ ¬e.cmd.createsSession ∧
      ∀ v, ¬e.cmd.writes (.queueMatched v)) s'

theorem found_of_plain {s s' : Snap V.system} (h : s.Between (fun e => Plain e.cmd) s')
    (u : UserId) (m : Bool) : Found u m s s' :=
  h.mono fun _ hplain => ⟨fun hcmd => (hplain.reads ⟨u, hcmd⟩).elim, hplain.session, hplain.marks⟩

/-- In between, somebody asked for the mark of `u`. -/
def Asked (u : UserId) (s s' : Snap V.system) : Prop :=
  ∃ t, s'.trace = t ++ s.trace ∧ ∃ e ∈ t, e.cmd = .redis (.get (.queueMatched u))

theorem Asked.widen {u : UserId} {P : Entry V.system → Prop} {s₀ s s' s₁ : Snap V.system}
    (h : Asked u s s') (h₀ : s₀.Between P s) (h₁ : s'.Between P s₁) : Asked u s₀ s₁ := by
  obtain ⟨t, ht, e, he, hcmd⟩ := h
  obtain ⟨t₀, ht₀, -⟩ := h₀
  obtain ⟨t₁, ht₁, -⟩ := h₁
  refine ⟨t₁ ++ (t ++ t₀), ?_, e, by simp [he], hcmd⟩
  rw [ht₁, ht, ht₀]
  simp

/-- The command asks for the mark of `u` and finds one. -/
def findsMark (u : UserId) (e : Entry V.system) : Bool :=
  match e.cmd with
  | .redis (.get (.queueMatched v)) => v = u && truthy (World.get e.before (.queueMatched v))
  | _ => false

theorem findsMark_of_cmd {u : UserId} {e : Entry V.system}
    (h : e.cmd = .redis (.get (.queueMatched u))) :
    findsMark u e = truthy (World.get e.before (.queueMatched u)) := by
  unfold findsMark
  rw [h]
  simp

/-- At most an unused queue key was dropped. -/
structure Tidied (s s' : Snap V.system) : Prop where
  waiting : Waiting [] (board s'.world)
  board : ∃ keys, board s'.world = { board s.world with queueKeys := keys }
  fades : Fades s.world s'.world
  debits : ∀ u, debits s' u = debits s u
  refunds : ∀ u, refunds s' u = refunds s u
  plain : s.Between (fun e => Plain e.cmd) s'

theorem Still.tidied {s s' : Snap V.system} (h : Still s s')
    (hw : Waiting [] (Matchmaking.board s.world)) : Tidied s s' where
  board := ⟨(Matchmaking.board s.world).queueKeys, h.board⟩
  waiting := by rw [h.board]; exact hw
  fades := h.fades
  debits := h.unmoved.debits
  refunds := h.unmoved.refunds
  plain := h.unmoved.plain

theorem Tidied.queued {s s' : Snap V.system} (h : Tidied s s') (u : UserId) :
    (Matchmaking.board s'.world).queued u = (Matchmaking.board s.world).queued u := by
  obtain ⟨keys, hb⟩ := h.board
  rw [hb]
  rfl

theorem cleanupQueueKey_spec {k : QueueKey} {s : Snap V.system}
    (hw : Waiting [] (board s.world)) :
    Alone o i (cleanupQueueKey k) (fun r s' => r = .ok () ∧ Tidied s s') s := by
  refine alone_zcard fun s₁ h₁ => ?_
  split
  · next hempty =>
      refine Discipline.solo_last fun es => ?_
      have h₂ := h₁.trans (still_elapse s₁ es)
      have hboard : board ((s₁.elapse es).exec i (.redis (.srem k))).world =
          (board s.world).unlist k := by
        rw [← h₂.board]
        exact board_srem _ k
      have hfades : Fades (s₁.elapse es).world ((s₁.elapse es).exec i (.redis (.srem k))).world :=
        fades_exec (c := .redis (.srem k)) (fun _ _ h => h) _
      refine ⟨rfl, ?_, ⟨_, hboard⟩, h₂.fades.trans hfades, fun u => ?_, fun u => ?_, ?_⟩
      · rw [hboard]
        exact hw.unlist hempty (fun u hu => by cases hu)
      · rw [debits_exec, h₂.unmoved.debits]
        rfl
      · rw [refunds_exec, h₂.unmoved.refunds]
        rfl
      · exact h₂.unmoved.plain.trans (.exec (plain_redis (by nofun) (by nofun)))
  · exact ⟨rfl, h₁.tidied hw⟩

/-- The queue without a user. -/
structure Without (u : UserId) (b b' : Board) : Prop where
  waiting : Waiting [] b'
  queued : ∀ v, b'.queued v = if v = u then none else b.queued v
  sessions : b'.sessions = b.sessions
  blocks : b'.blocks = b.blocks

/-- A user is in nobody's hand and has been taken off the board. -/
theorem without_zrem_clear {u : UserId} {k : QueueKey} {b : Board} (hw : Waiting [] b)
    (hq : b.queued u = some k) : Without u b ((b.zrem k u).setEntry u none) where
  waiting := (hw.zrem hq).clear
  queued v := Board.queued_clear (b.zrem k u) u v
  sessions := rfl
  blocks := rfl

/-- A call of `leaveQueue` that found an entry. `m` says whether the mark of
a match was found. -/
structure Left (u : UserId) (k : QueueKey) (m : Bool) (s s' : Snap V.system) : Prop where
  queued : (board s.world).queued u = some k
  without : Without u (board s.world) (board s'.world)
  users : ∃ user, (board s.world).users u = some user ∧ (board s'.world).users =
    if m then (board s.world).users else
      ((board s.world).setUser u { user with tokenBalance := user.tokenBalance + 1 }).users
  bans : BansFade s.world s'.world
  debits : ∀ v, debits s' v = debits s v
  refunds : ∀ v, refunds s' v = refunds s v + if v = u ∧ m = false then 1 else 0
  found : Found u m s s'
  asked : Asked u s s'

/-- A call of `leaveQueue` that runs under the lock. -/
def LeaveDone (u : UserId) (r : Except Err QueueLeaveResult) (s s' : Snap V.system) : Prop :=
  (Unmoved s s' ∧ (board s.world).queued u = none ∧ r = .ok ⟨.not_queued, false, none⟩) ∨
    ∃ k m, Left u k m s s' ∧
      r = .ok ⟨if m then .already_matched else .left, !m, some k⟩

theorem LeaveDone.widen {u : UserId} {r : Except Err QueueLeaveResult} {s₀ s s' s₁ : Snap V.system}
    (h : LeaveDone u r s s') (h₀ : Unmoved s₀ s) (h₁ : Unmoved s' s₁) : LeaveDone u r s₀ s₁ := by
  rcases h with ⟨hmoved, hnone, hr⟩ | ⟨k, m, hleft, hr⟩
  · exact .inl ⟨(h₀.trans hmoved).trans h₁, by rw [← h₀.board]; exact hnone, hr⟩
  · have hwithout := hleft.without
    obtain ⟨user, huser, husers⟩ := hleft.users
    have hasked := hleft.asked.widen h₀.plain h₁.plain
    rw [← h₁.board] at hwithout husers
    have hq := hleft.queued
    rw [h₀.board] at hq hwithout huser husers
    exact .inr ⟨k, m, ⟨hq, hwithout, ⟨user, huser, husers⟩, (h₀.bans.trans hleft.bans).trans h₁.bans,
      fun v => by rw [h₁.debits, hleft.debits, h₀.debits],
      fun v => by rw [h₁.refunds, hleft.refunds, h₀.refunds],
      ((found_of_plain h₀.plain u m).trans hleft.found).trans (found_of_plain h₁.plain u m),
      hasked⟩, hr⟩

/-- The refund, or the lack of one. -/
theorem settleLeave_spec {u : UserId} {k : QueueKey} {m : Bool} {user : User} {s : Snap V.system}
    (huser : (board s.world).users u = some user) :
    Alone o i (settleLeave u k 1 m) (fun r s' => Fades s.world s'.world ∧
      r = .ok ⟨if m then .already_matched else .left, !m, some k⟩ ∧
      board s'.world = (if m then board s.world else
        (board s.world).setUser u { user with tokenBalance := user.tokenBalance + 1 }) ∧
      (∀ v, debits s' v = debits s v) ∧
      (∀ v, refunds s' v = refunds s v + if v = u ∧ m = false then 1 else 0) ∧
      s.Between (fun e => Plain e.cmd) s') s := by
  unfold settleLeave
  cases m with
  | true =>
      rw [if_neg (by simp)]
      refine alone_emit fun _ s₁ h₁ => ⟨h₁.fades, rfl, h₁.board, h₁.unmoved.debits, fun v => ?_,
        h₁.unmoved.plain⟩
      simp [h₁.unmoved.refunds]
  | false =>
      rw [if_pos ⟨rfl, rfl⟩]
      refine alone_prisma fun s₁ h₁ => ?_
      have huser₁ : s₁.world.db.users u = some user := by
        rw [← huser, ← h₁.board]
        rfl
      have hexec := userRefund_exec huser₁
      have hworld := congrArg Prod.snd hexec
      rw [hexec]
      refine alone_emit fun _ s₂ h₂ => ⟨?_, rfl, ?_, fun v => ?_, fun v => ?_, ?_⟩
      · exact h₁.fades.trans ((fades_db (.userRefund u) s₁.world).trans h₂.fades)
      · rw [h₂.board, ← h₁.board]
        change board ((DbCmd.userRefund u).exec s₁.world).2 = _
        rw [hworld]
        rfl
      · rw [h₂.unmoved.debits, debits_exec, h₁.unmoved.debits]
        rfl
      · rw [h₂.unmoved.refunds, refunds_exec, h₁.unmoved.refunds]
        by_cases hv : u = v
        · subst hv
          simp [isRefund, huser₁]
        · simp [isRefund, hv, Ne.symm hv]
      · exact h₁.unmoved.plain.trans
          (Snap.Between.trans (.exec (plain_db id)) h₂.unmoved.plain)

theorem leaveEntry_spec {u : UserId} {k : QueueKey} {s : Snap V.system}
    (hw : Waiting [] (board s.world)) (hq : (board s.world).queued u = some k) :
    Alone o i (leaveEntry u k) (fun r s' => Fades s.world s'.world ∧ LeaveDone u r s s') s := by
  refine alone_redis fun s₁ h₁ => ?_
  generalize hm : truthy (s₁.world.get (.queueMatched u)) = m
  refine alone_redis fun s₂ h₂ => alone_redis fun s₃ h₃ => ?_
  have hb₁ : board s₂.world = board s.world := h₂.board.trans h₁.board
  have hremoved : ((RedisCmd.zrem k u).exec s₂.world).1 = 1 := by
    refine if_pos ?_
    change u ∈ (board s₂.world).zsets k
    rw [hb₁]
    exact (hw.member u k).mpr ⟨hq, by simp⟩
  have hboard : board (s₃.exec i (.redis (.del [.queueUser u]))).world =
      ((board s.world).zrem k u).setEntry u none := by
    change board ((RedisCmd.del [.queueUser u]).exec s₃.world).2 = _
    rw [board_delEntry, h₃.board]
    change (board ((RedisCmd.zrem k u).exec s₂.world).2).setEntry u none = _
    rw [board_zrem, hb₁]
  obtain ⟨user, huser⟩ := Option.isSome_iff_exists.mp (hw.known u k hq)
  have hwithout := without_zrem_clear hw hq
  rw [← hboard] at hwithout
  -- up to here nobody's token moved, and the mark was read once
  set s₄ := s₃.exec i (.redis (.del [.queueUser u])) with hs₄
  have hfades : Fades s.world s₄.world :=
    h₁.fades.trans (h₂.fades.trans ((fades_exec (c := .redis (.zrem k u)) (fun _ _ h => h) _).trans
      (h₃.fades.trans (fades_exec (c := .redis (.del [.queueUser u])) (fun _ _ h => h) _))))
  have hdebits : ∀ v, debits s₄ v = debits s v := fun v => by
    rw [hs₄, debits_exec, h₃.unmoved.debits, debits_exec, h₂.unmoved.debits, debits_exec,
      h₁.unmoved.debits]
    rfl
  have hrefunds : ∀ v, refunds s₄ v = refunds s v := fun v => by
    rw [hs₄, refunds_exec, h₃.unmoved.refunds, refunds_exec, h₂.unmoved.refunds, refunds_exec,
      h₁.unmoved.refunds]
    rfl
  have hread : Found u m s (s₁.exec i (.redis (.get (.queueMatched u)))) :=
    (found_of_plain h₁.unmoved.plain u m).trans (.exec ⟨fun _ => hm, id, fun _ => id⟩)
  have hplain : (s₁.exec i (.redis (.get (.queueMatched u)))).Between (fun e => Plain e.cmd) s₄ :=
    h₂.unmoved.plain.trans ((Snap.Between.exec (plain_redis (by nofun) (by nofun))).trans
      (h₃.unmoved.plain.trans (.exec (plain_redis (by nofun) (by nofun)))))
  have hasked : Asked u s (s₁.exec i (.redis (.get (.queueMatched u)))) := by
    obtain ⟨t, ht, -⟩ := h₁.trace
    exact ⟨⟨i, .redis (.get (.queueMatched u)), s₁.world⟩ :: t, congrArg _ ht, _, .head _, rfl⟩
  refine Discipline.valid_bind ((cleanupQueueKey_spec hwithout.waiting).weaken ?_)
  rintro r s₅ ⟨rfl, h₅⟩
  obtain ⟨keys, hkeys⟩ := h₅.board
  have huser₅ : (board s₅.world).users u = some user := by
    rw [hkeys, hboard]
    exact huser
  rw [hremoved]
  change Alone o i (settleLeave u k 1 (truthy (s₁.world.get (.queueMatched u)))) _ s₅
  rw [hm]
  refine (settleLeave_spec huser₅).weaken ?_
  rintro r s₆ ⟨hfades₆, hr, hboard₆, hdebits₆, hrefunds₆, hplain₆⟩
  have hsame : Without u (board s.world) (board s₆.world) := by
    have h₅' : Without u (board s.world) (board s₅.world) :=
      ⟨h₅.waiting, fun v => by rw [h₅.queued, hwithout.queued], by rw [hkeys, hwithout.sessions],
        by rw [hkeys, hwithout.blocks]⟩
    rw [hboard₆]
    cases m with
    | true => exact h₅'
    | false => exact ⟨h₅'.waiting.setUser u _, h₅'.queued, h₅'.sessions, h₅'.blocks⟩
  refine ⟨hfades.trans (h₅.fades.trans hfades₆), .inr ⟨k, m, ⟨hq, hsame, ⟨user, huser, ?_⟩, ?_,
    fun v => ?_, fun v => ?_, ?_, ?_⟩, hr⟩⟩
  · rw [hboard₆, hkeys, hboard]
    cases m <;> rfl
  · exact (hfades.trans (h₅.fades.trans hfades₆)).bans
  · rw [hdebits₆, h₅.debits, hdebits]
  · rw [hrefunds₆, h₅.refunds, hrefunds]
  · exact hread.trans (found_of_plain (hplain.trans (h₅.plain.trans hplain₆)) u m)
  · exact hasked.widen (.refl _ s) (hplain.trans (h₅.plain.trans hplain₆))

theorem leaveLocked_spec {u : UserId} {s : Snap V.system} (hw : Waiting [] (board s.world)) :
    Alone o i (leaveLocked u) (fun r s' => Fades s.world s'.world ∧ LeaveDone u r s s') s := by
  refine alone_get (by nofun) fun s₁ h₁ => ?_
  have hw₁ : Waiting [] (board s₁.world) := by rw [h₁.board]; exact hw
  have hparse := hw₁.parse_entry u
  have hentry := hw₁.get_entry u
  have hnot : ∀ s₂, Still s s₂ → (board s.world).queued u = none →
      Fades s.world s₂.world ∧ LeaveDone u (.ok ⟨.not_queued, false, none⟩) s s₂ :=
    fun s₂ h₂ hnone => ⟨h₂.fades, .inl ⟨h₂.unmoved, hnone, rfl⟩⟩
  rw [h₁.board] at hparse
  split
  · next hfalsy =>
      have hnone : (board s.world).queued u = none := by
        rw [← hparse, not_truthy_of_parse (by simpa using hfalsy)]
        rfl
      exact alone_emit fun _ s₂ h₂ => hnot s₂ (h₁.trans h₂) hnone
  · next htruthy =>
      cases hstate : parseQueueEntryState (s₁.world.get (.queueUser u)) with
      | none =>
          -- every stored entry parses
          rw [hstate] at hparse
          have hnone : (board s₁.world).entries u = none := by
            rw [hw₁.entries_eq_none, h₁.board]
            exact hparse.symm
          rw [hentry, hnone] at htruthy
          exact absurd rfl htruthy
      | some state =>
          rw [hstate] at hparse
          have hq : (board s.world).queued u = some state.queueKey := hparse.symm
          rw [← h₁.board] at hq
          refine (leaveEntry_spec (s := s₁) hw₁ hq).weaken ?_
          rintro r s' ⟨hfades, hdone⟩
          exact ⟨h₁.fades.trans hfades, hdone.widen h₁.unmoved (.refl s')⟩

/-- **`leaveQueue`.** The call finds the entry of the user and removes it, or
it finds none and moves nothing. -/
theorem leaveQueue_spec {u : UserId} {s : Snap V.system} (hw : Waiting [] (board s.world))
    (hun : Unlocked s.world) :
    Alone o i (leaveQueue u) (fun r s' => Unlocked s'.world ∧ LeaveDone u r s s') s := by
  refine alone_acquire (holds_nil.mpr hun) (by simp) fun v s₁ h₁ hl => ?_
  have hw₁ : Waiting [] (board s₁.world) := by rw [h₁.board]; exact hw
  refine alone_tryFinally (fun s₂ (hl₂ : Holds [(u, v)] s₂.world) => ?_) ?_
  · exact (alone_releaseLock hl₂).weaken fun r s₃ ⟨hr, h₃, hl₃⟩ => ⟨hr, h₃, holds_nil.mp hl₃⟩
  · refine (leaveLocked_spec hw₁).weaken ?_
    rintro r s₂ ⟨hfades, hdone⟩
    exact ⟨hl.fades hfades, fun s₃ h₃ hun₃ => ⟨hun₃, hdone.widen h₁ h₃.unmoved⟩⟩

end VerityBackend.Matchmaking
