/-
VerityBackend.Matchmaking.Removal — what moderation does to the queue.

Reports, blocks, their lifting and the webhook never let anybody in: they
take a user out (`removeFromQueueIfPresent`), or leave the queue alone.
`Moderated` says so of two moments of such a call, and that a ban seen at the
end was there before or was set in between. It composes, so the operations
are walked through with `Mends.bind` and one lemma for the removal.
-/
import VerityBackend.Matchmaking.Joining
import VerityBackend.Moderation.Issued

namespace VerityBackend.Matchmaking

open Async Store Queue Moderation

variable {V : Service} {o : V.Op} {i : Nat} {α β : Type}

/-! ## Two moments of a call -/

/-- In between a ban of `u` was set, and `u` has joined no queue since. -/
def BanSet (u : UserId) (s s' : Snap V.system) : Prop :=
  ∃ t, s'.trace = t ++ s.trace ∧ ∃ e ∈ t,
    (∃ ttl, e.cmd = .redis (.set (.moderationBan u) (.text "1") ttl)) ∧
      Waiting [] (board e.before) ∧
        ∀ k, (board s'.world).queued u = some k → (board e.before).queued u = some k

/-- From `s` to `s'` nobody has joined a queue, no token has moved and no session
has been created. -/
structure Moderated (s s' : Snap V.system) : Prop where
  waiting : Waiting [] (board s'.world)
  users : (board s'.world).users = (board s.world).users
  sessions : (board s'.world).sessions = (board s.world).sessions
  queued : ∀ u k, (board s'.world).queued u = some k → (board s.world).queued u = some k
  unlocked : Unlocked s.world → Unlocked s'.world
  debits : ∀ u, debits s' u = debits s u
  refunds : ∀ u, refunds s' u = refunds s u
  plain : s.Between (fun e => Plain e.cmd) s'
  bans : ∀ u r, s'.world.get (.moderationBan u) = some r →
    s.world.get (.moderationBan u) = some r ∨ (r = .text "1" ∧ BanSet u s s')

/-- Two parts of a call make one. -/
theorem Moderated.trans {s₁ s₂ s₃ : Snap V.system} (h : Moderated s₁ s₂) (h' : Moderated s₂ s₃) :
    Moderated s₁ s₃ where
  waiting := h'.waiting
  users := h'.users.trans h.users
  sessions := h'.sessions.trans h.sessions
  queued u k hq := h.queued u k (h'.queued u k hq)
  unlocked hun := h'.unlocked (h.unlocked hun)
  debits u := (h'.debits u).trans (h.debits u)
  refunds u := (h'.refunds u).trans (h.refunds u)
  plain := h.plain.trans h'.plain
  bans u r hr := by
    obtain ⟨t, ht, -⟩ := h.plain
    obtain ⟨t', ht', -⟩ := h'.plain
    rcases h'.bans u r hr with hr | ⟨hone, t₃, ht₃, e, he, hcmd, hwaiting, hq⟩
    · rcases h.bans u r hr with hr | ⟨hone, t₂, ht₂, e, he, hcmd, hwaiting, hq⟩
      · exact .inl hr
      · exact .inr ⟨hone, t' ++ t₂, by rw [ht', ht₂, List.append_assoc], e,
          List.mem_append_right _ he, hcmd, hwaiting, fun k hk => hq k (h'.queued u k hk)⟩
    · exact .inr ⟨hone, t₃ ++ t, by rw [ht₃, ht, List.append_assoc], e,
        List.mem_append_left _ he, hcmd, hwaiting, hq⟩

/-- Time may pass. -/
theorem Still.moderated {s s' : Snap V.system} (h : Still s s')
    (hw : Waiting [] (Matchmaking.board s.world)) : Moderated s s' where
  waiting := by rw [h.board]; exact hw
  users := by rw [h.board]
  sessions := by rw [h.board]
  queued u k hq := by rwa [h.board] at hq
  unlocked hun := hun.fades h.fades
  debits := h.unmoved.debits
  refunds := h.unmoved.refunds
  plain := h.unmoved.plain
  bans u r hr := .inl (h.fades.bans u r hr)

/-- As `Moderated`, and exactly this user has left the queue. -/
structure Takes (out : Option UserId) (s s' : Snap V.system) : Prop where
  moderated : Moderated s s'
  queued : ∀ v, (board s'.world).queued v = if out = some v then none else (board s.world).queued v

theorem Takes.trans {out : Option UserId} {s₁ s₂ s₃ : Snap V.system} (h : Takes none s₁ s₂)
    (h' : Takes out s₂ s₃) : Takes out s₁ s₃ :=
  ⟨h.moderated.trans h'.moderated, fun v => by rw [h'.queued, h.queued]; rfl⟩

theorem Takes.trans_none {out : Option UserId} {s₁ s₂ s₃ : Snap V.system} (h : Takes out s₁ s₂)
    (h' : Takes none s₂ s₃) : Takes out s₁ s₃ :=
  ⟨h.moderated.trans h'.moderated, fun v => by rw [h'.queued, h.queued]; rfl⟩

/-- Nobody is taken out while time passes. -/
theorem Still.takes {s s' : Snap V.system} (h : Still s s')
    (hw : Waiting [] (Matchmaking.board s.world)) : Takes none s s' :=
  ⟨h.moderated hw, fun v => by rw [h.board]; rfl⟩

/-! ## Commands that leave the queue alone -/

/-- The keys moderation writes and the queue does not read. -/
def Apart : RedisKey → Prop
  | .queueUser _ => False
  | .queueMatched _ => False
  | .queueLock _ => False
  | .moderationBan _ => False
  | _ => True

/-- The commands of moderation and of `endSession`, apart from the removal. -/
structure Mild (c : Cmd) : Prop where
  entries : ∀ u, ¬c.touches (.queueUser u)
  queue : ¬c.movesQueue
  tokens : ¬c.movesTokens
  sessions : ¬c.movesSessions
  plain : Plain c
  locks : ∀ u, ¬c.writes (.queueLock u)
  bans : ∀ u, c.writes (.moderationBan u) → ∃ ttl, c = .redis (.set (.moderationBan u) (.text "1") ttl)

/-- Any command on the database that moves no token and creates no session. -/
theorem mild_db {c : DbCmd} (htokens : ¬(Cmd.db c).movesTokens)
    (hsessions : ¬(Cmd.db c).movesSessions) : Mild (.db c) where
  entries _ h := h
  queue h := h
  tokens := htokens
  sessions := hsessions
  plain := plain_db fun h => hsessions h.moves
  locks _ h := h
  bans _ h := h.elim

theorem mild_host (c : HostCmd) : Mild (.host c) where
  entries _ h := h
  queue h := h
  tokens h := h
  sessions h := h
  plain := (idle_host c).plain
  locks _ h := h
  bans _ h := h.elim

/-- Reads, but for the mark of a match. -/
theorem mild_get {k : RedisKey} (h : ∀ u, k ≠ .queueMatched u) : Mild (.redis (.get k)) where
  entries _ h := h
  queue h := h
  tokens h := h
  sessions h := h
  plain := plain_redis (fun u hu => h u (by cases hu; rfl)) (by nofun)
  locks _ h := h
  bans _ h := h.elim

theorem mild_set {k : RedisKey} (h : Apart k) (v : RedisString) (ttl : Option Nat) :
    Mild (.redis (.set k v ttl)) where
  entries u hu := by cases hu; exact h
  queue h := h
  tokens h := h
  sessions h := h
  plain := plain_redis (by nofun) fun u hu => by cases hu; exact h
  locks u hu := by cases hu; exact h
  bans u hu := by cases hu; exact h.elim

theorem mild_setNX {k : RedisKey} (h : Apart k) (v : RedisString) (ttl : Nat) :
    Mild (.redis (.setNX k v ttl)) where
  entries u hu := by cases hu; exact h
  queue h := h
  tokens h := h
  sessions h := h
  plain := plain_redis (by nofun) fun u hu => by cases hu; exact h
  locks u hu := by cases hu; exact h
  bans u hu := by cases hu; exact h.elim

theorem mild_del {ks : List RedisKey} (h : ∀ k ∈ ks, Apart k) : Mild (.redis (.del ks)) where
  entries _ hu := h _ hu
  queue h := h
  tokens h := h
  sessions h := h
  plain := plain_redis (by nofun) (by nofun)
  locks _ h := h
  bans _ h := h.elim

/-- The ban is the one key of the queue that moderation writes. -/
theorem mild_ban (u : UserId) (ttl : Option Nat) :
    Mild (.redis (.set (.moderationBan u) (.text "1") ttl)) where
  entries u' hu := by cases hu
  queue h := h
  tokens h := h
  sessions h := h
  plain := plain_redis (by nofun) (by nofun)
  locks u' hu := by cases hu
  bans u' hu := by cases hu; exact ⟨ttl, rfl⟩

theorem isDebit_mild {e : Entry V.system} (h : ¬e.cmd.movesTokens) (u : UserId) :
    isDebit u e = false ∧ isRefund u e = false := by
  obtain ⟨j, c, w⟩ := e
  cases c with
  | redis c => exact ⟨rfl, rfl⟩
  | host c => exact ⟨rfl, rfl⟩
  | db c =>
      cases c with
      | userDebit id => exact (h trivial).elim
      | userRefund id => exact (h trivial).elim
      | _ => exact ⟨rfl, rfl⟩

/-- At most the blocks change. -/
theorem board_mild {c : Cmd} (h : Mild c) (w : World) :
    ∃ blocks, board (c.exec w).2 = { board w with blocks := blocks } := by
  obtain ⟨hzsets, hkeys⟩ := Cmd.queues_exec h.queue w
  have htables := c.tables_exec w
  have hentries : (fun u => (c.exec w).2.stored (.queueUser u)) =
      fun u => w.stored (.queueUser u) := funext fun u => Cmd.stored_exec (h.entries u) w
  refine ⟨(c.exec w).2.db.blocks, ?_⟩
  unfold board
  rw [hzsets, hkeys, hentries, htables.users h.tokens, htables.sessions h.sessions]

/-- A ban seen afterwards was there, or the command has set it. -/
theorem ban_of_mild {c : Cmd} (h : Mild c) {w : World} {u : UserId} {r : RedisString}
    (hr : (c.exec w).2.get (.moderationBan u) = some r) :
    w.get (.moderationBan u) = some r ∨
      (r = .text "1" ∧ ∃ ttl, c = .redis (.set (.moderationBan u) (.text "1") ttl)) := by
  by_cases hwrites : c.writes (.moderationBan u)
  · obtain ⟨ttl, rfl⟩ := h.bans u hwrites
    exact .inr ⟨World.eq_of_get_set hr, ttl, rfl⟩
  · exact .inl (Cmd.get_of_get_exec hwrites hr)

/-- One mild command. -/
theorem moderated_exec {c : Cmd} (h : Mild c) {s : Snap V.system} (hw : Waiting [] (board s.world)) :
    Moderated s (s.exec i c) := by
  obtain ⟨blocks, hboard⟩ := board_mild h s.world
  have hboard' : board (s.exec i c).world = { board s.world with blocks := blocks } := hboard
  have hqueued : ∀ u, (board (s.exec i c).world).queued u = (board s.world).queued u := fun u => by
    rw [hboard']
    rfl
  refine ⟨?_, ?_, ?_, fun u k hq => ?_, fun hun u => ?_, fun u => ?_, fun u => ?_, .exec h.plain,
    fun u r hr => ?_⟩
  · rw [hboard']
    exact hw.setBlocks blocks
  · rw [hboard']
  · rw [hboard']
  · rwa [hqueued] at hq
  · cases hr : (s.exec i c).world.get (.queueLock u) with
    | none => rfl
    | some r =>
        have hbefore := Cmd.get_of_get_exec (h.locks u) hr
        rw [hun u] at hbefore
        cases hbefore
  · rw [debits_exec, (isDebit_mild (V := V) h.tokens u).1]
    rfl
  · rw [refunds_exec, (isDebit_mild (V := V) h.tokens u).2]
    rfl
  · rcases ban_of_mild h hr with hr | ⟨hone, hcmd⟩
    · exact .inl hr
    · exact .inr ⟨hone, [⟨i, c, s.world⟩], rfl, _, .head _, hcmd, hw, fun k hq => by rwa [hqueued] at hq⟩

/-- A mild command takes nobody out. -/
theorem takes_exec {c : Cmd} (h : Mild c) {s : Snap V.system} (hw : Waiting [] (board s.world)) :
    Takes none s (s.exec i c) := by
  refine ⟨moderated_exec h hw, fun v => ?_⟩
  obtain ⟨blocks, hboard⟩ := board_mild h s.world
  change (board (c.exec s.world).2).queued v = _
  rw [hboard]
  rfl

/-! ## Procedures -/

/-- The procedure does no more than moderation may. -/
def Mends (o : V.Op) (i : Nat) (p : Prog α) : Prop :=
  ∀ s, Waiting [] (board s.world) → Alone o i p (fun _ s' => Moderated s s') s

/-- One procedure after another. -/
theorem Mends.bind {p : Prog α} {f : α → Prog β} (hp : Mends o i p) (hf : ∀ a, Mends o i (f a)) :
    Mends o i (p.bind f) := by
  intro s hw
  refine Discipline.valid_bind ((hp s hw).weaken ?_)
  rintro (e | a) s₁ h₁
  · exact h₁
  · exact (hf a s₁ h₁.waiting).weaken fun _ _ h₂ => h₁.trans h₂

/-- A procedure of mild commands takes nobody out. -/
theorem takes_of_conforms {p : Prog α} (hp : p.Conforms Mild True) {s : Snap V.system}
    (hw : Waiting [] (board s.world)) : Alone o i p (fun _ s' => Takes none s s') s :=
  (Discipline.solo_conforms (J := fun s' => Takes none s s') hp
    (fun s' es h => h.trans ((still_elapse s' es).takes h.moderated.waiting))
    (fun _ _ hc h => ⟨h.trans (takes_exec hc h.moderated.waiting), .inr trivial⟩)
    ((Still.refl s).takes hw)).weaken fun _ _ h => h.2

theorem mends_of_conforms {p : Prog α} (hp : p.Conforms Mild True) : Mends o i p := fun _ hw =>
  (takes_of_conforms hp hw).weaken fun _ _ h => h.moderated

theorem mends_ret (r : Except Err α) : Mends o i (.ret r) :=
  fun s hw => (Still.refl s).moderated hw

theorem mends_db {c : DbCmd} (htokens : ¬(Cmd.db c).movesTokens)
    (hsessions : ¬(Cmd.db c).movesSessions) : Mends o i (prisma c) :=
  mends_of_conforms (Proc.conforms_await (mild_db htokens hsessions))

theorem mends_host (c : HostCmd) : Mends o i (host c) :=
  mends_of_conforms (Proc.conforms_await (mild_host c))

theorem mends_redis {c : RedisCmd} (h : Mild (.redis c)) : Mends o i (redis c) :=
  mends_of_conforms (Proc.conforms_await h)

/-! ## The removal -/

/-- Where the stored entry parses, its queue key is the one found. -/
theorem storedQueueKey_of_parse {r : RedisString} {state : QueueEntryState}
    (h : parseQueueEntryState (some r) = some state) : storedQueueKey r = some state.queueKey := by
  simp only [parseQueueEntryState, Option.bind_some] at h
  unfold storedQueueKey
  split at h
  · next queueKey joinedAt hkey _ =>
      split at h
      · cases h
      · next hne =>
          cases h
          simp only [hkey, if_neg hne]
  · cases h

/-- A user found in a set is taken out, and the entry is deleted. -/
theorem takes_removal {u : UserId} {k : QueueKey} {s s₁ s₂ : Snap V.system}
    (hw : Waiting [] (board s.world)) (hq : (board s.world).queued u = some k) (h₁ : Still s s₁)
    (h₂ : Still (s₁.exec i (.redis (.zrem k u))) s₂) :
    Takes (some u) s (s₂.exec i (.redis (.del [.queueUser u]))) := by
  have hboard : board (s₂.exec i (.redis (.del [.queueUser u]))).world =
      ((board s.world).zrem k u).setEntry u none := by
    change board ((RedisCmd.del [.queueUser u]).exec s₂.world).2 = _
    rw [board_delEntry, h₂.board]
    change (board ((RedisCmd.zrem k u).exec s₁.world).2).setEntry u none = _
    rw [board_zrem, h₁.board]
  have hwithout := without_zrem_clear hw hq
  have hfades : Fades s.world (s₂.exec i (.redis (.del [.queueUser u]))).world :=
    h₁.fades.trans ((fades_exec (c := .redis (.zrem k u)) (fun _ _ h => h) _).trans
      (h₂.fades.trans (fades_exec (c := .redis (.del [.queueUser u])) (fun _ _ h => h) _)))
  have hqueued : ∀ v, (board (s₂.exec i (.redis (.del [.queueUser u]))).world).queued v =
      if some u = some v then none else (board s.world).queued v := by
    intro v
    rw [hboard, hwithout.queued]
    simp only [Option.some.injEq, eq_comm]
  refine ⟨⟨?_, ?_, ?_, fun v k' hv => ?_, fun hun => hun.fades hfades, fun v => ?_, fun v => ?_, ?_,
    fun v r hr => .inl (hfades.bans v r hr)⟩, hqueued⟩
  · rw [hboard]
    exact hwithout.waiting
  · rw [hboard]
    rfl
  · rw [hboard]
    rfl
  · rw [hqueued] at hv
    split at hv
    · cases hv
    · exact hv
  · rw [debits_exec, h₂.unmoved.debits, debits_exec, h₁.unmoved.debits]
    rfl
  · rw [refunds_exec, h₂.unmoved.refunds, refunds_exec, h₁.unmoved.refunds]
    rfl
  · exact h₁.unmoved.plain.trans (.trans (.exec (plain_redis (by nofun) (by nofun)))
      (h₂.unmoved.plain.trans (.exec (plain_redis (by nofun) (by nofun)))))

/-- **`removeFromQueueIfPresent`.** -/
theorem takes_removeFromQueueIfPresent (u : UserId) {s : Snap V.system}
    (hw : Waiting [] (board s.world)) :
    Alone o i (removeFromQueueIfPresent u) (fun _ s' => Takes (some u) s s') s := by
  refine alone_get (by nofun) fun s₁ h₁ => ?_
  have hw₁ : Waiting [] (board s₁.world) := by rw [h₁.board]; exact hw
  have hparse := hw₁.parse_entry u
  have hentry := hw₁.get_entry u
  cases hraw : s₁.world.get (.queueUser u) with
  | none =>
      refine ⟨h₁.moderated hw, fun v => ?_⟩
      rw [h₁.board]
      split
      · next hv =>
          rw [hraw, h₁.board] at hparse
          rw [← Option.some.inj hv, ← hparse]
          rfl
      · rfl
  | some r =>
      rw [hraw] at hparse hentry
      have hsome : ∃ e, (board s₁.world).entries u = some e ∧ e.val = r := by
        cases he : (board s₁.world).entries u with
        | none => rw [he] at hentry; cases hentry
        | some e => rw [he] at hentry; exact ⟨e, rfl, (Option.some.inj hentry).symm⟩
      obtain ⟨e, he, -⟩ := hsome
      have hqueued := hw₁.parses u e he
      rw [← hparse] at hqueued
      cases hstate : parseQueueEntryState (some r) with
      | none =>
          rw [hstate] at hqueued
          cases hqueued
      | some state =>
          rw [hstate] at hparse
          have hq : (board s₁.world).queued u = some state.queueKey := hparse.symm
          have htruthy : truthy (some r) = true := by
            by_contra hfalsy
            rw [not_truthy_of_parse hfalsy] at hstate
            cases hstate
          change Alone o i (if !truthy (some r) then _ else _) _ s₁
          rw [htruthy]
          refine (Discipline.valid_tryFinally (Discipline.valid_tryCatch ?_) :
            Alone o i (Proc.tryFinally _ _) _ s₁)
          rw [storedQueueKey_of_parse hstate]
          refine alone_redis fun s₂ h₂ => Discipline.solo_last fun es => ?_
          have h₃ := still_elapse (s₂.exec i (.redis (.zrem state.queueKey u))) es
          exact (h₁.takes hw).trans (takes_removal hw₁ hq h₂ h₃)

theorem mends_removeFromQueueIfPresent (u : UserId) : Mends o i (removeFromQueueIfPresent u) :=
  fun _ hw => (takes_removeFromQueueIfPresent u hw).weaken fun _ _ h => h.moderated

/-! ## The operations -/

/-- A report may take the reported user out. -/
theorem mends_createReport (reporterId : UserId) (input : ReportUserDto) :
    Mends o i (createReport reporterId input) := by
  unfold createReport
  split
  · exact mends_ret _
  dsimp only
  split
  · exact mends_ret _
  refine (mends_host _).bind fun now => (mends_db id id).bind fun reportCount => ?_
  split
  · exact mends_ret _
  refine (mends_db id id).bind fun report => Mends.bind ?_ fun _ =>
    (mends_removeFromQueueIfPresent _).bind fun _ => (mends_host _).bind fun _ => mends_ret _
  exact (mends_redis (mild_get (by nofun))).bind fun _ => mends_redis (mild_set (by trivial) _ _)

/-- A block that is new or set again takes the blocked user out. -/
theorem mends_createBlock (blockerId blockedId : UserId) :
    Mends o i (createBlock blockerId blockedId) := by
  unfold createBlock
  split
  · exact mends_ret _
  refine (mends_db id id).bind fun existing => ?_
  cases existing with
  | none =>
      exact (mends_db id id).bind fun _ => (mends_removeFromQueueIfPresent _).bind fun _ => mends_ret _
  | some existing =>
      dsimp only
      split
      · exact mends_ret _
      · exact (mends_db id id).bind fun _ => (mends_removeFromQueueIfPresent _).bind fun _ => mends_ret _

theorem mild_unblock (blockerId blockedId : UserId) :
    (unblock blockerId blockedId).Conforms Mild True := by
  refine (unblock_issues blockerId blockedId).mono fun c hc => ?_
  cases hc with
  | now => exact mild_host _
  | find | lift _ _ => exact mild_db id id

/-- A report that is resolved blocks the reported user for the reporter. -/
theorem mends_resolveReport (reportId : String) (action : ModerationAction) :
    Mends o i (resolveReport reportId action) := by
  refine (mends_db id id).bind fun report => (mends_createBlock _ _).bind fun _ => ?_
  dsimp only
  split
  · exact (mends_redis (mild_ban _ _)).bind fun _ => (mends_host _).bind fun _ =>
      (mends_host _).bind fun _ => mends_ret _
  · exact (mends_host _).bind fun _ => (mends_host _).bind fun _ => mends_ret _

section Webhook

/-- The end of a session deletes the markers of its participants. -/
theorem mild_end {self : Instance} {session : Session} {reason : EndReason} {c : Cmd}
    (h : Sessions.EndCommand self session reason c) : Mild c := by
  cases h with
  | claim => exact mild_setNX (by trivial) _ _
  | release =>
      refine mild_del fun k hk => ?_
      rcases List.mem_pair.mp hk with rfl | rfl <;> trivial
  | deadline h =>
      cases h with
      | read => exact mild_get (by nofun)
      | now => exact mild_host _
      | store _ => exact mild_setNX (by trivial) _ _
  | disarm | now | tell _ | arm _ => exact mild_host _

theorem mild_violation {self : Instance} {payload : HiveViolationPayload} {c : Cmd}
    (h : ViolationCommand self payload c) : Mild c := by
  rcases h with _ | h
  · exact mild_db id id
  cases h with
  | now | detect => exact mild_host _
  | record _ => exact mild_db id id
  | finish h => exact mild_end h
  | act h =>
      cases h with
      | now | tell _ _ _ _ => exact mild_host _
      | count _ => exact mild_db id id
      | cooldown => exact mild_setNX (by trivial) _ _
      | ban => exact mild_ban _ _

theorem mild_handleWebhook (self : Instance) (sched : Schedules) (payload : HiveViolationPayload)
    (delivery : HiveWebhookDelivery) :
    (handleWebhook self sched payload delivery).Conforms Mild True := by
  refine (handleWebhook_issues self sched payload delivery).mono fun c hc => ?_
  cases hc with
  | reserve _ _ => exact mild_setNX (by trivial) _ _
  | process h => exact mild_violation h

theorem mends_handleWebhook (self : Instance) (sched : Schedules) (payload : HiveViolationPayload)
    (delivery : HiveWebhookDelivery) : Mends o i (handleWebhook self sched payload delivery) :=
  mends_of_conforms (mild_handleWebhook self sched payload delivery)

end Webhook

end VerityBackend.Matchmaking
