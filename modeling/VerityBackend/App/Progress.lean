/-
VerityBackend.App.Progress — when the worker creates a session at all.

A pair of users who are blocked with each other goes back to the end of the
queue, side by side, so the pairs that come up are always neighbours in the
order the users started in. `Meets` says that two of them are not blocked,
and `progress_iff_meets` that a session is created, sooner or later and
whatever the clock reads, in just this case.
-/
import VerityBackend.App.Aside
import VerityBackend.Async.Failing
import VerityBackend.Matches.Blocks
import VerityBackend.Store.Turns

namespace VerityBackend.App

open Async Queue Store

/-! ## Passes -/

/-- A world, and how often `Date.now()` has been read. -/
abbrev Reading := World × Nat

/-- Time passes before each reading of the clock, up to `clock i` before the
`i`-th one. -/
def readAt (clock : Nat → Nat) : (c : Cmd) → Reading → Except Err c.Res × Reading
  | .host .now, (w, i) =>
      let w' := w.env (.tick (clock i - w.clock))
      (((Cmd.host .now).exec w').1, ((Cmd.host .now).exec w').2, i + 1)
  | c, (w, i) => ((c.exec w).1, (c.exec w).2, i)

/-- So many passes of the worker over one queue. -/
def passes (clock : Nat → Nat) (queueKey : QueueKey) (s : Reading) : Nat → Reading
  | 0 => s
  | n + 1 => ((processQueueKey queueKey).run (readAt clock) (passes clock queueKey s n)).2

/-- A queue of two or more users, in which nothing has been taken out and
nobody's lock is held. No score is more than the delay of a deferred pair
ahead of the clock. -/
structure Filled (queueKey : QueueKey) (w : World) : Prop where
  two : 2 ≤ (w.zset queueKey).zcard
  users : ∀ u ∈ w.zset queueKey, w.db.hasUser u = true
  entries : ∀ u ∈ w.zset queueKey, (w.stored (.queueUser u)).any fun e =>
    e.expiresAt.isNone && inQueue queueKey (some e.val)
  unlocked : ∀ u ∈ w.zset queueKey, w.get (.queueLock u) = none
  scores : ∀ x ∈ (w.zset queueKey).entries, x.score ≤ w.clock + 5000

def blocked (w : World) (a b : UserId) : Bool := (w.db.findBlockBetween a b).isSome

/-- The users in the order of their scores, the last one followed by the
first: two neighbours are not blocked with each other. In an even round only
the first and the second, the third and the fourth, and so on, count. -/
def Meets (queueKey : QueueKey) (w : World) : Prop :=
  let users := (w.zset queueKey).members
  ∃ i : Fin users.length, (i.val % 2 = 0 ∨ users.length % 2 = 1) ∧
    blocked w users[i] (users.get ⟨(i.val + 1) % users.length, Nat.mod_lt _ i.pos⟩) = false

instance (queueKey : QueueKey) (w : World) : Decidable (Meets queueKey w) :=
  inferInstanceAs (Decidable (∃ _ : Fin (w.zset queueKey).members.length, _ ∧ _))

/-- A session more than there were. -/
def Matched (w : World) (s : Reading) : Prop := w.db.sessions.length < s.1.db.sessions.length

theorem blocked_comm (w : World) (a b : UserId) : blocked w a b = blocked w b a := by
  unfold blocked Db.findBlockBetween
  simp only [Matches.Block.isBetween_comm]

/-! ## Sessions stay -/

section Matched

variable {clock : Nat → Nat} {w : World} {s : Reading}

theorem sessions_queued {c : Cmd} (hc : c.queued = true) (w : World) :
    w.db.sessions.length ≤ (c.exec w).2.db.sessions.length := by
  have hsame (h : ¬c.movesSessions) : w.db.sessions.length ≤ (c.exec w).2.db.sessions.length := by
    rw [(c.tables_exec w).sessions h]
  cases c with
  | redis c => exact hsame id
  | host c => exact hsame id
  | db c =>
      cases c with
      | sessionCreate a b region q =>
          simp only [Cmd.exec_db, DbCmd.exec, World.create]
          split
          · simp
          · exact Nat.le_refl _
      | sessionDeleteMany cutoff => cases hc
      | _ => exact hsame id

theorem Matched.readAt {c : Cmd} (hc : c.queued = true) (h : Matched w s) :
    Matched w (readAt clock c s).2 := by
  unfold App.readAt
  split
  · exact h
  · exact Nat.lt_of_lt_of_le h (sessions_queued hc _)

theorem Matched.run {α : Type} {p : Prog α} (h : Matched w s) (hp : Queued p) :
    Matched w (p.run (App.readAt clock) s).2 :=
  hp.run_keeps (J := Matched w) (fun _ _ hc hs => hs.readAt hc) h

/-- What follows keeps the session. -/
theorem Matched.bind {α β : Type} {p : Prog α} {f : α → Prog β}
    (h : Matched w (p.run (App.readAt clock) s).2) (hf : ∀ a, Queued (f a)) :
    Matched w ((p.bind f).run (App.readAt clock) s).2 := by
  rw [Proc.run_bind]
  rcases hrun : p.run (App.readAt clock) s with ⟨_ | a, s'⟩
  · rw [hrun] at h
    exact h
  · rw [hrun] at h
    exact h.run (hf a)

end Matched

/-! ## The pairs that come up -/

section Standing

variable {clock : Nat → Nat} {queueKey : QueueKey} {w : World} {s : Reading} {k : Nat}

/-- The queue after `k` turns. -/
def order (clock : Nat → Nat) (queueKey : QueueKey) (w : World) (k : Nat) : SortedSet UserId :=
  SortedSet.turn (fun i => clock i + 5000) (w.zset queueKey) k

theorem zcard_order (clock : Nat → Nat) (hw : Filled queueKey w) (k : Nat) :
    (order clock queueKey w k).zcard = (w.zset queueKey).zcard := (SortedSet.mem_turn hw.two _ k).1

theorem mem_order (hw : Filled queueKey w) {u : UserId} (hu : u ∈ order clock queueKey w k) :
    u ∈ w.zset queueKey := ((SortedSet.mem_turn hw.two _ k).2 u).mp hu

/-- Only turns have been made so far, `k` of them. -/
structure Standing (clock : Nat → Nat) (queueKey : QueueKey) (w : World) (k : Nat) (s : Reading) :
    Prop where
  zset : s.1.zset queueKey = order clock queueKey w k
  reading : s.2 = k
  db : s.1.db = w.db
  strings : s.1.redis.strings = w.redis.strings
  past : w.clock ≤ s.1.clock
  future : s.1.clock < clock k

namespace Standing

theorem entry (h : Standing clock queueKey w k s) (hw : Filled queueKey w) {u : UserId}
    (hu : u ∈ order clock queueKey w k) : inQueue queueKey (s.1.get (.queueUser u)) = true := by
  obtain ⟨e, he, hin⟩ := (Option.any_eq_true _ _).mp (hw.entries u (mem_order hw hu))
  rw [Bool.and_eq_true, Option.isNone_iff_eq_none] at hin
  have hstored : s.1.stored (.queueUser u) = some e := by
    rw [World.stored, h.strings]
    exact he
  have hpermanent : ∀ e', s.1.stored (.queueUser u) = some e' → e'.expiresAt = none := by
    intro e' he'
    rw [hstored] at he'
    cases he'
    exact hin.1
  rw [World.get_of_permanent hpermanent, hstored]
  exact hin.2

theorem unlocked (h : Standing clock queueKey w k s) (hw : Filled queueKey w) {u : UserId}
    (hu : u ∈ order clock queueKey w k) : s.1.get (.queueLock u) = none := by
  have hnone := hw.unlocked u (mem_order hw hu)
  cases hget : s.1.get (.queueLock u) with
  | none => rfl
  | some r =>
      obtain ⟨e, he, -⟩ := Keyspace.get_eq_some.mp hget
      rw [h.strings] at he
      have hearly : w.get (.queueLock u) = some e.val :=
        Keyspace.get_eq_some.mpr ⟨e, Keyspace.entry_antitone h.past he, rfl⟩
      rw [hnone] at hearly
      cases hearly

end Standing

/-- The pair `ZPOPMIN` takes out of the queue. -/
def pairOf (a b : Ranked UserId) : QueuePair := ⟨a.member, a.score, b.member, b.score⟩

theorem popPair_turn (clock : Nat → Nat) {a b : Ranked UserId} {rest : List (Ranked UserId)}
    (h : (s.1.zset queueKey).entries = a :: b :: rest) :
    (popPair queueKey).run (readAt clock) s =
      (.ok (some (pairOf a b)), s.1.setZset queueKey ((s.1.zset queueKey).zpopmin 2), s.2) := by
  have hpop : (redis (.zpopmin queueKey 2)).run (readAt clock) s =
      (.ok [a, b], s.1.setZset queueKey ((s.1.zset queueKey).zpopmin 2), s.2) := by
    rw [Proc.run_await]
    have hlowest : (s.1.zset queueKey).lowest 2 = [a, b] := by
      rw [SortedSet.lowest, h]
      rfl
    simp only [readAt, Cmd.exec_redis, RedisCmd.exec, hlowest]
  unfold popPair
  exact Proc.run_bind_ok _ hpop _

theorem acquireLock_free (clock : Nat → Nat) {u : UserId} (h : s.1.get (.queueLock u) = none) :
    ∃ lockValue s', (acquireLock u).run (readAt clock) s = (.ok (some lockValue), s') ∧
      s'.1.db = s.1.db ∧ ∀ u', u' ≠ u → s'.1.get (.queueLock u') = s.1.get (.queueLock u') := by
  have hget : ({ s.1 with nextId := s.1.nextId + 1 } : World).get (.queueLock u) = none := h
  unfold acquireLock
  simp only [Proc.bind_eq, Proc.run_bind, Proc.run_await, readAt, Cmd.exec_host, HostCmd.exec,
    Cmd.exec_redis, RedisCmd.exec, hget, if_true, Proc.pure_eq, Proc.run_ret]
  refine ⟨_, _, rfl, rfl, fun u' hu' => ?_⟩
  exact World.get_set_ne (by simpa using hu')

/-- A pair taken out of a queue in which only turns have been made. -/
structure Popped (clock : Nat → Nat) (queueKey : QueueKey) (w : World) (k : Nat)
    (a b : Ranked UserId) (s : Reading) : Prop where
  standing : ∃ s₀, Standing clock queueKey w k s₀ ∧
    s = (s₀.1.setZset queueKey ((s₀.1.zset queueKey).zpopmin 2), s₀.2)
  entries : ∃ rest, (order clock queueKey w k).entries = a :: b :: rest

namespace Popped

variable {a b : Ranked UserId}

theorem mem (h : Popped clock queueKey w k a b s) :
    a.member ∈ order clock queueKey w k ∧ b.member ∈ order clock queueKey w k := by
  obtain ⟨rest, hentries⟩ := h.entries
  simp only [SortedSet.mem_def, SortedSet.members, hentries, List.map_cons]
  exact ⟨List.mem_cons_self, List.mem_cons_of_mem _ List.mem_cons_self⟩

/-- Both users of the pair are in the queue. -/
theorem mget (h : Popped clock queueKey w k a b s) (hw : Filled queueKey w) :
    ∃ rawA rawB, (redis (.mget (.queueUser (pairOf a b).userA)
      (.queueUser (pairOf a b).userB))).run (readAt clock) s = (.ok (rawA, rawB), s) ∧ inQueue queueKey rawA = true ∧ inQueue queueKey rawB = true := by
  obtain ⟨s₀, hs₀, rfl⟩ := h.standing
  exact ⟨_, _, rfl, hs₀.entry hw h.mem.1, hs₀.entry hw h.mem.2⟩

/-- What is left of `validatePair` for two users who are in the queue. -/
theorem validatePair_eq (h : Popped clock queueKey w k a b s) (hw : Filled queueKey w) :
    (validatePair queueKey (pairOf a b)).run (readAt clock) s =
      (if blocked w a.member b.member then
        (deferBlockedPair queueKey (pairOf a b)).bind fun _ => pure false
      else pure true : Prog Bool).run (readAt clock) s := by
  obtain ⟨rawA, rawB, hmget, hA, hB⟩ := h.mget hw
  have hblocked : (isPairBlocked (pairOf a b).userA (pairOf a b).userB).run (readAt clock) s =
      (.ok (blocked w a.member b.member), s) := by
    obtain ⟨s₀, hs₀, rfl⟩ := h.standing
    have hdb : (s₀.1.setZset queueKey ((s₀.1.zset queueKey).zpopmin 2)).db = w.db := hs₀.db
    unfold isPairBlocked
    simp only [Proc.bind_eq, Proc.run_bind, Proc.run_await, readAt, Cmd.exec_db, DbCmd.exec,
      Option.isSome_map, hdb]
    rfl
  unfold validatePair
  rw [Proc.bind_eq, Proc.run_bind_ok _ hmget]
  simp only [hA, hB, Bool.not_true, Bool.and_self, Bool.false_eq_true, if_false]
  exact Proc.run_bind_ok _ hblocked _

theorem deferBlockedPair_turn (h : Popped clock queueKey w k a b s) (hgrow : StrictMono clock) :
    ∃ s', (deferBlockedPair queueKey (pairOf a b)).run (readAt clock) s = (.ok (), s') ∧
      Standing clock queueKey w (k + 1) s' := by
  obtain ⟨s₀, hs₀, rfl⟩ := h.standing
  obtain ⟨rest, hentries⟩ := h.entries
  have hclock : s₀.1.clock + (clock s₀.2 - s₀.1.clock) = clock k := by
    have := hs₀.future
    rw [hs₀.reading]
    omega
  set w₁ := s₀.1.setZset queueKey ((s₀.1.zset queueKey).zpopmin 2) with hw₁
  set w₂ := w₁.env (.tick (clock s₀.2 - w₁.clock)) with hw₂
  have hclock₂ : w₂.clock = clock k := hclock
  have hturn : ((w₂.zset queueKey).zaddAll [⟨w₂.clock + 5000, (pairOf a b).userA⟩,
      ⟨w₂.clock + 5000 + 1, (pairOf a b).userB⟩]) = order clock queueKey w (k + 1) := by
    have hzset : w₂.zset queueKey = (order clock queueKey w k).zpopmin 2 := by
      rw [← hs₀.zset]
      exact if_pos rfl
    rw [order, SortedSet.turn, ← order, SortedSet.defer_of_entries hentries, hzset, hclock₂]
    rfl
  refine ⟨(w₂.setZset queueKey ((w₂.zset queueKey).zaddAll
    [⟨w₂.clock + 5000, (pairOf a b).userA⟩, ⟨w₂.clock + 5000 + 1, (pairOf a b).userB⟩]), s₀.2 + 1),
    rfl, ⟨?_, congrArg (· + 1) hs₀.reading, hs₀.db, hs₀.strings, ?_, ?_⟩⟩
  · rw [hturn]
    exact if_pos rfl
  · exact hs₀.past.trans (Nat.le_add_right _ _)
  · exact hclock.trans_lt (hgrow (Nat.lt_succ_self k))

/-- A blocked pair goes back. -/
theorem matchPair_blocked (h : Popped clock queueKey w k a b s) (hw : Filled queueKey w)
    (hgrow : StrictMono clock) (hblocked : blocked w a.member b.member = true) :
    ∃ s', (matchPair queueKey (pairOf a b)).run (readAt clock) s = (.ok (), s') ∧
      Standing clock queueKey w (k + 1) s' := by
  obtain ⟨s', hrun, hs'⟩ := h.deferBlockedPair_turn hgrow
  have hvalid : (validatePair queueKey (pairOf a b)).run (readAt clock) s = (.ok false, s') := by
    rw [h.validatePair_eq hw, if_pos hblocked, Proc.run_bind_ok _ hrun]
    rfl
  refine ⟨s', ?_, hs'⟩
  unfold matchPair
  rw [Proc.bind_eq, Proc.run_bind_ok _ hvalid]
  rfl

/-- The locks of both users are free. -/
theorem lockUsers_turn (h : Popped clock queueKey w k a b s) (hw : Filled queueKey w) :
    ∃ locks s', (lockUsers [(pairOf a b).userA, (pairOf a b).userB]).run (readAt clock) s =
      (.ok (some locks), s') ∧ s'.1.db = w.db := by
  obtain ⟨rest, hentries⟩ := h.entries
  have hmem := h.mem
  obtain ⟨s₀, hs₀, rfl⟩ := h.standing
  have hne : a.member ≠ b.member := (SortedSet.not_mem_zpopmin_two hentries).2.2
  have hA := hs₀.unlocked hw hmem.1
  have hB := hs₀.unlocked hw hmem.2
  obtain ⟨lockA, s₁, hrun₁, hdb₁, hget₁⟩ := acquireLock_free clock
    (s := (s₀.1.setZset queueKey ((s₀.1.zset queueKey).zpopmin 2), s₀.2)) hA
  obtain ⟨lockB, s₂, hrun₂, hdb₂, -⟩ := acquireLock_free clock (s := s₁) (u := b.member)
    ((hget₁ _ hne.symm).trans hB)
  refine ⟨[(a.member, lockA), (b.member, lockB)], s₂, ?_, hdb₂.trans (hdb₁.trans hs₀.db)⟩
  unfold lockUsers lockUsersFrom
  refine (Proc.run_bind_ok _ hrun₁ _).trans ?_
  dsimp only
  unfold lockUsersFrom
  refine (Proc.run_bind_ok _ hrun₂ _).trans ?_
  have hlocks : setLock b.member lockB [(a.member, lockA)] = [(a.member, lockA), (b.member, lockB)] :=
    setLock_of_not_mem (by simpa using hne.symm)
  exact congrArg (fun locks => (Except.ok (some locks), s₂)) hlocks

/-- Two users who are not blocked get a session. -/
theorem matchPair_unblocked (h : Popped clock queueKey w k a b s) (hw : Filled queueKey w)
    (hblocked : blocked w a.member b.member = false) :
    Matched w ((matchPair queueKey (pairOf a b)).run (readAt clock) s).2 := by
  have hvalid : (validatePair queueKey (pairOf a b)).run (readAt clock) s = (.ok true, s) := by
    rw [h.validatePair_eq hw, hblocked]
    rfl
  have huser {u : UserId} (hu : u ∈ order clock queueKey w k) : w.db.hasUser u = true :=
    hw.users u (mem_order hw hu)
  obtain ⟨locks, s', hlocks, hdb⟩ := h.lockUsers_turn hw
  have hmatched : Matched w ((matchLocked queueKey (pairOf a b)).run (readAt clock) s').2 := by
    obtain ⟨t, s'', hnow, hdb'⟩ : ∃ t s'', (host .now).run (readAt clock) s' = (.ok t, s'') ∧
        s''.1.db = w.db := ⟨_, _, rfl, hdb⟩
    have hcreate : Matched w ((createSession (pairOf a b).userA (pairOf a b).userB queueKey).run
        (readAt clock) s'').2 := by
      refine Matched.bind ?_ fun _ => (queued_await rfl).bind fun _ => Proc.conforms_pure _
      have hA := huser h.mem.1
      have hB := huser h.mem.2
      rw [Proc.run_await]
      simp only [readAt, Cmd.exec_db, DbCmd.exec, hdb', pairOf, hA, hB, Bool.and_self, if_true,
        World.create, Matched, List.length_append, List.length_singleton, Nat.lt_succ_self]
    unfold matchLocked
    rw [Proc.bind_eq, Proc.run_bind_ok _ hnow]
    refine hcreate.bind fun _ => ?_
    exact (queued_await rfl).bind fun _ => queued_await rfl
  unfold matchPair
  rw [Proc.bind_eq, Proc.run_bind_ok _ hvalid, Bool.not_true, if_neg Bool.false_ne_true,
    Proc.bind_eq]
  have hfinally : Matched w (((matchLocked queueKey (pairOf a b)).tryFinally
      (releaseUserLocks locks)).run (readAt clock) s').2 := by
    have hrelease : Matched w ((releaseUserLocks locks).run (readAt clock) _).2 :=
      hmatched.run ((releaseUserLocks_issues locks).mono fun _ => queued_lock)
    rw [Proc.run_tryFinally]
    rcases hrun : (releaseUserLocks locks).run (readAt clock)
      ((matchLocked queueKey (pairOf a b)).run (readAt clock) s').2 with ⟨_ | _, s₁⟩ <;>
    · rw [hrun] at hrelease
      exact hrelease
  rw [Proc.run_bind_ok _ hlocks]
  exact hfinally

end Popped

/-! ## Whole passes -/

/-- The pair of turn `k` may talk. -/
def Free (clock : Nat → Nat) (queueKey : QueueKey) (w : World) (k : Nat) : Prop :=
  ∃ a b, (order clock queueKey w k).head = some (a, b) ∧ blocked w a b = false

/-- So many turns and no session, or a session in one of them. -/
def Goes (clock : Nat → Nat) (queueKey : QueueKey) (w : World) (k n : Nat) (s : Reading) : Prop :=
  (Standing clock queueKey w (k + n) s ∧ ∀ j < n, ¬Free clock queueKey w (k + j)) ∨
    (Matched w s ∧ ∃ j < n, Free clock queueKey w (k + j))

theorem Standing.matchLoop (hw : Filled queueKey w) (hgrow : StrictMono clock) (n : Nat)
    (h : Standing clock queueKey w k s) :
    Goes clock queueKey w k n ((matchLoop queueKey n).run (readAt clock) s).2 := by
  induction n generalizing k s with
  | zero => exact .inl ⟨h, fun j hj => absurd hj (Nat.not_lt_zero j)⟩
  | succ n ih =>
      obtain ⟨a, b, rest, hentries⟩ :=
        SortedSet.entries_of_two (hw.two.trans_eq (zcard_order clock hw k).symm)
      have hhead : (order clock queueKey w k).head = some (a.member, b.member) :=
        SortedSet.head_of_entries hentries
      have hentries' : (s.1.zset queueKey).entries = a :: b :: rest := by
        rw [h.zset]
        exact hentries
      have hpop := popPair_turn clock hentries'
      have hpopped : Popped clock queueKey w k a b
          (s.1.setZset queueKey ((s.1.zset queueKey).zpopmin 2), s.2) :=
        ⟨⟨s, h, rfl⟩, rest, hentries⟩
      rw [Queue.matchLoop, Proc.bind_eq, Proc.run_bind_ok _ hpop]
      dsimp only
      rw [Proc.bind_eq]
      cases hblocked : blocked w a.member b.member with
      | true =>
          obtain ⟨s', hrun, hs'⟩ := hpopped.matchPair_blocked hw hgrow hblocked
          have hnot : ¬Free clock queueKey w k := by
            rintro ⟨x, y, hxy, hfree⟩
            rw [hhead] at hxy
            cases hxy
            rw [hblocked] at hfree
            cases hfree
          rw [Proc.run_bind_ok _ hrun]
          have hshift (j : Nat) : k + 1 + j = k + (j + 1) := by omega
          rcases ih hs' with ⟨hstand, hall⟩ | ⟨hmatched, j, hj, hfree⟩
          · refine .inl ⟨hshift n ▸ hstand, fun j hj => ?_⟩
            cases j with
            | zero => exact hnot
            | succ j => exact hshift j ▸ hall j (by omega)
          · exact .inr ⟨hmatched, j + 1, by omega, hshift j ▸ hfree⟩
      | false =>
          refine .inr ⟨?_, 0, by omega, a.member, b.member, hhead, hblocked⟩
          exact (hpopped.matchPair_unblocked hw hblocked).bind fun _ =>
            (matchLoop_issues queueKey n).mono fun _ => queued_pass

theorem Standing.getQueueSize (h : Standing clock queueKey w k s) (hw : Filled queueKey w) :
    (getQueueSize queueKey).run (readAt clock) s =
      (.ok (if queueKey = "" then 0 else (w.zset queueKey).zcard), s) := by
  unfold Queue.getQueueSize
  split
  · rfl
  · rw [Proc.run_await, ← zcard_order clock hw k, ← h.zset]
    rfl

/-- A queue with somebody in it stays registered. -/
theorem Standing.cleanupQueueKey (h : Standing clock queueKey w k s) (hw : Filled queueKey w) :
    (cleanupQueueKey queueKey).run (readAt clock) s = (.ok (), s) := by
  have hsize : (redis (.zcard queueKey)).run (readAt clock) s =
      (.ok (w.zset queueKey).zcard, s) := by
    rw [Proc.run_await, ← zcard_order clock hw k, ← h.zset]
    rfl
  have hne : (w.zset queueKey).zcard ≠ 0 := by
    have := hw.two
    omega
  unfold Queue.cleanupQueueKey
  rw [Proc.bind_eq, Proc.run_bind_ok _ hsize, if_neg hne]
  rfl

/-- A pass that creates no session makes its turns and nothing else. -/
theorem Standing.processQueueKey (hw : Filled queueKey w) (hgrow : StrictMono clock)
    (h : Standing clock queueKey w k s) :
    Goes clock queueKey w k MAX_MATCHES_PER_KEY
      ((processQueueKey queueKey).run (readAt clock) s).2 := by
  have hloop := h.matchLoop hw hgrow MAX_MATCHES_PER_KEY
  have hrest : ∀ u : Unit, Queued (do
      Queue.cleanupQueueKey queueKey
      let sizeAfter ← Queue.getQueueSize queueKey
      if sizeAfter ≠ (if queueKey = "" then 0 else (w.zset queueKey).zcard) then
        emitQueueStatus queueKey else pure ()) := by
    intro
    refine ((cleanupQueueKey_issues queueKey).mono fun _ => queued_cleanup).bind fun _ =>
      ((getQueueSize_issues queueKey).mono fun _ => queued_status).bind fun sizeAfter => ?_
    generalize (if queueKey = "" then 0 else (w.zset queueKey).zcard) = sizeBefore
    split
    · exact (emitQueueStatus_issues queueKey).mono fun _ => queued_status
    · exact Proc.conforms_pure ()
  unfold Queue.processQueueKey
  rw [Proc.bind_eq, Proc.run_bind_ok _ (h.getQueueSize hw), Proc.bind_eq]
  rcases hloop with ⟨hstand, hall⟩ | ⟨hmatched, hfree⟩
  · refine .inl ⟨?_, hall⟩
    rw [Proc.run_bind]
    rcases hrun : (Queue.matchLoop queueKey MAX_MATCHES_PER_KEY).run (readAt clock) s with ⟨_ | _, s'⟩
    · rw [hrun] at hstand
      exact hstand
    · rw [hrun] at hstand
      dsimp only
      rw [Proc.bind_eq, Proc.run_bind_ok _ (hstand.cleanupQueueKey hw), Proc.bind_eq,
        Proc.run_bind_ok _ (hstand.getQueueSize hw), if_neg (fun hne => hne rfl)]
      exact hstand
  · exact .inr ⟨hmatched.bind hrest, hfree⟩

/-- So many passes make ten times as many turns, or create a session. -/
theorem passes_go (hw : Filled queueKey w) (hgrow : StrictMono clock) (hstart : w.clock < clock 0)
    (n : Nat) :
    Goes clock queueKey w 0 (MAX_MATCHES_PER_KEY * n) (passes clock queueKey (w, 0) n) := by
  induction n with
  | zero => exact .inl ⟨⟨rfl, rfl, rfl, rfl, Nat.le_refl _, hstart⟩, fun j hj => absurd hj (Nat.not_lt_zero j)⟩
  | succ n ih =>
      rcases ih with ⟨hstand, hall⟩ | ⟨hmatched, j, hj, hfree⟩
      · rcases hstand.processQueueKey hw hgrow with ⟨hnext, hmore⟩ | ⟨hmatched, j, hj, hfree⟩
        · refine .inl ⟨?_, fun j hj => ?_⟩
          · rwa [Nat.mul_succ, ← Nat.add_assoc]
          · rcases Nat.lt_or_ge j (MAX_MATCHES_PER_KEY * n) with hlt | hge
            · exact hall j hlt
            · have hj' := hmore (j - MAX_MATCHES_PER_KEY * n) (by rw [Nat.mul_succ] at hj; omega)
              rwa [show 0 + MAX_MATCHES_PER_KEY * n + (j - MAX_MATCHES_PER_KEY * n) = 0 + j by
                omega] at hj'
        · refine .inr ⟨hmatched, MAX_MATCHES_PER_KEY * n + j, by rw [Nat.mul_succ]; omega, ?_⟩
          rwa [← Nat.add_assoc]
      · refine .inr ⟨hmatched.run (queued_queue (.processQueueKey queueKey)), j, ?_, hfree⟩
        rw [Nat.mul_succ]
        omega

end Standing

section Progress

variable {clock : Nat → Nat} {queueKey : QueueKey} {w : World}

theorem Filled.below (hw : Filled queueKey w) (hstart : w.clock < clock 0) :
    (w.zset queueKey).Below (clock 0 + 5000) := by
  intro x hx
  have := hw.scores x hx
  omega

/-- Where two of the pairs may talk, one of them comes up. -/
theorem progress_of_meets (hw : Filled queueKey w) (h : Meets queueKey w) (hgrow : StrictMono clock)
    (hstart : w.clock < clock 0) : ∃ n, Matched w (passes clock queueKey (w, 0) n) := by
  obtain ⟨⟨i, hi⟩, hround, hfree⟩ := h
  have hgrow' : StrictMono fun i => clock i + 5000 := fun i j hij => Nat.add_lt_add_right (hgrow hij) _
  have htwo : 2 ≤ (w.zset queueKey).members.length := by
    rw [SortedSet.members, List.length_map]
    exact hw.two
  obtain ⟨k, hhead⟩ := (SortedSet.fresh_of_below (hw.below hstart) hgrow').head_turn htwo hi _ rfl
    hround
  have hk : Free clock queueKey w k := by
    rcases hhead with hhead | hhead
    · exact ⟨_, _, hhead, hfree⟩
    · exact ⟨_, _, hhead, (blocked_comm w _ _).trans hfree⟩
  refine ⟨k + 1, ?_⟩
  rcases passes_go hw hgrow hstart (k + 1) with ⟨-, hall⟩ | ⟨hmatched, -⟩
  · refine (hall k ?_ ?_).elim
    · simp only [MAX_MATCHES_PER_KEY]
      omega
    · rwa [Nat.zero_add]
  · exact hmatched

/-- Where none may, no session is ever created while the readings of the
clock are two apart. -/
theorem stuck_of_not_meets (hw : Filled queueKey w) (h : ¬Meets queueKey w)
    (hgap : ∀ i, clock i + 2 ≤ clock (i + 1)) (hstart : w.clock < clock 0) (n : Nat) :
    ¬Matched w (passes clock queueKey (w, 0) n) := by
  have hgrow : StrictMono clock := strictMono_nat_of_lt_succ fun i => by
    have := hgap i
    omega
  have hgap' : ∀ i, clock i + 5000 + 2 ≤ clock (i + 1) + 5000 := fun i => by
    have := hgap i
    omega
  have hnever (k : Nat) : ¬Free clock queueKey w k := by
    rintro ⟨a, b, hhead, hfree⟩
    obtain ⟨i, j, hi, hj, hieq, hij, hhead'⟩ :=
      SortedSet.head_turn_fifo (hw.below hstart) hw.two hgap' k
    rw [order, hhead'] at hhead
    cases hhead
    subst hij
    refine h ⟨⟨i, hi⟩, ?_, hfree⟩
    change i % 2 = 0 ∨ _
    rcases Nat.mod_two_eq_zero_or_one (w.zset queueKey).members.length with heven | hodd
    · left
      rw [hieq, Nat.mod_mod_of_dvd _ (Nat.dvd_of_mod_eq_zero heven), Nat.mul_mod_right]
    · exact .inr hodd
  rcases passes_go hw hgrow hstart n with ⟨hstand, -⟩ | ⟨-, j, -, hfree⟩
  · rw [Matched, hstand.db]
    exact Nat.lt_irrefl _
  · exact (hnever _ hfree).elim

/-- Some session is created, whatever the clock, just when two neighbours of
the first order may talk. Where the readings of the clock are two apart the
same holds of every single clock. -/
theorem progress_iff_meets (hw : Filled queueKey w) :
    ((∀ clock, StrictMono clock → w.clock < clock 0 →
      ∃ n, Matched w (passes clock queueKey (w, 0) n)) ↔ Meets queueKey w) ∧
      ∀ clock : Nat → Nat, (∀ i, clock i + 2 ≤ clock (i + 1)) → w.clock < clock 0 →
        ((∃ n, Matched w (passes clock queueKey (w, 0) n)) ↔ Meets queueKey w) := by
  have hstuck (clock : Nat → Nat) (hgap : ∀ i, clock i + 2 ≤ clock (i + 1))
      (hstart : w.clock < clock 0) (hsome : ∃ n, Matched w (passes clock queueKey (w, 0) n)) :
      Meets queueKey w := by
    by_contra h
    obtain ⟨n, hmatched⟩ := hsome
    exact stuck_of_not_meets hw h hgap hstart n hmatched
  refine ⟨⟨fun hall => ?_, fun h clock hgrow hstart => progress_of_meets hw h hgrow hstart⟩,
    fun clock hgap hstart => ⟨hstuck clock hgap hstart, fun h => ?_⟩⟩
  · refine hstuck (fun i => w.clock + 1 + 2 * i) (fun i => by omega) (by omega) (hall _ ?_ (by omega))
    exact strictMono_nat_of_lt_succ fun i => by omega
  · refine progress_of_meets hw h (strictMono_nat_of_lt_succ fun i => ?_) hstart
    have := hgap i
    omega

/-- Users who have joined the queue, some of them blocked with each other. -/
def joined (users : List UserId) (blocks : List (UserId × UserId)) : World :=
  let people := World.peopled users 1
  let w := { people with
    db := { people.db with blocks := blocks.map fun (a, b) => ⟨a ++ b, a, b, 0, none⟩ } }
  users.foldl (fun w u => ((joinQueue u ⟨.undefined, .undefined, "any"⟩).run Cmd.exec w).2) w

/-- Three users: only Ann and Cid may talk. -/
def threeWaiting : World := joined ["ann", "bob", "cid"] [("ann", "bob"), ("bob", "cid")]

/-- Four users: Ann and Bob are blocked with each other, and Cid and Dan. -/
def fourWaiting : World := joined ["ann", "bob", "cid", "dan"] [("ann", "bob"), ("cid", "dan")]

theorem filled_threeWaiting : Filled "canberra:any" threeWaiting where
  two := by decide +kernel
  users := by decide +kernel
  entries := by decide +kernel
  unlocked := by decide +kernel
  scores := by decide +kernel

theorem filled_fourWaiting : Filled "canberra:any" fourWaiting where
  two := by decide +kernel
  users := by decide +kernel
  entries := by decide +kernel
  unlocked := by decide +kernel
  scores := by decide +kernel

theorem progress_iff_meets_threeWaiting :
    Meets "canberra:any" threeWaiting ∧
      ((∀ clock, StrictMono clock → threeWaiting.clock < clock 0 →
        ∃ n, Matched threeWaiting (passes clock "canberra:any" (threeWaiting, 0) n)) ↔
          Meets "canberra:any" threeWaiting) ∧
      ∀ clock : Nat → Nat, (∀ i, clock i + 2 ≤ clock (i + 1)) → threeWaiting.clock < clock 0 →
        ((∃ n, Matched threeWaiting (passes clock "canberra:any" (threeWaiting, 0) n)) ↔
          Meets "canberra:any" threeWaiting) :=
  ⟨by decide +kernel, progress_iff_meets filled_threeWaiting⟩

/-- Ann and Cid may talk, but the worker tries Ann with Bob and Cid with Dan
for ever. -/
theorem four_stuck : ¬∀ (queueKey : QueueKey) (w : World), Filled queueKey w →
    (∃ a ∈ w.zset queueKey, ∃ b ∈ w.zset queueKey, a ≠ b ∧ blocked w a b = false) →
      ∀ clock, StrictMono clock → w.clock < clock 0 →
        ∃ n, Matched w (passes clock queueKey (w, 0) n) := by
  intro hall
  obtain ⟨n, hmatched⟩ := hall "canberra:any" fourWaiting filled_fourWaiting
    ⟨"ann", by decide +kernel, "cid", by decide +kernel, by decide, by decide +kernel⟩
    (fun i => 1 + 2 * i) (strictMono_nat_of_lt_succ fun i => by omega) (by decide +kernel)
  exact stuck_of_not_meets filled_fourWaiting (by decide +kernel) (fun i => by omega)
    (by decide +kernel) n hmatched

end Progress

end VerityBackend.App
