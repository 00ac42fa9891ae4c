/-
VerityBackend.Backend.Frames — what a command leaves alone.

For each part of the world that proofs talk about, which commands can
change it at all. A string key is written (`Cmd.writes`), or at least
touched (`Cmd.touches`: written or deleted); time only hides keys.
-/
import VerityBackend.Backend.Service

namespace VerityBackend

open Store Async

/-! ## Strings -/

/-- The command may store a string under the key. -/
def Cmd.writes : Cmd → RedisKey → Prop
  | .redis (.set k' _ _), k => k = k'
  | .redis (.setNX k' _ _), k => k = k'
  | .redis (.multiJoin _ user _ _), k => k = .queueUser user
  | .redis (.multiMarkMatched userA userB _ _), k => k = .queueMatched userA ∨ k = .queueMatched userB
  | _, _ => False

/-- The command may store a string under the key, or delete it. -/
def Cmd.touches : Cmd → RedisKey → Prop
  | .redis (.set k' _ _), k => k = k'
  | .redis (.setNX k' _ _), k => k = k'
  | .redis (.del ks), k => k ∈ ks
  | .redis (.releaseLock k' _), k => k = k'
  | .redis (.multiJoin _ user _ _), k => k = .queueUser user
  | .redis (.multiMarkMatched userA userB _ _), k =>
      k = .queueMatched userA ∨ k = .queueMatched userB ∨ k = .queueUser userA ∨ k = .queueUser userB
  | _, _ => False

theorem World.get_of_get_delAll {ks : List RedisKey} {w : World} {k : RedisKey} {r : RedisString}
    (h : (ks.foldl World.del w).get k = some r) : w.get k = some r := by
  induction ks generalizing w with
  | nil => exact h
  | cons k' ks ih =>
      have hdel := ih h
      by_cases hk : k = k'
      · subst hk
        rw [World.get_del_self] at hdel
        cases hdel
      · rwa [World.get_del_ne hk] at hdel

/-- What is seen under a key no command writes was there before. -/
theorem Cmd.get_of_get_exec {c : Cmd} {k : RedisKey} (h : ¬c.writes k) {w : World} {r : RedisString}
    (hr : (c.exec w).2.get k = some r) : w.get k = some r := by
  cases c with
  | db c => rwa [Cmd.exec_db, DbCmd.get_exec] at hr
  | host c => rwa [Cmd.exec_host, HostCmd.get_exec] at hr
  | redis c =>
      rw [Cmd.exec_redis] at hr
      cases c with
      | set k' v ttl => rwa [RedisCmd.exec, World.get_set_ne h] at hr
      | setNX k' v ttl =>
          simp only [RedisCmd.exec] at hr
          split at hr
          · exact hr
          · rwa [World.get_set_ne h] at hr
      | del ks => exact World.get_of_get_delAll hr
      | releaseLock k' v =>
          simp only [RedisCmd.exec] at hr
          split at hr
          · have hdel : ([k'].foldl World.del w).get k = some r := hr
            exact World.get_of_get_delAll hdel
          · exact hr
      | multiJoin q user joinedAt state =>
          have hset : ((w.setZset q ((w.zset q).zadd joinedAt user)).set (.queueUser user) state
              none).get k = (w.setZset q ((w.zset q).zadd joinedAt user)).get k := World.get_set_ne h
          exact hset.symm.trans hr
      | multiMarkMatched userA userB id ttl =>
          have hne : k ≠ .queueMatched userA ∧ k ≠ .queueMatched userB := not_or.mp h
          rw [RedisCmd.exec, World.get_set_ne hne.2, World.get_set_ne hne.1] at hr
          have hdel : ([RedisKey.queueUser userA, .queueUser userB].foldl World.del w).get k =
              some r := hr
          exact World.get_of_get_delAll hdel
      | pexpireChoices id ttl =>
          simp only [RedisCmd.exec, World.expireChoices] at hr
          split at hr <;> exact hr
      | _ => exact hr

/-- The entry stored under a key, whether it has expired or not. -/
def World.stored (w : World) (k : RedisKey) : Option (Stamped RedisString) :=
  w.redis.strings.lookup k

theorem World.stored_set_self (w : World) (k : RedisKey) (v : RedisString) (ttl : Option Nat) :
    (w.set k v ttl).stored k = some ⟨v, ttl.map (w.clock + ·)⟩ :=
  Keyspace.lookup_put_self _ _ _

theorem World.stored_set_ne {w : World} {k k' : RedisKey} {v : RedisString} {ttl : Option Nat}
    (h : k' ≠ k) : (w.set k v ttl).stored k' = w.stored k' :=
  Keyspace.lookup_put_ne _ _ h

theorem World.stored_del_self (w : World) (k : RedisKey) : (w.del k).stored k = none :=
  Keyspace.lookup_del_self _ _

theorem World.stored_del_ne {w : World} {k k' : RedisKey} (h : k' ≠ k) :
    (w.del k).stored k' = w.stored k' :=
  Keyspace.lookup_del_ne _ h

theorem World.stored_delAll {ks : List RedisKey} {w : World} {k : RedisKey} (h : k ∉ ks) :
    (ks.foldl World.del w).stored k = w.stored k := by
  induction ks generalizing w with
  | nil => rfl
  | cons k' ks ih =>
      rw [List.mem_cons, not_or] at h
      exact (ih h.2).trans (World.stored_del_ne h.1)

theorem World.stored_delAll_self {ks : List RedisKey} {w : World} {k : RedisKey} (h : k ∈ ks) :
    (ks.foldl World.del w).stored k = none := by
  induction ks generalizing w with
  | nil => cases h
  | cons k' ks ih =>
      by_cases hk : k ∈ ks
      · exact ih hk
      · obtain rfl : k = k' := (List.mem_cons.mp h).resolve_right hk
        exact (World.stored_delAll hk).trans (World.stored_del_self w k)

/-- A key that is stored without an expiry time is seen at all times. -/
theorem World.get_of_permanent {w : World} {k : RedisKey}
    (h : ∀ e, w.stored k = some e → e.expiresAt = none) : w.get k = (w.stored k).map (·.val) := by
  unfold World.get Keyspace.get Keyspace.entry
  change ((w.stored k).filter _).map _ = _
  cases he : w.stored k with
  | none => rfl
  | some e => simp [Option.filter, Stamped.alive, h e he]

/-- A key no command touches stays as it is. -/
theorem Cmd.stored_exec {c : Cmd} {k : RedisKey} (h : ¬c.touches k) (w : World) :
    (c.exec w).2.stored k = w.stored k := by
  cases c with
  | db c =>
      unfold World.stored
      rw [Cmd.exec_db, (c.exec_redis w).1]
  | host c =>
      unfold World.stored
      rw [Cmd.exec_host, (c.exec_redis w).1]
  | redis c =>
      rw [Cmd.exec_redis]
      cases c with
      | set k' v ttl => exact World.stored_set_ne h
      | setNX k' v ttl =>
          simp only [RedisCmd.exec]
          split
          · rfl
          · exact World.stored_set_ne h
      | del ks => exact World.stored_delAll h
      | releaseLock k' v =>
          simp only [RedisCmd.exec]
          split
          · exact World.stored_del_ne h
          · rfl
      | multiJoin q user joinedAt state => exact World.stored_set_ne h
      | multiMarkMatched userA userB id ttl =>
          simp only [Cmd.touches, not_or] at h
          simp only [RedisCmd.exec]
          rw [World.stored_set_ne h.2.1, World.stored_set_ne h.1, World.stored_del_ne h.2.2.2,
            World.stored_del_ne h.2.2.1]
      | pexpireChoices id ttl =>
          simp only [RedisCmd.exec, World.expireChoices]
          split <;> rfl
      | _ => rfl

/-- What is stored under a key no command writes stays, or is deleted. -/
theorem Cmd.stored_exec_or {c : Cmd} {k : RedisKey} (h : ¬c.writes k) (w : World) :
    (c.exec w).2.stored k = w.stored k ∨ (c.exec w).2.stored k = none := by
  by_cases htouch : c.touches k
  · cases c with
    | db c => exact htouch.elim
    | host c => exact htouch.elim
    | redis c =>
        rw [Cmd.exec_redis]
        cases c with
        | set k' v ttl => exact absurd htouch h
        | setNX k' v ttl => exact absurd htouch h
        | multiJoin q user joinedAt state => exact absurd htouch h
        | del ks => exact .inr (World.stored_delAll_self htouch)
        | releaseLock k' v =>
            obtain rfl : k = k' := htouch
            simp only [RedisCmd.exec]
            split
            · exact .inr (World.stored_del_self w k)
            · exact .inl rfl
        | multiMarkMatched userA userB id ttl =>
            have hne : k ≠ .queueMatched userA ∧ k ≠ .queueMatched userB := not_or.mp h
            simp only [RedisCmd.exec]
            rw [World.stored_set_ne hne.2, World.stored_set_ne hne.1]
            by_cases hk : k ∈ [RedisKey.queueUser userA, .queueUser userB]
            · exact .inr (World.stored_delAll_self (w := w) hk)
            · exact .inl (World.stored_delAll (w := w) hk)
        | _ => exact htouch.elim
  · exact .inl (Cmd.stored_exec htouch w)

/-- A key nothing is stored under stays so, unless it is written. -/
theorem Cmd.stored_exec_none {c : Cmd} {k : RedisKey} (h : ¬c.writes k) {w : World}
    (hnone : w.stored k = none) : (c.exec w).2.stored k = none := by
  rcases c.stored_exec_or h w with hsame | hgone
  · exact hsame.trans hnone
  · exact hgone

/-- What is under a decision key after a command: what was there, nothing,
or the value the command stores. -/
theorem Cmd.stored_decision_exec (c : Cmd) (w : World) (id : SessionId) :
    (c.exec w).2.stored (.sessionDecision id) = w.stored (.sessionDecision id) ∨
      (c.exec w).2.stored (.sessionDecision id) = none ∨
      ∃ v t, (c.exec w).2.stored (.sessionDecision id) = some ⟨v, t⟩ ∧
        ((∃ ttl, c = .redis (.set (.sessionDecision id) v ttl)) ∨
          ∃ ttl, c = .redis (.setNX (.sessionDecision id) v ttl)) := by
  by_cases htouch : c.touches (.sessionDecision id)
  · cases c with
    | db c => exact htouch.elim
    | host c => exact htouch.elim
    | redis c =>
        cases c with
        | set k v ttl =>
            obtain rfl : RedisKey.sessionDecision id = k := htouch
            exact .inr (.inr ⟨v, _, World.stored_set_self _ _ _ _, .inl ⟨ttl, rfl⟩⟩)
        | setNX k v ttl =>
            obtain rfl : RedisKey.sessionDecision id = k := htouch
            cases hget : w.get (.sessionDecision id) with
            | some r =>
                left
                simp only [Cmd.exec_redis, RedisCmd.exec, hget]
            | none =>
                refine .inr (.inr ⟨v, some (w.clock + ttl), ?_, .inr ⟨ttl, rfl⟩⟩)
                simp only [Cmd.exec_redis, RedisCmd.exec, hget]
                exact World.stored_set_self _ _ _ _
        | del ks => exact .inr (.inl (World.stored_delAll_self htouch))
        | releaseLock k v =>
            obtain rfl : RedisKey.sessionDecision id = k := htouch
            by_cases hlock : w.get (.sessionDecision id) = some v
            · right; left
              simp only [Cmd.exec_redis, RedisCmd.exec, if_pos hlock]
              exact World.stored_del_self _ _
            · left
              simp only [Cmd.exec_redis, RedisCmd.exec, if_neg hlock]
        | multiJoin q user joinedAt state => cases htouch
        | multiMarkMatched userA userB id' ttl =>
            rcases htouch with h | h | h | h <;> cases h
        | _ => exact htouch.elim
  · exact .inl (Cmd.stored_exec htouch w)

/-! ## The clock -/

/-- Only the environment lets time pass. -/
theorem Cmd.clock_exec (c : Cmd) (w : World) : (c.exec w).2.clock = w.clock := by
  cases c with
  | db c => exact (c.exec_redis w).2
  | host c => exact (c.exec_redis w).2.1
  | redis c =>
      rw [Cmd.exec_redis]
      cases c with
      | setNX k v ttl => simp only [RedisCmd.exec]; split <;> rfl
      | del ks =>
          simp only [RedisCmd.exec]
          induction ks generalizing w with
          | nil => rfl
          | cons k ks ih => exact ih (w.del k)
      | releaseLock k v => simp only [RedisCmd.exec]; split <;> rfl
      | pexpireChoices id ttl => simp only [RedisCmd.exec, World.expireChoices]; split <;> rfl
      | _ => rfl

/-- What is seen under a key is in its entry. -/
theorem World.get_congr {w w' : World} {k : RedisKey} (hstored : w'.stored k = w.stored k)
    (hclock : w'.clock = w.clock) : w'.get k = w.get k := by
  unfold World.get Keyspace.get Keyspace.entry
  change ((w'.stored k).filter _).map _ = ((w.stored k).filter _).map _
  rw [hstored, hclock]

/-- An entry is seen until it expires. -/
theorem World.get_of_stored {w : World} {k : RedisKey} {v : RedisString} {t : Nat}
    (h : w.stored k = some ⟨v, some t⟩) (ht : w.clock < t) : w.get k = some v := by
  have halive : (⟨v, some t⟩ : Stamped RedisString).alive w.clock = true := by
    simpa [Stamped.alive] using ht
  unfold World.get Keyspace.get Keyspace.entry
  change ((w.stored k).filter _).map _ = _
  rw [h, Option.filter_some, if_pos halive]
  rfl

/-- What is seen under a key is stored under it. -/
theorem World.stored_of_get {w : World} {k : RedisKey} {r : RedisString} (h : w.get k = some r) :
    ∃ e, w.stored k = some e ∧ e.val = r := by
  obtain ⟨e, he, hval⟩ := Keyspace.get_eq_some.mp h
  rw [Keyspace.entry, Option.filter_eq_some_iff] at he
  exact ⟨e, he.1, hval⟩

/-- An entry that is not seen has expired. -/
theorem World.get_of_expired {w : World} {k : RedisKey} {v : RedisString} {t : Nat}
    (h : w.stored k = some ⟨v, some t⟩) (ht : t ≤ w.clock) : w.get k = none := by
  cases hget : w.get k with
  | none => rfl
  | some r =>
      obtain ⟨e, he, -⟩ := Keyspace.get_eq_some.mp hget
      have halive := Keyspace.alive_of_entry he
      rw [Keyspace.entry, Option.filter_eq_some_iff] at he
      obtain rfl : e = ⟨v, some t⟩ := Option.some.inj (he.1.symm.trans h)
      simp only [Stamped.alive, decide_eq_true_eq] at halive
      omega

/-! ## Sorted sets -/

/-- The command may change a sorted set, or the set of queue keys. -/
def Cmd.movesQueue : Cmd → Prop
  | .redis (.zadd _ _) => True
  | .redis (.zrem _ _) => True
  | .redis (.zpopmin _ _) => True
  | .redis (.srem _) => True
  | .redis (.multiJoin _ _ _ _) => True
  | _ => False

theorem World.delAll_redis (ks : List RedisKey) (w : World) :
    (ks.foldl World.del w).redis.zsets = w.redis.zsets ∧
      (ks.foldl World.del w).redis.queueKeys = w.redis.queueKeys := by
  induction ks generalizing w with
  | nil => exact ⟨rfl, rfl⟩
  | cons k ks ih => exact ih (w.del k)

theorem Cmd.queues_exec {c : Cmd} (h : ¬c.movesQueue) (w : World) :
    (c.exec w).2.redis.zsets = w.redis.zsets ∧
      (c.exec w).2.redis.queueKeys = w.redis.queueKeys := by
  cases c with
  | db c => rw [Cmd.exec_db, (c.exec_redis w).1]; exact ⟨rfl, rfl⟩
  | host c => rw [Cmd.exec_host, (c.exec_redis w).1]; exact ⟨rfl, rfl⟩
  | redis c =>
      rw [Cmd.exec_redis]
      cases c with
      | setNX k v ttl => simp only [RedisCmd.exec]; split <;> exact ⟨rfl, rfl⟩
      | del ks => exact World.delAll_redis ks w
      | releaseLock k v => simp only [RedisCmd.exec]; split <;> exact ⟨rfl, rfl⟩
      | pexpireChoices id ttl =>
          simp only [RedisCmd.exec, World.expireChoices]
          split <;> exact ⟨rfl, rfl⟩
      | zadd q xs => exact (h trivial).elim
      | zrem q user => exact (h trivial).elim
      | zpopmin q count => exact (h trivial).elim
      | srem q => exact (h trivial).elim
      | multiJoin q user joinedAt state => exact (h trivial).elim
      | _ => exact ⟨rfl, rfl⟩

/-! ## Choices -/

/-- The command may change the choices of the session: it stores one, or
has all of them expire at once. -/
def Cmd.movesChoices : Cmd → SessionId → Prop
  | .redis (.hset id' _ _), id => id = id'
  | .redis (.pexpireChoices id' ttl), id => id = id' ∧ ttl = 0
  | _, _ => False

theorem World.delAll_choices (ks : List RedisKey) (w : World) :
    (ks.foldl World.del w).redis.choices = w.redis.choices ∧
      (ks.foldl World.del w).clock = w.clock := by
  induction ks generalizing w with
  | nil => exact ⟨rfl, rfl⟩
  | cons k ks ih => exact ih (w.del k)

theorem Cmd.choices_exec {c : Cmd} {id : SessionId} (h : ¬c.movesChoices id) (w : World) :
    (c.exec w).2.choices id = w.choices id := by
  cases c with
  | db c =>
      unfold World.choices
      rw [Cmd.exec_db, (c.exec_redis w).1, (c.exec_redis w).2]
  | host c =>
      unfold World.choices
      rw [Cmd.exec_host, (c.exec_redis w).1, (c.exec_redis w).2.1]
  | redis c =>
      rw [Cmd.exec_redis]
      cases c with
      | hset id' user v => exact World.choices_setChoice_ne w user v h
      | pexpireChoices id' ttl =>
          by_cases hpos : 0 < ttl
          · exact World.choices_expireChoices w id' id hpos
          · have hne : id ≠ id' := fun hid => h ⟨hid, by omega⟩
            simp only [RedisCmd.exec, World.expireChoices]
            split
            · rfl
            · simp only [World.choices_def, World.mapRedis]
              rw [Keyspace.entry_put_ne _ _ _ hne]
      | setNX k v ttl => simp only [RedisCmd.exec]; split <;> rfl
      | releaseLock k v => simp only [RedisCmd.exec]; split <;> rfl
      | del ks =>
          have hdel := World.delAll_choices ks w
          unfold World.choices
          simp only [RedisCmd.exec]
          rw [hdel.1, hdel.2]
      | _ => rfl

/-! ## Timers -/

/-- The command may arm or clear a timer. -/
def Cmd.movesTimers : Cmd → Prop
  | .host (.scheduleSessionEnd _ _ _ _ _) => True
  | .host (.clearSessionEnd _ _) => True
  | .host (.scheduleChoiceTimeout _ _ _ _ _) => True
  | .host (.clearChoiceTimeout _ _) => True
  | _ => False

/-- Prisma leaves the timers alone. -/
theorem DbCmd.exec_timers (c : DbCmd) (w : World) :
    (c.exec w).2.timers = w.timers ∧ (c.exec w).2.choiceTimers = w.choiceTimers := by
  cases c <;> simp only [DbCmd.exec, World.create, World.mapDb] <;>
    first
    | exact ⟨rfl, rfl⟩
    | (repeat' split) <;> simp

theorem Cmd.timers_exec {c : Cmd} (h : ¬c.movesTimers) (w : World) :
    (c.exec w).2.timers = w.timers ∧ (c.exec w).2.choiceTimers = w.choiceTimers := by
  cases c with
  | db c => exact c.exec_timers w
  | host c =>
      cases c with
      | scheduleSessionEnd self id a b endAt => exact (h trivial).elim
      | clearSessionEnd self id => exact (h trivial).elim
      | scheduleChoiceTimeout self id a b deadline => exact (h trivial).elim
      | clearChoiceTimeout self id => exact (h trivial).elim
      | _ => exact ⟨rfl, rfl⟩
  | redis c =>
      rw [Cmd.exec_redis]
      cases c with
      | setNX k v ttl => simp only [RedisCmd.exec]; split <;> exact ⟨rfl, rfl⟩
      | del ks =>
          simp only [RedisCmd.exec]
          clear h
          induction ks generalizing w with
          | nil => exact ⟨rfl, rfl⟩
          | cons k ks ih => exact ih (w.del k)
      | releaseLock k v => simp only [RedisCmd.exec]; split <;> exact ⟨rfl, rfl⟩
      | pexpireChoices id ttl =>
          simp only [RedisCmd.exec, World.expireChoices]
          split <;> exact ⟨rfl, rfl⟩
      | _ => exact ⟨rfl, rfl⟩

/-! ## Tables -/

/-- The call may change a balance. -/
def Cmd.movesTokens : Cmd → Prop
  | .db (.userDebit _) => True
  | .db (.userRefund _) => True
  | .db (.creditTransaction _ _ _ _ _) => True
  | _ => False

/-- The call may create a session. -/
def Cmd.createsSession : Cmd → Prop
  | .db (.sessionCreate _ _ _ _) => True
  | _ => False

/-- The call may change the table of sessions. -/
def Cmd.movesSessions : Cmd → Prop
  | .db (.sessionCreate _ _ _ _) => True
  | .db (.sessionDeleteMany _) => True
  | _ => False

theorem Cmd.createsSession.moves {c : Cmd} (h : c.createsSession) : c.movesSessions := by
  cases c with
  | redis c => exact h.elim
  | host c => exact h.elim
  | db c =>
      cases c with
      | sessionCreate a b region q => trivial
      | _ => exact h.elim

/-- The call may change a block. -/
def Cmd.movesBlocks : Cmd → Prop
  | .db (.blockCreate _ _) => True
  | .db (.blockReopen _) => True
  | .db (.blockLift _ _) => True
  | .db (.reportTransaction _ _ _ _) => True
  | _ => False

/-- The tables a call may leave alone. -/
structure Tables (c : Cmd) (d d' : Db) : Prop where
  users : ¬c.movesTokens → d'.users = d.users
  sessions : ¬c.movesSessions → d'.sessions = d.sessions
  blocks : ¬c.movesBlocks → d'.blocks = d.blocks

theorem Tables.refl (c : Cmd) (d : Db) : Tables c d d := ⟨fun _ => rfl, fun _ => rfl, fun _ => rfl⟩

theorem Tables.of_eq {c : Cmd} {d d' : Db} (h : d' = d) : Tables c d d' := h ▸ Tables.refl c d

/-- A new row of the table of refresh tokens is all that changes. -/
theorem insertRefreshToken_only {d d' : Db} {row : RefreshToken}
    (h : insertRefreshToken d row = .ok d') : d' = { d with refreshTokens := d'.refreshTokens } := by
  unfold insertRefreshToken at h
  split at h
  · cases h
  · split at h
    · cases h
    · cases h
      rfl

theorem rotateRefreshToken_only {cfg : AuthConfig} {clock : Nat} {nextTokenId : String}
    {stored : RefreshToken} {sub fid : String} {now : Nat} {userAgent ipAddress : Option String}
    {d d' : Db} {tokens : IssuedTokens}
    (h : rotateRefreshToken cfg clock nextTokenId stored sub fid now userAgent ipAddress d =
      .ok (tokens, d')) : d' = { d with refreshTokens := d'.refreshTokens } := by
  simp only [rotateRefreshToken] at h
  split at h
  · cases h
  · simp only [bind, Except.bind, pure, Except.pure] at h
    split at h
    · cases h
    · next d₁ hinsert =>
        have honly := insertRefreshToken_only hinsert
        split at h
        · cases h
        · cases h
          exact honly

theorem Cmd.tables_exec (c : Cmd) (w : World) : Tables c w.db (c.exec w).2.db := by
  cases c with
  | redis c => exact .of_eq (c.exec_db w)
  | host c => exact .of_eq (c.exec_redis w).2.2
  | db c =>
      rw [Cmd.exec_db]
      cases c with
      | userDebit id =>
          refine ⟨fun h => (h trivial).elim, fun _ => ?_, fun _ => ?_⟩ <;>
            simp only [DbCmd.exec, World.mapDb, Db.setUser] <;> (repeat' split) <;> rfl
      | userRefund id =>
          refine ⟨fun h => (h trivial).elim, fun _ => ?_, fun _ => ?_⟩ <;>
            simp only [DbCmd.exec, World.mapDb, Db.setUser] <;> (repeat' split) <;> rfl
      | creditTransaction u pack n sid eid =>
          refine ⟨fun h => (h trivial).elim, fun _ => ?_, fun _ => ?_⟩ <;>
            simp only [DbCmd.exec, World.create, Db.setUser] <;> (repeat' split) <;> rfl
      | sessionCreate a b region q =>
          refine ⟨fun _ => ?_, fun h => (h trivial).elim, fun _ => ?_⟩ <;>
            simp only [DbCmd.exec, World.create] <;> split <;> rfl
      | sessionDeleteMany cutoff => exact ⟨fun _ => rfl, fun h => (h trivial).elim, fun _ => rfl⟩
      | blockCreate a b =>
          refine ⟨fun _ => ?_, fun _ => ?_, fun h => (h trivial).elim⟩ <;>
            simp only [DbCmd.exec, World.create] <;> (repeat' split) <;> rfl
      | blockReopen id =>
          refine ⟨fun _ => ?_, fun _ => ?_, fun h => (h trivial).elim⟩ <;>
            simp only [DbCmd.exec, World.mapDb, Db.reopenBlock] <;> split <;> rfl
      | blockLift id now =>
          refine ⟨fun _ => ?_, fun _ => ?_, fun h => (h trivial).elim⟩ <;>
            simp only [DbCmd.exec, World.mapDb, Db.liftBlock] <;> split <;> rfl
      | reportTransaction reporter reported reason details =>
          refine ⟨fun _ => ?_, fun _ => ?_, fun h => (h trivial).elim⟩ <;>
            simp only [DbCmd.exec, Db.reopenBlock] <;> (repeat' split) <;> rfl
      | refreshTokenRotate cfg stored sub fid now userAgent ipAddress =>
          simp only [DbCmd.exec]
          split
          · next tokens d hrot =>
              rw [rotateRefreshToken_only hrot]
              exact ⟨fun _ => rfl, fun _ => rfl, fun _ => rfl⟩
          · exact .refl _ _
      | refreshTokenCreate row =>
          simp only [DbCmd.exec]
          split
          · next d hinsert =>
              rw [insertRefreshToken_only hinsert]
              exact ⟨fun _ => rfl, fun _ => rfl, fun _ => rfl⟩
          · exact .refl _ _
      | _ =>
          refine ⟨fun _ => ?_, fun _ => ?_, fun _ => ?_⟩ <;>
            simp only [DbCmd.exec, World.create, World.mapDb, Db.setReportStatus, Db.acknowledge] <;>
            (repeat' split) <;> rfl

theorem Db.isSome_setUser {d : Db} {u : User} {id p : UserId} (h : (d.users p).isSome) :
    ((d.setUser id u).users p).isSome := by
  unfold Db.setUser
  dsimp only
  split
  · rfl
  · exact h

/-- No command deletes a user. -/
theorem Cmd.isSome_user_exec (c : Cmd) {w : World} {p : UserId} (h : (w.db.users p).isSome) :
    ((c.exec w).2.db.users p).isSome := by
  by_cases hmoves : c.movesTokens
  · cases c with
    | redis c => exact hmoves.elim
    | host c => exact hmoves.elim
    | db c =>
        rw [Cmd.exec_db]
        cases c with
        | userDebit id =>
            simp only [DbCmd.exec]
            (repeat' split) <;> first | exact h | exact Db.isSome_setUser h
        | userRefund id =>
            simp only [DbCmd.exec]
            (repeat' split) <;> first | exact h | exact Db.isSome_setUser h
        | creditTransaction id pack n sid eid =>
            simp only [DbCmd.exec]
            (repeat' split) <;> first | exact h | exact Db.isSome_setUser h
        | _ => exact hmoves.elim
  · rwa [(c.tables_exec w).users hmoves]

/-- Without a new session there are only old ones. -/
theorem Cmd.sessions_subset {c : Cmd} (h : ¬c.createsSession) (w : World) :
    ∀ x ∈ (c.exec w).2.db.sessions, x ∈ w.db.sessions := by
  by_cases hmoves : c.movesSessions
  · cases c with
    | redis c | host c => exact hmoves.elim
    | db c =>
        cases c with
        | sessionCreate a b region q => exact absurd trivial h
        | sessionDeleteMany cutoff => exact fun _ hx => (List.mem_filter.mp hx).1
        | _ => exact hmoves.elim
  · rw [(c.tables_exec w).sessions hmoves]
    exact fun _ hx => hx

/-- A command takes rows away, or adds one with the next id. -/
theorem Cmd.sessions_exec (c : Cmd) (w : World) :
    (∀ x ∈ (c.exec w).2.db.sessions, x ∈ w.db.sessions) ∨
      ∃ row, row.id = freshId w.nextId ∧ (c.exec w).2.nextId = w.nextId + 1 ∧
        (c.exec w).2.db.sessions = w.db.sessions ++ [row] := by
  by_cases hcreate : c.createsSession
  · cases c with
    | redis c | host c => exact hcreate.elim
    | db c =>
        cases c with
        | sessionCreate a b region q =>
            simp only [Cmd.exec_db, DbCmd.exec, World.create]
            split
            · exact .inr ⟨_, rfl, rfl, rfl⟩
            · exact .inl fun _ hx => hx
        | _ => exact hcreate.elim
  · exact .inl (Cmd.sessions_subset hcreate w)

end VerityBackend
