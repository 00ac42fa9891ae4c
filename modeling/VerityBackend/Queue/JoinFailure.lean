/-
VerityBackend.Queue.JoinFailure — joining while one command fails.

`joinQueue` takes a token, enters the user with one `MULTI` and gives the
token back if the `MULTI` fails. Until then a failure leaves the user as
before the call. Afterwards the position is still looked up and the lock
released: a failure there throws out of a call that has joined, and nothing
takes the entry or the token back. `atomic_iff` says that these two commands
are the only ones.

Redis and Prisma commands are counted, synchronous code cannot fail.
-/
import VerityBackend.Queue.Service
import VerityBackend.Async.Failing

namespace VerityBackend.Queue

open Async Store

/-- The Redis or Prisma command that finds the countdown at zero throws. -/
def faulty (err : Err) : (c : Cmd) → Option Nat × World → Except Err c.Res × Option Nat × World
  | .host c, (n, w) => ((c.exec w).1, n, (c.exec w).2)
  | .redis c, s => failing Cmd.exec err (.redis c) s
  | .db c, s => failing Cmd.exec err (.db c) s

/-! ## What the caller sees -/

/-- Nothing that makes `u` a member of a queue has changed, and no token. -/
structure Untouched (u : UserId) (w w' : World) : Prop where
  balance : (w'.db.users u).map (·.tokenBalance) = (w.db.users u).map (·.tokenBalance)
  state : w'.get (.queueUser u) = w.get (.queueUser u)
  zsets : w'.redis.zsets = w.redis.zsets
  queueKeys : w'.redis.queueKeys = w.redis.queueKeys

/-- One token of `u` is gone, and `u` is in the queue `k`. -/
structure Joined (u : UserId) (k : QueueKey) (w w' : World) : Prop where
  paid : ∃ user, w.db.users u = some user ∧ 1 ≤ user.tokenBalance ∧
    w'.db.users u = some { user with tokenBalance := user.tokenBalance - 1 }
  state : ∃ joinedAt, w'.get (.queueUser u) = some (QueueEntryState.mk k joinedAt).toJson
  member : u ∈ w'.zset k
  registered : k ∈ w'.redis.queueKeys

/-- A call that throws has done nothing, one that returns `queued` all of it. -/
def AtomicJoin (u : UserId) (w : World) : Except Err QueueJoinResult → World → Prop
  | .error _, w' => Untouched u w w'
  | .ok (.queued k _), w' => Joined u k w w'
  | .ok (.already_queued _ _), _ => True

/-- The user has no entry, and a token. -/
def mayEnter (u : UserId) (w : World) : Prop :=
  parseQueueEntryState (w.get (.queueUser u)) = none ∧
    ∃ user, w.db.users u = some user ∧ 1 ≤ user.tokenBalance

/-- Nothing keeps the call from joining: no ban, a city, the lock is free,
no entry, and a token. -/
def joins (u : UserId) (input : QueueJoinInput) (w : World) : Prop :=
  truthy (w.get (.moderationBan u)) = false ∧
    (∃ city k, resolveQueueCity input = .ok city ∧ buildQueueKey city input.preferences = .ok k) ∧
    w.get (.queueLock u) = none ∧ mayEnter u w

/-! ## Frames -/

section Frames

variable {u : UserId} {k : QueueKey} {w w' w'' : World}

theorem Untouched.refl (u : UserId) (w : World) : Untouched u w w := ⟨rfl, rfl, rfl, rfl⟩

theorem Untouched.trans (h : Untouched u w w') (h' : Untouched u w' w'') : Untouched u w w'' :=
  ⟨h'.balance.trans h.balance, h'.state.trans h.state, h'.zsets.trans h.zsets,
    h'.queueKeys.trans h.queueKeys⟩

theorem Untouched.symm (h : Untouched u w w') : Untouched u w' w :=
  ⟨h.balance.symm, h.state.symm, h.zsets.symm, h.queueKeys.symm⟩

/-- A call that joins takes a token. -/
theorem Joined.not_untouched (h : Joined u k w w') : ¬Untouched u w w' := by
  intro hsame
  obtain ⟨user, hbefore, hbalance, hafter⟩ := h.paid
  have htoken := hsame.balance
  rw [hbefore, hafter] at htoken
  simp only [Option.map_some, Option.some.injEq] at htoken
  omega

theorem Joined.untouched (h : Joined u k w w') (h' : Untouched u w' w'')
    (hdb : w''.db = w'.db) : Joined u k w w'' where
  paid := by rw [hdb]; exact h.paid
  state := by rw [h'.state]; exact h.state
  member := by
    unfold World.zset
    rw [h'.zsets]
    exact h.member
  registered := by rw [h'.queueKeys]; exact h.registered

theorem Joined.before (h : Joined u k w' w'') (hdb : w'.db = w.db) : Joined u k w w'' where
  paid := by rw [← hdb]; exact h.paid
  state := h.state
  member := h.member
  registered := h.registered

/-- What happens before the call's own work does not matter. -/
theorem atomicJoin_congr (h : Untouched u w w') (hdb : w'.db = w.db)
    {r : Except Err QueueJoinResult} : AtomicJoin u w r w'' ↔ AtomicJoin u w' r w'' := by
  match r with
  | .error _ => exact ⟨h.symm.trans, h.trans⟩
  | .ok (.queued _ _) => exact ⟨fun hin => hin.before hdb.symm, fun hin => hin.before hdb⟩
  | .ok (.already_queued _ _) => exact Iff.rfl

/-- A call that leaves everything as it was and does not return `queued`. -/
theorem atomicJoin_untouched (h : Untouched u w w') {r : Except Err QueueJoinResult}
    (hr : ∀ k position, r ≠ .ok (.queued k position)) : AtomicJoin u w r w' := by
  match r with
  | .error _ => exact h
  | .ok (.queued k position) => exact absurd rfl (hr k position)
  | .ok (.already_queued _ _) => trivial

end Frames

/-! ## Under the lock -/

section Enqueue

variable {u : UserId} {k : QueueKey} {city : String} {w : World} {err : Err}

/-- The world once the token is taken. -/
def paidWorld (u : UserId) (user : User) (w : World) : World :=
  w.mapDb (·.setUser u { user with tokenBalance := user.tokenBalance - 1 })

/-- The world once the user is entered. -/
def enteredWorld (u : UserId) (k : QueueKey) (w : World) : World :=
  ((RedisCmd.multiJoin k u w.clock (QueueEntryState.mk k w.clock).toJson).exec w).2

theorem debit_run {user : User} (h : w.db.users u = some user) (hbalance : 1 ≤ user.tokenBalance) :
    (DbCmd.userDebit u).exec w = (.ok 1, paidWorld u user w) := by
  simp only [DbCmd.exec, h, if_pos hbalance]
  rfl

/-- The refund takes the debit back. -/
theorem refund_run {user : User} (h : w.db.users u = some user) (hbalance : 1 ≤ user.tokenBalance) :
    ∃ w', (DbCmd.userRefund u).exec (paidWorld u user w) = (.ok (), w') ∧ Untouched u w w' := by
  have hpaid : (paidWorld u user w).db.users u =
      some { user with tokenBalance := user.tokenBalance - 1 } := if_pos rfl
  set refunded := (paidWorld u user w).mapDb (·.setUser u
    { user with tokenBalance := user.tokenBalance - 1 + 1 }) with hrefunded
  have hrun : (DbCmd.userRefund u).exec (paidWorld u user w) = (.ok (), refunded) := by
    simp only [DbCmd.exec, hpaid, hrefunded]
  refine ⟨refunded, hrun, ⟨?_, rfl, rfl, rfl⟩⟩
  have hafter : refunded.db.users u = some { user with tokenBalance := user.tokenBalance - 1 + 1 } :=
    if_pos rfl
  rw [hafter, h, Option.map_some, Option.map_some, Nat.sub_add_cancel hbalance]

theorem joined_entered {user : User} (h : w.db.users u = some user) (hbalance : 1 ≤ user.tokenBalance) :
    Joined u k w (enteredWorld u k (paidWorld u user w)) where
  paid := ⟨user, h, hbalance, if_pos rfl⟩
  state := ⟨_, World.get_set_self fun _ ht => nomatch ht⟩
  member := by
    have hzset : (enteredWorld u k (paidWorld u user w)).zset k =
        ((paidWorld u user w).zset k).zadd w.clock u := if_pos rfl
    rw [hzset]
    exact SortedSet.mem_zadd.mpr (.inl rfl)
  registered := List.mem_insert_self

/-- The part of `enqueue` after the debit. -/
def enter (u : UserId) (city : String) (k : QueueKey) : Prog QueueJoinResult := do
  let joinedAt ← host .now
  enqueueEntry u k joinedAt
  let position ← redis (.zrank k u)
  host (.emit (joinedEvents u city k position))
  pure (.queued k position)

variable (k city err) in
/-- A `MULTI` that fails gives the token back. -/
theorem enter_failing {user : User} (h : w.db.users u = some user) (hbalance : 1 ≤ user.tokenBalance) :
    ∃ w', (enter u city k).run (faulty err) (some 0, paidWorld u user w) = (.error err, none, w') ∧
      Untouched u w w' := by
  obtain ⟨w', hrefund, hsame⟩ := refund_run h hbalance
  refine ⟨w', ?_, hsame⟩
  have hmulti : (enqueueEntry u k w.clock).run (faulty err) (some 0, paidWorld u user w) =
      (.error err, none, w') := by
    have hpay : (prisma (.userRefund u)).run (faulty err) (none, paidWorld u user w) =
        (.ok (), none, w') := by
      rw [Proc.run_await]
      simp only [faulty, failing, Cmd.exec_db, hrefund]
    unfold enqueueEntry
    rw [Proc.run_tryCatch]
    change ((prisma (.userRefund u)).bind fun _ => Proc.fail err).run (faulty err) _ = _
    exact Proc.run_bind_ok _ hpay _
  have hnow : (host .now).run (faulty err) (some 0, paidWorld u user w) =
      (.ok w.clock, some 0, paidWorld u user w) := rfl
  unfold enter
  rw [Proc.bind_eq, Proc.run_bind_ok _ hnow]
  exact Proc.run_bind_error _ hmulti _

variable (u k city err) in
/-- Afterwards the user is in the queue, whatever the caller sees. -/
theorem enter_entered (user : User) (w : World) :
    (enter u city k).run (faulty err) (some 1, paidWorld u user w) =
        (.error err, none, enteredWorld u k (paidWorld u user w)) ∧
      (∃ position, (enter u city k).run (faulty err) (none, paidWorld u user w) =
        (.ok (.queued k position), none, enteredWorld u k (paidWorld u user w))) ∧
      ∀ n, ∃ position, (enter u city k).run (faulty err) (some (n + 2), paidWorld u user w) =
        (.ok (.queued k position), some n, enteredWorld u k (paidWorld u user w)) :=
  ⟨rfl, ⟨_, rfl⟩, fun _ => ⟨_, rfl⟩⟩

variable (w err) in
theorem get_faulty (key : RedisKey) (n : Option Nat) :
    (redis (.get key)).run (faulty err) (n.map (· + 1), w) = (.ok (w.get key), n, w) := by
  cases n <;> rfl

theorem debit_faulty {a : Nat} {w' : World} (h : (DbCmd.userDebit u).exec w = (.ok a, w'))
    (n : Option Nat) :
    (prisma (.userDebit u)).run (faulty err) (n.map (· + 1), w) = (.ok a, n, w') := by
  rw [Proc.run_await]
  cases n <;> simp only [Option.map_none, Option.map_some, faulty, failing, Cmd.exec_db, h]

variable (k city err) in
/-- The entry is read and the token taken. -/
theorem enqueue_enter {user : User} (hentry : parseQueueEntryState (w.get (.queueUser u)) = none)
    (huser : w.db.users u = some user) (hbalance : 1 ≤ user.tokenBalance) (n : Option Nat) :
    (enqueue u city k).run (faulty err) ((n.map (· + 1)).map (· + 1), w) =
      (enter u city k).run (faulty err) (n, paidWorld u user w) := by
  have hget := get_faulty w err (.queueUser u) (n.map (· + 1))
  unfold enqueue
  rw [Proc.bind_eq, Proc.run_bind_ok _ hget, hentry]
  exact Proc.run_bind_ok _ (debit_faulty (debit_run huser hbalance) n) _

variable (k city err) in
/-- A user who may enter does, unless one of the first three commands fails;
the fourth one looks the position up. -/
theorem enqueue_run (h : mayEnter u w) :
    (∀ n < 3, ∃ w', (enqueue u city k).run (faulty err) (some n, w) = (.error err, none, w') ∧
      Untouched u w w') ∧
    ∃ w', Joined u k w w' ∧
      (enqueue u city k).run (faulty err) (some 3, w) = (.error err, none, w') ∧
      (∃ position, (enqueue u city k).run (faulty err) (none, w) =
        (.ok (.queued k position), none, w')) ∧
      ∀ n, ∃ position, (enqueue u city k).run (faulty err) (some (n + 4), w) =
        (.ok (.queued k position), some n, w') := by
  obtain ⟨hentry, user, huser, hbalance⟩ := h
  have henter := enqueue_enter k city err hentry huser hbalance
  obtain ⟨hlookup, hnone, hlater⟩ := enter_entered u k city err user w
  refine ⟨fun n hn => ?_, _, joined_entered huser hbalance, ?_, ?_, fun n => ?_⟩
  · match n, hn with
    | 0, _ => exact ⟨w, rfl, .refl u w⟩
    | 1, _ =>
        refine ⟨w, ?_, .refl u w⟩
        have hget : (redis (.get (.queueUser u))).run (faulty err) (some 1, w) =
            (.ok (w.get (.queueUser u)), some 0, w) := rfl
        unfold enqueue
        rw [Proc.bind_eq, Proc.run_bind_ok _ hget, hentry]
        rfl
    | 2, _ =>
        obtain ⟨w', hrun, hsame⟩ := enter_failing k city err huser hbalance
        exact ⟨w', (henter (some 0)).trans hrun, hsame⟩
  · exact (henter (some 1)).trans hlookup
  · obtain ⟨position, hrun⟩ := hnone
    exact ⟨position, (henter none).trans hrun⟩
  · obtain ⟨position, hrun⟩ := hlater n
    exact ⟨position, (henter (some (n + 2))).trans hrun⟩

theorem debit_refused (h : ¬∃ user, w.db.users u = some user ∧ 1 ≤ user.tokenBalance) :
    (DbCmd.userDebit u).exec w = (.ok 0, w) := by
  cases huser : w.db.users u with
  | none => simp only [DbCmd.exec, huser]
  | some user =>
      have hbalance : ¬1 ≤ user.tokenBalance := fun hle => h ⟨user, huser, hle⟩
      simp only [DbCmd.exec, huser, if_neg hbalance]

/-- The countdown has run out, or there is a command to go. -/
theorem countdown_cases (n : Option Nat) : n = some 0 ∨ ∃ m : Option Nat, n = m.map (· + 1) := by
  rcases n with _ | _ | n
  · exact .inr ⟨none, rfl⟩
  · exact .inl rfl
  · exact .inr ⟨some n, rfl⟩

/-- The answer to a user with an entry. -/
theorem alreadyQueued_run (state : QueueEntryState) (n : Option Nat) :
    ∃ r n', (alreadyQueued u state).run (faulty err) (n, w) = (r, n', w) ∧
      ∀ k position, r ≠ .ok (.queued k position) := by
  rcases n with _ | _ | n
  · exact ⟨_, none, rfl, by simp⟩
  · exact ⟨.error err, none, rfl, by simp⟩
  · exact ⟨_, some n, rfl, by simp⟩

variable (k city err) in
/-- A user who may not enter is turned away. -/
theorem enqueue_refused (h : ¬mayEnter u w) (n : Option Nat) :
    ∃ r n', (enqueue u city k).run (faulty err) (n, w) = (r, n', w) ∧
      ∀ k' position, r ≠ .ok (.queued k' position) := by
  rcases countdown_cases n with rfl | ⟨m, rfl⟩
  · exact ⟨.error err, none, rfl, by simp⟩
  · have hget := get_faulty w err (.queueUser u) m
    unfold enqueue
    rw [Proc.bind_eq, Proc.run_bind_ok _ hget]
    cases hentry : parseQueueEntryState (w.get (.queueUser u)) with
    | some state => exact alreadyQueued_run state m
    | none =>
        rcases countdown_cases m with rfl | ⟨l, rfl⟩
        · exact ⟨.error err, none, rfl, by simp⟩
        · have hdebit := debit_refused fun huser => h ⟨hentry, huser⟩
          refine ⟨_, l, Proc.run_bind_ok _ (debit_faulty hdebit l) _, by simp⟩

end Enqueue

/-! ## The whole call -/

section Join

variable {u : UserId} {input : QueueJoinInput} {w : World} {err : Err}

/-- The lock is taken. -/
def lockedWorld (u : UserId) (w : World) : World :=
  { w with nextId := w.nextId + 1 }.set (.queueLock u) (.text (freshId w.nextId)) (some LOCK_TTL_MS)

theorem untouched_locked (u : UserId) (w : World) : Untouched u w (lockedWorld u w) :=
  ⟨rfl, World.get_set_ne (by simp), rfl, rfl⟩

variable (u w err) in
/-- `acquireLock`, whose `SET NX` is one command. -/
theorem acquireLock_faulty (n : Option Nat) :
    (acquireLock u).run (faulty err) (n.map (· + 1), w) =
      if w.get (.queueLock u) = none then (.ok (some (freshId w.nextId)), n, lockedWorld u w)
      else (.ok none, n, { w with nextId := w.nextId + 1 }) := by
  have huuid : (host .randomUUID).run (faulty err) (n.map (· + 1), w) =
      (.ok (freshId w.nextId), n.map (· + 1), { w with nextId := w.nextId + 1 }) := rfl
  unfold acquireLock
  rw [Proc.bind_eq, Proc.run_bind_ok _ huuid]
  have hset : (redis (.setNX (.queueLock u) (.text (freshId w.nextId)) LOCK_TTL_MS)).run
      (faulty err) (n.map (· + 1), { w with nextId := w.nextId + 1 }) =
      if w.get (.queueLock u) = none then (.ok true, n, lockedWorld u w)
      else (.ok false, n, { w with nextId := w.nextId + 1 }) := by
    rw [Proc.run_await]
    have hget : World.get { w with nextId := w.nextId + 1 } (.queueLock u) =
        w.get (.queueLock u) := rfl
    cases hlock : w.get (.queueLock u) <;> cases n <;>
      simp only [Option.map_none, Option.map_some, faulty, failing, Cmd.exec_redis,
        RedisCmd.exec, hget, hlock, reduceCtorEq, if_true, if_false] <;> rfl
  by_cases hlock : w.get (.queueLock u) = none
  · rw [if_pos hlock] at hset ⊢
    exact Proc.run_bind_ok _ hset _
  · rw [if_neg hlock] at hset ⊢
    exact Proc.run_bind_ok _ hset _

/-- The release ends the call, with its own error if it fails. -/
theorem release_run {α : Type} {p : Prog α} {s : Option Nat × World} {r : Except Err α}
    {n : Option Nat} {w' : World} (h : p.run (faulty err) s = (r, n, w')) (v : String) :
    ∃ n' w'', (p.tryFinally (releaseLock u v)).run (faulty err) s =
        (if n = some 0 then .error err else r, n', w'') ∧
      Untouched u w' w'' ∧ w''.db = w'.db := by
  rw [Proc.run_tryFinally, h]
  have hsame : Untouched u w' ((RedisCmd.releaseLock (.queueLock u) (.text v)).exec w').2 ∧
      ((RedisCmd.releaseLock (.queueLock u) (.text v)).exec w').2.db = w'.db := by
    simp only [RedisCmd.exec]
    split
    · exact ⟨⟨rfl, World.get_del_ne (by simp), rfl, rfl⟩, rfl⟩
    · exact ⟨.refl u w', rfl⟩
  rcases n with _ | _ | n
  · exact ⟨none, _, rfl, hsame⟩
  · exact ⟨none, w', rfl, .refl u w', rfl⟩
  · refine ⟨some n, _, ?_, hsame⟩
    rw [if_neg (by simp)]
    rfl

variable (u w err) in
/-- Under the lock, with the release at the end. -/
theorem locked_atomic (city : String) (k : QueueKey) (v : String) (n : Option Nat) :
    let out := ((enqueue u city k).tryFinally (releaseLock u v)).run (faulty err) (n, w)
    AtomicJoin u w out.1 out.2.2 ↔ ¬(mayEnter u w ∧ (n = some 3 ∨ n = some 4)) := by
  intro out
  by_cases hmay : mayEnter u w
  · obtain ⟨hearly, w', hjoined, hlookup, ⟨position, hnone⟩, hlater⟩ :=
      enqueue_run k city err hmay
    -- the call has joined and throws, whoever throws
    have hthrows {r n'} (hrun : (enqueue u city k).run (faulty err) (n, w) = (r, n', w'))
        (hr : n' = some 0 ∨ ∃ e, r = .error e) : ¬AtomicJoin u w out.1 out.2.2 := by
      obtain ⟨_, w'', hout, hsame, hdb⟩ := release_run hrun v
      have herror : ∃ e, (if n' = some 0 then .error err else r) = .error e := by
        rcases hr with rfl | ⟨e, rfl⟩
        · exact ⟨err, if_pos rfl⟩
        · split
          · exact ⟨err, rfl⟩
          · exact ⟨e, rfl⟩
      obtain ⟨e, he⟩ := herror
      rw [show out = _ from hout, he]
      exact (hjoined.untouched hsame hdb).not_untouched
    have hreturns {position n'} (hrun : (enqueue u city k).run (faulty err) (n, w) =
        (.ok (.queued k position), n', w')) (hn' : n' ≠ some 0) :
        AtomicJoin u w out.1 out.2.2 := by
      obtain ⟨_, w'', hout, hsame, hdb⟩ := release_run hrun v
      rw [show out = _ from hout, if_neg hn']
      exact hjoined.untouched hsame hdb
    have hunchanged (hrun : ∃ w₁, (enqueue u city k).run (faulty err) (n, w) =
        (.error err, none, w₁) ∧ Untouched u w w₁) : AtomicJoin u w out.1 out.2.2 := by
      obtain ⟨w₁, hrun, hearlier⟩ := hrun
      obtain ⟨_, w'', hout, hsame, -⟩ := release_run hrun v
      rw [show out = _ from hout, if_neg (by simp)]
      exact hearlier.trans hsame
    match n with
    | none => exact iff_of_true (hreturns hnone (by simp)) (by simp)
    | some 0 => exact iff_of_true (hunchanged (hearly 0 (by omega))) (by simp)
    | some 1 => exact iff_of_true (hunchanged (hearly 1 (by omega))) (by simp)
    | some 2 => exact iff_of_true (hunchanged (hearly 2 (by omega))) (by simp)
    | some 3 => exact iff_of_false (hthrows hlookup (.inr ⟨err, rfl⟩)) fun h => h ⟨hmay, .inl rfl⟩
    | some 4 =>
        obtain ⟨position, hrun⟩ := hlater 0
        exact iff_of_false (hthrows hrun (.inl rfl)) fun h => h ⟨hmay, .inr rfl⟩
    | some (n + 5) =>
        obtain ⟨position, hrun⟩ := hlater (n + 1)
        exact iff_of_true (hreturns hrun (by simp)) (by simp)
  · refine iff_of_true ?_ fun h => hmay h.1
    obtain ⟨r, n', hrun, hr⟩ := enqueue_refused k city err hmay n
    obtain ⟨_, w'', hout, hsame, -⟩ := release_run hrun v
    rw [show out = _ from hout]
    refine atomicJoin_untouched hsame fun k' position => ?_
    split
    · simp
    · exact hr k' position

variable (u w err) in
theorem joinBusy_run (n : Option Nat) :
    ∃ r n', (joinBusy u).run (faulty err) (n, w) = (r, n', w) ∧
      ∀ k position, r ≠ .ok (.queued k position) := by
  rcases countdown_cases n with rfl | ⟨m, rfl⟩
  · exact ⟨.error err, none, rfl, by simp⟩
  · have hget := get_faulty w err (.queueUser u) m
    unfold joinBusy
    rw [Proc.bind_eq, Proc.run_bind_ok _ hget]
    cases parseQueueEntryState (w.get (.queueUser u)) with
    | some state => exact alreadyQueued_run state m
    | none => exact ⟨_, m, rfl, by simp⟩

theorem mayEnter_locked : mayEnter u (lockedWorld u w) ↔ mayEnter u w := by
  unfold mayEnter
  rw [(untouched_locked u w).state]
  exact Iff.rfl

variable (u w err) in
theorem checked_atomic (city : String) (k : QueueKey) (n : Option Nat) :
    let out := (joinChecked u city k).run (faulty err) (n, w)
    AtomicJoin u w out.1 out.2.2 ↔
      ¬((w.get (.queueLock u) = none ∧ mayEnter u w) ∧ (n = some 4 ∨ n = some 5)) := by
  intro out
  rcases countdown_cases n with rfl | ⟨m, rfl⟩
  · exact iff_of_true ⟨rfl, rfl, rfl, rfl⟩ (by simp)
  · have hlock := acquireLock_faulty u w err m
    by_cases hfree : w.get (.queueLock u) = none
    · rw [if_pos hfree] at hlock
      have hout : out = ((enqueue u city k).tryFinally (releaseLock u (freshId w.nextId))).run
          (faulty err) (m, lockedWorld u w) := Proc.run_bind_ok _ hlock _
      have hlocked := locked_atomic u (lockedWorld u w) err city k
        (freshId w.nextId) m
      have hcount (i : Nat) : m.map (· + 1) = some (i + 1) ↔ m = some i := by
        cases m <;> simp
      rw [hout, atomicJoin_congr (untouched_locked u w) rfl, hcount, hcount, and_iff_right hfree,
        ← mayEnter_locked]
      exact hlocked
    · rw [if_neg hfree] at hlock
      obtain ⟨r, n', hrun, hr⟩ :=
        joinBusy_run u { w with nextId := w.nextId + 1 } err m
      have hout : out = (r, n', { w with nextId := w.nextId + 1 }) :=
        (Proc.run_bind_ok _ hlock _).trans hrun
      have hsame : Untouched u w { w with nextId := w.nextId + 1 } := ⟨rfl, rfl, rfl, rfl⟩
      rw [hout]
      exact iff_of_true (atomicJoin_untouched hsame hr) fun h => hfree h.1.1

end Join

/-- The call is atomic unless the lookup of the position or the release of
the lock fails in a call that joins. -/
theorem atomic_iff (u : UserId) (input : QueueJoinInput) (n : Nat) (err : Err) (w : World) :
    let out := (joinQueue u input).run (faulty err) (some n, w)
    AtomicJoin u w out.1 out.2.2 ↔ ¬(joins u input w ∧ (n = 5 ∨ n = 6)) := by
  intro out
  cases n with
  | zero => exact iff_of_true (Untouched.refl u w) (by simp)
  | succ m =>
      have hget := get_faulty w err (.moderationBan u) (some m)
      have hout : out = _ := Proc.run_bind_ok _ hget _
      by_cases hbanned : truthy (w.get (.moderationBan u)) = true
      · rw [hout, if_pos hbanned]
        refine iff_of_true (Untouched.refl u w) fun h => ?_
        rw [h.1.1] at hbanned
        exact absurd hbanned (by simp)
      · rw [hout, if_neg hbanned]
        cases hcity : resolveQueueCity input with
        | error e =>
            refine iff_of_true (Untouched.refl u w) fun h => ?_
            obtain ⟨city, k, hcity', -⟩ := h.1.2.1
            rw [hcity] at hcity'
            cases hcity'
        | ok city =>
            cases hkey : buildQueueKey city input.preferences with
            | error e =>
                refine iff_of_true ?_ fun h => ?_
                · simp only [hkey]
                  exact Untouched.refl u w
                · obtain ⟨city', k, hcity', hkey'⟩ := h.1.2.1
                  rw [hcity] at hcity'
                  cases hcity'
                  rw [hkey] at hkey'
                  cases hkey'
            | ok k =>
                simp only [hkey]
                have hchecked := checked_atomic u w err city k (some m)
                refine hchecked.trans (not_congr ?_)
                have hjoins : joins u input w ↔ w.get (.queueLock u) = none ∧ mayEnter u w := by
                  unfold joins
                  rw [and_iff_right (by simpa using hbanned),
                    and_iff_right ⟨city, k, hcity, hkey⟩]
                rw [hjoins, Option.some_inj, Option.some_inj]
                refine and_congr_right fun _ => ?_
                omega

/-- The user is charged and queued, and told that joining failed. -/
theorem not_atomic_position :
    ¬∀ (u : UserId) (input : QueueJoinInput) (n : Nat) (err : Err) (w : World),
      let out := (joinQueue u input).run (faulty err) (some n, w)
      AtomicJoin u w out.1 out.2.2 := by
  intro h
  have hatomic := h "ann" ⟨.undefined, .undefined, "any"⟩ 5 (.command "connection lost")
    (World.peopled ["ann"] 1)
  have hbalance := Untouched.balance hatomic
  revert hbalance
  decide +kernel

end VerityBackend.Queue
