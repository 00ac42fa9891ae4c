/-
VerityBackend.Matchmaking.Board — what the queue is, apart from the rest of
the world, and what keeps it.

`board w` is the part of the world that decides who waits: the sorted sets,
the entries `queue:user:<id>`, the set of queue keys, and the tables the
worker and moderation change. `Waiting hand b` is the representation
invariant; `hand` are the users a worker has popped and not yet put
anywhere. `Still` relates two moments of a call between which the board
stayed as it was; most commands are of that kind (`still_exec`).
-/
import VerityBackend.Backend.Frames
import VerityBackend.Matchmaking.Service
import VerityBackend.Queue.Issued

namespace VerityBackend.Matchmaking

open Async Store Queue

structure Board where
  zsets : QueueKey → SortedSet UserId
  entries : UserId → Option (Stamped RedisString)
  queueKeys : List QueueKey
  users : UserId → Option User
  sessions : List Session
  blocks : List Block

def board (w : World) : Board where
  zsets := w.redis.zsets
  entries := fun u => w.stored (.queueUser u)
  queueKeys := w.redis.queueKeys
  users := w.db.users
  sessions := w.db.sessions
  blocks := w.db.blocks

/-- The queue the entry of a user names. -/
def Board.queued (b : Board) (u : UserId) : Option QueueKey :=
  (parseQueueEntryState ((b.entries u).map (·.val))).map (·.queueKey)

/-- **The representation invariant.** The users in `hand` are in no sorted
set, everybody else is in the set their entry names. -/
structure Waiting (hand : List UserId) (b : Board) : Prop where
  member : ∀ u k, u ∈ b.zsets k ↔ b.queued u = some k ∧ u ∉ hand
  permanent : ∀ u e, b.entries u = some e → e.expiresAt = none
  parses : ∀ u e, b.entries u = some e → (b.queued u).isSome
  listed : ∀ u k, b.queued u = some k → k ∈ b.queueKeys
  known : ∀ u k, b.queued u = some k → (b.users u).isSome

theorem Waiting.entries_eq_none {hand : List UserId} {b : Board} (h : Waiting hand b) {u : UserId} :
    b.entries u = none ↔ b.queued u = none := by
  constructor
  · intro hnone
    simp [Board.queued, hnone, parseQueueEntryState]
  · intro hnone
    cases he : b.entries u with
    | none => rfl
    | some e =>
        have hsome := h.parses u e he
        rw [hnone] at hsome
        cases hsome

/-- What `GET queue:user:<id>` answers. -/
theorem Waiting.get_entry {hand : List UserId} {w : World} (h : Waiting hand (board w)) (u : UserId) :
    w.get (.queueUser u) = ((board w).entries u).map (·.val) :=
  World.get_of_permanent (h.permanent u)

theorem Waiting.parse_entry {hand : List UserId} {w : World} (h : Waiting hand (board w))
    (u : UserId) :
    (parseQueueEntryState (w.get (.queueUser u))).map (·.queueKey) = (board w).queued u := by
  rw [h.get_entry]
  rfl

/-! ## Commands that leave the board alone -/

/-- The keys of one user's place in a queue. -/
def OfQueue : RedisKey → Prop
  | .queueUser _ => True
  | .queueMatched _ => True
  | _ => False

def OffBoard : Cmd → Prop
  | .redis (.set k _ _) => ¬OfQueue k
  | .redis (.setNX k _ _) => ¬OfQueue k
  | .redis (.del ks) => ∀ u, .queueUser u ∉ ks
  | .redis (.releaseLock k _) => ∀ u, k ≠ .queueUser u
  | .redis (.zadd _ _) => False
  | .redis (.zrem _ _) => False
  | .redis (.zpopmin _ _) => False
  | .redis (.srem _) => False
  | .redis (.multiJoin _ _ _ _) => False
  | .redis (.multiMarkMatched _ _ _ _) => False
  | .db (.userDebit _) => False
  | .db (.userRefund _) => False
  | .db (.creditTransaction _ _ _ _ _) => False
  | .db (.sessionCreate _ _ _ _) => False
  | .db (.sessionDeleteMany _) => False
  | .db (.blockCreate _ _) => False
  | .db (.blockReopen _) => False
  | .db (.blockLift _ _) => False
  | .db (.reportTransaction _ _ _ _) => False
  | _ => True

theorem OffBoard.frames {c : Cmd} (h : OffBoard c) :
    (∀ u, ¬c.touches (.queueUser u)) ∧ ¬c.movesQueue ∧ ¬c.movesTokens ∧ ¬c.movesSessions ∧
      ¬c.movesBlocks := by
  cases c with
  | host c => exact ⟨fun _ h => h, id, id, id, id⟩
  | db c =>
      cases c <;> first
        | exact ⟨fun _ h => h, id, id, id, id⟩
        | exact h.elim
  | redis c =>
      cases c with
      | set k v ttl => exact ⟨fun u hu => h (hu ▸ trivial), id, id, id, id⟩
      | setNX k v ttl => exact ⟨fun u hu => h (hu ▸ trivial), id, id, id, id⟩
      | releaseLock k v => exact ⟨fun u hu => h u hu.symm, id, id, id, id⟩
      | del ks => exact ⟨h, id, id, id, id⟩
      | zadd q xs => exact h.elim
      | zrem q user => exact h.elim
      | zpopmin q count => exact h.elim
      | srem q => exact h.elim
      | multiJoin q user joinedAt state => exact h.elim
      | multiMarkMatched userA userB id ttl => exact h.elim
      | _ => exact ⟨fun _ h => h, id, id, id, id⟩

theorem board_exec {c : Cmd} (h : OffBoard c) (w : World) : board (c.exec w).2 = board w := by
  obtain ⟨htouch, hqueue, htokens, hsession, hblocks⟩ := h.frames
  obtain ⟨hzsets, hkeys⟩ := Cmd.queues_exec hqueue w
  have htables := c.tables_exec w
  have hentries : (fun u => (c.exec w).2.stored (.queueUser u)) =
      fun u => w.stored (.queueUser u) := funext fun u => Cmd.stored_exec (htouch u) w
  unfold board
  rw [hzsets, hkeys, hentries, htables.users htokens, htables.sessions hsession,
    htables.blocks hblocks]

theorem board_env (e : Env) (w : World) : board (w.env e) = board w := by
  cases e
  rfl

/-! ## Locks and bans -/

/-- The keys that only some commands may create. -/
def Guarded : RedisKey → Prop
  | .queueLock _ => True
  | .moderationBan _ => True
  | _ => False

/-- Locks and bans seen in the second world were there in the first one. -/
def Fades (w w' : World) : Prop := ∀ k, Guarded k → ∀ r, w'.get k = some r → w.get k = some r

theorem Fades.refl (w : World) : Fades w w := fun _ _ _ h => h

theorem Fades.trans {w₁ w₂ w₃ : World} (h : Fades w₁ w₂) (h' : Fades w₂ w₃) : Fades w₁ w₃ :=
  fun k hk r hr => h k hk r (h' k hk r hr)

theorem Fades.get_none {w w' : World} (h : Fades w w') {k : RedisKey} (hk : Guarded k)
    (hnone : w.get k = none) : w'.get k = none := by
  cases hr : w'.get k with
  | none => rfl
  | some r => exact absurd (h k hk r hr) (by rw [hnone]; nofun)

theorem fades_env (w : World) (e : Env) : Fades w (w.env e) := by
  cases e
  exact fun _ _ _ hr => World.get_of_get_tick hr

theorem fades_exec {c : Cmd} (h : ∀ k, Guarded k → ¬c.writes k) (w : World) :
    Fades w (c.exec w).2 :=
  fun k hk _ hr => Cmd.get_of_get_exec (h k hk) hr

theorem fades_db (c : DbCmd) (w : World) : Fades w (c.exec w).2 :=
  fades_exec (c := .db c) (fun _ _ h => h) w

/-- Nobody holds a user lock. -/
def Unlocked (w : World) : Prop := ∀ u, w.get (.queueLock u) = none

theorem Unlocked.fades {w w' : World} (h : Unlocked w) (hf : Fades w w') : Unlocked w' :=
  fun u => hf.get_none trivial (h u)

/-! ## Moments of a call -/

/-- The read on which a refund depends. -/
def ReadsMark (c : Cmd) : Prop := ∃ u, c = .redis (.get (.queueMatched u))

/-- The commands that leave the board, the locks and the bans alone, and do
not ask for the mark of a match. -/
def Idle (c : Cmd) : Prop := OffBoard c ∧ (∀ k, Guarded k → ¬c.writes k) ∧ ¬ReadsMark c

/-- The commands that create no session and neither ask for a mark nor
write one. -/
structure Plain (c : Cmd) : Prop where
  reads : ¬ReadsMark c
  session : ¬c.createsSession
  marks : ∀ u, ¬c.writes (.queueMatched u)

theorem plain_redis {c : RedisCmd} (h : ∀ u, c ≠ .get (.queueMatched u))
    (hmarks : ∀ u, ¬(Cmd.redis c).writes (.queueMatched u)) : Plain (.redis c) where
  reads := fun ⟨u, hu⟩ => h u (by cases hu; rfl)
  session := id
  marks := hmarks

theorem plain_db {c : DbCmd} (h : ¬(Cmd.db c).createsSession) : Plain (.db c) where
  reads := fun ⟨_, hc⟩ => nomatch hc
  session := h
  marks _ h := h

theorem OffBoard.marks {c : Cmd} (h : OffBoard c) (u : UserId) : ¬c.writes (.queueMatched u) := by
  cases c with
  | host c => exact id
  | db c => exact id
  | redis c =>
      cases c with
      | set k v ttl => exact fun hu => h (hu ▸ trivial)
      | setNX k v ttl => exact fun hu => h (hu ▸ trivial)
      | multiJoin q user joinedAt state => exact h.elim
      | multiMarkMatched userA userB id ttl => exact h.elim
      | _ => exact id

theorem Idle.plain {c : Cmd} (h : Idle c) : Plain c where
  reads := h.2.2
  session := fun hcreates => h.1.frames.2.2.2.1 hcreates.moves
  marks := h.1.marks

variable {V : Service}

/-- Time has passed and idle commands have been executed. -/
structure Still (s s' : Snap V.system) : Prop where
  board : board s'.world = board s.world
  fades : Fades s.world s'.world
  trace : s.Between (fun e => Idle e.cmd) s'

theorem Still.refl (s : Snap V.system) : Still s s := ⟨rfl, .refl _, .refl _ s⟩

theorem Still.trans {s₁ s₂ s₃ : Snap V.system} (h : Still s₁ s₂) (h' : Still s₂ s₃) :
    Still s₁ s₃ :=
  ⟨h'.board.trans h.board, h.fades.trans h'.fades, h.trace.trans h'.trace⟩

theorem still_elapse (s : Snap V.system) (es : List Env) : Still s (s.elapse es) := by
  refine ⟨?_, ?_, .elapse _ s es⟩
  · unfold Snap.elapse
    dsimp only
    induction es generalizing s with
    | nil => rfl
    | cons e es ih => exact (ih ⟨s.world.env e, s.trace⟩).trans (board_env e s.world)
  · unfold Snap.elapse
    dsimp only
    induction es generalizing s with
    | nil => exact .refl _
    | cons e es ih => exact (fades_env s.world e).trans (ih ⟨s.world.env e, s.trace⟩)

theorem still_exec {c : Cmd} (h : Idle c) (i : Nat) (s : Snap V.system) :
    Still s (s.exec i c) where
  board := board_exec h.1 s.world
  fades := fades_exec h.2.1 s.world
  trace := .exec h

/-! ## Commands that change the board -/

namespace Board

def setUser (b : Board) (u : UserId) (user : User) : Board :=
  { b with users := fun u' => if u' = u then some user else b.users u' }

def setZset (b : Board) (k : QueueKey) (z : SortedSet UserId) : Board :=
  { b with zsets := fun k' => if k' = k then z else b.zsets k' }

def setEntry (b : Board) (u : UserId) (e : Option (Stamped RedisString)) : Board :=
  { b with entries := fun u' => if u' = u then e else b.entries u' }

def unlist (b : Board) (k : QueueKey) : Board :=
  { b with queueKeys := b.queueKeys.filter (· ≠ k) }

/-- `MULTI` of `joinQueue`. -/
def enter (b : Board) (u : UserId) (k : QueueKey) (joinedAt : Nat) : Board :=
  let b' := (b.setZset k ((b.zsets k).zadd joinedAt u)).setEntry u
    (some ⟨(QueueEntryState.mk k joinedAt).toJson, none⟩)
  { b' with queueKeys := b.queueKeys.insert k }

def zrem (b : Board) (k : QueueKey) (u : UserId) : Board := b.setZset k ((b.zsets k).zrem u)

def zadd (b : Board) (k : QueueKey) (xs : List (Ranked UserId)) : Board :=
  b.setZset k ((b.zsets k).zaddAll xs)

def zpopmin (b : Board) (k : QueueKey) (count : Nat) : Board :=
  b.setZset k ((b.zsets k).zpopmin count)

def addSession (b : Board) (x : Session) : Board := { b with sessions := b.sessions ++ [x] }

theorem queued_setEntry (b : Board) (u u' : UserId) (e : Option (Stamped RedisString)) :
    (b.setEntry u e).queued u' = if u' = u
      then (parseQueueEntryState (e.map (·.val))).map (·.queueKey) else b.queued u' := by
  unfold queued setEntry
  dsimp only
  split <;> rfl

theorem queued_clear (b : Board) (u u' : UserId) :
    (b.setEntry u none).queued u' = if u' = u then none else b.queued u' := by
  rw [queued_setEntry]
  rfl

theorem queued_enter (b : Board) (u : UserId) {k : QueueKey} (hk : k ≠ "") (joinedAt : Nat)
    (u' : UserId) : (b.enter u k joinedAt).queued u' = if u' = u then some k else b.queued u' := by
  have hparse := @parseQueueEntryState_toJson ⟨k, joinedAt⟩ hk
  have hset := queued_setEntry (b.setZset k ((b.zsets k).zadd joinedAt u)) u u'
    (some ⟨(QueueEntryState.mk k joinedAt).toJson, none⟩)
  rw [Option.map_some, hparse] at hset
  exact hset

end Board

theorem queueUser_ne {u u' : UserId} (h : u' ≠ u) : RedisKey.queueUser u' ≠ .queueUser u :=
  fun hk => h (RedisKey.queueUser.inj hk)

theorem entries_setEntry {w w' : World} {u : UserId} {e : Option (Stamped RedisString)}
    (hself : w'.stored (.queueUser u) = e)
    (hne : ∀ u', u' ≠ u → w'.stored (.queueUser u') = w.stored (.queueUser u')) :
    (board w').entries = ((board w).setEntry u e).entries := by
  funext u'
  simp only [board, Board.setEntry]
  by_cases hu : u' = u
  · rw [if_pos hu, hu, hself]
  · rw [if_neg hu]
    exact hne u' hu

theorem board_multiJoin (w : World) (k : QueueKey) (u : UserId) (joinedAt : Nat) :
    board ((RedisCmd.multiJoin k u joinedAt (QueueEntryState.mk k joinedAt).toJson).exec w).2 =
      (board w).enter u k joinedAt := by
  set w' := ((RedisCmd.multiJoin k u joinedAt (QueueEntryState.mk k joinedAt).toJson).exec w).2
    with hw'
  set w₁ := w.setZset k ((w.zset k).zadd joinedAt u)
  set state := (QueueEntryState.mk k joinedAt).toJson
  have hentries := @entries_setEntry w (w₁.set (.queueUser u) state none) u (some ⟨state, none⟩)
    (World.stored_set_self w₁ (.queueUser u) state none)
    (fun u' hu => World.stored_set_ne (queueUser_ne hu))
  have hsame : (board w').entries = (board (w₁.set (.queueUser u) state none)).entries := rfl
  calc board w' = { (board w).enter u k joinedAt with entries := (board w').entries } := rfl
    _ = (board w).enter u k joinedAt := by rw [hsame, hentries]; rfl

theorem board_zrem (w : World) (k : QueueKey) (u : UserId) :
    board ((RedisCmd.zrem k u).exec w).2 = (board w).zrem k u := rfl

theorem board_srem (w : World) (k : QueueKey) :
    board ((RedisCmd.srem k).exec w).2 = (board w).unlist k := rfl

theorem board_delEntry (w : World) (u : UserId) :
    board ((RedisCmd.del [.queueUser u]).exec w).2 = (board w).setEntry u none := by
  set w' := ((RedisCmd.del [.queueUser u]).exec w).2 with hw'
  have hentries : (board w').entries = ((board w).setEntry u none).entries :=
    entries_setEntry (World.stored_del_self w (.queueUser u))
      (fun u' hu => World.stored_del_ne (queueUser_ne hu))
  calc board w' = { (board w).setEntry u none with entries := (board w').entries } := rfl
    _ = (board w).setEntry u none := by rw [hentries]

theorem board_multiMarkMatched (w : World) (userA userB : UserId) (id : SessionId) (ttl : Nat) :
    board ((RedisCmd.multiMarkMatched userA userB id ttl).exec w).2 =
      ((board w).setEntry userA none).setEntry userB none := by
  set w' := ((RedisCmd.multiMarkMatched userA userB id ttl).exec w).2 with hw'
  have hdel : ∀ u, w'.stored (.queueUser u) =
      ((w.del (.queueUser userA)).del (.queueUser userB)).stored (.queueUser u) := by
    intro u
    rw [hw', RedisCmd.exec, World.stored_set_ne (by simp), World.stored_set_ne (by simp)]
  have hfirst := entries_setEntry (World.stored_del_self w (.queueUser userA))
    (fun u' hu => World.stored_del_ne (queueUser_ne hu))
  have hboth := entries_setEntry (w := w.del (.queueUser userA))
    ((hdel userB).trans (World.stored_del_self _ _))
    (fun u' hu => (hdel u').trans (World.stored_del_ne (queueUser_ne hu)))
  have hentries : (board w').entries =
      (((board w).setEntry userA none).setEntry userB none).entries := by
    rw [hboth]
    unfold Board.setEntry
    dsimp only
    rw [hfirst]
    rfl
  calc board w' = { ((board w).setEntry userA none).setEntry userB none with
        entries := (board w').entries } := rfl
    _ = ((board w).setEntry userA none).setEntry userB none := by rw [hentries]

/-! ## What keeps the invariant -/

section Waiting

variable {hand : List UserId} {b : Board} {u : UserId} {k : QueueKey}

/-- Only the parts the invariant speaks of matter. -/
theorem Waiting.congr {b' : Board} (h : Waiting hand b)
    (hmember : ∀ u k, u ∈ b'.zsets k ↔ u ∈ b.zsets k) (hentries : b'.entries = b.entries)
    (hkeys : b'.queueKeys = b.queueKeys)
    (hknown : ∀ u, (b.users u).isSome → (b'.users u).isSome) : Waiting hand b' := by
  have hqueued : ∀ u, b'.queued u = b.queued u := by
    intro u
    unfold Board.queued
    rw [hentries]
  refine ⟨fun u k => ?_, fun u e he => ?_, fun u e he => ?_, fun u k hq => ?_, fun u k hq => ?_⟩
  · rw [hmember, hqueued]
    exact h.member u k
  · rw [hentries] at he
    exact h.permanent u e he
  · rw [hentries] at he
    rw [hqueued]
    exact h.parses u e he
  · rw [hqueued] at hq
    rw [hkeys]
    exact h.listed u k hq
  · rw [hqueued] at hq
    exact hknown u (h.known u k hq)

theorem Waiting.setUser (h : Waiting hand b) (u : UserId) (user : User) :
    Waiting hand (b.setUser u user) := by
  refine h.congr (fun _ _ => Iff.rfl) rfl rfl fun u' hu' => ?_
  unfold Board.setUser
  dsimp only
  split
  · rfl
  · exact hu'

theorem Waiting.setBlocks (h : Waiting hand b) (blocks : List Block) :
    Waiting hand { b with blocks := blocks } :=
  h.congr (fun _ _ => Iff.rfl) rfl rfl fun _ h => h

theorem Waiting.addSession (h : Waiting hand b) (x : Session) : Waiting hand (b.addSession x) :=
  h.congr (fun _ _ => Iff.rfl) rfl rfl fun _ h => h

theorem mem_setZset {b : Board} {k k' : QueueKey} {z : SortedSet UserId} {u : UserId} :
    u ∈ (b.setZset k z).zsets k' ↔ if k' = k then u ∈ z else u ∈ b.zsets k' := by
  unfold Board.setZset
  dsimp only
  split <;> exact Iff.rfl

/-- A user without an entry enters a queue. -/
theorem Waiting.enter (h : Waiting hand b) (hfree : b.queued u = none) (hhand : u ∉ hand)
    (hknown : (b.users u).isSome) (hk : k ≠ "") (joinedAt : Nat) :
    Waiting hand (b.enter u k joinedAt) := by
  have hqueued := b.queued_enter u hk joinedAt
  have hzset : ∀ u' k', u' ∈ (b.enter u k joinedAt).zsets k' ↔
      u' ∈ b.zsets k' ∨ u' = u ∧ k' = k := by
    intro u' k'
    change u' ∈ (b.setZset k ((b.zsets k).zadd joinedAt u)).zsets k' ↔ _
    rw [mem_setZset]
    split
    · next hk' => rw [hk', SortedSet.mem_zadd]; tauto
    · next hk' => simp [hk']
  refine ⟨fun u' k' => ?_, fun u' e he => ?_, fun u' e he => ?_, fun u' k' hq => ?_, fun u' k' hq => ?_⟩
  · rw [hzset, hqueued, h.member]
    by_cases hu : u' = u
    · subst hu
      simp [hfree, hhand, eq_comm]
    · simp [hu]
  · by_cases hu : u' = u
    · have hself : (b.enter u k joinedAt).entries u' =
          some ⟨(QueueEntryState.mk k joinedAt).toJson, none⟩ := if_pos hu
      rw [hself] at he
      cases he
      rfl
    · have hother : (b.enter u k joinedAt).entries u' = b.entries u' := if_neg hu
      rw [hother] at he
      exact h.permanent u' e he
  · rw [hqueued]
    by_cases hu : u' = u
    · rw [if_pos hu]
      rfl
    · have hother : (b.enter u k joinedAt).entries u' = b.entries u' := if_neg hu
      rw [hother] at he
      rw [if_neg hu]
      exact h.parses u' e he
  · change k' ∈ b.queueKeys.insert k
    rw [hqueued] at hq
    rw [List.mem_insert_iff]
    by_cases hu : u' = u
    · rw [if_pos hu] at hq
      exact .inl (Option.some.inj hq).symm
    · rw [if_neg hu] at hq
      exact .inr (h.listed u' k' hq)
  · change (b.users u').isSome
    rw [hqueued] at hq
    by_cases hu : u' = u
    · rw [hu]
      exact hknown
    · rw [if_neg hu] at hq
      exact h.known u' k' hq

/-- A user taken out of its set is in somebody's hand. -/
theorem Waiting.zrem (h : Waiting hand b) (hq : b.queued u = some k) :
    Waiting (u :: hand) (b.zrem k u) := by
  refine ⟨fun u' k' => ?_, h.permanent, h.parses, h.listed, h.known⟩
  change u' ∈ (b.setZset k ((b.zsets k).zrem u)).zsets k' ↔ b.queued u' = some k' ∧ _
  have hmem := h.member u' k'
  rw [mem_setZset, List.mem_cons, not_or]
  split
  · next hk' =>
      subst hk'
      rw [SortedSet.mem_zrem, hmem]
      tauto
  · next hk' =>
      rw [hmem]
      constructor
      · rintro ⟨hq', hhand⟩
        refine ⟨hq', ?_, hhand⟩
        rintro rfl
        exact hk' (Option.some.inj (hq'.symm.trans hq))
      · rintro ⟨hq', -, hhand⟩
        exact ⟨hq', hhand⟩

/-- A user in hand whose entry is deleted waits no longer. -/
theorem Waiting.clear (h : Waiting (u :: hand) b) : Waiting hand (b.setEntry u none) := by
  have hqueued := b.queued_clear u
  have hentries : ∀ u' e, (b.setEntry u none).entries u' = some e → u' ≠ u ∧ b.entries u' = some e := by
    intro u' e he
    unfold Board.setEntry at he
    dsimp only at he
    split at he
    · cases he
    · next hu => exact ⟨hu, he⟩
  refine ⟨fun u' k' => ?_, fun u' e he => h.permanent u' e (hentries u' e he).2, fun u' e he => ?_,
    fun u' k' hq => ?_, fun u' k' hq => ?_⟩
  · change u' ∈ b.zsets k' ↔ _
    rw [h.member, hqueued, List.mem_cons, not_or]
    by_cases hu : u' = u <;> simp [hu]
  · obtain ⟨hu, he⟩ := hentries u' e he
    rw [hqueued, if_neg hu]
    exact h.parses u' e he
  · rw [hqueued] at hq
    split at hq
    · cases hq
    · exact h.listed u' k' hq
  · rw [hqueued] at hq
    split at hq
    · cases hq
    · exact h.known u' k' hq

/-- The key of an empty set may be dropped. -/
theorem Waiting.unlist (h : Waiting hand b) (hempty : (b.zsets k).zcard = 0)
    (hhand : ∀ u ∈ hand, b.queued u ≠ some k) : Waiting hand (b.unlist k) := by
  refine ⟨h.member, h.permanent, h.parses, fun u' k' hq => ?_, h.known⟩
  change k' ∈ b.queueKeys.filter (· ≠ k)
  rw [List.mem_filter]
  refine ⟨h.listed u' k' hq, ?_⟩
  rw [decide_eq_true_eq]
  rintro rfl
  have hmem := (h.member u' k').mpr ⟨hq, fun hin => hhand u' hin hq⟩
  rw [SortedSet.mem_def, SortedSet.members, List.eq_nil_of_length_eq_zero hempty] at hmem
  cases hmem

/-- `ZPOPMIN` takes what it returns into the hand. -/
theorem Waiting.zpopmin (h : Waiting [] b) (count : Nat) :
    Waiting (((b.zsets k).lowest count).map (·.member)) (b.zpopmin k count) := by
  refine ⟨fun u' k' => ?_, h.permanent, h.parses, h.listed, h.known⟩
  change u' ∈ (b.setZset k ((b.zsets k).zpopmin count)).zsets k' ↔ b.queued u' = some k' ∧ _
  have hmem := h.member u' k'
  simp only [List.not_mem_nil, not_false_eq_true, and_true] at hmem
  rw [mem_setZset]
  split
  · next hk' =>
      subst hk'
      rw [SortedSet.mem_zpopmin, hmem]
  · next hk' =>
      rw [hmem]
      refine ⟨fun hq => ⟨hq, fun hin => hk' ?_⟩, And.left⟩
      obtain ⟨x, hx, rfl⟩ := List.mem_map.mp hin
      have hq' := (h.member x.member k).mp (SortedSet.mem_of_mem_lowest hx)
      exact Option.some.inj (hq.symm.trans hq'.1)

/-- `ZADD` puts a hand back. -/
theorem Waiting.zadd {xs : List (Ranked UserId)} (h : Waiting (xs.map (·.member)) b)
    (hq : ∀ x ∈ xs, b.queued x.member = some k) : Waiting [] (b.zadd k xs) := by
  refine ⟨fun u' k' => ?_, h.permanent, h.parses, h.listed, h.known⟩
  change u' ∈ (b.setZset k ((b.zsets k).zaddAll xs)).zsets k' ↔ b.queued u' = some k' ∧ _
  have hmem := h.member u' k'
  have hhand : u' ∈ xs.map (·.member) → b.queued u' = some k := by
    intro hin
    obtain ⟨x, hx, rfl⟩ := List.mem_map.mp hin
    exact hq x hx
  rw [mem_setZset]
  split
  · next hk' =>
      subst hk'
      rw [SortedSet.mem_zaddAll, hmem]
      simp only [List.not_mem_nil, not_false_eq_true, and_true]
      tauto
  · next hk' =>
      rw [hmem]
      refine ⟨fun hq => ⟨hq.1, by simp⟩, fun hq => ⟨hq.1, fun hin => hk' ?_⟩⟩
      exact Option.some.inj (hq.1.symm.trans (hhand hin))

end Waiting

end VerityBackend.Matchmaking
