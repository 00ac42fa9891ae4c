/-
VerityBackend.Matchmaking.Pairing — what a pass of the worker does.

Between two rounds nobody is in the worker's hand; inside a round the popped
pair is (`Waiting`). `Worked` compares any two moments of a pass: which
sessions are new, and that exactly their participants wait no longer. The
invariant makes some branches of the worker unreachable when it runs alone:
both states of a popped pair name the queue, and both locks are free.
-/
import VerityBackend.Matchmaking.Joining

namespace VerityBackend.Matchmaking

open Async Store Queue

variable {V : Service} {o : V.Op} {i : Nat}

/-! ## Two moments of a pass -/

def takesPart (u : UserId) (x : Session) : Bool := x.userAId = u || x.userBId = u

/-- A session that may be made of those who wait in queue `k`. -/
structure Pairs (k : QueueKey) (b : Board) (x : Session) : Prop where
  queue : x.queueKey = some k
  distinct : x.userAId ≠ x.userBId
  queuedA : b.queued x.userAId = some k
  queuedB : b.queued x.userBId = some k
  unblocked : ∀ block ∈ b.blocks, block.isBetween x.userAId x.userBId = false

/-- Some of those who wait in queue `k` have been paired. -/
structure Paired (k : QueueKey) (b b' : Board) : Prop where
  users : b'.users = b.users
  blocks : b'.blocks = b.blocks
  matched : ∃ new, b'.sessions = b.sessions ++ new ∧ (∀ x ∈ new, Pairs k b x) ∧
    ∀ u, b'.queued u = if new.any (takesPart u) then none else b.queued u
  apart : (b'.sessions.drop b.sessions.length).Pairwise fun x y =>
    ∀ u, takesPart u x = true → takesPart u y = false

theorem Paired.of_same {k : QueueKey} {b b' : Board} (husers : b'.users = b.users)
    (hblocks : b'.blocks = b.blocks) (hsessions : b'.sessions = b.sessions)
    (hentries : b'.entries = b.entries) : Paired k b b' where
  users := husers
  blocks := hblocks
  matched := by
    refine ⟨[], by rw [hsessions, List.append_nil], by simp, fun u => ?_⟩
    unfold Board.queued
    rw [hentries]
    rfl
  apart := by
    rw [hsessions, List.drop_length]
    exact .nil

/-- Whoever still waits has waited all the time. -/
theorem Paired.queued_of_queued {k k' : QueueKey} {b b' : Board} (h : Paired k b b') {u : UserId}
    (hq : b'.queued u = some k') : b.queued u = some k' := by
  obtain ⟨new, -, -, hqueued⟩ := h.matched
  rw [hqueued] at hq
  split at hq
  · cases hq
  · exact hq

theorem Paired.trans {k : QueueKey} {b₁ b₂ b₃ : Board} (h : Paired k b₁ b₂) (h' : Paired k b₂ b₃) :
    Paired k b₁ b₃ where
  users := h'.users.trans h.users
  blocks := h'.blocks.trans h.blocks
  matched := by
    obtain ⟨new, hsessions, hpairs, hqueued⟩ := h.matched
    obtain ⟨new', hsessions', hpairs', hqueued'⟩ := h'.matched
    refine ⟨new ++ new', by rw [hsessions', hsessions, List.append_assoc], fun x hx => ?_, fun u => ?_⟩
    · rcases List.mem_append.mp hx with hx | hx
      · exact hpairs x hx
      · have hx' := hpairs' x hx
        exact ⟨hx'.queue, hx'.distinct, h.queued_of_queued hx'.queuedA, h.queued_of_queued hx'.queuedB,
          fun block hblock => hx'.unblocked block (by rw [h.blocks]; exact hblock)⟩
    · rw [hqueued', hqueued, List.any_append]
      cases new.any (takesPart u) <;> cases new'.any (takesPart u) <;> rfl
  apart := by
    obtain ⟨new, hsessions, -, hqueued⟩ := h.matched
    obtain ⟨new', hsessions', hpairs', -⟩ := h'.matched
    have hapart := h.apart
    have hapart' := h'.apart
    rw [hsessions, List.drop_left] at hapart
    rw [hsessions', List.drop_left] at hapart'
    rw [hsessions', hsessions, List.append_assoc, List.drop_left]
    refine List.pairwise_append.mpr ⟨hapart, hapart', fun x hx y hy u hu => ?_⟩
    -- whoever has been matched waits no longer, and is not matched again
    have hout : b₂.queued u = none := by
      rw [hqueued u, if_pos (List.any_eq_true.mpr ⟨x, hx, hu⟩)]
    have hpair := hpairs' y hy
    refine Bool.eq_false_iff.mpr fun hu' => ?_
    rcases Bool.or_eq_true_iff.mp hu' with hA | hB
    · rw [← of_decide_eq_true hA, hpair.queuedA] at hout
      cases hout
    · rw [← of_decide_eq_true hB, hpair.queuedB] at hout
      cases hout

/-- The sessions created in between join two who waited in queue `k` at the
moment `base`, and no ban has come since. -/
def Creates (k : QueueKey) (base s s' : Snap V.system) : Prop :=
  s.Between (fun (e : Entry V.system) => ∀ userA userB region queueKey,
    e.cmd = .db (.sessionCreate userA userB region queueKey) →
      (board base.world).queued userA = some k ∧ (board base.world).queued userB = some k ∧
        BansFade base.world e.before) s'

theorem creates_of_plain {k : QueueKey} {base s s' : Snap V.system}
    (h : s.Between (fun e => Plain e.cmd) s') : Creates k base s s' := by
  refine h.mono fun e hplain userA userB region queueKey hcmd => ?_
  rw [hcmd] at hplain
  exact (hplain.session trivial).elim

/-- An earlier moment may be the base. -/
theorem Creates.rebase {k : QueueKey} {base base' s s' : Snap V.system} (h : Creates k base s s')
    (hq : ∀ u, (board base.world).queued u = some k → (board base'.world).queued u = some k)
    (hbans : BansFade base'.world base.world) : Creates k base' s s' := by
  refine h.mono fun e hcreates userA userB region queueKey hcmd => ?_
  obtain ⟨hA, hB, hfade⟩ := hcreates userA userB region queueKey hcmd
  exact ⟨hq userA hA, hq userB hB, hbans.trans hfade⟩

structure Worked (k : QueueKey) (s s' : Snap V.system) : Prop where
  paired : Paired k (board s.world) (board s'.world)
  bans : BansFade s.world s'.world
  debits : ∀ u, debits s' u = debits s u
  refunds : ∀ u, refunds s' u = refunds s u
  creates : Creates k s s s'

theorem Worked.trans {k : QueueKey} {s₁ s₂ s₃ : Snap V.system} (h : Worked k s₁ s₂)
    (h' : Worked k s₂ s₃) : Worked k s₁ s₃ where
  paired := h.paired.trans h'.paired
  bans := h.bans.trans h'.bans
  debits u := (h'.debits u).trans (h.debits u)
  refunds u := (h'.refunds u).trans (h.refunds u)
  creates := h.creates.trans (h'.creates.rebase (fun _ hq => h.paired.queued_of_queued hq) h.bans)

theorem Unmoved.worked {k : QueueKey} {s s' : Snap V.system} (h : Unmoved s s') : Worked k s s' where
  paired := by
    rw [h.board]
    exact .of_same rfl rfl rfl rfl
  bans := h.bans
  debits := h.debits
  refunds := h.refunds
  creates := creates_of_plain h.plain

theorem Still.worked {k : QueueKey} {s s' : Snap V.system} (h : Still s s') : Worked k s s' :=
  h.unmoved.worked

/-- A command that only changes sorted sets. -/
theorem worked_zsets {k : QueueKey} {c : RedisCmd} (s : Snap V.system)
    (hplain : Plain (.redis c)) (hguard : ∀ key, Guarded key → ¬(Cmd.redis c).writes key)
    (hboard : ∃ zsets, board (c.exec s.world).2 = { board s.world with zsets := zsets }) :
    Worked k s (s.exec i (.redis c)) := by
  obtain ⟨zsets, hzsets⟩ := hboard
  have hpaired : Paired k (board s.world) (board (s.exec i (.redis c)).world) := by
    change Paired k (board s.world) (board (c.exec s.world).2)
    rw [hzsets]
    exact .of_same rfl rfl rfl rfl
  exact ⟨hpaired, (fades_exec hguard s.world).bans, fun u => debits_exec s i _ u,
    fun u => refunds_exec s i _ u, creates_of_plain (.exec hplain)⟩

/-! ## One round -/

/-- The members of a pair are two and wait in queue `k`. -/
structure IsPair (k : QueueKey) (b : Board) (pair : QueuePair) : Prop where
  distinct : pair.userA ≠ pair.userB
  queuedA : b.queued pair.userA = some k
  queuedB : b.queued pair.userB = some k

def handOf (pair : QueuePair) : List UserId := [pair.userA, pair.userB]

/-- `ZADD` of both members. -/
theorem Waiting.putBack {k : QueueKey} {b : Board} {pair : QueuePair} (hw : Waiting (handOf pair) b)
    (hpair : IsPair k b pair) (scoreA scoreB : Nat) :
    Waiting [] (b.zadd k [⟨scoreA, pair.userA⟩, ⟨scoreB, pair.userB⟩]) := by
  refine Waiting.zadd hw fun x hx => ?_
  rcases List.mem_pair.mp hx with rfl | rfl
  · exact hpair.queuedA
  · exact hpair.queuedB

theorem putBack_spec {k : QueueKey} {pair : QueuePair} (scoreA scoreB : Nat) {s : Snap V.system}
    (hw : Waiting (handOf pair) (board s.world)) (hpair : IsPair k (board s.world) pair) :
    Alone o i (redis (.zadd k [⟨scoreA, pair.userA⟩, ⟨scoreB, pair.userB⟩]))
      (fun r s' => r = .ok () ∧ Fades s.world s'.world ∧ Worked k s s' ∧
        Waiting [] (board s'.world)) s := by
  refine Discipline.solo_last fun es => ?_
  have h₁ := still_elapse s es
  have hadd := worked_zsets (i := i) (k := k) (s.elapse es)
    (c := .zadd k [⟨scoreA, pair.userA⟩, ⟨scoreB, pair.userB⟩]) (plain_redis (by nofun) (by nofun)) (fun _ _ h => h) ⟨_, rfl⟩
  refine ⟨rfl, h₁.fades.trans (fades_exec (c := .redis (.zadd k _)) (fun _ _ h => h) _),
    h₁.worked.trans hadd, ?_⟩
  rw [← h₁.board] at hw hpair
  exact hw.putBack hpair scoreA scoreB

/-- What popping does: a pair is in hand, or nobody is. -/
def Popped (k : QueueKey) (s : Snap V.system) (r : Except Err (Option QueuePair))
    (s' : Snap V.system) : Prop :=
  Fades s.world s'.world ∧ Worked k s s' ∧
    ((r = .ok none ∧ Waiting [] (board s'.world)) ∨
      ∃ pair, r = .ok (some pair) ∧ IsPair k (board s'.world) pair ∧
        Waiting (handOf pair) (board s'.world))

theorem popPair_spec {k : QueueKey} {s : Snap V.system} (hw : Waiting [] (board s.world)) :
    Alone o i (popPair k) (Popped k s) s := by
  refine alone_redis fun s₁ h₁ => ?_
  rw [← h₁.board] at hw
  have hpop := worked_zsets (i := i) (k := k) s₁ (c := .zpopmin k 2) (plain_redis (by nofun) (by nofun)) (fun _ _ h => h) ⟨_, rfl⟩
  have hfades := h₁.fades.trans (fades_exec (c := .redis (.zpopmin k 2)) (fun _ _ h => h) s₁.world)
  have hworked := h₁.worked.trans hpop
  have hhand := hw.zpopmin (k := k) 2
  have hmember : ∀ x ∈ ((board s₁.world).zsets k).lowest 2, (board s₁.world).queued x.member = some k :=
    fun x hx => ((hw.member x.member k).mp (SortedSet.mem_of_mem_lowest hx)).1
  have hdistinct := SortedSet.lowest_nodup ((board s₁.world).zsets k) 2
  have hlength : (((board s₁.world).zsets k).lowest 2).length ≤ 2 := List.length_take_le _ _
  have hanswer : ((RedisCmd.zpopmin k 2).exec s₁.world).1 = ((board s₁.world).zsets k).lowest 2 := rfl
  rw [hanswer]
  revert hhand hmember hdistinct hlength
  generalize ((board s₁.world).zsets k).lowest 2 = popped
  intro hhand hmember hdistinct hlength
  match popped with
  | [] => exact ⟨hfades, hworked, .inl ⟨rfl, hhand⟩⟩
  | [a] =>
      -- a lone member goes back
      refine alone_redis fun s₂ h₂ => ?_
      have hadd := worked_zsets (i := i) (k := k) s₂ (c := .zadd k [a]) (plain_redis (by nofun) (by nofun)) (fun _ _ h => h) ⟨_, rfl⟩
      have hhand₂ : Waiting [a.member] (board s₂.world) := by
        rw [h₂.board]
        exact hhand
      have hq₂ : ∀ x ∈ [a], (board s₂.world).queued x.member = some k := by
        rw [h₂.board]
        exact hmember
      refine ⟨hfades.trans (h₂.fades.trans (fades_exec (c := .redis (.zadd k [a]))
        (fun _ _ h => h) s₂.world)), hworked.trans (h₂.worked.trans hadd), .inl ⟨rfl, ?_⟩⟩
      exact Waiting.zadd (show Waiting ([a].map (·.member)) _ from hhand₂) hq₂
  | [a, b] =>
      refine ⟨hfades, hworked, .inr ⟨_, rfl, ⟨?_, hmember a (.head _), hmember b (.tail _ (.head _))⟩, hhand⟩⟩
      intro hsame
      simp [show a.member = b.member from hsame] at hdistinct
  | a :: b :: c :: rest => simp at hlength

/-- A validated pair is still in hand and no block stands between its users;
any other pair has been put back. -/
def Validated (k : QueueKey) (pair : QueuePair) (s : Snap V.system) (r : Except Err Bool)
    (s' : Snap V.system) : Prop :=
  Fades s.world s'.world ∧ Worked k s s' ∧
    ((r = .ok false ∧ Waiting [] (board s'.world)) ∨
      (r = .ok true ∧ Waiting (handOf pair) (board s'.world) ∧ IsPair k (board s'.world) pair ∧
        ∀ block ∈ (board s'.world).blocks, block.isBetween pair.userA pair.userB = false))

/-- The state of a user names the queue, and does not expire. -/
theorem inQueue_of_queued {w : World} {u : UserId} {k : QueueKey}
    (hpermanent : ∀ e, (board w).entries u = some e → e.expiresAt = none)
    (hq : (board w).queued u = some k) : inQueue k (w.get (.queueUser u)) = true := by
  have hparse : (parseQueueEntryState (w.get (.queueUser u))).map (·.queueKey) = some k := by
    rw [← hq, World.get_of_permanent hpermanent]
    rfl
  cases hstate : parseQueueEntryState (w.get (.queueUser u)) with
  | none =>
      rw [hstate] at hparse
      cases hparse
  | some state =>
      rw [hstate] at hparse
      unfold Queue.inQueue
      rw [hstate]
      simpa using hparse

/-- The state of a user who waits in queue `k` names it. -/
theorem Waiting.inQueue {hand : List UserId} {w : World} (h : Waiting hand (board w)) {u : UserId}
    {k : QueueKey} (hq : (board w).queued u = some k) : inQueue k (w.get (.queueUser u)) = true :=
  inQueue_of_queued (h.permanent u) hq

theorem validatePair_spec {k : QueueKey} {pair : QueuePair} {s : Snap V.system}
    (hw : Waiting (handOf pair) (board s.world)) (hpair : IsPair k (board s.world) pair) :
    Alone o i (validatePair k pair) (Validated k pair s) s := by
  refine alone_redis fun s₁ h₁ => ?_
  have h₂ := h₁.trans (still_exec (c := .redis (.mget (.queueUser pair.userA) (.queueUser pair.userB)))
    ⟨trivial, fun _ _ h => h, fun ⟨_, h⟩ => nomatch h⟩ i s₁)
  rw [← h₁.board] at hw hpair
  -- both states name the queue
  have hA : inQueue k ((RedisCmd.mget (.queueUser pair.userA) (.queueUser pair.userB)).exec
      s₁.world).1.1 = true := hw.inQueue hpair.queuedA
  have hB : inQueue k ((RedisCmd.mget (.queueUser pair.userA) (.queueUser pair.userB)).exec
      s₁.world).1.2 = true := hw.inQueue hpair.queuedB
  simp only [hA, hB, Bool.not_true, Bool.and_self, Bool.false_eq_true, if_false]
  refine Discipline.valid_bind (alone_prisma fun s₃ h₃ => ?_)
  have h₄ := (h₂.trans h₃).trans (still_exec
    (c := .db (.blockFindFirst pair.userA pair.userB)) ⟨trivial, fun _ _ h => h, fun ⟨_, h⟩ => nomatch h⟩ i s₃)
  set s₄ := s₃.exec i (.db (.blockFindFirst pair.userA pair.userB)) with hs₄
  have hfound : s₃.world.db.findBlockBetween pair.userA pair.userB =
      (board s₄.world).blocks.find? (·.isBetween pair.userA pair.userB) := rfl
  have hb₄ : board s₄.world = board s₁.world := h₄.board.trans h₁.board.symm
  rw [← hb₄] at hw hpair
  change Alone o i (if ((s₃.world.db.findBlockBetween pair.userA pair.userB).map (·.id)).isSome
    then _ else _) _ _
  rw [hfound]
  cases hblock : (board s₄.world).blocks.find? (·.isBetween pair.userA pair.userB) with
  | some block =>
      refine Discipline.valid_bind (alone_now fun now s₅ h₅ => ?_)
      rw [← h₅.board] at hw hpair
      refine (putBack_spec (now + 5000) (now + 5000 + 1) hw hpair).weaken ?_
      rintro r s₆ ⟨rfl, hfades, hworked, hw₆⟩
      have h₀₅ := h₄.trans h₅
      exact ⟨h₀₅.fades.trans hfades, h₀₅.worked.trans hworked, .inl ⟨rfl, hw₆⟩⟩
  | none =>
      refine ⟨h₄.fades, h₄.worked, .inr ⟨rfl, hw, hpair, fun b hb => ?_⟩⟩
      simpa using List.find?_eq_none.mp hblock b hb

/-! ## A session is made -/

theorem sessionCreate_exec {w : World} {userA userB : UserId} (region : Option String)
    (queueKey : Option QueueKey) (hA : (w.db.users userA).isSome) (hB : (w.db.users userB).isSome) :
    ∃ x : Session, x.userAId = userA ∧ x.userBId = userB ∧ x.queueKey = queueKey ∧
      ((DbCmd.sessionCreate userA userB region queueKey).exec w).1 = .ok x ∧
      board ((DbCmd.sessionCreate userA userB region queueKey).exec w).2 = (board w).addSession x := by
  refine ⟨⟨freshId w.nextId, userA, userB, region, queueKey, w.clock⟩, rfl, rfl, rfl, ?_, ?_⟩
  · simp only [DbCmd.exec, Db.hasUser, hA, hB, Bool.and_self, if_true]
    rfl
  · simp only [DbCmd.exec, Db.hasUser, hA, hB, Bool.and_self, if_true]
    rfl

/-- Both members of a pair have become participants. -/
theorem paired_of_match {k : QueueKey} {b : Board} {pair : QueuePair} {x : Session}
    (hpair : IsPair k b pair) (hA : x.userAId = pair.userA) (hB : x.userBId = pair.userB)
    (hqueue : x.queueKey = some k)
    (hunblocked : ∀ block ∈ b.blocks, block.isBetween pair.userA pair.userB = false) :
    Paired k b (((b.addSession x).setEntry pair.userA none).setEntry pair.userB none) where
  users := rfl
  blocks := rfl
  matched := by
    refine ⟨[x], rfl, fun y hy => ?_, fun u => ?_⟩
    · rw [List.mem_singleton.mp hy]
      refine ⟨hqueue, ?_, ?_, ?_, ?_⟩
      · rw [hA, hB]
        exact hpair.distinct
      · rw [hA]
        exact hpair.queuedA
      · rw [hB]
        exact hpair.queuedB
      · rw [hA, hB]
        exact hunblocked
    · rw [Board.queued_clear, Board.queued_clear]
      change _ = if ([x].any (takesPart u)) then none else (b.addSession x).queued u
      simp only [List.any_cons, List.any_nil, Bool.or_false, takesPart, hA, hB]
      by_cases huA : u = pair.userA
      · simp [huA]
      · by_cases huB : u = pair.userB
        · simp [huB]
        · simp [huA, huB, Ne.symm huA, Ne.symm huB]
  apart := by
    change ((b.sessions ++ [x]).drop b.sessions.length).Pairwise _
    rw [List.drop_left]
    exact List.pairwise_singleton _ _

/-- The row exists and its participants still have their entries. -/
structure Created (k : QueueKey) (pair : QueuePair) (x : Session) (s s' : Snap V.system) : Prop where
  userA : x.userAId = pair.userA
  userB : x.userBId = pair.userB
  queue : x.queueKey = some k
  board : board s'.world = (board s.world).addSession x
  fades : Fades s.world s'.world
  debits : ∀ u, debits s' u = debits s u
  refunds : ∀ u, refunds s' u = refunds s u
  creates : Creates k s s s'

theorem createSession_spec {k : QueueKey} {pair : QueuePair} {s : Snap V.system}
    (hw : Waiting (handOf pair) (board s.world)) (hpair : IsPair k (board s.world) pair) :
    Alone o i (createSession pair.userA pair.userB k)
      (fun r s' => ∃ x, r = .ok x ∧ Created k pair x s s') s := by
  refine alone_prisma fun s₁ h₁ => ?_
  rw [← h₁.board] at hw
  have hpair₁ := hpair
  rw [← h₁.board] at hpair₁
  obtain ⟨x, hA, hB, hqueue, hanswer, hboard⟩ := sessionCreate_exec (w := s₁.world)
    (some (cityOf k)) (some k) (hw.known _ k hpair₁.queuedA)
    (hw.known _ k hpair₁.queuedB)
  have hcreates : Creates k s s₁ (s₁.exec i
      (.db (.sessionCreate pair.userA pair.userB (some (cityOf k)) (some k)))) := by
    refine Snap.Between.exec fun userA userB region queueKey hcmd => ?_
    cases hcmd
    exact ⟨hpair.queuedA, hpair.queuedB, h₁.fades.bans⟩
  rw [hanswer]
  refine alone_emit fun _ s₂ h₂ => ⟨x, rfl, hA, hB, hqueue, ?_, ?_, fun u => ?_, fun u => ?_, ?_⟩
  · rw [h₂.board, ← h₁.board]
    exact hboard
  · exact h₁.fades.trans ((fades_db _ s₁.world).trans h₂.fades)
  · rw [h₂.unmoved.debits, debits_exec, h₁.unmoved.debits]
    rfl
  · rw [h₂.unmoved.refunds, refunds_exec, h₁.unmoved.refunds]
    rfl
  · exact (creates_of_plain h₁.unmoved.plain).trans (hcreates.trans (creates_of_plain h₂.unmoved.plain))

/-- `MULTI` takes both entries away. -/
theorem Created.marked {k : QueueKey} {pair : QueuePair} {x : Session} {s s₁ s₂ : Snap V.system}
    (h : Created k pair x s s₁) (h₂ : Still s₁ s₂) (hw : Waiting (handOf pair) (Matchmaking.board s.world))
    (hpair : IsPair k (Matchmaking.board s.world) pair)
    (hunblocked : ∀ block ∈ (Matchmaking.board s.world).blocks,
      block.isBetween pair.userA pair.userB = false) (ttl : Nat) :
    Worked k s (s₂.exec i (.redis (.multiMarkMatched pair.userA pair.userB x.id ttl))) ∧
      Waiting [] (Matchmaking.board
        (s₂.exec i (.redis (.multiMarkMatched pair.userA pair.userB x.id ttl))).world) := by
  have hboard : Matchmaking.board
      (s₂.exec i (.redis (.multiMarkMatched pair.userA pair.userB x.id ttl))).world =
        (((Matchmaking.board s.world).addSession x).setEntry pair.userA none).setEntry pair.userB none := by
    rw [← h.board, ← h₂.board]
    exact board_multiMarkMatched s₂.world pair.userA pair.userB x.id ttl
  have hfades : Fades s₂.world
      (s₂.exec i (.redis (.multiMarkMatched pair.userA pair.userB x.id ttl))).world := by
    refine fades_exec ?_ s₂.world
    rintro key hkey (rfl | rfl) <;> exact hkey
  have hbans := (h.fades.trans (h₂.fades.trans hfades)).bans
  rw [hboard]
  refine ⟨⟨?_, hbans, fun u => ?_, fun u => ?_, ?_⟩, ?_⟩
  · rw [hboard]
    exact paired_of_match hpair h.userA h.userB h.queue hunblocked
  · rw [debits_exec, h₂.unmoved.debits, h.debits]
    rfl
  · rw [refunds_exec, h₂.unmoved.refunds, h.refunds]
    rfl
  · exact h.creates.trans ((creates_of_plain h₂.unmoved.plain).trans (Snap.Between.exec nofun))
  · exact (hw.addSession x).clear.clear

theorem matchLocked_spec {k : QueueKey} {pair : QueuePair} {s : Snap V.system}
    (hw : Waiting (handOf pair) (board s.world)) (hpair : IsPair k (board s.world) pair)
    (hunblocked : ∀ block ∈ (board s.world).blocks, block.isBetween pair.userA pair.userB = false) :
    Alone o i (matchLocked k pair) (fun r s' => r = .ok () ∧ Fades s.world s'.world ∧ Worked k s s' ∧
      Waiting [] (board s'.world)) s := by
  refine alone_now fun now s₁ h₁ => Discipline.valid_bind ?_
  rw [← h₁.board] at hw hpair hunblocked
  refine (createSession_spec hw hpair).weaken ?_
  rintro r s₂ ⟨x, rfl, hcreated⟩
  refine Discipline.valid_bind (Discipline.solo_last fun es => ?_)
  have h₃ := still_elapse s₂ es
  obtain ⟨hworked, hw₄⟩ := hcreated.marked (i := i) h₃ hw hpair hunblocked MATCHED_TTL_MS
  have hfades : Fades s.world ((s₂.elapse es).exec i
      (.redis (.multiMarkMatched pair.userA pair.userB x.id MATCHED_TTL_MS))).world := by
    refine h₁.fades.trans (hcreated.fades.trans (h₃.fades.trans (fades_exec ?_ _)))
    rintro key hkey (rfl | rfl) <;> exact hkey
  refine (alone_calm (Proc.conforms_await (calm_emit _)) _).weaken ?_
  rintro r s₅ ⟨⟨a, rfl⟩, h₅⟩
  rw [← h₅.board] at hw₄
  exact ⟨rfl, hfades.trans h₅.fades, (h₁.worked.trans hworked).trans h₅.worked, hw₄⟩

/-! ## The loop -/

/-- Both locks are free. -/
theorem lockUsers_spec {userA userB : UserId} (hne : userA ≠ userB) {s : Snap V.system}
    (hun : Unlocked s.world) :
    Alone o i (lockUsers [userA, userB]) (fun r s' => ∃ locks, r = .ok (some locks) ∧
      Unmoved s s' ∧ Holds locks s'.world) s := by
  refine alone_acquire (show Holds [] s.world from holds_nil.mpr hun) (by simp) fun vA s₁ h₁ hl₁ => ?_
  refine alone_acquire hl₁ (by simpa using Ne.symm hne) fun vB s₂ h₂ hl₂ => ?_
  have hlocks : setLock userB vB [(userA, vA)] = [(userA, vA), (userB, vB)] :=
    setLock_of_not_mem (by simpa using Ne.symm hne)
  exact ⟨[(userA, vA), (userB, vB)], congrArg (fun locks => Except.ok (some locks)) hlocks,
    h₁.trans h₂, hl₂⟩

/-- Nobody is in hand and no lock is held. -/
def Rests (k : QueueKey) (s s' : Snap V.system) : Prop :=
  Worked k s s' ∧ Waiting [] (board s'.world) ∧ Unlocked s'.world

theorem Still.rests {k : QueueKey} {s s' : Snap V.system} (h : Still s s')
    (hw : Waiting [] (Matchmaking.board s.world)) (hun : Unlocked s.world) : Rests k s s' :=
  ⟨h.worked, by rw [h.board]; exact hw, hun.fades h.fades⟩

theorem matchPair_spec {k : QueueKey} {pair : QueuePair} {s : Snap V.system}
    (hw : Waiting (handOf pair) (board s.world)) (hpair : IsPair k (board s.world) pair)
    (hun : Unlocked s.world) :
    Alone o i (matchPair k pair) (fun r s' => r = .ok () ∧ Rests k s s') s := by
  refine Discipline.valid_bind ((validatePair_spec hw hpair).weaken ?_)
  rintro r s₁ ⟨hfades₁, hworked₁, ⟨rfl, hw₁⟩ | ⟨rfl, hw₁, hpair₁, hunblocked⟩⟩
  · exact ⟨rfl, hworked₁, hw₁, hun.fades hfades₁⟩
  · refine Discipline.valid_bind ((lockUsers_spec hpair₁.distinct (hun.fades hfades₁)).weaken ?_)
    rintro r s₂ ⟨locks, rfl, h₂, hl⟩
    rw [← h₂.board] at hw₁ hpair₁ hunblocked
    refine alone_tryFinally (fun s₃ hl₃ => alone_releaseUserLocks hl₃) ?_
    refine (matchLocked_spec hw₁ hpair₁ hunblocked).weaken ?_
    rintro r s₃ ⟨rfl, hfades₃, hworked₃, hw₃⟩
    refine ⟨hl.fades hfades₃, fun s₄ h₄ hun₄ => ⟨rfl, ?_, ?_, hun₄⟩⟩
    · exact hworked₁.trans (h₂.worked.trans (hworked₃.trans h₄.worked))
    · rw [h₄.board]
      exact hw₃

/-- The rounds, by induction on how many are left. -/
theorem matchLoop_spec {k : QueueKey} (n : Nat) {s : Snap V.system}
    (hw : Waiting [] (board s.world)) (hun : Unlocked s.world) :
    Alone o i (matchLoop k n) (fun r s' => r = .ok () ∧ Rests k s s') s := by
  induction n generalizing s with
  | zero => exact ⟨rfl, (Still.refl s).rests hw hun⟩
  | succ n ih =>
      refine Discipline.valid_bind ((popPair_spec hw).weaken ?_)
      rintro r s₁ ⟨hfades, hworked, ⟨rfl, hw₁⟩ | ⟨pair, rfl, hpair, hw₁⟩⟩
      · exact ⟨rfl, hworked, hw₁, hun.fades hfades⟩
      · refine Discipline.valid_bind ((matchPair_spec hw₁ hpair (hun.fades hfades)).weaken ?_)
        rintro r s₂ ⟨rfl, hworked₂, hw₂, hun₂⟩
        refine (ih hw₂ hun₂).weaken ?_
        rintro r s₃ ⟨rfl, hrests⟩
        exact ⟨rfl, (hworked.trans hworked₂).trans hrests.1, hrests.2⟩

theorem calm_status {k : QueueKey} {c : Cmd} (h : StatusCommand k c) : Calm c := by
  cases h with
  | range => exact calm_redis ⟨trivial, fun _ _ h => h, fun ⟨_, h⟩ => nomatch h⟩
  | count => exact calm_redis ⟨trivial, fun _ _ h => h, fun ⟨_, h⟩ => nomatch h⟩
  | tell userIds usersSearching => exact calm_emit _

theorem getQueueSize_calm (k : QueueKey) : (getQueueSize k).Conforms Calm False :=
  (getQueueSize_issues k).mono fun _ => calm_status

theorem emitQueueStatus_calm (k : QueueKey) : (emitQueueStatus k).Conforms Calm False :=
  (emitQueueStatus_issues k).mono fun _ => calm_status

theorem Tidied.worked {k : QueueKey} {s s' : Snap V.system} (h : Tidied s s') : Worked k s s' where
  paired := by
    obtain ⟨keys, hkeys⟩ := h.board
    rw [hkeys]
    exact .of_same rfl rfl rfl rfl
  bans := h.fades.bans
  debits := h.debits
  refunds := h.refunds
  creates := creates_of_plain h.plain

/-- **`processQueueKey`.** A pass pairs some of those who waited in the
queue, and leaves everybody else where they were. -/
theorem processQueueKey_spec {k : QueueKey} {s : Snap V.system} (hw : Waiting [] (board s.world))
    (hun : Unlocked s.world) :
    Alone o i (processQueueKey k) (fun r s' => r = .ok () ∧ Rests k s s') s := by
  refine Discipline.valid_bind ((alone_calm (getQueueSize_calm k) s).weaken ?_)
  rintro r s₁ ⟨⟨sizeBefore, rfl⟩, h₁⟩
  obtain ⟨hworked₁, hw₁, hun₁⟩ := h₁.rests (k := k) hw hun
  refine Discipline.valid_bind ((matchLoop_spec MAX_MATCHES_PER_KEY hw₁ hun₁).weaken ?_)
  rintro r s₂ ⟨rfl, hworked₂, hw₂, hun₂⟩
  refine Discipline.valid_bind ((cleanupQueueKey_spec hw₂).weaken ?_)
  rintro r s₃ ⟨rfl, h₃⟩
  refine Discipline.valid_bind ((alone_calm (getQueueSize_calm k) s₃).weaken ?_)
  rintro r s₄ ⟨⟨sizeAfter, rfl⟩, h₄⟩
  have hlast : (if sizeAfter ≠ sizeBefore then emitQueueStatus k else pure ()).Conforms Calm False := by
    split
    · exact emitQueueStatus_calm k
    · exact Proc.conforms_pure ()
  refine (alone_calm hlast s₄).weaken ?_
  rintro r s₅ ⟨⟨a, rfl⟩, h₅⟩
  have h₃₅ := h₄.trans h₅
  refine ⟨rfl, (hworked₁.trans (hworked₂.trans h₃.worked)).trans h₃₅.worked, ?_, ?_⟩
  · rw [h₃₅.board]
    exact h₃.waiting
  · exact hun₂.fades (h₃.fades.trans h₃₅.fades)

end VerityBackend.Matchmaking
