/-
VerityBackend.Matchmaking.Fifo — a pass of the worker takes the queue in
order.

`popPair_exact` says what popping does on any board. Where every member of
the queue is `Ready`, a round of the loop takes the two lowest members off
the board and nothing else (`matchPair_ready`), so `n` rounds serve the
first `2 n` of them (`matchLoop_fifo`). The one command of a pass that can
fail is the insert of a session; the specifications suppose that every
command was answered.
-/
import VerityBackend.Matchmaking.Bans
import VerityBackend.Store.Turns

namespace VerityBackend.Matchmaking

open Async Store Queue

variable {V : Service} {o : V.Op} {i : Nat} {k : QueueKey} {b : Board} {s : Snap V.system}

/-- The command did not fail. -/
def Answered (e : Entry V.system) : Prop := ∃ a, e.res = .ok a

/-! ## Popping -/

theorem Board.setZset_self (b : Board) (k : QueueKey) : b.setZset k (b.zsets k) = b := by
  unfold Board.setZset
  congr 1
  funext k'
  split
  · next h => rw [h]
  · rfl

theorem Board.setZset_setZset (b : Board) (k : QueueKey) (z z' : SortedSet UserId) :
    (b.setZset k z).setZset k z' = b.setZset k z' := by
  unfold Board.setZset
  congr 1
  funext k'
  dsimp only
  split <;> rfl

theorem Board.zsets_setZset_self (b : Board) (k : QueueKey) (z : SortedSet UserId) :
    (b.setZset k z).zsets k = z := if_pos rfl

/-- Two members were popped, or there were fewer than two and nothing has
changed. -/
def PopsTwo (k : QueueKey) (b b' : Board) (r : Except Err (Option QueuePair)) : Prop :=
  (r = .ok none ∧ (b.zsets k).zcard < 2 ∧ b' = b) ∨
    ∃ x y rest, (b.zsets k).entries = x :: y :: rest ∧
      r = .ok (some ⟨x.member, x.score, y.member, y.score⟩) ∧ b' = b.zpopmin k 2

theorem popPair_exact (k : QueueKey) (s : Snap V.system) :
    Alone o i (popPair k) (fun r s' => Fades s.world s'.world ∧
      PopsTwo k (board s.world) (board s'.world) r) s := by
  refine alone_redis fun s₁ h₁ => ?_
  have hfades := h₁.fades.trans (fades_exec (c := .redis (.zpopmin k 2)) (fun _ _ h => h) s₁.world)
  have hboard : board (s₁.exec i (.redis (.zpopmin k 2))).world = (board s.world).zpopmin k 2 := by
    rw [← h₁.board]
    rfl
  have hanswer : ((RedisCmd.zpopmin k 2).exec s₁.world).1 = ((board s.world).zsets k).lowest 2 := by
    rw [← h₁.board]
    rfl
  rw [hanswer]
  match hentries : ((board s.world).zsets k).entries with
  | [] =>
      have hnone : (board s.world).zpopmin k 2 = board s.world := by
        have hsame : ((board s.world).zsets k).zpopmin 2 = (board s.world).zsets k :=
          SortedSet.ext (by simp [SortedSet.zpopmin, hentries])
        rw [Board.zpopmin, hsame, Board.setZset_self]
      rw [SortedSet.lowest, hentries]
      exact ⟨hfades, .inl ⟨rfl, by simp [SortedSet.zcard, hentries], hboard.trans hnone⟩⟩
  | [x] =>
      rw [SortedSet.lowest, hentries]
      -- the lone member goes back
      refine alone_redis fun s₂ h₂ => ⟨?_, .inl ⟨rfl, by simp [SortedSet.zcard, hentries], ?_⟩⟩
      · exact hfades.trans (h₂.fades.trans (fades_exec (c := .redis (.zadd k [x]))
          (fun _ _ h => h) s₂.world))
      · have hback : board (s₂.exec i (.redis (.zadd k [x]))).world =
            ((board s.world).zpopmin k 2).zadd k [x] := by
          rw [← hboard, ← h₂.board]
          rfl
        refine hback.trans ?_
        rw [Board.zadd, Board.zpopmin, Board.setZset_setZset, Board.zsets_setZset_self,
          SortedSet.zaddAll_lone hentries 1, Board.setZset_self]
  | x :: y :: rest =>
      rw [SortedSet.lowest, hentries]
      exact ⟨hfades, .inr ⟨x, y, rest, hentries, rfl, hboard⟩⟩

/-! ## A queue in good order -/

/-- Every member has a state that names the queue, and no block separates
two of them. -/
structure Ready (k : QueueKey) (b : Board) : Prop where
  queued : ∀ u ∈ b.zsets k, b.queued u = some k
  permanent : ∀ u ∈ b.zsets k, ∀ e, b.entries u = some e → e.expiresAt = none
  unblocked : ∀ u ∈ b.zsets k, ∀ v ∈ b.zsets k, u ≠ v → ∀ block ∈ b.blocks,
    block.isBetween u v = false

/-- In every state a history leads to, all of this holds but the last. -/
theorem Waiting.ready (h : Waiting [] b) (hblocks : ∀ u ∈ b.zsets k, ∀ v ∈ b.zsets k, u ≠ v →
    ∀ block ∈ b.blocks, block.isBetween u v = false) : Ready k b where
  queued u hu := ((h.member u k).mp hu).1
  permanent u _ := h.permanent u
  unblocked := hblocks

/-- The `n` lowest members of queue `k` have become participants of the
sessions `new`. -/
def Board.served (b : Board) (k : QueueKey) (n : Nat) (new : List Session) : Board :=
  { b with
    zsets := fun k' => if k' = k then (b.zsets k).zpopmin n else b.zsets k'
    entries := fun u => if u ∈ ((b.zsets k).lowest n).map (·.member) then none else b.entries u
    sessions := b.sessions ++ new }

theorem Board.served_zero (b : Board) (k : QueueKey) : b.served k 0 [] = b := by
  have hzsets : (fun k' => if k' = k then (b.zsets k).zpopmin 0 else b.zsets k') = b.zsets := by
    funext k'
    split
    · next h => rw [h, SortedSet.zpopmin_zero]
    · rfl
  unfold Board.served
  simp only [hzsets, SortedSet.lowest_zero, List.map_nil, List.not_mem_nil, if_false,
    List.append_nil]

theorem Board.served_zset (b : Board) (k : QueueKey) (n : Nat) (new : List Session) :
    (b.served k n new).zsets k = (b.zsets k).zpopmin n := if_pos rfl

theorem Board.served_served (b : Board) (k : QueueKey) (m n : Nat) (new new' : List Session) :
    (b.served k m new).served k n new' = b.served k (m + n) (new ++ new') := by
  have hzsets : ∀ k', ((b.served k m new).served k n new').zsets k' =
      (b.served k (m + n) (new ++ new')).zsets k' := by
    intro k'
    simp only [Board.served]
    split <;> simp [SortedSet.zpopmin_zpopmin]
  have hentries : ∀ u, ((b.served k m new).served k n new').entries u =
      (b.served k (m + n) (new ++ new')).entries u := by
    intro u
    have hlowest : (b.zsets k).lowest (m + n) =
        (b.zsets k).lowest m ++ ((b.zsets k).zpopmin m).lowest n := List.take_add
    simp only [Board.served, if_true, hlowest, List.map_append, List.mem_append]
    by_cases hm : u ∈ ((b.zsets k).lowest m).map (·.member)
    · simp [hm]
    · simp [hm]
  have hsessions : b.sessions ++ new ++ new' = b.sessions ++ (new ++ new') := List.append_assoc ..
  calc (b.served k m new).served k n new'
      = { b with
          zsets := ((b.served k m new).served k n new').zsets
          entries := ((b.served k m new).served k n new').entries
          sessions := b.sessions ++ new ++ new' } := rfl
    _ = b.served k (m + n) (new ++ new') := by
      rw [funext hzsets, funext hentries, hsessions]
      rfl

/-- Those who are left are still in good order. -/
theorem Ready.served (h : Ready k b) (n : Nat) (new : List Session) : Ready k (b.served k n new) := by
  have hleft : ∀ u, u ∈ (b.served k n new).zsets k →
      u ∈ b.zsets k ∧ (b.served k n new).entries u = b.entries u := by
    intro u hu
    rw [Board.served_zset, SortedSet.mem_zpopmin] at hu
    exact ⟨hu.1, if_neg hu.2⟩
  refine ⟨fun u hu => ?_, fun u hu => ?_, fun u hu v hv => ?_⟩
  · obtain ⟨hmem, hentry⟩ := hleft u hu
    rw [Board.queued, hentry]
    exact h.queued u hmem
  · obtain ⟨hmem, hentry⟩ := hleft u hu
    rw [hentry]
    exact h.permanent u hmem
  · exact h.unblocked u (hleft u hu).1 v (hleft v hv).1

/-! ## One round -/

/-- The obligation of call `i` when no other call runs and every command it
executes satisfies `P`. -/
abbrev AloneIf (P : Entry V.system → Prop) (o : V.Op) (i : Nat) {α : Type} (p : Prog α)
    (Q : Except Err α → Snap V.system → Prop) (s : Snap V.system) : Prop :=
  (Discipline.soloIf P i).Valid o i p Q s

/-- The first part does not need the condition. -/
theorem aloneIf_bind {α β : Type} {P : Entry V.system → Prop} {p : Prog α} {f : α → Prog β}
    {Q : Except Err β → Snap V.system → Prop}
    (h : Alone o i p ((Discipline.soloIf P i).Resumes o i f Q) s) : AloneIf P o i (p.bind f) Q s :=
  Discipline.valid_bind h.restrict

theorem validatePair_ready {pair : QueuePair}
    (hA : (board s.world).queued pair.userA = some k)
    (hpermA : ∀ e, (board s.world).entries pair.userA = some e → e.expiresAt = none)
    (hB : (board s.world).queued pair.userB = some k)
    (hpermB : ∀ e, (board s.world).entries pair.userB = some e → e.expiresAt = none)
    (hblocks : ∀ block ∈ (board s.world).blocks, block.isBetween pair.userA pair.userB = false) :
    Alone o i (validatePair k pair) (fun r s' => r = .ok true ∧ Still s s') s := by
  refine alone_redis fun s₁ h₁ => ?_
  have h₂ := h₁.trans (still_exec (c := .redis (.mget (.queueUser pair.userA) (.queueUser pair.userB)))
    ⟨trivial, fun _ _ h => h, fun ⟨_, h⟩ => nomatch h⟩ i s₁)
  rw [← h₁.board] at hA hpermA hB hpermB
  have hinA : inQueue k ((RedisCmd.mget (.queueUser pair.userA) (.queueUser pair.userB)).exec
      s₁.world).1.1 = true := inQueue_of_queued hpermA hA
  have hinB : inQueue k ((RedisCmd.mget (.queueUser pair.userA) (.queueUser pair.userB)).exec
      s₁.world).1.2 = true := inQueue_of_queued hpermB hB
  simp only [hinA, hinB, Bool.not_true, Bool.and_self, Bool.false_eq_true, if_false]
  refine Discipline.valid_bind (alone_prisma fun s₃ h₃ => ?_)
  have h₄ := (h₂.trans h₃).trans (still_exec
    (c := .db (.blockFindFirst pair.userA pair.userB)) ⟨trivial, fun _ _ h => h, fun ⟨_, h⟩ => nomatch h⟩ i s₃)
  have hnone : s₃.world.db.findBlockBetween pair.userA pair.userB = none := by
    rw [← (h₂.trans h₃).board] at hblocks
    exact List.find?_eq_none.mpr fun block hblock => by simp [hblocks block hblock]
  change Alone o i (if ((s₃.world.db.findBlockBetween pair.userA pair.userB).map (·.id)).isSome
    then _ else _) _ _
  rw [hnone]
  exact ⟨rfl, h₄⟩

/-- The session of a pair. -/
def IsSessionOf (k : QueueKey) (pair : QueuePair) (x : Session) : Prop :=
  x.userAId = pair.userA ∧ x.userBId = pair.userB ∧ x.queueKey = some k

theorem createSession_answered (pair : QueuePair) :
    AloneIf Answered o i (createSession pair.userA pair.userB k) (fun r s' => ∃ x, r = .ok x ∧
      IsSessionOf k pair x ∧ board s'.world = (board s.world).addSession x ∧
      Fades s.world s'.world) s := by
  refine Discipline.soloIf_await fun es hanswered => ?_
  have h₁ := still_elapse s es
  set s₁ := s.elapse es
  have hexist : (s₁.world.db.users pair.userA).isSome ∧ (s₁.world.db.users pair.userB).isSome := by
    obtain ⟨a, ha⟩ := hanswered
    have hexec : ((DbCmd.sessionCreate pair.userA pair.userB (some (cityOf k)) (some k)).exec
      s₁.world).1 = .ok a := ha
    rw [← Bool.and_eq_true_iff]
    by_contra hmissing
    simp only [DbCmd.exec, Db.hasUser, hmissing] at hexec
    cases hexec
  obtain ⟨x, hA, hB, hqueue, hanswer, hboard⟩ := sessionCreate_exec (w := s₁.world)
    (some (cityOf k)) (some k) hexist.1 hexist.2
  have hresume : (Discipline.soloIf Answered i).Resumes o i
      (fun session => (host (.emit [.sessionCreated session])).bind fun _ => pure session)
      (fun r s' => ∃ x, r = .ok x ∧ IsSessionOf k pair x ∧
        board s'.world = (board s.world).addSession x ∧ Fades s.world s'.world) (.ok x)
      (s₁.exec i (.db (.sessionCreate pair.userA pair.userB (some (cityOf k)) (some k)))) := by
    refine Discipline.Valid.restrict (alone_emit fun _ s₂ h₂ => ⟨x, rfl, ⟨hA, hB, hqueue⟩, ?_, ?_⟩)
    · rw [h₂.board, ← h₁.board]
      exact hboard
    · exact h₁.fades.trans ((fades_db _ s₁.world).trans h₂.fades)
  rw [← hanswer] at hresume
  exact hresume

/-- The pair becomes the participants of a session and waits no longer. -/
theorem matchLocked_answered (pair : QueuePair) :
    AloneIf Answered o i (matchLocked k pair) (fun r s' => r = .ok () ∧ Fades s.world s'.world ∧
      ∃ x, IsSessionOf k pair x ∧ board s'.world =
        (((board s.world).addSession x).setEntry pair.userA none).setEntry pair.userB none) s := by
  refine aloneIf_bind ((alone_calm (Proc.conforms_await calm_now) s).weaken ?_)
  rintro r s₁ ⟨⟨now, rfl⟩, h₁⟩
  refine Discipline.valid_bind ((createSession_answered pair).weaken ?_)
  rintro r s₂ ⟨x, rfl, hsession, hboard₂, hfades₂⟩
  refine aloneIf_bind (Discipline.solo_last fun es => ?_)
  have h₃ := still_elapse s₂ es
  have hfades₃ : Fades (s₂.elapse es).world ((s₂.elapse es).exec i
      (.redis (.multiMarkMatched pair.userA pair.userB x.id MATCHED_TTL_MS))).world := by
    refine fades_exec ?_ _
    rintro key hkey (rfl | rfl) <;> exact hkey
  refine Discipline.Valid.restrict ((alone_calm (Proc.conforms_await (calm_emit _)) _).weaken ?_)
  rintro r s₄ ⟨⟨a, rfl⟩, h₄⟩
  refine ⟨rfl, h₁.fades.trans (hfades₂.trans (h₃.fades.trans (hfades₃.trans h₄.fades))), x, hsession, ?_⟩
  rw [h₄.board, ← h₁.board, ← hboard₂, ← h₃.board]
  exact board_multiMarkMatched (s₂.elapse es).world pair.userA pair.userB x.id MATCHED_TTL_MS

theorem Board.served_two {x y : Ranked UserId} {rest : List (Ranked UserId)}
    (hentries : (b.zsets k).entries = x :: y :: rest) (z : Session) :
    (((b.zpopmin k 2).addSession z).setEntry x.member none).setEntry y.member none =
      b.served k 2 [z] := by
  have hcleared : ∀ u,
      ((((b.zpopmin k 2).addSession z).setEntry x.member none).setEntry y.member none).entries u =
        (b.served k 2 [z]).entries u := by
    intro u
    have hlowest : ((b.zsets k).lowest 2).map (·.member) = [x.member, y.member] := by
      rw [SortedSet.lowest, hentries]
      rfl
    simp only [Board.setEntry, Board.addSession, Board.zpopmin, Board.setZset, Board.served, hlowest]
    by_cases hx : u = x.member
    · simp [hx]
    · simp [hx]
  calc (((b.zpopmin k 2).addSession z).setEntry x.member none).setEntry y.member none
      = { b.served k 2 [z] with entries := ((((b.zpopmin k 2).addSession z).setEntry x.member
          none).setEntry y.member none).entries } := rfl
    _ = b.served k 2 [z] := by rw [funext hcleared]

theorem matchPair_ready {x y : Ranked UserId} {rest : List (Ranked UserId)} (h : Ready k b)
    (hentries : (b.zsets k).entries = x :: y :: rest) (hboard : board s.world = b.zpopmin k 2)
    (hun : Unlocked s.world) :
    AloneIf Answered o i (matchPair k ⟨x.member, x.score, y.member, y.score⟩)
      (fun r s' => r = .ok () ∧ Unlocked s'.world ∧ ∃ z,
        IsSessionOf k ⟨x.member, x.score, y.member, y.score⟩ z ∧
          board s'.world = b.served k 2 [z]) s := by
  have hx : x.member ∈ b.zsets k := by simp [SortedSet.mem_def, SortedSet.members, hentries]
  have hy : y.member ∈ b.zsets k := by simp [SortedSet.mem_def, SortedSet.members, hentries]
  have hne : x.member ≠ y.member := (SortedSet.not_mem_zpopmin_two hentries).2.2
  have hqueued : ∀ u ∈ b.zsets k, (board s.world).queued u = some k := by
    rw [hboard]
    exact h.queued
  have hpermanent : ∀ u ∈ b.zsets k, ∀ e, (board s.world).entries u = some e → e.expiresAt = none := by
    rw [hboard]
    exact h.permanent
  have hblocks : ∀ block ∈ (board s.world).blocks, block.isBetween x.member y.member = false := by
    rw [hboard]
    exact h.unblocked _ hx _ hy hne
  refine aloneIf_bind ((validatePair_ready (hqueued _ hx) (hpermanent _ hx) (hqueued _ hy)
    (hpermanent _ hy) hblocks).weaken ?_)
  rintro r s₁ ⟨rfl, h₁⟩
  refine aloneIf_bind ((lockUsers_spec hne (hun.fades h₁.fades)).weaken ?_)
  rintro r s₂ ⟨locks, rfl, h₂, hl⟩
  refine Discipline.valid_tryFinally ((matchLocked_answered _).weaken ?_)
  rintro r s₃ ⟨rfl, hfades, z, hz, hboard₃⟩
  refine ((alone_releaseUserLocks (hl.fades hfades)).restrict).weaken ?_
  rintro r s₄ ⟨rfl, h₄, hun₄⟩
  refine ⟨rfl, hun₄, z, hz, ?_⟩
  rw [h₄.board, hboard₃, h₂.board, h₁.board, hboard]
  exact Board.served_two hentries z

/-! ## The loop and the pass -/

/-- The sessions of `n` rounds, the first pair first. -/
structure InOrder (k : QueueKey) (b : Board) (n : Nat) (new : List Session) : Prop where
  pairs : new.map (fun z => (z.userAId, z.userBId)) = (pairUp (b.zsets k).members).take n
  queue : ∀ z ∈ new, z.queueKey = some k

theorem matchLoop_fifo (n : Nat) (h : Ready k (board s.world)) (hun : Unlocked s.world) :
    AloneIf Answered o i (matchLoop k n) (fun r s' => r = .ok () ∧ Unlocked s'.world ∧ ∃ new,
      InOrder k (board s.world) n new ∧
        board s'.world = (board s.world).served k (2 * new.length) new) s := by
  induction n generalizing s with
  | zero => exact ⟨rfl, hun, [], ⟨by simp, by simp⟩, (Board.served_zero _ k).symm⟩
  | succ n ih =>
      refine aloneIf_bind ((popPair_exact k s).weaken ?_)
      rintro r s₁ ⟨hfades, ⟨rfl, hfew, hboard⟩ | ⟨x, y, rest, hentries, rfl, hboard⟩⟩
      · have hnone : pairUp ((board s.world).zsets k).members = [] := by
          rw [← List.length_eq_zero_iff, length_pairUp, SortedSet.members, List.length_map]
          exact Nat.div_eq_of_lt hfew
        exact ⟨rfl, hun.fades hfades, [], ⟨by simp [hnone], by simp⟩,
          hboard.trans (Board.served_zero _ k).symm⟩
      · refine Discipline.valid_bind ((matchPair_ready h hentries hboard (hun.fades hfades)).weaken ?_)
        rintro r s₂ ⟨rfl, hun₂, z, hz, hboard₂⟩
        have hready : Ready k (board s₂.world) := by
          rw [hboard₂]
          exact h.served 2 [z]
        refine (ih hready hun₂).weaken ?_
        rintro r s₃ ⟨rfl, hun₃, new, hnew, hboard₃⟩
        have hleft : ((board s₂.world).zsets k).members = rest.map (·.member) := by
          rw [hboard₂, Board.served_zset]
          simp only [SortedSet.members, SortedSet.zpopmin, hentries, List.drop_succ_cons, List.drop_zero]
        refine ⟨rfl, hun₃, z :: new, ⟨?_, fun z' hz' => ?_⟩, ?_⟩
        · have hmembers : ((board s.world).zsets k).members =
              x.member :: y.member :: rest.map (·.member) := by rw [SortedSet.members, hentries]; rfl
          rw [hmembers, pairUp, List.take_succ_cons, ← hleft, ← hnew.pairs, List.map_cons, hz.1, hz.2.1]
        · rcases List.mem_cons.mp hz' with rfl | hz'
          · exact hz.2.2
          · exact hnew.queue z' hz'
        · rw [hboard₃, hboard₂, Board.served_served, List.length_cons, Nat.mul_succ, Nat.add_comm 2,
            List.singleton_append]

theorem cleanupQueueKey_exact (k : QueueKey) (s : Snap V.system) :
    Alone o i (cleanupQueueKey k) (fun r s' => r = .ok () ∧ board s'.world =
      if ((board s.world).zsets k).zcard = 0 then (board s.world).unlist k else board s.world) s := by
  refine alone_zcard fun s₁ h₁ => ?_
  split
  · refine Discipline.solo_last fun es => ⟨rfl, ?_⟩
    rw [← (h₁.trans (still_elapse s₁ es)).board]
    exact board_srem _ k
  · exact ⟨rfl, h₁.board⟩

/-- **A pass.** It serves the lowest members of the queue, two by two, at
most twenty of them, and drops the key if nobody is left. -/
theorem processQueueKey_served (h : Ready k (board s.world)) (hun : Unlocked s.world) :
    AloneIf Answered o i (processQueueKey k) (fun r s' => r = .ok () ∧ ∃ new b',
      InOrder k (board s.world) MAX_MATCHES_PER_KEY new ∧
        b' = (board s.world).served k (2 * new.length) new ∧
          board s'.world = if (b'.zsets k).zcard = 0 then b'.unlist k else b') s := by
  refine aloneIf_bind ((alone_calm (getQueueSize_calm k) s).weaken ?_)
  rintro r s₁ ⟨⟨sizeBefore, rfl⟩, h₁⟩
  rw [← h₁.board] at h ⊢
  refine Discipline.valid_bind ((matchLoop_fifo MAX_MATCHES_PER_KEY h (hun.fades h₁.fades)).weaken ?_)
  rintro r s₂ ⟨rfl, -, new, hnew, hboard₂⟩
  refine aloneIf_bind ((cleanupQueueKey_exact k s₂).weaken ?_)
  rintro r s₃ ⟨rfl, hboard₃⟩
  refine aloneIf_bind ((alone_calm (getQueueSize_calm k) s₃).weaken ?_)
  rintro r s₄ ⟨⟨sizeAfter, rfl⟩, h₄⟩
  have hlast : (if sizeAfter ≠ sizeBefore then emitQueueStatus k else pure ()).Conforms Calm False := by
    split
    · exact emitQueueStatus_calm k
    · exact Proc.conforms_pure ()
  refine Discipline.Valid.restrict ((alone_calm hlast s₄).weaken ?_)
  rintro r s₅ ⟨⟨a, rfl⟩, h₅⟩
  refine ⟨rfl, new, _, hnew, rfl, ?_⟩
  rw [h₅.board, h₄.board, hboard₃, hboard₂]

/-- The sessions of a pass, by the places of their participants. -/
theorem InOrder.places {n : Nat} {new : List Session} (h : InOrder k b n new) :
    new.length = min n ((b.zsets k).members.length / 2) ∧ ∀ (j : Nat) (x : Session), new[j]? = some x →
      x.queueKey = some k ∧ (b.zsets k).members[2 * j]? = some x.userAId ∧
        (b.zsets k).members[2 * j + 1]? = some x.userBId := by
  have hlength : new.length = min n ((b.zsets k).members.length / 2) := by
    have hpairs := congrArg List.length h.pairs
    rwa [List.length_map, List.length_take, length_pairUp] at hpairs
  refine ⟨hlength, fun j x hx => ?_⟩
  have hj : j < new.length := (List.getElem?_eq_some_iff.mp hx).1
  have hplace : 2 * j + 1 < (b.zsets k).members.length := by omega
  have hpair : (pairUp (b.zsets k).members)[j]? = some (x.userAId, x.userBId) := by
    have hmap : (new.map fun z => (z.userAId, z.userBId))[j]? = some (x.userAId, x.userBId) := by
      rw [List.getElem?_map, hx]
      rfl
    rw [h.pairs, List.getElem?_take_of_lt (by omega)] at hmap
    exact hmap
  rw [getElem?_pairUp _ j (by omega) hplace] at hpair
  obtain ⟨hA, hB⟩ := Prod.mk.inj (Option.some.inj hpair)
  refine ⟨h.queue x (List.mem_of_getElem? hx), ?_, ?_⟩
  · rw [← hA]
    exact List.getElem?_eq_getElem (by omega)
  · rw [← hB]
    exact List.getElem?_eq_getElem hplace

instance (e : Entry V.system) : Decidable (Answered e) :=
  match h : e.res with
  | .ok a => .isTrue ⟨a, h⟩
  | .error _ => .isFalse (by rintro ⟨a, ha⟩; rw [h] at ha; cases ha)

/-- **First in, first matched.** A pass that runs alone, over a queue in good
order, without a failure: it makes `m = min 10 (n / 2)` sessions, the `j`-th
of the members ranked `2 j` and `2 j + 1`; the others keep their scores;
exactly the matched users lose their state; and the key is dropped exactly
if nobody is left. -/
theorem processQueueKey_fifo (p : Past System) (k : QueueKey) (gaps : List (List Env))
    (hready : Ready k (board p.world)) (hun : Unlocked p.world)
    (hok : p.Between Answered (p.call (.processQueueKey k) gaps).toSnap) :
    let p' := p.call (.processQueueKey k) gaps
    let members := (p.world.zset k).members
    let m := min 10 (members.length / 2)
    p'.done = ⟨.processQueueKey k, .ok (), p.world, p'.world⟩ :: p.done ∧
    (∃ new, p'.world.db.sessions = p.world.db.sessions ++ new ∧ new.length = m ∧
      ∀ (j : Nat) (x : Session), new[j]? = some x → x.queueKey = some k ∧
        members[2 * j]? = some x.userAId ∧ members[2 * j + 1]? = some x.userBId) ∧
    (p'.world.zset k).entries = (p.world.zset k).entries.drop (2 * m) ∧
    (∀ u, p'.world.stored (.queueUser u) =
      if u ∈ members.take (2 * m) then none else p.world.stored (.queueUser u)) ∧
    ∀ k', k' ∈ p'.world.redis.queueKeys ↔
      k' ∈ p.world.redis.queueKeys ∧ ¬(k' = k ∧ members.length = 2 * m) := by
  intro p' members m
  have hpass := processQueueKey_served (V := matchmaking) (o := .processQueueKey k)
    (i := p.done.length) hready hun
  obtain ⟨hr, new, b', hnew, hb', hboard⟩ := Discipline.Valid.runGapped_if hpass hok
  obtain ⟨hlength, hplaces⟩ := hnew.places
  have hm : new.length = m := hlength
  rw [hm] at hb'
  have hcard : (b'.zsets k).zcard = members.length - 2 * m := by
    rw [hb', Board.served_zset, SortedSet.zcard_zpopmin]
    simp only [members, SortedSet.zcard, SortedSet.members, List.length_map]
    rfl
  have hle : 2 * m ≤ members.length := by omega
  -- dropping the key changes nothing else
  have hsame : (board p'.world).zsets = b'.zsets ∧ (board p'.world).entries = b'.entries ∧
      (board p'.world).sessions = b'.sessions := by
    have hcases : board p'.world = if (b'.zsets k).zcard = 0 then b'.unlist k else b' := hboard
    rw [hcases]
    split <;> exact ⟨rfl, rfl, rfl⟩
  refine ⟨?_, ⟨new, ?_, hm, hplaces⟩, ?_, fun u => ?_, fun k' => ?_⟩
  · exact congrArg (fun r => ⟨Op.processQueueKey k, r, p.world, p'.world⟩ :: p.done) hr
  · exact hsame.2.2.trans (by rw [hb']; rfl)
  · have hzset : p'.world.zset k = (p.world.zset k).zpopmin (2 * m) := by
      change (board p'.world).zsets k = _
      rw [hsame.1, hb', Board.served_zset]
      rfl
    rw [hzset]
    rfl
  · have hlowest : (((board p.world).zsets k).lowest (2 * m)).map (·.member) = members.take (2 * m) :=
      List.map_take
    change (board p'.world).entries u = _
    rw [hsame.2.1, hb']
    simp only [Board.served, hlowest]
    rfl
  · have hkeys : (board p'.world).queueKeys = if (b'.zsets k).zcard = 0
        then (board p.world).queueKeys.filter (· ≠ k) else (board p.world).queueKeys := by
      have hcases : board p'.world = if (b'.zsets k).zcard = 0 then b'.unlist k else b' := hboard
      rw [hcases, hb']
      split <;> rfl
    change k' ∈ (board p'.world).queueKeys ↔ k' ∈ (board p.world).queueKeys ∧ _
    rw [hkeys, hcard]
    split
    · next hempty =>
        have hall : members.length = 2 * m := by omega
        simp [hall]
    · next hsome =>
        have hsome : members.length ≠ 2 * m := by omega
        simp [hsome]

/-- Five users have joined, a millisecond apart. -/
def fiveWait : Past System :=
  after (World.peopled ["ann", "bob", "cat", "dan", "eve"] 1)
    (["dan", "ann", "eve", "bob", "cat"].flatMap fun u =>
      [instantly (.joinQueue u anywhere), .env (.tick 1)])

theorem processQueueKey_fifo_five :
    ((fiveWait.call (.processQueueKey "canberra:p") []).world.zset "canberra:p").entries =
      (fiveWait.world.zset "canberra:p").entries.drop 4 ∧
    (fiveWait.call (.processQueueKey "canberra:p") []).world.db.sessions.map
      (fun x => (x.userAId, x.userBId)) = [("dan", "ann"), ("eve", "bob")] := by
  have hready : Ready "canberra:p" (board fiveWait.world) := by
    refine (settled_after _ _).waiting.ready fun u _ v _ _ block hblock => ?_
    have hnone : (board fiveWait.world).blocks = [] := by decide +kernel
    exact absurd (hnone ▸ hblock) List.not_mem_nil
  have htrace := Proc.runGapped_trace (S := System) fiveWait.done.length
    (processQueueKey "canberra:p") [] fiveWait.toSnap
  have hok : fiveWait.Between Answered (fiveWait.call (.processQueueKey "canberra:p") []).toSnap :=
    (Snap.Between.iff_take htrace).mpr (by decide +kernel)
  have hpass := processQueueKey_fifo fiveWait "canberra:p" [] hready (settled_after _ _).unlocked hok
  have hcount : min 10 ((fiveWait.world.zset "canberra:p").members.length / 2) = 2 := by
    decide +kernel
  have hleft := hpass.2.2.1
  rw [hcount] at hleft
  exact ⟨hleft, by decide +kernel⟩

end VerityBackend.Matchmaking
