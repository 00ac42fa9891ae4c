/-
VerityBackend.Matchmaking.Histories — the queue over whole histories.

`Effect` collects what the modules before say about one call, operation by
operation; `history_induct` is the induction over histories that hands it to
every proof. `queue_represented` is the first use: the sorted sets, the
entries and the set of queue keys agree in every state a history reaches,
and every session joins two members of its queue.
-/
import VerityBackend.Matchmaking.Pairing
import VerityBackend.Matchmaking.Removal

namespace VerityBackend.Matchmaking

open Async Store Queue

abbrev System := matchmaking.system

/-- With nobody in hand, the sets are what the entries say. -/
theorem Waiting.mem_zset {w : World} (h : Waiting [] (board w)) (u : UserId) (k : QueueKey) :
    u ∈ w.zset k ↔ (board w).queued u = some k :=
  (h.member u k).trans (by simp)

/-! ## Calls -/

/-- What a call does that has returned `r`. -/
def Effect : (o : Op) → Except Err o.Ret → Snap System → Snap System → Prop
  | .joinQueue u _, r, s, s' => JoinDone u r s s' ∧
      ((∃ k position, r = .ok (.queued k position)) → ∀ ban,
        s'.world.get (.moderationBan u) = some ban → ban = .text "")
  | .leaveQueue u, r, s, s' => LeaveDone u r s s'
  | .processQueueKey k, _, s, s' => Worked k s s'
  | .createReport _ _, _, s, s' => Moderated s s'
  | .createBlock _ _, _, s, s' => Moderated s s'
  | .unblock _ _, _, s, s' => Moderated s s'
  | .resolveReport _ _, _, s, s' => Moderated s s'
  | .handleWebhook _ _ _ _, _, s, s' => Moderated s s'

/-- Between two calls everybody is where their entry says, and no lock is
held. -/
structure Settled (w : World) : Prop where
  waiting : Waiting [] (board w)
  unlocked : Unlocked w

theorem settled_flushed (w : World) : Settled (flushed w) where
  waiting := by
    refine ⟨fun u k => ?_, nofun, nofun, nofun, nofun⟩
    constructor
    · exact fun h => (SortedSet.not_mem_empty u h).elim
    · exact fun h => nomatch h.1
  unlocked _ := rfl

theorem Settled.env {w : World} (h : Settled w) (e : Env) : Settled (w.env e) where
  waiting := by rw [board_env]; exact h.waiting
  unlocked := h.unlocked.fades (fades_env w e)

theorem JoinDone.waiting {V : Service} {u : UserId} {r : Except Err QueueJoinResult} {s s' : Snap V.system}
    (h : JoinDone u r s s') (hw : Waiting [] (board s.world)) : Waiting [] (board s'.world) := by
  rcases h with ⟨hmoved, -⟩ | ⟨k, position, -, hjoined⟩
  · rw [hmoved.board]
    exact hw
  · obtain ⟨joinedAt, user, -, -, hboard⟩ := hjoined.board
    rw [hboard]
    exact (hw.setUser u _).enter hjoined.free (by simp) (by simp [Board.setUser]) hjoined.named joinedAt

theorem LeaveDone.waiting {V : Service} {u : UserId} {r : Except Err QueueLeaveResult} {s s' : Snap V.system}
    (h : LeaveDone u r s s') (hw : Waiting [] (board s.world)) : Waiting [] (board s'.world) := by
  rcases h with ⟨hmoved, -⟩ | ⟨k, m, hleft, -⟩
  · rw [hmoved.board]
    exact hw
  · exact hleft.without.waiting

theorem code_spec (o : Op) (i : Nat) {s : Snap System} (h : Settled s.world) :
    Alone (V := matchmaking) o i o.code
      (fun r s' => Settled s'.world ∧ Effect o r s s') s := by
  have hmends : ∀ {p : Prog o.Ret}, Mends (V := matchmaking) o i p →
      (∀ r s', Moderated s s' → Effect o r s s') →
      Alone (V := matchmaking) o i p (fun r s' => Settled s'.world ∧ Effect o r s s') s :=
    fun hp heffect => (hp s h.waiting).weaken fun r s' hm =>
      ⟨⟨hm.waiting, hm.unlocked h.unlocked⟩, heffect r s' hm⟩
  cases o with
  | joinQueue u input =>
      have hjoin := @joinQueue_spec matchmaking (.joinQueue u input) i u input s h.waiting h.unlocked
      refine Discipline.Valid.weaken hjoin ?_
      rintro r s' ⟨hun, hdone, hban⟩
      exact ⟨⟨hdone.waiting h.waiting, hun⟩, hdone, hban⟩
  | leaveQueue u =>
      have hleave := leaveQueue_spec (V := matchmaking) (o := .leaveQueue u) (i := i) (u := u)
        h.waiting h.unlocked
      refine Discipline.Valid.weaken hleave ?_
      rintro r s' ⟨hun, hdone⟩
      exact ⟨⟨hdone.waiting h.waiting, hun⟩, hdone⟩
  | processQueueKey k =>
      have hpass := processQueueKey_spec (V := matchmaking) (o := .processQueueKey k) (i := i) (k := k)
        h.waiting h.unlocked
      refine Discipline.Valid.weaken hpass ?_
      rintro r s' ⟨-, hworked, hw, hun⟩
      exact ⟨⟨hw, hun⟩, hworked⟩
  | createReport reporterId input => exact hmends (mends_createReport _ _) fun _ _ h => h
  | createBlock blockerId blockedId => exact hmends (mends_createBlock _ _) fun _ _ h => h
  | unblock blockerId blockedId => exact hmends (mends_of_conforms (mild_unblock _ _)) fun _ _ h => h
  | resolveReport reportId action => exact hmends (mends_resolveReport _ _) fun _ _ h => h
  | handleWebhook self sched payload delivery =>
      exact hmends (mends_handleWebhook _ _ _ _) fun _ _ h => h

/-! ## Histories -/

/-- Only these operations are called. -/
def Only (ops : Op → Bool) (h : History) : Bool :=
  h.all fun
    | .call o _ => ops o
    | .env _ => true

/-- A call that has been added to what happened before. -/
structure Called (o : Op) (r : Except Err o.Ret) (p p' : Past System) : Prop where
  done : p'.done = ⟨o, r, p.world, p'.world⟩ :: p.done
  before : Settled p.world
  after : Settled p'.world
  effect : Effect o r p.toSnap p'.toSnap
  trace : ∃ t, p'.trace = t ++ p.trace
  keeps : ∀ {P : Entry System → Prop} {I : Snap System → Prop}, p.Between P p'.toSnap →
    (∀ s es, I s → I (s.elapse es)) →
    (∀ s i c, P ⟨i, c, s.world⟩ → I s → I (s.exec i c)) → I p.toSnap → I p'.toSnap

theorem Past.called {p : Past System} (h : Settled p.world) (o : Op) (gaps : List (List Env)) :
    ∃ r, Called o r p (p.call o gaps) := by
  obtain ⟨r, hdone, hafter, heffect⟩ :=
    Past.call_spec (p := p) (o := o) (code_spec o p.done.length h) gaps
  exact ⟨r, hdone, h, hafter, heffect, Proc.runGapped_trace _ _ _ _, fun hP henv hexec hI => Past.call_keeps hP henv hexec hI⟩

/-- **Induction over a history** from an empty Redis. -/
theorem history_induct (ops : Op → Bool) {w : World} {P : Past System → Prop}
    (hinitial : P (Past.initial (flushed w)))
    (hcall : ∀ o r p p', ops o = true → Called o r p p' → P p → P p')
    (henv : ∀ p e, Settled p.world → P p → P { p with world := p.world.env e }) {h : History}
    (hops : Only ops h = true) : Settled (after w h).world ∧ P (after w h) := by
  suffices ∀ p : Past System, Settled p.world ∧ P p → Settled (p.run h).world ∧ P (p.run h) from
    this _ ⟨settled_flushed w, hinitial⟩
  induction h with
  | nil => exact fun p hp => hp
  | cons a h ih =>
      intro p hp
      obtain ⟨hop, hrest⟩ := Bool.and_eq_true_iff.mp hops
      refine ih hrest (p.next a) ?_
      cases a with
      | call o gaps =>
          obtain ⟨r, hcalled⟩ := Past.called hp.1 o gaps
          exact ⟨hcalled.after, hcall o r p _ hop hcalled hp.2⟩
      | env e => exact ⟨hp.1.env e, henv p e hp.1 hp.2⟩

theorem only_true (h : History) : Only (fun _ => true) h = true := by
  unfold Only
  rw [List.all_eq_true]
  intro a _
  cases a <;> rfl

theorem settled_after (w : World) (h : History) : Settled (after w h).world :=
  (history_induct (fun _ => true) (P := fun _ => True) trivial (fun _ _ _ _ _ _ _ => trivial)
    (fun _ _ _ _ => trivial) (only_true h)).1

/-! ## Representation -/

/-- A session made by a recorded pass of the worker: it joins two users who
were in its queue when the pass began, and whom no block separated. -/
structure PairedBy (r : Record System) (x : Session) : Prop where
  distinct : x.userAId ≠ x.userBId
  members : ∃ k, r.op = .processQueueKey k ∧ x.queueKey = some k ∧ x.userAId ∈ r.before.zset k ∧
    x.userBId ∈ r.before.zset k
  unblocked : ∀ block ∈ r.before.db.blocks, block.isBetween x.userAId x.userBId = false

/-- The sessions a call adds. -/
theorem Called.sessions {o : Op} {r : Except Err o.Ret} {p p' : Past System} (h : Called o r p p') :
    ∃ new, p'.world.db.sessions = p.world.db.sessions ++ new ∧
      ∀ x ∈ new, PairedBy ⟨o, r, p.world, p'.world⟩ x := by
  have hsame : p'.world.db.sessions = p.world.db.sessions →
      ∃ new, p'.world.db.sessions = p.world.db.sessions ++ new ∧
        ∀ x ∈ new, PairedBy ⟨o, r, p.world, p'.world⟩ x :=
    fun heq => ⟨[], by rw [heq, List.append_nil], fun x hx => by cases hx⟩
  have heffect := h.effect
  cases o with
  | joinQueue u input =>
      refine hsame ?_
      rcases heffect.1 with ⟨hmoved, -⟩ | ⟨k, position, -, hjoined⟩
      · exact congrArg Board.sessions hmoved.board
      · obtain ⟨joinedAt, user, -, -, hboard⟩ := hjoined.board
        exact congrArg Board.sessions hboard
  | leaveQueue u =>
      refine hsame ?_
      rcases heffect with ⟨hmoved, -⟩ | ⟨k, m, hleft, -⟩
      · exact congrArg Board.sessions hmoved.board
      · exact hleft.without.sessions
  | processQueueKey k =>
      have hworked : Worked k p.toSnap p'.toSnap := heffect
      obtain ⟨new, hsessions, hpairs, -⟩ := hworked.paired.matched
      refine ⟨new, hsessions, fun x hx => ?_⟩
      have hpair := hpairs x hx
      have hmember := h.before.waiting.mem_zset
      exact ⟨hpair.distinct, ⟨k, rfl, hpair.queue, (hmember _ k).mpr hpair.queuedA,
        (hmember _ k).mpr hpair.queuedB⟩, hpair.unblocked⟩
  | createReport reporterId input => exact hsame (Moderated.sessions heffect)
  | createBlock blockerId blockedId => exact hsame (Moderated.sessions heffect)
  | unblock blockerId blockedId => exact hsame (Moderated.sessions heffect)
  | resolveReport reportId action => exact hsame (Moderated.sessions heffect)
  | handleWebhook self sched payload delivery => exact hsame (Moderated.sessions heffect)

/-- **The queue is represented.** Whatever has been called from an empty
Redis on, and whatever time has passed: a user is in the sorted set of a
queue exactly if the entry of the user names it, the keys of queues that are
not empty are known, and every session since then joins two distinct members
of its queue whom no block separates. -/
theorem queue_represented (w : World) (h : History) :
    (∀ u k, u ∈ (after w h).world.zset k ↔ ∃ state,
      parseQueueEntryState ((after w h).world.get (.queueUser u)) = some state ∧ state.queueKey = k) ∧
    (∀ u k k', u ∈ (after w h).world.zset k → u ∈ (after w h).world.zset k' → k = k') ∧
    (∀ k, ((after w h).world.zset k).zcard ≠ 0 → k ∈ (after w h).world.redis.queueKeys) ∧
    ∃ created, (after w h).world.db.sessions = w.db.sessions ++ created ∧
      ∀ x ∈ created, ∃ r ∈ (after w h).done, PairedBy r x := by
  have hw := (settled_after w h).waiting
  have hmember := hw.mem_zset
  refine ⟨fun u k => ?_, fun u k k' hk hk' => ?_, fun k hk => ?_, ?_⟩
  · rw [hmember, ← hw.parse_entry, Option.map_eq_some_iff]
  · rw [hmember] at hk hk'
    exact Option.some.inj (hk.symm.trans hk')
  · obtain ⟨x, hx⟩ := List.exists_mem_of_length_pos (Nat.pos_of_ne_zero hk)
    exact hw.listed x.member k ((hmember x.member k).mp (List.mem_map_of_mem hx))
  · refine (history_induct (fun _ => true) (P := fun p => ∃ created,
      p.world.db.sessions = w.db.sessions ++ created ∧ ∀ x ∈ created, ∃ r ∈ p.done, PairedBy r x)
      ?_ ?_ ?_ (only_true h)).2
    · exact ⟨[], by rw [List.append_nil]; rfl, fun x hx => by cases hx⟩
    · rintro o r p p' - hcalled ⟨created, hsessions, hcreated⟩
      obtain ⟨new, hnew, hpaired⟩ := hcalled.sessions
      refine ⟨created ++ new, by rw [hnew, hsessions, List.append_assoc], fun x hx => ?_⟩
      rw [hcalled.done]
      rcases List.mem_append.mp hx with hx | hx
      · obtain ⟨r', hr', hpairedBy⟩ := hcreated x hx
        exact ⟨r', .tail _ hr', hpairedBy⟩
      · exact ⟨_, .head _, hpaired x hx⟩
    · rintro p e - ⟨created, hsessions, hcreated⟩
      cases e
      exact ⟨created, hsessions, hcreated⟩

end VerityBackend.Matchmaking
