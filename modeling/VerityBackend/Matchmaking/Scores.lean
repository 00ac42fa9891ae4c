/-
VerityBackend.Matchmaking.Scores — what the score of a queued user says.

A user joins with the time of the join as score. Every pass that takes the
user out of the set and puts it back keeps the score, but for
`deferBlockedPair`: so the score is the time of the join, or that of the last
deferral since then, five seconds ahead. `lastJoin` and `lastDeferral` read
both off the commands executed so far, the newest first.
-/
import VerityBackend.Matchmaking.Deferral

namespace VerityBackend.Matchmaking

open Async Store Queue Moderation

variable {V : Service}

/-! ## Joins and deferrals -/

/-- The join time of `u`, if the command adds `u` to queue `k`. -/
def joinOf (u : UserId) (k : QueueKey) (e : Entry V.system) : Option Nat :=
  match e.cmd with
  | .redis (.multiJoin k' u' joinedAt _) => if k' = k ∧ u' = u then some joinedAt else none
  | _ => none

/-- The last join of `u` to queue `k`: its time, and what was executed since. -/
def lastJoin (u : UserId) (k : QueueKey) :
    List (Entry V.system) → Option (Nat × List (Entry V.system))
  | [] => none
  | e :: tr =>
      match joinOf u k e with
      | some joinedAt => some (joinedAt, [])
      | none => (lastJoin u k tr).map fun join => (join.1, e :: join.2)

/-- The score `u` gets in queue `k`, if `d`, `n` and `f` are the last three
commands of a deferral of `u`: a block is found between the members of the pair, the clock
is read, and both are added five seconds ahead. -/
def deferralOf (u : UserId) (k : QueueKey) (d n f : Entry V.system) : Option Nat :=
  match d.cmd, n.cmd, f.cmd with
  | .redis (.zadd q [x, y]), .host .now, .db (.blockFindFirst userA userB) =>
      if q = k ∧ x = ⟨n.before.clock + 5000, userA⟩ ∧
          y = ⟨n.before.clock + 5000 + 1, userB⟩ ∧ (f.before.db.findBlockBetween userA userB).isSome then
        if u = userB then some y.score else if u = userA then some x.score else none
      else none
  | _, _, _ => none

/-- The score of the last deferral of `u` in queue `k`. -/
def lastDeferral (u : UserId) (k : QueueKey) : List (Entry V.system) → Option Nat
  | d :: n :: f :: tr =>
      match deferralOf u k d n f with
      | some score => some score
      | none => lastDeferral u k (n :: f :: tr)
  | _ => none

/-- The score of `u` that goes with a join to queue `k` at `joinedAt`. -/
def dueScore (u : UserId) (k : QueueKey) (joinedAt : Nat) (since : List (Entry V.system)) : Nat :=
  (lastDeferral u k since).getD joinedAt

section Reading

variable {u : UserId} {k : QueueKey} {e : Entry V.system} {tr since : List (Entry V.system)}
  {joinedAt : Nat}

theorem lastJoin_cons (he : joinOf u k e = none) (h : lastJoin u k tr = some (joinedAt, since)) :
    lastJoin u k (e :: tr) = some (joinedAt, e :: since) := by
  rw [lastJoin, he, h]
  rfl

theorem lastJoin_of_join (he : joinOf u k e = some joinedAt) :
    lastJoin u k (e :: tr) = some (joinedAt, []) := by
  rw [lastJoin, he]

/-- A command that does not defer `u`. -/
theorem lastDeferral_cons (h : ∀ n f rest, since = n :: f :: rest → deferralOf u k e n f = none) :
    lastDeferral u k (e :: since) = lastDeferral u k since := by
  match since with
  | [] => rfl
  | [_] => rfl
  | n :: f :: rest =>
      have hnone := h n f rest rfl
      rw [lastDeferral, hnone]

/-- What was executed since is the latest part of what was executed. -/
theorem lastJoin_prefix (h : lastJoin u k tr = some (joinedAt, since)) : ∃ old, tr = since ++ old := by
  induction tr generalizing since with
  | nil => cases h
  | cons e tr ih =>
      rw [lastJoin] at h
      split at h
      · cases h
        exact ⟨e :: tr, rfl⟩
      · obtain ⟨⟨joinedAt', since'⟩, hlast, heq⟩ := Option.map_eq_some_iff.mp h
        cases heq
        obtain ⟨old, rfl⟩ := ih hlast
        exact ⟨old, rfl⟩

theorem lastJoin_of_cons (he : joinOf u k e = none) (h : lastJoin u k (e :: tr) = some (joinedAt, since)) :
    ∃ since', since = e :: since' ∧ lastJoin u k tr = some (joinedAt, since') := by
  rw [lastJoin, he] at h
  obtain ⟨⟨joinedAt', since'⟩, hlast, heq⟩ := Option.map_eq_some_iff.mp h
  cases heq
  exact ⟨since', rfl, hlast⟩

/-- Only `ZADD` of two members defers anybody. -/
theorem deferralOf_of_ne {n f : Entry V.system} (h : ∀ q x y, e.cmd ≠ .redis (.zadd q [x, y])) :
    deferralOf u k e n f = none := by
  unfold deferralOf
  split
  · next q x y a b hcmd hnow hfind => exact (h q x y hcmd).elim
  · rfl

/-- Only members of the queue named are deferred. -/
theorem deferralOf_of_queue_ne {n f : Entry V.system} {q : QueueKey} {xs : List (Ranked UserId)}
    (hcmd : e.cmd = .redis (.zadd q xs)) (h : q ≠ k) : deferralOf u k e n f = none := by
  unfold deferralOf
  split
  · next q' x y a b hcmd' hnow hfind =>
      rw [hcmd] at hcmd'
      cases hcmd'
      rw [if_neg fun hpair => h hpair.1]
  · rfl

/-- Only the members added are deferred. -/
theorem deferralOf_of_not_mem {n f : Entry V.system} {q : QueueKey} {xs : List (Ranked UserId)}
    (hcmd : e.cmd = .redis (.zadd q xs)) (h : ∀ x ∈ xs, u ≠ x.member) : deferralOf u k e n f = none := by
  unfold deferralOf
  split
  · next q' x y a b hcmd' hnow hfind =>
      rw [hcmd] at hcmd'
      cases hcmd'
      split
      · next hpair =>
          obtain ⟨-, rfl, rfl, -⟩ := hpair
          have hA : u ≠ a := h _ List.mem_cons_self
          have hB : u ≠ b := h _ (List.mem_cons_of_mem _ List.mem_cons_self)
          rw [if_neg hB, if_neg hA]
      · rfl
  · rfl

/-- Nobody is deferred without a look at the clock just before. -/
theorem deferralOf_of_notNow {n f : Entry V.system} (h : n.cmd ≠ .host .now) :
    deferralOf u k e n f = none := by
  unfold deferralOf
  split
  · next q x y a b hcmd hnow hfind => exact (h hnow).elim
  · rfl

end Reading

/-! ## The invariant -/

/-- The entry has the score that goes with its last join to queue `k`. -/
def HasScore (k : QueueKey) (x : Ranked UserId) (tr : List (Entry V.system)) : Prop :=
  ∃ joinedAt since, lastJoin x.member k tr = some (joinedAt, since) ∧
    x.score = dueScore x.member k joinedAt since

/-- A reported waiting time is counted from the score, up to a look at the
clock since the join. -/
def Reported (out : Output) (older : List (Entry V.system)) : Prop :=
  ∃ (user partner : UserId) (session : Session) (k : QueueKey) (joinedAt now : Nat)
    (since : List (Entry V.system)), session.queueKey = some k ∧
      out = matchFoundEvent user partner session (waitSeconds now (dueScore user k joinedAt since)) ∧
      lastJoin user k older = some (joinedAt, since) ∧
      ∃ n ∈ since, n.cmd = .host .now ∧ n.before.clock = now

/-- Every entry is that of a join, every score that of a join or a deferral,
and so is every reported waiting time. -/
structure Scored (s : Snap V.system) : Prop where
  entries : ∀ u e, s.world.stored (.queueUser u) = some e → ∃ k joinedAt since,
    lastJoin u k s.trace = some (joinedAt, since) ∧ e = ⟨(QueueEntryState.mk k joinedAt).toJson, none⟩
  scores : ∀ k, ∀ x ∈ (s.world.zset k).entries, HasScore k x s.trace
  reports : ∀ later e older, s.trace = later ++ e :: older → ∀ os, e.cmd = .host (.emit os) →
    ∀ out ∈ os, ReportsMatch out → Reported out older

/-- The commands of every operation but the worker's. -/
structure Ordinary (c : Cmd) : Prop where
  adds : ∀ q xs, c ≠ .redis (.zadd q xs)
  entries : ∀ u, c.writes (.queueUser u) → ∃ k joinedAt,
    c = .redis (.multiJoin k u joinedAt (QueueEntryState.mk k joinedAt).toJson)
  silent : ∀ os, c = .host (.emit os) → ∀ out ∈ os, ¬ReportsMatch out

theorem Background.ordinary {c : Cmd} (h : Background c) : Ordinary c where
  adds := h.ne_zadd
  entries u hu := (h.entries u hu).elim
  silent := h.silent

section Step

variable {s : Snap V.system} {i : Nat} {c : Cmd}

/-- The command neither joins `x` to queue `k` nor defers it. -/
theorem HasScore.exec {k : QueueKey} {x : Ranked UserId} (h : HasScore k x s.trace)
    (hjoin : joinOf (V := V) x.member k ⟨i, c, s.world⟩ = none)
    (hdefer : ∀ joinedAt since, lastJoin x.member k s.trace = some (joinedAt, since) →
      ∀ n f rest, since = n :: f :: rest → deferralOf (V := V) x.member k ⟨i, c, s.world⟩ n f = none) :
    HasScore k x (s.exec i c).trace := by
  obtain ⟨joinedAt, since, hlast, hscore⟩ := h
  refine ⟨joinedAt, _, lastJoin_cons hjoin hlast, hscore.trans ?_⟩
  rw [dueScore, dueScore, lastDeferral_cons (hdefer joinedAt since hlast)]

theorem joinOf_of_ne {u : UserId} {k : QueueKey} {e : Entry V.system}
    (h : ∀ joinedAt state, e.cmd ≠ .redis (.multiJoin k u joinedAt state)) : joinOf u k e = none := by
  unfold joinOf
  split
  · next k' u' joinedAt state hcmd =>
      split
      · next heq =>
          obtain ⟨rfl, rfl⟩ := heq
          exact (h joinedAt state hcmd).elim
      · rfl
  · rfl

/-- Where an entry is not written, it stays or is deleted. -/
theorem Scored.entries_exec (h : Scored s) (hc : ∀ u, c.writes (.queueUser u) → ∃ k joinedAt,
    c = .redis (.multiJoin k u joinedAt (QueueEntryState.mk k joinedAt).toJson)) :
    ∀ u e, (s.exec i c).world.stored (.queueUser u) = some e → ∃ k joinedAt since,
      lastJoin u k (s.exec i c).trace = some (joinedAt, since) ∧
        e = ⟨(QueueEntryState.mk k joinedAt).toJson, none⟩ := by
  intro u e he
  by_cases hwrites : c.writes (.queueUser u)
  · obtain ⟨k, joinedAt, rfl⟩ := hc u hwrites
    have hstored := World.stored_set_self s.world (.queueUser u) (QueueEntryState.mk k joinedAt).toJson none
    obtain rfl := Option.some.inj (hstored.symm.trans he)
    exact ⟨k, joinedAt, [], lastJoin_of_join (by simp [joinOf]), rfl⟩
  · have hbefore : s.world.stored (.queueUser u) = some e := by
      rcases c.stored_exec_or hwrites s.world with hsame | hgone
      · exact hsame.symm.trans he
      · exact absurd (hgone.symm.trans he) nofun
    obtain ⟨k, joinedAt, since, hlast, rfl⟩ := h.entries u e hbefore
    have hjoin : joinOf (V := V) u k ⟨i, c, s.world⟩ = none := joinOf_of_ne fun joinedAt state hcmd => by
      refine hwrites ?_
      rw [show c = _ from hcmd]
      rfl
    exact ⟨k, joinedAt, _, lastJoin_cons hjoin hlast, rfl⟩

theorem Scored.reports_exec (h : Scored s) (hnew : ∀ os, c = .host (.emit os) → ∀ out ∈ os,
    ReportsMatch out → Reported out s.trace) :
    ∀ later e older, (s.exec i c).trace = later ++ e :: older → ∀ os, e.cmd = .host (.emit os) →
      ∀ out ∈ os, ReportsMatch out → Reported out older := by
  intro later e older htrace os hcmd out hout hreports
  rw [Snap.exec_trace] at htrace
  cases later with
  | nil =>
      obtain ⟨rfl, rfl⟩ := List.cons.inj htrace
      exact hnew os hcmd out hout hreports
  | cons e' later => exact h.reports later e older (List.cons.inj htrace).2 os hcmd out hout hreports

/-- Sets only grow by joins and by what the worker puts back. -/
theorem mem_zset_exec (hadds : ∀ q xs, c ≠ .redis (.zadd q xs))
    (hjoins : ∀ k u joinedAt state, c ≠ .redis (.multiJoin k u joinedAt state)) {w : World}
    {k : QueueKey} {x : Ranked UserId} (hx : x ∈ ((c.exec w).2.zset k).entries) :
    x ∈ (w.zset k).entries := by
  by_cases hmoves : c.movesQueue
  · cases c with
    | db c => exact hmoves.elim
    | host c => exact hmoves.elim
    | redis c =>
        rw [Cmd.exec_redis] at hx
        have hset : ∀ q z, (∀ y ∈ z.entries, y ∈ (w.zset q).entries) →
            x ∈ ((w.setZset q z).zset k).entries → x ∈ (w.zset k).entries := by
          intro q z hz hx
          by_cases hk : k = q
          · subst hk
            rw [show (w.setZset k z).zset k = z from if_pos rfl] at hx
            exact hz x hx
          · rwa [show (w.setZset q z).zset k = w.zset k from if_neg hk] at hx
        cases c with
        | zadd q xs => exact (hadds q xs rfl).elim
        | multiJoin q u joinedAt state => exact (hjoins q u joinedAt state rfl).elim
        | zrem q u => exact hset q _ (fun y hy => List.mem_of_mem_filter hy) hx
        | zpopmin q count => exact hset q _ (fun y hy => List.mem_of_mem_drop hy) hx
        | srem q => exact hx
        | _ => exact hmoves.elim
  · rwa [show (c.exec w).2.zset k = w.zset k from congrFun (Cmd.queues_exec hmoves w).1 k] at hx

/-- Nobody is put back. -/
theorem Scored.scores_exec (h : Scored s) (hadds : ∀ q xs, c ≠ .redis (.zadd q xs)) :
    ∀ k, ∀ x ∈ ((s.exec i c).world.zset k).entries, HasScore k x (s.exec i c).trace := by
  intro k x hx
  have hstay : x ∈ (s.world.zset k).entries →
      joinOf (V := V) x.member k ⟨i, c, s.world⟩ = none → HasScore k x (s.exec i c).trace :=
    fun hmem hjoin => (h.scores k x hmem).exec hjoin fun _ _ _ n f rest _ =>
      deferralOf_of_ne fun q y z => hadds q [y, z]
  by_cases hjoins : ∃ q u joinedAt state, c = .redis (.multiJoin q u joinedAt state)
  · obtain ⟨q, u, joinedAt, state, rfl⟩ := hjoins
    have hzset : (s.exec i (.redis (.multiJoin q u joinedAt state))).world.zset k =
        if k = q then (s.world.zset q).zadd joinedAt u else s.world.zset k := rfl
    rw [hzset] at hx
    split at hx
    · next hk =>
        subst hk
        by_cases hu : x.member = u
        · -- the one who joins
          have hself := SortedSet.eq_of_member hx (SortedSet.mem_entries_zadd_self _ joinedAt u) hu
          subst hself
          exact ⟨joinedAt, [], lastJoin_of_join (by simp [joinOf]), rfl⟩
        · refine hstay ((SortedSet.mem_entries_zadd_ne hu).mp hx) (joinOf_of_ne fun _ _ hcmd => ?_)
          cases hcmd
          exact hu rfl
    · next hk =>
        refine hstay hx (joinOf_of_ne fun _ _ hcmd => ?_)
        cases hcmd
        exact hk rfl
  · have hnot : ∀ q u joinedAt state, c ≠ .redis (.multiJoin q u joinedAt state) :=
      fun q u joinedAt state hq => hjoins ⟨q, u, joinedAt, state, hq⟩
    exact hstay (mem_zset_exec hadds hnot hx) (joinOf_of_ne fun _ _ hcmd => hnot _ _ _ _ hcmd)

theorem Scored.exec (h : Scored s) (hc : Ordinary c) : Scored (s.exec i c) where
  entries := h.entries_exec hc.entries
  scores := h.scores_exec hc.adds
  reports := h.reports_exec fun os hemit out hout hreports => (hc.silent os hemit out hout hreports).elim

/-- Members are added whose scores are right when they have been added. -/
theorem Scored.zadd (h : Scored s) {q : QueueKey} {ys : List (Ranked UserId)}
    (hys : ∀ y ∈ ys, HasScore q y (s.exec i (.redis (.zadd q ys))).trace) :
    Scored (s.exec i (.redis (.zadd q ys))) where
  entries := h.entries_exec fun _ hwrites => hwrites.elim
  reports := h.reports_exec nofun
  scores := by
    intro k x hx
    have hjoin : joinOf (V := V) x.member k ⟨i, .redis (.zadd q ys), s.world⟩ = none := rfl
    have hzset : (s.exec i (.redis (.zadd q ys))).world.zset k =
        if k = q then (s.world.zset q).zaddAll ys else s.world.zset k := rfl
    rw [hzset] at hx
    split at hx
    · next hk =>
        subst hk
        rcases SortedSet.mem_entries_zaddAll hx with hx | ⟨hx, hne⟩
        · exact hys x hx
        · exact (h.scores k x hx).exec hjoin fun _ _ _ n f rest _ => deferralOf_of_not_mem rfl hne
    · next hk =>
        exact (h.scores k x hx).exec hjoin fun _ _ _ n f rest _ =>
          deferralOf_of_queue_ne rfl (Ne.symm hk)

theorem Scored.elapse (h : Scored s) (es : List Env) : Scored (s.elapse es) where
  entries u e he := by
    have hboard := congrArg Board.entries (still_elapse s es).board
    exact h.entries u e ((congrFun hboard u).symm.trans he)
  scores k x hx := by
    rw [zset_elapse] at hx
    exact h.scores k x hx
  reports := h.reports

end Step

/-! ## Passes -/

/-- The members in hand, with the scores the set gave them; from the look at
the clock on, `t` is its answer. -/
structure Fetched (k : QueueKey) (t : Option Nat) (xs : List (Ranked UserId)) (s : Snap V.system) :
    Prop where
  distinct : (xs.map (·.member)).Nodup
  scores : ∀ x ∈ xs, HasScore k x s.trace
  clock : ∀ now, t = some now → ∀ x ∈ xs, ∀ joinedAt since,
    lastJoin x.member k s.trace = some (joinedAt, since) →
      ∃ n ∈ since, n.cmd = .host .now ∧ n.before.clock = now

section Pass

variable {k : QueueKey} {t : Option Nat} {xs : List (Ranked UserId)} {s : Snap V.system} {i : Nat}

/-- Commands that neither join anybody nor put anybody back. -/
theorem Fetched.exec (h : Fetched k t xs s) {c : Cmd} (hadds : ∀ q xs, c ≠ .redis (.zadd q xs))
    (hjoins : ∀ k u joinedAt state, c ≠ .redis (.multiJoin k u joinedAt state)) :
    Fetched k t xs (s.exec i c) where
  distinct := h.distinct
  scores x hx := (h.scores x hx).exec (joinOf_of_ne fun _ _ => hjoins _ _ _ _)
    fun _ _ _ n f rest _ => deferralOf_of_ne fun q y z => hadds q [y, z]
  clock now ht x hx joinedAt since hlast := by
    obtain ⟨since', rfl, hlast'⟩ := lastJoin_of_cons (joinOf_of_ne fun _ _ => hjoins _ _ _ _) hlast
    obtain ⟨n, hn, hnow⟩ := h.clock now ht x hx joinedAt since' hlast'
    exact ⟨n, .tail _ hn, hnow⟩

theorem Background.ne_multiJoin {c : Cmd} (h : Background c) (k : QueueKey) (u : UserId) (joinedAt : Nat)
    (state : RedisString) : c ≠ .redis (.multiJoin k u joinedAt state) := by
  rintro rfl
  exact h.entries u rfl

/-- `ZPOPMIN` hands over the scores. -/
theorem Scored.fetch (h : Scored s) (k : QueueKey) :
    Fetched k none ((s.world.zset k).lowest 2) (s.exec i (.redis (.zpopmin k 2))) where
  distinct := SortedSet.lowest_nodup _ 2
  scores x hx := (h.scores k x (List.mem_of_mem_take hx)).exec rfl
    fun _ _ _ _ _ _ _ => deferralOf_of_ne nofun
  clock := nofun

/-- The clock read now is the one the waiting times are computed with. -/
theorem Fetched.note (h : Fetched k none xs s) :
    Fetched k (some s.world.clock) xs (s.exec i (.host .now)) where
  distinct := h.distinct
  scores := (h.exec (c := .host .now) nofun nofun).scores
  clock now hnow x hx joinedAt since hlast := by
    cases hnow
    obtain ⟨since', rfl, -⟩ := lastJoin_of_cons (V := V) rfl hlast
    exact ⟨_, .head _, rfl, rfl⟩

/-- Members in hand are added with the scores they had. -/
theorem Scored.putBack (h : Scored s) (hG : Fetched k none xs s) {ys : List (Ranked UserId)}
    (hys : ∀ y ∈ ys, y ∈ xs) (hnow : ys.length = 1 ∨ NotNow s) :
    Scored (s.exec i (.redis (.zadd k ys))) := by
  refine h.zadd fun y hy => (hG.scores y (hys y hy)).exec rfl ?_
  intro joinedAt since hlast n f rest hsince
  rcases hnow with hone | hnot
  · refine deferralOf_of_ne fun q a b hcmd => ?_
    cases hcmd
    cases hone
  · obtain ⟨old, hold⟩ := lastJoin_prefix hlast
    rw [hsince] at hold
    exact deferralOf_of_notNow (hnot n _ hold)

/-- A deferral is a deferral of both. -/
theorem Scored.defer (h : Scored s) {pair : QueuePair} {now : Nat} (hG : Fetched k none (held pair) s)
    (hd : Deferring pair now s) :
    Scored (s.exec i (.redis (.zadd k [⟨now + 5000, pair.userA⟩, ⟨now + 5000 + 1, pair.userB⟩]))) := by
  have hne : pair.userA ≠ pair.userB := by
    intro heq
    have hnodup := hG.distinct
    simp [held, heq] at hnodup
  obtain ⟨n, f, rest, htrace, hnow, hclock, hfind, hblocked⟩ := hd.clock
  refine h.zadd fun y hy => ?_
  -- the last three commands of the run are those of the deferral
  have hdue : ∀ x ∈ held pair, x.member = y.member → ∃ joinedAt since,
      lastJoin y.member k s.trace = some (joinedAt, n :: f :: since) := by
    intro x hx hxy
    obtain ⟨joinedAt, since, hlast, -⟩ := hG.scores x hx
    rw [hxy, htrace] at hlast
    obtain ⟨since₁, rfl, hlast₁⟩ := lastJoin_of_cons
      (joinOf_of_ne fun _ _ hcmd => nomatch hnow.symm.trans hcmd) hlast
    obtain ⟨since₂, rfl, -⟩ := lastJoin_of_cons
      (joinOf_of_ne fun _ _ hcmd => nomatch hfind.symm.trans hcmd) hlast₁
    exact ⟨joinedAt, since₂, htrace ▸ hlast⟩
  have hscore : deferralOf (V := V) y.member k ⟨i, .redis (.zadd k
      [⟨now + 5000, pair.userA⟩, ⟨now + 5000 + 1, pair.userB⟩]), s.world⟩ n f = some y.score := by
    unfold deferralOf
    rw [hnow, hfind]
    dsimp only
    rw [hclock, if_pos ⟨rfl, rfl, rfl, hblocked⟩]
    rcases List.mem_pair.mp hy with rfl | rfl
    · rw [if_neg hne, if_pos rfl]
    · rw [if_pos rfl]
  have hfrom : ∃ x ∈ held pair, x.member = y.member := by
    rcases List.mem_pair.mp hy with rfl | rfl
    · exact ⟨_, List.mem_cons_self, rfl⟩
    · exact ⟨_, List.mem_cons_of_mem _ List.mem_cons_self, rfl⟩
  obtain ⟨x, hx, hxy⟩ := hfrom
  obtain ⟨joinedAt, since, hlast⟩ := hdue x hx hxy
  refine ⟨joinedAt, _, lastJoin_cons rfl hlast, ?_⟩
  rw [dueScore, lastDeferral, hscore]
  rfl

/-- The waiting times that are reported. -/
theorem Scored.report (h : Scored s) {pair : QueuePair} {now : Nat} {session : Session}
    {os : List Output} (hqueue : session.queueKey = some k) (hG : Fetched k (some now) (held pair) s)
    (hos : ∀ out ∈ os, ReportsMatch out →
      out = matchFoundEvent pair.userA pair.userB session (waitSeconds now pair.scoreA) ∨
      out = matchFoundEvent pair.userB pair.userA session (waitSeconds now pair.scoreB)) :
    Scored (s.exec i (.host (.emit os))) where
  entries := h.entries_exec fun _ hwrites => hwrites.elim
  scores := h.scores_exec nofun
  reports := by
    refine h.reports_exec fun os' hemit out hout hreports => ?_
    cases hemit
    have hcounted : ∀ x ∈ held pair, ∀ partner,
        out = matchFoundEvent x.member partner session (waitSeconds now x.score) → Reported out s.trace := by
      intro x hx partner heq
      obtain ⟨joinedAt, since, hlast, hscore⟩ := hG.scores x hx
      rw [hscore] at heq
      exact ⟨_, partner, session, k, joinedAt, now, since, hqueue, heq, hlast,
        hG.clock now rfl x hx joinedAt since hlast⟩
    rcases hos out hout hreports with heq | heq
    · exact hcounted _ List.mem_cons_self _ heq
    · exact hcounted _ (List.mem_cons_of_mem _ List.mem_cons_self) _ heq

/-- A pass keeps the scores. -/
theorem scored_carried (k : QueueKey) : Carried (V := V) k Scored (Fetched k) where
  elapse _ es h := h.elapse es
  heldElapse _ _ _ _ h := ⟨h.distinct, h.scores, h.clock⟩
  exec _ _ _ hc h := h.exec hc.ordinary
  heldExec _ _ _ _ _ hc h := h.exec hc.ne_zadd hc.ne_multiJoin
  pop _ _ h := ⟨h.exec ⟨nofun, fun _ hwrites => hwrites.elim, nofun⟩, h.fetch k⟩
  back _ _ _ _ h hG hys _ hnow := h.putBack hG hys hnow
  defer _ _ _ _ h hG hd := h.defer hG hd
  note _ _ _ _ hG := hG.note
  report _ _ _ _ _ _ hqueue h hG hos := h.report hqueue hG hos

end Pass

/-! ## The other operations -/

theorem ordinary_redis {c : RedisCmd} (h : ¬(Cmd.redis c).movesQueue)
    (hentries : ∀ u, ¬(Cmd.redis c).writes (.queueUser u)) : Ordinary (.redis c) :=
  (background_redis h hentries).ordinary

theorem ordinary_db (c : DbCmd) : Ordinary (.db c) := (background_db c).ordinary

theorem ordinary_now : Ordinary (.host .now) := (background_host (c := .now) nofun).ordinary

theorem ordinary_zrem (k : QueueKey) (u : UserId) : Ordinary (.redis (.zrem k u)) :=
  ⟨nofun, fun _ hwrites => hwrites.elim, nofun⟩

theorem ordinary_emit {os : List Output} (h : ∀ out ∈ os, ¬ReportsMatch out) :
    Ordinary (.host (.emit os)) := (background_emit h).ordinary

theorem ordinary_join {u : UserId} {input : QueueJoinInput} {c : Cmd}
    (h : JoinCommand u input c) : Ordinary c := by
  cases h with
  | lock h => exact (unclocked_lock h).1.ordinary
  | debit => exact ordinary_db _
  | refund => exact ordinary_db _
  | now => exact ordinary_now
  | enter k joinedAt =>
      refine ⟨nofun, fun v hv => ⟨k, joinedAt, ?_⟩, nofun⟩
      cases hv
      rfl
  | tell city k position =>
      refine ordinary_emit fun out hout => ?_
      rcases List.mem_pair.mp hout with rfl | rfl <;> simp [ReportsMatch]
  | _ => exact ordinary_redis id fun _ => id

theorem ordinary_leave {u : UserId} {c : Cmd} (h : LeaveCommand u c) : Ordinary c := by
  cases h with
  | lock h => exact (unclocked_lock h).1.ordinary
  | remove k => exact ordinary_zrem k u
  | @cleanup k _ h =>
      cases h with
      | count => exact ordinary_redis id fun _ => id
      | unlist => exact Background.ordinary ⟨.inr ⟨k, rfl⟩, fun _ => id, nofun⟩
  | tell result =>
      refine ordinary_emit fun out hout => ?_
      rw [List.mem_singleton.mp hout]
      simp [ReportsMatch, queueLeftEvent]
  | settle h =>
      cases h with
      | refund => exact ordinary_db _
      | tell status result =>
          refine ordinary_emit fun out hout => ?_
          rcases List.mem_pair.mp hout with rfl | rfl <;>
            simp [ReportsMatch, queueLeftEvent, queueCancelEvent]
  | _ => exact ordinary_redis id fun _ => id

theorem ordinary_removeFromQueueIfPresent (u : UserId) :
    (removeFromQueueIfPresent u).Conforms Ordinary True := by
  refine (Proc.conforms_await (ordinary_redis id fun _ => id)).bind fun stateRaw => ?_
  split
  · exact Proc.conforms_pure ()
  split
  · exact Proc.conforms_pure ()
  refine (Proc.Conforms.tryCatch ?_ fun _ => Proc.conforms_pure ()).tryFinally
    (Proc.conforms_await (ordinary_redis id fun _ => id))
  split
  · exact (Proc.conforms_await (ordinary_zrem _ u)).bind fun _ => Proc.conforms_pure ()
  · exact Proc.conforms_pure ()

theorem ordinary_createBlock (blockerId blockedId : UserId) :
    (createBlock blockerId blockedId).Conforms Ordinary True := by
  unfold createBlock
  split
  · exact Proc.conforms_fail _ trivial
  refine (Proc.conforms_await (ordinary_db _)).bind fun existing => ?_
  split
  · exact (Proc.conforms_await (ordinary_db _)).bind fun _ =>
      (ordinary_removeFromQueueIfPresent blockedId).bind fun _ => Proc.conforms_pure _
  split
  · exact Proc.conforms_pure _
  · exact (Proc.conforms_await (ordinary_db _)).bind fun _ =>
      (ordinary_removeFromQueueIfPresent blockedId).bind fun _ => Proc.conforms_pure _

theorem ordinary_unblock (blockerId blockedId : UserId) :
    (unblock blockerId blockedId).Conforms Ordinary True := by
  refine (Proc.conforms_await (ordinary_db _)).bind fun existing => ?_
  split
  · exact Proc.conforms_pure _
  split
  · exact Proc.conforms_pure _
  · exact (Proc.conforms_await ordinary_now).bind fun _ =>
      (Proc.conforms_await (ordinary_db _)).bind fun _ => Proc.conforms_pure _

/-! ## Histories -/

/-- Joins, leaves, passes and changes of blocks. -/
def queuesOrBlocks : Op → Bool
  | .joinQueue _ _ | .leaveQueue _ | .processQueueKey _ | .createBlock _ _ | .unblock _ _ => true
  | _ => false

/-- One call, by its operation. -/
theorem Scored.call {p : Past System} (h : Scored p.toSnap) {o : Op} (ho : queuesOrBlocks o = true)
    (gaps : List (List Env)) : Scored (p.call o gaps).toSnap := by
  have hordinary : o.code.Conforms Ordinary True → Scored (p.call o gaps).toSnap := by
    intro hcode
    have hvalid := Discipline.solo_conforms (S := System) (o := o) (i := p.done.length) hcode
      (J := Scored) (fun _ es hs => hs.elapse es) (fun _ _ hc hs => ⟨hs.exec hc, .inr trivial⟩) h
    obtain ⟨r, -, -, hafter⟩ := Past.call_spec hvalid gaps
    exact hafter
  cases o with
  | joinQueue u input => exact hordinary ((joinQueue_issues u input).mono fun _ => ordinary_join)
  | leaveQueue u => exact hordinary ((leaveQueue_issues u).mono fun _ => ordinary_leave)
  | createBlock blockerId blockedId => exact hordinary (ordinary_createBlock blockerId blockedId)
  | unblock blockerId blockedId => exact hordinary (ordinary_unblock blockerId blockedId)
  | processQueueKey k =>
      obtain ⟨r, -, hafter⟩ := Past.call_spec (p := p) (o := Op.processQueueKey k)
        ((scored_carried k).processQueueKey h) gaps
      exact hafter
  | _ => cases ho

theorem scored_after (w : World) {h : History} (hops : Only queuesOrBlocks h = true) :
    Scored (after w h).toSnap := by
  suffices ∀ p : Past System, Scored p.toSnap → Scored (p.run h).toSnap from
    this _ ⟨nofun, nofun, fun later e older htrace => by cases later <;> cases htrace⟩
  induction h with
  | nil => exact fun p hp => hp
  | cons a h ih =>
      intro p hp
      obtain ⟨hop, hrest⟩ := Bool.and_eq_true_iff.mp hops
      refine ih hrest (p.next a) ?_
      cases a with
      | call o gaps => exact hp.call hop gaps
      | env e => exact hp.elapse [e]

/-- The entry of a member names the queue and the time of the last join. -/
theorem Scored.entry_of_mem {s : Snap System} (h : Scored s) (hw : Settled s.world) {k : QueueKey}
    {x : Ranked UserId} (hx : x ∈ (s.world.zset k).entries) : ∃ joinedAt since,
      lastJoin x.member k s.trace = some (joinedAt, since) ∧
      parseQueueEntryState (s.world.get (.queueUser x.member)) = some ⟨k, joinedAt⟩ ∧
      x.score = dueScore x.member k joinedAt since := by
  have hqueued := (hw.waiting.mem_zset x.member k).mp (List.mem_map_of_mem hx)
  have hget := hw.waiting.get_entry x.member
  cases he : (board s.world).entries x.member with
  | none => exact absurd (hw.waiting.entries_eq_none.mp he) (by rw [hqueued]; nofun)
  | some e =>
      obtain ⟨k', joinedAt, since, hlast, rfl⟩ := h.entries _ e he
      have hparse : parseQueueEntryState (s.world.get (.queueUser x.member)) =
          if k' = "" then none else some ⟨k', joinedAt⟩ := by
        rw [hget, he]
        rfl
      have hkey := hw.waiting.parse_entry x.member
      rw [hparse, hqueued] at hkey
      split at hkey
      · cases hkey
      · next hk =>
          obtain rfl := Option.some.inj hkey
          obtain ⟨joinedAt', since', hlast', hscore⟩ := h.scores k' x hx
          obtain ⟨rfl, rfl⟩ := Prod.mk.inj (Option.some.inj (hlast.symm.trans hlast'))
          exact ⟨joinedAt, since, hlast, hparse.trans (if_neg hk), hscore⟩

/-- **The place of a queued user.** However users join, leave, block each
other and are passed over: the entry of a member of a queue names the queue
and the time of the last join, and the score is that time, or the last
deferral since, five seconds ahead. Every reported waiting time is counted
from that score, and of two members who were not deferred the one who joined
first stands first. -/
theorem score_of_queued (w : World) (h : History) (hops : Only queuesOrBlocks h = true) :
    (∀ k, ∀ x ∈ ((after w h).world.zset k).entries, ∃ joinedAt since,
      lastJoin x.member k (after w h).trace = some (joinedAt, since) ∧
      parseQueueEntryState ((after w h).world.get (.queueUser x.member)) = some ⟨k, joinedAt⟩ ∧
      x.score = dueScore x.member k joinedAt since) ∧
    (∀ later e older, (after w h).trace = later ++ e :: older → ∀ os, e.cmd = .host (.emit os) →
      ∀ out ∈ os, ReportsMatch out → Reported out older) ∧
    ∀ k, ∀ x ∈ ((after w h).world.zset k).entries, ∀ y ∈ ((after w h).world.zset k).entries,
      ∀ joinedAt since joinedAt' since',
        lastJoin x.member k (after w h).trace = some (joinedAt, since) →
        lastJoin y.member k (after w h).trace = some (joinedAt', since') →
        lastDeferral x.member k since = none → lastDeferral y.member k since' = none →
        joinedAt < joinedAt' → [x, y].Sublist ((after w h).world.zset k).entries := by
  have hscored := scored_after w hops
  refine ⟨fun k x hx => hscored.entry_of_mem (settled_after w h) hx, hscored.reports, ?_⟩
  intro k x hx y hy joinedAt since joinedAt' since' hlast hlast' hnone hnone' hlt
  have hundeferred : ∀ z ∈ ((after w h).world.zset k).entries, ∀ j tr,
      lastJoin z.member k (after w h).trace = some (j, tr) → lastDeferral z.member k tr = none →
        z.score = j := by
    intro z hz j tr hz' hz''
    obtain ⟨j', tr', hlast, hscore⟩ := hscored.scores k z hz
    obtain ⟨rfl, rfl⟩ := Prod.mk.inj (Option.some.inj (hz'.symm.trans hlast))
    rw [hscore, dueScore, hz'']
    rfl
  refine SortedSet.sublist_of_score_lt hx hy ?_
  rw [hundeferred x hx joinedAt since hlast hnone, hundeferred y hy joinedAt' since' hlast' hnone']
  exact hlt

/-- ann has blocked bob; both join, and a pass finds them. -/
def blockedPass : History :=
  [instantly (.createBlock "ann" "bob"), .env (.tick 1), instantly (.joinQueue "ann" anywhere),
    .env (.tick 1), instantly (.joinQueue "bob" anywhere),
    instantly (.processQueueKey "canberra:p")]

/-- A deferral moves the score away from the time of the join. -/
theorem deferral_moves_score : ¬∀ (w : World) (h : History), Only queuesOrBlocks h = true →
    ∀ k, ∀ x ∈ ((after w h).world.zset k).entries, ∀ state,
      parseQueueEntryState ((after w h).world.get (.queueUser x.member)) = some state →
        (x.score : Int) = state.joinedAt := by
  intro hall
  have hann := hall people blockedPass rfl "canberra:p" ⟨5002, "ann"⟩ (by decide +kernel)
    ⟨"canberra:p", 1⟩ (by decide +kernel)
  exact absurd hann (by decide)

theorem score_of_queued_blockedPass : ∃ joinedAt since,
    lastJoin "bob" "canberra:p" (after people blockedPass).trace = some (joinedAt, since) ∧
      5003 = dueScore "bob" "canberra:p" joinedAt since := by
  have hbob : (⟨5003, "bob"⟩ : Ranked UserId) ∈
      ((after people blockedPass).world.zset "canberra:p").entries := by decide +kernel
  obtain ⟨joinedAt, since, hlast, -, hscore⟩ :=
    (score_of_queued people blockedPass rfl).1 "canberra:p" ⟨5003, "bob"⟩ hbob
  exact ⟨joinedAt, since, hlast, hscore⟩

end VerityBackend.Matchmaking
