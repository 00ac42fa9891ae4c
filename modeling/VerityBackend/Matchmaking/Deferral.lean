/-
VerityBackend.Matchmaking.Deferral — how long a blocked pair stays deferred.

`deferBlockedPair` puts both members back with a score five seconds ahead,
and `popPair` takes the lowest members without a look at the clock. So the
delay lasts only as long as others rank before the pair. `Spared` is what
the delay is for, `Outranked` what it takes; `InSet` says that the pair has
not been popped since, and under it the two are the same thing
(`spared_iff_outranked`). A worker pass keeps it (`carried`).
-/
import VerityBackend.Matchmaking.Rounds

namespace VerityBackend.Matchmaking

open Async Store Queue

variable {V : Service} {k : QueueKey} {pair : QueuePair}

/-- `n` and `d` are the two commands of `deferBlockedPair(k, pair)`. -/
structure Defers (k : QueueKey) (pair : QueuePair) (n d : Entry V.system) : Prop where
  clock : n.cmd = .host .now
  added : d.cmd = .redis (.zadd k [⟨n.before.clock + 5000, pair.userA⟩,
    ⟨n.before.clock + 5000 + 1, pair.userB⟩])

/-- `popPair` on queue `k` before the time `due`. -/
def PopsEarly (k : QueueKey) (due : Nat) (e : Entry V.system) : Prop :=
  e.cmd = .redis (.zpopmin k 2) ∧ e.before.clock < due

/-- If the command pops a pair before its time, it is another pair. -/
def Spared (k : QueueKey) (pair : QueuePair) (due : Nat) (e : Entry V.system) : Prop :=
  PopsEarly k due e → ∀ x ∈ (e.before.zset k).lowest 2, x.member ≠ pair.userA ∧ x.member ≠ pair.userB

/-- If the command pops a pair before the time `due`, at least two members
rank before `⟨due, pair.userA⟩`. -/
def Outranked (k : QueueKey) (pair : QueuePair) (due : Nat) (e : Entry V.system) : Prop :=
  PopsEarly k due e →
    2 ≤ (e.before.zset k).entries.countP fun x => x ≠ ⟨due, pair.userA⟩ ∧ x.le ⟨due, pair.userA⟩

/-- Both members are where `deferBlockedPair` has put them. -/
structure InSet (k : QueueKey) (pair : QueuePair) (due : Nat) (w : World) : Prop where
  first : ⟨due, pair.userA⟩ ∈ (w.zset k).entries
  second : ⟨due + 1, pair.userB⟩ ∈ (w.zset k).entries

theorem InSet.popped_iff {due : Nat} {w : World} (h : InSet k pair due w) :
    (∃ x ∈ (w.zset k).lowest 2, x.member = pair.userA ∨ x.member = pair.userB) ↔
      (w.zset k).entries.countP (fun x => x ≠ ⟨due, pair.userA⟩ ∧ x.le ⟨due, pair.userA⟩) < 2 := by
  rw [← SortedSet.mem_lowest_iff h.first]
  constructor
  · rintro ⟨x, hx, hA | hB⟩
    · have hentry := SortedSet.eq_of_member (List.mem_of_mem_take hx) h.first hA
      rwa [← hentry]
    · have hentry := SortedSet.eq_of_member (List.mem_of_mem_take hx) h.second hB
      subst hentry
      -- whatever is before the first member is before the second one
      rw [SortedSet.mem_lowest_iff h.second] at hx
      rw [SortedSet.mem_lowest_iff h.first]
      refine (List.countP_mono_left fun y _ hy => ?_).trans_lt hx
      simp only [decide_eq_true_eq] at hy ⊢
      have hlt : Ranked.le ⟨due, pair.userA⟩ (⟨due + 1, pair.userB⟩ : Ranked UserId) :=
        Or.inl (Nat.lt_succ_self due)
      refine ⟨?_, Trans.trans hy.2 hlt⟩
      rintro rfl
      exact hy.1 (Ranked.le_antisymm hlt hy.2).symm
  · exact fun hA => ⟨_, hA, .inl rfl⟩

theorem spared_iff_outranked {due : Nat} {e : Entry V.system}
    (h : e.before.clock < due → InSet k pair due e.before) :
    Spared k pair due e ↔ Outranked k pair due e := by
  have hpop : e.before.clock < due →
      ((∀ x ∈ (e.before.zset k).lowest 2, x.member ≠ pair.userA ∧ x.member ≠ pair.userB) ↔
        2 ≤ (e.before.zset k).entries.countP fun x => x ≠ ⟨due, pair.userA⟩ ∧ x.le ⟨due, pair.userA⟩) := by
    intro hlt
    rw [← Nat.not_lt, ← (h hlt).popped_iff]
    simp only [not_exists, not_and, not_or]
  exact ⟨fun hs he => (hpop he.2).mp (hs he), fun ho he => (hpop he.2).mpr (ho he)⟩

theorem InSet.congr {due : Nat} {w w' : World} (h : InSet k pair due w)
    (hzset : w'.zset k = w.zset k) : InSet k pair due w' := by
  constructor
  · rw [hzset]
    exact h.first
  · rw [hzset]
    exact h.second

/-! ## What a pass keeps -/

section Watched

variable (k pair) (H : Entry V.system → Prop) (n d : Entry V.system) (old : List (Entry V.system))

/-- The time before which the pair should not be popped. -/
def dueOf (n : Entry V.system) : Nat := n.before.clock + 5000

/-- As long as every command since the deferral `n`, `d` satisfies `H`, each
of them spares the pair, and the pair is still in the set. -/
def Watched (s : Snap V.system) : Prop :=
  ∀ later, s.trace = later ++ d :: n :: old → (∀ e ∈ later, H e) →
    (∀ e ∈ later, Spared k pair (dueOf n) e ∧ Outranked k pair (dueOf n) e) ∧
      (s.world.clock < dueOf n → InSet k pair (dueOf n) s.world)

/-- The members popped off queue `q` are not those of the pair. -/
def OtherPair (q : QueueKey) (xs : List (Ranked UserId)) (s : Snap V.system) : Prop :=
  (xs.map (·.member)).Nodup ∧ (q = k → ∀ later, s.trace = later ++ d :: n :: old →
    (∀ e ∈ later, H e) → s.world.clock < dueOf n →
      ∀ x ∈ xs, x.member ≠ pair.userA ∧ x.member ≠ pair.userB)

variable {k pair H n d old} {s : Snap V.system} {i : Nat}

theorem clock_elapse (s : Snap V.system) (es : List Env) :
    s.world.clock ≤ (s.elapse es).world.clock := by
  induction es generalizing s with
  | nil => exact Nat.le_refl _
  | cons e es ih =>
      cases e with
      | tick ms => exact (Nat.le_add_right _ ms).trans (ih (s.elapse [.tick ms]))

theorem zset_elapse (s : Snap V.system) (es : List Env) (q : QueueKey) :
    (s.elapse es).world.zset q = s.world.zset q :=
  congrFun (congrArg Board.zsets (still_elapse s es).board) q

theorem Watched.elapse (h : Watched k pair H n d old s) (es : List Env) :
    Watched k pair H n d old (s.elapse es) := by
  intro later htrace hH
  obtain ⟨hlater, hset⟩ := h later htrace hH
  exact ⟨hlater, fun hlt => (hset ((clock_elapse s es).trans_lt hlt)).congr (zset_elapse s es k)⟩

theorem OtherPair.elapse {q : QueueKey} {xs : List (Ranked UserId)} (h : OtherPair k pair H n d old q xs s)
    (es : List Env) : OtherPair k pair H n d old q xs (s.elapse es) :=
  ⟨h.1, fun hq later htrace hH hlt => h.2 hq later htrace hH ((clock_elapse s es).trans_lt hlt)⟩

variable (hd : Defers k pair n d) (hH : ∀ e, H e →
  (e.before.clock < dueOf n → InSet k pair (dueOf n) e.before) →
    Spared k pair (dueOf n) e ∧ Outranked k pair (dueOf n) e)

include hd hH in
/-- **Step lemma.** The command is the deferral itself, or it comes later
and leaves the pair where it is. -/
theorem Watched.exec (h : Watched k pair H n d old s) {c : Cmd}
    (hself : c = .redis (.zadd k [⟨dueOf n, pair.userA⟩, ⟨dueOf n + 1, pair.userB⟩]) →
      InSet k pair (dueOf n) (c.exec s.world).2)
    (hafter : ∀ later, s.trace = later ++ d :: n :: old → (∀ e ∈ later, H e) →
      Spared (V := V) k pair (dueOf n) ⟨i, c, s.world⟩ → s.world.clock < dueOf n →
        InSet k pair (dueOf n) s.world → InSet k pair (dueOf n) (c.exec s.world).2) :
    Watched k pair H n d old (s.exec i c) := by
  intro later htrace hlater
  rw [Snap.exec_trace] at htrace
  cases later with
  | nil =>
      obtain ⟨rfl, -⟩ := List.cons.inj htrace
      exact ⟨(fun e he => by cases he), fun _ => hself hd.added⟩
  | cons e later =>
      obtain ⟨he, hrest⟩ := List.cons.inj htrace
      subst he
      obtain ⟨hfacts, hset⟩ := h later hrest fun e he => hlater e (List.mem_cons_of_mem _ he)
      have hnew := hH _ (hlater _ List.mem_cons_self) hset
      refine ⟨fun e he => ?_, fun hlt => ?_⟩
      · rcases List.mem_cons.mp he with rfl | he
        · exact hnew
        · exact hfacts e he
      · rw [Snap.exec_world] at hlt
        rw [show (V.system.exec c s.world).2.clock = s.world.clock from c.clock_exec s.world] at hlt
        exact hafter later hrest (fun e he => hlater e (List.mem_cons_of_mem _ he)) hnew.1 hlt
          (hset hlt)

include hd in
/-- Commands that add nobody to a set change nothing for those in hand. -/
theorem OtherPair.exec {q : QueueKey} {xs : List (Ranked UserId)} (h : OtherPair k pair H n d old q xs s)
    {c : Cmd} (hc : ∀ q xs, c ≠ .redis (.zadd q xs)) : OtherPair k pair H n d old q xs (s.exec i c) := by
  refine ⟨h.1, fun hq later htrace hlater hlt => ?_⟩
  rw [Snap.exec_trace] at htrace
  rw [Snap.exec_world, show (V.system.exec c s.world).2.clock = s.world.clock from
    c.clock_exec s.world] at hlt
  cases later with
  | nil =>
      obtain ⟨rfl, -⟩ := List.cons.inj htrace
      exact absurd hd.added (hc _ _)
  | cons e later =>
      exact h.2 hq later (List.cons.inj htrace).2 (fun e he => hlater e (List.mem_cons_of_mem _ he)) hlt

include hd hH in
/-- A command that changes no sorted set. -/
theorem Watched.same (h : Watched k pair H n d old s) {c : Cmd}
    (hc : ∀ q xs, c ≠ .redis (.zadd q xs)) (hzsets : (c.exec s.world).2.redis.zsets =
      s.world.redis.zsets) : Watched k pair H n d old (s.exec i c) :=
  h.exec hd hH (fun hself => (hc _ _ hself).elim)
    fun _ _ _ _ _ hset => hset.congr (congrFun hzsets k)

include hd hH in
theorem Watched.zpopmin (h : Watched k pair H n d old s) (q : QueueKey) :
    Watched k pair H n d old (s.exec i (.redis (.zpopmin q 2))) ∧
      OtherPair k pair H n d old q ((s.world.zset q).lowest 2) (s.exec i (.redis (.zpopmin q 2))) := by
  have hspared : q = k → s.world.clock < dueOf n →
      Spared (V := V) k pair (dueOf n) ⟨i, .redis (.zpopmin q 2), s.world⟩ →
        ∀ x ∈ (s.world.zset k).lowest 2, x.member ≠ pair.userA ∧ x.member ≠ pair.userB := by
    rintro rfl hlt hs
    exact hs ⟨rfl, hlt⟩
  have hw := h.exec (i := i) (c := .redis (.zpopmin q 2)) hd hH nofun fun _ _ _ hs hlt hset => by
    by_cases hq : q = k
    · have hpopped := hspared hq hlt hs
      subst hq
      have hleft : ((RedisCmd.zpopmin q 2).exec s.world).2.zset q = (s.world.zset q).zpopmin 2 :=
        if_pos rfl
      constructor
      · rw [Cmd.exec_redis, hleft]
        exact SortedSet.mem_entries_zpopmin hset.first fun hx => (hpopped _ hx).1 rfl
      · rw [Cmd.exec_redis, hleft]
        exact SortedSet.mem_entries_zpopmin hset.second fun hx => (hpopped _ hx).2 rfl
    · exact hset.congr (if_neg (Ne.symm hq))
  refine ⟨hw, SortedSet.lowest_nodup _ 2, fun hq later htrace hlater hlt => ?_⟩
  rw [Snap.exec_trace] at htrace
  cases later with
  | nil =>
      obtain ⟨rfl, -⟩ := List.cons.inj htrace
      cases hd.added
  | cons e later =>
      obtain ⟨he, hrest⟩ := List.cons.inj htrace
      subst he
      have hset := (h later hrest fun e he => hlater e (List.mem_cons_of_mem _ he)).2
      have hspare := (hH _ (hlater _ List.mem_cons_self) hset).1
      subst hq
      exact hspared rfl hlt hspare

include hd hH in
/-- Members in hand go back. -/
theorem Watched.zadd (h : Watched k pair H n d old s) {q : QueueKey} {xs ys : List (Ranked UserId)}
    (hapart : OtherPair k pair H n d old q xs s) (hys : ∀ y ∈ ys, ∃ x ∈ xs, y.member = x.member)
    (hdistinct : (ys.map (·.member)).Nodup) :
    Watched k pair H n d old (s.exec i (.redis (.zadd q ys))) := by
  refine h.exec hd hH (fun hself => ?_) fun later htrace hlater _ hlt hset => ?_
  · cases hself
    have hne : pair.userA ≠ pair.userB := by
      rintro heq
      simp [heq] at hdistinct
    have hadded : ((RedisCmd.zadd k [⟨dueOf n, pair.userA⟩, ⟨dueOf n + 1, pair.userB⟩]).exec
        s.world).2.zset k =
          ((s.world.zset k).zadd (dueOf n) pair.userA).zadd (dueOf n + 1) pair.userB := if_pos rfl
    constructor
    · rw [Cmd.exec_redis, hadded, SortedSet.mem_entries_zadd_ne hne]
      exact SortedSet.mem_entries_zadd_self _ _ _
    · rw [Cmd.exec_redis, hadded]
      exact SortedSet.mem_entries_zadd_self _ _ _
  · by_cases hq : q = k
    · have hnot := hapart.2 hq later htrace hlater hlt
      subst hq
      have hadded : ((RedisCmd.zadd q ys).exec s.world).2.zset q = (s.world.zset q).zaddAll ys :=
        if_pos rfl
      have hmembers : ∀ y ∈ ys, pair.userA ≠ y.member ∧ pair.userB ≠ y.member := by
        intro y hy
        obtain ⟨x, hx, hxy⟩ := hys y hy
        rw [hxy]
        exact ⟨(hnot x hx).1.symm, (hnot x hx).2.symm⟩
      constructor
      · rw [Cmd.exec_redis, hadded, SortedSet.mem_entries_zaddAll_ne fun y hy => (hmembers y hy).1]
        exact hset.first
      · rw [Cmd.exec_redis, hadded, SortedSet.mem_entries_zaddAll_ne fun y hy => (hmembers y hy).2]
        exact hset.second
    · exact hset.congr (if_neg (Ne.symm hq))

include hd hH in
/-- A pass over any queue keeps it. -/
theorem carried (q : QueueKey) : Carried q (Watched k pair H n d old)
    (fun _ => OtherPair k pair H n d old q) where
  elapse _ es h := h.elapse es
  heldElapse _ _ _ es h := h.elapse es
  exec _ c s hc h := h.same hd hH hc.ne_zadd (hc.zsets s.world)
  heldExec _ _ _ _ _ hc h := h.exec hd hc.ne_zadd
  pop _ _ h := h.zpopmin hd hH q
  back i xs ys s h hapart hys hlength _ := by
    refine h.zadd hd hH hapart (fun y hy => ⟨y, hys y hy, rfl⟩) ?_
    rcases hlength with hone | rfl
    · obtain ⟨y, rfl⟩ := List.length_eq_one_iff.mp hone
      exact List.nodup_singleton _
    · exact hapart.1
  defer i p now s h hapart _ := by
    refine h.zadd hd hH hapart (fun y hy => ?_) hapart.1
    rcases List.mem_pair.mp hy with rfl | rfl
    · exact ⟨_, List.mem_cons_self, rfl⟩
    · exact ⟨_, List.mem_cons_of_mem _ List.mem_cons_self, rfl⟩
  note _ _ _ _ h := h.exec hd nofun
  report _ _ _ _ _ _ _ h _ _ := h.same hd hH nofun rfl

end Watched

/-! ## Runs of passes -/

instance (c : Cmd) (r : RedisCmd) : Decidable (c = .redis r) :=
  match c with
  | .redis r' => decidable_of_iff (r' = r) ⟨congrArg _, Cmd.redis.inj⟩
  | .db _ => .isFalse nofun
  | .host _ => .isFalse nofun

instance (c : Cmd) (r : HostCmd) : Decidable (c = .host r) :=
  match c with
  | .host r' => decidable_of_iff (r' = r) ⟨congrArg _, Cmd.host.inj⟩
  | .db _ => .isFalse nofun
  | .redis _ => .isFalse nofun

instance (k : QueueKey) (pair : QueuePair) (n d : Entry V.system) : Decidable (Defers k pair n d) :=
  decidable_of_iff (n.cmd = Cmd.host .now ∧ d.cmd = Cmd.redis (.zadd k
    [⟨n.before.clock + 5000, pair.userA⟩, ⟨n.before.clock + 5000 + 1, pair.userB⟩]))
    ⟨fun h => ⟨h.1, h.2⟩, fun h => ⟨h.1, h.2⟩⟩

instance (k : QueueKey) (due : Nat) (e : Entry V.system) : Decidable (PopsEarly k due e) :=
  inferInstanceAs (Decidable (@Eq Cmd e.cmd (.redis (.zpopmin k 2)) ∧ e.before.clock < due))

instance (k : QueueKey) (pair : QueuePair) (due : Nat) (e : Entry V.system) :
    Decidable (Spared k pair due e) :=
  inferInstanceAs (Decidable (PopsEarly k due e → _))

instance (k : QueueKey) (pair : QueuePair) (due : Nat) (e : Entry V.system) :
    Decidable (Outranked k pair due e) :=
  inferInstanceAs (Decidable (PopsEarly k due e → _))

/-- **The claim of the delay.** Wherever a run, newest command first, defers
the pair, no later command pops one of its members early. -/
def StaysDeferred (k : QueueKey) (pair : QueuePair) (tr : List (Entry V.system)) : Prop :=
  ∀ j < tr.length, ∀ d ∈ tr[j]?, ∀ n ∈ tr[j + 1]?, Defers k pair n d →
    ∀ e ∈ tr.take j, Spared k pair (dueOf n) e

instance (k : QueueKey) (pair : QueuePair) (tr : List (Entry V.system)) :
    Decidable (StaysDeferred k pair tr) :=
  inferInstanceAs (Decidable (∀ j < tr.length, _))

/-- What the delay takes: whenever `popPair` pops early, two others rank
before the pair. -/
def StaysOutranked (k : QueueKey) (pair : QueuePair) (tr : List (Entry V.system)) : Prop :=
  ∀ j < tr.length, ∀ d ∈ tr[j]?, ∀ n ∈ tr[j + 1]?, Defers k pair n d →
    ∀ e ∈ tr.take j, Outranked k pair (dueOf n) e

instance (k : QueueKey) (pair : QueuePair) (tr : List (Entry V.system)) :
    Decidable (StaysOutranked k pair tr) :=
  inferInstanceAs (Decidable (∀ j < tr.length, _))

/-- A pass of the worker. -/
def isPass : Op → Bool
  | .processQueueKey _ => true
  | _ => false

theorem watched_run {H : Entry System → Prop} {n d : Entry System} {old : List (Entry System)}
    (hd : Defers k pair n d) (hH : ∀ e, H e →
      (e.before.clock < dueOf n → InSet k pair (dueOf n) e.before) →
        Spared k pair (dueOf n) e ∧ Outranked k pair (dueOf n) e)
    {h : History} (hpasses : Only isPass h = true) {p : Past System}
    (hp : Watched k pair H n d old p.toSnap) : Watched k pair H n d old (p.run h).toSnap := by
  induction h generalizing p with
  | nil => exact hp
  | cons a h ih =>
      obtain ⟨hpass, hrest⟩ := Bool.and_eq_true_iff.mp hpasses
      refine ih hrest ?_
      cases a with
      | env e => exact hp.elapse [e]
      | call o gaps =>
          cases o with
          | processQueueKey q =>
              obtain ⟨r, -, hafter⟩ := Past.call_spec (p := p) (o := Op.processQueueKey q)
                ((carried hd hH q).processQueueKey hp) gaps
              exact hafter
          | _ => cases hpass

/-- The commands after a deferral, one way or the other. -/
theorem later_of_deferral (w : World) {h : History} (hpasses : Only isPass h = true) {j : Nat}
    {n d : Entry System} (hdef : ((Past.initial w : Past System).run h).trace[j]? = some d)
    (hclock : ((Past.initial w : Past System).run h).trace[j + 1]? = some n)
    (hd : Defers k pair n d) {H : Entry System → Prop} (hH : ∀ e, H e →
      (e.before.clock < dueOf n → InSet k pair (dueOf n) e.before) →
        Spared k pair (dueOf n) e ∧ Outranked k pair (dueOf n) e)
    (hall : ∀ e ∈ ((Past.initial w : Past System).run h).trace.take j, H e) :
    ∀ e ∈ ((Past.initial w : Past System).run h).trace.take j,
      Spared k pair (dueOf n) e ∧ Outranked k pair (dueOf n) e := by
  set tr := ((Past.initial w : Past System).run h).trace
  have hnone : Watched k pair H n d (tr.drop (j + 2)) (Past.initial w : Past System).toSnap := by
    intro later hlater
    have hlength := congrArg List.length hlater
    simp [Past.initial] at hlength
  have hsplit : tr = tr.take j ++ d :: n :: tr.drop (j + 2) := by
    obtain ⟨hj, rfl⟩ := List.getElem?_eq_some_iff.mp hdef
    obtain ⟨hj', rfl⟩ := List.getElem?_eq_some_iff.mp hclock
    rw [List.getElem_cons_drop, List.getElem_cons_drop, List.take_append_drop]
  exact (watched_run hd hH hpasses hnone (tr.take j) hsplit hall).1

/-- **When the delay holds.** In every run of worker passes, from any world: a
deferred pair is never popped early if and only if, at every early
`popPair`, at least two other members rank before the pair. -/
theorem staysDeferred_iff (w : World) (h : History) (hpasses : Only isPass h = true)
    (k : QueueKey) (pair : QueuePair) :
    StaysDeferred k pair ((Past.initial w : Past System).run h).trace ↔
      StaysOutranked k pair ((Past.initial w : Past System).run h).trace := by
  constructor
  · intro hstays j hj d hdef n hclock hd
    have hboth := later_of_deferral w hpasses hdef hclock hd
      (fun e hs hset => ⟨hs, (spared_iff_outranked hset).mp hs⟩) (hstays j hj d hdef n hclock hd)
    exact fun e he => (hboth e he).2
  · intro houtranked j hj d hdef n hclock hd
    have hboth := later_of_deferral w hpasses hdef hclock hd
      (fun e ho hset => ⟨(spared_iff_outranked hset).mpr ho, ho⟩) (houtranked j hj d hdef n hclock hd)
    exact fun e he => (hboth e he).1

/-- ann and bob, one of whom has blocked the other, and `others` have joined,
in this order. -/
def blockedAhead (others : List UserId) : World :=
  (after (World.peopled ("ann" :: "bob" :: others) 1)
    (instantly (.createBlock "ann" "bob") :: ("ann" :: "bob" :: others).flatMap fun u =>
      [.env (.tick 1), instantly (.joinQueue u anywhere)])).world

/-- With nobody else in the queue, the pair is popped again at once, round
after round. -/
theorem deferred_pair_spins : ¬StaysDeferred "canberra:p" ⟨"ann", 1, "bob", 2⟩
    ((Past.initial (blockedAhead []) : Past System).run
      [instantly (.processQueueKey "canberra:p")]).trace := by
  decide +kernel

theorem staysDeferred_iff_eighteen : StaysDeferred "canberra:p" ⟨"ann", 1, "bob", 2⟩
    ((Past.initial (blockedAhead ["c", "d", "e", "f", "g", "h", "i", "j", "k", "l", "m", "n", "o",
      "p", "q", "r", "s", "t"]) : Past System).run [instantly (.processQueueKey "canberra:p")]).trace :=
  (staysDeferred_iff _ _ rfl "canberra:p" ⟨"ann", 1, "bob", 2⟩).mpr (by decide +kernel)

end VerityBackend.Matchmaking
