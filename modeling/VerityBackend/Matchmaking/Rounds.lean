/-
VerityBackend.Matchmaking.Rounds — the rounds of a pass, walked once.

A pass pops members, holds them for a while and adds them to the set again,
or hands them over to a session. `Carried K G` says what has to be known of
a property `K` of the moments of a run so that a pass keeps it: `G` is what
is carried from the pop to the moment the members in hand are used, and
every other command leaves both alone (`Background`).
-/
import VerityBackend.Matchmaking.Bans

namespace VerityBackend.Matchmaking

open Async Store Queue

variable {V : Service} {o : V.Op} {i : Nat}

/-! ## The commands in between -/

/-- The event of a match. -/
def ReportsMatch : Output → Prop
  | .track _ name _ => name = "queue_match_found"
  | _ => False

/-- The commands that change no sorted set, write no entry and report no
match. -/
structure Background (c : Cmd) : Prop where
  sets : ¬c.movesQueue ∨ ∃ q, c = .redis (.srem q)
  entries : ∀ u, ¬c.writes (.queueUser u)
  silent : ∀ os, c = .host (.emit os) → ∀ out ∈ os, ¬ReportsMatch out

theorem Background.zsets {c : Cmd} (h : Background c) (w : World) :
    (c.exec w).2.redis.zsets = w.redis.zsets := by
  rcases h.sets with hsets | ⟨q, rfl⟩
  · exact (Cmd.queues_exec hsets w).1
  · rfl

theorem Background.ne_zadd {c : Cmd} (h : Background c) (q : QueueKey) (xs : List (Ranked UserId)) :
    c ≠ .redis (.zadd q xs) := by
  rintro rfl
  rcases h.sets with hsets | ⟨q', hq⟩
  · exact hsets trivial
  · cases hq

theorem background_redis {c : RedisCmd} (h : ¬(Cmd.redis c).movesQueue)
    (hentries : ∀ u, ¬(Cmd.redis c).writes (.queueUser u)) : Background (.redis c) :=
  ⟨.inl h, hentries, nofun⟩

theorem background_db (c : DbCmd) : Background (.db c) := ⟨.inl id, fun _ => id, nofun⟩

theorem background_host {c : HostCmd} (h : ∀ os, c ≠ .emit os) : Background (.host c) :=
  ⟨.inl id, fun _ => id, fun os hc => (h os (by cases hc; rfl)).elim⟩

theorem background_emit {os : List Output} (h : ∀ out ∈ os, ¬ReportsMatch out) :
    Background (.host (.emit os)) :=
  ⟨.inl id, fun _ => id, fun os' hc => by cases hc; exact h⟩

/-- In the background, and not a look at the clock. -/
def Unclocked (c : Cmd) : Prop := Background c ∧ c ≠ .host .now

/-- The last command was no look at the clock. -/
def NotNow (s : Snap V.system) : Prop := ∀ n rest, s.trace = n :: rest → n.cmd ≠ .host .now

theorem notNow_exec {c : Cmd} (h : c ≠ .host .now) (i : Nat) (s : Snap V.system) :
    NotNow (s.exec i c) := by
  intro n rest hn
  cases hn
  exact h

theorem unclocked_lock {c : Cmd} (h : LockCommand c) : Unclocked c := by
  cases h with
  | draw => exact ⟨background_host nofun, nofun⟩
  | take u v => exact ⟨background_redis id nofun, nofun⟩
  | release u v => exact ⟨background_redis id fun _ => id, nofun⟩

theorem background_cleanupQueueKey (k : QueueKey) :
    (cleanupQueueKey k).Conforms Background True := by
  refine (Proc.conforms_await (background_redis id fun _ => id)).bind fun remaining => ?_
  split
  · exact Proc.conforms_await ⟨.inr ⟨k, rfl⟩, fun _ => id, nofun⟩
  · exact Proc.conforms_pure ()

theorem background_status {k : QueueKey} {c : Cmd} (h : StatusCommand k c) : Background c := by
  cases h with
  | range => exact background_redis id fun _ => id
  | count => exact background_redis id fun _ => id
  | tell userIds usersSearching =>
      refine background_emit fun out hout => ?_
      obtain ⟨u, -, rfl⟩ := List.mem_map.mp hout
      exact id

theorem background_getQueueSize (k : QueueKey) : (getQueueSize k).Conforms Background True :=
  (getQueueSize_issues k).mono fun _ => background_status

theorem background_sessionCreated (session : Session) :
    Background (.host (.emit [.sessionCreated session])) := by
  refine background_emit fun out hout => ?_
  rw [List.mem_singleton.mp hout]
  exact id

/-- A session that is created belongs to the queue named. -/
theorem queueKey_of_sessionCreate {userA userB : UserId} {region : Option String}
    {queueKey : Option QueueKey} {w : World} {session : Session}
    (h : ((DbCmd.sessionCreate userA userB region queueKey).exec w).1 = .ok session) :
    session.queueKey = queueKey := by
  simp only [DbCmd.exec] at h
  split at h
  · cases h
    rfl
  · cases h

/-! ## What a pass keeps -/

/-- Both members of a pair, as the set held them. -/
def held (pair : QueuePair) : List (Ranked UserId) :=
  [⟨pair.scoreA, pair.userA⟩, ⟨pair.scoreB, pair.userB⟩]

/-- The worker has just found a block between the members and looked at the
clock. -/
structure Deferring (pair : QueuePair) (now : Nat) (s : Snap V.system) : Prop where
  clock : ∃ n f rest, s.trace = n :: f :: rest ∧ n.cmd = .host .now ∧ n.before.clock = now ∧
    f.cmd = .db (.blockFindFirst pair.userA pair.userB) ∧
      (f.before.db.findBlockBetween pair.userA pair.userB).isSome

/-- **What lets a pass over queue `k` keep `K`.** `G none xs` is carried while
`xs` is in hand, `G (some now) xs` from the look at the clock on with which
the waiting times are computed. -/
structure Carried (k : QueueKey) (K : Snap V.system → Prop)
    (G : Option Nat → List (Ranked UserId) → Snap V.system → Prop) : Prop where
  elapse : ∀ s es, K s → K (s.elapse es)
  heldElapse : ∀ t xs s es, G t xs s → G t xs (s.elapse es)
  exec : ∀ i c s, Background c → K s → K (s.exec i c)
  heldExec : ∀ t xs i c s, Background c → G t xs s → G t xs (s.exec i c)
  pop : ∀ i s, K s → K (s.exec i (.redis (.zpopmin k 2))) ∧
    G none ((s.world.zset k).lowest 2) (s.exec i (.redis (.zpopmin k 2)))
  back : ∀ i xs ys s, K s → G none xs s → (∀ y ∈ ys, y ∈ xs) → (ys.length = 1 ∨ ys = xs) →
    (ys.length = 1 ∨ NotNow s) → K (s.exec i (.redis (.zadd k ys)))
  defer : ∀ i pair now s, K s → G none (held pair) s → Deferring pair now s →
    K (s.exec i (.redis (.zadd k [⟨now + 5000, pair.userA⟩, ⟨now + 5000 + 1, pair.userB⟩])))
  note : ∀ i xs s, K s → G none xs s → G (some s.world.clock) xs (s.exec i (.host .now))
  report : ∀ i pair now (session : Session) s os, session.queueKey = some k → K s →
    G (some now) (held pair) s →
    (∀ out ∈ os, ReportsMatch out →
      out = matchFoundEvent pair.userA pair.userB session (waitSeconds now pair.scoreA) ∨
      out = matchFoundEvent pair.userB pair.userA session (waitSeconds now pair.scoreB)) →
    K (s.exec i (.host (.emit os)))

namespace Carried

variable {k : QueueKey} {K : Snap V.system → Prop}
  {G : Option Nat → List (Ranked UserId) → Snap V.system → Prop} {s : Snap V.system}

/-- A procedure in the background. -/
theorem background (h : Carried k K G) {α : Type} {p : Prog α} (hp : p.Conforms Background True)
    (hK : K s) : Alone o i p (fun _ s' => K s') s :=
  (Discipline.solo_conforms (J := K) hp h.elapse
    (fun c s hc hK => ⟨h.exec i c s hc hK, .inr trivial⟩) hK).weaken fun _ _ hr => hr.2

/-- The same, with members in hand. -/
theorem holding (h : Carried k K G) {α : Type} {p : Prog α} (hp : p.Conforms Background True)
    {t : Option Nat} {xs : List (Ranked UserId)} (hK : K s) (hG : G t xs s) :
    Alone o i p (fun _ s' => K s' ∧ G t xs s') s :=
  (Discipline.solo_conforms (J := fun s => K s ∧ G t xs s) hp
    (fun s es hs => ⟨h.elapse s es hs.1, h.heldElapse t xs s es hs.2⟩)
    (fun c s hc hs => ⟨⟨h.exec i c s hc hs.1, h.heldExec t xs i c s hc hs.2⟩, .inr trivial⟩)
    ⟨hK, hG⟩).weaken fun _ _ hr => hr.2

theorem popPair (h : Carried k K G) (hK : K s) :
    Alone o i (Queue.popPair k) (fun r s' => K s' ∧ ∀ pair, r = .ok (some pair) →
      G none (held pair) s') s := by
  refine Discipline.solo_await fun es => ?_
  obtain ⟨hK₁, hG₁⟩ := h.pop i (s.elapse es) (h.elapse s es hK)
  have hlength : (((s.elapse es).world.zset k).lowest 2).length ≤ 2 := List.length_take_le _ _
  have hanswer : ((RedisCmd.zpopmin k 2).exec (s.elapse es).world).1 =
      ((s.elapse es).world.zset k).lowest 2 := rfl
  simp only [Service.system, Cmd.exec_redis, hanswer]
  revert hG₁ hlength
  generalize ((s.elapse es).world.zset k).lowest 2 = popped
  intro hG₁ hlength
  match popped with
  | [] => exact ⟨hK₁, nofun⟩
  | [a] =>
      refine Discipline.solo_await fun es₂ => ⟨?_, nofun⟩
      exact h.back i [a] [a] _ (h.elapse _ es₂ hK₁) (h.heldElapse _ _ _ es₂ hG₁) (fun _ hy => hy)
        (.inl rfl) (.inl rfl)
  | [a, b] =>
      refine ⟨hK₁, fun pair hpair => ?_⟩
      cases hpair
      exact hG₁
  | a :: b :: c :: rest => simp at hlength

/-- One member of the pair goes back. -/
theorem putBack (h : Carried k K G) {pair : QueuePair} {x : Ranked UserId} (hx : x ∈ held pair)
    (hK : K s) (hG : G none (held pair) s) :
    Alone o i ((redis (.zadd k [x])).bind fun _ => pure false) (fun r s' => K s' ∧
      (r = .ok true → NotNow s' ∧ G none (held pair) s')) s := by
  refine Discipline.solo_await fun es => ⟨?_, nofun⟩
  refine h.back i (held pair) [x] _ (h.elapse _ es hK) (h.heldElapse _ _ _ es hG) ?_ (.inl rfl) (.inl rfl)
  intro y hy
  rw [List.mem_singleton.mp hy]
  exact hx

theorem validatePair (h : Carried k K G) {pair : QueuePair} (hK : K s)
    (hG : G none (held pair) s) :
    Alone o i (Queue.validatePair k pair) (fun r s' => K s' ∧
      (r = .ok true → NotNow s' ∧ G none (held pair) s')) s := by
  refine Discipline.valid_bind ((h.holding (Proc.conforms_await (background_redis id fun _ => id)) hK hG).weaken ?_)
  rintro (e | ⟨rawStateA, rawStateB⟩) s₁ ⟨hK₁, hG₁⟩
  · exact ⟨hK₁, nofun⟩
  change Alone o i (if (!inQueue k rawStateA && !inQueue k rawStateB) = true then _ else _) _ _
  split
  · exact ⟨hK₁, nofun⟩
  split
  · exact h.putBack (List.mem_cons_of_mem _ List.mem_cons_self) hK₁ hG₁
  split
  · exact h.putBack List.mem_cons_self hK₁ hG₁
  refine Discipline.valid_bind (Discipline.solo_await fun es => ?_)
  set s₂ := s₁.elapse es
  have hc : Background (.db (.blockFindFirst pair.userA pair.userB)) := background_db _
  have hK₃ := h.exec i _ s₂ hc (h.elapse _ es hK₁)
  have hG₃ := h.heldExec none _ i _ s₂ hc (h.heldElapse _ _ _ es hG₁)
  set s₃ := s₂.exec i (.db (.blockFindFirst pair.userA pair.userB)) with hs₃
  change Alone o i (if ((s₂.world.db.findBlockBetween pair.userA pair.userB).map (·.id)).isSome
    then _ else _) _ _
  split
  · next hblocked =>
      rw [Option.isSome_map] at hblocked
      -- the pair is deferred: a look at the clock, then `ZADD`
      refine Discipline.valid_bind (Discipline.solo_await fun es₄ => ?_)
      have hclock : Background (.host .now) := background_host nofun
      have hK₄ := h.exec i _ _ hclock (h.elapse _ es₄ hK₃)
      have hG₄ := h.heldExec none _ i _ _ hclock (h.heldElapse _ _ _ es₄ hG₃)
      refine Discipline.solo_last fun es₅ => ⟨?_, nofun⟩
      refine h.defer i pair _ _ (h.elapse _ es₅ hK₄) (h.heldElapse _ _ _ es₅ hG₄) ⟨?_⟩
      exact ⟨_, _, s₂.trace, rfl, rfl, rfl, rfl, hblocked⟩
  · have hnow := notNow_exec (V := V) (c := .db (.blockFindFirst pair.userA pair.userB)) nofun i s₂
    exact ⟨hK₃, fun _ => ⟨hnow, hG₃⟩⟩

/-- Locks are taken; nobody looks at the clock meanwhile. -/
theorem lockUsers (h : Carried k K G) {xs : List (Ranked UserId)} (us : List UserId) (hK : K s)
    (hG : G none xs s) (hnow : NotNow s) :
    Alone o i (Queue.lockUsers us) (fun _ s' => K s' ∧ G none xs s' ∧ NotNow s') s := by
  refine (Discipline.solo_conforms (J := fun s => K s ∧ G none xs s ∧ NotNow s)
    ((lockUsersFrom_issues us []).mono fun _ => unclocked_lock) (fun s es hs => ?_) (fun c s hc hs => ?_) ⟨hK, hG, hnow⟩).weaken
    fun _ _ hr => hr.2
  · exact ⟨h.elapse s es hs.1, h.heldElapse none xs s es hs.2.1, hs.2.2⟩
  · exact ⟨⟨h.exec i c s hc.1 hs.1, h.heldExec none xs i c s hc.1 hs.2.1, notNow_exec hc.2 i s⟩,
      .inr trivial⟩

theorem createSession (h : Carried k K G) (userA userB : UserId) {t : Option Nat}
    {xs : List (Ranked UserId)} (hK : K s) (hG : G t xs s) :
    Alone o i (Queue.createSession userA userB k) (fun r s' => K s' ∧ G t xs s' ∧
      ∀ session, r = .ok session → session.queueKey = some k) s := by
  refine Discipline.solo_await fun es => ?_
  have hcreate : Background (.db (.sessionCreate userA userB (some (cityOf k)) (some k))) :=
    background_db _
  have hK₁ := h.exec i _ _ hcreate (h.elapse _ es hK)
  have hG₁ := h.heldExec t xs i _ _ hcreate (h.heldElapse _ _ _ es hG)
  cases hanswer : (V.system.exec (.db (.sessionCreate userA userB (some (cityOf k)) (some k)))
      (s.elapse es).world).1 with
  | error e => exact ⟨hK₁, hG₁, nofun⟩
  | ok session =>
      refine Discipline.solo_await fun es₂ => ?_
      have hemit := background_sessionCreated session
      refine ⟨h.exec i _ _ hemit (h.elapse _ es₂ hK₁),
        h.heldExec t xs i _ _ hemit (h.heldElapse _ _ _ es₂ hG₁), fun x hx => ?_⟩
      cases hx
      exact queueKey_of_sessionCreate hanswer

theorem matchLocked (h : Carried k K G) {pair : QueuePair} (hK : K s)
    (hG : G none (held pair) s) : Alone o i (Queue.matchLocked k pair) (fun _ s' => K s') s := by
  refine Discipline.solo_await fun es => ?_
  have hclock : Background (.host .now) := background_host nofun
  have hK₁ := h.exec i _ _ hclock (h.elapse _ es hK)
  have hG₁ := h.note i _ _ (h.elapse _ es hK) (h.heldElapse _ _ _ es hG)
  refine Discipline.valid_bind ((h.createSession _ _ hK₁ hG₁).weaken ?_)
  rintro (e | session) s₂ ⟨hK₂, hG₂, hqueue⟩
  · exact hK₂
  have hmark : Background (.redis (.multiMarkMatched pair.userA pair.userB session.id
    MATCHED_TTL_MS)) := background_redis id fun _ => by rintro (h | h) <;> cases h
  refine Discipline.valid_bind ((h.holding (Proc.conforms_await hmark) hK₂ hG₂).weaken ?_)
  rintro (e | a) s₃ ⟨hK₃, hG₃⟩
  · exact hK₃
  refine Discipline.solo_last fun es₄ => ?_
  refine h.report i pair _ session _ _ (hqueue session rfl) (h.elapse _ es₄ hK₃)
    (h.heldElapse _ _ _ es₄ hG₃) ?_
  intro out hout hreports
  simp only [List.mem_cons, List.not_mem_nil, or_false] at hout
  rcases hout with rfl | rfl | rfl | rfl | rfl
  · exact .inl rfl
  · exact .inr rfl
  all_goals exact hreports.elim

theorem matchPair (h : Carried k K G) {pair : QueuePair} (hK : K s)
    (hG : G none (held pair) s) : Alone o i (Queue.matchPair k pair) (fun _ s' => K s') s := by
  refine Discipline.valid_bind ((h.validatePair hK hG).weaken ?_)
  rintro (e | valid) s₁ ⟨hK₁, hvalid⟩
  · exact hK₁
  cases valid with
  | false => exact hK₁
  | true =>
      obtain ⟨hnow, hG₁⟩ := hvalid rfl
      refine Discipline.valid_bind ((h.lockUsers _ hK₁ hG₁ hnow).weaken ?_)
      rintro (e | acquired) s₂ ⟨hK₂, hG₂, hnow₂⟩
      · exact hK₂
      cases acquired with
      | none =>
          refine Discipline.solo_last fun es => ?_
          exact h.back i (held pair) (held pair) _ (h.elapse _ es hK₂) (h.heldElapse _ _ _ es hG₂)
            (fun _ hy => hy) (.inr rfl) (.inr hnow₂)
      | some locks =>
          refine Discipline.valid_tryFinally ((h.matchLocked hK₂ hG₂).weaken fun r s₃ hK₃ => ?_)
          refine (h.background ((releaseUserLocks_issues locks).mono fun _ hc => (unclocked_lock hc).1) hK₃).weaken ?_
          rintro (e | a) s₄ hK₄
          · exact hK₄
          · exact hK₄

/-- The rounds, by induction on how many are left. -/
theorem matchLoop (h : Carried k K G) (n : Nat) (hK : K s) :
    Alone o i (Queue.matchLoop k n) (fun _ s' => K s') s := by
  induction n generalizing s with
  | zero => exact hK
  | succ n ih =>
      refine Discipline.valid_bind ((h.popPair hK).weaken ?_)
      rintro (e | popped) s₁ ⟨hK₁, hpopped⟩
      · exact hK₁
      cases popped with
      | none => exact hK₁
      | some pair =>
          refine Discipline.valid_bind ((h.matchPair hK₁ (hpopped pair rfl)).weaken ?_)
          rintro (e | a) s₂ hK₂
          · exact hK₂
          · exact ih hK₂

/-- **A pass keeps what its rounds keep.** -/
theorem processQueueKey (h : Carried k K G) (hK : K s) :
    Alone o i (Queue.processQueueKey k) (fun _ s' => K s') s := by
  refine Discipline.valid_bind ((h.background (background_getQueueSize k) hK).weaken ?_)
  rintro (e | sizeBefore) s₁ hK₁
  · exact hK₁
  refine Discipline.valid_bind ((h.matchLoop MAX_MATCHES_PER_KEY hK₁).weaken ?_)
  rintro (e | a) s₂ hK₂
  · exact hK₂
  refine Discipline.valid_bind ((h.background (background_cleanupQueueKey k) hK₂).weaken ?_)
  rintro (e | a) s₃ hK₃
  · exact hK₃
  refine Discipline.valid_bind ((h.background (background_getQueueSize k) hK₃).weaken ?_)
  rintro (e | sizeAfter) s₄ hK₄
  · exact hK₄
  refine h.background ?_ hK₄
  dsimp only
  split
  · exact (emitQueueStatus_issues k).mono fun _ => background_status
  · exact Proc.conforms_pure ()

end Carried

end VerityBackend.Matchmaking
