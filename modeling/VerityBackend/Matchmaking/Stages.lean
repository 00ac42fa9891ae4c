/-
VerityBackend.Matchmaking.Stages — where a user stands with the queue, step by
step.

A user joins, waits, is popped and put back, is matched or leaves, and each
of these takes several commands of one call. `Stage` names the points in
between, and says which call the user is with; `Stage.after` is what a
command makes of it, so the stage is read off the trace. `Fits` ties it to
what Redis stores, and `books` to the tokens. Both are kept by the commands
a call may issue at the stage the user is in (`Proper`), and these move the
user along a few edges only (`Move`).
-/
import VerityBackend.Matchmaking.Alone
import VerityBackend.Matchmaking.Locks

namespace VerityBackend.Matchmaking

open Async Store Queue

/-! ## Stages -/

inductive Stage where
  /-- Not in the queue. -/
  | out
  /-- Debited, and not entered yet. -/
  | paid (call : Nat)
  | waiting (queueKey : QueueKey)
  /-- Popped by the worker. -/
  | inHand (call : Nat) (queueKey : QueueKey)
  /-- In a session, but the entry is still there. -/
  | created (call : Nat) (queueKey : QueueKey)
  /-- Taken out of the set to leave. -/
  | removed (call : Nat) (queueKey : QueueKey)
  /-- The entry is deleted as well. -/
  | cleared (call : Nat)
  deriving DecidableEq, Repr

namespace Stage

/-- The queue the entry of the user names. -/
def entry : Stage → Option QueueKey
  | waiting k => some k
  | inHand _ k => some k
  | created _ k => some k
  | removed _ k => some k
  | _ => none

/-- The call the user is with. -/
def owner : Stage → Option Nat
  | paid i => some i
  | inHand i _ => some i
  | created i _ => some i
  | removed i _ => some i
  | cleared i => some i
  | _ => none

/-- The call, if it must hold the lock of the user. -/
def locked : Stage → Option Nat
  | paid i => some i
  | created i _ => some i
  | removed i _ => some i
  | cleared i => some i
  | _ => none

/-- The tokens the user has paid for nothing yet. -/
def weight : Stage → Nat
  | out => 0
  | created _ _ => 0
  | _ => 1

def create (i : Nat) : Stage → Stage
  | inHand _ k => created i k
  | st => st

def release : Stage → Stage
  | cleared _ => out
  | st => st

/-- Waiting, or popped. -/
def settled (k : QueueKey) (st : Stage) : Prop := st = waiting k ∨ ∃ i, st = inHand i k

end Stage

/-- The edges along which call `i` moves a user. -/
inductive Move (i : Nat) (holds : Prop) : Stage → Stage → Prop
  | stay (st : Stage) : Move i holds st st
  | pay : holds → Move i holds .out (.paid i)
  | enter (k : QueueKey) : Move i holds (.paid i) (.waiting k)
  | pop (k : QueueKey) : Move i holds (.waiting k) (.inHand i k)
  | putBack (k : QueueKey) : Move i holds (.inHand i k) (.waiting k)
  | create (k : QueueKey) : holds → Move i holds (.inHand i k) (.created i k)
  | mark (k : QueueKey) : Move i holds (.created i k) .out
  | remove (k : QueueKey) : holds → Move i holds (.waiting k) (.removed i k)
  | clear (k : QueueKey) : Move i holds (.removed i k) (.cleared i)
  | settle : Move i holds (.cleared i) .out

namespace Move

variable {i j : Nat} {holds : Prop} {st st' : Stage} {k : QueueKey}

/-- Nobody takes a user away from another call. -/
theorem mine (h : Move i holds st st') (hj : st.owner = some j) (hne : j ≠ i) : st' = st := by
  cases h with
  | stay => rfl
  | _ => simp_all [Stage.owner]

/-- Nobody puts a user in the hand of another call. -/
theorem foreign (h : Move i holds st st') (hj : st.owner ≠ some j) (hne : j ≠ i) :
    st'.owner ≠ some j := by
  cases h with
  | stay => exact hj
  | _ => simp [Stage.owner, Ne.symm hne]

/-- Without the lock nobody joins for the user. -/
theorem out_of_not_holds (h : Move i holds .out st') (hholds : ¬holds) : st' = .out := by
  cases h with
  | stay => rfl
  | pay hpay => exact (hholds hpay).elim

/-- Without the lock nobody leaves for the user or matches it. -/
theorem settled_of_not_holds (h : Move i holds st st') (hst : st.settled k) (hholds : ¬holds) :
    st'.settled k := by
  cases h with
  | stay => exact hst
  | pop k' =>
      rcases hst with heq | ⟨j, heq⟩ <;> cases heq
      exact .inr ⟨i, rfl⟩
  | putBack k' =>
      rcases hst with heq | ⟨j, heq⟩ <;> cases heq
      exact .inl rfl
  | create k' hcreate => exact (hholds hcreate).elim
  | remove k' hremove => exact (hholds hremove).elim
  | _ => rcases hst with heq | ⟨j, heq⟩ <;> cases heq

/-- Who must hold the lock does hold it. -/
theorem locked (h : Move i holds st st') (hst : st.locked = some i → holds)
    (hj : st'.locked = some j) : st.locked = some j ∨ j = i ∧ holds := by
  cases h with
  | stay => exact .inl hj
  | clear k =>
      obtain rfl : i = j := Option.some.inj hj
      exact .inr ⟨rfl, hst rfl⟩
  | _ => simp_all [Stage.locked]

end Move

/-! ## What a command makes of it -/

variable {V : Service} {u : UserId} {st : Stage}

/-- A session with the user was created. -/
def isCreation (u : UserId) (e : Entry V.system) : Bool :=
  match e.cmd with
  | .db (.sessionCreate a b _ _) => (a = u || b = u) && (e.before.db.hasUser a && e.before.db.hasUser b)
  | _ => false

def creations (s : Snap V.system) (u : UserId) : Nat := s.trace.countP (isCreation u)

def Stage.after (u : UserId) (st : Stage) (e : Entry V.system) : Stage :=
  match e.cmd with
  | .db (.userDebit _) => if isDebit u e then .paid e.call else st
  | .db (.userRefund _) => if isRefund u e then .out else st
  | .db (.sessionCreate _ _ _ _) => if isCreation u e then st.create e.call else st
  | .redis (.multiJoin k u' _ _) => if u' = u then .waiting k else st
  | .redis (.zpopmin k n) =>
      if u ∈ ((e.before.zset k).lowest n).map (·.member) then .inHand e.call k else st
  | .redis (.zadd k xs) => if u ∈ xs.map (·.member) then .waiting k else st
  | .redis (.multiMarkMatched a b _ _) => if u = a ∨ u = b then .out else st
  | .redis (.zrem k u') => if u' = u then .removed e.call k else st
  | .redis (.del ks) => if .queueUser u ∈ ks then .cleared e.call else st
  | .redis (.releaseLock k _) => if k = .queueLock u then st.release else st
  | _ => st

/-- The stage of the user after the commands of a trace, newest first. -/
def stageOf (u : UserId) (st₀ : Stage) : List (Entry V.system) → Stage
  | [] => st₀
  | e :: older => (stageOf u st₀ older).after u e

abbrev stage (u : UserId) (st₀ : Stage) (s : Snap V.system) : Stage := stageOf u st₀ s.trace

/-- A user who has left gets nothing back. -/
def isForfeit (u : UserId) (st : Stage) (e : Entry V.system) : Bool :=
  match e.cmd, st with
  | .redis (.releaseLock k _), .cleared _ => k = .queueLock u
  | _, _ => false

def forfeitsOf (u : UserId) (st₀ : Stage) : List (Entry V.system) → Nat
  | [] => 0
  | e :: older =>
      forfeitsOf u st₀ older + if isForfeit u (stageOf u st₀ older) e then 1 else 0

/-- Some call has found the user matched. -/
def Seen (u : UserId) (s : Snap V.system) : Prop :=
  ∃ e ∈ s.trace, e.cmd = .redis (.get (.queueMatched u)) ∧
    truthy (e.before.get (.queueMatched u)) = true

/-! ## What Redis stores -/

structure Fits (u : UserId) (st : Stage) (w : World) : Prop where
  absent : st.entry = none → w.stored (.queueUser u) = none
  present : ∀ k, st.entry = some k → ∃ e, w.stored (.queueUser u) = some e ∧ e.expiresAt = none ∧
    (parseQueueEntryState (some e.val)).map (·.queueKey) = some k
  member : ∀ k, u ∈ w.zset k ↔ st = .waiting k

namespace Fits

variable {w w' : World} {k : QueueKey}

theorem congr (h : Fits u st w) (hstored : w'.stored (.queueUser u) = w.stored (.queueUser u))
    (hmember : ∀ k, u ∈ w'.zset k ↔ u ∈ w.zset k) : Fits u st w' where
  absent hst := hstored.trans (h.absent hst)
  present k hst := by
    rw [hstored]
    exact h.present k hst
  member k := (hmember k).trans (h.member k)

/-- What `GET queue:user:<id>` answers. -/
theorem get_entry (h : Fits u st w) :
    (parseQueueEntryState (w.get (.queueUser u))).map (·.queueKey) = st.entry := by
  have hpermanent : ∀ e, w.stored (.queueUser u) = some e → e.expiresAt = none := by
    intro e he
    cases hst : st.entry with
    | none =>
        rw [h.absent hst] at he
        cases he
    | some k =>
        obtain ⟨e', he', hexpires, -⟩ := h.present k hst
        rw [he'] at he
        cases he
        exact hexpires
  rw [World.get_of_permanent hpermanent]
  cases hst : st.entry with
  | none =>
      rw [h.absent hst]
      rfl
  | some k =>
      obtain ⟨e', he', -, hparse⟩ := h.present k hst
      rw [he']
      exact hparse

/-- Of the stage only the entry and the membership are seen. -/
theorem restage (h : Fits u st w) {st' : Stage} (hentry : st'.entry = st.entry)
    (hmember : ∀ k, st' = .waiting k ↔ st = .waiting k) : Fits u st' w where
  absent hst := h.absent (hentry ▸ hst)
  present k hst := h.present k (hentry ▸ hst)
  member k := (h.member k).trans (hmember k).symm

end Fits

/-! ## Proper commands -/

/-- What call `i` may do to the user at a stage. `holds` says that the call
holds the lock of the user, and `seen` that it has found the user matched. -/
def Proper (u : UserId) (st : Stage) (i : Nat) (holds seen : Prop) (w : World) : Cmd → Prop
  | .db (.userDebit u') => u' = u → st = .out ∧ holds
  | .db (.userRefund u') => u' = u → st = .cleared i
  | .db (.sessionCreate a b _ _) => a = u ∨ b = u → (∃ k, st = .inHand i k) ∧ holds
  | .redis (.multiJoin k u' joinedAt state) =>
      (w.db.users u').isSome ∧
        (u' = u → st = .paid i ∧ k ≠ "" ∧ state = (QueueEntryState.mk k joinedAt).toJson)
  | .redis (.zadd k xs) => u ∈ xs.map (·.member) → st = .inHand i k
  | .redis (.multiMarkMatched a b _ _) => u = a ∨ u = b → ∃ k, st = .created i k
  | .redis (.zrem k u') => u' = u → st = .waiting k ∧ holds
  | .redis (.del ks) => .queueUser u ∈ ks → ∃ k, st = .removed i k
  | .redis (.releaseLock k _) =>
      (∀ p, k ≠ .queueUser p) ∧
        (k = .queueLock u → ∀ j, st.locked = some j → st = .cleared i ∧ seen)
  | .redis (.set k _ _) => ∀ p, k ≠ .queueUser p
  | .redis (.setNX k _ _) => ∀ p, k ≠ .queueUser p
  | _ => True

/-- What an executed command has done to the user. -/
structure Advance (u : UserId) (st : Stage) (holds : Prop) (e : Entry V.system) : Prop where
  move : Move e.call holds st (st.after u e)
  fits : Fits u (st.after u e) e.after
  books : st.weight + (if isDebit u e then 1 else 0) = (if isRefund u e then 1 else 0) +
    (if isCreation u e then 1 else 0) + (if isForfeit u st e then 1 else 0) + (st.after u e).weight

section Advance

variable {i : Nat} {holds seen : Prop} {w : World}

/-- A command that has nothing to do with the user. -/
theorem advance_stay {e : Entry V.system} (hfits : Fits u st e.after) (hafter : st.after u e = st)
    (hdebit : isDebit u e = false) (hrefund : isRefund u e = false)
    (hcreation : isCreation u e = false) (hforfeit : isForfeit u st e = false) :
    Advance u st holds e where
  move := by
    rw [hafter]
    exact .stay st
  fits := by rwa [hafter]
  books := by simp [hafter, hdebit, hrefund, hcreation, hforfeit]

theorem Fits.exec_db (h : Fits u st w) (c : DbCmd) : Fits u st (c.exec w).2 := by
  refine h.congr ?_ fun k => ?_
  · unfold World.stored
    rw [(c.exec_redis w).1]
  · unfold World.zset
    rw [(c.exec_redis w).1]

theorem advance_db (h : Fits u st w) {c : DbCmd} (hc : Proper u st i holds seen w (.db c)) :
    Advance u st holds (⟨i, .db c, w⟩ : Entry V.system) := by
  have hfits {st' : Stage} (h : Fits u st' w) : Fits u st' (c.exec w).2 := h.exec_db c
  cases c with
  | userDebit u' =>
      cases hdebit : isDebit u (⟨i, .db (.userDebit u'), w⟩ : Entry V.system) with
      | false => exact advance_stay (hfits h) (by simp [Stage.after, hdebit]) hdebit rfl rfl rfl
      | true =>
          have hu : u' = u := by
            simp only [isDebit, Bool.and_eq_true, decide_eq_true_eq] at hdebit
            exact hdebit.1
          obtain ⟨rfl, hholds⟩ := hc hu
          have hafter : Stage.after u .out (⟨i, .db (.userDebit u'), w⟩ : Entry V.system) =
              .paid i := by simp [Stage.after, hdebit]
          refine ⟨?_, ?_, ?_⟩
          · rw [hafter]
            exact .pay hholds
          · rw [hafter]
            exact hfits (h.restage rfl fun k => by simp)
          · rw [hafter, hdebit]
            rfl
  | userRefund u' =>
      cases hrefund : isRefund u (⟨i, .db (.userRefund u'), w⟩ : Entry V.system) with
      | false => exact advance_stay (hfits h) (by simp [Stage.after, hrefund]) rfl hrefund rfl rfl
      | true =>
          have hu : u' = u := by
            simp only [isRefund, Bool.and_eq_true, decide_eq_true_eq] at hrefund
            exact hrefund.1
          obtain rfl := hc hu
          have hafter : Stage.after u (.cleared i) (⟨i, .db (.userRefund u'), w⟩ : Entry V.system) =
              .out := by simp [Stage.after, hrefund]
          refine ⟨?_, ?_, ?_⟩
          · rw [hafter]
            exact .settle
          · rw [hafter]
            exact hfits (h.restage rfl fun k => by simp)
          · rw [hafter, hrefund]
            rfl
  | sessionCreate a b region q =>
      cases hcreation : isCreation u (⟨i, .db (.sessionCreate a b region q), w⟩ : Entry V.system) with
      | false => exact advance_stay (hfits h) (by simp [Stage.after, hcreation]) rfl rfl hcreation rfl
      | true =>
          have hu : a = u ∨ b = u := by
            simp only [isCreation, Bool.and_eq_true, Bool.or_eq_true, decide_eq_true_eq] at hcreation
            exact hcreation.1
          obtain ⟨⟨k, rfl⟩, hholds⟩ := hc hu
          have hafter : Stage.after u (.inHand i k)
              (⟨i, .db (.sessionCreate a b region q), w⟩ : Entry V.system) = .created i k := by
            simp [Stage.after, hcreation, Stage.create]
          refine ⟨?_, ?_, ?_⟩
          · rw [hafter]
            exact .create k hholds
          · rw [hafter]
            exact hfits (h.restage rfl fun k => by simp)
          · rw [hafter, hcreation]
            rfl
  | _ => exact advance_stay (hfits h) rfl rfl rfl rfl rfl

/-- The membership of the user after a sorted set was replaced. -/
theorem mem_setZset_world {k k' : QueueKey} {z : SortedSet UserId} :
    u ∈ (w.setZset k z).zset k' ↔ if k' = k then u ∈ z else u ∈ w.zset k' := by
  unfold World.setZset World.zset World.mapRedis
  dsimp only
  split <;> exact Iff.rfl

theorem advance_zpopmin (h : Fits u st w) (k : QueueKey) (n : Nat) :
    Advance u st holds (⟨i, .redis (.zpopmin k n), w⟩ : Entry V.system) := by
  have hmem (k' : QueueKey) : u ∈ (w.setZset k ((w.zset k).zpopmin n)).zset k' ↔
      u ∈ w.zset k' ∧ (k' = k → u ∉ ((w.zset k).lowest n).map (·.member)) := by
    rw [mem_setZset_world]
    split
    · next hk =>
        subst hk
        rw [SortedSet.mem_zpopmin]
        simp
    · next hk => simp [hk]
  by_cases hpop : u ∈ ((w.zset k).lowest n).map (·.member)
  · obtain ⟨x, hx, hxu⟩ := List.mem_map.mp hpop
    obtain rfl : st = .waiting k := by
      rw [← h.member k, ← hxu]
      exact SortedSet.mem_of_mem_lowest hx
    have hafter : Stage.after u (.waiting k) (⟨i, .redis (.zpopmin k n), w⟩ : Entry V.system) =
        .inHand i k := if_pos hpop
    refine ⟨?_, ?_, ?_⟩
    · rw [hafter]
      exact .pop k
    · rw [hafter]
      refine ⟨nofun, h.present, fun k' => ?_⟩
      refine iff_of_false (fun hin => ?_) nofun
      obtain ⟨hin, hnot⟩ := (hmem k').mp hin
      have hk := (h.member k').mp hin
      cases hk
      exact hnot rfl hpop
    · rw [hafter]
      rfl
  · refine advance_stay (h.congr rfl fun k' => ?_) (if_neg hpop) rfl rfl rfl rfl
    refine (hmem k').trans (and_iff_left ?_)
    exact fun _ => hpop

theorem advance_zadd (h : Fits u st w) {k : QueueKey} {xs : List (Ranked UserId)}
    (hc : u ∈ xs.map (·.member) → st = .inHand i k) :
    Advance u st holds (⟨i, .redis (.zadd k xs), w⟩ : Entry V.system) := by
  have hmem (k' : QueueKey) : u ∈ (w.setZset k ((w.zset k).zaddAll xs)).zset k' ↔
      k' = k ∧ u ∈ xs.map (·.member) ∨ u ∈ w.zset k' := by
    rw [mem_setZset_world]
    split
    · next hk =>
        subst hk
        rw [SortedSet.mem_zaddAll]
        simp
    · next hk => simp [hk]
  by_cases hin : u ∈ xs.map (·.member)
  · obtain rfl := hc hin
    have hafter : Stage.after u (.inHand i k) (⟨i, .redis (.zadd k xs), w⟩ : Entry V.system) =
        .waiting k := if_pos hin
    refine ⟨?_, ?_, ?_⟩
    · rw [hafter]
      exact .putBack k
    · rw [hafter]
      refine ⟨nofun, h.present, fun k' => (hmem k').trans ?_⟩
      have hnot : u ∉ w.zset k' := fun hold => by cases (h.member k').mp hold
      simp only [hin, and_true, hnot, or_false, Stage.waiting.injEq, eq_comm]
    · rw [hafter]
      rfl
  · refine advance_stay (h.congr rfl fun k' => ?_) (if_neg hin) rfl rfl rfl rfl
    exact (hmem k').trans (or_iff_right fun hk => hin hk.2)

theorem advance_zrem (h : Fits u st w) {k : QueueKey} {u' : UserId}
    (hc : u' = u → st = .waiting k ∧ holds) :
    Advance u st holds (⟨i, .redis (.zrem k u'), w⟩ : Entry V.system) := by
  have hmem (k' : QueueKey) : u ∈ (w.setZset k ((w.zset k).zrem u')).zset k' ↔
      u ∈ w.zset k' ∧ (k' = k → u ≠ u') := by
    rw [mem_setZset_world]
    split
    · next hk =>
        subst hk
        rw [SortedSet.mem_zrem]
        simp [and_comm]
    · next hk => simp [hk]
  by_cases hu : u' = u
  · obtain ⟨rfl, hholds⟩ := hc hu
    have hafter : Stage.after u (.waiting k) (⟨i, .redis (.zrem k u'), w⟩ : Entry V.system) =
        .removed i k := if_pos hu
    refine ⟨?_, ?_, ?_⟩
    · rw [hafter]
      exact .remove k hholds
    · rw [hafter]
      refine ⟨nofun, h.present, fun k' => iff_of_false (fun hin => ?_) nofun⟩
      obtain ⟨hin, hnot⟩ := (hmem k').mp hin
      have hk := (h.member k').mp hin
      cases hk
      exact hnot rfl hu.symm
    · rw [hafter]
      rfl
  · refine advance_stay (h.congr rfl fun k' => ?_) (if_neg hu) rfl rfl rfl rfl
    exact (hmem k').trans (and_iff_left fun _ => Ne.symm hu)

theorem advance_multiJoin (h : Fits u st w) {k : QueueKey} {u' : UserId} {joinedAt : Nat}
    {state : RedisString}
    (hc : u' = u → st = .paid i ∧ k ≠ "" ∧ state = (QueueEntryState.mk k joinedAt).toJson) :
    Advance u st holds (⟨i, .redis (.multiJoin k u' joinedAt state), w⟩ : Entry V.system) := by
  set w' := ((RedisCmd.multiJoin k u' joinedAt state).exec w).2 with hw'
  have hmem (k' : QueueKey) : u ∈ w'.zset k' ↔ k' = k ∧ u = u' ∨ u ∈ w.zset k' := by
    change u ∈ (w.setZset k ((w.zset k).zadd joinedAt u')).zset k' ↔ _
    rw [mem_setZset_world]
    split
    · next hk =>
        subst hk
        rw [SortedSet.mem_zadd]
        simp
    · next hk => simp [hk]
  by_cases hu : u' = u
  · obtain ⟨rfl, hk, rfl⟩ := hc hu
    subst hu
    have hafter : Stage.after u' (.paid i)
        (⟨i, .redis (.multiJoin k u' joinedAt (QueueEntryState.mk k joinedAt).toJson), w⟩ :
          Entry V.system) = .waiting k := if_pos rfl
    refine ⟨?_, ?_, ?_⟩
    · rw [hafter]
      exact .enter k
    · rw [hafter]
      refine ⟨nofun, fun k' hk' => ?_, fun k' => (hmem k').trans ?_⟩
      · obtain rfl : k = k' := Option.some.inj hk'
        refine ⟨⟨_, none⟩, World.stored_set_self _ _ _ none, rfl, ?_⟩
        rw [parseQueueEntryState_toJson hk]
        rfl
      · have hnot : u' ∉ w.zset k' := fun hold => by cases (h.member k').mp hold
        simp only [and_true, hnot, or_false, Stage.waiting.injEq, eq_comm]
    · rw [hafter]
      rfl
  · refine advance_stay (h.congr ?_ fun k' => ?_) (if_neg hu) rfl rfl rfl rfl
    · exact Cmd.stored_exec (c := .redis (.multiJoin k u' joinedAt state))
        (fun htouch => hu (RedisKey.queueUser.inj htouch).symm) w
    · exact (hmem k').trans (or_iff_right fun hk => hu hk.2.symm)

theorem advance_multiMarkMatched (h : Fits u st w) {a b : UserId} {id : SessionId} {ttl : Nat}
    (hc : u = a ∨ u = b → ∃ k, st = .created i k) :
    Advance u st holds (⟨i, .redis (.multiMarkMatched a b id ttl), w⟩ : Entry V.system) := by
  by_cases hu : u = a ∨ u = b
  · obtain ⟨k, rfl⟩ := hc hu
    have hafter : Stage.after u (.created i k)
        (⟨i, .redis (.multiMarkMatched a b id ttl), w⟩ : Entry V.system) = .out := if_pos hu
    refine ⟨?_, ?_, ?_⟩
    · rw [hafter]
      exact .mark k
    · rw [hafter]
      refine ⟨fun _ => ?_, nofun, fun k' => ?_⟩
      · change ((([RedisKey.queueUser a, .queueUser b].foldl World.del w).set _ _ _).set _ _ _).stored
          (.queueUser u) = none
        rw [World.stored_set_ne (by nofun), World.stored_set_ne (by nofun), World.stored_delAll_self]
        rcases hu with rfl | rfl
        · exact .head _
        · exact .tail _ (.head _)
      · exact iff_of_false (fun hin => by cases (h.member k').mp hin) nofun
    · rw [hafter]
      rfl
  · refine advance_stay (h.congr ?_ fun k' => Iff.rfl) (if_neg hu) rfl rfl rfl rfl
    refine Cmd.stored_exec (c := .redis (.multiMarkMatched a b id ttl)) (fun htouch => hu ?_) w
    rcases htouch with htouch | htouch | htouch | htouch
    · cases htouch
    · cases htouch
    · exact .inl (RedisKey.queueUser.inj htouch)
    · exact .inr (RedisKey.queueUser.inj htouch)

theorem advance_del (h : Fits u st w) {ks : List RedisKey}
    (hc : .queueUser u ∈ ks → ∃ k, st = .removed i k) :
    Advance u st holds (⟨i, .redis (.del ks), w⟩ : Entry V.system) := by
  have hzsets (k : QueueKey) : u ∈ (ks.foldl World.del w).zset k ↔ u ∈ w.zset k := by
    unfold World.zset
    rw [(World.delAll_redis ks w).1]
  by_cases hin : .queueUser u ∈ ks
  · obtain ⟨k, rfl⟩ := hc hin
    have hafter : Stage.after u (.removed i k) (⟨i, .redis (.del ks), w⟩ : Entry V.system) =
        .cleared i := if_pos hin
    refine ⟨?_, ?_, ?_⟩
    · rw [hafter]
      exact .clear k
    · rw [hafter]
      refine ⟨fun _ => World.stored_delAll_self hin, nofun, fun k' => (hzsets k').trans ?_⟩
      exact iff_of_false (fun hin => by cases (h.member k').mp hin) nofun
    · rw [hafter]
      rfl
  · exact advance_stay (h.congr (World.stored_delAll hin) hzsets) (if_neg hin) rfl rfl rfl rfl

theorem advance_releaseLock (h : Fits u st w) {k : RedisKey} {r : RedisString}
    (hk : ∀ p, k ≠ .queueUser p)
    (hc : k = .queueLock u → ∀ j, st.locked = some j → st = .cleared i) :
    Advance u st holds (⟨i, .redis (.releaseLock k r), w⟩ : Entry V.system) := by
  have hfits : Fits u st (⟨i, .redis (.releaseLock k r), w⟩ : Entry V.system).after := by
    refine h.congr (Cmd.stored_exec (c := .redis (.releaseLock k r)) ?_ w) fun k' => ?_
    · exact fun htouch => hk u htouch.symm
    · change u ∈ World.zset (Cmd.exec (.redis (.releaseLock k r)) w).2 k' ↔ _
      unfold World.zset
      rw [(Cmd.queues_exec (c := .redis (.releaseLock k r)) id w).1]
  by_cases hlock : k = .queueLock u
  · subst hlock
    have hafter : Stage.after u st
        (⟨i, .redis (.releaseLock (.queueLock u) r), w⟩ : Entry V.system) = st.release := if_pos rfl
    cases st with
    | cleared j =>
        cases hc rfl j rfl
        refine ⟨?_, ?_, ?_⟩
        · rw [hafter]
          exact .settle
        · rw [hafter]
          exact hfits.restage rfl fun k' => by simp [Stage.release]
        · rw [hafter]
          simp [Stage.weight, Stage.release, isDebit, isRefund, isCreation, isForfeit]
    | _ => exact advance_stay hfits hafter rfl rfl rfl rfl
  · have hforfeit : isForfeit u st (⟨i, .redis (.releaseLock k r), w⟩ : Entry V.system) = false := by
      cases st with
      | cleared j => simp [isForfeit, hlock]
      | _ => rfl
    exact advance_stay hfits (if_neg hlock) rfl rfl rfl hforfeit

/-- A key that is no entry is written. -/
theorem advance_key (h : Fits u st w) {c : RedisCmd} (htouch : ¬(Cmd.redis c).touches (.queueUser u))
    (hmoves : ¬(Cmd.redis c).movesQueue)
    (hafter : st.after u (⟨i, .redis c, w⟩ : Entry V.system) = st)
    (hforfeit : isForfeit u st (⟨i, .redis c, w⟩ : Entry V.system) = false) :
    Advance u st holds (⟨i, .redis c, w⟩ : Entry V.system) := by
  refine advance_stay (h.congr (Cmd.stored_exec htouch w) fun k => ?_) hafter rfl rfl rfl hforfeit
  change u ∈ World.zset (Cmd.exec (.redis c) w).2 k ↔ _
  unfold World.zset
  rw [(Cmd.queues_exec hmoves w).1]

/-- **Step lemma.** Every proper command moves the user along an edge, and
Redis and the tokens follow. -/
theorem advance (h : Fits u st w) {c : Cmd} (hc : Proper u st i holds seen w c) :
    Advance u st holds (⟨i, c, w⟩ : Entry V.system) := by
  cases c with
  | db c => exact advance_db h hc
  | host c =>
      refine advance_stay (h.congr (Cmd.stored_exec (c := .host c) id w) fun k => ?_) rfl rfl rfl rfl rfl
      change u ∈ World.zset (Cmd.exec (.host c) w).2 k ↔ _
      unfold World.zset
      rw [(Cmd.queues_exec (c := .host c) id w).1]
  | redis c =>
      cases c with
      | zadd k xs => exact advance_zadd h hc
      | zrem k u' => exact advance_zrem h hc
      | zpopmin k n => exact advance_zpopmin h k n
      | multiJoin k u' joinedAt state => exact advance_multiJoin h hc.2
      | multiMarkMatched a b id ttl => exact advance_multiMarkMatched h hc
      | del ks => exact advance_del h hc
      | releaseLock k r => exact advance_releaseLock h hc.1 fun hk j hj => (hc.2 hk j hj).1
      | set k r ttl => exact advance_key h (fun htouch => hc u htouch.symm) id rfl rfl
      | setNX k r ttl => exact advance_key h (fun htouch => hc u htouch.symm) id rfl rfl
      | srem k => exact advance_stay (h.congr rfl fun _ => Iff.rfl) rfl rfl rfl rfl rfl
      | _ => exact advance_key h id id rfl rfl

end Advance

end VerityBackend.Matchmaking
