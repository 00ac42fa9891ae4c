/-
VerityBackend.Matchmaking.Departure — users who delete their account.

`deleteAccount` removes what the database holds of a user and leaves Redis
alone: a user who waits stays in the sorted set without a row. A pass that
pops the user finds both entries, and fails when it creates the session; the
partner has been taken out of the set by then and is not put back. Both
cannot happen as long as nobody deletes an account while waiting.
-/
import Mathlib.Data.List.Induction
import VerityBackend.Backend.Deletion
import VerityBackend.Matchmaking.Bans

namespace VerityBackend.Matchmaking

open Async Store Queue

/-! ## Histories -/

inductive AccountAct where
  | act (a : Act System)
  | deleteAccount (userId : UserId)

def withAccounts (p : Past System) : AccountAct → Past System
  | .act a => p.next a
  | .deleteAccount userId => { p with world := p.world.deleteAccount userId }

/-- What a history with deletions leads to from an empty Redis. -/
def accountsAfter (w : World) (h : List AccountAct) : Past System :=
  h.foldl withAccounts (Past.initial (flushed w))

theorem accountsAfter_concat (w : World) (h : List AccountAct) (a : AccountAct) :
    accountsAfter w (h ++ [a]) = withAccounts (accountsAfter w h) a := List.foldl_concat ..

/-- Redis is left alone. -/
theorem redis_deleteAccount (u : UserId) (w : World) : (w.deleteAccount u).redis = w.redis := by
  unfold World.deleteAccount
  split <;> rfl

theorem users_deleteAccount (u v : UserId) (w : World) :
    (w.deleteAccount u).db.users v = if v = u then none else w.db.users v := by
  unfold World.deleteAccount
  split
  · rfl
  · next hnone =>
      split
      · next hv =>
          subst hv
          simpa [Db.hasUser] using hnone
      · rfl

theorem clock_deleteAccount (u : UserId) (w : World) : (w.deleteAccount u).clock = w.clock := by
  unfold World.deleteAccount
  split <;> rfl

theorem get_deleteAccount (u : UserId) (w : World) (k : RedisKey) :
    (w.deleteAccount u).get k = w.get k := by
  unfold World.get
  rw [redis_deleteAccount, clock_deleteAccount]

theorem zset_deleteAccount (u : UserId) (w : World) (k : QueueKey) :
    (w.deleteAccount u).zset k = w.zset k := by
  unfold World.zset
  rw [redis_deleteAccount]

theorem queued_deleteAccount (u v : UserId) (w : World) :
    (board (w.deleteAccount u)).queued v = (board w).queued v := by
  unfold board Board.queued World.stored
  dsimp only
  rw [redis_deleteAccount]

/-- Who does not wait may go. -/
theorem Settled.deleteAccount {w : World} (h : Settled w) {u : UserId}
    (hout : ∀ k, u ∉ w.zset k) : Settled (w.deleteAccount u) where
  waiting := by
    have hentries : (board (w.deleteAccount u)).entries = (board w).entries := by
      unfold board World.stored
      dsimp only
      rw [redis_deleteAccount]
    refine ⟨fun v k => ?_, fun v e he => ?_, fun v e he => ?_, fun v k hq => ?_, fun v k hq => ?_⟩
    · rw [queued_deleteAccount]
      change v ∈ (w.deleteAccount u).zset k ↔ _
      rw [zset_deleteAccount]
      exact h.waiting.member v k
    · exact h.waiting.permanent v e (by rwa [← hentries])
    · rw [queued_deleteAccount]
      exact h.waiting.parses v e (by rwa [← hentries])
    · rw [queued_deleteAccount] at hq
      change k ∈ (w.deleteAccount u).redis.queueKeys
      rw [redis_deleteAccount]
      exact h.waiting.listed v k hq
    · rw [queued_deleteAccount] at hq
      have hne : v ≠ u := by
        rintro rfl
        exact hout k ((h.waiting.mem_zset v k).mpr hq)
      change ((w.deleteAccount u).db.users v).isSome
      rw [users_deleteAccount, if_neg hne]
      exact h.waiting.known v k hq
  unlocked v := (get_deleteAccount u w _).trans (h.unlocked v)

/-! ## Runs -/

/-- A pass of the worker ends without an error, and takes nobody out of the
queue without a session for them. -/
structure Spares (r : Record System) : Prop where
  succeeds : ∃ a, r.result = .ok a
  keeps : ∃ new, r.after.db.sessions = r.before.db.sessions ++ new ∧
    ∀ k, ∀ v ∈ r.before.zset k, v ∈ r.after.zset k ∨ new.any (takesPart v)

/-- Who waits has a row in `User`, and no pass does harm to anybody who
waits. -/
structure QueuedExist (w : World) (h : List AccountAct) : Prop where
  exist : ∀ h₁ h₂, h = h₁ ++ h₂ → ∀ k, ∀ u ∈ (accountsAfter w h₁).world.zset k,
    (accountsAfter w h₁).world.db.hasUser u = true
  spared : ∀ r ∈ (accountsAfter w h).done, ∀ k, r.op = .processQueueKey k → Spares r

/-- No user deletes the account while waiting. -/
def LeavesFirst (w : World) (h : List AccountAct) : Prop :=
  ∀ h₁ u h₂, h = h₁ ++ .deleteAccount u :: h₂ → (accountsAfter w h₁).world.db.hasUser u = true →
    ∀ k, u ∉ (accountsAfter w h₁).world.zset k

theorem Called.spares {k : QueueKey} {r : Except Err Unit} {p p' : Past System}
    (h : Called (.processQueueKey k) r p p') (hok : r = .ok ()) :
    Spares ⟨.processQueueKey k, r, p.world, p'.world⟩ := by
  have hworked : Worked k p.toSnap p'.toSnap := h.effect
  obtain ⟨new, hsessions, -, hqueued⟩ := hworked.paired.matched
  refine ⟨⟨(), hok⟩, new, hsessions, fun k' v hv => ?_⟩
  cases hnew : new.any (takesPart v) with
  | true => exact .inr rfl
  | false =>
      refine .inl ((h.after.waiting.mem_zset v k').mpr ?_)
      rw [hqueued, hnew]
      exact (h.before.waiting.mem_zset v k').mp hv

/-- Between two acts the queue is settled, and the passes so far have spared
everybody. -/
structure Sound (p : Past System) : Prop where
  settled : Settled p.world
  spared : ∀ r ∈ p.done, ∀ k, r.op = .processQueueKey k → Spares r

/-- **Step lemma.** -/
theorem Sound.next {p : Past System} (h : Sound p) (a : AccountAct)
    (hleaves : ∀ u, a = .deleteAccount u → p.world.db.hasUser u = true → ∀ k, u ∉ p.world.zset k) :
    Sound (withAccounts p a) := by
  cases a with
  | deleteAccount u =>
      refine ⟨?_, h.spared⟩
      by_cases hhas : p.world.db.hasUser u = true
      · exact h.settled.deleteAccount (hleaves u rfl hhas)
      · have hsame : p.world.deleteAccount u = p.world := if_neg hhas
        change Settled (p.world.deleteAccount u)
        rw [hsame]
        exact h.settled
  | act a =>
      cases a with
      | env e => exact ⟨h.settled.env e, h.spared⟩
      | call o gaps =>
          obtain ⟨r, hcalled⟩ := Past.called h.settled o gaps
          refine ⟨hcalled.after, fun r' hr' k hop => ?_⟩
          change r' ∈ (p.call o gaps).done at hr'
          rw [hcalled.done] at hr'
          rcases List.mem_cons.mp hr' with rfl | hr'
          · subst hop
            have hpass := processQueueKey_spec (V := matchmaking) (o := .processQueueKey k)
              (i := p.done.length) (k := k) h.settled.waiting h.settled.unlocked
            obtain ⟨r', hdone, hok, -⟩ := Past.call_spec hpass gaps
            have hrecord := (List.cons.inj (hcalled.done.symm.trans hdone)).1
            simp only [Record.mk.injEq, heq_eq_eq, true_and, and_true] at hrecord
            exact hcalled.spares (hrecord.trans hok)
          · exact h.spared r' hr' k hop

theorem LeavesFirst.of_append {w : World} {h h' : List AccountAct} (hl : LeavesFirst w (h ++ h')) :
    LeavesFirst w h := fun h₁ u h₂ hh => hl h₁ u (h₂ ++ h') (by rw [hh, List.append_assoc]; rfl)

theorem sound_initial (w : World) : Sound (Past.initial (flushed w)) where
  settled := settled_flushed w
  spared _ hr := nomatch hr

/-- **Run lemma.** -/
theorem sound_after {w : World} {h : List AccountAct} (hl : LeavesFirst w h) :
    Sound (accountsAfter w h) := by
  induction h using List.reverseRecOn with
  | nil => exact sound_initial w
  | append_singleton h a ih =>
      rw [accountsAfter_concat]
      exact (ih hl.of_append).next a fun u hu => hl h u [] (by rw [hu])

/-- **When queued users exist.** In every history from an empty Redis, whoever
is in the sorted set of a queue has a row in `User` at every moment, and no
pass of the worker fails or drops anybody, exactly if no user who waits
deletes the account. -/
theorem queuedExist_iff_leavesFirst (w : World) (h : List AccountAct) :
    QueuedExist w h ↔ LeavesFirst w h := by
  constructor
  · intro hexist h₁ u h₂ hh hhas k hu
    have hnext : h = (h₁ ++ [.deleteAccount u]) ++ h₂ := by
      rw [hh, List.append_assoc]
      rfl
    have hworld : (accountsAfter w (h₁ ++ [.deleteAccount u])).world =
        (accountsAfter w h₁).world.deleteAccount u := by
      rw [accountsAfter_concat]
      rfl
    -- the deletion leaves `u` in the set, and no row
    have hrow := hexist.exist _ h₂ hnext k u (by rw [hworld, zset_deleteAccount]; exact hu)
    rw [hworld] at hrow
    unfold Db.hasUser at hrow
    rw [users_deleteAccount, if_pos rfl] at hrow
    cases hrow
  · intro hl
    refine ⟨fun h₁ h₂ hh k u hu => ?_, (sound_after hl).spared⟩
    rw [hh] at hl
    have hwaiting := (sound_after hl.of_append).settled.waiting
    exact hwaiting.known u k ((hwaiting.mem_zset u k).mp hu)

/-- ann and bob wait; ann deletes the account, and the worker comes. -/
def deletedWhileWaiting : List AccountAct :=
  [.act (instantly (.joinQueue "ann" anywhere)),
    .act (instantly (.joinQueue "bob" anywhere)),
    .deleteAccount "ann",
    .act (instantly (.processQueueKey "canberra:p"))]

/-- The pass fails on ann, and bob is in no queue and no session: his entry
says that he waits, and nobody will find him. -/
theorem queued_dropped : ¬QueuedExist people deletedWhileWaiting := by
  intro hexist
  have hspares := hexist.spared ((accountsAfter people deletedWhileWaiting).done.head (by decide +kernel))
    (List.head_mem _) "canberra:p" (by decide +kernel)
  obtain ⟨new, hsessions, hkept⟩ := hspares.keeps
  have hnone : ((accountsAfter people deletedWhileWaiting).done.head
      (by decide +kernel)).after.db.sessions = [] := by decide +kernel
  obtain ⟨-, rfl⟩ := List.append_eq_nil_iff.mp (hsessions.symm.trans hnone)
  have hbob := hkept "canberra:p" "bob" (by decide +kernel)
  revert hbob
  decide +kernel

end VerityBackend.Matchmaking
