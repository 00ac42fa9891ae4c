/-
VerityBackend.Matchmaking.Locks — the lock of a user.

`queue:lock:<user>` is taken with `SET NX` under a value drawn for it and
released by whoever still finds this value there. A call holds the lock from
the one to the other (`lockOf`, read off the commands the call has executed).
As long as the key does not expire, what a call holds is what is stored
(`LockInv`), so no two calls hold the lock of one user (`LockInv.unique`).
-/
import VerityBackend.Backend.Frames

namespace VerityBackend.Matchmaking

open Async Store

variable {V : Service}

/-- The value under which a call holds the lock of the user, by what the
call has executed, newest first. -/
def lockOf (u : UserId) : List (Entry V.system) → Option String
  | [] => none
  | e :: older =>
      match e.cmd with
      | .redis (.setNX (.queueLock u') (.text v) _) =>
          if u' = u ∧ e.before.get (.queueLock u) = none then some v else lockOf u older
      | .redis (.releaseLock (.queueLock u') _) => if u' = u then none else lockOf u older
      | _ => lockOf u older

def Holding (u : UserId) (s : Snap V.system) (i : Nat) (v : String) : Prop :=
  lockOf u (s.own i) = some v

section Holding

variable {u : UserId} {s : Snap V.system} {i j : Nat} {v : String} {c : Cmd}

theorem holding_exec_ne (h : j ≠ i) : Holding u (s.exec i c) j v ↔ Holding u s j v := by
  unfold Holding
  rw [s.exec_own_ne c h]

/-- Only the commands on the key of the lock count. -/
theorem holding_exec_of_not_touches (h : ¬c.touches (.queueLock u)) :
    Holding u (s.exec i c) j v ↔ Holding u s j v := by
  by_cases hj : j = i
  · subst hj
    unfold Holding
    rw [Snap.exec_own_self]
    cases c with
    | db c => rfl
    | host c => rfl
    | redis c =>
        cases c with
        | setNX k r ttl =>
            cases k with
            | queueLock u' =>
                have hne : u' ≠ u := by
                  rintro rfl
                  exact h rfl
                cases r with
                | text v' => simp only [lockOf, hne, false_and, if_false]
                | _ => rfl
            | _ => rfl
        | releaseLock k r =>
            cases k with
            | queueLock u' =>
                have hne : u' ≠ u := by
                  rintro rfl
                  exact h rfl
                simp only [lockOf, hne, if_false]
            | _ => rfl
        | _ => rfl
  · exact holding_exec_ne hj

theorem holding_setNX {ttl : Nat} {v' : String} :
    Holding u (s.exec i (.redis (.setNX (.queueLock u) (.text v) ttl))) i v' ↔
      if s.world.get (.queueLock u) = none then v' = v else Holding u s i v' := by
  unfold Holding
  rw [Snap.exec_own_self]
  simp only [lockOf, true_and]
  split
  · rw [Option.some.injEq, eq_comm]
  · rfl

theorem not_holding_releaseLock {r : RedisString} :
    ¬Holding u (s.exec i (.redis (.releaseLock (.queueLock u) r))) i v := by
  unfold Holding
  rw [Snap.exec_own_self]
  simp [lockOf]

end Holding

/-! ## The lock excludes -/

/-- What is held is what is stored, and was drawn by the holder. -/
structure LockInv (u : UserId) (s : Snap V.system) : Prop where
  handed : HandedInv s
  held : ∀ i v, Holding u s i v → s.world.get (.queueLock u) = some (.text v) ∧ Handed s i v

/-- A call takes and releases the lock with a value of its own. -/
def LockProper (u : UserId) (s : Snap V.system) (i : Nat) : Cmd → Prop
  | .redis (.setNX k r ttl) => k = .queueLock u → 0 < ttl ∧ ∃ v, r = .text v ∧ Handed s i v
  | .redis (.releaseLock k r) => k = .queueLock u → ∃ v, r = .text v ∧ Handed s i v
  | c => ¬c.touches (.queueLock u)

namespace LockInv

variable {u : UserId} {s : Snap V.system} {i j : Nat} {v v' : String}

theorem initial (w : World) : LockInv u (⟨w, []⟩ : Snap V.system) :=
  ⟨handedInv_initial w, fun _ _ h => by cases h⟩

/-- Two calls never hold the lock of one user at once. -/
theorem unique (h : LockInv u s) (hi : Holding u s i v) (hj : Holding u s j v') : i = j := by
  obtain ⟨hget, hhanded⟩ := h.held i v hi
  obtain ⟨hget', hhanded'⟩ := h.held j v' hj
  rw [hget, Option.some.injEq, RedisString.text.injEq] at hget'
  subst hget'
  exact h.handed.unique i j v hhanded hhanded'

/-- Taking the lock. -/
theorem setNX (h : LockInv u s) {ttl : Nat} (httl : 0 < ttl) (hhanded : Handed s i v) :
    LockInv u (s.exec i (.redis (.setNX (.queueLock u) (.text v) ttl))) := by
  refine ⟨h.handed.exec i _, fun j v' hj => ?_⟩
  have hmono {v : String} (hv : Handed s j v) :
      Handed (s.exec i (.redis (.setNX (.queueLock u) (.text v') ttl))) j v := handed_exec.mpr (.inl hv)
  cases hget : s.world.get (.queueLock u) with
  | none =>
      have hji : j = i := by
        by_contra hne
        have hold := (h.held j v' ((holding_exec_ne hne).mp hj)).1
        rw [hget] at hold
        cases hold
      subst hji
      rw [holding_setNX, if_pos hget] at hj
      subst hj
      refine ⟨?_, handed_exec.mpr (.inl hhanded)⟩
      simp only [Snap.exec_world, Cmd.exec_redis, RedisCmd.exec, hget]
      exact World.get_set_self (by rintro t ⟨⟩; exact httl)
  | some r =>
      have hold : Holding u s j v' := by
        by_cases hji : j = i
        · subst hji
          rwa [holding_setNX, if_neg (by rw [hget]; exact Option.some_ne_none r)] at hj
        · exact (holding_exec_ne hji).mp hj
      obtain ⟨hstored, hhanded'⟩ := h.held j v' hold
      refine ⟨?_, handed_exec.mpr (.inl hhanded')⟩
      simp only [Snap.exec_world, Cmd.exec_redis, RedisCmd.exec, hget]
      rw [← hget]
      exact hstored

/-- Releasing it: the key of somebody else's value is left alone. -/
theorem releaseLock (h : LockInv u s) (hhanded : Handed s i v) :
    LockInv u (s.exec i (.redis (.releaseLock (.queueLock u) (.text v)))) := by
  refine ⟨h.handed.exec i _, fun j v' hj => ?_⟩
  have hji : j ≠ i := by
    rintro rfl
    exact not_holding_releaseLock hj
  obtain ⟨hstored, hhanded'⟩ := h.held j v' ((holding_exec_ne hji).mp hj)
  have hother : s.world.get (.queueLock u) ≠ some (.text v) := by
    intro hget
    rw [hstored, Option.some.injEq, RedisString.text.injEq] at hget
    subst hget
    exact hji (h.handed.unique j i v' hhanded' hhanded)
  refine ⟨?_, handed_exec.mpr (.inl hhanded')⟩
  simp only [Snap.exec_world, Cmd.exec_redis, RedisCmd.exec, if_neg hother]
  exact hstored

theorem exec (h : LockInv u s) {c : Cmd} (hc : LockProper u s i c) : LockInv u (s.exec i c) := by
  by_cases htouch : c.touches (.queueLock u)
  · cases c with
    | db c => exact htouch.elim
    | host c => exact htouch.elim
    | redis c =>
        cases c with
        | setNX k r ttl =>
            obtain rfl : RedisKey.queueLock u = k := htouch
            obtain ⟨httl, v, rfl, hhanded⟩ := hc rfl
            exact h.setNX httl hhanded
        | releaseLock k r =>
            obtain rfl : RedisKey.queueLock u = k := htouch
            obtain ⟨v, rfl, hhanded⟩ := hc rfl
            exact h.releaseLock hhanded
        | _ => exact (hc htouch).elim
  · refine ⟨h.handed.exec i c, fun j v hj => ?_⟩
    obtain ⟨hstored, hhanded⟩ := h.held j v ((holding_exec_of_not_touches htouch).mp hj)
    refine ⟨?_, handed_exec.mpr (.inl hhanded)⟩
    rw [← hstored]
    exact World.get_congr (Cmd.stored_exec htouch _) (Cmd.clock_exec c _)

/-- Time passes, and the lock is not lost while it is held. -/
theorem env (h : LockInv u s) {e : Env}
    (hkept : ∀ i v, Holding u s i v → ((s.world.env e).get (.queueLock u)).isSome) :
    LockInv u (⟨s.world.env e, s.trace⟩ : Snap V.system) := by
  refine ⟨h.handed.env e, fun j v hj => ?_⟩
  obtain ⟨hstored, hhanded⟩ := h.held j v hj
  refine ⟨?_, hhanded⟩
  obtain ⟨r, hr⟩ := Option.isSome_iff_exists.mp (hkept j v hj)
  cases e with
  | tick ms => rw [hr, ← hstored, World.get_of_get_tick hr]

end LockInv

end VerityBackend.Matchmaking
