/-
VerityBackend.Queue.UserLocks — whose lock is it?

`lockUsers` takes the locks of a list of users one by one, and gives all of
them back when one is missing; `releaseUserLocks` gives back what a call of
`lockUsers` has returned. A lock that expires in between may be taken by
somebody else, so a lock is only ever given back under the value it was
taken with. Nothing is asked of the other clients but that they draw the
values they write.
-/
import VerityBackend.Backend.Frames
import VerityBackend.Queue.Service

namespace VerityBackend.Queue

open Async Store

/-- `locks` is the map that call `call` of `lockUsers` has returned.
`acquireLock` and `releaseLock` are the other clients'. -/
inductive LockOp where
  | lockUsers (userIds : List UserId)
  | releaseUserLocks (call : Nat) (locks : List (UserId × String))
  | acquireLock (userId : UserId)
  | releaseLock (userId : UserId) (lockValue : String)
  deriving DecidableEq, Repr

abbrev LockOp.Ret : LockOp → Type
  | .lockUsers _ => Option (List (UserId × String))
  | .releaseUserLocks _ _ => Unit
  | .acquireLock _ => Option String
  | .releaseLock _ _ => Unit

def LockOp.code : (o : LockOp) → Prog o.Ret
  | .lockUsers userIds => Queue.lockUsers userIds
  | .releaseUserLocks _ locks => Queue.releaseUserLocks locks
  | .acquireLock userId => Queue.acquireLock userId
  | .releaseLock userId lockValue => Queue.releaseLock userId lockValue

@[reducible] def lockService : Service where
  Op := LockOp
  Ret := LockOp.Ret
  code := LockOp.code

/-- Whose locks a call of `lockUsers` or `releaseUserLocks` may give back. -/
def LockOp.writer (i : Nat) : LockOp → Option Nat
  | .lockUsers _ => some i
  | .releaseUserLocks call _ => some call
  | _ => none

/-! ## Locks that have been written -/

/-- The command takes the lock of the user under this value: the key was
free, and has the value from then on. -/
structure Acquires (e : Entry lockService.system) (u : UserId) (v : String) : Prop where
  cmd : e.cmd = .redis (.setNX (.queueLock u) (.text v) LOCK_TTL_MS)
  free : e.before.get (.queueLock u) = none
  held : e.after.get (.queueLock u) = some (.text v)

/-- Call `i` has taken the lock of the user under this value. -/
def Wrote (s : Snap lockService.system) (i : Nat) (u : UserId) (v : String) : Prop :=
  ∃ e ∈ s.own i, Acquires e u v

section Wrote

variable {s : Snap lockService.system} {i j : Nat} {c : Cmd} {u : UserId} {v : String}

theorem wrote_exec : Wrote (s.exec i c) j u v ↔ Wrote s j u v ∨
    (j = i ∧ c = .redis (.setNX (.queueLock u) (.text v) LOCK_TTL_MS) ∧
      s.world.get (.queueLock u) = none) := by
  by_cases hj : j = i
  · subst hj
    unfold Wrote
    rw [Snap.exec_own_self]
    constructor
    · rintro ⟨e, he, hacq⟩
      rcases List.mem_cons.mp he with rfl | he
      · exact .inr ⟨rfl, hacq.cmd, hacq.free⟩
      · exact .inl ⟨e, he, hacq⟩
    · rintro (⟨e, he, hacq⟩ | ⟨-, rfl, hfree⟩)
      · exact ⟨e, .tail _ he, hacq⟩
      · refine ⟨_, .head _, rfl, hfree, ?_⟩
        simp only [Entry.after, Cmd.exec_redis, RedisCmd.exec, hfree]
        exact World.get_set_self (by rintro t ⟨⟩; decide)
  · unfold Wrote
    rw [Snap.exec_own_ne s c hj]
    exact ⟨.inl, fun h => h.resolve_right fun h' => hj h'.1⟩

theorem Wrote.mono {s' : Snap lockService.system} (htrace : s.trace <:+ s'.trace)
    (h : Wrote s i u v) : Wrote s' i u v := by
  obtain ⟨e, he, hacq⟩ := h
  obtain ⟨hmem, hcall⟩ := List.mem_filter.mp he
  exact ⟨e, List.mem_filter.mpr ⟨htrace.subset hmem, hcall⟩, hacq⟩

end Wrote

/-! ## The discipline -/

/-- Values are written by who has drawn them. While a call is suspended, a
value it has written and that is gone does not come back. `guar` is what is
to be shown of a command that takes a lock away. -/
def custody : Discipline lockService.system where
  inv s := HandedInv s ∧ ∀ i u v, Wrote s i u v → Handed s i v
  admits _ _ _ _ := True
  rely i s s' := s.trace <:+ s'.trace ∧ (∀ u v, Wrote s' i u v ↔ Wrote s i u v) ∧
    ∀ u v, Wrote s i u v → s.world.get (.queueLock u) ≠ some (.text v) →
      s'.world.get (.queueLock u) ≠ some (.text v)
  guar o i c s := ∀ j, o.writer i = some j → ∀ u r, s.world.get (.queueLock u) = some r →
    (c.exec s.world).2.get (.queueLock u) ≠ some r → ∃ v, r = .text v ∧ Wrote s j u v
  rely_refl _ _ := ⟨List.suffix_refl _, fun _ _ => Iff.rfl, fun _ _ _ h => h⟩
  rely_trans _ _ _ _ h h' := ⟨h.1.trans h'.1, fun u v => (h'.2.1 u v).trans (h.2.1 u v),
    fun u v hv hgone => h'.2.2 u v ((h.2.1 u v).mpr hv) (h.2.2 u v hv hgone)⟩

section Commands

variable {s s' : Snap lockService.system} {o : LockOp} {i j : Nat} {c : Cmd} {u : UserId}
  {v : String}

/-- A command that writes no lock. -/
theorem custody_rely (hc : ∀ u, ¬c.writes (.queueLock u)) (j : Nat) :
    custody.rely j s (s.exec i c) := by
  refine ⟨List.suffix_cons _ _, fun u v => ?_, fun u v _ hgone hget => ?_⟩
  · rw [wrote_exec]
    refine ⟨fun h => h.resolve_right ?_, .inl⟩
    rintro ⟨-, rfl, -⟩
    exact hc u rfl
  · exact hgone (Cmd.get_of_get_exec (hc u) hget)

theorem custody_inv (h : custody.inv s) (hc : ∀ u, ¬c.writes (.queueLock u)) :
    custody.inv (s.exec i c) := by
  refine ⟨h.1.exec i c, fun j u v hv => ?_⟩
  exact handed_exec.mpr (.inl (h.2 j u v (((custody_rely hc j).2.1 u v).mp hv)))

theorem custody_draw (h : custody.inv s) : custody.Keeps o i (.host .randomUUID) s where
  guar _ _ _ _ hget hgone := absurd hget hgone
  inv := custody_inv h fun _ => id
  rely j _ := custody_rely (fun _ => id) j

theorem custody_releaseLock (h : custody.inv s)
    (hmine : ∀ j, o.writer i = some j → Wrote s j u v) :
    custody.Keeps o i (.redis (.releaseLock (.queueLock u) (.text v))) s where
  guar j hj u' r hget hgone := by
    by_cases hu : u' = u
    · subst hu
      by_cases hv : s.world.get (.queueLock u') = some (.text v)
      · rw [hget] at hv
        exact ⟨v, Option.some.inj hv, hmine j hj⟩
      · simp only [Cmd.exec_redis, RedisCmd.exec, if_neg hv] at hgone
        exact absurd hget hgone
    · have hne : RedisKey.queueLock u' ≠ .queueLock u := fun hk => hu (RedisKey.queueLock.inj hk)
      simp only [Cmd.exec_redis, RedisCmd.exec] at hgone
      split at hgone
      · rw [World.get_del_ne hne] at hgone
        exact absurd hget hgone
      · exact absurd hget hgone
  inv := custody_inv h fun _ => id
  rely j _ := custody_rely (fun _ => id) j

/-- The lock of the user is free, or the command does nothing. -/
theorem get_setNX (u' : UserId) :
    ((Cmd.redis (.setNX (.queueLock u) (.text v) LOCK_TTL_MS)).exec s.world).2.get (.queueLock u') =
      if u' = u ∧ s.world.get (.queueLock u) = none then some (.text v)
      else s.world.get (.queueLock u') := by
  simp only [Cmd.exec_redis, RedisCmd.exec]
  cases hget : s.world.get (.queueLock u) with
  | some r => rw [if_neg (fun h => Option.some_ne_none r h.2)]
  | none =>
      by_cases hu : u' = u
      · subst hu
        rw [if_pos ⟨rfl, rfl⟩]
        exact World.get_set_self (by rintro t ⟨⟩; decide)
      · rw [if_neg (fun h => hu h.1)]
        exact World.get_set_ne fun hk => hu (RedisKey.queueLock.inj hk)

theorem custody_setNX (h : custody.inv s) (hv : Handed s i v) :
    custody.Keeps o i (.redis (.setNX (.queueLock u) (.text v) LOCK_TTL_MS)) s where
  guar j hj u' r hget hgone := by
    rw [get_setNX] at hgone
    split at hgone
    · next hfree =>
        obtain ⟨rfl, hfree⟩ := hfree
        rw [hget] at hfree
        cases hfree
    · exact absurd hget hgone
  inv := by
    refine ⟨h.1.exec i _, fun j u' v' hw => handed_exec.mpr (.inl ?_)⟩
    rcases wrote_exec.mp hw with hold | ⟨rfl, hcmd, -⟩
    · exact h.2 j u' v' hold
    · cases hcmd
      exact hv
  rely j hj := by
    refine ⟨List.suffix_cons _ _, fun u' v' => ?_, fun u' v' hw hgone => ?_⟩
    · rw [wrote_exec]
      exact ⟨fun hor => hor.resolve_right fun hi => hj hi.1, .inl⟩
    · rw [Snap.exec_world, get_setNX]
      split
      · intro heq
        -- the value belongs to another call
        cases heq
        exact hj (h.1.unique j i v (h.2 j u' v hw) hv)
      · exact hgone

end Commands

/-! ## Taking a lock -/

section Procedures

variable {s s' : Snap lockService.system} {o : LockOp} {i : Nat} {u : UserId} {v : String}

/-- The call has just taken the lock under a value of its own that it has
not written before. -/
structure Taken (i : Nat) (u : UserId) (v : String) (s s' : Snap lockService.system) : Prop where
  wrote : ∀ u' v', Wrote s' i u' v' ↔ Wrote s i u' v' ∨ u' = u ∧ v' = v
  get : s'.world.get (.queueLock u) = some (.text v)
  new : ∀ u', ¬Wrote s i u' v
  gone : ∀ u' v', Wrote s i u' v' → u' = u ∨ s.world.get (.queueLock u') ≠ some (.text v') →
    s'.world.get (.queueLock u') ≠ some (.text v')

theorem custody_acquireLock {Q : Except Err (Option String) → Snap lockService.system → Prop}
    (hdenied : ∀ s', custody.rely i s s' → Q (.ok none) s')
    (hgranted : ∀ v s', Taken i u v s s' → Q (.ok (some v)) s') :
    custody.Valid o i (acquireLock u) Q s := by
  refine valid_host fun s₁ h₁ hinv₁ _ => ⟨custody_draw hinv₁, ?_⟩
  have hdraw : custody.rely i s (s₁.exec i (.host .randomUUID)) :=
    custody.rely_trans i _ _ _ h₁ (custody_rely (fun _ => id) i)
  have hnew : ∀ u', ¬Wrote s i u' (freshId s₁.world.nextId) := by
    intro u' hw
    obtain ⟨n, hn, heq⟩ := hinv₁.1.behind i _ (hinv₁.2 i u' _ ((h₁.2.1 _ _).mpr hw))
    exact absurd (freshId_injective heq) (Nat.ne_of_gt hn)
  have hhanded : Handed (s₁.exec i (.host .randomUUID)) i (freshId s₁.world.nextId) :=
    handed_exec.mpr (.inr ⟨rfl, rfl, rfl⟩)
  refine valid_redis fun s₂ h₂ hinv₂ _ =>
    ⟨custody_setNX hinv₂ (hhanded.mono h₂.1), ?_⟩
  have h : custody.rely i s s₂ := custody.rely_trans i _ _ _ hdraw h₂
  generalize freshId s₁.world.nextId = v at hnew
  cases hget : s₂.world.get (.queueLock u) with
  | some r =>
      have hanswer : ((RedisCmd.setNX (.queueLock u) (.text v) LOCK_TTL_MS).exec s₂.world) =
          (false, s₂.world) := by
        simp only [RedisCmd.exec, hget]
      rw [hanswer]
      refine hdenied _ (custody.rely_trans i _ _ _ h ⟨List.suffix_cons _ _, fun u' v' => ?_, ?_⟩)
      · rw [wrote_exec]
        refine ⟨fun hor => hor.resolve_right ?_, .inl⟩
        rintro ⟨-, hcmd, hfree⟩
        cases hcmd
        rw [hget] at hfree
        cases hfree
      · intro u' v' _ hgone
        rw [Snap.exec_world, get_setNX, if_neg (by rw [hget]; exact fun hn => Option.some_ne_none r hn.2)]
        exact hgone
  | none =>
      have hanswer : ((RedisCmd.setNX (.queueLock u) (.text v) LOCK_TTL_MS).exec s₂.world).1 =
          true := by
        simp only [RedisCmd.exec, hget]
      rw [hanswer]
      refine hgranted v _ ⟨fun u' v' => ?_, ?_, hnew, fun u' v' hw hor => ?_⟩
      · rw [wrote_exec, h.2.1]
        refine or_congr_right ⟨?_, ?_⟩
        · rintro ⟨-, hcmd, -⟩
          cases hcmd
          exact ⟨rfl, rfl⟩
        · rintro ⟨rfl, rfl⟩
          exact ⟨rfl, rfl, hget⟩
      · rw [Snap.exec_world, get_setNX, if_pos ⟨rfl, hget⟩]
      · rw [Snap.exec_world, get_setNX]
        split
        · intro heq
          cases heq
          exact hnew u' hw
        · next hne =>
            rcases hor with rfl | hgone
            · exact absurd ⟨rfl, hget⟩ hne
            · exact h.2.2 u' v' hw hgone

/-! ## Giving locks back -/

theorem custody_releaseUserLocks {locks : List (UserId × String)}
    (hmine : ∀ p ∈ locks, ∀ j, o.writer i = some j → Wrote s j p.1 p.2) :
    custody.Valid o i (releaseUserLocks locks) (fun r s' => r = .ok () ∧ custody.rely i s s' ∧
      ∀ p ∈ locks, Wrote s i p.1 p.2 → s'.world.get (.queueLock p.1) ≠ some (.text p.2)) s := by
  induction locks generalizing s with
  | nil => exact ⟨rfl, custody.rely_refl i s, fun _ hp => absurd hp List.not_mem_nil⟩
  | cons lock rest ih =>
      obtain ⟨u, v⟩ := lock
      refine valid_redis fun s₁ h₁ hinv₁ _ =>
        ⟨custody_releaseLock hinv₁ fun j hj => (hmine _ (.head _) j hj).mono h₁.1, ?_⟩
      have hrelease : custody.rely i s₁ (s₁.exec i (.redis (.releaseLock (.queueLock u) (.text v)))) :=
        custody_rely (fun _ => id) i
      have h₂ := custody.rely_trans i _ _ _ h₁ hrelease
      have hgone : (s₁.exec i (.redis (.releaseLock (.queueLock u) (.text v)))).world.get
          (.queueLock u) ≠ some (.text v) := by
        simp only [Snap.exec_world, Cmd.exec_redis, RedisCmd.exec]
        split
        · rw [World.get_del_self]
          exact (Option.some_ne_none _).symm
        · assumption
      refine (ih fun p hp j hj => (hmine p (.tail _ hp) j hj).mono h₂.1).weaken ?_
      rintro r s' ⟨rfl, h', hrest⟩
      refine ⟨rfl, custody.rely_trans i _ _ _ h₂ h', fun p hp hw => ?_⟩
      rcases List.mem_cons.mp hp with rfl | hp
      · exact h'.2.2 _ _ ((h₂.2.1 _ _).mpr hw) hgone
      · exact hrest p hp ((h₂.2.1 _ _).mpr hw)

/-! ## The locks taken so far -/

theorem keys_setLock {locks : List (UserId × String)} :
    (setLock u v locks).map (·.1) =
      if u ∈ locks.map (·.1) then locks.map (·.1) else locks.map (·.1) ++ [u] := by
  induction locks with
  | nil => rfl
  | cons lock rest ih =>
      obtain ⟨u', v'⟩ := lock
      rw [setLock]
      split
      · next hu => simp [hu]
      · next hu =>
          rw [List.map_cons, ih]
          by_cases hrest : u ∈ rest.map (·.1)
          · simp [hrest]
          · rw [if_neg hrest, if_neg]
            · rfl
            · rw [List.map_cons, List.mem_cons, not_or]
              exact ⟨Ne.symm hu, hrest⟩

theorem mem_setLock {locks : List (UserId × String)} (h : (locks.map (·.1)).Nodup)
    {p : UserId × String} : p ∈ setLock u v locks ↔ p = (u, v) ∨ p.1 ≠ u ∧ p ∈ locks := by
  induction locks with
  | nil => simp [setLock]
  | cons lock rest ih =>
      obtain ⟨u', v'⟩ := lock
      obtain ⟨hout, hrest⟩ := List.nodup_cons.mp h
      rw [setLock]
      split
      · next hu =>
          subst hu
          rw [List.mem_cons, List.mem_cons]
          refine or_congr_right ⟨fun hp => ⟨?_, .inr hp⟩, fun hp => hp.2.resolve_left ?_⟩
          · exact fun hpu => hout (List.mem_map.mpr ⟨p, hp, hpu⟩)
          · exact fun hpu => hp.1 (hpu ▸ rfl)
      · next hu =>
          rw [List.mem_cons, ih hrest, List.mem_cons]
          constructor
          · rintro (rfl | rfl | ⟨hne, hp⟩)
            · exact .inr ⟨hu, .inl rfl⟩
            · exact .inl rfl
            · exact .inr ⟨hne, .inr hp⟩
          · rintro (rfl | ⟨hne, rfl | hp⟩)
            · exact .inr (.inl rfl)
            · exact .inl rfl
            · exact .inr (.inr ⟨hne, hp⟩)

/-- The map of a call that has gone through the ids `done`: one value for each
of them. Values that the call has written and that are not in the map are
gone. -/
structure Kept (i : Nat) (done : List UserId) (locks : List (UserId × String))
    (s : Snap lockService.system) : Prop where
  keys : (locks.map (·.1)).Nodup
  ids : ∀ u, u ∈ locks.map (·.1) ↔ u ∈ done
  mine : ∀ p ∈ locks, Wrote s i p.1 p.2
  rest : ∀ u v, Wrote s i u v → (u, v) ∈ locks ∨ s.world.get (.queueLock u) ≠ some (.text v)

namespace Kept

variable {done : List UserId} {locks : List (UserId × String)}

theorem rely (h : Kept i done locks s) (hr : custody.rely i s s') : Kept i done locks s' where
  keys := h.keys
  ids := h.ids
  mine p hp := (hr.2.1 _ _).mpr (h.mine p hp)
  rest u v hw :=
    have hw' := (hr.2.1 u v).mp hw
    (h.rest u v hw').imp_right (hr.2.2 u v hw')

theorem add (h : Kept i done locks s) (ht : Taken i u v s s') :
    Kept i (done ++ [u]) (setLock u v locks) s' where
  keys := by
    rw [keys_setLock]
    split
    · exact h.keys
    · next hu =>
        refine List.nodup_append.mpr ⟨h.keys, List.nodup_singleton _, fun x hx y hy hxy => hu ?_⟩
        exact List.mem_singleton.mp hy ▸ hxy ▸ hx
  ids u' := by
    rw [keys_setLock, List.mem_append, List.mem_singleton, ← h.ids]
    split
    · next hu => exact ⟨.inl, fun hor => hor.elim id fun heq => heq ▸ hu⟩
    · rw [List.mem_append, List.mem_singleton]
  mine p hp := by
    rw [ht.wrote]
    rcases (mem_setLock h.keys).mp hp with rfl | ⟨-, hp⟩
    · exact .inr ⟨rfl, rfl⟩
    · exact .inl (h.mine p hp)
  rest u' v' hw := by
    rw [mem_setLock h.keys]
    rcases (ht.wrote u' v').mp hw with hold | ⟨rfl, rfl⟩
    · by_cases hu : u' = u
      · exact .inr (ht.gone u' v' hold (.inl hu))
      · rcases h.rest u' v' hold with hin | hgone
        · exact .inl (.inr ⟨hu, hin⟩)
        · exact .inr (ht.gone u' v' hold (.inr hgone))
    · exact .inl (.inl rfl)

end Kept

/-- What `lockUsers` promises. -/
def LockResult (i : Nat) (userIds : List UserId) (s : Snap lockService.system) :
    Option (List (UserId × String)) → Prop
  | none => ∀ u v, Wrote s i u v → s.world.get (.queueLock u) ≠ some (.text v)
  | some locks => Kept i userIds locks s

theorem custody_lockUsersFrom (ho : ∀ j, o.writer i = some j → j = i) (us : List UserId)
    {done : List UserId} {locks : List (UserId × String)} (h : Kept i done locks s) :
    custody.Valid o i (lockUsersFrom locks us)
      (fun r s' => ∃ locks, r = .ok locks ∧ LockResult i (done ++ us) s' locks) s := by
  induction us generalizing done locks s with
  | nil => exact ⟨some locks, rfl, by rwa [List.append_nil]⟩
  | cons u us ih =>
      refine Discipline.valid_bind (custody_acquireLock (fun s₁ h₁ => ?_) fun v s₁ ht => ?_)
      · have hkept := h.rely h₁
        refine Discipline.valid_bind ((custody_releaseUserLocks fun p hp j hj => ?_).weaken ?_)
        · exact ho j hj ▸ hkept.mine p hp
        · rintro r s₂ ⟨rfl, h₂, hreleased⟩
          refine ⟨none, rfl, fun u' v' hw => ?_⟩
          have hw₁ := (h₂.2.1 u' v').mp hw
          rcases hkept.rest u' v' hw₁ with hin | hgone
          · exact hreleased _ hin hw₁
          · exact h₂.2.2 u' v' hw₁ hgone
      · refine (ih (h.add ht)).weaken fun r s₂ hr => ?_
        rwa [List.append_assoc] at hr

end Procedures

/-! ## Every run -/

/-- What is given back has been returned by a call of `lockUsers`. -/
def Returned (c : Config lockService.system) : Event lockService.system → Prop
  | .start (.releaseUserLocks call locks) =>
      ∃ userIds, c.Settled call (.lockUsers userIds) (.ok (some locks))
  | _ => True

/-- The postcondition of each operation. -/
def LockPost : (o : LockOp) → Nat → Except Err o.Ret → Snap lockService.system → Prop
  | .lockUsers userIds, i, r, s => ∃ locks, r = .ok locks ∧ LockResult i userIds s locks
  | _, _, _, _ => True

/-- The locks that are given back have been written by the call. -/
def Backed (c : Config lockService.system) : Event lockService.system → Prop
  | .start (.releaseUserLocks call locks) => ∀ p ∈ locks, Wrote c.toSnap call p.1 p.2
  | _ => True

theorem custody_initial (w : World) : custody.inv (⟨w, []⟩ : Snap lockService.system) := by
  refine ⟨handedInv_initial w, ?_⟩
  rintro i u v ⟨e, he, -⟩
  cases he

theorem stable_lockPost : custody.Stable LockPost := by
  intro o i r s s' hr hQ
  cases o with
  | lockUsers userIds =>
      obtain ⟨locks, rfl, hresult⟩ := hQ
      refine ⟨locks, rfl, ?_⟩
      cases locks with
      | none => exact fun u v hw => hr.2.2 u v ((hr.2.1 u v).mp hw) (hresult u v ((hr.2.1 u v).mp hw))
      | some locks => exact hresult.rely hr
  | _ => trivial

theorem custody_governs : custody.Governs Backed LockPost where
  start c o hok hinv hown := by
    cases o with
    | lockUsers userIds =>
        have hnone : ∀ u v, ¬Wrote c.toSnap c.calls.length u v := by
          rintro u v ⟨e, he, -⟩
          rw [hown] at he
          cases he
        have hkept : Kept c.calls.length [] [] c.toSnap :=
          ⟨List.nodup_nil, fun _ => Iff.rfl, nofun, fun u v hw => absurd hw (hnone u v)⟩
        have hself : ∀ j, (LockOp.lockUsers userIds).writer c.calls.length = some j →
            j = c.calls.length := fun j hj => (Option.some.inj hj).symm
        exact custody_lockUsersFrom hself userIds hkept
    | releaseUserLocks call locks =>
        refine (custody_releaseUserLocks fun p hp j hj => ?_).weaken fun _ _ _ => trivial
        exact Option.some.inj hj ▸ hok p hp
    | acquireLock u => exact custody_acquireLock (fun _ _ => trivial) fun _ _ _ => trivial
    | releaseLock u v =>
        exact fun s _ hinv' _ => ⟨custody_releaseLock hinv' nofun, trivial⟩
  step _ _ _ _ _ _ _ _ := trivial
  env c e _ hinv := by
    cases e with
    | tick ms =>
        refine ⟨⟨hinv.1.env (.tick ms), hinv.2⟩, fun i => ⟨List.suffix_refl _, fun _ _ => Iff.rfl, ?_⟩⟩
        exact fun u v _ hgone hget => hgone (World.get_of_get_tick hget)

/-- What a run keeps: the obligations of the calls in flight, and the
postconditions of the calls that have settled. -/
def Guarded (c : Config lockService.system) : Prop :=
  custody.Sound LockPost c ∧ Discipline.Done LockPost c

theorem Guarded.backed {c : Config lockService.system} (h : Guarded c)
    {e : Event lockService.system} (hok : Returned c e) : Backed c e := by
  match e, hok with
  | .start (.releaseUserLocks call locks), ⟨userIds, hsettled⟩ =>
      obtain ⟨locks', heq, hresult⟩ := h.2 call _ _ hsettled
      cases heq
      exact hresult.mine
  | .start (.lockUsers _), _ => trivial
  | .start (.acquireLock _), _ => trivial
  | .start (.releaseLock _ _), _ => trivial
  | .step _, _ => trivial
  | .env _, _ => trivial

theorem guarded_run (w : World) {es : List (Event lockService.system)}
    (hes : (Config.initial w).Obeys Returned es) : Guarded ((Config.initial w).run es) := by
  refine Config.run_induct (P := Guarded) (fun c e hok h => ?_) es _ hes
    ⟨Discipline.sound_initial (custody_initial w), @Discipline.done_initial lockService.system LockPost w⟩
  have hbacked := h.backed hok
  exact ⟨h.1.next custody_governs hbacked, h.2.next custody_governs stable_lockPost hbacked h.1⟩

/-- The protocol of the locks, in one configuration. -/
structure RespectsOwnership (c : Config lockService.system) : Prop where
  /-- The next command of a call takes no lock away but one that was written by
  the call, or by the call whose map it gives back. -/
  deletes : ∀ (i : Nat) (o : LockOp) (cmd : Cmd) (k : Except Err cmd.Res → Prog o.Ret),
    c.calls[i]? = some ⟨o, .call cmd k⟩ → ∀ j, o.writer i = some j →
      ∀ u r, c.world.get (.queueLock u) = some r → (cmd.exec c.world).2.get (.queueLock u) ≠ some r →
        ∃ v, r = .text v ∧ Wrote c.toSnap j u v
  /-- Where `null` was returned, nothing is left. -/
  failed : ∀ i userIds, c.Settled i (.lockUsers userIds) (.ok none) → ∀ u v, Wrote c.toSnap i u v →
    c.world.get (.queueLock u) ≠ some (.text v)
  /-- A map has one value for each id of the list, under which the lock was
  taken. -/
  locked : ∀ i userIds locks, c.Settled i (.lockUsers userIds) (.ok (some locks)) →
    (locks.map (·.1)).Nodup ∧ (∀ u, u ∈ locks.map (·.1) ↔ u ∈ userIds) ∧
      ∀ p ∈ locks, Wrote c.toSnap i p.1 p.2
  /-- No command fails. -/
  answers : ∀ i userIds r, c.Settled i (.lockUsers userIds) r → ∃ locks, r = .ok locks

/-- **The locks of users are given back by who took them**, whatever the
order in which the commands are executed and the locks expire. -/
theorem respectsOwnership (w : World) (es : List (Event lockService.system))
    (hes : (Config.initial w).Obeys Returned es) :
    RespectsOwnership ((Config.initial w).run es) := by
  obtain ⟨hsound, hdone⟩ := guarded_run w hes
  refine ⟨fun i o cmd k hc j hj => ?_, fun i userIds hsettled => ?_,
    fun i userIds locks hsettled => ?_, fun i userIds r hsettled => ?_⟩
  · have hvalid := hsound.live i o cmd k hc _ (custody.rely_refl i _) hsound.inv trivial
    exact hvalid.1.guar j hj
  · obtain ⟨locks, heq, hresult⟩ := hdone i _ _ hsettled
    cases heq
    exact hresult
  · obtain ⟨locks', heq, hresult⟩ := hdone i _ _ hsettled
    cases heq
    exact ⟨hresult.keys, hresult.ids, hresult.mine⟩
  · obtain ⟨locks, rfl, -⟩ := hdone i _ _ hsettled
    exact ⟨locks, rfl⟩

/-- The lock of a user who is listed twice expires before it is taken the
second time: the map has the second value, and gives that one back. -/
theorem respectsOwnership_twice :
    let es : List (Event lockService.system) :=
      [.start (.lockUsers ["ann", "ann"]), .step 0, .step 0, .env (.tick 3000), .step 0, .step 0,
        .start (.releaseUserLocks 0 [("ann", freshId 1)]), .step 1]
    let c := (Config.initial World.empty : Config lockService.system).run es
    c.Settled 0 (.lockUsers ["ann", "ann"]) (.ok (some [("ann", freshId 1)])) ∧
      c.world.get (.queueLock "ann") = none ∧ RespectsOwnership c :=
  ⟨rfl, by decide +kernel, respectsOwnership World.empty _
    ⟨trivial, trivial, trivial, trivial, trivial, trivial, ⟨["ann", "ann"], rfl⟩, trivial, trivial⟩⟩

end VerityBackend.Queue
