/-
VerityBackend.Backend.Service — the backend as an interleaved system, and
the identifiers its calls draw.

A `Service` is a choice of operations that may be called. Whatever they
are, an identifier drawn with `randomUUID` belongs to the call that drew
it: `handed_unique` holds in every configuration because the counter of
`World.nextId` never goes back.
-/
import VerityBackend.Async.Discipline
import VerityBackend.Backend.Commands

namespace VerityBackend

open Async

structure Service where
  Op : Type
  Ret : Op → Type
  code : (o : Op) → Prog (Ret o)

@[reducible] def Service.system (V : Service) : System where
  Cmd := Cmd
  Res := Cmd.Res
  Err := Err
  World := World
  exec := Cmd.exec
  Op := V.Op
  Ret := V.Ret
  code := V.code
  Env := Env
  env := World.env

/-! ## Obligations of the three kinds of command -/

section Obligations

variable {V : Service} {D : Discipline V.system} {o : V.Op} {i : Nat} {β : Type}
  {Q : Except Err β → Snap V.system → Prop} {s : Snap V.system}

theorem valid_redis {c : RedisCmd} {f : c.Res → Prog β}
    (h : ∀ s', D.rely i s s' → D.inv s' → D.admits o i (.redis c) s' →
      D.Keeps o i (.redis c) s' ∧
        D.Valid o i (f (c.exec s'.world).1) Q (s'.exec i (.redis c))) :
    D.Valid o i ((redis c).bind f) Q s :=
  Discipline.valid_await h

theorem valid_prisma {c : DbCmd} {f : c.Res → Prog β}
    (h : ∀ s', D.rely i s s' → D.inv s' → D.admits o i (.db c) s' →
      D.Keeps o i (.db c) s' ∧ D.Resumes o i f Q (c.exec s'.world).1 (s'.exec i (.db c))) :
    D.Valid o i ((prisma c).bind f) Q s :=
  Discipline.valid_await h

theorem valid_host {c : HostCmd} {f : c.Res → Prog β}
    (h : ∀ s', D.rely i s s' → D.inv s' → D.admits o i (.host c) s' →
      D.Keeps o i (.host c) s' ∧ D.Resumes o i f Q (c.exec s'.world).1 (s'.exec i (.host c))) :
    D.Valid o i ((host c).bind f) Q s :=
  Discipline.valid_await h

end Obligations

/-! ## Frames -/

/-- Prisma leaves Redis alone. -/
theorem DbCmd.exec_redis (c : DbCmd) (w : World) :
    (c.exec w).2.redis = w.redis ∧ (c.exec w).2.clock = w.clock := by
  cases c <;> simp only [DbCmd.exec, World.create, World.mapDb] <;>
    first
    | exact ⟨rfl, rfl⟩
    | (repeat' split) <;> simp

theorem DbCmd.get_exec (c : DbCmd) (w : World) (k : RedisKey) :
    (c.exec w).2.get k = w.get k := by
  obtain ⟨hredis, hclock⟩ := c.exec_redis w
  unfold World.get
  rw [hredis, hclock]

/-- Redis leaves the database alone. -/
theorem RedisCmd.exec_db (c : RedisCmd) (w : World) : (c.exec w).2.db = w.db := by
  cases c with
  | setNX k v ttl => simp only [RedisCmd.exec]; split <;> rfl
  | del ks =>
      simp only [RedisCmd.exec]
      induction ks generalizing w with
      | nil => rfl
      | cons k ks ih => exact ih (w.del k)
  | releaseLock k v => simp only [RedisCmd.exec]; split <;> rfl
  | pexpireChoices id ttl => simp only [RedisCmd.exec, World.expireChoices]; split <;> rfl
  | _ => rfl

/-- Synchronous code leaves Redis and the database alone. -/
theorem HostCmd.exec_redis (c : HostCmd) (w : World) :
    (c.exec w).2.redis = w.redis ∧ (c.exec w).2.clock = w.clock ∧ (c.exec w).2.db = w.db := by
  cases c <;> exact ⟨rfl, rfl, rfl⟩

theorem HostCmd.get_exec (c : HostCmd) (w : World) (k : RedisKey) :
    (c.exec w).2.get k = w.get k := by
  obtain ⟨hredis, hclock, -⟩ := c.exec_redis w
  unfold World.get
  rw [hredis, hclock]

/-! ## Identifiers -/

theorem RedisCmd.exec_nextId (c : RedisCmd) (w : World) : (c.exec w).2.nextId = w.nextId := by
  cases c with
  | setNX k v ttl => simp only [RedisCmd.exec]; split <;> rfl
  | del ks =>
      simp only [RedisCmd.exec]
      induction ks generalizing w with
      | nil => rfl
      | cons k ks ih => exact ih (w.del k)
  | releaseLock k v => simp only [RedisCmd.exec]; split <;> rfl
  | pexpireChoices id ttl => simp only [RedisCmd.exec, World.expireChoices]; split <;> rfl
  | _ => rfl

theorem DbCmd.nextId_le_exec (c : DbCmd) (w : World) : w.nextId ≤ (c.exec w).2.nextId := by
  cases c <;> simp only [DbCmd.exec, World.create, World.mapDb] <;>
    first
    | exact Nat.le_refl _
    | (repeat' split) <;> simp

theorem HostCmd.nextId_le_exec (c : HostCmd) (w : World) : w.nextId ≤ (c.exec w).2.nextId := by
  cases c <;> simp [HostCmd.exec]

/-- The counter never goes back. -/
theorem Cmd.nextId_le_exec (c : Cmd) (w : World) : w.nextId ≤ (c.exec w).2.nextId := by
  cases c with
  | redis c => exact Nat.le_of_eq (c.exec_nextId w).symm
  | db c => exact c.nextId_le_exec w
  | host c => exact c.nextId_le_exec w

section Handed

variable {V : Service}

/-- Call `i` has drawn the identifier `v`. -/
def Handed (s : Snap V.system) (i : Nat) (v : String) : Prop :=
  ∃ e ∈ s.trace, e.call = i ∧ e.cmd = .host .randomUUID ∧ v = freshId e.before.nextId

/-- What has been drawn lies behind the counter, and belongs to one call. -/
structure HandedInv (s : Snap V.system) : Prop where
  behind : ∀ i v, Handed s i v → ∃ n < s.world.nextId, v = freshId n
  unique : ∀ i j v, Handed s i v → Handed s j v → i = j

theorem handed_exec {s : Snap V.system} {i j : Nat} {c : Cmd} {v : String} :
    Handed (s.exec i c) j v ↔
      Handed s j v ∨ (j = i ∧ c = .host .randomUUID ∧ v = freshId s.world.nextId) := by
  simp only [Handed, Snap.exec_trace, List.mem_cons]
  constructor
  · rintro ⟨e, rfl | he, hcall, hcmd, hv⟩
    · exact .inr ⟨hcall.symm, hcmd, hv⟩
    · exact .inl ⟨e, he, hcall, hcmd, hv⟩
  · rintro (⟨e, he, h⟩ | ⟨rfl, hc, hv⟩)
    · exact ⟨e, .inr he, h⟩
    · exact ⟨_, .inl rfl, rfl, hc, hv⟩

theorem Handed.mono {s s' : Snap V.system} {i : Nat} {v : String}
    (htrace : s.trace <:+ s'.trace) (h : Handed s i v) : Handed s' i v := by
  obtain ⟨e, he, hdrawn⟩ := h
  exact ⟨e, htrace.subset he, hdrawn⟩

theorem handedInv_initial (w : World) : HandedInv (⟨w, []⟩ : Snap V.system) where
  behind := by rintro i v ⟨e, he, -⟩; cases he
  unique := by rintro i j v ⟨e, he, -⟩; cases he

/-- Drawing an identifier, and every other command, keeps them apart. -/
theorem HandedInv.exec {s : Snap V.system} (h : HandedInv s) (i : Nat) (c : Cmd) :
    HandedInv (s.exec i c) := by
  have hle : s.world.nextId ≤ (s.exec i c).world.nextId := c.nextId_le_exec s.world
  constructor
  · intro j v hv
    rcases handed_exec.mp hv with hv | ⟨-, rfl, rfl⟩
    · obtain ⟨n, hn, rfl⟩ := h.behind j v hv
      exact ⟨n, by omega, rfl⟩
    · exact ⟨s.world.nextId, Nat.lt_succ_self _, rfl⟩
  · intro j k v hj hk
    rcases handed_exec.mp hj with hj | ⟨rfl, hc, hv⟩
    · rcases handed_exec.mp hk with hk | ⟨-, -, rfl⟩
      · exact h.unique j k v hj hk
      · obtain ⟨n, hn, heq⟩ := h.behind j _ hj
        have := freshId_injective heq
        omega
    · rcases handed_exec.mp hk with hk | ⟨rfl, -, -⟩
      · obtain ⟨n, hn, heq⟩ := h.behind k v hk
        have := freshId_injective (hv.symm.trans heq)
        omega
      · rfl

theorem HandedInv.env {s : Snap V.system} (h : HandedInv s) (e : Env) :
    HandedInv (⟨s.world.env e, s.trace⟩ : Snap V.system) := by
  cases e
  exact ⟨h.behind, h.unique⟩

end Handed

end VerityBackend
