/-
VerityBackend.Matchmaking.Alone — rules for a call that runs alone.

Each rule says what is left to prove after one more command of the call,
from a later moment: time has passed before the command, so the moment
after it is only known up to `Still`, or up to the command's effect on the
board. The user locks need no thought in an operation's own proof:
`alone_withLock` covers taking and giving back.
-/
import VerityBackend.Matchmaking.Board

namespace VerityBackend.Matchmaking

open Async Store Queue

variable {V : Service} {o : V.Op} {i : Nat} {α β : Type}

/-- The obligation of call `i` when no other call runs. -/
abbrev Alone (o : V.Op) (i : Nat) (p : Prog α) (Q : Except Err α → Snap V.system → Prop)
    (s : Snap V.system) : Prop :=
  (Discipline.solo i).Valid o i p Q s

theorem idle_host (c : HostCmd) : Idle (.host c) :=
  ⟨trivial, fun _ _ h => h, fun ⟨_, h⟩ => nomatch h⟩

section Rules

variable {Q : Except Err β → Snap V.system → Prop} {s : Snap V.system}

theorem alone_redis {c : RedisCmd} {f : c.Res → Prog β}
    (h : ∀ s₁, Still s s₁ → Alone o i (f (c.exec s₁.world).1) Q (s₁.exec i (.redis c))) :
    Alone o i ((redis c).bind f) Q s :=
  Discipline.solo_await fun es => h _ (still_elapse s es)

theorem alone_prisma {c : DbCmd} {f : c.Res → Prog β}
    (h : ∀ s₁, Still s s₁ → (Discipline.solo i).Resumes o i f Q (c.exec s₁.world).1
      (s₁.exec i (.db c))) :
    Alone o i ((prisma c).bind f) Q s :=
  Discipline.solo_await fun es => h _ (still_elapse s es)

/-- An idle command, whose answer does not matter. -/
theorem alone_idle {c : RedisCmd} (hc : Idle (.redis c)) {f : c.Res → Prog β}
    (h : ∀ a s₁, Still s s₁ → Alone o i (f a) Q s₁) : Alone o i ((redis c).bind f) Q s :=
  alone_redis fun _ h₁ => h _ _ (h₁.trans (still_exec hc i _))

theorem alone_get {k : RedisKey} (hk : ∀ u, k ≠ .queueMatched u) {f : Option RedisString → Prog β}
    (h : ∀ s₁, Still s s₁ → Alone o i (f (s₁.world.get k)) Q s₁) :
    Alone o i ((redis (.get k)).bind f) Q s :=
  alone_redis fun _ h₁ => h _ (h₁.trans (still_exec (c := .redis (.get k))
    ⟨trivial, fun _ _ h => h, fun ⟨u, hu⟩ => hk u (by cases hu; rfl)⟩ i _))

theorem alone_zcard {q : QueueKey} {f : Nat → Prog β}
    (h : ∀ s₁, Still s s₁ → Alone o i (f ((board s.world).zsets q).zcard) Q s₁) :
    Alone o i ((redis (.zcard q)).bind f) Q s := by
  refine alone_redis fun s₁ h₁ => ?_
  have hanswer : ((RedisCmd.zcard q).exec s₁.world).1 = ((board s.world).zsets q).zcard := by
    rw [← h₁.board]
    rfl
  rw [hanswer]
  exact h _ (h₁.trans (still_exec (c := .redis (.zcard q))
    ⟨trivial, fun _ _ h => h, fun ⟨_, h⟩ => nomatch h⟩ i _))

theorem alone_zrank {q : QueueKey} {u : UserId} {f : Option Nat → Prog β}
    (h : ∀ a s₁, Still s s₁ → Alone o i (f a) Q s₁) :
    Alone o i ((redis (.zrank q u)).bind f) Q s :=
  alone_idle (c := .zrank q u) ⟨trivial, fun _ _ h => h, fun ⟨_, h⟩ => nomatch h⟩ h

/-- Synchronous code that does not throw. -/
theorem alone_host {c : HostCmd} (hok : ∀ w, ∃ a, (c.exec w).1 = .ok a) {f : c.Res → Prog β}
    (h : ∀ a s₁, Still s s₁ → Alone o i (f a) Q s₁) : Alone o i ((host c).bind f) Q s := by
  refine Discipline.solo_await fun es => ?_
  obtain ⟨a, ha⟩ := hok (s.elapse es).world
  have hstill := (still_elapse s es).trans
    (still_exec (c := .host c) (idle_host c) i (s.elapse es))
  have hgoal : Discipline.Resumes (S := V.system) (Discipline.solo i) o i f Q (.ok a)
      ((s.elapse es).exec i (.host c)) := h a _ hstill
  rw [← ha] at hgoal
  exact hgoal

theorem alone_now {f : Nat → Prog β} (h : ∀ a s₁, Still s s₁ → Alone o i (f a) Q s₁) :
    Alone o i ((host .now).bind f) Q s := alone_host (fun _ => ⟨_, rfl⟩) h

theorem alone_emit {os : List Output} {f : Unit → Prog β}
    (h : ∀ a s₁, Still s s₁ → Alone o i (f a) Q s₁) :
    Alone o i ((host (.emit os)).bind f) Q s := alone_host (fun _ => ⟨_, rfl⟩) h

end Rules

/-- Commands that are idle and do not fail. -/
def Calm (c : Cmd) : Prop := Idle c ∧ ∀ w, ∃ a, (c.exec w).1 = .ok a

theorem calm_redis {c : RedisCmd} (h : Idle (.redis c)) : Calm (.redis c) := ⟨h, fun _ => ⟨_, rfl⟩⟩

theorem calm_now : Calm (.host .now) := ⟨idle_host _, fun _ => ⟨_, rfl⟩⟩

theorem calm_emit (os : List Output) : Calm (.host (.emit os)) := ⟨idle_host _, fun _ => ⟨_, rfl⟩⟩

/-- A procedure of such commands returns, and the board is still the same. -/
theorem alone_calm {p : Prog α} (hp : p.Conforms Calm False) (s : Snap V.system) :
    Alone o i p (fun r s' => (∃ a, r = .ok a) ∧ Still s s') s := by
  refine (Discipline.solo_conforms (J := fun s' => Still s s') hp
    (fun s' es h => h.trans (still_elapse s' es))
    (fun c s' hc h => ⟨h.trans (still_exec hc.1 i s'), .inl (hc.2 s'.world)⟩) (.refl s)).weaken ?_
  rintro r s' ⟨hr, hstill⟩
  exact ⟨hr.resolve_right id, hstill⟩

/-! ## User locks -/

/-- Every lock that is seen is one of these. -/
def Holds (locks : List (UserId × String)) (w : World) : Prop :=
  ∀ u r, w.get (.queueLock u) = some r → ∃ v, (u, v) ∈ locks ∧ r = .text v

theorem holds_nil {w : World} : Holds [] w ↔ Unlocked w := by
  constructor
  · intro h u
    cases hr : w.get (.queueLock u) with
    | none => rfl
    | some r =>
        obtain ⟨v, hv, -⟩ := h u r hr
        cases hv
  · intro h u r hr
    rw [h u] at hr
    cases hr

theorem Holds.fades {locks : List (UserId × String)} {w w' : World} (h : Holds locks w)
    (hf : Fades w w') : Holds locks w' := fun u r hr => h u r (hf (.queueLock u) trivial r hr)

/-- No ban is seen in the second world that was not in the first one. -/
def BansFade (w w' : World) : Prop :=
  ∀ u r, w'.get (.moderationBan u) = some r → w.get (.moderationBan u) = some r

theorem BansFade.refl (w : World) : BansFade w w := fun _ _ h => h

theorem BansFade.trans {w₁ w₂ w₃ : World} (h : BansFade w₁ w₂) (h' : BansFade w₂ w₃) :
    BansFade w₁ w₃ := fun u r hr => h u r (h' u r hr)

theorem Fades.bans {w w' : World} (h : Fades w w') : BansFade w w' := fun u r hr =>
  h (.moderationBan u) trivial r hr

/-! ## Tokens -/

/-- A token of `u` was taken. -/
def isDebit (u : UserId) (e : Entry V.system) : Bool :=
  match e.cmd with
  | .db (.userDebit u') => u' = u && (e.before.db.users u).any (1 ≤ ·.tokenBalance)
  | _ => false

/-- A token was given back to `u`. -/
def isRefund (u : UserId) (e : Entry V.system) : Bool :=
  match e.cmd with
  | .db (.userRefund u') => u' = u && (e.before.db.users u).isSome
  | _ => false

/-- How many tokens of `u` were taken, and how many given back. -/
def debits (s : Snap V.system) (u : UserId) : Nat := s.trace.countP (isDebit u)

def refunds (s : Snap V.system) (u : UserId) : Nat := s.trace.countP (isRefund u)

theorem debits_exec (s : Snap V.system) (i : Nat) (c : Cmd) (u : UserId) :
    debits (s.exec i c) u = debits s u + if isDebit (V := V) u ⟨i, c, s.world⟩ then 1 else 0 :=
  List.countP_cons ..

theorem refunds_exec (s : Snap V.system) (i : Nat) (c : Cmd) (u : UserId) :
    refunds (s.exec i c) u = refunds s u + if isRefund (V := V) u ⟨i, c, s.world⟩ then 1 else 0 :=
  List.countP_cons ..

theorem isDebit_idle {e : Entry V.system} (h : OffBoard e.cmd) (u : UserId) :
    isDebit u e = false ∧ isRefund u e = false := by
  obtain ⟨j, c, w⟩ := e
  cases c with
  | redis c => exact ⟨rfl, rfl⟩
  | host c => exact ⟨rfl, rfl⟩
  | db c =>
      cases c with
      | userDebit id => exact h.elim
      | userRefund id => exact h.elim
      | _ => exact ⟨rfl, rfl⟩

/-! ## Moments with the same board -/

/-- The board is the same, no ban is new, no token was moved, and nobody
asked for a mark. -/
structure Unmoved (s s' : Snap V.system) : Prop where
  board : board s'.world = board s.world
  bans : BansFade s.world s'.world
  debits : ∀ u, debits s' u = debits s u
  refunds : ∀ u, refunds s' u = refunds s u
  plain : s.Between (fun e => Plain e.cmd) s'

theorem Unmoved.refl (s : Snap V.system) : Unmoved s s :=
  ⟨rfl, .refl _, fun _ => rfl, fun _ => rfl, .refl _ s⟩

theorem Unmoved.trans {s₁ s₂ s₃ : Snap V.system} (h : Unmoved s₁ s₂) (h' : Unmoved s₂ s₃) :
    Unmoved s₁ s₃ where
  board := h'.board.trans h.board
  bans := h.bans.trans h'.bans
  debits u := (h'.debits u).trans (h.debits u)
  refunds u := (h'.refunds u).trans (h.refunds u)
  plain := h.plain.trans h'.plain

theorem Still.unmoved {s s' : Snap V.system} (h : Still s s') : Unmoved s s' := by
  obtain ⟨t, ht, hidle⟩ := h.trace
  refine ⟨h.board, h.fades.bans, fun u => ?_, fun u => ?_, h.trace.mono fun _ h => h.plain⟩
  · have hzero : t.countP (isDebit u) = 0 := by
      rw [List.countP_eq_zero]
      intro e he
      rw [(isDebit_idle (hidle e he).1 u).1]
      nofun
    rw [Matchmaking.debits, ht, List.countP_append, hzero, Nat.zero_add]
    rfl
  · have hzero : t.countP (isRefund u) = 0 := by
      rw [List.countP_eq_zero]
      intro e he
      rw [(isDebit_idle (hidle e he).1 u).2]
      nofun
    rw [Matchmaking.refunds, ht, List.countP_append, hzero, Nat.zero_add]
    rfl

section Locks

variable {Q : Except Err β → Snap V.system → Prop} {s : Snap V.system}

/-- A free lock is taken. -/
theorem alone_acquire {locks : List (UserId × String)} {u : UserId} {f : Option String → Prog β}
    (hl : Holds locks s.world) (hu : ∀ v, (u, v) ∉ locks)
    (h : ∀ v s₁, Unmoved s s₁ → Holds (locks ++ [(u, v)]) s₁.world → Alone o i (f (some v)) Q s₁) :
    Alone o i ((acquireLock u).bind f) Q s := by
  refine Discipline.valid_bind (alone_host (fun _ => ⟨_, rfl⟩) fun v s₁ h₁ => ?_)
  refine alone_redis fun s₂ h₂ => ?_
  have hl₂ : Holds locks s₂.world := hl.fades (h₁.trans h₂).fades
  have hfree : s₂.world.get (.queueLock u) = none := by
    cases hr : s₂.world.get (.queueLock u) with
    | none => rfl
    | some r =>
        obtain ⟨v', hv', -⟩ := hl₂ u r hr
        exact absurd hv' (hu v')
  have hexec : (RedisCmd.setNX (.queueLock u) (.text v) LOCK_TTL_MS).exec s₂.world =
      (true, s₂.world.set (.queueLock u) (.text v) (some LOCK_TTL_MS)) := by
    simp only [RedisCmd.exec, hfree]
  rw [hexec]
  have hoffBoard : OffBoard (.redis (.setNX (.queueLock u) (.text v) LOCK_TTL_MS)) := id
  refine h v _ ((h₁.trans h₂).unmoved.trans ⟨?_, fun u' r hr => ?_, fun u' => ?_, fun u' => ?_,
    .exec (plain_redis (fun _ h => by cases h) (fun _ h => by cases h))⟩) fun u' r hr => ?_
  · exact board_exec hoffBoard s₂.world
  · rw [Snap.exec_world] at hr
    refine Cmd.get_of_get_exec (fun h => ?_) hr
    cases h
  · rw [debits_exec, (isDebit_idle (V := V) hoffBoard u').1]
    rfl
  · rw [refunds_exec, (isDebit_idle (V := V) hoffBoard u').2]
    rfl
  · have hr' : (s₂.world.set (.queueLock u) (.text v) (some LOCK_TTL_MS)).get (.queueLock u') =
        some r := by
      have hworld : (s₂.exec i (.redis (.setNX (.queueLock u) (.text v) LOCK_TTL_MS))).world =
          s₂.world.set (.queueLock u) (.text v) (some LOCK_TTL_MS) := congrArg Prod.snd hexec
      rwa [hworld] at hr
    by_cases hu' : u' = u
    · subst hu'
      exact ⟨v, List.mem_append.mpr (.inr (List.mem_singleton.mpr rfl)), World.eq_of_get_set hr'⟩
    · rw [World.get_set_ne (fun hk => hu' (RedisKey.queueLock.inj hk))] at hr'
      obtain ⟨v', hv', hrv⟩ := hl₂ u' r hr'
      exact ⟨v', List.mem_append.mpr (.inl hv'), hrv⟩

/-- A lock is given back. -/
theorem alone_releaseLock {locks : List (UserId × String)} {u : UserId} {v : String}
    (hl : Holds ((u, v) :: locks) s.world) :
    Alone o i (releaseLock u v)
      (fun r s' => r = .ok () ∧ Still s s' ∧ Holds locks s'.world) s := by
  refine Discipline.solo_last fun es => ?_
  have hidle : Idle (.redis (.releaseLock (.queueLock u) (.text v))) :=
    ⟨fun _ => nofun, fun _ _ h => h, fun ⟨_, h⟩ => nomatch h⟩
  have hl₁ : Holds ((u, v) :: locks) (s.elapse es).world := hl.fades (still_elapse s es).fades
  refine ⟨rfl, (still_elapse s es).trans (still_exec hidle i _), fun u' r hr => ?_⟩
  have hbefore : (s.elapse es).world.get (.queueLock u') = some r :=
    (still_exec (V := V) hidle i (s.elapse es)).fades (.queueLock u') trivial r hr
  obtain ⟨v', hv', rfl⟩ := hl₁ u' r hbefore
  rcases List.mem_cons.mp hv' with heq | hv'
  · -- the lock just given back
    cases heq
    have hgone : (s.elapse es).world.del (.queueLock u) =
        ((RedisCmd.releaseLock (.queueLock u) (.text v)).exec (s.elapse es).world).2 :=
      (if_pos hbefore).symm
    have hr' : ((s.elapse es).world.del (.queueLock u)).get (.queueLock u) = some (.text v) := by
      rw [hgone]
      exact hr
    rw [World.get_del_self] at hr'
    cases hr'
  · exact ⟨v', hv', rfl⟩

theorem alone_releaseUserLocks {locks : List (UserId × String)} (hl : Holds locks s.world) :
    Alone o i (releaseUserLocks locks)
      (fun r s' => r = .ok () ∧ Still s s' ∧ Unlocked s'.world) s := by
  induction locks generalizing s with
  | nil => exact ⟨rfl, .refl s, holds_nil.mp hl⟩
  | cons lock locks ih =>
      refine Discipline.valid_bind ((alone_releaseLock hl).weaken ?_)
      rintro r s₁ ⟨rfl, h₁, hl₁⟩
      exact (ih hl₁).weaken fun r s₂ ⟨hr, h₂, hun⟩ => ⟨hr, h₁.trans h₂, hun⟩

/-- `try … finally` that gives back the locks. -/
theorem alone_tryFinally {p : Prog β} {fin : Prog Unit} {locks : List (UserId × String)}
    (hfin : ∀ s₁, Holds locks s₁.world → Alone o i fin
      (fun r s' => r = .ok () ∧ Still s₁ s' ∧ Unlocked s'.world) s₁)
    (hp : Alone o i p (fun r s₁ => Holds locks s₁.world ∧
      ∀ s₂, Still s₁ s₂ → Unlocked s₂.world → Q r s₂) s) :
    Alone o i (p.tryFinally fin) Q s := by
  refine Discipline.valid_tryFinally (hp.weaken ?_)
  rintro r s₁ ⟨hl, hQ⟩
  refine (hfin s₁ hl).weaken ?_
  rintro r' s₂ ⟨rfl, h₂, hun⟩
  exact hQ s₂ h₂ hun

end Locks

end VerityBackend.Matchmaking
