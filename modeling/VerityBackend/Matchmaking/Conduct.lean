/-
VerityBackend.Matchmaking.Conduct — the queue and its worker, under rely and
guarantee.

For one user at a time: `Ledger` is what holds between any two commands,
`Keep` what a suspended call may count on. A call relies on two things. A
user it has in hand stays with it, and while it holds the lock of the user
nobody else joins, leaves or matches for the user. The one assumption is that
`leaveQueue` finds the user in the set it removes the user from: the worker
pops without the lock.
-/
import VerityBackend.Matchmaking.Stages

namespace VerityBackend.Matchmaking

open Async Store Queue

/-! ## Between two commands -/

/-- What holds of a user between any two commands, from the stage `st₀` on.
`rows` are the users for whom an entry shows that there is a row. -/
structure Ledger (u : UserId) (st₀ : Stage) (rows : UserId → Prop)
    (s : Snap queueService.system) : Prop where
  lock : LockInv u s
  fits : Fits u (stage u st₀ s) s.world
  locked : ∀ i, (stage u st₀ s).locked = some i → ∃ v, Holding u s i v
  known : ∀ p, rows p → s.world.stored (.queueUser p) ≠ none → (s.world.db.users p).isSome
  books : debits s u + st₀.weight =
    refunds s u + creations s u + forfeitsOf u st₀ s.trace + (stage u st₀ s).weight
  seen : 0 < forfeitsOf u st₀ s.trace → Seen u s

/-- What call `i` still knows after others have acted. -/
structure Keep (u : UserId) (st₀ : Stage) (i : Nat) (s s' : Snap queueService.system) : Prop where
  handed : ∀ v, Handed s i v → Handed s' i v
  seen : Seen u s → Seen u s'
  users : ∀ p, (s.world.db.users p).isSome → (s'.world.db.users p).isSome
  mine : (stage u st₀ s).owner = some i → stage u st₀ s' = stage u st₀ s
  foreign : (stage u st₀ s).owner ≠ some i → (stage u st₀ s').owner ≠ some i
  holding : ∀ v, Holding u s i v → Holding u s' i v
  out : ∀ v, Holding u s i v → stage u st₀ s = .out → stage u st₀ s' = .out
  settled : ∀ v k, Holding u s i v → (stage u st₀ s).settled k → (stage u st₀ s').settled k

/-- The moment before the command, for the rules below. -/
abbrev Proceeds (u : UserId) (st₀ : Stage) (s : Snap queueService.system) (i : Nat) (c : Cmd) : Prop :=
  Proper u (stage u st₀ s) i (∃ v, Holding u s i v) (Seen u s) s.world c ∧ LockProper u s i c

section Ledger

variable {u : UserId} {st₀ : Stage} {rows : UserId → Prop} {s s' s'' : Snap queueService.system}
  {i j : Nat} {c : Cmd} {v : String} {k : QueueKey}

theorem stage_exec : stage u st₀ (s.exec i c) = (stage u st₀ s).after u ⟨i, c, s.world⟩ := rfl

theorem forfeits_exec : forfeitsOf u st₀ (s.exec i c).trace = forfeitsOf u st₀ s.trace +
    if isForfeit u (stage u st₀ s) (⟨i, c, s.world⟩ : Entry queueService.system) then 1 else 0 := rfl

theorem Keep.refl (s : Snap queueService.system) : Keep u st₀ i s s :=
  ⟨fun _ h => h, id, fun _ h => h, fun _ => rfl, id, fun _ h => h, fun _ _ h => h, fun _ _ _ h => h⟩

theorem Keep.trans (h : Keep u st₀ i s s') (h' : Keep u st₀ i s' s'') : Keep u st₀ i s s'' where
  handed v hv := h'.handed v (h.handed v hv)
  seen hs := h'.seen (h.seen hs)
  users p hp := h'.users p (h.users p hp)
  mine hst := by
    have hmid := h.mine hst
    rw [h'.mine (hmid ▸ hst), hmid]
  foreign hst := h'.foreign (h.foreign hst)
  holding v hv := h'.holding v (h.holding v hv)
  out v hv hst := h'.out v (h.holding v hv) (h.out v hv hst)
  settled v k hv hst := h'.settled v k (h.holding v hv) (h.settled v k hv hst)

theorem Seen.exec (h : Seen u s) : Seen u (s.exec i c) := by
  obtain ⟨e, he, hcmd, htruthy⟩ := h
  exact ⟨e, .tail _ he, hcmd, htruthy⟩

theorem Ledger.advance (h : Ledger u st₀ rows s) (hc : Proceeds u st₀ s i c) :
    Advance u (stage u st₀ s) (∃ v, Holding u s i v) (⟨i, c, s.world⟩ : Entry queueService.system) :=
  Matchmaking.advance h.fits hc.1

theorem cmd_of_isDebit {w : World} (h : isDebit u (⟨i, c, w⟩ : Entry queueService.system) = true) :
    c = .db (.userDebit u) := by
  cases c with
  | redis c => cases h
  | host c => cases h
  | db c =>
      cases c with
      | userDebit u' =>
          have hu : u' = u := of_decide_eq_true (Bool.and_eq_true_iff.mp h).1
          rw [hu]
      | _ => cases h

theorem creations_exec : creations (s.exec i c) u =
    creations s u + if isCreation u (⟨i, c, s.world⟩ : Entry queueService.system) then 1 else 0 :=
  List.countP_cons ..

/-- A user who is out, and pays nothing, stays out and in no session. -/
theorem Advance.idle {holds : Prop}
    (h : Advance u (stage u st₀ s) holds (⟨i, c, s.world⟩ : Entry queueService.system))
    (hout : stage u st₀ s = .out)
    (hdebit : isDebit u (⟨i, c, s.world⟩ : Entry queueService.system) = false) :
    stage u st₀ (s.exec i c) = .out ∧ creations (s.exec i c) u = creations s u := by
  obtain ⟨hmove, -, hbooks⟩ := h
  have hweight : (stage u st₀ s).weight = 0 := by rw [hout]; rfl
  rw [hdebit, hweight, if_neg Bool.false_ne_true] at hbooks
  rw [creations_exec, stage_exec]
  refine ⟨?_, by omega⟩
  rw [hout] at hmove hbooks ⊢
  generalize Stage.after u .out (⟨i, c, s.world⟩ : Entry queueService.system) = st' at hmove hbooks ⊢
  cases hmove with
  | stay => rfl
  | pay hpay =>
      change 0 + 0 = _ + _ + _ + 1 at hbooks
      omega

/-- Whoever holds the lock, nobody else is in the middle of something. -/
theorem Ledger.locked_none (h : Ledger u st₀ rows s) (hv : Holding u s i v)
    (hst : (stage u st₀ s).owner ≠ some i) : (stage u st₀ s).locked = none := by
  cases hj : (stage u st₀ s).locked with
  | none => rfl
  | some j =>
      obtain ⟨v', hv'⟩ := h.locked j hj
      obtain rfl := h.lock.unique hv hv'
      refine absurd ?_ hst
      revert hj
      cases stage u st₀ s <;> simp [Stage.locked, Stage.owner]

/-- Only what the call itself does with the lock ends its hold. -/
theorem holding_of_proper (h : LockInv u s) (hc : LockProper u s i c) (hj : Holding u s j v)
    (hrelease : j = i → ∀ r, c ≠ .redis (.releaseLock (.queueLock u) r)) :
    Holding u (s.exec i c) j v := by
  by_cases hji : j = i
  · subst hji
    by_cases htouch : c.touches (.queueLock u)
    · cases c with
      | db c => exact htouch.elim
      | host c => exact htouch.elim
      | redis c =>
          cases c with
          | setNX k r ttl =>
              obtain rfl : RedisKey.queueLock u = k := htouch
              obtain ⟨-, v', rfl, -⟩ := hc rfl
              have hstored := (h.held j v hj).1
              rw [holding_setNX, if_neg (by rw [hstored]; nofun)]
              exact hj
          | releaseLock k r =>
              obtain rfl : RedisKey.queueLock u = k := htouch
              exact absurd rfl (hrelease rfl r)
          | _ => exact (hc htouch).elim
    · exact (holding_exec_of_not_touches htouch).mpr hj
  · exact (holding_exec_ne hji).mpr hj

/-- What a proper command leaves to the others. -/
theorem Ledger.keep_others (h : Ledger u st₀ rows s) (hc : Proceeds u st₀ s i c) (hj : j ≠ i) :
    Keep u st₀ j s (s.exec i c) := by
  have hmove := (h.advance hc).move
  have hholds (v : String) (hv : Holding u s j v) : ¬∃ v', Holding u s i v' :=
    fun ⟨_, hv'⟩ => hj (h.lock.unique hv hv')
  exact ⟨fun v hv => handed_exec.mpr (.inl hv), Seen.exec, fun p hp => c.isSome_user_exec hp,
    fun hst => hmove.mine hst hj, fun hst => hmove.foreign hst hj,
    fun v hv => holding_of_proper h.lock hc.2 hv fun hji => absurd hji hj,
    fun v hv hst => by
      rw [stage_exec, hst]
      rw [hst] at hmove
      exact hmove.out_of_not_holds (hholds v hv),
    fun v k hv hst => hmove.settled_of_not_holds hst (hholds v hv)⟩

/-- A proper command that is no step for the user leaves the call itself what
it knows, too. -/
theorem Ledger.keep_self (h : Ledger u st₀ rows s) (hc : LockProper u s i c)
    (hst : stage u st₀ (s.exec i c) = stage u st₀ s)
    (hrelease : ∀ r, c ≠ .redis (.releaseLock (.queueLock u) r)) : Keep u st₀ i s (s.exec i c) where
  handed v hv := handed_exec.mpr (.inl hv)
  seen := Seen.exec
  users p hp := c.isSome_user_exec hp
  mine _ := hst
  foreign hf := by rwa [hst]
  holding v hv := holding_of_proper h.lock hc hv fun _ => hrelease
  out v _ hout := hst.trans hout
  settled v k _ hk := by rwa [hst]

/-- An entry is written for a user with a row. -/
theorem known_exec {w : World} (hc : Proper u (stage u st₀ s) i (∃ v, Holding u s i v) (Seen u s) w c)
    {p : UserId} (h : w.stored (.queueUser p) ≠ none → (w.db.users p).isSome)
    (hp : (c.exec w).2.stored (.queueUser p) ≠ none) : ((c.exec w).2.db.users p).isSome := by
  refine c.isSome_user_exec ?_
  by_cases hwrites : c.writes (.queueUser p)
  · cases c with
    | db c => exact hwrites.elim
    | host c => exact hwrites.elim
    | redis c =>
        cases c with
        | set k r ttl => exact absurd hwrites.symm (hc p)
        | setNX k r ttl => exact absurd hwrites.symm (hc p)
        | multiJoin k u' joinedAt state =>
            obtain rfl := RedisKey.queueUser.inj hwrites
            exact hc.1
        | multiMarkMatched a b id ttl => rcases hwrites with hk | hk <;> cases hk
        | _ => exact hwrites.elim
  · exact h fun hnone => hp (Cmd.stored_exec_none hwrites hnone)

theorem Stage.locked_of_release {st : Stage} (h : st.release.locked = some j) :
    st.locked = some j ∧ ∀ i, st ≠ .cleared i := by
  cases st with
  | cleared i => cases h
  | _ => exact ⟨h, nofun⟩

/-- Only a user who was found matched is left without a refund. -/
theorem seen_of_forfeit {st : Stage} {holds seen : Prop} {w : World} (hc : Proper u st i holds seen w c)
    (h : isForfeit u st (⟨i, c, w⟩ : Entry queueService.system) = true) : seen := by
  cases c with
  | db c => cases h
  | host c => cases h
  | redis c =>
      cases c with
      | releaseLock k r =>
          cases st with
          | cleared j =>
              have hk : k = .queueLock u := of_decide_eq_true h
              exact (hc.2 hk j rfl).2
          | _ => cases h
      | _ => cases h

/-- **Step lemma.** -/
theorem Ledger.exec (h : Ledger u st₀ rows s) (hc : Proceeds u st₀ s i c) :
    Ledger u st₀ rows (s.exec i c) := by
  have hadvance := h.advance hc
  refine ⟨h.lock.exec hc.2, hadvance.fits, fun j hj => ?_, fun p hp => known_exec hc.1 (h.known p hp),
    ?_, fun hpos => ?_⟩
  · have hrelease (r : RedisString) : c ≠ .redis (.releaseLock (.queueLock u) r) := by
      rintro rfl
      have hst : (stage u st₀ s).release.locked = some j := by
        have hafter : stage u st₀ (s.exec i (.redis (.releaseLock (.queueLock u) r))) =
            (stage u st₀ s).release := if_pos rfl
        rwa [hafter] at hj
      obtain ⟨hst, hne⟩ := Stage.locked_of_release hst
      exact hne i (hc.1.2 rfl j hst).1
    rcases hadvance.move.locked (h.locked i) hj with hst | ⟨rfl, v, hv⟩
    · obtain ⟨v, hv⟩ := h.locked j hst
      exact ⟨v, holding_of_proper h.lock hc.2 hv fun _ => hrelease⟩
    · exact ⟨v, holding_of_proper h.lock hc.2 hv fun _ => hrelease⟩
  · have hbooks := h.books
    have hstep := hadvance.books
    rw [debits_exec, refunds_exec, creations_exec, forfeits_exec, stage_exec]
    omega
  · rcases Nat.eq_zero_or_pos (forfeitsOf u st₀ s.trace) with hzero | hpos'
    · have hforfeit : isForfeit u (stage u st₀ s) (⟨i, c, s.world⟩ : Entry queueService.system) = true := by
        by_contra hnot
        rw [forfeits_exec, hzero, if_neg hnot] at hpos
        omega
      exact (seen_of_forfeit hc.1 hforfeit).exec
    · exact (h.seen hpos').exec

/-- Time passes, and the lock is not lost while it is held. -/
theorem Ledger.env (h : Ledger u st₀ rows s) {e : Env}
    (hkept : ∀ i v, Holding u s i v → ((s.world.env e).get (.queueLock u)).isSome) :
    Ledger u st₀ rows ⟨s.world.env e, s.trace⟩ where
  lock := h.lock.env hkept
  fits := by
    cases e with
    | tick ms => exact h.fits.congr rfl fun _ => Iff.rfl
  locked := h.locked
  known := by
    cases e with
    | tick ms => exact h.known
  books := h.books
  seen := h.seen

theorem Keep.env (e : Env) : Keep u st₀ i s ⟨s.world.env e, s.trace⟩ := by
  cases e with
  | tick ms =>
      exact ⟨fun _ h => h, id, fun _ h => h, fun _ => rfl, id, fun _ h => h, fun _ _ h => h,
        fun _ _ _ h => h⟩

end Ledger

/-! ## The discipline -/

/-- The assumption is that a user is taken out of a set it is in, and the
promise that only `joinQueue` of the user ends its being out. -/
def conduct (u : UserId) (st₀ : Stage) (rows : UserId → Prop) : Discipline queueService.system where
  inv := Ledger u st₀ rows
  admits _ _ c s := ∀ k, c = .redis (.zrem k u) → u ∈ s.world.zset k
  rely := Keep u st₀
  guar o i c s := stage u st₀ s = .out →
    (stage u st₀ (s.exec i c) = .out ∧ creations (s.exec i c) u = creations s u) ∨
      ∃ input, o = .joinQueue u input
  rely_refl _ s := .refl s
  rely_trans _ _ _ _ h h' := h.trans h'

abbrev Owes (u : UserId) (st₀ : Stage) (rows : UserId → Prop) (o : QueueOp) (i : Nat) {α : Type}
    (p : Prog α) (Q : Except Err α → Snap queueService.system → Prop)
    (s : Snap queueService.system) : Prop :=
  (conduct u st₀ rows).Valid o i p Q s

/-- A command that is no step for any user. -/
def Aloof : Cmd → Prop
  | .redis (.get _) => True
  | .redis (.mget _ _) => True
  | .redis (.zcard _) => True
  | .redis (.zrank _ _) => True
  | .redis (.zrange _) => True
  | .redis (.srem _) => True
  | .host _ => True
  | .db (.blockFindFirst _ _) => True
  | _ => False

section Rules

variable {u : UserId} {st₀ : Stage} {rows : UserId → Prop} {o : QueueOp} {i : Nat} {α β : Type}
  {Q : Except Err β → Snap queueService.system → Prop} {s s' : Snap queueService.system}

theorem keeps_of_proceeds {c : Cmd} (h : Ledger u st₀ rows s) (hc : Proceeds u st₀ s i c)
    (hguar : c = .db (.userDebit u) → ∃ input, o = .joinQueue u input) :
    (conduct u st₀ rows).Keeps o i c s where
  guar hout := by
    have hadvance := h.advance hc
    cases hdebit : isDebit u (⟨i, c, s.world⟩ : Entry queueService.system) with
    | true => exact .inr (hguar (cmd_of_isDebit hdebit))
    | false => exact .inl (hadvance.idle hout hdebit)
  inv := h.exec hc
  rely _ hj := h.keep_others hc hj

theorem Aloof.proceeds {c : Cmd} (h : Aloof c) : Proceeds u st₀ s i c := by
  cases c with
  | host c => exact ⟨trivial, id⟩
  | redis c =>
      cases c with
      | get _ => exact ⟨trivial, id⟩
      | mget _ _ => exact ⟨trivial, id⟩
      | zcard _ => exact ⟨trivial, id⟩
      | zrank _ _ => exact ⟨trivial, id⟩
      | zrange _ => exact ⟨trivial, id⟩
      | srem _ => exact ⟨trivial, id⟩
      | _ => exact h.elim
  | db c =>
      cases c with
      | blockFindFirst _ _ => exact ⟨trivial, id⟩
      | _ => exact h.elim

theorem Aloof.stage {c : Cmd} (h : Aloof c) : stage u st₀ (s.exec i c) = stage u st₀ s := by
  cases c with
  | host c => rfl
  | redis c => cases c <;> first | rfl | exact h.elim
  | db c => cases c <;> first | rfl | exact h.elim

theorem Aloof.keep {c : Cmd} (h : Aloof c) (hs : Ledger u st₀ rows s) :
    Keep u st₀ i s (s.exec i c) := by
  have hproceeds : Proceeds u st₀ s i c := h.proceeds
  refine hs.keep_self hproceeds.2 h.stage ?_
  rintro r rfl
  exact h

theorem owes_redis {c : RedisCmd} {f : c.Res → Prog β}
    (h : ∀ s₁, Keep u st₀ i s s₁ → Ledger u st₀ rows s₁ →
      (∀ k, Cmd.redis c = .redis (.zrem k u) → u ∈ s₁.world.zset k) →
      Proceeds u st₀ s₁ i (.redis c) ∧
        Owes u st₀ rows o i (f (c.exec s₁.world).1) Q (s₁.exec i (.redis c))) :
    Owes u st₀ rows o i ((redis c).bind f) Q s :=
  Discipline.valid_await fun s₁ hkeep hledger hadmits =>
    have hstep := h s₁ hkeep hledger hadmits
    ⟨keeps_of_proceeds hledger hstep.1 (by nofun), hstep.2⟩

theorem owes_prisma {c : DbCmd} {f : c.Res → Prog β}
    (h : ∀ s₁, Keep u st₀ i s s₁ → Ledger u st₀ rows s₁ → Proceeds u st₀ s₁ i (.db c) ∧
      (Cmd.db c = .db (.userDebit u) → ∃ input, o = .joinQueue u input) ∧
        (conduct u st₀ rows).Resumes o i f Q (c.exec s₁.world).1 (s₁.exec i (.db c))) :
    Owes u st₀ rows o i ((prisma c).bind f) Q s :=
  Discipline.valid_await fun s₁ hkeep hledger _ =>
    have hstep := h s₁ hkeep hledger
    ⟨keeps_of_proceeds hledger hstep.1 hstep.2.1, hstep.2.2⟩

theorem owes_host {c : HostCmd} (hok : ∀ w, ∃ a, (c.exec w).1 = .ok a) {f : c.Res → Prog β}
    (h : ∀ a s₁, Keep u st₀ i s s₁ → Owes u st₀ rows o i (f a) Q s₁) :
    Owes u st₀ rows o i ((host c).bind f) Q s := by
  refine Discipline.valid_await fun s₁ hkeep hledger _ => ?_
  have haloof : Aloof (.host c) := trivial
  refine ⟨keeps_of_proceeds hledger haloof.proceeds (by nofun), ?_⟩
  obtain ⟨a, ha⟩ := hok s₁.world
  have hgoal : (conduct u st₀ rows).Resumes o i f Q (.ok a) (s₁.exec i (.host c)) :=
    h a _ (hkeep.trans (haloof.keep hledger))
  rw [← ha] at hgoal
  exact hgoal

theorem owes_now {f : Nat → Prog β}
    (h : ∀ a s₁, Keep u st₀ i s s₁ → Owes u st₀ rows o i (f a) Q s₁) :
    Owes u st₀ rows o i ((host .now).bind f) Q s := owes_host (fun _ => ⟨_, rfl⟩) h

theorem owes_emit {os : List Output} {f : Unit → Prog β}
    (h : ∀ s₁, Keep u st₀ i s s₁ → Owes u st₀ rows o i (f ()) Q s₁) :
    Owes u st₀ rows o i ((host (.emit os)).bind f) Q s :=
  owes_host (fun _ => ⟨_, rfl⟩) fun _ => h

theorem owes_emit_last {os : List Output} {R : Except Err Unit → Snap queueService.system → Prop}
    (h : ∀ s₁, Keep u st₀ i s s₁ → R (.ok ()) s₁) : Owes u st₀ rows o i (host (.emit os)) R s :=
  fun _ hkeep hledger _ =>
    have haloof : Aloof (.host (.emit os)) := trivial
    ⟨keeps_of_proceeds hledger haloof.proceeds (by nofun), h _ (hkeep.trans (haloof.keep hledger))⟩

/-- A command that is no step, whose answer does not matter. -/
theorem owes_aloof {c : RedisCmd} (hc : Aloof (.redis c)) {f : c.Res → Prog β}
    (h : ∀ a s₁, Keep u st₀ i s s₁ → Owes u st₀ rows o i (f a) Q s₁) :
    Owes u st₀ rows o i ((redis c).bind f) Q s :=
  owes_redis fun _ hkeep hledger _ => ⟨hc.proceeds, h _ _ (hkeep.trans (hc.keep hledger))⟩

/-- Commands that are no step for any user, and do not fail. -/
def Placid (c : Cmd) : Prop := Aloof c ∧ ∀ w, ∃ a, (c.exec w).1 = .ok a

theorem placid_redis {c : RedisCmd} (h : Aloof (.redis c)) : Placid (.redis c) := ⟨h, fun _ => ⟨_, rfl⟩⟩

/-- A procedure of such commands returns, and nothing known is lost. -/
theorem owes_placid {p : Prog α} (hp : p.Conforms Placid False) :
    Owes u st₀ rows o i p (fun r s' => (∃ a, r = .ok a) ∧ Keep u st₀ i s s') s := by
  refine (Discipline.valid_of_conforms (J := fun s' => Keep u st₀ i s s') hp
    (fun _ _ hkeep h => h.trans hkeep) (fun c s₁ hc hledger h => ?_) (.refl s)).weaken ?_
  · exact ⟨keeps_of_proceeds hledger hc.1.proceeds (fun heq => by rw [heq] at hc; exact hc.1.elim),
      h.trans (hc.1.keep hledger), .inl (hc.2 s₁.world)⟩
  · exact fun r s₁ h => ⟨h.1.resolve_right id, h.2⟩

/-- What `GET queue:user:<id>` says about the user. -/
def EntryRead (u : UserId) (st₀ : Stage) (p : UserId) (r : Option RedisString)
    (s : Snap queueService.system) : Prop :=
  p = u → (parseQueueEntryState r).map (·.queueKey) = (stage u st₀ s).entry ∧
    ((stage u st₀ s).entry = none → r = none)

theorem owes_getEntry {p : UserId} {f : Option RedisString → Prog β}
    (h : ∀ r s₁, Keep u st₀ i s s₁ → Ledger u st₀ rows s₁ → EntryRead u st₀ p r s₁ →
      Owes u st₀ rows o i (f r) Q s₁) :
    Owes u st₀ rows o i ((redis (.get (.queueUser p))).bind f) Q s := by
  refine owes_redis fun s₁ hkeep hledger _ => ?_
  have haloof : Aloof (.redis (.get (.queueUser p))) := trivial
  refine ⟨haloof.proceeds, h _ _ (hkeep.trans (haloof.keep hledger)) (hledger.exec haloof.proceeds) ?_⟩
  rintro rfl
  rw [haloof.stage]
  refine ⟨hledger.fits.get_entry, fun hnone => ?_⟩
  have habsent := hledger.fits.absent hnone
  have hget := World.get_of_permanent (w := s₁.world) (k := .queueUser p) (by
    rw [habsent]
    nofun)
  rw [habsent] at hget
  exact hget

/-- `GET queue:matched:<id>`. -/
theorem owes_getMatched {p : UserId} {f : Option RedisString → Prog β}
    (h : ∀ r s₁, Keep u st₀ i s s₁ → (p = u → truthy r = true → Seen u s₁) →
      Owes u st₀ rows o i (f r) Q s₁) :
    Owes u st₀ rows o i ((redis (.get (.queueMatched p))).bind f) Q s := by
  refine owes_redis fun s₁ hkeep hledger _ => ?_
  have haloof : Aloof (.redis (.get (.queueMatched p))) := trivial
  refine ⟨haloof.proceeds, h _ _ (hkeep.trans (haloof.keep hledger)) ?_⟩
  rintro rfl htruthy
  exact ⟨_, .head _, rfl, htruthy⟩

/-- `SET NX queue:lock:<id>`: whoever gets the lock holds it. -/
theorem owes_acquire {p : UserId} {f : Option String → Prog β}
    (hnone : ∀ s₁, Keep u st₀ i s s₁ → Owes u st₀ rows o i (f none) Q s₁)
    (hsome : ∀ v s₁, Keep u st₀ i s s₁ → Handed s₁ i v → (p = u → Holding u s₁ i v) →
      Owes u st₀ rows o i (f (some v)) Q s₁) :
    Owes u st₀ rows o i ((acquireLock p).bind f) Q s := by
  refine Discipline.valid_bind (Discipline.valid_await fun s₁ hkeep₁ hledger₁ _ => ?_)
  have haloof : Aloof (.host .randomUUID) := trivial
  refine ⟨keeps_of_proceeds hledger₁ haloof.proceeds (by nofun), ?_⟩
  set v := freshId s₁.world.nextId with hv
  have hkeep₂ := hkeep₁.trans (haloof.keep (i := i) hledger₁)
  have hhanded : Handed (s₁.exec i (.host .randomUUID)) i v := handed_exec.mpr (.inr ⟨rfl, rfl, hv⟩)
  refine (owes_redis fun s₃ hkeep₃ hledger₃ _ => ?_ :
    Owes u st₀ rows o i ((redis (.setNX (.queueLock p) (.text v) LOCK_TTL_MS)).bind _) _ _)
  have hproceeds : Proceeds u st₀ s₃ i (.redis (.setNX (.queueLock p) (.text v) LOCK_TTL_MS)) :=
    ⟨fun _ => nofun, fun _ => ⟨by decide, v, rfl, hkeep₃.handed v hhanded⟩⟩
  have hkeep := (hkeep₂.trans hkeep₃).trans (hledger₃.keep_self hproceeds.2 rfl (by nofun))
  refine ⟨hproceeds, ?_⟩
  cases hget : s₃.world.get (.queueLock p) with
  | some r =>
      have hanswer : ((RedisCmd.setNX (.queueLock p) (.text v) LOCK_TTL_MS).exec s₃.world).1 =
          false := by simp only [RedisCmd.exec, hget]
      rw [hanswer]
      exact hnone _ hkeep
  | none =>
      have hanswer : ((RedisCmd.setNX (.queueLock p) (.text v) LOCK_TTL_MS).exec s₃.world).1 =
          true := by simp only [RedisCmd.exec, hget]
      rw [hanswer]
      refine hsome v _ hkeep (handed_exec.mpr (.inl (hkeep₃.handed v hhanded))) ?_
      rintro rfl
      rw [holding_setNX, if_pos hget]

/-- What call `i` still knows once it no longer holds the lock. -/
structure Stays (u : UserId) (st₀ : Stage) (i : Nat) (s s' : Snap queueService.system) : Prop where
  handed : ∀ v, Handed s i v → Handed s' i v
  users : ∀ p, (s.world.db.users p).isSome → (s'.world.db.users p).isSome
  mine : (stage u st₀ s).owner = some i → stage u st₀ s' = stage u st₀ s
  foreign : (stage u st₀ s).owner ≠ some i → (stage u st₀ s').owner ≠ some i

theorem Keep.stays (h : Keep u st₀ i s s') : Stays u st₀ i s s' :=
  ⟨h.handed, h.users, h.mine, h.foreign⟩

theorem Stays.trans {s'' : Snap queueService.system} (h : Stays u st₀ i s s')
    (h' : Stays u st₀ i s' s'') : Stays u st₀ i s s'' where
  handed v hv := h'.handed v (h.handed v hv)
  users p hp := h'.users p (h.users p hp)
  mine hst := by
    have hmid := h.mine hst
    rw [h'.mine (hmid ▸ hst), hmid]
  foreign hst := h'.foreign (h.foreign hst)

/-- At most a popped user is still with the call that gives the lock back. -/
def Yields (u : UserId) (st₀ : Stage) (i : Nat) (v : String) (s : Snap queueService.system) : Prop :=
  Holding u s i v ∧ ((stage u st₀ s).owner = some i → ∃ k, stage u st₀ s = .inHand i k)

theorem Yields.keep {v : String} (h : Yields u st₀ i v s) (hk : Keep u st₀ i s s') :
    Yields u st₀ i v s' := by
  refine ⟨hk.holding v h.1, fun hst => ?_⟩
  by_cases hown : (stage u st₀ s).owner = some i
  · rw [hk.mine hown]
    exact h.2 hown
  · exact absurd hst (hk.foreign hown)

theorem Yields.locked {v : String} (h : Yields u st₀ i v s) (hs : Ledger u st₀ rows s) :
    (stage u st₀ s).locked = none := by
  by_cases hown : (stage u st₀ s).owner = some i
  · obtain ⟨k, hk⟩ := h.2 hown
    rw [hk]
    rfl
  · exact hs.locked_none h.1 hown

theorem owes_releaseLock {p : UserId} {v : String} {R : Except Err Unit → Snap queueService.system → Prop}
    (hv : Handed s i v) (hyields : p = u → Yields u st₀ i v s)
    (h : ∀ s₁, Stays u st₀ i s s₁ → (p ≠ u → Keep u st₀ i s s₁) →
      (p = u → stage u st₀ s = .out → stage u st₀ s₁ = .out) → R (.ok ()) s₁) :
    Owes u st₀ rows o i (releaseLock p v) R s := by
  intro s₁ hkeep hledger _
  set c : Cmd := .redis (.releaseLock (.queueLock p) (.text v)) with hc
  have hlocked (hp : p = u) : (stage u st₀ s₁).locked = none := ((hyields hp).keep hkeep).locked hledger
  have hproceeds : Proceeds u st₀ s₁ i c := by
    refine ⟨⟨fun _ hk => (by cases hk), fun hp j hj => ?_⟩, fun _ => ⟨v, rfl, hkeep.handed v hv⟩⟩
    rw [hlocked (RedisKey.queueLock.inj hp)] at hj
    cases hj
  have hstage : stage u st₀ (s₁.exec i c) = stage u st₀ s₁ := by
    by_cases hp : p = u
    · have hrelease : stage u st₀ (s₁.exec i c) = (stage u st₀ s₁).release :=
        if_pos (congrArg RedisKey.queueLock hp)
      rw [hrelease]
      have hnone := hlocked hp
      revert hnone
      cases stage u st₀ s₁ <;> simp [Stage.release, Stage.locked]
    · exact if_neg fun hk => hp (RedisKey.queueLock.inj hk)
  refine ⟨keeps_of_proceeds hledger hproceeds (fun hq => by cases hq), h _ (hkeep.stays.trans ?_) (fun hp => ?_) ?_⟩
  · exact ⟨fun v hv => handed_exec.mpr (.inl hv), fun p hp => c.isSome_user_exec hp, fun _ => hstage,
      fun hf => by rwa [hstage]⟩
  · refine hkeep.trans (hledger.keep_self hproceeds.2 hstage fun r heq => hp ?_)
    cases heq
    rfl
  · rintro hp hout
    rw [hstage]
    exact hkeep.out v (hyields hp).1 hout

/-- A user who has left, matched, is done with. -/
theorem owes_releaseLock_cleared {v : String} {R : Except Err Unit → Snap queueService.system → Prop}
    (hv : Handed s i v) (hst : stage u st₀ s = .cleared i) (hseen : Seen u s)
    (h : ∀ s₁, stage u st₀ s₁ = .out → R (.ok ()) s₁) :
    Owes u st₀ rows o i (releaseLock u v) R s := by
  intro s₁ hkeep hledger _
  have hst₁ : stage u st₀ s₁ = .cleared i := (hkeep.mine (by rw [hst]; rfl)).trans hst
  have hproceeds : Proceeds u st₀ s₁ i (.redis (.releaseLock (.queueLock u) (.text v))) :=
    ⟨⟨fun _ => nofun, fun _ _ _ => ⟨hst₁, hkeep.seen hseen⟩⟩, fun _ => ⟨v, rfl, hkeep.handed v hv⟩⟩
  refine ⟨keeps_of_proceeds hledger hproceeds (by nofun), h _ ?_⟩
  rw [stage_exec, hst₁]
  exact if_pos rfl

end Rules

end VerityBackend.Matchmaking
