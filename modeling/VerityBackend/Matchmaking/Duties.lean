/-
VerityBackend.Matchmaking.Duties — every operation of the queue meets its
obligation.

Each procedure is walked through once, for the user it is about and for any
other: what is known of the user `u` is guarded by `p = u`. At its end no call
has a user in hand, provided entries belong to users with a row, and a
`leaveQueue` that has not found the user matched leaves it out of the queue.
-/
import VerityBackend.Matchmaking.Conduct

namespace VerityBackend.Matchmaking

open Async Store Queue

variable {u : UserId} {st₀ : Stage} {rows : UserId → Prop} {i : Nat} {β : Type} {s s' : Snap queueService.system}
  {v : String}

/-- With the lock, and without an entry, the user is out. -/
theorem Ledger.out_of_entry (h : Ledger u st₀ rows s) (hv : Holding u s i v)
    (hown : (stage u st₀ s).owner ≠ some i) (hentry : (stage u st₀ s).entry = none) :
    stage u st₀ s = .out := by
  have hlocked := h.locked_none hv hown
  revert hlocked hentry
  cases stage u st₀ s <;> simp [Stage.locked, Stage.entry]

/-! ## Joining -/

section Join

variable {p : UserId} {o : QueueOp}

/-- The call has nothing to do with the user, and holds the lock of its own one. -/
structure Idles (u : UserId) (st₀ : Stage) (p : UserId) (i : Nat) (v : String)
    (s : Snap queueService.system) : Prop where
  handed : Handed s i v
  holding : p = u → Holding u s i v
  owner : (stage u st₀ s).owner ≠ some i

theorem Idles.keep (h : Idles u st₀ p i v s) (hk : Keep u st₀ i s s') : Idles u st₀ p i v s' :=
  ⟨hk.handed v h.handed, fun hp => hk.holding v (h.holding hp), hk.foreign h.owner⟩

theorem Idles.exec {c : Cmd} (h : Idles u st₀ p i v s) (hs : Ledger u st₀ rows s)
    (hc : Proceeds u st₀ s i c) (hrelease : ∀ r, c ≠ .redis (.releaseLock (.queueLock u) r))
    (hstage : (stage u st₀ (s.exec i c)).owner ≠ some i) : Idles u st₀ p i v (s.exec i c) :=
  ⟨handed_exec.mpr (.inl h.handed),
    fun hp => holding_of_proper hs.lock hc.2 (h.holding hp) fun _ => hrelease, hstage⟩

theorem owes_alreadyQueued {state : QueueEntryState} (h : Idles u st₀ p i v s) :
    Owes u st₀ rows o i (alreadyQueued p state) (fun _ s' => Idles u st₀ p i v s') s :=
  owes_aloof (c := .zrank state.queueKey p) trivial fun _ _ h₁ => h.keep h₁

/-- What `updateMany` answers, and what it has done. -/
theorem userDebit_answer (p : UserId) (w : World) :
    ((DbCmd.userDebit p).exec w).1 = .ok 1 ∧ (w.db.users p).any (1 ≤ ·.tokenBalance) = true ∨
      ((DbCmd.userDebit p).exec w).1 = .ok 0 ∧ (w.db.users p).any (1 ≤ ·.tokenBalance) = false := by
  simp only [DbCmd.exec]
  cases hp : w.db.users p with
  | none => exact .inr ⟨rfl, rfl⟩
  | some row =>
      dsimp only
      split
      · next hle => exact .inl ⟨rfl, decide_eq_true hle⟩
      · next hle => exact .inr ⟨rfl, decide_eq_false hle⟩

theorem after_userDebit {st : Stage} {w : World} :
    st.after u (⟨i, .db (.userDebit p), w⟩ : Entry queueService.system) =
      if p = u ∧ (w.db.users p).any (1 ≤ ·.tokenBalance) = true then .paid i else st := by
  by_cases hp : p = u
  · subst hp
    simp [Stage.after, isDebit]
  · simp [Stage.after, isDebit, hp]

/-- Debited, and not entered yet. -/
structure Charged (u : UserId) (st₀ : Stage) (p : UserId) (i : Nat) (v : String)
    (s : Snap queueService.system) : Prop where
  handed : Handed s i v
  holding : p = u → Holding u s i v
  row : (s.world.db.users p).isSome
  paid : p = u → stage u st₀ s = .paid i
  owner : p ≠ u → (stage u st₀ s).owner ≠ some i

theorem Charged.keep (h : Charged u st₀ p i v s) (hk : Keep u st₀ i s s') :
    Charged u st₀ p i v s' where
  handed := hk.handed v h.handed
  holding hp := hk.holding v (h.holding hp)
  row := hk.users p h.row
  paid hp := (hk.mine (by rw [h.paid hp]; rfl)).trans (h.paid hp)
  owner hp := hk.foreign (h.owner hp)

/-- `MULTI`, after the debit. -/
theorem owes_enqueueEntry {k : QueueKey} {joinedAt : Nat} (hk : k ≠ "") (h : Charged u st₀ p i v s) :
    Owes u st₀ rows o i (enqueueEntry p k joinedAt)
      (fun r s' => r = .ok () ∧ Idles u st₀ p i v s') s := by
  refine Discipline.valid_tryCatch (owes_redis fun s₁ hkeep hledger _ => ?_)
  have h₁ := h.keep hkeep
  set c : Cmd := .redis (.multiJoin k p joinedAt (QueueEntryState.mk k joinedAt).toJson) with hc
  have hproceeds : Proceeds u st₀ s₁ i c := ⟨⟨h₁.row, fun hp => ⟨h₁.paid hp, hk, rfl⟩⟩, nofun⟩
  refine ⟨hproceeds, rfl, handed_exec.mpr (.inl h₁.handed), fun hp => ?_, ?_⟩
  · exact holding_of_proper hledger.lock hproceeds.2 (h₁.holding hp) fun _ r => by rw [hc]; nofun
  · rw [stage_exec]
    by_cases hp : p = u
    · have hwaiting : (stage u st₀ s₁).after u ⟨i, c, s₁.world⟩ = .waiting k := if_pos hp
      rw [hwaiting]
      nofun
    · have hsame : (stage u st₀ s₁).after u ⟨i, c, s₁.world⟩ = stage u st₀ s₁ := if_neg hp
      rw [hsame]
      exact h₁.owner hp

/-- The debit, of a user who is out and whose lock is held. -/
theorem owes_userDebit {input : QueueJoinInput} {f : Nat → Prog β}
    {Q : Except Err β → Snap queueService.system → Prop} (h : Idles u st₀ p i v s)
    (hout : p = u → stage u st₀ s = .out)
    (hpaid : ∀ s₁, Charged u st₀ p i v s₁ → Owes u st₀ rows (.joinQueue p input) i (f 1) Q s₁)
    (hpoor : ∀ s₁, Idles u st₀ p i v s₁ → Owes u st₀ rows (.joinQueue p input) i (f 0) Q s₁) :
    Owes u st₀ rows (.joinQueue p input) i ((prisma (.userDebit p)).bind f) Q s := by
  refine owes_prisma fun s₁ hkeep hledger => ?_
  have h₁ := h.keep hkeep
  have hproceeds : Proceeds u st₀ s₁ i (.db (.userDebit p)) :=
    ⟨fun hp => ⟨hkeep.out v (h.holding hp) (hout hp), v, h₁.holding hp⟩, id⟩
  have hholding (hp : p = u) : Holding u (s₁.exec i (.db (.userDebit p))) i v :=
    holding_of_proper hledger.lock hproceeds.2 (h₁.holding hp) fun _ => nofun
  refine ⟨hproceeds, fun heq => ?_, ?_⟩
  · cases heq
    exact ⟨input, rfl⟩
  rcases userDebit_answer p s₁.world with ⟨hanswer, hany⟩ | ⟨hanswer, hany⟩
  · rw [hanswer]
    have hrow : (s₁.world.db.users p).isSome := by
      cases hp : s₁.world.db.users p with
      | none => rw [hp] at hany; cases hany
      | some row => rfl
    refine hpaid _ ⟨handed_exec.mpr (.inl h₁.handed), hholding,
      Cmd.isSome_user_exec (.db (.userDebit p)) hrow, fun hp => ?_, fun hp => ?_⟩
    · rw [stage_exec, after_userDebit, if_pos ⟨hp, hany⟩]
    · rw [stage_exec, after_userDebit, if_neg fun hp' => hp hp'.1]
      exact h₁.owner
  · rw [hanswer]
    refine hpoor _ ⟨handed_exec.mpr (.inl h₁.handed), hholding, ?_⟩
    rw [stage_exec, after_userDebit, if_neg (by rw [hany]; nofun)]
    exact h₁.owner

/-- The part of `joinQueue` under the lock. -/
theorem owes_enqueue {input : QueueJoinInput} {city : String} {k : QueueKey} (hk : k ≠ "")
    (h : Idles u st₀ p i v s) :
    Owes u st₀ rows (.joinQueue p input) i (enqueue p city k)
      (fun _ s' => Idles u st₀ p i v s') s := by
  refine owes_getEntry fun r s₁ hkeep₁ hledger₁ hread => ?_
  have h₁ := h.keep hkeep₁
  cases hparse : parseQueueEntryState r with
  | some state =>
      simp only
      exact owes_alreadyQueued h₁
  | none =>
      have hout (hp : p = u) : stage u st₀ s₁ = .out := by
        refine hledger₁.out_of_entry (h₁.holding hp) h₁.owner ?_
        rw [← (hread hp).1, hparse]
        rfl
      refine owes_userDebit h₁ hout (fun s₂ h₂ => ?_) fun s₂ h₂ => h₂
      refine owes_now fun joinedAt s₃ hkeep₃ => Discipline.valid_bind
        ((owes_enqueueEntry hk (h₂.keep hkeep₃)).weaken ?_)
      rintro r s₄ ⟨rfl, h₄⟩
      refine owes_aloof (c := .zrank k p) trivial fun position s₅ hkeep₅ => ?_
      exact owes_emit fun s₆ hkeep₆ => (h₄.keep hkeep₅).keep hkeep₆

/-- **`joinQueue`.** -/
theorem owes_joinQueue (p : UserId) (input : QueueJoinInput) (hown : (stage u st₀ s).owner ≠ some i) :
    Owes u st₀ rows (.joinQueue p input) i (joinQueue p input)
      (fun _ s' => (stage u st₀ s').owner ≠ some i) s := by
  refine owes_aloof (c := .get (.moderationBan p)) trivial fun banned s₁ hkeep₁ => ?_
  have hown₁ := hkeep₁.foreign hown
  split
  · exact hown₁
  split
  · exact hown₁
  next city hcity =>
  split
  · exact hown₁
  next k hkey =>
  refine owes_acquire (fun s₂ hkeep₂ => ?_) fun v s₂ hkeep₂ hhanded hholding => ?_
  · refine owes_getEntry fun r s₃ hkeep₃ _ _ => ?_
    have hown₃ := hkeep₃.foreign (hkeep₂.foreign hown₁)
    cases parseQueueEntryState r with
    | some state => exact owes_aloof (c := .zrank state.queueKey p) trivial fun _ _ h => h.foreign hown₃
    | none => exact hown₃
  · have hidles : Idles u st₀ p i v s₂ := ⟨hhanded, hholding, hkeep₂.foreign hown₁⟩
    refine Discipline.valid_tryFinally ((owes_enqueue (buildQueueKey_ne_empty hkey) hidles).weaken ?_)
    intro r s₃ h₃
    exact owes_releaseLock h₃.handed (fun hp => ⟨h₃.holding hp, fun hst => absurd hst h₃.owner⟩)
      fun s₄ hstays _ _ => hstays.foreign h₃.owner

end Join

/-! ## Leaving -/

section Leave

variable {p : UserId} {o : QueueOp} {k : QueueKey}

/-- With the lock, a user with an entry is waiting or popped. -/
theorem Ledger.settled_of_entry (h : Ledger u st₀ rows s) (hv : Holding u s i v)
    (hown : (stage u st₀ s).owner ≠ some i) (hentry : (stage u st₀ s).entry = some k) :
    (stage u st₀ s).settled k := by
  have hlocked := h.locked_none hv hown
  revert hlocked hentry
  cases stage u st₀ s <;> simp [Stage.locked, Stage.entry, Stage.settled]

theorem Ledger.row_of_entry (h : Ledger u st₀ rows s) (hrows : rows u)
    (hentry : (stage u st₀ s).entry = some k) : (s.world.db.users u).isSome := by
  obtain ⟨e, he, -⟩ := h.fits.present k hentry
  exact h.known u hrows (by rw [he]; nofun)

theorem placid_cleanupQueueKey : (cleanupQueueKey k).Conforms Placid False := by
  have hzcard : Placid (.redis (.zcard k)) := placid_redis trivial
  have hsrem : Placid (.redis (.srem k)) := placid_redis trivial
  refine (Proc.conforms_await hzcard).bind fun n => ?_
  split
  · exact Proc.conforms_await hsrem
  · exact Proc.conforms_pure _

theorem after_userRefund {st : Stage} {w : World} :
    st.after u (⟨i, .db (.userRefund p), w⟩ : Entry queueService.system) =
      if p = u ∧ (w.db.users p).isSome then .out else st := by
  by_cases hp : p = u
  · subst hp
    simp [Stage.after, isRefund]
  · simp [Stage.after, isRefund, hp]

/-- The entry is gone, and nothing is settled yet. -/
structure Cleared (u : UserId) (st₀ : Stage) (p : UserId) (i : Nat) (v : String)
    (s : Snap queueService.system) : Prop where
  handed : Handed s i v
  holding : p = u → Holding u s i v
  row : p = u → (s.world.db.users p).isSome
  cleared : p = u → stage u st₀ s = .cleared i
  owner : p ≠ u → (stage u st₀ s).owner ≠ some i

theorem Cleared.keep (h : Cleared u st₀ p i v s) (hk : Keep u st₀ i s s') :
    Cleared u st₀ p i v s' where
  handed := hk.handed v h.handed
  holding hp := hk.holding v (h.holding hp)
  row hp := hk.users p (h.row hp)
  cleared hp := (hk.mine (by rw [h.cleared hp]; rfl)).trans (h.cleared hp)
  owner hp := hk.foreign (h.owner hp)

/-- What `leaveQueue` has done before it gives the lock back. -/
structure Departed (u : UserId) (st₀ : Stage) (p : UserId) (i : Nat) (v : String)
    (r : Except Err QueueLeaveResult) (s : Snap queueService.system) : Prop where
  handed : Handed s i v
  holding : p = u → Holding u s i v
  owner : p ≠ u → (stage u st₀ s).owner ≠ some i
  done : p = u → stage u st₀ s = .out ∨ stage u st₀ s = .cleared i ∧ Seen u s ∧
    ∃ result, r = .ok result ∧ result.status = .already_matched

theorem Idles.departed {r : Except Err QueueLeaveResult} (h : Idles u st₀ p i v s)
    (hout : p = u → stage u st₀ s = .out) : Departed u st₀ p i v r s :=
  ⟨h.handed, h.holding, fun _ => h.owner, fun hp => .inl (hout hp)⟩

/-- The refund, or the news that there is none. -/
theorem owes_settleLeave {removed : Nat} {matched : Bool} (h : Cleared u st₀ p i v s)
    (hremoved : p = u → removed = 1) (hseen : p = u → matched = true → Seen u s) :
    Owes u st₀ rows o i (settleLeave p k removed matched) (Departed u st₀ p i v) s := by
  unfold settleLeave
  split
  · refine owes_prisma fun s₁ hkeep hledger => ?_
    have h₁ := h.keep hkeep
    have hproceeds : Proceeds u st₀ s₁ i (.db (.userRefund p)) := ⟨h₁.cleared, id⟩
    have hholding (hp : p = u) : Holding u (s₁.exec i (.db (.userRefund p))) i v :=
      holding_of_proper hledger.lock hproceeds.2 (h₁.holding hp) fun _ => nofun
    have hhanded : Handed (s₁.exec i (.db (.userRefund p))) i v := handed_exec.mpr (.inl h₁.handed)
    have howner (hp : p ≠ u) : (stage u st₀ (s₁.exec i (.db (.userRefund p)))).owner ≠ some i := by
      rw [stage_exec, after_userRefund, if_neg fun hp' => hp hp'.1]
      exact h₁.owner hp
    refine ⟨hproceeds, nofun, ?_⟩
    cases hrow : s₁.world.db.users p with
    | none =>
        have hanswer : ((DbCmd.userRefund p).exec s₁.world).1 = .error (.prisma "P2025") := by
          simp only [DbCmd.exec, hrow]
        rw [hanswer]
        refine ⟨hhanded, hholding, howner, fun hp => ?_⟩
        have hsome := h₁.row hp
        rw [hrow] at hsome
        cases hsome
    | some row =>
        have hanswer : ((DbCmd.userRefund p).exec s₁.world).1 = .ok () := by
          simp only [DbCmd.exec, hrow]
        rw [hanswer]
        refine owes_emit fun s₂ hkeep₂ => ⟨hkeep₂.handed v hhanded, fun hp => hkeep₂.holding v (hholding hp),
          fun hp => hkeep₂.foreign (howner hp), fun hp => .inl ?_⟩
        refine hkeep₂.out v (hholding hp) ?_
        rw [stage_exec, after_userRefund, if_pos ⟨hp, by rw [hrow]; rfl⟩]
  · next hnot =>
    refine owes_emit fun s₁ hkeep => ?_
    have h₁ := h.keep hkeep
    refine ⟨h₁.handed, h₁.holding, h₁.owner, fun hp => .inr ⟨h₁.cleared hp, ?_, _, rfl, ?_⟩⟩
    all_goals
      have hmatched : matched = true := by
        cases matched with
        | true => rfl
        | false => exact absurd ⟨hremoved hp, rfl⟩ hnot
    · exact hkeep.seen (hseen hp hmatched)
    · exact if_pos hmatched

/-- The two removals, from the set and of the entry. -/
theorem owes_removal {f : Nat → Prog β} {Q : Except Err β → Snap queueService.system → Prop}
    (h : Idles u st₀ p i v s) (hsettled : p = u → (stage u st₀ s).settled k)
    (hrow : p = u → (s.world.db.users p).isSome)
    (hf : ∀ removed s₁, (p = u → removed = 1) → (Seen u s → Seen u s₁) →
      Cleared u st₀ p i v s₁ → Owes u st₀ rows o i (f removed) Q s₁) :
    Owes u st₀ rows o i ((redis (.zrem k p)).bind fun removed =>
      (redis (.del [.queueUser p])).bind fun _ => f removed) Q s := by
  refine owes_redis fun s₁ hkeep₁ hledger₁ hadmits => ?_
  have h₁ := h.keep hkeep₁
  have hmem (hp : p = u) : u ∈ s₁.world.zset k := by
    subst hp
    exact hadmits k rfl
  have hproceeds₁ : Proceeds u st₀ s₁ i (.redis (.zrem k p)) :=
    ⟨fun hp => ⟨(hledger₁.fits.member k).mp (hmem hp), v, h₁.holding hp⟩, id⟩
  refine ⟨hproceeds₁, owes_redis fun s₂ hkeep₂ hledger₂ _ => ?_⟩
  have hremoved (hp : p = u) : stage u st₀ s₂ = .removed i k := by
    have hst : stage u st₀ (s₁.exec i (.redis (.zrem k p))) = .removed i k := if_pos hp
    exact (hkeep₂.mine (by rw [hst]; rfl)).trans hst
  have hproceeds₂ : Proceeds u st₀ s₂ i (.redis (.del [.queueUser p])) := by
    refine ⟨fun hin => ⟨k, hremoved ?_⟩, fun hin => by cases List.mem_singleton.mp hin⟩
    exact (RedisKey.queueUser.inj (List.mem_singleton.mp hin)).symm
  have hholding (hp : p = u) : Holding u s₂ i v := hkeep₂.holding v
    (holding_of_proper hledger₁.lock hproceeds₁.2 (h₁.holding hp) fun _ => nofun)
  refine ⟨hproceeds₂, hf _ _ (fun hp => ?_) (fun hseen => ?_) ⟨?_, fun hp => ?_, fun hp => ?_, fun hp => ?_,
    fun hp => ?_⟩⟩
  · subst hp
    exact if_pos (hmem rfl)
  · exact (hkeep₂.seen (hkeep₁.seen hseen).exec).exec
  · exact handed_exec.mpr (.inl (hkeep₂.handed v (handed_exec.mpr (.inl h₁.handed))))
  · exact holding_of_proper hledger₂.lock hproceeds₂.2 (hholding hp) fun _ => nofun
  · exact Cmd.isSome_user_exec _ (hkeep₂.users p (Cmd.isSome_user_exec _ (hkeep₁.users p (hrow hp))))
  · rw [stage_exec]
    exact if_pos (by rw [hp]; exact .head _)
  · have hsame₂ : stage u st₀ (s₂.exec i (.redis (.del [.queueUser p]))) = stage u st₀ s₂ :=
      if_neg fun hin => hp (RedisKey.queueUser.inj (List.mem_singleton.mp hin)).symm
    have hsame₁ : stage u st₀ (s₁.exec i (.redis (.zrem k p))) = stage u st₀ s₁ := if_neg hp
    rw [hsame₂]
    refine hkeep₂.foreign ?_
    rw [hsame₁]
    exact h₁.owner

/-- The part of `leaveQueue` under the lock. -/
theorem owes_leaveLocked (hrows : rows u) (h : Idles u st₀ p i v s) :
    Owes u st₀ rows o i (leaveLocked p) (Departed u st₀ p i v) s := by
  refine owes_getEntry fun r s₁ hkeep₁ hledger₁ hread => ?_
  have h₁ := h.keep hkeep₁
  have hout (hp : p = u) (hparse : parseQueueEntryState r = none) : stage u st₀ s₁ = .out := by
    refine hledger₁.out_of_entry (h₁.holding hp) h₁.owner ?_
    rw [← (hread hp).1, hparse]
    rfl
  by_cases htruthy : truthy r = true
  · simp only [htruthy, Bool.not_true, Bool.false_eq_true, if_false]
    cases hparse : parseQueueEntryState r with
    | none =>
        have hp : p ≠ u := by
          intro hp
          have hnone := (hread hp).2 (by rw [hout hp hparse]; rfl)
          rw [hnone] at htruthy
          cases htruthy
        have hproceeds {s₂ : Snap queueService.system} :
            Proceeds u st₀ s₂ i (.redis (.del [.queueUser p])) := by
          refine ⟨fun hin => (hp ?_).elim, fun hin => by cases List.mem_singleton.mp hin⟩
          exact (RedisKey.queueUser.inj (List.mem_singleton.mp hin)).symm
        refine owes_redis fun s₂ hkeep₂ hledger₂ _ => ⟨hproceeds, ?_⟩
        have h₂ := (h₁.keep hkeep₂).exec hledger₂ hproceeds nofun (by
          have hsame : stage u st₀ (s₂.exec i (.redis (.del [.queueUser p]))) = stage u st₀ s₂ :=
            if_neg fun hin => hp (RedisKey.queueUser.inj (List.mem_singleton.mp hin)).symm
          rw [hsame]
          exact hkeep₂.foreign h₁.owner)
        exact owes_emit fun s₃ hkeep₃ => (h₂.keep hkeep₃).departed fun hp' => absurd hp' hp
    | some state =>
        have hentry (hp : p = u) : (stage u st₀ s₁).entry = some state.queueKey := by
          rw [← (hread hp).1, hparse]
          rfl
        have hsettled (hp : p = u) : (stage u st₀ s₁).settled state.queueKey :=
          hledger₁.settled_of_entry (h₁.holding hp) h₁.owner (hentry hp)
        refine owes_getMatched fun matched s₂ hkeep₂ hseen => ?_
        have h₂ := h₁.keep hkeep₂
        refine owes_removal h₂ (fun hp => hkeep₂.settled v _ (h₁.holding hp) (hsettled hp))
          (fun hp => ?_) fun removed s₃ hremoved hseen₃ h₃ => ?_
        · rw [hp]
          exact hkeep₂.users u (hledger₁.row_of_entry hrows (hentry hp))
        · refine Discipline.valid_bind ((owes_placid placid_cleanupQueueKey).weaken ?_)
          rintro r' s₄ ⟨⟨_, rfl⟩, hkeep₄⟩
          exact owes_settleLeave (h₃.keep hkeep₄) hremoved fun hp hmatched =>
            hkeep₄.seen (hseen₃ (hseen hp hmatched))
  · have hparse := not_truthy_of_parse htruthy
    have hfalsy : truthy r = false := Bool.eq_false_iff.mpr htruthy
    simp only [hfalsy, Bool.not_false, if_true]
    exact owes_emit fun s₂ hkeep₂ => (h₁.keep hkeep₂).departed fun hp =>
      hkeep₂.out v (h₁.holding hp) (hout hp hparse)

/-- **`leaveQueue`.** -/
theorem owes_leaveQueue (hrows : rows u) (p : UserId) (hown : (stage u st₀ s).owner ≠ some i) :
    Owes u st₀ rows o i (leaveQueue p) (fun r s' => (stage u st₀ s').owner ≠ some i ∧
      ∀ result, r = .ok result → p = u → result.status ≠ .already_matched → stage u st₀ s' = .out) s := by
  refine owes_acquire (fun s₁ hkeep => ⟨hkeep.foreign hown, nofun⟩)
    fun v s₁ hkeep hhanded hholding => ?_
  refine Discipline.valid_tryFinally
    ((owes_leaveLocked hrows ⟨hhanded, hholding, hkeep.foreign hown⟩).weaken ?_)
  intro r s₂ h₂
  by_cases hp : p = u
  · rcases h₂.done hp with hout | ⟨hcleared, hseen, result, rfl, hstatus⟩
    · refine owes_releaseLock h₂.handed (fun hp => ⟨h₂.holding hp, fun hst => ?_⟩)
        fun s₃ _ _ hstill => ?_
      · rw [hout] at hst
        cases hst
      · have hout₃ := hstill hp hout
        exact ⟨by rw [hout₃]; nofun, fun _ _ _ _ => hout₃⟩
    · subst hp
      refine owes_releaseLock_cleared h₂.handed hcleared hseen fun s₃ hout₃ => ?_
      exact ⟨by rw [hout₃]; nofun, fun _ _ _ _ => hout₃⟩
  · exact owes_releaseLock h₂.handed (fun hp' => absurd hp' hp) fun s₃ hstays _ _ =>
      ⟨hstays.foreign (h₂.owner hp), fun _ _ hp' => absurd hp' hp⟩

end Leave

/-! ## Matching -/

section Match

variable {o : QueueOp} {k : QueueKey} {a b : UserId}

/-- The call has the two users, and nobody else, in hand. -/
structure InHand (u : UserId) (st₀ : Stage) (i : Nat) (k : QueueKey) (a b : UserId)
    (s : Snap queueService.system) : Prop where
  inHand : u = a ∨ u = b → stage u st₀ s = .inHand i k
  owner : ¬(u = a ∨ u = b) → (stage u st₀ s).owner ≠ some i

theorem InHand.stays (h : InHand u st₀ i k a b s) (hs : Stays u st₀ i s s') :
    InHand u st₀ i k a b s' where
  inHand hu := (hs.mine (by rw [h.inHand hu]; rfl)).trans (h.inHand hu)
  owner hu := hs.foreign (h.owner hu)

theorem InHand.keep (h : InHand u st₀ i k a b s) (hk : Keep u st₀ i s s') : InHand u st₀ i k a b s' :=
  h.stays hk.stays

/-- Members of the pair are put back. -/
theorem InHand.zadd (h : InHand u st₀ i k a b s) {xs : List (Ranked UserId)}
    (hxs : u ∈ xs.map (·.member) ↔ u = a ∨ u = b) :
    Proceeds u st₀ s i (.redis (.zadd k xs)) ∧
      (stage u st₀ (s.exec i (.redis (.zadd k xs)))).owner ≠ some i := by
  refine ⟨⟨fun hu => h.inHand (hxs.mp hu), id⟩, ?_⟩
  rw [stage_exec]
  by_cases hu : u = a ∨ u = b
  · have hback : (stage u st₀ s).after u ⟨i, .redis (.zadd k xs), s.world⟩ = .waiting k :=
      if_pos (hxs.mpr hu)
    rw [hback]
    nofun
  · have hsame : (stage u st₀ s).after u ⟨i, .redis (.zadd k xs), s.world⟩ = stage u st₀ s :=
      if_neg fun hin => hu (hxs.mp hin)
    rw [hsame]
    exact h.owner hu

theorem owes_zadd {xs : List (Ranked UserId)} (h : InHand u st₀ i k a b s)
    (hxs : u ∈ xs.map (·.member) ↔ u = a ∨ u = b) :
    Owes u st₀ rows o i (redis (.zadd k xs))
      (fun r s' => r = .ok () ∧ (stage u st₀ s').owner ≠ some i) s :=
  fun _ hkeep hledger _ =>
    have hback := (h.keep hkeep).zadd hxs
    ⟨keeps_of_proceeds hledger hback.1 nofun, rfl, hback.2⟩

theorem owes_requeue {xs : List (Ranked UserId)} (h : InHand u st₀ i k a b s)
    (hxs : u ∈ xs.map (·.member) ↔ u = a ∨ u = b) {f : Unit → Prog β}
    {Q : Except Err β → Snap queueService.system → Prop}
    (hf : ∀ s₁, (stage u st₀ s₁).owner ≠ some i → Owes u st₀ rows o i (f ()) Q s₁) :
    Owes u st₀ rows o i ((redis (.zadd k xs)).bind f) Q s := by
  refine Discipline.valid_bind ((owes_zadd h hxs).weaken ?_)
  rintro r s₁ ⟨rfl, hown⟩
  exact hf s₁ hown

/-- What `popPair` hands out. -/
def PopResult (u : UserId) (st₀ : Stage) (i : Nat) (k : QueueKey) :
    Option QueuePair → Snap queueService.system → Prop
  | none, s => (stage u st₀ s).owner ≠ some i
  | some pair, s => pair.userA ≠ pair.userB ∧ InHand u st₀ i k pair.userA pair.userB s

theorem owes_popPair (hown : (stage u st₀ s).owner ≠ some i) :
    Owes u st₀ rows o i (popPair k) (fun r s' => ∃ pair, r = .ok pair ∧ PopResult u st₀ i k pair s') s := by
  refine owes_redis fun s₁ hkeep hledger _ => ⟨⟨trivial, id⟩, ?_⟩
  have hown₁ := hkeep.foreign hown
  set s₂ := s₁.exec i (.redis (.zpopmin k 2)) with hs₂
  have hpop : u ∈ ((s₁.world.zset k).lowest 2).map (·.member) → stage u st₀ s₂ = .inHand i k :=
    fun hu => if_pos hu
  have hnot (hu : u ∉ ((s₁.world.zset k).lowest 2).map (·.member)) :
      (stage u st₀ s₂).owner ≠ some i := by
    have hsame : stage u st₀ s₂ = stage u st₀ s₁ := if_neg hu
    rwa [hsame]
  have hnodup := (s₁.world.zset k).lowest_nodup 2
  have hlength : ((s₁.world.zset k).lowest 2).length ≤ 2 := List.length_take_le _ _
  have hanswer : ((RedisCmd.zpopmin k 2).exec s₁.world).1 = (s₁.world.zset k).lowest 2 := rfl
  rw [hanswer]
  generalize (s₁.world.zset k).lowest 2 = popped at hpop hnot hnodup hlength
  match popped, hpop, hnot, hnodup, hlength with
  | [], _, hnot, _, _ => exact ⟨none, rfl, hnot (by simp)⟩
  | [x], hpop, hnot, _, _ =>
      have hpopped : InHand u st₀ i k x.member x.member s₂ :=
        ⟨fun hu => hpop (by simpa using hu), fun hu => hnot (by simpa using hu)⟩
      exact owes_requeue hpopped (by simp) fun s₃ hown₃ => ⟨none, rfl, hown₃⟩
  | [x, y], hpop, hnot, hnodup, _ =>
      refine ⟨some ⟨x.member, x.score, y.member, y.score⟩, rfl, ?_, ?_, ?_⟩
      · simpa using hnodup
      · exact fun hu => hpop (by simpa using hu)
      · exact fun hu => hnot (by simpa using hu)

/-- `MGET` of the two entries. -/
theorem owes_mget {f : Option RedisString × Option RedisString → Prog β}
    {Q : Except Err β → Snap queueService.system → Prop} (h : InHand u st₀ i k a b s)
    (hf : ∀ ra rb s₁, InHand u st₀ i k a b s₁ → (u = a → inQueue k ra = true) →
      (u = b → inQueue k rb = true) →
      ((∀ p, rows p) → inQueue k ra = true → inQueue k rb = true →
        (s₁.world.db.users a).isSome ∧ (s₁.world.db.users b).isSome) →
      Owes u st₀ rows o i (f (ra, rb)) Q s₁) :
    Owes u st₀ rows o i ((redis (.mget (.queueUser a) (.queueUser b))).bind f) Q s := by
  refine owes_redis fun s₁ hkeep hledger _ => ?_
  have haloof : Aloof (.redis (.mget (.queueUser a) (.queueUser b))) := trivial
  have h₁ := h.keep hkeep
  have hentry (hu : u = a ∨ u = b) : inQueue k (s₁.world.get (.queueUser u)) = true := by
    have hget := hledger.fits.get_entry
    rw [h₁.inHand hu] at hget
    unfold inQueue
    cases hparse : parseQueueEntryState (s₁.world.get (.queueUser u)) with
    | none =>
        rw [hparse] at hget
        cases hget
    | some state =>
        rw [hparse] at hget
        exact decide_eq_true (Option.some.inj hget)
  have hrow (p : UserId) (hp : rows p) (hin : inQueue k (s₁.world.get (.queueUser p)) = true) :
      (s₁.world.db.users p).isSome := by
    refine hledger.known p hp ?_
    cases hget : s₁.world.get (.queueUser p) with
    | none =>
        rw [hget] at hin
        cases hin
    | some r =>
        obtain ⟨e, he, -⟩ := World.stored_of_get hget
        rw [he]
        nofun
  refine ⟨haloof.proceeds, hf _ _ _ (h₁.keep (haloof.keep hledger)) (fun hu => ?_) (fun hu => ?_)
    fun hrows ha hb => ⟨hrow a (hrows a) ha, hrow b (hrows b) hb⟩⟩
  · subst hu
    exact hentry (.inl rfl)
  · subst hu
    exact hentry (.inr rfl)

theorem owes_isPairBlocked : Owes u st₀ rows o i (isPairBlocked a b)
    (fun r s' => ∃ blocked, r = .ok blocked ∧ Keep u st₀ i s s') s := by
  refine owes_prisma fun s₁ hkeep hledger => ?_
  have haloof : Aloof (.db (.blockFindFirst a b)) := trivial
  exact ⟨haloof.proceeds, nofun, _, rfl, hkeep.trans (haloof.keep hledger)⟩

theorem owes_deferBlockedPair {pair : QueuePair} (h : InHand u st₀ i k pair.userA pair.userB s) :
    Owes u st₀ rows o i (deferBlockedPair k pair)
      (fun r s' => r = .ok () ∧ (stage u st₀ s').owner ≠ some i) s :=
  owes_now fun _ _ hkeep => owes_zadd (h.keep hkeep) (by simp)

/-- What `validatePair` answers: the pair is still in hand, or was let go. -/
def ValidResult (u : UserId) (st₀ : Stage) (rows : UserId → Prop) (i : Nat) (k : QueueKey)
    (pair : QueuePair) : Bool → Snap queueService.system → Prop
  | true, s => InHand u st₀ i k pair.userA pair.userB s ∧ ((∀ p, rows p) →
      (s.world.db.users pair.userA).isSome ∧ (s.world.db.users pair.userB).isSome)
  | false, s => (stage u st₀ s).owner ≠ some i

theorem owes_validatePair {pair : QueuePair} (h : InHand u st₀ i k pair.userA pair.userB s) :
    Owes u st₀ rows o i (validatePair k pair)
      (fun r s' => ∃ valid, r = .ok valid ∧ ValidResult u st₀ rows i k pair valid s') s := by
  refine owes_mget h fun ra rb s₁ h₁ hina hinb husers => ?_
  dsimp only
  cases ha : inQueue k ra <;> cases hb : inQueue k rb <;>
    simp only [Bool.not_true, Bool.not_false, Bool.and_true, Bool.and_false, Bool.and_self,
      Bool.false_eq_true, if_true, if_false]
  · -- both are gone
    refine ⟨false, rfl, h₁.owner fun hu => ?_⟩
    rcases hu with hu | hu
    · rw [hina hu] at ha
      cases ha
    · rw [hinb hu] at hb
      cases hb
  · have hu : u ≠ pair.userA := fun hu => by
      rw [hina hu] at ha
      cases ha
    exact owes_requeue h₁ (by simp [hu]) fun s₂ hown₂ => ⟨false, rfl, hown₂⟩
  · have hu : u ≠ pair.userB := fun hu => by
      rw [hinb hu] at hb
      cases hb
    exact owes_requeue h₁ (by simp [hu]) fun s₂ hown₂ => ⟨false, rfl, hown₂⟩
  · refine Discipline.valid_bind (owes_isPairBlocked.weaken ?_)
    rintro r s₂ ⟨blocked, rfl, hkeep₂⟩
    have h₂ := h₁.keep hkeep₂
    cases blocked with
    | true =>
        refine Discipline.valid_bind ((owes_deferBlockedPair h₂).weaken ?_)
        rintro r s₃ ⟨rfl, hown₃⟩
        exact ⟨false, rfl, hown₃⟩
    | false =>
        refine ⟨true, rfl, h₂, fun hrows => ?_⟩
        obtain ⟨hua, hub⟩ := husers hrows ha hb
        exact ⟨hkeep₂.users _ hua, hkeep₂.users _ hub⟩

/-- The call holds the locks of both users. -/
structure Bolted (u : UserId) (i : Nat) (a b : UserId) (va vb : String)
    (s : Snap queueService.system) : Prop where
  handedA : Handed s i va
  handedB : Handed s i vb
  holdingA : a = u → Holding u s i va
  holdingB : b = u → Holding u s i vb

variable {va vb : String}

theorem Bolted.keep (h : Bolted u i a b va vb s) (hk : Keep u st₀ i s s') :
    Bolted u i a b va vb s' where
  handedA := hk.handed va h.handedA
  handedB := hk.handed vb h.handedB
  holdingA ha := hk.holding va (h.holdingA ha)
  holdingB hb := hk.holding vb (h.holdingB hb)

theorem Bolted.exec {c : Cmd} (h : Bolted u i a b va vb s) (hs : Ledger u st₀ rows s)
    (hc : Proceeds u st₀ s i c) (hrelease : ∀ r, c ≠ .redis (.releaseLock (.queueLock u) r)) :
    Bolted u i a b va vb (s.exec i c) where
  handedA := handed_exec.mpr (.inl h.handedA)
  handedB := handed_exec.mpr (.inl h.handedB)
  holdingA ha := holding_of_proper hs.lock hc.2 (h.holdingA ha) fun _ => hrelease
  holdingB hb := holding_of_proper hs.lock hc.2 (h.holdingB hb) fun _ => hrelease

/-- Of a pair in hand the locks may be given back. -/
theorem InHand.yields (h : InHand u st₀ i k a b s) (hst : (stage u st₀ s).owner = some i) :
    ∃ k, stage u st₀ s = .inHand i k := by
  by_cases hu : u = a ∨ u = b
  · exact ⟨k, h.inHand hu⟩
  · exact absurd hst (h.owner hu)

/-- Both locks are given back. -/
theorem owes_releaseUserLocks (hab : a ≠ b) (h : Bolted u i a b va vb s)
    (hst : (stage u st₀ s).owner = some i → ∃ k, stage u st₀ s = .inHand i k) :
    Owes u st₀ rows o i (releaseUserLocks [(a, va), (b, vb)])
      (fun r s' => r = .ok () ∧ Stays u st₀ i s s') s := by
  refine Discipline.valid_bind (owes_releaseLock h.handedA (fun ha => ⟨h.holdingA ha, hst⟩)
    fun s₁ hstays₁ hkeep₁ _ => ?_)
  refine Discipline.valid_bind (owes_releaseLock (hstays₁.handed vb h.handedB) (fun hb => ?_)
    fun s₂ hstays₂ _ _ => ⟨rfl, hstays₁.trans hstays₂⟩)
  have hyields : Yields u st₀ i vb s := ⟨h.holdingB hb, hst⟩
  exact hyields.keep (hkeep₁ fun ha => hab (ha.trans hb.symm))

/-- What `lockUsers` answers. -/
def LockResult (u : UserId) (i : Nat) (a b : UserId) :
    Option (List (UserId × String)) → Snap queueService.system → Prop
  | none, _ => True
  | some locks, s => ∃ va vb, locks = [(a, va), (b, vb)] ∧ Bolted u i a b va vb s

theorem owes_lockUsers (hab : a ≠ b) (h : InHand u st₀ i k a b s) :
    Owes u st₀ rows o i (lockUsers [a, b]) (fun r s' => ∃ locks, r = .ok locks ∧ Stays u st₀ i s s' ∧
      LockResult u i a b locks s') s := by
  refine owes_acquire (fun s₁ hkeep₁ => ⟨none, rfl, hkeep₁.stays, trivial⟩)
    fun va s₁ hkeep₁ hhandedA hholdingA => ?_
  refine owes_acquire (fun s₂ hkeep₂ => ?_) fun vb s₂ hkeep₂ hhandedB hholdingB => ?_
  · have h₂ := (h.keep hkeep₁).keep hkeep₂
    refine Discipline.valid_bind (Discipline.valid_bind (owes_releaseLock (hkeep₂.handed va hhandedA)
      (fun ha => ⟨hkeep₂.holding va (hholdingA ha), h₂.yields⟩) fun s₃ hstays₃ _ _ => ?_))
    exact ⟨none, rfl, (hkeep₁.trans hkeep₂).stays.trans hstays₃, trivial⟩
  · have hlocks : setLock b vb [(a, va)] = [(a, va), (b, vb)] :=
      setLock_of_not_mem (by simpa using Ne.symm hab)
    exact ⟨some [(a, va), (b, vb)], congrArg (fun locks => Except.ok (some locks)) hlocks,
      (hkeep₁.trans hkeep₂).stays, va, vb, rfl,
      hkeep₂.handed va hhandedA, hhandedB, fun ha => hkeep₂.holding va (hholdingA ha), hholdingB⟩

/-- The pair is in a session, and still has its entries. -/
structure InSession (u : UserId) (st₀ : Stage) (i : Nat) (k : QueueKey) (a b : UserId)
    (s : Snap queueService.system) : Prop where
  created : u = a ∨ u = b → stage u st₀ s = .created i k
  owner : ¬(u = a ∨ u = b) → (stage u st₀ s).owner ≠ some i

theorem InSession.keep (h : InSession u st₀ i k a b s) (hk : Keep u st₀ i s s') :
    InSession u st₀ i k a b s' where
  created hu := (hk.mine (by rw [h.created hu]; rfl)).trans (h.created hu)
  owner hu := hk.foreign (h.owner hu)

theorem after_sessionCreate {st : Stage} {w : World} {region : Option String} {q : Option QueueKey} :
    st.after u (⟨i, .db (.sessionCreate a b region q), w⟩ : Entry queueService.system) =
      if (u = a ∨ u = b) ∧ (w.db.hasUser a && w.db.hasUser b) = true then st.create i else st := by
  refine if_congr ?_ rfl rfl
  simp only [isCreation, Bool.and_eq_true, Bool.or_eq_true, decide_eq_true_eq]
  rw [eq_comm (a := a), eq_comm (a := b)]

/-- Where a user has no row, the session is not created, and the pair stays in
hand. -/
def CreateResult (u : UserId) (st₀ : Stage) (rows : UserId → Prop) (i : Nat) (k : QueueKey) (a b : UserId) :
    Except Err Session → Snap queueService.system → Prop
  | .ok _, s => InSession u st₀ i k a b s
  | .error _, s => InHand u st₀ i k a b s ∧ ¬∀ p, rows p

theorem owes_createSession (h : InHand u st₀ i k a b s) (hb : Bolted u i a b va vb s)
    (hrows : (∀ p, rows p) → (s.world.db.users a).isSome ∧ (s.world.db.users b).isSome) :
    Owes u st₀ rows o i (createSession a b k)
      (fun r s' => Bolted u i a b va vb s' ∧ CreateResult u st₀ rows i k a b r s') s := by
  refine owes_prisma fun s₁ hkeep hledger => ?_
  set c : Cmd := .db (.sessionCreate a b (some (cityOf k)) (some k)) with hc
  have h₁ := h.keep hkeep
  have hb₁ := hb.keep hkeep
  have hproceeds : Proceeds u st₀ s₁ i c := by
    refine ⟨fun hu => ⟨⟨k, h₁.inHand (hu.imp Eq.symm Eq.symm)⟩, ?_⟩, id⟩
    rcases hu with hu | hu
    · exact ⟨va, hb₁.holdingA hu⟩
    · exact ⟨vb, hb₁.holdingB hu⟩
  have hb₂ := hb₁.exec hledger hproceeds fun r => by rw [hc]; nofun
  have hafter : stage u st₀ (s₁.exec i c) = if (u = a ∨ u = b) ∧
      (s₁.world.db.hasUser a && s₁.world.db.hasUser b) = true then (stage u st₀ s₁).create i
      else stage u st₀ s₁ := after_sessionCreate
  refine ⟨hproceeds, (fun heq => by rw [hc] at heq; cases heq), ?_⟩
  by_cases hboth : (s₁.world.db.hasUser a && s₁.world.db.hasUser b) = true
  · have hcreated : InSession u st₀ i k a b (s₁.exec i c) := by
      refine ⟨fun hu => ?_, fun hu => ?_⟩
      · rw [hafter, if_pos ⟨hu, hboth⟩, h₁.inHand hu]
        rfl
      · rw [hafter, if_neg fun hboth => hu hboth.1]
        exact h₁.owner hu
    have hanswer : ∃ session,
        ((DbCmd.sessionCreate a b (some (cityOf k)) (some k)).exec s₁.world).1 = .ok session := by
      simp only [DbCmd.exec, if_pos hboth]
      exact ⟨_, rfl⟩
    obtain ⟨session, hanswer⟩ := hanswer
    rw [hanswer]
    exact owes_emit fun s₂ hkeep₂ => ⟨hb₂.keep hkeep₂, hcreated.keep hkeep₂⟩
  · have hanswer : ((DbCmd.sessionCreate a b (some (cityOf k)) (some k)).exec s₁.world).1 =
        .error (.prisma "P2003") := by simp only [DbCmd.exec, if_neg hboth]
    have hsame : stage u st₀ (s₁.exec i c) = stage u st₀ s₁ := by
      rw [hafter, if_neg fun hu => hboth hu.2]
    rw [hanswer]
    refine ⟨hb₂, ⟨fun hu => hsame.trans (h₁.inHand hu), fun hu => by rw [hsame]; exact h₁.owner hu⟩,
      fun hall => hboth ?_⟩
    obtain ⟨hua, hub⟩ := hrows hall
    exact Bool.and_eq_true_iff.mpr ⟨hkeep.users a hua, hkeep.users b hub⟩

/-- What is left of a pair. -/
def MatchResult (u : UserId) (st₀ : Stage) (rows : UserId → Prop) (i : Nat) (r : Except Err Unit)
    (s : Snap queueService.system) : Prop :=
  (stage u st₀ s).owner ≠ some i ∨ (∃ e, r = .error e) ∧ ¬∀ p, rows p

/-- The `try` block of `processQueueKey`. -/
theorem owes_matchLocked {pair : QueuePair} (h : InHand u st₀ i k pair.userA pair.userB s)
    (hb : Bolted u i pair.userA pair.userB va vb s) (hrows : (∀ p, rows p) →
      (s.world.db.users pair.userA).isSome ∧ (s.world.db.users pair.userB).isSome) :
    Owes u st₀ rows o i (matchLocked k pair) (fun r s' => Bolted u i pair.userA pair.userB va vb s' ∧
      ((stage u st₀ s').owner = some i → ∃ k, stage u st₀ s' = .inHand i k) ∧
        MatchResult u st₀ rows i r s') s := by
  refine owes_now fun now s₁ hkeep₁ => ?_
  refine Discipline.valid_bind ((owes_createSession (h.keep hkeep₁) (hb.keep hkeep₁) fun hall => ?_).weaken ?_)
  · obtain ⟨hua, hub⟩ := hrows hall
    exact ⟨hkeep₁.users _ hua, hkeep₁.users _ hub⟩
  rintro (e | session) s₂ ⟨hb₂, hresult⟩
  · exact ⟨hb₂, hresult.1.yields, .inr ⟨⟨e, rfl⟩, hresult.2⟩⟩
  · refine (owes_redis fun s₃ hkeep₃ hledger₃ _ => ?_ : Owes u st₀ rows o i
      ((redis (.multiMarkMatched pair.userA pair.userB session.id MATCHED_TTL_MS)).bind _) _ s₂)
    have h₃ := hresult.keep hkeep₃
    set c : Cmd := .redis (.multiMarkMatched pair.userA pair.userB session.id MATCHED_TTL_MS) with hc
    have hproceeds : Proceeds u st₀ s₃ i c :=
      ⟨fun hu => ⟨k, h₃.created hu⟩, fun htouch => by rcases htouch with hk | hk | hk | hk <;> cases hk⟩
    have hb₄ := (hb₂.keep hkeep₃).exec hledger₃ hproceeds fun r => by rw [hc]; nofun
    have hown : (stage u st₀ (s₃.exec i c)).owner ≠ some i := by
      rw [stage_exec]
      by_cases hu : u = pair.userA ∨ u = pair.userB
      · have hout : (stage u st₀ s₃).after u ⟨i, c, s₃.world⟩ = .out := if_pos hu
        rw [hout]
        nofun
      · have hsame : (stage u st₀ s₃).after u ⟨i, c, s₃.world⟩ = stage u st₀ s₃ := if_neg hu
        rw [hsame]
        exact h₃.owner hu
    refine ⟨hproceeds, owes_emit_last fun s₅ hkeep₅ => ?_⟩
    have hown₅ := hkeep₅.foreign hown
    exact ⟨hb₄.keep hkeep₅, fun hst => absurd hst hown₅, .inl hown₅⟩

/-- One popped pair. -/
theorem owes_matchPair {pair : QueuePair} (hab : pair.userA ≠ pair.userB)
    (h : InHand u st₀ i k pair.userA pair.userB s) :
    Owes u st₀ rows o i (matchPair k pair) (MatchResult u st₀ rows i) s := by
  refine Discipline.valid_bind ((owes_validatePair h).weaken ?_)
  rintro r s₁ ⟨valid, rfl, hvalid⟩
  cases valid with
  | false => exact .inl hvalid
  | true =>
      obtain ⟨h₁, hrows⟩ := hvalid
      refine Discipline.valid_bind ((owes_lockUsers hab h₁).weaken ?_)
      rintro r s₂ ⟨locks, rfl, hstays, hlocks⟩
      have h₂ := h₁.stays hstays
      cases locks with
      | none => exact (owes_zadd h₂ (by simp)).weaken fun r s₃ hback => .inl hback.2
      | some locks =>
          obtain ⟨va, vb, rfl, hb⟩ := hlocks
          refine Discipline.valid_tryFinally ((owes_matchLocked h₂ hb fun hall => ?_).weaken ?_)
          · obtain ⟨hua, hub⟩ := hrows hall
            exact ⟨hstays.users _ hua, hstays.users _ hub⟩
          · rintro r s₃ ⟨hb₃, hst₃, hresult⟩
            refine (owes_releaseUserLocks hab hb₃ hst₃).weaken ?_
            rintro r' s₄ ⟨rfl, hstays₄⟩
            exact hresult.imp_left hstays₄.foreign

/-- The loop of `processQueueKey`, by the rounds that are left. -/
theorem owes_matchLoop (n : Nat) (hown : (stage u st₀ s).owner ≠ some i) :
    Owes u st₀ rows o i (matchLoop k n) (MatchResult u st₀ rows i) s := by
  induction n generalizing s with
  | zero => exact .inl hown
  | succ n ih =>
      refine Discipline.valid_bind ((owes_popPair hown).weaken ?_)
      rintro r s₁ ⟨pair, rfl, hpair⟩
      cases pair with
      | none => exact .inl hpair
      | some pair =>
          refine Discipline.valid_bind ((owes_matchPair hpair.1 hpair.2).weaken ?_)
          rintro (e | _) s₂ hresult
          · exact hresult
          · rcases hresult with hown₂ | ⟨⟨e, he⟩, -⟩
            · exact ih hown₂
            · cases he

theorem placid_status {c : Cmd} (h : StatusCommand k c) : Placid c := by
  cases h with
  | range => exact placid_redis trivial
  | count => exact placid_redis trivial
  | tell userIds usersSearching => exact ⟨trivial, fun _ => ⟨_, rfl⟩⟩

theorem placid_getQueueSize : (getQueueSize k).Conforms Placid False :=
  (getQueueSize_issues k).mono fun _ => placid_status

theorem placid_emitQueueStatus : (emitQueueStatus k).Conforms Placid False :=
  (emitQueueStatus_issues k).mono fun _ => placid_status

/-- **`processQueueKey`.** -/
theorem owes_processQueueKey (k : QueueKey) (hown : (stage u st₀ s).owner ≠ some i) :
    Owes u st₀ rows o i (processQueueKey k) (MatchResult u st₀ rows i) s := by
  refine Discipline.valid_bind ((owes_placid placid_getQueueSize).weaken ?_)
  rintro r s₁ ⟨⟨sizeBefore, rfl⟩, hkeep₁⟩
  refine Discipline.valid_bind ((owes_matchLoop _ (hkeep₁.foreign hown)).weaken ?_)
  rintro (e | _) s₂ hresult
  · exact hresult
  have hown₂ : (stage u st₀ s₂).owner ≠ some i := by
    rcases hresult with hown₂ | ⟨⟨e, he⟩, -⟩
    · exact hown₂
    · cases he
  refine (owes_placid ?_).weaken fun r s₃ h => .inl (h.2.foreign hown₂)
  refine placid_cleanupQueueKey.bind fun _ => placid_getQueueSize.bind fun sizeAfter => ?_
  split
  · exact placid_emitQueueStatus
  · exact Proc.conforms_pure _

end Match

/-! ## Every operation -/

/-- What is known when an operation returns. -/
def Returns (u : UserId) (st₀ : Stage) (rows : UserId → Prop) (o : QueueOp) (i : Nat)
    (r : Except Err o.Ret) (s : Snap queueService.system) : Prop :=
  ((∀ p, rows p) → (stage u st₀ s).owner ≠ some i) ∧
    match o, r with
    | .leaveQueue p, .ok result => p = u → result.status ≠ .already_matched → stage u st₀ s = .out
    | _, _ => True

theorem owes_code (hrows : rows u) (o : QueueOp) (hown : (stage u st₀ s).owner ≠ some i) :
    Owes u st₀ rows o i o.code (Returns u st₀ rows o i) s := by
  cases o with
  | joinQueue p input => exact (owes_joinQueue p input hown).weaken fun r s' h => ⟨fun _ => h, trivial⟩
  | leaveQueue p =>
      refine (owes_leaveQueue hrows p hown).weaken ?_
      rintro (e | result) s' h
      · exact ⟨fun _ => h.1, trivial⟩
      · exact ⟨fun _ => h.1, h.2 result rfl⟩
  | processQueueKey k =>
      refine (owes_processQueueKey k hown).weaken fun r s' h => ⟨fun hall => ?_, trivial⟩
      exact h.resolve_right fun herror => herror.2 hall

theorem owner_create {st : Stage} {j : Nat} (h : (st.create i).owner = some j) :
    st.owner = some j ∨ i = j := by
  cases st with
  | inHand j' k => exact .inr (Option.some.inj h)
  | _ => exact .inl h

theorem owner_release {st : Stage} {j : Nat} (h : st.release.owner = some j) : st.owner = some j := by
  cases st with
  | cleared j' => cases h
  | _ => exact h

/-- A user is with a call that has executed a command. -/
theorem owner_of_after {st : Stage} {e : Entry queueService.system} {j : Nat}
    (h : (st.after u e).owner = some j) : st.owner = some j ∨ e.call = j := by
  obtain ⟨i, c, w⟩ := e
  unfold Stage.after at h
  split at h <;> try split at h
  all_goals first
    | exact .inl h
    | exact .inr (Option.some.inj h)
    | exact owner_create h
    | exact .inl (owner_release h)
    | cases h

theorem owner_of_stage {t : List (Entry queueService.system)} {j : Nat}
    (h : (stageOf u st₀ t).owner = some j) : st₀.owner = some j ∨ ∃ e ∈ t, e.call = j := by
  induction t with
  | nil => exact .inl h
  | cons e t ih =>
      rcases owner_of_after h with h | h
      · rcases ih h with h | ⟨e', he', hcall⟩
        · exact .inl h
        · exact .inr ⟨e', .tail _ he', hcall⟩
      · exact .inr ⟨e, .head _, h⟩

end VerityBackend.Matchmaking
