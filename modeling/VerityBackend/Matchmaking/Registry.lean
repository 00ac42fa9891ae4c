/-
VerityBackend.Matchmaking.Registry — which queues the worker will visit again.

The worker visits the members of `queue:keys`. A join adds its key there
together with the member; `cleanupQueueKey` counts the members and takes the
key out in a second command, and the worker puts popped members back without
adding the key. So a queue drops out of sight where somebody has come between
the count and `SREM` (`joinsMeanwhile`), or where the key has been taken out
between a pop and `ZADD`. Nothing else does (`stays_registered`).
-/
import VerityBackend.Async.Windows
import VerityBackend.Matchmaking.Overlap

namespace VerityBackend.Matchmaking

open Async Store Queue

/-- Every queue with a member is known to the worker. -/
def Registered (w : World) : Prop := ∀ k, ∀ u ∈ w.zset k, k ∈ w.redis.queueKeys

/-- Somebody is added to the queue. -/
def adds (k : QueueKey) : Cmd → Bool
  | .redis (.multiJoin k' _ _ _) => k' == k
  | .redis (.zadd k' _) => k' == k
  | _ => false

def counts (k : QueueKey) : Cmd → Bool
  | .redis (.zcard k') => k' == k
  | _ => false

def pops (k : QueueKey) : Cmd → Bool
  | .redis (.zpopmin k' _) => k' == k
  | _ => false

def unlists (k : QueueKey) : Cmd → Bool
  | .redis (.srem k') => k' == k
  | _ => false

/-- Where a call takes a key out, nobody has been added to the queue since the
call has counted its members; where it puts members back, nobody has taken the
key out since the call has popped them. -/
def unrivalled (s : Snap queueService.system) (i : Nat) : Cmd → Bool
  | .redis (.srem k) => s.undisturbed i (counts k) (adds k)
  | .redis (.zadd k _) => s.undisturbed i (pops k) (unlists k)
  | _ => true

/-- No two calls overlap there. -/
def UnrivalledStep (c : Config queueService.system) : Event queueService.system → Prop
  | .step i => (c.pending i).all (unrivalled c.toSnap i) = true
  | _ => True

instance (c : Config queueService.system) (e : Event queueService.system) :
    Decidable (UnrivalledStep c e) :=
  match e with
  | .step i => inferInstanceAs (Decidable ((c.pending i).all (unrivalled c.toSnap i) = true))
  | .start _ | .env _ => .isTrue trivial

/-! ## One command -/

section Step

variable {w : World} {k : QueueKey} {c : Cmd}

/-- Nobody enters a queue who is not added. -/
theorem mem_zset_of_exec (hc : adds k c = false) {u : UserId} (hu : u ∈ (c.exec w).2.zset k) :
    u ∈ w.zset k := by
  have hset : ∀ k' z, (k = k' → u ∈ z → u ∈ w.zset k) → u ∈ (if k = k' then z else w.zset k) →
      u ∈ w.zset k := by
    intro k' z hz hin
    split at hin
    · next hk => exact hz hk hin
    · exact hin
  by_cases hmoves : c.movesQueue
  · cases c with
    | db c => exact hmoves.elim
    | host c => exact hmoves.elim
    | redis c =>
        cases c with
        | srem k' => exact hu
        | zadd k' xs => exact hset k' _ (fun hk => absurd hk.symm (ne_of_beq_false hc)) hu
        | multiJoin k' v joinedAt state => exact hset k' _ (fun hk => absurd hk.symm (ne_of_beq_false hc)) hu
        | zrem k' v => exact hset k' _ (fun hk hin => hk ▸ (SortedSet.mem_zrem.mp hin).2) hu
        | zpopmin k' count =>
            exact hset k' _ (fun hk hin => hk ▸ (SortedSet.mem_zpopmin.mp hin).1) hu
        | _ => exact hmoves.elim
  · have hsame : (c.exec w).2.zset k = w.zset k := congrFun (Cmd.queues_exec hmoves w).1 k
    rwa [hsame] at hu

/-- A key stays that is not taken out. -/
theorem mem_queueKeys_exec (hc : unlists k c = false) (hk : k ∈ w.redis.queueKeys) :
    k ∈ (c.exec w).2.redis.queueKeys := by
  by_cases hmoves : c.movesQueue
  · cases c with
    | db c => exact hmoves.elim
    | host c => exact hmoves.elim
    | redis c =>
        cases c with
        | srem k' => exact List.mem_filter.mpr ⟨hk, decide_eq_true (Ne.symm (ne_of_beq_false hc))⟩
        | multiJoin k' v joinedAt state => exact List.mem_insert_of_mem hk
        | zadd k' xs => exact hk
        | zrem k' v => exact hk
        | zpopmin k' count => exact hk
        | _ => exact hmoves.elim
  · rwa [(Cmd.queues_exec hmoves w).2]

/-- A join adds the key as well. -/
theorem mem_queueKeys_multiJoin (u : UserId) (joinedAt : Nat) (state : RedisString) :
    k ∈ ((Cmd.redis (.multiJoin k u joinedAt state)).exec w).2.redis.queueKeys :=
  List.mem_insert_self

/-- **Step lemma.** A queue stays known if no key is taken out of a queue
with members, and nobody is put back into a queue that is not known. -/
theorem Registered.exec (h : Registered w) (hsrem : ∀ k, c = .redis (.srem k) → ∀ u, u ∉ w.zset k)
    (hzadd : ∀ k xs, c = .redis (.zadd k xs) → k ∈ w.redis.queueKeys) : Registered (c.exec w).2 := by
  intro k u hu
  cases hadds : adds k c with
  | false =>
      have hbefore := mem_zset_of_exec hadds hu
      cases hunlists : unlists k c with
      | false => exact mem_queueKeys_exec hunlists (h k u hbefore)
      | true =>
          refine absurd hbefore (hsrem k ?_ u)
          unfold unlists at hunlists
          split at hunlists
          · rw [eq_of_beq hunlists]
          · cases hunlists
  | true =>
      unfold adds at hadds
      split at hadds
      · obtain rfl := eq_of_beq hadds
        exact mem_queueKeys_multiJoin _ _ _
      · obtain rfl := eq_of_beq hadds
        exact mem_queueKeys_exec rfl (hzadd _ _ rfl)
      · cases hadds

/-- Most commands do neither. -/
def minor : Cmd → Bool
  | .redis (.srem _) => false
  | .redis (.zadd _ _) => false
  | _ => true

theorem Registered.minor (h : Registered w) (hc : minor c = true) : Registered (c.exec w).2 :=
  h.exec (fun _ hsrem => by rw [hsrem] at hc; cases hc) fun _ _ hzadd => by rw [hzadd] at hc; cases hc

end Step

/-! ## Between two halves -/

/-- The queue has been found empty. -/
def emptied (k : QueueKey) : Window queueService.system fun _ => True where
  opens := counts k
  disturbs := adds k
  fact w := ∀ u, u ∉ w.zset k
  exec _ _ _ hquiet hempty u hu := hempty u (mem_zset_of_exec hquiet hu)
  env e _ hempty := by cases e; exact hempty

/-- The key has been found known: members have been popped. -/
def known (k : QueueKey) : Window queueService.system fun _ => True where
  opens := pops k
  disturbs := unlists k
  fact w := k ∈ w.redis.queueKeys
  exec _ _ _ hquiet hk := mem_queueKeys_exec hquiet hk
  env e _ hk := by cases e; exact hk

/-- Calls without a rival. -/
abbrev registry : Discipline queueService.system :=
  windows (fun _ => True) (fun s => Registered s.world) fun i c s => unrivalled s i c = true

variable {o : QueueOp} {i : Nat} {k : QueueKey} {s : Snap queueService.system} {α β : Type}

theorem registry_minor {p : Prog α} (hp : p.Conforms (minor · = true) True) :
    registry.Valid o i p (fun _ _ => True) s :=
  Discipline.windows_conforms (J := fun _ => True) hp (fun _ _ _ h => h)
    (fun _ _ hc hreg _ _ => ⟨trivial, hreg.minor hc, trivial⟩) trivial

theorem minor_lock {c : Cmd} (h : LockCommand c) : minor c = true := by cases h <;> rfl

theorem minor_status {c : Cmd} (h : StatusCommand k c) : minor c = true := by cases h <;> rfl

theorem minor_settle {u : UserId} {c : Cmd} (h : SettleCommand u c) : minor c = true := by cases h <;> rfl

theorem minor_join {u : UserId} {input : QueueJoinInput} {c : Cmd}
    (h : JoinCommand u input c) : minor c = true := by
  cases h with
  | lock h => exact minor_lock h
  | _ => rfl

/-- **The cleanup** takes the key out of a queue that it has counted, and
nobody has entered since. -/
theorem cleanupQueueKey_valid : registry.Valid o i (cleanupQueueKey k) (fun _ _ => True) s := by
  refine Discipline.windows_await trivial fun s₁ _ hreg₁ _ => ⟨hreg₁.minor rfl, ?_⟩
  change registry.Valid o i (if (s₁.world.zset k).zcard = 0 then redis (.srem k) else pure ()) _ _
  split
  · next hcard =>
      have hempty : (emptied k).Rests i (s₁.exec i (.redis (.zcard k))) := by
        refine Window.rests_of_fact fun u hu => ?_
        obtain ⟨x, hx, -⟩ := List.mem_map.mp hu
        exact List.ne_nil_of_mem hx (List.length_eq_zero_iff.mp hcard)
      intro s₂ hawaits hreg₂ hun
      refine ⟨Discipline.windows_keeps trivial (hreg₂.exec (fun q hq => ?_) nofun), trivial⟩
      obtain rfl : k = q := by cases hq; rfl
      exact hawaits _ hempty hun
  · trivial

/-- What is put back goes into a queue that was known when it was popped. -/
theorem putBack_keeps {xs : List (Ranked UserId)} (hreg : Registered s.world) (hknown : (known k).Rests i s)
    (hun : unrivalled s i (.redis (.zadd k xs)) = true) :
    Registered ((Cmd.redis (.zadd k xs)).exec s.world).2 := by
  refine hreg.exec nofun fun q ys hq => ?_
  obtain rfl : k = q := by cases hq; rfl
  exact hknown hun

theorem popPair_valid : registry.Valid o i (popPair k)
    (fun r s' => ∀ pair, r = .ok (some pair) → (known k).Rests i s') s := by
  refine Discipline.windows_await trivial fun s₁ _ hreg₁ _ => ⟨hreg₁.minor rfl, ?_⟩
  have hknown : ∀ x ∈ (s₁.world.zset k).lowest 2, (known k).Rests i (s₁.exec i (.redis (.zpopmin k 2))) :=
    fun x hx => Window.rests_of_fact
      (mem_queueKeys_exec rfl (hreg₁ k x.member (SortedSet.mem_of_mem_lowest hx)))
  change registry.Resumes o i _ _ (.ok ((s₁.world.zset k).lowest 2)) _
  refine (Discipline.resumes_ok ((s₁.world.zset k).lowest 2)).mpr ?_
  dsimp only
  split
  · next a b rest hpopped =>
      intro pair _
      exact hknown a (by rw [hpopped]; exact List.mem_cons_self)
  · exact nofun
  · next lone hlone hempty =>
      obtain ⟨x, hx⟩ := List.exists_mem_of_ne_nil _ hempty
      refine Discipline.windows_await trivial fun s₂ hawaits hreg₂ hun =>
        ⟨putBack_keeps hreg₂ (hawaits _ (hknown x hx)) hun, nofun⟩

/-- A pair in hand: whoever is put back. -/
theorem matchPair_valid {pair : QueuePair} (hknown : (known k).Rests i s) :
    registry.Valid o i (matchPair k pair) (fun _ _ => True) s := by
  refine Discipline.windows_conforms (J := (known k).Rests i) (matchPair_issues k pair)
    (fun _ _ hawaits => hawaits _) (fun c s hc hreg hun hJ => ?_) hknown
  have hkept : pops k c = false → Registered (c.exec s.world).2 → True ∧ Registered (c.exec s.world).2 ∧
      (known k).Rests i (s.exec i c) :=
    fun hpops hreg' => ⟨trivial, hreg', hJ.exec trivial fun _ => hpops⟩
  cases hc with
  | lock h => cases h <;> exact hkept rfl (hreg.minor rfl)
  | putBack xs => exact hkept rfl (putBack_keeps hreg hJ hun)
  | _ => exact hkept rfl (hreg.minor rfl)

theorem matchLoop_valid (n : Nat) : registry.Valid o i (matchLoop k n) (fun _ _ => True) s := by
  induction n generalizing s with
  | zero => trivial
  | succ n ih =>
      refine Discipline.valid_bind (popPair_valid.weaken fun r s₁ hr => ?_)
      cases r with
      | error e => trivial
      | ok popped =>
          cases popped with
          | none => trivial
          | some pair => exact Discipline.windows_bind (matchPair_valid (hr pair rfl)) fun _ _ => ih

theorem processQueueKey_valid : registry.Valid o i (processQueueKey k) (fun _ _ => True) s := by
  have hsize : ∀ s, registry.Valid o i (getQueueSize k) (fun _ _ => True) s := fun s =>
    registry_minor ((getQueueSize_issues k).mono fun _ h => minor_status h)
  refine Discipline.windows_bind (hsize s) fun sizeBefore _ => ?_
  refine Discipline.windows_bind (matchLoop_valid _) fun _ _ => ?_
  refine Discipline.windows_bind cleanupQueueKey_valid fun _ _ => ?_
  refine Discipline.windows_bind (hsize _) fun sizeAfter _ => ?_
  split
  · exact registry_minor ((emitQueueStatus_issues k).mono fun _ h => minor_status h)
  · trivial

theorem leaveQueue_valid (u : UserId) : registry.Valid o i (leaveQueue u) (fun _ _ => True) s := by
  have hlock : ∀ {γ : Type} {p : Prog γ} {s}, p.Conforms LockCommand True →
      registry.Valid o i p (fun _ _ => True) s := fun hp => registry_minor (hp.mono fun _ => minor_lock)
  have hone : ∀ {c : Cmd} {s}, minor c = true → registry.Valid o i (Proc.await c) (fun _ _ => True) s :=
    fun hc => registry_minor (Proc.conforms_await hc)
  refine Discipline.windows_bind (hlock (acquireLock_issues u)) fun lock _ => ?_
  cases lock with
  | none => trivial
  | some v =>
      refine Discipline.windows_tryFinally ?_ fun _ => hlock (releaseLock_issues u v)
      refine Discipline.windows_bind (hone rfl) fun stateRaw _ => ?_
      split
      · exact Discipline.windows_bind (hone rfl) fun _ _ => trivial
      split
      · exact Discipline.windows_bind (hone rfl) fun _ _ =>
          Discipline.windows_bind (hone rfl) fun _ _ => trivial
      refine Discipline.windows_bind (hone rfl) fun matched _ => ?_
      refine Discipline.windows_bind (hone rfl) fun removed _ => ?_
      refine Discipline.windows_bind (hone rfl) fun _ _ => ?_
      refine Discipline.windows_bind cleanupQueueKey_valid fun _ _ => ?_
      exact registry_minor ((settleLeave_issues u _ removed _).mono fun _ => minor_settle)

/-- **Every operation.** -/
theorem code_valid (o : QueueOp) (i : Nat) (s : Snap queueService.system) :
    registry.Valid o i o.code (fun _ _ => True) s := by
  cases o with
  | joinQueue u input => exact registry_minor ((joinQueue_issues u input).mono fun _ => minor_join)
  | leaveQueue u => exact leaveQueue_valid u
  | processQueueKey k => exact processQueueKey_valid

/-! ## Runs -/

/-- **Queues stay in sight.** From a world in which every queue with a member
is known, in every run of joins, leaves and passes, command by command: if
nobody enters a queue between the count and the `SREM` of a cleanup, and no
key is taken out between a pop and the `ZADD` that puts members back, then
every queue with a member is known in every state that is reached, with calls
in flight or none. -/
theorem stays_registered {w : World} (hw : Registered w) (es : List (Event queueService.system))
    (hun : (Config.initial w).Obeys UnrivalledStep es) :
    Registered ((Config.initial w : Config queueService.system).run es).world := by
  refine Discipline.windows_run code_valid (fun c i cmd hok hpending => ?_) (fun c e _ hreg => ?_) hw hun
  · have hall : (c.pending i).all (unrivalled c.toSnap i) = true := hok
    rwa [hpending] at hall
  · cases e
    exact hreg

/-- Ann leaves; Bob joins after her call has counted an empty queue, and
before it takes the key out. -/
def joinsMeanwhile : List (Event queueService.system) :=
  [joinsAny "ann"] ++ steps 0 10 ++ [.start (.leaveQueue "ann")] ++ steps 1 7 ++
    [joinsAny "bob"] ++ steps 2 10 ++ steps 1 10

/-- Bob waits in a queue the worker does not visit. -/
theorem registered_lost : ¬∀ es : List (Event queueService.system),
    ((Config.initial (World.peopled ["ann", "bob"] 1)).run es).Quiet →
      Registered ((Config.initial (World.peopled ["ann", "bob"] 1)).run es).world := by
  intro hall
  have hbob := hall joinsMeanwhile (by decide +kernel) "canberra:any" "bob" (by decide +kernel)
  revert hbob
  decide +kernel

theorem stays_registered_leavesWaiting :
    Registered ((Config.initial (World.peopled ["ann", "bob"] 1)).run leavesWaiting).world :=
  stays_registered (fun _ _ hu => absurd hu (SortedSet.not_mem_empty _)) leavesWaiting (by decide +kernel)

end VerityBackend.Matchmaking
