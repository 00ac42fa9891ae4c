/-
VerityBackend.App.Aside — what most of the backend has nothing to do with.

Two things are read or written in few places: the profiles of the users,
and the keys that guard what is done once: `session:ended:<id>` and
`session:decision:<id>` for a session, and `moderation:hive:webhook:<hash>`
for a delivery. A command is aside when it is about neither.
Every operation outside the session service issues such commands only,
but for the end of a session (`punish`) and the reveals.
-/
import VerityBackend.App.Issued
import VerityBackend.Backend.Frames

namespace VerityBackend

/-- Not a key that guards what is done once. -/
def RedisKey.aside : RedisKey → Bool
  | .sessionEnded _ => false
  | .sessionDecision _ => false
  | .hiveWebhook _ _ => false
  | _ => true

/-- The command touches no key that guards what is done once. -/
def Cmd.sparing : Cmd → Bool
  | .redis (.set k _ _) => k.aside
  | .redis (.setNX k _ _) => k.aside
  | .redis (.del ks) => ks.all RedisKey.aside
  | .redis (.releaseLock k _) => k.aside
  | _ => true

/-- The answer holds profiles. -/
def Cmd.readsProfile : Cmd → Bool
  | .db (.userFindUnique _) => true
  | .db (.userFindMany _) => true
  | .db (.matchFindWithUsers _) => true
  | _ => false

/-- The command is about neither. -/
def Cmd.aside (c : Cmd) : Bool := c.sparing && !c.readsProfile

theorem Cmd.sparing_of_aside {c : Cmd} (h : c.aside = true) : c.sparing = true :=
  (Bool.and_eq_true_iff.mp h).1

theorem Cmd.not_readsProfile_of_aside {c : Cmd} (h : c.aside = true) : c.readsProfile = false := by
  simpa using (Bool.and_eq_true_iff.mp h).2

/-- A sparing command leaves these keys as they are. -/
theorem Cmd.not_touches_of_sparing {c : Cmd} {k : RedisKey} (hc : c.sparing = true)
    (hk : k.aside = false) : ¬c.touches k := by
  have hne : ∀ k' : RedisKey, k'.aside = true → k ≠ k' := by
    rintro k' hk' rfl
    rw [hk] at hk'
    cases hk'
  cases c with
  | db c => exact id
  | host c => exact id
  | redis c =>
      cases c with
      | set k' v ttl => exact hne k' hc
      | setNX k' v ttl => exact hne k' hc
      | releaseLock k' v => exact hne k' hc
      | del ks => exact fun hmem => hne k (List.all_eq_true.mp hc k hmem) rfl
      | multiJoin q user joinedAt state => exact hne _ rfl
      | multiMarkMatched userA userB id ttl =>
          rintro (h | h | h | h)
          · exact hne _ rfl h
          · exact hne _ rfl h
          · exact hne _ rfl h
          · exact hne _ rfl h
      | _ => exact id

/-- A key of the queue service. -/
def RedisKey.ofQueue : RedisKey → Bool
  | .queueUser _ => true
  | .queueLock _ => true
  | .queueMatched _ => true
  | _ => false

/-- A command as the queue service issues them: it touches no other key,
takes no session away and reads no profile. -/
def Cmd.queued : Cmd → Bool
  | .redis (.set k _ _) => k.ofQueue
  | .redis (.setNX k _ _) => k.ofQueue
  | .redis (.del ks) => ks.all RedisKey.ofQueue
  | .redis (.releaseLock k _) => k.ofQueue
  | .db (.sessionDeleteMany _) => false
  | c => !c.readsProfile

theorem RedisKey.aside_of_ofQueue {k : RedisKey} (h : k.ofQueue = true) : k.aside = true := by
  cases k <;> first | rfl | cases h

/-- The queue has nothing to do with guards and profiles. -/
theorem Cmd.aside_of_queued {c : Cmd} (h : c.queued = true) : c.aside = true := by
  cases c with
  | host c => rfl
  | db c => cases c <;> first | rfl | cases h
  | redis c =>
      cases c with
      | set k v ttl => exact Bool.and_eq_true_iff.mpr ⟨RedisKey.aside_of_ofQueue h, rfl⟩
      | setNX k v ttl => exact Bool.and_eq_true_iff.mpr ⟨RedisKey.aside_of_ofQueue h, rfl⟩
      | releaseLock k v => exact Bool.and_eq_true_iff.mpr ⟨RedisKey.aside_of_ofQueue h, rfl⟩
      | del ks =>
          refine Bool.and_eq_true_iff.mpr ⟨List.all_eq_true.mpr fun k hk => ?_, rfl⟩
          exact RedisKey.aside_of_ofQueue (List.all_eq_true.mp h k hk)
      | _ => rfl

/-- No other key is touched for the queue. -/
theorem Cmd.not_touches_of_queued {c : Cmd} {k : RedisKey} (hc : c.queued = true)
    (hk : k.ofQueue = false) : ¬c.touches k := by
  have hne : ∀ k' : RedisKey, k'.ofQueue = true → k ≠ k' := by
    rintro k' hk' rfl
    rw [hk] at hk'
    cases hk'
  cases c with
  | db c => exact id
  | host c => exact id
  | redis c =>
      cases c with
      | set k' v ttl => exact hne k' hc
      | setNX k' v ttl => exact hne k' hc
      | releaseLock k' v => exact hne k' hc
      | del ks => exact fun hmem => hne k (List.all_eq_true.mp hc k hmem) rfl
      | multiJoin q user joinedAt state => exact hne _ rfl
      | multiMarkMatched userA userB id ttl =>
          rintro (h | h | h | h)
          · exact hne _ rfl h
          · exact hne _ rfl h
          · exact hne _ rfl h
          · exact hne _ rfl h
      | _ => exact id

end VerityBackend

namespace VerityBackend.App

open Async

/-- All commands of the procedure are aside. -/
abbrev Aside {α : Type} (p : Prog α) : Prop := p.Conforms (fun c => c.aside = true) True

/-! ## The queue -/

section Queue

open Queue

/-- All commands of the procedure are commands of the queue. -/
abbrev Queued {α : Type} (p : Prog α) : Prop := p.Conforms (fun c => c.queued = true) True

theorem queued_await {c : Cmd} (h : c.queued = true) : Queued (Proc.await c) :=
  Proc.conforms_await h

theorem queued_lock {c : Cmd} (h : LockCommand c) : c.queued = true := by cases h <;> rfl

/-- Joining writes the entry, the lock and the queue. -/
theorem queued_join {userId : UserId} {input : QueueJoinInput} {c : Cmd}
    (h : JoinCommand userId input c) : c.queued = true := by
  cases h with
  | lock h => exact queued_lock h
  | _ => rfl

theorem queued_cleanup {queueKey : QueueKey} {c : Cmd} (h : CleanupCommand queueKey c) :
    c.queued = true := by cases h <;> rfl

/-- Leaving deletes the entry. -/
theorem queued_leave {userId : UserId} {c : Cmd} (h : LeaveCommand userId c) : c.queued = true := by
  cases h with
  | lock h => exact queued_lock h
  | cleanup h => exact queued_cleanup h
  | settle h => cases h <;> rfl
  | _ => rfl

theorem queued_status {queueKey : QueueKey} {c : Cmd} (h : StatusCommand queueKey c) :
    c.queued = true := by cases h <;> rfl

/-- A pass deletes entries and sets marks. -/
theorem queued_pass {queueKey : QueueKey} {c : Cmd} (h : PassCommand queueKey c) :
    c.queued = true := by
  cases h with
  | status h => exact queued_status h
  | cleanup h => exact queued_cleanup h
  | pop => rfl
  | pair h =>
      cases h with
      | lock h => exact queued_lock h
      | _ => rfl

/-- Every operation of the queue. -/
theorem queued_queue (o : QueueOp) : Queued o.code := by
  cases o with
  | joinQueue userId input => exact (joinQueue_issues userId input).mono fun _ => queued_join
  | leaveQueue userId => exact (leaveQueue_issues userId).mono fun _ => queued_leave
  | processQueueKey queueKey => exact (processQueueKey_issues queueKey).mono fun _ => queued_pass

theorem aside_queue (o : QueueOp) : Aside o.code :=
  (queued_queue o).mono fun _ h => Cmd.aside_of_queued h

end Queue

/-! ## Moderation -/

section Moderation

open Moderation

/-- Moderation takes a user out of the queue. -/
theorem aside_remove {userId : UserId} {c : Cmd} (h : RemoveCommand userId c) : c.aside = true := by
  cases h <;> rfl

/-- Blocks are rows. -/
theorem aside_block {blockerId blockedId : UserId} {c : Cmd} (h : BlockCommand blockerId blockedId c) :
    c.aside = true := by
  cases h with
  | remove h => exact aside_remove h
  | _ => rfl

/-- Reports are rows, with a counter of their own. -/
theorem aside_createReport (reporterId : UserId) (input : ReportUserDto) :
    Aside (createReport reporterId input) := by
  refine (createReport_issues reporterId input).mono fun c hc => ?_
  cases hc with
  | remove h => exact aside_remove h
  | _ => rfl

theorem aside_createBlock (blockerId blockedId : UserId) :
    Aside (createBlock blockerId blockedId) :=
  (createBlock_issues blockerId blockedId).mono fun _ => aside_block

theorem aside_unblock (blockerId blockedId : UserId) : Aside (unblock blockerId blockedId) :=
  (unblock_issues blockerId blockedId).mono fun _ hc => by cases hc <;> rfl

theorem aside_resolveReport (reportId : String) (action : ModerationAction) :
    Aside (resolveReport reportId action) := by
  refine (resolveReport_issues reportId action).mono fun c hc => ?_
  cases hc with
  | block h => exact aside_block h
  | _ => rfl

/-- The signature is checked without Redis or the database. -/
theorem aside_verifyWebhookSignature (cfg : HiveConfig) (rawBody : Body)
    (signature timestamp : Option String) :
    Aside (verifyWebhookSignature cfg rawBody signature timestamp) :=
  (verifyWebhookSignature_issues cfg rawBody signature timestamp).mono fun _ hc => by rw [hc]; rfl

end Moderation

/-! ## Matches, chat and payments -/

section Chat

variable (matchId : MatchId) (userId : UserId)

theorem aside_openCommand {matchId : MatchId} {c : Cmd} (h : Chat.OpenCommand matchId c) :
    c.aside = true := by cases h <;> rfl

/-- Messages are read without the profiles. -/
theorem aside_listMessages (limit : Option Int) : Aside (Chat.listMessages matchId userId limit) := by
  refine (Chat.listMessages_issues matchId userId limit).mono fun c hc => ?_
  cases hc with
  | openMatch h => exact aside_openCommand h
  | _ => rfl

theorem aside_handleStripeWebhookEvent (event : Payments.StripeEvent) :
    Aside (Payments.handleStripeWebhookEvent event) :=
  (handleStripeWebhookEvent_issues event).mono fun _ hc => by cases hc <;> rfl

theorem aside_cleanupExpiredSessions : Aside Sessions.cleanupExpiredSessions :=
  Sessions.cleanupExpiredSessions_issues.mono fun _ hc => by cases hc <;> rfl

end Chat

end VerityBackend.App
