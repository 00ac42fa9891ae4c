/-
VerityBackend.Queue.Issued — which commands the queue issues.

One inductive predicate for each operation lists the commands its procedure
can issue, whatever they are answered. What is to be known of every command
of an operation is then a case analysis over the list.
-/
import VerityBackend.Queue.Service

namespace VerityBackend.Queue

open Async Store

/-- `acquireLock` and `releaseLock`. -/
inductive LockCommand : Cmd → Prop
  | draw : LockCommand (.host .randomUUID)
  | take (u : UserId) (v : String) :
      LockCommand (.redis (.setNX (.queueLock u) (.text v) LOCK_TTL_MS))
  | release (u : UserId) (v : String) : LockCommand (.redis (.releaseLock (.queueLock u) (.text v)))

/-- `joinQueue`. -/
inductive JoinCommand (u : UserId) (input : QueueJoinInput) : Cmd → Prop
  | lock {c : Cmd} (h : LockCommand c) : JoinCommand u input c
  | ban : JoinCommand u input (.redis (.get (.moderationBan u)))
  | entry : JoinCommand u input (.redis (.get (.queueUser u)))
  | rank (k : QueueKey) : JoinCommand u input (.redis (.zrank k u))
  | debit : JoinCommand u input (.db (.userDebit u))
  | now : JoinCommand u input (.host .now)
  | enter (k : QueueKey) (joinedAt : Nat) : JoinCommand u input
      (.redis (.multiJoin k u joinedAt (QueueEntryState.mk k joinedAt).toJson))
  | refund : JoinCommand u input (.db (.userRefund u))
  | tell {queueCity : String} {k : QueueKey} (hcity : resolveQueueCity input = .ok queueCity)
      (hkey : buildQueueKey queueCity input.preferences = .ok k) (position : Option Nat) :
      JoinCommand u input (.host (.emit (joinedEvents u queueCity k position)))

/-- `cleanupQueueKey`. -/
inductive CleanupCommand (k : QueueKey) : Cmd → Prop
  | count : CleanupCommand k (.redis (.zcard k))
  | unlist : CleanupCommand k (.redis (.srem k))

/-- `settleLeave`. -/
inductive SettleCommand (u : UserId) : Cmd → Prop
  | refund : SettleCommand u (.db (.userRefund u))
  | tell (status : String) (result : QueueLeaveResult)
      (h : status ∈ ["refunded", "matched_concurrently", "not_refunded"]) :
      SettleCommand u (.host (.emit [queueCancelEvent u status, queueLeftEvent u result]))

/-- `leaveQueue`. -/
inductive LeaveCommand (u : UserId) : Cmd → Prop
  | lock {c : Cmd} (h : LockCommand c) : LeaveCommand u c
  | entry : LeaveCommand u (.redis (.get (.queueUser u)))
  | found : LeaveCommand u (.redis (.get (.queueMatched u)))
  | remove (k : QueueKey) : LeaveCommand u (.redis (.zrem k u))
  | clear : LeaveCommand u (.redis (.del [.queueUser u]))
  | cleanup {k : QueueKey} {c : Cmd} (h : CleanupCommand k c) : LeaveCommand u c
  | tell (result : QueueLeaveResult) : LeaveCommand u (.host (.emit [queueLeftEvent u result]))
  | settle {c : Cmd} (h : SettleCommand u c) : LeaveCommand u c

/-- `emitQueueStatus`. -/
inductive StatusCommand (k : QueueKey) : Cmd → Prop
  | range : StatusCommand k (.redis (.zrange k))
  | count : StatusCommand k (.redis (.zcard k))
  | tell (userIds : List UserId) (usersSearching : Nat) :
      StatusCommand k (.host (.emit (userIds.map (Output.queueStatus · usersSearching))))

/-- The events of a match. -/
def matchOutputs (pair : QueuePair) (session : Session) (waitA waitB : Nat) : List Output :=
  [matchFoundEvent pair.userA pair.userB session waitA,
    matchFoundEvent pair.userB pair.userA session waitB,
    queueMatchOutput pair.userA pair.userB session, queueMatchOutput pair.userB pair.userA session,
    .push [pair.userA, pair.userB] .queue_match_found
      [("sessionId", .str session.id),
        ("queueKey", match session.queueKey with | some k => .str k | none => .null)]]

/-- One popped pair, as far as the worker gets with it. -/
inductive PairCommand (k : QueueKey) : Cmd → Prop
  | lock {c : Cmd} (h : LockCommand c) : PairCommand k c
  | putBack (xs : List (Ranked UserId)) : PairCommand k (.redis (.zadd k xs))
  | read (a b : UserId) : PairCommand k (.redis (.mget (.queueUser a) (.queueUser b)))
  | block (a b : UserId) : PairCommand k (.db (.blockFindFirst a b))
  | now : PairCommand k (.host .now)
  | create (a b : UserId) : PairCommand k (.db (.sessionCreate a b (some (cityOf k)) (some k)))
  | created (session : Session) : PairCommand k (.host (.emit [.sessionCreated session]))
  | mark (a b : UserId) (id : SessionId) :
      PairCommand k (.redis (.multiMarkMatched a b id MATCHED_TTL_MS))
  | tell (pair : QueuePair) (session : Session) (waitA waitB : Nat) :
      PairCommand k (.host (.emit (matchOutputs pair session waitA waitB)))

/-- `processQueueKey`. -/
inductive PassCommand (k : QueueKey) : Cmd → Prop
  | status {c : Cmd} (h : StatusCommand k c) : PassCommand k c
  | pop : PassCommand k (.redis (.zpopmin k 2))
  | pair {c : Cmd} (h : PairCommand k c) : PassCommand k c
  | cleanup {c : Cmd} (h : CleanupCommand k c) : PassCommand k c

/-! ## Locks -/

/-- A value is drawn, and the lock is taken with it. -/
theorem acquireLock_issues (u : UserId) : (acquireLock u).Conforms LockCommand True :=
  (Proc.conforms_await .draw).bind fun v =>
    (Proc.conforms_await (.take u v)).bind fun _ => Proc.conforms_pure _

/-- The lock is compared and deleted in one command. -/
theorem releaseLock_issues (u : UserId) (v : String) :
    (releaseLock u v).Conforms LockCommand True := Proc.conforms_await (.release u v)

theorem releaseUserLocks_issues (locks : List (UserId × String)) :
    (releaseUserLocks locks).Conforms LockCommand True := by
  induction locks with
  | nil => exact Proc.conforms_pure ()
  | cons lock locks ih => exact (releaseLock_issues lock.1 lock.2).bind fun _ => ih

/-- Locks that have been taken are released if one is missing. -/
theorem lockUsersFrom_issues (us : List UserId) (locks : List (UserId × String)) :
    (lockUsersFrom locks us).Conforms LockCommand True := by
  induction us generalizing locks with
  | nil => exact Proc.conforms_pure _
  | cons u us ih =>
      refine (acquireLock_issues u).bind fun acquired => ?_
      cases acquired with
      | none => exact (releaseUserLocks_issues locks).bind fun _ => Proc.conforms_pure _
      | some v => exact ih (setLock u v locks)

/-! ## Joining and leaving -/

section Join

variable (u : UserId) (input : QueueJoinInput)

/-- Who is queued already is told so. -/
theorem alreadyQueued_issues (state : QueueEntryState) :
    (alreadyQueued u state).Conforms (JoinCommand u input) True :=
  (Proc.conforms_await (.rank _)).bind fun _ => Proc.conforms_pure _

/-- The entry, the member and the key of the queue. -/
theorem enqueueEntry_issues (k : QueueKey) (joinedAt : Nat) :
    (enqueueEntry u k joinedAt).Conforms (JoinCommand u input) True := by
  refine Proc.Conforms.tryCatch ((Proc.conforms_await (.enter k joinedAt)).bind fun results => ?_)
    fun e => (Proc.conforms_await .refund).bind fun _ => Proc.conforms_fail e trivial
  split
  · exact Proc.conforms_fail _ trivial
  · exact Proc.conforms_pure ()

/-- The city and the key are those of the input. -/
theorem enqueue_issues {city : String} {k : QueueKey} (hcity : resolveQueueCity input = .ok city)
    (hkey : buildQueueKey city input.preferences = .ok k) :
    (enqueue u city k).Conforms (JoinCommand u input) True := by
  refine (Proc.conforms_await .entry).bind fun existing => ?_
  split
  · exact alreadyQueued_issues u input _
  refine (Proc.conforms_await .debit).bind fun updated => ?_
  split
  · exact Proc.conforms_fail _ trivial
  · exact (Proc.conforms_await .now).bind fun joinedAt => (enqueueEntry_issues u input k joinedAt).bind
      fun _ => (Proc.conforms_await (.rank k)).bind fun position =>
        (Proc.conforms_await (.tell hcity hkey position)).bind fun _ => Proc.conforms_pure _

/-- Without the lock only the entry is read. -/
theorem joinBusy_issues : (joinBusy u).Conforms (JoinCommand u input) True := by
  refine (Proc.conforms_await .entry).bind fun existing => ?_
  split
  · exact alreadyQueued_issues u input _
  · exact Proc.conforms_fail _ trivial

/-- A user who is not banned joins under the lock. -/
theorem joinChecked_issues {city : String} {k : QueueKey} (hcity : resolveQueueCity input = .ok city)
    (hkey : buildQueueKey city input.preferences = .ok k) :
    (joinChecked u city k).Conforms (JoinCommand u input) True := by
  refine ((acquireLock_issues u).mono fun _ h => .lock h).bind fun lock => ?_
  cases lock with
  | none => exact joinBusy_issues u input
  | some v =>
      exact (enqueue_issues u input hcity hkey).tryFinally
        ((releaseLock_issues u v).mono fun _ h => .lock h)

/-- The city and the key of the queue are what the input says. -/
theorem joinQueue_issues : (joinQueue u input).Conforms (JoinCommand u input) True := by
  refine (Proc.conforms_await .ban).bind fun banned => ?_
  split
  · exact Proc.conforms_fail _ trivial
  split
  · exact Proc.conforms_fail _ trivial
  next hcity =>
    split
    · exact Proc.conforms_fail _ trivial
    · next hkey => exact joinChecked_issues u input hcity hkey

end Join

/-- The members are counted, and an empty queue is taken out of the set. -/
theorem cleanupQueueKey_issues {b : Prop} (k : QueueKey) :
    (cleanupQueueKey k).Conforms (CleanupCommand k) b := by
  refine (Proc.conforms_await .count).bind fun remaining => ?_
  split
  · exact Proc.conforms_await .unlist
  · exact Proc.conforms_pure ()

/-- A refund, if an unmatched member was removed; and the events. -/
theorem settleLeave_issues (u : UserId) (k : QueueKey) (removed : Nat) (matched : Bool) :
    (settleLeave u k removed matched).Conforms (SettleCommand u) True := by
  unfold settleLeave
  split
  · exact (Proc.conforms_await .refund).bind fun _ =>
      (Proc.conforms_await (.tell _ _ (by decide))).bind fun _ => Proc.conforms_pure _
  · refine (Proc.conforms_await (.tell _ _ ?_)).bind fun _ => Proc.conforms_pure _
    split <;> decide

/-- `leaveQueue`, with the lock held. -/
theorem leaveLocked_issues (u : UserId) : (leaveLocked u).Conforms (LeaveCommand u) True := by
  refine (Proc.conforms_await .entry).bind fun stateRaw => ?_
  split
  · exact (Proc.conforms_await (.tell _)).bind fun _ => Proc.conforms_pure _
  split
  · exact (Proc.conforms_await .clear).bind fun _ =>
      (Proc.conforms_await (.tell _)).bind fun _ => Proc.conforms_pure _
  · exact (Proc.conforms_await .found).bind fun matched => (Proc.conforms_await (.remove _)).bind
      fun removed => (Proc.conforms_await .clear).bind fun _ =>
        ((cleanupQueueKey_issues _).mono fun _ h => .cleanup h).bind
          fun _ => (settleLeave_issues u _ removed _).mono fun _ h => .settle h

/-- `leaveQueue`, from the lock to its release. -/
theorem leaveQueue_issues (u : UserId) : (leaveQueue u).Conforms (LeaveCommand u) True := by
  refine ((acquireLock_issues u).mono fun _ h => .lock h).bind fun lock => ?_
  split
  · exact Proc.conforms_fail _ trivial
  · exact (leaveLocked_issues u).tryFinally ((releaseLock_issues u _).mono fun _ h => .lock h)

/-! ## Matching -/

section Pass

variable (k : QueueKey)

theorem getQueueSize_issues {b : Prop} : (getQueueSize k).Conforms (StatusCommand k) b := by
  unfold getQueueSize
  split
  · exact Proc.conforms_pure 0
  · exact Proc.conforms_await .count

/-- Everybody in the queue is told how many are searching. -/
theorem emitQueueStatus_issues {b : Prop} : (emitQueueStatus k).Conforms (StatusCommand k) b := by
  unfold emitQueueStatus
  split
  · exact Proc.conforms_pure ()
  · next hk =>
      refine Proc.Conforms.tryCatch (Proc.Conforms.bind ?_ fun userIds => ?_) fun _ =>
        Proc.conforms_pure ()
      · unfold getQueuedUserIds
        rw [if_neg hk]
        exact Proc.conforms_await .range
      · split
        · exact Proc.conforms_pure ()
        · exact (getQueueSize_issues k).bind fun size => Proc.conforms_await (.tell userIds size)

/-- Two members are popped; a single one is put back. -/
theorem popPair_issues : (popPair k).Conforms (PassCommand k) True := by
  refine (Proc.conforms_await .pop).bind fun popped => ?_
  split
  · exact Proc.conforms_pure _
  · exact Proc.conforms_pure _
  · exact (Proc.conforms_await (.pair (.putBack _))).bind fun _ => Proc.conforms_pure _

/-- The entries of both are read, the pair is checked for a block, and who still
waits is put back. -/
theorem validatePair_issues (pair : QueuePair) :
    (validatePair k pair).Conforms (PairCommand k) True := by
  have hputBack : ∀ xs, ((redis (.zadd k xs)).bind fun _ => pure false).Conforms (PairCommand k) True :=
    fun xs => (Proc.conforms_await (.putBack xs)).bind fun _ => Proc.conforms_pure _
  refine (Proc.conforms_await (.read _ _)).bind fun states => ?_
  dsimp only
  split
  · exact Proc.conforms_pure _
  split
  · exact hputBack _
  split
  · exact hputBack _
  refine Proc.Conforms.bind ((Proc.conforms_await (.block _ _)).bind fun _ => Proc.conforms_pure _)
    fun blocked => ?_
  split
  · refine Proc.Conforms.bind ?_ fun _ => Proc.conforms_pure _
    exact (Proc.conforms_await .now).bind fun _ => Proc.conforms_await (.putBack _)
  · exact Proc.conforms_pure _

/-- With both locks held: a session, two entries deleted, and the announcements. -/
theorem matchLocked_issues (pair : QueuePair) : (matchLocked k pair).Conforms (PairCommand k) True :=
  (Proc.conforms_await .now).bind fun _ =>
    Proc.Conforms.bind ((Proc.conforms_await (.create _ _)).bind fun session =>
      (Proc.conforms_await (.created session)).bind fun _ => Proc.conforms_pure _) fun session =>
        (Proc.conforms_await (.mark _ _ _)).bind fun _ => Proc.conforms_await (.tell pair session _ _)

theorem matchPair_issues (pair : QueuePair) : (matchPair k pair).Conforms (PairCommand k) True := by
  refine (validatePair_issues k pair).bind fun valid => ?_
  split
  · exact Proc.conforms_pure ()
  refine ((lockUsersFrom_issues _ []).mono fun _ h => .lock h).bind fun locks => ?_
  split
  · exact Proc.conforms_await (.putBack _)
  · exact (matchLocked_issues k pair).tryFinally
      ((releaseUserLocks_issues _).mono fun _ h => .lock h)

/-- Ten pairs at most. -/
theorem matchLoop_issues (n : Nat) : (matchLoop k n).Conforms (PassCommand k) True := by
  induction n with
  | zero => exact Proc.conforms_pure ()
  | succ n ih =>
      refine (popPair_issues k).bind fun popped => ?_
      split
      · exact Proc.conforms_pure ()
      · exact ((matchPair_issues k _).mono fun _ h => .pair h).bind fun _ => ih

/-- A pass: the matches, the cleanup and the status. -/
theorem processQueueKey_issues : (processQueueKey k).Conforms (PassCommand k) True := by
  have hsize : (getQueueSize k).Conforms (PassCommand k) True :=
    (getQueueSize_issues k).mono fun _ h => .status h
  refine hsize.bind fun sizeBefore => (matchLoop_issues k _).bind fun _ =>
    ((cleanupQueueKey_issues k).mono fun _ h => .cleanup h).bind fun _ => hsize.bind fun sizeAfter => ?_
  split
  · exact (emitQueueStatus_issues k).mono fun _ h => .status h
  · exact Proc.conforms_pure ()

end Pass

end VerityBackend.Queue
