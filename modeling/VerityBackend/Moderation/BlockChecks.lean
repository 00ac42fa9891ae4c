/-
VerityBackend.Moderation.BlockChecks — looking at the blocks, and acting
later.

The worker and the chat look at the table of blocks once and act some
commands later. What a call has seen is read off its own commands
(`cleared`): the two users between whom it found no block, as long as it
has not decided about them. Whatever others do to the table meanwhile, a
session is created and a message stored or sent by a call only that is
cleared for the two users (`vigilance`).
-/
import VerityBackend.Async.Knowledge
import VerityBackend.Backend.BlockRows
import VerityBackend.Backend.MatchRows
import VerityBackend.Chat.Service
import VerityBackend.Moderation.Issued
import VerityBackend.Queue.Issued

namespace VerityBackend

/-- A message for the chat. -/
def Output.isMessage : Output → Bool
  | .messageNew _ _ => true
  | _ => false

end VerityBackend

namespace VerityBackend.Moderation

open Async Queue Chat

/-! ## The service -/

/-- The queue, the chat, and the calls that change a block. -/
inductive BlockingOp where
  | createBlock (blockerId blockedId : UserId)
  | createReport (reporterId : UserId) (input : ReportUserDto)
  | unblock (blockerId blockedId : UserId)
  | queue (o : QueueOp)
  | sendMessage (matchId : MatchId) (userId : UserId) (text : String)
  deriving DecidableEq, Repr

abbrev BlockingOp.Ret : BlockingOp → Type
  | .createBlock _ _ => BlockResult
  | .createReport _ _ => ModerationReport
  | .unblock _ _ => UnblockResult
  | .queue o => o.Ret
  | .sendMessage _ _ _ => Message

def BlockingOp.code : (o : BlockingOp) → Prog o.Ret
  | .createBlock blockerId blockedId => Moderation.createBlock blockerId blockedId
  | .createReport reporterId input => Moderation.createReport reporterId input
  | .unblock blockerId blockedId => Moderation.unblock blockerId blockedId
  | .queue o => o.code
  | .sendMessage matchId userId text => Chat.sendMessage matchId userId text

@[reducible] def blockingService : Service where
  Op := BlockingOp
  Ret := BlockingOp.Ret
  code := BlockingOp.code

/-! ## What crosses a block -/

/-- The same two users, in either order. -/
def samePair (a b x y : UserId) : Bool := (x == a && y == b) || (x == b && y == a)

/-- The match is one between `a` and `b`. -/
def conversation (a b : UserId) (w : World) (matchId : MatchId) : Bool :=
  (w.db.matchRows.find? (·.id = matchId)).any fun m => samePair a b m.userAId m.userBId

/-- The command makes a session of `a` and `b`, or stores or sends a message
between them. -/
def crosses (a b : UserId) (w : World) : Cmd → Bool
  | .db (.sessionCreate userAId userBId _ _) => samePair a b userAId userBId
  | .db (.messageCreate matchId _ _) => conversation a b w matchId
  | .host (.emit os) => os.any fun
      | .messageNew _ payload => conversation a b w payload.matchId
      | _ => false
  | _ => false

/-- What a call is cleared for after this command, having been cleared for
`before`: a look at the blocks clears it or does not; then a session, a
message that is sent or a lock that is taken already ends the matter. -/
def heard (before : Option (UserId × UserId)) : (c : Cmd) → Except Err c.Res → Option (UserId × UserId)
  | .db (.blockFindFirst userAId userBId), .ok none => some (userAId, userBId)
  | .db (.blockFindFirst _ _), _ => none
  | .db (.sessionCreate _ _ _ _), _ => none
  | .redis (.setNX _ _ _), .ok false => none
  | .host (.emit os), _ => if os.any Output.isMessage then none else before
  | _, _ => before

/-- The pair a call is cleared for, by its own commands (newest first). -/
def cleared : List (Entry blockingService.system) → Option (UserId × UserId)
  | [] => none
  | e :: own => heard (cleared own) e.cmd e.res

/-- A call with these commands is cleared for `a` and `b`. -/
def clearedFor (a b : UserId) (own : List (Entry blockingService.system)) : Bool :=
  (cleared own).any fun pair => samePair a b pair.1 pair.2

/-! ## Who has blocked whom -/

/-- The commands with which a call looks up or writes the row of a block. -/
def writesBlock : Cmd → Bool
  | .db (.blockFindUnique _ _) => true
  | .db (.blockCreate _ _) => true
  | .db (.blockReopen _) => true
  | .db (.reportTransaction _ _ _ _) => true
  | _ => false

/-- What has been executed since call `i` wrote its block. -/
def sinceBlock (i : Nat) (trace : List (Entry blockingService.system)) :
    List (Entry blockingService.system) :=
  trace.takeWhile fun e => !(e.call == i && writesBlock e.cmd)

/-- Nobody has lifted the block that call `i` has written. -/
def neverLifted (a b : UserId) (i : Nat) (trace : List (Entry blockingService.system)) : Bool :=
  (sinceBlock i trace).all fun e => !e.cmd.unblocks a b e.before

/-- The block that call `i` has written stands until it is lifted. -/
def Upheld (a b : UserId) (i : Nat) (s : Snap blockingService.system) : Prop :=
  neverLifted a b i s.trace = true → Stands a b s.world

section Upheld

variable {a b : UserId} {i : Nat} {s : Snap blockingService.system}

theorem neverLifted_exec {j : Nat} {c : Cmd} (hc : ¬(j = i ∧ writesBlock c = true)) :
    neverLifted a b i (s.exec j c).trace =
      (!c.unblocks a b s.world && neverLifted a b i s.trace) := by
  have hnew : (!(j == i && writesBlock c)) = true := by simpa [imp_iff_not_or] using hc
  simp only [neverLifted, sinceBlock, Snap.exec_trace, List.takeWhile_cons, hnew, if_true,
    List.all_cons]

/-- It is upheld by every other command. -/
theorem Upheld.exec (h : Upheld a b i s) {j : Nat} {c : Cmd}
    (hc : ¬(j = i ∧ writesBlock c = true)) : Upheld a b i (s.exec j c) := by
  intro hlifted
  rw [neverLifted_exec hc, Bool.and_eq_true, Bool.not_eq_true'] at hlifted
  exact stands_exec (h hlifted.2) hlifted.1

/-- It stands when it is written. -/
theorem upheld_of_stands {c : Cmd} (h : Stands a b (c.exec s.world).2) : Upheld a b i (s.exec i c) :=
  fun _ => h

end Upheld

/-! ## Matches stay -/

/-- The match is found, with the participants it had. -/
def Found (m : Match) (matchId : MatchId) (w : World) : Prop :=
  ∃ m', w.db.matchRows.find? (·.id = matchId) = some m' ∧ m.Later m'

theorem found_lasting (m : Match) (matchId : MatchId) :
    @Lasting blockingService.system (Found m matchId) where
  exec c w := by
    rintro ⟨m', hfind, hlater⟩
    unfold Found
    cases Cmd.matchRows_exec c w with
    | @later f hf h =>
        refine ⟨f m', ?_, hlater.trans (hf m')⟩
        have hid : ((fun m : Match => decide (m.id = matchId)) ∘ f) =
            fun m : Match => decide (m.id = matchId) := by
          funext m
          simp [(hf m).id]
        rw [h, List.find?_map, hid, hfind]
        rfl
    | created hc hnone h =>
        refine ⟨m', ?_, hlater⟩
        rw [h, List.find?_append, hfind]
        rfl
  env e w h := by
    cases e
    exact h

theorem listed_lasting (id : String) (a b : UserId) :
    @Lasting blockingService.system (Listed id a b) where
  exec c _ h := listed_exec c h
  env e _ h := by
    cases e
    exact h

theorem Found.conversation {m : Match} {matchId : MatchId} {w : World} (h : Found m matchId w)
    (a b : UserId) : conversation a b w matchId = samePair a b m.userAId m.userBId := by
  obtain ⟨m', hfind, hlater⟩ := h
  rw [Moderation.conversation, hfind, Option.any_some, hlater.userAId, hlater.userBId]

/-! ## The discipline -/

/-- A call crosses the blocks that it is cleared for only. It counts on its
own record, on lasting facts and on the block it has written. -/
def vigilance : Discipline blockingService.system where
  inv _ := True
  admits _ _ _ _ := True
  rely i s s' := s'.own i = s.own i ∧ Grows s.world s'.world ∧
    ∀ a b, Upheld a b i s → Upheld a b i s'
  guar _ i c s := ∀ a b, crosses a b s.world c = true → clearedFor a b (s.own i) = true
  rely_refl _ s := ⟨rfl, .refl s.world, fun _ _ h => h⟩
  rely_trans _ _ _ _ h h' :=
    ⟨h'.1.trans h.1, h.2.1.trans h'.2.1, fun a b hab => h'.2.2 a b (h.2.2 a b hab)⟩

section Vigilance

variable {o : BlockingOp} {i : Nat} {α β : Type} {s : Snap blockingService.system}
  {own : List (Entry blockingService.system)} {a b : UserId}

theorem vigilance_keeps {c : Cmd}
    (h : ∀ a b, crosses a b s.world c = true → clearedFor a b (s.own i) = true) :
    vigilance.Keeps o i c s :=
  ⟨h, trivial, fun _ hj => ⟨Snap.exec_own_ne s c hj, grows_exec (S := blockingService.system) c s.world,
    fun _ _ hab => hab.exec fun hji => hj hji.1.symm⟩⟩

/-- No session, no message. -/
def harmless : Cmd → Bool
  | .db (.sessionCreate _ _ _ _) => false
  | .db (.messageCreate _ _ _) => false
  | .host (.emit os) => !os.any Output.isMessage
  | _ => true

theorem crosses_harmless {c : Cmd} (hc : harmless c = true) (a b : UserId) (w : World) :
    crosses a b w c = false := by
  unfold crosses
  split
  · cases hc
  · cases hc
  · next os =>
      rw [harmless, Bool.not_eq_true', List.any_eq_false] at hc
      refine List.any_eq_false.mpr fun out hout => ?_
      have hmessage := hc out hout
      cases out <;> simp_all [Output.isMessage]
  · rfl

theorem vigilance_harmless_keeps {c : Cmd} (hc : harmless c = true) : vigilance.Keeps o i c s :=
  vigilance_keeps fun a b h => by rw [crosses_harmless hc] at h; cases h

abbrev Harmless {α : Type} (p : Prog α) : Prop := p.Conforms (fun c => harmless c = true) True

theorem harmless_await {c : Cmd} (h : harmless c = true) : Harmless (Proc.await c) :=
  Proc.conforms_await h

theorem vigilance_harmless {p : Prog α} (hp : Harmless p) :
    vigilance.Valid o i p (fun _ _ => True) s :=
  (Discipline.valid_of_conforms (J := fun _ => True) hp (fun _ _ _ _ => trivial)
    (fun _ _ hc _ _ => ⟨vigilance_harmless_keeps hc, trivial, .inr trivial⟩) trivial).weaken
    fun _ _ _ => trivial

/-- What comes first does not matter. -/
theorem vigilance_harmless_bind {p : Prog α} (hp : Harmless p) {f : α → Prog β}
    (hf : ∀ a s', vigilance.Valid o i (f a) (fun _ _ => True) s') :
    vigilance.Valid o i (p.bind f) (fun _ _ => True) s := by
  refine Discipline.valid_bind ((vigilance_harmless hp).weaken fun r s' _ => ?_)
  cases r with
  | ok a => exact hf a s'
  | error e => trivial

/-- A harmless command, and the record afterwards. -/
theorem vigilance_await {c : Cmd} {f : c.Res → Prog β}
    {Q : Except Err β → Snap blockingService.system → Prop} (hown : s.own i = own)
    (hc : harmless c = true)
    (h : ∀ w s', s'.own i = ⟨i, c, w⟩ :: own → vigilance.Resumes o i f Q (c.exec w).1 s') :
    vigilance.Valid o i ((Proc.await c).bind f) Q s := by
  refine Discipline.valid_await fun s' hr _ _ => ⟨vigilance_harmless_keeps hc, ?_⟩
  exact h s'.world (s'.exec i c) (by rw [Snap.exec_own_self, hr.1, hown])

end Vigilance

/-! ## The worker -/

section Worker

variable {o : BlockingOp} {i : Nat} {s : Snap blockingService.system}
  {pair : Option (UserId × UserId)} {queueKey : QueueKey}

/-- A lock that is taken leaves the call as it was. -/
theorem vigilance_acquireLock (u : UserId) (hs : cleared (s.own i) = pair) :
    vigilance.Valid o i (acquireLock u)
      (fun r s' => ∀ v, r = .ok (some v) → cleared (s'.own i) = pair) s := by
  refine vigilance_await rfl rfl fun w s' hs' => ?_
  refine vigilance_await hs' rfl fun w' s'' hs'' => ?_
  have hown : cleared (s''.own i) =
      heard pair (.redis (.setNX (.queueLock u) (.text (freshId w.nextId)) LOCK_TTL_MS))
        ((Cmd.redis (.setNX (.queueLock u) (.text (freshId w.nextId)) LOCK_TTL_MS)).exec w').1 := by
    rw [hs'', ← hs]
    rfl
  simp only [Cmd.exec_redis, RedisCmd.exec] at hown ⊢
  split at hown
  · exact fun v hv => by cases hv
  · exact fun _ _ => hown

theorem harmless_releaseUserLocks (locks : List (UserId × String)) :
    Harmless (releaseUserLocks locks) := by
  induction locks with
  | nil => exact Proc.conforms_pure ()
  | cons lock locks ih => exact (harmless_await rfl).bind fun _ => ih

theorem vigilance_lockUsersFrom (us : List UserId) (locks : List (UserId × String))
    (hs : cleared (s.own i) = pair) :
    vigilance.Valid o i (lockUsersFrom locks us)
      (fun r s' => ∀ held, r = .ok (some held) → cleared (s'.own i) = pair) s := by
  induction us generalizing locks s with
  | nil => exact fun _ _ => hs
  | cons u us ih =>
      refine Discipline.valid_bind ((vigilance_acquireLock u hs).weaken fun r s' hr => ?_)
      cases r with
      | error e => exact fun held hheld => by cases hheld
      | ok acquired =>
          cases acquired with
          | some v => exact ih _ (hr v rfl)
          | none =>
              refine Discipline.valid_bind ((vigilance_harmless
                (harmless_releaseUserLocks locks)).weaken fun r' s'' _ => ?_)
              cases r' with
              | ok a => exact fun held hheld => by cases hheld
              | error e => exact fun held hheld => by cases hheld

/-- A pair that goes back is not valid. -/
theorem vigilance_invalid {α : Type} {p : Prog α} (hp : Harmless p)
    {Q : Snap blockingService.system → Prop} :
    vigilance.Valid o i (p.bind fun _ => pure false) (fun r s' => r = .ok true → Q s') s := by
  refine Discipline.valid_bind ((vigilance_harmless hp).weaken fun r s' _ => ?_)
  cases r with
  | ok a => exact fun h => by cases h
  | error e => exact fun h => by cases h

/-- A pair that is valid has been found without a block. -/
theorem vigilance_validatePair (pair : QueuePair) :
    vigilance.Valid o i (validatePair queueKey pair)
      (fun r s' => r = .ok true → cleared (s'.own i) = some (pair.userA, pair.userB)) s := by
  unfold validatePair
  refine vigilance_await rfl rfl fun w s' hs' => ?_
  simp only [Discipline.Resumes, Cmd.exec_redis, RedisCmd.exec]
  split
  · exact fun h => by cases h
  split
  · exact vigilance_invalid (harmless_await rfl)
  split
  · exact vigilance_invalid (harmless_await rfl)
  unfold isPairBlocked
  simp only [Proc.bind_eq, Proc.bind_assoc]
  refine vigilance_await hs' rfl fun w' s'' hs'' => ?_
  have hown : cleared (s''.own i) = heard (cleared (s'.own i))
      (.db (.blockFindFirst pair.userA pair.userB))
        ((Cmd.db (.blockFindFirst pair.userA pair.userB)).exec w').1 := by
    rw [hs'', ← hs']
    rfl
  simp only [Cmd.exec_db, DbCmd.exec] at hown ⊢
  cases hfind : w'.db.findBlockBetween pair.userA pair.userB with
  | some block =>
      refine vigilance_invalid ?_
      exact (harmless_await rfl).bind fun _ => harmless_await rfl
  | none =>
      rw [hfind] at hown
      exact fun _ => hown

/-- The command that crosses a block, by a call that is cleared for the pair. -/
theorem vigilance_cross {β : Type} {c : Cmd} {f : c.Res → Prog β} {x y : UserId}
    (hs : cleared (s.own i) = some (x, y)) 
    (hc : ∀ a b w, Grows (S := blockingService.system) s.world w → crosses a b w c = samePair a b x y)
    {Q : Except Err β → Snap blockingService.system → Prop}
    (h : ∀ w s', Grows (S := blockingService.system) s.world s'.world → s'.own i = ⟨i, c, w⟩ :: s.own i →
      vigilance.Resumes o i f Q (c.exec w).1 s') :
    vigilance.Valid o i ((Proc.await c).bind f) Q s := by
  refine Discipline.valid_await fun s' hr _ _ => ⟨vigilance_keeps fun a b hab => ?_, ?_⟩
  · rw [clearedFor, hr.1, hs, Option.any_some, ← hc a b s'.world hr.2.1]
    exact hab
  · exact h s'.world _ (hr.2.1.trans (grows_exec (S := blockingService.system) c s'.world))
      (by rw [Snap.exec_own_self, hr.1])

theorem vigilance_matchLocked (pair : QueuePair)
    (hs : cleared (s.own i) = some (pair.userA, pair.userB)) :
    vigilance.Valid o i (matchLocked queueKey pair) (fun _ _ => True) s := by
  unfold matchLocked createSession
  refine vigilance_await rfl rfl fun w s' hs' => ?_
  have hcleared : cleared (s'.own i) = some (pair.userA, pair.userB) := by
    rw [hs', ← hs]
    rfl
  simp only [Proc.bind_eq, Proc.bind_assoc]
  refine vigilance_cross hcleared (fun _ _ _ _ => rfl) fun w' s'' _ _ => ?_
  cases ((Cmd.db (.sessionCreate pair.userA pair.userB (some (cityOf queueKey))
      (some queueKey))).exec w').1 with
  | error e => trivial
  | ok session =>
      refine vigilance_harmless ((harmless_await rfl).bind fun _ => ?_)
      exact (harmless_await rfl).bind fun _ => harmless_await rfl

theorem vigilance_matchPair (pair : QueuePair) :
    vigilance.Valid o i (matchPair queueKey pair) (fun _ _ => True) s := by
  unfold matchPair
  refine Discipline.valid_bind ((vigilance_validatePair pair).weaken fun r s' hr => ?_)
  cases r with
  | error e => trivial
  | ok valid =>
      cases valid with
      | false => trivial
      | true =>
          refine Discipline.valid_bind ((vigilance_lockUsersFrom _ [] (hr rfl)).weaken
            fun r' s'' hr' => ?_)
          cases r' with
          | error e => trivial
          | ok locks =>
              cases locks with
              | none => exact vigilance_harmless (harmless_await rfl)
              | some held =>
                  refine Discipline.valid_tryFinally ((vigilance_matchLocked pair
                    (hr' held rfl)).weaken fun r'' s₃ _ => ?_)
                  refine (vigilance_harmless (harmless_releaseUserLocks held)).weaken
                    fun r₃ s₄ _ => ?_
                  cases r₃ <;> trivial

theorem vigilance_matchLoop (n : Nat) :
    vigilance.Valid o i (matchLoop queueKey n) (fun _ _ => True) s := by
  induction n generalizing s with
  | zero => trivial
  | succ n ih =>
      have hpop : Harmless (popPair queueKey) := by
        refine (harmless_await rfl).bind fun popped => ?_
        split
        · exact Proc.conforms_pure _
        · exact Proc.conforms_pure _
        · exact (harmless_await rfl).bind fun _ => Proc.conforms_pure _
      refine vigilance_harmless_bind hpop fun popped s' => ?_
      cases popped with
      | none => trivial
      | some pair =>
          refine Discipline.valid_bind ((vigilance_matchPair pair).weaken fun r s'' _ => ?_)
          cases r with
          | error e => trivial
          | ok a => exact ih

theorem harmless_getQueueSize (queueKey : QueueKey) : Harmless (getQueueSize queueKey) := by
  unfold getQueueSize
  split
  · exact Proc.conforms_pure 0
  · exact harmless_await rfl

theorem harmless_statusCommand {c : Cmd} (h : StatusCommand queueKey c) : harmless c = true := by
  cases h with
  | range => rfl
  | count => rfl
  | tell userIds usersSearching =>
      rw [harmless, Bool.not_eq_true', List.any_eq_false]
      intro out hout
      obtain ⟨u, -, rfl⟩ := List.mem_map.mp hout
      exact Bool.false_ne_true

theorem vigilance_processQueueKey :
    vigilance.Valid o i (processQueueKey queueKey) (fun _ _ => True) s := by
  refine vigilance_harmless_bind (harmless_getQueueSize queueKey) fun sizeBefore s₁ => ?_
  refine Discipline.valid_bind ((vigilance_matchLoop _).weaken fun r s₂ _ => ?_)
  cases r with
  | error e => trivial
  | ok a =>
      refine vigilance_harmless (Proc.Conforms.bind ?_ fun _ =>
        (harmless_getQueueSize queueKey).bind fun sizeAfter => ?_)
      · refine (harmless_await rfl).bind fun remaining => ?_
        split
        · exact harmless_await rfl
        · exact Proc.conforms_pure ()
      · split
        · exact (emitQueueStatus_issues queueKey).mono fun _ => harmless_statusCommand
        · exact Proc.conforms_pure ()

end Worker

/-! ## The chat -/

section Chat

variable {o : BlockingOp} {i : Nat} {s : Snap blockingService.system} {matchId : MatchId}
  {userId : UserId}

/-- A match in which the user may chat is one without a block. -/
theorem vigilance_openMatch :
    vigilance.Valid o i (openMatch matchId userId)
      (fun r s' => ∀ m, r = .ok m → Found m matchId s'.world ∧
        cleared (s'.own i) = some (m.userAId, m.userBId)) s := by
  unfold openMatch getMatchForUser
  simp only [Proc.bind_eq, Proc.bind_assoc]
  refine Discipline.valid_await fun s₁ _ _ _ => ⟨vigilance_harmless_keeps rfl, ?_⟩
  simp only [Discipline.Resumes, Cmd.exec_db, DbCmd.exec]
  cases hfind : s₁.world.db.matchRows.find? (·.id = matchId) with
  | none => exact fun m hm => by cases hm
  | some m =>
      have hfound : Found m matchId (s₁.exec i (.db (.matchFindUnique matchId))).world :=
        ⟨m, hfind, .refl m⟩
      dsimp only
      split
      · exact fun m hm => by cases hm
      unfold assertNotBlocked
      simp only [Proc.pure_eq, Proc.ret_ok_bind, Proc.bind_eq, Proc.bind_assoc]
      refine Discipline.valid_await fun s₂ hr _ _ => ⟨vigilance_harmless_keeps rfl, ?_⟩
      have hfound' : Found m matchId (s₂.exec i
          (.db (.blockFindFirst m.userAId m.userBId))).world :=
        hr.2.1 _ (found_lasting m matchId) hfound
      have hown : cleared ((s₂.exec i (.db (.blockFindFirst m.userAId m.userBId))).own i) =
          heard (cleared (s₂.own i)) (.db (.blockFindFirst m.userAId m.userBId))
            ((Cmd.db (.blockFindFirst m.userAId m.userBId)).exec s₂.world).1 := by
        rw [Snap.exec_own_self]
        rfl
      simp only [Discipline.Resumes, Cmd.exec_db, DbCmd.exec] at hown ⊢
      cases hblock : s₂.world.db.findBlockBetween m.userAId m.userBId with
      | some block => exact fun m hm => by cases hm
      | none =>
          rw [hblock] at hown
          unfold assertRevealAcknowledged
          by_cases hack : hasRevealAcknowledged m userId = true
          · simp only [Option.map_none, Option.isSome_none, hack, if_true, Bool.false_eq_true, if_false]
            rintro m' hm'
            obtain rfl := Except.ok.inj hm'
            exact ⟨hfound', hown⟩
          · simp only [Option.map_none, Option.isSome_none, hack, Bool.false_eq_true, if_false]
            exact fun m hm => by cases hm

/-- Only messages of one match are emitted. -/
theorem crosses_messageEvents (a b : UserId) (w : World) (m : Match) (message : Message) :
    crosses a b w (.host (.emit (messageEvents m message))) =
      ((messageEvents m message).any Output.isMessage && conversation a b w message.matchId) := by
  unfold crosses messageEvents
  cases m.userARevealAcknowledgedAt <;> cases m.userBRevealAcknowledgedAt <;>
    simp [Output.isMessage, messagePayload]

theorem harmless_notifyRecipient (m : Match) (message : Message) :
    Harmless (notifyRecipient m userId message) := by
  unfold notifyRecipient
  dsimp only
  split
  · exact (harmless_await rfl).bind fun sender => harmless_await rfl
  · exact harmless_await rfl

/-- A command that has nothing to do with the pair. -/
theorem vigilance_neutral {β : Type} {c : Cmd} {f : c.Res → Prog β} {pair : UserId × UserId}
    (hs : cleared (s.own i) = some pair) (hc : harmless c = true)
    (hneutral : ∀ before r, heard before c r = before)
    {Q : Except Err β → Snap blockingService.system → Prop}
    (h : ∀ r s', Grows (S := blockingService.system) s.world s'.world →
      cleared (s'.own i) = some pair → vigilance.Resumes o i f Q r s') :
    vigilance.Valid o i ((Proc.await c).bind f) Q s := by
  refine Discipline.valid_await fun s' hr _ _ => ⟨vigilance_harmless_keeps hc, h _ _ ?_ ?_⟩
  · exact hr.2.1.trans (grows_exec (S := blockingService.system) c s'.world)
  · rw [Snap.exec_own_self, hr.1]
    exact (hneutral _ _).trans hs

theorem vigilance_sendMessage (text : String) :
    vigilance.Valid o i (Chat.sendMessage matchId userId text) (fun _ _ => True) s := by
  rcases em (jsTrim text = "") with hblank | hblank
  · unfold Chat.sendMessage
    rw [if_pos hblank]
    trivial
  unfold Chat.sendMessage
  rw [if_neg hblank]
  refine Discipline.valid_bind (vigilance_openMatch.weaken fun r s₁ hr => ?_)
  cases r with
  | error e => trivial
  | ok m =>
      obtain ⟨hfound, hcleared⟩ := hr m rfl
      simp only [Discipline.Resumes]
      split
      · trivial
      refine vigilance_neutral hcleared rfl (fun _ _ => rfl) fun count s₂ hgrows₂ hcleared₂ => ?_
      cases count with
      | error e => trivial
      | ok existingCount =>
      refine vigilance_neutral hcleared₂ rfl (fun _ _ => rfl) fun now s₃ hgrows₃ hcleared₃ => ?_
      cases now with
      | error e => trivial
      | ok now =>
      have hfound₃ : Found m matchId s₃.world :=
        hgrows₃ _ (found_lasting m matchId) (hgrows₂ _ (found_lasting m matchId) hfound)
      refine vigilance_cross (c := .db (.messageCreate matchId userId (jsTrim text))) hcleared₃
        (fun a b w hgrows => (hgrows _ (found_lasting m matchId) hfound₃).conversation a b)
        fun w s₄ hgrows₄ hs₄ => ?_
      have hfound₄ : Found m matchId s₄.world := hgrows₄ _ (found_lasting m matchId) hfound₃
      have hcleared₄ : cleared (s₄.own i) = some (m.userAId, m.userBId) := by
        rw [hs₄, ← hcleared₃]
        rfl
      cases hcreate : ((Cmd.db (.messageCreate matchId userId (jsTrim text))).exec w).1 with
      | error e => trivial
      | ok message =>
      have hmatch : message.matchId = matchId := by
        simp only [Cmd.exec_db, DbCmd.exec] at hcreate
        split at hcreate
        · exact (Except.ok.inj hcreate) ▸ rfl
        · cases hcreate
      refine Discipline.valid_await fun s₅ hr _ _ => ⟨vigilance_keeps fun a b hab => ?_, ?_⟩
      · rw [crosses_messageEvents, Bool.and_eq_true, hmatch,
          (hr.2.1 _ (found_lasting m matchId) hfound₄).conversation] at hab
        rw [clearedFor, hr.1, hcleared₄]
        exact hab.2
      · refine vigilance_harmless ((harmless_notifyRecipient m message).bind fun _ => ?_)
        exact (harmless_await rfl).bind fun _ => Proc.conforms_pure _

end Chat

/-! ## The calls that block -/

section Blocking

variable {o : BlockingOp} {i : Nat} {s : Snap blockingService.system} {a b : UserId}

/-- What a call has achieved when it returns. -/
def Pledge : (o : BlockingOp) → Nat → Except Err o.Ret → Snap blockingService.system → Prop
  | .createBlock blockerId blockedId, i, .ok _, s => Upheld blockerId blockedId i s
  | .createReport reporterId input, i, .ok _, s => Upheld reporterId input.reportedUserId i s
  | _, _, _, _ => True

/-- What follows the block leaves it alone. -/
theorem vigilance_upheld {α : Type} {p : Prog α}
    (hp : p.Conforms (fun c => harmless c = true ∧ writesBlock c = false) True)
    (h : Upheld a b i s) : vigilance.Valid o i p (fun _ s' => Upheld a b i s') s := by
  have hexec : ∀ c s', (harmless c = true ∧ writesBlock c = false) → vigilance.inv s' →
      Upheld a b i s' → vigilance.Keeps o i c s' ∧ Upheld a b i (s'.exec i c) ∧
        ((∃ a, (blockingService.system.exec c s'.world).1 = .ok a) ∨ True) := by
    intro c s' hc _ hJ
    refine ⟨vigilance_harmless_keeps hc.1, hJ.exec fun hown => ?_, .inr trivial⟩
    rw [hc.2] at hown
    cases hown.2
  have hvalid : vigilance.Valid o i p (fun r s' => ((∃ a, r = .ok a) ∨ True) ∧ Upheld a b i s') s :=
    Discipline.valid_of_conforms hp (fun _ _ hr => hr.2.2 a b) hexec h
  exact hvalid.weaken fun _ _ hr => hr.2

theorem removeFromQueueIfPresent_upholds (userId : UserId) :
    (removeFromQueueIfPresent userId).Conforms
      (fun c => harmless c = true ∧ writesBlock c = false) True := by
  refine (removeFromQueueIfPresent_issues userId).mono fun c hc => ?_
  cases hc <;> exact ⟨rfl, rfl⟩

/-- The end of `createBlock`. -/
theorem vigilance_blocked (block : Block) (h : Upheld a b i s) :
    vigilance.Valid o i ((removeFromQueueIfPresent b).bind fun _ => pure (BlockResult.blocked block))
      (Pledge (.createBlock a b) i) s := by
  refine Discipline.valid_bind ((vigilance_upheld (removeFromQueueIfPresent_upholds b) h).weaken
    fun r s' hr => ?_)
  cases r with
  | error e => trivial
  | ok _ => exact hr

theorem vigilance_createBlock :
    vigilance.Valid o i (createBlock a b) (Pledge (.createBlock a b) i) s := by
  unfold createBlock
  split
  · trivial
  refine Discipline.valid_await fun s₁ _ _ _ => ⟨vigilance_harmless_keeps rfl, ?_⟩
  simp only [Discipline.Resumes, Cmd.exec_db, DbCmd.exec]
  cases hfind : s₁.world.db.findBlock a b with
  | none =>
      refine Discipline.valid_await fun s₂ _ _ _ => ⟨vigilance_harmless_keeps rfl, ?_⟩
      cases hcreate : ((Cmd.db (.blockCreate a b)).exec s₂.world).1 with
      | error e => trivial
      | ok created => exact vigilance_blocked created (upheld_of_stands (stands_blockCreate hcreate))
  | some existing =>
      obtain ⟨hmem, hblocker, hblocked⟩ := findBlock_spec hfind
      dsimp only
      by_cases hlifted : existing.liftedAt = none
      · rw [if_pos (by rw [hlifted]; rfl)]
        exact upheld_of_stands ⟨existing, hmem, hblocker, hblocked, hlifted⟩
      · rw [if_neg (by simpa using hlifted)]
        refine Discipline.valid_await fun s₂ hr _ _ => ⟨vigilance_harmless_keeps rfl, ?_⟩
        have hlisted : Listed existing.id a b s₂.world :=
          hr.2.1 _ (listed_lasting existing.id a b) ⟨existing, hmem, rfl, hblocker, hblocked⟩
        cases hreopen : ((Cmd.db (.blockReopen existing.id)).exec s₂.world).1 with
        | error e => trivial
        | ok reopened =>
            exact vigilance_blocked reopened (upheld_of_stands (stands_blockReopen hlisted hreopen))

theorem bumpReportEscalation_upholds (userId : UserId) :
    (bumpReportEscalation userId).Conforms
      (fun c => harmless c = true ∧ writesBlock c = false) True :=
  (Proc.conforms_await ⟨rfl, rfl⟩).bind fun _ => Proc.conforms_await ⟨rfl, rfl⟩

theorem vigilance_createReport (input : ReportUserDto) :
    vigilance.Valid o i (createReport a input) (Pledge (.createReport a input) i) s := by
  unfold createReport
  split
  · trivial
  dsimp only
  split
  · trivial
  refine Discipline.valid_await fun s₁ _ _ _ => ⟨vigilance_harmless_keeps rfl, ?_⟩
  refine Discipline.valid_await fun s₂ _ _ _ => ⟨vigilance_harmless_keeps rfl, ?_⟩
  simp only [Discipline.Resumes, Cmd.exec_db, DbCmd.exec]
  split
  · trivial
  refine Discipline.valid_await fun s₃ _ _ _ => ⟨vigilance_harmless_keeps rfl, ?_⟩
  cases hreport : ((Cmd.db (.reportTransaction a input.reportedUserId input.reason
      (input.details.map jsTrim))).exec s₃.world).1 with
  | error e => trivial
  | ok report =>
      refine Discipline.Valid.weaken (vigilance_upheld ?_
        (upheld_of_stands (stands_reportTransaction hreport))) fun r s' hr => ?_
      · refine (bumpReportEscalation_upholds _).bind fun _ =>
          (removeFromQueueIfPresent_upholds _).bind fun _ => ?_
        exact (Proc.conforms_await ⟨rfl, rfl⟩).bind fun _ => Proc.conforms_pure _
      · cases r with
        | error e => trivial
        | ok _ => exact hr

end Blocking

/-! ## Every operation -/

theorem harmless_lockCommand {c : Cmd} (h : LockCommand c) : harmless c = true := by
  cases h <;> rfl

theorem harmless_joinQueue (userId : UserId) (input : QueueJoinInput) :
    Harmless (joinQueue userId input) := by
  refine (joinQueue_issues userId input).mono fun c hc => ?_
  cases hc with
  | lock h => exact harmless_lockCommand h
  | _ => rfl

theorem harmless_leaveQueue (userId : UserId) : Harmless (leaveQueue userId) := by
  refine (leaveQueue_issues userId).mono fun c hc => ?_
  cases hc with
  | lock h => exact harmless_lockCommand h
  | cleanup h => cases h <;> rfl
  | settle h => cases h <;> rfl
  | _ => rfl

theorem harmless_unblock (blockerId blockedId : UserId) : Harmless (unblock blockerId blockedId) := by
  refine (unblock_issues blockerId blockedId).mono fun c hc => ?_
  cases hc <;> rfl

theorem vigilance_code (o : BlockingOp) (i : Nat) (s : Snap blockingService.system) :
    vigilance.Valid o i o.code (Pledge o i) s := by
  cases o with
  | createBlock blockerId blockedId => exact vigilance_createBlock
  | createReport reporterId input => exact vigilance_createReport input
  | unblock blockerId blockedId =>
      exact (vigilance_harmless (harmless_unblock blockerId blockedId)).weaken fun _ _ _ => trivial
  | queue o =>
      cases o with
      | joinQueue userId input =>
          exact (vigilance_harmless (harmless_joinQueue userId input)).weaken fun _ _ _ => trivial
      | leaveQueue userId =>
          exact (vigilance_harmless (harmless_leaveQueue userId)).weaken fun _ _ _ => trivial
      | processQueueKey queueKey =>
          exact vigilance_processQueueKey.weaken fun _ _ _ => trivial
  | sendMessage matchId userId text =>
      exact (vigilance_sendMessage text).weaken fun _ _ _ => trivial

theorem pledge_stable : vigilance.Stable Pledge := by
  intro o i r s s' hr h
  cases o with
  | createBlock a b =>
      cases r with
      | ok _ => exact hr.2.2 a b h
      | error _ => trivial
  | createReport a input =>
      cases r with
      | ok _ => exact hr.2.2 a _ h
      | error _ => trivial
  | unblock _ _ => trivial
  | queue _ => trivial
  | sendMessage _ _ _ => trivial

theorem vigilance_governs {ok : Config blockingService.system → Event blockingService.system → Prop} :
    vigilance.Governs ok Pledge where
  start c o _ _ _ := vigilance_code o _ c.toSnap
  step _ _ _ _ _ _ _ _ := trivial
  env c e _ _ := by
    refine ⟨trivial, fun i => ⟨rfl, grows_env (S := blockingService.system) e c.world, ?_⟩⟩
    intro a b hab hlifted
    cases e
    exact hab hlifted

end VerityBackend.Moderation
