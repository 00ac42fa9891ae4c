/-
VerityBackend.App.Talks — how many sessions a user is in.

Neither `joinQueue` nor the worker looks at the markers, so who joins again
during a session can be matched into a second one (`two_talks`), also when
the first one has been created and not been started yet (`two_late_talks`).
And nothing keeps a session from being started that has been ended
(`late_start`). `Talks` is what holds between two calls where neither
happens: the users who wait are in no session, so a pass of the worker joins
users who are free, and every user is in one session at most.
-/
import VerityBackend.App.Presence
import VerityBackend.Matchmaking.Histories

namespace VerityBackend.App

open Async Matchmaking Store

/-! ## Calls -/

/-- A call that runs to its end at one time, or time that passes. -/
inductive Call where
  | joinQueue (userId : UserId) (input : Queue.QueueJoinInput)
  | leaveQueue (userId : UserId)
  | processQueueKey (queueKey : QueueKey)
  | handleSessionCreated (self : Instance) (session : Session)
  | endSession (self : Instance) (session : Session) (reason : EndReason)
  | tick (ms : Nat)
  deriving DecidableEq, Repr

def Call.run (w : World) : Call → World
  | .joinQueue userId input => ((Queue.joinQueue userId input).run Cmd.exec w).2
  | .leaveQueue userId => ((Queue.leaveQueue userId).run Cmd.exec w).2
  | .processQueueKey queueKey => ((Queue.processQueueKey queueKey).run Cmd.exec w).2
  | .handleSessionCreated self session =>
      ((Sessions.handleSessionCreated self session).run Cmd.exec w).2
  | .endSession self session reason => ((Sessions.endSession self session reason).run Cmd.exec w).2
  | .tick ms => w.env (.tick ms)

/-- The user is a participant of a session that has been created after the
`old` ones and has not ended, whether it has been started or not. -/
structure Going (old : List Session) (u : UserId) (x : Session) (w : World) : Prop where
  row : x ∈ w.db.sessions
  fresh : x ∉ old
  part : takesPart u x = true
  going : ¬Ended x.id w

def Engaged (old : List Session) (u : UserId) (w : World) : Prop := ∃ x, Going old u x w

instance (old : List Session) (u : UserId) (w : World) : Decidable (Engaged old u w) :=
  decidable_of_iff (∃ x ∈ w.db.sessions, x ∉ old ∧ takesPart u x = true ∧ ¬Ended x.id w)
    ⟨fun ⟨x, hrow, hfresh, hpart, hgoing⟩ => ⟨x, hrow, hfresh, hpart, hgoing⟩,
      fun ⟨x, h⟩ => ⟨x, h.row, h.fresh, h.part, h.going⟩⟩

/-- What is handled and what is ended is a session that has been created
since; no key of a session expires. -/
def Call.Sound (old : List Session) (w : World) : Call → Prop
  | .handleSessionCreated _ session => session ∈ w.db.sessions ∧ session ∉ old
  | .endSession _ session _ => ∃ x ∈ w.db.sessions, x ∉ old ∧
      x.id = session.id ∧ x.userAId = session.userAId ∧ x.userBId = session.userBId
  | .tick ms => Agrees w (w.env (.tick ms))
  | _ => True

/-- Nobody joins while in a session, and none starts that has ended. -/
def Call.Keeps (old : List Session) (w : World) : Call → Prop
  | .joinQueue userId _ => ¬Engaged old userId w
  | .handleSessionCreated _ session =>
      w.get (.sessionLock session.id) = none → ¬Ended session.id w
  | _ => True

/-- All calls of a history are as `P` says, of the worlds they find. -/
def Along (P : World → Call → Prop) : World → List Call → Prop
  | _, [] => True
  | w, c :: cs => P w c ∧ Along P (c.run w) cs

/-! ## Between two calls -/

/-- The markers are right, those who wait are in no session, and nobody is
in two. -/
structure Talks (old : List Session) (w : World) : Prop where
  tidy : Tidy old w
  settled : Settled w
  single : ∀ u x y, Going old u x w → Going old u y w → x = y
  free : ∀ u, (board w).queued u ≠ none → ¬Engaged old u w

section Ready

variable {old : List Session} {w w' : World} {session : Session} {u : UserId}

/-- A session that has been created and has not ended has its participants
to itself. -/
theorem Talks.alone (h : Talks old w) (hrow : session ∈ w.db.sessions) (hfresh : session ∉ old)
    (hgoing : ¬Ended session.id w) : Alone session w := by
  rintro u s hu ⟨⟨record, hrecord, hpart⟩, hlive⟩
  obtain ⟨y, hy, hyfresh, rfl, hA, hB⟩ := h.tidy.states s record hrecord
  have hself : Going old u session w :=
    ⟨hrow, hfresh, by rcases hu with rfl | rfl <;> simp [takesPart], hgoing⟩
  have hother : Going old u y w := by
    refine ⟨hy, hyfresh, ?_, hlive⟩
    rw [← hA, ← hB] at hpart
    rcases hpart with rfl | rfl <;> simp [takesPart]
  rw [h.single u y session hother hself]

/-- Sessions may have ended, and nobody waits now who was in one. -/
theorem Talks.step (h : Talks old w) (htidy : Tidy old w') (hsettled : Settled w')
    (hrows : w'.db.sessions = w.db.sessions) (hended : ∀ s, Ended s w → Ended s w')
    (hqueued : ∀ u, (board w').queued u ≠ none → ¬Engaged old u w) : Talks old w' := by
  have hback {u : UserId} {x : Session} (hx : Going old u x w') : Going old u x w :=
    ⟨hrows ▸ hx.row, hx.fresh, hx.part, mt (hended x.id) hx.going⟩
  exact ⟨htidy, hsettled, fun u x y hx hy => h.single u x y (hback hx) (hback hy),
    fun u hu ⟨x, hx⟩ => hqueued u hu ⟨x, hback hx⟩⟩

/-- What the queue does leaves the keys of the sessions alone. -/
theorem ended_queued {α : Type} {p : Prog α} (hp : Queued p) (s : SessionId) :
    Ended s w → Ended s (p.run Cmd.exec w).2 := (agrees_queued hp w).ended.mpr

/-- An operation of the queue, run to its end. -/
theorem run_spec (o : Op) (h : Settled w) :
    ∃ s' : Snap System, s'.world = (o.code.run Cmd.exec w).2 ∧ Settled s'.world ∧
      Effect o (o.code.run Cmd.exec w).1 ⟨w, []⟩ s' :=
  (code_spec o 0 (s := ⟨w, []⟩) h).run

/-- A procedure that leaves the queue alone, run to its end. -/
theorem run_mild {p : Prog Unit} (hp : p.Conforms Mild True) (h : Settled w) :
    let w' := (p.run Cmd.exec w).2
    Settled w' ∧ w'.db.sessions = w.db.sessions ∧ ∀ u, (board w').queued u = (board w).queued u := by
  obtain ⟨s', hworld, htakes⟩ :=
    (takes_of_conforms (V := matchmaking) (o := .leaveQueue "") (i := 0) hp (s := ⟨w, []⟩) h.waiting).run
  intro w'
  rw [show w' = s'.world from hworld.symm]
  exact ⟨⟨htakes.moderated.waiting, htakes.moderated.unlocked h.unlocked⟩,
    htakes.moderated.sessions, htakes.queued⟩

end Ready

/-! ## One call -/

section Steps

variable {old : List Session} {w : World}

theorem Talks.joinQueue (h : Talks old w) (u : UserId) (input : Queue.QueueJoinInput)
    (hfree : ¬Engaged old u w) : Talks old ((Queue.joinQueue u input).run Cmd.exec w).2 := by
  have hqueued := queued_queue (.joinQueue u input)
  obtain ⟨s', hworld, hsettled, hdone, -⟩ := run_spec (.joinQueue u input) h.settled
  change s'.world = ((Queue.joinQueue u input).run Cmd.exec w).2 at hworld
  refine h.step (h.tidy.queued hqueued) (hworld ▸ hsettled) ?_ (ended_queued hqueued) ?_
  · rw [← hworld]
    rcases hdone with ⟨hmoved, -⟩ | ⟨k, position, -, hjoined⟩
    · exact congrArg Board.sessions hmoved.board
    · obtain ⟨joinedAt, user, -, -, hboard⟩ := hjoined.board
      exact congrArg Board.sessions hboard
  · intro v hv
    rw [← hworld] at hv
    rcases hdone with ⟨hmoved, -⟩ | ⟨k, position, -, hjoined⟩
    · rw [hmoved.board] at hv
      exact h.free v hv
    · obtain ⟨joinedAt, user, -, -, hboard⟩ := hjoined.board
      rw [hboard, Board.queued_enter _ _ hjoined.named] at hv
      split at hv
      · next hself =>
          rw [hself]
          exact hfree
      · exact h.free v hv

theorem Talks.leaveQueue (h : Talks old w) (u : UserId) :
    Talks old ((Queue.leaveQueue u).run Cmd.exec w).2 := by
  have hqueued := queued_queue (.leaveQueue u)
  obtain ⟨s', hworld, hsettled, hdone⟩ := run_spec (.leaveQueue u) h.settled
  change s'.world = ((Queue.leaveQueue u).run Cmd.exec w).2 at hworld
  refine h.step (h.tidy.queued hqueued) (hworld ▸ hsettled) ?_ (ended_queued hqueued) ?_
  · rw [← hworld]
    rcases hdone with ⟨hmoved, -⟩ | ⟨k, m, hleft, -⟩
    · exact congrArg Board.sessions hmoved.board
    · exact hleft.without.sessions
  · intro v hv
    rw [← hworld] at hv
    rcases hdone with ⟨hmoved, -⟩ | ⟨k, m, hleft, -⟩
    · rw [hmoved.board] at hv
      exact h.free v hv
    · rw [hleft.without.queued] at hv
      split at hv
      · exact (hv rfl).elim
      · exact h.free v hv

/-- A pass joins users who wait, and so are free, no one of them twice. -/
theorem Talks.processQueueKey (h : Talks old w) (k : QueueKey) :
    Talks old ((Queue.processQueueKey k).run Cmd.exec w).2 := by
  have hagree := agrees_queued (queued_queue (.processQueueKey k)) w
  have htidy := h.tidy.queued (queued_queue (.processQueueKey k))
  obtain ⟨s', hworld, hsettled, hworked⟩ := run_spec (.processQueueKey k) h.settled
  change Agrees w ((Queue.processQueueKey k).run Cmd.exec w).2 at hagree
  change Tidy old ((Queue.processQueueKey k).run Cmd.exec w).2 at htidy
  change s'.world = ((Queue.processQueueKey k).run Cmd.exec w).2 at hworld
  rw [← hworld] at hagree htidy ⊢
  have hpaired : Paired k (board w) (board s'.world) := hworked.paired
  obtain ⟨new, hsessions, hpairs, hqueued⟩ := hpaired.matched
  have hsessions : s'.world.db.sessions = w.db.sessions ++ new := hsessions
  have hapart := hpaired.apart
  change ((s'.world.db.sessions).drop w.db.sessions.length).Pairwise _ at hapart
  rw [hsessions, List.drop_left] at hapart
  have hback {u : UserId} {x : Session} (hx : Going old u x s'.world) :
      Going old u x w ∨ x ∈ new := by
    have hrow := hx.row
    rw [hsessions] at hrow
    exact (List.mem_append.mp hrow).imp
      (fun hrow => ⟨hrow, hx.fresh, hx.part, mt hagree.ended.mpr hx.going⟩) id
  -- whoever is in a new session has waited
  have hwaited {u : UserId} {x : Session} (hx : x ∈ new) (hu : takesPart u x = true) :
      ¬Engaged old u w := by
    have hpair := hpairs x hx
    rcases Bool.or_eq_true_iff.mp hu with hA | hB
    · exact h.free u (by rw [← of_decide_eq_true hA, hpair.queuedA]; nofun)
    · exact h.free u (by rw [← of_decide_eq_true hB, hpair.queuedB]; nofun)
  refine ⟨htidy, hsettled, fun u x y hx hy => ?_, fun u hu ⟨x, hx⟩ => ?_⟩
  · rcases hback hx with hold | hnew <;> rcases hback hy with hold' | hnew'
    · exact h.single u x y hold hold'
    · exact (hwaited hnew' hy.part ⟨x, hold⟩).elim
    · exact (hwaited hnew hx.part ⟨y, hold'⟩).elim
    · have hone : ∀ x ∈ new, ∀ y ∈ new, takesPart u x = true → takesPart u y = true → x = y :=
        List.Pairwise.forall_of_forall_of_flip (fun _ _ _ _ => rfl)
          (hapart.imp fun hout hx hy => by rw [hout u hx] at hy; cases hy)
          (hapart.imp fun hout hy hx => by rw [hout u hx] at hy; cases hy)
      exact hone x hnew y hnew' hx.part hy.part
  · rw [hqueued u] at hu
    split at hu
    · exact hu rfl
    · next hnone =>
        rcases hback hx with hold | hnew
        · exact h.free u hu ⟨x, hold⟩
        · exact hnone (List.any_eq_true.mpr ⟨x, hnew, hx.part⟩)

theorem Talks.endSession {x session : Session} (h : Talks old w) (self : Instance)
    (reason : EndReason) (hx : x ∈ w.db.sessions) (hfresh : x ∉ old)
    (hrow : x.id = session.id ∧ x.userAId = session.userAId ∧ x.userBId = session.userBId) :
    Talks old ((Sessions.endSession self session reason).run Cmd.exec w).2 := by
  have htidy := h.tidy.endSession self reason hx hrow fun hgoing u s hu hl => by
    rw [← hrow.1] at hgoing ⊢
    rw [← hrow.2.1, ← hrow.2.2] at hu
    exact h.alone hx hfresh hgoing u s hu hl
  obtain ⟨hsettled, hrows, hqueued⟩ := run_mild
    ((Sessions.endSession_issues self session reason).mono fun _ => mild_end) h.settled
  refine h.step htidy hsettled hrows (fun s => ended_endSession self reason) fun u hu => ?_
  rw [hqueued u] at hu
  exact h.free u hu

theorem mild_created {self : Instance} {session : Session} {c : Cmd}
    (h : Sessions.CreatedCommand self session c) : Mild c := by
  cases h with
  | lock => exact mild_setNX (by trivial) _ _
  | now | tokens => exact mild_host _
  | persist h => cases h <;> exact mild_set (by trivial) _ _
  | start h => cases h <;> exact mild_host _
  | finish h => exact mild_end h

theorem Talks.handleSessionCreated {session : Session} (h : Talks old w) (self : Instance)
    (hrow : session ∈ w.db.sessions) (hfresh : session ∉ old)
    (hkeeps : w.get (.sessionLock session.id) = none → ¬Ended session.id w) :
    Talks old ((Sessions.handleSessionCreated self session).run Cmd.exec w).2 := by
  have htidy := h.tidy.handleSessionCreated self hrow hfresh fun hlock =>
    ⟨hkeeps hlock, h.alone hrow hfresh (hkeeps hlock)⟩
  obtain ⟨hsettled, hrows, hqueued⟩ := run_mild
    ((Sessions.handleSessionCreated_issues self session).mono fun _ => mild_created) h.settled
  refine h.step htidy hsettled hrows (fun s => ended_handleSessionCreated self) fun u hu => ?_
  rw [hqueued u] at hu
  exact h.free u hu

/-- **Step lemma**: what holds between two calls holds after the next one. -/
theorem Talks.run {c : Call} (h : Talks old w) (hsound : c.Sound old w) (hkeeps : c.Keeps old w) :
    Talks old (c.run w) := by
  cases c with
  | joinQueue u input => exact h.joinQueue u input hkeeps
  | leaveQueue u => exact h.leaveQueue u
  | processQueueKey k => exact h.processQueueKey k
  | handleSessionCreated self session => exact h.handleSessionCreated self hsound.1 hsound.2 hkeeps
  | endSession self session reason =>
      obtain ⟨x, hx, hfresh, hrow⟩ := hsound
      exact h.endSession self reason hx hfresh hrow
  | tick ms =>
      have hagree : Agrees w (w.env (.tick ms)) := hsound
      refine h.step (h.tidy.agrees hagree ⟨⟨h.tidy.rows.unique, h.tidy.rows.drawn⟩, fun _ hx => hx⟩)
        (h.settled.env (.tick ms)) rfl (fun s => hagree.ended.mpr) fun u hu => ?_
      rw [show (Call.tick ms).run w = w.env (.tick ms) from rfl, board_env] at hu
      exact h.free u hu

/-- **Run lemma.** -/
theorem Talks.runs {calls : List Call} (h : Talks old w) (hsound : Along (Call.Sound old) w calls)
    (hkeeps : Along (Call.Keeps old) w calls) : Talks old (calls.foldl Call.run w) := by
  induction calls generalizing w with
  | nil => exact h
  | cons c cs ih => exact ih (h.run hsound.1 hkeeps.1) hsound.2 hkeeps.2

/-- Nobody is in a session or waits for one. -/
theorem Talks.empty (hrows : Rows w) (hredis : w.redis = .empty) : Talks w.db.sessions w where
  tidy := .empty hrows hredis
  settled := by
    have hsame : flushed w = w := by
      unfold flushed
      rw [← hredis]
    exact hsame ▸ settled_flushed w
  single u x y hx := (hx.fresh hx.row).elim
  free u _ h := h.elim fun x hx => hx.fresh hx.row

end Steps

/-- **The marker of a user names the session the user is in**, and there is
at most one, as long as nobody joins the queue while in a session and no
session starts that has ended. -/
theorem active_iff_live {w : World} (hrows : Rows w) (hredis : w.redis = .empty)
    {calls : List Call} (hsound : Along (Call.Sound w.db.sessions) w calls)
    (hkeeps : Along (Call.Keeps w.db.sessions) w calls) :
    let w' := calls.foldl Call.run w
    (∀ u s, w'.get (.sessionActive u) = some (.text s) ↔ Live u s w') ∧
      ∀ u s s', Live u s w' → Live u s' w' → s = s' := by
  have h := ((Talks.empty hrows hredis).runs hsound hkeeps).tidy
  refine ⟨h.marks, fun u s s' hl hl' => ?_⟩
  have hmark := (h.marks u s).mpr hl
  rw [(h.marks u s').mpr hl'] at hmark
  exact (RedisString.text.inj (Option.some.inj hmark)).symm

/-- Three users, and a video service that hands out tokens. -/
def callers : World :=
  { World.peopled ["ann", "bob", "cid"] 2 with
    video := fun _ _ _ => .ok ⟨"channel", 0, fun _ => ⟨"rtc", 1, "rtm", "rtm"⟩⟩ }

def joins (u : UserId) : Call := .joinQueue u ⟨.undefined, .undefined, "any"⟩

def anns (id : SessionId) (partner : UserId) : Session :=
  ⟨id, "ann", partner, some "canberra", some "canberra:any", 0⟩

/-- Ann and Bob are matched and talk until the time is up; then Ann joins
again. -/
def oneTalk : List Call :=
  [joins "ann", joins "bob", .processQueueKey "canberra:any",
    .handleSessionCreated 0 (anns (freshId 4) "bob"), .endSession 0 (anns (freshId 4) "bob") .timeout,
    joins "ann"]

theorem rows_callers : Rows callers := ⟨fun _ hx => (by cases hx), fun _ hx => (by cases hx)⟩

theorem active_iff_live_oneTalk :
    Live "ann" (freshId 4) ((oneTalk.take 4).foldl Call.run callers) ∧
      let w' := oneTalk.foldl Call.run callers
      (∀ u s, w'.get (.sessionActive u) = some (.text s) ↔ Live u s w') ∧
        ∀ u s s', Live u s w' → Live u s' w' → s = s' :=
  ⟨by decide +kernel, active_iff_live rows_callers rfl
    ⟨trivial, trivial, trivial, by simp only [Call.Sound]; decide +kernel,
      ⟨anns (freshId 4) "bob", by decide +kernel, by decide, rfl, rfl, rfl⟩, trivial, trivial⟩
    ⟨by simp only [joins, Call.Keeps]; decide +kernel, by simp only [joins, Call.Keeps]; decide +kernel,
      trivial, fun _ => by decide +kernel, trivial,
      by simp only [joins, Call.Keeps]; decide +kernel, trivial⟩⟩

/-- Ann is in a session with Bob, joins again and is matched with Cid. -/
theorem two_talks : ¬∀ w : World, Rows w → w.redis = .empty → ∀ calls : List Call,
    Along (Call.Sound w.db.sessions) w calls →
      let w' := calls.foldl Call.run w
      (∀ u s, w'.get (.sessionActive u) = some (.text s) ↔ Live u s w') ∧
        ∀ u s s', Live u s w' → Live u s' w' → s = s' := by
  intro h
  have hboth := h callers rows_callers rfl
    [joins "ann", joins "bob", .processQueueKey "canberra:any",
      .handleSessionCreated 0 (anns (freshId 4) "bob"), joins "ann", joins "cid",
      .processQueueKey "canberra:any", .handleSessionCreated 0 (anns (freshId 9) "cid")]
    ⟨trivial, trivial, trivial, by simp only [Call.Sound]; decide +kernel, trivial, trivial,
      trivial, by simp only [Call.Sound]; decide +kernel, trivial⟩
  have hsame := hboth.2 "ann" (freshId 4) (freshId 9) (by decide +kernel) (by decide +kernel)
  exact absurd hsame (by decide)

theorem not_live_of_nobody {w : World} {u : UserId} {s : SessionId}
    (h : ∀ k ∈ w.redis.strings.keys w.clock, ofPresence k = false) : ¬Live u s w := by
  rintro ⟨⟨record, hrecord, -⟩, -⟩
  cases hstate : w.get (.sessionState s) with
  | none =>
      rw [hstate] at hrecord
      cases hrecord
  | some r =>
      have hseen : (w.redis.strings.get w.clock (.sessionState s)).isSome = true :=
        Option.isSome_iff_exists.mpr ⟨r, hstate⟩
      cases h _ (Keyspace.mem_keys.mpr hseen)

/-- It does not help that Ann joins before the session with Bob has been
started. -/
theorem two_late_talks : ¬∀ w : World, Rows w → w.redis = .empty → ∀ calls : List Call,
    Along (Call.Sound w.db.sessions) w calls →
      Along (fun w c => ∀ u input, c = .joinQueue u input → ∀ s, ¬Live u s w) w calls →
        let w' := calls.foldl Call.run w
        ∀ u s s', Live u s w' → Live u s' w' → s = s' := by
  intro h
  have hone := h callers rows_callers rfl
    [joins "ann", joins "bob", .processQueueKey "canberra:any", joins "ann", joins "cid",
      .processQueueKey "canberra:any", .handleSessionCreated 0 (anns (freshId 4) "bob"),
      .handleSessionCreated 0 (anns (freshId 9) "cid")]
    ⟨trivial, trivial, trivial, trivial, trivial, trivial,
      by simp only [Call.Sound]; decide +kernel, by simp only [Call.Sound]; decide +kernel, trivial⟩
    ⟨fun _ _ _ s => not_live_of_nobody (by decide +kernel),
      fun _ _ _ s => not_live_of_nobody (by decide +kernel), nofun,
      fun _ _ _ s => not_live_of_nobody (by decide +kernel),
      fun _ _ _ s => not_live_of_nobody (by decide +kernel), nofun, nofun, nofun, trivial⟩
  have hsame := hone "ann" (freshId 4) (freshId 9) (by decide +kernel) (by decide +kernel)
  exact absurd hsame (by decide)

/-- The session of Ann and Bob is started after it has been ended. -/
theorem late_start : ¬∀ w : World, Rows w → w.redis = .empty → ∀ calls : List Call,
    Along (Call.Sound w.db.sessions) w calls →
      Along (fun w' c => ∀ u input, c = .joinQueue u input → ¬Engaged w.db.sessions u w') w calls →
        let w' := calls.foldl Call.run w
        ∀ u s, w'.get (.sessionActive u) = some (.text s) ↔ Live u s w' := by
  intro h
  have hmarked := h callers rows_callers rfl
    [joins "ann", joins "bob", .processQueueKey "canberra:any",
      .endSession 1 (anns (freshId 4) "bob") .ended,
      .handleSessionCreated 0 (anns (freshId 4) "bob")]
    ⟨trivial, trivial, trivial, ⟨anns (freshId 4) "bob", by decide +kernel, by decide, rfl, rfl, rfl⟩,
      by simp only [Call.Sound]; decide +kernel, trivial⟩
    ⟨fun u _ h => by cases h; decide +kernel, fun u _ h => by cases h; decide +kernel, nofun, nofun,
      nofun, trivial⟩
  exact absurd ((hmarked "ann" (freshId 4)).mp (by decide +kernel)) (by decide +kernel)

end VerityBackend.App
