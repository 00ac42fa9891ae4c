/-
VerityBackend.App.Presence — `session:active:<user>` and the sessions a user
is in.

The marker of a user is written when a session starts and deleted when one
ends; nobody reads it before either. `Tidy` says that the markers name the
sessions that go on. It is kept by a session that starts or ends while its
participants are in no other one (`Tidy.handleSessionCreated`,
`Tidy.endSession`), and by whatever touches no key of a session.
-/
import VerityBackend.App.Aside
import VerityBackend.Async.Failing

namespace VerityBackend.App

open Async Store

/-! ## Sessions and markers -/

/-- `session:state:<s>` was persisted with the user as a participant. -/
def Persisted (u : UserId) (s : SessionId) (w : World) : Prop :=
  ∃ record, Sessions.parseSessionState (w.get (.sessionState s)) = some record ∧
    (record.userAId = u ∨ record.userBId = u)

def Ended (s : SessionId) (w : World) : Prop := (w.get (.sessionEnded s)).isSome = true

instance (u : UserId) (s : SessionId) (w : World) : Decidable (Persisted u s w) :=
  match h : Sessions.parseSessionState (w.get (.sessionState s)) with
  | none => isFalse fun ⟨_, hrecord, _⟩ => by rw [h] at hrecord; cases hrecord
  | some record =>
      decidable_of_iff (record.userAId = u ∨ record.userBId = u)
        ⟨fun hu => ⟨record, h, hu⟩, fun ⟨_, hrecord, hu⟩ => by
          rw [h] at hrecord; cases hrecord; exact hu⟩

instance (s : SessionId) (w : World) : Decidable (Ended s w) :=
  inferInstanceAs (Decidable ((w.get (.sessionEnded s)).isSome = true))

/-- The user is in the session. -/
structure Live (u : UserId) (s : SessionId) (w : World) : Prop where
  persisted : Persisted u s w
  going : ¬Ended s w

instance (u : UserId) (s : SessionId) (w : World) : Decidable (Live u s w) :=
  decidable_of_iff (Persisted u s w ∧ ¬Ended s w) ⟨fun h => ⟨h.1, h.2⟩, fun h => ⟨h.1, h.2⟩⟩

/-- The keys that say who is in which session. -/
def ofPresence : RedisKey → Bool
  | .sessionState _ => true
  | .sessionActive _ => true
  | .sessionEnded _ => true
  | _ => false

/-- These keys are seen as before. -/
def Agrees (w w' : World) : Prop := ∀ k, ofPresence k = true → w'.get k = w.get k

namespace Agrees

variable {w w₁ w₂ : World} {u : UserId} {s : SessionId}

theorem refl (w : World) : Agrees w w := fun _ _ => rfl

theorem trans (h : Agrees w w₁) (h' : Agrees w₁ w₂) : Agrees w w₂ :=
  fun k hk => (h' k hk).trans (h k hk)

theorem persisted (h : Agrees w w₁) : Persisted u s w₁ ↔ Persisted u s w := by
  unfold Persisted
  rw [h _ rfl]

theorem ended (h : Agrees w w₁) : Ended s w₁ ↔ Ended s w := by
  unfold Ended
  rw [h _ rfl]

theorem live (h : Agrees w w₁) : Live u s w₁ ↔ Live u s w :=
  ⟨fun hl => ⟨h.persisted.mp hl.persisted, mt h.ended.mpr hl.going⟩,
    fun hl => ⟨h.persisted.mpr hl.persisted, mt h.ended.mp hl.going⟩⟩

theorem exec {c : Cmd} (h : ∀ k, ofPresence k = true → ¬c.touches k) (w : World) :
    Agrees w (c.exec w).2 :=
  fun k hk => World.get_congr (Cmd.stored_exec (h k hk) w) (Cmd.clock_exec c w)

/-- Commands on other keys. -/
theorem run {α : Type} {p : Prog α}
    (hp : p.Conforms (fun c => ∀ k, ofPresence k = true → ¬c.touches k) True) (w : World) :
    Agrees w (p.run Cmd.exec w).2 :=
  hp.run_keeps (J := Agrees w) (fun _ w' hc hw' => hw'.trans (.exec hc w')) (.refl w)

end Agrees

/-- No participant is in another session. -/
def Alone (session : Session) (w : World) : Prop :=
  ∀ u s, u = session.userAId ∨ u = session.userBId → Live u s w → s = session.id

/-! ## What the operations do to the keys -/

section Calls

variable {w : World} {session : Session}

theorem agrees_queued {α : Type} {p : Prog α} (hp : Queued p) (w : World) :
    Agrees w (p.run Cmd.exec w).2 := by
  refine Agrees.run (hp.mono fun c hc k hk => Cmd.not_touches_of_queued hc ?_) w
  cases k <;> first | rfl | cases hk

/-- The world in which a session has just ended. -/
def closed (session : Session) (w : World) : World :=
  ((w.set (.sessionEnded session.id) (.text "1") (some Sessions.SESSION_STATE_TTL_MS)).del
    (.sessionActive session.userAId)).del (.sessionActive session.userBId)

theorem endSession_ended (self : Instance) (reason : EndReason) (h : Ended session.id w) :
    (Sessions.endSession self session reason).run Cmd.exec w = (.ok (), w) := by
  obtain ⟨r, hr⟩ := Option.isSome_iff_exists.mp h
  unfold Sessions.endSession
  change ((redis (.setNX (.sessionEnded session.id) (.text "1") Sessions.SESSION_STATE_TTL_MS)).bind
    _).run Cmd.exec w = _
  rw [Proc.run_bind, Proc.run_await, Cmd.exec_redis, RedisCmd.exec, hr]
  rfl

theorem endSession_going (self : Instance) (reason : EndReason) (h : ¬Ended session.id w) :
    Agrees (closed session w) ((Sessions.endSession self session reason).run Cmd.exec w).2 := by
  have hnone : w.get (.sessionEnded session.id) = none := by simpa [Ended] using h
  unfold Sessions.endSession
  change Agrees _ (((redis (.setNX (.sessionEnded session.id) _ _)).bind _).run Cmd.exec w).2
  rw [Proc.run_bind, Proc.run_await, Cmd.exec_redis, RedisCmd.exec, hnone]
  change Agrees _ (((host (.clearSessionEnd self session.id)).bind _).run Cmd.exec _).2
  rw [Proc.run_bind, Proc.run_await]
  change Agrees _ (((redis (.del [.sessionActive session.userAId, .sessionActive session.userBId])).bind
    _).run Cmd.exec _).2
  rw [Proc.run_bind, Proc.run_await]
  refine Agrees.run ?_ _
  have hhost : ∀ c : HostCmd,
      (host c).Conforms (fun c => ∀ k, ofPresence k = true → ¬c.touches k) True := fun c =>
    Proc.conforms_await fun _ _ h => h
  refine (hhost .now).bind fun now => (hhost (.emit _)).bind fun _ => Proc.Conforms.bind ?_
    fun deadline => hhost (.scheduleChoiceTimeout ..)
  refine (Sessions.ensureChoiceDeadline_issues session.id).mono fun c hc k hk htouch => ?_
  cases hc with
  | read | now => cases htouch
  | store deadline => cases htouch; cases hk

/-- The state `persistSessionState` stores. -/
def stateOf (session : Session) (tokens : SessionTokens) (startAt : Nat) : RedisString :=
  .json [("sessionId", .str session.id), ("userAId", .str session.userAId),
    ("userBId", .str session.userBId), ("channelName", .str tokens.channelName),
    ("startAt", .date startAt), ("endAt", .date (startAt + Sessions.SESSION_DURATION_MS))]

/-- The world in which a session has just started. -/
def opened (session : Session) (tokens : SessionTokens) (w : World) : World :=
  ((w.set (.sessionState session.id) (stateOf session tokens w.clock)
    (some Sessions.SESSION_STATE_TTL_MS)).set (.sessionActive session.userAId) (.text session.id)
      (some Sessions.SESSION_STATE_TTL_MS)).set (.sessionActive session.userBId) (.text session.id)
        (some Sessions.SESSION_STATE_TTL_MS)

/-- Taking the lock of a session. -/
def locked (session : Session) (w : World) : World :=
  w.set (.sessionLock session.id) (.text "1") (some Sessions.SESSION_LOCK_TTL_MS)

theorem agrees_locked (session : Session) (w : World) : Agrees w (locked session w) :=
  fun _ hk => World.get_set_ne (by rintro rfl; cases hk)

theorem handleSessionCreated_held (self : Instance) (h : w.get (.sessionLock session.id) ≠ none) :
    (Sessions.handleSessionCreated self session).run Cmd.exec w = (.ok (), w) := by
  obtain ⟨r, hr⟩ := Option.ne_none_iff_exists'.mp h
  unfold Sessions.handleSessionCreated
  change ((redis (.setNX (.sessionLock session.id) (.text "1") Sessions.SESSION_LOCK_TTL_MS)).bind
    _).run Cmd.exec w = _
  rw [Proc.run_bind, Proc.run_await, Cmd.exec_redis, RedisCmd.exec, hr]
  rfl

theorem handleSessionCreated_opens (self : Instance) (h : w.get (.sessionLock session.id) = none)
    {tokens : SessionTokens}
    (htokens : w.video session.id session.userAId session.userBId = .ok tokens) :
    Agrees (opened session tokens (locked session w))
      ((Sessions.handleSessionCreated self session).run Cmd.exec w).2 := by
  have hvideo : (locked session w).video session.id session.userAId session.userBId =
      .ok tokens := htokens
  unfold Sessions.handleSessionCreated
  change Agrees _ (((redis (.setNX (.sessionLock session.id) _ _)).bind _).run Cmd.exec w).2
  rw [Proc.run_bind, Proc.run_await, Cmd.exec_redis, RedisCmd.exec, h]
  change Agrees _ (((host .now).bind _).run Cmd.exec (locked session w)).2
  rw [Proc.run_bind, Proc.run_await]
  change Agrees _ ((Proc.tryCatch ((host (.buildSessionTokens _ _ _)).bind _) _).run Cmd.exec
    (locked session w)).2
  rw [Proc.run_tryCatch, Proc.run_bind, Proc.run_await, Cmd.exec_host, HostCmd.exec, hvideo]
  exact Agrees.refl _

/-- Where no tokens are to be had the session ends at once. -/
theorem handleSessionCreated_fails (self : Instance) (h : w.get (.sessionLock session.id) = none)
    {e : Err} (htokens : w.video session.id session.userAId session.userBId = .error e) :
    ((Sessions.handleSessionCreated self session).run Cmd.exec w).2 =
      ((Sessions.endSession self session .token_error).run Cmd.exec (locked session w)).2 := by
  have hvideo : (locked session w).video session.id session.userAId session.userBId =
      .error e := htokens
  unfold Sessions.handleSessionCreated
  change (((redis (.setNX (.sessionLock session.id) _ _)).bind _).run Cmd.exec w).2 = _
  rw [Proc.run_bind, Proc.run_await, Cmd.exec_redis, RedisCmd.exec, h]
  change (((host .now).bind _).run Cmd.exec (locked session w)).2 = _
  rw [Proc.run_bind, Proc.run_await]
  change ((Proc.tryCatch ((host (.buildSessionTokens _ _ _)).bind _) _).run Cmd.exec
    (locked session w)).2 = _
  rw [Proc.run_tryCatch, Proc.run_bind, Proc.run_await, Cmd.exec_host, HostCmd.exec, hvideo]

theorem ended_endSession (self : Instance) (reason : EndReason) {s : SessionId} (h : Ended s w) :
    Ended s ((Sessions.endSession self session reason).run Cmd.exec w).2 := by
  by_cases hended : Ended session.id w
  · rw [endSession_ended self reason hended]
    exact h
  · have hs : s ≠ session.id := by
      rintro rfl
      exact hended h
    rw [(endSession_going self reason hended).ended]
    unfold Ended closed
    rw [World.get_del_ne (by simp), World.get_del_ne (by simp), World.get_set_ne (by simpa using hs)]
    exact h

theorem ended_handleSessionCreated (self : Instance) {s : SessionId} (h : Ended s w) :
    Ended s ((Sessions.handleSessionCreated self session).run Cmd.exec w).2 := by
  have hlocked : Ended s (locked session w) := (agrees_locked session w).ended.mpr h
  by_cases hlock : w.get (.sessionLock session.id) = none
  · cases htokens : w.video session.id session.userAId session.userBId with
    | ok tokens =>
        rw [(handleSessionCreated_opens self hlock htokens).ended]
        unfold Ended opened
        rw [World.get_set_ne (by simp), World.get_set_ne (by simp), World.get_set_ne (by simp)]
        exact hlocked
    | error e =>
        rw [handleSessionCreated_fails self hlock htokens]
        exact ended_endSession self .token_error hlocked
  · rw [handleSessionCreated_held self hlock]
    exact h

end Calls

/-! ## Rows -/

/-- No session id is given twice. -/
structure Rows (w : World) : Prop where
  unique : ∀ x ∈ w.db.sessions, ∀ y ∈ w.db.sessions, x.id = y.id → x = y
  drawn : ∀ x ∈ w.db.sessions, ∀ n ≥ w.nextId, x.id ≠ freshId n

/-- A command that takes no row of a session away. -/
def keepsRows : Cmd → Bool
  | .db (.sessionDeleteMany _) => false
  | _ => true

section Rows

variable {w w' : World}

theorem keepsRows_of_queued {c : Cmd} (h : c.queued = true) : keepsRows c = true := by
  cases c with
  | redis c => rfl
  | host c => rfl
  | db c => cases c <;> first | rfl | cases h

/-- More rows, and still no id twice. -/
structure Grown (w w' : World) : Prop where
  rows : Rows w'
  kept : ∀ x ∈ w.db.sessions, x ∈ w'.db.sessions

theorem Rows.exec (hw : Rows w) (c : Cmd) : Rows (c.exec w).2 := by
  have hle : w.nextId ≤ (c.exec w).2.nextId := c.nextId_le_exec w
  rcases c.sessions_exec w with hsub | ⟨row, hid, hnext, hrows⟩
  · exact ⟨fun x hx y hy => hw.unique x (hsub x hx) y (hsub y hy),
      fun x hx n hn => hw.drawn x (hsub x hx) n (hle.trans hn)⟩
  · have hmem : ∀ x ∈ (c.exec w).2.db.sessions, x ∈ w.db.sessions ∨ x = row := by
      intro x hx
      rw [hrows] at hx
      rcases List.mem_append.mp hx with hx | hx
      · exact .inl hx
      · exact .inr (List.mem_singleton.mp hx)
    have hfresh : ∀ x ∈ w.db.sessions, x.id ≠ row.id := fun x hx heq =>
      hw.drawn x hx w.nextId (Nat.le_refl _) (heq.trans hid)
    refine ⟨fun x hx y hy heq => ?_, fun x hx n hn heq => ?_⟩
    · rcases hmem x hx with hx | rfl <;> rcases hmem y hy with hy | rfl
      · exact hw.unique x hx y hy heq
      · exact (hfresh x hx heq).elim
      · exact (hfresh y hy heq.symm).elim
      · rfl
    · rcases hmem x hx with hx | rfl
      · exact hw.drawn x hx n (hle.trans hn) heq
      · have := freshId_injective (hid.symm.trans heq)
        omega

theorem kept_exec {c : Cmd} (hc : keepsRows c = true) (w : World) :
    ∀ x ∈ w.db.sessions, x ∈ (c.exec w).2.db.sessions := by
  have hsame (h : ¬c.movesSessions) : ∀ x ∈ w.db.sessions, x ∈ (c.exec w).2.db.sessions := by
    rw [(c.tables_exec w).sessions h]
    exact fun _ hx => hx
  cases c with
  | redis c => exact hsame id
  | host c => exact hsame id
  | db c =>
      cases c with
      | sessionCreate a b region q =>
          simp only [Cmd.exec_db, DbCmd.exec, World.create]
          split
          · exact fun x hx => List.mem_append_left _ hx
          · exact fun _ hx => hx
      | sessionDeleteMany cutoff => cases hc
      | _ => exact hsame id

theorem Rows.run {α : Type} {p : Prog α} (hw : Rows w)
    (hp : p.Conforms (fun c => keepsRows c = true) True) : Grown w (p.run Cmd.exec w).2 :=
  hp.run_keeps (J := Grown w)
    (fun c w' hc hw' => ⟨hw'.rows.exec c, fun x hx => kept_exec hc w' x (hw'.kept x hx)⟩)
    ⟨hw, fun _ hx => hx⟩

theorem keepsRows_end {self : Instance} {session : Session} {reason : EndReason} {c : Cmd}
    (h : Sessions.EndCommand self session reason c) : keepsRows c = true := by
  cases h with
  | deadline h => cases h <;> rfl
  | _ => rfl

theorem keepsRows_endSession (self : Instance) (session : Session) (reason : EndReason) :
    (Sessions.endSession self session reason).Conforms (fun c => keepsRows c = true) True :=
  (Sessions.endSession_issues self session reason).mono fun _ => keepsRows_end

theorem keepsRows_handleSessionCreated (self : Instance) (session : Session) :
    (Sessions.handleSessionCreated self session).Conforms (fun c => keepsRows c = true) True := by
  refine (Sessions.handleSessionCreated_issues self session).mono fun c hc => ?_
  cases hc with
  | persist h => cases h <;> rfl
  | start h => cases h <;> rfl
  | finish h => exact keepsRows_end h
  | _ => rfl

end Rows

/-! ## The markers -/

/-- What is stored of a session is what its row says, which is none of the
`old` ones, and the marker of a user names the session the user is in. -/
structure Tidy (old : List Session) (w : World) : Prop where
  rows : Rows w
  states : ∀ s record, Sessions.parseSessionState (w.get (.sessionState s)) = some record →
    ∃ x ∈ w.db.sessions, x ∉ old ∧
      x.id = s ∧ x.userAId = record.userAId ∧ x.userBId = record.userBId
  marks : ∀ u s, w.get (.sessionActive u) = some (.text s) ↔ Live u s w

namespace Tidy

variable {old : List Session} {w w' : World} {x : Session} {u : UserId} {s : SessionId}

/-- The user of a live session is a participant of its row. -/
theorem persisted_iff (h : Tidy old w) (hx : x ∈ w.db.sessions) (hu : Persisted u x.id w) (v : UserId) :
    Persisted v x.id w ↔ x.userAId = v ∨ x.userBId = v := by
  obtain ⟨record, hrecord, -⟩ := hu
  obtain ⟨y, hy, -, hid, hA, hB⟩ := h.states x.id record hrecord
  obtain rfl : y = x := h.rows.unique y hy x hx hid
  constructor
  · rintro ⟨record', hrecord', hv⟩
    obtain rfl : record = record' := Option.some.inj (hrecord.symm.trans hrecord')
    rwa [hA, hB]
  · intro hv
    exact ⟨record, hrecord, by rwa [← hA, ← hB]⟩

theorem agrees (h : Tidy old w) (hagree : Agrees w w') (hgrown : Grown w w') : Tidy old w' where
  rows := hgrown.rows
  states s record hrecord := by
    rw [hagree _ rfl] at hrecord
    obtain ⟨x, hx, hrow⟩ := h.states s record hrecord
    exact ⟨x, hgrown.kept x hx, hrow⟩
  marks u s := by
    rw [hagree _ rfl, hagree.live]
    exact h.marks u s

/-- A session starts whose participants are in no other. -/
theorem of_opened {session : Session} {tokens : SessionTokens} (h : Tidy old w)
    (hagree : Agrees (opened session tokens w) w') (hgrown : Grown w w')
    (hrow : session ∈ w.db.sessions) (hfresh : session ∉ old)
    (hgoing : ¬Ended session.id w) (halone : Alone session w) :
    Tidy old w' := by
  have hpos : ∀ t ∈ some Sessions.SESSION_STATE_TTL_MS, 0 < t := by
    rintro t ⟨⟩
    decide
  have hstate : w'.get (.sessionState session.id) = some (stateOf session tokens w.clock) := by
    rw [hagree _ rfl, opened, World.get_set_ne (by simp), World.get_set_ne (by simp),
      World.get_set_self hpos]
  have hother (s : SessionId) (hs : s ≠ session.id) :
      w'.get (.sessionState s) = w.get (.sessionState s) := by
    rw [hagree _ rfl, opened, World.get_set_ne (by simp), World.get_set_ne (by simp),
      World.get_set_ne (by simpa using hs)]
  have hended (s : SessionId) : Ended s w' ↔ Ended s w := by
    unfold Ended
    rw [hagree _ rfl, opened, World.get_set_ne (by simp), World.get_set_ne (by simp),
      World.get_set_ne (by simp)]
  have hmarked (v : UserId) (hv : session.userAId = v ∨ session.userBId = v) :
      w'.get (.sessionActive v) = some (.text session.id) := by
    rw [hagree _ rfl, opened]
    by_cases hB : v = session.userBId
    · rw [hB, World.get_set_self hpos]
    · obtain rfl := hv.resolve_right fun h => hB h.symm
      rw [World.get_set_ne (by simpa using hB), World.get_set_self hpos]
  have hunmarked (v : UserId) (hv : ¬(session.userAId = v ∨ session.userBId = v)) :
      w'.get (.sessionActive v) = w.get (.sessionActive v) := by
    rw [not_or] at hv
    rw [hagree _ rfl, opened, World.get_set_ne (by simpa using Ne.symm hv.2),
      World.get_set_ne (by simpa using Ne.symm hv.1), World.get_set_ne (by simp)]
  have hlive (v : UserId) : Live v session.id w' ↔ session.userAId = v ∨ session.userBId = v := by
    constructor
    · rintro ⟨⟨record, hrecord, hv⟩, -⟩
      rw [hstate] at hrecord
      cases hrecord
      exact hv
    · intro hv
      exact ⟨⟨_, by rw [hstate]; rfl, hv⟩, mt (hended _).mp hgoing⟩
  have hliveOther (v : UserId) (s : SessionId) (hs : s ≠ session.id) :
      Live v s w' ↔ Live v s w := by
    have hpersisted : Persisted v s w' ↔ Persisted v s w := by
      unfold Persisted
      rw [hother s hs]
    exact ⟨fun hl => ⟨hpersisted.mp hl.persisted, mt (hended s).mpr hl.going⟩,
      fun hl => ⟨hpersisted.mpr hl.persisted, mt (hended s).mp hl.going⟩⟩
  refine ⟨hgrown.rows, fun s record hrecord => ?_, fun v s => ?_⟩
  · by_cases hs : s = session.id
    · subst hs
      rw [hstate] at hrecord
      cases hrecord
      exact ⟨session, hgrown.kept _ hrow, hfresh, rfl, rfl, rfl⟩
    · rw [hother s hs] at hrecord
      obtain ⟨x, hx, hrow⟩ := h.states s record hrecord
      exact ⟨x, hgrown.kept x hx, hrow⟩
  · by_cases hv : session.userAId = v ∨ session.userBId = v
    · rw [hmarked v hv]
      constructor
      · rintro ⟨⟩
        exact (hlive v).mpr hv
      · intro hl
        by_cases hs : s = session.id
        · rw [hs]
        · exact (hs (halone v s (hv.imp Eq.symm Eq.symm) ((hliveOther v s hs).mp hl))).elim
    · rw [hunmarked v hv, h.marks v s]
      by_cases hs : s = session.id
      · subst hs
        rw [hlive v]
        refine iff_of_false (fun hl => hv ?_) hv
        exact (h.persisted_iff hrow hl.persisted v).mp hl.persisted
      · exact (hliveOther v s hs).symm

/-- A session ends that is that of its participants. -/
theorem of_closed {session : Session} (h : Tidy old w) (hagree : Agrees (closed session w) w')
    (hgrown : Grown w w') (hx : x ∈ w.db.sessions)
    (hrow : x.id = session.id ∧ x.userAId = session.userAId ∧ x.userBId = session.userBId)
    (halone : Alone session w) : Tidy old w' := by
  obtain ⟨hid, hA, hB⟩ := hrow
  have hstate (s : SessionId) : w'.get (.sessionState s) = w.get (.sessionState s) := by
    rw [hagree _ rfl, closed, World.get_del_ne (by simp), World.get_del_ne (by simp),
      World.get_set_ne (by simp)]
  have hended : Ended session.id w' := by
    unfold Ended
    rw [hagree _ rfl, closed, World.get_del_ne (by simp), World.get_del_ne (by simp),
      World.get_set_self (by rintro t ⟨⟩; decide)]
    rfl
  have hendedOther (s : SessionId) (hs : s ≠ session.id) : Ended s w' ↔ Ended s w := by
    unfold Ended
    rw [hagree _ rfl, closed, World.get_del_ne (by simp), World.get_del_ne (by simp),
      World.get_set_ne (by simpa using hs)]
  have hlive (v : UserId) (s : SessionId) : Live v s w' ↔ Live v s w ∧ s ≠ session.id := by
    have hpersisted : Persisted v s w' ↔ Persisted v s w := by
      unfold Persisted
      rw [hstate]
    constructor
    · intro hl
      have hs : s ≠ session.id := by
        rintro rfl
        exact hl.going hended
      exact ⟨⟨hpersisted.mp hl.persisted, mt (hendedOther s hs).mpr hl.going⟩, hs⟩
    · rintro ⟨hl, hs⟩
      exact ⟨hpersisted.mpr hl.persisted, mt (hendedOther s hs).mp hl.going⟩
  refine ⟨hgrown.rows, fun s record hrecord => ?_, fun v s => ?_⟩
  · rw [hstate] at hrecord
    obtain ⟨y, hy, hyrow⟩ := h.states s record hrecord
    exact ⟨y, hgrown.kept y hy, hyrow⟩
  · rw [hlive, hagree _ rfl, closed]
    by_cases hv : session.userAId = v ∨ session.userBId = v
    · refine iff_of_false (fun hmark => ?_) fun hl =>
        hl.2 (halone v s (hv.imp Eq.symm Eq.symm) hl.1)
      by_cases hvB : v = session.userBId
      · rw [hvB, World.get_del_self] at hmark
        cases hmark
      · obtain rfl := hv.resolve_right fun h => hvB h.symm
        rw [World.get_del_ne (by simpa using hvB), World.get_del_self] at hmark
        cases hmark
    · have hv' := not_or.mp hv
      rw [World.get_del_ne (by simpa using Ne.symm hv'.2),
        World.get_del_ne (by simpa using Ne.symm hv'.1), World.get_set_ne (by simp), h.marks v s]
      refine ⟨fun hl => ⟨hl, ?_⟩, And.left⟩
      rintro rfl
      rw [← hid] at hl
      have hpart := (h.persisted_iff hx hl.persisted v).mp hl.persisted
      rw [hA, hB] at hpart
      exact hv hpart

theorem locked {session : Session} (h : Tidy old w) : Tidy old (App.locked session w) :=
  h.agrees (agrees_locked session w) ⟨⟨h.rows.unique, h.rows.drawn⟩, fun _ hx => hx⟩

/-- The end of a session. -/
theorem endSession {session : Session} (h : Tidy old w) (self : Instance) (reason : EndReason)
    (hx : x ∈ w.db.sessions)
    (hrow : x.id = session.id ∧ x.userAId = session.userAId ∧ x.userBId = session.userBId)
    (halone : ¬Ended session.id w → Alone session w) :
    Tidy old ((Sessions.endSession self session reason).run Cmd.exec w).2 := by
  by_cases hended : Ended session.id w
  · rw [endSession_ended self reason hended]
    exact h
  · exact h.of_closed (endSession_going self reason hended)
      (h.rows.run (keepsRows_endSession self session reason)) hx hrow (halone hended)

/-- The start of a session, if nobody else is about to start it. -/
theorem handleSessionCreated {session : Session} (h : Tidy old w) (self : Instance)
    (hrow : session ∈ w.db.sessions) (hfresh : session ∉ old)
    (hkeeps : w.get (.sessionLock session.id) = none → ¬Ended session.id w ∧ Alone session w) :
    Tidy old ((Sessions.handleSessionCreated self session).run Cmd.exec w).2 := by
  by_cases hlock : w.get (.sessionLock session.id) = none
  · obtain ⟨hgoing, halone⟩ := hkeeps hlock
    have hagree := agrees_locked session w
    have hgoing' : ¬Ended session.id (App.locked session w) := mt hagree.ended.mp hgoing
    have halone' : Alone session (App.locked session w) := fun u s hu hl =>
      halone u s hu (hagree.live.mp hl)
    have hgrown := h.rows.run (keepsRows_handleSessionCreated self session)
    cases htokens : w.video session.id session.userAId session.userBId with
    | ok tokens =>
        exact h.locked.of_opened (handleSessionCreated_opens self hlock htokens)
          ⟨hgrown.rows, hgrown.kept⟩ hrow hfresh hgoing' halone'
    | error e =>
        rw [handleSessionCreated_fails self hlock htokens]
        exact h.locked.endSession self .token_error hrow ⟨rfl, rfl, rfl⟩ fun _ => halone'
  · rw [handleSessionCreated_held self hlock]
    exact h

theorem queued {α : Type} {p : Prog α} (h : Tidy old w) (hp : Queued p) :
    Tidy old (p.run Cmd.exec w).2 :=
  h.agrees (agrees_queued hp w) (h.rows.run (hp.mono fun _ => keepsRows_of_queued))

/-- Nobody is in a session yet. -/
theorem empty (hrows : Rows w) (hredis : w.redis = .empty) : Tidy old w := by
  have hnone (k : RedisKey) : w.get k = none := by
    unfold World.get
    rw [hredis]
    rfl
  refine ⟨hrows, fun s record hrecord => ?_, fun u s => iff_of_false (fun hmark => ?_) ?_⟩
  · rw [hnone] at hrecord
    cases hrecord
  · rw [hnone] at hmark
    cases hmark
  · rintro ⟨⟨record, hrecord, -⟩, -⟩
    rw [hnone] at hrecord
    cases hrecord

end Tidy

end VerityBackend.App
