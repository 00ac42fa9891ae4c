/-
VerityBackend.App.Settling — what a finalizer leaves under the decision key.

`finalizeDecision` stores its payload over a pending decision, and with `NX`
over anything else. A string that reads neither as a pending nor as a
resolved decision keeps the key taken: the payload is lost, announced and
returned all the same. `settles_iff` says that this is the only way in which
the returned result and the stored one come apart, and that a result that is
stored is what every later call of `finalizeDecision` and `submitChoice`
returns, without announcing anything, for as long as the key is there.
-/
import VerityBackend.App.Guards
import VerityBackend.Async.Failing
import VerityBackend.Session.Outcome

namespace VerityBackend.Sessions

open Async App

/-! ## A stored decision -/

/-- The key is free, or what is stored under it reads as a decision. -/
def legible : Option RedisString → Bool
  | none => true
  | some r =>
      match parseStoredDecision (some r) with
      | .pending _ => true
      | .resolved _ => true
      | _ => false

/-- Run alone, the procedure settles with `r`, changes nothing and emits
nothing. -/
structure Reads {α : Type} (p : Prog α) (w : World) (r : Except Err α) : Prop where
  run : p.run Cmd.exec w = (r, w)
  silent : ∀ c ∈ p.commands Cmd.exec w, ∀ os, c ≠ .host (.emit os)

/-- `submitChoice` lets the user choose in this session. -/
def admitted (id : SessionId) (userId : UserId) (w : World) : Prop :=
  ∃ session, w.db.sessions.find? (·.id = id) = some session ∧
    (session.userAId = userId ∨ session.userBId = userId) ∧ truthy (w.get (.sessionEnded id)) = true

/-- Whoever comes to the session in `w` is told the decision `v`, and nobody
else is told anything. -/
structure Answers (id : SessionId) (v : ResolvedChoiceResult) (w : World) : Prop where
  finalize : ∀ self session choiceA choiceB, session.id = id →
    Reads (finalizeDecision self session choiceA choiceB) w (.ok (.resolved v none))
  submit : ∀ self userId choice, admitted id userId w →
    ∃ reveal, Reads (submitChoice self id userId choice) w (.ok (.resolved v reveal))
  refused : ∀ self userId choice, ¬admitted id userId w →
    ∃ e, Reads (submitChoice self id userId choice) w (.error e)

/-- The result is what is stored, and what later calls return. -/
def Settles (id : SessionId) (result : ChoiceResult) (w : World) : Prop :=
  ∃ v, result = .resolved v none ∧ parseStoredDecision (w.get (.sessionDecision id)) = .resolved v ∧
    ∀ w', w'.get (.sessionDecision id) = w.get (.sessionDecision id) → Answers id v w'

/-! ## Reading it back -/

section Reads

variable {id : SessionId} {v : ResolvedChoiceResult} {w : World} {α β : Type}

theorem reads_ret (r : Except Err α) : Reads (.ret r : Prog α) w r := ⟨rfl, by simp⟩

theorem reads_await {c : Cmd} {r : Except Err c.Res} (hrun : c.exec w = (r, w))
    (h : ∀ os, c ≠ .host (.emit os)) : Reads (Proc.await c) w r := by
  refine ⟨hrun, fun c' hc' => ?_⟩
  obtain rfl : c' = c := by simpa [Proc.await] using hc'
  exact h

theorem Reads.bind {p : Prog α} {f : α → Prog β} {a : α} {r : Except Err β} (hp : Reads p w (.ok a))
    (hf : Reads (f a) w r) : Reads (p.bind f) w r := by
  refine ⟨(Proc.run_bind_ok _ hp.run f).trans hf.run, fun c hc => ?_⟩
  rw [Proc.commands_bind, hp.run] at hc
  rcases List.mem_append.mp hc with hc | hc
  · exact hp.silent c hc
  · exact hf.silent c hc

theorem reads_get (k : RedisKey) : Reads (redis (.get k)) w (.ok (w.get k)) :=
  reads_await rfl fun os => by simp

theorem run_readStoredDecision (id : SessionId) (w : World) :
    (readStoredDecision id).run Cmd.exec w =
      (.ok (parseStoredDecision (w.get (.sessionDecision id))), w) := rfl

theorem reads_storedDecision (id : SessionId) (w : World) :
    Reads (readStoredDecision id) w (.ok (parseStoredDecision (w.get (.sessionDecision id)))) :=
  (reads_get _).bind (reads_ret _)

theorem reads_buildPartnerReveal (session : Session) (userId : UserId) (w : World) :
    ∃ reveal, Reads (buildPartnerRevealForUser session userId) w (.ok reveal) := by
  unfold buildPartnerRevealForUser
  dsimp only
  split
  · exact ⟨none, reads_ret _⟩
  · split
    · exact ⟨none, reads_ret _⟩
    · exact ⟨_, (reads_await rfl fun os => by simp).bind (reads_ret _)⟩

theorem reads_enrich (v : ResolvedChoiceResult) (session : Session) (userId : UserId) (w : World) :
    ∃ reveal, Reads (enrichChoiceResultForUser (.resolved v none) session userId) w
      (.ok (.resolved v reveal)) := by
  cases v with
  | nonMutual => exact ⟨none, reads_ret _⟩
  | «mutual» matchId =>
      obtain ⟨reveal, hreads⟩ := reads_buildPartnerReveal session userId w
      refine ⟨reveal, hreads.bind ?_⟩
      cases reveal <;> exact reads_ret _

/-- A finalizer that finds a resolved decision returns it. -/
theorem reads_finalizeDecision
    (h : parseStoredDecision (w.get (.sessionDecision id)) = .resolved v) (self : Instance)
    {session : Session} (hid : session.id = id) (choiceA choiceB : SessionChoice) :
    Reads (finalizeDecision self session choiceA choiceB) w (.ok (.resolved v none)) := by
  subst hid
  have hread := reads_storedDecision session.id w
  rw [h] at hread
  exact hread.bind (reads_ret _)

theorem reads_getDecision {session : Session}
    (h : parseStoredDecision (w.get (.sessionDecision session.id)) = .resolved v)
    (userId : UserId) :
    ∃ reveal, Reads (getDecision session userId) w (.ok (some (.resolved v reveal))) := by
  have hread := reads_storedDecision session.id w
  rw [h] at hread
  obtain ⟨reveal, hreads⟩ := reads_enrich v session userId w
  exact ⟨reveal, hread.bind (hreads.bind (reads_ret _))⟩

/-- A submitter is told the decision, or refused. -/
theorem reads_submitChoice (h : parseStoredDecision (w.get (.sessionDecision id)) = .resolved v)
    (self : Instance) (userId : UserId) (choice : SessionChoice) :
    (admitted id userId w →
      ∃ reveal, Reads (submitChoice self id userId choice) w (.ok (.resolved v reveal))) ∧
    (¬admitted id userId w → ∃ e, Reads (submitChoice self id userId choice) w (.error e)) := by
  have hrow : Reads (prisma (.sessionFindUnique id)) w (.ok (w.db.sessions.find? (·.id = id))) :=
    reads_await rfl fun os => by simp
  unfold submitChoice admitted
  cases hfind : w.db.sessions.find? (·.id = id) with
  | none =>
      rw [hfind] at hrow
      refine ⟨?_, fun _ => ⟨_, hrow.bind (reads_ret _)⟩⟩
      rintro ⟨session, hsession, -⟩
      cases hsession
  | some session =>
      rw [hfind] at hrow
      have hid : session.id = id := by simpa using List.find?_some hfind
      subst hid
      by_cases hpart : session.userAId ≠ userId ∧ session.userBId ≠ userId
      · refine ⟨?_, fun _ => ⟨_, hrow.bind (by dsimp only; rw [if_pos hpart]; exact reads_ret _)⟩⟩
        rintro ⟨session', hsession, hmember, -⟩
        obtain rfl := Option.some.inj hsession
        exact absurd hmember (not_or.mpr hpart)
      · have hmember : session.userAId = userId ∨ session.userBId = userId := by
          by_contra hne
          exact hpart (not_or.mp hne)
        have hended := reads_get (w := w) (.sessionEnded session.id)
        cases htruthy : truthy (w.get (.sessionEnded session.id)) with
        | false =>
            refine ⟨?_, fun _ => ⟨.badRequest "Session has not ended", hrow.bind ?_⟩⟩
            · rintro ⟨_, _, _, htrue⟩
              cases htrue
            · dsimp only
              rw [if_neg hpart]
              exact hended.bind (by rw [htruthy]; exact reads_ret _)
        | true =>
            obtain ⟨reveal, hdecision⟩ := reads_getDecision h userId
            refine ⟨fun _ => ⟨reveal, hrow.bind ?_⟩, fun hno => ?_⟩
            · dsimp only
              rw [if_neg hpart]
              refine hended.bind ?_
              rw [htruthy]
              exact hdecision.bind (reads_ret _)
            · exact absurd ⟨session, rfl, hmember, rfl⟩ hno

/-- A resolved decision answers whoever comes. -/
theorem answers_of_resolved (h : parseStoredDecision (w.get (.sessionDecision id)) = .resolved v) :
    Answers id v w where
  finalize self _ choiceA choiceB hid := reads_finalizeDecision h self hid choiceA choiceB
  submit self userId choice := (reads_submitChoice h self userId choice).1
  refused self userId choice := (reads_submitChoice h self userId choice).2

theorem settles_of_resolved (h : parseStoredDecision (w.get (.sessionDecision id)) = .resolved v) :
    Settles id (.resolved v none) w :=
  ⟨v, rfl, h, fun w' hw' => answers_of_resolved (by rw [hw']; exact h)⟩

end Reads

/-! ## Storing it -/

section Storing

variable {id : SessionId} {w w' : World} {payload : ResolvedChoiceResult}

/-- What is stored depends on what the key reads as. -/
theorem storeDecision_run (id : SessionId) (payload : ResolvedChoiceResult) (w : World)
    (h : ∀ v, parseStoredDecision (w.get (.sessionDecision id)) ≠ .resolved v) :
    (storeDecision id (parseStoredDecision (w.get (.sessionDecision id))) payload).run Cmd.exec w =
      (.ok none, if legible (w.get (.sessionDecision id)) = true then
        w.set (.sessionDecision id) payload.payload (some CHOICE_STATE_TTL_MS) else w) := by
  cases hget : w.get (.sessionDecision id) with
  | none =>
      change (storeUnlessDecided id payload).run Cmd.exec w = _
      unfold storeUnlessDecided
      rw [Proc.bind_eq, Proc.run_bind, Proc.run_await, Cmd.exec_redis, storeNX_none hget]
      rfl
  | some r =>
      -- the write is lost, and the key reads as it did before
      have hlost : ∀ existing, parseStoredDecision (some r) = existing →
          (storeUnlessDecided id payload).run Cmd.exec w =
            (storeLost id payload existing).run Cmd.exec w := by
        intro existing hparse
        unfold storeUnlessDecided
        rw [Proc.bind_eq, Proc.run_bind, Proc.run_await, Cmd.exec_redis, storeNX_some hget]
        have hread := run_readStoredDecision id w
        rw [hget, hparse] at hread
        exact Proc.run_bind_ok _ hread _
      rw [hget] at h
      cases hparse : parseStoredDecision (some r) with
      | resolved v => exact absurd hparse (h v)
      | pending deadline =>
          simp only [legible, hparse, if_true]
          rfl
      | none =>
          simp only [legible, hparse]
          exact hlost _ hparse
      | invalid =>
          simp only [legible, hparse]
          exact hlost _ hparse

/-- Sparing procedures leave the decision as it is. -/
theorem get_run_sparing {α : Type} {p : Prog α} (hp : Sparing p) (w : World) :
    (p.run Cmd.exec w).2.get (.sessionDecision id) = w.get (.sessionDecision id) := by
  refine hp.run_keeps (J := fun w' : World => w'.get (.sessionDecision id) = w.get (.sessionDecision id))
    (fun c w' hc hw' => ?_) rfl
  have hstored : (c.exec w').2.stored (.sessionDecision id) = w'.stored (.sessionDecision id) :=
    Cmd.stored_exec (Cmd.not_touches_of_sparing hc rfl) w'
  exact (World.get_congr hstored (c.clock_exec w')).trans hw'

/-- What a finalizer that finds no resolved decision does with its payload. -/
theorem finalizeDecision_unresolved {self : Instance} {session : Session}
    {choiceA choiceB : SessionChoice} {result : ChoiceResult}
    (h : ∀ v, parseStoredDecision (w.get (.sessionDecision session.id)) ≠ .resolved v)
    (hrun : (finalizeDecision self session choiceA choiceB).run Cmd.exec w = (.ok result, w')) :
    ∃ payload, result = .resolved payload none ∧ w'.get (.sessionDecision session.id) =
      if legible (w.get (.sessionDecision session.id)) = true then some payload.payload
      else w.get (.sessionDecision session.id) := by
  set existing := parseStoredDecision (w.get (.sessionDecision session.id)) with hexisting
  have hrest : (finalizeDecision self session choiceA choiceB).run Cmd.exec w =
      (settleDecision self session choiceA choiceB existing).run Cmd.exec w := by
    unfold finalizeDecision
    rw [Proc.bind_eq, Proc.run_bind_ok _ (run_readStoredDecision session.id w), ← hexisting]
    cases hcase : existing with
    | resolved v => exact absurd hcase (h v)
    | none => rfl
    | invalid => rfl
    | pending deadline => rfl
  rw [hrest, settleDecision, Proc.bind_eq, Proc.run_bind] at hrun
  have hget₁ : ((decisionOf session choiceA choiceB).run Cmd.exec w).2.get (.sessionDecision session.id) =
      w.get (.sessionDecision session.id) :=
    get_run_sparing (sparing_decisionOf session choiceA choiceB) w
  rcases hdecision : (decisionOf session choiceA choiceB).run Cmd.exec w with ⟨e | payload, w₁⟩
  · rw [hdecision] at hrun
    cases hrun
  · rw [hdecision] at hrun hget₁
    dsimp only at hrun hget₁
    have hstore := storeDecision_run session.id payload w₁ (by rw [hget₁]; exact h)
    rw [hget₁, ← hexisting] at hstore
    rw [settlePayload, Proc.bind_eq, Proc.run_bind_ok _ hstore] at hrun
    change ((announceDecision self session choiceA choiceB payload).bind fun _ =>
      (pure (.resolved payload none) : Prog ChoiceResult)).run Cmd.exec _ = _ at hrun
    have hannounce (w' : World) : ((announceDecision self session choiceA choiceB payload).run Cmd.exec
        w').2.get (.sessionDecision session.id) = w'.get (.sessionDecision session.id) :=
      get_run_sparing (sparing_announceDecision self session choiceA choiceB payload) w'
    have hget₂ := hannounce
      (if legible (w.get (.sessionDecision session.id)) = true then
        w₁.set (.sessionDecision session.id) payload.payload (some CHOICE_STATE_TTL_MS) else w₁)
    rw [Proc.run_bind] at hrun
    generalize (announceDecision self session choiceA choiceB payload).run Cmd.exec _ = announced
      at hrun hget₂
    rcases announced with ⟨e | ⟨⟩, w₂⟩
    · cases hrun
    · obtain ⟨hresult, rfl⟩ := Prod.mk.inj hrun
      refine ⟨payload, (Except.ok.inj hresult).symm, hget₂.trans ?_⟩
      split
      · exact World.get_set_self (by decide)
      · exact hget₁

end Storing

/-! ## The result -/

theorem legible_of_resolved {raw : Option RedisString} {v : ResolvedChoiceResult}
    (h : parseStoredDecision raw = .resolved v) : legible raw = true := by
  cases raw with
  | none => rfl
  | some r => simp only [legible, h]

/-- **What a finalizer returns is settled**, exactly if the decision key was
free or held a decision. -/
theorem settles_iff (self : Instance) (session : Session) (choiceA choiceB : SessionChoice)
    (w : World) {result : ChoiceResult} {w' : World}
    (h : (finalizeDecision self session choiceA choiceB).run Cmd.exec w = (.ok result, w')) :
    Settles session.id result w' ↔ legible (w.get (.sessionDecision session.id)) = true := by
  by_cases hresolved : ∃ v, parseStoredDecision (w.get (.sessionDecision session.id)) = .resolved v
  · obtain ⟨v, hv⟩ := hresolved
    have hread := (reads_finalizeDecision hv self rfl choiceA choiceB).run
    obtain ⟨hresult, rfl⟩ := Prod.mk.inj (hread.symm.trans h)
    rw [← Except.ok.inj hresult]
    exact ⟨fun _ => legible_of_resolved hv, fun _ => settles_of_resolved hv⟩
  · obtain ⟨payload, rfl, hget⟩ := finalizeDecision_unresolved (fun v hv => hresolved ⟨v, hv⟩) h
    constructor
    · rintro ⟨v, -, hv, -⟩
      by_contra hlegible
      rw [if_neg hlegible] at hget
      exact hresolved ⟨v, by rw [← hget]; exact hv⟩
    · intro hlegible
      rw [if_pos hlegible] at hget
      exact settles_of_resolved (by rw [hget, parseStoredDecision_payload])

/-- The session of `endedSession`, where a pending decision is stored. -/
def pendingSession : World :=
  endedSession.set (.sessionDecision "s")
    (.json [("status", .str "pending"), ("deadline", .date 60000)]) (some CHOICE_STATE_TTL_MS)

theorem settles_iff_pending :
    Settles "s" (.resolved .nonMutual none)
      ((finalizeDecision 0 annAndBob .PASS .PASS).run Cmd.exec pendingSession).2 := by
  have hrun : (finalizeDecision 0 annAndBob .PASS .PASS).run Cmd.exec pendingSession =
      (.ok (.resolved .nonMutual none),
        ((finalizeDecision 0 annAndBob .PASS .PASS).run Cmd.exec pendingSession).2) := by
    rfl
  exact (settles_iff 0 annAndBob .PASS .PASS pendingSession hrun).mpr (by decide)

/-- A decision with an outcome nobody knows is under the key. -/
def spoiledSession : World :=
  endedSession.set (.sessionDecision "s")
    (.json [("status", .str "resolved"), ("outcome", .str "expired")]) (some CHOICE_STATE_TTL_MS)

/-- Nothing is stored over it, and the next finalizer announces again. -/
theorem unsettled : ¬∀ (self : Instance) (session : Session) (choiceA choiceB : SessionChoice)
    (w : World) (result : ChoiceResult) (w' : World),
    (finalizeDecision self session choiceA choiceB).run Cmd.exec w = (.ok result, w') →
      Settles session.id result w' := by
  intro h
  have hrun : (finalizeDecision 0 annAndBob .PASS .PASS).run Cmd.exec spoiledSession =
      (.ok (.resolved .nonMutual none),
        ((finalizeDecision 0 annAndBob .PASS .PASS).run Cmd.exec spoiledSession).2) := by
    rfl
  obtain ⟨v, -, hv, -⟩ := h 0 annAndBob .PASS .PASS spoiledSession _ _ hrun
  have hinvalid : parseStoredDecision (World.get ((finalizeDecision 0 annAndBob .PASS .PASS).run
      Cmd.exec spoiledSession).2 (.sessionDecision "s")) = .invalid := by decide
  rw [show annAndBob.id = "s" from rfl, hinvalid] at hv
  cases hv

end VerityBackend.Sessions
