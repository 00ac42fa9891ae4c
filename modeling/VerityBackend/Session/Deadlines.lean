/-
VerityBackend.Session.Deadlines — the choice deadline everybody sees.

`ensureChoiceDeadline` reads the deadline, and where there is none it
stores one with `SET NX` and returns it whether or not the `SET` has taken
effect. `one_deadline` says that all callers and all timers go by the stored
deadline as long as no `SET NX` comes second; `two_deadlines` is a run in
which one does.

What a call of `ensureChoiceDeadline` returns is read off the trace: it is
the date of its last command (`handsOut`).
-/
import VerityBackend.Backend.Frames
import VerityBackend.Session.Choosing

namespace VerityBackend.Sessions

open Async Store

/-! ## The service -/

inductive DeadlineOp where
  | endSession (self : Instance) (session : Session) (reason : EndReason)
  | submitChoice (self : Instance) (sessionId : SessionId) (userId : UserId)
      (choice : SessionChoice)
  deriving DecidableEq, Repr

abbrev DeadlineOp.Ret : DeadlineOp → Type
  | .endSession _ _ _ => Unit
  | .submitChoice _ _ _ _ => ChoiceResult

def DeadlineOp.code : (o : DeadlineOp) → Prog o.Ret
  | .endSession self session reason => Sessions.endSession self session reason
  | .submitChoice self sessionId userId choice => Sessions.submitChoice self sessionId userId choice

@[reducible] def deadlineService : Service where
  Op := DeadlineOp
  Ret := DeadlineOp.Ret
  code := DeadlineOp.code

abbrev DeadlineSnap := Snap deadlineService.system

/-- What `ensureChoiceDeadline` returns after this command, if it returns. -/
def handsOut (id : SessionId) (e : Entry deadlineService.system) : Option JsDate :=
  match e.cmd with
  | .redis (.get k) =>
      if k = .sessionChoiceDeadline id ∧ truthy (e.before.get k) then
        some ((e.before.get k).bind RedisString.parseDate)
      else none
  | .redis (.setNX k v _) => if k = .sessionChoiceDeadline id then some v.parseDate else none
  | _ => none

theorem handsOut_get (id : SessionId) (i : Nat) (w : World) :
    handsOut id ⟨i, .redis (.get (.sessionChoiceDeadline id)), w⟩ =
      if truthy (w.get (.sessionChoiceDeadline id)) = true then
        some ((w.get (.sessionChoiceDeadline id)).bind RedisString.parseDate)
      else none := by
  simp only [handsOut, true_and]

theorem handsOut_setNX (id : SessionId) (i : Nat) (deadline ttl : Nat) (w : World) :
    handsOut id ⟨i, .redis (.setNX (.sessionChoiceDeadline id) (.date deadline) ttl), w⟩ =
      some (some deadline) := if_pos rfl

/-- Every deadline returned is the stored one, and every choice timer fires
then. -/
structure OneDeadline (id : SessionId) (s : DeadlineSnap) : Prop where
  returned : ∀ e ∈ s.trace, ∀ x ∈ handsOut id e,
    ∃ d, x = some d ∧ s.world.get (.sessionChoiceDeadline id) = some (.date d)
  fires : ∀ self t, s.world.choiceTimers self id = some t →
    s.world.get (.sessionChoiceDeadline id) = some (.date t.fireAt)

/-- The key does not expire. -/
def DeadlineLives (id : SessionId) (c : Config deadlineService.system) :
    Event deadlineService.system → Prop
  | .env e => (c.world.env e).get (.sessionChoiceDeadline id) = c.world.get (.sessionChoiceDeadline id)
  | _ => True

/-- A `SET NX` takes effect, or finds the deadline it would have stored; a
timer is armed before the deadline. -/
def punctual (id : SessionId) (w : World) : Cmd → Bool
  | .redis (.setNX k v _) => k != .sessionChoiceDeadline id || (w.get k).all (· == v)
  | .host (.scheduleChoiceTimeout _ id' _ _ deadline) => id' != id || decide (w.clock ≤ deadline)
  | _ => true

def Punctual (id : SessionId) (c : Config deadlineService.system) :
    Event deadlineService.system → Prop
  | .step i => (c.pending i).all (punctual id c.world) = true
  | _ => True

instance (id : SessionId) (c : Config deadlineService.system) (e : Event deadlineService.system) :
    Decidable (DeadlineLives id c e) :=
  match e with
  | .env e => inferInstanceAs (Decidable ((c.world.env e).get (.sessionChoiceDeadline id) =
      c.world.get (.sessionChoiceDeadline id)))
  | .start _ | .step _ => .isTrue trivial

instance (id : SessionId) (c : Config deadlineService.system) (e : Event deadlineService.system) :
    Decidable (Punctual id c e) :=
  match e with
  | .step i => inferInstanceAs (Decidable ((c.pending i).all (punctual id c.world) = true))
  | .start _ | .env _ => .isTrue trivial

/-! ## Commands that have nothing to do with the deadline -/

section Elsewhere

variable {id : SessionId}

/-- Neither the deadline of `id` is read or written, nor a choice timer of
`id` armed. -/
def Elsewhere (id : SessionId) : Cmd → Prop
  | .redis (.get k) | .redis (.set k _ _) | .redis (.setNX k _ _) => k ≠ .sessionChoiceDeadline id
  | .redis (.del ks) => .sessionChoiceDeadline id ∉ ks
  | .redis (.hget _ _) | .redis (.hset _ _ _) | .redis (.hmget _ _ _)
  | .redis (.pexpireChoices _ _) => True
  | .redis _ => False
  | .host (.scheduleChoiceTimeout _ id' _ _ _) => id' ≠ id
  | .host _ => True
  | .db _ => True

abbrev Apart (id : SessionId) {α : Type} (p : Prog α) : Prop := p.Conforms (Elsewhere id) True

theorem apart_await {c : Cmd} (h : Elsewhere id c) : Apart id (Proc.await c) := Proc.conforms_await h

theorem apart_prisma (c : DbCmd) : Apart id (prisma c) := apart_await trivial

theorem apart_now : Apart id (host .now) := apart_await trivial

theorem Deciding.elsewhere {c : Cmd} (h : Deciding c) : Elsewhere id c := by
  cases h with
  | readDecision id' | overwrite id' v ttl | store id' v ttl => simp [Elsewhere]
  | _ => trivial

theorem Decides.apart {α : Type} {p : Prog α} (hp : Decides p) : Apart id p :=
  Proc.Conforms.mono hp fun _ => Deciding.elsewhere

/-- The deadline of another session. -/
theorem apart_ensureChoiceDeadline {sessionId : SessionId} (h : sessionId ≠ id) :
    Apart id (ensureChoiceDeadline sessionId) := by
  have hget : Elsewhere id (.redis (.get (.sessionChoiceDeadline sessionId))) := by
    simpa [Elsewhere] using h
  have hset (deadline : Nat) : Elsewhere id (.redis (.setNX (.sessionChoiceDeadline sessionId)
      (.date deadline) CHOICE_STATE_TTL_MS)) := by
    simpa [Elsewhere] using h
  unfold ensureChoiceDeadline
  refine (apart_await hget).bind fun existing => ?_
  split
  · exact Proc.conforms_pure _
  · exact apart_now.bind fun now => (apart_await (hset _)).bind fun _ => Proc.conforms_pure _

end Elsewhere

/-! ## The discipline -/

section Discipline

variable {id : SessionId} {s : DeadlineSnap} {o : DeadlineOp} {i : Nat} {α β : Type}

/-- The stored deadline, if there is one, is a date. -/
def Dated (id : SessionId) (w : World) : Prop :=
  ∀ r, w.get (.sessionChoiceDeadline id) = some r → ∃ d, r = .date d

structure DeadlineInv (id : SessionId) (s : DeadlineSnap) : Prop where
  dated : Dated id s.world
  one : OneDeadline id s

/-- A call counts on a stored deadline to stay. -/
def deadlineDiscipline (id : SessionId) : Discipline deadlineService.system where
  inv := DeadlineInv id
  admits _ _ c s := punctual id s.world c = true
  rely _ s s' := ∀ r, s.world.get (.sessionChoiceDeadline id) = some r →
    s'.world.get (.sessionChoiceDeadline id) = some r
  guar _ _ _ _ := True
  rely_refl _ _ _ h := h
  rely_trans _ _ _ _ h h' r hr := h' r (h r hr)

theorem Elsewhere.get {c : Cmd} (h : Elsewhere id c) (w : World) :
    (c.exec w).2.get (.sessionChoiceDeadline id) = w.get (.sessionChoiceDeadline id) := by
  refine World.get_congr (Cmd.stored_exec (fun htouch => ?_) w) (c.clock_exec w)
  cases c with
  | db c => exact htouch
  | host c => exact htouch
  | redis c =>
      cases c with
      | set k v ttl | setNX k v ttl => exact h htouch.symm
      | del ks => exact h htouch
      | get k | hget y u | hset y u v | hmget y u v | pexpireChoices y ttl => exact htouch
      | _ => exact h.elim

theorem Elsewhere.handsOut {c : Cmd} (h : Elsewhere id c) (i : Nat) (w : World) :
    handsOut id ⟨i, c, w⟩ = none := by
  unfold Sessions.handsOut
  cases c with
  | db c | host c => rfl
  | redis c =>
      cases c with
      | get k => exact if_neg fun hk => h hk.1
      | setNX k v ttl => exact if_neg h
      | _ => rfl

/-- A choice timer of the session is left alone or cleared. -/
theorem Elsewhere.choiceTimers {c : Cmd} (h : Elsewhere id c) {w : World} {self : Instance} {t : Timer}
    (ht : (c.exec w).2.choiceTimers self id = some t) : w.choiceTimers self id = some t := by
  by_cases hmoves : c.movesTimers
  · cases c with
    | db c | redis c => exact hmoves.elim
    | host c =>
        cases c with
        | scheduleSessionEnd self' id' a b endAt => exact ht
        | clearSessionEnd self' id' => exact ht
        | scheduleChoiceTimeout self' id' a b deadline =>
            have hne : ¬(self = self' ∧ id = id') := fun hsame => h hsame.2.symm
            have hkept : setTimer w.choiceTimers self' id' _ self id = some t := ht
            unfold setTimer at hkept
            rwa [if_neg hne] at hkept
        | clearChoiceTimeout self' id' =>
            have hkept : setTimer w.choiceTimers self' id' none self id = some t := ht
            unfold setTimer at hkept
            split at hkept
            · cases hkept
            · exact hkept
        | _ => exact hmoves.elim
  · rwa [(Cmd.timers_exec hmoves w).2] at ht

theorem elsewhere_keeps {c : Cmd} (h : Elsewhere id c) (hinv : DeadlineInv id s) :
    (deadlineDiscipline id).Keeps o i c s := by
  have hget := h.get s.world
  refine ⟨trivial, ⟨fun r hr => hinv.dated r (hget.symm.trans hr), ?_, ?_⟩, fun j _ r hr => hget.trans hr⟩
  · intro e he x hx
    rcases List.mem_cons.mp he with rfl | he
    · rw [h.handsOut] at hx
      cases hx
    · obtain ⟨d, hxd, hd⟩ := hinv.one.returned e he x hx
      exact ⟨d, hxd, hget.trans hd⟩
  · exact fun self t ht => hget.trans (hinv.one.fires self t (h.choiceTimers ht))

/-- What has nothing to do with the deadline may be done at any time. -/
theorem valid_apart {p : Prog α} (hp : Apart id p) :
    (deadlineDiscipline id).Valid o i p (fun _ _ => True) s :=
  (Discipline.valid_of_conforms (J := fun _ => True) hp (fun _ _ _ h => h)
    (fun _ _ hc hinv _ => ⟨elsewhere_keeps hc hinv, trivial, .inr trivial⟩) trivial).weaken
    fun _ _ _ => trivial

theorem valid_apart_bind {p : Prog α} (hp : Apart id p) {f : α → Prog β}
    (hf : ∀ a s', (deadlineDiscipline id).Valid o i (f a) (fun _ _ => True) s') :
    (deadlineDiscipline id).Valid o i (p.bind f) (fun _ _ => True) s := by
  refine Discipline.valid_bind ((valid_apart hp).weaken fun r s' _ => ?_)
  cases r with
  | ok a => exact hf a s'
  | error e => trivial

/-- The deadline returned is the stored one. -/
def Returns (id : SessionId) (r : Except Err JsDate) (s : DeadlineSnap) : Prop :=
  ∀ x, r = .ok x → ∃ d, x = some d ∧ s.world.get (.sessionChoiceDeadline id) = some (.date d)

/-- A command that changes nothing and hands out the stored deadline. -/
theorem unchanged_keeps {c : Cmd} (hinv : DeadlineInv id s) (hsame : (c.exec s.world).2 = s.world)
    (hout : ∀ x ∈ handsOut id ⟨i, c, s.world⟩,
      ∃ d, x = some d ∧ s.world.get (.sessionChoiceDeadline id) = some (.date d)) :
    (deadlineDiscipline id).Keeps o i c s := by
  have hworld : (s.exec i c).world = s.world := hsame
  refine ⟨trivial, ⟨by rw [hworld]; exact hinv.dated, ?_, by rw [hworld]; exact hinv.one.fires⟩,
    fun j _ r hr => by rw [hworld]; exact hr⟩
  intro e he x hx
  rw [hworld]
  rcases List.mem_cons.mp he with rfl | he
  · exact hout x hx
  · exact hinv.one.returned e he x hx

/-- The first `SET NX` stores the deadline for everybody. -/
theorem first_keeps {deadline : Nat} (hinv : DeadlineInv id s)
    (hnone : s.world.get (.sessionChoiceDeadline id) = none) :
    (deadlineDiscipline id).Keeps o i (.redis (.setNX (.sessionChoiceDeadline id) (.date deadline)
      CHOICE_STATE_TTL_MS)) s := by
  have hget : ((RedisCmd.setNX (.sessionChoiceDeadline id) (.date deadline)
      CHOICE_STATE_TTL_MS).exec s.world).2.get (.sessionChoiceDeadline id) = some (.date deadline) := by
    simp only [RedisCmd.exec, hnone]
    exact World.get_set_self (by decide)
  have htimers : ((RedisCmd.setNX (.sessionChoiceDeadline id) (.date deadline)
      CHOICE_STATE_TTL_MS).exec s.world).2.choiceTimers = s.world.choiceTimers := by
    simp only [RedisCmd.exec, hnone]
    rfl
  refine ⟨trivial, ⟨fun r hr => ?_, ?_, ?_⟩, fun j _ r hr => ?_⟩
  · exact ⟨deadline, Option.some.inj (hr.symm.trans hget)⟩
  · intro e he x hx
    rcases List.mem_cons.mp he with rfl | he
    · rw [handsOut_setNX] at hx
      exact ⟨deadline, (Option.some.inj hx).symm, hget⟩
    · obtain ⟨d, -, hd⟩ := hinv.one.returned e he x hx
      rw [hnone] at hd
      cases hd
  · intro self t ht
    have hbefore := hinv.one.fires self t ((congrFun (congrFun htimers self) id).symm.trans ht)
    rw [hnone] at hbefore
    cases hbefore
  · rw [hnone] at hr
    cases hr

/-- A deadline that is seen is handed out. -/
theorem dated_read {w : World} (hdated : Dated id w)
    (h : truthy (w.get (.sessionChoiceDeadline id)) = true) :
    ∃ d, (w.get (.sessionChoiceDeadline id)).bind RedisString.parseDate = some d ∧
      w.get (.sessionChoiceDeadline id) = some (.date d) := by
  cases hget : w.get (.sessionChoiceDeadline id) with
  | none =>
      rw [hget] at h
      cases h
  | some r =>
      obtain ⟨d, rfl⟩ := hdated r hget
      exact ⟨d, rfl, rfl⟩

theorem valid_deadlineEnsured :
    (deadlineDiscipline id).Valid o i (ensureChoiceDeadline id) (Returns id) s := by
  unfold ensureChoiceDeadline
  refine valid_redis fun s₁ _ hinv₁ _ => ⟨?_, ?_⟩
  · refine unchanged_keeps hinv₁ rfl fun x hx => ?_
    rw [handsOut_get] at hx
    split at hx
    · next h =>
        obtain ⟨d, hparse, hget⟩ := dated_read hinv₁.dated h
        exact ⟨d, (Option.some.inj hx).symm.trans hparse, hget⟩
    · cases hx
  · change Discipline.Valid _ _ _ (if truthy (s₁.world.get (.sessionChoiceDeadline id)) = true then _
      else _) _ _
    split
    · next h =>
        obtain ⟨d, hparse, hget⟩ := dated_read hinv₁.dated h
        intro x hx
        exact ⟨d, (Except.ok.inj hx).symm.trans hparse, hget⟩
    · refine valid_host fun s₂ _ hinv₂ _ => ⟨elsewhere_keeps trivial hinv₂, ?_⟩
      refine valid_redis fun s₃ _ hinv₃ hpunctual => ?_
      have hstored (r) (hr : s₃.world.get (.sessionChoiceDeadline id) = some r) :
          r = .date (s₂.world.clock + CHOICE_WINDOW_MS) := by
        simpa [deadlineDiscipline, punctual, hr] using hpunctual
      cases hget : s₃.world.get (.sessionChoiceDeadline id) with
      | none =>
          refine ⟨first_keeps hinv₃ hget, fun x hx => ⟨_, (Except.ok.inj hx).symm, ?_⟩⟩
          simp only [Snap.exec_world, Cmd.exec_redis, RedisCmd.exec, hget]
          exact World.get_set_self (by decide)
      | some r =>
          obtain rfl := hstored r hget
          have hsame : ((RedisCmd.setNX (.sessionChoiceDeadline id) (.date (s₂.world.clock +
              CHOICE_WINDOW_MS)) CHOICE_STATE_TTL_MS).exec s₃.world).2 = s₃.world := by
            simp only [RedisCmd.exec, hget]
          refine ⟨unchanged_keeps hinv₃ hsame fun x hx => ?_, fun x hx => ?_⟩
          · rw [handsOut_setNX] at hx
            exact ⟨_, (Option.some.inj hx).symm, hget⟩
          · refine ⟨_, (Except.ok.inj hx).symm, ?_⟩
            rw [Snap.exec_world]
            exact (congrArg (World.get · _) hsame).trans hget

/-- A timer is armed for the deadline that has been returned. -/
theorem valid_scheduleChoiceTimeout (self : Instance) (userAId userBId : UserId) {d : Nat}
    (h : s.world.get (.sessionChoiceDeadline id) = some (.date d)) :
    (deadlineDiscipline id).Valid o i (scheduleChoiceTimeout self id userAId userBId (some d))
      (fun _ _ => True) s := by
  intro s' hrely hinv hpunctual
  have hget : s'.world.get (.sessionChoiceDeadline id) = some (.date d) := hrely _ h
  have hbefore : s'.world.clock ≤ d := by
    simpa [deadlineDiscipline, punctual] using hpunctual
  refine ⟨⟨trivial, ⟨hinv.dated, fun e he x hx => ?_, fun inst t ht => ?_⟩, fun j _ r hr => hr⟩, trivial⟩
  · rcases List.mem_cons.mp he with rfl | he
    · cases hx
    · exact hinv.one.returned e he x hx
  · have ht : setTimer s'.world.choiceTimers self id
        (some ⟨userAId, userBId, max d s'.world.clock⟩) inst id = some t := ht
    unfold setTimer at ht
    split at ht
    · cases ht
      rw [Nat.max_eq_left hbefore]
      exact hget
    · exact hinv.one.fires inst t ht

theorem valid_deadlineEnd (self : Instance) (session : Session) (reason : EndReason) :
    (deadlineDiscipline id).Valid o i (endSession self session reason) (fun _ _ => True) s := by
  have hclosing : Elsewhere id
      (.redis (.del [.sessionActive session.userAId, .sessionActive session.userBId])) := by
    simp [Elsewhere]
  unfold endSession
  refine valid_apart_bind (apart_await (by simp [Elsewhere])) fun alreadyEnded s₁ => ?_
  split
  · trivial
  · refine valid_apart_bind (apart_await (by trivial)) fun _ s₂ =>
      valid_apart_bind (apart_await hclosing) fun _ s₃ =>
      valid_apart_bind apart_now fun now s₄ =>
      valid_apart_bind (apart_await (by trivial)) fun _ s₅ => ?_
    by_cases hid : session.id = id
    · subst hid
      refine Discipline.valid_bind (valid_deadlineEnsured.weaken fun r s₆ hreturns => ?_)
      cases r with
      | error e => trivial
      | ok deadline =>
          obtain ⟨d, rfl, hget⟩ := hreturns deadline rfl
          exact valid_scheduleChoiceTimeout self session.userAId session.userBId hget
    · refine valid_apart_bind (apart_ensureChoiceDeadline hid) fun deadline s₆ => ?_
      exact valid_apart (apart_await hid)

/-- What `submitChoice` does once it has its deadline. -/
theorem apart_submitted (self : Instance) (sessionId : SessionId) (session : Session)
    (userId : UserId) (choice : SessionChoice) (deadline : JsDate) :
    Apart id (do
      let existingChoice ← redis (.hget sessionId userId)
      if existingChoice.isSome then
        let evaluated ← evaluateChoices self session deadline
        enrichChoiceResultForUser evaluated session userId
      else
        redis (.hset sessionId userId choice)
        expireChoices sessionId deadline
        host (.emit [.track userId "session_choice_submitted"
          [("sessionId", .str sessionId), ("choice", .str (choiceName choice))]])
        let evaluated ← evaluateChoices self session deadline
        enrichChoiceResultForUser evaluated session userId) := by
  have hevaluated : Apart id
      ((evaluateChoices self session deadline).bind (enrichChoiceResultForUser · session userId)) :=
    (decides_evaluated self session deadline userId).apart
  refine (apart_await (by trivial)).bind fun existingChoice => ?_
  split
  · exact hevaluated
  · exact (apart_await (by trivial)).bind fun _ => (decides_expireChoices sessionId deadline).apart.bind fun _ =>
      (apart_await (by trivial)).bind fun _ => hevaluated

theorem valid_deadlineChoice (self : Instance) (sessionId : SessionId) (userId : UserId)
    (choice : SessionChoice) :
    (deadlineDiscipline id).Valid o i (submitChoice self sessionId userId choice)
      (fun _ _ => True) s := by
  unfold submitChoice
  refine valid_apart_bind (apart_prisma _) fun found s₁ => ?_
  cases found with
  | none => trivial
  | some session =>
      dsimp only
      split
      · trivial
      · refine valid_apart_bind (apart_await (by simp [Elsewhere])) fun ended s₂ => ?_
        split
        · trivial
        · refine valid_apart_bind (decides_getDecision self session userId).apart fun stored s₃ => ?_
          cases stored with
          | some storedDecision => trivial
          | none =>
              by_cases hid : sessionId = id
              · subst hid
                refine Discipline.valid_bind (valid_deadlineEnsured.weaken fun r s₄ _ => ?_)
                cases r with
                | error e => trivial
                | ok deadline => exact valid_apart (apart_submitted self sessionId session userId choice _)
              · exact valid_apart_bind (apart_ensureChoiceDeadline hid) fun deadline s₄ =>
                  valid_apart (apart_submitted self sessionId session userId choice deadline)

theorem deadline_governs : (deadlineDiscipline id).Governs
    (fun c e => DeadlineLives id c e ∧ Punctual id c e) (fun _ _ _ _ => True) where
  start c o _ _ _ := by
    cases o with
    | endSession self session reason => exact valid_deadlineEnd self session reason
    | submitChoice self sessionId userId choice =>
        exact valid_deadlineChoice self sessionId userId choice
  step c i o cmd k hok hcall _ := by
    have hpunctual : (c.pending i).all (punctual id c.world) = true := hok.2
    rw [Config.pending_of_call hcall] at hpunctual
    exact hpunctual
  env c e hok hinv := by
    have hget : (c.next (.env e)).world.get (.sessionChoiceDeadline id) =
        c.world.get (.sessionChoiceDeadline id) := hok.1
    have htimers : (c.next (.env e)).world.choiceTimers = c.world.choiceTimers := by
      cases e
      rfl
    refine ⟨⟨fun r hr => hinv.dated r (hget.symm.trans hr), fun x hx y hy => ?_, fun self t ht => ?_⟩,
      fun i r hr => hget.trans hr⟩
    · obtain ⟨d, hyd, hd⟩ := hinv.one.returned x hx y hy
      exact ⟨d, hyd, hget.trans hd⟩
    · rw [htimers] at ht
      exact hget.trans (hinv.one.fires self t ht)

end Discipline

/-! ## Runs -/

/-- While the key lives, all calls of `ensureChoiceDeadline` return the stored
deadline, and all choice timers fire then. -/
theorem one_deadline (id : SessionId) (w : World) (hdated : Dated id w)
    (harmed : ∀ self t, w.choiceTimers self id = some t →
      w.get (.sessionChoiceDeadline id) = some (.date t.fireAt))
    (es : List (Event deadlineService.system))
    (hlives : (Config.initial w : Config deadlineService.system).Obeys (DeadlineLives id) es)
    (hpunctual : (Config.initial w).Obeys (Punctual id) es) :
    OneDeadline id ((Config.initial w : Config deadlineService.system).run es).toSnap := by
  have hstart : DeadlineInv id (⟨w, []⟩ : DeadlineSnap) :=
    ⟨hdated, fun e he => (by cases he), harmed⟩
  have hsound := Discipline.Sound.run deadline_governs (Config.obeys_and hlives hpunctual)
    (Discipline.sound_initial hstart)
  exact hsound.inv.one

/-- The session of `ann` and `bob`, which has not ended yet. -/
def openSession : World :=
  let w := World.peopled ["ann", "bob"] 1
  { w with db := { w.db with sessions := [⟨"s", "ann", "bob", none, none, 0⟩] } }

/-- The session ends, and a second later ann chooses. -/
def endsThenChooses : List (Event deadlineService.system) :=
  (.start (.endSession 0 ⟨"s", "ann", "bob", none, none, 0⟩ .timeout) ::
    List.replicate 9 (.step 0) : List (Event deadlineService.system)) ++
      (.env (.tick 1000) :: .start (.submitChoice 1 "s" "ann" .MATCH) ::
        List.replicate 13 (.step 1) : List (Event deadlineService.system))

theorem one_deadline_endsThenChooses : OneDeadline "s"
    ((Config.initial openSession : Config deadlineService.system).run endsThenChooses).toSnap :=
  one_deadline "s" openSession (fun _ h => nomatch h) (fun _ _ h => nomatch h) endsThenChooses
    (by decide +kernel) (by decide +kernel)

/-- Both read before either stores, and the later deadline is stored. -/
def chooseWhileEnding : List (Event deadlineService.system) :=
  (.start (.endSession 0 ⟨"s", "ann", "bob", none, none, 0⟩ .timeout) ::
    List.replicate 7 (.step 0) : List (Event deadlineService.system)) ++
      (.env (.tick 1000) :: .start (.submitChoice 1 "s" "ann" .MATCH) ::
        List.replicate 13 (.step 1) : List (Event deadlineService.system)) ++
      (List.replicate 2 (.step 0) : List (Event deadlineService.system))

theorem two_deadlines : ¬∀ (id : SessionId) (w : World), Dated id w →
    (∀ self t, w.choiceTimers self id = some t →
      w.get (.sessionChoiceDeadline id) = some (.date t.fireAt)) →
    ∀ es : List (Event deadlineService.system),
      (Config.initial w : Config deadlineService.system).Obeys (DeadlineLives id) es →
      OneDeadline id ((Config.initial w : Config deadlineService.system).run es).toSnap := by
  intro h
  have hone := h "s" openSession (fun _ h => nomatch h) (fun _ _ h => nomatch h) chooseWhileEnding
    (by decide +kernel)
  have hfires := hone.fires 0 ⟨"ann", "bob", 60000⟩ (by decide +kernel)
  revert hfires
  decide +kernel

end VerityBackend.Sessions
