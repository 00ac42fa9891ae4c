/-
VerityBackend.App.Lifetime — how often a session ends, and what is stored as
its decision, over its whole life.

Both are guarded by a Redis key that is set with `NX`: `session:ended:<id>`
for an hour, `session:decision:<id>` for two. Nothing deletes the keys or
prolongs them. So each guard lets one call through as long as its key
lives, and another one after it has expired (`session_lives_twice`).
-/
import VerityBackend.App.Guards

namespace VerityBackend.App

open Async Sessions Store

/-! ## The condition -/

section Condition

variable {cfg : AppConfig}

/-- The entry is an `endSession` that got past its guard. -/
def passesGuard (id : SessionId) (e : Entry (appService cfg).system) : Bool :=
  match e.cmd with
  | .redis (.setNX k _ _) => k = .sessionEnded id ∧ (e.before.get k).isNone
  | _ => false

def resolvedOf (raw : RedisString) : Option ResolvedChoiceResult :=
  match parseStoredDecision (some raw) with
  | .resolved value => some value
  | _ => none

/-- The resolved decision the entry stored, if it stored one. -/
def decisionStored (id : SessionId) (e : Entry (appService cfg).system) :
    Option ResolvedChoiceResult :=
  match e.cmd with
  | .redis (.set k v _) => if k = .sessionDecision id then resolvedOf v else none
  | .redis (.setNX k v _) =>
      if k = .sessionDecision id ∧ (e.before.get k).isNone then resolvedOf v else none
  | _ => none

/-- Less than an hour has passed since the session ended. -/
def EndsInTime (id : SessionId) (s : Snap (appService cfg).system) : Prop :=
  ∀ e ∈ s.trace, passesGuard id e = true → s.world.clock < e.before.clock + SESSION_STATE_TTL_MS

/-- Less than two hours have passed since a decision other than this one was
stored. -/
def StoresInTime (id : SessionId) (raw : RedisString) (s : Snap (appService cfg).system) : Prop :=
  ∀ e ∈ s.trace, ∀ v ∈ decisionStored id e,
    s.world.clock < e.before.clock + CHOICE_STATE_TTL_MS ∨ resolvedOf raw = some v

/-- Every attempt to end the session comes within an hour of its end, every
attempt to store another decision within two hours of the decision. -/
def InTime (id : SessionId) (c : Config (appService cfg).system) :
    Event (appService cfg).system → Prop
  | .step i =>
      match c.pending i with
      | some (.redis (.setNX k v _)) =>
          (k = .sessionEnded id → EndsInTime id c.toSnap) ∧
            (k = .sessionDecision id → StoresInTime id v c.toSnap)
      | _ => True
  | _ => True

instance (id : SessionId) (s : Snap (appService cfg).system) : Decidable (EndsInTime id s) :=
  List.decidableBAll _ s.trace

instance (id : SessionId) (raw : RedisString) (s : Snap (appService cfg).system) :
    Decidable (StoresInTime id raw s) :=
  List.decidableBAll _ s.trace

instance (id : SessionId) (c : Config (appService cfg).system)
    (e : Event (appService cfg).system) : Decidable (InTime id c e) := by
  unfold InTime
  split
  · split <;> infer_instance
  · infer_instance

/-- The session ended once, and all decisions stored for it are one. -/
structure LivedOnce (id : SessionId) (s : Snap (appService cfg).system) : Prop where
  ended : (s.trace.filter (passesGuard id)).length ≤ 1
  decided : ∀ e ∈ s.trace, ∀ e' ∈ s.trace, ∀ v ∈ decisionStored id e, ∀ v' ∈ decisionStored id e',
    v = v'

end Condition

/-! ## The invariant -/

section Invariant

variable {cfg : AppConfig} {id : SessionId} {s : Snap (appService cfg).system}

/-- What was stored is there until the time to live of its key is over. -/
structure LifeInv (id : SessionId) (s : Snap (appService cfg).system) : Prop where
  past : ∀ e ∈ s.trace, e.before.clock ≤ s.world.clock
  resolved : ∀ raw, s.world.get (.sessionDecision id) = some raw →
    ∃ v : ResolvedChoiceResult, raw = v.payload
  ended : ∀ e ∈ s.trace, passesGuard id e = true → ∃ v t,
    s.world.stored (.sessionEnded id) = some ⟨v, some t⟩ ∧
      e.before.clock + SESSION_STATE_TTL_MS ≤ t
  once : (s.trace.filter (passesGuard id)).length ≤ 1
  decided : ∀ e ∈ s.trace, ∀ v ∈ decisionStored id e, ∃ t,
    s.world.stored (.sessionDecision id) = some ⟨v.payload, some t⟩ ∧
      e.before.clock + CHOICE_STATE_TTL_MS ≤ t

theorem LifeInv.livedOnce (h : LifeInv id s) : LivedOnce id s where
  ended := h.once
  decided := by
    intro e he e' he' v hv v' hv'
    obtain ⟨t, hstored, -⟩ := h.decided e he v hv
    obtain ⟨t', hstored', -⟩ := h.decided e' he' v' hv'
    have hpayload := congrArg (fun x => x.map Stamped.val) (hstored.symm.trans hstored')
    have hparse := congrArg parseStoredDecision hpayload
    simpa using hparse

theorem resolvedOf_payload (v : ResolvedChoiceResult) : resolvedOf v.payload = some v := by
  simp only [resolvedOf, parseStoredDecision_payload]

/-- Only `SET NX` on this key passes the guard. -/
theorem passesGuard_eq_false {i : Nat} {c : Cmd} (h : ¬c.touches (.sessionEnded id)) (w : World) :
    passesGuard id (⟨i, c, w⟩ : Entry (appService cfg).system) = false := by
  unfold passesGuard
  cases c with
  | db c => rfl
  | host c => rfl
  | redis c =>
      cases c with
      | setNX k v ttl =>
          have hne : k ≠ .sessionEnded id := fun hk => h hk.symm
          simp [hne]
      | _ => rfl

theorem decisionStored_eq_none {i : Nat} {c : Cmd} (h : ¬c.touches (.sessionDecision id))
    (w : World) : decisionStored id (⟨i, c, w⟩ : Entry (appService cfg).system) = none := by
  unfold decisionStored
  cases c with
  | db c => rfl
  | host c => rfl
  | redis c =>
      cases c with
      | set k v ttl =>
          have hne : k ≠ .sessionDecision id := fun hk => h hk.symm
          simp [hne]
      | setNX k v ttl =>
          have hne : k ≠ .sessionDecision id := fun hk => h hk.symm
          simp [hne]
      | _ => rfl

/-- A command that neither passes the guard nor stores a decision, and
leaves both keys as they are. -/
theorem life_frame (h : LifeInv id s) {i : Nat} {c : Cmd}
    (hended : (c.exec s.world).2.stored (.sessionEnded id) = s.world.stored (.sessionEnded id))
    (hdecision : (c.exec s.world).2.stored (.sessionDecision id) =
      s.world.stored (.sessionDecision id))
    (hpasses : passesGuard id (⟨i, c, s.world⟩ : Entry (appService cfg).system) = false)
    (hstores : decisionStored id (⟨i, c, s.world⟩ : Entry (appService cfg).system) = none) :
    LifeInv id (s.exec i c) where
  past := by
    intro e he
    rw [Snap.exec_world, c.clock_exec]
    rcases List.mem_cons.mp he with rfl | he
    · exact Nat.le_refl _
    · exact h.past e he
  resolved := by
    intro raw hraw
    exact h.resolved raw ((World.get_congr hdecision (c.clock_exec _)).symm.trans hraw)
  ended := by
    intro e he hp
    rcases List.mem_cons.mp he with rfl | he
    · rw [hpasses] at hp
      cases hp
    · obtain ⟨v, t, hstored, ht⟩ := h.ended e he hp
      exact ⟨v, t, hended.trans hstored, ht⟩
  once := by
    rw [Snap.exec_trace, List.filter_cons_of_neg (by rw [hpasses]; decide)]
    exact h.once
  decided := by
    intro e he v hv
    rcases List.mem_cons.mp he with rfl | he
    · rw [hstores] at hv
      cases hv
    · obtain ⟨t, hstored, ht⟩ := h.decided e he v hv
      exact ⟨t, hdecision.trans hstored, ht⟩

/-- While the first end is less than an hour old, its key is seen. -/
theorem LifeInv.ended_seen (h : LifeInv id s) (hin : EndsInTime id s)
    (hnone : s.world.get (.sessionEnded id) = none) : ∀ e ∈ s.trace, passesGuard id e = false := by
  intro e he
  by_contra hp
  have hp : passesGuard id e = true := by simpa using hp
  obtain ⟨v, t, hstored, ht⟩ := h.ended e he hp
  have hlt := hin e he hp
  rw [World.get_of_stored hstored (by omega)] at hnone
  cases hnone

/-- **`endSession` at its guard.** -/
theorem life_end (h : LifeInv id s) (i : Nat) (v : RedisString) (hin : EndsInTime id s) :
    LifeInv id (s.exec i (.redis (.setNX (.sessionEnded id) v SESSION_STATE_TTL_MS))) := by
  cases hget : s.world.get (.sessionEnded id) with
  | some r =>
      have hexec : ((Cmd.redis (.setNX (.sessionEnded id) v SESSION_STATE_TTL_MS)).exec
          s.world).2 = s.world := by
        simp only [Cmd.exec_redis, RedisCmd.exec, hget]
      refine life_frame h (by rw [hexec]) (by rw [hexec]) ?_ rfl
      simp [passesGuard, hget]
  | none =>
      have hearlier := h.ended_seen hin hget
      have hexec : ((Cmd.redis (.setNX (.sessionEnded id) v SESSION_STATE_TTL_MS)).exec
          s.world).2 = s.world.set (.sessionEnded id) v (some SESSION_STATE_TTL_MS) := by
        simp only [Cmd.exec_redis, RedisCmd.exec, hget]
      have hdecision : ((Cmd.redis (.setNX (.sessionEnded id) v SESSION_STATE_TTL_MS)).exec
          s.world).2.stored (.sessionDecision id) = s.world.stored (.sessionDecision id) := by
        rw [hexec, World.stored_set_ne (by simp)]
      constructor
      · intro e he
        rw [Snap.exec_world, Cmd.clock_exec]
        rcases List.mem_cons.mp he with rfl | he
        · exact Nat.le_refl _
        · exact h.past e he
      · intro raw hraw
        exact h.resolved raw ((World.get_congr hdecision (Cmd.clock_exec _ _)).symm.trans hraw)
      · intro e he hp
        rcases List.mem_cons.mp he with rfl | he
        · refine ⟨v, s.world.clock + SESSION_STATE_TTL_MS, ?_, Nat.le_refl _⟩
          rw [Snap.exec_world, hexec, World.stored_set_self]
          rfl
        · rw [hearlier e he] at hp
          cases hp
      · have hnil : s.trace.filter (passesGuard id) = [] :=
          List.filter_eq_nil_iff.mpr fun e he => by rw [hearlier e he]; decide
        rw [Snap.exec_trace, List.filter_cons, hnil]
        split <;> simp
      · intro e he x hx
        rcases List.mem_cons.mp he with rfl | he
        · cases hx
        · obtain ⟨t, hstored, ht⟩ := h.decided e he x hx
          exact ⟨t, hdecision.trans hstored, ht⟩

/-- A decision that is less than two hours old is seen, so what is stored
now is what was stored before. -/
theorem LifeInv.decided_seen (h : LifeInv id s) {v : ResolvedChoiceResult}
    (hin : StoresInTime id v.payload s) (hnone : s.world.get (.sessionDecision id) = none) :
    ∀ e ∈ s.trace, ∀ x ∈ decisionStored id e, x = v := by
  intro e he x hx
  obtain ⟨t, hstored, ht⟩ := h.decided e he x hx
  rcases hin e he x hx with hlt | hsame
  · rw [World.get_of_stored hstored (by omega)] at hnone
    cases hnone
  · rw [resolvedOf_payload] at hsame
    exact (Option.some.inj hsame).symm

/-- **`finalizeDecision` at its guard.** -/
theorem life_decide (h : LifeInv id s) (i : Nat) (v : ResolvedChoiceResult)
    (hin : StoresInTime id v.payload s) :
    LifeInv id (s.exec i
      (.redis (.setNX (.sessionDecision id) v.payload CHOICE_STATE_TTL_MS))) := by
  cases hget : s.world.get (.sessionDecision id) with
  | some r =>
      have hexec : ((Cmd.redis (.setNX (.sessionDecision id) v.payload CHOICE_STATE_TTL_MS)).exec
          s.world).2 = s.world := by
        simp only [Cmd.exec_redis, RedisCmd.exec, hget]
      refine life_frame h (by rw [hexec]) (by rw [hexec]) (passesGuard_eq_false (by simp [Cmd.touches]) _) ?_
      simp [decisionStored, hget]
  | none =>
      have hearlier := h.decided_seen hin hget
      have hexec : ((Cmd.redis (.setNX (.sessionDecision id) v.payload CHOICE_STATE_TTL_MS)).exec
          s.world).2 = s.world.set (.sessionDecision id) v.payload (some CHOICE_STATE_TTL_MS) := by
        simp only [Cmd.exec_redis, RedisCmd.exec, hget]
      have hended : ((Cmd.redis (.setNX (.sessionDecision id) v.payload CHOICE_STATE_TTL_MS)).exec
          s.world).2.stored (.sessionEnded id) = s.world.stored (.sessionEnded id) := by
        rw [hexec, World.stored_set_ne (by simp)]
      have hpasses : passesGuard id (⟨i, .redis (.setNX (.sessionDecision id) v.payload
          CHOICE_STATE_TTL_MS), s.world⟩ : Entry (appService cfg).system) = false :=
        passesGuard_eq_false (by simp [Cmd.touches]) _
      constructor
      · intro e he
        rw [Snap.exec_world, Cmd.clock_exec]
        rcases List.mem_cons.mp he with rfl | he
        · exact Nat.le_refl _
        · exact h.past e he
      · intro raw hraw
        rw [Snap.exec_world, hexec] at hraw
        exact ⟨v, World.eq_of_get_set hraw⟩
      · intro e he hp
        rcases List.mem_cons.mp he with rfl | he
        · rw [hpasses] at hp
          cases hp
        · obtain ⟨r, t, hstored, ht⟩ := h.ended e he hp
          exact ⟨r, t, hended.trans hstored, ht⟩
      · rw [Snap.exec_trace, List.filter_cons_of_neg (by rw [hpasses]; decide)]
        exact h.once
      · intro e he x hx
        have hnow : (s.exec i (.redis (.setNX (.sessionDecision id) v.payload
            CHOICE_STATE_TTL_MS))).world.stored (.sessionDecision id) =
            some ⟨v.payload, some (s.world.clock + CHOICE_STATE_TTL_MS)⟩ := by
          rw [Snap.exec_world, hexec, World.stored_set_self]
          rfl
        rcases List.mem_cons.mp he with rfl | he
        · have hxv : x = v := by
            simp only [decisionStored, hget, resolvedOf_payload] at hx
            simpa using hx.symm
          subst hxv
          exact ⟨_, hnow, Nat.le_refl _⟩
        · have hpast := h.past e he
          rw [hearlier e he x hx]
          exact ⟨_, hnow, by omega⟩

/-- **Step lemma**: a command that comes in time keeps the invariant. -/
theorem life_exec (h : LifeInv id s) (i : Nat) {c : Cmd} (hc : Guarding (some id) c)
    (hended : ∀ v ttl, c = .redis (.setNX (.sessionEnded id) v ttl) → EndsInTime id s)
    (hdecision : ∀ v ttl, c = .redis (.setNX (.sessionDecision id) v ttl) → StoresInTime id v s) :
    LifeInv id (s.exec i c) := by
  by_cases hE : c.touches (.sessionEnded id)
  · obtain ⟨v, rfl⟩ := hc.ended id rfl hE
    exact life_end h i v (hended v _ rfl)
  by_cases hD : c.touches (.sessionDecision id)
  · obtain ⟨v, rfl⟩ := hc.decision id rfl hD
    exact life_decide h i v (hdecision _ _ rfl)
  exact life_frame h (Cmd.stored_exec hE _) (Cmd.stored_exec hD _) (passesGuard_eq_false hE _)
    (decisionStored_eq_none hD _)

theorem life_tick (h : LifeInv id s) (ms : Nat) :
    LifeInv id (⟨s.world.env (.tick ms), s.trace⟩ : Snap (appService cfg).system) where
  past e he := Nat.le_trans (h.past e he) (Nat.le_add_right _ _)
  resolved raw hraw := h.resolved raw (World.get_of_get_tick hraw)
  ended := h.ended
  once := h.once
  decided := h.decided

/-- What is read under the decision key is expected. -/
theorem LifeInv.expected (h : LifeInv id s) (c : Cmd) :
    Expected (some id) c (c.exec s.world).1 := by
  cases c with
  | db c => trivial
  | host c => trivial
  | redis c =>
      cases c with
      | get k =>
          rintro x hx rfl raw hraw
          cases hx
          exact h.resolved raw (Except.ok.inj hraw)
      | _ => trivial

/-- **A session lives once.** In every run of the backend whose attempts to
end it and to decide it come in time, from a start at which it has no
decision. -/
theorem session_lives_once (cfg : AppConfig) (id : SessionId) (w : World)
    (hnew : w.get (.sessionDecision id) = none) (es : List (Event (appService cfg).system))
    (hes : (Config.initial w : Config (appService cfg).system).Obeys (InTime id) es) :
    LivedOnce id ((Config.initial w : Config (appService cfg).system).run es).toSnap := by
  have hstart : LifeInv id (⟨w, []⟩ : Snap (appService cfg).system) := by
    refine ⟨fun e he => (by cases he), fun raw hraw => ?_, fun e he => (by cases he), Nat.zero_le _,
      fun e he => (by cases he)⟩
    rw [hnew] at hraw
    cases hraw
  have hrun := @Config.run_answered (appService cfg).system (Guarding (some id))
    (Expected (some id)) (InTime id) (LifeInv id) (fun _ o _ => guarded_code cfg o)
    (fun _ _ cmd _ _ _ h => h.expected cmd) ?_ ?_ es w hes hstart
  · exact hrun.1.livedOnce
  · intro c i cmd hok hp hcmd h
    simp only [InTime, hp] at hok
    refine life_exec h i hcmd ?_ ?_
    · rintro v ttl rfl
      exact hok.1 rfl
    · rintro v ttl rfl
      exact hok.2 rfl
  · intro c e _ h
    cases e with
    | tick ms => exact life_tick h ms

end Invariant

/-! ## A late webhook -/

def violationApp : AppConfig := ⟨⟨"access secret", "refresh secret", fun t => t.jti⟩,
  Moderation.violationConfig⟩

/-- The session of `ann` and `bob`, which has just been created. -/
def youngSession : World :=
  let w := { World.peopled ["ann", "bob"] 1 with clock := 1000000000000 }
  { w with db := { w.db with sessions := [⟨"s", "ann", "bob", none, none, 1000000000000⟩] } }

/-- It ends after 45 seconds, and both choose MATCH. -/
def bothChoose : List (Event (appService violationApp).system) :=
  (.env (.tick 45000) :: .start (.sessionTimeout 0 "s" "ann" "bob") ::
      List.replicate 9 (.step 0) : List (Event (appService violationApp).system)) ++
    (.start (.submitChoice 0 "s" "ann" .MATCH) ::
      List.replicate 13 (.step 1) : List (Event (appService violationApp).system)) ++
    (.start (.submitChoice 0 "s" "bob" .MATCH) ::
      List.replicate 20 (.step 2) : List (Event (appService violationApp).system))

/-- Two hours later a violation of the session is reported; nobody chooses
again, and the timer fires. -/
def lateViolation : List (Event (appService violationApp).system) :=
  (.env (.tick 7200000) ::
    .start (.hiveWebhook 0 ⟨[], []⟩ Moderation.violationBody
      ⟨some Moderation.violationSignature, some "1000007245"⟩) ::
      List.replicate 30 (.step 3) : List (Event (appService violationApp).system)) ++
    (.env (.tick 60000) :: .start (.choiceTimeout 0 "s" "ann" "bob") ::
      List.replicate 6 (.step 4) : List (Event (appService violationApp).system))

theorem session_lives_once_bothChoose :
    LivedOnce "s" ((Config.initial youngSession : Config (appService violationApp).system).run
      bothChoose).toSnap :=
  session_lives_once violationApp "s" youngSession (by decide) bothChoose (by decide +kernel)

/-- The session ends twice, and is decided mutual first and non-mutual
then, while its row is there. -/
theorem session_lives_twice :
    let c : Config (appService violationApp).system :=
      (Config.initial youngSession).run (bothChoose ++ lateViolation)
    youngSession.get (.sessionDecision "s") = none ∧
      (World.db c.world).sessions = youngSession.db.sessions ∧
      c.trace.filterMap (decisionStored "s") = [.nonMutual, .mutual (freshId 0)] ∧
      ¬LivedOnce "s" c.toSnap := by
  refine ⟨by decide, by decide +kernel, by decide +kernel, fun h => ?_⟩
  have htwice : ¬(((Config.initial youngSession : Config (appService violationApp).system).run
      (bothChoose ++ lateViolation)).trace.filter (passesGuard "s")).length ≤ 1 := by
    decide +kernel
  exact htwice h.ended

end VerityBackend.App
