/-
VerityBackend.Moderation.Threshold — the third violation in a day and the
ban it leads to.

`applyModerationAction` bans at most once a minute. The minute is a key of
its own, which `resolveAppeal` leaves alone when it lifts the ban, so a user
can be without a ban and still be spared one (`Spared`). Nothing else stands
between the threshold and the ban (`banned_iff_not_spared`).

The actions of a delivery run side by side. What is left of two of them, and
what they have done to the keys of one user, is a `Phase`.
-/
import VerityBackend.Moderation.Appeals
import VerityBackend.Moderation.Retry
import Mathlib.Data.List.Induction

namespace VerityBackend.Moderation

open Async Store

/-! ## The keys of a user -/

/-- The user cannot be banned again yet. -/
def Cooling (u : UserId) (w : World) : Prop := (w.get (.moderationBanCooldown u)).isSome = true

/-- The ban of the user is set and has not expired. -/
def Banned (u : UserId) (w : World) : Prop := (w.get (.moderationBan u)).isSome = true

/-- How many violations of the user are on record. -/
def violations (u : UserId) (w : World) : Nat := (recordedFor w).count u

/-- The violations of the preceding 24 hours. -/
def recentViolations (u : UserId) (w : World) : Nat :=
  w.db.moderationEvents.countP fun e => e.userId = u ∧ w.clock - VIOLATION_WINDOW_MS ≤ e.createdAt

instance (u : UserId) (w : World) : Decidable (Cooling u w) := inferInstanceAs (Decidable (_ = true))

instance (u : UserId) (w : World) : Decidable (Banned u w) := inferInstanceAs (Decidable (_ = true))

/-- No time has passed, and both keys of the user are as they were. -/
structure KeysSame (u : UserId) (w w' : World) : Prop where
  clock : w'.clock = w.clock
  cooldown : w'.stored (.moderationBanCooldown u) = w.stored (.moderationBanCooldown u)
  ban : w'.stored (.moderationBan u) = w.stored (.moderationBan u)

/-- No time has passed, and the user has been banned for a day. -/
structure Struck (u : UserId) (w w' : World) : Prop where
  clock : w'.clock = w.clock
  free : ¬Cooling u w
  cooldown : w'.stored (.moderationBanCooldown u) =
    some ⟨.text "1", some (w.clock + BAN_RATE_LIMIT_MS)⟩
  ban : w'.stored (.moderationBan u) = some ⟨.text "1", some (w.clock + BAN_TTL_MS)⟩

namespace KeysSame

variable {u : UserId} {w w₁ w₂ : World}

theorem refl (u : UserId) (w : World) : KeysSame u w w := ⟨rfl, rfl, rfl⟩

theorem trans (h : KeysSame u w w₁) (h' : KeysSame u w₁ w₂) : KeysSame u w w₂ :=
  ⟨h'.clock.trans h.clock, h'.cooldown.trans h.cooldown, h'.ban.trans h.ban⟩

theorem cooling (h : KeysSame u w w₁) : Cooling u w₁ ↔ Cooling u w := by
  unfold Cooling
  rw [World.get_congr h.cooldown h.clock]

theorem banned (h : KeysSame u w w₁) : Banned u w₁ ↔ Banned u w := by
  unfold Banned
  rw [World.get_congr h.ban h.clock]

theorem exec {c : Cmd} (hcooldown : ¬c.touches (.moderationBanCooldown u))
    (hban : ¬c.touches (.moderationBan u)) (w : World) : KeysSame u w (c.exec w).2 :=
  ⟨Cmd.clock_exec c w, Cmd.stored_exec hcooldown w, Cmd.stored_exec hban w⟩

theorem struck (h : KeysSame u w w₁) (h' : Struck u w₁ w₂) : Struck u w w₂ where
  clock := h'.clock.trans h.clock
  free := mt h.cooling.mpr h'.free
  cooldown := by rw [h'.cooldown, h.clock]
  ban := by rw [h'.ban, h.clock]

end KeysSame

theorem Struck.keysSame {u : UserId} {w w₁ w₂ : World} (h : Struck u w w₁)
    (h' : KeysSame u w₁ w₂) : Struck u w w₂ :=
  ⟨h'.clock.trans h.clock, h.free, h'.cooldown.trans h.cooldown, h'.ban.trans h.ban⟩

theorem Struck.banned {u : UserId} {w w' : World} (h : Struck u w w') : Banned u w' := by
  unfold Banned
  rw [World.get_of_stored h.ban (by rw [h.clock]; simp [BAN_TTL_MS])]
  rfl

/-! ## What is left of an action -/

/-- The command leaves the keys of the user and the violations alone. -/
structure Aloof (u : UserId) (c : Cmd) : Prop where
  quiet : quiet c = true
  cooldown : ¬c.touches (.moderationBanCooldown u)
  ban : ¬c.touches (.moderationBan u)

abbrev tryCooldown (u : UserId) : Cmd :=
  .redis (.setNX (.moderationBanCooldown u) (.text "1") BAN_RATE_LIMIT_MS)

abbrev setBan (u : UserId) : Cmd := .redis (.set (.moderationBan u) (.text "1") (some BAN_TTL_MS))

/-- The next command bans the user. -/
inductive Owing (u : UserId) : Prog Unit → Prop
  | bans {k} (h : ∀ a, (k a).Conforms (Aloof u) True) : Owing u (.call (setBan u) k)

/-- Nobody is banned whose cooldown the procedure did not start. -/
inductive Calm (u : UserId) : Prog Unit → Prop
  | ret (r : Except Err Unit) : Calm u (.ret r)
  | tries {k} (h : Owing u (k (.ok true))) (h' : (k (.ok false)).Conforms (Aloof u) True) :
      Calm u (.call (tryCooldown u) k)
  | goes {c : Cmd} {k} (hc : Aloof u c) (h : ∀ a, Calm u (k a)) : Calm u (.call c k)

/-- The procedure comes to the cooldown of the user, in worlds that satisfy
`J`. -/
inductive Bound (u : UserId) (J : World → Prop) : Prog Unit → Prop
  | tries {k} : Bound u J (.call (tryCooldown u) k)
  | goes {c : Cmd} {k} (hc : Aloof u c) (h : ∀ w, J w → Bound u J (k (c.exec w).1)) :
      Bound u J (.call c k)

section Actions

variable {u v : UserId} {J : World → Prop} {p q : Prog Unit}

theorem calm_of_conforms (h : p.Conforms (Aloof u) True) : Calm u p := by
  induction p with
  | ret r => exact .ret r
  | call c k ih => exact .goes h.1 fun a => ih a (h.2 a (.inr trivial))

theorem aloof_await {c : Cmd} (h : Aloof u c) :
    (Proc.await c : Prog c.Res).Conforms (Aloof u) True := Proc.conforms_await h

theorem aloof_host_now : Aloof u (.host .now) := ⟨rfl, fun h => h, fun h => h⟩

theorem aloof_emit (os : List Output) : Aloof u (.host (.emit os)) := ⟨rfl, fun h => h, fun h => h⟩

theorem aloof_count (v : UserId) (since : Nat) : Aloof u (.db (.moderationEventCount v since)) :=
  ⟨rfl, fun h => h, fun h => h⟩

theorem aloof_announceAction (v : UserId) (action : String) (policyReason : JsonValue)
    (count detectedAtMs : Nat) :
    (announceAction v action policyReason count detectedAtMs).Conforms (Aloof u) True :=
  (aloof_await aloof_host_now).bind fun _ => aloof_await (aloof_emit _)

/-- The action against another user. -/
theorem aloof_applyModerationAction (h : v ≠ u) (policyReason : JsonValue) (detectedAtMs : Nat) :
    (applyModerationAction v policyReason detectedAtMs).Conforms (Aloof u) True := by
  have htry : Aloof u (tryCooldown v) :=
    ⟨rfl, fun htouch => h (by cases htouch; rfl), fun htouch => by cases htouch⟩
  have hban : Aloof u (setBan v) :=
    ⟨rfl, (fun htouch => by cases htouch), fun htouch => h (by cases htouch; rfl)⟩
  refine (applyModerationAction_issues v policyReason detectedAtMs).mono fun c hc => ?_
  cases hc with
  | now => exact aloof_host_now
  | count since => exact aloof_count v since
  | cooldown => exact htry
  | ban => exact hban
  | tell action count latency haction => exact aloof_emit _

/-- The action against the user bans right after it has started the
cooldown. -/
theorem calm_applyModerationAction (u v : UserId) (policyReason : JsonValue) (detectedAtMs : Nat) :
    Calm u (applyModerationAction v policyReason detectedAtMs) := by
  by_cases h : v = u
  · subst h
    refine .goes aloof_host_now fun a => ?_
    cases a with
    | error e => exact .ret _
    | ok now =>
        refine .goes (aloof_count v _) fun a => ?_
        cases a with
        | error e => exact .ret _
        | ok count =>
            change Calm v (if BAN_THRESHOLD ≤ count then _ else _)
            split
            · exact .tries (.bans fun a => by
                cases a with
                | error e => exact .inr trivial
                | ok _ => exact aloof_announceAction _ _ _ _ _) (.inl ⟨(), rfl⟩)
            · exact calm_of_conforms (aloof_announceAction _ _ _ _ _)
  · exact calm_of_conforms (aloof_applyModerationAction h _ _)

/-- At the threshold the action comes to the cooldown. -/
theorem bound_applyModerationAction {t n : Nat} (hn : BAN_THRESHOLD ≤ n)
    (hclock : ∀ w, J w → w.clock = t)
    (hcount : ∀ w, J w →
      w.db.moderationEvents.countP (fun e => e.userId = u ∧ t - VIOLATION_WINDOW_MS ≤ e.createdAt) = n)
    (policyReason : JsonValue) (detectedAtMs : Nat) :
    Bound u J (applyModerationAction u policyReason detectedAtMs) := by
  refine .goes aloof_host_now fun w hw => .goes (aloof_count u _) fun w' hw' => ?_
  change Bound u J (if BAN_THRESHOLD ≤ w'.db.moderationEvents.countP (fun e =>
    e.userId = u ∧ w.clock - VIOLATION_WINDOW_MS ≤ e.createdAt) then _ else _)
  rw [hclock w hw, hcount w' hw', if_pos hn]
  exact .tries

end Actions

/-! ## Two actions side by side -/

/-- No time has passed and no violation has been recorded. -/
structure Stands (w₀ w : World) : Prop where
  clock : w.clock = w₀.clock
  violations : w.db.moderationEvents = w₀.db.moderationEvents

theorem Stands.refl (w : World) : Stands w w := ⟨rfl, rfl⟩

theorem Stands.exec {w₀ w : World} (h : Stands w₀ w) {c : Cmd} (hc : quiet c = true) :
    Stands w₀ (c.exec w).2 :=
  ⟨(Cmd.clock_exec c w).trans h.clock, by rw [quiet_db hc]; exact h.violations⟩

/-- The cooldown has been started in between. -/
structure Started (u : UserId) (w₀ w : World) : Prop where
  free : ¬Cooling u w₀
  cooldown : w.stored (.moderationBanCooldown u) =
    some ⟨.text "1", some (w₀.clock + BAN_RATE_LIMIT_MS)⟩

/-- What is left of two procedures that started in `w₀`, and the world they
have reached; `hot` says that one of them has to come to the cooldown. -/
inductive Phase (u : UserId) (w₀ : World) (hot : Prop) : Prog Unit → Prog Unit → World → Prop
  | before {p q w} (hp : Calm u p) (hq : Calm u q) (hw : Stands w₀ w) (hsame : KeysSame u w₀ w)
      (hbound : hot → Bound u (Stands w₀) p ∨ Bound u (Stands w₀) q) : Phase u w₀ hot p q w
  | left {p q w} (hp : Owing u p) (hq : Calm u q) (hw : Stands w₀ w) (h : Started u w₀ w) :
      Phase u w₀ hot p q w
  | right {p q w} (hp : Calm u p) (hq : Owing u q) (hw : Stands w₀ w) (h : Started u w₀ w) :
      Phase u w₀ hot p q w
  | after {p q w} (hp : Calm u p) (hq : Calm u q) (hw : Stands w₀ w) (h : Struck u w₀ w) :
      Phase u w₀ hot p q w

section TryCooldown

variable {u : UserId} {w : World}

theorem tryCooldown_cooling (h : Cooling u w) : (tryCooldown u).exec w = (.ok false, w) := by
  obtain ⟨r, hr⟩ := Option.isSome_iff_exists.mp h
  simp only [Cmd.exec_redis, RedisCmd.exec, hr]

theorem tryCooldown_free (h : ¬Cooling u w) :
    (tryCooldown u).exec w =
      (.ok true, w.set (.moderationBanCooldown u) (.text "1") (some BAN_RATE_LIMIT_MS)) := by
  have hnone : w.get (.moderationBanCooldown u) = none := by
    simpa [Cooling] using h
  simp only [Cmd.exec_redis, RedisCmd.exec, hnone]

theorem cooling_of_stored {t : Nat} (hw : w.clock = t)
    (h : w.stored (.moderationBanCooldown u) = some ⟨.text "1", some (t + BAN_RATE_LIMIT_MS)⟩) :
    Cooling u w := by
  unfold Cooling
  rw [World.get_of_stored h (by rw [hw]; simp [BAN_RATE_LIMIT_MS])]
  rfl

end TryCooldown

namespace Phase

variable {u : UserId} {w₀ w : World} {hot : Prop} {p q : Prog Unit}

theorem symm (h : Phase u w₀ hot p q w) : Phase u w₀ hot q p w := by
  cases h with
  | before hp hq hw hsame hbound => exact .before hq hp hw hsame fun hhot => (hbound hhot).symm
  | left hp hq hw h => exact .right hq hp hw h
  | right hp hq hw h => exact .left hq hp hw h
  | after hp hq hw h => exact .after hq hp hw h

/-- The next command of the first procedure. A second attempt at the cooldown
is answered with `false`. -/
theorem step (hhot : hot → ¬Cooling u w₀) (c : Cmd) (k : Except Err c.Res → Prog Unit)
    (h : Phase u w₀ hot (.call c k) q w) :
    Phase u w₀ hot (k (c.exec w).1) q (c.exec w).2 := by
  cases h with
  | before hp hq hw hsame hbound =>
      cases hp with
      | tries howing hidle =>
          by_cases hcool : Cooling u w
          · rw [tryCooldown_cooling hcool]
            exact .before (calm_of_conforms hidle) hq hw hsame fun h =>
              absurd (hsame.cooling.mp hcool) (hhot h)
          · have hstands := hw.exec (c := tryCooldown u) rfl
            rw [tryCooldown_free hcool] at hstands ⊢
            exact .left howing hq hstands
              ⟨mt hsame.cooling.mpr hcool, by rw [World.stored_set_self, hw.clock]; rfl⟩
      | goes hc hk =>
          refine .before (hk _) hq (hw.exec hc.quiet) (hsame.trans (.exec hc.cooldown hc.ban w)) ?_
          intro hh
          rcases hbound hh with hp | hq
          · cases hp with
            | tries => exact absurd rfl hc.cooldown
            | goes _ hk => exact .inl (hk w hw)
          · exact .inr hq
  | left hp hq hw h =>
      cases hp with
      | bans hk =>
          refine .after (calm_of_conforms (hk _)) hq (hw.exec rfl) ?_
          exact {
            clock := (Cmd.clock_exec _ w).trans hw.clock
            free := h.free
            cooldown := (Cmd.stored_exec (fun htouch => by cases htouch) w).trans h.cooldown
            ban := by
              rw [Cmd.exec_redis, RedisCmd.exec, World.stored_set_self, hw.clock]
              rfl }
  | right hp hq hw h =>
      have hcool := cooling_of_stored hw.clock h.cooldown
      cases hp with
      | tries howing hidle =>
          rw [tryCooldown_cooling hcool]
          exact .right (calm_of_conforms hidle) hq hw h
      | goes hc hk =>
          exact .right (hk _) hq (hw.exec hc.quiet)
            ⟨h.free, (Cmd.stored_exec hc.cooldown w).trans h.cooldown⟩
  | after hp hq hw h =>
      have hcool := cooling_of_stored hw.clock h.cooldown
      cases hp with
      | tries howing hidle =>
          rw [tryCooldown_cooling hcool]
          exact .after (calm_of_conforms hidle) hq hw h
      | goes hc hk =>
          exact .after (hk _) hq (hw.exec hc.quiet) (h.keysSame (.exec hc.cooldown hc.ban w))

/-- The first procedure, when the second one has settled. -/
theorem run (hhot : hot → ¬Cooling u w₀) {r : Except Err Unit}
    (h : Phase u w₀ hot p (.ret r) w) :
    ∃ r', Phase u w₀ hot (.ret r') (.ret r) (p.run Cmd.exec w).2 := by
  induction p generalizing w with
  | ret r' => exact ⟨r', h⟩
  | call c k ih => exact ih _ (h.step hhot c k)

/-- `Promise.all` of the two. -/
theorem both (hhot : hot → ¬Cooling u w₀) (sched : List Bool) (h : Phase u w₀ hot p q w) :
    ∃ r r', Phase u w₀ hot (.ret r) (.ret r') ((Proc.both sched p q).run Cmd.exec w).2 :=
  Proc.both_steps (Phase u w₀ hot) sched (fun c k _ _ h => h.step hhot c k)
    (fun c k _ _ h => (h.symm.step hhot c k).symm) h

/-- When both have settled. -/
theorem settled {r r' : Except Err Unit} (h : Phase u w₀ hot (.ret r) (.ret r') w) :
    Stands w₀ w ∧ (KeysSame u w₀ w ∨ Struck u w₀ w) ∧ (hot → Struck u w₀ w) := by
  cases h with
  | before hp hq hw hsame hbound =>
      refine ⟨hw, .inl hsame, fun hh => ?_⟩
      rcases hbound hh with h | h <;> cases h
  | left hp => cases hp
  | right hp hq => cases hq
  | after hp hq hw h => exact ⟨hw, .inr h, fun _ => h⟩

end Phase

/-- All the actions of a delivery. -/
theorem actions_settled (u : UserId) (sched : List Bool) (payload : HiveViolationPayload)
    (session : Session) (policyReason : JsonValue) (detectedAtMs : Nat) (w₀ : World) :
    let w := ((Proc.all sched ((offendersOf payload session).map fun id =>
      applyModerationAction id policyReason detectedAtMs)).run Cmd.exec w₀).2
    Stands w₀ w ∧ (KeysSame u w₀ w ∨ Struck u w₀ w) ∧
      (u ∈ offendersOf payload session → BAN_THRESHOLD ≤ recentViolations u w₀ →
        ¬Cooling u w₀ → Struck u w₀ w) := by
  intro w
  let hot : Prop := u ∈ offendersOf payload session ∧ BAN_THRESHOLD ≤ recentViolations u w₀ ∧
    ¬Cooling u w₀
  have hfree : hot → ¬Cooling u w₀ := fun h => h.2.2
  have hbound : BAN_THRESHOLD ≤ recentViolations u w₀ →
      Bound u (Stands w₀) (applyModerationAction u policyReason detectedAtMs) := fun hn =>
    bound_applyModerationAction hn (fun w hw => hw.clock)
      (fun w hw => by rw [hw.violations]; rfl) policyReason detectedAtMs
  suffices hsettled : Stands w₀ w ∧ (KeysSame u w₀ w ∨ Struck u w₀ w) ∧ (hot → Struck u w₀ w) from
    ⟨hsettled.1, hsettled.2.1, fun hmem hn hcool => hsettled.2.2 ⟨hmem, hn, hcool⟩⟩
  have hcalm : ∀ v, Calm u (applyModerationAction v policyReason detectedAtMs) := fun v =>
    calm_applyModerationAction u v _ _
  subst w
  unfold offendersOf
  cases hpresent : present payload.userId with
  | some x =>
      have hstart : Phase u w₀ hot (applyModerationAction x policyReason detectedAtMs) (.ret (.ok ()))
          w₀ := by
        refine .before (hcalm x) (.ret _) (.refl w₀) (.refl u w₀) ?_
        rintro ⟨hmem, hn, -⟩
        obtain rfl : u = x := by simpa [offendersOf, hpresent] using hmem
        exact .inl (hbound hn)
      obtain ⟨r, h⟩ := hstart.run hfree
      exact h.settled
  | none =>
      have hstart : Phase u w₀ hot (applyModerationAction session.userAId policyReason detectedAtMs)
          (applyModerationAction session.userBId policyReason detectedAtMs) w₀ := by
        refine .before (hcalm _) (hcalm _) (.refl w₀) (.refl u w₀) ?_
        rintro ⟨hmem, hn, -⟩
        have hu : u = session.userAId ∨ u = session.userBId := by
          simpa [offendersOf, hpresent] using hmem
        rcases hu with rfl | rfl
        · exact .inl (hbound hn)
        · exact .inr (hbound hn)
      obtain ⟨r, r', h⟩ := hstart.both hfree sched
      exact h.settled

/-! ## A delivery -/

/-- The command leaves the keys of the user and the database alone. -/
structure Detached (u : UserId) (c : Cmd) : Prop where
  cooldown : ¬c.touches (.moderationBanCooldown u)
  ban : ¬c.touches (.moderationBan u)
  db : ∀ w, (c.exec w).2.db = w.db

/-- What a delivery that answered `r` has done to the user. -/
structure Outcome (u : UserId) (w : World) (r : Except Err Unit) (w' : World) : Prop where
  keys : KeysSame u w w' ∨ Struck u w w'
  bans : r = .ok () → violations u w < violations u w' →
    BAN_THRESHOLD ≤ recentViolations u w' → ¬Cooling u w → Struck u w w'

section Delivery

variable {u : UserId} {w w₁ w' : World} {r : Except Err Unit}

theorem Detached.run {α : Type} {p : Prog α} (hp : p.Conforms (Detached u) True) (w : World) :
    KeysSame u w (p.run Cmd.exec w).2 ∧ (p.run Cmd.exec w).2.db = w.db := by
  refine hp.run_keeps (J := fun w' => KeysSame u w w' ∧ w'.db = w.db) ?_ ⟨.refl u w, rfl⟩
  intro c w' hc hw'
  exact ⟨hw'.1.trans (.exec hc.cooldown hc.ban w'), (hc.db w').trans hw'.2⟩

theorem Outcome.idle (h : KeysSame u w w') (hdb : w'.db = w.db) : Outcome u w r w' where
  keys := .inl h
  bans _ hlt := by
    unfold violations recordedFor at hlt
    rw [hdb] at hlt
    exact absurd hlt (Nat.lt_irrefl _)

/-- Detached commands before a delivery change nothing about its outcome. -/
theorem Outcome.afterIdle (h : KeysSame u w w₁) (hdb : w₁.db = w.db) (h' : Outcome u w₁ r w') :
    Outcome u w r w' where
  keys := h'.keys.imp h.trans h.struck
  bans hok hlt hn hcool := by
    refine h.struck (h'.bans hok ?_ hn (mt h.cooling.mp hcool))
    unfold violations recordedFor at hlt ⊢
    rwa [hdb]

/-- Ending the session. -/
theorem detached_endSession (u : UserId) (self : Instance) (session : Session)
    (reason : EndReason) :
    (Sessions.endSession self session reason).Conforms (Detached u) True := by
  have hredis {c : RedisCmd} (h : ¬(Cmd.redis c).touches (.moderationBanCooldown u))
      (h' : ¬(Cmd.redis c).touches (.moderationBan u)) : Detached u (.redis c) :=
    ⟨h, h', fun w => RedisCmd.exec_db _ w⟩
  have hhost (c : HostCmd) : Detached u (.host c) :=
    ⟨fun h => h, fun h => h, fun w => (c.exec_redis w).2.2⟩
  refine (Sessions.endSession_issues self session reason).mono fun c hc => ?_
  cases hc with
  | claim | release => exact hredis (by simp [Cmd.touches]) (by simp [Cmd.touches])
  | disarm | now | tell _ | arm _ => exact hhost _
  | deadline h =>
      cases h with
      | now => exact hhost _
      | read | store _ => exact hredis (by simp [Cmd.touches]) (by simp [Cmd.touches])

/-- The records of a delivery are those of its offenders. -/
theorem recordAll_keeps (u : UserId) (sched : Schedules) (ids : List UserId) (w : World) :
    KeysSame u w ((recordAll sched ids).run Cmd.exec w).2 ∧
      (u ∉ ids → violations u ((recordAll sched ids).run Cmd.exec w).2 = violations u w) := by
  refine (issues_recordAll sched ids).conforms.run_keeps
    (J := fun w' => KeysSame u w w' ∧ (u ∉ ids → violations u w' = violations u w)) ?_
    ⟨.refl u w, fun _ => rfl⟩
  intro c w' hc hw'
  obtain ⟨v, hv, rfl⟩ := List.mem_map.mp hc
  refine ⟨hw'.1.trans (.exec (create_touches v _) (create_touches v _) w'), fun hu => ?_⟩
  rw [← hw'.2 hu]
  have hne : v ≠ u := fun h => hu (h ▸ hv)
  unfold violations
  rw [recordedFor_create]
  split
  · simp [List.count_append, hne]
  · simp

theorem react_settled (u : UserId) (sched : Schedules) (payload : HiveViolationPayload)
    (session : Session) (now : Nat) (w₀ : World) :
    let w := ((react sched payload session now).run Cmd.exec w₀).2
    Stands w₀ w ∧ (KeysSame u w₀ w ∨ Struck u w₀ w) ∧
      (u ∈ offendersOf payload session → BAN_THRESHOLD ≤ recentViolations u w₀ →
        ¬Cooling u w₀ → Struck u w₀ w) :=
  actions_settled u sched.actions payload session _ now w₀

theorem punish_outcome (u : UserId) (self : Instance) (sched : Schedules)
    (payload : HiveViolationPayload) (session : Session) (w : World) :
    Outcome u w ((punish self sched payload session).run Cmd.exec w).1
      ((punish self sched payload session).run Cmd.exec w).2 := by
  rw [punish_eq, Proc.run_bind]
  change Outcome u w (((recordAll sched _).bind _).run Cmd.exec w).1
    (((recordAll sched _).bind _).run Cmd.exec w).2
  rw [Proc.run_bind]
  obtain ⟨hkeys₁, hothers⟩ := recordAll_keeps u sched (offendersOf payload session) w
  rcases hrec : (recordAll sched (offendersOf payload session)).run Cmd.exec w with ⟨r₁, w₁⟩
  rw [hrec] at hkeys₁ hothers
  cases r₁ with
  | error e => exact ⟨.inl hkeys₁, nofun⟩
  | ok _ =>
      simp only [Proc.run_bind]
      obtain ⟨hstands, hkeys₂, hstrikes⟩ := react_settled u sched payload session w.clock w₁
      rcases hreact : (react sched payload session w.clock).run Cmd.exec w₁ with ⟨r₂, w₂⟩
      rw [hreact] at hstands hkeys₂ hstrikes
      have hkeys : KeysSame u w w₂ ∨ Struck u w w₂ := hkeys₂.imp hkeys₁.trans hkeys₁.struck
      cases r₂ with
      | error e => exact ⟨hkeys, nofun⟩
      | ok _ =>
          obtain ⟨hend, hdb⟩ := Detached.run (detached_endSession u self session .ended) w₂
          have hevents : ((Sessions.endSession self session .ended).run Cmd.exec w₂).2.db.moderationEvents =
              w₁.db.moderationEvents := by rw [hdb, hstands.violations]
          refine ⟨hkeys.imp (·.trans hend) (·.keysSame hend), fun _ hlt hn hcool => ?_⟩
          have hmem : u ∈ offendersOf payload session := by
            by_contra hu
            have hsame := hothers hu
            unfold violations recordedFor at hlt hsame
            rw [hevents, hsame] at hlt
            exact Nat.lt_irrefl _ hlt
          have hrecent : BAN_THRESHOLD ≤ recentViolations u w₁ := by
            unfold recentViolations at hn ⊢
            rwa [hevents, hend.clock, hstands.clock] at hn
          exact (hkeys₁.struck (hstrikes hmem hrecent (mt hkeys₁.cooling.mp hcool))).keysSame hend

theorem processDelivery_outcome (u : UserId) (self : Instance) (sched : Schedules)
    (payload : HiveViolationPayload) (sessionId : SessionId) (w : World) :
    Outcome u w ((processDelivery self sched payload sessionId).run Cmd.exec w).1
      ((processDelivery self sched payload sessionId).run Cmd.exec w).2 := by
  unfold processDelivery
  split
  · exact .idle (.refl u w) rfl
  · exact .idle (.refl u w) rfl
  · change Outcome u w (((prisma (.sessionFindUnique sessionId)).bind _).run Cmd.exec w).1
      (((prisma (.sessionFindUnique sessionId)).bind _).run Cmd.exec w).2
    rw [Proc.run_bind, Proc.run_await, Cmd.exec_db, DbCmd.exec]
    cases w.db.sessions.find? (·.id = sessionId) with
    | none => exact .idle (.refl u w) rfl
    | some session => exact punish_outcome u self sched payload session w

/-- What a call of `handleWebhook` has done to a user. -/
theorem handleWebhook_outcome (u : UserId) (self : Instance) (sched : Schedules)
    (payload : HiveViolationPayload) (delivery : HiveWebhookDelivery) (w : World) :
    Outcome u w ((handleWebhook self sched payload delivery).run Cmd.exec w).1
      ((handleWebhook self sched payload delivery).run Cmd.exec w).2 := by
  unfold handleWebhook
  split
  · exact .idle (.refl u w) rfl
  · split
    · next signature timestamp _ _ =>
        have hdetached : (reserveWebhookDelivery signature timestamp).Conforms (Detached u) True :=
          Proc.conforms_await
            ⟨(fun h => by cases h), (fun h => by cases h), fun w => RedisCmd.exec_db _ w⟩
        obtain ⟨hkeys, hdb⟩ := Detached.run hdetached w
        change Outcome u w (((reserveWebhookDelivery signature timestamp).bind _).run Cmd.exec w).1
          (((reserveWebhookDelivery signature timestamp).bind _).run Cmd.exec w).2
        rw [Proc.run_bind]
        rcases hreserve : (reserveWebhookDelivery signature timestamp).run Cmd.exec w with ⟨r₁, w₁⟩
        rw [hreserve] at hkeys hdb
        cases r₁ with
        | error e => exact .idle hkeys hdb
        | ok accepted =>
            refine .afterIdle hkeys hdb ?_
            cases accepted with
            | false => exact .idle (.refl u w₁) rfl
            | true => exact processDelivery_outcome u self sched payload _ w₁
    · exact processDelivery_outcome u self sched payload _ w

end Delivery

/-! ## The other calls -/

/-- The appeal this call overturns is one against a ban of the user. -/
def Overturns (d : Docket) (u : UserId) : Proceeding → Prop
  | .resolveAppeal _ appealId .overturned =>
      ∃ appeal, d.findAppeal appealId = some appeal ∧ appeal.status = "OPEN" ∧
        appeal.actionType = .ban ∧ appeal.userId = u
  | _ => False

/-- The cooldown of the user is as it was, and no time has passed. -/
structure CooldownSame (u : UserId) (w w' : World) : Prop where
  clock : w'.clock = w.clock
  cooldown : w'.stored (.moderationBanCooldown u) = w.stored (.moderationBanCooldown u)

section OtherCalls

variable {u : UserId}

theorem KeysSame.cooldownSame {w w' : World} (h : KeysSame u w w') : CooldownSame u w w' :=
  ⟨h.clock, h.cooldown⟩

/-- The command bans the user for a day or leaves both keys alone. -/
structure MayBan (u : UserId) (c : Cmd) : Prop where
  cooldown : ¬c.touches (.moderationBanCooldown u)
  ban : c.touches (.moderationBan u) → c = setBan u

/-- Blocking somebody touches no key but an entry of the queue. -/
theorem blockCommand_not_touches {blockerId blockedId : UserId} {k : RedisKey} {c : Cmd}
    (h : BlockCommand blockerId blockedId c) (hk : k ≠ .queueUser blockedId) : ¬c.touches k := by
  cases h with
  | remove h =>
      cases h with
      | clear => exact fun ht => hk (List.mem_singleton.mp ht)
      | _ => exact id
  | _ => exact id

theorem mayBan_resolveReport (u : UserId) (reportId : String) (action : ModerationAction) :
    (resolveReport reportId action).Conforms (MayBan u) True := by
  refine (resolveReport_issues reportId action).mono fun c hc => ?_
  cases hc with
  | ban v => exact ⟨(fun h => by cases h), fun h => by cases h; rfl⟩
  | block h => 
      exact ⟨blockCommand_not_touches h RedisKey.noConfusion,
        fun ht => (blockCommand_not_touches h RedisKey.noConfusion ht).elim⟩
  | update | now | tell _ _ => exact ⟨fun h => h, fun h => h.elim⟩

/-- `resolveReport` leaves the user alone or bans the user for a day. -/
theorem resolveReport_keys (u : UserId) (reportId : String) (action : ModerationAction) (w : World) :
    KeysSame u w ((resolveReport reportId action).run Cmd.exec w).2 ∨
      CooldownSame u w ((resolveReport reportId action).run Cmd.exec w).2 ∧
        ((resolveReport reportId action).run Cmd.exec w).2.stored (.moderationBan u) =
          some ⟨.text "1", some (w.clock + BAN_TTL_MS)⟩ := by
  refine (mayBan_resolveReport u reportId action).run_keeps (J := fun w' : World => KeysSame u w w' ∨
    CooldownSame u w w' ∧ w'.stored (.moderationBan u) =
      some ⟨.text "1", some (w.clock + BAN_TTL_MS)⟩) ?_ (.inl (.refl u w))
  intro c w' hc hw'
  have hsame : CooldownSame u w w' := hw'.elim KeysSame.cooldownSame And.left
  have hsame' : CooldownSame u w (c.exec w').2 :=
    ⟨(Cmd.clock_exec c w').trans hsame.clock, (Cmd.stored_exec hc.cooldown w').trans hsame.cooldown⟩
  by_cases htouch : c.touches (.moderationBan u)
  · obtain rfl := hc.ban htouch
    refine .inr ⟨hsame', ?_⟩
    rw [Cmd.exec_redis, RedisCmd.exec, World.stored_set_self, hsame.clock]
    rfl
  · have hban := Cmd.stored_exec htouch w'
    rcases hw' with hkeys | ⟨-, hstored⟩
    · exact .inl ⟨hsame'.clock, hsame'.cooldown, hban.trans hkeys.ban⟩
    · exact .inr ⟨hsame', hban.trans hstored⟩

/-- The command leaves the cooldown of the user alone, and the ban as well
where `b` says so. -/
structure Lenient (u : UserId) (b : Prop) (c : AppealCmd) : Prop where
  cooldown : ¬c.touches (.moderationBanCooldown u)
  ban : b → ¬c.touches (.moderationBan u)

theorem Lenient.run {α : Type} {b : Prop} {p : AppealProg α} (hp : p.Conforms (Lenient u b) True)
    (d : Docket) :
    CooldownSame u d.world (p.run AppealCmd.exec d).2.world ∧
      (b → KeysSame u d.world (p.run AppealCmd.exec d).2.world) := by
  refine hp.run_keeps (J := fun d' : Docket => CooldownSame u d.world d'.world ∧
    (b → KeysSame u d.world d'.world)) ?_ ⟨⟨rfl, rfl⟩, fun _ => .refl u d.world⟩
  intro c d' hc hd'
  have hclock : (c.exec d').2.world.clock = d.world.clock :=
    (AppealCmd.clock_exec c d').trans hd'.1.clock
  have hcooldown := (AppealCmd.stored_exec hc.cooldown d').trans hd'.1.cooldown
  exact ⟨⟨hclock, hcooldown⟩, fun hb =>
    ⟨hclock, hcooldown, (AppealCmd.stored_exec (hc.ban hb) d').trans (hd'.2 hb).ban⟩⟩

theorem lenient_createAppeal (u : UserId) (userId : UserId) (input : CreateAppealDto) :
    (createAppeal userId input).Conforms (Lenient u True) True := by
  refine (createAppeal_issues userId input).mono fun c hc => ?_
  cases hc <;> exact ⟨fun h => h, fun _ h => h⟩

/-- Concluding an appeal deletes the ban it is about, and no other one. -/
theorem lenient_concludeAppeal {b : Prop} (resolverUserId : UserId) (resolution : Resolution)
    (existing : ModerationAppeal)
    (h : existing.status = "OPEN" → resolution = .overturned → existing.actionType = .ban →
      existing.userId = u → ¬b) :
    (concludeAppeal resolverUserId resolution existing).Conforms (Lenient u b) True := by
  have hhost : ∀ c : HostCmd, (backend (.host c)).Conforms (Lenient u b) True := fun c =>
    Proc.conforms_await ⟨fun h => h, fun _ h => h⟩
  have hupdate : ∀ id status resolvedAt, (appealTable (.appealUpdate id status resolution
      resolvedAt resolverUserId)).Conforms (Lenient u b) True := fun _ _ _ =>
    Proc.conforms_await ⟨fun h => h, fun _ h => h⟩
  unfold concludeAppeal
  split
  · exact Proc.conforms_fail _ trivial
  next hopen =>
    refine (hhost _).bind fun resolvedAt => (hupdate _ _ _).bind fun updated => ?_
    have hrest : ((backend (.host (.emit [appealResolvedEvent existing resolution resolvedAt]))).bind
        fun _ => pure updated).Conforms (Lenient u b) True :=
      (hhost _).bind fun _ => Proc.conforms_pure _
    dsimp only
    split
    next hlift =>
      refine Proc.Conforms.bind (Proc.conforms_await ⟨fun htouch => ?_, fun hb htouch => ?_⟩)
        fun _ => hrest
      · cases List.mem_singleton.mp htouch
      · have huser : existing.userId = u := by
          cases List.mem_singleton.mp htouch
          rfl
        exact h (not_not.mp hopen) hlift.1 hlift.2 huser hb
    next => exact hrest

/-- `resolveAppeal` leaves the user alone, or overturns a ban. -/
theorem resolveAppeal_keys (u : UserId) (resolverUserId : UserId) (appealId : String)
    (resolution : Resolution) (d : Docket) :
    KeysSame u d.world (d.next (.resolveAppeal resolverUserId appealId resolution)).world ∨
      CooldownSame u d.world (d.next (.resolveAppeal resolverUserId appealId resolution)).world ∧
        Overturns d u (.resolveAppeal resolverUserId appealId resolution) := by
  let b : Prop := ¬Overturns d u (.resolveAppeal resolverUserId appealId resolution)
  suffices hrun : CooldownSame u d.world
        (d.next (.resolveAppeal resolverUserId appealId resolution)).world ∧
      (b → KeysSame u d.world (d.next (.resolveAppeal resolverUserId appealId resolution)).world) by
    by_cases hb : b
    · exact .inl (hrun.2 hb)
    · exact .inr ⟨hrun.1, not_not.mp hb⟩
  unfold Docket.next resolveAppeal
  change CooldownSame u d.world (((appealTable (.appealFindUnique appealId)).bind _).run
    AppealCmd.exec d).2.world ∧ (_ → KeysSame u d.world (((appealTable
      (.appealFindUnique appealId)).bind _).run AppealCmd.exec d).2.world)
  rw [Proc.run_bind, Proc.run_await, AppealCmd.exec]
  cases hfind : d.findAppeal appealId with
  | none => exact ⟨⟨rfl, rfl⟩, fun _ => .refl u d.world⟩
  | some existing =>
      refine Lenient.run (lenient_concludeAppeal _ _ _ ?_) d
      rintro hopen rfl hban huser hb
      exact hb ⟨existing, hfind, hopen, hban, huser⟩

end OtherCalls

/-! ## Histories -/

/-- Redis is empty when a history starts. -/
def Docket.opened (w : World) (appeals : List ModerationAppeal) : Docket where
  world := { w with redis := .empty }
  appeals := appeals

/-- The ban expires after the cooldown that was started with it. -/
def Covered (u : UserId) (w : World) : Prop :=
  ∃ v e v' b, w.stored (.moderationBanCooldown u) = some ⟨v, some e⟩ ∧
    w.stored (.moderationBan u) = some ⟨v', some b⟩ ∧ e ≤ b ∧ e ≤ w.clock + BAN_RATE_LIMIT_MS

/-- An appeal against a ban of the user was overturned in the cooldown that is
still stored. -/
def LiftedEarly (d : Docket) (u : UserId) (h : List Proceeding) : Prop :=
  ∃ h₁ a h₂, h = h₁ ++ a :: h₂ ∧ Overturns (d.after h₁) u a ∧ Cooling u (d.after h₁).world ∧
    (d.after h).world.stored (.moderationBanCooldown u) =
      (d.after h₁).world.stored (.moderationBanCooldown u)

/-- The user is in the cooldown of a ban that has been lifted. -/
structure Spared (d : Docket) (u : UserId) (h : List Proceeding) : Prop where
  cooling : Cooling u (d.after h).world
  free : ¬Banned u (d.after h).world
  lifted : LiftedEarly d u h

section Histories

variable {u : UserId} {d : Docket} {h : List Proceeding} {w w' : World}

theorem Covered.banned (h : Covered u w) (hcool : Cooling u w) : Banned u w := by
  obtain ⟨v, e, v', b, hcooldown, hban, hle, -⟩ := h
  have hlt : w.clock < e := by
    by_contra hexpired
    unfold Cooling at hcool
    rw [World.get_of_expired hcooldown (Nat.le_of_not_lt hexpired)] at hcool
    cases hcool
  unfold Banned
  rw [World.get_of_stored hban (Nat.lt_of_lt_of_le hlt hle)]
  rfl

theorem KeysSame.covered (h : KeysSame u w w') (hc : Covered u w) : Covered u w' := by
  unfold Covered
  rw [h.cooldown, h.ban, h.clock]
  exact hc

theorem Struck.covered (h : Struck u w w') : Covered u w' :=
  ⟨_, _, _, _, h.cooldown, h.ban, by simp [BAN_RATE_LIMIT_MS, BAN_TTL_MS], by rw [h.clock]⟩

/-- Another ban covers the cooldown as well. -/
theorem CooldownSame.covered (h : CooldownSame u w w') (hc : Covered u w)
    (hban : w'.stored (.moderationBan u) = some ⟨.text "1", some (w.clock + BAN_TTL_MS)⟩) :
    Covered u w' := by
  obtain ⟨v, e, v', b, hcooldown, -, -, he⟩ := hc
  refine ⟨v, e, _, _, h.cooldown.trans hcooldown, hban, ?_, by rw [h.clock]; exact he⟩
  simp only [BAN_RATE_LIMIT_MS, BAN_TTL_MS] at he ⊢
  omega

theorem CooldownSame.cooling (h : CooldownSame u w w') : Cooling u w' ↔ Cooling u w := by
  unfold Cooling
  rw [World.get_congr h.cooldown h.clock]

theorem LiftedEarly.append (hl : LiftedEarly d u h) {a : Proceeding}
    (hsame : ((d.after h).next a).world.stored (.moderationBanCooldown u) =
      (d.after h).world.stored (.moderationBanCooldown u)) : LiftedEarly d u (h ++ [a]) := by
  obtain ⟨h₁, b, h₂, hsplit, hover, hcool, hstored⟩ := hl
  refine ⟨h₁, b, h₂ ++ [a], by simp [hsplit], hover, hcool, ?_⟩
  rw [Docket.after_concat, hsame, hstored]

/-- A user in a cooldown is banned, unless the ban has been lifted. -/
def Accounted (d : Docket) (u : UserId) (h : List Proceeding) : Prop :=
  Cooling u (d.after h).world → Covered u (d.after h).world ∨ LiftedEarly d u h

/-- One call. -/
theorem Accounted.next (hacc : Accounted d u h) (a : Proceeding) : Accounted d u (h ++ [a]) := by
  unfold Accounted
  rw [Docket.after_concat]
  have hsame : KeysSame u (d.after h).world ((d.after h).next a).world →
      Cooling u ((d.after h).next a).world →
        Covered u ((d.after h).next a).world ∨ LiftedEarly d u (h ++ [a]) := fun hkeys hcool =>
    (hacc (hkeys.cooling.mp hcool)).imp hkeys.covered fun hl => hl.append hkeys.cooldown
  cases a with
  | handleWebhook self sched payload delivery =>
      rcases (handleWebhook_outcome u self sched payload delivery (d.after h).world).keys with
        hkeys | hstruck
      · exact hsame hkeys
      · exact fun _ => .inl hstruck.covered
  | resolveReport reportId action =>
      rcases resolveReport_keys u reportId action (d.after h).world with hkeys | ⟨hcool, hban⟩
      · exact hsame hkeys
      · exact fun hc => (hacc (hcool.cooling.mp hc)).imp (hcool.covered · hban) fun hl =>
          hl.append hcool.cooldown
  | createAppeal userId input =>
      exact hsame ((Lenient.run (lenient_createAppeal u userId input) (d.after h)).2 trivial)
  | resolveAppeal resolverUserId appealId resolution =>
      rcases resolveAppeal_keys u resolverUserId appealId resolution (d.after h) with
        hkeys | ⟨hcool, hover⟩
      · exact hsame hkeys
      · refine fun hc => .inr ⟨h, _, [], rfl, hover, hcool.cooling.mp hc, ?_⟩
        rw [Docket.after_concat]
        exact hcool.cooldown
  | tick ms =>
      intro hcool
      obtain ⟨r, hr⟩ := Option.isSome_iff_exists.mp hcool
      have hbefore : Cooling u (d.after h).world :=
        Option.isSome_iff_exists.mpr ⟨r, World.get_of_get_tick hr⟩
      refine (hacc hbefore).imp (fun hc => ?_) fun hl => hl.append rfl
      obtain ⟨v, e, v', b, hcooldown, hban, hle, he⟩ := hc
      exact ⟨v, e, v', b, hcooldown, hban, hle, Nat.le_trans he (by
        change _ ≤ (d.after h).world.clock + ms + BAN_RATE_LIMIT_MS
        omega)⟩

theorem accounted (w : World) (appeals : List ModerationAppeal) (u : UserId) (h : List Proceeding) :
    Accounted (.opened w appeals) u h := by
  induction h using List.reverseRecOn with
  | nil => exact fun hcool => by cases hcool
  | append_singleton h a ih => exact ih.next a

/-- The third violation in 24 hours finds the user banned when the call
returns, unless the user is in the cooldown of a ban that was lifted. -/
theorem banned_iff_not_spared (w : World) (appeals : List ModerationAppeal)
    (h : List Proceeding) (u : UserId) (self : Instance) (sched : Schedules)
    (payload : HiveViolationPayload) (delivery : HiveWebhookDelivery) :
    let before := ((Docket.opened w appeals).after h).world
    let out := (handleWebhook self sched payload delivery).run Cmd.exec before
    out.1 = .ok () → violations u before < violations u out.2 →
      BAN_THRESHOLD ≤ recentViolations u out.2 →
        (Banned u out.2 ↔ ¬Spared (.opened w appeals) u h) := by
  intro before out hok hlt hn
  have hout := handleWebhook_outcome u self sched payload delivery before
  constructor
  · intro hbanned hspared
    rcases hout.keys with hkeys | hstruck
    · exact hspared.free (hkeys.banned.mp hbanned)
    · exact hstruck.free hspared.cooling
  · intro hspared
    by_cases hcool : Cooling u before
    · have hbanned : Banned u before := by
        by_contra hfree
        rcases accounted w appeals u h hcool with hcovered | hlifted
        · exact hfree (hcovered.banned hcool)
        · exact hspared ⟨hcool, hfree, hlifted⟩
      rcases hout.keys with hkeys | hstruck
      · exact hkeys.banned.mpr hbanned
      · exact hstruck.banned
    · exact (hout.bans hok hlt hn hcool).banned

end Histories

/-- Ann and Bob in a session. -/
def reportedPair : World :=
  { World.peopled ["ann", "bob"] 0 with
    db := { (World.peopled ["ann", "bob"] 0).db with
      sessions := [⟨"s", "ann", "bob", none, none, 0⟩] } }

/-- A violation by Ann. -/
def annsViolation : HiveViolationPayload where
  sessionId := some "s"
  userId := some "ann"
  violation := some true
  action := none
  event := none
  labels := none
  severity := none
  reason := none

/-- Ann's violations, all without the headers of a delivery. -/
def annViolates : Proceeding := .handleWebhook 0 ⟨[], []⟩ annsViolation ⟨none, none⟩

theorem banned_iff_not_spared_third :
    ((handleWebhook 0 ⟨[], []⟩ annsViolation ⟨none, none⟩).run Cmd.exec
        ((Docket.opened reportedPair []).after [annViolates, annViolates]).world).1 = .ok () ∧
      (Banned "ann" ((handleWebhook 0 ⟨[], []⟩ annsViolation ⟨none, none⟩).run Cmd.exec
          ((Docket.opened reportedPair []).after [annViolates, annViolates]).world).2 ↔
        ¬Spared (.opened reportedPair []) "ann" [annViolates, annViolates]) :=
  ⟨by decide +kernel, banned_iff_not_spared reportedPair [] [annViolates, annViolates] "ann" 0 ⟨[], []⟩
    annsViolation ⟨none, none⟩ (by decide +kernel) (by decide +kernel) (by decide +kernel)⟩

/-- Ann is banned, appeals at once, and is heard within a minute: her next
violation leaves her without a ban. -/
theorem ban_lifted_in_cooldown :
    ¬∀ (w : World) (appeals : List ModerationAppeal) (h : List Proceeding) (u : UserId)
        (self : Instance) (sched : Schedules) (payload : HiveViolationPayload)
        (delivery : HiveWebhookDelivery),
      let before := ((Docket.opened w appeals).after h).world
      let out := (handleWebhook self sched payload delivery).run Cmd.exec before
      out.1 = .ok () → violations u before < violations u out.2 →
        BAN_THRESHOLD ≤ recentViolations u out.2 → Banned u out.2 := by
  intro hall
  let h : List Proceeding := [annViolates, annViolates, annViolates,
    .createAppeal "ann" ⟨none, .ban, none⟩, .resolveAppeal "bob" (freshId 3) .overturned,
    .tick 30000]
  have hbanned := hall reportedPair [] h "ann" 0 ⟨[], []⟩ annsViolation ⟨none, none⟩ (by decide +kernel)
    (by decide +kernel) (by decide +kernel)
  have hfree : ¬Banned "ann" ((handleWebhook 0 ⟨[], []⟩ annsViolation ⟨none, none⟩).run Cmd.exec
      ((Docket.opened reportedPair []).after h).world).2 := by
    decide +kernel
  exact hfree hbanned

end VerityBackend.Moderation
