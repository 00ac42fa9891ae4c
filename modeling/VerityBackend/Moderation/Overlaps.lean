/-
VerityBackend.Moderation.Overlaps — several bans of one user at a time.

All bans of a user are one key that expires with the last of them. An appeal
concerns one decision, but `resolveAppeal` deletes the key where the action
type of the appeal is a ban, and leaves it where it is not. What is left of
the other bans is nothing, or everything (`other_bans_stand_iff`).
-/
import VerityBackend.Moderation.Threshold

namespace VerityBackend.Moderation

open Async Store

/-! ## The bans of a history -/

/-- What a ban was decided upon: a report, or the delivery at this place of
the history. -/
inductive Cause where
  | report (id : String)
  | delivery (place : Nat)
  deriving DecidableEq, Repr

structure Ban where
  cause : Cause
  expires : Nat
  deriving DecidableEq, Repr

namespace Docket

/-- The report is resolved, and it is one about the user. -/
def ResolvesAbout (d : Docket) (u : UserId) (reportId : String) (action : ModerationAction) : Prop :=
  ((Moderation.resolveReport reportId action).run Cmd.exec d.world).1.isOk = true ∧
    (d.findReport reportId).any (·.reportedUserId = u) = true

instance (d : Docket) (u : UserId) (reportId : String) (action : ModerationAction) :
    Decidable (d.ResolvesAbout u reportId action) := inferInstanceAs (Decidable (_ ∧ _))

/-- What this call bans the user for. A delivery bans where it is `allowed`
to, that is where it starts the cooldown. -/
def bans (d : Docket) (u : UserId) (place : Nat) : Proceeding → Option Cause
  | .handleWebhook self sched payload delivery =>
      if ¬Cooling u d.world ∧ Cooling u (d.next (.handleWebhook self sched payload delivery)).world then
        some (.delivery place)
      else none
  | .resolveReport reportId action =>
      if action = .ban ∧ d.ResolvesAbout u reportId action then some (.report reportId) else none
  | .createAppeal _ _ => none
  | .resolveAppeal _ _ _ => none
  | .tick _ => none

/-- The bans of the user that a history decides upon, the first call of it
having this place. -/
def decided (u : UserId) : Docket → Nat → List Proceeding → List Ban
  | _, _, [] => []
  | d, place, a :: h =>
      ((d.bans u place a).map fun cause => (⟨cause, d.world.clock + BAN_TTL_MS⟩ : Ban)).toList ++
        decided u (d.next a) (place + 1) h

end Docket

/-- The bans that are still running, without the one for this cause. -/
def running (now : Nat) (appealed : Option Cause) (bans : List Ban) : List Ban :=
  bans.filter fun b => now < b.expires ∧ appealed ≠ some b.cause

/-- The end of the longest. -/
def longest (bans : List Ban) : Nat := (bans.map Ban.expires).foldr max 0

/-- Two of the bans have nothing to do with each other. -/
def Independent (bans : List Ban) : Prop := ∃ x ∈ bans, ∃ y ∈ bans, x.cause ≠ y.cause

instance (bans : List Ban) : Decidable (Independent bans) :=
  inferInstanceAs (Decidable (∃ x ∈ bans, ∃ y ∈ bans, _))

/-- What the appeal is about: the ban for a cause, or (`none`) a warning. An
appeal that names no report can be about any ban. -/
inductive Concerns (appeal : ModerationAppeal) : Option Cause → Prop
  | report {id} (h : appeal.moderationReportId = some id) : Concerns appeal (some (.report id))
  | unnamed {cause} (h : appeal.moderationReportId = none) : Concerns appeal (some cause)
  | warning (h : appeal.actionType = .warn) : Concerns appeal none

/-- The ban is set, and goes on being set until this time. -/
def BannedUntil (u : UserId) (t : Nat) (w : World) : Prop :=
  ∀ ms, w.clock + ms < t → Banned u (w.env (.tick ms))

/-- An appeal against a ban of the user has been overturned, and no ban has
been decided upon since. -/
def Withdrawn (d : Docket) (u : UserId) (h : List Proceeding) : Prop :=
  ∃ h₁ a h₂, h = h₁ ++ a :: h₂ ∧ Overturns (d.after h₁) u a ∧
    Docket.decided u (d.after (h₁ ++ [a])) 0 h₂ = []

/-! ## One call -/

section Calls

variable {u : UserId}

/-- The commands leave a key alone. -/
theorem stored_run {α : Type} {k : RedisKey} {p : Prog α}
    (hp : p.Conforms (fun c => ¬c.touches k) True) (w : World) :
    (p.run Cmd.exec w).2.stored k = w.stored k ∧ (p.run Cmd.exec w).2.clock = w.clock := by
  refine hp.run_keeps (J := fun w' : World => w'.stored k = w.stored k ∧ w'.clock = w.clock) ?_
    ⟨rfl, rfl⟩
  intro c w' hc hw'
  exact ⟨(Cmd.stored_exec hc w').trans hw'.1, (Cmd.clock_exec c w').trans hw'.2⟩

theorem createBlock_spares (u : UserId) (blockerId blockedId : UserId) :
    (createBlock blockerId blockedId).Conforms (fun c => ¬c.touches (.moderationBan u)) True := by
  refine (createBlock_issues blockerId blockedId).mono fun c hc => ?_
  exact blockCommand_not_touches hc RedisKey.noConfusion

/-- `resolveReport` bans the reported user for a day where it returns, and
does nothing to the ban of anybody else. -/
theorem resolveReport_stored (d : Docket) (u : UserId) (reportId : String)
    (action : ModerationAction) :
    let w' := (d.next (.resolveReport reportId action)).world
    (action = .ban ∧ d.ResolvesAbout u reportId action →
        w'.stored (.moderationBan u) = some ⟨.text "1", some (d.world.clock + BAN_TTL_MS)⟩) ∧
      (¬(action = .ban ∧ d.ResolvesAbout u reportId action) →
        w'.stored (.moderationBan u) = d.world.stored (.moderationBan u)) := by
  intro w'
  unfold Docket.ResolvesAbout Docket.findReport
  have hw' : w' = ((resolveReport reportId action).run Cmd.exec d.world).2 := rfl
  rw [hw']
  cases hfind : d.world.db.reports.find? (·.id = reportId) with
  | none =>
      have hrun : (resolveReport reportId action).run Cmd.exec d.world =
          (.error (.prisma "P2025"), d.world) :=
        Proc.run_bind_error _ (by rw [Proc.run_await, Cmd.exec_db, DbCmd.exec, hfind]) _
      rw [hrun]
      exact ⟨fun h => by simp at h, fun _ => rfl⟩
  | some report =>
      let w₁ := d.world.mapDb (·.setReportStatus reportId (reportStatus action))
      obtain ⟨hstored, hclock⟩ :=
        stored_run (createBlock_spares u report.reporterId report.reportedUserId) w₁
      have hupdate : (prisma (.reportUpdate reportId (reportStatus action))).run Cmd.exec d.world =
          (.ok { report with status := reportStatus action }, w₁) := by
        rw [Proc.run_await, Cmd.exec_db, DbCmd.exec, hfind]
      rcases hblock : (createBlock report.reporterId report.reportedUserId).run Cmd.exec w₁ with
        ⟨e | result, w₂⟩
      · have hrun : (resolveReport reportId action).run Cmd.exec d.world = (.error e, w₂) :=
          (Proc.run_bind_ok _ hupdate _).trans (Proc.run_bind_error _ hblock _)
        rw [hblock] at hstored
        rw [hrun]
        exact ⟨fun h => by simp [Except.isOk, Except.toBool] at h, fun _ => hstored⟩
      · rw [hblock] at hstored hclock
        cases action with
        | warn =>
            have hrun : (resolveReport reportId .warn).run Cmd.exec d.world =
                (.ok ⟨report.id, "WARNED", .warn⟩, w₂) :=
              (Proc.run_bind_ok _ hupdate _).trans (Proc.run_bind_ok _ hblock _)
            rw [hrun]
            exact ⟨fun h => by simp at h, fun _ => hstored⟩
        | ban =>
            have hrun : (resolveReport reportId .ban).run Cmd.exec d.world =
                (.ok ⟨report.id, "BANNED", .ban⟩,
                  w₂.set (.moderationBan report.reportedUserId) (.text "1") (some BAN_TTL_MS)) :=
              (Proc.run_bind_ok _ hupdate _).trans (Proc.run_bind_ok _ hblock _)
            rw [hrun]
            by_cases hu : report.reportedUserId = u
            · subst hu
              refine ⟨fun _ => ?_, fun h => absurd ⟨rfl, rfl, by simp⟩ h⟩
              rw [World.stored_set_self, hclock]
              rfl
            · refine ⟨fun h => absurd h.2.2 (by simp [hu]), fun _ => ?_⟩
              rw [World.stored_set_ne fun h => hu (by cases h; rfl), hstored]
              rfl

/-- Overturning an appeal against a ban deletes the ban. -/
theorem resolveAppeal_stored {d : Docket} {resolverUserId : UserId} {appealId : String}
    (h : Overturns d u (.resolveAppeal resolverUserId appealId .overturned)) :
    (d.next (.resolveAppeal resolverUserId appealId .overturned)).world.stored (.moderationBan u) =
      none := by
  obtain ⟨appeal, hfind, hopen, hban, rfl⟩ := h
  have hid : appeal.id = appealId := by simpa using List.find?_some hfind
  have hread : (appealTable (.appealFindUnique appealId)).run AppealCmd.exec d =
      (.ok (some appeal), d) := by
    rw [← hfind]
    rfl
  let appeals := d.appeals.map fun a =>
    if a.id = appeal.id then a.resolve "OVERTURNED" .overturned d.world.clock resolverUserId else a
  have hupdate : (appealTable (.appealUpdate appeal.id "OVERTURNED" .overturned d.world.clock
      resolverUserId)).run AppealCmd.exec d =
        (.ok (appeal.resolve "OVERTURNED" .overturned d.world.clock resolverUserId),
          { d with appeals := appeals }) := by
    rw [Proc.run_await]
    simp only [AppealCmd.exec, hid, hfind, appeals]
  have hconclude : (concludeAppeal resolverUserId .overturned appeal).run AppealCmd.exec d =
      (.ok (appeal.resolve "OVERTURNED" .overturned d.world.clock resolverUserId),
        { world := d.world.del (.moderationBan appeal.userId), appeals := appeals }) := by
    unfold concludeAppeal
    rw [if_neg (not_not.mpr hopen)]
    simp only [hban, and_self, ↓reduceIte]
    exact Proc.run_bind_ok _ hupdate _
  have hrun : (resolveAppeal resolverUserId appealId .overturned).run AppealCmd.exec d =
      (concludeAppeal resolverUserId .overturned appeal).run AppealCmd.exec d :=
    Proc.run_bind_ok _ hread _
  rw [Docket.next, hrun, hconclude]
  exact World.stored_del_self _ _

/-- What a call does to the ban of a user: nothing, a ban for a day, or the
deletion of whatever ban there is. -/
inductive Effect (u : UserId) (d : Docket) (place : Nat) (a : Proceeding) : Prop
  | none (hbans : d.bans u place a = none) (hover : ¬Overturns d u a)
      (hstored : (d.next a).world.stored (.moderationBan u) = d.world.stored (.moderationBan u))
      (hclock : d.world.clock ≤ (d.next a).world.clock)
  | banned {cause} (hbans : d.bans u place a = some cause) (hover : ¬Overturns d u a)
      (hstored : (d.next a).world.stored (.moderationBan u) =
        some ⟨.text "1", some (d.world.clock + BAN_TTL_MS)⟩)
      (hclock : (d.next a).world.clock = d.world.clock)
  | deleted (hbans : d.bans u place a = .none) (hover : Overturns d u a)
      (hstored : (d.next a).world.stored (.moderationBan u) = .none)
      (hclock : (d.next a).world.clock = d.world.clock)

theorem next_effect (u : UserId) (d : Docket) (place : Nat) (a : Proceeding) :
    Effect u d place a := by
  cases a with
  | handleWebhook self sched payload delivery =>
      have hout := handleWebhook_outcome u self sched payload delivery d.world
      rcases hout.keys with hkeys | hstruck
      · refine .none (if_neg fun h => h.1 (hkeys.cooling.mp h.2)) id hkeys.ban hkeys.clock.ge
      · refine .banned (if_pos ⟨hstruck.free, ?_⟩) id hstruck.ban hstruck.clock
        exact cooling_of_stored hstruck.clock hstruck.cooldown
  | resolveReport reportId action =>
      have hclock : (d.next (.resolveReport reportId action)).world.clock = d.world.clock :=
        (resolveReport_keys u reportId action d.world).elim KeysSame.clock fun h => h.1.clock
      obtain ⟨hbanned, hnone⟩ := resolveReport_stored d u reportId action
      by_cases h : action = .ban ∧ d.ResolvesAbout u reportId action
      · exact .banned (if_pos h) id (hbanned h) hclock
      · exact .none (if_neg h) id (hnone h) hclock.ge
  | createAppeal userId input =>
      have hkeys := (Lenient.run (lenient_createAppeal u userId input) d).2 trivial
      exact .none rfl id hkeys.ban hkeys.clock.ge
  | resolveAppeal resolverUserId appealId resolution =>
      have hkeys := resolveAppeal_keys u resolverUserId appealId resolution d
      have hclock := hkeys.elim KeysSame.clock fun h => h.1.clock
      by_cases hover : Overturns d u (.resolveAppeal resolverUserId appealId resolution)
      · cases resolution with
        | upheld => exact hover.elim
        | overturned => exact .deleted rfl hover (resolveAppeal_stored hover) hclock
      · have hsame := hkeys.resolve_right fun h => hover h.2
        exact .none rfl hover hsame.ban hclock.ge
  | tick ms => exact .none rfl id rfl (Nat.le_add_right _ _)

end Calls

/-! ## Histories -/

section Histories

variable {u : UserId} {d : Docket} {h : List Proceeding} {w : World}

theorem decided_append (u : UserId) (d : Docket) (place : Nat) (h h' : List Proceeding) :
    d.decided u place (h ++ h') =
      d.decided u place h ++ (d.after h).decided u (place + h.length) h' := by
  induction h generalizing d place with
  | nil => rfl
  | cons a h ih =>
      simp only [List.cons_append, Docket.decided, ih, List.append_assoc, List.length_cons]
      rw [Nat.add_right_comm, Nat.add_assoc]
      rfl

/-- What the last call adds. -/
theorem decided_concat (u : UserId) (d : Docket) (place : Nat) (h : List Proceeding) (a : Proceeding) :
    d.decided u place (h ++ [a]) = d.decided u place h ++
      (((d.after h).bans u (place + h.length) a).map fun cause =>
        (⟨cause, (d.after h).world.clock + BAN_TTL_MS⟩ : Ban)).toList := by
  rw [decided_append, Docket.decided, Docket.decided, List.append_nil]

/-- Whether a call bans does not depend on its place. -/
theorem bans_eq_none (place place' : Nat) {a : Proceeding} (h : d.bans u place a = none) :
    d.bans u place' a = none := by
  cases a with
  | handleWebhook self sched payload delivery =>
      simp only [Docket.bans, ite_eq_right_iff, reduceCtorEq] at h ⊢
      exact h
  | _ => exact h

theorem withdrawn_concat {a : Proceeding} :
    Withdrawn d u (h ++ [a]) ↔ Overturns (d.after h) u a ∨
      Withdrawn d u h ∧ (d.after h).bans u h.length a = none := by
  have hlast : ∀ {h₁ h₂ : List Proceeding} {b : Proceeding}, h = h₁ ++ b :: h₂ →
      (d.after (h₁ ++ [b])).after h₂ = d.after h := by
    rintro h₁ h₂ b rfl
    rw [← Docket.after_append, List.append_assoc, List.singleton_append]
  constructor
  · rintro ⟨h₁, b, h₂, heq, hover, hnone⟩
    rcases List.eq_nil_or_concat h₂ with rfl | ⟨h₃, c, rfl⟩
    · obtain ⟨rfl, hb⟩ := List.append_inj' heq rfl
      obtain rfl := List.singleton_inj.mp hb
      exact .inl hover
    · rw [List.concat_eq_append, ← List.cons_append, ← List.append_assoc] at heq
      rw [List.concat_eq_append] at hnone
      obtain ⟨rfl, hc⟩ := List.append_inj' heq rfl
      obtain rfl := List.singleton_inj.mp hc
      rw [decided_concat, List.append_eq_nil_iff, hlast rfl] at hnone
      exact .inr ⟨⟨h₁, b, h₃, rfl, hover, hnone.1⟩, bans_eq_none _ _ (by simpa using hnone.2)⟩
  · rintro (hover | ⟨⟨h₁, b, h₂, heq, hover, hnone⟩, hbans⟩)
    · exact ⟨h, a, [], rfl, hover, rfl⟩
    · refine ⟨h₁, b, h₂ ++ [a], by simp [heq], hover, ?_⟩
      rw [decided_concat, hnone, hlast heq, bans_eq_none _ _ hbans]
      rfl

/-- What the key of a user holds after a history. -/
structure Shared (d : Docket) (u : UserId) (h : List Proceeding) : Prop where
  day : ∀ b ∈ d.decided u 0 h, b.expires ≤ (d.after h).world.clock + BAN_TTL_MS
  withdrawn : Withdrawn d u h → (d.after h).world.stored (.moderationBan u) = none
  kept : ¬Withdrawn d u h → d.decided u 0 h ≠ [] →
    ∃ t, (d.after h).world.stored (.moderationBan u) = some ⟨.text "1", some t⟩ ∧
      ∀ b ∈ d.decided u 0 h, b.expires ≤ t

/-- One call. -/
theorem Shared.next (hs : Shared d u h) (a : Proceeding) : Shared d u (h ++ [a]) := by
  have hdecided := decided_concat u d 0 h a
  rw [Nat.zero_add] at hdecided
  cases next_effect u (d.after h) h.length a with
  | none hbans hover hstored hclock =>
      rw [hbans, Option.map_none, Option.toList_none, List.append_nil] at hdecided
      refine { day := fun b hb => ?_, withdrawn := fun hw => ?_, kept := fun hw hne => ?_ }
      · rw [hdecided] at hb
        rw [Docket.after_concat]
        exact Nat.le_trans (hs.day b hb) (Nat.add_le_add_right hclock _)
      · rw [Docket.after_concat, hstored]
        exact hs.withdrawn ((withdrawn_concat.mp hw).resolve_left hover).1
      · rw [Docket.after_concat, hstored, hdecided]
        rw [hdecided] at hne
        exact hs.kept (fun h => hw (withdrawn_concat.mpr (.inr ⟨h, hbans⟩))) hne
  | banned hbans hover hstored hclock =>
      rw [hbans, Option.map_some, Option.toList_some] at hdecided
      have hall : ∀ b ∈ d.decided u 0 (h ++ [a]),
          b.expires ≤ (d.after h).world.clock + BAN_TTL_MS := by
        rw [hdecided]
        intro b hb
        rcases List.mem_append.mp hb with hold | hnew
        · exact hs.day b hold
        · rw [List.mem_singleton.mp hnew]
      refine { day := fun b hb => ?_, withdrawn := fun hw => ?_, kept := fun _ _ => ?_ }
      · rw [Docket.after_concat, hclock]
        exact hall b hb
      · rcases withdrawn_concat.mp hw with h | ⟨-, h⟩
        · exact absurd h hover
        · rw [hbans] at h
          cases h
      · rw [Docket.after_concat]
        exact ⟨_, hstored, hall⟩
  | deleted hbans hover hstored hclock =>
      rw [hbans, Option.map_none, Option.toList_none, List.append_nil] at hdecided
      refine { day := fun b hb => ?_, withdrawn := fun _ => ?_, kept := fun hw => ?_ }
      · rw [hdecided] at hb
        rw [Docket.after_concat, hclock]
        exact hs.day b hb
      · rw [Docket.after_concat, hstored]
      · exact absurd (withdrawn_concat.mpr (.inl hover)) hw

theorem shared (w : World) (appeals : List ModerationAppeal) (u : UserId) (h : List Proceeding) :
    Shared (.opened w appeals) u h := by
  induction h using List.reverseRecOn with
  | nil =>
      refine { day := nofun, withdrawn := fun hw => ?_, kept := fun _ hne => absurd rfl hne }
      obtain ⟨h₁, a, h₂, heq, -⟩ := hw
      simp at heq
  | append_singleton h a ih => exact ih.next a

theorem expires_le_longest {bans : List Ban} {b : Ban} (hb : b ∈ bans) : b.expires ≤ longest bans := by
  induction bans with
  | nil => cases hb
  | cons x bans ih =>
      rcases List.mem_cons.mp hb with rfl | hb
      · exact Nat.le_max_left _ _
      · exact Nat.le_trans (ih hb) (Nat.le_max_right _ _)

theorem longest_le {bans : List Ban} {t : Nat} (h : ∀ b ∈ bans, b.expires ≤ t) : longest bans ≤ t := by
  induction bans with
  | nil => exact Nat.zero_le t
  | cons x bans ih =>
      exact Nat.max_le.mpr ⟨h x List.mem_cons_self, ih fun b hb => h b (List.mem_cons_of_mem x hb)⟩

/-- Of two independent bans one is about something else. -/
theorem exists_other {bans : List Ban} {now : Nat} (hind : Independent (running now none bans))
    (appealed : Option Cause) : ∃ b ∈ running now appealed bans, now < b.expires := by
  obtain ⟨x, hx, y, hy, hne⟩ := hind
  simp only [running, List.mem_filter, decide_eq_true_eq] at hx hy ⊢
  by_cases happ : appealed = some x.cause
  · exact ⟨y, ⟨hy.1, hy.2.1, by simpa [happ] using hne⟩, hy.2.1⟩
  · exact ⟨x, ⟨hx.1, hx.2.1, happ⟩, hx.2.1⟩

theorem bannedUntil_of_stored {t t' : Nat}
    (hstored : w.stored (.moderationBan u) = some ⟨.text "1", some t'⟩) (hle : t ≤ t') :
    BannedUntil u t w := by
  intro ms hms
  unfold Banned
  rw [World.get_of_stored (w := w.env (.tick ms)) hstored (Nat.lt_of_lt_of_le hms hle)]
  rfl

theorem not_bannedUntil_of_stored {t : Nat} (hstored : w.stored (.moderationBan u) = none)
    (hlt : w.clock < t) : ¬BannedUntil u t w := by
  intro h
  have hbanned : (w.get (.moderationBan u)).isSome = true := h 0 hlt
  obtain ⟨r, hr⟩ := Option.isSome_iff_exists.mp hbanned
  obtain ⟨e, he, -⟩ := World.stored_of_get hr
  rw [hstored] at he
  cases he

/-- Overturning an appeal leaves the user banned to the end of the longest of
the other bans exactly if the appeal is not against a ban, and no appeal
against a ban has been overturned since the last of them. -/
theorem other_bans_stand_iff (w : World) (appeals : List ModerationAppeal) (h : List Proceeding)
    (u : UserId) (resolverUserId : UserId) (appealId : String) (appeal : ModerationAppeal)
    (appealed : Option Cause) :
    let d := (Docket.opened w appeals).after h
    let bans := (Docket.opened w appeals).decided u 0 h
    let d' := d.next (.resolveAppeal resolverUserId appealId .overturned)
    d.findAppeal appealId = some appeal → appeal.status = "OPEN" → appeal.userId = u →
      Concerns appeal appealed → Independent (running d.world.clock none bans) →
        (BannedUntil u (longest (running d.world.clock appealed bans)) d'.world ↔
          appeal.actionType ≠ .ban ∧ ¬Withdrawn (.opened w appeals) u h) := by
  intro d bans d' hfind hopen huser _ hind
  have hs := shared w appeals u h
  obtain ⟨other, hother, hrunning⟩ := exists_other hind appealed
  have hdecided : ∀ b ∈ running d.world.clock appealed bans, b ∈ bans := fun b hb =>
    (List.mem_filter.mp hb).1
  have hclock : d'.world.clock = d.world.clock :=
    (resolveAppeal_keys u resolverUserId appealId .overturned d).elim KeysSame.clock fun h => h.1.clock
  have hlong : d'.world.clock < longest (running d.world.clock appealed bans) := by
    rw [hclock]
    exact Nat.lt_of_lt_of_le hrunning (expires_le_longest hother)
  cases next_effect u d h.length (.resolveAppeal resolverUserId appealId .overturned) with
  | none _ hover hstored _ =>
      have hban : appeal.actionType ≠ .ban := fun h => hover ⟨appeal, hfind, hopen, h, huser⟩
      constructor
      · intro huntil
        refine ⟨hban, fun hw => ?_⟩
        exact not_bannedUntil_of_stored (hstored.trans (hs.withdrawn hw)) hlong huntil
      · rintro ⟨-, hw⟩
        obtain ⟨t, ht, hall⟩ := hs.kept hw (List.ne_nil_of_mem (hdecided other hother))
        exact bannedUntil_of_stored (hstored.trans ht) (longest_le fun b hb => hall b (hdecided b hb))
  | banned hbans => cases hbans
  | deleted _ hover hstored _ =>
      obtain ⟨appeal', hfind', -, hban, -⟩ := hover
      obtain rfl : appeal = appeal' := Option.some.inj (hfind.symm.trans hfind')
      exact iff_of_false (not_bannedUntil_of_stored hstored hlong) fun h => h.1 hban

end Histories

/-- Bob and Carl have each reported Ann. -/
def reportedTwice : World :=
  { World.peopled ["ann", "bob", "carl"] 0 with
    db := { (World.peopled ["ann", "bob", "carl"] 0).db with
      reports := [⟨"r", 0, "bob", "ann", "spam", none, "OPEN"⟩,
        ⟨"r'", 0, "carl", "ann", "spam", none, "OPEN"⟩] } }

/-- Ann is banned for both reports, an hour apart, and appeals against the
first. -/
def bannedTwice (actionType : AppealAction) : List Proceeding :=
  [.resolveReport "r" .ban, .tick 3600000, .resolveReport "r'" .ban,
    .createAppeal "ann" ⟨some "r", actionType, none⟩]

def appealToFirst (actionType : AppealAction) : ModerationAppeal :=
  ⟨freshId 2, 3600000, "ann", some "r", actionType, none, "OPEN", none, none, none⟩

/-- The appeal says that it is about a warning. -/
theorem other_bans_stand_iff_warn :
    Independent (running 3600000 none ((Docket.opened reportedTwice []).decided "ann" 0
        (bannedTwice .warn))) ∧
      (BannedUntil "ann"
          (longest (running 3600000 (some (.report "r"))
            ((Docket.opened reportedTwice []).decided "ann" 0 (bannedTwice .warn))))
          (((Docket.opened reportedTwice []).after (bannedTwice .warn)).next
            (.resolveAppeal "bob" (freshId 2) .overturned)).world ↔
        AppealAction.warn ≠ .ban ∧ ¬Withdrawn (.opened reportedTwice []) "ann" (bannedTwice .warn)) :=
  ⟨by decide +kernel,
    other_bans_stand_iff reportedTwice [] (bannedTwice .warn) "ann" "bob" (freshId 2)
      (appealToFirst .warn) (some (.report "r")) (by decide +kernel) rfl rfl (.report rfl)
      (by decide +kernel)⟩

/-- Overturning the appeal against the first ban leaves Ann without the
second. -/
theorem other_ban_lifted :
    ¬∀ (w : World) (appeals : List ModerationAppeal) (h : List Proceeding) (u : UserId)
        (resolverUserId : UserId) (appealId : String) (appeal : ModerationAppeal)
        (appealed : Option Cause),
      let d := (Docket.opened w appeals).after h
      let bans := (Docket.opened w appeals).decided u 0 h
      let d' := d.next (.resolveAppeal resolverUserId appealId .overturned)
      d.findAppeal appealId = some appeal → appeal.status = "OPEN" → appeal.userId = u →
        Concerns appeal appealed → Independent (running d.world.clock none bans) →
          BannedUntil u (longest (running d.world.clock appealed bans)) d'.world := by
  intro hall
  have huntil := hall reportedTwice [] (bannedTwice .ban) "ann" "bob" (freshId 2) (appealToFirst .ban)
    (some (.report "r")) (by decide +kernel) rfl rfl (.report rfl) (by decide +kernel)
  have hbanned := huntil 0 (by decide +kernel)
  have hfree : ¬Banned "ann" ((((Docket.opened reportedTwice []).after (bannedTwice .ban)).next
      (.resolveAppeal "bob" (freshId 2) .overturned)).world.env (.tick 0)) := by
    decide +kernel
  exact hfree hbanned

end VerityBackend.Moderation
