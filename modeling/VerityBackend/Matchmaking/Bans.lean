/-
VerityBackend.Matchmaking.Bans — is a banned user ever matched?

Only `joinQueue` looks at a ban. A ban set while its user waits is seen by
nobody: `resolveReport` bans without emptying the queue when the block
exists already, the webhook never empties it (`banned_matched`). Where every
ban is set while its user does not wait, nobody who waits is banned
(`Unbanned`), and so nobody is matched who is (`banned_not_matched`).
-/
import VerityBackend.Matchmaking.Histories

namespace VerityBackend.Matchmaking

open Async Store Queue

/-- A ban is set while its user has no entry. -/
def BansOutsiders (e : Entry System) : Prop :=
  match e.cmd with
  | .redis (.set (.moderationBan u) _ _) => World.get e.before (.queueUser u) = none
  | _ => True

instance (e : Entry System) : Decidable (BansOutsiders e) := by
  unfold BansOutsiders
  split <;> infer_instance

/-- A session is created while the ban of a participant is set. -/
def MatchesBanned (e : Entry System) : Prop :=
  match e.cmd with
  | .db (.sessionCreate userA userB _ _) =>
      ¬(World.get e.before (.moderationBan userA) = none ∧
        World.get e.before (.moderationBan userB) = none)
  | _ => False

instance (e : Entry System) : Decidable (MatchesBanned e) := by
  unfold MatchesBanned
  split <;> infer_instance

theorem MatchesBanned.creates {e : Entry System} (h : MatchesBanned e) :
    ∃ userA userB region queueKey, e.cmd = .db (.sessionCreate userA userB region queueKey) ∧
      ¬(World.get e.before (.moderationBan userA) = none ∧
        World.get e.before (.moderationBan userB) = none) := by
  unfold MatchesBanned at h
  split at h
  · next userA userB region queueKey hcmd => exact ⟨userA, userB, region, queueKey, hcmd, h⟩
  · exact h.elim

/-- Nobody who waits is banned, and nobody was matched who was. -/
structure Unbanned (p : Past System) : Prop where
  values : ∀ u r, p.world.get (.moderationBan u) = some r → r = .text "1"
  waiting : ∀ u k, (board p.world).queued u = some k → p.world.get (.moderationBan u) = none
  matched : ∀ e ∈ p.trace, ¬MatchesBanned e

theorem not_matchesBanned {e : Entry System} (h : ¬e.cmd.createsSession) : ¬MatchesBanned e := by
  intro hbanned
  obtain ⟨userA, userB, region, queueKey, hcmd, -⟩ := hbanned.creates
  rw [hcmd] at h
  exact h trivial

/-- A call that creates no session, lets nobody in and sets no ban. -/
theorem Unbanned.fade {p p' : Past System} (h : Unbanned p) (hbans : BansFade p.world p'.world)
    (hqueued : ∀ u k, (board p'.world).queued u = some k → (board p.world).queued u = some k)
    (hmatched : p.Between (fun e => ¬MatchesBanned e) p'.toSnap) : Unbanned p' where
  values u r hr := h.values u r (hbans u r hr)
  waiting u k hq := by
    cases hr : p'.world.get (.moderationBan u) with
    | none => rfl
    | some r =>
        have hfree := h.waiting u k (hqueued u k hq)
        rw [hbans u r hr] at hfree
        cases hfree
  matched e he := by
    obtain ⟨t, ht, hnot⟩ := hmatched
    rw [ht] at he
    rcases List.mem_append.mp he with he | he
    · exact hnot e he
    · exact h.matched e he

theorem Unbanned.join {p p' : Past System} {u : UserId} {k : QueueKey} (h : Unbanned p)
    (hjoined : Joined u k p.toSnap p'.toSnap)
    (hban : ∀ ban, p'.world.get (.moderationBan u) = some ban → ban = .text "") : Unbanned p' := by
  have hvalues : ∀ v r, p'.world.get (.moderationBan v) = some r → r = .text "1" :=
    fun v r hr => h.values v r (hjoined.bans v r hr)
  refine ⟨hvalues, fun v k' hq => ?_, fun e he => ?_⟩
  · cases hr : p'.world.get (.moderationBan v) with
    | none => rfl
    | some r =>
        obtain ⟨joinedAt, user, -, -, hboard⟩ := hjoined.board
        rw [hboard, Board.queued_enter _ _ hjoined.named] at hq
        split at hq
        · next hv =>
            subst hv
            rw [hvalues v r hr] at hr
            exact absurd (hban _ hr) (by decide)
        · have hfree := h.waiting v k' hq
          rw [hjoined.bans v r hr] at hfree
          cases hfree
  · obtain ⟨t, ht, hplain⟩ := hjoined.plain
    rw [ht] at he
    rcases List.mem_append.mp he with he | he
    · exact not_matchesBanned (hplain e he).session
    · exact h.matched e he

theorem Unbanned.work {p p' : Past System} {k : QueueKey} (h : Unbanned p)
    (hworked : Worked k p.toSnap p'.toSnap) : Unbanned p' := by
  have hnever : ∀ u {w : World}, (board p.world).queued u = some k → BansFade p.world w →
      w.get (.moderationBan u) = none := by
    intro u w hq hbans
    cases hr : w.get (.moderationBan u) with
    | none => rfl
    | some r =>
        have hfree := h.waiting u k hq
        rw [hbans u r hr] at hfree
        cases hfree
  refine h.fade hworked.bans (fun u k' hq => hworked.paired.queued_of_queued hq)
    (hworked.creates.mono ?_)
  intro e hcreates hmatches
  obtain ⟨userA, userB, region, queueKey, hcmd, hbanned⟩ := hmatches.creates
  obtain ⟨hA, hB, hbans⟩ := hcreates userA userB region queueKey hcmd
  exact hbanned ⟨hnever userA hA hbans, hnever userB hB hbans⟩

theorem Unbanned.moderate {p p' : Past System} (h : Unbanned p)
    (hm : Moderated p.toSnap p'.toSnap) (hout : ∀ e ∈ p'.trace, BansOutsiders e) : Unbanned p' := by
  refine ⟨fun u r hr => ?_, fun u k hq => ?_, fun e he => ?_⟩
  · rcases hm.bans u r hr with hr | ⟨hone, -⟩
    · exact h.values u r hr
    · exact hone
  · cases hr : p'.world.get (.moderationBan u) with
    | none => rfl
    | some r =>
        rcases hm.bans u r hr with hr | ⟨-, t, ht, e, he, ⟨ttl, hcmd⟩, hwaiting, hstays⟩
        · have hfree := h.waiting u k (hm.queued u k hq)
          rw [hr] at hfree
          cases hfree
        · -- the ban was set while `u` had no entry, and `u` has joined no queue since
          have hnone : World.get e.before (.queueUser u) = none := by
            have hcond := hout e (by rw [ht]; exact List.mem_append_left _ he)
            unfold BansOutsiders at hcond
            rw [hcmd] at hcond
            exact hcond
          have hparse := hwaiting.parse_entry u
          rw [hnone, hstays k hq] at hparse
          cases hparse
  · obtain ⟨t, ht, hplain⟩ := hm.plain
    rw [ht] at he
    rcases List.mem_append.mp he with he | he
    · exact not_matchesBanned (hplain e he).session
    · exact h.matched e he

/-- **Step lemma.** -/
theorem Unbanned.called {o : Op} {r : Except Err o.Ret} {p p' : Past System} (h : Unbanned p)
    (hcalled : Called o r p p') (hout : ∀ e ∈ p'.trace, BansOutsiders e) : Unbanned p' := by
  have heffect := hcalled.effect
  have hunmoved : Unmoved p.toSnap p'.toSnap → Unbanned p' := fun hmoved =>
    h.fade hmoved.bans (fun u k hq => by rwa [hmoved.board] at hq)
      (hmoved.plain.mono fun _ hplain => not_matchesBanned hplain.session)
  cases o with
  | joinQueue u input =>
      obtain ⟨⟨hmoved, -⟩ | ⟨k, position, hr, hjoined⟩, hban⟩ := heffect
      · exact hunmoved hmoved
      · exact h.join hjoined (hban ⟨k, position, hr⟩)
  | leaveQueue u =>
      rcases heffect with ⟨hmoved, -⟩ | ⟨k, m, hleft, -⟩
      · exact hunmoved hmoved
      · refine h.fade hleft.bans (fun v k' hq => ?_)
          (hleft.found.mono fun _ hfound => not_matchesBanned hfound.2.1)
        rw [hleft.without.queued] at hq
        split at hq
        · cases hq
        · exact hq
  | processQueueKey k => exact h.work heffect
  | createReport reporterId input => exact h.moderate heffect hout
  | createBlock blockerId blockedId => exact h.moderate heffect hout
  | unblock blockerId blockedId => exact h.moderate heffect hout
  | resolveReport reportId action => exact h.moderate heffect hout
  | handleWebhook self sched payload delivery => exact h.moderate heffect hout

theorem unbanned_flushed (w : World) : Unbanned (Past.initial (flushed w)) where
  values u r hr := nomatch hr
  waiting u k hq := nomatch hq
  matched e he := by cases he

/-- **No banned user is matched** in a history that bans nobody who waits. -/
theorem banned_not_matched (w : World) (h : History)
    (hout : ∀ e ∈ (after w h).trace, BansOutsiders e) : ∀ e ∈ (after w h).trace, ¬MatchesBanned e := by
  refine ((history_induct (fun _ => true) (P := fun p =>
    (∀ e ∈ p.trace, BansOutsiders e) → Unbanned p) (fun _ => unbanned_flushed w)
    (fun o r p p' _ hcalled hP hout' => ?_) (fun p e _ hP hout' => ?_)
    (only_true h)).2 hout).matched
  · obtain ⟨t, ht⟩ := hcalled.trace
    exact (hP fun e he => hout' e (by rw [ht]; exact List.mem_append_right _ he)).called hcalled hout'
  · exact (hP hout').fade (fades_env p.world e).bans (fun u k hq => by rwa [board_env] at hq)
      (.refl _ _)

/-! ## A ban nobody sees -/

/-- Three users with five tokens each. -/
def people : World := World.peopled ["ann", "bob", "cat"] 5

def anywhere : QueueJoinInput := ⟨.undefined, .undefined, "p"⟩

/-- An operation is called and no time passes. -/
def instantly (o : Op) : Act System := .call o []

/-- cat reports ann, who is taken out of the queue and blocked. ann and bob
join; then the report is resolved with a ban. The block exists already, so
ann stays in the queue. -/
def bannedWhileWaiting : History :=
  [instantly (.createReport "cat" ⟨"ann", "spam", none⟩),
    instantly (.joinQueue "ann" anywhere),
    instantly (.joinQueue "bob" anywhere),
    instantly (.resolveReport (freshId 0) .ban),
    instantly (.processQueueKey "canberra:p")]

theorem banned_matched : ¬∀ e ∈ (after people bannedWhileWaiting).trace, ¬MatchesBanned e := by
  decide +kernel

/-- The same report, resolved before ann joins: her call is refused, and bob
is matched with cat. -/
def bannedBefore : History :=
  [instantly (.createReport "cat" ⟨"ann", "spam", none⟩),
    instantly (.resolveReport (freshId 0) .ban),
    instantly (.joinQueue "ann" anywhere),
    instantly (.joinQueue "bob" anywhere),
    instantly (.joinQueue "cat" anywhere),
    instantly (.processQueueKey "canberra:p")]

theorem banned_not_matched_bannedBefore :
    ((after people bannedBefore).world.db.sessions.map fun x => (x.userAId, x.userBId)) =
      [("bob", "cat")] ∧
    ∀ e ∈ (after people bannedBefore).trace, ¬MatchesBanned e :=
  ⟨by decide +kernel, banned_not_matched people bannedBefore (by decide +kernel)⟩

end VerityBackend.Matchmaking
