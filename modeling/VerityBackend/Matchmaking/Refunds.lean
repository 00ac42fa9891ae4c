/-
VerityBackend.Matchmaking.Refunds — when does leaving give the token back?

The records of a history say whether a user still waits for the token of the
last join (`waitsSince`): nobody has been paired with the user since, and the
user has not left. `leaveQueue` decides by something else, the mark
`queue:matched:<id>`. It lives for an hour and outlasts the join it was
written for, so a user who is matched, joins again and leaves within the hour
gets nothing (`leave_keeps_token`). `leave_refunds_iff` is the exact
condition.
-/
import VerityBackend.Matchmaking.Bans

namespace VerityBackend.Matchmaking

open Async Store Queue

/-! ## What the records say -/

/-- The call let `u` into a queue. -/
def lets (u : UserId) : Record System → Bool
  | ⟨.joinQueue v _, .ok (.queued _ _), _, _⟩ => v = u
  | _ => false

/-- The call took `u` out of a queue. -/
def leaves (u : UserId) : Record System → Bool
  | ⟨.leaveQueue v, .ok result, _, _⟩ => v = u && result.status ≠ .not_queued
  | _ => false

/-- The call made a session with `u`. -/
def pairs (u : UserId) (r : Record System) : Bool :=
  (World.db r.after).sessions.drop (World.db r.before).sessions.length |>.any (takesPart u)

/-- The calls after the last one that let `u` in, the newest first. -/
def sinceJoin (u : UserId) : List (Record System) → Option (List (Record System))
  | [] => none
  | r :: rs => if lets u r then some [] else (sinceJoin u rs).map (r :: ·)

/-- The last join of `u` was followed by neither a session nor a leave. -/
def waitsSince (u : UserId) (done : List (Record System)) : Prop :=
  ∃ rs, sinceJoin u done = some rs ∧ rs.any (pairs u) = false ∧ rs.any (leaves u) = false

theorem sinceJoin_cons {u : UserId} {r : Record System} (h : lets u r = false)
    (done : List (Record System)) : sinceJoin u (r :: done) = (sinceJoin u done).map (r :: ·) := by
  rw [sinceJoin, h, if_neg Bool.false_ne_true]

theorem waitsSince_cons {u : UserId} {r : Record System} (h : lets u r = false)
    (done : List (Record System)) : waitsSince u (r :: done) ↔
      waitsSince u done ∧ pairs u r = false ∧ leaves u r = false := by
  unfold waitsSince
  rw [sinceJoin_cons h]
  constructor
  · rintro ⟨rs, hrs, hpairs, hleaves⟩
    obtain ⟨rs', hrs', rfl⟩ := Option.map_eq_some_iff.mp hrs
    rw [List.any_cons, Bool.or_eq_false_iff] at hpairs hleaves
    exact ⟨⟨rs', hrs', hpairs.2, hleaves.2⟩, hpairs.1, hleaves.1⟩
  · rintro ⟨⟨rs, hrs, hpairs, hleaves⟩, hpair, hleave⟩
    refine ⟨r :: rs, by rw [hrs]; rfl, ?_, ?_⟩
    · rw [List.any_cons, hpair, hpairs]
      rfl
    · rw [List.any_cons, hleave, hleaves]
      rfl

theorem waitsSince_join {u : UserId} {r : Record System} (h : lets u r = true)
    (done : List (Record System)) : waitsSince u (r :: done) :=
  ⟨[], by rw [sinceJoin, if_pos h], rfl, rfl⟩

/-! ## They agree with the board -/

def queueOps : Op → Bool
  | .joinQueue _ _ => true
  | .leaveQueue _ => true
  | .processQueueKey _ => true
  | _ => false

/-- Who waits, by the board and by the records. -/
def Tracked (u : UserId) (p : Past System) : Prop :=
  ((board p.world).queued u).isSome ↔ waitsSince u p.done

theorem pairs_same {u : UserId} {r : Record System}
    (h : (World.db r.after).sessions = (World.db r.before).sessions) : pairs u r = false := by
  unfold pairs
  rw [h, List.drop_length]
  rfl

section Called

variable {u : UserId} {o : Op} {r : Except Err o.Ret} {p p' : Past System}

/-- Nothing happens to `u`. -/
theorem Tracked.same (h : Tracked u p) (hcalled : Called o r p p')
    (hqueued : (board p'.world).queued u = (board p.world).queued u)
    (hlets : lets u ⟨o, r, p.world, p'.world⟩ = false)
    (hpairs : pairs u ⟨o, r, p.world, p'.world⟩ = false)
    (hleaves : leaves u ⟨o, r, p.world, p'.world⟩ = false) : Tracked u p' := by
  unfold Tracked at h ⊢
  rw [hqueued, hcalled.done, waitsSince_cons hlets, hpairs, hleaves, h]
  simp

/-- `u` is paired, or leaves. -/
theorem tracked_gone (hcalled : Called o r p p') (hqueued : (board p'.world).queued u = none)
    (hlets : lets u ⟨o, r, p.world, p'.world⟩ = false)
    (hgone : pairs u ⟨o, r, p.world, p'.world⟩ = true ∨ leaves u ⟨o, r, p.world, p'.world⟩ = true) :
    Tracked u p' := by
  unfold Tracked
  rw [hqueued, hcalled.done, waitsSince_cons hlets]
  simp only [Option.isSome_none, Bool.false_eq_true, false_iff, not_and]
  rintro - hpairs hleaves
  rcases hgone with hgone | hgone
  · rw [hgone] at hpairs
    cases hpairs
  · rw [hgone] at hleaves
    cases hleaves

end Called

theorem lets_of_ne {u v : UserId} (h : v ≠ u) (input : QueueJoinInput)
    (r : Except Err QueueJoinResult) (w w' : World) :
    lets u ⟨.joinQueue v input, r, w, w'⟩ = false := by
  rcases r with e | result
  · rfl
  · cases result with
    | queued k position => simpa [lets] using h
    | already_queued k position => rfl

/-- **Step lemma.** -/
theorem Tracked.called {u : UserId} {o : Op} {r : Except Err o.Ret} {p p' : Past System}
    (hop : queueOps o = true) (h : Tracked u p) (hcalled : Called o r p p') : Tracked u p' := by
  have heffect := hcalled.effect
  cases o with
  | joinQueue v input =>
      obtain ⟨⟨hmoved, hr⟩ | ⟨k, position, rfl, hjoined⟩, -⟩ := heffect
      · refine h.same hcalled (by rw [hmoved.board]) ?_ (pairs_same (congrArg Board.sessions hmoved.board)) rfl
        rcases r with e | ⟨k, position⟩ | ⟨k, position⟩
        · rfl
        · exact absurd rfl (hr k position)
        · rfl
      · obtain ⟨joinedAt, user, -, -, hboard⟩ := hjoined.board
        have hqueued := Board.queued_enter ((board p.world).setUser v
          { user with tokenBalance := user.tokenBalance - 1 }) v hjoined.named joinedAt u
        rw [← hboard] at hqueued
        by_cases hv : v = u
        · subst hv
          rw [if_pos rfl] at hqueued
          unfold Tracked
          rw [hqueued, hcalled.done]
          exact iff_of_true rfl (waitsSince_join (by simp [lets]) _)
        · rw [if_neg (Ne.symm hv)] at hqueued
          exact h.same hcalled hqueued (lets_of_ne hv input _ _ _)
            (pairs_same (congrArg Board.sessions hboard)) rfl
  | leaveQueue v =>
      rcases heffect with ⟨hmoved, -, rfl⟩ | ⟨k, m, hleft, rfl⟩
      · refine h.same hcalled (by rw [hmoved.board]) rfl (pairs_same (congrArg Board.sessions hmoved.board)) ?_
        simp [leaves]
      · have hqueued := hleft.without.queued u
        by_cases hv : v = u
        · subst hv
          rw [if_pos rfl] at hqueued
          refine tracked_gone hcalled hqueued rfl (.inr ?_)
          cases m <;> simp [leaves]
        · rw [if_neg (Ne.symm hv)] at hqueued
          refine h.same hcalled hqueued rfl (pairs_same hleft.without.sessions) ?_
          simp [leaves, hv]
  | processQueueKey k =>
      have hworked : Worked k p.toSnap p'.toSnap := heffect
      obtain ⟨new, hsessions, -, hqueued⟩ := hworked.paired.matched
      have hpairs : pairs u ⟨.processQueueKey k, r, p.world, p'.world⟩ = new.any (takesPart u) := by
        change ((World.db p'.world).sessions.drop _).any (takesPart u) = _
        rw [show (World.db p'.world).sessions = (World.db p.world).sessions ++ new from hsessions,
          List.drop_left]
      have hqueued := hqueued u
      cases hnew : new.any (takesPart u) with
      | true =>
          rw [hnew, if_pos rfl] at hqueued
          exact tracked_gone hcalled hqueued rfl (.inl (hpairs.trans hnew))
      | false =>
          rw [hnew, if_neg Bool.false_ne_true] at hqueued
          exact h.same hcalled hqueued rfl (hpairs.trans hnew) rfl
  | createReport reporterId input => cases hop
  | createBlock blockerId blockedId => cases hop
  | unblock blockerId blockedId => cases hop
  | resolveReport reportId action => cases hop
  | handleWebhook self sched payload delivery => cases hop

theorem tracked_after (w : World) {h : History} (hops : Only queueOps h = true) (u : UserId) :
    Tracked u (after w h) := by
  refine (history_induct queueOps (P := Tracked u) ?_ ?_ ?_ hops).2
  · refine iff_of_false (by simp [Past.initial, board, flushed, Board.queued, World.stored]; rfl) ?_
    rintro ⟨rs, hrs, -⟩
    cases hrs
  · exact fun o r p p' hop hcalled hP => hP.called hop hcalled
  · intro p e _ hP
    unfold Tracked at hP ⊢
    rwa [board_env]

/-! ## The refund -/

def balance (u : UserId) (w : World) : Option Nat := (w.db.users u).map (·.tokenBalance)

/-- `u` has left and has the token back. -/
def Refunded (u : UserId) (result : QueueLeaveResult) (w w' : World) : Prop :=
  result.status = .left ∧ result.refunded = true ∧
    ∃ n, balance u w = some n ∧ balance u w' = some (n + 1)

/-- Whoever asked for the mark of `u` in between found none. -/
def NoMark (u : UserId) (s s' : Snap System) : Prop := s.Between (fun e => findsMark u e = false) s'

theorem noMark_of_found {u : UserId} {s s' : Snap System} (h : Found u false s s') :
    NoMark u s s' := by
  refine h.mono fun e hfound => ?_
  unfold findsMark
  split
  · next v hcmd =>
      by_cases hv : v = u
      · subst hv
        simpa using hfound.1 hcmd
      · simp [hv]
  · rfl

/-- **When leaving refunds.** After the last join of `u` and the calls `rs`
that followed it: where `u` has been matched since, a call of `leaveQueue`
gives nothing back; otherwise it gives the token back exactly if `u` has not
left since and the call finds no mark. -/
theorem leave_refunds_iff (w : World) (h : History) (hops : Only queueOps h = true) (u : UserId)
    (gaps : List (List Env)) (rs : List (Record System))
    (hjoin : sinceJoin u (after w h).done = some rs) :
    ∃ result, ((after w h).call (.leaveQueue u) gaps).done =
        ⟨.leaveQueue u, .ok result, (after w h).world, ((after w h).call (.leaveQueue u) gaps).world⟩ ::
          (after w h).done ∧
      (rs.any (pairs u) = true → result.refunded = false ∧
        balance u ((after w h).call (.leaveQueue u) gaps).world = balance u (after w h).world) ∧
      (rs.any (pairs u) = false →
        (Refunded u result (after w h).world ((after w h).call (.leaveQueue u) gaps).world ↔
          rs.any (leaves u) = false ∧
            NoMark u (after w h).toSnap ((after w h).call (.leaveQueue u) gaps).toSnap)) := by
  have htracked : ((board (after w h).world).queued u).isSome ↔ waitsSince u (after w h).done :=
    tracked_after w hops u
  obtain ⟨r, hcalled⟩ := Past.called (settled_after w h) (.leaveQueue u) gaps
  set p := after w h
  set p' := p.call (.leaveQueue u) gaps
  rcases hcalled.effect with ⟨hmoved, hnone, rfl⟩ | ⟨k, m, hleft, rfl⟩
  · -- there is no entry: `u` has been matched, or has left
    have hgone : ¬waitsSince u p.done := by
      rw [← htracked, hnone]
      nofun
    have hsame : (board p'.world).users = (board p.world).users := congrArg Board.users hmoved.board
    have hbalance : balance u p'.world = balance u p.world := by
      change ((board p'.world).users u).map _ = ((board p.world).users u).map _
      rw [hsame]
    refine ⟨_, hcalled.done, fun _ => ⟨rfl, hbalance⟩, fun hpairs => ?_⟩
    refine iff_of_false (fun hrefunded => nomatch hrefunded.1) fun ⟨hleaves, _⟩ => hgone ?_
    exact ⟨rs, hjoin, hpairs, hleaves⟩
  · have hwaits : waitsSince u p.done := by
      rw [← htracked, hleft.queued]
      rfl
    obtain ⟨rs', hrs', hpairs, hleaves⟩ := hwaits
    cases hjoin.symm.trans hrs'
    obtain ⟨user, huser, husers⟩ := hleft.users
    refine ⟨_, hcalled.done, fun hmatched => ?_, fun _ => ?_⟩
    · rw [hpairs] at hmatched
      cases hmatched
    cases m with
    | true =>
        refine iff_of_false (fun hrefunded => nomatch hrefunded.1) fun ⟨_, hnoMark⟩ => ?_
        -- the call asked for the mark, and found one
        obtain ⟨t, ht, e, he, hcmd⟩ := hleft.asked
        obtain ⟨t', ht', hfound⟩ := hleft.found
        obtain ⟨t'', ht'', hnot⟩ := hnoMark
        cases List.append_cancel_right (ht.symm.trans ht')
        cases List.append_cancel_right (ht.symm.trans ht'')
        have htrue := (hfound e he).1 hcmd
        rw [← findsMark_of_cmd hcmd, hnot e he] at htrue
        cases htrue
    | false =>
        refine iff_of_true ⟨rfl, rfl, user.tokenBalance, ?_, ?_⟩ ⟨hleaves, noMark_of_found hleft.found⟩
        · exact congrArg (Option.map (·.tokenBalance)) huser
        · change ((board p'.world).users u).map (·.tokenBalance) = _
          rw [husers]
          simp [Board.setUser]

/-- ann is matched with bob and joins again at once. -/
def matchedAndBack : History :=
  [instantly (.joinQueue "ann" anywhere), instantly (.joinQueue "bob" anywhere),
    instantly (.processQueueKey "canberra:p"), instantly (.joinQueue "ann" anywhere)]

/-- The mark of the match is still there when ann leaves: nothing is given
back. -/
theorem leave_keeps_token : ¬∀ gaps rs, sinceJoin "ann" (after people matchedAndBack).done = some rs →
    rs.any (pairs "ann") = false → ∃ result, Refunded "ann" result (after people matchedAndBack).world
      ((after people matchedAndBack).call (.leaveQueue "ann") gaps).world := by
  intro h
  obtain ⟨result, -, -, n, hbefore, hafter⟩ := h [] [] rfl rfl
  have hsame : balance "ann" ((after people matchedAndBack).call (.leaveQueue "ann") []).world =
      balance "ann" (after people matchedAndBack).world := by decide +kernel
  rw [hsame, hbefore] at hafter
  have hnext := Option.some.inj hafter
  omega

/-- An hour after the match the mark is gone. -/
def matchedAndBackLater : History :=
  [instantly (.joinQueue "ann" anywhere), instantly (.joinQueue "bob" anywhere),
    instantly (.processQueueKey "canberra:p"), .env (.tick MATCHED_TTL_MS),
    instantly (.joinQueue "ann" anywhere)]

theorem leave_refunds_iff_later : ∃ result, Refunded "ann" result
    (after people matchedAndBackLater).world
    ((after people matchedAndBackLater).call (.leaveQueue "ann") []).world := by
  obtain ⟨result, -, -, hiff⟩ := leave_refunds_iff people matchedAndBackLater (by decide) "ann" [] []
    rfl
  refine ⟨result, (hiff rfl).mpr ⟨rfl, (Snap.Between.iff_take ?_).mpr (by decide +kernel)⟩⟩
  exact Proc.runGapped_trace _ _ _ _

end VerityBackend.Matchmaking
