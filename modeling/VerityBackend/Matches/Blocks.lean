/-
VerityBackend.Matches.Blocks — what a user still reads of a partner once
there is a block between the two.

Four calls return profiles or messages of partners. `listMatches` drops the
partners of the unlifted blocks and `listMessages` refuses the conversation;
`getReveal`, and `acknowledgeReveal` which ends in it, do not look at the
blocks. Every profile that is returned is labelled with its user
(`OfAnother`), so the four results can be compared with one yardstick.
-/
import VerityBackend.Matches.Service
import VerityBackend.Chat.Service

namespace VerityBackend

/-- The columns are these two users, in either order. -/
def Match.isBetween (m : Match) (x y : UserId) : Prop :=
  (m.userAId = x ∧ m.userBId = y) ∨ (m.userAId = y ∧ m.userBId = x)

instance (m : Match) (x y : UserId) : Decidable (m.isBetween x y) :=
  inferInstanceAs (Decidable (_ ∨ _))

end VerityBackend

namespace VerityBackend.Matches

open Async

/-! ## The four calls -/

inductive ReadCall where
  | listMatches (blocksFirst : Bool)
  | getReveal (matchId : MatchId)
  | acknowledgeReveal (matchId : MatchId)
  | listMessages (matchId : MatchId) (limit : Option Int)
  deriving DecidableEq, Repr

abbrev ReadCall.Ret : ReadCall → Type
  | .listMatches _ => List MatchListItemPayload
  | .getReveal _ => MatchRevealPayload
  | .acknowledgeReveal _ => MatchRevealPayload
  | .listMessages _ _ => List Message

/-- The call as `userId` makes it. -/
def ReadCall.code (userId : UserId) : (call : ReadCall) → Prog call.Ret
  | .listMatches blocksFirst => Matches.listMatches blocksFirst userId
  | .getReveal matchId => Matches.getReveal matchId userId
  | .acknowledgeReveal matchId => Matches.acknowledgeReveal matchId userId
  | .listMessages matchId limit => Chat.listMessages matchId userId limit

/-- What `userId` gets. -/
def ReadCall.result (call : ReadCall) (userId : UserId) (w : World) : Except Err call.Ret :=
  ((call.code userId).run Cmd.exec w).1

/-- The call is about a match between the two; `listMatches` is about all
of them. -/
def ReadCall.About (d : Db) (u p : UserId) (call : ReadCall) : Prop :=
  let row (matchId : MatchId) : Prop :=
    ∃ m, d.matchRows.find? (·.id = matchId) = some m ∧ m.isBetween u p
  match call with
  | .listMatches _ => True
  | .getReveal matchId => row matchId
  | .acknowledgeReveal matchId => row matchId
  | .listMessages matchId _ => row matchId

/-- The profile of some user other than `p`. -/
def OfAnother (d : Db) (p : UserId) (reveal : PartnerReveal) : Prop :=
  ∃ q profile, q ≠ p ∧ d.users q = some profile ∧ reveal = buildPartnerReveal q profile

/-- So is the profile of this answer, where it is no error. -/
def RevealsAnother (d : Db) (p : UserId) : Except Err MatchRevealPayload → Prop
  | .ok payload => OfAnother d p payload.partnerReveal
  | .error _ => True

/-- Every profile is another user's, every message was sent by another
user. -/
def ReadCall.Hides (d : Db) (p : UserId) : (call : ReadCall) → Except Err call.Ret → Prop
  | .listMatches _, .ok items =>
      ∀ item ∈ items, ∀ reveal, item.partnerReveal = some reveal → OfAnother d p reveal
  | .listMatches _, .error _ => True
  | .getReveal _, answer => RevealsAnother d p answer
  | .acknowledgeReveal _, answer => RevealsAnother d p answer
  | .listMessages _ _, .ok messages => ∀ message ∈ messages, message.senderId ≠ p
  | .listMessages _ _, .error _ => True

/-- The calls that end in the profile of one match. -/
def ReadCall.isReveal : ReadCall → Bool
  | .getReveal _ => true
  | .acknowledgeReveal _ => true
  | _ => false

/-! ## The list leaves blocked partners out -/

section Listing

variable {d : Db} {u p : UserId} {w : World}

theorem mem_blockedUserIds {b : Block} {rows : List Block} (hmem : b ∈ rows)
    (hb : b.isBetween u p = true) : p ∈ blockedUserIds u rows := by
  unfold blockedUserIds
  refine List.mem_map.mpr ⟨b, hmem, ?_⟩
  simp only [Block.isBetween, Bool.and_eq_true, Bool.or_eq_true, beq_iff_eq] at hb
  obtain ⟨-, ⟨hu, hp⟩ | ⟨hp, hu⟩⟩ := hb
  · rw [if_pos hu, hp]
  · by_cases hself : b.blockerId = u
    · rw [if_pos hself, hu, ← hself, hp]
    · rw [if_neg hself, hp]

/-- `findMany` of the blocks of a user returns this one. -/
theorem mem_blockFindMany {b : Block} (hmem : b ∈ d.blocks) (hb : b.isBetween u p = true) :
    b ∈ d.blocks.filter fun b => b.liftedAt.isNone ∧ (b.blockerId = u ∨ b.blockedId = u) := by
  simp only [Block.isBetween, Bool.and_eq_true, Bool.or_eq_true, beq_iff_eq] at hb
  obtain ⟨hlifted, ⟨hu, -⟩ | ⟨-, hu⟩⟩ := hb
  · simp [hmem, Option.isNone_iff_eq_none.mp hlifted, hu]
  · simp [hmem, Option.isNone_iff_eq_none.mp hlifted, hu]

theorem visible_ne {rows : List Match} {blocks : List Block} {v : VisibleMatch}
    (hblocked : p ∈ blockedUserIds u blocks) (hv : v ∈ visibleMatches u rows blocks) :
    v.partnerUserId ≠ p := by
  rintro rfl
  have hnot := (List.mem_filter.mp hv).2
  simp only [decide_eq_true_eq] at hnot
  exact hnot hblocked

/-- The two reads, in either order. -/
theorem run_readMatches (blocksFirst : Bool) (w : World) (u : UserId) :
    (readMatches blocksFirst u).run Cmd.exec w =
      (.ok (Db.latestFirst (·.createdAt)
          (w.db.matchRows.filter fun m => m.userAId = u ∨ m.userBId = u),
        w.db.blocks.filter fun b => b.liftedAt.isNone ∧ (b.blockerId = u ∨ b.blockedId = u)), w) := by
  cases blocksFirst <;> rfl

/-- What `findMany` has read of a user. -/
theorem lookup_findMany (d : Db) (ids : List UserId) (q : UserId) :
    (ids.filterMap fun id => (d.users id).map fun user => (id, user)).lookup q =
      if q ∈ ids then d.users q else none := by
  induction ids with
  | nil => rfl
  | cons id ids ih =>
      cases hid : d.users id with
      | none =>
          rw [List.filterMap_cons_none (by rw [hid]; rfl), ih]
          by_cases hq : q = id
          · subst hq
            simp [hid]
          · simp [hq]
      | some user =>
          rw [List.filterMap_cons_some (by rw [hid]; rfl), List.lookup_cons]
          by_cases hq : q = id
          · subst hq
            simp [hid]
          · rw [beq_false_of_ne hq]
            simp [hq, ih]

theorem run_readProfiles (w : World) (ids : List UserId) :
    (readProfiles ids).run Cmd.exec w =
      (.ok (ids.filterMap fun id => (w.db.users id).map fun user => (id, user)), w) := by
  unfold readProfiles
  cases ids <;> rfl

/-- A revealed item shows the profile of its partner. -/
theorem listItem_reveal {profiles : List (UserId × User)} {v : VisibleMatch} {reveal : PartnerReveal}
    (h : (listItem profiles v).partnerReveal = some reveal) :
    ∃ profile, profiles.lookup v.partnerUserId = some profile ∧
      reveal = buildPartnerReveal v.partnerUserId profile := by
  unfold listItem at h
  simp only at h
  split at h
  · obtain ⟨profile, hprofile, hreveal⟩ := Option.map_eq_some_iff.mp h
    exact ⟨profile, hprofile, hreveal.symm⟩
  · cases h

theorem listMatches_hides {b : Block} (hmem : b ∈ w.db.blocks) (hb : b.isBetween u p = true)
    (blocksFirst : Bool) :
    (ReadCall.listMatches blocksFirst).Hides w.db p
      ((ReadCall.listMatches blocksFirst).result u w) := by
  unfold ReadCall.result ReadCall.code listMatches
  simp only [Proc.bind_eq, Proc.run_bind, run_readMatches, run_readProfiles]
  intro item hitem reveal hreveal
  obtain ⟨v, hv, rfl⟩ := List.mem_map.mp hitem
  obtain ⟨profile, hlookup, rfl⟩ := listItem_reveal hreveal
  rw [lookup_findMany] at hlookup
  have hblocked := mem_blockedUserIds (mem_blockFindMany hmem hb) hb
  refine ⟨v.partnerUserId, profile, visible_ne hblocked hv, ?_, rfl⟩
  split at hlookup
  · exact hlookup
  · cases hlookup

end Listing

/-! ## The conversation is refused -/

section Conversation

variable {w : World} {u p : UserId} {matchId : MatchId} {m : Match}

theorem Block.isBetween_comm (b : Block) (x y : UserId) : b.isBetween x y = b.isBetween y x := by
  unfold Block.isBetween
  rw [Bool.or_comm]

theorem blocked_of_isBetween {b : Block} (hmem : b ∈ w.db.blocks) (hb : b.isBetween u p = true)
    (hm : m.isBetween u p) : (w.db.findBlockBetween m.userAId m.userBId).isSome = true := by
  refine List.find?_isSome.mpr ⟨b, hmem, ?_⟩
  obtain ⟨hA, hB⟩ | ⟨hA, hB⟩ := hm
  · rw [hA, hB]
    exact hb
  · rw [hA, hB, Block.isBetween_comm]
    exact hb

theorem isBetween_mine (hm : m.isBetween u p) : m.userAId = u ∨ m.userBId = u := by
  obtain ⟨hA, -⟩ | ⟨-, hB⟩ := hm
  · exact .inl hA
  · exact .inr hB

/-- The row is found before the blocks are looked at. -/
theorem run_getMatchForUser (hfind : w.db.matchRows.find? (·.id = matchId) = some m)
    (hm : m.isBetween u p) :
    (Chat.getMatchForUser matchId u).run Cmd.exec w = (.ok (some m), w) := by
  have hmine : ¬(m.userAId ≠ u ∧ m.userBId ≠ u) := by
    intro h
    exact (isBetween_mine hm).elim h.1 h.2
  unfold Chat.getMatchForUser
  simp only [Proc.bind_eq, Proc.run_bind, Proc.run_await, Cmd.exec_db, DbCmd.exec, hfind,
    if_neg hmine]
  rfl

theorem run_assertNotBlocked {x y : UserId} (h : (w.db.findBlockBetween x y).isSome = true) :
    (Chat.assertNotBlocked x y).run Cmd.exec w =
      (.error (.forbidden "Conversation unavailable"), w) := by
  unfold Chat.assertNotBlocked
  simp only [Proc.bind_eq, Proc.run_bind, Proc.run_await, Cmd.exec_db, DbCmd.exec,
    Option.isSome_map, h, if_true]
  rfl

theorem listMessages_refused {b : Block} (hmem : b ∈ w.db.blocks) (hb : b.isBetween u p = true)
    (hfind : w.db.matchRows.find? (·.id = matchId) = some m) (hm : m.isBetween u p)
    (limit : Option Int) :
    (Chat.listMessages matchId u limit).run Cmd.exec w =
      (.error (.forbidden "Conversation unavailable"), w) := by
  unfold Chat.listMessages Chat.openMatch
  simp only [Proc.bind_eq, Proc.run_bind, run_getMatchForUser hfind hm,
    run_assertNotBlocked (blocked_of_isBetween hmem hb hm)]

end Conversation

/-! ## The reveal is not -/

section Reveal

variable {w : World} {u p : UserId} {matchId : MatchId} {m : Match}

/-- The call shows the profile of `p`, or it fails because the row lacks one
of its users. -/
def Reveals (d : Db) (u p : UserId) : Except Err MatchRevealPayload → Prop
  | .ok payload =>
      d.hasUser u = true ∧ d.hasUser p = true ∧
        ∃ profile, payload.partnerReveal = buildPartnerReveal p profile
  | .error _ => ¬(d.hasUser u = true ∧ d.hasUser p = true)

theorem resolveParticipantSide_between (hm : m.isBetween u p) :
    ∃ side, resolveParticipantSide m u = .ok side ∧ partnerOf m side = p := by
  unfold resolveParticipantSide
  by_cases hA : m.userAId = u
  · refine ⟨.A, if_pos hA, ?_⟩
    obtain ⟨-, hB⟩ | ⟨hp, hu⟩ := hm
    · exact hB
    · exact hu.trans (hA.symm.trans hp)
  · obtain ⟨hA', -⟩ | ⟨hp, hB⟩ := hm
    · exact absurd hA' hA
    · exact ⟨.B, by rw [if_neg hA, if_pos hB], hp⟩

theorem revealPayload_partner {userA userB : User} (side : Side) :
    ∃ profile, (revealPayload m userA userB side).partnerReveal =
      buildPartnerReveal (partnerOf m side) profile := by
  cases side
  · exact ⟨userB, rfl⟩
  · exact ⟨userA, rfl⟩

/-- Both users of the row exist or one of the two does not. -/
theorem hasUser_between {d : Db} (hm : m.isBetween u p) :
    (d.hasUser u = true ∧ d.hasUser p = true) ↔
      (d.hasUser m.userAId = true ∧ d.hasUser m.userBId = true) := by
  obtain ⟨rfl, rfl⟩ | ⟨rfl, rfl⟩ := hm
  · exact Iff.rfl
  · exact And.comm

theorem getReveal_reveals (hfind : w.db.matchRows.find? (·.id = matchId) = some m)
    (hm : m.isBetween u p) : Reveals w.db u p ((getReveal matchId u).run Cmd.exec w).1 := by
  obtain ⟨side, hside, hpartner⟩ := resolveParticipantSide_between hm
  unfold getReveal
  simp only [Proc.bind_eq, Proc.run_bind, Proc.run_await, Cmd.exec_db, DbCmd.exec, hfind]
  cases hA : w.db.users m.userAId with
  | none =>
      refine fun h => ?_
      have := ((hasUser_between hm).mp h).1
      simp [Db.hasUser, hA] at this
  | some userA =>
      cases hB : w.db.users m.userBId with
      | none =>
          refine fun h => ?_
          have := ((hasUser_between hm).mp h).2
          simp [Db.hasUser, hB] at this
      | some userB =>
          have husers := (hasUser_between (d := w.db) hm).mpr
            ⟨by simp [Db.hasUser, hA], by simp [Db.hasUser, hB]⟩
          obtain ⟨profile, hprofile⟩ := @revealPayload_partner m userA userB side
          simp only [hside]
          exact ⟨husers.1, husers.2, profile, hprofile.trans (by rw [hpartner])⟩

/-- An update that keeps the ids finds the updated row. -/
theorem find?_map_row {f : Match → Match} (hid : ∀ r, (f r).id = r.id) (rows : List Match) :
    (rows.map f).find? (·.id = matchId) = (rows.find? (·.id = matchId)).map f := by
  rw [List.find?_map]
  congr 2
  funext r
  simp only [Function.comp, hid]

/-- The row that is found after the acknowledgement has the same two
users. -/
theorem find?_acknowledge {d : Db} (id : MatchId) (side : Side) (now : Nat)
    (hfind : d.matchRows.find? (·.id = matchId) = some m) (hm : m.isBetween u p) :
    ∃ m', (d.acknowledge id side now).matchRows.find? (·.id = matchId) = some m' ∧
      m'.isBetween u p := by
  unfold Db.acknowledge
  rw [find?_map_row, hfind]
  · refine ⟨_, rfl, ?_⟩
    by_cases hr : m.id = id
    · simp only [if_pos hr]
      cases side <;> exact hm
    · simp only [if_neg hr]
      exact hm
  · intro r
    by_cases hr : r.id = id
    · simp only [if_pos hr]
      cases side <;> rfl
    · simp only [if_neg hr]

theorem run_acknowledgeSide (side : Side) (now : Nat)
    (hfind : w.db.matchRows.find? (·.id = matchId) = some m) (hm : m.isBetween u p) :
    ∃ w', (acknowledgeSide m side now).run Cmd.exec w = (.ok (), w') ∧
      w'.db.users = w.db.users ∧
      ∃ m', w'.db.matchRows.find? (·.id = matchId) = some m' ∧ m'.isBetween u p := by
  unfold acknowledgeSide
  split
  · have hany : w.db.matchRows.any (·.id = m.id) = true :=
      List.any_eq_true.mpr ⟨m, List.mem_of_find?_eq_some hfind, by simp⟩
    refine ⟨w.mapDb (·.acknowledge m.id side now), ?_, rfl, find?_acknowledge m.id side now hfind hm⟩
    simp only [Proc.run_await, Cmd.exec_db, DbCmd.exec, hany, if_true]
  · exact ⟨w, rfl, rfl, m, hfind, hm⟩

theorem acknowledgeReveal_reveals (hfind : w.db.matchRows.find? (·.id = matchId) = some m)
    (hm : m.isBetween u p) : Reveals w.db u p ((acknowledgeReveal matchId u).run Cmd.exec w).1 := by
  obtain ⟨side, hside, -⟩ := resolveParticipantSide_between hm
  obtain ⟨w', hrun, husers, m', hfind', hm'⟩ := run_acknowledgeSide side w.clock hfind hm
  have hreveals := getReveal_reveals hfind' hm'
  unfold acknowledgeReveal
  simp only [Proc.bind_eq, Proc.run_bind, Proc.run_await, Cmd.exec_db, Cmd.exec_host, DbCmd.exec,
    HostCmd.exec, hfind, hside, hrun]
  revert hreveals
  cases ((getReveal matchId u).run Cmd.exec w').1 <;>
    simp only [Reveals, Db.hasUser, husers, imp_self]

theorem revealsAnother_iff {r : Except Err MatchRevealPayload} (h : Reveals w.db u p r) :
    RevealsAnother w.db p r ↔ ¬(w.db.hasUser u = true ∧ w.db.hasUser p = true) := by
  cases r with
  | error e => exact iff_of_true trivial h
  | ok payload =>
      obtain ⟨hu, hp, profile, hprofile⟩ := h
      refine iff_of_false ?_ (fun hnot => hnot ⟨hu, hp⟩)
      rintro ⟨q, user, hq, -, heq⟩
      rw [hprofile] at heq
      exact hq (congrArg PartnerReveal.id heq).symm

end Reveal

/-! ## All four -/

/-- With a block between the two, a call of `u` hides `p` unless it is a
reveal of their match. -/
theorem block_hides_partner_iff {w : World} {u p : UserId} {call : ReadCall}
    (hblock : ∃ b ∈ w.db.blocks, b.isBetween u p = true) (habout : call.About w.db u p) :
    call.Hides w.db p (call.result u w) ↔
      ¬(call.isReveal = true ∧ w.db.hasUser u = true ∧ w.db.hasUser p = true) := by
  obtain ⟨b, hmem, hb⟩ := hblock
  cases call with
  | listMatches blocksFirst =>
      exact iff_of_true (listMatches_hides hmem hb blocksFirst) (fun h => by cases h.1)
  | getReveal matchId =>
      obtain ⟨m, hfind, hm⟩ := habout
      exact (revealsAnother_iff (getReveal_reveals hfind hm)).trans (by simp [ReadCall.isReveal])
  | acknowledgeReveal matchId =>
      obtain ⟨m, hfind, hm⟩ := habout
      exact (revealsAnother_iff (acknowledgeReveal_reveals hfind hm)).trans
        (by simp [ReadCall.isReveal])
  | listMessages matchId limit =>
      obtain ⟨m, hfind, hm⟩ := habout
      refine iff_of_true ?_ (fun h => by cases h.1)
      unfold ReadCall.result ReadCall.code
      rw [listMessages_refused hmem hb hfind hm]
      trivial

/-- `ann` and `bob`, matched; `ann` has acknowledged the reveal, and
blocked `bob` since. -/
def blockedMatch : World :=
  let profile (name : String) : User := ⟨.USER, 0, some name, none, some 30, some "hi"⟩
  { World.empty with
    db := { Db.empty with
      users := fun id =>
        if id = "ann" then some (profile "Ann") else if id = "bob" then some (profile "Bob") else none
      matchRows := [⟨"m", "ann", "bob", 0, some 1, none⟩]
      messages := [⟨"hello", 2, "m", "bob", "hello"⟩]
      blocks := [⟨"b", "ann", "bob", 3, none⟩] } }

theorem block_hides_partner_iff_listing :
    (∃ b ∈ blockedMatch.db.blocks, b.isBetween "ann" "bob" = true) ∧
      (ReadCall.listMatches false).About blockedMatch.db "ann" "bob" ∧
      (ReadCall.listMatches false).Hides blockedMatch.db "bob"
        ((ReadCall.listMatches false).result "ann" blockedMatch) := by
  have hblock : ∃ b ∈ blockedMatch.db.blocks, b.isBetween "ann" "bob" = true := by decide
  exact ⟨hblock, trivial,
    (@block_hides_partner_iff blockedMatch "ann" "bob" (.listMatches false) hblock trivial).mpr
      (fun h => by cases h.1)⟩

/-- `getReveal` shows the profile of the blocked partner. -/
theorem reveal_ignores_block :
    ¬∀ (w : World) (u p : UserId) (call : ReadCall),
      (∃ b ∈ w.db.blocks, b.isBetween u p = true) → call.About w.db u p →
        call.Hides w.db p (call.result u w) := by
  intro h
  have hhides := h blockedMatch "ann" "bob" (.getReveal "m") (by decide)
    ⟨_, rfl, .inl ⟨rfl, rfl⟩⟩
  obtain ⟨q, profile, hq, -, heq⟩ := hhides
  exact hq (congrArg PartnerReveal.id heq).symm

end VerityBackend.Matches
