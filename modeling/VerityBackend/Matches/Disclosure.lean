/-
VerityBackend.Matches.Disclosure — whose profile `listMatches` shows.

The profiles are read by one list of ids, without repetitions, and joined
back through a map. An item shows the profile of its own partner or none
(`run_listMatches`), and the list is the same whatever the profiles of the
users who are not to be disclosed (`Undisclosed`).
-/
import VerityBackend.Backend.MatchRows
import VerityBackend.Backend.Profiles
import VerityBackend.Matches.Blocks

namespace VerityBackend.Matches

open Async

/-! ## What is not to be disclosed -/

/-- The user has acknowledged no match with `p`, or a block that is not
lifted is between the two. -/
def Undisclosed (d : Db) (userId p : UserId) : Prop :=
  (∀ m ∈ d.matchRows, m.isBetween userId p → ¬m.acknowledgedBy userId) ∨
    ∃ b ∈ d.blocks, b.isBetween userId p = true

/-- The worlds differ in profiles only, of users who are not to be
disclosed. -/
structure AgreesFor (userId : UserId) (w w' : World) : Prop where
  others : { w' with db := { w'.db with users := w.db.users } } = w
  profiles : ∀ id, ∃ profile, w'.db.users id = (w.db.users id).map (dressUser id profile id)
  disclosed : ∀ id, ¬Undisclosed w.db userId id → w'.db.users id = w.db.users id

/-- Another profile for one such user. -/
theorem agreesFor_dress {userId p : UserId} {w : World} (h : Undisclosed w.db userId p)
    (profile : Profile) : AgreesFor userId w (w.dress p profile) where
  others := rfl
  profiles id := by
    by_cases hid : id = p
    · exact ⟨profile, by rw [hid]; rfl⟩
    · cases hx : w.db.users id with
      | none => exact ⟨profile, by simp [hx]⟩
      | some x =>
          refine ⟨⟨x.displayName, x.photos, x.age, x.bio⟩, ?_⟩
          simp [hx, dressUser, hid]
  disclosed id hid := by
    refine map_dressUser_ne ?_ (w.db.users id)
    rintro rfl
    exact hid h

/-! ## The list -/

section Listing

variable {w w' : World} {userId : UserId}

/-- The matches of a user that are listed. -/
def listed (d : Db) (userId : UserId) : List VisibleMatch :=
  visibleMatches userId
    (Db.latestFirst (·.createdAt) (d.matchRows.filter fun m => m.userAId = userId ∨ m.userBId = userId))
    (d.blocks.filter fun b => b.liftedAt.isNone ∧ (b.blockerId = userId ∨ b.blockedId = userId))

/-- The item of a match: its partner's profile, where it is acknowledged. -/
def itemOf (d : Db) (v : VisibleMatch) : MatchListItemPayload where
  matchId := v.matchId
  partnerRevealVersion := PARTNER_REVEAL_VERSION
  revealAcknowledged := v.revealAcknowledged
  revealAcknowledgedAt := v.revealAcknowledgedAt
  partnerReveal :=
    if v.revealAcknowledged then (d.users v.partnerUserId).map (buildPartnerReveal v.partnerUserId)
    else none

/-- The ids that are read are the partners of the acknowledged matches. -/
theorem mem_acknowledgedPartnerIds {visible : List VisibleMatch} {v : VisibleMatch}
    (hv : v ∈ visible) (hack : v.revealAcknowledged = true) :
    v.partnerUserId ∈ acknowledgedPartnerIds visible := by
  unfold acknowledgedPartnerIds
  rw [List.mem_dedup]
  exact List.mem_map_of_mem (List.mem_filter.mpr ⟨hv, hack⟩)

/-- The map gives every item its own partner's profile. -/
theorem run_listMatches (blocksFirst : Bool) (w : World) (userId : UserId) :
    (listMatches blocksFirst userId).run Cmd.exec w =
      (.ok ((listed w.db userId).map (itemOf w.db)), w) := by
  unfold listMatches
  simp only [Proc.bind_eq, Proc.run_bind, run_readMatches, run_readProfiles]
  refine Prod.ext (congrArg Except.ok ?_) rfl
  refine List.map_congr_left fun v hv => ?_
  unfold listItem itemOf partnerRevealById
  rw [lookup_findMany]
  cases hack : v.revealAcknowledged with
  | false => rfl
  | true => rw [if_pos (mem_acknowledgedPartnerIds hv hack)]

/-- The row of a listed match, and its partner. -/
theorem row_of_listed {v : VisibleMatch} (hv : v ∈ listed w.db userId) :
    ∃ m ∈ w.db.matchRows, m.id = v.matchId ∧ m.isBetween userId v.partnerUserId ∧
      (v.revealAcknowledged = true → m.acknowledgedBy userId) := by
  obtain ⟨hseen, -⟩ := List.mem_filter.mp hv
  obtain ⟨m, hm, rfl⟩ := List.mem_map.mp hseen
  have hrow := (List.perm_insertionSort _ _).mem_iff.mp hm
  obtain ⟨hmem, hmine⟩ := List.mem_filter.mp hrow
  have hmine : m.userAId = userId ∨ m.userBId = userId := by simpa using hmine
  refine ⟨m, hmem, rfl, ?_⟩
  by_cases hA : m.userAId = userId
  · simp only [if_pos hA]
    exact ⟨.inl ⟨hA, rfl⟩, fun hack => .inl ⟨hA, hack⟩⟩
  · have hB := hmine.resolve_left hA
    simp only [if_neg hA]
    exact ⟨.inr ⟨rfl, hB⟩, fun hack => .inr ⟨hB, hack⟩⟩

/-- The partner of a listed match that is acknowledged is disclosed. -/
theorem disclosed_of_listed {v : VisibleMatch} (hv : v ∈ listed w.db userId)
    (hack : v.revealAcknowledged = true) : ¬Undisclosed w.db userId v.partnerUserId := by
  obtain ⟨m, hm, -, hbetween, hacked⟩ := row_of_listed hv
  rintro (hno | ⟨b, hb, hblock⟩)
  · exact hno m hm hbetween (hacked hack)
  · exact visible_ne (mem_blockedUserIds (mem_blockFindMany hb hblock) hblock) hv rfl

/-- The list of a user's matches is the same in worlds that differ in
profiles that are not to be disclosed, and every item shows the profile of
its own partner or none. -/
theorem list_discloses_acknowledged (h : AgreesFor userId w w') (blocksFirst : Bool) :
    ((listMatches blocksFirst userId).run Cmd.exec w').1 =
        ((listMatches blocksFirst userId).run Cmd.exec w).1 ∧
      ∃ items, ((listMatches blocksFirst userId).run Cmd.exec w).1 = .ok items ∧
        ∀ item ∈ items, ∃ m ∈ w.db.matchRows, m.id = item.matchId ∧
          ∃ partner, m.isBetween userId partner ∧
            (item.partnerReveal = none ∨ ∃ profile, w.db.users partner = some profile ∧
              item.partnerReveal = some (buildPartnerReveal partner profile)) := by
  have hlisted : listed w'.db userId = listed w.db userId := by
    rw [← h.others]
    rfl
  rw [run_listMatches, run_listMatches, hlisted]
  refine ⟨?_, _, rfl, fun item hitem => ?_⟩
  · refine congrArg Except.ok (List.map_congr_left fun v hv => ?_)
    unfold itemOf
    cases hack : v.revealAcknowledged with
    | false => rfl
    | true => rw [h.disclosed _ (disclosed_of_listed hv hack)]
  · obtain ⟨v, hv, rfl⟩ := List.mem_map.mp hitem
    obtain ⟨m, hm, hid, hbetween, -⟩ := row_of_listed hv
    refine ⟨m, hm, hid, v.partnerUserId, hbetween, ?_⟩
    unfold itemOf
    cases hack : v.revealAcknowledged with
    | false => exact .inl rfl
    | true =>
        cases hx : w.db.users v.partnerUserId with
        | none => exact .inl rfl
        | some profile => exact .inr ⟨profile, rfl, rfl⟩

end Listing

/-- `ann` has matched with `bob` and with `eve`, and has acknowledged the
match with `eve`. -/
def twoPartners : World :=
  let w := World.peopled ["ann", "bob", "eve"] 1
  { w with
    db := { w.db with
      matchRows := [⟨"m", "ann", "bob", 0, none, some 7⟩, ⟨"n", "ann", "eve", 1, some 8, none⟩] } }

theorem list_discloses_acknowledged_twoPartners :
    ((listMatches true "ann").run Cmd.exec
          (twoPartners.dress "bob" ⟨some "Bob", none, some 30, some "hi"⟩)).1 =
        ((listMatches true "ann").run Cmd.exec twoPartners).1 ∧
      ∃ items, ((listMatches true "ann").run Cmd.exec twoPartners).1 = .ok items ∧
        ∀ item ∈ items, ∃ m ∈ twoPartners.db.matchRows, m.id = item.matchId ∧
          ∃ partner, m.isBetween "ann" partner ∧
            (item.partnerReveal = none ∨ ∃ profile, twoPartners.db.users partner = some profile ∧
              item.partnerReveal = some (buildPartnerReveal partner profile)) :=
  list_discloses_acknowledged (agreesFor_dress (.inl (by decide)) _) true

end VerityBackend.Matches
