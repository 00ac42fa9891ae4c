/-
VerityBackend.Matches.Service — the matches of a user and what each of
them reveals (`matches/matches.service.ts`).
-/
import VerityBackend.Backend.Service

namespace VerityBackend.Matches

open Async

/-! ## Payloads -/

structure MatchRevealPayload where
  matchId : MatchId
  partnerRevealVersion : Nat
  partnerReveal : PartnerReveal
  revealAcknowledged : Bool
  revealAcknowledgedAt : Option Nat
  deriving DecidableEq, Repr

structure MatchListItemPayload where
  matchId : MatchId
  partnerRevealVersion : Nat
  revealAcknowledged : Bool
  revealAcknowledgedAt : Option Nat
  partnerReveal : Option PartnerReveal
  deriving DecidableEq, Repr

/-! ## The sides of a match -/

def resolveParticipantSide (m : Match) (userId : UserId) : Except Err Side :=
  if m.userAId = userId then .ok .A
  else if m.userBId = userId then .ok .B
  else .error (.forbidden "Not a match participant")

/-- When the user of this side acknowledged the reveal. -/
def acknowledgedAt (m : Match) : Side → Option Nat
  | .A => m.userARevealAcknowledgedAt
  | .B => m.userBRevealAcknowledgedAt

/-- The user on the other side. -/
def partnerOf (m : Match) : Side → UserId
  | .A => m.userBId
  | .B => m.userAId

/-! ## The list -/

/-- A match as `listMatches` sees it before the profiles are read. -/
structure VisibleMatch where
  matchId : MatchId
  partnerUserId : UserId
  revealAcknowledgedAt : Option Nat
  deriving DecidableEq, Repr

def VisibleMatch.revealAcknowledged (v : VisibleMatch) : Bool := v.revealAcknowledgedAt.isSome

/-- The other user of each block. -/
def blockedUserIds (userId : UserId) (activeBlocks : List Block) : List UserId :=
  activeBlocks.map fun b => if b.blockerId = userId then b.blockedId else b.blockerId

def visibleMatches (userId : UserId) (matchRows : List Match) (activeBlocks : List Block) :
    List VisibleMatch :=
  let seen := matchRows.map fun m =>
    let side : Side := if m.userAId = userId then .A else .B
    (⟨m.id, partnerOf m side, acknowledgedAt m side⟩ : VisibleMatch)
  seen.filter fun v => v.partnerUserId ∉ blockedUserIds userId activeBlocks

def acknowledgedPartnerIds (visible : List VisibleMatch) : List UserId :=
  ((visible.filter VisibleMatch.revealAcknowledged).map (·.partnerUserId)).dedup

/-- `partnerRevealById`, as `Map.get` reads it: no profile is read twice. -/
def partnerRevealById (partnerProfiles : List (UserId × User)) (userId : UserId) :
    Option PartnerReveal :=
  (partnerProfiles.lookup userId).map (buildPartnerReveal userId)

def listItem (partnerProfiles : List (UserId × User)) (v : VisibleMatch) :
    MatchListItemPayload where
  matchId := v.matchId
  partnerRevealVersion := PARTNER_REVEAL_VERSION
  revealAcknowledged := v.revealAcknowledged
  revealAcknowledgedAt := v.revealAcknowledgedAt
  partnerReveal :=
    if v.revealAcknowledged then partnerRevealById partnerProfiles v.partnerUserId else none

/-- The two reads that `Promise.all` awaits; `blocksFirst` says which of
them the database answers first. -/
def readMatches (blocksFirst : Bool) (userId : UserId) : Prog (List Match × List Block) :=
  if blocksFirst then do
    let activeBlocks ← prisma (.blockFindMany userId)
    let matchRows ← prisma (.matchFindMany userId)
    pure (matchRows, activeBlocks)
  else do
    let matchRows ← prisma (.matchFindMany userId)
    let activeBlocks ← prisma (.blockFindMany userId)
    pure (matchRows, activeBlocks)

def readProfiles (ids : List UserId) : Prog (List (UserId × User)) :=
  if ids.isEmpty then pure [] else prisma (.userFindMany ids)

def listMatches (blocksFirst : Bool) (userId : UserId) : Prog (List MatchListItemPayload) := do
  let (matchRows, activeBlocks) ← readMatches blocksFirst userId
  let visible := visibleMatches userId matchRows activeBlocks
  let partnerProfiles ← readProfiles (acknowledgedPartnerIds visible)
  pure (visible.map (listItem partnerProfiles))

/-! ## One match -/

/-- What `getReveal` answers for this row and its two users. -/
def revealPayload (m : Match) (userA userB : User) (side : Side) : MatchRevealPayload where
  matchId := m.id
  partnerRevealVersion := PARTNER_REVEAL_VERSION
  partnerReveal :=
    match side with
    | .A => buildPartnerReveal m.userBId userB
    | .B => buildPartnerReveal m.userAId userA
  revealAcknowledged := (acknowledgedAt m side).isSome
  revealAcknowledgedAt := acknowledgedAt m side

/-- What `getReveal` does with the side of the user. -/
def revealFor (m : Match) (userA userB : User) : Except Err Side → Prog MatchRevealPayload
  | .error e => Proc.fail e
  | .ok side => pure (revealPayload m userA userB side)

def getReveal (matchId : MatchId) (userId : UserId) : Prog MatchRevealPayload := do
  match ← prisma (.matchFindWithUsers matchId) with
  | none => Proc.fail (.notFound "Match not found")
  | some (m, userA, userB) => revealFor m userA userB (resolveParticipantSide m userId)

/-- The `update` of the side, unless it acknowledged before. -/
def acknowledgeSide (m : Match) (side : Side) (now : Nat) : Prog Unit :=
  if (acknowledgedAt m side).isNone then prisma (.matchAcknowledge m.id side now) else pure ()

def acknowledgeReveal (matchId : MatchId) (userId : UserId) : Prog MatchRevealPayload := do
  match ← prisma (.matchFindUnique matchId) with
  | none => Proc.fail (.notFound "Match not found")
  | some m =>
      match resolveParticipantSide m userId with
      | .error e => Proc.fail e
      | .ok side =>
          let now ← host .now
          acknowledgeSide m side now
          getReveal matchId userId

end VerityBackend.Matches
