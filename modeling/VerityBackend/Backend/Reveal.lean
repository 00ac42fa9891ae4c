/-
VerityBackend.Backend.Reveal — the profile a matched partner sees
(`matches/reveal.types.ts`).
-/
import VerityBackend.Backend.World

namespace VerityBackend

def PARTNER_REVEAL_VERSION : Nat := 1

structure PartnerReveal where
  id : UserId
  displayName : Option String
  primaryPhotoUrl : Option String
  age : Option Nat
  bio : Option String
  deriving DecidableEq, Repr

/-- `/^https?:\/\//i.test(s)`. -/
def isHttpUrl (s : String) : Bool :=
  let lower := s.toList.map Char.toLower
  "http://".toList.isPrefixOf lower || "https://".toList.isPrefixOf lower

/-- The first entry that is a string and, trimmed, an HTTP URL. -/
def firstHttpUrl : List JsonField → Option String
  | [] => none
  | .str entry :: rest =>
      if isHttpUrl (jsTrim entry) then some (jsTrim entry) else firstHttpUrl rest
  | _ :: rest => firstHttpUrl rest

def resolvePrimaryPhotoUrl (photos : Option (List JsonField)) : Option String :=
  photos.bind firstHttpUrl

def buildPartnerReveal (id : UserId) (profile : User) : PartnerReveal where
  id := id
  displayName := profile.displayName
  primaryPhotoUrl := resolvePrimaryPhotoUrl profile.photos
  age := profile.age
  bio := profile.bio

end VerityBackend
