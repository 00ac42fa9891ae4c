/-
VerityBackend.Mobile.Api — what a request of the mobile app comes back with
(`verity-mobile/src/services/api.ts`).
-/
import VerityBackend.Async.Interleaving

namespace VerityBackend.Mobile

/-- What `apiJson` answers with; `data` is `none` for a body that is no JSON. -/
structure Response (Data : Type) where
  status : Nat
  data : Option Data
  deriving DecidableEq, Repr

/-- `response.ok` of `fetch`. -/
def Response.ok {Data : Type} (response : Response Data) : Bool :=
  200 ≤ response.status && response.status ≤ 299

/-- A rejected promise: `fetch` rejects, or the client throws. -/
inductive ClientError where
  | networkFailed
  | thrown (message : String)
  deriving DecidableEq, Repr

/-- A string that is neither missing nor empty. -/
def truthyString (s : Option String) : Option String := s.filter (· ≠ "")

end VerityBackend.Mobile
