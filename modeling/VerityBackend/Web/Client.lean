/-
VerityBackend.Web.Client — the API client of the web app
(`verity-web/src/api/client.ts`) and the server it talks to.

A browser has one cookie and one access token, and any number of calls that
share both. A refresh request leaves with the cookie there is; the server
handles it command by command, as it does anybody's; its `Set-Cookie` is
stored when the answer is received. Of the other requests only the status
is modelled (`api`): what they do on the server is something that happens
on the server.
-/
import VerityBackend.Async.Interleaving
import VerityBackend.Auth.Service

namespace VerityBackend.Web

open Async

/-- One browser, and the server. -/
structure WebWorld where
  server : World
  cookie : Option Jwt
  accessToken : Option Jwt

/-! ## Commands -/

/-- A command of the server, a call of `localStorage`, or one half of a
request. A refresh is answered with the tokens of `refreshSession`, of
which one is in the body and one in `Set-Cookie`, or with an error. -/
inductive WebCmd where
  | server (c : Cmd)
  | getAccessToken
  | setAccessToken (token : Jwt)
  | request (path : String) (token : Option Jwt)
  | sendRefresh
  | receiveRefresh (answer : Option IssuedTokens)

abbrev WebCmd.Res : WebCmd → Type
  | .server c => c.Res
  | .getAccessToken => Option Jwt
  | .setAccessToken _ => Unit
  | .request _ _ => Nat
  | .sendRefresh => Option Jwt
  | .receiveRefresh _ => Unit

/-- The status a request is answered with. -/
abbrev Api := String → Option Jwt → World → Nat

def WebCmd.exec (api : Api) : (c : WebCmd) → WebWorld → Except Err c.Res × WebWorld
  | .server c, w => ((c.exec w.server).1, { w with server := (c.exec w.server).2 })
  | .getAccessToken, w => (.ok w.accessToken, w)
  | .setAccessToken token, w => (.ok (), { w with accessToken := some token })
  | .request path token, w => (.ok (api path token w.server), w)
  | .sendRefresh, w => (.ok w.cookie, w)
  | .receiveRefresh answer, w =>
      (.ok (), { w with cookie := (answer.map (·.refreshToken)).or w.cookie })

abbrev WebProg (α : Type) := Proc WebCmd WebCmd.Res Err α

abbrev web (c : WebCmd) : WebProg c.Res := Proc.await c

/-- A procedure of the server. -/
def onServer {α : Type} : Prog α → WebProg α
  | .ret r => .ret r
  | .call c k => .call (.server c) fun r => onServer (k r)

/-! ## Procedures -/

section Procedures

variable (cfg : AuthConfig) (userAgent ipAddress : Option String)

/-- `AuthController.refresh`, behind `RefreshGuard`. -/
def refresh (refreshToken : Option Jwt) : Prog IssuedTokens :=
  match refreshToken with
  | none => Proc.fail (.unauthorized "Missing refresh token")
  | some token => Auth.refreshSession cfg token userAgent ipAddress

/-- `fetch` of `/auth/refresh`; `none` is a response that is not `ok`. -/
def fetchRefresh (refreshToken : Option Jwt) : WebProg (Option IssuedTokens) :=
  (onServer (do
    let issued ← refresh cfg userAgent ipAddress refreshToken
    pure (some issued))).tryCatch fun _ => pure none

def refreshAccessToken : WebProg (Option Jwt) := do
  let cookie ← web .sendRefresh
  let response ← fetchRefresh cfg userAgent ipAddress cookie
  web (.receiveRefresh response)
  match response with
  | none => pure none
  | some data => do
      web (.setAccessToken data.accessToken)
      pure (some data.accessToken)

/-- `apiFetch` without `retry`. -/
def fetchOnce (path : String) : WebProg Nat := do
  let token ← web .getAccessToken
  web (.request path token)

def apiFetch (path : String) (retry : Bool) : WebProg Nat := do
  let status ← fetchOnce path
  if status = 401 ∧ retry then
    match ← refreshAccessToken cfg userAgent ipAddress with
    | some _ => fetchOnce path
    | none => pure status
  else pure status

/-- The effect of `AuthProvider` that runs when there is no access token. -/
def bootstrap : WebProg Unit := do
  match ← refreshAccessToken cfg userAgent ipAddress with
  | some nextToken => web (.setAccessToken nextToken)
  | none => pure ()

end Procedures

/-! ## The client -/

inductive WebOp where
  | apiFetch (path : String) (retry : Bool)
  | bootstrap
  deriving DecidableEq, Repr

abbrev WebOp.Ret : WebOp → Type
  | .apiFetch _ _ => Nat
  | .bootstrap => Unit

def WebOp.code (cfg : AuthConfig) (userAgent ipAddress : Option String) : (o : WebOp) → WebProg o.Ret
  | .apiFetch path retry => Web.apiFetch cfg userAgent ipAddress path retry
  | .bootstrap => Web.bootstrap cfg userAgent ipAddress

/-- Any number of calls of one client. What happens on the server besides is
up to the environment. -/
@[reducible] def client (cfg : AuthConfig) (api : Api) (userAgent ipAddress : Option String) :
    System where
  Cmd := WebCmd
  Res := WebCmd.Res
  Err := Err
  World := WebWorld
  exec := WebCmd.exec api
  Op := WebOp
  Ret := WebOp.Ret
  code := WebOp.code cfg userAgent ipAddress
  Env := World → World
  env := fun f w => { w with server := f w.server }

end VerityBackend.Web
