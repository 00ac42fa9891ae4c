/-
VerityBackend.Auth.Roles — how long an administrator who is none any more is
let through (`auth/roles.guard.ts`).

The guard looks at the role in the access token, not at the table. A token
says ADMIN only if the user was an administrator when it was signed, and it
lasts a quarter of an hour; so does what is left of a role that has been
taken away, whatever calls are in flight when it is (`admin_window`).
-/
import VerityBackend.Auth.Accounts

namespace VerityBackend.Auth

open Async

/-! ## The guard -/

/-- The variables of `process.env` the guard reads. -/
structure RolesEnv where
  MODERATION_ADMIN_KEY : Option String
  MODERATION_ADMIN_KEY_FALLBACK : Option String
  deriving DecidableEq, Repr

def isAdminKeyFallbackAllowed (env : RolesEnv) : Bool :=
  match env.MODERATION_ADMIN_KEY_FALLBACK with
  | none => false
  | some value =>
      let normalized := String.ofList ((jsTrim value).toList.flatMap jsLower)
      normalized == "1" || normalized == "true" || normalized == "yes"

/-- The header `x-admin-key` is the key of the deployment. -/
def isAdminKey (env : RolesEnv) (provided : Option String) : Bool :=
  match env.MODERATION_ADMIN_KEY, provided with
  | some expected, some provided => expected != "" && provided != "" && provided == expected
  | _, _ => false

/-- `RolesGuard.canActivate`. -/
def checkRoles (env : RolesEnv) (requiredRoles : Option (List UserRole)) (user : Option RequestUser)
    (adminKey : Option String) : Except Err Unit :=
  match requiredRoles with
  | none => .ok ()
  | some [] => .ok ()
  | some roles =>
      match user with
      | none => .error (.unauthorized "Authentication required")
      | some user =>
          if user.role ∈ roles then .ok ()
          else if .ADMIN ∈ roles ∧ isAdminKeyFallbackAllowed env ∧ isAdminKey env adminKey then .ok ()
          else .error (.forbidden "Insufficient role")

/-- `@UseGuards(AuthGuard('jwt'), RolesGuard) @Roles('ADMIN')`. -/
def adminRoute (secrets : SecretEnv) (env : RolesEnv) (now : Nat) (token : Jwt)
    (adminKey : Option String) : Except Err Unit := do
  let user ← authenticate secrets now token
  checkRoles env (some [.ADMIN]) (some user) adminKey

/-- Without the key, a token gets through that says ADMIN and has not
expired. -/
theorem adminRoute_ok {secrets : SecretEnv} {env : RolesEnv} {now : Nat} {token : Jwt}
    {adminKey : Option String} (hkey : ¬(isAdminKeyFallbackAllowed env ∧ isAdminKey env adminKey))
    (h : adminRoute secrets env now token adminKey = .ok ()) :
    token.role = some .ADMIN ∧ now / 1000 < token.exp := by
  unfold adminRoute at h
  cases huser : authenticate secrets now token with
  | error e =>
      rw [huser] at h
      cases h
  | ok user =>
      rw [huser] at h
      have hrole : user.role = .ADMIN := by
        by_contra hne
        have hforbidden : checkRoles env (some [.ADMIN]) (some user) adminKey =
            .error (.forbidden "Insufficient role") := by
          simp [checkRoles, hne, hkey]
        cases hforbidden.symm.trans h
      unfold authenticate at huser
      split at huser
      · cases huser
      · split at huser
        · next hverifies =>
            have hexp : now / 1000 < token.exp := by
              have hboth := Bool.and_eq_true_iff.mp hverifies
              exact of_decide_eq_true hboth.2
            refine ⟨?_, hexp⟩
            unfold validate at huser
            split at huser
            · cases huser
            · obtain rfl := Except.ok.inj huser
              by_contra hne
              simp [hne] at hrole
        · cases huser

/-! ## Tokens -/

variable {cfg : AccountConfig}

/-- The access token a call returns. -/
def accessTokenOf : (o : AccountOp) → o.Ret → Option Jwt
  | .signupAnonymous _ _ _, r => some r.2.accessToken
  | .refreshSession _ _ _, r => some r.accessToken
  | _, _ => none

/-- If the token says ADMIN, it was signed while the user was one. -/
def Backed (trace : List (Entry (accountSystem cfg))) (token : Jwt) : Prop :=
  token.role = some .ADMIN → ∃ e ∈ trace,
    token.exp = e.before.world.clock / 1000 + ACCESS_TOKEN_TTL ∧
    ∃ user, e.before.world.db.users token.sub = some user ∧ user.role = .ADMIN

/-- What the backend answers to a rotation. -/
def RotateAnswer (trace : List (Entry (accountSystem cfg))) : (c : Cmd) → Except Err c.Res → Prop
  | .db (.refreshTokenRotate _ _ _ _ _ _ _), r =>
      ∀ tokens, r = .ok tokens → Backed trace tokens.accessToken
  | _, _ => True

/-- New users are no administrators. -/
def RoleAnswer (trace : List (Entry (accountSystem cfg))) : (c : AccountCmd) → Except Err c.Res → Prop
  | .backend c, r => RotateAnswer trace c r
  | .userCreate _, r => ∀ user, r = .ok user → user.2.role = .USER
  | _, _ => True

/-- The access token a call has returned is backed. -/
def ReturnsBacked (trace : List (Entry (accountSystem cfg))) (o : AccountOp) (r : Except Err o.Ret) :
    Prop := ∀ a, r = .ok a → ∀ token, accessTokenOf o a = some token → Backed trace token

section Procedures

variable {trace : List (Entry (accountSystem cfg))}

/-- A procedure that can only throw. -/
theorem meets_revokeFamilyAndThrow (familyId : String) (now : Nat) (message : String) :
    (revokeFamilyAndThrow familyId now message).Meets (fun _ => True) (RotateAnswer trace)
      fun r => ∀ tokens, r = .ok tokens → Backed trace tokens.accessToken := by
  refine ⟨trivial, fun r _ => ?_⟩
  cases r with
  | ok _ => exact fun tokens h => by cases h
  | error e => exact fun tokens h => by cases h

theorem meets_rotate (payload : RefreshPayload) (stored : RefreshToken) (now : Nat)
    (userAgent ipAddress : Option String) :
    (rotate cfg.auth payload stored now userAgent ipAddress).Meets (fun _ => True)
      (RotateAnswer trace) fun r => ∀ tokens, r = .ok tokens → Backed trace tokens.accessToken := by
  refine ⟨trivial, fun r hr => ?_⟩
  cases r with
  | ok tokens => exact hr
  | error e =>
      cases e with
      | refreshReuse => exact meets_revokeFamilyAndThrow _ _ _
      | _ => exact fun tokens h => by cases h

theorem meets_refreshSession (refreshToken : Jwt) (userAgent ipAddress : Option String) :
    (Auth.refreshSession cfg.auth refreshToken userAgent ipAddress).Meets (fun _ => True)
      (RotateAnswer trace) fun r => ∀ tokens, r = .ok tokens → Backed trace tokens.accessToken := by
  have hany : ∀ {α : Type} (p : Prog α), p.Keeps (fun _ => True) (RotateAnswer trace) :=
    fun p => p.conforms_any.keeps trivial
  refine (hany _).bind (fun payload _ => ?_) fun e _ tokens h => by cases h
  refine (hany _).bind (fun now _ => ?_) fun e _ tokens h => by cases h
  refine (hany _).bind (fun found _ => ?_) fun e _ tokens h => by cases h
  cases found with
  | none => exact Proc.meets_fail fun tokens h => by cases h
  | some stored =>
      dsimp only
      split
      · split
        · exact meets_revokeFamilyAndThrow _ _ _
        · exact Proc.meets_fail fun tokens h => by cases h
      split
      · exact meets_revokeFamilyAndThrow _ _ _
      split
      · exact meets_revokeFamilyAndThrow _ _ _
      split
      · refine (hany _).bind (fun _ _ => ?_) fun e _ tokens h => by cases h
        exact Proc.meets_fail fun tokens h => by cases h
      · exact meets_rotate payload stored now userAgent ipAddress

/-- A sign-up's token has the role it was given. -/
theorem meets_issueTokens_role (userId : UserId) (userAgent ipAddress : Option String) :
    (issueTokens cfg.auth userId ⟨none, userAgent, ipAddress, some .USER⟩).Meets (fun _ => True)
      (RotateAnswer trace) fun r => ∀ tokens, r = .ok tokens → Backed trace tokens.accessToken := by
  have hany : ∀ {α : Type} (p : Prog α), p.Keeps (fun _ => True) (RotateAnswer trace) :=
    fun p => p.conforms_any.keeps trivial
  refine (hany _).bind (fun now _ => ?_) fun e _ tokens h => by cases h
  refine (hany _).bind (fun familyId _ => ?_) fun e _ tokens h => by cases h
  refine (hany _).bind (fun tokenId _ => ?_) fun e _ tokens h => by cases h
  refine (hany _).bind (fun signedAt _ => ?_) fun e _ tokens h => by cases h
  refine (hany _).bind (fun _ _ => ?_) fun e _ tokens h => by cases h
  refine ⟨trivial, fun r _ => ?_⟩
  cases r with
  | error e => exact fun tokens h => by cases h
  | ok issuedAt =>
      intro tokens h hadmin
      obtain rfl := Except.ok.inj h
      cases hadmin

theorem meets_signupAnonymous_role (userAgent ipAddress : Option String) (input : SignupAnonymousDto) :
    (signupAnonymous cfg userAgent ipAddress input).Meets (fun _ => True) (RoleAnswer trace)
      (ReturnsBacked trace (.signupAnonymous userAgent ipAddress input)) := by
  refine ⟨trivial, fun r _ => ?_⟩
  cases r with
  | error e => exact fun a h => by cases h
  | ok now =>
      have hrest : (signupAt cfg userAgent ipAddress input now).Meets (fun _ => True)
          (RoleAnswer trace) (ReturnsBacked trace (.signupAnonymous userAgent ipAddress input)) := by
        unfold signupAt
        split
        · exact Proc.meets_fail fun a h => by cases h
        · refine ⟨trivial, fun r hr => ?_⟩
          cases r with
          | error e => exact fun a h => by cases h
          | ok user =>
              have hissue : (onWorld (issueTokens cfg.auth user.1.id
                  ⟨none, userAgent, ipAddress, some user.2.role⟩)).Meets (fun _ => True)
                  (RoleAnswer trace)
                  fun r => ∀ tokens, r = .ok tokens → Backed trace tokens.accessToken := by
                rw [hr user rfl]
                exact (meets_issueTokens_role user.1.id userAgent ipAddress).embed
                  (fun _ _ => trivial) fun _ _ h => h
              refine hissue.bind (fun tokens htokens => ?_) fun e _ a h => by cases h
              refine ⟨trivial, fun r _ => ?_⟩
              cases r with
              | error e => exact fun a h => by cases h
              | ok _ =>
                  intro a ha token htoken
                  obtain rfl := Except.ok.inj ha
                  obtain rfl := Option.some.inj htoken
                  exact htokens tokens rfl
      exact hrest

end Procedures

/-- Every operation does. -/
theorem meets_code_backed (trace : List (Entry (accountSystem cfg))) (o : AccountOp) :
    (o.code cfg).Meets (fun _ => True) (RoleAnswer trace) (ReturnsBacked trace o) := by
  cases o with
  | signupAnonymous userAgent ipAddress input => exact meets_signupAnonymous_role _ _ _
  | refreshSession refreshToken userAgent ipAddress =>
      have hembed : (onWorld (Auth.refreshSession cfg.auth refreshToken userAgent ipAddress)).Meets
          (fun _ => True) (RoleAnswer trace)
          fun r => ∀ tokens, r = .ok tokens → Backed trace tokens.accessToken :=
        (meets_refreshSession refreshToken userAgent ipAddress).embed (fun _ _ => trivial)
          fun _ _ h => h
      refine hembed.mono (fun _ => id) fun r hr a ha token htoken => ?_
      obtain rfl := Option.some.inj htoken
      exact hr a ha
  | _ =>
      refine ((conforms_code cfg _ fun _ _ _ h => by cases h).keeps trivial).mono (fun _ _ => trivial)
        fun r _ a _ token htoken => ?_
      cases htoken

/-! ## Every run -/

/-- The token of a rotation is signed with the role of the moment. -/
theorem rotateRefreshToken_role {auth : AuthConfig} {clock : Nat} {nextTokenId : String}
    {stored : RefreshToken} {sub fid : String} {now : Nat} {userAgent ipAddress : Option String}
    {d d' : Db} {tokens : IssuedTokens}
    (h : rotateRefreshToken auth clock nextTokenId stored sub fid now userAgent ipAddress d =
      .ok (tokens, d')) :
    ∃ user, d.users sub = some user ∧ tokens.accessToken = auth.signAccessToken clock sub user.role := by
  simp only [rotateRefreshToken] at h
  split at h
  · cases h
  · cases hinsert : insertRefreshToken _ _ with
    | error e =>
        rw [hinsert] at h
        cases h
    | ok d₁ =>
        rw [hinsert] at h
        simp only [bind, Except.bind, pure, Except.pure] at h
        split at h
        · cases h
        · next user huser =>
            cases h
            exact ⟨user, huser, rfl⟩

theorem roleAnswer_run {es : List (Event (accountSystem cfg))} {e : Entry (accountSystem cfg)}
    (he : e ∈ (accountRun cfg es).trace) : RoleAnswer (accountRun cfg es).trace e.cmd e.res := by
  obtain ⟨i, c, r⟩ := e
  cases c with
  | userCreate data =>
      intro user h
      obtain rfl := Except.ok.inj h
      rfl
  | backend c =>
      cases c with
      | db c =>
          cases c with
          | refreshTokenRotate auth stored sub fid now userAgent ipAddress =>
              intro tokens h hadmin
              simp only [Entry.res, AccountCmd.exec, Cmd.exec, DbCmd.exec] at h
              split at h
              · next hrotate =>
                  obtain rfl := Except.ok.inj h
                  obtain ⟨user, huser, htoken⟩ := rotateRefreshToken_role hrotate
                  rw [htoken] at hadmin ⊢
                  exact ⟨_, he, rfl, user, huser, Option.some.inj hadmin⟩
              · cases h
          | _ => trivial
      | _ => trivial
  | _ => trivial

/-- The user is no administrator. -/
def Ordinary (u : UserId) (d : Db) : Prop := ∀ user, d.users u = some user → user.role ≠ .ADMIN

theorem Ordinary.setUser {u id : UserId} {d : Db} (h : Ordinary u d) {x : User}
    (hx : id = u → x.role ≠ .ADMIN) : Ordinary u (d.setUser id x) := by
  intro user huser
  by_cases hid : u = id
  · simp only [Db.setUser, if_pos hid] at huser
    obtain rfl := Option.some.inj huser
    exact hx hid.symm
  · simp only [Db.setUser, if_neg hid] at huser
    exact h user huser

/-- A command of the backend gives nobody a role. -/
theorem Ordinary.exec {u : UserId} {w : World} (h : Ordinary u w.db) (c : Cmd) :
    Ordinary u (c.exec w).2.db := by
  by_cases hmoves : c.movesTokens
  · have hkept : ∀ {id : UserId} {x x' : User}, w.db.users id = some x → x'.role = x.role →
        Ordinary u (w.db.setUser id x') := by
      intro id x x' hx hrole
      refine h.setUser fun hid => ?_
      rw [hrole]
      exact h x (hid ▸ hx)
    cases c with
    | redis c => exact hmoves.elim
    | host c => exact hmoves.elim
    | db c =>
        rw [Cmd.exec_db]
        cases c with
        | userDebit id =>
            simp only [DbCmd.exec]
            (repeat' split) <;> first | exact h | (apply hkept; assumption; rfl)
        | userRefund id =>
            simp only [DbCmd.exec]
            (repeat' split) <;> first | exact h | (apply hkept; assumption; rfl)
        | creditTransaction id pack n sid eid =>
            simp only [DbCmd.exec]
            (repeat' split) <;> first | exact h | (apply hkept; assumption; rfl)
        | _ => exact hmoves.elim
  · intro user huser
    rw [(c.tables_exec w).users hmoves] at huser
    exact h user huser

theorem Ordinary.update {u : UserId} {r : Registry} (h : Ordinary u r.world.db) {id : UserId}
    {f : Account → Account} {g : User → User} (hg : ∀ x, (g x).role = x.role) :
    Ordinary u (r.update id f g).2.world.db := by
  unfold Registry.update
  cases hfound : r.findUnique id with
  | none => exact h
  | some row =>
      obtain ⟨a, x⟩ := row
      refine h.setUser fun hid => ?_
      have hx : r.world.db.users id = some x := by
        unfold Registry.findUnique at hfound
        split at hfound
        · next hx =>
            obtain ⟨-, rfl⟩ := Prod.mk.inj (Option.some.inj hfound)
            exact hx
        · cases hfound
      rw [hg]
      exact h x (hid ▸ hx)

/-- Nor does a command on accounts. -/
theorem Ordinary.account {u : UserId} {r : Registry} (h : Ordinary u r.world.db) (c : AccountCmd) :
    Ordinary u (c.exec r).2.world.db := by
  cases c with
  | backend c => exact h.exec c
  | accountFindUnique id => exact h
  | verificationCheck identifier code => exact h
  | profileUpdate id data => exact h.update fun _ => rfl
  | contactUpdate id kind value =>
      simp only [AccountCmd.exec]
      split
      · exact h
      · exact h.update fun _ => rfl
  | userCreate data => exact h.setUser fun _ hadmin => by cases hadmin
  | accountDelete id =>
      simp only [AccountCmd.exec]
      split
      · intro user huser
        simp only [World.mapDb, Db.deleteAccount] at huser
        split at huser
        · cases huser
        · exact h user huser
      · exact h

/-- The user is no administrator, and has been none since `T`. -/
structure Demoted (u : UserId) (T : Nat) (c : Config (accountSystem cfg)) : Prop where
  now : Ordinary u c.world.world.db
  past : ∀ e ∈ c.trace, ¬Ordinary u e.before.world.db → e.before.world.clock ≤ T

/-- **Step lemma**: it stays so, unless the environment gives the role. -/
theorem Demoted.next {u : UserId} {T : Nat} {c : Config (accountSystem cfg)} (h : Demoted u T c)
    {ev : Event (accountSystem cfg)} (hev : ev ≠ .env (.setRole u .ADMIN)) :
    Demoted u T (c.next ev) := by
  cases ev with
  | start o => exact ⟨h.now, h.past⟩
  | env e =>
      refine ⟨?_, h.past⟩
      cases e with
      | tick ms => exact h.now
      | provide provider => exact h.now
      | setRole v role =>
          simp only [Config.next, Registry.env]
          split
          · exact h.now
          · refine h.now.setUser fun hv hrole => hev ?_
            rw [hv, show role = .ADMIN from hrole]
  | step i =>
      cases hp : c.pending i with
      | none =>
          rw [Config.next_step_of_pending_none hp]
          exact h
      | some cmd =>
          obtain ⟨o, k, hc⟩ := Config.pending_eq_some.mp hp
          rw [Config.next_step_of_call hc]
          refine ⟨h.now.account cmd, fun e he hnot => ?_⟩
          rcases List.mem_cons.mp he with rfl | he
          · exact absurd h.now hnot
          · exact h.past e he hnot

/-- **What is left of a role.** Once a user is no administrator and is not made
one again, a token of the user's that any call returns opens the routes of
administrators for less than a quarter of an hour. -/
theorem admin_window (es₁ es₂ : List (Event (accountSystem cfg))) (u : UserId)
    (hdemoted : Ordinary u (accountRun cfg es₁).world.world.db)
    (hkept : ∀ e ∈ es₂, e ≠ .env (.setRole u .ADMIN)) {i : Nat} {o : AccountOp} {a : o.Ret}
    {token : Jwt} (hreturned : (accountRun cfg (es₁ ++ es₂)).Settled i o (.ok a))
    (htoken : accessTokenOf o a = some token) (hsub : token.sub = u) {secrets : SecretEnv}
    {env : RolesEnv} {now : Nat} {adminKey : Option String}
    (hkey : ¬(isAdminKeyFallbackAllowed env ∧ isAdminKey env adminKey))
    (hpass : adminRoute secrets env now token adminKey = .ok ()) :
    now / 1000 < (accountRun cfg es₁).world.world.clock / 1000 + ACCESS_TOKEN_TTL := by
  obtain ⟨hrole, hexp⟩ := adminRoute_ok hkey hpass
  -- who signed the token
  have hcourse := Config.run_meets (P := fun _ _ _ => True)
    (fun o _ => meets_code_backed (accountRun cfg (es₁ ++ es₂)).trace o) Registry.empty (es₁ ++ es₂)
    fun e he => roleAnswer_run he
  obtain ⟨e, he, hsigned, user, huser, hadmin⟩ := hcourse.settled hreturned a rfl token htoken hrole
  -- and when
  have hrun : ∀ (es : List (Event (accountSystem cfg))) (c : Config (accountSystem cfg)),
      (∀ e ∈ es, e ≠ .env (.setRole u .ADMIN)) →
        Demoted u (accountRun cfg es₁).world.world.clock c →
          Demoted u (accountRun cfg es₁).world.world.clock (c.run es) := by
    intro es
    induction es with
    | nil => exact fun c _ h => h
    | cons ev es ih =>
        exact fun c hes h => ih (c.next ev) (fun e he => hes e (.tail _ he)) (h.next (hes ev (.head _)))
  have hstart : Demoted u (accountRun cfg es₁).world.world.clock (accountRun cfg es₁) :=
    ⟨hdemoted, fun e he _ => Config.before_le (f := fun r : Registry => r.world.clock)
      (fun c (r : Registry) => Nat.le_of_eq (c.clock_exec r).symm)
      (fun ev (r : Registry) => r.clock_le_env ev) Registry.empty es₁ e he⟩
  have hend := hrun es₂ _ hkept hstart
  have hle : e.before.world.clock ≤ (accountRun cfg es₁).world.world.clock := by
    refine hend.past e ?_ fun hordinary => ?_
    · rw [accountRun, Config.run_append] at he
      exact he
    · exact hordinary user (hsub ▸ huser) hadmin
  have hdiv := Nat.div_le_div_right (c := 1000) hle
  omega

/-! ## An example -/

def shopfloor : AccountConfig where
  auth := ⟨"a", "r", fun t => t.jti⟩
  env := ⟨none, none, none, none⟩
  parseDate := fun _ => none
  toLowerCase := fun s => s

/-- A user signs up, is made an administrator, refreshes the session and is an
administrator no more. -/
def promotion : List (Event (accountSystem shopfloor)) :=
  ([.start (.signupAnonymous none none ⟨none, none, none, none⟩)] :
      List (Event (accountSystem shopfloor))) ++
  (List.replicate 9 (.step 0) : List (Event (accountSystem shopfloor))) ++
  ([.env (.setRole "c0" .ADMIN),
    .start (.refreshSession (shopfloor.auth.signRefreshToken 0 "c0" "c1" "c2") none none)] :
      List (Event (accountSystem shopfloor))) ++
  (List.replicate 5 (.step 1) : List (Event (accountSystem shopfloor))) ++
  ([.env (.setRole "c0" .USER)] : List (Event (accountSystem shopfloor)))

def adminTokens : IssuedTokens :=
  ⟨shopfloor.auth.signAccessToken 0 "c0" .ADMIN, shopfloor.auth.signRefreshToken 0 "c0" "c1" "c3"⟩

/-- A minute later the token still opens a route of administrators. -/
theorem admin_window_minute :
    adminRoute (ownSecrets "a" "r") ⟨none, none⟩ 60000 adminTokens.accessToken none = .ok () ∧
      60000 / 1000 < (accountRun shopfloor promotion).world.world.clock / 1000 + ACCESS_TOKEN_TTL := by
  have hpass : adminRoute (ownSecrets "a" "r") ⟨none, none⟩ 60000 adminTokens.accessToken none =
      .ok () := by decide +kernel
  have hsettled : (accountRun shopfloor (promotion ++ [.env (.tick 60000)])).Settled 1
      (.refreshSession (shopfloor.auth.signRefreshToken 0 "c0" "c1" "c2") none none)
      (.ok adminTokens) := by
    rfl
  have hrole : ((accountRun shopfloor promotion).world.world.db.users "c0").map (·.role) =
      some .USER := by decide +kernel
  have hdemoted : Ordinary "c0" (accountRun shopfloor promotion).world.world.db := by
    intro user huser hadmin
    rw [huser, Option.map_some, hadmin] at hrole
    cases hrole
  refine ⟨hpass, admin_window promotion [.env (.tick 60000)] "c0" hdemoted ?_ hsettled rfl rfl
    (by decide) hpass⟩
  intro e he
  rw [List.mem_singleton.mp he]
  exact fun h => by cases h

end VerityBackend.Auth
