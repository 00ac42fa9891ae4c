/-
VerityBackend.Auth.Accounts — signing up, proving one's contacts and
deleting oneself (`auth/auth.service.ts`).

The columns of a user that no other service reads are kept beside the
`World`, in a `Registry`, with what the verification provider answers. The
environment lets time pass, gives and takes roles, and has the provider
answer as it likes.
-/
import VerityBackend.Async.Outcomes
import VerityBackend.Auth.TokenKinds
import VerityBackend.Backend.Deletion
import VerityBackend.Backend.Frames
import VerityBackend.Numeric.Calendar

namespace VerityBackend.Auth

open Async

/-! ## The table -/

inductive ContactKind where
  | phone
  | email
  deriving DecidableEq, Repr

/-- The columns of `User` that the `World` does not have. -/
structure Account where
  id : UserId
  createdAt : Nat
  gender : Option String
  interests : List String
  dateOfBirth : Option Int
  ageVerifiedAt : Option Nat
  consents : Option (List (String × JsonField))
  privacyNoticeVersion : Option String
  tosVersion : Option String
  phone : Option String
  email : Option String
  deriving DecidableEq, Repr

namespace Account

def contact (a : Account) : ContactKind → Option String
  | .phone => a.phone
  | .email => a.email

def withContact (a : Account) (kind : ContactKind) (value : String) : Account :=
  match kind with
  | .phone => { a with phone := some value }
  | .email => { a with email := some value }

end Account

/-- What comes back from the provider. -/
structure ProviderResponse where
  ok : Bool
  status : Option String
  deriving DecidableEq, Repr

/-- The backend, its accounts, and the provider's answer to an identifier and
a code; an error is a `fetch` that throws. -/
structure Registry where
  world : World
  accounts : List Account
  provider : String → String → Except Err ProviderResponse

/-- What `user.create` is given. -/
structure AccountData where
  dateOfBirth : Option Int
  ageVerifiedAt : Option Nat
  consents : Option (List (String × JsonField))
  privacyNoticeVersion : Option String
  tosVersion : Option String
  deriving DecidableEq, Repr

/-- What `user.update` is given for a profile: a field that is `none` stays. -/
structure ProfileData where
  displayName : Option (Option String)
  age : Option Nat
  gender : Option (Option String)
  bio : Option (Option String)
  interests : Option (List String)
  photos : Option (Option (List JsonField))
  deriving DecidableEq, Repr

/-! ## Commands -/

/-- A command of the backend, a Prisma call on the columns of an account, or
the request to the verification provider. `accountDelete` is the transaction
of `deleteAccount`. -/
inductive AccountCmd where
  | backend (c : Cmd)
  | userCreate (data : AccountData)
  | accountFindUnique (id : UserId)
  | profileUpdate (id : UserId) (data : ProfileData)
  | contactUpdate (id : UserId) (kind : ContactKind) (value : String)
  | accountDelete (id : UserId)
  | verificationCheck (identifier code : String)

/-- A row of the table of users. -/
abbrev UserRow := Account × User

abbrev AccountCmd.Res : AccountCmd → Type
  | .backend c => c.Res
  | .userCreate _ => UserRow
  | .accountFindUnique _ => Option UserRow
  | .profileUpdate _ _ => UserRow
  | .contactUpdate _ _ _ => UserRow
  | .accountDelete _ => Unit
  | .verificationCheck _ _ => ProviderResponse

namespace Registry

def findUnique (r : Registry) (id : UserId) : Option UserRow :=
  match r.accounts.find? (·.id = id), r.world.db.users id with
  | some account, some user => some (account, user)
  | _, _ => none

/-- `update({ where: { id }, data })`. -/
def update (r : Registry) (id : UserId) (f : Account → Account) (g : User → User) :
    Except Err UserRow × Registry :=
  match r.findUnique id with
  | none => (.error (.prisma "P2025"), r)
  | some (account, user) =>
      (.ok (f account, g user),
        { r with
          world := r.world.mapDb (·.setUser id (g user))
          accounts := r.accounts.map fun a => if a.id = id then f a else a })

/-- Another user has this phone number or email address. -/
def taken (r : Registry) (id : UserId) (kind : ContactKind) (value : String) : Bool :=
  r.accounts.any fun a => decide (a.id ≠ id) && decide (a.contact kind = some value)

end Registry

def ProfileData.account (data : ProfileData) (a : Account) : Account :=
  { a with
    gender := data.gender.getD a.gender
    interests := data.interests.getD a.interests }

def ProfileData.user (data : ProfileData) (u : User) : User :=
  { u with
    displayName := data.displayName.getD u.displayName
    photos := data.photos.getD u.photos
    age := data.age.or u.age
    bio := data.bio.getD u.bio }

def AccountCmd.exec : (c : AccountCmd) → Registry → Except Err c.Res × Registry
  | .backend c, r => ((c.exec r.world).1, { r with world := (c.exec r.world).2 })
  | .userCreate data, r =>
      let account : Account :=
        { id := freshId r.world.nextId
          createdAt := r.world.clock
          gender := none
          interests := []
          dateOfBirth := data.dateOfBirth
          ageVerifiedAt := data.ageVerifiedAt
          consents := data.consents
          privacyNoticeVersion := data.privacyNoticeVersion
          tosVersion := data.tosVersion
          phone := none
          email := none }
      let user : User := ⟨.USER, 0, none, none, none, none⟩
      (.ok (account, user),
        { r with
          world :=
            { r.world with
              db := r.world.db.setUser account.id user
              nextId := r.world.nextId + 1 }
          accounts := r.accounts ++ [account] })
  | .accountFindUnique id, r => (.ok (r.findUnique id), r)
  | .profileUpdate id data, r => r.update id data.account data.user
  | .contactUpdate id kind value, r =>
      if r.taken id kind value then (.error (.prisma "P2002"), r)
      else r.update id (·.withContact kind value) fun u => u
  | .accountDelete id, r =>
      if r.world.db.hasUser id then
        (.ok (),
          { r with
            world := r.world.mapDb (Db.deleteAccount id)
            accounts := r.accounts.filter (·.id ≠ id) })
      else (.error (.prisma "P2025"), r)
  | .verificationCheck identifier code, r => (r.provider identifier code, r)

abbrev AccountProg (α : Type) := Proc AccountCmd AccountCmd.Res Err α

abbrev account (c : AccountCmd) : AccountProg c.Res := Proc.await c

/-- A procedure of the backend, among the commands of accounts. -/
abbrev onWorld {α : Type} (p : Prog α) : AccountProg α := p.embed AccountCmd.backend fun _ r => r

/-! ## Configuration -/

/-- The variables of `process.env` the verification reads. -/
structure VerificationEnv where
  NODE_ENV : Option String
  TWILIO_ACCOUNT_SID : Option String
  TWILIO_AUTH_TOKEN : Option String
  TWILIO_VERIFY_SERVICE_SID : Option String
  deriving DecidableEq, Repr

/-- `value?.trim()` is set and not empty. -/
def isSet (value : Option String) : Bool := (value.map jsTrim).any (· ≠ "")

def VerificationEnv.configured (env : VerificationEnv) : Bool :=
  isSet env.TWILIO_ACCOUNT_SID && isSet env.TWILIO_AUTH_TOKEN && isSet env.TWILIO_VERIFY_SERVICE_SID

/-- Outside production a missing provider approves everything. -/
def VerificationEnv.trusting (env : VerificationEnv) : Bool :=
  !env.configured && env.NODE_ENV != some "production"

/-- `parseDate` is `Date.parse` and `toLowerCase` that of a string. -/
structure AccountConfig where
  auth : AuthConfig
  env : VerificationEnv
  parseDate : String → Option Int
  toLowerCase : String → String

/-! ## Signing up -/

def MS_PER_DAY : Int := 86400000

def getUTCFullYear (ms : Int) : Int := Calendar.yearOfDay (ms / MS_PER_DAY)

def getUTCMonth (ms : Int) : Nat := Calendar.monthOfDay (ms / MS_PER_DAY)

def getUTCDate (ms : Int) : Int := Calendar.dateOfDay (ms / MS_PER_DAY)

def calculateAge (dateOfBirth now : Int) : Int :=
  let age := getUTCFullYear now - getUTCFullYear dateOfBirth
  let monthDiff : Int := getUTCMonth now - getUTCMonth dateOfBirth
  if monthDiff < 0 ∨ (monthDiff = 0 ∧ getUTCDate now < getUTCDate dateOfBirth) then age - 1 else age

structure SignupAnonymousDto where
  dateOfBirth : Option String
  consents : Option (List (String × JsonField))
  privacyNoticeVersion : Option String
  tosVersion : Option String
  deriving DecidableEq, Repr

/-- The date of birth of a sign-up, once it has been checked. -/
def checkDateOfBirth (cfg : AccountConfig) (raw : Option String) (now : Nat) :
    Except Err (Option Int) :=
  match raw.filter (· ≠ "") with
  | none => .ok none
  | some text =>
      match cfg.parseDate text with
      | none => .error (.badRequest "Invalid date of birth")
      | some dateOfBirth =>
          if calculateAge dateOfBirth now < 18 then .error (.badRequest "Must be 18 or older")
          else .ok (some dateOfBirth)

/-- `{ ...consents, acceptedAt: consents.acceptedAt ?? now.toISOString() }`. -/
def acceptConsents (consents : List (String × JsonField)) (now : Nat) :
    List (String × JsonField) :=
  let acceptedAt :=
    match consents.lookup "acceptedAt" with
    | none => .date now
    | some .null => .date now
    | some value => value
  consents.filter (·.1 ≠ "acceptedAt") ++ [("acceptedAt", acceptedAt)]

def accountData (input : SignupAnonymousDto) (dateOfBirth : Option Int) (now : Nat) : AccountData where
  dateOfBirth := dateOfBirth
  ageVerifiedAt := dateOfBirth.map fun _ => now
  consents := input.consents.map (acceptConsents · now)
  privacyNoticeVersion := input.privacyNoticeVersion
  tosVersion := input.tosVersion

def signupEvent (userId : UserId) (data : AccountData) : Output :=
  .track userId "auth_signup_completed"
    [("hasDob", .bool data.dateOfBirth.isSome), ("hasConsents", .bool data.consents.isSome)]

/-- The sign-up once `now` has been read. -/
def signupAt (cfg : AccountConfig) (userAgent ipAddress : Option String)
    (input : SignupAnonymousDto) (now : Nat) : AccountProg (UserRow × IssuedTokens) :=
  match checkDateOfBirth cfg input.dateOfBirth now with
  | .error e => Proc.fail e
  | .ok dateOfBirth => do
      let data := accountData input dateOfBirth now
      let user ← account (.userCreate data)
      let tokens ← onWorld
        (issueTokens cfg.auth user.1.id ⟨none, userAgent, ipAddress, some user.2.role⟩)
      account (.backend (.host (.emit [signupEvent user.1.id data])))
      pure (user, tokens)

def signupAnonymous (cfg : AccountConfig) (userAgent ipAddress : Option String)
    (input : SignupAnonymousDto) : AccountProg (UserRow × IssuedTokens) := do
  let now ← account (.backend (.host .now))
  signupAt cfg userAgent ipAddress input now

/-! ## Profiles -/

def getCurrentUser (userId : UserId) : AccountProg UserRow := do
  match ← account (.accountFindUnique userId) with
  | none => Proc.fail (.notFound "User not found")
  | some user => pure user

structure UpdateUserProfileDto where
  displayName : Option String
  age : Option Nat
  gender : Option String
  interests : Option (List String)
  photos : Option (List String)
  bio : Option String
  deriving DecidableEq, Repr

/-- `value.trim()`, or `null` where nothing is left. -/
def trimOrNull (value : String) : Option String :=
  let trimmed := jsTrim value
  if 0 < jsLength trimmed then some trimmed else none

def trimAll (values : List String) : List String :=
  (values.map jsTrim).filter (0 < jsLength ·)

def profileData (input : UpdateUserProfileDto) : ProfileData where
  displayName := input.displayName.map trimOrNull
  age := input.age
  gender := input.gender.map trimOrNull
  bio := input.bio.map trimOrNull
  interests := input.interests.map trimAll
  photos := input.photos.map fun photos =>
    if trimAll photos = [] then none else some ((trimAll photos).map .str)

def updateCurrentUser (userId : UserId) (input : UpdateUserProfileDto) : AccountProg UserRow :=
  (account (.profileUpdate userId (profileData input))).tryCatch fun error =>
    if error = .prisma "P2025" then Proc.fail (.notFound "User not found") else Proc.fail error

/-! ## Contacts -/

def normalizeEmail (cfg : AccountConfig) (value : String) : Option String :=
  let email := cfg.toLowerCase (jsTrim value)
  if email ≠ "" then some email else none

/-- `value.replace(/[^\d+]/g, '')`: what is left has one code unit a
character. -/
def normalizePhone (value : String) : Option String :=
  let cleaned := value.toList.filter fun c => c.isDigit || c == '+'
  if 8 ≤ cleaned.length then some (String.ofList cleaned) else none

/-- `value.trim().length === 0`. Irreducible, since nothing comes of evaluating
it where the value is not known. -/
@[irreducible] def isBlank (value : String) : Bool := jsTrim value == ""

/-- An exception of another status than Nest's client errors is thrown as a
failed command is. -/
def assertVerificationCodeValid (cfg : AccountConfig) (identifier code : String) :
    AccountProg Unit :=
  if isBlank code then Proc.fail (.badRequest "Verification code is required")
  else if !cfg.env.configured then
    if cfg.env.NODE_ENV = some "production" then
      Proc.fail (.command "Verification provider is not configured")
    else pure ()
  else do
    let response ← account (.verificationCheck identifier (jsTrim code))
    if !response.ok then Proc.fail (.unauthorized "Invalid verification code")
    else if response.status ≠ some "approved" then
      Proc.fail (.unauthorized "Invalid verification code")
    else pure ()

/-- The update, and the `catch` around it. -/
def storeContact (kind : ContactKind) (inUse : String) (userId : UserId) (value : String) :
    AccountProg UserRow :=
  (account (.contactUpdate userId kind value)).tryCatch fun error =>
    if error = .prisma "P2002" then Proc.fail (.conflict inUse) else Proc.fail error

/-- What `verifyPhone` and `verifyEmail` have in common. -/
def verifyContact (cfg : AccountConfig) (kind : ContactKind) (normalized : Option String)
    (invalid inUse : String) (userId : UserId) (code : String) : AccountProg UserRow :=
  match normalized with
  | none => Proc.fail (.badRequest invalid)
  | some value => do
      assertVerificationCodeValid cfg value code
      storeContact kind inUse userId value

def verifyPhone (cfg : AccountConfig) (userId : UserId) (phoneRaw code : String) :
    AccountProg UserRow :=
  verifyContact cfg .phone (normalizePhone phoneRaw) "Invalid phone number" "Phone already in use"
    userId code

def verifyEmail (cfg : AccountConfig) (userId : UserId) (emailRaw code : String) :
    AccountProg UserRow :=
  verifyContact cfg .email (normalizeEmail cfg emailRaw) "Invalid email address"
    "Email already in use" userId code

/-! ## The system -/

inductive AccountOp where
  | signupAnonymous (userAgent ipAddress : Option String) (input : SignupAnonymousDto)
  | refreshSession (refreshToken : Jwt) (userAgent ipAddress : Option String)
  | logoutAll (userId : UserId)
  | getCurrentUser (userId : UserId)
  | updateCurrentUser (userId : UserId) (input : UpdateUserProfileDto)
  | verifyPhone (userId : UserId) (phoneRaw code : String)
  | verifyEmail (userId : UserId) (emailRaw code : String)
  | deleteAccount (userId : UserId)
  deriving DecidableEq, Repr

abbrev AccountOp.Ret : AccountOp → Type
  | .signupAnonymous _ _ _ => UserRow × IssuedTokens
  | .refreshSession _ _ _ => IssuedTokens
  | .logoutAll _ => Unit
  | .getCurrentUser _ => UserRow
  | .updateCurrentUser _ _ => UserRow
  | .verifyPhone _ _ _ => UserRow
  | .verifyEmail _ _ _ => UserRow
  | .deleteAccount _ => Unit

def AccountOp.code (cfg : AccountConfig) : (o : AccountOp) → AccountProg o.Ret
  | .signupAnonymous userAgent ipAddress input =>
      Auth.signupAnonymous cfg userAgent ipAddress input
  | .refreshSession refreshToken userAgent ipAddress =>
      onWorld (Auth.refreshSession cfg.auth refreshToken userAgent ipAddress)
  | .logoutAll userId => onWorld (Auth.logoutAll userId)
  | .getCurrentUser userId => Auth.getCurrentUser userId
  | .updateCurrentUser userId input => Auth.updateCurrentUser userId input
  | .verifyPhone userId phoneRaw code => Auth.verifyPhone cfg userId phoneRaw code
  | .verifyEmail userId emailRaw code => Auth.verifyEmail cfg userId emailRaw code
  | .deleteAccount userId => account (.accountDelete userId)

inductive AccountEnv where
  | tick (ms : Nat)
  | setRole (userId : UserId) (role : UserRole)
  | provide (provider : String → String → Except Err ProviderResponse)

def Registry.env : AccountEnv → Registry → Registry
  | .tick ms, r => { r with world := r.world.env (.tick ms) }
  | .setRole userId role, r =>
      match r.world.db.users userId with
      | none => r
      | some user => { r with world := r.world.mapDb (·.setUser userId { user with role := role }) }
  | .provide provider, r => { r with provider := provider }

@[reducible] def accountSystem (cfg : AccountConfig) : System where
  Cmd := AccountCmd
  Res := AccountCmd.Res
  Err := Err
  World := Registry
  exec := AccountCmd.exec
  Op := AccountOp
  Ret := AccountOp.Ret
  code := AccountOp.code cfg
  Env := AccountEnv
  env := Registry.env

/-- Nobody has signed up yet. -/
def Registry.empty : Registry where
  world := .empty
  accounts := []
  provider := fun _ _ => .error (.command "unreachable")

/-- What a run leads to, from there. -/
abbrev accountRun (cfg : AccountConfig) (es : List (Event (accountSystem cfg))) :
    Config (accountSystem cfg) := (Config.initial Registry.empty).run es

/-! ## Procedures -/

theorem conforms_onWorld {α : Type} {P : AccountCmd → Prop} (hP : ∀ c, P (.backend c))
    (p : Prog α) : (onWorld p).Conforms P True := by
  induction p with
  | ret r => exact .inr trivial
  | call c k ih => exact ⟨hP c, fun r _ => ih _⟩

theorem conforms_assertVerificationCodeValid {cfg : AccountConfig} {identifier code : String}
    {P : AccountCmd → Prop} (hP : P (.verificationCheck identifier (jsTrim code))) :
    (assertVerificationCodeValid cfg identifier code).Conforms P True := by
  unfold assertVerificationCodeValid
  split
  · exact Proc.conforms_fail _ trivial
  split
  · split
    · exact Proc.conforms_fail _ trivial
    · exact Proc.conforms_pure ()
  · refine Proc.Conforms.bind (Proc.conforms_await hP) fun response => ?_
    split
    · exact Proc.conforms_fail _ trivial
    split
    · exact Proc.conforms_fail _ trivial
    · exact Proc.conforms_pure ()

theorem conforms_storeContact {kind : ContactKind} {inUse userId value : String}
    {P : AccountCmd → Prop} (hP : P (.contactUpdate userId kind value)) :
    (storeContact kind inUse userId value).Conforms P True := by
  refine Proc.Conforms.tryCatch (Proc.conforms_await hP) fun error => ?_
  split <;> exact Proc.conforms_fail _ trivial

theorem conforms_verifyContact {cfg : AccountConfig} {kind : ContactKind} {normalized : Option String}
    {invalid inUse userId code : String} {P : AccountCmd → Prop}
    (hP : ∀ value, normalized = some value →
      P (.verificationCheck value (jsTrim code)) ∧ P (.contactUpdate userId kind value)) :
    (verifyContact cfg kind normalized invalid inUse userId code).Conforms P True := by
  cases normalized with
  | none => exact Proc.conforms_fail _ trivial
  | some value =>
      obtain ⟨hcheck, hupdate⟩ := hP value rfl
      have hassert : (assertVerificationCodeValid cfg value code).Conforms P True :=
        conforms_assertVerificationCodeValid hcheck
      exact hassert.bind fun _ => conforms_storeContact hupdate

theorem conforms_getCurrentUser {userId : UserId} {P : AccountCmd → Prop}
    (hP : P (.accountFindUnique userId)) : (getCurrentUser userId).Conforms P True := by
  unfold getCurrentUser
  refine Proc.Conforms.bind (Proc.conforms_await hP) fun user => ?_
  split
  · exact Proc.conforms_fail _ trivial
  · exact Proc.conforms_pure _

theorem conforms_updateCurrentUser {userId : UserId} {input : UpdateUserProfileDto}
    {P : AccountCmd → Prop} (hP : P (.profileUpdate userId (profileData input))) :
    (updateCurrentUser userId input).Conforms P True := by
  unfold updateCurrentUser
  refine Proc.Conforms.tryCatch (Proc.conforms_await hP) fun error => ?_
  split <;> exact Proc.conforms_fail _ trivial

theorem conforms_signupAnonymous {cfg : AccountConfig} {userAgent ipAddress : Option String}
    {input : SignupAnonymousDto} {P : AccountCmd → Prop} (hbackend : ∀ c, P (.backend c))
    (hcreate : ∀ data, P (.userCreate data)) :
    (signupAnonymous cfg userAgent ipAddress input).Conforms P True := by
  refine Proc.Conforms.bind (Proc.conforms_await (hbackend _)) fun now => ?_
  unfold signupAt
  split
  · exact Proc.conforms_fail _ trivial
  · refine Proc.Conforms.bind (Proc.conforms_await (hcreate _)) fun user => ?_
    refine Proc.Conforms.bind (conforms_onWorld hbackend _) fun tokens => ?_
    exact Proc.Conforms.bind (Proc.conforms_await (hbackend _)) fun _ => Proc.conforms_pure _

/-- The commands of an operation that is no sign-up. -/
inductive AccountOp.May (cfg : AccountConfig) : AccountOp → AccountCmd → Prop
  | backend (o : AccountOp) (c : Cmd) : May cfg o (.backend c)
  | find (u : UserId) : May cfg (.getCurrentUser u) (.accountFindUnique u)
  | profile (u : UserId) (input : UpdateUserProfileDto) :
      May cfg (.updateCurrentUser u input) (.profileUpdate u (profileData input))
  | checkPhone {u : UserId} {raw code value : String} (h : normalizePhone raw = some value) :
      May cfg (.verifyPhone u raw code) (.verificationCheck value (jsTrim code))
  | phone {u : UserId} {raw code value : String} (h : normalizePhone raw = some value) :
      May cfg (.verifyPhone u raw code) (.contactUpdate u .phone value)
  | checkEmail {u : UserId} {raw code value : String} (h : normalizeEmail cfg raw = some value) :
      May cfg (.verifyEmail u raw code) (.verificationCheck value (jsTrim code))
  | email {u : UserId} {raw code value : String} (h : normalizeEmail cfg raw = some value) :
      May cfg (.verifyEmail u raw code) (.contactUpdate u .email value)
  | delete (u : UserId) : May cfg (.deleteAccount u) (.accountDelete u)

theorem conforms_code (cfg : AccountConfig) (o : AccountOp)
    (h : ∀ userAgent ipAddress input, o ≠ .signupAnonymous userAgent ipAddress input) :
    (o.code cfg).Conforms (AccountOp.May cfg o) True := by
  cases o with
  | signupAnonymous userAgent ipAddress input => exact absurd rfl (h userAgent ipAddress input)
  | refreshSession refreshToken userAgent ipAddress => exact conforms_onWorld (.backend _) _
  | logoutAll userId => exact conforms_onWorld (.backend _) _
  | getCurrentUser userId => exact conforms_getCurrentUser (.find userId)
  | updateCurrentUser userId input => exact conforms_updateCurrentUser (.profile userId input)
  | verifyPhone userId phoneRaw code =>
      exact conforms_verifyContact fun value hvalue => ⟨.checkPhone hvalue, .phone hvalue⟩
  | verifyEmail userId emailRaw code =>
      exact conforms_verifyContact fun value hvalue => ⟨.checkEmail hvalue, .email hvalue⟩
  | deleteAccount userId => exact Proc.conforms_await (.delete userId)

/-! ## Rows -/

/-- Where a row comes from that is there after a command. -/
inductive Origin (c : AccountCmd) (r : Registry) (a : Account) : Prop
  | created (data : AccountData) (cmd : c = .userCreate data) (id : a.id = freshId r.world.nextId)
      (contact : ∀ kind, a.contact kind = none) (birth : a.dateOfBirth = data.dateOfBirth)
      (verified : a.ageVerifiedAt = data.ageVerifiedAt)
  | kept (b : Account) (mem : b ∈ r.accounts) (id : a.id = b.id)
      (contact : ∀ kind value, a.contact kind = some value →
        b.contact kind = some value ∨ c = .contactUpdate a.id kind value)
      (birth : a.dateOfBirth = b.dateOfBirth) (verified : a.ageVerifiedAt = b.ageVerifiedAt)

theorem Origin.same {c : AccountCmd} {r : Registry} {a : Account} (h : a ∈ r.accounts) :
    Origin c r a := .kept a h rfl (fun _ _ h => .inl h) rfl rfl

/-- A row after an update is the row before it, or that row changed. -/
theorem Registry.mem_update {r : Registry} {id : UserId} {f : Account → Account} {g : User → User}
    {a : Account} (h : a ∈ (r.update id f g).2.accounts) :
    a ∈ r.accounts ∨ ∃ b ∈ r.accounts, b.id = id ∧ a = f b := by
  unfold Registry.update at h
  split at h
  · exact .inl h
  · obtain ⟨b, hb, rfl⟩ := List.mem_map.mp h
    by_cases hid : b.id = id
    · exact .inr ⟨b, hb, hid, if_pos hid⟩
    · rw [if_neg hid]
      exact .inl hb

theorem Account.contact_withContact {b : Account} {kind kind' : ContactKind} {value value' : String}
    (h : (b.withContact kind value).contact kind' = some value') :
    b.contact kind' = some value' ∨ kind' = kind ∧ value' = value := by
  cases kind <;> cases kind' <;> first | exact .inl h | exact .inr ⟨rfl, (Option.some.inj h).symm⟩

@[simp] theorem Account.withContact_id (b : Account) (kind : ContactKind) (value : String) :
    (b.withContact kind value).id = b.id := by
  cases kind <;> rfl

@[simp] theorem Account.withContact_birth (b : Account) (kind : ContactKind) (value : String) :
    (b.withContact kind value).dateOfBirth = b.dateOfBirth ∧
      (b.withContact kind value).ageVerifiedAt = b.ageVerifiedAt := by
  cases kind <;> exact ⟨rfl, rfl⟩

/-- **What a command does to the rows.** -/
theorem origin {c : AccountCmd} {r : Registry} {a : Account} (h : a ∈ (c.exec r).2.accounts) :
    Origin c r a := by
  cases c with
  | backend c => exact .same h
  | accountFindUnique id => exact .same h
  | verificationCheck identifier code => exact .same h
  | userCreate data =>
      rcases List.mem_append.mp h with h | h
      · exact .same h
      · rw [List.mem_singleton.mp h]
        exact .created data rfl rfl (fun kind => by cases kind <;> rfl) rfl rfl
  | accountDelete id =>
      simp only [AccountCmd.exec] at h
      split at h
      · exact .same (List.mem_filter.mp h).1
      · exact .same h
  | profileUpdate id data =>
      rcases Registry.mem_update h with h | ⟨b, hb, -, rfl⟩
      · exact .same h
      · exact .kept b hb rfl (fun kind value h => .inl (by cases kind <;> exact h)) rfl rfl
  | contactUpdate id kind value =>
      simp only [AccountCmd.exec] at h
      split at h
      · exact .same h
      · rcases Registry.mem_update h with h | ⟨b, hb, rfl, rfl⟩
        · exact .same h
        · refine .kept b hb (by simp) (fun kind' value' hvalue => ?_) (by simp) (by simp)
          rcases Account.contact_withContact hvalue with hold | ⟨rfl, rfl⟩
          · exact .inl hold
          · exact .inr (by simp)

variable {cfg : AccountConfig}

/-- A row, as the trace has it. -/
structure Recorded (trace : List (Entry (accountSystem cfg))) (a : Account) : Prop where
  created : ∃ e ∈ trace, ∃ data : AccountData, e.cmd = .userCreate data ∧
    a.dateOfBirth = data.dateOfBirth ∧ a.ageVerifiedAt = data.ageVerifiedAt
  contact : ∀ kind value, a.contact kind = some value →
    ∃ e ∈ trace, e.cmd = .contactUpdate a.id kind value

/-- **Step lemma.** -/
theorem Recorded.exec {s : Snap (accountSystem cfg)} (h : ∀ a ∈ s.world.accounts, Recorded s.trace a)
    (i : Nat) (c : AccountCmd) :
    ∀ a ∈ (s.exec i c).world.accounts, Recorded (s.exec i c).trace a := by
  intro a ha
  cases origin ha with
  | created data hcmd hid hcontact hbirth hverified =>
      refine ⟨⟨_, List.mem_cons_self, data, hcmd, hbirth, hverified⟩, fun kind value hvalue => ?_⟩
      rw [hcontact kind] at hvalue
      cases hvalue
  | kept b hb hid hcontact hbirth hverified =>
      obtain ⟨⟨e, he, data, hcmd, hdata, htime⟩, hold⟩ := h b hb
      refine ⟨⟨e, .tail _ he, data, hcmd, hbirth.trans hdata, hverified.trans htime⟩,
        fun kind value hvalue => ?_⟩
      rcases hcontact kind value hvalue with hvalue | hnew
      · obtain ⟨e', he', hcmd'⟩ := hold kind value hvalue
        exact ⟨e', .tail _ he', hid ▸ hcmd'⟩
      · exact ⟨_, List.mem_cons_self, hnew⟩

/-- **Run lemma**: every row is on record. -/
theorem recorded_run (es : List (Event (accountSystem cfg))) :
    ∀ a ∈ (accountRun cfg es).world.accounts, Recorded (accountRun cfg es).trace a := by
  have hes : (Config.initial Registry.empty : Config (accountSystem cfg)).Obeys (fun _ _ => True) es :=
    Config.obeys_of_forall (fun _ _ => trivial) _ _
  refine Config.run_induct
    (P := fun c : Config (accountSystem cfg) => ∀ a ∈ c.world.accounts, Recorded c.trace a) ?_ es _ hes
    fun a ha => absurd ha List.not_mem_nil
  intro c ev _ h
  cases ev with
  | start o => exact h
  | env e =>
      cases e with
      | tick ms => exact h
      | provide provider => exact h
      | setRole userId role =>
          have hsame : (c.world.env (.setRole userId role)).accounts = c.world.accounts := by
            simp only [Registry.env]
            split <;> rfl
          intro a ha
          exact h a (hsame ▸ ha)
  | step i =>
      cases hp : c.pending i with
      | none =>
          rw [Config.next_step_of_pending_none hp]
          exact h
      | some cmd =>
          obtain ⟨o, k, hc⟩ := Config.pending_eq_some.mp hp
          rw [Config.next_step_of_call hc]
          exact Recorded.exec h i cmd

/-- No command takes time. -/
theorem AccountCmd.clock_exec (c : AccountCmd) (r : Registry) :
    (c.exec r).2.world.clock = r.world.clock := by
  have hupdate : ∀ (id : UserId) (f : Account → Account) (g : User → User),
      (r.update id f g).2.world.clock = r.world.clock := by
    intro id f g
    unfold Registry.update
    split <;> rfl
  cases c with
  | backend c => exact c.clock_exec r.world
  | profileUpdate id data => exact hupdate _ _ _
  | contactUpdate id kind value =>
      simp only [AccountCmd.exec]
      split
      · rfl
      · exact hupdate _ _ _
  | accountDelete id =>
      simp only [AccountCmd.exec]
      split <;> rfl
  | _ => rfl

theorem Registry.clock_le_env (e : AccountEnv) (r : Registry) :
    r.world.clock ≤ (r.env e).world.clock := by
  cases e with
  | tick ms => exact Nat.le_add_right _ _
  | provide provider => exact Nat.le_refl _
  | setRole userId role =>
      simp only [Registry.env]
      split <;> exact Nat.le_refl _

end VerityBackend.Auth
