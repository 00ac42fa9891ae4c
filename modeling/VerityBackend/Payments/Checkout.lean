/-
VerityBackend.Payments.Checkout — from the purchase of a pack to its tokens
(`payments/payments.service.ts`, both controllers).

Stripe is not part of the backend: what its API answers and which events its
library takes for signed are parameters. What the backend relies on is stated
of a run (`Honest`): a new session has an id of its own, and an event that
reports a purchase is about a session that was opened here, with the metadata
it was opened with.
-/
import VerityBackend.Async.Outcomes
import VerityBackend.Auth.TokenKinds
import VerityBackend.Backend.Deletion
import VerityBackend.Payments.Credits

namespace VerityBackend.Payments

open Async Auth

/-! ## Packs -/

structure TokenPack where
  id : String
  tokens : Nat
  priceEnv : String
  deriving DecidableEq, Repr

def TOKEN_PACKS : List TokenPack :=
  [⟨"starter", 5, "STRIPE_PRICE_STARTER"⟩, ⟨"plus", 15, "STRIPE_PRICE_PLUS"⟩,
    ⟨"pro", 30, "STRIPE_PRICE_PRO"⟩]

def getPack (packId : String) : Except Err TokenPack :=
  match TOKEN_PACKS.find? (·.id = packId) with
  | none => .error (.badRequest "Unknown token pack")
  | some pack => .ok pack

def DEFAULT_SUCCESS_URL : String := "https://example.com/success"

def DEFAULT_CANCEL_URL : String := "https://example.com/cancel"

/-! ## Stripe -/

/-- What `checkout.sessions.create` is given; `lineItem` is the price of the
one item. -/
structure SessionParams where
  mode : String
  paymentMethodTypes : List String
  lineItem : String
  quantity : Nat
  successUrl : String
  cancelUrl : String
  metadata : CheckoutMetadata
  deriving DecidableEq, Repr

structure CheckoutAnswer where
  sessionId : String
  url : Option String
  deriving DecidableEq, Repr

/-- `env` is `process.env`, `sessionsCreate` the answer of Stripe's API to a
call with these parameters and so many calls before it, `constructEvent` that
of Stripe's library, given the payload, the signature and the secret. -/
structure PaymentsConfig where
  env : String → Option String
  sessionsCreate : Nat → SessionParams → Except Err CheckoutAnswer
  constructEvent : String → String → String → Except Err StripeEvent

/-- The backend, and how often Stripe's API has been called. -/
structure Shop where
  world : World
  asked : Nat

inductive CheckoutCmd where
  | backend (c : Cmd)
  | sessionsCreate (params : SessionParams)

abbrev CheckoutCmd.Res : CheckoutCmd → Type
  | .backend c => c.Res
  | .sessionsCreate _ => CheckoutAnswer

def CheckoutCmd.exec (cfg : PaymentsConfig) : (c : CheckoutCmd) → Shop → Except Err c.Res × Shop
  | .backend c, s => ((c.exec s.world).1, { s with world := (c.exec s.world).2 })
  | .sessionsCreate params, s => (cfg.sessionsCreate s.asked params, { s with asked := s.asked + 1 })

abbrev CheckoutProg (α : Type) := Proc CheckoutCmd CheckoutCmd.Res Err α

abbrev checkout (c : CheckoutCmd) : CheckoutProg c.Res := Proc.await c

abbrev onShop {α : Type} (p : Prog α) : CheckoutProg α := p.embed CheckoutCmd.backend fun _ r => r

/-! ## Operations -/

def getRequestUserId (user : RequestUser) : Except Err UserId :=
  if user.sub = "" then .error (.unauthorized "Invalid access token") else .ok user.sub

def getBalance (userId : UserId) : CheckoutProg Nat := do
  match ← checkout (.backend (.db (.userFindUnique userId))) with
  | none => Proc.fail (.notFound "User not found")
  | some user =>
      checkout (.backend (.host (.emit
        [.track userId "token_balance_viewed" [("tokenBalance", .num user.tokenBalance)]])))
      pure user.tokenBalance

def sessionParams (cfg : PaymentsConfig) (userId : UserId) (pack : TokenPack) (priceId : String) :
    SessionParams where
  mode := "payment"
  paymentMethodTypes := ["card"]
  lineItem := priceId
  quantity := 1
  successUrl := (cfg.env "STRIPE_SUCCESS_URL").getD DEFAULT_SUCCESS_URL
  cancelUrl := (cfg.env "STRIPE_CANCEL_URL").getD DEFAULT_CANCEL_URL
  metadata := ⟨some userId, some pack.id, some (toString pack.tokens)⟩

/-- The session is opened and reported. -/
def openSession (cfg : PaymentsConfig) (userId : UserId) (pack : TokenPack) (priceId : String) :
    CheckoutProg CheckoutAnswer := do
  let session ← checkout (.sessionsCreate (sessionParams cfg userId pack priceId))
  checkout (.backend (.host (.emit
    [.track userId "token_purchase_started"
      [("pack", .str pack.id), ("tokenAmount", .num pack.tokens),
        ("checkoutSessionId", .str session.sessionId)]])))
  pure session

def createCheckoutSession (cfg : PaymentsConfig) (userId : UserId) (packId : String) :
    CheckoutProg CheckoutAnswer :=
  match getPack packId with
  | .error e => Proc.fail e
  | .ok pack =>
      match (cfg.env pack.priceEnv).filter (· ≠ "") with
      | none => Proc.fail (.badRequest ("Missing Stripe price ID for " ++ pack.id))
      | some priceId => openSession cfg userId pack priceId

/-- A header of a request, once or several times. -/
inductive HeaderValue where
  | single (value : String)
  | multiple (values : List String)
  deriving DecidableEq, Repr

def HeaderValue.first : HeaderValue → Option String
  | .single value => some value
  | .multiple values => values.head?

def verifyStripeSignature (cfg : PaymentsConfig) (payload : String)
    (signature : Option HeaderValue) : Except Err StripeEvent :=
  match (cfg.env "STRIPE_WEBHOOK_SECRET").filter (· ≠ "") with
  | none => .error (.badRequest "Stripe webhook secret not configured")
  | some secret =>
      match (signature.bind HeaderValue.first).filter (· ≠ "") with
      | none => .error (.badRequest "Missing Stripe signature")
      | some sig => cfg.constructEvent payload sig secret

def purchase (cfg : PaymentsConfig) (user : RequestUser) (packId : String) :
    CheckoutProg CheckoutAnswer :=
  match getRequestUserId user with
  | .error e => Proc.fail e
  | .ok userId => createCheckoutSession cfg userId packId

def balanceOf (user : RequestUser) : CheckoutProg Nat :=
  match getRequestUserId user with
  | .error e => Proc.fail e
  | .ok userId => getBalance userId

/-- `StripeWebhookController.handleWebhook`. -/
def handleWebhook (cfg : PaymentsConfig) (payload : String) (signature : Option HeaderValue) :
    CheckoutProg Unit :=
  match verifyStripeSignature cfg payload signature with
  | .error e => Proc.fail e
  | .ok event => onShop (handleStripeWebhookEvent event)

/-! ## The system -/

inductive CheckoutOp where
  | getBalance (user : RequestUser)
  | purchase (user : RequestUser) (packId : String)
  | handleWebhook (payload : String) (signature : Option HeaderValue)
  deriving DecidableEq, Repr

abbrev CheckoutOp.Ret : CheckoutOp → Type
  | .getBalance _ => Nat
  | .purchase _ _ => CheckoutAnswer
  | .handleWebhook _ _ => Unit

def CheckoutOp.code (cfg : PaymentsConfig) : (o : CheckoutOp) → CheckoutProg o.Ret
  | .getBalance user => balanceOf user
  | .purchase user packId => Payments.purchase cfg user packId
  | .handleWebhook payload signature => Payments.handleWebhook cfg payload signature

/-- The event a delivery carries, if it verifies. -/
def CheckoutOp.event (cfg : PaymentsConfig) : CheckoutOp → Option StripeEvent
  | .handleWebhook payload signature => (verifyStripeSignature cfg payload signature).toOption
  | _ => none

/-- Time passes, accounts are deleted, tokens are spent and given back. -/
inductive CheckoutEnv where
  | tick (ms : Nat)
  | deleteAccount (userId : UserId)
  | setBalance (userId : UserId) (tokenBalance : Nat)

def Shop.env : CheckoutEnv → Shop → Shop
  | .tick ms, s => { s with world := s.world.env (.tick ms) }
  | .deleteAccount userId, s => { s with world := s.world.deleteAccount userId }
  | .setBalance userId tokenBalance, s =>
      match s.world.db.users userId with
      | none => s
      | some user =>
          { s with world := s.world.mapDb (·.setUser userId { user with tokenBalance := tokenBalance }) }

@[reducible] def checkoutSystem (cfg : PaymentsConfig) : System where
  Cmd := CheckoutCmd
  Res := CheckoutCmd.Res
  Err := Err
  World := Shop
  exec := CheckoutCmd.exec cfg
  Op := CheckoutOp
  Ret := CheckoutOp.Ret
  code := CheckoutOp.code cfg
  Env := CheckoutEnv
  env := Shop.env

/-- Stripe has not been called yet. -/
def Shop.opening (w : World) : Shop := ⟨w, 0⟩

variable {cfg : PaymentsConfig}

/-! ## What Stripe promises -/

/-- The session a command has opened: what was asked for, and its id. -/
def opened : (c : CheckoutCmd) → Except Err c.Res → Option (SessionParams × String)
  | .sessionsCreate params, .ok answer => some (params, answer.sessionId)
  | _, _ => none

/-- The session was opened for these parameters. -/
def Opened (trace : List (Entry (checkoutSystem cfg))) (sid : String) (params : SessionParams) :
    Prop :=
  ∃ e ∈ trace, opened e.cmd e.res = some (params, sid)

/-- The event is about a session that was opened for these parameters, and
carries its metadata. -/
structure Reports (trace : List (Entry (checkoutSystem cfg))) (event : StripeEvent)
    (params : SessionParams) : Prop where
  opened : Opened trace event.object.id params
  metadata : event.object.metadata = params.metadata

/-- A session that is opened has an id of its own. -/
def NewId (cfg : PaymentsConfig) (c : Config (checkoutSystem cfg)) : Event (checkoutSystem cfg) → Prop
  | .step i => ∀ cmd, c.pending i = some cmd → ∀ params sid,
      opened cmd (cmd.exec cfg c.world).1 = some (params, sid) →
        ∀ params', ¬Opened c.trace sid params'
  | _ => True

/-- An event that verifies and reports a purchase is about a session that was
opened before. -/
def Reported (cfg : PaymentsConfig) (c : Config (checkoutSystem cfg)) :
    Event (checkoutSystem cfg) → Prop
  | .start o => ∀ event purchase, o.event cfg = some event → event.purchase = some purchase →
      ∃ params, Reports c.trace event params
  | _ => True

def Honest (cfg : PaymentsConfig) (c : Config (checkoutSystem cfg)) (ev : Event (checkoutSystem cfg)) :
    Prop :=
  NewId cfg c ev ∧ Reported cfg c ev

/-- The event is one that verifies. -/
def Verified (cfg : PaymentsConfig) (event : StripeEvent) : Prop :=
  ∃ payload signature, verifyStripeSignature cfg payload signature = .ok event

/-- No two events that verify have one id. -/
def EventIds (cfg : PaymentsConfig) : Prop :=
  ∀ event event', Verified cfg event → Verified cfg event' → event.id = event'.id → event = event'

/-! ## What is issued -/

/-- The pack is sold under this name, at this price. -/
structure Offered (cfg : PaymentsConfig) (packId : String) (pack : TokenPack) (priceId : String) :
    Prop where
  mem : pack ∈ TOKEN_PACKS
  id : pack.id = packId
  price : cfg.env pack.priceEnv = some priceId
  price_ne : priceId ≠ ""

inductive CheckoutOp.May (cfg : PaymentsConfig) (o : CheckoutOp) : CheckoutCmd → Prop
  | read (userId : UserId) : May cfg o (.backend (.db (.userFindUnique userId)))
  | emit (os : List Output) : May cfg o (.backend (.host (.emit os)))
  | opens {user : RequestUser} {packId : String} {pack : TokenPack} {priceId : String}
      (op : o = .purchase user packId) (sub : user.sub ≠ "")
      (offered : Offered cfg packId pack priceId) :
      May cfg o (.sessionsCreate (sessionParams cfg user.sub pack priceId))
  | pays {event : StripeEvent} {c : Cmd} (op : o.event cfg = some event)
      (pays : Pays (.handleStripeWebhookEvent event) c) : May cfg o (.backend c)

section Procedures

variable {o : CheckoutOp}

theorem getRequestUserId_ok {user : RequestUser} {userId : UserId}
    (h : getRequestUserId user = .ok userId) : userId = user.sub ∧ user.sub ≠ "" := by
  unfold getRequestUserId at h
  split at h
  · cases h
  · next hsub => exact ⟨(Except.ok.inj h).symm, hsub⟩

theorem conforms_balanceOf (user : RequestUser) :
    (balanceOf user).Conforms (CheckoutOp.May cfg o) True := by
  unfold balanceOf
  cases getRequestUserId user with
  | error e => exact Proc.conforms_fail _ trivial
  | ok userId =>
      refine Proc.Conforms.bind (Proc.conforms_await (.read _)) fun found => ?_
      cases found with
      | none => exact Proc.conforms_fail _ trivial
      | some user =>
          exact Proc.Conforms.bind (Proc.conforms_await (.emit _)) fun _ => Proc.conforms_pure _

theorem conforms_purchase (user : RequestUser) (packId : String) :
    (purchase cfg user packId).Conforms (CheckoutOp.May cfg (.purchase user packId)) True := by
  unfold purchase
  cases hid : getRequestUserId user with
  | error e => exact Proc.conforms_fail _ trivial
  | ok userId =>
      obtain ⟨rfl, hsub⟩ := getRequestUserId_ok hid
      change (createCheckoutSession cfg user.sub packId).Conforms _ _
      unfold createCheckoutSession getPack
      cases hpack : TOKEN_PACKS.find? (·.id = packId) with
      | none => exact Proc.conforms_fail _ trivial
      | some pack =>
          dsimp only
          cases hprice : (cfg.env pack.priceEnv).filter (· ≠ "") with
          | none => exact Proc.conforms_fail _ trivial
          | some priceId =>
              obtain ⟨hset, hne⟩ := Option.filter_eq_some_iff.mp hprice
              have hoffered : Offered cfg packId pack priceId :=
                ⟨List.mem_of_find?_eq_some hpack, by simpa using List.find?_some hpack, hset,
                  by simpa using hne⟩
              refine Proc.Conforms.bind (Proc.conforms_await (.opens rfl hsub hoffered))
                fun session => ?_
              exact Proc.Conforms.bind (Proc.conforms_await (.emit _)) fun _ => Proc.conforms_pure _

theorem event_handleWebhook {payload : String} {signature : Option HeaderValue} {event : StripeEvent}
    (h : verifyStripeSignature cfg payload signature = .ok event) :
    (CheckoutOp.handleWebhook payload signature).event cfg = some event := by
  simp only [CheckoutOp.event, h, Except.toOption]

theorem conforms_handleWebhook (payload : String) (signature : Option HeaderValue) :
    (handleWebhook cfg payload signature).Conforms
      (CheckoutOp.May cfg (.handleWebhook payload signature)) True := by
  unfold handleWebhook
  cases hevent : verifyStripeSignature cfg payload signature with
  | error e => exact Proc.conforms_fail _ trivial
  | ok event =>
      have hembed : ∀ {p : Prog Unit}, p.Conforms (Pays (.handleStripeWebhookEvent event)) True →
          (onShop p).Conforms (CheckoutOp.May cfg (.handleWebhook payload signature)) True := by
        intro p hp
        induction p with
        | ret r => exact .inr trivial
        | call c k ih =>
            exact ⟨.pays (event_handleWebhook hevent) hp.1, fun r hr => ih r (hp.2 r hr)⟩
      exact hembed (pays_handleStripeWebhookEvent (.handleStripeWebhookEvent event))

theorem conforms_code (cfg : PaymentsConfig) (o : CheckoutOp) :
    (o.code cfg).Conforms (CheckoutOp.May cfg o) True := by
  cases o with
  | getBalance user => exact conforms_balanceOf user
  | purchase user packId => exact conforms_purchase user packId
  | handleWebhook payload signature => exact conforms_handleWebhook payload signature

end Procedures

/-! ## What a command does -/

/-- A command credits the purchase of its event, or leaves the tables
alone. -/
inductive Effect (cfg : PaymentsConfig) (o : CheckoutOp) (c : CheckoutCmd) (s : Shop) : Prop
  | quiet (db : (c.exec cfg s).2.world.db = s.world.db)
  | credited {u : UserId} {pack : String} {n : Nat} {event : StripeEvent}
      (cmd : c = .backend (.db (.creditTransaction u pack n event.object.id event.id)))
      (op : o.event cfg = some event) (purchase : event.purchase = some ⟨u, pack, n⟩)
      (db : Credited u n event.object.id event.id s.world.db (c.exec cfg s).2.world.db)
      (user : s.world.db.users u ≠ none)
      (users : ∀ u', s.world.db.users u' = none → (c.exec cfg s).2.world.db.users u' = none)

/-- A credit needs its user, and brings nobody back. -/
theorem users_of_credited {u : UserId} {pack : String} {n : Nat} {sid eid : String} {w : World}
    (h : Credited u n sid eid w.db ((DbCmd.creditTransaction u pack n sid eid).exec w).2.db) :
    w.db.users u ≠ none ∧ ∀ u', w.db.users u' = none →
      ((DbCmd.creditTransaction u pack n sid eid).exec w).2.db.users u' = none := by
  cases huser : w.db.users u with
  | none =>
      have hsame : ((DbCmd.creditTransaction u pack n sid eid).exec w).2 = w := by
        simp only [DbCmd.exec, huser]
      obtain ⟨row, hrow, -⟩ := h.row
      rw [hsame] at hrow
      exact absurd (congrArg List.length hrow) (by simp)
  | some user =>
      refine ⟨by simp, fun u' hu' => ?_⟩
      have hne : u' ≠ u := by
        rintro rfl
        rw [huser] at hu'
        cases hu'
      simp only [DbCmd.exec, huser]
      split
      · exact hu'
      split
      · exact hu'
      · exact (if_neg hne).trans hu'

theorem effect {o : CheckoutOp} {c : CheckoutCmd} (h : o.May cfg c) (s : Shop) : Effect cfg o c s := by
  cases h with
  | read userId => exact .quiet rfl
  | emit os => exact .quiet rfl
  | opens op sub offered => exact .quiet rfl
  | pays op pays =>
      rename_i event c
      rcases exec_pays pays s.world with hsame | ⟨u, pack, n, sid, eid, rfl, hcredited⟩
      · exact .quiet hsame
      · obtain ⟨hpurchase, rfl, rfl⟩ := pays
        obtain ⟨huser, husers⟩ := users_of_credited hcredited
        exact .credited rfl op hpurchase hcredited huser husers

/-! ## Sessions and events -/

/-- A session is known by its id, and the deliveries that report a purchase
are about such sessions. -/
structure Truthful (c : Config (checkoutSystem cfg)) : Prop where
  ids : ∀ sid params params', Opened c.trace sid params → Opened c.trace sid params' → params = params'
  reported : ∀ t ∈ c.calls, ∀ event purchase, t.1.event cfg = some event →
    event.purchase = some purchase → ∃ params, Reports c.trace event params

section Truthful

variable {c : Config (checkoutSystem cfg)}

theorem Opened.later {trace : List (Entry (checkoutSystem cfg))} {sid : String}
    {params : SessionParams} (h : Opened trace sid params) (e : Entry (checkoutSystem cfg)) :
    Opened (e :: trace) sid params := by
  obtain ⟨e', he', hopened⟩ := h
  exact ⟨e', .tail _ he', hopened⟩

theorem Reports.later {trace : List (Entry (checkoutSystem cfg))} {event : StripeEvent}
    {params : SessionParams} (h : Reports trace event params) (e : Entry (checkoutSystem cfg)) :
    Reports (e :: trace) event params := ⟨h.opened.later e, h.metadata⟩

/-- Two events about one session have the same metadata. -/
theorem Truthful.metadata_inj (h : Truthful c) {event event' : StripeEvent}
    {params params' : SessionParams} (he : Reports c.trace event params)
    (he' : Reports c.trace event' params') (hid : event.object.id = event'.object.id) :
    event.object.metadata = event'.object.metadata := by
  have hopened := he.opened
  rw [hid] at hopened
  rw [he.metadata, he'.metadata, h.ids _ _ _ hopened he'.opened]

/-- **Step lemma.** -/
theorem Truthful.next (h : Truthful c) {ev : Event (checkoutSystem cfg)} (hhonest : Honest cfg c ev) :
    Truthful (c.next ev) := by
  obtain ⟨hnew, hreported⟩ := hhonest
  cases ev with
  | env e => exact ⟨h.ids, h.reported⟩
  | start o =>
      refine ⟨h.ids, fun t ht event purchase hop hpurchase => ?_⟩
      rcases List.mem_append.mp ht with ht | ht
      · exact h.reported t ht event purchase hop hpurchase
      · rw [List.mem_singleton.mp ht] at hop
        exact hreported event purchase hop hpurchase
  | step i =>
      cases hp : c.pending i with
      | none =>
          rw [Config.next_step_of_pending_none hp]
          exact h
      | some cmd =>
          obtain ⟨o, k, hc⟩ := Config.pending_eq_some.mp hp
          rw [Config.next_step_of_call hc]
          refine ⟨fun sid params params' hopened hopened' => ?_,
            fun t ht event purchase hop hpurchase => ?_⟩
          · obtain ⟨e, he, heq⟩ := hopened
            obtain ⟨e', he', heq'⟩ := hopened'
            rcases List.mem_cons.mp he with rfl | he <;> rcases List.mem_cons.mp he' with rfl | he'
            · exact congrArg Prod.fst (Option.some.inj (heq.symm.trans heq'))
            · exact (hnew cmd hp params sid heq params' ⟨e', he', heq'⟩).elim
            · exact (hnew cmd hp params' sid heq' params ⟨e, he, heq⟩).elim
            · exact h.ids sid params params' ⟨e, he, heq⟩ ⟨e', he', heq'⟩
          · have hearlier : ∃ params, Reports c.trace event params := by
              rcases List.mem_or_eq_of_mem_set ht with ht | rfl
              · exact h.reported t ht event purchase hop hpurchase
              · exact h.reported _ (List.mem_of_getElem? hc) event purchase hop hpurchase
            obtain ⟨params, hreports⟩ := hearlier
            exact ⟨params, hreports.later _⟩

end Truthful

end VerityBackend.Payments
