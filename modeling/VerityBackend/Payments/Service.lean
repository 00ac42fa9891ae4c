/-
VerityBackend.Payments.Service — the webhook through which Stripe reports a
paid checkout session (`payments/payments.service.ts`).

`$transaction` of the source is three statements. The first one reads what
other transactions have committed; the two writes take effect together,
where the transaction commits, or not at all. Hence two commands.
-/
import VerityBackend.Backend.Service

namespace VerityBackend.Payments

open Async

/-! ## Events -/

/-- `metadata` is flat; `null` is the metadata without fields. -/
structure CheckoutMetadata where
  userId : Option String
  packId : Option String
  tokens : Option String
  deriving DecidableEq, Repr

structure CheckoutSession where
  id : String
  paymentStatus : String
  metadata : CheckoutMetadata
  currency : Option String
  deriving DecidableEq, Repr

/-- `object` is `event.data.object`. -/
structure StripeEvent where
  id : String
  type : String
  object : CheckoutSession
  deriving DecidableEq, Repr

/-- `Number.parseInt(tokensRaw, 10)`, if it is finite and positive. Numbers
are exact here; the source rounds those beyond 2^53, none of which fits the
columns they are meant for. -/
def tokenCount (tokensRaw : String) : Option Nat :=
  match parseInt tokensRaw with
  | some n => if 0 < n ∧ n.toNat < NUMBER_OVERFLOW then some n.toNat else none
  | none => none

structure Purchase where
  userId : UserId
  packId : String
  tokens : Nat
  deriving DecidableEq, Repr

/-- The metadata of a session that can be credited. -/
def CheckoutMetadata.purchase (metadata : CheckoutMetadata) : Option Purchase :=
  match metadata.userId, metadata.packId, metadata.tokens with
  | some userId, some packId, some tokensRaw =>
      if userId = "" ∨ packId = "" ∨ tokensRaw = "" then none
      else (tokenCount tokensRaw).map fun tokens => ⟨userId, packId, tokens⟩
  | _, _, _ => none

/-- The purchase an event reports, where it reports one. -/
def StripeEvent.purchase (event : StripeEvent) : Option Purchase :=
  if event.type ≠ "checkout.session.completed" then none
  else if event.object.paymentStatus ≠ "paid" then none
  else event.object.metadata.purchase

example : tokenCount " 15 tokens" = some 15 := by decide

/-- A purchase is of at least one token. -/
theorem StripeEvent.tokens_pos {event : StripeEvent} {purchase : Purchase}
    (h : event.purchase = some purchase) : 0 < purchase.tokens := by
  unfold StripeEvent.purchase at h
  split at h
  · cases h
  split at h
  · cases h
  unfold CheckoutMetadata.purchase at h
  split at h
  · split at h
    · cases h
    · obtain ⟨tokens, htokens, rfl⟩ := Option.map_eq_some_iff.mp h
      unfold tokenCount at htokens
      split at htokens
      · split at htokens
        · next hpos =>
            cases htokens
            have := hpos.1
            show 0 < Int.toNat _
            omega
        · cases htokens
      · cases htokens
  · cases h

/-! ## The webhook -/

/-- The `$transaction`. -/
def creditPurchase (event : StripeEvent) (purchase : Purchase) : Prog Unit := do
  let existing ← prisma (.tokenTransactionFindUnique event.id)
  if existing.isSome then pure ()
  else
    prisma (.creditTransaction purchase.userId purchase.packId purchase.tokens event.object.id
      event.id)

def purchaseEvent (name : String) (event : StripeEvent) (purchase : Purchase) : Output :=
  .track purchase.userId name
    [("pack", .str purchase.packId), ("tokenAmount", .num purchase.tokens),
      ("stripeSessionId", .str event.object.id),
      ("currency", match event.object.currency with | some c => .str c | none => .null)]

/-- `{ received: true }` is the answer to every event that does not make it
throw. -/
def handleStripeWebhookEvent (event : StripeEvent) : Prog Unit :=
  match event.purchase with
  | none => pure ()
  | some purchase => do
      creditPurchase event purchase
      host (.emit [purchaseEvent "token_purchase_succeeded" event purchase,
        purchaseEvent "token_purchase_completed" event purchase])

inductive PaymentsOp where
  | handleStripeWebhookEvent (event : StripeEvent)
  deriving DecidableEq, Repr

def PaymentsOp.event : PaymentsOp → StripeEvent
  | .handleStripeWebhookEvent event => event

@[reducible] def paymentsService : Service where
  Op := PaymentsOp
  Ret := fun _ => Unit
  code := fun o => handleStripeWebhookEvent o.event

end VerityBackend.Payments
