/-
VerityBackend.Payments.Reports — is a purchase reported once?

A delivery whose event id is in the ledger returns from the callback of the
transaction only: both events are tracked although nothing was credited. A
second event id of a paid session fails with the transaction, and tracks
nothing. `reportedOnce_iff` says of every history of deliveries that the
events count the credits unless an event is delivered again.
-/
import VerityBackend.Async.Failing
import VerityBackend.Payments.Credits

namespace VerityBackend.Payments

open Async

/-! ## Histories -/

/-- A delivery that finds the world like this. -/
structure Delivery where
  event : StripeEvent
  before : World

namespace Delivery

def after (d : Delivery) : World := ((handleStripeWebhookEvent d.event).run Cmd.exec d.before).2

/-- The events that are tracked. -/
def tracked (d : Delivery) : List Output :=
  ((handleStripeWebhookEvent d.event).commands Cmd.exec d.before).flatMap fun
    | .host (.emit os) => os
    | _ => []

/-- A balance is credited. -/
def credits (d : Delivery) : Bool :=
  match d.event.purchase with
  | some purchase => balance d.before.db purchase.userId < balance d.after.db purchase.userId
  | none => false

/-- A purchase whose event the ledger knows. -/
def redelivered (d : Delivery) : Bool :=
  d.event.purchase.isSome &&
    d.before.db.tokenTransactions.any (·.stripeEventId = some d.event.id)

end Delivery

/-- Deliveries one after the other, each of them run to its end. -/
def deliveries : World → List StripeEvent → List Delivery
  | _, [] => []
  | w, event :: events => ⟨event, w⟩ :: deliveries (Delivery.after ⟨event, w⟩) events

/-- An event of this name about this checkout session. -/
def isReport (name stripeSessionId : String) : Output → Bool
  | .track _ name' properties =>
      name' = name ∧ properties.lookup "stripeSessionId" = some (.str stripeSessionId)
  | _ => false

def reports (name stripeSessionId : String) (ds : List Delivery) : Nat :=
  (ds.flatMap Delivery.tracked).countP (isReport name stripeSessionId)

def creditsOf (stripeSessionId : String) (ds : List Delivery) : Nat :=
  ds.countP fun d => d.credits && decide (d.event.object.id = stripeSessionId)

/-- Each session is credited once at most, and reported as often. -/
def ReportedOnce (ds : List Delivery) : Prop :=
  ∀ stripeSessionId, creditsOf stripeSessionId ds ≤ 1 ∧
    reports "token_purchase_completed" stripeSessionId ds = creditsOf stripeSessionId ds ∧
    reports "token_purchase_succeeded" stripeSessionId ds = creditsOf stripeSessionId ds

/-! ## One delivery -/

def purchaseEvents (event : StripeEvent) (purchase : Purchase) : List Output :=
  [purchaseEvent "token_purchase_succeeded" event purchase,
    purchaseEvent "token_purchase_completed" event purchase]

/-- What a delivery does. -/
inductive Delivered (d : Delivery) : Prop where
  | ignored (none : d.event.purchase = none) (tracked : d.tracked = []) (same : d.after.db = d.before.db)
  | known {purchase : Purchase} (some : d.event.purchase = some purchase)
      (row : d.redelivered = true) (tracked : d.tracked = purchaseEvents d.event purchase)
      (same : d.after.db = d.before.db)
  | failed {purchase : Purchase} (some : d.event.purchase = some purchase)
      (row : d.redelivered = false) (tracked : d.tracked = []) (same : d.after.db = d.before.db)
  | credited {purchase : Purchase} (some : d.event.purchase = some purchase)
      (row : d.redelivered = false) (tracked : d.tracked = purchaseEvents d.event purchase)
      (credited : Credited purchase.userId purchase.tokens d.event.object.id d.event.id d.before.db
        d.after.db)

section Code

variable {event : StripeEvent} {purchase : Purchase} {w : World}

theorem handleStripeWebhookEvent_of_purchase (hpurchase : event.purchase = some purchase) :
    handleStripeWebhookEvent event =
      (creditPurchase event purchase).bind fun _ => host (.emit (purchaseEvents event purchase)) := by
  unfold handleStripeWebhookEvent
  rw [hpurchase]
  rfl

/-- The world and the events, from those of the transaction. -/
theorem delivery_of_purchase (hpurchase : event.purchase = some purchase) {r : Except Err Unit}
    {w' : World} (hrun : (creditPurchase event purchase).run Cmd.exec w = (r, w'))
    (hquiet : ∀ c ∈ (creditPurchase event purchase).commands Cmd.exec w, ∃ c', c = .db c') :
    (Delivery.after ⟨event, w⟩).db = w'.db ∧
      Delivery.tracked ⟨event, w⟩ = if r.isOk then purchaseEvents event purchase else [] := by
  have hnone : ((creditPurchase event purchase).commands Cmd.exec w).flatMap (fun
      | .host (.emit os) => os
      | _ => []) = [] := by
    refine List.flatMap_eq_nil_iff.mpr fun c hc => ?_
    obtain ⟨c', rfl⟩ := hquiet c hc
    rfl
  unfold Delivery.after Delivery.tracked
  dsimp only
  rw [handleStripeWebhookEvent_of_purchase hpurchase, Proc.run_bind, Proc.commands_bind, hrun,
    List.flatMap_append, hnone]
  cases r with
  | ok _ => exact ⟨rfl, List.append_nil _⟩
  | error _ => exact ⟨rfl, rfl⟩

theorem creditPurchase_quiet :
    ∀ c ∈ (creditPurchase event purchase).commands Cmd.exec w, ∃ c', c = .db c' := by
  have hconforms : (creditPurchase event purchase).Conforms (fun c => ∃ c', c = .db c') True := by
    refine Proc.Conforms.bind (Proc.conforms_await ⟨_, rfl⟩) fun existing => ?_
    split
    · exact Proc.conforms_pure ()
    · exact Proc.conforms_await ⟨_, rfl⟩
  exact hconforms.commands w

/-- The callback returns where the event has a row. -/
theorem creditPurchase_known
    (h : w.db.tokenTransactions.any (·.stripeEventId = some event.id) = true) :
    (creditPurchase event purchase).run Cmd.exec w = (.ok (), w) := by
  have hfind : (w.db.tokenTransactions.find? (·.stripeEventId = some event.id)).isSome = true := by
    rw [List.find?_isSome]
    simpa using h
  change Proc.run Cmd.exec
    (if (w.db.tokenTransactions.find? (·.stripeEventId = some event.id)).isSome then pure ()
      else prisma (.creditTransaction purchase.userId purchase.packId purchase.tokens event.object.id
        event.id)) w = _
  rw [if_pos hfind]
  rfl

theorem creditPurchase_unknown
    (h : w.db.tokenTransactions.any (·.stripeEventId = some event.id) = false) :
    (creditPurchase event purchase).run Cmd.exec w = (DbCmd.creditTransaction purchase.userId
      purchase.packId purchase.tokens event.object.id event.id).exec w := by
  have hfind : ¬(w.db.tokenTransactions.find? (·.stripeEventId = some event.id)).isSome = true := by
    rw [List.find?_isSome]
    simpa using h
  change Proc.run Cmd.exec
    (if (w.db.tokenTransactions.find? (·.stripeEventId = some event.id)).isSome then pure ()
      else prisma (.creditTransaction purchase.userId purchase.packId purchase.tokens event.object.id
        event.id)) w = _
  rw [if_neg hfind]
  rfl

end Code

theorem delivered (d : Delivery) : Delivered d := by
  obtain ⟨event, w⟩ := d
  cases hpurchase : event.purchase with
  | none =>
      have hcode : handleStripeWebhookEvent event = pure () := by
        unfold handleStripeWebhookEvent
        rw [hpurchase]
      refine .ignored hpurchase ?_ ?_
      · rw [Delivery.tracked, hcode]
        rfl
      · rw [Delivery.after, hcode]
        rfl
  | some purchase =>
      have hredelivered : Delivery.redelivered ⟨event, w⟩ =
          w.db.tokenTransactions.any (·.stripeEventId = some event.id) := by
        simp only [Delivery.redelivered, hpurchase, Option.isSome_some, Bool.true_and]
      cases hknown : w.db.tokenTransactions.any (·.stripeEventId = some event.id) with
      | true =>
          obtain ⟨hdb, htracked⟩ :=
            delivery_of_purchase hpurchase (creditPurchase_known hknown) creditPurchase_quiet
          exact .known hpurchase (hredelivered.trans hknown) htracked hdb
      | false =>
          have hanswer := creditTransaction_answer purchase.userId purchase.packId purchase.tokens
            event.object.id event.id w
          have hcredit : (creditPurchase event purchase).run Cmd.exec w = _ :=
            creditPurchase_unknown hknown
          generalize (DbCmd.creditTransaction purchase.userId purchase.packId purchase.tokens
            event.object.id event.id).exec w = answer at hanswer hcredit
          obtain ⟨r, w'⟩ := answer
          obtain ⟨hdb, htracked⟩ := delivery_of_purchase hpurchase hcredit creditPurchase_quiet
          rcases hanswer with ⟨hok, hcredited⟩ | ⟨⟨err, herror⟩, hsame⟩
          · obtain rfl : r = .ok () := hok
            exact .credited hpurchase (hredelivered.trans hknown) htracked (hdb ▸ hcredited)
          · obtain rfl : r = .error err := herror
            exact .failed hpurchase (hredelivered.trans hknown) htracked
              (hdb.trans (congrArg World.db hsame))

section Counts

variable {d : Delivery}

theorem balance_of_credited {purchase : Purchase} (hpurchase : d.event.purchase = some purchase)
    (h : Credited purchase.userId purchase.tokens d.event.object.id d.event.id d.before.db d.after.db) :
    d.credits = true := by
  have hbalance := h.balance purchase.userId
  rw [if_pos rfl] at hbalance
  have hpos := StripeEvent.tokens_pos hpurchase
  unfold Delivery.credits
  rw [hpurchase]
  exact decide_eq_true (by omega)

theorem credits_of_same (h : d.after.db = d.before.db) : d.credits = false := by
  unfold Delivery.credits
  split
  · rw [h]
    exact decide_eq_false (Nat.lt_irrefl _)
  · rfl

theorem redelivered_of_none (h : d.event.purchase = none) : d.redelivered = false := by
  unfold Delivery.redelivered
  rw [h]
  rfl

theorem isReport_purchaseEvent (name sid name' : String) (event : StripeEvent) (purchase : Purchase) :
    isReport name sid (purchaseEvent name' event purchase) =
      decide (name' = name ∧ event.object.id = sid) := by
  change decide (name' = name ∧ some (JsonField.str event.object.id) = some (.str sid)) = _
  simp

/-- Both events are about the session of the purchase. -/
theorem countP_purchaseEvents {name : String} (sid : String)
    (hname : name = "token_purchase_completed" ∨ name = "token_purchase_succeeded")
    (event : StripeEvent) (purchase : Purchase) :
    (purchaseEvents event purchase).countP (isReport name sid) =
      if event.object.id = sid then 1 else 0 := by
  unfold purchaseEvents
  rcases hname with rfl | rfl <;>
    by_cases hid : event.object.id = sid <;>
    simp [isReport_purchaseEvent, hid]

/-- A delivery reports what it credits, and what is delivered again. -/
theorem countP_tracked {name : String} (sid : String)
    (hname : name = "token_purchase_completed" ∨ name = "token_purchase_succeeded") (d : Delivery) :
    d.tracked.countP (isReport name sid) =
      (if d.credits && decide (d.event.object.id = sid) then 1 else 0) +
      (if d.redelivered && decide (d.event.object.id = sid) then 1 else 0) := by
  cases delivered d with
  | ignored hnone htracked hsame =>
      rw [htracked, credits_of_same hsame, redelivered_of_none hnone]
      rfl
  | failed hsome hrow htracked hsame =>
      rw [htracked, credits_of_same hsame, hrow]
      rfl
  | known hsome hrow htracked hsame =>
      rw [htracked, credits_of_same hsame, hrow, countP_purchaseEvents sid hname]
      simp
  | credited hsome hrow htracked hcredited =>
      rw [htracked, balance_of_credited hsome hcredited, hrow, countP_purchaseEvents sid hname]
      simp

/-- The rows of a session stay, and a credit needs that there are none. -/
theorem rowsOf_after (d : Delivery) (sid : String) :
    (rowsOf d.before.db sid ≠ [] → rowsOf d.after.db sid ≠ [] ∧
      (d.credits && decide (d.event.object.id = sid)) = false) ∧
    ((d.credits && decide (d.event.object.id = sid)) = true → rowsOf d.after.db sid ≠ []) := by
  have hsame : d.after.db = d.before.db →
      (rowsOf d.before.db sid ≠ [] → rowsOf d.after.db sid ≠ [] ∧
        (d.credits && decide (d.event.object.id = sid)) = false) ∧
      ((d.credits && decide (d.event.object.id = sid)) = true → rowsOf d.after.db sid ≠ []) := by
    intro h
    rw [credits_of_same h, h]
    exact ⟨fun hrows => ⟨hrows, rfl⟩, nofun⟩
  cases delivered d with
  | ignored _ _ h => exact hsame h
  | known _ _ _ h => exact hsame h
  | failed _ _ _ h => exact hsame h
  | credited _ _ _ hcredited =>
      by_cases hid : sid = d.event.object.id
      · subst hid
        obtain ⟨row, hrows, -⟩ := hcredited.recorded
        rw [hrows]
        exact ⟨fun h => absurd hcredited.fresh h, fun _ => nofun⟩
      · rw [hcredited.rowsOf_ne hid, decide_eq_false (Ne.symm hid), Bool.and_false]
        exact ⟨fun h => ⟨h, rfl⟩, nofun⟩

end Counts

/-! ## Every history -/

/-- A session is credited once at most, and never if it has a row. -/
theorem creditsOf_le (sid : String) (events : List StripeEvent) (w : World) :
    creditsOf sid (deliveries w events) ≤ if rowsOf w.db sid = [] then 1 else 0 := by
  induction events generalizing w with
  | nil => exact Nat.zero_le _
  | cons event events ih =>
      have hrest := ih (Delivery.after ⟨event, w⟩)
      obtain ⟨hkept, hcredit⟩ := rowsOf_after ⟨event, w⟩ sid
      rw [deliveries, creditsOf, List.countP_cons]
      change creditsOf sid (deliveries _ events) + _ ≤ _
      dsimp only at hkept hcredit ⊢
      split
      · next hnew =>
          rw [if_neg (hcredit hnew)] at hrest
          by_cases hrows : rowsOf w.db sid = []
          · rw [if_pos hrows]
            omega
          · rw [(hkept hrows).2] at hnew
            cases hnew
      · by_cases hrows : rowsOf w.db sid = []
        · rw [if_pos hrows]
          split at hrest <;> omega
        · rw [if_neg hrows, if_neg (hkept hrows).1] at *
          omega

theorem reports_eq {name : String} (sid : String)
    (hname : name = "token_purchase_completed" ∨ name = "token_purchase_succeeded")
    (ds : List Delivery) :
    reports name sid ds = creditsOf sid ds +
      ds.countP fun d => d.redelivered && decide (d.event.object.id = sid) := by
  induction ds with
  | nil => rfl
  | cons d ds ih =>
      unfold reports creditsOf at ih ⊢
      rw [List.flatMap_cons, List.countP_append, ih, countP_tracked sid hname, List.countP_cons,
        List.countP_cons]
      omega

/-- **When a purchase is reported once.** In every history of deliveries each
session is credited once at most, and each of the two events is tracked as
often as it is credited, exactly if no purchase is delivered whose event id is
in the ledger already. -/
theorem reportedOnce_iff (w : World) (events : List StripeEvent) :
    ReportedOnce (deliveries w events) ↔ ∀ d ∈ deliveries w events, d.redelivered = false := by
  constructor
  · intro h d hd
    obtain ⟨-, hcompleted, -⟩ := h d.event.object.id
    rw [reports_eq _ (.inl rfl)] at hcompleted
    have hnone := List.countP_eq_zero.mp (Nat.add_eq_left.mp hcompleted) d hd
    simpa using hnone
  · intro h sid
    have hzero : ((deliveries w events).countP fun d =>
        d.redelivered && decide (d.event.object.id = sid)) = 0 := by
      refine List.countP_eq_zero.mpr fun d hd => ?_
      simp [h d hd]
    refine ⟨?_, ?_, ?_⟩
    · have hle := creditsOf_le sid events w
      split at hle <;> omega
    · rw [reports_eq sid (.inl rfl), hzero, Nat.add_zero]
    · rw [reports_eq sid (.inr rfl), hzero, Nat.add_zero]

/-- A paid session of ann's. -/
def paidSession : StripeEvent :=
  ⟨"evt_1", "checkout.session.completed",
    ⟨"cs_1", "paid", ⟨some "ann", some "starter", some "5"⟩, none⟩⟩

/-- Delivered twice, it is credited once and reported twice. -/
theorem not_reportedOnce_twice :
    ¬∀ (w : World) (events : List StripeEvent), ReportedOnce (deliveries w events) := by
  intro hall
  have h := (hall (World.peopled ["ann"] 2) [paidSession, paidSession] "cs_1").2.1
  revert h
  decide +kernel

end VerityBackend.Payments
