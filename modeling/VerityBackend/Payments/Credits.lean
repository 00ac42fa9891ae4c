/-
VerityBackend.Payments.Credits — a paid checkout session is credited once.

Deliveries of `handleStripeWebhookEvent` are interleaved in any order. A
command of theirs either leaves every balance and the ledger alone or is a
`creditTransaction` that commits: then no row carried its session before,
and one row does afterwards (`creditTransaction_effect`). `Ledgered` is what
follows for the commands executed so far; it is an invariant of every run.
-/
import VerityBackend.Payments.Service

namespace VerityBackend.Payments

open Async

/-! ## Balances and the ledger -/

def balance (d : Db) (u : UserId) : Nat := ((d.users u).map (·.tokenBalance)).getD 0

/-- The sum of the amounts of the user's CREDIT rows. -/
def creditSum (d : Db) (u : UserId) : Nat :=
  ((d.tokenTransactions.filter fun t => t.userId = u ∧ t.type = .CREDIT).map (·.amount)).sum

/-- The rows of a checkout session. -/
def rowsOf (d : Db) (stripeSessionId : String) : List TokenTransaction :=
  d.tokenTransactions.filter (·.stripeSessionId = some stripeSessionId)

/-! ## What a command does -/

/-- What a committed credit does to the balances and the ledger. -/
structure Credited (u : UserId) (n : Nat) (sid eid : String) (d d' : Db) : Prop where
  fresh : rowsOf d sid = []
  balance : ∀ u', balance d' u' = balance d u' + if u' = u then n else 0
  row : ∃ row : TokenTransaction, d'.tokenTransactions = d.tokenTransactions ++ [row] ∧
    row.type = .CREDIT ∧ row.userId = u ∧ row.amount = n ∧ row.stripeSessionId = some sid ∧
    row.stripeEventId = some eid

/-- The transaction commits and answers, or it fails and changes nothing. -/
theorem creditTransaction_answer (u : UserId) (pack : String) (n : Nat) (sid eid : String) (w : World) :
    (((DbCmd.creditTransaction u pack n sid eid).exec w).1 = .ok () ∧
      Credited u n sid eid w.db ((DbCmd.creditTransaction u pack n sid eid).exec w).2.db) ∨
    ((∃ err, ((DbCmd.creditTransaction u pack n sid eid).exec w).1 = .error err) ∧
      ((DbCmd.creditTransaction u pack n sid eid).exec w).2 = w) := by
  simp only [DbCmd.exec]
  split
  · exact .inr ⟨⟨_, rfl⟩, rfl⟩
  · next user huser =>
      split
      · exact .inr ⟨⟨_, rfl⟩, rfl⟩
      split
      · exact .inr ⟨⟨_, rfl⟩, rfl⟩
      · next hnone =>
          refine .inl ⟨rfl, ?_, fun u' => ?_, _, rfl, rfl, rfl, rfl, rfl, rfl⟩
          · rw [rowsOf, List.filter_eq_nil_iff]
            intro t ht hsid
            apply hnone
            rw [List.any_eq_true]
            exact ⟨t, ht, by simp_all [TokenTransaction.clashes]⟩
          · by_cases hu : u' = u
            · subst hu
              simp [World.create, balance, Db.setUser, huser]
            · simp [World.create, balance, Db.setUser, hu]

/-- The transaction commits or it changes nothing. -/
theorem creditTransaction_effect (u : UserId) (pack : String) (n : Nat) (sid eid : String)
    (w : World) :
    let d' := ((DbCmd.creditTransaction u pack n sid eid).exec w).2.db
    d' = w.db ∨ Credited u n sid eid w.db d' := by
  rcases creditTransaction_answer u pack n sid eid w with ⟨-, h⟩ | ⟨-, h⟩
  · exact .inr h
  · exact .inl (congrArg World.db h)

/-- A credit adds its amount to the ledger's sum of its user. -/
theorem Credited.creditSum {u : UserId} {n : Nat} {sid eid : String} {d d' : Db}
    (h : Credited u n sid eid d d') (u' : UserId) :
    creditSum d' u' = creditSum d u' + if u' = u then n else 0 := by
  obtain ⟨row, hrows, htype, huser, hamount, -⟩ := h.row
  unfold Payments.creditSum
  rw [hrows, List.filter_append, List.map_append, List.sum_append]
  congr 1
  by_cases hu : u' = u
  · simp [htype, huser, hamount, hu]
  · simp [huser, hu, Ne.symm hu]

/-- A credit leaves the rows of other sessions alone. -/
theorem Credited.rowsOf_ne {u : UserId} {n : Nat} {sid eid : String} {d d' : Db}
    (h : Credited u n sid eid d d') {sid' : String} (hne : sid' ≠ sid) :
    rowsOf d' sid' = rowsOf d sid' := by
  obtain ⟨row, hrows, -, -, -, hsid, -⟩ := h.row
  unfold rowsOf
  rw [hrows, List.filter_append]
  simp [hsid, Ne.symm hne]

/-- The commands the webhook issues for an operation. -/
def Pays (o : PaymentsOp) : Cmd → Prop
  | .db (.tokenTransactionFindUnique _) => True
  | .db (.creditTransaction u pack n sid eid) =>
      o.event.purchase = some ⟨u, pack, n⟩ ∧ sid = o.event.object.id ∧ eid = o.event.id
  | .host (.emit _) => True
  | _ => False

theorem pays_handleStripeWebhookEvent (o : PaymentsOp) :
    (handleStripeWebhookEvent o.event).Conforms (Pays o) True := by
  unfold handleStripeWebhookEvent
  cases hp : o.event.purchase with
  | none => exact Proc.conforms_pure ()
  | some purchase =>
      refine Proc.Conforms.bind ?_ fun _ => Proc.conforms_await trivial
      refine Proc.Conforms.bind (Proc.conforms_await trivial) fun existing => ?_
      split
      · exact Proc.conforms_pure ()
      · exact Proc.conforms_await ⟨hp, rfl, rfl⟩

/-- A command of the webhook changes nothing or it is a credit. -/
theorem exec_pays {o : PaymentsOp} {c : Cmd} (hc : Pays o c) (w : World) :
    (c.exec w).2.db = w.db ∨ ∃ u pack n sid eid,
      c = .db (.creditTransaction u pack n sid eid) ∧
        Credited u n sid eid w.db (c.exec w).2.db := by
  cases c with
  | redis c => exact hc.elim
  | host c => exact .inl (c.exec_redis w).2.2
  | db c =>
      cases c with
      | tokenTransactionFindUnique eid => exact .inl rfl
      | creditTransaction u pack n sid eid =>
          rcases creditTransaction_effect u pack n sid eid w with h | h
          · exact .inl h
          · exact .inr ⟨u, pack, n, sid, eid, rfl, h⟩
      | _ => exact hc.elim

/-! ## The invariant -/

/-- What the ledger says of a credit: one row of its session, with its user,
amount and event. -/
def Recorded (u : UserId) (n : Nat) (sid eid : String) (d : Db) : Prop :=
  ∃ row : TokenTransaction, rowsOf d sid = [row] ∧ row.type = .CREDIT ∧ row.userId = u ∧
    row.amount = n ∧ row.stripeEventId = some eid

/-- The command raised the balance of `u` by `n`, as a credit. -/
structure CreditOf (e : Entry paymentsService.system) (u : UserId) (n : Nat) (sid eid : String) :
    Prop where
  cmd : ∃ pack, e.cmd = .db (.creditTransaction u pack n sid eid)
  balance : balance e.after.db u = balance e.before.db u + n

/-- The command changed the balance of `u`. -/
def Changes (e : Entry paymentsService.system) (u : UserId) : Prop :=
  balance e.after.db u ≠ balance e.before.db u

/-- The invariant: since `d₀` the balances have grown by what the ledger has
grown by, every change has one row, and no session has two changes. -/
structure Ledgered (d₀ : Db) (s : Snap paymentsService.system) : Prop where
  total : ∀ u, balance s.world.db u + creditSum d₀ u = balance d₀ u + creditSum s.world.db u
  changes : ∀ e ∈ s.trace, ∀ u, Changes e u →
    ∃ n sid eid, CreditOf e u n sid eid ∧ Recorded u n sid eid s.world.db
  once : s.trace.Pairwise fun e e' => ∀ u u' n n' sid sid' eid eid', Changes e u → Changes e' u' →
    CreditOf e u n sid eid → CreditOf e' u' n' sid' eid' → sid ≠ sid'

theorem ledgered_initial (w : World) : Ledgered w.db ⟨w, []⟩ where
  total u := rfl
  changes e he := by cases he
  once := .nil

theorem Recorded.of_credited {u u' : UserId} {n n' : Nat} {sid sid' eid eid' : String} {d d' : Db}
    (h : Recorded u' n' sid' eid' d) (hc : Credited u n sid eid d d') :
    Recorded u' n' sid' eid' d' := by
  obtain ⟨row, hrows, hrow⟩ := h
  refine ⟨row, ?_, hrow⟩
  rw [hc.rowsOf_ne, hrows]
  rintro rfl
  rw [hc.fresh] at hrows
  cases hrows

theorem Credited.recorded {u : UserId} {n : Nat} {sid eid : String} {d d' : Db}
    (h : Credited u n sid eid d d') : Recorded u n sid eid d' := by
  obtain ⟨row, hrows, htype, huser, hamount, hsid, heid⟩ := h.row
  refine ⟨row, ?_, htype, huser, hamount, heid⟩
  have hfresh := h.fresh
  unfold rowsOf at hfresh ⊢
  rw [hrows, List.filter_append, hfresh]
  simp [hsid]

/-- **Step lemma**. -/
theorem Ledgered.exec {d₀ : Db} {s : Snap paymentsService.system} (h : Ledgered d₀ s)
    {o : PaymentsOp} (i : Nat) {c : Cmd} (hc : Pays o c) : Ledgered d₀ (s.exec i c) := by
  rcases exec_pays hc s.world with hdb | ⟨u, pack, n, sid, eid, rfl, hcred⟩
  · have hsame : ∀ u, ¬Changes ⟨i, c, s.world⟩ u := fun u hne => hne (congrArg (balance · u) hdb)
    have hworld : (s.exec i c).world.db = s.world.db := hdb
    refine ⟨fun u => ?_, fun e he u hu => ?_, ?_⟩
    · rw [hworld]
      exact h.total u
    · rw [hworld]
      rcases List.mem_cons.mp he with rfl | he
      · exact absurd hu (hsame u)
      · exact h.changes e he u hu
    · refine List.pairwise_cons.mpr ⟨fun e' _ u u' n n' sid sid' eid eid' hu => ?_, h.once⟩
      exact absurd hu (hsame u)
  · set c : Cmd := .db (.creditTransaction u pack n sid eid) with hcdef
    have hcred' : Credited u n sid eid s.world.db (s.exec i c).world.db := hcred
    -- only `u` gets anything
    have hself : ∀ u', Changes ⟨i, c, s.world⟩ u' → u' = u := by
      intro u' hu'
      by_contra hne
      have hbal := hcred.balance u'
      rw [if_neg hne] at hbal
      exact hu' hbal
    refine ⟨fun u' => ?_, fun e he u' hu' => ?_, ?_⟩
    · have htotal := h.total u'
      have hbal := hcred'.balance u'
      have hsum := hcred'.creditSum u'
      omega
    · rcases List.mem_cons.mp he with rfl | he
      · obtain rfl := hself u' hu'
        have hbal := hcred.balance u'
        rw [if_pos rfl] at hbal
        exact ⟨n, sid, eid, ⟨⟨pack, rfl⟩, hbal⟩, hcred'.recorded⟩
      · obtain ⟨n', sid', eid', hof, hrec⟩ := h.changes e he u' hu'
        exact ⟨n', sid', eid', hof, hrec.of_credited hcred'⟩
    · refine List.pairwise_cons.mpr ⟨?_, h.once⟩
      intro e' he' u₁ u₂ n₁ n₂ sid₁ sid₂ eid₁ eid₂ _ hu₂ hof₁ hof₂ hsid
      -- the session of the earlier change has a row, this one had none
      obtain ⟨n₃, sid₃, eid₃, hof₃, row, hrows, -⟩ := h.changes e' he' u₂ hu₂
      obtain ⟨pack₁, h₁⟩ := hof₁.cmd
      obtain ⟨pack₂, h₂⟩ := hof₂.cmd
      obtain ⟨pack₃, h₃⟩ := hof₃.cmd
      have h₂₃ := h₂.symm.trans h₃
      simp only [hcdef, Cmd.db.injEq, DbCmd.creditTransaction.injEq] at h₁ h₂₃
      have hfresh := hcred.fresh
      rw [h₁.2.2.2.1, hsid, h₂₃.2.2.2.1, hrows] at hfresh
      cases hfresh

/-! ## The result -/

/-- The command was executed for a delivery of `event`. -/
def DeliveredAs (c : Config paymentsService.system) (e : Entry paymentsService.system)
    (event : StripeEvent) : Prop :=
  ∃ p, c.calls[e.call]? = some ⟨.handleStripeWebhookEvent event, p⟩

/-- A credit is that of the purchase its delivery reports. -/
theorem CreditOf.delivered {c : Config paymentsService.system} (hc : c.Issues Pays)
    {e : Entry paymentsService.system} (he : e ∈ c.trace) {u : UserId} {n : Nat} {sid eid : String}
    (h : CreditOf e u n sid eid) : ∃ event pack, DeliveredAs c e event ∧
      event.purchase = some ⟨u, pack, n⟩ ∧ sid = event.object.id ∧ eid = event.id := by
  obtain ⟨pack, hcmd⟩ := h.cmd
  obtain ⟨⟨event⟩, p, hget, hpays⟩ := hc.trace e he
  rw [hcmd] at hpays
  exact ⟨event, pack, ⟨p, hget⟩, hpays⟩

theorem DeliveredAs.unique {c : Config paymentsService.system}
    {e : Entry paymentsService.system} {event event' : StripeEvent} (h : DeliveredAs c e event)
    (h' : DeliveredAs c e event') : event = event' := by
  obtain ⟨p, hp⟩ := h
  obtain ⟨p', hp'⟩ := h'
  have hcall := Option.some.inj (hp.symm.trans hp')
  cases hcall
  rfl

theorem ledgered_run (w : World) (es : List (Event paymentsService.system)) :
    Ledgered w.db ((Config.initial w).run es).toSnap ∧ ((Config.initial w).run es).Issues Pays := by
  have hall : (Config.initial w : Config paymentsService.system).Obeys (fun _ _ => True) es :=
    Config.obeys_of_forall (fun _ _ => trivial) _ es
  refine Config.run_issued pays_handleStripeWebhookEvent (fun _ i _ _ hc h => h.exec i hc)
    (fun _ e _ h => ?_) es hall (ledgered_initial w)
  cases e
  exact ⟨h.total, h.changes, h.once⟩

/-- **Stripe credits exactly once.** In every interleaving of deliveries,
each change of a balance is the purchase of its delivery, exactly, and has
one CREDIT row; no checkout session changes a balance twice; and every
balance has grown by the amounts of the user's new CREDIT rows. -/
theorem stripe_credits_once (w : World) (es : List (Event paymentsService.system)) :
    let c := (Config.initial w : Config paymentsService.system).run es
    (∀ e ∈ c.trace, ∀ u, Changes e u → ∃ event purchase, DeliveredAs c e event ∧
        event.purchase = some purchase ∧ purchase.userId = u ∧
        balance e.after.db u = balance e.before.db u + purchase.tokens ∧
        Recorded u purchase.tokens event.object.id event.id c.world.db) ∧
      (c.trace.Pairwise fun e e' => ∀ u u' event event', Changes e u → Changes e' u' →
        DeliveredAs c e event → DeliveredAs c e' event' → event.object.id ≠ event'.object.id) ∧
      ∀ u, balance c.world.db u + creditSum w.db u = balance w.db u + creditSum c.world.db u := by
  intro c
  obtain ⟨hledger, hissues⟩ := ledgered_run w es
  refine ⟨fun e he u hu => ?_, ?_, hledger.total⟩
  · obtain ⟨n, sid, eid, hof, hrec⟩ := hledger.changes e he u hu
    obtain ⟨event, pack, hdel, hpurchase, rfl, rfl⟩ := hof.delivered hissues he
    exact ⟨event, ⟨u, pack, n⟩, hdel, hpurchase, rfl, hof.balance, hrec⟩
  · refine hledger.once.imp_of_mem fun {e e'} he he' honce u u' event event' hu hu' hdel hdel' => ?_
    obtain ⟨n, sid, eid, hof, -⟩ := hledger.changes e he u hu
    obtain ⟨n', sid', eid', hof', -⟩ := hledger.changes e' he' u' hu'
    obtain ⟨event₁, -, hdel₁, -, rfl, -⟩ := hof.delivered hissues he
    obtain ⟨event₂, -, hdel₂, -, rfl, -⟩ := hof'.delivered hissues he'
    rw [hdel.unique hdel₁, hdel'.unique hdel₂]
    exact honce u u' n n' _ _ eid eid' hu hu' hof hof'

/-- Two deliveries of one session race: the second commit violates the
unique session and is rolled back. -/
example :
    let event (id : String) : StripeEvent :=
      ⟨id, "checkout.session.completed", "cs", "paid", ⟨some "ann", some "plus", some "15"⟩, none⟩
    let c := (Config.initial (World.peopled ["ann"] 2) : Config paymentsService.system).run
      [.start (.handleStripeWebhookEvent (event "e1")), .start (.handleStripeWebhookEvent (event "e2")),
        .step 0, .step 1, .step 1, .step 0]
    balance c.world.db "ann" = 17 ∧ (rowsOf c.world.db "cs").length = 1 := by
  decide

end VerityBackend.Payments
