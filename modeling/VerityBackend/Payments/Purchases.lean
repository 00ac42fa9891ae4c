/-
VerityBackend.Payments.Purchases — what is credited was bought, and what is
acknowledged was credited.

Purchases, deliveries of events (again and again, forged ones among them)
and deletions of accounts come in any order. If Stripe keeps its promises,
every credit is a pack that its user bought and that has been paid, and no
session is credited twice (`credits_purchased`); and a delivery about a
session of ours that is answered with `{ received: true }` has been credited
(`acknowledged_credited`).
-/
import VerityBackend.Payments.Checkout

namespace VerityBackend.Payments

open Async Auth

variable {cfg : PaymentsConfig}

/-! ## The ledger -/

/-- A credit that took effect. -/
structure Commits (e : Entry (checkoutSystem cfg)) (u : UserId) (n : Nat) (sid eid : String) :
    Prop where
  cmd : ∃ pack, e.cmd = .backend (.db (.creditTransaction u pack n sid eid))
  credited : Credited u n sid eid e.before.world.db e.after.world.db

theorem Commits.inj {e : Entry (checkoutSystem cfg)} {u u' : UserId} {n n' : Nat}
    {sid sid' eid eid' : String} (h : Commits e u n sid eid) (h' : Commits e u' n' sid' eid') :
    u = u' ∧ n = n' ∧ sid = sid' ∧ eid = eid' := by
  obtain ⟨pack, hcmd⟩ := h.cmd
  obtain ⟨pack', hcmd'⟩ := h'.cmd
  have heq := hcmd.symm.trans hcmd'
  simp only [CheckoutCmd.backend.injEq, Cmd.db.injEq, DbCmd.creditTransaction.injEq] at heq
  exact ⟨heq.1, heq.2.2.1, heq.2.2.2.1, heq.2.2.2.2⟩

/-- The row of a credit. -/
def Booked (trace : List (Entry (checkoutSystem cfg))) (t : TokenTransaction) : Prop :=
  t.type = .CREDIT ∧ ∃ e ∈ trace, ∃ sid eid, Commits e t.userId t.amount sid eid ∧
    t.stripeSessionId = some sid ∧ t.stripeEventId = some eid

theorem Booked.mono {trace trace' : List (Entry (checkoutSystem cfg))} {t : TokenTransaction}
    (h : Booked trace t) (hsub : trace ⊆ trace') : Booked trace' t := by
  obtain ⟨htype, e, he, hrest⟩ := h
  exact ⟨htype, e, hsub he, hrest⟩

/-- A purchase that an event reports, which verifies. -/
def Sold (cfg : PaymentsConfig) (u : UserId) (n : Nat) (sid eid : String) : Prop :=
  ∃ event pack, Verified cfg event ∧ event.purchase = some ⟨u, pack, n⟩ ∧ event.object.id = sid ∧
    event.id = eid

/-- Every row is one of a credit, at any time; the row of a credit stays as
long as its user; a credit is a purchase that a verified event reports. -/
structure Balanced (c : Config (checkoutSystem cfg)) : Prop where
  rows : ∀ t ∈ c.world.world.db.tokenTransactions, Booked c.trace t
  past : ∀ e ∈ c.trace, ∀ t ∈ e.before.world.db.tokenTransactions, Booked c.trace t
  kept : ∀ e ∈ c.trace, ∀ u n sid eid, Commits e u n sid eid → c.world.world.db.users u = none ∨
    ∃ t ∈ c.world.world.db.tokenTransactions, t.userId = u ∧ t.stripeSessionId = some sid
  sold : ∀ e ∈ c.trace, ∀ u n sid eid, Commits e u n sid eid → Sold cfg u n sid eid

/-- The credits are of sessions that have been opened, each of one of its
own. -/
structure Single (c : Config (checkoutSystem cfg)) : Prop where
  reported : ∀ e ∈ c.trace, ∀ u n sid eid, Commits e u n sid eid → ∃ event pack params,
    event.purchase = some ⟨u, pack, n⟩ ∧ event.object.id = sid ∧ Reports c.trace event params
  once : c.trace.Pairwise fun e e' => ∀ u u' n n' sid sid' eid eid', Commits e u n sid eid →
    Commits e' u' n' sid' eid' → sid ≠ sid'

/-- Rows are lost with their users, and nobody comes back. -/
structure Shrinks (d d' : Db) : Prop where
  old : ∀ t ∈ d'.tokenTransactions, t ∈ d.tokenTransactions
  kept : ∀ t ∈ d.tokenTransactions, t ∈ d'.tokenTransactions ∨ d'.users t.userId = none
  users : ∀ u, d.users u = none → d'.users u = none

theorem Shrinks.refl (d : Db) : Shrinks d d := ⟨fun _ => id, fun _ => .inl, fun _ => id⟩

/-- The environment does that. -/
theorem shrinks_env (e : CheckoutEnv) (s : Shop) : Shrinks s.world.db (s.env e).world.db := by
  cases e with
  | tick ms => exact .refl _
  | setBalance userId tokenBalance =>
      cases huser : s.world.db.users userId with
      | none =>
          have hsame : s.env (.setBalance userId tokenBalance) = s := by simp only [Shop.env, huser]
          rw [hsame]
          exact .refl _
      | some user =>
          have hdb : (s.env (.setBalance userId tokenBalance)).world.db =
              s.world.db.setUser userId { user with tokenBalance := tokenBalance } := by
            simp only [Shop.env, huser]
            rfl
          rw [hdb]
          refine ⟨fun _ => id, fun _ => .inl, fun u hu => ?_⟩
          have hne : u ≠ userId := by
            rintro rfl
            rw [huser] at hu
            cases hu
          exact (if_neg hne).trans hu
  | deleteAccount userId =>
      by_cases huser : s.world.db.hasUser userId = true
      · have hdb : (s.env (.deleteAccount userId)).world.db = s.world.db.deleteAccount userId := by
          simp only [Shop.env, World.deleteAccount, if_pos huser]
          rfl
        rw [hdb]
        refine ⟨fun t ht => (List.mem_filter.mp ht).1, fun t ht => ?_, fun u hu => ?_⟩
        · by_cases ht' : t.userId = userId
          · exact .inr (if_pos ht')
          · exact .inl (List.mem_filter.mpr ⟨ht, by simpa using ht'⟩)
        · by_cases hu' : u = userId
          · exact if_pos hu'
          · exact (if_neg hu').trans hu
      · have hsame : s.world.deleteAccount userId = s.world := if_neg huser
        change Shrinks _ (s.world.deleteAccount userId).db
        rw [hsame]
        exact .refl _

/-- A purchase is that of the metadata. -/
theorem StripeEvent.purchase_metadata {event : StripeEvent} {p : Purchase}
    (h : event.purchase = some p) : event.object.metadata.purchase = some p := by
  unfold StripeEvent.purchase at h
  split at h
  · cases h
  split at h
  · cases h
  · exact h

section Steps

variable {c : Config (checkoutSystem cfg)} {i : Nat} {o : CheckoutOp} {cmd : CheckoutCmd}
  {calls : List (Task (checkoutSystem cfg))}

/-- A command that leaves the tables alone credits nothing. -/
theorem not_commits_of_quiet {s : Shop} (hdb : (cmd.exec cfg s).2.world.db = s.world.db) {u : UserId}
    {n : Nat} {sid eid : String} :
    ¬Commits (⟨i, cmd, s⟩ : Entry (checkoutSystem cfg)) u n sid eid := by
  intro hcommits
  obtain ⟨row, hrow, -⟩ := hcommits.credited.row
  change (cmd.exec cfg s).2.world.db.tokenTransactions = _ at hrow
  rw [hdb] at hrow
  exact absurd (congrArg List.length hrow) (by simp)

theorem Balanced.env (h : Balanced c) (e : CheckoutEnv) : Balanced (c.next (.env e)) := by
  have hshrinks := shrinks_env e c.world
  refine ⟨fun t ht => h.rows t (hshrinks.old t ht), h.past, fun e he u n sid eid hcommits => ?_, h.sold⟩
  rcases h.kept e he u n sid eid hcommits with hnone | ⟨t, ht, rfl, hsid⟩
  · exact .inl (hshrinks.users u hnone)
  · rcases hshrinks.kept t ht with ht | hnone
    · exact .inr ⟨t, ht, rfl, hsid⟩
    · exact .inl hnone

/-- **Step lemma** for a command that credits nothing. -/
theorem Balanced.exec_quiet (h : Balanced c)
    (hdb : (cmd.exec cfg c.world).2.world.db = c.world.world.db) :
    Balanced { toSnap := c.toSnap.exec i cmd, calls := calls } := by
  have hsub : c.trace ⊆ (⟨i, cmd, c.world⟩ : Entry (checkoutSystem cfg)) :: c.trace :=
    List.subset_cons_self _ _
  refine ⟨?_, fun e he t ht => ?_, fun e he u n sid eid hcommits => ?_,
    fun e he u n sid eid hcommits => ?_⟩
  · change ∀ t ∈ (cmd.exec cfg c.world).2.world.db.tokenTransactions, _
    rw [hdb]
    exact fun t ht => (h.rows t ht).mono hsub
  · rcases List.mem_cons.mp he with rfl | he
    · exact (h.rows t ht).mono hsub
    · exact (h.past e he t ht).mono hsub
  · change (cmd.exec cfg c.world).2.world.db.users u = none ∨
      ∃ t ∈ (cmd.exec cfg c.world).2.world.db.tokenTransactions, _
    rw [hdb]
    rcases List.mem_cons.mp he with rfl | he
    · exact (not_commits_of_quiet hdb hcommits).elim
    · exact h.kept e he u n sid eid hcommits
  · rcases List.mem_cons.mp he with rfl | he
    · exact (not_commits_of_quiet hdb hcommits).elim
    · exact h.sold e he u n sid eid hcommits

/-- **Step lemma** for a credit. -/
theorem Balanced.exec_credit (h : Balanced c) {u : UserId} {pack : String} {n : Nat}
    {event : StripeEvent}
    (hcmd : cmd = .backend (.db (.creditTransaction u pack n event.object.id event.id)))
    (hevent : Verified cfg event) (hpurchase : event.purchase = some ⟨u, pack, n⟩)
    (hdb : Credited u n event.object.id event.id c.world.world.db (cmd.exec cfg c.world).2.world.db)
    (husers : ∀ u', c.world.world.db.users u' = none →
      (cmd.exec cfg c.world).2.world.db.users u' = none) :
    Balanced { toSnap := c.toSnap.exec i cmd, calls := calls } := by
  have hnew : Commits (⟨i, cmd, c.world⟩ : Entry (checkoutSystem cfg)) u n event.object.id event.id :=
    ⟨⟨pack, hcmd⟩, hdb⟩
  obtain ⟨row, hrows, htype, huserId, hamount, hsid, heid⟩ := hdb.row
  have hbooked : Booked ((⟨i, cmd, c.world⟩ : Entry (checkoutSystem cfg)) :: c.trace) row := by
    refine ⟨htype, _, List.mem_cons_self, _, _, ?_, hsid, heid⟩
    rw [huserId, hamount]
    exact hnew
  have hsub : c.trace ⊆ (⟨i, cmd, c.world⟩ : Entry (checkoutSystem cfg)) :: c.trace :=
    List.subset_cons_self _ _
  refine ⟨?_, fun e he t ht => ?_, fun e he u' n' sid' eid' hcommits => ?_,
    fun e he u' n' sid' eid' hcommits => ?_⟩
  · change ∀ t ∈ (cmd.exec cfg c.world).2.world.db.tokenTransactions, _
    rw [hrows]
    intro t ht
    rcases List.mem_append.mp ht with ht | ht
    · exact (h.rows t ht).mono hsub
    · rw [List.mem_singleton.mp ht]
      exact hbooked
  · rcases List.mem_cons.mp he with rfl | he
    · exact (h.rows t ht).mono hsub
    · exact (h.past e he t ht).mono hsub
  · change (cmd.exec cfg c.world).2.world.db.users u' = none ∨
      ∃ t ∈ (cmd.exec cfg c.world).2.world.db.tokenTransactions, _
    rw [hrows]
    rcases List.mem_cons.mp he with rfl | he
    · obtain ⟨rfl, -, rfl, -⟩ := hnew.inj hcommits
      exact .inr ⟨row, List.mem_append_right _ (List.mem_singleton_self _), huserId, hsid⟩
    · rcases h.kept e he u' n' sid' eid' hcommits with hnone | ⟨t, ht, hrest⟩
      · exact .inl (husers u' hnone)
      · exact .inr ⟨t, List.mem_append_left _ ht, hrest⟩
  · rcases List.mem_cons.mp he with rfl | he
    · obtain ⟨rfl, rfl, rfl, rfl⟩ := hnew.inj hcommits
      exact ⟨event, pack, hevent, hpurchase, rfl, rfl⟩
    · exact h.sold e he u' n' sid' eid' hcommits

/-- **Step lemma** for a command that credits nothing. -/
theorem Single.exec_quiet (h : Single c)
    (hdb : (cmd.exec cfg c.world).2.world.db = c.world.world.db) :
    Single { toSnap := c.toSnap.exec i cmd, calls := calls } := by
  refine ⟨fun e he u n sid eid hcommits => ?_, ?_⟩
  · rcases List.mem_cons.mp he with rfl | he
    · exact (not_commits_of_quiet hdb hcommits).elim
    · obtain ⟨event, pack, params, hpurchase, hsid, hreports⟩ := h.reported e he u n sid eid hcommits
      exact ⟨event, pack, params, hpurchase, hsid, hreports.later _⟩
  · exact List.pairwise_cons.mpr ⟨fun e' _ u u' n n' sid sid' eid eid' hcommits =>
      (not_commits_of_quiet hdb hcommits).elim, h.once⟩

/-- **Step lemma** for a credit: an earlier one of the same session was of
the same user, whose row would still be there. -/
theorem Single.exec_credit (h : Single c) (hledger : Balanced c) (htrue : Truthful c) {u : UserId}
    {pack : String} {n : Nat} {event : StripeEvent} {params : SessionParams}
    (hcmd : cmd = .backend (.db (.creditTransaction u pack n event.object.id event.id)))
    (hpurchase : event.purchase = some ⟨u, pack, n⟩) (hreports : Reports c.trace event params)
    (hdb : Credited u n event.object.id event.id c.world.world.db (cmd.exec cfg c.world).2.world.db)
    (huser : c.world.world.db.users u ≠ none) :
    Single { toSnap := c.toSnap.exec i cmd, calls := calls } := by
  have hnew : Commits (⟨i, cmd, c.world⟩ : Entry (checkoutSystem cfg)) u n event.object.id event.id :=
    ⟨⟨pack, hcmd⟩, hdb⟩
  refine ⟨fun e he u' n' sid' eid' hcommits => ?_, ?_⟩
  · rcases List.mem_cons.mp he with rfl | he
    · obtain ⟨rfl, rfl, rfl, rfl⟩ := hnew.inj hcommits
      exact ⟨event, pack, params, hpurchase, rfl, hreports.later _⟩
    · obtain ⟨event', pack', params', hpurchase', hsid', hreports'⟩ :=
        h.reported e he u' n' sid' eid' hcommits
      exact ⟨event', pack', params', hpurchase', hsid', hreports'.later _⟩
  · refine List.pairwise_cons.mpr ⟨?_, h.once⟩
    intro e' he' u₁ u' n₁ n' sid₁ sid' eid₁ eid' hcommits₁ hcommits hsid'
    obtain ⟨rfl, rfl, rfl, rfl⟩ := hnew.inj hcommits₁
    obtain ⟨event', pack', params', hpurchase', hid', hreports'⟩ :=
      h.reported e' he' u' n' sid' eid' hcommits
    have hmetadata := htrue.metadata_inj hreports hreports' (hsid'.trans hid'.symm)
    have hsame := StripeEvent.purchase_metadata hpurchase
    rw [hmetadata, StripeEvent.purchase_metadata hpurchase'] at hsame
    obtain rfl : u' = u := congrArg Purchase.userId (Option.some.inj hsame)
    rcases hledger.kept e' he' u' n' sid' eid' hcommits with hnone | ⟨t, ht, -, hrow⟩
    · exact huser hnone
    · have hmem : t ∈ rowsOf c.world.world.db event.object.id :=
        List.mem_filter.mpr ⟨ht, by simpa [hsid'] using hrow⟩
      rw [hdb.fresh] at hmem
      cases hmem

end Steps

/-! ## Runs -/

/-- A delivery that reports a purchase verifies. -/
theorem verified_of_event {o : CheckoutOp} {event : StripeEvent} (h : o.event cfg = some event) :
    Verified cfg event := by
  cases o with
  | getBalance user => cases h
  | purchase user packId => cases h
  | handleWebhook payload signature =>
      cases hverified : verifyStripeSignature cfg payload signature with
      | error e =>
          simp only [CheckoutOp.event, hverified] at h
          cases h
      | ok event' =>
          rw [event_handleWebhook hverified] at h
          cases h
          exact ⟨payload, signature, hverified⟩

/-- **Step lemma.** -/
theorem balanced_next {c : Config (checkoutSystem cfg)} (ev : Event (checkoutSystem cfg))
    (h : Balanced c ∧ c.Issues (CheckoutOp.May cfg)) :
    Balanced (c.next ev) ∧ (c.next ev).Issues (CheckoutOp.May cfg) := by
  obtain ⟨hledger, hissues⟩ := h
  refine ⟨?_, hissues.next (conforms_code cfg) ev⟩
  cases ev with
  | env e => exact hledger.env e
  | start o => exact ⟨hledger.rows, hledger.past, hledger.kept, hledger.sold⟩
  | step i =>
      cases hp : c.pending i with
      | none =>
          rw [Config.next_step_of_pending_none hp]
          exact hledger
      | some cmd =>
          obtain ⟨o, k, hc⟩ := Config.pending_eq_some.mp hp
          have hmay := (hissues.calls _ (List.mem_of_getElem? hc)).1
          rw [Config.next_step_of_call hc]
          cases effect hmay c.world with
          | quiet db => exact hledger.exec_quiet db
          | credited cmd op purchase db user users =>
              exact hledger.exec_credit cmd (verified_of_event op) purchase db users

theorem balanced_initial {w : World} (hw : w.db.tokenTransactions = []) :
    Balanced (Config.initial (Shop.opening w) : Config (checkoutSystem cfg)) := by
  refine ⟨fun t ht => ?_, fun e he => absurd he List.not_mem_nil,
    fun e he => absurd he List.not_mem_nil, fun e he => absurd he List.not_mem_nil⟩
  change t ∈ w.db.tokenTransactions at ht
  rw [hw] at ht
  cases ht

/-- **Run lemma**: the ledger is balanced whatever Stripe does. -/
theorem balanced_run {w : World} (hw : w.db.tokenTransactions = [])
    (es : List (Event (checkoutSystem cfg))) :
    let c := (Config.initial (Shop.opening w)).run es
    Balanced c ∧ c.Issues (CheckoutOp.May cfg) :=
  Config.run_induct (P := fun c => Balanced c ∧ c.Issues (CheckoutOp.May cfg))
    (fun _ ev _ h => balanced_next ev h) es _ (Config.obeys_of_forall (fun _ _ => trivial) _ es)
    ⟨balanced_initial hw, Config.issues_initial _ _⟩

/-- **Step lemma**, if Stripe is honest. -/
theorem single_next {c : Config (checkoutSystem cfg)} {ev : Event (checkoutSystem cfg)}
    (h : Single c) (hledger : Balanced c) (htrue : Truthful c)
    (hissues : c.Issues (CheckoutOp.May cfg)) : Single (c.next ev) := by
  cases ev with
  | env e => exact ⟨h.reported, h.once⟩
  | start o => exact ⟨h.reported, h.once⟩
  | step i =>
      cases hp : c.pending i with
      | none =>
          rw [Config.next_step_of_pending_none hp]
          exact h
      | some cmd =>
          obtain ⟨o, k, hc⟩ := Config.pending_eq_some.mp hp
          have htask := List.mem_of_getElem? hc
          have hmay := (hissues.calls _ htask).1
          rw [Config.next_step_of_call hc]
          cases effect hmay c.world with
          | quiet db => exact h.exec_quiet db
          | credited cmd op purchase db user users =>
              obtain ⟨params, hreports⟩ := htrue.reported _ htask _ _ op purchase
              exact h.exec_credit hledger htrue cmd purchase hreports db user

/-- **Run lemma**, if Stripe is honest. -/
theorem single_run {w : World} (hw : w.db.tokenTransactions = [])
    {es : List (Event (checkoutSystem cfg))}
    (hes : (Config.initial (Shop.opening w)).Obeys (Honest cfg) es) :
    Single ((Config.initial (Shop.opening w)).run es) := by
  refine (Config.run_induct
    (P := fun c : Config (checkoutSystem cfg) =>
      Single c ∧ Truthful c ∧ Balanced c ∧ c.Issues (CheckoutOp.May cfg))
    (fun c ev hhonest h => ⟨single_next h.1 h.2.2.1 h.2.1 h.2.2.2, h.2.1.next hhonest,
      balanced_next ev h.2.2⟩) es _ hes
    ⟨⟨fun e he => absurd he List.not_mem_nil, .nil⟩, ⟨?_, fun t ht => absurd ht List.not_mem_nil⟩,
      balanced_initial hw, Config.issues_initial _ _⟩).1
  rintro sid params params' ⟨e, he, -⟩
  cases he

/-! ## What is bought -/

/-- The session was opened for a purchase of the pack by this user, at its
price. -/
def Bought (c : Config (checkoutSystem cfg)) (sid : String) (u : UserId) (pack : TokenPack) : Prop :=
  ∃ e ∈ c.trace, ∃ user packId priceId p, c.calls[e.call]? = some ⟨.purchase user packId, p⟩ ∧
    user.sub = u ∧ u ≠ "" ∧ Offered cfg packId pack priceId ∧
    opened e.cmd e.res = some (sessionParams cfg u pack priceId, sid)

theorem opened_params {params params' : SessionParams} {sid : String}
    {r : Except Err CheckoutAnswer} (h : opened (.sessionsCreate params) r = some (params', sid)) :
    params = params' := by
  cases r with
  | error e => cases h
  | ok answer => exact congrArg Prod.fst (Option.some.inj h)

/-- Only purchases open sessions. -/
theorem bought {c : Config (checkoutSystem cfg)} (hissues : c.Issues (CheckoutOp.May cfg))
    {sid : String} {params : SessionParams} (h : Opened c.trace sid params) :
    ∃ u pack priceId, Bought c sid u pack ∧ params = sessionParams cfg u pack priceId ∧ u ≠ "" ∧
      pack ∈ TOKEN_PACKS := by
  obtain ⟨⟨i, cmd, s⟩, he, hopened⟩ := h
  obtain ⟨o, p, hcall, hmay⟩ := hissues.trace _ he
  cases hmay with
  | read _ | emit _ | pays _ _ => cases hopened
  | opens op sub offered =>
      subst op
      have hparams : params = _ := (opened_params hopened).symm
      subst hparams
      exact ⟨_, _, _, ⟨_, he, _, _, _, p, hcall, rfl, sub, offered, hopened⟩, rfl, sub, offered.mem⟩

/-- What is sold can be read back. -/
theorem tokenCount_of_mem :
    ∀ pack ∈ TOKEN_PACKS, tokenCount (toString pack.tokens) = some pack.tokens ∧ pack.id ≠ "" ∧
      toString pack.tokens ≠ "" := by
  decide

/-- The metadata of a session is its purchase. -/
theorem purchase_sessionParams {u : UserId} {pack : TokenPack} (hu : u ≠ "")
    (hpack : pack ∈ TOKEN_PACKS) (priceId : String) :
    (sessionParams cfg u pack priceId).metadata.purchase = some ⟨u, pack.id, pack.tokens⟩ := by
  obtain ⟨hcount, hid, hraw⟩ := tokenCount_of_mem pack hpack
  have hset : ¬(u = "" ∨ pack.id = "" ∨ toString pack.tokens = "") := by
    rintro (h | h | h)
    · exact hu h
    · exact hid h
    · exact hraw h
  simp only [sessionParams, CheckoutMetadata.purchase, if_neg hset, hcount, Option.map_some]

/-- What an event reports that carries the metadata of a session. -/
theorem Reports.bought {c : Config (checkoutSystem cfg)} (hissues : c.Issues (CheckoutOp.May cfg))
    {event : StripeEvent} {params : SessionParams} (h : Reports c.trace event params) :
    ∃ u pack, Bought c event.object.id u pack ∧
      event.object.metadata.purchase = some ⟨u, pack.id, pack.tokens⟩ := by
  obtain ⟨u, pack, priceId, hbought, rfl, hu, hpack⟩ := Payments.bought hissues h.opened
  refine ⟨u, pack, hbought, ?_⟩
  rw [h.metadata, purchase_sessionParams hu hpack]

theorem StripeEvent.purchase_eq {event : StripeEvent} (htype : event.type = "checkout.session.completed")
    (hpaid : event.object.paymentStatus = "paid") :
    event.purchase = event.object.metadata.purchase := by
  unfold StripeEvent.purchase
  rw [if_neg (not_not.mpr htype), if_neg (not_not.mpr hpaid)]

theorem StripeEvent.paid_of_purchase {event : StripeEvent} {p : Purchase}
    (h : event.purchase = some p) : event.object.paymentStatus = "paid" := by
  unfold StripeEvent.purchase at h
  split at h
  · cases h
  split at h
  · cases h
  · next hpaid => exact not_not.mp hpaid

/-- **What is credited was bought and paid for**, in every interleaving of
purchases and deliveries, with accounts deleted and tokens spent at any time,
if Stripe keeps its promises: every row of the ledger is that of a credit;
every credit is of a checkout session that the user's own purchase opened, at
the price of the pack, of the pack's tokens, and reported as paid by an event
that verifies; no two credits are of one session. -/
theorem credits_purchased {w : World} (hw : w.db.tokenTransactions = [])
    {es : List (Event (checkoutSystem cfg))}
    (hes : (Config.initial (Shop.opening w)).Obeys (Honest cfg) es) :
    let c := (Config.initial (Shop.opening w)).run es
    (∀ t ∈ c.world.world.db.tokenTransactions, Booked c.trace t) ∧
      (∀ e ∈ c.trace, ∀ u n sid eid, Commits e u n sid eid →
        (∃ pack, Bought c sid u pack ∧ n = pack.tokens) ∧
          ∃ event, Verified cfg event ∧ event.id = eid ∧ event.object.id = sid ∧
            event.object.paymentStatus = "paid") ∧
      c.trace.Pairwise fun e e' => ∀ u u' n n' sid sid' eid eid', Commits e u n sid eid →
        Commits e' u' n' sid' eid' → sid ≠ sid' := by
  intro c
  obtain ⟨hledger, hissues⟩ := balanced_run hw es
  have hsingle := single_run hw hes
  refine ⟨hledger.rows, fun e he u n sid eid hcommits => ⟨?_, ?_⟩, hsingle.once⟩
  · obtain ⟨event, packId, params, hpurchase, rfl, hreports⟩ :=
      hsingle.reported e he u n sid eid hcommits
    obtain ⟨u', pack, hbought, hmetadata⟩ := hreports.bought hissues
    rw [StripeEvent.purchase_metadata hpurchase] at hmetadata
    have hsame := Option.some.inj hmetadata
    obtain rfl : u = u' := congrArg Purchase.userId hsame
    exact ⟨pack, hbought, congrArg Purchase.tokens hsame⟩
  · obtain ⟨event, packId, hverified, hpurchase, hsid, heid⟩ := hledger.sold e he u n sid eid hcommits
    exact ⟨event, hverified, heid, hsid, StripeEvent.paid_of_purchase hpurchase⟩

/-- The event of ann's first session. -/
def plusEvent : StripeEvent :=
  ⟨"evt_1", "checkout.session.completed",
    ⟨"c0", "paid", ⟨some "ann", some "plus", some "15"⟩, some "eur"⟩⟩

/-- A deployment for which Stripe signs that event only. -/
def plusConfig : PaymentsConfig where
  env := fun name =>
    if name = "STRIPE_PRICE_PLUS" then some "price_1"
    else if name = "STRIPE_WEBHOOK_SECRET" then some "whsec" else none
  sessionsCreate := fun asked _ =>
    .ok ⟨freshId asked, some ("https://checkout.stripe.com/c/pay/" ++ freshId asked)⟩
  constructEvent := fun payload sig _ =>
    if payload = "body" ∧ sig = "t=1,v1=aa" then .ok plusEvent
    else .error (.command "StripeSignatureVerificationError")

/-- ann buys a pack; its event is delivered twice, a forged one in between. -/
def plusRun : List (Event (checkoutSystem plusConfig)) :=
  [.start (.purchase ⟨"ann", "access", .USER⟩ "plus"), .step 0,
    .start (.handleWebhook "body" (some (.single "t=1,v1=aa"))), .step 1,
    .start (.handleWebhook "forged" (some (.single "t=1,v1=bb"))), .step 0,
    .start (.handleWebhook "body" (some (.single "t=1,v1=aa"))), .step 3, .step 3, .step 1, .step 3]

/-- A command of the backend opens no session. -/
theorem newId_of_backend {c : Config (checkoutSystem cfg)} {i : Nat} {d : Cmd}
    (h : c.pending i = some (.backend d)) : NewId cfg c (.step i) := by
  intro cmd hcmd params sid hopened
  rw [h] at hcmd
  cases hcmd
  cases hopened

theorem honest_plusRun :
    (Config.initial (Shop.opening (World.peopled ["ann"] 2))).Obeys (Honest plusConfig) plusRun := by
  have hquiet {c : Config (checkoutSystem plusConfig)} {i : Nat} {d : Cmd}
      (h : c.pending i = some (.backend d)) : Honest plusConfig c (.step i) :=
    ⟨newId_of_backend h, trivial⟩
  have hbody {c : Config (checkoutSystem plusConfig)}
      (h : Opened c.trace "c0" (sessionParams plusConfig "ann" ⟨"plus", 15, "STRIPE_PRICE_PLUS"⟩ "price_1")) :
      Honest plusConfig c (.start (.handleWebhook "body" (some (.single "t=1,v1=aa")))) := by
    refine ⟨trivial, fun event purchase hevent _ => ?_⟩
    obtain rfl : plusEvent = event := Option.some.inj hevent
    exact ⟨_, h, rfl⟩
  refine ⟨⟨trivial, fun event purchase h => by cases h⟩, ⟨?_, trivial⟩, hbody ?_, hquiet rfl,
    ⟨trivial, fun event purchase h => by cases h⟩, hquiet rfl, hbody ?_, hquiet rfl, hquiet rfl,
    hquiet rfl, hquiet rfl, trivial⟩
  · rintro cmd - params sid - params' ⟨e, he, -⟩
    cases he
  · exact ⟨_, List.mem_cons_self, rfl⟩
  · exact ⟨_, List.mem_of_getLast? rfl, rfl⟩

theorem credits_purchased_plus :
    let c := (Config.initial (Shop.opening (World.peopled ["ann"] 2))).run plusRun
    (∀ t ∈ c.world.world.db.tokenTransactions, Booked c.trace t) ∧
      (∀ e ∈ c.trace, ∀ u n sid eid, Commits e u n sid eid →
        (∃ pack, Bought c sid u pack ∧ n = pack.tokens) ∧
          ∃ event, Verified plusConfig event ∧ event.id = eid ∧ event.object.id = sid ∧
            event.object.paymentStatus = "paid") ∧
      c.trace.Pairwise fun e e' => ∀ u u' n n' sid sid' eid eid', Commits e u n sid eid →
        Commits e' u' n' sid' eid' → sid ≠ sid' :=
  credits_purchased rfl honest_plusRun

/-- Both deliveries have looked for the row before there was one: the second
transaction fails, and its delivery with it. -/
example :
    let c := (Config.initial (Shop.opening (World.peopled ["ann"] 2))).run plusRun
    balance c.world.world.db "ann" = 17 ∧ (rowsOf c.world.world.db "c0").length = 1 := by
  decide

/-! ## What is acknowledged -/

/-- The event has been credited. -/
def Known (trace : List (Entry (checkoutSystem cfg))) (eid : String) : Prop :=
  ∃ e ∈ trace, ∃ u n sid, Commits e u n sid eid

/-- A row that is found, and a transaction that commits, is on the trace. -/
def LedgerAnswer (trace : List (Entry (checkoutSystem cfg))) : (c : Cmd) → Except Err c.Res → Prop
  | .db (.tokenTransactionFindUnique eid), r => ∀ row, r = .ok (some row) → Known trace eid
  | .db (.creditTransaction _ _ _ _ eid), r => r = .ok () → Known trace eid
  | _, _ => True

def ShopAnswer (trace : List (Entry (checkoutSystem cfg))) : (c : CheckoutCmd) → Except Err c.Res → Prop
  | .backend c, r => LedgerAnswer trace c r
  | _, _ => True

/-- A delivery that reports a purchase is not acknowledged otherwise. -/
def Acknowledges (trace : List (Entry (checkoutSystem cfg))) (o : CheckoutOp)
    (r : Except Err o.Ret) : Prop :=
  ∀ event purchase, o.event cfg = some event → event.purchase = some purchase →
    (∃ a, r = .ok a) → Known trace event.id

section Procedures

variable {trace : List (Entry (checkoutSystem cfg))}

theorem meets_creditPurchase (event : StripeEvent) (purchase : Purchase) :
    (creditPurchase event purchase).Meets (fun _ => True) (LedgerAnswer trace)
      fun r => r = .ok () → Known trace event.id := by
  refine ⟨trivial, fun r hr => ?_⟩
  cases r with
  | error e => exact fun h => by cases h
  | ok existing =>
      cases existing with
      | some row => exact fun _ => hr row rfl
      | none => exact ⟨trivial, fun r hr => hr⟩

theorem meets_handleStripeWebhookEvent (event : StripeEvent) :
    (handleStripeWebhookEvent event).Meets (fun _ => True) (LedgerAnswer trace)
      fun r => ∀ purchase, event.purchase = some purchase → r = .ok () → Known trace event.id := by
  unfold handleStripeWebhookEvent
  cases hpurchase : event.purchase with
  | none => exact Proc.meets_pure fun purchase h => by cases h
  | some purchase =>
      refine (meets_creditPurchase event purchase).bind (fun _ hknown => ?_) fun e _ => ?_
      · exact ⟨trivial, fun r _ p _ _ => hknown rfl⟩
      · intro p _ h
        cases h

theorem meets_code (o : CheckoutOp) :
    (o.code cfg).Meets (fun _ => True) (ShopAnswer trace) (Acknowledges trace o) := by
  cases o with
  | getBalance user =>
      have hconforms : (balanceOf user).Conforms (CheckoutOp.May cfg (.getBalance user)) True :=
        conforms_balanceOf user
      exact (hconforms.keeps trivial).mono (fun _ _ => trivial) fun r _ event p hop => by cases hop
  | purchase user packId =>
      exact ((conforms_purchase user packId).keeps trivial).mono (fun _ _ => trivial)
        fun r _ event p hop => by cases hop
  | handleWebhook payload signature =>
      change (handleWebhook cfg payload signature).Meets _ _ _
      unfold handleWebhook
      cases hevent : verifyStripeSignature cfg payload signature with
      | error e =>
          exact Proc.meets_fail fun event p _ _ hok => by
            obtain ⟨a, ha⟩ := hok
            cases ha
      | ok event =>
          have hembed : (onShop (handleStripeWebhookEvent event)).Meets (fun _ => True)
              (ShopAnswer trace)
              fun r => ∀ p, event.purchase = some p → r = .ok () → Known trace event.id :=
            (meets_handleStripeWebhookEvent event).embed (fun _ _ => trivial) fun c r hr => hr
          refine hembed.mono (fun _ _ => trivial) ?_
          intro r hr event' p hop hpurchase hok
          obtain rfl : event = event' :=
            Option.some.inj ((event_handleWebhook hevent).symm.trans hop)
          obtain ⟨a, rfl⟩ := hok
          exact hr p hpurchase rfl

end Procedures

/-- The answers of a run are on its trace. -/
theorem Balanced.answers {c : Config (checkoutSystem cfg)} (h : Balanced c) :
    ∀ e ∈ c.trace, ShopAnswer c.trace e.cmd e.res := by
  rintro ⟨i, cmd, s⟩ he
  cases cmd with
  | sessionsCreate params => trivial
  | backend cmd =>
      cases cmd with
      | redis cmd => trivial
      | host cmd => trivial
      | db cmd =>
          cases cmd with
          | tokenTransactionFindUnique eid =>
              intro row hrow
              have hfind : s.world.db.tokenTransactions.find? (·.stripeEventId = some eid) = some row :=
                Except.ok.inj hrow
              obtain ⟨-, e', he', sid, eid', hcommits, -, heid⟩ :=
                h.past _ he row (List.mem_of_find?_eq_some hfind)
              have heq : row.stripeEventId = some eid := by simpa using List.find?_some hfind
              obtain rfl : eid = eid' := Option.some.inj (heq.symm.trans heid)
              exact ⟨e', he', _, _, sid, hcommits⟩
          | creditTransaction u pack n sid eid =>
              intro hok
              rcases creditTransaction_answer u pack n sid eid s.world with ⟨-, hcredited⟩ | ⟨herror, -⟩
              · exact ⟨_, he, u, n, sid, ⟨pack, rfl⟩, hcredited⟩
              · obtain ⟨err, herr⟩ := herror
                exact absurd (herr.symm.trans hok) (by simp)
          | _ => trivial

/-- **What is acknowledged was credited.** If a delivery of a completed, paid
checkout session that was opened here, with the metadata it was opened with,
was answered with `{ received: true }`, the pack its user bought has been
credited. Of Stripe's other events nothing is assumed but that they have
identifiers of their own. -/
theorem acknowledged_credited {w : World} (hw : w.db.tokenTransactions = [])
    (hids : EventIds cfg) {es : List (Event (checkoutSystem cfg))} {i : Nat} {payload : String}
    {signature : Option HeaderValue} {event : StripeEvent} {params : SessionParams}
    (hevent : verifyStripeSignature cfg payload signature = .ok event)
    (htype : event.type = "checkout.session.completed")
    (hpaid : event.object.paymentStatus = "paid") :
    let c := (Config.initial (Shop.opening w)).run es
    Reports c.trace event params → c.Settled i (.handleWebhook payload signature) (.ok ()) →
      ∃ u pack, Bought c event.object.id u pack ∧
        ∃ e ∈ c.trace, Commits e u pack.tokens event.object.id event.id := by
  intro c hreports hsettled
  obtain ⟨hledger, hissues⟩ := balanced_run hw es
  have hcourse : c.OnCourse (fun _ _ _ => True) (fun _ => ShopAnswer c.trace)
      fun o _ => Acknowledges c.trace o :=
    Config.run_meets (fun o _ => meets_code o) _ es hledger.answers
  obtain ⟨u, pack, hbought, hmetadata⟩ := hreports.bought hissues
  have hpurchase : event.purchase = some ⟨u, pack.id, pack.tokens⟩ := by
    rw [StripeEvent.purchase_eq htype hpaid, hmetadata]
  obtain ⟨e, he, u', n, sid, hcommits⟩ :=
    hcourse.settled hsettled event _ (event_handleWebhook hevent) hpurchase ⟨(), rfl⟩
  -- events have identifiers of their own, so that the credit is of this one
  obtain ⟨event', packId, hverified, hpurchase', rfl, heid⟩ := hledger.sold e he u' n sid event.id hcommits
  obtain rfl : event' = event := hids event' event hverified ⟨payload, signature, hevent⟩ heid
  have hsame := Option.some.inj (hpurchase.symm.trans hpurchase')
  obtain rfl : u = u' := congrArg Purchase.userId hsame
  obtain rfl : pack.tokens = n := congrArg Purchase.tokens hsame
  exact ⟨u, pack, hbought, e, he, hcommits⟩

theorem eventIds_plusConfig : EventIds plusConfig := by
  have hone : ∀ event, Verified plusConfig event → event = plusEvent := by
    rintro event ⟨payload, signature, hverified⟩
    unfold verifyStripeSignature at hverified
    split at hverified
    · cases hverified
    split at hverified
    · cases hverified
    simp only [plusConfig] at hverified
    split at hverified
    · cases hverified
      rfl
    · cases hverified
  exact fun event event' h h' _ => (hone event h).trans (hone event' h').symm

theorem acknowledged_credited_plus :
    ∃ u pack, Bought ((Config.initial (Shop.opening (World.peopled ["ann"] 2))).run plusRun)
        plusEvent.object.id u pack ∧
      ∃ e ∈ ((Config.initial (Shop.opening (World.peopled ["ann"] 2))).run plusRun).trace,
        Commits e u pack.tokens plusEvent.object.id plusEvent.id :=
  have hevent : verifyStripeSignature plusConfig "body" (some (.single "t=1,v1=aa")) =
      .ok plusEvent := rfl
  have hreports : Reports ((Config.initial (Shop.opening (World.peopled ["ann"] 2))).run plusRun).trace
      plusEvent (sessionParams plusConfig "ann" ⟨"plus", 15, "STRIPE_PRICE_PLUS"⟩ "price_1") :=
    ⟨⟨_, List.mem_of_getLast? rfl, rfl⟩, rfl⟩
  have hsettled : ((Config.initial (Shop.opening (World.peopled ["ann"] 2))).run plusRun).Settled 3
      (.handleWebhook "body" (some (.single "t=1,v1=aa"))) (.ok ()) := rfl
  acknowledged_credited rfl eventIds_plusConfig hevent rfl rfl hreports hsettled

end VerityBackend.Payments
