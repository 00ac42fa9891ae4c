/-
VerityBackend.App.Replay — whether a delivery of the moderation vendor can be
processed twice.

`verifyWebhookSignature` checks the signature against the body and the
timestamp against the clock, but the signature does not cover the
timestamp. `reserveWebhookDelivery` sets a key, for ten minutes, that
stands for the timestamp and the signature as they are written. So a
second delivery of a body is turned down if it repeats both within the ten
minutes, and processed if it verifies with any other two (`body_replayed`).

Nothing is assumed of a delivery in flight but its place in the procedure:
a call that has not reserved has issued no Prisma call (`Gated`).
-/
import VerityBackend.App.Guards

namespace VerityBackend.App

open Async Store

variable {cfg : AppConfig}

/-! ## Deliveries -/

/-- The body that call `i` delivers, if it is a delivery. -/
def deliveredBy (c : Config (appService cfg).system) (i : Nat) : Option Moderation.Body :=
  match c.calls[i]? with
  | some ⟨.hiveWebhook _ _ rawBody _, _⟩ => some rawBody
  | _ => none

/-- The timestamp and the signature the entry reserved, if it reserved
any. -/
def reserved (e : Entry (appService cfg).system) : Option (String × String) :=
  match e.cmd with
  | .redis (.setNX (.hiveWebhook timestamp signature) _ _) =>
      if (e.before.get (.hiveWebhook timestamp signature)).isNone then some (timestamp, signature)
      else none
  | _ => none

/-- A call to Prisma. -/
def isPrisma : Cmd → Bool
  | .db _ => true
  | _ => false

/-- Call `i` has got as far as the database. -/
def Acted (c : Config (appService cfg).system) (i : Nat) : Prop :=
  ∃ e ∈ c.trace, e.call = i ∧ isPrisma e.cmd = true

/-- Both calls deliver the same body. -/
def SameBody (c : Config (appService cfg).system) (i j : Nat) : Prop :=
  (deliveredBy c i).isSome = true ∧ deliveredBy c i = deliveredBy c j

instance (c : Config (appService cfg).system) (i j : Nat) : Decidable (SameBody c i j) :=
  inferInstanceAs (Decidable (_ ∧ _))

/-- No two deliveries of one body have been acted on. -/
def NotReplayed (c : Config (appService cfg).system) : Prop :=
  ∀ i j, SameBody c i j → Acted c i → Acted c j → i = j

/-- A delivery that gets as far as its reservation repeats the timestamp and
the signature of every accepted delivery of its body, and comes less than
ten minutes after it. -/
def Repeats (c : Config (appService cfg).system) : Event (appService cfg).system → Prop
  | .step i =>
      match c.pending i with
      | some (.redis (.setNX (.hiveWebhook timestamp signature) _ _)) =>
          ∀ e ∈ c.trace, e.call ≠ i → SameBody c e.call i →
            ∀ k ∈ reserved e, k = (timestamp, signature) ∧
              c.world.clock < e.before.clock + Moderation.WEBHOOK_REPLAY_TTL_MS
      | _ => True
  | _ => True

/-- `Repeats`, computed. -/
def repeats (c : Config (appService cfg).system) : Event (appService cfg).system → Bool
  | .step i =>
      match c.pending i with
      | some (.redis (.setNX (.hiveWebhook timestamp signature) _ _)) =>
          decide (∀ e ∈ c.trace, e.call ≠ i → SameBody c e.call i →
            ∀ k ∈ reserved e, k = (timestamp, signature) ∧
              c.world.clock < e.before.clock + Moderation.WEBHOOK_REPLAY_TTL_MS)
      | _ => true
  | _ => true

theorem repeats_iff (c : Config (appService cfg).system) (e : Event (appService cfg).system) :
    repeats c e = true ↔ Repeats c e := by
  unfold repeats Repeats
  split
  · split <;> simp
  · simp

instance (c : Config (appService cfg).system) (e : Event (appService cfg).system) :
    Decidable (Repeats c e) :=
  decidable_of_iff _ (repeats_iff c e)

/-! ## No act without a reservation -/

section Gated

/-- The call has reserved its delivery. -/
def HasReserved (i : Nat) (s : Snap (appService cfg).system) : Prop :=
  ∃ e ∈ s.own i, (reserved e).isSome = true

def isDelivery : AppOp → Bool
  | .hiveWebhook _ _ _ _ => true
  | _ => false

/-- A delivery calls Prisma only after it has reserved. -/
def gate (cfg : AppConfig) : Discipline (appService cfg).system where
  inv _ := True
  admits _ _ _ _ := True
  rely i s s' := s'.own i = s.own i
  guar o i c s := isDelivery o = true → isPrisma c = true → HasReserved i s
  rely_refl _ _ := rfl
  rely_trans _ _ _ _ h h' := h'.trans h

variable {o : AppOp} {i : Nat} {s : Snap (appService cfg).system}

theorem gate_keeps {c : Cmd} (h : isDelivery o = true → isPrisma c = true → HasReserved i s) :
    (gate cfg).Keeps o i c s where
  guar := h
  inv := trivial
  rely _ hj := Snap.exec_own_ne s c hj

/-- What has reserved may go on as it likes. -/
theorem gate_reserved {α : Type} (p : Prog α) (h : HasReserved i s) :
    (gate cfg).Valid o i p (fun _ _ => True) s := by
  refine (Discipline.valid_of_conforms p.conforms_any (J := HasReserved i) ?_ ?_ h).weaken
    fun _ _ _ => trivial
  · intro s s' hrely hs
    obtain ⟨e, he, hres⟩ := hs
    exact ⟨e, by rw [hrely]; exact he, hres⟩
  · intro c s _ _ hs
    refine ⟨gate_keeps fun _ _ => hs, ?_, .inr trivial⟩
    obtain ⟨e, he, hres⟩ := hs
    exact ⟨e, by rw [Snap.exec_own_self]; exact List.mem_cons_of_mem _ he, hres⟩

theorem gate_other {α : Type} (p : Prog α) (h : isDelivery o = false) :
    (gate cfg).Valid o i p (fun _ _ => True) s := by
  refine (Discipline.valid_of_conforms p.conforms_any (J := fun _ => True) (fun _ _ _ _ => trivial)
    ?_ trivial).weaken fun _ _ _ => trivial
  intro c s _ _ _
  refine ⟨gate_keeps fun ho => ?_, trivial, .inr trivial⟩
  rw [h] at ho
  cases ho

theorem verify_issues (cfg : Moderation.HiveConfig) (rawBody : Moderation.Body)
    (signature timestamp : Option String) :
    (Moderation.verifyWebhookSignature cfg rawBody signature timestamp).Conforms
      (fun c => isPrisma c = false) True :=
  (Moderation.verifyWebhookSignature_issues cfg rawBody signature timestamp).mono fun _ hc => by
    rw [hc]
    rfl

/-- The reservation decides whether the delivery is processed. -/
theorem gate_handleWebhook {self : Instance} {sched : Moderation.Schedules}
    {payload : Moderation.HiveViolationPayload} {delivery : Moderation.HiveWebhookDelivery}
    {signature timestamp : String} (hsignature : Moderation.present delivery.signature = some signature)
    (htimestamp : Moderation.present delivery.timestamp = some timestamp) :
    (gate cfg).Valid o i (Moderation.handleWebhook self sched payload delivery)
      (fun _ _ => True) s := by
  unfold Moderation.handleWebhook
  split
  · trivial
  · rw [hsignature, htimestamp]
    refine valid_redis fun s' _ _ _ => ⟨gate_keeps fun _ h => (by cases h), ?_⟩
    cases hget : s'.world.get (.hiveWebhook timestamp (Moderation.rawSignature signature)) with
    | some r =>
        simp only [RedisCmd.exec, hget]
        trivial
    | none =>
        simp only [RedisCmd.exec, hget]
        refine gate_reserved _ ⟨_, by rw [Snap.exec_own_self]; exact List.mem_cons_self, ?_⟩
        simp [reserved, hget]

/-- A delivery without the two headers is turned down. -/
theorem gate_hiveWebhook {self : Instance} {sched : Moderation.Schedules}
    {rawBody : Moderation.Body} {delivery : Moderation.HiveWebhookDelivery} :
    (gate cfg).Valid o i (Moderation.hiveWebhook cfg.hive self sched rawBody delivery)
      (fun _ _ => True) s := by
  cases hsignature : Moderation.present delivery.signature with
  | none =>
      unfold Moderation.hiveWebhook Moderation.verifyWebhookSignature
      cases Moderation.present cfg.hive.secret with
      | none => trivial
      | some secret =>
          rw [hsignature]
          trivial
  | some signature =>
      cases htimestamp : Moderation.present delivery.timestamp with
      | none =>
          unfold Moderation.hiveWebhook Moderation.verifyWebhookSignature
          cases Moderation.present cfg.hive.secret with
          | none => trivial
          | some secret =>
              rw [hsignature, htimestamp]
              trivial
      | some timestamp =>
          refine Discipline.valid_bind ((Discipline.valid_of_conforms
            (verify_issues cfg.hive rawBody delivery.signature delivery.timestamp)
            (J := fun _ => True) (fun _ _ _ _ => trivial) ?_ trivial).weaken ?_)
          · intro c s' hc _ _
            refine ⟨gate_keeps fun _ h => ?_, trivial, .inr trivial⟩
            rw [hc] at h
            cases h
          · intro r s' _
            cases r with
            | error e => trivial
            | ok a => exact gate_handleWebhook hsignature htimestamp

theorem gate_governs : (gate cfg).Governs (fun _ _ => True) fun _ _ _ _ => True where
  start c o _ _ _ := by
    cases ho : isDelivery o with
    | false => exact gate_other _ ho
    | true =>
        cases o with
        | hiveWebhook self sched rawBody delivery => exact gate_hiveWebhook
        | _ => cases ho
  step _ _ _ _ _ _ _ _ := trivial
  env _ _ _ _ := ⟨trivial, fun _ => rfl⟩

end Gated

/-! ## The invariant -/

section Invariant

/-- A reservation is there for ten minutes, deliveries of one body have not
reserved twice, and only deliveries that have reserved have acted. -/
structure ReplayInv (c : Config (appService cfg).system) : Prop where
  past : ∀ e ∈ c.trace, e.before.clock ≤ c.world.clock
  kept : ∀ e ∈ c.trace, ∀ k ∈ reserved e, ∃ v t,
    c.world.stored (.hiveWebhook k.1 k.2) = some ⟨v, some t⟩ ∧
      e.before.clock + Moderation.WEBHOOK_REPLAY_TTL_MS ≤ t
  once : ∀ e ∈ c.trace, ∀ e' ∈ c.trace, (reserved e).isSome = true → (reserved e').isSome = true →
    SameBody c e.call e'.call → e.call = e'.call
  gated : ∀ e ∈ c.trace, (deliveredBy c e.call).isSome = true → isPrisma e.cmd = true →
    ∃ e' ∈ c.trace, e'.call = e.call ∧ (reserved e').isSome = true

theorem ReplayInv.notReplayed {c : Config (appService cfg).system} (h : ReplayInv c) :
    NotReplayed c := by
  rintro i j hsame ⟨e, he, rfl, hacted⟩ ⟨e', he', rfl, hacted'⟩
  obtain ⟨x, hx, hcall, hres⟩ := h.gated e he hsame.1 hacted
  obtain ⟨x', hx', hcall', hres'⟩ := h.gated e' he' (hsame.2 ▸ hsame.1) hacted'
  rw [← hcall, ← hcall']
  refine h.once x hx x' hx' hres hres' ?_
  rwa [hcall, hcall']

variable {c : Config (appService cfg).system}

/-- A call delivers what it has delivered all along. -/
theorem deliveredBy_next {i : Nat} (hi : i < c.calls.length)
    (e : Event (appService cfg).system) : deliveredBy (c.next e) i = deliveredBy c i := by
  unfold deliveredBy
  cases e with
  | start o =>
      have hget : (c.next (.start o)).calls[i]? = c.calls[i]? := List.getElem?_append_left hi
      rw [hget]
  | env e => rfl
  | step j =>
      cases hp : c.pending j with
      | none => rw [Config.next_step_of_pending_none hp]
      | some cmd =>
          obtain ⟨o, k, hc⟩ := Config.pending_eq_some.mp hp
          rw [Config.next_step_of_call hc]
          by_cases hij : j = i
          · subst hij
            rw [List.getElem?_set_self hi, hc]
            cases o <;> rfl
          · rw [List.getElem?_set_ne hij]

theorem sameBody_next {i j : Nat} (hi : i < c.calls.length) (hj : j < c.calls.length)
    (e : Event (appService cfg).system) : SameBody (c.next e) i j ↔ SameBody c i j := by
  unfold SameBody
  rw [deliveredBy_next hi, deliveredBy_next hj]

theorem reserved_eq_some {e : Entry (appService cfg).system} {k : String × String}
    (h : reserved e = some k) : (∃ v ttl, e.cmd = .redis (.setNX (.hiveWebhook k.1 k.2) v ttl)) ∧
      e.before.get (.hiveWebhook k.1 k.2) = none := by
  obtain ⟨call, cmd, before⟩ := e
  unfold reserved at h
  split at h
  · next timestamp signature v ttl hcmd =>
      split at h
      · next hnone =>
          cases h
          exact ⟨⟨v, ttl, hcmd⟩, Option.isNone_iff_eq_none.mp hnone⟩
      · cases h
  · cases h

/-- A reservation lasts, whatever is executed. -/
theorem stored_delivery_exec {cmd : Cmd} (hcmd : Guarding none cmd) {w : World}
    {timestamp signature : String} {v : RedisString} {t u : Nat}
    (hstored : w.stored (.hiveWebhook timestamp signature) = some ⟨v, some t⟩) (ht : u ≤ t)
    (hu : u ≤ w.clock + Moderation.WEBHOOK_REPLAY_TTL_MS) :
    ∃ v' t', (cmd.exec w).2.stored (.hiveWebhook timestamp signature) = some ⟨v', some t'⟩ ∧
      u ≤ t' := by
  by_cases htouch : cmd.touches (.hiveWebhook timestamp signature)
  · obtain ⟨v', rfl⟩ := hcmd.delivery timestamp signature htouch
    cases hget : w.get (.hiveWebhook timestamp signature) with
    | some r =>
        refine ⟨v, t, ?_, ht⟩
        simp only [Cmd.exec_redis, RedisCmd.exec, hget]
        exact hstored
    | none =>
        refine ⟨v', w.clock + Moderation.WEBHOOK_REPLAY_TTL_MS, ?_, hu⟩
        simp only [Cmd.exec_redis, RedisCmd.exec, hget]
        exact World.stored_set_self _ _ _ _
  · exact ⟨v, t, (Cmd.stored_exec htouch w).trans hstored, ht⟩

/-- The key a reservation has just set. -/
theorem stored_reserved {cmd : Cmd} (hcmd : Guarding none cmd) {i : Nat} {w : World}
    {k : String × String}
    (h : reserved (⟨i, cmd, w⟩ : Entry (appService cfg).system) = some k) :
    ∃ v, (cmd.exec w).2.stored (.hiveWebhook k.1 k.2) =
      some ⟨v, some (w.clock + Moderation.WEBHOOK_REPLAY_TTL_MS)⟩ := by
  obtain ⟨⟨v, ttl, hset⟩, hget⟩ := reserved_eq_some h
  have hset : cmd = .redis (.setNX (.hiveWebhook k.1 k.2) v ttl) := hset
  have hget : w.get (.hiveWebhook k.1 k.2) = none := hget
  obtain ⟨v', hv'⟩ := hcmd.delivery k.1 k.2 (by rw [hset]; rfl)
  refine ⟨v', ?_⟩
  rw [hv']
  simp only [Cmd.exec_redis, RedisCmd.exec, hget]
  exact World.stored_set_self _ _ _ _

/-- **Step lemma**: a reservation that repeats the accepted one fails. -/
theorem replay_step (h : ReplayInv c) (hindexed : c.Indexed) {i : Nat} {o : AppOp} {cmd : Cmd}
    {k : Except Err cmd.Res → Prog o.Ret} (hc : c.calls[i]? = some ⟨o, .call cmd k⟩)
    (hcmd : Guarding none cmd)
    (hgate : isDelivery o = true → isPrisma cmd = true → HasReserved i c.toSnap)
    (hrepeats : Repeats c (.step i)) : ReplayInv (c.next (.step i)) := by
  have hi : i < c.calls.length := (List.getElem?_eq_some_iff.mp hc).1
  have hworld : (c.next (.step i)).world = (cmd.exec c.world).2 := by
    rw [Config.next_step_of_call hc]
    rfl
  have htrace : (c.next (.step i)).trace = ⟨i, cmd, c.world⟩ :: c.trace := by
    rw [Config.next_step_of_call hc]
    rfl
  have hpending : c.pending i = some cmd := Config.pending_of_call hc
  -- what has been reserved for this body is not reserved again
  have hnew : ∀ e ∈ c.trace, (reserved e).isSome = true → SameBody c e.call i →
      (reserved (⟨i, cmd, c.world⟩ : Entry (appService cfg).system)).isSome = true →
      e.call = i := by
    intro e he hres hsame hnow
    by_contra hne
    obtain ⟨x, hx⟩ := Option.isSome_iff_exists.mp hres
    obtain ⟨y, hy⟩ := Option.isSome_iff_exists.mp hnow
    obtain ⟨⟨v, ttl, hset⟩, hget⟩ := reserved_eq_some hy
    have hset : cmd = .redis (.setNX (.hiveWebhook y.1 y.2) v ttl) := hset
    simp only [Repeats, hpending, hset] at hrepeats
    obtain ⟨rfl, hlt⟩ := hrepeats e he hne hsame x hx
    obtain ⟨v', t, hstored, ht⟩ := h.kept e he _ hx
    have hlive : World.get c.world (.hiveWebhook y.1 y.2) = some v' :=
      World.get_of_stored hstored (by omega)
    rw [hget] at hlive
    cases hlive
  constructor
  · intro e he
    rw [hworld, cmd.clock_exec]
    rw [htrace] at he
    rcases List.mem_cons.mp he with rfl | he
    · exact Nat.le_refl _
    · exact h.past e he
  · intro e he x hx
    rw [hworld]
    rw [htrace] at he
    rcases List.mem_cons.mp he with rfl | he
    · obtain ⟨v, hv⟩ := stored_reserved hcmd hx
      exact ⟨v, _, hv, Nat.le_refl _⟩
    · obtain ⟨v, t, hstored, ht⟩ := h.kept e he x hx
      have hpast := h.past e he
      exact stored_delivery_exec hcmd hstored ht (by omega)
  · intro e he e' he' hres hres' hsame
    rw [htrace] at he he'
    rcases List.mem_cons.mp he with rfl | he
    · rcases List.mem_cons.mp he' with rfl | he'
      · rfl
      · have hsame' := (sameBody_next hi (hindexed e' he') _).mp hsame
        exact (hnew e' he' hres' ⟨hsame'.2 ▸ hsame'.1, hsame'.2.symm⟩ hres).symm
    · rcases List.mem_cons.mp he' with rfl | he'
      · exact hnew e he hres ((sameBody_next (hindexed e he) hi _).mp hsame) hres'
      · exact h.once e he e' he' hres hres'
          ((sameBody_next (hindexed e he) (hindexed e' he') _).mp hsame)
  · intro e he hdelivered hprisma
    rw [htrace] at he ⊢
    rcases List.mem_cons.mp he with rfl | he
    · have hdelivery : isDelivery o = true := by
        rw [deliveredBy_next hi] at hdelivered
        unfold deliveredBy at hdelivered
        rw [hc] at hdelivered
        cases o <;> first | rfl | cases hdelivered
      obtain ⟨x, hx, hres⟩ := hgate hdelivery hprisma
      obtain ⟨hx, hcall⟩ := List.mem_filter.mp hx
      exact ⟨x, List.mem_cons_of_mem _ hx, of_decide_eq_true hcall, hres⟩
    · rw [deliveredBy_next (hindexed e he)] at hdelivered
      obtain ⟨x, hx, hcall, hres⟩ := h.gated e he hdelivered hprisma
      exact ⟨x, List.mem_cons_of_mem _ hx, hcall, hres⟩

/-- **A captured delivery is not processed again**, in every run in which
deliveries of its body repeat its two headers within ten minutes. -/
theorem delivery_not_replayed (cfg : AppConfig) (w : World)
    (es : List (Event (appService cfg).system))
    (hes : (Config.initial w : Config (appService cfg).system).Obeys Repeats es) :
    NotReplayed ((Config.initial w : Config (appService cfg).system).run es) := by
  have hrun := @Config.run_induct (appService cfg).system Repeats
    (fun c => ReplayInv c ∧ (gate cfg).Sound (fun _ _ _ _ => True) c ∧
      c.Going (Guarding none) (Expected none)) ?_ es _ hes ?_
  · exact hrun.1.notReplayed
  · rintro c e hok ⟨hinv, hsound, hgoing⟩
    refine ⟨?_, hsound.next gate_governs trivial,
      hgoing.next (fun o _ => guarded_code cfg o) fun _ cmd _ _ _ => expected_none cmd _⟩
    cases e with
    | start o =>
        have hsame (x y : Nat) (hx : x < c.calls.length) (hy : y < c.calls.length) :=
          sameBody_next (c := c) hx hy (.start o)
        refine ⟨hinv.past, hinv.kept, fun e he e' he' hres hres' h => ?_, fun e he hdelivered hp => ?_⟩
        · exact hinv.once e he e' he' hres hres'
            ((hsame _ _ (hsound.indexed e he) (hsound.indexed e' he')).mp h)
        · rw [deliveredBy_next (hsound.indexed e he)] at hdelivered
          exact hinv.gated e he hdelivered hp
    | env e =>
        cases e with
        | tick ms =>
            exact ⟨fun e he => Nat.le_trans (hinv.past e he) (Nat.le_add_right _ _), hinv.kept,
              hinv.once, hinv.gated⟩
    | step i =>
        cases hp : c.pending i with
        | none => rwa [Config.next_step_of_pending_none hp]
        | some cmd =>
            obtain ⟨o, k, hc⟩ := Config.pending_eq_some.mp hp
            exact replay_step hinv hsound.indexed hc (hgoing.pending hp)
              (hsound.keeps gate_governs trivial hc).1.guar hok
  · exact ⟨⟨fun e he => (by cases he), fun e he => (by cases he), fun e he => (by cases he),
      fun e he => (by cases he)⟩, Discipline.sound_initial trivial, fun t ht => (by cases ht)⟩

end Invariant

/-! ## A replay -/

/-- The session of `ann` and `bob`, and the vendor's configuration. -/
def violatedSession : World :=
  let w := { World.peopled ["ann", "bob"] 1 with clock := 1000000000000 }
  { w with db := { w.db with sessions := [⟨"s", "ann", "bob", none, none, 1000000000000⟩] } }

def vendorApp : AppConfig := ⟨⟨"access secret", "refresh secret", fun t => t.jti⟩,
  Moderation.violationConfig⟩

def deliver (timestamp : String) : Event (appService vendorApp).system :=
  .start (.hiveWebhook 0 ⟨[], []⟩ Moderation.violationBody
    ⟨some Moderation.violationSignature, some timestamp⟩)

/-- The delivery, and its repetition a minute later. -/
def deliveredTwice : List (Event (appService vendorApp).system) :=
  (deliver "1000000000" :: List.replicate 30 (.step 0) : List (Event (appService vendorApp).system)) ++
    (.env (.tick 60000) :: deliver "1000000000" ::
      List.replicate 30 (.step 1) : List (Event (appService vendorApp).system))

theorem delivery_not_replayed_deliveredTwice :
    NotReplayed ((Config.initial violatedSession : Config (appService vendorApp).system).run
      deliveredTwice) :=
  delivery_not_replayed vendorApp violatedSession deliveredTwice (by decide +kernel)

/-- A minute later the same body and signature come with the timestamp of
that minute, and the violation is recorded once more. -/
def redated : List (Event (appService vendorApp).system) :=
  (deliver "1000000000" :: List.replicate 30 (.step 0) : List (Event (appService vendorApp).system)) ++
    (.env (.tick 60000) :: deliver "1000000060" ::
      List.replicate 30 (.step 1) : List (Event (appService vendorApp).system))

theorem delivery_replayed :
    let c : Config (appService vendorApp).system := (Config.initial violatedSession).run redated
    (World.db c.world).moderationEvents.map (·.userId) = ["ann", "bob", "ann", "bob"] ∧
      ¬NotReplayed c := by
  intro c
  have hrun : (World.db c.world).moderationEvents.map (·.userId) = ["ann", "bob", "ann", "bob"] ∧
      SameBody c 0 1 ∧
      ∀ i ∈ [0, 1], c.trace.any (fun e => e.call = i ∧ isPrisma e.cmd = true) = true := by
    decide +kernel
  obtain ⟨hevents, hsame, hany⟩ := hrun
  have hacted : ∀ i ∈ [0, 1], Acted c i := by
    intro i hi
    obtain ⟨e, he, h⟩ := List.any_eq_true.mp (hany i hi)
    obtain ⟨hcall, hprisma⟩ := of_decide_eq_true h
    exact ⟨e, he, hcall, hprisma⟩
  refine ⟨hevents, fun h => ?_⟩
  have h01 := h 0 1 hsame (hacted 0 (by simp)) (hacted 1 (by simp))
  cases h01

end VerityBackend.App
