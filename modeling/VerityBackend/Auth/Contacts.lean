/-
VerityBackend.Auth.Contacts — phone numbers and email addresses are proved,
and belong to one user.

Calls of all operations on accounts are interleaved in any order, and the
provider answers as it likes. A contact is in the table because a call of
that user's normalised it, had the provider approve it with the code the
user gave, and stored it; no other row has the same one (`contacts_proved`).
That needs a provider, or production: elsewhere a code is not looked at.
-/
import VerityBackend.Auth.Accounts

namespace VerityBackend.Auth

open Async

variable {cfg : AccountConfig}

/-! ## Proved contacts -/

def normalizeContact (cfg : AccountConfig) : ContactKind → String → Option String
  | .phone => normalizePhone
  | .email => normalizeEmail cfg

/-- The operation that proves a contact. -/
def verifyOp (kind : ContactKind) (userId : UserId) (raw code : String) : AccountOp :=
  match kind with
  | .phone => .verifyPhone userId raw code
  | .email => .verifyEmail userId raw code

/-- In call `i`, the provider has approved the code for the identifier. -/
def Approved (trace : List (Entry (accountSystem cfg))) (i : Nat) (identifier code : String) : Prop :=
  ∃ e ∈ trace, e.call = i ∧ e.cmd = .verificationCheck identifier code ∧
    e.before.provider identifier code = .ok ⟨true, some "approved"⟩

/-- A contact is stored by an operation that proves it. -/
def StoresProved (trace : List (Entry (accountSystem cfg))) (o : AccountOp) (i : Nat) :
    AccountCmd → Prop
  | .contactUpdate userId kind value => ∃ raw code, o = verifyOp kind userId raw code ∧
      normalizeContact cfg kind raw = some value ∧ Approved trace i value (jsTrim code)
  | _ => True

/-- What the provider says is on the trace. -/
def ProviderAnswer (trace : List (Entry (accountSystem cfg))) (i : Nat) :
    (c : AccountCmd) → Except Err c.Res → Prop
  | .verificationCheck identifier code, r =>
      r = .ok ⟨true, some "approved"⟩ → Approved trace i identifier code
  | _, _ => True

section Procedures

variable {trace : List (Entry (accountSystem cfg))} {i : Nat}

/-- Returning, it has had the code approved. -/
theorem meets_assertVerificationCodeValid (hstrict : cfg.env.trusting = false)
    (identifier code : String) {o : AccountOp} :
    (assertVerificationCodeValid cfg identifier code).Meets (StoresProved trace o i)
      (ProviderAnswer trace i) fun r => r = .ok () → Approved trace i identifier (jsTrim code) := by
  unfold assertVerificationCodeValid
  split
  · exact Proc.meets_fail fun h => by cases h
  split
  · next hconfigured =>
      split
      · exact Proc.meets_fail fun h => by cases h
      · next hproduction =>
          have htrusting : cfg.env.trusting = true := by
            unfold VerificationEnv.trusting
            rw [hconfigured, Bool.true_and, bne_iff_ne]
            exact hproduction
          rw [htrusting] at hstrict
          cases hstrict
  · refine ⟨trivial, fun r hr => ?_⟩
    cases r with
    | error e => exact fun h => by cases h
    | ok response =>
        obtain ⟨ok, status⟩ := response
        have hrest : Proc.Meets (StoresProved trace o i) (ProviderAnswer trace i)
            (fun r => r = .ok () → Approved trace i identifier (jsTrim code))
            (if !ok then Proc.fail (.unauthorized "Invalid verification code")
              else if status ≠ some "approved" then
                Proc.fail (.unauthorized "Invalid verification code")
              else pure () : AccountProg Unit) := by
          split
          · exact Proc.meets_fail fun h => by cases h
          · next hok =>
              split
              · exact Proc.meets_fail fun h => by cases h
              · next hstatus =>
                  refine Proc.meets_pure fun _ => hr ?_
                  rw [Bool.not_eq_true', Bool.not_eq_false] at hok
                  rw [hok, not_not.mp hstatus]
        exact hrest

theorem meets_verifyContact (hstrict : cfg.env.trusting = false) (kind : ContactKind)
    {userId : UserId} {raw code : String} {invalid inUse : String} :
    (verifyContact cfg kind (normalizeContact cfg kind raw) invalid inUse userId code).Keeps
      (StoresProved trace (verifyOp kind userId raw code) i) (ProviderAnswer trace i) := by
  cases hvalue : normalizeContact cfg kind raw with
  | none => exact Proc.meets_fail trivial
  | some value =>
      refine (meets_assertVerificationCodeValid hstrict value code).bind (fun _ happroved => ?_)
        fun _ _ => trivial
      exact (conforms_storeContact ⟨raw, code, rfl, hvalue, happroved rfl⟩).keeps trivial

end Procedures

/-- Every operation does. -/
theorem keeps_code (hstrict : cfg.env.trusting = false) (trace : List (Entry (accountSystem cfg)))
    (o : AccountOp) (i : Nat) :
    (o.code cfg).Keeps (StoresProved trace o i) (ProviderAnswer trace i) := by
  cases o with
  | verifyPhone userId phoneRaw code => exact meets_verifyContact hstrict .phone
  | verifyEmail userId emailRaw code => exact meets_verifyContact hstrict .email
  | signupAnonymous userAgent ipAddress input =>
      exact (conforms_signupAnonymous (fun _ => trivial) fun _ => trivial).keeps trivial
  | _ =>
      refine ((conforms_code cfg _ fun _ _ _ h => by cases h).keeps trivial).mono (fun c hc => ?_)
        fun _ _ => trivial
      cases hc <;> trivial

/-! ## One user for each contact -/

/-- The identifiers are those handed out, each to one row, and no two rows
have a contact in common. -/
structure Distinct (r : Registry) : Prop where
  issued : ∀ a ∈ r.accounts, ∃ n < r.world.nextId, a.id = freshId n
  ids : (r.accounts.map (·.id)).Nodup
  contacts : ∀ a ∈ r.accounts, ∀ b ∈ r.accounts, ∀ kind value,
    a.contact kind = some value → b.contact kind = some value → a.id = b.id

namespace Distinct

variable {r : Registry}

theorem same {r' : Registry} (h : Distinct r) (haccounts : r'.accounts = r.accounts)
    (hle : r.world.nextId ≤ r'.world.nextId) : Distinct r' where
  issued a ha := by
    obtain ⟨n, hn, hid⟩ := h.issued a (haccounts ▸ ha)
    exact ⟨n, Nat.lt_of_lt_of_le hn hle, hid⟩
  ids := haccounts ▸ h.ids
  contacts := haccounts ▸ h.contacts

/-- An update of one row that gives it no contact another row has. -/
theorem update (h : Distinct r) {id : UserId} {f : Account → Account} {g : User → User}
    (hid : ∀ a, (f a).id = a.id)
    (hcontact : ∀ a kind value, (f a).contact kind = some value → a.contact kind = some value ∨
      ∀ b ∈ r.accounts, b.id ≠ id → b.contact kind ≠ some value) :
    Distinct (r.update id f g).2 := by
  have hrow : ∀ a, (if a.id = id then f a else a).id = a.id := by
    intro a
    split
    · exact hid a
    · rfl
  -- the changed row and another one
  have hother : ∀ a ∈ r.accounts, ∀ b ∈ r.accounts, ∀ kind value, b.id ≠ id →
      (f a).contact kind = some value → b.contact kind = some value → a.id = b.id := by
    intro a ha b hb kind value hb' hfa hvalue
    rcases hcontact a kind value hfa with hold | hfree
    · exact h.contacts a ha b hb kind value hold hvalue
    · exact absurd hvalue (hfree b hb hb')
  unfold Registry.update
  split
  · exact h
  · refine ⟨fun a' ha' => ?_, ?_, fun a' ha' b' hb' kind value hva hvb => ?_⟩
    · obtain ⟨a, ha, rfl⟩ := List.mem_map.mp ha'
      obtain ⟨n, hn, heq⟩ := h.issued a ha
      exact ⟨n, hn, (hrow a).trans heq⟩
    · have hids : (r.accounts.map fun a => if a.id = id then f a else a).map (·.id) =
          r.accounts.map (·.id) := by
        rw [List.map_map]
        exact List.map_congr_left fun a _ => hrow a
      exact hids ▸ h.ids
    · obtain ⟨a, ha, rfl⟩ := List.mem_map.mp ha'
      obtain ⟨b, hb, rfl⟩ := List.mem_map.mp hb'
      rw [hrow, hrow]
      by_cases haid : a.id = id
      · by_cases hbid : b.id = id
        · exact haid.trans hbid.symm
        · rw [if_pos haid] at hva
          rw [if_neg hbid] at hvb
          exact hother a ha b hb kind value hbid hva hvb
      · rw [if_neg haid] at hva
        by_cases hbid : b.id = id
        · rw [if_pos hbid] at hvb
          exact (hother b hb a ha kind value haid hvb hva).symm
        · rw [if_neg hbid] at hvb
          exact h.contacts a ha b hb kind value hva hvb

/-- **Step lemma.** -/
theorem exec (h : Distinct r) (c : AccountCmd) : Distinct (c.exec r).2 := by
  cases c with
  | backend c => exact h.same rfl (c.nextId_le_exec r.world)
  | accountFindUnique id => exact h
  | verificationCheck identifier code => exact h
  | profileUpdate id data =>
      exact h.update (fun _ => rfl) fun a kind value hvalue => .inl (by cases kind <;> exact hvalue)
  | contactUpdate id kind value =>
      simp only [AccountCmd.exec]
      split
      · exact h
      · next hfree =>
          refine h.update (fun a => by simp) fun a kind' value' hvalue => ?_
          rcases Account.contact_withContact hvalue with hold | ⟨rfl, rfl⟩
          · exact .inl hold
          · refine .inr fun b hb hne hb' => hfree ?_
            exact List.any_eq_true.mpr ⟨b, hb, by simp [hne, hb']⟩
  | accountDelete id =>
      simp only [AccountCmd.exec]
      split
      · exact
          { issued := fun a ha => h.issued a (List.mem_filter.mp ha).1
            ids := h.ids.sublist (List.filter_sublist.map _)
            contacts := fun a ha b hb =>
              h.contacts a (List.mem_filter.mp ha).1 b (List.mem_filter.mp hb).1 }
      · exact h
  | userCreate data =>
      have hnew : ∀ a ∈ r.accounts, a.id ≠ freshId r.world.nextId := by
        intro a ha heq
        obtain ⟨n, hn, hid⟩ := h.issued a ha
        exact absurd (freshId_injective (hid.symm.trans heq)) (Nat.ne_of_lt hn)
      refine ⟨fun a ha => ?_, ?_, fun a ha b hb kind value hva hvb => ?_⟩
      · rcases List.mem_append.mp ha with ha | ha
        · obtain ⟨n, hn, hid⟩ := h.issued a ha
          exact ⟨n, Nat.lt_succ_of_lt hn, hid⟩
        · exact ⟨r.world.nextId, Nat.lt_succ_self _, by rw [List.mem_singleton.mp ha]⟩
      · simp only [AccountCmd.exec, List.map_append, List.map_cons, List.map_nil]
        refine List.nodup_append.mpr ⟨h.ids, List.nodup_singleton _, ?_⟩
        intro x hx y hy heq
        obtain ⟨a, ha, rfl⟩ := List.mem_map.mp hx
        exact hnew a ha (heq.trans (List.mem_singleton.mp hy))
      · -- the new row has no contacts
        rcases List.mem_append.mp ha with ha | ha
        · rcases List.mem_append.mp hb with hb | hb
          · exact h.contacts a ha b hb kind value hva hvb
          · rw [List.mem_singleton.mp hb] at hvb
            cases kind <;> cases hvb
        · rw [List.mem_singleton.mp ha] at hva
          cases kind <;> cases hva

theorem env (h : Distinct r) (e : AccountEnv) : Distinct (r.env e) := by
  cases e with
  | tick ms => exact h.same rfl (Nat.le_refl _)
  | provide provider => exact h.same rfl (Nat.le_refl _)
  | setRole userId role =>
      simp only [Registry.env]
      split
      · exact h
      · exact h.same rfl (Nat.le_refl _)

end Distinct

/-- **Run lemma.** -/
theorem distinct_run (es : List (Event (accountSystem cfg))) : Distinct (accountRun cfg es).world := by
  have hes : (Config.initial Registry.empty : Config (accountSystem cfg)).Obeys (fun _ _ => True) es :=
    Config.obeys_of_forall (fun _ _ => trivial) _ _
  have hempty : Distinct Registry.empty :=
    ⟨fun a ha => absurd ha List.not_mem_nil, List.nodup_nil, fun a ha => absurd ha List.not_mem_nil⟩
  refine Config.run_induct (P := fun c : Config (accountSystem cfg) => Distinct c.world) ?_ es _ hes
    hempty
  intro c ev _ h
  cases ev with
  | start o => exact h
  | env e => exact h.env e
  | step i =>
      cases hp : c.pending i with
      | none =>
          rw [Config.next_step_of_pending_none hp]
          exact h
      | some cmd =>
          obtain ⟨o, k, hc⟩ := Config.pending_eq_some.mp hp
          rw [Config.next_step_of_call hc]
          exact h.exec cmd

/-! ## Every run -/

theorem providerAnswer_run {es : List (Event (accountSystem cfg))} {e : Entry (accountSystem cfg)}
    (he : e ∈ (accountRun cfg es).trace) :
    ProviderAnswer (accountRun cfg es).trace e.call e.cmd e.res := by
  obtain ⟨i, c, r⟩ := e
  cases c with
  | verificationCheck identifier code => exact fun happroved => ⟨_, he, rfl, rfl, happroved⟩
  | _ => trivial

/-- **Contacts are proved, and nobody shares one.** -/
theorem contacts_proved (hstrict : cfg.env.trusting = false)
    (es : List (Event (accountSystem cfg))) :
    (∀ a ∈ (accountRun cfg es).world.accounts, ∀ b ∈ (accountRun cfg es).world.accounts,
      ∀ kind value, a.contact kind = some value → b.contact kind = some value → a = b) ∧
    ∀ a ∈ (accountRun cfg es).world.accounts, ∀ kind value, a.contact kind = some value →
      ∃ i raw code p, (accountRun cfg es).calls[i]? = some ⟨verifyOp kind a.id raw code, p⟩ ∧
        normalizeContact cfg kind raw = some value ∧
        Approved (accountRun cfg es).trace i value (jsTrim code) := by
  have hdistinct := distinct_run es
  refine ⟨fun a ha b hb kind value hva hvb => ?_, fun a ha kind value hvalue => ?_⟩
  · exact List.inj_on_of_nodup_map hdistinct.ids ha hb
      (hdistinct.contacts a ha b hb kind value hva hvb)
  · obtain ⟨e, he, hcmd⟩ := (recorded_run es a ha).contact kind value hvalue
    have hcourse := Config.run_meets (keeps_code hstrict (accountRun cfg es).trace) Registry.empty es
      fun e he => providerAnswer_run he
    obtain ⟨o, p, hcall, hstores⟩ := hcourse.issued e he
    rw [hcmd] at hstores
    obtain ⟨raw, code, rfl, hnormalized, happroved⟩ := hstores
    exact ⟨e.call, raw, code, p, hcall, hnormalized, happroved⟩

/-- A deployment with a provider. -/
def withProvider : AccountConfig where
  auth := ⟨"a", "r", fun t => t.jti⟩
  env := ⟨some "production", some "AC", some "secret", some "VA"⟩
  parseDate := fun _ => none
  toLowerCase := fun s => s

/-- Two users sign up; the first proves a number, the second wants it too. -/
def sameNumber : List (Event (accountSystem withProvider)) :=
  ([.env (.provide fun _ code =>
      if code = "123456" then .ok ⟨true, some "approved"⟩ else .ok ⟨true, some "pending"⟩),
    .start (.signupAnonymous none none ⟨none, none, none, none⟩)] :
      List (Event (accountSystem withProvider))) ++
  (List.replicate 9 (.step 0) : List (Event (accountSystem withProvider))) ++
  ([.start (.signupAnonymous none none ⟨none, none, none, none⟩)] :
      List (Event (accountSystem withProvider))) ++
  (List.replicate 9 (.step 1) : List (Event (accountSystem withProvider))) ++
  ([.start (.verifyPhone "c0" "+61 400 000 000" "123456"),
    .start (.verifyPhone "c3" "+61400000000" " 123456 "),
    .step 2, .step 3, .step 2, .step 3] : List (Event (accountSystem withProvider)))

theorem contacts_proved_sameNumber :
    (accountRun withProvider sameNumber).world.accounts.map (fun a => (a.id, a.phone)) =
        [("c0", some "+61400000000"), ("c3", none)] ∧
      ∀ a ∈ (accountRun withProvider sameNumber).world.accounts, ∀ kind value,
        a.contact kind = some value →
          ∃ i raw code p, (accountRun withProvider sameNumber).calls[i]? =
              some ⟨verifyOp kind a.id raw code, p⟩ ∧
            normalizeContact withProvider kind raw = some value ∧
            Approved (accountRun withProvider sameNumber).trace i value (jsTrim code) :=
  ⟨by decide +kernel, (contacts_proved (by decide +kernel) sameNumber).2⟩

end VerityBackend.Auth
