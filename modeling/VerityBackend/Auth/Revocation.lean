/-
VerityBackend.Auth.Revocation — revocation is final.

`revocation_final`: once a family has been revoked by one of the branches
of `refreshSession`, or a user's tokens by `logoutAll`, no refresh of such a
token that has not committed its rotation by then ever succeeds, and its
successors are revoked.

The window between the checks of `refreshSession` and its transaction is
closed by the `revokedAt: null` of the `updateMany` inside it: from a table
where every selected row is revoked no rotation of such a row commits
(`rotated_spec`), and no command adds a row to the selection
(`Finished.next`).
-/
import VerityBackend.Auth.Families

namespace VerityBackend.Auth

open Async

/-! ## Selections of rows -/

/-- No row of the selection `p` is unrevoked. -/
def AllRevoked (p : RefreshToken → Prop) (rows : List RefreshToken) : Prop :=
  ∀ t ∈ rows, p t → t.revokedAt ≠ none

/-- `rows'` has every row of `rows`, at some later time. -/
def Persists (rows rows' : List RefreshToken) : Prop :=
  ∀ t ∈ rows, ∃ t' ∈ rows', Precedes t t'

/-- What `p` selects of the table `rows` and of its later versions: it
looks at columns no command changes, and while all it selects is revoked a
new row does not fall under it. -/
structure Selects (p : RefreshToken → Prop) (rows : List RefreshToken) : Prop where
  stable : ∀ t t', Precedes t t' → (p t' ↔ p t)
  closed : ∀ rows', Persists rows rows' → AllRevoked p rows' →
    ∀ r : RefreshToken, (∀ t ∈ rows', t.id ≠ r.id) →
      ((∀ t ∈ rows', t.familyId ≠ r.familyId) ∨
        ∃ t ∈ rows', t.familyId = r.familyId ∧ t.revokedAt = none) → ¬p r

/-- `where: { familyId }`, for a family that has a token. -/
theorem selects_family {rows : List RefreshToken} {familyId : String}
    (hlive : ∃ t ∈ rows, t.familyId = familyId) :
    Selects (fun t => t.familyId = familyId) rows where
  stable := by
    intro t t' h
    rw [h.familyId]
  closed := by
    rintro rows' hpersists hall r - (hroot | ⟨t, ht, hf, hr⟩) hp
    · obtain ⟨t, ht, hf⟩ := hlive
      obtain ⟨t', ht', hprec⟩ := hpersists t ht
      exact hroot t' ht' (hprec.familyId.trans (hf.trans hp.symm))
    · exact hall t ht (hf.trans hp) hr

/-- The tokens of a user issued before: those in the table `rows`. -/
theorem selects_issued (rows : List RefreshToken) (userId : UserId) :
    Selects (fun t => ∃ t₀ ∈ rows, t₀.id = t.id ∧ t₀.userId = userId) rows where
  stable := by
    intro t t' h
    simp only [h.id]
  closed := by
    rintro rows' hpersists - r hapart - ⟨t₀, ht₀, hid, -⟩
    obtain ⟨t', ht', hprec⟩ := hpersists t₀ ht₀
    exact hapart t' ht' (hprec.id.trans hid)

/-! ## Runs after a revocation -/

section Runs

variable {cfg : AuthConfig}

/-- What a run keeps from the configuration `c₁` on in which all that `p`
selects has been revoked: no later entry of the trace commits a rotation of
the selection. -/
structure Finished (p : RefreshToken → Prop) (c₁ c : Config (authService cfg).system) :
    Prop where
  sound : (authDiscipline cfg).Sound authPost c
  persists : Persists (tokens c₁.toSnap) (tokens c.toSnap)
  revoked : AllRevoked p (tokens c.toSnap)
  later : ∃ new, c.trace = new ++ c₁.trace ∧ ∀ e ∈ new, ∀ stored, rotated e = some stored →
    ∃ t ∈ tokens c.toSnap, t.id = stored.id ∧ ¬p t

variable {p : RefreshToken → Prop} {c₁ c : Config (authService cfg).system}

/-- **Step lemma** of runs after a revocation. -/
theorem Finished.next (hp : Selects p (tokens c₁.toSnap)) (h : Finished p c₁ c)
    (e : Event (authService cfg).system) : Finished p c₁ (c.next e) := by
  have hsound := h.sound.next (governs fun _ _ => True) (e := e) trivial
  cases e with
  | start o => exact ⟨hsound, h.persists, h.revoked, h.later⟩
  | env e =>
      cases e
      exact ⟨hsound, h.persists, h.revoked, h.later⟩
  | step i =>
      cases hpend : c.pending i with
      | none =>
          rw [Config.next_step_of_pending_none hpend]
          exact h
      | some cmd =>
          obtain ⟨o, k, hc⟩ := Config.pending_eq_some.mp hpend
          obtain ⟨hkeeps, -⟩ := h.sound.keeps (governs fun _ _ => True) trivial hc
          obtain ⟨g, new, heff⟩ := AuthStep.effect hkeeps.guar h.sound.inv
          refine ⟨hsound, ?_, ?_, ?_⟩ <;> rw [Config.next_step_of_call hc]
          · show Persists (tokens c₁.toSnap) (tokens (c.toSnap.exec i cmd))
            intro t ht
            obtain ⟨t', ht', hprec⟩ := h.persists t ht
            rw [heff.table]
            obtain ⟨t'', ht'', hprec'⟩ := heff.step.persists ht'
            exact ⟨t'', ht'', hprec.trans hprec'⟩
          · show AllRevoked p (tokens (c.toSnap.exec i cmd))
            rw [heff.table]
            intro x hx hpx
            rcases mem_stepped.mp hx with ⟨t, ht, rfl⟩ | hx
            · have hmark := heff.step.marks t ht
              exact (hmark.revoked (h.revoked t ht ((hp.stable t _ hmark).mp hpx))).1
            · refine absurd hpx (hp.closed _ h.persists h.revoked x (heff.step.apart x hx) ?_)
              rcases heff.step.source x hx with hroot | ⟨t, ht, hf, hr, -⟩
              · exact .inl hroot
              · exact .inr ⟨t, ht, hf, hr⟩
          · obtain ⟨later, htrace, hlater⟩ := h.later
            refine ⟨⟨i, cmd, c.world⟩ :: later, ?_, ?_⟩
            · show (c.toSnap.exec i cmd).trace = _
              simp only [Snap.exec_trace, htrace, List.cons_append]
            · intro e he stored hrot
              show ∃ t ∈ tokens (c.toSnap.exec i cmd), t.id = stored.id ∧ ¬p t
              rw [heff.table]
              have hbefore : ∃ t ∈ tokens c.toSnap, t.id = stored.id ∧ ¬p t := by
                rcases List.mem_cons.mp he with rfl | he
                · obtain ⟨⟨t, ht, htid, htr⟩, -⟩ := rotated_spec hrot
                  exact ⟨t, ht, htid, fun hpt => h.revoked t ht hpt htr⟩
                · exact hlater e he stored hrot
              obtain ⟨t, ht, htid, hpt⟩ := hbefore
              obtain ⟨t', ht', hmark⟩ := heff.step.persists ht
              exact ⟨t', ht', hmark.id.trans htid, fun hp' => hpt ((hp.stable t t' hmark).mp hp')⟩

/-- **Run lemma** of runs after a revocation. -/
theorem Finished.run (hp : Selects p (tokens c₁.toSnap)) (h : Finished p c₁ c)
    (es : List (Event (authService cfg).system)) : Finished p c₁ (c.run es) := by
  have hany : c.Obeys (fun _ _ => True) es := Config.obeys_of_forall (fun _ _ => trivial) c es
  exact Config.run_induct (fun _ e _ h => h.next hp e) es c hany h

/-- Call `j` has committed its rotation. -/
def Committed (c : Config (authService cfg).system) (j : Nat) : Prop :=
  ∃ e ∈ c.trace, e.call = j ∧ (rotated e).isSome

/-- After a revocation a selected row is revoked and so is its successor,
and a refresh that presents it and succeeds had committed before. -/
structure Final (p : RefreshToken → Prop) (c₁ c : Config (authService cfg).system) : Prop where
  revoked : ∀ t ∈ tokens c.toSnap, p t → t.revokedAt ≠ none
  successor : ∀ t ∈ tokens c.toSnap, p t → ∀ t' ∈ tokens c.toSnap,
    t.replacedById = some t'.id → t'.revokedAt ≠ none
  refused : ∀ j token userAgent ipAddress issued,
    c.Settled j (.refreshSession token userAgent ipAddress) (.ok issued) →
    (∃ t ∈ tokens c.toSnap, t.id = token.jti ∧ p t) → Committed c₁ j

theorem stable_authPost : (authDiscipline cfg).Stable authPost := by
  intro o i r s s' hgrows hpost
  cases o with
  | signup userId userAgent ipAddress role => trivial
  | logoutAll userId => trivial
  | refreshSession token userAgent ipAddress =>
      cases r with
      | error e => trivial
      | ok issued =>
          obtain ⟨e, he, hrotated⟩ := hpost
          exact ⟨e, hgrows.trace.subset he, hrotated⟩

/-- What is finished is final, if the selection contains the successors of
its rows. -/
theorem Finished.final (h : Finished p c₁ c) (hdone : Discipline.Done authPost c)
    (hsucc : ∀ t ∈ tokens c.toSnap, p t → ∀ t' ∈ tokens c.toSnap,
      t.replacedById = some t'.id → p t') : Final p c₁ c where
  revoked := h.revoked
  successor := fun t ht hpt t' ht' hr => h.revoked t' ht' (hsucc t ht hpt t' ht' hr)
  refused := by
    rintro j token userAgent ipAddress issued hsettled ⟨t, ht, htid, hpt⟩
    obtain ⟨e, he, hcall, stored, hrot, hid, -⟩ := hdone j _ _ hsettled
    obtain ⟨new, htrace, hnew⟩ := h.later
    rw [htrace] at he
    rcases List.mem_append.mp he with he | he
    · obtain ⟨t', ht', htid', hpt'⟩ := hnew e he stored hrot
      have heq : t' = t := h.sound.inv.issued.unique ht' ht (htid'.trans (hid.trans htid.symm))
      rw [heq] at hpt'
      exact absurd hpt hpt'
    · exact ⟨e, he, hcall, by rw [hrot]; rfl⟩

theorem revokeWhere_revoked {q : RefreshToken → Bool} {now : Nat} {rows : List RefreshToken}
    {x : RefreshToken} (hx : x ∈ revokeWhere q now rows) :
    ∃ t ∈ rows, Precedes t x ∧ (q t → x.revokedAt ≠ none) := by
  obtain ⟨t, ht, rfl⟩ := List.mem_map.mp hx
  refine ⟨t, ht, ?_⟩
  split
  · exact ⟨⟨rfl, rfl, rfl, fun _ => ⟨by simp, rfl⟩⟩, fun _ => by simp⟩
  · next hne =>
      refine ⟨Precedes.refl t, fun hq hr => hne ?_⟩
      simp [hq, hr]

theorem toSnap_next_step {i : Nat} {cmd : Cmd} (h : c.pending i = some cmd) :
    (c.next (.step i)).toSnap = c.toSnap.exec i cmd := by
  obtain ⟨o, k, hc⟩ := Config.pending_eq_some.mp h
  rw [Config.next_step_of_call hc]

/-- The moment of the revocation. -/
theorem finished_start (hsound : (authDiscipline cfg).Sound authPost c₁)
    (hrevoked : AllRevoked p (tokens c₁.toSnap)) : Finished p c₁ c₁ where
  sound := hsound
  persists := fun t ht => ⟨t, ht, Precedes.refl t⟩
  revoked := hrevoked
  later := ⟨[], rfl, by intro e he; cases he⟩

/-- The successor of a token of a family is a token of it. -/
theorem successor_family {rows : List RefreshToken} {n : Nat} (h : Issued rows n)
    {familyId : String} {t t' : RefreshToken} (ht : t ∈ rows) (hf : t.familyId = familyId)
    (ht' : t' ∈ rows) (hr : t.replacedById = some t'.id) : t'.familyId = familyId := by
  obtain ⟨x, hx, hid, hxf, -⟩ := h.linked t ht _ hr
  rw [← h.unique hx ht' hid, hxf, hf]

/-- The successor of a token revoked earlier was issued earlier. -/
theorem successor_issued {rows rows' : List RefreshToken} {n n' : Nat} (h : Issued rows n)
    (h' : Issued rows' n') (hpersists : Persists rows rows') {userId : UserId}
    (hrevoked : ∀ t ∈ rows, t.userId = userId → t.revokedAt ≠ none) {t t' : RefreshToken}
    (ht : t ∈ rows') (hold : ∃ t₀ ∈ rows, t₀.id = t.id ∧ t₀.userId = userId)
    (hr : t.replacedById = some t'.id) : ∃ t₀ ∈ rows, t₀.id = t'.id ∧ t₀.userId = userId := by
  obtain ⟨t₀, ht₀, hid₀, hu₀⟩ := hold
  obtain ⟨x, hx, hprec⟩ := hpersists t₀ ht₀
  have hxt : x = t := h'.unique hx ht (hprec.id.trans hid₀)
  subst hxt
  have hfrozen := (hprec.revoked (hrevoked t₀ ht₀ hu₀)).2
  obtain ⟨t₁, ht₁, hid₁, -, hu₁⟩ := h.linked t₀ ht₀ t'.id (by rw [← hfrozen, hr])
  exact ⟨t₁, ht₁, hid₁, hu₁.trans hu₀⟩

/-- **Revocation is final.** From any well-formed table, in any run, for
the step of any call that revokes a family (each rejecting branch of
`refreshSession` issues that command) and for the step that revokes the
tokens of a user: whatever is called afterwards and however it interleaves
with the calls already in flight, the tokens selected and their successors
stay revoked, and of the refreshes that present one of them only those
succeed that had committed their rotation before the step. -/
theorem revocation_final (cfg : AuthConfig) (w : World)
    (hissued : Issued w.db.refreshTokens w.nextId)
    (es₁ es₂ : List (Event (authService cfg).system)) (i : Nat) :
    let c : Config (authService cfg).system := (Config.initial w).run es₁
    let c₁ := c.next (.step i)
    (∀ familyId now, c.pending i = some (.db (.refreshTokenRevokeFamily familyId now)) →
      Final (fun t => t.familyId = familyId) c₁ (c₁.run es₂)) ∧
    (∀ userId now, c.pending i = some (.db (.refreshTokenRevokeUser userId now)) →
      Final (fun t => ∃ t₀ ∈ tokens c₁.toSnap, t₀.id = t.id ∧ t₀.userId = userId) c₁
        (c₁.run es₂)) := by
  intro c c₁
  have hinv : @AuthInv cfg ⟨w, []⟩ := ⟨hissued, handedInv_initial w⟩
  have hG := @governs cfg fun _ _ => True
  have hrun (es : List (Event (authService cfg).system)) :=
    hG.sound_run stable_authPost hinv (Config.obeys_of_forall (fun _ _ => trivial) _ es)
  have hsound : (authDiscipline cfg).Sound authPost c := (hrun es₁).1
  have hsound₁ : (authDiscipline cfg).Sound authPost c₁ := hsound.next hG trivial
  have hdone₂ : Discipline.Done authPost (c₁.run es₂) := by
    have h := (hrun (es₁ ++ .step i :: es₂)).2
    rw [Config.run_append] at h
    exact h
  constructor
  · intro familyId now hpend
    have htable : tokens c₁.toSnap =
        revokeWhere (fun t => t.familyId = familyId) now (tokens c.toSnap) := by
      show tokens (c.next (.step i)).toSnap = _
      rw [toSnap_next_step hpend]
      rfl
    have hrevoked : AllRevoked (fun t => t.familyId = familyId) (tokens c₁.toSnap) := by
      intro x hx hfx
      rw [htable] at hx
      obtain ⟨t, ht, hprec, hq⟩ := revokeWhere_revoked hx
      exact hq (by simpa using hprec.familyId.symm.trans hfx)
    have hlive : ∃ t ∈ tokens c₁.toSnap, t.familyId = familyId := by
      obtain ⟨o, k, hc⟩ := Config.pending_eq_some.mp hpend
      obtain ⟨hkeeps, -⟩ := hsound.keeps hG trivial hc
      have hread : ∃ t ∈ tokens c.toSnap, t.familyId = familyId := by
        cases hkeeps.guar with
        | reads hc => cases hc
        | revokeFamily h => exact h
      obtain ⟨t, ht, hf⟩ := hread
      obtain ⟨g, new, heff⟩ := AuthStep.effect hkeeps.guar hsound.inv
      obtain ⟨t', ht', hprec⟩ := heff.step.persists ht
      refine ⟨t', ?_, hprec.familyId.trans hf⟩
      show t' ∈ tokens (c.next (.step i)).toSnap
      rw [toSnap_next_step hpend, heff.table]
      exact ht'
    have hfin := (finished_start hsound₁ hrevoked).run (selects_family hlive) es₂
    exact hfin.final hdone₂ fun t ht hf t' ht' hr =>
      successor_family hfin.sound.inv.issued ht hf ht' hr
  · intro userId now hpend
    have htable : tokens c₁.toSnap =
        revokeWhere (fun t => t.userId = userId) now (tokens c.toSnap) := by
      show tokens (c.next (.step i)).toSnap = _
      rw [toSnap_next_step hpend]
      rfl
    have hall : ∀ x ∈ tokens c₁.toSnap, x.userId = userId → x.revokedAt ≠ none := by
      intro x hx hux
      rw [htable] at hx
      obtain ⟨t, ht, hprec, hq⟩ := revokeWhere_revoked hx
      exact hq (by simpa using hprec.userId.symm.trans hux)
    have hrevoked : AllRevoked (fun t => ∃ t₀ ∈ tokens c₁.toSnap, t₀.id = t.id ∧
        t₀.userId = userId) (tokens c₁.toSnap) := by
      rintro x hx ⟨t₀, ht₀, hid, hu⟩
      rw [← hsound₁.inv.issued.unique ht₀ hx hid]
      exact hall t₀ ht₀ hu
    have hfin := (finished_start hsound₁ hrevoked).run (selects_issued _ userId) es₂
    exact hfin.final hdone₂ fun t ht hold t' _ hr =>
      successor_issued hsound₁.inv.issued hfin.sound.inv.issued hfin.persists hall ht hold hr

end Runs

/-- A signup, and a `logoutAll` that is about to revoke. -/
def beforeLogout : List (Event (authService plainConfig).system) :=
  (.start (.signup "ann" none none (some .USER)) ::
      List.replicate 6 (.step 0) : List (Event (authService plainConfig).system)) ++
    ([.start (.logoutAll "ann"), .step 1] : List (Event (authService plainConfig).system))

/-- A refresh of the token issued by that signup. -/
def lateRefresh : List (Event (authService plainConfig).system) :=
  let token := plainConfig.signRefreshToken 0 "ann" (freshId 0) (freshId 1)
  .start (.refreshSession token none none) :: List.replicate 5 (.step 2)

theorem revocation_final_lateRefresh :
    let c : Config (authService plainConfig).system :=
      (Config.initial (World.peopled ["ann"] 0)).run beforeLogout
    let c₁ := c.next (.step 1)
    Final (fun t => ∃ t₀ ∈ tokens c₁.toSnap, t₀.id = t.id ∧ t₀.userId = "ann") c₁
      (c₁.run lateRefresh) :=
  (revocation_final plainConfig (World.peopled ["ann"] 0) (issued_nil 0) beforeLogout
    lateRefresh 1).2 "ann" 0 rfl

end VerityBackend.Auth
