/-
VerityBackend.Auth.Families — refresh-token families are linear.

`families_linear`: however signups, refreshes and logouts interleave, a
family has at most one unrevoked token, no token is rotated twice, and
`replacedById` names a token of the same family and user.

A refresh reads the row it was given, checks it, and rotates it in a later
transaction, so the proof has two parts. What a COMMAND does to the table
is one statement, `TableStep`: rows are marked, and at most one row is
added, which either starts a family or succeeds a row that was unrevoked
until then. What a CALL knows when it issues the command is `AuthStep`,
and it is the guarantee of the discipline `authDiscipline`: the row a
refresh read is still there, with the same family and user, and the family
a signup drew is still unused.
-/
import VerityBackend.Auth.Service

namespace VerityBackend.Auth

open Async

/-! ## The table -/

/-- `t'` is the row `t` at some later time. -/
structure Precedes (t t' : RefreshToken) : Prop where
  id : t'.id = t.id
  userId : t'.userId = t.userId
  familyId : t'.familyId = t.familyId
  revoked : t.revokedAt ≠ none → t'.revokedAt ≠ none ∧ t'.replacedById = t.replacedById

theorem Precedes.refl (t : RefreshToken) : Precedes t t := ⟨rfl, rfl, rfl, fun h => ⟨h, rfl⟩⟩

theorem Precedes.trans {t₁ t₂ t₃ : RefreshToken} (h : Precedes t₁ t₂) (h' : Precedes t₂ t₃) :
    Precedes t₁ t₃ where
  id := h'.id.trans h.id
  userId := h'.userId.trans h.userId
  familyId := h'.familyId.trans h.familyId
  revoked := by
    intro hr
    obtain ⟨hr₂, hb₂⟩ := h.revoked hr
    obtain ⟨hr₃, hb₃⟩ := h'.revoked hr₂
    exact ⟨hr₃, hb₃.trans hb₂⟩

/-- What the schema and the drawing of identifiers say about the table:
ids are unique, a successor exists and belongs to the same family and user,
and no id or family is one that is still to be drawn. -/
structure Issued (rows : List RefreshToken) (nextId : Nat) : Prop where
  ids : (rows.map (·.id)).Nodup
  linked : ∀ t ∈ rows, ∀ id, t.replacedById = some id →
    ∃ t' ∈ rows, t'.id = id ∧ t'.familyId = t.familyId ∧ t'.userId = t.userId
  behind : ∀ t ∈ rows, ∀ n, nextId ≤ n → t.id ≠ freshId n ∧ t.familyId ≠ freshId n

theorem issued_nil (n : Nat) : Issued [] n where
  ids := List.nodup_nil
  linked := by intro t ht; cases ht
  behind := by intro t ht; cases ht

theorem Issued.unique {rows : List RefreshToken} {n : Nat} (h : Issued rows n)
    {t t' : RefreshToken} (ht : t ∈ rows) (ht' : t' ∈ rows) (hid : t.id = t'.id) : t = t' :=
  List.inj_on_of_nodup_map h.ids ht ht' hid

/-- What one command does to the table: every row is marked with `g`, and
`new`, if there is one, either is the `root` of a family nobody uses or
`succeeds` a row that is unrevoked before and revoked after. -/
structure TableStep (rows : List RefreshToken) (g : RefreshToken → RefreshToken)
    (new : Option RefreshToken) : Prop where
  marks : ∀ t ∈ rows, Precedes t (g t)
  apart : ∀ r ∈ new, ∀ t ∈ rows, t.id ≠ r.id
  unreplaced : ∀ r ∈ new, r.replacedById = none
  links : ∀ t ∈ rows, ∀ id, (g t).replacedById = some id → t.replacedById = some id ∨
    ∃ r ∈ new, r.id = id ∧ r.familyId = t.familyId ∧ r.userId = t.userId
  source : ∀ r ∈ new, (∀ t ∈ rows, t.familyId ≠ r.familyId) ∨
    ∃ t ∈ rows, t.familyId = r.familyId ∧ t.revokedAt = none ∧ (g t).revokedAt ≠ none

/-- The table after such a command. -/
def stepped (rows : List RefreshToken) (g : RefreshToken → RefreshToken)
    (new : Option RefreshToken) : List RefreshToken := rows.map g ++ new.toList

theorem mem_stepped {rows : List RefreshToken} {g : RefreshToken → RefreshToken}
    {new : Option RefreshToken} {x : RefreshToken} :
    x ∈ stepped rows g new ↔ (∃ t ∈ rows, g t = x) ∨ x ∈ new := by
  simp [stepped, List.mem_append, Option.mem_def]

section Step

variable {rows : List RefreshToken} {g : RefreshToken → RefreshToken}
  {new : Option RefreshToken}

theorem TableStep.persists (h : TableStep rows g new) {t : RefreshToken} (ht : t ∈ rows) :
    ∃ t' ∈ stepped rows g new, Precedes t t' :=
  ⟨g t, mem_stepped.mpr (.inl ⟨t, ht, rfl⟩), h.marks t ht⟩

/-- **Step lemma**: a command keeps the table well formed. -/
theorem TableStep.issued (h : TableStep rows g new) {n n' : Nat} (hn : n ≤ n')
    (hrows : Issued rows n)
    (hnew : ∀ r ∈ new, ∀ m, n' ≤ m → r.id ≠ freshId m ∧ r.familyId ≠ freshId m) :
    Issued (stepped rows g new) n' := by
  have hids : (rows.map g).map (·.id) = rows.map (·.id) := by
    rw [List.map_map]
    exact List.map_congr_left fun t ht => (h.marks t ht).id
  refine ⟨?_, ?_, ?_⟩
  · unfold stepped
    rw [List.map_append, hids]
    refine List.Nodup.append hrows.ids (by cases new <;> simp) ?_
    intro id hid hid'
    obtain ⟨t, ht, rfl⟩ := List.mem_map.mp hid
    obtain ⟨r, hr, heq⟩ := List.mem_map.mp hid'
    exact h.apart r (by simpa using hr) t ht heq.symm
  · intro x hx id hid
    rcases mem_stepped.mp hx with ⟨t, ht, rfl⟩ | hx
    · have hmark := h.marks t ht
      rcases h.links t ht id hid with hold | ⟨r, hr, hrid, hrf, hru⟩
      · obtain ⟨t', ht', hid', hf, hu⟩ := hrows.linked t ht id hold
        have hmark' := h.marks t' ht'
        refine ⟨g t', mem_stepped.mpr (.inl ⟨t', ht', rfl⟩), hmark'.id.trans hid', ?_, ?_⟩
        · rw [hmark'.familyId, hf, hmark.familyId]
        · rw [hmark'.userId, hu, hmark.userId]
      · refine ⟨r, mem_stepped.mpr (.inr hr), hrid, ?_, ?_⟩
        · rw [hrf, hmark.familyId]
        · rw [hru, hmark.userId]
    · rw [h.unreplaced x hx] at hid
      cases hid
  · intro x hx m hm
    rcases mem_stepped.mp hx with ⟨t, ht, rfl⟩ | hx
    · rw [(h.marks t ht).id, (h.marks t ht).familyId]
      exact hrows.behind t ht m (by omega)
    · exact hnew x hx m hm

/-- A family has at most one unrevoked token. -/
def Linear (rows : List RefreshToken) : Prop :=
  ∀ t ∈ rows, ∀ t' ∈ rows, t.familyId = t'.familyId → t.revokedAt = none →
    t'.revokedAt = none → t = t'

/-- A row that is unrevoked after the command was so before. -/
theorem TableStep.unrevoked (h : TableStep rows g new) {t : RefreshToken} (ht : t ∈ rows)
    (hr : (g t).revokedAt = none) : t.revokedAt = none := by
  by_contra hne
  exact ((h.marks t ht).revoked hne).1 hr

/-- The family of a new row has no other unrevoked row. -/
theorem TableStep.newest (h : TableStep rows g new) (hlin : Linear rows) {r t : RefreshToken}
    (hr : r ∈ new) (ht : t ∈ rows) (hf : t.familyId = r.familyId) :
    (g t).revokedAt ≠ none := by
  intro hg
  rcases h.source r hr with hroot | ⟨t₀, ht₀, hf₀, hr₀, hg₀⟩
  · exact hroot t ht hf
  · have heq : t = t₀ := hlin t ht t₀ ht₀ (hf.trans hf₀.symm) (h.unrevoked ht hg) hr₀
    rw [heq] at hg
    exact hg₀ hg

/-- **Step lemma**: a command keeps families linear. -/
theorem TableStep.linear (h : TableStep rows g new) (hlin : Linear rows) :
    Linear (stepped rows g new) := by
  intro x hx y hy hf hxr hyr
  rcases mem_stepped.mp hx with ⟨t, ht, rfl⟩ | hx <;>
    rcases mem_stepped.mp hy with ⟨t', ht', rfl⟩ | hy
  · rw [(h.marks t ht).familyId, (h.marks t' ht').familyId] at hf
    rw [hlin t ht t' ht' hf (h.unrevoked ht hxr) (h.unrevoked ht' hyr)]
  · rw [(h.marks t ht).familyId] at hf
    exact absurd hxr (h.newest hlin hy ht hf)
  · rw [(h.marks t' ht').familyId] at hf
    exact absurd hyr (h.newest hlin hx ht' hf.symm)
  · exact Option.mem_unique hx hy

end Step

/-! ### What the commands do -/

/-- Marking rows without naming a successor. -/
theorem tableStep_marks {rows : List RefreshToken} {g : RefreshToken → RefreshToken}
    (hmarks : ∀ t, Precedes t (g t)) (hlinks : ∀ t, (g t).replacedById = t.replacedById) :
    TableStep rows g none where
  marks := fun t _ => hmarks t
  apart := by intro r hr; cases hr
  unreplaced := by intro r hr; cases hr
  links := by
    intro t _ id hid
    rw [hlinks t] at hid
    exact .inl hid
  source := by intro r hr; cases hr

/-- `data: { revokedAt: now, lastUsedAt: now }` on the rows selected. -/
def markRevoked (p : RefreshToken → Bool) (now : Nat) (t : RefreshToken) : RefreshToken :=
  if p t then { t with revokedAt := some now, lastUsedAt := some now } else t

theorem tableStep_markRevoked (p : RefreshToken → Bool) (now : Nat)
    (rows : List RefreshToken) : TableStep rows (markRevoked p now) none := by
  refine tableStep_marks (fun t => ?_) (fun t => ?_) <;> unfold markRevoked <;> split
  · exact ⟨rfl, rfl, rfl, fun _ => ⟨by simp, rfl⟩⟩
  · exact Precedes.refl t
  · rfl
  · rfl

theorem insertRefreshToken_ok {d d' : Db} {row : RefreshToken}
    (h : insertRefreshToken d row = .ok d') :
    (∀ t ∈ d.refreshTokens, t.id ≠ row.id) ∧ d'.refreshTokens = d.refreshTokens ++ [row] := by
  unfold insertRefreshToken at h
  split at h
  · cases h
  · next hany =>
      split at h
      · cases h
      · cases h
        refine ⟨fun t ht hid => hany ?_, rfl⟩
        rw [List.any_eq_true]
        exact ⟨t, ht, by simp [hid]⟩

/-- The mark the rotation of `id` leaves. -/
def markReplaced (id nextTokenId : String) (now : Nat) (t : RefreshToken) : RefreshToken :=
  if t.id == id && t.revokedAt.isNone then
    { t with revokedAt := some now, replacedById := some nextTokenId, lastUsedAt := some now }
  else t

theorem markReplaced_precedes (id nextTokenId : String) (now : Nat) (t : RefreshToken) :
    Precedes t (markReplaced id nextTokenId now t) := by
  unfold markReplaced
  split
  · next h =>
      refine ⟨rfl, rfl, rfl, fun hne => ?_⟩
      simp only [Bool.and_eq_true, Option.isNone_iff_eq_none] at h
      exact absurd h.2 hne
  · exact Precedes.refl t

/-- After its rotation a token is revoked. -/
theorem markReplaced_revoked {id nextTokenId : String} {now : Nat} {t : RefreshToken}
    (h : t.id = id) : (markReplaced id nextTokenId now t).revokedAt ≠ none := by
  unfold markReplaced
  split
  · simp
  · next hne =>
      intro hr
      simp [h, hr] at hne

/-- The row a rotation adds is that of the token it answers with. -/
structure Successor (cfg : AuthConfig) (clock : Nat) (nextTokenId : String) (stored : RefreshToken)
    (sub fid : String) (tokens : IssuedTokens) (next : RefreshToken) : Prop where
  id : next.id = nextTokenId
  userId : next.userId = sub
  familyId : next.familyId = stored.familyId
  replacedById : next.replacedById = none
  revokedAt : next.revokedAt = none
  tokenHash : next.tokenHash = cfg.hashToken tokens.refreshToken
  token : tokens.refreshToken = cfg.signRefreshToken clock sub fid nextTokenId

/-- A rotation that commits found one unrevoked row and added its
successor. -/
theorem rotateRefreshToken_successor {cfg : AuthConfig} {clock : Nat} {nextTokenId : String}
    {stored : RefreshToken} {sub fid : String} {now : Nat} {userAgent ipAddress : Option String}
    {d d' : Db} {tokens : IssuedTokens}
    (h : rotateRefreshToken cfg clock nextTokenId stored sub fid now userAgent ipAddress d =
      .ok (tokens, d')) :
    ∃ next, Successor cfg clock nextTokenId stored sub fid tokens next ∧
      (∃ t ∈ d.refreshTokens, t.id = stored.id ∧ t.revokedAt = none) ∧
      (∀ t ∈ d.refreshTokens, t.id ≠ nextTokenId) ∧
      d'.refreshTokens =
        stepped d.refreshTokens (markReplaced stored.id nextTokenId now) (some next) := by
  simp only [rotateRefreshToken] at h
  split at h
  · cases h
  · next hcount =>
      simp only [ne_eq, Decidable.not_not] at hcount
      obtain ⟨t, ht, hunused⟩ : ∃ t ∈ d.refreshTokens,
          (t.id == stored.id && t.revokedAt.isNone) = true := by
        refine List.countP_pos_iff.mp ?_
        rw [hcount]
        exact Nat.one_pos
      simp only [Bool.and_eq_true, beq_iff_eq, Option.isNone_iff_eq_none] at hunused
      cases hins : insertRefreshToken _ _ with
      | error e => rw [hins] at h; cases h
      | ok d₁ =>
          rw [hins] at h
          obtain ⟨hapart, hrows⟩ := insertRefreshToken_ok hins
          have hd : d₁ = d' ∧ tokens.refreshToken = cfg.signRefreshToken clock sub fid nextTokenId := by
            simp only [bind, Except.bind, pure, Except.pure] at h
            split at h
            · cases h
            · cases h
              exact ⟨rfl, rfl⟩
          obtain ⟨rfl, htoken⟩ := hd
          refine ⟨_, ?_, ⟨t, ht, hunused⟩, ?_, hrows⟩
          · exact ⟨rfl, rfl, rfl, rfl, rfl, by rw [htoken], htoken⟩
          · intro x hx hid
            refine hapart (markReplaced stored.id nextTokenId now x)
              (List.mem_map.mpr ⟨x, hx, rfl⟩) ?_
            rw [(markReplaced_precedes _ _ _ x).id]
            exact hid

theorem rotateRefreshToken_ok {cfg : AuthConfig} {clock : Nat} {nextTokenId : String}
    {stored : RefreshToken} {sub fid : String} {now : Nat} {userAgent ipAddress : Option String}
    {d d' : Db} {tokens : IssuedTokens}
    (h : rotateRefreshToken cfg clock nextTokenId stored sub fid now userAgent ipAddress d =
      .ok (tokens, d')) :
    ∃ next : RefreshToken, next.id = nextTokenId ∧ next.userId = sub ∧
      next.familyId = stored.familyId ∧ next.replacedById = none ∧
      (∃ t ∈ d.refreshTokens, t.id = stored.id ∧ t.revokedAt = none) ∧
      (∀ t ∈ d.refreshTokens, t.id ≠ nextTokenId) ∧
      d'.refreshTokens =
        stepped d.refreshTokens (markReplaced stored.id nextTokenId now) (some next) := by
  obtain ⟨next, hnext, hrest⟩ := rotateRefreshToken_successor h
  exact ⟨next, hnext.id, hnext.userId, hnext.familyId, hnext.replacedById, hrest⟩

/-! ## The calls -/

section Calls

variable {cfg : AuthConfig}

def tokens (s : Snap (authService cfg).system) : List RefreshToken := s.world.db.refreshTokens

/-- The commands that leave the table alone. -/
inductive Reads : Cmd → Prop
  | host (c : HostCmd) : Reads (.host c)
  | findToken (id : String) : Reads (.db (.refreshTokenFindUnique id))
  | findUser (id : UserId) : Reads (.db (.userFindUnique id))

theorem Reads.table {c : Cmd} (h : Reads c) (w : World) :
    (c.exec w).2.db.refreshTokens = w.db.refreshTokens := by
  cases h with
  | host c => cases c <;> rfl
  | findToken id => rfl
  | findUser id => rfl

/-- A command issued by call `i`, and what the call knows when it issues
it. -/
inductive AuthStep (s : Snap (authService cfg).system) (i : Nat) : Cmd → Prop
  | reads {c : Cmd} (h : Reads c) : AuthStep s i c
  | revokeFamily {familyId : String} {now : Nat}
      (h : ∃ t ∈ tokens s, t.familyId = familyId) :
      AuthStep s i (.db (.refreshTokenRevokeFamily familyId now))
  | revokeUser {userId : UserId} {now : Nat} :
      AuthStep s i (.db (.refreshTokenRevokeUser userId now))
  | revokeOne {id : String} {now : Nat} : AuthStep s i (.db (.refreshTokenRevoke id now))
  | create {row : RefreshToken} (unused : ∀ t ∈ tokens s, t.familyId ≠ row.familyId)
      (id : Handed s i row.id) (familyId : Handed s i row.familyId)
      (unreplaced : row.replacedById = none) :
      AuthStep s i (.db (.refreshTokenCreate row))
  | rotate {cfg' : AuthConfig} {stored : RefreshToken} {sub fid : String} {now : Nat}
      {userAgent ipAddress : Option String}
      (h : ∃ t ∈ tokens s, t.id = stored.id ∧ t.familyId = stored.familyId ∧ t.userId = sub) :
      AuthStep s i (.db (.refreshTokenRotate cfg' stored sub fid now userAgent ipAddress))

/-- What is true between commands. -/
structure AuthInv (s : Snap (authService cfg).system) : Prop where
  issued : Issued (tokens s) s.world.nextId
  handed : HandedInv s

/-- What a command of a call does to the table, as `TableStep` says it. -/
structure Effect (s : Snap (authService cfg).system) (i : Nat) (c : Cmd)
    (g : RefreshToken → RefreshToken) (new : Option RefreshToken) : Prop where
  step : TableStep (tokens s) g new
  table : tokens (s.exec i c) = stepped (tokens s) g new
  behind : ∀ r ∈ new, ∀ n, (c.exec s.world).2.nextId ≤ n →
    r.id ≠ freshId n ∧ r.familyId ≠ freshId n
  owner : ∀ r ∈ new, Handed s i r.familyId ∨ ∃ t ∈ tokens s, t.familyId = r.familyId

theorem effect_none {s : Snap (authService cfg).system} {i : Nat} {c : Cmd}
    {g : RefreshToken → RefreshToken} (hstep : TableStep (tokens s) g none)
    (htable : tokens (s.exec i c) = stepped (tokens s) g none) : Effect s i c g none where
  step := hstep
  table := htable
  behind := by intro r hr; cases hr
  owner := by intro r hr; cases hr

theorem effect_same {s : Snap (authService cfg).system} {i : Nat} {c : Cmd}
    (h : tokens (s.exec i c) = tokens s) : Effect s i c id none :=
  effect_none (tableStep_marks Precedes.refl fun _ => rfl) (by simp [h, stepped])

theorem HandedInv.behind_of {s : Snap (authService cfg).system} (h : HandedInv s) {i : Nat}
    {v : String} (hv : Handed s i v) {n : Nat} (hn : s.world.nextId ≤ n) : v ≠ freshId n := by
  obtain ⟨m, hm, rfl⟩ := h.behind i v hv
  intro heq
  have := freshId_injective heq
  omega

/-- The rotation of the row a call has read. -/
theorem effect_rotate {s : Snap (authService cfg).system} {i : Nat} {cfg' : AuthConfig}
    {stored : RefreshToken} {sub fid : String} {now : Nat} {userAgent ipAddress : Option String}
    (hinv : AuthInv s)
    (hread : ∃ t ∈ tokens s, t.id = stored.id ∧ t.familyId = stored.familyId ∧ t.userId = sub) :
    ∃ g new, Effect s i
      (.db (.refreshTokenRotate cfg' stored sub fid now userAgent ipAddress)) g new := by
  obtain ⟨t₀, ht₀, hid₀, hf₀, hu₀⟩ := hread
  cases hrot : rotateRefreshToken cfg' s.world.clock (freshId s.world.nextId) stored sub fid now
      userAgent ipAddress s.world.db with
  | error e =>
      refine ⟨id, none, effect_same ?_⟩
      simp [tokens, DbCmd.exec, hrot]
  | ok p =>
      obtain ⟨issued, d⟩ := p
      obtain ⟨next, hnid, hnu, hnf, hnr, ⟨t, ht, htid, htr⟩, hapart, hrows⟩ :=
        rotateRefreshToken_ok hrot
      have ht₀t : t = t₀ := hinv.issued.unique ht ht₀ (htid.trans hid₀.symm)
      subst ht₀t
      refine ⟨markReplaced stored.id (freshId s.world.nextId) now, some next, ?_, ?_, ?_, ?_⟩
      · refine ⟨fun x _ => markReplaced_precedes _ _ _ x, ?_, ?_, ?_, ?_⟩
        · intro r hr x hx
          cases hr
          rw [hnid]
          exact hapart x hx
        · intro r hr
          cases hr
          exact hnr
        · intro x hx id hid
          unfold markReplaced at hid
          split at hid
          · next hmark =>
              simp only [Bool.and_eq_true, beq_iff_eq] at hmark
              have hxt : x = t := hinv.issued.unique hx ht (hmark.1.trans htid.symm)
              subst hxt
              refine .inr ⟨next, rfl, ?_, hnf.trans hf₀.symm, hnu.trans hu₀.symm⟩
              simpa [hnid] using hid
          · exact .inl hid
        · intro r hr
          cases hr
          exact .inr ⟨t, ht, hf₀.trans hnf.symm, htr, markReplaced_revoked htid⟩
      · simp [tokens, DbCmd.exec, hrot, hrows]
      · intro r hr n hn
        cases hr
        simp only [Cmd.exec_db, DbCmd.exec, hrot] at hn
        rw [hnid, hnf, ← hf₀]
        refine ⟨fun heq => ?_, (hinv.issued.behind t ht n (by omega)).2⟩
        have := freshId_injective heq
        omega
      · intro r hr
        cases hr
        exact .inr ⟨t, ht, hf₀.trans hnf.symm⟩

/-- **Every command of every call is a `TableStep`.** -/
theorem AuthStep.effect {s : Snap (authService cfg).system} {i : Nat} {c : Cmd}
    (h : AuthStep s i c) (hinv : AuthInv s) : ∃ g new, Effect s i c g new := by
  cases h with
  | reads hc => exact ⟨id, none, effect_same (hc.table s.world)⟩
  | @revokeFamily familyId now hf =>
      refine ⟨markRevoked (fun t => decide (t.familyId = familyId) && t.revokedAt.isNone) now,
        none, effect_none (tableStep_markRevoked _ _ _) ?_⟩
      simp [tokens, DbCmd.exec, World.mapDb, stepped, revokeWhere, markRevoked]
  | @revokeUser userId now =>
      refine ⟨markRevoked (fun t => decide (t.userId = userId) && t.revokedAt.isNone) now,
        none, effect_none (tableStep_markRevoked _ _ _) ?_⟩
      simp [tokens, DbCmd.exec, World.mapDb, stepped, revokeWhere, markRevoked]
  | @revokeOne id now =>
      by_cases hany : s.world.db.refreshTokens.any (·.id = id) = true
      · refine ⟨markRevoked (fun t => t.id = id) now, none,
          effect_none (tableStep_markRevoked _ _ _) ?_⟩
        simp [tokens, DbCmd.exec, World.mapDb, stepped, hany, markRevoked]
      · refine ⟨_, none, effect_same ?_⟩
        simp [tokens, DbCmd.exec, hany]
  | @create row hunused hid hfam hrep =>
      cases hins : insertRefreshToken s.world.db row with
      | error e =>
          refine ⟨id, none, effect_same ?_⟩
          simp [tokens, DbCmd.exec, hins]
      | ok d =>
          obtain ⟨hapart, hrows⟩ := insertRefreshToken_ok hins
          refine ⟨id, some row, ⟨fun t _ => Precedes.refl t, ?_, ?_, fun t _ _ hx => .inl hx, ?_⟩,
            ?_, ?_, ?_⟩
          · intro r hr
            cases hr
            exact hapart
          · intro r hr
            cases hr
            exact hrep
          · intro r hr
            cases hr
            exact .inl hunused
          · simp [tokens, DbCmd.exec, hins, hrows, stepped]
          · intro r hr n hn
            cases hr
            simp only [Cmd.exec_db, DbCmd.exec, hins] at hn
            exact ⟨HandedInv.behind_of hinv.handed hid hn,
              HandedInv.behind_of hinv.handed hfam hn⟩
          · intro r hr
            cases hr
            exact .inl hfam
  | rotate hread => exact effect_rotate hinv hread

/-- What call `i` counts on while it is suspended. -/
structure Grows (i : Nat) (s s' : Snap (authService cfg).system) : Prop where
  trace : s.trace <:+ s'.trace
  rows : ∀ t ∈ tokens s, ∃ t' ∈ tokens s', Precedes t t'
  unused : ∀ v, Handed s i v → (∀ t ∈ tokens s, t.familyId ≠ v) →
    ∀ t ∈ tokens s', t.familyId ≠ v

theorem Grows.refl (i : Nat) (s : Snap (authService cfg).system) : Grows i s s where
  trace := List.suffix_rfl
  rows := fun t ht => ⟨t, ht, Precedes.refl t⟩
  unused := fun _ _ h => h

theorem Grows.trans {i : Nat} {s₁ s₂ s₃ : Snap (authService cfg).system} (h : Grows i s₁ s₂)
    (h' : Grows i s₂ s₃) : Grows i s₁ s₃ where
  trace := h.trace.trans h'.trace
  rows := by
    intro t ht
    obtain ⟨t₂, ht₂, hp₂⟩ := h.rows t ht
    obtain ⟨t₃, ht₃, hp₃⟩ := h'.rows t₂ ht₂
    exact ⟨t₃, ht₃, hp₂.trans hp₃⟩
  unused := fun v hv hnone => h'.unused v (hv.mono h.trace) (h.unused v hv hnone)

def authDiscipline (cfg : AuthConfig) : Discipline (authService cfg).system where
  inv := AuthInv
  admits _ _ _ _ := True
  rely := Grows
  guar _ i c s := AuthStep s i c
  rely_refl := Grows.refl
  rely_trans _ _ _ _ h h' := h.trans h'

theorem Effect.authInv {s : Snap (authService cfg).system} {i : Nat} {c : Cmd}
    {g : RefreshToken → RefreshToken} {new : Option RefreshToken} (h : Effect s i c g new)
    (hinv : AuthInv s) : AuthInv (s.exec i c) := by
  refine ⟨?_, hinv.handed.exec i c⟩
  rw [h.table]
  exact h.step.issued (c.nextId_le_exec s.world) hinv.issued h.behind

/-- A command does not take from call `j` what it counts on, unless it
starts the family `j` has drawn. -/
theorem Effect.grows {s : Snap (authService cfg).system} {i j : Nat} {c : Cmd}
    {g : RefreshToken → RefreshToken} {new : Option RefreshToken} (h : Effect s i c g new)
    (hnew : ∀ r ∈ new, Handed s j r.familyId → ∃ t ∈ tokens s, t.familyId = r.familyId) :
    Grows j s (s.exec i c) where
  trace := ⟨[_], rfl⟩
  rows := by
    intro t ht
    rw [h.table]
    exact h.step.persists ht
  unused := by
    intro v hv hnone x hx hfx
    rw [h.table] at hx
    rcases mem_stepped.mp hx with ⟨t, ht, rfl⟩ | hx
    · rw [(h.step.marks t ht).familyId] at hfx
      exact hnone t ht hfx
    · rw [← hfx] at hv
      obtain ⟨t, ht, hft⟩ := hnew x hx hv
      exact hnone t ht (hft.trans hfx)

/-- A command issued in knowledge of what `AuthStep` says owes nothing
more. -/
theorem AuthStep.keeps {s : Snap (authService cfg).system} {o : AuthOp} {i : Nat} {c : Cmd}
    (h : AuthStep s i c) (hinv : AuthInv s) : (authDiscipline cfg).Keeps o i c s := by
  obtain ⟨g, new, heff⟩ := h.effect hinv
  refine ⟨h, heff.authInv hinv, fun j hj => heff.grows fun r hr hv => ?_⟩
  rcases heff.owner r hr with hi | hold
  · exact absurd (hinv.handed.unique j i _ hv hi) hj
  · exact hold

/-! ## Every operation is valid -/

/-- The row whose rotation this entry of the trace committed. -/
def rotated (e : Entry (authService cfg).system) : Option RefreshToken :=
  match e.cmd with
  | .db (.refreshTokenRotate cfg' stored sub fid now userAgent ipAddress) =>
      match rotateRefreshToken cfg' e.before.clock (freshId e.before.nextId) stored sub fid now
          userAgent ipAddress e.before.db with
      | .ok _ => some stored
      | .error _ => none
  | _ => none

/-- Call `i` has committed the rotation of the row `token` names. -/
def RotatedBy (s : Snap (authService cfg).system) (i : Nat) (token : Jwt) : Prop :=
  ∃ e ∈ s.trace, e.call = i ∧ ∃ stored, rotated e = some stored ∧ stored.id = token.jti ∧
    stored.familyId = token.fid ∧ stored.userId = token.sub

/-- A refresh that succeeds has rotated the token it was given. -/
def authPost : (o : AuthOp) → Nat → Except Err o.Ret → Snap (authService cfg).system → Prop
  | .refreshSession token _ _, i, .ok _, s => RotatedBy s i token
  | _, _, _, _ => True

theorem authPost_error (o : AuthOp) (i : Nat) (e : Err) (s : Snap (authService cfg).system) :
    authPost o i (.error e) s := by
  cases o <;> trivial

section Valid

variable {o : AuthOp} {i : Nat} {s : Snap (authService cfg).system} {α β : Type}

theorem grows_reads {c : Cmd} (hc : Reads c) (s : Snap (authService cfg).system) :
    Grows i s (s.exec i c) :=
  (effect_same (hc.table s.world)).grows (by intro r hr; cases hr)

/-- A command that leaves the table alone asks for nothing. -/
theorem valid_reads {c : Cmd} (hc : Reads c) {f : c.Res → Prog β}
    {Q : Except Err β → Snap (authService cfg).system → Prop}
    (h : ∀ s', Grows i s s' → AuthInv s' →
      (authDiscipline cfg).Resumes o i f Q (c.exec s'.world).1 (s'.exec i c)) :
    (authDiscipline cfg).Valid o i ((Proc.await c).bind f) Q s :=
  Discipline.valid_await fun s' hrely hinv _ =>
    ⟨(AuthStep.reads hc).keeps hinv, h s' hrely hinv⟩

theorem valid_verifyRefreshToken {token : Jwt}
    {Q : Except Err RefreshPayload → Snap (authService cfg).system → Prop}
    (hok : ∀ s', Q (.ok ⟨token.sub, token.fid, token.jti⟩) s') (herr : ∀ e s', Q (.error e) s') :
    (authDiscipline cfg).Valid o i (verifyRefreshToken cfg token) Q s := by
  refine valid_reads (.host _) fun s' _ _ => ?_
  show (authDiscipline cfg).Valid o i (ite _ _ _) Q _
  split
  · exact herr _ _
  · split
    · exact herr _ _
    · exact hok _

theorem valid_createAccessToken {userId : UserId} {role : Option UserRole}
    {Q : Except Err Jwt → Snap (authService cfg).system → Prop} (h : ∀ r s', Q r s') :
    (authDiscipline cfg).Valid o i (createAccessToken cfg userId role) Q s := by
  have hrest : ∀ (role : UserRole) (s' : Snap (authService cfg).system),
      (authDiscipline cfg).Valid o i
        ((host .now).bind fun now => pure (cfg.signAccessToken now userId role)) Q s' := by
    intro role s'
    exact valid_reads (.host _) fun _ _ _ => h _ _
  cases role with
  | some role => exact hrest role s
  | none =>
      refine Discipline.valid_bind (valid_reads (.findUser _) fun s' _ _ => ?_)
      simp only [Cmd.exec_db, DbCmd.exec]
      cases s'.world.db.users userId with
      | none => exact h _ _
      | some user => exact hrest user.role _

theorem valid_revokeFamilyAndThrow {familyId message : String} {now : Nat}
    {Q : Except Err IssuedTokens → Snap (authService cfg).system → Prop}
    (hread : ∃ t ∈ tokens s, t.familyId = familyId) (herr : ∀ e s', Q (.error e) s') :
    (authDiscipline cfg).Valid o i (revokeFamilyAndThrow familyId now message) Q s := by
  refine valid_prisma fun s' hrely hinv _ => ⟨?_, herr _ _⟩
  obtain ⟨t, ht, hf⟩ := hread
  obtain ⟨t', ht', hp⟩ := hrely.rows t ht
  exact (AuthStep.revokeFamily ⟨t', ht', hp.familyId.trans hf⟩).keeps hinv

/-- The transaction, given that the row was read. -/
theorem valid_rotate {payload : RefreshPayload} {stored : RefreshToken} {now : Nat}
    {userAgent ipAddress : Option String}
    {Q : Except Err IssuedTokens → Snap (authService cfg).system → Prop}
    (hread : stored ∈ tokens s) (huser : stored.userId = payload.sub)
    (hok : ∀ issued s', (∃ e ∈ s'.trace, e.call = i ∧ rotated e = some stored) →
      Q (.ok issued) s')
    (herr : ∀ e s', Q (.error e) s') :
    (authDiscipline cfg).Valid o i (rotate cfg payload stored now userAgent ipAddress) Q s := by
  refine Discipline.valid_tryCatch ?_
  intro s' hrely hinv _
  obtain ⟨t, ht, hp⟩ := hrely.rows stored hread
  refine ⟨(AuthStep.rotate ⟨t, ht, hp.id, hp.familyId, hp.userId.trans huser⟩).keeps hinv, ?_⟩
  have hpersists : ∃ t' ∈ tokens (s'.exec i (.db (.refreshTokenRotate cfg stored payload.sub
      payload.fid now userAgent ipAddress))), t'.familyId = stored.familyId := by
    obtain ⟨g, new, heff⟩ := (AuthStep.rotate (i := i) ⟨t, ht, hp.id, hp.familyId,
      hp.userId.trans huser⟩).effect hinv
    rw [heff.table]
    obtain ⟨t', ht', hp'⟩ := heff.step.persists ht
    exact ⟨t', ht', hp'.familyId.trans hp.familyId⟩
  rw [Discipline.valid_ret]
  cases hrot : rotateRefreshToken cfg s'.world.clock (freshId s'.world.nextId) stored payload.sub
      payload.fid now userAgent ipAddress s'.world.db with
  | ok p =>
      simp only [Cmd.exec_db, DbCmd.exec, hrot]
      refine hok _ _ ⟨_, List.mem_cons_self, rfl, ?_⟩
      simp only [rotated, hrot]
  | error e =>
      simp only [Cmd.exec_db, DbCmd.exec, hrot]
      cases e with
      | refreshReuse => exact valid_revokeFamilyAndThrow hpersists herr
      | _ => exact herr _ _

theorem valid_refreshSession {token : Jwt} {userAgent ipAddress : Option String} :
    (authDiscipline cfg).Valid (.refreshSession token userAgent ipAddress) i
      (refreshSession cfg token userAgent ipAddress)
      (authPost (.refreshSession token userAgent ipAddress) i) s := by
  have herr := @authPost_error cfg (.refreshSession token userAgent ipAddress) i
  refine Discipline.valid_bind (valid_verifyRefreshToken (fun s₁ => ?_) herr)
  refine valid_reads (.host _) fun s₂ _ _ => ?_
  refine valid_reads (.findToken _) fun s₃ _ _ => ?_
  simp only [Cmd.exec_db, DbCmd.exec]
  cases hfind : s₃.world.db.refreshTokens.find? (·.id = token.jti) with
  | none => trivial
  | some stored =>
      have hmem : stored ∈ tokens s₃ := List.mem_of_find?_eq_some hfind
      have hid : stored.id = token.jti := by simpa using List.find?_some hfind
      show (authDiscipline cfg).Valid _ i (ite _ _ _) _ _
      split
      · split
        · exact valid_revokeFamilyAndThrow ⟨stored, hmem, rfl⟩ herr
        · exact herr _ _
      · next hmatch =>
          obtain ⟨huser, hfam⟩ := not_or.mp hmatch
          rw [not_not] at huser hfam
          split
          · exact valid_revokeFamilyAndThrow ⟨stored, hmem, rfl⟩ herr
          · split
            · exact valid_revokeFamilyAndThrow ⟨stored, hmem, rfl⟩ herr
            · split
              · refine valid_prisma fun s' _ hinv _ => ⟨AuthStep.revokeOne.keeps hinv, ?_⟩
                cases (DbCmd.exec (.refreshTokenRevoke stored.id _) s'.world).1 with
                | ok _ => trivial
                | error e => trivial
              · refine valid_rotate hmem huser (fun issued s' hdone => ?_) herr
                obtain ⟨e, he, hcall, hrot⟩ := hdone
                exact ⟨e, he, hcall, stored, hrot, hid, hfam, huser⟩

/-- A signup draws its family, and nobody else uses that family before the
token is stored. -/
theorem valid_signup {userId : UserId} {userAgent ipAddress : Option String}
    {role : Option UserRole} :
    (authDiscipline cfg).Valid (.signup userId userAgent ipAddress role) i
      (issueTokens cfg userId ⟨none, userAgent, ipAddress, role⟩)
      (authPost (.signup userId userAgent ipAddress role) i) s := by
  refine valid_reads (.host _) fun s₁ _ _ => ?_
  show (authDiscipline cfg).Valid _ i ((host .randomUUID).bind _) _ _
  refine valid_reads (.host _) fun s₂ _ hinv₂ => ?_
  -- the family has been drawn: no row has it
  have hfam₂ : Handed (s₂.exec i (.host .randomUUID)) i (freshId s₂.world.nextId) :=
    handed_exec.mpr (.inr ⟨rfl, rfl, rfl⟩)
  have hnone₂ : ∀ t ∈ tokens (s₂.exec i (.host .randomUUID)),
      t.familyId ≠ freshId s₂.world.nextId := fun t ht =>
    (hinv₂.issued.behind t ht _ (Nat.le_refl _)).2
  refine valid_reads (.host _) fun s₃ h₃ _ => ?_
  have hid₃ : Handed (s₃.exec i (.host .randomUUID)) i (freshId s₃.world.nextId) :=
    handed_exec.mpr (.inr ⟨rfl, rfl, rfl⟩)
  have h₃' := h₃.trans (grows_reads (.host .randomUUID) s₃)
  refine valid_reads (.host _) fun s₄ h₄ _ => ?_
  have h₄' := h₄.trans (grows_reads (.host .now) s₄)
  refine valid_prisma fun s₅ h₅ hinv₅ _ => ⟨?_, ?_⟩
  · have hgrows := (h₃'.trans h₄').trans h₅
    refine (AuthStep.create ?_ ?_ ?_ rfl).keeps hinv₅
    · exact hgrows.unused _ hfam₂ hnone₂
    · exact hid₃.mono (h₄'.trans h₅).trace
    · exact hfam₂.mono hgrows.trace
  · cases (DbCmd.exec (.refreshTokenCreate _) s₅.world).1 with
    | error e => trivial
    | ok _ => exact Discipline.valid_bind (valid_createAccessToken fun r s' => by
        cases r <;> trivial)

theorem valid_logoutAll {userId : UserId} :
    (authDiscipline cfg).Valid (.logoutAll userId) i (logoutAll userId)
      (authPost (.logoutAll userId) i) s := by
  refine valid_reads (.host _) fun s₁ _ _ => ?_
  exact valid_prisma fun s₂ _ hinv _ => ⟨AuthStep.revokeUser.keeps hinv, trivial⟩

end Valid

/-- Any run at all is governed: the discipline assumes nothing. -/
theorem governs (ok : Config (authService cfg).system → Event (authService cfg).system → Prop) :
    (authDiscipline cfg).Governs ok authPost where
  start := by
    intro c o _ _ _
    cases o with
    | signup userId userAgent ipAddress role => exact valid_signup
    | refreshSession token userAgent ipAddress => exact valid_refreshSession
    | logoutAll userId => exact valid_logoutAll
  step := fun _ _ _ _ _ _ _ _ => trivial
  env := by
    intro c e _ hinv
    cases e with
    | tick ms =>
        refine ⟨⟨hinv.issued, hinv.handed.env (.tick ms)⟩, fun i => ?_⟩
        exact ⟨List.suffix_rfl, fun t ht => ⟨t, ht, Precedes.refl t⟩, fun _ _ h => h⟩

/-! ## The main result -/

/-- The rotations committed so far, by the id of the token rotated. -/
def rotations (s : Snap (authService cfg).system) : List String :=
  s.trace.filterMap fun e => (rotated e).map (·.id)

/-- A row with this id exists and is revoked. -/
def Spent (rows : List RefreshToken) (id : String) : Prop :=
  (∃ t ∈ rows, t.id = id) ∧ ∀ t ∈ rows, t.id = id → t.revokedAt ≠ none

/-- A committed rotation found its token unrevoked and leaves it spent. -/
theorem rotated_spec {e : Entry (authService cfg).system} {stored : RefreshToken}
    (h : rotated e = some stored) :
    (∃ t ∈ e.before.db.refreshTokens, t.id = stored.id ∧ t.revokedAt = none) ∧
      Spent e.after.db.refreshTokens stored.id := by
  obtain ⟨i, cmd, before⟩ := e
  unfold rotated at h
  split at h
  · next cfg' stored' sub fid now userAgent ipAddress hcmd =>
      dsimp only at hcmd
      subst hcmd
      split at h
      · next p hrot =>
          cases h
          obtain ⟨issued, d⟩ := p
          obtain ⟨next, hnid, -, -, -, hunused, hapart, hrows⟩ := rotateRefreshToken_ok hrot
          refine ⟨hunused, ?_⟩
          obtain ⟨t, ht, htid, -⟩ := hunused
          have hafter : (DbCmd.exec (.refreshTokenRotate cfg' stored sub fid now userAgent
              ipAddress) before).2.db.refreshTokens = d.refreshTokens := by
            simp only [DbCmd.exec, hrot]
          show Spent (DbCmd.exec _ before).2.db.refreshTokens stored.id
          rw [hafter, hrows]
          constructor
          · refine ⟨_, mem_stepped.mpr (.inl ⟨t, ht, rfl⟩), ?_⟩
            rw [(markReplaced_precedes _ _ _ t).id]
            exact htid
          · intro x hx hid
            rcases mem_stepped.mp hx with ⟨y, hy, rfl⟩ | hx
            · rw [(markReplaced_precedes _ _ _ y).id] at hid
              exact markReplaced_revoked hid
            · cases hx
              exact absurd (htid.trans (hid.symm.trans hnid)) (hapart t ht)
      · cases h
  · cases h

/-- A spent token stays spent: it is never reused as the id of a new
one. -/
theorem Effect.spent {s : Snap (authService cfg).system} {i : Nat} {c : Cmd}
    {g : RefreshToken → RefreshToken} {new : Option RefreshToken} (h : Effect s i c g new)
    {id : String} (hspent : Spent (tokens s) id) : Spent (tokens (s.exec i c)) id := by
  obtain ⟨⟨t, ht, htid⟩, hrevoked⟩ := hspent
  rw [h.table]
  constructor
  · obtain ⟨t', ht', hp⟩ := h.step.persists ht
    exact ⟨t', ht', hp.id.trans htid⟩
  · intro x hx hid
    rcases mem_stepped.mp hx with ⟨y, hy, rfl⟩ | hx
    · rw [(h.step.marks y hy).id] at hid
      exact ((h.step.marks y hy).revoked (hrevoked y hy hid)).1
    · exact absurd (htid.trans hid.symm) (h.step.apart x hx t ht)

/-- What the run of `families_linear` keeps. -/
structure FamilyInv (c : Config (authService cfg).system) : Prop where
  sound : (authDiscipline cfg).Sound authPost c
  linear : Linear (tokens c.toSnap)
  nodup : (rotations c.toSnap).Nodup
  spent : ∀ id ∈ rotations c.toSnap, Spent (tokens c.toSnap) id

theorem rotations_exec (s : Snap (authService cfg).system) (i : Nat) (c : Cmd) :
    rotations (s.exec i c) =
      ((rotated ⟨i, c, s.world⟩).map (·.id)).toList ++ rotations s := by
  simp only [rotations, Snap.exec_trace, List.filterMap_cons]
  cases @rotated cfg ⟨i, c, s.world⟩ <;> rfl

theorem FamilyInv.next {c : Config (authService cfg).system}
    {e : Event (authService cfg).system} (h : FamilyInv c) : FamilyInv (c.next e) := by
  have hsound := h.sound.next (governs fun _ _ => True) (e := e) trivial
  cases e with
  | start o => exact ⟨hsound, h.linear, h.nodup, h.spent⟩
  | env e =>
      cases e
      exact ⟨hsound, h.linear, h.nodup, h.spent⟩
  | step i =>
      cases hp : c.pending i with
      | none =>
          rw [Config.next_step_of_pending_none hp]
          exact h
      | some cmd =>
          obtain ⟨o, k, hc⟩ := Config.pending_eq_some.mp hp
          obtain ⟨hkeeps, -⟩ := h.sound.keeps (governs fun _ _ => True) trivial hc
          obtain ⟨g, new, heff⟩ := AuthStep.effect hkeeps.guar h.sound.inv
          refine ⟨hsound, ?_, ?_, ?_⟩ <;> rw [Config.next_step_of_call hc]
          · show Linear (tokens (c.toSnap.exec i cmd))
            rw [heff.table]
            exact heff.step.linear h.linear
          · show (rotations (c.toSnap.exec i cmd)).Nodup
            rw [rotations_exec]
            cases hrot : @rotated cfg ⟨i, cmd, c.world⟩ with
            | none => exact h.nodup
            | some stored =>
                obtain ⟨⟨t, ht, htid, htr⟩, -⟩ := rotated_spec hrot
                refine List.nodup_cons.mpr ⟨fun hmem => ?_, h.nodup⟩
                exact (h.spent _ hmem).2 t ht htid htr
          · show ∀ id ∈ rotations (c.toSnap.exec i cmd), Spent (tokens (c.toSnap.exec i cmd)) id
            intro id hid
            rw [rotations_exec] at hid
            rcases List.mem_append.mp hid with hnew | hold
            · cases hrot : @rotated cfg ⟨i, cmd, c.world⟩ with
              | none => simp [hrot] at hnew
              | some stored =>
                  have hidstored : id = stored.id := by simpa [hrot] using hnew
                  rw [hidstored]
                  exact (rotated_spec hrot).2
            · exact heff.spent (h.spent id hold)

/-- **Families are linear.** Starting from no tokens, whatever signups,
refreshes and logouts are called and however their commands interleave: a
family has at most one unrevoked token; no token is rotated twice; ids are
unique, and `replacedById` names a token of the same family and user. -/
theorem families_linear (cfg : AuthConfig) (w : World) (hempty : w.db.refreshTokens = [])
    (es : List (Event (authService cfg).system)) :
    let s := ((Config.initial w).run es : Config (authService cfg).system).toSnap
    Linear (tokens s) ∧ (rotations s).Nodup ∧ ((tokens s).map (·.id)).Nodup ∧
      ∀ t ∈ tokens s, ∀ id, t.replacedById = some id →
        ∃ t' ∈ tokens s, t'.id = id ∧ t'.familyId = t.familyId ∧ t'.userId = t.userId := by
  have hinv : @AuthInv cfg ⟨w, []⟩ := by
    refine ⟨?_, handedInv_initial w⟩
    show Issued w.db.refreshTokens w.nextId
    rw [hempty]
    exact issued_nil _
  have hstart : @FamilyInv cfg (Config.initial w) := by
    refine ⟨Discipline.sound_initial hinv, ?_, List.nodup_nil, by intro id hid; cases hid⟩
    show Linear w.db.refreshTokens
    rw [hempty]
    intro t ht
    cases ht
  have hany : ((Config.initial w : Config (authService cfg).system)).Obeys (fun _ _ => True) es :=
    Config.obeys_of_forall (fun _ _ => trivial) _ es
  have hrun := Config.run_induct (fun _ _ _ h => FamilyInv.next h) es _ hany hstart
  exact ⟨hrun.linear, hrun.nodup, hrun.sound.inv.issued.ids, hrun.sound.inv.issued.linked⟩

end Calls

/-- An environment whose tokens are told apart by their `jti`. -/
def plainConfig : AuthConfig := ⟨"access secret", "refresh secret", fun t => t.jti⟩

/-- A signup, and two refreshes that present the token it issued. -/
def twoRefreshes : List (Event (authService plainConfig).system) :=
  let token := plainConfig.signRefreshToken 0 "ann" (freshId 0) (freshId 1)
  (.start (.signup "ann" none none (some .USER)) ::
      List.replicate 6 (.step 0) : List (Event (authService plainConfig).system)) ++
    ([.start (.refreshSession token none none), .start (.refreshSession token none none)] :
      List (Event (authService plainConfig).system)) ++
    (List.replicate 3 (.step 1) : List (Event (authService plainConfig).system)) ++
    (List.replicate 5 (.step 2) : List (Event (authService plainConfig).system)) ++
    (List.replicate 2 (.step 1) : List (Event (authService plainConfig).system))

theorem families_linear_twoRefreshes :
    let s := ((Config.initial (World.peopled ["ann"] 0)).run twoRefreshes :
      Config (authService plainConfig).system).toSnap
    Linear (tokens s) ∧ (rotations s).Nodup ∧ ((tokens s).map (·.id)).Nodup ∧
      ∀ t ∈ tokens s, ∀ id, t.replacedById = some id →
        ∃ t' ∈ tokens s, t'.id = id ∧ t'.familyId = t.familyId ∧ t'.userId = t.userId :=
  families_linear plainConfig (World.peopled ["ann"] 0) rfl twoRefreshes

end VerityBackend.Auth
