/-
VerityBackend.Web.Refreshing — refreshes of one client that overlap.

The client does not coordinate its refreshes: every call that is answered
with 401 sends the cookie there is. The server takes a second use of a
refresh token for theft and revokes the family. `stays_logged_in` is about
runs in which no refresh is sent while another one is outstanding;
`logged_out` is the run of two calls that are.
-/
import VerityBackend.Async.Discipline
import VerityBackend.Auth.Families
import VerityBackend.Backend.Frames
import VerityBackend.Web.Client

namespace VerityBackend.Web

open Async Auth

variable {cfg : AuthConfig} {api : Api} {userAgent ipAddress : Option String}

/-! ## Tokens and their rows -/

/-- The unrevoked row of a token. -/
structure Fits (cfg : AuthConfig) (token : Jwt) (t : RefreshToken) : Prop where
  id : t.id = token.jti
  userId : t.userId = token.sub
  familyId : t.familyId = token.fid
  tokenHash : t.tokenHash = cfg.hashToken token
  unrevoked : t.revokedAt = none

/-- The token is on record, and not revoked. -/
def Live (cfg : AuthConfig) (token : Jwt) (w : World) : Prop :=
  ∃ t ∈ w.db.refreshTokens, Fits cfg token t

/-- What the client needs of its token. -/
def Unrevoked (token : Jwt) (w : World) : Prop :=
  ∃ t ∈ w.db.refreshTokens, t.id = token.jti ∧ t.revokedAt = none

def Unique (w : World) : Prop := (w.db.refreshTokens.map (·.id)).Nodup

/-- The rows of a family. -/
def family (fid : String) (w : World) : List RefreshToken :=
  w.db.refreshTokens.filter (·.familyId = fid)

/-- No token of the family has expired that is not revoked. -/
def Fresh (fid : String) (w : World) : Prop :=
  ∀ t ∈ family fid w, t.revokedAt = none → w.clock < t.expiresAt

instance (token : Jwt) (w : World) : Decidable (Unrevoked token w) :=
  inferInstanceAs (Decidable (∃ t ∈ w.db.refreshTokens, _))

instance (w : World) : Decidable (Unique w) := inferInstanceAs (Decidable (List.Nodup _))

instance (fid : String) (w : World) : Decidable (Fresh fid w) :=
  inferInstanceAs (Decidable (∀ t ∈ family fid w, t.revokedAt = none → w.clock < t.expiresAt))

/-! ## Runs -/

/-- The call whose refresh has been sent and not been answered. Where several
are, it is the one that was sent last. -/
def outstanding : List (Entry (client cfg api userAgent ipAddress)) → Option Nat
  | [] => none
  | e :: es =>
      match e.cmd with
      | .sendRefresh => some e.call
      | .receiveRefresh _ => none
      | _ => outstanding es

def WebCmd.sendsRefresh : WebCmd → Bool
  | .sendRefresh => true
  | _ => false

/-- What happens on the server besides leaves the family alone. -/
structure Foreign (fid : String) (w w' : World) : Prop where
  family : family fid w' = family fid w
  unique : Unique w'
  clock : w.clock ≤ w'.clock

instance (fid : String) (w w' : World) : Decidable (Foreign fid w w') :=
  decidable_of_iff (Web.family fid w' = Web.family fid w ∧ Unique w' ∧ w.clock ≤ w'.clock)
    ⟨fun h => ⟨h.1, h.2.1, h.2.2⟩, fun h => ⟨h.family, h.unique, h.clock⟩⟩

/-- Nobody else uses the family, and its tokens do not expire. -/
def Undisturbed (fid : String) (c : Config (client cfg api userAgent ipAddress)) :
    Event (client cfg api userAgent ipAddress) → Prop
  | .start _ => True
  | .step _ => Fresh fid c.world.server
  | .env f => Foreign fid c.world.server (f c.world.server)

/-- No refresh is sent while another one is outstanding. -/
def OneByOne (c : Config (client cfg api userAgent ipAddress)) :
    Event (client cfg api userAgent ipAddress) → Prop
  | .step i => (c.pending i).any WebCmd.sendsRefresh = true → outstanding c.trace = none
  | _ => True

instance (fid : String) (c : Config (client cfg api userAgent ipAddress))
    (e : Event (client cfg api userAgent ipAddress)) : Decidable (Undisturbed fid c e) :=
  match e with
  | .start _ => .isTrue trivial
  | .step _ => inferInstanceAs (Decidable (Fresh fid c.world.server))
  | .env f => inferInstanceAs (Decidable (Foreign fid c.world.server (f c.world.server)))

instance (c : Config (client cfg api userAgent ipAddress))
    (e : Event (client cfg api userAgent ipAddress)) : Decidable (OneByOne c e) :=
  match e with
  | .step i => inferInstanceAs (Decidable ((c.pending i).any WebCmd.sendsRefresh = true →
      outstanding c.trace = none))
  | .start _ | .env _ => .isTrue trivial

/-! ## The rotation -/

section Rotation

variable {rows : List RefreshToken} {clock now : Nat} {nextTokenId sub fid : String}
  {stored t : RefreshToken} {d d' : Db} {tokens : IssuedTokens}

theorem countP_unused (hids : (rows.map (·.id)).Nodup) (ht : t ∈ rows) (hr : t.revokedAt = none) :
    rows.countP (fun x => x.id == t.id && x.revokedAt.isNone) = 1 := by
  refine Nat.le_antisymm ?_ (List.countP_pos_iff.mpr ⟨t, ht, by simp [hr]⟩)
  calc rows.countP (fun x => x.id == t.id && x.revokedAt.isNone)
      ≤ rows.countP (fun x => x.id == t.id) :=
        List.countP_mono_left fun x _ hx => (Bool.and_eq_true _ _ ▸ hx).1
    _ = (rows.map (·.id)).count t.id := by rw [List.count, List.countP_map]; rfl
    _ ≤ 1 := List.nodup_iff_count_le_one.mp hids t.id

theorem insertRefreshToken_not_reuse (d : Db) (row : RefreshToken) :
    insertRefreshToken d row ≠ .error .refreshReuse := by
  unfold insertRefreshToken
  split
  · simp
  · split <;> simp

/-- The rotation of an unrevoked row is not taken for a second one. -/
theorem rotate_not_reuse (hids : (d.refreshTokens.map (·.id)).Nodup) (ht : stored ∈ d.refreshTokens)
    (hr : stored.revokedAt = none) :
    rotateRefreshToken cfg clock nextTokenId stored sub fid now userAgent ipAddress d ≠
      .error .refreshReuse := by
  intro h
  simp only [rotateRefreshToken, countP_unused hids ht hr, ne_eq, not_true_eq_false, ↓reduceIte] at h
  cases hins : insertRefreshToken _ _ with
  | error e =>
      rw [hins] at h
      cases h
      exact insertRefreshToken_not_reuse _ _ hins
  | ok d₁ =>
      rw [hins] at h
      cases huser : d.users sub with
      | none =>
          simp only [huser, bind, Except.bind] at h
          cases h
      | some user => simp [huser, bind, Except.bind, pure, Except.pure] at h

/-- The token a rotation answers with is live. -/
theorem rotate_live {w : World} (hunique : Unique w) (hfam : stored.familyId = fid)
    (h : rotateRefreshToken cfg clock nextTokenId stored sub fid now userAgent ipAddress w.db =
      .ok (tokens, d')) :
    (d'.refreshTokens.map (·.id)).Nodup ∧ tokens.refreshToken.fid = fid ∧
      ∃ t ∈ d'.refreshTokens, Fits cfg tokens.refreshToken t := by
  obtain ⟨next, hnext, -, hapart, hrows⟩ := rotateRefreshToken_successor h
  have hmem : next ∈ d'.refreshTokens := by
    rw [hrows]
    exact mem_stepped.mpr (.inr rfl)
  refine ⟨?_, by rw [hnext.token]; rfl, next, hmem, ?_⟩
  · rw [hrows, stepped, List.map_append, List.map_map]
    have hsame : w.db.refreshTokens.map ((·.id) ∘ markReplaced stored.id nextTokenId now) =
        w.db.refreshTokens.map (·.id) :=
      List.map_congr_left fun t _ => (markReplaced_precedes _ _ _ t).id
    rw [hsame]
    refine List.Nodup.append hunique (List.nodup_singleton _) ?_
    intro id hid hnew
    obtain ⟨t, ht, rfl⟩ := List.mem_map.mp hid
    exact hapart t ht ((List.mem_singleton.mp hnew).trans hnext.id)
  · exact {
      id := by rw [hnext.token, hnext.id]; rfl
      userId := by rw [hnext.token, hnext.userId]; rfl
      familyId := by rw [hnext.token, hnext.familyId, hfam]; rfl
      tokenHash := hnext.tokenHash
      unrevoked := hnext.revokedAt }

end Rotation

/-! ## Procedures of the server -/

section OnServer

variable {α β : Type}

theorem onServer_bind (p : Prog α) (f : α → Prog β) :
    onServer (p.bind f) = (onServer p).bind fun a => onServer (f a) := by
  induction p with
  | ret r => cases r <;> rfl
  | call c k ih => exact congrArg (Proc.call (WebCmd.server c)) (funext ih)

theorem onServer_tryCatch (p : Prog α) (h : Err → Prog α) :
    onServer (p.tryCatch h) = (onServer p).tryCatch fun e => onServer (h e) := by
  induction p with
  | ret r => cases r <;> rfl
  | call c k ih => exact congrArg (Proc.call (WebCmd.server c)) (funext ih)

end OnServer

/-! ## The discipline -/

section Discipline

variable {fid : String} {w w' : World} {token : Jwt}

theorem live_iff : Live cfg token w ↔ ∃ t ∈ family token.fid w, Fits cfg token t := by
  unfold Live family
  constructor
  · rintro ⟨t, ht, hfits⟩
    exact ⟨t, List.mem_filter.mpr ⟨ht, by simpa using hfits.familyId⟩, hfits⟩
  · rintro ⟨t, ht, hfits⟩
    exact ⟨t, (List.mem_filter.mp ht).1, hfits⟩

theorem Live.congr (h : Live cfg token w) (hfamily : family token.fid w' = family token.fid w) :
    Live cfg token w' := by
  rw [live_iff, hfamily, ← live_iff]
  exact h

/-- What is true between commands. -/
structure ClientInv (fid : String) (s : Snap (client cfg api userAgent ipAddress)) : Prop where
  unique : Unique s.world.server
  live : outstanding s.trace = none →
    ∃ token, s.world.cookie = some token ∧ token.fid = fid ∧ Live cfg token s.world.server

/-- What call `i` counts on: while its refresh is outstanding, nobody touches
the cookie or the family. -/
structure Apart (fid : String) (i : Nat) (s s' : Snap (client cfg api userAgent ipAddress)) :
    Prop where
  free : outstanding s.trace ≠ some i → outstanding s'.trace ≠ some i
  held : outstanding s.trace = some i → outstanding s'.trace = some i ∧
    s'.world.cookie = s.world.cookie ∧ family fid s'.world.server = family fid s.world.server ∧
    s.world.server.clock ≤ s'.world.server.clock

theorem Apart.refl (i : Nat) (s : Snap (client cfg api userAgent ipAddress)) : Apart fid i s s :=
  ⟨id, fun h => ⟨h, rfl, rfl, Nat.le_refl _⟩⟩

theorem Apart.trans {i : Nat} {s₁ s₂ s₃ : Snap (client cfg api userAgent ipAddress)}
    (h : Apart fid i s₁ s₂) (h' : Apart fid i s₂ s₃) : Apart fid i s₁ s₃ where
  free := fun hs => h'.free (h.free hs)
  held := by
    intro hs
    obtain ⟨hs₂, hcookie, hfamily, hclock⟩ := h.held hs
    obtain ⟨hs₃, hcookie', hfamily', hclock'⟩ := h'.held hs₂
    exact ⟨hs₃, hcookie'.trans hcookie, hfamily'.trans hfamily, Nat.le_trans hclock hclock'⟩

variable (cfg api userAgent ipAddress) in
def refreshing (fid : String) : Discipline (client cfg api userAgent ipAddress) where
  inv := ClientInv fid
  admits _ _ c s := (c.sendsRefresh = true → outstanding s.trace = none) ∧ Fresh fid s.world.server
  rely := Apart fid
  guar _ _ _ _ := True
  rely_refl := Apart.refl
  rely_trans _ _ _ _ h h' := h.trans h'

/-- Commands that leave the cookie and the refresh tokens alone. -/
inductive Plain : WebCmd → Prop
  | server {c : Cmd} (h : Reads c) : Plain (.server c)
  | getAccessToken : Plain .getAccessToken
  | setAccessToken (token : Jwt) : Plain (.setAccessToken token)
  | request (path : String) (token : Option Jwt) : Plain (.request path token)

variable {o : WebOp} {i : Nat} {s s' : Snap (client cfg api userAgent ipAddress)}

theorem outstanding_plain {c : WebCmd} (hc : Plain c) :
    outstanding (s.exec i c).trace = outstanding s.trace := by
  cases hc <;> rfl

variable (api) in
theorem plain_same {c : WebCmd} (hc : Plain c) (w : WebWorld) :
    (c.exec api w).2.cookie = w.cookie ∧
      (c.exec api w).2.server.db.refreshTokens = w.server.db.refreshTokens ∧
      (c.exec api w).2.server.clock = w.server.clock := by
  cases hc with
  | server h => exact ⟨rfl, h.table w.server, Cmd.clock_exec _ w.server⟩
  | _ => exact ⟨rfl, rfl, rfl⟩

theorem plain_keeps {c : WebCmd} (hc : Plain c) (hinv : ClientInv fid s) :
    (refreshing cfg api userAgent ipAddress fid).Keeps o i c s := by
  obtain ⟨hcookie, hrows, hclock⟩ := plain_same api hc s.world
  have hfamily : ∀ f, family f (c.exec api s.world).2.server = family f s.world.server := by
    intro f
    unfold family
    rw [hrows]
  refine ⟨trivial, ⟨?_, fun hidle => ?_⟩, fun j _ => ⟨?_, ?_⟩⟩
  · unfold Unique
    rw [Snap.exec_world, hrows]
    exact hinv.unique
  · rw [outstanding_plain hc] at hidle
    obtain ⟨token, hsome, hfid, hlive⟩ := hinv.live hidle
    exact ⟨token, hcookie.trans hsome, hfid, hlive.congr (hfamily _)⟩
  · rw [outstanding_plain hc]
    exact id
  · rw [outstanding_plain hc]
    exact fun h => ⟨h, hcookie, hfamily _, hclock.ge⟩

/-- A command of the server by the call whose refresh is outstanding. -/
theorem held_keeps {c : Cmd} (hs : outstanding s.trace = some i)
    (hunique : Unique (c.exec s.world.server).2) :
    (refreshing cfg api userAgent ipAddress fid).Keeps o i (.server c) s := by
  have hsame : outstanding (s.exec i (.server c)).trace = some i := hs
  refine ⟨trivial, ⟨hunique, fun hidle => ?_⟩, fun j hj => ⟨fun _ => ?_, fun h => ?_⟩⟩
  · rw [hsame] at hidle
    cases hidle
  · rw [hsame]
    exact fun h => hj (Option.some.inj h).symm
  · rw [hs] at h
    exact absurd (Option.some.inj h).symm hj

/-! ## A refresh -/

/-- The refresh of call `i` is outstanding, and has been sent with this
token. -/
structure Held (fid : String) (token : Jwt) (i : Nat)
    (s : Snap (client cfg api userAgent ipAddress)) : Prop where
  outstanding : outstanding s.trace = some i
  cookie : s.world.cookie = some token
  fid : token.fid = fid
  live : Live cfg token s.world.server

theorem Held.rely (h : Held fid token i s) (hr : Apart fid i s s') : Held fid token i s' := by
  obtain ⟨hout, hcookie, hfamily, -⟩ := hr.held h.outstanding
  exact ⟨hout, hcookie.trans h.cookie, h.fid, h.live.congr (by rw [h.fid]; exact hfamily)⟩

theorem Held.plain {c : WebCmd} (hc : Plain c) (h : Held fid token i s) :
    Held fid token i (s.exec i c) := by
  obtain ⟨hcookie, hrows, -⟩ := plain_same api hc s.world
  refine ⟨(outstanding_plain hc).trans h.outstanding, hcookie.trans h.cookie, h.fid, h.live.congr ?_⟩
  unfold family
  rw [Snap.exec_world, hrows]

/-- The server's answer is there. -/
structure Answered (fid : String) (i : Nat) (answer : Option IssuedTokens)
    (s : Snap (client cfg api userAgent ipAddress)) : Prop where
  outstanding : Web.outstanding s.trace = some i
  live : ∃ token, (answer.map (·.refreshToken)).or s.world.cookie = some token ∧ token.fid = fid ∧
    Live cfg token s.world.server

variable {α β : Type}

/-- A command of the server that only reads. -/
theorem valid_reads {c : Cmd} (hc : Reads c) {f : c.Res → WebProg β}
    {Q : Except Err β → Snap (client cfg api userAgent ipAddress) → Prop} (hheld : Held fid token i s)
    (h : ∀ s', Apart fid i s s' → Held fid token i s' → ClientInv fid s' → Fresh fid s'.world.server →
      (refreshing cfg api userAgent ipAddress fid).Resumes o i f Q (c.exec s'.world.server).1
        (s'.exec i (.server c))) :
    (refreshing cfg api userAgent ipAddress fid).Valid o i ((web (.server c)).bind f) Q s :=
  Discipline.valid_await fun s' hrely hinv ha =>
    ⟨plain_keeps (.server hc) hinv, h s' hrely (hheld.rely hrely) hinv ha.2⟩

/-- The answer of `refreshSession`. -/
def Refreshed (fid : String) (token : Jwt) (i : Nat) (r : Except Err IssuedTokens)
    (s : Snap (client cfg api userAgent ipAddress)) : Prop :=
  match r with
  | .ok issued => outstanding s.trace = some i ∧ issued.refreshToken.fid = fid ∧
      Live cfg issued.refreshToken s.world.server
  | .error _ => Held fid token i s

theorem find?_unique {rows : List RefreshToken} (hids : (rows.map (·.id)).Nodup) {t : RefreshToken}
    (ht : t ∈ rows) : rows.find? (·.id = t.id) = some t := by
  cases hfind : rows.find? (·.id = t.id) with
  | none => simpa using List.find?_eq_none.mp hfind t ht
  | some x =>
      have hid : x.id = t.id := by simpa using List.find?_some hfind
      rw [List.inj_on_of_nodup_map hids (List.mem_of_find?_eq_some hfind) ht hid]

/-- The transaction, of the row that has been read. -/
theorem valid_rotate {stored : RefreshToken} {now : Nat} (hheld : Held fid token i s)
    (hstored : stored ∈ family fid s.world.server) (hfits : Fits cfg token stored) :
    (refreshing cfg api userAgent ipAddress fid).Valid o i
      (onServer (rotate cfg ⟨token.sub, token.fid, token.jti⟩ stored now userAgent ipAddress))
      (Refreshed fid token i) s := by
  unfold rotate
  rw [onServer_tryCatch]
  refine Discipline.valid_tryCatch ?_
  intro s' hrely hinv _
  have hheld' := hheld.rely hrely
  have hmem : stored ∈ s'.world.server.db.refreshTokens := by
    rw [← (hrely.held hheld.outstanding).2.2.1] at hstored
    exact (List.mem_filter.mp hstored).1
  let cmd : Cmd := .db (.refreshTokenRotate cfg stored token.sub token.fid now userAgent ipAddress)
  cases hrot : rotateRefreshToken cfg s'.world.server.clock (freshId s'.world.server.nextId) stored
      token.sub token.fid now userAgent ipAddress s'.world.server.db with
  | ok p =>
      obtain ⟨issued, d⟩ := p
      obtain ⟨hids, hissued, hlive⟩ := rotate_live hinv.unique hfits.familyId hrot
      have hexec : cmd.exec s'.world.server =
          (.ok issued, { s'.world.server with db := d, nextId := s'.world.server.nextId + 1 }) := by
        rw [Cmd.exec_db, DbCmd.exec, hrot]
      have hanswer : (WebCmd.exec api (.server cmd) s'.world).1 = .ok issued :=
        congrArg Prod.fst hexec
      have hafter : Refreshed fid token i (.ok issued) (s'.exec i (.server cmd)) := by
        refine ⟨hheld'.outstanding, hissued.trans hheld.fid, ?_⟩
        rw [Snap.exec_world]
        change Live cfg issued.refreshToken (cmd.exec s'.world.server).2
        rw [hexec]
        exact hlive
      refine ⟨held_keeps hheld'.outstanding (by rw [hexec]; exact hids), ?_⟩
      refine (Discipline.valid_ret _ _ _).mpr ?_
      rw [hanswer]
      exact hafter
  | error e =>
      have hreuse : e ≠ .refreshReuse := fun h =>
        rotate_not_reuse hinv.unique hmem hfits.unrevoked (h ▸ hrot)
      have hexec : cmd.exec s'.world.server =
          (.error e, { s'.world.server with nextId := s'.world.server.nextId + 1 }) := by
        rw [Cmd.exec_db, DbCmd.exec, hrot]
      have hanswer : (WebCmd.exec api (.server cmd) s'.world).1 = .error e :=
        congrArg Prod.fst hexec
      have hafter : Held fid token i (s'.exec i (.server cmd)) := by
        refine ⟨hheld'.outstanding, hheld'.cookie, hheld'.fid, hheld'.live.congr ?_⟩
        rw [Snap.exec_world]
        change family _ (cmd.exec s'.world.server).2 = _
        rw [hexec]
        rfl
      refine ⟨held_keeps hheld'.outstanding (by rw [hexec]; exact hinv.unique), ?_⟩
      refine (Discipline.valid_ret _ _ _).mpr ?_
      rw [hanswer]
      cases e with
      | refreshReuse => exact absurd rfl hreuse
      | _ => exact hafter

theorem valid_verifyRefreshToken (hheld : Held fid token i s) :
    (refreshing cfg api userAgent ipAddress fid).Valid o i (onServer (verifyRefreshToken cfg token))
      (fun r s' => Held fid token i s' ∧
        ∀ payload, r = .ok payload → payload = ⟨token.sub, token.fid, token.jti⟩) s := by
  unfold verifyRefreshToken
  rw [Proc.bind_eq, onServer_bind]
  refine valid_reads (.host .now) hheld fun s' _ hheld' _ _ => ?_
  have hafter := hheld'.plain (.server (.host .now))
  change (refreshing cfg api userAgent ipAddress fid).Valid o i (onServer (ite _ _ _)) _ _
  split
  · exact ⟨hafter, nofun⟩
  · split
    · exact ⟨hafter, nofun⟩
    · exact ⟨hafter, fun payload h => (Except.ok.inj h).symm⟩

theorem valid_refreshSession (hheld : Held fid token i s) :
    (refreshing cfg api userAgent ipAddress fid).Valid o i
      (onServer (refreshSession cfg token userAgent ipAddress)) (Refreshed fid token i) s := by
  unfold refreshSession
  simp only [Proc.bind_eq, onServer_bind]
  refine Discipline.valid_bind ((valid_verifyRefreshToken hheld).weaken fun r s₁ h => ?_)
  obtain ⟨hheld₁, hpayload⟩ := h
  cases r with
  | error e => exact hheld₁
  | ok payload =>
      obtain rfl := hpayload payload rfl
      refine valid_reads (.host .now) hheld₁ fun s₂ _ hheld₂ _ _ => ?_
      have hafter₂ := hheld₂.plain (.server (.host .now))
      refine valid_reads (.findToken _) hafter₂ fun s₃ hrely₃ hheld₃ hinv₃ hfresh => ?_
      have hafter₃ := hheld₃.plain (.server (.findToken token.jti))
      obtain ⟨t, ht, hfits⟩ := hheld₃.live
      have hfind : s₃.world.server.db.refreshTokens.find? (·.id = token.jti) = some t := by
        rw [← hfits.id]
        exact find?_unique hinv₃.unique ht
      have hfamily : t ∈ family fid s₃.world.server :=
        List.mem_filter.mpr ⟨ht, by simp [hfits.familyId, hheld₃.fid]⟩
      rw [Cmd.exec_db, DbCmd.exec, hfind]
      change (refreshing cfg api userAgent ipAddress fid).Valid o i (onServer (ite _ _ _)) _ _
      rw [if_neg (not_or.mpr ⟨not_not.mpr hfits.userId, not_not.mpr hfits.familyId⟩),
        if_neg (not_not.mpr hfits.tokenHash), if_neg (by simp [hfits.unrevoked]), if_neg ?_]
      · exact valid_rotate hafter₃ hfamily hfits
      · have hclock : s₂.world.server.clock ≤ s₃.world.server.clock :=
          (hrely₃.held hafter₂.outstanding).2.2.2
        exact Nat.not_le.mpr (Nat.lt_of_le_of_lt hclock (hfresh t hfamily hfits.unrevoked))

theorem valid_fetchRefresh (hheld : Held fid token i s) :
    (refreshing cfg api userAgent ipAddress fid).Valid o i
      (fetchRefresh cfg userAgent ipAddress (some token))
      (fun r s' => ∃ answer, r = .ok answer ∧ Answered fid i answer s') s := by
  unfold fetchRefresh refresh
  rw [Proc.bind_eq, onServer_bind]
  refine Discipline.valid_tryCatch (Discipline.valid_bind ?_)
  refine (valid_refreshSession hheld).weaken fun r s' h => ?_
  cases r with
  | ok issued => exact ⟨some issued, rfl, h.1, issued.refreshToken, rfl, h.2⟩
  | error e => exact ⟨none, rfl, h.outstanding, token, h.cookie, h.fid, h.live⟩

theorem Answered.rely {answer : Option IssuedTokens} (h : Answered fid i answer s)
    (hr : Apart fid i s s') : Answered fid i answer s' := by
  obtain ⟨hout, hcookie, hfamily, -⟩ := hr.held h.outstanding
  obtain ⟨token, hsome, hfid, hlive⟩ := h.live
  exact ⟨hout, token, by rw [hcookie]; exact hsome, hfid, hlive.congr (by rw [hfid]; exact hfamily)⟩

/-- The refresh of the call is not outstanding. -/
def Free (i : Nat) (s : Snap (client cfg api userAgent ipAddress)) : Prop :=
  outstanding s.trace ≠ some i

theorem valid_plain {p : WebProg α} (hp : p.Conforms Plain True) (hfree : Free i s) :
    (refreshing cfg api userAgent ipAddress fid).Valid o i p (fun _ s' => Free i s') s :=
  (Discipline.valid_of_conforms hp (J := Free i) (fun _ _ (hr : Apart fid i _ _) h => hr.free h)
    (fun c s hc hinv hfree => ⟨plain_keeps hc hinv, by
      unfold Free
      rw [outstanding_plain hc]
      exact hfree, .inr trivial⟩) hfree).weaken fun _ _ h => h.2

/-- A refresh of its own keeps the client logged in. -/
theorem valid_refreshAccessToken :
    (refreshing cfg api userAgent ipAddress fid).Valid o i
      (refreshAccessToken cfg userAgent ipAddress) (fun _ s' => Free i s') s := by
  refine Discipline.valid_await fun s₁ _ hinv₁ ha => ?_
  have hidle : outstanding s₁.trace = none := ha.1 rfl
  obtain ⟨token, hcookie, hfid, hlive⟩ := hinv₁.live hidle
  refine ⟨⟨trivial, ⟨hinv₁.unique, nofun⟩, fun j hj => ⟨fun _ h => ?_, fun h => ?_⟩⟩, ?_⟩
  · exact hj (Option.some.inj h).symm
  · rw [hidle] at h
    cases h
  have hheld : Held fid token i (s₁.exec i .sendRefresh) := ⟨rfl, hcookie, hfid, hlive⟩
  change (refreshing cfg api userAgent ipAddress fid).Valid o i (Proc.bind (fetchRefresh cfg userAgent
    ipAddress s₁.world.cookie) _) _ _
  rw [hcookie]
  refine Discipline.valid_bind ((valid_fetchRefresh hheld).weaken fun r s₂ h => ?_)
  obtain ⟨answer, rfl, hanswered⟩ := h
  refine Discipline.valid_await fun s₃ hrely hinv₃ _ => ?_
  obtain ⟨hout, token', hcookie', hfid', hlive'⟩ := hanswered.rely hrely
  refine ⟨⟨trivial, ⟨hinv₃.unique, fun _ => ⟨token', hcookie', hfid', hlive'⟩⟩,
    fun j hj => ⟨fun _ => nofun, fun h => ?_⟩⟩, ?_⟩
  · rw [hout] at h
    exact absurd (Option.some.inj h).symm hj
  have hfree' : Free i (s₃.exec i (.receiveRefresh answer)) := nofun
  cases answer with
  | none => exact hfree'
  | some issued =>
      exact valid_plain ((Proc.conforms_await (.setAccessToken _)).bind fun _ => Proc.conforms_pure _)
        hfree'

theorem plain_fetchOnce (path : String) : (fetchOnce path).Conforms Plain True :=
  (Proc.conforms_await .getAccessToken).bind fun _ => Proc.conforms_await (.request _ _)

theorem valid_code (o : WebOp) (hfree : Free i s) :
    (refreshing cfg api userAgent ipAddress fid).Valid o i (WebOp.code cfg userAgent ipAddress o)
      (fun _ s' => Free i s') s := by
  cases o with
  | apiFetch path retry =>
      refine Discipline.valid_bind ((valid_plain (plain_fetchOnce path) hfree).weaken fun r s₁ h₁ => ?_)
      cases r with
      | error e => exact h₁
      | ok status =>
          rw [Discipline.resumes_ok]
          split
          · refine Discipline.valid_bind (valid_refreshAccessToken.weaken fun r s₂ h₂ => ?_)
            rcases r with e | _ | token
            · exact h₂
            · exact h₂
            · exact valid_plain (plain_fetchOnce path) h₂
          · exact h₁
  | bootstrap =>
      refine Discipline.valid_bind (valid_refreshAccessToken.weaken fun r s₁ h₁ => ?_)
      rcases r with e | _ | token
      · exact h₁
      · exact h₁
      · exact valid_plain (Proc.conforms_await (.setAccessToken _)) h₁

theorem mem_of_outstanding {trace : List (Entry (client cfg api userAgent ipAddress))}
    (h : outstanding trace = some i) : ∃ e ∈ trace, e.call = i := by
  induction trace with
  | nil => cases h
  | cons e es ih =>
      unfold outstanding at h
      split at h
      · exact ⟨e, List.mem_cons_self, Option.some.inj h⟩
      · cases h
      · obtain ⟨x, hx, hcall⟩ := ih h
        exact ⟨x, List.mem_cons_of_mem e hx, hcall⟩

/-- Runs in which refreshes do not overlap. -/
theorem refreshing_governs : (refreshing cfg api userAgent ipAddress fid).Governs
    (fun c e => Undisturbed fid c e ∧ OneByOne c e) (fun _ i _ s => Free i s) where
  start c o _ _ hown := by
    refine valid_code o fun hout => ?_
    obtain ⟨e, he, hcall⟩ := mem_of_outstanding hout
    have hmem : e ∈ c.toSnap.own c.calls.length := List.mem_filter.mpr ⟨he, by simpa using hcall⟩
    rw [hown] at hmem
    cases hmem
  step c i o cmd k hok hc _ := by
    refine ⟨fun hsends => hok.2 ?_, hok.1⟩
    rw [Config.pending_of_call hc]
    exact hsends
  env c f hok hinv := by
    have hforeign : Foreign fid c.world.server (f c.world.server) := hok.1
    refine ⟨⟨hforeign.unique, fun hidle => ?_⟩, fun i => ⟨id, fun h => ?_⟩⟩
    · obtain ⟨token, hcookie, hfid, hlive⟩ := hinv.live hidle
      exact ⟨token, hcookie, hfid, hlive.congr (by rw [hfid]; exact hforeign.family)⟩
    · exact ⟨h, rfl, hforeign.family, hforeign.clock⟩

end Discipline

/-- As long as no refresh is sent while another one is outstanding, the
client is logged in whenever no call is in flight. -/
theorem stays_logged_in (cfg : AuthConfig) (api : Api) (userAgent ipAddress : Option String)
    (w : WebWorld) (token : Jwt) (hcookie : w.cookie = some token) (hunique : Unique w.server)
    (hlive : Live cfg token w.server) (es : List (Event (client cfg api userAgent ipAddress)))
    (hes : (Config.initial w : Config (client cfg api userAgent ipAddress)).Obeys
      (fun c e => Undisturbed token.fid c e ∧ OneByOne c e) es) :
    let c := (Config.initial w : Config (client cfg api userAgent ipAddress)).run es
    c.Quiet → ∃ token', c.world.cookie = some token' ∧ Unrevoked token' c.world.server := by
  intro c hquiet
  have hinitial : ClientInv token.fid (⟨w, []⟩ : Snap (client cfg api userAgent ipAddress)) :=
    ⟨hunique, fun _ => ⟨token, hcookie, rfl, hlive⟩⟩
  obtain ⟨hsound, hdone⟩ := refreshing_governs.sound_run
    (fun _ i _ s s' (hr : Apart token.fid i s s') h => hr.free h) hinitial hes
  have hidle : outstanding c.trace = none := by
    cases hout : outstanding c.trace with
    | none => rfl
    | some i =>
        obtain ⟨e, he, rfl⟩ := mem_of_outstanding hout
        obtain ⟨o, r, hsettled⟩ := hquiet.settled (hsound.indexed e he)
        exact absurd hout (hdone _ o r hsettled)
  obtain ⟨token', hcookie', -, t, ht, hfits⟩ := hsound.inv.live hidle
  exact ⟨token', hcookie', t, ht, hfits.id, hfits.unrevoked⟩

/-- The refresh token of Ann, from the time zero. -/
def annsToken : Jwt := plainConfig.signRefreshToken 0 "ann" "f" "t"

/-- Ann's browser, a quarter of an hour later. -/
def annsBrowser : WebWorld where
  server :=
    { World.peopled ["ann"] 0 with
      clock := 900000
      db := { (World.peopled ["ann"] 0).db with
        refreshTokens :=
          [⟨"t", "ann", "t", "f", refreshExpiry 0, none, none, none, none, some 0, 0⟩] } }
  cookie := some annsToken
  accessToken := some (plainConfig.signAccessToken 0 "ann" .USER)

/-- Every request needs an access token. -/
def guarded : Api := fun _ token w =>
  if token.any (·.verifies plainConfig.accessSecret w.clock) then 200 else 401

/-- One call after the other. -/
theorem stays_logged_in_twice :
    let es : List (Event (client plainConfig guarded none none)) :=
      (.start (.apiFetch "/matches" true) :: List.replicate 11 (.step 0) :
          List (Event (client plainConfig guarded none none))) ++
        (.start .bootstrap :: List.replicate 8 (.step 1) :
          List (Event (client plainConfig guarded none none)))
    let c := (Config.initial annsBrowser : Config (client plainConfig guarded none none)).run es
    ∃ token', c.world.cookie = some token' ∧ Unrevoked token' c.world.server :=
  stays_logged_in plainConfig guarded none none annsBrowser annsToken rfl (by decide +kernel)
    ⟨_, List.mem_singleton.mpr rfl, rfl, rfl, rfl, rfl, rfl⟩ _ (by decide +kernel) (by decide +kernel)

/-- Two requests that are answered with 401 at the same time, and both
refresh. -/
theorem logged_out :
    ¬∀ (cfg : AuthConfig) (api : Api) (userAgent ipAddress : Option String) (w : WebWorld)
        (token : Jwt), w.cookie = some token → Unique w.server → Live cfg token w.server →
      ∀ es : List (Event (client cfg api userAgent ipAddress)),
        (Config.initial w : Config (client cfg api userAgent ipAddress)).Obeys
          (Undisturbed token.fid) es →
        let c := (Config.initial w : Config (client cfg api userAgent ipAddress)).run es
        c.Quiet → ∃ token', c.world.cookie = some token' ∧ Unrevoked token' c.world.server := by
  intro hall
  let es : List (Event (client plainConfig guarded none none)) :=
    ([.start (.apiFetch "/matches" true), .start (.apiFetch "/sessions" true)] :
        List (Event (client plainConfig guarded none none))) ++
      (List.replicate 3 (.step 0) : List (Event (client plainConfig guarded none none))) ++
      (List.replicate 3 (.step 1) : List (Event (client plainConfig guarded none none))) ++
      (List.replicate 4 (.step 0) : List (Event (client plainConfig guarded none none))) ++
      (List.replicate 5 (.step 1) : List (Event (client plainConfig guarded none none))) ++
      (List.replicate 4 (.step 0) : List (Event (client plainConfig guarded none none)))
  obtain ⟨token, hcookie, hunrevoked⟩ := hall plainConfig guarded none none annsBrowser annsToken rfl
    (by decide +kernel) ⟨_, List.mem_singleton.mpr rfl, rfl, rfl, rfl, rfl, rfl⟩ es (by decide +kernel)
    (by decide +kernel)
  have hout : ∀ token ∈ ((Config.initial annsBrowser : Config (client plainConfig guarded none
      none)).run es).world.cookie, ¬Unrevoked token ((Config.initial annsBrowser : Config (client
        plainConfig guarded none none)).run es).world.server := by
    decide +kernel
  exact hout token hcookie hunrevoked

end VerityBackend.Web
