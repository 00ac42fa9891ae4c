/-
VerityBackend.Session.MatchRow — when a Match row means a mutual decision.

A mutual finalizer upserts the Match row BEFORE it tries to store its
decision, so another finalizer can store PASS/PASS in between: the row
stays, and the stored decision is non_mutual (`timeoutFirst` is such a
run). `matchRow_mutual` says what the code needs: no upsert is executed once
the session is decided, and no non_mutual decision is written while the row
exists (`RespectsRow`). In a run whose steps all meet that, a row that is
left when no call is in flight belongs to the stored decision.
-/
import VerityBackend.Session.Decision

namespace VerityBackend.Sessions

open Async

/-! ## The condition -/

/-- Nothing is stored, or a pending decision. -/
def undecided (raw : Option RedisString) : Bool :=
  match raw with
  | none => true
  | some r =>
      match parseStoredDecision (some r) with
      | .pending _ => true
      | _ => false

/-- `pair` is the canonical pair of the session. -/
def respectsRow (sessionId : SessionId) (pair : UserId × UserId) (w : World) : Cmd → Bool
  | .db (.matchUpsert _ _) => undecided (w.get (.sessionDecision sessionId))
  | .redis (.set k v _) =>
      !(k = .sessionDecision sessionId ∧ v = ResolvedChoiceResult.nonMutual.payload) ||
        (w.db.findMatch pair.1 pair.2).isNone
  | .redis (.setNX k v _) =>
      !(k = .sessionDecision sessionId ∧ v = ResolvedChoiceResult.nonMutual.payload) ||
        (w.db.findMatch pair.1 pair.2).isNone || (w.get k).isSome
  | _ => true

/-- The step about to be taken respects the row. -/
def RespectsRow (sessionId : SessionId) (pair : UserId × UserId)
    (c : Config sessionService.system) : Event sessionService.system → Prop
  | .step i => ∀ cmd ∈ c.pending i, respectsRow sessionId pair c.world cmd = true
  | _ => True

instance (sessionId : SessionId) (pair : UserId × UserId) (c : Config sessionService.system)
    (e : Event sessionService.system) : Decidable (RespectsRow sessionId pair c e) :=
  match e with
  | .start _ => inferInstanceAs (Decidable True)
  | .step i => inferInstanceAs (Decidable (∀ cmd ∈ c.pending i,
      respectsRow sessionId pair c.world cmd = true))
  | .env _ => inferInstanceAs (Decidable True)

/-- The runs of a session whose steps respect the row of its pair. -/
def RowRun (sessionId : SessionId) (pair : UserId × UserId) (c : Config sessionService.system)
    (e : Event sessionService.system) : Prop :=
  OfSession sessionId c e ∧ RespectsRow sessionId pair c e

instance (sessionId : SessionId) (pair : UserId × UserId) (c : Config sessionService.system)
    (e : Event sessionService.system) : Decidable (RowRun sessionId pair c e) :=
  inferInstanceAs (Decidable (OfSession sessionId c e ∧ RespectsRow sessionId pair c e))

/-! ## The discipline -/

variable {sessionId : SessionId} {pair : UserId × UserId}

/-- An upsert of a Match row that did not fail. -/
def Upserts (e : Entry sessionService.system) : Prop :=
  ∃ a b, e.cmd = .db (.matchUpsert a b) ∧
    ∃ m, (DbCmd.exec (.matchUpsert a b) e.before).1 = .ok m

/-- The row of the pair. -/
def rowOf (pair : UserId × UserId) (w : World) : Option Match := w.db.findMatch pair.1 pair.2

structure RowInv (sessionId : SessionId) (pair : UserId × UserId) (s : SessionSnap) : Prop where
  canonical : ∀ session, s.world.db.sessions.find? (·.id = sessionId) = some session →
    canonicalPair session.userAId session.userBId = pair
  row : ∀ m, rowOf pair s.world = some m →
    m.id ≠ "" ∧ (∃ e ∈ s.trace, Upserts e) ∧
      (undecided (s.world.get (.sessionDecision sessionId)) = true ∨
        s.world.get (.sessionDecision sessionId) = some (ResolvedChoiceResult.mutual m.id).payload)

structure RowRely (sessionId : SessionId) (pair : UserId × UserId) (i : Nat)
    (s s' : SessionSnap) : Prop where
  row : ∀ m, rowOf pair s.world = some m → rowOf pair s'.world = some m
  present : (s.world.get (.sessionDecision sessionId)).isSome →
    (s'.world.get (.sessionDecision sessionId)).isSome
  stays : ∀ m, rowOf pair s.world = some m →
    s.world.get (.sessionDecision sessionId) = some (ResolvedChoiceResult.mutual m.id).payload →
    s'.world.get (.sessionDecision sessionId) = some (ResolvedChoiceResult.mutual m.id).payload
  upserts : ∀ e ∈ s'.trace, e.call = i → Upserts e → e ∈ s.trace

theorem RowRely.refl (i : Nat) (s : SessionSnap) : RowRely sessionId pair i s s :=
  ⟨fun _ h => h, fun h => h, fun _ _ h => h, fun _ h _ _ => h⟩

theorem RowRely.trans {i : Nat} {s₁ s₂ s₃ : SessionSnap} (h : RowRely sessionId pair i s₁ s₂)
    (h' : RowRely sessionId pair i s₂ s₃) : RowRely sessionId pair i s₁ s₃ where
  row := fun m hm => h'.row m (h.row m hm)
  present := fun hp => h'.present (h.present hp)
  stays := fun m hm hd => h'.stays m (h.row m hm) (h.stays m hm hd)
  upserts := fun e he hcall hu => h.upserts e (h'.upserts e he hcall hu) hcall hu

def rowDiscipline (sessionId : SessionId) (pair : UserId × UserId) :
    Discipline sessionService.system where
  inv := RowInv sessionId pair
  admits _ _ c s := respectsRow sessionId pair s.world c = true
  rely := RowRely sessionId pair
  guar _ _ _ _ := True
  rely_refl := RowRely.refl
  rely_trans _ _ _ _ h h' := h.trans h'

/-! ## One step -/

section Steps

variable {s : SessionSnap} {o : SessionOp} {i : Nat}

/-- A command that is no upsert keeps the row, and so does what it may do
to the decision. -/
theorem row_keeps {c : Cmd} (hdb : (c.exec s.world).2.db = s.world.db)
    (hupsert : ∀ a b, c ≠ .db (.matchUpsert a b))
    (hpresent : (s.world.get (.sessionDecision sessionId)).isSome →
      ((c.exec s.world).2.get (.sessionDecision sessionId)).isSome)
    (hdecision : ∀ m, rowOf pair s.world = some m →
      (c.exec s.world).2.get (.sessionDecision sessionId) =
          s.world.get (.sessionDecision sessionId) ∨
        (c.exec s.world).2.get (.sessionDecision sessionId) =
          some (ResolvedChoiceResult.mutual m.id).payload)
    (hinv : RowInv sessionId pair s) :
    (rowDiscipline sessionId pair).Keeps o i c s ∧ RowRely sessionId pair i s (s.exec i c) := by
  have hrow : rowOf pair (s.exec i c).world = rowOf pair s.world := by
    show Db.findMatch (c.exec s.world).2.db _ _ = _
    rw [hdb]
    rfl
  have hrely : ∀ j, RowRely sessionId pair j s (s.exec i c) := by
    intro j
    refine ⟨?_, hpresent, ?_, ?_⟩
    · intro m hm
      rw [hrow]
      exact hm
    · intro m hm hd
      rcases hdecision m hm with h | h
      · exact h.trans hd
      · exact h
    · intro e he _ hu
      rcases List.mem_cons.mp he with rfl | he
      · obtain ⟨a, b, hcmd, -⟩ := hu
        exact absurd hcmd (hupsert a b)
      · exact he
  refine ⟨⟨trivial, ⟨?_, ?_⟩, fun j _ => hrely j⟩, hrely i⟩
  · intro session hfind
    refine hinv.canonical session ?_
    rw [← hdb]
    exact hfind
  · intro m hm
    rw [hrow] at hm
    obtain ⟨hid, ⟨e, he, hu⟩, hdec⟩ := hinv.row m hm
    refine ⟨hid, ⟨e, List.mem_cons_of_mem _ he, hu⟩, ?_⟩
    show undecided ((c.exec s.world).2.get _) = true ∨ (c.exec s.world).2.get _ = _
    rcases hdecision m hm with h | h
    · rw [h]
      exact hdec
    · exact .inr h

/-- A command that leaves the decision and the database alone. -/
theorem row_frame {c : Cmd} (hdb : (c.exec s.world).2.db = s.world.db)
    (hupsert : ∀ a b, c ≠ .db (.matchUpsert a b))
    (hget : (c.exec s.world).2.get (.sessionDecision sessionId) =
      s.world.get (.sessionDecision sessionId)) (hinv : RowInv sessionId pair s) :
    (rowDiscipline sessionId pair).Keeps o i c s ∧ RowRely sessionId pair i s (s.exec i c) :=
  row_keeps hdb hupsert (by rw [hget]; exact id) (fun _ _ => .inl hget) hinv

theorem row_plainOK : PlainOK (rowDiscipline sessionId pair) where
  keeps := fun o i c s hc hinv => (row_frame ((hc.same s.world).db)
    (by intro a b h; subst h; cases hc) ((hc.same s.world).get _ (by simp)) hinv).1
  rely := fun i c s hc hinv => (row_frame (o := .recoverChoice 0 "") ((hc.same s.world).db)
    (by intro a b h; subst h; cases hc) ((hc.same s.world).get _ (by simp)) hinv).2

theorem findMatch_append {d : Db} {a b : UserId} {m : Match} (hnone : d.findMatch a b = none)
    (ha : m.userAId = a) (hb : m.userBId = b) :
    ({ d with matchRows := d.matchRows ++ [m] } : Db).findMatch a b = some m := by
  unfold Db.findMatch at hnone ⊢
  rw [List.find?_append, hnone]
  simp [ha, hb]

/-- What `upsert` does: what it answers is the row there is afterwards, and
a row it creates has a fresh identifier. -/
structure UpsertSpec (a b : UserId) (w : World) (r : Except Err Match × World) : Prop where
  sessions : r.2.db.sessions = w.db.sessions
  users : r.2.db.users = w.db.users
  found : ∀ m, w.db.findMatch a b = some m → r.2.db.findMatch a b = some m
  answer : ∀ m, r.1 = .ok m ↔ r.2.db.findMatch a b = some m
  fresh : ∀ m, r.1 = .ok m → w.db.findMatch a b = some m ∨ m.id ≠ ""
  succeeds : w.db.hasUser a = true → w.db.hasUser b = true → ∃ m, r.1 = .ok m

theorem matchUpsert_spec (w : World) (a b : UserId) :
    UpsertSpec a b w (DbCmd.exec (.matchUpsert a b) w) := by
  simp only [DbCmd.exec]
  cases hfind : w.db.findMatch a b with
  | some m =>
      refine ⟨rfl, rfl, fun m' h => hfind.trans (hfind.symm.trans h), ?_, ?_, fun _ _ => ⟨m, rfl⟩⟩
      · intro m'
        dsimp only
        rw [hfind]
        simp
      · intro m' h
        cases h
        exact .inl hfind
  | none =>
      dsimp only
      split
      · have hafter := findMatch_append (m := ⟨freshId w.nextId, a, b, w.clock, none, none⟩)
          hfind rfl rfl
        refine ⟨rfl, rfl, fun m' h => ?_, ?_, ?_, fun _ _ => ⟨_, rfl⟩⟩
        · rw [hfind] at h
          cases h
        · intro m'
          simp only [World.create]
          rw [hafter]
          simp
        · intro m' h
          cases h
          exact .inr (freshId_ne_empty w.nextId)
      · next husers =>
          refine ⟨rfl, rfl, fun m' h => h, ?_, ?_, fun ha hb => ?_⟩
          · intro m'
            dsimp only
            rw [hfind]
            simp
          · intro m' h
            cases h
          · rw [ha, hb] at husers
            exact absurd rfl husers

/-- The upsert of the pair's row. -/
theorem row_upsert (hinv : RowInv sessionId pair s)
    (hopen : undecided (s.world.get (.sessionDecision sessionId)) = true) :
    (rowDiscipline sessionId pair).Keeps o i (.db (.matchUpsert pair.1 pair.2)) s := by
  have hget : (s.exec i (.db (.matchUpsert pair.1 pair.2))).world.get
      (.sessionDecision sessionId) = s.world.get (.sessionDecision sessionId) :=
    DbCmd.get_exec _ _ _
  have hspec := matchUpsert_spec s.world pair.1 pair.2
  refine ⟨trivial, ⟨?_, ?_⟩, fun j hj => ⟨hspec.found, ?_, ?_, ?_⟩⟩
  · intro session hfind
    refine hinv.canonical session ?_
    rw [← hspec.sessions]
    exact hfind
  · intro m hm
    have hok := (hspec.answer m).mpr hm
    refine ⟨?_, ⟨_, List.mem_cons_self, pair.1, pair.2, rfl, m, hok⟩, ?_⟩
    · rcases hspec.fresh m hok with hold | hid
      · exact (hinv.row m hold).1
      · exact hid
    · rw [hget]
      exact .inl hopen
  · rw [hget]
    exact id
  · rw [hget]
    exact fun _ _ h => h
  · intro e he hcall _
    rcases List.mem_cons.mp he with rfl | he
    · exact absurd hcall.symm hj
    · exact he

/-- The answer of the upsert is the row of the pair. -/
theorem row_upserted (hinv : RowInv sessionId pair s) {m : Match}
    (hok : (DbCmd.exec (.matchUpsert pair.1 pair.2) s.world).1 = .ok m) :
    m.id ≠ "" ∧ rowOf pair (s.exec i (.db (.matchUpsert pair.1 pair.2))).world = some m := by
  have hspec := matchUpsert_spec s.world pair.1 pair.2
  refine ⟨?_, (hspec.answer m).mp hok⟩
  rcases hspec.fresh m hok with hold | hid
  · exact (hinv.row m hold).1
  · exact hid

/-- Where the row exists, `v` is the mutual decision that names it. -/
def Fits (pair : UserId × UserId) (v : ResolvedChoiceResult) (s : SessionSnap) : Prop :=
  ∀ m, rowOf pair s.world = some m → v = .mutual m.id

/-- The command that overwrites a decision. -/
abbrev storeAnyway (sessionId : SessionId) (v : ResolvedChoiceResult) : RedisCmd :=
  .set (.sessionDecision sessionId) v.payload (some CHOICE_STATE_TTL_MS)

theorem get_storeAnyway (w : World) (v : ResolvedChoiceResult) :
    ((storeAnyway sessionId v).exec w).2.get (.sessionDecision sessionId) = some v.payload :=
  World.get_set_self (by decide)

theorem row_storeAnyway {v : ResolvedChoiceResult} (hfits : Fits pair v s)
    (hinv : RowInv sessionId pair s) :
    (rowDiscipline sessionId pair).Keeps o i (.redis (storeAnyway sessionId v)) s ∧
      RowRely sessionId pair i s (s.exec i (.redis (storeAnyway sessionId v))) := by
  refine row_keeps rfl (by intro a b h; cases h) ?_ ?_ hinv
  · intro _
    rw [Cmd.exec_redis, get_storeAnyway]
    rfl
  · intro m hm
    rw [Cmd.exec_redis, get_storeAnyway, hfits m hm]
    exact .inr rfl

theorem row_storeNX {v : ResolvedChoiceResult}
    (hfits : s.world.get (.sessionDecision sessionId) = none → Fits pair v s)
    (hinv : RowInv sessionId pair s) :
    (rowDiscipline sessionId pair).Keeps o i (.redis (storeNX sessionId v)) s ∧
      RowRely sessionId pair i s (s.exec i (.redis (storeNX sessionId v))) := by
  cases hget : s.world.get (.sessionDecision sessionId) with
  | some r =>
      have hsame : (storeNX sessionId v).exec s.world = (false, s.world) := storeNX_some hget
      refine row_frame ?_ (by intro a b h; cases h) ?_ hinv <;> rw [Cmd.exec_redis, hsame]
  | none =>
      refine row_keeps ?_ (by intro a b h; cases h) ?_ ?_ hinv
      · rw [Cmd.exec_redis, storeNX_none hget]
        rfl
      · intro h
        rw [hget] at h
        cases h
      · intro m hm
        rw [Cmd.exec_redis, get_storeNX hget, hfits hget m hm]
        exact .inr rfl

/-- What the condition says about a non_mutual write. -/
theorem fits_nonMutual (h : (s.world.db.findMatch pair.1 pair.2).isNone = true) :
    Fits pair .nonMutual s := by
  intro m hm
  unfold rowOf at hm
  rw [hm] at h
  cases h

end Steps

/-! ## Finalizers -/

section Finalize

variable {s : SessionSnap} {o : SessionOp} {i : Nat}

/-- Call `i` has not upserted a row. -/
def Idle (i : Nat) (s : SessionSnap) : Prop := ∀ e ∈ s.trace, e.call = i → ¬Upserts e

/-- The row exists, and the decision is the mutual one that names it. -/
def RowDecided (sessionId : SessionId) (pair : UserId × UserId) (s : SessionSnap) : Prop :=
  ∃ m, rowOf pair s.world = some m ∧
    s.world.get (.sessionDecision sessionId) = some (ResolvedChoiceResult.mutual m.id).payload

/-- What a call owes when it settles. -/
def RowPost (sessionId : SessionId) (pair : UserId × UserId) (i : Nat) (s : SessionSnap) : Prop :=
  Idle i s ∨ RowDecided sessionId pair s

theorem idle_lasting : Lasting (rowDiscipline sessionId pair) i (Idle i) := by
  intro s s' hrely hidle e he hcall hu
  exact hidle e (hrely.upserts e he hcall hu) hcall hu

theorem rowDecided_lasting :
    Lasting (rowDiscipline sessionId pair) i (RowDecided sessionId pair) := by
  rintro s s' hrely ⟨m, hm, hd⟩
  exact ⟨m, hrely.row m hm, hrely.stays m hm hd⟩

theorem rowPost_lasting : Lasting (rowDiscipline sessionId pair) i (RowPost sessionId pair i) := by
  intro s s' hrely h
  rcases h with h | h
  · exact .inl (idle_lasting s s' hrely h)
  · exact .inr (rowDecided_lasting s s' hrely h)

theorem row_overwrite_nonMutual (hidle : Idle i s) :
    (rowDiscipline sessionId pair).Valid o i (overwriteDecision sessionId .nonMutual)
      (fun _ s' => Idle i s') s := by
  refine valid_redis fun s₁ h₁ hinv₁ hadmits => ?_
  have hnone : (s₁.world.db.findMatch pair.1 pair.2).isNone = true := by
    simpa [rowDiscipline, respectsRow] using hadmits
  obtain ⟨hkeeps, hgrow⟩ := row_storeAnyway (o := o) (i := i) (fits_nonMutual hnone) hinv₁
  exact ⟨hkeeps, idle_lasting _ _ (h₁.trans hgrow) hidle⟩

/-- A non_mutual finalizer writes only where there is no row. -/
theorem row_store_nonMutual {existing : ParsedStoredDecision} (hidle : Idle i s) :
    (rowDiscipline sessionId pair).Valid o i (storeDecision sessionId existing .nonMutual)
      (fun _ s' => Idle i s') s := by
  have hnx : (rowDiscipline sessionId pair).Valid o i (storeUnlessDecided sessionId .nonMutual)
      (fun _ s' => Idle i s') s := by
    refine valid_redis fun s₁ h₁ hinv₁ hadmits => ?_
    have hfits : s₁.world.get (.sessionDecision sessionId) = none → Fits pair .nonMutual s₁ := by
      intro hget
      refine fits_nonMutual ?_
      simpa [rowDiscipline, respectsRow, hget] using hadmits
    obtain ⟨hkeeps, hgrow⟩ := row_storeNX (o := o) (i := i) hfits hinv₁
    have hidle₁ := idle_lasting _ _ (h₁.trans hgrow) hidle
    refine ⟨hkeeps, ?_⟩
    show (rowDiscipline sessionId pair).Valid o i (ite _ _ _) _ _
    split
    · exact hidle₁
    · refine valid_readStoredDecision row_plainOK fun s₂ _ _ hgrow₂ => ?_
      have hidle₂ := idle_lasting _ _ hgrow₂ hidle₁
      cases parseStoredDecision (s₂.world.get (.sessionDecision sessionId)) with
      | resolved v => exact hidle₂
      | pending d => exact row_overwrite_nonMutual hidle₂
      | none => exact hidle₂
      | invalid => exact hidle₂
  cases existing with
  | pending d => exact row_overwrite_nonMutual hidle
  | none => exact hnx
  | invalid => exact hnx
  | resolved v => exact hnx

/-- A mutual finalizer ends with the row and the decision agreeing. -/
def StoresRow (sessionId : SessionId) (pair : UserId × UserId) :
    Except Err (Option ResolvedChoiceResult) → SessionSnap → Prop
  | .ok _, s => RowDecided sessionId pair s
  | .error _, _ => False

theorem row_overwrite_mutual {m : Match} (hm : rowOf pair s.world = some m) :
    (rowDiscipline sessionId pair).Valid o i (overwriteDecision sessionId (.mutual m.id))
      (StoresRow sessionId pair) s := by
  refine valid_redis fun s₁ h₁ hinv₁ _ => ?_
  have hm₁ := h₁.row m hm
  have hfits : Fits pair (.mutual m.id) s₁ := by
    intro m' hm'
    rw [hm₁] at hm'
    cases hm'
    rfl
  obtain ⟨hkeeps, hgrow⟩ := row_storeAnyway (o := o) (i := i) hfits hinv₁
  exact ⟨hkeeps, m, hgrow.row m hm₁, get_storeAnyway _ _⟩

theorem row_store_mutual {existing : ParsedStoredDecision} {m : Match}
    (hm : rowOf pair s.world = some m) :
    (rowDiscipline sessionId pair).Valid o i (storeDecision sessionId existing (.mutual m.id))
      (StoresRow sessionId pair) s := by
  have hnx : (rowDiscipline sessionId pair).Valid o i
      (storeUnlessDecided sessionId (.mutual m.id)) (StoresRow sessionId pair) s := by
    refine valid_redis fun s₁ h₁ hinv₁ _ => ?_
    have hm₁ := h₁.row m hm
    have hfits : Fits pair (.mutual m.id) s₁ := by
      intro m' hm'
      rw [hm₁] at hm'
      cases hm'
      rfl
    obtain ⟨hkeeps, hgrow⟩ := row_storeNX (o := o) (i := i) (fun _ => hfits) hinv₁
    refine ⟨hkeeps, ?_⟩
    cases hget : s₁.world.get (.sessionDecision sessionId) with
    | none =>
        show (rowDiscipline sessionId pair).Valid o i (ite _ _ _) _ _
        rw [storeNX_none hget]
        exact ⟨m, hgrow.row m hm₁, get_storeNX hget⟩
    | some r =>
        -- the key is taken: by a pending decision, or by the one that names the row
        show (rowDiscipline sessionId pair).Valid o i (ite _ _ _) _ _
        rw [storeNX_some hget]
        have hpresent := hgrow.present (by rw [hget]; rfl)
        refine valid_readStoredDecision row_plainOK fun s₂ h₂ hinv₂ hgrow₂ => ?_
        have hm₂ := h₂.row m (hgrow.row m hm₁)
        have hm₂' := hgrow₂.row m (hgrow.row m hm₁)
        rcases (hinv₂.row m hm₂).2.2 with hopen | hdecided
        · obtain ⟨r₂, hr₂⟩ := Option.isSome_iff_exists.mp (h₂.present hpresent)
          rw [hr₂] at hopen ⊢
          cases hparse : parseStoredDecision (some r₂) with
          | pending d => exact row_overwrite_mutual hm₂'
          | _ => simp [undecided, hparse] at hopen
        · rw [hdecided, parseStoredDecision_payload]
          exact ⟨m, hm₂', hdecided⟩
  cases existing with
  | pending d => exact row_overwrite_mutual hm
  | none => exact hnx
  | invalid => exact hnx
  | resolved v => exact hnx

/-- Emitting changes nothing here. -/
theorem row_emit (os : List Output) (hinv : RowInv sessionId pair s) :
    (rowDiscipline sessionId pair).Keeps o i (.host (.emit os)) s ∧
      RowRely sessionId pair i s (s.exec i (.host (.emit os))) :=
  row_frame rfl (by intro a b h; cases h) rfl hinv

/-- The end of a finalizer that has written its decision. -/
theorem row_valid_announce {self : Instance} {session : Session} {choiceA choiceB : SessionChoice}
    {payload : ResolvedChoiceResult} (h : RowPost sessionId pair i s) :
    (rowDiscipline sessionId pair).Valid o i
      ((announceDecision self session choiceA choiceB payload).bind fun _ =>
        pure (.resolved payload none))
      (fun (_ : Except Err ChoiceResult) s' => RowPost sessionId pair i s') s := by
  refine Discipline.valid_bind (valid_announceDecision row_plainOK ?_ ?_)
  · exact fun os s' _ hinv => row_emit os hinv
  · exact fun s' hgrow => rowPost_lasting s s' hgrow h

/-- **A finalizer leaves no row behind**, unless with the decision that
names it. -/
theorem row_valid_finalize {self : Instance} {session : Session}
    {choiceA choiceB : SessionChoice} (hid : session.id = sessionId)
    (hpair : choiceA = .MATCH → canonicalPair session.userAId session.userBId = pair)
    (hidle : Idle i s) :
    (rowDiscipline sessionId pair).Valid o i (finalizeDecision self session choiceA choiceB)
      (fun _ s' => RowPost sessionId pair i s') s := by
  subst hid
  refine valid_readStoredDecision row_plainOK fun s₁ _ _ hgrow₁ => ?_
  have hidle₁ := idle_lasting _ _ hgrow₁ hidle
  generalize parseStoredDecision (s₁.world.get (.sessionDecision session.id)) = existing
  generalize s₁.exec i (.redis (.get (.sessionDecision session.id))) = s₁' at hidle₁
  -- the part after the read of the decision
  have hrest : (rowDiscipline session.id pair).Valid o i
      (settleDecision self session choiceA choiceB existing)
      (fun _ s' => RowPost session.id pair i s') s₁' := by
    refine Discipline.valid_bind ?_
    unfold decisionOf
    split
    · next hboth =>
        rw [hpair hboth.1]
        refine valid_prisma fun s₂ h₂ hinv₂ hadmits => ⟨row_upsert hinv₂ hadmits, ?_⟩
        cases hres : (DbCmd.exec (.matchUpsert pair.1 pair.2) s₂.world).1 with
        | error e =>
            refine .inl fun x hx hcall hu => ?_
            rcases List.mem_cons.mp hx with rfl | hx
            · obtain ⟨a, b, hcmd, m, hok⟩ := hu
              cases hcmd
              rw [hres] at hok
              cases hok
            · exact idle_lasting _ _ h₂ hidle₁ x hx hcall hu
        | ok m =>
            obtain ⟨hne, hm⟩ := row_upserted (i := i) hinv₂ hres
            show (rowDiscipline session.id pair).Valid o i (ite _ _ _) _ _
            rw [if_neg hne]
            refine Discipline.valid_bind ((row_store_mutual hm).weaken ?_)
            rintro (e | _ | v) s₃ hd
            · exact hd.elim
            · exact row_valid_announce (.inr hd)
            · exact .inr hd
    · refine Discipline.valid_bind ((row_store_nonMutual hidle₁).weaken ?_)
      rintro (e | _ | v) s₃ hidle₃
      · exact .inl hidle₃
      · exact row_valid_announce (.inl hidle₃)
      · exact .inl hidle₃
  cases existing with
  | resolved v => exact .inl hidle₁
  | pending d => exact hrest
  | none => exact hrest
  | invalid => exact hrest

/-- The finalizer of timers and of the recovery. -/
theorem row_valid_timeout {self : Instance} (userAId userBId : UserId) (hidle : Idle i s) :
    (rowDiscipline sessionId pair).Valid o i
      (finalizeDecision self (buildSyntheticSession sessionId userAId userBId) .PASS .PASS)
      (fun _ s' => RowPost sessionId pair i s') s :=
  row_valid_finalize rfl (fun h => by cases h) hidle

theorem row_keeps_hset {user : UserId} {choice : SessionChoice}
    (hinv : RowInv sessionId pair s) :
    (rowDiscipline sessionId pair).Keeps o i (.redis (.hset sessionId user choice)) s ∧
      RowRely sessionId pair i s (s.exec i (.redis (.hset sessionId user choice))) :=
  row_frame rfl (by intro a b h; cases h) rfl hinv

/-- What a submitter knows of its session. -/
def KnowsPair (pair : UserId × UserId) (i : Nat) (session : Session) (s : SessionSnap) : Prop :=
  canonicalPair session.userAId session.userBId = pair ∧ Idle i s

theorem knowsPair_lasting (session : Session) :
    Lasting (rowDiscipline sessionId pair) i (KnowsPair pair i session) :=
  fun s s' hrely h => ⟨h.1, idle_lasting s s' hrely h.2⟩

theorem row_submitScript (self : Instance) (userId : UserId) (choice : SessionChoice) :
    SubmitScript (rowDiscipline sessionId pair) o i self sessionId userId choice
      (KnowsPair pair i) (KnowsPair pair i) (fun _ s => RowPost sessionId pair i s) where
  before_lasting := knowsPair_lasting
  wrote_lasting := knowsPair_lasting
  lasting := fun _ => rowPost_lasting
  reveal := fun _ _ _ _ h => h
  failed := fun _ _ _ h => .inl h.2
  postponed := fun _ _ _ h => .inl h.2
  stored := fun _ _ _ h _ _ => .inl h.2
  write := by
    intro session s h hinv _ _
    obtain ⟨hkeeps, hgrow⟩ := row_keeps_hset (o := o) (i := i) hinv
    exact ⟨hkeeps, knowsPair_lasting session _ _ hgrow h⟩
  found := fun _ _ h _ _ => h
  undated := fun _ _ _ h _ => .inl h.2
  finalize := by
    intro session choiceA choiceB s hid h hinv _ _
    exact row_valid_finalize hid (fun _ => h.1)
      (idle_lasting _ _ (row_plainOK.rely i _ s (.hmget _ _ _) hinv) h.2)
  undecided := by
    intro session d s h hinv _
    exact .inl (idle_lasting _ _ (row_plainOK.rely i _ s (.hmget _ _ _) hinv) h.2)

end Finalize

/-! ## The main result -/

def rowPost (sessionId : SessionId) (pair : UserId × UserId) :
    (o : SessionOp) → Nat → Except Err o.Ret → SessionSnap → Prop :=
  fun _ i _ s => RowPost sessionId pair i s

theorem row_governs :
    (rowDiscipline sessionId pair).Governs (RowRun sessionId pair) (rowPost sessionId pair) where
  start := by
    intro c o hok _ hown
    have hidle : Idle c.calls.length c.toSnap := by
      intro e he hcall
      have hmem : e ∈ c.toSnap.own c.calls.length := by simpa [Snap.own] using ⟨he, hcall⟩
      rw [hown] at hmem
      cases hmem
    cases o with
    | submitChoice self id userId choice =>
        cases hok.1
        refine valid_submitChoice row_plainOK (row_submitScript self userId choice) ?_ ?_
        · intro s' session hgrow hinv hfind
          exact ⟨hinv.canonical session hfind, idle_lasting _ _
            (hgrow.trans (row_plainOK.rely _ _ s' (.findSession _) hinv)) hidle⟩
        · exact fun e s' hgrow => .inl (idle_lasting _ _ hgrow hidle)
    | choiceTimeout self id userAId userBId =>
        cases hok.1
        exact row_valid_timeout userAId userBId hidle
    | recoverChoice self id =>
        cases hok.1
        refine valid_recoverChoice row_plainOK idle_lasting hidle (fun _ _ h => .inl h) ?_
        intro a b s' hidle'
        exact (row_valid_timeout a b hidle').weaken fun _ _ h _ => h
  step := fun c i _ _ _ hok hc _ => hok.2 _ (Config.pending_of_call hc)
  env := by
    intro c e hok hinv
    cases e with
    | tick ms =>
        have hget : World.get (World.env (.tick ms) c.world) (.sessionDecision sessionId) =
            World.get c.world (.sessionDecision sessionId) := World.get_tick hok.1 _
        refine ⟨⟨hinv.canonical, fun m hm => ?_⟩,
          fun i => ⟨fun _ h => h, ?_, fun m _ hd => ?_, fun _ h _ _ => h⟩⟩
        · show _ ∧ _ ∧ (undecided (World.get (World.env (.tick ms) c.world) _) = true ∨
            World.get (World.env (.tick ms) c.world) _ = _)
          rw [hget]
          exact hinv.row m hm
        · show _ → (World.get (World.env (.tick ms) c.world) _).isSome = true
          rw [hget]
          exact id
        · show World.get (World.env (.tick ms) c.world) _ = _
          rw [hget]
          exact hd

theorem row_stable : (rowDiscipline sessionId pair).Stable (rowPost sessionId pair) :=
  fun _ _ _ s s' hrely h => rowPost_lasting s s' hrely h

/-- **A Match row means a mutual decision**, in every run of a session
whose steps respect the row: whenever no call is in flight, a row of the
pair is the one the stored decision names. -/
theorem matchRow_mutual (sessionId : SessionId) (session : Session) (w : World)
    (hsession : w.db.sessions.find? (·.id = sessionId) = some session)
    (hrow : rowOf (canonicalPair session.userAId session.userBId) w = none)
    (es : List (Event sessionService.system))
    (hes : (Config.initial w : Config sessionService.system).Obeys
      (RowRun sessionId (canonicalPair session.userAId session.userBId)) es)
    (hquiet : ((Config.initial w : Config sessionService.system).run es).Quiet) (m : Match)
    (hm : rowOf (canonicalPair session.userAId session.userBId)
      ((Config.initial w : Config sessionService.system).run es).world = some m) :
    World.get ((Config.initial w : Config sessionService.system).run es).world
      (.sessionDecision sessionId) = some (ResolvedChoiceResult.mutual m.id).payload := by
  have hinv : RowInv sessionId (canonicalPair session.userAId session.userBId) ⟨w, []⟩ := by
    refine ⟨fun session' hfind => ?_, fun m hm => ?_⟩
    · rw [hsession] at hfind
      cases hfind
      rfl
    · rw [hrow] at hm
      cases hm
  obtain ⟨hs, hdone⟩ := row_governs.sound_run row_stable hinv hes
  obtain ⟨-, ⟨e, he, hu⟩, -⟩ := hs.inv.row m hm
  -- the call that upserted the row has settled
  obtain ⟨o, r, hsettled⟩ := hquiet.settled (hs.indexed e he)
  rcases hdone _ o r hsettled with hidle | ⟨m', hm', hd⟩
  · exact absurd hu (hidle e he rfl)
  · rw [hm] at hm'
    cases hm'
    exact hd

/-- The second call goes on in time. -/
def bothInTime : List (Event sessionService.system) := bothMatch ++ List.replicate 8 (.step 1)

theorem matchRow_mutual_bothInTime :
    World.get ((Config.initial endedSession : Config sessionService.system).run bothInTime).world
      (.sessionDecision "s") = some (ResolvedChoiceResult.mutual (freshId 0)).payload := by
  have hrow : rowOf (canonicalPair "ann" "bob")
      ((Config.initial endedSession : Config sessionService.system).run bothInTime).world =
        some ⟨freshId 0, "ann", "bob", 0, none, none⟩ := by decide
  exact matchRow_mutual "s" ⟨"s", "ann", "bob", none, none, 0⟩ endedSession (by decide) (by decide)
    bothInTime (by decide) (by decide) _ hrow

/-- The timer that fires between the `upsert` and the `SET NX` of the
second call stores non_mutual, and the row stays. -/
theorem matchRow_of_nonMutual : ¬∀ es : List (Event sessionService.system),
    (Config.initial endedSession).Obeys (OfSession "s") es →
    ((Config.initial endedSession).run es).Quiet →
    ∀ m, rowOf ("ann", "bob") ((Config.initial endedSession).run es).world = some m →
      World.get ((Config.initial endedSession).run es).world (.sessionDecision "s") =
        some (ResolvedChoiceResult.mutual m.id).payload := by
  intro h
  have hrun := h (bothMatch ++ timeoutFirst) (by decide) (by decide)
    ⟨freshId 0, "ann", "bob", 0, none, none⟩ (by decide)
  exact absurd hrun (by decide)

end VerityBackend.Sessions
