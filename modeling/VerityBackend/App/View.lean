/-
VerityBackend.App.View — what one user receives, in two runs that differ in
the profile of another.

A `View` fixes the two users, and which session ids are those of sessions
between the two. Commands
of the two runs are twins if they are the same, apart from what is emitted
to others (`TwinCmd`); answers are twins if they are the same up to the
profile, and agree with the tables (`Known`).

That two users have no Match row is used through the answers: no row that
is read is between them, and no decision that is read is `mutual` for one
of their sessions.
-/
import VerityBackend.App.Guards
import VerityBackend.Async.Relational
import VerityBackend.Backend.Profiles
import VerityBackend.Session.MatchRow

namespace VerityBackend

open Async Store

/-! ## What a user receives -/

/-- The output goes to this user. -/
def Output.reaches (u : UserId) : Output → Bool
  | .queueMatch room _ _ _ _ => room = u
  | .queueStatus room _ => room = u
  | .sessionStart room _ _ _ _ _ _ _ => room = u
  | .sessionEnd room _ _ _ => room = u
  | .matchMutual room _ _ _ => room = u
  | .matchNonMutual room _ => room = u
  | .messageNew room _ => room = u
  | .moderationAction room _ _ => room = u
  | .push users _ _ => u ∈ users
  | .track _ _ _ => false
  | .sessionCreated _ => false

/-- What a command sends to this user. -/
def Cmd.sentTo (u : UserId) : Cmd → List Output
  | .host (.emit os) => os.filter (·.reaches u)
  | _ => []

/-- The participants are these two users, in either order. -/
def Session.isBetween (s : Session) (x y : UserId) : Prop :=
  (s.userAId = x ∧ s.userBId = y) ∨ (s.userAId = y ∧ s.userBId = x)

namespace App

variable {cfg : AppConfig}

/-- The user who makes the call. -/
def AppOp.caller : AppOp → Option UserId
  | .queue (.joinQueue userId _) => some userId
  | .queue (.leaveQueue userId) => some userId
  | .submitChoice _ _ userId _ => some userId
  | .createReport reporterId _ => some reporterId
  | .createBlock blockerId _ => some blockerId
  | .unblock blockerId _ => some blockerId
  | .read userId _ => some userId
  | .sendMessage _ userId _ => some userId
  | .auth (.signup userId _ _ _) => some userId
  | .auth (.refreshSession refreshToken _ _) => some refreshToken.sub
  | .auth (.logoutAll userId) => some userId
  | _ => none

/-- What has been sent to the user, the oldest first. -/
def sentTo (u : UserId) (c : Config (appService cfg).system) : List Output :=
  (c.trace.reverse.map fun e => Cmd.sentTo u e.cmd).flatten

/-- What a call has returned, if the user has made it and it has returned. -/
def answerTo (u : UserId) (t : Task (appService cfg).system) :
    Option ((o : AppOp) × Except Err o.Ret) :=
  match t with
  | ⟨o, .ret r⟩ => if o.caller = some u then some ⟨o, r⟩ else none
  | ⟨_, .call _ _⟩ => none

/-- Everything the user has received: events and pushes, and the results of
the calls the user has made. -/
def received (u : UserId) (c : Config (appService cfg).system) :
    List Output × List (Option ((o : AppOp) × Except Err o.Ret)) :=
  (sentTo u c, c.calls.map (answerTo u))

/-- No Match row is between the two. -/
def Unmatched (u p : UserId) (w : World) : Prop := ∀ m ∈ w.db.matchRows, ¬m.isBetween u p

instance (u p : UserId) (w : World) : Decidable (Unmatched u p w) :=
  inferInstanceAs (Decidable (∀ m ∈ w.db.matchRows, ¬m.isBetween u p))

/-! ## Twin commands and answers -/

/-- The observer, the user whose profile is hidden, and the ids of the
sessions between the two. -/
structure View where
  u : UserId
  p : UserId
  ours : SessionId → Prop

/-- The session whose mutual decision a command stores. -/
def storesMutual : Cmd → Option SessionId
  | .redis (.set (.sessionDecision id) v _) =>
      match Sessions.parseStoredDecision (some v) with
      | .resolved (.mutual _) => some id
      | _ => none
  | .redis (.setNX (.sessionDecision id) v _) =>
      match Sessions.parseStoredDecision (some v) with
      | .resolved (.mutual _) => some id
      | _ => none
  | _ => none

namespace View

variable (V : View)

/-- The same command, or the same to the observer. A mutual decision is not
stored for a session of the two. -/
inductive TwinCmd : Cmd → Cmd → Prop
  | same {c : Cmd} (h : ∀ id ∈ storesMutual c, ¬V.ours id) : TwinCmd c c
  | emit {os os' : List Output} (h : os.filter (·.reaches V.u) = os'.filter (·.reaches V.u)) :
      TwinCmd (.host (.emit os)) (.host (.emit os'))

/-- What an answer says of the tables. -/
def Known : (c : Cmd) → Except Err c.Res → Prop
  | .db (.sessionFindUnique id), .ok (some s) => s.id = id ∧ (V.ours id ↔ s.isBetween V.u V.p)
  | .db (.matchUpsert a b), .ok _ => ¬((a = V.u ∧ b = V.p) ∨ (a = V.p ∧ b = V.u))
  | .db (.matchFindUnique _), .ok (some m) => ¬m.isBetween V.u V.p
  | .db (.matchFindWithUsers _), .ok (some x) => ¬x.1.isBetween V.u V.p
  | .db (.matchFindMany userId), .ok rows =>
      ∀ m ∈ rows, (m.userAId = userId ∨ m.userBId = userId) ∧ ¬m.isBetween V.u V.p
  | .redis (.get (.sessionDecision id)), .ok r =>
      ∀ matchId, Sessions.parseStoredDecision r = .resolved (.mutual matchId) → ¬V.ours id
  | _, _ => True

/-- The same answer, up to the profile. -/
def TwinRes (c c' : Cmd) (r : Except Err c.Res) (r' : Except Err c'.Res) : Prop :=
  (∃ h : c' = c, (∃ profile, h ▸ r' = r.map (c.dressRes V.p profile)) ∧ V.Known c r) ∨
    ∃ os os', c = .host (.emit os) ∧ c' = .host (.emit os') ∧ r ≍ r'

theorem TwinRes.inv {V : View} {c : Cmd} {r r' : Except Err c.Res} (h : V.TwinRes c c r r') :
    (∃ profile, r' = r.map (c.dressRes V.p profile)) ∧ V.Known c r := by
  rcases h with ⟨hc, h⟩ | ⟨os, os', rfl, -, h⟩
  · exact h
  · obtain rfl := eq_of_heq h
    refine ⟨⟨⟨none, none, none, none⟩, ?_⟩, trivial⟩
    cases r <;> rfl

/-- What is issued in the second run in the place of `p`. -/
abbrev Masked {α α' : Type} (R : α → α' → Prop) (p : Prog α) (p' : Prog α') : Prop :=
  p.Alike V.TwinCmd V.TwinRes R p'

variable {V : View}

theorem dressRes_eq {p : UserId} {profile : Profile} {c : Cmd} (h : c.readsProfile = false)
    (r : c.Res) : c.dressRes p profile r = r := by
  cases c with
  | redis c => rfl
  | host c => rfl
  | db c =>
      cases c with
      | userFindUnique id => cases h
      | userFindMany ids => cases h
      | matchFindWithUsers id => cases h
      | _ => rfl

/-- What the two runs read. -/
theorem masked_await {c : Cmd} (h : ∀ id ∈ storesMutual c, ¬V.ours id) :
    V.Masked (fun a a' => (∃ profile, a' = c.dressRes V.p profile a) ∧ V.Known c (.ok a))
      (Proc.await c) (Proc.await c) := by
  refine Proc.alike_await (.same h) fun r r' hr => ?_
  obtain ⟨⟨profile, rfl⟩, hknown⟩ := hr.inv
  cases r with
  | ok a => exact .ok ⟨⟨profile, rfl⟩, hknown⟩
  | error e => exact .error e

/-- Neither a profile nor a mutual decision. -/
def plain (c : Cmd) : Bool := (storesMutual c).isNone && !c.readsProfile

theorem masked_plain {c : Cmd} (h : plain c = true) :
    V.Masked (fun a a' => a' = a ∧ V.Known c (.ok a)) (Proc.await c) (Proc.await c) := by
  obtain ⟨hstore, hread⟩ := Bool.and_eq_true_iff.mp h
  have hnone : storesMutual c = none := Option.isNone_iff_eq_none.mp hstore
  refine (masked_await fun id hid => ?_).mono fun a a' ha => ⟨?_, ha.2⟩
  · rw [hnone] at hid
    cases hid
  · obtain ⟨profile, rfl⟩ := ha.1
    exact dressRes_eq (by simpa using hread) a

theorem masked_emit {os os' : List Output}
    (h : os.filter (·.reaches V.u) = os'.filter (·.reaches V.u)) :
    V.Masked (fun _ _ => True) (host (.emit os)) (host (.emit os')) := by
  refine Proc.alike_await (.emit h) fun r r' hr => ?_
  have hrr : r = r' := by
    rcases hr with ⟨hc, ⟨profile, h⟩, -⟩ | ⟨_, _, _, _, h⟩
    · cases hc
      cases r <;> exact h.symm
    · exact eq_of_heq h
  obtain rfl := hrr
  exact .refl (fun _ => trivial) r

/-- All commands of the procedure are plain. -/
abbrev Plain {α : Type} (p : Prog α) : Prop := p.Conforms (fun c => plain c = true) True

/-- Such a procedure does not notice the profile. -/
theorem Plain.masked {α : Type} {p : Prog α} (h : Plain p) : V.Masked Eq p p := by
  refine Proc.Conforms.alike h (fun c hc => .same fun id hid => ?_) fun c r r' hc hr => ?_
  · have hnone := Option.isNone_iff_eq_none.mp (Bool.and_eq_true_iff.mp hc).1
    rw [hnone] at hid
    cases hid
  · obtain ⟨⟨profile, rfl⟩, -⟩ := hr.inv
    have hread : c.readsProfile = false := by simpa using (Bool.and_eq_true_iff.mp hc).2
    cases r with
    | ok a => exact congrArg Except.ok (dressRes_eq hread a).symm
    | error e => rfl

theorem plain_of_aside {c : Cmd} (h : c.aside = true) : plain c = true := by
  have hnone : storesMutual c = none := by
    have hsparing := Cmd.sparing_of_aside h
    unfold storesMutual
    split
    · cases hsparing
    · cases hsparing
    · rfl
  unfold plain
  rw [hnone, Cmd.not_readsProfile_of_aside h]
  rfl

theorem plain_of_asides {α : Type} {p : Prog α} (h : Aside p) : Plain p :=
  h.mono fun _ => plain_of_aside

/-! ## The tables -/

/-- The state of the tables in which the profile is hidden. -/
structure Hidden (V : View) (w : World) : Prop where
  rows : ∀ s ∈ w.db.sessions, V.ours s.id ↔ s.isBetween V.u V.p
  decided : ∀ id e matchId, w.stored (.sessionDecision id) = some e →
    Sessions.parseStoredDecision (some e.val) = .resolved (.mutual matchId) → ¬V.ours id
  unmatched : Unmatched V.u V.p w

/-- The answers agree with the tables. -/
theorem Hidden.known {w : World} (h : Hidden V w) (c : Cmd)
    (hnext : Unmatched V.u V.p (c.exec w).2) : V.Known c (c.exec w).1 := by
  cases c with
  | host c => trivial
  | redis c =>
      cases c with
      | get k =>
          cases k with
          | sessionDecision id =>
              intro matchId hparse
              cases hget : w.get (.sessionDecision id) with
              | none =>
                  have hraw : Sessions.parseStoredDecision (w.get (.sessionDecision id)) =
                      .resolved (.mutual matchId) := hparse
                  rw [hget] at hraw
                  cases hraw
              | some r =>
                  obtain ⟨e, he, rfl⟩ := World.stored_of_get hget
                  have hraw : Sessions.parseStoredDecision (w.get (.sessionDecision id)) =
                      .resolved (.mutual matchId) := hparse
                  rw [hget] at hraw
                  exact h.decided id e matchId he hraw
          | _ => trivial
      | _ => trivial
  | db c =>
      cases c with
      | sessionFindUnique id =>
          cases hfind : w.db.sessions.find? (·.id = id) with
          | none => simp [DbCmd.exec, hfind, Known]
          | some s =>
              have hid : s.id = id := by simpa using List.find?_some hfind
              simp only [Cmd.exec_db, DbCmd.exec, hfind]
              exact ⟨hid, hid ▸ h.rows s (List.mem_of_find?_eq_some hfind)⟩
      | matchUpsert a b =>
          have hspec := Sessions.matchUpsert_spec w a b
          cases hr : ((Cmd.db (.matchUpsert a b)).exec w).1 with
          | error e => trivial
          | ok m =>
              have hrow := (hspec.answer m).mp hr
              obtain ⟨hA, hB⟩ : m.userAId = a ∧ m.userBId = b := by
                simpa using List.find?_some hrow
              have hno := hnext m (List.mem_of_find?_eq_some hrow)
              unfold Match.isBetween at hno
              rwa [hA, hB] at hno
      | matchFindUnique id =>
          cases hfind : w.db.matchRows.find? (·.id = id) with
          | none => simp [DbCmd.exec, hfind, Known]
          | some m =>
              simp only [Cmd.exec_db, DbCmd.exec, hfind]
              exact h.unmatched m (List.mem_of_find?_eq_some hfind)
      | matchFindWithUsers id =>
          simp only [Cmd.exec_db, DbCmd.exec]
          cases hfind : w.db.matchRows.find? (·.id = id) with
          | none => trivial
          | some m =>
              have hno := h.unmatched m (List.mem_of_find?_eq_some hfind)
              dsimp only
              cases w.db.users m.userAId with
              | none => trivial
              | some userA =>
                  cases w.db.users m.userBId with
                  | none => trivial
                  | some userB => exact hno
      | matchFindMany userId =>
          intro m hm
          have hmem := (List.perm_insertionSort _ _).mem_iff.mp hm
          obtain ⟨hrow, hmine⟩ := List.mem_filter.mp hmem
          exact ⟨by simpa using hmine, h.unmatched m hrow⟩
      | _ => trivial

/-- **Step lemma**: the profile stays hidden. -/
theorem Hidden.exec {w : World} (h : Hidden V w) {c : Cmd}
    (hc : ∀ id ∈ storesMutual c, ¬V.ours id)
    (hrows : ∀ s ∈ (c.exec w).2.db.sessions, V.ours s.id ↔ s.isBetween V.u V.p)
    (hnext : Unmatched V.u V.p (c.exec w).2) : Hidden V (c.exec w).2 := by
  refine ⟨hrows, fun id e matchId he hparse => ?_, hnext⟩
  rcases c.stored_decision_exec w id with hsame | hnone | ⟨v, t, hv, hstore⟩
  · exact h.decided id e matchId (hsame ▸ he) hparse
  · rw [hnone] at he
    cases he
  · obtain rfl := Option.some.inj (hv.symm.trans he)
    refine hc id ?_
    rcases hstore with ⟨ttl, rfl⟩ | ⟨ttl, rfl⟩
    · simp only [storesMutual, hparse, Option.mem_def]
    · simp only [storesMutual, hparse, Option.mem_def]

end View

end App

end VerityBackend
