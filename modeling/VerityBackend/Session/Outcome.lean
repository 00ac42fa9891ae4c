/-
VerityBackend.Session.Outcome — when the decision is that of the recorded
choices.

The outcome should be mutual exactly if the first choices both participants
wrote were MATCH, before the deadline. Timers and the recovery finalize
PASS/PASS without looking at the choices, a choice is accepted at any time
and may be written twice, and the hash expires by itself, so
`outcome_of_choices` needs `Timely`: a choice is not written over another
one, a MATCH is written in time exactly if nothing is decided yet, no
non_mutual decision is stored over two recorded MATCH, and neither the
choices nor the deadline expire while nothing is decided.

While nothing is decided the hash IS the record of first choices
(`OutcomeInv.recorded`); once a decision is stored the record it was made
of cannot change its verdict (`agrees`).
-/
import VerityBackend.Session.MatchRow

namespace VerityBackend.Sessions

open Async

variable {sessionId : SessionId}

/-! ## The record of choices -/

/-- The deadline stored for the session lies ahead. -/
def inTime (sessionId : SessionId) (w : World) : Bool :=
  match (w.get (.sessionChoiceDeadline sessionId)).bind RedisString.parseDate with
  | some deadline => w.clock < deadline
  | none => false

/-- The choice an entry of the trace writes for a user. -/
def writes (sessionId : SessionId) (user : UserId) (e : Entry sessionService.system) :
    Option SessionChoice :=
  match e.cmd with
  | .redis (.hset id user' choice) => if id = sessionId ∧ user' = user then some choice else none
  | _ => none

/-- The first choice of a user in a trace, newest entry first, and whether
it was written in time. -/
def firstChoice (sessionId : SessionId) (user : UserId) :
    List (Entry sessionService.system) → Option (SessionChoice × Bool)
  | [] => none
  | e :: older =>
      (firstChoice sessionId user older).or
        ((writes sessionId user e).map fun choice => (choice, inTime sessionId e.before))

/-- Both participants chose MATCH first, and in time. -/
def BothMatched (session : Session) (trace : List (Entry sessionService.system)) : Prop :=
  firstChoice session.id session.userAId trace = some (.MATCH, true) ∧
    firstChoice session.id session.userBId trace = some (.MATCH, true)

instance (session : Session) (trace : List (Entry sessionService.system)) :
    Decidable (BothMatched session trace) := by
  unfold BothMatched
  infer_instance

theorem firstChoice_cons_of_some {user : UserId} {e : Entry sessionService.system}
    {older : List (Entry sessionService.system)} {x : SessionChoice × Bool}
    (h : firstChoice sessionId user older = some x) :
    firstChoice sessionId user (e :: older) = some x := by
  rw [firstChoice, h]
  rfl

theorem firstChoice_cons_of_none {user : UserId} {e : Entry sessionService.system}
    {older : List (Entry sessionService.system)} (h : writes sessionId user e = none) :
    firstChoice sessionId user (e :: older) = firstChoice sessionId user older := by
  rw [firstChoice, h]
  simp

/-- What was first stays first. -/
theorem firstChoice_suffix {user : UserId} {t t' : List (Entry sessionService.system)}
    (h : t <:+ t') {x : SessionChoice × Bool} (hx : firstChoice sessionId user t = some x) :
    firstChoice sessionId user t' = some x := by
  obtain ⟨new, rfl⟩ := h
  induction new with
  | nil => exact hx
  | cons e new ih => exact firstChoice_cons_of_some ih

theorem bothMatched_suffix {session : Session} {t t' : List (Entry sessionService.system)}
    (h : t <:+ t') (hb : BothMatched session t) : BothMatched session t' :=
  ⟨firstChoice_suffix h hb.1, firstChoice_suffix h hb.2⟩

/-- Who has written has a first choice. -/
theorem firstChoice_isSome {user : UserId} {choice : SessionChoice}
    {t : List (Entry sessionService.system)} {e : Entry sessionService.system} (he : e ∈ t)
    (hw : writes sessionId user e = some choice) : (firstChoice sessionId user t).isSome := by
  induction t with
  | nil => cases he
  | cons x older ih =>
      rw [firstChoice, Option.isSome_or]
      rcases List.mem_cons.mp he with rfl | he
      · rw [hw]
        simp
      · rw [ih he]
        rfl

/-- A first choice was written by some entry. -/
theorem exists_writes {user : UserId} {x : SessionChoice × Bool}
    {t : List (Entry sessionService.system)} (h : firstChoice sessionId user t = some x) :
    ∃ e ∈ t, writes sessionId user e = some x.1 := by
  induction t with
  | nil => cases h
  | cons e older ih =>
      cases hold : firstChoice sessionId user older with
      | some y =>
          rw [firstChoice, hold] at h
          cases h
          obtain ⟨e', he', hw⟩ := ih hold
          exact ⟨e', List.mem_cons_of_mem _ he', hw⟩
      | none =>
          rw [firstChoice, hold, Option.none_or, Option.map_eq_some_iff] at h
          obtain ⟨choice, hw, rfl⟩ := h
          exact ⟨e, List.mem_cons_self, hw⟩

/-! ## The condition -/

/-- The participants' choices in the hash are MATCH and MATCH. -/
def holdsMatches (session : Session) (w : World) : Bool :=
  w.choice session.id session.userAId = some .MATCH ∧
    w.choice session.id session.userBId = some .MATCH

/-- What may be stored and written, command by command. -/
def timely (session : Session) (w : World) : Cmd → Bool
  | .redis (.hset id user choice) =>
      id ≠ session.id ||
        ((w.get (.sessionDecision session.id)).isSome || (w.choice session.id user).isNone) &&
          (choice ≠ .MATCH ||
            (w.get (.sessionDecision session.id)).isNone == inTime session.id w)
  | .redis (.setNX k v _) =>
      !(k = .sessionDecision session.id ∧ v = ResolvedChoiceResult.nonMutual.payload) ||
        (w.get k).isSome || !holdsMatches session w
  | _ => true

/-- The event keeps to the windows: choices are written in time and once,
nothing is finalized over two recorded MATCH, and what the finalizers go by
does not expire while nothing is decided. -/
def Timely (session : Session) (c : Config sessionService.system) :
    Event sessionService.system → Prop
  | .start _ => True
  | .step i => ∀ cmd ∈ c.pending i, timely session c.world cmd = true
  | .env e =>
      World.get c.world (.sessionDecision session.id) = none →
        World.choices (World.env e c.world) session.id = World.choices c.world session.id ∧
          World.get (World.env e c.world) (.sessionChoiceDeadline session.id) =
            World.get c.world (.sessionChoiceDeadline session.id)

/-- The runs of one session in which the decision does not expire. -/
def DecisionAlive (sessionId : SessionId) (c : Config sessionService.system) :
    Event sessionService.system → Prop
  | .start o => o.sessionId = sessionId
  | .step _ => True
  | .env e => World.get (World.env e c.world) (.sessionDecision sessionId) =
      World.get c.world (.sessionDecision sessionId)

def OutcomeRun (session : Session) (c : Config sessionService.system)
    (e : Event sessionService.system) : Prop :=
  DecisionAlive session.id c e ∧ Timely session c e

instance (sessionId : SessionId) (c : Config sessionService.system)
    (e : Event sessionService.system) : Decidable (DecisionAlive sessionId c e) :=
  match e with
  | .start o => inferInstanceAs (Decidable (o.sessionId = sessionId))
  | .step _ => inferInstanceAs (Decidable True)
  | .env e => inferInstanceAs (Decidable (World.get (World.env e c.world) _ = World.get c.world _))

instance (session : Session) (c : Config sessionService.system)
    (e : Event sessionService.system) : Decidable (Timely session c e) :=
  match e with
  | .start _ => inferInstanceAs (Decidable True)
  | .step i => inferInstanceAs (Decidable (∀ cmd ∈ c.pending i,
      timely session c.world cmd = true))
  | .env e => inferInstanceAs (Decidable (World.get c.world _ = none →
      World.choices (World.env e c.world) _ = World.choices c.world _ ∧
        World.get (World.env e c.world) _ = World.get c.world _))

instance (session : Session) (c : Config sessionService.system)
    (e : Event sessionService.system) : Decidable (OutcomeRun session c e) :=
  inferInstanceAs (Decidable (DecisionAlive session.id c e ∧ Timely session c e))

/-! ## The discipline -/

/-- Every choice `w` holds for the session is in `w'` too. -/
def Recorded (sessionId : SessionId) (w w' : World) : Prop :=
  ∀ user choice, w.choice sessionId user = some choice → w'.choice sessionId user = some choice

structure OutcomeInv (session : Session) (s : SessionSnap) : Prop where
  row : s.world.db.sessions.find? (·.id = session.id) = some session
  users : s.world.db.hasUser session.userAId = true ∧ s.world.db.hasUser session.userBId = true
  named : ∀ m, rowOf (canonicalPair session.userAId session.userBId) s.world = some m → m.id ≠ ""
  dated : ∀ r, s.world.get (.sessionChoiceDeadline session.id) = some r → ∃ ms, r = .date ms
  written : ∀ r, s.world.get (.sessionDecision session.id) = some r →
    ∃ v : ResolvedChoiceResult, r = v.payload
  agrees : ∀ v : ResolvedChoiceResult,
    s.world.get (.sessionDecision session.id) = some v.payload →
      ((∃ id, v = .mutual id) ↔ BothMatched session s.trace)
  recorded : s.world.get (.sessionDecision session.id) = none → ∀ user,
    s.world.choice session.id user = (firstChoice session.id user s.trace).map (·.1)
  prompt : s.world.get (.sessionDecision session.id) = none → ∀ user t,
    firstChoice session.id user s.trace = some (.MATCH, t) → t = true
  grown : s.world.get (.sessionDecision session.id) = none → ∀ e ∈ s.trace,
    Recorded session.id e.before s.world
  ordered : s.world.get (.sessionDecision session.id) = none → ∀ e ∈ s.trace, ∀ e' ∈ s.trace,
    Recorded session.id e.before e'.before ∨ Recorded session.id e'.before e.before

/-- An entry that writes a choice. -/
def IsWrite (sessionId : SessionId) (e : Entry sessionService.system) : Prop :=
  ∃ user choice, e.cmd = .redis (.hset sessionId user choice)

structure OutcomeRely (session : Session) (i : Nat) (s s' : SessionSnap) : Prop where
  stays : ∀ r, s.world.get (.sessionDecision session.id) = some r →
    s'.world.get (.sessionDecision session.id) = some r
  trace : s.trace <:+ s'.trace
  own : ∀ e ∈ s'.trace, e.call = i → IsWrite session.id e → e ∈ s.trace

theorem OutcomeRely.refl (session : Session) (i : Nat) (s : SessionSnap) :
    OutcomeRely session i s s :=
  ⟨fun _ h => h, List.suffix_rfl, fun _ h _ _ => h⟩

theorem OutcomeRely.trans {session : Session} {i : Nat} {s₁ s₂ s₃ : SessionSnap}
    (h : OutcomeRely session i s₁ s₂) (h' : OutcomeRely session i s₂ s₃) :
    OutcomeRely session i s₁ s₃ where
  stays := fun r hr => h'.stays r (h.stays r hr)
  trace := h.trace.trans h'.trace
  own := fun e he hcall hw => h.own e (h'.own e he hcall hw) hcall hw

def outcomeDiscipline (session : Session) : Discipline sessionService.system where
  inv := OutcomeInv session
  admits _ _ c s := timely session s.world c = true
  rely := OutcomeRely session
  guar _ _ _ _ := True
  rely_refl := OutcomeRely.refl session
  rely_trans _ _ _ _ h h' := h.trans h'

/-! ## One step -/

section Steps

variable {session : Session} {s : SessionSnap} {o : SessionOp} {i : Nat}

theorem writes_eq_none {user : UserId} {e : Entry sessionService.system}
    (h : ¬IsWrite sessionId e) : writes sessionId user e = none := by
  unfold writes
  split
  · next id user' choice hcmd =>
      rw [if_neg]
      rintro ⟨rfl, -⟩
      exact h ⟨user', choice, hcmd⟩
  · rfl

/-- The effect of a command that writes no choice and no decision. -/
structure Idles (session : Session) (w w' : World) : Prop where
  decision : w'.get (.sessionDecision session.id) = w.get (.sessionDecision session.id)
  choices : w'.choices session.id = w.choices session.id
  sessions : w'.db.sessions = w.db.sessions
  users : w'.db.users = w.db.users
  named : (∀ m, rowOf (canonicalPair session.userAId session.userBId) w = some m → m.id ≠ "") →
    ∀ m, rowOf (canonicalPair session.userAId session.userBId) w' = some m → m.id ≠ ""
  dated : ∀ r, w'.get (.sessionChoiceDeadline session.id) = some r →
    w.get (.sessionChoiceDeadline session.id) = some r ∨ ∃ ms, r = .date ms

theorem outcome_frame {c : Cmd} (h : Idles session s.world (c.exec s.world).2)
    (hnw : ¬IsWrite session.id ⟨i, c, s.world⟩) (hinv : OutcomeInv session s) :
    (outcomeDiscipline session).Keeps o i c s ∧ OutcomeRely session i s (s.exec i c) := by
  have hfirst : ∀ user, firstChoice session.id user (s.exec i c).trace =
      firstChoice session.id user s.trace := fun user =>
    firstChoice_cons_of_none (writes_eq_none hnw)
  have hboth : BothMatched session (s.exec i c).trace ↔ BothMatched session s.trace := by
    unfold BothMatched
    rw [hfirst, hfirst]
  have hdec : (s.exec i c).world.get (.sessionDecision session.id) =
      s.world.get (.sessionDecision session.id) := h.decision
  have hchoice : ∀ user, (s.exec i c).world.choice session.id user =
      s.world.choice session.id user := by
    intro user
    unfold World.choice
    rw [show World.choices (s.exec i c).world session.id = _ from h.choices]
  have hrely : ∀ j, OutcomeRely session j s (s.exec i c) := by
    intro j
    refine ⟨fun r hr => hdec.trans hr, ⟨[_], rfl⟩, fun e he _ hw => ?_⟩
    rcases List.mem_cons.mp he with rfl | he
    · exact absurd hw hnw
    · exact he
  refine ⟨⟨trivial, ?_, fun j _ => hrely j⟩, hrely i⟩
  constructor
  · show (Cmd.exec c s.world).2.db.sessions.find? _ = _
    rw [h.sessions]
    exact hinv.row
  · unfold Db.hasUser
    rw [show (s.exec i c).world.db.users = _ from h.users]
    exact hinv.users
  · exact h.named hinv.named
  · intro r hr
    rcases h.dated r hr with hold | hnew
    · exact hinv.dated r hold
    · exact hnew
  · rw [hdec]
    exact hinv.written
  · intro v hv
    rw [hdec] at hv
    rw [hboth]
    exact hinv.agrees v hv
  · intro hnone user
    rw [hdec] at hnone
    rw [hfirst, hchoice]
    exact hinv.recorded hnone user
  · intro hnone user t ht
    rw [hdec] at hnone
    rw [hfirst] at ht
    exact hinv.prompt hnone user t ht
  · intro hnone e he user choice hc
    rw [hdec] at hnone
    rw [hchoice]
    rcases List.mem_cons.mp he with rfl | he
    · exact hc
    · exact hinv.grown hnone e he user choice hc
  · intro hnone e he e' he'
    rw [hdec] at hnone
    rcases List.mem_cons.mp he with rfl | he <;> rcases List.mem_cons.mp he' with rfl | he'
    · exact .inl fun _ _ h => h
    · exact .inr (hinv.grown hnone e' he')
    · exact .inl (hinv.grown hnone e he)
    · exact hinv.ordered hnone e he e' he'

theorem idles_of_redis {w : World} {c : RedisCmd} (hdb : (c.exec w).2.db = w.db)
    (hget : (c.exec w).2.get (.sessionDecision session.id) = w.get (.sessionDecision session.id))
    (hchoices : (c.exec w).2.choices session.id = w.choices session.id)
    (hdated : ∀ r, (c.exec w).2.get (.sessionChoiceDeadline session.id) = some r →
      w.get (.sessionChoiceDeadline session.id) = some r ∨ ∃ ms, r = .date ms) :
    Idles session w ((Cmd.redis c).exec w).2 where
  decision := hget
  choices := hchoices
  sessions := congrArg Db.sessions hdb
  users := congrArg Db.users hdb
  named := by
    intro h m hm
    unfold rowOf at hm
    rw [Cmd.exec_redis, hdb] at hm
    exact h m hm
  dated := hdated

theorem idles_of_plain {c : Cmd} (hc : Plain c) (w : World) : Idles session w (c.exec w).2 := by
  have hsame := hc.same w
  refine ⟨hsame.get _ (by simp), hsame.choices _, congrArg Db.sessions hsame.db,
    congrArg Db.users hsame.db, fun h m hm => ?_, hsame.dated _⟩
  unfold rowOf at hm
  rw [hsame.db] at hm
  exact h m hm

theorem not_isWrite_of_plain {c : Cmd} (hc : Plain c) (w : World) :
    ¬IsWrite session.id (⟨i, c, w⟩ : Entry sessionService.system) := by
  rintro ⟨user, choice, hcmd⟩
  subst hcmd
  cases hc

theorem outcome_plainOK : PlainOK (outcomeDiscipline session) where
  keeps := fun _ _ _ s hc hinv =>
    (outcome_frame (idles_of_plain hc s.world) (not_isWrite_of_plain hc s.world) hinv).1
  rely := fun _ _ s hc hinv =>
    (outcome_frame (o := .recoverChoice 0 "") (idles_of_plain hc s.world)
      (not_isWrite_of_plain hc s.world) hinv).2

theorem outcome_emit (os : List Output) (hinv : OutcomeInv session s) :
    (outcomeDiscipline session).Keeps o i (.host (.emit os)) s ∧
      OutcomeRely session i s (s.exec i (.host (.emit os))) := by
  refine outcome_frame ⟨rfl, rfl, rfl, rfl, fun h => h, fun r hr => .inl hr⟩ ?_ hinv
  rintro ⟨user, choice, hcmd⟩
  cases hcmd

/-- The row a mutual finalizer upserts has an identifier. -/
theorem outcome_upsert (hinv : OutcomeInv session s) :
    (outcomeDiscipline session).Keeps o i
        (.db (.matchUpsert (canonicalPair session.userAId session.userBId).1
          (canonicalPair session.userAId session.userBId).2)) s ∧
      OutcomeRely session i s (s.exec i
        (.db (.matchUpsert (canonicalPair session.userAId session.userBId).1
          (canonicalPair session.userAId session.userBId).2))) := by
  have hspec := matchUpsert_spec s.world (canonicalPair session.userAId session.userBId).1
    (canonicalPair session.userAId session.userBId).2
  have hredis := DbCmd.exec_redis (.matchUpsert (canonicalPair session.userAId session.userBId).1
    (canonicalPair session.userAId session.userBId).2) s.world
  have hget := DbCmd.get_exec (.matchUpsert (canonicalPair session.userAId session.userBId).1
    (canonicalPair session.userAId session.userBId).2) s.world
  refine outcome_frame ⟨hget _, ?_, hspec.sessions, hspec.users, ?_, ?_⟩ ?_ hinv
  · unfold World.choices
    rw [Cmd.exec_db, hredis.1, hredis.2]
  · intro hnamed m hm
    rcases hspec.fresh m ((hspec.answer m).mpr hm) with hold | hid
    · exact hnamed m hold
    · exact hid
  · intro r hr
    rw [Cmd.exec_db, hget] at hr
    exact .inl hr
  · rintro ⟨user, choice, hcmd⟩
    cases hcmd

/-- Two recorded MATCH are in the hash while nothing is decided. -/
theorem OutcomeInv.holds (hinv : OutcomeInv session s)
    (hnone : s.world.get (.sessionDecision session.id) = none)
    (hboth : BothMatched session s.trace) : holdsMatches session s.world = true := by
  unfold holdsMatches
  rw [hinv.recorded hnone, hinv.recorded hnone, hboth.1, hboth.2]
  rfl

/-- Two MATCH in the hash are both first choices made in time. -/
theorem OutcomeInv.bothMatched (hinv : OutcomeInv session s)
    (hnone : s.world.get (.sessionDecision session.id) = none)
    (hA : s.world.choice session.id session.userAId = some .MATCH)
    (hB : s.world.choice session.id session.userBId = some .MATCH) :
    BothMatched session s.trace := by
  have hfirst : ∀ user, s.world.choice session.id user = some .MATCH →
      firstChoice session.id user s.trace = some (.MATCH, true) := by
    intro user hchoice
    rw [hinv.recorded hnone, Option.map_eq_some_iff] at hchoice
    obtain ⟨⟨choice, t⟩, hfirst, hmatch⟩ := hchoice
    cases hmatch
    rw [hfirst, hinv.prompt hnone user t hfirst]
  exact ⟨hfirst _ hA, hfirst _ hB⟩

/-- A decision that agrees with the record may be stored. -/
theorem outcome_storeNX {v : ResolvedChoiceResult}
    (hv : s.world.get (.sessionDecision session.id) = none →
      ((∃ id, v = .mutual id) ↔ BothMatched session s.trace))
    (hinv : OutcomeInv session s) :
    (outcomeDiscipline session).Keeps o i (.redis (storeNX session.id v)) s ∧
      OutcomeRely session i s (s.exec i (.redis (storeNX session.id v))) := by
  have hnw : ¬IsWrite session.id
      (⟨i, .redis (storeNX session.id v), s.world⟩ : Entry sessionService.system) := by
    rintro ⟨user, choice, hcmd⟩
    cases hcmd
  cases hget : s.world.get (.sessionDecision session.id) with
  | some r =>
      refine outcome_frame (idles_of_redis ?_ ?_ ?_ ?_) hnw hinv <;> rw [storeNX_some hget]
      exact fun r hr => .inl hr
  | none =>
      have hafter : (s.exec i (.redis (storeNX session.id v))).world.get
          (.sessionDecision session.id) = some v.payload := get_storeNX hget
      have hfirst : ∀ user, firstChoice session.id user
          (s.exec i (.redis (storeNX session.id v))).trace =
            firstChoice session.id user s.trace := fun user =>
        firstChoice_cons_of_none (writes_eq_none hnw)
      have hrely : ∀ j, OutcomeRely session j s (s.exec i (.redis (storeNX session.id v))) := by
        intro j
        refine ⟨fun r hr => ?_, ⟨[_], rfl⟩, fun e he _ hw => ?_⟩
        · rw [hget] at hr
          cases hr
        · rcases List.mem_cons.mp he with rfl | he
          · exact absurd hw hnw
          · exact he
      have hdb : (s.exec i (.redis (storeNX session.id v))).world.db = s.world.db := by
        rw [Snap.exec_world]
        show ((storeNX session.id v).exec s.world).2.db = _
        rw [storeNX_none hget]
        rfl
      refine ⟨⟨trivial, ?_, fun j _ => hrely j⟩, hrely i⟩
      constructor
      · rw [hdb]
        exact hinv.row
      · rw [hdb]
        exact hinv.users
      · intro m hm
        unfold rowOf at hm
        rw [hdb] at hm
        exact hinv.named m hm
      · intro r hr
        refine hinv.dated r ?_
        rw [← hr]
        show _ = ((storeNX session.id v).exec s.world).2.get _
        rw [storeNX_none hget, World.get_set_ne (by simp)]
      · intro r hr
        rw [hafter] at hr
        exact ⟨v, (Option.some.inj hr).symm⟩
      · intro v' hv'
        rw [hafter] at hv'
        rw [← payload_injective (Option.some.inj hv'), hv hget]
        unfold BothMatched
        rw [hfirst, hfirst]
      all_goals
        intro hnone
        rw [hafter] at hnone
        cases hnone

/-- The command that records a choice. -/
abbrev record (sessionId : SessionId) (user : UserId) (choice : SessionChoice) : Cmd :=
  .redis (.hset sessionId user choice)

theorem writes_record_self {w : World} {user : UserId} {choice : SessionChoice} :
    writes sessionId user (⟨i, record sessionId user choice, w⟩ : Entry sessionService.system) =
      some choice := by
  simp [writes]

theorem writes_record_ne {w : World} {user user' : UserId} {choice : SessionChoice}
    (h : user' ≠ user) :
    writes sessionId user' (⟨i, record sessionId user choice, w⟩ : Entry sessionService.system) =
      none := by
  simp [writes, Ne.symm h]

/-- Once the session is decided a choice comes too late to be a MATCH in
time. -/
theorem outcome_firstChoice_late {user : UserId} {choice : SessionChoice}
    (hlate : choice = .MATCH → inTime session.id s.world = false) (user' : UserId) :
    firstChoice session.id user' (s.exec i (record session.id user choice)).trace =
        some (.MATCH, true) ↔
      firstChoice session.id user' s.trace = some (.MATCH, true) := by
  rw [Snap.exec_trace, firstChoice]
  cases hold : firstChoice session.id user' s.trace with
  | some x => rfl
  | none =>
      rw [Option.none_or, Option.map_eq_some_iff]
      constructor
      · rintro ⟨choice', hw, heq⟩
        by_cases huser : user' = user
        · subst huser
          rw [writes_record_self] at hw
          cases hw
          simp only [Prod.mk.injEq] at heq
          rw [hlate heq.1] at heq
          cases heq.2
        · rw [writes_record_ne huser] at hw
          cases hw
      · rintro ⟨⟩

/-- **Recording a choice** in time, over no other one. -/
theorem outcome_record {user : UserId} {choice : SessionChoice} (hinv : OutcomeInv session s)
    (hok : timely session s.world (record session.id user choice) = true) :
    (outcomeDiscipline session).Keeps o i (record session.id user choice) s := by
  have hdec : (s.exec i (record session.id user choice)).world.get (.sessionDecision session.id) =
      s.world.get (.sessionDecision session.id) := rfl
  simp only [timely, ne_eq, not_true_eq_false, decide_false, Bool.false_or, Bool.and_eq_true,
    Bool.or_eq_true, decide_not, Bool.not_eq_true', decide_eq_false_iff_not, beq_iff_eq] at hok
  obtain ⟨hopen, htime⟩ := hok
  -- while nothing is decided the user had no choice, and a MATCH is in time
  have hfree : s.world.get (.sessionDecision session.id) = none →
      s.world.choice session.id user = none := by
    intro hnone
    rw [hnone] at hopen
    simpa using hopen
  have hgrows : s.world.get (.sessionDecision session.id) = none →
      Recorded session.id s.world (s.exec i (record session.id user choice)).world := by
    intro hnone user' choice' hc
    have hne : user' ≠ user := by
      rintro rfl
      rw [hfree hnone] at hc
      cases hc
    exact (World.choice_setChoice_ne _ _ _ hne).trans hc
  refine ⟨trivial, ?_, fun j hj => ⟨fun r hr => hr, ⟨[_], rfl⟩, fun e he hcall _ => ?_⟩⟩
  · refine ⟨hinv.row, hinv.users, hinv.named, hinv.dated, hinv.written, ?_, ?_, ?_, ?_, ?_⟩
    · intro v hv
      rw [hinv.agrees v hv]
      unfold BothMatched
      have hlate : choice = .MATCH → inTime session.id s.world = false := by
        intro hmatch
        rw [show s.world.get (.sessionDecision session.id) = some v.payload from hv] at htime
        simpa using (htime.resolve_left (not_not_intro hmatch)).symm
      rw [outcome_firstChoice_late hlate, outcome_firstChoice_late hlate]
    · intro hnone user'
      rw [Snap.exec_trace, firstChoice]
      by_cases huser : user' = user
      · subst huser
        have hnofirst : firstChoice session.id user' s.trace = none := by
          have hrec := hinv.recorded hnone user'
          rw [hfree hnone] at hrec
          exact Option.map_eq_none_iff.mp hrec.symm
        rw [hnofirst, writes_record_self]
        exact World.choice_setChoice_self _ _ _ _
      · rw [writes_record_ne huser, Option.map_none, Option.or_none, ← hinv.recorded hnone]
        exact World.choice_setChoice_ne _ _ _ huser
    · intro hnone user' t ht
      rw [Snap.exec_trace, firstChoice] at ht
      cases hold : firstChoice session.id user' s.trace with
      | some x =>
          rw [hold] at ht
          cases ht
          exact hinv.prompt hnone user' t hold
      | none =>
          rw [hold, Option.none_or, Option.map_eq_some_iff] at ht
          obtain ⟨choice', hw, heq⟩ := ht
          by_cases huser : user' = user
          · subst huser
            rw [writes_record_self] at hw
            cases hw
            simp only [Prod.mk.injEq] at heq
            obtain ⟨hmatch, rfl⟩ := heq
            rw [show s.world.get (.sessionDecision session.id) = none from hnone] at htime
            exact (htime.resolve_left (not_not_intro hmatch)).symm
          · rw [writes_record_ne huser] at hw
            cases hw
    · intro hnone e he
      rcases List.mem_cons.mp he with rfl | he
      · exact hgrows hnone
      · intro user' choice' hc
        exact hgrows hnone user' choice' (hinv.grown hnone e he user' choice' hc)
    · intro hnone e he e' he'
      rcases List.mem_cons.mp he with rfl | he <;> rcases List.mem_cons.mp he' with rfl | he'
      · exact .inl fun _ _ h => h
      · exact .inr (hinv.grown hnone e' he')
      · exact .inl (hinv.grown hnone e he)
      · exact hinv.ordered hnone e he e' he'
  · rcases List.mem_cons.mp he with rfl | he
    · exact absurd hcall.symm hj
    · exact he

end Steps

/-! ## Finalizers -/

section Finalize

variable {session : Session} {s : SessionSnap} {o : SessionOp} {i : Nat}

/-- A decision is stored. -/
def Decided (session : Session) (s : SessionSnap) : Prop :=
  ∃ v : ResolvedChoiceResult, s.world.get (.sessionDecision session.id) = some v.payload

theorem decided_lasting : Lasting (outcomeDiscipline session) i (Decided session) := by
  rintro s s' hrely ⟨v, hv⟩
  exact ⟨v, hrely.stays _ hv⟩

theorem OutcomeInv.decided (hinv : OutcomeInv session s) {r : RedisString}
    (h : s.world.get (.sessionDecision session.id) = some r) : Decided session s := by
  obtain ⟨v, rfl⟩ := hinv.written r h
  exact ⟨v, h⟩

/-- What a finalizer may be about to store. -/
def Warranted (session : Session) (v : ResolvedChoiceResult) (s : SessionSnap) : Prop :=
  ∀ id, v = .mutual id → Decided session s ∨ BothMatched session s.trace

theorem warranted_lasting (v : ResolvedChoiceResult) :
    Lasting (outcomeDiscipline session) i (Warranted session v) := by
  intro s s' hrely h id hid
  rcases h id hid with hd | hboth
  · exact .inl (decided_lasting _ _ hrely hd)
  · exact .inr (bothMatched_suffix hrely.trace hboth)

/-- The condition and what the call knows make the decision agree with the
record. -/
theorem outcome_agrees {v : ResolvedChoiceResult} (hinv : OutcomeInv session s)
    (hw : Warranted session v s)
    (hok : timely session s.world (.redis (storeNX session.id v)) = true)
    (hnone : s.world.get (.sessionDecision session.id) = none) :
    (∃ id, v = .mutual id) ↔ BothMatched session s.trace := by
  constructor
  · rintro ⟨id, hid⟩
    rcases hw id hid with ⟨v', hv'⟩ | hboth
    · rw [hnone] at hv'
      cases hv'
    · exact hboth
  · intro hboth
    have hholds := hinv.holds hnone hboth
    cases v with
    | «mutual» id => exact ⟨id, rfl⟩
    | nonMutual => simp [timely, hnone, hholds] at hok

/-- **Storing leaves a decision**, the caller's or another one. -/
theorem outcome_valid_store {v : ResolvedChoiceResult} (hw : Warranted session v s) :
    (outcomeDiscipline session).Valid o i (storeUnlessDecided session.id v)
      (fun r s' => (∃ a, r = .ok a) ∧ Decided session s') s := by
  refine valid_redis fun s₁ h₁ hinv₁ hadmits => ?_
  obtain ⟨hkeeps, hgrow⟩ := outcome_storeNX (o := o) (i := i)
    (outcome_agrees hinv₁ (warranted_lasting v _ _ h₁ hw) hadmits) hinv₁
  refine ⟨hkeeps, ?_⟩
  cases hget : s₁.world.get (.sessionDecision session.id) with
  | none =>
      show (outcomeDiscipline session).Valid o i (ite _ _ _) _ _
      rw [storeNX_none hget]
      exact ⟨⟨none, rfl⟩, v, get_storeNX hget⟩
  | some r =>
      show (outcomeDiscipline session).Valid o i (ite _ _ _) _ _
      rw [storeNX_some hget]
      have hd := decided_lasting _ _ hgrow (hinv₁.decided hget)
      refine valid_readStoredDecision outcome_plainOK fun s₂ h₂ _ hgrow₂ => ?_
      obtain ⟨v', hv'⟩ := decided_lasting _ _ h₂ hd
      rw [hv', parseStoredDecision_payload]
      exact ⟨⟨some v', rfl⟩, decided_lasting _ _ hgrow₂ hd⟩

/-- The participants' users exist, so the upsert of their row answers with
its identifier. -/
theorem outcome_valid_decisionOf {choiceA choiceB : SessionChoice}
    {Q : Except Err ResolvedChoiceResult → SessionSnap → Prop} {session' : Session}
    (hsame : choiceA = .MATCH → choiceB = .MATCH → session' = session)
    (hnon : Q (.ok .nonMutual) s)
    (hmut : choiceA = .MATCH → choiceB = .MATCH → ∀ id s', OutcomeRely session i s s' →
      Q (.ok (.mutual id)) s') :
    (outcomeDiscipline session).Valid o i (decisionOf session' choiceA choiceB) Q s := by
  unfold decisionOf
  split
  · next hboth =>
      obtain ⟨rfl, rfl⟩ := hboth
      obtain rfl := hsame rfl rfl
      have husers : ∀ s₁, OutcomeInv session' s₁ →
          s₁.world.db.hasUser (canonicalPair session'.userAId session'.userBId).1 = true ∧
            s₁.world.db.hasUser (canonicalPair session'.userAId session'.userBId).2 = true := by
        intro s₁ hinv₁
        unfold canonicalPair
        split
        · exact hinv₁.users
        · exact hinv₁.users.symm
      have hkeeps := fun s₁ => @outcome_upsert session' s₁ o i
      have hnamed : ∀ s₁, OutcomeInv session' s₁ → ∀ m, rowOf
          (canonicalPair session'.userAId session'.userBId) s₁.world = some m → m.id ≠ "" :=
        fun s₁ hinv₁ => hinv₁.named
      generalize canonicalPair session'.userAId session'.userBId = pair at husers hkeeps hnamed ⊢
      refine valid_prisma fun s₁ h₁ hinv₁ _ => ?_
      obtain ⟨hkeeps₁, hgrow⟩ := hkeeps s₁ hinv₁
      refine ⟨hkeeps₁, ?_⟩
      have hspec := matchUpsert_spec s₁.world pair.1 pair.2
      obtain ⟨m, hm⟩ := hspec.succeeds (husers s₁ hinv₁).1 (husers s₁ hinv₁).2
      have hne : m.id ≠ "" := by
        rcases hspec.fresh m hm with hold | hid
        · exact hnamed s₁ hinv₁ m hold
        · exact hid
      rw [hm]
      show (outcomeDiscipline session').Valid o i (ite _ _ _) Q _
      rw [if_neg hne]
      exact hmut rfl rfl m.id _ (h₁.trans hgrow)
  · exact hnon

/-- **A finalizer leaves a decision behind.** It may only be handed MATCH
and MATCH if both were recorded in time or something is decided. -/
theorem outcome_valid_finalize {self : Instance} {session' : Session}
    {choiceA choiceB : SessionChoice} (hid : session'.id = session.id)
    (hsame : choiceA = .MATCH → choiceB = .MATCH → session' = session ∧
      (Decided session s ∨ BothMatched session s.trace)) :
    (outcomeDiscipline session).Valid o i (finalizeDecision self session' choiceA choiceB)
      (fun _ s' => Decided session s') s := by
  unfold finalizeDecision
  rw [hid]
  refine valid_readStoredDecision outcome_plainOK fun s₁ h₁ hinv₁ hgrow₁ => ?_
  cases hget : s₁.world.get (.sessionDecision session.id) with
  | some r =>
      obtain ⟨v, rfl⟩ := hinv₁.written r hget
      rw [parseStoredDecision_payload]
      exact hinv₁.decided hget
  | none =>
      refine Discipline.valid_bind (Q := fun (_ : Except Err ChoiceResult) s' =>
        Decided session s') ?_
      have hstore : ∀ v s', Warranted session v s' → (outcomeDiscipline session).Valid o i
          (settlePayload self session'.id session' choiceA choiceB .none v)
          (fun _ s'' => Decided session s'') s' := by
        intro v s' hw
        rw [hid]
        refine Discipline.valid_bind ((outcome_valid_store hw).weaken ?_)
        rintro r s₂ ⟨⟨a, rfl⟩, hd⟩
        cases a with
        | some value => exact hd
        | none =>
            refine Discipline.valid_bind (valid_announceDecision outcome_plainOK ?_ ?_)
            · exact fun os s₃ _ hinv₃ => outcome_emit os hinv₃
            · exact fun s₃ h₃ => decided_lasting _ _ h₃ hd
      refine outcome_valid_decisionOf (fun hA hB => (hsame hA hB).1) ?_ ?_
      · refine hstore _ _ fun id h => ?_
        cases h
      · intro hA hB id s₂ h₂
        refine hstore _ _ fun id' _ => ?_
        rcases (hsame hA hB).2 with hd | hboth
        · exact .inl (decided_lasting _ _ (hgrow₁.trans h₂) hd)
        · exact .inr (bothMatched_suffix (hgrow₁.trans h₂).trace hboth)

/-- The finalizer of timers and of the recovery. -/
theorem outcome_valid_timeout {self : Instance} (userAId userBId : UserId) :
    (outcomeDiscipline session).Valid o i
      (finalizeDecision self (buildSyntheticSession session.id userAId userBId) .PASS .PASS)
      (fun _ s' => Decided session s') s :=
  outcome_valid_finalize rfl (fun h => by cases h)

/-- After every choice it recorded the call has looked at the hash, and has
not found two MATCH there; or the session is decided. -/
def Looked (session : Session) (i : Nat) (s : SessionSnap) : Prop :=
  Decided session s ∨ ∀ e ∈ s.trace, e.call = i → ∀ user choice,
    e.cmd = record session.id user choice →
      ∃ e' ∈ s.trace, (e'.before.choice session.id user).isSome ∧
        holdsMatches session e'.before = false

theorem looked_lasting : Lasting (outcomeDiscipline session) i (Looked session i) := by
  intro s s' hrely h
  rcases h with hd | hlooked
  · exact .inl (decided_lasting _ _ hrely hd)
  · refine .inr fun e he hcall user choice hcmd => ?_
    obtain ⟨e', he', hsaw⟩ :=
      hlooked e (hrely.own e he hcall ⟨user, choice, hcmd⟩) hcall user choice hcmd
    exact ⟨e', hrely.trace.subset he', hsaw⟩

/-- The session is known, and the call has not recorded a choice. -/
def Unwritten (session : Session) (i : Nat) (session' : Session) (s : SessionSnap) : Prop :=
  session' = session ∧ ∀ e ∈ s.trace, e.call = i → ¬IsWrite session.id e

theorem unwritten_lasting (session' : Session) :
    Lasting (outcomeDiscipline session) i (Unwritten session i session') :=
  fun _ _ hrely h => ⟨h.1, fun e he hcall hw => h.2 e (hrely.own e he hcall hw) hcall hw⟩

theorem Unwritten.looked {session' : Session} (h : Unwritten session i session' s) :
    Looked session i s :=
  .inr fun e he hcall user choice hcmd => absurd ⟨user, choice, hcmd⟩ (h.2 e he hcall)

/-- A look at the hash that does not find two MATCH. -/
theorem outcome_looked (hinv : OutcomeInv session s)
    (hsaw : ¬(s.world.choice session.id session.userAId = some .MATCH ∧
      s.world.choice session.id session.userBId = some .MATCH)) :
    Looked session i (s.exec i (.redis (.hmget session.id session.userAId session.userBId))) := by
  cases hget : s.world.get (.sessionDecision session.id) with
  | some r =>
      have hgrow := outcome_plainOK.rely i _ s
        (.hmget session.id session.userAId session.userBId) hinv
      exact .inl (decided_lasting _ _ hgrow (hinv.decided hget))
  | none =>
      refine .inr fun e he _ user choice hcmd => ?_
      rcases List.mem_cons.mp he with rfl | he
      · cases hcmd
      · refine ⟨_, List.mem_cons_self, ?_, decide_eq_false hsaw⟩
        have hwrites : writes session.id user e = some choice := by
          unfold writes
          rw [hcmd]
          exact if_pos ⟨rfl, rfl⟩
        show (s.world.choice session.id user).isSome = true
        rw [hinv.recorded hget, Option.isSome_map]
        exact firstChoice_isSome he hwrites

/-- A choice that is missing counts as PASS. -/
theorem eq_some_of_getD {c : Option SessionChoice} (h : c.getD .PASS = .MATCH) :
    c = some .MATCH := by
  cases c with
  | none => cases h
  | some choice => exact congrArg some h

theorem outcome_submitScript (self : Instance) (userId : UserId) (choice : SessionChoice) :
    SubmitScript (outcomeDiscipline session) o i self session.id userId choice
      (Unwritten session i) (fun session' _ => session' = session)
      (fun _ s => Looked session i s) where
  before_lasting := unwritten_lasting
  wrote_lasting := fun _ _ _ _ h => h
  lasting := fun _ => looked_lasting
  reveal := fun _ _ _ _ h => h
  failed := fun _ _ _ h => h.looked
  postponed := fun _ _ _ h => h.looked
  stored := by
    intro session' v s h hinv hparse
    cases hget : s.world.get (.sessionDecision session.id) with
    | some r => exact .inl (hinv.decided hget)
    | none =>
        rw [hget] at hparse
        cases hparse
  write := fun _ _ h hinv _ hadmits => ⟨outcome_record hinv hadmits, h.1⟩
  found := fun _ _ h _ _ => h.1
  undated := by
    rintro session' e s _ ⟨s₀, r, hinv, hget, hundated⟩
    obtain ⟨ms, rfl⟩ := hinv.dated r hget
    cases hundated
  finalize := by
    rintro session' choiceA choiceB s hid rfl hinv hA hB
    refine (outcome_valid_finalize rfl fun hmatchA hmatchB => ⟨rfl, ?_⟩).weaken
      fun _ _ hd => .inl hd
    have hgrow := outcome_plainOK.rely i _ s
      (.hmget session'.id session'.userAId session'.userBId) hinv
    cases hget : s.world.get (.sessionDecision session'.id) with
    | some r => exact .inl (decided_lasting _ _ hgrow (hinv.decided hget))
    | none =>
        rw [eq_some_of_getD hmatchA] at hA
        rw [eq_some_of_getD hmatchB] at hB
        exact .inr (bothMatched_suffix hgrow.trace (hinv.bothMatched hget hA hB))
  undecided := by
    rintro session' d s rfl hinv hsaw
    exact outcome_looked hinv hsaw

end Finalize

/-! ## The main result -/

section Main

variable {session : Session}

def outcomePost (session : Session) :
    (o : SessionOp) → Nat → Except Err o.Ret → SessionSnap → Prop :=
  fun _ i _ s => Looked session i s

theorem outcome_env {c : Config sessionService.system} {ms : Nat}
    (hok : OutcomeRun session c (.env (.tick ms))) (hinv : OutcomeInv session c.toSnap) :
    OutcomeInv session (c.next (.env (.tick ms))).toSnap ∧
      ∀ i, OutcomeRely session i c.toSnap (c.next (.env (.tick ms))).toSnap := by
  obtain ⟨hdec, hopen⟩ := hok
  have hdec : (World.env (.tick ms) c.world).get (.sessionDecision session.id) =
      c.world.get (.sessionDecision session.id) := hdec
  have hchoice : c.world.get (.sessionDecision session.id) = none → ∀ user,
      (World.env (.tick ms) c.world).choice session.id user =
        c.world.choice session.id user := by
    intro hnone user
    unfold World.choice
    rw [(hopen hnone).1]
  refine ⟨⟨hinv.row, hinv.users, hinv.named, ?_, ?_, ?_, ?_, ?_, ?_, ?_⟩, fun i => ⟨?_, ?_, ?_⟩⟩
  · intro r hr
    exact hinv.dated r (World.get_of_get_tick hr)
  · show ∀ r, (World.env (.tick ms) c.world).get _ = _ → _
    rw [hdec]
    exact hinv.written
  · show ∀ v : ResolvedChoiceResult, (World.env (.tick ms) c.world).get _ = _ → _
    rw [hdec]
    exact hinv.agrees
  · show (World.env (.tick ms) c.world).get _ = _ → _
    rw [hdec]
    intro hnone user
    exact (hchoice hnone user).trans (hinv.recorded hnone user)
  · show (World.env (.tick ms) c.world).get _ = _ → _
    rw [hdec]
    exact hinv.prompt
  · show (World.env (.tick ms) c.world).get _ = _ → _
    rw [hdec]
    intro hnone e he user choice hc
    exact (hchoice hnone user).trans (hinv.grown hnone e he user choice hc)
  · show (World.env (.tick ms) c.world).get _ = _ → _
    rw [hdec]
    exact hinv.ordered
  · show ∀ r, _ → (World.env (.tick ms) c.world).get _ = _
    rw [hdec]
    exact fun _ h => h
  · exact List.suffix_rfl
  · exact fun _ h _ _ => h

theorem outcome_governs :
    (outcomeDiscipline session).Governs (OutcomeRun session) (outcomePost session) where
  start := by
    intro c o hok _ hown
    have hunwritten : Unwritten session c.calls.length session c.toSnap := by
      refine ⟨rfl, fun e he hcall => ?_⟩
      have hmem : e ∈ c.toSnap.own c.calls.length := by simpa [Snap.own] using ⟨he, hcall⟩
      rw [hown] at hmem
      cases hmem
    cases o with
    | submitChoice self id userId choice =>
        obtain rfl : id = session.id := hok.1
        refine valid_submitChoice outcome_plainOK (outcome_submitScript self userId choice) ?_ ?_
        · intro s' session' hgrow hinv hfind
          rw [hinv.row] at hfind
          cases hfind
          exact unwritten_lasting session _ _
            (hgrow.trans (outcome_plainOK.rely _ _ s' (.findSession _) hinv)) hunwritten
        · exact fun e s' hgrow => (unwritten_lasting session _ _ hgrow hunwritten).looked
    | choiceTimeout self id userAId userBId =>
        obtain rfl : id = session.id := hok.1
        exact (outcome_valid_timeout userAId userBId).weaken fun _ _ hd => .inl hd
    | recoverChoice self id =>
        obtain rfl : id = session.id := hok.1
        refine valid_recoverChoice outcome_plainOK looked_lasting hunwritten.looked
          (fun _ _ h => h) ?_
        exact fun a b s' _ => (outcome_valid_timeout a b).weaken fun _ _ hd _ => .inl hd
  step := fun c i _ _ _ hok hc _ => hok.2 _ (Config.pending_of_call hc)
  env := by
    intro c e hok hinv
    cases e with
    | tick ms => exact outcome_env hok hinv

theorem outcome_stable : (outcomeDiscipline session).Stable (outcomePost session) :=
  fun _ _ _ s s' hrely h => looked_lasting s s' hrely h

/-- When no call is in flight, two MATCH recorded in time have been decided. -/
theorem decided_of_quiet {c : Config sessionService.system} (hinv : OutcomeInv session c.toSnap)
    (hidx : c.Indexed) (hdone : Discipline.Done (outcomePost session) c) (hquiet : c.Quiet)
    (hboth : BothMatched session c.trace) : Decided session c.toSnap := by
  cases hget : World.get c.world (.sessionDecision session.id) with
  | some r => exact hinv.decided hget
  | none =>
      have hopen : ∀ {i}, Looked session i c.toSnap → ¬Decided session c.toSnap := by
        rintro i - ⟨v, hv⟩
        rw [hget] at hv
        cases hv
      -- whoever wrote a first choice has looked at the hash afterwards
      have hlook : ∀ user, firstChoice session.id user c.trace = some (.MATCH, true) →
          ∃ e ∈ c.trace, (e.before.choice session.id user).isSome ∧
            holdsMatches session e.before = false := by
        intro user hfirst
        obtain ⟨e, he, hw⟩ := exists_writes hfirst
        obtain ⟨o, r, hsettled⟩ := hquiet.settled (hidx e he)
        have hlooked := hdone _ o r hsettled
        refine (hlooked.resolve_left (hopen hlooked)) e he rfl user .MATCH ?_
        unfold writes at hw
        split at hw
        · next id user' choice hcmd =>
            split at hw
            · next hid =>
                obtain ⟨rfl, rfl⟩ := hid
                cases hw
                exact hcmd
            · cases hw
        · cases hw
      -- what the hash ever held of the two is MATCH
      have hmatch : ∀ e ∈ c.trace, ∀ user,
          firstChoice session.id user c.trace = some (.MATCH, true) →
          (e.before.choice session.id user).isSome →
          e.before.choice session.id user = some .MATCH := by
        intro e he user hfirst hsome
        obtain ⟨choice, hc⟩ := Option.isSome_iff_exists.mp hsome
        have hnow := hinv.grown hget e he user choice hc
        rw [hinv.recorded hget, hfirst] at hnow
        cases hnow
        exact hc
      have hcontra : ∀ e ∈ c.trace, holdsMatches session e.before = false →
          (e.before.choice session.id session.userAId).isSome →
          (e.before.choice session.id session.userBId).isSome → False := by
        intro e he hfalse hA hB
        exact of_decide_eq_false hfalse ⟨hmatch e he _ hboth.1 hA, hmatch e he _ hboth.2 hB⟩
      obtain ⟨eA, heA, hsomeA, hnotA⟩ := hlook _ hboth.1
      obtain ⟨eB, heB, hsomeB, hnotB⟩ := hlook _ hboth.2
      -- the later of the two looks saw both
      exfalso
      rcases hinv.ordered hget eA heA eB heB with hle | hle
      · refine hcontra eB heB hnotB ?_ hsomeB
        rw [hle _ _ (hmatch eA heA _ hboth.1 hsomeA)]
        rfl
      · refine hcontra eA heA hnotA hsomeA ?_
        rw [hle _ _ (hmatch eB heB _ hboth.2 hsomeB)]
        rfl

/-- **The outcome is that of the recorded choices**, in every run of a
session that keeps to the windows: the stored decision is mutual exactly if
both participants' first choices were MATCH and written in time, and when
no call is in flight two such choices have been decided. -/
theorem outcome_of_choices (session : Session) (w : World)
    (hsession : w.db.sessions.find? (·.id = session.id) = some session)
    (husers : w.db.hasUser session.userAId = true ∧ w.db.hasUser session.userBId = true)
    (hnamed : ∀ m, rowOf (canonicalPair session.userAId session.userBId) w = some m → m.id ≠ "")
    (hnone : w.get (.sessionDecision session.id) = none)
    (hchoices : ∀ user, w.choice session.id user = none)
    (hdated : ∀ r, w.get (.sessionChoiceDeadline session.id) = some r → ∃ ms, r = .date ms)
    (es : List (Event sessionService.system))
    (hes : (Config.initial w : Config sessionService.system).Obeys (OutcomeRun session) es) :
    let c : Config sessionService.system := (Config.initial w).run es
    ((World.get c.world (.sessionDecision session.id)).isSome ∨ c.Quiet) →
      ((∃ id, World.get c.world (.sessionDecision session.id) =
          some (ResolvedChoiceResult.mutual id).payload) ↔
        BothMatched session c.trace) := by
  intro c hsettled
  have hinv : OutcomeInv session ⟨w, []⟩ := by
    refine ⟨hsession, husers, hnamed, hdated, ?_, ?_, ?_, ?_, ?_, ?_⟩
    · intro r hr
      rw [hnone] at hr
      cases hr
    · intro v hv
      rw [hnone] at hv
      cases hv
    · exact fun _ user => hchoices user
    · intro _ user t ht
      cases ht
    · intro _ e he
      cases he
    · intro _ e he
      cases he
  obtain ⟨hs, hdone⟩ := outcome_governs.sound_run outcome_stable hinv hes
  constructor
  · rintro ⟨id, hid⟩
    exact (hs.inv.agrees _ hid).mp ⟨id, rfl⟩
  · intro hboth
    have hdecided : Decided session c.toSnap := by
      rcases hsettled with hsome | hquiet
      · obtain ⟨r, hr⟩ := Option.isSome_iff_exists.mp hsome
        exact hs.inv.decided hr
      · exact decided_of_quiet hs.inv hs.indexed hdone hquiet hboth
    obtain ⟨v, hv⟩ := hdecided
    obtain ⟨id, rfl⟩ := (hs.inv.agrees v hv).mpr hboth
    exact ⟨id, hv⟩

/-- The session of `endedSession`. -/
def annAndBob : Session := ⟨"s", "ann", "bob", none, none, 0⟩

theorem outcome_of_choices_bothInTime :
    let c : Config sessionService.system := (Config.initial endedSession).run bothInTime
    (∃ id, World.get c.world (.sessionDecision "s") =
      some (ResolvedChoiceResult.mutual id).payload) ↔ BothMatched annAndBob c.trace := by
  intro c
  have hfree : ∀ user, World.choice endedSession "s" user = none := fun _ => rfl
  have hrow : rowOf ("ann", "bob") endedSession = none := by decide
  have hnamed : ∀ m, rowOf ("ann", "bob") endedSession = some m → m.id ≠ "" := by
    intro m hm
    rw [hrow] at hm
    cases hm
  have hdeadline : World.get endedSession (.sessionChoiceDeadline "s") = none := by decide
  have hdated : ∀ r, World.get endedSession (.sessionChoiceDeadline "s") = some r →
      ∃ ms, r = .date ms := by
    intro r hr
    rw [hdeadline] at hr
    cases hr
  have hes : (Config.initial endedSession : Config sessionService.system).Obeys
      (OutcomeRun annAndBob) bothInTime := by decide
  have hstored : (World.get c.world (.sessionDecision "s")).isSome := by decide
  exact outcome_of_choices annAndBob endedSession (by decide) (by decide) hnamed (by decide) hfree
    hdated bothInTime hes (.inl hstored)

/-- Both recorded MATCH in time, and the timer that fires before the second
call has stored its decision finalizes PASS/PASS. -/
theorem outcome_of_timer : ¬∀ es : List (Event sessionService.system),
    (Config.initial endedSession : Config sessionService.system).Obeys (DecisionAlive "s") es →
    ((Config.initial endedSession : Config sessionService.system).run es).Quiet →
      ((∃ id, World.get ((Config.initial endedSession : Config sessionService.system).run es).world
          (.sessionDecision "s") = some (ResolvedChoiceResult.mutual id).payload) ↔
        BothMatched annAndBob
          ((Config.initial endedSession : Config sessionService.system).run es).trace) := by
  intro h
  have hboth : BothMatched annAndBob ((Config.initial endedSession :
      Config sessionService.system).run (bothMatch ++ timeoutFirst)).trace := by decide
  have hstored : World.get ((Config.initial endedSession :
      Config sessionService.system).run (bothMatch ++ timeoutFirst)).world (.sessionDecision "s") =
        some ResolvedChoiceResult.nonMutual.payload := by decide
  obtain ⟨id, hid⟩ := (h (bothMatch ++ timeoutFirst) (by decide) (by decide)).mpr hboth
  rw [hstored] at hid
  cases payload_injective (Option.some.inj hid)

end Main

end VerityBackend.Sessions
