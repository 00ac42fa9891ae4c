/-
VerityBackend.Matches.Canonical — one Match row for a pair of users, however
many of their sessions are finalized at once.

The unique index is over ordered pairs, and `finalizeDecision` upserts the
canonical one only; so there is one row for an unordered pair, and whatever
a session reports as its match is the row of its pair (`RowFor`).
-/
import VerityBackend.Async.Knowledge
import VerityBackend.Backend.MatchRows
import VerityBackend.Matches.Blocks
import VerityBackend.Session.Issued
import VerityBackend.Session.MatchRow

namespace VerityBackend.Matches

open Async Sessions Store

/-! ## Finalizers -/

/-- A run of `finalizeDecision`. -/
structure FinalizeOp where
  self : Instance
  session : Session
  choiceA : SessionChoice
  choiceB : SessionChoice
  deriving DecidableEq, Repr

@[reducible] def finalizeService : Service where
  Op := FinalizeOp
  Ret := fun _ => ChoiceResult
  code := fun o => finalizeDecision o.self o.session o.choiceA o.choiceB

/-- Who takes part in a session, in which seat. -/
abbrev Seats := SessionId → UserId × UserId

def Seats.pair (seats : Seats) (id : SessionId) : UserId × UserId :=
  canonicalPair (seats id).1 (seats id).2

/-- The sessions finalized are those of the participants. -/
def Seated (seats : Seats) (_ : Config finalizeService.system) :
    Event finalizeService.system → Prop
  | .start o => (o.session.userAId, o.session.userBId) = seats o.session.id
  | _ => True

instance (seats : Seats) (c : Config finalizeService.system) (e : Event finalizeService.system) :
    Decidable (Seated seats c e) :=
  match e with
  | .start o => inferInstanceAs (Decidable ((o.session.userAId, o.session.userBId) = _))
  | .step _ => inferInstanceAs (Decidable True)
  | .env _ => inferInstanceAs (Decidable True)

/-! ## Rows -/

/-- The two columns of the unique index. -/
def columns (m : Match) : UserId × UserId := (m.userAId, m.userBId)

/-- The match is the row of the session's pair. -/
def RowFor (seats : Seats) (id : SessionId) (matchId : MatchId) (w : World) : Prop :=
  ∃ m ∈ w.db.matchRows, m.id = matchId ∧ columns m = seats.pair id

/-- The table of matches, and the decisions that name one of its rows. -/
structure Canonical (seats : Seats) (w : World) : Prop where
  ordered : ∀ m ∈ w.db.matchRows, m.userAId < m.userBId
  unique : (w.db.matchRows.map columns).Nodup
  decided : ∀ id e matchId, w.stored (.sessionDecision id) = some e →
    parseStoredDecision (some e.val) = .resolved (.mutual matchId) → RowFor seats id matchId w

/-- A backend without matches and decisions. -/
theorem canonical_of_new {w : World} (seats : Seats) (hrows : w.db.matchRows = [])
    (hstored : ∀ id, w.stored (.sessionDecision id) = none) : Canonical seats w where
  ordered m hm := by
    rw [hrows] at hm
    cases hm
  unique := by
    rw [hrows]
    exact List.nodup_nil
  decided id e matchId he := by
    rw [hstored] at he
    cases he

section Steps

variable {seats : Seats} {w : World} {id : SessionId} {matchId : MatchId}

theorem RowFor.exec (h : RowFor seats id matchId w) (c : Cmd) :
    RowFor seats id matchId (c.exec w).2 := by
  obtain ⟨m, hm, hid, hpair⟩ := h
  obtain ⟨m', hm', hlater⟩ := (c.matchRows_exec w).stays hm
  refine ⟨m', hm', hlater.id.trans hid, ?_⟩
  unfold columns at hpair ⊢
  rw [hlater.userAId, hlater.userBId, hpair]

/-- What the commands of a finalizer do: upserts are canonical, and a match
that is stored or announced is the row of its session's pair. -/
structure Proper (seats : Seats) (w : World) (c : Cmd) : Prop where
  upserts : ∀ a b, c = .db (.matchUpsert a b) → a < b
  stores : ∀ id v matchId, ((∃ ttl, c = .redis (.set (.sessionDecision id) v ttl)) ∨
    ∃ ttl, c = .redis (.setNX (.sessionDecision id) v ttl)) →
    parseStoredDecision (some v) = .resolved (.mutual matchId) → RowFor seats id matchId w
  announces : ∀ os room id matchId reveal, c = .host (.emit os) →
    .matchMutual room id matchId reveal ∈ os → RowFor seats id matchId w

/-- **Step lemma**: the table stays canonical. -/
theorem Canonical.exec (h : Canonical seats w) {c : Cmd} (hc : Proper seats w c) :
    Canonical seats (c.exec w).2 := by
  have hdecided : ∀ id e matchId, (c.exec w).2.stored (.sessionDecision id) = some e →
      parseStoredDecision (some e.val) = .resolved (.mutual matchId) →
      RowFor seats id matchId (c.exec w).2 := by
    intro id e matchId he hparse
    rcases c.stored_decision_exec w id with hsame | hnone | ⟨v, t, hv, hstore⟩
    · exact (h.decided id e matchId (hsame ▸ he) hparse).exec c
    · rw [hnone] at he
      cases he
    · obtain rfl := Option.some.inj (hv.symm.trans he)
      exact (hc.stores id v matchId hstore hparse).exec c
  cases c.matchRows_exec w with
  | later hf hrows =>
      refine ⟨?_, ?_, hdecided⟩
      · rw [hrows]
        intro m' hm'
        obtain ⟨m, hm, rfl⟩ := List.mem_map.mp hm'
        rw [(hf m).userAId, (hf m).userBId]
        exact h.ordered m hm
      · have hcolumns : columns ∘ _ = columns := funext fun m =>
          Prod.ext (hf m).userAId (hf m).userBId
        rw [hrows, List.map_map, hcolumns]
        exact h.unique
  | created hcmd hnone hrows =>
      rename_i a b
      refine ⟨?_, ?_, hdecided⟩
      · rw [hrows]
        intro m hm
        rcases List.mem_append.mp hm with hm | hm
        · exact h.ordered m hm
        · obtain rfl := List.mem_singleton.mp hm
          exact hc.upserts a b hcmd
      · rw [hrows, List.map_append, List.map_singleton]
        refine List.nodup_append'.mpr ⟨h.unique, List.nodup_singleton _, ?_⟩
        rw [List.disjoint_singleton]
        intro hmem
        obtain ⟨m, hm, hpair⟩ := List.mem_map.mp hmem
        have hno := List.find?_eq_none.mp hnone m hm
        simp [columns] at hpair
        simp [hpair] at hno

/-- Two rows of a pair are one. -/
theorem Canonical.eq_of_columns (h : Canonical seats w) {m m' : Match} (hm : m ∈ w.db.matchRows)
    (hm' : m' ∈ w.db.matchRows) (hpair : columns m = columns m') : m = m' :=
  List.inj_on_of_nodup_map h.unique hm hm' hpair

end Steps

/-! ## What a finalizer knows -/

/-- Finalizing is a practice: the table stays canonical. -/
def practice (seats : Seats) : Practice finalizeService.system where
  inv := Canonical seats
  proper := Proper seats
  keeps _ _ h hc := h.exec hc
  env e w h := by
    cases e
    exact ⟨h.ordered, h.unique, h.decided⟩

/-- The decision of a session says so. -/
def saidBy (seats : Seats) (id : SessionId) (v : ResolvedChoiceResult) (w : World) : Prop :=
  ∀ matchId, v = .mutual matchId → RowFor seats id matchId w

section Walk

variable {seats : Seats} {id : SessionId} {session : Session}

theorem rowFor_lasting (id : SessionId) (matchId : MatchId) :
    @Lasting finalizeService.system (RowFor seats id matchId) where
  exec c _ h := h.exec c
  env e _ h := by
    cases e
    exact h

theorem saidBy_lasting (id : SessionId) (v : ResolvedChoiceResult) :
    @Lasting finalizeService.system (saidBy seats id v) :=
  .forall_mem fun matchId => .forall_mem fun _ => rowFor_lasting id matchId

theorem lasting_true : @Lasting finalizeService.system fun _ => True := .const True

/-- Neither an upsert nor a decision nor a match event. -/
def quiet : Cmd → Bool
  | .db (.matchUpsert _ _) => false
  | .redis (.set (.sessionDecision _) _ _) => false
  | .redis (.setNX (.sessionDecision _) _ _) => false
  | .host (.emit os) => os.all fun
      | .matchMutual _ _ _ _ => false
      | _ => true
  | _ => true

theorem proper_of_quiet (w : World) (c : Cmd) (h : quiet c = true) : Proper seats w c where
  upserts a b hc := by
    subst hc
    cases h
  stores id v matchId hc _ := by
    rcases hc with ⟨ttl, rfl⟩ | ⟨ttl, rfl⟩ <;> cases h
  announces os room id matchId reveal hc hmem := by
    subst hc
    have hout := List.all_eq_true.mp h _ hmem
    cases hout

/-- A decision that is read is right. -/
theorem learns_readStoredDecision :
    (practice seats).Learns (fun _ => True) (readStoredDecision id) fun d w =>
      ∀ value, d = .resolved value → saidBy seats id value w := by
  refine Practice.Learns.bind (R := fun raw w => ∀ value,
    parseStoredDecision raw = .resolved value → saidBy seats id value w) ?_ lasting_true fun raw =>
      Practice.learns_pure fun w h => h.2
  refine Practice.learns_await lasting_true (fun w _ _ => proper_of_quiet w _ rfl)
    fun w a hw _ ha => ?_
  rintro value hparse matchId rfl
  have hget : w.get (.sessionDecision id) = a := Except.ok.inj ha
  cases a with
  | none => cases hparse
  | some r =>
      obtain ⟨e, he, rfl⟩ := World.stored_of_get hget
      exact hw.decided id e matchId he hparse

theorem proper_store {v : ResolvedChoiceResult} {w : World} (h : saidBy seats id v w) {c : Cmd}
    (hc : (∃ ttl, c = .redis (.set (.sessionDecision id) v.payload ttl)) ∨
      ∃ ttl, c = .redis (.setNX (.sessionDecision id) v.payload ttl)) : Proper seats w c where
  upserts a b hupsert := by
    rcases hc with ⟨ttl, rfl⟩ | ⟨ttl, rfl⟩ <;> cases hupsert
  stores id' v' matchId hstore hparse := by
    have hsame : id' = id ∧ v' = v.payload := by
      rcases hc with ⟨ttl, rfl⟩ | ⟨ttl, rfl⟩ <;> rcases hstore with ⟨ttl', h⟩ | ⟨ttl', h⟩ <;> cases h <;>
        exact ⟨rfl, rfl⟩
    obtain ⟨rfl, rfl⟩ := hsame
    rw [parseStoredDecision_payload] at hparse
    exact h matchId (ParsedStoredDecision.resolved.inj hparse)
  announces os room id' matchId reveal hemit _ := by
    rcases hc with ⟨ttl, rfl⟩ | ⟨ttl, rfl⟩ <;> cases hemit

theorem learns_storeDecision (existing : ParsedStoredDecision) (v : ResolvedChoiceResult) :
    (practice seats).Learns (saidBy seats id v) (storeDecision id existing v) fun o w =>
      ∀ value ∈ o, saidBy seats id value w := by
  have hnone {F : World → Prop} : (practice seats).Learns F
      (pure none : Prog (Option ResolvedChoiceResult)) fun o w =>
        ∀ value ∈ o, saidBy seats id value w :=
    Practice.learns_pure fun w _ value h => by cases h
  have hover : (practice seats).Learns (saidBy seats id v) (overwriteDecision id v) fun o w =>
      ∀ value ∈ o, saidBy seats id value w := by
    refine Practice.Learns.bind (R := fun _ _ => True) ?_ (saidBy_lasting id v) fun _ => hnone
    exact Practice.learns_await (saidBy_lasting id v)
      (fun w _ hw => proper_store hw (.inl ⟨_, rfl⟩)) fun _ _ _ _ _ => trivial
  have hunless : (practice seats).Learns (saidBy seats id v) (storeUnlessDecided id v) fun o w =>
      ∀ value ∈ o, saidBy seats id value w := by
    refine Practice.Learns.bind (R := fun _ _ => True) ?_ (saidBy_lasting id v) fun stored => ?_
    · exact Practice.learns_await (saidBy_lasting id v)
        (fun w _ hw => proper_store hw (.inr ⟨_, rfl⟩)) fun _ _ _ _ _ => trivial
    · cases stored with
      | true => exact hnone
      | false =>
          refine Practice.Learns.bind (learns_readStoredDecision.mono (fun _ _ => trivial)
            fun _ _ h => h) ((saidBy_lasting id v).and lasting_true) fun d => ?_
          cases d with
          | resolved value =>
              refine Practice.learns_pure fun w h value' hvalue' => ?_
              obtain rfl := Option.some.inj hvalue'
              exact h.2 value rfl
          | pending deadline => exact hover.mono (fun w h => h.1.1) fun _ _ h => h
          | none => exact hnone
          | invalid => exact hnone
  cases existing with
  | pending deadline => exact hover
  | none => exact hunless
  | invalid => exact hunless
  | resolved value => exact hunless

theorem canonicalPair_lt {a b : UserId} (h : a ≠ b) : (canonicalPair a b).1 < (canonicalPair a b).2 := by
  unfold canonicalPair
  split
  · assumption
  · next hlt => exact lt_of_le_of_ne (not_lt.mp hlt) h.symm

/-- The upsert is canonical, and answers with the row of the pair. -/
theorem learns_decisionOf (hseat : (session.userAId, session.userBId) = seats session.id)
    (hne : (seats session.id).1 ≠ (seats session.id).2) (choiceA choiceB : SessionChoice) :
    (practice seats).Learns (fun _ => True) (decisionOf session choiceA choiceB)
      (saidBy seats session.id) := by
  have hpair : seats.pair session.id = canonicalPair session.userAId session.userBId := by
    unfold Seats.pair
    rw [← hseat]
  rw [← hseat] at hne
  unfold decisionOf
  split
  · refine Practice.Learns.bind (R := fun m w => RowFor seats session.id m.id w)
      (Practice.learns_await lasting_true (fun w _ _ => ?_) fun w m hw _ hm => ?_) lasting_true
      fun m => ?_
    · refine ⟨fun a b hc => ?_, fun id v matchId hc => ?_, fun os room id matchId reveal hc => ?_⟩
      · obtain ⟨rfl, rfl⟩ := DbCmd.matchUpsert.inj (Cmd.db.inj hc)
        exact canonicalPair_lt hne
      · rcases hc with ⟨ttl, h⟩ | ⟨ttl, h⟩ <;> cases h
      · cases hc
    · have hfind : (DbCmd.exec (.matchUpsert (canonicalPair session.userAId session.userBId).1
          (canonicalPair session.userAId session.userBId).2) w).2.db.findMatch
          (canonicalPair session.userAId session.userBId).1
          (canonicalPair session.userAId session.userBId).2 = some m :=
        ((matchUpsert_spec w _ _).answer m).mp hm
      obtain ⟨hmem, hA, hB⟩ := findMatch_columns hfind
      exact ⟨m, hmem, rfl, hpair ▸ Prod.ext hA hB⟩
    · split
      · exact Practice.learns_fail _
      · refine Practice.learns_pure fun w h matchId hv => ?_
        rw [← ResolvedChoiceResult.mutual.inj hv]
        exact h.2
  · exact Practice.learns_pure fun w _ matchId hv => by cases hv

theorem quiet_buildPartnerReveal (userId : UserId) :
    (buildPartnerRevealForUser session userId).Conforms (fun c => quiet c = true) True := by
  refine (buildPartnerReveal_issues session userId).mono fun c hc => ?_
  cases hc
  rfl

/-- Only what the decision says is announced. -/
theorem learns_announceDecision (self : Instance) (choiceA choiceB : SessionChoice)
    (v : ResolvedChoiceResult) :
    (practice seats).Learns (saidBy seats session.id v)
      (announceDecision self session choiceA choiceB v) fun _ _ => True := by
  have hlast : @Lasting finalizeService.system (saidBy seats session.id v) :=
    saidBy_lasting session.id v
  have hquiet {c : Cmd} (h : quiet c = true) {F : World → Prop} :
      (practice seats).Learns F (Proc.await c) fun _ _ => True :=
    Practice.learns_conforms proper_of_quiet (Proc.conforms_await h)
  have hthen {α β : Type} {p : Prog α} {f : α → Prog β}
      (hp : p.Conforms (fun c => quiet c = true) True)
      (hf : ∀ a, (practice seats).Learns (saidBy seats session.id v) (f a) fun _ _ => True) :
      (practice seats).Learns (saidBy seats session.id v) (p.bind f) fun _ _ => True :=
    Practice.learns_conforms_bind proper_of_quiet hp hlast hf
  have hevents : quiet (.host (.emit (resolvedEvents session.id session.userAId v
      (decide (choiceA = .PASS ∧ choiceB = .PASS)) ++ resolvedEvents session.id session.userBId v
      (decide (choiceA = .PASS ∧ choiceB = .PASS))))) = true := by
    cases v <;> rfl
  refine hthen (Proc.conforms_await hevents) fun _ => ?_
  cases v with
  | nonMutual => exact hthen (Proc.conforms_await rfl) fun _ => hquiet rfl
  | «mutual» matchId =>
      refine Practice.Learns.bind (R := fun _ _ => True) ?_ hlast fun _ =>
        (hthen (Proc.conforms_await rfl) fun _ => hquiet rfl).mono (fun w h => h.1) fun _ _ h => h
      refine hthen (quiet_buildPartnerReveal _) fun revealA => ?_
      refine hthen (quiet_buildPartnerReveal _) fun revealB => ?_
      refine Practice.learns_await hlast (fun w _ hw => ?_) fun _ _ _ _ _ => trivial
      refine ⟨fun a b hc => (by cases hc), fun id v matchId hc => ?_,
        fun os room id matchId' reveal hc hmem => ?_⟩
      · rcases hc with ⟨ttl, h⟩ | ⟨ttl, h⟩ <;> cases h
      · obtain rfl := HostCmd.emit.inj (Cmd.host.inj hc)
        rcases List.mem_cons.mp hmem with h | h
        · cases h
          exact hw matchId rfl
        · cases List.mem_singleton.mp h
          exact hw matchId rfl

/-- What a finalizer returns. -/
def toldBy (seats : Seats) (id : SessionId) (r : ChoiceResult) (w : World) : Prop :=
  ∀ value reveal, r = .resolved value reveal → saidBy seats id value w

theorem learns_finalizeDecision (self : Instance)
    (hseat : (session.userAId, session.userBId) = seats session.id)
    (hne : (seats session.id).1 ≠ (seats session.id).2) (choiceA choiceB : SessionChoice) :
    (practice seats).Learns (fun _ => True) (finalizeDecision self session choiceA choiceB)
      (toldBy seats session.id) := by
  have htold {v : ResolvedChoiceResult} {F : World → Prop} (h : ∀ w, F w → saidBy seats session.id v w) :
      (practice seats).Learns F (pure (.resolved v none) : Prog ChoiceResult)
        (toldBy seats session.id) := by
    refine Practice.learns_pure fun w hw value reveal hr => ?_
    rw [← (ChoiceResult.resolved.inj hr).1]
    exact h w hw
  refine Practice.Learns.bind learns_readStoredDecision lasting_true fun existing => ?_
  have hrest : (practice seats).Learns (fun _ => True)
      (settleDecision self session choiceA choiceB existing) (toldBy seats session.id) := by
    refine Practice.Learns.bind (learns_decisionOf hseat hne choiceA choiceB) lasting_true
      fun payload => ?_
    refine Practice.Learns.mono ?_ (fun w h => h.2) fun _ _ h => h
    refine Practice.Learns.bind (learns_storeDecision existing payload)
      (saidBy_lasting session.id payload) fun stored => ?_
    cases stored with
    | some value => exact htold fun w h => h.2 value rfl
    | none =>
        refine Practice.Learns.mono ?_ (fun w h => h.1) fun _ _ h => h
        exact Practice.Learns.bind (learns_announceDecision self choiceA choiceB payload)
          (saidBy_lasting session.id payload) fun _ => htold fun w h => h.1
  cases existing with
  | resolved value => exact htold fun w h => h.2 value rfl
  | none => exact hrest.mono (fun _ _ => trivial) fun _ _ h => h
  | invalid => exact hrest.mono (fun _ _ => trivial) fun _ _ h => h
  | pending deadline => exact hrest.mono (fun _ _ => trivial) fun _ _ h => h

end Walk

/-! ## One match for a pair -/

/-- The session is told that this is its match: by what a finalizer
returned, by the stored decision, or by a match event. -/
inductive Reports (c : Config finalizeService.system) (id : SessionId) (matchId : MatchId) : Prop
  | returned {i : Nat} {o : FinalizeOp} {reveal : Option PartnerReveal} (hid : o.session.id = id)
      (h : c.Settled i o (.ok (.resolved (.mutual matchId) reveal))) : Reports c id matchId
  | stored (h : parseStoredDecision (World.get c.world (.sessionDecision id)) =
      .resolved (.mutual matchId)) : Reports c id matchId
  | sent {e : Entry finalizeService.system} {os : List Output} {room : UserId}
      {reveal : Option PartnerReveal} (he : e ∈ c.trace) (hcmd : e.cmd = .host (.emit os))
      (h : .matchMutual room id matchId reveal ∈ os) : Reports c id matchId

/-- A match that is reported is the row of the session's pair. -/
theorem Reports.rowFor {seats : Seats} {c : Config finalizeService.system}
    (hcanon : Canonical seats c.world) (hpast : (practice seats).Past c.toSnap)
    (htold : ∀ i o a, c.Settled i o (.ok a) → toldBy seats o.session.id a c.world)
    {id : SessionId} {matchId : MatchId} (h : Reports c id matchId) :
    RowFor seats id matchId c.world := by
  cases h with
  | returned hid h => exact hid ▸ htold _ _ _ h _ _ rfl matchId rfl
  | stored h =>
      cases hget : World.get c.world (.sessionDecision id) with
      | none =>
          rw [hget] at h
          cases h
      | some r =>
          obtain ⟨e, he, rfl⟩ := World.stored_of_get hget
          exact hcanon.decided id e matchId he (hget ▸ h)
  | sent he hcmd h =>
      obtain ⟨hproper, hgrows⟩ := hpast _ he
      exact hgrows _ (rowFor_lasting id matchId) (hproper.announces _ _ _ _ _ hcmd h)

/-- Rows of one pair, both in order, have the same columns. -/
theorem columns_eq {m m' : Match} {x y : UserId} (hlt : m.userAId < m.userBId)
    (hlt' : m'.userAId < m'.userBId) (h : m.isBetween x y) (h' : m'.isBetween x y) :
    columns m = columns m' := by
  unfold columns
  rcases h with ⟨hA, hB⟩ | ⟨hA, hB⟩ <;> rcases h' with ⟨hA', hB'⟩ | ⟨hA', hB'⟩
  · rw [hA, hB, hA', hB']
  · rw [hA, hB] at hlt
    rw [hA', hB'] at hlt'
    exact absurd hlt' (lt_asymm hlt)
  · rw [hA, hB] at hlt
    rw [hA', hB'] at hlt'
    exact absurd hlt' (lt_asymm hlt)
  · rw [hA, hB, hA', hB']

theorem length_le_one {α : Type} {l : List α} (hnodup : l.Nodup) (h : ∀ a ∈ l, ∀ b ∈ l, a = b) :
    l.length ≤ 1 := by
  match l with
  | [] => exact Nat.zero_le 1
  | [a] => exact Nat.le_refl 1
  | a :: b :: rest =>
      have hab := h a (by simp) b (by simp)
      simp [hab] at hnodup

/-- One row for an unordered pair of users, in canonical order, and one
match for all sessions of the pair, in every interleaving of finalizers. -/
theorem one_match_per_pair {seats : Seats} (hseats : ∀ id, (seats id).1 ≠ (seats id).2) {w : World}
    (hw : Canonical seats w) {es : List (Event finalizeService.system)}
    (hes : (Config.initial w : Config finalizeService.system).Obeys (Seated seats) es) :
    let c := (Config.initial w : Config finalizeService.system).run es
    (∀ x y, (c.world.db.matchRows.filter (Match.isBetween · x y)).length ≤ 1) ∧
      (∀ m ∈ c.world.db.matchRows, m.userAId < m.userBId) ∧
      ∀ id id' matchId matchId', Reports c id matchId → Reports c id' matchId' →
        seats.pair id = seats.pair id' → matchId = matchId' := by
  intro c
  obtain ⟨hcanon, hpast, htold⟩ := (practice seats).run
    (R := fun o => toldBy seats o.session.id)
    (fun _ o hok => learns_finalizeDecision o.self hok (hseats _) o.choiceA o.choiceB)
    (fun o a => .forall_mem fun v => .forall_mem fun _ => .forall_mem fun _ => saidBy_lasting _ v)
    hw hes
  refine ⟨fun x y => ?_, hcanon.ordered, fun id id' matchId matchId' h h' hpair => ?_⟩
  · -- two rows of the pair are in the same order, hence one row
    have hsame : ∀ m ∈ c.world.db.matchRows.filter (Match.isBetween · x y),
        ∀ m' ∈ c.world.db.matchRows.filter (Match.isBetween · x y), m = m' := by
      intro m hm m' hm'
      obtain ⟨hm, hbetween⟩ := List.mem_filter.mp hm
      obtain ⟨hm', hbetween'⟩ := List.mem_filter.mp hm'
      refine hcanon.eq_of_columns hm hm' (columns_eq (hcanon.ordered m hm) (hcanon.ordered m' hm')
        (of_decide_eq_true hbetween) (of_decide_eq_true hbetween'))
    exact length_le_one ((List.Nodup.of_map _ hcanon.unique).filter _) hsame
  · obtain ⟨m, hm, rfl, hcols⟩ := h.rowFor hcanon hpast htold
    obtain ⟨m', hm', rfl, hcols'⟩ := h'.rowFor hcanon hpast htold
    rw [hcanon.eq_of_columns hm hm' (hcols.trans (hpair.trans hcols'.symm))]

/-- `bob` sits in the first seat of one session and in the second seat of
the others. -/
def eitherSeat : Seats := fun id => if id = "s" then ("bob", "ann") else ("ann", "bob")

/-- Two of their sessions are finalized at once. -/
def finalizedTogether : List (Event finalizeService.system) :=
  .start ⟨0, ⟨"s", "bob", "ann", none, none, 0⟩, .MATCH, .MATCH⟩ ::
    .start ⟨1, ⟨"t", "ann", "bob", none, none, 0⟩, .MATCH, .MATCH⟩ ::
    (List.replicate 12 [.step 0, .step 1]).flatten

theorem one_match_per_pair_together :
    let c := (Config.initial (World.peopled ["ann", "bob"] 1) :
      Config finalizeService.system).run finalizedTogether
    (∀ x y, (c.world.db.matchRows.filter (Match.isBetween · x y)).length ≤ 1) ∧
      (∀ m ∈ c.world.db.matchRows, m.userAId < m.userBId) ∧
      ∀ id id' matchId matchId', Reports c id matchId → Reports c id' matchId' →
        eitherSeat.pair id = eitherSeat.pair id' → matchId = matchId' :=
  one_match_per_pair (fun id => by unfold eitherSeat; split <;> decide)
    (canonical_of_new eitherSeat rfl fun _ => rfl) (by decide +kernel)

end VerityBackend.Matches
