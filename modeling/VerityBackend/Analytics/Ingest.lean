/-
VerityBackend.Analytics.Ingest — is an event stored once, and is the client
told the truth about it?

The database compares ids as strings, and a UUID has many spellings: two rows
of one UUID are possible (`stored_twice`). The row and the count are two
statements under one handler, so that a call may fail, or even report a
duplicate, whose row is stored. `exactlyOnce_iff` says that nothing else can
go wrong, whatever the interleaving and whatever fails.
-/
import Mathlib.Data.List.Pairwise
import VerityBackend.Analytics.Service
import VerityBackend.Async.Discipline

namespace VerityBackend.Analytics

open Async

variable {env : AnalyticsEnv}

/-! ## Stored once -/

/-- Two spellings of one UUID. -/
def SameUuid (a b : String) : Prop := jsLowerCase a = jsLowerCase b

instance (a b : String) : Decidable (SameUuid a b) := inferInstanceAs (Decidable (_ = _))

def StoredOnce (w : AnalyticsWorld) : Prop :=
  w.events.Pairwise fun a b => ¬SameUuid a.eventId b.eventId

instance (w : AnalyticsWorld) : Decidable (StoredOnce w) := by
  unfold StoredOnce
  infer_instance

/-- An insert that is not going to fail finds no row of its UUID in another
spelling. -/
def SpelledAlike (w : AnalyticsWorld) : AnalyticsCmd → Prop
  | .eventCreate data => w.fault = none → ∀ row ∈ w.events,
      SameUuid row.eventId data.eventId → row.eventId = data.eventId
  | _ => True

instance (w : AnalyticsWorld) (c : AnalyticsCmd) : Decidable (SpelledAlike w c) := by
  unfold SpelledAlike
  split <;> infer_instance

/-- The next command of the call is such an insert, or none. -/
def SpellsAlike (c : Config (analytics env)) : Event (analytics env) → Prop
  | .step i => ∀ cmd ∈ c.pending i, SpelledAlike c.world cmd
  | _ => True

instance (c : Config (analytics env)) (e : Event (analytics env)) : Decidable (SpellsAlike c e) := by
  unfold SpellsAlike
  split <;> infer_instance

theorem StoredOnce.eq_of_same {w : AnalyticsWorld} (h : StoredOnce w) {a b : AnalyticsEvent}
    (ha : a ∈ w.events) (hb : b ∈ w.events) (hsame : SameUuid a.eventId b.eventId) : a = b := by
  have hsymm : Std.Symm fun a b : AnalyticsEvent => ¬SameUuid a.eventId b.eventId :=
    ⟨fun _ _ hne heq => hne heq.symm⟩
  exact Decidable.byContradiction fun hne => h.forall ha hb hne hsame

section Step

variable {w : AnalyticsWorld}

/-- A row whose id is taken is not inserted. -/
theorem storedOnce_eventCreate (h : StoredOnce w) (data : AnalyticsEvent) :
    StoredOnce ((AnalyticsCmd.eventCreate data).exec w).2 ↔ SpelledAlike w (.eventCreate data) := by
  cases hfault : w.fault with
  | some err =>
      rw [eventCreate_fault hfault]
      exact ⟨fun _ hnone => (by rw [hfault] at hnone; cases hnone), fun _ => h⟩
  | none =>
      by_cases htaken : ∃ row ∈ w.events, row.eventId = data.eventId
      · rw [eventCreate_taken hfault htaken]
        obtain ⟨taken, hmem, hid⟩ := htaken
        refine ⟨fun _ _ row hrow hsame => ?_, fun _ => h⟩
        rw [← hid] at hsame ⊢
        rw [h.eq_of_same hrow hmem hsame]
      · have hfree : ∀ row ∈ w.events, row.eventId ≠ data.eventId :=
          fun row hrow hid => htaken ⟨row, hrow, hid⟩
        rw [eventCreate_free hfault hfree]
        unfold StoredOnce
        rw [List.pairwise_append]
        constructor
        · rintro ⟨-, -, hnew⟩ _ row hrow hsame
          exact absurd hsame (hnew row hrow data (.head _))
        · intro halike
          refine ⟨h, List.pairwise_singleton _ _, fun row hrow x hx hsame => ?_⟩
          rw [List.mem_singleton.mp hx] at hsame
          exact hfree row hrow (halike hfault row hrow hsame)

/-- **Step lemma.** -/
theorem storedOnce_exec (h : StoredOnce w) (c : AnalyticsCmd) :
    StoredOnce (c.exec w).2 ↔ SpelledAlike w c := by
  cases c with
  | now => exact ⟨fun _ => trivial, fun _ => h⟩
  | randomUUID => exact ⟨fun _ => trivial, fun _ => h⟩
  | eventCreate data => exact storedOnce_eventCreate h data
  | hourlyUpsert hourStart eventName field =>
      refine ⟨fun _ => trivial, fun _ => ?_⟩
      cases hfault : w.fault with
      | some err =>
          rw [hourlyUpsert_fault hfault]
          exact h
      | none =>
          rw [hourlyUpsert_ok hfault]
          exact h

end Step

theorem storedOnce_next {c : Config (analytics env)} (h : StoredOnce c.world)
    (e : Event (analytics env)) : StoredOnce (c.next e).world ↔ SpellsAlike c e := by
  cases e with
  | start o => exact ⟨fun _ => trivial, fun _ => h⟩
  | env e => exact ⟨fun _ => trivial, fun _ => by cases e <;> exact h⟩
  | step i =>
      cases hp : c.pending i with
      | none =>
          rw [Config.next_step_of_pending_none hp]
          exact ⟨fun _ cmd hcmd => (by rw [hp] at hcmd; cases hcmd), fun _ => h⟩
      | some cmd =>
          obtain ⟨o, k, hc⟩ := Config.pending_eq_some.mp hp
          rw [Config.next_step_of_call hc]
          refine (storedOnce_exec h cmd).trans ?_
          simp only [SpellsAlike, hp, Option.mem_some_iff, forall_eq']

/-! ## Answered truthfully -/

/-- One of these commands has inserted a row. -/
def Inserted (own : List (Entry (analytics env))) : Prop :=
  ∃ e ∈ own, (∃ data, e.cmd = .eventCreate data) ∧ ∃ a, e.res = .ok a

/-- Whoever has inserted the row is told so, and nobody else. -/
structure Answered (r : Except Err TrackResult) (own : List (Entry (analytics env))) : Prop where
  accepted : Inserted own → r = .ok ⟨true, none⟩
  refused : ¬Inserted own → r = .ok ⟨false, some "duplicate_event_id"⟩ ∨ ∃ err, r = .error err

/-- No increment of an accepted event fails. -/
def Counted (own : List (Entry (analytics env))) : Prop :=
  ∀ e ∈ own, (∃ hourStart eventName, e.cmd = .hourlyUpsert hourStart eventName .accepted) →
    e.before.fault = none

/-- The commands that neither insert a row nor count one. -/
def Aside : AnalyticsCmd → Prop
  | .eventCreate _ => False
  | .hourlyUpsert _ _ field => field = .dropped
  | _ => True

/-- The answer to a client is right exactly if no increment has failed. -/
def Honest : (o : AnalyticsOp) → Except Err o.Ret → List (Entry (analytics env)) → Prop
  | .trackClientEvent _ _ _, r, own => Answered r own ↔ Counted own
  | .trackServerEvent _, _, _ => True

section Calls

variable {o : AnalyticsOp} {i : Nat} {own own' : List (Entry (analytics env))}
  {s : Snap (analytics env)}

/-- Commands that are beside the point have been added. -/
def Beside (own own' : List (Entry (analytics env))) : Prop :=
  ∃ t, own' = t ++ own ∧ ∀ e ∈ t, Aside e.cmd

theorem Beside.inserted (h : Beside own own') : Inserted own' ↔ Inserted own := by
  obtain ⟨t, rfl, ht⟩ := h
  constructor
  · rintro ⟨e, he, ⟨data, hdata⟩, hok⟩
    rcases List.mem_append.mp he with he | he
    · exact (hdata ▸ ht e he : Aside (.eventCreate data)).elim
    · exact ⟨e, he, ⟨data, hdata⟩, hok⟩
  · rintro ⟨e, he, hcmd, hok⟩
    exact ⟨e, List.mem_append_right t he, hcmd, hok⟩

theorem Beside.counted (h : Beside own own') : Counted own' ↔ Counted own := by
  obtain ⟨t, rfl, ht⟩ := h
  constructor
  · exact fun hall e he => hall e (List.mem_append_right t he)
  · rintro hall e he ⟨hourStart, eventName, hcmd⟩
    rcases List.mem_append.mp he with he | he
    · exact nomatch (hcmd ▸ ht e he : Aside (.hourlyUpsert hourStart eventName .accepted))
    · exact hall e he ⟨hourStart, eventName, hcmd⟩

/-- A procedure that issues nothing else. -/
theorem aside_valid {α : Type} {p : AnalyticsProg α} (hp : p.Conforms Aside True)
    (hs : Beside own (s.own i)) :
    Discipline.own.Valid (S := analytics env) o i p (fun _ s' => Beside own (s'.own i)) s := by
  refine Discipline.Valid.weaken (Discipline.valid_of_conforms (S := analytics env) hp
    (J := fun s => Beside own (s.own i)) ?_ ?_ hs) fun _ _ h => h.2
  · intro s s' hr hbeside
    have hown : s'.own i = s.own i := hr
    rw [hown]
    exact hbeside
  · rintro c s hc - ⟨t, ht, haside⟩
    refine ⟨Discipline.own_keeps c s, ⟨⟨i, c, s.world⟩ :: t, ?_, ?_⟩, .inr trivial⟩
    · rw [Snap.exec_own_self, ht, List.cons_append]
    · intro e he
      rcases List.mem_cons.mp he with rfl | he
      · exact hc
      · exact haside e he

theorem Beside.refl (own : List (Entry (analytics env))) : Beside own own :=
  ⟨[], rfl, fun _ he => nomatch he⟩

theorem conforms_incrementDropped (eventNameRaw : String) (receivedAt : Nat) :
    ((incrementIngestCounter eventNameRaw .dropped receivedAt).tryCatch
      fun _ => pure ()).Conforms Aside True := by
  refine Proc.Conforms.tryCatch ?_ fun _ => Proc.conforms_pure ()
  exact Proc.conforms_await (c := AnalyticsCmd.hourlyUpsert _ _ .dropped) rfl

/-- A refused event throws. -/
theorem refuse_valid {α : Type} (refusal : Refusal) (hs : Beside own (s.own i)) :
    Discipline.own.Valid (S := analytics env) o i (refuse (α := α) refusal)
      (fun r s' => (∃ err, r = .error err) ∧ Beside own (s'.own i)) s := by
  cases refusal with
  | typeError message => exact ⟨⟨_, rfl⟩, hs⟩
  | dropped eventName reason message =>
      have hrecord : (recordDropped eventName).Conforms Aside True :=
        (Proc.conforms_await (c := AnalyticsCmd.now) trivial).bind fun _ =>
          conforms_incrementDropped _ _
      refine Discipline.valid_bind ((aside_valid hrecord hs).weaken fun r s' hs' => ?_)
      cases r with
      | ok a => exact ⟨⟨_, rfl⟩, hs'⟩
      | error err => exact ⟨⟨err, rfl⟩, hs'⟩

/-- The handler never says that the event was accepted. -/
theorem handlePersistError_valid (input : EmitInput) (receivedAt : Nat) (err : Err)
    (hs : Beside own (s.own i)) :
    Discipline.own.Valid (S := analytics env) o i (handlePersistError input true receivedAt err)
      (fun r s' => (r = .ok ⟨false, some "duplicate_event_id"⟩ ∨ ∃ err, r = .error err) ∧
        Beside own (s'.own i)) s := by
  unfold handlePersistError
  split
  · have hdrop := conforms_incrementDropped input.name.text receivedAt
    refine Discipline.valid_bind ((aside_valid hdrop hs).weaken fun r s' hs' => ?_)
    cases r with
    | ok a => exact ⟨.inl rfl, hs'⟩
    | error err => exact ⟨.inr ⟨err, rfl⟩, hs'⟩
  · exact ⟨.inr ⟨err, rfl⟩, hs⟩

theorem answered_iff_of_inserted {r : Except Err TrackResult} (h : Inserted own) :
    Answered r own ↔ r = .ok ⟨true, none⟩ :=
  ⟨fun ha => ha.accepted h, fun hr => ⟨fun _ => hr, fun hnot => absurd h hnot⟩⟩

/-- Nothing has been inserted, and nothing is said to have been. -/
theorem answered_of_not_inserted {r : Except Err TrackResult} (h : ¬Inserted own)
    (hr : r = .ok ⟨false, some "duplicate_event_id"⟩ ∨ ∃ err, r = .error err) : Answered r own :=
  ⟨fun hin => absurd hin h, fun _ => hr⟩

theorem inserted_cons {e : Entry (analytics env)} (hcmd : ∃ data, e.cmd = .eventCreate data)
    (hok : ∃ a, e.res = .ok a) : Inserted (e :: own) := ⟨e, .head _, hcmd, hok⟩

theorem counted_cons {e : Entry (analytics env)} (h : Counted own)
    (he : (∃ hourStart eventName, e.cmd = .hourlyUpsert hourStart eventName .accepted) →
      e.before.fault = none) : Counted (e :: own) := by
  intro x hx
  rcases List.mem_cons.mp hx with rfl | hx
  · exact he
  · exact h x hx

theorem Aside.beside {e : Entry (analytics env)} (h : Aside e.cmd) : Beside own (e :: own) :=
  ⟨[e], rfl, fun x hx => by rw [List.mem_singleton.mp hx]; exact h⟩

theorem Beside.trans {own'' : List (Entry (analytics env))} (h : Beside own own')
    (h' : Beside own' own'') : Beside own own'' := by
  obtain ⟨t, rfl, ht⟩ := h
  obtain ⟨t', rfl, ht'⟩ := h'
  refine ⟨t' ++ t, (List.append_assoc ..).symm, fun e he => ?_⟩
  rcases List.mem_append.mp he with he | he
  · exact ht' e he
  · exact ht e he

/-- The increment of an accepted event, whose row is there. -/
theorem count_valid (input : EmitInput) (receivedAt : Nat) (hs : s.own i = own)
    (hin : Inserted own) (hcounted : Counted own) :
    Discipline.own.Valid (S := analytics env) o i
      (Proc.bind (incrementIngestCounter input.name.text .accepted receivedAt) fun _ =>
        pure (⟨true, none⟩ : TrackResult))
      (fun r s' => match r with
        | .ok a => Answered (.ok a) (s'.own i) ↔ Counted (s'.own i)
        | .error err => Discipline.own.Valid o i (handlePersistError input true receivedAt err)
            (fun r s' => Answered r (s'.own i) ↔ Counted (s'.own i)) s') s := by
  refine Discipline.own_await hs fun w s' hs' => ?_
  have hin' : Inserted (s'.own i) := by
    obtain ⟨x, hx, hcreate⟩ := hin
    rw [hs']
    exact ⟨x, .tail _ hx, hcreate⟩
  cases hfault : w.fault with
  | none =>
      have hok : ∀ hourStart eventName,
          ((analytics env).exec (.hourlyUpsert hourStart eventName .accepted) w).1 = .ok () :=
        fun _ _ => congrArg Prod.fst (hourlyUpsert_ok hfault _ _ _)
      rw [hok]
      change Answered _ (s'.own i) ↔ Counted (s'.own i)
      rw [answered_iff_of_inserted hin', hs']
      exact ⟨fun _ => counted_cons hcounted fun _ => hfault, fun _ => rfl⟩
  | some err =>
      have herr : ∀ hourStart eventName,
          ((analytics env).exec (.hourlyUpsert hourStart eventName .accepted) w).1 = .error err :=
        fun _ _ => congrArg Prod.fst (hourlyUpsert_fault hfault _ _ _)
      rw [herr]
      refine (handlePersistError_valid input receivedAt err (.refl (s'.own i))).weaken
        fun r s'' ⟨hr, hb⟩ => ?_
      rw [hb.counted, answered_iff_of_inserted (hb.inserted.mpr hin'), hs']
      constructor
      · rintro rfl
        rcases hr with hr | ⟨err, hr⟩ <;> cases hr
      · intro hall
        have hnone : w.fault = none := hall _ (.head _) ⟨_, _, rfl⟩
        rw [hfault] at hnone
        cases hnone

/-- **`persistEvent`**, of a call that has inserted nothing yet. -/
theorem persistEvent_valid (input : EmitInput) (hs : Beside [] (s.own i)) :
    Discipline.own.Valid (S := analytics env) o i (persistEvent input true)
      (fun r s' => Answered r (s'.own i) ↔ Counted (s'.own i)) s := by
  refine Discipline.own_await rfl fun w₁ s₁ hs₁ => ?_
  have hs₁' : Beside [] (s₁.own i) := by
    rw [hs₁]
    exact hs.trans (Aside.beside trivial)
  refine Discipline.valid_tryCatch (Discipline.own_await rfl fun w₂ s₂ hs₂ => ?_)
  have hcounted : Counted (s₂.own i) := by
    rw [hs₂]
    refine counted_cons (hs₁'.counted.mpr fun e he => nomatch he) ?_
    exact fun ⟨_, _, hcmd⟩ => nomatch hcmd
  cases hres : ((AnalyticsCmd.eventCreate (input.row w₁.clock)).exec w₂).1 with
  | ok a =>
      have hin : Inserted (s₂.own i) := by
        rw [hs₂]
        exact inserted_cons ⟨_, rfl⟩ ⟨a, hres⟩
      rw [Discipline.resumes_ok]
      refine (count_valid (o := o) input w₁.clock rfl hin hcounted).weaken fun r s' h => ?_
      cases r <;> exact h
  | error err =>
      refine (handlePersistError_valid input w₁.clock err (.refl (s₂.own i))).weaken
        fun r s' ⟨hr, hb⟩ => ?_
      have hnot : ¬Inserted (s₂.own i) := by
        rw [hs₂]
        rintro ⟨e, he, hcmd, a, ha⟩
        rcases List.mem_cons.mp he with rfl | he
        · change ((AnalyticsCmd.eventCreate _).exec w₂).1 = .ok a at ha
          rw [hres] at ha
          cases ha
        · exact nomatch (hs₁'.inserted.mp ⟨e, he, hcmd, a, ha⟩).choose_spec.1
      have hanswered := answered_of_not_inserted (fun hin => hnot (hb.inserted.mp hin)) hr
      exact ⟨fun _ => hb.counted.mpr hcounted, fun _ => hanswered⟩

theorem trackClientEvent_valid (userId : UserId) (event : ClientEvent) (context : ClientContext)
    (hs : s.own i = []) :
    Discipline.own.Valid (S := analytics env) o i (trackClientEvent env userId event context)
      (fun r s' => Answered r (s'.own i) ↔ Counted (s'.own i)) s := by
  refine Discipline.own_await hs fun w₁ s₁ hs₁ => Discipline.own_await hs₁ fun w₂ s₂ hs₂ => ?_
  have hbeside : Beside [] (s₂.own i) := by
    rw [hs₂]
    exact (Aside.beside (e := ⟨i, .now, w₁⟩) trivial).trans (Aside.beside trivial)
  change Discipline.own.Valid (S := analytics env) o i
    (trackNormalized
      (normalizeEvent env w₁.clock (freshId w₂.uuids) (event.raw userId context) true)) _ s₂
  cases normalizeEvent env w₁.clock (freshId w₂.uuids) (event.raw userId context) true with
  | ok normalized => exact persistEvent_valid normalized hbeside
  | error refusal =>
      refine (refuse_valid refusal hbeside).weaken fun r s' h => ?_
      obtain ⟨hr, hb⟩ := h
      have hnot : ¬Inserted (s'.own i) := fun hin => by
        obtain ⟨e, he, -⟩ := hb.inserted.mp hin
        cases he
      have hcounted : Counted (s'.own i) := hb.counted.mpr fun e he => absurd he List.not_mem_nil
      exact ⟨fun _ => hcounted, fun _ => answered_of_not_inserted hnot (.inr hr)⟩

end Calls

/-- **Run lemma.** A client is told the truth exactly if no increment of the
call has failed. -/
theorem honest_run (w : AnalyticsWorld) (es : List (Event (analytics env))) {o : AnalyticsOp} {i : Nat}
    {r : Except Err o.Ret} (h : ((Config.initial w).run es).Settled i o r) :
    Honest o r (((Config.initial w).run es).toSnap.own i) := by
  refine Discipline.own_settled (S := analytics env) (Q := Honest) (fun o i s hs => ?_) es h
  cases o with
  | trackClientEvent userId event context => exact trackClientEvent_valid userId event context hs
  | trackServerEvent input => exact Discipline.own_trivial _

/-! ## Exactly once -/

/-- A client who has been answered knows whether the row is there. -/
def Truthful (c : Config (analytics env)) : Prop :=
  ∀ i userId event context r, c.Settled i (.trackClientEvent userId event context) r →
    Answered r (c.toSnap.own i)

/-- No UUID has two rows, in any state that is reached, and all answers are
right. -/
structure ExactlyOnce (w : AnalyticsWorld) (es : List (Event (analytics env))) : Prop where
  stored : ∀ es₁ es₂, es = es₁ ++ es₂ → StoredOnce ((Config.initial w).run es₁).world
  truthful : Truthful ((Config.initial w).run es)

/-- Rows of one UUID are spelled alike, and no increment fails that counts an
accepted event of a client. -/
structure Undisturbed (w : AnalyticsWorld) (es : List (Event (analytics env))) : Prop where
  alike : (Config.initial w).Obeys SpellsAlike es
  counted : ∀ i userId event context r,
    ((Config.initial w).run es).Settled i (.trackClientEvent userId event context) r →
      Counted (((Config.initial w).run es).toSnap.own i)

/-- **When events are stored exactly once.** From a table without doubles, for
every interleaving of calls of clients and of the backend and every pattern of
failing statements: no UUID gets two rows and every client is answered
truthfully, exactly if no row is inserted while its UUID is there in another
spelling, and no increment fails after its row has been inserted. -/
theorem exactlyOnce_iff {w : AnalyticsWorld} (hw : StoredOnce w) (es : List (Event (analytics env))) :
    ExactlyOnce w es ↔ Undisturbed w es := by
  have halike := Config.always_iff_obeys (P := fun c => StoredOnce c.world)
    (c := (Config.initial w : Config (analytics env))) (fun c e hc => storedOnce_next hc e) es hw
  constructor
  · rintro ⟨hstored, htruthful⟩
    refine ⟨halike.mp hstored, fun i userId event context r h => ?_⟩
    exact (honest_run w es h).mp (htruthful i userId event context r h)
  · rintro ⟨hobeys, hcounted⟩
    refine ⟨halike.mpr hobeys, fun i userId event context r h => ?_⟩
    exact (honest_run w es h).mpr (hcounted i userId event context r h)

/-! ## Two spellings, and a failing increment -/

def anywhere : AnalyticsEnv := ⟨none, none, none⟩

def emptyTables : AnalyticsWorld := ⟨0, 0, [], [], none⟩

/-- The `i`th call, which submits an event with this id; nothing else happens
until its row has been inserted. -/
def submits (i : Nat) (eventId : String) : List (Event (analytics anywhere)) :=
  .start (.trackClientEvent "ann" ⟨some (.str "session_started"), none⟩
    ⟨none, none, none, none, none, some (.str eventId), none, none⟩) :: List.replicate 4 (.step i)

def lowerAndUpper : List (Event (analytics anywhere)) :=
  submits 0 "3f2504e0-4f89-41d3-9a0c-0305e82c3301" ++ ([.step 0] : List (Event (analytics anywhere))) ++
    submits 1 "3F2504E0-4F89-41D3-9A0C-0305E82C3301" ++ ([.step 1] : List (Event (analytics anywhere)))

/-- Both calls are accepted. -/
theorem stored_twice : ¬∀ es : List (Event (analytics anywhere)), ExactlyOnce emptyTables es := by
  intro hall
  have honce := (hall lowerAndUpper).stored lowerAndUpper [] (List.append_nil _).symm
  revert honce
  decide +kernel

theorem exactlyOnce_iff_lowerAndUpper :
    ExactlyOnce emptyTables lowerAndUpper ↔ Undisturbed emptyTables lowerAndUpper :=
  exactlyOnce_iff (by decide) lowerAndUpper

/-- The row is stored; then two upserts of the same hour collide. -/
def upsertsCollide : List (Event (analytics anywhere)) :=
  submits 0 "3f2504e0-4f89-41d3-9a0c-0305e82c3301" ++
    ([.env (.fault (.prisma "P2002")), .step 0, .step 0] : List (Event (analytics anywhere)))

/-- The client is told that the id has been used before. -/
example : ((Config.initial emptyTables).run upsertsCollide).world.events.length = 1 ∧
    ((Config.initial emptyTables).run upsertsCollide).calls.map (fun t => match t with
      | ⟨.trackClientEvent _ _ _, .ret (.ok r)⟩ => some r
      | _ => none) = [some ⟨false, some "duplicate_event_id"⟩] := by
  decide +kernel

end VerityBackend.Analytics
