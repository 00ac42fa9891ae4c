/-
VerityBackend.Mobile.Resolution — when a resolved decision stays resolved on
the decision screen.

`submitChoice` writes the status after its request whatever has happened in
between, and a choice that has not been made is made by the timer. So an
answer from before the decision that arrives after the event undoes it
(`not_lasting_pending`), as does an attempt to choose that is not stopped by
`submittedRef`. `resolved_lasts_iff`: nothing else does, and what the client
shows is what the server has decided.
-/
import VerityBackend.Async.Discipline
import VerityBackend.Mobile.UseDecision

namespace VerityBackend.Mobile

open Async

variable {server : DecisionServer} {sessionId : Option String}

/-! ## What the two channels say -/

/-- The outcome an answer tells. -/
def told (response : Response ChoiceData) : Option Outcome :=
  if response.ok then (resolution response).map (·.result.outcome) else none

/-- The answer makes the hook leave whatever state it is in for `waiting` or
`idle`. -/
def reopens (response : Response ChoiceData) : Bool :=
  !unauthorized response && (told response).isNone

/-- The hook is resolved, and shows this outcome. -/
def Shows (o : Outcome) (h : UseDecision) : Prop :=
  h.status = .resolved ∧ h.result.map (·.outcome) = some o

/-- The hook is resolved with a result. -/
def Decided (h : UseDecision) : Prop := ∃ o, Shows o h

theorem decided_iff (h : UseDecision) :
    Decided h ↔ h.status = .resolved ∧ h.result.isSome = true := by
  unfold Decided Shows
  cases h.result <;> simp

instance (h : UseDecision) : Decidable (Decided h) := decidable_of_iff _ (decided_iff h).symm

instance (o : Outcome) (h : UseDecision) : Decidable (Shows o h) :=
  inferInstanceAs (Decidable (_ ∧ _))

theorem ok_authorized {response : Response ChoiceData} (h : response.ok = true) :
    unauthorized response = false := by
  simp only [Response.ok, Bool.and_eq_true, decide_eq_true_eq] at h
  simp only [unauthorized, Bool.or_eq_false_iff, beq_eq_false_iff_ne]
  omega

theorem attempt_result (h : UseDecision) (next : DecisionChoice) :
    (h.attempt next).result = h.result := by
  unfold UseDecision.attempt
  split <;> rfl

theorem attempt_status (h : UseDecision) (next : DecisionChoice) :
    (h.attempt next).status = .resolved → h.status = .resolved := by
  unfold UseDecision.attempt
  split
  · exact id
  · nofun

/-- Three things an answer can do to the hook. -/
theorem settle_cases (h : UseDecision) (response : Response ChoiceData) :
    (∃ o, told response = some o ∧ reopens response = false ∧ Shows o (h.settle response)) ∨
    (told response = none ∧ reopens response = false ∧ h.settle response = h) ∨
    (told response = none ∧ reopens response = true ∧ (h.settle response).status ≠ .resolved ∧
      (h.settle response).result = h.result) := by
  unfold UseDecision.settle reopens told
  cases hauth : unauthorized response with
  | true =>
      have hok : response.ok = false := by
        cases hok : response.ok with
        | false => rfl
        | true => exact absurd (ok_authorized hok) (by rw [hauth]; simp)
      refine .inr (.inl ?_)
      simp [hok]
  | false =>
      cases hok : response.ok with
      | false => exact .inr (.inr (by simp))
      | true =>
          cases hres : resolution response with
          | some data => exact .inl ⟨data.result.outcome, by simp [Shows]⟩
          | none => exact .inr (.inr (by simp))

/-! ## One decision -/

/-- What has been decided is not decided again. -/
def Final (server : DecisionServer) (s s' : server.State) : Prop :=
  server.decision s = none ∨ server.decision s' = server.decision s

/-- The answer is one of a server that has decided so, or not at all. -/
def Agreed (decided : Option Outcome) : Except ClientError (Response ChoiceData) → Prop
  | .error _ => True
  | .ok response => (∀ o ∈ told response, decided = some o) ∧
      (told response = none → response.ok = true → decided = none)

/-- A request is answered by a server that keeps to its decision. -/
def Honest (server : DecisionServer) (s : server.State) : DecisionCmd → Prop
  | .request sessionId next =>
      let answered := server.choice sessionId next s
      Final server s answered.2 ∧ Agreed (server.decision answered.2) answered.1
  | _ => True

/-- Answers and events agree with one decision of the server. -/
def Consistent (c : Config (useDecision server sessionId)) :
    Event (useDecision server sessionId) → Prop
  | .start _ => True
  | .step i => ∀ cmd ∈ c.pending i, Honest server c.world.server cmd
  | .env (.deliver event) =>
      event.foreign sessionId = true ∨
        server.decision c.world.server = some event.result.outcome
  | .env (.server f) => Final server c.world.server (f c.world.server)

/-- An attempt to choose that is not stopped by `submittedRef`, or an answer
that makes the hook leave its state. -/
def DecisionCmd.reopens (h : UseDecision) : DecisionCmd → Bool
  | .attempt _ => !h.submittedRef
  | .settle response => Mobile.reopens response
  | _ => false

def Reopens (c : Config (useDecision server sessionId)) :
    Event (useDecision server sessionId) → Prop
  | .step i => (c.pending i).any (·.reopens c.world.hook) = true
  | _ => False

instance (server : DecisionServer) (s s' : server.State) : Decidable (Final server s s') :=
  inferInstanceAs (Decidable (_ ∨ _))

instance (decided : Option Outcome) (answer : Except ClientError (Response ChoiceData)) :
    Decidable (Agreed decided answer) :=
  match answer with
  | .error _ => .isTrue trivial
  | .ok _ => inferInstanceAs (Decidable (_ ∧ _))

instance (server : DecisionServer) (s : server.State) (cmd : DecisionCmd) :
    Decidable (Honest server s cmd) :=
  match cmd with
  | .request _ _ => inferInstanceAs (Decidable (_ ∧ _))
  | .startTimer | .timeout | .attempt _ | .settle _ => .isTrue trivial

instance (c : Config (useDecision server sessionId)) (e : Event (useDecision server sessionId)) :
    Decidable (Consistent c e) :=
  match e with
  | .start _ => .isTrue trivial
  | .step i => inferInstanceAs (Decidable (∀ cmd ∈ c.pending i, Honest server c.world.server cmd))
  | .env (.deliver _) => inferInstanceAs (Decidable (_ ∨ _))
  | .env (.server f) => inferInstanceAs (Decidable (Final server c.world.server (f c.world.server)))

instance (c : Config (useDecision server sessionId)) (e : Event (useDecision server sessionId)) :
    Decidable (Reopens c e) :=
  match e with
  | .step i => inferInstanceAs (Decidable ((c.pending i).any (·.reopens c.world.hook) = true))
  | .start _ | .env _ => .isFalse id

theorem Final.decided {s s' : server.State} {o : Outcome} (h : Final server s s')
    (ho : server.decision s = some o) : server.decision s' = some o := by
  rcases h with h | h
  · rw [h] at ho
    cases ho
  · rw [h, ho]

/-! ## The discipline -/

/-- The hook shows what the server has decided. -/
structure Told (s : Snap (useDecision server sessionId)) : Prop where
  result : s.world.hook.status = .resolved → s.world.hook.result.isSome = true
  decision : ∀ o, s.world.hook.result.map (·.outcome) = some o →
    server.decision s.world.server = some o

/-- The server has decided what the answer tells. -/
def Truthful (server : DecisionServer) (response : Response ChoiceData) (s : server.State) : Prop :=
  ∀ o, told response = some o → server.decision s = some o

variable (server sessionId) in
/-- The server keeps to its decision, so an answer that has told it once is
right whenever it arrives. -/
def telling : Discipline (useDecision server sessionId) where
  inv := Told
  admits _ _ c s := Honest server s.world.server c
  rely _ s s' := ∀ o, server.decision s.world.server = some o →
    server.decision s'.world.server = some o
  guar _ _ c s :=
    match c with
    | .settle response => Truthful server response s.world.server
    | _ => True
  rely_refl _ _ _ h := h
  rely_trans _ _ _ _ h h' o ho := h' o (h o ho)

variable {o : DecisionOp} {i : Nat} {s : Snap (useDecision server sessionId)}

/-- A command that leaves the server, the result and what is resolved alone. -/
theorem telling_keeps {c : DecisionCmd} (hinv : Told s)
    (hserver : (c.exec server s.world).2.server = s.world.server)
    (hresult : (c.exec server s.world).2.hook.result = s.world.hook.result)
    (hstatus : (c.exec server s.world).2.hook.status = .resolved → s.world.hook.status = .resolved)
    (hguar : (telling server sessionId).guar o i c s) : (telling server sessionId).Keeps o i c s where
  guar := hguar
  inv := by
    refine ⟨fun h => ?_, fun o ho => ?_⟩
    · rw [Snap.exec_world, hresult]
      exact hinv.result (hstatus h)
    · rw [Snap.exec_world, hresult] at ho
      rw [Snap.exec_world, hserver]
      exact hinv.decision o ho
  rely := by
    intro j _ o ho
    rw [Snap.exec_world, hserver]
    exact ho

theorem settle_keeps {response : Response ChoiceData} (hinv : Told s)
    (htrue : Truthful server response s.world.server) :
    (telling server sessionId).Keeps o i (.settle response) s where
  guar := htrue
  inv := by
    rcases settle_cases s.world.hook response with ⟨o, hout, -, hshows⟩ | ⟨-, -, hsame⟩ |
      ⟨-, -, hstatus, hresult⟩
    · refine ⟨fun _ => ?_, fun o' ho' => ?_⟩
      · obtain ⟨r, hr, -⟩ := Option.map_eq_some_iff.mp hshows.2
        exact Option.isSome_iff_exists.mpr ⟨r, hr⟩
      · obtain rfl := Option.some.inj (hshows.2.symm.trans ho')
        exact htrue o hout
    · change Told ⟨⟨s.world.hook.settle response, s.world.server⟩, _⟩
      rw [hsame]
      exact ⟨hinv.result, hinv.decision⟩
    · refine ⟨fun h => absurd h hstatus, fun o ho => hinv.decision o ?_⟩
      rw [← hresult]
      exact ho
  rely := fun _ _ _ ho => ho

theorem valid_submitChoice (next : DecisionChoice) :
    (telling server sessionId).Valid o i (submitChoice sessionId next) (fun _ _ => True) s := by
  unfold submitChoice
  split
  · trivial
  · next id _ =>
    refine Discipline.valid_await fun s₁ _ hinv₁ _ => ?_
    refine ⟨telling_keeps hinv₁ rfl (attempt_result _ next) (attempt_status _ next) trivial, ?_⟩
    change (telling server sessionId).Valid _ _ (ite _ _ _) _ _
    split
    · refine Discipline.valid_await fun s₂ _ hinv₂ ha => ?_
      obtain ⟨hfinal, hagreed⟩ := ha
      refine ⟨⟨trivial, ⟨hinv₂.result, fun o ho => hfinal.decided (hinv₂.decision o ho)⟩,
        fun j _ o ho => hfinal.decided ho⟩, ?_⟩
      change (telling server sessionId).Resumes _ _ _ _ (server.choice id next s₂.world.server).1 _
      cases hans : (server.choice id next s₂.world.server).1 with
      | error e => trivial
      | ok response =>
          have htrue : Truthful server response
              (s₂.exec i (.request id next)).world.server := by
            rw [hans] at hagreed
            exact hagreed.1
          intro s₃ hrely hinv₃ _
          exact ⟨settle_keeps hinv₃ fun o ho => hrely o (htrue o ho), trivial⟩
    · trivial

theorem valid_code (op : DecisionOp) :
    (telling server sessionId).Valid o i (op.code sessionId) (fun _ _ => True) s := by
  cases op with
  | submitChoice next => exact valid_submitChoice next
  | startAutoPass =>
      refine Discipline.valid_await fun s₁ _ hinv₁ _ => ⟨telling_keeps hinv₁ rfl rfl id trivial, ?_⟩
      change (telling server sessionId).Valid _ _ (ite _ _ _) _ _
      split
      · refine Discipline.valid_await fun s₂ _ hinv₂ _ => ⟨telling_keeps hinv₂ rfl rfl id trivial, ?_⟩
        change (telling server sessionId).Valid _ _ (ite _ _ _) _ _
        split
        · exact valid_submitChoice .PASS
        · trivial
      · trivial

theorem telling_governs : (telling server sessionId).Governs Consistent fun _ _ _ _ => True where
  start _ o _ _ _ := valid_code o
  step c i o cmd k hok hc _ := hok cmd (Config.pending_of_call hc)
  env c e hok hinv := by
    cases e with
    | server f =>
        have hfinal : Final server c.world.server (f c.world.server) := hok
        exact ⟨⟨hinv.result, fun o ho => hfinal.decided (hinv.decision o ho)⟩,
          fun _ o ho => hfinal.decided ho⟩
    | deliver event =>
        refine ⟨?_, fun _ o ho => ho⟩
        change Told ⟨⟨c.world.hook.handle sessionId event, c.world.server⟩, c.trace⟩
        unfold UseDecision.handle
        split
        · exact hinv
        · next hown =>
          refine ⟨fun _ => rfl, fun o ho => ?_⟩
          rw [← ho]
          exact hok.resolve_left hown

/-! ## What becomes of a resolved decision -/

/-- **Step lemma**: what is shown stays, unless the event reopens it. -/
theorem shows_next_iff {o : Outcome} {c : Config (useDecision server sessionId)}
    {e : Event (useDecision server sessionId)} (hok : Consistent c e)
    (hs : (telling server sessionId).Sound (fun _ _ _ _ => True) c)
    (hshows : Shows o c.world.hook) : Shows o (c.next e).world.hook ↔ ¬Reopens c e := by
  have hdecided : server.decision c.world.server = some o := hs.inv.decision o hshows.2
  cases e with
  | start op => exact ⟨fun _ => id, fun _ => hshows⟩
  | env e =>
      cases e with
      | server f => exact ⟨fun _ => id, fun _ => hshows⟩
      | deliver event =>
          refine ⟨fun _ => id, fun _ => ?_⟩
          change Shows o (c.world.hook.handle sessionId event)
          unfold UseDecision.handle
          split
          · exact hshows
          · next hown =>
            have hsame := hok.resolve_left hown
            rw [hdecided] at hsame
            exact ⟨rfl, hsame.symm⟩
  | step i =>
      cases hp : c.pending i with
      | none =>
          rw [Config.next_step_of_pending_none hp]
          simp [Reopens, hp, hshows]
      | some cmd =>
          obtain ⟨op, k, hc⟩ := Config.pending_eq_some.mp hp
          have hguar := (hs.keeps telling_governs hok hc).1.guar
          rw [Config.next_step_of_call hc]
          rw [Reopens, hp, Option.any_some]
          cases cmd with
          | startTimer => exact ⟨fun _ => Bool.false_ne_true, fun _ => hshows⟩
          | timeout => exact ⟨fun _ => Bool.false_ne_true, fun _ => hshows⟩
          | request sessionId next => exact ⟨fun _ => Bool.false_ne_true, fun _ => hshows⟩
          | attempt next =>
              change Shows o (c.world.hook.attempt next) ↔ ¬(!c.world.hook.submittedRef) = true
              unfold UseDecision.attempt
              cases hsub : c.world.hook.submittedRef with
              | true => simp [hshows]
              | false => simp [Shows]
          | settle response =>
              change Shows o (c.world.hook.settle response) ↔ ¬reopens response = true
              rcases settle_cases c.world.hook response with ⟨o', hout, hstays, hshows'⟩ |
                ⟨-, hstays, hsame⟩ | ⟨-, hreopens, hstatus, -⟩
              · have hsame := hguar o' hout
                rw [hdecided] at hsame
                obtain rfl := Option.some.inj hsame
                simp [hstays, hshows']
              · simp [hstays, hsame, hshows]
              · rw [hreopens]
                exact ⟨fun h => absurd h.1 hstatus, fun h => absurd rfl h⟩

/-- A resolved decision stays resolved, as the server has decided, exactly if
nothing reopens it. -/
theorem resolved_lasts_iff (server : DecisionServer) (sessionId : Option String) (s : server.State)
    (es : List (Event (useDecision server sessionId)))
    (hes : (Config.initial ⟨.mounted, s⟩ : Config (useDecision server sessionId)).Obeys
      Consistent es) :
    let c : Config (useDecision server sessionId) := Config.initial ⟨.mounted, s⟩
    (∀ o es₁ es₂ es₃, es = es₁ ++ es₂ ++ es₃ → Shows o (c.run es₁).world.hook →
      Shows o (c.run (es₁ ++ es₂)).world.hook ∧
        server.decision (c.run (es₁ ++ es₂)).world.server = some o) ↔
    c.Obeys (fun (c : Config (useDecision server sessionId)) e =>
      Decided c.world.hook → ¬Reopens c e) es := by
  intro c
  have hsound : (telling server sessionId).Sound (fun _ _ _ _ => True) c :=
    Discipline.sound_initial ⟨nofun, nofun⟩
  have hlasting : Config.Lasting (fun o (c : Config (useDecision server sessionId)) =>
      Shows o c.world.hook) (fun _ _ _ => True) c es ↔
      c.Obeys (fun (c : Config (useDecision server sessionId)) e =>
        ∀ o, Shows o c.world.hook → True → ¬Reopens c e) es :=
    Config.lasting_iff_obeys (fun _ _ hok h => Discipline.Sound.next telling_governs hok h)
      (fun o c _ hok hs (hshows : Shows o c.world.hook) _ => shows_next_iff hok hs hshows) hes hsound
  constructor
  · intro h
    have hobeys := hlasting.mp fun o es₁ es₂ es₃ hsplit hshows _ =>
      (h o es₁ es₂ es₃ hsplit hshows).1
    exact hobeys.mono fun c e hkeeps ⟨o, hshows⟩ => hkeeps o hshows trivial
  · intro h o es₁ es₂ es₃ hsplit hshows
    have hlast := hlasting.mpr (h.mono fun c e hkeeps o hshows _ => hkeeps ⟨o, hshows⟩) o es₁ es₂ es₃
      hsplit hshows (Config.obeys_of_forall (fun _ _ => trivial) _ es₂)
    rw [hsplit, Config.obeys_append] at hes
    exact ⟨hlast, (hsound.run telling_governs hes.1).inv.decision o hlast.2⟩

/-! ## One person and one server -/

/-- A server that answers with its decision, and with `pending` before. -/
def plainServer : DecisionServer where
  State := Option Outcome
  choice _ _ decided :=
    (.ok ⟨201, some ⟨some (if decided = none then "pending" else "resolved"),
      some (if decided = some .mutual then "mutual" else "non_mutual"), none, none, none⟩⟩, decided)
  decision := id

/-- The choice is answered after the decision, and before the event. -/
theorem resolved_lasts_told :
    let es : List (Event (useDecision plainServer (some "s"))) :=
      [.start (.submitChoice .MATCH), .step 0, .env (.server fun _ => some .mutual), .step 0, .step 0,
        .env (.deliver (.mutual (some ⟨some "s", some "m", none, none⟩)))]
    let c : Config (useDecision plainServer (some "s")) := Config.initial ⟨.mounted, none⟩
    ∀ o es₁ es₂ es₃, es = es₁ ++ es₂ ++ es₃ → Shows o (c.run es₁).world.hook →
      Shows o (c.run (es₁ ++ es₂)).world.hook ∧
        plainServer.decision (c.run (es₁ ++ es₂)).world.server = some o :=
  (resolved_lasts_iff plainServer (some "s") none _ (by decide +kernel)).mpr (by decide +kernel)

/-- The choice is answered with `pending`; the answer arrives after the event
that announces the match. -/
theorem not_lasting_pending :
    ¬∀ (server : DecisionServer) (sessionId : Option String) (s : server.State)
        (es : List (Event (useDecision server sessionId))),
      (Config.initial ⟨.mounted, s⟩ : Config (useDecision server sessionId)).Obeys Consistent es →
      let c : Config (useDecision server sessionId) := Config.initial ⟨.mounted, s⟩
      ∀ o es₁ es₂ es₃, es = es₁ ++ es₂ ++ es₃ → Shows o (c.run es₁).world.hook →
        Shows o (c.run (es₁ ++ es₂)).world.hook ∧
          server.decision (c.run (es₁ ++ es₂)).world.server = some o := by
  intro hall
  let es₁ : List (Event (useDecision plainServer (some "s"))) :=
    [.start (.submitChoice .MATCH), .step 0, .step 0, .env (.server fun _ => some .mutual),
      .env (.deliver (.mutual (some ⟨some "s", some "m", none, none⟩)))]
  have hlast := (hall plainServer (some "s") none (es₁ ++ [.step 0]) (by decide +kernel) .mutual es₁
    [.step 0] [] (by simp) (by decide +kernel)).1
  revert hlast
  decide +kernel

end VerityBackend.Mobile
