/-
VerityBackend.Session.FirstChoice — whether the first choice stands.

`submitChoice` looks for a choice of the participant and, some awaits
later, stores the new one whatever is there by then. In runs in which every
`HSET` finds the field empty, the choice stored stays as it is and is
announced once (`first_choice_stands`): a call announces what it has stored
(`affords_submitChoice`), and the field has room for one. Two calls of one
participant that both read before either stores are enough for a second
choice (`second_choice_replaces`).
-/
import VerityBackend.Async.Credit
import VerityBackend.Backend.Frames
import VerityBackend.Session.Choosing

namespace VerityBackend.Sessions

open Async

/-! ## Choices and their announcements -/

/-- The command stores a choice of the participant. -/
def storesChoice (id : SessionId) (user : UserId) : Cmd → Bool
  | .redis (.hset id' user' _) => id' == id && user' == user
  | _ => false

/-- The event of a choice of the participant. -/
def isSubmissionOf (id : SessionId) (user : UserId) : Output → Bool
  | .track user' name properties =>
      user' == user && name == "session_choice_submitted" &&
        decide (properties.lookup "sessionId" = some (.str id))
  | _ => false

/-- How many choices of the participant the command announces. -/
def submissions (id : SessionId) (user : UserId) : Cmd → Nat
  | .host (.emit os) => os.countP (isSubmissionOf id user)
  | _ => 0

/-- A choice hash is not made to expire at once. -/
def Patient : Cmd → Prop
  | .redis (.pexpireChoices _ ttl) => 0 < ttl
  | _ => True

section Commands

variable {id : SessionId} {user : UserId}

theorem not_decisionEvent {o : Output} (h : isSubmissionOf id user o = true) :
    isDecisionEvent o = false := by
  cases o with
  | track user' name properties =>
      simp only [isSubmissionOf, Bool.and_eq_true, beq_iff_eq] at h
      obtain rfl := h.1.2
      rfl
  | _ => cases h

/-- Only an `HSET` of the participant's field changes it. -/
theorem choice_exec {c : Cmd} (hpatient : Patient c) (hstores : storesChoice id user c = false)
    (w : World) : (c.exec w).2.choice id user = w.choice id user := by
  by_cases hmoves : c.movesChoices id
  · cases c with
    | db c | host c => exact hmoves.elim
    | redis c =>
        cases c with
        | hset id' user' v =>
            obtain rfl : id = id' := hmoves
            refine World.choice_setChoice_ne w id v ?_
            rintro rfl
            simp [storesChoice] at hstores
        | pexpireChoices id' ttl =>
            obtain ⟨-, rfl⟩ := hmoves
            exact absurd hpatient (Nat.lt_irrefl 0)
        | _ => exact hmoves.elim
  · unfold World.choice
    rw [Cmd.choices_exec hmoves]

theorem exists_choice_of_stores {c : Cmd} (h : storesChoice id user c = true) (w : World) :
    ∃ v, (c.exec w).2.choice id user = some v := by
  unfold storesChoice at h
  split at h
  · next id' user' v =>
      simp only [Bool.and_eq_true, beq_iff_eq] at h
      obtain ⟨rfl, rfl⟩ := h
      exact ⟨v, World.choice_setChoice_self w id' user' v⟩
  · cases h

/-- A command that stores no choice of the participant and announces none. -/
structure Reticent (id : SessionId) (user : UserId) (c : Cmd) : Prop where
  patient : Patient c
  free : submissions id user c = 0

theorem Deciding.reticent {c : Cmd} (h : Deciding c) : Reticent id user c := by
  cases h with
  | expire id' hpos => exact ⟨hpos, rfl⟩
  | announce os hos =>
      refine ⟨trivial, List.countP_eq_zero.mpr fun o ho hof => ?_⟩
      have hevent := not_decisionEvent hof
      rw [hos o ho] at hevent
      cases hevent
  | _ => exact ⟨trivial, rfl⟩

theorem Recovering.reticent {c : Cmd} (h : Recovering c) : Reticent id user c := by
  cases h with
  | deciding h => exact h.reticent
  | _ => exact ⟨trivial, rfl⟩

/-! ## The procedures -/

variable (id user) in
abbrev Reticently {α : Type} (p : Prog α) : Prop := p.Conforms (Reticent id user) True

theorem reticent_await {c : Cmd} (h : Reticent id user c) : Reticently id user (Proc.await c) :=
  Proc.conforms_await h

theorem reticent_get (k : RedisKey) : Reticently id user (redis (.get k)) :=
  reticent_await (c := .redis (.get k)) ⟨trivial, rfl⟩

theorem reticent_now : Reticently id user (host .now) :=
  reticent_await (c := .host .now) ⟨trivial, rfl⟩

theorem reticent_findSession (sessionId : SessionId) :
    Reticently id user (prisma (.sessionFindUnique sessionId)) :=
  reticent_await (c := .db (.sessionFindUnique sessionId)) ⟨trivial, rfl⟩

theorem Decides.reticently {α : Type} {p : Prog α} (hp : Decides p) : Reticently id user p :=
  Proc.Conforms.mono hp fun _ => Deciding.reticent

theorem reticently_ensureChoiceDeadline (sessionId : SessionId) :
    Reticently id user (ensureChoiceDeadline sessionId) := by
  unfold ensureChoiceDeadline
  refine (reticent_get _).bind fun existing => ?_
  split
  · exact Proc.conforms_pure _
  · have hset (deadline : Nat) : Reticent id user (.redis
        (.setNX (.sessionChoiceDeadline sessionId) (.date deadline) CHOICE_STATE_TTL_MS)) :=
      ⟨trivial, rfl⟩
    exact reticent_now.bind fun _ => (reticent_await (hset _)).bind fun _ => Proc.conforms_pure _

variable (id user) in
/-- A choice stored pays for one announcement. -/
abbrev Submits {α : Type} (p : Prog α) (credits : Nat) : Prop :=
  p.Affords Patient (fun c _ => (storesChoice id user c).toNat) (submissions id user) credits

theorem submits_of_reticently {α : Type} {p : Prog α} (hp : Reticently id user p) (credits : Nat) :
    Submits id user p credits :=
  Proc.affords_of_conforms (Proc.Conforms.mono hp fun _ h => ⟨h.patient, h.free⟩)

theorem Reticently.submits {α β : Type} {p : Prog α} (hp : Reticently id user p) {credits : Nat}
    {f : α → Prog β} (hf : ∀ a, Submits id user (f a) credits) :
    Submits id user (p.bind f) credits :=
  Proc.Affords.after (Proc.Conforms.mono hp fun _ h => ⟨h.patient, h.free⟩) hf

/-- The announcement is of the choice that the same call has stored. -/
theorem submissions_le (sessionId : SessionId) (userId : UserId) (choice : SessionChoice) :
    submissions id user (.host (.emit [.track userId "session_choice_submitted"
        [("sessionId", .str sessionId), ("choice", .str (choiceName choice))]])) ≤
      (storesChoice id user (.redis (.hset sessionId userId choice))).toNat := by
  by_cases h : sessionId = id ∧ userId = user
  · obtain ⟨rfl, rfl⟩ := h
    have hlength : submissions sessionId userId (.host (.emit [.track userId
        "session_choice_submitted" [("sessionId", .str sessionId),
          ("choice", .str (choiceName choice))]])) ≤ 1 := List.countP_le_length
    simpa [storesChoice] using hlength
  · have hnone : submissions id user (.host (.emit [.track userId "session_choice_submitted"
        [("sessionId", .str sessionId), ("choice", .str (choiceName choice))]])) = 0 := by
      refine List.countP_eq_zero.mpr fun o ho hof => h ?_
      rw [List.mem_singleton.mp ho] at hof
      simp only [isSubmissionOf, List.lookup_cons_self, Bool.and_eq_true, beq_iff_eq,
        decide_eq_true_eq, Option.some.injEq, JsonField.str.injEq] at hof
      exact ⟨hof.2, hof.1.1⟩
    rw [hnone]
    exact Nat.zero_le _

theorem submits_submitChoice (self : Instance) (sessionId : SessionId) (userId : UserId)
    (choice : SessionChoice) : Submits id user (submitChoice self sessionId userId choice) 0 := by
  have hevaluated (session : Session) (deadline : JsDate) (credits : Nat) :
      Submits id user ((evaluateChoices self session deadline).bind
        (enrichChoiceResultForUser · session userId)) credits :=
    submits_of_reticently (Decides.reticently (decides_evaluated self session deadline userId)) _
  unfold submitChoice
  refine (reticent_findSession sessionId).submits fun found => ?_
  cases found with
  | none => exact Proc.affords_ret _
  | some session =>
      dsimp only
      split
      · exact Proc.affords_ret _
      · refine (reticent_get _).submits fun ended => ?_
        split
        · exact Proc.affords_ret _
        · refine (Decides.reticently (decides_getDecision self session userId)).submits fun stored => ?_
          cases stored with
          | some storedDecision => exact Proc.affords_ret _
          | none =>
              have hread : Reticent id user (.redis (.hget sessionId userId)) := ⟨trivial, rfl⟩
              have hstore : Patient (.redis (.hset sessionId userId choice)) := trivial
              have hannounce : Patient (.host (.emit [.track userId "session_choice_submitted"
                  [("sessionId", .str sessionId), ("choice", .str (choiceName choice))]])) := trivial
              refine (reticently_ensureChoiceDeadline sessionId).submits fun deadline => ?_
              refine (reticent_await hread).submits fun existingChoice => ?_
              split
              · exact hevaluated session deadline 0
              · refine Proc.affords_await hstore (Nat.zero_le _) fun _ => ?_
                refine (Decides.reticently (decides_expireChoices sessionId deadline)).submits
                  fun _ => ?_
                refine Proc.affords_await hannounce ?_ fun _ => hevaluated session deadline _
                simpa [submissions] using submissions_le sessionId userId choice

variable (id user) in
theorem submits_code (o : SessionOp) : Submits id user o.code 0 := by
  cases o with
  | submitChoice self sessionId userId choice => exact submits_submitChoice self sessionId userId choice
  | choiceTimeout self sessionId userAId userBId =>
      exact submits_of_reticently (Decides.reticently (decides_finalizeDecision _ _ _ _)) 0
  | recoverChoice self sessionId =>
      exact submits_of_reticently (Proc.Conforms.mono (recovers_recoverChoice self sessionId)
        fun _ => Recovering.reticent) 0

end Commands

/-! ## Runs -/

/-- The choice does not expire. -/
def ChoiceLives (id : SessionId) (user : UserId) (c : Config sessionService.system) :
    Event sessionService.system → Prop
  | .env e => (c.world.env e).choice id user = c.world.choice id user
  | _ => True

/-- A choice of the participant is stored where there is none. -/
def ChoosesOnce (id : SessionId) (user : UserId) (c : Config sessionService.system) :
    Event sessionService.system → Prop
  | .step i => (c.pending i).all (fun cmd =>
      !storesChoice id user cmd || (c.world.choice id user).isNone) = true
  | _ => True

instance (id : SessionId) (user : UserId) (c : Config sessionService.system)
    (e : Event sessionService.system) : Decidable (ChoiceLives id user c e) :=
  match e with
  | .env e => inferInstanceAs (Decidable ((c.world.env e).choice id user = c.world.choice id user))
  | .start _ | .step _ => .isTrue trivial

instance (id : SessionId) (user : UserId) (c : Config sessionService.system)
    (e : Event sessionService.system) : Decidable (ChoosesOnce id user c e) :=
  match e with
  | .step i => inferInstanceAs (Decidable ((c.pending i).all _ = true))
  | .start _ | .env _ => .isTrue trivial

/-- Every choice stored so far is the one in the hash. -/
structure Chosen (id : SessionId) (user : UserId) (c : Config sessionService.system) : Prop where
  issues : c.Issues fun _ => Patient
  stored : Config.total (fun cmd => (storesChoice id user cmd).toNat) c.trace ≤
    (c.world.choice id user).toList.length

section Runs

variable {id : SessionId} {user : UserId} {c : Config sessionService.system}

/-- **Step lemma.** -/
theorem Chosen.next (h : Chosen id user c) {e : Event sessionService.system}
    (hlives : ChoiceLives id user c e) (honce : ChoosesOnce id user c e) :
    Chosen id user (c.next e) ∧
      ∀ v, c.world.choice id user = some v → (c.next e).world.choice id user = some v := by
  have hissues := h.issues.next (fun o => (submits_code id user o).conforms) e
  cases e with
  | start o => exact ⟨⟨hissues, h.stored⟩, fun v hv => hv⟩
  | env e =>
      have hsame : (c.next (.env e)).world.choice id user = c.world.choice id user := hlives
      exact ⟨⟨hissues, by rw [hsame]; exact h.stored⟩, fun v hv => hsame.trans hv⟩
  | step i =>
      cases hp : c.pending i with
      | none =>
          rw [Config.next_step_of_pending_none hp]
          exact ⟨h, fun v hv => hv⟩
      | some cmd =>
          obtain ⟨o, k, hc⟩ := Config.pending_eq_some.mp hp
          have hpatient : Patient cmd := (h.issues.calls _ (List.mem_of_getElem? hc)).1
          have honce : (!storesChoice id user cmd || (c.world.choice id user).isNone) = true := by
            simpa [ChoosesOnce, hp] using honce
          rw [Config.next_step_of_call hc] at hissues ⊢
          cases hstores : storesChoice id user cmd with
          | false =>
              have hsame : (cmd.exec c.world).2.choice id user = c.world.choice id user :=
                choice_exec hpatient hstores c.world
              refine ⟨⟨hissues, ?_⟩, fun v hv => hsame.trans hv⟩
              change Config.total _ (⟨i, cmd, c.world⟩ :: c.trace) ≤
                ((cmd.exec c.world).2.choice id user).toList.length
              rw [hsame, Config.total_cons, hstores]
              simpa using h.stored
          | true =>
              rw [hstores, Bool.not_true, Bool.false_or, Option.isNone_iff_eq_none] at honce
              obtain ⟨v, hv⟩ := exists_choice_of_stores hstores c.world
              refine ⟨⟨hissues, ?_⟩, fun v hv => (by rw [honce] at hv; cases hv)⟩
              change Config.total _ (⟨i, cmd, c.world⟩ :: c.trace) ≤
                ((cmd.exec c.world).2.choice id user).toList.length
              have hnone := h.stored
              rw [honce] at hnone
              rw [hv, Config.total_cons, hstores]
              simpa using hnone

theorem chosen_initial (w : World) : Chosen id user (Config.initial w) where
  issues := Config.issues_initial (S := sessionService.system) (fun _ => Patient) w
  stored := Nat.zero_le _

/-- **Run lemma.** -/
theorem Chosen.run (h : Chosen id user c) {es : List (Event sessionService.system)}
    (hlives : c.Obeys (ChoiceLives id user) es) (honce : c.Obeys (ChoosesOnce id user) es) :
    Chosen id user (c.run es) ∧
      ∀ v, c.world.choice id user = some v → (c.run es).world.choice id user = some v := by
  refine Config.run_induct (P := fun c' => Chosen id user c' ∧
    ∀ v, c.world.choice id user = some v → c'.world.choice id user = some v) ?_ es c
    (Config.obeys_and hlives honce) ⟨h, fun v hv => hv⟩
  rintro c' e ⟨hlives, honce⟩ ⟨hchosen, hkept⟩
  obtain ⟨hnext, hkept'⟩ := hchosen.next hlives honce
  exact ⟨hnext, fun v hv => hkept' v (hkept v hv)⟩

end Runs

/-- The participant's choice stays what it is from `c` to `c'`, and is
announced once at most. -/
def Stands (id : SessionId) (user : UserId) (c c' : Config sessionService.system) : Prop :=
  (∀ v, c.world.choice id user = some v → c'.world.choice id user = some v) ∧
    Config.total (submissions id user) c'.trace ≤ 1

theorem first_choice_stands (id : SessionId) (user : UserId) (w : World)
    (es₁ es₂ : List (Event sessionService.system))
    (hlives : (Config.initial w).Obeys (ChoiceLives id user) (es₁ ++ es₂))
    (honce : (Config.initial w).Obeys (ChoosesOnce id user) (es₁ ++ es₂)) :
    Stands id user ((Config.initial w).run es₁) (((Config.initial w).run es₁).run es₂) := by
  obtain ⟨hlives₁, hlives₂⟩ := (Config.obeys_append _ _ es₁ es₂).mp hlives
  obtain ⟨honce₁, honce₂⟩ := (Config.obeys_append _ _ es₁ es₂).mp honce
  have hfirst := ((chosen_initial w).run hlives₁ honce₁).1
  obtain ⟨hchosen, hkept⟩ := hfirst.run hlives₂ honce₂
  refine ⟨hkept, ?_⟩
  -- what is announced has been stored, and the field holds one choice
  have hpaid := Config.cost_le_earned (submits_code id user) w (es₁ ++ es₂)
  rw [Config.run_append] at hpaid
  have hone : (((((Config.initial w).run es₁).run es₂).world.choice id user).toList).length ≤ 1 :=
    Option.length_toList_le
  exact hpaid.trans (hchosen.stored.trans hone)

/-- ann chooses MATCH. -/
def chooses : List (Event sessionService.system) :=
  .start (.submitChoice 0 "s" "ann" .MATCH) :: List.replicate 14 (.step 0)

/-- And then PASS, on another device. -/
def choosesAgain : List (Event sessionService.system) :=
  .env (.tick 1000) :: .start (.submitChoice 1 "s" "ann" .PASS) :: List.replicate 14 (.step 1)

theorem first_choice_stands_choosesAgain :
    Stands "s" "ann" ((Config.initial endedSession).run chooses)
      (((Config.initial endedSession).run chooses).run choosesAgain) :=
  first_choice_stands "s" "ann" endedSession chooses choosesAgain (by decide +kernel)
    (by decide +kernel)

/-- A double tap: both calls look for a choice, and the first one stores
and announces MATCH. -/
def doubleTap : List (Event sessionService.system) :=
  (.start (.submitChoice 0 "s" "ann" .MATCH) :: .start (.submitChoice 0 "s" "ann" .PASS) ::
    List.replicate 7 (.step 0) : List (Event sessionService.system)) ++
    (List.replicate 5 (.step 1) : List (Event sessionService.system)) ++
    (List.replicate 4 (.step 0) : List (Event sessionService.system))

/-- The second one stores and announces PASS. -/
def secondTap : List (Event sessionService.system) := List.replicate 4 (.step 1)

theorem second_choice_replaces : ¬∀ (id : SessionId) (user : UserId) (w : World)
    (es₁ es₂ : List (Event sessionService.system)),
    (Config.initial w).Obeys (ChoiceLives id user) (es₁ ++ es₂) →
    Stands id user ((Config.initial w).run es₁) (((Config.initial w).run es₁).run es₂) := by
  intro h
  have hstands := (h "s" "ann" endedSession doubleTap secondTap (by decide +kernel)).1 .MATCH
    (by decide +kernel)
  revert hstands
  decide +kernel

end VerityBackend.Sessions
