/-
VerityBackend.Session.Script — what submitters, timers and the recovery do
besides finalizing.

Most commands of these calls neither write the decision or a choice nor
touch the database nor announce anything: they are `Plain`. A discipline
that every plain command keeps (`PlainOK`) only has something to say about
`HSET` and about `finalizeDecision`. The walk through the other commands is
made once: `valid_submitChoice` and `valid_recoverChoice` reduce an
operation to those obligations, collected in `SubmitScript`.
-/
import VerityBackend.Session.Service

namespace VerityBackend.Sessions

open Async

/-! ## Plain commands -/

/-- A decision is announced by the two match events and by the push. -/
def isAnnouncement : Output → Bool
  | .matchMutual _ _ _ _ => true
  | .matchNonMutual _ _ => true
  | .push _ .match_mutual _ => true
  | _ => false

inductive Plain : Cmd → Prop
  | get (k : RedisKey) : Plain (.redis (.get k))
  | hget (id : SessionId) (user : UserId) : Plain (.redis (.hget id user))
  | hmget (id : SessionId) (user₁ user₂ : UserId) : Plain (.redis (.hmget id user₁ user₂))
  | pexpire (id : SessionId) {ttl : Nat} (h : 0 < ttl) : Plain (.redis (.pexpireChoices id ttl))
  | deadline (id : SessionId) (ms : Nat) :
      Plain (.redis (.setNX (.sessionChoiceDeadline id) (.date ms) CHOICE_STATE_TTL_MS))
  | findSession (id : SessionId) : Plain (.db (.sessionFindUnique id))
  | findUser (id : UserId) : Plain (.db (.userFindUnique id))
  | now : Plain (.host .now)
  | emit {os : List Output} (h : ∀ o ∈ os, isAnnouncement o = false) : Plain (.host (.emit os))
  | scheduleChoiceTimeout (self : Instance) (id : SessionId) (a b : UserId) (deadline : Nat) :
      Plain (.host (.scheduleChoiceTimeout self id a b deadline))
  | clearChoiceTimeout (self : Instance) (id : SessionId) :
      Plain (.host (.clearChoiceTimeout self id))

/-- What two worlds have in common that a plain command separates. -/
structure SamePlain (w w' : World) : Prop where
  db : w'.db = w.db
  clock : w'.clock = w.clock
  get : ∀ k, (∀ id, k ≠ .sessionChoiceDeadline id) → w'.get k = w.get k
  choices : ∀ id, w'.choices id = w.choices id
  deadline : ∀ id r, w.get (.sessionChoiceDeadline id) = some r →
    w'.get (.sessionChoiceDeadline id) = some r
  dated : ∀ id r, w'.get (.sessionChoiceDeadline id) = some r →
    w.get (.sessionChoiceDeadline id) = some r ∨ ∃ ms, r = .date ms

theorem SamePlain.refl (w : World) : SamePlain w w :=
  ⟨rfl, rfl, fun _ _ => rfl, fun _ => rfl, fun _ _ h => h, fun _ _ h => .inl h⟩

theorem samePlain_deadline (w : World) (id : SessionId) (ms : Nat) :
    SamePlain w
      ((RedisCmd.setNX (.sessionChoiceDeadline id) (.date ms) CHOICE_STATE_TTL_MS).exec w).2 := by
  cases hget : w.get (.sessionChoiceDeadline id) with
  | some r =>
      simp only [RedisCmd.exec, hget]
      exact SamePlain.refl w
  | none =>
      simp only [RedisCmd.exec, hget]
      refine ⟨rfl, rfl, ?_, fun _ => rfl, ?_, ?_⟩
      · intro k hk
        exact World.get_set_ne (hk id)
      · intro id' r hr
        by_cases hid : id' = id
        · subst hid
          rw [hget] at hr
          cases hr
        · rw [World.get_set_ne (by simpa using hid)]
          exact hr
      · intro id' r hr
        by_cases hid : id' = id
        · subst hid
          rw [World.get_set_self (by decide)] at hr
          exact .inr ⟨ms, (Option.some.inj hr).symm⟩
        · rw [World.get_set_ne (by simpa using hid)] at hr
          exact .inl hr

theorem Plain.same {c : Cmd} (h : Plain c) (w : World) : SamePlain w (c.exec w).2 := by
  cases h with
  | pexpire id hpos =>
      refine ⟨?_, ?_, ?_, fun id' => World.choices_expireChoices w id id' hpos, ?_, ?_⟩ <;>
        simp only [Cmd.exec_redis, RedisCmd.exec, World.expireChoices] <;>
        cases w.redis.choices.entry w.clock id
      · rfl
      · rfl
      · rfl
      · rfl
      · exact fun _ _ => rfl
      · exact fun _ _ => rfl
      · exact fun _ _ h => h
      · exact fun _ _ h => h
      · exact fun _ _ h => .inl h
      · exact fun _ _ h => .inl h
  | deadline id ms => exact samePlain_deadline w id ms
  | _ => exact ⟨rfl, rfl, fun _ _ => rfl, fun _ => rfl, fun _ _ h => h, fun _ _ h => .inl h⟩

/-! ## The walk -/

abbrev SessionSnap := Snap sessionService.system

/-- Plain commands are always allowed, and the call that issues one loses
nothing it counts on. -/
structure PlainOK (D : Discipline sessionService.system) : Prop where
  keeps : ∀ o i c s, Plain c → D.inv s → D.Keeps o i c s
  rely : ∀ i c s, Plain c → D.inv s → D.rely i s (s.exec i c)

section Walk

variable {D : Discipline sessionService.system} {o : SessionOp} {i : Nat} {s : SessionSnap}
  {α β : Type}

theorem valid_plain (hD : PlainOK D) {c : Cmd} (hc : Plain c) {f : c.Res → Prog β}
    {Q : Except Err β → SessionSnap → Prop}
    (h : ∀ s', D.rely i s s' → D.inv s' → D.rely i s (s'.exec i c) →
      D.Resumes o i f Q (c.exec s'.world).1 (s'.exec i c)) :
    D.Valid o i ((Proc.await c).bind f) Q s :=
  Discipline.valid_await fun s' hrely hinv _ =>
    ⟨hD.keeps o i c s' hc hinv,
      h s' hrely hinv (D.rely_trans i _ _ _ hrely (hD.rely i c s' hc hinv))⟩

/-- A predicate no other call, and no plain command, makes false. -/
def Lasting (D : Discipline sessionService.system) (i : Nat) (P : SessionSnap → Prop) : Prop :=
  ∀ s s', D.rely i s s' → P s → P s'

theorem valid_readStoredDecision (hD : PlainOK D) {sessionId : SessionId}
    {f : ParsedStoredDecision → Prog β} {Q : Except Err β → SessionSnap → Prop}
    (h : ∀ s', D.rely i s s' → D.inv s' →
      D.rely i s (s'.exec i (.redis (.get (.sessionDecision sessionId)))) →
      D.Valid o i (f (parseStoredDecision (s'.world.get (.sessionDecision sessionId)))) Q
        (s'.exec i (.redis (.get (.sessionDecision sessionId))))) :
    D.Valid o i ((readStoredDecision sessionId).bind f) Q s :=
  Discipline.valid_bind (valid_plain hD (.get _) h)

theorem valid_buildPartnerReveal (hD : PlainOK D) {session : Session} {userId : UserId}
    {Q : Except Err (Option PartnerReveal) → SessionSnap → Prop}
    (h : ∀ r s', D.rely i s s' → Q (.ok r) s') :
    D.Valid o i (buildPartnerRevealForUser session userId) Q s := by
  unfold buildPartnerRevealForUser
  dsimp only
  split
  · exact h _ _ (D.rely_refl i s)
  · split
    · exact h _ _ (D.rely_refl i s)
    · exact valid_plain hD (.findUser _) fun s' _ _ hgrow => h _ _ hgrow

theorem valid_enrich (hD : PlainOK D) {result : ChoiceResult} {session : Session}
    {userId : UserId} {Q : Except Err ChoiceResult → SessionSnap → Prop}
    (hlast : ∀ r, Lasting D i (Q r))
    (hreveal : ∀ v reveal reveal' s, Q (.ok (.resolved v reveal)) s →
      Q (.ok (.resolved v reveal')) s)
    (h : Q (.ok result) s) : D.Valid o i (enrichChoiceResultForUser result session userId) Q s := by
  cases result with
  | pending deadline => exact h
  | resolved v reveal =>
      cases v with
      | nonMutual => exact h
      | «mutual» matchId =>
          refine Discipline.valid_bind (valid_buildPartnerReveal hD fun r s' hgrow => ?_)
          have hs' := hlast _ _ _ hgrow h
          cases r with
          | none => exact hs'
          | some r => exact hreveal _ _ _ _ hs'

/-- **The walk of an announcement**, by a call that may emit. -/
theorem valid_announceDecision (hD : PlainOK D) {self : Instance} {session : Session}
    {choiceA choiceB : SessionChoice} {payload : ResolvedChoiceResult}
    {Q : Except Err Unit → SessionSnap → Prop}
    (hemit : ∀ os s', D.rely i s s' → D.inv s' →
      D.Keeps o i (.host (.emit os)) s' ∧ D.rely i s' (s'.exec i (.host (.emit os))))
    (h : ∀ s', D.rely i s s' → Q (.ok ()) s') :
    D.Valid o i (announceDecision self session choiceA choiceB payload) Q s := by
  -- an emit of the announcement, by a call that has come as far as `s'`
  have hstep : ∀ (os : List Output) (f : Unit → Prog Unit) s', D.rely i s s' →
      (∀ s'', D.rely i s s'' → D.Valid o i (f ()) Q s'') →
      D.Valid o i ((host (.emit os)).bind f) Q s' := by
    intro os f s' hs' hf
    refine valid_host fun s₁ h₁ hinv₁ _ => ?_
    have hgrow := D.rely_trans i _ _ _ hs' h₁
    obtain ⟨hkeeps, hgrow₁⟩ := hemit os s₁ hgrow hinv₁
    exact ⟨hkeeps, hf _ (D.rely_trans i _ _ _ hgrow hgrow₁)⟩
  have hclear : ∀ s', D.rely i s s' →
      D.Valid o i (host (.clearChoiceTimeout self session.id)) Q s' := by
    intro s' hs' s₁ h₁ hinv₁ _
    have hplain := Plain.clearChoiceTimeout self session.id
    exact ⟨hD.keeps o i _ s₁ hplain hinv₁, h _ (D.rely_trans i _ _ _ hs'
      (D.rely_trans i _ _ _ h₁ (hD.rely i _ s₁ hplain hinv₁)))⟩
  refine hstep _ _ s (D.rely_refl i s) fun s₁ h₁ => ?_
  cases payload with
  | nonMutual => exact hstep _ _ s₁ h₁ fun s₂ h₂ => hclear s₂ h₂
  | «mutual» matchId =>
      refine Discipline.valid_bind (Discipline.valid_bind
        (valid_buildPartnerReveal hD fun revealForUserA s₂ h₂ => ?_))
      refine Discipline.valid_bind (valid_buildPartnerReveal hD fun revealForUserB s₃ h₃ => ?_)
      have hs₃ := D.rely_trans i _ _ _ h₁ (D.rely_trans i _ _ _ h₂ h₃)
      intro s₄ h₄ hinv₄ _
      have hs₄ := D.rely_trans i _ _ _ hs₃ h₄
      obtain ⟨hkeeps, hgrow⟩ := hemit _ s₄ hs₄ hinv₄
      refine ⟨hkeeps, ?_⟩
      exact hstep _ _ _ (D.rely_trans i _ _ _ hs₄ hgrow) fun s₅ h₅ => hclear s₅ h₅

/-- The deadline a call is handed: the stored one, or one minute from now. -/
theorem valid_ensureChoiceDeadline (hD : PlainOK D) {sessionId : SessionId}
    {Q : Except Err JsDate → SessionSnap → Prop}
    (hstored : ∀ r s', D.rely i s s' → D.inv s' →
      s'.world.get (.sessionChoiceDeadline sessionId) = some r →
      Q (.ok r.parseDate) (s'.exec i (.redis (.get (.sessionChoiceDeadline sessionId)))))
    (hnew : ∀ ms s', D.rely i s s' → Q (.ok (some ms)) s') :
    D.Valid o i (ensureChoiceDeadline sessionId) Q s := by
  refine valid_plain hD (.get _) fun s₁ h₁ hinv₁ hgrow₁ => ?_
  show D.Valid o i (ite _ _ _) Q _
  split
  · next htruthy =>
      cases hget : s₁.world.get (.sessionChoiceDeadline sessionId) with
      | none =>
          have hres : ((RedisCmd.get (.sessionChoiceDeadline sessionId)).exec s₁.world).1 = none :=
            hget
          rw [hres] at htruthy
          exact absurd htruthy (by decide)
      | some r =>
          have hres : ((RedisCmd.get (.sessionChoiceDeadline sessionId)).exec s₁.world).1 =
            some r := hget
          rw [hres]
          exact hstored r s₁ h₁ hinv₁ hget
  · refine valid_plain hD .now fun s₂ _ _ hgrow₂ => ?_
    refine valid_plain hD (.deadline _ _) fun s₃ _ _ hgrow₃ => ?_
    exact hnew _ _ (D.rely_trans i _ _ _ hgrow₁ (D.rely_trans i _ _ _ hgrow₂ hgrow₃))

/-- What is left to show about a `submitChoice` of `userId` for
`sessionId`, with postcondition `Q`: `Before` holds of the call until its
choice is in the hash and `Wrote` from then on. -/
structure SubmitScript (D : Discipline sessionService.system) (o : SessionOp) (i : Nat)
    (inst : Instance) (sessionId : SessionId) (userId : UserId) (choice : SessionChoice)
    (Before Wrote : Session → SessionSnap → Prop)
    (Q : Except Err ChoiceResult → SessionSnap → Prop) : Prop where
  before_lasting : ∀ session, Lasting D i (Before session)
  wrote_lasting : ∀ session, Lasting D i (Wrote session)
  lasting : ∀ r, Lasting D i (Q r)
  reveal : ∀ v reveal reveal' s, Q (.ok (.resolved v reveal)) s → Q (.ok (.resolved v reveal')) s
  /-- The call ends before it has written. -/
  failed : ∀ session e s, Before session s → Q (.error e) s
  postponed : ∀ session d s, Before session s → Q (.ok (.pending d)) s
  stored : ∀ session v s, Before session s → D.inv s →
    parseStoredDecision (s.world.get (.sessionDecision sessionId)) = .resolved v →
    Q (.ok (.resolved v none)) s
  write : ∀ session s, Before session s → D.inv s →
    session.userAId = userId ∨ session.userBId = userId →
    D.admits o i (.redis (.hset sessionId userId choice)) s →
    D.Keeps o i (.redis (.hset sessionId userId choice)) s ∧
      Wrote session (s.exec i (.redis (.hset sessionId userId choice)))
  found : ∀ session s, Before session s → D.inv s →
    (s.world.choice sessionId userId).isSome → Wrote session s
  /-- The deadline handed out is no date. -/
  undated : ∀ session e s, Wrote session s → (∃ s₀ r, D.inv s₀ ∧
    s₀.world.get (.sessionChoiceDeadline sessionId) = some r ∧ r.parseDate = none) →
    Q (.error e) s
  finalize : ∀ session choiceA choiceB s, session.id = sessionId → Wrote session s → D.inv s →
    s.world.choice sessionId session.userAId = choiceA →
    s.world.choice sessionId session.userBId = choiceB →
    D.Valid o i (finalizeDecision inst session (choiceA.getD .PASS) (choiceB.getD .PASS)) Q
      (s.exec i (.redis (.hmget sessionId session.userAId session.userBId)))
  undecided : ∀ session d s, Wrote session s → D.inv s →
    ¬(s.world.choice sessionId session.userAId = some .MATCH ∧
      s.world.choice sessionId session.userBId = some .MATCH) →
    Q (.ok (.pending d)) (s.exec i (.redis (.hmget sessionId session.userAId session.userBId)))

variable {self : Instance} {sessionId : SessionId} {userId : UserId} {choice : SessionChoice}
  {Before Wrote : Session → SessionSnap → Prop} {Q : Except Err ChoiceResult → SessionSnap → Prop}

theorem valid_evaluateChoices (hD : PlainOK D)
    (hS : SubmitScript D o i self sessionId userId choice Before Wrote Q) {session : Session}
    {deadline : JsDate} (hid : session.id = sessionId) (hwrote : Wrote session s)
    (hdated : deadline = none → ∃ s₀ r, D.inv s₀ ∧
      s₀.world.get (.sessionChoiceDeadline sessionId) = some r ∧ r.parseDate = none) :
    D.Valid o i (evaluateChoices self session deadline) Q s := by
  subst hid
  refine valid_plain hD (.hmget _ _ _) fun s₁ h₁ hinv₁ hgrow₁ => ?_
  have hwrote₁ := hS.wrote_lasting session _ _ h₁ hwrote
  have hfin := hS.finalize session _ _ s₁ rfl hwrote₁ hinv₁ rfl rfl
  show D.Valid o i (ite _ _ _) Q _
  split
  · exact hfin
  · next hpass =>
      split
      · next hmatch =>
          obtain ⟨hA, hB⟩ := hmatch
          rw [show s₁.world.choice session.id session.userAId = some .MATCH from hA,
            show s₁.world.choice session.id session.userBId = some .MATCH from hB] at hfin
          exact hfin
      · next hmatch =>
          refine valid_plain hD .now fun s₂ h₂ _ hgrow₂ => ?_
          show D.Valid o i (ite _ _ _) Q _
          split
          · exact hfin.rely_call hgrow₂
          · cases deadline with
            | some d =>
                exact hS.lasting _ _ _ hgrow₂ (hS.undecided session d s₁ hwrote₁ hinv₁ hmatch)
            | none =>
                refine hS.undated session _ _ ?_ (hdated rfl)
                exact hS.wrote_lasting session _ _ (D.rely_trans i _ _ _ hgrow₁ hgrow₂) hwrote

theorem valid_evaluated (hD : PlainOK D)
    (hS : SubmitScript D o i self sessionId userId choice Before Wrote Q) {session : Session}
    {deadline : JsDate} (hid : session.id = sessionId) (hwrote : Wrote session s)
    (hdated : deadline = none → ∃ s₀ r, D.inv s₀ ∧
      s₀.world.get (.sessionChoiceDeadline sessionId) = some r ∧ r.parseDate = none) :
    D.Valid o i ((evaluateChoices self session deadline).bind fun evaluated =>
      enrichChoiceResultForUser evaluated session userId) Q s := by
  refine Discipline.valid_bind ((valid_evaluateChoices hD hS hid hwrote hdated).weaken ?_)
  intro r s' hQ
  cases r with
  | error e => exact hQ
  | ok result => exact valid_enrich hD hS.lasting hS.reveal hQ

/-- How `getDecision` ends: with nothing stored the call goes on. -/
def GotDecision (Before : SessionSnap → Prop) (Q : Except Err ChoiceResult → SessionSnap → Prop) :
    Except Err (Option ChoiceResult) → SessionSnap → Prop
  | .ok none, s => Before s
  | .ok (some result), s => Q (.ok result) s
  | .error e, s => Q (.error e) s

theorem valid_getDecision (hD : PlainOK D)
    (hS : SubmitScript D o i self sessionId userId choice Before Wrote Q) {session : Session}
    (hid : session.id = sessionId) (hbefore : Before session s) :
    D.Valid o i (getDecision session userId) (GotDecision (Before session) Q) s := by
  subst hid
  refine valid_readStoredDecision hD fun s₁ h₁ hinv₁ hgrow₁ => ?_
  have hbefore₁ := hS.before_lasting session _ _ hgrow₁ hbefore
  have hstored := hS.stored session
  cases hparse : parseStoredDecision (s₁.world.get (.sessionDecision session.id)) with
  | none => exact hbefore₁
  | invalid => exact hbefore₁
  | pending deadline => exact hS.postponed session _ _ hbefore₁
  | resolved v =>
      have hQ := hstored v s₁ (hS.before_lasting session _ _ h₁ hbefore) hinv₁ hparse
      have hQ' : Q (.ok (.resolved v none))
          (s₁.exec i (.redis (.get (.sessionDecision session.id)))) :=
        hS.lasting _ _ _ (hD.rely i _ s₁ (.get _) hinv₁) hQ
      refine Discipline.valid_bind ((valid_enrich hD hS.lasting hS.reveal hQ').weaken ?_)
      intro r s' hr
      cases r <;> exact hr

/-- `ensureChoiceDeadline`, of a call that knows `P`. -/
theorem valid_ensured (hD : PlainOK D) {P : SessionSnap → Prop}
    (hP : ∀ {s'}, D.rely i s s' → P s') :
    D.Valid o i (ensureChoiceDeadline sessionId)
      (fun r s' => P s' ∧ ∃ deadline, r = .ok deadline ∧ (deadline = none → ∃ s₀ r, D.inv s₀ ∧
        s₀.world.get (.sessionChoiceDeadline sessionId) = some r ∧ r.parseDate = none)) s := by
  refine valid_ensureChoiceDeadline hD (fun r s' h hinv hget => ?_) (fun ms s' h => ?_)
  · refine ⟨hP (D.rely_trans i _ _ _ h (hD.rely i _ s' (.get _) hinv)), r.parseDate, rfl, ?_⟩
    intro hnone
    exact ⟨s', r, hinv, hget, hnone⟩
  · refine ⟨hP h, some ms, rfl, ?_⟩
    intro hnone
    cases hnone

/-- The rest of `submitChoice` once the choice is in the hash. -/
theorem valid_afterWrite (hD : PlainOK D)
    (hS : SubmitScript D o i self sessionId userId choice Before Wrote Q) {session : Session}
    {deadline : JsDate} (hid : session.id = sessionId) (hwrote : Wrote session s)
    (hdated : deadline = none → ∃ s₀ r, D.inv s₀ ∧
      s₀.world.get (.sessionChoiceDeadline sessionId) = some r ∧ r.parseDate = none) :
    D.Valid o i (expireChoices sessionId deadline >>= fun _ =>
      host (.emit [.track userId "session_choice_submitted"
        [("sessionId", .str sessionId), ("choice", .str (choiceName choice))]]) >>= fun _ =>
      evaluateChoices self session deadline >>= fun evaluated =>
      enrichChoiceResultForUser evaluated session userId) Q s := by
  refine Discipline.valid_bind ?_
  cases hdl : deadline with
  | none => exact hS.undated session _ _ hwrote (hdated hdl)
  | some ms =>
      refine valid_plain hD .now fun s₁ _ _ hgrow₁ => ?_
      intro s₂ h₂ hinv₂ _
      have hpexpire : Plain (.redis (.pexpireChoices sessionId (max 1 (ms - s₁.world.clock)))) :=
        .pexpire _ (by omega)
      refine ⟨hD.keeps o i _ s₂ hpexpire hinv₂, ?_⟩
      have hgrow₂ := D.rely_trans i _ _ _ hgrow₁
        (D.rely_trans i _ _ _ h₂ (hD.rely i _ s₂ hpexpire hinv₂))
      have htrack : ∀ o ∈ [Output.track userId "session_choice_submitted"
          [("sessionId", .str sessionId), ("choice", .str (choiceName choice))]],
          isAnnouncement o = false := by
        intro o ho
        rw [List.mem_singleton.mp ho]
        rfl
      refine valid_plain hD (.emit htrack) fun s₃ _ _ hgrow₃ => ?_
      rw [← hdl]
      exact valid_evaluated hD hS hid
        (hS.wrote_lasting session _ _ (D.rely_trans i _ _ _ hgrow₂ hgrow₃) hwrote) hdated

/-- **The walk of a submitter.** -/
theorem valid_submitChoice (hD : PlainOK D)
    (hS : SubmitScript D o i self sessionId userId choice Before Wrote Q)
    (hstart : ∀ s' session, D.rely i s s' → D.inv s' →
      s'.world.db.sessions.find? (·.id = sessionId) = some session →
      Before session (s'.exec i (.db (.sessionFindUnique sessionId))))
    (hmissing : ∀ e s', D.rely i s s' → Q (.error e) s') :
    D.Valid o i (submitChoice self sessionId userId choice) Q s := by
  refine valid_plain hD (.findSession _) fun s₁ h₁ hinv₁ hgrow₁ => ?_
  simp only [Cmd.exec_db, DbCmd.exec]
  cases hfind : s₁.world.db.sessions.find? (·.id = sessionId) with
  | none => exact hmissing (.notFound "Session not found") _ hgrow₁
  | some session =>
      have hid : session.id = sessionId := by simpa using List.find?_some hfind
      have hbefore := hstart s₁ session h₁ hinv₁ hfind
      have hlast := hS.before_lasting session
      show D.Valid o i (ite _ _ _) Q _
      split
      · exact hS.failed session _ _ hbefore
      · next hpart =>
          have hpart' : session.userAId = userId ∨ session.userBId = userId := by
            by_contra hne
            obtain ⟨hA, hB⟩ := not_or.mp hne
            exact hpart ⟨hA, hB⟩
          refine valid_plain hD (.get _) fun s₂ _ _ hgrow₂ => ?_
          have hbefore₂ := hlast _ _ hgrow₂ hbefore
          show D.Valid o i (ite _ _ _) Q _
          split
          · exact hS.failed session _ _ hbefore₂
          · refine Discipline.valid_bind ((valid_getDecision hD hS hid hbefore₂).weaken ?_)
            rintro (e | _ | result) s₃ hgot
            · exact hgot
            · have hbefore₃ : Before session s₃ := hgot
              refine Discipline.valid_bind
                ((valid_ensured hD (hlast _ _ · hbefore₃)).weaken ?_)
              rintro r s₄ ⟨hbefore₄, deadline, rfl, hdated⟩
              refine valid_plain hD (.hget _ _) fun s₅ h₅ hinv₅ hgrow₅ => ?_
              have hbefore₅ := hlast _ _ h₅ hbefore₄
              show D.Valid o i (ite _ _ _) Q _
              split
              · next hfound =>
                  have hwrote := hS.found session s₅ hbefore₅ hinv₅ hfound
                  exact valid_evaluated hD hS hid
                    (hS.wrote_lasting session _ _ (hD.rely i _ s₅ (.hget _ _) hinv₅) hwrote) hdated
              · refine valid_redis fun s₆ h₆ hinv₆ hadmits => ?_
                have hbefore₆ := hlast _ _ (D.rely_trans i _ _ _ hgrow₅ h₆) hbefore₄
                obtain ⟨hkeeps, hwrote⟩ := hS.write session s₆ hbefore₆ hinv₆ hpart' hadmits
                refine ⟨hkeeps, ?_⟩
                exact valid_afterWrite hD hS hid hwrote hdated
            · exact hgot

theorem valid_resolveSessionParticipants (hD : PlainOK D) {P : SessionSnap → Prop}
    (hP : Lasting D i P) {Q : Except Err (Option (UserId × UserId)) → SessionSnap → Prop}
    (hs : P s) (h : ∀ found s', P s' → Q (.ok found) s') :
    D.Valid o i (resolveSessionParticipants sessionId) Q s := by
  refine valid_plain hD (.get _) fun s₁ _ _ hgrow₁ => ?_
  have hs₁ := hP _ _ hgrow₁ hs
  cases hstate : parseSessionState (s₁.world.get (.sessionState sessionId)) with
  | some state =>
      show D.Valid o i (participantsBy sessionId
        (parseSessionState (s₁.world.get (.sessionState sessionId)))) Q _
      rw [hstate]
      exact h _ _ hs₁
  | none =>
      show D.Valid o i (participantsBy sessionId
        (parseSessionState (s₁.world.get (.sessionState sessionId)))) Q _
      rw [hstate]
      refine valid_plain hD (.findSession _) fun s₂ _ _ hgrow₂ => ?_
      have hs₂ := hP _ _ hgrow₂ hs₁
      simp only [Cmd.exec_db, DbCmd.exec]
      cases s₂.world.db.sessions.find? (·.id = sessionId) with
      | none => exact h none _ hs₂
      | some session => exact h (some (session.userAId, session.userBId)) _ hs₂

/-- The part of the recovery that acts. -/
theorem valid_recoverFrom (hD : PlainOK D) {P : SessionSnap → Prop} (hP : Lasting D i P)
    {Q : Except Err Unit → SessionSnap → Prop} {deadline : Nat} (hs : P s)
    (hend : ∀ r s', P s' → Q r s')
    (hfin : ∀ a b s', P s' → D.Valid o i
      (finalizeDecision self (buildSyntheticSession sessionId a b) .PASS .PASS)
      (fun _ s'' => ∀ r, Q r s'') s') :
    D.Valid o i (recoverFrom self sessionId deadline) Q s := by
  -- what the call does once it knows the participants
  have hact : ∀ (found : Option (UserId × UserId)) s', P s' →
      D.Valid o i (recoverFound self sessionId deadline found) Q s' := by
    intro found s' hs'
    cases found with
    | none => exact hend _ _ hs'
    | some pair =>
        refine valid_plain hD .now fun s₁ _ _ hgrow₁ => ?_
        have hs₁ := hP _ _ hgrow₁ hs'
        show D.Valid o i (ite _ _ _) Q _
        split
        · refine Discipline.valid_bind ((hfin pair.1 pair.2 _ hs₁).weaken ?_)
          intro r s₂ hQ
          cases r <;> exact hQ _
        · intro s₂ h₂ hinv₂ _
          have hplain := Plain.scheduleChoiceTimeout self sessionId pair.1 pair.2 deadline
          exact ⟨hD.keeps o i _ s₂ hplain hinv₂,
            hend _ _ (hP _ _ (hD.rely i _ s₂ hplain hinv₂) (hP _ _ h₂ hs₁))⟩
  exact Discipline.valid_bind (valid_resolveSessionParticipants hD hP hs hact)

/-- **The walk of the recovery** of one session: it ends early, arms a
timer, or finalizes PASS/PASS. -/
theorem valid_recoverChoice (hD : PlainOK D) {P : SessionSnap → Prop} (hP : Lasting D i P)
    {Q : Except Err Unit → SessionSnap → Prop} (hs : P s) (hend : ∀ r s', P s' → Q r s')
    (hfin : ∀ a b s', P s' → D.Valid o i
      (finalizeDecision self (buildSyntheticSession sessionId a b) .PASS .PASS)
      (fun _ s'' => ∀ r, Q r s'') s') :
    D.Valid o i (recoverChoice self sessionId) Q s := by
  have hrest : ∀ (deadline : JsDate) s', P s' → D.Valid o i
      (recoverBy self sessionId deadline) Q s' := by
    intro deadline s' hs'
    cases deadline with
    | none => exact hend _ _ hs'
    | some deadline => exact valid_recoverFrom hD hP hs' hend hfin
  show D.Valid o i (ite _ _ _) Q s
  split
  · exact hend _ _ hs
  · refine valid_readStoredDecision hD fun s₁ _ _ hgrow₁ => ?_
    have hs₁ := hP _ _ hgrow₁ hs
    generalize parseStoredDecision (s₁.world.get (.sessionDecision sessionId)) = decision
    generalize s₁.exec i (.redis (.get (.sessionDecision sessionId))) = s₁' at hs₁
    cases decision with
    | resolved v => exact hend _ _ hs₁
    | pending deadline => exact hrest (some deadline) _ hs₁
    | none =>
        refine Discipline.valid_bind (valid_plain hD (.get _) fun s₂ _ _ hgrow₂ => ?_)
        exact hrest _ _ (hP _ _ hgrow₂ hs₁)
    | invalid =>
        refine Discipline.valid_bind (valid_plain hD (.get _) fun s₂ _ _ hgrow₂ => ?_)
        exact hrest _ _ (hP _ _ hgrow₂ hs₁)

end Walk

end VerityBackend.Sessions
