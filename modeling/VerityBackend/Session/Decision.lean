/-
VerityBackend.Session.Decision — agreement on a decision, and a single
announcement.

`decision_agreement`: from a session without a stored decision, however
submitters, timers and recoveries interleave, every resolved result is the
stored decision, the stored decision never changes, and the announcements
all come from one call.

The key is only ever written by `SET NX`: a finalizer would overwrite a
PENDING decision, but none is ever stored. So the finalizer whose `SET NX`
succeeds is unique, and the others read its decision back.
-/
import VerityBackend.Session.Script

namespace VerityBackend.Sessions

open Async

variable {sessionId : SessionId}

/-! ## The discipline -/

/-- The entry of the trace that stored the decision. -/
def Wins (sessionId : SessionId) (e : Entry sessionService.system) : Prop :=
  (∃ v ttl, e.cmd = .redis (.setNX (.sessionDecision sessionId) v ttl)) ∧
    e.before.get (.sessionDecision sessionId) = none

/-- An entry that emits an event of the decision or hands its push over. -/
def Announces (e : Entry sessionService.system) : Prop :=
  ∃ os, e.cmd = .host (.emit os) ∧ ∃ o ∈ os, isAnnouncement o = true

/-- Call `i` has stored the decision. -/
def Won (sessionId : SessionId) (i : Nat) (s : SessionSnap) : Prop :=
  ∃ e ∈ s.trace, e.call = i ∧ Wins sessionId e

structure DecisionInv (sessionId : SessionId) (s : SessionSnap) : Prop where
  written : ∀ r, s.world.get (.sessionDecision sessionId) = some r →
    ∃ v : ResolvedChoiceResult, r = v.payload
  unwon : s.world.get (.sessionDecision sessionId) = none → ∀ e ∈ s.trace, ¬Wins sessionId e
  single : ∀ i j, Won sessionId i s → Won sessionId j s → i = j
  announced : ∀ e ∈ s.trace, Announces e → Won sessionId e.call s

/-- What is stored stays stored. -/
structure DecisionRely (sessionId : SessionId) (s s' : SessionSnap) : Prop where
  stays : ∀ r, s.world.get (.sessionDecision sessionId) = some r →
    s'.world.get (.sessionDecision sessionId) = some r
  trace : s.trace <:+ s'.trace

theorem DecisionRely.refl (s : SessionSnap) : DecisionRely sessionId s s :=
  ⟨fun _ h => h, List.suffix_rfl⟩

theorem DecisionRely.trans {s₁ s₂ s₃ : SessionSnap} (h : DecisionRely sessionId s₁ s₂)
    (h' : DecisionRely sessionId s₂ s₃) : DecisionRely sessionId s₁ s₃ :=
  ⟨fun r hr => h'.stays r (h.stays r hr), h.trace.trans h'.trace⟩

def decisionDiscipline (sessionId : SessionId) : Discipline sessionService.system where
  inv := DecisionInv sessionId
  admits _ _ _ _ := True
  rely _ := DecisionRely sessionId
  guar _ _ _ _ := True
  rely_refl _ := DecisionRely.refl
  rely_trans _ _ _ _ h h' := h.trans h'

theorem won_exec {s : SessionSnap} {i j : Nat} {c : Cmd} :
    Won sessionId j (s.exec i c) ↔
      Won sessionId j s ∨ (j = i ∧ Wins sessionId ⟨i, c, s.world⟩) := by
  unfold Won
  simp only [Snap.exec_trace, List.mem_cons]
  constructor
  · rintro ⟨e, rfl | he, hcall, hwins⟩
    · exact .inr ⟨hcall.symm, hwins⟩
    · exact .inl ⟨e, he, hcall, hwins⟩
  · rintro (⟨e, he, h⟩ | ⟨rfl, hwins⟩)
    · exact ⟨e, .inr he, h⟩
    · exact ⟨_, .inl rfl, rfl, hwins⟩

/-- A command that leaves the decision alone, announced by the winner if it
announces anything. -/
theorem decision_frame {s : SessionSnap} {o : SessionOp} {i : Nat} {c : Cmd}
    (hget : (c.exec s.world).2.get (.sessionDecision sessionId) =
      s.world.get (.sessionDecision sessionId))
    (hwins : ¬Wins sessionId ⟨i, c, s.world⟩)
    (hann : Announces ⟨i, c, s.world⟩ → Won sessionId i s) (hinv : DecisionInv sessionId s) :
    (decisionDiscipline sessionId).Keeps o i c s := by
  have hwon : ∀ j, Won sessionId j (s.exec i c) ↔ Won sessionId j s := by
    intro j
    rw [won_exec]
    constructor
    · rintro (h | ⟨-, h⟩)
      · exact h
      · exact absurd h hwins
    · exact .inl
  have hdec : (s.exec i c).world.get (.sessionDecision sessionId) =
      s.world.get (.sessionDecision sessionId) := hget
  refine ⟨trivial, ⟨?_, ?_, ?_, ?_⟩, fun j _ => ⟨?_, ⟨[_], rfl⟩⟩⟩
  · rw [hdec]
    exact hinv.written
  · rw [hdec]
    intro hnone e he
    rcases List.mem_cons.mp he with rfl | he
    · exact hwins
    · exact hinv.unwon hnone e he
  · intro j k hj hk
    exact hinv.single j k ((hwon j).mp hj) ((hwon k).mp hk)
  · intro e he ha
    rw [hwon]
    rcases List.mem_cons.mp he with rfl | he
    · exact hann ha
    · exact hinv.announced e he ha
  · rw [hdec]
    exact fun _ h => h

theorem decision_rely {s : SessionSnap} {i : Nat} {c : Cmd}
    (hget : (c.exec s.world).2.get (.sessionDecision sessionId) =
      s.world.get (.sessionDecision sessionId)) : DecisionRely sessionId s (s.exec i c) where
  stays := by
    intro r hr
    show (c.exec s.world).2.get _ = _
    rw [hget]
    exact hr
  trace := ⟨[_], rfl⟩

theorem decision_plainOK : PlainOK (decisionDiscipline sessionId) where
  keeps := by
    intro o i c s hc hinv
    refine decision_frame ((hc.same s.world).get _ (by simp)) ?_ ?_ hinv
    · rintro ⟨⟨v, ttl, hcmd⟩, -⟩
      cases hc <;> cases hcmd
    · rintro ⟨os, hcmd, out, hout, hann⟩
      cases hc with
      | emit h =>
          cases hcmd
          rw [h out hout] at hann
          cases hann
      | _ => cases hcmd
  rely := fun i c s hc _ => decision_rely ((hc.same s.world).get _ (by simp))

/-! ## Finalizers -/

section Finalize

variable {o : SessionOp} {i : Nat} {s : SessionSnap}

/-- The command that stores a decision. -/
abbrev storeNX (sessionId : SessionId) (v : ResolvedChoiceResult) : RedisCmd :=
  .setNX (.sessionDecision sessionId) v.payload CHOICE_STATE_TTL_MS

theorem storeNX_some {w : World} {v : ResolvedChoiceResult} {r : RedisString}
    (h : w.get (.sessionDecision sessionId) = some r) :
    (storeNX sessionId v).exec w = (false, w) := by
  simp only [RedisCmd.exec, h]

theorem storeNX_none {w : World} {v : ResolvedChoiceResult}
    (h : w.get (.sessionDecision sessionId) = none) :
    (storeNX sessionId v).exec w =
      (true, w.set (.sessionDecision sessionId) v.payload (some CHOICE_STATE_TTL_MS)) := by
  simp only [RedisCmd.exec, h]

theorem get_storeNX {w : World} {v : ResolvedChoiceResult}
    (h : w.get (.sessionDecision sessionId) = none) :
    ((storeNX sessionId v).exec w).2.get (.sessionDecision sessionId) = some v.payload := by
  rw [storeNX_none h]
  exact World.get_set_self (by decide)

theorem decision_keeps_storeNX (v : ResolvedChoiceResult) (hinv : DecisionInv sessionId s) :
    (decisionDiscipline sessionId).Keeps o i (.redis (storeNX sessionId v)) s := by
  cases hget : s.world.get (.sessionDecision sessionId) with
  | some r =>
      refine decision_frame ?_ ?_ ?_ hinv
      · rw [Cmd.exec_redis, storeNX_some hget]
      · rintro ⟨-, hnone⟩
        rw [hget] at hnone
        cases hnone
      · rintro ⟨os, hcmd, -⟩
        cases hcmd
  | none =>
      have hafter : (s.exec i (.redis (storeNX sessionId v))).world.get
          (.sessionDecision sessionId) = some v.payload := get_storeNX hget
      have hwins : Wins sessionId ⟨i, .redis (storeNX sessionId v), s.world⟩ :=
        ⟨⟨_, _, rfl⟩, hget⟩
      have hnobody : ∀ j, ¬Won sessionId j s := by
        rintro j ⟨e, he, -, hwins'⟩
        exact hinv.unwon hget e he hwins'
      refine ⟨trivial, ⟨?_, ?_, ?_, ?_⟩, fun j _ => ⟨?_, ⟨[_], rfl⟩⟩⟩
      · intro r hr
        rw [hafter] at hr
        exact ⟨v, (Option.some.inj hr).symm⟩
      · intro hnone
        rw [hafter] at hnone
        cases hnone
      · intro j k hj hk
        rcases won_exec.mp hj with hj | ⟨rfl, -⟩
        · exact absurd hj (hnobody j)
        · rcases won_exec.mp hk with hk | ⟨rfl, -⟩
          · exact absurd hk (hnobody k)
          · rfl
      · intro e he ha
        rcases List.mem_cons.mp he with rfl | he
        · obtain ⟨os, hcmd, -⟩ := ha
          cases hcmd
        · exact absurd (hinv.announced e he ha) (hnobody _)
      · intro r hr
        rw [hget] at hr
        cases hr

/-- The stored decision, and a result that agrees with it. -/
def Agrees (sessionId : SessionId) : Except Err ChoiceResult → SessionSnap → Prop
  | .ok (.resolved v _), s => s.world.get (.sessionDecision sessionId) = some v.payload
  | _, _ => True

theorem agrees_lasting (r : Except Err ChoiceResult) :
    Lasting (decisionDiscipline sessionId) i (Agrees sessionId r) := by
  intro s s' hrely h
  match r, h with
  | .error _, _ => trivial
  | .ok (.pending _), _ => trivial
  | .ok (.resolved v _), h => exact hrely.stays _ h

/-- Reading a resolved decision is reading what is stored. -/
theorem DecisionInv.agrees (hinv : DecisionInv sessionId s) {v : ResolvedChoiceResult}
    (h : parseStoredDecision (s.world.get (.sessionDecision sessionId)) = .resolved v) :
    s.world.get (.sessionDecision sessionId) = some v.payload := by
  cases hget : s.world.get (.sessionDecision sessionId) with
  | none =>
      rw [hget] at h
      cases h
  | some r =>
      obtain ⟨v', rfl⟩ := hinv.written r hget
      rw [hget, parseStoredDecision_payload] at h
      cases h
      rfl

/-- Nothing pending and nothing unreadable is ever stored. -/
theorem DecisionInv.parsed (hinv : DecisionInv sessionId s) :
    parseStoredDecision (s.world.get (.sessionDecision sessionId)) = .none ∨
      ∃ v, parseStoredDecision (s.world.get (.sessionDecision sessionId)) = .resolved v := by
  cases hget : s.world.get (.sessionDecision sessionId) with
  | none => exact .inl rfl
  | some r =>
      obtain ⟨v, rfl⟩ := hinv.written r hget
      exact .inr ⟨v, parseStoredDecision_payload v⟩

/-- How `storeDecision` ends: the call has stored its payload, or it is
told what somebody else has stored. -/
def StoredBy (sessionId : SessionId) (i : Nat) (payload : ResolvedChoiceResult) :
    Except Err (Option ResolvedChoiceResult) → SessionSnap → Prop
  | .ok none, s =>
      Won sessionId i s ∧ s.world.get (.sessionDecision sessionId) = some payload.payload
  | .ok (some v), s => s.world.get (.sessionDecision sessionId) = some v.payload
  | .error _, _ => False

theorem decision_valid_storeDecision (payload : ResolvedChoiceResult) :
    (decisionDiscipline sessionId).Valid o i (storeDecision sessionId .none payload)
      (StoredBy sessionId i payload) s := by
  refine valid_redis fun s₁ _ hinv₁ _ => ⟨decision_keeps_storeNX payload hinv₁, ?_⟩
  cases hget : s₁.world.get (.sessionDecision sessionId) with
  | none =>
      show (decisionDiscipline sessionId).Valid o i (ite _ _ _) _ _
      rw [storeNX_none hget]
      refine ⟨won_exec.mpr (.inr ⟨rfl, ⟨_, _, rfl⟩, hget⟩), ?_⟩
      exact get_storeNX hget
  | some r =>
      show (decisionDiscipline sessionId).Valid o i (ite _ _ _) _ _
      rw [storeNX_some hget]
      refine valid_readStoredDecision decision_plainOK fun s₂ h₂ hinv₂ _ => ?_
      have hstored : s₂.world.get (.sessionDecision sessionId) = some r := by
        refine h₂.stays r ?_
        show ((storeNX sessionId payload).exec s₁.world).2.get _ = _
        rw [storeNX_some hget]
        exact hget
      obtain ⟨v, rfl⟩ := hinv₂.written r hstored
      rw [hstored, parseStoredDecision_payload]
      exact hstored

/-- The upsert does not touch Redis. -/
theorem decision_valid_decisionOf {session : Session} {choiceA choiceB : SessionChoice}
    {Q : Except Err ResolvedChoiceResult → SessionSnap → Prop}
    (h : ∀ r s', DecisionRely sessionId s s' → Q r s') :
    (decisionDiscipline sessionId).Valid o i (decisionOf session choiceA choiceB) Q s := by
  unfold decisionOf
  split
  · refine valid_prisma fun s₁ h₁ hinv₁ _ => ?_
    let upsert : DbCmd := .matchUpsert (canonicalPair session.userAId session.userBId).1
      (canonicalPair session.userAId session.userBId).2
    have hget : (Cmd.exec (.db upsert) s₁.world).2.get (.sessionDecision sessionId) =
        s₁.world.get (.sessionDecision sessionId) := upsert.get_exec _ _
    have hgrow := h₁.trans (decision_rely (i := i) hget)
    refine ⟨decision_frame hget ?_ ?_ hinv₁, ?_⟩
    · rintro ⟨⟨v, ttl, hcmd⟩, -⟩
      cases hcmd
    · rintro ⟨os, hcmd, -⟩
      cases hcmd
    · cases (DbCmd.exec (.matchUpsert _ _) s₁.world).1 with
      | error e => exact h _ _ hgrow
      | ok m =>
          show (decisionDiscipline sessionId).Valid o i (ite _ _ _) Q _
          split
          · exact h _ _ hgrow
          · exact h _ _ hgrow
  · exact h _ _ (DecisionRely.refl s)

/-- **A finalizer agrees with the stored decision**, and announces only
what it has stored itself. -/
theorem decision_valid_finalize {self : Instance} {session : Session}
    {choiceA choiceB : SessionChoice} (hid : session.id = sessionId) :
    (decisionDiscipline sessionId).Valid o i (finalizeDecision self session choiceA choiceB)
      (Agrees sessionId) s := by
  subst hid
  refine valid_readStoredDecision decision_plainOK fun s₁ _ hinv₁ hgrow₁ => ?_
  rcases hinv₁.parsed with hparse | ⟨v, hparse⟩
  · rw [hparse]
    refine Discipline.valid_bind (decision_valid_decisionOf fun r s₂ _ => ?_)
    cases r with
    | error e => trivial
    | ok payload =>
        refine Discipline.valid_bind ((decision_valid_storeDecision payload).weaken ?_)
        intro r s₃ hstored
        match r, hstored with
        | .ok (some v), hv => exact hv
        | .ok none, ⟨hwon, hpayload⟩ =>
            refine Discipline.valid_bind (valid_announceDecision decision_plainOK ?_ ?_)
            · intro os s₄ h₄ hinv₄
              have hget : (Cmd.exec (.host (.emit os)) s₄.world).2.get
                  (.sessionDecision session.id) = s₄.world.get (.sessionDecision session.id) := rfl
              refine ⟨decision_frame hget ?_ ?_ hinv₄, decision_rely hget⟩
              · rintro ⟨⟨v, ttl, hcmd⟩, -⟩
                cases hcmd
              · intro _
                obtain ⟨e, he, hwins⟩ := hwon
                exact ⟨e, h₄.trace.subset he, hwins⟩
            · intro s₄ h₄
              exact h₄.stays _ hpayload
  · rw [hparse]
    exact hinv₁.agrees hparse

/-- The finalizer of timers and of the recovery. -/
theorem decision_valid_timeout {self : Instance} (userAId userBId : UserId) :
    (decisionDiscipline sessionId).Valid o i
      (finalizeDecision self (buildSyntheticSession sessionId userAId userBId) .PASS .PASS)
      (Agrees sessionId) s :=
  decision_valid_finalize rfl

theorem decision_keeps_hset {user : UserId} {choice : SessionChoice}
    (hinv : DecisionInv sessionId s) :
    (decisionDiscipline sessionId).Keeps o i (.redis (.hset sessionId user choice)) s := by
  refine decision_frame rfl ?_ ?_ hinv
  · rintro ⟨⟨v, ttl, hcmd⟩, -⟩
    cases hcmd
  · rintro ⟨os, hcmd, -⟩
    cases hcmd

theorem decision_submitScript (self : Instance) (userId : UserId) (choice : SessionChoice) :
    SubmitScript (decisionDiscipline sessionId) o i self sessionId userId choice
      (fun _ _ => True) (fun _ _ => True) (Agrees sessionId) where
  before_lasting := fun _ _ _ _ _ => trivial
  wrote_lasting := fun _ _ _ _ _ => trivial
  lasting := agrees_lasting
  reveal := fun _ _ _ _ h => h
  failed := fun _ _ _ _ => trivial
  postponed := fun _ _ _ _ => trivial
  stored := fun _ _ _ _ hinv hparse => DecisionInv.agrees hinv hparse
  write := fun _ _ _ hinv _ _ => ⟨decision_keeps_hset hinv, trivial⟩
  found := fun _ _ _ _ _ => trivial
  undated := fun _ _ _ _ _ => trivial
  finalize := by
    intro session choiceA choiceB s hid _ _ _ _
    exact decision_valid_finalize hid
  undecided := fun _ _ _ _ _ _ => trivial

end Finalize

/-! ## The main result -/

def decisionPost (sessionId : SessionId) :
    (o : SessionOp) → Nat → Except Err o.Ret → SessionSnap → Prop
  | .submitChoice _ _ _ _, _, r, s => Agrees sessionId r s
  | .choiceTimeout _ _ _ _, _, r, s => Agrees sessionId r s
  | .recoverChoice _ _, _, _, _ => True

theorem decision_governs :
    (decisionDiscipline sessionId).Governs (OfSession sessionId) (decisionPost sessionId) where
  start := by
    intro c o hok _ _
    cases o with
    | submitChoice self id userId choice =>
        cases hok
        exact valid_submitChoice decision_plainOK (decision_submitScript self userId choice)
          (fun _ _ _ _ _ => trivial) (fun _ _ _ => trivial)
    | choiceTimeout self id userAId userBId =>
        cases hok
        exact decision_valid_timeout userAId userBId
    | recoverChoice self id =>
        cases hok
        refine valid_recoverChoice decision_plainOK (P := fun _ => True) (fun _ _ _ _ => trivial)
          trivial (fun _ _ _ => trivial) fun a b s' _ => ?_
        exact (decision_valid_timeout a b).weaken fun _ _ _ _ => trivial
  step := fun _ _ _ _ _ _ _ _ => trivial
  env := by
    intro c e hok hinv
    cases e with
    | tick ms =>
        have hget : World.get (World.env (.tick ms) c.world) (.sessionDecision sessionId) =
            World.get c.world (.sessionDecision sessionId) := World.get_tick hok _
        refine ⟨⟨?_, ?_, hinv.single, hinv.announced⟩, fun i => ⟨?_, List.suffix_rfl⟩⟩
        · show ∀ r, World.get (World.env (.tick ms) c.world) _ = _ → _
          rw [hget]
          exact hinv.written
        · show World.get (World.env (.tick ms) c.world) _ = _ → _
          rw [hget]
          exact hinv.unwon
        · show ∀ r, _ → World.get (World.env (.tick ms) c.world) _ = _
          rw [hget]
          exact fun _ h => h

theorem decision_stable : (decisionDiscipline sessionId).Stable (decisionPost sessionId) := by
  intro o i r s s' hrely h
  cases o with
  | submitChoice self id userId choice => exact agrees_lasting (i := i) r s s' hrely h
  | choiceTimeout self id userAId userBId => exact agrees_lasting (i := i) r s s' hrely h
  | recoverChoice self id => trivial

theorem payload_injective {v v' : ResolvedChoiceResult} (h : v.payload = v'.payload) : v = v' := by
  have hparse := congrArg (fun r => parseStoredDecision (some r)) h
  simpa using hparse

/-- A step lemma: what is stored is still stored after any event. -/
theorem decision_stays {c : Config sessionService.system} {e : Event sessionService.system}
    (hs : (decisionDiscipline sessionId).Sound (decisionPost sessionId) c)
    (hok : OfSession sessionId c e) {r : RedisString}
    (h : World.get c.world (.sessionDecision sessionId) = some r) :
    World.get (c.next e).world (.sessionDecision sessionId) = some r := by
  cases e with
  | start o => exact h
  | env e => exact ((decision_governs.env c e hok hs.inv).2 0).stays r h
  | step i =>
      cases hp : c.pending i with
      | none =>
          rw [Config.next_step_of_pending_none hp]
          exact h
      | some cmd =>
          obtain ⟨o, k, hc⟩ := Config.pending_eq_some.mp hp
          obtain ⟨hkeeps, -⟩ := hs.keeps decision_governs hok hc
          rw [Config.next_step_of_call hc]
          exact (hkeeps.rely (i + 1) (by omega)).stays r h

/-- Call `i` has settled with the resolved result `v`. -/
def Resolves (c : Config sessionService.system) (i : Nat) (v : ResolvedChoiceResult) : Prop :=
  ∃ reveal,
    (∃ self id userId choice,
      c.Settled i (.submitChoice self id userId choice) (.ok (.resolved v reveal))) ∨
    ∃ self id userAId userBId,
      c.Settled i (.choiceTimeout self id userAId userBId) (.ok (.resolved v reveal))

theorem resolves_agrees {c : Config sessionService.system}
    (hdone : Discipline.Done (decisionPost sessionId) c) {i : Nat} {v : ResolvedChoiceResult}
    (h : Resolves c i v) : World.get c.world (.sessionDecision sessionId) = some v.payload := by
  obtain ⟨reveal, ⟨self, id, userId, choice, hs⟩ | ⟨self, id, userAId, userBId, hs⟩⟩ := h
  · exact hdone i _ _ hs
  · exact hdone i _ _ hs

/-- **Agreement and a single announcement.** From a session without a
stored decision, in any run of its submitters, timers and recoveries: every
resolved result is the stored decision, so any two are equal; what is
stored at any point of the run is stored at its end; and all announcements
are made by one call. -/
theorem decision_agreement (sessionId : SessionId) (w : World)
    (hnone : w.get (.sessionDecision sessionId) = none)
    (es₁ es₂ : List (Event sessionService.system))
    (hes : (Config.initial w : Config sessionService.system).Obeys (OfSession sessionId)
      (es₁ ++ es₂)) :
    let c₁ : Config sessionService.system := (Config.initial w).run es₁
    let c₂ := c₁.run es₂
    (∀ i v, Resolves c₂ i v → World.get c₂.world (.sessionDecision sessionId) = some v.payload) ∧
    (∀ i j v v', Resolves c₂ i v → Resolves c₂ j v' → v = v') ∧
    (∀ r, World.get c₁.world (.sessionDecision sessionId) = some r →
      World.get c₂.world (.sessionDecision sessionId) = some r) ∧
    (∀ e ∈ c₂.trace, ∀ e' ∈ c₂.trace, Announces e → Announces e' → e.call = e'.call) := by
  intro c₁ c₂
  have hinv : DecisionInv sessionId ⟨w, []⟩ := by
    refine ⟨?_, ?_, ?_, ?_⟩
    · intro r hr
      rw [hnone] at hr
      cases hr
    · intro _ e he
      cases he
    · rintro i j ⟨e, he, -⟩
      cases he
    · intro e he
      cases he
  obtain ⟨hes₁, hes₂⟩ := (Config.obeys_append _ _ es₁ es₂).mp hes
  obtain ⟨hs₁, -⟩ := decision_governs.sound_run decision_stable hinv hes₁
  obtain ⟨hs₂, hdone₂⟩ := decision_governs.sound_run decision_stable hinv hes
  rw [Config.run_append] at hs₂ hdone₂
  refine ⟨fun i v => resolves_agrees hdone₂, ?_, ?_, ?_⟩
  · intro i j v v' hi hj
    have heq := (resolves_agrees hdone₂ hi).symm.trans (resolves_agrees hdone₂ hj)
    exact payload_injective (Option.some.inj heq)
  · intro r hr
    have hrun := Config.run_induct
      (P := fun c => (decisionDiscipline sessionId).Sound (decisionPost sessionId) c ∧
        World.get c.world (.sessionDecision sessionId) = some r)
      (fun c e hok ⟨hs, hget⟩ => ⟨hs.next decision_governs hok, decision_stays hs hok hget⟩)
      es₂ c₁ hes₂ ⟨hs₁, hr⟩
    exact hrun.2
  · intro e he e' he' ha ha'
    exact hs₂.inv.single _ _ (hs₂.inv.announced e he ha) (hs₂.inv.announced e' he' ha')

/-- Both participants choose MATCH; the second call stops right after its
`upsert`. -/
def bothMatch : List (Event sessionService.system) :=
  (.start (.submitChoice 0 "s" "ann" .MATCH) ::
    List.replicate 13 (.step 0) : List (Event sessionService.system)) ++
    (.start (.submitChoice 0 "s" "bob" .MATCH) ::
      List.replicate 12 (.step 1) : List (Event sessionService.system))

/-- The timer of another process fires, and then the second call goes on. -/
def timeoutFirst : List (Event sessionService.system) :=
  (.env (.tick 60000) :: .start (.choiceTimeout 1 "s" "ann" "bob") ::
    List.replicate 5 (.step 2) : List (Event sessionService.system)) ++
    (List.replicate 2 (.step 1) : List (Event sessionService.system))

theorem decision_agreement_timeoutFirst :
    let c₁ : Config sessionService.system := (Config.initial endedSession).run bothMatch
    let c₂ := c₁.run timeoutFirst
    (∀ i v, Resolves c₂ i v → World.get c₂.world (.sessionDecision "s") = some v.payload) ∧
    (∀ i j v v', Resolves c₂ i v → Resolves c₂ j v' → v = v') ∧
    (∀ r, World.get c₁.world (.sessionDecision "s") = some r →
      World.get c₂.world (.sessionDecision "s") = some r) ∧
    (∀ e ∈ c₂.trace, ∀ e' ∈ c₂.trace, Announces e → Announces e' → e.call = e'.call) :=
  decision_agreement "s" endedSession (by decide) bothMatch timeoutFirst (by decide)

end VerityBackend.Sessions
