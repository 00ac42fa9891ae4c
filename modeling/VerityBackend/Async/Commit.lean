/-
VerityBackend.Async.Commit — procedures with one commit point.

`Commits P A` is a procedure that throws without having issued a command of
`P`, or issues one, and from there on only commands of `A` until it returns.
Where commands of `P` and of `A` do not fail, as many commands of `P` are
executed in a run as calls get past their commit point, whatever the calls
do to each other: once all are done, as many as have returned
(`commits_eq_returned`).
-/
import VerityBackend.Async.Interleaving

namespace VerityBackend.Async

namespace Proc

variable {Cmd : Type} {Res : Cmd → Type} {Err α β : Type}

/-- One command of `P` if it returns, none if it throws; what follows the
command are commands of `A`. -/
def Commits (P : Cmd → Bool) (A : Cmd → Prop) : Proc Cmd Res Err α → Prop
  | .ret r => ∃ e, r = .error e
  | .call c k =>
      (P c = true ∧ ∀ a, (k (.ok a)).Conforms A False) ∨ (P c = false ∧ ∀ r, (k r).Commits P A)

variable {P : Cmd → Bool} {A : Cmd → Prop}

theorem commits_fail (e : Err) : (fail e : Proc Cmd Res Err α).Commits P A := ⟨e, rfl⟩

/-- Before the commit point. -/
theorem Commits.after {p : Proc Cmd Res Err α} (hp : p.Conforms (fun c => P c = false) True)
    {f : α → Proc Cmd Res Err β} (hf : ∀ a, (f a).Commits P A) : (p.bind f).Commits P A := by
  induction p with
  | ret r =>
      cases r with
      | ok a => exact hf a
      | error e => exact ⟨e, rfl⟩
  | call c k ih => exact .inr ⟨hp.1, fun r => ih r (hp.2 r (.inr trivial))⟩

/-- The commit point. -/
theorem commits_await {c : Cmd} (hc : P c = true) {f : Res c → Proc Cmd Res Err β}
    (hf : ∀ a, (f a).Conforms A False) : ((await c).bind f).Commits P A := .inl ⟨hc, hf⟩

/-- A procedure is not both before and after its commit point. -/
theorem Commits.not_conforms {p : Proc Cmd Res Err α} (h : p.Commits P A)
    (hA : ∀ c, A c → P c = false ∧ Nonempty (Res c)) : ¬p.Conforms A False := by
  induction p with
  | ret r =>
      obtain ⟨e, rfl⟩ := h
      rintro (⟨a, ha⟩ | hfalse)
      · cases ha
      · exact hfalse
  | call c k ih =>
      rintro ⟨hc, hk⟩
      obtain ⟨hnot, ⟨a⟩⟩ := hA c hc
      rcases h with ⟨hcommit, -⟩ | ⟨-, hrest⟩
      · rw [hnot] at hcommit
        cases hcommit
      · exact ih (.ok a) (hrest _) (hk _ (.inl ⟨a, rfl⟩))

end Proc

namespace Config

variable {S : System}

/-- The call has returned a value. -/
def returnedOk (t : Task S) : Bool :=
  match t.2 with
  | .ret (.ok _) => true
  | _ => false

section Commit

variable (sel : S.Op → Bool) (P : S.Cmd → Bool) (A : S.Cmd → Prop)

/-- The call is past its commit point. -/
def Committed (t : Task S) : Prop := sel t.1 = true ∧ t.2.Conforms A False

open Classical in
/-- Commit points are those of the calls that are past them. -/
structure Booked (c : Config S) : Prop where
  selected : ∀ t ∈ c.calls, sel t.1 = true → t.2.Commits P A ∨ t.2.Conforms A False
  others : ∀ t ∈ c.calls, sel t.1 = false → t.2.Conforms (fun cmd => P cmd = false) True
  count : c.trace.countP (fun e => P e.cmd) = c.calls.countP fun t => decide (Committed sel A t)

/-- From the commit point on, commands are answered. -/
structure Answered : Prop where
  commit : ∀ c w, P c = true → ∃ a, (S.exec c w).1 = .ok a
  after : ∀ c w, A c → P c = false ∧ ∃ a, (S.exec c w).1 = .ok a

variable {sel P A}

theorem Answered.not_committed (h : Answered (S := S) P A) (w : S.World) {t : Task S}
    (ht : t.2.Commits P A) : ¬Committed sel A t := fun hcommitted =>
  ht.not_conforms (fun c hc => ⟨(h.after c w hc).1, (h.after c w hc).2.nonempty⟩) hcommitted.2

open Classical in
/-- What one command of a selected call does: it gets past its commit point
exactly with a command of `P`. -/
theorem commits_step (hanswered : Answered (S := S) P A) {o : S.Op} {cmd : S.Cmd}
    {k : Except S.Err (S.Res cmd) → Proc S.Cmd S.Res S.Err (S.Ret o)} (w : S.World)
    (h : (Proc.call cmd k).Commits P A ∨ (Proc.call cmd k).Conforms A False) :
    ((k (S.exec cmd w).1).Commits P A ∨ (k (S.exec cmd w).1).Conforms A False) ∧
      ((k (S.exec cmd w).1).Conforms A False ↔
        P cmd = true ∨ (Proc.call cmd k).Conforms A False) := by
  have hA (c) (hc : A c) : P c = false ∧ Nonempty (S.Res c) :=
    ⟨(hanswered.after c w hc).1, (hanswered.after c w hc).2.nonempty⟩
  rcases h with (⟨hcommit, hk⟩ | ⟨hnot, hk⟩) | hconf
  · obtain ⟨a, ha⟩ := hanswered.commit cmd w hcommit
    rw [ha]
    exact ⟨.inr (hk a), iff_of_true (hk a) (.inl hcommit)⟩
  · have hbefore : (Proc.call cmd k).Commits P A := .inr ⟨hnot, hk⟩
    refine ⟨.inl (hk _), iff_of_false ((hk _).not_conforms hA) ?_⟩
    rw [hnot]
    simpa using hbefore.not_conforms hA
  · have hnext := hconf.2 _ (.inl (hanswered.after cmd w hconf.1).2)
    exact ⟨.inr hnext, iff_of_true hnext (.inr hconf)⟩

open Classical in
/-- **Step lemma.** -/
theorem Booked.next (hanswered : Answered (S := S) P A)
    (hcode : ∀ o, sel o = true → (S.code o).Commits P A)
    (hother : ∀ o, sel o = false → (S.code o).Conforms (fun cmd => P cmd = false) True)
    {c : Config S} (h : Booked sel P A c) (e : Event S) : Booked sel P A (c.next e) := by
  cases e with
  | env e => exact ⟨h.selected, h.others, h.count⟩
  | start o =>
      refine ⟨fun t ht hsel => ?_, fun t ht hsel => ?_, ?_⟩
      · rcases List.mem_append.mp ht with ht | ht
        · exact h.selected t ht hsel
        · obtain rfl := List.mem_singleton.mp ht
          exact .inl (hcode o hsel)
      · rcases List.mem_append.mp ht with ht | ht
        · exact h.others t ht hsel
        · obtain rfl := List.mem_singleton.mp ht
          exact hother o hsel
      · have hnot : ¬Committed sel A (⟨o, S.code o⟩ : Task S) := fun hcommitted =>
          hanswered.not_committed c.world (hcode o hcommitted.1) hcommitted
        change c.trace.countP _ = (c.calls ++ [(⟨o, S.code o⟩ : Task S)]).countP _
        rw [List.countP_append, List.countP_singleton, decide_eq_false hnot, h.count]
        rfl
  | step i =>
      cases hp : c.pending i with
      | none =>
          rw [next_step_of_pending_none hp]
          exact h
      | some cmd =>
          obtain ⟨o, k, hc⟩ := pending_eq_some.mp hp
          have hmem := List.mem_of_getElem? hc
          obtain ⟨hlt, hget⟩ := List.getElem?_eq_some_iff.mp hc
          have hstep (hsel : sel o = true) :=
            commits_step hanswered (k := k) c.world (h.selected _ hmem hsel)
          rw [next_step_of_call hc]
          refine ⟨fun t ht hsel => ?_, fun t ht hsel => ?_, ?_⟩
          · rcases List.mem_or_eq_of_mem_set ht with ht | rfl
            · exact h.selected t ht hsel
            · exact (hstep hsel).1
          · rcases List.mem_or_eq_of_mem_set ht with ht | rfl
            · exact h.others t ht hsel
            · exact (h.others _ hmem hsel).2 _ (.inr trivial)
          · have hcount : (if Committed sel A (⟨o, k (S.exec cmd c.world).1⟩ : Task S) then 1 else 0) =
                (if P cmd = true then 1 else 0) +
                  if Committed sel A (⟨o, .call cmd k⟩ : Task S) then 1 else 0 := by
              cases hsel : sel o with
              | false =>
                  have hnot : P cmd = false := (h.others _ hmem hsel).1
                  simp [Committed, hsel, hnot]
              | true =>
                  have hpast := (hstep hsel).2
                  have hapart : P cmd = true → ¬(Proc.call cmd k).Conforms A False := by
                    intro hcommit hconf
                    rw [(hanswered.after cmd c.world hconf.1).1] at hcommit
                    cases hcommit
                  simp only [Committed, hsel, true_and]
                  by_cases hcommit : P cmd = true
                  · rw [if_pos (hpast.mpr (.inl hcommit)), if_pos hcommit, if_neg (hapart hcommit)]
                  · have hsame : (k (S.exec cmd c.world).1).Conforms A False ↔
                        (Proc.call cmd k).Conforms A False := hpast.trans (or_iff_right hcommit)
                    rw [if_neg hcommit, Nat.zero_add]
                    simp only [hsame]
            have hbefore := List.boole_getElem_le_countP
              (p := fun t => decide (Committed sel A t)) hlt
            change (⟨i, cmd, c.world⟩ :: c.trace : List (Entry S)).countP _ =
              (c.calls.set i _).countP _
            rw [List.countP_cons, List.countP_set hlt, h.count]
            rw [hget] at hbefore ⊢
            simp only [decide_eq_true_eq] at hbefore ⊢
            rw [hcount]
            omega

theorem booked_initial (w : S.World) : Booked sel P A (initial w : Config S) :=
  ⟨fun _ ht _ => (nomatch ht), fun _ ht _ => (nomatch ht), rfl⟩

/-- **Run lemma**: when all calls are done, the commit points are those of
the selected calls that have returned. -/
theorem commits_eq_returned (hanswered : Answered (S := S) P A)
    (hcode : ∀ o, sel o = true → (S.code o).Commits P A)
    (hother : ∀ o, sel o = false → (S.code o).Conforms (fun cmd => P cmd = false) True)
    (w : S.World) (es : List (Event S)) (hquiet : ((initial w).run es).Quiet) :
    ((initial w).run es).trace.countP (fun e => P e.cmd) =
      ((initial w).run es).calls.countP fun t => sel t.1 && returnedOk t := by
  have hany : (initial w : Config S).Obeys (fun _ _ => True) es :=
    obeys_of_forall (fun _ _ => trivial) (initial w) es
  have hbooked : Booked sel P A ((initial w).run es) :=
    run_induct (fun _ e _ h => h.next hanswered hcode hother e) es _ hany (booked_initial w)
  rw [hbooked.count]
  refine List.countP_congr fun t ht => ?_
  have hdone := (quiet_iff _).mp hquiet t ht
  have hselected := hbooked.selected t ht
  obtain ⟨o, p⟩ := t
  cases p with
  | call cmd k => cases hdone
  | ret r =>
      refine (@decide_eq_true_iff _ (Classical.propDecidable _)).trans ?_
      rw [Bool.and_eq_true]
      refine and_congr_right fun hsel => ?_
      cases r with
      | ok a => exact iff_of_true (.inl ⟨a, rfl⟩) rfl
      | error e =>
          refine iff_of_false ?_ (by simp [returnedOk])
          rintro (⟨a, ha⟩ | hfalse)
          · cases ha
          · exact hfalse

end Commit

end Config

end VerityBackend.Async
