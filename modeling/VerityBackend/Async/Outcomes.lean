/-
VerityBackend.Async.Outcomes — what the answers of a run make of its calls.

`Meets` says what a procedure issues and returns as long as the answers it
gets are of `A`. Here `A` is a condition on the trace: if every command of a
run was answered as `A` has it, every command was one its operation may
issue, and every call that has settled has an outcome of `Q`
(`run_meets`). `A` may speak of the run's last trace, since a trace only
grows: it then says what has happened, in whatever order, by the time the
call settles.
-/
import VerityBackend.Async.Answers

namespace VerityBackend.Async.Config

variable {S : System} {P : S.Op → Nat → S.Cmd → Prop}
  {A : Nat → (c : S.Cmd) → Except S.Err (S.Res c) → Prop}
  {Q : (o : S.Op) → Nat → Except S.Err (S.Ret o) → Prop}

/-- Call `i` of `o` was to issue `e`. -/
def IssuedBy (P : S.Op → Nat → S.Cmd → Prop) (c : Config S) (e : Entry S) : Prop :=
  ∃ o p, c.calls[e.call]? = some ⟨o, p⟩ ∧ P o e.call e.cmd

/-- What has been issued was to be issued, and what is left of each call does
as its operation should. -/
structure OnCourse (P : S.Op → Nat → S.Cmd → Prop)
    (A : Nat → (c : S.Cmd) → Except S.Err (S.Res c) → Prop)
    (Q : (o : S.Op) → Nat → Except S.Err (S.Ret o) → Prop) (c : Config S) : Prop where
  issued : ∀ e ∈ c.trace, c.IssuedBy P e
  left : ∀ (i : Nat) (o : S.Op) (p : Proc S.Cmd S.Res S.Err (S.Ret o)),
    c.calls[i]? = some ⟨o, p⟩ → p.Meets (P o i) (A i) (Q o i)

theorem IssuedBy.next {c : Config S} {e : Entry S} (h : c.IssuedBy P e) (ev : Event S) :
    (c.next ev).IssuedBy P e := by
  obtain ⟨o, p, hcall, hP⟩ := h
  have hlt := (List.getElem?_eq_some_iff.mp hcall).1
  cases ev with
  | env ev => exact ⟨o, p, hcall, hP⟩
  | start o' => exact ⟨o, p, (List.getElem?_append_left hlt).trans hcall, hP⟩
  | step i =>
      cases hp : c.pending i with
      | none =>
          rw [next_step_of_pending_none hp]
          exact ⟨o, p, hcall, hP⟩
      | some cmd =>
          obtain ⟨o', k, hc⟩ := pending_eq_some.mp hp
          rw [next_step_of_call hc]
          by_cases hi : e.call = i
          · subst hi
            obtain ⟨rfl, -⟩ := task_inj (hc.symm.trans hcall)
            exact ⟨o', _, List.getElem?_set_self hlt, hP⟩
          · exact ⟨o, p, (List.getElem?_set_ne (Ne.symm hi)).trans hcall, hP⟩

/-- **Step lemma**, for an event after which all answers are of `A`. -/
theorem OnCourse.next (hcode : ∀ o i, (S.code o).Meets (P o i) (A i) (Q o i)) {c : Config S}
    (h : c.OnCourse P A Q) (ev : Event S)
    (hA : ∀ e ∈ (c.next ev).trace, A e.call e.cmd e.res) : (c.next ev).OnCourse P A Q := by
  cases ev with
  | env ev => exact ⟨fun e he => (h.issued e he).next (.env ev), h.left⟩
  | start o' =>
      refine ⟨fun e he => (h.issued e he).next (.start o'), fun i o p hcall => ?_⟩
      rcases Nat.lt_trichotomy i c.calls.length with hlt | heq | hgt
      · exact h.left i o p ((List.getElem?_append_left hlt).symm.trans hcall)
      · subst heq
        obtain ⟨rfl, hk⟩ := task_inj ((List.getElem?_concat_length ..).symm.trans hcall)
        rw [← eq_of_heq hk]
        exact hcode o' _
      · have hnone : (c.calls ++ [⟨o', S.code o'⟩])[i]? = none :=
          List.getElem?_eq_none (by simp; omega)
        cases hnone.symm.trans hcall
  | step i =>
      cases hp : c.pending i with
      | none =>
          rw [next_step_of_pending_none hp]
          exact h
      | some cmd =>
          obtain ⟨o', k, hc⟩ := pending_eq_some.mp hp
          obtain ⟨hP, hrest⟩ := h.left i o' _ hc
          have hlt := (List.getElem?_eq_some_iff.mp hc).1
          have hissued : ∀ e ∈ c.trace, (c.next (.step i)).IssuedBy P e :=
            fun e he => (h.issued e he).next (.step i)
          rw [next_step_of_call hc] at hA hissued ⊢
          refine ⟨fun e he => ?_, fun j o p hcall => ?_⟩
          · rcases List.mem_cons.mp he with rfl | he
            · exact ⟨o', _, List.getElem?_set_self hlt, hP⟩
            · exact hissued e he
          · by_cases hj : j = i
            · subst hj
              obtain ⟨rfl, hk⟩ := task_inj ((List.getElem?_set_self hlt).symm.trans hcall)
              rw [← eq_of_heq hk]
              exact hrest _ (hA ⟨j, cmd, c.world⟩ List.mem_cons_self)
            · exact h.left j o p ((List.getElem?_set_ne (Ne.symm hj)).symm.trans hcall)

theorem trace_suffix_next (c : Config S) (ev : Event S) : c.trace <:+ (c.next ev).trace := by
  cases ev with
  | start o => exact List.suffix_refl _
  | env e => exact List.suffix_refl _
  | step i =>
      cases hp : c.pending i with
      | none =>
          have hsame := next_step_of_pending_none hp
          exact hsame.symm ▸ List.suffix_refl _
      | some cmd =>
          obtain ⟨o, k, hc⟩ := pending_eq_some.mp hp
          rw [next_step_of_call hc]
          exact List.suffix_cons _ _

theorem trace_suffix_run (c : Config S) (es : List (Event S)) : c.trace <:+ (c.run es).trace := by
  induction es generalizing c with
  | nil => exact List.suffix_refl _
  | cons e es ih => exact (trace_suffix_next c e).trans (ih (c.next e))

/-- What never decreases was at most as large when a command was executed. -/
theorem before_le {f : S.World → Nat} (hexec : ∀ c w, f w ≤ f (S.exec c w).2)
    (henv : ∀ e w, f w ≤ f (S.env e w)) (w : S.World) (es : List (Event S)) :
    ∀ e ∈ ((initial w).run es).trace, f e.before ≤ f ((initial w).run es).world := by
  have hes : (initial w : Config S).Obeys (fun _ _ => True) es :=
    obeys_of_forall (fun _ _ => trivial) _ _
  refine run_induct (P := fun c => ∀ e ∈ c.trace, f e.before ≤ f c.world) ?_ es _ hes
    fun e he => absurd he List.not_mem_nil
  intro c ev _ h
  cases ev with
  | start o => exact h
  | env ev => exact fun e he => Nat.le_trans (h e he) (henv ev _)
  | step i =>
      cases hp : c.pending i with
      | none =>
          rw [next_step_of_pending_none hp]
          exact h
      | some cmd =>
          obtain ⟨o, k, hc⟩ := pending_eq_some.mp hp
          rw [next_step_of_call hc]
          intro e he
          rcases List.mem_cons.mp he with rfl | he
          · exact hexec cmd c.world
          · exact Nat.le_trans (h e he) (hexec cmd c.world)

/-- **Run lemma**: with every answer of the run one of `A`. -/
theorem run_meets (hcode : ∀ o i, (S.code o).Meets (P o i) (A i) (Q o i)) (w : S.World)
    (es : List (Event S)) (hA : ∀ e ∈ ((initial w).run es).trace, A e.call e.cmd e.res) :
    ((initial w).run es).OnCourse P A Q := by
  have hrun : ∀ (es : List (Event S)) (c : Config S), c.OnCourse P A Q →
      (∀ e ∈ (c.run es).trace, A e.call e.cmd e.res) → (c.run es).OnCourse P A Q := by
    intro es
    induction es with
    | nil => exact fun c h _ => h
    | cons ev es ih =>
        intro c h hA
        refine ih (c.next ev) (h.next hcode ev fun e he => hA e ?_) hA
        exact (trace_suffix_run (c.next ev) es).subset he
  have hstart : (initial w : Config S).OnCourse P A Q :=
    ⟨fun e he => absurd he List.not_mem_nil, fun i o p hcall => by cases hcall⟩
  exact hrun es (initial w) hstart hA

/-- A settled call has an outcome of `Q`. -/
theorem OnCourse.settled {c : Config S} (h : c.OnCourse P A Q) {i : Nat} {o : S.Op}
    {r : Except S.Err (S.Ret o)} (hr : c.Settled i o r) : Q o i r := h.left i o _ hr

end VerityBackend.Async.Config
