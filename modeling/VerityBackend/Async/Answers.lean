/-
VerityBackend.Async.Answers — which commands a procedure issues, as long as
the answers it gets are to be expected.

`Proc.Conforms` goes over every answer a command could be given. `Meets`
goes over those that `A` allows, and carries what is returned (`Q`): a
branch that is only taken after an impossible answer issues nothing. An
invariant of the world that makes every answer one of `A` is an invariant
of every interleaving (`run_answered`).
-/
import VerityBackend.Async.Failing
import VerityBackend.Async.Interleaving

namespace VerityBackend.Async

namespace Proc

variable {Cmd : Type} {Res : Cmd → Type} {Err α β : Type}

/-- With answers of `A`, every command issued satisfies `P` and the outcome
satisfies `Q`. -/
def Meets (P : Cmd → Prop) (A : (c : Cmd) → Except Err (Res c) → Prop) (Q : Except Err α → Prop) :
    Proc Cmd Res Err α → Prop
  | .ret r => Q r
  | .call c k => P c ∧ ∀ r, A c r → (k r).Meets P A Q

/-- Nothing is said about the outcome. -/
abbrev Keeps (P : Cmd → Prop) (A : (c : Cmd) → Except Err (Res c) → Prop)
    (p : Proc Cmd Res Err α) : Prop := p.Meets P A fun _ => True

variable {P P' : Cmd → Prop} {A : (c : Cmd) → Except Err (Res c) → Prop}
  {Q Q' : Except Err α → Prop}

theorem meets_pure {a : α} (h : Q (.ok a)) : (pure a : Proc Cmd Res Err α).Meets P A Q := h

theorem meets_fail {e : Err} (h : Q (.error e)) : (fail e : Proc Cmd Res Err α).Meets P A Q := h

theorem meets_await {c : Cmd} {Q : Except Err (Res c) → Prop} (hc : P c) (h : ∀ r, A c r → Q r) :
    (await c : Proc Cmd Res Err (Res c)).Meets P A Q := ⟨hc, h⟩

theorem keeps_await {c : Cmd} (hc : P c) : (await c : Proc Cmd Res Err (Res c)).Keeps P A :=
  ⟨hc, fun _ _ => trivial⟩

theorem Meets.mono {p : Proc Cmd Res Err α} (h : p.Meets P A Q) (hP : ∀ c, P c → P' c)
    (hQ : ∀ r, Q r → Q' r) : p.Meets P' A Q' := by
  induction p with
  | ret r => exact hQ r h
  | call c k ih => exact ⟨hP c h.1, fun r hr => ih r (h.2 r hr)⟩

/-- Sequencing: the rest counts on what the first part returns. -/
theorem Meets.bind {p : Proc Cmd Res Err α} {f : α → Proc Cmd Res Err β} {Q' : Except Err β → Prop}
    (hp : p.Meets P A Q) (hf : ∀ a, Q (.ok a) → (f a).Meets P A Q')
    (he : ∀ e, Q (.error e) → Q' (.error e)) : (p.bind f).Meets P A Q' := by
  induction p with
  | ret r =>
      cases r with
      | ok a => exact hf a hp
      | error e => exact he e hp
  | call c k ih => exact ⟨hp.1, fun r hr => ih r (hp.2 r hr)⟩

theorem Meets.keeps_bind {p : Proc Cmd Res Err α} {f : α → Proc Cmd Res Err β}
    (hp : p.Meets P A Q) (hf : ∀ a, Q (.ok a) → (f a).Keeps P A) : (p.bind f).Keeps P A :=
  hp.bind hf fun _ _ => trivial

/-- What is issued whatever the answers are. -/
theorem Conforms.keeps {p : Proc Cmd Res Err α} {b : Prop} (hp : p.Conforms P b) (hb : b) :
    p.Keeps P A := by
  induction p with
  | ret r => trivial
  | call c k ih => exact ⟨hp.1, fun r _ => ih r (hp.2 r (.inr hb))⟩

/-! ## Some of the commands -/

section Embed

variable {Cmd' : Type} {Res' : Cmd' → Type} {inject : Cmd → Cmd'}
  {answer : (c : Cmd) → Except Err (Res' (inject c)) → Except Err (Res c)}
  {P' : Cmd' → Prop} {A' : (c : Cmd') → Except Err (Res' c) → Prop}

/-- The procedure among others, that issue more commands than it does. -/
def embed (inject : Cmd → Cmd')
    (answer : (c : Cmd) → Except Err (Res' (inject c)) → Except Err (Res c)) :
    Proc Cmd Res Err α → Proc Cmd' Res' Err α
  | .ret r => .ret r
  | .call c k => .call (inject c) fun r => (k (answer c r)).embed inject answer

theorem Meets.embed {p : Proc Cmd Res Err α} (h : p.Meets P A Q) (hP : ∀ c, P c → P' (inject c))
    (hA : ∀ c r, A' (inject c) r → A c (answer c r)) :
    (p.embed inject answer).Meets P' A' Q := by
  induction p with
  | ret r => exact h
  | call c k ih => exact ⟨hP c h.1, fun r hr => ih _ (h.2 _ (hA c r hr))⟩

theorem Conforms.embed {p : Proc Cmd Res Err α} (h : p.Conforms P True)
    (hP : ∀ c, P c → P' (inject c)) : (p.embed inject answer).Conforms P' True := by
  induction p with
  | ret r => exact .inr trivial
  | call c k ih => exact ⟨hP c h.1, fun r _ => ih _ (h.2 _ (.inr trivial))⟩

/-- It issues the same commands, where they mean the same. -/
theorem commands_embed {σ σ' : Type} {exec : (c : Cmd) → σ → Except Err (Res c) × σ}
    {exec' : (c : Cmd') → σ' → Except Err (Res' c) × σ'} {part : σ' → σ}
    (hanswer : ∀ c s, answer c (exec' (inject c) s).1 = (exec c (part s)).1)
    (hpart : ∀ c s, part (exec' (inject c) s).2 = (exec c (part s)).2)
    (p : Proc Cmd Res Err α) (s : σ') :
    (p.embed inject answer).commands exec' s = (p.commands exec (part s)).map inject := by
  induction p generalizing s with
  | ret r => rfl
  | call c k ih =>
      have hrest := ih (exec c (part s)).1 (exec' (inject c) s).2
      rw [hpart] at hrest
      rw [commands_call, List.map_cons, ← hrest, ← hanswer]
      rfl

end Embed

end Proc

namespace Config

variable {S : System}

/-- The calls in flight go on as their operations may. -/
def Going (P : S.Cmd → Prop) (A : (c : S.Cmd) → Except S.Err (S.Res c) → Prop) (c : Config S) :
    Prop :=
  ∀ t ∈ c.calls, t.2.Keeps P A

section Going

variable {P : S.Cmd → Prop} {A : (c : S.Cmd) → Except S.Err (S.Res c) → Prop} {c : Config S}

/-- The next command of a call in flight is one of `P`. -/
theorem Going.pending (h : c.Going P A) {i : Nat} {cmd : S.Cmd} (hp : c.pending i = some cmd) :
    P cmd := by
  obtain ⟨o, k, hc⟩ := pending_eq_some.mp hp
  exact (h _ (List.mem_of_getElem? hc)).1

/-- **Step lemma**: a call stays on its way when it is given an answer of
`A`. -/
theorem Going.next {e : Event S} (hcode : ∀ o, e = .start o → (S.code o).Keeps P A)
    (h : c.Going P A)
    (hanswer : ∀ i cmd, e = .step i → c.pending i = some cmd → P cmd →
      A cmd (S.exec cmd c.world).1) :
    (c.next e).Going P A := by
  cases e with
  | env e => exact h
  | start o =>
      intro t ht
      rcases List.mem_append.mp ht with ht | ht
      · exact h t ht
      · rw [List.mem_singleton.mp ht]
        exact hcode o rfl
  | step i =>
      cases hp : c.pending i with
      | none => rw [next_step_of_pending_none hp]; exact h
      | some cmd =>
          obtain ⟨o, k, hc⟩ := pending_eq_some.mp hp
          have hcall := h _ (List.mem_of_getElem? hc)
          rw [next_step_of_call hc]
          intro t ht
          rcases List.mem_or_eq_of_mem_set ht with ht | rfl
          · exact h t ht
          · exact hcall.2 _ (hanswer i cmd rfl hp hcall.1)

/-- **Run lemma**: an invariant that makes the answers be those of `A`, and
that every command of `P` keeps where the run admits it. -/
theorem run_answered {ok : Config S → Event S → Prop} {I : Snap S → Prop}
    (hcode : ∀ c o, ok c (.start o) → (S.code o).Keeps P A)
    (hanswer : ∀ c i cmd, ok c (.step i) → c.pending i = some cmd → P cmd → I c.toSnap →
      A cmd (S.exec cmd c.world).1)
    (hexec : ∀ c i cmd, ok c (.step i) → c.pending i = some cmd → P cmd → I c.toSnap →
      I (c.toSnap.exec i cmd))
    (henv : ∀ c e, ok c (.env e) → I c.toSnap → I (c.next (.env e)).toSnap)
    (es : List (Event S)) {w : S.World} (hes : (initial w).Obeys ok es) (hw : I ⟨w, []⟩) :
    I ((initial w).run es).toSnap ∧ ((initial w).run es).Going P A := by
  refine run_induct (P := fun c => I c.toSnap ∧ c.Going P A) ?_ es (initial w) hes
    ⟨hw, fun t ht => by cases ht⟩
  rintro c e hok ⟨hI, hgoing⟩
  refine ⟨?_, hgoing.next (fun o he => hcode c o (he ▸ hok))
    fun i cmd he hp hcmd => hanswer c i cmd (he ▸ hok) hp hcmd hI⟩
  cases e with
  | start o => exact hI
  | env e => exact henv c e hok hI
  | step i =>
      cases hp : c.pending i with
      | none => rw [next_step_of_pending_none hp]; exact hI
      | some cmd =>
          have hnext := hexec c i cmd hok hp (hgoing.pending hp) hI
          obtain ⟨o, k, hc⟩ := pending_eq_some.mp hp
          rw [next_step_of_call hc]
          exact hnext

end Going

/-! ## A call alone -/

/-- A call that is stepped again and again issues its commands. -/
theorem issues_steps {o : S.Op} {i : Nat} (p : Proc S.Cmd S.Res S.Err (S.Ret o)) {c : Config S}
    (hc : c.calls[i]? = some ⟨o, p⟩) {cmd : S.Cmd} (hcmd : cmd ∈ p.commands S.exec c.world) :
    ∃ n, ∃ e ∈ (c.run (List.replicate n (.step i))).trace, e.cmd = cmd := by
  induction p generalizing c with
  | ret r => cases hcmd
  | call c₀ k ih =>
      have hi := (List.getElem?_eq_some_iff.mp hc).1
      have hnext := next_step_of_call hc
      rcases List.mem_cons.mp hcmd with rfl | hrest
      · refine ⟨1, ⟨i, cmd, c.world⟩, ?_, rfl⟩
        rw [List.replicate_one, run_cons, run_nil, hnext]
        exact List.mem_cons_self
      · obtain ⟨n, e, he, rfl⟩ := ih (S.exec c₀ c.world).1
          (c := c.next (.step i)) (by rw [hnext]; exact List.getElem?_set_self hi)
          (by rw [hnext]; exact hrest)
        exact ⟨n + 1, e, he, rfl⟩

/-- What a call issues alone, a run has issued. -/
theorem issues_alone {w : S.World} {o : S.Op} {cmd : S.Cmd}
    (h : cmd ∈ (S.code o).commands S.exec w) :
    ∃ n, ∃ e ∈ ((initial w).run (.start o :: List.replicate n (.step 0))).trace, e.cmd = cmd :=
  issues_steps (S.code o) (c := (initial w).next (.start o)) rfl h

end Config

end VerityBackend.Async
