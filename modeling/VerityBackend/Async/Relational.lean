/-
VerityBackend.Async.Relational — two runs of the same events, side by side.

`Alike C A R p p'` is said of a procedure in each of the runs: the next
commands are related by `C`, answers related by `A` lead on to procedures
that are alike again, and in the end both throw the same error or return
values related by `R`. Nothing is said about answers that are not related,
so `A` also states what is known of an answer, and an answer that cannot
come leaves nothing to show.

Two configurations are twins if their calls are alike and their traces
related; they stay twins as long as the answers are related
(`Twins.next`).
-/
import Mathlib.Data.List.Forall2
import VerityBackend.Async.Interleaving

namespace VerityBackend.Async

/-- The same error, or related values. -/
inductive Both {Err α α' : Type} (R : α → α' → Prop) : Except Err α → Except Err α' → Prop
  | ok {a : α} {a' : α'} (h : R a a') : Both R (.ok a) (.ok a')
  | error (e : Err) : Both R (.error e) (.error e)

theorem Both.refl {Err α : Type} {R : α → α → Prop} (hR : ∀ a, R a a) (r : Except Err α) :
    Both R r r := by
  cases r with
  | ok a => exact .ok (hR a)
  | error e => exact .error e

theorem Both.mono {Err α α' : Type} {R R' : α → α' → Prop} (hR : ∀ a a', R a a' → R' a a')
    {r : Except Err α} {r' : Except Err α'} (h : Both R r r') : Both R' r r' := by
  cases h with
  | ok h => exact .ok (hR _ _ h)
  | error e => exact .error e

namespace Proc

variable {Cmd : Type} {Res : Cmd → Type} {Err α α' β β' : Type}

def Alike (C : Cmd → Cmd → Prop)
    (A : (c c' : Cmd) → Except Err (Res c) → Except Err (Res c') → Prop) (R : α → α' → Prop) :
    Proc Cmd Res Err α → Proc Cmd Res Err α' → Prop
  | .ret r, .ret r' => Both R r r'
  | .call c k, .call c' k' => C c c' ∧ ∀ r r', A c c' r r' → (k r).Alike C A R (k' r')
  | _, _ => False

variable {C : Cmd → Cmd → Prop} {A : (c c' : Cmd) → Except Err (Res c) → Except Err (Res c') → Prop}
  {R R' : α → α' → Prop}

theorem alike_pure {a : α} {a' : α'} (h : R a a') :
    (pure a : Proc Cmd Res Err α).Alike C A R (pure a') := .ok h

theorem alike_fail (e : Err) :
    (fail e : Proc Cmd Res Err α).Alike C A R (fail e) := .error e

theorem alike_await {c c' : Cmd} {R : Res c → Res c' → Prop} (hC : C c c')
    (h : ∀ r r', A c c' r r' → Both R r r') :
    (await c : Proc Cmd Res Err (Res c)).Alike C A R (await c') := ⟨hC, h⟩

theorem Alike.mono {p : Proc Cmd Res Err α} {p' : Proc Cmd Res Err α'} (h : p.Alike C A R p')
    (hR : ∀ a a', R a a' → R' a a') : p.Alike C A R' p' := by
  induction p generalizing p' with
  | ret r =>
      cases p' with
      | ret r' => exact Both.mono hR h
      | call c' k' => exact h
  | call c k ih =>
      cases p' with
      | ret r' => exact h
      | call c' k' => exact ⟨h.1, fun r r' hr => ih r (h.2 r r' hr)⟩

/-- Sequencing: related values are followed by what is alike. -/
theorem Alike.bind {p : Proc Cmd Res Err α} {p' : Proc Cmd Res Err α'}
    {f : α → Proc Cmd Res Err β} {f' : α' → Proc Cmd Res Err β'} {R' : β → β' → Prop}
    (h : p.Alike C A R p') (hf : ∀ a a', R a a' → (f a).Alike C A R' (f' a')) :
    (p.bind f).Alike C A R' (p'.bind f') := by
  induction p generalizing p' with
  | ret r =>
      cases p' with
      | call c' k' => exact h.elim
      | ret r' =>
          cases (h : Both R r r') with
          | ok h => exact hf _ _ h
          | error e => exact .error e
  | call c k ih =>
      cases p' with
      | ret r' => exact h.elim
      | call c' k' => exact ⟨h.1, fun r r' hr => ih r (h.2 r r' hr)⟩

/-- A procedure is like itself where its commands are answered alike. -/
theorem Conforms.alike {P : Cmd → Prop} {p : Proc Cmd Res Err α} (hp : p.Conforms P True)
    (hC : ∀ c, P c → C c c) (hA : ∀ c r r', P c → A c c r r' → r = r') : p.Alike C A Eq p := by
  induction p with
  | ret r => exact .refl (fun _ => rfl) r
  | call c k ih =>
      refine ⟨hC c hp.1, fun r r' hr => ?_⟩
      obtain rfl := hA c r r' hp.1 hr
      exact ih r (hp.2 r (.inr trivial))

end Proc

/-! ## Twin configurations -/

theorem forall₂_set {α β : Type} {T : α → β → Prop} {l : List α} {l' : List β}
    (h : List.Forall₂ T l l') (i : Nat) {a : α} {b : β} (hab : T a b) :
    List.Forall₂ T (l.set i a) (l'.set i b) := by
  induction h generalizing i with
  | nil => exact .nil
  | cons hd tl ih =>
      cases i with
      | zero => exact .cons hab tl
      | succ i => exact .cons hd (ih i)

variable {S : System}

section Twins

variable (C : S.Cmd → S.Cmd → Prop)
  (A : (c c' : S.Cmd) → Except S.Err (S.Res c) → Except S.Err (S.Res c') → Prop)
  (R : (o : S.Op) → S.Ret o → S.Ret o → Prop)

/-- The same call in each of the runs. -/
inductive TwinTask : Task S → Task S → Prop
  | mk {o : S.Op} {p p' : Proc S.Cmd S.Res S.Err (S.Ret o)} (h : p.Alike C A (R o) p') :
      TwinTask ⟨o, p⟩ ⟨o, p'⟩

/-- The same command in each of the runs. -/
def TwinEntry (e e' : Entry S) : Prop := e.call = e'.call ∧ C e.cmd e'.cmd

structure Twins (c c' : Config S) : Prop where
  calls : List.Forall₂ (TwinTask C A R) c.calls c'.calls
  trace : List.Forall₂ (TwinEntry C) c.trace c'.trace

end Twins

namespace Twins

variable {C : S.Cmd → S.Cmd → Prop}
  {A : (c c' : S.Cmd) → Except S.Err (S.Res c) → Except S.Err (S.Res c') → Prop}
  {R : (o : S.Op) → S.Ret o → S.Ret o → Prop} {c c' : Config S}

theorem initial (w w' : S.World) : Twins C A R (Config.initial w) (Config.initial w') :=
  ⟨.nil, .nil⟩

/-- A call stands where its twin stands. -/
theorem task (h : Twins C A R c c') {i : Nat} (hi : i < c.calls.length) :
    ∃ o p p', c.calls[i]? = some ⟨o, p⟩ ∧ c'.calls[i]? = some ⟨o, p'⟩ ∧ p.Alike C A (R o) p' := by
  have hi' : i < c'.calls.length := h.calls.length_eq ▸ hi
  have htask : TwinTask C A R c.calls[i] c'.calls[i] := h.calls.get hi hi'
  rw [List.getElem?_eq_getElem hi, List.getElem?_eq_getElem hi']
  generalize c.calls[i] = t, c'.calls[i] = t' at htask
  obtain ⟨halike⟩ := htask
  exact ⟨_, _, _, rfl, rfl, halike⟩

/-- A command is executed in both runs or in none. -/
theorem step_cases (h : Twins C A R c c') (i : Nat) :
    (c.next (.step i) = c ∧ c'.next (.step i) = c') ∨
      ∃ o cmd cmd' k k', c.calls[i]? = some ⟨o, .call cmd k⟩ ∧
        c'.calls[i]? = some ⟨o, .call cmd' k'⟩ ∧ C cmd cmd' ∧
        ∀ r r', A cmd cmd' r r' → (k r).Alike C A (R o) (k' r') := by
  by_cases hi : i < c.calls.length
  · obtain ⟨o, p, p', hc, hc', halike⟩ := h.task hi
    cases p with
    | ret r =>
        cases p' with
        | ret r' =>
            exact .inl ⟨Config.next_step_of_pending_none (by simp only [Config.pending, hc]),
              Config.next_step_of_pending_none (by simp only [Config.pending, hc'])⟩
        | call cmd' k' => exact halike.elim
    | call cmd k =>
        cases p' with
        | ret r' => exact halike.elim
        | call cmd' k' => exact .inr ⟨o, cmd, cmd', k, k', hc, hc', halike.1, halike.2⟩
  · have hnone : c.calls[i]? = none := List.getElem?_eq_none (Nat.le_of_not_lt hi)
    have hnone' : c'.calls[i]? = none :=
      List.getElem?_eq_none (h.calls.length_eq ▸ Nat.le_of_not_lt hi)
    exact .inl ⟨Config.next_step_of_pending_none (by simp only [Config.pending, hnone]),
      Config.next_step_of_pending_none (by simp only [Config.pending, hnone'])⟩

/-- **Step lemma**: twins stay twins while the answers are related. -/
theorem next (hcode : ∀ o, (S.code o).Alike C A (R o) (S.code o)) (h : Twins C A R c c')
    (e : Event S)
    (hanswer : ∀ i cmd cmd', e = .step i → c.pending i = some cmd → C cmd cmd' →
      A cmd cmd' (S.exec cmd c.world).1 (S.exec cmd' c'.world).1) :
    Twins C A R (c.next e) (c'.next e) := by
  cases e with
  | env e => exact ⟨h.calls, h.trace⟩
  | start o =>
      refine ⟨?_, h.trace⟩
      exact List.rel_append h.calls (.cons (.mk (hcode o)) .nil)
  | step i =>
      rcases h.step_cases i with ⟨hc, hc'⟩ | ⟨o, cmd, cmd', k, k', hc, hc', hC, hk⟩
      · rw [hc, hc']
        exact h
      · have hA := hanswer i cmd cmd' rfl (Config.pending_of_call hc) hC
        rw [Config.next_step_of_call hc, Config.next_step_of_call hc']
        exact ⟨forall₂_set h.calls i (.mk (hk _ _ hA)), .cons ⟨rfl, hC⟩ h.trace⟩

end Twins

end VerityBackend.Async
