/-
VerityBackend.Async.Bound — procedures that are bound to issue a command.

`p.Bound P G c₀ Q`: until `p` issues `c₀` it issues commands of `P` only,
and if these are answered as `G` says it does issue `c₀`, or returns a value
of `Q` first. Such a procedure stays bound step by step, and with nothing
for `Q` it is not finished.
-/
import VerityBackend.Async.Interleaving

namespace VerityBackend.Async

namespace Proc

variable {Cmd : Type} {Res : Cmd → Type} {Err α β : Type}

def Bound (P : Cmd → Prop) (G : (c : Cmd) → Res c → Prop) (c₀ : Cmd) (Q : α → Prop) :
    Proc Cmd Res Err α → Prop
  | .ret r => ∃ a, r = .ok a ∧ Q a
  | .call c k => c = c₀ ∨ (P c ∧ ∀ a, G c a → (k (.ok a)).Bound P G c₀ Q)

variable {P : Cmd → Prop} {G : (c : Cmd) → Res c → Prop} {c₀ : Cmd} {Q : α → Prop}

theorem bound_pure {a : α} (h : Q a) :
    (pure a : Proc Cmd Res Err α).Bound P G c₀ Q := ⟨a, rfl, h⟩

/-- Sequencing: the rest is bound after every value the first part returns. -/
theorem Bound.bind {p : Proc Cmd Res Err α} {f : α → Proc Cmd Res Err β} {Q' : β → Prop}
    (h : p.Bound P G c₀ Q) (hf : ∀ a, Q a → (f a).Bound P G c₀ Q') :
    (p.bind f).Bound P G c₀ Q' := by
  induction p with
  | ret r =>
      obtain ⟨a, rfl, ha⟩ := h
      exact hf a ha
  | call c k ih =>
      rcases h with rfl | ⟨hc, hk⟩
      · exact .inl rfl
      · exact .inr ⟨hc, fun a ha => ih (.ok a) (hk a ha)⟩

theorem bound_await {c : Cmd} (hc : P c) {f : Res c → Proc Cmd Res Err β} {Q' : β → Prop}
    (hf : ∀ a, G c a → (f a).Bound P G c₀ Q') : ((await c).bind f).Bound P G c₀ Q' :=
  .inr ⟨hc, hf⟩

/-- There it is. -/
theorem bound_here {f : Res c₀ → Proc Cmd Res Err α} :
    ((await c₀).bind f).Bound P G c₀ Q := .inl rfl

/-- After a command that was answered well, and was not the one. -/
theorem Bound.next {c : Cmd} {k : Except Err (Res c) → Proc Cmd Res Err α}
    (h : (Proc.call c k).Bound P G c₀ Q) (hne : c ≠ c₀) {a : Res c} (ha : G c a) :
    (k (.ok a)).Bound P G c₀ Q := by
  rcases h with rfl | ⟨-, hk⟩
  · exact absurd rfl hne
  · exact hk a ha

/-- Nothing is left to do only where nothing was promised. -/
theorem Bound.not_ret {r : Except Err α}
    (h : (Proc.ret r : Proc Cmd Res Err α).Bound P G c₀ fun _ => False) : False := by
  obtain ⟨a, -, hfalse⟩ := h
  exact hfalse

end Proc

namespace Config

variable {S : System}

/-- The command is always answered. -/
def Sure (c : S.Cmd) : Prop := ∀ w, ∃ a, (S.exec c w).1 = .ok a

/-- The call issues the command, whatever happens. -/
def Will (c₀ : S.Cmd) (t : Task S) : Prop := t.2.Bound Sure (fun _ _ => True) c₀ fun _ => False

/-- Some call in flight does. -/
def Promised (c₀ : S.Cmd) (c : Config S) : Prop := ∃ t ∈ c.calls, Will c₀ t

theorem Will.next {c₀ cmd : S.Cmd} {o : S.Op}
    {k : Except S.Err (S.Res cmd) → Proc S.Cmd S.Res S.Err (S.Ret o)}
    (h : Will c₀ ⟨o, .call cmd k⟩) (hne : cmd ≠ c₀) (w : S.World) :
    Will c₀ ⟨o, k (S.exec cmd w).1⟩ := by
  rcases h with rfl | ⟨hsure, hk⟩
  · exact absurd rfl hne
  · obtain ⟨a, ha⟩ := hsure w
    rw [ha]
    exact hk a trivial

/-- What is promised is still promised after another command. -/
theorem Promised.step {c₀ cmd : S.Cmd} {c : Config S} {i : Nat} {o : S.Op}
    {k : Except S.Err (S.Res cmd) → Proc S.Cmd S.Res S.Err (S.Ret o)} (h : c.Promised c₀)
    (hcall : c.calls[i]? = some ⟨o, .call cmd k⟩) (hne : cmd ≠ c₀) :
    (c.next (.step i)).Promised c₀ := by
  obtain ⟨t, ht, hwill⟩ := h
  obtain ⟨j, hj⟩ := List.mem_iff_getElem?.mp ht
  rw [next_step_of_call hcall]
  by_cases hij : i = j
  · subst hij
    obtain rfl := Option.some.inj (hj.symm.trans hcall)
    exact ⟨_, List.mem_set (List.getElem?_eq_some_iff.mp hcall).1 _, hwill.next hne c.world⟩
  · refine ⟨t, List.mem_of_getElem? (i := j) ?_, hwill⟩
    rw [List.getElem?_set_ne hij]
    exact hj

theorem Promised.start {c₀ : S.Cmd} {c : Config S} (h : c.Promised c₀) (o : S.Op) :
    (c.next (.start o)).Promised c₀ := by
  obtain ⟨t, ht, hwill⟩ := h
  exact ⟨t, List.mem_append_left _ ht, hwill⟩

theorem Promised.not_quiet {c₀ : S.Cmd} {c : Config S} (h : c.Promised c₀) : ¬c.Quiet := by
  obtain ⟨⟨o, p⟩, ht, hwill⟩ := h
  intro hquiet
  have hdone := c.quiet_iff.mp hquiet _ ht
  cases p with
  | ret r => exact Proc.Bound.not_ret hwill
  | call cmd k => cases hdone

end Config

end VerityBackend.Async
