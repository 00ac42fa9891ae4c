/-
VerityBackend.Async.Credit — commands that are paid for by earlier ones.

Each command costs a number of credits and earns some by its answer. A
procedure that `Affords` its commands with `n` credits never spends more than
these and what it has earned so far, whatever it is answered. In a run of such
procedures the calls may do anything to each other: the commands executed
have cost at most what they have earned (`cost_le_earned`).
-/
import Mathlib.Algebra.GroupWithZero.Nat
import VerityBackend.Async.Answers

namespace VerityBackend.Async

namespace Proc

variable {Cmd : Type} {Res : Cmd → Type} {Err α β : Type}

/-- Only commands of `P`, each affordable with `n` credits to begin with. -/
def Affords (P : Cmd → Prop) (earn : (c : Cmd) → Except Err (Res c) → Nat) (cost : Cmd → Nat) :
    Proc Cmd Res Err α → Nat → Prop
  | .ret _, _ => True
  | .call c k, n => P c ∧ cost c ≤ n ∧ ∀ r, (k r).Affords P earn cost (n - cost c + earn c r)

variable {P : Cmd → Prop} {earn : (c : Cmd) → Except Err (Res c) → Nat} {cost : Cmd → Nat} {n m : Nat}

theorem affords_ret (r : Except Err α) :
    (.ret r : Proc Cmd Res Err α).Affords P earn cost n := trivial

theorem Affords.le {p : Proc Cmd Res Err α} (h : p.Affords P earn cost n) (hnm : n ≤ m) :
    p.Affords P earn cost m := by
  induction p generalizing n m with
  | ret r => trivial
  | call c k ih =>
      obtain ⟨hP, hcost, hk⟩ := h
      exact ⟨hP, Nat.le_trans hcost hnm, fun r => ih r (hk r) (by omega)⟩

theorem Affords.conforms {p : Proc Cmd Res Err α} (h : p.Affords P earn cost n) :
    p.Conforms P True := by
  induction p generalizing n with
  | ret r => exact .inr trivial
  | call c k ih => exact ⟨h.1, fun r _ => ih r (h.2.2 r)⟩

/-- Commands that cost nothing can always be afforded. -/
theorem affords_of_conforms {p : Proc Cmd Res Err α}
    (h : p.Conforms (fun c => P c ∧ cost c = 0) True) : p.Affords P earn cost n := by
  induction p generalizing n with
  | ret r => trivial
  | call c k ih =>
      obtain ⟨⟨hP, hcost⟩, hk⟩ := h
      exact ⟨hP, by omega, fun r => ih r (hk r (.inr trivial))⟩

/-- What costs nothing leaves all credits to the rest. -/
theorem Affords.after {p : Proc Cmd Res Err α} (hp : p.Conforms (fun c => P c ∧ cost c = 0) True)
    {f : α → Proc Cmd Res Err β} (hf : ∀ a, (f a).Affords P earn cost n) :
    (p.bind f).Affords P earn cost n := by
  induction p generalizing n with
  | ret r =>
      cases r with
      | ok a => exact hf a
      | error e => trivial
  | call c k ih =>
      obtain ⟨⟨hP, hcost⟩, hk⟩ := hp
      exact ⟨hP, by omega, fun r => ih r (hk r (.inr trivial)) fun a => (hf a).le (by omega)⟩

/-- What is left over is not needed. -/
theorem Affords.bind {p : Proc Cmd Res Err α} (hp : p.Affords P earn cost n)
    {f : α → Proc Cmd Res Err β} (hf : ∀ a, (f a).Affords P earn cost 0) :
    (p.bind f).Affords P earn cost n := by
  induction p generalizing n with
  | ret r =>
      cases r with
      | ok a => exact (hf a).le (Nat.zero_le n)
      | error e => trivial
  | call c k ih =>
      obtain ⟨hP, hcost, hk⟩ := hp
      exact ⟨hP, hcost, fun r => ih r (hk r)⟩

theorem Affords.tryCatch {p : Proc Cmd Res Err α} (hp : p.Affords P earn cost n)
    {h : Err → Proc Cmd Res Err α} (hh : ∀ e, (h e).Affords P earn cost 0) :
    (p.tryCatch h).Affords P earn cost n := by
  induction p generalizing n with
  | ret r =>
      cases r with
      | ok a => trivial
      | error e => exact (hh e).le (Nat.zero_le n)
  | call c k ih =>
      obtain ⟨hP, hcost, hk⟩ := hp
      exact ⟨hP, hcost, fun r => ih r (hk r)⟩

theorem affords_await {c : Cmd} (hP : P c) (hcost : cost c ≤ n) {f : Res c → Proc Cmd Res Err β}
    (hf : ∀ a, (f a).Affords P earn cost (n - cost c + earn c (.ok a))) :
    ((await c).bind f).Affords P earn cost n := by
  refine ⟨hP, hcost, fun r => ?_⟩
  cases r with
  | ok a => exact hf a
  | error e => trivial

section Embed

variable {Cmd' : Type} {Res' : Cmd' → Type} {inject : Cmd → Cmd'}
  {answer : (c : Cmd) → Except Err (Res' (inject c)) → Except Err (Res c)} {P' : Cmd' → Prop}
  {earn' : (c : Cmd') → Except Err (Res' c) → Nat} {cost' : Cmd' → Nat}

/-- Among other procedures, the commands cost and earn what they do. -/
theorem Affords.embed {p : Proc Cmd Res Err α} (h : p.Affords P earn cost n)
    (hP : ∀ c, P c → P' (inject c)) (hcost : ∀ c, cost' (inject c) = cost c)
    (hearn : ∀ c r, earn' (inject c) r = earn c (answer c r)) :
    (p.embed inject answer).Affords P' earn' cost' n := by
  induction p generalizing n with
  | ret r => trivial
  | call c k ih =>
      obtain ⟨hc, hle, hk⟩ := h
      refine ⟨hP c hc, by rw [hcost]; exact hle, fun r => ?_⟩
      rw [hcost, hearn]
      exact ih _ (hk _)

end Embed

end Proc

namespace Config

variable {S : System} {P : S.Cmd → Prop} {earn : (c : S.Cmd) → Except S.Err (S.Res c) → Nat}
  {cost : S.Cmd → Nat}

/-- What the executed commands have of something. -/
def total (weight : S.Cmd → Nat) (trace : List (Entry S)) : Nat := (trace.map (weight ·.cmd)).sum

/-- What they have earned by their answers. -/
def earned (earn : (c : S.Cmd) → Except S.Err (S.Res c) → Nat) (trace : List (Entry S)) : Nat :=
  (trace.map fun e => earn e.cmd (S.exec e.cmd e.before).1).sum

@[simp] theorem total_cons (weight : S.Cmd → Nat) (e : Entry S) (trace : List (Entry S)) :
    total weight (e :: trace) = weight e.cmd + total weight trace := List.sum_cons

@[simp] theorem earned_cons (earn : (c : S.Cmd) → Except S.Err (S.Res c) → Nat) (e : Entry S)
    (trace : List (Entry S)) :
    earned earn (e :: trace) = earn e.cmd (S.exec e.cmd e.before).1 + earned earn trace :=
  List.sum_cons

theorem sum_set {purses : List Nat} {i : Nat} (h : i < purses.length) (n : Nat) :
    (purses.set i n).sum + purses[i] = purses.sum + n := by
  induction purses generalizing i with
  | nil => cases h
  | cons m purses ih =>
      cases i with
      | zero =>
          rw [List.set_cons_zero, List.sum_cons, List.sum_cons, List.getElem_cons_zero]
          omega
      | succ i =>
          have hrest := ih (Nat.lt_of_succ_lt_succ h)
          rw [List.set_cons_succ, List.sum_cons, List.sum_cons, List.getElem_cons_succ]
          omega

variable (P earn cost) in
/-- Each call has a purse that its commands can be paid from; what was
earned is spent or in a purse. -/
structure Solvent (c : Config S) (purses : List Nat) : Prop where
  length : purses.length = c.calls.length
  affords : ∀ (i : Nat) (t : Task S) (n : Nat), c.calls[i]? = some t → purses[i]? = some n →
    t.2.Affords P earn cost n
  balance : total cost c.trace + purses.sum = earned earn c.trace

theorem solvent_initial (w : S.World) : Solvent P earn cost (initial w : Config S) [] :=
  ⟨rfl, fun i t n ht _ => by simp [initial] at ht, rfl⟩

/-- **Step lemma.** -/
theorem Solvent.next (hcode : ∀ o, (S.code o).Affords P earn cost 0) {c : Config S}
    {purses : List Nat} (h : Solvent P earn cost c purses) (e : Event S) :
    ∃ purses', Solvent P earn cost (c.next e) purses' := by
  cases e with
  | env e => exact ⟨purses, h.length, h.affords, h.balance⟩
  | start o =>
      refine ⟨purses ++ [0], ?_, fun i t n ht hn => ?_, ?_⟩
      · simp [Config.next, h.length]
      · simp only [Config.next] at ht
        by_cases hi : i < c.calls.length
        · rw [List.getElem?_append_left hi] at ht
          rw [List.getElem?_append_left (by rw [h.length]; exact hi)] at hn
          exact h.affords i t n ht hn
        · rw [List.getElem?_append_right (Nat.le_of_not_lt hi)] at ht
          obtain rfl := List.mem_singleton.mp (List.mem_of_getElem? ht)
          exact (hcode o).le (Nat.zero_le n)
      · simpa [Config.next] using h.balance
  | step i =>
      cases hp : c.pending i with
      | none =>
          rw [next_step_of_pending_none hp]
          exact ⟨purses, h⟩
      | some cmd =>
          obtain ⟨o, k, hc⟩ := pending_eq_some.mp hp
          have hlt : i < purses.length := by
            rw [h.length]
            exact (List.getElem?_eq_some_iff.mp hc).1
          obtain ⟨-, hcost, hk⟩ := h.affords i _ purses[i] hc (List.getElem?_eq_getElem hlt)
          refine ⟨purses.set i (purses[i] - cost cmd + earn cmd (S.exec cmd c.world).1), ?_⟩
          rw [next_step_of_call hc]
          refine ⟨?_, fun j t n ht hn => ?_, ?_⟩
          · simp [h.length]
          · by_cases hj : i = j
            · subst hj
              rw [List.getElem?_set_self hlt] at hn
              rw [List.getElem?_set_self (by rw [← h.length]; exact hlt)] at ht
              cases ht
              cases hn
              exact hk _
            · rw [List.getElem?_set_ne hj] at ht hn
              exact h.affords j t n ht hn
          · have hsum := sum_set hlt (purses[i] - cost cmd + earn cmd (S.exec cmd c.world).1)
            have hbalance := h.balance
            change total cost (⟨i, cmd, c.world⟩ :: c.trace) + _ =
              earned earn (⟨i, cmd, c.world⟩ :: c.trace)
            rw [total_cons, earned_cons]
            dsimp only
            omega

/-- **Run lemma**: nothing is spent that was not earned. -/
theorem cost_le_earned (hcode : ∀ o, (S.code o).Affords P earn cost 0) (w : S.World)
    (es : List (Event S)) :
    total cost ((initial w).run es).trace ≤ earned earn ((initial w).run es).trace := by
  have hany : (initial w : Config S).Obeys (fun _ _ => True) es :=
    obeys_of_forall (fun _ _ => trivial) (initial w) es
  obtain ⟨purses, h⟩ := run_induct (P := fun c => ∃ purses, Solvent P earn cost c purses)
    (fun _ e _ ⟨_, h⟩ => h.next hcode e) es _ hany ⟨[], solvent_initial w⟩
  have hbalance := h.balance
  omega

end Config

end VerityBackend.Async
