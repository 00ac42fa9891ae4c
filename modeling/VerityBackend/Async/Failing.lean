/-
VerityBackend.Async.Failing — one command that throws.

`failing exec err` is `exec` with a countdown: the command that finds it at
zero throws `err` and does nothing else. A procedure run with `failing` is
run as it is in the source, its handlers and its `Promise.all` included, so
what is left behind at a failure is read off an ordinary run.

`Strict` is a procedure that no command can fail in without its throwing,
and `Issues` one whose commands do not depend on the answers.
-/
import VerityBackend.Async.Parallel

namespace VerityBackend.Async

variable {Cmd : Type} {Res : Cmd → Type} {Err α β σ : Type}

/-- The command that finds the countdown at zero throws. -/
def failing (exec : (c : Cmd) → σ → Except Err (Res c) × σ) (err : Err) :
    (c : Cmd) → Option Nat × σ → Except Err (Res c) × Option Nat × σ
  | c, (none, s) => ((exec c s).1, none, (exec c s).2)
  | _, (some 0, s) => (.error err, none, s)
  | c, (some (n + 1), s) => ((exec c s).1, some n, (exec c s).2)

namespace Proc

/-! ## The commands of a run -/

/-- What a procedure issues when nothing else happens. -/
def commands (exec : (c : Cmd) → σ → Except Err (Res c) × σ) :
    Proc Cmd Res Err α → σ → List Cmd
  | .ret _, _ => []
  | .call c k, s => c :: (k (exec c s).1).commands exec (exec c s).2

section Commands

variable (exec : (c : Cmd) → σ → Except Err (Res c) × σ)

@[simp] theorem commands_ret (r : Except Err α) (s : σ) :
    (Proc.ret r : Proc Cmd Res Err α).commands exec s = [] := rfl

@[simp] theorem commands_call (c : Cmd) (k : Except Err (Res c) → Proc Cmd Res Err α) (s : σ) :
    (Proc.call c k).commands exec s =
      c :: (k (exec c s).1).commands exec (exec c s).2 := rfl

theorem commands_bind (p : Proc Cmd Res Err α) (f : α → Proc Cmd Res Err β) (s : σ) :
    (p.bind f).commands exec s =
      p.commands exec s ++
        match p.run exec s with
        | (.ok a, s') => (f a).commands exec s'
        | (.error _, _) => [] := by
  induction p generalizing s with
  | ret r => cases r <;> rfl
  | call c k ih => simp only [call_bind, commands_call, run_call, ih, List.cons_append]

/-- What is issued, and how it is answered. -/
def record : Proc Cmd Res Err α → σ → List ((c : Cmd) × Except Err (Res c))
  | .ret _, _ => []
  | .call c k, s => ⟨c, (exec c s).1⟩ :: (k (exec c s).1).record (exec c s).2

@[simp] theorem record_call (c : Cmd) (k : Except Err (Res c) → Proc Cmd Res Err α) (s : σ) :
    (Proc.call c k).record exec s =
      ⟨c, (exec c s).1⟩ :: (k (exec c s).1).record exec (exec c s).2 := rfl

theorem record_bind (p : Proc Cmd Res Err α) (f : α → Proc Cmd Res Err β) (s : σ) :
    (p.bind f).record exec s =
      p.record exec s ++
        match p.run exec s with
        | (.ok a, s') => (f a).record exec s'
        | (.error _, _) => [] := by
  induction p generalizing s with
  | ret r => cases r <;> rfl
  | call c k ih => simp only [call_bind, record_call, run_call, ih, List.cons_append]

theorem record_tryFinally (p : Proc Cmd Res Err α) (fin : Proc Cmd Res Err Unit) (s : σ) :
    (p.tryFinally fin).record exec s = p.record exec s ++ fin.record exec (p.run exec s).2 := by
  induction p generalizing s with
  | ret r =>
      change (fin.bind fun _ => .ret r).record exec s = [] ++ fin.record exec s
      rw [record_bind, List.nil_append]
      split <;> exact List.append_nil _
  | call c k ih => simp only [tryFinally, record_call, run_call, ih, List.cons_append]

theorem record_commands (p : Proc Cmd Res Err α) (s : σ) :
    (p.record exec s).map (·.1) = p.commands exec s := by
  induction p generalizing s with
  | ret r => rfl
  | call c k ih => simp only [record_call, commands_call, List.map_cons, ih]

variable {exec}

/-- Only what a procedure may issue is issued. -/
theorem Conforms.commands {P : Cmd → Prop} {p : Proc Cmd Res Err α} (hp : p.Conforms P True)
    (s : σ) : ∀ c ∈ p.commands exec s, P c := by
  induction p generalizing s with
  | ret r => simp
  | call c k ih =>
      intro c' hc'
      rcases List.mem_cons.mp hc' with rfl | hc'
      · exact hp.1
      · exact ih _ (hp.2 _ (.inr trivial)) _ c' hc'

/-- What the commands of a procedure keep, its run keeps. -/
theorem Conforms.run_keeps {P : Cmd → Prop} {J : σ → Prop} {p : Proc Cmd Res Err α}
    (hp : p.Conforms P True) (hexec : ∀ c s, P c → J s → J (exec c s).2) {s : σ} (hs : J s) :
    J (p.run exec s).2 := by
  induction p generalizing s with
  | ret r => exact hs
  | call c k ih => exact ih _ (hp.2 _ (.inr trivial)) (hexec c s hp.1 hs)

/-- A procedure whose commands are answered returns. -/
theorem Conforms.run_ok {P : Cmd → Prop} {J : σ → Prop} {p : Proc Cmd Res Err α}
    (hp : p.Conforms P False)
    (hexec : ∀ c s, P c → J s → (∃ a, (exec c s).1 = .ok a) ∧ J (exec c s).2) {s : σ} (hs : J s) :
    ∃ a, (p.run exec s).1 = .ok a := by
  induction p generalizing s with
  | ret r => exact hp.resolve_right id
  | call c k ih =>
      obtain ⟨hanswer, hJ⟩ := hexec c s hp.1 hs
      exact ih _ (hp.2 _ (.inl hanswer)) hJ

end Commands

/-! ## Runs with a failure -/

section Failing

variable {exec : (c : Cmd) → σ → Except Err (Res c) × σ} {err : Err}

/-- After the failure everything is as usual. -/
@[simp] theorem run_failing_none (p : Proc Cmd Res Err α) (s : σ) :
    p.run (failing exec err) (none, s) = ((p.run exec s).1, none, (p.run exec s).2) := by
  induction p generalizing s with
  | ret r => rfl
  | call c k ih => exact ih _ _

/-- A procedure that is over before the failure does not notice it. -/
theorem run_failing_late (p : Proc Cmd Res Err α) {n : Nat} {s : σ}
    (h : (p.commands exec s).length ≤ n) :
    p.run (failing exec err) (some n, s) =
      ((p.run exec s).1, some (n - (p.commands exec s).length), (p.run exec s).2) := by
  induction p generalizing n s with
  | ret r => rfl
  | call c k ih =>
      cases n with
      | zero => simp at h
      | succ n =>
          rw [commands_call, List.length_cons] at h ⊢
          have hlate := ih (exec c s).1 (n := n) (s := (exec c s).2) (by omega)
          rw [Nat.add_sub_add_right]
          exact hlate

/-- What `exec` keeps is kept when a command fails. -/
theorem failing_keeps {P : Cmd → Prop} {J : σ → Prop}
    (hexec : ∀ c s, P c → J s → J (exec c s).2) (c : Cmd) (s : Option Nat × σ) (hc : P c)
    (hs : J s.2) : J (failing exec err c s).2.2 := by
  obtain ⟨_ | _ | n, s⟩ := s
  · exact hexec c s hc hs
  · exact hs
  · exact hexec c s hc hs

end Failing

/-! ## Procedures without a handler -/

section Strict

/-- Whatever the answers are, it throws. -/
def Throws : Proc Cmd Res Err α → Prop
  | .ret r => ∃ e, r = .error e
  | .call c k => ∀ r : Except Err (Res c), (k r).Throws

/-- No command throws without the procedure's throwing. -/
def Strict : Proc Cmd Res Err α → Prop
  | .ret _ => True
  | .call c k => (∀ e, (k (.error e)).Throws) ∧ ∀ r : Except Err (Res c), (k r).Strict

variable {exec : (c : Cmd) → σ → Except Err (Res c) × σ} {err : Err}

theorem Throws.bind {p : Proc Cmd Res Err α} (h : p.Throws) (f : α → Proc Cmd Res Err β) :
    (p.bind f).Throws := by
  induction p with
  | ret r =>
      obtain ⟨e, rfl⟩ := h
      exact ⟨e, rfl⟩
  | call c k ih => exact fun r => ih r (h r)

theorem strict_await (c : Cmd) : (await c : Proc Cmd Res Err (Res c)).Strict :=
  ⟨fun e => ⟨e, rfl⟩, fun _ => trivial⟩

theorem Strict.bind {p : Proc Cmd Res Err α} {f : α → Proc Cmd Res Err β} (hp : p.Strict)
    (hf : ∀ a, (f a).Strict) : (p.bind f).Strict := by
  induction p with
  | ret r =>
      cases r with
      | ok a => exact hf a
      | error e => trivial
  | call c k ih => exact ⟨fun e => (hp.1 e).bind f, fun r => ih r (hp.2 r)⟩

theorem Throws.run {p : Proc Cmd Res Err α} (h : p.Throws) (s : σ) :
    ∃ e, (p.run exec s).1 = .error e := by
  induction p generalizing s with
  | ret r => exact h
  | call c k ih => exact ih _ (h _) _

/-- Meeting the failure, it throws. -/
theorem Strict.run_failing {p : Proc Cmd Res Err α} (hp : p.Strict) {n : Nat} {s : σ}
    (h : n < (p.commands exec s).length) :
    ∃ e, (p.run (failing exec err) (some n, s)).1 = .error e := by
  induction p generalizing n s with
  | ret r => simp at h
  | call c k ih =>
      cases n with
      | zero => exact (hp.1 err).run (none, s)
      | succ n => exact ih (exec c s).1 (hp.2 _) (s := (exec c s).2) (by simpa using h)

end Strict

/-! ## `Promise.all` -/

section All

variable {p q : Proc Cmd Res Err Unit}

theorem throws_settleAfter_error (e : Err) (p : Proc Cmd Res Err Unit) :
    (p.settleAfter (.error e)).Throws := by
  induction p with
  | ret r => exact ⟨e, rfl⟩
  | call c k ih => exact fun r => ih r

theorem Throws.settleAfter (hp : p.Throws) (r : Except Err Unit) : (p.settleAfter r).Throws := by
  induction p with
  | ret r' =>
      obtain ⟨e, rfl⟩ := hp
      cases r with
      | ok a => exact ⟨e, rfl⟩
      | error e' => exact ⟨e', rfl⟩
  | call c k ih => exact fun r => ih r (hp r)

theorem Strict.settleAfter (hp : p.Strict) (r : Except Err Unit) : (p.settleAfter r).Strict := by
  induction p with
  | ret r' => trivial
  | call c k ih => exact ⟨fun e => (hp.1 e).settleAfter r, fun r => ih r (hp.2 r)⟩

theorem Throws.inTurn_left (hp : p.Throws) (q : Proc Cmd Res Err Unit) : (p.inTurn q).Throws := by
  induction p with
  | ret r =>
      obtain ⟨e, rfl⟩ := hp
      exact throws_settleAfter_error e q
  | call c k ih => exact fun r => ih r (hp r)

theorem Throws.inTurn_right (p : Proc Cmd Res Err Unit) (hq : q.Throws) : (p.inTurn q).Throws := by
  induction p with
  | ret r => exact hq.settleAfter r
  | call c k ih => exact fun r => ih r

theorem Strict.inTurn (hp : p.Strict) (hq : q.Strict) : (p.inTurn q).Strict := by
  induction p with
  | ret r => exact hq.settleAfter r
  | call c k ih => exact ⟨fun e => (hp.1 e).inTurn_left q, fun r => ih r (hp.2 r)⟩

/-- One promise that fails makes the whole fail. -/
theorem Throws.both (sched : List Bool) (h : p.Throws ∨ q.Throws) :
    (Proc.both sched p q).Throws := by
  induction sched generalizing p q with
  | nil =>
      rcases h with hp | hq
      · exact hp.inTurn_left q
      · exact hq.inTurn_right p
  | cons b sched ih =>
      cases p with
      | ret r =>
          rcases h with ⟨e, rfl⟩ | hq
          · exact throws_settleAfter_error e q
          · exact hq.settleAfter r
      | call c k =>
          cases q with
          | ret r =>
              have hsettled : ((Proc.call c k).settleAfter r).Throws := by
                rcases h with hp | ⟨e, rfl⟩
                · exact hp.settleAfter r
                · exact throws_settleAfter_error e _
              cases b <;> exact hsettled
          | call c' k' =>
              cases b with
              | true => exact fun r => ih (h.imp (fun hp => hp r) id)
              | false => exact fun r => ih (h.imp id fun hq => hq r)

theorem Strict.both (sched : List Bool) (hp : p.Strict) (hq : q.Strict) :
    (Proc.both sched p q).Strict := by
  induction sched generalizing p q with
  | nil => exact hp.inTurn hq
  | cons b sched ih =>
      cases p with
      | ret r => exact hq.settleAfter r
      | call c k =>
          cases q with
          | ret r => cases b <;> exact hp.settleAfter r
          | call c' k' =>
              cases b with
              | true =>
                  exact ⟨fun e => Throws.both sched (.inl (hp.1 e)), fun r => ih (hp.2 r) hq⟩
              | false =>
                  exact ⟨fun e => Throws.both sched (.inr (hq.1 e)), fun r => ih hp (hq.2 r)⟩

theorem Strict.all (sched : List Bool) {ps : List (Proc Cmd Res Err Unit)}
    (h : ∀ p ∈ ps, p.Strict) : (Proc.all sched ps).Strict := by
  induction ps with
  | nil => trivial
  | cons p ps ih =>
      cases ps with
      | nil => exact h p List.mem_cons_self
      | cons q ps =>
          exact (h p List.mem_cons_self).both sched
            (ih fun p' hp' => h p' (List.mem_cons_of_mem _ hp'))

/-- The commands `cs` in some order, each once, whatever the answers are. -/
def Issues : Proc Cmd Res Err α → List Cmd → Prop
  | .ret _, cs => cs = []
  | .call c k, cs => ∃ cs', cs.Perm (c :: cs') ∧ ∀ r : Except Err (Res c), (k r).Issues cs'

variable {cs ds : List Cmd}

theorem issues_await (c : Cmd) : (await c : Proc Cmd Res Err (Res c)).Issues [c] :=
  ⟨[], .refl _, fun _ => rfl⟩

theorem Issues.settleAfter (hp : p.Issues cs) (r : Except Err Unit) :
    (p.settleAfter r).Issues cs := by
  induction p generalizing cs with
  | ret r' => exact hp
  | call c k ih =>
      obtain ⟨cs', hperm, hk⟩ := hp
      exact ⟨cs', hperm, fun a => ih a (hk a)⟩

theorem Issues.inTurn (hp : p.Issues cs) (hq : q.Issues ds) : (p.inTurn q).Issues (cs ++ ds) := by
  induction p generalizing cs with
  | ret r =>
      obtain rfl : cs = [] := hp
      exact hq.settleAfter r
  | call c k ih =>
      obtain ⟨cs', hperm, hk⟩ := hp
      exact ⟨cs' ++ ds, hperm.append_right ds, fun a => ih a (hk a)⟩

theorem Issues.both (sched : List Bool) (hp : p.Issues cs) (hq : q.Issues ds) :
    (Proc.both sched p q).Issues (cs ++ ds) := by
  induction sched generalizing p q cs ds with
  | nil => exact hp.inTurn hq
  | cons b sched ih =>
      cases p with
      | ret r =>
          obtain rfl : cs = [] := hp
          exact hq.settleAfter r
      | call c k =>
          cases q with
          | ret r =>
              obtain rfl : ds = [] := hq
              rw [List.append_nil]
              cases b <;> exact hp.settleAfter r
          | call c' k' =>
              cases b with
              | true =>
                  obtain ⟨cs', hperm, hk⟩ := hp
                  exact ⟨cs' ++ ds, hperm.append_right ds, fun a => ih (hk a) hq⟩
              | false =>
                  obtain ⟨ds', hperm, hk⟩ := hq
                  exact ⟨cs ++ ds', (hperm.append_left cs).trans List.perm_middle,
                    fun a => ih hp (hk a)⟩

/-- Promises of one command each. -/
theorem issues_all {ι : Type} (sched : List Bool) {xs : List ι} {f : ι → Proc Cmd Res Err Unit}
    {g : ι → Cmd} (h : ∀ x, (f x).Issues [g x]) :
    (Proc.all sched (xs.map f)).Issues (xs.map g) := by
  induction xs with
  | nil => rfl
  | cons x xs ih =>
      cases xs with
      | nil => exact h x
      | cons y ys => exact (h x).both sched ih

theorem Issues.conforms {p : Proc Cmd Res Err α} (hp : p.Issues cs) :
    p.Conforms (· ∈ cs) True := by
  induction p generalizing cs with
  | ret r => exact .inr trivial
  | call c k ih =>
      obtain ⟨cs', hperm, hk⟩ := hp
      refine ⟨hperm.mem_iff.mpr List.mem_cons_self, fun r _ => (ih r (hk r)).mono fun c' hc' => ?_⟩
      exact hperm.mem_iff.mpr (List.mem_cons_of_mem _ hc')

theorem Issues.commands {p : Proc Cmd Res Err α} (hp : p.Issues cs)
    (exec : (c : Cmd) → σ → Except Err (Res c) × σ) (s : σ) : (p.commands exec s).Perm cs := by
  induction p generalizing cs s with
  | ret r =>
      obtain rfl : cs = [] := hp
      exact .refl _
  | call c k ih =>
      obtain ⟨cs', hperm, hk⟩ := hp
      exact ((ih _ (hk _) _).cons c).trans hperm.symm

end All

end Proc

end VerityBackend.Async
