/-
VerityBackend.Async.Proc — asynchronous procedures as trees of awaited
commands.

A procedure is what an `async` function is to the systems it talks to: it
either has settled, with a value or with a thrown error, or it waits for
the answer to ONE command and continues with whatever that answer is. The
answer is itself a value or an error, because an awaited call can throw;
`tryCatch` and `tryFinally` are the handlers of `try … catch` and
`try … finally`.

Nothing here says what a command does. The same procedure is run to its
end (`Proc.run`) and interleaved with others (`Async.Interleaving`) over any
meaning of the commands.
-/
import Mathlib.Logic.Basic

namespace VerityBackend.Async

/-- A procedure over commands `Cmd`, answered in `Res`, that throws `Err`
and returns `α`. -/
inductive Proc (Cmd : Type) (Res : Cmd → Type) (Err α : Type) : Type where
  | ret (r : Except Err α)
  | call (c : Cmd) (k : Except Err (Res c) → Proc Cmd Res Err α)

namespace Proc

variable {Cmd : Type} {Res : Cmd → Type} {Err α β : Type}

/-! ## Composition -/

/-- `await c`: issue one command and settle with its answer. -/
def await (c : Cmd) : Proc Cmd Res Err (Res c) := .call c .ret

/-- `throw e`. -/
def fail (e : Err) : Proc Cmd Res Err α := .ret (.error e)

protected def bind : Proc Cmd Res Err α → (α → Proc Cmd Res Err β) → Proc Cmd Res Err β
  | .ret (.ok a), f => f a
  | .ret (.error e), _ => .ret (.error e)
  | .call c k, f => .call c (fun r => (k r).bind f)

instance : Monad (Proc Cmd Res Err) where
  pure a := .ret (.ok a)
  bind := Proc.bind

/-- `try { p } catch (e) { h(e) }`. -/
def tryCatch (p : Proc Cmd Res Err α) (h : Err → Proc Cmd Res Err α) : Proc Cmd Res Err α :=
  match p with
  | .ret (.ok a) => .ret (.ok a)
  | .ret (.error e) => h e
  | .call c k => .call c (fun r => (k r).tryCatch h)

/-- `try { p } finally { fin }`: the outcome of `p`, unless `fin` throws. -/
def tryFinally (p : Proc Cmd Res Err α) (fin : Proc Cmd Res Err Unit) : Proc Cmd Res Err α :=
  match p with
  | .ret r => fin.bind (fun _ => .ret r)
  | .call c k => .call c (fun r => (k r).tryFinally fin)

@[simp] theorem pure_eq (a : α) : (pure a : Proc Cmd Res Err α) = .ret (.ok a) := rfl

@[simp] theorem bind_eq (p : Proc Cmd Res Err α) (f : α → Proc Cmd Res Err β) :
    p >>= f = p.bind f := rfl

@[simp] theorem ret_ok_bind (a : α) (f : α → Proc Cmd Res Err β) :
    (Proc.ret (.ok a)).bind f = f a := rfl

@[simp] theorem call_bind (c : Cmd) (k : Except Err (Res c) → Proc Cmd Res Err α)
    (f : α → Proc Cmd Res Err β) :
    (Proc.call c k).bind f = .call c (fun r => (k r).bind f) := rfl

theorem bind_assoc {γ : Type} (p : Proc Cmd Res Err α) (f : α → Proc Cmd Res Err β)
    (g : β → Proc Cmd Res Err γ) :
    (p.bind f).bind g = p.bind (fun a => (f a).bind g) := by
  induction p with
  | ret r => cases r <;> rfl
  | call c k ih =>
      simp only [call_bind]
      congr 1
      funext r
      exact ih r

/-! ## Which commands a procedure issues -/

/-- Every command issued satisfies `P`; nothing is thrown unless `b` lets
commands fail. -/
def Conforms (P : Cmd → Prop) (b : Prop) : Proc Cmd Res Err α → Prop
  | .ret r => (∃ a, r = .ok a) ∨ b
  | .call c k => P c ∧ ∀ r : Except Err (Res c), (∃ a, r = .ok a) ∨ b → (k r).Conforms P b

section Conforms

variable {P P' : Cmd → Prop} {b : Prop}

theorem conforms_pure (a : α) : (pure a : Proc Cmd Res Err α).Conforms P b := .inl ⟨a, rfl⟩

theorem conforms_fail (e : Err) (hb : b) : (fail e : Proc Cmd Res Err α).Conforms P b := .inr hb

theorem conforms_await {c : Cmd} (h : P c) :
    (await c : Proc Cmd Res Err (Res c)).Conforms P b := ⟨h, fun _ hr => hr⟩

theorem Conforms.bind {p : Proc Cmd Res Err α} {f : α → Proc Cmd Res Err β}
    (hp : p.Conforms P b) (hf : ∀ a, (f a).Conforms P b) : (p.bind f).Conforms P b := by
  induction p with
  | ret r =>
      cases r with
      | ok a => exact hf a
      | error e =>
          rcases hp with ⟨a, ha⟩ | hb
          · cases ha
          · exact .inr hb
  | call c k ih => exact ⟨hp.1, fun r hr => ih r (hp.2 r hr)⟩

theorem Conforms.tryCatch {p : Proc Cmd Res Err α} {h : Err → Proc Cmd Res Err α}
    (hp : p.Conforms P b) (hh : ∀ e, (h e).Conforms P b) : (p.tryCatch h).Conforms P b := by
  induction p with
  | ret r =>
      cases r with
      | ok a => exact .inl ⟨a, rfl⟩
      | error e => exact hh e
  | call c k ih => exact ⟨hp.1, fun r hr => ih r (hp.2 r hr)⟩

theorem Conforms.tryFinally {p : Proc Cmd Res Err α} {fin : Proc Cmd Res Err Unit}
    (hp : p.Conforms P b) (hfin : fin.Conforms P b) : (p.tryFinally fin).Conforms P b := by
  induction p with
  | ret r => exact hfin.bind fun _ => hp
  | call c k ih => exact ⟨hp.1, fun r hr => ih r (hp.2 r hr)⟩

theorem Conforms.mono {p : Proc Cmd Res Err α} (hp : p.Conforms P b) (h : ∀ c, P c → P' c) :
    p.Conforms P' b := by
  induction p with
  | ret r => exact hp
  | call c k ih => exact ⟨h c hp.1, fun r hr => ih r (hp.2 r hr)⟩

theorem conforms_any (p : Proc Cmd Res Err α) : p.Conforms (fun _ => True) True := by
  induction p with
  | ret r => exact .inr trivial
  | call c k ih => exact ⟨trivial, fun r _ => ih r⟩

end Conforms

/-! ## Running a procedure alone -/

variable {σ : Type}

/-- Run a procedure to its end from a state, nothing else happening. -/
def run (exec : (c : Cmd) → σ → Except Err (Res c) × σ) :
    Proc Cmd Res Err α → σ → Except Err α × σ
  | .ret r, s => (r, s)
  | .call c k, s => (k (exec c s).1).run exec (exec c s).2

section Run

variable (exec : (c : Cmd) → σ → Except Err (Res c) × σ)

@[simp] theorem run_ret (r : Except Err α) (s : σ) :
    (Proc.ret r : Proc Cmd Res Err α).run exec s = (r, s) := rfl

@[simp] theorem run_call (c : Cmd) (k : Except Err (Res c) → Proc Cmd Res Err α) (s : σ) :
    (Proc.call c k).run exec s = (k (exec c s).1).run exec (exec c s).2 := rfl

@[simp] theorem run_await (c : Cmd) (s : σ) :
    (Proc.await c : Proc Cmd Res Err (Res c)).run exec s = exec c s := rfl

/-- Sequencing: the rest runs from where the first part settled, and an
error skips it. -/
theorem run_bind (p : Proc Cmd Res Err α) (f : α → Proc Cmd Res Err β) (s : σ) :
    (p.bind f).run exec s =
      match p.run exec s with
      | (.ok a, s') => (f a).run exec s'
      | (.error e, s') => (.error e, s') := by
  induction p generalizing s with
  | ret r => cases r <;> rfl
  | call c k ih => simp only [call_bind, run_call, ih]

theorem run_bind_ok {p : Proc Cmd Res Err α} {s s' : σ} {a : α} (h : p.run exec s = (.ok a, s'))
    (f : α → Proc Cmd Res Err β) : (p.bind f).run exec s = (f a).run exec s' := by
  rw [run_bind, h]

theorem run_bind_error {p : Proc Cmd Res Err α} {s s' : σ} {e : Err}
    (h : p.run exec s = (.error e, s')) (f : α → Proc Cmd Res Err β) :
    (p.bind f).run exec s = (.error e, s') := by
  rw [run_bind, h]

theorem run_tryFinally (p : Proc Cmd Res Err α) (fin : Proc Cmd Res Err Unit) (s : σ) :
    (p.tryFinally fin).run exec s =
      match fin.run exec (p.run exec s).2 with
      | (.ok _, s') => ((p.run exec s).1, s')
      | (.error e, s') => (.error e, s') := by
  induction p generalizing s with
  | ret r =>
      simp only [tryFinally, run_bind, run_ret]
      rcases fin.run exec s with ⟨_ | _, s'⟩ <;> rfl
  | call c k ih => simp only [tryFinally, run_call, ih]

theorem run_tryCatch (p : Proc Cmd Res Err α) (h : Err → Proc Cmd Res Err α) (s : σ) :
    (p.tryCatch h).run exec s =
      match p.run exec s with
      | (.ok a, s') => (.ok a, s')
      | (.error e, s') => (h e).run exec s' := by
  induction p generalizing s with
  | ret r => cases r <;> rfl
  | call c k ih => simp only [tryCatch, run_call, ih]

end Run

end Proc

end VerityBackend.Async
