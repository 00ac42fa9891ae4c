/-
VerityBackend.Async.Parallel — `Promise.all` inside one procedure.

Promises that are awaited together issue their commands in an order nobody
controls. A schedule, a list of booleans, says whose command comes next;
where it ends, the rest follows one after the other. Every order is that of
some schedule, so a statement for all schedules is one for all orders.

A promise that has failed makes the whole fail. The others still run to
their end; what they return is lost.
-/
import VerityBackend.Async.Proc

namespace VerityBackend.Async.Proc

variable {Cmd : Type} {Res : Cmd → Type} {Err : Type}

/-- The outcome of two promises, the first of which settled first. -/
def firstError : Except Err Unit → Except Err Unit → Except Err Unit
  | .error e, _ => .error e
  | .ok (), r => r

/-- One promise has settled with `r`; the other one runs to its end. -/
def settleAfter (r : Except Err Unit) : Proc Cmd Res Err Unit → Proc Cmd Res Err Unit
  | .ret r' => .ret (firstError r r')
  | .call c k => .call c (fun a => (k a).settleAfter r)

/-- Two promises one after the other, whatever the first one settles with. -/
def inTurn (p q : Proc Cmd Res Err Unit) : Proc Cmd Res Err Unit :=
  match p with
  | .ret r => q.settleAfter r
  | .call c k => .call c (fun a => (k a).inTurn q)

/-- `Promise.all([p, q])` as the schedule has it. -/
def both : List Bool → Proc Cmd Res Err Unit → Proc Cmd Res Err Unit → Proc Cmd Res Err Unit
  | [], p, q => p.inTurn q
  | _ :: _, .ret r, q => q.settleAfter r
  | _ :: _, p, .ret r => p.settleAfter r
  | true :: sched, .call c k, q => .call c (fun a => both sched (k a) q)
  | false :: sched, p, .call c k => .call c (fun a => both sched p (k a))

/-- `Promise.all`. -/
def all (sched : List Bool) : List (Proc Cmd Res Err Unit) → Proc Cmd Res Err Unit
  | [] => .ret (.ok ())
  | [p] => p
  | p :: ps => both sched p (all sched ps)

section Conforms

variable {P : Cmd → Prop} {b : Prop} {p q : Proc Cmd Res Err Unit}

theorem firstError_ok {r r' : Except Err Unit} (h : (∃ a, r = .ok a) ∨ b)
    (h' : (∃ a, r' = .ok a) ∨ b) : (∃ a, firstError r r' = .ok a) ∨ b := by
  rcases h with ⟨a, rfl⟩ | hb
  · exact h'
  · exact .inr hb

theorem Conforms.settleAfter {r : Except Err Unit} (hr : (∃ a, r = .ok a) ∨ b)
    (hp : p.Conforms P b) : (p.settleAfter r).Conforms P b := by
  induction p with
  | ret r' => exact firstError_ok hr hp
  | call c k ih => exact ⟨hp.1, fun a ha => ih a (hp.2 a ha)⟩

theorem Conforms.inTurn (hp : p.Conforms P b) (hq : q.Conforms P b) :
    (p.inTurn q).Conforms P b := by
  induction p with
  | ret r => exact hq.settleAfter hp
  | call c k ih => exact ⟨hp.1, fun a ha => ih a (hp.2 a ha)⟩

theorem Conforms.both (sched : List Bool) (hp : p.Conforms P b) (hq : q.Conforms P b) :
    (Proc.both sched p q).Conforms P b := by
  induction sched generalizing p q with
  | nil => exact hp.inTurn hq
  | cons s sched ih =>
      cases p with
      | ret r => exact hq.settleAfter hp
      | call c k =>
          cases q with
          | ret r =>
              cases s <;> exact hp.settleAfter hq
          | call c' k' =>
              cases s with
              | true => exact ⟨hp.1, fun a ha => ih (hp.2 a ha) hq⟩
              | false => exact ⟨hq.1, fun a ha => ih hp (hq.2 a ha)⟩

/-- What all promises issue is what `Promise.all` issues. -/
theorem Conforms.all (sched : List Bool) {ps : List (Proc Cmd Res Err Unit)}
    (h : ∀ p ∈ ps, p.Conforms P b) : (Proc.all sched ps).Conforms P b := by
  induction ps with
  | nil => exact .inl ⟨(), rfl⟩
  | cons p ps ih =>
      cases ps with
      | nil => exact h p (List.mem_cons_self)
      | cons q ps =>
          exact (h p List.mem_cons_self).both sched
            (ih fun p' hp' => h p' (List.mem_cons_of_mem _ hp'))

end Conforms

/-! ## Runs -/

section Runs

variable {σ : Type} {exec : (c : Cmd) → σ → Except Err (Res c) × σ}
  {p q : Proc Cmd Res Err Unit} {s : σ}

theorem settleAfter_steps (Ψ : Proc Cmd Res Err Unit → σ → Prop) (r : Except Err Unit)
    (hstep : ∀ c k s, Ψ (.call c k) s → Ψ (k (exec c s).1) (exec c s).2) (h : Ψ p s) :
    ∃ r', Ψ (.ret r') ((p.settleAfter r).run exec s).2 := by
  induction p generalizing s with
  | ret r' => exact ⟨r', h⟩
  | call c k ih => exact ih _ (hstep c k s h)

/-- **Two promises.** What the commands of either one keep, of what is left
of both and of the state, holds when both have settled. -/
theorem both_steps (Φ : Proc Cmd Res Err Unit → Proc Cmd Res Err Unit → σ → Prop)
    (sched : List Bool)
    (hleft : ∀ c k q s, Φ (.call c k) q s → Φ (k (exec c s).1) q (exec c s).2)
    (hright : ∀ c k p s, Φ p (.call c k) s → Φ p (k (exec c s).1) (exec c s).2) (h : Φ p q s) :
    ∃ r r', Φ (.ret r) (.ret r') ((both sched p q).run exec s).2 := by
  have hsettleLeft : ∀ r {p s}, Φ p (.ret r) s →
      ∃ r' r'', Φ (.ret r') (.ret r'') ((p.settleAfter r).run exec s).2 := by
    intro r p s h
    obtain ⟨r', hr'⟩ := settleAfter_steps (fun p s => Φ p (.ret r) s) r
      (fun c k s h => hleft c k _ s h) h
    exact ⟨r', r, hr'⟩
  have hsettleRight : ∀ r {q s}, Φ (.ret r) q s →
      ∃ r' r'', Φ (.ret r') (.ret r'') ((q.settleAfter r).run exec s).2 := by
    intro r q s h
    obtain ⟨r', hr'⟩ := settleAfter_steps (fun q s => Φ (.ret r) q s) r
      (fun c k s h => hright c k _ s h) h
    exact ⟨r, r', hr'⟩
  induction sched generalizing p q s with
  | nil =>
      simp only [both]
      induction p generalizing s with
      | ret r => exact hsettleRight r h
      | call c k ih => exact ih _ (hleft c k q s h)
  | cons b sched ih =>
      cases p with
      | ret r => exact hsettleRight r h
      | call c k =>
          cases q with
          | ret r => cases b <;> exact hsettleLeft r h
          | call c' k' =>
              cases b with
              | true => exact ih (hleft c k _ s h)
              | false => exact ih (hright c' k' _ s h)

end Runs

end VerityBackend.Async.Proc
