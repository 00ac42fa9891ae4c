/-
VerityBackend.Async.Interleaving — many procedures over one world, one
command at a time.

A `System` fixes what commands do to a world, which operations can be
called and which procedure each of them is. A `Config` is the world, the
calls made so far (each with what is left of its procedure) and the trace
of the commands executed. Three things happen to it:

* `start o` — operation `o` is called; its procedure has done nothing yet;
* `step i`  — call `i` executes its next command, atomically, and goes on
  to the one after it;
* `env e`   — the environment changes the world (time passes).

A run is a list of events in ANY order, so every interleaving of every
number of calls at command granularity is a run. A call that is never
stepped again is a call whose process has died. `Obeys ok` restricts a
run to events that meet a condition in the configuration they happen in.
-/
import VerityBackend.Async.Proc

namespace VerityBackend.Async

structure System where
  Cmd : Type
  Res : Cmd → Type
  Err : Type
  World : Type
  exec : (c : Cmd) → World → Except Err (Res c) × World
  Op : Type
  Ret : Op → Type
  code : (o : Op) → Proc Cmd Res Err (Ret o)
  Env : Type
  env : Env → World → World

variable {S : System}

/-- One executed command: by which call, and in which world. -/
structure Entry (S : System) where
  call : Nat
  cmd : S.Cmd
  before : S.World

def Entry.res (e : Entry S) : Except S.Err (S.Res e.cmd) := (S.exec e.cmd e.before).1

def Entry.after (e : Entry S) : S.World := (S.exec e.cmd e.before).2

/-- The world and the commands executed so far, newest first. -/
structure Snap (S : System) where
  world : S.World
  trace : List (Entry S)

def Snap.exec (s : Snap S) (i : Nat) (c : S.Cmd) : Snap S where
  world := (S.exec c s.world).2
  trace := ⟨i, c, s.world⟩ :: s.trace

@[simp] theorem Snap.exec_world (s : Snap S) (i : Nat) (c : S.Cmd) :
    (s.exec i c).world = (S.exec c s.world).2 := rfl

@[simp] theorem Snap.exec_trace (s : Snap S) (i : Nat) (c : S.Cmd) :
    (s.exec i c).trace = ⟨i, c, s.world⟩ :: s.trace := rfl

/-- The commands call `i` has executed, newest first. -/
def Snap.own (s : Snap S) (i : Nat) : List (Entry S) := s.trace.filter (·.call = i)

@[simp] theorem Snap.exec_own_self (s : Snap S) (i : Nat) (c : S.Cmd) :
    (s.exec i c).own i = ⟨i, c, s.world⟩ :: s.own i := by
  simp [Snap.own]

theorem Snap.exec_own_ne (s : Snap S) {i j : Nat} (c : S.Cmd) (h : j ≠ i) :
    (s.exec i c).own j = s.own j := by
  simp [Snap.own, Ne.symm h]

/-- What is left of a call. -/
abbrev Task (S : System) := (o : S.Op) × Proc S.Cmd S.Res S.Err (S.Ret o)

theorem task_inj {o o' : S.Op} {p : Proc S.Cmd S.Res S.Err (S.Ret o)}
    {p' : Proc S.Cmd S.Res S.Err (S.Ret o')}
    (h : some (⟨o, p⟩ : Task S) = some ⟨o', p'⟩) : o = o' ∧ p ≍ p' := by
  simpa using h

structure Config (S : System) extends Snap S where
  calls : List (Task S)

inductive Event (S : System) where
  | start (o : S.Op)
  | step (i : Nat)
  | env (e : S.Env)

namespace Config

/-- Nothing has been called yet. -/
def initial (w : S.World) : Config S where
  world := w
  trace := []
  calls := []

def next (c : Config S) : Event S → Config S
  | .start o => { c with calls := c.calls ++ [⟨o, S.code o⟩] }
  | .step i =>
      match c.calls[i]? with
      | some ⟨o, .call cmd k⟩ =>
          { toSnap := c.toSnap.exec i cmd
            calls := c.calls.set i ⟨o, k (S.exec cmd c.world).1⟩ }
      | _ => c
  | .env e => { c with world := S.env e c.world }

def run (c : Config S) : List (Event S) → Config S
  | [] => c
  | e :: es => (c.next e).run es

/-- Every event of the run meets the condition where it happens. -/
def Obeys (ok : Config S → Event S → Prop) (c : Config S) : List (Event S) → Prop
  | [] => True
  | e :: es => ok c e ∧ (c.next e).Obeys ok es

/-- The command call `i` executes next. -/
def pending (c : Config S) (i : Nat) : Option S.Cmd :=
  match c.calls[i]? with
  | some ⟨_, .call cmd _⟩ => some cmd
  | _ => none

/-- Call `i` of operation `o` has settled with `r`. -/
def Settled (c : Config S) (i : Nat) (o : S.Op) (r : Except S.Err (S.Ret o)) : Prop :=
  c.calls[i]? = some ⟨o, .ret r⟩

/-- No call is in flight. -/
def Quiet (c : Config S) : Prop := ∀ i, c.pending i = none

@[simp] theorem run_nil (c : Config S) : c.run [] = c := rfl

@[simp] theorem run_cons (c : Config S) (e : Event S) (es : List (Event S)) :
    c.run (e :: es) = (c.next e).run es := rfl

theorem run_append (c : Config S) (es₁ es₂ : List (Event S)) :
    c.run (es₁ ++ es₂) = (c.run es₁).run es₂ := by
  induction es₁ generalizing c with
  | nil => rfl
  | cons e es ih => exact ih (c.next e)

theorem obeys_append (ok : Config S → Event S → Prop) (c : Config S)
    (es₁ es₂ : List (Event S)) :
    c.Obeys ok (es₁ ++ es₂) ↔ c.Obeys ok es₁ ∧ (c.run es₁).Obeys ok es₂ := by
  induction es₁ generalizing c with
  | nil => simp [Obeys]
  | cons e es ih => simp [Obeys, ih, and_assoc]

instance (ok : Config S → Event S → Prop) [∀ c e, Decidable (ok c e)] (c : Config S)
    (es : List (Event S)) : Decidable (c.Obeys ok es) :=
  go c es
where
  go (c : Config S) : (es : List (Event S)) → Decidable (c.Obeys ok es)
    | [] => inferInstanceAs (Decidable True)
    | e :: es => @instDecidableAnd _ _ _ (go (c.next e) es)

/-- A condition that every event meets is met by every run. -/
theorem obeys_of_forall {ok : Config S → Event S → Prop} (h : ∀ c e, ok c e)
    (c : Config S) (es : List (Event S)) : c.Obeys ok es := by
  induction es generalizing c with
  | nil => trivial
  | cons e es ih => exact ⟨h c e, ih _⟩

theorem obeys_of_mem {P : Event S → Bool} {es : List (Event S)} (h : ∀ e ∈ es, P e = true)
    (c : Config S) : c.Obeys (fun _ e => P e = true) es := by
  induction es generalizing c with
  | nil => trivial
  | cons e es ih => exact ⟨h e (.head _), ih (fun e' he' => h e' (.tail _ he')) _⟩

theorem obeys_and {ok ok' : Config S → Event S → Prop} {c : Config S} {es : List (Event S)}
    (h : c.Obeys ok es) (h' : c.Obeys ok' es) : c.Obeys (fun c e => ok c e ∧ ok' c e) es := by
  induction es generalizing c with
  | nil => trivial
  | cons e es ih => exact ⟨⟨h.1, h'.1⟩, ih h.2 h'.2⟩

theorem Obeys.mono {ok ok' : Config S → Event S → Prop} (h : ∀ c e, ok c e → ok' c e)
    {c : Config S} {es : List (Event S)} (hes : c.Obeys ok es) : c.Obeys ok' es := by
  induction es generalizing c with
  | nil => trivial
  | cons e es ih => exact ⟨h c e hes.1, ih hes.2⟩

/-- A condition that follows from another one where an invariant of the run
holds. -/
theorem Obeys.mono_of {ok ok' : Config S → Event S → Prop} {P : Config S → Prop}
    (hP : ∀ c e, ok c e → P c → P (c.next e)) (h : ∀ c e, P c → ok c e → ok' c e) {c : Config S}
    {es : List (Event S)} (hc : P c) (hes : c.Obeys ok es) : c.Obeys ok' es := by
  induction es generalizing c with
  | nil => trivial
  | cons e es ih => exact ⟨h c e hc hes.1, ih (hP c e hes.1 hc) hes.2⟩

/-- **Invariant induction** over a run: what holds at the start and is
preserved by every admitted event holds at the end. -/
theorem run_induct {ok : Config S → Event S → Prop} {P : Config S → Prop}
    (hstep : ∀ c e, ok c e → P c → P (c.next e)) :
    ∀ (es : List (Event S)) (c : Config S), c.Obeys ok es → P c → P (c.run es)
  | [], _, _, hP => hP
  | e :: es, c, ⟨he, hes⟩, hP => run_induct hstep es (c.next e) hes (hstep c e he hP)

/-- Where a step keeps `P` exactly if it meets a condition, `P` holds in every
configuration of a run exactly if every step does. -/
theorem always_iff_obeys {ok : Config S → Event S → Prop} {P : Config S → Prop}
    (hstep : ∀ c e, P c → (P (c.next e) ↔ ok c e)) (es : List (Event S)) {c : Config S} (hc : P c) :
    (∀ es₁ es₂, es = es₁ ++ es₂ → P (c.run es₁)) ↔ c.Obeys ok es := by
  induction es generalizing c with
  | nil =>
      refine ⟨fun _ => trivial, fun _ es₁ es₂ hes => ?_⟩
      obtain ⟨rfl, -⟩ := List.append_eq_nil_iff.mp hes.symm
      exact hc
  | cons e es ih =>
      constructor
      · intro hall
        have hnext := hall [e] es rfl
        refine ⟨(hstep c e hc).mp hnext, (ih hnext).mp fun es₁ es₂ hes => ?_⟩
        exact hall (e :: es₁) es₂ (by rw [hes]; rfl)
      · rintro ⟨hok, hrest⟩ es₁ es₂ hes
        have hnext := (hstep c e hc).mpr hok
        rcases es₁ with _ | ⟨e', es₁⟩
        · exact hc
        · obtain ⟨rfl, rfl⟩ := List.cons.inj hes
          exact (ih hnext).mpr hrest es₁ es₂ rfl

/-- What `Q` says of `a`, once it is the case, is the case for as long as all
events `keep` it. -/
def Lasting {α : Type} (Q : α → Config S → Prop) (keep : α → Config S → Event S → Prop)
    (c : Config S) (es : List (Event S)) : Prop :=
  ∀ a es₁ es₂ es₃, es = es₁ ++ es₂ ++ es₃ → Q a (c.run es₁) → (c.run es₁).Obeys (keep a) es₂ →
    Q a (c.run (es₁ ++ es₂))

/-- Where a step leaves what has been the case exactly if it meets a condition,
everything lasts exactly if every step does that has something to lose. -/
theorem lasting_iff_obeys {α : Type} {ok : Config S → Event S → Prop} {I : Config S → Prop}
    {Q : α → Config S → Prop} {keep ok' : α → Config S → Event S → Prop}
    (hI : ∀ c e, ok c e → I c → I (c.next e))
    (hstep : ∀ a c e, ok c e → I c → Q a c → keep a c e → (Q a (c.next e) ↔ ok' a c e))
    {es : List (Event S)} {c : Config S} (hes : c.Obeys ok es) (hc : I c) :
    Lasting Q keep c es ↔ c.Obeys (fun c e => ∀ a, Q a c → keep a c e → ok' a c e) es := by
  induction es generalizing c with
  | nil =>
      refine ⟨fun _ => trivial, fun _ a es₁ es₂ es₃ hsplit hQ _ => ?_⟩
      obtain ⟨hnil, -⟩ := List.append_eq_nil_iff.mp hsplit.symm
      obtain ⟨rfl, rfl⟩ := List.append_eq_nil_iff.mp hnil
      exact hQ
  | cons e es ih =>
      have hrec := ih hes.2 (hI c e hes.1 hc)
      constructor
      · intro hlast
        refine ⟨fun a ha hkeep => ?_, hrec.mp fun a es₁ es₂ es₃ hsplit hQ hkeep => ?_⟩
        · exact (hstep a c e hes.1 hc ha hkeep).mp (hlast a [] [e] es rfl ha ⟨hkeep, trivial⟩)
        · exact hlast a (e :: es₁) es₂ es₃ (by rw [hsplit]; rfl) hQ hkeep
      · rintro ⟨hok, hrest⟩ a es₁ es₂ es₃ hsplit hQ hkeep
        have htail := hrec.mpr hrest
        rcases es₁ with _ | ⟨e₁, es₁⟩
        · rcases es₂ with _ | ⟨e₂, es₂⟩
          · exact hQ
          · obtain ⟨rfl, rfl⟩ := List.cons.inj hsplit
            have hnext := (hstep a c e hes.1 hc hQ hkeep.1).mpr (hok a hQ hkeep.1)
            exact htail a [] es₂ es₃ rfl hnext hkeep.2
        · obtain ⟨rfl, rfl⟩ := List.cons.inj hsplit
          exact htail a es₁ es₂ es₃ rfl hQ hkeep

theorem next_step_of_call {c : Config S} {i : Nat} {o : S.Op} {cmd : S.Cmd}
    {k : Except S.Err (S.Res cmd) → Proc S.Cmd S.Res S.Err (S.Ret o)}
    (h : c.calls[i]? = some ⟨o, .call cmd k⟩) :
    c.next (.step i) =
      { toSnap := c.toSnap.exec i cmd
        calls := c.calls.set i ⟨o, k (S.exec cmd c.world).1⟩ } := by
  simp only [next, h]

/-- A step of a call that is not waiting for anything does nothing. -/
theorem next_step_of_pending_none {c : Config S} {i : Nat} (h : c.pending i = none) :
    c.next (.step i) = c := by
  unfold pending at h
  simp only [next]
  split <;> simp_all

theorem pending_of_call {c : Config S} {i : Nat} {o : S.Op} {cmd : S.Cmd}
    {k : Except S.Err (S.Res cmd) → Proc S.Cmd S.Res S.Err (S.Ret o)}
    (h : c.calls[i]? = some ⟨o, .call cmd k⟩) : c.pending i = some cmd := by
  simp only [pending, h]

theorem pending_eq_some {c : Config S} {i : Nat} {cmd : S.Cmd} :
    c.pending i = some cmd ↔
      ∃ o k, c.calls[i]? = some ⟨o, Proc.call cmd k⟩ := by
  unfold pending
  constructor
  · intro h
    split at h
    · next o cmd' k hc =>
        cases h
        exact ⟨o, k, hc⟩
    · cases h
  · rintro ⟨o, k, h⟩
    simp only [h]

/-- The calls in flight, and the commands executed so far, issue what `P`
grants their operations. -/
structure Issues (P : S.Op → S.Cmd → Prop) (c : Config S) : Prop where
  calls : ∀ t ∈ c.calls, t.2.Conforms (P t.1) True
  trace : ∀ e ∈ c.trace, ∃ o p, c.calls[e.call]? = some ⟨o, p⟩ ∧ P o e.cmd

theorem issues_initial (P : S.Op → S.Cmd → Prop) (w : S.World) :
    Issues P (initial w : Config S) where
  calls t ht := by cases ht
  trace e he := by cases he

/-- **Step lemma**: every call goes on as its operation's procedure does. -/
theorem Issues.next {P : S.Op → S.Cmd → Prop} (hcode : ∀ o, (S.code o).Conforms (P o) True)
    {c : Config S} (h : Issues P c) (e : Event S) : Issues P (c.next e) := by
  cases e with
  | start o =>
      refine ⟨fun t ht => ?_, fun x hx => ?_⟩
      · rcases List.mem_append.mp ht with ht | ht
        · exact h.calls t ht
        · rw [List.mem_singleton.mp ht]
          exact hcode o
      · obtain ⟨o', p, hget, hP⟩ := h.trace x hx
        have hlt := (List.getElem?_eq_some_iff.mp hget).1
        exact ⟨o', p, (List.getElem?_append_left hlt).trans hget, hP⟩
  | env e => exact ⟨h.calls, h.trace⟩
  | step i =>
      cases hp : c.pending i with
      | none => rw [next_step_of_pending_none hp]; exact h
      | some cmd =>
          obtain ⟨o, k, hc⟩ := pending_eq_some.mp hp
          have hconf := h.calls _ (List.mem_of_getElem? hc)
          have hlt := (List.getElem?_eq_some_iff.mp hc).1
          rw [next_step_of_call hc]
          have hself : (c.calls.set i ⟨o, k (S.exec cmd c.world).1⟩)[i]? =
              some ⟨o, k (S.exec cmd c.world).1⟩ := List.getElem?_set_self hlt
          refine ⟨fun t ht => ?_, fun x hx => ?_⟩
          · rcases List.mem_or_eq_of_mem_set ht with ht | rfl
            · exact h.calls t ht
            · exact hconf.2 _ (.inr trivial)
          · rcases List.mem_cons.mp hx with rfl | hx
            · exact ⟨o, _, hself, hconf.1⟩
            · obtain ⟨o', p, hget, hP⟩ := h.trace x hx
              by_cases hi : x.call = i
              · rw [hi, hc] at hget
                obtain ⟨rfl, -⟩ := task_inj hget
                exact ⟨o, _, by rw [hi]; exact hself, hP⟩
              · exact ⟨o', p, (List.getElem?_set_ne (Ne.symm hi)).trans hget, hP⟩

/-- **Run lemma** for properties that depend on the commands executed and
on nothing else of the calls. -/
theorem run_issued {ok : Config S → Event S → Prop} {P : S.Op → S.Cmd → Prop} {I : Snap S → Prop}
    (hcode : ∀ o, (S.code o).Conforms (P o) True)
    (hexec : ∀ o i c s, P o c → I s → I (s.exec i c))
    (henv : ∀ c e, ok c (.env e) → I c.toSnap → I (c.next (.env e)).toSnap) (es : List (Event S))
    {w : S.World} (hes : (initial w).Obeys ok es) (hw : I ⟨w, []⟩) :
    I ((initial w).run es).toSnap ∧ Issues P ((initial w).run es) := by
  refine run_induct (P := fun c => I c.toSnap ∧ Issues P c) ?_ es (initial w) hes
    ⟨hw, issues_initial P w⟩
  rintro c e hok ⟨hI, hissues⟩
  refine ⟨?_, hissues.next hcode e⟩
  cases e with
  | start o => exact hI
  | env e => exact henv c e hok hI
  | step i =>
      cases hp : c.pending i with
      | none => rw [next_step_of_pending_none hp]; exact hI
      | some cmd =>
          obtain ⟨o, k, hc⟩ := pending_eq_some.mp hp
          have hconf := hissues.calls _ (List.mem_of_getElem? hc)
          rw [next_step_of_call hc]
          exact hexec o i cmd _ hconf.1 hI

/-- What every command that satisfies `P` keeps, runs of procedures keep
that issue no other ones, wherever they stop. -/
theorem run_conforms {ok : Config S → Event S → Prop} {P : S.Cmd → Prop} {I : S.World → Prop}
    (hcode : ∀ o, (S.code o).Conforms P True) (hexec : ∀ c w, P c → I w → I (S.exec c w).2)
    (henv : ∀ c e, ok c (.env e) → I c.world → I (S.env e c.world)) (es : List (Event S)) {w : S.World}
    (hes : (initial w).Obeys ok es) (hw : I w) : I ((initial w).run es).world :=
  (run_issued (P := fun _ => P) (I := fun s => I s.world) hcode
    (fun _ _ c s hP hI => hexec c s.world hP hI) henv es hes hw).1

/-- Nothing is left of this call. -/
def returned (t : Task S) : Bool :=
  match t.2 with
  | .ret _ => true
  | .call _ _ => false

theorem quiet_iff (c : Config S) : c.Quiet ↔ ∀ t ∈ c.calls, returned t = true := by
  unfold Quiet
  constructor
  · intro h t ht
    obtain ⟨i, hi⟩ := List.mem_iff_getElem?.mp ht
    obtain ⟨o, p⟩ := t
    cases p with
    | ret r => rfl
    | call cmd k =>
        have hnone := h i
        rw [pending_of_call hi] at hnone
        cases hnone
  · intro h i
    cases hp : c.pending i with
    | none => rfl
    | some cmd =>
        obtain ⟨o, k, hc⟩ := pending_eq_some.mp hp
        have hret := h _ (List.mem_iff_getElem?.mpr ⟨i, hc⟩)
        cases hret

instance (c : Config S) : Decidable c.Quiet := decidable_of_iff _ c.quiet_iff.symm

/-- In a quiet configuration every call has settled. -/
theorem Quiet.settled {c : Config S} (h : c.Quiet) {i : Nat} (hi : i < c.calls.length) :
    ∃ o r, c.Settled i o r := by
  have hret := c.quiet_iff.mp h c.calls[i] (List.getElem_mem hi)
  have hget : c.calls[i]? = some c.calls[i] := List.getElem?_eq_getElem hi
  revert hret hget
  generalize c.calls[i] = t
  obtain ⟨o, p⟩ := t
  intro hret hget
  cases p with
  | ret r => exact ⟨o, r, hget⟩
  | call cmd k => cases hret

/-- Without a command executed by it, no call is named in the trace. -/
def Indexed (c : Config S) : Prop := ∀ e ∈ c.trace, e.call < c.calls.length

theorem indexed_next (c : Config S) (e : Event S) (h : c.Indexed) : (c.next e).Indexed := by
  cases e with
  | start o =>
      intro x hx
      have := h x hx
      simp only [next, List.length_append, List.length_singleton]
      omega
  | env e => exact h
  | step i =>
      cases hp : c.pending i with
      | none => rw [next_step_of_pending_none hp]; exact h
      | some cmd =>
          obtain ⟨o, k, hc⟩ := pending_eq_some.mp hp
          rw [next_step_of_call hc]
          intro x hx
          simp only [List.length_set]
          rcases List.mem_cons.mp hx with rfl | hx
          · exact (List.getElem?_eq_some_iff.mp hc).1
          · exact h x hx

theorem indexed_initial (w : S.World) : (Config.initial w : Config S).Indexed := by
  intro e he
  cases he

end Config

end VerityBackend.Async
