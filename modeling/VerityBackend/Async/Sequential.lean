/-
VerityBackend.Async.Sequential — histories in which one call runs to its end
before the next one starts.

An `Act` calls an operation, or lets the environment act. While a call runs
alone the environment may still act before each of its commands, as its
`gaps` say, so time passes inside a call as well. `Past` keeps what every
call returned and the worlds it found and left.

`solo i` is the discipline of a call with nobody beside it: it can rely on
everything but the environment. What a procedure is worth against `solo i`
is what it does in a history (`Valid.runGapped`), so the rules for `Valid`
serve here as they do for interleavings.
-/
import Mathlib.Tactic.Set
import VerityBackend.Async.Discipline

namespace VerityBackend.Async

variable {S : System}

/-- The environment acts while no command is executed. -/
def Snap.elapse (s : Snap S) (es : List S.Env) : Snap S :=
  { s with world := es.foldl (fun w e => S.env e w) s.world }

theorem Snap.elapse_elapse (s : Snap S) (es es' : List S.Env) :
    (s.elapse es).elapse es' = s.elapse (es ++ es') := by
  simp only [elapse, List.foldl_append]

/-- Every command executed in between satisfies `P`. -/
def Snap.Between (P : Entry S → Prop) (s s' : Snap S) : Prop :=
  ∃ t, s'.trace = t ++ s.trace ∧ ∀ e ∈ t, P e

namespace Snap.Between

variable {P P' : Entry S → Prop} {s s₁ s₂ s₃ : Snap S}

theorem refl (P : Entry S → Prop) (s : Snap S) : s.Between P s :=
  ⟨[], rfl, fun _ he => by cases he⟩

theorem trans (h : s₁.Between P s₂) (h' : s₂.Between P s₃) : s₁.Between P s₃ := by
  obtain ⟨t, ht, hP⟩ := h
  obtain ⟨t', ht', hP'⟩ := h'
  refine ⟨t' ++ t, by rw [ht', ht, List.append_assoc], fun e he => ?_⟩
  rcases List.mem_append.mp he with he | he
  · exact hP' e he
  · exact hP e he

theorem mono (h : s₁.Between P s₂) (hP : ∀ e, P e → P' e) : s₁.Between P' s₂ := by
  obtain ⟨t, ht, hall⟩ := h
  exact ⟨t, ht, fun e he => hP e (hall e he)⟩

theorem exec {i : Nat} {c : S.Cmd} (h : P ⟨i, c, s.world⟩) : s.Between P (s.exec i c) :=
  ⟨[⟨i, c, s.world⟩], rfl, fun e he => by rw [List.mem_singleton.mp he]; exact h⟩

theorem elapse (P : Entry S → Prop) (s : Snap S) (es : List S.Env) : s.Between P (s.elapse es) :=
  refl P s

/-- The commands in between are the first ones of the later trace. -/
theorem iff_take (h : ∃ t, s₂.trace = t ++ s₁.trace) :
    s₁.Between P s₂ ↔ ∀ e ∈ s₂.trace.take (s₂.trace.length - s₁.trace.length), P e := by
  obtain ⟨t, ht⟩ := h
  have htake : s₂.trace.take (s₂.trace.length - s₁.trace.length) = t := by
    rw [ht, List.length_append, Nat.add_sub_cancel, List.take_left]
  rw [htake]
  constructor
  · rintro ⟨t', ht', hP⟩
    rwa [List.append_cancel_right (ht.symm.trans ht')]
  · exact fun hP => ⟨t, ht, hP⟩

end Snap.Between

/-- Run a procedure to its end as call `i`; the environment acts before its
commands as the gaps say. -/
def Proc.runGapped {α : Type} (i : Nat) :
    Proc S.Cmd S.Res S.Err α → List (List S.Env) → Snap S → Except S.Err α × Snap S
  | .ret r, _, s => (r, s)
  | .call c k, gaps, s =>
      let s' := s.elapse (gaps.headD [])
      (k (S.exec c s'.world).1).runGapped i gaps.tail (s'.exec i c)

/-- A run only adds to the trace. -/
theorem Proc.runGapped_trace {α : Type} (i : Nat) (p : Proc S.Cmd S.Res S.Err α)
    (gaps : List (List S.Env)) (s : Snap S) : ∃ t, (p.runGapped i gaps s).2.trace = t ++ s.trace := by
  induction p generalizing gaps s with
  | ret r => exact ⟨[], rfl⟩
  | call c k ih =>
      obtain ⟨t, ht⟩ := ih (S.exec c (s.elapse (gaps.headD [])).world).1 gaps.tail
        ((s.elapse (gaps.headD [])).exec i c)
      refine ⟨t ++ [⟨i, c, (s.elapse (gaps.headD [])).world⟩], ht.trans ?_⟩
      rw [List.append_assoc]
      rfl

/-- The first command of a run and those after it. -/
theorem Proc.runGapped_between {α : Type} {i : Nat} {c : S.Cmd}
    {k : Except S.Err (S.Res c) → Proc S.Cmd S.Res S.Err α} {gaps : List (List S.Env)} {s : Snap S}
    {P : Entry S → Prop} (hP : s.Between P ((Proc.call c k).runGapped i gaps s).2) :
    P ⟨i, c, (s.elapse (gaps.headD [])).world⟩ ∧ ((s.elapse (gaps.headD [])).exec i c).Between P
      ((k (S.exec c (s.elapse (gaps.headD [])).world).1).runGapped i gaps.tail
        ((s.elapse (gaps.headD [])).exec i c)).2 := by
  set s₁ := s.elapse (gaps.headD []) with hs₁
  obtain ⟨t, ht⟩ := (k (S.exec c s₁.world).1).runGapped_trace i gaps.tail (s₁.exec i c)
  obtain ⟨t', ht', hP⟩ := hP
  have hsplit : t' = t ++ [⟨i, c, s₁.world⟩] := by
    refine List.append_cancel_right (ht'.symm.trans (ht.trans ?_))
    rw [List.append_assoc]
    rfl
  subst hsplit
  exact ⟨hP _ (List.mem_append_right _ (.head _)), t, ht, fun e he => hP e (List.mem_append_left _ he)⟩

/-- What the environment and the commands of a run keep, the run keeps. -/
theorem Proc.runGapped_keeps {α : Type} {i : Nat} {p : Proc S.Cmd S.Res S.Err α}
    {gaps : List (List S.Env)} {s : Snap S} {P : Entry S → Prop} {I : Snap S → Prop}
    (hP : s.Between P (p.runGapped i gaps s).2) (henv : ∀ s es, I s → I (s.elapse es))
    (hexec : ∀ s c, P ⟨i, c, s.world⟩ → I s → I (s.exec i c)) (hI : I s) :
    I (p.runGapped i gaps s).2 := by
  induction p generalizing gaps s with
  | ret r => exact hI
  | call c k ih =>
      obtain ⟨hfirst, hrest⟩ := Proc.runGapped_between hP
      exact ih _ hrest (hexec _ c hfirst (henv s _ hI))

/-! ## Histories -/

inductive Act (S : System) where
  | call (o : S.Op) (gaps : List (List S.Env))
  | env (e : S.Env)

/-- A call that has returned. -/
structure Record (S : System) where
  op : S.Op
  result : Except S.Err (S.Ret op)
  before : S.World
  after : S.World

/-- What has happened, the newest record first. -/
structure Past (S : System) extends Snap S where
  done : List (Record S)

namespace Past

def initial (w : S.World) : Past S where
  world := w
  trace := []
  done := []

/-- Call `o`: its commands are those of call number `done.length`. -/
def call (p : Past S) (o : S.Op) (gaps : List (List S.Env)) : Past S :=
  let out := (S.code o).runGapped p.done.length gaps p.toSnap
  { toSnap := out.2
    done := ⟨o, out.1, p.world, out.2.world⟩ :: p.done }

def next (p : Past S) : Act S → Past S
  | .call o gaps => p.call o gaps
  | .env e => { p with world := S.env e p.world }

def run (p : Past S) : List (Act S) → Past S
  | [] => p
  | a :: as => (p.next a).run as

@[simp] theorem run_nil (p : Past S) : p.run [] = p := rfl

@[simp] theorem run_cons (p : Past S) (a : Act S) (as : List (Act S)) :
    p.run (a :: as) = (p.next a).run as := rfl

theorem run_append (p : Past S) (as bs : List (Act S)) :
    p.run (as ++ bs) = (p.run as).run bs := by
  induction as generalizing p with
  | nil => rfl
  | cons a as ih => exact ih (p.next a)

end Past

/-! ## A call alone -/

namespace Discipline

/-- The discipline of call `i` with no other call beside it. -/
def solo (i : Nat) : Discipline S where
  inv _ := True
  admits _ _ _ _ := True
  rely j s s' := j = i → ∃ es, s' = s.elapse es
  guar _ _ _ _ := True
  rely_refl _ s _ := ⟨[], rfl⟩
  rely_trans _ s₁ s₂ s₃ h h' hj := by
    obtain ⟨es, rfl⟩ := h hj
    obtain ⟨es', rfl⟩ := h' hj
    exact ⟨es ++ es', Snap.elapse_elapse s₁ es es'⟩

variable {o : S.Op} {i : Nat} {α β : Type}

theorem solo_keeps (cmd : S.Cmd) (s : Snap S) : (solo i).Keeps o i cmd s where
  guar := trivial
  inv := trivial
  rely _ hj h := absurd h hj

/-- A valid procedure does in a history what its postcondition says. -/
theorem Valid.runGapped {p : Proc S.Cmd S.Res S.Err α} {Q : Except S.Err α → Snap S → Prop}
    {s : Snap S} (h : (solo i).Valid o i p Q s) (gaps : List (List S.Env)) :
    Q (p.runGapped i gaps s).1 (p.runGapped i gaps s).2 := by
  induction p generalizing s gaps with
  | ret r => exact h
  | call c k ih => exact ih _ (h _ (fun _ => ⟨gaps.headD [], rfl⟩) trivial trivial).2 gaps.tail

/-- Without gaps it is run as it is. -/
theorem Valid.run {p : Proc S.Cmd S.Res S.Err α} {Q : Except S.Err α → Snap S → Prop} {s : Snap S}
    (h : (solo i).Valid o i p Q s) :
    ∃ s', s'.world = (p.run S.exec s.world).2 ∧ Q (p.run S.exec s.world).1 s' := by
  induction p generalizing s with
  | ret r => exact ⟨s, rfl, h⟩
  | call c k ih => exact ih _ (h s (fun _ => ⟨[], rfl⟩) trivial trivial).2

/-- `let a ← await c; f a`, alone. -/
theorem solo_await {c : S.Cmd} {f : S.Res c → Proc S.Cmd S.Res S.Err β}
    {Q : Except S.Err β → Snap S → Prop} {s : Snap S}
    (h : ∀ es, (solo i).Resumes o i f Q (S.exec c (s.elapse es).world).1
      ((s.elapse es).exec i c)) :
    (solo i).Valid o i ((Proc.await c).bind f) Q s := by
  refine valid_await fun s' hrely _ _ => ⟨solo_keeps c s', ?_⟩
  obtain ⟨es, rfl⟩ := hrely rfl
  exact h es

theorem solo_last {c : S.Cmd} {Q : Except S.Err (S.Res c) → Snap S → Prop} {s : Snap S}
    (h : ∀ es, Q (S.exec c (s.elapse es).world).1 ((s.elapse es).exec i c)) :
    (solo i).Valid o i (Proc.await c) Q s := by
  intro s' hrely _ _
  refine ⟨solo_keeps c s', ?_⟩
  obtain ⟨es, rfl⟩ := hrely rfl
  exact h es

/-- The same, when every command executed satisfies `P`. -/
def soloIf (P : Entry S → Prop) (i : Nat) : Discipline S :=
  { solo i with admits := fun _ i c s => P ⟨i, c, s.world⟩ }

theorem Valid.restrict {P : Entry S → Prop} {p : Proc S.Cmd S.Res S.Err α}
    {Q : Except S.Err α → Snap S → Prop} {s : Snap S} (h : (solo i).Valid o i p Q s) :
    (soloIf P i).Valid o i p Q s := by
  induction p generalizing s with
  | ret r => exact h
  | call c k ih =>
      intro s' hrely hinv _
      obtain ⟨hkeeps, hrest⟩ := h s' hrely hinv trivial
      exact ⟨⟨hkeeps.guar, hkeeps.inv, hkeeps.rely⟩, ih _ hrest⟩

/-- `let a ← await c; f a`, where the command satisfies `P`. -/
theorem soloIf_await {P : Entry S → Prop} {c : S.Cmd} {f : S.Res c → Proc S.Cmd S.Res S.Err β}
    {Q : Except S.Err β → Snap S → Prop} {s : Snap S}
    (h : ∀ es, P ⟨i, c, (s.elapse es).world⟩ → (soloIf P i).Resumes o i f Q
      (S.exec c (s.elapse es).world).1 ((s.elapse es).exec i c)) :
    (soloIf P i).Valid o i ((Proc.await c).bind f) Q s := by
  refine valid_await fun s' hrely _ hP => ?_
  have hkeeps := solo_keeps (o := o) (i := i) c s'
  refine ⟨⟨hkeeps.guar, hkeeps.inv, hkeeps.rely⟩, ?_⟩
  obtain ⟨es, rfl⟩ := hrely rfl
  exact h es hP

/-- What it does in a history in which the commands of the call satisfy `P`. -/
theorem Valid.runGapped_if {P : Entry S → Prop} {p : Proc S.Cmd S.Res S.Err α}
    {Q : Except S.Err α → Snap S → Prop} {s : Snap S} (h : (soloIf P i).Valid o i p Q s)
    {gaps : List (List S.Env)} (hP : s.Between P (p.runGapped i gaps s).2) :
    Q (p.runGapped i gaps s).1 (p.runGapped i gaps s).2 := by
  induction p generalizing s gaps with
  | ret r => exact h
  | call c k ih =>
      obtain ⟨hfirst, hrest⟩ := Proc.runGapped_between hP
      exact ih _ (h _ (fun _ => ⟨gaps.headD [], rfl⟩) trivial hfirst).2 hrest

/-- What the environment and every command of a procedure keep, the
procedure keeps. -/
theorem solo_conforms {p : Proc S.Cmd S.Res S.Err α} {P : S.Cmd → Prop} {b : Prop}
    {J : Snap S → Prop} {s : Snap S} (hp : p.Conforms P b)
    (henv : ∀ s es, J s → J (s.elapse es))
    (hexec : ∀ c s, P c → J s → J (s.exec i c) ∧ ((∃ a, (S.exec c s.world).1 = .ok a) ∨ b))
    (hJ : J s) : (solo i).Valid o i p (fun r s' => ((∃ a, r = .ok a) ∨ b) ∧ J s') s := by
  refine valid_of_conforms hp (fun s s' hrely hs => ?_) (fun c s hP _ hs => ?_) hJ
  · obtain ⟨es, rfl⟩ := hrely rfl
    exact henv s es hs
  · obtain ⟨hJ', hanswer⟩ := hexec c s hP hs
    exact ⟨solo_keeps c s, hJ', hanswer⟩

end Discipline

/-- What the environment and the commands of a call keep, the call keeps. -/
theorem Past.call_keeps {p : Past S} {o : S.Op} {gaps : List (List S.Env)} {P : Entry S → Prop}
    {I : Snap S → Prop} (hP : p.Between P (p.call o gaps).toSnap)
    (henv : ∀ s es, I s → I (s.elapse es))
    (hexec : ∀ s i c, P ⟨i, c, s.world⟩ → I s → I (s.exec i c)) (hI : I p.toSnap) :
    I (p.call o gaps).toSnap :=
  Proc.runGapped_keeps hP henv (fun s c => hexec s _ c) hI

/-- What a call of a history returns and leaves, by its obligation. -/
theorem Past.call_spec {p : Past S} {o : S.Op}
    {Q : Except S.Err (S.Ret o) → Snap S → Prop}
    (h : (Discipline.solo p.done.length).Valid o p.done.length (S.code o) Q p.toSnap)
    (gaps : List (List S.Env)) :
    ∃ r, (p.call o gaps).done = ⟨o, r, p.world, (p.call o gaps).world⟩ :: p.done ∧
      Q r (p.call o gaps).toSnap :=
  ⟨_, rfl, h.runGapped gaps⟩

end VerityBackend.Async
