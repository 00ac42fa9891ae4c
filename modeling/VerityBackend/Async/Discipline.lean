/-
VerityBackend.Async.Discipline — rely/guarantee reasoning for interleaved
procedures.

A `Discipline` says what is true between any two commands (`inv`), under
which condition a command is executed at all (`admits`, the assumption of
a theorem about restricted runs), what call `i` may count on while it is
suspended (`rely i`) and what each executed command promises (`guar`).
`Valid` is the proof obligation of one procedure: from ANY world its rely
allows, the next command keeps the invariant, keeps every OTHER call's
rely, meets its promise, and leaves a valid rest.

`Sound` ties the obligations of all calls to a configuration. It holds of
every configuration of every run (`Governs.sound_run`), so a property of
one call that its procedure establishes alone, against its rely, is a
property of every interleaving.
-/
import VerityBackend.Async.Interleaving

namespace VerityBackend.Async

structure Discipline (S : System) where
  inv : Snap S → Prop
  admits : S.Op → Nat → S.Cmd → Snap S → Prop
  rely : Nat → Snap S → Snap S → Prop
  guar : S.Op → Nat → S.Cmd → Snap S → Prop
  rely_refl : ∀ i s, rely i s s
  rely_trans : ∀ i s₁ s₂ s₃, rely i s₁ s₂ → rely i s₂ s₃ → rely i s₁ s₃

namespace Discipline

variable {S : System} (D : Discipline S)

/-- What executing `cmd` as call `i` of `o` owes to everybody else. -/
structure Keeps (o : S.Op) (i : Nat) (cmd : S.Cmd) (s : Snap S) : Prop where
  guar : D.guar o i cmd s
  inv : D.inv (s.exec i cmd)
  rely : ∀ j, j ≠ i → D.rely j s (s.exec i cmd)

/-- The obligation of a procedure run as call `i` of operation `o`, with
postcondition `Q` at the moment it settles. -/
def Valid (o : S.Op) (i : Nat) {α : Type} :
    Proc S.Cmd S.Res S.Err α → (Except S.Err α → Snap S → Prop) → Snap S → Prop
  | .ret r, Q, s => Q r s
  | .call c k, Q, s =>
      ∀ s', D.rely i s s' → D.inv s' → D.admits o i c s' →
        D.Keeps o i c s' ∧ Valid o i (k (S.exec c s'.world).1) Q (s'.exec i c)

variable {D} {o : S.Op} {i : Nat} {α β : Type}

@[simp] theorem valid_ret (r : Except S.Err α) (Q : Except S.Err α → Snap S → Prop)
    (s : Snap S) : D.Valid o i (.ret r) Q s ↔ Q r s := Iff.rfl

theorem Valid.weaken {p : Proc S.Cmd S.Res S.Err α} {Q Q' : Except S.Err α → Snap S → Prop}
    {s : Snap S} (h : D.Valid o i p Q s) (hQ : ∀ r s, Q r s → Q' r s) : D.Valid o i p Q' s := by
  induction p generalizing s with
  | ret r => exact hQ r s h
  | call c k ih =>
      intro s' hr hi ha
      exact ⟨(h s' hr hi ha).1, ih _ (h s' hr hi ha).2⟩

/-- A suspended procedure stays valid while others act. -/
theorem Valid.rely_call {c : S.Cmd} {k : Except S.Err (S.Res c) → Proc S.Cmd S.Res S.Err α}
    {Q : Except S.Err α → Snap S → Prop} {s s' : Snap S}
    (h : D.Valid o i (.call c k) Q s) (hr : D.rely i s s') : D.Valid o i (.call c k) Q s' :=
  fun s'' hr' => h s'' (D.rely_trans i s s' s'' hr hr')

/-- What a procedure owes that goes on with `f` after `r`. -/
def Resumes (D : Discipline S) (o : S.Op) (i : Nat) (f : α → Proc S.Cmd S.Res S.Err β)
    (Q : Except S.Err β → Snap S → Prop) : Except S.Err α → Snap S → Prop
  | .ok a, s => D.Valid o i (f a) Q s
  | .error e, s => Q (.error e) s

section Resumes

variable {f : α → Proc S.Cmd S.Res S.Err β} {Q : Except S.Err β → Snap S → Prop} {s : Snap S}

@[simp] theorem resumes_ok (a : α) : D.Resumes o i f Q (.ok a) s ↔ D.Valid o i (f a) Q s :=
  Iff.rfl

theorem Resumes.weaken {r : Except S.Err α} {Q' : Except S.Err β → Snap S → Prop}
    (h : D.Resumes o i f Q r s) (hQ : ∀ r s, Q r s → Q' r s) : D.Resumes o i f Q' r s := by
  cases r with
  | ok a => exact Valid.weaken h hQ
  | error e => exact hQ _ _ h

/-- Sequencing: the first part establishes what the second one needs. -/
theorem valid_bind {p : Proc S.Cmd S.Res S.Err α} (h : D.Valid o i p (D.Resumes o i f Q) s) :
    D.Valid o i (p.bind f) Q s := by
  induction p generalizing s with
  | ret r => cases r <;> exact h
  | call c k ih =>
      intro s' hr hi ha
      exact ⟨(h s' hr hi ha).1, ih _ (h s' hr hi ha).2⟩

/-- `let a ← await c; f a`. -/
theorem valid_await {c : S.Cmd} {f : S.Res c → Proc S.Cmd S.Res S.Err β}
    (h : ∀ s', D.rely i s s' → D.inv s' → D.admits o i c s' → D.Keeps o i c s' ∧
      D.Resumes o i f Q (S.exec c s'.world).1 (s'.exec i c)) :
    D.Valid o i ((Proc.await c).bind f) Q s := valid_bind h

end Resumes

theorem valid_tryFinally {p : Proc S.Cmd S.Res S.Err α} {fin : Proc S.Cmd S.Res S.Err Unit}
    {Q : Except S.Err α → Snap S → Prop} {s : Snap S}
    (h : D.Valid o i p (fun r => D.Valid o i fin (D.Resumes o i (fun _ => .ret r) Q)) s) :
    D.Valid o i (p.tryFinally fin) Q s := by
  induction p generalizing s with
  | ret r => exact valid_bind h
  | call c k ih =>
      intro s' hr hi ha
      exact ⟨(h s' hr hi ha).1, ih _ (h s' hr hi ha).2⟩

theorem valid_tryCatch {p : Proc S.Cmd S.Res S.Err α}
    {h : S.Err → Proc S.Cmd S.Res S.Err α}
    {Q : Except S.Err α → Snap S → Prop} {s : Snap S}
    (hp : D.Valid o i p (fun r s' => match r with
      | .ok a => Q (.ok a) s'
      | .error e => D.Valid o i (h e) Q s') s) :
    D.Valid o i (p.tryCatch h) Q s := by
  induction p generalizing s with
  | ret r => cases r <;> exact hp
  | call c k ih =>
      intro s' hr hi ha
      exact ⟨(hp s' hr hi ha).1, ih _ (hp s' hr hi ha).2⟩

/-! ## Procedures known by the commands they issue -/

section Conforms

variable {p : Proc S.Cmd S.Res S.Err α} {P : S.Cmd → Prop} {b : Prop} {J : Snap S → Prop}
  {s : Snap S}

/-- What every command of the procedure keeps, the procedure keeps. -/
theorem valid_of_conforms (hp : p.Conforms P b) (hrely : ∀ s s', D.rely i s s' → J s → J s')
    (hexec : ∀ c s, P c → D.inv s → J s → D.Keeps o i c s ∧ J (s.exec i c) ∧
      ((∃ a, (S.exec c s.world).1 = .ok a) ∨ b)) (hJ : J s) :
    D.Valid o i p (fun r s' => ((∃ a, r = .ok a) ∨ b) ∧ J s') s := by
  induction p generalizing s with
  | ret r => exact ⟨hp, hJ⟩
  | call c k ih =>
      intro s' hr hinv _
      obtain ⟨hkeeps, hJ', hanswer⟩ := hexec c s' hp.1 hinv (hrely s s' hr hJ)
      exact ⟨hkeeps, ih _ (hp.2 _ hanswer) hJ'⟩

/-- A valid procedure keeps, besides, what all of its commands keep. -/
theorem Valid.and_conforms {Q : Except S.Err α → Snap S → Prop} (hv : D.Valid o i p Q s)
    (hp : p.Conforms P True) (hrely : ∀ s s', D.rely i s s' → J s → J s')
    (hexec : ∀ c s, P c → J s → J (s.exec i c)) (hJ : J s) :
    D.Valid o i p (fun r s' => Q r s' ∧ J s') s := by
  induction p generalizing s with
  | ret r => exact ⟨hv, hJ⟩
  | call c k ih =>
      intro s' hr hinv ha
      have hJ' := hexec c s' hp.1 (hrely s s' hr hJ)
      exact ⟨(hv s' hr hinv ha).1, ih _ (hv s' hr hinv ha).2 (hp.2 _ (.inr trivial)) hJ'⟩

/-- Two obligations of one procedure are one. -/
theorem Valid.and {Q Q' : Except S.Err α → Snap S → Prop} (h : D.Valid o i p Q s)
    (h' : D.Valid o i p Q' s) : D.Valid o i p (fun r s' => Q r s' ∧ Q' r s') s := by
  induction p generalizing s with
  | ret r => exact ⟨h, h'⟩
  | call c k ih =>
      intro s' hr hinv ha
      exact ⟨(h s' hr hinv ha).1, ih _ (h s' hr hinv ha).2 (h' s' hr hinv ha).2⟩

end Conforms

/-! ## Soundness -/

variable (D)

/-- Every call in flight meets its obligation, and the invariant holds. -/
structure Sound (Q : (o : S.Op) → Nat → Except S.Err (S.Ret o) → Snap S → Prop)
    (c : Config S) : Prop where
  inv : D.inv c.toSnap
  indexed : c.Indexed
  live : ∀ (i : Nat) (o : S.Op) (cmd : S.Cmd)
    (k : Except S.Err (S.Res cmd) → Proc S.Cmd S.Res S.Err (S.Ret o)),
    c.calls[i]? = some ⟨o, .call cmd k⟩ → D.Valid o i (.call cmd k) (Q o i) c.toSnap

/-- The events a run may contain, `ok`, discharge what the discipline
assumes, and every operation called is valid. -/
structure Governs (ok : Config S → Event S → Prop)
    (Q : (o : S.Op) → Nat → Except S.Err (S.Ret o) → Snap S → Prop) : Prop where
  start : ∀ (c : Config S) (o : S.Op), ok c (.start o) → D.inv c.toSnap →
    c.toSnap.own c.calls.length = [] → D.Valid o c.calls.length (S.code o)
      (Q o c.calls.length) c.toSnap
  step : ∀ (c : Config S) (i : Nat) (o : S.Op) (cmd : S.Cmd)
    (k : Except S.Err (S.Res cmd) → Proc S.Cmd S.Res S.Err (S.Ret o)),
    ok c (.step i) → c.calls[i]? = some ⟨o, .call cmd k⟩ → D.inv c.toSnap →
      D.admits o i cmd c.toSnap
  env : ∀ (c : Config S) (e : S.Env), ok c (.env e) → D.inv c.toSnap →
    D.inv (c.next (.env e)).toSnap ∧ ∀ i, D.rely i c.toSnap (c.next (.env e)).toSnap

variable {D} {ok : Config S → Event S → Prop}
  {Q : (o : S.Op) → Nat → Except S.Err (S.Ret o) → Snap S → Prop}

theorem own_fresh {c : Config S} (h : c.Indexed) : c.toSnap.own c.calls.length = [] := by
  unfold Snap.own
  rw [List.filter_eq_nil_iff]
  intro e he
  have := h e he
  simp only [decide_eq_true_eq]
  omega

theorem sound_initial {w : S.World} (h : D.inv ⟨w, []⟩) :
    D.Sound Q (Config.initial w) where
  inv := h
  indexed := Config.indexed_initial w
  live := fun i o cmd k hc => by simp [Config.initial] at hc

/-- A step taken in a sound configuration keeps its obligations. -/
theorem Sound.keeps {c : Config S} (G : D.Governs ok Q) (hs : D.Sound Q c) {i : Nat}
    {o : S.Op} {cmd : S.Cmd} {k : Except S.Err (S.Res cmd) → Proc S.Cmd S.Res S.Err (S.Ret o)}
    (hok : ok c (.step i)) (hc : c.calls[i]? = some ⟨o, .call cmd k⟩) :
    D.Keeps o i cmd c.toSnap ∧
      D.Valid o i (k (S.exec cmd c.world).1) (Q o i) (c.toSnap.exec i cmd) :=
  hs.live i o cmd k hc c.toSnap (D.rely_refl i _) hs.inv (G.step c i o cmd k hok hc hs.inv)

/-- **Step lemma**: soundness survives every admitted event. -/
theorem Sound.next {c : Config S} {e : Event S} (G : D.Governs ok Q) (hok : ok c e)
    (hs : D.Sound Q c) : D.Sound Q (c.next e) := by
  have hidx := Config.indexed_next c e hs.indexed
  cases e with
  | start o =>
      refine ⟨hs.inv, hidx, fun i o' cmd k hc => ?_⟩
      simp only [Config.next] at hc
      rcases Nat.lt_trichotomy i c.calls.length with hlt | heq | hgt
      · rw [List.getElem?_append_left hlt] at hc
        exact hs.live i o' cmd k hc
      · subst heq
        rw [List.getElem?_concat_length] at hc
        have hv := G.start c o hok hs.inv (own_fresh hs.indexed)
        obtain ⟨rfl, hk⟩ := task_inj hc
        rw [eq_of_heq hk] at hv
        exact hv
      · rw [List.getElem?_eq_none (by simp; omega)] at hc
        cases hc
  | env e =>
      obtain ⟨hinv, hrely⟩ := G.env c e hok hs.inv
      exact ⟨hinv, hidx, fun i o cmd k hc => (hs.live i o cmd k hc).rely_call (hrely i)⟩
  | step i =>
      cases hp : c.pending i with
      | none => rw [Config.next_step_of_pending_none hp]; exact hs
      | some cmd =>
          obtain ⟨o, k, hc⟩ := Config.pending_eq_some.mp hp
          obtain ⟨hkeep, hrest⟩ := hs.keeps G hok hc
          rw [Config.next_step_of_call hc] at hidx ⊢
          refine ⟨hkeep.inv, hidx, fun j o' cmd' k' hc' => ?_⟩
          by_cases hj : j = i
          · subst hj
            have hlt := (List.getElem?_eq_some_iff.mp hc).1
            simp only [List.getElem?_set_self hlt] at hc'
            obtain ⟨rfl, hk⟩ := task_inj hc'
            rw [eq_of_heq hk] at hrest
            exact hrest
          · simp only [List.getElem?_set_ne (Ne.symm hj)] at hc'
            exact (hs.live j o' cmd' k' hc').rely_call (hkeep.rely j hj)

/-- **Run lemma**: every configuration of every admitted run is sound. -/
theorem Sound.run (G : D.Governs ok Q) {c : Config S} {es : List (Event S)}
    (hes : c.Obeys ok es) (hs : D.Sound Q c) : D.Sound Q (c.run es) :=
  Config.run_induct (fun _ _ hok h => h.next G hok) es c hes hs

/-- The postcondition holds at the moment a call settles. -/
theorem Sound.settles {c : Config S} (G : D.Governs ok Q) (hs : D.Sound Q c) {i : Nat}
    {o : S.Op} {cmd : S.Cmd} {k : Except S.Err (S.Res cmd) → Proc S.Cmd S.Res S.Err (S.Ret o)}
    (hok : ok c (.step i)) (hc : c.calls[i]? = some ⟨o, .call cmd k⟩)
    {r : Except S.Err (S.Ret o)} (hr : (c.next (.step i)).Settled i o r) :
    Q o i r (c.next (.step i)).toSnap := by
  have hrest := (hs.keeps G hok hc).2
  rw [Config.next_step_of_call hc] at hr ⊢
  have hlt := (List.getElem?_eq_some_iff.mp hc).1
  simp only [Config.Settled, List.getElem?_set_self hlt] at hr
  obtain ⟨-, hk⟩ := task_inj hr
  rw [eq_of_heq hk] at hrest
  exact hrest

/-- A postcondition no other call can break holds of settled calls for
the rest of the run. -/
def Stable (D : Discipline S)
    (Q : (o : S.Op) → Nat → Except S.Err (S.Ret o) → Snap S → Prop) : Prop :=
  ∀ o i r s s', D.rely i s s' → Q o i r s → Q o i r s'

/-- Every settled call meets its postcondition. -/
def Done (Q : (o : S.Op) → Nat → Except S.Err (S.Ret o) → Snap S → Prop)
    (c : Config S) : Prop :=
  ∀ i o r, c.Settled i o r → Q o i r c.toSnap

theorem done_initial (w : S.World) : Done Q (Config.initial w : Config S) := by
  intro i o r h
  simp [Config.Settled, Config.initial] at h

theorem Done.next {c : Config S} {e : Event S} (G : D.Governs ok Q) (hQ : D.Stable Q)
    (hok : ok c e) (hs : D.Sound Q c) (hd : Done Q c) : Done Q (c.next e) := by
  intro i o r hr
  cases e with
  | start o' =>
      simp only [Config.Settled, Config.next] at hr
      rcases Nat.lt_trichotomy i c.calls.length with hlt | heq | hgt
      · rw [List.getElem?_append_left hlt] at hr
        exact hd i o r hr
      · subst heq
        rw [List.getElem?_concat_length] at hr
        have hv := G.start c o' hok hs.inv (own_fresh hs.indexed)
        obtain ⟨rfl, hk⟩ := task_inj hr
        rw [eq_of_heq hk] at hv
        exact hv
      · rw [List.getElem?_eq_none (by simp; omega)] at hr
        cases hr
  | env e => exact hQ o i r _ _ ((G.env c e hok hs.inv).2 i) (hd i o r hr)
  | step j =>
      cases hp : c.pending j with
      | none => rw [Config.next_step_of_pending_none hp] at hr ⊢; exact hd i o r hr
      | some cmd =>
          obtain ⟨o', k, hc⟩ := Config.pending_eq_some.mp hp
          by_cases hij : i = j
          · subst hij
            have hsome := hr
            rw [Config.next_step_of_call hc] at hsome
            have hlt := (List.getElem?_eq_some_iff.mp hc).1
            simp only [Config.Settled, List.getElem?_set_self hlt] at hsome
            obtain ⟨rfl, -⟩ := task_inj hsome
            exact hs.settles G hok hc hr
          · have hkeep := (hs.keeps G hok hc).1
            rw [Config.next_step_of_call hc] at hr ⊢
            simp only [Config.Settled, List.getElem?_set_ne (Ne.symm hij)] at hr
            exact hQ o i r _ _ (hkeep.rely i hij) (hd i o r hr)

/-- In every configuration of an admitted run, the obligations hold and
settled calls meet their stable postconditions. -/
theorem Governs.sound_run (G : D.Governs ok Q) (hQ : D.Stable Q) {w : S.World}
    (h0 : D.inv ⟨w, []⟩) {es : List (Event S)}
    (hes : (Config.initial w : Config S).Obeys ok es) :
    D.Sound Q ((Config.initial w).run es) ∧ Done Q ((Config.initial w).run es) := by
  refine Config.run_induct (P := fun c => D.Sound Q c ∧ Done Q c) ?_ es _ hes
    ⟨sound_initial h0, done_initial w⟩
  intro c e hok ⟨hs, hd⟩
  exact ⟨hs.next G hok, hd.next G hQ hok hs⟩

/-! ## Procedures judged by their own commands -/

section Own

/-- A call counts on nothing but the record of its own commands. -/
def own : Discipline S where
  inv _ := True
  admits _ _ _ _ := True
  rely i s s' := s'.own i = s.own i
  guar _ _ _ _ := True
  rely_refl _ _ := rfl
  rely_trans _ _ _ _ h h' := h'.trans h

variable {o : S.Op} {i : Nat} {α β : Type} {es : List (Entry S)} {s : Snap S}

theorem own_keeps (c : S.Cmd) (s : Snap S) : (own : Discipline S).Keeps o i c s :=
  ⟨trivial, trivial, fun _ hj => Snap.exec_own_ne s c hj⟩

/-- The command is executed in some world, and is on record from then on. -/
theorem own_await {c : S.Cmd} {f : S.Res c → Proc S.Cmd S.Res S.Err β}
    {Q : Except S.Err β → Snap S → Prop} (hs : s.own i = es)
    (h : ∀ (w : S.World) (s' : Snap S), s'.own i = ⟨i, c, w⟩ :: es →
      own.Resumes o i f Q (S.exec c w).1 s') :
    own.Valid o i ((Proc.await c).bind f) Q s :=
  valid_await fun s' hr _ _ =>
    ⟨own_keeps c s', h s'.world (s'.exec i c) (by rw [Snap.exec_own_self, hr, hs])⟩

theorem own_trivial (p : Proc S.Cmd S.Res S.Err α) : own.Valid o i p (fun _ _ => True) s := by
  induction p generalizing s with
  | ret r => trivial
  | call c k ih => exact fun s' _ _ _ => ⟨own_keeps c s', ih _⟩

/-- A property of the record that all commands of a procedure keep. -/
theorem own_conforms {p : Proc S.Cmd S.Res S.Err α} {C : S.Cmd → Prop}
    {K : List (Entry S) → Prop} (hp : p.Conforms C True)
    (hK : ∀ c w es, C c → K es → K (⟨i, c, w⟩ :: es)) (hs : K (s.own i)) :
    own.Valid o i p (fun _ s' => K (s'.own i)) s := by
  induction p generalizing s with
  | ret r => exact hs
  | call c k ih =>
      intro s' (hr : s'.own i = s.own i) _ _
      refine ⟨own_keeps c s', ih _ (hp.2 _ (.inr trivial)) ?_⟩
      rw [Snap.exec_own_self, hr]
      exact hK c _ _ hp.1 hs

theorem own_conforms_bind {p : Proc S.Cmd S.Res S.Err α} {f : α → Proc S.Cmd S.Res S.Err β}
    {C : S.Cmd → Prop} {K : List (Entry S) → Prop} {Q : Except S.Err β → Snap S → Prop}
    (hp : p.Conforms C True) (hK : ∀ c w es, C c → K es → K (⟨i, c, w⟩ :: es)) (hs : K (s.own i))
    (hf : ∀ a s', K (s'.own i) → own.Valid o i (f a) Q s')
    (he : ∀ e s', K (s'.own i) → Q (.error e) s') : own.Valid o i (p.bind f) Q s := by
  refine valid_bind ((own_conforms hp hK hs).weaken fun r s' h => ?_)
  cases r with
  | ok a => exact hf a s' h
  | error e => exact he e s' h

/-- What a procedure establishes about its own record holds of every settled
call of every run. -/
theorem own_settled {Q : (o : S.Op) → Except S.Err (S.Ret o) → List (Entry S) → Prop}
    (hcode : ∀ o i (s : Snap S), s.own i = [] →
      own.Valid o i (S.code o) (fun r s' => Q o r (s'.own i)) s)
    {w : S.World} (es : List (Event S)) {r : Except S.Err (S.Ret o)}
    (h : ((Config.initial w).run es).Settled i o r) :
    Q o r (((Config.initial w).run es).toSnap.own i) := by
  have hgoverns : own.Governs (fun _ _ => True) fun o i r s => Q o r (s.own i) :=
    ⟨fun c o _ _ hfresh => hcode o _ c.toSnap hfresh, fun _ _ _ _ _ _ _ _ => trivial,
      fun c e _ _ => ⟨trivial, fun _ => rfl⟩⟩
  have hstable : own.Stable fun o i r (s : Snap S) => Q o r (s.own i) :=
    fun o i r s s' (hr : s'.own i = s.own i) hQ => by dsimp only; rw [hr]; exact hQ
  exact (hgoverns.sound_run hstable trivial (Config.obeys_of_forall (fun _ _ => trivial) _ es)).2 i o r h

end Own

end Discipline

end VerityBackend.Async
