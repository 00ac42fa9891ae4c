/-
VerityBackend.Async.Windows — what is read, and relied on later.

A call that reads something and writes by it later relies on what it has
read. `s.since i opens` is what has been executed since call `i` executed
its last opening command. A `Window` is such a stretch of a run together
with a fact about the world that only disturbing commands make false: if
the fact was true when the window was opened, it is true as long as nothing
disturbing has been executed in between (`Window.Rests`), by whomever.

`windows` is the discipline in which a suspended call counts on that and on
nothing else. So a theorem about runs without overlaps of a certain kind
assumes just that: `Snap.undisturbed`, where a command is executed.
-/
import VerityBackend.Async.Knowledge

namespace VerityBackend.Async

variable {S : System}

/-- What has been executed since call `i` executed an opening command. -/
def Snap.since (s : Snap S) (i : Nat) (opens : S.Cmd → Bool) : List (Entry S) :=
  s.trace.takeWhile fun e => !(e.call == i && opens e.cmd)

/-- Nothing disturbing has been executed since. -/
def Snap.undisturbed (s : Snap S) (i : Nat) (opens disturbs : S.Cmd → Bool) : Bool :=
  (s.since i opens).all fun e => !disturbs e.cmd

section Since

variable {s : Snap S} {i j : Nat} {c : S.Cmd} {opens disturbs : S.Cmd → Bool}

theorem Snap.undisturbed_exec (hc : j = i → opens c = false) :
    (s.exec j c).undisturbed i opens disturbs = (!disturbs c && s.undisturbed i opens disturbs) := by
  have hkept : (!(j == i && opens c)) = true := by
    by_cases hj : j = i
    · simp [hc hj]
    · simp [hj]
  simp only [Snap.undisturbed, Snap.since, Snap.exec_trace, List.takeWhile_cons, hkept, if_true,
    List.all_cons]

end Since

/-- A fact that the commands of `C` keep, if they do not disturb it. -/
structure Window (S : System) (C : S.Cmd → Prop) where
  opens : S.Cmd → Bool
  disturbs : S.Cmd → Bool
  fact : S.World → Prop
  exec : ∀ c w, C c → disturbs c = false → fact w → fact (S.exec c w).2
  env : ∀ e w, fact w → fact (S.env e w)

namespace Window

variable {C : S.Cmd → Prop} {W : Window S C} {s s' : Snap S} {i j : Nat} {c : S.Cmd}

variable (W) in
/-- The fact is true, if nothing has disturbed it since call `i` opened the
window. -/
def Rests (i : Nat) (s : Snap S) : Prop := s.undisturbed i W.opens W.disturbs = true → W.fact s.world

theorem rests_of_fact (h : W.fact s.world) : W.Rests i s := fun _ => h

/-- **Step lemma**: the next command disturbs the fact, or keeps it. -/
theorem Rests.exec (h : W.Rests i s) (hC : C c) (hc : j = i → W.opens c = false) :
    W.Rests i (s.exec j c) := by
  intro hun
  rw [Snap.undisturbed_exec hc, Bool.and_eq_true, Bool.not_eq_true'] at hun
  exact W.exec c s.world hC hun.1 (h hun.2)

theorem Rests.env (h : W.Rests i s) (e : S.Env) : W.Rests i ⟨S.env e s.world, s.trace⟩ :=
  fun hun => W.env e s.world (h hun)

/-- A fact that lasts needs no window. -/
def lasting {F : S.World → Prop} (hF : Async.Lasting F) : Window S C where
  opens _ := false
  disturbs _ := false
  fact := F
  exec c w _ _ h := hF.exec c w h
  env e w h := hF.env e w h

theorem rests_lasting {F : S.World → Prop} (hF : Async.Lasting F) :
    (lasting hF : Window S C).Rests i s ↔ F s.world :=
  ⟨fun h => h (by simp [Snap.undisturbed, lasting]), fun h _ => h⟩

end Window

/-- What a suspended call counts on: its windows. -/
def Awaits (C : S.Cmd → Prop) (i : Nat) (s s' : Snap S) : Prop :=
  ∀ W : Window S C, W.Rests i s → W.Rests i s'

theorem Awaits.lasting {C : S.Cmd → Prop} {i : Nat} {s s' : Snap S} (h : Awaits C i s s')
    {F : S.World → Prop} (hF : Lasting F) (hs : F s.world) : F s'.world :=
  (Window.rests_lasting hF).mp (h (.lasting hF) ((Window.rests_lasting hF).mpr hs))

/-- Calls that execute commands of `C`, where `admits` says so, and keep the
invariant. -/
def windows (C : S.Cmd → Prop) (inv : Snap S → Prop) (admits : Nat → S.Cmd → Snap S → Prop) :
    Discipline S where
  inv := inv
  admits _ i c s := admits i c s
  rely := Awaits C
  guar _ _ _ _ := True
  rely_refl _ _ _ h := h
  rely_trans _ _ _ _ h h' W hW := h' W (h W hW)

namespace Discipline

variable {C : S.Cmd → Prop} {inv : Snap S → Prop} {admits : Nat → S.Cmd → Snap S → Prop}
  {o : S.Op} {i : Nat} {α β : Type} {s : Snap S} {c : S.Cmd}

theorem windows_keeps (hC : C c) (h : inv (s.exec i c)) : (windows C inv admits).Keeps o i c s :=
  ⟨trivial, h, fun _ hj _ hW => hW.exec hC fun heq => absurd heq.symm hj⟩

/-- `let a ← await c; f a`. -/
theorem windows_await {f : S.Res c → Proc S.Cmd S.Res S.Err β} (hC : C c)
    {Q : Except S.Err β → Snap S → Prop}
    (h : ∀ s', Awaits C i s s' → inv s' → admits i c s' → inv (s'.exec i c) ∧
      (windows C inv admits).Resumes o i f Q (S.exec c s'.world).1 (s'.exec i c)) :
    (windows C inv admits).Valid o i ((Proc.await c).bind f) Q s :=
  valid_await fun s' hrely hinv ha =>
    ⟨windows_keeps hC (h s' hrely hinv ha).1, (h s' hrely hinv ha).2⟩

/-- A procedure of commands that keep the invariant, and what is known
besides. -/
theorem windows_conforms {p : Proc S.Cmd S.Res S.Err α} {P : S.Cmd → Prop} {J : Snap S → Prop}
    (hp : p.Conforms P True) (hJ : ∀ s s', Awaits C i s s' → J s → J s')
    (hP : ∀ c s, P c → inv s → admits i c s → J s → C c ∧ inv (s.exec i c) ∧ J (s.exec i c)) (hs : J s) :
    (windows C inv admits).Valid o i p (fun _ _ => True) s := by
  induction p generalizing s with
  | ret r => trivial
  | call c k ih =>
      intro s' hrely hinv ha
      obtain ⟨hC, hinv', hJ'⟩ := hP c s' hp.1 hinv ha (hJ s s' hrely hs)
      exact ⟨windows_keeps hC hinv', ih _ (hp.2 _ (.inr trivial)) hJ'⟩

theorem windows_bind {p : Proc S.Cmd S.Res S.Err α} {f : α → Proc S.Cmd S.Res S.Err β}
    (hp : (windows C inv admits).Valid o i p (fun _ _ => True) s)
    (hf : ∀ a s, (windows C inv admits).Valid o i (f a) (fun _ _ => True) s) :
    (windows C inv admits).Valid o i (p.bind f) (fun _ _ => True) s := by
  refine valid_bind (hp.weaken fun r s' _ => ?_)
  cases r with
  | ok a => exact hf a s'
  | error e => trivial

theorem windows_tryFinally {p : Proc S.Cmd S.Res S.Err α} {fin : Proc S.Cmd S.Res S.Err Unit}
    (hp : (windows C inv admits).Valid o i p (fun _ _ => True) s)
    (hfin : ∀ s, (windows C inv admits).Valid o i fin (fun _ _ => True) s) :
    (windows C inv admits).Valid o i (p.tryFinally fin) (fun _ _ => True) s := by
  refine valid_tryFinally (hp.weaken fun r s' _ => (hfin s').weaken fun r' s'' _ => ?_)
  cases r' with
  | ok a => trivial
  | error e => trivial

/-- **Run lemma**: the invariant holds in every run whose commands are
admitted where they are executed. -/
theorem windows_run {ok : Config S → Event S → Prop}
    (hcode : ∀ o i s, (windows C inv admits).Valid o i (S.code o) (fun _ _ => True) s)
    (hstep : ∀ (c : Config S) i cmd, ok c (.step i) → c.pending i = some cmd → admits i cmd c.toSnap)
    (henv : ∀ (c : Config S) e, ok c (.env e) → inv c.toSnap → inv (c.next (.env e)).toSnap)
    {w : S.World} (hw : inv ⟨w, []⟩) {es : List (Event S)}
    (hes : (Config.initial w : Config S).Obeys ok es) : inv ((Config.initial w).run es).toSnap := by
  have hgoverns : (windows C inv admits).Governs ok fun _ _ _ _ => True := by
    refine ⟨fun c o _ _ _ => hcode o _ _, fun c i o cmd k hok hc _ => ?_, fun c e hok hinv => ?_⟩
    · exact hstep c i cmd hok (Config.pending_of_call hc)
    · exact ⟨henv c e hok hinv, fun _ _ hW => hW.env e⟩
  exact (hgoverns.sound_run (fun _ _ _ _ _ _ _ => trivial) hw hes).1.inv

end Discipline

end VerityBackend.Async
