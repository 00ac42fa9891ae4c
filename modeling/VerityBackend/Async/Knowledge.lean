/-
VerityBackend.Async.Knowledge — what a procedure knows, and keeps knowing.

A fact about the world is `Lasting` if no command and nothing in the
environment makes it false. Whoever has learnt such a fact may rely on it
from then on, whatever runs in between, and no other rely is needed.

A `Practice` says which commands are proper in which world, with an
invariant that proper commands keep. `P.Learns F p R`: knowing `F`, the
procedure `p` issues proper commands only, and `R a` holds when it returns
`a`. Of a practice every operation follows, `Practice.run` says that all
commands ever executed have been proper, and that what returned calls have
learnt is true.
-/
import VerityBackend.Async.Discipline

namespace VerityBackend.Async

variable {S : System}

/-- A fact that stays. -/
structure Lasting (F : S.World → Prop) : Prop where
  exec : ∀ c w, F w → F (S.exec c w).2
  env : ∀ e w, F w → F (S.env e w)

namespace Lasting

variable {F G : S.World → Prop}

theorem const (p : Prop) : Lasting (fun _ : S.World => p) := ⟨fun _ _ h => h, fun _ _ h => h⟩

theorem and (hF : Lasting F) (hG : Lasting G) : Lasting fun w => F w ∧ G w where
  exec c w h := ⟨hF.exec c w h.1, hG.exec c w h.2⟩
  env e w h := ⟨hF.env e w h.1, hG.env e w h.2⟩

theorem forall_mem {ι : Sort*} {F : ι → S.World → Prop} (h : ∀ i, Lasting (F i)) :
    Lasting fun w => ∀ i, F i w where
  exec c w hw i := (h i).exec c w (hw i)
  env e w hw i := (h i).env e w (hw i)

end Lasting

/-- What lasts from one world to the next. -/
def Grows (w w' : S.World) : Prop := ∀ F, Lasting F → F w → F w'

theorem Grows.refl (w : S.World) : Grows w w := fun _ _ h => h

theorem Grows.trans {w₁ w₂ w₃ : S.World} (h : Grows w₁ w₂) (h' : Grows w₂ w₃) : Grows w₁ w₃ :=
  fun F hF hw => h' F hF (h F hF hw)

theorem grows_exec (c : S.Cmd) (w : S.World) : Grows w (S.exec c w).2 := fun _ hF => hF.exec c w

theorem grows_env (e : S.Env) (w : S.World) : Grows w (S.env e w) := fun _ hF => hF.env e w

/-- The proper commands, and what they keep. -/
structure Practice (S : System) where
  inv : S.World → Prop
  proper : S.World → S.Cmd → Prop
  keeps : ∀ c w, inv w → proper w c → inv (S.exec c w).2
  env : ∀ e w, inv w → inv (S.env e w)

namespace Practice

variable (P : Practice S)

/-- What has been executed was proper, and what was true then still is. -/
def Past (s : Snap S) : Prop := ∀ e ∈ s.trace, P.proper e.before e.cmd ∧ Grows e.before s.world

def discipline : Discipline S where
  inv s := P.inv s.world ∧ P.Past s
  admits _ _ _ _ := True
  rely _ s s' := Grows s.world s'.world
  guar _ _ _ _ := True
  rely_refl _ s := .refl s.world
  rely_trans _ _ _ _ h h' := h.trans h'

variable {P}

theorem discipline_keeps {o : S.Op} {i : Nat} {c : S.Cmd} {s : Snap S}
    (hinv : P.inv s.world ∧ P.Past s) (hc : P.proper s.world c) : P.discipline.Keeps o i c s := by
  refine ⟨trivial, ⟨P.keeps c _ hinv.1 hc, fun e he => ?_⟩, fun _ _ => grows_exec c s.world⟩
  rcases List.mem_cons.mp he with rfl | he
  · exact ⟨hc, grows_exec c s.world⟩
  · exact ⟨(hinv.2 e he).1, (hinv.2 e he).2.trans (grows_exec c s.world)⟩

variable (P) in
/-- Knowing `F`, the procedure is proper, and what it returns teaches `R`. -/
def Learns {α : Type} (F : S.World → Prop) (p : Proc S.Cmd S.Res S.Err α)
    (R : α → S.World → Prop) : Prop :=
  ∀ o i s, F s.world → P.discipline.Valid o i p (fun r s' => ∀ a, r = .ok a → R a s'.world) s

section Rules

variable {α β : Type} {F F' : S.World → Prop} {p : Proc S.Cmd S.Res S.Err α}
  {R R' : α → S.World → Prop}

theorem Learns.mono (h : P.Learns F p R) (hF : ∀ w, F' w → F w)
    (hR : ∀ a w, R a w → R' a w) : P.Learns F' p R' := fun o i s hs =>
  (h o i s (hF _ hs)).weaken fun _ _ hr a ha => hR a _ (hr a ha)

/-- What was known before is known after. -/
theorem Learns.keep (h : P.Learns F p R) (hF : Lasting F) :
    P.Learns F p fun a w => F w ∧ R a w := by
  intro o i s hs
  have hvalid := h o i s hs
  clear h
  induction p generalizing s with
  | ret r => exact fun a ha => ⟨hs, hvalid a ha⟩
  | call c k ih =>
      intro s' hrely hinv ha
      obtain ⟨hkeeps, hrest⟩ := hvalid s' hrely hinv ha
      exact ⟨hkeeps, ih _ _ (hF.exec c _ (hrely F hF hs)) hrest⟩

theorem learns_pure {a : α} (h : ∀ w, F w → R a w) :
    P.Learns F (pure a : Proc S.Cmd S.Res S.Err α) R := by
  intro o i s hs b hb
  obtain rfl := Except.ok.inj hb
  exact h _ hs

theorem learns_fail (e : S.Err) : P.Learns F (Proc.fail e : Proc S.Cmd S.Res S.Err α) R :=
  fun _ _ _ _ _ h => by cases h

/-- Sequencing: the rest knows what was known, and what was learnt. -/
theorem Learns.bind {f : α → Proc S.Cmd S.Res S.Err β} {R' : β → S.World → Prop}
    (h : P.Learns F p R) (hF : Lasting F) (hf : ∀ a, P.Learns (fun w => F w ∧ R a w) (f a) R') :
    P.Learns F (p.bind f) R' := by
  intro o i s hs
  refine Discipline.valid_bind ((h.keep hF o i s hs).weaken fun r s' hr => ?_)
  cases r with
  | error e => exact fun _ h => by cases h
  | ok a => exact hf a o i s' (hr a rfl)

/-- One command. -/
theorem learns_await {c : S.Cmd} {R : S.Res c → S.World → Prop} (hF : Lasting F)
    (hproper : ∀ w, P.inv w → F w → P.proper w c)
    (hanswer : ∀ w a, P.inv w → F w → (S.exec c w).1 = .ok a → R a (S.exec c w).2) :
    P.Learns F (Proc.await c) R := by
  intro o i s hs s' hrely hinv _
  have hs' := hrely F hF hs
  exact ⟨discipline_keeps hinv (hproper _ hinv.1 hs'), fun a ha => hanswer _ a hinv.1 hs' ha⟩

/-- Commands that are always proper teach nothing, or too little to be
said. -/
theorem learns_conforms {C : S.Cmd → Prop} (hC : ∀ w c, C c → P.proper w c)
    (h : p.Conforms C True) : P.Learns F p fun _ _ => True := by
  intro o i s hs
  clear hs
  induction p generalizing s with
  | ret r => exact fun _ _ => trivial
  | call c k ih =>
      intro s' _ hinv _
      exact ⟨discipline_keeps hinv (hC _ c h.1), ih _ (h.2 _ (.inr trivial)) _⟩

theorem learns_conforms_bind {C : S.Cmd → Prop} {f : α → Proc S.Cmd S.Res S.Err β}
    {R' : β → S.World → Prop} (hC : ∀ w c, C c → P.proper w c) (h : p.Conforms C True)
    (hF : Lasting F) (hf : ∀ a, P.Learns F (f a) R') : P.Learns F (p.bind f) R' :=
  (learns_conforms hC h).bind hF fun a => (hf a).mono (fun _ h => h.1) fun _ _ h => h

end Rules

/-! ## Runs -/

section Runs

variable {ok : Config S → Event S → Prop} {R : (o : S.Op) → S.Ret o → S.World → Prop}

/-- **Run lemma**: of every configuration of a run of a practice, the
invariant holds, everything executed was proper, and what returned calls
have learnt is true. -/
theorem run (hcode : ∀ c o, ok c (.start o) → P.Learns (fun _ => True) (S.code o) (R o))
    (hR : ∀ o a, Lasting (R o a)) {w : S.World} (hw : P.inv w) {es : List (Event S)}
    (hes : (Config.initial w : Config S).Obeys ok es) :
    let c := (Config.initial w : Config S).run es
    P.inv c.world ∧ P.Past c.toSnap ∧ ∀ i o a, c.Settled i o (.ok a) → R o a c.world := by
  intro c
  have hgoverns : P.discipline.Governs ok fun o _ r s => ∀ a, r = .ok a → R o a s.world := by
    refine ⟨fun c o hok _ _ => hcode c o hok o _ _ trivial, fun _ _ _ _ _ _ _ _ => trivial, ?_⟩
    intro c e _ hinv
    exact ⟨⟨P.env e _ hinv.1, fun x hx => ⟨(hinv.2 x hx).1, (hinv.2 x hx).2.trans (grows_env e _)⟩⟩,
      fun _ => grows_env e _⟩
  obtain ⟨hsound, hdone⟩ := hgoverns.sound_run
    (fun o i r s s' hrely h a ha => hrely _ (hR o a) (h a ha))
    ⟨hw, fun e he => (by cases he)⟩ hes
  exact ⟨hsound.inv.1, hsound.inv.2, fun i o a h => hdone i o _ h a rfl⟩

end Runs

end Practice

end VerityBackend.Async
