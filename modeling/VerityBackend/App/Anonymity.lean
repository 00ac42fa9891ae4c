/-
VerityBackend.App.Anonymity — before a match nothing is learnt about a
partner's profile.

Two runs in which the same happens, and in which one user's profile is set
to whatever it is set to in each: at the start, and by updates in between.
As long as no Match row is between that user and another one, everything
the other one receives is the same (`anonymous_until_match`).

The runs stay twins (`Twinned.play`). That needs to know which session ids
are those of sessions between the two, and those are the ids of the rows
that are there at the start or are created later (`Ever`): no id is given
twice (`Drawn`).
-/
import VerityBackend.App.Masked
import VerityBackend.App.Replay
import VerityBackend.Backend.MatchRows

namespace VerityBackend.App

open Async Sessions Store

variable {cfg : AppConfig}

/-! ## Two runs -/

/-- The runs that are compared. -/
inductive Run where
  | first
  | second
  deriving DecidableEq, Repr

/-- What happens in both of them: the same event of the backend, or an
update of the profile of one user, to values that may differ. -/
inductive Happening (cfg : AppConfig) where
  | event (e : Event (appService cfg).system)
  | update (profile : Run → Profile)

/-- One thing that happens, in one of the runs. -/
def happen (run : Run) (p : UserId) (c : Config (appService cfg).system) :
    Happening cfg → Config (appService cfg).system
  | .event e => c.next e
  | .update profile => { c with world := c.world.dress p (profile run) }

def play (run : Run) (p : UserId) (c : Config (appService cfg).system) :
    List (Happening cfg) → Config (appService cfg).system
  | [] => c
  | h :: hs => play run p (happen run p c h) hs

/-- What has come of one of the runs. -/
def history (w : World) (p : UserId) (profile : Run → Profile) (hs : List (Happening cfg))
    (run : Run) : Config (appService cfg).system :=
  play run p (Config.initial (w.dress p (profile run))) hs

/-- A world a run may start from: no id is given twice, and a mutual
decision is stored for sessions whose users have a Match row only. -/
structure Coherent (w : World) : Prop where
  unique : ∀ x ∈ w.db.sessions, ∀ y ∈ w.db.sessions, x.id = y.id → x = y
  drawn : ∀ x ∈ w.db.sessions, ∀ n ≥ w.nextId, x.id ≠ freshId n
  decided : ∀ id e matchId, w.stored (.sessionDecision id) = some e →
    parseStoredDecision (some e.val) = .resolved (.mutual matchId) →
      (∀ n ≥ w.nextId, id ≠ freshId n) ∧
        ∀ x ∈ w.db.sessions, x.id = id → ∃ m ∈ w.db.matchRows, m.isBetween x.userAId x.userBId

/-- A backend that is new has neither sessions nor decisions. -/
theorem coherent_of_new {w : World} (hsessions : w.db.sessions = [])
    (hstored : ∀ id, w.stored (.sessionDecision id) = none) : Coherent w where
  unique x hx := by
    rw [hsessions] at hx
    cases hx
  drawn x hx := by
    rw [hsessions] at hx
    cases hx
  decided id e matchId he := by
    rw [hstored] at he
    cases he

/-! ## The rows of sessions -/

/-- The row is there at the start, or after some command. -/
def Ever (w : World) (s : Snap (appService cfg).system) (x : Session) : Prop :=
  x ∈ w.db.sessions ∨ ∃ e ∈ s.trace, x ∈ e.after.db.sessions

theorem Ever.mono {w : World} {s s' : Snap (appService cfg).system} {x : Session}
    (h : Ever w s x) (htrace : s.trace ⊆ s'.trace) : Ever w s' x := by
  rcases h with h | ⟨e, he, hx⟩
  · exact .inl h
  · exact .inr ⟨e, htrace he, hx⟩

/-- Which rows there have been, and with which ids. -/
structure Drawn (w : World) (s : Snap (appService cfg).system) : Prop where
  current : ∀ x ∈ s.world.db.sessions, Ever w s x
  unique : ∀ x y, Ever w s x → Ever w s y → x.id = y.id → x = y
  drawn : ∀ x, Ever w s x →
    x ∈ w.db.sessions ∨ ∃ n, w.nextId ≤ n ∧ n < s.world.nextId ∧ x.id = freshId n
  counter : w.nextId ≤ s.world.nextId

theorem drawn_initial {w w' : World} (hw : Coherent w) (hsessions : w'.db.sessions = w.db.sessions)
    (hnext : w'.nextId = w.nextId) : Drawn w (⟨w', []⟩ : Snap (appService cfg).system) := by
  have hever : ∀ x, Ever w (⟨w', []⟩ : Snap (appService cfg).system) x → x ∈ w.db.sessions := by
    rintro x (hx | ⟨e, he, -⟩)
    · exact hx
    · cases he
  refine ⟨fun x hx => .inl (hsessions ▸ hx), fun x y hx hy => ?_, fun x hx => .inl (hever x hx),
    hnext.ge⟩
  exact hw.unique x (hever x hx) y (hever y hy)

/-- No row has had the next id. -/
theorem Drawn.fresh {w : World} {s : Snap (appService cfg).system} (hw : Coherent w)
    (h : Drawn w s) {x : Session} (hx : Ever w s x) : x.id ≠ freshId s.world.nextId := by
  rcases h.drawn x hx with hold | ⟨n, -, hn, hid⟩
  · exact hw.drawn x hold _ h.counter
  · intro heq
    have := freshId_injective (hid.symm.trans heq)
    omega

theorem Drawn.exec {w : World} {s : Snap (appService cfg).system} (hw : Coherent w)
    (h : Drawn w s) (i : Nat) (c : Cmd) : Drawn w (s.exec i c) := by
  have hle : s.world.nextId ≤ (s.exec i c).world.nextId := c.nextId_le_exec s.world
  have hmono : ∀ x, Ever w s x → Ever w (s.exec i c) x := fun x hx =>
    hx.mono (List.subset_cons_self _ _)
  have hcurrent : ∀ x ∈ (s.exec i c).world.db.sessions, Ever w (s.exec i c) x := fun x hx =>
    .inr ⟨_, List.mem_cons_self, hx⟩
  have hdrawn : ∀ x, Ever w s x → x ∈ w.db.sessions ∨
      ∃ n, w.nextId ≤ n ∧ n < (s.exec i c).world.nextId ∧ x.id = freshId n := by
    intro x hx
    rcases h.drawn x hx with hold | ⟨n, hfrom, hn, hid⟩
    · exact .inl hold
    · exact .inr ⟨n, hfrom, by omega, hid⟩
  rcases c.sessions_exec s.world with hsub | ⟨row, hid, hnext, hrows⟩
  · have hever : ∀ x, Ever w (s.exec i c) x → Ever w s x := by
      rintro x (hx | ⟨e, he, hx⟩)
      · exact .inl hx
      · rcases List.mem_cons.mp he with rfl | he
        · exact h.current x (hsub x hx)
        · exact .inr ⟨e, he, hx⟩
    exact ⟨hcurrent, fun x y hx hy => h.unique x y (hever x hx) (hever y hy),
      fun x hx => hdrawn x (hever x hx), Nat.le_trans h.counter hle⟩
  · have hever : ∀ x, Ever w (s.exec i c) x → Ever w s x ∨ x = row := by
      rintro x (hx | ⟨e, he, hx⟩)
      · exact .inl (.inl hx)
      · rcases List.mem_cons.mp he with rfl | he
        · have hmem : x ∈ s.world.db.sessions ++ [row] := hrows ▸ hx
          rcases List.mem_append.mp hmem with hold | hnew
          · exact .inl (h.current x hold)
          · exact .inr (List.mem_singleton.mp hnew)
        · exact .inl (.inr ⟨e, he, hx⟩)
    refine ⟨hcurrent, fun x y hx hy hxy => ?_, fun x hx => ?_, Nat.le_trans h.counter hle⟩
    · rcases hever x hx with hx | rfl <;> rcases hever y hy with hy | rfl
      · exact h.unique x y hx hy hxy
      · exact absurd (hxy.trans hid) (h.fresh hw hx)
      · exact absurd (hxy.symm.trans hid) (h.fresh hw hy)
      · rfl
    · rcases hever x hx with hx | rfl
      · exact hdrawn x hx
      · refine .inr ⟨s.world.nextId, h.counter, ?_, hid⟩
        have hsucc : (s.exec i c).world.nextId = s.world.nextId + 1 := hnext
        omega

theorem Drawn.happen {w : World} {c : Config (appService cfg).system} (hw : Coherent w)
    (h : Drawn w c.toSnap) (run : Run) (p : UserId) (what : Happening cfg) :
    Drawn w (happen run p c what).toSnap := by
  cases what with
  | update profile => exact ⟨h.current, h.unique, h.drawn, h.counter⟩
  | event e =>
      cases e with
      | start o => exact h
      | env e =>
          cases e
          exact ⟨h.current, h.unique, h.drawn, h.counter⟩
      | step i =>
          change Drawn w (c.next (.step i)).toSnap
          cases hp : c.pending i with
          | none =>
              rw [Config.next_step_of_pending_none hp]
              exact h
          | some cmd =>
              obtain ⟨o, k, hc⟩ := Config.pending_eq_some.mp hp
              rw [Config.next_step_of_call hc]
              exact h.exec hw i cmd

theorem Drawn.play {w : World} {c : Config (appService cfg).system} (hw : Coherent w)
    (h : Drawn w c.toSnap) (run : Run) (p : UserId) (hs : List (Happening cfg)) :
    Drawn w (play run p c hs).toSnap := by
  induction hs generalizing c with
  | nil => exact h
  | cons what hs ih => exact ih (h.happen hw run p what)

/-! ## Match rows -/

section Rows

variable {u p : UserId}

/-- Rows are not taken away. -/
theorem unmatched_of_exec {c : Cmd} {w : World} (h : Unmatched u p (c.exec w).2) :
    Unmatched u p w := by
  intro m hm hbetween
  obtain ⟨m', hm', hlater⟩ := (c.matchRows_exec w).stays hm
  refine h m' hm' ?_
  unfold Match.isBetween at hbetween ⊢
  rwa [hlater.userAId, hlater.userBId]

theorem unmatched_of_happen {c : Config (appService cfg).system} (run : Run)
    (what : Happening cfg) (h : Unmatched u p (happen run p c what).world) :
    Unmatched u p c.world := by
  cases what with
  | update profile => exact h
  | event e =>
      cases e with
      | start o => exact h
      | env e =>
          cases e
          exact h
      | step i =>
          change Unmatched u p (c.next (.step i)).world at h
          cases hp : c.pending i with
          | none => rwa [Config.next_step_of_pending_none hp] at h
          | some cmd =>
              obtain ⟨o, k, hc⟩ := Config.pending_eq_some.mp hp
              rw [Config.next_step_of_call hc] at h
              exact unmatched_of_exec h

theorem unmatched_of_play {c : Config (appService cfg).system} (run : Run)
    (hs : List (Happening cfg)) (h : Unmatched u p (play run p c hs).world) :
    Unmatched u p c.world := by
  induction hs generalizing c with
  | nil => exact h
  | cons what hs ih => exact unmatched_of_happen run what (ih h)

theorem trace_happen (run : Run) (p : UserId) (c : Config (appService cfg).system)
    (what : Happening cfg) : c.trace ⊆ (happen run p c what).trace := by
  cases what with
  | update profile => exact List.Subset.refl _
  | event e =>
      cases e with
      | start o => exact List.Subset.refl _
      | env e => exact List.Subset.refl _
      | step i =>
          change c.trace ⊆ (c.next (.step i)).trace
          cases hp : c.pending i with
          | none => rw [Config.next_step_of_pending_none hp]; exact List.Subset.refl _
          | some cmd =>
              obtain ⟨o, k, hc⟩ := Config.pending_eq_some.mp hp
              rw [Config.next_step_of_call hc]
              exact List.subset_cons_self _ _

theorem trace_play (run : Run) (p : UserId) (c : Config (appService cfg).system)
    (hs : List (Happening cfg)) : c.trace ⊆ (play run p c hs).trace := by
  induction hs generalizing c with
  | nil => exact List.Subset.refl _
  | cons what hs ih => exact List.Subset.trans (trace_happen run p c what) (ih _)

end Rows

/-! ## The runs are twins -/

/-- Where the two runs stand. -/
structure Twinned (V : View) (c c' : Config (appService cfg).system) : Prop where
  twins : Twins V.TwinCmd V.TwinRes V.SameFor c c'
  world : ∃ profile, c'.world = c.world.dress V.p profile
  hidden : View.Hidden V c.world

namespace Twinned

variable {V : View} {c c' : Config (appService cfg).system}

/-- A pair of twin commands. -/
theorem exec {cmd cmd' : Cmd} (h : Twinned V c c') (hcmd : V.TwinCmd cmd cmd')
    (hrows : ∀ x ∈ (cmd.exec c.world).2.db.sessions, V.ours x.id ↔ x.isBetween V.u V.p)
    (hnext : Unmatched V.u V.p (cmd.exec c.world).2) :
    V.TwinRes cmd cmd' (cmd.exec c.world).1 (cmd'.exec c'.world).1 ∧
      (∃ profile, (cmd'.exec c'.world).2 = (cmd.exec c.world).2.dress V.p profile) ∧
      View.Hidden V (cmd.exec c.world).2 := by
  obtain ⟨profile, hworld⟩ := h.world
  rw [hworld]
  cases hcmd with
  | same hstores =>
      rw [Cmd.exec_dress]
      exact ⟨.inl ⟨rfl, ⟨profile, rfl⟩, h.hidden.known cmd hnext⟩, ⟨profile, rfl⟩,
        h.hidden.exec hstores hrows hnext⟩
  | emit hsame => exact ⟨.inr ⟨_, _, rfl, rfl, HEq.rfl⟩, ⟨profile, rfl⟩, h.hidden⟩

/-- **Step lemma**: whatever happens, happens to twins. -/
theorem happen (h : Twinned V c c') (what : Happening cfg)
    (hrows : ∀ e ∈ (happen .first V.p c what).trace, ∀ x ∈ e.after.db.sessions,
      V.ours x.id ↔ x.isBetween V.u V.p)
    (hun : Unmatched V.u V.p (App.happen .first V.p c what).world) :
    Twinned V (App.happen .first V.p c what) (App.happen .second V.p c' what) := by
  obtain ⟨profile, hworld⟩ := h.world
  cases what with
  | update profiles =>
      refine ⟨⟨h.twins.calls, h.twins.trace⟩, ⟨profiles .second, ?_⟩,
        ⟨h.hidden.rows, h.hidden.decided, h.hidden.unmatched⟩⟩
      simp only [App.happen, hworld, World.dress_dress]
  | event e =>
      have hcode := View.masked_code (V := V) cfg
      cases e with
      | start o => exact ⟨h.twins.next hcode (.start o) (fun _ _ _ he => by cases he), h.world, h.hidden⟩
      | env e =>
          cases e with
          | tick ms =>
              refine ⟨h.twins.next hcode (.env (.tick ms)) (fun _ _ _ he => by cases he),
                ⟨profile, ?_⟩, ⟨h.hidden.rows, h.hidden.decided, h.hidden.unmatched⟩⟩
              simp only [App.happen, Config.next, hworld]
              rfl
      | step i =>
          change Unmatched V.u V.p (c.next (.step i)).world at hun
          change ∀ e ∈ (c.next (.step i)).trace, _ at hrows
          change Twinned V (c.next (.step i)) (c'.next (.step i))
          rcases h.twins.step_cases i with ⟨hc, hc'⟩ | ⟨o, cmd, cmd', k, k', hc, hc', hcmd, -⟩
          · rw [hc, hc']
            exact h
          · rw [Config.next_step_of_call hc] at hun hrows
            obtain ⟨hres, hafter, hhidden⟩ :=
              h.exec hcmd (hrows _ List.mem_cons_self) hun
            refine ⟨h.twins.next hcode (.step i) ?_, ?_, ?_⟩
            · intro j d d' hj hd hd'
              cases hj
              obtain rfl := Option.some.inj ((Config.pending_of_call hc).symm.trans hd)
              exact (h.exec hd' (hrows _ List.mem_cons_self) hun).1
            · rw [Config.next_step_of_call hc, Config.next_step_of_call hc']
              exact hafter
            · rw [Config.next_step_of_call hc]
              exact hhidden

/-- **Run lemma**: the runs are twins as long as there is no match. -/
theorem play (h : Twinned V c c') (hs : List (Happening cfg))
    (hrows : ∀ e ∈ (play .first V.p c hs).trace, ∀ x ∈ e.after.db.sessions,
      V.ours x.id ↔ x.isBetween V.u V.p)
    (hun : Unmatched V.u V.p (App.play .first V.p c hs).world) :
    Twinned V (App.play .first V.p c hs) (App.play .second V.p c' hs) := by
  induction hs generalizing c c' with
  | nil => exact h
  | cons what hs ih =>
      refine ih (h.happen what (fun e he => hrows e (trace_play _ _ _ hs he)) ?_) hrows hun
      exact unmatched_of_play .first hs hun

/-! ### What is received -/

theorem sentTo_eq (h : Twinned V c c') : sentTo V.u c' = sentTo V.u c := by
  have hcmd : ∀ cmd cmd', V.TwinCmd cmd cmd' → cmd'.sentTo V.u = cmd.sentTo V.u := by
    intro cmd cmd' hcmd
    cases hcmd with
    | same hstores => rfl
    | emit hsame => exact hsame.symm
  have hmap : c'.trace.map (fun e => Cmd.sentTo V.u e.cmd) =
      c.trace.map (fun e => Cmd.sentTo V.u e.cmd) := by
    have htrace := h.twins.trace
    generalize c.trace = l, c'.trace = l' at htrace
    induction htrace with
    | nil => rfl
    | cons he _ ih => rw [List.map_cons, List.map_cons, ih, hcmd _ _ he.2]
  unfold sentTo
  rw [List.map_reverse, List.map_reverse, hmap]

theorem answerTo_eq {t t' : Task (appService cfg).system}
    (h : TwinTask V.TwinCmd V.TwinRes V.SameFor t t') : answerTo V.u t' = answerTo V.u t := by
  obtain ⟨halike⟩ := h
  rename_i o p p'
  cases p with
  | call cmd k =>
      cases p' with
      | ret r' => exact halike.elim
      | call cmd' k' => rfl
  | ret r =>
      cases p' with
      | call cmd' k' => exact halike.elim
      | ret r' =>
          unfold answerTo
          dsimp only
          split
          · next hcaller =>
              cases (halike : Both (V.SameFor o) r r') with
              | error e => rfl
              | ok hsame => rw [hsame hcaller]
          · rfl

theorem received_eq (h : Twinned V c c') : received V.u c' = received V.u c := by
  have hcalls : c'.calls.map (answerTo V.u) = c.calls.map (answerTo V.u) := by
    have htasks := h.twins.calls
    generalize c.calls = l, c'.calls = l' at htasks
    induction htasks with
    | nil => rfl
    | cons ht _ ih => rw [List.map_cons, List.map_cons, ih, answerTo_eq ht]
  unfold received
  rw [h.sentTo_eq, hcalls]

end Twinned

/-! ## Anonymity -/

/-- What a user `u` receives does not depend on the profile of `p`, as long
as no Match row between the two exists. -/
theorem anonymous_until_match {w : World} (hw : Coherent w) (u p : UserId) (profile : Run → Profile)
    (hs : List (Happening cfg)) (hun : Unmatched u p (history w p profile hs .first).world) :
    received u (history w p profile hs .second) = received u (history w p profile hs .first) := by
  let s := (history w p profile hs .first).toSnap
  let V : View := ⟨u, p, fun id => ∃ x, Ever w s x ∧ x.id = id ∧ x.isBetween u p⟩
  have hdrawn : Drawn w s :=
    Drawn.play hw (@drawn_initial cfg w (w.dress p (profile .first)) hw rfl rfl) .first p hs
  -- the ids of the sessions of the two are no other sessions' ids
  have hours : ∀ x, Ever w s x → (V.ours x.id ↔ x.isBetween u p) := by
    intro x hx
    constructor
    · rintro ⟨y, hy, hid, hbetween⟩
      exact hdrawn.unique y x hy hx hid ▸ hbetween
    · exact fun hbetween => ⟨x, hx, rfl, hbetween⟩
  have hstart : Unmatched u p (w.dress p (profile .first)) := unmatched_of_play .first hs hun
  have hdecided : ∀ id e matchId, w.stored (.sessionDecision id) = some e →
      parseStoredDecision (some e.val) = .resolved (.mutual matchId) → ¬V.ours id := by
    rintro id e matchId he hparse ⟨x, hx, rfl, hbetween⟩
    obtain ⟨hfresh, hmatched⟩ := hw.decided _ e matchId he hparse
    rcases hdrawn.drawn x hx with hold | ⟨n, hn, -, hid⟩
    · obtain ⟨m, hm, hmx⟩ := hmatched x hold rfl
      refine hstart m hm ?_
      unfold Match.isBetween at hmx ⊢
      unfold Session.isBetween at hbetween
      rcases hbetween with ⟨rfl, rfl⟩ | ⟨rfl, rfl⟩
      · exact hmx
      · exact hmx.symm
    · exact hfresh n hn hid
  have htwinned : Twinned V (history w p profile hs .first) (history w p profile hs .second) := by
    refine Twinned.play ⟨Twins.initial _ _, ⟨profile .second, ?_⟩, ⟨?_, ?_, hstart⟩⟩ hs ?_ hun
    · exact (World.dress_dress w (profile .second)).symm
    · exact fun x hx => hours x (.inl hx)
    · exact hdecided
    · exact fun e he x hx => hours x (.inr ⟨e, he, hx⟩)
  exact htwinned.received_eq

/-- `ann` and `bob` are paired, talk, and `ann` chooses. Meanwhile `bob`
edits his profile, in each run in a way of its own. -/
def pairedAndChosen : List (Happening vendorApp) :=
  let call (i : Nat) (o : AppOp) : List (Happening vendorApp) :=
    .event (.start o) :: List.replicate 24 (.event (.step i))
  call 0 (.queue (.joinQueue "ann" ⟨.undefined, .undefined, "p"⟩)) ++
    call 1 (.queue (.joinQueue "bob" ⟨.undefined, .undefined, "p"⟩)) ++
    call 2 (.queue (.processQueueKey "canberra:p")) ++
    [.update fun run => match run with
      | .first => ⟨some "Bob", none, some 30, none⟩
      | .second => ⟨some "Robert", some [.str "https://example.org/b.png"], some 40, some "hi"⟩] ++
    call 3 (.sessionTimeout 0 (freshId 4) "ann" "bob") ++
    call 4 (.submitChoice 0 (freshId 4) "ann" .MATCH) ++
    call 5 (.read "ann" (.listMatches true))

/-- The profiles at the start. -/
def bobsProfile : Run → Profile
  | .first => ⟨none, none, none, none⟩
  | .second => ⟨some "Bobby", none, some 20, none⟩

theorem anonymous_until_match_paired :
    received "ann" (history (World.peopled ["ann", "bob"] 1) "bob" bobsProfile pairedAndChosen .second) =
      received "ann"
        (history (World.peopled ["ann", "bob"] 1) "bob" bobsProfile pairedAndChosen .first) :=
  anonymous_until_match (coherent_of_new rfl fun _ => rfl) "ann" "bob" bobsProfile pairedAndChosen
    (by decide +kernel)

end VerityBackend.App
