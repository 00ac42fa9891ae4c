/-
VerityBackend.Session.Recovery — what a restart recovers.

The recovery finds sessions that have not ended by their state and sessions
that have ended by their choice deadline. `endSession` writes the mark
`session:ended` first and the deadline several awaits later, so a process
that stops in between leaves a session neither loop looks at.
`recovery_complete` says that this is the only gap: after any run of the
process, stopped anywhere, a restart gives the session its timer or its
decision back exactly if it is not half ended (`View.HalfEnded`).

A restart runs alone, but time passes between its commands. The loop over
the scanned keys is followed with an invariant in which the keys still to
come occur (`View.Ending`, `View.Choosing`).
-/
import VerityBackend.Session.Decision
import VerityBackend.Session.Issued
import VerityBackend.Session.Lifecycle

namespace VerityBackend.Sessions

open Async

/-! ## What is seen of a session -/

/-- The strings and the timers that belong to one session. -/
structure View where
  state : Option RedisString
  ended : Option RedisString
  deadline : Option RedisString
  decision : Option RedisString
  timer : Option Timer
  choiceTimer : Option Timer
  deriving DecidableEq

def viewOf (self : Instance) (id : SessionId) (w : World) : View where
  state := w.get (.sessionState id)
  ended := w.get (.sessionEnded id)
  deadline := w.get (.sessionChoiceDeadline id)
  decision := w.get (.sessionDecision id)
  timer := w.timers self id
  choiceTimer := w.choiceTimers self id

namespace View

def hasEnded (v : View) : Bool := truthy v.ended

def decided (v : View) : Bool :=
  match parseStoredDecision v.decision with
  | .resolved _ => true
  | _ => false

/-- A session that has not ended has its end timer, one that has ended its
choice timer or a resolved decision. -/
def Complete (v : View) : Prop :=
  (v.hasEnded = false ∧ v.timer.isSome) ∨ (v.hasEnded = true ∧ v.choiceTimer.isSome) ∨
    v.decided = true

instance (v : View) : Decidable v.Complete := by
  unfold Complete
  infer_instance

/-- Marked as ended, and the deadline not written yet. -/
def HalfEnded (v : View) : Prop :=
  v.hasEnded = true ∧ v.deadline = none ∧ v.decided = false

instance (v : View) : Decidable v.HalfEnded := by
  unfold HalfEnded
  infer_instance

/-- While end timers are recovered; `due` says that the session is still to
come. -/
def Ending (due : Prop) (v : View) : Prop :=
  v.decided = true ∨ (v.hasEnded = true ∧ v.deadline.isSome) ∨
    (v.hasEnded = false ∧ v.state.isSome ∧ (due ∨ v.timer.isSome))

/-- While choice timers are recovered. -/
def Choosing (due : Prop) (v : View) : Prop :=
  v.decided = true ∨ (v.hasEnded = true ∧ (v.deadline.isSome ∧ due ∨ v.choiceTimer.isSome)) ∨
    (v.hasEnded = false ∧ v.timer.isSome)

/-- Half ended, and nothing armed. -/
def Lost (v : View) : Prop := v.HalfEnded ∧ v.choiceTimer = none

theorem Lost.not_complete {v : View} (h : v.Lost) : ¬v.Complete := by
  obtain ⟨⟨hended, -, hopen⟩, hnone⟩ := h
  rintro (⟨hnot, -⟩ | ⟨-, harmed⟩ | hdecided)
  · rw [hended] at hnot
    cases hnot
  · rw [hnone] at harmed
    cases harmed
  · rw [hopen] at hdecided
    cases hdecided

theorem Choosing.complete {v : View} (h : v.Choosing False) : v.Complete := by
  rcases h with hdecided | ⟨hended, ⟨-, hdue⟩ | harmed⟩ | hnot
  · exact .inr (.inr hdecided)
  · exact hdue.elim
  · exact .inr (.inl ⟨hended, harmed⟩)
  · exact .inl hnot

end View

/-! ## The restart -/

/-- A process that starts has no timers. -/
def restart (self : Instance) (w : World) : World :=
  { w with
    timers := fun inst => if inst = self then fun _ => none else w.timers inst
    choiceTimers := fun inst => if inst = self then fun _ => none else w.choiceTimers inst }

/-- When the running loop of the recovery was entered: it reads the clock
right before it scans. -/
def loopStart : List (Entry lifecycleService.system) → Option Nat
  | [] => none
  | e :: older =>
      match e.cmd with
      | .redis .scanSessionStates => older.head?.map fun e' => World.clock e'.before
      | .redis .scanChoiceDeadlines => older.head?.map fun e' => World.clock e'.before
      | _ => loopStart older

/-- The key a loop looks at with this command: the first one reads the
state of the session, the second one its decision. -/
def lookedAt : Cmd → Option SessionId
  | .redis (.get (.sessionState id)) => some id
  | .redis (.get (.sessionDecision id)) => some id
  | _ => none

/-- The keys of the running loop that it has not looked at. -/
def toCome : List (Entry lifecycleService.system) → List SessionId
  | [] => []
  | e :: older =>
      match e.cmd with
      | .redis .scanSessionStates => scanFor e.before RedisKey.stateOf
      | .redis .scanChoiceDeadlines => scanFor e.before RedisKey.choiceDeadlineOf
      | c => (toCome older).filter fun id => lookedAt c ≠ some id

/-- While keys are to come, the loop is not given up when it reads the clock
now. What is read after its last check is free. -/
def InBudget (s : Snap lifecycleService.system) : Prop :=
  toCome s.trace ≠ [] → ∀ t ∈ loopStart s.trace,
    World.clock s.world - t < RECOVERY_MAX_DURATION_MS

instance (s : Snap lifecycleService.system) : Decidable (InBudget s) :=
  inferInstanceAs (Decidable (toCome s.trace ≠ [] → ∀ t ∈ loopStart s.trace,
    World.clock s.world - t < RECOVERY_MAX_DURATION_MS))

def Untruncated (c : Config lifecycleService.system) (i : Nat) : Prop :=
  match c.pending i with
  | some (.host .now) => InBudget c.toSnap
  | _ => True

instance (c : Config lifecycleService.system) (i : Nat) : Decidable (Untruncated c i) := by
  unfold Untruncated
  split <;> infer_instance

/-- The events of a restart: nothing else is called, the loops end in time,
and no key expires. -/
def RecoveryRun (c : Config lifecycleService.system) : Event lifecycleService.system → Prop
  | .start _ => False
  | .step i => Untruncated c i
  | .env e => World.KeysSurvive c.world e

instance (c : Config lifecycleService.system) (e : Event lifecycleService.system) :
    Decidable (RecoveryRun c e) :=
  match e with
  | .start _ => inferInstanceAs (Decidable False)
  | .step i => inferInstanceAs (Decidable (Untruncated c i))
  | .env e => inferInstanceAs (Decidable (World.KeysSurvive c.world e))

/-- The process starts again on what another one has left. -/
def recovering (self : Instance) (w : World) : Config lifecycleService.system :=
  (Config.initial (restart self w)).next (.start (.onModuleInit self))

/-! ## The discipline -/

/-- The same world later, no key having expired. -/
structure Later (w w' : World) : Prop where
  get : ∀ k, w'.get k = w.get k
  timers : w'.timers = w.timers
  choiceTimers : w'.choiceTimers = w.choiceTimers
  sessions : w'.db.sessions = w.db.sessions

theorem Later.refl (w : World) : Later w w := ⟨fun _ => rfl, rfl, rfl, rfl⟩

theorem Later.trans {w₁ w₂ w₃ : World} (h : Later w₁ w₂) (h' : Later w₂ w₃) : Later w₁ w₃ :=
  ⟨fun k => (h'.get k).trans (h.get k), h'.timers.trans h.timers,
    h'.choiceTimers.trans h.choiceTimers, h'.sessions.trans h.sessions⟩

theorem Later.view {w w' : World} (h : Later w w') (self : Instance) (id : SessionId) :
    viewOf self id w' = viewOf self id w := by
  simp only [viewOf, h.get, h.timers, h.choiceTimers]

/-- What is seen of a session does not change when another one is acted
for. -/
theorem view_about {self : Instance} {id x : SessionId} {b : Prop} {c : Cmd} (hc : About x b c)
    (hx : x ≠ id) (w : World) : viewOf self id (c.exec w).2 = viewOf self id w := by
  have htimer : ∀ (m : Instance → SessionId → Option Timer) (inst : Instance) (t : Option Timer),
      setTimer m inst x t self id = m self id := by
    intro m inst t
    exact if_neg fun h => hx h.2.symm
  have hset : ∀ {k : RedisKey} {v : RedisString} {ttl : Option Nat},
      (∀ y ∈ sessionOf k, y = x) → viewOf self id (w.set k v ttl) = viewOf self id w := by
    intro k v ttl hk
    have hne : ∀ k', sessionOf k' = some id → k' ≠ k := by
      rintro k' hk' rfl
      exact hx (hk id hk').symm
    simp only [viewOf]
    rw [World.get_set_ne (hne _ rfl), World.get_set_ne (hne _ rfl), World.get_set_ne (hne _ rfl),
      World.get_set_ne (hne _ rfl)]
    rfl
  cases c with
  | db c =>
      cases c with
      | sessionFindUnique y => rfl
      | userFindUnique y => rfl
      | matchUpsert y z =>
          simp only [Cmd.exec_db, DbCmd.exec, World.create]
          split
          · rfl
          · split <;> rfl
      | _ => exact hc.elim
  | host c =>
      cases c with
      | now => rfl
      | emit os => rfl
      | buildSessionTokens y a b => rfl
      | randomUUID => exact hc.elim
      | scheduleSessionEnd inst y a b endAt =>
          obtain rfl : y = x := hc
          simp only [viewOf, Cmd.exec_host, HostCmd.exec, htimer]
          rfl
      | clearSessionEnd inst y =>
          obtain rfl : y = x := hc
          simp only [viewOf, Cmd.exec_host, HostCmd.exec, htimer]
          rfl
      | scheduleChoiceTimeout inst y a b deadline =>
          obtain rfl : y = x := hc
          simp only [viewOf, Cmd.exec_host, HostCmd.exec, htimer]
          rfl
      | clearChoiceTimeout inst y =>
          obtain rfl : y = x := hc
          simp only [viewOf, Cmd.exec_host, HostCmd.exec, htimer]
          rfl
  | redis c =>
      cases c with
      | get k => rfl
      | hget y user => rfl
      | hset y user choice => rfl
      | hmget y user₁ user₂ => rfl
      | pexpireChoices y ttl =>
          simp only [Cmd.exec_redis, RedisCmd.exec, World.expireChoices]
          split <;> rfl
      | set k v ttl => exact hset hc.1
      | setNX k v ttl =>
          simp only [Cmd.exec_redis, RedisCmd.exec]
          split
          · rfl
          · exact hset hc.1
      | del ks =>
          have hne : ∀ k, sessionOf k = some id → k ∉ ks := by
            intro k hk hmem
            rw [hc k hmem] at hk
            cases hk
          have htimers : ∀ (ks : List RedisKey) (w : World),
              (ks.foldl World.del w).timers = w.timers ∧
                (ks.foldl World.del w).choiceTimers = w.choiceTimers := by
            intro ks
            induction ks with
            | nil => exact fun _ => ⟨rfl, rfl⟩
            | cons k ks ih => exact fun w => ih (w.del k)
          simp only [viewOf, Cmd.exec_redis, RedisCmd.exec]
          rw [get_delAll (hne _ rfl), get_delAll (hne _ rfl), get_delAll (hne _ rfl),
            get_delAll (hne _ rfl), (htimers ks w).1, (htimers ks w).2]
      | _ => exact hc.elim

/-- What holds of Redis and of the session's row. -/
structure RecoveryInv (id : SessionId) (w : World) : Prop where
  typed : Typed w
  row : (w.db.sessions.find? (·.id = id)).isSome

def recoveryDiscipline (id : SessionId) : Discipline lifecycleService.system where
  inv s := RecoveryInv id s.world
  admits _ _ c s := c = .host .now → InBudget s
  rely i s s' := i = 0 → s'.trace = s.trace ∧ Later s.world s'.world
  guar _ _ _ _ := True
  rely_refl _ s _ := ⟨rfl, Later.refl s.world⟩
  rely_trans _ _ _ _ h h' hi := ⟨(h' hi).1.trans (h hi).1, (h hi).2.trans (h' hi).2⟩

section Walk

variable {self : Instance} {id : SessionId} {o : LifecycleOp} {s : Snap lifecycleService.system}
  {α β : Type}

/-- The recovery is call 0 and alone. -/
theorem recovery_keeps {c : Cmd} (hc : Issued c) (hinv : RecoveryInv id s.world) :
    (recoveryDiscipline id).Keeps o 0 c s where
  guar := trivial
  inv := by
    refine ⟨typed_issued hc hinv.typed, ?_⟩
    show ((c.exec s.world).2.db.sessions.find? _).isSome = true
    rw [sessions_issued hc]
    exact hinv.row
  rely := fun _ hj h0 => absurd h0 hj

theorem valid_issued (c : Cmd) (hc : Issued c) {f : c.Res → Prog β}
    {Q : Except Err β → Snap lifecycleService.system → Prop}
    (h : ∀ s' : Snap lifecycleService.system, s'.trace = s.trace → Later s.world s'.world →
      RecoveryInv id s'.world → (c = .host .now → InBudget s') →
      (recoveryDiscipline id).Resumes o 0 f Q (c.exec s'.world).1 (s'.exec 0 c)) :
    (recoveryDiscipline id).Valid o 0 ((Proc.await c).bind f) Q s :=
  Discipline.valid_await fun s' hrely hinv hadmits =>
    ⟨recovery_keeps hc hinv, h s' (hrely rfl).1 (hrely rfl).2 hinv hadmits⟩

theorem valid_about {x : SessionId} (c : Cmd) (hc : About x True c) {f : c.Res → Prog β}
    {Q : Except Err β → Snap lifecycleService.system → Prop}
    (h : ∀ s' : Snap lifecycleService.system, s'.trace = s.trace → Later s.world s'.world →
      RecoveryInv id s'.world →
      (recoveryDiscipline id).Resumes o 0 f Q (c.exec s'.world).1 (s'.exec 0 c)) :
    (recoveryDiscipline id).Valid o 0 ((Proc.await c).bind f) Q s :=
  valid_issued c (.inl ⟨x, hc⟩) fun s' ht hl hinv _ => h s' ht hl hinv

variable (self) in
/-- Acting for another session is not seen. -/
theorem valid_other {x : SessionId} {p : Prog α} (hp : p.Conforms (About x False) False)
    (hx : x ≠ id) : (recoveryDiscipline id).Valid o 0 p (fun r s' => (∃ a, r = .ok a) ∧
      viewOf self id s'.world = viewOf self id s.world) s := by
  have hvalid := Discipline.valid_of_conforms (D := recoveryDiscipline id) (o := o) (i := 0)
    (J := fun s' => viewOf self id s'.world = viewOf self id s.world) hp ?_ ?_ rfl
  · exact hvalid.weaken fun r s' h => ⟨h.1.resolve_right not_false, h.2⟩
  · intro s₁ s₂ hrely h
    exact ((hrely rfl).2.view self id).trans h
  · intro c s₁ hc hinv h
    refine ⟨recovery_keeps (.inl ⟨x, about_true hc⟩) hinv, ?_, .inl (about_answers hc s₁.world)⟩
    exact (view_about hc hx s₁.world).trans h

/-- The command starts no loop, and of the keys it looks at `id` alone. -/
structure Handles (id : SessionId) (c : Cmd) : Prop where
  states : c ≠ .redis .scanSessionStates
  deadlines : c ≠ .redis .scanChoiceDeadlines
  looks : ∀ x, lookedAt c = some x → x = id

theorem handles_of_unseen {x : SessionId} {c : Cmd} (hstates : c ≠ .redis .scanSessionStates)
    (hdeadlines : c ≠ .redis .scanChoiceDeadlines) (h : lookedAt c = none) : Handles x c :=
  ⟨hstates, hdeadlines, fun y hy => by rw [h] at hy; cases hy⟩

theorem handles_recoverEnd {x : SessionId} {c : Cmd} (h : RecoverEndCommand self x c) :
    Handles x c := by
  cases h with
  | state => exact ⟨nofun, nofun, fun y hy => by cases hy; rfl⟩
  | finish h _ =>
      cases h with
      | deadline h => cases h <;> exact handles_of_unseen nofun nofun rfl
      | _ => exact handles_of_unseen nofun nofun rfl
  | _ => exact handles_of_unseen nofun nofun rfl

theorem handles_recoverChoice {x : SessionId} {c : Cmd} (h : RecoverChoiceCommand self x c) :
    Handles x c := by
  cases h with
  | decision => exact ⟨nofun, nofun, fun y hy => by cases hy; rfl⟩
  | participants h =>
      cases h with
      | state => exact ⟨nofun, nofun, fun y hy => by cases hy; rfl⟩
      | find => exact handles_of_unseen nofun nofun rfl
  | finalize h =>
      cases h with
      | store h =>
          cases h with
          | read => exact ⟨nofun, nofun, fun y hy => by cases hy; rfl⟩
          | _ => exact handles_of_unseen nofun nofun rfl
      | upsert userLow userHigh => exact handles_of_unseen nofun nofun rfl
      | announce h =>
          cases h with
          | partner h => cases h; exact handles_of_unseen nofun nofun rfl
          | _ => exact handles_of_unseen nofun nofun rfl
  | _ => exact handles_of_unseen nofun nofun rfl

/-- The loop has been entered at `startedAt`, and the keys `ks` are among
those to come. -/
structure Looping (startedAt : Nat) (ks : List SessionId) (s : Snap lifecycleService.system) :
    Prop where
  start : loopStart s.trace = some startedAt
  come : ∀ k ∈ ks, k ∈ toCome s.trace

theorem Looping.congr {startedAt : Nat} {ks : List SessionId} {s' : Snap lifecycleService.system}
    (h : Looping startedAt ks s) (htrace : s'.trace = s.trace) : Looping startedAt ks s' :=
  ⟨htrace ▸ h.start, htrace ▸ h.come⟩

/-- A command about another key. -/
theorem Looping.exec {startedAt : Nat} {ks : List SessionId} {x : SessionId} {c : Cmd}
    (h : Looping startedAt ks s) (hc : Handles x c) (hx : x ∉ ks) :
    Looping startedAt ks (s.exec 0 c) := by
  constructor
  · rw [Snap.exec_trace, loopStart]
    split
    · next hscan => exact absurd hscan hc.states
    · next hscan => exact absurd hscan hc.deadlines
    · exact h.start
  · intro k hk
    rw [Snap.exec_trace, toCome]
    split
    · next hscan => exact absurd hscan hc.states
    · next hscan => exact absurd hscan hc.deadlines
    · refine List.mem_filter.mpr ⟨h.come k hk, decide_eq_true fun hlooked => ?_⟩
      exact hx (hc.looks k hlooked ▸ hk)

theorem Looping.inBudget {startedAt : Nat} {ks : List SessionId} {x : SessionId}
    (h : Looping startedAt (x :: ks) s) (hbudget : InBudget s) :
    ¬RECOVERY_MAX_DURATION_MS ≤ World.clock s.world - startedAt :=
  Nat.not_le_of_lt (hbudget (List.ne_nil_of_mem (h.come x List.mem_cons_self)) startedAt h.start)

/-- **The loop of a recovery.** `I ks` holds while the keys `ks` are still
to come; the recovery of the first of them turns it into the invariant of
the rest. -/
theorem valid_recoverEach {recover : SessionId → Prog Unit} {startedAt : Nat}
    {I : List SessionId → World → Prop} (hlater : ∀ ks w w', Later w w' → I ks w → I ks w')
    (hconf : ∀ x, (recover x).Conforms (Handles x) True)
    (hstep : ∀ x ks s', I (x :: ks) (Snap.world s') → (recoveryDiscipline id).Valid o 0 (recover x)
      (fun r s'' => (∃ a, r = .ok a) ∧ I ks (Snap.world s'')) s') :
    ∀ ks s', ks.Nodup → I ks (Snap.world s') → Looping startedAt ks s' →
      (recoveryDiscipline id).Valid o 0 (recoverEach recover startedAt ks)
        (fun r s'' => (∃ a, r = .ok a) ∧ I [] (Snap.world s'')) s' := by
  intro ks
  induction ks with
  | nil => exact fun s' _ hI _ => ⟨⟨(), rfl⟩, hI⟩
  | cons x rest ih =>
      intro s' hnodup hI hlooping
      obtain ⟨hx, hrest⟩ := List.nodup_cons.mp hnodup
      refine valid_issued (.host .now) (.inl ⟨x, trivial⟩) fun s₁ htrace hl _ hbudget => ?_
      have hlooping₁ := hlooping.congr htrace
      have hI₁ := hlater _ _ _ hl hI
      show (recoveryDiscipline id).Valid o 0 (ite _ _ _) _ _
      rw [if_neg (hlooping₁.inBudget (hbudget rfl))]
      have hnext : Looping startedAt rest (s₁.exec 0 (.host .now)) :=
        (Looping.mk hlooping₁.start fun k hk => hlooping₁.come k (.tail _ hk)).exec
          (handles_of_unseen (x := x) nofun nofun rfl) hx
      refine Discipline.valid_bind (((hstep x rest (s₁.exec 0 (.host .now)) hI₁).and_conforms (hconf x)
        (J := Looping startedAt rest) ?_ ?_ hnext).weaken ?_)
      · exact fun s₂ s₃ hrely h => h.congr (hrely rfl).1
      · exact fun c s₂ hc h => h.exec hc hx
      · rintro r s₂ ⟨⟨⟨a, rfl⟩, hI₂⟩, hlooping₂⟩
        exact ih s₂ hrest hI₂ hlooping₂

/-! ### The end of a session -/

theorem not_ended_eq {w : World} (hw : Typed w) (h : (viewOf self id w).hasEnded = false) :
    w.get (.sessionEnded id) = none := by
  unfold View.hasEnded viewOf at h
  cases hget : w.get (.sessionEnded id) with
  | none => rfl
  | some r =>
      dsimp only at h
      rw [hget, hw _ _ hget] at h
      cases h

/-- Marked as ended. -/
def Marked (id : SessionId) (w : World) : Prop := w.get (.sessionEnded id) = some (.text "1")

/-- Marked as ended, and the deadline written. -/
def Due (id : SessionId) (w : World) : Prop :=
  Marked id w ∧ (w.get (.sessionChoiceDeadline id)).isSome

theorem Due.ending {w : World} (h : Due id w) (due : Prop) : (viewOf self id w).Ending due := by
  refine .inr (.inl ⟨?_, h.2⟩)
  unfold View.hasEnded viewOf
  dsimp only
  rw [h.1]
  rfl

theorem marked_later {w w' : World} (h : Later w w') (hm : Marked id w) : Marked id w' :=
  (h.get _).trans hm

theorem valid_recoveredDeadline (hm : Marked id s.world) :
    (recoveryDiscipline id).Valid o 0 (ensureChoiceDeadline id)
      (fun r s' => (∃ a, r = .ok a) ∧ Due id s'.world) s := by
  refine valid_about (x := id) (.redis (.get _)) trivial fun s₁ _ hl₁ hinv₁ => ?_
  have hm₁ := marked_later hl₁ hm
  cases hget : s₁.world.get (.sessionChoiceDeadline id) with
  | some r =>
      obtain ⟨ms, rfl⟩ := hinv₁.typed _ _ hget
      show (recoveryDiscipline id).Valid o 0 (ite (truthy (s₁.world.get _) = true) _ _) _ _
      rw [hget]
      refine ⟨⟨_, rfl⟩, hm₁, ?_⟩
      exact Option.isSome_iff_exists.mpr ⟨_, hget⟩
  | none =>
      show (recoveryDiscipline id).Valid o 0 (ite (truthy (s₁.world.get _) = true) _ _) _ _
      rw [hget]
      refine valid_about (x := id) (.host .now) trivial fun s₂ _ hl₂ _ => ?_
      have hm₂ := marked_later hl₂ hm₁
      refine valid_about (x := id) (.redis (.setNX (.sessionChoiceDeadline id) (.date _) _))
        (about_setNX rfl ⟨_, rfl⟩) fun s₃ _ hl₃ _ => ?_
      have hm₃ := marked_later hl₃ hm₂
      have hnone : s₃.world.get (.sessionChoiceDeadline id) = none := by
        rw [hl₃.get]
        exact (hl₂.get _).trans hget
      refine ⟨⟨_, rfl⟩, ?_, ?_⟩
      · show World.get (RedisCmd.exec _ s₃.world).2 _ = _
        simp only [RedisCmd.exec, hnone]
        rw [World.get_set_ne (by simp)]
        exact hm₃
      · show (World.get (RedisCmd.exec _ s₃.world).2 _).isSome = true
        simp only [RedisCmd.exec, hnone]
        rw [World.get_set_self (by decide)]
        rfl

/-- **Ending a session** marks it and writes its deadline. -/
theorem valid_endSession {session : Session} {reason : EndReason} (hid : session.id = id)
    (hopen : s.world.get (.sessionEnded id) = none) :
    (recoveryDiscipline id).Valid o 0 (endSession self session reason)
      (fun r s' => (∃ a, r = .ok a) ∧ Due id s'.world) s := by
  subst hid
  refine valid_about (x := session.id) (.redis (.setNX (.sessionEnded session.id) (.text "1") _))
    (about_setNX rfl rfl) fun s₁ _ hl₁ _ => ?_
  have hopen₁ : s₁.world.get (.sessionEnded session.id) = none := (hl₁.get _).trans hopen
  simp only [Cmd.exec_redis]
  have hexec : (RedisCmd.setNX (.sessionEnded session.id) (.text "1") SESSION_STATE_TTL_MS).exec
      s₁.world = (true, s₁.world.set (.sessionEnded session.id) (.text "1")
        (some SESSION_STATE_TTL_MS)) := by
    simp only [RedisCmd.exec, hopen₁]
  have hm₁ : Marked session.id (s₁.exec 0 (.redis (.setNX (.sessionEnded session.id) (.text "1")
      SESSION_STATE_TTL_MS))).world := by
    show World.get (RedisCmd.exec _ s₁.world).2 _ = _
    rw [hexec]
    exact World.get_set_self (by decide)
  rw [hexec]
  generalize s₁.exec 0 _ = s₁' at hm₁ ⊢
  show (recoveryDiscipline session.id).Valid o 0 (ite ((!true) = true) _ _) _ _
  rw [if_neg (by decide)]
  refine valid_about (x := session.id) (.host (.clearSessionEnd self session.id)) rfl
    fun s₂ _ hl₂ _ => ?_
  have hm₂ : Marked session.id (s₂.exec 0 (.host (.clearSessionEnd self session.id))).world :=
    (HostCmd.get_exec _ _ _).trans (marked_later hl₂ hm₁)
  have hactive : ∀ k ∈ [RedisKey.sessionActive session.userAId, .sessionActive session.userBId],
      sessionOf k = none := by
    intro k hk
    simp only [List.mem_cons, List.not_mem_nil, or_false] at hk
    rcases hk with rfl | rfl <;> rfl
  refine valid_about (x := session.id) (.redis (.del _)) hactive fun s₃ _ hl₃ _ => ?_
  have hm₃ : Marked session.id (s₃.exec 0 (.redis (.del [.sessionActive session.userAId,
      .sessionActive session.userBId]))).world := by
    have hkept : RedisKey.sessionEnded session.id ∉
        [.sessionActive session.userAId, .sessionActive session.userBId] := by simp
    exact (get_delAll hkept).trans (marked_later hl₃ hm₂)
  refine valid_about (x := session.id) (.host .now) trivial fun s₄ _ hl₄ _ => ?_
  have hm₄ := marked_later hl₄ hm₃
  refine valid_about (x := session.id) (.host (.emit _)) trivial fun s₅ _ hl₅ _ => ?_
  have hm₅ := marked_later hl₅ hm₄
  refine Discipline.valid_bind (Discipline.Valid.weaken (valid_recoveredDeadline ?_) ?_)
  · exact hm₅
  rintro r s₆ ⟨⟨deadline, rfl⟩, hdue⟩
  intro s₇ hrely hinv₇ _
  have hl₇ : Later s₆.world s₇.world := (hrely rfl).2
  refine ⟨recovery_keeps (.inl ⟨session.id, rfl⟩) hinv₇, ⟨_, rfl⟩,
    (HostCmd.get_exec _ _ _).trans (marked_later hl₇ hdue.1), ?_⟩
  show (s₇.world.get _).isSome = true
  rw [hl₇.get]
  exact hdue.2

/-- **One key of the first loop**: the session itself. -/
theorem valid_recoverSessionEnd_self {due : Prop}
    (hI : (viewOf self id s.world).Ending due) :
    (recoveryDiscipline id).Valid o 0 (recoverSessionEnd self id)
      (fun r s' => (∃ a, r = .ok a) ∧ (viewOf self id s'.world).Ending False) s := by
  refine valid_about (x := id) (.redis (.get _)) trivial fun s₁ _ hl₁ hinv₁ => ?_
  have hI₁ : (viewOf self id s₁.world).Ending due := by
    rw [hl₁.view]
    exact hI
  show (recoveryDiscipline id).Valid o 0 (recoverEndBy self (parseSessionState (s₁.world.get _))) _ _
  cases hstate : s₁.world.get (.sessionState id) with
  | none =>
      refine ⟨⟨_, rfl⟩, ?_⟩
      rcases hI₁ with h | h | ⟨-, hsome, -⟩
      · exact .inl h
      · exact .inr (.inl h)
      · have hnone : (viewOf self id s₁.world).state = none := hstate
        rw [hnone] at hsome
        cases hsome
  | some r =>
      obtain ⟨userAId, userBId, endAt, hparse⟩ := hinv₁.typed _ _ hstate
      rw [hparse]
      refine valid_about (x := id) (.redis (.get _)) trivial fun s₂ _ hl₂ hinv₂ => ?_
      have hI₂ : (viewOf self id s₂.world).Ending due := by
        rw [hl₂.view]
        exact hI₁
      show (recoveryDiscipline id).Valid o 0 (ite (truthy (s₂.world.get _) = true) _ _) _ _
      split
      · next hended =>
          have hended : (viewOf self id s₂.world).hasEnded = true := hended
          refine ⟨⟨_, rfl⟩, ?_⟩
          rcases hI₂ with h | h | ⟨hnot, -⟩
          · exact .inl h
          · exact .inr (.inl h)
          · rw [hended] at hnot
            cases hnot
      · next hended =>
          have hnot : (viewOf self id s₂.world).hasEnded = false := Bool.eq_false_of_not_eq_true hended
          refine valid_about (x := id) (.host .now) trivial fun s₃ _ hl₃ _ => ?_
          have hopen : s₃.world.get (.sessionEnded id) = none :=
            (hl₃.get _).trans (not_ended_eq hinv₂.typed hnot)
          show (recoveryDiscipline id).Valid o 0 (ite _ _ _) _ _
          split
          · have hend : (recoveryDiscipline id).Valid o 0
                (endSession self (buildSyntheticSession id userAId userBId) .timeout)
                (fun r s' => (∃ a, r = .ok a) ∧ Due id s'.world) (s₃.exec 0 (.host .now)) :=
              valid_endSession rfl hopen
            exact hend.weaken fun r' s₄ h => ⟨h.1, h.2.ending False⟩
          · intro s₄ hrely hinv₄ _
            have hl₄ : Later s₃.world s₄.world := (hrely rfl).2
            refine ⟨recovery_keeps (.inl ⟨id, rfl⟩) hinv₄, ⟨_, rfl⟩,
              .inr (.inr ⟨?_, ?_, .inr ?_⟩)⟩
            · show truthy (s₄.world.get _) = false
              rw [hl₄.get, hopen]
              rfl
            · show (s₄.world.get (.sessionState id)).isSome = true
              have hkept : s₄.world.get (.sessionState id) = some r :=
                (hl₄.get _).trans ((hl₃.get _).trans ((hl₂.get _).trans hstate))
              rw [hkept]
              rfl
            · show (setTimer _ self id _ self id).isSome = true
              unfold setTimer
              rw [if_pos ⟨rfl, rfl⟩]
              rfl

theorem valid_recoverSessionEnd_other {x : SessionId} (hx : x ≠ id) :
    (recoveryDiscipline id).Valid o 0 (recoverSessionEnd self x)
      (fun r s' => (∃ a, r = .ok a) ∧ viewOf self id s'.world = viewOf self id s.world) s := by
  refine valid_about (x := x) (.redis (.get _)) trivial fun s₁ _ hl₁ hinv₁ => ?_
  have hview : viewOf self id s₁.world = viewOf self id s.world := hl₁.view self id
  show (recoveryDiscipline id).Valid o 0 (recoverEndBy self (parseSessionState (s₁.world.get _))) _ _
  cases hstate : s₁.world.get (.sessionState x) with
  | none => exact ⟨⟨_, rfl⟩, hview⟩
  | some r =>
      obtain ⟨userAId, userBId, endAt, hparse⟩ := hinv₁.typed _ _ hstate
      rw [hparse]
      rw [← hview]
      refine valid_other self (s := s₁.exec 0 (.redis (.get (.sessionState x)))) ?_ hx
      refine Proc.Conforms.bind (Proc.conforms_await trivial) fun ended => ?_
      split
      · exact Proc.conforms_pure _
      · refine Proc.Conforms.bind (Proc.conforms_await trivial) fun now => ?_
        split
        · exact conforms_endSession
        · exact Proc.conforms_await rfl

/-- A session marked as ended is skipped. -/
theorem valid_recoverSessionEnd_lost (hlost : (viewOf self id s.world).Lost) :
    (recoveryDiscipline id).Valid o 0 (recoverSessionEnd self id)
      (fun r s' => (∃ a, r = .ok a) ∧ (viewOf self id s'.world).Lost) s := by
  refine valid_about (x := id) (.redis (.get _)) trivial fun s₁ _ hl₁ hinv₁ => ?_
  have hlost₁ : (viewOf self id s₁.world).Lost := by
    rw [hl₁.view]
    exact hlost
  show (recoveryDiscipline id).Valid o 0 (recoverEndBy self (parseSessionState (s₁.world.get _))) _ _
  cases hstate : s₁.world.get (.sessionState id) with
  | none => exact ⟨⟨_, rfl⟩, hlost₁⟩
  | some r =>
      obtain ⟨userAId, userBId, endAt, hparse⟩ := hinv₁.typed _ _ hstate
      rw [hparse]
      refine valid_about (x := id) (.redis (.get _)) trivial fun s₂ _ hl₂ hinv₂ => ?_
      have hlost₂ : (viewOf self id s₂.world).Lost := by
        rw [hl₂.view]
        exact hlost₁
      have hended : truthy (s₂.world.get (.sessionEnded id)) = true := hlost₂.1.1
      show (recoveryDiscipline id).Valid o 0 (ite (truthy (s₂.world.get _) = true) _ _) _ _
      rw [if_pos hended]
      exact ⟨⟨_, rfl⟩, hlost₂⟩

/-! ### The choice of a session -/

theorem decided_of_get {w : World} {v : ResolvedChoiceResult}
    (h : w.get (.sessionDecision id) = some v.payload) : (viewOf self id w).decided = true := by
  unfold View.decided viewOf
  dsimp only
  rw [h, parseStoredDecision_payload]

/-- An overdue session is decided. -/
theorem valid_recoverFinalize {userAId userBId : UserId}
    (hopen : s.world.get (.sessionDecision id) = none) :
    (recoveryDiscipline id).Valid o 0
      (finalizeDecision self (buildSyntheticSession id userAId userBId) .PASS .PASS)
      (fun r s' => (∃ a, r = .ok a) ∧ (viewOf self id s'.world).decided = true) s := by
  refine Discipline.valid_bind (valid_about (x := id) (.redis (.get _)) trivial
    fun s₁ _ hl₁ _ => ?_)
  have hopen₁ : s₁.world.get (.sessionDecision id) = none := (hl₁.get _).trans hopen
  show (recoveryDiscipline id).Valid o 0 (match parseStoredDecision (s₁.world.get _) with
    | .resolved value => _
    | existing => _) _ _
  rw [show (buildSyntheticSession id userAId userBId).id = id from rfl, hopen₁,
    parseStoredDecision_none]
  dsimp only
  rw [settleDecision, show decisionOf (buildSyntheticSession id userAId userBId) .PASS .PASS = pure .nonMutual
    from if_neg (by decide), Proc.bind_eq, Proc.pure_eq, Proc.ret_ok_bind]
  refine Discipline.valid_bind (valid_about (x := id) (.redis (storeNX id .nonMutual))
    (about_setNX rfl ⟨_, rfl⟩) fun s₂ _ hl₂ _ => ?_)
  have hopen₂ : s₂.world.get (.sessionDecision id) = none := (hl₂.get _).trans hopen₁
  have hstored : World.get (s₂.exec 0 (.redis (storeNX id .nonMutual))).world
      (.sessionDecision id) = some ResolvedChoiceResult.nonMutual.payload := get_storeNX hopen₂
  simp only [Cmd.exec_redis]
  rw [storeNX_none hopen₂]
  generalize s₂.exec 0 _ = s₂' at hstored ⊢
  refine Discipline.valid_bind ?_
  refine valid_about (x := id) (.host (.emit _)) trivial fun s₃ _ hl₃ _ => ?_
  have hstored₃ := (hl₃.get _).trans hstored
  refine valid_about (x := id) (.host (.emit _)) trivial fun s₄ _ hl₄ _ => ?_
  have hstored₄ := (hl₄.get _).trans hstored₃
  intro s₅ hrely hinv₅ _
  have hstored₅ : World.get (s₅.exec 0 (.host (.clearChoiceTimeout self id))).world
      (.sessionDecision id) = some ResolvedChoiceResult.nonMutual.payload :=
    (HostCmd.get_exec _ _ _).trans (((hrely rfl).2.get _).trans hstored₄)
  exact ⟨recovery_keeps (.inl ⟨id, rfl⟩) hinv₅, ⟨_, rfl⟩, decided_of_get hstored₅⟩

/-- The participants are known, from the state or from the row. -/
theorem valid_recoveredParticipants :
    (recoveryDiscipline id).Valid o 0 (resolveSessionParticipants id)
      (fun r s' => (∃ pair, r = .ok (some pair)) ∧ Later s.world s'.world) s := by
  refine valid_about (x := id) (.redis (.get _)) trivial fun s₁ _ hl₁ hinv₁ => ?_
  show (recoveryDiscipline id).Valid o 0 (participantsBy id (parseSessionState (s₁.world.get _))) _ _
  cases hstate : s₁.world.get (.sessionState id) with
  | some r =>
      obtain ⟨userAId, userBId, endAt, hparse⟩ := hinv₁.typed _ _ hstate
      rw [hparse]
      exact ⟨⟨_, rfl⟩, hl₁⟩
  | none =>
      refine valid_about (x := id) (.db (.sessionFindUnique id)) trivial fun s₂ _ hl₂ hinv₂ => ?_
      obtain ⟨session, hfind⟩ := Option.isSome_iff_exists.mp hinv₂.row
      simp only [Cmd.exec_db, DbCmd.exec]
      rw [hfind]
      exact ⟨⟨_, rfl⟩, hl₁.trans hl₂⟩

/-- **One key of the second loop**: the session itself. -/
theorem valid_recoverChoice_self (hid : id ≠ "") {due : Prop}
    (hI : (viewOf self id s.world).Choosing due) :
    (recoveryDiscipline id).Valid o 0 (recoverChoice self id)
      (fun r s' => (∃ a, r = .ok a) ∧ (viewOf self id s'.world).Choosing False) s := by
  unfold recoverChoice
  rw [if_neg hid]
  refine Discipline.valid_bind (valid_about (x := id) (.redis (.get _)) trivial
    fun s₁ _ hl₁ hinv₁ => ?_)
  have hI₁ : (viewOf self id s₁.world).Choosing due := by
    rw [hl₁.view]
    exact hI
  show (recoveryDiscipline id).Valid o 0 (recoverUndecided self id (parseStoredDecision (s₁.world.get _))) _ _
  cases hdecision : s₁.world.get (.sessionDecision id) with
  | some r =>
      obtain ⟨v, rfl⟩ := hinv₁.typed _ _ hdecision
      rw [parseStoredDecision_payload]
      exact ⟨⟨_, rfl⟩, .inl (decided_of_get hdecision)⟩
  | none =>
      have hundecided : ∀ w, w.get (.sessionDecision id) = none →
          (viewOf self id w).decided = false := by
        intro w hw
        unfold View.decided viewOf
        dsimp only
        rw [hw]
        rfl
      refine Discipline.valid_bind (valid_about (x := id) (.redis (.get _)) trivial
        fun s₂ _ hl₂ hinv₂ => ?_)
      have hI₂ : (viewOf self id s₂.world).Choosing due := by
        rw [hl₂.view]
        exact hI₁
      have hopen₂ : s₂.world.get (.sessionDecision id) = none := (hl₂.get _).trans hdecision
      show (recoveryDiscipline id).Valid o 0 (recoverBy self id ((s₂.world.get _).bind RedisString.parseDate)) _ _
      cases hdeadline : s₂.world.get (.sessionChoiceDeadline id) with
      | none =>
          refine ⟨⟨_, rfl⟩, ?_⟩
          rcases hI₂ with h | ⟨hended, ⟨hsome, -⟩ | harmed⟩ | h
          · exact .inl h
          · have hnone : (viewOf self id s₂.world).deadline = none := hdeadline
            rw [hnone] at hsome
            cases hsome
          · exact .inr (.inl ⟨hended, .inr harmed⟩)
          · exact .inr (.inr h)
      | some r =>
          obtain ⟨ms, rfl⟩ := hinv₂.typed _ _ hdeadline
          refine Discipline.valid_bind (Discipline.Valid.weaken valid_recoveredParticipants ?_)
          rintro r' s₃ ⟨⟨pair, rfl⟩, hl₃⟩
          refine valid_about (x := id) (.host .now) trivial fun s₄ _ hl₄ _ => ?_
          have hl : Later s₂.world s₄.world := hl₃.trans hl₄
          show (recoveryDiscipline id).Valid o 0 (ite _ _ _) _ _
          split
          · have hopen₄ : s₄.world.get (.sessionDecision id) = none := (hl.get _).trans hopen₂
            refine Discipline.valid_bind (Discipline.Valid.weaken
              (@valid_recoverFinalize self id o (s₄.exec 0 (.host .now)) _ _ hopen₄) ?_)
            rintro r'' s₅ ⟨⟨a, rfl⟩, hdecided⟩
            exact ⟨⟨_, rfl⟩, .inl hdecided⟩
          · intro s₅ hrely hinv₅ _
            have hl₅ : Later s₂.world s₅.world := hl.trans (hrely rfl).2
            refine ⟨recovery_keeps (.inl ⟨id, rfl⟩) hinv₅, ⟨_, rfl⟩, ?_⟩
            have harmed : (setTimer s₅.world.choiceTimers self id
                (some ⟨pair.1, pair.2, max ms s₅.world.clock⟩) self id).isSome := by
              unfold setTimer
              rw [if_pos ⟨rfl, rfl⟩]
              rfl
            rcases hI₂ with h | ⟨hended, -⟩ | ⟨hnot, htimer⟩
            · rw [hundecided _ hopen₂] at h
              cases h
            · refine .inr (.inl ⟨?_, .inr harmed⟩)
              show truthy (s₅.world.get _) = true
              rw [hl₅.get]
              exact hended
            · refine .inr (.inr ⟨?_, ?_⟩)
              · show truthy (s₅.world.get _) = false
                rw [hl₅.get]
                exact hnot
              · show (s₅.world.timers self id).isSome = true
                rw [hl₅.timers]
                exact htimer

/-! ## The whole recovery -/

theorem mem_scan {w : World} {k : RedisKey} {f : RedisKey → Option SessionId}
    (hf : f k = some id) (h : (w.get k).isSome) : id ∈ scanFor w f :=
  List.mem_filterMap.mpr ⟨k, Store.Keyspace.mem_keys.mpr h, hf⟩

theorem get_of_mem_scan {w : World} (h : id ∈ scanFor w RedisKey.choiceDeadlineOf) :
    (w.get (.sessionChoiceDeadline id)).isSome := by
  obtain ⟨k, hk, hid⟩ := List.mem_filterMap.mp h
  cases k with
  | sessionChoiceDeadline x =>
      cases hid
      exact Store.Keyspace.mem_keys.mp hk
  | _ => cases hid

/-- A session has one state. -/
theorem stateOf_inj {k k' : RedisKey} {x : SessionId} (h : k.stateOf = some x)
    (h' : k'.stateOf = some x) : k = k' := by
  cases k with
  | sessionState y =>
      cases h
      cases k' with
      | sessionState y' =>
          cases h'
          rfl
      | _ => cases h'
  | _ => cases h

/-- And one choice deadline. -/
theorem choiceDeadlineOf_inj {k k' : RedisKey} {x : SessionId} (h : k.choiceDeadlineOf = some x)
    (h' : k'.choiceDeadlineOf = some x) : k = k' := by
  cases k with
  | sessionChoiceDeadline y =>
      cases h
      cases k' with
      | sessionChoiceDeadline y' =>
          cases h'
          rfl
      | _ => cases h'
  | _ => cases h

/-- So no key is scanned twice. -/
theorem nodup_scan {w : World} {f : RedisKey → Option SessionId}
    (hf : ∀ {k k' x}, f k = some x → f k' = some x → k = k') : (scanFor w f).Nodup :=
  List.Nodup.filterMap (fun _ _ _ hk hk' => hf hk hk') (Store.Keyspace.keys_nodup _ _)

theorem looping_scan {startedAt : Nat} {c : Cmd} {keys : List SessionId}
    (hstart : loopStart (s.exec 0 c).trace = some startedAt)
    (hkeys : toCome (s.exec 0 c).trace = keys) : Looping startedAt keys (s.exec 0 c) :=
  ⟨hstart, fun _ hk => hkeys ▸ hk⟩

/-- **Both loops**, with their invariants. -/
theorem valid_onModuleInit (I₁ I₂ : List SessionId → World → Prop)
    (hlater₁ : ∀ ks w w', Later w w' → I₁ ks w → I₁ ks w')
    (hlater₂ : ∀ ks w w', Later w w' → I₂ ks w → I₂ ks w')
    (hstart : ∀ w, Later s.world w → I₁ (scanFor w RedisKey.stateOf) w)
    (hstep₁ : ∀ x ks s', I₁ (x :: ks) (Snap.world s') → (recoveryDiscipline id).Valid o 0
      (recoverSessionEnd self x) (fun r s'' => (∃ a, r = .ok a) ∧ I₁ ks (Snap.world s'')) s')
    (hmiddle : ∀ w, I₁ [] w → I₂ (scanFor w RedisKey.choiceDeadlineOf) w)
    (hstep₂ : ∀ x ks s', I₂ (x :: ks) (Snap.world s') → (recoveryDiscipline id).Valid o 0
      (recoverChoice self x) (fun r s'' => (∃ a, r = .ok a) ∧ I₂ ks (Snap.world s'')) s') :
    (recoveryDiscipline id).Valid o 0 (onModuleInit self)
      (fun r s' => (∃ a, r = .ok a) ∧ I₂ [] (Snap.world s')) s := by
  have hnow : Issued (.host .now) := .inl ⟨id, trivial⟩
  refine Discipline.valid_bind (valid_issued (.host .now) hnow fun s₁ _ hl₁ _ _ => ?_)
  refine valid_issued (.redis .scanSessionStates) (.inr (.inl rfl)) fun s₂ ht₂ hl₂ _ _ => ?_
  have hs₂ : loopStart (s₂.exec 0 (.redis .scanSessionStates)).trace =
      some (World.clock s₁.world) := by
    show (s₂.trace.head?).map _ = _
    rw [ht₂]
    rfl
  refine Discipline.Valid.weaken (valid_recoverEach hlater₁
    (fun x => (recoverSessionEnd_issues self x).mono fun _ => handles_recoverEnd) hstep₁ _ _
    (nodup_scan stateOf_inj) (hstart s₂.world (hl₁.trans hl₂)) (looping_scan hs₂ rfl)) ?_
  rintro r s₃ ⟨⟨a, rfl⟩, hI₃⟩
  refine valid_issued (.host .now) hnow fun s₄ _ hl₄ _ _ => ?_
  refine valid_issued (.redis .scanChoiceDeadlines) (.inr (.inr rfl)) fun s₅ ht₅ hl₅ _ _ => ?_
  have hs₅ : loopStart (s₅.exec 0 (.redis .scanChoiceDeadlines)).trace =
      some (World.clock s₄.world) := by
    show (s₅.trace.head?).map _ = _
    rw [ht₅]
    rfl
  refine valid_recoverEach hlater₂ (fun x => (recoverChoice_issues self x).mono fun _ => handles_recoverChoice)
    hstep₂ _ _ (nodup_scan choiceDeadlineOf_inj)
    (hmiddle s₅.world (hlater₁ _ _ _ (hl₄.trans hl₅) hI₃)) (looping_scan hs₅ rfl)

theorem ending_mono {v : View} {due due' : Prop} (h : v.Ending due) (hdue : due → due') :
    v.Ending due' := by
  rcases h with h | h | ⟨hnot, hstate, h⟩
  · exact .inl h
  · exact .inr (.inl h)
  · exact .inr (.inr ⟨hnot, hstate, h.imp hdue fun ht => ht⟩)

theorem choosing_mono {v : View} {due due' : Prop} (h : v.Choosing due) (hdue : due → due') :
    v.Choosing due' := by
  rcases h with h | ⟨hended, h⟩ | h
  · exact .inl h
  · exact .inr (.inl ⟨hended, h.imp (fun hd => ⟨hd.1, hdue hd.2⟩) fun ht => ht⟩)
  · exact .inr (.inr h)

/-- **What is not half ended is recovered.** -/
theorem valid_recovery_complete (hid : id ≠ "") (hI : (viewOf self id s.world).Ending True) :
    (recoveryDiscipline id).Valid o 0 (onModuleInit self)
      (fun _ s' => (viewOf self id s'.world).Complete) s := by
  refine (valid_onModuleInit (fun ks w => (viewOf self id w).Ending (id ∈ ks))
    (fun ks w => (viewOf self id w).Choosing (id ∈ ks)) ?_ ?_ ?_ ?_ ?_ ?_).weaken ?_
  · intro ks w w' hl h
    rw [hl.view]
    exact h
  · intro ks w w' hl h
    rw [hl.view]
    exact h
  · intro w hl
    have hw : (viewOf self id w).Ending True := by
      rw [hl.view]
      exact hI
    rcases hw with h | h | ⟨hnot, hstate, -⟩
    · exact .inl h
    · exact .inr (.inl h)
    · exact .inr (.inr ⟨hnot, hstate, .inl (mem_scan rfl hstate)⟩)
  · intro x ks s' h
    by_cases hx : x = id
    · subst hx
      refine (valid_recoverSessionEnd_self h).weaken fun r s'' h' => ⟨h'.1, ?_⟩
      exact ending_mono h'.2 False.elim
    · refine (valid_recoverSessionEnd_other hx).weaken fun r s'' h' => ⟨h'.1, ?_⟩
      rw [h'.2]
      exact ending_mono h fun hmem => (List.mem_cons.mp hmem).resolve_left (Ne.symm hx)
  · intro w h
    rcases h with h | ⟨hended, hdeadline⟩ | ⟨hnot, -, hmem | htimer⟩
    · exact .inl h
    · exact .inr (.inl ⟨hended, .inl ⟨hdeadline, mem_scan rfl hdeadline⟩⟩)
    · cases hmem
    · exact .inr (.inr ⟨hnot, htimer⟩)
  · intro x ks s' h
    by_cases hx : x = id
    · subst hx
      refine (valid_recoverChoice_self hid h).weaken fun r s'' h' => ⟨h'.1, ?_⟩
      exact choosing_mono h'.2 False.elim
    · refine (valid_other self conforms_recoverChoice hx).weaken fun r s'' h' => ⟨h'.1, ?_⟩
      rw [h'.2]
      exact choosing_mono h fun hmem => (List.mem_cons.mp hmem).resolve_left (Ne.symm hx)
  · exact fun r s' h => (choosing_mono h.2 fun hmem => (List.not_mem_nil hmem).elim).complete

/-- **What is half ended stays so**: the first loop skips a session that is
marked, the second one does not find it. -/
theorem valid_recovery_lost (hlost : (viewOf self id s.world).Lost) :
    (recoveryDiscipline id).Valid o 0 (onModuleInit self)
      (fun _ s' => ¬(viewOf self id s'.world).Complete) s := by
  refine (valid_onModuleInit (fun _ w => (viewOf self id w).Lost)
    (fun ks w => (viewOf self id w).Lost ∧ id ∉ ks) ?_ ?_ ?_ ?_ ?_ ?_).weaken ?_
  · intro ks w w' hl h
    rw [hl.view]
    exact h
  · intro ks w w' hl h
    rw [hl.view]
    exact h
  · intro w hl
    rw [hl.view]
    exact hlost
  · intro x ks s' h
    by_cases hx : x = id
    · subst hx
      exact valid_recoverSessionEnd_lost h
    · refine (valid_recoverSessionEnd_other hx).weaken fun r s'' h' => ⟨h'.1, ?_⟩
      rw [h'.2]
      exact h
  · intro w h
    refine ⟨h, fun hmem => ?_⟩
    have hsome := get_of_mem_scan hmem
    rw [show w.get (.sessionChoiceDeadline id) = none from h.1.2.1] at hsome
    cases hsome
  · rintro x ks s' ⟨h, hmem⟩
    rw [List.mem_cons, not_or] at hmem
    refine (valid_other self conforms_recoverChoice (Ne.symm hmem.1)).weaken fun r s'' h' =>
      ⟨h'.1, ?_⟩
    rw [h'.2]
    exact ⟨h, hmem.2⟩
  · exact fun r s' h => h.2.1.not_complete

end Walk

/-! ## The main result -/

/-- What the recovery has achieved when it settles. -/
def recoveryPost (self : Instance) (id : SessionId) (P : View → Prop) :
    (o : LifecycleOp) → Nat → Except Err o.Ret → Snap lifecycleService.system → Prop :=
  fun _ i _ s => i = 0 → P (viewOf self id s.world)

section Main

variable {self : Instance} {id : SessionId} {w : World} {P : View → Prop}

/-- The run of a restart, its first event included. -/
def RestartRun (self : Instance) (w : World) (c : Config lifecycleService.system) :
    Event lifecycleService.system → Prop
  | .start o => o = .onModuleInit self ∧ c = Config.initial w
  | e => RecoveryRun c e

theorem recovery_governs
    (hvalid : (recoveryDiscipline id).Valid (.onModuleInit self) 0 (onModuleInit self)
      (fun _ s' => P (viewOf self id s'.world)) ⟨w, []⟩) :
    (recoveryDiscipline id).Governs (RestartRun self w) (recoveryPost self id P) where
  start := by
    rintro c o ⟨rfl, rfl⟩ _ _
    exact hvalid.weaken fun _ _ h _ => h
  step := by
    intro c i o cmd k hok hc _ hnow
    subst hnow
    have hpending := Config.pending_of_call hc
    simp only [RestartRun, RecoveryRun, Untruncated, hpending] at hok
    exact hok
  env := by
    intro c e hok hinv
    cases e with
    | tick ms =>
        have hget : ∀ k, World.get (World.env (.tick ms) c.world) k = World.get c.world k :=
          fun k => World.get_tick hok k
        exact ⟨⟨typed_of_get_eq hinv.typed hget, hinv.row⟩,
          fun _ _ => ⟨rfl, hget, rfl, rfl, rfl⟩⟩

theorem recovery_stable : (recoveryDiscipline id).Stable (recoveryPost self id P) := by
  intro o i r s s' hrely h hi
  rw [(hrely hi).2.view self id]
  exact h hi

/-- What the recovery alone establishes holds when it has returned. -/
theorem recovered
    (hvalid : (recoveryDiscipline id).Valid (.onModuleInit self) 0 (onModuleInit self)
      (fun _ s' => P (viewOf self id s'.world)) ⟨restart self w, []⟩)
    (hinv : RecoveryInv id (restart self w)) {es : List (Event lifecycleService.system)}
    (hes : (recovering self w).Obeys RecoveryRun es)
    (hquiet : ((recovering self w).run es).Quiet) :
    P (viewOf self id ((recovering self w).run es).world) := by
  have hobeys : (Config.initial (restart self w)).Obeys (RestartRun self (restart self w))
      (.start (.onModuleInit self) :: es) := by
    refine ⟨⟨rfl, rfl⟩, hes.mono fun c e hok => ?_⟩
    cases e with
    | start o => exact hok.elim
    | step i => exact hok
    | env e => exact hok
  obtain ⟨-, hdone⟩ := (recovery_governs hvalid).sound_run recovery_stable hinv hobeys
  have hlen : 0 < ((recovering self w).run es).calls.length := by
    refine Config.run_induct (P := fun c : Config lifecycleService.system => 0 < c.calls.length)
      ?_ es _ hes (by simp [recovering, Config.next])
    intro c e _ h
    cases e with
    | start o => simp [Config.next]
    | env e => exact h
    | step i =>
        simp only [Config.next]
        split
        · simpa using h
        · exact h
  obtain ⟨o, r, hsettled⟩ := hquiet.settled hlen
  exact hdone 0 o r hsettled rfl

/-- **A restart recovers every session that is not half ended.** Let the
process run its functions from a world whose strings fit their keys, stop
anywhere, and be started again. Once the recovery has returned, a session
whose state had been persisted has its timer or its decision exactly if the
process did not stop between the mark `session:ended` and the deadline. -/
theorem recovery_complete (self : Instance) (id : SessionId) (hid : id ≠ "") (w : World)
    (hw : Typed w) (hrow : (w.db.sessions.find? (·.id = id)).isSome)
    (es : List (Event lifecycleService.system))
    (hes : (Config.initial w : Config lifecycleService.system).Obeys KeysKept es)
    (es' : List (Event lifecycleService.system)) :
    let stopped : World := ((Config.initial w : Config lifecycleService.system).run es).world
    (viewOf self id stopped).hasEnded = true ∨ (viewOf self id stopped).state.isSome →
    (recovering self stopped).Obeys RecoveryRun es' →
    ((recovering self stopped).run es').Quiet →
      ((viewOf self id ((recovering self stopped).run es').world).Complete ↔
        ¬(viewOf self id stopped).HalfEnded) := by
  intro stopped hstarted hes' hquiet
  obtain ⟨htyped, hsessions⟩ := lifecycle_typed hw hes
  have hinv : RecoveryInv id (restart self stopped) := by
    refine ⟨htyped, ?_⟩
    show ((World.db stopped).sessions.find? _).isSome = true
    rw [hsessions]
    exact hrow
  by_cases hhalf : (viewOf self id stopped).HalfEnded
  · have hlost : (viewOf self id (restart self stopped)).Lost := by
      refine ⟨hhalf, ?_⟩
      show (if self = self then fun _ => none else stopped.choiceTimers self) id = none
      rw [if_pos rfl]
    have hnot := recovered (P := fun v => ¬v.Complete) (valid_recovery_lost hlost) hinv hes' hquiet
    exact ⟨fun h => absurd h hnot, fun h => absurd hhalf h⟩
  · have hending : (viewOf self id (restart self stopped)).Ending True := by
      show (viewOf self id stopped).decided = true ∨
        ((viewOf self id stopped).hasEnded = true ∧ (viewOf self id stopped).deadline.isSome) ∨
        ((viewOf self id stopped).hasEnded = false ∧ (viewOf self id stopped).state.isSome ∧
          (True ∨ _))
      generalize viewOf self id stopped = v at hstarted hhalf ⊢
      unfold View.HalfEnded at hhalf
      cases hdecided : v.decided with
      | true => exact .inl rfl
      | false =>
          cases hended : v.hasEnded with
          | true =>
              cases hdeadline : v.deadline with
              | none => exact absurd ⟨hended, hdeadline, hdecided⟩ hhalf
              | some r => exact .inr (.inl ⟨rfl, rfl⟩)
          | false =>
              rw [hended] at hstarted
              exact .inr (.inr ⟨rfl, hstarted.resolve_left (by decide), .inl trivial⟩)
    have hcomplete := recovered (P := View.Complete) (valid_recovery_complete hid hending) hinv hes'
      hquiet
    exact ⟨fun _ => hhalf, fun _ => hcomplete⟩

/-- A session of `ann` and `bob` that is running. -/
def runningSession : World :=
  let w := World.peopled ["ann", "bob"] 1
  World.set { w with db := { w.db with sessions := [⟨"s", "ann", "bob", none, none, 0⟩] } }
    (.sessionState "s")
    (.json [("sessionId", .str "s"), ("userAId", .str "ann"), ("userBId", .str "bob"),
      ("channelName", .str "s"), ("startAt", .date 0), ("endAt", .date SESSION_DURATION_MS)])
    (some SESSION_STATE_TTL_MS)

theorem runningSession_typed : Typed runningSession := by
  have hempty : ∀ w : World, w.redis = .empty → Typed w := by
    intro w hw k r hr
    unfold World.get at hr
    rw [hw] at hr
    cases hr
  exact typed_set (hempty _ rfl) ⟨"ann", "bob", SESSION_DURATION_MS, rfl⟩

/-- The end of the session, stopped after `n` commands. -/
def endingUpTo (n : Nat) : List (Event lifecycleService.system) :=
  .start (.endSession 0 ⟨"s", "ann", "bob", none, none, 0⟩ .timeout) :: List.replicate n (.step 0)

/-- The recovery, up to its last command. -/
def recoverySteps : List (Event lifecycleService.system) := List.replicate 13 (.step 0)

/-- What the process leaves that stops after `n` commands of `endSession`. -/
def leftAfter (n : Nat) : World :=
  ((Config.initial runningSession : Config lifecycleService.system).run (endingUpTo n)).world

theorem recovery_complete_afterDeadline :
    (viewOf 0 "s" ((recovering 0 (leftAfter 8)).run recoverySteps).world).Complete ↔
      ¬(viewOf 0 "s" (leftAfter 8)).HalfEnded := by
  have hes : (Config.initial runningSession : Config lifecycleService.system).Obeys KeysKept
      (endingUpTo 8) := by decide
  have hstarted : (viewOf 0 "s" (leftAfter 8)).hasEnded = true := by decide
  have hes' : (recovering 0 (leftAfter 8)).Obeys RecoveryRun recoverySteps := by decide
  have hquiet : ((recovering 0 (leftAfter 8)).run recoverySteps).Quiet := by decide
  exact recovery_complete 0 "s" (by decide) runningSession runningSession_typed (by decide)
    (endingUpTo 8) hes recoverySteps (.inl hstarted) hes' hquiet

/-- The process stops right after `SET session:ended NX`. -/
theorem recovery_of_halfEnded : ¬∀ es es' : List (Event lifecycleService.system),
    (Config.initial runningSession : Config lifecycleService.system).Obeys KeysKept es →
    ((viewOf 0 "s" ((Config.initial runningSession :
      Config lifecycleService.system).run es).world).state).isSome →
    (recovering 0 ((Config.initial runningSession :
      Config lifecycleService.system).run es).world).Obeys RecoveryRun es' →
    ((recovering 0 ((Config.initial runningSession :
      Config lifecycleService.system).run es).world).run es').Quiet →
    (viewOf 0 "s" ((recovering 0 ((Config.initial runningSession :
      Config lifecycleService.system).run es).world).run es').world).Complete := by
  intro h
  have hes : (Config.initial runningSession : Config lifecycleService.system).Obeys KeysKept
      (endingUpTo 1) := by decide
  have hstate : ((viewOf 0 "s" (leftAfter 1)).state).isSome := by decide
  have hes' : (recovering 0 (leftAfter 1)).Obeys RecoveryRun recoverySteps := by decide
  have hquiet : ((recovering 0 (leftAfter 1)).run recoverySteps).Quiet := by decide
  have hnot : ¬(viewOf 0 "s" ((recovering 0 (leftAfter 1)).run recoverySteps).world).Complete := by
    decide
  exact hnot (h (endingUpTo 1) recoverySteps hes hstate hes' hquiet)

end Main

end VerityBackend.Sessions
