/-
VerityBackend.Session.TimerMaps — when the maps of timers are cleaned up.

An entry of `timers` or `choiceTimers` stays after its timer has fired: the
callback has to remove it, and `endSession` and `finalizeDecision` do not if
they find that others have ended the session or decided it. `Processes` adds
to a configuration which entries have fired, and by which call.
`entries_armed` says that no entry outlives its callback in runs in which
callbacks come first, or somebody of the process is bound to clear the entry
anyway (`Fares`); `entry_left` is a run in which another process ends the
session.
-/
import VerityBackend.Async.Bound
import VerityBackend.Backend.Frames
import VerityBackend.Session.Lifecycle

namespace VerityBackend.Sessions

open Async

/-! ## The maps -/

/-- `timers` and `choiceTimers`. -/
inductive TimerMap where
  | timers
  | choiceTimers
  deriving DecidableEq, Repr

/-- An entry of a map of one process. -/
structure Slot where
  map : TimerMap
  self : Instance
  id : SessionId
  deriving DecidableEq, Repr

def Slot.entry (slot : Slot) (w : World) : Option Timer :=
  match slot.map with
  | .timers => w.timers slot.self slot.id
  | .choiceTimers => w.choiceTimers slot.self slot.id

/-- What removes the entry. -/
def Slot.clear (slot : Slot) : Cmd :=
  match slot.map with
  | .timers => .host (.clearSessionEnd slot.self slot.id)
  | .choiceTimers => .host (.clearChoiceTimeout slot.self slot.id)

/-- What the timer does when it fires. -/
def Slot.callback (slot : Slot) (timer : Timer) : LifecycleOp :=
  let session := buildSyntheticSession slot.id timer.userAId timer.userBId
  match slot.map with
  | .timers => .endSession slot.self session .timeout
  | .choiceTimers => .finalizeDecision slot.self session .PASS .PASS

/-- The entry a command replaces or removes. -/
def slotOf : Cmd → Option Slot
  | .host (.scheduleSessionEnd self id _ _ _) | .host (.clearSessionEnd self id) =>
      some ⟨.timers, self, id⟩
  | .host (.scheduleChoiceTimeout self id _ _ _) | .host (.clearChoiceTimeout self id) =>
      some ⟨.choiceTimers, self, id⟩
  | _ => none

theorem slotOf_clear (slot : Slot) : slotOf slot.clear = some slot := by
  obtain ⟨map, self, id⟩ := slot
  cases map <;> rfl

/-- Other entries stay. -/
theorem Slot.entry_exec {slot : Slot} {c : Cmd} (h : slotOf c ≠ some slot) (w : World) :
    slot.entry (c.exec w).2 = slot.entry w := by
  obtain ⟨map, self, id⟩ := slot
  by_cases hmoves : c.movesTimers
  · have hother (self' : Instance) (id' : SessionId) (m : Instance → SessionId → Option Timer)
        (t : Option Timer) (map' : TimerMap) (hne : some (⟨map', self', id'⟩ : Slot) ≠ some ⟨map', self, id⟩) :
        setTimer m self' id' t self id = m self id := by
      unfold setTimer
      rw [if_neg]
      rintro ⟨rfl, rfl⟩
      exact hne rfl
    cases c with
    | db c | redis c => exact hmoves.elim
    | host c =>
        cases c with
        | scheduleSessionEnd self' id' a b endAt | clearSessionEnd self' id' =>
            cases map with
            | timers => exact hother self' id' _ _ .timers h
            | choiceTimers => rfl
        | scheduleChoiceTimeout self' id' a b deadline | clearChoiceTimeout self' id' =>
            cases map with
            | timers => rfl
            | choiceTimers => exact hother self' id' _ _ .choiceTimers h
        | _ => exact hmoves.elim
  · obtain ⟨htimers, hchoices⟩ := Cmd.timers_exec hmoves w
    unfold Slot.entry
    rw [htimers, hchoices]

/-! ## Processes with their timers -/

/-- `fired` tells of an entry whose timer has fired which call is the
callback. -/
structure Processes where
  config : Config lifecycleService.system
  fired : Slot → Option Nat

inductive Act where
  | call (o : LifecycleOp)
  | step (i : Nat)
  | elapse (ms : Nat)
  | fire (slot : Slot)
  deriving DecidableEq, Repr

namespace Processes

/-- A timer that is armed and due. -/
def due (s : Processes) (slot : Slot) : Option Timer :=
  (slot.entry s.config.world).filter fun t =>
    (s.fired slot).isNone && decide (t.fireAt ≤ World.clock s.config.world)

/-- A timer fires once, when it is due. An entry that is replaced or removed
has not fired. -/
def next (s : Processes) : Act → Processes
  | .call o => { s with config := s.config.next (.start o) }
  | .elapse ms => { s with config := s.config.next (.env (.tick ms)) }
  | .step i =>
      { config := s.config.next (.step i)
        fired := fun slot =>
          if (s.config.pending i).bind slotOf = some slot then none else s.fired slot }
  | .fire slot =>
      match s.due slot with
      | none => s
      | some timer =>
          { config := s.config.next (.start (slot.callback timer))
            fired := fun slot' =>
              if slot' = slot then some s.config.calls.length else s.fired slot' }

theorem next_fire_of_none {s : Processes} {slot : Slot} (h : s.due slot = none) :
    s.next (.fire slot) = s := by
  simp only [next, h]

theorem next_fire_of_some {s : Processes} {slot : Slot} {timer : Timer} (h : s.due slot = some timer) :
    s.next (.fire slot) =
      { config := s.config.next (.start (slot.callback timer))
        fired := fun slot' => if slot' = slot then some s.config.calls.length else s.fired slot' } := by
  simp only [next, h]

def run (s : Processes) : List Act → Processes
  | [] => s
  | a :: as => (s.next a).run as

/-- Processes without calls, whose timers have not fired yet. -/
def initial (w : World) : Processes := ⟨Config.initial w, fun _ => none⟩

def Obeys (ok : Processes → Act → Prop) (s : Processes) : List Act → Prop
  | [] => True
  | a :: as => ok s a ∧ (s.next a).Obeys ok as

theorem run_induct {ok : Processes → Act → Prop} {P : Processes → Prop}
    (hnext : ∀ s a, ok s a → P s → P (s.next a)) (as : List Act) (s : Processes)
    (has : s.Obeys ok as) (h : P s) : P (s.run as) := by
  induction as generalizing s with
  | nil => exact h
  | cons a as ih => exact ih _ has.2 (hnext s a has.1 h)

/-- The entry is there and its timer has not fired. -/
def Armed (s : Processes) (slot : Slot) : Prop :=
  (slot.entry s.config.world).isSome = true ∧ s.fired slot = none

/-- With no call in flight, a process has an entry for a session only if one
of its timers for the session is armed. -/
def Clean (s : Processes) : Prop :=
  s.config.Quiet → ∀ map self id, (Slot.entry ⟨map, self, id⟩ s.config.world).isSome = true →
    ∃ map', s.Armed ⟨map', self, id⟩

/-- With no call in flight, the timer of every entry is armed. -/
def Tidy (s : Processes) : Prop :=
  s.config.Quiet → ∀ slot : Slot, (slot.entry s.config.world).isSome = true → s.Armed slot

theorem Tidy.clean {s : Processes} (h : s.Tidy) : s.Clean := fun hquiet map self id hentry =>
  ⟨map, h hquiet ⟨map, self, id⟩ hentry⟩

theorem Obeys.mono {ok ok' : Processes → Act → Prop} (h : ∀ s a, ok s a → ok' s a)
    {s : Processes} {as : List Act} (has : s.Obeys ok as) : s.Obeys ok' as := by
  induction as generalizing s with
  | nil => exact has
  | cons a as ih => exact ⟨h s a has.1, ih has.2⟩

end Processes

/-! ## The condition -/

/-- The answers after which a callback goes on to remove the entry: the
session had not ended, or was not decided. -/
def good (map : TimerMap) : (c : Cmd) → c.Res → Bool
  | .redis (.setNX (.sessionEnded _) _ _), stored => map != .timers || stored
  | .redis (.get (.sessionDecision _)), raw =>
      map != .choiceTimers ||
        match parseStoredDecision raw with
        | .resolved _ => false
        | _ => true
  | _, _ => true

/-- The command would be answered so. -/
def answeredWell (map : TimerMap) (w : World) (c : Cmd) : Bool :=
  match (c.exec w).1 with
  | .ok a => good map c a
  | .error _ => false

/-- The entry whose timer runs an operation, if one does. -/
def callbackOf : LifecycleOp → Option Slot
  | .endSession self session .timeout => some ⟨.timers, self, session.id⟩
  | .finalizeDecision self session .PASS .PASS => some ⟨.choiceTimers, self, session.id⟩
  | _ => none

theorem callbackOf_callback (slot : Slot) (timer : Timer) :
    callbackOf (slot.callback timer) = some slot := by
  obtain ⟨map, self, id⟩ := slot
  cases map <;> rfl

namespace Processes

/-- The entry whose callback call `i` is, if it is still there. -/
def awaits (s : Processes) (i : Nat) : Option Slot :=
  ((s.config.calls[i]?).bind fun t => callbackOf t.1).filter fun slot =>
    s.fired slot = some i && (slot.entry s.config.world).isSome

/-- A callback whose entry is there finds the session not ended yet, or not
decided. -/
def FindsFirst (s : Processes) : Act → Prop
  | .step i => ∀ slot ∈ s.awaits i, (s.config.pending i).all (answeredWell slot.map s.config.world) = true
  | _ => True

/-- Or some call of the process is bound to clear the entry. -/
def Fares (s : Processes) : Act → Prop
  | .step i => ∀ slot ∈ s.awaits i,
      (s.config.pending i).all (answeredWell slot.map s.config.world) = true ∨
        s.config.Promised slot.clear
  | _ => True

theorem FindsFirst.fares {s : Processes} {a : Act} (h : s.FindsFirst a) : s.Fares a := by
  cases a with
  | step i => exact fun slot hslot => .inl (h slot hslot)
  | _ => trivial

/-! ## Callbacks -/

/-- The rest of a call removes the entry if it is answered well. -/
abbrev Removes (slot : Slot) {α : Type} (p : Prog α) : Prop :=
  p.Bound (fun _ => True) (fun c a => good slot.map c a = true) slot.clear fun _ => False

theorem removes_endSession (self : Instance) (session : Session) (reason : EndReason) :
    Removes ⟨.timers, self, session.id⟩ (endSession self session reason) := by
  unfold endSession
  refine Proc.bound_await trivial fun stored hstored => ?_
  have hwon : stored = true := hstored
  rw [hwon]
  exact Proc.bound_here

section Decide

variable {self : Instance} {session : Session}

/-- Until the entry is removed, with a postcondition. -/
abbrev Until (self : Instance) (session : Session) {α : Type} (p : Prog α) (Q : α → Prop) : Prop :=
  p.Bound (fun _ => True) (fun c a => good .choiceTimers c a = true)
    (.host (.clearChoiceTimeout self session.id)) Q

/-- No decision is read. -/
theorem until_readStoredDecision (id : SessionId) :
    Until self session (readStoredDecision id) fun d => ∀ v, d ≠ .resolved v := by
  refine Proc.bound_await trivial fun raw hraw => Proc.bound_pure fun v hv => ?_
  have hgood : (match parseStoredDecision raw with
      | .resolved _ => false
      | _ => true) = true := hraw
  rw [hv] at hgood
  cases hgood

theorem until_storeDecision (id : SessionId) {existing : ParsedStoredDecision}
    (h : ∀ v, existing ≠ .resolved v) (payload : ResolvedChoiceResult) :
    Until self session (storeDecision id existing payload) (· = none) := by
  have hoverwrite : Until self session (overwriteDecision id payload) (· = none) :=
    Proc.bound_await trivial fun _ _ => Proc.bound_pure rfl
  have hunless : Until self session (storeUnlessDecided id payload) (· = none) := by
    refine Proc.bound_await trivial fun stored _ => ?_
    cases stored with
    | true => exact Proc.bound_pure rfl
    | false =>
        refine (until_readStoredDecision id).bind fun decision hdecision => ?_
        cases decision with
        | resolved v => exact absurd rfl (hdecision v)
        | pending deadline => exact hoverwrite
        | none | invalid => exact Proc.bound_pure rfl
  cases existing with
  | resolved v => exact absurd rfl (h v)
  | pending deadline => exact hoverwrite
  | none | invalid => exact hunless

/-- The last thing a finalizer does. -/
theorem until_announceDecision (choiceA choiceB : SessionChoice) :
    Until self session (announceDecision self session choiceA choiceB .nonMutual) fun _ => False :=
  Proc.bound_await trivial fun _ _ => Proc.bound_await trivial fun _ _ => .inl rfl

theorem until_finalizeDecision :
    Until self session (finalizeDecision self session .PASS .PASS) fun _ => False := by
  unfold finalizeDecision
  refine (until_readStoredDecision session.id).bind fun decision hdecision => ?_
  have hrest : Until self session (settleDecision self session .PASS .PASS decision) fun _ => False := by
    unfold settleDecision
    have hpass : decisionOf session .PASS .PASS = pure .nonMutual := rfl
    rw [hpass]
    refine Proc.Bound.bind (Proc.bound_pure (Q := (· = .nonMutual)) rfl) fun payload hpayload => ?_
    subst hpayload
    refine (until_storeDecision session.id hdecision _).bind fun stored hstored => ?_
    subst hstored
    exact (until_announceDecision _ _).bind fun _ h => h.elim
  cases decision with
  | resolved v => exact absurd rfl (hdecision v)
  | none | invalid | pending deadline => exact hrest

end Decide

/-- Every callback removes its entry if it comes first. -/
theorem removes_callback {o : LifecycleOp} {slot : Slot} (h : callbackOf o = some slot) :
    Removes slot o.code := by
  unfold callbackOf at h
  split at h
  · next self session =>
      obtain rfl := Option.some.inj h
      exact removes_endSession self session .timeout
  · next self session =>
      obtain rfl := Option.some.inj h
      exact until_finalizeDecision
  · cases h

/-! ## Somebody is there for every fired timer -/

/-- Call `i` is the callback and may still remove the entry, or another call
will. -/
def Attended (slot : Slot) (i : Nat) (c : Config lifecycleService.system) : Prop :=
  (∃ o p, c.calls[i]? = some ⟨o, p⟩ ∧ callbackOf o = some slot ∧ Removes slot p) ∨
    c.Promised slot.clear

def Attends (s : Processes) : Prop :=
  ∀ slot t i, slot.entry s.config.world = some t → s.fired slot = some i → Attended slot i s.config

section Attended

variable {slot : Slot} {i : Nat} {c : Config lifecycleService.system}

theorem Attended.start (h : Attended slot i c) (o : LifecycleOp) :
    Attended slot i (c.next (.start o)) := by
  rcases h with ⟨o', p, hcall, hslot, hremoves⟩ | hpromised
  · refine .inl ⟨o', p, ?_, hslot, hremoves⟩
    exact (List.getElem?_append_left (List.getElem?_eq_some_iff.mp hcall).1).trans hcall
  · exact .inr (hpromised.start o)

/-- Call `j` issues a command that is not about the entry. -/
theorem Attended.step (h : Attended slot i c) {j : Nat} {o : LifecycleOp} {cmd : Cmd}
    {k : Except Err cmd.Res → Prog o.Ret} (hcall : c.calls[j]? = some ⟨o, .call cmd k⟩)
    (hne : slotOf cmd ≠ some slot)
    (hfares : j = i → callbackOf o = some slot →
      answeredWell slot.map c.world cmd = true ∨ c.Promised slot.clear) :
    Attended slot i (c.next (.step j)) := by
  have hclear : cmd ≠ slot.clear := by
    rintro rfl
    exact hne (slotOf_clear slot)
  rcases h with ⟨o', p, hi, hslot, hremoves⟩ | hpromised
  · by_cases hji : j = i
    · subst hji
      obtain ⟨rfl, hp⟩ := task_inj (S := lifecycleService.system) (hcall.symm.trans hi)
      obtain rfl := eq_of_heq hp
      rcases hfares rfl hslot with hwell | hpromised
      · refine .inl ⟨o, k (cmd.exec c.world).1, ?_, hslot, ?_⟩
        · rw [Config.next_step_of_call hcall]
          exact List.getElem?_set_self (List.getElem?_eq_some_iff.mp hcall).1
        · unfold answeredWell at hwell
          split at hwell
          · next a ha =>
              rw [ha]
              exact hremoves.next hclear hwell
          · cases hwell
      · exact .inr (hpromised.step hcall hclear)
    · refine .inl ⟨o', p, ?_, hslot, hremoves⟩
      rw [Config.next_step_of_call hcall]
      exact (List.getElem?_set_ne hji).trans hi
  · exact .inr (hpromised.step hcall hclear)

end Attended

/-- **Step lemma.** -/
theorem Attends.next {s : Processes} (h : s.Attends) {a : Act} (hfares : s.Fares a) :
    (s.next a).Attends := by
  intro slot t i hentry hfired
  cases a with
  | call o => exact (h slot t i hentry hfired).start o
  | elapse ms => exact h slot t i hentry hfired
  | fire slot' =>
      cases hdue : s.due slot' with
      | none =>
          rw [next_fire_of_none hdue] at hentry hfired ⊢
          exact h slot t i hentry hfired
      | some timer =>
          rw [next_fire_of_some hdue] at hentry hfired ⊢
          dsimp only at hentry hfired ⊢
          split at hfired
          · next hslot =>
              obtain rfl := hslot
              obtain rfl := Option.some.inj hfired
              refine .inl ⟨_, _, List.getElem?_concat_length, callbackOf_callback slot timer, ?_⟩
              exact removes_callback (callbackOf_callback slot timer)
          · exact (h slot t i hentry hfired).start _
  | step j =>
      change slot.entry (s.config.next (.step j)).world = some t at hentry
      change (if (s.config.pending j).bind slotOf = some slot then none else s.fired slot) = some i at hfired
      cases hpending : s.config.pending j with
      | none =>
          rw [hpending] at hfired
          rw [Config.next_step_of_pending_none hpending] at hentry
          change Attended slot i (s.config.next (.step j))
          rw [Config.next_step_of_pending_none hpending]
          exact h slot t i hentry hfired
      | some cmd =>
          obtain ⟨o, k, hcall⟩ := Config.pending_eq_some.mp hpending
          rw [hpending] at hfired
          split at hfired
          · cases hfired
          · next hne =>
              rw [Config.next_step_of_call hcall] at hentry
              have hkept : slot.entry (cmd.exec s.config.world).2 = slot.entry s.config.world :=
                Slot.entry_exec hne s.config.world
              have hbefore : slot.entry s.config.world = some t := hkept.symm.trans hentry
              refine (h slot t i hbefore hfired).step hcall hne fun hji hslot => ?_
              subst hji
              have hawaits : slot ∈ s.awaits j := by
                unfold awaits
                simp [hcall, hslot, hfired, hbefore]
              have hwell := hfares slot hawaits
              rw [hpending] at hwell
              simpa using hwell

theorem attends_initial (w : World) : (initial w).Attends := fun _ _ _ _ h => nomatch h

/-- Who attends to a timer is not done. -/
theorem Attends.tidy {s : Processes} (h : s.Attends) : s.Tidy := by
  intro hquiet slot hentry
  obtain ⟨t, ht⟩ := Option.isSome_iff_exists.mp hentry
  refine ⟨hentry, ?_⟩
  cases hfired : s.fired slot with
  | none => rfl
  | some i =>
      rcases h slot t i ht hfired with ⟨o, p, hcall, -, hremoves⟩ | hpromised
      · have hdone := s.config.quiet_iff.mp hquiet _ (List.mem_of_getElem? hcall)
        cases p with
        | ret r => exact (Proc.Bound.not_ret hremoves).elim
        | call cmd k => cases hdone
      · exact absurd hquiet hpromised.not_quiet

end Processes

/-! ## Runs -/

/-- Once all calls are done, entries are there only for timers that have not
fired. -/
theorem entries_armed (w : World) (as : List Act) (has : (Processes.initial w).Obeys Processes.Fares as) :
    ((Processes.initial w).run as).Tidy ∧ ((Processes.initial w).run as).Clean := by
  have hattends := Processes.run_induct (P := Processes.Attends) (fun _ _ hfares h => h.next hfares)
    as _ has (Processes.attends_initial w)
  exact ⟨hattends.tidy, hattends.tidy.clean⟩

section Examples

instance (s : Processes) (a : Act) : Decidable (s.FindsFirst a) :=
  match a with
  | .step i => inferInstanceAs (Decidable (∀ slot ∈ s.awaits i,
      (s.config.pending i).all (answeredWell slot.map s.config.world) = true))
  | .call _ | .elapse _ | .fire _ => .isTrue trivial

instance Processes.decidableObeys (s : Processes) :
    (as : List Act) → Decidable (s.Obeys Processes.FindsFirst as)
  | [] => .isTrue trivial
  | a :: as =>
      have := decidableObeys (s.next a) as
      inferInstanceAs (Decidable (s.FindsFirst a ∧ (s.next a).Obeys Processes.FindsFirst as))

/-- A session of `ann` and `bob`, which has just been created. -/
def created : Session := ⟨"s", "ann", "bob", none, none, 0⟩

def createdWorld : World :=
  let w := World.peopled ["ann", "bob"] 1
  { w with
    db := { w.db with sessions := [created] }
    video := fun _ _ _ => .ok ⟨"channel", 0, fun _ => ⟨"rtc", 1, "rtm", "rtm"⟩⟩ }

/-- One process starts the session, ends it and decides it. -/
def alone : List Act :=
  (.call (.handleSessionCreated 0 created) :: List.replicate 8 (.step 0) : List Act) ++
    (.elapse 45000 :: .fire ⟨.timers, 0, "s"⟩ :: List.replicate 9 (.step 1) : List Act) ++
      (.elapse 60000 :: .fire ⟨.choiceTimers, 0, "s"⟩ :: List.replicate 5 (.step 2) : List Act)

theorem entries_armed_alone :
    ((Processes.initial createdWorld).run alone).Tidy ∧
      ((Processes.initial createdWorld).run alone).Clean :=
  entries_armed createdWorld alone
    (Processes.Obeys.mono (fun _ _ => Processes.FindsFirst.fares) (by decide +kernel))

/-- Another process ends the session before the timer fires. -/
def endedElsewhere : List Act :=
  (.call (.handleSessionCreated 0 created) :: List.replicate 8 (.step 0) : List Act) ++
    (.call (.endSession 1 created .ended) :: List.replicate 9 (.step 1) : List Act) ++
      (.elapse 45000 :: .fire ⟨.timers, 0, "s"⟩ :: [.step 2] : List Act)

theorem entry_left : ¬∀ (w : World) (as : List Act), ((Processes.initial w).run as).Clean := by
  intro h
  obtain ⟨map, hentry, hfired⟩ := h createdWorld endedElsewhere (by decide +kernel) .timers 0 "s"
    (by decide +kernel)
  cases map with
  | timers => exact absurd hfired (by decide +kernel)
  | choiceTimers => exact absurd hentry (by decide +kernel)

end Examples

end VerityBackend.Sessions
