/-
VerityBackend.Moderation.Retry — what a violation leaves behind when a
command of its delivery throws, and what redelivering it repairs.

`handleWebhook` reserves the delivery before it does anything, and a failure
does not give the reservation back. For ten minutes a redelivery is then
answered without being processed, so what is left behind at the failure is
all there will be (`violation_kept_iff`).

An attempt is one call of `handleWebhook`. Its `gaps` say how much time
passes before each of its commands, so the first of them is the wait before
the attempt.
-/
import VerityBackend.Async.Failing
import VerityBackend.Backend.Frames
import VerityBackend.Moderation.Issued
import Mathlib.Data.List.Perm.Subperm

namespace VerityBackend.Moderation

open Async Store

/-! ## Deliveries and redeliveries -/

/-- A command, and the time that passes before it. -/
def elapsing (c : Cmd) : World × List Nat → Except Err c.Res × World × List Nat
  | (w, gaps) =>
      let w' := w.env (.tick (gaps.headD 0))
      ((c.exec w').1, (c.exec w').2, gaps.tail)

/-- A delivery that reports a violation and carries both headers. -/
structure ViolationDelivery where
  payload : HiveViolationPayload
  delivery : HiveWebhookDelivery
  sessionId : SessionId
  signature : String
  timestamp : String
  hasSessionId : present payload.sessionId = some sessionId
  hasSignature : present delivery.signature = some signature
  hasTimestamp : present delivery.timestamp = some timestamp
  violates : isViolation payload = .ok true

/-- The key of its reservation. -/
def ViolationDelivery.key (d : ViolationDelivery) : RedisKey :=
  .hiveWebhook d.timestamp (rawSignature d.signature)

structure Attempt where
  self : Instance
  sched : Schedules
  gaps : List Nat
  deriving DecidableEq, Repr

namespace Attempt

def handle (a : Attempt) (d : ViolationDelivery) : Prog Unit :=
  handleWebhook a.self a.sched d.payload d.delivery

/-- The time at which an attempt reserves. -/
def reservesAt (a : Attempt) (w : World) : Nat := w.clock + a.gaps.headD 0

/-- An attempt in which nothing fails. -/
def run (a : Attempt) (d : ViolationDelivery) (w : World) : Except Err Unit × World :=
  let out := (a.handle d).run elapsing (w, a.gaps)
  (out.1, out.2.1)

/-- The commands of such an attempt. -/
def commands (a : Attempt) (d : ViolationDelivery) (w : World) : List Cmd :=
  (a.handle d).commands elapsing (w, a.gaps)

/-- What an attempt leaves behind whose command number `n` throws. -/
def runFailing (a : Attempt) (d : ViolationDelivery) (n : Nat) (err : Err) (w : World) : World :=
  ((a.handle d).run (failing elapsing err) (some n, w, a.gaps)).2.2.1

end Attempt

/-- Redeliver until a call returns. -/
def redeliver (d : ViolationDelivery) : List Attempt → World → Option World
  | [], _ => none
  | a :: as, w =>
      match a.run d w with
      | (.ok _, w') => some w'
      | (.error _, w') => redeliver d as w'

/-- The users whose violations have been recorded. -/
def recordedFor (w : World) : List UserId := w.db.moderationEvents.map (·.userId)

/-- A violation of each of the offenders has been recorded since `w`. -/
def Recorded (offenderIds : List UserId) (w w' : World) : Prop :=
  ∀ u ∈ offenderIds, (recordedFor w).count u + offenderIds.count u ≤ (recordedFor w').count u

instance (offenderIds : List UserId) (w w' : World) : Decidable (Recorded offenderIds w w') :=
  inferInstanceAs (Decidable (∀ u ∈ offenderIds, _))

/-- The session has been ended. -/
def Over (id : SessionId) (w : World) : Prop := (w.stored (.sessionEnded id)).isSome = true

instance (id : SessionId) (w : World) : Decidable (Over id w) :=
  inferInstanceAs (Decidable (_ = true))

/-! ## What the commands of a delivery do -/

section Commands

def records : Cmd → Bool
  | .db (.moderationEventCreate _) => true
  | _ => false

/-- The command that ends the session. -/
def ends (id : SessionId) : Cmd → Bool
  | .redis (.setNX (.sessionEnded id') _ _) => id' = id
  | _ => false

/-- None of the commands records a violation, and none ends a session that
is not over yet. -/
def Settled (id : SessionId) (w : World) (cs : List Cmd) : Prop :=
  ∀ c ∈ cs, records c = false ∧ (ends id c = true → Over id w)

instance (id : SessionId) (w : World) (cs : List Cmd) : Decidable (Settled id w cs) :=
  inferInstanceAs (Decidable (∀ c ∈ cs, _))

/-- The commands after the reservation that neither record nor end. -/
def quiet : Cmd → Bool
  | .host .now => true
  | .host (.emit _) => true
  | .host (.clearSessionEnd _ _) => true
  | .host (.scheduleChoiceTimeout _ _ _ _ _) => true
  | .redis (.get _) => true
  | .redis (.set (.moderationBan _) _ _) => true
  | .redis (.setNX (.moderationBanCooldown _) _ _) => true
  | .redis (.setNX (.sessionChoiceDeadline _) _ _) => true
  | .redis (.del [.sessionActive _, .sessionActive _]) => true
  | .db (.sessionFindUnique _) => true
  | .db (.moderationEventCount _ _) => true
  | _ => false

/-- The commands after the reservation. -/
def processes (c : Cmd) : Prop :=
  quiet c = true ∨ (∃ u, c = .db (.moderationEventCreate u)) ∨
    ∃ id v ttl, c = .redis (.setNX (.sessionEnded id) v ttl)

/-- The keys of reservations and of sessions that are over. -/
def watched : RedisKey → Bool
  | .hiveWebhook _ _ => true
  | .sessionEnded _ => true
  | _ => false

theorem quiet_touches {c : Cmd} (h : quiet c = true) {k : RedisKey} (hk : watched k = true) :
    ¬c.touches k := by
  intro htouch
  cases c with
  | db c => exact htouch
  | host c => exact htouch
  | redis c =>
      unfold quiet at h
      split at h
      case h_5 heq =>
          cases heq
          exact htouch
      case h_6 heq | h_7 heq | h_8 heq =>
          cases heq
          obtain rfl := htouch
          cases hk
      case h_9 heq =>
          cases heq
          rcases List.mem_pair.mp htouch with rfl | rfl <;> cases hk
      all_goals contradiction

theorem create_touches (u : UserId) (k : RedisKey) :
    ¬(Cmd.db (.moderationEventCreate u)).touches k := fun htouch => htouch

theorem quiet_db {c : Cmd} (h : quiet c = true) (w : World) : (c.exec w).2.db = w.db := by
  cases c with
  | redis c => exact c.exec_db w
  | host c => exact (c.exec_redis w).2.2
  | db c =>
      cases c with
      | sessionFindUnique id => rfl
      | moderationEventCount u since => rfl
      | _ => cases h

/-- None of them can throw by itself. -/
theorem quiet_answers {c : Cmd} (h : quiet c = true) (w : World) : ∃ a, (c.exec w).1 = .ok a := by
  cases c with
  | redis c => exact ⟨_, rfl⟩
  | db c =>
      cases c with
      | sessionFindUnique id => exact ⟨_, rfl⟩
      | moderationEventCount u since => exact ⟨_, rfl⟩
      | _ => cases h
  | host c =>
      cases c with
      | buildSessionTokens id a b => cases h
      | _ => exact ⟨_, rfl⟩

/-- What processing does not change. -/
structure SameFor (w w' : World) : Prop where
  users : w'.db.users = w.db.users
  sessions : w'.db.sessions = w.db.sessions
  reserved : ∀ t s, w'.stored (.hiveWebhook t s) = w.stored (.hiveWebhook t s)

theorem SameFor.refl (w : World) : SameFor w w := ⟨rfl, rfl, fun _ _ => rfl⟩

theorem SameFor.trans {w w₁ w₂ : World} (h : SameFor w w₁) (h' : SameFor w₁ w₂) : SameFor w w₂ :=
  ⟨h'.users.trans h.users, h'.sessions.trans h.sessions,
    fun t s => (h'.reserved t s).trans (h.reserved t s)⟩

theorem sameFor_exec {c : Cmd} (h : processes c) (w : World) : SameFor w (c.exec w).2 := by
  rcases h with h | ⟨u, rfl⟩ | ⟨id, v, ttl, rfl⟩
  · have hdb := quiet_db h w
    exact ⟨by rw [hdb], by rw [hdb], fun t s => Cmd.stored_exec (quiet_touches h rfl) w⟩
  · have htables := (Cmd.db (.moderationEventCreate u)).tables_exec w
    exact ⟨htables.users id, htables.sessions id, fun t s => Cmd.stored_exec (create_touches u _) w⟩
  · have hdb : ((Cmd.redis (.setNX (.sessionEnded id) v ttl)).exec w).2.db = w.db :=
      RedisCmd.exec_db _ w
    refine ⟨by rw [hdb], by rw [hdb], fun t s => Cmd.stored_exec ?_ w⟩
    intro htouch
    cases htouch

/-- What is over stays over. -/
theorem over_exec {c : Cmd} (h : processes c) {id : SessionId} {w : World} (hover : Over id w) :
    Over id (c.exec w).2 := by
  rcases h with h | ⟨u, rfl⟩ | ⟨id', v, ttl, rfl⟩
  · unfold Over
    rwa [Cmd.stored_exec (quiet_touches h rfl) w]
  · unfold Over
    rwa [Cmd.stored_exec (create_touches u _) w]
  · by_cases hid : id = id'
    · subst hid
      simp only [Cmd.exec_redis, RedisCmd.exec]
      split
      · exact hover
      · unfold Over
        rw [World.stored_set_self]
        rfl
    · unfold Over
      rwa [Cmd.stored_exec (fun h => hid (by cases h; rfl)) w]

/-- After `SET NX` of its key a session is over. -/
theorem over_setNX (id : SessionId) (v : RedisString) (ttl : Nat) (w : World) :
    Over id ((Cmd.redis (.setNX (.sessionEnded id) v ttl)).exec w).2 := by
  simp only [Cmd.exec_redis, RedisCmd.exec]
  split
  · next r hr =>
      obtain ⟨e, he, -⟩ := World.stored_of_get hr
      unfold Over
      rw [he]
      rfl
  · unfold Over
    rw [World.stored_set_self]
    rfl

/-- Recording a violation, of a user there is. -/
theorem recordedFor_create (u : UserId) (w : World) :
    recordedFor ((Cmd.db (.moderationEventCreate u)).exec w).2 =
      recordedFor w ++ if w.db.hasUser u then [u] else [] := by
  simp only [Cmd.exec_db, DbCmd.exec, World.create]
  split
  · simp [recordedFor]
  · simp [recordedFor]

theorem create_fails {u : UserId} {w : World} (h : ¬w.db.hasUser u = true) :
    ((Cmd.db (.moderationEventCreate u)).exec w).1 = .error (.prisma "P2003") := by
  simp only [Cmd.exec_db, DbCmd.exec]
  rw [if_neg h]

theorem recordedFor_exec {c : Cmd} (h : processes c) (hrec : records c = false) (w : World) :
    recordedFor (c.exec w).2 = recordedFor w := by
  unfold recordedFor
  rcases h with h | ⟨u, rfl⟩ | ⟨id, v, ttl, rfl⟩
  · rw [quiet_db h]
  · cases hrec
  · rw [Cmd.exec_redis, RedisCmd.exec_db]

end Commands

/-! ## The stages of a delivery -/

section Stages

variable {b : Prop}

/-- Everything between the records and the end of the session. -/
def react (sched : Schedules) (payload : HiveViolationPayload) (session : Session)
    (actionStartedAtMs : Nat) : Prog Unit :=
  (host (.emit ((offendersOf payload session).map (detectedEvent payload session.id)))).bind fun _ =>
    Proc.all sched.actions ((offendersOf payload session).map fun id =>
      applyModerationAction id (policyReason payload) actionStartedAtMs)

def recordAll (sched : Schedules) (offenderIds : List UserId) : Prog Unit :=
  Proc.all sched.events (offenderIds.map logModerationEvent)

theorem punish_eq (self : Instance) (sched : Schedules) (payload : HiveViolationPayload)
    (session : Session) :
    punish self sched payload session =
      (host .now).bind fun now => (recordAll sched (offendersOf payload session)).bind fun _ =>
        (react sched payload session now).bind fun _ => Sessions.endSession self session .ended := by
  unfold punish react
  simp only [Proc.bind_assoc]
  rfl

theorem quiet_await {c : Cmd} (h : quiet c = true) :
    (Proc.await c : Prog c.Res).Conforms (quiet · = true) b :=
  Proc.conforms_await h

theorem quiet_applyModerationAction (userId : UserId) (policyReason : JsonValue)
    (detectedAtMs : Nat) :
    (applyModerationAction userId policyReason detectedAtMs).Conforms (quiet · = true) b :=
  (applyModerationAction_issues userId policyReason detectedAtMs).mono fun _ hc => by
    cases hc <;> rfl

theorem strict_applyModerationAction (userId : UserId) (policyReason : JsonValue)
    (detectedAtMs : Nat) : (applyModerationAction userId policyReason detectedAtMs).Strict := by
  have hannounce (action : String) (count : Nat) :
      (announceAction userId action policyReason count detectedAtMs).Strict :=
    (Proc.strict_await _).bind fun _ => Proc.strict_await _
  refine (Proc.strict_await _).bind fun now => (Proc.strict_await _).bind fun count => ?_
  split
  · refine (Proc.strict_await _).bind fun allowed => ?_
    split
    · exact (Proc.strict_await _).bind fun _ => hannounce "ban" count
    · trivial
  · exact hannounce "warn" count

theorem quiet_react (sched : Schedules) (payload : HiveViolationPayload) (session : Session)
    (now : Nat) : (react sched payload session now).Conforms (quiet · = true) b := by
  refine (quiet_await rfl).bind fun _ => Proc.Conforms.all _ fun p hp => ?_
  obtain ⟨id, -, rfl⟩ := List.mem_map.mp hp
  exact quiet_applyModerationAction _ _ _

theorem strict_react (sched : Schedules) (payload : HiveViolationPayload) (session : Session)
    (now : Nat) : (react sched payload session now).Strict := by
  refine (Proc.strict_await _).bind fun _ => Proc.Strict.all _ fun p hp => ?_
  obtain ⟨id, -, rfl⟩ := List.mem_map.mp hp
  exact strict_applyModerationAction _ _ _

/-- The records of a delivery, in some order. -/
theorem issues_recordAll (sched : Schedules) (offenderIds : List UserId) :
    (recordAll sched offenderIds).Issues
      (offenderIds.map fun u => Cmd.db (.moderationEventCreate u)) :=
  Proc.issues_all _ fun _ => Proc.issues_await _

theorem strict_recordAll (sched : Schedules) (offenderIds : List UserId) :
    (recordAll sched offenderIds).Strict := by
  refine Proc.Strict.all _ fun p hp => ?_
  obtain ⟨u, -, rfl⟩ := List.mem_map.mp hp
  exact Proc.strict_await _

end Stages

/-! ## What a run keeps -/

section Runs

variable {α : Type} {p : Prog α} {err : Err} {id : SessionId}

/-- What time and the commands of a procedure keep, a run of it keeps,
whether a command throws or not. -/
theorem kept_failing {P : Cmd → Prop} {J : World → Prop} (hp : p.Conforms P True)
    (htick : ∀ w ms, J w → J (w.env (.tick ms))) (hexec : ∀ c w, P c → J w → J (c.exec w).2)
    {n : Option Nat} {s : World × List Nat} (hs : J s.1) :
    J (p.run (failing elapsing err) (n, s)).2.2.1 := by
  have hkeeps : ∀ c (t : World × List Nat), P c → J t.1 → J (elapsing c t).2.1 :=
    fun c t hc ht => hexec c _ hc (htick t.1 _ ht)
  refine hp.run_keeps (J := fun t => J t.2.1) (fun c t hc ht => ?_) (s := (n, s)) hs
  exact Proc.failing_keeps (J := fun t => J t.1) hkeeps c t hc ht

theorem kept_run {P : Cmd → Prop} {J : World → Prop} (hp : p.Conforms P True)
    (htick : ∀ w ms, J w → J (w.env (.tick ms))) (hexec : ∀ c w, P c → J w → J (c.exec w).2)
    {s : World × List Nat} (hs : J s.1) : J (p.run elapsing s).2.1 := by
  have hrun : J (p.run (failing elapsing (.prisma "")) (none, s)).2.2.1 :=
    kept_failing hp htick hexec hs
  rwa [Proc.run_failing_none] at hrun

end Runs

/-! ## Recording -/

section Recording

variable {α : Type} {p : Prog α} {err : Err} {cs : List Cmd} {s : World × List Nat}

/-- The user whose violation a command records. -/
def offender : Cmd → Option UserId
  | .db (.moderationEventCreate u) => some u
  | _ => none

theorem eq_create_of_records {c : Cmd} (h : records c = true) :
    ∃ u, c = .db (.moderationEventCreate u) := by
  unfold records at h
  split at h
  · exact ⟨_, rfl⟩
  · cases h

theorem hasUser_elapsing {c : Cmd} (h : processes c) (s : World × List Nat) :
    (elapsing c s).2.1.db.hasUser = s.1.db.hasUser := by
  have husers := (sameFor_exec h (s.1.env (.tick (s.2.headD 0)))).users
  funext u
  unfold Db.hasUser
  rw [show (elapsing c s).2.1.db.users = _ from husers]
  rfl

/-- Every user there is gets a record, in some order. -/
theorem recorded_run (hp : p.Issues cs) (hcs : ∀ c ∈ cs, records c = true) :
    ∃ ev, recordedFor (p.run elapsing s).2.1 = recordedFor s.1 ++ ev ∧
      ev.Perm ((cs.filterMap offender).filter s.1.db.hasUser) := by
  induction p generalizing cs s with
  | ret r =>
      obtain rfl : cs = [] := hp
      exact ⟨[], (List.append_nil _).symm, .refl _⟩
  | call c k ih =>
      obtain ⟨cs', hperm, hk⟩ := hp
      obtain ⟨u, rfl⟩ := eq_create_of_records (hcs c (hperm.mem_iff.mpr List.mem_cons_self))
      obtain ⟨ev, hev, hperm'⟩ := ih (elapsing _ s).1 (hk _) (s := (elapsing _ s).2)
        fun c' hc' => hcs c' (hperm.mem_iff.mpr (List.mem_cons_of_mem _ hc'))
      rw [hasUser_elapsing (.inr (.inl ⟨u, rfl⟩))] at hperm'
      have hone := recordedFor_create u (s.1.env (.tick (s.2.headD 0)))
      refine ⟨(if s.1.db.hasUser u then [u] else []) ++ ev, ?_, ?_⟩
      · rw [← List.append_assoc]
        exact hev.trans (congrArg (· ++ ev) hone)
      · refine .trans ?_ ((hperm.filterMap offender).filter _).symm
        change List.Perm _ (List.filter _ (u :: cs'.filterMap offender))
        rw [List.filter_cons]
        split
        · exact hperm'.cons u
        · exact hperm'

/-- If all the records are made, all the users exist. -/
theorem users_of_recorded (hp : p.Issues cs) (hcs : ∀ c ∈ cs, records c = true) (hstrict : p.Strict)
    {a : α} (hok : (p.run elapsing s).1 = .ok a) :
    ∀ u ∈ cs.filterMap offender, s.1.db.hasUser u = true := by
  induction p generalizing cs s with
  | ret r =>
      obtain rfl : cs = [] := hp
      simp
  | call c k ih =>
      obtain ⟨cs', hperm, hk⟩ := hp
      obtain ⟨u, rfl⟩ := eq_create_of_records (hcs c (hperm.mem_iff.mpr List.mem_cons_self))
      have hrest := ih (elapsing _ s).1 (hk _) (s := (elapsing _ s).2)
        (fun c' hc' => hcs c' (hperm.mem_iff.mpr (List.mem_cons_of_mem _ hc'))) (hstrict.2 _) hok
      rw [hasUser_elapsing (.inr (.inl ⟨u, rfl⟩))] at hrest
      intro v hv
      rw [(hperm.filterMap offender).mem_iff] at hv
      change v ∈ u :: cs'.filterMap offender at hv
      rcases List.mem_cons.mp hv with rfl | hv
      · -- a user there is not makes the command throw
        by_contra hnone
        have hanswer : (elapsing (.db (.moderationEventCreate v)) s).1 = .error (.prisma "P2003") :=
          create_fails (w := s.1.env (.tick (s.2.headD 0))) hnone
        rw [Proc.run_call, hanswer] at hok
        obtain ⟨e, he⟩ : ∃ e, ((k (.error (.prisma "P2003"))).run elapsing
            (elapsing (.db (.moderationEventCreate v)) s).2).1 = .error e := (hstrict.1 _).run _
        rw [hok] at he
        cases he
      · exact hrest v hv

/-- When one of them throws, there are not enough records. -/
theorem recorded_failing (hp : p.Issues cs) (hcs : ∀ c ∈ cs, records c = true) {n : Nat}
    (hn : n < cs.length) :
    ∃ ev, recordedFor (p.run (failing elapsing err) (some n, s)).2.2.1 = recordedFor s.1 ++ ev ∧
      ev.length < cs.length := by
  induction p generalizing cs s n with
  | ret r =>
      obtain rfl : cs = [] := hp
      cases hn
  | call c k ih =>
      obtain ⟨cs', hperm, hk⟩ := hp
      have hcs' : ∀ c' ∈ cs', records c' = true :=
        fun c' hc' => hcs c' (hperm.mem_iff.mpr (List.mem_cons_of_mem _ hc'))
      have hlength : cs.length = cs'.length + 1 := hperm.length_eq
      cases n with
      | zero =>
          obtain ⟨ev, hev, hperm'⟩ := recorded_run (hk (.error err)) hcs' (s := s)
          refine ⟨ev, ?_, ?_⟩
          · change recordedFor ((k (.error err)).run (failing elapsing err) (none, s)).2.2.1 = _
            rw [Proc.run_failing_none]
            exact hev
          · have hle := hperm'.length_eq
            have hfilter := List.length_filter_le s.1.db.hasUser (cs'.filterMap offender)
            have hmap := List.length_filterMap_le offender cs'
            omega
      | succ n =>
          obtain ⟨u, rfl⟩ := eq_create_of_records (hcs c (hperm.mem_iff.mpr List.mem_cons_self))
          obtain ⟨ev, hev, hlt⟩ := ih (elapsing _ s).1 (hk _) (s := (elapsing _ s).2) (n := n) hcs'
            (by omega)
          have hone := recordedFor_create u (s.1.env (.tick (s.2.headD 0)))
          refine ⟨(if s.1.db.hasUser u then [u] else []) ++ ev, ?_, ?_⟩
          · rw [← List.append_assoc]
            exact hev.trans (congrArg (· ++ ev) hone)
          · rw [List.length_append]
            split <;> simp <;> omega

end Recording

/-! ## Where the failure falls -/

section Stops

variable {self : Instance} {sched : Schedules} {payload : HiveViolationPayload} {session : Session}
  {err : Err} {n : Nat} {s : World × List Nat} {id : SessionId}

theorem quiet_settled {c : Cmd} (h : quiet c = true) (id : SessionId) :
    records c = false ∧ ends id c = false := by
  cases c with
  | host c => exact ⟨rfl, rfl⟩
  | db c =>
      refine ⟨?_, rfl⟩
      cases c with
      | moderationEventCreate u => cases h
      | _ => rfl
  | redis c =>
      refine ⟨rfl, ?_⟩
      cases c with
      | setNX k v ttl =>
          cases k with
          | sessionEnded id' => cases h
          | _ => rfl
      | _ => rfl

theorem settled_of_quiet {cs : List Cmd} (h : ∀ c ∈ cs, quiet c = true) (id : SessionId)
    (w : World) : Settled id w cs := by
  intro c hc
  obtain ⟨hrec, hends⟩ := quiet_settled (h c hc) id
  exact ⟨hrec, fun h' => by rw [hends] at h'; cases h'⟩

theorem over_congr {w w' : World} (h : w'.stored (.sessionEnded id) = w.stored (.sessionEnded id)) :
    Over id w' ↔ Over id w := by
  unfold Over
  rw [h]

/-- Quiet commands end no session, whether one of them throws or not. -/
theorem over_quiet_failing {α : Type} {p : Prog α} (hp : p.Conforms (quiet · = true) True)
    {m : Option Nat} :
    Over id (p.run (failing elapsing err) (m, s)).2.2.1 ↔ Over id s.1 := by
  refine over_congr (kept_failing (J := fun w => w.stored _ = s.1.stored _) hp
    (fun _ _ h => h) (fun c w hc h => ?_) rfl)
  exact (Cmd.stored_exec (quiet_touches hc rfl) w).trans h

theorem over_quiet_run {α : Type} {p : Prog α} (hp : p.Conforms (quiet · = true) True) :
    Over id (p.run elapsing s).2.1 ↔ Over id s.1 := by
  have hrun : Over id (p.run (failing elapsing (.prisma "")) (none, s)).2.2.1 ↔ Over id s.1 :=
    over_quiet_failing hp
  rwa [Proc.run_failing_none] at hrun

/-- `endSession` sets its key first. -/
theorem endSession_eq (self : Instance) (session : Session) (reason : EndReason) :
    ∃ g : Bool → Prog Unit, Sessions.endSession self session reason =
        (redis (.setNX (.sessionEnded session.id) (.text "1") Sessions.SESSION_STATE_TTL_MS)).bind g ∧
      ∀ a b, (g a).Conforms (quiet · = true) b := by
  refine ⟨_, rfl, fun a b => ?_⟩
  split
  · exact Proc.conforms_pure ()
  refine (quiet_await rfl).bind fun _ => (quiet_await rfl).bind fun _ => ?_
  refine (quiet_await rfl).bind fun now => (quiet_await rfl).bind fun _ => ?_
  refine Proc.Conforms.bind ((Sessions.ensureChoiceDeadline_issues session.id).mono fun c hc => ?_)
    fun deadline => quiet_await rfl
  cases hc <;> rfl

/-- The session is over unless its own command was still to come. -/
theorem endSession_failing
    (hn : n < ((Sessions.endSession self session .ended).commands elapsing s).length) :
    Over session.id
        ((Sessions.endSession self session .ended).run (failing elapsing err) (some n, s)).2.2.1 ↔
      Settled session.id s.1 (((Sessions.endSession self session .ended).commands elapsing s).drop n) := by
  obtain ⟨g, heq, hg⟩ := endSession_eq self session .ended
  rw [heq] at hn ⊢
  cases n with
  | zero =>
      change Over session.id s.1 ↔ _
      constructor
      · intro hover c hc
        rcases List.mem_cons.mp hc with rfl | hc
        · exact ⟨rfl, fun _ => hover⟩
        · exact ⟨(quiet_settled ((hg _ _).commands _ c hc) session.id).1, fun _ => hover⟩
      · intro hsettled
        exact (hsettled _ List.mem_cons_self).2 (decide_eq_true rfl)
  | succ n =>
      refine iff_of_true ?_ (settled_of_quiet (fun c hc => ?_) _ _)
      · exact kept_failing (J := Over session.id) (hg _ _) (fun _ _ h => h)
          (fun c w hc h => over_exec (.inl hc) h) (over_setNX _ _ _ _)
      · exact (hg _ _).commands _ c (List.mem_of_mem_drop hc)

/-- The world after the reactions is over where it was before them. -/
theorem settled_endSession_iff (id : SessionId) (h : session.id = id) {t : World × List Nat} :
    Settled id s.1 ((Sessions.endSession self session .ended).commands elapsing t) ↔
      Over id s.1 := by
  subst h
  obtain ⟨g, heq, hg⟩ := endSession_eq self session .ended
  rw [heq]
  constructor
  · intro hsettled
    exact (hsettled _ List.mem_cons_self).2 (decide_eq_true rfl)
  · intro hover c hc
    rcases List.mem_cons.mp hc with rfl | hc
    · exact ⟨rfl, fun _ => hover⟩
    · exact ⟨(quiet_settled ((hg _ _).commands _ c hc) session.id).1, fun _ => hover⟩

/-- What follows the records. -/
def finish (self : Instance) (sched : Schedules) (payload : HiveViolationPayload)
    (session : Session) (now : Nat) : Prog Unit :=
  (react sched payload session now).bind fun _ => Sessions.endSession self session .ended

theorem react_ok (sched : Schedules) (payload : HiveViolationPayload) (session : Session) (now : Nat)
    (s : World × List Nat) : ∃ a, ((react sched payload session now).run elapsing s).1 = .ok a := by
  have hanswers : ∀ c (t : World × List Nat), quiet c = true → True →
      (∃ a, (elapsing c t).1 = .ok a) ∧ True := fun c t hc _ => ⟨quiet_answers hc _, trivial⟩
  exact (quiet_react sched payload session now).run_ok hanswers trivial

theorem settled_append {w : World} {cs ds : List Cmd} :
    Settled id w (cs ++ ds) ↔ Settled id w cs ∧ Settled id w ds :=
  List.forall_mem_append

theorem settled_congr {w w' : World} (h : Over id w ↔ Over id w') {cs : List Cmd} :
    Settled id w cs ↔ Settled id w' cs := by
  unfold Settled
  simp only [h]

theorem finish_failing {now : Nat}
    (hn : n < ((finish self sched payload session now).commands elapsing s).length) :
    Over session.id
        ((finish self sched payload session now).run (failing elapsing err) (some n, s)).2.2.1 ↔
      Settled session.id s.1
        (((finish self sched payload session now).commands elapsing s).drop n) := by
  have hquiet : (react sched payload session now).Conforms (quiet · = true) True :=
    quiet_react sched payload session now
  obtain ⟨a, ha⟩ := react_ok sched payload session now s
  set t := ((react sched payload session now).run elapsing s).2 with ht
  have hrun : (react sched payload session now).run elapsing s = (.ok a, t) := Prod.ext ha rfl
  have hover : Over session.id s.1 ↔ Over session.id t.1 := (over_quiet_run hquiet).symm
  unfold finish at hn ⊢
  rw [Proc.commands_bind, hrun] at hn ⊢
  rw [Proc.run_bind]
  rcases Nat.lt_or_ge n ((react sched payload session now).commands elapsing s).length with hlt | hge
  · -- a reaction throws, and the session is not ended
    obtain ⟨e, he⟩ : ∃ e, ((react sched payload session now).run (failing elapsing err)
        (some n, s)).1 = .error e := (strict_react sched payload session now).run_failing hlt
    have hfailed : (react sched payload session now).run (failing elapsing err) (some n, s) =
        (.error e, ((react sched payload session now).run (failing elapsing err) (some n, s)).2) :=
      Prod.ext he rfl
    rw [hfailed, List.drop_append_of_le_length (Nat.le_of_lt hlt), settled_append]
    have hreacted : Settled session.id s.1
        (((react sched payload session now).commands elapsing s).drop n) :=
      settled_of_quiet (fun c hc => hquiet.commands _ c (List.mem_of_mem_drop hc)) _ _
    rw [and_iff_right hreacted]
    exact (over_quiet_failing hquiet).trans (settled_endSession_iff session.id rfl).symm
  · rw [Proc.run_failing_late _ hge, hrun, List.drop_append, List.drop_of_length_le hge,
      settled_congr hover]
    rw [List.length_append] at hn
    change n < _ + ((Sessions.endSession self session .ended).commands elapsing t).length at hn
    have hend : n - ((react sched payload session now).commands elapsing s).length <
        ((Sessions.endSession self session .ended).commands elapsing t).length := by omega
    exact endSession_failing hend

/-- Reactions and the end of the session record nothing. -/
theorem recordedFor_finish {now : Nat} {m : Option Nat} :
    recordedFor
        ((finish self sched payload session now).run (failing elapsing err) (m, s)).2.2.1 =
      recordedFor s.1 := by
  have hconforms : (finish self sched payload session now).Conforms
      (fun c => processes c ∧ records c = false) True := by
    have hquiet : ∀ c, quiet c = true → processes c ∧ records c = false :=
      fun c hc => ⟨.inl hc, (quiet_settled hc session.id).1⟩
    obtain ⟨g, heq, hg⟩ := endSession_eq self session .ended
    unfold finish
    rw [heq]
    exact ((quiet_react _ _ _ _).mono hquiet).bind fun _ =>
      (Proc.conforms_await ⟨.inr (.inr ⟨_, _, _, rfl⟩), rfl⟩).bind fun a => (hg a True).mono hquiet
  exact kept_failing (J := fun w => recordedFor w = recordedFor s.1) hconforms (fun _ _ h => h)
    (fun c w hc h => (recordedFor_exec hc.1 hc.2 w).trans h) rfl

theorem not_recorded {L ev : List UserId} {w w' : World}
    (hev : recordedFor w' = recordedFor w ++ ev) (hlt : ev.length < L.length) :
    ¬Recorded L w w' := by
  intro hrec
  have hsub : L.Subperm ev := by
    refine List.subperm_ext_iff.mpr fun u hu => ?_
    have hcount := hrec u hu
    rw [hev, List.count_append] at hcount
    omega
  have hle := hsub.length_le
  omega

theorem recorded_of_perm {L ev : List UserId} {w w' : World}
    (hev : recordedFor w' = recordedFor w ++ ev) (hperm : ev.Perm L) : Recorded L w w' := by
  intro u _
  rw [hev, List.count_append, hperm.count_eq]

theorem offenders_create (L : List UserId) :
    (L.map fun u => Cmd.db (.moderationEventCreate u)).filterMap offender = L := by
  induction L with
  | nil => rfl
  | cons u L ih => exact congrArg (u :: ·) ih

theorem records_create (L : List UserId) :
    ∀ c ∈ L.map fun u => Cmd.db (.moderationEventCreate u), records c = true := by
  intro c hc
  obtain ⟨u, -, rfl⟩ := List.mem_map.mp hc
  rfl

/-- What a stopped procedure leaves behind is all there should be, exactly
if no command that counts was still to come. -/
def StopsWell {α : Type} (L : List UserId) (id : SessionId) (p : Prog α) (s : World × List Nat) :
    Prop :=
  ∀ (n : Nat) (err : Err), n < (p.commands elapsing s).length →
    (Recorded L s.1 (p.run (failing elapsing err) (some n, s)).2.2.1 ∧
        Over id (p.run (failing elapsing err) (some n, s)).2.2.1 ↔
      Settled id s.1 ((p.commands elapsing s).drop n))

/-- With the records the punishment begins. -/
theorem stopsWell_record {L : List UserId} {now : Nat} :
    StopsWell L session.id ((recordAll sched L).bind fun _ =>
      finish self sched payload session now) s := by
  intro n err hn
  have hissues := issues_recordAll sched L
  have hperm := hissues.commands elapsing s
  have hlength : ((recordAll sched L).commands elapsing s).length = L.length := by
    rw [hperm.length_eq, List.length_map]
  have hover : Over session.id s.1 ↔ Over session.id ((recordAll sched L).run elapsing s).2.1 := by
    refine (over_congr (kept_run (J := fun w => w.stored _ = s.1.stored _) hissues.conforms
      (fun _ _ h => h) (fun c w hc h => ?_) rfl)).symm
    obtain ⟨u, -, rfl⟩ := List.mem_map.mp hc
    exact (Cmd.stored_exec (create_touches u _) w).trans h
  rw [Proc.commands_bind] at hn ⊢
  rcases Nat.lt_or_ge n L.length with hlt | hge
  · -- a record is missing, and its command is still to come
    obtain ⟨ev, hev, hshort⟩ : ∃ ev, recordedFor ((recordAll sched L).run (failing elapsing err)
          (some n, s)).2.2.1 = recordedFor s.1 ++ ev ∧ ev.length < _ :=
      recorded_failing hissues (records_create L) (by rwa [List.length_map])
    refine iff_of_false (fun h => ?_) fun h => ?_
    · rw [List.length_map] at hshort
      refine not_recorded ?_ hshort h.1
      rw [Proc.run_bind]
      generalize (recordAll sched L).run (failing elapsing err) (some n, s) = out at hev
      obtain ⟨r, m, t⟩ := out
      cases r with
      | error e => exact hev
      | ok a => exact recordedFor_finish.trans hev
    · have hnext : n < ((recordAll sched L).commands elapsing s).length := by rwa [hlength]
      rw [List.drop_append_of_le_length (Nat.le_of_lt hnext),
        List.drop_eq_getElem_cons hnext] at h
      have hmem := hperm.mem_iff.mp (List.getElem_mem hnext)
      have hrec := records_create L _ hmem
      rw [(h _ List.mem_cons_self).1] at hrec
      cases hrec
  · have hissued : ((recordAll sched L).commands elapsing s).length ≤ n := by rwa [hlength]
    cases hrun : (recordAll sched L).run elapsing s with
    | mk r t =>
        cases r with
        | error e =>
            rw [hrun, List.append_nil] at hn
            omega
        | ok a =>
            have husers := users_of_recorded hissues (records_create L) (strict_recordAll sched L)
              (congrArg Prod.fst hrun)
            obtain ⟨ev, hev, hevs⟩ : ∃ ev, recordedFor ((recordAll sched L).run elapsing s).2.1 =
                recordedFor s.1 ++ ev ∧ ev.Perm _ := recorded_run hissues (records_create L)
            rw [offenders_create] at husers hevs
            rw [List.filter_eq_self.mpr husers] at hevs
            rw [hrun] at hn hev hover
            rw [List.length_append] at hn
            change n < _ + ((finish self sched payload session now).commands elapsing t).length at hn
            have hfinish : n - ((recordAll sched L).commands elapsing s).length <
                ((finish self sched payload session now).commands elapsing t).length := by omega
            rw [Proc.run_bind, Proc.run_failing_late _ hissued, hrun, List.drop_append,
              List.drop_of_length_le hissued, settled_congr hover]
            exact (and_iff_right (recorded_of_perm (recordedFor_finish.trans hev) hevs)).trans
              (finish_failing hfinish)

/-- Before the records nothing is done. -/
theorem StopsWell.await {c : Cmd} {f : c.Res → Prog Unit} {L : List UserId} {a : c.Res}
    (hc : quiet c = true) (hanswer : (elapsing c s).1 = .ok a)
    (h : StopsWell L id (f a) (elapsing c s).2) (hL : L ≠ [])
    (hrec : ∃ x ∈ (f a).commands elapsing (elapsing c s).2, records x = true) :
    StopsWell L id ((Proc.await c).bind f) s := by
  have hbind : (Proc.await c).bind f = .call c fun r => (Proc.ret r).bind f := rfl
  have hcommands : ((Proc.await c).bind f).commands elapsing s =
      c :: (f a).commands elapsing (elapsing c s).2 := by
    rw [hbind, Proc.commands_call, hanswer, Proc.ret_ok_bind]
  have hstored : (elapsing c s).2.1.stored (.sessionEnded id) = s.1.stored (.sessionEnded id) :=
    Cmd.stored_exec (quiet_touches hc rfl) (s.1.env (.tick (s.2.headD 0)))
  have hevents : recordedFor (elapsing c s).2.1 = recordedFor s.1 :=
    recordedFor_exec (.inl hc) (quiet_settled hc id).1 (s.1.env (.tick (s.2.headD 0)))
  intro n err hn
  rw [hcommands] at hn ⊢
  cases n with
  | zero =>
      refine iff_of_false (fun hgood => ?_) fun hsettled => ?_
      · refine not_recorded (List.append_nil _).symm ?_ hgood.1
        exact List.length_pos_iff.mpr hL
      · obtain ⟨x, hx, hrecords⟩ := hrec
        rw [(hsettled x (List.mem_cons_of_mem _ hx)).1] at hrecords
        cases hrecords
  | succ n =>
      have hrun : ((Proc.await c).bind f).run (failing elapsing err) (some (n + 1), s) =
          (f a).run (failing elapsing err) (some n, (elapsing c s).2) := by
        have hstep : failing elapsing err c (some (n + 1), s) =
            (.ok a, some n, (elapsing c s).2) := by rw [← hanswer]; rfl
        rw [hbind, Proc.run_call, hstep, Proc.ret_ok_bind]
      have hstops := h n err (by simpa using hn)
      unfold Recorded at hstops ⊢
      rw [hevents, settled_congr (over_congr hstored)] at hstops
      rw [hrun, List.drop_succ_cons]
      exact hstops

theorem offendersOf_ne_nil (payload : HiveViolationPayload) (session : Session) :
    offendersOf payload session ≠ [] := by
  unfold offendersOf
  split <;> simp

theorem exists_record (now : Nat) :
    ∃ x ∈ ((recordAll sched (offendersOf payload session)).bind fun _ =>
      finish self sched payload session now).commands elapsing s, records x = true := by
  obtain ⟨u, L, hL⟩ := List.exists_cons_of_ne_nil (offendersOf_ne_nil payload session)
  have hperm := (issues_recordAll sched (offendersOf payload session)).commands elapsing s
  have hmem : Cmd.db (.moderationEventCreate u) ∈
      (recordAll sched (offendersOf payload session)).commands elapsing s := by
    rw [hperm.mem_iff, hL]
    exact List.mem_cons_self
  rw [Proc.commands_bind]
  exact ⟨_, List.mem_append_left _ hmem, rfl⟩

theorem stopsWell_punish :
    StopsWell (offendersOf payload session) session.id (punish self sched payload session) s := by
  rw [punish_eq]
  exact StopsWell.await rfl rfl stopsWell_record (offendersOf_ne_nil _ _) (exists_record _)

theorem exists_record_punish :
    ∃ x ∈ (punish self sched payload session).commands elapsing s, records x = true := by
  obtain ⟨x, hx, hrec⟩ := @exists_record self sched payload session
    (elapsing (.host .now) s).2 (s.1.env (.tick (s.2.headD 0))).clock
  rw [punish_eq]
  exact ⟨x, List.mem_cons_of_mem _ hx, hrec⟩

/-- The part of a delivery after its reservation. -/
theorem stopsWell_processDelivery (hviolates : isViolation payload = .ok true)
    (hsession : s.1.db.sessions.find? (·.id = id) = some session) :
    StopsWell (offendersOf payload session) id (processDelivery self sched payload id) s := by
  obtain rfl : session.id = id := by simpa using List.find?_some hsession
  have hanswer : (elapsing (.db (.sessionFindUnique session.id)) s).1 = .ok (some session) :=
    congrArg Except.ok hsession
  unfold processDelivery
  rw [hviolates]
  exact StopsWell.await rfl hanswer stopsWell_punish (offendersOf_ne_nil _ _) exists_record_punish

end Stops

/-! ## The reservation -/

section Reservation

variable {d : ViolationDelivery} {a : Attempt} {w : World}

theorem Attempt.handle_eq (a : Attempt) (d : ViolationDelivery) :
    a.handle d =
      (redis (.setNX d.key (.text "1") WEBHOOK_REPLAY_TTL_MS)).bind fun accepted =>
        if !accepted then pure () else processDelivery a.self a.sched d.payload d.sessionId := by
  unfold Attempt.handle handleWebhook
  rw [d.hasSessionId, d.hasSignature, d.hasTimestamp]
  rfl

/-- The world of an accepted delivery. -/
def reserve (d : ViolationDelivery) (a : Attempt) (w : World) : World :=
  (w.env (.tick (a.gaps.headD 0))).set d.key (.text "1") (some WEBHOOK_REPLAY_TTL_MS)

theorem setNX_accepted (h : (w.env (.tick (a.gaps.headD 0))).get d.key = none) :
    elapsing (.redis (.setNX d.key (.text "1") WEBHOOK_REPLAY_TTL_MS)) (w, a.gaps) =
      (.ok true, reserve d a w, a.gaps.tail) := by
  simp only [elapsing, Cmd.exec_redis, RedisCmd.exec, h]
  rfl

theorem setNX_rejected {r : RedisString} (h : (w.env (.tick (a.gaps.headD 0))).get d.key = some r) :
    elapsing (.redis (.setNX d.key (.text "1") WEBHOOK_REPLAY_TTL_MS)) (w, a.gaps) =
      (.ok false, w.env (.tick (a.gaps.headD 0)), a.gaps.tail) := by
  simp only [elapsing, Cmd.exec_redis, RedisCmd.exec, h]

/-- A delivery that is still reserved is answered and does nothing. -/
theorem run_rejected {r : RedisString} (h : (w.env (.tick (a.gaps.headD 0))).get d.key = some r) :
    a.run d w = (.ok (), w.env (.tick (a.gaps.headD 0))) := by
  unfold Attempt.run
  rw [a.handle_eq d, Proc.run_bind, Proc.run_await, setNX_rejected h]
  rfl

theorem run_accepted (h : (w.env (.tick (a.gaps.headD 0))).get d.key = none) :
    a.run d w =
      (((processDelivery a.self a.sched d.payload d.sessionId).run elapsing
          (reserve d a w, a.gaps.tail)).1,
        ((processDelivery a.self a.sched d.payload d.sessionId).run elapsing
          (reserve d a w, a.gaps.tail)).2.1) := by
  unfold Attempt.run
  rw [a.handle_eq d, Proc.run_bind, Proc.run_await, setNX_accepted h]
  rfl

theorem commands_accepted (h : (w.env (.tick (a.gaps.headD 0))).get d.key = none) :
    a.commands d w =
      .redis (.setNX d.key (.text "1") WEBHOOK_REPLAY_TTL_MS) ::
        (processDelivery a.self a.sched d.payload d.sessionId).commands elapsing
          (reserve d a w, a.gaps.tail) := by
  unfold Attempt.commands
  rw [a.handle_eq d, Proc.commands_bind, Proc.run_await, setNX_accepted h]
  rfl

theorem runFailing_accepted (h : (w.env (.tick (a.gaps.headD 0))).get d.key = none) (n : Nat)
    (err : Err) :
    a.runFailing d (n + 1) err w =
      ((processDelivery a.self a.sched d.payload d.sessionId).run (failing elapsing err)
        (some n, reserve d a w, a.gaps.tail)).2.2.1 := by
  unfold Attempt.runFailing
  have hstep : failing elapsing err (.redis (.setNX d.key (.text "1") WEBHOOK_REPLAY_TTL_MS))
      (some (n + 1), w, a.gaps) = (.ok true, some n, reserve d a w, a.gaps.tail) := by
    have hset := setNX_accepted h
    exact congrArg (fun out => (out.1, some n, out.2)) hset
  rw [a.handle_eq d, Proc.run_bind, Proc.run_await, hstep]
  rfl

/-- Processing, whatever it does, issues these commands only. -/
theorem processes_processDelivery (self : Instance) (sched : Schedules)
    (payload : HiveViolationPayload) (id : SessionId) :
    (processDelivery self sched payload id).Conforms processes True := by
  refine (processDelivery_issues self sched payload id).mono fun c hc => ?_
  cases hc with
  | find id => exact .inl rfl
  | punish h =>
      cases h with
      | record u => exact .inr (.inl ⟨u, rfl⟩)
      | act h => exact .inl (by cases h <;> rfl)
      | finish h =>
          cases h with
          | claim => exact .inr (.inr ⟨_, _, _, rfl⟩)
          | deadline h => exact .inl (by cases h <;> rfl)
          | _ => exact .inl rfl
      | _ => exact .inl rfl

/-- The users are those of `w`, and `u` has as many records as there. -/
def NoneFor (u : UserId) (w w' : World) : Prop :=
  w'.db.users = w.db.users ∧ (recordedFor w').count u = (recordedFor w).count u

/-- Nothing is recorded of a user there is not. -/
theorem noneFor_exec {u : UserId} {w' : World} (hu : ¬w.db.hasUser u = true) {c : Cmd}
    (hc : processes c) (h : NoneFor u w w') : NoneFor u w (c.exec w').2 := by
  refine ⟨(sameFor_exec hc w').users.trans h.1, ?_⟩
  rw [← h.2]
  cases hrec : records c with
  | false => rw [recordedFor_exec hc hrec]
  | true =>
      obtain ⟨v, rfl⟩ := eq_create_of_records hrec
      rw [recordedFor_create, List.count_append]
      split
      · next hv =>
          have hne : v ≠ u := by
            rintro rfl
            unfold Db.hasUser at hu hv
            rw [h.1] at hv
            exact hu hv
          simp [hne]
      · rfl

theorem noneFor_failing {u : UserId} (hu : ¬w.db.hasUser u = true) {α : Type} {p : Prog α}
    (hp : p.Conforms processes True) {err : Err} {m : Option Nat} {s : World × List Nat}
    (hs : NoneFor u w s.1) : NoneFor u w (p.run (failing elapsing err) (m, s)).2.2.1 :=
  kept_failing hp (fun _ _ h => h) (fun _ _ hc h => noneFor_exec hu hc h) hs

theorem noneFor_run {u : UserId} (hu : ¬w.db.hasUser u = true) {w' : World} (h : NoneFor u w w') :
    NoneFor u w (a.run d w').2 := by
  cases hget : (w'.env (.tick (a.gaps.headD 0))).get d.key with
  | some r =>
      rw [run_rejected hget]
      exact h
  | none =>
      rw [run_accepted hget]
      exact kept_run (processes_processDelivery _ _ _ _) (fun _ _ h => h)
        (fun _ _ hc h => noneFor_exec hu hc h) (s := (reserve d a w', a.gaps.tail)) h

theorem noneFor_redeliver {u : UserId} (hu : ¬w.db.hasUser u = true) {as : List Attempt}
    {w₁ w' : World} (h : NoneFor u w w₁) (hret : redeliver d as w₁ = some w') : NoneFor u w w' := by
  induction as generalizing w₁ with
  | nil => cases hret
  | cons a as ih =>
      have hrun := noneFor_run (a := a) (d := d) hu h
      rw [redeliver] at hret
      split at hret
      · next r w₂ heq =>
          rw [heq] at hrun
          cases hret
          exact hrun
      · next e w₂ heq =>
          rw [heq] at hrun
          exact ih hrun hret

theorem recordAll_ok {sched : Schedules} {L : List UserId} {s : World × List Nat}
    (husers : ∀ u ∈ L, s.1.db.hasUser u = true) :
    ∃ a, ((recordAll sched L).run elapsing s).1 = .ok a := by
  have hconforms : (recordAll sched L).Conforms
      (fun c => ∃ u ∈ L, c = .db (.moderationEventCreate u)) False := by
    refine Proc.Conforms.all _ fun p hp => ?_
    obtain ⟨u, hu, rfl⟩ := List.mem_map.mp hp
    exact Proc.conforms_await ⟨u, hu, rfl⟩
  refine hconforms.run_ok (J := fun t => t.1.db.hasUser = s.1.db.hasUser) (fun c t hc ht => ?_) rfl
  obtain ⟨u, hu, rfl⟩ := hc
  have hhas : (t.1.env (.tick (t.2.headD 0))).db.hasUser u = true := by
    change t.1.db.hasUser u = true
    rw [ht]
    exact husers u hu
  refine ⟨⟨(), ?_⟩, (hasUser_elapsing (.inr (.inl ⟨u, rfl⟩)) t).trans ht⟩
  simp only [elapsing, Cmd.exec_db, DbCmd.exec]
  rw [if_pos hhas]

theorem endSession_run (self : Instance) (session : Session) (s : World × List Nat) :
    (∃ a, ((Sessions.endSession self session .ended).run elapsing s).1 = .ok a) ∧
      Over session.id ((Sessions.endSession self session .ended).run elapsing s).2.1 := by
  have hanswers : ∀ c (t : World × List Nat), quiet c = true → True →
      (∃ a, (elapsing c t).1 = .ok a) ∧ True := fun c t hc _ => ⟨quiet_answers hc _, trivial⟩
  obtain ⟨g, heq, hg⟩ := endSession_eq self session .ended
  rw [heq, Proc.run_bind, Proc.run_await]
  refine ⟨(hg _ _).run_ok hanswers trivial, ?_⟩
  exact kept_run (hg _ _) (fun _ _ h => h) (fun c w hc h => over_exec (.inl hc) h)
    (over_setNX _ _ _ _)

theorem finish_run (self : Instance) (sched : Schedules) (payload : HiveViolationPayload)
    (session : Session) (now : Nat) (s : World × List Nat) :
    (∃ a, ((finish self sched payload session now).run elapsing s).1 = .ok a) ∧
      recordedFor ((finish self sched payload session now).run elapsing s).2.1 = recordedFor s.1 ∧
      Over session.id ((finish self sched payload session now).run elapsing s).2.1 := by
  have hevents : recordedFor ((finish self sched payload session now).run
      (failing elapsing (.prisma "")) (none, s)).2.2.1 = recordedFor s.1 := recordedFor_finish
  rw [Proc.run_failing_none] at hevents
  refine and_left_comm.mp ⟨hevents, ?_⟩
  obtain ⟨b, hb⟩ := react_ok sched payload session now s
  have hreact : (react sched payload session now).run elapsing s =
      (.ok b, ((react sched payload session now).run elapsing s).2) := Prod.ext hb rfl
  unfold finish
  rw [Proc.run_bind, hreact]
  exact endSession_run self session _

/-- A delivery in which nothing fails, of users there are. -/
theorem punish_run {self : Instance} {sched : Schedules} {payload : HiveViolationPayload}
    {session : Session} {s : World × List Nat}
    (husers : ∀ u ∈ offendersOf payload session, s.1.db.hasUser u = true) :
    (∃ a, ((punish self sched payload session).run elapsing s).1 = .ok a) ∧
      Recorded (offendersOf payload session) s.1
        ((punish self sched payload session).run elapsing s).2.1 ∧
      Over session.id ((punish self sched payload session).run elapsing s).2.1 := by
  set s₁ : World × List Nat := (s.1.env (.tick (s.2.headD 0)), s.2.tail) with hs₁
  have husers₁ : ∀ u ∈ offendersOf payload session, s₁.1.db.hasUser u = true := husers
  have hissues := issues_recordAll sched (offendersOf payload session)
  obtain ⟨a, ha⟩ : ∃ a, ((recordAll sched (offendersOf payload session)).run elapsing s₁).1 = .ok a :=
    recordAll_ok husers₁
  obtain ⟨ev, hev, hperm⟩ := recorded_run (s := s₁) hissues (records_create _)
  rw [offenders_create, List.filter_eq_self.mpr husers₁] at hperm
  have hrecord : (recordAll sched (offendersOf payload session)).run elapsing s₁ =
      (.ok a, ((recordAll sched (offendersOf payload session)).run elapsing s₁).2) :=
    Prod.ext ha rfl
  have hnow : elapsing (.host .now) s = (.ok s₁.1.clock, s₁) := rfl
  obtain ⟨hok, hevents, hover⟩ := finish_run self sched payload session s₁.1.clock
    ((recordAll sched (offendersOf payload session)).run elapsing s₁).2
  rw [punish_eq, Proc.run_bind, Proc.run_await, hnow]
  dsimp only
  rw [Proc.run_bind, hrecord]
  exact ⟨hok, recorded_of_perm (hevents.trans hev) hperm, hover⟩

end Reservation

/-! ## No violation is lost to a failure, except -/

section Retry

variable {d : ViolationDelivery} {w : World} {session : Session}

theorem processDelivery_run {self : Instance} {sched : Schedules} {s : World × List Nat}
    (hsession : s.1.db.sessions.find? (·.id = d.sessionId) = some session)
    (husers : ∀ u ∈ offendersOf d.payload session, s.1.db.hasUser u = true) :
    (∃ a, ((processDelivery self sched d.payload d.sessionId).run elapsing s).1 = .ok a) ∧
      Recorded (offendersOf d.payload session) s.1
        ((processDelivery self sched d.payload d.sessionId).run elapsing s).2.1 ∧
      Over d.sessionId ((processDelivery self sched d.payload d.sessionId).run elapsing s).2.1 := by
  have hid : session.id = d.sessionId := by simpa using List.find?_some hsession
  rw [← hid] at hsession ⊢
  have hfound : elapsing (.db (.sessionFindUnique session.id)) s =
      (.ok (some session), s.1.env (.tick (s.2.headD 0)), s.2.tail) :=
    Prod.ext (congrArg Except.ok hsession) rfl
  have hprocess : (processDelivery self sched d.payload session.id).run elapsing s =
      (punish self sched d.payload session).run elapsing
        (s.1.env (.tick (s.2.headD 0)), s.2.tail) := by
    unfold processDelivery
    rw [d.violates]
    change ((prisma (.sessionFindUnique session.id)).bind _).run elapsing s = _
    rw [Proc.run_bind, Proc.run_await, hfound]
  rw [hprocess]
  exact punish_run husers

/-- What the first attempt leaves behind. -/
theorem leaves_behind_iff (hsession : w.db.sessions.find? (·.id = d.sessionId) = some session)
    {first : Attempt} (haccepted : (w.env (.tick (first.gaps.headD 0))).get d.key = none) {n : Nat}
    (hn : 0 < n) (hreached : n < (first.commands d w).length) (err : Err) :
    Recorded (offendersOf d.payload session) w (first.runFailing d n err w) ∧
        Over d.sessionId (first.runFailing d n err w) ↔
      Settled d.sessionId w ((first.commands d w).drop n) := by
  obtain ⟨n, rfl⟩ : ∃ m, n = m + 1 := ⟨n - 1, by omega⟩
  have hstored : (reserve d first w).stored (.sessionEnded d.sessionId) =
      w.stored (.sessionEnded d.sessionId) := World.stored_set_ne (by simp [ViolationDelivery.key])
  have hstops : StopsWell (offendersOf d.payload session) d.sessionId
      (processDelivery first.self first.sched d.payload d.sessionId)
      (reserve d first w, first.gaps.tail) := stopsWell_processDelivery d.violates hsession
  rw [commands_accepted haccepted, List.length_cons] at hreached
  rw [commands_accepted haccepted, List.drop_succ_cons, runFailing_accepted haccepted n err,
    ← settled_congr (over_congr hstored)]
  exact hstops n err (by omega)

/-- The failure leaves the reservation, the users and the sessions as they
are. -/
theorem still_reserved {first : Attempt}
    (haccepted : (w.env (.tick (first.gaps.headD 0))).get d.key = none) {n : Nat} (hn : 0 < n)
    (err : Err) :
    (first.runFailing d n err w).stored d.key =
        some ⟨.text "1", some (first.reservesAt w + WEBHOOK_REPLAY_TTL_MS)⟩ ∧
      (first.runFailing d n err w).db.users = w.db.users ∧
      (first.runFailing d n err w).db.sessions = w.db.sessions := by
  obtain ⟨n, rfl⟩ : ∃ m, n = m + 1 := ⟨n - 1, by omega⟩
  rw [runFailing_accepted haccepted n err]
  have hsame : SameFor (reserve d first w)
      ((processDelivery first.self first.sched d.payload d.sessionId).run (failing elapsing err)
        (some n, reserve d first w, first.gaps.tail)).2.2.1 :=
    kept_failing (J := SameFor (reserve d first w)) (processes_processDelivery _ _ _ _)
      (fun _ _ h => ⟨h.users, h.sessions, h.reserved⟩)
      (fun _ _ hc h => h.trans (sameFor_exec hc _)) (.refl _)
  exact ⟨(hsame.reserved _ _).trans (World.stored_set_self _ _ _ _), hsame.users, hsame.sessions⟩

/-- Records stay. -/
theorem count_le_exec {c : Cmd} (hc : processes c) (w : World) (u : UserId) :
    (recordedFor w).count u ≤ (recordedFor (c.exec w).2).count u := by
  cases hrec : records c with
  | false => rw [recordedFor_exec hc hrec]
  | true =>
      obtain ⟨v, rfl⟩ := eq_create_of_records hrec
      rw [recordedFor_create, List.count_append]
      exact Nat.le_add_right _ _

theorem count_le_runFailing {first : Attempt}
    (haccepted : (w.env (.tick (first.gaps.headD 0))).get d.key = none) {n : Nat} (hn : 0 < n)
    (err : Err) (u : UserId) :
    (recordedFor w).count u ≤ (recordedFor (first.runFailing d n err w)).count u := by
  obtain ⟨n, rfl⟩ : ∃ m, n = m + 1 := ⟨n - 1, by omega⟩
  rw [runFailing_accepted haccepted n err]
  exact kept_failing (J := fun w' => (recordedFor w).count u ≤ (recordedFor w').count u)
    (processes_processDelivery _ _ _ _) (fun _ _ h => h)
    (fun _ w' hc h => Nat.le_trans h (count_le_exec hc w' u)) (Nat.le_refl _)

/-- A user there is not has no record to show. -/
theorem NoneFor.not_recorded {u : UserId} {L : List UserId} {w' : World} (h : NoneFor u w w')
    (hu : u ∈ L) : ¬Recorded L w w' := by
  intro hrec
  have hcount := hrec u hu
  have hpos := List.count_pos_iff.mpr hu
  rw [h.2] at hcount
  omega

/-- **A violation is not lost to a failure**, exactly if what counted had
been done when the command threw, or the reservation is gone when the
delivery comes again. -/
theorem violation_kept_iff (d : ViolationDelivery) {w : World} {session : Session}
    (hsession : w.db.sessions.find? (·.id = d.sessionId) = some session) (first : Attempt)
    (haccepted : (w.env (.tick (first.gaps.headD 0))).get d.key = none) {n : Nat} (hn : 0 < n)
    (hreached : n < (first.commands d w).length) (err : Err) {retry : Attempt}
    {rest : List Attempt} {w' : World}
    (hreturned : redeliver d (retry :: rest) (first.runFailing d n err w) = some w') :
    Recorded (offendersOf d.payload session) w w' ∧ Over d.sessionId w' ↔
      Settled d.sessionId w ((first.commands d w).drop n) ∨
        (∀ u ∈ offendersOf d.payload session, w.db.hasUser u = true) ∧
          first.reservesAt w + WEBHOOK_REPLAY_TTL_MS ≤
            retry.reservesAt (first.runFailing d n err w) := by
  have hleft := leaves_behind_iff hsession haccepted hn hreached err
  obtain ⟨hstored, husers, hsessions⟩ := still_reserved (d := d) haccepted hn err
  have hnone : ∀ u, ¬w.db.hasUser u = true → NoneFor u w (first.runFailing d n err w) := by
    intro u hu
    obtain ⟨m, rfl⟩ : ∃ m, n = m + 1 := ⟨n - 1, by omega⟩
    rw [runFailing_accepted haccepted m err]
    exact noneFor_failing hu (processes_processDelivery _ _ _ _) ⟨rfl, rfl⟩
  have hgrows := count_le_runFailing (d := d) haccepted hn err
  rw [← hleft]
  generalize first.runFailing d n err w = w₁ at *
  by_cases hall : ∀ u ∈ offendersOf d.payload session, w.db.hasUser u = true
  · rw [and_iff_right hall]
    by_cases hlate : first.reservesAt w + WEBHOOK_REPLAY_TTL_MS ≤ retry.reservesAt w₁
    · -- the redelivery is processed
      have hget : (w₁.env (.tick (retry.gaps.headD 0))).get d.key = none :=
        World.get_of_expired hstored hlate
      have hprocessed := @processDelivery_run d session retry.self retry.sched
        (reserve d retry w₁, retry.gaps.tail)
      rw [redeliver, run_accepted hget] at hreturned
      obtain ⟨⟨a, ha⟩, hrec, hover⟩ := hprocessed (hsessions ▸ hsession) fun u hu => by
        unfold Db.hasUser
        exact husers ▸ hall u hu
      rw [ha] at hreturned
      cases hreturned
      refine iff_of_true ⟨fun u hu => ?_, hover⟩ (.inr hlate)
      exact Nat.le_trans (Nat.add_le_add_right (hgrows u) _) (hrec u hu)
    · -- the redelivery is answered, and nothing is done
      have hget : (w₁.env (.tick (retry.gaps.headD 0))).get d.key = some (.text "1") :=
        World.get_of_stored hstored (Nat.lt_of_not_le hlate)
      rw [redeliver, run_rejected hget] at hreturned
      cases hreturned
      rw [or_iff_left hlate]
      exact Iff.rfl
  · obtain ⟨u, hu, hno⟩ : ∃ u, u ∈ offendersOf d.payload session ∧ ¬w.db.hasUser u = true := by
      simpa using hall
    refine iff_of_false (fun h => ?_) ?_
    · exact (noneFor_redeliver hno (hnone u hno) hreturned).not_recorded hu h.1
    · rintro (h | h)
      · exact (hnone u hno).not_recorded hu h.1
      · exact hall h.1

/-! ### A violation that is lost -/

/-- The violation of `violationBody`, with its signature. -/
def reportedViolation : ViolationDelivery where
  payload := violationConfig.parse violationBody
  delivery := ⟨some violationSignature, some "1000000000"⟩
  sessionId := "s"
  signature := violationSignature
  timestamp := "1000000000"
  hasSessionId := by decide
  hasSignature := by decide
  hasTimestamp := by decide
  violates := by decide

/-- The session of `ann` and `bob`. -/
def reportedSession : World :=
  let w := { World.peopled ["ann", "bob"] 1 with clock := 1000000000000 }
  { w with db := { w.db with sessions := [⟨"s", "ann", "bob", none, none, 1000000000000⟩] } }

/-- An attempt that comes after `wait` milliseconds. -/
def attemptAfter (wait : Nat) : Attempt := ⟨0, ⟨[], []⟩, [wait]⟩

/-- The session could not be read, and the violation is delivered again. -/
def redelivered (wait : Nat) : Option World :=
  redeliver reportedViolation [attemptAfter wait]
    ((attemptAfter 0).runFailing reportedViolation 1 (.prisma "P2024") reportedSession)

/-- After ten minutes it is processed. -/
theorem violation_kept_iff_tenMinutes :
    ∃ w', redelivered 600000 = some w' ∧ Recorded ["ann", "bob"] reportedSession w' ∧
      Over "s" w' := by
  have hreturned : (redelivered 600000).isSome = true := by decide +kernel
  obtain ⟨w', hw'⟩ := Option.isSome_iff_exists.mp hreturned
  have hsession : reportedSession.db.sessions.find? (·.id = "s") =
      some ⟨"s", "ann", "bob", none, none, 1000000000000⟩ := rfl
  refine ⟨w', hw', ?_⟩
  exact (violation_kept_iff reportedViolation hsession (attemptAfter 0) (by decide +kernel)
    (by decide) (by decide +kernel) (.prisma "P2024") hw').mpr (.inr ⟨by decide, by decide +kernel⟩)

/-- After a second it is answered, and lost. -/
theorem violation_lost :
    ∃ w', redelivered 1000 = some w' ∧
      ¬(Recorded ["ann", "bob"] reportedSession w' ∧ Over "s" w') := by
  have hreturned : (redelivered 1000).isSome = true := by decide +kernel
  have hlost : ∀ w' ∈ redelivered 1000,
      ¬(Recorded ["ann", "bob"] reportedSession w' ∧ Over "s" w') := by decide +kernel
  obtain ⟨w', hw'⟩ := Option.isSome_iff_exists.mp hreturned
  exact ⟨w', hw', hlost w' hw'⟩

end Retry

end VerityBackend.Moderation
