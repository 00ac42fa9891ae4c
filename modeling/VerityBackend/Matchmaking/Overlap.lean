/-
VerityBackend.Matchmaking.Overlap — joins, leaves and the worker at the same
time.

What `Conduct` says of one call holds of every run in which no lock expires
while it is held and `leaveQueue` finds the user where it looks: no token is
lost, a user pays once, and a user who has left stays out. Each of the
conditions is needed, and the runs at the ends of the sections show why. A
lock that expires lets two calls charge one user, and the worker holds users
it has popped without a lock.
-/
import VerityBackend.Matchmaking.Duties

namespace VerityBackend.Matchmaking

open Async Store Queue

/-! ## Runs without a race -/

section Runs

variable {u : UserId} {st₀ : Stage}

/-- The lock of the user does not expire while a call holds it. -/
def LockKept (u : UserId) (c : Config queueService.system) (e : Env) : Prop :=
  ∀ i v, Holding u c.toSnap i v → ((c.world.env e).get (.queueLock u)).isSome

/-- If call `i` takes the user out of a set next, the user is in it. -/
def TakesOut (u : UserId) (c : Config queueService.system) (i : Nat) : Prop :=
  ∀ k, c.pending i = some (.redis (.zrem k u)) → u ∈ c.world.zset k

def Unraced (u : UserId) (c : Config queueService.system) : Event queueService.system → Prop
  | .start _ => True
  | .step i => TakesOut u c i
  | .env e => LockKept u c e

theorem governs (rows : UserId → Prop) {ok : Config queueService.system → Event queueService.system → Prop}
    {Q : (o : QueueOp) → Nat → Except Err o.Ret → Snap queueService.system → Prop}
    (hst : st₀.owner = none) (hrows : rows u) (hok : ∀ c e, ok c e → Unraced u c e)
    (hQ : ∀ o i r s, Returns u st₀ rows o i r s → Q o i r s) : (conduct u st₀ rows).Governs ok Q where
  start c o _ _ hown := by
    refine (owes_code hrows o fun howner => ?_).weaken (hQ o _)
    rcases owner_of_stage howner with h | ⟨e, he, hcall⟩
    · rw [hst] at h
      cases h
    · have hmem : e ∈ c.toSnap.own c.calls.length := List.mem_filter.mpr ⟨he, decide_eq_true hcall⟩
      rw [hown] at hmem
      cases hmem
  step c i o cmd k hstep hc _ k' hcmd := by
    refine hok c _ hstep k' ?_
    rw [Config.pending_of_call hc, hcmd]
  env c e henv hledger := ⟨hledger.env (hok c _ henv), fun _ => .env e⟩

theorem governs_unraced (hst : st₀.owner = none) : (conduct u st₀ (· = u)).Governs (Unraced u)
    (fun o i => Returns u st₀ (· = u) o i) :=
  governs _ hst rfl (fun _ _ h => h) fun _ _ _ _ h => h

/-- A user is out of the queue, or waits in one and has a row. -/
def Consistent (u : UserId) (w : World) : Prop :=
  Fits u .out w ∨ (∃ k, Fits u (.waiting k) w) ∧ (w.db.users u).isSome

theorem ledger_initial {rows : UserId → Prop} {w : World} (hfits : Fits u st₀ w) (hst : st₀.owner = none)
    (hknown : ∀ p, rows p → w.stored (.queueUser p) ≠ none → (w.db.users p).isSome) :
    Ledger u st₀ rows ⟨w, []⟩ where
  lock := .initial w
  fits := hfits
  locked i hi := by
    revert hi hst
    change st₀.owner = none → st₀.locked = some i → _
    cases st₀ <;> simp [Stage.owner, Stage.locked]
  known := hknown
  books := rfl
  seen h := by cases h

end Runs

/-! ## Joins of one user -/

section Joins

variable {u : UserId}

/-- Whatever is called is `joinQueue` of the user. -/
def Joins (u : UserId) : Event queueService.system → Bool
  | .start (.joinQueue p _) => p = u
  | .start _ => false
  | _ => true

/-- The lock of the user does not expire while a call holds it. -/
def Unhurried (u : UserId) (c : Config queueService.system) : Event queueService.system → Prop
  | .env e => LockKept u c e
  | _ => True

/-- The command takes nobody out of a set, creates no session and asks for no
match. -/
def Enters : Cmd → Prop
  | .redis (.zrem _ _) => False
  | .redis (.get (.queueMatched _)) => False
  | .db (.sessionCreate _ _ _ _) => False
  | _ => True

theorem enters_joinQueue (p : UserId) (input : QueueJoinInput) :
    (joinQueue p input).Conforms Enters True := by
  refine (joinQueue_issues p input).mono fun c h => ?_
  cases h with
  | lock h => cases h <;> trivial
  | _ => trivial

/-- What calls of an operation issue, as far as it matters here. -/
def Grants (o : QueueOp) (c : Cmd) : Prop := (∃ p input, o = .joinQueue p input) → Enters c

theorem grants_code (o : QueueOp) : o.code.Conforms (Grants o) True := by
  cases o with
  | joinQueue p input => exact (enters_joinQueue p input).mono fun _ h _ => h
  | leaveQueue p => exact (Proc.conforms_any _).mono fun _ _ ⟨_, _, h⟩ => by cases h
  | processQueueKey k => exact (Proc.conforms_any _).mono fun _ _ ⟨_, _, h⟩ => by cases h

/-- All calls so far are joins, and have issued what joins issue. -/
structure Entering (c : Config queueService.system) : Prop where
  issues : c.Issues Grants
  joins : ∀ t ∈ c.calls, ∃ p input, t.1 = .joinQueue p input

theorem Entering.next {c : Config queueService.system} {e : Event queueService.system}
    (h : Entering c) (hok : Joins u e = true) : Entering (c.next e) := by
  refine ⟨h.issues.next grants_code e, ?_⟩
  cases e with
  | start o =>
      intro t ht
      rcases List.mem_append.mp ht with ht | ht
      · exact h.joins t ht
      · rw [List.mem_singleton.mp ht]
        cases o with
        | joinQueue p input => exact ⟨p, input, rfl⟩
        | _ => cases hok
  | env e => exact h.joins
  | step i =>
      cases hp : c.pending i with
      | none => rw [Config.next_step_of_pending_none hp]; exact h.joins
      | some cmd =>
          obtain ⟨o, k, hc⟩ := Config.pending_eq_some.mp hp
          rw [Config.next_step_of_call hc]
          intro t ht
          rcases List.mem_or_eq_of_mem_set ht with ht | rfl
          · exact h.joins t ht
          · exact h.joins ⟨o, .call cmd k⟩ (List.mem_of_getElem? hc)

theorem Entering.unraced {c : Config queueService.system} {e : Event queueService.system}
    (h : Entering c) (hok : Unhurried u c e) : Unraced u c e := by
  cases e with
  | start o => trivial
  | env e => exact hok
  | step i =>
      intro k hp
      obtain ⟨o, f, hc⟩ := Config.pending_eq_some.mp hp
      have hmem := List.mem_of_getElem? hc
      exact ((h.issues.calls _ hmem).1 (h.joins _ hmem)).elim

/-- The commands executed are those of joins. -/
theorem Entering.trace {c : Config queueService.system} (h : Entering c) :
    ∀ e ∈ c.trace, Enters e.cmd := by
  intro e he
  obtain ⟨o, p, hget, hgrants⟩ := h.issues.trace e he
  exact hgrants (h.joins _ (List.mem_of_getElem? hget))

theorem Entering.initial (w : World) : Entering (Config.initial w) :=
  ⟨Config.issues_initial (S := queueService.system) Grants w, fun _ ht => by cases ht⟩

/-- Joins alone match nobody, and find nobody matched. -/
theorem Entering.idle {c : Config queueService.system} (h : Entering c) :
    creations c.toSnap u = 0 ∧ ¬Seen u c.toSnap := by
  constructor
  · refine List.countP_eq_zero.mpr fun e he hcreation => ?_
    have henters := h.trace e he
    obtain ⟨i, cmd, w⟩ := e
    cases cmd with
    | redis cmd => cases hcreation
    | host cmd => cases hcreation
    | db cmd =>
        cases cmd with
        | sessionCreate a b region q => exact henters
        | _ => cases hcreation
  · rintro ⟨e, he, hcmd, -⟩
    have henters := h.trace e he
    rw [hcmd] at henters
    exact henters

theorem Consistent.stage {w : World} (h : Consistent u w) :
    ∃ st₀ : Stage, Fits u st₀ w ∧ st₀.owner = none ∧
      ∀ p, p = u → w.stored (.queueUser p) ≠ none → (w.db.users p).isSome := by
  rcases h with hout | ⟨⟨k, hwaiting⟩, hrow⟩
  · refine ⟨.out, hout, rfl, ?_⟩
    rintro p rfl hstored
    exact absurd (hout.absent rfl) hstored
  · refine ⟨.waiting k, hwaiting, rfl, ?_⟩
    rintro p rfl -
    exact hrow

theorem Stage.weight_le_one (st : Stage) : st.weight ≤ 1 := by
  cases st <;> simp [Stage.weight]

/-- A user is in one set at most. -/
theorem Fits.unique {st : Stage} {w : World} (h : Fits u st w) {k k' : QueueKey} (hk : u ∈ w.zset k)
    (hk' : u ∈ w.zset k') : k = k' := by
  have heq := ((h.member k).mp hk).symm.trans ((h.member k').mp hk')
  exact Stage.waiting.inj heq

/-- **One charge and one queue.** If the lock of the user never expires while
a call holds it, concurrent joins of the user charge it once and put it into
one queue. -/
theorem charged_once {w : World} (hw : Consistent u w) {es : List (Event queueService.system)}
    (hjoins : ∀ e ∈ es, Joins u e = true) (hes : (Config.initial w).Obeys (Unhurried u) es) :
    let c := (Config.initial w).run es
    (∀ k k', u ∈ c.world.zset k → u ∈ c.world.zset k' → k = k') ∧
      debits c.toSnap u ≤ refunds c.toSnap u + 1 := by
  obtain ⟨st₀, hfits, hst, hknown⟩ := hw.stage
  have hboth := Config.obeys_and (Config.obeys_of_mem hjoins _) hes
  have hentering := Config.run_induct (fun c e hok h => Entering.next h hok.1) es _ hboth (.initial w)
  have hunraced := hboth.mono_of (fun c e hok h => Entering.next h hok.1)
    (fun c e h hok => h.unraced hok.2) (.initial w)
  have hledger := ((Discipline.sound_initial (ledger_initial hfits hst hknown)).run
    (governs_unraced hst) hunraced).inv
  refine ⟨fun k k' hk hk' => hledger.fits.unique hk hk', ?_⟩
  obtain ⟨hcreations, hseen⟩ := hentering.idle (u := u)
  have hforfeits : forfeitsOf u st₀ ((Config.initial w).run es).trace = 0 := by
    by_contra hne
    exact hseen (hledger.seen (Nat.pos_of_ne_zero hne))
  have hweight := Stage.weight_le_one (stage u st₀ ((Config.initial w).run es).toSnap)
  have hbooks := hledger.books
  omega

/-- `n` steps of call `i`. -/
def steps (i n : Nat) : List (Event queueService.system) := List.replicate n (.step i)

def joinsIn (u : UserId) (city : String) : Event queueService.system :=
  .start (.joinQueue u ⟨.str city, .undefined, "any"⟩)

theorem Fits.of_empty {w : World} (h : w.redis = .empty) : Fits u .out w where
  absent _ := by
    unfold World.stored
    rw [h]
    rfl
  present := nofun
  member k := by
    unfold World.zset
    rw [h]
    exact iff_of_false (SortedSet.not_mem_empty u) nofun

/-- Ann joins in two cities at once, and the second call finds the lock taken. -/
def joinsTwice : List (Event queueService.system) :=
  [joinsIn "ann" "sydney", joinsIn "ann" "perth"] ++ steps 0 3 ++ steps 1 4 ++ steps 0 7

/-- A run in which no time passes. -/
def timeless : Event queueService.system → Bool
  | .env _ => false
  | _ => true

theorem charged_once_joinsTwice :
    let c := (Config.initial (World.peopled ["ann"] 2)).run joinsTwice
    (∀ k k', "ann" ∈ c.world.zset k → "ann" ∈ c.world.zset k' → k = k') ∧
      debits c.toSnap "ann" ≤ refunds c.toSnap "ann" + 1 := by
  refine charged_once (.inl (.of_empty rfl)) (by decide) ?_
  refine (Config.obeys_of_mem (P := timeless) (by decide) _).mono fun c e he => ?_
  cases e with
  | env e => cases he
  | _ => trivial

/-- The same joins, and the lock of the first call expires before its debit. -/
def joinsLate : List (Event queueService.system) :=
  [joinsIn "ann" "sydney", joinsIn "ann" "perth"] ++ steps 0 4 ++ [.env (.tick 3000)] ++ steps 1 10 ++
    steps 0 6

theorem charged_twice : ¬∀ (u : UserId) (w : World), Consistent u w →
    ∀ es : List (Event queueService.system), (∀ e ∈ es, Joins u e = true) →
      let c := (Config.initial w).run es
      c.Quiet → (∀ k k', u ∈ c.world.zset k → u ∈ c.world.zset k' → k = k') ∧
        debits c.toSnap u ≤ refunds c.toSnap u + 1 := by
  intro h
  obtain ⟨-, hcharge⟩ := h "ann" (World.peopled ["ann"] 2) (.inl (.of_empty rfl)) joinsLate
    (by decide) (by decide +kernel)
  revert hcharge
  decide +kernel

end Joins

/-! ## Tokens -/

section Tokens

variable {u : UserId} {st₀ : Stage}

/-- No call finds a user matched. -/
def Unmatched (c : Config queueService.system) : Event queueService.system → Prop
  | .step i => ∀ p, c.pending i = some (.redis (.get (.queueMatched p))) →
      truthy (c.world.get (.queueMatched p)) = false
  | _ => True

theorem not_seen_run {w : World} {es : List (Event queueService.system)}
    (hes : (Config.initial w).Obeys Unmatched es) : ¬Seen u ((Config.initial w).run es).toSnap := by
  refine Config.run_induct (P := fun c => ¬Seen u c.toSnap) (fun c e hok hseen => ?_) es _ hes ?_
  · cases e with
    | start o => exact hseen
    | env e => exact hseen
    | step i =>
        cases hp : c.pending i with
        | none => rw [Config.next_step_of_pending_none hp]; exact hseen
        | some cmd =>
            obtain ⟨o, k, hc⟩ := Config.pending_eq_some.mp hp
            rw [Config.next_step_of_call hc]
            rintro ⟨e, he, hcmd, htruthy⟩
            rcases List.mem_cons.mp he with rfl | he
            · rw [hok u (hp.trans (congrArg some hcmd))] at htruthy
              cases htruthy
            · exact hseen ⟨e, he, hcmd, htruthy⟩
  · rintro ⟨e, he, -⟩
    cases he

/-- Nobody is in the middle of something. -/
theorem Stage.settled_of_owner {st : Stage} (h : st.owner = none) :
    st = .out ∨ ∃ k, st = .waiting k := by
  cases st with
  | out => exact .inl rfl
  | waiting k => exact .inr ⟨k, rfl⟩
  | _ => cases h

/-- Where no call is in flight, no user is with a call. -/
theorem owner_of_quiet {c : Config queueService.system} (hquiet : c.Quiet) (hindexed : c.Indexed)
    (hst : st₀.owner = none)
    (hdone : ∀ i o r, c.Settled i o r → (stage u st₀ c.toSnap).owner ≠ some i) :
    (stage u st₀ c.toSnap).owner = none := by
  cases howner : (stage u st₀ c.toSnap).owner with
  | none => rfl
  | some i =>
      rcases owner_of_stage howner with h | ⟨e, he, rfl⟩
      · rw [hst] at h
        cases h
      · obtain ⟨o, r, hsettled⟩ := hquiet.settled (hindexed e he)
        exact absurd howner (hdone _ o r hsettled)

/-- **No token is lost.** From an empty queue, where `leaveQueue` always finds
the user where it looks and never finds it matched, and no lock expires while
it is held: whenever no call is in flight, every token taken was given back,
went into a session, or is of a user who waits. -/
theorem tokens_balance {w : World} (hw : ∀ u, Fits u .out w) {es : List (Event queueService.system)}
    (hes : (Config.initial w).Obeys (fun c e => (∀ u, Unraced u c e) ∧ Unmatched c e) es) :
    let c := (Config.initial w).run es
    c.Quiet → ∀ u,
      (∀ k, u ∈ c.world.zset k → debits c.toSnap u = refunds c.toSnap u + creations c.toSnap u + 1) ∧
        ((∀ k, u ∉ c.world.zset k) → debits c.toSnap u = refunds c.toSnap u + creations c.toSnap u) := by
  intro c hquiet u
  have hknown (p : UserId) (_ : True) (hstored : w.stored (.queueUser p) ≠ none) :
      (w.db.users p).isSome := absurd ((hw p).absent rfl) hstored
  obtain ⟨hsound, hdone⟩ := (governs (fun _ => True) (Q := fun _ i _ s =>
    (stage u .out s).owner ≠ some i) rfl trivial (fun c e hok => hok.1 u)
      fun o i r s h => h.1 fun _ => trivial).sound_run
        (fun o i r s s' hkeep => hkeep.foreign) (ledger_initial (hw u) rfl hknown) hes
  have hledger := hsound.inv
  have howner : (stage u .out c.toSnap).owner = none := owner_of_quiet hquiet hsound.indexed rfl hdone
  have hseen : ¬Seen u c.toSnap := not_seen_run (hes.mono fun _ _ h => h.2)
  have hforfeits : forfeitsOf u .out c.trace = 0 := by
    by_contra hne
    exact hseen (hledger.seen (Nat.pos_of_ne_zero hne))
  have hbooks : debits c.toSnap u + 0 = refunds c.toSnap u + creations c.toSnap u +
      forfeitsOf u .out c.trace + (stage u .out c.toSnap).weight := hledger.books
  refine ⟨fun k hk => ?_, fun hnot => ?_⟩
  · have hwaiting : stage u .out c.toSnap = .waiting k := (hledger.fits.member k).mp hk
    have hweight : (stage u .out c.toSnap).weight = 1 := by rw [hwaiting]; rfl
    omega
  · have hout : stage u .out c.toSnap = .out := by
      refine (Stage.settled_of_owner howner).resolve_right ?_
      rintro ⟨k, hk⟩
      exact hnot k ((hledger.fits.member k).mpr hk)
    have hweight : (stage u .out c.toSnap).weight = 0 := by rw [hout]; rfl
    omega

def joinsAny (u : UserId) : Event queueService.system :=
  .start (.joinQueue u ⟨.undefined, .undefined, "any"⟩)

/-- Three users join, two are matched, and the third one leaves. -/
def joinsThree : List (Event queueService.system) :=
  [joinsAny "ann", joinsAny "bob", joinsAny "cid"] ++ steps 0 10 ++ steps 1 10 ++ steps 2 10 ++
    [.start (.processQueueKey "canberra:any")] ++ steps 3 40 ++ [.start (.leaveQueue "cid")] ++ steps 4 12

/-- The next event of a run without a race, checked. -/
def unracedNow (c : Config queueService.system) : Event queueService.system → Bool
  | .start _ => true
  | .env _ => false
  | .step i =>
      match c.pending i with
      | some (.redis (.zrem k p)) => p ∈ c.world.zset k
      | some (.redis (.get (.queueMatched p))) => !truthy (c.world.get (.queueMatched p))
      | _ => true

theorem unraced_of_now {c : Config queueService.system} {e : Event queueService.system}
    (h : unracedNow c e = true) : (∀ u, Unraced u c e) ∧ Unmatched c e := by
  cases e with
  | start o => exact ⟨fun _ => trivial, trivial⟩
  | env e => cases h
  | step i =>
      refine ⟨fun u k hp => ?_, fun p hp => ?_⟩
      · simp only [unracedNow, hp] at h
        exact of_decide_eq_true h
      · simp only [unracedNow, hp] at h
        simpa using h

theorem tokens_balance_joinsThree :
    let c := (Config.initial (World.peopled ["ann", "bob", "cid"] 1)).run joinsThree
    c.Quiet ∧ ∀ u,
      (∀ k, u ∈ c.world.zset k → debits c.toSnap u = refunds c.toSnap u + creations c.toSnap u + 1) ∧
        ((∀ k, u ∉ c.world.zset k) → debits c.toSnap u = refunds c.toSnap u + creations c.toSnap u) := by
  have hquiet : ((Config.initial (World.peopled ["ann", "bob", "cid"] 1)).run joinsThree).Quiet := by
    decide +kernel
  have hnow : (Config.initial (World.peopled ["ann", "bob", "cid"] 1)).Obeys
      (fun c e => unracedNow c e = true) joinsThree := by decide +kernel
  exact ⟨hquiet, tokens_balance (fun _ => .of_empty rfl) (hnow.mono fun _ _ => unraced_of_now) hquiet⟩

/-- The worker pops Ann, who waits alone, Ann leaves, the worker puts Ann back,
and Ann joins again. -/
def leavesPopped : List (Event queueService.system) :=
  [joinsAny "ann"] ++ steps 0 10 ++ [.start (.processQueueKey "canberra:any")] ++ steps 1 2 ++
    [.start (.leaveQueue "ann")] ++ steps 2 12 ++ steps 1 20 ++ [joinsAny "ann"] ++ steps 3 10

theorem lockKept_of_timeless {es : List (Event queueService.system)} (h : ∀ e ∈ es, timeless e = true)
    (c : Config queueService.system) : c.Obeys (fun c e => ∀ u, Unhurried u c e) es := by
  refine (Config.obeys_of_mem h c).mono fun c e he u => ?_
  cases e with
  | env e => cases he
  | _ => trivial

theorem creations_le_one {s : Snap queueService.system}
    (h : s.trace.countP (fun e => match e.cmd with | .db (.sessionCreate _ _ _ _) => true | _ => false) ≤ 1)
    (u : UserId) : creations s u ≤ 1 := by
  refine Nat.le_trans (List.countP_mono_left fun e _ hcreation => ?_) h
  obtain ⟨i, cmd, w⟩ := e
  cases cmd with
  | redis cmd => cases hcreation
  | host cmd => cases hcreation
  | db cmd => cases cmd <;> first | rfl | cases hcreation

theorem token_lost : ¬∀ w : World, (∀ u, Fits u .out w) → ∀ es : List (Event queueService.system),
    (Config.initial w).Obeys (fun c e => ∀ u, Unhurried u c e) es →
      let c := (Config.initial w).run es
      (∀ u, creations c.toSnap u ≤ 1) → c.Quiet → ∀ u,
        (∀ k, u ∈ c.world.zset k → debits c.toSnap u = refunds c.toSnap u + creations c.toSnap u + 1) ∧
          ((∀ k, u ∉ c.world.zset k) → debits c.toSnap u = refunds c.toSnap u + creations c.toSnap u) := by
  intro h
  have hann := (h (World.peopled ["ann"] 2) (fun _ => .of_empty rfl) leavesPopped
    (lockKept_of_timeless (by decide) _) (creations_le_one (by decide +kernel)) (by decide +kernel) "ann").1
  have hbalance := hann "canberra:any" (by decide +kernel)
  revert hbalance
  decide +kernel

end Tokens

/-! ## Leaving is final -/

section Leaving

variable {u : UserId} {st₀ : Stage}

/-- What call `i`, a `leaveQueue` of the user, has returned. -/
def leaveStatus (u : UserId) (c : Config queueService.system) (i : Nat) : Option LeaveStatus :=
  match c.calls[i]? with
  | some ⟨.leaveQueue p, .ret (.ok result)⟩ => if p = u then some result.status else none
  | _ => none

theorem settled_of_leaveStatus {c : Config queueService.system} {i : Nat} {status : LeaveStatus}
    (h : leaveStatus u c i = some status) :
    ∃ result, c.Settled i (.leaveQueue u) (.ok result) ∧ result.status = status := by
  unfold leaveStatus at h
  split at h
  · next p result hc =>
      split at h
      · next hp =>
          subst hp
          exact ⟨result, hc, Option.some.inj h⟩
      · cases h
  · cases h

/-- The next step of call `i` makes `leaveQueue` of the user return that the
user has left, or was not in the queue. -/
def LeavesNext (u : UserId) (c : Config queueService.system) (i : Nat) : Prop :=
  (c.pending i).isSome ∧ (leaveStatus u (c.next (.step i)) i = some .left ∨
    leaveStatus u (c.next (.step i)) i = some .not_queued)

instance (c : Config queueService.system) (i : Nat) : Decidable (LeavesNext u c i) :=
  inferInstanceAs (Decidable (_ ∧ _))

/-- The operation is `joinQueue` of the user. -/
def isJoin (u : UserId) : QueueOp → Bool
  | .joinQueue p _ => p = u
  | _ => false

/-- No `joinQueue` of the user is in flight. -/
def NoJoin (u : UserId) (c : Config queueService.system) : Prop :=
  ∀ t ∈ c.calls, isJoin u t.1 = true → Config.returned t = true

instance (c : Config queueService.system) : Decidable (NoJoin u c) :=
  inferInstanceAs (Decidable (∀ t ∈ c.calls, _ → _))

def startsJoin (u : UserId) : Event queueService.system → Bool
  | .start o => isJoin u o
  | _ => false

theorem NoJoin.next {c : Config queueService.system} {e : Event queueService.system}
    (h : NoJoin u c) (he : startsJoin u e = false) : NoJoin u (c.next e) := by
  cases e with
  | env e => exact h
  | start o =>
      intro t ht hjoin
      rcases List.mem_append.mp ht with ht | ht
      · exact h t ht hjoin
      · rw [List.mem_singleton.mp ht] at hjoin
        cases he.symm.trans hjoin
  | step i =>
      cases hp : c.pending i with
      | none => rw [Config.next_step_of_pending_none hp]; exact h
      | some cmd =>
          obtain ⟨o, k, hc⟩ := Config.pending_eq_some.mp hp
          rw [Config.next_step_of_call hc]
          intro t ht hjoin
          rcases List.mem_or_eq_of_mem_set ht with ht | rfl
          · exact h t ht hjoin
          · cases h ⟨o, .call cmd k⟩ (List.mem_of_getElem? hc) hjoin

/-- What holds of the user from then on. -/
structure Gone (u : UserId) (st₀ : Stage) (n : Nat) (c : Config queueService.system) : Prop where
  sound : (conduct u st₀ (· = u)).Sound (fun o i => Returns u st₀ (· = u) o i) c
  out : stage u st₀ c.toSnap = .out
  creations : creations c.toSnap u = n
  noJoin : NoJoin u c

/-- **Step lemma**: nobody brings a user back who does not join. -/
theorem Gone.next {n : Nat} {c : Config queueService.system} {e : Event queueService.system}
    (hst : st₀.owner = none) (h : Gone u st₀ n c) (hok : Unraced u c e) (he : startsJoin u e = false) :
    Gone u st₀ n (c.next e) := by
  have hgoverns := governs_unraced (u := u) hst
  have hsound := h.sound.next hgoverns hok
  have hnoJoin := h.noJoin.next he
  cases e with
  | start o => exact ⟨hsound, h.out, h.creations, hnoJoin⟩
  | env e => exact ⟨hsound, h.out, h.creations, hnoJoin⟩
  | step i =>
      cases hp : c.pending i with
      | none => rw [Config.next_step_of_pending_none hp]; exact h
      | some cmd =>
          obtain ⟨o, k, hc⟩ := Config.pending_eq_some.mp hp
          have hkeeps := (h.sound.keeps hgoverns hok hc).1
          have hstays : stage u st₀ (c.toSnap.exec i cmd) = .out ∧
              Matchmaking.creations (c.toSnap.exec i cmd) u = Matchmaking.creations c.toSnap u := by
            refine (hkeeps.guar h.out).resolve_right ?_
            rintro ⟨input, rfl⟩
            cases h.noJoin ⟨_, .call cmd k⟩ (List.mem_of_getElem? hc) (decide_eq_true rfl)
          rw [Config.next_step_of_call hc] at hsound hnoJoin ⊢
          exact ⟨hsound, hstays.1, hstays.2.trans h.creations, hnoJoin⟩

/-- **Leaving is final.** If `leaveQueue` finds the user in the set it names,
and the lock of the user does not expire while it is held: once `leaveQueue`
has returned, the user is in no set and in no new session until it joins
again. -/
theorem left_for_good {w : World} (hw : Consistent u w) {es₁ es₂ : List (Event queueService.system)}
    {i : Nat} (hes : (Config.initial w).Obeys (Unraced u) (es₁ ++ .step i :: es₂))
    (hleaves : LeavesNext u ((Config.initial w).run es₁) i)
    (hnoJoin : NoJoin u ((Config.initial w).run es₁)) (hjoins : ∀ e ∈ es₂, startsJoin u e = false) :
    let c := (Config.initial w).run es₁
    let c' := (Config.initial w).run (es₁ ++ .step i :: es₂)
    (∀ k, u ∉ c'.world.zset k) ∧ creations c'.toSnap u = creations (c.next (.step i)).toSnap u := by
  obtain ⟨st₀, hfits, hst, hknown⟩ := hw.stage
  have hgoverns := governs_unraced (u := u) hst
  rw [Config.obeys_append] at hes
  obtain ⟨hes₁, hstep, hes₂⟩ := hes
  have hsound := (Discipline.sound_initial (ledger_initial hfits hst hknown)).run hgoverns hes₁
  rw [Config.run_append]
  obtain ⟨hpending, hleft⟩ := hleaves
  obtain ⟨result, hsettled, hstatus⟩ : ∃ result : QueueLeaveResult,
      (((Config.initial w).run es₁).next (.step i)).Settled i (.leaveQueue u) (.ok result) ∧
        result.status ≠ .already_matched := by
    rcases hleft with hleft | hleft
    all_goals
      obtain ⟨result, hsettled, hstatus⟩ := settled_of_leaveStatus hleft
      exact ⟨result, hsettled, by rw [hstatus]; nofun⟩
  obtain ⟨cmd, hpending⟩ := Option.isSome_iff_exists.mp hpending
  obtain ⟨o, k, hc⟩ := Config.pending_eq_some.mp hpending
  have hout : stage u st₀ (((Config.initial w).run es₁).next (.step i)).toSnap = .out := by
    have ho : o = .leaveQueue u := by
      have hset := hsettled
      rw [Config.next_step_of_call hc] at hset
      have hlt := (List.getElem?_eq_some_iff.mp hc).1
      simp only [Config.Settled, List.getElem?_set_self hlt] at hset
      exact (task_inj hset).1
    subst ho
    have hreturns := hsound.settles hgoverns hstep hc hsettled
    exact hreturns.2 rfl hstatus
  have hgone : Gone u st₀ (creations (((Config.initial w).run es₁).next (.step i)).toSnap u)
      (((Config.initial w).run es₁).next (.step i)) :=
    ⟨hsound.next hgoverns hstep, hout, rfl, hnoJoin.next rfl⟩
  have hboth := Config.obeys_and hes₂
    (Config.obeys_of_mem (P := fun e => !startsJoin u e) (fun e he => by rw [hjoins e he]; rfl) _)
  have hend := Config.run_induct (fun c e hok h => Gone.next hst h hok.1 (by simpa using hok.2)) es₂ _
    hboth hgone
  refine ⟨fun k hk => ?_, hend.creations⟩
  have hwaiting := (hend.sound.inv.fits.member k).mp hk
  rw [hend.out] at hwaiting
  cases hwaiting

/-- Ann joins, is popped and put back alone, leaves, and Bob joins. -/
def leavesWaiting : List (Event queueService.system) :=
  [joinsAny "ann"] ++ steps 0 10 ++ [.start (.processQueueKey "canberra:any")] ++ steps 1 20 ++
    [.start (.leaveQueue "ann")] ++ steps 2 10

def bobJoins : List (Event queueService.system) :=
  [joinsAny "bob"] ++ steps 3 10 ++ [.start (.processQueueKey "canberra:any")] ++ steps 4 20

theorem left_for_good_leavesWaiting :
    let c := (Config.initial (World.peopled ["ann", "bob"] 1)).run leavesWaiting
    let c' := (Config.initial (World.peopled ["ann", "bob"] 1)).run (leavesWaiting ++ .step 2 :: bobJoins)
    (∀ k, "ann" ∉ c'.world.zset k) ∧ creations c'.toSnap "ann" = creations (c.next (.step 2)).toSnap "ann" := by
  have hnow : (Config.initial (World.peopled ["ann", "bob"] 1)).Obeys (fun c e => unracedNow c e = true)
      (leavesWaiting ++ .step 2 :: bobJoins) := by decide +kernel
  exact left_for_good (.inl (.of_empty rfl)) (hnow.mono fun _ _ h => (unraced_of_now h).1 "ann")
    (by decide +kernel) (by decide +kernel) (by decide)

/-- Ann and Bob join, the worker pops them and reads their entries, Ann leaves,
and the worker creates the session. -/
def leavesValidated : List (Event queueService.system) :=
  [joinsAny "ann", joinsAny "bob"] ++ steps 0 10 ++ steps 1 10 ++
    [.start (.processQueueKey "canberra:any")] ++ steps 2 3 ++ [.start (.leaveQueue "ann")] ++ steps 3 9

theorem matched_after_leaving : ¬∀ (u : UserId) (w : World), Consistent u w →
    ∀ (es₁ es₂ : List (Event queueService.system)) (i : Nat),
      (Config.initial w).Obeys (fun c e => ∀ u, Unhurried u c e) (es₁ ++ .step i :: es₂) →
        let c := (Config.initial w).run es₁
        let c' := (Config.initial w).run (es₁ ++ .step i :: es₂)
        LeavesNext u c i → NoJoin u c → (∀ e ∈ es₂, startsJoin u e = false) →
          (∀ k, u ∉ c'.world.zset k) ∧ creations c'.toSnap u = creations (c.next (.step i)).toSnap u := by
  intro h
  have hann := (h "ann" (World.peopled ["ann", "bob"] 1) (.inl (.of_empty rfl)) leavesValidated
    (steps 2 12) 3 (lockKept_of_timeless (by decide) _) (by decide +kernel)
    (by decide +kernel) (by decide)).2
  revert hann
  decide +kernel

end Leaving

end VerityBackend.Matchmaking
