/-
VerityBackend.Mobile.QueueMatch — when the queue store of the mobile app
keeps a match.

`joinQueue` and `leaveQueue` write the store after their requests whatever
has happened in between, and `joinQueue` starts in every status but `joining`
and `waiting`. The server may match a user before it has answered the join,
and it answers a leave after the match too: `not_lasting_joined` is the
former. `match_lasts_iff`: a match is kept exactly if neither answer is
processed, and no join begins, while the server holds the user in it.
-/
import VerityBackend.Mobile.UseQueue

namespace VerityBackend.Mobile

open Async

variable {server : QueueServer} {cfg : RegionConfig}

/-- The store is matched in session `s`. -/
def MatchedIn (s : String) (q : QueueState) : Prop :=
  q.status = .matched ∧ q.match_.bind (·.sessionId) = some s

/-- The server holds the user as matched in session `s`. -/
def HeldIn (s : String) (w : QueueWorld server) : Prop := server.matched w.server = some s

instance (s : String) (q : QueueState) : Decidable (MatchedIn s q) :=
  inferInstanceAs (Decidable (_ ∧ _))

instance (s : String) (w : QueueWorld server) : Decidable (HeldIn s w) :=
  inferInstanceAs (Decidable (_ = _))

/-! ## The server's answers -/

/-- A request takes no match away, and a user who is matched is not refunded. -/
def Fair (server : QueueServer) (s : server.State) : QueueCmd → Prop
  | .postJoin region =>
      server.matched s = none ∨ server.matched (server.join region s).2 = server.matched s
  | .deleteLeave =>
      server.matched s = none ∨ (server.matched (server.leave s).2 = server.matched s ∧
        ∀ response ∈ (server.leave s).1.toOption,
          response.data.bind (·.refunded) ≠ some (.bool true))
  | _ => True

/-- Answers and match events agree with the server's state. -/
def Coherent (c : Config (useQueue server cfg)) :
    Event (useQueue server cfg) → Prop
  | .step i => ∀ cmd ∈ c.pending i, Fair server c.world.server cmd
  | .env (.matchFound payload) =>
      ∀ s ∈ server.matched c.world.server, payload.sessionId = some s
  | _ => True

/-- The store is not reset, and the server goes on holding the user in `s`. -/
def Holding (s : String) (c : Config (useQueue server cfg))
    (e : Event (useQueue server cfg)) : Prop :=
  HeldIn s (c.next e).world ∧ ∀ env, e = .env env → env ≠ .reset

/-- The commands that set the status to something else than `matched`. -/
def QueueCmd.overwrites : QueueCmd → Bool
  | .beginJoin | .settleJoin _ | .settleLeave => true
  | _ => false

/-- A join begins, or an answer to a join or a leave is processed. -/
def Overwrites (c : Config (useQueue server cfg)) :
    Event (useQueue server cfg) → Prop
  | .step i => (c.pending i).any QueueCmd.overwrites = true
  | _ => False

instance (server : QueueServer) (s : server.State) (cmd : QueueCmd) :
    Decidable (Fair server s cmd) :=
  match cmd with
  | .postJoin _ | .deleteLeave => inferInstanceAs (Decidable (_ ∨ _))
  | .beginJoin | .settleJoin _ | .beginLeave | .settleLeave | .readStatusRef => .isTrue trivial

instance (c : Config (useQueue server cfg)) (e : Event (useQueue server cfg)) :
    Decidable (Coherent c e) :=
  match e with
  | .step i => inferInstanceAs (Decidable (∀ cmd ∈ c.pending i, Fair server c.world.server cmd))
  | .env (.matchFound payload) => inferInstanceAs
      (Decidable (∀ s ∈ server.matched c.world.server, payload.sessionId = some s))
  | .start _ | .env (.estimate _) | .env (.status _) | .env .disconnect | .env (.markTokenSpent _)
  | .env .reset | .env .rendered | .env (.server _) => .isTrue trivial

instance (c : Config (useQueue server cfg)) (e : Event (useQueue server cfg)) :
    Decidable (Overwrites c e) :=
  match e with
  | .step i => inferInstanceAs (Decidable ((c.pending i).any QueueCmd.overwrites = true))
  | .start _ | .env _ => .isFalse id

/-- Client and server agree that the user is matched in session `s`. -/
def InMatch (s : String) (c : Config (useQueue server cfg)) : Prop :=
  MatchedIn s c.world.store ∧ HeldIn s c.world

instance (c : Config (useQueue server cfg)) : Decidable (∃ s, InMatch s c) :=
  decidable_of_iff (∃ s ∈ server.matched c.world.server, MatchedIn s c.world.store)
    ⟨fun ⟨s, hheld, hmatched⟩ => ⟨s, hmatched, hheld⟩, fun ⟨s, hmatched, hheld⟩ =>
      ⟨s, hheld, hmatched⟩⟩

/-! ## What becomes of a match -/

theorem MatchedIn.lost_joining {s : String} {q : QueueState} (h : MatchedIn s q) :
    ¬MatchedIn s q.beginJoin := by
  unfold QueueState.beginJoin
  rw [if_neg (by simp [h.1])]
  exact fun h => nomatch h.1

theorem not_matchedIn_settleJoin (s : String) (q : QueueState) (response : Response JoinData) :
    ¬MatchedIn s (q.settleJoin response) := by
  unfold QueueState.settleJoin
  split <;> exact fun h => nomatch h.1

/-- **Step lemma**: a match is kept unless the event overwrites it. -/
theorem matchedIn_next_iff {s : String} {c : Config (useQueue server cfg)}
    {e : Event (useQueue server cfg)} (hok : Coherent c e)
    (hmatched : MatchedIn s c.world.store) (hheld : HeldIn s c.world)
    (hreset : ∀ env, e = .env env → env ≠ .reset) :
    MatchedIn s (c.next e).world.store ↔ ¬Overwrites c e := by
  cases e with
  | start o => exact ⟨fun _ => id, fun _ => hmatched⟩
  | env e =>
      refine ⟨fun _ => id, fun _ => ?_⟩
      cases e with
      | reset => exact absurd rfl (hreset _ rfl)
      | matchFound payload => exact ⟨rfl, hok s hheld⟩
      | estimate payload => exact hmatched
      | status payload => exact hmatched
      | disconnect => exact hmatched
      | markTokenSpent spent => exact hmatched
      | rendered => exact hmatched
      | server f => exact hmatched
  | step i =>
      cases hp : c.pending i with
      | none =>
          rw [Config.next_step_of_pending_none hp]
          simp [Overwrites, hp, hmatched]
      | some cmd =>
          obtain ⟨op, k, hc⟩ := Config.pending_eq_some.mp hp
          rw [Config.next_step_of_call hc, Overwrites, hp, Option.any_some]
          cases cmd with
          | beginJoin => exact ⟨fun h => absurd h hmatched.lost_joining, fun h => absurd rfl h⟩
          | settleJoin response =>
              exact ⟨fun h => absurd h (not_matchedIn_settleJoin s _ response), fun h => absurd rfl h⟩
          | settleLeave =>
              exact ⟨fun h : MatchedIn s .initial => absurd h.1 (by decide), fun h => absurd rfl h⟩
          | postJoin region => exact ⟨fun _ => Bool.false_ne_true, fun _ => hmatched⟩
          | beginLeave => exact ⟨fun _ => Bool.false_ne_true, fun _ => hmatched⟩
          | deleteLeave => exact ⟨fun _ => Bool.false_ne_true, fun _ => hmatched⟩
          | readStatusRef => exact ⟨fun _ => Bool.false_ne_true, fun _ => hmatched⟩

/-- What overwrites the store is not a reset, and not seen by the server. -/
theorem Overwrites.holding {s : String} {c : Config (useQueue server cfg)}
    {e : Event (useQueue server cfg)} (h : Overwrites c e) (hheld : HeldIn s c.world) :
    Holding s c e := by
  cases e with
  | start o => exact h.elim
  | env e => exact h.elim
  | step i =>
      refine ⟨?_, nofun⟩
      cases hp : c.pending i with
      | none => rw [Config.next_step_of_pending_none hp]; exact hheld
      | some cmd =>
          obtain ⟨op, k, hc⟩ := Config.pending_eq_some.mp hp
          rw [Config.next_step_of_call hc]
          rw [Overwrites, hp, Option.any_some] at h
          cases cmd with
          | beginJoin => exact hheld
          | settleJoin response => exact hheld
          | settleLeave => exact hheld
          | _ => cases h

theorem Holding.heldIn_run {s : String} {es : List (Event (useQueue server cfg))}
    {c : Config (useQueue server cfg)} (h : HeldIn s c.world)
    (hes : c.Obeys (Holding s) es) : HeldIn s (c.run es).world :=
  Config.run_induct (P := fun c => HeldIn s c.world) (fun _ _ hkeep _ => hkeep.1) es c hes h

/-- A match is kept until `reset`, as long as the server holds the user in it,
exactly if nothing overwrites it. -/
theorem match_lasts_iff (server : QueueServer) (cfg : RegionConfig) (w : QueueWorld server)
    (es : List (Event (useQueue server cfg)))
    (hes : (Config.initial w : Config (useQueue server cfg)).Obeys Coherent es) :
    let c : Config (useQueue server cfg) := Config.initial w
    (∀ s es₁ es₂ es₃, es = es₁ ++ es₂ ++ es₃ →
      MatchedIn s (c.run es₁).world.store → HeldIn s (c.run es₁).world →
      (c.run es₁).Obeys (Holding s) es₂ → MatchedIn s (c.run (es₁ ++ es₂)).world.store) ↔
    c.Obeys (fun c e => (∃ s, InMatch s c) → ¬Overwrites c e) es := by
  intro c
  have hlasting : Config.Lasting InMatch Holding c es ↔
      c.Obeys (fun c e => ∀ s, InMatch s c → Holding s c e → ¬Overwrites c e) es := by
    refine Config.lasting_iff_obeys (I := fun _ => True) (fun _ _ _ _ => trivial) ?_ hes trivial
    rintro s c e hok - ⟨hmatched, hheld⟩ ⟨hheld', hreset⟩
    rw [← matchedIn_next_iff hok hmatched hheld hreset]
    exact ⟨fun h => h.1, fun h => ⟨h, hheld'⟩⟩
  constructor
  · intro h
    have hobeys := hlasting.mp fun s es₁ es₂ es₃ hsplit hin hhold =>
      ⟨h s es₁ es₂ es₃ hsplit hin.1 hin.2 hhold, by
        rw [Config.run_append]
        exact Holding.heldIn_run hin.2 hhold⟩
    refine hobeys.mono fun c e hkeeps ⟨s, hin⟩ hover => ?_
    exact hkeeps s hin (hover.holding hin.2) hover
  · intro h s es₁ es₂ es₃ hsplit hmatched hheld hhold
    have hobeys := hlasting.mpr (h.mono fun c e hkeeps s hin _ => hkeeps ⟨s, hin⟩)
    exact (hobeys s es₁ es₂ es₃ hsplit ⟨hmatched, hheld⟩ hhold).1

/-! ## One person and one server -/

/-- A server that answers every join and leave, and matches when it likes. -/
def plainQueueServer : QueueServer where
  State := Option String
  join _ matched := (.ok ⟨201, some ⟨some "queue"⟩⟩, matched)
  leave matched := (.ok ⟨200, some ⟨some (.bool (matched = none))⟩⟩, matched)
  matched := id

/-- Nobody is waiting for anything. -/
def homeScreen : QueueWorld plainQueueServer := ⟨.initial, .idle, none⟩

/-- A build for Australia, whose name is written in lower case. -/
def australia : RegionConfig := ⟨"au", fun s => s⟩

/-- Ann joins, is answered, and is matched. -/
theorem match_lasts_answered :
    let es : List (Event (useQueue plainQueueServer australia)) :=
      [.start (.joinQueue none), .step 0, .step 0, .step 0, .env (.server fun _ => some "s"),
        .env (.matchFound ⟨some "s", none, some "anon", some "queue", none⟩), .env .disconnect]
    let c : Config (useQueue plainQueueServer australia) := Config.initial homeScreen
    ∀ s es₁ es₂ es₃, es = es₁ ++ es₂ ++ es₃ →
      MatchedIn s (c.run es₁).world.store → HeldIn s (c.run es₁).world →
      (c.run es₁).Obeys (Holding s) es₂ → MatchedIn s (c.run (es₁ ++ es₂)).world.store :=
  (match_lasts_iff plainQueueServer australia homeScreen _ (by decide +kernel)).mpr (by decide +kernel)

/-- Ann is matched before the answer to her join arrives. -/
theorem not_lasting_joined :
    ¬∀ (server : QueueServer) (cfg : RegionConfig) (w : QueueWorld server)
        (es : List (Event (useQueue server cfg))),
      (Config.initial w : Config (useQueue server cfg)).Obeys Coherent es →
      let c : Config (useQueue server cfg) := Config.initial w
      ∀ s es₁ es₂ es₃, es = es₁ ++ es₂ ++ es₃ →
        MatchedIn s (c.run es₁).world.store → HeldIn s (c.run es₁).world →
        (c.run es₁).Obeys (Holding s) es₂ → MatchedIn s (c.run (es₁ ++ es₂)).world.store := by
  intro hall
  let es₁ : List (Event (useQueue plainQueueServer australia)) :=
    [.start (.joinQueue none), .step 0, .step 0, .env (.server fun _ => some "s"),
      .env (.matchFound ⟨some "s", none, some "anon", some "queue", none⟩)]
  have hlast := hall plainQueueServer australia homeScreen (es₁ ++ [.step 0]) (by decide +kernel) "s" es₁
    [.step 0] [] (by simp) (by decide +kernel) (by decide +kernel) ⟨⟨by decide +kernel, nofun⟩, trivial⟩
  revert hlast
  decide +kernel

end VerityBackend.Mobile
