/-
VerityBackend.Moderation.Rulings — several moderators on one appeal.

`resolveAppeal` reads the appeal, checks that it is open, and writes it with
a second statement that checks nothing. `ruledOnce` says that calls on one
ban appeal amount to a single ruling as long as nobody reads the appeal
between the first reading and the first ruling; `not_ruledOnce_both` is the
run in which two moderators do.
-/
import VerityBackend.Async.Interleaving
import VerityBackend.Moderation.Appeals

namespace VerityBackend.Moderation

open Async

/-- A call of `resolveAppeal`. -/
structure Ruling where
  resolverUserId : UserId
  resolution : Resolution
  deriving DecidableEq, Repr

/-- Any number of calls on one appeal. -/
abbrev rulings (appealId : String) : System where
  Cmd := AppealCmd
  Res := AppealCmd.Res
  Err := Err
  World := Docket
  exec := AppealCmd.exec
  Op := Ruling
  Ret := fun _ => ModerationAppeal
  code := fun r => resolveAppeal r.resolverUserId appealId r.resolution
  Env := Env
  env := fun e d => { d with world := d.world.env e }

variable {appealId : String} {user : UserId}

def alreadyResolved : Err := .badRequest "Appeal is already resolved"

/-- What a command sends. -/
def AppealCmd.outputs : AppealCmd → List Output
  | .backend (.host (.emit os)) => os
  | _ => []

def isResolvedEvent : Output → Bool
  | .track _ name _ => name == "safety_appeal_resolved"
  | _ => false

/-- The `safety_appeal_resolved` events sent so far. -/
def resolvedEvents (trace : List (Entry (rulings appealId))) : Nat :=
  (trace.flatMap fun e => AppealCmd.outputs e.cmd).countP isResolvedEvent

/-- The ban key of the user has been deleted. -/
def BanDeleted (user : UserId) (trace : List (Entry (rulings appealId))) : Prop :=
  ∃ e ∈ trace, e.cmd = .backend (.redis (.del [.moderationBan user]))

/-- What is stored is this resolution. -/
def Stored (d : Docket) (appealId : String) (resolution : Resolution) : Prop :=
  ∃ a, d.findAppeal appealId = some a ∧ a.resolution = some resolution

/-- One call has ruled, the others have been told so. -/
structure RuledOnce (user : UserId) (c : Config (rulings appealId)) : Prop where
  returned : ∃ i r a, c.Settled i r (.ok a) ∧
    ∀ j t, c.calls[j]? = some t → j = i ∨ t.2 = .ret (.error alreadyResolved)
  event : resolvedEvents c.trace = 1
  lifted : BanDeleted user c.trace ↔ Stored c.world appealId .overturned

/-- The appeal is there and not resolved. -/
def IsOpen (d : Docket) (appealId : String) : Prop :=
  ∃ a, d.findAppeal appealId = some a ∧ a.status = "OPEN"

instance (d : Docket) (appealId : String) : Decidable (IsOpen d appealId) :=
  decidable_of_iff ((d.findAppeal appealId).any (·.status == "OPEN") = true) (by
    simp [IsOpen, Option.any_eq_true])

/-- The command is the one `resolveAppeal` starts with. -/
def AppealCmd.reads : AppealCmd → Bool
  | .appealFindUnique _ => true
  | _ => false

/-- Nobody reads an open appeal that somebody has read before. -/
def ReadAlone (c : Config (rulings appealId)) : Event (rulings appealId) → Prop
  | .step i => (c.pending i).any AppealCmd.reads = true → IsOpen c.world appealId →
      ∀ e ∈ c.trace, AppealCmd.reads e.cmd = false
  | _ => True

instance (c : Config (rulings appealId)) (e : Event (rulings appealId)) : Decidable (ReadAlone c e) :=
  match e with
  | .step i => inferInstanceAs (Decidable ((c.pending i).any AppealCmd.reads = true →
      IsOpen c.world appealId → ∀ e ∈ c.trace, AppealCmd.reads e.cmd = false))
  | .start _ | .env _ => .isTrue trivial

/-! ## One ruling -/

section Steps

/-- What the commands executed so far amount to. -/
structure Ledger (user : UserId) (lifted : Prop) (events : Nat) (s : Snap (rulings appealId)) :
    Prop where
  read : ∃ e ∈ s.trace, AppealCmd.reads e.cmd = true
  lifted : BanDeleted user s.trace ↔ lifted
  events : resolvedEvents s.trace = events

variable {s : Snap (rulings appealId)} {lifted : Prop} {events : Nat} {i : Nat} {c : AppealCmd}

theorem resolvedEvents_cons (e : Entry (rulings appealId)) (trace : List (Entry (rulings appealId))) :
    resolvedEvents (e :: trace) =
      (AppealCmd.outputs e.cmd).countP isResolvedEvent + resolvedEvents trace := by
  simp only [resolvedEvents, List.flatMap_cons, List.countP_append]

theorem banDeleted_cons (e : Entry (rulings appealId)) (trace : List (Entry (rulings appealId))) :
    BanDeleted user (e :: trace) ↔
      e.cmd = .backend (.redis (.del [.moderationBan user])) ∨ BanDeleted user trace := by
  simp only [BanDeleted, List.mem_cons, exists_eq_or_imp]

/-- A command that neither sends anything nor deletes the key. -/
theorem Ledger.exec (h : Ledger user lifted events s) (hsends : AppealCmd.outputs c = [])
    (hkeeps : c ≠ .backend (.redis (.del [.moderationBan user]))) :
    Ledger user lifted events (s.exec i c) where
  read := by
    obtain ⟨e, he, hcmd⟩ := h.read
    exact ⟨e, List.mem_cons_of_mem _ he, hcmd⟩
  lifted := by
    rw [Snap.exec_trace, banDeleted_cons, ← h.lifted]
    exact or_iff_right hkeeps
  events := by
    rw [Snap.exec_trace, resolvedEvents_cons, h.events, hsends]
    exact Nat.zero_add _

theorem Ledger.delete (h : Ledger user False events s) :
    Ledger user True events (s.exec i (.backend (.redis (.del [.moderationBan user])))) where
  read := by
    obtain ⟨e, he, hcmd⟩ := h.read
    exact ⟨e, List.mem_cons_of_mem _ he, hcmd⟩
  lifted := by
    rw [Snap.exec_trace, banDeleted_cons]
    exact iff_of_true (.inl rfl) trivial
  events := by
    rw [Snap.exec_trace, resolvedEvents_cons, h.events]
    exact Nat.zero_add _

theorem Ledger.announce (h : Ledger user lifted 0 s) (existing : ModerationAppeal)
    (resolution : Resolution) (resolvedAt : Nat) :
    Ledger user lifted 1 (s.exec i
      (.backend (.host (.emit [appealResolvedEvent existing resolution resolvedAt])))) where
  read := by
    obtain ⟨e, he, hcmd⟩ := h.read
    exact ⟨e, List.mem_cons_of_mem _ he, hcmd⟩
  lifted := by
    rw [Snap.exec_trace, banDeleted_cons, ← h.lifted]
    exact or_iff_right (by simp)
  events := by
    rw [Snap.exec_trace, resolvedEvents_cons, h.events]
    rfl

/-- The end of `concludeAppeal`. -/
def announce (existing : ModerationAppeal) (resolution : Resolution) (resolvedAt : Nat)
    (updated : ModerationAppeal) : AppealProg ModerationAppeal := do
  backend (.host (.emit [appealResolvedEvent existing resolution resolvedAt]))
  pure updated

/-- What follows the update. -/
def settle (existing : ModerationAppeal) (resolution : Resolution) (resolvedAt : Nat)
    (updated : ModerationAppeal) : AppealProg ModerationAppeal := do
  if resolution = .overturned ∧ existing.actionType = .ban then
    backend (.redis (.del [.moderationBan existing.userId]))
  else pure ()
  announce existing resolution resolvedAt updated

/-- The update and what follows it. -/
def rule (r : Ruling) (existing : ModerationAppeal) (resolvedAt : Nat) :
    AppealProg ModerationAppeal := do
  let updated ← appealTable (.appealUpdate existing.id (appealStatus r.resolution) r.resolution
    resolvedAt r.resolverUserId)
  settle existing r.resolution resolvedAt updated

/-- An open ban appeal of the user. -/
structure BanAppeal (appealId : String) (user : UserId) (a : ModerationAppeal) : Prop where
  id : a.id = appealId
  userId : a.userId = user
  actionType : a.actionType = .ban

/-- The call that has read the appeal while it was open: before its ruling
the appeal is open, afterwards it is not. -/
inductive Deciding (appealId : String) (user : UserId) (r : Ruling) :
    AppealProg ModerationAppeal → Snap (rulings appealId) → Prop
  | read {existing : ModerationAppeal} {s : Snap (rulings appealId)} (hban : BanAppeal appealId user existing) (hopen : IsOpen s.world appealId)
      (hledger : Ledger user False 0 s) :
      Deciding appealId user r
        ((backend (.host .now)).bind fun resolvedAt => rule r existing resolvedAt) s
  | ruling {existing : ModerationAppeal} {s : Snap (rulings appealId)} (resolvedAt : Nat) (hban : BanAppeal appealId user existing)
      (hopen : IsOpen s.world appealId) (hledger : Ledger user False 0 s) :
      Deciding appealId user r (rule r existing resolvedAt) s
  | lifting {existing : ModerationAppeal} {s : Snap (rulings appealId)} (resolvedAt : Nat) (updated : ModerationAppeal)
      (hban : BanAppeal appealId user existing) (hclosed : ¬IsOpen s.world appealId)
      (hstored : Stored s.world appealId r.resolution) (hledger : Ledger user False 0 s)
      (hoverturned : r.resolution = .overturned) :
      Deciding appealId user r
        ((backend (.redis (.del [.moderationBan user]))).bind fun _ =>
          announce existing r.resolution resolvedAt updated) s
  | announcing {existing : ModerationAppeal} {s : Snap (rulings appealId)} (resolvedAt : Nat) (updated : ModerationAppeal)
      (hclosed : ¬IsOpen s.world appealId) (hstored : Stored s.world appealId r.resolution)
      (hledger : Ledger user (r.resolution = .overturned) 0 s) :
      Deciding appealId user r (announce existing r.resolution resolvedAt updated) s
  | returned {s : Snap (rulings appealId)} (updated : ModerationAppeal) (hclosed : ¬IsOpen s.world appealId)
      (hstored : Stored s.world appealId r.resolution)
      (hledger : Ledger user (r.resolution = .overturned) 1 s) :
      Deciding appealId user r (.ret (.ok updated)) s

/-- The ruling is what is stored afterwards. -/
theorem stored_update {d : Docket} (h : IsOpen d appealId) {id : String} (hid : id = appealId)
    (r : Ruling) (resolvedAt : Nat) :
    ∃ a d', AppealCmd.exec (.appealUpdate id (appealStatus r.resolution) r.resolution
        resolvedAt r.resolverUserId) d = (.ok a, d') ∧
      ¬IsOpen d' appealId ∧ Stored d' appealId r.resolution := by
  subst hid
  obtain ⟨a, ha, -⟩ := h
  set resolve := fun b : ModerationAppeal =>
    b.resolve (appealStatus r.resolution) r.resolution resolvedAt r.resolverUserId with hresolve
  set d' : Docket := { d with appeals := d.appeals.map fun b => if b.id = id then resolve b else b }
    with hd'
  have hfind : d'.findAppeal id = some (resolve a) := by
    unfold Docket.findAppeal at ha ⊢
    rw [hd', List.find?_map]
    have hid : ((fun b : ModerationAppeal => decide (b.id = id)) ∘
        fun b => if b.id = id then resolve b else b) = fun b => decide (b.id = id) := by
      funext b
      by_cases hb : b.id = id
      · simp only [Function.comp_apply, if_pos hb]
        rfl
      · simp only [Function.comp_apply, if_neg hb]
    have hsame : a.id = id := by simpa using List.find?_some ha
    rw [hid, ha, Option.map_some, if_pos hsame]
  refine ⟨resolve a, d', ?_, ?_, resolve a, hfind, rfl⟩
  · simp only [AppealCmd.exec, ha, hd', hresolve]
  · rintro ⟨b, hb, hstatus⟩
    rw [hfind] at hb
    cases hb
    have hne : appealStatus r.resolution ≠ "OPEN" := by
      cases r.resolution <;> simp [appealStatus]
    exact hne hstatus

theorem settle_overturned {existing : ModerationAppeal} (hban : BanAppeal appealId user existing)
    (resolvedAt : Nat) (updated : ModerationAppeal) :
    settle existing .overturned resolvedAt updated =
      (backend (.redis (.del [.moderationBan user]))).bind fun _ =>
        announce existing .overturned resolvedAt updated := by
  unfold settle
  rw [if_pos ⟨rfl, hban.actionType⟩, hban.userId]
  rfl

theorem settle_upheld (existing : ModerationAppeal) (resolvedAt : Nat) (updated : ModerationAppeal) :
    settle existing .upheld resolvedAt updated = announce existing .upheld resolvedAt updated := by
  unfold settle
  rw [if_neg (by simp)]

/-- The ruling is stored, and an overturned ban still to be lifted. -/
theorem Deciding.settle {r : Ruling} {existing : ModerationAppeal} (resolvedAt : Nat)
    (updated : ModerationAppeal) (hban : BanAppeal appealId user existing)
    (hclosed : ¬IsOpen s.world appealId) (hstored : Stored s.world appealId r.resolution)
    (hledger : Ledger user False 0 s) :
    Deciding appealId user r (settle existing r.resolution resolvedAt updated) s := by
  obtain ⟨resolverUserId, resolution⟩ := r
  cases resolution with
  | overturned =>
      rw [settle_overturned hban]
      exact .lifting resolvedAt updated hban hclosed hstored hledger rfl
  | upheld =>
      rw [settle_upheld]
      refine .announcing resolvedAt updated hclosed hstored ?_
      rw [eq_false (by simp : (Resolution.upheld : Resolution) ≠ .overturned)]
      exact hledger

/-- **Step lemma** for the call that decides. -/
theorem Deciding.step {r : Ruling} {p : AppealProg ModerationAppeal}
    (h : Deciding appealId user r p s) {cmd : AppealCmd}
    {k : Except Err cmd.Res → AppealProg ModerationAppeal} (hp : p = .call cmd k) (i : Nat) :
    Deciding appealId user r (k (cmd.exec s.world).1) (s.exec i cmd) := by
  cases h with
  | read hban hopen hledger =>
      cases hp
      exact .ruling s.world.world.clock hban hopen (hledger.exec rfl (by simp))
  | ruling resolvedAt hban hopen hledger =>
      cases hp
      obtain ⟨a, d', hrun, hclosed, hstored⟩ := stored_update hopen hban.id r resolvedAt
      rw [congrArg Prod.fst hrun]
      refine .settle resolvedAt a hban ?_ ?_ (hledger.exec rfl (by simp))
      · rw [Snap.exec_world, congrArg Prod.snd hrun]
        exact hclosed
      · rw [Snap.exec_world, congrArg Prod.snd hrun]
        exact hstored
  | lifting resolvedAt updated hban hclosed hstored hledger hoverturned =>
      cases hp
      refine .announcing resolvedAt updated hclosed hstored ?_
      rw [eq_true hoverturned]
      exact hledger.delete
  | announcing resolvedAt updated hclosed hstored hledger =>
      cases hp
      exact .returned updated hclosed hstored (hledger.announce _ _ _)
  | returned updated hclosed hstored hledger => cases hp

/-- What others do while the call decides. -/
theorem Deciding.others {r : Ruling} {p : AppealProg ModerationAppeal} {s' : Snap (rulings appealId)}
    (h : Deciding appealId user r p s) (happeals : s'.world.appeals = s.world.appeals)
    (hledger : ∀ {lifted events}, Ledger user lifted events s → Ledger user lifted events s') :
    Deciding appealId user r p s' := by
  have hopen : IsOpen s'.world appealId ↔ IsOpen s.world appealId := by
    unfold IsOpen Docket.findAppeal
    rw [happeals]
  have hstored (resolution) : Stored s'.world appealId resolution ↔
      Stored s.world appealId resolution := by
    unfold Stored Docket.findAppeal
    rw [happeals]
  cases h with
  | read hban h hl => exact .read hban (hopen.mpr h) (hledger hl)
  | ruling resolvedAt hban h hl => exact .ruling resolvedAt hban (hopen.mpr h) (hledger hl)
  | lifting resolvedAt updated hban h hs hl hoverturned =>
      exact .lifting resolvedAt updated hban (mt hopen.mp h) ((hstored _).mpr hs) (hledger hl)
        hoverturned
  | announcing resolvedAt updated h hs hl =>
      exact .announcing resolvedAt updated (mt hopen.mp h) ((hstored _).mpr hs) (hledger hl)
  | returned updated h hs hl =>
      exact .returned updated (mt hopen.mp h) ((hstored _).mpr hs) (hledger hl)

/-- Once somebody decides, the appeal is there, and read. -/
theorem Deciding.found {r : Ruling} {p : AppealProg ModerationAppeal}
    (h : Deciding appealId user r p s) :
    (∃ a, s.world.findAppeal appealId = some a) ∧
      ∃ e ∈ s.trace, AppealCmd.reads e.cmd = true := by
  cases h with
  | read _ hopen hl | ruling _ _ hopen hl =>
      obtain ⟨a, ha, -⟩ := hopen
      exact ⟨⟨a, ha⟩, hl.read⟩
  | lifting _ _ _ _ hs hl | announcing _ _ _ hs hl | returned _ _ hs hl =>
      obtain ⟨a, ha, -⟩ := hs
      exact ⟨⟨a, ha⟩, hl.read⟩

end Steps

/-! ## Runs -/

section Runs

/-- Nothing of this call has been executed. -/
def Waiting (t : Task (rulings appealId)) : Prop :=
  t.2 = resolveAppeal t.1.resolverUserId appealId t.1.resolution

/-- Nobody has read the appeal, or one call decides and the others are turned away. -/
inductive Proceeds (user : UserId) (c : Config (rulings appealId)) : Prop
  | unread (a : ModerationAppeal) (hfind : c.world.findAppeal appealId = some a)
      (hban : BanAppeal appealId user a) (hopen : a.status = "OPEN") (htrace : c.trace = [])
      (hwaiting : ∀ t ∈ c.calls, Waiting t)
  | decided (i : Nat) (r : Ruling) (p : AppealProg ModerationAppeal)
      (hcall : c.calls[i]? = some ⟨r, p⟩) (hdeciding : Deciding appealId user r p c.toSnap)
      (hothers : ∀ j t, j ≠ i → c.calls[j]? = some t →
        Waiting t ∨ t.2 = .ret (.error alreadyResolved))

variable {c : Config (rulings appealId)}

/-- A call that finds the appeal open. -/
theorem resolve_open {r : Ruling} {d : Docket} {a : ModerationAppeal}
    (h : d.findAppeal appealId = some a) (hopen : a.status = "OPEN") :
    ∃ k, resolveAppeal r.resolverUserId appealId r.resolution =
        .call (.appealFindUnique appealId) k ∧
      k (AppealCmd.exec (.appealFindUnique appealId) d).1 =
        (backend (.host .now)).bind fun resolvedAt => rule r a resolvedAt := by
  refine ⟨_, rfl, ?_⟩
  simp only [AppealCmd.exec, h]
  change concludeAppeal r.resolverUserId r.resolution a = _
  unfold concludeAppeal
  rw [if_neg (not_not_intro hopen)]
  rfl

/-- A call that finds it resolved. -/
theorem resolve_closed {r : Ruling} {d : Docket} {a : ModerationAppeal}
    (h : d.findAppeal appealId = some a) (hclosed : a.status ≠ "OPEN") :
    ∃ k, resolveAppeal r.resolverUserId appealId r.resolution =
        .call (.appealFindUnique appealId) k ∧
      k (AppealCmd.exec (.appealFindUnique appealId) d).1 = .ret (.error alreadyResolved) := by
  refine ⟨_, rfl, ?_⟩
  simp only [AppealCmd.exec, h]
  change concludeAppeal r.resolverUserId r.resolution a = _
  unfold concludeAppeal
  rw [if_pos hclosed]
  rfl

/-- The first command of a call that waits. -/
theorem Waiting.call {o : Ruling} {cmd : AppealCmd}
    {k : Except Err cmd.Res → AppealProg ModerationAppeal}
    (h : Waiting (⟨o, .call cmd k⟩ : Task (rulings appealId))) {k' d}
    (hcode : resolveAppeal o.resolverUserId appealId o.resolution =
      .call (.appealFindUnique appealId) k') {p : AppealProg ModerationAppeal}
    (hnext : k' (AppealCmd.exec (.appealFindUnique appealId) d).1 = p) :
    cmd = .appealFindUnique appealId ∧ k (cmd.exec d).1 = p := by
  have hcall : Proc.call cmd k = .call (.appealFindUnique appealId) k' := h.trans hcode
  cases hcall
  exact ⟨rfl, hnext⟩

/-- The first reader becomes the one who decides. -/
theorem proceeds_first {a : ModerationAppeal} (hfind : c.world.findAppeal appealId = some a)
    (hban : BanAppeal appealId user a) (hopen : a.status = "OPEN") (htrace : c.trace = [])
    (hwaiting : ∀ t ∈ c.calls, Waiting t) (i : Nat) : Proceeds user (c.next (.step i)) := by
  cases hp : c.pending i with
  | none =>
      rw [Config.next_step_of_pending_none hp]
      exact .unread a hfind hban hopen htrace hwaiting
  | some cmd =>
      obtain ⟨o, k, hcall⟩ := Config.pending_eq_some.mp hp
      obtain ⟨k', hcode, hnext⟩ := resolve_open (r := o) hfind hopen
      obtain ⟨rfl, hread⟩ := (hwaiting _ (List.mem_of_getElem? hcall)).call hcode hnext
      have hlt := (List.getElem?_eq_some_iff.mp hcall).1
      rw [Config.next_step_of_call hcall]
      refine .decided i o _ (List.getElem?_set_self hlt) ?_ fun j t hj ht => ?_
      · rw [hread]
        refine .read hban ⟨a, hfind, hopen⟩ ⟨⟨_, List.mem_cons_self, rfl⟩, ?_, ?_⟩
        · rw [Snap.exec_trace, banDeleted_cons, htrace]
          simp [BanDeleted]
        · rw [Snap.exec_trace, resolvedEvents_cons, htrace]
          rfl
      · rw [List.getElem?_set_ne (Ne.symm hj)] at ht
        exact .inl (hwaiting t (List.mem_of_getElem? ht))

/-- Whoever comes later is turned away. -/
theorem proceeds_later {i : Nat} {r : Ruling} {p : AppealProg ModerationAppeal}
    (hcall : c.calls[i]? = some ⟨r, p⟩) (hdeciding : Deciding appealId user r p c.toSnap)
    (hothers : ∀ j t, j ≠ i → c.calls[j]? = some t →
      Waiting t ∨ t.2 = .ret (.error alreadyResolved)) {j : Nat} (hok : ReadAlone c (.step j)) :
    Proceeds user (c.next (.step j)) := by
  cases hp : c.pending j with
  | none =>
      rw [Config.next_step_of_pending_none hp]
      exact .decided i r p hcall hdeciding hothers
  | some cmd =>
      obtain ⟨o, k, hj⟩ := Config.pending_eq_some.mp hp
      have hlt := (List.getElem?_eq_some_iff.mp hj).1
      rw [Config.next_step_of_call hj]
      by_cases hij : j = i
      · subst hij
        rw [hcall] at hj
        obtain ⟨rfl, hsame⟩ := task_inj (S := rulings appealId) hj
        obtain rfl := eq_of_heq hsame
        refine .decided j r _ (List.getElem?_set_self hlt) (hdeciding.step rfl j) ?_
        intro l t hl ht
        rw [List.getElem?_set_ne (Ne.symm hl)] at ht
        exact hothers l t hl ht
      · obtain ⟨⟨a, ha⟩, x, hx, hxcmd⟩ := hdeciding.found
        have hwaits : Waiting (⟨o, .call cmd k⟩ : Task (rulings appealId)) := by
          rcases hothers j _ hij hj with hwaits | hrefused
          · exact hwaits
          · cases hrefused
        have hread : cmd = .appealFindUnique appealId := by
          obtain ⟨k', hcode⟩ : ∃ k', resolveAppeal o.resolverUserId appealId o.resolution =
            .call (.appealFindUnique appealId) k' := ⟨_, rfl⟩
          exact (hwaits.call (d := c.world) hcode rfl).1
        have hclosed : a.status ≠ "OPEN" := by
          intro hopen
          have hreads : (c.pending j).any AppealCmd.reads = true := by rw [hp, hread]; rfl
          have hunread := hok hreads ⟨a, ha, hopen⟩ x hx
          rw [hxcmd] at hunread
          cases hunread
        obtain ⟨k', hcode, hnext⟩ := resolve_closed (r := o) ha hclosed
        obtain ⟨rfl, hrefused⟩ := hwaits.call hcode hnext
        refine .decided i r p ((List.getElem?_set_ne hij).trans hcall)
          (hdeciding.others rfl fun hl => hl.exec rfl (by simp)) fun l t hl ht => ?_
        by_cases hlj : l = j
        · subst hlj
          rw [List.getElem?_set_self hlt] at ht
          cases ht
          exact .inr hrefused
        · rw [List.getElem?_set_ne (Ne.symm hlj)] at ht
          exact hothers l t hl ht

/-- **Step lemma.** -/
theorem Proceeds.next {e : Event (rulings appealId)} (hok : ReadAlone c e) (h : Proceeds user c) :
    Proceeds user (c.next e) := by
  cases e with
  | start o =>
      cases h with
      | unread a hfind hban hopen htrace hwaiting =>
          refine .unread a hfind hban hopen htrace fun t ht => ?_
          rcases List.mem_append.mp ht with ht | ht
          · exact hwaiting t ht
          · rw [List.mem_singleton.mp ht]
            rfl
      | decided i r p hcall hdeciding hothers =>
          have hlt := (List.getElem?_eq_some_iff.mp hcall).1
          refine .decided i r p ((List.getElem?_append_left hlt).trans hcall) hdeciding ?_
          intro j t hj ht
          by_cases hlen : j < c.calls.length
          · exact hothers j t hj ((List.getElem?_append_left hlen).symm.trans ht)
          · change (c.calls ++ [_])[j]? = some t at ht
            rw [List.getElem?_append_right (by omega)] at ht
            rw [List.mem_singleton.mp (List.mem_of_getElem? ht)]
            exact .inl rfl
  | env e =>
      cases h with
      | unread a hfind hban hopen htrace hwaiting => exact .unread a hfind hban hopen htrace hwaiting
      | decided i r p hcall hdeciding hothers =>
          exact .decided i r p hcall (hdeciding.others rfl fun hl => ⟨hl.read, hl.lifted, hl.events⟩)
            hothers
  | step j =>
      cases h with
      | unread a hfind hban hopen htrace hwaiting =>
          exact proceeds_first hfind hban hopen htrace hwaiting j
      | decided i r p hcall hdeciding hothers => exact proceeds_later hcall hdeciding hothers hok

/-- When everybody is done, one call has ruled. -/
theorem Proceeds.ruled (h : Proceeds user c) (hquiet : c.Quiet) (hcalls : c.calls ≠ []) :
    RuledOnce user c := by
  have hdone := c.quiet_iff.mp hquiet
  cases h with
  | unread a hfind hban hopen htrace hwaiting =>
      obtain ⟨t, ht⟩ := List.exists_mem_of_ne_nil _ hcalls
      have hret := hdone t ht
      rw [Config.returned, hwaiting t ht] at hret
      cases hret
  | decided i r p hcall hdeciding hothers =>
      have hret := hdone _ (List.mem_of_getElem? hcall)
      cases hdeciding with
      | read | ruling | lifting | announcing => cases hret
      | returned updated hclosed hstored hledger =>
          refine ⟨⟨i, r, updated, hcall, fun j t ht => ?_⟩, hledger.events, ?_⟩
          · by_cases hj : j = i
            · exact .inl hj
            · rcases hothers j t hj ht with hwaits | hrefused
              · have hret' := hdone t (List.mem_of_getElem? ht)
                rw [Config.returned, hwaits] at hret'
                cases hret'
              · exact .inr hrefused
          · rw [hledger.lifted]
            constructor
            · exact fun hover => hover ▸ hstored
            · rintro ⟨a, ha, hover⟩
              obtain ⟨b, hb, hruled⟩ := hstored
              rw [ha] at hb
              cases hb
              exact Option.some_inj.mp (hruled.symm.trans hover)

end Runs

/-- Calls on one open ban appeal amount to one ruling, if nobody reads the
appeal between the first reading and the first ruling. -/
theorem ruledOnce (appealId : String) (user : UserId) (d : Docket) (a : ModerationAppeal)
    (es : List (Event (rulings appealId))) (hfind : d.findAppeal appealId = some a)
    (hopen : a.status = "OPEN") (hban : a.actionType = .ban) (huser : a.userId = user)
    (hes : (Config.initial d).Obeys ReadAlone es)
    (hquiet : ((Config.initial d).run es).Quiet) (hcalls : ((Config.initial d).run es).calls ≠ []) :
    RuledOnce user ((Config.initial d).run es) := by
  have hid : a.id = appealId := by
    unfold Docket.findAppeal at hfind
    simpa using List.find?_some hfind
  have hstart : Proceeds user (Config.initial d : Config (rulings appealId)) :=
    .unread a hfind ⟨hid, huser, hban⟩ hopen rfl fun t ht => nomatch ht
  have hend := Config.run_induct (fun _ _ hok h => Proceeds.next hok h) es _ hes hstart
  exact hend.ruled hquiet hcalls

/-- An open appeal of ann against a ban. -/
def annsAppeal : Docket where
  world := (World.peopled ["ann"] 0).set (.moderationBan "ann") (.text "1") none
  appeals := [⟨"appeal", 0, "ann", none, .ban, none, "OPEN", none, none, none⟩]

theorem ruledOnce_second : RuledOnce "ann" ((Config.initial annsAppeal : Config (rulings "appeal")).run
    [.start ⟨"mod", .overturned⟩, .start ⟨"admin", .upheld⟩, .step 0, .step 0, .step 0, .step 1,
      .step 0, .step 0]) :=
  ruledOnce "appeal" "ann" annsAppeal _ _ rfl rfl rfl rfl (by decide +kernel) (by decide +kernel)
    (by decide +kernel)

/-- Two moderators read the open appeal, and both rule. -/
theorem not_ruledOnce_both : ¬∀ (appealId : String) (user : UserId) (d : Docket)
    (a : ModerationAppeal) (es : List (Event (rulings appealId))),
    d.findAppeal appealId = some a → a.status = "OPEN" → a.actionType = .ban → a.userId = user →
    ((Config.initial d).run es).Quiet → ((Config.initial d).run es).calls ≠ [] →
    RuledOnce user ((Config.initial d).run es) := by
  intro h
  have honce := (h "appeal" "ann" annsAppeal _
    [.start ⟨"mod", .overturned⟩, .start ⟨"admin", .upheld⟩, .step 0, .step 1, .step 0, .step 0,
      .step 0, .step 0, .step 1, .step 1, .step 1] rfl rfl rfl rfl (by decide +kernel)
    (by decide +kernel)).event
  revert honce
  decide +kernel

end VerityBackend.Moderation
