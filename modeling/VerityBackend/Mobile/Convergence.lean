/-
VerityBackend.Mobile.Convergence — when the chat cache of the mobile app ends
up with every message once.

Two things keep it from that. `onSuccess` leaves the cache as it is where the
message is there already, and with it the optimistic entry: the server sends
a message to its author too, and that delivery may be rendered before the
answer arrives (`not_convergent_echo`). And a delivery takes the place of one
that has not been rendered. In runs without either the cache converges
(`cache_converges`): between any two steps every entry with a `temp-` id is
that of a call in flight, and every message delivered is in the cache or the
one to be rendered next.
-/
import Mathlib.Data.List.Nodup
import VerityBackend.Async.Discipline
import VerityBackend.Mobile.ChatCache

namespace VerityBackend.Mobile

open Async

variable {server : ChatServer} {screen : ChatScreen}

/-! ## Identifiers -/

/-- The id of an optimistic entry. -/
def isTemp (id : String) : Bool := "temp-".toList.isPrefixOf id.toList

theorem isTemp_optimisticId (now : Nat) : isTemp (optimisticId now) = true := by
  simp [isTemp, optimisticId, String.toList_append]

/-- The entries the server knows. -/
def ChatCache.real (cache : ChatCache) : List String := (cache.map (·.id)).filter (!isTemp ·)

theorem has_iff (cache : ChatCache) (id : String) :
    cache.has id = true ↔ ∃ x ∈ cache, x.id = id := by
  simp [ChatCache.has]

theorem mem_real {cache : ChatCache} {id : String} (hreal : isTemp id = false) :
    id ∈ cache.real ↔ cache.has id = true := by
  rw [has_iff]
  simp [ChatCache.real, hreal]

@[simp] theorem real_append (cache cache' : ChatCache) :
    ChatCache.real (cache ++ cache') = cache.real ++ cache'.real := by
  simp [ChatCache.real]

@[simp] theorem has_append (cache cache' : ChatCache) (id : String) :
    ChatCache.has (cache ++ cache') id = (cache.has id || cache'.has id) := by
  simp [ChatCache.has]

@[simp] theorem has_singleton (m : ChatMessage) (id : String) :
    ChatCache.has [m] id = (m.id == id) := by
  simp [ChatCache.has]

/-- Without the optimistic entries of one id, the others are all there. -/
theorem real_filter {cache : ChatCache} {t : String} (ht : isTemp t = true) :
    ChatCache.real (cache.filter (·.id != t)) = cache.real := by
  unfold ChatCache.real
  induction cache with
  | nil => rfl
  | cons x cache ih =>
      by_cases hx : x.id = t
      · rw [List.filter_cons_of_neg (by simp [hx]), ih]
        simp [hx, ht]
      · rw [List.filter_cons_of_pos (by simp [hx])]
        simp only [List.map_cons, List.filter_cons, ih]

theorem has_filter {cache : ChatCache} {t id : String} (hne : id ≠ t) :
    ChatCache.has (cache.filter (·.id != t)) id = cache.has id := by
  rw [Bool.eq_iff_iff, has_iff, has_iff]
  constructor
  · rintro ⟨x, hx, rfl⟩
    exact ⟨x, (List.mem_filter.mp hx).1, rfl⟩
  · rintro ⟨x, hx, rfl⟩
    exact ⟨x, List.mem_filter.mpr ⟨hx, by simpa using hne⟩, rfl⟩

theorem nodup_real_append {cache : ChatCache} {m : ChatMessage} (hnodup : cache.real.Nodup)
    (hreal : isTemp m.id = false) (hnew : cache.has m.id = false) :
    (ChatCache.real (cache ++ [m])).Nodup := by
  rw [real_append, show ChatCache.real [m] = [m.id] from by simp [ChatCache.real, hreal]]
  refine List.Nodup.append hnodup (List.nodup_singleton _) ?_
  intro id hid hm
  rw [List.mem_singleton.mp hm, mem_real hreal, hnew] at hid
  cases hid

/-- An id that is there once belongs to one entry. -/
theorem countP_of_real {cache : ChatCache} {id : String} (hnodup : cache.real.Nodup)
    (hreal : isTemp id = false) (hhas : cache.has id = true) :
    cache.countP (·.id == id) = 1 := by
  have hmem : id ∈ cache.real := (mem_real hreal).mpr hhas
  calc cache.countP (·.id == id)
      = (cache.map (·.id)).count id := by rw [List.count, List.countP_map]; rfl
    _ = cache.real.count id := by
        rw [ChatCache.real, List.count_filter]
        simp [hreal]
    _ = 1 := List.count_eq_one_of_mem hnodup hmem

/-! ## Runs -/

def ChatCmd.settles : ChatCmd → Bool
  | .onSuccess _ _ | .onError _ => true
  | _ => false

/-- The command makes the optimistic entry with this id. -/
def Opens (e : Entry (chatCache server screen)) (id : String) : Prop :=
  ∃ text, e.cmd = .onMutate text ∧ optimisticId e.before.clock = id

/-- The server's ids are not those of optimistic entries. -/
def Genuine (server : ChatServer) (screen : ChatScreen) (s : server.State) : ChatCmd → Prop
  | .post text => ∀ response ∈ (server.send screen.matchId text s).1.toOption,
      response.ok = true → ∀ data ∈ response.data, isTemp data.message.id = false
  | _ => True

def Authentic (c : Config (chatCache server screen)) : Event (chatCache server screen) → Prop
  | .step i => ∀ cmd ∈ c.pending i, Genuine server screen c.world.server cmd
  | .env (.deliver payload) => isTemp payload.id = false
  | _ => True

/-- The delivery may take the place of `last`: it is nothing the screen would
have to put into the cache, or the same message again. -/
def Superseded (screen : ChatScreen) (cache : ChatCache) (payload last : ChatMessage) : Prop :=
  last.matchId = screen.matchId → cache.has last.id = true ∨
    (payload.matchId = screen.matchId ∧ payload.id = last.id)

/-- A message that has been sent is not in the cache before its answer is
processed. -/
def Fresh (cache : ChatCache) : ChatCmd → Prop
  | .onSuccess message _ => cache.has message.id = false
  | _ => True

/-- The answer to a message comes before its delivery has been rendered, and
no delivery takes the place of one that has not been. -/
def InStep (c : Config (chatCache server screen)) : Event (chatCache server screen) → Prop
  | .step i => ∀ cmd ∈ c.pending i, Fresh c.world.cache cmd
  | .env (.deliver payload) => c.world.stale = true →
      ∀ last ∈ c.world.lastMessage, Superseded screen c.world.cache payload last
  | _ => True

instance (server : ChatServer) (screen : ChatScreen) (s : server.State) (cmd : ChatCmd) :
    Decidable (Genuine server screen s cmd) :=
  match cmd with
  | .post text => inferInstanceAs (Decidable (∀ response ∈ (server.send screen.matchId text s).1.toOption,
      response.ok = true → ∀ data ∈ response.data, isTemp data.message.id = false))
  | .onMutate _ | .onSuccess _ _ | .onError _ => .isTrue trivial

instance (c : Config (chatCache server screen)) (e : Event (chatCache server screen)) :
    Decidable (Authentic c e) :=
  match e with
  | .step i => inferInstanceAs (Decidable (∀ cmd ∈ c.pending i,
      Genuine server screen c.world.server cmd))
  | .env (.deliver payload) => inferInstanceAs (Decidable (isTemp payload.id = false))
  | .start _ | .env .rendered | .env (.elapse _) | .env (.server _) => .isTrue trivial

instance (screen : ChatScreen) (cache : ChatCache) (payload last : ChatMessage) :
    Decidable (Superseded screen cache payload last) :=
  inferInstanceAs (Decidable (_ → _ ∨ _))

instance (cache : ChatCache) (cmd : ChatCmd) : Decidable (Fresh cache cmd) :=
  match cmd with
  | .onSuccess message _ => inferInstanceAs (Decidable (cache.has message.id = false))
  | .onMutate _ | .post _ | .onError _ => .isTrue trivial

instance (c : Config (chatCache server screen)) (e : Event (chatCache server screen)) :
    Decidable (InStep c e) :=
  match e with
  | .step i => inferInstanceAs (Decidable (∀ cmd ∈ c.pending i, Fresh c.world.cache cmd))
  | .env (.deliver payload) => inferInstanceAs (Decidable (c.world.stale = true →
      ∀ last ∈ c.world.lastMessage, Superseded screen c.world.cache payload last))
  | .start _ | .env .rendered | .env (.elapse _) | .env (.server _) => .isTrue trivial

/-- A cache that has been loaded: the query is enabled once the reveal has
been acknowledged, and the server lists each message once. -/
structure Loaded (screen : ChatScreen) (cache : ChatCache) : Prop where
  acknowledged : screen.revealAcknowledged = true
  nodup : (cache.map (·.id)).Nodup
  real : ∀ x ∈ cache, isTemp x.id = false

/-! ## The discipline -/

/-- The message is in the cache, or the one to be rendered next. -/
def Reaches (screen : ChatScreen) (w : ChatWorld server) (id : String) : Prop :=
  w.cache.has id = true ∨
    (w.stale = true ∧ ∃ last ∈ w.lastMessage, last.matchId = screen.matchId ∧ last.id = id)

/-- The optimistic id belongs to a call in flight. -/
def InFlight (s : Snap (chatCache server screen)) (id : String) : Prop :=
  ∃ e ∈ s.trace, Opens e id ∧ ∀ e' ∈ s.trace, e'.call = e.call → e'.cmd.settles = false

structure Synced (s : Snap (chatCache server screen)) : Prop where
  once : s.world.cache.real.Nodup
  received : ∀ m ∈ s.world.received, isTemp m.id = false ∧
    (m.matchId = screen.matchId → Reaches screen s.world m.id)
  last : ∀ m ∈ s.world.lastMessage, isTemp m.id = false
  sent : ∀ e ∈ s.trace, ∀ m t, e.cmd = .onSuccess m t →
    isTemp m.id = false ∧ s.world.cache.has m.id = true
  temps : ∀ x ∈ s.world.cache, isTemp x.id = true → InFlight s x.id

variable (server screen) in
def syncing : Discipline (chatCache server screen) where
  inv := Synced
  admits _ _ c s := Genuine server screen s.world.server c ∧ Fresh s.world.cache c
  rely i s s' := s'.own i = s.own i
  guar _ _ _ _ := True
  rely_refl _ _ := rfl
  rely_trans _ _ _ _ h h' := h'.trans h

/-- What call `i` has done: it has made the optimistic entry `t`, and has not
settled. -/
structure Sending (i : Nat) (t : String) (s : Snap (chatCache server screen)) : Prop where
  opens : ∀ e ∈ s.own i, ∀ id, Opens e id → id = t
  settles : ∀ e ∈ s.own i, e.cmd.settles = false

variable {o : ChatOp} {i : Nat} {t : String} {s s' : Snap (chatCache server screen)}

theorem Sending.rely (h : Sending i t s) (hr : s'.own i = s.own i) : Sending i t s' := by
  constructor
  · rw [hr]
    exact h.opens
  · rw [hr]
    exact h.settles

theorem mem_own {e : Entry (chatCache server screen)} (he : e ∈ s.trace) : e ∈ s.own e.call :=
  List.mem_filter.mpr ⟨he, by simp⟩

/-- The other calls in flight still are when call `i` executes a command. -/
theorem InFlight.exec {c : ChatCmd} {id : String} (h : InFlight s id) (hsend : Sending i t s)
    (hne : id ≠ t) : InFlight (s.exec i c) id := by
  obtain ⟨e, he, hopens, hsettles⟩ := h
  refine ⟨e, List.mem_cons_of_mem _ he, hopens, fun e' he' hcall => ?_⟩
  rcases List.mem_cons.mp he' with rfl | he'
  · have hown : e ∈ s.own i := by
      rw [show i = e.call from hcall]
      exact mem_own he
    exact absurd (hsend.opens e hown id hopens) hne
  · exact hsettles e' he' hcall

/-- A command that does not settle its call leaves all calls in flight. -/
theorem InFlight.exec_open {c : ChatCmd} {id : String} (h : InFlight s id)
    (hc : c.settles = false) : InFlight (s.exec i c) id := by
  obtain ⟨e, he, hopens, hsettles⟩ := h
  refine ⟨e, List.mem_cons_of_mem _ he, hopens, fun e' he' hcall => ?_⟩
  rcases List.mem_cons.mp he' with rfl | he'
  · exact hc
  · exact hsettles e' he' hcall

/-! ## What the commands keep -/

/-- Nobody's record changes but that of the call that executes a command. -/
theorem syncing_keeps {c : ChatCmd} (hinv : Synced (s.exec i c)) :
    (syncing server screen).Keeps o i c s where
  guar := trivial
  inv := hinv
  rely := fun _ hj => Snap.exec_own_ne s c hj

theorem Reaches.mono {w w' : ChatWorld server} {id : String} (h : Reaches screen w id)
    (hcache : w.cache.has id = true → w'.cache.has id = true) (hstale : w'.stale = w.stale)
    (hlast : w'.lastMessage = w.lastMessage) : Reaches screen w' id := by
  unfold Reaches at *
  rw [hstale, hlast]
  exact h.imp_left hcache

theorem post_keeps (text : String) (hinv : Synced s) :
    (syncing server screen).Keeps o i (.post text) s :=
  syncing_keeps {
    once := hinv.once
    received := hinv.received
    last := hinv.last
    sent := by
      intro e he m t hcmd
      rcases List.mem_cons.mp he with rfl | he
      · cases hcmd
      · exact hinv.sent e he m t hcmd
    temps := fun x hx htemp => (hinv.temps x hx htemp).exec_open rfl }

theorem onMutate_keeps (text : String) (hinv : Synced s) (hown : s.own i = []) :
    (syncing server screen).Keeps o i (.onMutate text) s := by
  have hhas : ∀ id, s.world.cache.has id = true →
      ChatCache.has (onMutate screen s.world.clock text s.world.cache) id = true := by
    intro id hid
    simp [onMutate, hid]
  refine syncing_keeps ⟨?_, ?_, hinv.last, ?_, ?_⟩
  · change (ChatCache.real (onMutate screen s.world.clock text s.world.cache)).Nodup
    rw [onMutate, real_append, show ChatCache.real [_] = [] from by
      simp [ChatCache.real, isTemp_optimisticId], List.append_nil]
    exact hinv.once
  · intro m hm
    obtain ⟨hreal, hreach⟩ := hinv.received m hm
    exact ⟨hreal, fun hmatch => (hreach hmatch).mono (hhas _) rfl rfl⟩
  · intro e he m t hcmd
    rcases List.mem_cons.mp he with rfl | he
    · cases hcmd
    · obtain ⟨hreal, hin⟩ := hinv.sent e he m t hcmd
      exact ⟨hreal, hhas _ hin⟩
  · intro x hx htemp
    rcases List.mem_append.mp hx with hx | hx
    · exact (hinv.temps x hx htemp).exec_open rfl
    · obtain rfl := List.mem_singleton.mp hx
      refine ⟨_, List.mem_cons_self, ⟨text, rfl, rfl⟩, fun e' he' hcall => ?_⟩
      rcases List.mem_cons.mp he' with rfl | he'
      · rfl
      · have hmem : e' ∈ s.own i := List.mem_filter.mpr ⟨he', by simpa using hcall⟩
        rw [hown] at hmem
        cases hmem

/-- The optimistic entries of a call are gone once it settles; the message it
has been answered with is new. -/
theorem onSuccess_keeps {m : ChatMessage} (hinv : Synced s) (hsend : Sending i t s)
    (ht : isTemp t = true) (hreal : isTemp m.id = false) (hnew : s.world.cache.has m.id = false) :
    (syncing server screen).Keeps o i (.onSuccess m t) s := by
  have hne : ∀ id, isTemp id = false → id ≠ t := by
    rintro id hid rfl
    rw [ht] at hid
    cases hid
  have hcache : (s.exec i (.onSuccess m t)).world.cache =
      s.world.cache.filter (·.id != t) ++ [m] := by
    change onSuccess m t s.world.cache = _
    rw [onSuccess, has_filter (hne _ hreal), hnew, if_neg Bool.false_ne_true]
  have hhas : ∀ id, isTemp id = false → s.world.cache.has id = true →
      (s.exec i (.onSuccess m t)).world.cache.has id = true := by
    intro id hid hin
    rw [hcache, has_append, has_filter (hne _ hid), hin]
    rfl
  refine syncing_keeps ⟨?_, ?_, hinv.last, ?_, ?_⟩
  · rw [hcache]
    refine nodup_real_append ?_ hreal ?_
    · rw [real_filter ht]
      exact hinv.once
    · rw [has_filter (hne _ hreal)]
      exact hnew
  · intro m' hm'
    obtain ⟨hreal', hreach⟩ := hinv.received m' hm'
    exact ⟨hreal', fun hmatch => (hreach hmatch).mono (hhas _ hreal') rfl rfl⟩
  · intro e he m' t' hcmd
    rcases List.mem_cons.mp he with rfl | he
    · cases hcmd
      refine ⟨hreal, ?_⟩
      rw [hcache, has_append, has_singleton]
      simp
    · obtain ⟨hreal', hin⟩ := hinv.sent e he m' t' hcmd
      exact ⟨hreal', hhas _ hreal' hin⟩
  · intro x hx htemp
    rw [hcache] at hx
    rcases List.mem_append.mp hx with hx | hx
    · obtain ⟨hx, hxt⟩ := List.mem_filter.mp hx
      exact (hinv.temps x hx htemp).exec hsend (by simpa using hxt)
    · rw [List.mem_singleton.mp hx, hreal] at htemp
      cases htemp

theorem onError_keeps (hinv : Synced s) (hsend : Sending i t s) (ht : isTemp t = true) :
    (syncing server screen).Keeps o i (.onError t) s := by
  have hcache : (s.exec i (.onError t)).world.cache = s.world.cache.filter (·.id != t) := rfl
  have hhas : ∀ id, isTemp id = false → s.world.cache.has id = true →
      (s.exec i (.onError t)).world.cache.has id = true := by
    intro id hid hin
    rw [hcache, has_filter, hin]
    rintro rfl
    rw [ht] at hid
    cases hid
  refine syncing_keeps ⟨?_, ?_, hinv.last, ?_, ?_⟩
  · rw [hcache, real_filter ht]
    exact hinv.once
  · intro m hm
    obtain ⟨hreal, hreach⟩ := hinv.received m hm
    exact ⟨hreal, fun hmatch => (hreach hmatch).mono (hhas _ hreal) rfl rfl⟩
  · intro e he m t' hcmd
    rcases List.mem_cons.mp he with rfl | he
    · cases hcmd
    · obtain ⟨hreal, hin⟩ := hinv.sent e he m t' hcmd
      exact ⟨hreal, hhas _ hreal hin⟩
  · intro x hx htemp
    rw [hcache] at hx
    obtain ⟨hx, hxt⟩ := List.mem_filter.mp hx
    exact (hinv.temps x hx htemp).exec hsend (by simpa using hxt)

/-! ## What the environment keeps -/

/-- A delivery is the one to be rendered next, and none is lost by it. -/
theorem deliver_keeps {c : Config (chatCache server screen)} {payload : ChatMessage}
    (hinv : Synced c.toSnap) (hreal : isTemp payload.id = false)
    (hstep : c.world.stale = true → ∀ last ∈ c.world.lastMessage,
      Superseded screen c.world.cache payload last) :
    Synced (c.next (.env (.deliver payload))).toSnap where
  once := hinv.once
  last := by
    intro m hm
    obtain rfl := Option.some.inj hm
    exact hreal
  sent := hinv.sent
  temps := hinv.temps
  received := by
    intro m hm
    rcases List.mem_cons.mp hm with rfl | hm
    · exact ⟨hreal, fun hmatch => .inr ⟨rfl, m, rfl, hmatch, rfl⟩⟩
    · obtain ⟨hreal', hreach⟩ := hinv.received m hm
      refine ⟨hreal', fun hmatch => ?_⟩
      rcases hreach hmatch with hin | ⟨hstale, last, hlast, hmatch', hid⟩
      · exact .inl hin
      · rcases hstep hstale last hlast hmatch' with hin | ⟨hsame, hid'⟩
        · exact .inl (hid ▸ hin)
        · exact .inr ⟨rfl, payload, rfl, hsame, hid'.trans hid⟩

/-- The effect puts the message in, or it is not one of this match, or it is
there. -/
theorem messageEffect_cases (hack : screen.revealAcknowledged = true)
    (lastMessage : Option ChatMessage) (cache : ChatCache) :
    (messageEffect screen lastMessage cache = cache ∧ ∀ last ∈ lastMessage,
      last.matchId = screen.matchId → cache.has last.id = true) ∨
    ∃ last ∈ lastMessage, cache.has last.id = false ∧
      messageEffect screen lastMessage cache = cache ++ [last] := by
  cases lastMessage with
  | none => exact .inl ⟨rfl, nofun⟩
  | some last =>
      unfold messageEffect
      by_cases hmatch : last.matchId = screen.matchId
      · cases hhas : cache.has last.id with
        | true => exact .inl (by simp [hmatch, hack, hhas])
        | false => exact .inr ⟨last, rfl, hhas, by simp [hmatch, hack, hhas]⟩
      · exact .inl (by simp [hmatch])

theorem rendered_keeps {c : Config (chatCache server screen)}
    (hack : screen.revealAcknowledged = true) (hinv : Synced c.toSnap) :
    Synced (c.next (.env .rendered)).toSnap := by
  change Synced ⟨if c.world.stale then
    { c.world with cache := messageEffect screen c.world.lastMessage c.world.cache, stale := false }
    else c.world, c.trace⟩
  cases hstale : c.world.stale with
  | false => exact hinv
  | true =>
      rw [if_pos rfl]
      rcases messageEffect_cases hack c.world.lastMessage c.world.cache with ⟨hsame, hin⟩ |
        ⟨last, hlast, hnew, happend⟩
      · rw [hsame]
        refine ⟨hinv.once, fun m hm => ?_, hinv.last, hinv.sent, hinv.temps⟩
        obtain ⟨hreal, hreach⟩ := hinv.received m hm
        refine ⟨hreal, fun hmatch => .inl ?_⟩
        rcases hreach hmatch with h | ⟨-, last, hlast, hmatch', hid⟩
        · exact h
        · exact hid ▸ hin last hlast hmatch'
      · have hreal := hinv.last last hlast
        rw [happend]
        refine ⟨?_, fun m hm => ?_, hinv.last, fun e he m t hcmd => ?_, fun x hx htemp => ?_⟩
        · exact nodup_real_append hinv.once hreal hnew
        · obtain ⟨hreal', hreach⟩ := hinv.received m hm
          refine ⟨hreal', fun hmatch => .inl ?_⟩
          rcases hreach hmatch with h | ⟨-, last', hlast', -, hid⟩
          · change c.world.cache.has m.id = true at h
            rw [has_append, h]
            rfl
          · obtain rfl := Option.some.inj (hlast.symm.trans hlast')
            rw [has_append, has_singleton]
            simp [hid]
        · obtain ⟨hreal', h⟩ := hinv.sent e he m t hcmd
          refine ⟨hreal', ?_⟩
          change c.world.cache.has m.id = true at h
          rw [has_append, h]
          rfl
        · rcases List.mem_append.mp hx with hx | hx
          · exact hinv.temps x hx htemp
          · rw [List.mem_singleton.mp hx, hreal] at htemp
            cases htemp

/-! ## A mutation -/

theorem Sending.exec {c : ChatCmd} (h : Sending i t s) (hsettles : c.settles = false)
    (hopens : ∀ text, c ≠ .onMutate text) : Sending i t (s.exec i c) where
  opens := by
    intro e he id hid
    rw [Snap.exec_own_self] at he
    rcases List.mem_cons.mp he with rfl | he
    · obtain ⟨text, hcmd, -⟩ := hid
      exact absurd hcmd (hopens text)
    · exact h.opens e he id hid
  settles := by
    intro e he
    rw [Snap.exec_own_self] at he
    rcases List.mem_cons.mp he with rfl | he
    · exact hsettles
    · exact h.settles e he

/-- The call has settled. -/
def Closed (i : Nat) (s : Snap (chatCache server screen)) : Prop :=
  ∃ e ∈ s.own i, e.cmd.settles = true

theorem closed_exec {c : ChatCmd} (hc : c.settles = true) : Closed i (s.exec i c) :=
  ⟨_, by rw [Snap.exec_own_self]; exact List.mem_cons_self, hc⟩

/-- The message of an answer is one of the server's. -/
theorem valid_mutationFn (text : String) (hsend : Sending i t s) :
    (syncing server screen).Valid o i (mutationFn text)
      (fun r s' => Sending i t s' ∧ ∀ m, r = .ok m → isTemp m.id = false) s := by
  refine Discipline.valid_await fun s₁ hr hinv ha => ⟨post_keeps text hinv, ?_⟩
  have hsend₁ : Sending i t (s₁.exec i (.post text)) := (hsend.rely hr).exec rfl nofun
  have hgenuine := ha.1
  change (syncing server screen).Resumes _ _ _ _ (server.send screen.matchId text s₁.world.server).1 _
  cases hans : (server.send screen.matchId text s₁.world.server).1 with
  | error e => exact ⟨hsend₁, nofun⟩
  | ok response =>
      rw [Discipline.resumes_ok]
      split
      · exact ⟨hsend₁, nofun⟩
      · split
        · split
          · exact ⟨hsend₁, nofun⟩
          · exact ⟨hsend₁, nofun⟩
        · split
          · next data hok hdata =>
            refine ⟨hsend₁, fun m hm => ?_⟩
            obtain rfl := Except.ok.inj hm
            exact hgenuine response (by rw [hans]; rfl) hok data hdata
          · exact ⟨hsend₁, nofun⟩

theorem valid_sendMutation (text : String) (hown : s.own i = []) :
    (syncing server screen).Valid o i (sendMutation text) (fun _ s' => Closed i s') s := by
  refine Discipline.valid_await fun s₁ hr hinv₁ _ => ?_
  have hown₁ : s₁.own i = [] := hr.trans hown
  refine ⟨onMutate_keeps text hinv₁ hown₁, ?_⟩
  have htemp := isTemp_optimisticId s₁.world.clock
  have hsend : Sending i (optimisticId s₁.world.clock) (s₁.exec i (.onMutate text)) := by
    constructor
    · intro e he id hid
      rw [Snap.exec_own_self, hown₁] at he
      obtain rfl := List.mem_singleton.mp he
      obtain ⟨-, -, rfl⟩ := hid
      rfl
    · intro e he
      rw [Snap.exec_own_self, hown₁] at he
      rw [List.mem_singleton.mp he]
      rfl
  refine Discipline.valid_tryCatch (Discipline.valid_bind ?_)
  refine (valid_mutationFn text hsend).weaken fun r s₂ h => ?_
  obtain ⟨hsend₂, hreal⟩ := h
  cases r with
  | error e =>
      refine Discipline.valid_await fun s₃ hr₃ hinv₃ _ => ?_
      exact ⟨onError_keeps hinv₃ (hsend₂.rely hr₃) htemp, closed_exec rfl⟩
  | ok m =>
      refine Discipline.valid_await fun s₃ hr₃ hinv₃ ha => ?_
      exact ⟨onSuccess_keeps hinv₃ (hsend₂.rely hr₃) htemp (hreal m rfl) ha.2, closed_exec rfl⟩

theorem syncing_governs (hack : screen.revealAcknowledged = true) :
    (syncing server screen).Governs (fun c e => Authentic c e ∧ InStep c e)
      (fun _ i _ s => Closed i s) where
  start _ o _ _ hown := valid_sendMutation o.text hown
  step _ _ _ cmd _ hok hc _ :=
    ⟨hok.1 cmd (Config.pending_of_call hc), hok.2 cmd (Config.pending_of_call hc)⟩
  env c e hok hinv := by
    refine ⟨?_, fun _ => ?_⟩
    · cases e with
      | deliver payload => exact deliver_keeps hinv hok.1 hok.2
      | rendered => exact rendered_keeps hack hinv
      | elapse ms => exact ⟨hinv.once, hinv.received, hinv.last, hinv.sent, hinv.temps⟩
      | server f => exact ⟨hinv.once, hinv.received, hinv.last, hinv.sent, hinv.temps⟩
    · rfl

/-! ## Convergence -/

/-- The screen as it is when the messages have been loaded. -/
def opened (cache : ChatCache) (now : Nat) (s : server.State) : ChatWorld server where
  cache := cache
  lastMessage := none
  stale := false
  clock := now
  server := s
  received := []

/-- Each message that has been delivered, or sent with success, is in the
cache once, and nothing else is that the server does not know. -/
structure Converged (c : Config (chatCache server screen)) : Prop where
  delivered : ∀ m ∈ c.world.received, m.matchId = screen.matchId →
    c.world.cache.countP (·.id == m.id) = 1
  sent : ∀ e ∈ c.trace, ∀ m t, e.cmd = .onSuccess m t → c.world.cache.countP (·.id == m.id) = 1
  noTemp : ∀ x ∈ c.world.cache, isTemp x.id = false

/-- If every answer is processed before the delivery of its message has been
rendered, and no delivery takes the place of one that has not been, the cache
converges. -/
theorem cache_converges (server : ChatServer) (screen : ChatScreen) (cache : ChatCache)
    (hloaded : Loaded screen cache) (now : Nat) (s : server.State)
    (es : List (Event (chatCache server screen)))
    (hes : (Config.initial (opened cache now s) : Config (chatCache server screen)).Obeys
      (fun c e => Authentic c e ∧ InStep c e) es) :
    let c : Config (chatCache server screen) := (Config.initial (opened cache now s)).run es
    c.Quiet → c.world.stale = false → Converged c := by
  intro c hquiet hstale
  have hinitial : Synced (⟨opened cache now s, []⟩ : Snap (chatCache server screen)) := by
    refine ⟨hloaded.nodup.filter _, nofun, nofun, nofun, fun x hx htemp => ?_⟩
    rw [hloaded.real x hx] at htemp
    cases htemp
  obtain ⟨hsound, hdone⟩ := (syncing_governs hloaded.acknowledged).sound_run
    (fun o i r s s' (hr : s'.own i = s.own i) ⟨e, he, hc⟩ => ⟨e, hr ▸ he, hc⟩) hinitial hes
  have hinv : Synced c.toSnap := hsound.inv
  refine ⟨fun m hm hmatch => ?_, fun e he m t hcmd => ?_, fun x hx => ?_⟩
  · obtain ⟨hreal, hreach⟩ := hinv.received m hm
    rcases hreach hmatch with hin | ⟨hstale', -⟩
    · exact countP_of_real hinv.once hreal hin
    · rw [hstale] at hstale'
      cases hstale'
  · obtain ⟨hreal, hin⟩ := hinv.sent e he m t hcmd
    exact countP_of_real hinv.once hreal hin
  · by_contra htemp
    obtain ⟨e, he, -, hsettles⟩ := hinv.temps x hx (by simpa using htemp)
    obtain ⟨o, r, hsettled⟩ := hquiet.settled (hsound.indexed e he)
    obtain ⟨e', he', hc⟩ := hdone _ o r hsettled
    obtain ⟨hmem, hcall⟩ := List.mem_filter.mp he'
    rw [hsettles e' hmem (by simpa using hcall)] at hc
    cases hc

/-! ## Ann's chat -/

/-- A server that numbers its messages, and answers each with the message. -/
def plainChatServer : ChatServer where
  State := Nat
  send matchId text n :=
    (.ok ⟨201, some ⟨⟨"m" ++ toString n, matchId, "ann", text, n⟩, none⟩⟩, n + 1)

/-- The server has numbered one message. -/
def oneMessage : plainChatServer.State := (1 : Nat)

def annsScreen : ChatScreen := ⟨"match", true, some "ann"⟩

/-- The message that is loaded. -/
def hello : ChatMessage := ⟨"m0", "match", "bob", "hello", 0⟩

def annsMessage : ChatMessage := ⟨"m1", "match", "ann", "hi", 1⟩

theorem loaded_hello : Loaded annsScreen [hello] :=
  ⟨rfl, by decide +kernel, by decide +kernel⟩

/-- The answer to Ann's message is processed before its delivery. -/
theorem cache_converges_answered :
    let c : Config (chatCache plainChatServer annsScreen) :=
      (Config.initial (opened [hello] 7 oneMessage)).run
        [.start ⟨"hi"⟩, .step 0, .step 0, .env (.deliver annsMessage), .step 0, .env .rendered]
    Converged c :=
  cache_converges plainChatServer annsScreen [hello] loaded_hello 7 oneMessage
    [.start ⟨"hi"⟩, .step 0, .step 0, .env (.deliver annsMessage), .step 0, .env .rendered]
    (by decide +kernel) (by decide +kernel) (by decide +kernel)

/-- Ann's message is delivered to herself, and put into the cache, before the
answer to it arrives. -/
theorem not_convergent_echo :
    ¬∀ (server : ChatServer) (screen : ChatScreen) (cache : ChatCache), Loaded screen cache →
      ∀ (now : Nat) (s : server.State) (es : List (Event (chatCache server screen))),
        (Config.initial (opened cache now s) : Config (chatCache server screen)).Obeys Authentic es →
        let c : Config (chatCache server screen) := (Config.initial (opened cache now s)).run es
        c.Quiet → c.world.stale = false → Converged c := by
  intro hall
  have hconverged := hall plainChatServer annsScreen [hello] loaded_hello 7 oneMessage
    [.start ⟨"hi"⟩, .step 0, .step 0, .env (.deliver annsMessage), .env .rendered, .step 0]
    (by decide +kernel) (by decide +kernel) (by decide +kernel)
  have htemp := hconverged.noTemp
  revert htemp
  decide +kernel

end VerityBackend.Mobile
