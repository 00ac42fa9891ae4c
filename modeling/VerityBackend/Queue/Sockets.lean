/-
VerityBackend.Queue.Sockets — the last socket of a user.

A gateway with a namespace is given the `Namespace`, whose `sockets` are a
`Map` and whose `adapter` is a field of its own, so the optional chain of
`handleDisconnect` ends at `adapter` with `undefined`
(`remainingConnections_toJs`). It is written for a `Server`, whose `sockets`
are a `Namespace`.
-/
import Mathlib.Data.List.Induction
import VerityBackend.Queue.Gateway

namespace VerityBackend.Queue

open Async

/-- A handshake, or the end of a connection. -/
inductive SocketEvent where
  | connect (now : Nat) (client : Auth.Handshake)
  | disconnect (id : SocketId)
  deriving DecidableEq, Repr

/-- `data.userId`, after the handshake. A socket that is refused has none. -/
def connectedUser (env : Auth.SecretEnv) (now : Nat) (client : Auth.Handshake) : Option UserId :=
  match Auth.QueueGateway.handleConnection env now client with
  | .joined userId => some userId
  | .disconnected => none

namespace Namespace

def next (env : Auth.SecretEnv) (n : Namespace) : SocketEvent → Namespace
  | .connect now client => n.connect (connectedUser env now client)
  | .disconnect id => n.close id

def after (env : Auth.SecretEnv) (events : List SocketEvent) : Namespace :=
  events.foldl (next env) empty

end Namespace

/-! ## The last disconnect -/

/-- The procedure calls `leaveQueue` for the user, and goes on with its
result. -/
def CallsLeaveQueue (p : Prog Unit) (userId : UserId) : Prop :=
  ∃ (f : QueueLeaveResult → Prog Unit) (h : Err → Prog Unit),
    p = Proc.tryCatch ((leaveQueue userId).bind f) h

/-- At every disconnect of the history, `leaveQueue` is called for the user
whose last socket it is, and for nobody else. `inject` is the object that
the gateway has as its server. -/
def OnlyLastLeaves (env : Auth.SecretEnv) (inject : Namespace → JsValue) (events : List SocketEvent) :
    Prop :=
  ∀ before id later, events = before ++ .disconnect id :: later →
    ∀ client ∈ (Namespace.after env before).sockets, client.id = id →
      let closed := (Namespace.after env before).close id
      ∀ u, CallsLeaveQueue (QueueGateway.handleDisconnect (inject closed) client) u ↔
        client.userId = some u ∧ ∀ other ∈ closed.sockets, other.userId ≠ some u

/-- Nobody closes a socket while another one of theirs is connected. -/
def OneByOne (env : Auth.SecretEnv) (events : List SocketEvent) : Prop :=
  ∀ before id later, events = before ++ .disconnect id :: later →
    ∀ client ∈ (Namespace.after env before).sockets, client.id = id →
      ∀ u, client.userId = some u →
        ∀ other ∈ ((Namespace.after env before).close id).sockets, other.userId ≠ some u

section Calls

theorem settleDisconnect_calls (u : UserId) : CallsLeaveQueue (settleDisconnect u 0) u := by
  rw [settleDisconnect, if_neg (Nat.lt_irrefl 0)]
  exact ⟨_, _, rfl⟩

theorem not_callsLeaveQueue_pure (u : UserId) : ¬CallsLeaveQueue (pure ()) u := by
  rintro ⟨f, h, heq⟩
  cases heq

/-- The second command takes the lock of the user. -/
theorem CallsLeaveQueue.unique {p : Prog Unit} {u v : UserId} (hu : CallsLeaveQueue p u)
    (hv : CallsLeaveQueue p v) : u = v := by
  obtain ⟨f, h, rfl⟩ := hu
  obtain ⟨f', h', heq⟩ := hv
  injection heq with _ hk
  have htake := congrFun hk (Except.ok "")
  injection htake with hcmd
  injection hcmd with hcmd
  injection hcmd with hkey
  injection hkey

end Calls

/-! ## The rooms -/

section Rooms

variable {rooms : Rooms} {room r : String} {id : SocketId}

@[simp] theorem members_nil : Rooms.members [] r = [] := rfl

theorem members_cons {ids : List SocketId} :
    Rooms.members ((room, ids) :: rooms) r = if r = room then ids else rooms.members r := by
  unfold Rooms.members
  rw [List.lookup_cons]
  by_cases h : r = room
  · rw [if_pos h, beq_iff_eq.mpr h]
    rfl
  · rw [if_neg h, beq_eq_false_iff_ne.mpr h]

theorem members_of_not_mem (h : r ∉ rooms.map (·.1)) : rooms.members r = [] := by
  induction rooms with
  | nil => rfl
  | cons entry rest ih =>
      rw [List.map_cons, List.mem_cons, not_or] at h
      rw [members_cons, if_neg h.1, ih h.2]

/-- The socket is in the room it joins, and the other rooms are as before. -/
theorem members_join : (rooms.join room id).members r =
    if r = room ∧ id ∉ rooms.members room then rooms.members room ++ [id] else rooms.members r := by
  induction rooms with
  | nil =>
      rw [Rooms.join, members_cons]
      by_cases h : r = room <;> simp [h]
  | cons entry rest ih =>
      obtain ⟨name, ids⟩ := entry
      rw [Rooms.join]
      split
      · next hname =>
          subst hname
          simp only [members_cons, if_true]
          by_cases hr : r = name
          · by_cases hid : id ∈ ids <;> simp [hr, hid]
          · simp [hr]
      · next hname =>
          have hroom : Rooms.members ((name, ids) :: rest) room = Rooms.members rest room := by
            rw [members_cons, if_neg (Ne.symm hname)]
          rw [hroom, members_cons, members_cons, ih]
          by_cases hr : r = name
          · rw [if_pos hr, if_neg (fun h => hname (hr.symm.trans h.1)), if_pos hr]
          · rw [if_neg hr, if_neg hr]

theorem keys_join : (rooms.join room id).map (·.1) =
    if room ∈ rooms.map (·.1) then rooms.map (·.1) else rooms.map (·.1) ++ [room] := by
  induction rooms with
  | nil => rfl
  | cons entry rest ih =>
      rw [Rooms.join]
      split
      · next hname => simp [hname]
      · next hname =>
          rw [List.map_cons, ih]
          by_cases hrest : room ∈ rest.map (·.1)
          · simp [hrest]
          · rw [if_neg hrest, if_neg]
            · rfl
            · rw [List.map_cons, List.mem_cons, not_or]
              exact ⟨Ne.symm hname, hrest⟩

theorem nodup_join (h : (rooms.map (·.1)).Nodup) : ((rooms.join room id).map (·.1)).Nodup := by
  rw [keys_join]
  split
  · exact h
  · next hroom =>
      refine List.nodup_append.mpr ⟨h, List.nodup_singleton _, fun x hx y hy hxy => hroom ?_⟩
      exact List.mem_singleton.mp hy ▸ hxy ▸ hx

theorem nodup_leaveAll (h : (rooms.map (·.1)).Nodup) : ((rooms.leaveAll id).map (·.1)).Nodup := by
  have hkeys : (rooms.map fun entry => (entry.1, entry.2.filter (· ≠ id))).map (·.1) =
      rooms.map (·.1) := by
    rw [List.map_map]
    rfl
  exact (hkeys ▸ h).sublist (List.filter_sublist.map Prod.fst)

theorem members_leaveAll (h : (rooms.map (·.1)).Nodup) :
    (rooms.leaveAll id).members r = (rooms.members r).filter (· ≠ id) := by
  induction rooms with
  | nil => rfl
  | cons entry rest ih =>
      obtain ⟨name, ids⟩ := entry
      obtain ⟨hname, hrest⟩ := List.nodup_cons.mp h
      have hleave : Rooms.leaveAll id ((name, ids) :: rest) =
          if ids.filter (· ≠ id) ≠ [] then (name, ids.filter (· ≠ id)) :: Rooms.leaveAll id rest
          else Rooms.leaveAll id rest := by
        simp only [Rooms.leaveAll, List.map_cons, List.filter_cons, decide_eq_true_eq]
      rw [hleave, members_cons]
      split
      · rw [members_cons, ih hrest]
        by_cases hr : r = name <;> simp [hr]
      · next hempty =>
          rw [ih hrest]
          by_cases hr : r = name
          · rw [if_pos hr, hr, members_of_not_mem hname]
            exact (not_not.mp hempty).symm
          · rw [if_neg hr]

end Rooms

theorem userRoom_injective {u v : UserId} (h : userRoom u = userRoom v) : u = v :=
  String.append_right_inj _ |>.mp h

/-- The room of a socket is the room of no user. -/
theorem freshId_ne_userRoom (n : Nat) (u : UserId) : userRoom u ≠ freshId n := by
  intro h
  have hlist : ("user:" ++ u).toList = (freshId n).toList := congrArg String.toList h
  rw [String.toList_append] at hlist
  exact absurd (List.cons.inj (hlist.trans String.toList_ofList)).1 (by decide)

/-- The room of a user has the sockets of the user. -/
structure Roomed (n : Namespace) : Prop where
  keys : (n.rooms.map (·.1)).Nodup
  drawn : ∀ socket ∈ n.sockets, ∃ k < n.nextId, socket.id = freshId k
  room : ∀ u, n.rooms.members (userRoom u) = (n.sockets.filter (·.userId = some u)).map (·.id)

section Roomed

variable {n : Namespace}

theorem roomed_empty : Roomed .empty := ⟨List.nodup_nil, nofun, fun _ => rfl⟩

theorem Roomed.connect (h : Roomed n) (userId : Option UserId) : Roomed (n.connect userId) := by
  have hfresh : freshId n.nextId ∉ n.sockets.map (·.id) := by
    intro hmem
    obtain ⟨socket, hsocket, hid⟩ := List.mem_map.mp hmem
    obtain ⟨k, hk, hsame⟩ := h.drawn socket hsocket
    exact absurd (freshId_injective (hsame.symm.trans hid)) (Nat.ne_of_lt hk)
  have hown (u : UserId) : (n.rooms.join (freshId n.nextId) (freshId n.nextId)).members (userRoom u) =
      n.rooms.members (userRoom u) := by
    rw [members_join, if_neg (fun hroom => freshId_ne_userRoom _ _ hroom.1)]
  refine ⟨?_, ?_, fun u => ?_⟩
  · cases userId with
    | none => exact nodup_join h.keys
    | some v => exact nodup_join (nodup_join h.keys)
  · intro socket hsocket
    rcases List.mem_append.mp hsocket with hold | hnew
    · obtain ⟨k, hk, hid⟩ := h.drawn socket hold
      exact ⟨k, Nat.lt_succ_of_lt hk, hid⟩
    · exact ⟨n.nextId, Nat.lt_succ_self _, List.mem_singleton.mp hnew ▸ rfl⟩
  · simp only [Namespace.connect, List.filter_append, List.map_append, List.filter_singleton]
    rw [← h.room]
    cases userId with
    | none => simp [hown]
    | some v =>
        have hout : freshId n.nextId ∉ n.rooms.members (userRoom v) := by
          rw [h.room]
          exact fun hmem => hfresh (List.filter_sublist.map Socket.id |>.subset hmem)
        dsimp only
        rw [members_join, hown, hown]
        by_cases huv : u = v
        · subst huv
          simp [hout]
        · rw [if_neg (fun hroom => huv (userRoom_injective hroom.1))]
          simp [Ne.symm huv]

theorem Roomed.close (h : Roomed n) (id : SocketId) : Roomed (n.close id) := by
  refine ⟨nodup_leaveAll h.keys, ?_, fun u => ?_⟩
  · exact fun socket hsocket => h.drawn socket (List.mem_of_mem_filter hsocket)
  · rw [Namespace.close, members_leaveAll h.keys, h.room, List.filter_map, List.filter_filter,
      List.filter_filter]
    simp only [Function.comp_def, Bool.and_comm]

theorem roomed_after (env : Auth.SecretEnv) (events : List SocketEvent) :
    Roomed (Namespace.after env events) := by
  induction events using List.reverseRecOn with
  | nil => exact roomed_empty
  | append_singleton events event ih =>
      rw [Namespace.after, List.foldl_append]
      cases event with
      | connect now client => exact ih.connect _
      | disconnect id => exact ih.close id

end Roomed

/-! ## What the chain reads -/

theorem lookup_sets (rooms : Rooms) (room : String) :
    List.lookup room (rooms.map fun entry => (entry.1, JsValue.set entry.2)) =
      (List.lookup room rooms).map JsValue.set := by
  induction rooms with
  | nil => rfl
  | cons entry rest ih =>
      rw [List.map_cons, List.lookup_cons, List.lookup_cons, ih]
      cases room == entry.1 <;> rfl

theorem remainingConnections_toServer (n : Namespace) (u : UserId) :
    remainingConnections n.toServer u = .ok (n.rooms.members (userRoom u)).length := by
  have hread : remainingConnections n.toServer u =
      .ok ((((List.lookup (userRoom u) (n.rooms.map fun entry => (entry.1, JsValue.set entry.2))).getD
        .undefined).field "size").orZero) := rfl
  rw [hread, lookup_sets, Rooms.members]
  cases List.lookup (userRoom u) n.rooms <;> rfl

theorem callsLeaveQueue_handleDisconnect {server : JsValue} {client : Socket} {remaining : Nat}
    {u : UserId} (hclient : client.userId ≠ some "")
    (hserver : ∀ v, client.userId = some v → remainingConnections server v = .ok remaining) :
    CallsLeaveQueue (QueueGateway.handleDisconnect server client) u ↔
      client.userId = some u ∧ remaining = 0 := by
  unfold QueueGateway.handleDisconnect
  cases huser : client.userId with
  | none =>
      exact ⟨fun h => absurd h (not_callsLeaveQueue_pure u), fun h => nomatch h.1⟩
  | some v =>
      have hv : v ≠ "" := fun h => hclient (h ▸ huser)
      dsimp only
      rw [if_neg hv, hserver v huser]
      dsimp only
      by_cases hzero : remaining = 0
      · subst hzero
        constructor
        · exact fun h => ⟨congrArg some ((settleDisconnect_calls v).unique h), rfl⟩
        · rintro ⟨heq, -⟩
          cases heq
          exact settleDisconnect_calls _
      · rw [settleDisconnect, if_pos (Nat.pos_of_ne_zero hzero)]
        exact ⟨fun h => absurd h (not_callsLeaveQueue_pure u), fun h => absurd h.2 hzero⟩

/-! ## Histories -/

section Histories

variable {env : Auth.SecretEnv}

theorem connectedUser_ne_empty (now : Nat) (client : Auth.Handshake) :
    connectedUser env now client ≠ some "" := by
  unfold connectedUser Auth.QueueGateway.handleConnection Auth.handleConnection
  cases Auth.extractToken client with
  | none => nofun
  | some token =>
      dsimp only
      cases Auth.getAccessTokenSecret env with
      | error => nofun
      | ok secret =>
          by_cases hverifies : token.verifies secret now = true
          · by_cases hsub : token.sub = "" <;> simp [hverifies, hsub]
          · simp [hverifies]

theorem named_after (events : List SocketEvent) :
    ∀ socket ∈ (Namespace.after env events).sockets, socket.userId ≠ some "" := by
  induction events using List.reverseRecOn with
  | nil => nofun
  | append_singleton events event ih =>
      rw [Namespace.after, List.foldl_append]
      intro socket hsocket
      cases event with
      | connect now client =>
          rcases List.mem_append.mp hsocket with hold | hnew
          · exact ih socket hold
          · exact List.mem_singleton.mp hnew ▸ connectedUser_ne_empty now client
      | disconnect id => exact ih socket (List.mem_of_mem_filter hsocket)

/-- **The object of a namespace.** `leaveQueue` is called at every
disconnect, so the histories without a mistake are those in which no user
closes one socket of several. -/
theorem onlyLastLeaves_iff (events : List SocketEvent) :
    OnlyLastLeaves env Namespace.toJs events ↔ OneByOne env events := by
  have hcalls {before : List SocketEvent} {client : Socket} (id : SocketId) (u : UserId)
      (hclient : client ∈ (Namespace.after env before).sockets) :
      CallsLeaveQueue (QueueGateway.handleDisconnect
        ((Namespace.after env before).close id).toJs client) u ↔ client.userId = some u :=
    (callsLeaveQueue_handleDisconnect (named_after before client hclient)
      fun v _ => remainingConnections_toJs _ v).trans (and_iff_left rfl)
  constructor
  · intro h before id later hevents client hclient hid u hu
    exact ((h before id later hevents client hclient hid u).mp ((hcalls id u hclient).mpr hu)).2
  · intro h before id later hevents client hclient hid
    refine fun u => (hcalls id u hclient).trans ⟨fun hu => ⟨hu, ?_⟩, And.left⟩
    exact h before id later hevents client hclient hid u hu

/-- Two sockets of one user: the first that closes takes the user out of the
queue. -/
theorem not_onlyLastLeaves_two_sockets :
    ¬∀ (env : Auth.SecretEnv) (events : List SocketEvent),
      OnlyLastLeaves env Namespace.toJs events := by
  intro h
  let cfg : AuthConfig := ⟨"s", "s", fun t => t.jti⟩
  let env := Auth.sharedSecret "s"
  let client : Auth.Handshake := ⟨none, some (cfg.signRefreshToken 0 "ann" "f" "t")⟩
  let before : List SocketEvent := [.connect 0 client, .connect 0 client]
  have hann : connectedUser env 0 client = some "ann" := by decide +kernel
  have hsockets : (Namespace.after env before).sockets =
      [⟨freshId 0, some "ann"⟩, ⟨freshId 1, some "ann"⟩] := by
    simp only [before, Namespace.after, List.foldl_cons, List.foldl_nil, Namespace.next, hann]
    rfl
  have hlast := (h env (before ++ [.disconnect (freshId 0)]) before (freshId 0) [] rfl
    ⟨freshId 0, some "ann"⟩ (hsockets ▸ .head _) rfl "ann").mp (settleDisconnect_calls "ann")
  refine hlast.2 ⟨freshId 1, some "ann"⟩ ?_ rfl
  rw [Namespace.close, hsockets]
  decide +kernel

/-- **The object of a server.** There the same path ends at the room of the
user. -/
theorem onlyLastLeaves_toServer (events : List SocketEvent) :
    OnlyLastLeaves env Namespace.toServer events := by
  intro before id later _ client hclient _ closed u
  have hroomed : Roomed closed := (roomed_after env before).close id
  cases huser : client.userId with
  | none =>
      have hnone : CallsLeaveQueue (QueueGateway.handleDisconnect closed.toServer client) u ↔
          client.userId = some u ∧ 0 = 0 :=
        callsLeaveQueue_handleDisconnect (named_after before client hclient) (by simp [huser])
      simpa [huser] using hnone
  | some v =>
      have hv := callsLeaveQueue_handleDisconnect (u := u) (named_after before client hclient)
        (fun v' hv' => by
          rw [huser] at hv'
          cases hv'
          exact remainingConnections_toServer closed v)
      rw [hv, huser, List.length_eq_zero_iff, hroomed.room, List.map_eq_nil_iff,
        List.filter_eq_nil_iff]
      refine and_congr_right fun heq => ?_
      cases heq
      simp

end Histories

end VerityBackend.Queue
