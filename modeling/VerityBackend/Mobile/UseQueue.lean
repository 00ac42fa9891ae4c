/-
VerityBackend.Mobile.UseQueue — the queue store of the mobile app
(`verity-mobile/src/hooks/useQueue.ts`) and the waiting screen that leaves
the queue when it goes away (`verity-mobile/src/screens/WaitingScreen.tsx`).

The store is shared by all screens. Its two asynchronous actions are cut at
their requests, as in `Mobile.UseDecision`, and the handlers of the queue
socket are events. What the waiting screen does with a refund is not a
matter of the store.
-/
import VerityBackend.Backend.Values
import VerityBackend.Mobile.Api

namespace VerityBackend.Mobile

open Async

/-! ## The store -/

inductive QueueStatus where
  | idle
  | joining
  | waiting
  | matched
  deriving DecidableEq, Repr

structure MatchPayload where
  sessionId : Option String
  partnerId : Option String
  partnerAnonymousId : Option String
  queueKey : Option String
  matchedAt : Option String
  deriving DecidableEq, Repr

structure QueueState where
  status : QueueStatus
  estimatedSeconds : Option Int
  match_ : Option MatchPayload
  tokenSpent : Bool
  usersSearching : Option Int
  queueKey : Option String
  deriving DecidableEq, Repr

namespace QueueState

def initial : QueueState where
  status := .idle
  estimatedSeconds := none
  match_ := none
  tokenSpent := false
  usersSearching := none
  queueKey := none

def setEstimated (seconds : Option Int) (q : QueueState) : QueueState :=
  { q with estimatedSeconds := seconds }

def setMatch (payload : MatchPayload) (q : QueueState) : QueueState :=
  { q with
    match_ := some payload
    status := .matched
    estimatedSeconds := none
    usersSearching := none
    queueKey := payload.queueKey }

def setUsersSearching (count : Option Int) (q : QueueState) : QueueState :=
  { q with usersSearching := count }

def markTokenSpent (spent : Bool) (q : QueueState) : QueueState := { q with tokenSpent := spent }

/-- All six fields are set. -/
def reset (_ : QueueState) : QueueState := initial

end QueueState

/-- The body of an answer to `POST /queue/join`, as far as it is read. -/
structure JoinData where
  queueKey : Option String
  deriving DecidableEq, Repr

/-- The body of an answer to `DELETE /queue/leave`, as far as it is read. -/
structure LeaveData where
  refunded : Option JsonField
  deriving DecidableEq, Repr

/-- `joinQueue` up to its request. -/
def QueueState.beginJoin (q : QueueState) : QueueState :=
  if q.status = .joining ∨ q.status = .waiting then q
  else { q with status := .joining, usersSearching := none }

/-- `joinQueue` from its answer on. -/
def QueueState.settleJoin (q : QueueState) (response : Response JoinData) : QueueState :=
  if response.ok then
    { q with status := .waiting, queueKey := response.data.bind (·.queueKey) }
  else { q with status := .idle }

/-! ## Socket events -/

structure EstimatePayload where
  estimatedSeconds : Option JsonField
  etaSeconds : Option JsonField
  deriving DecidableEq, Repr

structure StatusPayload where
  usersSearching : Option JsonField
  deriving DecidableEq, Repr

/-- `typeof value === 'number' ? value : null`. -/
def numberOrNull : Option JsonField → Option Int
  | some (.num n) => some n
  | _ => none

/-- `a ?? b`. -/
def nullish (a b : Option JsonField) : Option JsonField :=
  match a with
  | none | some .null => b
  | some value => some value

def handleMatch (payload : MatchPayload) (q : QueueState) : QueueState :=
  q.setMatch { payload with
    partnerAnonymousId := payload.partnerAnonymousId.or payload.partnerId }

def handleEstimate (payload : Option EstimatePayload) (q : QueueState) : QueueState :=
  q.setEstimated (numberOrNull
    (nullish (payload.bind (·.estimatedSeconds)) (payload.bind (·.etaSeconds))))

def handleStatus (payload : Option StatusPayload) (q : QueueState) : QueueState :=
  q.setUsersSearching (numberOrNull (payload.bind (·.usersSearching)))

def handleQueueDisconnect (q : QueueState) : QueueState :=
  (q.setEstimated none).setUsersSearching none

/-! ## Commands -/

/-- The server: what it answers, and the session it holds the user as matched
in. -/
structure QueueServer where
  State : Type
  join : String → State → Except ClientError (Response JoinData) × State
  leave : State → Except ClientError (Response LeaveData) × State
  matched : State → Option String

/-- `statusRef` is the status the waiting screen has been rendered with. -/
structure QueueWorld (server : QueueServer) where
  store : QueueState
  statusRef : QueueStatus
  server : server.State

inductive QueueCmd where
  | beginJoin
  | postJoin (region : String)
  | settleJoin (response : Response JoinData)
  | beginLeave
  | deleteLeave
  | settleLeave
  | readStatusRef

/-- `beginJoin` answers whether `joinQueue` goes on, `beginLeave` with the
status and `tokenSpent`. -/
abbrev QueueCmd.Res : QueueCmd → Type
  | .beginJoin => Bool
  | .postJoin _ => Response JoinData
  | .settleJoin _ | .settleLeave => Unit
  | .beginLeave => QueueStatus × Bool
  | .deleteLeave => Response LeaveData
  | .readStatusRef => QueueStatus

variable {server : QueueServer}

def QueueCmd.exec (server : QueueServer) :
    (c : QueueCmd) → QueueWorld server → Except ClientError c.Res × QueueWorld server
  | .beginJoin, w =>
      (.ok (decide ¬(w.store.status = .joining ∨ w.store.status = .waiting)),
        { w with store := w.store.beginJoin })
  | .postJoin region, w =>
      let answered := server.join region w.server
      (answered.1, { w with server := answered.2 })
  | .settleJoin response, w =>
      (if response.ok then .ok () else .error (.thrown "Queue join failed"),
        { w with store := w.store.settleJoin response })
  | .beginLeave, w => (.ok (w.store.status, w.store.tokenSpent), w)
  | .deleteLeave, w =>
      let answered := server.leave w.server
      (answered.1, { w with server := answered.2 })
  | .settleLeave, w => (.ok (), { w with store := w.store.reset })
  | .readStatusRef, w => (.ok w.statusRef, w)

abbrev QueueProg (α : Type) := Proc QueueCmd QueueCmd.Res ClientError α

abbrev queue (c : QueueCmd) : QueueProg c.Res := Proc.await c

/-! ## Procedures -/

/-- The region of the build, and `toLowerCase` of a string. -/
structure RegionConfig where
  DEFAULT_QUEUE_REGION : String
  toLowerCase : String → String

def resolveQueueRegion (cfg : RegionConfig) (region : Option String) : String :=
  let candidate := cfg.toLowerCase (jsTrim (region.getD cfg.DEFAULT_QUEUE_REGION))
  if candidate = "" then "au" else candidate

def joinQueue (cfg : RegionConfig) (region : Option String) : QueueProg Unit := do
  if ← queue .beginJoin then
    let response ← queue (.postJoin (resolveQueueRegion cfg region))
    queue (.settleJoin response)

/-- Whether the entry's token is to be shown as refunded. -/
def leaveResult (response : Response LeaveData) (status : QueueStatus) (tokenSpent : Bool) : Bool :=
  match response.ok, response.data.bind (·.refunded) with
  | true, some (.bool refunded) => tokenSpent && status != .matched && refunded
  | _, _ => response.ok && tokenSpent && status != .matched

def leaveQueue : QueueProg Bool := do
  let (status, tokenSpent) ← queue .beginLeave
  if status = .idle then pure false
  else
    let response ← queue .deleteLeave
    queue .settleLeave
    pure (leaveResult response status tokenSpent)

/-- The clean-up of the waiting screen. -/
def cleanup : QueueProg Unit := do
  let status ← queue .readStatusRef
  if status = .matched ∨ status = .idle then pure ()
  else
    let _ ← leaveQueue
    pure ()

inductive QueueOp where
  | joinQueue (region : Option String)
  | leaveQueue
  | cleanup
  deriving DecidableEq, Repr

abbrev QueueOp.Ret : QueueOp → Type
  | .joinQueue _ | .cleanup => Unit
  | .leaveQueue => Bool

def QueueOp.code (cfg : RegionConfig) : (o : QueueOp) → QueueProg o.Ret
  | .joinQueue region => Mobile.joinQueue cfg region
  | .leaveQueue => Mobile.leaveQueue
  | .cleanup => Mobile.cleanup

/-- A socket event (`match` and `match:found` have one handler), a synchronous
action of a screen, a rendering of the waiting screen, or something that
happens on the server. -/
inductive QueueEnv (server : QueueServer) where
  | matchFound (payload : MatchPayload)
  | estimate (payload : Option EstimatePayload)
  | status (payload : Option StatusPayload)
  | disconnect
  | markTokenSpent (spent : Bool)
  | reset
  | rendered
  | server (f : server.State → server.State)

def QueueEnv.apply : QueueEnv server → QueueWorld server → QueueWorld server
  | .matchFound payload, w => { w with store := handleMatch payload w.store }
  | .estimate payload, w => { w with store := handleEstimate payload w.store }
  | .status payload, w => { w with store := handleStatus payload w.store }
  | .disconnect, w => { w with store := handleQueueDisconnect w.store }
  | .markTokenSpent spent, w => { w with store := w.store.markTokenSpent spent }
  | .reset, w => { w with store := w.store.reset }
  | .rendered, w => { w with statusRef := w.store.status }
  | .server f, w => { w with server := f w.server }

/-- The store of one client, and any number of calls that use it. -/
@[reducible] def useQueue (server : QueueServer) (cfg : RegionConfig) : System where
  Cmd := QueueCmd
  Res := QueueCmd.Res
  Err := ClientError
  World := QueueWorld server
  exec := QueueCmd.exec server
  Op := QueueOp
  Ret := QueueOp.Ret
  code := QueueOp.code cfg
  Env := QueueEnv server
  env := QueueEnv.apply

end VerityBackend.Mobile
