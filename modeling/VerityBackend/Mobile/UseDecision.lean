/-
VerityBackend.Mobile.UseDecision — the decision screen's hook of the mobile
app (`verity-mobile/src/hooks/useDecision.ts`).

The client hears of the decision on two channels: in the answer to its own
`POST /sessions/:id/choice`, and in an event of the video socket. What stands
between two awaits of the source is one command here, so the hook's state is
changed where the source changes it and nowhere else. The server is a
parameter: what it answers, and what it has decided.
-/
import VerityBackend.Backend.Reveal
import VerityBackend.Mobile.Api

namespace VerityBackend.Mobile

open Async

abbrev DecisionChoice := SessionChoice

/-! ## The hook -/

inductive Outcome where
  | mutual
  | rejected
  deriving DecidableEq, Repr

inductive DecisionStatus where
  | idle
  | submitting
  | waiting
  | resolved
  deriving DecidableEq, Repr

structure DecisionResult where
  outcome : Outcome
  matchId : Option String
  partnerRevealVersion : Option Nat
  partnerReveal : Option PartnerReveal
  deriving DecidableEq, Repr

/-- The states and refs of one mounted `useDecision`. -/
structure UseDecision where
  choice : Option DecisionChoice
  status : DecisionStatus
  result : Option DecisionResult
  timerRef : Bool
  submittedRef : Bool
  deriving DecidableEq, Repr

def UseDecision.mounted : UseDecision where
  choice := none
  status := .idle
  result := none
  timerRef := false
  submittedRef := false

/-- The body of an answer to `POST /sessions/:id/choice`. -/
structure ChoiceData where
  status : Option String
  outcome : Option String
  matchId : Option String
  partnerRevealVersion : Option Nat
  partnerReveal : Option PartnerReveal
  deriving DecidableEq, Repr

/-- The session has expired, or is somebody else's: the client logs out. -/
def unauthorized (response : Response ChoiceData) : Bool :=
  response.status == 401 || response.status == 403

/-- The body, where it says that the decision is made. -/
def resolution (response : Response ChoiceData) : Option ChoiceData :=
  response.data.filter (·.status = some "resolved")

def ChoiceData.result (data : ChoiceData) : DecisionResult :=
  if data.outcome = some "mutual" then
    ⟨.mutual, data.matchId, data.partnerRevealVersion, data.partnerReveal⟩
  else ⟨.rejected, none, none, none⟩

/-- `submitChoice` up to its request. -/
def UseDecision.attempt (h : UseDecision) (next : DecisionChoice) : UseDecision :=
  if h.submittedRef then h
  else { h with submittedRef := true, status := .submitting, choice := some next }

/-- `submitChoice` from its answer on. -/
def UseDecision.settle (h : UseDecision) (response : Response ChoiceData) : UseDecision :=
  if unauthorized response then h
  else if response.ok then
    match resolution response with
    | some data => { h with result := some data.result, status := .resolved }
    | none => { h with status := .waiting }
  else { h with submittedRef := false, status := .idle }

structure DecisionPayload where
  sessionId : Option String
  matchId : Option String
  partnerRevealVersion : Option Nat
  partnerReveal : Option PartnerReveal
  deriving DecidableEq, Repr

/-- The events of the video socket the hook listens to. -/
inductive DecisionEvent where
  | mutual (payload : Option DecisionPayload)
  | non_mutual (payload : Option DecisionPayload)
  | rejected (payload : Option DecisionPayload)
  deriving DecidableEq, Repr

def DecisionEvent.payload : DecisionEvent → Option DecisionPayload
  | .mutual payload | .non_mutual payload | .rejected payload => payload

def DecisionEvent.result : DecisionEvent → DecisionResult
  | .mutual payload =>
      ⟨.mutual, payload.bind (·.matchId), payload.bind (·.partnerRevealVersion),
        payload.bind (·.partnerReveal)⟩
  | .non_mutual _ | .rejected _ => ⟨.rejected, none, none, none⟩

/-- The event names another session. -/
def DecisionEvent.foreign (sessionId : Option String) (event : DecisionEvent) : Bool :=
  match truthyString sessionId, truthyString (event.payload.bind (·.sessionId)) with
  | some own, some other => own != other
  | _, _ => false

/-- `handleMutual` and `handleRejected`. -/
def UseDecision.handle (h : UseDecision) (sessionId : Option String) (event : DecisionEvent) :
    UseDecision :=
  if event.foreign sessionId then h
  else { h with result := some event.result, status := .resolved }

/-! ## Commands -/

/-- The server: what it answers a choice with, and what it has decided. -/
structure DecisionServer where
  State : Type
  choice : String → DecisionChoice → State → Except ClientError (Response ChoiceData) × State
  decision : State → Option Outcome

structure DecisionWorld (server : DecisionServer) where
  hook : UseDecision
  server : server.State

/-- What the hook does between two awaits, and its request. `attempt` answers
whether `submitChoice` goes on, `startTimer` whether there was no timer yet,
and `timeout` whether the timer finds that nothing has been submitted. -/
inductive DecisionCmd where
  | startTimer
  | timeout
  | attempt (next : DecisionChoice)
  | request (sessionId : String) (next : DecisionChoice)
  | settle (response : Response ChoiceData)

abbrev DecisionCmd.Res : DecisionCmd → Type
  | .startTimer | .timeout | .attempt _ => Bool
  | .request _ _ => Response ChoiceData
  | .settle _ => Unit

variable {server : DecisionServer}

def DecisionCmd.exec (server : DecisionServer) :
    (c : DecisionCmd) → DecisionWorld server → Except ClientError c.Res × DecisionWorld server
  | .startTimer, w => (.ok !w.hook.timerRef, { w with hook := { w.hook with timerRef := true } })
  | .timeout, w => (.ok !w.hook.submittedRef, w)
  | .attempt next, w => (.ok !w.hook.submittedRef, { w with hook := w.hook.attempt next })
  | .request sessionId next, w =>
      let answered := server.choice sessionId next w.server
      (answered.1, { w with server := answered.2 })
  | .settle response, w => (.ok (), { w with hook := w.hook.settle response })

abbrev DecisionProg (α : Type) := Proc DecisionCmd DecisionCmd.Res ClientError α

abbrev hook (c : DecisionCmd) : DecisionProg c.Res := Proc.await c

/-! ## Procedures -/

def submitChoice (sessionId : Option String) (next : DecisionChoice) : DecisionProg Unit :=
  match truthyString sessionId with
  | none => pure ()
  | some sessionId => do
      if ← hook (.attempt next) then
        let response ← hook (.request sessionId next)
        hook (.settle response)

/-- The timer goes off at `timeout`; it never does after the screen is gone. -/
def startAutoPass (sessionId : Option String) : DecisionProg Unit := do
  if ← hook .startTimer then
    if ← hook .timeout then
      submitChoice sessionId .PASS

inductive DecisionOp where
  | submitChoice (next : DecisionChoice)
  | startAutoPass
  deriving DecidableEq, Repr

def DecisionOp.code (sessionId : Option String) : DecisionOp → DecisionProg Unit
  | .submitChoice next => Mobile.submitChoice sessionId next
  | .startAutoPass => Mobile.startAutoPass sessionId

/-- An event is delivered, or something happens on the server. -/
inductive DecisionEnv (server : DecisionServer) where
  | deliver (event : DecisionEvent)
  | server (f : server.State → server.State)

def DecisionEnv.apply (sessionId : Option String) :
    DecisionEnv server → DecisionWorld server → DecisionWorld server
  | .deliver event, w => { w with hook := w.hook.handle sessionId event }
  | .server f, w => { w with server := f w.server }

/-- One mounted hook: any number of attempts to choose, their answers and the
events, in any order. -/
@[reducible] def useDecision (server : DecisionServer) (sessionId : Option String) : System where
  Cmd := DecisionCmd
  Res := DecisionCmd.Res
  Err := ClientError
  World := DecisionWorld server
  exec := DecisionCmd.exec server
  Op := DecisionOp
  Ret := fun _ => Unit
  code := DecisionOp.code sessionId
  Env := DecisionEnv server
  env := DecisionEnv.apply sessionId

end VerityBackend.Mobile
