/-
VerityBackend.Analytics.Service — taking events in
(`analytics/analytics.service.ts`).

An event becomes a row of `AnalyticsEvent`, whose `eventId` is unique, and is
counted by hour and name. The two statements are two commands, and the
environment may have any command of Prisma throw. `AnalyticsModule` imports
the Prisma client, so the branch without one is never taken. The increments
nobody waits for (`recordDropped`) are executed where they are issued; the log
lines are left out.
-/
import VerityBackend.Analytics.Events
import VerityBackend.Async.Interleaving

namespace VerityBackend.Analytics

open Async

/-! ## Tables -/

/-- `platform` repeats `source`. -/
structure AnalyticsEvent where
  eventSchemaVersion : Nat
  eventId : String
  eventName : AnalyticsEventName
  occurredAt : Int
  receivedAt : Nat
  source : EventSource
  platform : EventSource
  appVersion : Option String
  buildNumber : Option String
  region : Option String
  requestId : Option String
  userId : Option UserId
  sessionId : Option String
  matchId : Option String
  queueKey : Option String
  properties : AnalyticsProperties
  deriving DecidableEq, Repr

/-- One row for each hour and name. -/
structure AnalyticsIngestHourly where
  hourStart : Nat
  eventName : String
  acceptedCount : Nat
  droppedCount : Nat
  deriving DecidableEq, Repr

inductive CounterField where
  | accepted
  | dropped
  deriving DecidableEq, Repr

/-- `fault` is what the next call of Prisma throws, if it is to fail. -/
structure AnalyticsWorld where
  clock : Nat
  uuids : Nat
  events : List AnalyticsEvent
  hourly : List AnalyticsIngestHourly
  fault : Option Err

/-! ## Commands -/

inductive AnalyticsCmd where
  | now
  | randomUUID
  | eventCreate (data : AnalyticsEvent)
  | hourlyUpsert (hourStart : Nat) (eventName : String) (field : CounterField)

abbrev AnalyticsCmd.Res : AnalyticsCmd → Type
  | .now => Nat
  | .randomUUID => String
  | .eventCreate _ => Unit
  | .hourlyUpsert _ _ _ => Unit

namespace AnalyticsIngestHourly

def increment (row : AnalyticsIngestHourly) : CounterField → AnalyticsIngestHourly
  | .accepted => { row with acceptedCount := row.acceptedCount + 1 }
  | .dropped => { row with droppedCount := row.droppedCount + 1 }

/-- `upsert({ where: { hourStart_eventName }, create, update })`. -/
def upsert (rows : List AnalyticsIngestHourly) (hourStart : Nat) (eventName : String)
    (field : CounterField) : List AnalyticsIngestHourly :=
  if rows.any fun row => row.hourStart = hourStart ∧ row.eventName = eventName then
    rows.map fun row =>
      if row.hourStart = hourStart ∧ row.eventName = eventName then row.increment field else row
  else rows ++ [increment ⟨hourStart, eventName, 0, 0⟩ field]

end AnalyticsIngestHourly

/-- A call of Prisma, which fails where it is to. -/
def AnalyticsWorld.prisma {α : Type} (w : AnalyticsWorld)
    (statement : AnalyticsWorld → Except Err α × AnalyticsWorld) : Except Err α × AnalyticsWorld :=
  match w.fault with
  | some err => (.error err, { w with fault := none })
  | none => statement w

def AnalyticsCmd.exec : (c : AnalyticsCmd) → AnalyticsWorld → Except Err c.Res × AnalyticsWorld
  | .now, w => (.ok w.clock, w)
  | .randomUUID, w => (.ok (freshId w.uuids), { w with uuids := w.uuids + 1 })
  | .eventCreate data, w => w.prisma fun w =>
      -- `eventId String @unique`
      if w.events.any (·.eventId = data.eventId) then (.error (.prisma "P2002"), w)
      else (.ok (), { w with events := w.events ++ [data] })
  | .hourlyUpsert hourStart eventName field, w => w.prisma fun w =>
      (.ok (), { w with hourly := AnalyticsIngestHourly.upsert w.hourly hourStart eventName field })

section Exec

variable {w : AnalyticsWorld}

theorem prisma_fault {α : Type} {err : Err} (h : w.fault = some err)
    (statement : AnalyticsWorld → Except Err α × AnalyticsWorld) :
    w.prisma statement = (.error err, { w with fault := none }) := by
  unfold AnalyticsWorld.prisma
  rw [h]

theorem prisma_ok {α : Type} (h : w.fault = none)
    (statement : AnalyticsWorld → Except Err α × AnalyticsWorld) :
    w.prisma statement = statement w := by
  unfold AnalyticsWorld.prisma
  rw [h]

theorem eventCreate_fault {err : Err} (h : w.fault = some err) (data : AnalyticsEvent) :
    (AnalyticsCmd.eventCreate data).exec w = (.error err, { w with fault := none }) := by
  simp only [AnalyticsCmd.exec, prisma_fault h]

theorem eventCreate_taken {data : AnalyticsEvent} (h : w.fault = none)
    (htaken : ∃ row ∈ w.events, row.eventId = data.eventId) :
    (AnalyticsCmd.eventCreate data).exec w = (.error (.prisma "P2002"), w) := by
  have hany : w.events.any (·.eventId = data.eventId) = true := by simpa using htaken
  simp only [AnalyticsCmd.exec, prisma_ok h, hany, if_true]

theorem eventCreate_free {data : AnalyticsEvent} (h : w.fault = none)
    (hfree : ∀ row ∈ w.events, row.eventId ≠ data.eventId) :
    (AnalyticsCmd.eventCreate data).exec w = (.ok (), { w with events := w.events ++ [data] }) := by
  have hany : ¬w.events.any (·.eventId = data.eventId) = true := by simpa using hfree
  simp only [AnalyticsCmd.exec, prisma_ok h, hany]
  rfl

theorem hourlyUpsert_fault {err : Err} (h : w.fault = some err) (hourStart : Nat) (eventName : String)
    (field : CounterField) :
    (AnalyticsCmd.hourlyUpsert hourStart eventName field).exec w =
      (.error err, { w with fault := none }) := by
  simp only [AnalyticsCmd.exec, prisma_fault h]

theorem hourlyUpsert_ok (h : w.fault = none) (hourStart : Nat) (eventName : String)
    (field : CounterField) :
    (AnalyticsCmd.hourlyUpsert hourStart eventName field).exec w =
      (.ok (), { w with hourly := AnalyticsIngestHourly.upsert w.hourly hourStart eventName field }) := by
  simp only [AnalyticsCmd.exec, prisma_ok h]

end Exec

/-- Time passes, or the next call of Prisma is going to fail. -/
inductive AnalyticsEnvironment where
  | tick (ms : Nat)
  | fault (err : Err)

def AnalyticsWorld.env : AnalyticsEnvironment → AnalyticsWorld → AnalyticsWorld
  | .tick ms, w => { w with clock := w.clock + ms }
  | .fault err, w => { w with fault := some err }

abbrev AnalyticsProg (α : Type) := Proc AnalyticsCmd AnalyticsCmd.Res Err α

abbrev await (c : AnalyticsCmd) : AnalyticsProg c.Res := Proc.await c

/-! ## `persistEvent` -/

structure TrackResult where
  accepted : Bool
  droppedReason : Option String
  deriving DecidableEq, Repr

def incrementIngestCounter (eventNameRaw : String) (field : CounterField) (receivedAt : Nat) :
    AnalyticsProg Unit :=
  await (.hourlyUpsert (receivedAt - receivedAt % (60 * 60 * 1000))
    (sanitizeEventNameForCounter eventNameRaw) field)

def recordDropped (eventNameRaw : String) : AnalyticsProg Unit := do
  let receivedAt ← await .now
  (incrementIngestCounter (sanitizeEventNameForCounter eventNameRaw) .dropped receivedAt).tryCatch
    fun _ => pure ()

def isDuplicateEventIdError (error : Err) : Bool := error = .prisma "P2002"

/-- The row of an event. -/
def EmitInput.row (input : EmitInput) (receivedAt : Nat) : AnalyticsEvent where
  eventSchemaVersion := input.eventSchemaVersion
  eventId := input.eventId
  eventName := input.name
  occurredAt := input.occurredAt
  receivedAt := receivedAt
  source := input.source
  platform := input.source
  appVersion := input.appVersion
  buildNumber := input.buildNumber
  region := input.region
  requestId := input.requestId
  userId := input.userId
  sessionId := extractPropertyString (input.properties.lookup "sessionId")
  matchId := extractPropertyString (input.properties.lookup "matchId")
  queueKey := extractPropertyString (input.properties.lookup "queueKey")
  properties := input.properties

/-- The handler of `persistEvent`. -/
def handlePersistError (input : EmitInput) (strictPersistence : Bool) (receivedAt : Nat) (error : Err) :
    AnalyticsProg TrackResult :=
  if isDuplicateEventIdError error then do
    (incrementIngestCounter input.name.text .dropped receivedAt).tryCatch fun _ => pure ()
    return ⟨false, some "duplicate_event_id"⟩
  else if strictPersistence then Proc.fail error
  else pure ⟨false, some "sink_error"⟩

def persistEvent (input : EmitInput) (strictPersistence : Bool) : AnalyticsProg TrackResult := do
  let receivedAt ← await .now
  Proc.tryCatch
    (do
      await (.eventCreate (input.row receivedAt))
      incrementIngestCounter input.name.text .accepted receivedAt
      return ⟨true, none⟩)
    (handlePersistError input strictPersistence receivedAt)

/-! ## Operations -/

structure ClientEvent where
  name : Option JsonValue
  properties : Option PropertiesValue

/-- The headers of the request, and the other fields of its body. -/
structure ClientContext where
  platform : Option String
  appVersion : Option String
  buildNumber : Option String
  requestId : Option String
  region : Option String
  eventId : Option JsonValue
  occurredAt : Option TimeValue
  eventSchemaVersion : Option NumberValue

structure ServerEvent where
  userId : Option UserId
  name : String
  properties : Option PropertiesValue
  occurredAt : Option TimeValue
  eventId : Option JsonValue
  eventSchemaVersion : Option NumberValue

def ClientEvent.raw (userId : UserId) (event : ClientEvent) (context : ClientContext) : RawEvent where
  source := parseClientPlatform context.platform
  userId := some userId
  name := event.name
  properties := event.properties
  appVersion := context.appVersion
  buildNumber := context.buildNumber
  requestId := context.requestId
  region := context.region
  eventId := context.eventId
  occurredAt := context.occurredAt
  eventSchemaVersion := context.eventSchemaVersion

def ServerEvent.raw (env : AnalyticsEnv) (input : ServerEvent) : RawEvent where
  source := .backend
  userId := input.userId
  name := some (.str input.name)
  properties := input.properties
  appVersion := none
  buildNumber := none
  requestId := none
  region := env.APP_REGION
  eventId := input.eventId
  occurredAt := input.occurredAt
  eventSchemaVersion := input.eventSchemaVersion

/-- What a refused event throws, after it has been counted. -/
def refuse {α : Type} : Refusal → AnalyticsProg α
  | .dropped eventName _ message => do
      recordDropped eventName
      Proc.fail (.badRequest message)
  | .typeError message => Proc.fail (.command message)

def trackClientEvent (env : AnalyticsEnv) (userId : UserId) (event : ClientEvent)
    (context : ClientContext) : AnalyticsProg TrackResult := do
  let nowMs ← await .now
  let uuid ← await .randomUUID
  match normalizeEvent env nowMs uuid (event.raw userId context) true with
  | .ok normalized => persistEvent normalized true
  | .error refusal => refuse refusal

/-- What `trackClientEvent` does with a validated event. -/
def trackNormalized : Except Refusal EmitInput → AnalyticsProg TrackResult
  | .ok normalized => persistEvent normalized true
  | .error refusal => refuse refusal

/-- The row is inserted by a call nobody waits for. -/
def trackServerEvent (env : AnalyticsEnv) (input : ServerEvent) : AnalyticsProg Unit := do
  let nowMs ← await .now
  let uuid ← await .randomUUID
  match normalizeEvent env nowMs uuid (input.raw env) false with
  | .ok normalized =>
      Proc.tryCatch (do let _ ← persistEvent normalized false; return ()) fun _ => pure ()
  | .error refusal => Proc.tryCatch (refuse refusal) fun _ => pure ()

inductive AnalyticsOp where
  | trackClientEvent (userId : UserId) (event : ClientEvent) (context : ClientContext)
  | trackServerEvent (input : ServerEvent)

abbrev AnalyticsOp.Ret : AnalyticsOp → Type
  | .trackClientEvent _ _ _ => TrackResult
  | .trackServerEvent _ => Unit

def AnalyticsOp.code (env : AnalyticsEnv) : (o : AnalyticsOp) → AnalyticsProg o.Ret
  | .trackClientEvent userId event context => Analytics.trackClientEvent env userId event context
  | .trackServerEvent input => Analytics.trackServerEvent env input

/-- `AnalyticsService`, with its environment. -/
@[reducible] def analytics (env : AnalyticsEnv) : System where
  Cmd := AnalyticsCmd
  Res := AnalyticsCmd.Res
  Err := Err
  World := AnalyticsWorld
  exec := AnalyticsCmd.exec
  Op := AnalyticsOp
  Ret := AnalyticsOp.Ret
  code := AnalyticsOp.code env
  Env := AnalyticsEnvironment
  env := AnalyticsWorld.env

end VerityBackend.Analytics
