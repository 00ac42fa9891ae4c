/-
VerityBackend.Analytics.Events — what an analytics event has to look like
(`analytics/analytics.types.ts` and `normalizeEvent` of
`analytics/analytics.service.ts`).

`normalizeEvent` checks the name, the properties, the schema version, the id
and the time of an event, in this order, and refuses it at the first check
that fails. Two checks look at a value through a conversion of the language,
`Number(value)` and `new Date(value)`; a submission carries what the
conversion returns.
-/
import VerityBackend.Backend.Values

namespace VerityBackend.Analytics

/-! ## Names and values -/

inductive AnalyticsEventName where
  | auth_signup_completed
  | queue_join_requested
  | queue_joined
  | queue_cancel
  | queue_left
  | queue_timeout_shown
  | queue_timeout_continue
  | queue_timeout_leave
  | queue_match_found
  | session_started
  | session_ended
  | session_choice_submitted
  | session_choice_resolved
  | session_result
  | message_sent
  | first_message_sent
  | match_chat_opened
  | match_message_sent
  | token_balance_viewed
  | token_purchase_started
  | token_purchase_succeeded
  | token_purchase_completed
  | token_spent
  | safety_report_submitted
  | safety_violation_detected
  | safety_action_taken
  | safety_appeal_opened
  | safety_appeal_resolved
  deriving DecidableEq, Repr

def ANALYTICS_EVENT_NAMES : List (String × AnalyticsEventName) :=
  [("auth_signup_completed", .auth_signup_completed),
    ("queue_join_requested", .queue_join_requested),
    ("queue_joined", .queue_joined),
    ("queue_cancel", .queue_cancel),
    ("queue_left", .queue_left),
    ("queue_timeout_shown", .queue_timeout_shown),
    ("queue_timeout_continue", .queue_timeout_continue),
    ("queue_timeout_leave", .queue_timeout_leave),
    ("queue_match_found", .queue_match_found),
    ("session_started", .session_started),
    ("session_ended", .session_ended),
    ("session_choice_submitted", .session_choice_submitted),
    ("session_choice_resolved", .session_choice_resolved),
    ("session_result", .session_result),
    ("message_sent", .message_sent),
    ("first_message_sent", .first_message_sent),
    ("match_chat_opened", .match_chat_opened),
    ("match_message_sent", .match_message_sent),
    ("token_balance_viewed", .token_balance_viewed),
    ("token_purchase_started", .token_purchase_started),
    ("token_purchase_succeeded", .token_purchase_succeeded),
    ("token_purchase_completed", .token_purchase_completed),
    ("token_spent", .token_spent),
    ("safety_report_submitted", .safety_report_submitted),
    ("safety_violation_detected", .safety_violation_detected),
    ("safety_action_taken", .safety_action_taken),
    ("safety_appeal_opened", .safety_appeal_opened),
    ("safety_appeal_resolved", .safety_appeal_resolved)]

/-- The string of a name. -/
def AnalyticsEventName.text (name : AnalyticsEventName) : String :=
  ((ANALYTICS_EVENT_NAMES.find? (·.2 = name)).map (·.1)).getD ""

inductive AnalyticsPrimitive where
  | str (s : String)
  | num (x : Rat)
  | bool (b : Bool)
  | null
  deriving DecidableEq, Repr

/-- An object, in the order in which its keys were set. -/
abbrev AnalyticsProperties := List (String × AnalyticsPrimitive)

/-- The object that `parseProperties` fills: its own properties, and whether
it still has the prototype an object literal is created with. -/
structure AnalyticsObject where
  own : AnalyticsProperties
  hasPrototype : Bool
  deriving DecidableEq, Repr

/-- `{}`. -/
def AnalyticsObject.empty : AnalyticsObject := ⟨[], true⟩

/-- `output[key] = value`. The prototype has a setter for `__proto__`: it takes
the prototype away for `null`, and ignores any other primitive. -/
def setProperty (output : AnalyticsObject) (key : String) (value : AnalyticsPrimitive) :
    AnalyticsObject :=
  if key = "__proto__" ∧ output.hasPrototype then
    if value = .null then { output with hasPrototype := false } else output
  else if (output.own.lookup key).isSome then
    { output with own := output.own.map fun p => if p.1 = key then (key, value) else p }
  else { output with own := output.own ++ [(key, value)] }

/-- The field `properties` of a body. -/
inductive PropertiesValue where
  | scalar (v : JsonValue)
  | array
  | object (entries : List (String × JsonValue))
  deriving DecidableEq, Repr

/-- What `Number(value)` gives: a finite number, `NaN` or an infinity, or an
exception, for an object that cannot be made a primitive value. -/
inductive NumberValue where
  | number (x : Rat)
  | notFinite
  | throws (message : String)
  deriving DecidableEq, Repr

/-- The field `occurredAt`, a string being given as the date `new Date`
reads it as. -/
inductive TimeValue where
  | notString
  | string (date : Option Int)
  deriving DecidableEq, Repr

inductive EventSource where
  | web
  | ios
  | android
  | backend
  deriving DecidableEq, Repr

/-! ## Limits -/

def ALLOWED_SCHEMA_VERSIONS : List Nat := [1]
def MAX_PROPERTY_COUNT : Nat := 24
def MAX_STRING_LENGTH : Nat := 200
def DEFAULT_MAX_FUTURE_SKEW_SECONDS : Nat := 300
def DEFAULT_MAX_PAST_SKEW_SECONDS : Nat := 86400

def BLOCKED_PROPERTY_KEYS : List String :=
  ["email", "phone", "text", "message", "bio", "display_name", "displayname", "name", "photos",
    "photo", "details", "token", "authorization", "cookie"]

/-- `/^[a-zA-Z0-9_]+$/`. -/
def KEY_PATTERN (key : String) : Bool :=
  key ≠ "" && key.toList.all fun c =>
    ('a' ≤ c && c ≤ 'z') || ('A' ≤ c && c ≤ 'Z') || ('0' ≤ c && c ≤ '9') || c = '_'

def isHexDigit (c : Char) : Bool :=
  ('0' ≤ c && c ≤ '9') || ('a' ≤ c && c ≤ 'f') || ('A' ≤ c && c ≤ 'F')

/-- What may stand at a place of a UUID. -/
def uuidDigits : List (Char → Bool) :=
  let hex (n : Nat) := List.replicate n isHexDigit
  let dash : List (Char → Bool) := [(· = '-')]
  hex 8 ++ dash ++ hex 4 ++ dash ++ [fun c => '1' ≤ c && c ≤ '5'] ++ hex 3 ++ dash ++
    [fun c => ['8', '9', 'a', 'b', 'A', 'B'].contains c] ++ hex 3 ++ dash ++ hex 12

/-- `/^[0-9a-f]{8}-[0-9a-f]{4}-[1-5][0-9a-f]{3}-[89ab][0-9a-f]{3}-[0-9a-f]{12}$/i`. -/
def UUID_PATTERN (s : String) : Bool :=
  s.length = uuidDigits.length && (uuidDigits.zip s.toList).all fun (allowed, c) => allowed c

/-- The variables of `process.env` that are read. -/
structure AnalyticsEnv where
  APP_REGION : Option String
  ANALYTICS_MAX_FUTURE_SKEW_SECONDS : Option String
  ANALYTICS_MAX_PAST_SKEW_SECONDS : Option String

def readPositiveIntEnv (value : Option String) (fallback : Nat) : Nat :=
  match value with
  | none => fallback
  | some raw =>
      match parseInt raw with
      | none => fallback
      | some parsed =>
          -- `Infinity` is no finite number
          if parsed ≤ 0 ∨ NUMBER_OVERFLOW ≤ parsed.toNat then fallback else parsed.toNat

def maxFutureSkewSeconds (env : AnalyticsEnv) : Nat :=
  readPositiveIntEnv env.ANALYTICS_MAX_FUTURE_SKEW_SECONDS DEFAULT_MAX_FUTURE_SKEW_SECONDS

def maxPastSkewSeconds (env : AnalyticsEnv) : Nat :=
  readPositiveIntEnv env.ANALYTICS_MAX_PAST_SKEW_SECONDS DEFAULT_MAX_PAST_SKEW_SECONDS

/-! ## Strings -/

/-- The first `n` code units. Half a pair that is left over is stored as the
replacement character. -/
def takeUnits : Nat → List Char → List Char
  | _, [] => []
  | 0, _ => []
  | 1, c :: _ => if 0xFFFF < c.toNat then [Char.ofNat 0xFFFD] else [c]
  | n + 2, c :: cs => c :: takeUnits (if 0xFFFF < c.toNat then n else n + 1) cs

/-- `value.slice(0, n)`. -/
def jsSlice (n : Nat) (s : String) : String := String.ofList (takeUnits n s.toList)

/-- `value.toLowerCase()`. -/
def jsLowerCase (s : String) : String := String.ofList (s.toList.flatMap jsLower)

def parseMetadataString (value : Option String) (maxLength : Nat) : Option String :=
  value.bind fun s =>
    let trimmed := jsTrim s
    if trimmed = "" then none
    else if jsLength trimmed > maxLength then some (jsSlice maxLength trimmed)
    else some trimmed

def extractPropertyString (value : Option AnalyticsPrimitive) : Option String :=
  match value with
  | some (.str s) =>
      let trimmed := jsTrim s
      if trimmed = "" then none else some (jsSlice 128 trimmed)
  | _ => none

def sanitizeEventNameForCounter (value : String) : String :=
  let trimmed := jsTrim value
  if trimmed = "" then "unknown"
  else if jsLength trimmed ≤ 120 then trimmed
  else jsSlice 120 trimmed

def parseClientPlatform (value : Option String) : EventSource :=
  match value with
  | none => .web
  | some s =>
      match jsLowerCase (jsTrim s) with
      | "ios" => .ios
      | "android" => .android
      | _ => .web

/-! ## `normalizeEvent` -/

/-- Why an event is refused: `recordDropped(eventName, reason)` and a
`BadRequestException`, or a method called on a value that has none. -/
inductive Refusal where
  | dropped (eventName reason message : String)
  | typeError (message : String)
  deriving DecidableEq, Repr

structure RawEvent where
  source : EventSource
  userId : Option UserId
  name : Option JsonValue
  properties : Option PropertiesValue
  appVersion : Option String
  buildNumber : Option String
  requestId : Option String
  region : Option String
  eventId : Option JsonValue
  /-- `none` is `undefined` or `null`. -/
  occurredAt : Option TimeValue
  /-- `none` is `undefined` or `null`; otherwise `Number(value)`. -/
  eventSchemaVersion : Option NumberValue

structure EmitInput where
  source : EventSource
  userId : Option UserId
  name : AnalyticsEventName
  properties : AnalyticsProperties
  appVersion : Option String
  buildNumber : Option String
  requestId : Option String
  region : Option String
  eventId : String
  occurredAt : Int
  eventSchemaVersion : Nat
  deriving DecidableEq, Repr

def parseEventName (value : Option JsonValue) (strictValidation : Bool) :
    Except Refusal AnalyticsEventName :=
  match value with
  | some (.str s) =>
      match ANALYTICS_EVENT_NAMES.lookup s with
      | some name => .ok name
      | none => .error (.dropped s
          (if strictValidation then "unsupported_event_name" else "server_unsupported_event")
          "Unsupported analytics event name")
  -- `recordDropped` trims the name
  | none => .error (.typeError "Cannot read properties of undefined (reading 'trim')")
  | some .null => .error (.typeError "Cannot read properties of null (reading 'trim')")
  | some _ => .error (.typeError "value.trim is not a function")

/-- One turn of the loop of `parseProperties`. -/
def parseProperty (eventName : String) (output : AnalyticsObject) (rawKey : String)
    (rawValue : JsonValue) : Except Refusal AnalyticsObject :=
  let key := jsTrim rawKey
  if key = "" ∨ jsLength key > 64 ∨ KEY_PATTERN key = false then
    .error (.dropped eventName "invalid_property_key" "Invalid analytics property key")
  else if BLOCKED_PROPERTY_KEYS.contains (jsLowerCase key) then
    .error (.dropped eventName "blocked_property_key"
      ("Property key \"" ++ key ++ "\" is not allowed in analytics events"))
  else
    match rawValue with
    | .null => .ok (setProperty output key .null)
    | .bool b => .ok (setProperty output key (.bool b))
    | .num x => .ok (setProperty output key (.num x))
    | .infinity => .error (.dropped eventName "invalid_numeric_property"
        ("Property \"" ++ key ++ "\" must be finite"))
    | .str s =>
        if jsLength s > MAX_STRING_LENGTH then
          .error (.dropped eventName "property_too_long"
            ("Property \"" ++ key ++ "\" exceeds " ++ toString MAX_STRING_LENGTH ++ " characters"))
        else .ok (setProperty output key (.str s))
    | .composite => .error (.dropped eventName "invalid_property_value"
        ("Property \"" ++ key ++ "\" must be string, number, boolean, or null"))

def parseProperties (value : Option PropertiesValue) (eventName : String) :
    Except Refusal AnalyticsProperties :=
  match value with
  | none => .ok []
  | some (.scalar v) =>
      -- `if (!value)`
      if v = .null ∨ v = .bool false ∨ v = .num 0 ∨ v = .str "" then .ok []
      else .error (.dropped eventName "invalid_properties_type" "properties must be an object")
  | some .array => .error (.dropped eventName "invalid_properties_type" "properties must be an object")
  | some (.object entries) =>
      if entries.length > MAX_PROPERTY_COUNT then
        .error (.dropped eventName "too_many_properties" "Too many analytics properties")
      else do
        let output ← entries.foldlM (fun output p => parseProperty eventName output p.1 p.2) .empty
        return output.own

def parseEventSchemaVersion (value : Option NumberValue) (eventName : String) : Except Refusal Nat :=
  let unsupported : Except Refusal Nat :=
    .error (.dropped eventName "unsupported_schema_version" "Unsupported eventSchemaVersion")
  match value with
  | none => .ok 1
  | some (.number parsed) =>
      match ALLOWED_SCHEMA_VERSIONS.find? fun version : Nat => parsed = (version : Rat) with
      | some version => .ok version
      | none => unsupported
  | some .notFinite => unsupported
  | some (.throws message) => .error (.typeError message)

/-- `uuid` is what `randomUUID()` returns. -/
def parseEventId (uuid : String) (value : Option JsonValue) (eventName : String) :
    Except Refusal String :=
  let invalid : Except Refusal String :=
    .error (.dropped eventName "invalid_event_id" "eventId must be a UUID string")
  match value with
  | none => .ok uuid
  | some .null => .ok uuid
  | some (.str s) => if UUID_PATTERN (jsTrim s) then .ok (jsTrim s) else invalid
  | some _ => invalid

def parseOccurredAt (env : AnalyticsEnv) (nowMs : Nat) (value : Option TimeValue) (eventName : String) :
    Except Refusal Int :=
  let invalid : Except Refusal Int :=
    .error (.dropped eventName "invalid_occurred_at" "occurredAt must be an ISO timestamp")
  match value with
  | none => .ok nowMs
  | some .notString => invalid
  | some (.string none) => invalid
  | some (.string (some parsed)) =>
      let skewMs := parsed - nowMs
      if skewMs > maxFutureSkewSeconds env * 1000 ∨ skewMs < -(maxPastSkewSeconds env * 1000 : Int) then
        .error (.dropped eventName "time_skew" "occurredAt is outside allowed skew window")
      else .ok parsed

def normalizeEvent (env : AnalyticsEnv) (nowMs : Nat) (uuid : String) (input : RawEvent)
    (strictValidation : Bool) : Except Refusal EmitInput := do
  let name ← parseEventName input.name strictValidation
  let properties ← parseProperties input.properties name.text
  let eventSchemaVersion ← parseEventSchemaVersion input.eventSchemaVersion name.text
  let eventId ← parseEventId uuid input.eventId name.text
  let occurredAt ← parseOccurredAt env nowMs input.occurredAt name.text
  return {
    source := input.source
    userId := input.userId
    name, properties
    appVersion := parseMetadataString input.appVersion 64
    buildNumber := parseMetadataString input.buildNumber 64
    requestId := parseMetadataString input.requestId 128
    region := (parseMetadataString input.region 64).or (parseMetadataString env.APP_REGION 64)
    eventId, occurredAt, eventSchemaVersion }

section Normalize

variable {env : AnalyticsEnv} {nowMs : Nat} {uuid : String} {input : RawEvent}
  {strictValidation : Bool} {normalized : EmitInput}

/-- What is accepted has passed every check. -/
theorem normalizeEvent_ok (h : normalizeEvent env nowMs uuid input strictValidation = .ok normalized) :
    parseEventName input.name strictValidation = .ok normalized.name ∧
    parseProperties input.properties normalized.name.text = .ok normalized.properties ∧
    parseEventSchemaVersion input.eventSchemaVersion normalized.name.text =
      .ok normalized.eventSchemaVersion ∧
    parseEventId uuid input.eventId normalized.name.text = .ok normalized.eventId ∧
    parseOccurredAt env nowMs input.occurredAt normalized.name.text = .ok normalized.occurredAt ∧
    normalized.source = input.source := by
  unfold normalizeEvent at h
  simp only [bind, Except.bind, pure, Except.pure] at h
  split at h
  · cases h
  · next name hname =>
      split at h
      · cases h
      · next properties hproperties =>
          split at h
          · cases h
          · next version hversion =>
              split at h
              · cases h
              · next eventId hid =>
                  split at h
                  · cases h
                  · next occurredAt htime =>
                      cases h
                      exact ⟨hname, hproperties, hversion, hid, htime, rfl⟩

/-- The id is the one that was drawn, or looks like a UUID. -/
theorem parseEventId_ok {value : Option JsonValue} {eventName eventId : String}
    (h : parseEventId uuid value eventName = .ok eventId) :
    eventId = uuid ∨ UUID_PATTERN eventId = true := by
  unfold parseEventId at h
  dsimp only at h
  split at h
  · exact .inl (Except.ok.inj h).symm
  · exact .inl (Except.ok.inj h).symm
  · split at h
    · next s hs => exact .inr ((Except.ok.inj h) ▸ hs)
    · cases h
  · cases h

/-- Where no id is given, the one that is drawn decides nothing else. -/
theorem normalizeEvent_uuid (hid : input.eventId = none) :
    normalizeEvent env nowMs uuid input strictValidation =
      (normalizeEvent env nowMs "" input strictValidation).map fun normalized =>
        { normalized with eventId := uuid } := by
  unfold normalizeEvent
  rw [hid]
  cases parseEventName input.name strictValidation with
  | error refusal => rfl
  | ok name =>
      cases hproperties : parseProperties input.properties name.text with
      | error refusal => simp only [bind, Except.bind, hproperties, Except.map]
      | ok properties =>
          cases hversion : parseEventSchemaVersion input.eventSchemaVersion name.text with
          | error refusal => simp only [bind, Except.bind, hproperties, hversion, Except.map]
          | ok version =>
              cases htime : parseOccurredAt env nowMs input.occurredAt name.text with
              | error refusal =>
                  simp only [bind, Except.bind, hproperties, hversion, htime, parseEventId, Except.map]
              | ok occurredAt =>
                  simp only [bind, Except.bind, hproperties, hversion, htime, parseEventId, Except.map,
                    pure, Except.pure]

end Normalize

/-- A client is never taken for the backend. -/
theorem parseClientPlatform_ne_backend (value : Option String) :
    parseClientPlatform value ≠ .backend := by
  unfold parseClientPlatform
  split
  · nofun
  · split <;> nofun

/-- No drawn id looks like one a client can submit: none has a dash. -/
theorem UUID_PATTERN_freshId (n : Nat) : UUID_PATTERN (freshId n) = false := by
  rw [← Bool.not_eq_true]
  intro h
  simp only [UUID_PATTERN, Bool.and_eq_true, decide_eq_true_eq] at h
  obtain ⟨hlength, hall⟩ := h
  have hlist : (freshId n).toList = 'c' :: Nat.toDigits 10 n := String.toList_ofList
  rw [hlist] at hall
  have hdigits : (Nat.toDigits 10 n).length = 35 := by
    have hcount : (freshId n).toList.length = uuidDigits.length := by
      rw [String.length_toList]
      exact hlength
    rw [hlist, List.length_cons] at hcount
    exact Nat.succ.inj hcount
  have h7 : 7 < (Nat.toDigits 10 n).length := by omega
  have hpair : ((· = '-' : Char → Bool), (Nat.toDigits 10 n)[7]) ∈
      uuidDigits.zip ('c' :: Nat.toDigits 10 n) :=
    List.mem_iff_getElem?.mpr ⟨8, List.getElem?_zip_eq_some.mpr
      ⟨rfl, by rw [List.getElem?_cons_succ, List.getElem?_eq_getElem h7]⟩⟩
  have hdash : decide ((Nat.toDigits 10 n)[7] = '-') = true := List.all_eq_true.mp hall _ hpair
  have hdigit := Nat.isDigit_of_mem_toDigits (b := 10) (by decide) (by decide)
    (List.getElem_mem h7)
  rw [of_decide_eq_true hdash] at hdigit
  exact absurd hdigit (by decide)

end VerityBackend.Analytics
