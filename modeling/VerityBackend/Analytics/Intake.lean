/-
VerityBackend.Analytics.Intake — what `POST /analytics/events` does with a
body nobody has validated (`analytics/analytics.controller.ts`).

The body is any JSON object. A name that is no string has no method `trim`,
and the counter that records the drop calls it; a schema version that is an
object with a property `toString` has no number. Both throw a `TypeError`.
`captureClientEvent_handled_iff` says that every other body is stored or
refused with a `BadRequestException` and counted once.
-/
import VerityBackend.Analytics.Properties
import VerityBackend.Analytics.Service
import VerityBackend.Async.Failing

namespace VerityBackend.Analytics

open Async

/-! ## Bodies -/

/-- A value in a JSON body. A number too large for a double is read as an
infinity. -/
inductive Json where
  | null
  | bool (b : Bool)
  | num (x : Rat)
  | infinity (negative : Bool)
  | str (s : String)
  | arr (elements : List Json)
  | obj (entries : List (String × Json))

/-- The conversions of the language between strings, numbers and dates. -/
structure Conversions where
  /-- `String(x)`. -/
  numberToString : Rat → String
  /-- `Number(s)`; `none` if it is not finite. -/
  stringToNumber : String → Option Rat
  /-- `new Date(s).getTime()`; `none` for `NaN`. -/
  dateTime : String → Option Int

mutual

/-- `String(value)`. A property `toString` of a JSON object hides the method,
and is not callable. -/
def Json.toText (conv : Conversions) : Json → Except String String
  | .null => .ok "null"
  | .bool b => .ok (toString b)
  | .num x => .ok (conv.numberToString x)
  | .infinity negative => .ok (if negative then "-Infinity" else "Infinity")
  | .str s => .ok s
  | .arr elements => do
      let texts ← elementTexts conv elements
      return ",".intercalate texts
  | .obj entries =>
      if (entries.lookup "toString").isSome then .error "Cannot convert object to primitive value"
      else .ok "[object Object]"

/-- What `join` puts between the commas. -/
def elementTexts (conv : Conversions) : List Json → Except String (List String)
  | [] => .ok []
  | element :: elements => do
      let text ← element.toText conv
      let texts ← elementTexts conv elements
      return (match element with | .null => "" | _ => text) :: texts

end

def NumberValue.ofOption : Option Rat → NumberValue
  | some x => .number x
  | none => .notFinite

/-- `Number(value)`. -/
def Json.toNumber (conv : Conversions) : Json → NumberValue
  | .null => .number 0
  | .bool b => .number (if b then 1 else 0)
  | .num x => .number x
  | .infinity _ => .notFinite
  | .str s => .ofOption (conv.stringToNumber s)
  | value => match value.toText conv with
      | .ok text => .ofOption (conv.stringToNumber text)
      | .error message => .throws message

/-- What the checks see of a value. -/
def Json.value : Json → JsonValue
  | .null => .null
  | .bool b => .bool b
  | .num x => .num x
  | .infinity _ => .infinity
  | .str s => .str s
  | .arr _ => .composite
  | .obj _ => .composite

def Json.properties : Json → PropertiesValue
  | .arr _ => .array
  | .obj entries => .object (entries.map fun e => (e.1, e.2.value))
  | value => .scalar value.value

def Json.time (conv : Conversions) : Json → Option TimeValue
  | .null => none
  | .str s => some (.string (conv.dateTime s))
  | _ => some .notString

def Json.schemaVersion (conv : Conversions) : Json → Option NumberValue
  | .null => none
  | value => some (value.toNumber conv)

/-! ## The controller -/

abbrev Body := List (String × Json)

structure ClientHeaders where
  platform : Option String
  appVersion : Option String
  buildNumber : Option String
  requestId : Option String
  region : Option String

def Body.event (body : Body) : ClientEvent where
  name := (body.lookup "name").map Json.value
  properties := (body.lookup "properties").map Json.properties

def Body.context (conv : Conversions) (headers : ClientHeaders) (body : Body) : ClientContext where
  platform := headers.platform
  appVersion := headers.appVersion
  buildNumber := headers.buildNumber
  requestId := headers.requestId
  region := headers.region
  eventSchemaVersion := (body.lookup "eventSchemaVersion").bind (Json.schemaVersion conv)
  eventId := (body.lookup "eventId").map Json.value
  occurredAt := (body.lookup "occurredAt").bind (Json.time conv)

def captureClientEvent (env : AnalyticsEnv) (conv : Conversions) (userId : UserId)
    (headers : ClientHeaders) (body : Body) : AnalyticsProg TrackResult :=
  trackClientEvent env userId (Body.event body) (Body.context conv headers body)

/-! ## Objects without a text -/

mutual

/-- There is an object with a property `toString` in the value, or it is one. -/
def Json.hidesToString : Json → Bool
  | .arr elements => anyHidesToString elements
  | .obj entries => (entries.lookup "toString").isSome
  | _ => false

def anyHidesToString : List Json → Bool
  | [] => false
  | element :: elements => element.hidesToString || anyHidesToString elements

end

mutual

theorem toText_error_iff (conv : Conversions) : (value : Json) →
    ((∃ message, value.toText conv = .error message) ↔ value.hidesToString = true)
  | .null => by simp [Json.toText, Json.hidesToString]
  | .bool _ => by simp [Json.toText, Json.hidesToString]
  | .num _ => by simp [Json.toText, Json.hidesToString]
  | .infinity _ => by simp [Json.toText, Json.hidesToString]
  | .str _ => by simp [Json.toText, Json.hidesToString]
  | .obj entries => by
      simp only [Json.toText, Json.hidesToString]
      split <;> simp_all
  | .arr elements => by
      have ih := elementTexts_error_iff conv elements
      simp only [Json.toText, Json.hidesToString]
      rw [← ih]
      cases elementTexts conv elements with
      | ok texts => simp [bind, Except.bind, pure, Except.pure]
      | error message => simp [bind, Except.bind]

theorem elementTexts_error_iff (conv : Conversions) : (elements : List Json) →
    ((∃ message, elementTexts conv elements = .error message) ↔ anyHidesToString elements = true)
  | [] => by simp [elementTexts, anyHidesToString]
  | element :: elements => by
      have hhead := toText_error_iff conv element
      have hrest := elementTexts_error_iff conv elements
      simp only [elementTexts, anyHidesToString, Bool.or_eq_true]
      rw [← hhead, ← hrest]
      cases element.toText conv with
      | error message => simp [bind, Except.bind]
      | ok text =>
          cases elementTexts conv elements with
          | ok texts => simp [bind, Except.bind, pure, Except.pure]
          | error message => simp [bind, Except.bind]

end

theorem ofOption_ne_throws (x : Option Rat) (message : String) :
    NumberValue.ofOption x ≠ .throws message := by
  cases x <;> nofun

theorem schemaVersion_throws_iff (conv : Conversions) (value : Json) :
    (∃ message, value.schemaVersion conv = some (.throws message)) ↔ value.hidesToString = true := by
  have htext := toText_error_iff conv value
  rw [← htext]
  cases value with
  | null => simp [Json.schemaVersion, Json.toText]
  | bool b => simp [Json.schemaVersion, Json.toNumber, Json.toText]
  | num x => simp [Json.schemaVersion, Json.toNumber, Json.toText]
  | infinity negative => simp [Json.schemaVersion, Json.toNumber, Json.toText]
  | str s => simp [Json.schemaVersion, Json.toNumber, Json.toText, ofOption_ne_throws]
  | arr elements =>
      simp only [Json.schemaVersion, Json.toNumber]
      cases (Json.arr elements).toText conv <;> simp [ofOption_ne_throws]
  | obj entries =>
      simp only [Json.schemaVersion, Json.toNumber]
      cases (Json.obj entries).toText conv <;> simp [ofOption_ne_throws]

/-! ## The checks -/

/-- `properties` that `parseProperties` accepts. -/
def AcceptedProperties : Option PropertiesValue → Prop
  | none => True
  | some (.scalar v) => v = .null ∨ v = .bool false ∨ v = .num 0 ∨ v = .str ""
  | some .array => False
  | some (.object entries) => Acceptable entries

def Refusal.IsDropped : Refusal → Prop
  | .dropped _ _ _ => True
  | .typeError _ => False

/-- A check that refuses by counting the event, or lets it pass. -/
def Counts {α : Type} : Except Refusal α → Prop
  | .ok _ => True
  | .error refusal => refusal.IsDropped

section Checks

variable {env : AnalyticsEnv} {nowMs : Nat} {uuid eventName : String} {input : RawEvent}
  {strictValidation : Bool}

theorem counts_parseEventName_iff (value : Option JsonValue) :
    Counts (parseEventName value strictValidation) ↔ ∃ s, value = some (.str s) := by
  cases value with
  | none => exact ⟨nofun, nofun⟩
  | some v =>
      cases v with
      | str s =>
          refine ⟨fun _ => ⟨s, rfl⟩, fun _ => ?_⟩
          simp only [parseEventName]
          split <;> exact trivial
      | _ => exact ⟨nofun, nofun⟩

theorem parseProperties_accepted (value : Option PropertiesValue) (eventName : String) :
    Counts (parseProperties value eventName) ∧
      ((∃ properties, parseProperties value eventName = .ok properties) ↔ AcceptedProperties value) := by
  rcases value with _ | (v | _ | entries)
  · exact ⟨trivial, fun _ => trivial, fun _ => ⟨_, rfl⟩⟩
  · simp only [parseProperties, AcceptedProperties]
    split
    · next h => exact ⟨trivial, fun _ => h, fun _ => ⟨_, rfl⟩⟩
    · next h =>
        refine ⟨trivial, ?_, fun hv => absurd hv h⟩
        rintro ⟨properties, hok⟩
        cases hok
  · refine ⟨trivial, ?_, False.elim⟩
    rintro ⟨properties, hok⟩
    cases hok
  · refine ⟨?_, parseProperties_ok_iff⟩
    rcases parseProperties_spec entries eventName with ⟨-, ps, -, hok⟩ | ⟨-, reason, message, herror⟩
    · rw [hok]
      exact trivial
    · rw [herror]
      exact trivial

theorem counts_parseEventSchemaVersion_iff (value : Option NumberValue) :
    Counts (parseEventSchemaVersion value eventName) ↔ ∀ message, value ≠ some (.throws message) := by
  match value with
  | none => exact ⟨fun _ => nofun, fun _ => trivial⟩
  | some (.number x) =>
      refine ⟨fun _ => nofun, fun _ => ?_⟩
      simp only [parseEventSchemaVersion]
      split <;> exact trivial
  | some .notFinite => exact ⟨fun _ => nofun, fun _ => trivial⟩
  | some (.throws message) => exact ⟨nofun, fun h => absurd rfl (h message)⟩

theorem counts_parseEventId (value : Option JsonValue) : Counts (parseEventId uuid value eventName) := by
  cases value with
  | none => exact trivial
  | some v =>
      cases v with
      | str s =>
          simp only [parseEventId]
          generalize UUID_PATTERN (jsTrim s) = b
          cases b <;> exact trivial
      | _ => exact trivial

theorem counts_parseOccurredAt (value : Option TimeValue) :
    Counts (parseOccurredAt env nowMs value eventName) := by
  unfold parseOccurredAt
  dsimp only
  split
  · exact trivial
  · exact trivial
  · exact trivial
  · split <;> exact trivial

theorem Counts.bind_iff {α β : Type} {x : Except Refusal α} {f : α → Except Refusal β} :
    Counts (x >>= f) ↔ Counts x ∧ ∀ a, x = .ok a → Counts (f a) := by
  cases x with
  | error refusal => exact ⟨fun h => ⟨h, nofun⟩, fun h => h.1⟩
  | ok a => exact ⟨fun h => ⟨trivial, fun b hb => Except.ok.inj hb ▸ h⟩, fun h => h.2 a rfl⟩

/-- **Which events meet a `TypeError`.** Those whose name is no string, and
those that get as far as a schema version that has no number. -/
theorem counts_normalizeEvent_iff :
    Counts (normalizeEvent env nowMs uuid input strictValidation) ↔
      (∃ s, input.name = some (.str s)) ∧
      ((∃ name, parseEventName input.name strictValidation = .ok name) →
        AcceptedProperties input.properties →
        ∀ message, input.eventSchemaVersion ≠ some (.throws message)) := by
  unfold normalizeEvent
  rw [Counts.bind_iff, counts_parseEventName_iff]
  refine and_congr_right fun _ => ?_
  have hrest (name : AnalyticsEventName) (properties : AnalyticsProperties) (version : Nat) :
      Counts (do
        let eventId ← parseEventId uuid input.eventId name.text
        let occurredAt ← parseOccurredAt env nowMs input.occurredAt name.text
        return ({
          source := input.source
          userId := input.userId
          name, properties
          appVersion := parseMetadataString input.appVersion 64
          buildNumber := parseMetadataString input.buildNumber 64
          requestId := parseMetadataString input.requestId 128
          region := (parseMetadataString input.region 64).or (parseMetadataString env.APP_REGION 64)
          eventId, occurredAt, eventSchemaVersion := version } : EmitInput)) :=
    Counts.bind_iff.mpr ⟨counts_parseEventId _, fun _ _ =>
      Counts.bind_iff.mpr ⟨counts_parseOccurredAt _, fun _ _ => trivial⟩⟩
  constructor
  · rintro h ⟨name, hname⟩ haccepted
    obtain ⟨-, hiff⟩ := parseProperties_accepted input.properties name.text
    obtain ⟨properties, hproperties⟩ := hiff.mpr haccepted
    have hthrough := (Counts.bind_iff.mp (h name hname)).2 properties hproperties
    exact (counts_parseEventSchemaVersion_iff _).mp (Counts.bind_iff.mp hthrough).1
  · intro h name hname
    obtain ⟨hcounts, hiff⟩ := parseProperties_accepted input.properties name.text
    refine Counts.bind_iff.mpr ⟨hcounts, fun properties hproperties => ?_⟩
    have hversion := h ⟨name, hname⟩ (hiff.mp ⟨properties, hproperties⟩)
    exact Counts.bind_iff.mpr ⟨(counts_parseEventSchemaVersion_iff _).mpr hversion,
      fun version _ => hrest name properties version⟩

end Checks

/-! ## A rejected event is counted once -/

def counting : AnalyticsCmd → Bool
  | .hourlyUpsert _ _ _ => true
  | _ => false

section Handled

variable (env : AnalyticsEnv) (conv : Conversions) (userId : UserId) (headers : ClientHeaders)
  (body : Body) (w : AnalyticsWorld)

/-- The event passes validation, or the request fails with a
`BadRequestException` and one drop is counted. -/
def Handled : Prop :=
  (∃ normalized, normalizeEvent env w.clock (freshId w.uuids)
    ((Body.event body).raw userId (Body.context conv headers body)) true = .ok normalized) ∨
  ((∃ message, ((captureClientEvent env conv userId headers body).run AnalyticsCmd.exec w).1 =
    .error (.badRequest message)) ∧
   ∃ hourStart eventName,
    ((captureClientEvent env conv userId headers body).commands AnalyticsCmd.exec w).filter counting =
      [.hourlyUpsert hourStart eventName .dropped])

/-- The name is a string, and an event that gets as far as its schema version
has one that can be made a number. -/
structure WellTyped : Prop where
  name : ∃ s, body.lookup "name" = some (.str s)
  version : ∀ s, body.lookup "name" = some (.str s) → s ∈ ANALYTICS_EVENT_NAMES.map (·.1) →
    AcceptedProperties ((body.lookup "properties").map Json.properties) →
    ∀ value, body.lookup "eventSchemaVersion" = some value → value.hidesToString = false

variable {env conv userId headers body w}

theorem parseEventName_ok_iff {s : String} {strictValidation : Bool} :
    (∃ name, parseEventName (some (.str s)) strictValidation = .ok name) ↔
      s ∈ ANALYTICS_EVENT_NAMES.map (·.1) := by
  simp only [parseEventName]
  cases hlookup : ANALYTICS_EVENT_NAMES.lookup s with
  | some name =>
      have hmem := List.lookup_isSome_iff.mp (Option.isSome_of_eq_some hlookup)
      obtain ⟨p, hp, hs⟩ := hmem
      exact ⟨fun _ => List.mem_map.mpr ⟨p, hp, (eq_of_beq hs).symm⟩, fun _ => ⟨name, rfl⟩⟩
  | none =>
      refine ⟨nofun, fun hmem => ?_⟩
      obtain ⟨p, hp, rfl⟩ := List.mem_map.mp hmem
      have hsome : (ANALYTICS_EVENT_NAMES.lookup p.1).isSome = true :=
        List.lookup_isSome_iff.mpr ⟨p, hp, beq_self_eq_true _⟩
      rw [hlookup] at hsome
      cases hsome

theorem name_str_iff {s : String} :
    (body.lookup "name").map Json.value = some (.str s) ↔ body.lookup "name" = some (.str s) := by
  cases body.lookup "name" with
  | none => exact ⟨nofun, nofun⟩
  | some v => cases v <;> simp [Json.value]

theorem version_throws_iff :
    (∃ message, (body.lookup "eventSchemaVersion").bind (Json.schemaVersion conv) =
      some (.throws message)) ↔
      ∃ value, body.lookup "eventSchemaVersion" = some value ∧ value.hidesToString = true := by
  cases body.lookup "eventSchemaVersion" with
  | none => exact ⟨nofun, nofun⟩
  | some value =>
      rw [Option.bind_some, schemaVersion_throws_iff]
      exact ⟨fun h => ⟨value, rfl, h⟩, fun ⟨_, hv, h⟩ => Option.some.inj hv ▸ h⟩

theorem counts_iff_wellTyped {nowMs : Nat} {uuid : String} :
    Counts (normalizeEvent env nowMs uuid
      ((Body.event body).raw userId (Body.context conv headers body)) true) ↔ WellTyped body := by
  rw [counts_normalizeEvent_iff]
  change (∃ s, (body.lookup "name").map Json.value = some (.str s)) ∧
    ((∃ name, parseEventName ((body.lookup "name").map Json.value) true = .ok name) →
      AcceptedProperties ((body.lookup "properties").map Json.properties) →
      ∀ message, (body.lookup "eventSchemaVersion").bind (Json.schemaVersion conv) ≠
        some (.throws message)) ↔ _
  simp only [name_str_iff]
  constructor
  · rintro ⟨hname, hversion⟩
    refine ⟨hname, fun s hs hsupported haccepted value hvalue => ?_⟩
    rw [name_str_iff.mpr hs] at hversion
    have hno := hversion (parseEventName_ok_iff.mpr hsupported) haccepted
    refine Bool.eq_false_iff.mpr fun hhides => ?_
    obtain ⟨message, hthrows⟩ := version_throws_iff.mpr ⟨value, hvalue, hhides⟩
    exact hno message hthrows
  · rintro ⟨⟨s, hs⟩, hversion⟩
    refine ⟨⟨s, hs⟩, fun hname haccepted message hthrows => ?_⟩
    rw [name_str_iff.mpr hs] at hname
    obtain ⟨value, hvalue, hhides⟩ := version_throws_iff.mp ⟨message, hthrows⟩
    have hfalse := hversion s hs (parseEventName_ok_iff.mp hname) haccepted value hvalue
    rw [hhides] at hfalse
    cases hfalse

/-- A dropped event is counted once, whether or not the increment fails. -/
theorem refuse_dropped {α : Type} (eventName reason message : String) (w : AnalyticsWorld) :
    ((refuse (.dropped eventName reason message) : AnalyticsProg α).run AnalyticsCmd.exec w).1 =
      .error (.badRequest message) ∧
    ∃ hourStart name, ((refuse (.dropped eventName reason message) : AnalyticsProg α).commands
      AnalyticsCmd.exec w).filter counting = [.hourlyUpsert hourStart name .dropped] := by
  let upsert : AnalyticsCmd := .hourlyUpsert (w.clock - w.clock % (60 * 60 * 1000))
    (sanitizeEventNameForCounter (sanitizeEventNameForCounter eventName)) .dropped
  let rest (r : Except Err Unit) : AnalyticsProg α :=
    (Proc.tryCatch (.ret r) fun _ => pure ()).bind fun _ => Proc.fail (.badRequest message)
  have hrest (r : Except Err Unit) : rest r = Proc.fail (.badRequest message) := by cases r <;> rfl
  have hrun : (refuse (.dropped eventName reason message) : AnalyticsProg α).run AnalyticsCmd.exec w =
      (rest (AnalyticsCmd.exec upsert w).1).run AnalyticsCmd.exec (AnalyticsCmd.exec upsert w).2 := rfl
  have hcommands : (refuse (.dropped eventName reason message) : AnalyticsProg α).commands
      AnalyticsCmd.exec w = .now :: upsert ::
        (rest (AnalyticsCmd.exec upsert w).1).commands AnalyticsCmd.exec
          (AnalyticsCmd.exec upsert w).2 := rfl
  rw [hrun, hcommands, hrest]
  exact ⟨rfl, _, _, rfl⟩

/-- **When a client event is handled.** Whatever the body and the headers: the
event passes validation, or it is refused with a `BadRequestException` and
counted as dropped once, exactly if its name is a string and no object hides
`toString` in a schema version that is reached. -/
theorem captureClientEvent_handled_iff (env : AnalyticsEnv) (conv : Conversions) (userId : UserId)
    (headers : ClientHeaders) (body : Body) (w : AnalyticsWorld) :
    Handled env conv userId headers body w ↔ WellTyped body := by
  rw [← counts_iff_wellTyped]
  set w' : AnalyticsWorld := { w with uuids := w.uuids + 1 }
  have hrun : (captureClientEvent env conv userId headers body).run AnalyticsCmd.exec w =
      Proc.run AnalyticsCmd.exec
        (trackNormalized (normalizeEvent env w.clock (freshId w.uuids)
          ((Body.event body).raw userId (Body.context conv headers body)) true)) w' := rfl
  have hcommands : (captureClientEvent env conv userId headers body).commands AnalyticsCmd.exec w =
      .now :: .randomUUID :: Proc.commands AnalyticsCmd.exec
        (trackNormalized (normalizeEvent env w.clock (freshId w.uuids)
          ((Body.event body).raw userId (Body.context conv headers body)) true)) w' := rfl
  unfold Handled
  rw [hrun, hcommands]
  cases normalizeEvent env w.clock (freshId w.uuids)
      ((Body.event body).raw userId (Body.context conv headers body)) true with
  | ok normalized => exact ⟨fun _ => trivial, fun _ => .inl ⟨normalized, rfl⟩⟩
  | error refusal =>
      cases refusal with
      | dropped eventName reason message =>
          obtain ⟨hthrown, hcounted⟩ := refuse_dropped (α := TrackResult) eventName reason message w'
          exact ⟨fun _ => trivial, fun _ => .inr ⟨⟨message, hthrown⟩, hcounted⟩⟩
      | typeError message =>
          refine ⟨fun h => ?_, False.elim⟩
          rcases h with ⟨_, hok⟩ | ⟨⟨_, hthrown⟩, -⟩
          · cases hok
          · cases hthrown

/-- `{"name": 5}`, from a client that sends no headers. -/
def numericName : Body := [("name", .num 5)]

def noHeaders : ClientHeaders := ⟨none, none, none, none, none⟩

/-- The request ends with a `TypeError`, and nothing is counted. -/
theorem not_handled_numericName : ¬∀ env conv userId headers body w,
    Handled env conv userId headers body w := by
  intro hall
  let conv : Conversions := ⟨fun _ => "", fun _ => none, fun _ => none⟩
  rcases hall ⟨none, none, none⟩ conv "ann" noHeaders numericName ⟨0, 0, [], [], none⟩ with
    ⟨_, hok⟩ | ⟨⟨_, hthrown⟩, -⟩
  · cases hok
  · cases hthrown

end Handled

end VerityBackend.Analytics
