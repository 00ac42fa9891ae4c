/-
VerityBackend.Telemetry.Influence — what clients can do to the stage gates.

Clients and the backend write into one table under one list of names, and a
snapshot counts both (`client_moves_gates`). A submission reaches a snapshot as
a row with one of the nine names in its window, and in no other way: where
these rows are the same, so are the snapshots (`snapshots_eq`).
-/
import VerityBackend.Telemetry.Snapshots

namespace VerityBackend.Telemetry

open Async Analytics

/-! ## Runs -/

inductive Step where
  | trackClientEvent (userId : UserId) (event : ClientEvent) (context : ClientContext)
  | trackServerEvent (input : ServerEvent)
  | emitSyntheticBackendEvents (userId : UserId)
  | computeAndPersistSnapshot
  | getStageGateView
  | tick (ms : Nat)

def Step.byClient : Step → Bool
  | .trackClientEvent _ _ _ => true
  | _ => false

namespace TelemetryWorld

/-- A procedure is run to its end. -/
def perform {α : Type} (w : TelemetryWorld) (p : AnalyticsProg α) : TelemetryWorld :=
  { w with analytics := (p.run AnalyticsCmd.exec w.analytics).2 }

def next (env : AnalyticsEnv) (w : TelemetryWorld) : Step → TelemetryWorld
  | .trackClientEvent userId event context => w.perform (trackClientEvent env userId event context)
  | .trackServerEvent input => w.perform (trackServerEvent env input)
  | .emitSyntheticBackendEvents userId => w.perform (emitSyntheticBackendEvents env userId)
  | .computeAndPersistSnapshot => (Telemetry.computeAndPersistSnapshot w).2
  | .getStageGateView => (Telemetry.getStageGateView w).2
  | .tick ms => { w with analytics := w.analytics.env (.tick ms) }

def after (env : AnalyticsEnv) (w : TelemetryWorld) (h : List Step) : TelemetryWorld :=
  h.foldl (next env) w

end TelemetryWorld

/-- What the services do. -/
def services (h : List Step) : List Step := h.filter fun s => !s.byClient

/-! ## What is stored -/

section Stored

variable {env : AnalyticsEnv} {w : AnalyticsWorld}

/-- A row is added unless its id is taken. -/
def stored (events : List AnalyticsEvent) (row : AnalyticsEvent) : List AnalyticsEvent :=
  if ∃ taken ∈ events, taken.eventId = row.eventId then events else events ++ [row]

theorem incrementIngestCounter_run (h : w.fault = none) (eventNameRaw : String) (field : CounterField)
    (receivedAt : Nat) :
    ∃ hourly, (incrementIngestCounter eventNameRaw field receivedAt).run AnalyticsCmd.exec w =
      (.ok (), { w with hourly := hourly }) :=
  ⟨_, hourlyUpsert_ok h _ _ _⟩

theorem recordDropped_run (h : w.fault = none) (eventNameRaw : String) :
    ∃ hourly, (recordDropped eventNameRaw).run AnalyticsCmd.exec w =
      (.ok (), { w with hourly := hourly }) := by
  obtain ⟨hourly, hrun⟩ := incrementIngestCounter_run h (sanitizeEventNameForCounter eventNameRaw)
    .dropped w.clock
  refine ⟨hourly, ?_⟩
  change (Proc.tryCatch (incrementIngestCounter _ _ _) _).run AnalyticsCmd.exec w = _
  rw [Proc.run_tryCatch, hrun]

theorem refuse_run {α : Type} (h : w.fault = none) (refusal : Refusal) :
    ∃ err hourly, (refuse (α := α) refusal).run AnalyticsCmd.exec w =
      (.error err, { w with hourly := hourly }) := by
  cases refusal with
  | typeError message => exact ⟨_, w.hourly, rfl⟩
  | dropped eventName reason message =>
      obtain ⟨hourly, hrun⟩ := recordDropped_run h eventName
      exact ⟨_, hourly, Proc.run_bind_ok _ hrun _⟩

/-- What is left of an event: its row, where the id is free. -/
theorem persistEvent_run (h : w.fault = none) (input : EmitInput) (strictPersistence : Bool) :
    ∃ r hourly, (persistEvent input strictPersistence).run AnalyticsCmd.exec w =
      (.ok r, { w with events := stored w.events (input.row w.clock), hourly := hourly }) := by
  have hstart : (persistEvent input strictPersistence).run AnalyticsCmd.exec w =
      (Proc.tryCatch ((await (.eventCreate (input.row w.clock))).bind fun _ =>
        (incrementIngestCounter input.name.text .accepted w.clock).bind fun _ => pure ⟨true, none⟩)
        (handlePersistError input strictPersistence w.clock)).run AnalyticsCmd.exec w := rfl
  rw [hstart, Proc.run_tryCatch, Proc.run_bind, Proc.run_await]
  unfold stored
  by_cases htaken : ∃ taken ∈ w.events, taken.eventId = (input.row w.clock).eventId
  · obtain ⟨hourly, hrun⟩ := incrementIngestCounter_run h input.name.text .dropped w.clock
    refine ⟨⟨false, some "duplicate_event_id"⟩, hourly, ?_⟩
    rw [if_pos htaken, eventCreate_taken h htaken]
    change (Proc.bind (Proc.tryCatch (incrementIngestCounter _ _ _) _) _).run AnalyticsCmd.exec w = _
    rw [Proc.run_bind, Proc.run_tryCatch, hrun]
    rfl
  · have hfree := eventCreate_free h fun row hrow hid => htaken ⟨row, hrow, hid⟩
    obtain ⟨hourly, hrun⟩ := incrementIngestCounter_run
      (w := { w with events := w.events ++ [input.row w.clock] }) h input.name.text .accepted w.clock
    refine ⟨⟨true, none⟩, hourly, ?_⟩
    rw [if_neg htaken, hfree]
    dsimp only
    rw [Proc.run_bind, hrun]
    rfl

variable (env) in
theorem trackClientEvent_run (h : w.fault = none) (userId : UserId) (event : ClientEvent)
    (context : ClientContext) :
    ∃ hourly, ((trackClientEvent env userId event context).run AnalyticsCmd.exec w).2 =
      { w with
        uuids := w.uuids + 1
        events :=
          match normalizeEvent env w.clock (freshId w.uuids) (event.raw userId context) true with
          | .ok normalized => stored w.events (normalized.row w.clock)
          | .error _ => w.events
        hourly := hourly } := by
  set w' : AnalyticsWorld := { w with uuids := w.uuids + 1 }
  change ∃ hourly, (Proc.run AnalyticsCmd.exec
    (match normalizeEvent env w.clock (freshId w.uuids) (event.raw userId context) true with
      | .ok normalized => persistEvent normalized true
      | .error refusal => refuse refusal) w').2 = _
  split
  · next normalized _ =>
      obtain ⟨r, hourly, hrun⟩ := persistEvent_run (w := w') h normalized true
      exact ⟨hourly, congrArg Prod.snd hrun⟩
  · next refusal _ =>
      obtain ⟨err, hourly, hrun⟩ := refuse_run (α := TrackResult) (w := w') h refusal
      exact ⟨hourly, congrArg Prod.snd hrun⟩

variable (env) in
theorem trackServerEvent_run (h : w.fault = none) (input : ServerEvent) :
    ∃ hourly, ((trackServerEvent env input).run AnalyticsCmd.exec w).2 =
      { w with
        uuids := w.uuids + 1
        events :=
          match normalizeEvent env w.clock (freshId w.uuids) (input.raw env) false with
          | .ok normalized => stored w.events (normalized.row w.clock)
          | .error _ => w.events
        hourly := hourly } := by
  set w' : AnalyticsWorld := { w with uuids := w.uuids + 1 }
  change ∃ hourly, (Proc.run AnalyticsCmd.exec
    (match normalizeEvent env w.clock (freshId w.uuids) (input.raw env) false with
      | .ok normalized =>
          Proc.tryCatch ((persistEvent normalized false).bind fun _ => pure ()) fun _ => pure ()
      | .error refusal => Proc.tryCatch (refuse refusal) fun _ => pure ()) w').2 = _
  split
  · next normalized _ =>
      obtain ⟨r, hourly, hrun⟩ := persistEvent_run (w := w') h normalized false
      refine ⟨hourly, ?_⟩
      rw [Proc.run_tryCatch, Proc.run_bind, hrun]
      rfl
  · next refusal _ =>
      obtain ⟨err, hourly, hrun⟩ := refuse_run (α := Unit) (w := w') h refusal
      refine ⟨hourly, ?_⟩
      rw [Proc.run_tryCatch, hrun]
      rfl

end Stored

/-! ## The rows of the backend -/

def ofBackend (row : AnalyticsEvent) : Bool := row.source = .backend

/-- The time, the name and the properties of each of them. -/
def backendEvents (events : List AnalyticsEvent) : List (Int × GateEvent) :=
  (events.filter ofBackend).map fun row => (row.occurredAt, ⟨row.eventName, row.properties⟩)

/-- Nothing fails, and ids to be drawn are free. -/
structure Ready (w : AnalyticsWorld) : Prop where
  fault : w.fault = none
  fresh : ∀ row ∈ w.events, ∀ n, w.uuids ≤ n → row.eventId ≠ freshId n

/-- Time has passed, and the backend has added these. -/
structure Adds (ms : Nat) (xs : List (Int × GateEvent)) (w w' : AnalyticsWorld) : Prop where
  ready : Ready w'
  clock : w'.clock = w.clock + ms
  backend : backendEvents w'.events = backendEvents w.events ++ xs

section Adds

variable {env : AnalyticsEnv} {w w' : AnalyticsWorld}

theorem backendEvents_append (events events' : List AnalyticsEvent) :
    backendEvents (events ++ events') = backendEvents events ++ backendEvents events' := by
  unfold backendEvents
  rw [List.filter_append, List.map_append]

theorem Adds.trans {w'' : AnalyticsWorld} {ms ms' : Nat} {xs ys : List (Int × GateEvent)}
    (h : Adds ms xs w w') (h' : Adds ms' ys w' w'') : Adds (ms + ms') (xs ++ ys) w w'' where
  ready := h'.ready
  clock := by rw [h'.clock, h.clock, Nat.add_assoc]
  backend := by rw [h'.backend, h.backend, List.append_assoc]

/-- A new row that is not the backend's, under an id that was drawn or cannot
be. -/
theorem Ready.stored (h : Ready w) {row : AnalyticsEvent} (hourly : List AnalyticsIngestHourly)
    (hid : row.eventId = freshId w.uuids ∨ ∀ n, row.eventId ≠ freshId n) :
    Ready { w with uuids := w.uuids + 1, events := stored w.events row, hourly := hourly } where
  fault := h.fault
  fresh x hx n hn := by
    change w.uuids + 1 ≤ n at hn
    have hold : ∀ x ∈ w.events, x.eventId ≠ freshId n := fun x hx => h.fresh x hx n (by omega)
    change x ∈ Telemetry.stored w.events row at hx
    unfold Telemetry.stored at hx
    split at hx
    · exact hold x hx
    · rcases List.mem_append.mp hx with hx | hx
      · exact hold x hx
      · rw [List.mem_singleton.mp hx]
        rcases hid with hid | hid
        · rw [hid]
          exact fun heq => absurd (freshId_injective heq) (by omega)
        · exact hid n

theorem Ready.unchanged (h : Ready w) {uuids : Nat} (hle : w.uuids ≤ uuids)
    (hourly : List AnalyticsIngestHourly) :
    Ready { w with uuids := uuids, hourly := hourly } :=
  ⟨h.fault, fun row hrow n hn => h.fresh row hrow n (Nat.le_trans hle hn)⟩

theorem backendEvents_stored_client (events : List AnalyticsEvent) {row : AnalyticsEvent}
    (hrow : ofBackend row = false) : backendEvents (stored events row) = backendEvents events := by
  unfold stored
  split
  · rfl
  · have hnone : backendEvents [row] = [] := by simp [backendEvents, hrow]
    rw [backendEvents_append, hnone, List.append_nil]

theorem backendEvents_stored_fresh {events : List AnalyticsEvent} {row : AnalyticsEvent}
    (hrow : ofBackend row = true) (hfree : ∀ taken ∈ events, taken.eventId ≠ row.eventId) :
    backendEvents (stored events row) =
      backendEvents events ++ [(row.occurredAt, ⟨row.eventName, row.properties⟩)] := by
  have hone : backendEvents [row] = [(row.occurredAt, ⟨row.eventName, row.properties⟩)] := by
    simp [backendEvents, hrow]
  unfold stored
  rw [if_neg fun ⟨taken, htaken, hid⟩ => hfree taken htaken hid, backendEvents_append, hone]

variable (env) in
/-- Clients add nothing to the rows of the backend. -/
theorem adds_trackClientEvent (h : Ready w) (userId : UserId) (event : ClientEvent)
    (context : ClientContext) :
    Adds 0 [] w ((trackClientEvent env userId event context).run AnalyticsCmd.exec w).2 := by
  obtain ⟨hourly, hrun⟩ := trackClientEvent_run env h.fault userId event context
  rw [hrun]
  cases hn : normalizeEvent env w.clock (freshId w.uuids) (event.raw userId context) true with
  | error refusal => exact ⟨h.unchanged (Nat.le_succ _) hourly, rfl, (List.append_nil _).symm⟩
  | ok normalized =>
      obtain ⟨-, -, -, hid, -, hsource⟩ := normalizeEvent_ok hn
      have hclient : ofBackend (normalized.row w.clock) = false := by
        refine decide_eq_false ?_
        change normalized.source ≠ .backend
        rw [hsource]
        exact parseClientPlatform_ne_backend _
      refine ⟨h.stored hourly ?_, rfl, ?_⟩
      · rcases parseEventId_ok hid with hid | hid
        · exact .inl hid
        · refine .inr fun n hn => ?_
          change normalized.eventId = freshId n at hn
          rw [hn, UUID_PATTERN_freshId] at hid
          cases hid
      · rw [List.append_nil]
        exact backendEvents_stored_client w.events hclient

/-- What an event of the backend adds. -/
def serverEvents (env : AnalyticsEnv) (clock : Nat) (input : ServerEvent) : List (Int × GateEvent) :=
  match normalizeEvent env clock "" (input.raw env) false with
  | .ok normalized => [(normalized.occurredAt, ⟨normalized.name, normalized.properties⟩)]
  | .error _ => []

theorem adds_trackServerEvent (h : Ready w) {input : ServerEvent} (hid : input.eventId = none) :
    Adds 0 (serverEvents env w.clock input) w
      ((trackServerEvent env input).run AnalyticsCmd.exec w).2 := by
  obtain ⟨hourly, hrun⟩ := trackServerEvent_run env h.fault input
  rw [hrun, normalizeEvent_uuid (show (input.raw env).eventId = none from hid)]
  unfold serverEvents
  cases hn : normalizeEvent env w.clock "" (input.raw env) false with
  | error refusal => exact ⟨h.unchanged (Nat.le_succ _) hourly, rfl, (List.append_nil _).symm⟩
  | ok normalized =>
      obtain ⟨-, -, -, -, -, hsource⟩ := normalizeEvent_ok hn
      refine ⟨h.stored hourly (.inl rfl), rfl, ?_⟩
      exact backendEvents_stored_fresh (decide_eq_true hsource) fun taken htaken =>
        h.fresh taken htaken w.uuids (Nat.le_refl _)

theorem adds_emitAll (h : Ready w) (userId : UserId) (now : Nat) (events : List GateEvent) :
    Adds 0 (events.map fun event => ((now : Int), event)) w
      ((emitAll (syntheticRow env userId now) events).run AnalyticsCmd.exec w).2 := by
  induction events generalizing w with
  | nil => exact ⟨h, rfl, (List.append_nil _).symm⟩
  | cons event events ih =>
      set row := syntheticRow env userId now event (freshId w.uuids)
      have hfree : ∀ taken ∈ w.events, taken.eventId ≠ row.eventId := fun taken htaken =>
        h.fresh taken htaken w.uuids (Nat.le_refl _)
      have hcreate := eventCreate_free (w := { w with uuids := w.uuids + 1 }) h.fault hfree
      set w₁ : AnalyticsWorld := { w with uuids := w.uuids + 1, events := w.events ++ [row] }
      have hfirst : Adds 0 [((now : Int), event)] w w₁ := by
        have hid : row.eventId = freshId w.uuids ∨ ∀ n, row.eventId ≠ freshId n := .inl rfl
        have hready := h.stored w.hourly hid
        have hrow : ofBackend row = true := rfl
        have hbackend := backendEvents_stored_fresh hrow hfree
        have hstored : stored w.events row = w.events ++ [row] :=
          if_neg fun ⟨taken, htaken, hid⟩ => hfree taken htaken hid
        rw [hstored] at hready hbackend
        exact ⟨hready, rfl, hbackend⟩
      have hinner : Proc.run AnalyticsCmd.exec ((await .randomUUID).bind fun eventId =>
          await (.eventCreate (syntheticRow env userId now event eventId))) w = (.ok (), w₁) := hcreate
      have htry := Proc.run_tryCatch AnalyticsCmd.exec ((await .randomUUID).bind fun eventId =>
        await (.eventCreate (syntheticRow env userId now event eventId))) (fun _ => pure ()) w
      rw [hinner] at htry
      have hrun : (emitAll (syntheticRow env userId now) (event :: events)).run AnalyticsCmd.exec w =
          (emitAll (syntheticRow env userId now) events).run AnalyticsCmd.exec w₁ :=
        Proc.run_bind_ok _ htry _
      rw [hrun]
      exact hfirst.trans (ih hfirst.ready)

/-- What the synthetic events add. -/
def syntheticAt (clock : Nat) : List (Int × GateEvent) :=
  (syntheticEvents "synthetic:default" ("synthetic-session-" ++ toString clock)
    ("synthetic-match-" ++ toString clock)).map fun event => ((clock : Int), event)

end Adds

/-! ## Step by step -/

/-- What a step of the services adds. -/
def contribution (env : AnalyticsEnv) (clock : Nat) : Step → List (Int × GateEvent)
  | .trackServerEvent input => serverEvents env clock input
  | .emitSyntheticBackendEvents _ => syntheticAt clock
  | _ => []

def elapsed : Step → Nat
  | .tick ms => ms
  | _ => 0

/-- The backend has its ids drawn. -/
def DrawsIds (h : List Step) : Prop := ∀ input, .trackServerEvent input ∈ h → input.eventId = none

/-- A snapshot is computed. -/
def takesSnapshot (w : TelemetryWorld) : Step → Bool
  | .computeAndPersistSnapshot => true
  | .getStageGateView => w.snapshots.isEmpty
  | _ => false

section Steps

variable {env : AnalyticsEnv} {w w' : TelemetryWorld}

variable (env) in
/-- **Step lemma**, for the rows of the backend. -/
theorem adds_next (h : Ready w.analytics) {s : Step} (hs : DrawsIds [s]) :
    Adds (elapsed s) (contribution env w.analytics.clock s) w.analytics (w.next env s).analytics := by
  have hsame : Adds 0 [] w.analytics w.analytics := ⟨h, rfl, (List.append_nil _).symm⟩
  cases s with
  | trackClientEvent userId event context => exact adds_trackClientEvent env h userId event context
  | trackServerEvent input => exact adds_trackServerEvent h (hs input (.head _))
  | emitSyntheticBackendEvents userId => exact adds_emitAll h userId w.analytics.clock _
  | computeAndPersistSnapshot => exact hsame
  | getStageGateView =>
      unfold TelemetryWorld.next getStageGateView
      dsimp only
      split <;> exact hsame
  | tick ms => exact ⟨⟨h.fault, h.fresh⟩, rfl, (List.append_nil _).symm⟩

end Steps

/-! ## What a snapshot counts -/

/-- The events of the backend a snapshot counts. -/
def inWindow (xs : List (Int × GateEvent)) (windowStart windowEnd : Int) : List GateEvent :=
  (xs.filter fun x => windowStart ≤ x.1 ∧ x.1 ≤ windowEnd ∧ x.2.eventName ∈ GATE_EVENTS).map (·.2)

/-- The events of clients that a snapshot counts that is taken now. -/
def clientEvents (w : AnalyticsWorld) : List GateEvent :=
  findGateEvents (w.events.filter fun row => !ofBackend row)
    (w.clock - SNAPSHOT_WINDOW_HOURS * 60 * 60 * 1000) w.clock

/-- What clients have contributed to the snapshots of a run, one list for each
snapshot. -/
def clientViews (env : AnalyticsEnv) (w : TelemetryWorld) : List Step → List (List GateEvent)
  | [] => []
  | s :: h =>
      (if takesSnapshot w s then [clientEvents w.analytics] else []) ++
        clientViews env (w.next env s) h

section Counted

variable {env : AnalyticsEnv} {w w' : TelemetryWorld}

theorem findGateEvents_perm (events : List AnalyticsEvent) (windowStart windowEnd : Int) :
    (findGateEvents events windowStart windowEnd).Perm
      (inWindow (backendEvents events) windowStart windowEnd ++
        findGateEvents (events.filter fun row => !ofBackend row) windowStart windowEnd) := by
  have hsplit : findGateEvents (events.filter ofBackend) windowStart windowEnd =
      inWindow (backendEvents events) windowStart windowEnd := by
    unfold findGateEvents inWindow backendEvents InWindow
    rw [List.filter_map, List.map_map]
    rfl
  rw [← hsplit]
  unfold findGateEvents
  rw [← List.map_append, ← List.filter_append]
  exact ((List.filter_append_perm ofBackend events).symm.filter _).map _

/-- A snapshot depends on the clock, on the rows of the backend and on the
events of clients it counts. -/
theorem snapshot_eq (hclock : w.analytics.clock = w'.analytics.clock)
    (hbackend : backendEvents w.analytics.events = backendEvents w'.analytics.events)
    (hclients : (clientEvents w.analytics).Perm (clientEvents w'.analytics)) :
    (computeAndPersistSnapshot w).1 = (computeAndPersistSnapshot w').1 := by
  unfold computeAndPersistSnapshot
  dsimp only
  unfold clientEvents at hclients
  rw [hclock] at hclients ⊢
  refine snapshotOf_perm ?_ _ _
  refine (findGateEvents_perm _ _ _).trans (.trans ?_ (findGateEvents_perm _ _ _).symm)
  rw [hbackend]
  exact hclients.append_left _

theorem snapshots_next (s : Step) :
    (w.next env s).snapshots =
      w.snapshots ++ if takesSnapshot w s then [(computeAndPersistSnapshot w).1] else [] := by
  cases s with
  | computeAndPersistSnapshot => rfl
  | getStageGateView =>
      unfold TelemetryWorld.next getStageGateView takesSnapshot
      dsimp only
      cases hlast : w.snapshots with
      | nil =>
          change (computeAndPersistSnapshot w).2.snapshots = _
          unfold computeAndPersistSnapshot
          rw [hlast]
          rfl
      | cons x xs =>
          obtain ⟨latest, hlatest⟩ : ∃ latest, (x :: xs).getLast? = some latest :=
            ⟨_, List.getLast?_eq_some_getLast (List.cons_ne_nil x xs)⟩
          rw [hlatest]
          simp [hlast]
  | _ => exact (List.append_nil _).symm

end Counted

/-! ## Two runs -/

/-- Snapshots cannot tell the two worlds apart, but for what clients have
sent. -/
structure Alike (w w' : TelemetryWorld) : Prop where
  ready : Ready w.analytics
  ready' : Ready w'.analytics
  clock : w.analytics.clock = w'.analytics.clock
  backend : backendEvents w.analytics.events = backendEvents w'.analytics.events
  snapshots : w.snapshots = w'.snapshots

namespace Alike

variable {env : AnalyticsEnv} {w w' : TelemetryWorld}

theorem symm (h : Alike w w') : Alike w' w :=
  ⟨h.ready', h.ready, h.clock.symm, h.backend.symm, h.snapshots.symm⟩

/-- A submission is not noticed. -/
theorem client (h : Alike w w') {s : Step} (hs : s.byClient = true) : Alike (w.next env s) w' := by
  cases s with
  | trackClientEvent userId event context =>
      have hadds := adds_trackClientEvent env h.ready userId event context
      refine ⟨hadds.ready, h.ready', hadds.clock.trans h.clock, ?_, h.snapshots⟩
      exact hadds.backend.trans ((List.append_nil _).trans h.backend)
  | _ => cases hs

theorem clients (h : Alike w w') {cs : List Step} (hcs : ∀ s ∈ cs, s.byClient = true) :
    Alike (w.after env cs) w' := by
  induction cs generalizing w with
  | nil => exact h
  | cons s cs ih => exact ih (h.client (hcs s (.head _))) fun s' hs' => hcs s' (.tail _ hs')

theorem takesSnapshot_eq (h : Alike w w') (s : Step) : takesSnapshot w s = takesSnapshot w' s := by
  unfold takesSnapshot
  rw [h.snapshots]

/-- **Step lemma**: the services do the same in both worlds. -/
theorem service (h : Alike w w') {s : Step} (hs : DrawsIds [s])
    (hclients : takesSnapshot w s = true → (clientEvents w.analytics).Perm (clientEvents w'.analytics)) :
    Alike (w.next env s) (w'.next env s) := by
  have hadds := adds_next env h.ready hs
  have hadds' := adds_next env h.ready' hs
  refine ⟨hadds.ready, hadds'.ready, ?_, ?_, ?_⟩
  · rw [hadds.clock, hadds'.clock, h.clock]
  · rw [hadds.backend, hadds'.backend, h.backend, h.clock]
  · rw [snapshots_next, snapshots_next, ← h.takesSnapshot_eq, h.snapshots]
    split
    · next htakes => rw [snapshot_eq h.clock h.backend (hclients htakes)]
    · rfl

theorem clientViews_clients {cs steps : List Step} (hcs : ∀ s ∈ cs, s.byClient = true) :
    clientViews env w (cs ++ steps) = clientViews env (w.after env cs) steps := by
  induction cs generalizing w with
  | nil => rfl
  | cons s cs ih =>
      have hs := hcs s (.head _)
      refine Eq.trans ?_ (ih fun s' hs' => hcs s' (.tail _ hs'))
      cases s with
      | trackClientEvent userId event context => rfl
      | _ => cases hs

/-- **Run lemma.** Two runs with the same steps of the services. -/
theorem after (h : Alike w w') {steps steps' : List Step} (hservices : services steps = services steps')
    (hdraws : DrawsIds steps)
    (hviews : List.Forall₂ List.Perm (clientViews env w steps) (clientViews env w' steps')) :
    Alike (w.after env steps) (w'.after env steps') := by
  induction steps generalizing w w' steps' with
  | nil =>
      refine (h.symm.clients fun s hs => ?_).symm
      have hnot := List.filter_eq_nil_iff.mp hservices.symm s hs
      simpa using hnot
  | cons s steps ih =>
      have hdraws' : DrawsIds steps := fun input hin => hdraws input (.tail _ hin)
      by_cases hs : s.byClient = true
      · refine ih (h.client hs) ?_ hdraws' ?_
        · rw [← hservices]
          unfold services
          rw [List.filter_cons_of_neg (by simp [hs])]
        · have hview : clientViews env w (s :: steps) = clientViews env (w.next env s) steps := by
            cases s with
            | trackClientEvent userId event context => rfl
            | _ => cases hs
          rwa [hview] at hviews
      · unfold services at hservices
        rw [List.filter_cons_of_pos (by simpa using hs)] at hservices
        obtain ⟨cs, steps'', rfl, hcs, -, hrest⟩ := List.filter_eq_cons_iff.mp hservices.symm
        have hclients : ∀ s ∈ cs, s.byClient = true := fun s hs => by simpa using hcs s hs
        have hmid : Alike w (w'.after env cs) := (h.symm.clients hclients).symm
        rw [clientViews_clients hclients, clientViews, clientViews, ← hmid.takesSnapshot_eq s] at hviews
        have hafter : w'.after env (cs ++ s :: steps'') =
            ((w'.after env cs).next env s).after env steps'' := List.foldl_append
        rw [hafter]
        cases htakes : takesSnapshot w s with
        | false =>
            rw [htakes] at hviews
            exact ih (hmid.service (fun input hin => hdraws input (by simpa using .inl (List.mem_singleton.mp hin)))
              fun ht => (by rw [htakes] at ht; cases ht)) hrest.symm hdraws' hviews
        | true =>
            rw [htakes] at hviews
            obtain ⟨hperm, hviews⟩ := List.forall₂_cons.mp hviews
            exact ih (hmid.service (fun input hin => hdraws input (by simpa using .inl (List.mem_singleton.mp hin)))
              fun _ => hperm) hrest.symm hdraws' hviews

end Alike

/-- **What clients can do to the stage gates.** Two runs with the same steps of
the services at the same times have the same snapshots if, at each snapshot,
the events of clients with one of the nine names in its window are the same,
whatever else clients submit. -/
theorem snapshots_eq {env : AnalyticsEnv} {w : TelemetryWorld} (hw : Ready w.analytics)
    {h h' : List Step} (hservices : services h = services h') (hdraws : DrawsIds h)
    (hviews : List.Forall₂ List.Perm (clientViews env w h) (clientViews env w h')) :
    (w.after env h).snapshots = (w.after env h').snapshots :=
  (Alike.after ⟨hw, hw, rfl, rfl, rfl⟩ hservices hdraws hviews).snapshots

/-! ## One call, reported by the backend and by a client -/

def bareEnv : AnalyticsEnv := ⟨none, none, none⟩

def nothingYet : TelemetryWorld := ⟨⟨0, 0, [], [], none⟩, []⟩

def reports (name : String) (properties : List (String × JsonValue)) : Step :=
  .trackServerEvent ⟨none, name, some (.object properties), none, none, none⟩

/-- What the page of a call sends. -/
def pageSends (name : String) : Step :=
  .trackClientEvent "ann" ⟨some (.str name), none⟩ ⟨none, none, none, none, none, none, none, none⟩

def oneCall : List Step :=
  [reports "session_started" [], reports "session_ended" [("durationSeconds", .num 45)],
    .computeAndPersistSnapshot]

/-- The completion rate falls from 1 to 1/2. -/
theorem client_moves_gates : ¬∀ h h' : List Step, services h = services h' →
    (nothingYet.after bareEnv h).snapshots = (nothingYet.after bareEnv h').snapshots := by
  intro hall
  have heq := hall oneCall (pageSends "session_started" :: oneCall) rfl
  revert heq
  decide +kernel

/-- A client may send what is not counted. -/
theorem snapshots_eq_messageSent : (nothingYet.after bareEnv oneCall).snapshots =
    (nothingYet.after bareEnv (pageSends "message_sent" :: oneCall)).snapshots := by
  have hready : Ready nothingYet.analytics := ⟨rfl, fun _ hrow => nomatch hrow⟩
  have hview : clientViews bareEnv nothingYet oneCall = [[]] := by decide +kernel
  have hview' : clientViews bareEnv nothingYet (pageSends "message_sent" :: oneCall) = [[]] := by
    decide +kernel
  refine snapshots_eq hready rfl (fun input hin => ?_) ?_
  · simp only [oneCall, reports, List.mem_cons, Step.trackServerEvent.injEq, reduceCtorEq, or_false,
      List.not_mem_nil] at hin
    rcases hin with rfl | rfl <;> rfl
  · rw [hview, hview']
    exact .cons (.refl _) .nil

end VerityBackend.Telemetry
