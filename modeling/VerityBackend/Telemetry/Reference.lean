/-
VerityBackend.Telemetry.Reference — is the snapshot what the telemetry
specification says (`docs/strategy/verity-v1-telemetry-spec.md`, section 4)?

The specification counts the stored events by name and property, whatever
their JSON is. `computeAndPersistSnapshot` keeps to it except for the action
latency: Stage 0 is about severe actions, and the loop collects the latency
of every action. `snapshot_spec_iff` says that this is all that can be wrong,
and that the ranks may be computed in doubles.
-/
import Mathlib.Data.List.Sort
import VerityBackend.Analytics.Intake
import VerityBackend.Numeric.Double
import VerityBackend.Numeric.NearestRank
import VerityBackend.Telemetry.Snapshots

namespace VerityBackend.Telemetry

open Analytics Numeric

/-! ## Rows with any name and any properties -/

/-- What `findMany` returns of a row. -/
structure StoredEvent where
  eventName : String
  properties : Json

def asRecord : Json → List (String × Json)
  | .obj entries => entries
  | _ => []

namespace StoredEvent

/-- `numberProperty(properties[key])`. -/
def number (key : String) (event : StoredEvent) : Option Rat :=
  match (asRecord event.properties).lookup key with
  | some (.num x) => some x
  | _ => none

/-- `stringProperty(properties[key])`. -/
def string (key : String) (event : StoredEvent) : Option String :=
  match (asRecord event.properties).lookup key with
  | some (.str s) =>
      let trimmed := jsTrim s
      if trimmed = "" then none else some trimmed
  | _ => none

end StoredEvent

/-- One turn of the loop. -/
def Tally.countStored (t : Tally) (event : StoredEvent) : Tally :=
  match event.eventName with
  | "queue_match_found" => { t with waits := t.waits ++ (event.number "waitSeconds").toList }
  | "queue_joined" => { t with queueJoined := t.queueJoined + 1 }
  | "queue_left" =>
      if event.string "reason" = some "matched" then t
      else { t with queueAbandoned := t.queueAbandoned + 1 }
  | "session_started" => { t with sessionStarted := t.sessionStarted + 1 }
  | "session_ended" =>
      if (event.number "durationSeconds").any (40 ≤ ·) then
        { t with sessionCompleted := t.sessionCompleted + 1 }
      else t
  | "session_result" =>
      { t with
        sessionResults := t.sessionResults + 1
        mutualResults :=
          if event.string "result" = some "mutual_match" then t.mutualResults + 1
          else t.mutualResults }
  | "match_chat_opened" => { t with chatOpened := t.chatOpened + 1 }
  | "safety_action_taken" =>
      let action := event.string "action"
      { t with
        actionLatencies := t.actionLatencies ++ (event.number "actionLatencyMs").toList
        severeActions :=
          if action = some "ban" ∨ action = some "terminate_session" then t.severeActions + 1
          else t.severeActions }
  | "safety_appeal_resolved" =>
      { t with
        appealResolved := t.appealResolved + 1
        appealOverturned :=
          if event.string "resolution" = some "overturned" then t.appealOverturned + 1
          else t.appealOverturned }
  | _ => t

def tallyStored (events : List StoredEvent) : Tally := events.foldl Tally.countStored .zero

/-- The snapshot of these rows. -/
def snapshotOfStored (windowStart windowEnd : Int) (events : List StoredEvent) : StageGateSnapshot :=
  snapshotWith percentile windowStart windowEnd (tallyStored events)

/-! ### Rows of events that were accepted -/

def AnalyticsPrimitive.stored : AnalyticsPrimitive → Json
  | .str s => .str s
  | .num x => .num x
  | .bool b => .bool b
  | .null => .null

def GateEvent.stored (event : GateEvent) : StoredEvent where
  eventName := event.eventName.text
  properties := .obj (event.properties.map fun p => (p.1, AnalyticsPrimitive.stored p.2))

theorem lookup_map_stored (properties : AnalyticsProperties) (key : String) :
    (properties.map fun p => (p.1, AnalyticsPrimitive.stored p.2)).lookup key =
      (properties.lookup key).map AnalyticsPrimitive.stored := by
  induction properties with
  | nil => rfl
  | cons p properties ih =>
      obtain ⟨k, v⟩ := p
      rw [List.map_cons, List.lookup_cons, List.lookup_cons]
      cases key == k with
      | true => rfl
      | false => exact ih

theorem number_stored (event : GateEvent) (key : String) :
    event.stored.number key = numberProperty (event.properties.lookup key) := by
  simp only [StoredEvent.number, GateEvent.stored, asRecord, lookup_map_stored]
  rcases event.properties.lookup key with _ | v
  · rfl
  · cases v <;> rfl

theorem string_stored (event : GateEvent) (key : String) :
    event.stored.string key = stringProperty (event.properties.lookup key) := by
  simp only [StoredEvent.string, GateEvent.stored, asRecord, lookup_map_stored]
  rcases event.properties.lookup key with _ | v
  · rfl
  · cases v <;> rfl

/-- The loop over rows is the loop over events. -/
theorem countStored_stored (t : Tally) (event : GateEvent) : t.countStored event.stored = t.count event := by
  have hname : event.stored.eventName = event.eventName.text := rfl
  unfold Tally.countStored Tally.count
  rw [hname]
  simp only [number_stored, string_stored]
  cases event.eventName <;> rfl

theorem snapshotOfStored_map (windowStart windowEnd : Int) (events : List GateEvent) :
    snapshotOfStored windowStart windowEnd (events.map GateEvent.stored) =
      snapshotOf windowStart windowEnd events := by
  unfold snapshotOfStored snapshotOf tallyStored tally
  rw [List.foldl_map]
  simp only [countStored_stored]

/-- `percentile`, the rank being multiplied in doubles. -/
def percentileInDoubles (values : List Rat) (rank : Rat) : Option Rat :=
  if values = [] then none
  else
    let sorted := values.insertionSort (· ≤ ·)
    let index := max 0 (min ((sorted.length : Int) - 1) (⌈toDouble (toDouble rank * sorted.length)⌉ - 1))
    sorted[index.toNat]?

/-! ## The specification -/

def named (name : String) (events : List StoredEvent) : List StoredEvent :=
  events.filter (·.eventName = name)

/-- The actions the severe incidents are counted by. -/
def isSevere (event : StoredEvent) : Bool :=
  event.string "action" = some "ban" ∨ event.string "action" = some "terminate_session"

def waitSeconds (events : List StoredEvent) : List Rat :=
  (named "queue_match_found" events).filterMap (·.number "waitSeconds")

def actionLatencies (events : List StoredEvent) : List Rat :=
  (named "safety_action_taken" events).filterMap (·.number "actionLatencyMs")

def severeLatencies (events : List StoredEvent) : List Rat :=
  ((named "safety_action_taken" events).filter isSevere).filterMap (·.number "actionLatencyMs")

def mutualMatches (events : List StoredEvent) : Nat :=
  (named "session_result" events).countP (·.string "result" = some "mutual_match")

/-- A count over a count. -/
def ratio (part total : Nat) : Option Rat := if total = 0 then none else some ((part : Rat) / total)

/-- A stage whose metrics are all known passes or fails. -/
def gate (passed : StageStatus) (checks : List (Option Bool)) : StageStatus :=
  if none ∈ checks then .AMBER
  else if some false ∈ checks then .RED
  else passed

structure MeetsSpec (events : List StoredEvent) (s : StageGateSnapshot) : Prop where
  waitP50 : IsPercentile (waitSeconds events) (1 / 2) s.waitP50Seconds
  waitP90 : IsPercentile (waitSeconds events) (9 / 10) s.waitP90Seconds
  abandonment : s.abandonmentRate =
    ratio ((named "queue_left" events).countP (·.string "reason" ≠ some "matched"))
      (named "queue_joined" events).length
  completion : s.completionRate =
    ratio ((named "session_ended" events).countP fun e => (e.number "durationSeconds").any (40 ≤ ·))
      (named "session_started" events).length
  mutualMatch : s.mutualMatchRate = ratio (mutualMatches events) (named "session_result" events).length
  chatActivation : s.chatActivationRate =
    ratio (named "match_chat_opened" events).length (mutualMatches events)
  severeIncident : s.severeIncidentPer10k =
    ratio ((named "safety_action_taken" events).countP isSevere * 10000)
      (named "session_started" events).length
  appealOverturn : s.appealOverturnRate =
    ratio ((named "safety_appeal_resolved" events).countP (·.string "resolution" = some "overturned"))
      (named "safety_appeal_resolved" events).length
  severeLatency : IsPercentile (severeLatencies events) (95 / 100) s.severeActionLatencyP95
  stage0 : s.stage0Status = gate .GREEN [s.severeActionLatencyP95.map (· ≤ 2000)]
  stage1 : s.stage1Status =
    gate .GREEN [s.waitP50Seconds.map (· ≤ 30), s.waitP90Seconds.map (· ≤ 90),
      s.abandonmentRate.map (· ≤ 15 / 100), s.severeIncidentPer10k.map (· ≤ 3)]
  /-- Its fourth metric is not computed, so nobody passes. -/
  stage2 : s.stage2Status =
    gate .AMBER [s.completionRate.map (85 / 100 ≤ ·), s.mutualMatchRate.map (12 / 100 ≤ ·),
      s.mutualMatchRate.map (· ≤ 35 / 100), s.chatActivationRate.map (60 / 100 ≤ ·)]

/-! ## The loop counts what is named -/

/-- The tally of these events, variable by variable. -/
def namedTally (events : List StoredEvent) : Tally where
  waits := waitSeconds events
  actionLatencies := actionLatencies events
  queueJoined := (named "queue_joined" events).length
  queueAbandoned := (named "queue_left" events).countP (·.string "reason" ≠ some "matched")
  sessionStarted := (named "session_started" events).length
  sessionCompleted :=
    (named "session_ended" events).countP fun e => (e.number "durationSeconds").any (40 ≤ ·)
  sessionResults := (named "session_result" events).length
  mutualResults := mutualMatches events
  chatOpened := (named "match_chat_opened" events).length
  severeActions := (named "safety_action_taken" events).countP isSevere
  appealResolved := (named "safety_appeal_resolved" events).length
  appealOverturned :=
    (named "safety_appeal_resolved" events).countP (·.string "resolution" = some "overturned")

theorem named_concat (name : String) (events : List StoredEvent) (event : StoredEvent) :
    named name (events ++ [event]) =
      named name events ++ if event.eventName = name then [event] else [] := by
  unfold named
  rw [List.filter_append]
  by_cases h : event.eventName = name <;> simp [h]

theorem filterMap_singleton_toList {α β : Type} (f : α → Option β) (a : α) :
    [a].filterMap f = (f a).toList := by
  cases h : f a <;> simp [h]

/-- **Step lemma.** -/
theorem namedTally_concat (events : List StoredEvent) (event : StoredEvent) :
    namedTally (events ++ [event]) = (namedTally events).countStored event := by
  unfold namedTally waitSeconds actionLatencies mutualMatches
  simp only [named_concat]
  generalize hcount : Tally.countStored _ event = counted
  unfold Tally.countStored at hcount
  split at hcount <;> subst hcount
  · next hname => simp [hname, filterMap_singleton_toList]
  · next hname => simp [hname]
  · next hname => by_cases h : event.string "reason" = some "matched" <;> simp [hname, h]
  · next hname => simp [hname]
  · next hname =>
      by_cases h : (event.number "durationSeconds").any (40 ≤ ·) = true <;> simp [hname, h]
  · next hname => by_cases h : event.string "result" = some "mutual_match" <;> simp [hname, h]
  · next hname => simp [hname]
  · next hname =>
      by_cases h : event.string "action" = some "ban" ∨ event.string "action" = some "terminate_session" <;>
        simp [hname, h, isSevere, filterMap_singleton_toList]
  · next hname => by_cases h : event.string "resolution" = some "overturned" <;> simp [hname, h]
  · next h₁ h₂ h₃ h₄ h₅ h₆ h₇ h₈ h₉ =>
      simp only [if_neg h₁, if_neg h₂, if_neg h₃, if_neg h₄, if_neg h₅, if_neg h₆, if_neg h₇, if_neg h₈,
        if_neg h₉, List.append_nil]

theorem tallyStored_eq (events : List StoredEvent) : tallyStored events = namedTally events := by
  induction events using List.reverseRecOn with
  | nil => rfl
  | append_singleton events event ih =>
      rw [namedTally_concat, ← ih, tallyStored, List.foldl_append]
      rfl

theorem namedTally_perm {events events' : List StoredEvent} (h : events.Perm events') :
    (namedTally events).Same (namedTally events') := by
  have hnamed (name : String) : (named name events).Perm (named name events') := h.filter _
  refine ⟨(hnamed _).filterMap _, (hnamed _).filterMap _, ?_⟩
  unfold Tally.counters namedTally mutualMatches
  simp only [(hnamed _).length_eq, (hnamed _).countP_eq]

/-! ## Percentiles -/

/-- Two names of the ceiling. -/
theorem ceil_eq_intCeil (q : Rat) : q.ceil = ⌈q⌉ :=
  eq_of_forall_ge_iff fun _ => Rat.ceil_le_iff.trans Int.ceil_le.symm

/-- The index that `percentile` computes, from one below the rank. -/
theorem index_eq {length k : Nat} {rank : Rat} (hceil : ⌈rank⌉ = k + 1) (hlt : k < length) :
    (max 0 (min ((length : Int) - 1) (⌈rank⌉ - 1))).toNat = k := by
  rw [hceil]
  omega

/-- The rank of a percentile, between one and the number of values. -/
theorem exists_rank {rank : Rat} (hpos : 0 < rank) (hone : rank ≤ 1) {length : Nat} (hlength : 0 < length) :
    ∃ k : Nat, ⌈rank * length⌉ = k + 1 ∧ k < length := by
  have hlength' : (0 : Rat) < length := by exact_mod_cast hlength
  have hceil : 0 < ⌈rank * length⌉ := Int.ceil_pos.mpr (mul_pos hpos hlength')
  have hceil' : ⌈rank * length⌉ ≤ (length : Int) := by
    refine Int.ceil_le.mpr ?_
    push_cast
    nlinarith
  exact ⟨(⌈rank * length⌉ - 1).toNat, by omega, by omega⟩

/-- The loop's percentile is the nearest-rank one. -/
theorem isPercentile_percentile (values : List Rat) {rank : Rat} (hpos : 0 < rank) (hone : rank ≤ 1) :
    IsPercentile values rank (percentile values rank) := by
  unfold percentile
  split
  · next hnil => exact hnil
  · next hnil =>
      have hperm : (values.insertionSort (· ≤ ·)).Perm values := List.perm_insertionSort _ _
      have hsorted := List.pairwise_insertionSort (· ≤ ·) values
      generalize values.insertionSort (· ≤ ·) = sorted at hperm hsorted
      have hlength : 0 < sorted.length := by
        rw [hperm.length_eq]
        exact List.length_pos_iff.mpr hnil
      obtain ⟨k, hk, hlt⟩ := exists_rank hpos hone hlength
      have hlow := Int.ceil_lt_add_one (rank * sorted.length)
      have hhigh := Int.le_ceil (rank * sorted.length)
      rw [hk] at hlow hhigh
      push_cast at hlow hhigh
      dsimp only
      rw [ceil_eq_intCeil, index_eq hk hlt, List.getElem?_eq_getElem hlt]
      exact (isNearestRank_getElem hsorted hlt (by linarith) hhigh).perm hperm

/-- The three ranks of a snapshot, in doubles. -/
theorem ceil_rank {rank : Rat} (hrank : rank = 1 / 2 ∨ rank = 9 / 10 ∨ rank = 95 / 100) {n : Nat}
    (hn : n < 2 ^ 32) : ⌈toDouble (toDouble rank * n)⌉ = ⌈rank * n⌉ := by
  rcases hrank with rfl | rfl | rfl
  · exact ceil_toDouble_mul (a := 10) (b := 20) (by decide) (by decide) (by norm_num) (by decide +kernel)
      (by decide +kernel) (by decide +kernel) hn
  · exact ceil_toDouble_mul (a := 18) (b := 20) (by decide) (by decide) (by norm_num) (by decide +kernel)
      (by decide +kernel) (by decide +kernel) hn
  · exact ceil_toDouble_mul (a := 19) (b := 20) (by decide) (by decide) (by norm_num) (by decide +kernel)
      (by decide +kernel) (by decide +kernel) hn

theorem percentileInDoubles_eq {rank : Rat} (hrank : rank = 1 / 2 ∨ rank = 9 / 10 ∨ rank = 95 / 100)
    {values : List Rat} (hlength : values.length < 2 ^ 32) :
    percentileInDoubles values rank = percentile values rank := by
  unfold percentileInDoubles percentile
  have hsorted : (values.insertionSort (· ≤ ·)).length < 2 ^ 32 := by
    rw [List.length_insertionSort]
    exact hlength
  simp only [ceil_rank hrank hsorted, ceil_eq_intCeil]

/-! ## Statuses -/

theorem rate_eq_ratio (part total : Nat) : rate part total = ratio part total := by
  unfold rate ratio
  rcases Nat.eq_zero_or_pos total with rfl | h
  · rfl
  · rw [if_pos h, if_neg (by omega)]

theorem stage0Status_eq_gate (latency : Option Rat) :
    stage0Status latency = gate .GREEN [latency.map (· ≤ 2000)] := by
  cases latency with
  | none => rfl
  | some x => by_cases h : x ≤ 2000 <;> simp [stage0Status, gate, h]

theorem stage1Status_eq_gate (waitP50 waitP90 abandonment severe : Option Rat) :
    stage1Status waitP50 waitP90 abandonment severe =
      gate .GREEN [waitP50.map (· ≤ 30), waitP90.map (· ≤ 90), abandonment.map (· ≤ 15 / 100),
        severe.map (· ≤ 3)] := by
  cases waitP50 <;> cases waitP90 <;> cases abandonment <;> cases severe <;>
    simp only [stage1Status, gate, Option.map_none, Option.map_some, List.mem_cons, reduceCtorEq,
      List.not_mem_nil, Option.some.injEq, or_false, false_or, or_true, if_true, if_false]
  next w₅₀ w₉₀ a s =>
    by_cases h₁ : w₅₀ ≤ 30 <;> by_cases h₂ : w₉₀ ≤ 90 <;> by_cases h₃ : a ≤ 15 / 100 <;>
      by_cases h₄ : s ≤ 3 <;> simp [h₁, h₂, h₃, h₄]

theorem stage2Status_eq_gate (completion mutualMatch chatActivation : Option Rat) :
    stage2Status completion mutualMatch chatActivation =
      gate .AMBER [completion.map (85 / 100 ≤ ·), mutualMatch.map (12 / 100 ≤ ·),
        mutualMatch.map (· ≤ 35 / 100), chatActivation.map (60 / 100 ≤ ·)] := by
  cases completion <;> cases mutualMatch <;> cases chatActivation <;>
    simp only [stage2Status, gate, Option.map_none, Option.map_some, List.mem_cons, reduceCtorEq,
      List.not_mem_nil, Option.some.injEq, or_false, false_or, or_true, if_true, if_false]
  next c m a =>
    by_cases h₁ : 85 / 100 ≤ c <;> by_cases h₂ : 12 / 100 ≤ m <;> by_cases h₃ : m ≤ 35 / 100 <;>
      by_cases h₄ : 60 / 100 ≤ a <;> simp [h₁, h₂, h₃, h₄]

/-! ## The result -/

/-- The severe actions decide the latency: no action has one, or the 95th
percentile of the severe ones is that of all. -/
def SevereDecide (events : List StoredEvent) : Prop :=
  actionLatencies events = [] ∨
    ∃ v, IsNearestRank (severeLatencies events) (95 / 100) v ∧
      IsNearestRank (actionLatencies events) (95 / 100) v

/-- The snapshot is the specified one, in whatever order the rows come, and as
far as an array goes the ranks may be computed in doubles. -/
structure SnapshotIsSpec (windowStart windowEnd : Int) (events : List StoredEvent) : Prop where
  spec : MeetsSpec events (snapshotOfStored windowStart windowEnd events)
  order : ∀ events', events.Perm events' →
    snapshotOfStored windowStart windowEnd events' = snapshotOfStored windowStart windowEnd events
  doubles : events.length < 2 ^ 32 →
    snapshotWith percentileInDoubles windowStart windowEnd (tallyStored events) =
      snapshotOfStored windowStart windowEnd events

theorem isPercentile_severe_iff (events : List StoredEvent) :
    IsPercentile (severeLatencies events) (95 / 100) (percentile (actionLatencies events) (95 / 100)) ↔
      SevereDecide events := by
  have hall := isPercentile_percentile (actionLatencies events) (show (0 : Rat) < 95 / 100 by norm_num)
    (by norm_num)
  have hsublist : (severeLatencies events).Sublist (actionLatencies events) :=
    List.filter_sublist.filterMap _
  constructor
  · intro hsevere
    cases hp : percentile (actionLatencies events) (95 / 100) with
    | none =>
        rw [hp] at hall
        exact .inl hall
    | some v =>
        rw [hp] at hall hsevere
        exact .inr ⟨v, hsevere, hall⟩
  · rintro (hnone | ⟨v, hsevere, hv⟩)
    · rw [hnone]
      rw [hnone] at hsublist
      exact List.sublist_nil.mp hsublist
    · have hp : percentile (actionLatencies events) (95 / 100) = some v :=
        IsPercentile.unique hall (show IsPercentile _ _ (some v) from hv)
      rw [hp]
      exact hsevere

/-- A snapshot asks for three percentiles. -/
theorem snapshotWith_congr {f g : List Rat → Rat → Option Rat} {t : Tally}
    (h₅₀ : f t.waits (1 / 2) = g t.waits (1 / 2)) (h₉₀ : f t.waits (9 / 10) = g t.waits (9 / 10))
    (h₉₅ : f t.actionLatencies (95 / 100) = g t.actionLatencies (95 / 100)) (windowStart windowEnd : Int) :
    snapshotWith f windowStart windowEnd t = snapshotWith g windowStart windowEnd t := by
  unfold snapshotWith
  simp only [h₅₀, h₉₀, h₉₅]

theorem length_waits_le (events : List StoredEvent) :
    (waitSeconds events).length ≤ events.length ∧ (actionLatencies events).length ≤ events.length :=
  ⟨(List.length_filterMap_le _ _).trans (List.length_filter_le _ _),
    (List.length_filterMap_le _ _).trans (List.length_filter_le _ _)⟩

/-- **When the snapshot is the specified one.** For every list of rows, with
any names and properties: its metrics and statuses are those of the
specification, exactly if the severe actions decide the action latency. -/
theorem snapshot_spec_iff (windowStart windowEnd : Int) (events : List StoredEvent) :
    SnapshotIsSpec windowStart windowEnd events ↔ SevereDecide events := by
  rw [← isPercentile_severe_iff]
  have hsnapshot : snapshotOfStored windowStart windowEnd events =
      snapshotWith percentile windowStart windowEnd (namedTally events) := by
    rw [snapshotOfStored, tallyStored_eq]
  constructor
  · intro h
    have hsevere := h.spec.severeLatency
    rw [hsnapshot] at hsevere
    exact hsevere
  · intro hsevere
    refine ⟨?_, fun events' hperm => ?_, fun hlength => ?_⟩
    · rw [hsnapshot]
      exact
        { waitP50 := isPercentile_percentile _ (by norm_num) (by norm_num)
          waitP90 := isPercentile_percentile _ (by norm_num) (by norm_num)
          abandonment := rate_eq_ratio _ _
          completion := rate_eq_ratio _ _
          mutualMatch := rate_eq_ratio _ _
          chatActivation := rate_eq_ratio _ _
          severeIncident := rate_eq_ratio _ _
          appealOverturn := rate_eq_ratio _ _
          severeLatency := hsevere
          stage0 := stage0Status_eq_gate _
          stage1 := stage1Status_eq_gate _ _ _ _
          stage2 := stage2Status_eq_gate _ _ _ }
    · rw [hsnapshot, snapshotOfStored, tallyStored_eq]
      exact (snapshotWith_same (namedTally_perm hperm) _ _).symm
    · obtain ⟨hwaits, hlatencies⟩ := length_waits_le events
      rw [hsnapshot, tallyStored_eq]
      exact snapshotWith_congr (percentileInDoubles_eq (.inl rfl) (hwaits.trans_lt hlength))
        (percentileInDoubles_eq (.inr (.inl rfl)) (hwaits.trans_lt hlength))
        (percentileInDoubles_eq (.inr (.inr rfl)) (hlatencies.trans_lt hlength)) _ _

/-- A ban after a second, and a warning that took an hour. -/
def slowWarning : List StoredEvent :=
  [⟨"safety_action_taken", .obj [("action", .str "ban"), ("actionLatencyMs", .num 1000)]⟩,
    ⟨"safety_action_taken", .obj [("action", .str "warn"), ("actionLatencyMs", .num 3600000)]⟩]

/-- Stage 0 is red because of the warning. -/
theorem not_spec_slowWarning : ¬∀ windowStart windowEnd events,
    SnapshotIsSpec windowStart windowEnd events := by
  intro hall
  have hsevere := (hall 0 0 slowWarning).spec.severeLatency
  have hp95 : (snapshotOfStored 0 0 slowWarning).severeActionLatencyP95 = some 3600000 := by
    decide +kernel
  rw [hp95] at hsevere
  have hmem := hsevere.mem
  revert hmem
  decide +kernel

end VerityBackend.Telemetry
