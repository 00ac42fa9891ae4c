/-
VerityBackend.Telemetry.Ratios — which of the gates' ratios are ratios.

A snapshot counts what it compares, event by event, over one window of 24
hours. The share of mutual results and that of overturned appeals are parts
of what they are compared with, whatever is stored. A session can end in a
window that its start lies before, and a chat can be opened any number of
times, so the other two can exceed 1 (`not_ratios_straddling`); they do not
where each session counted as completed was started in the window, and each
participant opens a chat once, after a mutual result of the window
(`gates_are_ratios`).
-/
import Mathlib.Algebra.Order.BigOperators.Group.List
import Mathlib.Algebra.Order.Field.Rat
import Mathlib.Algebra.Order.GroupWithZero.Basic
import Mathlib.Data.List.Perm.Subperm
import VerityBackend.App.Lifetime
import VerityBackend.Telemetry.Delivery
import VerityBackend.Telemetry.Ends

namespace VerityBackend.Telemetry

open App Async Analytics Moderation

/-! ## Counting -/

/-- The rate is null, or between 0 and 1. -/
def IsRatio (r : Option Rat) : Prop := ∀ x ∈ r, 0 ≤ x ∧ x ≤ 1

theorem isRatio_rate {part total : Nat} (h : part ≤ total) : IsRatio (rate part total) := by
  intro x hx
  unfold rate at hx
  split at hx
  · next hpos =>
      obtain rfl := Option.some.inj hx
      have htotal : (0 : Rat) < total := by exact_mod_cast hpos
      exact ⟨div_nonneg (Nat.cast_nonneg part) htotal.le,
        (div_le_one₀ htotal).mpr (by exact_mod_cast h)⟩
  · cases hx

/-- What is added up event by event. -/
theorem tally_sum {f : Tally → Nat} (hzero : f .zero = 0) (hadd : ∀ t t', f (t.add t') = f t + f t')
    (events : List GateEvent) :
    f (tally events) = (events.map fun event => f (Tally.zero.count event)).sum := by
  induction events with
  | nil => exact hzero
  | cons event events ih => rw [Tally.tally_cons, hadd, ih, List.map_cons, List.sum_cons]

/-- Every mutual result is a result. -/
theorem mutualResults_le (events : List GateEvent) :
    (tally events).mutualResults ≤ (tally events).sessionResults := by
  rw [tally_sum (f := Tally.mutualResults) rfl fun _ _ => rfl,
    tally_sum (f := Tally.sessionResults) rfl fun _ _ => rfl]
  refine List.sum_le_sum fun event _ => ?_
  unfold Tally.count
  dsimp only
  split <;> (try split) <;> simp [Tally.zero]

/-- Every overturned appeal is resolved. -/
theorem appealOverturned_le (events : List GateEvent) :
    (tally events).appealOverturned ≤ (tally events).appealResolved := by
  rw [tally_sum (f := Tally.appealOverturned) rfl fun _ _ => rfl,
    tally_sum (f := Tally.appealResolved) rfl fun _ _ => rfl]
  refine List.sum_le_sum fun event _ => ?_
  unfold Tally.count
  dsimp only
  split <;> (try split) <;> simp [Tally.zero]

/-! ## What is stored -/

/-- The row that `trackServerEvent` stores of an event, if it accepts it. -/
def rowOf (env : AnalyticsEnv) (now : Nat) (eventId : String) (o : Output) : Option AnalyticsEvent :=
  match serverEvent o with
  | none => none
  | some event =>
      match normalizeEvent env now eventId (event.raw env) false with
      | .ok normalized => some (normalized.row now)
      | .error _ => none

/-- The table, of what has been tracked when, the newest first. -/
def rowsOf (env : AnalyticsEnv) : List (Nat × Output) → List AnalyticsEvent
  | [] => []
  | (now, o) :: earlier => (rowOf env now (freshId earlier.length) o).toList ++ rowsOf env earlier

/-- What a snapshot sees of the row. -/
def gateEvent (o : Output) : Option GateEvent :=
  match o with
  | .track _ name properties =>
      match ANALYTICS_EVENT_NAMES.lookup name with
      | none => none
      | some known =>
          match parseProperties (some (.object (properties.map fun p => (p.1, jsonValue p.2))))
            known.text with
          | .ok parsed => if known ∈ GATE_EVENTS then some ⟨known, parsed⟩ else none
          | .error _ => none
  | _ => none

theorem findGateEvents_rowOf (env : AnalyticsEnv) (windowStart windowEnd : Int) (now : Nat)
    (eventId : String) (o : Output) :
    findGateEvents (rowOf env now eventId o).toList windowStart windowEnd =
      if windowStart ≤ now ∧ now ≤ windowEnd then (gateEvent o).toList else [] := by
  cases o with
  | track userId name properties =>
      set value : Option PropertiesValue :=
        some (.object (properties.map fun p => (p.1, jsonValue p.2))) with hvalue
      change findGateEvents (Option.toList (match normalizeEvent env now eventId
        (ServerEvent.raw env ⟨some userId, name, value, none, none, none⟩) false with
        | .ok normalized => some (normalized.row now)
        | .error _ => none)) windowStart windowEnd = _
      have haccepted := @normalizeEvent_track_iff env (some userId) name value now eventId
      cases hnormal : normalizeEvent env now eventId
          (ServerEvent.raw env ⟨some userId, name, value, none, none, none⟩) false with
      | error refusal =>
          have hgate : gateEvent (.track userId name properties) = none := by
            unfold gateEvent
            dsimp only
            split
            · rfl
            · next known hknown =>
                split
                · next parsed hparsed =>
                    obtain ⟨normalized, hok⟩ := haccepted.mpr ⟨known, hknown, parsed, hparsed⟩
                    rw [hnormal] at hok
                    cases hok
                · rfl
          rw [hgate]
          simp [findGateEvents]
      | ok normalized =>
          obtain ⟨hname, hparsed, -, -, htime, -⟩ := normalizeEvent_ok hnormal
          obtain ⟨known, hknown, -⟩ := haccepted.mp ⟨normalized, hnormal⟩
          have htext : known = normalized.name := by
            simp only [ServerEvent.raw, parseEventName, hknown] at hname
            exact Except.ok.inj hname
          subst htext
          have hnow : (now : Int) = normalized.occurredAt := Except.ok.inj htime
          have hgate : gateEvent (.track userId name properties) =
              if normalized.name ∈ GATE_EVENTS then some ⟨normalized.name, normalized.properties⟩
              else none := by
            unfold gateEvent
            have hparsed' : parseProperties value normalized.name.text = .ok normalized.properties :=
              hparsed
            simp only [hknown, ← hvalue, hparsed']
          rw [hgate]
          by_cases hin : windowStart ≤ now ∧ now ≤ windowEnd
          · rw [if_pos hin]
            rw [hnow] at hin
            by_cases hmem : normalized.name ∈ GATE_EVENTS
            · simp [findGateEvents, InWindow, EmitInput.row, hin, hmem]
            · simp [findGateEvents, InWindow, EmitInput.row, hmem]
          · rw [if_neg hin]
            rw [hnow] at hin
            have hout : ¬(windowStart ≤ normalized.occurredAt ∧ normalized.occurredAt ≤ windowEnd ∧
                normalized.name ∈ GATE_EVENTS) := fun h => hin ⟨h.1, h.2.1⟩
            simp [findGateEvents, InWindow, EmitInput.row, hout]
  | _ => simp [rowOf, serverEvent, gateEvent, findGateEvents]

/-- The ids are not looked at. -/
theorem findGateEvents_rowsOf (env : AnalyticsEnv) (windowStart windowEnd : Int)
    (l : List (Nat × Output)) :
    findGateEvents (rowsOf env l) windowStart windowEnd =
      (l.filter fun p => windowStart ≤ p.1 ∧ p.1 ≤ windowEnd).filterMap fun p => gateEvent p.2 := by
  induction l with
  | nil => rfl
  | cons p l ih =>
      have happend : findGateEvents (rowsOf env (p :: l)) windowStart windowEnd =
          findGateEvents (rowOf env p.1 (freshId l.length) p.2).toList windowStart windowEnd ++
            findGateEvents (rowsOf env l) windowStart windowEnd := by
        simp only [findGateEvents, rowsOf, List.filter_append, List.map_append]
      rw [happend, ih, findGateEvents_rowOf, List.filter_cons]
      by_cases hin : windowStart ≤ (p.1 : Int) ∧ (p.1 : Int) ≤ windowEnd
      · rw [if_pos hin, if_pos (by simpa using hin), List.filterMap_cons]
        cases gateEvent p.2 <;> rfl
      · rw [if_neg hin, if_neg (by simpa using hin), List.nil_append]

/-! ## What is compared -/

/-- The session whose start the event reports. -/
def startedSession : Output → Option SessionId
  | .track _ "session_started" properties =>
      match properties.lookup "sessionId" with
      | some (.str id) => some id
      | _ => none
  | _ => none

/-- The session that the event has counted as completed. -/
def completedSession (o : Output) : Option SessionId :=
  match o with
  | .track _ "session_ended" properties =>
      match properties.lookup "durationSeconds" with
      | some (.num seconds) => if 40 ≤ seconds then endedSession o else none
      | _ => none
  | _ => none

/-- The participant to whom the event reports a mutual match. -/
def mutualUser : Output → Option UserId
  | .track userId "session_result" properties =>
      if properties.lookup "result" = some (.str "mutual_match") then some userId else none
  | _ => none

/-- Who has opened which chat. -/
def openedChat : Output → Option (UserId × MatchId)
  | .track userId "match_chat_opened" properties =>
      match properties.lookup "matchId" with
      | some (.str matchId) => some (userId, matchId)
      | _ => none
  | _ => none

/-- An event that one of the compared reports consists of, or another one. -/
inductive Seen : Output → Prop
  | started (userId : UserId) (id : SessionId) (seconds : Int) : Seen (.track userId "session_started"
      [("sessionId", .str id), ("durationSeconds", .num seconds)])
  | ended (userId : UserId) (id : SessionId) (reason : EndReason) (seconds : Nat) :
      Seen (Sessions.endedEvent id userId reason seconds)
  | result (userId : UserId) (id : SessionId) (result : String) (bothPassed hasMatch : Bool)
      (h : result ∈ ["mutual_match", "non_mutual"]) : Seen (.track userId "session_result"
        [("sessionId", .str id), ("result", .str result), ("bothPassed", .bool bothPassed),
          ("hasMatch", .bool hasMatch)])
  | opened (userId : UserId) (matchId : MatchId) (messageCount seconds : Nat) :
      Seen (.track userId "match_chat_opened" [("matchId", .str matchId),
        ("messageCount", .num messageCount), ("timeFromMutualMatchSec", .num seconds)])
  | other {o : Output} (h : isCompared o = false) : Seen o

theorem seen_resolvedEvents (id : SessionId) (userId : UserId) (payload : Sessions.ResolvedChoiceResult)
    (bothPassed : Bool) : ∀ o ∈ Sessions.resolvedEvents id userId payload bothPassed, Seen o := by
  cases payload with
  | «mutual» matchId =>
      exact List.forall_mem_cons.mpr ⟨.other rfl,
        List.forall_mem_singleton.mpr (.result userId id _ _ _ (by decide))⟩
  | nonMutual =>
      exact List.forall_mem_cons.mpr ⟨.other rfl,
        List.forall_mem_singleton.mpr (.result userId id _ _ _ (by decide))⟩

theorem Told.seen {ended : Option SessionId} {os : List Output} (h : Told ended os) :
    ∀ o ∈ os, Seen o := by
  cases h with
  | started session tokens startAt endAt =>
      exact List.forall_mem_cons.mpr ⟨.other rfl, List.forall_mem_cons.mpr ⟨.other rfl,
        List.forall_mem_cons.mpr ⟨.started _ _ _, List.forall_mem_singleton.mpr (.started _ _ _)⟩⟩⟩
  | ended session reason now =>
      exact List.forall_mem_cons.mpr ⟨.other rfl, List.forall_mem_cons.mpr ⟨.other rfl,
        List.forall_mem_cons.mpr ⟨.ended _ _ _ _, List.forall_mem_singleton.mpr (.ended _ _ _ _)⟩⟩⟩
  | resolved session payload bothPassed =>
      exact List.forall_mem_append.mpr ⟨seen_resolvedEvents _ _ _ _, seen_resolvedEvents _ _ _ _⟩
  | opened matchId userId messageCount seconds =>
      exact List.forall_mem_singleton.mpr (.opened _ _ _ _)
  | other _ hother => exact fun o ho => .other (hother o ho)

/-- What a snapshot counts of the compared events. -/
structure Counted (o : Output) (t : Tally) : Prop where
  started : t.sessionStarted = (startedSession o).toList.length
  completed : t.sessionCompleted = (completedSession o).toList.length
  mutualResults : t.mutualResults = (mutualUser o).toList.length
  opened : t.chatOpened = (openedChat o).toList.length

theorem gateEvent_of_passes {userId : UserId} {name : String} {properties : List (String × JsonField)}
    (known : AnalyticsEventName) (h : Passes (.track userId name properties))
    (hknown : ANALYTICS_EVENT_NAMES.lookup name = some known) (hgate : known ∈ GATE_EVENTS) :
    ∃ parsed, parseProperties (some (.object (properties.map fun p => (p.1, jsonValue p.2))))
        known.text = .ok parsed ∧
      gateEvent (.track userId name properties) = some ⟨known, parsed⟩ := by
  obtain ⟨⟨-, hcount, hkeys⟩, hfields⟩ := h
  obtain ⟨parsed, hparsed⟩ := (@parseProperties_ok_iff _ known.text).mpr
    ((acceptable_iff properties).mpr ⟨hcount, hkeys, hfields⟩)
  refine ⟨parsed, hparsed, ?_⟩
  unfold gateEvent
  simp only [hknown, hparsed, if_pos hgate]

/-- The names of the compared events. -/
def COMPARED : List (String × AnalyticsEventName) :=
  [("session_started", .session_started), ("session_ended", .session_ended),
    ("session_result", .session_result), ("match_chat_opened", .match_chat_opened)]

/-- Other events are counted for other gates. -/
theorem count_uncompared {name : AnalyticsEventName} (h : name ∉ COMPARED.map (·.2))
    (properties : AnalyticsProperties) :
    (Tally.zero.count ⟨name, properties⟩).sessionStarted = 0 ∧
      (Tally.zero.count ⟨name, properties⟩).sessionCompleted = 0 ∧
      (Tally.zero.count ⟨name, properties⟩).mutualResults = 0 ∧
      (Tally.zero.count ⟨name, properties⟩).chatOpened = 0 := by
  cases name with
  | session_started | session_ended | session_result | match_chat_opened => exact absurd h (by decide)
  | queue_left =>
      simp only [Tally.count]
      split <;> exact ⟨rfl, rfl, rfl, rfl⟩
  | _ => exact ⟨rfl, rfl, rfl, rfl⟩

/-- An event of another name is stored under another name. -/
theorem eventName_uncompared {o : Output} (h : isCompared o = false) {event : GateEvent}
    (hevent : gateEvent o = some event) : event.eventName ∉ COMPARED.map (·.2) := by
  have hnames : ∀ p ∈ ANALYTICS_EVENT_NAMES, p.2 ∈ COMPARED.map (·.2) →
      p.1 ∈ ["session_started", "session_ended", "session_result", "match_chat_opened"] := by decide
  intro hmem
  cases o with
  | track userId name properties =>
      have hnot : name ∉ ["session_started", "session_ended", "session_result", "match_chat_opened"] :=
        of_decide_eq_false h
      unfold gateEvent at hevent
      dsimp only at hevent
      split at hevent
      · cases hevent
      · next known hknown =>
          split at hevent
          · next parsed hparsed =>
              split at hevent
              · obtain rfl := Option.some.inj hevent
                obtain ⟨l₁, l₂, hsplit, -⟩ := List.lookup_eq_some_iff.mp hknown
                exact hnot (hnames (name, known) (by rw [hsplit]; simp) hmem)
              · cases hevent
          · cases hevent
  | _ => cases hevent

theorem counted_other {o : Output} (h : isCompared o = false) :
    Counted o (tally (gateEvent o).toList) := by
  have hstarted : startedSession o = none := by
    unfold startedSession
    split
    · cases h
    · rfl
  have hcompleted : completedSession o = none := by
    unfold completedSession
    split
    · cases h
    · rfl
  have hmutual : mutualUser o = none := by
    unfold mutualUser
    split
    · cases h
    · rfl
  have hopened : openedChat o = none := by
    unfold openedChat
    split
    · cases h
    · rfl
  cases hgate : gateEvent o with
  | none => exact ⟨by rw [hstarted]; rfl, by rw [hcompleted]; rfl, by rw [hmutual]; rfl, by rw [hopened]; rfl⟩
  | some event =>
      obtain ⟨hs, hc, hm, ho⟩ := count_uncompared (eventName_uncompared h hgate) event.properties
      exact ⟨by rw [hstarted]; exact hs, by rw [hcompleted]; exact hc, by rw [hmutual]; exact hm,
        by rw [hopened]; exact ho⟩

/-- **What is counted** of an event that is accepted. -/
theorem counted_gateEvent {o : Output} (hseen : Seen o) (hpasses : Passes o) :
    Counted o (tally (gateEvent o).toList) := by
  cases hseen with
  | other h => exact counted_other h
  | started userId id seconds =>
      obtain ⟨parsed, -, hgate⟩ := gateEvent_of_passes .session_started hpasses (by decide)
        (by decide)
      rw [hgate]
      exact ⟨rfl, rfl, rfl, rfl⟩
  | opened userId matchId messageCount seconds =>
      obtain ⟨parsed, -, hgate⟩ := gateEvent_of_passes .match_chat_opened hpasses (by decide)
        (by decide)
      rw [hgate]
      exact ⟨rfl, rfl, rfl, rfl⟩
  | ended userId id reason seconds =>
      obtain ⟨parsed, hparsed, hgate⟩ := gateEvent_of_passes .session_ended hpasses (by decide)
        (by decide)
      have hgate : gateEvent (Sessions.endedEvent id userId reason seconds) =
        some ⟨.session_ended, parsed⟩ := hgate
      have hlookup : parsed.lookup "durationSeconds" = some (.num ((seconds : Int) : Rat)) :=
        @parseProperties_durationSeconds [("sessionId", .str id),
          ("endReason", .str (Sessions.reasonName reason)),
          ("endedBy", .str (Sessions.mapEndedBy reason))] _ _ _ hparsed
      have hcompleted : completedSession (Sessions.endedEvent id userId reason seconds) =
          if 40 ≤ (seconds : Int) then some id else none := rfl
      rw [hgate]
      change Counted _ (Tally.zero.count ⟨.session_ended, parsed⟩)
      unfold Tally.count
      simp only [hlookup, numberProperty, Option.any_some, decide_eq_true_eq]
      by_cases h40 : 40 ≤ seconds
      · have h40' : (40 : Int) ≤ seconds := by exact_mod_cast h40
        rw [if_pos (by exact_mod_cast h40)]
        exact ⟨rfl, by rw [hcompleted, if_pos h40']; rfl, rfl, rfl⟩
      · have h40' : ¬(40 : Int) ≤ seconds := by exact_mod_cast h40
        rw [if_neg (by exact_mod_cast h40)]
        exact ⟨rfl, by rw [hcompleted, if_neg h40']; rfl, rfl, rfl⟩
  | result userId id result bothPassed hasMatch hresult =>
      obtain ⟨parsed, hparsed, hgate⟩ := gateEvent_of_passes .session_result hpasses (by decide)
        (by decide)
      have htrim : ["sessionId", "result", "bothPassed", "hasMatch"].map jsTrim =
        ["sessionId", "result", "bothPassed", "hasMatch"] := by decide +kernel
      have hid : jsTrim "sessionId" = "sessionId" := by decide +kernel
      have hkey : jsTrim "result" = "result" := by decide +kernel
      have hkeys : ([("sessionId", JsonField.str id), ("result", .str result),
          ("bothPassed", .bool bothPassed), ("hasMatch", .bool hasMatch)].map fun p =>
            (p.1, jsonValue p.2)).map (fun e => jsTrim e.1) =
          ["sessionId", "result", "bothPassed", "hasMatch"] := htrim
      have hjson := lookup_parseProperties hparsed (by rw [hkeys]; decide) (by rw [hkeys]; decide) "result"
      simp only [List.map_cons, hid, hkey, List.lookup_cons, jsonValue] at hjson
      have hlookup : parsed.lookup "result" = some (.str result) := by
        cases hfound : parsed.lookup "result" with
        | none => simp [hfound] at hjson
        | some a => cases a <;> simp_all [AnalyticsPrimitive.json]
      have hmutual : mutualUser (.track userId "session_result" [("sessionId", .str id),
          ("result", .str result), ("bothPassed", .bool bothPassed), ("hasMatch", .bool hasMatch)]) =
          if result = "mutual_match" then some userId else none := by
        simp [mutualUser, List.lookup_cons]
      have hstring : stringProperty (some (.str "mutual_match")) = some "mutual_match" ∧
          stringProperty (some (.str "non_mutual")) ≠ some "mutual_match" := by decide +kernel
      rw [hgate]
      change Counted _ (Tally.zero.count ⟨.session_result, parsed⟩)
      unfold Tally.count
      simp only [hlookup]
      simp only [List.mem_cons, List.not_mem_nil, or_false] at hresult
      rcases hresult with rfl | rfl
      · exact ⟨rfl, rfl, by rw [hmutual, if_pos hstring.1]; rfl, rfl⟩
      · exact ⟨rfl, rfl, by rw [hmutual, if_neg hstring.2]; rfl, rfl⟩

/-- What each event adds to a count, all add. -/
theorem tally_filterMap {β : Type} {f : Tally → Nat} (hzero : f .zero = 0)
    (hadd : ∀ t t', f (t.add t') = f t + f t') {g : Output → Option β} {os : List Output}
    (h : ∀ o ∈ os, f (tally (gateEvent o).toList) = (g o).toList.length) :
    f (tally (os.filterMap gateEvent)) = (os.filterMap g).length := by
  have hone : ∀ event, f (Tally.zero.count event) = f (tally [event]) := fun _ => rfl
  rw [tally_sum hzero hadd]
  induction os with
  | nil => rfl
  | cons o os ih =>
      obtain ⟨ho, hos⟩ := List.forall_mem_cons.mp h
      have hrest := ih hos
      rw [List.filterMap_cons, List.filterMap_cons]
      cases hgate : gateEvent o with
      | none =>
          rw [hgate] at ho
          have hnil : (g o).toList.length = 0 := ho.symm.trans hzero
          cases hg : g o with
          | none => exact hrest
          | some b =>
              rw [hg] at hnil
              cases hnil
      | some event =>
          rw [hgate] at ho
          dsimp only
          rw [List.map_cons, List.sum_cons, hrest, hone]
          cases hg : g o with
          | none =>
              rw [hg] at ho
              rw [show f (tally [event]) = 0 from ho, Nat.zero_add]
          | some b =>
              rw [hg] at ho
              rw [show f (tally [event]) = 1 from ho, List.length_cons, Nat.add_comm]

/-! ## Snapshots -/

section Snapshots

variable {cfg : AppConfig}

/-- What has been tracked, and when. -/
def trackedAt (c : Config (docketSystem cfg)) : List (Nat × Output) :=
  c.trace.flatMap fun e => (tracked e.cmd).map fun o => (e.before.world.clock, o)

/-- The snapshot that is taken now, if every event has been persisted when it
was tracked. -/
def gates (env : AnalyticsEnv) (c : Config (docketSystem cfg)) : StageGateSnapshot :=
  (computeAndPersistSnapshot
    ⟨⟨c.world.world.clock, (trackedAt c).length, rowsOf env (trackedAt c), [], none⟩, []⟩).1

/-- The commands of the last 24 hours. -/
def recent (c : Config (docketSystem cfg)) : List (Entry (docketSystem cfg)) :=
  c.trace.filter fun e =>
    c.world.world.clock ≤ e.before.world.clock + SNAPSHOT_WINDOW_HOURS * 60 * 60 * 1000

/-- What they track. -/
def recentEvents (c : Config (docketSystem cfg)) : List Output :=
  (recent c).flatMap fun e => tracked e.cmd

/-- The sessions whose start has been reported, once for each participant. -/
def startedSessions (c : Config (docketSystem cfg)) : List SessionId :=
  (recentEvents c).filterMap startedSession

/-- The sessions that are counted as completed, once for each participant. -/
def completedSessions (c : Config (docketSystem cfg)) : List SessionId :=
  (recentEvents c).filterMap completedSession

/-- To whom one command reports a mutual match, and with whom. -/
def mutualPairs (os : List Output) : List (UserId × Option UserId) :=
  match os.filterMap mutualUser with
  | [userAId, userBId] => [(userAId, some userBId), (userBId, some userAId)]
  | _ => []

/-- The mutual results that have been reported. -/
def announcedPairs (c : Config (docketSystem cfg)) : List (UserId × Option UserId) :=
  (recent c).flatMap fun e => mutualPairs (tracked e.cmd)

/-- With whom the user has the match. -/
def chatPartner (w : World) (userId : UserId) (matchId : MatchId) : Option UserId :=
  (w.db.matchRows.find? (·.id = matchId)).bind fun m =>
    (Matches.resolveParticipantSide m userId).toOption.map (Matches.partnerOf m)

/-- Who has opened the chat with whom. -/
def openedPairs (c : Config (docketSystem cfg)) : List (UserId × Option UserId) :=
  (recent c).flatMap fun e => ((tracked e.cmd).filterMap openedChat).map fun p =>
    (p.1, chatPartner e.before.world p.1 p.2)

/-- The window holds the start of every session that it has completed. -/
def StartsSeen (c : Config (docketSystem cfg)) : Prop :=
  ∀ id ∈ completedSessions c, id ∈ startedSessions c

/-- In the window, nobody opens the chat with the same partner again, and all
chats opened are of pairs whose mutual result has been reported. -/
structure ChatsOpenedOnce (c : Config (docketSystem cfg)) : Prop where
  once : (openedPairs c).Nodup
  mutual_result : ∀ p ∈ openedPairs c, p ∈ announcedPairs c

/-- No event is tracked in the future. -/
theorem before_clock_le (d : Docket) (es : List (Event (docketSystem cfg))) :
    ∀ e ∈ ((Config.initial d : Config (docketSystem cfg)).run es).trace, e.before.world.clock ≤
      ((Config.initial d : Config (docketSystem cfg)).run es).world.world.clock := by
  refine Config.before_le (S := docketSystem cfg) (f := fun d => d.world.clock) ?_ ?_ d es
  · exact fun c d => Nat.le_of_eq (AppealCmd.clock_exec c d).symm
  · intro e d
    cases e with
    | tick ms => exact Nat.le_add_right _ _

/-- The rows of the window are those of the last 24 hours. -/
theorem findGateEvents_gates (env : AnalyticsEnv) {c : Config (docketSystem cfg)}
    (hpast : ∀ e ∈ c.trace, e.before.world.clock ≤ c.world.world.clock) :
    findGateEvents (rowsOf env (trackedAt c))
        (c.world.world.clock - SNAPSHOT_WINDOW_HOURS * 60 * 60 * 1000) c.world.world.clock =
      (recentEvents c).filterMap gateEvent := by
  rw [findGateEvents_rowsOf]
  unfold trackedAt recentEvents recent
  generalize c.trace = trace at hpast
  induction trace with
  | nil => rfl
  | cons e trace ih =>
      obtain ⟨he, htrace⟩ := List.forall_mem_cons.mp hpast
      rw [List.flatMap_cons, List.filter_append, List.filterMap_append, ih htrace, List.filter_cons]
      by_cases hin : c.world.world.clock ≤ e.before.world.clock + SNAPSHOT_WINDOW_HOURS * 60 * 60 * 1000
      · have hall : ((tracked e.cmd).map fun o => (e.before.world.clock, o)).filter (fun p =>
            decide ((c.world.world.clock : Int) - SNAPSHOT_WINDOW_HOURS * 60 * 60 * 1000 ≤ p.1 ∧
              (p.1 : Int) ≤ c.world.world.clock)) =
            (tracked e.cmd).map fun o => (e.before.world.clock, o) := by
          refine List.filter_eq_self.mpr fun p hp => ?_
          obtain ⟨o, -, rfl⟩ := List.mem_map.mp hp
          simp only [decide_eq_true_eq]
          exact ⟨by omega, by exact_mod_cast he⟩
        rw [hall, if_pos (by simpa using hin), List.flatMap_cons, List.filterMap_append,
          List.filterMap_map]
        rfl
      · have hnone : ((tracked e.cmd).map fun o => (e.before.world.clock, o)).filter (fun p =>
            decide ((c.world.world.clock : Int) - SNAPSHOT_WINDOW_HOURS * 60 * 60 * 1000 ≤ p.1 ∧
              (p.1 : Int) ≤ c.world.world.clock)) = [] := by
          refine List.filter_eq_nil_iff.mpr fun p hp => ?_
          obtain ⟨o, -, rfl⟩ := List.mem_map.mp hp
          simp only [decide_eq_true_eq]
          rintro ⟨hstart, -⟩
          omega
        rw [hnone, if_neg (by simpa using hin)]
        rfl

/-! ## Reports in pairs -/

theorem Told.completed_le {ended : Option SessionId} {os : List Output} (h : Told ended os) :
    (os.filterMap completedSession).length ≤ 2 := by
  cases h with
  | started session tokens startAt endAt => exact Nat.zero_le 2
  | ended session reason now =>
      have hsub : (endReport session.id session.userAId session.userBId session.createdAt reason
          now).filterMap completedSession =
        [Sessions.endedEvent session.id session.userAId reason (secondsBetween session.createdAt now),
          Sessions.endedEvent session.id session.userBId reason
            (secondsBetween session.createdAt now)].filterMap completedSession := rfl
      rw [hsub]
      exact List.length_filterMap_le _ _
  | resolved session payload bothPassed => cases payload <;> exact Nat.zero_le 2
  | opened matchId userId messageCount seconds => exact Nat.zero_le 2
  | other _ hother =>
      have hnil : os.filterMap completedSession = [] :=
        List.filterMap_eq_nil_iff.mpr fun o ho => by
          have hended := endedSession_other (hother o ho)
          unfold completedSession
          split
          · split
            · split
              · exact hended
              · rfl
            · rfl
          · rfl
      rw [hnil]
      exact Nat.zero_le 2

theorem endedSession_of_completed {o : Output} {id : SessionId} (h : completedSession o = some id) :
    endedSession o = some id := by
  unfold completedSession at h
  split at h
  · split at h
    · split at h
      · exact h
      · cases h
    · cases h
  · cases h

/-- Nothing is completed that has not been reported as ended. -/
theorem count_completed_le {ended : Option SessionId} {c : AppealCmd} (h : Told ended (tracked c))
    (id : SessionId) : ((tracked c).filterMap completedSession).count id ≤ 2 * reportsEnd id c := by
  unfold reportsEnd
  split
  · exact List.count_le_length.trans h.completed_le
  · next hnone =>
      refine Nat.le_of_eq (List.count_eq_zero.mpr fun hmem => hnone ?_)
      obtain ⟨o, ho, hid⟩ := List.mem_filterMap.mp hmem
      exact List.any_eq_true.mpr ⟨o, ho, decide_eq_true (endedSession_of_completed hid)⟩

/-- A start is reported to both participants. -/
theorem Told.count_started {ended : Option SessionId} {os : List Output} (h : Told ended os)
    {id : SessionId} (hmem : id ∈ os.filterMap startedSession) :
    2 ≤ (os.filterMap startedSession).count id := by
  cases h with
  | started session tokens startAt endAt =>
      have hpair : ∀ x ∈ [session.id, session.id], 2 ≤ [session.id, session.id].count x := by simp
      exact hpair id hmem
  | ended session reason now => cases hmem
  | resolved session payload bothPassed => cases payload <;> cases hmem
  | opened matchId userId messageCount seconds => cases hmem
  | other _ hother =>
      obtain ⟨o, ho, hid⟩ := List.mem_filterMap.mp hmem
      have hnot := hother o ho
      unfold startedSession at hid
      split at hid
      · cases hnot
      · cases hid

/-- A result is reported to both participants. -/
theorem Told.length_mutualPairs {ended : Option SessionId} {os : List Output} (h : Told ended os) :
    (mutualPairs os).length = (os.filterMap mutualUser).length := by
  cases h with
  | started session tokens startAt endAt => rfl
  | ended session reason now => rfl
  | resolved session payload bothPassed => cases payload <;> rfl
  | opened matchId userId messageCount seconds => rfl
  | other _ hother =>
      have hnil : os.filterMap mutualUser = [] :=
        List.filterMap_eq_nil_iff.mpr fun o ho => by
          have hnot := hother o ho
          unfold mutualUser
          split
          · cases hnot
          · rfl
      unfold mutualPairs
      rw [hnil]
      rfl

/-! ## Runs -/

/-- Every entry is of the source. -/
theorem told_run (cfg : AppConfig) (d : Docket) (es : List (Event (docketSystem cfg))) :
    ∀ e ∈ ((Config.initial d : Config (docketSystem cfg)).run es).trace,
      ∃ ended, Told ended (tracked e.cmd) := by
  intro e he
  obtain ⟨o, p, -, hcommand⟩ := (docket_issued cfg d es).trace e he
  exact told_docket hcommand

/-- Where every event is accepted, everything that is tracked is counted. -/
theorem counted_run {env : AnalyticsEnv} {d : Docket} {es : List (Event (docketSystem cfg))}
    (hpersisted : Delivered env ((Config.initial d : Config (docketSystem cfg)).run es)) :
    ∀ o ∈ recentEvents ((Config.initial d : Config (docketSystem cfg)).run es),
      Counted o (tally (gateEvent o).toList) := by
  intro o ho
  obtain ⟨e, he, ho⟩ := List.mem_flatMap.mp ho
  have he := List.mem_of_mem_filter he
  obtain ⟨ended, htold⟩ := told_run cfg d es e he
  refine counted_gateEvent (htold.seen o ho) ?_
  cases hevent : serverEvent o with
  | some event => exact (reachesPersist_iff env hevent).mp (hpersisted e he o ho event hevent)
  | none =>
      cases o with
      | track userId name properties => cases hevent
      | _ => trivial

theorem count_completedSessions_le {trace : List (Entry (docketSystem cfg))}
    (htold : ∀ e ∈ trace, ∃ ended, Told ended (tracked e.cmd)) (p : Entry (docketSystem cfg) → Bool)
    (id : SessionId) :
    (((trace.filter p).flatMap fun e => tracked e.cmd).filterMap completedSession).count id ≤
      2 * Config.total (reportsEnd id) trace := by
  induction trace with
  | nil => exact Nat.zero_le _
  | cons e trace ih =>
      obtain ⟨⟨ended, he⟩, htrace⟩ := List.forall_mem_cons.mp htold
      have hrest := ih htrace
      have hone := count_completed_le he id
      rw [Config.total_cons, List.filter_cons]
      split
      · rw [List.flatMap_cons, List.filterMap_append, List.count_append]
        omega
      · omega

theorem two_le_count_startedSessions {c : Config (docketSystem cfg)}
    (htold : ∀ e ∈ c.trace, ∃ ended, Told ended (tracked e.cmd)) {id : SessionId}
    (hid : id ∈ startedSessions c) : 2 ≤ (startedSessions c).count id := by
  obtain ⟨o, ho, hstarted⟩ := List.mem_filterMap.mp hid
  obtain ⟨e, he, ho⟩ := List.mem_flatMap.mp ho
  obtain ⟨ended, htold⟩ := htold e (List.mem_of_mem_filter he)
  have hsub : (tracked e.cmd).Sublist (recentEvents c) :=
    List.sublist_flatten_of_mem (List.mem_map_of_mem he)
  exact (htold.count_started (List.mem_filterMap.mpr ⟨o, ho, hstarted⟩)).trans
    ((hsub.filterMap startedSession).count_le id)

/-- No session is completed more often than it has been started. -/
theorem completed_le_started (d : Docket) {es : List (Event (docketSystem cfg))}
    (hends : (Config.initial d : Config (docketSystem cfg)).Obeys EndsOnce es)
    (hseen : StartsSeen ((Config.initial d : Config (docketSystem cfg)).run es)) :
    (completedSessions ((Config.initial d : Config (docketSystem cfg)).run es)).length ≤
      (startedSessions ((Config.initial d : Config (docketSystem cfg)).run es)).length := by
  refine (List.subperm_ext_iff.mpr fun id hid => ?_).length_le
  have hone := reportsEnd_le_one id d hends
  have htold := told_run cfg d es
  set c := (Config.initial d : Config (docketSystem cfg)).run es
  calc (completedSessions c).count id
      ≤ 2 * Config.total (reportsEnd id) c.trace := count_completedSessions_le htold _ id
    _ ≤ 2 * 1 := Nat.mul_le_mul_left 2 hone
    _ ≤ (startedSessions c).count id := two_le_count_startedSessions htold (hseen id hid)

/-- Each chat opened is of a result of its own. -/
theorem opened_le_announced {c : Config (docketSystem cfg)} (h : ChatsOpenedOnce c) :
    (openedPairs c).length ≤ (announcedPairs c).length :=
  (List.subperm_of_subset h.once h.mutual_result).length_le

theorem length_announcedPairs {c : Config (docketSystem cfg)}
    (htold : ∀ e ∈ c.trace, ∃ ended, Told ended (tracked e.cmd)) :
    (announcedPairs c).length = ((recentEvents c).filterMap mutualUser).length := by
  unfold announcedPairs recentEvents
  have hrecent : ∀ e ∈ recent c, ∃ ended, Told ended (tracked e.cmd) :=
    fun e he => htold e (List.mem_of_mem_filter he)
  generalize recent c = entries at hrecent
  induction entries with
  | nil => rfl
  | cons e entries ih =>
      obtain ⟨⟨ended, he⟩, hentries⟩ := List.forall_mem_cons.mp hrecent
      rw [List.flatMap_cons, List.flatMap_cons, List.filterMap_append, List.length_append,
        List.length_append, ih hentries, he.length_mutualPairs]

theorem length_openedPairs (c : Config (docketSystem cfg)) :
    (openedPairs c).length = ((recentEvents c).filterMap openedChat).length := by
  unfold openedPairs recentEvents
  generalize recent c = entries
  induction entries with
  | nil => rfl
  | cons e entries ih =>
      rw [List.flatMap_cons, List.flatMap_cons, List.filterMap_append, List.length_append,
        List.length_append, ih, List.length_map]

/-- Every event is accepted if the values it brings in are. -/
theorem delivered_of_broughtIn {env : AnalyticsEnv} {d : Docket} {es : List (Event (docketSystem cfg))}
    (h : ∀ e ∈ ((Config.initial d : Config (docketSystem cfg)).run es).trace, ∀ o ∈ tracked e.cmd,
      ∀ v ∈ broughtIn o, FittingField v) :
    Delivered env ((Config.initial d : Config (docketSystem cfg)).run es) := by
  intro e he o ho event hevent
  obtain ⟨ended, htold⟩ := told_run cfg d es e he
  exact (reachesPersist_iff env hevent).mpr ((htold.sourced o ho).passes_iff.mpr (h e he o ho))

/-- The snapshot is that of the events of the last 24 hours. -/
theorem gates_run (env : AnalyticsEnv) (d : Docket) (es : List (Event (docketSystem cfg))) :
    let c := (Config.initial d : Config (docketSystem cfg)).run es
    gates env c = snapshotOf (c.world.world.clock - SNAPSHOT_WINDOW_HOURS * 60 * 60 * 1000)
      c.world.world.clock ((recentEvents c).filterMap gateEvent) :=
  congrArg (snapshotOf _ _) (findGateEvents_gates env (before_clock_le d es))

/-- **Which ratios are ratios.** -/
theorem gates_are_ratios (cfg : AppConfig) (env : AnalyticsEnv) (d : Docket)
    (es : List (Event (docketSystem cfg)))
    (hpersisted : Delivered env ((Config.initial d : Config (docketSystem cfg)).run es)) :
    let c := (Config.initial d : Config (docketSystem cfg)).run es
    IsRatio (gates env c).mutualMatchRate ∧ IsRatio (gates env c).appealOverturnRate ∧
      ((Config.initial d : Config (docketSystem cfg)).Obeys EndsOnce es → StartsSeen c →
        IsRatio (gates env c).completionRate) ∧
      (ChatsOpenedOnce c → IsRatio (gates env c).chatActivationRate) := by
  intro c
  have hcounted := counted_run hpersisted
  rw [gates_run]
  refine ⟨isRatio_rate (mutualResults_le _), isRatio_rate (appealOverturned_le _), fun hends hseen => ?_,
    fun hopened => ?_⟩
  · refine isRatio_rate ?_
    rw [tally_filterMap (f := Tally.sessionCompleted) rfl (fun _ _ => rfl)
        (g := completedSession) fun o ho => (hcounted o ho).completed,
      tally_filterMap (f := Tally.sessionStarted) rfl (fun _ _ => rfl)
        (g := startedSession) fun o ho => (hcounted o ho).started]
    exact completed_le_started d hends hseen
  · refine isRatio_rate ?_
    rw [tally_filterMap (f := Tally.chatOpened) rfl (fun _ _ => rfl)
        (g := openedChat) fun o ho => (hcounted o ho).opened,
      tally_filterMap (f := Tally.mutualResults) rfl (fun _ _ => rfl)
        (g := mutualUser) fun o ho => (hcounted o ho).mutualResults,
      ← length_openedPairs, ← length_announcedPairs (told_run cfg d es)]
    exact opened_le_announced hopened

end Snapshots

/-! ## An evening -/

section Evening

def annsDate : Session := ⟨"s", "ann", "bob", none, none, 1000000000000⟩

def cidsDate : Session := ⟨"t", "cid", "dan", none, none, 1000000000000⟩

/-- Two sessions have just been created. -/
def evening : Docket :=
  let w := World.peopled ["ann", "bob", "cid", "dan"] 1
  ⟨{ w with
      clock := 1000000000000
      db := { w.db with sessions := [annsDate, cidsDate] }
      video := fun _ _ _ => .ok ⟨"channel", 0, fun _ => ⟨"rtc", 1, "rtm", "rtm"⟩⟩ }, []⟩

abbrev Course := List (Event (docketSystem violationApp))

/-- The call is made and runs to its end. -/
def callAlone (i : Nat) (o : AppOp) : Course := .start (.app o) :: List.replicate 30 (.step i)

def wait (ms : Nat) : Course := [.env (.tick ms)]

def afterwards (es : Course) : Config (docketSystem violationApp) := (Config.initial evening).run es

/-- Ann and Bob talk until the time is up. -/
def annsTalk : Course :=
  callAlone 0 (.handleSessionCreated 0 annsDate) ++ wait 45000 ++
    callAlone 1 (.sessionTimeout 0 "s" "ann" "bob")

/-- Both choose MATCH. Ann reads Bob's profile and opens the chat. -/
def annsEvening : Course :=
  annsTalk ++ callAlone 2 (.submitChoice 0 "s" "ann" .MATCH) ++
    callAlone 3 (.submitChoice 0 "s" "bob" .MATCH) ++
    callAlone 4 (.read "ann" (.acknowledgeReveal (freshId 0))) ++
    callAlone 5 (.read "ann" (.listMessages (freshId 0) none))

theorem gates_are_ratios_annsEvening :
    let g := gates plainEnv (afterwards annsEvening)
    (g.completionRate = some 1 ∧ g.chatActivationRate = some (1 / 2)) ∧
      IsRatio g.mutualMatchRate ∧ IsRatio g.appealOverturnRate ∧ IsRatio g.completionRate ∧
      IsRatio g.chatActivationRate := by
  have hpersisted : Delivered plainEnv (afterwards annsEvening) :=
    delivered_of_broughtIn (by decide +kernel)
  obtain ⟨hmutual, hoverturned, hcompletion, hchat⟩ :=
    gates_are_ratios violationApp plainEnv evening annsEvening hpersisted
  exact ⟨by decide +kernel, hmutual, hoverturned,
    hcompletion (by decide +kernel) (by unfold StartsSeen; decide +kernel),
    hchat ⟨by decide +kernel, by decide +kernel⟩⟩

/-- A second session starts before the first is over. The window that begins
between the two starts holds both ends. -/
def straddling : Course :=
  callAlone 0 (.handleSessionCreated 0 annsDate) ++ wait 30000 ++
    callAlone 1 (.handleSessionCreated 0 cidsDate) ++ wait 15000 ++
    callAlone 2 (.sessionTimeout 0 "s" "ann" "bob") ++ wait 30000 ++
    callAlone 3 (.sessionTimeout 0 "t" "cid" "dan") ++ wait 86335000

/-- Two hours later a violation of the session is reported, which ends it once more. -/
def endedAgain : Course :=
  annsTalk ++ wait 7200000 ++
    callAlone 2 (.hiveWebhook 0 ⟨[], []⟩ violationBody ⟨some violationSignature, some "1000007245"⟩)

/-- Ann opens the chat twice more. -/
def reopened : Course :=
  annsEvening ++ callAlone 6 (.read "ann" (.listMessages (freshId 0) none)) ++
    callAlone 7 (.read "ann" (.listMessages (freshId 0) none))

theorem not_isRatio {r : Option Rat} {x : Rat} (h : r = some x) (hx : 1 < x) : ¬IsRatio r :=
  fun hratio => (hratio x h).2.not_gt hx

/-- Everything is persisted, and yet more sessions are completed than
started, and more chats opened than results are mutual. -/
theorem not_ratios_straddling :
    (Delivered plainEnv (afterwards straddling) ∧
      ¬IsRatio (gates plainEnv (afterwards straddling)).completionRate) ∧
    (Delivered plainEnv (afterwards endedAgain) ∧
      ¬IsRatio (gates plainEnv (afterwards endedAgain)).completionRate) ∧
    (Delivered plainEnv (afterwards reopened) ∧
      ¬IsRatio (gates plainEnv (afterwards reopened)).chatActivationRate) := by
  have hstraddling : (gates plainEnv (afterwards straddling)).completionRate = some 2 := by
    decide +kernel
  have hended : (gates plainEnv (afterwards endedAgain)).completionRate = some 2 := by
    decide +kernel
  have hreopened : (gates plainEnv (afterwards reopened)).chatActivationRate = some (3 / 2) := by
    decide +kernel
  exact ⟨⟨delivered_of_broughtIn (by decide +kernel), not_isRatio hstraddling (by decide +kernel)⟩,
    ⟨delivered_of_broughtIn (by decide +kernel), not_isRatio hended (by decide +kernel)⟩,
    ⟨delivered_of_broughtIn (by decide +kernel), not_isRatio hreopened (by decide +kernel)⟩⟩

end Evening

end VerityBackend.Telemetry
