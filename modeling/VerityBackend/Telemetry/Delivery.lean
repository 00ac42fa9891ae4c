/-
VerityBackend.Telemetry.Delivery — does the backend drop its own events?

In every run, whatever is called with whatever input, an event that is
tracked reaches `persistEvent` if and only if the values it brings in are
accepted (`delivered_iff`): short strings, finite numbers, booleans and
`null`. The city of a queue, the payload of a violation and the metadata of a
payment have no bound and no type, so their events can be lost
(`not_delivered_longCity`).
-/
import VerityBackend.Queue.Cities
import VerityBackend.Telemetry.Reports

namespace VerityBackend.Telemetry

open App Async Analytics Moderation

/-! ## Runs -/

section Runs

variable {cfg : AppConfig}

/-- Every event that is tracked reaches `persistEvent`. -/
def Delivered (env : AnalyticsEnv) (c : Config (docketSystem cfg)) : Prop :=
  ∀ e ∈ c.trace, ∀ o ∈ tracked e.cmd, ∀ event, serverEvent o = some event → ReachesPersist env event

/-- **Which events are dropped**: in every run, whatever is stored at the
beginning and whatever the calls are given, those that bring in a value
that is not accepted. -/
theorem delivered_iff (cfg : AppConfig) (env : AnalyticsEnv) (d : Docket)
    (es : List (Event (docketSystem cfg))) :
    ∀ e ∈ ((Config.initial d : Config (docketSystem cfg)).run es).trace, ∀ o ∈ tracked e.cmd,
      ∀ event, serverEvent o = some event →
        (ReachesPersist env event ↔ ∀ v ∈ broughtIn o, FittingField v) := by
  intro e he o ho event hevent
  obtain ⟨op, p, -, hcommand⟩ := (docket_issued cfg d es).trace e he
  obtain ⟨ended, htold⟩ := told_docket hcommand
  exact (reachesPersist_iff env hevent).trans (htold.sourced o ho).passes_iff

/-- A configuration without secrets. -/
def plainApp : AppConfig :=
  ⟨⟨"access secret", "refresh secret", fun t => t.jti⟩, ⟨none, fun _ _ => [], fun _ =>
    ⟨none, none, none, none, none, none, none, none⟩⟩⟩

def plainEnv : AnalyticsEnv := ⟨none, none, none⟩

def annAndBob : Docket := ⟨World.peopled ["ann", "bob"] 1, []⟩

/-- Ann reports Bob. -/
def annReports : List (Event (docketSystem plainApp)) :=
  .start (.app (.createReport "ann" ⟨"bob", "spam", none⟩)) :: List.replicate 7 (.step 0)

theorem delivered_iff_report : ∃ e ∈ ((Config.initial annAndBob : Config (docketSystem plainApp)).run
    annReports).trace, ∃ o ∈ tracked e.cmd, ∃ event, serverEvent o = some event ∧
      ReachesPersist plainEnv event := by
  obtain ⟨e, he, o, ho, event, hevent, hfits⟩ : ∃ e ∈ ((Config.initial annAndBob :
      Config (docketSystem plainApp)).run annReports).trace, ∃ o ∈ tracked e.cmd, ∃ event,
        serverEvent o = some event ∧ ∀ v ∈ broughtIn o, FittingField v :=
    ⟨_, List.mem_of_getElem? (i := 0) rfl, _, List.mem_singleton_self _, _, rfl, by decide +kernel⟩
  exact ⟨e, he, o, ho, event, hevent,
    (delivered_iff plainApp plainEnv annAndBob annReports e he o ho event hevent).mpr hfits⟩

end Runs

theorem jsLength_append (s t : String) : jsLength (s ++ t) = jsLength s + jsLength t := by
  unfold jsLength
  rw [String.toList_append, List.map_append, List.sum_append]

theorem fits_of_fits_append {s t : String} (h : Fits (s ++ t)) : Fits s := by
  unfold Fits at h ⊢
  rw [jsLength_append] at h
  omega

/-! ## A long city -/

section LongCity

/-- The key of the queue is a property of the event. -/
theorem joinedEvents_key (userId : UserId) (city : String) (key : QueueKey) (position : Option Nat) :
    ∃ o event, o ∈ Queue.joinedEvents userId city key position ∧ serverEvent o = some event ∧
      (Passes o → Fits key) :=
  ⟨_, _, List.mem_cons_self, rfl, fun h => h.2 ("queueKey", .str key) (.tail _ (.head _))⟩

/-- A call of the queue alone issues the commands of the queue. -/
theorem commands_queue (o : Queue.QueueOp) (d : Docket) :
    ((docketSystem plainApp).code (.app (.queue o))).commands AppealCmd.exec d =
      (o.code.commands Cmd.exec d.world).map AppealCmd.backend :=
  Proc.commands_embed (fun _ _ => rfl) (fun _ _ => rfl) o.code d

/-- Whatever queue Ann asks for, it is tracked as it is. -/
theorem joinQueue_tracks {input : Queue.QueueJoinInput} {city : String} {key : QueueKey}
    (hcity : Queue.resolveQueueCity input = .ok city)
    (hkey : Queue.buildQueueKey city input.preferences = .ok key) :
    ∃ position, Cmd.host (.emit (Queue.joinedEvents "ann" city key position)) ∈
      (Queue.QueueOp.joinQueue "ann" input).code.commands Cmd.exec annAndBob.world := by
  have hcode : (Queue.QueueOp.joinQueue "ann" input).code =
      (redis (.get (.moderationBan "ann"))).bind fun banned =>
        if truthy banned = true then Proc.fail (.unauthorized "Account is temporarily suspended")
        else (Queue.acquireLock "ann").bind (Queue.joinLocked "ann" city key) := by
    simp only [Queue.QueueOp.code, Queue.joinQueue, hcity, hkey]
    rfl
  rw [hcode]
  refine ⟨?_, ?_⟩
  rotate_left
  -- the ninth command, whatever rank the key has given her
  · refine List.mem_of_getElem? (i := 8) ?_
    rfl

/-- A name of `n` letters. -/
def letters (n : Nat) : String := String.ofList (List.replicate n 'a')

theorem jsLength_letters (n : Nat) : jsLength (letters n) = n := by
  have hone : (if 0xFFFF < 'a'.toNat then 2 else 1) = 1 := by decide
  unfold jsLength letters
  rw [String.toList_ofList, List.map_replicate, hone, List.sum_replicate_nat, Nat.mul_one]

theorem isSlug_letters (n : Nat) : Queue.IsSlug (letters (n + 1)).toList := by
  rw [letters, String.toList_ofList]
  induction n with
  | zero => exact .last (by decide)
  | succ n ih => exact .letter (by decide) ih

/-- The queue of the city whose name has `n` letters. -/
def inputOf (n : Nat) : Queue.QueueJoinInput := ⟨.str (letters n), .undefined, "0123456789ab"⟩

/-- From 200 letters on, Ann has joined and no event says so. -/
theorem longCity_lost {n : Nat} (h : 200 ≤ n) : ∃ m, ¬Delivered plainEnv
    ((Config.initial annAndBob : Config (docketSystem plainApp)).run
      (.start (.app (.queue (.joinQueue "ann" (inputOf n)))) :: List.replicate m (.step 0))) := by
  obtain ⟨k, rfl⟩ : ∃ k, n = k + 1 := ⟨n - 1, by omega⟩
  have hnormal := Queue.normalizeQueueCity_of_isSlug (isSlug_letters k)
  have hcity : Queue.resolveQueueCity (inputOf (k + 1)) = .ok (letters (k + 1)) := by
    simp only [Queue.resolveQueueCity, inputOf, hnormal]
  have hkey : Queue.buildQueueKey (letters (k + 1)) (inputOf (k + 1)).preferences =
      .ok (letters (k + 1) ++ ":" ++ "0123456789ab") := by
    simp only [Queue.buildQueueKey, inputOf, hnormal]
  obtain ⟨position, htracks⟩ := joinQueue_tracks hcity hkey
  have hissued := List.mem_map_of_mem (f := AppealCmd.backend) htracks
  rw [← commands_queue (.joinQueue "ann" (inputOf (k + 1))) annAndBob] at hissued
  obtain ⟨m, e, he, hcmd⟩ := @Config.issues_alone (docketSystem plainApp) annAndBob
    (.app (.queue (.joinQueue "ann" (inputOf (k + 1))))) _ hissued
  refine ⟨m, fun hdelivered => ?_⟩
  obtain ⟨o, event, hjoined, hevent, hkeyed⟩ := joinedEvents_key "ann" (letters (k + 1))
    (letters (k + 1) ++ ":" ++ "0123456789ab") position
  have htracked : o ∈ tracked e.cmd := by
    rw [hcmd]
    exact hjoined
  have hfits := hkeyed ((reachesPersist_iff plainEnv hevent).mp
    (hdelivered e he o htracked event hevent))
  have hcolon := fits_of_fits_append hfits
  unfold Fits at hcolon
  rw [jsLength_append, jsLength_letters] at hcolon
  have hbound : MAX_STRING_LENGTH = 200 := rfl
  have hpositive : 0 < jsLength ":" := by decide +kernel
  omega

/-- No city is too long for the controller. -/
theorem not_delivered_longCity : ¬∀ cfg env d, ∀ es : List (Event (docketSystem cfg)),
    Delivered env ((Config.initial d : Config (docketSystem cfg)).run es) := by
  intro h
  obtain ⟨m, hlost⟩ := longCity_lost (Nat.le_refl 200)
  exact hlost (h plainApp plainEnv annAndBob _)

end LongCity

end VerityBackend.Telemetry
