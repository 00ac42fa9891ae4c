/-
VerityBackend.Telemetry.Alerts — `isSustainedWaitBreach`, and the breaches
it reports.

The service keeps one key, the time at which the wait began to be too long.
The key is stored when a breach begins and removed when one ends, and what
it says is then right until it expires (`Tracks`). Nothing renews it: a
breach that outlasts the time to live is reported again only after it has
gone on for another two hours (`detects_iff_shortBreaches`).
-/
import VerityBackend.Backend.Values
import VerityBackend.Store.Keyspace
import Mathlib.Data.List.Induction

namespace VerityBackend.Telemetry

open Store

/-! ## The evaluation -/

/-- `WAIT_P90_BREACH_KEY`, `telemetry:alerts:wait_p90:breach_since`. -/
inductive AlertKey where
  | waitP90Breach
  deriving DecidableEq, Repr

abbrev AlertStore := Keyspace AlertKey String

def WAIT_P90_THRESHOLD_SECONDS : Rat := 150

def WAIT_P90_SUSTAIN_MS : Nat := 2 * 60 * 60 * 1000

/-- The answer, and what Redis holds afterwards. -/
def isSustainedWaitBreach (redis : AlertStore) (nowMs : Nat) (waitP90Seconds : Option Rat) :
    Bool × AlertStore :=
  let restart :=
    (false, redis.set nowMs .waitP90Breach (toString nowMs) (some (WAIT_P90_SUSTAIN_MS * 2)))
  match waitP90Seconds with
  | none => (false, redis.del .waitP90Breach)
  | some seconds =>
      if seconds ≤ WAIT_P90_THRESHOLD_SECONDS then (false, redis.del .waitP90Breach)
      else
        match redis.get nowMs .waitP90Breach with
        | none => restart
        | some existing =>
            if existing = "" then restart
            else
              match parseInt existing with
              -- `!Number.isFinite(breachStartedMs)`
              | none => restart
              | some breachStartedMs =>
                  ((WAIT_P90_SUSTAIN_MS : Int) ≤ (nowMs : Int) - breachStartedMs, redis)

/-! ## Evaluations one after the other -/

structure Evaluation where
  nowMs : Nat
  waitP90Seconds : Option Rat
  deriving DecidableEq, Repr

/-- The value exceeds the threshold. -/
def Evaluation.Breaches (e : Evaluation) : Prop :=
  ∃ seconds ∈ e.waitP90Seconds, WAIT_P90_THRESHOLD_SECONDS < seconds

instance (e : Evaluation) : Decidable e.Breaches :=
  match h : e.waitP90Seconds with
  | none => .isFalse (by simp [Evaluation.Breaches, h])
  | some seconds =>
      decidable_of_iff (WAIT_P90_THRESHOLD_SECONDS < seconds) (by simp [Evaluation.Breaches, h])

/-- What Redis holds after these evaluations, the first of which found no
key. -/
def storeAfter (past : List Evaluation) : AlertStore :=
  past.foldl (fun redis e => (isSustainedWaitBreach redis e.nowMs e.waitP90Seconds).2) []

/-- What `isSustainedWaitBreach` answers after these evaluations. -/
def detects (past : List Evaluation) (e : Evaluation) : Bool :=
  (isSustainedWaitBreach (storeAfter past) e.nowMs e.waitP90Seconds).1

/-- Since some evaluation at least two hours earlier, all values exceed the
threshold. -/
def Sustained (past : List Evaluation) (e : Evaluation) : Prop :=
  e.Breaches ∧ ∃ before first since, past = before ++ first :: since ∧
    first.nowMs + WAIT_P90_SUSTAIN_MS ≤ e.nowMs ∧ ∀ x ∈ first :: since, x.Breaches

/-- Every evaluation reports what is there to report. -/
def DetectsSustained (es : List Evaluation) : Prop :=
  ∀ past e, past ++ [e] <+: es → (detects past e = true ↔ Sustained past e)

/-- No breach is still there when the key stored at its beginning has
expired. -/
def ShortBreaches (es : List Evaluation) : Prop :=
  ∀ before first since e, (before ++ first :: since) ++ [e] <+: es →
    (∀ x ∈ first :: since, x.Breaches) → e.Breaches →
      e.nowMs < first.nowMs + WAIT_P90_SUSTAIN_MS * 2

/-- The times do not decrease. -/
def Ordered (es : List Evaluation) : Prop := es.Pairwise (·.nowMs ≤ ·.nowMs)

instance (es : List Evaluation) : Decidable (Ordered es) := by
  unfold Ordered
  infer_instance

/-! ## One evaluation -/

section Step

variable {redis : AlertStore} {e : Evaluation}

theorem isSustainedWaitBreach_quiet (h : ¬e.Breaches) :
    isSustainedWaitBreach redis e.nowMs e.waitP90Seconds = (false, redis.del .waitP90Breach) := by
  unfold isSustainedWaitBreach
  cases hx : e.waitP90Seconds with
  | none => rfl
  | some seconds =>
      have hle : seconds ≤ WAIT_P90_THRESHOLD_SECONDS :=
        Rat.not_lt.mp fun hlt => h ⟨seconds, hx, hlt⟩
      simp [hle]

/-- A breach that is not on record begins at this evaluation. -/
theorem isSustainedWaitBreach_begins (h : e.Breaches)
    (hget : redis.get e.nowMs .waitP90Breach = none) :
    isSustainedWaitBreach redis e.nowMs e.waitP90Seconds =
      (false, redis.set e.nowMs .waitP90Breach (toString e.nowMs)
        (some (WAIT_P90_SUSTAIN_MS * 2))) := by
  obtain ⟨seconds, hx, hlt⟩ := h
  unfold isSustainedWaitBreach
  rw [hx]
  simp [Rat.not_le.mpr hlt, hget]

/-- A breach on record is reported two hours after it began. -/
theorem isSustainedWaitBreach_continues (h : e.Breaches) {t : Nat}
    (hget : redis.get e.nowMs .waitP90Breach = some (toString t)) :
    isSustainedWaitBreach redis e.nowMs e.waitP90Seconds =
      (decide (t + WAIT_P90_SUSTAIN_MS ≤ e.nowMs), redis) := by
  obtain ⟨seconds, hx, hlt⟩ := h
  have hne : toString t ≠ "" := by
    intro h0
    have hparse := parseInt_toString t
    rw [h0] at hparse
    cases hparse
  have hle : ((WAIT_P90_SUSTAIN_MS : Int) ≤ (e.nowMs : Int) - t) ↔
      t + WAIT_P90_SUSTAIN_MS ≤ e.nowMs := by omega
  unfold isSustainedWaitBreach
  rw [hx]
  simp only [Rat.not_le.mpr hlt, if_false, hget, if_neg hne, parseInt_toString, hle]

end Step

/-! ## The breach that is going on -/

/-- When the values began to exceed the threshold, if the last one does. -/
def breachedSince (past : List Evaluation) : Option Nat :=
  past.foldl (fun since e => if e.Breaches then some (since.getD e.nowMs) else none) none

section Breach

variable {past : List Evaluation} {e : Evaluation}

theorem breachedSince_append (past : List Evaluation) (e : Evaluation) :
    breachedSince (past ++ [e]) =
      if e.Breaches then some ((breachedSince past).getD e.nowMs) else none := by
  simp [breachedSince]

/-- It is the time of an evaluation, and no value has been in order since. -/
theorem breachedSince_eq_some {t : Nat} (h : breachedSince past = some t) :
    ∃ before first since, past = before ++ first :: since ∧ first.nowMs = t ∧
      ∀ x ∈ first :: since, x.Breaches := by
  induction past using List.reverseRecOn generalizing t with
  | nil => cases h
  | append_singleton past e ih =>
      rw [breachedSince_append] at h
      split at h
      next he =>
        cases hs : breachedSince past with
        | none =>
            rw [hs] at h
            refine ⟨past, e, [], rfl, Option.some.inj h, fun x hx => ?_⟩
            rw [List.mem_singleton.mp hx]
            exact he
        | some t' =>
            rw [hs] at h
            obtain ⟨before, first, since, rfl, rfl, hall⟩ := ih hs
            refine ⟨before, first, since ++ [e], by simp, Option.some.inj h, fun x hx => ?_⟩
            rw [← List.cons_append, List.mem_append, List.mem_singleton] at hx
            rcases hx with hx | rfl
            · exact hall x hx
            · exact he
      next => cases h

/-- A breach has been going on since its first evaluation at the latest. -/
theorem breachedSince_le {before since : List Evaluation} {first : Evaluation}
    (hord : Ordered (before ++ first :: since)) (hall : ∀ x ∈ first :: since, x.Breaches) :
    ∃ t, breachedSince (before ++ first :: since) = some t ∧ t ≤ first.nowMs := by
  induction since using List.reverseRecOn with
  | nil =>
      rw [breachedSince_append, if_pos (hall first List.mem_cons_self)]
      refine ⟨_, rfl, ?_⟩
      cases hs : breachedSince before with
      | none => exact Nat.le_refl _
      | some t =>
          obtain ⟨b, f, s, rfl, rfl, -⟩ := breachedSince_eq_some hs
          exact (List.pairwise_append.mp hord).2.2 f (by simp) first (by simp)
  | append_singleton since e ih =>
      rw [← List.cons_append, ← List.append_assoc] at hord ⊢
      obtain ⟨t, ht, hle⟩ := ih (List.pairwise_append.mp hord).1
        fun x hx => hall x (List.mem_append_left [e] hx)
      rw [breachedSince_append, if_pos (hall e (by simp)), ht]
      exact ⟨t, rfl, hle⟩

theorem sustained_iff (hord : Ordered past) :
    Sustained past e ↔
      e.Breaches ∧ ∃ t, breachedSince past = some t ∧ t + WAIT_P90_SUSTAIN_MS ≤ e.nowMs := by
  constructor
  · rintro ⟨he, before, first, since, rfl, hlong, hall⟩
    obtain ⟨t, ht, hle⟩ := breachedSince_le hord hall
    exact ⟨he, t, ht, by omega⟩
  · rintro ⟨he, t, ht, hlong⟩
    obtain ⟨before, first, since, rfl, rfl, hall⟩ := breachedSince_eq_some ht
    exact ⟨he, before, first, since, rfl, hlong, hall⟩

end Breach

/-! ## What the key says -/

/-- The key holds the time at which the breach began, and expires four hours
after it. -/
def Tracks (redis : AlertStore) (past : List Evaluation) : Prop :=
  redis.lookup .waitP90Breach =
    (breachedSince past).map fun t => ⟨toString t, some (t + WAIT_P90_SUSTAIN_MS * 2)⟩

namespace Tracks

variable {redis : AlertStore} {past : List Evaluation} {e : Evaluation} {t : Nat}

theorem get_none (h : Tracks redis past) (hs : breachedSince past = none) (now : Nat) :
    redis.get now .waitP90Breach = none := by
  unfold Tracks at h
  simp [Keyspace.get, Keyspace.entry, h, hs]

theorem get_some (h : Tracks redis past) (hs : breachedSince past = some t) {now : Nat}
    (hlt : now < t + WAIT_P90_SUSTAIN_MS * 2) :
    redis.get now .waitP90Breach = some (toString t) := by
  unfold Tracks at h
  simp [Keyspace.get, Keyspace.entry, h, hs, Option.filter, Stamped.alive, hlt]

theorem get_expired (h : Tracks redis past) (hs : breachedSince past = some t) {now : Nat}
    (hle : t + WAIT_P90_SUSTAIN_MS * 2 ≤ now) : redis.get now .waitP90Breach = none := by
  unfold Tracks at h
  have hnot : ¬now < t + WAIT_P90_SUSTAIN_MS * 2 := by omega
  simp [Keyspace.get, Keyspace.entry, h, hs, Option.filter, Stamped.alive, hnot]

/-- One evaluation keeps the key right, unless it comes after the key has
expired. -/
theorem step (h : Tracks redis past)
    (hshort : e.Breaches → ∀ t, breachedSince past = some t →
      e.nowMs < t + WAIT_P90_SUSTAIN_MS * 2) :
    Tracks (isSustainedWaitBreach redis e.nowMs e.waitP90Seconds).2 (past ++ [e]) := by
  by_cases he : e.Breaches
  · cases hs : breachedSince past with
    | none =>
        rw [isSustainedWaitBreach_begins he (h.get_none hs _)]
        simp [Tracks, breachedSince_append, he, hs, Keyspace.set]
    | some t =>
        rw [isSustainedWaitBreach_continues he (h.get_some hs (hshort he t hs))]
        unfold Tracks at h ⊢
        simp [breachedSince_append, he, hs, h]
  · rw [isSustainedWaitBreach_quiet he]
    simp [Tracks, breachedSince_append, he]

/-- While the key is there, what is reported is that the breach has gone on
for two hours. -/
theorem detects_iff (h : Tracks (storeAfter past) past)
    (hshort : e.Breaches → ∀ t, breachedSince past = some t →
      e.nowMs < t + WAIT_P90_SUSTAIN_MS * 2) :
    detects past e = true ↔
      e.Breaches ∧ ∃ t, breachedSince past = some t ∧ t + WAIT_P90_SUSTAIN_MS ≤ e.nowMs := by
  unfold detects
  by_cases he : e.Breaches
  · cases hs : breachedSince past with
    | none =>
        rw [isSustainedWaitBreach_begins he (h.get_none hs _)]
        simp
    | some t =>
        rw [isSustainedWaitBreach_continues he (h.get_some hs (hshort he t hs))]
        simp [he]
  · rw [isSustainedWaitBreach_quiet he]
    simp [he]

/-- A breach whose key has expired is taken for a new one. -/
theorem detects_expired (h : Tracks (storeAfter past) past) (he : e.Breaches)
    (hs : breachedSince past = some t) (hle : t + WAIT_P90_SUSTAIN_MS * 2 ≤ e.nowMs) :
    detects past e = false := by
  unfold detects
  rw [isSustainedWaitBreach_begins he (h.get_expired hs hle)]

end Tracks

/-! ## Runs -/

section Runs

variable {es past : List Evaluation} {e : Evaluation}

theorem ShortBreaches.of_prefix (h : ShortBreaches es) (hp : past <+: es) : ShortBreaches past :=
  fun before first since e hpre => h before first since e (hpre.trans hp)

/-- The condition, for the breach that is going on. -/
theorem ShortBreaches.since_lt (h : ShortBreaches es) (hp : past ++ [e] <+: es)
    (he : e.Breaches) (t : Nat) (hs : breachedSince past = some t) :
    e.nowMs < t + WAIT_P90_SUSTAIN_MS * 2 := by
  obtain ⟨before, first, since, rfl, rfl, hall⟩ := breachedSince_eq_some hs
  exact h before first since e hp hall he

theorem storeAfter_append (past : List Evaluation) (e : Evaluation) :
    storeAfter (past ++ [e]) =
      (isSustainedWaitBreach (storeAfter past) e.nowMs e.waitP90Seconds).2 := by
  simp [storeAfter]

theorem tracks_storeAfter (h : ShortBreaches past) : Tracks (storeAfter past) past := by
  induction past using List.reverseRecOn with
  | nil => rfl
  | append_singleton past e ih =>
      rw [storeAfter_append]
      exact (ih (h.of_prefix (List.prefix_append ..))).step (h.since_lt (List.prefix_rfl))

/-- The first evaluation after a key has expired is answered wrongly. -/
theorem shortBreaches_of_detectsSustained (hord : Ordered es) (h : DetectsSustained es) :
    ShortBreaches es := by
  suffices hall : ∀ p, p <+: es → ShortBreaches p from hall es List.prefix_rfl
  intro p
  induction p using List.reverseRecOn with
  | nil =>
      intro _ before first since e hpre
      simp at hpre
  | append_singleton p e ih =>
      intro hp before first since e' hpre hall he
      have hpes : p <+: es := (List.prefix_append p [e]).trans hp
      rcases List.prefix_concat_iff.mp hpre with heq | hpre
      · obtain ⟨rfl, ⟨rfl⟩⟩ := List.append_inj' heq rfl
        have hordp : Ordered (before ++ first :: since) := List.Pairwise.sublist hpes.sublist hord
        obtain ⟨t, ht, hle⟩ := breachedSince_le hordp hall
        refine Nat.lt_of_not_le fun hlong => ?_
        have hfalse : detects (before ++ first :: since) e = false :=
          (tracks_storeAfter (ih hpes)).detects_expired he ht (by omega)
        have htrue : detects (before ++ first :: since) e = true :=
          (h _ e hp).mpr ⟨he, before, first, since, rfl, by omega, hall⟩
        rw [hfalse] at htrue
        cases htrue
      · exact ih hpes before first since e' hpre hall he

theorem detectsSustained_of_shortBreaches (hord : Ordered es) (h : ShortBreaches es) :
    DetectsSustained es := by
  intro past e hp
  have hpast : past <+: es := (List.prefix_append past [e]).trans hp
  have htracks : Tracks (storeAfter past) past := tracks_storeAfter (h.of_prefix hpast)
  rw [htracks.detects_iff (h.since_lt hp),
    sustained_iff (List.Pairwise.sublist hpast.sublist hord)]

/-- A sustained breach is reported for as long as it lasts if and only if no
breach outlasts the key. -/
theorem detectsSustained_iff (hord : Ordered es) : DetectsSustained es ↔ ShortBreaches es :=
  ⟨shortBreaches_of_detectsSustained hord, detectsSustained_of_shortBreaches hord⟩

/-- A breach of two hours, evaluated twice. -/
theorem detectsSustained_iff_twoHours :
    Ordered [⟨0, some 200⟩, ⟨WAIT_P90_SUSTAIN_MS, some 200⟩] ∧
      (DetectsSustained [⟨0, some 200⟩, ⟨WAIT_P90_SUSTAIN_MS, some 200⟩] ↔
        ShortBreaches [⟨0, some 200⟩, ⟨WAIT_P90_SUSTAIN_MS, some 200⟩]) :=
  ⟨by decide, detectsSustained_iff (by decide)⟩

/-- Consecutive evaluations are at most five minutes apart. -/
def EveryFiveMinutes (es : List Evaluation) : Prop :=
  es.IsChain fun x y => y.nowMs ≤ x.nowMs + 5 * 60 * 1000

instance (es : List Evaluation) : Decidable (EveryFiveMinutes es) := by
  unfold EveryFiveMinutes
  infer_instance

/-- The wait is too long for four hours: the evaluation at the end of the
fourth finds no key. -/
theorem breach_of_four_hours_missed :
    ¬∀ es : List Evaluation, Ordered es → EveryFiveMinutes es → DetectsSustained es := by
  intro h
  let es : List Evaluation := (List.range 49).map fun n => ⟨n * 300000, some 200⟩
  have hord : Ordered es := by decide +kernel
  have hshort := shortBreaches_of_detectsSustained hord (h es hord (by decide +kernel))
  have hbreaches : ∀ x ∈ es, x.Breaches := by decide +kernel
  have hlt := hshort [] ⟨0, some 200⟩ (es.tail.dropLast) ⟨48 * 300000, some 200⟩
    (by decide +kernel) (by decide +kernel) (by decide +kernel)
  exact absurd hlt (by decide)

end Runs

end VerityBackend.Telemetry
