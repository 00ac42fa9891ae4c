/-
VerityBackend.Analytics.Properties — does `parseProperties` lose or leak
anything?

The keys are trimmed before they are set on a plain object. Two keys that
differ by white space become one, and the key `__proto__` reaches the setter
of the prototype instead of a property. `parseProperties_faithful_iff` says
that nothing else is lost: every other object is refused, or returned entry
by entry.
-/
import Mathlib.Data.List.Forall2
import Mathlib.Data.List.Nodup
import VerityBackend.Analytics.Events

namespace VerityBackend.Analytics

/-! ## What is accepted -/

/-- The value as it stands in a JSON body. -/
def AnalyticsPrimitive.json : AnalyticsPrimitive → JsonValue
  | .str s => .str s
  | .num x => .num x
  | .bool b => .bool b
  | .null => .null

/-- A trimmed key that is kept. -/
structure AllowedKey (key : String) : Prop where
  nonempty : key ≠ ""
  length : jsLength key ≤ 64
  pattern : KEY_PATTERN key = true
  notBlocked : jsLowerCase key ∉ BLOCKED_PROPERTY_KEYS

def FittingString : JsonValue → Prop
  | .str s => jsLength s ≤ MAX_STRING_LENGTH
  | _ => True

/-- The property that an entry of a body becomes. -/
structure Accepts (entry : String × JsonValue) (property : String × AnalyticsPrimitive) : Prop where
  key : property.1 = jsTrim entry.1
  value : property.2.json = entry.2
  allowed : AllowedKey property.1
  fits : FittingString entry.2

/-- The entries of an object that is not refused. -/
structure Acceptable (entries : List (String × JsonValue)) : Prop where
  count : entries.length ≤ MAX_PROPERTY_COUNT
  entry : ∀ e ∈ entries, ∃ p, Accepts e p

theorem AnalyticsPrimitive.json_finite (a : AnalyticsPrimitive) :
    a.json ≠ .infinity ∧ a.json ≠ .composite := by
  cases a <;> exact ⟨nofun, nofun⟩

section Entries

variable (eventName rawKey : String) (rawValue : JsonValue) (output : AnalyticsObject)

theorem allowedKey_iff {key : String} :
    AllowedKey key ↔ ¬(key = "" ∨ jsLength key > 64 ∨ KEY_PATTERN key = false) ∧
      ¬BLOCKED_PROPERTY_KEYS.contains (jsLowerCase key) = true := by
  rw [List.contains_iff_mem]
  constructor
  · rintro ⟨hne, hlength, hpattern, hblocked⟩
    exact ⟨by simp [hne, hpattern, hlength], hblocked⟩
  · rintro ⟨h, hblocked⟩
    simp only [not_or, Bool.not_eq_false, Nat.not_lt, gt_iff_lt] at h
    exact ⟨h.1, h.2.1, h.2.2, hblocked⟩

/-- One turn sets the property, or refuses the event. -/
theorem parseProperty_spec :
    (∃ p, Accepts (rawKey, rawValue) p ∧
      parseProperty eventName output rawKey rawValue = .ok (setProperty output p.1 p.2)) ∨
    ((∀ p, ¬Accepts (rawKey, rawValue) p) ∧ ∃ reason message,
      parseProperty eventName output rawKey rawValue = .error (.dropped eventName reason message)) := by
  by_cases hallowed : AllowedKey (jsTrim rawKey)
  · obtain ⟨hkey, hblocked⟩ := allowedKey_iff.mp hallowed
    unfold parseProperty
    simp only [if_neg hkey, if_neg hblocked]
    have hset {v : AnalyticsPrimitive} (hv : v.json = rawValue) (hfits : FittingString rawValue) :
        Accepts (rawKey, rawValue) (jsTrim rawKey, v) := ⟨rfl, hv, hallowed, hfits⟩
    cases rawValue with
    | null => exact .inl ⟨(_, .null), hset rfl trivial, rfl⟩
    | bool b => exact .inl ⟨(_, .bool b), hset rfl trivial, rfl⟩
    | num x => exact .inl ⟨(_, .num x), hset rfl trivial, rfl⟩
    | infinity => exact .inr ⟨fun p hp => p.2.json_finite.1 hp.value, _, _, rfl⟩
    | composite => exact .inr ⟨fun p hp => p.2.json_finite.2 hp.value, _, _, rfl⟩
    | str s =>
        dsimp only
        by_cases hlong : jsLength s > MAX_STRING_LENGTH
        · rw [if_pos hlong]
          exact .inr ⟨fun p hp => Nat.not_le.mpr hlong hp.fits, _, _, rfl⟩
        · rw [if_neg hlong]
          exact .inl ⟨(_, .str s), hset rfl (Nat.not_lt.mp hlong), rfl⟩
  · refine .inr ⟨fun p hp => hallowed (hp.key ▸ hp.allowed), ?_⟩
    unfold parseProperty
    dsimp only
    split
    · exact ⟨_, _, rfl⟩
    · next hkey =>
        split
        · exact ⟨_, _, rfl⟩
        · next hblocked => exact absurd (allowedKey_iff.mpr ⟨hkey, hblocked⟩) hallowed

/-- The object after these properties have been set, one by one. -/
def setProperties (output : AnalyticsObject) (ps : List (String × AnalyticsPrimitive)) :
    AnalyticsObject :=
  ps.foldl (fun output p => setProperty output p.1 p.2) output

/-- The loop sets the properties of all entries, or refuses the event. -/
theorem parseLoop_spec (entries : List (String × JsonValue)) :
    ((∀ e ∈ entries, ∃ p, Accepts e p) ∧ ∃ ps, List.Forall₂ Accepts entries ps ∧
      entries.foldlM (fun output p => parseProperty eventName output p.1 p.2) output =
        .ok (setProperties output ps)) ∨
    ((∃ e ∈ entries, ∀ p, ¬Accepts e p) ∧ ∃ reason message,
      entries.foldlM (fun output p => parseProperty eventName output p.1 p.2) output =
        .error (.dropped eventName reason message)) := by
  induction entries generalizing output with
  | nil => exact .inl ⟨nofun, [], .nil, rfl⟩
  | cons e entries ih =>
      rw [List.foldlM_cons]
      rcases parseProperty_spec eventName e.1 e.2 output with ⟨p, hp, hok⟩ | ⟨hno, reason, message, herror⟩
      · rw [hok]
        rcases ih (setProperty output p.1 p.2) with ⟨hall, ps, hps, hrun⟩ | ⟨⟨x, hx, hnot⟩, hrun⟩
        · exact .inl ⟨List.forall_mem_cons.mpr ⟨⟨p, hp⟩, hall⟩, p :: ps, .cons hp hps, hrun⟩
        · exact .inr ⟨⟨x, .tail _ hx, hnot⟩, hrun⟩
      · rw [herror]
        exact .inr ⟨⟨e, .head _, hno⟩, reason, message, rfl⟩

end Entries

/-- **Every object is refused, or its properties are set one by one.** -/
theorem parseProperties_spec (entries : List (String × JsonValue)) (eventName : String) :
    (Acceptable entries ∧ ∃ ps, List.Forall₂ Accepts entries ps ∧
      parseProperties (some (.object entries)) eventName = .ok (setProperties .empty ps).own) ∨
    (¬Acceptable entries ∧ ∃ reason message,
      parseProperties (some (.object entries)) eventName =
        .error (.dropped eventName reason message)) := by
  unfold parseProperties
  by_cases hcount : entries.length > MAX_PROPERTY_COUNT
  · simp only [if_pos hcount]
    exact .inr ⟨fun h => absurd h.count (Nat.not_le.mpr hcount), _, _, rfl⟩
  · simp only [if_neg hcount]
    rcases parseLoop_spec eventName AnalyticsObject.empty entries with
      ⟨hall, ps, hps, hrun⟩ | ⟨⟨e, he, hnot⟩, reason, message, hrun⟩
    · rw [hrun]
      exact .inl ⟨⟨Nat.not_lt.mp hcount, hall⟩, ps, hps, rfl⟩
    · rw [hrun]
      refine .inr ⟨fun h => ?_, reason, message, rfl⟩
      obtain ⟨p, hp⟩ := h.entry e he
      exact hnot p hp

theorem parseProperties_ok_iff {entries : List (String × JsonValue)} {eventName : String} :
    (∃ properties, parseProperties (some (.object entries)) eventName = .ok properties) ↔
      Acceptable entries := by
  rcases parseProperties_spec entries eventName with ⟨h, ps, -, hok⟩ | ⟨h, reason, message, herror⟩
  · exact ⟨fun _ => h, fun _ => ⟨_, hok⟩⟩
  · constructor
    · rintro ⟨properties, hok⟩
      rw [herror] at hok
      cases hok
    · exact fun hall => absurd hall h

/-! ## What is set -/

section Set

variable (output : AnalyticsObject) {key : String} (value : AnalyticsPrimitive)
  {ps : List (String × AnalyticsPrimitive)}

theorem setProperty_new {output : AnalyticsObject} (hkey : key ≠ "__proto__") (hnew : key ∉ output.own.map (·.1)) :
    setProperty output key value = { output with own := output.own ++ [(key, value)] } := by
  have hnone : ¬(output.own.lookup key).isSome = true := by
    intro h
    obtain ⟨p, hp, hkey⟩ := List.lookup_isSome_iff.mp h
    exact hnew (List.mem_map.mpr ⟨p, hp, (eq_of_beq hkey).symm⟩)
  unfold setProperty
  rw [if_neg fun h => hkey h.1, if_neg hnone]

/-- A property that has been set is there. -/
theorem lookup_setProperty_self (hkey : key ≠ "__proto__") :
    (setProperty output key value).own.lookup key = some value := by
  unfold setProperty
  rw [if_neg fun h => hkey h.1]
  split
  · next hsome =>
      obtain ⟨own, hasPrototype⟩ := output
      dsimp only at hsome ⊢
      clear hkey
      induction own with
      | nil => cases hsome
      | cons p own ih =>
          obtain ⟨k, v⟩ := p
          by_cases hk : k = key
          · subst hk
            simp
          · rw [List.lookup_cons, beq_false_of_ne (Ne.symm hk)] at hsome
            simpa [hk, List.lookup_cons, beq_false_of_ne (Ne.symm hk)] using ih hsome
  · next hnone =>
      have hno : output.own.lookup key = none := Option.not_isSome_iff_eq_none.mp hnone
      rw [List.lookup_append, hno]
      simp

/-- What setting one property does: nothing to the properties, or one of them
is replaced, or one is added. -/
theorem setProperty_cases (key : String) :
    ((setProperty output key value).own = output.own) ∨
    ((setProperty output key value).own =
      output.own.map fun p => if p.1 = key then (key, value) else p) ∨
    (key ∉ output.own.map (·.1) ∧ (setProperty output key value).own = output.own ++ [(key, value)]) := by
  unfold setProperty
  split
  · split <;> exact .inl rfl
  · split
    · exact .inr (.inl rfl)
    · next hnone =>
        refine .inr (.inr ⟨fun hmem => hnone ?_, rfl⟩)
        obtain ⟨p, hp, rfl⟩ := List.mem_map.mp hmem
        exact (List.lookup_isSome_iff.mpr ⟨p, hp, beq_self_eq_true _⟩)

/-- An object has one value for a key. -/
theorem nodup_setProperty {output : AnalyticsObject} (h : (output.own.map (·.1)).Nodup) :
    ((setProperty output key value).own.map (·.1)).Nodup := by
  rcases setProperty_cases output value key with hset | hset | ⟨hnew, hset⟩
  · rw [hset]
    exact h
  · have hkeys : (fun p : String × AnalyticsPrimitive => (if p.1 = key then (key, value) else p).1) =
        fun p => p.1 := by
      funext p
      split
      · next hp => exact hp.symm
      · rfl
    rw [hset, List.map_map]
    exact (congrArg (fun f => (output.own.map f).Nodup) hkeys).mpr h
  · rw [hset, List.map_append, List.nodup_append]
    refine ⟨h, List.nodup_singleton _, fun k hk k' hk' heq => ?_⟩
    rw [List.map_singleton, List.mem_singleton] at hk'
    rw [heq, hk'] at hk
    exact hnew hk

theorem length_setProperty (key : String) : (setProperty output key value).own.length ≤ output.own.length + 1 := by
  rcases setProperty_cases output value key with h | h | ⟨-, h⟩ <;>
    rw [h] <;> simp

/-! ## The whole loop -/

theorem nodup_setProperties {output : AnalyticsObject} (ps : List (String × AnalyticsPrimitive))
    (h : (output.own.map (·.1)).Nodup) :
    ((setProperties output ps).own.map (·.1)).Nodup := by
  induction ps generalizing output with
  | nil => exact h
  | cons q ps ih => exact ih (nodup_setProperty q.2 h)

theorem length_setProperties (ps : List (String × AnalyticsPrimitive)) : (setProperties output ps).own.length ≤ output.own.length + ps.length := by
  induction ps generalizing output with
  | nil => exact Nat.le_refl _
  | cons q ps ih =>
      have hstep := length_setProperty output q.2 q.1
      have hrest := ih (setProperty output q.1 q.2)
      rw [List.length_cons]
      change (setProperties (setProperty output q.1 q.2) ps).own.length ≤ _
      omega

/-- Distinct keys are set one after the other. -/
theorem setProperties_new {output : AnalyticsObject} (hkeys : ((output.own ++ ps).map (·.1)).Nodup)
    (hproto : "__proto__" ∉ ps.map (·.1)) : (setProperties output ps).own = output.own ++ ps := by
  induction ps generalizing output with
  | nil => exact (List.append_nil _).symm
  | cons q ps ih =>
      rw [List.map_cons, List.mem_cons, not_or] at hproto
      have hnew : q.1 ∉ output.own.map (·.1) := by
        intro hmem
        rw [List.map_append, List.nodup_append] at hkeys
        exact hkeys.2.2 q.1 hmem q.1 (List.mem_map_of_mem (.head _)) rfl
      have hset := setProperty_new q.2 (Ne.symm hproto.1) hnew
      change (setProperties (setProperty output q.1 q.2) ps).own = _
      rw [hset, ih (by simpa using hkeys) hproto.2, List.append_assoc]
      rfl

/-- The first `__proto__` meets the setter, and no property comes of it. -/
theorem setProperties_proto {output : AnalyticsObject} (hhas : output.hasPrototype = true) (hproto : "__proto__" ∈ ps.map (·.1)) :
    (setProperties output ps).own.length < output.own.length + ps.length := by
  induction ps generalizing output with
  | nil => cases hproto
  | cons q ps ih =>
      change (setProperties (setProperty output q.1 q.2) ps).own.length < _
      rw [List.length_cons]
      by_cases hq : q.1 = "__proto__"
      · have hown : (setProperty output q.1 q.2).own = output.own := by
          unfold setProperty
          rw [if_pos ⟨hq, hhas⟩]
          split <;> rfl
        have hrest := length_setProperties (setProperty output q.1 q.2) ps
        rw [hown] at hrest
        omega
      · have hhas' : (setProperty output q.1 q.2).hasPrototype = true := by
          unfold setProperty
          rw [if_neg fun h => hq h.1]
          split <;> exact hhas
        have hrest := ih hhas' ((List.mem_cons.mp hproto).resolve_left (Ne.symm hq))
        have hstep := length_setProperty output q.2 q.1
        omega

end Set

/-! ## Nothing lost, nothing leaked -/

/-- One property for each entry, under its trimmed key and with its value. -/
def Faithful (entries : List (String × JsonValue)) (properties : AnalyticsProperties) : Prop :=
  (properties.map fun p => (p.1, p.2.json)).Perm (entries.map fun e => (jsTrim e.1, e.2))

/-- No blocked key in any case, no number that is not finite, no nested value
and no long string. -/
structure Clean (properties : AnalyticsProperties) : Prop where
  key : ∀ p ∈ properties, ∀ blocked ∈ BLOCKED_PROPERTY_KEYS, jsLowerCase p.1 ≠ jsLowerCase blocked
  value : ∀ p ∈ properties, p.2.json ≠ .infinity ∧ p.2.json ≠ .composite
  string : ∀ p ∈ properties, ∀ s, p.2.json = .str s → jsLength s ≤ 200

/-- The object is refused with a `BadRequestException`, or returned whole and
clean. -/
def Kept (entries : List (String × JsonValue)) : Except Refusal AnalyticsProperties → Prop
  | .ok properties => Faithful entries properties ∧ Clean properties
  | .error refusal => ∃ eventName reason message, refusal = .dropped eventName reason message

theorem clean_of_accepts {entries : List (String × JsonValue)} {ps : List (String × AnalyticsPrimitive)}
    (hps : List.Forall₂ Accepts entries ps) : Clean ps := by
  have hall : ∀ p ∈ ps, ∃ e, Accepts e p := by
    induction hps with
    | nil => nofun
    | cons hp _ ih => exact List.forall_mem_cons.mpr ⟨⟨_, hp⟩, ih⟩
  have hlower : ∀ blocked ∈ BLOCKED_PROPERTY_KEYS, jsLowerCase blocked = blocked := by decide +kernel
  refine ⟨fun p hp blocked hblocked heq => ?_, fun p _ => p.2.json_finite, fun p hp s hs => ?_⟩
  · obtain ⟨e, he⟩ := hall p hp
    rw [hlower blocked hblocked] at heq
    exact he.allowed.notBlocked (heq ▸ hblocked)
  · obtain ⟨e, he⟩ := hall p hp
    have hfits := he.fits
    rw [← he.value, hs] at hfits
    exact hfits

theorem map_json_of_accepts {entries : List (String × JsonValue)}
    {ps : List (String × AnalyticsPrimitive)} (hps : List.Forall₂ Accepts entries ps) :
    (ps.map fun p => (p.1, p.2.json)) = entries.map fun e => (jsTrim e.1, e.2) := by
  induction hps with
  | nil => rfl
  | cons hp _ ih => rw [List.map_cons, List.map_cons, ih, hp.key, hp.value]

theorem lookup_map_json (ps : List (String × AnalyticsPrimitive)) (key : String) :
    (ps.map fun p => (p.1, p.2.json)).lookup key = (ps.lookup key).map AnalyticsPrimitive.json := by
  induction ps with
  | nil => rfl
  | cons p ps ih =>
      rw [List.map_cons, List.lookup_cons, List.lookup_cons]
      cases key == p.1 <;> simp [ih]

/-- A property under a key of its own is kept as it is. -/
theorem lookup_parseProperties {entries : List (String × JsonValue)} {eventName : String}
    {properties : AnalyticsProperties}
    (hok : parseProperties (some (.object entries)) eventName = .ok properties)
    (hnodup : (entries.map fun e => jsTrim e.1).Nodup)
    (hproto : "__proto__" ∉ entries.map fun e => jsTrim e.1) (key : String) :
    (properties.lookup key).map AnalyticsPrimitive.json =
      (entries.map fun e => (jsTrim e.1, e.2)).lookup key := by
  rcases parseProperties_spec entries eventName with ⟨-, ps, hps, hrun⟩ | ⟨-, reason, message, hrun⟩
  · have hjson := map_json_of_accepts hps
    have hkeys : ps.map (·.1) = entries.map fun e => jsTrim e.1 := by
      simpa [List.map_map, Function.comp_def] using congrArg (List.map (·.1)) hjson
    have hset : (setProperties .empty ps).own = ps :=
      setProperties_new (by rwa [← hkeys] at hnodup) (by rwa [← hkeys] at hproto)
    rw [hrun, hset] at hok
    obtain rfl := Except.ok.inj hok
    rw [← hjson, lookup_map_json]
  · rw [hrun] at hok
    cases hok

/-- **When `parseProperties` loses nothing.** It refuses the object, or returns
a property for each of its entries and nothing that is not allowed, exactly if
an object it accepts has no two keys that are one when trimmed, and none that
is `__proto__` then. -/
theorem parseProperties_faithful_iff (entries : List (String × JsonValue)) (eventName : String) :
    Kept entries (parseProperties (some (.object entries)) eventName) ↔
      (Acceptable entries →
        (entries.map fun e => jsTrim e.1).Nodup ∧ "__proto__" ∉ entries.map fun e => jsTrim e.1) := by
  rcases parseProperties_spec entries eventName with ⟨hall, ps, hps, hrun⟩ | ⟨hnot, reason, message, hrun⟩
  · have hjson := map_json_of_accepts hps
    have hkeys : ps.map (·.1) = entries.map fun e => jsTrim e.1 := by
      simpa [List.map_map, Function.comp_def] using congrArg (List.map (·.1)) hjson
    rw [hrun, ← hkeys]
    constructor
    · rintro ⟨hfaithful, -⟩ -
      rw [Faithful, ← hjson] at hfaithful
      constructor
      · have hnodup : ((setProperties .empty ps).own.map (·.1)).Nodup :=
          nodup_setProperties ps List.nodup_nil
        have hperm := hfaithful.map (·.1)
        rw [List.map_map, List.map_map] at hperm
        exact hperm.nodup_iff.mp hnodup
      · intro hproto
        have hshort : (setProperties .empty ps).own.length < _ := setProperties_proto rfl hproto
        have hlength := hfaithful.length_eq
        rw [List.length_map, List.length_map] at hlength
        exact absurd hlength (by simpa [AnalyticsObject.empty] using (Nat.ne_of_lt hshort))
    · intro h
      obtain ⟨hnodup, hproto⟩ := h hall
      have hset : (setProperties .empty ps).own = ps := setProperties_new hnodup hproto
      rw [hset]
      exact ⟨.of_eq hjson, clean_of_accepts hps⟩
  · rw [hrun]
    exact ⟨fun _ h => absurd h hnot, fun _ => ⟨_, _, _, rfl⟩⟩

/-- `{"a": 1, " a": 2}`. -/
def spacedKeys : List (String × JsonValue) := [("a", .num 1), (" a", .num 2)]

/-- The second value replaces the first. -/
theorem not_kept_spacedKeys : ¬∀ entries eventName,
    Kept entries (parseProperties (some (.object entries)) eventName) := by
  intro hall
  have hrun : parseProperties (some (.object spacedKeys)) "session_started" = .ok [("a", .num 2)] := by
    decide +kernel
  have hkept := hall spacedKeys "session_started"
  rw [hrun] at hkept
  exact absurd hkept.1.length_eq (by decide)

end VerityBackend.Analytics
