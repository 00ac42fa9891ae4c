/-
VerityBackend.Store.Keyspace — keys with values and optional expiry times.

A key is seen by a reader until its expiry time and never after it. `get`
compares the stored expiry with the reader's clock, so nothing has to
happen for a key to disappear. `Survives` says that no key disappears
between two times; under it a reader cannot tell the two times apart
(`get_of_survives`).
-/
import Mathlib.Data.List.Dedup

namespace VerityBackend.Store

/-- A stored value and the time at which it stops being visible. -/
structure Stamped (V : Type) where
  val : V
  expiresAt : Option Nat
  deriving DecidableEq, Repr

def Stamped.alive {V : Type} (e : Stamped V) (now : Nat) : Bool :=
  match e.expiresAt with
  | none => true
  | some t => now < t

/-- Keys with their entries; the first entry of a key counts. -/
abbrev Keyspace (K V : Type) := List (K × Stamped V)

namespace Keyspace

variable {K V : Type} [DecidableEq K]

def lookup (m : Keyspace K V) (k : K) : Option (Stamped V) :=
  (m.find? (·.1 = k)).map (·.2)

/-- The entry a reader sees at time `now`. -/
def entry (m : Keyspace K V) (now : Nat) (k : K) : Option (Stamped V) :=
  (m.lookup k).filter (·.alive now)

/-- `GET`. -/
def get (m : Keyspace K V) (now : Nat) (k : K) : Option V :=
  (m.entry now k).map (·.val)

/-- `DEL`. -/
def del (m : Keyspace K V) (k : K) : Keyspace K V := m.filter (·.1 ≠ k)

/-- Store an entry, replacing what was there. -/
def put (m : Keyspace K V) (k : K) (e : Stamped V) : Keyspace K V := (k, e) :: m.del k

/-- `SET`, with `PX ttl` when a time to live is given. -/
def set (m : Keyspace K V) (now : Nat) (k : K) (v : V) (ttl : Option Nat) : Keyspace K V :=
  m.put k ⟨v, ttl.map (now + ·)⟩

/-- The keys visible at time `now`: what a full `SCAN` returns. -/
def keys (m : Keyspace K V) (now : Nat) : List K :=
  (m.map (·.1)).dedup.filter (fun k => (m.entry now k).isSome)

/-- Every key visible at `t` is still visible at `t'`. -/
def Survives (m : Keyspace K V) (t t' : Nat) : Prop :=
  ∀ k, (m.entry t k).isSome → (m.entry t' k).isSome

theorem get_eq_some {m : Keyspace K V} {now : Nat} {k : K} {v : V} :
    m.get now k = some v ↔ ∃ e, m.entry now k = some e ∧ e.val = v := by
  simp [get]

theorem mem_keys {m : Keyspace K V} {now : Nat} {k : K} :
    k ∈ m.keys now ↔ (m.get now k).isSome := by
  simp only [keys, List.mem_filter, List.mem_dedup, get, Option.isSome_map, and_iff_right_iff_imp]
  intro h
  obtain ⟨e, he⟩ := Option.isSome_iff_exists.mp h
  simp only [entry, Option.filter_eq_some_iff, lookup, Option.map_eq_some_iff] at he
  obtain ⟨⟨p, hp, -⟩, -⟩ := he
  have hk : p.1 = k := by simpa using List.find?_some hp
  exact List.mem_map.mpr ⟨p, List.mem_of_find?_eq_some hp, hk⟩

theorem keys_nodup (m : Keyspace K V) (now : Nat) : (m.keys now).Nodup :=
  (List.nodup_dedup _).filter _

@[simp] theorem lookup_del_self (m : Keyspace K V) (k : K) : (m.del k).lookup k = none := by
  simp [lookup, del]

theorem lookup_del_ne (m : Keyspace K V) {k k' : K} (h : k' ≠ k) :
    (m.del k).lookup k' = m.lookup k' := by
  unfold lookup del
  rw [List.find?_filter]
  congr 2
  funext p
  by_cases hp : p.1 = k' <;> simp [hp, h]

@[simp] theorem lookup_put_self (m : Keyspace K V) (k : K) (e : Stamped V) :
    (m.put k e).lookup k = some e := by
  simp [lookup, put]

theorem lookup_put_ne (m : Keyspace K V) {k k' : K} (e : Stamped V) (h : k' ≠ k) :
    (m.put k e).lookup k' = m.lookup k' := by
  rw [← lookup_del_ne m h]
  simp [lookup, put, Ne.symm h]

/-- A value just set with a positive time to live is visible. -/
theorem get_set_self (m : Keyspace K V) (now : Nat) (k : K) (v : V) {ttl : Option Nat}
    (h : ∀ t ∈ ttl, 0 < t) : (m.set now k v ttl).get now k = some v := by
  have halive : (⟨v, ttl.map (now + ·)⟩ : Stamped V).alive now = true := by
    cases ttl with
    | none => rfl
    | some t => simpa [Stamped.alive] using h t rfl
  simp [get, entry, set, Option.filter, halive]

/-- Nothing but the value just set is seen under its key. -/
theorem eq_of_get_set {m : Keyspace K V} {now now' : Nat} {k : K} {v r : V} {ttl : Option Nat}
    (h : (m.set now k v ttl).get now' k = some r) : r = v := by
  obtain ⟨e, he, rfl⟩ := get_eq_some.mp h
  simp only [entry, set, lookup_put_self, Option.filter_eq_some_iff, Option.some.injEq] at he
  rw [← he.1]

theorem get_set_ne (m : Keyspace K V) (now now' : Nat) {k k' : K} (v : V) (ttl : Option Nat)
    (h : k' ≠ k) : (m.set now' k v ttl).get now k' = m.get now k' := by
  simp [get, set, entry, lookup_put_ne _ _ h]

@[simp] theorem get_del_self (m : Keyspace K V) (now : Nat) (k : K) :
    (m.del k).get now k = none := by
  simp [get, entry]

theorem get_del_ne (m : Keyspace K V) (now : Nat) {k k' : K} (h : k' ≠ k) :
    (m.del k).get now k' = m.get now k' := by
  simp [get, entry, lookup_del_ne _ h]

/-- An entry that has not expired is visible once it is stored. -/
theorem entry_put_self (m : Keyspace K V) (now : Nat) (k : K) {e : Stamped V}
    (h : e.alive now = true) : (m.put k e).entry now k = some e := by
  unfold entry
  rw [lookup_put_self, Option.filter_some, if_pos h]

theorem entry_put_ne (m : Keyspace K V) (now : Nat) {k k' : K} (e : Stamped V) (h : k' ≠ k) :
    (m.put k e).entry now k' = m.entry now k' := by
  unfold entry
  rw [lookup_put_ne m e h]

theorem alive_of_entry {m : Keyspace K V} {now : Nat} {k : K} {e : Stamped V}
    (h : m.entry now k = some e) : e.alive now = true := by
  unfold entry at h
  rw [Option.filter_eq_some_iff] at h
  exact h.2

/-- Only a key that is visible has to survive. -/
theorem survives_iff {m : Keyspace K V} {t t' : Nat} :
    m.Survives t t' ↔ ∀ k ∈ m.keys t, (m.entry t' k).isSome := by
  unfold Survives
  constructor
  · intro h k hk
    have hget := mem_keys.mp hk
    unfold get at hget
    rw [Option.isSome_map] at hget
    exact h k hget
  · intro h k hk
    refine h k (mem_keys.mpr ?_)
    unfold get
    rw [Option.isSome_map]
    exact hk

instance (m : Keyspace K V) (t t' : Nat) : Decidable (m.Survives t t') :=
  decidable_of_iff _ survives_iff.symm

/-- Time only hides entries: what is visible later was visible before. -/
theorem entry_antitone {m : Keyspace K V} {t t' : Nat} (h : t ≤ t') {k : K} {e : Stamped V}
    (he : m.entry t' k = some e) : m.entry t k = some e := by
  simp only [entry, Option.filter_eq_some_iff] at he ⊢
  refine ⟨he.1, ?_⟩
  have halive := he.2
  revert halive
  cases hx : e.expiresAt with
  | none => simp [Stamped.alive, hx]
  | some x =>
      simp only [Stamped.alive, hx, decide_eq_true_eq]
      omega

/-- Between two times at which no key disappears, no reader can tell the
difference. -/
theorem get_of_survives {m : Keyspace K V} {t t' : Nat} (hle : t ≤ t') (hs : m.Survives t t')
    (k : K) : m.get t' k = m.get t k := by
  unfold get
  cases h : m.entry t' k with
  | some e => rw [entry_antitone hle h]
  | none =>
      cases h0 : m.entry t k with
      | none => rfl
      | some e =>
          have := hs k (by simp [h0])
          simp [h] at this

end Keyspace

end VerityBackend.Store
