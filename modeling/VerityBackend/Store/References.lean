/-
VerityBackend.Store.References — tables whose rows refer to each other.

A row has a key and, in its columns, keys of rows of other tables. A schema
lists the relations, each with what becomes of a row when the row it refers
to is deleted: it is deleted as well, its reference becomes null, or nothing
may be deleted at all. `deleteMany` deletes with a row everything that
refers to it through `cascade`, however indirectly.

What depends on a row is whatever refers to it through any chain of
relations. Statements that delete nothing else (`Erases`) compose, keep the
references sound, and leave every other row as it is.
-/
import Mathlib.Data.List.Nodup

namespace VerityBackend.Store

inductive OnDelete where
  | cascade
  | setNull
  | restrict
  deriving DecidableEq, Repr

/-- The column of `child` holds keys of `parent`. -/
structure Relation (M C : Type) where
  child : M
  column : C
  parent : M
  onDelete : OnDelete
  deriving DecidableEq, Repr

structure Row (C K D : Type) where
  key : K
  refs : C → Option K
  data : D

/-- The rows of every table; no key occurs twice in a table. -/
structure Tables (M C K D : Type) where
  rows : M → List (Row C K D)
  unique : ∀ m, ((rows m).map (·.key)).Nodup

inductive DeleteError where
  | foreignKey
  | notFound
  deriving DecidableEq, Repr

variable {M C K D : Type}

namespace Tables

/-- Every reference is to a row that exists. -/
def Satisfies (S : List (Relation M C)) (t : Tables M C K D) : Prop :=
  ∀ rel ∈ S, ∀ r ∈ t.rows rel.child, ∀ k, r.refs rel.column = some k →
    ∃ r' ∈ t.rows rel.parent, r'.key = k

instance [DecidableEq K] (S : List (Relation M C)) (t : Tables M C K D) : Decidable (t.Satisfies S) :=
  inferInstanceAs (Decidable (∀ rel ∈ S, ∀ r ∈ t.rows rel.child, ∀ k ∈ r.refs rel.column,
    ∃ r' ∈ t.rows rel.parent, r'.key = k))

theorem eq_of_key {t : Tables M C K D} {m : M} {r r' : Row C K D} (hr : r ∈ t.rows m)
    (hr' : r' ∈ t.rows m) (h : r.key = r'.key) : r = r' :=
  List.inj_on_of_nodup_map (t.unique m) hr hr' h

/-! ## What depends on a row -/

/-- The column of `m` may be set null. -/
def Clearable (S : List (Relation M C)) (m : M) (c : C) : Prop :=
  ∃ rel ∈ S, rel.child = m ∧ rel.column = c ∧ rel.onDelete = .setNull

/-- Rows are missing, or have lost references that may be set null. -/
def Trims (S : List (Relation M C)) (t t' : Tables M C K D) : Prop :=
  ∀ m, ∀ r' ∈ t'.rows m, ∃ r ∈ t.rows m, r'.key = r.key ∧ r'.data = r.data ∧
    ∀ c, r'.refs c = r.refs c ∨ r'.refs c = none ∧ Clearable S m c

/-- The row of `m` with this key is the given one, or refers to it through
any relations. -/
inductive DependsOn (S : List (Relation M C)) (t : Tables M C K D) (m₀ : M) (k₀ : K) : M → K → Prop
  | self : DependsOn S t m₀ k₀ m₀ k₀
  | refers {rel : Relation M C} {r : Row C K D} {k : K} (hrel : rel ∈ S) (hr : r ∈ t.rows rel.child)
      (hrefs : r.refs rel.column = some k) (h : DependsOn S t m₀ k₀ rel.parent k) :
      DependsOn S t m₀ k₀ rel.child r.key

/-- What a statement may do that deletes nothing but what depends on one
row. -/
structure Erases (S : List (Relation M C)) (m₀ : M) (k₀ : K) (t t' : Tables M C K D) : Prop where
  satisfies : t.Satisfies S → t'.Satisfies S
  trims : Trims S t t'
  spares : ∀ m, ∀ r ∈ t.rows m, ¬DependsOn S t m₀ k₀ m r.key → r ∈ t'.rows m

section Dependence

variable {S : List (Relation M C)} {t t' t'' : Tables M C K D} {m₀ m : M} {k₀ k : K}

theorem Trims.trans (h : Trims S t t') (h' : Trims S t' t'') : Trims S t t'' := by
  intro m r'' hr''
  obtain ⟨r', hr', hkey', hdata', hrefs'⟩ := h' m r'' hr''
  obtain ⟨r, hr, hkey, hdata, hrefs⟩ := h m r' hr'
  refine ⟨r, hr, hkey'.trans hkey, hdata'.trans hdata, fun c => ?_⟩
  rcases hrefs' c with heq | hnone
  · rw [heq]
    exact hrefs c
  · exact .inr hnone

/-- Nothing depends on a row that did not before. -/
theorem DependsOn.of_trims (ht : Trims S t t') (h : DependsOn S t' m₀ k₀ m k) : DependsOn S t m₀ k₀ m k := by
  induction h with
  | self => exact .self
  | @refers rel r' k hrel hr' hrefs' _ ih =>
      obtain ⟨r, hr, hkey, -, hrefs⟩ := ht rel.child r' hr'
      rw [hkey]
      refine .refers hrel hr ?_ ih
      rcases hrefs rel.column with heq | ⟨hnone, -⟩
      · rw [← heq]
        exact hrefs'
      · rw [hnone] at hrefs'
        cases hrefs'

theorem Erases.trans (h : Erases S m₀ k₀ t t') (h' : Erases S m₀ k₀ t' t'') : Erases S m₀ k₀ t t'' where
  satisfies ht := h'.satisfies (h.satisfies ht)
  trims := h.trims.trans h'.trims
  spares m r hr hnot := h'.spares m r (h.spares m r hr hnot) fun hdep => hnot (hdep.of_trims h.trims)

end Dependence

/-! ## Which rows are deleted -/

/-- The row of `m` with this key is deleted. -/
inductive Doomed (S : List (Relation M C)) (t : Tables M C K D) (m₀ : M) (p : Row C K D → Bool) :
    M → K → Prop
  | selected {r : Row C K D} (hr : r ∈ t.rows m₀) (hp : p r = true) : Doomed S t m₀ p m₀ r.key
  | cascade {rel : Relation M C} {r : Row C K D} {k : K} (hrel : rel ∈ S)
      (hdelete : rel.onDelete = .cascade) (hr : r ∈ t.rows rel.child)
      (hrefs : r.refs rel.column = some k) (h : Doomed S t m₀ p rel.parent k) :
      Doomed S t m₀ p rel.child r.key

/-- Cascades go from one layer of tables to a higher one, `depth` times at
most. -/
def Layered (S : List (Relation M C)) (depth : Nat) : Prop :=
  ∃ layer : M → Nat, (∀ m, layer m ≤ depth) ∧
    ∀ rel ∈ S, rel.onDelete = .cascade → layer rel.parent < layer rel.child

section Doomed

variable {S : List (Relation M C)} {t : Tables M C K D} {m₀ m : M} {p : Row C K D → Bool} {k k₀ : K}

/-- A deleted row depends on what the selected rows depend on. -/
theorem Doomed.dependsOn (hp : ∀ r ∈ t.rows m₀, p r = true → DependsOn S t m k₀ m₀ r.key) {m' : M}
    (h : Doomed S t m₀ p m' k) : DependsOn S t m k₀ m' k := by
  induction h with
  | selected hr hpr => exact hp _ hr hpr
  | cascade hrel _ hr hrefs _ ih => exact .refers hrel hr hrefs ih

variable [DecidableEq K]

/-- The row refers, through this relation, to one of the keys. -/
def refersTo (keys : M → List K) (rel : Relation M C) (r : Row C K D) : Bool :=
  (r.refs rel.column).any fun k => decide (k ∈ keys rel.parent)

theorem refersTo_iff {keys : M → List K} {rel : Relation M C} {r : Row C K D} :
    refersTo keys rel r = true ↔ ∃ k, r.refs rel.column = some k ∧ k ∈ keys rel.parent := by
  simp [refersTo, Option.any_eq_true]

variable [DecidableEq M]

/-- The keys of the rows deleted with those of `m₀` that `p` selects, after
`n` rounds. -/
def doomed (S : List (Relation M C)) (t : Tables M C K D) (m₀ : M) (p : Row C K D → Bool) :
    Nat → M → List K
  | 0, m => if m = m₀ then ((t.rows m).filter p).map (·.key) else []
  | n + 1, m => t.doomed S m₀ p n m ++
      ((t.rows m).filter fun r => S.any fun rel => rel.child = m && rel.onDelete = .cascade &&
        refersTo (t.doomed S m₀ p n) rel r).map (·.key)

theorem doomed_of_mem {n : Nat} (h : k ∈ t.doomed S m₀ p n m) : Doomed S t m₀ p m k := by
  induction n generalizing m k with
  | zero =>
      rw [doomed] at h
      split at h
      · next heq =>
          subst heq
          obtain ⟨r, hr, rfl⟩ := List.mem_map.mp h
          exact .selected (List.mem_filter.mp hr).1 (List.mem_filter.mp hr).2
      · cases h
  | succ n ih =>
      rw [doomed] at h
      rcases List.mem_append.mp h with h | h
      · exact ih h
      · obtain ⟨r, hr, rfl⟩ := List.mem_map.mp h
        obtain ⟨hmem, hany⟩ := List.mem_filter.mp hr
        obtain ⟨rel, hrel, hcascade⟩ := List.any_eq_true.mp hany
        simp only [Bool.and_eq_true, decide_eq_true_eq] at hcascade
        obtain ⟨⟨rfl, hdelete⟩, hrefers⟩ := hcascade
        obtain ⟨k, hrefs, hk⟩ := refersTo_iff.mp hrefers
        exact .cascade hrel hdelete hmem hrefs (ih hk)

theorem doomed_succ {n : Nat} (h : k ∈ t.doomed S m₀ p n m) : k ∈ t.doomed S m₀ p (n + 1) m :=
  List.mem_append_left _ h

theorem doomed_le {n n' : Nat} (hn : n ≤ n') (h : k ∈ t.doomed S m₀ p n m) :
    k ∈ t.doomed S m₀ p n' m := by
  induction hn with
  | refl => exact h
  | step _ ih => exact doomed_succ ih

/-- A row is found in the round of its layer. -/
theorem Doomed.mem {layer : M → Nat}
    (hlayer : ∀ rel ∈ S, rel.onDelete = .cascade → layer rel.parent < layer rel.child)
    (h : Doomed S t m₀ p m k) {n : Nat} (hn : layer m ≤ n) : k ∈ t.doomed S m₀ p n m := by
  induction h generalizing n with
  | selected hr hp =>
      refine doomed_le (Nat.zero_le n) ?_
      rw [doomed, if_pos rfl]
      exact List.mem_map_of_mem (List.mem_filter.mpr ⟨hr, hp⟩)
  | @cascade rel r k hrel hdelete hr hrefs _ ih =>
      have hlt := hlayer rel hrel hdelete
      obtain ⟨n, rfl⟩ : ∃ n', n = n' + 1 := ⟨n - 1, by omega⟩
      rw [doomed]
      refine List.mem_append_right _ (List.mem_map_of_mem (List.mem_filter.mpr ⟨hr, ?_⟩))
      refine List.any_eq_true.mpr ⟨rel, hrel, ?_⟩
      have hrefers := refersTo_iff.mpr ⟨k, hrefs, ih (by omega : layer rel.parent ≤ n)⟩
      simp [hdelete, hrefers]

/-- The keys are those of the rows deleted. -/
theorem mem_doomed {depth : Nat} (hS : Layered S depth) :
    k ∈ t.doomed S m₀ p depth m ↔ Doomed S t m₀ p m k := by
  obtain ⟨layer, hdepth, hlayer⟩ := hS
  exact ⟨doomed_of_mem, fun h => h.mem hlayer (hdepth m)⟩

end Doomed

/-! ## Deleting -/

section Delete

variable [DecidableEq M] [DecidableEq C] [DecidableEq K]

/-- References that are set null. -/
def clear (S : List (Relation M C)) (keys : M → List K) (m : M) (r : Row C K D) : Row C K D :=
  { r with refs := fun c =>
      if S.any fun rel => rel.child = m && rel.column = c && rel.onDelete = .setNull &&
        refersTo keys rel r then none else r.refs c }

/-- Without the rows of these keys. -/
def without (S : List (Relation M C)) (t : Tables M C K D) (keys : M → List K) : Tables M C K D where
  rows m := ((t.rows m).filter fun r => r.key ∉ keys m).map (clear S keys m)
  unique m := by
    rw [List.map_map]
    exact (t.unique m).sublist (List.Sublist.map _ List.filter_sublist)

/-- A row would be left that refers to one of the keys and must not lose its
reference. -/
def restricted (S : List (Relation M C)) (t : Tables M C K D) (keys : M → List K) : Bool :=
  S.any fun rel => rel.onDelete = .restrict && (t.rows rel.child).any (refersTo keys rel)

/-- `DELETE`; `depth` bounds the chains of cascades. -/
def deleteMany (S : List (Relation M C)) (depth : Nat) (m : M) (p : Row C K D → Bool)
    (t : Tables M C K D) : Except DeleteError (Tables M C K D) :=
  if t.restricted S (t.doomed S m p depth) then .error .foreignKey
  else .ok (t.without S (t.doomed S m p depth))

/-- `DELETE` of one row, which has to exist. -/
def deleteOne (S : List (Relation M C)) (depth : Nat) (m : M) (k : K) (t : Tables M C K D) :
    Except DeleteError (Tables M C K D) :=
  if (t.rows m).any (·.key = k) then t.deleteMany S depth m (·.key = k) else .error .notFound

variable {S : List (Relation M C)} {t t' : Tables M C K D} {m₀ m : M} {k₀ : K} {p : Row C K D → Bool}

theorem clear_refs (keys : M → List K) (m : M) (r : Row C K D) (c : C) :
    (clear S keys m r).refs c = r.refs c ∨ (clear S keys m r).refs c = none ∧ Clearable S m c := by
  unfold clear
  dsimp only
  split
  · next hany =>
      obtain ⟨rel, hrel, hclears⟩ := List.any_eq_true.mp hany
      simp only [Bool.and_eq_true, decide_eq_true_eq] at hclears
      exact .inr ⟨rfl, rel, hrel, hclears.1.1.1, hclears.1.1.2, hclears.1.2⟩
  · exact .inl rfl

theorem mem_without {keys : M → List K} {r' : Row C K D} :
    r' ∈ (t.without S keys).rows m ↔ ∃ r ∈ t.rows m, r.key ∉ keys m ∧ clear S keys m r = r' := by
  simp [without, List.mem_map, List.mem_filter, and_assoc]

theorem trims_without (keys : M → List K) : Trims S t (t.without S keys) := by
  intro m r' hr'
  obtain ⟨r, hr, -, rfl⟩ := mem_without.mp hr'
  exact ⟨r, hr, rfl, rfl, clear_refs keys m r⟩

/-- The references that are left are to rows that are left. -/
theorem Satisfies.without {keys : M → List K} (h : t.Satisfies S)
    (hcascade : ∀ rel ∈ S, rel.onDelete = .cascade → ∀ r ∈ t.rows rel.child, refersTo keys rel r = true →
      r.key ∈ keys rel.child)
    (hrestrict : t.restricted S keys = false) : (t.without S keys).Satisfies S := by
  intro rel hrel r' hr' k hrefs'
  obtain ⟨r, hr, hkept, rfl⟩ := mem_without.mp hr'
  have hrefs : r.refs rel.column = some k := by
    rcases clear_refs keys rel.child r rel.column with heq | ⟨hnone, -⟩
    · rw [← heq]
      exact hrefs'
    · rw [hnone] at hrefs'
      cases hrefs'
  obtain ⟨q, hq, rfl⟩ := h rel hrel r hr k hrefs
  refine ⟨clear S keys rel.parent q, mem_without.mpr ⟨q, hq, fun hgone => ?_, rfl⟩, rfl⟩
  -- the row referred to is deleted: what about the reference?
  have hrefers : refersTo keys rel r = true := refersTo_iff.mpr ⟨q.key, hrefs, hgone⟩
  cases hdelete : rel.onDelete with
  | cascade => exact hkept (hcascade rel hrel hdelete r hr hrefers)
  | setNull =>
      have hcleared : (clear S keys rel.child r).refs rel.column = none := by
        refine if_pos (List.any_eq_true.mpr ⟨rel, hrel, ?_⟩)
        simp [hdelete, hrefers]
      rw [hcleared] at hrefs'
      cases hrefs'
  | restrict =>
      have htrue : t.restricted S keys = true := by
        refine List.any_eq_true.mpr ⟨rel, hrel, ?_⟩
        rw [hdelete, Bool.and_eq_true]
        exact ⟨rfl, List.any_eq_true.mpr ⟨r, hr, hrefers⟩⟩
      rw [hrestrict] at htrue
      cases htrue

/-- **`DELETE` erases.** -/
theorem deleteMany_erases {depth : Nat} (hS : Layered S depth)
    (hp : ∀ r ∈ t.rows m, p r = true → DependsOn S t m₀ k₀ m r.key)
    (h : t.deleteMany S depth m p = .ok t') : Erases S m₀ k₀ t t' := by
  unfold deleteMany at h
  split at h
  · cases h
  · next hnot =>
      cases h
      have hdoomed : ∀ {m' k}, k ∈ t.doomed S m p depth m' ↔ Doomed S t m p m' k := mem_doomed hS
      refine ⟨fun hsat => hsat.without (fun rel hrel hdelete r hr hrefers => ?_) (by simpa using hnot),
        trims_without _, fun m' r hr hdep => ?_⟩
      · obtain ⟨k, hrefs, hk⟩ := refersTo_iff.mp hrefers
        exact hdoomed.mpr (.cascade hrel hdelete hr hrefs (hdoomed.mp hk))
      · refine mem_without.mpr ⟨r, hr, fun hgone => hdep ((hdoomed.mp hgone).dependsOn hp), ?_⟩
        -- a reference set null would make the row depend as well
        have hsame : (clear S (t.doomed S m p depth) m' r).refs = r.refs := by
          funext c
          refine if_neg fun hany => hdep ?_
          obtain ⟨rel, hrel, hclears⟩ := List.any_eq_true.mp hany
          simp only [Bool.and_eq_true, decide_eq_true_eq] at hclears
          obtain ⟨⟨⟨rfl, rfl⟩, -⟩, hrefers⟩ := hclears
          obtain ⟨k, hrefs, hk⟩ := refersTo_iff.mp hrefers
          exact .refers hrel hr hrefs ((hdoomed.mp hk).dependsOn hp)
        calc clear S (t.doomed S m p depth) m' r
            = { r with refs := (clear S (t.doomed S m p depth) m' r).refs } := rfl
          _ = r := by rw [hsame]

/-- `DELETE` succeeds where no reference is in the way. -/
theorem deleteMany_ok {depth : Nat} (hS : Layered S depth)
    (hfree : ∀ rel ∈ S, rel.onDelete = .restrict → ∀ r ∈ t.rows rel.child, ∀ k,
      r.refs rel.column = some k → ¬Doomed S t m p rel.parent k) :
    ∃ t', t.deleteMany S depth m p = .ok t' := by
  refine ⟨_, if_neg fun hrestricted => ?_⟩
  obtain ⟨rel, hrel, hany⟩ := List.any_eq_true.mp hrestricted
  rw [Bool.and_eq_true] at hany
  obtain ⟨r, hr, hrefers⟩ := List.any_eq_true.mp hany.2
  obtain ⟨k, hrefs, hk⟩ := refersTo_iff.mp hrefers
  exact hfree rel hrel (by simpa using hany.1) r hr k hrefs ((mem_doomed hS).mp hk)

/-- A row that is not deleted is left, maybe without some references. -/
theorem deleteMany_kept {depth : Nat} (hS : Layered S depth) (h : t.deleteMany S depth m p = .ok t')
    {m' : M} {r : Row C K D} (hr : r ∈ t.rows m') (hnot : ¬Doomed S t m p m' r.key) :
    ∃ r' ∈ t'.rows m', r'.key = r.key := by
  unfold deleteMany at h
  split at h
  · cases h
  · cases h
    exact ⟨_, mem_without.mpr ⟨r, hr, fun hgone => hnot ((mem_doomed hS).mp hgone), rfl⟩, rfl⟩

/-- No selected row is left. -/
theorem deleteMany_left {depth : Nat} (hS : Layered S depth) (h : t.deleteMany S depth m p = .ok t')
    {r' : Row C K D} (hr' : r' ∈ t'.rows m) : ∃ r ∈ t.rows m, p r = false ∧ r'.key = r.key ∧
      ∀ c, r'.refs c = r.refs c ∨ r'.refs c = none ∧ Clearable S m c := by
  unfold deleteMany at h
  split at h
  · cases h
  · cases h
    obtain ⟨r, hr, hkept, rfl⟩ := mem_without.mp hr'
    refine ⟨r, hr, ?_, rfl, clear_refs _ _ r⟩
    by_contra hp
    exact hkept ((mem_doomed hS).mpr (.selected hr (by simpa using hp)))

end Delete

end Tables

end VerityBackend.Store
