/-
VerityBackend.Queue.Preferences — are equal preferences written equally?

`stableStringify` sorts the keys of every object, so objects that differ in
the order of their keys have one text. It quotes strings with
`JSON.stringify`, but puts keys between quotes as they are: a key with `":`
in it can be read in two ways. Keys without it make the text readable in one
way only (`stableStringify_iff`).
-/
import Mathlib.Data.List.Lex
import Mathlib.Data.List.Sort
import VerityBackend.Format.JsonText

namespace VerityBackend.Queue

open Format

/-- A JSON value. The entries of an object are in the order of `Object.keys`. -/
inductive Json where
  | null
  | bool (b : Bool)
  | num (x : Number)
  | str (s : Text)
  | arr (items : List Json)
  | obj (record : List (Text × Json))

/-- The order of `sort()`: by code units. -/
def KeyLe {α : Type} (e e' : Text × α) : Prop := e.1 ≤ e'.1

instance {α : Type} : DecidableRel (KeyLe (α := α)) := fun e e' => inferInstanceAs (Decidable (e.1 ≤ e'.1))

def sortByKey {α : Type} (entries : List (Text × α)) : List (Text × α) := entries.insertionSort KeyLe

/-- `texts.join(',')`. -/
def join : List Text → Text
  | [] => []
  | t :: ts => t ++ ts.flatMap fun t => ','.toNat :: t

def entryText (key value : Text) : Text := 34 :: (key ++ 34 :: ':'.toNat :: value)

mutual

def stableStringify : Json → Text
  | .null => ascii "null"
  | .bool b => ascii (if b then "true" else "false")
  | .num x => x.text
  | .str s => quoted s
  | .arr items => '['.toNat :: (join (itemTexts items) ++ [']'.toNat])
  | .obj record =>
      '{'.toNat :: (join ((sortByKey (entryTexts record)).map fun e => entryText e.1 e.2) ++ ['}'.toNat])

def itemTexts : List Json → List Text
  | [] => []
  | item :: rest => stableStringify item :: itemTexts rest

/-- Each key with the text of its value. -/
def entryTexts : List (Text × Json) → List (Text × Text)
  | [] => []
  | (key, value) :: rest => (key, stableStringify value) :: entryTexts rest

end

/-! ## Objects -/

mutual

/-- What the keys of an object are like, in every object of a value. -/
def Json.Keys (P : List Text → Prop) : Json → Prop
  | .null => True
  | .bool _ => True
  | .num _ => True
  | .str _ => True
  | .arr items => itemKeys P items
  | .obj record => P (record.map (·.1)) ∧ entryKeys P record

def itemKeys (P : List Text → Prop) : List Json → Prop
  | [] => True
  | item :: rest => item.Keys P ∧ itemKeys P rest

def entryKeys (P : List Text → Prop) : List (Text × Json) → Prop
  | [] => True
  | (_, value) :: rest => value.Keys P ∧ entryKeys P rest

end

/-- No object has a key twice. -/
def Json.Valid (a : Json) : Prop := a.Keys List.Nodup

/-- No key has a quote that is followed by a colon. -/
def Json.Readable (a : Json) : Prop := a.Keys fun keys => ∀ key ∈ keys, ¬[34, ':'.toNat] <:+: key

mutual

/-- Equal up to the order of the keys, at every depth. -/
def Same : Json → Json → Prop
  | .null, b => b = .null
  | .bool x, b => b = .bool x
  | .num x, b => b = .num x
  | .str s, b => b = .str s
  | .arr items, b => ∃ items', b = .arr items' ∧ SameItems items items'
  | .obj record, b => ∃ record', b = .obj record' ∧
      (∀ key, key ∈ record.map (·.1) ↔ key ∈ record'.map (·.1)) ∧ SameEntries record record'

def SameItems : List Json → List Json → Prop
  | [], items' => items' = []
  | item :: rest, items' => ∃ item' rest', items' = item' :: rest' ∧ Same item item' ∧ SameItems rest rest'

/-- Each key has the same value in the other object. -/
def SameEntries : List (Text × Json) → List (Text × Json) → Prop
  | [], _ => True
  | (key, value) :: rest, record' =>
      (∃ value', (key, value') ∈ record' ∧ Same value value') ∧ SameEntries rest record'

end

section Values

variable {P : List Text → Prop} {items items' : List Json} {record record' : List (Text × Json)}

theorem Json.induct {Q : Json → Prop} (null : Q .null) (bool : ∀ b, Q (.bool b)) (num : ∀ x, Q (.num x))
    (str : ∀ s, Q (.str s)) (arr : ∀ items, (∀ item ∈ items, Q item) → Q (.arr items))
    (obj : ∀ record, (∀ e ∈ record, Q e.2) → Q (.obj record)) (a : Json) : Q a :=
  match a with
  | .null => null
  | .bool b => bool b
  | .num x => num x
  | .str s => str s
  | .arr items => arr items fun item _ => Json.induct null bool num str arr obj item
  | .obj record => obj record fun e _ => Json.induct null bool num str arr obj e.2
termination_by sizeOf a
decreasing_by
  · have := List.sizeOf_lt_of_mem ‹item ∈ items›
    simp only [Json.arr.sizeOf_spec]
    omega
  · have hmem := List.sizeOf_lt_of_mem ‹e ∈ record›
    have hpair : sizeOf e.2 < sizeOf e := by
      cases e
      simp only [Prod.mk.sizeOf_spec]
      omega
    simp only [Json.obj.sizeOf_spec]
    omega

theorem itemTexts_eq : itemTexts items = items.map stableStringify := by
  induction items with
  | nil => rfl
  | cons item rest ih => rw [itemTexts, ih, List.map_cons]

theorem entryTexts_eq : entryTexts record = record.map fun e => (e.1, stableStringify e.2) := by
  induction record with
  | nil => rfl
  | cons e rest ih => rw [entryTexts, ih, List.map_cons]

theorem keys_entryTexts (record : List (Text × Json)) :
    (entryTexts record).map (·.1) = record.map (·.1) := by
  rw [entryTexts_eq, List.map_map]
  rfl

theorem itemKeys_iff : itemKeys P items ↔ ∀ item ∈ items, item.Keys P := by
  induction items with
  | nil => exact ⟨fun _ => nofun, fun _ => trivial⟩
  | cons item rest ih => rw [itemKeys, ih, List.forall_mem_cons]

theorem entryKeys_iff : entryKeys P record ↔ ∀ e ∈ record, e.2.Keys P := by
  induction record with
  | nil => exact ⟨fun _ => nofun, fun _ => trivial⟩
  | cons e rest ih => rw [entryKeys, ih, List.forall_mem_cons]

theorem sameItems_iff : SameItems items items' ↔ List.Forall₂ Same items items' := by
  induction items generalizing items' with
  | nil => rw [SameItems, List.forall₂_nil_left_iff]
  | cons item rest ih =>
      rw [SameItems, List.forall₂_cons_left_iff]
      constructor
      · rintro ⟨item', rest', rfl, hitem, hrest⟩
        exact ⟨item', rest', hitem, ih.mp hrest, rfl⟩
      · rintro ⟨item', rest', hitem, hrest, rfl⟩
        exact ⟨item', rest', rfl, hitem, ih.mpr hrest⟩

theorem sameEntries_iff : SameEntries record record' ↔
    ∀ e ∈ record, ∃ value', (e.1, value') ∈ record' ∧ Same e.2 value' := by
  induction record with
  | nil => exact ⟨fun _ => nofun, fun _ => trivial⟩
  | cons e rest ih => rw [SameEntries, ih, List.forall_mem_cons]

end Values

/-! ## Sorting -/

section Sorting

variable {α β : Type} {es fs : List (Text × α)}

instance : Std.Total (KeyLe (α := α)) := ⟨fun e e' => le_total e.1 e'.1⟩

instance : IsTrans (Text × α) KeyLe := ⟨fun _ _ _ => le_trans⟩

theorem perm_sortByKey (es : List (Text × α)) : (sortByKey es).Perm es := List.perm_insertionSort _ es

theorem mem_sortByKey {e : Text × α} : e ∈ sortByKey es ↔ e ∈ es := (perm_sortByKey es).mem_iff

theorem eq_of_key_eq {e e' : Text × α} (h : (es.map (·.1)).Nodup) (he : e ∈ es) (he' : e' ∈ es)
    (hkey : e.1 = e'.1) : e = e' := List.inj_on_of_nodup_map h he he' hkey

/-- Objects with the same entries are sorted to one list. -/
theorem sortByKey_eq (h : (es.map (·.1)).Nodup) (hperm : es.Perm fs) : sortByKey es = sortByKey fs := by
  have hunique : ∀ e e', e ∈ sortByKey es → e' ∈ sortByKey fs → KeyLe e e' → KeyLe e' e → e = e' :=
    fun e e' he he' hle hge => eq_of_key_eq h (mem_sortByKey.mp he)
      (hperm.mem_iff.mpr (mem_sortByKey.mp he')) (le_antisymm hle hge)
  exact List.Perm.eq_of_pairwise hunique (List.pairwise_insertionSort _ es)
    (List.pairwise_insertionSort _ fs) ((perm_sortByKey es).trans (hperm.trans (perm_sortByKey fs).symm))

theorem sortByKey_map (f : α → β) :
    sortByKey (es.map fun e => (e.1, f e.2)) = (sortByKey es).map fun e => (e.1, f e.2) :=
  (List.map_insertionSort _ _ (fun e : Text × α => (e.1, f e.2)) es fun _ _ _ _ => Iff.rfl).symm

end Sorting

/-- The text of an object, by its fields in the order of their keys. -/
def fieldText (e : Text × Json) : Text := entryText e.1 (stableStringify e.2)

theorem stableStringify_obj (record : List (Text × Json)) :
    stableStringify (.obj record) =
      '{'.toNat :: (join ((sortByKey record).map fieldText) ++ ['}'.toNat]) := by
  rw [stableStringify, entryTexts_eq, sortByKey_map, List.map_map]
  rfl

/-! ## Equal preferences -/

theorem map_eq_of_forall₂ {items items' : List Json} (h : List.Forall₂ Same items items')
    (htext : ∀ a ∈ items, ∀ b ∈ items', Same a b → stableStringify a = stableStringify b) :
    items.map stableStringify = items'.map stableStringify := by
  induction h with
  | nil => rfl
  | cons hab _ ih =>
      rw [List.map_cons, List.map_cons, htext _ (.head _) _ (.head _) hab,
        ih fun a ha b hb => htext a (.tail _ ha) b (.tail _ hb)]

/-- The same texts under the same keys. -/
theorem perm_entryTexts {record record' : List (Text × Json)} (hnodup : (record.map (·.1)).Nodup)
    (hnodup' : (record'.map (·.1)).Nodup) (hkeys : ∀ key, key ∈ record.map (·.1) ↔ key ∈ record'.map (·.1))
    (htext : ∀ e ∈ record, ∃ e' ∈ record', e'.1 = e.1 ∧ stableStringify e.2 = stableStringify e'.2) :
    (entryTexts record).Perm (entryTexts record') := by
  have hdistinct := (keys_entryTexts record ▸ hnodup).of_map
  have hdistinct' := (keys_entryTexts record' ▸ hnodup').of_map
  refine (List.perm_ext_iff_of_nodup hdistinct hdistinct').mpr fun p => ?_
  rw [entryTexts_eq, entryTexts_eq, List.mem_map, List.mem_map]
  constructor
  · rintro ⟨e, he, rfl⟩
    obtain ⟨e', he', hkey, hsame⟩ := htext e he
    exact ⟨e', he', by rw [hkey, hsame]⟩
  · rintro ⟨e', he', rfl⟩
    obtain ⟨e, he, hkey⟩ := List.mem_map.mp ((hkeys e'.1).mpr (List.mem_map_of_mem he'))
    obtain ⟨e'', he'', hkey', hsame⟩ := htext e he
    obtain rfl := eq_of_key_eq hnodup' he'' he' (hkey'.trans hkey)
    exact ⟨e, he, by rw [hkey, hsame]⟩

theorem Same.text_eq {a b : Json} (ha : a.Valid) (hb : b.Valid) (h : Same a b) :
    stableStringify a = stableStringify b := by
  induction a using Json.induct generalizing b with
  | null => rw [show b = .null from h]
  | bool x => rw [show b = .bool x from h]
  | num x => rw [show b = .num x from h]
  | str s => rw [show b = .str s from h]
  | arr items ih =>
      obtain ⟨items', rfl, hitems⟩ := h
      have hitem := itemKeys_iff.mp ha
      have hitem' := itemKeys_iff.mp hb
      have htexts := map_eq_of_forall₂ (sameItems_iff.mp hitems)
        fun a ha' b hb' hab => ih a ha' (hitem a ha') (hitem' b hb') hab
      rw [stableStringify, stableStringify, itemTexts_eq, itemTexts_eq, htexts]
  | obj record ih =>
      obtain ⟨record', rfl, hkeys, hentries⟩ := h
      obtain ⟨hnodup, hvalues⟩ := ha
      obtain ⟨hnodup', hvalues'⟩ := hb
      have hperm := perm_entryTexts hnodup hnodup' hkeys fun e he => by
        obtain ⟨value', he', hsame⟩ := sameEntries_iff.mp hentries e he
        exact ⟨(e.1, value'), he', rfl, ih e he (entryKeys_iff.mp hvalues e he)
          (entryKeys_iff.mp hvalues' _ he') hsame⟩
      rw [stableStringify, stableStringify, sortByKey_eq (keys_entryTexts record ▸ hnodup) hperm]

/-! ## Reading a text -/

/-- What kind of value starts with this unit. -/
def kindOf (u : Nat) : Nat :=
  if u = 'n'.toNat then 0
  else if u = 't'.toNat ∨ u = 'f'.toNat then 1
  else if u = '-'.toNat ∨ '0'.toNat ≤ u ∧ u ≤ '9'.toNat then 2
  else if u = 34 then 3
  else if u = '['.toNat then 4
  else if u = '{'.toNat then 5
  else 6

def Json.kind : Json → Nat
  | .null => 0
  | .bool _ => 1
  | .num _ => 2
  | .str _ => 3
  | .arr _ => 4
  | .obj _ => 5

theorem kindOf_digit (d : Fin 10) : kindOf (digitUnit d) = 2 := by
  revert d
  decide

/-- The first unit tells what kind of value it is. -/
theorem stableStringify_head (a : Json) : ∃ u t, stableStringify a = u :: t ∧ kindOf u = a.kind := by
  cases a with
  | null => exact ⟨_, _, rfl, rfl⟩
  | bool b => cases b <;> exact ⟨_, _, rfl, rfl⟩
  | num x =>
      obtain ⟨d, t, hx⟩ := x.layout_head
      rw [stableStringify, Number.text, hx]
      split
      · exact ⟨_, _, rfl, rfl⟩
      · exact ⟨_, _, rfl, kindOf_digit d⟩
  | str s => exact ⟨_, _, rfl, rfl⟩
  | arr items => exact ⟨_, _, rfl, rfl⟩
  | obj record => exact ⟨_, _, rfl, rfl⟩

theorem kind_eq {a b : Json} {r r' : Text} (h : stableStringify a ++ r = stableStringify b ++ r') :
    a.kind = b.kind := by
  obtain ⟨u, t, ha, hu⟩ := stableStringify_head a
  obtain ⟨u', t', hb, hu'⟩ := stableStringify_head b
  rw [ha, hb, List.cons_append, List.cons_append] at h
  rw [← hu, ← hu', (List.cons.inj h).1]

/-- A key ends at the first quote that is followed by a colon. -/
theorem key_unique {k k' r r' : Text} (hk : ¬[34, ':'.toNat] <:+: k) (hk' : ¬[34, ':'.toNat] <:+: k')
    (h : k ++ 34 :: ':'.toNat :: r = k' ++ 34 :: ':'.toNat :: r') : k = k' ∧ r = r' := by
  have hshort {xs : Text} {u : Nat} {t t' : Text} (hne : ¬[34, ':'.toNat] <:+: u :: xs) :
      34 :: ':'.toNat :: t ≠ u :: xs ++ 34 :: ':'.toNat :: t' := by
    intro heq
    obtain ⟨rfl, htail⟩ := List.cons.inj heq
    cases xs with
    | nil => exact absurd (List.cons.inj htail).1 (by decide)
    | cons v ys =>
        obtain ⟨rfl, -⟩ := List.cons.inj htail
        exact hne ⟨[], ys, rfl⟩
  induction k generalizing k' with
  | nil =>
      cases k' with
      | nil =>
          simp only [List.nil_append, List.cons.injEq, true_and] at h
          exact ⟨rfl, h⟩
      | cons u k' => exact absurd h (hshort hk')
  | cons u k ih =>
      cases k' with
      | nil => exact absurd h.symm (hshort hk)
      | cons u' k' =>
          obtain ⟨rfl, htail⟩ := List.cons.inj h
          obtain ⟨rfl, hrest⟩ := ih (fun hin => hk (hin.trans (List.suffix_cons _ _).isInfix))
            (fun hin => hk' (hin.trans (List.suffix_cons _ _).isInfix)) htail
          exact ⟨rfl, hrest⟩

/-! ## Lists of texts -/

section Join

variable {α : Type} {f : α → Text} {R : α → α → Prop} {close : Nat} {xs ys : List α} {r r' : Text}

/-- The texts of two values at the front of one text. -/
def Unique (f : α → Text) (R : α → α → Prop) (x y : α) : Prop :=
  ∀ r r', Delimited r → Delimited r' → f x ++ r = f y ++ r' → R x y ∧ r = r'

theorem delimited_tail (hclose : close = ']'.toNat ∨ close = '}'.toNat) :
    Delimited (((xs.map f).flatMap fun t => ','.toNat :: t) ++ close :: r) := by
  intro u hu
  cases xs with
  | nil => exact .inr (Option.some.inj hu ▸ hclose)
  | cons x xs => exact .inl (Option.some.inj hu).symm

theorem tail_unique (hclose : close = ']'.toNat ∨ close = '}'.toNat)
    (huniq : ∀ x ∈ xs, ∀ y ∈ ys, Unique f R x y)
    (h : ((xs.map f).flatMap fun t => ','.toNat :: t) ++ close :: r =
      ((ys.map f).flatMap fun t => ','.toNat :: t) ++ close :: r') :
    List.Forall₂ R xs ys ∧ r = r' := by
  have hcomma : close ≠ ','.toNat := by rcases hclose with rfl | rfl <;> decide
  induction xs generalizing ys with
  | nil =>
      cases ys with
      | nil => exact ⟨.nil, (List.cons.inj h).2⟩
      | cons y ys => exact absurd (List.cons.inj h).1 hcomma
  | cons x xs ih =>
      cases ys with
      | nil => exact absurd (List.cons.inj h).1.symm hcomma
      | cons y ys =>
          simp only [List.map_cons, List.flatMap_cons, List.cons_append, List.append_assoc,
            List.cons.injEq, true_and] at h
          obtain ⟨hxy, htail⟩ := huniq x (.head _) y (.head _) _ _ (delimited_tail hclose)
            (delimited_tail hclose) h
          obtain ⟨hrest, hr⟩ := ih (fun x hx y hy => huniq x (.tail _ hx) y (.tail _ hy)) htail
          exact ⟨.cons hxy hrest, hr⟩

/-- A list in brackets is read item by item. -/
theorem join_unique (hclose : close = ']'.toNat ∨ close = '}'.toNat)
    (huniq : ∀ x ∈ xs, ∀ y ∈ ys, Unique f R x y) (hhead : ∀ x, ∃ u t, f x = u :: t ∧ u ≠ close)
    (h : join (xs.map f) ++ close :: r = join (ys.map f) ++ close :: r') :
    List.Forall₂ R xs ys ∧ r = r' := by
  have hempty {y : α} {ys : List α} {t t' : Text} :
      close :: t ≠ join ((y :: ys).map f) ++ close :: t' := by
    obtain ⟨u, s, hy, hu⟩ := hhead y
    intro heq
    rw [List.map_cons, join, hy] at heq
    exact hu (List.cons.inj heq).1.symm
  cases xs with
  | nil =>
      cases ys with
      | nil => exact ⟨.nil, (List.cons.inj h).2⟩
      | cons y ys => exact absurd h hempty
  | cons x xs =>
      cases ys with
      | nil => exact absurd h.symm hempty
      | cons y ys =>
          simp only [List.map_cons, join, List.append_assoc] at h
          obtain ⟨hxy, htail⟩ := huniq x (.head _) y (.head _) _ _ (delimited_tail hclose)
            (delimited_tail hclose) h
          obtain ⟨hrest, hr⟩ := tail_unique hclose
            (fun x hx y hy => huniq x (.tail _ hx) y (.tail _ hy)) htail
          exact ⟨.cons hxy hrest, hr⟩

theorem exists_of_forall₂ (h : List.Forall₂ R xs ys) {x : α} (hx : x ∈ xs) : ∃ y ∈ ys, R x y := by
  induction h with
  | nil => cases hx
  | cons hxy _ ih =>
      rcases List.mem_cons.mp hx with rfl | hx
      · exact ⟨_, .head _, hxy⟩
      · obtain ⟨y, hy, hR⟩ := ih hx
        exact ⟨y, .tail _ hy, hR⟩

end Join

/-! ## The text of preferences -/

theorem stableStringify_ne_close (a : Json) {close : Nat} (h : kindOf close = 6) :
    ∃ u t, stableStringify a = u :: t ∧ u ≠ close := by
  obtain ⟨u, t, ha, hu⟩ := stableStringify_head a
  refine ⟨u, t, ha, ?_⟩
  rintro rfl
  rw [h] at hu
  cases a <;> cases hu

/-- A key is given back with its value. -/
theorem fieldText_unique {e e' : Text × Json} (hkey : ¬[34, ':'.toNat] <:+: e.1)
    (hkey' : ¬[34, ':'.toNat] <:+: e'.1) (huniq : Unique stableStringify Same e.2 e'.2) :
    Unique fieldText (fun e e' => e.1 = e'.1 ∧ Same e.2 e'.2) e e' := by
  intro r r' hr hr' h
  simp only [fieldText, entryText, List.cons_append, List.append_assoc, List.cons.injEq, true_and] at h
  obtain ⟨hkeys, hvalue⟩ := key_unique hkey hkey' h
  obtain ⟨hsame, hrest⟩ := huniq r r' hr hr' hvalue
  exact ⟨⟨hkeys, hsame⟩, hrest⟩

/-- Sorted fields that agree one by one are the fields of equal objects. -/
theorem same_of_sorted {record record' : List (Text × Json)}
    (h : List.Forall₂ (fun e e' => e.1 = e'.1 ∧ Same e.2 e'.2) (sortByKey record) (sortByKey record')) :
    Same (.obj record) (.obj record') := by
  have hkeys : (sortByKey record).map (·.1) = (sortByKey record').map (·.1) := by
    rw [← List.forall₂_eq_eq_eq, List.forall₂_map_left_iff, List.forall₂_map_right_iff]
    exact h.imp fun _ _ hee => hee.1
  refine ⟨record', rfl, fun key => ?_, sameEntries_iff.mpr fun e he => ?_⟩
  · rw [← ((perm_sortByKey record).map (·.1)).mem_iff, hkeys,
      ((perm_sortByKey record').map (·.1)).mem_iff]
  · obtain ⟨e', he', hkey, hsame⟩ := exists_of_forall₂ h (mem_sortByKey.mpr he)
    exact ⟨e'.2, hkey ▸ mem_sortByKey.mp he', hsame⟩

theorem stableStringify_unique (a b : Json) (ha : a.Readable) (hb : b.Readable) :
    Unique stableStringify Same a b := by
  induction a using Json.induct generalizing b with
  | null =>
      intro r r' _ _ h
      have hkind := kind_eq h
      cases b <;> cases hkind
      exact ⟨rfl, List.append_cancel_left h⟩
  | bool x =>
      intro r r' _ _ h
      have hkind := kind_eq h
      cases b <;> cases hkind
      next y =>
        cases x <;> cases y
        · exact ⟨rfl, List.append_cancel_left h⟩
        · exact absurd (List.cons.inj h).1 (by decide)
        · exact absurd (List.cons.inj h).1 (by decide)
        · exact ⟨rfl, List.append_cancel_left h⟩
  | num x =>
      intro r r' hr hr' h
      have hkind := kind_eq h
      cases b <;> cases hkind
      obtain ⟨rfl, hrest⟩ := Number.text_unique hr hr' h
      exact ⟨rfl, hrest⟩
  | str s =>
      intro r r' _ _ h
      have hkind := kind_eq h
      cases b <;> cases hkind
      obtain ⟨rfl, hrest⟩ := quoted_unique h
      exact ⟨rfl, hrest⟩
  | arr items ih =>
      intro r r' _ _ h
      have hkind := kind_eq h
      cases b <;> cases hkind
      next items' =>
        have hitem := itemKeys_iff.mp ha
        have hitem' := itemKeys_iff.mp hb
        simp only [stableStringify, itemTexts_eq, List.cons_append, List.append_assoc, List.cons.injEq,
          true_and, List.nil_append] at h
        obtain ⟨hitems, hrest⟩ := join_unique (.inl rfl)
          (fun x hx y hy => ih x hx y (hitem x hx) (hitem' y hy))
          (fun x => stableStringify_ne_close x rfl) h
        exact ⟨⟨items', rfl, sameItems_iff.mpr hitems⟩, hrest⟩
  | obj record ih =>
      intro r r' _ _ h
      have hkind := kind_eq h
      cases b <;> cases hkind
      next record' =>
        obtain ⟨hkeys, hvalues⟩ := ha
        obtain ⟨hkeys', hvalues'⟩ := hb
        simp only [stableStringify_obj, List.cons_append, List.append_assoc, List.cons.injEq,
          true_and, List.nil_append] at h
        obtain ⟨hfields, hrest⟩ := join_unique (.inr rfl)
          (fun e he e' he' => fieldText_unique
            (hkeys e.1 (List.mem_map_of_mem (mem_sortByKey.mp he)))
            (hkeys' e'.1 (List.mem_map_of_mem (mem_sortByKey.mp he')))
            (ih e (mem_sortByKey.mp he) e'.2 (entryKeys_iff.mp hvalues e (mem_sortByKey.mp he))
              (entryKeys_iff.mp hvalues' e' (mem_sortByKey.mp he'))))
          (fun e => ⟨_, _, rfl, by decide⟩) h
        exact ⟨same_of_sorted hfields, hrest⟩

/-- **Preferences with readable keys are written canonically.** -/
theorem stableStringify_iff {a b : Json} (ha : a.Valid) (hb : b.Valid) (hra : a.Readable)
    (hrb : b.Readable) : stableStringify a = stableStringify b ↔ Same a b := by
  refine ⟨fun h => ?_, Same.text_eq ha hb⟩
  exact (stableStringify_unique a b hra hrb [] [] nofun nofun (congrArg (· ++ []) h)).1

def digit (d : Fin 10) (h : Decimal.Leading d) : Json := .num (.decimal ⟨false, [d], 1, List.cons_ne_nil d [], h, h⟩)

/-- `{"mode":1,"tags":["x"]}` in two orders. -/
theorem stableStringify_iff_reordered :
    let one := digit 1 (by decide)
    let tags := Json.arr [.str (ascii "x")]
    let a := Json.obj [(ascii "tags", tags), (ascii "mode", one)]
    let b := Json.obj [(ascii "mode", one), (ascii "tags", tags)]
    stableStringify a = ascii "\x7b\"mode\":1,\"tags\":[\"x\"]\x7d" ∧
      (stableStringify a = stableStringify b ↔ Same a b) := by
  refine ⟨by decide +kernel, stableStringify_iff ?_ ?_ ?_ ?_⟩
  · exact ⟨by decide +kernel, ⟨trivial, trivial⟩, trivial, trivial⟩
  · exact ⟨by decide +kernel, trivial, ⟨trivial, trivial⟩, trivial⟩
  · exact ⟨by decide +kernel, ⟨trivial, trivial⟩, trivial, trivial⟩
  · exact ⟨by decide +kernel, trivial, ⟨trivial, trivial⟩, trivial⟩

/-- `{"a\":1,\"b":2}` has one key, and the text of `{"a":1,"b":2}`. -/
theorem stableStringify_collision :
    ¬∀ a b : Json, a.Valid → b.Valid → (stableStringify a = stableStringify b ↔ Same a b) := by
  intro h
  let one := digit 1 (by decide)
  let two := digit 2 (by decide)
  let a := Json.obj [(ascii "a\":1,\"b", two)]
  let b := Json.obj [(ascii "a", one), (ascii "b", two)]
  have hsame : Same a b := (h a b ⟨by decide +kernel, trivial, trivial⟩
    ⟨by decide +kernel, trivial, trivial, trivial⟩).mp (by decide +kernel)
  obtain ⟨record', heq, hkeys, -⟩ := hsame
  obtain rfl : [(ascii "a", one), (ascii "b", two)] = record' := Json.obj.inj heq
  exact absurd ((hkeys (ascii "a")).mpr (by decide +kernel)) (by decide +kernel)

end VerityBackend.Queue
