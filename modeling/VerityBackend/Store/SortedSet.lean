/-
VerityBackend.Store.SortedSet — sorted sets in the manner of Redis.

A sorted set holds each member once, with a score; its entries are kept in
the order (score, member), which is the order `ZPOPMIN` pops in and
`ZRANK` counts in. Both facts are fields of the structure, so every
operation hands them on and no later proof re-establishes them.
-/
import Mathlib.Data.List.Sort
import Mathlib.Data.List.Nodup

namespace VerityBackend.Store

/-- A member with its score. -/
structure Ranked (α : Type) where
  score : Nat
  member : α
  deriving DecidableEq, Repr

variable {α : Type} [LinearOrder α]

/-- The order of a sorted set: by score, equal scores by member. -/
def Ranked.le (x y : Ranked α) : Prop :=
  x.score < y.score ∨ (x.score = y.score ∧ x.member ≤ y.member)

instance : DecidableRel (Ranked.le (α := α)) := fun x y =>
  inferInstanceAs (Decidable (x.score < y.score ∨ (x.score = y.score ∧ x.member ≤ y.member)))

instance : Std.Total (Ranked.le (α := α)) where
  total x y := by
    rcases Nat.lt_trichotomy x.score y.score with h | h | h
    · exact .inl (.inl h)
    · rcases le_total x.member y.member with hm | hm
      · exact .inl (.inr ⟨h, hm⟩)
      · exact .inr (.inr ⟨h.symm, hm⟩)
    · exact .inr (.inl h)

instance : IsTrans (Ranked α) Ranked.le where
  trans x y z hxy hyz := by
    rcases hxy with hxy | ⟨hxy, hm⟩
    · rcases hyz with hyz | ⟨hyz, -⟩
      · exact .inl (hxy.trans hyz)
      · exact .inl (hyz ▸ hxy)
    · rcases hyz with hyz | ⟨hyz, hm'⟩
      · exact .inl (hxy ▸ hyz)
      · exact .inr ⟨hxy.trans hyz, hm.trans hm'⟩

theorem Ranked.le_antisymm {x y : Ranked α} (h : Ranked.le x y) (h' : Ranked.le y x) : x = y := by
  rcases h with h | ⟨hscore, hmember⟩ <;> rcases h' with h' | ⟨hscore', hmember'⟩
  · omega
  · omega
  · omega
  · cases x; cases y
    simp only [Ranked.mk.injEq]
    exact ⟨hscore, hmember.antisymm hmember'⟩

/-- A sorted set: entries in order, no member twice. -/
structure SortedSet (α : Type) [LinearOrder α] where
  entries : List (Ranked α)
  sorted : entries.Pairwise Ranked.le
  nodup : (entries.map (·.member)).Nodup

namespace SortedSet

@[ext] theorem ext {s t : SortedSet α} (h : s.entries = t.entries) : s = t := by
  cases s; cases t; cases h; rfl

def empty : SortedSet α where
  entries := []
  sorted := .nil
  nodup := .nil

def members (s : SortedSet α) : List α := s.entries.map (·.member)

instance : Membership α (SortedSet α) where
  mem s a := a ∈ s.members

instance (a : α) (s : SortedSet α) : Decidable (a ∈ s) :=
  inferInstanceAs (Decidable (a ∈ s.members))

theorem mem_def {a : α} {s : SortedSet α} : a ∈ s ↔ a ∈ s.members := Iff.rfl

@[simp] theorem not_mem_empty (a : α) : a ∉ (empty : SortedSet α) := by
  simp [mem_def, members, empty]

/-- `ZCARD`. -/
def zcard (s : SortedSet α) : Nat := s.entries.length

/-- `ZRANK`. -/
def zrank (s : SortedSet α) (a : α) : Option Nat := s.members.findIdx? (· = a)

/-- `ZREM` of one member. -/
def zrem (s : SortedSet α) (a : α) : SortedSet α where
  entries := s.entries.filter (·.member ≠ a)
  sorted := s.sorted.filter _
  nodup := s.nodup.sublist (List.Sublist.map _ List.filter_sublist)

/-- `ZADD` of one member: its old score, if any, is forgotten. -/
def zadd (s : SortedSet α) (score : Nat) (a : α) : SortedSet α where
  entries := (s.zrem a).entries.orderedInsert Ranked.le ⟨score, a⟩
  sorted := (s.zrem a).sorted.orderedInsert _ _
  nodup := by
    have hperm := (List.perm_orderedInsert Ranked.le ⟨score, a⟩ (s.zrem a).entries).map (·.member)
    rw [hperm.nodup_iff, List.map_cons, List.nodup_cons]
    refine ⟨?_, (s.zrem a).nodup⟩
    simp [zrem]

/-- `ZADD` of several members, in the order of the arguments. -/
def zaddAll (s : SortedSet α) (xs : List (Ranked α)) : SortedSet α :=
  xs.foldl (fun t x => t.zadd x.score x.member) s

/-- The entries `ZPOPMIN` with count `n` returns. -/
def lowest (s : SortedSet α) (n : Nat) : List (Ranked α) := s.entries.take n

/-- What `ZPOPMIN` with count `n` leaves. -/
def zpopmin (s : SortedSet α) (n : Nat) : SortedSet α where
  entries := s.entries.drop n
  sorted := s.sorted.drop
  nodup := s.nodup.sublist (List.Sublist.map _ (List.drop_sublist _ _))

@[simp] theorem mem_zrem {s : SortedSet α} {a b : α} : b ∈ s.zrem a ↔ b ≠ a ∧ b ∈ s := by
  simp only [mem_def, members, zrem, List.mem_map, List.mem_filter, decide_not]
  constructor
  · rintro ⟨e, ⟨he, hne⟩, rfl⟩
    exact ⟨by simpa using hne, e, he, rfl⟩
  · rintro ⟨hne, e, he, rfl⟩
    exact ⟨e, ⟨he, by simpa using hne⟩, rfl⟩

@[simp] theorem mem_zadd {s : SortedSet α} {n : Nat} {a b : α} :
    b ∈ s.zadd n a ↔ b = a ∨ b ∈ s := by
  have hperm := (List.perm_orderedInsert Ranked.le ⟨n, a⟩ (s.zrem a).entries).map (·.member)
  have hmem : b ∈ s.zadd n a ↔ b = a ∨ b ∈ s.zrem a := by
    rw [mem_def, members, zadd, hperm.mem_iff, List.map_cons, List.mem_cons]
    rfl
  rw [hmem, mem_zrem]
  tauto

@[simp] theorem mem_zaddAll {s : SortedSet α} {xs : List (Ranked α)} {b : α} :
    b ∈ s.zaddAll xs ↔ b ∈ xs.map (·.member) ∨ b ∈ s := by
  induction xs generalizing s with
  | nil => simp [zaddAll]
  | cons x xs ih =>
      have : (s.zaddAll (x :: xs)) = (s.zadd x.score x.member).zaddAll xs := rfl
      rw [this, ih, mem_zadd, List.map_cons, List.mem_cons]
      tauto

/-- A member is popped or left, and never both. -/
theorem mem_zpopmin {s : SortedSet α} {n : Nat} {a : α} :
    a ∈ s.zpopmin n ↔ a ∈ s ∧ a ∉ (s.lowest n).map (·.member) := by
  have hsplit : s.members = (s.lowest n).map (·.member) ++ (s.zpopmin n).members := by
    simp only [members, lowest, zpopmin, ← List.map_append, List.take_append_drop]
  have hnodup : ((s.lowest n).map (·.member) ++ (s.zpopmin n).members).Nodup :=
    hsplit ▸ s.nodup
  have hdisj := List.disjoint_of_nodup_append hnodup
  rw [mem_def, mem_def, hsplit, List.mem_append]
  constructor
  · exact fun h => ⟨.inr h, fun h' => hdisj h' h⟩
  · rintro ⟨h | h, hn⟩
    · exact absurd h hn
    · exact h

theorem mem_of_mem_lowest {s : SortedSet α} {n : Nat} {x : Ranked α} (h : x ∈ s.lowest n) :
    x.member ∈ s :=
  List.mem_map.mpr ⟨x, List.mem_of_mem_take h, rfl⟩

/-- The popped members are distinct. -/
theorem lowest_nodup (s : SortedSet α) (n : Nat) :
    ((s.lowest n).map (·.member)).Nodup :=
  s.nodup.sublist (List.Sublist.map _ (List.take_sublist _ _))

theorem zpopmin_zpopmin (s : SortedSet α) (m n : Nat) : (s.zpopmin m).zpopmin n = s.zpopmin (m + n) :=
  ext List.drop_drop

@[simp] theorem zpopmin_zero (s : SortedSet α) : s.zpopmin 0 = s := ext rfl

@[simp] theorem lowest_zero (s : SortedSet α) : s.lowest 0 = [] := List.take_zero

theorem zcard_zpopmin (s : SortedSet α) (n : Nat) : (s.zpopmin n).zcard = s.zcard - n :=
  List.length_drop

/-- A member has one entry. -/
theorem eq_of_member {s : SortedSet α} {x y : Ranked α} (hx : x ∈ s.entries) (hy : y ∈ s.entries)
    (h : x.member = y.member) : x = y := List.inj_on_of_nodup_map s.nodup hx hy h

theorem mem_entries_zpopmin {s : SortedSet α} {n : Nat} {x : Ranked α} (hx : x ∈ s.entries)
    (hn : x ∉ s.lowest n) : x ∈ (s.zpopmin n).entries := by
  have hsplit : s.entries = s.lowest n ++ (s.zpopmin n).entries := (List.take_append_drop n _).symm
  rw [hsplit, List.mem_append] at hx
  exact hx.resolve_left hn

theorem mem_entries_zadd_self (s : SortedSet α) (n : Nat) (m : α) :
    ⟨n, m⟩ ∈ (s.zadd n m).entries := by simp [zadd, List.mem_orderedInsert]

theorem mem_entries_zadd_ne {s : SortedSet α} {n : Nat} {m : α} {x : Ranked α} (h : x.member ≠ m) :
    x ∈ (s.zadd n m).entries ↔ x ∈ s.entries := by
  simp only [zadd, zrem, List.mem_orderedInsert, List.mem_filter, decide_eq_true_eq]
  constructor
  · rintro (rfl | hx)
    · exact absurd rfl h
    · exact hx.1
  · exact fun hx => .inr ⟨hx, h⟩

/-- Adding others does not move a member. -/
theorem mem_entries_zaddAll_ne {s : SortedSet α} {xs : List (Ranked α)} {x : Ranked α}
    (h : ∀ y ∈ xs, x.member ≠ y.member) : x ∈ (s.zaddAll xs).entries ↔ x ∈ s.entries := by
  induction xs generalizing s with
  | nil => exact Iff.rfl
  | cons y ys ih =>
      have hrest := ih (s := s.zadd y.score y.member) fun z hz => h z (List.mem_cons_of_mem _ hz)
      exact hrest.trans (mem_entries_zadd_ne (h y List.mem_cons_self))

/-- An entry after `ZADD` was added, or is that of another member. -/
theorem mem_entries_zaddAll {s : SortedSet α} {xs : List (Ranked α)} {x : Ranked α}
    (h : x ∈ (s.zaddAll xs).entries) :
    x ∈ xs ∨ x ∈ s.entries ∧ ∀ y ∈ xs, x.member ≠ y.member := by
  induction xs generalizing s with
  | nil => exact .inr ⟨h, by simp⟩
  | cons y ys ih =>
      rcases ih (s := s.zadd y.score y.member) h with hx | ⟨hx, hne⟩
      · exact .inl (List.mem_cons_of_mem _ hx)
      · by_cases hxy : x.member = y.member
        · have hsame := eq_of_member hx (mem_entries_zadd_self s y.score y.member) hxy
          exact .inl (hsame ▸ List.mem_cons_self)
        · refine .inr ⟨(mem_entries_zadd_ne hxy).mp hx, fun z hz => ?_⟩
          rcases List.mem_cons.mp hz with rfl | hz
          · exact hxy
          · exact hne z hz

/-- Who is popped: those with fewer than `n` entries before them. -/
theorem mem_lowest_iff {s : SortedSet α} {x : Ranked α} (hx : x ∈ s.entries) (n : Nat) :
    x ∈ s.lowest n ↔ s.entries.countP (fun y => y ≠ x ∧ Ranked.le y x) < n := by
  have hsorted := s.sorted
  have hnodup : s.entries.Nodup := List.Nodup.of_map _ s.nodup
  unfold lowest
  revert hx hsorted hnodup
  generalize s.entries = l
  intro hx hsorted hnodup
  induction l generalizing n with
  | nil => cases hx
  | cons y ys ih =>
      rw [List.pairwise_cons] at hsorted
      rw [List.nodup_cons] at hnodup
      cases n with
      | zero => simp
      | succ n =>
          rw [List.take_succ_cons, List.mem_cons, List.countP_cons]
          by_cases hxy : x = y
          · -- nothing is below the first entry
            subst hxy
            have hzero : ys.countP (fun z => z ≠ x ∧ Ranked.le z x) = 0 := by
              rw [List.countP_eq_zero]
              intro z hz
              simp only [ne_eq, decide_eq_true_eq, not_and]
              exact fun hne hle => hne (Ranked.le_antisymm hle (hsorted.1 z hz))
            rw [hzero]
            simp
          · have hmem : x ∈ ys := (List.mem_cons.mp hx).resolve_left hxy
            have hbelow : y ≠ x ∧ Ranked.le y x := ⟨fun h => hxy h.symm, hsorted.1 x hmem⟩
            have hrest := ih n hmem hsorted.2 hnodup.2
            rw [if_pos (by simpa using hbelow)]
            constructor
            · exact fun h => Nat.succ_lt_succ (hrest.mp (h.resolve_left hxy))
            · exact fun h => .inr (hrest.mpr (Nat.lt_of_succ_lt_succ h))

/-- The smaller score stands first. -/
theorem sublist_of_score_lt {s : SortedSet α} {x y : Ranked α} (hx : x ∈ s.entries)
    (hy : y ∈ s.entries) (h : x.score < y.score) : [x, y].Sublist s.entries := by
  have hne : x ≠ y := fun heq => by rw [heq] at h; exact Nat.lt_irrefl _ h
  have hsorted := s.sorted
  revert hx hy hsorted
  generalize s.entries = xs
  intro hx hy hsorted
  induction xs with
  | nil => cases hx
  | cons z zs ih =>
      obtain ⟨hfirst, hrest⟩ := List.pairwise_cons.mp hsorted
      rcases List.mem_cons.mp hx with rfl | hxzs
      · have hyzs := (List.mem_cons.mp hy).resolve_left (Ne.symm hne)
        exact (List.singleton_sublist.mpr hyzs).cons_cons x
      · rcases List.mem_cons.mp hy with rfl | hyzs
        · rcases hfirst x hxzs with hlt | ⟨heq, -⟩ <;> omega
        · exact (ih hxzs hyzs hrest).cons z

/-- A lone member that is popped and added again has not moved. -/
theorem zaddAll_lone {s : SortedSet α} {a : Ranked α} (h : s.entries = [a]) (n : Nat) :
    (s.zpopmin (n + 1)).zaddAll [a] = s := by
  have hempty : (s.zpopmin (n + 1)).entries = [] := by simp [zpopmin, h]
  refine ext ?_
  simp only [zaddAll, List.foldl_cons, List.foldl_nil, zadd, zrem, hempty, h, List.filter_nil,
    List.orderedInsert_nil]

end SortedSet

/-! ## Neighbours -/

/-- The neighbours of a list, two by two. -/
def pairUp {β : Type} : List β → List (β × β)
  | a :: b :: rest => (a, b) :: pairUp rest
  | _ => []

section PairUp

variable {β : Type}

theorem length_pairUp : ∀ l : List β, (pairUp l).length = l.length / 2
  | [] => by simp [pairUp]
  | [_] => by simp [pairUp]
  | _ :: _ :: rest => by
      rw [pairUp, List.length_cons, length_pairUp rest]
      simp only [List.length_cons]
      omega

theorem getElem?_pairUp : ∀ (l : List β) (i : Nat) (h : 2 * i < l.length) (h' : 2 * i + 1 < l.length),
    (pairUp l)[i]? = some (l[2 * i], l[2 * i + 1])
  | [], _, h, _ => by simp at h
  | [_], _, _, h' => by simp at h'
  | _ :: _ :: _, 0, _, _ => rfl
  | a :: b :: rest, i + 1, _, h' => by
      have hrest : 2 * i + 1 < rest.length := by
        simp only [List.length_cons] at h'
        omega
      exact getElem?_pairUp rest i (by omega) hrest

end PairUp

end VerityBackend.Store
