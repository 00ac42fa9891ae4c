/-
VerityBackend.Store.Turns — a sorted set whose two lowest members are put
back behind the others, again and again.

Turn `k` puts them back with the scores `T k` and `T k + 1`. Where the `T k`
are two apart the members go round in order (`members_turn`), so the pairs
that come to the head are those at the positions `2k` and `2k + 1` of the
first order, round and round. Where `T` is only known to grow, the two lowest
of neighbouring turns may have equal scores and change places; still each of
these pairs comes to the head (`head_turn`).
-/
import Mathlib.Data.List.Rotate
import Mathlib.Order.Monotone.Basic
import VerityBackend.Store.SortedSet

namespace VerityBackend.Store

variable {α : Type} [LinearOrder α]

namespace SortedSet

/-! ## Turns -/

/-- The two lowest members. -/
def head (s : SortedSet α) : Option (α × α) :=
  match s.entries with
  | a :: b :: _ => some (a.member, b.member)
  | _ => none

/-- The two lowest members get the scores `t` and `t + 1`. -/
def defer (s : SortedSet α) (t : Nat) : SortedSet α :=
  match s.entries with
  | a :: b :: _ => ((s.zpopmin 2).zadd t a.member).zadd (t + 1) b.member
  | _ => s

/-- The set after `k` turns. -/
def turn (T : Nat → Nat) (s : SortedSet α) : Nat → SortedSet α
  | 0 => s
  | k + 1 => (turn T s k).defer (T k)

section Entries

variable {s : SortedSet α} {a b : Ranked α} {rest : List (Ranked α)}

theorem head_of_entries (h : s.entries = a :: b :: rest) : s.head = some (a.member, b.member) := by
  rw [head, h]

theorem defer_of_entries (h : s.entries = a :: b :: rest) (t : Nat) :
    s.defer t = ((s.zpopmin 2).zadd t a.member).zadd (t + 1) b.member := by
  rw [defer, h]

/-- What is popped is in the rest no more. -/
theorem not_mem_zpopmin_two (h : s.entries = a :: b :: rest) :
    a.member ∉ s.zpopmin 2 ∧ b.member ∉ s.zpopmin 2 ∧ a.member ≠ b.member := by
  have hnodup := s.nodup
  rw [h, List.map_cons, List.map_cons, List.nodup_cons, List.nodup_cons] at hnodup
  have hrest : (s.zpopmin 2).members = rest.map (·.member) := by
    simp only [members, zpopmin, h, List.drop_succ_cons, List.drop_zero]
  refine ⟨?_, ?_, fun heq => hnodup.1 (heq ▸ List.mem_cons_self)⟩
  · rw [mem_def, hrest]
    exact fun hmem => hnodup.1 (List.mem_cons_of_mem _ hmem)
  · rw [mem_def, hrest]
    exact hnodup.2.1

theorem zrem_of_not_mem {m : α} (h : m ∉ s) : s.zrem m = s := by
  refine ext (List.filter_eq_self.mpr fun x hx => ?_)
  simp only [ne_eq, decide_not, Bool.not_eq_eq_eq_not, Bool.not_true, decide_eq_false_iff_not]
  rintro rfl
  exact h (List.mem_map.mpr ⟨x, hx, rfl⟩)

theorem mem_entries_zadd {m : α} (h : m ∉ s) (n : Nat) {x : Ranked α} :
    x ∈ (s.zadd n m).entries ↔ x = ⟨n, m⟩ ∨ x ∈ s.entries := by
  simp only [zadd, zrem_of_not_mem h, List.mem_orderedInsert]

/-- A member above all others goes to the end. -/
theorem entries_zadd_last {m : α} (h : m ∉ s) {n : Nat} (hs : ∀ x ∈ s.entries, x.score < n) :
    (s.zadd n m).entries = s.entries ++ [⟨n, m⟩] := by
  have hperm : (s.zadd n m).entries.Perm (s.entries ++ [⟨n, m⟩]) := by
    simp only [zadd, zrem_of_not_mem h]
    exact (List.perm_orderedInsert _ _ _).trans (List.perm_append_singleton _ _).symm
  refine hperm.eq_of_pairwise (fun _ _ _ _ => Ranked.le_antisymm) (s.zadd n m).sorted ?_
  refine List.pairwise_append.mpr ⟨s.sorted, List.pairwise_singleton _ _, fun x hx y hy => ?_⟩
  rw [List.mem_singleton.mp hy]
  exact .inl (hs x hx)

theorem members_zadd_last {m : α} (h : m ∉ s) {n : Nat} (hs : ∀ x ∈ s.entries, x.score < n) :
    (s.zadd n m).members = s.members ++ [m] := by
  simp only [members, entries_zadd_last h hs, List.map_append, List.map_cons, List.map_nil]

end Entries

section Members

variable {s : SortedSet α}

theorem entries_of_two (h : 2 ≤ s.zcard) : ∃ a b rest, s.entries = a :: b :: rest := by
  match hentries : s.entries with
  | [] => simp [zcard, hentries] at h
  | [_] => simp [zcard, hentries] at h
  | a :: b :: rest => exact ⟨a, b, rest, rfl⟩

theorem zcard_zadd {m : α} (h : m ∉ s) (n : Nat) : (s.zadd n m).zcard = s.zcard + 1 := by
  simp only [zcard, zadd, zrem_of_not_mem h, List.orderedInsert_length]

/-- A turn takes nobody out. -/
theorem mem_defer (htwo : 2 ≤ s.zcard) (t : Nat) :
    (s.defer t).zcard = s.zcard ∧ ∀ u, u ∈ s.defer t ↔ u ∈ s := by
  obtain ⟨a, b, rest, hentries⟩ := entries_of_two htwo
  obtain ⟨ha, hb, hne⟩ := not_mem_zpopmin_two hentries
  have hb' : b.member ∉ (s.zpopmin 2).zadd t a.member := by
    rw [mem_zadd, not_or]
    exact ⟨hne.symm, hb⟩
  rw [defer_of_entries hentries]
  refine ⟨?_, fun u => ?_⟩
  · rw [zcard_zadd hb', zcard_zadd ha]
    simp only [zcard, zpopmin, hentries, List.drop_succ_cons, List.drop_zero, List.length_cons]
  · have hlowest : (s.lowest 2).map (·.member) = [a.member, b.member] := by
      rw [lowest, hentries]
      rfl
    have hpopped : a.member ∈ s ∧ b.member ∈ s := by
      simp only [mem_def, members, hentries, List.map_cons]
      exact ⟨List.mem_cons_self, List.mem_cons_of_mem _ List.mem_cons_self⟩
    rw [mem_zadd, mem_zadd, mem_zpopmin, hlowest]
    constructor
    · rintro (rfl | rfl | h)
      · exact hpopped.2
      · exact hpopped.1
      · exact h.1
    · intro hu
      by_cases hb : u = b.member
      · exact .inl hb
      · by_cases ha : u = a.member
        · exact .inr (.inl ha)
        · exact .inr (.inr ⟨hu, by simp [ha, hb]⟩)

theorem mem_turn (htwo : 2 ≤ s.zcard) (T : Nat → Nat) (k : Nat) :
    (turn T s k).zcard = s.zcard ∧ ∀ u, u ∈ turn T s k ↔ u ∈ s := by
  induction k with
  | zero => exact ⟨rfl, fun _ => Iff.rfl⟩
  | succ k ih =>
      obtain ⟨hcard, hmem⟩ := mem_defer (htwo.trans_eq ih.1.symm) (T k)
      exact ⟨hcard.trans ih.1, fun u => (hmem u).trans (ih.2 u)⟩

end Members

/-! ## Turns two apart -/

section Fifo

variable {s : SortedSet α} {T : Nat → Nat}

/-- Every score is below `n`. -/
def Below (s : SortedSet α) (n : Nat) : Prop := ∀ x ∈ s.entries, x.score < n

theorem Below.defer {t : Nat} (h : s.Below t) (htwo : 2 ≤ s.zcard) :
    (s.defer t).Below (t + 2) ∧ (s.defer t).members = s.members.rotate 2 := by
  obtain ⟨a, b, rest, hentries⟩ := entries_of_two htwo
  obtain ⟨ha, hb, hne⟩ := not_mem_zpopmin_two hentries
  have hrest : (s.zpopmin 2).entries = rest := by
    simp only [zpopmin, hentries, List.drop_succ_cons, List.drop_zero]
  have hpopped : ∀ x ∈ (s.zpopmin 2).entries, x.score < t := by
    intro x hx
    rw [hrest] at hx
    exact h x (hentries ▸ List.mem_cons_of_mem _ (List.mem_cons_of_mem _ hx))
  have hb' : b.member ∉ (s.zpopmin 2).zadd t a.member := by
    rw [mem_zadd, not_or]
    exact ⟨hne.symm, hb⟩
  have hfirst : ∀ x ∈ ((s.zpopmin 2).zadd t a.member).entries, x.score < t + 1 := by
    intro x hx
    rcases (mem_entries_zadd ha t).mp hx with rfl | hx
    · exact Nat.lt_succ_self t
    · exact (hpopped x hx).trans (Nat.lt_succ_self t)
  rw [defer_of_entries hentries]
  constructor
  · intro x hx
    rcases (mem_entries_zadd hb' (t + 1)).mp hx with rfl | hx
    · exact Nat.lt_succ_self (t + 1)
    · exact (hfirst x hx).trans (Nat.lt_succ_self (t + 1))
  · have hmembers : (s.zpopmin 2).members = rest.map (·.member) := by rw [members, hrest]
    have hrotate : s.members.rotate (0 + 1 + 1) =
        rest.map (·.member) ++ [a.member] ++ [b.member] := by
      rw [members, hentries, List.map_cons, List.map_cons, List.rotate_cons_succ,
        List.cons_append, List.rotate_cons_succ, List.rotate_zero]
    rw [members_zadd_last hb' hfirst, members_zadd_last ha hpopped, hmembers]
    exact hrotate.symm

theorem members_turn (hs : s.Below (T 0)) (htwo : 2 ≤ s.zcard) (hT : ∀ i, T i + 2 ≤ T (i + 1))
    (k : Nat) :
    (turn T s k).Below (T k) ∧ (turn T s k).members = s.members.rotate (2 * k) := by
  induction k with
  | zero => exact ⟨hs, (List.rotate_zero _).symm⟩
  | succ k ih =>
      have hcard : 2 ≤ (turn T s k).zcard := by
        have hlength := congrArg List.length ih.2
        simp only [members, List.length_map, List.length_rotate] at hlength
        exact htwo.trans_eq hlength.symm
      obtain ⟨hbelow, hmembers⟩ := ih.1.defer hcard
      refine ⟨fun x hx => (hbelow x hx).trans_le (hT k), ?_⟩
      rw [turn, hmembers, ih.2, List.rotate_rotate, Nat.mul_succ]

theorem head_of_members {m : List α} (h : s.members = m) (htwo : 1 < m.length) :
    s.head = some (m[0], m[1]) := by
  subst h
  match hentries : s.entries with
  | [] => simp [members, hentries] at htwo
  | [_] => simp [members, hentries] at htwo
  | a :: b :: rest => simp [head_of_entries hentries, members, hentries]

/-- The heads are the pairs of the first order, round and round. -/
theorem head_turn_fifo (hs : s.Below (T 0)) (htwo : 2 ≤ s.zcard) (hT : ∀ i, T i + 2 ≤ T (i + 1))
    (k : Nat) :
    ∃ i j, ∃ (hi : i < s.members.length) (hj : j < s.members.length),
      i = 2 * k % s.members.length ∧ j = (i + 1) % s.members.length ∧
        (turn T s k).head = some (s.members[i], s.members[j]) := by
  have hlength : 2 ≤ s.members.length := by rwa [members, List.length_map]
  have hpos : 0 < s.members.length := by omega
  refine ⟨_, _, Nat.mod_lt _ hpos, Nat.mod_lt _ hpos, rfl, rfl, ?_⟩
  rw [head_of_members (members_turn hs htwo hT k).2 (by rw [List.length_rotate]; omega)]
  simp only [List.getElem_rotate, Nat.zero_add, Nat.mod_add_mod, Nat.add_comm 1]

end Fifo

/-! ## Turns in a growing order -/

section Sweep

variable {s : SortedSet α} {m : List α} {g : Nat → Nat} {T : Nat → Nat}

/-- Member `p` of the list has score `g p`, and there is no other member. -/
def Scored (s : SortedSet α) (m : List α) (g : Nat → Nat) : Prop :=
  ∀ x, x ∈ s.entries ↔ ∃ p, ∃ h : p < m.length, x = ⟨g p, m[p]⟩

/-- Both scores set. -/
def rescore (g : Nat → Nat) (p q t : Nat) (r : Nat) : Nat :=
  if r = p then t else if r = q then t + 1 else g r

/-- The two lowest members, by their places in the list. -/
theorem Scored.lowest (h : s.Scored m g) (hm : m.Nodup) {p q : Nat} (hp : p < m.length)
    (hq : q < m.length) (hne : p ≠ q) (hle : Ranked.le ⟨g p, m[p]⟩ (⟨g q, m[q]⟩ : Ranked α))
    (hlow : ∀ r (hr : r < m.length), r ≠ p → r ≠ q →
      Ranked.le ⟨g q, m[q]⟩ (⟨g r, m[r]⟩ : Ranked α)) :
    ∃ rest, s.entries = ⟨g p, m[p]⟩ :: ⟨g q, m[q]⟩ :: rest := by
  have hne' : (⟨g q, m[q]⟩ : Ranked α) ≠ ⟨g p, m[p]⟩ := by
    intro heq
    exact hne ((hm.getElem_inj_iff).mp (congrArg Ranked.member heq).symm)
  have hmemp : (⟨g p, m[p]⟩ : Ranked α) ∈ s.entries := (h _).mpr ⟨p, hp, rfl⟩
  have hmemq : (⟨g q, m[q]⟩ : Ranked α) ∈ s.entries.erase ⟨g p, m[p]⟩ :=
    (List.mem_erase_of_ne hne').mpr ((h _).mpr ⟨q, hq, rfl⟩)
  set rest := (s.entries.erase ⟨g p, m[p]⟩).erase ⟨g q, m[q]⟩ with hrest
  have hperm : s.entries.Perm (⟨g p, m[p]⟩ :: ⟨g q, m[q]⟩ :: rest) :=
    (List.perm_cons_erase hmemp).trans ((List.perm_cons_erase hmemq).cons _)
  have hnodup : (⟨g p, m[p]⟩ :: ⟨g q, m[q]⟩ :: rest : List (Ranked α)).Nodup :=
    hperm.nodup_iff.mp (List.Nodup.of_map _ s.nodup)
  rw [List.nodup_cons, List.nodup_cons] at hnodup
  have hothers : ∀ x ∈ rest, Ranked.le ⟨g q, m[q]⟩ x := by
    intro x hx
    have hx' : x ∈ s.entries := List.mem_of_mem_erase (List.mem_of_mem_erase hx)
    obtain ⟨r, hr, rfl⟩ := (h x).mp hx'
    refine hlow r hr ?_ ?_
    · rintro rfl
      exact hnodup.1 (List.mem_cons_of_mem _ hx)
    · rintro rfl
      exact hnodup.2.1 hx
  refine ⟨rest, hperm.eq_of_pairwise (fun _ _ _ _ => Ranked.le_antisymm) s.sorted ?_⟩
  refine List.Pairwise.cons (fun x hx => ?_) (List.Pairwise.cons hothers ?_)
  · rcases List.mem_cons.mp hx with rfl | hx
    · exact hle
    · exact Trans.trans hle (hothers x hx)
  · exact s.sorted.sublist ((List.erase_sublist).trans List.erase_sublist)

/-- What a turn makes of the scores. -/
theorem Scored.defer (h : s.Scored m g) (hm : m.Nodup) {p q : Nat} (hp : p < m.length)
    (hq : q < m.length) {rest : List (Ranked α)}
    (hentries : s.entries = ⟨g p, m[p]⟩ :: ⟨g q, m[q]⟩ :: rest) (t : Nat) :
    (s.defer t).Scored m (rescore g p q t) := by
  obtain ⟨ha, hb, hne⟩ := not_mem_zpopmin_two hentries
  have hb' : m[q] ∉ (s.zpopmin 2).zadd t m[p] := by
    rw [mem_zadd, not_or]
    exact ⟨hne.symm, hb⟩
  have hnodup := s.nodup
  rw [hentries, List.map_cons, List.map_cons, List.nodup_cons, List.nodup_cons] at hnodup
  have hpq : q ≠ p := by
    rintro rfl
    exact hne rfl
  have hrest : (s.zpopmin 2).entries = rest := by
    simp only [zpopmin, hentries, List.drop_succ_cons, List.drop_zero]
  have hmem (x : Ranked α) : x ∈ rest ↔ ∃ r, ∃ hr : r < m.length, r ≠ p ∧ r ≠ q ∧ x = ⟨g r, m[r]⟩ := by
    constructor
    · intro hx
      obtain ⟨r, hr, rfl⟩ := (h x).mp (hentries ▸ List.mem_cons_of_mem _ (List.mem_cons_of_mem _ hx))
      have hmap : m[r] ∈ rest.map (·.member) := List.mem_map.mpr ⟨_, hx, rfl⟩
      refine ⟨r, hr, ?_, ?_, rfl⟩
      · rintro rfl
        exact hnodup.1 (List.mem_cons_of_mem _ hmap)
      · rintro rfl
        exact hnodup.2.1 hmap
    · rintro ⟨r, hr, hrp, hrq, rfl⟩
      have hx := (h ⟨g r, m[r]⟩).mpr ⟨r, hr, rfl⟩
      rw [hentries, List.mem_cons, List.mem_cons] at hx
      rcases hx with heq | heq | hx
      · exact (hrp (hm.getElem_inj_iff.mp (congrArg Ranked.member heq))).elim
      · exact (hrq (hm.getElem_inj_iff.mp (congrArg Ranked.member heq))).elim
      · exact hx
  intro x
  rw [defer_of_entries hentries, mem_entries_zadd hb' (t + 1), mem_entries_zadd ha t, hrest, hmem]
  constructor
  · rintro (rfl | rfl | ⟨r, hr, hrp, hrq, rfl⟩)
    · exact ⟨q, hq, by simp [rescore, hpq]⟩
    · exact ⟨p, hp, by simp [rescore]⟩
    · exact ⟨r, hr, by simp [rescore, hrp, hrq]⟩
  · rintro ⟨r, hr, rfl⟩
    by_cases hrp : r = p
    · subst hrp
      exact .inr (.inl (by simp [rescore]))
    · by_cases hrq : r = q
      · subst hrq
        exact .inl (by simp [rescore, hpq])
      · exact .inr (.inr ⟨r, hr, hrp, hrq, by simp [rescore, hrp, hrq]⟩)

theorem Scored.congr (h : s.Scored m g) {g' : Nat → Nat} (heq : ∀ p < m.length, g' p = g p) :
    s.Scored m g' := by
  intro x
  rw [h x]
  constructor
  · rintro ⟨p, hp, rfl⟩
    exact ⟨p, hp, by rw [heq p hp]⟩
  · rintro ⟨p, hp, rfl⟩
    exact ⟨p, hp, by rw [heq p hp]⟩

/-- Two members below all others are the head, in one order or the other. -/
theorem Scored.pair (h : s.Scored m g) (hm : m.Nodup) {p q c : Nat} (hp : p < m.length)
    (hq : q < m.length) (hne : p ≠ q) (hpc : g p ≤ c) (hqc : g q ≤ c)
    (hlow : ∀ r < m.length, r ≠ p → r ≠ q → c < g r) (t : Nat) :
    (s.head = some (m[p], m[q]) ∨ s.head = some (m[q], m[p])) ∧
      ∃ g', (s.defer t).Scored m g' ∧ (∀ r, r ≠ p → r ≠ q → g' r = g r) ∧ t ≤ g' p ∧ t ≤ g' q := by
  rcases Std.Total.total (r := Ranked.le) (⟨g p, m[p]⟩ : Ranked α) ⟨g q, m[q]⟩ with hle | hle
  · obtain ⟨rest, hentries⟩ := h.lowest hm hp hq hne hle
      fun r hr hrp hrq => .inl (hqc.trans_lt (hlow r hr hrp hrq))
    refine ⟨.inl (head_of_entries hentries), _, h.defer hm hp hq hentries t, fun r hrp hrq => ?_, ?_, ?_⟩
    · simp [rescore, hrp, hrq]
    · simp [rescore]
    · simp [rescore, hne.symm]
  · obtain ⟨rest, hentries⟩ := h.lowest hm hq hp hne.symm hle
      fun r hr hrq hrp => .inl (hpc.trans_lt (hlow r hr hrp hrq))
    refine ⟨.inr (head_of_entries hentries), _, h.defer hm hq hp hentries t, fun r hrp hrq => ?_, ?_, ?_⟩
    · simp [rescore, hrp, hrq]
    · simp [rescore, hne]
    · simp [rescore]

/-- The scores after `k` turns of the first round. -/
def spread (T g : Nat → Nat) (k p : Nat) : Nat := if p < 2 * k then T (p / 2) + p % 2 else g p

/-- A set in its first order, before any turn. -/
structure Fresh (s : SortedSet α) (m : List α) (g T : Nat → Nat) : Prop where
  scored : s.Scored m g
  nodup : m.Nodup
  sorted : ∀ p q (hq : q < m.length) (hpq : p < q), Ranked.le ⟨g p, m[p]⟩ (⟨g q, m[q]⟩ : Ranked α)
  below : ∀ p < m.length, g p < T 0
  grows : StrictMono T

namespace Fresh

variable {k : Nat}

/-- The head of turn `k` of the first round. -/
theorem lowest (h : s.Fresh m g T) (hk : (turn T s k).Scored m (spread T g k))
    (hlt : 2 * k + 1 < m.length) :
    ∃ rest, (turn T s k).entries = ⟨spread T g k (2 * k), m[2 * k]⟩ ::
      ⟨spread T g k (2 * k + 1), m[2 * k + 1]⟩ :: rest := by
  have hlate (p : Nat) (hp : 2 * k ≤ p) : spread T g k p = g p := if_neg (by omega)
  refine hk.lowest h.nodup (by omega) hlt (by omega) ?_ fun r hr hrp hrq => ?_
  · rw [hlate _ (Nat.le_refl _), hlate _ (by omega)]
    exact h.sorted _ _ hlt (by omega)
  · rw [hlate _ (by omega)]
    by_cases hrk : r < 2 * k
    · left
      have hT : T 0 ≤ T (r / 2) := h.grows.monotone (Nat.zero_le _)
      have hg := h.below (2 * k + 1) hlt
      simp only [spread, if_pos hrk]
      omega
    · rw [hlate _ (by omega)]
      exact h.sorted _ _ hr (by omega)

theorem scored_turn (h : s.Fresh m g T) (hk : 2 * k ≤ m.length) :
    (turn T s k).Scored m (spread T g k) := by
  induction k with
  | zero => exact h.scored.congr fun p _ => if_neg (by omega)
  | succ k ih =>
      have hscored := ih (by omega)
      obtain ⟨rest, hentries⟩ := h.lowest hscored (by omega)
      refine (hscored.defer h.nodup (by omega) (by omega) hentries (T k)).congr fun p _ => ?_
      simp only [rescore, spread]
      split_ifs
      all_goals first
        | omega
        | (subst p; rw [Nat.mul_div_cancel_left k (by omega), Nat.mul_mod_right]; rfl)
        | (subst p; rw [show (2 * k + 1) / 2 = k by omega, show (2 * k + 1) % 2 = 1 by omega])

theorem head_turn_even (h : s.Fresh m g T) (hlt : 2 * k + 1 < m.length) :
    (turn T s k).head = some (m[2 * k], m[2 * k + 1]) := by
  obtain ⟨rest, hentries⟩ := h.lowest (h.scored_turn (by omega)) hlt
  exact head_of_entries hentries

end Fresh

/-- In the second round of `2 * c + 1` members, when its first `j` turns are
over. -/
structure Wrapped (T : Nat → Nat) (c j : Nat) (g : Nat → Nat) : Prop where
  ahead : ∀ p, 2 * j ≤ p + 1 → p < 2 * c → g p = T (p / 2) + p % 2
  last : g (2 * c) = T c
  behind : ∀ p, p + 1 < 2 * j → T c < g p

namespace Fresh

variable {c : Nat}

/-- The last member meets the first. -/
theorem wraps (h : s.Fresh m g T) (hlength : m.length = 2 * c + 1) (hc : 0 < c) :
    (turn T s c).head = some (m[2 * c], m[0]) ∧
      ∃ g', (turn T s (c + 1)).Scored m g' ∧ Wrapped T c 1 g' := by
  have hscored := h.scored_turn (k := c) (by omega)
  have hlast : spread T g c (2 * c) = g (2 * c) := if_neg (by omega)
  have hearly (p : Nat) (hp : p < 2 * c) : spread T g c p = T (p / 2) + p % 2 := if_pos hp
  have hbelow := h.below (2 * c) (by omega)
  obtain ⟨rest, hentries⟩ := hscored.lowest h.nodup (p := 2 * c) (q := 0) (by omega) (by omega)
    (by omega) (.inl (by rw [hlast, hearly 0 (by omega)]; simpa using hbelow))
    fun r hr hrp hrq => .inl (by
      rw [hearly 0 (by omega), hearly r (by omega)]
      simp only [Nat.zero_div, Nat.zero_mod]
      rcases Nat.eq_zero_or_pos (r / 2) with hr2 | hr2
      · rw [hr2]
        omega
      · have := h.grows hr2
        omega)
  refine ⟨head_of_entries hentries, _, hscored.defer h.nodup (by omega) (by omega) hentries (T c),
    ⟨fun p hp hpc => ?_, ?_, fun p hp => ?_⟩⟩
  · rw [rescore, if_neg (by omega), if_neg (by omega), hearly p hpc]
  · rw [rescore, if_pos rfl]
  · obtain rfl : p = 0 := by omega
    rw [rescore, if_neg (by omega), if_pos rfl]
    exact Nat.lt_succ_self _

end Fresh

/-- A later turn of the second round: the second of a pair meets the first
of the next one. -/
theorem Wrapped.meets {c j : Nat} (hgrow : StrictMono T) (hm : m.Nodup)
    (hlength : m.length = 2 * c + 1) (hscored : s.Scored m g) (hw : Wrapped T c j g) (hj : 0 < j)
    (hjc : j ≤ c) (t : Nat) (ht : T c < t) :
    (s.head = some (m[2 * j - 1], m[2 * j]) ∨ s.head = some (m[2 * j], m[2 * j - 1])) ∧
      ∃ g', (s.defer t).Scored m g' ∧ (j < c → Wrapped T c (j + 1) g') := by
  have hprev : T (j - 1) < T j := hgrow (by omega)
  have hTc : T j ≤ T c := hgrow.monotone hjc
  have hfirst : g (2 * j - 1) ≤ T j := by
    rw [hw.ahead (2 * j - 1) (by omega) (by omega), show (2 * j - 1) / 2 = j - 1 by omega]
    omega
  have hsecond : g (2 * j) ≤ T j := by
    rcases hjc.eq_or_lt with rfl | hlt
    · exact hw.last.le
    · rw [hw.ahead (2 * j) (by omega) (by omega), Nat.mul_div_cancel_left j (by omega)]
      omega
  obtain ⟨hhead, g', hg', hsame, hp, hq⟩ := hscored.pair hm (p := 2 * j - 1) (q := 2 * j)
    (by omega) (by omega) (by omega) hfirst hsecond (fun r hr hrp hrq => by
      rcases Nat.lt_or_ge (r + 1) (2 * j) with hlt | hge
      · exact hTc.trans_lt (hw.behind r hlt)
      · rcases Nat.lt_or_ge r (2 * c) with hrc | hrc
        · rw [hw.ahead r hge hrc]
          rcases Nat.lt_or_ge j (r / 2) with hjr | hjr
          · have := hgrow hjr
            omega
          · rw [show r / 2 = j by omega]
            omega
        · obtain rfl : r = 2 * c := by omega
          rw [hw.last]
          exact hgrow (by omega)) t
  refine ⟨hhead, g', hg', fun hlt => ⟨fun p hp' hpc => ?_, ?_, fun p hp' => ?_⟩⟩
  · rw [hsame p (by omega) (by omega)]
    exact hw.ahead p (by omega) hpc
  · rw [hsame _ (by omega) (by omega)]
    exact hw.last
  · rcases Nat.lt_or_ge (p + 1) (2 * j) with hold | hnew
    · rw [hsame p (by omega) (by omega)]
      exact hw.behind p hold
    · obtain rfl | rfl : p = 2 * j - 1 ∨ p = 2 * j := by omega
      · exact ht.trans_le hp
      · exact ht.trans_le hq

namespace Fresh

variable {c : Nat}

theorem wrapped_turn (h : s.Fresh m g T) (hlength : m.length = 2 * c + 1) {j : Nat} (hj : 0 < j)
    (hjc : j ≤ c) : ∃ g', (turn T s (c + j)).Scored m g' ∧ Wrapped T c j g' := by
  induction j with
  | zero => omega
  | succ j ih =>
      rcases Nat.eq_zero_or_pos j with rfl | hpos
      · exact (h.wraps hlength (by omega)).2
      · obtain ⟨g', hg', hw⟩ := ih hpos (by omega)
        obtain ⟨-, g'', hg'', hnext⟩ := hw.meets h.grows h.nodup hlength hg' hpos (by omega)
          (T (c + j)) (h.grows (by omega))
        exact ⟨g'', hg'', hnext (by omega)⟩

/-- Every pair at an even place, and every pair of neighbours in a round of
odd length, comes to the head. -/
theorem head_turn (h : s.Fresh m g T) (htwo : 2 ≤ m.length) {i j : Nat} (hi : i < m.length)
    (hj : j < m.length) (hij : j = (i + 1) % m.length) (hround : i % 2 = 0 ∨ m.length % 2 = 1) :
    ∃ k, (turn T s k).head = some (m[i], m[j]) ∨ (turn T s k).head = some (m[j], m[i]) := by
  rcases Nat.mod_two_eq_zero_or_one i with heven | hodd
  · rcases Nat.lt_or_ge (i + 1) m.length with hlt | hge
    · obtain rfl : j = i + 1 := by rw [hij, Nat.mod_eq_of_lt hlt]
      have hk : 2 * (i / 2) = i := by omega
      refine ⟨i / 2, .inl ?_⟩
      have hhead := h.head_turn_even (k := i / 2) (by omega)
      simpa only [hk] using hhead
    · have hlast : i + 1 = m.length := by omega
      obtain rfl : j = 0 := by rw [hij, hlast, Nat.mod_self]
      refine ⟨i / 2, .inl ?_⟩
      have hhead := (h.wraps (c := i / 2) (by omega) (by omega)).1
      have hk : 2 * (i / 2) = i := by omega
      simpa only [hk] using hhead
  · have hlength : m.length = 2 * (m.length / 2) + 1 := by omega
    have hlt : i + 1 < m.length := by omega
    obtain rfl : j = i + 1 := by rw [hij, Nat.mod_eq_of_lt hlt]
    have hplace : 2 * ((i + 1) / 2) = i + 1 := by omega
    obtain ⟨g', hg', hw⟩ := h.wrapped_turn hlength (j := (i + 1) / 2) (by omega) (by omega)
    refine ⟨m.length / 2 + (i + 1) / 2, ?_⟩
    have hhead := (hw.meets h.grows h.nodup hlength hg' (by omega) (by omega)
      (T (m.length / 2) + 1) (Nat.lt_succ_self _)).1
    simpa only [hplace, Nat.add_sub_cancel] using hhead

end Fresh

/-- A set whose scores are all below the first turn. -/
theorem fresh_of_below (hs : s.Below (T 0)) (hT : StrictMono T) :
    s.Fresh s.members (fun p => (s.entries.map (·.score)).getD p 0) T := by
  have hentry (p : Nat) (hp : p < s.members.length) (hp' : p < s.entries.length) :
      (⟨(s.entries.map (·.score)).getD p 0, s.members[p]⟩ : Ranked α) = s.entries[p] := by
    simp [members, hp']
  have hlength : s.members.length = s.entries.length := by rw [members, List.length_map]
  refine ⟨fun x => ⟨fun hx => ?_, ?_⟩, s.nodup, fun p q hq hpq => ?_, fun p hp => ?_, hT⟩
  · obtain ⟨p, hp, rfl⟩ := List.mem_iff_getElem.mp hx
    exact ⟨p, hlength ▸ hp, (hentry p (hlength ▸ hp) hp).symm⟩
  · rintro ⟨p, hp, rfl⟩
    rw [hentry p hp (hlength ▸ hp)]
    exact List.getElem_mem _
  · rw [hentry p (by omega) (by omega), hentry q hq (by omega)]
    exact List.pairwise_iff_getElem.mp s.sorted p q (by omega) (by omega) hpq
  · have hp' : p < s.entries.length := hlength ▸ hp
    have hscore := hs s.entries[p] (List.getElem_mem hp')
    simpa [hp'] using hscore

end Sweep

end SortedSet

end VerityBackend.Store
