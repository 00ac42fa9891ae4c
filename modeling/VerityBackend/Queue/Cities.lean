/-
VerityBackend.Queue.Cities — the cities of queue keys.

`normalizeQueueCity` trims, lower-cases and replaces in two passes what is
no letter and no digit. What comes out are the words of `CITY_PATTERN`, and
these come out as they are; none has a colon, so the key of a queue can be
split again.
-/
import Mathlib.Computability.Language
import Mathlib.Data.List.DropRight
import VerityBackend.Queue.Service

namespace VerityBackend.Queue

open scoped Computability

/-! ## The pattern -/

/-- `[a-z0-9]`. -/
def CITY_CHAR : Language Char := {w | ∃ c, isSlugChar c = true ∧ w = [c]}

/-- `[a-z0-9]+`. -/
def CITY_WORD : Language Char := CITY_CHAR * CITY_CHAR∗

/-- `[a-z0-9]+(-[a-z0-9]+)*`. -/
def CITY_PATTERN : Language Char := CITY_WORD * (({['-']} : Language Char) * CITY_WORD)∗

/-- The pattern, read from the left. -/
inductive IsSlug : List Char → Prop
  | last {c : Char} (h : isSlugChar c = true) : IsSlug [c]
  | letter {c : Char} {cs : List Char} (h : isSlugChar c = true) (rest : IsSlug cs) : IsSlug (c :: cs)
  | dash {c : Char} {cs : List Char} (h : isSlugChar c = true) (rest : IsSlug cs) :
      IsSlug (c :: '-' :: cs)

theorem mem_CITY_WORD {cs : List Char} :
    cs ∈ CITY_WORD ↔ cs ≠ [] ∧ ∀ c ∈ cs, isSlugChar c = true := by
  constructor
  · rintro ⟨w, ⟨c, hc, rfl⟩, v, ⟨ws, rfl, hws⟩, rfl⟩
    refine ⟨List.cons_ne_nil _ _, List.forall_mem_cons.mpr ⟨hc, fun d hd => ?_⟩⟩
    obtain ⟨w, hw, hd⟩ := List.mem_flatten.mp hd
    obtain ⟨c', hc', rfl⟩ := hws w hw
    rwa [List.mem_singleton.mp hd]
  · rintro ⟨hne, hall⟩
    obtain ⟨c, cs, rfl⟩ := List.exists_cons_of_ne_nil hne
    obtain ⟨hc, hcs⟩ := List.forall_mem_cons.mp hall
    have hflat : cs = (cs.map fun d => [d]).flatten := by
      rw [← List.flatMap_def]
      exact (List.flatMap_pure_eq_map id cs).symm ▸ (List.map_id cs).symm
    refine ⟨[c], ⟨c, hc, rfl⟩, cs, ⟨cs.map fun d => [d], hflat, fun w hw => ?_⟩, rfl⟩
    obtain ⟨d, hd, rfl⟩ := List.mem_map.mp hw
    exact ⟨d, hcs d hd, rfl⟩

/-- A word, and slugs after dashes, are a slug. -/
theorem isSlug_word_append {w rest : List Char} (hne : w ≠ [])
    (hw : ∀ c ∈ w, isSlugChar c = true) (hrest : rest = [] ∨ ∃ cs, rest = '-' :: cs ∧ IsSlug cs) :
    IsSlug (w ++ rest) := by
  induction w with
  | nil => exact absurd rfl hne
  | cons c w ih =>
      obtain ⟨hc, hw⟩ := List.forall_mem_cons.mp hw
      by_cases hnil : w = []
      · subst hnil
        rcases hrest with rfl | ⟨cs, rfl, hcs⟩
        · exact .last hc
        · exact .dash hc hcs
      · exact .letter hc (ih hnil hw)

/-- Words, each with a dash before it. -/
theorem isSlug_dashed_words {vs : List (List Char)}
    (h : ∀ v ∈ vs, ∃ w, v = '-' :: w ∧ w ≠ [] ∧ ∀ c ∈ w, isSlugChar c = true) :
    vs.flatten = [] ∨ ∃ cs, vs.flatten = '-' :: cs ∧ IsSlug cs := by
  induction vs with
  | nil => exact .inl rfl
  | cons v vs ih =>
      obtain ⟨⟨w, rfl, hne, hall⟩, hvs⟩ := List.forall_mem_cons.mp h
      exact .inr ⟨_, rfl, isSlug_word_append hne hall (ih hvs)⟩

theorem mem_CITY_PATTERN {cs : List Char} : cs ∈ CITY_PATTERN ↔ IsSlug cs := by
  constructor
  · rintro ⟨w, hw, v, ⟨vs, rfl, hvs⟩, rfl⟩
    obtain ⟨hne, hall⟩ := mem_CITY_WORD.mp hw
    refine isSlug_word_append hne hall (isSlug_dashed_words ?_)
    rintro v hv
    obtain ⟨d, hd, w, hw, rfl⟩ := hvs v hv
    obtain rfl : d = ['-'] := hd
    exact ⟨w, rfl, mem_CITY_WORD.mp hw⟩
  · intro h
    induction h with
    | @last c hc =>
        exact ⟨[c], mem_CITY_WORD.mpr ⟨List.cons_ne_nil _ _, by simpa using hc⟩, [],
          Language.nil_mem_kstar _, rfl⟩
    | @letter c cs hc hcs ih =>
        obtain ⟨w, hw, v, hv, rfl⟩ := ih
        obtain ⟨hne, hall⟩ := mem_CITY_WORD.mp hw
        exact ⟨c :: w, mem_CITY_WORD.mpr ⟨List.cons_ne_nil _ _, List.forall_mem_cons.mpr ⟨hc, hall⟩⟩,
          v, hv, rfl⟩
    | @dash c cs hc hcs ih =>
        obtain ⟨w, hw, v, ⟨vs, rfl, hvs⟩, rfl⟩ := ih
        refine ⟨[c], mem_CITY_WORD.mpr ⟨List.cons_ne_nil _ _, by simpa using hc⟩, '-' :: w ++ vs.flatten,
          ⟨('-' :: w) :: vs, rfl, List.forall_mem_cons.mpr ⟨⟨['-'], rfl, w, hw, rfl⟩, hvs⟩⟩, rfl⟩

/-! ## The two replacements -/

/-- What the first replacement leaves: no dash is followed by another. -/
inductive Dashed : List Char → Prop
  | nil : Dashed []
  | letter {c : Char} {cs : List Char} (h : isSlugChar c = true) (rest : Dashed cs) : Dashed (c :: cs)
  | dash {cs : List Char} (h : cs.head? ≠ some '-') (rest : Dashed cs) : Dashed ('-' :: cs)

theorem dashed_slug (cs : List Char) : Dashed (slug cs) := by
  induction cs with
  | nil => exact .nil
  | cons c cs ih =>
      unfold slug
      split
      · next hc => exact .letter hc ih
      · split
        · next rest h => exact h ▸ ih
        · next rest h =>
            refine .dash (fun hhead => ?_) ih
            obtain ⟨rest, hrest⟩ := List.head?_eq_some_iff.mp hhead
            exact h rest hrest

theorem ne_dash_of_isSlugChar {c : Char} (h : isSlugChar c = true) : c ≠ '-' := by
  rintro rfl
  exact absurd h (by decide)

/-- Without the dashes at the end. -/
def stripEnd (cs : List Char) : List Char := cs.rdropWhile (· = '-')

theorem stripDashes_eq (cs : List Char) : stripDashes cs = stripEnd (cs.dropWhile (· = '-')) := rfl

theorem stripEnd_letter {c : Char} (h : isSlugChar c = true) (cs : List Char) :
    stripEnd (c :: cs) = c :: stripEnd cs := by
  have hc : decide (c = '-') = false := decide_eq_false (ne_dash_of_isSlugChar h)
  unfold stripEnd List.rdropWhile
  rw [List.reverse_cons, List.dropWhile_append]
  split
  · next hempty =>
      rw [List.dropWhile_cons_of_neg (by simpa using hc), List.isEmpty_iff.mp hempty]
      rfl
  · rw [List.reverse_append]
    rfl

theorem stripEnd_dash (cs : List Char) :
    stripEnd ('-' :: cs) = if stripEnd cs = [] then [] else '-' :: stripEnd cs := by
  unfold stripEnd List.rdropWhile
  rw [List.reverse_cons, List.dropWhile_append]
  by_cases hempty : cs.reverse.dropWhile (· = '-') = []
  · rw [hempty]
    rfl
  · rw [if_neg (by simpa using hempty), if_neg (by simpa using hempty), List.reverse_append]
    rfl

/-- The beginning stays. -/
theorem head?_stripEnd {cs : List Char} (h : stripEnd cs ≠ []) : (stripEnd cs).head? = cs.head? := by
  obtain ⟨rest, hrest⟩ := List.rdropWhile_prefix (· = '-') cs
  obtain ⟨c, s, hs⟩ := List.exists_cons_of_ne_nil h
  rw [hs, ← hrest]
  change _ = (stripEnd cs ++ rest).head?
  rw [hs]
  rfl

/-- Without the dashes at its end, it is a slug, or a slug after a dash. -/
theorem stripEnd_dashed {cs : List Char} (h : Dashed cs) :
    stripEnd cs = [] ∨ IsSlug (stripEnd cs) ∨ ∃ s, stripEnd cs = '-' :: s ∧ IsSlug s := by
  induction h with
  | nil => exact .inl rfl
  | letter hc _ ih =>
      right; left
      rw [stripEnd_letter hc]
      rcases ih with hnil | hslug | ⟨s, hdash, hs⟩
      · rw [hnil]
        exact .last hc
      · exact .letter hc hslug
      · rw [hdash]
        exact .dash hc hs
  | @dash ds hhead _ ih =>
      rw [stripEnd_dash]
      rcases ih with hnil | hslug | ⟨s, hdash, hs⟩
      · exact .inl (if_pos hnil)
      · refine .inr (.inr ⟨_, if_neg ?_, hslug⟩)
        intro hnil
        rw [hnil] at hslug
        cases hslug
      · have hne : stripEnd ds ≠ [] := by rw [hdash]; exact List.cons_ne_nil _ _
        exact absurd (by rw [← head?_stripEnd hne, hdash]; rfl) hhead

/-- **The image**: nothing is left, or a slug. -/
theorem stripDashes_slug (cs : List Char) :
    stripDashes (slug cs) = [] ∨ IsSlug (stripDashes (slug cs)) := by
  suffices ∀ ds, Dashed ds → ds.head? ≠ some '-' → stripEnd ds = [] ∨ IsSlug (stripEnd ds) by
    rw [stripDashes_eq]
    have hdashed := dashed_slug cs
    revert hdashed
    generalize slug cs = ds
    intro h
    cases h with
    | nil => exact .inl rfl
    | letter hc hrest =>
        rw [List.dropWhile_cons_of_neg (by simpa using ne_dash_of_isSlugChar hc)]
        exact this _ (.letter hc hrest) (by simpa using ne_dash_of_isSlugChar hc)
    | @dash ds hhead hrest =>
        have hdrop : ('-' :: ds).dropWhile (· = '-') = ds := by
          rw [List.dropWhile_cons_of_pos (by decide)]
          cases ds with
          | nil => rfl
          | cons d ds => exact List.dropWhile_cons_of_neg (by simpa using hhead)
        rw [hdrop]
        exact this ds hrest hhead
  intro ds hds hhead
  rcases stripEnd_dashed hds with hnil | hslug | ⟨s, hdash, -⟩
  · exact .inl hnil
  · exact .inr hslug
  · have hne : stripEnd ds ≠ [] := by rw [hdash]; exact List.cons_ne_nil _ _
    exact absurd (by rw [← head?_stripEnd hne, hdash]; rfl) hhead

/-! ## Slugs stay -/

theorem IsSlug.chars {cs : List Char} (h : IsSlug cs) : ∀ c ∈ cs, isSlugChar c = true ∨ c = '-' := by
  induction h with
  | last hc => simpa using .inl hc
  | letter hc _ ih => exact List.forall_mem_cons.mpr ⟨.inl hc, ih⟩
  | dash hc _ ih => exact List.forall_mem_cons.mpr ⟨.inl hc, List.forall_mem_cons.mpr ⟨.inr rfl, ih⟩⟩

theorem IsSlug.exists_letter {cs : List Char} (h : IsSlug cs) :
    ∃ c rest, cs = c :: rest ∧ isSlugChar c = true := by
  cases h with
  | last hc => exact ⟨_, _, rfl, hc⟩
  | letter hc _ => exact ⟨_, _, rfl, hc⟩
  | dash hc _ => exact ⟨_, _, rfl, hc⟩

theorem slug_of_isSlug {cs : List Char} (h : IsSlug cs) : slug cs = cs := by
  induction h with
  | last hc => simp [slug, hc]
  | letter hc _ ih => simp [slug, hc, ih]
  | @dash c cs hc hcs ih =>
      obtain ⟨d, rest, rfl, hd⟩ := hcs.exists_letter
      have hdash : slug ('-' :: d :: rest) = '-' :: d :: rest := by
        rw [slug, if_neg (by decide), ih]
        split
        · next rest' heq =>
            obtain ⟨rfl, -⟩ := List.cons.inj heq
            exact absurd hd (by decide)
        · rfl
      rw [slug, if_pos hc, hdash]

theorem stripEnd_of_isSlug {cs : List Char} (h : IsSlug cs) : stripEnd cs = cs := by
  induction h with
  | last hc => rw [stripEnd_letter hc]; rfl
  | letter hc _ ih => rw [stripEnd_letter hc, ih]
  | dash hc hcs ih =>
      obtain ⟨d, rest, rfl, -⟩ := hcs.exists_letter
      rw [stripEnd_letter hc, stripEnd_dash, ih, if_neg (List.cons_ne_nil _ _)]

theorem stripDashes_of_isSlug {cs : List Char} (h : IsSlug cs) : stripDashes cs = cs := by
  obtain ⟨c, rest, rfl, hc⟩ := h.exists_letter
  rw [stripDashes_eq, List.dropWhile_cons_of_neg (by simpa using ne_dash_of_isSlugChar hc),
    stripEnd_of_isSlug h]

/-- The characters of a slug are no white space, and are lower case. -/
theorem slugChar_plain {c : Char} (h : isSlugChar c = true ∨ c = '-') :
    isJsSpace c = false ∧ jsLower c = [c] := by
  have hrange : (97 ≤ c.toNat ∧ c.toNat ≤ 122) ∨ (48 ≤ c.toNat ∧ c.toNat ≤ 57) ∨ c.toNat = 45 := by
    rcases h with h | rfl
    · simp only [isSlugChar, Bool.or_eq_true, Bool.and_eq_true, decide_eq_true_eq, Char.le_def,
        UInt32.le_iff_toNat_le] at h
      rcases h with h | h
      · exact .inl h
      · exact .inr (.inl h)
    · exact .inr (.inr rfl)
  constructor
  · simp only [isJsSpace, Bool.or_eq_false_iff, Bool.and_eq_false_iff, decide_eq_false_iff_not,
      beq_eq_false_iff_ne, ne_eq]
    omega
  · have hlower : c.toLower = c := by
      have hupper : ¬('A'.val ≤ c.val ∧ c.val ≤ 'Z'.val) := by
        simp only [UInt32.le_iff_toNat_le]
        change ¬(65 ≤ c.toNat ∧ c.toNat ≤ 90)
        omega
      exact dif_neg hupper
    unfold jsLower
    rw [if_neg (by omega), if_neg (by omega), hlower]

theorem jsTrim_of_plain {s : String} (h : ∀ c ∈ s.toList, isJsSpace c = false) : jsTrim s = s := by
  have hdrop : ∀ cs : List Char, (∀ c ∈ cs, isJsSpace c = false) → cs.dropWhile isJsSpace = cs := by
    intro cs hcs
    cases cs with
    | nil => rfl
    | cons c cs => exact List.dropWhile_cons_of_neg (by simp [hcs c (.head _)])
  unfold jsTrim
  rw [hdrop _ h, hdrop _ fun c hc => h c (List.mem_reverse.mp hc), List.reverse_reverse,
    String.ofList_toList]

theorem normalizeQueueCity_of_isSlug {value : String} (h : IsSlug value.toList) :
    normalizeQueueCity (.str value) = some value := by
  have htrim : jsTrim value = value := jsTrim_of_plain fun c hc => (slugChar_plain (h.chars c hc)).1
  have hlower : value.toList.flatMap jsLower = value.toList := by
    rw [List.flatMap_congr fun c hc => (slugChar_plain (h.chars c hc)).2, List.flatMap_singleton']
  have hne : value.toList ≠ [] := by
    obtain ⟨c, rest, hcs, -⟩ := h.exists_letter
    rw [hcs]
    exact List.cons_ne_nil _ _
  unfold normalizeQueueCity
  simp only [htrim, hlower, slug_of_isSlug h, stripDashes_of_isSlug h, if_neg hne,
    String.ofList_toList]

/-- Every city that comes out is a slug. -/
theorem isSlug_of_normalizeQueueCity {value : Unknown} {city : String}
    (h : normalizeQueueCity value = some city) : IsSlug city.toList := by
  unfold normalizeQueueCity at h
  split at h
  · next value =>
      dsimp only at h
      split at h
      · cases h
      · next hne =>
          obtain rfl := Option.some.inj h
          rw [String.toList_ofList]
          exact (stripDashes_slug _).resolve_left hne
  · cases h

/-! ## The key of a queue -/

/-- The city of a key is what stands before the colon. -/
theorem cityOf_key {city : String} (h : IsSlug city.toList) (preferences : String) :
    cityOf (city ++ ":" ++ preferences) = city := by
  have hcolon : ∀ c ∈ city.toList, decide (c ≠ ':') = true := by
    intro c hc
    rcases h.chars c hc with hletter | rfl
    · refine decide_eq_true fun heq => ?_
      rw [heq] at hletter
      exact absurd hletter (by decide)
    · decide
  have hkey : (city ++ ":" ++ preferences).toList = city.toList ++ ':' :: preferences.toList := by
    simp
  unfold cityOf
  rw [hkey, List.takeWhile_append_of_pos hcolon, List.takeWhile_cons_of_neg (by decide),
    List.append_nil, String.ofList_toList]

/-- `null` is no string. -/
def Unknown.ofCity : Option String → Unknown
  | some city => .str city
  | none => .other

/-- `normalizeQueueCity` is a projection onto the words of the pattern, and
the key of a queue keeps the city apart. -/
structure Projects (value preferences : String) : Prop where
  image : ∀ city, normalizeQueueCity (.str value) = some city → city.toList ∈ CITY_PATTERN
  idempotent : normalizeQueueCity (.ofCity (normalizeQueueCity (.str value))) =
    normalizeQueueCity (.str value)
  fixed : value.toList ∈ CITY_PATTERN → normalizeQueueCity (.str value) = some value
  split : ∀ key, buildQueueKey value preferences = .ok key →
    normalizeQueueCity (.str value) = some (cityOf key)

/-- **Cities are projected onto slugs.** -/
theorem normalizeQueueCity_projects (value preferences : String) : Projects value preferences where
  image city h := mem_CITY_PATTERN.mpr (isSlug_of_normalizeQueueCity h)
  idempotent := by
    cases h : normalizeQueueCity (.str value) with
    | none => rfl
    | some city => exact normalizeQueueCity_of_isSlug (isSlug_of_normalizeQueueCity h)
  fixed h := normalizeQueueCity_of_isSlug (mem_CITY_PATTERN.mp h)
  split key h := by
    unfold buildQueueKey at h
    split at h
    · next city hcity =>
        obtain rfl := Except.ok.inj h
        rw [hcity, cityOf_key (isSlug_of_normalizeQueueCity hcity)]
    · cases h

example : normalizeQueueCity (.str "  São Paulo--SP ") = some "s-o-paulo-sp" := by decide +kernel

end VerityBackend.Queue
