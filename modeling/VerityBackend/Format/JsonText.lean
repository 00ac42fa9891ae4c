/-
VerityBackend.Format.JsonText — the strings and numbers of JSON texts.

A text is a list of UTF-16 code units, lone surrogates included. A string is
quoted as `JSON.stringify` does it, and `unescape` reads it back up to the
closing quote (`unescape_quoted`). A number is the shortest decimal of a
finite double, and is written in one of the four shapes of
`Number.prototype.toString`; the text determines the digits and the place of
the point (`Number.text_unique`), whatever it is followed by in a JSON text.
-/
import Mathlib.Data.List.DropRight
import Mathlib.Data.Nat.Digits.Defs

namespace VerityBackend.Format

abbrev Text := List Nat

def ascii (s : String) : Text := s.toList.map Char.toNat

/-! ## Strings -/

section Strings

def isHighSurrogate (u : Nat) : Bool := 0xD800 ≤ u && u ≤ 0xDBFF

def isLowSurrogate (u : Nat) : Bool := 0xDC00 ≤ u && u ≤ 0xDFFF

def hexDigit (n : Nat) : Nat := if n < 10 then '0'.toNat + n else 'a'.toNat + (n - 10)

def hexValue (u : Nat) : Nat := if u < 'a'.toNat then u - '0'.toNat else u - 'a'.toNat + 10

/-- `\u` and four hexadecimal digits. -/
def unicodeEscape (u : Nat) : Text :=
  [92, 117, hexDigit (u / 4096 % 16), hexDigit (u / 256 % 16), hexDigit (u / 16 % 16), hexDigit (u % 16)]

/-- The letter behind the backslash, of the units that have one. -/
def escapeLetter (u : Nat) : Option Nat :=
  if u = 8 then some 'b'.toNat
  else if u = 9 then some 't'.toNat
  else if u = 10 then some 'n'.toNat
  else if u = 12 then some 'f'.toNat
  else if u = 13 then some 'r'.toNat
  else if u = 34 then some 34
  else if u = 92 then some 92
  else none

/-- One unit that is not part of a pair of surrogates. -/
def escapeUnit (u : Nat) : Text :=
  match escapeLetter u with
  | some letter => [92, letter]
  | none => if u < 0x20 || isHighSurrogate u || isLowSurrogate u then unicodeEscape u else [u]

def escape : Text → Text
  | [] => []
  | [u] => escapeUnit u
  | u :: v :: rest =>
      if isHighSurrogate u && isLowSurrogate v then u :: v :: escape rest
      else escapeUnit u ++ escape (v :: rest)

/-- `JSON.stringify(s)`. -/
def quoted (s : Text) : Text := 34 :: escape s ++ [34]

def unescapeLetter (letter : Nat) : Nat :=
  if letter = 'b'.toNat then 8
  else if letter = 't'.toNat then 9
  else if letter = 'n'.toNat then 10
  else if letter = 'f'.toNat then 12
  else if letter = 'r'.toNat then 13
  else letter

/-- What stands before the next quote that is not escaped, and what follows
it. -/
def unescape : Text → Option (Text × Text)
  | [] => none
  | u :: rest =>
      if u = 34 then some ([], rest)
      else if u = 92 then
        match rest with
        | 117 :: a :: b :: c :: d :: rest =>
            (unescape rest).map fun p =>
              ((hexValue a * 4096 + hexValue b * 256 + hexValue c * 16 + hexValue d) :: p.1, p.2)
        | letter :: rest => (unescape rest).map fun p => (unescapeLetter letter :: p.1, p.2)
        | [] => none
      else (unescape rest).map fun p => (u :: p.1, p.2)

theorem hexValue_hexDigit : ∀ n < 16, hexValue (hexDigit n) = n := by decide

variable {u : Nat} {s r t : Text}

/-- A unit that stands for itself. -/
theorem unescape_plain (hquote : u ≠ 34) (hbackslash : u ≠ 92) :
    unescape (u :: t) = (unescape t).map fun p => (u :: p.1, p.2) := by
  rw [unescape.eq_def]
  simp only [if_neg hquote, if_neg hbackslash]

theorem unescape_unicodeEscape (h : u < 65536) :
    unescape (unicodeEscape u ++ t) = (unescape t).map fun p => (u :: p.1, p.2) := by
  have hvalue : hexValue (hexDigit (u / 4096 % 16)) * 4096 + hexValue (hexDigit (u / 256 % 16)) * 256 +
      hexValue (hexDigit (u / 16 % 16)) * 16 + hexValue (hexDigit (u % 16)) = u := by
    have hdigit (n : Nat) : hexValue (hexDigit (n % 16)) = n % 16 :=
      hexValue_hexDigit _ (Nat.mod_lt n (by decide))
    have h₁ : u / 256 = u / 16 / 16 := (Nat.div_div_eq_div_mul u 16 16).symm
    have h₂ : u / 4096 = u / 16 / 16 / 16 := by rw [← h₁, Nat.div_div_eq_div_mul]
    rw [hdigit, hdigit, hdigit, hdigit, h₂, h₁]
    omega
  rw [unicodeEscape, unescape.eq_def]
  simp only [List.cons_append, List.nil_append, if_true]
  rw [if_neg (by decide), hvalue]

theorem unescape_letter {letter : Nat} (h : letter ≠ 117) :
    unescape (92 :: letter :: t) = (unescape t).map fun p => (unescapeLetter letter :: p.1, p.2) := by
  rw [unescape.eq_def]
  simp only [if_true]
  rw [if_neg (by decide)]
  split
  · next heq => exact absurd (List.cons.inj heq).1 h
  · next heq =>
      obtain ⟨rfl, rfl⟩ := List.cons.inj heq
      rfl
  · next heq => cases heq

theorem unescape_escapeUnit (u : Nat) (t : Text) :
    unescape (escapeUnit u ++ t) = (unescape t).map fun p => (u :: p.1, p.2) := by
  unfold escapeUnit
  split
  · next letter hletter =>
      have hback : letter ≠ 117 ∧ unescapeLetter letter = u := by
        unfold escapeLetter at hletter
        repeat' split at hletter
        all_goals cases hletter <;> subst_vars <;> decide
      rw [List.cons_append, List.cons_append, List.nil_append, unescape_letter hback.1, hback.2]
  · next hnone =>
      have hne : u ≠ 34 ∧ u ≠ 92 := by
        constructor <;> rintro rfl <;> cases hnone
      split
      · next hescaped =>
          refine unescape_unicodeEscape ?_
          simp only [isHighSurrogate, isLowSurrogate, Bool.or_eq_true, Bool.and_eq_true,
            decide_eq_true_eq] at hescaped
          omega
      · exact unescape_plain hne.1 hne.2

/-- A pair of surrogates stands for itself. -/
theorem unescape_escape (s r : Text) : unescape (escape s ++ 34 :: r) = some (s, r) := by
  induction s using escape.induct with
  | case1 =>
      rw [escape, List.nil_append, unescape.eq_def]
      simp only [if_true]
  | case2 u =>
      rw [escape, unescape_escapeUnit]
      have hquote : unescape (34 :: r) = some ([], r) := by
        rw [unescape.eq_def]
        simp only [if_true]
      rw [hquote]
      rfl
  | case3 u v rest hpair ih =>
      obtain ⟨hu, hv⟩ := Bool.and_eq_true_iff.mp hpair
      simp only [isHighSurrogate, isLowSurrogate, Bool.and_eq_true, decide_eq_true_eq] at hu hv
      rw [escape, if_pos hpair, List.cons_append, List.cons_append,
        unescape_plain (by omega) (by omega), unescape_plain (by omega) (by omega), ih]
      rfl
  | case4 u v rest hpair ih =>
      rw [escape, if_neg hpair, List.append_assoc, unescape_escapeUnit, ih]
      rfl

theorem quoted_unique {s s' r r' : Text} (h : quoted s ++ r = quoted s' ++ r') : s = s' ∧ r = r' := by
  simp only [quoted, List.cons_append, List.append_assoc, List.nil_append, List.cons.injEq,
    true_and] at h
  have hread := unescape_escape s r
  rw [h, unescape_escape] at hread
  simpa [eq_comm] using hread

end Strings

/-! ## Runs -/

/-- A run of units of one kind ends where the next unit is of another kind. -/
theorem run_unique {α : Type} {p : α → Prop} {xs ys r r' : List α} (hx : ∀ x ∈ xs, p x)
    (hy : ∀ y ∈ ys, p y) (hr : ∀ x ∈ r.head?, ¬p x) (hr' : ∀ x ∈ r'.head?, ¬p x)
    (h : xs ++ r = ys ++ r') : xs = ys ∧ r = r' := by
  induction xs generalizing ys with
  | nil =>
      cases ys with
      | nil => exact ⟨rfl, h⟩
      | cons y ys =>
          rw [List.nil_append, List.cons_append] at h
          exact absurd (hy y (.head _)) (hr y (by rw [h]; rfl))
  | cons x xs ih =>
      cases ys with
      | nil =>
          rw [List.nil_append, List.cons_append] at h
          exact absurd (hx x (.head _)) (hr' x (by rw [← h]; rfl))
      | cons y ys =>
          obtain ⟨rfl, htail⟩ := List.cons.inj h
          obtain ⟨rfl, hrest⟩ := ih (fun z hz => hx z (.tail _ hz)) (fun z hz => hy z (.tail _ hz)) htail
          exact ⟨rfl, hrest⟩

/-! ## Numbers -/

/-- A decimal `0.d₁d₂… × 10ⁿ` without superfluous digits. -/
structure Decimal where
  negative : Bool
  digits : List (Fin 10)
  point : Int
  nonempty : digits ≠ []
  first : digits.head? ≠ some 0
  last : digits.getLast? ≠ some 0
  deriving DecidableEq

/-- A digit that may come first. -/
abbrev Decimal.Leading (d : Fin 10) : Prop := [d].head? ≠ some 0

/-- A finite double, by the shortest decimal that is rounded to it. Zero has
no sign in a text. -/
inductive Number where
  | zero
  | decimal (d : Decimal)
  deriving DecidableEq

/-- The parts of the text of a number. -/
structure Layout where
  whole : List (Fin 10)
  fraction : List (Fin 10)
  exponent : Option Int
  deriving DecidableEq

/-- The shapes of `Number.prototype.toString`. -/
def Decimal.layout (d : Decimal) : Layout :=
  let k := d.digits.length
  let n := d.point
  if k ≤ n ∧ n ≤ 21 then ⟨d.digits ++ List.replicate (n.toNat - k) 0, [], none⟩
  else if 0 < n ∧ n ≤ 21 then ⟨d.digits.take n.toNat, d.digits.drop n.toNat, none⟩
  else if -6 < n ∧ n ≤ 0 then ⟨[0], List.replicate (-n).toNat 0 ++ d.digits, none⟩
  else ⟨d.digits.take 1, d.digits.drop 1, some (n - 1)⟩

def Number.layout : Number → Layout
  | .zero => ⟨[0], [], none⟩
  | .decimal d => d.layout

def Number.negative : Number → Bool
  | .zero => false
  | .decimal d => d.negative

def digitUnit (d : Fin 10) : Nat := '0'.toNat + d.val

def exponentText : Option Int → Text
  | none => []
  | some e => 'e'.toNat :: (if e < 0 then '-' else '+').toNat :: (Nat.toDigits 10 e.natAbs).map Char.toNat

def Layout.text (l : Layout) : Text :=
  l.whole.map digitUnit ++
    ((if l.fraction = [] then [] else '.'.toNat :: l.fraction.map digitUnit) ++ exponentText l.exponent)

/-- `Number.prototype.toString`. -/
def Number.text (x : Number) : Text :=
  (if x.negative then ['-'.toNat] else []) ++ x.layout.text

/-! ### The value of a layout -/

/-- The digits without the zeros around them, and the place of the point. -/
def Layout.value (l : Layout) : List (Fin 10) × Int :=
  (((l.whole ++ l.fraction).dropWhile (· = 0)).rdropWhile (· = 0),
    l.whole.length - ((l.whole ++ l.fraction).takeWhile (· = 0)).length + l.exponent.getD 0)

section Value

variable {ds : List (Fin 10)}

theorem dropWhile_zeros (m : Nat) (hfirst : ds.head? ≠ some 0) :
    (List.replicate m 0 ++ ds).dropWhile (· = 0) = ds ∧
      ((List.replicate m 0 ++ ds).takeWhile (· = 0)).length = m := by
  have hds : ds.dropWhile (· = 0) = ds ∧ ds.takeWhile (· = 0) = [] := by
    cases ds with
    | nil => exact ⟨rfl, rfl⟩
    | cons d ds =>
        have hd : d ≠ 0 := fun h => hfirst (congrArg some h)
        simp [hd]
  have hall : ∀ x ∈ List.replicate m (0 : Fin 10), decide (x = 0) = true := by
    intro x hx
    rw [(List.mem_replicate.mp hx).2]
    rfl
  constructor
  · rw [List.dropWhile_append_of_pos hall, hds.1]
  · rw [List.takeWhile_append_of_pos hall, hds.2, List.append_nil, List.length_replicate]

theorem rdropWhile_zeros (m : Nat) (hlast : ds.getLast? ≠ some 0) :
    (ds ++ List.replicate m 0).rdropWhile (· = 0) = ds := by
  have hhead : ds.reverse.head? ≠ some 0 := by rwa [List.head?_reverse]
  rw [List.rdropWhile, List.reverse_append, List.reverse_replicate, (dropWhile_zeros m hhead).1,
    List.reverse_reverse]

theorem Layout.value_eq {l : Layout} {a b : Nat} (hne : ds ≠ []) (hfirst : ds.head? ≠ some 0)
    (hlast : ds.getLast? ≠ some 0)
    (h : l.whole ++ l.fraction = List.replicate a 0 ++ (ds ++ List.replicate b 0)) :
    l.value = (ds, l.whole.length - a + l.exponent.getD 0) := by
  have hhead : (ds ++ List.replicate b 0).head? ≠ some 0 := by
    rwa [List.head?_append_of_ne_nil _ hne]
  rw [Layout.value, h, (dropWhile_zeros a hhead).1, (dropWhile_zeros a hhead).2,
    rdropWhile_zeros b hlast]

/-- The parts give back the digits and the point. -/
theorem Decimal.value_layout (d : Decimal) : d.layout.value = (d.digits, d.point) := by
  have hvalue {l : Layout} (a b : Nat)
      (h : l.whole ++ l.fraction = List.replicate a 0 ++ (d.digits ++ List.replicate b 0))
      (hpoint : (l.whole.length : Int) - a + l.exponent.getD 0 = d.point) :
      l.value = (d.digits, d.point) := by
    rw [Layout.value_eq d.nonempty d.first d.last h, hpoint]
  have hlength : 0 < d.digits.length := List.length_pos_iff.mpr d.nonempty
  unfold Decimal.layout
  dsimp only
  split
  · next hcase =>
      refine hvalue 0 (d.point.toNat - d.digits.length) (by simp) ?_
      simp only [List.length_append, List.length_replicate, Option.getD_none]
      omega
  · split
    · next hcase hpoint =>
        refine hvalue 0 0 (by simp) ?_
        simp only [List.length_take, Option.getD_none]
        omega
    · split
      · next hcase hpoint hsmall =>
          refine hvalue (1 + (-d.point).toNat) 0 (by simp [List.replicate_add]) ?_
          simp only [List.length_singleton, Option.getD_none]
          omega
      · refine hvalue 0 0 ?_ ?_
        · rw [List.take_append_drop, List.replicate_zero, List.nil_append, List.append_nil]
        simp only [List.length_take, Option.getD_some]
        omega

theorem Number.value_layout (x : Number) : x.layout.value =
    match x with
    | .zero => ([], 0)
    | .decimal d => (d.digits, d.point) := by
  cases x with
  | zero => decide
  | decimal d => exact d.value_layout

/-- A number is its sign and its layout. -/
theorem Number.layout_injective {x y : Number} (hsign : x.negative = y.negative)
    (h : x.layout = y.layout) : x = y := by
  have hvalue : x.layout.value = y.layout.value := congrArg Layout.value h
  rw [x.value_layout, y.value_layout] at hvalue
  cases x with
  | zero =>
      cases y with
      | zero => rfl
      | decimal d => exact absurd (congrArg Prod.fst hvalue).symm d.nonempty
  | decimal d =>
      cases y with
      | zero => exact absurd (congrArg Prod.fst hvalue) d.nonempty
      | decimal d' =>
          obtain ⟨negative, digits, point, _, _, _⟩ := d
          obtain ⟨negative', digits', point', _, _, _⟩ := d'
          obtain rfl : negative = negative' := hsign
          obtain ⟨rfl, rfl⟩ := Prod.mk.inj hvalue
          rfl

end Value

/-! ### Reading a number -/

/-- What can follow a value in a JSON text. -/
def Delimited (r : Text) : Prop := ∀ u ∈ r.head?, u = ','.toNat ∨ u = ']'.toNat ∨ u = '}'.toNat

def IsDigit (u : Nat) : Prop := '0'.toNat ≤ u ∧ u ≤ '9'.toNat

section Reading

variable {r r' : Text}

theorem isDigit_digitUnit {ds : List (Fin 10)} : ∀ u ∈ ds.map digitUnit, IsDigit u := by
  intro u hu
  obtain ⟨d, -, rfl⟩ := List.mem_map.mp hu
  have hd := d.isLt
  have h0 : '0'.toNat = 48 := rfl
  have h9 : '9'.toNat = 57 := rfl
  unfold IsDigit digitUnit
  omega

theorem digitUnit_injective : Function.Injective digitUnit := by
  intro a b h
  exact Fin.ext (Nat.add_left_cancel h)

theorem isDigit_toDigits (n : Nat) : ∀ u ∈ (Nat.toDigits 10 n).map Char.toNat, IsDigit u := by
  intro u hu
  obtain ⟨c, hc, rfl⟩ := List.mem_map.mp hu
  have hdigit := Nat.isDigit_of_mem_toDigits (b := 10) (by decide) (by decide) hc
  simp only [Char.isDigit, Bool.and_eq_true, decide_eq_true_eq] at hdigit
  exact ⟨hdigit.1, hdigit.2⟩

theorem toDigits_injective {m n : Nat}
    (h : (Nat.toDigits 10 m).map Char.toNat = (Nat.toDigits 10 n).map Char.toNat) : m = n := by
  have hchars := List.map_injective_iff.mpr (fun a b hab => Char.toNat_inj.mp hab) h
  have hvalue := congrArg (Nat.ofDigitChars 10 · 0) hchars
  simpa only [Nat.ofDigitChars_ten_toDigits] using hvalue

theorem Delimited.not_digit (h : Delimited r) : ∀ u ∈ r.head?, ¬IsDigit u := by
  rintro u hu ⟨hlow, hhigh⟩
  rcases h u hu with rfl | rfl | rfl
  · exact absurd hlow (by decide)
  · exact absurd hhigh (by decide)
  · exact absurd hhigh (by decide)

theorem Delimited.head_ne (h : Delimited r) {u : Nat} (hu : u = '.'.toNat ∨ u = 'e'.toNat) {t : Text} :
    r ≠ u :: t := by
  rintro rfl
  rcases hu with rfl | rfl <;> rcases h _ rfl with h | h | h <;> exact absurd h (by decide)

theorem exponent_unique {e e' : Option Int} (hr : Delimited r) (hr' : Delimited r')
    (h : exponentText e ++ r = exponentText e' ++ r') : e = e' ∧ r = r' := by
  cases e with
  | none =>
      cases e' with
      | none => exact ⟨rfl, h⟩
      | some e' => exact absurd h (hr.head_ne (.inr rfl))
  | some e =>
      cases e' with
      | none => exact absurd h.symm (hr'.head_ne (.inr rfl))
      | some e' =>
          simp only [exponentText, List.cons_append, List.cons.injEq, true_and] at h
          obtain ⟨hsign, hdigits⟩ := h
          obtain ⟨habs, hrest⟩ := run_unique (isDigit_toDigits _) (isDigit_toDigits _) hr.not_digit
            hr'.not_digit hdigits
          have hnat := toDigits_injective habs
          have hiff : e < 0 ↔ e' < 0 := by
            by_cases h₁ : e < 0 <;> by_cases h₂ : e' < 0 <;> simp only [h₁, h₂, if_true, if_false] at hsign ⊢
            · exact absurd hsign (by decide)
            · exact absurd hsign (by decide)
          exact ⟨congrArg some (by omega), hrest⟩

/-- What follows the digits of an exponent, or stands in its place. -/
theorem exponentText_head {e : Option Int} (hr : Delimited r) :
    ∀ u ∈ (exponentText e ++ r).head?, ¬IsDigit u ∧ u ≠ '.'.toNat := by
  intro u hu
  cases e with
  | none => exact ⟨hr.not_digit u hu, fun hdot => hr.head_ne (.inl hdot) (List.eq_cons_of_mem_head? hu)⟩
  | some e =>
      obtain rfl := Option.some.inj hu
      exact ⟨fun h => absurd h.2 (by decide), by decide⟩

theorem Layout.text_unique {l l' : Layout} (hr : Delimited r) (hr' : Delimited r')
    (h : l.text ++ r = l'.text ++ r') : l = l' ∧ r = r' := by
  obtain ⟨whole, fraction, exponent⟩ := l
  obtain ⟨whole', fraction', exponent'⟩ := l'
  have hnot {f : List (Fin 10)} {e : Option Int} {t : Text} (ht : Delimited t) :
      ∀ u ∈ ((if f = [] then [] else '.'.toNat :: f.map digitUnit) ++ (exponentText e ++ t)).head?,
        ¬IsDigit u := by
    intro u hu
    split at hu
    · exact (exponentText_head ht u hu).1
    · obtain rfl := Option.some.inj hu
      exact fun hdigit => absurd hdigit.1 (by decide)
  simp only [Layout.text, List.append_assoc] at h
  obtain ⟨hwhole, htail⟩ := run_unique isDigit_digitUnit isDigit_digitUnit (hnot hr) (hnot hr') h
  obtain rfl := List.map_injective_iff.mpr digitUnit_injective hwhole
  by_cases hf : fraction = []
  · by_cases hf' : fraction' = []
    · subst hf hf'
      obtain ⟨rfl, hrest⟩ := exponent_unique hr hr' htail
      exact ⟨rfl, hrest⟩
    · rw [if_pos hf, if_neg hf', List.nil_append] at htail
      exact absurd rfl (exponentText_head hr '.'.toNat (by rw [htail]; rfl)).2
  · by_cases hf' : fraction' = []
    · rw [if_neg hf, if_pos hf', List.nil_append] at htail
      exact absurd rfl (exponentText_head hr' '.'.toNat (by rw [← htail]; rfl)).2
    · rw [if_neg hf, if_neg hf', List.cons_append, List.cons_append] at htail
      obtain ⟨hfraction, hexponent⟩ := run_unique isDigit_digitUnit isDigit_digitUnit
        (fun u hu => (exponentText_head hr u hu).1) (fun u hu => (exponentText_head hr' u hu).1)
        (List.cons.inj htail).2
      obtain rfl := List.map_injective_iff.mpr digitUnit_injective hfraction
      obtain ⟨rfl, hrest⟩ := exponent_unique hr hr' hexponent
      exact ⟨rfl, hrest⟩

theorem Number.whole_ne_nil (x : Number) : x.layout.whole ≠ [] := by
  cases x with
  | zero => nofun
  | decimal d =>
      have hlength : 0 < d.digits.length := List.length_pos_iff.mpr d.nonempty
      rw [Number.layout, Decimal.layout, ← List.length_pos_iff]
      split
      · rw [List.length_append]
        omega
      · split
        · rw [List.length_take]
          omega
        · split
          · exact Nat.one_pos
          · rw [List.length_take]
            omega

/-- The text of a layout starts with a digit. -/
theorem Number.layout_head (x : Number) : ∃ d t, x.layout.text = digitUnit d :: t := by
  obtain ⟨d, ds, hwhole⟩ := List.exists_cons_of_ne_nil x.whole_ne_nil
  rw [Layout.text, hwhole]
  exact ⟨d, _, rfl⟩

theorem digitUnit_ne_minus (d : Fin 10) : digitUnit d ≠ '-'.toNat := by
  have h0 : '0'.toNat = 48 := rfl
  have hminus : '-'.toNat = 45 := rfl
  unfold digitUnit
  omega

theorem Number.text_unique {x y : Number} (hr : Delimited r) (hr' : Delimited r')
    (h : x.text ++ r = y.text ++ r') : x = y ∧ r = r' := by
  obtain ⟨d, t, hx⟩ := x.layout_head
  obtain ⟨d', t', hy⟩ := y.layout_head
  simp only [Number.text, List.append_assoc] at h
  have hsign : x.negative = y.negative := by
    cases hnx : x.negative <;> cases hny : y.negative
    · rfl
    · rw [hnx, hny, hx] at h
      exact absurd (List.cons.inj h).1 (digitUnit_ne_minus d)
    · rw [hnx, hny, hy] at h
      exact absurd (List.cons.inj h).1.symm (digitUnit_ne_minus d')
    · rfl
  rw [hsign, List.append_cancel_left_eq] at h
  obtain ⟨hlayout, hrest⟩ := Layout.text_unique hr hr' h
  exact ⟨Number.layout_injective hsign hlayout, hrest⟩

end Reading

end VerityBackend.Format
