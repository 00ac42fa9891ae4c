/-
VerityBackend.Format.Percent — percent-encoding, as `encodeURIComponent` and
`decodeURIComponent` do it.

A character that is not escaped stands for itself, any other for the bytes
of its UTF-8, each written `%XX`. What has been encoded is read back
(`decode_encode`), and an encoded text is made of few characters
(`plain_of_mem_encode`).
-/
import Mathlib.Data.List.Basic

namespace VerityBackend.Percent

/-! ## Encoding -/

/-- `A-Z a-z 0-9 - _ . ! ~ * ' ( )`. -/
def unescaped (c : Char) : Bool := c.isAlphanum || "-_.!~*'()".toList.contains c

def hexDigit (n : Nat) : Char := Char.ofNat (if n < 10 then 48 + n else 55 + n)

def octet (b : UInt8) : List Char := ['%', hexDigit (b.toNat / 16), hexDigit (b.toNat % 16)]

def encodeChar (c : Char) : List Char :=
  if unescaped c then [c] else (String.utf8EncodeChar c).flatMap octet

/-- `encodeURIComponent`. -/
def encode (cs : List Char) : List Char := cs.flatMap encodeChar

/-! ## Decoding -/

def hexValue (c : Char) : Option Nat :=
  if '0' ≤ c ∧ c ≤ '9' then some (c.toNat - 48)
  else if 'A' ≤ c ∧ c ≤ 'F' then some (c.toNat - 55)
  else if 'a' ≤ c ∧ c ≤ 'f' then some (c.toNat - 87)
  else none

/-- One `%XX`. -/
def readOctet : List Char → Option (UInt8 × List Char)
  | '%' :: high :: low :: rest =>
      match hexValue high, hexValue low with
      | some h, some l => some (UInt8.ofNat (16 * h + l), rest)
      | _, _ => none
  | _ => none

def readOctets : Nat → List Char → Option (List UInt8 × List Char)
  | 0, cs => some ([], cs)
  | n + 1, cs =>
      match readOctet cs with
      | none => none
      | some (b, rest) => (readOctets n rest).map fun p => (b :: p.1, p.2)

/-- How many bytes follow the first one of a character. -/
def following (b : UInt8) : Option Nat :=
  if b.toNat < 0x80 then some 0
  else if b.toNat < 0xC0 then none
  else if b.toNat < 0xE0 then some 1
  else if b.toNat < 0xF0 then some 2
  else if b.toNat < 0xF8 then some 3
  else none

/-- The bytes of one character, escaped. -/
def readEscaped (cs : List Char) : Option (Char × List Char) := do
  let (first, rest) ← readOctet cs
  let n ← following first
  let (bs, rest) ← readOctets n rest
  let c ← (first :: bs).toByteArray.utf8DecodeChar? 0
  pure (c, rest)

def readChar : List Char → Option (Char × List Char)
  | [] => none
  | c :: rest => if c = '%' then readEscaped (c :: rest) else some (c, rest)

def decodeFrom : Nat → List Char → Option (List Char)
  | _, [] => some []
  | 0, _ :: _ => none
  | n + 1, c :: cs =>
      match readChar (c :: cs) with
      | none => none
      | some (c, rest) => (decodeFrom n rest).map (c :: ·)

/-- `decodeURIComponent`, which throws a `URIError` where this is `none`.
Every step reads at least one character. -/
def decode (cs : List Char) : Option (List Char) := decodeFrom cs.length cs

/-! ## Octets -/

theorem hexValue_hexDigit : ∀ n < 16, hexValue (hexDigit n) = some n := by decide

theorem readOctet_octet (b : UInt8) (rest : List Char) :
    readOctet (octet b ++ rest) = some (b, rest) := by
  have hlt : b.toNat < 256 := b.toNat_lt
  have hb : UInt8.ofNat (16 * (b.toNat / 16) + b.toNat % 16) = b := by
    rw [Nat.div_add_mod, UInt8.ofNat_toNat]
  simp [octet, readOctet, hexValue_hexDigit (b.toNat / 16) (by omega),
    hexValue_hexDigit (b.toNat % 16) (by omega), hb]

theorem readOctets_flatMap (bs : List UInt8) (rest : List Char) :
    readOctets bs.length (bs.flatMap octet ++ rest) = some (bs, rest) := by
  induction bs with
  | nil => rfl
  | cons b bs ih => simp [readOctets, readOctet_octet, ih]

/-! ## Characters -/

/-- The first byte of a character says how many follow. -/
theorem following_utf8EncodeChar {c : Char} {first : UInt8} {bs : List UInt8}
    (h : String.utf8EncodeChar c = first :: bs) : following first = some bs.length := by
  unfold String.utf8EncodeChar at h
  dsimp only at h
  have hmod (n : Nat) (hn : n < 256) : (UInt8.ofNat n).toNat = n := by
    rw [UInt8.toNat_ofNat', Nat.mod_eq_of_lt hn]
  split at h
  · next hsize =>
      obtain ⟨rfl, rfl⟩ := List.cons.inj h
      rw [following, hmod _ (by omega), if_pos (by omega)]
      rfl
  split at h
  · obtain ⟨rfl, rfl⟩ := List.cons.inj h
    rw [following, hmod _ (by omega), if_neg (by omega), if_neg (by omega), if_pos (by omega)]
    rfl
  split at h
  · obtain ⟨rfl, rfl⟩ := List.cons.inj h
    rw [following, hmod _ (by omega), if_neg (by omega), if_neg (by omega), if_neg (by omega),
      if_pos (by omega)]
    rfl
  · obtain ⟨rfl, rfl⟩ := List.cons.inj h
    rw [following, hmod _ (by omega), if_neg (by omega), if_neg (by omega), if_neg (by omega),
      if_neg (by omega), if_pos (by omega)]
    rfl

theorem readEscaped_utf8EncodeChar (c : Char) (rest : List Char) :
    readEscaped ((String.utf8EncodeChar c).flatMap octet ++ rest) = some (c, rest) := by
  cases h : String.utf8EncodeChar c with
  | nil => exact absurd h String.utf8EncodeChar_ne_nil
  | cons first bs =>
      have hchar : (first :: bs).toByteArray.utf8DecodeChar? 0 = some c := by
        have happend := ByteArray.utf8DecodeChar?_utf8EncodeChar_append (b := .empty) (c := c)
        rwa [ByteArray.append_empty, h] at happend
      simp [readEscaped, readOctet_octet, following_utf8EncodeChar h, readOctets_flatMap, hchar]

theorem unescaped_percent : unescaped '%' = false := by decide

/-- **One character.** -/
theorem readChar_encodeChar (c : Char) (rest : List Char) :
    readChar (encodeChar c ++ rest) = some (c, rest) := by
  unfold encodeChar
  split
  · next hplain =>
      have hc : c ≠ '%' := by
        rintro rfl
        rw [unescaped_percent] at hplain
        cases hplain
      simp [readChar, hc]
  · cases h : String.utf8EncodeChar c with
    | nil => exact absurd h String.utf8EncodeChar_ne_nil
    | cons first bs =>
        have hread := readEscaped_utf8EncodeChar c rest
        rw [h] at hread
        simpa [octet, readChar] using hread

theorem encodeChar_ne_nil (c : Char) : encodeChar c ≠ [] := by
  intro h
  have hread := readChar_encodeChar c []
  rw [h] at hread
  cases hread

/-! ## Texts -/

theorem decodeFrom_encode (cs : List Char) {n : Nat} (h : cs.length ≤ n) :
    decodeFrom n (encode cs) = some cs := by
  induction cs generalizing n with
  | nil => cases n <;> rfl
  | cons c cs ih =>
      obtain ⟨n, rfl⟩ : ∃ m, n = m + 1 := ⟨n - 1, by simp at h; omega⟩
      have hrest := ih (n := n) (by simpa using h)
      have hread := readChar_encodeChar c (encode cs)
      rw [encode, List.flatMap_cons]
      cases hc : encodeChar c with
      | nil => exact absurd hc (encodeChar_ne_nil c)
      | cons x xs =>
          rw [hc] at hread
          simp only [List.cons_append, decodeFrom] at hread ⊢
          rw [encode] at hread hrest
          simp [hread, hrest]

theorem length_le_length_encode (cs : List Char) : cs.length ≤ (encode cs).length := by
  induction cs with
  | nil => exact Nat.le_refl 0
  | cons c cs ih =>
      have hpos : 0 < (encodeChar c).length := List.length_pos_iff.mpr (encodeChar_ne_nil c)
      rw [encode] at ih ⊢
      simp only [List.flatMap_cons, List.length_append, List.length_cons]
      omega

/-- **What is encoded is decoded.** -/
theorem decode_encode (cs : List Char) : decode (encode cs) = some cs :=
  decodeFrom_encode cs (length_le_length_encode cs)

/-- The characters that occur in an encoded text. -/
def Plain (c : Char) : Prop := unescaped c = true ∨ c = '%'

theorem unescaped_hexDigit : ∀ n < 16, unescaped (hexDigit n) = true := by decide

theorem plain_of_mem_octet {b : UInt8} {c : Char} (h : c ∈ octet b) : Plain c := by
  have hlt : b.toNat < 256 := b.toNat_lt
  simp only [octet, List.mem_cons, List.not_mem_nil, or_false] at h
  rcases h with rfl | rfl | rfl
  · exact .inr rfl
  · exact .inl (unescaped_hexDigit _ (by omega))
  · exact .inl (unescaped_hexDigit _ (by omega))

theorem plain_of_mem_encode {cs : List Char} {c : Char} (h : c ∈ encode cs) : Plain c := by
  obtain ⟨d, -, hd⟩ := List.mem_flatMap.mp h
  unfold encodeChar at hd
  split at hd
  · next hplain =>
      rw [List.mem_singleton] at hd
      rw [hd]
      exact .inl hplain
  · obtain ⟨b, -, hb⟩ := List.mem_flatMap.mp hd
    exact plain_of_mem_octet hb

end VerityBackend.Percent
