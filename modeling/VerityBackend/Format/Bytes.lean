/-
VerityBackend.Format.Bytes — formats that are read from the front.

A `Reader` takes a value off the front of a byte string. `Reads r bytes a`
says that the reader finds `a` in the bytes WHATEVER FOLLOWS THEM, so the
rules compose along the bytes: what is written one after the other is read
one after the other (`Reads.bind`), and a counted list is read item by item
(`reads_many`). Bytes that are read this way determine their value, and no
value's bytes begin another's (`Reads.unique`).
-/
import Mathlib.Data.Nat.Digits.Defs

namespace VerityBackend.Format

abbrev Reader (α : Type) := StateT (List UInt8) Option α

def Reads {α : Type} (r : Reader α) (bytes : List UInt8) (a : α) : Prop :=
  ∀ rest, r.run (bytes ++ rest) = some (a, rest)

section Reads

variable {α β : Type} {r : Reader α} {f : α → Reader β} {xs ys : List UInt8} {a : α} {b : β}

theorem reads_pure (a : α) : Reads (pure a) [] a := fun _ => rfl

theorem Reads.bind (hr : Reads r xs a) (hf : Reads (f a) ys b) : Reads (r >>= f) (xs ++ ys) b := by
  intro rest
  rw [StateT.run_bind, List.append_assoc, hr]
  exact hf rest

/-- The last thing that is read. -/
theorem Reads.bind_pure {g : α → β} (hr : Reads r xs a) : Reads (r >>= fun x => pure (g x)) xs (g a) := by
  have h := hr.bind (f := fun x => pure (g x)) (reads_pure (g a))
  rwa [List.append_nil] at h

theorem Reads.map {g : α → β} (hr : Reads r xs a) : Reads (g <$> r) xs (g a) := by
  intro rest
  rw [StateT.run_map, hr]
  rfl

/-- Two values at the front of one byte string are one value. -/
theorem Reads.unique {a' : α} {rest rest' : List UInt8} (hx : Reads r xs a) (hy : Reads r ys a')
    (h : xs ++ rest = ys ++ rest') : a = a' ∧ rest = rest' := by
  have hrun := hx rest
  rw [h, hy] at hrun
  simpa [eq_comm] using hrun

/-- The whole byte string is the value. -/
def Reader.parse (r : Reader α) (bytes : List UInt8) : Option α :=
  match r.run bytes with
  | some (a, []) => some a
  | _ => none

theorem Reads.parse (hr : Reads r xs a) : r.parse xs = some a := by
  have hrun := hr []
  rw [List.append_nil] at hrun
  rw [Reader.parse, hrun]

end Reads

/-! ## Bytes -/

def readBytes (n : Nat) : Reader (List UInt8) := fun bytes =>
  if n ≤ bytes.length then some (bytes.take n, bytes.drop n) else none

theorem reads_bytes (xs : List UInt8) : Reads (readBytes xs.length) xs xs := by
  intro rest
  have hle : xs.length ≤ (xs ++ rest).length := by rw [List.length_append]; exact Nat.le_add_right _ _
  have hrun : (readBytes xs.length).run (xs ++ rest) =
      if xs.length ≤ (xs ++ rest).length then
        some ((xs ++ rest).take xs.length, (xs ++ rest).drop xs.length)
      else none := rfl
  rw [hrun, if_pos hle, List.take_left, List.drop_left]

/-! ## Numbers -/

/-- The bytes of a number, the lowest first. -/
def uintLE : Nat → Nat → List UInt8
  | 0, _ => []
  | w + 1, n => UInt8.ofNat (n % 256) :: uintLE w (n / 256)

def ofLE : List UInt8 → Nat
  | [] => 0
  | b :: bytes => b.toNat + 256 * ofLE bytes

@[simp] theorem length_uintLE (w n : Nat) : (uintLE w n).length = w := by
  induction w generalizing n with
  | zero => rfl
  | succ w ih => rw [uintLE, List.length_cons, ih]

theorem ofLE_uintLE {w n : Nat} (h : n < 256 ^ w) : ofLE (uintLE w n) = n := by
  induction w generalizing n with
  | zero =>
      rw [Nat.pow_zero, Nat.lt_one_iff] at h
      rw [h]
      rfl
  | succ w ih =>
      have hhigh : n / 256 < 256 ^ w := by
        rw [Nat.div_lt_iff_lt_mul (by decide), ← Nat.pow_succ]
        exact h
      have hlow : (UInt8.ofNat (n % 256)).toNat = n % 256 :=
        UInt8.toNat_ofNat_of_lt' (Nat.mod_lt n (by decide))
      rw [uintLE, ofLE, ih hhigh, hlow]
      exact Nat.mod_add_div n 256

def readUintLE (w : Nat) : Reader Nat := ofLE <$> readBytes w

theorem reads_uintLE {w n : Nat} (h : n < 256 ^ w) : Reads (readUintLE w) (uintLE w n) n := by
  have hbytes := (reads_bytes (uintLE w n)).map (g := ofLE)
  rwa [ofLE_uintLE h, length_uintLE] at hbytes

/-! ## Counted lists -/

def readMany {α : Type} (r : Reader α) : Nat → Reader (List α)
  | 0 => pure []
  | n + 1 => do
      let a ← r
      let rest ← readMany r n
      pure (a :: rest)

theorem reads_many {α : Type} {r : Reader α} {enc : α → List UInt8} {as : List α}
    (h : ∀ a ∈ as, Reads r (enc a) a) : Reads (readMany r as.length) (as.flatMap enc) as := by
  induction as with
  | nil => exact reads_pure []
  | cons a as ih =>
      have hrest := (ih fun x hx => h x (.tail _ hx)).bind_pure (g := (a :: ·))
      exact (h a (.head _)).bind hrest

/-! ## Text -/

/-- `Buffer.from(value)`: UTF-8. -/
def utf8 (s : String) : List UInt8 := s.toUTF8.data.toList

def ofUtf8 (bytes : List UInt8) : Option String := String.fromUTF8? ⟨bytes.toArray⟩

theorem ofUtf8_utf8 (s : String) : ofUtf8 (utf8 s) = some s := by
  have hbytes : (⟨(utf8 s).toArray⟩ : ByteArray) = s.toByteArray := by
    rw [utf8, Array.toArray_toList]
    rfl
  rw [ofUtf8, hbytes, String.fromUTF8?, dif_pos s.isValidUTF8]
  rfl

/-- A character has at most four bytes. -/
theorem length_utf8_le (s : String) : (utf8 s).length ≤ 4 * s.length := by
  have hbytes : utf8 s = s.toList.flatMap String.utf8EncodeChar := by
    rw [utf8, String.toUTF8_eq_toByteArray, ← String.ofList_toList (s := s),
      String.toByteArray_ofList, List.utf8Encode, String.toList_ofList]
    simp
  rw [hbytes, ← String.length_toList]
  induction s.toList with
  | nil => exact Nat.le_refl _
  | cons c cs ih =>
      have hc : (String.utf8EncodeChar c).length ≤ 4 := by
        rw [String.length_utf8EncodeChar]
        exact c.utf8Size_le_four
      rw [List.flatMap_cons, List.length_append, List.length_cons]
      omega

/-- The length of a text is written before it. -/
def readText (w : Nat) : Reader String := do
  let n ← readUintLE w
  let bytes ← readBytes n
  StateT.lift (ofUtf8 bytes)

theorem reads_text {w : Nat} {s : String} (h : (utf8 s).length < 256 ^ w) :
    Reads (readText w) (uintLE w (utf8 s).length ++ utf8 s) s := by
  have htext : Reads (StateT.lift (ofUtf8 (utf8 s)) : Reader String) [] s := by
    intro rest
    rw [ofUtf8_utf8]
    rfl
  have hrest := (reads_bytes (utf8 s)).bind (f := fun bytes => StateT.lift (ofUtf8 bytes)) htext
  rw [List.append_nil] at hrest
  exact (reads_uintLE h).bind hrest

end VerityBackend.Format
