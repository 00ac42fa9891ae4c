/-
VerityBackend.Backend.Values — identifiers, stored strings and times.

Times are milliseconds since the epoch, as `Date.now()` returns them.

Redis values are strings. What the services do with one is to compare it,
to read it as a date or to read it as JSON, so a stored string is split by
that: `RedisString.date` is a string `new Date` reads as an instant
(`toISOString()` output, in particular), `RedisString.json` the text of a
flat JSON object, `RedisString.text` any other string. `JsonField` splits
the field values of such an object in the same way.
-/
import Mathlib.Algebra.GroupWithZero.Nat
import Mathlib.Data.Rat.Init

namespace VerityBackend

abbrev UserId := String
abbrev SessionId := String
abbrev MatchId := String
abbrev QueueKey := String

/-- One process of the backend. -/
abbrev Instance := Nat

/-- The identifiers `cuid()` and `randomUUID()` return, in the order in
which they are asked for: distinct, not empty, and short. -/
def freshId (n : Nat) : String := String.ofList ('c' :: Nat.toDigits 10 n)

theorem freshId_injective {m n : Nat} (h : freshId m = freshId n) : m = n := by
  have hdigits := (List.cons.inj (String.ofList_injective h)).2
  have hvalue := congrArg (Nat.ofDigitChars 10 · 0) hdigits
  simpa only [Nat.ofDigitChars_ten_toDigits] using hvalue

theorem freshId_ne_empty (n : Nat) : freshId n ≠ "" := by
  intro h
  have hlist : (freshId n).toList = [] := by rw [h]; rfl
  simp [freshId] at hlist

/-- A value in a JSON body. A number too large for a double is read as
`Infinity`; no check looks into an array or an object. -/
inductive JsonValue where
  | str (s : String)
  | num (x : Rat)
  | infinity
  | bool (b : Bool)
  | null
  | composite
  deriving DecidableEq, Repr

/-- `if (value)`, of any value. -/
def JsonValue.truthy : JsonValue → Bool
  | .str s => s ≠ ""
  | .num x => x ≠ 0
  | .bool b => b
  | .null => false
  | .infinity | .composite => true

/-- The value, unless it is `null` or left out: the left operand of `??`. -/
def nonNull (value : Option JsonValue) : Option JsonValue := value.filter (· ≠ .null)

/-- A field of a JSON object; `given` is a value handed on as it came. -/
inductive JsonField where
  | str (s : String)
  | date (ms : Nat)
  | num (n : Int)
  | bool (b : Bool)
  | null
  | given (v : JsonValue)
  deriving DecidableEq, Repr

/-- A string stored under a Redis key. -/
inductive RedisString where
  | text (s : String)
  | date (ms : Nat)
  | json (fields : List (String × JsonField))
  deriving DecidableEq, Repr

/-- `JSON.parse(raw).name`; a string that is not an object has no fields
the code reads. -/
def RedisString.field (r : RedisString) (name : String) : Option JsonField :=
  match r with
  | .json fields => fields.lookup name
  | _ => none

/-- `if (raw)`: a missing key and the empty string are falsy. -/
def truthy (raw : Option RedisString) : Bool :=
  raw.isSome && raw != some (.text "")

/-- A date as `new Date` makes it, `none` being `Invalid Date`. -/
abbrev JsDate := Option Nat

/-- `Date.now() >= date.getTime()`, which no invalid date satisfies. -/
def JsDate.reachedAt (now : Nat) : JsDate → Bool
  | some ms => ms ≤ now
  | none => false

/-- `new Date(raw)`. -/
def RedisString.parseDate : RedisString → JsDate
  | .date ms => some ms
  | _ => none

/-- `new Date(value)`, of a field that is a string. -/
def JsonField.parseDate : JsonField → JsDate
  | .date ms => some ms
  | _ => none

/-- The white space `String.prototype.trim` removes. -/
def isJsSpace (c : Char) : Bool :=
  let n := c.toNat
  (9 ≤ n && n ≤ 13) || n == 0x20 || n == 0xA0 || n == 0x1680 ||
    (0x2000 ≤ n && n ≤ 0x200A) || n == 0x2028 || n == 0x2029 || n == 0x202F ||
    n == 0x205F || n == 0x3000 || n == 0xFEFF

/-- `value.trim()`. -/
def jsTrim (s : String) : String :=
  String.ofList
    (((s.toList.dropWhile isJsSpace).reverse.dropWhile isJsSpace).reverse)

/-- `toLowerCase`. Two characters outside ASCII have lower case letters
inside it. -/
def jsLower (c : Char) : List Char :=
  if c.toNat = 0x212A then ['k']
  else if c.toNat = 0x130 then ['i', Char.ofNat 0x307]
  else [c.toLower]

/-- The length of a string counts UTF-16 code units. -/
def jsLength (s : String) : Nat :=
  (s.toList.map fun c => if 0xFFFF < c.toNat then 2 else 1).sum

/-- The value of a run of digits. -/
def digitsValue (digits : List Char) : Nat :=
  digits.foldl (fun n c => 10 * n + (c.toNat - '0'.toNat)) 0

/-- `Number.parseInt(s, 10)` after the sign; `none` is `NaN`. -/
def parseDigits (cs : List Char) : Option Nat :=
  match cs.takeWhile Char.isDigit with
  | [] => none
  | digits => some (digitsValue digits)

def parseInt (s : String) : Option Int :=
  match s.toList.dropWhile isJsSpace with
  | '-' :: rest => (parseDigits rest).map fun n => -(n : Int)
  | '+' :: rest => (parseDigits rest).map fun n => (n : Int)
  | rest => (parseDigits rest).map fun n => (n : Int)

/-- From 2^1024 - 2^970 on, a number reads as `Infinity`. -/
def NUMBER_OVERFLOW : Nat := (2 ^ 256) ^ 4 - (2 ^ 194) ^ 5

theorem isJsSpace_of_isDigit {c : Char} (h : c.isDigit = true) : isJsSpace c = false := by
  simp only [Char.isDigit, Bool.and_eq_true, decide_eq_true_eq, UInt32.le_iff_toNat_le] at h
  have hlo : 48 ≤ c.toNat := h.1
  have hhi : c.toNat ≤ 57 := h.2
  simp only [isJsSpace, Bool.or_eq_false_iff, Bool.and_eq_false_iff, decide_eq_false_iff_not,
    beq_eq_false_iff_ne, ne_eq]
  omega

/-- `Number.parseInt(String(n), 10)` is `n`. -/
theorem parseInt_toString (n : Nat) : parseInt (toString n) = some (n : Int) := by
  have hdigits : ∀ c ∈ Nat.toDigits 10 n, c.isDigit = true := fun c hc =>
    Nat.isDigit_of_mem_toDigits (by decide) (by decide) hc
  have hvalue : digitsValue (Nat.toDigits 10 n) = n := Nat.ofDigitChars_ten_toDigits
  have hrepr : (toString n).toList = Nat.toDigits 10 n := Nat.toList_repr
  unfold parseInt
  rw [hrepr]
  cases hcs : Nat.toDigits 10 n with
  | nil => exact absurd hcs Nat.toDigits_ne_nil
  | cons c rest =>
      rw [hcs] at hdigits hvalue
      have hc : c.isDigit = true := hdigits c List.mem_cons_self
      have htake : (c :: rest).takeWhile Char.isDigit = c :: rest := by
        have happend : ((c :: rest) ++ []).takeWhile Char.isDigit =
            (c :: rest) ++ [].takeWhile Char.isDigit := List.takeWhile_append_of_pos hdigits
        simpa using happend
      have hparse : parseDigits (c :: rest) = some n := by
        unfold parseDigits
        rw [htake]
        exact congrArg some hvalue
      rw [List.dropWhile_cons_of_neg (by simp [isJsSpace_of_isDigit hc])]
      -- a digit is not a sign
      split
      · rename_i h
        rw [(List.cons.inj h).1] at hc
        exact absurd hc (by decide)
      · rename_i h
        rw [(List.cons.inj h).1] at hc
        exact absurd hc (by decide)
      · rw [hparse]
        rfl

inductive SessionChoice where
  | MATCH
  | PASS
  deriving DecidableEq, Repr

inductive UserRole where
  | USER
  | ADMIN
  deriving DecidableEq, Repr

/-- What an `async` function of the backend throws: a Nest exception with
its message, and its code where it has one, or the error of a Prisma or
Redis command. -/
inductive Err where
  | badRequest (message : String)
  | unauthorized (message : String)
  | forbidden (message : String)
  | notFound (message : String)
  | conflict (message : String)
  | refreshReuse
  | revealAckRequired (code message : String)
  | prisma (code : String)
  | command (message : String)
  deriving DecidableEq, Repr

end VerityBackend
