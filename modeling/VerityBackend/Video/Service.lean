/-
VerityBackend.Video.Service — access tokens (`video/video.service.ts`).

A token is signed as one byte string: its fields and then its services, each
with its privileges, all numbers little-endian and all texts behind their
length. What is sent has the signature between the fields and the services.
A number that is too large for its field is refused by `Buffer`.
-/
import VerityBackend.Format.Bytes

namespace VerityBackend.Video

open Format

def TOKEN_VERSION : String := "007"

/-! ## Buffers -/

/-- `ERR_OUT_OF_RANGE`. -/
structure RangeError where
  maximum : Nat
  received : Nat
  deriving DecidableEq, Repr

abbrev ByteBuf := List UInt8

namespace ByteBuf

def putUint16 (buf : ByteBuf) (value : Nat) : Except RangeError ByteBuf :=
  if value ≤ 0xffff then .ok (buf ++ uintLE 2 value) else .error ⟨0xffff, value⟩

def putUint32 (buf : ByteBuf) (value : Nat) : Except RangeError ByteBuf :=
  if value ≤ 0xffffffff then .ok (buf ++ uintLE 4 value) else .error ⟨0xffffffff, value⟩

def putBytes (buf : ByteBuf) (value : List UInt8) : ByteBuf := buf ++ value

def putString (buf : ByteBuf) (value : String) : Except RangeError ByteBuf := do
  let buf ← buf.putUint16 (utf8 value).length
  return buf.putBytes (utf8 value)

end ByteBuf

/-! ## Services -/

/-- `ServiceRtc` and `ServiceRtm`, by the data of their own. -/
inductive ServiceData where
  | rtc (channelName : String) (uid : Nat)
  | rtm (userId : String)
  deriving DecidableEq, Repr

/-- `privileges` are the entries of the `Map`, in its order. -/
structure Service where
  data : ServiceData
  privileges : List (Nat × Nat)
  deriving DecidableEq, Repr

/-- The enum `ServiceType`. -/
def ServiceData.serviceType : ServiceData → Nat
  | .rtc _ _ => 1
  | .rtm _ => 2

def ServiceData.packData (buf : ByteBuf) : ServiceData → Except RangeError ByteBuf
  | .rtc channelName uid => do
      let buf ← buf.putString channelName
      buf.putString uid.repr
  | .rtm userId => buf.putString userId

def packPrivileges (buf : ByteBuf) : List (Nat × Nat) → Except RangeError ByteBuf
  | [] => .ok buf
  | (privilege, expire) :: rest => do
      let buf ← buf.putUint16 privilege
      let buf ← buf.putUint32 expire
      packPrivileges buf rest

def Service.pack (service : Service) (buf : ByteBuf) : Except RangeError ByteBuf := do
  let buf ← buf.putUint16 service.data.serviceType
  let buf ← service.data.packData buf
  let buf ← buf.putUint16 service.privileges.length
  packPrivileges buf service.privileges

def packServices (buf : ByteBuf) : List Service → Except RangeError ByteBuf
  | [] => .ok buf
  | service :: rest => do
      let buf ← service.pack buf
      packServices buf rest

/-! ## Tokens -/

/-- What is written of a token. -/
structure TokenFields where
  appId : String
  issueTs : Nat
  expire : Nat
  salt : Nat
  services : List Service
  deriving DecidableEq, Repr

structure AccessToken2 extends TokenFields where
  appCertificate : String
  deriving DecidableEq, Repr

/-- What `digest()` returns: a SHA-256 hash. -/
abbrev Digest := { bytes : List UInt8 // bytes.length = 32 }

namespace TokenFields

/-- The four fields that begin both byte strings. -/
def putFields (t : TokenFields) : Except RangeError ByteBuf := do
  let buf ← ByteBuf.putString [] t.appId
  let buf ← buf.putUint32 t.issueTs
  let buf ← buf.putUint32 t.expire
  buf.putUint32 t.salt

def putServices (t : TokenFields) (buf : ByteBuf) : Except RangeError ByteBuf := do
  let buf ← buf.putUint16 t.services.length
  packServices buf t.services

/-- `signing`, in `build`. -/
def signing (t : TokenFields) : Except RangeError ByteBuf := do
  let buf ← t.putFields
  t.putServices buf

/-- `content`, in `build`. -/
def content (t : TokenFields) (signature : Digest) : Except RangeError ByteBuf := do
  let buf ← t.putFields
  t.putServices (buf.putBytes signature.val)

end TokenFields

/-! ## Base64 -/

def base64Alphabet : List Char :=
  "ABCDEFGHIJKLMNOPQRSTUVWXYZabcdefghijklmnopqrstuvwxyz0123456789+/".toList

def base64Digit (n : Nat) : Char := base64Alphabet.getD n '='

/-- `toString('base64')`: three bytes are four digits. -/
def toBase64 : List UInt8 → List Char
  | [] => []
  | [a] => [base64Digit (a.toNat / 4), base64Digit (a.toNat % 4 * 16), '=', '=']
  | [a, b] =>
      [base64Digit (a.toNat / 4), base64Digit (a.toNat % 4 * 16 + b.toNat / 16),
        base64Digit (b.toNat % 16 * 4), '=']
  | a :: b :: c :: rest =>
      base64Digit (a.toNat / 4) :: base64Digit (a.toNat % 4 * 16 + b.toNat / 16) ::
        base64Digit (b.toNat % 16 * 4 + c.toNat / 64) :: base64Digit (c.toNat % 64) :: toBase64 rest

/-- `AccessToken2.build`. `createHmac` is the keyed hash of Node. -/
def AccessToken2.build (createHmac : String → List UInt8 → Digest) (t : AccessToken2) :
    Except RangeError String := do
  let signing ← t.signing
  let signature := createHmac t.appCertificate signing
  let content ← t.content signature
  return TOKEN_VERSION ++ String.ofList (toBase64 content)

example : String.ofList (toBase64 (utf8 "sealed")) = "c2VhbGVk" := by decide +kernel

end VerityBackend.Video
