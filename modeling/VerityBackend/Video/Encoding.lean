/-
VerityBackend.Video.Encoding — the bytes of a token determine the token.

Within the bounds of its fields (`Fits`) a token is written without an
error, as the bytes one expects (`TokenFields.signing_eq`, `content_eq`),
and a reader that goes through these bytes field by field finds the token
again. The reader is the proof that nothing is lost: two tokens with the
same bytes are one token.
-/
import VerityBackend.Video.Service

namespace VerityBackend.Video

open Format

/-! ## What is written -/

/-- A string with its length in front. -/
def textBytes (s : String) : List UInt8 := uintLE 2 (utf8 s).length ++ utf8 s

/-- A user of the channel has a number, one of the messages a name. -/
def ServiceData.bytes : ServiceData → List UInt8
  | .rtc channelName uid => textBytes channelName ++ textBytes uid.repr
  | .rtm userId => textBytes userId

/-- A privilege and when it expires. -/
def privilegeBytes (p : Nat × Nat) : List UInt8 := uintLE 2 p.1 ++ uintLE 4 p.2

/-- The kind of the service, its data and its privileges. -/
def Service.bytes (s : Service) : List UInt8 :=
  uintLE 2 s.data.serviceType ++
    (s.data.bytes ++ (uintLE 2 s.privileges.length ++ s.privileges.flatMap privilegeBytes))

namespace TokenFields

def serviceBytes (t : TokenFields) : List UInt8 :=
  uintLE 2 t.services.length ++ t.services.flatMap Service.bytes

/-- The fields, and then what follows them. -/
def fieldBytes (t : TokenFields) (rest : List UInt8) : List UInt8 :=
  textBytes t.appId ++ (uintLE 4 t.issueTs ++ (uintLE 4 t.expire ++ (uintLE 4 t.salt ++ rest)))

end TokenFields

/-! ## The bounds of the fields -/

/-- The length fits 16 bits. -/
def FitsText (s : String) : Prop := (utf8 s).length ≤ 65535

instance (s : String) : Decidable (FitsText s) := inferInstanceAs (Decidable (_ ≤ _))

/-- A number of a user fits 32 bits. -/
def ServiceData.Fits : ServiceData → Prop
  | .rtc channelName uid => FitsText channelName ∧ uid < 2 ^ 32
  | .rtm userId => FitsText userId

/-- A service whose fields fit. -/
structure Service.Fits (s : Service) : Prop where
  data : s.data.Fits
  count : s.privileges.length < 2 ^ 16
  privileges : ∀ p ∈ s.privileges, p.1 < 2 ^ 16 ∧ p.2 < 2 ^ 32

/-- A token whose fields fit what they are written to. -/
structure TokenFields.Fits (t : TokenFields) : Prop where
  appId : FitsText t.appId
  issueTs : t.issueTs < 2 ^ 32
  expire : t.expire < 2 ^ 32
  salt : t.salt < 2 ^ 32
  count : t.services.length < 2 ^ 16
  services : ∀ s ∈ t.services, s.Fits

theorem ServiceData.serviceType_lt (d : ServiceData) : d.serviceType < 3 := by
  cases d <;> simp [ServiceData.serviceType]

/-- A number of 32 bits has ten digits at most. -/
theorem fitsText_repr {n : Nat} (h : n < 2 ^ 32) : FitsText n.repr := by
  have hdigits : n.repr.length ≤ 10 :=
    (Nat.length_repr_le_iff (by decide)).mpr (Nat.lt_of_lt_of_le h (by decide))
  have hbytes := length_utf8_le n.repr
  unfold FitsText
  omega

/-! ## Writing -/

section Writing

/-- What has been written is what the rest is appended to. -/
theorem written_bind {buf : ByteBuf} {f : ByteBuf → Except RangeError ByteBuf} :
    (Except.ok buf >>= f) = f buf := rfl

theorem putUint16_eq {buf : ByteBuf} {n : Nat} (h : n < 2 ^ 16) :
    buf.putUint16 n = .ok (buf ++ uintLE 2 n) := if_pos (Nat.le_of_lt_succ h)

theorem putUint32_eq {buf : ByteBuf} {n : Nat} (h : n < 2 ^ 32) :
    buf.putUint32 n = .ok (buf ++ uintLE 4 n) := if_pos (Nat.le_of_lt_succ h)

/-- A string that fits is written as it is. -/
theorem putString_eq {buf : ByteBuf} {s : String} (h : FitsText s) :
    buf.putString s = .ok (buf ++ textBytes s) := by
  rw [ByteBuf.putString, putUint16_eq (Nat.lt_succ_of_le h), textBytes, ← List.append_assoc]
  rfl

theorem packData_eq {buf : ByteBuf} {d : ServiceData} (h : d.Fits) :
    d.packData buf = .ok (buf ++ d.bytes) := by
  cases d with
  | rtc channelName uid =>
      rw [ServiceData.packData, putString_eq h.1]
      refine (putString_eq (fitsText_repr h.2)).trans ?_
      rw [ServiceData.bytes, List.append_assoc]
  | rtm userId => exact putString_eq h

/-- Privileges are written one after the other. -/
theorem packPrivileges_eq {buf : ByteBuf} {ps : List (Nat × Nat)}
    (h : ∀ p ∈ ps, p.1 < 2 ^ 16 ∧ p.2 < 2 ^ 32) :
    packPrivileges buf ps = .ok (buf ++ ps.flatMap privilegeBytes) := by
  induction ps generalizing buf with
  | nil => rw [List.flatMap_nil, List.append_nil, packPrivileges]
  | cons p ps ih =>
      obtain ⟨hprivilege, hexpire⟩ := h p (.head _)
      rw [packPrivileges, putUint16_eq hprivilege, written_bind, putUint32_eq hexpire, written_bind,
        ih fun q hq => h q (.tail _ hq), List.flatMap_cons, privilegeBytes]
      simp only [List.append_assoc]

/-- A service that fits is written without an error. -/
theorem Service.pack_eq {buf : ByteBuf} {s : Service} (h : s.Fits) :
    s.pack buf = .ok (buf ++ s.bytes) := by
  have htype : s.data.serviceType < 2 ^ 16 := Nat.lt_trans s.data.serviceType_lt (by decide)
  rw [Service.pack, putUint16_eq htype, written_bind, packData_eq h.data, written_bind,
    putUint16_eq h.count, written_bind, packPrivileges_eq h.privileges, Service.bytes]
  simp only [List.append_assoc]

theorem packServices_eq {buf : ByteBuf} {ss : List Service} (h : ∀ s ∈ ss, s.Fits) :
    packServices buf ss = .ok (buf ++ ss.flatMap Service.bytes) := by
  induction ss generalizing buf with
  | nil => rw [List.flatMap_nil, List.append_nil, packServices]
  | cons s ss ih =>
      rw [packServices, Service.pack_eq (h s (.head _)), written_bind, ih fun q hq => h q (.tail _ hq),
        List.flatMap_cons, List.append_assoc]

namespace TokenFields

variable {t : TokenFields}

theorem putFields_eq (h : t.Fits) : t.putFields = .ok (t.fieldBytes []) := by
  rw [putFields, putString_eq h.appId, written_bind, putUint32_eq h.issueTs, written_bind,
    putUint32_eq h.expire, written_bind, putUint32_eq h.salt, fieldBytes]
  simp only [List.append_assoc, List.nil_append, List.append_nil]

theorem putServices_eq (h : t.Fits) (buf : ByteBuf) :
    t.putServices buf = .ok (buf ++ t.serviceBytes) := by
  rw [putServices, putUint16_eq h.count, written_bind, packServices_eq h.services, serviceBytes,
    List.append_assoc]

/-- **What is signed**: the fields, then the services. -/
theorem signing_eq (h : t.Fits) : t.signing = .ok (t.fieldBytes t.serviceBytes) := by
  rw [signing, putFields_eq h, written_bind, putServices_eq h, fieldBytes, fieldBytes]
  simp only [List.append_assoc, List.nil_append]

/-- **What is sent**: the signature stands between the two. -/
theorem content_eq (h : t.Fits) (signature : Digest) :
    t.content signature = .ok (t.fieldBytes (signature.val ++ t.serviceBytes)) := by
  rw [content, putFields_eq h, written_bind, putServices_eq h, fieldBytes, fieldBytes, ByteBuf.putBytes]
  simp only [List.append_assoc, List.nil_append]

end TokenFields

end Writing

/-! ## Reading -/

def readData : Nat → Reader ServiceData
  | 1 => do
      let channelName ← readText 2
      let uid ← readText 2
      pure (.rtc channelName (Nat.ofDigitChars 10 uid.toList 0))
  | 2 => do
      let userId ← readText 2
      pure (.rtm userId)
  | _ => StateT.lift none

def readPrivilege : Reader (Nat × Nat) := do
  let privilege ← readUintLE 2
  let expire ← readUintLE 4
  pure (privilege, expire)

/-- A service, read by the kind that stands in front. -/
def readService : Reader Service := do
  let serviceType ← readUintLE 2
  let data ← readData serviceType
  let count ← readUintLE 2
  let privileges ← readMany readPrivilege count
  pure ⟨data, privileges⟩

/-- As many services as are announced. -/
def readServices : Reader (List Service) := do
  let count ← readUintLE 2
  readMany readService count

/-- The four fields, and then what `next` makes of them. -/
def readFields {α : Type} (next : String → Nat → Nat → Nat → Reader α) : Reader α := do
  let appId ← readText 2
  let issueTs ← readUintLE 4
  let expire ← readUintLE 4
  let salt ← readUintLE 4
  next appId issueTs expire salt

/-- A token from the bytes that are signed. -/
def readSigning : Reader TokenFields :=
  readFields fun appId issueTs expire salt => do
    let services ← readServices
    pure ⟨appId, issueTs, expire, salt, services⟩

/-- A token and its signature from the bytes that are sent. -/
def readContent : Reader (TokenFields × List UInt8) :=
  readFields fun appId issueTs expire salt => do
    let signature ← readBytes 32
    let services ← readServices
    pure (⟨appId, issueTs, expire, salt, services⟩, signature)

section Reading

theorem reads_textBytes {s : String} (h : FitsText s) : Reads (readText 2) (textBytes s) s :=
  reads_text (Nat.lt_succ_of_le h)

theorem reads_data {d : ServiceData} (h : d.Fits) : Reads (readData d.serviceType) d.bytes d := by
  cases d with
  | rtc channelName uid =>
      have huid := (reads_textBytes (fitsText_repr h.2)).bind_pure
        (g := fun text => ServiceData.rtc channelName (Nat.ofDigitChars 10 text.toList 0))
      rw [Nat.toList_repr, Nat.ofDigitChars_ten_toDigits] at huid
      exact (reads_textBytes h.1).bind huid
  | rtm userId => exact (reads_textBytes h).bind_pure

theorem reads_privilege {p : Nat × Nat} (h : p.1 < 2 ^ 16 ∧ p.2 < 2 ^ 32) :
    Reads readPrivilege (privilegeBytes p) p :=
  (reads_uintLE (w := 2) h.1).bind (reads_uintLE (w := 4) h.2).bind_pure

theorem reads_service {s : Service} (h : s.Fits) : Reads readService s.bytes s := by
  have htype : s.data.serviceType < 256 ^ 2 := Nat.lt_trans s.data.serviceType_lt (by decide)
  have hprivileges := (reads_many fun p hp => reads_privilege (h.privileges p hp)).bind_pure
    (g := fun privileges => (⟨s.data, privileges⟩ : Service))
  exact (reads_uintLE htype).bind ((reads_data h.data).bind ((reads_uintLE (w := 2) h.count).bind hprivileges))

/-- The services are read back. -/
theorem reads_services {t : TokenFields} (h : t.Fits) :
    Reads readServices t.serviceBytes t.services :=
  (reads_uintLE (w := 2) h.count).bind (reads_many fun s hs => reads_service (h.services s hs))

/-- The fields are read back, and what follows them as `next` says. -/
theorem reads_fields {α : Type} {t : TokenFields} (h : t.Fits)
    {next : String → Nat → Nat → Nat → Reader α} {bytes : List UInt8} {a : α}
    (hnext : Reads (next t.appId t.issueTs t.expire t.salt) bytes a) :
    Reads (readFields next) (t.fieldBytes bytes) a :=
  (reads_textBytes h.appId).bind ((reads_uintLE (w := 4) h.issueTs).bind
    ((reads_uintLE (w := 4) h.expire).bind ((reads_uintLE (w := 4) h.salt).bind hnext)))

theorem reads_signing {t : TokenFields} (h : t.Fits) :
    Reads readSigning (t.fieldBytes t.serviceBytes) t :=
  reads_fields h (reads_services h).bind_pure

theorem reads_content {t : TokenFields} (h : t.Fits) (signature : Digest) :
    Reads readContent (t.fieldBytes (signature.val ++ t.serviceBytes)) (t, signature.val) := by
  have hsignature := reads_bytes signature.val
  rw [signature.property] at hsignature
  exact reads_fields h (hsignature.bind (reads_services h).bind_pure)

end Reading

/-! ## Tokens -/

/-- What a token is written as, it can be read from. -/
structure Recoverable (createHmac : String → List UInt8 → Digest) (t : AccessToken2) : Prop where
  /-- No other token is signed as the same bytes. -/
  signing : ∃ bytes, t.signing = .ok bytes ∧ readSigning.parse bytes = some t.toTokenFields ∧
    ∀ t' : TokenFields, t'.Fits → t'.signing = .ok bytes → t' = t.toTokenFields
  /-- The token, in Base64, has its fields and the signature of these bytes. -/
  build : ∃ bytes content, t.signing = .ok bytes ∧
    t.build createHmac = .ok (TOKEN_VERSION ++ String.ofList (toBase64 content)) ∧
      readContent.parse content = some (t.toTokenFields, (createHmac t.appCertificate bytes).val)

/-- **The encoding of tokens is injective.** -/
theorem recoverable (createHmac : String → List UInt8 → Digest) (t : AccessToken2)
    (h : t.toTokenFields.Fits) : Recoverable createHmac t := by
  have hsigning := TokenFields.signing_eq h
  let content := t.toTokenFields.fieldBytes ((createHmac t.appCertificate
    (t.toTokenFields.fieldBytes t.serviceBytes)).val ++ t.serviceBytes)
  refine ⟨⟨_, hsigning, (reads_signing h).parse, fun t' h' hsame => ?_⟩, _, content, hsigning, ?_, ?_⟩
  · rw [TokenFields.signing_eq h', Except.ok.injEq] at hsame
    have hunique := (reads_signing h').unique (reads_signing h) (congrArg (· ++ []) hsame)
    exact hunique.1
  · unfold AccessToken2.build
    rw [hsigning]
    dsimp only [Bind.bind, Except.bind]
    rw [TokenFields.content_eq h]
    rfl
  · exact (reads_content h _).parse

/-- A token for one channel, with its hash. -/
theorem recoverable_session :
    let t : AccessToken2 :=
      ⟨⟨"app", 1, 60, 7, [⟨.rtc "session_s" 1, [(1, 61)]⟩]⟩, "cert"⟩
    let createHmac : String → List UInt8 → Digest := fun _ _ =>
      ⟨[202, 59, 26, 200, 99, 58, 105, 73, 218, 154, 158, 150, 43, 86, 86, 174, 221, 242, 112, 169, 182,
        153, 71, 217, 23, 226, 252, 130, 107, 104, 155, 51], rfl⟩
    t.build createHmac = .ok
        ("007AwBhcHABAAAAPAAAAAcAAADKOxrIYzppSdqanpYrVlau3fJwqbaZR9kX4vyCa2ibMwEAAQAJAHNlc" ++
          "3Npb25fcwEAMQEAAQA9AAAA") ∧
      Recoverable createHmac t :=
  ⟨by decide +kernel, recoverable _ _
    { appId := by decide +kernel
      issueTs := by decide
      expire := by decide
      salt := by decide
      count := by decide
      services := by
        intro s hs
        obtain rfl := List.mem_singleton.mp hs
        exact ⟨⟨by decide +kernel, by decide⟩, by decide, by decide⟩ }⟩

end VerityBackend.Video
