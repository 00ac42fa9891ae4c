/-
VerityBackend.Moderation.Spelling — the spellings of a webhook's headers.

`verifyWebhookSignature` reads the signature as bytes and the timestamp as
an instant, so it accepts many spellings of both: digits above nine in
either case, the prefix or none, seconds or milliseconds, leading zeros.
`reserveWebhookDelivery` takes the prefix off and then goes by the strings.

A hexadecimal digit is known by its value and its case, a number by its
value and the number of its digits. So two accepted deliveries of one body
get the same key exactly if they are spelled alike (`deduplicated_iff`).
-/
import VerityBackend.Moderation.Service
import VerityBackend.Async.Failing

namespace VerityBackend.Moderation

open Async

/-! ## Digits -/

/-- A hexadecimal digit above nine, in upper case. -/
def isUpperDigit (c : Char) : Bool := 'A' ≤ c && c ≤ 'F'

/-- The digit of this value, in this case. -/
def spellDigit (upper : Bool) (n : Nat) : Char :=
  if n < 10 then Char.ofNat ('0'.toNat + n)
  else if upper then Char.ofNat ('A'.toNat + (n - 10))
  else Char.ofNat ('a'.toNat + (n - 10))

theorem char_le_iff (c d : Char) : c ≤ d ↔ c.toNat ≤ d.toNat := Char.le_def

/-- A digit is spelled by its value and its case. -/
theorem hexDigit_spelled {c : Char} {n : Nat} (h : hexDigit c = some n) :
    n < 16 ∧ spellDigit (isUpperDigit c) n = c := by
  unfold hexDigit at h
  simp only [char_le_iff] at h
  have hconst : '0'.toNat = 48 ∧ '9'.toNat = 57 ∧ 'A'.toNat = 65 ∧ 'F'.toNat = 70 ∧
      'a'.toNat = 97 ∧ 'f'.toNat = 102 := by decide
  obtain ⟨h0, h9, hA, hF, ha, hf⟩ := hconst
  simp only [h0, h9, hA, hF, ha, hf] at h
  split at h
  · next hdigit =>
      obtain rfl := Option.some.inj h
      refine ⟨by omega, ?_⟩
      unfold spellDigit
      rw [if_pos (by omega), h0, Nat.add_sub_cancel' hdigit.1, Char.ofNat_toNat]
  · split at h
    · next hlower =>
        obtain rfl := Option.some.inj h
        have hcase : isUpperDigit c = false := by
          simp only [isUpperDigit, char_le_iff, hA, hF, Bool.and_eq_false_iff, decide_eq_false_iff_not]
          omega
        refine ⟨by omega, ?_⟩
        unfold spellDigit
        rw [if_neg (by omega), hcase, if_neg (by decide), ha,
          show 97 + (c.toNat - 97 + 10 - 10) = c.toNat by omega, Char.ofNat_toNat]
    · split at h
      · next hupper =>
          obtain rfl := Option.some.inj h
          have hcase : isUpperDigit c = true := by
            simp only [isUpperDigit, char_le_iff, hA, hF, Bool.and_eq_true, decide_eq_true_eq]
            exact hupper
          refine ⟨by omega, ?_⟩
          unfold spellDigit
          rw [if_neg (by omega), hcase, if_pos rfl, hA,
            show 65 + (c.toNat - 65 + 10 - 10) = c.toNat by omega, Char.ofNat_toNat]
      · cases h

theorem hexDigit_inj {c d : Char} {n : Nat} (hc : hexDigit c = some n) (hd : hexDigit d = some n)
    (hcase : isUpperDigit c = isUpperDigit d) : c = d := by
  rw [← (hexDigit_spelled hc).2, ← (hexDigit_spelled hd).2, hcase]

/-- Two digits of a byte. -/
theorem byte_inj {m n m' n' : Nat} (hm : m < 16) (hn : n < 16) (hm' : m' < 16) (hn' : n' < 16)
    (h : UInt8.ofNat (16 * m + n) = UInt8.ofNat (16 * m' + n')) : m = m' ∧ n = n' := by
  have hvalue := congrArg UInt8.toNat h
  simp only [UInt8.toNat_ofNat'] at hvalue
  omega

/-- Digits that spell the same bytes in the same case are the same. -/
theorem bytesOfHex_inj : ∀ {cs ds : List Char}, (∀ c ∈ cs, (hexDigit c).isSome) →
    (∀ d ∈ ds, (hexDigit d).isSome) → cs.length = ds.length → cs.length % 2 = 0 →
    bytesOfHex cs = bytesOfHex ds → cs.map isUpperDigit = ds.map isUpperDigit → cs = ds
  | [], [], _, _, _, _, _, _ => rfl
  | [_], _, _, _, _, heven, _, _ => by simp at heven
  | c :: c' :: cs, d :: d' :: ds, hcs, hds, hlen, heven, hbytes, hcase => by
      obtain ⟨m, hm⟩ := Option.isSome_iff_exists.mp (hcs c (by simp))
      obtain ⟨n, hn⟩ := Option.isSome_iff_exists.mp (hcs c' (by simp))
      obtain ⟨m', hm'⟩ := Option.isSome_iff_exists.mp (hds d (by simp))
      obtain ⟨n', hn'⟩ := Option.isSome_iff_exists.mp (hds d' (by simp))
      simp only [bytesOfHex, hm, hn, hm', hn', Option.getD_some, List.cons.injEq] at hbytes
      simp only [List.map_cons, List.cons.injEq] at hcase
      obtain ⟨rfl, rfl⟩ := byte_inj (hexDigit_spelled hm).1 (hexDigit_spelled hn).1
        (hexDigit_spelled hm').1 (hexDigit_spelled hn').1 hbytes.1
      have hrest := bytesOfHex_inj (fun x hx => hcs x (by simp [hx])) (fun x hx => hds x (by simp [hx]))
        (by simpa using hlen) (by simp only [List.length_cons] at heven; omega) hbytes.2 hcase.2.2
      rw [hexDigit_inj hm hm' hcase.1, hexDigit_inj hn hn' hcase.2.1, hrest]
  | [], _ :: _, _, _, hlen, _, _, _ => by simp at hlen
  | _ :: _ :: _, [], _, _, hlen, _, _, _ => by simp at hlen
  | _ :: _ :: _, [_], _, _, hlen, _, _, _ => by simp at hlen

/-- A digit is known by its value. -/
theorem digit_inj {c d : Char} (hc : c.isDigit = true) (hd : d.isDigit = true)
    (h : c.toNat - '0'.toNat = d.toNat - '0'.toNat) : c = d := by
  simp only [Char.isDigit, Bool.and_eq_true, decide_eq_true_eq, UInt32.le_iff_toNat_le] at hc hd
  have hclo : 48 ≤ c.toNat := hc.1
  have hdlo : 48 ≤ d.toNat := hd.1
  have hzero : '0'.toNat = 48 := rfl
  rw [hzero] at h
  have hnat : c.toNat = d.toNat := by omega
  rw [← Char.ofNat_toNat c, hnat, Char.ofNat_toNat]

theorem digit_lt {c : Char} (h : c.isDigit = true) : c.toNat - '0'.toNat < 10 := by
  simp only [Char.isDigit, Bool.and_eq_true, decide_eq_true_eq, UInt32.le_iff_toNat_le] at h
  have hhi : c.toNat ≤ 57 := h.2
  have hzero : '0'.toNat = 48 := rfl
  omega

/-- Runs of digits of one length that have one value are the same; `m` and
`n` are the values of what stands before them. -/
theorem foldl_digits_inj {cs ds : List Char} {m n : Nat} (hcs : ∀ c ∈ cs, c.isDigit = true)
    (hds : ∀ d ∈ ds, d.isDigit = true) (hlen : cs.length = ds.length)
    (h : cs.foldl (fun n c => 10 * n + (c.toNat - '0'.toNat)) m =
      ds.foldl (fun n c => 10 * n + (c.toNat - '0'.toNat)) n) : m = n ∧ cs = ds := by
  induction cs generalizing ds m n with
  | nil =>
      obtain rfl := List.length_eq_zero_iff.mp hlen.symm
      exact ⟨h, rfl⟩
  | cons c cs ih =>
      cases ds with
      | nil => simp at hlen
      | cons d ds =>
          rw [List.foldl_cons, List.foldl_cons] at h
          obtain ⟨hvalue, rfl⟩ := ih (fun x hx => hcs x (by simp [hx])) (fun x hx => hds x (by simp [hx]))
            (by simpa using hlen) h
          have hc := hcs c (by simp)
          have hd := hds d (by simp)
          have hc10 := digit_lt hc
          have hd10 := digit_lt hd
          refine ⟨by omega, ?_⟩
          rw [digit_inj hc hd (by omega)]

theorem digitsValue_inj {cs ds : List Char} (hcs : ∀ c ∈ cs, c.isDigit = true)
    (hds : ∀ d ∈ ds, d.isDigit = true) (hlen : cs.length = ds.length)
    (h : digitsValue cs = digitsValue ds) : cs = ds :=
  (foldl_digits_inj hcs hds hlen h).2

/-! ## Deliveries -/

/-- The headers of a delivery, both there and not empty. -/
structure Headers where
  signature : String
  timestamp : String
  deriving DecidableEq, Repr

/-- The 32 bytes the signature denotes. -/
def Headers.digest (d : Headers) : List UInt8 := bytesOfHex (rawSignature d.signature).toList

/-- The instant the timestamp denotes. -/
def Headers.instant (d : Headers) : Nat := timestampMs d.timestamp

/-- The key `reserveWebhookDelivery` derives. -/
def Headers.dedupeKey (d : Headers) : RedisKey := .hiveWebhook d.timestamp (rawSignature d.signature)

/-- `verifyWebhookSignature` accepts the headers for a body at the time of
the world. -/
def Headers.accepted (cfg : HiveConfig) (rawBody : Body) (w : World) (d : Headers) : Prop :=
  ((verifyWebhookSignature cfg rawBody (some d.signature) (some d.timestamp)).run Cmd.exec w).1 =
    .ok ()

instance (cfg : HiveConfig) (rawBody : Body) (w : World) (d : Headers) :
    Decidable (d.accepted cfg rawBody w) := by
  unfold Headers.accepted
  infer_instance

/-- Both deliveries get one key, so the second one is rejected right after
the first. -/
def Deduplicated (d d' : Headers) : Prop :=
  d.dedupeKey = d'.dedupeKey ∧ ∀ w : World,
    ((reserveWebhookDelivery d'.signature d'.timestamp).run Cmd.exec
      ((reserveWebhookDelivery d.signature d.timestamp).run Cmd.exec w).2).1 = .ok false

/-- The same digits above nine are in upper case, and the timestamps are in
the same unit and have the same number of digits. -/
def SpelledAlike (d d' : Headers) : Prop :=
  (rawSignature d.signature).toList.map isUpperDigit =
      (rawSignature d'.signature).toList.map isUpperDigit ∧
    d.timestamp.toList.length = d'.timestamp.toList.length ∧
    (digitsValue d.timestamp.toList < 1000000000000 ↔
      digitsValue d'.timestamp.toList < 1000000000000)

instance (d d' : Headers) : Decidable (SpelledAlike d d') := by
  unfold SpelledAlike
  infer_instance

section Headers

variable {cfg : HiveConfig} {rawBody : Body} {w : World} {d d' : Headers}

theorem eq_of_present {value : Option String} {s : String} (h : present value = some s) :
    value = some s := by
  unfold present at h
  rw [Option.filter_eq_some_iff] at h
  exact h.1

/-- What has been accepted has passed every check. -/
theorem Headers.accepted_ok (h : d.accepted cfg rawBody w) :
    isTimestamp d.timestamp = true ∧ isHexDigest (rawSignature d.signature) = true ∧
      ∃ secret, cfg.secret = some secret ∧ d.digest = cfg.hmac secret rawBody := by
  unfold Headers.accepted verifyWebhookSignature at h
  cases hsecret : present cfg.secret with
  | none => rw [hsecret] at h; cases h
  | some secret =>
      cases hsignature : present (some d.signature) with
      | none => rw [hsecret, hsignature] at h; cases h
      | some signature =>
          cases htimestamp : present (some d.timestamp) with
          | none => rw [hsecret, hsignature, htimestamp] at h; cases h
          | some timestamp =>
              rw [hsecret, hsignature, htimestamp] at h
              obtain rfl := Option.some.inj (eq_of_present hsignature)
              obtain rfl := Option.some.inj (eq_of_present htimestamp)
              dsimp only at h
              cases hdigits : isTimestamp d.timestamp with
              | false => rw [hdigits] at h; cases h
              | true =>
                  rw [hdigits] at h
                  have hnow : (host .now).run Cmd.exec w = (.ok w.clock, w) := rfl
                  rw [if_neg (by decide), Proc.bind_eq, Proc.run_bind_ok _ hnow] at h
                  split at h
                  · cases h
                  · split at h
                    · cases h
                    · next hhex =>
                        split at h
                        · cases h
                        · next hbytes =>
                            refine ⟨rfl, by simpa using hhex, secret, eq_of_present hsecret, ?_⟩
                            exact Classical.not_not.mp hbytes

theorem isHexDigest_ok {s : String} (h : isHexDigest s = true) :
    s.toList.length = 64 ∧ ∀ c ∈ s.toList, (hexDigit c).isSome := by
  unfold isHexDigest at h
  simpa using h

theorem isTimestamp_digits {s : String} (h : isTimestamp s = true) :
    ∀ c ∈ s.toList, c.isDigit = true := by
  unfold isTimestamp at h
  exact List.all_eq_true.mp (Bool.and_eq_true_iff.mp h).2

/-- In one unit, instants are told apart by the numbers. -/
theorem value_of_instant (hunit : digitsValue d.timestamp.toList < 1000000000000 ↔
      digitsValue d'.timestamp.toList < 1000000000000) (hinstant : d.instant = d'.instant) :
    digitsValue d.timestamp.toList = digitsValue d'.timestamp.toList := by
  unfold Headers.instant timestampMs at hinstant
  dsimp only at hinstant
  split at hinstant
  · next hseconds =>
      rw [if_pos (hunit.mp hseconds)] at hinstant
      omega
  · next hmillis =>
      rw [if_neg fun h => hmillis (hunit.mpr h)] at hinstant
      exact hinstant

/-- Two spellings of the same bytes and the same instant get one key exactly
if they are alike. -/
theorem dedupeKey_eq_iff (h : d.accepted cfg rawBody w) (h' : d'.accepted cfg rawBody w)
    (hinstant : d.instant = d'.instant) : d.dedupeKey = d'.dedupeKey ↔ SpelledAlike d d' := by
  obtain ⟨hdigits, hhex, secret, hsecret, hbytes⟩ := Headers.accepted_ok h
  obtain ⟨hdigits', hhex', secret', hsecret', hbytes'⟩ := Headers.accepted_ok h'
  obtain rfl : secret = secret' := Option.some.inj (hsecret.symm.trans hsecret')
  constructor
  · intro hkey
    obtain ⟨htimestamp, hsignature⟩ := RedisKey.hiveWebhook.inj hkey
    unfold SpelledAlike
    rw [htimestamp, hsignature]
    exact ⟨rfl, rfl, Iff.rfl⟩
  · rintro ⟨hcase, hlen, hunit⟩
    obtain ⟨hlength, hsome⟩ := isHexDigest_ok hhex
    obtain ⟨hlength', hsome'⟩ := isHexDigest_ok hhex'
    have hdigest : d.digest = d'.digest := hbytes.trans hbytes'.symm
    have hsignature := bytesOfHex_inj hsome hsome' (hlength.trans hlength'.symm) (by rw [hlength])
      hdigest hcase
    have htimestamp := digitsValue_inj (isTimestamp_digits hdigits) (isTimestamp_digits hdigits') hlen
      (value_of_instant hunit hinstant)
    unfold Headers.dedupeKey
    rw [String.toList_inj.mp hsignature, String.toList_inj.mp htimestamp]

theorem reserve_run (d : Headers) (w : World) :
    (reserveWebhookDelivery d.signature d.timestamp).run Cmd.exec w =
      match w.get d.dedupeKey with
      | some _ => (.ok false, w)
      | none => (.ok true, w.set d.dedupeKey (.text "1") (some WEBHOOK_REPLAY_TTL_MS)) := by
  unfold reserveWebhookDelivery
  rw [Proc.run_await, Cmd.exec_redis]
  change (Except.ok ((RedisCmd.setNX d.dedupeKey (.text "1") WEBHOOK_REPLAY_TTL_MS).exec w).1,
    ((RedisCmd.setNX d.dedupeKey (.text "1") WEBHOOK_REPLAY_TTL_MS).exec w).2) = _
  cases hget : w.get d.dedupeKey <;> simp only [RedisCmd.exec, hget]

/-- A key that is reserved rejects, and another key lets a first delivery in. -/
theorem deduplicated_iff_key (d d' : Headers) : Deduplicated d d' ↔ d.dedupeKey = d'.dedupeKey := by
  refine ⟨fun h => h.1, fun hkey => ⟨hkey, fun w => ?_⟩⟩
  have hreserved : (((reserveWebhookDelivery d.signature d.timestamp).run Cmd.exec w).2.get
      d'.dedupeKey).isSome := by
    rw [reserve_run, ← hkey]
    cases hget : w.get d.dedupeKey with
    | some r =>
        dsimp only
        rw [hget]
        rfl
    | none =>
        dsimp only
        rw [World.get_set_self (by decide)]
        rfl
  obtain ⟨r, hr⟩ := Option.isSome_iff_exists.mp hreserved
  rw [reserve_run, hr]

end Headers

/-- **The key of a delivery is canonical** exactly among the headers that are
spelled alike: two accepted deliveries of one body carry the same bytes. -/
theorem deduplicated_iff (cfg : HiveConfig) (rawBody : Body) (w : World) (d d' : Headers)
    (h : d.accepted cfg rawBody w) (h' : d'.accepted cfg rawBody w)
    (hinstant : d.instant = d'.instant) : Deduplicated d d' ↔ SpelledAlike d d' :=
  (deduplicated_iff_key d d').trans (dedupeKey_eq_iff h h' hinstant)

/-- The time of the deliveries. -/
def deliveryTime : World := { World.empty with clock := 1000000000000 }

theorem deduplicated_iff_prefixed : Deduplicated ⟨violationSignature, "1000000000"⟩
    ⟨"sha256=" ++ violationSignature, "1000000000"⟩ :=
  (deduplicated_iff violationConfig violationBody deliveryTime _ _ (by decide +kernel)
    (by decide +kernel) (by decide +kernel)).mpr (by decide +kernel)

/-- The same bytes in upper case. -/
def upperSignature : String :=
  "D8C72D169546B6E0F0764668B8E4FD40306C2F37031DF4DA7693FB0433237A9C"

/-- The digest in upper case is accepted once more. -/
theorem deduplicated_not_upper : ¬∀ (cfg : HiveConfig) (rawBody : Body) (w : World) (d d' : Headers),
    d.accepted cfg rawBody w → d'.accepted cfg rawBody w → d.digest = d'.digest →
      d.instant = d'.instant → Deduplicated d d' := by
  intro h
  have hsame := h violationConfig violationBody deliveryTime ⟨violationSignature, "1000000000"⟩
    ⟨upperSignature, "1000000000"⟩ (by decide +kernel) (by decide +kernel) (by decide +kernel)
    (by decide +kernel)
  exact absurd hsame.1 (by decide)

end VerityBackend.Moderation
