/-
VerityBackend.Auth.Ages — who is old enough to sign up.

`calculateAge` counts birthdays: someone is `n` years old from the day on
that `Date.UTC` makes of the date of birth `n` years later
(`le_calculateAge_iff`). In every run, whatever the calls do to each other, a
stored date of birth is that of somebody whose eighteenth birthday has come,
and only those are turned away whose has not (`age_gate`).
-/
import Mathlib.Tactic.SplitIfs
import VerityBackend.Auth.Accounts

namespace VerityBackend.Auth

open Async

/-- `Date.UTC(year + n, month, date)` of a date of birth. -/
def birthday (dateOfBirth n : Int) : Int :=
  Calendar.makeDay (getUTCFullYear dateOfBirth + n) (getUTCMonth dateOfBirth)
    (getUTCDate dateOfBirth) * MS_PER_DAY

/-- **An age is a number of birthdays**, in the calendar of `Date`. Who was
born on 29 February has a birthday on 1 March of other years. -/
theorem le_calculateAge_iff (dateOfBirth now n : Int) :
    n ≤ calculateAge dateOfBirth now ↔ birthday dateOfBirth n ≤ now := by
  obtain ⟨hmonth, -, -⟩ := Calendar.monthOfDay_spec (dateOfBirth / MS_PER_DAY)
  obtain ⟨hlow, hhigh⟩ := Calendar.dateOfDay_spec (dateOfBirth / MS_PER_DAY)
  have hday : birthday dateOfBirth n ≤ now ↔
      Calendar.makeDay (getUTCFullYear dateOfBirth + n) (getUTCMonth dateOfBirth)
        (getUTCDate dateOfBirth) ≤ now / MS_PER_DAY :=
    (Int.le_ediv_iff_mul_le (by decide)).symm
  have horder := Calendar.makeDay_le_iff (y := getUTCFullYear dateOfBirth + n) hmonth hlow hhigh
    (now / MS_PER_DAY)
  refine Iff.trans ?_ (horder.symm.trans hday.symm)
  simp only [calculateAge, getUTCFullYear, getUTCMonth, getUTCDate]
  split_ifs <;> omega

example : calculateAge 951782400000 1519775999999 = 17 ∧ calculateAge 951782400000 1519862400000 = 18 := by
  decide

theorem checkDateOfBirth_ok {cfg : AccountConfig} {raw : Option String} {now : Nat}
    {dateOfBirth : Int} (h : checkDateOfBirth cfg raw now = .ok (some dateOfBirth)) :
    birthday dateOfBirth 18 ≤ now := by
  unfold checkDateOfBirth at h
  split at h
  · cases h
  · split at h
    · cases h
    · split at h
      · cases h
      · next hage =>
          obtain rfl := Option.some.inj (Except.ok.inj h)
          exact (le_calculateAge_iff _ _ _).mp (Int.not_lt.mp hage)

theorem checkDateOfBirth_young {cfg : AccountConfig} {raw : Option String} {now : Nat}
    (h : checkDateOfBirth cfg raw now = .error (.badRequest "Must be 18 or older")) :
    ∃ text dateOfBirth, raw = some text ∧ cfg.parseDate text = some dateOfBirth ∧
      (now : Int) < birthday dateOfBirth 18 := by
  unfold checkDateOfBirth at h
  split at h
  · cases h
  · next text hraw =>
      split at h
      · exact absurd (Err.badRequest.inj (Except.error.inj h)) (by decide)
      · next dateOfBirth hparse =>
          split at h
          · next hage =>
              have hnot := mt (le_calculateAge_iff dateOfBirth now 18).mpr (Int.not_le.mpr hage)
              exact ⟨text, dateOfBirth, (Option.filter_eq_some_iff.mp hraw).1, hparse,
                Int.not_le.mp hnot⟩
          · cases h

/-! ## What a sign-up does -/

section SignUp

variable {cfg : AccountConfig} {trace : List (Entry (accountSystem cfg))} {T : Nat}

/-- The data of somebody who had turned eighteen by the time of the check,
which was not after `T`. -/
def Grown (T : Nat) (dateOfBirth : Option Int) (ageVerifiedAt : Option Nat) : Prop :=
  (dateOfBirth = none ∧ ageVerifiedAt = none) ∨
    ∃ b t, dateOfBirth = some b ∧ ageVerifiedAt = some t ∧ birthday b 18 ≤ t ∧ t ≤ T

/-- Only rows of grown-ups are created. -/
def CreatesGrown (T : Nat) : AccountCmd → Prop
  | .userCreate data => Grown T data.dateOfBirth data.ageVerifiedAt
  | _ => True

/-- Call `i` has read the clock, and it was `t`. -/
def HasRead (trace : List (Entry (accountSystem cfg))) (i t : Nat) : Prop :=
  ∃ e ∈ trace, e.call = i ∧ e.cmd = .backend (.host .now) ∧ e.before.world.clock = t

/-- The answers a sign-up of call `i` gets: its reading of the clock is on
the trace, and nothing but its own checks finds the request bad. -/
def SignUpAnswer (trace : List (Entry (accountSystem cfg))) (T i : Nat) :
    (c : AccountCmd) → Except Err c.Res → Prop
  | .backend (.host .now), r => ∃ t, r = .ok t ∧ HasRead trace i t ∧ t ≤ T
  | .backend (.host .randomUUID), r => ∃ id, r = .ok id
  | .backend (.host (.emit _)), r => r = .ok ()
  | .backend (.db (.refreshTokenCreate _)), r => ∀ message, r ≠ .error (.badRequest message)
  | .userCreate _, r => ∃ user, r = .ok user
  | _, _ => True

/-- Whoever is turned away as too young was so when the clock was read. -/
def RejectsYoung (trace : List (Entry (accountSystem cfg))) (i : Nat) (input : SignupAnonymousDto)
    {α : Type} (r : Except Err α) : Prop :=
  r = .error (.badRequest "Must be 18 or older") →
    ∃ text b t, input.dateOfBirth = some text ∧ cfg.parseDate text = some b ∧
      HasRead trace i t ∧ (t : Int) < birthday b 18

/-- The tokens are issued without a complaint about the request. -/
theorem meets_issueTokens {i : Nat} {P : AccountCmd → Prop} (hP : ∀ c, P (.backend c))
    (userId : UserId) (userAgent ipAddress : Option String) (role : UserRole) :
    (onWorld (issueTokens cfg.auth userId ⟨none, userAgent, ipAddress, some role⟩)).Meets P
      (SignUpAnswer trace T i) fun r => ∀ message, r ≠ .error (.badRequest message) := by
  refine ⟨hP _, fun r hr => ?_⟩
  obtain ⟨now, rfl, -⟩ := hr
  refine ⟨hP _, fun r hr => ?_⟩
  obtain ⟨familyId, rfl⟩ := hr
  refine ⟨hP _, fun r hr => ?_⟩
  obtain ⟨tokenId, rfl⟩ := hr
  refine ⟨hP _, fun r hr => ?_⟩
  obtain ⟨signedAt, rfl, -⟩ := hr
  refine ⟨hP _, fun r hr => ?_⟩
  cases r with
  | error e => exact fun message h => hr message (congrArg _ (Except.error.inj h))
  | ok _ =>
      refine ⟨hP _, fun r hr => ?_⟩
      obtain ⟨issuedAt, rfl, -⟩ := hr
      exact fun message h => by cases h

theorem meets_signupAnonymous {i : Nat} {userAgent ipAddress : Option String}
    {input : SignupAnonymousDto} :
    (signupAnonymous cfg userAgent ipAddress input).Meets (CreatesGrown T) (SignUpAnswer trace T i)
      (RejectsYoung trace i input) := by
  refine ⟨trivial, fun r hr => ?_⟩
  obtain ⟨now, rfl, hread, hle⟩ := hr
  have hrest : (signupAt cfg userAgent ipAddress input now).Meets (CreatesGrown T)
      (SignUpAnswer trace T i) (RejectsYoung trace i input) := by
    unfold signupAt
    cases hcheck : checkDateOfBirth cfg input.dateOfBirth now with
    | error e =>
        refine Proc.meets_fail fun h => ?_
        obtain ⟨text, b, hraw, hparse, hlt⟩ :=
          checkDateOfBirth_young (hcheck.trans (congrArg _ (Except.error.inj h)))
        exact ⟨text, b, now, hraw, hparse, hread, hlt⟩
    | ok dateOfBirth =>
        refine ⟨?_, fun r hr => ?_⟩
        · cases dateOfBirth with
          | none => exact .inl ⟨rfl, rfl⟩
          | some b => exact .inr ⟨b, now, rfl, rfl, checkDateOfBirth_ok hcheck, hle⟩
        · obtain ⟨user, rfl⟩ := hr
          refine (meets_issueTokens (fun _ => trivial) _ _ _ _).bind (fun tokens _ => ?_)
            fun e he h => absurd (congrArg Except.error (Except.error.inj h)) (he _)
          refine ⟨trivial, fun r hr => ?_⟩
          obtain rfl := hr
          exact fun h => by cases h
  exact hrest

end SignUp

/-! ## Every run -/

theorem refreshTokenCreate_answer (row : RefreshToken) (w : World) :
    ∀ message, ((DbCmd.refreshTokenCreate row).exec w).1 ≠ .error (.badRequest message) := by
  intro message h
  simp only [DbCmd.exec, insertRefreshToken] at h
  split at h
  · cases h
  · next hinsert =>
      obtain rfl := Except.error.inj h
      split at hinsert
      · cases hinsert
      split at hinsert
      · cases hinsert
      · cases hinsert

/-- What is said of the outcome of an operation. -/
def SignUpOutcome {cfg : AccountConfig} (trace : List (Entry (accountSystem cfg))) :
    (o : AccountOp) → Nat → Except Err o.Ret → Prop
  | .signupAnonymous _ _ input, i, r => RejectsYoung trace i input r
  | _, _, _ => True

/-- The answers of a run are those a sign-up counts on. -/
theorem signUpAnswer_run {cfg : AccountConfig} {es : List (Event (accountSystem cfg))}
    {e : Entry (accountSystem cfg)} (he : e ∈ (accountRun cfg es).trace) :
    SignUpAnswer (accountRun cfg es).trace (accountRun cfg es).world.world.clock e.call e.cmd e.res := by
  have hle : e.before.world.clock ≤ (accountRun cfg es).world.world.clock :=
    Config.before_le (f := fun r : Registry => r.world.clock) (fun c (r : Registry) => Nat.le_of_eq (c.clock_exec r).symm)
      (fun ev (r : Registry) => r.clock_le_env ev) Registry.empty es e he
  obtain ⟨i, c, r⟩ := e
  cases c with
  | userCreate data => exact ⟨_, rfl⟩
  | backend c =>
      cases c with
      | redis c => trivial
      | host c =>
          cases c with
          | now => exact ⟨_, rfl, ⟨_, he, rfl, rfl, rfl⟩, hle⟩
          | randomUUID => exact ⟨_, rfl⟩
          | emit outputs => exact rfl
          | _ => trivial
      | db c =>
          cases c with
          | refreshTokenCreate row => exact refreshTokenCreate_answer row r.world
          | _ => trivial
  | _ => trivial

/-- **The age gate.** In every run a stored date of birth is that of somebody
who had turned eighteen when it was checked, and so it is now; and a sign-up
that was turned away as too young was that of somebody who had not. -/
theorem age_gate (cfg : AccountConfig) (es : List (Event (accountSystem cfg))) :
    (∀ a ∈ (accountRun cfg es).world.accounts,
      Grown (accountRun cfg es).world.world.clock a.dateOfBirth a.ageVerifiedAt) ∧
    ∀ i userAgent ipAddress input r,
      (accountRun cfg es).Settled i (.signupAnonymous userAgent ipAddress input) r →
        RejectsYoung (accountRun cfg es).trace i input r := by
  have hcode : ∀ (o : AccountOp) (i : Nat), (o.code cfg).Meets
      (CreatesGrown (accountRun cfg es).world.world.clock)
      (SignUpAnswer (accountRun cfg es).trace (accountRun cfg es).world.world.clock i)
      (SignUpOutcome (accountRun cfg es).trace o i) := by
    intro o i
    cases o with
    | signupAnonymous userAgent ipAddress input => exact meets_signupAnonymous
    | _ =>
        refine ((conforms_code cfg _ fun _ _ _ h => by cases h).keeps trivial).mono (fun c hc => ?_)
          fun _ _ => trivial
        cases hc <;> trivial
  have hcourse := Config.run_meets hcode Registry.empty es fun e he => signUpAnswer_run he
  refine ⟨fun a ha => ?_, fun i userAgent ipAddress input r hr => hcourse.settled hr⟩
  obtain ⟨⟨e, he, data, hcmd, hbirth, hverified⟩, -⟩ := recorded_run es a ha
  obtain ⟨o, p, -, hgrown⟩ := hcourse.issued e he
  rw [hcmd] at hgrown
  rw [hbirth, hverified]
  exact hgrown

end VerityBackend.Auth
