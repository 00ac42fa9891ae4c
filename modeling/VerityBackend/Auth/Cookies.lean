/-
VerityBackend.Auth.Cookies — the cookie of the refresh token
(`auth/iefresh.guard.ts` and `setRefreshCookie` of `auth/auth.service.ts`).

The guard parses the `Cookie` header itself. It reads the last cookie of the
name (`canActivate_cookieHeader`), so that a token comes back as it was set,
whatever other cookies travel with it, unless a later cookie has its name
(`canActivate_setRefreshCookie`).
-/
import VerityBackend.Auth.TokenKinds
import VerityBackend.Format.Percent
import VerityBackend.Queue.Cities

namespace VerityBackend.Auth

def REFRESH_COOKIE_NAME : String := "refresh_token"

/-! ## The guard -/

/-- `acc[rawKey] = value`: the setter of `__proto__` takes no string. -/
def setCookie (acc : List (String × String)) (rawKey value : String) : List (String × String) :=
  if rawKey = "__proto__" then acc else (rawKey, value) :: acc.filter (·.1 ≠ rawKey)

/-- A value that is no percent-encoding stays as it is. -/
def decodeCookie (rawValue : List Char) : String :=
  match Percent.decode rawValue with
  | some value => String.ofList value
  | none => String.ofList rawValue

def parsePart (acc : List (String × String)) (part : List Char) : List (String × String) :=
  match (jsTrim (String.ofList part)).toList.splitOn '=' with
  | [] => acc
  | rawKey :: rest =>
      if rawKey = [] then acc
      else setCookie acc (String.ofList rawKey) (decodeCookie (['='].intercalate rest))

def parseCookies (header : Option String) : List (String × String) :=
  match header with
  | none => []
  | some header => if header = "" then [] else (header.toList.splitOn ';').foldl parsePart []

/-- `RefreshGuard.canActivate`, with the token it leaves in the request.
`cookies` is what a middleware would have parsed. -/
def canActivate (cookies : Option (List (String × String))) (header : Option String) :
    Except Err String :=
  match (cookies.getD (parseCookies header)).lookup REFRESH_COOKIE_NAME with
  | none => .error (.unauthorized "Missing refresh token")
  | some token =>
      if token = "" then .error (.unauthorized "Missing refresh token") else .ok token

/-! ## The cookie -/

/-- The variables of `process.env` the options are read from. -/
structure CookieEnv where
  NODE_ENV : Option String
  REFRESH_COOKIE_SAMESITE : Option String
  REFRESH_COOKIE_DOMAIN : Option String
  deriving DecidableEq, Repr

structure CookieOptions where
  httpOnly : Bool
  secure : Bool
  sameSite : String
  domain : Option String
  path : String
  maxAge : Nat
  deriving DecidableEq, Repr

def getRefreshCookieOptions (env : CookieEnv) : CookieOptions :=
  let isProd := env.NODE_ENV == some "production"
  let rawSameSite := env.REFRESH_COOKIE_SAMESITE.map fun s => String.ofList (s.toList.flatMap jsLower)
  let sameSite :=
    match rawSameSite with
    | some s => if s = "lax" ∨ s = "none" ∨ s = "strict" then s else "strict"
    | none => "strict"
  { httpOnly := true
    secure := isProd || sameSite == "none"
    sameSite := sameSite
    domain := (env.REFRESH_COOKIE_DOMAIN.map jsTrim).filter (0 < jsLength ·)
    path := "/auth/refresh"
    maxAge := REFRESH_TOKEN_TTL_DAYS * 24 * 60 * 60 * 1000 }

/-- One `Set-Cookie` header. -/
structure SetCookie where
  name : List Char
  value : List Char
  options : CookieOptions
  deriving DecidableEq, Repr

/-- `response.cookie` encodes the value. -/
def setRefreshCookie (env : CookieEnv) (token : String) : SetCookie where
  name := REFRESH_COOKIE_NAME.toList
  value := Percent.encode token.toList
  options := getRefreshCookieOptions env

/-! ## The header -/

/-- One cookie of a request. -/
structure CookiePair where
  name : List Char
  value : List Char
  deriving DecidableEq, Repr

/-- A name without separators and a value without `;`, neither with white
space. -/
structure CookiePair.WellFormed (p : CookiePair) : Prop where
  name_ne : p.name ≠ []
  name_chars : ∀ c ∈ p.name, c ≠ '=' ∧ c ≠ ';' ∧ isJsSpace c = false
  value_chars : ∀ c ∈ p.value, c ≠ ';' ∧ isJsSpace c = false

def SetCookie.pair (c : SetCookie) : CookiePair := ⟨c.name, c.value⟩

def CookiePair.text (p : CookiePair) : List Char := p.name ++ '=' :: p.value

/-- The pairs, with `"; "` between them. -/
def cookieText : List CookiePair → List Char
  | [] => []
  | [p] => p.text
  | p :: q :: ps => p.text ++ ';' :: ' ' :: cookieText (q :: ps)

def cookieHeader (ps : List CookiePair) : String := String.ofList (cookieText ps)

/-- The value of the last pair of a name. -/
def lastValue (ps : List CookiePair) (name : String) : Option (List Char) :=
  (ps.reverse.find? fun p => p.name == name.toList).map CookiePair.value

/-! ## Reading it back -/

theorem lastValue_cons (p : CookiePair) (ps : List CookiePair) (name : String) :
    lastValue (p :: ps) name =
      (lastValue ps name).or (if p.name = name.toList then some p.value else none) := by
  unfold lastValue
  rw [List.reverse_cons, List.find?_append]
  by_cases h : p.name = name.toList
  · cases ps.reverse.find? (fun p => p.name == name.toList) <;> simp [h]
  · cases ps.reverse.find? (fun p => p.name == name.toList) <;> simp [h]

theorem CookiePair.WellFormed.semicolon {p : CookiePair} (h : p.WellFormed) : ';' ∉ p.text := by
  intro hmem
  rcases List.mem_append.mp hmem with hname | hrest
  · exact (h.name_chars _ hname).2.1 rfl
  · rcases List.mem_cons.mp hrest with heq | hvalue
    · exact absurd heq (by decide)
    · exact (h.value_chars _ hvalue).1 rfl

theorem CookiePair.WellFormed.space {p : CookiePair} (h : p.WellFormed) :
    ∀ c ∈ p.text, isJsSpace c = false := by
  intro c hmem
  rcases List.mem_append.mp hmem with hname | hrest
  · exact (h.name_chars c hname).2.2
  · rcases List.mem_cons.mp hrest with rfl | hvalue
    · decide
    · exact (h.value_chars c hvalue).2

theorem CookiePair.text_ne_nil (p : CookiePair) : p.text ≠ [] :=
  List.append_ne_nil_of_right_ne_nil _ (List.cons_ne_nil _ _)

/-- Every part but the first has a blank before it. -/
theorem splitOn_cookieText {p : CookiePair} {ps : List CookiePair}
    (h : ∀ q ∈ p :: ps, q.WellFormed) :
    (cookieText (p :: ps)).splitOn ';' = p.text :: ps.map fun q => ' ' :: q.text := by
  induction ps generalizing p with
  | nil => exact List.splitOn_eq_singleton (h p (.head _)).semicolon
  | cons q qs ih =>
      have hrest : (cookieText (q :: qs)).splitOn ';' = q.text :: qs.map fun q => ' ' :: q.text :=
        ih fun q' hq' => h q' (.tail _ hq')
      have hblank : (' ' :: cookieText (q :: qs)).splitOn ';' =
          (' ' :: q.text) :: qs.map fun q => ' ' :: q.text := by
        rw [List.splitOn_cons_eq_if_modifyHead, if_neg (by decide), hrest]
        rfl
      rw [cookieText, List.splitOn_append_cons_self_of_not_mem (h p (.head _)).semicolon, hblank]
      rfl

theorem jsTrim_blank (s : List Char) :
    jsTrim (String.ofList (' ' :: s)) = jsTrim (String.ofList s) := by
  have hblank : isJsSpace ' ' = true := by decide
  unfold jsTrim
  rw [String.toList_ofList, String.toList_ofList, List.dropWhile_cons_of_pos hblank]

theorem parsePart_blank (acc : List (String × String)) (part : List Char) :
    parsePart acc (' ' :: part) = parsePart acc part := by
  unfold parsePart
  rw [jsTrim_blank]

theorem parsePart_text {p : CookiePair} (h : p.WellFormed) (acc : List (String × String)) :
    parsePart acc p.text = setCookie acc (String.ofList p.name) (decodeCookie p.value) := by
  have htrim : jsTrim (String.ofList p.text) = String.ofList p.text :=
    Queue.jsTrim_of_plain (by rw [String.toList_ofList]; exact h.space)
  have hname : '=' ∉ p.name := fun hmem => (h.name_chars _ hmem).1 rfl
  have hsplit : p.text.splitOn '=' = p.name :: p.value.splitOn '=' :=
    List.splitOn_append_cons_self_of_not_mem hname p.value
  unfold parsePart
  rw [htrim, String.toList_ofList, hsplit]
  simp only [if_neg h.name_ne, List.intercalate_splitOn]

theorem lookup_setCookie {name : String} (hname : name ≠ "__proto__")
    (acc : List (String × String)) (rawKey value : String) :
    (setCookie acc rawKey value).lookup name =
      if rawKey = name then some value else acc.lookup name := by
  have hfilter : ∀ acc : List (String × String), rawKey ≠ name →
      (acc.filter (·.1 ≠ rawKey)).lookup name = acc.lookup name := by
    intro acc hne
    induction acc with
    | nil => rfl
    | cons entry acc ih =>
        obtain ⟨key, v⟩ := entry
        by_cases hkey : key = rawKey
        · have hn : (name == key) = false := by
            rw [hkey]
            exact beq_eq_false_iff_ne.mpr (Ne.symm hne)
          rw [List.filter_cons_of_neg (by simpa using hkey), ih, List.lookup_cons, hn]
        · rw [List.filter_cons_of_pos (by simpa using hkey), List.lookup_cons, List.lookup_cons, ih]
  unfold setCookie
  by_cases hkey : rawKey = name
  · subst hkey
    rw [if_neg hname, if_pos rfl]
    simp
  · rw [if_neg hkey]
    split
    · rfl
    · have hn : (name == rawKey) = false := beq_eq_false_iff_ne.mpr (Ne.symm hkey)
      rw [List.lookup_cons, hn, hfilter acc hkey]

theorem lookup_foldl_parsePart {name : String} (hname : name ≠ "__proto__") {ps : List CookiePair}
    (h : ∀ q ∈ ps, q.WellFormed) (acc : List (String × String)) :
    ((ps.map CookiePair.text).foldl parsePart acc).lookup name =
      ((lastValue ps name).map decodeCookie).or (acc.lookup name) := by
  induction ps generalizing acc with
  | nil => rfl
  | cons p ps ih =>
      have hkey : String.ofList p.name = name ↔ p.name = name.toList := by
        constructor
        · rintro rfl
          rw [String.toList_ofList]
        · intro heq
          rw [heq, String.ofList_toList]
      rw [List.map_cons, List.foldl_cons, parsePart_text (h p (.head _)),
        ih (fun q hq => h q (.tail _ hq)), lookup_setCookie hname, lastValue_cons]
      cases lastValue ps name with
      | some raw => rfl
      | none =>
          by_cases heq : p.name = name.toList
          · simp [heq]
          · simp [mt hkey.mp heq, heq]

theorem parseCookies_of_ne {header : String} (h : header ≠ "") :
    parseCookies (some header) = (header.toList.splitOn ';').foldl parsePart [] := if_neg h

/-- The parser finds the last cookie of a name. -/
theorem lookup_parseCookies {name : String} (hname : name ≠ "__proto__") {ps : List CookiePair}
    (h : ∀ q ∈ ps, q.WellFormed) :
    (parseCookies (some (cookieHeader ps))).lookup name =
      (lastValue ps name).map decodeCookie := by
  cases ps with
  | nil => rfl
  | cons p ps =>
      have hne : cookieHeader (p :: ps) ≠ "" := by
        intro heq
        have hnil : cookieText (p :: ps) = [] := by
          rw [← String.toList_ofList (l := cookieText (p :: ps)), ← cookieHeader, heq]
          rfl
        have hsplit := splitOn_cookieText h
        rw [hnil, List.splitOn_nil] at hsplit
        exact p.text_ne_nil (List.cons.inj hsplit).1.symm
      have hblanks : ∀ (ps : List CookiePair) (acc : List (String × String)),
          (ps.map fun q => ' ' :: q.text).foldl parsePart acc =
            (ps.map CookiePair.text).foldl parsePart acc := by
        intro ps
        induction ps with
        | nil => exact fun _ => rfl
        | cons q qs ih =>
            intro acc
            simp only [List.map_cons, List.foldl_cons, parsePart_blank, ih]
      have hfold := lookup_foldl_parsePart hname h []
      rw [List.map_cons, List.foldl_cons, List.lookup_nil, Option.or_none] at hfold
      rw [parseCookies_of_ne hne, cookieHeader, String.toList_ofList, splitOn_cookieText h,
        List.foldl_cons, hblanks]
      exact hfold

/-- **The guard takes the last cookie of the name**, decoded, if it says
anything. -/
theorem canActivate_cookieHeader {ps : List CookiePair} (h : ∀ q ∈ ps, q.WellFormed)
    (token : String) :
    canActivate none (some (cookieHeader ps)) = .ok token ↔
      token ≠ "" ∧ (lastValue ps REFRESH_COOKIE_NAME).map decodeCookie = some token := by
  unfold canActivate
  rw [Option.getD_none, lookup_parseCookies (by decide) h]
  cases (lastValue ps REFRESH_COOKIE_NAME).map decodeCookie with
  | none => simp
  | some value =>
      by_cases hvalue : value = ""
      · simp only [hvalue, if_true, reduceCtorEq, Option.some.injEq, false_iff]
        rintro ⟨hne, rfl⟩
        exact hne rfl
      · simp only [if_neg hvalue, Except.ok.injEq, Option.some.injEq]
        constructor
        · rintro rfl
          exact ⟨hvalue, rfl⟩
        · exact fun h => h.2

theorem decodeCookie_encode (s : String) : decodeCookie (Percent.encode s.toList) = s := by
  rw [decodeCookie, Percent.decode_encode]
  exact String.ofList_toList

/-- The characters of a text, one after the other. -/
theorem forall_of_all {s : List Char} {P : Char → Prop} [DecidablePred P]
    (h : s.all (fun c => decide (P c)) = true) : ∀ c ∈ s, P c :=
  fun c hc => of_decide_eq_true (List.all_eq_true.mp h c hc)

/-- Neither a blank nor a semicolon is in an encoded text. -/
theorem not_isJsSpace_of_plain {c : Char} (h : Percent.Plain c) : c ≠ ';' ∧ isJsSpace c = false := by
  rcases h with h | rfl
  · rcases Bool.or_eq_true_iff.mp h with halnum | hmark
    · have hval : (decide ('A'.val ≤ c.val ∧ c.val ≤ 'Z'.val) ||
          (decide ('a'.val ≤ c.val) && decide (c.val ≤ 'z'.val)) ||
          (decide ('0'.val ≤ c.val) && decide (c.val ≤ '9'.val))) = true := halnum
      simp only [Bool.or_eq_true, Bool.and_eq_true, decide_eq_true_eq,
        UInt32.le_iff_toNat_le] at hval
      have hrange : (65 ≤ c.toNat ∧ c.toNat ≤ 90) ∨ (97 ≤ c.toNat ∧ c.toNat ≤ 122) ∨
          (48 ≤ c.toNat ∧ c.toNat ≤ 57) := by
        rw [← or_assoc]
        exact hval
      constructor
      · rintro rfl
        revert hrange
        decide
      · simp only [isJsSpace, Bool.or_eq_false_iff, Bool.and_eq_false_iff, decide_eq_false_iff_not,
          beq_eq_false_iff_ne, ne_eq]
        omega
    · have hmarks : ∀ c ∈ "-_.!~*'()".toList, c ≠ ';' ∧ isJsSpace c = false :=
        forall_of_all (by decide)
      exact hmarks c (List.contains_iff_mem.mp hmark)
  · decide

theorem wellFormed_setRefreshCookie (env : CookieEnv) (token : String) :
    (setRefreshCookie env token).pair.WellFormed where
  name_ne := by
    have h : REFRESH_COOKIE_NAME.toList ≠ [] := by decide
    exact h
  name_chars := by
    have h : ∀ c ∈ REFRESH_COOKIE_NAME.toList, c ≠ '=' ∧ c ≠ ';' ∧ isJsSpace c = false :=
      forall_of_all (by decide)
    exact h
  value_chars := fun c hc => not_isJsSpace_of_plain (Percent.plain_of_mem_encode hc)

/-- **The cookie comes back as it was set**, between any other cookies, if
and only if none of its name after it says otherwise. -/
theorem canActivate_setRefreshCookie (env : CookieEnv) (token : String)
    {before after : List CookiePair} (hbefore : ∀ q ∈ before, q.WellFormed)
    (hafter : ∀ q ∈ after, q.WellFormed) :
    canActivate none
        (some (cookieHeader (before ++ (setRefreshCookie env token).pair :: after))) = .ok token ↔
      token ≠ "" ∧ ∀ raw, lastValue after REFRESH_COOKIE_NAME = some raw → decodeCookie raw = token := by
  have hall : ∀ q ∈ before ++ (setRefreshCookie env token).pair :: after, q.WellFormed := by
    intro q hq
    rcases List.mem_append.mp hq with hq | hq
    · exact hbefore q hq
    · rcases List.mem_cons.mp hq with rfl | hq
      · exact wellFormed_setRefreshCookie env token
      · exact hafter q hq
  have hlast : lastValue (before ++ (setRefreshCookie env token).pair :: after)
      REFRESH_COOKIE_NAME =
        (lastValue after REFRESH_COOKIE_NAME).or (some (Percent.encode token.toList)) := by
    induction before with
    | nil => exact lastValue_cons _ _ _
    | cons p before ih =>
        rw [List.cons_append, lastValue_cons,
          ih (fun q hq => hbefore q (.tail _ hq)) fun q hq => hall q (.tail _ hq)]
        cases lastValue after REFRESH_COOKIE_NAME <;> rfl
  rw [canActivate_cookieHeader hall, hlast]
  cases lastValue after REFRESH_COOKIE_NAME with
  | none => simp [decodeCookie_encode]
  | some raw => simp

/-- `theme=dark; refresh_token=…; lang=de`. -/
theorem canActivate_setRefreshCookie_between :
    canActivate none
        (some (cookieHeader ([⟨"theme".toList, "dark".toList⟩] ++
          (setRefreshCookie ⟨none, none, none⟩ "a.b; c=é").pair ::
            [⟨"lang".toList, "de".toList⟩]))) = .ok "a.b; c=é" :=
  (canActivate_setRefreshCookie ⟨none, none, none⟩ "a.b; c=é"
    (fun q hq => by
      rw [List.mem_singleton.mp hq]
      exact ⟨by decide, forall_of_all (by decide), forall_of_all (by decide)⟩)
    (fun q hq => by
      rw [List.mem_singleton.mp hq]
      exact ⟨by decide, forall_of_all (by decide), forall_of_all (by decide)⟩)).mpr
    ⟨by decide, fun raw hraw => by
      have hnone : lastValue [⟨"lang".toList, "de".toList⟩] REFRESH_COOKIE_NAME = none := by decide
      rw [hnone] at hraw
      cases hraw⟩

end VerityBackend.Auth
