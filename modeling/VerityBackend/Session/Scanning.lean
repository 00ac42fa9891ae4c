/-
VerityBackend.Session.Scanning — the scan for the keys to recover
(`scanKeys` of `session/session.service.ts`).

`redis.scan` is an argument: the answer to the `n`-th call, whatever it is.
Nothing is assumed of the cursors, so the loop may go on for as long as the
clock lets it; `scanKeys` is given that many rounds at most.
-/
import Mathlib.Order.Monotone.Defs
import VerityBackend.Session.Service

namespace VerityBackend.Sessions

def RECOVERY_SCAN_COUNT : Nat := 200
def RECOVERY_MAX_KEYS : Nat := 10000

/-- `[nextCursor, pageKeys]`. -/
structure ScanPage where
  nextCursor : String
  pageKeys : List String
  deriving DecidableEq, Repr

/-- `scan(cursor, 'MATCH', pattern, 'COUNT', count)`. -/
structure ScanCall where
  cursor : String
  pattern : String
  count : Nat
  deriving DecidableEq, Repr

structure ScanKeysResult where
  keys : List String
  scanned : Nat
  truncated : Bool
  deriving DecidableEq, Repr

/-- `keys.add(key)`. -/
def addKey (keys : List String) (key : String) : List String :=
  if key ∈ keys then keys else keys ++ [key]

/-- The `for` loop over a page, and whether it was left early. -/
def takePage (keys : List String) : List String → List String × Bool
  | [] => (keys, false)
  | key :: rest =>
      if RECOVERY_MAX_KEYS ≤ keys.length then (keys, true) else takePage (addKey keys key) rest

section Scan

variable (scan : Nat → ScanCall → ScanPage) (pattern : String)

/-- The `do … while` loop from round `n` on. `clock n` is the `n`-th reading
of `Date.now()`. -/
def scanLoop (clock : Nat → Nat) : Nat → Nat → String → List String → Nat → Option ScanKeysResult
  | 0, _, _, _, _ => none
  | fuel + 1, n, cursor, keys, scanned =>
      let page := scan n ⟨cursor, pattern, RECOVERY_SCAN_COUNT⟩
      let (keys, full) := takePage keys page.pageKeys
      let scanned := scanned + page.pageKeys.length
      if full ∨ RECOVERY_MAX_DURATION_MS ≤ clock (n + 1) - clock 0 then some ⟨keys, scanned, true⟩
      else if page.nextCursor = "0" then some ⟨keys, scanned, false⟩
      else scanLoop clock fuel (n + 1) page.nextCursor keys scanned

/-- `scanKeys`, given so many rounds. -/
def scanKeys (clock : Nat → Nat) (fuel : Nat) : Option ScanKeysResult :=
  scanLoop scan pattern clock fuel 0 "0" [] 0

/-- The cursor of the `n`-th call. -/
def cursorAt : Nat → String
  | 0 => "0"
  | n + 1 => (scan n ⟨cursorAt n, pattern, RECOVERY_SCAN_COUNT⟩).nextCursor

/-- The `n`-th page of a scan that goes on for so long. -/
def pageAt (n : Nat) : ScanPage := scan n ⟨cursorAt scan pattern n, pattern, RECOVERY_SCAN_COUNT⟩

/-- The result of a scan whose last page was `last`. -/
structure Honest (last : Nat) (result : ScanKeysResult) : Prop where
  nodup : result.keys.Nodup
  bounded : result.keys.length ≤ RECOVERY_MAX_KEYS
  read : ∀ key ∈ result.keys, ∃ n ≤ last, key ∈ (pageAt scan pattern n).pageKeys
  finished : result.truncated = false → (pageAt scan pattern last).nextCursor = "0" ∧
    ∀ n < last, (pageAt scan pattern n).nextCursor ≠ "0"
  complete : result.truncated = false → ∀ n ≤ last, ∀ key ∈ (pageAt scan pattern n).pageKeys,
    key ∈ result.keys

end Scan

/-! ## One page -/

section Page

variable {keys : List String}

theorem mem_addKey {key x : String} : x ∈ addKey keys key ↔ x ∈ keys ∨ x = key := by
  unfold addKey
  split
  · next h => exact ⟨.inl, fun hx => hx.elim id fun hx => hx ▸ h⟩
  · rw [List.mem_append, List.mem_singleton]

theorem nodup_addKey (h : keys.Nodup) (key : String) : (addKey keys key).Nodup := by
  unfold addKey
  split
  · exact h
  · next hnew =>
      exact List.nodup_append.mpr ⟨h, List.nodup_singleton key, fun x hx y hy heq =>
        hnew (List.mem_singleton.mp hy ▸ heq ▸ hx)⟩

theorem length_addKey (keys : List String) (key : String) :
    (addKey keys key).length ≤ keys.length + 1 := by
  unfold addKey
  split
  · exact Nat.le_succ _
  · simp

/-- What a page adds to the keys. -/
structure Taken (keys pageKeys : List String) (taken : List String × Bool) : Prop where
  nodup : keys.Nodup → taken.1.Nodup
  bounded : keys.length ≤ RECOVERY_MAX_KEYS → taken.1.length ≤ RECOVERY_MAX_KEYS
  kept : ∀ key ∈ keys, key ∈ taken.1
  read : ∀ key ∈ taken.1, key ∈ keys ∨ key ∈ pageKeys
  complete : taken.2 = false → ∀ key ∈ pageKeys, key ∈ taken.1

theorem takePage_taken (keys pageKeys : List String) : Taken keys pageKeys (takePage keys pageKeys) := by
  induction pageKeys generalizing keys with
  | nil => exact ⟨id, id, fun _ => id, fun _ => .inl, fun _ => nofun⟩
  | cons key rest ih =>
      unfold takePage
      split
      · exact ⟨id, id, fun _ => id, fun _ => .inl, nofun⟩
      · next hroom =>
          have h := ih (addKey keys key)
          refine ⟨fun hkeys => h.nodup (nodup_addKey hkeys key), fun _ => h.bounded ?_,
            fun x hx => h.kept x (mem_addKey.mpr (.inl hx)), fun x hx => ?_, fun hfull => ?_⟩
          · have := length_addKey keys key
            omega
          · rcases h.read x hx with hold | hrest
            · rcases mem_addKey.mp hold with hkeys | rfl
              · exact .inl hkeys
              · exact .inr (.head _)
            · exact .inr (.tail _ hrest)
          · exact List.forall_mem_cons.mpr ⟨h.kept key (mem_addKey.mpr (.inr rfl)), h.complete hfull⟩

end Page

/-! ## The loop -/

section Loop

variable {scan : Nat → ScanCall → ScanPage} {pattern : String} {clock : Nat → Nat}

/-- One round of the loop. -/
theorem scanLoop_succ (fuel n : Nat) (cursor : String) (keys : List String) (scanned : Nat)
    {page : ScanPage} (hpage : scan n ⟨cursor, pattern, RECOVERY_SCAN_COUNT⟩ = page) :
    scanLoop scan pattern clock (fuel + 1) n cursor keys scanned =
      if (takePage keys page.pageKeys).2 = true ∨
          RECOVERY_MAX_DURATION_MS ≤ clock (n + 1) - clock 0 then
        some ⟨(takePage keys page.pageKeys).1, scanned + page.pageKeys.length, true⟩
      else if page.nextCursor = "0" then
        some ⟨(takePage keys page.pageKeys).1, scanned + page.pageKeys.length, false⟩
      else scanLoop scan pattern clock fuel (n + 1) page.nextCursor (takePage keys page.pageKeys).1
        (scanned + page.pageKeys.length) := by
  rw [scanLoop, hpage]

/-- Before round `n`, the keys are those of the pages read so far, none of
which was the last one. -/
structure Scanned (scan : Nat → ScanCall → ScanPage) (pattern : String) (n : Nat)
    (keys : List String) : Prop where
  nodup : keys.Nodup
  bounded : keys.length ≤ RECOVERY_MAX_KEYS
  mem_iff : ∀ key, key ∈ keys ↔ ∃ m < n, key ∈ (pageAt scan pattern m).pageKeys
  unfinished : ∀ m < n, (pageAt scan pattern m).nextCursor ≠ "0"

/-- **Step lemma**: a page that is taken whole and is not the last one. -/
theorem Scanned.next {n : Nat} {keys : List String} (h : Scanned scan pattern n keys)
    (hfull : (takePage keys (pageAt scan pattern n).pageKeys).2 = false)
    (hcursor : (pageAt scan pattern n).nextCursor ≠ "0") :
    Scanned scan pattern (n + 1) (takePage keys (pageAt scan pattern n).pageKeys).1 := by
  have htaken := takePage_taken keys (pageAt scan pattern n).pageKeys
  refine ⟨htaken.nodup h.nodup, htaken.bounded h.bounded, fun key => ⟨fun hkey => ?_, ?_⟩,
    fun m hm => ?_⟩
  · rcases htaken.read key hkey with hold | hnew
    · obtain ⟨m, hm, hpage⟩ := (h.mem_iff key).mp hold
      exact ⟨m, Nat.lt_succ_of_lt hm, hpage⟩
    · exact ⟨n, Nat.lt_succ_self n, hnew⟩
  · rintro ⟨m, hm, hpage⟩
    rcases Nat.lt_succ_iff_lt_or_eq.mp hm with hlt | rfl
    · exact htaken.kept key ((h.mem_iff key).mpr ⟨m, hlt, hpage⟩)
    · exact htaken.complete hfull key hpage
  · rcases Nat.lt_succ_iff_lt_or_eq.mp hm with hlt | rfl
    · exact h.unfinished m hlt
    · exact hcursor

/-- What the loop returns in round `n` is honest. -/
theorem Scanned.honest {n : Nat} {keys : List String} (h : Scanned scan pattern n keys)
    {scanned : Nat} {truncated : Bool}
    (hend : truncated = false → (takePage keys (pageAt scan pattern n).pageKeys).2 = false ∧
      (pageAt scan pattern n).nextCursor = "0") :
    Honest scan pattern n ⟨(takePage keys (pageAt scan pattern n).pageKeys).1, scanned, truncated⟩ := by
  have htaken := takePage_taken keys (pageAt scan pattern n).pageKeys
  refine ⟨htaken.nodup h.nodup, htaken.bounded h.bounded, fun key hkey => ?_,
    fun ht => ⟨(hend ht).2, h.unfinished⟩, fun ht m hm key hkey => ?_⟩
  · rcases htaken.read key hkey with hold | hnew
    · obtain ⟨m, hm, hpage⟩ := (h.mem_iff key).mp hold
      exact ⟨m, Nat.le_of_lt hm, hpage⟩
    · exact ⟨n, Nat.le_refl n, hnew⟩
  · rcases Nat.lt_or_eq_of_le hm with hlt | rfl
    · exact htaken.kept key ((h.mem_iff key).mpr ⟨m, hlt, hkey⟩)
    · exact htaken.complete (hend ht).1 key hkey

/-- **Run lemma**: whatever the loop returns is honest. -/
theorem scanLoop_honest {fuel n scanned : Nat} {keys : List String} (h : Scanned scan pattern n keys)
    {result : ScanKeysResult}
    (hrun : scanLoop scan pattern clock fuel n (cursorAt scan pattern n) keys scanned = some result) :
    ∃ last, Honest scan pattern last result := by
  induction fuel generalizing n keys scanned with
  | zero => cases hrun
  | succ fuel ih =>
      rw [scanLoop_succ fuel n _ keys scanned rfl] at hrun
      change (if _ then _ else if (pageAt scan pattern n).nextCursor = "0" then _ else _) = _ at hrun
      split at hrun
      · obtain rfl := Option.some.inj hrun
        exact ⟨n, h.honest nofun⟩
      · next hgoes =>
          have hfull : (takePage keys (pageAt scan pattern n).pageKeys).2 = false := by
            rw [not_or, Bool.not_eq_true] at hgoes
            exact hgoes.1
          split at hrun
          · next hcursor =>
              obtain rfl := Option.some.inj hrun
              exact ⟨n, h.honest fun _ => ⟨hfull, hcursor⟩⟩
          · next hcursor => exact ih (h.next hfull hcursor) hrun

/-- The loop has returned by the round in which the budget is used up. -/
theorem scanLoop_returns (hclock : Monotone clock) {N : Nat}
    (hN : clock 0 + RECOVERY_MAX_DURATION_MS ≤ clock N) (k n : Nat) (hk : N ≤ n + 1 + k)
    (cursor : String) (keys : List String) (scanned : Nat) :
    ∃ result, ∀ fuel, scanLoop scan pattern clock (k + 1 + fuel) n cursor keys scanned =
      some result := by
  induction k generalizing n cursor keys scanned with
  | zero =>
      have hpast : clock N ≤ clock (n + 1) := hclock hk
      have hbudget : RECOVERY_MAX_DURATION_MS ≤ clock (n + 1) - clock 0 := by omega
      generalize hpage : scan n ⟨cursor, pattern, RECOVERY_SCAN_COUNT⟩ = page
      refine ⟨⟨(takePage keys page.pageKeys).1, scanned + page.pageKeys.length, true⟩, fun fuel => ?_⟩
      rw [Nat.zero_add, Nat.add_comm, scanLoop_succ fuel n cursor keys scanned hpage,
        if_pos (.inr hbudget)]
  | succ k ih =>
      generalize hpage : scan n ⟨cursor, pattern, RECOVERY_SCAN_COUNT⟩ = page
      have hround (fuel : Nat) :=
        @scanLoop_succ scan pattern clock (k + 1 + fuel) n cursor keys scanned page hpage
      have hfuel (fuel : Nat) : k + 1 + 1 + fuel = k + 1 + fuel + 1 := by omega
      simp only [hfuel, hround]
      by_cases hstop : (takePage keys page.pageKeys).2 = true ∨
          RECOVERY_MAX_DURATION_MS ≤ clock (n + 1) - clock 0
      · exact ⟨_, fun _ => if_pos hstop⟩
      · by_cases hcursor : page.nextCursor = "0"
        · exact ⟨_, fun _ => (if_neg hstop).trans (if_pos hcursor)⟩
        · obtain ⟨result, hresult⟩ := ih (n + 1) (by omega) page.nextCursor
            (takePage keys page.pageKeys).1 (scanned + page.pageKeys.length)
          exact ⟨result, fun fuel => ((if_neg hstop).trans (if_neg hcursor)).trans (hresult fuel)⟩

end Loop

/-- **The scan ends and is honest**, whatever Redis answers, where the clock
gets past the budget. -/
theorem scanKeys_honest (scan : Nat → ScanCall → ScanPage) (pattern : String) (clock : Nat → Nat)
    (hclock : Monotone clock) (hbudget : ∃ N, clock 0 + RECOVERY_MAX_DURATION_MS ≤ clock N) :
    ∃ result last rounds, (∀ fuel, scanKeys scan pattern clock (rounds + fuel) = some result) ∧
      Honest scan pattern last result := by
  obtain ⟨N, hN⟩ := hbudget
  have hreturns : ∃ result, ∀ fuel, scanLoop scan pattern clock (N + 1 + fuel) 0 "0" [] 0 = some result :=
    scanLoop_returns hclock hN N 0 (by omega) "0" [] 0
  obtain ⟨result, hresult⟩ := hreturns
  have hstart : Scanned scan pattern 0 [] :=
    ⟨List.nodup_nil, Nat.zero_le _, fun key => ⟨nofun, fun ⟨m, hm, _⟩ => absurd hm (Nat.not_lt_zero m)⟩,
      fun m hm => absurd hm (Nat.not_lt_zero m)⟩
  obtain ⟨last, hlast⟩ := scanLoop_honest hstart (hresult 0)
  exact ⟨result, last, N + 1, hresult, hlast⟩

/-- A page whose cursor leads back to itself, for ever. -/
theorem scanKeys_honest_repeated :
    ∃ result last rounds, (∀ fuel, scanKeys (fun _ _ => ⟨"7", ["session:state:s"]⟩)
      "session:state:*" (fun n => 1000 * n) (rounds + fuel) = some result) ∧
      Honest (fun _ _ => ⟨"7", ["session:state:s"]⟩) "session:state:*" last result :=
  scanKeys_honest _ _ _ (fun _ _ h => Nat.mul_le_mul_left 1000 h) ⟨5, by decide⟩

end VerityBackend.Sessions
