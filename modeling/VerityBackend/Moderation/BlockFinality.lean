/-
VerityBackend.Moderation.BlockFinality — whether a block is final.

Once `createBlock` or `createReport` has returned, whoever looks at the
blocks finds one. What can still cross the block are calls that have looked
before and have not acted yet, and nothing keeps the call from returning
while there are such. Where there is none when it returns, nothing crosses
the block until it is lifted (`block_final`).
-/
import VerityBackend.Moderation.BlockChecks

namespace VerityBackend.Moderation

open Async

/-! ## Finality -/

/-- Whom this call has blocked, and for whom, now that it has returned. -/
def blockedPair : Task blockingService.system → Option (UserId × UserId)
  | ⟨.createBlock blockerId blockedId, .ret (.ok _)⟩ => some (blockerId, blockedId)
  | ⟨.createReport reporterId input, .ret (.ok _)⟩ => some (reporterId, input.reportedUserId)
  | _ => none

def blocks (c : Config blockingService.system) (i : Nat) : Option (UserId × UserId) :=
  c.calls[i]?.bind blockedPair

/-- What has been executed since call `i` returned. -/
def sinceReturn (i : Nat) (trace : List (Entry blockingService.system)) :
    List (Entry blockingService.system) :=
  trace.takeWhile fun e => !(e.call == i)

/-- A session of the two was created, or a message stored or sent. -/
def crossed (a b : UserId) (e : Entry blockingService.system) : Bool :=
  crosses a b e.before e.cmd && e.res.isOk

/-- Since a call that blocks returned, and as long as its block is not
lifted, nothing has crossed it. -/
def Final (a b : UserId) (c : Config blockingService.system) : Prop :=
  ∀ i < c.calls.length, blocks c i = some (a, b) → neverLifted a b i c.trace = true →
    ∀ e ∈ sinceReturn i c.trace, crossed a b e = false

/-- The call has looked for a block, found none, and has not acted yet. -/
def inBetween (a b : UserId) (c : Config blockingService.system) (j : Nat) : Bool :=
  (c.pending j).isSome && clearedFor a b (c.own j)

/-- When a call that blocks returns, no call is between its look at the
blocks of the two and what it does then. -/
def Clear (c : Config blockingService.system) : Event blockingService.system → Prop
  | .step i => ∀ pair ∈ blocks (c.next (.step i)) i, blocks c i = none →
      ∀ j < c.calls.length, inBetween pair.1 pair.2 c j = false
  | _ => True

instance (c : Config blockingService.system) (e : Event blockingService.system) :
    Decidable (Clear c e) :=
  match e with
  | .step i => inferInstanceAs (Decidable (∀ pair ∈ blocks (c.next (.step i)) i, blocks c i = none →
      ∀ j < c.calls.length, inBetween pair.1 pair.2 c j = false))
  | .start _ => .isTrue trivial
  | .env _ => .isTrue trivial

/-! ## One step -/

section Step

variable {a b : UserId} {c : Config blockingService.system}

/-- Nobody returns by being called. -/
theorem blockedPair_code (o : BlockingOp) : blockedPair ⟨o, o.code⟩ = none := by
  cases o with
  | createBlock blockerId blockedId =>
      simp only [BlockingOp.code, createBlock]
      split <;> rfl
  | createReport reporterId input =>
      simp only [BlockingOp.code, createReport]
      split
      · rfl
      · split <;> rfl
  | unblock _ _ => rfl
  | queue _ => rfl
  | sendMessage _ _ _ => rfl

/-- The call has kept its pledge. -/
theorem upheld_of_blocks (hdone : Discipline.Done Pledge c) {i : Nat} (h : blocks c i = some (a, b)) :
    Upheld a b i c.toSnap := by
  obtain ⟨t, ht, hpair⟩ := Option.bind_eq_some_iff.mp h
  unfold blockedPair at hpair
  split at hpair
  · cases hpair
    exact hdone i _ _ ht
  · cases hpair
    exact hdone i _ _ ht
  · cases hpair

theorem blocks_none_of_pending {i : Nat} {cmd : Cmd} (h : c.pending i = some cmd) :
    blocks c i = none := by
  obtain ⟨o, k, hc⟩ := Config.pending_eq_some.mp h
  rw [blocks, hc, Option.bind_some]
  cases o <;> rfl

/-- Where a block stands, no look clears a call for the two. -/
theorem clearedFor_exec {own : List (Entry blockingService.system)} {w : World} (hs : Stands a b w)
    (hown : clearedFor a b own = false) (j : Nat) (cmd : Cmd) :
    clearedFor a b (⟨j, cmd, w⟩ :: own) = false := by
  cases cmd with
  | db c =>
      cases c with
      | blockFindFirst x y =>
          have hanswer : clearedFor a b (⟨j, .db (.blockFindFirst x y), w⟩ :: own) =
              (heard (cleared own) (.db (.blockFindFirst x y))
                (.ok ((w.db.findBlockBetween x y).map (·.id)))).any
                  fun pair => samePair a b pair.1 pair.2 := rfl
          rw [hanswer]
          cases hfind : w.db.findBlockBetween x y with
          | some block => rfl
          | none =>
              rw [← Bool.not_eq_true]
              intro hpair
              simp only [Option.map_none, heard, Option.any_some, samePair, Bool.or_eq_true,
                Bool.and_eq_true, beq_iff_eq] at hpair
              exact findBlockBetween_of_stands hs hpair hfind
      | sessionCreate _ _ _ _ => rfl
      | _ => exact hown
  | redis c =>
      cases c with
      | setNX k v ttl =>
          have hanswer : clearedFor a b (⟨j, .redis (.setNX k v ttl), w⟩ :: own) =
              (heard (cleared own) (.redis (.setNX k v ttl))
                (.ok ((RedisCmd.setNX k v ttl).exec w).1)).any
                  fun pair => samePair a b pair.1 pair.2 := rfl
          rw [hanswer]
          cases ((RedisCmd.setNX k v ttl).exec w).1 with
          | true => exact hown
          | false => rfl
      | _ => exact hown
  | host c =>
      cases c with
      | emit os =>
          have hanswer : clearedFor a b (⟨j, .host (.emit os), w⟩ :: own) =
              (if os.any Output.isMessage then none else cleared own).any
                fun pair => samePair a b pair.1 pair.2 := rfl
          rw [hanswer]
          split
          · rfl
          · exact hown
      | _ => exact hown

/-- The block of a call that has returned stands, nobody is about to cross
it, and nobody has. -/
def Secure (a b : UserId) (c : Config blockingService.system) : Prop :=
  ∀ i, blocks c i = some (a, b) → neverLifted a b i c.trace = true →
    Stands a b c.world ∧ (∀ j, inBetween a b c j = false) ∧
      ∀ e ∈ sinceReturn i c.trace, crossed a b e = false

theorem inBetween_of_not_pending {j : Nat} (h : c.pending j = none) : inBetween a b c j = false := by
  rw [inBetween, h]
  rfl

/-- A call that starts has not looked yet. -/
theorem secure_start (h : Secure a b c) (hindexed : c.Indexed) (o : BlockingOp) :
    Secure a b (c.next (.start o)) := by
  intro i hblocks hlifted
  have hold : blocks c i = some (a, b) := by
    rcases Nat.lt_trichotomy i c.calls.length with hlt | heq | hgt
    · rwa [blocks, Config.next, List.getElem?_append_left hlt] at hblocks
    · subst heq
      rw [blocks, Config.next, List.getElem?_concat_length, Option.bind_some] at hblocks
      exact absurd hblocks (by rw [blockedPair_code o]; simp)
    · rw [blocks, Config.next, List.getElem?_eq_none (by simp; omega)] at hblocks
      cases hblocks
  obtain ⟨hstands, hnobody, hcrossed⟩ := h i hold hlifted
  refine ⟨hstands, fun j => ?_, hcrossed⟩
  rcases Nat.lt_or_ge j c.calls.length with hlt | hge
  · have hpending : (c.next (.start o)).pending j = c.pending j := by
      simp only [Config.pending, Config.next, List.getElem?_append_left hlt]
    have hj := hnobody j
    rw [inBetween, ← hpending] at hj
    exact hj
  · -- its record is empty
    have hown : (c.next (.start o)).own j = [] := by
      refine List.filter_eq_nil_iff.mpr fun e he => ?_
      have hlt : e.call < c.calls.length := hindexed e he
      simp only [decide_eq_true_eq]
      omega
    rw [inBetween, hown]
    exact Bool.and_false _

theorem secure_env (h : Secure a b c) (e : Env) : Secure a b (c.next (.env e)) := by
  intro i hblocks hlifted
  obtain ⟨hstands, hnobody, hcrossed⟩ := h i hblocks hlifted
  cases e
  exact ⟨hstands, hnobody, hcrossed⟩

/-- A command, and what it leaves to the other calls. -/
theorem inBetween_step_ne {i j : Nat} {o : BlockingOp} {cmd : Cmd}
    {k : Except Err cmd.Res → Prog o.Ret} (hc : c.calls[i]? = some ⟨o, .call cmd k⟩) (hj : j ≠ i) :
    inBetween a b (c.next (.step i)) j = inBetween a b c j := by
  rw [Config.next_step_of_call hc, inBetween, inBetween, Config.pending, Config.pending,
    List.getElem?_set_ne hj.symm]
  have hown : (c.toSnap.exec i cmd).own j = c.own j := Snap.exec_own_ne c.toSnap cmd hj
  rw [hown]

/-- **Step lemma**: a call that returns when the way is clear, and every
other command, leaves everybody secure. -/
theorem secure_step (h : Secure a b c) (hsound : vigilance.Sound Pledge c) {i : Nat}
    (hdone : Discipline.Done Pledge (c.next (.step i))) (hclear : Clear c (.step i)) :
    Secure a b (c.next (.step i)) := by
  cases hp : c.pending i with
  | none =>
      rw [Config.next_step_of_pending_none hp]
      exact h
  | some cmd =>
      obtain ⟨o, k, hc⟩ := Config.pending_eq_some.mp hp
      have hnew := blocks_none_of_pending hp
      have hlt := (List.getElem?_eq_some_iff.mp hc).1
      have hgoverns : vigilance.Governs (fun _ _ => True) Pledge := vigilance_governs
      have hguar : crosses a b c.world cmd = true → clearedFor a b (c.own i) = true :=
        (hsound.keeps hgoverns trivial hc).1.guar a b
      intro j hblocks hlifted
      by_cases hj : j = i
      · subst hj
        have hstands := upheld_of_blocks hdone hblocks hlifted
        refine ⟨hstands, fun j' => ?_, ?_⟩
        · by_cases hj' : j' = j
          · -- it has returned
            subst hj'
            cases hp' : (c.next (.step j')).pending j' with
            | none => exact inBetween_of_not_pending hp'
            | some cmd' =>
                rw [blocks_none_of_pending hp'] at hblocks
                cases hblocks
          · rw [inBetween_step_ne hc hj']
            cases hp' : c.pending j' with
            | none => exact inBetween_of_not_pending hp'
            | some cmd' =>
                obtain ⟨o', k', hc'⟩ := Config.pending_eq_some.mp hp'
                exact hclear (a, b) hblocks hnew j' (List.getElem?_eq_some_iff.mp hc').1
        · rw [Config.next_step_of_call hc]
          simp [sinceReturn]
      · have hold : blocks c j = some (a, b) := by
          rwa [Config.next_step_of_call hc, blocks, List.getElem?_set_ne (Ne.symm hj)] at hblocks
        have htrace : (c.next (.step i)).trace = ⟨i, cmd, c.world⟩ :: c.trace := by
          rw [Config.next_step_of_call hc]
          rfl
        have hworld : (c.next (.step i)).world = (cmd.exec c.world).2 := by
          rw [Config.next_step_of_call hc]
          rfl
        have hsplit := neverLifted_exec (s := c.toSnap) (a := a) (b := b) (c := cmd)
          (fun hown : i = j ∧ writesBlock cmd = true => hj hown.1.symm)
        rw [Snap.exec_trace, ← htrace, hlifted] at hsplit
        obtain ⟨hcmd, hlifted'⟩ := Bool.and_eq_true_iff.mp hsplit.symm
        obtain ⟨hstands, hnobody, hcrossed⟩ := h j hold hlifted'
        have hi : clearedFor a b (c.own i) = false := by
          have hbetween := hnobody i
          rw [inBetween, hp] at hbetween
          exact hbetween
        refine ⟨?_, fun j' => ?_, ?_⟩
        · rw [hworld]
          exact stands_exec hstands (by simpa using hcmd)
        · by_cases hj' : j' = i
          · subst hj'
            have hown : (c.next (.step j')).own j' = ⟨j', cmd, c.world⟩ :: c.own j' := by
              rw [Config.next_step_of_call hc]
              exact Snap.exec_own_self c.toSnap j' cmd
            rw [inBetween, hown, clearedFor_exec hstands hi]
            exact Bool.and_false _
          · rw [inBetween_step_ne hc hj']
            exact hnobody j'
        · rw [htrace]
          intro e he
          rw [sinceReturn, List.takeWhile_cons_of_pos (by simpa using Ne.symm hj)] at he
          rcases List.mem_cons.mp he with rfl | he
          · cases hcross : crosses a b c.world cmd with
            | false => exact congrArg (· && _) hcross
            | true =>
                rw [hguar hcross] at hi
                cases hi
          · exact hcrossed e he

end Step

/-- In every run in which the way is clear when a blocking call returns, the
block is final: until it is lifted there is no session of the two, and no
message between them. -/
theorem block_final (w : World) (es : List (Event blockingService.system))
    (hes : (Config.initial w : Config blockingService.system).Obeys Clear es) (a b : UserId) :
    Final a b ((Config.initial w).run es) := by
  have hgoverns : vigilance.Governs Clear Pledge := vigilance_governs
  have hrun := Config.run_induct (P := fun c => vigilance.Sound Pledge c ∧
    Discipline.Done Pledge c ∧ Secure a b c) ?_ es (Config.initial w) hes
    ⟨Discipline.sound_initial trivial, Discipline.done_initial (S := blockingService.system) w,
      fun i h => by cases h⟩
  · exact fun i _ hblocks hlifted => (hrun.2.2 i hblocks hlifted).2.2
  · rintro c e hclear ⟨hsound, hdone, hsecure⟩
    have hdone' := hdone.next hgoverns pledge_stable hclear hsound
    refine ⟨hsound.next hgoverns hclear, hdone', ?_⟩
    cases e with
    | start o => exact secure_start hsecure hsound.indexed o
    | env e => exact secure_env hsecure e
    | step i => exact secure_step hsecure hsound hdone' hclear

/-! ## Two runs -/

instance (a b : UserId) (c : Config blockingService.system) : Decidable (Final a b c) :=
  inferInstanceAs (Decidable (∀ i < c.calls.length, _ → _ → ∀ e ∈ _, _))

/-- Ann and Bob join one queue. -/
def bothJoin : List (Event blockingService.system) :=
  let join (userId : UserId) : Event blockingService.system :=
    .start (.queue (.joinQueue userId ⟨.undefined, .undefined, "any"⟩))
  join "ann" :: List.replicate 10 (.step 0) ++ join "bob" :: List.replicate 10 (.step 1)

/-- Ann blocks Bob before the worker comes to their queue. -/
def blockedInTime : List (Event blockingService.system) :=
  bothJoin ++ (.start (.createBlock "ann" "bob") ::
      List.replicate 6 (.step 2) : List (Event blockingService.system)) ++
    (.start (.queue (.processQueueKey "canberra:any")) ::
      List.replicate 20 (.step 3) : List (Event blockingService.system))

theorem block_final_inTime :
    Final "ann" "bob" ((Config.initial (World.peopled ["ann", "bob"] 1)).run blockedInTime) :=
  block_final _ blockedInTime (by decide +kernel) "ann" "bob"

/-- Ann blocks Bob while the worker takes the locks of the two. -/
def blockedTooLate : List (Event blockingService.system) :=
  bothJoin ++ (.start (.queue (.processQueueKey "canberra:any")) ::
      List.replicate 4 (.step 2) : List (Event blockingService.system)) ++
    (.start (.createBlock "ann" "bob") ::
      List.replicate 6 (.step 3) : List (Event blockingService.system)) ++
    (List.replicate 20 (.step 2) : List (Event blockingService.system))

/-- The session is created all the same. -/
theorem not_final_tooLate :
    ¬∀ (w : World) (es : List (Event blockingService.system)) (a b : UserId),
      Final a b ((Config.initial w).run es) := by
  intro h
  have hfinal := h (World.peopled ["ann", "bob"] 1) blockedTooLate "ann" "bob"
  revert hfinal
  decide +kernel

end VerityBackend.Moderation
