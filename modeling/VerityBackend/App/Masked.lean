/-
VerityBackend.App.Masked — every operation of the backend, in the two runs
of a view.

Three places build something out of the profile of a user: the reveal of a
mutual decision, the reads of `matches.service.ts`, and the name of the
sender in a push. Each of them is only reached with a session, or a Match
row, of the user whose profile it is; `Known` says that this is none of the
observer and the hidden user.
-/
import VerityBackend.App.View

namespace VerityBackend.App

open Async Sessions

namespace View

variable {V : View}

/-- What goes before is plain. -/
theorem Plain.masked_bind {α β β' : Type} {p : Prog α} {f : α → Prog β} {f' : α → Prog β'}
    {R : β → β' → Prop} (hp : Plain p) (hf : ∀ a, V.Masked R (f a) (f' a)) :
    V.Masked R (p.bind f) (p.bind f') :=
  hp.masked.bind fun a _ ha => ha ▸ hf a

/-- A plain command is answered alike, and what is known of the answer can be used. -/
theorem masked_await_bind {c : Cmd} {β β' : Type} {f : c.Res → Prog β} {f' : c.Res → Prog β'}
    {R : β → β' → Prop} (h : plain c = true)
    (hf : ∀ a, V.Known c (.ok a) → V.Masked R (f a) (f' a)) :
    V.Masked R ((Proc.await c).bind f) ((Proc.await c).bind f') := by
  refine (masked_plain h).bind fun a a' ha => ?_
  rw [ha.1]
  exact hf a ha.2

theorem plain_await {c : Cmd} (h : plain c = true) : Plain (Proc.await c) := Proc.conforms_await h

/-! ## Reveals of a session -/

section Reveals

variable {session : Session} {userId : UserId}

/-- A reveal is built in both runs or in none, and the observer's is the
same unless the session is with the hidden user. -/
theorem masked_buildPartnerReveal (session : Session) (userId : UserId) :
    V.Masked (fun o o' => o'.isSome = o.isSome ∧
        (userId = V.u → ¬session.isBetween V.u V.p → o' = o))
      (buildPartnerRevealForUser session userId) (buildPartnerRevealForUser session userId) := by
  have hread (partnerId : UserId)
      (hpartner : userId = V.u → ¬session.isBetween V.u V.p → partnerId ≠ V.p) :
      V.Masked (fun o o' => o'.isSome = o.isSome ∧
          (userId = V.u → ¬session.isBetween V.u V.p → o' = o))
        (if partnerId = "" then (pure none : Prog (Option PartnerReveal))
          else (prisma (.userFindUnique partnerId)).bind fun partner =>
            pure (partner.map (buildPartnerReveal partnerId)))
        (if partnerId = "" then (pure none : Prog (Option PartnerReveal))
          else (prisma (.userFindUnique partnerId)).bind fun partner =>
            pure (partner.map (buildPartnerReveal partnerId))) := by
    split
    · exact Proc.alike_pure ⟨rfl, fun _ _ => rfl⟩
    · refine (masked_await fun id hid => by cases hid).bind fun o o' ho => Proc.alike_pure ?_
      obtain ⟨profile, rfl⟩ := ho.1
      refine ⟨by simp [Cmd.dressRes, DbCmd.dressRes], fun hu hbetween => ?_⟩
      change (o.map (dressUser V.p profile partnerId)).map _ = _
      rw [map_dressUser_ne (hpartner hu hbetween)]
  unfold buildPartnerRevealForUser
  dsimp only
  by_cases hA : session.userAId = userId
  · rw [if_pos hA]
    exact hread _ fun hu hbetween hp => hbetween (.inl ⟨hA.trans hu, hp⟩)
  · rw [if_neg hA]
    by_cases hB : session.userBId = userId
    · rw [if_pos hB]
      exact hread _ fun hu hbetween hp => hbetween (.inr ⟨hp, hB.trans hu⟩)
    · rw [if_neg hB]
      exact Proc.alike_pure ⟨rfl, fun _ _ => rfl⟩

/-- The result is mutual, and the session is not of the two. -/
def Apart (V : View) (session : Session) : ChoiceResult → Prop
  | .resolved (.mutual _) _ => ¬session.isBetween V.u V.p
  | _ => True

/-- What is returned to the observer is the same. -/
theorem masked_enrich (result : ChoiceResult) (h : V.Apart session result) :
    V.Masked (fun r r' => userId = V.u → r' = r) (enrichChoiceResultForUser result session userId)
      (enrichChoiceResultForUser result session userId) := by
  unfold enrichChoiceResultForUser
  split
  · refine (masked_buildPartnerReveal session userId).bind fun o o' ho => ?_
    obtain ⟨hsome, hsame⟩ := ho
    cases o with
    | none =>
        obtain rfl : o' = none := by simpa using hsome
        exact Proc.alike_pure fun _ => rfl
    | some reveal =>
        cases o' with
        | none => cases hsome
        | some reveal' =>
            refine Proc.alike_pure fun hu => ?_
            obtain rfl := Option.some.inj (hsame hu h)
            rfl
  · exact Proc.alike_pure fun _ => rfl

/-- A match of others is announced to the observer alike. -/
theorem masked_emitMatchMutual (h : ¬session.isBetween V.u V.p) (matchId : MatchId) :
    V.Masked (fun _ _ => True) (emitMatchMutual session matchId) (emitMatchMutual session matchId) := by
  refine (masked_buildPartnerReveal session session.userAId).bind fun revealA revealA' hA => ?_
  refine (masked_buildPartnerReveal session session.userBId).bind fun revealB revealB' hB => ?_
  refine masked_emit ?_
  have hsameA : session.userAId = V.u → revealA' = revealA := fun hu => hA.2 hu h
  have hsameB : session.userBId = V.u → revealB' = revealB := fun hu => hB.2 hu h
  by_cases huA : session.userAId = V.u <;> by_cases huB : session.userBId = V.u <;>
    simp_all [Output.reaches]

end Reveals

/-! ## Decisions -/

section Decisions

variable {session : Session} {self : Instance} {id : SessionId}

/-- The decision is mutual, and the session is not of the two. -/
def Stranger (V : View) (id : SessionId) : ResolvedChoiceResult → Prop
  | .mutual _ => ¬V.ours id
  | .nonMutual => True

/-- A stored decision is the same in both runs, and a mutual one is of strangers. -/
theorem masked_readStoredDecision :
    V.Masked (fun d d' => d' = d ∧ ∀ value, d = .resolved value → V.Stranger id value)
      (readStoredDecision id) (readStoredDecision id) := by
  refine masked_await_bind rfl fun raw hraw => Proc.alike_pure ⟨rfl, fun value hvalue => ?_⟩
  cases value with
  | «mutual» matchId => exact hraw matchId hvalue
  | nonMutual => trivial

/-- What is stored, in whichever way. -/
theorem strangers_stored {v : ResolvedChoiceResult} (h : V.Stranger id v) {c : Cmd}
    (hc : (∃ ttl, c = .redis (.set (.sessionDecision id) v.payload ttl)) ∨
      ∃ ttl, c = .redis (.setNX (.sessionDecision id) v.payload ttl)) :
    ∀ x ∈ storesMutual c, ¬V.ours x := by
  intro x hx
  have hstores : storesMutual c = match v with
      | .mutual _ => some id
      | .nonMutual => none := by
    rcases hc with ⟨ttl, rfl⟩ | ⟨ttl, rfl⟩ <;> cases v <;> rfl
  rw [hstores] at hx
  cases v with
  | «mutual» matchId =>
      obtain rfl := Option.some.inj hx
      exact h
  | nonMutual => cases hx

theorem masked_overwriteDecision {v : ResolvedChoiceResult} (h : V.Stranger id v) :
    V.Masked (fun o o' => o' = o ∧ ∀ value ∈ o, V.Stranger id value) (overwriteDecision id v)
      (overwriteDecision id v) := by
  refine (masked_await (strangers_stored h (.inl ⟨_, rfl⟩))).bind fun _ _ _ => ?_
  exact Proc.alike_pure ⟨rfl, fun value hvalue => by cases hvalue⟩

/-- What is returned is the decision itself, or one that was stored before. -/
theorem masked_storeDecision (existing : ParsedStoredDecision) {v : ResolvedChoiceResult}
    (h : V.Stranger id v) :
    V.Masked (fun o o' => o' = o ∧ ∀ value ∈ o, V.Stranger id value) (storeDecision id existing v)
      (storeDecision id existing v) := by
  have hunless : V.Masked (fun o o' => o' = o ∧ ∀ value ∈ o, V.Stranger id value)
      (storeUnlessDecided id v) (storeUnlessDecided id v) := by
    refine (masked_await (strangers_stored h (.inr ⟨_, rfl⟩))).bind fun stored stored' hstored => ?_
    obtain ⟨_, hsame⟩ := hstored.1
    obtain rfl : stored' = stored := hsame
    cases stored' with
    | true => exact Proc.alike_pure ⟨rfl, fun value hvalue => by cases hvalue⟩
    | false =>
        refine masked_readStoredDecision.bind fun d d' hd => ?_
        obtain ⟨rfl, hstranger⟩ := hd
        cases d' with
        | resolved value =>
            refine Proc.alike_pure ⟨rfl, fun value' hvalue' => ?_⟩
            obtain rfl := Option.some.inj hvalue'
            exact hstranger value rfl
        | pending deadline => exact masked_overwriteDecision h
        | none => exact Proc.alike_pure ⟨rfl, fun value hvalue => by cases hvalue⟩
        | invalid => exact Proc.alike_pure ⟨rfl, fun value hvalue => by cases hvalue⟩
  cases existing with
  | pending deadline => exact masked_overwriteDecision h
  | none => exact hunless
  | invalid => exact hunless
  | resolved value => exact hunless

/-- A pair in canonical order is a pair. -/
theorem isBetween_of_canonicalPair {u p : UserId} (h : session.isBetween u p) :
    ((canonicalPair session.userAId session.userBId).1 = u ∧
        (canonicalPair session.userAId session.userBId).2 = p) ∨
      ((canonicalPair session.userAId session.userBId).1 = p ∧
        (canonicalPair session.userAId session.userBId).2 = u) := by
  unfold canonicalPair
  split
  · exact h
  · exact h.elim (fun h => .inr ⟨h.2, h.1⟩) fun h => .inl ⟨h.2, h.1⟩

/-- Which decision two choices lead to does not depend on a profile. -/
theorem masked_decisionOf (choiceA choiceB : SessionChoice)
    (h : V.ours session.id ↔ session.isBetween V.u V.p) :
    V.Masked (fun v v' => v' = v ∧ V.Stranger session.id v) (decisionOf session choiceA choiceB)
      (decisionOf session choiceA choiceB) := by
  unfold decisionOf
  split
  · refine masked_await_bind rfl fun m hm => ?_
    split
    · exact Proc.alike_fail _
    · refine Proc.alike_pure ⟨rfl, fun hours => hm ?_⟩
      exact isBetween_of_canonicalPair (h.mp hours)
  · exact Proc.alike_pure ⟨rfl, trivial⟩

/-- A decision is announced to the observer alike, unless it is a match of the two. -/
theorem masked_announceDecision (choiceA choiceB : SessionChoice) {v : ResolvedChoiceResult}
    (h : ∀ matchId, v = .mutual matchId → ¬session.isBetween V.u V.p) :
    V.Masked (fun _ _ => True) (announceDecision self session choiceA choiceB v)
      (announceDecision self session choiceA choiceB v) := by
  refine masked_await_bind rfl fun _ _ => ?_
  cases v with
  | «mutual» matchId =>
      refine (masked_emitMatchMutual (h matchId rfl) matchId).bind fun _ _ _ => ?_
      exact masked_await_bind rfl fun _ _ => (plain_await rfl).masked.mono fun _ _ _ => trivial
  | nonMutual =>
      exact masked_await_bind rfl fun _ _ => (plain_await rfl).masked.mono fun _ _ _ => trivial

/-- `finalizeDecision`, whatever makes its decision a stranger's. -/
theorem masked_finalize {choiceA choiceB : SessionChoice}
    (hdecision : V.Masked (fun v v' => v' = v ∧ V.Stranger session.id v ∧
        ∀ matchId, v = .mutual matchId → ¬session.isBetween V.u V.p)
      (decisionOf session choiceA choiceB) (decisionOf session choiceA choiceB)) :
    V.Masked (fun r r' => r' = r ∧ ∃ value, r = .resolved value none ∧ V.Stranger session.id value)
      (finalizeDecision self session choiceA choiceB)
      (finalizeDecision self session choiceA choiceB) := by
  refine masked_readStoredDecision.bind fun d d' hd => ?_
  obtain ⟨rfl, hstranger⟩ := hd
  have hrest : V.Masked (fun r r' => r' = r ∧
        ∃ value, r = .resolved value none ∧ V.Stranger session.id value)
      (settleDecision self session choiceA choiceB d') (settleDecision self session choiceA choiceB d') := by
    refine hdecision.bind fun v v' hv => ?_
    obtain ⟨rfl, hv, happart⟩ := hv
    refine (masked_storeDecision d' hv).bind fun o o' ho => ?_
    obtain ⟨rfl, hstored⟩ := ho
    cases o' with
    | some value => exact Proc.alike_pure ⟨rfl, value, rfl, hstored value rfl⟩
    | none =>
        refine (masked_announceDecision choiceA choiceB happart).bind fun _ _ _ => ?_
        exact Proc.alike_pure ⟨rfl, v', rfl, hv⟩
  cases d' with
  | resolved value => exact Proc.alike_pure ⟨rfl, value, rfl, hstranger value rfl⟩
  | none => exact hrest
  | invalid => exact hrest
  | pending deadline => exact hrest

/-- **A finalizer** decides alike, and mutually for strangers only. -/
theorem masked_finalizeDecision (choiceA choiceB : SessionChoice)
    (h : V.ours session.id ↔ session.isBetween V.u V.p) :
    V.Masked (fun r r' => r' = r ∧ ∃ value, r = .resolved value none ∧ V.Stranger session.id value)
      (finalizeDecision self session choiceA choiceB)
      (finalizeDecision self session choiceA choiceB) := by
  refine masked_finalize ((masked_decisionOf choiceA choiceB h).mono fun v v' hv => ?_)
  refine ⟨hv.1, hv.2, ?_⟩
  rintro matchId rfl
  exact fun hbetween => hv.2 (h.mpr hbetween)

/-- Two passes make no match, whoever the session is said to be of. -/
theorem masked_finalizePass :
    V.Masked (fun r r' => r' = r ∧ ∃ value, r = .resolved value none ∧ V.Stranger session.id value)
      (finalizeDecision self session .PASS .PASS) (finalizeDecision self session .PASS .PASS) :=
  masked_finalize (Proc.alike_pure ⟨rfl, trivial, fun matchId h => by cases h⟩)

end Decisions

/-! ## Choices -/

section Choices

variable {session : Session} {self : Instance}

theorem apart_of_stranger (h : V.ours session.id ↔ session.isBetween V.u V.p)
    {value : ResolvedChoiceResult} (hvalue : V.Stranger session.id value)
    (reveal : Option PartnerReveal) : V.Apart session (.resolved value reveal) := by
  cases value with
  | «mutual» matchId => exact fun hbetween => hvalue (h.mpr hbetween)
  | nonMutual => trivial

theorem plain_deadline {id : SessionId} {c : Cmd} (h : DeadlineCommand id c) : plain c = true := by
  cases h <;> rfl

theorem plain_expire {id : SessionId} {c : Cmd} (h : ExpireCommand id c) : plain c = true := by
  cases h <;> rfl

theorem masked_evaluateChoices (deadline : JsDate)
    (h : V.ours session.id ↔ session.isBetween V.u V.p) :
    V.Masked (fun r r' => r' = r ∧ V.Apart session r) (evaluateChoices self session deadline)
      (evaluateChoices self session deadline) := by
  have hfinal (choiceA choiceB : SessionChoice) :
      V.Masked (fun r r' => r' = r ∧ V.Apart session r)
        (finalizeDecision self session choiceA choiceB)
        (finalizeDecision self session choiceA choiceB) := by
    refine (masked_finalizeDecision choiceA choiceB h).mono fun r r' hr => ?_
    obtain ⟨rfl, value, rfl, hvalue⟩ := hr
    exact ⟨rfl, apart_of_stranger h hvalue none⟩
  refine masked_await_bind rfl fun choices _ => ?_
  dsimp only
  split
  · exact hfinal _ _
  split
  · exact hfinal _ _
  refine masked_await_bind rfl fun now _ => ?_
  split
  · exact hfinal _ _
  · cases deadline with
    | some ms => exact Proc.alike_pure ⟨rfl, trivial⟩
    | none => exact Proc.alike_fail _

/-- The observer is answered alike. -/
theorem masked_getDecision (userId : UserId) (h : V.ours session.id ↔ session.isBetween V.u V.p) :
    V.Masked (fun o o' => o'.isSome = o.isSome ∧ (userId = V.u → o' = o))
      (getDecision session userId) (getDecision session userId) := by
  have henrich {result : ChoiceResult} (hresult : V.Apart session result) :
      V.Masked (fun o o' => o'.isSome = o.isSome ∧ (userId = V.u → o' = o))
        ((enrichChoiceResultForUser result session userId).bind fun r =>
          (pure (some r) : Prog (Option ChoiceResult)))
        ((enrichChoiceResultForUser result session userId).bind fun r =>
          (pure (some r) : Prog (Option ChoiceResult))) :=
    (masked_enrich result hresult).bind fun r r' hr =>
      Proc.alike_pure ⟨rfl, fun hu => congrArg some (hr hu)⟩
  refine masked_readStoredDecision.bind fun d d' hd => ?_
  obtain ⟨rfl, hstranger⟩ := hd
  cases d' with
  | none => exact Proc.alike_pure ⟨rfl, fun _ => rfl⟩
  | invalid => exact Proc.alike_pure ⟨rfl, fun _ => rfl⟩
  | resolved value => exact henrich (apart_of_stranger h (hstranger value rfl) none)
  | pending deadline => exact henrich trivial

/-- **A choice** of the observer is answered alike. -/
theorem masked_submitChoice (sessionId : SessionId) (userId : UserId) (choice : SessionChoice) :
    V.Masked (fun r r' => userId = V.u → r' = r) (submitChoice self sessionId userId choice)
      (submitChoice self sessionId userId choice) := by
  refine masked_await_bind rfl fun found hfound => ?_
  cases found with
  | none => exact Proc.alike_fail _
  | some session =>
      obtain ⟨rfl, hours⟩ := hfound
      have hevaluated (deadline : JsDate) : V.Masked (fun r r' => userId = V.u → r' = r)
          ((evaluateChoices self session deadline).bind fun evaluated =>
            enrichChoiceResultForUser evaluated session userId)
          ((evaluateChoices self session deadline).bind fun evaluated =>
            enrichChoiceResultForUser evaluated session userId) := by
        refine (masked_evaluateChoices deadline hours).bind fun r r' hr => ?_
        obtain ⟨rfl, hapart⟩ := hr
        exact masked_enrich r' hapart
      dsimp only
      split
      · exact Proc.alike_fail _
      refine masked_await_bind rfl fun ended _ => ?_
      split
      · exact Proc.alike_fail _
      refine (masked_getDecision userId hours).bind fun o o' ho => ?_
      cases o with
      | some decision =>
          cases o' with
          | none => cases ho.1
          | some decision' => exact Proc.alike_pure fun hu => Option.some.inj (ho.2 hu)
      | none =>
          cases o' with
          | some decision' => cases ho.1
          | none =>
              have hensure : Plain (ensureChoiceDeadline session.id) :=
                (ensureChoiceDeadline_issues session.id).mono fun _ => plain_deadline
              refine hensure.masked_bind fun deadline => ?_
              refine masked_await_bind rfl fun existing _ => ?_
              split
              · exact hevaluated deadline
              refine masked_await_bind rfl fun _ _ => ?_
              have hexpire : Plain (expireChoices session.id deadline) :=
                (expireChoices_issues session.id deadline).mono fun _ => plain_expire
              refine hexpire.masked_bind fun _ => ?_
              exact masked_await_bind rfl fun _ _ => hevaluated deadline

end Choices

/-! ## Matches and chat -/

section Reads

open Matches Chat

variable {userId : UserId}

/-- The rows `listMatches` goes by. -/
theorem masked_readMatches (blocksFirst : Bool) :
    V.Masked (fun a a' => a' = a ∧
        ∀ m ∈ a.1, (m.userAId = userId ∨ m.userBId = userId) ∧ ¬m.isBetween V.u V.p)
      (readMatches blocksFirst userId) (readMatches blocksFirst userId) := by
  unfold readMatches
  split
  · exact masked_await_bind rfl fun blocks _ => masked_await_bind rfl fun rows hrows =>
      Proc.alike_pure ⟨rfl, hrows⟩
  · exact masked_await_bind rfl fun rows hrows => masked_await_bind rfl fun blocks _ =>
      Proc.alike_pure ⟨rfl, hrows⟩

theorem lookup_map_snd {α β : Type} [BEq α] [LawfulBEq α] (f : α → β → β) (k : α)
    (l : List (α × β)) : (l.map fun x => (x.1, f x.1 x.2)).lookup k = (l.lookup k).map (f k) := by
  induction l with
  | nil => rfl
  | cons x l ih =>
      obtain ⟨a, b⟩ := x
      rw [List.map_cons, List.lookup_cons, List.lookup_cons]
      cases h : k == a with
      | true =>
          obtain rfl := eq_of_beq h
          rfl
      | false => exact ih

/-- The item of another partner. -/
theorem listItem_dress {v : VisibleMatch} {p : UserId} (h : v.partnerUserId ≠ p)
    (profile : Profile) (profiles : List (UserId × User)) :
    listItem (profiles.map fun x => (x.1, dressUser p profile x.1 x.2)) v =
      listItem profiles v := by
  unfold listItem partnerRevealById
  rw [lookup_map_snd, map_dressUser_ne h]

/-- The profiles that are read differ in one user at most. -/
theorem masked_readProfiles (ids : List UserId) :
    V.Masked (fun a a' => ∃ profile, a' = a.map fun x => (x.1, dressUser V.p profile x.1 x.2))
      (readProfiles ids) (readProfiles ids) := by
  unfold readProfiles
  split
  · exact Proc.alike_pure ⟨⟨none, none, none, none⟩, rfl⟩
  · exact (masked_await fun id hid => by cases hid).mono fun a a' ha => ha.1

/-- **The list of matches** is the same for the observer. -/
theorem masked_listMatches (blocksFirst : Bool) :
    V.Masked (fun r r' => userId = V.u → r' = r) (listMatches blocksFirst userId)
      (listMatches blocksFirst userId) := by
  refine (masked_readMatches blocksFirst).bind fun a a' ha => ?_
  obtain ⟨rfl, hrows⟩ := ha
  refine (masked_readProfiles _).bind fun profiles profiles' hprofiles => Proc.alike_pure ?_
  rintro rfl
  obtain ⟨profile, rfl⟩ := hprofiles
  refine List.map_congr_left fun v hv => listItem_dress ?_ profile profiles
  obtain ⟨m, hm, rfl⟩ := List.mem_map.mp (List.mem_filter.mp hv).1
  obtain ⟨hmine, hno⟩ := hrows m hm
  intro hp
  refine hno ?_
  by_cases hA : m.userAId = V.u
  · exact .inl ⟨hA, by simpa [partnerOf, hA] using hp⟩
  · exact .inr ⟨by simpa [partnerOf, hA] using hp, hmine.resolve_left hA⟩

/-- **A reveal** is of a match the observer is in, so not of the hidden user. -/
theorem masked_getReveal (matchId : MatchId) :
    V.Masked (fun r r' => userId = V.u → r' = r) (getReveal matchId userId)
      (getReveal matchId userId) := by
  refine (masked_await fun id hid => by cases hid).bind fun a a' ha => ?_
  obtain ⟨⟨profile, rfl⟩, hknown⟩ := ha
  cases a with
  | none => exact Proc.alike_fail _
  | some x =>
      obtain ⟨m, userA, userB⟩ := x
      change V.Masked _ (revealFor m userA userB (resolveParticipantSide m userId))
        (revealFor m (dressUser V.p profile m.userAId userA) (dressUser V.p profile m.userBId userB)
          (resolveParticipantSide m userId))
      have hno : ¬m.isBetween V.u V.p := hknown
      unfold resolveParticipantSide
      by_cases hA : m.userAId = userId
      · rw [if_pos hA]
        refine Proc.alike_pure fun hu => ?_
        have hne : m.userBId ≠ V.p := fun hp => hno (.inl ⟨hA.trans hu, hp⟩)
        simp only [revealPayload, dressUser_ne hne]
      · rw [if_neg hA]
        by_cases hB : m.userBId = userId
        · rw [if_pos hB]
          refine Proc.alike_pure fun hu => ?_
          have hne : m.userAId ≠ V.p := fun hp => hno (.inr ⟨hp, hB.trans hu⟩)
          simp only [revealPayload, dressUser_ne hne]
        · rw [if_neg hB]
          exact Proc.alike_fail _

/-- So is the answer to an acknowledgement. -/
theorem masked_acknowledgeReveal (matchId : MatchId) :
    V.Masked (fun r r' => userId = V.u → r' = r) (acknowledgeReveal matchId userId)
      (acknowledgeReveal matchId userId) := by
  refine masked_await_bind rfl fun found _ => ?_
  cases found with
  | none => exact Proc.alike_fail _
  | some m =>
      dsimp only
      cases resolveParticipantSide m userId with
      | error e => exact Proc.alike_fail _
      | ok side =>
          refine masked_await_bind rfl fun now _ => ?_
          refine Plain.masked_bind ?_ fun _ => masked_getReveal matchId
          unfold acknowledgeSide
          split
          · exact plain_await rfl
          · exact Proc.conforms_pure _

/-- The match in which the user may chat. -/
theorem masked_openMatch (matchId : MatchId) :
    V.Masked (fun m m' => m' = m ∧ (m.userAId = userId ∨ m.userBId = userId) ∧
        ¬m.isBetween V.u V.p)
      (openMatch matchId userId) (openMatch matchId userId) := by
  refine Proc.Alike.bind (R := fun o o' => o' = o ∧ ∀ m ∈ o,
    (m.userAId = userId ∨ m.userBId = userId) ∧ ¬m.isBetween V.u V.p) ?_ fun o o' ho => ?_
  · refine masked_await_bind rfl fun found hfound => ?_
    cases found with
    | none => exact Proc.alike_pure ⟨rfl, fun m hm => by cases hm⟩
    | some m =>
        dsimp only
        split
        · exact Proc.alike_fail _
        · next hmine =>
            refine Proc.alike_pure ⟨rfl, fun m' hm' => ?_⟩
            obtain rfl := Option.some.inj hm'
            exact ⟨by tauto, hfound⟩
  · obtain ⟨rfl, hm⟩ := ho
    cases o' with
    | none => exact Proc.alike_fail _
    | some m =>
        refine Plain.masked_bind ?_ fun _ => Plain.masked_bind ?_ fun _ =>
          Proc.alike_pure ⟨rfl, hm m rfl⟩
        · refine (plain_await rfl).bind fun block => ?_
          split
          · exact Proc.conforms_fail _ trivial
          · exact Proc.conforms_pure _
        · unfold assertRevealAcknowledged
          split
          · exact Proc.conforms_pure _
          · exact Proc.conforms_fail _ trivial

/-- The name in a push is that of the recipient's partner. -/
theorem masked_notifyRecipient {m : Match} (message : Message)
    (hmine : m.userAId = userId ∨ m.userBId = userId) (hno : ¬m.isBetween V.u V.p) :
    V.Masked (fun _ _ => True) (notifyRecipient m userId message)
      (notifyRecipient m userId message) := by
  unfold notifyRecipient
  dsimp only
  split
  · refine (masked_await fun id hid => by cases hid).bind fun sender sender' hsender => ?_
    refine masked_emit ?_
    by_cases hu : recipientOf m userId = V.u
    · have hne : userId ≠ V.p := by
        rintro rfl
        refine hno ?_
        unfold recipientOf at hu
        split at hu
        · next hA => exact .inr ⟨hA, hu⟩
        · next hA => exact .inl ⟨hu, hmine.resolve_left hA⟩
      obtain ⟨profile, rfl⟩ := hsender.1
      rw [show (Cmd.db (.userFindUnique userId)).dressRes V.p profile sender = sender from
        map_dressUser_ne hne sender]
    · have hreach (x : Option User) :
          (newMessagePush (recipientOf m userId) message x).reaches V.u = false := by
        simpa [newMessagePush, Output.reaches] using fun h => hu h.symm
      rw [List.filter_singleton, List.filter_singleton, hreach, hreach]
      rfl
  · exact (plain_await rfl).masked.mono fun _ _ _ => trivial

/-- A message is answered alike. -/
theorem masked_sendMessage (matchId : MatchId) (text : String) :
    V.Masked Eq (sendMessage matchId userId text) (sendMessage matchId userId text) := by
  rcases em (jsTrim text = "") with hblank | hblank
  · unfold sendMessage
    rw [if_pos hblank]
    exact Proc.alike_fail _
  unfold sendMessage
  rw [if_neg hblank]
  refine (masked_openMatch matchId).bind fun m m' hm => ?_
  obtain ⟨rfl, hmine, hno⟩ := hm
  split
  · exact Proc.alike_fail _
  refine masked_await_bind rfl fun count _ => masked_await_bind rfl fun now _ => ?_
  refine masked_await_bind rfl fun message _ => masked_await_bind rfl fun _ _ => ?_
  refine (masked_notifyRecipient message hmine hno).bind fun _ _ _ => ?_
  exact masked_await_bind rfl fun _ _ => Proc.alike_pure rfl

end Reads

/-! ## The other operations -/

section Others

variable {self : Instance} {session : Session}

theorem plain_end {reason : EndReason} {c : Cmd} (h : EndCommand self session reason c) :
    plain c = true := by
  cases h with
  | deadline h => exact plain_deadline h
  | _ => rfl

theorem plain_created {c : Cmd} (h : CreatedCommand self session c) : plain c = true := by
  cases h with
  | persist h => cases h <;> rfl
  | start h => cases h <;> rfl
  | finish h => exact plain_end h
  | _ => rfl

theorem plain_recoverSessionEnd (sessionId : SessionId) :
    Plain (recoverSessionEnd self sessionId) := by
  refine (recoverSessionEnd_issues self sessionId).mono fun c hc => ?_
  cases hc with
  | finish h => exact plain_end h
  | _ => rfl

theorem plain_resolveSessionParticipants (sessionId : SessionId) :
    Plain (resolveSessionParticipants sessionId) :=
  (resolveSessionParticipants_issues sessionId).mono fun _ hc => by cases hc <;> rfl

theorem plain_recoveryDeadline (sessionId : SessionId) (decision : ParsedStoredDecision) :
    Plain (recoveryDeadline sessionId decision) := by
  unfold recoveryDeadline
  split
  · exact Proc.conforms_pure _
  · exact (plain_await rfl).bind fun _ => Proc.conforms_pure _

/-- The recovery finalizes, or arms a timer. -/
theorem masked_recoverChoice (sessionId : SessionId) :
    V.Masked Eq (recoverChoice self sessionId) (recoverChoice self sessionId) := by
  have hfrom (deadline : Nat) :
      V.Masked Eq (recoverFrom self sessionId deadline) (recoverFrom self sessionId deadline) := by
    refine (plain_resolveSessionParticipants sessionId).masked_bind fun found => ?_
    cases found with
    | none => exact Proc.alike_pure rfl
    | some pair =>
        refine masked_await_bind rfl fun now _ => ?_
        split
        · exact masked_finalizePass.bind fun _ _ _ => Proc.alike_pure rfl
        · exact (plain_await rfl).masked
  unfold recoverChoice
  split
  · exact Proc.alike_pure rfl
  · refine masked_readStoredDecision.bind fun d d' hd => ?_
    obtain ⟨rfl, -⟩ := hd
    have hrest : V.Masked Eq ((recoveryDeadline sessionId d').bind (recoverBy self sessionId))
        ((recoveryDeadline sessionId d').bind (recoverBy self sessionId)) := by
      refine (plain_recoveryDeadline sessionId d').masked_bind fun deadline => ?_
      cases deadline with
      | none => exact Proc.alike_pure rfl
      | some deadline => exact hfrom deadline
    cases d' with
    | resolved value => exact Proc.alike_pure rfl
    | none => exact hrest
    | invalid => exact hrest
    | pending deadline => exact hrest

theorem masked_recoverEach {recover : SessionId → Prog Unit} (startedAt : Nat)
    (h : ∀ id, V.Masked Eq (recover id) (recover id)) (ids : List SessionId) :
    V.Masked Eq (recoverEach recover startedAt ids) (recoverEach recover startedAt ids) := by
  induction ids with
  | nil => exact Proc.alike_pure rfl
  | cons id rest ih =>
      refine masked_await_bind rfl fun now _ => ?_
      split
      · exact Proc.alike_pure rfl
      · exact (h id).bind fun _ _ _ => ih

/-- **A restart.** -/
theorem masked_onModuleInit : V.Masked Eq (onModuleInit self) (onModuleInit self) := by
  refine Proc.Alike.bind (R := Eq) ?_ fun _ _ _ => ?_
  · exact masked_await_bind rfl fun startedAt _ => masked_await_bind rfl fun keys _ =>
      masked_recoverEach startedAt (fun id => (plain_recoverSessionEnd id).masked) keys
  · exact masked_await_bind rfl fun startedAt _ => masked_await_bind rfl fun keys _ =>
      masked_recoverEach startedAt masked_recoverChoice keys

theorem plain_webhook {payload : Moderation.HiveViolationPayload} {c : Cmd}
    (h : Moderation.WebhookCommand self payload c) : plain c = true := by
  rcases h with _ | h
  · rfl
  rcases h with _ | h
  · rfl
  cases h with
  | act h => cases h <;> rfl
  | finish h => exact plain_end h
  | _ => rfl

theorem masked_auth (cfg : AuthConfig) (o : Auth.AuthOp) :
    V.Masked Eq (o.code cfg) (o.code cfg) := by
  cases o with
  | signup userId userAgent ipAddress role =>
      have hrole : V.Masked Eq (Auth.getUserRole userId) (Auth.getUserRole userId) := by
        refine (masked_await fun id hid => by cases hid).bind fun a a' ha => ?_
        obtain ⟨profile, rfl⟩ := ha.1
        cases a with
        | none => exact Proc.alike_fail _
        | some user => exact Proc.alike_pure (dressUser_role userId user).symm
      have haccess : V.Masked Eq (Auth.createAccessToken cfg userId role)
          (Auth.createAccessToken cfg userId role) := by
        unfold Auth.createAccessToken
        cases role with
        | some r => exact masked_await_bind rfl fun now _ => Proc.alike_pure rfl
        | none =>
            exact hrole.bind fun r r' hr =>
              masked_await_bind rfl fun now _ => Proc.alike_pure (by rw [hr])
      refine masked_await_bind rfl fun now _ => masked_await_bind rfl fun familyId _ => ?_
      refine masked_await_bind rfl fun refreshTokenId _ => masked_await_bind rfl fun signedAt _ => ?_
      refine masked_await_bind rfl fun _ _ => haccess.bind fun token token' htoken => ?_
      exact Proc.alike_pure (by rw [htoken])
  | refreshSession refreshToken userAgent ipAddress =>
      have hplain : Plain (Auth.refreshSession cfg refreshToken userAgent ipAddress) :=
        (refreshSession_issues cfg refreshToken userAgent ipAddress).mono fun _ hc => by
          cases hc <;> rfl
      exact hplain.masked
  | logoutAll userId =>
      exact masked_await_bind rfl fun now _ => masked_await_bind rfl fun _ _ => Proc.alike_pure rfl

/-- What a user is told is the same in both runs, if it is the observer. -/
def SameFor (V : View) (o : AppOp) (a a' : o.Ret) : Prop := o.caller = some V.u → a' = a

/-- **Every operation of the backend** is masked. -/
theorem masked_code (cfg : AppConfig) (o : AppOp) :
    V.Masked (V.SameFor o) (o.code cfg) (o.code cfg) := by
  have hsame {p : Prog o.Ret} (h : V.Masked Eq p p) : V.Masked (V.SameFor o) p p :=
    h.mono fun a a' ha _ => ha.symm
  cases o with
  | queue o => exact hsame (plain_of_asides (aside_queue o)).masked
  | handleSessionCreated self session =>
      have hplain : Plain (handleSessionCreated self session) :=
        (handleSessionCreated_issues self session).mono fun _ => plain_created
      exact hsame hplain.masked
  | sessionTimeout self sid userAId userBId =>
      have hplain : Plain (sessionTimeout self sid userAId userBId) :=
        (endSession_issues self _ .timeout).mono fun _ => plain_end
      exact hsame hplain.masked
  | choiceTimeout self sid userAId userBId =>
      exact masked_finalizePass.mono fun a a' ha _ => ha.1
  | submitChoice self sid userId choice =>
      exact (masked_submitChoice sid userId choice).mono fun a a' ha hu =>
        ha (Option.some.inj hu)
  | onModuleInit self => exact hsame masked_onModuleInit
  | cleanupExpiredSessions => exact hsame (plain_of_asides aside_cleanupExpiredSessions).masked
  | createReport reporterId input =>
      exact hsame (plain_of_asides (aside_createReport reporterId input)).masked
  | createBlock blockerId blockedId =>
      exact hsame (plain_of_asides (aside_createBlock blockerId blockedId)).masked
  | unblock blockerId blockedId =>
      exact hsame (plain_of_asides (aside_unblock blockerId blockedId)).masked
  | resolveReport reportId action =>
      exact hsame (plain_of_asides (aside_resolveReport reportId action)).masked
  | hiveWebhook self sched rawBody delivery =>
      refine hsame (Plain.masked ?_)
      exact (plain_of_asides (aside_verifyWebhookSignature _ _ _ _)).bind fun _ =>
        (Moderation.handleWebhook_issues self sched _ delivery).mono fun _ => plain_webhook
  | read userId call =>
      have hcaller {α : Type} {p : Prog α} (h : V.Masked (fun r r' => userId = V.u → r' = r) p p) :
          V.Masked (fun r r' => some userId = some V.u → r' = r) p p :=
        h.mono fun a a' ha hu => ha (Option.some.inj hu)
      cases call with
      | listMatches blocksFirst => exact hcaller (masked_listMatches blocksFirst)
      | getReveal matchId => exact hcaller (masked_getReveal matchId)
      | acknowledgeReveal matchId => exact hcaller (masked_acknowledgeReveal matchId)
      | listMessages matchId limit =>
          exact hsame (plain_of_asides (aside_listMessages matchId userId limit)).masked
  | sendMessage matchId userId text =>
      refine hsame ?_
      change V.Masked Eq (Chat.sendMessage matchId userId text) (Chat.sendMessage matchId userId text)
      exact masked_sendMessage matchId text
  | payments o => exact hsame (plain_of_asides (aside_handleStripeWebhookEvent o.event)).masked
  | auth o => exact hsame (masked_auth cfg.auth o)

end Others

end View

end VerityBackend.App
