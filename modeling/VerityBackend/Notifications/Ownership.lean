/-
VerityBackend.Notifications.Ownership — whose device is it?

The last operation that took effect on a token decides: a registration
gives the token to its user, and only the user who has it can take it back.
The rows say the same (`Table`), so a push goes to each device once, and to
no other.
-/
import Mathlib.Data.List.Nodup
import Mathlib.Data.List.Induction
import VerityBackend.Notifications.Service

namespace VerityBackend.Notifications

/-! ## By the history -/

/-- The operation takes effect on the token while the user has it. -/
def PushOp.Displaces (users : List UserId) (token : String) (u : UserId) : PushOp → Prop
  | .registerPushToken v dto => jsTrim dto.token = token ∧ v ∈ users
  | .unregisterPushToken v tokenRaw => jsTrim tokenRaw = token ∧ v = u
  | .tick _ => False

/-- The last operation that took effect on the token is a registration by
this user. -/
def LastRegistered (users : List UserId) (ops : List PushOp) (token : String) (u : UserId) : Prop :=
  ∃ before dto later, ops = before ++ .registerPushToken u dto :: later ∧ jsTrim dto.token = token ∧
    u ∈ users ∧ ∀ op ∈ later, ¬op.Displaces users token u

section History

variable {users : List UserId} {ops : List PushOp} {token : String} {u : UserId}

theorem not_lastRegistered_nil : ¬LastRegistered users [] token u := by
  rintro ⟨before, dto, later, h, -⟩
  exact absurd h.symm (List.append_ne_nil_of_right_ne_nil before (List.cons_ne_nil _ _))

/-- One more operation: it is the registration, or it leaves it standing. -/
theorem lastRegistered_concat {op : PushOp} :
    LastRegistered users (ops ++ [op]) token u ↔
      (∃ dto, op = .registerPushToken u dto ∧ jsTrim dto.token = token ∧ u ∈ users) ∨
        LastRegistered users ops token u ∧ ¬op.Displaces users token u := by
  constructor
  · rintro ⟨before, dto, later, hops, htoken, hu, hlater⟩
    rcases List.eq_nil_or_concat later with rfl | ⟨later, last, rfl⟩
    · obtain ⟨-, hop⟩ := List.append_inj' hops rfl
      exact .inl ⟨dto, (List.cons.inj hop).1, htoken, hu⟩
    · rw [List.concat_eq_append, ← List.cons_append, ← List.append_assoc] at hops
      obtain ⟨hold, hop⟩ := List.append_inj' hops rfl
      obtain rfl := (List.cons.inj hop).1
      refine .inr ⟨⟨before, dto, later, hold, htoken, hu, fun x hx => ?_⟩, ?_⟩
      · exact hlater x (List.concat_eq_append ▸ List.mem_append_left _ hx)
      · exact hlater op (List.concat_eq_append ▸ List.mem_append_right _ (.head _))
  · rintro (⟨dto, rfl, htoken, hu⟩ | ⟨⟨before, dto, later, rfl, htoken, hu, hlater⟩, hop⟩)
    · exact ⟨ops, dto, [], rfl, htoken, hu, nofun⟩
    · refine ⟨before, dto, later ++ [op], by simp, htoken, hu, fun x hx => ?_⟩
      rcases List.mem_append.mp hx with hx | hx
      · exact hlater x hx
      · exact List.mem_singleton.mp hx ▸ hop

end History

/-! ## By the table -/

/-- The rows say who has a token. -/
structure Table (users : List UserId) (ops : List PushOp) (w : PushWorld) : Prop where
  sameUsers : w.users = users
  unique : (w.pushTokens.map (·.token)).Nodup
  owner : ∀ token u, (∃ row ∈ w.pushTokens, row.activeOf u token = true) ↔
    LastRegistered users ops token u

section Table

variable {users : List UserId} {ops : List PushOp} {w : PushWorld}

theorem activeOf_iff {row : PushToken} {u : UserId} {token : String} :
    row.activeOf u token = true ↔ row.userId = u ∧ row.token = token ∧ row.revokedAt = none := by
  simp [PushToken.activeOf, and_assoc]

theorem table_empty {w : PushWorld} (h : w.pushTokens = []) : Table w.users [] w where
  sameUsers := rfl
  unique := by rw [h]; exact List.nodup_nil
  owner token u := by
    constructor
    · rintro ⟨row, hrow, -⟩
      rw [h] at hrow
      cases hrow
    · exact fun hlast => absurd hlast not_lastRegistered_nil

/-- What the rows become, of which each keeps its token. -/
theorem exists_map_iff {f : PushToken → PushToken} {P : PushToken → Prop} {rows : List PushToken} :
    (∃ row ∈ rows.map f, P row) ↔ ∃ row ∈ rows, P (f row) := by
  simp

theorem Table.registered (h : Table users ops w) {v : UserId} (dto : RegisterPushTokenDto)
    (hv : v ∈ users) : Table users (ops ++ [.registerPushToken v dto])
      (registerPushToken v dto w).2 := by
  have hlast (token : String) (u : UserId) :
      LastRegistered users (ops ++ [.registerPushToken v dto]) token u ↔
        (if jsTrim dto.token = token then u = v else LastRegistered users ops token u) := by
    rw [lastRegistered_concat]
    split
    · next htoken =>
        constructor
        · rintro (⟨dto', hop, -⟩ | ⟨-, hop⟩)
          · cases hop
            rfl
          · exact absurd ⟨htoken, hv⟩ hop
        · rintro rfl
          exact .inl ⟨dto, rfl, htoken, hv⟩
    · next htoken =>
        constructor
        · rintro (⟨dto', hop, ht, -⟩ | ⟨hold, -⟩)
          · cases hop
            exact absurd ht htoken
          · exact hold
        · exact fun hold => .inr ⟨hold, fun hop => htoken hop.1⟩
  unfold registerPushToken
  dsimp only
  rw [if_neg (by rw [h.sameUsers]; exact not_not_intro hv)]
  cases hfind : w.pushTokens.find? (·.token = jsTrim dto.token) with
  | some found =>
      have hfound : found ∈ w.pushTokens := List.mem_of_find?_eq_some hfind
      have htoken : found.token = jsTrim dto.token := by simpa using List.find?_some hfind
      refine ⟨h.sameUsers, ?_, fun token u => ?_⟩
      · dsimp only
        rw [List.map_map]
        refine (List.map_congr_left fun row _ => ?_) ▸ h.unique
        dsimp only [Function.comp]
        split <;> rfl
      · rw [hlast, exists_map_iff]
        split
        · next ht =>
            subst ht
            constructor
            · rintro ⟨row, -, hrow⟩
              rw [activeOf_iff] at hrow
              split at hrow
              · exact hrow.1.symm
              · next hne => exact absurd hrow.2.1 hne
            · rintro rfl
              refine ⟨found, hfound, ?_⟩
              rw [if_pos htoken, activeOf_iff]
              exact ⟨rfl, htoken, rfl⟩
        · next ht =>
            rw [← h.owner]
            refine exists_congr fun row => and_congr_right fun _ => ?_
            split
            · next hrow =>
                simp only [activeOf_iff, PushToken.reassign, hrow, ht, false_and, and_false]
            · rfl
  | none =>
      have hnew : ∀ row ∈ w.pushTokens, row.token ≠ jsTrim dto.token := by
        simpa using List.find?_eq_none.mp hfind
      refine ⟨h.sameUsers, ?_, fun token u => ?_⟩
      · dsimp only
        rw [List.map_append, List.map_singleton, List.nodup_append]
        refine ⟨h.unique, List.nodup_singleton _, fun t ht t' ht' heq => ?_⟩
        obtain ⟨row, hrow, rfl⟩ := List.mem_map.mp ht
        exact hnew row hrow (heq.trans (List.mem_singleton.mp ht'))
      · rw [hlast]
        dsimp only
        simp only [List.mem_append, List.mem_singleton, or_and_right, exists_or, exists_eq_left]
        split
        · next ht =>
            subst ht
            constructor
            · rintro (⟨row, hrow, hactive⟩ | hactive)
              · exact absurd (activeOf_iff.mp hactive).2.1 (hnew row hrow)
              · exact (activeOf_iff.mp hactive).1.symm
            · rintro rfl
              exact .inr (activeOf_iff.mpr ⟨rfl, rfl, rfl⟩)
        · next ht =>
            rw [← h.owner]
            exact ⟨fun hor => hor.resolve_right fun hactive => ht (activeOf_iff.mp hactive).2.1, .inl⟩

theorem Table.unregistered (h : Table users ops w) (v : UserId) (tokenRaw : String) :
    Table users (ops ++ [.unregisterPushToken v tokenRaw]) (unregisterPushToken v tokenRaw w).2 := by
  refine ⟨h.sameUsers, ?_, fun token u => ?_⟩
  · dsimp only [unregisterPushToken]
    rw [List.map_map]
    refine (List.map_congr_left fun row _ => ?_) ▸ h.unique
    dsimp only [Function.comp]
    split <;> rfl
  · rw [lastRegistered_concat, ← h.owner]
    dsimp only [unregisterPushToken]
    rw [exists_map_iff]
    constructor
    · rintro ⟨row, hrow, hactive⟩
      split at hactive
      · cases (activeOf_iff.mp hactive).2.2
      · next hother =>
          refine .inr ⟨⟨row, hrow, hactive⟩, fun hop => hother ?_⟩
          obtain ⟨hu, ht, hrevoked⟩ := activeOf_iff.mp hactive
          exact activeOf_iff.mpr ⟨hu.trans hop.2.symm, ht.trans hop.1.symm, hrevoked⟩
    · rintro (⟨dto, hop, -⟩ | ⟨⟨row, hrow, hactive⟩, hop⟩)
      · cases hop
      · refine ⟨row, hrow, ?_⟩
        rw [if_neg]
        · exact hactive
        · intro hother
          obtain ⟨hu, ht, -⟩ := activeOf_iff.mp hactive
          obtain ⟨hv, ht', -⟩ := activeOf_iff.mp hother
          exact hop ⟨ht'.symm.trans ht, hv.symm.trans hu⟩

/-- **Step lemma.** -/
theorem Table.next (h : Table users ops w) (op : PushOp) : Table users (ops ++ [op]) (w.next op) := by
  cases op with
  | registerPushToken v dto =>
      by_cases hv : v ∈ users
      · exact h.registered dto hv
      · have hsame : w.next (.registerPushToken v dto) = w := by
          have hout : v ∉ w.users := by rwa [h.sameUsers]
          simp only [PushWorld.next, registerPushToken, if_pos hout]
        rw [hsame]
        refine ⟨h.sameUsers, h.unique, fun token u => ?_⟩
        rw [h.owner, lastRegistered_concat]
        constructor
        · exact fun hlast => .inr ⟨hlast, fun hop => hv hop.2⟩
        · rintro (⟨dto', hop, -, hu⟩ | ⟨hlast, -⟩)
          · cases hop
            exact absurd hu hv
          · exact hlast
  | unregisterPushToken v tokenRaw => exact h.unregistered v tokenRaw
  | tick ms =>
      refine ⟨h.sameUsers, h.unique, fun token u => ?_⟩
      rw [lastRegistered_concat]
      constructor
      · exact fun hrow => .inr ⟨(h.owner token u).mp hrow, id⟩
      · rintro (⟨dto, hop, -⟩ | ⟨hlast, -⟩)
        · cases hop
        · exact (h.owner token u).mpr hlast

/-- **Run lemma.** -/
theorem table_after {w : PushWorld} (hw : w.pushTokens = []) (ops : List PushOp) :
    Table w.users ops (w.after ops) := by
  induction ops using List.reverseRecOn with
  | nil => exact table_empty hw
  | append_singleton ops op ih =>
      rw [PushWorld.after_concat]
      exact ih.next op

end Table

/-! ## Pushes -/

theorem mem_uniqueUserIds {userIds : List UserId} {u : UserId} :
    u ∈ uniqueUserIds userIds ↔ u ∈ userIds ∧ u ≠ "" := by
  have hfold : ∀ (us seen : List UserId),
      u ∈ us.foldl (fun seen u => if u ∈ seen then seen else seen ++ [u]) seen ↔ u ∈ seen ∨ u ∈ us := by
    intro us
    induction us with
    | nil => simp
    | cons v us ih =>
        intro seen
        rw [List.foldl_cons, ih]
        split
        · next hv =>
            constructor
            · rintro (h | h)
              · exact .inl h
              · exact .inr (.tail _ h)
            · rintro (h | h)
              · exact .inl h
              · rcases List.mem_cons.mp h with rfl | h
                · exact .inl hv
                · exact .inr h
        · simp [or_assoc]
  simp [uniqueUserIds, hfold]

/-- The deliveries of a push to these users: each device that is theirs, once,
and for the user who has it. -/
structure Delivered (users : List UserId) (ops : List PushOp) (userIds : List UserId)
    (deliveries : List Delivery) : Prop where
  once : (deliveries.map (·.token)).Nodup
  exact : ∀ token, token ∈ deliveries.map (·.token) ↔
    ∃ u ∈ userIds, LastRegistered users ops token u
  owner : ∀ d ∈ deliveries, LastRegistered users ops d.token d.userId

/-- Where nothing is posted there is no webhook, or nothing to deliver. -/
def Correct (webhook : Option String) (users : List UserId) (ops : List PushOp)
    (userIds : List UserId) : Option PushPayload → Prop
  | some payload => Delivered users ops userIds payload.deliveries
  | none => (webhook.map jsTrim).getD "" = "" ∨ Delivered users ops userIds []

/-- The JWT of a request names its user. -/
def Authenticated : PushOp → Prop
  | .registerPushToken userId _ => userId ≠ ""
  | .unregisterPushToken userId _ => userId ≠ ""
  | .tick _ => True

theorem ne_empty_of_lastRegistered {users : List UserId} {ops : List PushOp} {token : String}
    {u : UserId} (hops : ∀ op ∈ ops, Authenticated op) (h : LastRegistered users ops token u) :
    u ≠ "" := by
  obtain ⟨before, dto, later, rfl, -⟩ := h
  exact hops _ (List.mem_append_right _ (.head _))

/-- The rows that are found are the devices of the users. -/
theorem delivered_activeTokens {users : List UserId} {ops : List PushOp} {w : PushWorld}
    (h : Table users ops w) (hops : ∀ op ∈ ops, Authenticated op) (userIds : List UserId)
    (data : List (String × JsonField)) :
    Delivered users ops userIds ((activeTokens (uniqueUserIds userIds) w.pushTokens).map
      fun entry => ⟨entry.userId, entry.token, entry.platform, data⟩) := by
  have hmem {row : PushToken} (hrow : row ∈ activeTokens (uniqueUserIds userIds) w.pushTokens) :
      row ∈ w.pushTokens ∧ row.userId ∈ userIds ∧ row.activeOf row.userId row.token = true := by
    obtain ⟨hmem, hfound⟩ := List.mem_filter.mp hrow
    obtain ⟨hid, hnone⟩ := of_decide_eq_true hfound
    exact ⟨hmem, (mem_uniqueUserIds.mp hid).1,
      activeOf_iff.mpr ⟨rfl, rfl, Option.isNone_iff_eq_none.mp hnone⟩⟩
  refine ⟨?_, fun token => ⟨?_, ?_⟩, ?_⟩
  · rw [List.map_map]
    exact h.unique.sublist (List.filter_sublist.map PushToken.token)
  · rw [List.map_map]
    intro htoken
    obtain ⟨row, hrow, rfl⟩ := List.mem_map.mp htoken
    obtain ⟨hin, hid, hactive⟩ := hmem hrow
    exact ⟨row.userId, hid, (h.owner _ _).mp ⟨row, hin, hactive⟩⟩
  · rintro ⟨u, hu, hlast⟩
    have hne := ne_empty_of_lastRegistered hops hlast
    obtain ⟨row, hrow, hactive⟩ := (h.owner token u).mpr hlast
    obtain ⟨rfl, rfl, hnone⟩ := activeOf_iff.mp hactive
    rw [List.map_map]
    refine List.mem_map.mpr ⟨row, List.mem_filter.mpr ⟨hrow, decide_eq_true ⟨?_, ?_⟩⟩, rfl⟩
    · exact mem_uniqueUserIds.mpr ⟨hu, hne⟩
    · rw [hnone]
      rfl
  · intro d hd
    obtain ⟨row, hrow, rfl⟩ := List.mem_map.mp hd
    obtain ⟨hin, -, hactive⟩ := hmem hrow
    exact (h.owner _ _).mp ⟨row, hin, hactive⟩

@[simp] theorem webhook_next (w : PushWorld) (op : PushOp) : (w.next op).webhook = w.webhook := by
  cases op with
  | registerPushToken userId dto =>
      dsimp only [PushWorld.next, registerPushToken]
      split
      · rfl
      · split <;> rfl
  | unregisterPushToken => rfl
  | tick => rfl

theorem webhook_after (w : PushWorld) (ops : List PushOp) : (w.after ops).webhook = w.webhook := by
  induction ops using List.reverseRecOn with
  | nil => rfl
  | append_singleton ops op ih => rw [PushWorld.after_concat, webhook_next, ih]

/-- **Pushes go to the current owner of a device, once.** -/
theorem notifyUsers_correct {w : PushWorld} (hw : w.pushTokens = []) (ops : List PushOp)
    (hops : ∀ op ∈ ops, Authenticated op) (userIds : List UserId) (event : PushEventType)
    (data : List (String × JsonField)) :
    Correct w.webhook w.users ops userIds (notifyUsers userIds event data (w.after ops)).2 := by
  have hdelivered := delivered_activeTokens (table_after hw ops) hops userIds data
  unfold notifyUsers
  rw [webhook_after]
  dsimp only
  split
  · next hids =>
      rw [List.length_eq_zero_iff.mp hids] at hdelivered
      exact .inr (by simpa [activeTokens] using hdelivered)
  · split
    · next htokens =>
        rw [List.length_eq_zero_iff.mp htokens] at hdelivered
        exact .inr hdelivered
    · split
      · next hnone =>
          refine .inl ?_
          cases hurl : w.webhook.map jsTrim with
          | none => rfl
          | some url => simpa [hurl] using hnone
      · exact hdelivered

/-- A device changes hands, and its first user can not take it back. -/
theorem notifyUsers_correct_handed :
    let w : PushWorld := ⟨0, 0, ["ann", "bob"], [], some "https://push"⟩
    let ops : List PushOp :=
      [.registerPushToken "ann" ⟨"token-of-device", .IOS, none⟩, .tick 5,
        .registerPushToken "bob" ⟨" token-of-device ", .IOS, some " "⟩,
        .unregisterPushToken "ann" "token-of-device"]
    (notifyUsers ["ann", "bob", "bob", ""] .match_mutual [] (w.after ops)).2 =
        some ⟨.match_mutual, 5, [⟨"bob", "token-of-device", .IOS, []⟩]⟩ ∧
      Correct w.webhook w.users ops ["ann", "bob", "bob", ""]
        (notifyUsers ["ann", "bob", "bob", ""] .match_mutual [] (w.after ops)).2 :=
  ⟨by decide +kernel, notifyUsers_correct rfl _ (by simp [Authenticated]) _ _ _⟩

end VerityBackend.Notifications
