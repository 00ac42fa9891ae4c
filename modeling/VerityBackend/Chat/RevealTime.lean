/-
VerityBackend.Chat.RevealTime — which messages reach a user who opens a chat
for the first time.

`sendMessage` decides who is sent a message by the row of the match, which it
has read several commands before the message is there. A user who
acknowledges and lists the messages in between gets it in neither way
(`message_missed`). `message_reaches`: where no message is created after the
list has been read by a call that has read the row before the
acknowledgement, each message is in the list, or is sent.
-/
import VerityBackend.Backend.MessageRows
import VerityBackend.Chat.Gate

namespace VerityBackend.Chat

open Async

variable {matchId : MatchId} {recipient : UserId}

/-! ## What the commands of a call say -/

/-- The command reads the row of the match, and finds that the recipient has
acknowledged. -/
def readsOpen (matchId : MatchId) (recipient : UserId) : Cmd → World → Bool
  | .db (.matchFindUnique id), w =>
      id == matchId && (w.db.matchRows.find? (·.id = id)).any (·.acknowledgedBy recipient)
  | _, _ => false

/-- The message of the match that the command creates. -/
def created (matchId : MatchId) : Cmd → World → Option Message
  | .db (.messageCreate id sender text), w =>
      if id = matchId then ((Cmd.db (.messageCreate id sender text)).exec w).1.toOption else none
  | _, _ => none

/-- The command creates a message of the match. -/
def creates (matchId : MatchId) : Cmd → Bool
  | .db (.messageCreate id _ _) => id == matchId
  | _ => false

/-- The command reads the messages of the match. -/
def lists (matchId : MatchId) : Cmd → Bool
  | .db (.messageFindMany id _) => id == matchId
  | _ => false

/-- Call `k` has read a row in which the recipient has acknowledged. -/
def SawOpen (matchId : MatchId) (recipient : UserId) (k : Nat) (s : Snap chatService.system) : Prop :=
  ∃ e ∈ s.trace, e.call = k ∧ readsOpen matchId recipient e.cmd e.before = true

/-- A message that is created once call `j` has read the list is created by a
call that has seen the recipient's acknowledgement. -/
def Timely (matchId : MatchId) (recipient : UserId) (j : Nat) (c : Config chatService.system) :
    Event chatService.system → Prop
  | .step k => ∀ cmd ∈ c.pending k, creates matchId cmd = true →
      SawOpen matchId recipient k c.toSnap ∨ ∀ l ∈ c.trace, l.call = j → lists matchId l.cmd = false
  | _ => True

instance (matchId : MatchId) (recipient : UserId) (k : Nat) (s : Snap chatService.system) :
    Decidable (SawOpen matchId recipient k s) :=
  inferInstanceAs (Decidable (∃ e ∈ s.trace, _ ∧ _))

instance (matchId : MatchId) (recipient : UserId) (j : Nat) (c : Config chatService.system)
    (e : Event chatService.system) : Decidable (Timely matchId recipient j c e) :=
  match e with
  | .step k => inferInstanceAs (Decidable (∀ cmd ∈ c.pending k, creates matchId cmd = true →
      SawOpen matchId recipient k c.toSnap ∨ ∀ l ∈ c.trace, l.call = j → lists matchId l.cmd = false))
  | .start _ | .env _ => .isTrue trivial

/-! ## A message is seen when it is created, or read when the list is -/

/-- The messages that have been created stay; and each is of a call that saw
the acknowledgement, or was there when call `j` read the list. -/
def Reaching (matchId : MatchId) (recipient : UserId) (j : Nat) (s : Snap chatService.system) : Prop :=
  ∀ e ∈ s.trace, ∀ message ∈ created matchId e.cmd e.before,
    message ∈ s.world.db.messages ∧ (SawOpen matchId recipient e.call s ∨
      ∀ l ∈ s.trace, l.call = j → lists matchId l.cmd = true → message ∈ l.before.db.messages)

theorem SawOpen.exec {k i : Nat} {s : Snap chatService.system} (h : SawOpen matchId recipient k s)
    (c : Cmd) : SawOpen matchId recipient k (s.exec i c) := by
  obtain ⟨e, he, hsaw⟩ := h
  exact ⟨e, List.mem_cons_of_mem _ he, hsaw⟩

theorem created_cases {c : Cmd} {w : World} {message : Message} (h : message ∈ created matchId c w) :
    message.matchId = matchId ∧ message ∈ (c.exec w).2.db.messages ∧ lists matchId c = false ∧
      creates matchId c = true := by
  unfold created at h
  split at h
  · next id sender text =>
    split at h
    · next heq =>
      subst heq
      have hok : ((Cmd.db (.messageCreate id sender text)).exec w).1 = .ok message := by
        cases hres : ((Cmd.db (.messageCreate id sender text)).exec w).1 with
        | error e => rw [hres] at h; cases h
        | ok a => rw [hres] at h; exact congrArg Except.ok (Option.some.inj h)
      obtain ⟨hmatch, hmem⟩ := messageCreate_mem hok
      exact ⟨hmatch, hmem, rfl, beq_self_eq_true id⟩
    · cases h
  · cases h

/-- **Step lemma.** -/
theorem Reaching.exec {j i : Nat} {c : Cmd} {s : Snap chatService.system}
    (h : Reaching matchId recipient j s)
    (htimely : creates matchId c = true →
      SawOpen matchId recipient i s ∨ ∀ l ∈ s.trace, l.call = j → lists matchId l.cmd = false) :
    Reaching matchId recipient j (s.exec i c) := by
  intro e he message hmessage
  rcases List.mem_cons.mp he with rfl | he
  · obtain ⟨-, hmem, hnot, hcreates⟩ := created_cases hmessage
    refine ⟨hmem, ?_⟩
    rcases htimely hcreates with hsaw | hnone
    · exact .inl (hsaw.exec c)
    · refine .inr fun l hl hcall hlists => ?_
      rcases List.mem_cons.mp hl with rfl | hl
      · rw [hnot] at hlists
        cases hlists
      · rw [hnone l hl hcall] at hlists
        cases hlists
  · obtain ⟨hmem, hreach⟩ := h e he message hmessage
    refine ⟨c.message_stays hmem, hreach.imp (·.exec c) fun hread l hl hcall hlists => ?_⟩
    rcases List.mem_cons.mp hl with rfl | hl
    · exact hmem
    · exact hread l hl hcall hlists

/-- **Run lemma.** -/
theorem reaching_run {j : Nat} (w : World) (es : List (Event chatService.system))
    (hes : (Config.initial w : Config chatService.system).Obeys (Timely matchId recipient j) es) :
    Reaching matchId recipient j ((Config.initial w : Config chatService.system).run es).toSnap := by
  refine Config.run_induct (P := fun c => Reaching matchId recipient j c.toSnap) ?_ es _ hes
    (fun e he => absurd he List.not_mem_nil)
  intro c e hok h
  cases e with
  | start o => exact h
  | env e =>
      cases e
      exact h
  | step i =>
      cases hp : c.pending i with
      | none => rw [Config.next_step_of_pending_none hp]; exact h
      | some cmd =>
          obtain ⟨o, k, hc⟩ := Config.pending_eq_some.mp hp
          rw [Config.next_step_of_call hc]
          exact Reaching.exec h (hok cmd hp)

/-! ## What a call has done when it returns -/

/-- `sendMessage` has created the message, and has sent it to whoever has
acknowledged in the row it has read. -/
structure Sent (matchId : MatchId) (message : Message) (own : List (Entry chatService.system)) :
    Prop where
  created : ∃ e ∈ own, message ∈ created matchId e.cmd e.before
  emitted : ∃ e ∈ own, ∃ os, e.cmd = .host (.emit os) ∧ ∀ recipient,
    (∃ e' ∈ own, readsOpen matchId recipient e'.cmd e'.before = true) →
      .messageNew recipient (messagePayload message) ∈ os

/-- `listMessages` has read the list. -/
def Listed (matchId : MatchId) (take : Nat) (messages : List Message)
    (own : List (Entry chatService.system)) : Prop :=
  ∃ e ∈ own, e.cmd = .db (.messageFindMany matchId take) ∧
    messages = ((Db.latestFirst (·.createdAt)
      (e.before.db.messages.filter (·.matchId = matchId))).take take).reverse

/-- What a call has done that returns. -/
def Done : (o : ChatOp) → Except Err o.Ret → List (Entry chatService.system) → Prop
  | .sendMessage matchId _ _, .ok message => Sent matchId message
  | .listMessages matchId _ limit, .ok messages => Listed matchId (safeLimit limit) messages
  | _, _ => fun _ => True

/-- The row says all that the call has seen of acknowledgements. -/
def Knows (matchId : MatchId) (m : Match) (own : List (Entry chatService.system)) : Prop :=
  ∀ recipient, (∃ e ∈ own, readsOpen matchId recipient e.cmd e.before = true) →
    m.acknowledgedBy recipient

/-- The command does not read the row of a match. -/
def Blind (c : Cmd) : Prop := ∀ matchId recipient w, readsOpen matchId recipient c w = false

variable {o : ChatOp} {i : Nat} {s : Snap chatService.system} {m : Match}

theorem Knows.cons {own : List (Entry chatService.system)} {c : Cmd} {w : World}
    (h : Knows matchId m own) (hc : Blind c) : Knows matchId m (⟨i, c, w⟩ :: own) := by
  rintro recipient ⟨e, he, hsaw⟩
  rcases List.mem_cons.mp he with rfl | he
  · rw [hc] at hsaw
    cases hsaw
  · exact h recipient ⟨e, he, hsaw⟩

theorem blind_assertNotBlocked (userAId userBId : UserId) :
    (assertNotBlocked userAId userBId).Conforms Blind True := by
  refine (Proc.conforms_await fun _ _ _ => rfl).bind fun block => ?_
  split
  · exact Proc.conforms_fail _ trivial
  · exact Proc.conforms_pure _

theorem openMatch_valid (matchId : MatchId) (userId : UserId) (hs : s.own i = []) :
    Discipline.own.Valid (S := chatService.system) o i (openMatch matchId userId)
      (fun r s' => ∀ m, r = .ok m → Knows matchId m (s'.own i)) s := by
  unfold openMatch getMatchForUser
  simp only [Proc.bind_eq, Proc.bind_assoc]
  refine Discipline.own_await hs fun w s₁ hs₁ => ?_
  have hread : (chatService.system.exec (.db (.matchFindUnique matchId)) w).1 =
      .ok (w.db.matchRows.find? (·.id = matchId)) := rfl
  rw [hread, Discipline.resumes_ok]
  cases hfind : w.db.matchRows.find? (·.id = matchId) with
  | none => exact nofun
  | some m =>
      have hknows : Knows matchId m (s₁.own i) := by
        rw [hs₁]
        rintro recipient ⟨e, he, hsaw⟩
        obtain rfl := List.mem_singleton.mp he
        simp only [readsOpen, hfind, Bool.and_eq_true, Option.any_some, decide_eq_true_eq] at hsaw
        exact hsaw.2
      dsimp only
      split
      · exact nofun
      · change Discipline.own.Valid (S := chatService.system) o i
          ((assertNotBlocked m.userAId m.userBId).bind _) _ _
        refine Discipline.own_conforms_bind (blind_assertNotBlocked _ _)
          (fun c w es hc h => h.cons hc) hknows (fun _ s₂ hknows₂ => ?_) fun _ _ _ => nofun
        unfold assertRevealAcknowledged
        split
        · intro m' hm'
          obtain rfl := Except.ok.inj hm'
          exact hknows₂
        · exact nofun

/-- The commands of a call after its `openMatch`. -/
theorem blind_notifyRecipient (m : Match) (userId : UserId) (message : Message) :
    (notifyRecipient m userId message).Conforms Blind True := by
  unfold notifyRecipient
  dsimp only
  split
  · exact (Proc.conforms_await fun _ _ _ => rfl).bind fun _ => Proc.conforms_await fun _ _ _ => rfl
  · exact Proc.conforms_await fun _ _ _ => rfl

/-- Whoever has acknowledged in the row is sent the message. -/
theorem mem_messageEvents {message : Message} (h : m.acknowledgedBy recipient) :
    .messageNew recipient (messagePayload message) ∈ messageEvents m message := by
  unfold messageEvents
  rcases h with ⟨rfl, hack⟩ | ⟨rfl, hack⟩
  · exact List.mem_append_left _ (by simp [hack])
  · exact List.mem_append_right _ (by simp [hack])

theorem sent_cons {message : Message} {c : Cmd} {w : World}
    {own : List (Entry chatService.system)} (hc : Blind c) (h : Sent matchId message own) :
    Sent matchId message (⟨i, c, w⟩ :: own) where
  created := by
    obtain ⟨e, he, hcreated⟩ := h.created
    exact ⟨e, List.mem_cons_of_mem _ he, hcreated⟩
  emitted := by
    obtain ⟨e, he, os, hemit, hall⟩ := h.emitted
    refine ⟨e, List.mem_cons_of_mem _ he, os, hemit, fun recipient ⟨e', he', hsaw⟩ => ?_⟩
    refine hall recipient ?_
    rcases List.mem_cons.mp he' with rfl | he'
    · rw [hc] at hsaw
      cases hsaw
    · exact ⟨e', he', hsaw⟩

theorem sendMessage_valid (matchId : MatchId) (userId : UserId) (text : String)
    (hs : s.own i = []) :
    Discipline.own.Valid (S := chatService.system) o i (sendMessage matchId userId text)
      (fun r s' => ∀ message, r = .ok message → Sent matchId message (s'.own i)) s := by
  rcases em (jsTrim text = "") with hblank | hblank
  · unfold sendMessage
    rw [if_pos hblank]
    exact nofun
  unfold sendMessage
  rw [if_neg hblank]
  refine Discipline.valid_bind ((openMatch_valid matchId userId hs).weaken fun r s₁ hknows => ?_)
  cases r with
  | error e => exact nofun
  | ok m =>
      rw [Discipline.resumes_ok]
      split
      · exact nofun
      refine Discipline.own_await rfl fun w₂ s₂ hs₂ => ?_
      have hknows₂ : Knows matchId m (s₂.own i) := hs₂ ▸ (hknows m rfl).cons fun _ _ _ => rfl
      refine Discipline.own_await rfl fun w₃ s₃ hs₃ => ?_
      have hknows₃ : Knows matchId m (s₃.own i) := hs₃ ▸ hknows₂.cons fun _ _ _ => rfl
      refine Discipline.own_await rfl fun w₄ s₄ hs₄ => ?_
      have hknows₄ : Knows matchId m (s₄.own i) := hs₄ ▸ hknows₃.cons fun _ _ _ => rfl
      cases hres : (chatService.system.exec (.db (.messageCreate matchId userId (jsTrim text))) w₄).1 with
      | error e => exact nofun
      | ok message =>
          have hcreated : ∃ e ∈ s₄.own i, message ∈ created matchId e.cmd e.before := by
            rw [hs₄]
            refine ⟨_, List.mem_cons_self, ?_⟩
            rw [created, if_pos rfl]
            exact congrArg Except.toOption hres
          refine Discipline.own_await rfl fun w₅ s₅ hs₅ => ?_
          have hsent : Sent matchId message (s₅.own i) := by
            rw [hs₅]
            constructor
            · obtain ⟨e, he, h⟩ := hcreated
              exact ⟨e, List.mem_cons_of_mem _ he, h⟩
            · exact ⟨_, List.mem_cons_self, _, rfl, fun recipient hsaw =>
                mem_messageEvents ((hknows₄.cons fun _ _ _ => rfl) recipient hsaw)⟩
          refine Discipline.own_conforms_bind (blind_notifyRecipient m userId message)
            (fun _ _ _ hc h => sent_cons hc h) hsent (fun _ s₆ hsent₆ => ?_) fun _ _ _ => nofun
          refine Discipline.own_await rfl fun w₇ s₇ hs₇ message' hmessage' => ?_
          obtain rfl := Except.ok.inj hmessage'
          rw [hs₇]
          exact sent_cons (fun _ _ _ => rfl) hsent₆

theorem listed_cons {take : Nat} {messages : List Message} {e : Entry chatService.system}
    {own : List (Entry chatService.system)} (h : Listed matchId take messages own) :
    Listed matchId take messages (e :: own) := by
  obtain ⟨l, hl, hread⟩ := h
  exact ⟨l, List.mem_cons_of_mem _ hl, hread⟩

theorem listMessages_valid (matchId : MatchId) (userId : UserId) (limit : Option Int)
    (hs : s.own i = []) :
    Discipline.own.Valid (S := chatService.system) o i (listMessages matchId userId limit)
      (fun r s' => ∀ messages, r = .ok messages →
        Listed matchId (safeLimit limit) messages (s'.own i)) s := by
  unfold listMessages
  refine Discipline.valid_bind ((openMatch_valid matchId userId hs).weaken fun r s₁ _ => ?_)
  cases r with
  | error e => exact nofun
  | ok m =>
      refine Discipline.own_await rfl fun w₂ s₂ hs₂ => Discipline.own_await rfl fun w₃ s₃ hs₃ =>
        Discipline.own_await rfl fun w₄ s₄ hs₄ messages hmessages => ?_
      obtain rfl := Except.ok.inj hmessages
      rw [hs₄, hs₃, hs₂]
      exact listed_cons (listed_cons ⟨_, List.mem_cons_self, rfl, rfl⟩)

theorem code_valid (o : ChatOp) (i : Nat) (s : Snap chatService.system) (hs : s.own i = []) :
    Discipline.own.Valid (S := chatService.system) o i o.code (fun r s' => Done o r (s'.own i)) s := by
  cases o with
  | acknowledgeReveal matchId userId =>
      refine (Discipline.own_trivial _).weaken fun r _ _ => ?_
      cases r <;> trivial
  | sendMessage matchId userId text =>
      refine (sendMessage_valid matchId userId text hs).weaken fun r s' h => ?_
      cases r with
      | error e => trivial
      | ok message => exact h message rfl
  | listMessages matchId userId limit =>
      refine (listMessages_valid matchId userId limit hs).weaken fun r s' h => ?_
      cases r with
      | error e => trivial
      | ok messages => exact h messages rfl

/-! ## Opening the chat -/

/-- A run in which the recipient acknowledges the reveal (call `i`), and then
lists the messages: the list `messages`, which is not cut off by its limit, is
what the call returns that begins after `es₁`. -/
structure Opening (w : World) (matchId : MatchId) (recipient : UserId) (limit : Option Int)
    (es₁ es₂ : List (Event chatService.system)) (messages : List Message) : Prop where
  acknowledged : ∃ i payload, ((Config.initial w : Config chatService.system).run es₁).Settled i
    (.acknowledgeReveal matchId recipient) (.ok payload)
  listed : ((Config.initial w : Config chatService.system).run
    (es₁ ++ .start (.listMessages matchId recipient limit) :: es₂)).Settled
      ((Config.initial w : Config chatService.system).run es₁).calls.length
      (.listMessages matchId recipient limit) (.ok messages)
  uncut : ∀ l ∈ ((Config.initial w : Config chatService.system).run
      (es₁ ++ .start (.listMessages matchId recipient limit) :: es₂)).trace,
    l.call = ((Config.initial w : Config chatService.system).run es₁).calls.length →
      lists matchId l.cmd = true →
        (l.before.db.messages.filter (·.matchId = matchId)).length ≤ safeLimit limit

/-- The recipient gets the message in the list, or it is sent to the recipient
after the acknowledgement. -/
def Reached (matchId : MatchId) (recipient : UserId) (messages : List Message)
    (c : Config chatService.system) (message : Message) : Prop :=
  message ∈ messages ∨ ∃ e ∈ c.trace, ∃ os, e.cmd = .host (.emit os) ∧
    .messageNew recipient (messagePayload message) ∈ os ∧ Open matchId recipient e.before

theorem mem_latestFirst {α : Type} {createdAt : α → Nat} {rows : List α} {x : α} :
    x ∈ Db.latestFirst createdAt rows ↔ x ∈ rows :=
  (List.perm_insertionSort _ rows).mem_iff

/-- Where no message is created after the list has been read by a call that
has read the row before the acknowledgement, none is missed. -/
theorem message_reaches (w : World) (matchId : MatchId) (recipient : UserId) (limit : Option Int)
    (es₁ es₂ : List (Event chatService.system)) (messages : List Message)
    (hopening : Opening w matchId recipient limit es₁ es₂ messages)
    (hes : (Config.initial w : Config chatService.system).Obeys
      (Timely matchId recipient ((Config.initial w : Config chatService.system).run es₁).calls.length)
      (es₁ ++ .start (.listMessages matchId recipient limit) :: es₂)) :
    let c := (Config.initial w : Config chatService.system).run
      (es₁ ++ .start (.listMessages matchId recipient limit) :: es₂)
    ∀ k sender text message, c.Settled k (.sendMessage matchId sender text) (.ok message) →
      Reached matchId recipient messages c message := by
  intro c k sender text message hsettled
  have hsent : Sent matchId message (c.toSnap.own k) :=
    Discipline.own_settled code_valid _ hsettled
  obtain ⟨l, hl, hread, hmessages⟩ : Listed matchId (safeLimit limit) messages
      (c.toSnap.own ((Config.initial w : Config chatService.system).run es₁).calls.length) :=
    Discipline.own_settled code_valid _ hopening.listed
  obtain ⟨hlmem, hlcall⟩ := List.mem_filter.mp hl
  obtain ⟨e, he, hcreated⟩ := hsent.created
  obtain ⟨hemem, hecall⟩ := List.mem_filter.mp he
  obtain ⟨hmatch, -⟩ := created_cases hcreated
  obtain ⟨-, hreach⟩ := reaching_run w _ hes e hemem message hcreated
  have hlists : lists matchId l.cmd = true := by
    rw [hread]
    exact beq_self_eq_true matchId
  rcases hreach with ⟨e', he', hcall, hsaw⟩ | hbefore
  · obtain ⟨x, hx, os, hemit, hall⟩ := hsent.emitted
    have hown : e' ∈ c.toSnap.own k :=
      List.mem_filter.mpr ⟨he', by simpa [hcall] using hecall⟩
    have hout := hall recipient ⟨e', hown, hsaw⟩
    obtain ⟨hxmem, -⟩ := List.mem_filter.mp hx
    have hall' : (Config.initial w : Config chatService.system).Obeys (fun _ _ => True)
        (es₁ ++ .start (.listMessages matchId recipient limit) :: es₂) :=
      Config.obeys_of_forall (fun _ _ => trivial) _ _
    obtain ⟨-, hpast, -⟩ := practice.run (fun _ o _ => learns_code o) learnt_lasting trivial
      hall'
    refine .inr ⟨x, hxmem, os, hemit, hout, ?_⟩
    have hopen := (hpast x hxmem).1 os recipient _ hemit hout
    rw [show (messagePayload message).matchId = matchId from hmatch] at hopen
    exact hopen
  · refine .inl ?_
    have hin := hbefore l hlmem (by simpa using hlcall) hlists
    have hcut := hopening.uncut l hlmem (by simpa using hlcall) hlists
    rw [hmessages, List.mem_reverse, List.take_of_length_le]
    · rw [mem_latestFirst, List.mem_filter]
      exact ⟨hin, by simpa using hmatch⟩
    · rw [Db.latestFirst, List.length_insertionSort]
      exact hcut

/-! ## Ann and Bob -/

/-- Bob has acknowledged the reveal, and Ann has not. -/
def revealTime : World :=
  { World.peopled ["ann", "bob"] 0 with
    db := { (World.peopled ["ann", "bob"] 0).db with
      matchRows := [⟨"m", "ann", "bob", 0, none, some 0⟩] } }

/-- Bob's message, once it is there. -/
def bobsMessage : Message := ⟨freshId 0, 0, "m", "bob", "hi"⟩

/-- Bob's call reads the row before Ann acknowledges, and creates its message
before she lists the messages. -/
def inTime : List (Event chatService.system) :=
  (.start (.sendMessage "m" "bob" "hi") ::
      List.replicate 4 (.step 0) : List (Event chatService.system)) ++
    (.start (.acknowledgeReveal "m" "ann") ::
      List.replicate 4 (.step 1) : List (Event chatService.system)) ++
    ([.step 0] : List (Event chatService.system))

theorem opening_inTime :
    Opening revealTime "m" "ann" none inTime
      ((List.replicate 5 (.step 2) : List (Event chatService.system)) ++
        (List.replicate 3 (.step 0) : List (Event chatService.system))) [bobsMessage] where
  acknowledged := ⟨1, ⟨"m", 1, ⟨"bob", none, none, none, none⟩, true, some 0⟩, by with_unfolding_all rfl⟩
  listed := by with_unfolding_all rfl
  uncut := by decide +kernel

theorem message_reaches_inTime :
    let c := (Config.initial revealTime : Config chatService.system).run
      (inTime ++ (.start (.listMessages "m" "ann" none) ::
        ((List.replicate 5 (.step 2) : List (Event chatService.system)) ++
          (List.replicate 3 (.step 0) : List (Event chatService.system))) : List (Event chatService.system)))
    c.Settled 0 (.sendMessage "m" "bob" "hi") (.ok bobsMessage) ∧
      Reached "m" "ann" [bobsMessage] c bobsMessage :=
  ⟨by with_unfolding_all rfl, message_reaches revealTime "m" "ann" none inTime _ [bobsMessage] opening_inTime
    (by decide +kernel) 0 "bob" "hi" bobsMessage (by with_unfolding_all rfl)⟩

/-- Bob's call is overtaken by Ann's two, between its reading the row and its
creating the message. -/
def overtaken : List (Event chatService.system) :=
  (.start (.sendMessage "m" "bob" "hi") ::
      List.replicate 4 (.step 0) : List (Event chatService.system)) ++
    (.start (.acknowledgeReveal "m" "ann") ::
      List.replicate 4 (.step 1) : List (Event chatService.system))

/-- A message is sent to the user. -/
def sendsTo (userId : UserId) : Cmd → Bool
  | .host (.emit os) => os.any fun
      | .messageNew room _ => room == userId
      | _ => false
  | _ => false

theorem message_missed :
    ¬∀ (w : World) (matchId : MatchId) (recipient : UserId) (limit : Option Int)
        (es₁ es₂ : List (Event chatService.system)) (messages : List Message),
      Opening w matchId recipient limit es₁ es₂ messages →
      let c := (Config.initial w : Config chatService.system).run
        (es₁ ++ .start (.listMessages matchId recipient limit) :: es₂)
      ∀ k sender text message, c.Settled k (.sendMessage matchId sender text) (.ok message) →
        Reached matchId recipient messages c message := by
  intro hall
  have hopening : Opening revealTime "m" "ann" none overtaken
      ((List.replicate 5 (.step 2) : List (Event chatService.system)) ++
        (List.replicate 4 (.step 0) : List (Event chatService.system))) [] :=
    ⟨⟨1, ⟨"m", 1, ⟨"bob", none, none, none, none⟩, true, some 0⟩, by with_unfolding_all rfl⟩,
      by with_unfolding_all rfl, by decide +kernel⟩
  rcases hall revealTime "m" "ann" none overtaken _ [] hopening 0 "bob" "hi" bobsMessage
    (by with_unfolding_all rfl) with hmem | ⟨e, he, os, hemit, hout, -⟩
  · cases hmem
  · have hnone : ∀ e ∈ ((Config.initial revealTime : Config chatService.system).run
        (overtaken ++ (.start (.listMessages "m" "ann" none) ::
          ((List.replicate 5 (.step 2) : List (Event chatService.system)) ++
            (List.replicate 4 (.step 0) : List (Event chatService.system))) : List (Event chatService.system)))).trace,
        sendsTo "ann" e.cmd = false := by
      decide +kernel
    have hsends : sendsTo "ann" e.cmd = true := by
      rw [hemit]
      exact List.any_eq_true.mpr ⟨_, hout, rfl⟩
    rw [hnone e he] at hsends
    cases hsends

end VerityBackend.Chat
