/-
VerityBackend.Chat.Gate — chat is for users who have acknowledged the
reveal.

`openMatch` looks at the row of the match once, and the rest of a call goes
by that snapshot. What the snapshot says of acknowledgements stays true
(`Seen`), so a message goes to, and is read by, a participant whose own
acknowledgement is set by then.

A push says nothing of a message's text: two calls of `sendMessage` that
differ in the text only, and get the same answers, send the same pushes
(`alike_sendMessage`).
-/
import VerityBackend.Async.Knowledge
import VerityBackend.Async.Relational
import VerityBackend.Backend.MatchRows
import VerityBackend.Chat.Issued

namespace VerityBackend

/-- A push to the devices of users. -/
def Output.isPush : Output → Bool
  | .push _ _ _ => true
  | _ => false

end VerityBackend

namespace VerityBackend.Chat

open Async

/-! ## The service -/

inductive ChatOp where
  | acknowledgeReveal (matchId : MatchId) (userId : UserId)
  | sendMessage (matchId : MatchId) (userId : UserId) (text : String)
  | listMessages (matchId : MatchId) (userId : UserId) (limit : Option Int)
  deriving DecidableEq, Repr

abbrev ChatOp.Ret : ChatOp → Type
  | .acknowledgeReveal _ _ => Matches.MatchRevealPayload
  | .sendMessage _ _ _ => Message
  | .listMessages _ _ _ => List Message

def ChatOp.code : (o : ChatOp) → Prog o.Ret
  | .acknowledgeReveal matchId userId => Matches.acknowledgeReveal matchId userId
  | .sendMessage matchId userId text => Chat.sendMessage matchId userId text
  | .listMessages matchId userId limit => Chat.listMessages matchId userId limit

@[reducible] def chatService : Service where
  Op := ChatOp
  Ret := ChatOp.Ret
  code := ChatOp.code

/-! ## What is known of a match -/

/-- The row is there, as it was seen or at a later moment. -/
def Seen (m : Match) (w : World) : Prop := ∃ m' ∈ w.db.matchRows, m.Later m'

/-- The user is a participant of the match and has acknowledged. -/
def Open (matchId : MatchId) (userId : UserId) (w : World) : Prop :=
  ∃ m ∈ w.db.matchRows, m.id = matchId ∧ m.acknowledgedBy userId

theorem seen_lasting (m : Match) : @Lasting chatService.system (Seen m) where
  exec c w := by
    rintro ⟨m', hm', hlater⟩
    obtain ⟨m'', hm'', hlater'⟩ := (Cmd.matchRows_exec c w).stays hm'
    exact ⟨m'', hm'', hlater.trans hlater'⟩
  env e w h := by
    cases e
    exact h

theorem Seen.open {m : Match} {w : World} (h : Seen m w) {userId : UserId}
    (hack : m.acknowledgedBy userId) : Open m.id userId w := by
  obtain ⟨m', hm', hlater⟩ := h
  exact ⟨m', hm', hlater.id, hlater.acknowledgedBy hack⟩

theorem open_lasting (matchId : MatchId) (userId : UserId) :
    @Lasting chatService.system (Open matchId userId) where
  exec c w := by
    rintro ⟨m, hm, rfl, hack⟩
    obtain ⟨m', hm', hlater⟩ := (Cmd.matchRows_exec c w).stays hm
    exact ⟨m', hm', hlater.id, hlater.acknowledgedBy hack⟩
  env e w h := by
    cases e
    exact h

/-- Messages are sent to users for whom the match is open. -/
def practice : Practice chatService.system where
  inv _ := True
  proper w c := ∀ os room payload, c = .host (.emit os) → .messageNew room payload ∈ os →
    Open payload.matchId room w
  keeps _ _ _ _ := trivial
  env _ _ _ := trivial

/-- No message is sent. -/
def silent : Cmd → Bool
  | .host (.emit os) => os.all fun
      | .messageNew _ _ => false
      | _ => true
  | _ => true

abbrev Silent {α : Type} (p : Prog α) : Prop := p.Conforms (fun c => silent c = true) True

theorem silent_await {c : Cmd} (h : silent c = true) : Silent (Proc.await c) := Proc.conforms_await h

theorem proper_of_silent (w : World) (c : Cmd) (h : silent c = true) : practice.proper w c := by
  rintro os room payload rfl hmem
  have hout := List.all_eq_true.mp h _ hmem
  cases hout

theorem lasting_true : @Lasting chatService.system fun _ => True := .const True

/-- The row the rest of a call goes by. -/
def Admitted (matchId : MatchId) (userId : UserId) (m : Match) (w : World) : Prop :=
  Seen m w ∧ m.id = matchId ∧ (m.userAId = userId ∨ m.userBId = userId) ∧
    hasRevealAcknowledged m userId = true

theorem admitted_lasting (matchId : MatchId) (userId : UserId) (m : Match) :
    @Lasting chatService.system (Admitted matchId userId m) :=
  (seen_lasting m).and (.const _)

/-- A participant's own acknowledgement. -/
theorem acknowledgedBy_of_has {m : Match} {userId : UserId}
    (hmine : m.userAId = userId ∨ m.userBId = userId)
    (h : hasRevealAcknowledged m userId = true) : m.acknowledgedBy userId := by
  unfold hasRevealAcknowledged at h
  split at h
  · next hA => exact .inl ⟨hA, h⟩
  · next hA => exact .inr ⟨hmine.resolve_left hA, h⟩

theorem learns_getMatchForUser (matchId : MatchId) (userId : UserId) :
    practice.Learns (fun _ => True) (getMatchForUser matchId userId) fun o w => ∀ m ∈ o,
      Seen m w ∧ m.id = matchId ∧ (m.userAId = userId ∨ m.userBId = userId) := by
  refine Practice.Learns.bind (R := fun o w => ∀ m ∈ o, Seen m w ∧ m.id = matchId)
    (Practice.learns_await lasting_true (fun w _ _ => proper_of_silent w _ rfl) ?_) lasting_true
    fun o => ?_
  · intro w found _ _ hfound m hm
    have hfind : w.db.matchRows.find? (·.id = matchId) = some m := by
      rw [← Option.mem_def.mp hm]
      exact Except.ok.inj hfound
    exact ⟨⟨m, List.mem_of_find?_eq_some hfind, .refl m⟩, by simpa using List.find?_some hfind⟩
  · cases o with
    | none => exact Practice.learns_pure fun w _ m hm => by cases hm
    | some m =>
        dsimp only
        split
        · exact Practice.learns_fail _
        · next hmine =>
            refine Practice.learns_pure fun w h m' hm' => ?_
            obtain rfl := Option.some.inj hm'
            obtain ⟨hseen, hid⟩ := h.2 m rfl
            exact ⟨hseen, hid, by tauto⟩

theorem learns_openMatch (matchId : MatchId) (userId : UserId) :
    practice.Learns (fun _ => True) (openMatch matchId userId) (Admitted matchId userId) := by
  refine Practice.Learns.bind (learns_getMatchForUser matchId userId) lasting_true fun o => ?_
  cases o with
  | none => exact Practice.learns_fail _
  | some m =>
      have hlast : @Lasting chatService.system fun w =>
          Seen m w ∧ m.id = matchId ∧ (m.userAId = userId ∨ m.userBId = userId) :=
        (seen_lasting m).and (.const _)
      refine Practice.Learns.mono (F := fun w =>
        Seen m w ∧ m.id = matchId ∧ (m.userAId = userId ∨ m.userBId = userId)) ?_
        (fun w h => h.2 m rfl) fun _ _ h => h
      refine Practice.learns_conforms_bind proper_of_silent
        (show Silent (assertNotBlocked m.userAId m.userBId) from ?_) hlast fun _ => ?_
      · refine (silent_await rfl).bind fun block => ?_
        split
        · exact Proc.conforms_fail _ trivial
        · exact Proc.conforms_pure _
      · unfold assertRevealAcknowledged
        split
        · next hack => exact Practice.learns_pure fun w h => ⟨h.1, h.2.1, h.2.2, hack⟩
        · exact Practice.learns_fail _

theorem silent_notifyRecipient (m : Match) (userId : UserId) (message : Message) :
    Silent (notifyRecipient m userId message) := by
  unfold notifyRecipient
  dsimp only
  split
  · exact (silent_await rfl).bind fun sender => silent_await rfl
  · exact silent_await rfl

/-- Messages are sent in the state the match is in by then. -/
theorem learns_sendMessage (matchId : MatchId) (userId : UserId) (text : String) :
    practice.Learns (fun _ => True) (sendMessage matchId userId text) fun _ _ => True := by
  unfold sendMessage
  dsimp only
  split
  · exact Practice.learns_fail _
  refine Practice.Learns.bind (learns_openMatch matchId userId) lasting_true fun m => ?_
  refine Practice.Learns.mono (F := Admitted matchId userId m) ?_ (fun w h => h.2) fun _ _ h => h
  have hlast : @Lasting chatService.system (Admitted matchId userId m) :=
    admitted_lasting matchId userId m
  have hthen {α β : Type} {p : Prog α} {f : α → Prog β}
      (hp : Silent p)
      (hf : ∀ a, practice.Learns (Admitted matchId userId m) (f a) fun _ _ => True) :
      practice.Learns (Admitted matchId userId m) (p.bind f) fun _ _ => True :=
    Practice.learns_conforms_bind proper_of_silent hp hlast hf
  split
  · exact Practice.learns_fail _
  refine hthen (silent_await rfl) fun count => hthen (silent_await rfl) fun now => ?_
  refine Practice.Learns.bind (R := fun message _ => message.matchId = matchId) ?_ hlast
    fun message => ?_
  · refine Practice.learns_await hlast (fun w _ _ => proper_of_silent w _ rfl) ?_
    intro w message _ _ hcreated
    simp only [Cmd.exec_db, DbCmd.exec] at hcreated
    split at hcreated
    · exact (Except.ok.inj hcreated) ▸ rfl
    · cases hcreated
  · have hsame : @Lasting chatService.system fun w =>
        Admitted matchId userId m w ∧ message.matchId = matchId := hlast.and (.const _)
    refine Practice.Learns.bind (R := fun _ _ => True) ?_ hsame fun _ => ?_
    · refine Practice.learns_await hsame ?_ fun _ _ _ _ _ => trivial
      rintro w - ⟨⟨hseen, hid, -⟩, hmatch⟩ os room payload hemit hmem
      obtain rfl := HostCmd.emit.inj (Cmd.host.inj hemit)
      have hroom : payload.matchId = message.matchId ∧ m.acknowledgedBy room := by
        unfold messageEvents at hmem
        rcases List.mem_append.mp hmem with hmem | hmem <;> split at hmem
        · next hack =>
            cases List.mem_singleton.mp hmem
            exact ⟨rfl, .inl ⟨rfl, hack⟩⟩
        · cases hmem
        · next hack =>
            cases List.mem_singleton.mp hmem
            exact ⟨rfl, .inr ⟨rfl, hack⟩⟩
        · cases hmem
      rw [hroom.1, hmatch, ← hid]
      exact hseen.open hroom.2
    · refine Practice.Learns.mono (F := Admitted matchId userId m) ?_ (fun w h => h.1.1)
        fun _ _ h => h
      refine hthen (silent_notifyRecipient m userId message) fun _ => ?_
      exact hthen (silent_await rfl) fun _ => Practice.learns_pure fun _ _ => trivial

theorem learns_listMessages (matchId : MatchId) (userId : UserId) (limit : Option Int) :
    practice.Learns (fun _ => True) (listMessages matchId userId limit) fun _ =>
      Open matchId userId := by
  refine Practice.Learns.bind (learns_openMatch matchId userId) lasting_true fun m => ?_
  refine Practice.Learns.mono (F := Admitted matchId userId m) ?_ (fun w h => h.2) fun _ _ h => h
  have hthen {α β : Type} {p : Prog α} {f : α → Prog β} {R : β → World → Prop}
      (hp : Silent p)
      (hf : ∀ a, practice.Learns (Admitted matchId userId m) (f a) R) :
      practice.Learns (Admitted matchId userId m) (p.bind f) R :=
    Practice.learns_conforms_bind proper_of_silent hp (admitted_lasting matchId userId m) hf
  refine hthen (silent_await rfl) fun messages => hthen (silent_await rfl) fun now => ?_
  refine hthen (silent_await rfl) fun _ => Practice.learns_pure fun w h => ?_
  obtain ⟨hseen, rfl, hmine, hack⟩ := h
  exact hseen.open (acknowledgedBy_of_has hmine hack)

theorem silent_acknowledgeReveal (matchId : MatchId) (userId : UserId) :
    Silent (Matches.acknowledgeReveal matchId userId) := by
  refine (Matches.acknowledgeReveal_issues matchId userId).mono fun c hc => ?_
  cases hc <;> rfl

/-- What a call of the service has learnt when it returns. -/
def Learnt : (o : ChatOp) → o.Ret → World → Prop
  | .listMessages matchId userId _, _ => Open matchId userId
  | _, _ => fun _ => True

theorem learnt_lasting (o : ChatOp) (a : o.Ret) : @Lasting chatService.system (Learnt o a) := by
  cases o with
  | listMessages matchId userId limit => exact open_lasting matchId userId
  | acknowledgeReveal matchId userId => exact lasting_true
  | sendMessage matchId userId text => exact lasting_true

theorem learns_code (o : ChatOp) : practice.Learns (fun _ => True) o.code (Learnt o) := by
  cases o with
  | acknowledgeReveal matchId userId =>
      exact Practice.learns_conforms proper_of_silent (silent_acknowledgeReveal matchId userId)
  | sendMessage matchId userId text =>
      change practice.Learns _ (Chat.sendMessage matchId userId text) _
      exact learns_sendMessage matchId userId text
  | listMessages matchId userId limit => exact learns_listMessages matchId userId limit

/-! ## Pushes -/

/-- The same command, up to the text of a message: a push is the same. -/
inductive SamePushes : Cmd → Cmd → Prop
  | same (c : Cmd) : SamePushes c c
  | create (matchId : MatchId) (userId : UserId) (text text' : String) :
      SamePushes (.db (.messageCreate matchId userId text)) (.db (.messageCreate matchId userId text'))
  | emit {os os' : List Output} (h : os.filter Output.isPush = os'.filter Output.isPush) :
      SamePushes (.host (.emit os)) (.host (.emit os'))

/-- The messages differ in the text at most. -/
def SameButText (message message' : Message) : Prop :=
  message' = { message with text := message'.text }

/-- The same answers, up to the text of a message that is created. -/
def SameAnswers : (c c' : Cmd) → Except Err c.Res → Except Err c'.Res → Prop
  | .db (.messageCreate _ _ _), .db (.messageCreate _ _ _), r, r' => Both SameButText r r'
  | .host (.emit _), .host (.emit _), r, r' => r = r'
  | _, _, r, r' => r ≍ r'

/-- Not the creation of a message. -/
def textless : Cmd → Bool
  | .db (.messageCreate _ _ _) => false
  | _ => true

theorem sameAnswers_eq {c : Cmd} {r r' : Except Err c.Res} (hc : textless c = true)
    (h : SameAnswers c c r r') : r = r' := by
  cases c with
  | redis c => exact eq_of_heq h
  | host c =>
      cases c with
      | emit os => exact h
      | _ => exact eq_of_heq h
  | db c =>
      cases c with
      | messageCreate matchId userId text => cases hc
      | _ => exact eq_of_heq h

theorem alike_textless {α : Type} {p : Prog α} (h : p.Conforms (fun c => textless c = true) True) :
    p.Alike SamePushes SameAnswers Eq p :=
  Proc.Conforms.alike h (fun c _ => .same c) fun _ _ _ hc => sameAnswers_eq hc

theorem alike_textless_bind {α β : Type} {p : Prog α} {f f' : α → Prog β} {R : β → β → Prop}
    (h : p.Conforms (fun c => textless c = true) True)
    (hf : ∀ a, (f a).Alike SamePushes SameAnswers R (f' a)) :
    (p.bind f).Alike SamePushes SameAnswers R (p.bind f') :=
  (alike_textless h).bind fun a _ ha => ha ▸ hf a

theorem alike_emit {os os' : List Output} (h : os.filter Output.isPush = os'.filter Output.isPush) :
    (host (.emit os)).Alike SamePushes SameAnswers (fun _ _ => True) (host (.emit os')) :=
  Proc.alike_await (.emit h) fun r r' hr => by
    obtain rfl : r = r' := hr
    exact .refl (fun _ => trivial) r

/-- Messages are no pushes. -/
theorem messageEvents_filter (m : Match) (message : Message) :
    (messageEvents m message).filter Output.isPush = [] := by
  unfold messageEvents
  (repeat' split) <;> rfl

theorem textless_openMatch (matchId : MatchId) (userId : UserId) :
    (openMatch matchId userId).Conforms (fun c => textless c = true) True := by
  refine (openMatch_issues matchId userId).mono fun c hc => ?_
  cases hc <;> rfl

/-- The push to the recipient is made of the ids of the message. -/
theorem alike_notifyRecipient (m : Match) (userId : UserId) {message message' : Message}
    (h : SameButText message message') :
    (notifyRecipient m userId message).Alike SamePushes SameAnswers (fun _ _ => True)
      (notifyRecipient m userId message') := by
  rw [h]
  unfold notifyRecipient
  dsimp only
  split
  · exact alike_textless_bind (Proc.conforms_await rfl) fun sender => alike_emit rfl
  · exact alike_emit rfl

theorem alike_sendMessage (matchId : MatchId) (userId : UserId) {text text' : String}
    (h : jsTrim text = "" ↔ jsTrim text' = "") :
    (sendMessage matchId userId text).Alike SamePushes SameAnswers SameButText
      (sendMessage matchId userId text') := by
  rcases em (jsTrim text = "") with hblank | hblank
  · unfold sendMessage
    rw [if_pos hblank, if_pos (h.mp hblank)]
    exact Proc.alike_fail _
  unfold sendMessage
  rw [if_neg hblank, if_neg fun h' => hblank (h.mpr h')]
  refine alike_textless_bind (textless_openMatch matchId userId) fun m => ?_
  split
  · exact Proc.alike_fail _
  refine alike_textless_bind (Proc.conforms_await rfl) fun count => ?_
  refine alike_textless_bind (Proc.conforms_await rfl) fun now => ?_
  refine Proc.Alike.bind (Proc.alike_await (.create _ _ _ _) fun r r' hr => hr)
    fun message message' hmessage => ?_
  refine Proc.Alike.bind (R := fun _ _ => True) (alike_emit ?_) fun _ _ _ => ?_
  · rw [messageEvents_filter, messageEvents_filter]
  refine (alike_notifyRecipient m userId hmessage).bind fun _ _ _ => ?_
  refine Proc.Alike.bind (R := fun _ _ => True) (alike_emit rfl) fun _ _ _ => ?_
  exact Proc.alike_pure hmessage

/-! ## The gate -/

/-- Messages are sent to, and read by, participants who have acknowledged
the reveal, in every interleaving; and what a message says is in no push. -/
theorem chat_gated (w : World) (es : List (Event chatService.system)) :
    let c := (Config.initial w : Config chatService.system).run es
    (∀ e ∈ c.trace, ∀ os room payload, e.cmd = .host (.emit os) →
        .messageNew room payload ∈ os → Open payload.matchId room e.before) ∧
      (∀ i matchId userId limit messages,
        c.Settled i (.listMessages matchId userId limit) (.ok messages) →
          Open matchId userId c.world) ∧
      ∀ matchId userId text text', (jsTrim text = "" ↔ jsTrim text' = "") →
        (sendMessage matchId userId text).Alike SamePushes SameAnswers SameButText
          (sendMessage matchId userId text') := by
  intro c
  have hes : (Config.initial w : Config chatService.system).Obeys (fun _ _ => True) es :=
    Config.obeys_of_forall (fun _ _ => trivial) _ es
  obtain ⟨-, hpast, hlearnt⟩ := practice.run (fun _ o _ => learns_code o) learnt_lasting
    trivial hes
  exact ⟨fun e he => (hpast e he).1, fun i matchId userId limit messages h => hlearnt i _ messages h,
    fun matchId userId _ _ => alike_sendMessage matchId userId⟩

end VerityBackend.Chat
