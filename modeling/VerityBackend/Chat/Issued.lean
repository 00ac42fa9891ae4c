/-
VerityBackend.Chat.Issued — which commands the matches and the chat issue,
listed as `Queue.Issued` does for the queue.
-/
import VerityBackend.Chat.Service
import VerityBackend.Matches.Service

namespace VerityBackend.Matches

open Async

/-- `listMatches`, `getReveal` and `acknowledgeReveal`. -/
inductive ReadCommand (userId : UserId) : Cmd → Prop
  | blocks : ReadCommand userId (.db (.blockFindMany userId))
  | rows : ReadCommand userId (.db (.matchFindMany userId))
  | profiles (ids : List UserId) : ReadCommand userId (.db (.userFindMany ids))
  | withUsers (matchId : MatchId) : ReadCommand userId (.db (.matchFindWithUsers matchId))
  | find (matchId : MatchId) : ReadCommand userId (.db (.matchFindUnique matchId))
  | acknowledge (matchId : MatchId) (side : Side) (now : Nat) :
      ReadCommand userId (.db (.matchAcknowledge matchId side now))
  | now : ReadCommand userId (.host .now)

theorem getReveal_issues (matchId : MatchId) (userId : UserId) :
    (getReveal matchId userId).Conforms (ReadCommand userId) True := by
  refine (Proc.conforms_await (.withUsers matchId)).bind fun found => ?_
  cases found with
  | none => exact Proc.conforms_fail _ trivial
  | some row =>
      dsimp only
      cases resolveParticipantSide row.1 userId with
      | error e => exact Proc.conforms_fail e trivial
      | ok side => exact Proc.conforms_pure _

theorem listMatches_issues (blocksFirst : Bool) (userId : UserId) :
    (listMatches blocksFirst userId).Conforms (ReadCommand userId) True := by
  have hread : (readMatches blocksFirst userId).Conforms (ReadCommand userId) True := by
    cases blocksFirst with
    | true => exact (Proc.conforms_await .blocks).bind fun _ =>
        (Proc.conforms_await .rows).bind fun _ => Proc.conforms_pure _
    | false => exact (Proc.conforms_await .rows).bind fun _ =>
        (Proc.conforms_await .blocks).bind fun _ => Proc.conforms_pure _
  have hprofiles (ids : List UserId) :
      (readProfiles ids).Conforms (ReadCommand userId) True := by
    unfold readProfiles
    split
    · exact Proc.conforms_pure _
    · exact Proc.conforms_await (.profiles ids)
  exact hread.bind fun _ => (hprofiles _).bind fun _ => Proc.conforms_pure _

theorem acknowledgeReveal_issues (matchId : MatchId) (userId : UserId) :
    (acknowledgeReveal matchId userId).Conforms (ReadCommand userId) True := by
  refine (Proc.conforms_await (.find matchId)).bind fun found => ?_
  cases found with
  | none => exact Proc.conforms_fail _ trivial
  | some m =>
      dsimp only
      split
      · exact Proc.conforms_fail _ trivial
      refine (Proc.conforms_await .now).bind fun now => Proc.Conforms.bind ?_ fun _ =>
        getReveal_issues matchId userId
      unfold acknowledgeSide
      split
      · exact Proc.conforms_await (.acknowledge _ _ _)
      · exact Proc.conforms_pure ()

end VerityBackend.Matches

namespace VerityBackend.Chat

open Async

/-- `openMatch`. -/
inductive OpenCommand (matchId : MatchId) : Cmd → Prop
  | find : OpenCommand matchId (.db (.matchFindUnique matchId))
  | block (userAId userBId : UserId) : OpenCommand matchId (.db (.blockFindFirst userAId userBId))

/-- `listMessages`. -/
inductive MessagesCommand (matchId : MatchId) (userId : UserId) : Cmd → Prop
  | openMatch {c : Cmd} (h : OpenCommand matchId c) : MessagesCommand matchId userId c
  | read (limit : Nat) : MessagesCommand matchId userId (.db (.messageFindMany matchId limit))
  | now : MessagesCommand matchId userId (.host .now)
  | tell (messageCount seconds : Nat) : MessagesCommand matchId userId (.host (.emit
      [.track userId "match_chat_opened"
        [("matchId", .str matchId), ("messageCount", .num messageCount),
          ("timeFromMutualMatchSec", .num seconds)]]))

/-- `sendMessage`. -/
inductive SendCommand (matchId : MatchId) (userId : UserId) : Cmd → Prop
  | openMatch {c : Cmd} (h : OpenCommand matchId c) : SendCommand matchId userId c
  | count : SendCommand matchId userId (.db (.messageCount matchId))
  | now : SendCommand matchId userId (.host .now)
  | create (content : String) : SendCommand matchId userId (.db (.messageCreate matchId userId content))
  | deliver (m : Match) (message : Message) :
      SendCommand matchId userId (.host (.emit (messageEvents m message)))
  | sender : SendCommand matchId userId (.db (.userFindUnique userId))
  | push (recipientId : UserId) (message : Message) (sender : Option User) :
      SendCommand matchId userId (.host (.emit [newMessagePush recipientId message sender]))
  | ask (recipientId : UserId) (message : Message) :
      SendCommand matchId userId (.host (.emit [revealRequiredPush recipientId message]))
  | tell (messageId : String) (existingCount seconds : Nat) : SendCommand matchId userId
      (.host (.emit (sentEvents matchId userId messageId existingCount seconds)))

theorem openMatch_issues (matchId : MatchId) (userId : UserId) :
    (openMatch matchId userId).Conforms (OpenCommand matchId) True := by
  have hget : (getMatchForUser matchId userId).Conforms (OpenCommand matchId) True := by
    refine (Proc.conforms_await .find).bind fun found => ?_
    split
    · exact Proc.conforms_pure _
    split
    · exact Proc.conforms_fail _ trivial
    · exact Proc.conforms_pure _
  have hblocked (userAId userBId : UserId) :
      (assertNotBlocked userAId userBId).Conforms (OpenCommand matchId) True := by
    refine (Proc.conforms_await (.block _ _)).bind fun block => ?_
    split
    · exact Proc.conforms_fail _ trivial
    · exact Proc.conforms_pure ()
  have hrevealed (m : Match) :
      (assertRevealAcknowledged m userId).Conforms (OpenCommand matchId) True := by
    unfold assertRevealAcknowledged
    split
    · exact Proc.conforms_pure ()
    · exact Proc.conforms_fail _ trivial
  refine hget.bind fun found => ?_
  cases found with
  | none => exact Proc.conforms_fail _ trivial
  | some m => exact (hblocked _ _).bind fun _ => (hrevealed m).bind fun _ => Proc.conforms_pure m

theorem listMessages_issues (matchId : MatchId) (userId : UserId) (limit : Option Int) :
    (listMessages matchId userId limit).Conforms (MessagesCommand matchId userId) True :=
  ((openMatch_issues matchId userId).mono fun _ h => .openMatch h).bind fun _ =>
    (Proc.conforms_await (.read _)).bind fun _ => (Proc.conforms_await .now).bind fun _ =>
      (Proc.conforms_await (.tell _ _)).bind fun _ => Proc.conforms_pure _

theorem sendMessage_issues (matchId : MatchId) (userId : UserId) (text : String) :
    (sendMessage matchId userId text).Conforms (SendCommand matchId userId) True := by
  have hnotify (m : Match) (message : Message) :
      (notifyRecipient m userId message).Conforms (SendCommand matchId userId) True := by
    unfold notifyRecipient
    dsimp only
    split
    · exact (Proc.conforms_await .sender).bind fun sender =>
        Proc.conforms_await (.push _ message sender)
    · exact Proc.conforms_await (.ask _ message)
  unfold sendMessage
  dsimp only
  split
  · exact Proc.conforms_fail _ trivial
  refine ((openMatch_issues matchId userId).mono fun _ h => .openMatch h).bind fun m => ?_
  split
  · exact Proc.conforms_fail _ trivial
  exact (Proc.conforms_await .count).bind fun _ => (Proc.conforms_await .now).bind fun _ =>
    (Proc.conforms_await (.create _)).bind fun message =>
      (Proc.conforms_await (.deliver m message)).bind fun _ => (hnotify m message).bind fun _ =>
        (Proc.conforms_await (.tell message.id _ _)).bind fun _ => Proc.conforms_pure message

end VerityBackend.Chat
