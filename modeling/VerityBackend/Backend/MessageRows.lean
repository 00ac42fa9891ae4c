/-
VerityBackend.Backend.MessageRows — the table of messages: a row that is
created stays.
-/
import VerityBackend.Backend.Frames

namespace VerityBackend

open Async

/-- The table is as it was, or has one row more. -/
theorem Cmd.messages_exec (c : Cmd) (w : World) :
    (c.exec w).2.db.messages = w.db.messages ∨
      ∃ row, (c.exec w).2.db.messages = w.db.messages ++ [row] := by
  cases c with
  | redis c => exact .inl (congrArg Db.messages (c.exec_db w))
  | host c => exact .inl (congrArg Db.messages (c.exec_redis w).2.2)
  | db c =>
      rw [Cmd.exec_db]
      cases c with
      | messageCreate matchId senderId text =>
          simp only [DbCmd.exec, World.create]
          split
          · exact .inr ⟨_, rfl⟩
          · exact .inl rfl
      | refreshTokenRotate cfg stored sub fid now userAgent ipAddress =>
          simp only [DbCmd.exec]
          split
          · next tokens d hrot => exact .inl (by rw [rotateRefreshToken_only hrot])
          · exact .inl rfl
      | refreshTokenCreate row =>
          simp only [DbCmd.exec]
          split
          · next d hinsert => exact .inl (by rw [insertRefreshToken_only hinsert])
          · exact .inl rfl
      | _ =>
          refine .inl ?_
          simp only [DbCmd.exec, World.create, World.mapDb, Db.setUser, Db.setReportStatus,
            Db.reopenBlock, Db.liftBlock, Db.acknowledge] <;>
          (repeat' split) <;> rfl

theorem Cmd.message_stays (c : Cmd) {w : World} {message : Message} (h : message ∈ w.db.messages) :
    message ∈ (c.exec w).2.db.messages := by
  rcases c.messages_exec w with hsame | ⟨row, hrow⟩
  · rw [hsame]
    exact h
  · rw [hrow]
    exact List.mem_append_left _ h

/-- The row a creation answers with is in the table. -/
theorem messageCreate_mem {w : World} {matchId : MatchId} {senderId : UserId} {text : String}
    {message : Message}
    (h : ((Cmd.db (.messageCreate matchId senderId text)).exec w).1 = .ok message) :
    message.matchId = matchId ∧
      message ∈ ((Cmd.db (.messageCreate matchId senderId text)).exec w).2.db.messages := by
  simp only [Cmd.exec_db, DbCmd.exec, World.create] at h ⊢
  split at h
  · next hexists =>
    obtain rfl := Except.ok.inj h
    rw [if_pos hexists]
    exact ⟨rfl, List.mem_append_right _ (List.mem_singleton.mpr rfl)⟩
  · cases h

end VerityBackend
