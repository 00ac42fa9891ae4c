/-
VerityBackend.Backend.MatchRows — the table of matches.

Two calls change it. `upsert` adds the row of a pair that has none, and an
acknowledgement sets a timestamp; so a row stays in the table, with its
participants, and what has been acknowledged stays acknowledged
(`Match.Later`).
-/
import VerityBackend.Backend.Frames

namespace VerityBackend

open Store Async

/-- When the participant in this seat acknowledged the reveal. -/
def Match.acknowledgedBy (m : Match) (userId : UserId) : Prop :=
  (m.userAId = userId ∧ m.userARevealAcknowledgedAt.isSome) ∨
    (m.userBId = userId ∧ m.userBRevealAcknowledgedAt.isSome)

instance (m : Match) (userId : UserId) : Decidable (m.acknowledgedBy userId) :=
  inferInstanceAs (Decidable (_ ∨ _))

/-- The row `m`, at some later moment. -/
structure Match.Later (m m' : Match) : Prop where
  id : m'.id = m.id
  userAId : m'.userAId = m.userAId
  userBId : m'.userBId = m.userBId
  ackA : m.userARevealAcknowledgedAt.isSome → m'.userARevealAcknowledgedAt.isSome
  ackB : m.userBRevealAcknowledgedAt.isSome → m'.userBRevealAcknowledgedAt.isSome

namespace Match.Later

theorem refl (m : Match) : m.Later m := ⟨rfl, rfl, rfl, fun h => h, fun h => h⟩

theorem trans {m₁ m₂ m₃ : Match} (h : m₁.Later m₂) (h' : m₂.Later m₃) : m₁.Later m₃ where
  id := h'.id.trans h.id
  userAId := h'.userAId.trans h.userAId
  userBId := h'.userBId.trans h.userBId
  ackA := fun hA => h'.ackA (h.ackA hA)
  ackB := fun hB => h'.ackB (h.ackB hB)

variable {m m' : Match}

theorem acknowledgedBy (h : m.Later m') {userId : UserId} (hack : m.acknowledgedBy userId) :
    m'.acknowledgedBy userId := by
  rcases hack with ⟨hA, ht⟩ | ⟨hB, ht⟩
  · exact .inl ⟨h.userAId.trans hA, h.ackA ht⟩
  · exact .inr ⟨h.userBId.trans hB, h.ackB ht⟩

end Match.Later

/-- What becomes of the table: the rows it had, at a later moment, or these
and one of a pair that had none. -/
inductive RowsAfter (c : Cmd) (w : World) (rows : List Match) : Prop
  | later {f : Match → Match} (hf : ∀ m : Match, m.Later (f m)) (h : rows = w.db.matchRows.map f) :
      RowsAfter c w rows
  | created {a b : UserId} (hc : c = .db (.matchUpsert a b)) (hnone : w.db.findMatch a b = none)
      (h : rows = w.db.matchRows ++ [⟨freshId w.nextId, a, b, w.clock, none, none⟩]) :
      RowsAfter c w rows

theorem RowsAfter.same {c : Cmd} {w : World} {rows : List Match} (h : rows = w.db.matchRows) :
    RowsAfter c w rows :=
  .later Match.Later.refl (by rw [h]; exact (List.map_id' _).symm)

/-- **What a command does** to the table of matches. -/
theorem Cmd.matchRows_exec (c : Cmd) (w : World) : RowsAfter c w (c.exec w).2.db.matchRows := by
  cases c with
  | redis c => exact .same (congrArg Db.matchRows (c.exec_db w))
  | host c => exact .same (congrArg Db.matchRows (c.exec_redis w).2.2)
  | db c =>
      rw [Cmd.exec_db]
      cases c with
      | matchUpsert a b =>
          simp only [DbCmd.exec, World.create]
          cases hfind : w.db.findMatch a b with
          | some m => exact .same rfl
          | none =>
              dsimp only
              split
              · exact .created rfl hfind rfl
              · exact .same rfl
      | matchAcknowledge id side now =>
          simp only [DbCmd.exec]
          split
          · refine .later (fun m => ?_) rfl
            cases side <;> dsimp only <;> split <;> exact ⟨rfl, rfl, rfl, by simp, by simp⟩
          · exact .same rfl
      | refreshTokenRotate cfg stored sub fid now userAgent ipAddress =>
          simp only [DbCmd.exec]
          split
          · next tokens d hrot => exact .same (by rw [rotateRefreshToken_only hrot])
          · exact .same rfl
      | refreshTokenCreate row =>
          simp only [DbCmd.exec]
          split
          · next d hinsert => exact .same (by rw [insertRefreshToken_only hinsert])
          · exact .same rfl
      | _ =>
          refine .same ?_
          simp only [DbCmd.exec, World.create, World.mapDb, Db.setUser, Db.setReportStatus,
            Db.reopenBlock, Db.liftBlock] <;>
          (repeat' split) <;> rfl

/-- A row that is found has these columns. -/
theorem findMatch_columns {d : Db} {a b : UserId} {m : Match} (h : d.findMatch a b = some m) :
    m ∈ d.matchRows ∧ m.userAId = a ∧ m.userBId = b := by
  unfold Db.findMatch at h
  exact ⟨List.mem_of_find?_eq_some h, by simpa using List.find?_some h⟩

namespace RowsAfter

variable {c : Cmd} {w : World} {rows : List Match}

/-- A row stays. -/
theorem stays (h : RowsAfter c w rows) {m : Match} (hm : m ∈ w.db.matchRows) :
    ∃ m' ∈ rows, m.Later m' := by
  cases h with
  | later hf h =>
      subst h
      exact ⟨_, List.mem_map_of_mem hm, hf m⟩
  | created hc hnone h =>
      subst h
      exact ⟨m, List.mem_append_left _ hm, .refl m⟩

end RowsAfter

end VerityBackend
