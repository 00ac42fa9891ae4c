/-
VerityBackend.Backend.BlockRows — the table of blocks.

No row is deleted, and each keeps its two users. A block stands until
`blockLift` of its own id (`stands_exec`).
-/
import VerityBackend.Backend.Frames

namespace VerityBackend

open Async

/-- The command lifts the block with this id. -/
def Cmd.lifts (id : String) : Cmd → Bool
  | .db (.blockLift id' _) => id' == id
  | _ => false

/-- The row `b` after the command `c`. -/
structure Block.After (c : Cmd) (b b' : Block) : Prop where
  id : b'.id = b.id
  blockerId : b'.blockerId = b.blockerId
  blockedId : b'.blockedId = b.blockedId
  unlifted : c.lifts b.id = false → b.liftedAt = none → b'.liftedAt = none

theorem Block.After.refl (c : Cmd) (b : Block) : b.After c b := ⟨rfl, rfl, rfl, fun _ h => h⟩

/-- A reopened row. -/
theorem Block.after_reopen (c : Cmd) (b : Block) (id : String) :
    b.After c (if b.id = id then { b with liftedAt := none } else b) := by
  split
  · exact ⟨rfl, rfl, rfl, fun _ _ => rfl⟩
  · exact .refl c b

/-- **What a command does** to a row of the table. -/
theorem Cmd.block_exec (c : Cmd) {w : World} {b : Block} (hb : b ∈ w.db.blocks) :
    ∃ b' ∈ (c.exec w).2.db.blocks, b.After c b' := by
  by_cases hmoves : c.movesBlocks
  · cases c with
    | redis c => exact hmoves.elim
    | host c => exact hmoves.elim
    | db c =>
        rw [Cmd.exec_db]
        cases c with
        | blockCreate blockerId blockedId =>
            simp only [DbCmd.exec, World.create]
            split
            · exact ⟨b, hb, .refl _ b⟩
            · split
              · exact ⟨b, List.mem_append_left _ hb, .refl _ b⟩
              · exact ⟨b, hb, .refl _ b⟩
        | blockReopen id =>
            simp only [DbCmd.exec]
            split
            · exact ⟨_, List.mem_map_of_mem hb, Block.after_reopen _ b id⟩
            · exact ⟨b, hb, .refl _ b⟩
        | blockLift id now =>
            simp only [DbCmd.exec, World.mapDb, Db.liftBlock]
            split
            · refine ⟨_, List.mem_map_of_mem hb, ?_⟩
              split
              · next heq => exact ⟨rfl, rfl, rfl, fun hother _ => by simp [Cmd.lifts, heq] at hother⟩
              · exact .refl _ b
            · exact ⟨b, hb, .refl _ b⟩
        | reportTransaction reporterId reportedUserId reason details =>
            simp only [DbCmd.exec]
            split
            · cases w.db.findBlock reporterId reportedUserId with
              | none => exact ⟨b, List.mem_append_left _ hb, .refl _ b⟩
              | some existing =>
                  dsimp only
                  split
                  · exact ⟨_, List.mem_map_of_mem hb, Block.after_reopen _ b existing.id⟩
                  · exact ⟨b, hb, .refl _ b⟩
            · exact ⟨b, hb, .refl _ b⟩
        | _ => exact hmoves.elim
  · refine ⟨b, ?_, .refl c b⟩
    rw [(c.tables_exec w).blocks hmoves]
    exact hb

/-! ## A block that stands -/

/-- `a` has blocked `b`, and the block is not lifted. -/
def Stands (a b : UserId) (w : World) : Prop :=
  ∃ row ∈ w.db.blocks, row.blockerId = a ∧ row.blockedId = b ∧ row.liftedAt = none

/-- The table has this row of `a` and `b`, lifted or not. -/
def Listed (id : String) (a b : UserId) (w : World) : Prop :=
  ∃ row ∈ w.db.blocks, row.id = id ∧ row.blockerId = a ∧ row.blockedId = b

/-- The command lifts a block of `b` by `a`. -/
def Cmd.unblocks (a b : UserId) (w : World) (c : Cmd) : Bool :=
  w.db.blocks.any fun row => row.blockerId == a && row.blockedId == b && c.lifts row.id

section Stands

variable {a b : UserId} {w : World}

theorem stands_exec (h : Stands a b w) {c : Cmd} (hc : c.unblocks a b w = false) :
    Stands a b (c.exec w).2 := by
  obtain ⟨row, hrow, rfl, rfl, hlifted⟩ := h
  obtain ⟨row', hrow', hafter⟩ := c.block_exec hrow
  refine ⟨row', hrow', hafter.blockerId, hafter.blockedId, hafter.unlifted ?_ hlifted⟩
  simpa using List.any_eq_false.mp hc row hrow

theorem listed_exec {id : String} (c : Cmd) (h : Listed id a b w) : Listed id a b (c.exec w).2 := by
  obtain ⟨row, hrow, rfl, rfl, rfl⟩ := h
  obtain ⟨row', hrow', hafter⟩ := c.block_exec hrow
  exact ⟨row', hrow', hafter.id, hafter.blockerId, hafter.blockedId⟩

/-- What `findUnique` returns. -/
theorem findBlock_spec {row : Block} (h : w.db.findBlock a b = some row) :
    row ∈ w.db.blocks ∧ row.blockerId = a ∧ row.blockedId = b :=
  ⟨List.mem_of_find?_eq_some h, by simpa using List.find?_some h⟩

/-- Where a block stands, it is found. -/
theorem findBlockBetween_of_stands (h : Stands a b w) {x y : UserId}
    (hxy : (x = a ∧ y = b) ∨ (x = b ∧ y = a)) : w.db.findBlockBetween x y ≠ none := by
  obtain ⟨row, hrow, hblocker, hblocked, hlifted⟩ := h
  intro hnone
  have hbetween := List.find?_eq_none.mp hnone row hrow
  rcases hxy with ⟨rfl, rfl⟩ | ⟨rfl, rfl⟩ <;>
    simp [Block.isBetween, hlifted, hblocker, hblocked] at hbetween

theorem stands_blockCreate {created : Block}
    (h : ((DbCmd.blockCreate a b).exec w).1 = .ok created) :
    Stands a b ((DbCmd.blockCreate a b).exec w).2 := by
  simp only [DbCmd.exec, World.create] at h ⊢
  split at h
  · cases h
  · next hnew =>
      rw [if_neg hnew]
      split at h
      · next husers =>
          rw [if_pos husers]
          exact ⟨_, List.mem_append_right _ List.mem_cons_self, rfl, rfl, rfl⟩
      · cases h

/-- Reopening the block of `a` and `b`. -/
theorem stands_blockReopen {id : String} {reopened : Block} (hlisted : Listed id a b w)
    (h : ((DbCmd.blockReopen id).exec w).1 = .ok reopened) :
    Stands a b ((DbCmd.blockReopen id).exec w).2 := by
  obtain ⟨row, hrow, rfl, rfl, rfl⟩ := hlisted
  simp only [DbCmd.exec] at h ⊢
  split at h
  · refine ⟨_, List.mem_map_of_mem hrow, ?_⟩
    rw [if_pos rfl]
    exact ⟨rfl, rfl, rfl⟩
  · cases h

theorem stands_reportTransaction {reason : String} {details : Option String}
    {report : ModerationReport}
    (h : ((DbCmd.reportTransaction a b reason details).exec w).1 = .ok report) :
    Stands a b ((DbCmd.reportTransaction a b reason details).exec w).2 := by
  simp only [DbCmd.exec] at h ⊢
  split at h
  · next husers =>
      rw [if_pos husers]
      cases hfind : w.db.findBlock a b with
      | none => exact ⟨_, List.mem_append_right _ List.mem_cons_self, rfl, rfl, rfl⟩
      | some row =>
          obtain ⟨hrow, hblocker, hblocked⟩ := findBlock_spec hfind
          dsimp only
          by_cases hlifted : row.liftedAt.isSome = true
          · rw [if_pos hlifted]
            refine ⟨_, List.mem_map_of_mem hrow, ?_⟩
            rw [if_pos rfl]
            exact ⟨hblocker, hblocked, rfl⟩
          · rw [if_neg hlifted]
            exact ⟨row, hrow, hblocker, hblocked, by simpa using hlifted⟩
  · cases h

end Stands

end VerityBackend
