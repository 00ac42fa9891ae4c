/-
VerityBackend.Backend.Deletion — what deleting an account removes
(`deleteAccount` of `auth/auth.service.ts`).

The transaction as a whole, over the tables of the `World`. That it cannot
fail for a user who exists, and that nothing is left which refers to the
user, is shown with the schema's own constraints in `Auth.AccountDeletion`.
-/
import VerityBackend.Backend.Commands

namespace VerityBackend

/-- `AuthService.deleteAccount`: the nine statements, with the rows that go by
cascade (the messages of the matches, the blocks). -/
def Db.deleteAccount (userId : UserId) (d : Db) : Db where
  refreshTokens := d.refreshTokens.filter (·.userId ≠ userId)
  tokenTransactions := d.tokenTransactions.filter (·.userId ≠ userId)
  moderationEvents := d.moderationEvents.filter (·.userId ≠ userId)
  reports := d.reports.filter fun r => r.reporterId ≠ userId ∧ r.reportedUserId ≠ userId
  messages := d.messages.filter fun m => m.senderId ≠ userId ∧
    ∀ row ∈ d.matchRows, row.id = m.matchId → row.userAId ≠ userId ∧ row.userBId ≠ userId
  sessions := d.sessions.filter fun s => s.userAId ≠ userId ∧ s.userBId ≠ userId
  matchRows := d.matchRows.filter fun row => row.userAId ≠ userId ∧ row.userBId ≠ userId
  blocks := d.blocks.filter fun b => b.blockerId ≠ userId ∧ b.blockedId ≠ userId
  users u := if u = userId then none else d.users u

/-- A user who does not exist cannot be deleted: the transaction is rolled
back. -/
def World.deleteAccount (userId : UserId) (w : World) : World :=
  if w.db.hasUser userId then w.mapDb (Db.deleteAccount userId) else w

end VerityBackend
