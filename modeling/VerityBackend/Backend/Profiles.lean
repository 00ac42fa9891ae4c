/-
VerityBackend.Backend.Profiles — two worlds that differ in one profile.

`World.dress p profile` is the world in which the four profile fields of
user `p` are those of `profile`. A command does in it what it does in the
world itself (`Cmd.exec_dress`): the profile is handed out by three reads
(`DbCmd.dressRes`), and nothing is decided by it.
-/
import VerityBackend.Backend.Commands

namespace VerityBackend

open Async Store

/-- The fields of a user that only a partner may see. -/
structure Profile where
  displayName : Option String
  photos : Option (List JsonField)
  age : Option Nat
  bio : Option String
  deriving DecidableEq, Repr

/-! ## Dressing -/

section Dress

variable (p : UserId) (profile : Profile)

/-- User `id`, with the profile if it is `p`. -/
def dressUser (id : UserId) (x : User) : User :=
  if id = p then
    { x with
      displayName := profile.displayName, photos := profile.photos, age := profile.age
      bio := profile.bio }
  else x

def Db.dress (d : Db) : Db := { d with users := fun id => (d.users id).map (dressUser p profile id) }

def World.dress (w : World) : World := { w with db := w.db.dress p profile }

/-- What a read answers in a dressed world. -/
def DbCmd.dressRes : (c : DbCmd) → c.Res → c.Res
  | .userFindUnique id, r => r.map (dressUser p profile id)
  | .userFindMany _, r => r.map fun x => (x.1, dressUser p profile x.1 x.2)
  | .matchFindWithUsers _, r =>
      r.map fun x =>
        (x.1, dressUser p profile x.1.userAId x.2.1, dressUser p profile x.1.userBId x.2.2)
  | _, r => r

def Cmd.dressRes : (c : Cmd) → c.Res → c.Res
  | .db c, r => c.dressRes p profile r
  | .redis _, r => r
  | .host _, r => r

variable {p profile}

theorem dressUser_dressUser (profile' : Profile) (id : UserId) (x : User) :
    dressUser p profile' id (dressUser p profile id x) = dressUser p profile' id x := by
  unfold dressUser
  split <;> rfl

/-- The last profile counts. -/
theorem World.dress_dress (w : World) (profile' : Profile) :
    (w.dress p profile).dress p profile' = w.dress p profile' := by
  simp only [World.dress, Db.dress, Option.map_map, Function.comp_def, dressUser_dressUser]

theorem dressUser_ne {id : UserId} (h : id ≠ p) (x : User) : dressUser p profile id x = x :=
  if_neg h

theorem map_dressUser_ne {id : UserId} (h : id ≠ p) (o : Option User) :
    o.map (dressUser p profile id) = o := by
  cases o with
  | none => rfl
  | some x => exact congrArg some (dressUser_ne h x)

@[simp] theorem dressUser_role (id : UserId) (x : User) : (dressUser p profile id x).role = x.role := by
  unfold dressUser
  split <;> rfl

@[simp] theorem dressUser_tokenBalance (id : UserId) (x : User) :
    (dressUser p profile id x).tokenBalance = x.tokenBalance := by
  unfold dressUser
  split <;> rfl

/-- The balance is not part of the profile. -/
theorem dressUser_balance (id : UserId) (x : User) (n : Nat) :
    { dressUser p profile id x with tokenBalance := n } =
      dressUser p profile id { x with tokenBalance := n } := by
  unfold dressUser
  split <;> rfl

@[simp] theorem Db.dress_users (d : Db) (id : UserId) :
    (d.dress p profile).users id = (d.users id).map (dressUser p profile id) := rfl

@[simp] theorem Db.dress_hasUser (d : Db) (id : UserId) :
    (d.dress p profile).hasUser id = d.hasUser id := by
  simp [Db.hasUser]

theorem Db.dress_setUser (d : Db) (id : UserId) (x : User) :
    (d.dress p profile).setUser id (dressUser p profile id x) = (d.setUser id x).dress p profile := by
  unfold Db.setUser Db.dress
  congr 1
  funext id'
  dsimp only
  split
  · next h => rw [h]; rfl
  · rfl

section Fields

variable (d : Db) (w : World)

@[simp] theorem World.dress_db : (w.dress p profile).db = w.db.dress p profile := rfl
@[simp] theorem World.dress_clock : (w.dress p profile).clock = w.clock := rfl
@[simp] theorem World.dress_nextId : (w.dress p profile).nextId = w.nextId := rfl
@[simp] theorem World.dress_video : (w.dress p profile).video = w.video := rfl
@[simp] theorem Db.dress_sessions : (d.dress p profile).sessions = d.sessions := rfl
@[simp] theorem Db.dress_matchRows : (d.dress p profile).matchRows = d.matchRows := rfl
@[simp] theorem Db.dress_messages : (d.dress p profile).messages = d.messages := rfl
@[simp] theorem Db.dress_blocks : (d.dress p profile).blocks = d.blocks := rfl
@[simp] theorem Db.dress_reports : (d.dress p profile).reports = d.reports := rfl
@[simp] theorem Db.dress_moderationEvents :
    (d.dress p profile).moderationEvents = d.moderationEvents := rfl
@[simp] theorem Db.dress_tokenTransactions :
    (d.dress p profile).tokenTransactions = d.tokenTransactions := rfl
@[simp] theorem Db.dress_refreshTokens : (d.dress p profile).refreshTokens = d.refreshTokens := rfl
@[simp] theorem World.dress_get (k : RedisKey) : (w.dress p profile).get k = w.get k := rfl
@[simp] theorem Db.dress_findMatch (a b : UserId) :
    (d.dress p profile).findMatch a b = d.findMatch a b := rfl
@[simp] theorem Db.dress_findBlock (a b : UserId) :
    (d.dress p profile).findBlock a b = d.findBlock a b := rfl

end Fields

/-! ## Commands -/

theorem insertRefreshToken_dress (d : Db) (row : RefreshToken) :
    insertRefreshToken (d.dress p profile) row =
      (insertRefreshToken d row).map (Db.dress p profile) := by
  simp only [insertRefreshToken, Db.dress_refreshTokens, Db.dress_hasUser]
  split
  · rfl
  · split <;> rfl

theorem rotateRefreshToken_dress (cfg : AuthConfig) (clock : Nat) (nextTokenId : String)
    (stored : RefreshToken) (sub fid : String) (now : Nat) (userAgent ipAddress : Option String)
    (d : Db) :
    rotateRefreshToken cfg clock nextTokenId stored sub fid now userAgent ipAddress
        (d.dress p profile) =
      (rotateRefreshToken cfg clock nextTokenId stored sub fid now userAgent ipAddress d).map
        fun x => (x.1, x.2.dress p profile) := by
  have hinsert (l : List RefreshToken) (row : RefreshToken) :
      insertRefreshToken { d.dress p profile with refreshTokens := l } row =
        (insertRefreshToken { d with refreshTokens := l } row).map (Db.dress p profile) :=
    insertRefreshToken_dress { d with refreshTokens := l } row
  simp only [rotateRefreshToken, Db.dress_refreshTokens, Db.dress_users, hinsert]
  by_cases hunused :
      d.refreshTokens.countP (fun t => t.id == stored.id && t.revokedAt.isNone) ≠ 1
  · rw [if_pos hunused, if_pos hunused]
    rfl
  · rw [if_neg hunused, if_neg hunused]
    generalize insertRefreshToken _ _ = inserted
    cases inserted with
    | error e => rfl
    | ok d' =>
        cases d.users sub with
        | none => rfl
        | some x =>
            simp only [Option.map_some, dressUser_role]
            rfl

theorem DbCmd.exec_dress (c : DbCmd) (w : World) :
    c.exec (w.dress p profile) =
      ((c.exec w).1.map (c.dressRes p profile), (c.exec w).2.dress p profile) := by
  cases c with
  | userFindUnique id => rfl
  | userFindMany ids =>
      simp only [DbCmd.exec, World.dress_db, Db.dress_users, Option.map_map]
      refine congrArg (fun l => (Except.ok l, w.dress p profile)) ?_
      simp only [DbCmd.dressRes, List.map_filterMap, Option.map_map]
      rfl
  | matchFindWithUsers id =>
      simp only [DbCmd.exec, World.dress_db, Db.dress_users, Db.dress_matchRows]
      cases w.db.matchRows.find? (·.id = id) with
      | none => rfl
      | some m =>
          dsimp only
          generalize w.db.users m.userAId = userA, w.db.users m.userBId = userB
          cases userA <;> cases userB <;> rfl
  | userDebit id =>
      simp only [DbCmd.exec, World.mapDb, World.dress_db, Db.dress_users]
      cases w.db.users id with
      | none => rfl
      | some x =>
          simp only [Option.map_some, dressUser_tokenBalance, dressUser_balance, Db.dress_setUser]
          split <;> rfl
  | userRefund id =>
      simp only [DbCmd.exec, World.mapDb, World.dress_db, Db.dress_users]
      cases w.db.users id with
      | none => rfl
      | some x =>
          simp only [Option.map_some, dressUser_tokenBalance, dressUser_balance, Db.dress_setUser]
          rfl
  | creditTransaction u pack n sid eid =>
      simp only [DbCmd.exec, World.create, World.dress_db, Db.dress_users,
        Db.dress_tokenTransactions]
      cases w.db.users u with
      | none => rfl
      | some x =>
          simp only [Option.map_some, dressUser_tokenBalance, dressUser_balance, Db.dress_setUser]
          (repeat' split) <;> rfl
  | refreshTokenCreate row =>
      simp only [DbCmd.exec, World.dress_db, insertRefreshToken_dress]
      cases insertRefreshToken w.db row <;> rfl
  | refreshTokenRotate cfg stored sub fid now ua ip =>
      simp only [DbCmd.exec, World.dress_db, World.dress_clock, World.dress_nextId,
        rotateRefreshToken_dress]
      cases rotateRefreshToken cfg w.clock (freshId w.nextId) stored sub fid now ua ip w.db <;> rfl
  | reportTransaction a b reason details =>
      simp only [DbCmd.exec, World.dress_db, World.dress_clock, World.dress_nextId,
        Db.dress_hasUser, Db.dress_reports, Db.dress_blocks, Db.dress_findBlock]
      split
      · cases w.db.findBlock a b with
        | none => rfl
        | some x => cases hx : x.liftedAt.isSome <;> simp only [hx] <;> rfl
      · rfl
  | matchAcknowledge id side now =>
      cases hrow : w.db.matchRows.any (·.id = id) <;>
        simp only [DbCmd.exec, World.dress_db, Db.dress_matchRows, hrow, Bool.false_eq_true, if_true,
          if_false] <;>
        rfl
  | blockLift id now =>
      cases hrow : w.db.blocks.any (·.id = id) <;>
        simp only [DbCmd.exec, World.dress_db, Db.dress_blocks, hrow, Bool.false_eq_true, if_true,
          if_false] <;>
        rfl
  | refreshTokenRevoke id now =>
      cases hrow : w.db.refreshTokens.any (·.id = id) <;>
        simp only [DbCmd.exec, World.dress_db, Db.dress_refreshTokens, hrow, Bool.false_eq_true, if_true,
          if_false] <;>
        rfl
  | _ =>
      simp only [DbCmd.exec, World.create, World.mapDb, World.dress_db, World.dress_clock,
        World.dress_nextId, Db.dress_hasUser, Db.dress_sessions, Db.dress_matchRows,
        Db.dress_messages, Db.dress_blocks, Db.dress_reports, Db.dress_moderationEvents,
        Db.dress_tokenTransactions, Db.dress_refreshTokens, Db.dress_findMatch, Db.dress_findBlock]
      (repeat' split) <;> rfl

theorem RedisCmd.exec_dress (c : RedisCmd) (w : World) :
    c.exec (w.dress p profile) = ((c.exec w).1, (c.exec w).2.dress p profile) := by
  cases c with
  | setNX k v ttl =>
      simp only [RedisCmd.exec, World.dress_get]
      cases w.get k <;> rfl
  | del ks =>
      have hdel : ks.foldl World.del (w.dress p profile) = (ks.foldl World.del w).dress p profile := by
        induction ks generalizing w with
        | nil => rfl
        | cons k ks ih => exact ih (w.del k)
      exact congrArg (Prod.mk ()) hdel
  | releaseLock k v =>
      by_cases hlock : w.get k = some v
      · simp only [RedisCmd.exec, World.dress_get, hlock, if_true]
        rfl
      · simp only [RedisCmd.exec, World.dress_get, hlock, if_false]
  | pexpireChoices id ttl =>
      have hentry : (w.dress p profile).redis.choices.entry (w.dress p profile).clock id =
          w.redis.choices.entry w.clock id := rfl
      simp only [RedisCmd.exec, World.expireChoices, hentry]
      cases w.redis.choices.entry w.clock id <;> rfl
  | _ => rfl

theorem HostCmd.exec_dress (c : HostCmd) (w : World) :
    c.exec (w.dress p profile) = ((c.exec w).1, (c.exec w).2.dress p profile) := by
  cases c <;> rfl

/-- In the dressed world a command does what it does in the world. -/
theorem Cmd.exec_dress (c : Cmd) (w : World) :
    c.exec (w.dress p profile) =
      ((c.exec w).1.map (c.dressRes p profile), (c.exec w).2.dress p profile) := by
  cases c with
  | db c => exact c.exec_dress w
  | redis c =>
      rw [Cmd.exec_redis, Cmd.exec_redis, c.exec_dress w]
      rfl
  | host c =>
      rw [Cmd.exec_host, Cmd.exec_host, c.exec_dress w]
      refine Prod.ext ?_ rfl
      cases (c.exec w).1 <;> rfl

end Dress

end VerityBackend
