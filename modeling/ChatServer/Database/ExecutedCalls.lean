import ChatServer.Database.ExecutorEffects
import ChatServer.Database.FriendRequests

/-!
# The call behind a command

Every command of the executor makes at most one writing call of `db_service`, and a command that
needs a user makes it on behalf of the user of its task. `callOf` reads the call off the command,
with the checks the executor makes first on the whole texts, and `performs` is the call that reaches
the database, which reads these texts as PostgreSQL does (`ServiceCall.bind`).
`execute_db` says that the database after a task is the one after that call, so that everything
known of sequences of calls is known of the tasks of a worker.
-/

set_option autoImplicit false
set_option relaxedAutoImplicit false

namespace ChatServer

namespace DbExecutor

/-- The writing call a command makes on behalf of a user. -/
def callOf (env : DbEnv) (userId : Bytes) : Command → Option (ServiceCall)
  | .cmdSay roomId message =>
    (parseRoomId roomId).map fun roomId ↦
      .createRoomMessage env.now env.gap roomId userId message
  | .cmdNick nick => some (.changeNickname userId nick)
  | .cmdFriendRequest toUserId =>
    if userId = toUserId then none else some (.requestFriend env.now userId toUserId)
  | .cmdFriendAccept fromUserId => some (.acceptFriendRequest env.now fromUserId userId)
  | .cmdFriendReject fromUserId => some (.rejectFriendRequest env.now fromUserId userId)
  | .cmdFriendRemove friendUserId =>
    if userId = friendUserId then none else some (.removeFriend userId friendUserId)
  | .cmdCreateRoom roomName =>
    if roomName = [] then none else some (.createRoom env.now env.gap userId roomName)
  | .cmdDeleteRoom roomId => (parseRoomId roomId).map fun roomId ↦ .deleteRoom userId roomId
  | .cmdInviteRoom roomId friendUserId =>
    if userId = friendUserId then none
    else (parseRoomId roomId).map fun roomId ↦ .inviteRoom env.now userId roomId friendUserId
  | .cmdLeaveRoom roomId => (parseRoomId roomId).map fun roomId ↦ .leaveRoom userId roomId
  | _ => none

/-- The writing call a task asks for: signing up needs no user. -/
def asksFor (env : DbEnv) (task : Task) : Option (ServiceCall) :=
  match task.cmd with
  | .cmdRegister id pw => some (.signup id pw)
  | cmd => if task.userId = [] then none else callOf env task.userId cmd

end DbExecutor

/-- The call that is made when the first database call of a task goes through. -/
def DbEnv.passed (env : DbEnv) (call : Option (ServiceCall)) : Option (ServiceCall) :=
  if env.fails 0 = none then call else none

@[simp] theorem DbEnv.passed_none (env : DbEnv) : env.passed none = none :=
  ite_self _

/-- The writing call that a task makes. -/
def DbExecutor.performs (env : DbEnv) (task : Task) : Option (ServiceCall) :=
  env.passed (DbExecutor.asksFor env task)

section Calls

variable [LinearOrder Bytes] {env : DbEnv} {task : Task} {db : Database Bytes}

/-- The database after a call that was made, or as it was. -/
def Database.afterCall (db : Database Bytes) (call : Option (ServiceCall)) : Database Bytes :=
  match call with
  | none => db
  | some call => call.run db

theorem db_afterCall_passed (env : DbEnv) (db : Database Bytes) :
    db.afterCall (env.passed none) = db := by
  rw [DbEnv.passed_none]
  rfl

/-- A writing operation under the environment is its call. -/
theorem write_snd {Result : Type} (result : DbResult Bytes Result) (call : ServiceCall)
    (hcall : call.run db = DbResult.committed db result) :
    (env.write 0 db result).2 = db.afterCall (env.passed (some call)) := by
  unfold DbEnv.write DbEnv.passed
  cases hfails : env.fails 0 with
  | some error => rfl
  | none =>
    rw [if_pos rfl, Database.afterCall, hcall]
    cases result <;> rfl

omit [LinearOrder Bytes] in
theorem replyResult_fst (fd : Int) (result : Except DbError Bool × Database Bytes)
    (failed refused done : Bytes) :
    (DbExecutor.replyResult fd result failed refused done).1 = result.2 := by
  unfold DbExecutor.replyResult
  split <;> rfl

theorem db_executeRegister (fd : Int) (id pw : Bytes) :
    (DbExecutor.executeRegister env fd id pw db).1 =
      db.afterCall (env.passed (some (.signup id pw))) := by
  rw [← write_snd (DbService.signup id pw db) (.signup id pw) rfl]
  unfold DbExecutor.executeRegister
  dsimp only
  split <;> rfl

section User

variable (fd : Int) (userId : Bytes)

theorem db_executeNick (nick : Bytes) :
    (DbExecutor.executeNick env fd userId nick db).1 =
      db.afterCall (env.passed (DbExecutor.callOf env userId (.cmdNick nick))) := by
  rw [DbExecutor.callOf,
    ← write_snd (DbService.changeNickname userId nick db) (.changeNickname userId nick) rfl]
  unfold DbExecutor.executeNick
  dsimp only
  split <;> rfl

theorem db_executeFriendRequest (toUserId : Bytes) :
    (DbExecutor.executeFriendRequest env fd userId toUserId db).1 =
      db.afterCall (env.passed (DbExecutor.callOf env userId (.cmdFriendRequest toUserId))) := by
  unfold DbExecutor.executeFriendRequest DbExecutor.callOf
  dsimp only
  split_ifs
  · exact (db_afterCall_passed env db).symm
  · rw [replyResult_fst]
    exact write_snd _ (.requestFriend env.now userId toUserId) rfl

theorem db_executeFriendAccept (fromUserId : Bytes) :
    (DbExecutor.executeFriendAccept env fd userId fromUserId db).1 =
      db.afterCall (env.passed (DbExecutor.callOf env userId (.cmdFriendAccept fromUserId))) := by
  rw [DbExecutor.executeFriendAccept, replyResult_fst]
  exact write_snd _ (.acceptFriendRequest env.now fromUserId userId) rfl

theorem db_executeFriendReject (fromUserId : Bytes) :
    (DbExecutor.executeFriendReject env fd userId fromUserId db).1 =
      db.afterCall (env.passed (DbExecutor.callOf env userId (.cmdFriendReject fromUserId))) := by
  rw [DbExecutor.executeFriendReject, replyResult_fst]
  exact write_snd _ (.rejectFriendRequest env.now fromUserId userId) rfl

theorem db_executeFriendRemove (friendUserId : Bytes) :
    (DbExecutor.executeFriendRemove env fd userId friendUserId db).1 =
      db.afterCall (env.passed (DbExecutor.callOf env userId (.cmdFriendRemove friendUserId))) := by
  unfold DbExecutor.executeFriendRemove DbExecutor.callOf
  dsimp only
  split_ifs
  · exact (db_afterCall_passed env db).symm
  · rw [replyResult_fst]
    exact write_snd _ (.removeFriend userId friendUserId) rfl

theorem db_executeSay (value message : Bytes) :
    (DbExecutor.executeSay env fd userId value message db).1 =
      db.afterCall (env.passed (DbExecutor.callOf env userId (.cmdSay value message))) := by
  unfold DbExecutor.executeSay DbExecutor.callOf
  dsimp only
  cases DbExecutor.parseRoomId value with
  | none =>
    exact (db_afterCall_passed env db).symm
  | some roomId =>
    rw [Option.map_some, ← write_snd
      (DbService.createRoomMessage env.now env.gap roomId userId message db)
      (.createRoomMessage env.now env.gap roomId userId message) rfl]
    dsimp only
    split <;> rfl

theorem db_executeCreateRoom (roomName : Bytes) :
    (DbExecutor.executeCreateRoom env fd userId roomName db).1 =
      db.afterCall (env.passed (DbExecutor.callOf env userId (.cmdCreateRoom roomName))) := by
  unfold DbExecutor.executeCreateRoom DbExecutor.callOf
  dsimp only
  split_ifs
  · exact (db_afterCall_passed env db).symm
  · rw [← write_snd (DbService.createRoom env.now env.gap userId roomName db)
      (.createRoom env.now env.gap userId roomName) rfl]
    split <;> rfl

theorem db_executeDeleteRoom (value : Bytes) :
    (DbExecutor.executeDeleteRoom env fd userId value db).1 =
      db.afterCall (env.passed (DbExecutor.callOf env userId (.cmdDeleteRoom value))) := by
  unfold DbExecutor.executeDeleteRoom DbExecutor.callOf
  dsimp only
  cases DbExecutor.parseRoomId value with
  | none =>
    exact (db_afterCall_passed env db).symm
  | some roomId =>
    rw [Option.map_some, ← write_snd (DbService.deleteRoom userId roomId db)
      (.deleteRoom userId roomId) rfl]
    dsimp only
    split <;> rfl

theorem db_executeInviteRoom (value friendUserId : Bytes) :
    (DbExecutor.executeInviteRoom env fd userId value friendUserId db).1 =
      db.afterCall
        (env.passed (DbExecutor.callOf env userId (.cmdInviteRoom value friendUserId))) := by
  unfold DbExecutor.executeInviteRoom DbExecutor.callOf
  dsimp only
  split_ifs
  · exact (db_afterCall_passed env db).symm
  cases DbExecutor.parseRoomId value with
  | none =>
    exact (db_afterCall_passed env db).symm
  | some roomId =>
    rw [Option.map_some, ← write_snd (DbService.inviteRoom env.now userId roomId friendUserId db)
      (.inviteRoom env.now userId roomId friendUserId) rfl]
    dsimp only
    split <;> rfl

theorem db_executeLeaveRoom (value : Bytes) :
    (DbExecutor.executeLeaveRoom env fd userId value db).1 =
      db.afterCall (env.passed (DbExecutor.callOf env userId (.cmdLeaveRoom value))) := by
  unfold DbExecutor.executeLeaveRoom DbExecutor.callOf
  dsimp only
  cases DbExecutor.parseRoomId value with
  | none =>
    exact (db_afterCall_passed env db).symm
  | some roomId =>
    rw [Option.map_some, ← write_snd (DbService.leaveRoom userId roomId db)
      (.leaveRoom userId roomId) rfl]
    dsimp only
    split <;> rfl

end User

/-- Without a user no call is made. -/
theorem db_loginFirst {executed : DbExecutor.Executed} {call : Option (ServiceCall)}
    (hexecuted : executed.1 = db.afterCall (env.passed call)) :
    (DbExecutor.loginFirst task db executed).1 =
      db.afterCall (env.passed (if task.userId = [] then none else call)) := by
  unfold DbExecutor.loginFirst
  split_ifs
  · exact (db_afterCall_passed env db).symm
  · exact hexecuted

theorem db_executeLogin (fd : Int) (id pw : Bytes) :
    (DbExecutor.executeLogin env fd id pw db).1 = db := by
  unfold DbExecutor.executeLogin
  split
  · rfl
  · split <;> rfl
  · rfl

/-- The four queries leave the database. -/
theorem db_queries (fd : Int) (userId value limit : Bytes) :
    (DbExecutor.executeListFriend env fd userId db).1 = db ∧
      (DbExecutor.executeListFriendRequest env fd userId db).1 = db ∧
      (DbExecutor.executeListRoom env fd userId db).1 = db ∧
      (DbExecutor.executeHistory env fd userId value limit db).1 = db := by
  unfold DbExecutor.executeListFriend DbExecutor.executeListFriendRequest
    DbExecutor.executeListRoom DbExecutor.executeHistory DbExecutor.invalidRoomId
  refine ⟨?_, ?_, ?_, ?_⟩
  all_goals repeat' split
  all_goals rfl

/-- A command that makes no call leaves the database, whatever the user. -/
theorem db_unchanged {executed : DbExecutor.Executed} (hsame : executed.1 = db) {userId : Bytes} :
    executed.1 = db.afterCall (env.passed (if userId = [] then none else none)) := by
  rw [ite_self, db_afterCall_passed, hsame]

/-- A task leaves the database after its call. -/
theorem execute_db (env : DbEnv) (task : Task) (db : Database Bytes) :
    (DbExecutor.execute env task db).1 = db.afterCall (DbExecutor.performs env task) := by
  rcases task with ⟨cmd, fd, userId⟩
  unfold DbExecutor.performs DbExecutor.asksFor
  cases cmd with
  | cmdLogin id pw => exact db_unchanged (db_executeLogin fd id pw)
  | cmdRegister id pw => exact db_executeRegister fd id pw
  | cmdResponse message => exact db_unchanged rfl
  | cmdSay roomId message => exact db_loginFirst (db_executeSay fd userId roomId message)
  | cmdNick nick => exact db_loginFirst (db_executeNick fd userId nick)
  | cmdFriendRequest toUserId =>
    exact db_loginFirst (db_executeFriendRequest fd userId toUserId)
  | cmdFriendAccept fromUserId =>
    exact db_loginFirst (db_executeFriendAccept fd userId fromUserId)
  | cmdFriendReject fromUserId =>
    exact db_loginFirst (db_executeFriendReject fd userId fromUserId)
  | cmdFriendRemove friendUserId =>
    exact db_loginFirst (db_executeFriendRemove fd userId friendUserId)
  | cmdListFriend =>
    exact db_loginFirst ((db_queries fd userId [] []).1.trans (db_afterCall_passed env db).symm)
  | cmdListFriendRequest =>
    exact db_loginFirst ((db_queries fd userId [] []).2.1.trans (db_afterCall_passed env db).symm)
  | cmdCreateRoom roomName => exact db_loginFirst (db_executeCreateRoom fd userId roomName)
  | cmdDeleteRoom roomId => exact db_loginFirst (db_executeDeleteRoom fd userId roomId)
  | cmdInviteRoom roomId friendUserId =>
    exact db_loginFirst (db_executeInviteRoom fd userId roomId friendUserId)
  | cmdLeaveRoom roomId => exact db_loginFirst (db_executeLeaveRoom fd userId roomId)
  | cmdListRoom =>
    exact db_loginFirst ((db_queries fd userId [] []).2.2.1.trans (db_afterCall_passed env db).symm)
  | cmdHistory roomId limit =>
    exact db_loginFirst
      ((db_queries fd userId roomId limit).2.2.2.trans (db_afterCall_passed env db).symm)

/-- A task stores no id with a NUL. -/
theorem idsWhole_execute (env : DbEnv) (task : Task) (hwhole : db.IdsWhole) :
    (DbExecutor.execute env task db).1.IdsWhole := by
  rw [execute_db]
  cases DbExecutor.performs env task with
  | none => exact hwhole
  | some call => exact call.idsWhole_run hwhole

end Calls

/-! ### The command behind a call -/

section Commands

variable {env : DbEnv} {task : Task} {call : ServiceCall}

theorem passed_eq_some {asked : Option (ServiceCall)} (hcall : env.passed asked = some call) :
    asked = some call := by
  unfold DbEnv.passed at hcall
  split_ifs at hcall
  exact hcall

/-- A call is a registration, or made by a user. -/
theorem performs_eq_some (hcall : DbExecutor.performs env task = some call) :
    (∃ id pw, task.cmd = .cmdRegister id pw ∧ call = .signup id pw) ∨
      (task.userId ≠ [] ∧ DbExecutor.callOf env task.userId task.cmd = some call) := by
  have hasks := passed_eq_some hcall
  unfold DbExecutor.asksFor at hasks
  split at hasks
  · next id pw hcmd => exact Or.inl ⟨id, pw, hcmd, (Option.some.inj hasks).symm⟩
  · by_cases huser : task.userId = []
    · rw [if_pos huser] at hasks
      cases hasks
    · rw [if_neg huser] at hasks
      exact Or.inr ⟨huser, hasks⟩

/-- Only `register` signs up. -/
theorem signup_of_performs {id pw : Bytes}
    (hcall : DbExecutor.performs env task = some (.signup id pw)) :
    task.cmd = .cmdRegister id pw := by
  rcases performs_eq_some hcall with ⟨id', pw', hcmd, hsame⟩ | ⟨-, hcall⟩
  · obtain ⟨rfl, rfl⟩ := ServiceCall.signup.inj hsame
    exact hcmd
  · exfalso
    cases hcmd : task.cmd <;> simp [hcmd, DbExecutor.callOf] at hcall

/-- No command adds a friend outright. -/
theorem performs_ne_addFriend (hcall : DbExecutor.performs env task = some call) (now : Int)
    (first second : Bytes) : call.bind ≠ .addFriend now first second := by
  intro hbind
  cases call with
  | addFriend now userId friendId =>
    rcases performs_eq_some hcall with ⟨id, pw, -, hsame⟩ | ⟨-, hcall⟩
    · cases hsame
    · cases hcmd : task.cmd <;> simp [hcmd, DbExecutor.callOf] at hcall
  | _ => cases hbind

/-- A friend request is made by the user who asks. -/
theorem requests_of_performs (hcall : DbExecutor.performs env task = some call) {a b : Bytes}
    (hrequests : call.bind.Requests a b) :
    sqlText task.userId = a ∧ task.userId ≠ [] ∧
      ∃ toUserId, task.cmd = .cmdFriendRequest toUserId ∧ sqlText toUserId = b := by
  obtain ⟨now, hbind⟩ := hrequests
  cases call with
  | requestFriend now fromUserId toUserId =>
    obtain ⟨-, hfrom, hto⟩ := WriteCall.requestFriend.inj hbind
    rcases performs_eq_some hcall with ⟨id, pw, -, hsame⟩ | ⟨huser, hcall⟩
    · cases hsame
    · cases hcmd : task.cmd <;> simp [hcmd, DbExecutor.callOf] at hcall
      obtain ⟨-, -, rfl, rfl⟩ := hcall
      exact ⟨hfrom, huser, _, rfl, hto⟩
  | _ => cases hbind

/-- A request is accepted by the user who was asked. -/
theorem accepts_of_performs (hcall : DbExecutor.performs env task = some call) {a b : Bytes}
    (haccepts : call.bind.Accepts a b) :
    sqlText task.userId = b ∧ task.userId ≠ [] ∧
      ∃ fromUserId, task.cmd = .cmdFriendAccept fromUserId ∧ sqlText fromUserId = a := by
  obtain ⟨now, hbind⟩ := haccepts
  cases call with
  | acceptFriendRequest now fromUserId toUserId =>
    obtain ⟨-, hfrom, hto⟩ := WriteCall.acceptFriendRequest.inj hbind
    rcases performs_eq_some hcall with ⟨id, pw, -, hsame⟩ | ⟨huser, hcall⟩
    · cases hsame
    · cases hcmd : task.cmd <;> simp [hcmd, DbExecutor.callOf] at hcall
      obtain ⟨-, rfl, rfl⟩ := hcall
      exact ⟨hto, huser, _, rfl, hfrom⟩
  | _ => cases hbind

end Commands

end ChatServer
