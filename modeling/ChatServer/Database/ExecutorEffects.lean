import ChatServer.Database.DbExecutor
import ChatServer.Database.Membership
import ChatServer.Reactor.RegistryEffects

/-!
# What a task does

A task changes the database and queues commands. For the rest of the development only some of this
matters: who is a member of which room, which messages are committed, and which of the commands
change who a connection is or which rooms it is filed under. `Executes` lists the ways a task can
go with exactly that, and `executes_execute` says that these are all. `byWorker_execute` says where
the commands are directed: at the descriptor of the task, or at a user, and never at a registration.
-/

set_option autoImplicit false
set_option relaxedAutoImplicit false

namespace ChatServer

/-- The commands that matter for the view of a connection or deliver a room's message. -/
def RegistryCommand.relevant : RegistryCommand → Bool
  | .sendOne .. | .broadcast .. | .changeNickname .. | .sendFriendList .. => false
  | _ => true

/-- A command that is not relevant leaves every view as it is. -/
theorem RegistryCommand.act_of_not_relevant {command : RegistryCommand}
    (hcommand : command.relevant = false) (fd : Int) (view : Option View) :
    command.act fd view = view := by
  cases command <;> first | rfl | cases hcommand

/-- A command that the worker queues for a task at this descriptor. -/
def RegistryCommand.ByWorker (fd : Int) : RegistryCommand → Prop
  | .register .. | .unregister _ | .broadcast .. => False
  | .sendOne target _ | .changeNickname target _ | .setUserId target _ | .setJoinedRooms target _
  | .sendFriendList target _ | .roomBroadcast target _ _ => target = fd
  | .setJoinedRoomsForUser .. => True

/-! ### The ways a task can go -/

section Tasks

variable [LinearOrder Bytes]

/-- The identity a task establishes when it is a login line: its id if the database accepted it and
the rooms of the user could be read, and no user otherwise. -/
def establishes (env : DbEnv) (task : Task) (db : Database Bytes) : Option Bytes :=
  match task.cmd with
  | .cmdLogin id pw =>
    match env.read 0 (DbService.login id pw db) with
    | .error _ => some []
    | .ok none => some []
    | .ok (some _) =>
      match env.read 1 (DbExecutor.loadJoinedRoomIds id db) with
      | .error _ => some []
      | .ok _ => some id
  | _ => none

/-- The ways a task can go: the database it leaves, the relevant commands it queues, and the
identity it establishes. -/
inductive Executes (env : DbEnv) (task : Task) (db : Database Bytes) :
    Database Bytes → List RegistryCommand → Option Bytes → Prop
  | quiet (next : Database Bytes) (hsame : db.SameChat next) :
      Executes env task db next [] none
  | login (id pw : Bytes) (hcmd : task.cmd = .cmdLogin id pw)
      (haccepted : (DbService.login id pw db).isSome) :
      Executes env task db db [.setUserId task.fd id,
        .setJoinedRooms task.fd (DbExecutor.loadJoinedRoomIds id db)] (some id)
  | logout (id pw : Bytes) (hcmd : task.cmd = .cmdLogin id pw) :
      Executes env task db db [.setUserId task.fd [], .setJoinedRooms task.fd []] (some [])
  | say (roomId id : Int) (message : Bytes) (next : Database Bytes)
      (hwrite : DbService.createRoomMessage env.now env.gap roomId task.userId message db =
        .ok (some id, next)) :
      Executes env task db next [.roomBroadcast task.fd roomId (.cmdResponse message)] none
  | createRoom (roomName : Bytes) (roomId : Int) (next : Database Bytes)
      (hcmd : task.cmd = .cmdCreateRoom roomName) (huser : task.userId ≠ [])
      (hok : env.fails 0 = none)
      (hwrite : DbService.createRoom env.now env.gap task.userId roomName db =
        .ok (roomId, next)) :
      Executes env task db next (DbExecutor.refresh (.setJoinedRooms task.fd)
        (env.read 1 (DbExecutor.loadJoinedRoomIds task.userId next))) none
  | deleteRoom (value : Bytes) (roomId : Int) (next : Database Bytes)
      (hcmd : task.cmd = .cmdDeleteRoom value) (hroom : DbExecutor.parseRoomId value = some roomId)
      (huser : task.userId ≠ []) (hok : env.fails 0 = none)
      (hwrite : DbService.deleteRoom task.userId roomId db = .ok (true, next)) :
      Executes env task db next (DbExecutor.refresh (.setJoinedRooms task.fd)
        (env.read 1 (DbExecutor.loadJoinedRoomIds task.userId next))) none
  | inviteRoom (value friendUserId : Bytes) (roomId : Int) (next : Database Bytes)
      (hcmd : task.cmd = .cmdInviteRoom value friendUserId)
      (hroom : DbExecutor.parseRoomId value = some roomId) (hself : task.userId ≠ friendUserId)
      (huser : task.userId ≠ []) (hok : env.fails 0 = none)
      (hwrite : DbService.inviteRoom env.now task.userId roomId friendUserId db =
        .ok (.invited, next)) :
      Executes env task db next
        (DbExecutor.refresh (.setJoinedRoomsForUser task.userId)
            (env.read 1 (DbExecutor.loadJoinedRoomIds task.userId next)) ++
          DbExecutor.refresh (.setJoinedRoomsForUser friendUserId)
            (env.read 2 (DbExecutor.loadJoinedRoomIds friendUserId next))) none
  | leaveRoom (value : Bytes) (roomId : Int) (next : Database Bytes)
      (hcmd : task.cmd = .cmdLeaveRoom value) (hroom : DbExecutor.parseRoomId value = some roomId)
      (huser : task.userId ≠ []) (hok : env.fails 0 = none)
      (hwrite : DbService.leaveRoom task.userId roomId db = .ok (.left, next)) :
      Executes env task db next (DbExecutor.refresh (.setJoinedRoomsForUser task.userId)
        (env.read 1 (DbExecutor.loadJoinedRoomIds task.userId next))) none

variable {env : DbEnv} {task : Task} {db : Database Bytes}

/-- The commands of a task that matter. -/
def relevantOf (executed : DbExecutor.Executed) : List RegistryCommand :=
  executed.2.filter RegistryCommand.relevant

omit [LinearOrder Bytes] in
/-- A reading call that succeeds returns what the query computes. -/
theorem read_eq_ok {Result : Type} {env : DbEnv} {n : Nat} {result value : Result}
    (hread : env.read n result = .ok value) : env.fails n = none ∧ value = result := by
  unfold DbEnv.read at hread
  split at hread
  · cases hread
  · next hfails => exact ⟨hfails, (Except.ok.inj hread).symm⟩

omit [LinearOrder Bytes] in
/-- A writing call that fails leaves the database; one that succeeds leaves what the operation
committed. -/
theorem write_cases {Result : Type} (env : DbEnv) (n : Nat) (db : Database Bytes)
    (result : DbResult Bytes Result) :
    (∃ error, env.write n db result = (.error error, db)) ∨
      ∃ value next, env.fails n = none ∧ result = .ok (value, next) ∧
        env.write n db result = (.ok value, next) := by
  unfold DbEnv.write
  cases hfails : env.fails n with
  | some error => exact Or.inl ⟨error, rfl⟩
  | none =>
    cases result with
    | error error => exact Or.inl ⟨error, rfl⟩
    | ok value => exact Or.inr ⟨value.1, value.2, rfl, rfl, rfl⟩

/-! ### Which way each command goes -/

omit [LinearOrder Bytes] in
/-- What holds of the database, and of every database the operation commits, holds after a writing
call. -/
theorem write_preserves {property : Database Bytes → Prop} (hdb : property db) {Result : Type}
    {n : Nat} {result : DbResult Bytes Result}
    (hnext : ∀ value next, result = .ok (value, next) → property next) :
    property (env.write n db result).2 := by
  rcases write_cases env n db result with ⟨error, hwrite⟩ | ⟨value, next, -, hok, hwrite⟩
  · rw [hwrite]
    exact hdb
  · rw [hwrite]
    exact hnext value next hok

omit [LinearOrder Bytes] in
/-- A writing call of an operation that keeps the chat tables keeps them. -/
theorem sameChat_write {Result : Type} {n : Nat} {result : DbResult Bytes Result}
    (hsame : ∀ value next, result = .ok (value, next) → db.SameChat next) :
    db.SameChat (env.write n db result).2 :=
  write_preserves (Database.SameChat.refl db) hsame

/-- What the worker queues for a task is directed at the descriptor of the task or at a user. -/
theorem byWorker_execute (env : DbEnv) (task : Task) (db : Database Bytes) :
    ∀ command ∈ (DbExecutor.execute env task db).2, command.ByWorker task.fd := by
  unfold DbExecutor.execute DbExecutor.loginFirst
  cases task.cmd
  all_goals
    dsimp only [DbExecutor.executeLogin, DbExecutor.executeRegister, DbExecutor.executeSay,
      DbExecutor.executeNick, DbExecutor.executeFriendRequest, DbExecutor.executeFriendAccept,
      DbExecutor.executeFriendReject, DbExecutor.executeFriendRemove,
      DbExecutor.executeListFriend, DbExecutor.executeListFriendRequest,
      DbExecutor.executeCreateRoom, DbExecutor.executeDeleteRoom, DbExecutor.executeInviteRoom,
      DbExecutor.executeLeaveRoom, DbExecutor.executeListRoom, DbExecutor.executeHistory,
      DbExecutor.replyResult, DbExecutor.invalidRoomId, DbExecutor.refresh]
    repeat' split
    all_goals simp [DbExecutor.reply, DbExecutor.loginError, RegistryCommand.ByWorker]

omit [LinearOrder Bytes] in
theorem filter_reply (fd : Int) (message : Bytes) :
    [DbExecutor.reply fd message].filter RegistryCommand.relevant = [] :=
  rfl

omit [LinearOrder Bytes] in
/-- A refresh is relevant. -/
theorem filter_refresh {command : List Int → RegistryCommand}
    (hcommand : ∀ roomIds, (command roomIds).relevant = true)
    (rooms : Except DbError (List Int)) :
    (DbExecutor.refresh command rooms).filter RegistryCommand.relevant =
      DbExecutor.refresh command rooms := by
  cases rooms with
  | error error => rfl
  | ok roomIds => exact List.filter_cons_of_pos (hcommand roomIds)

theorem executes_login {id pw : Bytes} (hcmd : task.cmd = .cmdLogin id pw) :
    Executes env task db (DbExecutor.executeLogin env task.fd id pw db).1
      (relevantOf (DbExecutor.executeLogin env task.fd id pw db)) (establishes env task db) := by
  unfold DbExecutor.executeLogin establishes
  rw [hcmd]
  dsimp only
  cases hlogin : env.read 0 (DbService.login id pw db) with
  | error error => exact .logout id pw hcmd
  | ok accepted =>
    cases accepted with
    | none => exact .logout id pw hcmd
    | some nickname =>
      dsimp only
      have haccepted : (DbService.login id pw db).isSome := by
        rw [← (read_eq_ok hlogin).2]
        rfl
      cases hread : env.read 1 (DbExecutor.loadJoinedRoomIds id db) with
      | error error => exact .logout id pw hcmd
      | ok roomIds =>
        rw [(read_eq_ok hread).2]
        exact .login id pw hcmd haccepted

theorem executes_say (roomId message : Bytes) :
    Executes env task db (DbExecutor.executeSay env task.fd task.userId roomId message db).1
      (relevantOf (DbExecutor.executeSay env task.fd task.userId roomId message db)) none := by
  unfold DbExecutor.executeSay
  cases DbExecutor.parseRoomId roomId with
  | none => exact .quiet db (Database.SameChat.refl db)
  | some roomId =>
    dsimp only
    rcases write_cases env 0 db
        (DbService.createRoomMessage env.now env.gap roomId task.userId message db) with
      ⟨error, hwrite⟩ | ⟨created, next, -, hok, hwrite⟩
    · rw [hwrite]
      exact .quiet db (Database.SameChat.refl db)
    · rw [hwrite]
      cases created with
      | none => exact .quiet next (sameChat_createRoomMessage_none hok)
      | some id => exact .say roomId id message next hok

theorem executes_createRoom {roomName : Bytes} (hcmd : task.cmd = .cmdCreateRoom roomName)
    (huser : task.userId ≠ []) :
    Executes env task db (DbExecutor.executeCreateRoom env task.fd task.userId roomName db).1
      (relevantOf (DbExecutor.executeCreateRoom env task.fd task.userId roomName db)) none := by
  unfold DbExecutor.executeCreateRoom
  by_cases hname : roomName = []
  · rw [if_pos hname]
    exact .quiet db (Database.SameChat.refl db)
  rw [if_neg hname]
  dsimp only
  rcases write_cases env 0 db
      (DbService.createRoom env.now env.gap task.userId roomName db) with
    ⟨error, hwrite⟩ | ⟨roomId, next, hfails, hok, hwrite⟩
  · rw [hwrite]
    exact .quiet db (Database.SameChat.refl db)
  · rw [hwrite]
    have hcreated := Executes.createRoom roomName roomId next hcmd huser hfails hok
    dsimp only
    rw [relevantOf, ← List.singleton_append, List.filter_append, filter_reply, List.nil_append,
      filter_refresh fun _ ↦ rfl]
    exact hcreated

theorem executes_deleteRoom {value : Bytes} (hcmd : task.cmd = .cmdDeleteRoom value)
    (huser : task.userId ≠ []) :
    Executes env task db (DbExecutor.executeDeleteRoom env task.fd task.userId value db).1
      (relevantOf (DbExecutor.executeDeleteRoom env task.fd task.userId value db)) none := by
  unfold DbExecutor.executeDeleteRoom
  cases hroom : DbExecutor.parseRoomId value with
  | none => exact .quiet db (Database.SameChat.refl db)
  | some roomId =>
    dsimp only
    rcases write_cases env 0 db (DbService.deleteRoom task.userId roomId db) with
      ⟨error, hwrite⟩ | ⟨deleted, next, hfails, hok, hwrite⟩
    · rw [hwrite]
      exact .quiet db (Database.SameChat.refl db)
    · rw [hwrite]
      cases deleted with
      | false => exact .quiet next (sameChat_deleteRoom_false hok)
      | true =>
        have hdeleted := Executes.deleteRoom value roomId next hcmd hroom huser hfails hok
        dsimp only
        rw [relevantOf, List.filter_append, filter_refresh fun _ ↦ rfl, filter_reply,
          List.append_nil]
        exact hdeleted

theorem executes_inviteRoom {value friendUserId : Bytes}
    (hcmd : task.cmd = .cmdInviteRoom value friendUserId) (huser : task.userId ≠ []) :
    Executes env task db
      (DbExecutor.executeInviteRoom env task.fd task.userId value friendUserId db).1
      (relevantOf (DbExecutor.executeInviteRoom env task.fd task.userId value friendUserId db))
      none := by
  unfold DbExecutor.executeInviteRoom
  by_cases hself : task.userId = friendUserId
  · rw [if_pos hself]
    exact .quiet db (Database.SameChat.refl db)
  rw [if_neg hself]
  cases hroom : DbExecutor.parseRoomId value with
  | none => exact .quiet db (Database.SameChat.refl db)
  | some roomId =>
    dsimp only
    rcases write_cases env 0 db
        (DbService.inviteRoom env.now task.userId roomId friendUserId db) with
      ⟨error, hwrite⟩ | ⟨result, next, hfails, hok, hwrite⟩
    · rw [hwrite]
      exact .quiet db (Database.SameChat.refl db)
    · rw [hwrite]
      cases result with
      | invited =>
        have hinvited := Executes.inviteRoom value friendUserId roomId next hcmd hroom hself huser
          hfails hok
        dsimp only
        rw [relevantOf, List.filter_append, List.filter_append, filter_refresh fun _ ↦ rfl,
          filter_refresh fun _ ↦ rfl, filter_reply, List.append_nil]
        exact hinvited
      | _ => exact .quiet next (sameChat_inviteRoom (by simp) hok)

theorem executes_leaveRoom {value : Bytes} (hcmd : task.cmd = .cmdLeaveRoom value)
    (huser : task.userId ≠ []) :
    Executes env task db (DbExecutor.executeLeaveRoom env task.fd task.userId value db).1
      (relevantOf (DbExecutor.executeLeaveRoom env task.fd task.userId value db)) none := by
  unfold DbExecutor.executeLeaveRoom
  cases hroom : DbExecutor.parseRoomId value with
  | none => exact .quiet db (Database.SameChat.refl db)
  | some roomId =>
    dsimp only
    rcases write_cases env 0 db (DbService.leaveRoom task.userId roomId db) with
      ⟨error, hwrite⟩ | ⟨result, next, hfails, hok, hwrite⟩
    · rw [hwrite]
      exact .quiet db (Database.SameChat.refl db)
    · rw [hwrite]
      cases result with
      | left =>
        have hleft := Executes.leaveRoom value roomId next hcmd hroom huser hfails hok
        dsimp only
        rw [relevantOf, List.filter_append, filter_refresh fun _ ↦ rfl, filter_reply,
          List.append_nil]
        exact hleft
      | _ => exact .quiet next (sameChat_leaveRoom (by simp) hok)

/-! ### Every command -/

theorem executes_register (id pw : Bytes) :
    Executes env task db (DbExecutor.executeRegister env task.fd id pw db).1
      (relevantOf (DbExecutor.executeRegister env task.fd id pw db)) none := by
  unfold DbExecutor.executeRegister
  have hsame := @sameChat_write env db _ 0 _ fun _ _ ↦
    @sameChat_signup _ _ db _ (sqlText id) (sqlText pw) _
  dsimp only
  cases (env.write 0 db (DbService.signup id pw db)).1 with
  | error error => exact .quiet _ hsame
  | ok created => exact .quiet _ hsame

theorem executes_nick (nick : Bytes) :
    Executes env task db (DbExecutor.executeNick env task.fd task.userId nick db).1
      (relevantOf (DbExecutor.executeNick env task.fd task.userId nick db)) none := by
  unfold DbExecutor.executeNick
  have hsame := @sameChat_write env db _ 0 _ fun _ _ ↦
    @sameChat_changeNickname _ _ db _ (sqlText task.userId) (sqlText nick) _
  dsimp only
  cases (env.write 0 db (DbService.changeNickname task.userId nick db)).1 with
  | error error => exact .quiet _ hsame
  | ok changed => cases changed <;> exact .quiet _ hsame

omit [LinearOrder Bytes] in
/-- The four writing friend commands end in one reply. -/
theorem executes_replyResult [LinearOrder Bytes] {result : Except DbError Bool × Database Bytes}
    (hsame : db.SameChat result.2) (failed refused done : Bytes) :
    Executes env task db (DbExecutor.replyResult task.fd result failed refused done).1
      (relevantOf (DbExecutor.replyResult task.fd result failed refused done)) none := by
  unfold DbExecutor.replyResult
  cases result.1 with
  | error error => exact .quiet _ hsame
  | ok value => cases value <;> exact .quiet _ hsame

/-- A list of replies. -/
theorem executes_replies {commands : List RegistryCommand}
    (hcommands : ∀ command ∈ commands, command.relevant = false) :
    Executes env task db db (relevantOf (db, commands)) none := by
  have hnone : relevantOf (db, commands) = [] := by
    rw [relevantOf, List.filter_eq_nil_iff]
    intro command hcommand
    rw [hcommands command hcommand]
    exact Bool.false_ne_true
  rw [hnone]
  exact .quiet db (Database.SameChat.refl db)

theorem executes_friendRequest (toUserId : Bytes) :
    Executes env task db (DbExecutor.executeFriendRequest env task.fd task.userId toUserId db).1
      (relevantOf (DbExecutor.executeFriendRequest env task.fd task.userId toUserId db)) none := by
  unfold DbExecutor.executeFriendRequest
  split_ifs
  · exact .quiet db (Database.SameChat.refl db)
  · exact executes_replyResult (sameChat_write fun _ _ ↦ sameChat_requestFriend) _ _ _

theorem executes_friendRemove (friendUserId : Bytes) :
    Executes env task db (DbExecutor.executeFriendRemove env task.fd task.userId friendUserId db).1
      (relevantOf (DbExecutor.executeFriendRemove env task.fd task.userId friendUserId db))
      none := by
  unfold DbExecutor.executeFriendRemove
  split_ifs
  · exact .quiet db (Database.SameChat.refl db)
  · exact executes_replyResult (sameChat_write fun _ _ ↦ sameChat_removeFriend) _ _ _

theorem executes_listFriend :
    Executes env task db (DbExecutor.executeListFriend env task.fd task.userId db).1
      (relevantOf (DbExecutor.executeListFriend env task.fd task.userId db)) none := by
  unfold DbExecutor.executeListFriend
  cases env.read 0 (DbService.listFriends task.userId db) with
  | error error => exact .quiet db (Database.SameChat.refl db)
  | ok friendIds =>
    dsimp only
    split_ifs <;> exact .quiet db (Database.SameChat.refl db)

theorem executes_listFriendRequest :
    Executes env task db (DbExecutor.executeListFriendRequest env task.fd task.userId db).1
      (relevantOf (DbExecutor.executeListFriendRequest env task.fd task.userId db)) none := by
  unfold DbExecutor.executeListFriendRequest
  cases env.read 0 (DbService.listFriendRequests task.userId db) with
  | error error => exact .quiet db (Database.SameChat.refl db)
  | ok fromUserIds =>
    dsimp only
    split_ifs
    · exact .quiet db (Database.SameChat.refl db)
    · exact executes_replies (by simp [DbExecutor.reply, RegistryCommand.relevant])

theorem executes_listRoom :
    Executes env task db (DbExecutor.executeListRoom env task.fd task.userId db).1
      (relevantOf (DbExecutor.executeListRoom env task.fd task.userId db)) none := by
  unfold DbExecutor.executeListRoom
  cases env.read 0 (DbService.listRooms task.userId db) with
  | error error => exact .quiet db (Database.SameChat.refl db)
  | ok rooms =>
    dsimp only
    split_ifs
    · exact .quiet db (Database.SameChat.refl db)
    · exact executes_replies (by simp [DbExecutor.reply, RegistryCommand.relevant])

theorem executes_history (roomId limit : Bytes) :
    Executes env task db (DbExecutor.executeHistory env task.fd task.userId roomId limit db).1
      (relevantOf (DbExecutor.executeHistory env task.fd task.userId roomId limit db)) none := by
  unfold DbExecutor.executeHistory
  cases DbExecutor.parseRoomId roomId with
  | none => exact .quiet db (Database.SameChat.refl db)
  | some roomId =>
    cases DbExecutor.parseLimit limit with
    | none => exact .quiet db (Database.SameChat.refl db)
    | some limit =>
      dsimp only
      cases env.read 0 (DbService.listRoomMessages task.userId roomId limit db) with
      | error error => exact .quiet db (Database.SameChat.refl db)
      | ok history =>
        cases history with
        | none => exact .quiet db (Database.SameChat.refl db)
        | some history =>
          exact executes_replies (by simp [DbExecutor.reply, RegistryCommand.relevant])

/-- Without a user a command is answered with a reply. -/
theorem executes_loginFirst {executed : DbExecutor.Executed}
    (hexecuted : task.userId ≠ [] →
      Executes env task db executed.1 (relevantOf executed) none) :
    Executes env task db (DbExecutor.loginFirst task db executed).1
      (relevantOf (DbExecutor.loginFirst task db executed)) none := by
  unfold DbExecutor.loginFirst
  by_cases huser : task.userId = []
  · rw [if_pos huser]
    exact .quiet db (Database.SameChat.refl db)
  · rw [if_neg huser]
    exact hexecuted huser

/-- These are all the ways a task can go. -/
theorem executes_execute :
    Executes env task db (DbExecutor.execute env task db).1
      (relevantOf (DbExecutor.execute env task db)) (establishes env task db) := by
  rcases task with ⟨cmd, fd, userId⟩
  cases cmd with
  | cmdLogin id pw => exact executes_login rfl
  | cmdRegister id pw => exact executes_register id pw
  | cmdResponse message => exact .quiet db (Database.SameChat.refl db)
  | cmdSay roomId message => exact executes_loginFirst fun _ ↦ executes_say roomId message
  | cmdNick nick => exact executes_loginFirst fun _ ↦ executes_nick nick
  | cmdFriendRequest toUserId => exact executes_loginFirst fun _ ↦ executes_friendRequest toUserId
  | cmdFriendAccept fromUserId =>
    exact executes_loginFirst fun _ ↦
      executes_replyResult (sameChat_write fun _ _ ↦ sameChat_acceptFriendRequest) _ _ _
  | cmdFriendReject fromUserId =>
    exact executes_loginFirst fun _ ↦
      executes_replyResult (sameChat_write fun _ _ ↦ sameChat_rejectFriendRequest) _ _ _
  | cmdFriendRemove friendUserId =>
    exact executes_loginFirst fun _ ↦ executes_friendRemove friendUserId
  | cmdListFriend => exact executes_loginFirst fun _ ↦ executes_listFriend
  | cmdListFriendRequest => exact executes_loginFirst fun _ ↦ executes_listFriendRequest
  | cmdCreateRoom roomName =>
    exact executes_loginFirst fun huser ↦ executes_createRoom rfl huser
  | cmdDeleteRoom roomId => exact executes_loginFirst fun huser ↦ executes_deleteRoom rfl huser
  | cmdInviteRoom roomId friendUserId =>
    exact executes_loginFirst fun huser ↦ executes_inviteRoom rfl huser
  | cmdLeaveRoom roomId => exact executes_loginFirst fun huser ↦ executes_leaveRoom rfl huser
  | cmdListRoom => exact executes_loginFirst fun _ ↦ executes_listRoom
  | cmdHistory roomId limit => exact executes_loginFirst fun _ ↦ executes_history roomId limit

omit [LinearOrder Bytes] in
theorem mem_refresh {command : RegistryCommand} {make : List Int → RegistryCommand}
    {rooms : Except DbError (List Int)} (hcommand : command ∈ DbExecutor.refresh make rooms) :
    ∃ roomIds, command = make roomIds := by
  cases rooms with
  | error error => cases hcommand
  | ok roomIds => exact ⟨roomIds, List.mem_singleton.mp hcommand⟩

/-- Only a login sets the user of a connection, and only an accepted one to a user that is not
empty. -/
theorem Executes.setUserId_mem {next : Database Bytes} {commands : List RegistryCommand}
    {identity : Option Bytes} (hexecutes : Executes env task db next commands identity) {fd : Int}
    {userId : Bytes} (hcommand : .setUserId fd userId ∈ commands) :
    identity = some userId ∧
      (userId ≠ [] → ∃ pw, task.cmd = .cmdLogin userId pw) := by
  cases hexecutes with
  | quiet _ hsame => cases hcommand
  | login id pw hcmd haccepted =>
    obtain ⟨-, rfl⟩ : fd = task.fd ∧ userId = id := by simpa using hcommand
    exact ⟨rfl, fun _ ↦ ⟨pw, hcmd⟩⟩
  | logout id pw hcmd =>
    obtain ⟨-, rfl⟩ : fd = task.fd ∧ userId = [] := by simpa using hcommand
    exact ⟨rfl, fun huser ↦ absurd rfl huser⟩
  | say roomId id message _ hwrite => simp at hcommand
  | createRoom roomName roomId _ hcmd huser hok hwrite =>
    obtain ⟨roomIds, hmake⟩ := mem_refresh hcommand
    cases hmake
  | deleteRoom value roomId _ hcmd hroom huser hok hwrite =>
    obtain ⟨roomIds, hmake⟩ := mem_refresh hcommand
    cases hmake
  | inviteRoom value friendUserId roomId _ hcmd hroom hself huser hok hwrite =>
    rcases List.mem_append.mp hcommand with hfirst | hsecond
    · obtain ⟨roomIds, hmake⟩ := mem_refresh hfirst
      cases hmake
    · obtain ⟨roomIds, hmake⟩ := mem_refresh hsecond
      cases hmake
  | leaveRoom value roomId _ hcmd hroom huser hok hwrite =>
    obtain ⟨roomIds, hmake⟩ := mem_refresh hcommand
    cases hmake

/-- A task commits one message, as far as PostgreSQL reads it, and broadcasts it whole, or it
commits and broadcasts none. -/
theorem Executes.committed {next : Database Bytes} {commands : List RegistryCommand}
    {identity : Option Bytes} (hexecutes : Executes env task db next commands identity) :
    (∃ (row : MessageRow Bytes) (message : Bytes), db.nextMessageId ≤ row.id ∧
      db.IsRoom row.roomId ∧ row.body = sqlText message ∧
      next = { db with messages := db.messages ++ [row], nextMessageId := row.id + 1 } ∧
      commands = [.roomBroadcast task.fd row.roomId (.cmdResponse message)]) ∨
    (next.messages.Sublist db.messages ∧ next.nextMessageId = db.nextMessageId ∧
      ∀ fd roomId cmd, .roomBroadcast fd roomId cmd ∉ commands) := by
  cases hexecutes with
  | quiet _ hsame =>
    refine Or.inr ⟨?_, hsame.nextMessageId, fun _ _ _ ↦ List.not_mem_nil⟩
    rw [hsame.messages]
  | login id pw hcmd haccepted => exact Or.inr ⟨List.Sublist.refl _, rfl, by simp⟩
  | logout id pw hcmd => exact Or.inr ⟨List.Sublist.refl _, rfl, by simp⟩
  | say roomId id message _ hwrite =>
    obtain ⟨hroom, hid, rfl⟩ := createRoomMessage_eq_ok hwrite
    refine Or.inl ⟨⟨id, roomId, sqlText task.userId, sqlText message, env.now⟩, message, ?_, hroom,
      rfl, rfl, rfl⟩
    show db.nextMessageId ≤ id
    omega
  | createRoom roomName roomId _ hcmd huser hok hwrite =>
    obtain ⟨-, -, rfl⟩ := Transaction.createRoom_cases hwrite
    refine Or.inr ⟨List.Sublist.refl _, rfl, fun _ _ _ hmem ↦ ?_⟩
    obtain ⟨roomIds, hmake⟩ := mem_refresh hmem
    cases hmake
  | deleteRoom value roomId _ hcmd hroom huser hok hwrite =>
    obtain ⟨-, rfl⟩ := deleteRoom_eq_ok hwrite
    refine Or.inr ⟨List.filter_sublist, rfl, fun _ _ _ hmem ↦ ?_⟩
    obtain ⟨roomIds, hmake⟩ := mem_refresh hmem
    cases hmake
  | inviteRoom value friendUserId roomId _ hcmd hroom hself huser hok hwrite =>
    obtain ⟨members, rfl⟩ := inviteRoom_eq_ok hwrite
    refine Or.inr ⟨List.Sublist.refl _, rfl, fun _ _ _ hmem ↦ ?_⟩
    rcases List.mem_append.mp hmem with hfirst | hsecond
    · obtain ⟨roomIds, hmake⟩ := mem_refresh hfirst
      cases hmake
    · obtain ⟨roomIds, hmake⟩ := mem_refresh hsecond
      cases hmake
  | leaveRoom value roomId _ hcmd hroom huser hok hwrite =>
    obtain ⟨members, rfl⟩ := leaveRoom_eq_ok hwrite
    refine Or.inr ⟨List.Sublist.refl _, rfl, fun _ _ _ hmem ↦ ?_⟩
    obtain ⟨roomIds, hmake⟩ := mem_refresh hmem
    cases hmake

/-- The constraints of the schema hold after every task. -/
theorem valid_execute (hvalid : db.Valid) : (DbExecutor.execute env task db).1.Valid := by
  have hwrite {Result : Type} {result : DbResult Bytes Result}
      (hnext : ∀ value next, result = .ok (value, next) → next.Valid) :
      (env.write 0 db result).2.Valid := write_preserves hvalid hnext
  unfold DbExecutor.execute DbExecutor.loginFirst
  cases task.cmd
  all_goals
    dsimp only [DbExecutor.executeLogin, DbExecutor.executeRegister, DbExecutor.executeSay,
      DbExecutor.executeNick, DbExecutor.executeFriendRequest, DbExecutor.executeFriendAccept,
      DbExecutor.executeFriendReject, DbExecutor.executeFriendRemove,
      DbExecutor.executeListFriend, DbExecutor.executeListFriendRequest,
      DbExecutor.executeCreateRoom, DbExecutor.executeDeleteRoom, DbExecutor.executeInviteRoom,
      DbExecutor.executeLeaveRoom, DbExecutor.executeListRoom, DbExecutor.executeHistory,
      DbExecutor.replyResult, DbExecutor.invalidRoomId, DbExecutor.refresh]
    repeat' split
  all_goals
    first
      | exact hvalid
      | exact hwrite fun _ _ ↦ valid_signup hvalid
      | exact hwrite fun _ _ ↦ valid_createRoomMessage hvalid
      | exact hwrite fun _ _ ↦ valid_changeNickname hvalid
      | exact hwrite fun _ _ ↦ valid_requestFriend hvalid
      | exact hwrite fun _ _ ↦ valid_acceptFriendRequest hvalid
      | exact hwrite fun _ _ ↦ valid_rejectFriendRequest hvalid
      | exact hwrite fun _ _ ↦ valid_removeFriend hvalid
      | exact hwrite fun _ _ ↦ valid_createRoom hvalid
      | exact hwrite fun _ _ ↦ valid_deleteRoom hvalid
      | exact hwrite fun _ _ ↦ valid_inviteRoom hvalid
      | exact hwrite fun _ _ ↦ valid_leaveRoom hvalid
end Tasks

end ChatServer
