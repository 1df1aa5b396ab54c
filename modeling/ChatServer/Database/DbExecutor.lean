import ChatServer.Database.DbService
import ChatServer.Reactor.EpollRegistry

/-!
# The database executor

The worker of `db_executor` takes a task out of its queue, calls `db_service` and queues commands to
the registry. A task carries a descriptor and a user id, both copied from the connection when the
command line was parsed.

`execute` is one task: the database it leaves and the commands it queues, in order. `DbEnv` is what
the task takes from outside: which of its database calls fail, with which error, the timestamp and
the identity values of its transaction, and the text PostgreSQL casts a timestamp to. A call that
fails leaves the database as it was.

Not modelled here: logging. The queue of tasks, the threads and `stop` are a model of their own.
-/

set_option autoImplicit false
set_option relaxedAutoImplicit false

namespace ChatServer

/-- `db_executor::task`. -/
structure Task where
  cmd : Command
  fd : Int
  userId : Bytes
  deriving DecidableEq

/-- What a task takes from outside; `fails n` is the error of its call number `n`. -/
structure DbEnv where
  fails : Nat → Option DbError
  now : Int
  gap : Nat
  timestampText : Int → Bytes

namespace DbEnv

/-- A writing call: its result and the database after it. -/
def write {Result : Type} (env : DbEnv) (n : Nat) (db : Database Bytes)
    (result : DbResult Bytes Result) : Except DbError Result × Database Bytes :=
  match env.fails n with
  | some error => (.error error, db)
  | none =>
    match result with
    | .error error => (.error error, db)
    | .ok (value, next) => (.ok value, next)

/-- A reading call. -/
def read {Result : Type} (env : DbEnv) (n : Nat) (result : Result) : Except DbError Result :=
  match env.fails n with
  | some error => .error error
  | none => .ok result

end DbEnv

/-- `db_executor::is_db_command`. -/
def isDbCommand : Command → Bool
  | .cmdResponse _ => false
  | _ => true

namespace DbExecutor

/-- The database after a task and the commands it queues. -/
abbrev Executed := Database Bytes × List RegistryCommand

/-- `reg.request_send(fd, command_codec::cmd_response{…})`. -/
def reply (fd : Int) (message : Bytes) : RegistryCommand :=
  .sendOne fd (.cmdResponse message)

/-- The conversion of a room id: decimal digits to the end, and positive. -/
def parseRoomId (value : Bytes) : Option Int :=
  match stoll value with
  | none => none
  | some (roomId, pos) => if pos ≠ value.length ∨ roomId ≤ 0 then none else some roomId

/-- The conversion of a history limit: decimal digits to the end, from 1 to 100. -/
def parseLimit (value : Bytes) : Option Nat :=
  match stoll value with
  | none => none
  | some (limit, pos) =>
    if pos ≠ value.length ∨ limit ≤ 0 ∨ limit > 100 then none else some limit.toNat

variable [LinearOrder Bytes]

/-- `load_joined_room_ids`. -/
def loadJoinedRoomIds (userId : Bytes) (db : Database Bytes) : List Int :=
  (DbService.listRooms userId db).map RoomInfo.id

/-! ### Accounts -/

/-- The commands of a login that failed on an error. -/
def loginError (fd : Int) : List RegistryCommand :=
  [reply fd (text "login failed"), .setUserId fd [], .setJoinedRooms fd [],
    .changeNickname fd (text "guest")]

/-- `execute_command(cmd_login)`. -/
def executeLogin (env : DbEnv) (fd : Int) (id pw : Bytes) (db : Database Bytes) : Executed :=
  match env.read 0 (DbService.login id pw db) with
  | .error _ => (db, loginError fd)
  | .ok (some nickname) =>
    match env.read 1 (loadJoinedRoomIds id db) with
    | .error _ => (db, loginError fd)
    | .ok roomIds =>
      (db, [.setUserId fd id, .setJoinedRooms fd roomIds, .changeNickname fd nickname,
        reply fd (text "login success")])
  | .ok none =>
    (db, [.setUserId fd [], .setJoinedRooms fd [], .changeNickname fd (text "guest"),
      reply fd (text "login failed")])

/-- `execute_command(cmd_register)`. -/
def executeRegister (env : DbEnv) (fd : Int) (id pw : Bytes) (db : Database Bytes) : Executed :=
  let signup := env.write 0 db (DbService.signup id pw db)
  match signup.1 with
  | .error _ => (signup.2, [reply fd (text "register failed")])
  | .ok created =>
    (signup.2, [reply fd (if created then text "register success" else text "id already exists")])

/-- `execute_command(cmd_nick)`. -/
def executeNick (env : DbEnv) (fd : Int) (userId nick : Bytes) (db : Database Bytes) : Executed :=
  let changed := env.write 0 db (DbService.changeNickname userId nick db)
  match changed.1 with
  | .error _ => (changed.2, [reply fd (text "nick change failed")])
  | .ok false => (changed.2, [reply fd (text "nick change failed")])
  | .ok true => (changed.2, [.changeNickname fd nick, reply fd (text "nick change success")])

/-! ### Friends -/

/-- The end that the four writing friend commands share: one reply for an error, one for `false`,
one for `true`. -/
def replyResult (fd : Int) (result : Except DbError Bool × Database Bytes)
    (failed refused done : Bytes) : Executed :=
  match result.1 with
  | .error _ => (result.2, [reply fd failed])
  | .ok false => (result.2, [reply fd refused])
  | .ok true => (result.2, [reply fd done])

/-- `execute_command(cmd_friend_request)`. -/
def executeFriendRequest (env : DbEnv) (fd : Int) (userId toUserId : Bytes)
    (db : Database Bytes) : Executed :=
  if userId = toUserId then (db, [reply fd (text "cannot request yourself")])
  else
    replyResult fd (env.write 0 db (DbService.requestFriend env.now userId toUserId db))
      (text "friend request failed") (text "friend request already exists or already friends")
      (text "friend request sent")

/-- `execute_command(cmd_friend_accept)`. -/
def executeFriendAccept (env : DbEnv) (fd : Int) (userId fromUserId : Bytes)
    (db : Database Bytes) : Executed :=
  replyResult fd (env.write 0 db (DbService.acceptFriendRequest env.now fromUserId userId db))
    (text "friend request accept failed") (text "no pending friend request")
    (text "friend request accepted")

/-- `execute_command(cmd_friend_reject)`. -/
def executeFriendReject (env : DbEnv) (fd : Int) (userId fromUserId : Bytes)
    (db : Database Bytes) : Executed :=
  replyResult fd (env.write 0 db (DbService.rejectFriendRequest env.now fromUserId userId db))
    (text "friend request reject failed") (text "no pending friend request")
    (text "friend request rejected")

/-- `execute_command(cmd_friend_remove)`. -/
def executeFriendRemove (env : DbEnv) (fd : Int) (userId friendUserId : Bytes)
    (db : Database Bytes) : Executed :=
  if userId = friendUserId then (db, [reply fd (text "cannot remove yourself")])
  else
    replyResult fd (env.write 0 db (DbService.removeFriend userId friendUserId db))
      (text "friend remove failed") (text "friend not found") (text "friend removed")

/-- `execute_command(cmd_list_friend)`. -/
def executeListFriend (env : DbEnv) (fd : Int) (userId : Bytes) (db : Database Bytes) : Executed :=
  match env.read 0 (DbService.listFriends userId db) with
  | .error _ => (db, [reply fd (text "friend list failed")])
  | .ok friendIds =>
    if friendIds = [] then (db, [reply fd (text "no friends")])
    else (db, [.sendFriendList fd friendIds])

/-- `execute_command(cmd_list_friend_request)`. -/
def executeListFriendRequest (env : DbEnv) (fd : Int) (userId : Bytes) (db : Database Bytes) :
    Executed :=
  match env.read 0 (DbService.listFriendRequests userId db) with
  | .error _ => (db, [reply fd (text "friend requests list failed")])
  | .ok fromUserIds =>
    if fromUserIds = [] then (db, [reply fd (text "no pending friend requests")])
    else
      (db, reply fd (text "pending friend requests: " ++ toText fromUserIds.length) ::
        fromUserIds.map fun fromUserId ↦ reply fd (text "from: " ++ fromUserId))

/-! ### Rooms -/

/-- The reply to a room id that is not one. -/
def invalidRoomId (fd : Int) (db : Database Bytes) : Executed :=
  (db, [reply fd (text "invalid room id")])

/-- A refresh: the command when the rooms were read, nothing when that failed. -/
def refresh (command : List Int → RegistryCommand) (rooms : Except DbError (List Int)) :
    List RegistryCommand :=
  match rooms with
  | .error _ => []
  | .ok roomIds => [command roomIds]

/-- `execute_command(cmd_say)`. -/
def executeSay (env : DbEnv) (fd : Int) (userId roomId message : Bytes) (db : Database Bytes) :
    Executed :=
  match parseRoomId roomId with
  | none => invalidRoomId fd db
  | some roomId =>
    let created := env.write 0 db
      (DbService.createRoomMessage env.now env.gap roomId userId message db)
    match created.1 with
    | .error _ => (created.2, [reply fd (text "send failed")])
    | .ok none => (created.2, [reply fd (text "room not found or no permission")])
    | .ok (some _) => (created.2, [.roomBroadcast fd roomId (.cmdResponse message)])

/-- `execute_command(cmd_create_room)`. -/
def executeCreateRoom (env : DbEnv) (fd : Int) (userId roomName : Bytes) (db : Database Bytes) :
    Executed :=
  if roomName = [] then (db, [reply fd (text "room name is empty")])
  else
    let created := env.write 0 db (DbService.createRoom env.now env.gap userId roomName db)
    match created.1 with
    | .error _ => (created.2, [reply fd (text "create room failed")])
    | .ok roomId =>
      (created.2,
        reply fd (text "room created: " ++ toText roomId ++ text " (" ++ roomName ++ text ")") ::
          refresh (.setJoinedRooms fd) (env.read 1 (loadJoinedRoomIds userId created.2)))

/-- `execute_command(cmd_delete_room)`. -/
def executeDeleteRoom (env : DbEnv) (fd : Int) (userId roomId : Bytes) (db : Database Bytes) :
    Executed :=
  match parseRoomId roomId with
  | none => invalidRoomId fd db
  | some roomId =>
    let deleted := env.write 0 db (DbService.deleteRoom userId roomId db)
    match deleted.1 with
    | .error _ => (deleted.2, [reply fd (text "delete room failed")])
    | .ok false => (deleted.2, [reply fd (text "room not found or no permission")])
    | .ok true =>
      (deleted.2,
        refresh (.setJoinedRooms fd) (env.read 1 (loadJoinedRoomIds userId deleted.2)) ++
          [reply fd (text "room deleted: " ++ toText roomId)])

/-- `execute_command(cmd_invite_room)`. -/
def executeInviteRoom (env : DbEnv) (fd : Int) (userId roomId friendUserId : Bytes)
    (db : Database Bytes) : Executed :=
  if userId = friendUserId then (db, [reply fd (text "cannot invite yourself")])
  else
    match parseRoomId roomId with
    | none => invalidRoomId fd db
    | some roomId =>
      let invited := env.write 0 db
        (DbService.inviteRoom env.now userId roomId friendUserId db)
      match invited.1 with
      | .error _ => (invited.2, [reply fd (text "invite room failed")])
      | .ok .invited =>
        (invited.2,
          refresh (.setJoinedRoomsForUser userId)
              (env.read 1 (loadJoinedRoomIds userId invited.2)) ++
            refresh (.setJoinedRoomsForUser friendUserId)
              (env.read 2 (loadJoinedRoomIds friendUserId invited.2)) ++
            [reply fd (text "room invite sent: room=" ++ toText roomId ++ text " user=" ++
              friendUserId)])
      | .ok .alreadyMember => (invited.2, [reply fd (text "user already in room")])
      | .ok .notFriend => (invited.2, [reply fd (text "can invite friends only")])
      | .ok .roomNotFoundOrNoPermission =>
        (invited.2, [reply fd (text "room not found or no permission")])

/-- `execute_command(cmd_leave_room)`. -/
def executeLeaveRoom (env : DbEnv) (fd : Int) (userId roomId : Bytes) (db : Database Bytes) :
    Executed :=
  match parseRoomId roomId with
  | none => invalidRoomId fd db
  | some roomId =>
    let left := env.write 0 db (DbService.leaveRoom userId roomId db)
    match left.1 with
    | .error _ => (left.2, [reply fd (text "leave room failed")])
    | .ok .left =>
      (left.2,
        refresh (.setJoinedRoomsForUser userId) (env.read 1 (loadJoinedRoomIds userId left.2)) ++
          [reply fd (text "left room: " ++ toText roomId)])
    | .ok .notMemberOrRoomNotFound => (left.2, [reply fd (text "room not found or not joined")])
    | .ok .ownerCannotLeave =>
      (left.2, [reply fd (text "room owner cannot leave (delete room instead)")])

/-- `execute_command(cmd_list_room)`. -/
def executeListRoom (env : DbEnv) (fd : Int) (userId : Bytes) (db : Database Bytes) : Executed :=
  match env.read 0 (DbService.listRooms userId db) with
  | .error _ => (db, [reply fd (text "list room failed")])
  | .ok rooms =>
    if rooms.isEmpty then (db, [reply fd (text "no rooms")])
    else
      (db, reply fd (text "rooms: " ++ toText rooms.length) ::
        rooms.map fun room ↦
          reply fd (text "room: id=" ++ toText room.id ++ text " name=" ++ room.name ++
            text " owner=" ++ room.ownerUserId ++ text " members=" ++ toText room.memberCount))

/-- `execute_command(cmd_history)`. -/
def executeHistory (env : DbEnv) (fd : Int) (userId roomId limit : Bytes) (db : Database Bytes) :
    Executed :=
  match parseRoomId roomId with
  | none => invalidRoomId fd db
  | some roomId =>
    match parseLimit limit with
    | none => (db, [reply fd (text "invalid limit (1-100)")])
    | some limit =>
      match env.read 0 (DbService.listRoomMessages userId roomId limit db) with
      | .error _ => (db, [reply fd (text "history query failed")])
      | .ok none => (db, [reply fd (text "room not found or no permission")])
      | .ok (some history) =>
        (db, reply fd (text "history: room=" ++ toText roomId ++ text " count=" ++
            toText history.length) ::
          history.map fun msg ↦
            reply fd (text "history: id=" ++ toText msg.id ++ text " at=" ++
              env.timestampText msg.createdAt ++ text " from=" ++ msg.senderUserId ++
              text " text=" ++ msg.body))

/-! ### Tasks -/

/-- The guard of every command that needs a user. -/
def loginFirst (task : Task) (db : Database Bytes) (execute : Executed) : Executed :=
  if task.userId = [] then (db, [reply task.fd (text "login first")]) else execute

/-- `db_executor::execute`. -/
def execute (env : DbEnv) (task : Task) (db : Database Bytes) : Executed :=
  match task.cmd with
  | .cmdLogin id pw => executeLogin env task.fd id pw db
  | .cmdRegister id pw => executeRegister env task.fd id pw db
  | .cmdResponse _ => (db, [])
  | .cmdSay roomId message =>
    loginFirst task db (executeSay env task.fd task.userId roomId message db)
  | .cmdNick nick => loginFirst task db (executeNick env task.fd task.userId nick db)
  | .cmdFriendRequest toUserId =>
    loginFirst task db (executeFriendRequest env task.fd task.userId toUserId db)
  | .cmdFriendAccept fromUserId =>
    loginFirst task db (executeFriendAccept env task.fd task.userId fromUserId db)
  | .cmdFriendReject fromUserId =>
    loginFirst task db (executeFriendReject env task.fd task.userId fromUserId db)
  | .cmdFriendRemove friendUserId =>
    loginFirst task db (executeFriendRemove env task.fd task.userId friendUserId db)
  | .cmdListFriend => loginFirst task db (executeListFriend env task.fd task.userId db)
  | .cmdListFriendRequest =>
    loginFirst task db (executeListFriendRequest env task.fd task.userId db)
  | .cmdCreateRoom roomName =>
    loginFirst task db (executeCreateRoom env task.fd task.userId roomName db)
  | .cmdDeleteRoom roomId =>
    loginFirst task db (executeDeleteRoom env task.fd task.userId roomId db)
  | .cmdInviteRoom roomId friendUserId =>
    loginFirst task db (executeInviteRoom env task.fd task.userId roomId friendUserId db)
  | .cmdLeaveRoom roomId =>
    loginFirst task db (executeLeaveRoom env task.fd task.userId roomId db)
  | .cmdListRoom => loginFirst task db (executeListRoom env task.fd task.userId db)
  | .cmdHistory roomId limit =>
    loginFirst task db (executeHistory env task.fd task.userId roomId limit db)

end DbExecutor

end ChatServer
