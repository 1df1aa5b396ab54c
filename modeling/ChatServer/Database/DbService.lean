import ChatServer.Database.Integrity

/-!
# The database service

`db_service` is one function for each operation. It binds the texts it is called with as parameters,
so its transaction works with what PostgreSQL reads in them (`sqlText`), while the code keeps the
whole texts. In `leave_room` it compares one of them with the owner of a room.

`ServiceCall` is one call of a writing operation with its arguments and timestamp,
`ServiceCall.bind` the transaction it makes, `ServiceCall.run` the database after it, and
`Database.served` the database after a sequence of calls on the empty schema. A call runs its
transaction (`ServiceCall.run_eq`), so that a sequence of calls is a sequence of transactions
(`served_eq_after`), and the ids that it stores have no NUL (`idsWhole_served`).
-/

set_option autoImplicit false
set_option relaxedAutoImplicit false

namespace ChatServer

namespace DbService

variable [LinearOrder Bytes]

/-! ### Accounts -/

/-- `db_service::login`. -/
def login (id pw : Bytes) (db : Database Bytes) : Option Bytes :=
  Transaction.login (sqlText id) (sqlText pw) db

/-- `db_service::signup`. -/
def signup (id pw : Bytes) (db : Database Bytes) : DbResult Bytes Bool :=
  Transaction.signup (sqlText id) (sqlText pw) db

/-- `db_service::change_nickname`. -/
def changeNickname (id nickname : Bytes) (db : Database Bytes) : DbResult Bytes Bool :=
  Transaction.changeNickname (sqlText id) (sqlText nickname) db

/-! ### Friends -/

/-- `db_service::add_friend`. -/
def addFriend (now : Int) (userId friendId : Bytes) (db : Database Bytes) : DbResult Bytes Bool :=
  Transaction.addFriend now (sqlText userId) (sqlText friendId) db

/-- `db_service::remove_friend`. -/
def removeFriend (userId friendId : Bytes) (db : Database Bytes) : DbResult Bytes Bool :=
  Transaction.removeFriend (sqlText userId) (sqlText friendId) db

/-- `db_service::list_friends`. -/
def listFriends (userId : Bytes) (db : Database Bytes) : List Bytes :=
  Transaction.listFriends (sqlText userId) db

/-- `db_service::request_friend`. -/
def requestFriend (now : Int) (fromUserId toUserId : Bytes) (db : Database Bytes) :
    DbResult Bytes Bool :=
  Transaction.requestFriend now (sqlText fromUserId) (sqlText toUserId) db

/-- `db_service::accept_friend_request`. -/
def acceptFriendRequest (now : Int) (fromUserId toUserId : Bytes) (db : Database Bytes) :
    DbResult Bytes Bool :=
  Transaction.acceptFriendRequest now (sqlText fromUserId) (sqlText toUserId) db

/-- `db_service::reject_friend_request`. -/
def rejectFriendRequest (now : Int) (fromUserId toUserId : Bytes) (db : Database Bytes) :
    DbResult Bytes Bool :=
  Transaction.rejectFriendRequest now (sqlText fromUserId) (sqlText toUserId) db

/-- `db_service::list_friend_requests`. -/
def listFriendRequests (toUserId : Bytes) (db : Database Bytes) : List Bytes :=
  Transaction.listFriendRequests (sqlText toUserId) db

/-! ### Rooms -/

/-- `db_service::create_room`. -/
def createRoom (now : Int) (gap : Nat) (ownerUserId roomName : Bytes) (db : Database Bytes) :
    DbResult Bytes Int :=
  Transaction.createRoom now gap (sqlText ownerUserId) (sqlText roomName) db

/-- `db_service::delete_room`. -/
def deleteRoom (ownerUserId : Bytes) (roomId : Int) (db : Database Bytes) : DbResult Bytes Bool :=
  Transaction.deleteRoom (sqlText ownerUserId) roomId db

/-- `db_service::invite_room`. -/
def inviteRoom (now : Int) (inviterUserId : Bytes) (roomId : Int) (friendUserId : Bytes)
    (db : Database Bytes) : DbResult Bytes InviteRoomResult :=
  Transaction.inviteRoom now (sqlText inviterUserId) roomId (sqlText friendUserId) db

/-- `db_service::create_room_message`. -/
def createRoomMessage (now : Int) (gap : Nat) (roomId : Int) (senderUserId body : Bytes)
    (db : Database Bytes) : DbResult Bytes (Option Int) :=
  Transaction.createRoomMessage now gap roomId (sqlText senderUserId) (sqlText body) db

/-- `db_service::leave_room`. The owner is compared with the whole text. -/
def leaveRoom (userId : Bytes) (roomId : Int) (db : Database Bytes) :
    DbResult Bytes LeaveRoomResult :=
  Transaction.leaveRoom userId (sqlText userId) roomId db

/-! ### Room queries -/

/-- `db_service::list_rooms`. -/
def listRooms (userId : Bytes) (db : Database Bytes) : List (RoomInfo Bytes) :=
  Transaction.listRooms (sqlText userId) db

/-- `db_service::list_room_messages`. -/
def listRoomMessages (userId : Bytes) (roomId : Int) (limit : Nat) (db : Database Bytes) :
    Option (List (MessageInfo Bytes)) :=
  Transaction.listRoomMessages (sqlText userId) roomId limit db

end DbService

/-! ### Sequences of writing calls -/

/-- One call of a writing operation of `db_service`. -/
inductive ServiceCall
  | signup (id pw : Bytes)
  | changeNickname (id nickname : Bytes)
  | addFriend (now : Int) (userId friendId : Bytes)
  | removeFriend (userId friendId : Bytes)
  | requestFriend (now : Int) (fromUserId toUserId : Bytes)
  | acceptFriendRequest (now : Int) (fromUserId toUserId : Bytes)
  | rejectFriendRequest (now : Int) (fromUserId toUserId : Bytes)
  | createRoom (now : Int) (gap : Nat) (ownerUserId roomName : Bytes)
  | deleteRoom (ownerUserId : Bytes) (roomId : Int)
  | inviteRoom (now : Int) (inviterUserId : Bytes) (roomId : Int) (friendUserId : Bytes)
  | createRoomMessage (now : Int) (gap : Nat) (roomId : Int) (senderUserId body : Bytes)
  | leaveRoom (userId : Bytes) (roomId : Int)

/-- The transaction of a call. -/
def ServiceCall.bind : ServiceCall → WriteCall Bytes
  | .signup id pw => .signup (sqlText id) (sqlText pw)
  | .changeNickname id nickname => .changeNickname (sqlText id) (sqlText nickname)
  | .addFriend now userId friendId => .addFriend now (sqlText userId) (sqlText friendId)
  | .removeFriend userId friendId => .removeFriend (sqlText userId) (sqlText friendId)
  | .requestFriend now fromUserId toUserId =>
    .requestFriend now (sqlText fromUserId) (sqlText toUserId)
  | .acceptFriendRequest now fromUserId toUserId =>
    .acceptFriendRequest now (sqlText fromUserId) (sqlText toUserId)
  | .rejectFriendRequest now fromUserId toUserId =>
    .rejectFriendRequest now (sqlText fromUserId) (sqlText toUserId)
  | .createRoom now gap ownerUserId roomName =>
    .createRoom now gap (sqlText ownerUserId) (sqlText roomName)
  | .deleteRoom ownerUserId roomId => .deleteRoom (sqlText ownerUserId) roomId
  | .inviteRoom now inviterUserId roomId friendUserId =>
    .inviteRoom now (sqlText inviterUserId) roomId (sqlText friendUserId)
  | .createRoomMessage now gap roomId senderUserId body =>
    .createRoomMessage now gap roomId (sqlText senderUserId) (sqlText body)
  | .leaveRoom userId roomId => .leaveRoom userId (sqlText userId) roomId

section Calls

variable [LinearOrder Bytes]

/-- The database after one call. -/
def ServiceCall.run (call : ServiceCall) (db : Database Bytes) : Database Bytes :=
  match call with
  | .signup id pw => DbResult.committed db (DbService.signup id pw db)
  | .changeNickname id nickname => DbResult.committed db (DbService.changeNickname id nickname db)
  | .addFriend now userId friendId =>
    DbResult.committed db (DbService.addFriend now userId friendId db)
  | .removeFriend userId friendId =>
    DbResult.committed db (DbService.removeFriend userId friendId db)
  | .requestFriend now fromUserId toUserId =>
    DbResult.committed db (DbService.requestFriend now fromUserId toUserId db)
  | .acceptFriendRequest now fromUserId toUserId =>
    DbResult.committed db (DbService.acceptFriendRequest now fromUserId toUserId db)
  | .rejectFriendRequest now fromUserId toUserId =>
    DbResult.committed db (DbService.rejectFriendRequest now fromUserId toUserId db)
  | .createRoom now gap ownerUserId roomName =>
    DbResult.committed db (DbService.createRoom now gap ownerUserId roomName db)
  | .deleteRoom ownerUserId roomId =>
    DbResult.committed db (DbService.deleteRoom ownerUserId roomId db)
  | .inviteRoom now inviterUserId roomId friendUserId =>
    DbResult.committed db (DbService.inviteRoom now inviterUserId roomId friendUserId db)
  | .createRoomMessage now gap roomId senderUserId body =>
    DbResult.committed db (DbService.createRoomMessage now gap roomId senderUserId body db)
  | .leaveRoom userId roomId => DbResult.committed db (DbService.leaveRoom userId roomId db)

/-- A call runs its transaction. -/
theorem ServiceCall.run_eq (call : ServiceCall) (db : Database Bytes) :
    call.run db = call.bind.run db := by
  cases call <;> rfl

/-- The database after a sequence of calls on the empty schema. -/
def Database.served (calls : List ServiceCall) : Database Bytes :=
  calls.foldl (fun db call ↦ call.run db) (Database.empty Bytes)

@[simp] theorem Database.served_nil : Database.served [] = Database.empty Bytes :=
  rfl

@[simp] theorem Database.served_concat (calls : List ServiceCall) (call : ServiceCall) :
    Database.served (calls ++ [call]) = call.run (Database.served calls) := by
  simp [Database.served]

/-- A sequence of calls is the sequence of their transactions. -/
theorem served_eq_after (calls : List ServiceCall) :
    Database.served calls = Database.after (calls.map ServiceCall.bind) := by
  induction calls using List.reverseRecOn with
  | nil => rfl
  | append_singleton calls call ih =>
    rw [Database.served_concat, ih, ServiceCall.run_eq, List.map_append, List.map_singleton,
      Database.after_concat]

/-- Every database after a sequence of calls satisfies the constraints of the schema. -/
theorem valid_served (calls : List ServiceCall) : (Database.served calls).Valid := by
  rw [served_eq_after]
  exact valid_after _

/-! ### Ids that the tables know -/

/-- No id that the tables know has a NUL. -/
def Database.IdsWhole (db : Database Bytes) : Prop :=
  ∀ user, db.IsUser user → 0 ∉ user

variable {db : Database Bytes}

/-- An id is stored by a signup, which stores what PostgreSQL reads. -/
theorem ServiceCall.idsWhole_run (call : ServiceCall) (hwhole : db.IdsWhole) :
    (call.run db).IdsWhole := by
  intro user huser
  rw [ServiceCall.run_eq] at huser
  rcases isUser_run huser with hold | ⟨pw, hcall⟩
  · exact hwhole user hold
  · cases call with
    | signup id pw =>
      obtain ⟨rfl, -⟩ := WriteCall.signup.inj hcall
      exact zero_notMem_sqlText id
    | _ => cases hcall

omit [LinearOrder Bytes] in
theorem idsWhole_empty : (Database.empty Bytes).IdsWhole := by
  rintro user ⟨row, hrow, -⟩
  cases hrow

theorem idsWhole_served (calls : List ServiceCall) : (Database.served calls).IdsWhole := by
  induction calls using List.reverseRecOn with
  | nil => exact idsWhole_empty
  | append_singleton calls call ih =>
    rw [Database.served_concat]
    exact call.idsWhole_run ih

/-- Members are users. -/
theorem Database.IdsWhole.of_isMember (hwhole : db.IdsWhole) (hvalid : db.Valid)
    {roomId : Int} {user : Bytes} (hmember : db.IsMember roomId user) : 0 ∉ user := by
  obtain ⟨row, hrow, hkey⟩ := hmember
  have huser := (hvalid.roomMemberRefs row hrow).2
  rw [(Prod.mk.inj hkey).2] at huser
  exact hwhole user huser

end Calls

end ChatServer
