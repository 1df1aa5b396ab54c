import ChatServer.Database.Schema

/-!
# The transactions of the database service

Each operation of `db_service` is a transaction of one to three SQL statements under the service's
mutex. This module has the transactions on the values that PostgreSQL reads in their parameters;
`DbService` has the operations on the texts they are called with. A writing transaction returns its
result with the database it commits, or the error code its exception is mapped to, and then nothing
is committed. A reading one returns its result. `now` is the transaction's timestamp, and `gap`
counts the identity values that earlier failed transactions have used up, so ids rise but need not
be consecutive.

Only `leave_room` compares an id outside SQL. Its transaction has both, the id that the code
compares with the owner and the id that PostgreSQL reads.

The statements are those of the source, clause by clause: `Table` has the meaning of `INSERT`,
`UPDATE` and `DELETE`, a check constraint is tested before the conflict clause of an `INSERT`, and a
foreign key only for a row that is really inserted. pqxx reports every violated constraint as a
subclass of `pqxx::sql_error`.

Each writing transaction with more than one outcome has a lemma `_cases` that says all a successful
one does, with the tests it has passed, so that no other proof unfolds it.

`WriteCall` is one writing transaction with its values and timestamp, `WriteCall.run` the database
after it, and `Database.after` the database after a sequence of them on the empty schema.
-/

set_option autoImplicit false
set_option relaxedAutoImplicit false

namespace ChatServer

/-- `db_connector::db_error`. -/
inductive DbError
  | unknownException
  | missingPasswordEnv
  | brokenConnection
  | sqlError
  | transactionRollback
  | serializationFailure
  | deadlockDetected
  | inDoubtError
  | permissionDenied
  | uniqueViolation
  | foreignKeyViolation
  | notNullViolation
  | checkViolation
  deriving DecidableEq

/-- `db_service::invite_room_result`. -/
inductive InviteRoomResult
  | invited
  | alreadyMember
  | notFriend
  | roomNotFoundOrNoPermission
  deriving DecidableEq

/-- `db_service::leave_room_result`. -/
inductive LeaveRoomResult
  | left
  | notMemberOrRoomNotFound
  | ownerCannotLeave
  deriving DecidableEq

/-- `db_service::room_info`. -/
structure RoomInfo (User : Type) where
  id : Int
  name : Bytes
  ownerUserId : User
  memberCount : Nat
  deriving DecidableEq

/-- `db_service::message_info`, with the timestamp before its cast to text. -/
structure MessageInfo (User : Type) where
  id : Int
  senderUserId : User
  body : Bytes
  createdAt : Int
  deriving DecidableEq

/-- What a writing transaction returns: its result and the database it commits. -/
abbrev DbResult (User Result : Type) := Except DbError (Result × Database User)

namespace Transaction

variable {User : Type} [LinearOrder User]

/-! ### Accounts -/

/-- `db_service::login`. -/
def login (id : User) (pw : Bytes) (db : Database User) : Option Bytes :=
  (db.users.find? fun row ↦ decide (row.id = id ∧ row.pw = pw)).map UserRow.nickname

/-- `db_service::signup`. -/
def signup (id : User) (pw : Bytes) (db : Database User) : DbResult User Bool :=
  let inserted := Table.insertOrNothing UserRow.id ⟨id, pw, text "guest"⟩ db.users
  .ok (!inserted.2.isEmpty, { db with users := inserted.1 })

/-- `db_service::change_nickname`. -/
def changeNickname (id : User) (nickname : Bytes) (db : Database User) : DbResult User Bool :=
  let updated := Table.updateWhere (fun row ↦ decide (row.id = id))
    (fun row ↦ { row with nickname := nickname }) db.users
  .ok (!updated.2.isEmpty, { db with users := updated.1 })

/-! ### Friends -/

/-- `INSERT INTO social.friendships … VALUES (LEAST($1, $2), GREATEST($1, $2)) ON CONFLICT DO
NOTHING RETURNING`, with its checks and foreign keys. -/
def insertFriendship (now : Int) (first second : User) (db : Database User) :
    DbResult User Bool :=
  if ¬ min first second < max first second then .error .sqlError
  else
    let inserted := Table.insertOrNothing FriendshipRow.key
      ⟨min first second, max first second, now⟩ db.friendships
    if ¬ inserted.2.isEmpty ∧ ¬ (db.IsUser first ∧ db.IsUser second) then .error .sqlError
    else .ok (!inserted.2.isEmpty, { db with friendships := inserted.1 })

/-- `db_service::add_friend`. -/
def addFriend (now : Int) (userId friendId : User) (db : Database User) : DbResult User Bool :=
  insertFriendship now userId friendId db

/-- `db_service::remove_friend`. -/
def removeFriend (userId friendId : User) (db : Database User) : DbResult User Bool :=
  let deleted := Table.deleteWhere
    (fun row : FriendshipRow User ↦
      decide (row.userAId = min userId friendId ∧ row.userBId = max userId friendId))
    db.friendships
  .ok (!deleted.2.isEmpty, { db with friendships := deleted.1 })

/-- `db_service::list_friends`. -/
def listFriends (userId : User) (db : Database User) : List User :=
  ((db.friendships.filter fun row ↦ decide (row.userAId = userId ∨ row.userBId = userId)).map
    fun row ↦ if row.userAId = userId then row.userBId else row.userAId).insertionSort (· ≤ ·)

/-- `db_service::request_friend`. -/
def requestFriend (now : Int) (fromUserId toUserId : User) (db : Database User) :
    DbResult User Bool :=
  -- `INSERT … SELECT … WHERE NOT EXISTS` proposes no row for a pair of friends
  if db.AreFriends fromUserId toUserId then .ok (false, db)
  else if fromUserId = toUserId then .error .sqlError
  else
    let row : FriendRequestRow User := ⟨fromUserId, toUserId, .pending, now, now⟩
    let inserted := Table.insertOrUpdate FriendRequestRow.key row
      (fun old ↦ decide (old.status = .rejected ∨ old.status = .canceled))
      (fun old ↦ { old with status := .pending, updatedAt := now }) db.friendRequests
    if ¬ Table.conflict FriendRequestRow.key row db.friendRequests ∧
        ¬ (db.IsUser fromUserId ∧ db.IsUser toUserId) then .error .sqlError
    else .ok (!inserted.2.isEmpty, { db with friendRequests := inserted.1 })

/-- `UPDATE social.friend_requests SET status = … WHERE from_user_id = $1 AND to_user_id = $2 AND
status = 'pending' RETURNING`, the statement that accepting and rejecting share. -/
def answerRequest (status : RequestStatus) (now : Int) (fromUserId toUserId : User)
    (rows : List (FriendRequestRow User)) :
    List (FriendRequestRow User) × List (FriendRequestRow User) :=
  Table.updateWhere
    (fun row ↦ decide
      (row.fromUserId = fromUserId ∧ row.toUserId = toUserId ∧ row.status = .pending))
    (fun row ↦ { row with status := status, updatedAt := now }) rows

/-- `db_service::accept_friend_request`. -/
def acceptFriendRequest (now : Int) (fromUserId toUserId : User) (db : Database User) :
    DbResult User Bool :=
  let updated := answerRequest .accepted now fromUserId toUserId db.friendRequests
  let db := { db with friendRequests := updated.1 }
  if updated.2.isEmpty then .ok (false, db)
  else
    match insertFriendship now fromUserId toUserId db with
    | .error error => .error error
    | .ok (_, db) => .ok (true, db)

/-- `db_service::reject_friend_request`. -/
def rejectFriendRequest (now : Int) (fromUserId toUserId : User) (db : Database User) :
    DbResult User Bool :=
  let updated := answerRequest .rejected now fromUserId toUserId db.friendRequests
  .ok (!updated.2.isEmpty, { db with friendRequests := updated.1 })

/-- `db_service::list_friend_requests`. Rows of one timestamp keep the order of the table. -/
def listFriendRequests (toUserId : User) (db : Database User) : List User :=
  ((db.friendRequests.filter fun row ↦
      decide (row.toUserId = toUserId ∧ row.status = .pending)).insertionSort
    fun first second ↦ first.createdAt ≤ second.createdAt).map FriendRequestRow.fromUserId

/-! ### Rooms -/

/-- `db_service::create_room`. The `INSERT … RETURNING id` on `chat.rooms` always reports a row. -/
def createRoom (now : Int) (gap : Nat) (ownerUserId : User) (roomName : Bytes)
    (db : Database User) : DbResult User Int :=
  let roomId := db.nextRoomId + gap
  if ¬ db.IsUser ownerUserId then .error .sqlError
  else
    let members := Table.insertOrNothing RoomMemberRow.key ⟨roomId, ownerUserId, .owner, now⟩
      db.roomMembers
    .ok (roomId, { db with
      rooms := db.rooms ++ [⟨roomId, roomName, ownerUserId, now⟩]
      roomMembers := members.1
      nextRoomId := roomId + 1 })

/-- `db_service::delete_room`, with the cascades of `chat.room_members` and `chat.messages`. -/
def deleteRoom (ownerUserId : User) (roomId : Int) (db : Database User) : DbResult User Bool :=
  let deleted := Table.deleteWhere
    (fun row : RoomRow User ↦ decide (row.id = roomId ∧ row.ownerUserId = ownerUserId)) db.rooms
  if deleted.2.isEmpty then .ok (false, db)
  else
    .ok (true, { db with
      rooms := deleted.1
      roomMembers := (Table.deleteWhere (fun row ↦ decide (row.roomId = roomId)) db.roomMembers).1
      messages := (Table.deleteWhere (fun row ↦ decide (row.roomId = roomId)) db.messages).1 })

/-- `db_service::invite_room`. -/
def inviteRoom (now : Int) (inviterUserId : User) (roomId : Int) (friendUserId : User)
    (db : Database User) : DbResult User InviteRoomResult :=
  if ¬ db.IsMember roomId inviterUserId then .ok (.roomNotFoundOrNoPermission, db)
  else if ¬ db.AreFriends inviterUserId friendUserId then .ok (.notFriend, db)
  else
    let inserted := Table.insertOrNothing RoomMemberRow.key ⟨roomId, friendUserId, .member, now⟩
      db.roomMembers
    if ¬ inserted.2.isEmpty ∧ ¬ (db.IsRoom roomId ∧ db.IsUser friendUserId) then
      .error .sqlError
    else
      .ok (if inserted.2.isEmpty then .alreadyMember else .invited,
        { db with roomMembers := inserted.1 })

/-- `db_service::create_room_message`. -/
def createRoomMessage (now : Int) (gap : Nat) (roomId : Int) (senderUserId : User) (body : Bytes)
    (db : Database User) : DbResult User (Option Int) :=
  if ¬ db.IsMember roomId senderUserId then .ok (none, db)
  else if ¬ (db.IsRoom roomId ∧ db.IsUser senderUserId) then .error .sqlError
  else
    let id := db.nextMessageId + gap
    .ok (some id, { db with
      messages := db.messages ++ [⟨id, roomId, senderUserId, body, now⟩]
      nextMessageId := id + 1 })

/-- `db_service::leave_room`: `asked` is compared with the owner in C++, `userId` goes into the
`DELETE`. -/
def leaveRoom (asked userId : User) (roomId : Int) (db : Database User) :
    DbResult User LeaveRoomResult :=
  match db.rooms.find? fun row ↦ decide (row.id = roomId) with
  | none => .ok (.notMemberOrRoomNotFound, db)
  | some room =>
    if room.ownerUserId = asked then .ok (.ownerCannotLeave, db)
    else
      let deleted := Table.deleteWhere
        (fun row : RoomMemberRow User ↦ decide (row.roomId = roomId ∧ row.userId = userId))
        db.roomMembers
      .ok (if deleted.2.isEmpty then .notMemberOrRoomNotFound else .left,
        { db with roomMembers := deleted.1 })

/-! ### Room queries -/

/-- The rows of `chat.rooms r JOIN chat.room_members scope_m … LEFT JOIN chat.room_members all_m`
for one user: the room and, when the left join found one, a member of it. -/
def joinedRooms (userId : User) (db : Database User) :
    List (RoomRow User × Option (RoomMemberRow User)) :=
  db.rooms.flatMap fun room ↦
    (db.roomMembers.filter fun scope ↦ decide (scope.roomId = room.id ∧ scope.userId = userId))
      |>.flatMap fun _ ↦
        match db.roomMembers.filter fun member ↦ decide (member.roomId = room.id) with
        | [] => [(room, none)]
        | members => members.map fun member ↦ (room, some member)

/-- The columns `db_service::list_rooms` groups by. -/
def groupKey (room : RoomRow User) : Int × Bytes × User :=
  (room.id, room.name, room.ownerUserId)

/-- `db_service::list_rooms`: one row for each group, with `COUNT(all_m.user_id)`. -/
def listRooms (userId : User) (db : Database User) : List (RoomInfo User) :=
  let rows := joinedRooms userId db
  let groups := (rows.map fun row ↦ groupKey row.1).dedup
  (groups.map fun group ↦
    { id := group.1
      name := group.2.1
      ownerUserId := group.2.2
      memberCount := rows.countP fun row ↦ groupKey row.1 = group ∧ row.2.isSome }
    ).insertionSort fun first second ↦ first.id ≤ second.id

/-- `db_service::list_room_messages`: the newest rows of the room up to the limit, by id. -/
def listRoomMessages (userId : User) (roomId : Int) (limit : Nat) (db : Database User) :
    Option (List (MessageInfo User)) :=
  if ¬ db.IsMember roomId userId then none
  else
    let newest := (db.messages.filter fun row ↦ decide (row.roomId = roomId)).insertionSort
      fun first second ↦ first.createdAt > second.createdAt ∨
        (first.createdAt = second.createdAt ∧ first.id ≥ second.id)
    some (((newest.take limit).insertionSort fun first second ↦ first.id ≤ second.id).map
      fun row ↦ ⟨row.id, row.senderUserId, row.body, row.createdAt⟩)

/-! ### What a successful call does -/

section Outcomes

variable {db next : Database User}

/-- A friendship is between two distinct users, and a row is added if they were not friends. -/
theorem insertFriendship_cases {now : Int} {first second : User} {result : Bool}
    (hok : insertFriendship now first second db = .ok (result, next)) :
    min first second < max first second ∧
      ((db.AreFriends first second ∧ result = false ∧ next = db) ∨
        (¬ db.AreFriends first second ∧ db.IsUser first ∧ db.IsUser second ∧ result = true ∧
          next = { db with friendships :=
            db.friendships ++ [⟨min first second, max first second, now⟩] })) := by
  unfold insertFriendship at hok
  dsimp only at hok
  split_ifs at hok with hordered hforeign
  simp only [Except.ok.injEq, Prod.mk.injEq] at hok
  obtain ⟨rfl, rfl⟩ := hok
  refine ⟨hordered, ?_⟩
  rcases Table.insertOrNothing_cases FriendshipRow.key db.friendships
    ⟨min first second, max first second, now⟩ with ⟨hconflict, hinsert⟩ | ⟨hfresh, hinsert⟩
  · rw [hinsert]
    exact Or.inl ⟨hconflict, rfl, rfl⟩
  · rw [hinsert] at hforeign ⊢
    have husers : db.IsUser first ∧ db.IsUser second := by simpa using hforeign
    refine Or.inr ⟨?_, husers.1, husers.2, rfl, rfl⟩
    rintro ⟨row, hrow, hkey⟩
    exact hfresh row hrow hkey

/-- A request to a friend changes nothing. To anyone else but the user, it adds the row of the pair,
or updates the one that is there if that was rejected or canceled. -/
theorem requestFriend_cases {now : Int} {fromUserId toUserId : User} {result : Bool}
    (hok : requestFriend now fromUserId toUserId db = .ok (result, next)) :
    (db.AreFriends fromUserId toUserId ∧ result = false ∧ next = db) ∨
      (¬ db.AreFriends fromUserId toUserId ∧ fromUserId ≠ toUserId ∧
        (((∀ row ∈ db.friendRequests, row.key ≠ (fromUserId, toUserId)) ∧
            db.IsUser fromUserId ∧ db.IsUser toUserId ∧ result = true ∧
            next = { db with friendRequests :=
              db.friendRequests ++ [⟨fromUserId, toUserId, .pending, now, now⟩] }) ∨
          ((∃ row ∈ db.friendRequests, row.key = (fromUserId, toUserId)) ∧
            ∃ revived, revived = Table.updateWhere
                (fun row ↦ decide (row.key = (fromUserId, toUserId)) &&
                  decide (row.status = .rejected ∨ row.status = .canceled))
                (fun row ↦ { row with status := .pending, updatedAt := now }) db.friendRequests ∧
              result = !revived.2.isEmpty ∧ next = { db with friendRequests := revived.1 }))) := by
  unfold requestFriend at hok
  dsimp only at hok
  split_ifs at hok with hfriends hself hforeign
  · simp only [Except.ok.injEq, Prod.mk.injEq] at hok
    exact Or.inl ⟨hfriends, hok.1.symm, hok.2.symm⟩
  · simp only [Except.ok.injEq, Prod.mk.injEq] at hok
    obtain ⟨rfl, rfl⟩ := hok
    refine Or.inr ⟨hfriends, hself, ?_⟩
    unfold Table.insertOrUpdate
    split_ifs with hconflict
    · exact Or.inr ⟨Table.conflict_eq_true.mp hconflict, _, rfl, rfl, rfl⟩
    · have husers : db.IsUser fromUserId ∧ db.IsUser toUserId := by
        by_contra hmissing
        exact hforeign ⟨hconflict, hmissing⟩
      rw [Bool.not_eq_true, Table.conflict_eq_false] at hconflict
      exact Or.inl ⟨hconflict, husers.1, husers.2, rfl, rfl⟩

/-- Accepting answers the pending request of the pair, and makes friends if there was one. -/
theorem acceptFriendRequest_cases {now : Int} {fromUserId toUserId : User} {result : Bool}
    (hok : acceptFriendRequest now fromUserId toUserId db = .ok (result, next)) :
    ∃ answered, answered = answerRequest .accepted now fromUserId toUserId db.friendRequests ∧
      result = !answered.2.isEmpty ∧
      ((result = false ∧ next = { db with friendRequests := answered.1 }) ∨
        (result = true ∧ ∃ inserted, insertFriendship now fromUserId toUserId
          { db with friendRequests := answered.1 } = .ok (inserted, next))) := by
  unfold acceptFriendRequest at hok
  dsimp only at hok
  refine ⟨_, rfl, ?_⟩
  split_ifs at hok with hnone
  · simp only [Except.ok.injEq, Prod.mk.injEq] at hok
    obtain ⟨rfl, rfl⟩ := hok
    exact ⟨by rw [hnone, Bool.not_true], Or.inl ⟨rfl, rfl⟩⟩
  · split at hok
    · cases hok
    · next inserted committed hinsert =>
      simp only [Except.ok.injEq, Prod.mk.injEq] at hok
      obtain ⟨rfl, rfl⟩ := hok
      rw [Bool.not_eq_true] at hnone
      exact ⟨by rw [hnone, Bool.not_false], Or.inr ⟨rfl, inserted, hinsert⟩⟩

/-- A new room gets an id that no room has had, and its owner as a member. -/
theorem createRoom_cases {now : Int} {gap : Nat} {ownerUserId : User} {roomName : Bytes}
    {roomId : Int} (hok : createRoom now gap ownerUserId roomName db = .ok (roomId, next)) :
    db.IsUser ownerUserId ∧ roomId = db.nextRoomId + gap ∧
      next = { db with
        rooms := db.rooms ++ [⟨roomId, roomName, ownerUserId, now⟩]
        roomMembers := (Table.insertOrNothing RoomMemberRow.key ⟨roomId, ownerUserId, .owner, now⟩
          db.roomMembers).1
        nextRoomId := roomId + 1 } := by
  unfold createRoom at hok
  dsimp only at hok
  split_ifs at hok with howner
  simp only [Except.ok.injEq, Prod.mk.injEq] at hok
  obtain ⟨rfl, rfl⟩ := hok
  exact ⟨howner, rfl, rfl⟩

/-- A room is deleted by its owner, out of the three tables. -/
theorem deleteRoom_cases {ownerUserId : User} {roomId : Int} {result : Bool}
    (hok : deleteRoom ownerUserId roomId db = .ok (result, next)) :
    (result = false ∧ next = db) ∨
      ((∃ room ∈ db.rooms, room.id = roomId ∧ room.ownerUserId = ownerUserId) ∧ result = true ∧
        next = { db with
          rooms := (Table.deleteWhere
            (fun row ↦ decide (row.id = roomId ∧ row.ownerUserId = ownerUserId)) db.rooms).1
          roomMembers :=
            (Table.deleteWhere (fun row ↦ decide (row.roomId = roomId)) db.roomMembers).1
          messages :=
            (Table.deleteWhere (fun row ↦ decide (row.roomId = roomId)) db.messages).1 }) := by
  unfold deleteRoom at hok
  dsimp only at hok
  split_ifs at hok with hnone
  · simp only [Except.ok.injEq, Prod.mk.injEq] at hok
    exact Or.inl ⟨hok.1.symm, hok.2.symm⟩
  · simp only [Except.ok.injEq, Prod.mk.injEq] at hok
    obtain ⟨rfl, rfl⟩ := hok
    refine Or.inr ⟨?_, rfl, rfl⟩
    obtain ⟨room, hroom, hmatch⟩ := Table.exists_of_deleteWhere hnone
    exact ⟨room, hroom, of_decide_eq_true hmatch⟩

/-- An invitation by a member to a friend adds the friend who is no member yet. Any other changes
nothing. -/
theorem inviteRoom_cases {now : Int} {inviterUserId friendUserId : User} {roomId : Int}
    {result : InviteRoomResult}
    (hok : inviteRoom now inviterUserId roomId friendUserId db = .ok (result, next)) :
    (result ≠ .invited ∧ next = db) ∨
      (db.IsMember roomId inviterUserId ∧ db.AreFriends inviterUserId friendUserId ∧
        ¬ db.IsMember roomId friendUserId ∧ db.IsRoom roomId ∧ db.IsUser friendUserId ∧
        result = .invited ∧ next = { db with roomMembers :=
          db.roomMembers ++ [⟨roomId, friendUserId, .member, now⟩] }) := by
  unfold inviteRoom at hok
  by_cases hmember : db.IsMember roomId inviterUserId
  · rw [if_neg (not_not.mpr hmember)] at hok
    by_cases hfriends : db.AreFriends inviterUserId friendUserId
    · rw [if_neg (not_not.mpr hfriends)] at hok
      rcases Table.insertOrNothing_cases RoomMemberRow.key db.roomMembers
        ⟨roomId, friendUserId, .member, now⟩ with ⟨-, hinsert⟩ | ⟨hfresh, hinsert⟩
      · simp only [hinsert, List.isEmpty_nil, not_true, false_and, if_false, if_true,
          Except.ok.injEq, Prod.mk.injEq] at hok
        rw [← hok.1]
        exact Or.inl ⟨by decide, hok.2.symm⟩
      · simp only [hinsert, List.isEmpty_cons, Bool.false_eq_true, not_false_eq_true, true_and,
          if_false] at hok
        split_ifs at hok with hforeign
        simp only [Except.ok.injEq, Prod.mk.injEq] at hok
        obtain ⟨rfl, rfl⟩ := hok
        refine Or.inr ⟨hmember, hfriends, ?_, hforeign.1, hforeign.2, rfl, rfl⟩
        rintro ⟨row, hrow, hkey⟩
        exact hfresh row hrow hkey
    · rw [if_pos hfriends] at hok
      simp only [Except.ok.injEq, Prod.mk.injEq] at hok
      rw [← hok.1]
      exact Or.inl ⟨by decide, hok.2.symm⟩
  · rw [if_pos hmember] at hok
    simp only [Except.ok.injEq, Prod.mk.injEq] at hok
    rw [← hok.1]
    exact Or.inl ⟨by decide, hok.2.symm⟩

/-- A message is committed by a member, into a room that is there. -/
theorem createRoomMessage_cases {now : Int} {gap : Nat} {roomId : Int} {senderUserId : User}
    {body : Bytes} {result : Option Int}
    (hok : createRoomMessage now gap roomId senderUserId body db = .ok (result, next)) :
    (result = none ∧ next = db) ∨
      (db.IsMember roomId senderUserId ∧ db.IsRoom roomId ∧ db.IsUser senderUserId ∧
        result = some (db.nextMessageId + gap) ∧ next = { db with
          messages :=
            db.messages ++ [⟨db.nextMessageId + gap, roomId, senderUserId, body, now⟩]
          nextMessageId := db.nextMessageId + gap + 1 }) := by
  unfold createRoomMessage at hok
  by_cases hmember : db.IsMember roomId senderUserId
  · rw [if_neg (not_not.mpr hmember)] at hok
    split_ifs at hok with hforeign
    simp only [Except.ok.injEq, Prod.mk.injEq] at hok
    exact Or.inr ⟨hmember, hforeign.1, hforeign.2, hok.1.symm, hok.2.symm⟩
  · rw [if_pos hmember] at hok
    simp only [Except.ok.injEq, Prod.mk.injEq] at hok
    exact Or.inl ⟨hok.1.symm, hok.2.symm⟩

/-- A member leaves a room whose owner is not the id that was asked for. Anyone else changes
nothing. -/
theorem leaveRoom_cases {asked userId : User} {roomId : Int} {result : LeaveRoomResult}
    (hok : leaveRoom asked userId roomId db = .ok (result, next)) :
    (result ≠ .left ∧ next = db) ∨
      ((∃ room ∈ db.rooms, room.id = roomId ∧ room.ownerUserId ≠ asked) ∧
        db.IsMember roomId userId ∧ result = .left ∧ next = { db with
          roomMembers := (Table.deleteWhere (fun row ↦
            decide (row.roomId = roomId ∧ row.userId = userId)) db.roomMembers).1 }) := by
  unfold leaveRoom at hok
  split at hok
  · simp only [Except.ok.injEq, Prod.mk.injEq] at hok
    rw [← hok.1]
    exact Or.inl ⟨by decide, hok.2.symm⟩
  · next room hfind =>
    split_ifs at hok with howner
    · simp only [Except.ok.injEq, Prod.mk.injEq] at hok
      rw [← hok.1]
      exact Or.inl ⟨by decide, hok.2.symm⟩
    · simp only [Except.ok.injEq, Prod.mk.injEq] at hok
      obtain ⟨rfl, rfl⟩ := hok
      split_ifs with hnone
      · rw [Table.deleteWhere_of_isEmpty hnone]
        exact Or.inl ⟨by decide, rfl⟩
      · obtain ⟨row, hrow, hmatch⟩ := Table.exists_of_deleteWhere hnone
        have hid := List.find?_some hfind
        obtain ⟨hroom, huser⟩ := of_decide_eq_true hmatch
        exact Or.inr ⟨⟨room, List.mem_of_find?_eq_some hfind, of_decide_eq_true hid, howner⟩,
          ⟨row, hrow, Prod.ext hroom huser⟩, rfl, rfl⟩

end Outcomes

end Transaction

/-! ### Sequences of writing transactions -/

/-- One writing transaction of `db_service` with its values. -/
inductive WriteCall (User : Type)
  | signup (id : User) (pw : Bytes)
  | changeNickname (id : User) (nickname : Bytes)
  | addFriend (now : Int) (userId friendId : User)
  | removeFriend (userId friendId : User)
  | requestFriend (now : Int) (fromUserId toUserId : User)
  | acceptFriendRequest (now : Int) (fromUserId toUserId : User)
  | rejectFriendRequest (now : Int) (fromUserId toUserId : User)
  | createRoom (now : Int) (gap : Nat) (ownerUserId : User) (roomName : Bytes)
  | deleteRoom (ownerUserId : User) (roomId : Int)
  | inviteRoom (now : Int) (inviterUserId : User) (roomId : Int) (friendUserId : User)
  | createRoomMessage (now : Int) (gap : Nat) (roomId : Int) (senderUserId : User) (body : Bytes)
  | leaveRoom (asked userId : User) (roomId : Int)

section Calls

variable {User : Type} [LinearOrder User]

/-- The database a transaction leaves: the one it commits, or the old one after an error. -/
def DbResult.committed {Result : Type} (db : Database User) : DbResult User Result → Database User
  | .ok (_, next) => next
  | .error _ => db

/-- The database after one transaction. -/
def WriteCall.run (call : WriteCall User) (db : Database User) : Database User :=
  match call with
  | .signup id pw => DbResult.committed db (Transaction.signup id pw db)
  | .changeNickname id nickname => DbResult.committed db (Transaction.changeNickname id nickname db)
  | .addFriend now userId friendId =>
    DbResult.committed db (Transaction.addFriend now userId friendId db)
  | .removeFriend userId friendId =>
    DbResult.committed db (Transaction.removeFriend userId friendId db)
  | .requestFriend now fromUserId toUserId =>
    DbResult.committed db (Transaction.requestFriend now fromUserId toUserId db)
  | .acceptFriendRequest now fromUserId toUserId =>
    DbResult.committed db (Transaction.acceptFriendRequest now fromUserId toUserId db)
  | .rejectFriendRequest now fromUserId toUserId =>
    DbResult.committed db (Transaction.rejectFriendRequest now fromUserId toUserId db)
  | .createRoom now gap ownerUserId roomName =>
    DbResult.committed db (Transaction.createRoom now gap ownerUserId roomName db)
  | .deleteRoom ownerUserId roomId =>
    DbResult.committed db (Transaction.deleteRoom ownerUserId roomId db)
  | .inviteRoom now inviterUserId roomId friendUserId =>
    DbResult.committed db (Transaction.inviteRoom now inviterUserId roomId friendUserId db)
  | .createRoomMessage now gap roomId senderUserId body =>
    DbResult.committed db (Transaction.createRoomMessage now gap roomId senderUserId body db)
  | .leaveRoom asked userId roomId =>
    DbResult.committed db (Transaction.leaveRoom asked userId roomId db)

/-- The database after a sequence of transactions on the empty schema. -/
def Database.after (calls : List (WriteCall User)) : Database User :=
  calls.foldl (fun db call ↦ call.run db) (Database.empty User)

@[simp] theorem Database.after_nil :
    Database.after ([] : List (WriteCall User)) = Database.empty User :=
  rfl

@[simp] theorem Database.after_concat (calls : List (WriteCall User)) (call : WriteCall User) :
    Database.after (calls ++ [call]) = call.run (Database.after calls) := by
  simp [Database.after]

end Calls

end ChatServer
