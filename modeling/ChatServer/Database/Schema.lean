import Mathlib.Data.List.TakeWhile
import ChatServer.Core.Bytes
import ChatServer.General.Table

/-!
# The database schema

The tables that `scripts/migrate_db_schema.sh` creates, with the constraints PostgreSQL enforces on
them. A `Database` holds the rows of the six tables and the two identity sequences. `Valid`
collects the primary keys, the check constraints, the foreign keys and what the identity sequences
guarantee: every id handed out lies below the next one.

User ids are the keys of the schema and their type is a parameter with a linear order, the
collation: `LEAST`, `GREATEST` and the check `user_a_id < user_b_id` are `min`, `max` and `<` of
that order. Timestamps are integers. No column of the schema is nullable, so no three-valued logic
is needed.

A text reaches PostgreSQL as a parameter that libpq takes for a C string. `sqlText` is what
PostgreSQL reads there; no text that it stores has a NUL. `CREATE DATABASE` leaves the encoding to
the cluster, and the model has one that admits every other byte. Where the encoding refuses a text,
the call with it fails and changes nothing.
-/

set_option autoImplicit false
set_option relaxedAutoImplicit false

namespace ChatServer

/-! ### Texts -/

/-- What PostgreSQL reads where a text is passed as a parameter: the bytes before the first NUL. -/
def sqlText (value : Bytes) : Bytes :=
  value.takeWhile (· ≠ 0)

theorem zero_notMem_sqlText (value : Bytes) : 0 ∉ sqlText value := by
  intro hmem
  have hne := List.mem_takeWhile_imp hmem
  simp at hne

/-- A text arrives whole exactly if it has no NUL. -/
theorem sqlText_eq_self_iff {value : Bytes} : sqlText value = value ↔ 0 ∉ value := by
  constructor
  · intro hself
    rw [← hself]
    exact zero_notMem_sqlText value
  · intro hnone
    rw [sqlText, List.takeWhile_eq_self_iff]
    intro byte hbyte
    exact decide_eq_true fun hzero ↦ hnone (hzero ▸ hbyte)

/-! ### Rows -/

/-- `auth.users`. -/
structure UserRow (User : Type) where
  id : User
  pw : Bytes
  nickname : Bytes
  deriving DecidableEq

/-- `social.friendships`. -/
structure FriendshipRow (User : Type) where
  userAId : User
  userBId : User
  createdAt : Int
  deriving DecidableEq

/-- The values `friend_requests_status_check` admits. -/
inductive RequestStatus
  | pending
  | accepted
  | rejected
  | canceled
  deriving DecidableEq

/-- `social.friend_requests`. -/
structure FriendRequestRow (User : Type) where
  fromUserId : User
  toUserId : User
  status : RequestStatus
  createdAt : Int
  updatedAt : Int
  deriving DecidableEq

/-- `chat.rooms`. -/
structure RoomRow (User : Type) where
  id : Int
  name : Bytes
  ownerUserId : User
  createdAt : Int
  deriving DecidableEq

/-- The values `room_members_role_check` admits. -/
inductive MemberRole
  | owner
  | admin
  | member
  deriving DecidableEq

/-- `chat.room_members`. -/
structure RoomMemberRow (User : Type) where
  roomId : Int
  userId : User
  role : MemberRole
  joinedAt : Int
  deriving DecidableEq

/-- `chat.messages`. -/
structure MessageRow (User : Type) where
  id : Int
  roomId : Int
  senderUserId : User
  body : Bytes
  createdAt : Int
  deriving DecidableEq

/-- The rows of the tables and the next values of the two identity sequences. -/
structure Database (User : Type) where
  users : List (UserRow User)
  friendships : List (FriendshipRow User)
  friendRequests : List (FriendRequestRow User)
  rooms : List (RoomRow User)
  roomMembers : List (RoomMemberRow User)
  messages : List (MessageRow User)
  nextRoomId : Int
  nextMessageId : Int

/-- The database right after the migration script has run. -/
def Database.empty (User : Type) : Database User where
  users := []
  friendships := []
  friendRequests := []
  rooms := []
  roomMembers := []
  messages := []
  nextRoomId := 1
  nextMessageId := 1

/-! ### Keys and lookups -/

section Keys

variable {User : Type}

/-- `friendships_pk`. -/
def FriendshipRow.key (row : FriendshipRow User) : User × User :=
  (row.userAId, row.userBId)

/-- `friend_requests_pk`. -/
def FriendRequestRow.key (row : FriendRequestRow User) : User × User :=
  (row.fromUserId, row.toUserId)

/-- `room_members_pk`. -/
def RoomMemberRow.key (row : RoomMemberRow User) : Int × User :=
  (row.roomId, row.userId)

namespace Database

/-- The user id is a row of `auth.users`. -/
def IsUser (db : Database User) (user : User) : Prop :=
  ∃ row ∈ db.users, row.id = user

/-- The user has a row for the room in `chat.room_members`. -/
def IsMember (db : Database User) (roomId : Int) (user : User) : Prop :=
  ∃ row ∈ db.roomMembers, row.key = (roomId, user)

/-- The room is a row of `chat.rooms`. -/
def IsRoom (db : Database User) (roomId : Int) : Prop :=
  ∃ row ∈ db.rooms, row.id = roomId

/-- `social.friend_requests` has a row from one user to the other with this status. -/
def HasRequest (db : Database User) (fromUserId toUserId : User) (status : RequestStatus) : Prop :=
  ∃ row ∈ db.friendRequests, row.key = (fromUserId, toUserId) ∧ row.status = status

/-- The two users are a row of `social.friendships`, which stores the pair in ascending order. -/
def AreFriends [LinearOrder User] (db : Database User) (first second : User) : Prop :=
  ∃ row ∈ db.friendships, row.key = (min first second, max first second)

section Decidable

variable [DecidableEq User]

instance (db : Database User) (user : User) : Decidable (db.IsUser user) :=
  inferInstanceAs (Decidable (∃ row ∈ db.users, row.id = user))

instance (db : Database User) (roomId : Int) (user : User) : Decidable (db.IsMember roomId user) :=
  inferInstanceAs (Decidable (∃ row ∈ db.roomMembers, row.key = (roomId, user)))

instance (db : Database User) (roomId : Int) : Decidable (db.IsRoom roomId) :=
  inferInstanceAs (Decidable (∃ row ∈ db.rooms, row.id = roomId))

instance (db : Database User) (fromUserId toUserId : User) (status : RequestStatus) :
    Decidable (db.HasRequest fromUserId toUserId status) :=
  inferInstanceAs (Decidable (∃ row ∈ db.friendRequests,
    row.key = (fromUserId, toUserId) ∧ row.status = status))

end Decidable

instance [LinearOrder User] (db : Database User) (first second : User) :
    Decidable (db.AreFriends first second) :=
  inferInstanceAs
    (Decidable (∃ row ∈ db.friendships, row.key = (min first second, max first second)))

theorem areFriends_comm [LinearOrder User] {db : Database User} {first second : User} :
    db.AreFriends first second ↔ db.AreFriends second first := by
  simp only [AreFriends, min_comm first second, max_comm first second]

end Database

end Keys

/-! ### Constraints -/

/-- What PostgreSQL enforces: the primary keys, the checks, the foreign keys, and the ids handed
out by the identity sequences. -/
structure Database.Valid {User : Type} [LinearOrder User] (db : Database User) : Prop where
  usersKey : Table.KeyUnique UserRow.id db.users
  friendshipsKey : Table.KeyUnique FriendshipRow.key db.friendships
  friendRequestsKey : Table.KeyUnique FriendRequestRow.key db.friendRequests
  roomsKey : Table.KeyUnique RoomRow.id db.rooms
  roomMembersKey : Table.KeyUnique RoomMemberRow.key db.roomMembers
  messagesKey : Table.KeyUnique MessageRow.id db.messages
  friendshipsOrdered : ∀ row ∈ db.friendships, row.userAId < row.userBId
  friendRequestsDistinct : ∀ row ∈ db.friendRequests, row.fromUserId ≠ row.toUserId
  friendshipUsers : ∀ row ∈ db.friendships, db.IsUser row.userAId ∧ db.IsUser row.userBId
  friendRequestUsers :
    ∀ row ∈ db.friendRequests, db.IsUser row.fromUserId ∧ db.IsUser row.toUserId
  roomOwner : ∀ row ∈ db.rooms, db.IsUser row.ownerUserId
  roomMemberRefs : ∀ row ∈ db.roomMembers, db.IsRoom row.roomId ∧ db.IsUser row.userId
  messageRefs : ∀ row ∈ db.messages, db.IsRoom row.roomId ∧ db.IsUser row.senderUserId
  roomIds : 0 < db.nextRoomId ∧ ∀ row ∈ db.rooms, 0 < row.id ∧ row.id < db.nextRoomId
  messageIds : ∀ row ∈ db.messages, row.id < db.nextMessageId

theorem Database.valid_empty (User : Type) [LinearOrder User] : (Database.empty User).Valid where
  usersKey := List.nodup_nil
  friendshipsKey := List.nodup_nil
  friendRequestsKey := List.nodup_nil
  roomsKey := List.nodup_nil
  roomMembersKey := List.nodup_nil
  messagesKey := List.nodup_nil
  friendshipsOrdered := by simp [Database.empty]
  friendRequestsDistinct := by simp [Database.empty]
  friendshipUsers := by simp [Database.empty]
  friendRequestUsers := by simp [Database.empty]
  roomOwner := by simp [Database.empty]
  roomMemberRefs := by simp [Database.empty]
  messageRefs := by simp [Database.empty]
  roomIds := by simp [Database.empty]
  messageIds := by simp [Database.empty]

end ChatServer
