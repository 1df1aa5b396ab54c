import Mathlib.Combinatorics.SimpleGraph.DeleteEdges
import Mathlib.Combinatorics.SimpleGraph.Operations
import Mathlib.Logic.Function.Basic
import ChatServer.Database.Transactions
import ChatServer.General.Machine

/-!
# The community behind the tables

What `db_service` is for, without tables, keys and SQL. A `Community` has an account for some of
the users, a friendship graph, the status of the last request of each ordered pair, and rooms with
an owner, a set of members and their messages in the order of commit. Users are of any type: that
the schema stores a friendship under the smaller and the larger id is not visible here. That a
friendship is symmetric and nobody their own friend is part of the type of the graph.

Each writing transaction is given its answer and its effect, and `communityMachine` reads a list of
them. A foreign key shows only where a user without an account can make one fail: everyone in a room
or with a request has an account already. Leaving a room keeps the two ids of the transaction, the
one that is compared with the owner and the one that leaves: when they differ, an owner can leave.
-/

set_option autoImplicit false
set_option relaxedAutoImplicit false

namespace ChatServer

open Classical

/-- A password and the name shown to others. -/
structure Account where
  pw : Bytes
  nickname : Bytes

/-- A room that has not been deleted. -/
structure ChatRoom (User : Type) where
  name : Bytes
  owner : User
  members : Set User
  messages : List (MessageInfo User)

/-- All that the service remembers. -/
@[ext] structure Community (User : Type) where
  account : User → Option Account
  friends : SimpleGraph User
  request : User × User → Option RequestStatus
  room : Int → Option (ChatRoom User)
  nextRoomId : Int
  nextMessageId : Int

/-- What a writing transaction tells its caller. -/
inductive Answer
  | changed (result : Bool)
  | created (roomId : Int)
  | invited (result : InviteRoomResult)
  | posted (messageId : Option Int)
  | left (result : LeaveRoomResult)
  | failed (error : DbError)
  deriving DecidableEq

namespace Community

variable {User : Type}

/-- Nobody has signed up. -/
def empty (User : Type) : Community User where
  account := fun _ ↦ none
  friends := ⊥
  request := fun _ ↦ none
  room := fun _ ↦ none
  nextRoomId := 1
  nextMessageId := 1

/-- The user has an account. -/
def IsUser (community : Community User) (user : User) : Prop :=
  community.account user ≠ none

noncomputable section

variable [DecidableEq User] (community : Community User)

/-! ### Accounts -/

def withAccount (user : User) (account : Account) : Community User :=
  { community with account := Function.update community.account user (some account) }

/-- The first sign-up of a user counts. -/
def signup (id : User) (pw : Bytes) : Answer × Community User :=
  match community.account id with
  | none => (.changed true, community.withAccount id ⟨pw, text "guest"⟩)
  | some _ => (.changed false, community)

def changeNickname (id : User) (nickname : Bytes) : Answer × Community User :=
  match community.account id with
  | none => (.changed false, community)
  | some account => (.changed true, community.withAccount id { account with nickname := nickname })

/-! ### Friends -/

/-- Two users become friends. -/
def befriend (first second : User) : Community User :=
  { community with friends := community.friends ⊔ SimpleGraph.edge first second }

def withRequest (fromUserId toUserId : User) (status : RequestStatus) : Community User :=
  { community with
    request := Function.update community.request (fromUserId, toUserId) (some status) }

def addFriend (userId friendId : User) : Answer × Community User :=
  if userId = friendId then (.failed .sqlError, community)
  else if community.friends.Adj userId friendId then (.changed false, community)
  else if community.IsUser userId ∧ community.IsUser friendId then
    (.changed true, community.befriend userId friendId)
  else (.failed .sqlError, community)

def removeFriend (userId friendId : User) : Answer × Community User :=
  (.changed (decide (community.friends.Adj userId friendId)),
    { community with friends := community.friends.deleteEdges {s(userId, friendId)} })

/-- Friends need no request, and a request that is pending or was accepted is not made again. -/
def requestFriend (fromUserId toUserId : User) : Answer × Community User :=
  if community.friends.Adj fromUserId toUserId then (.changed false, community)
  else if fromUserId = toUserId then (.failed .sqlError, community)
  else
    match community.request (fromUserId, toUserId) with
    | none =>
      if community.IsUser fromUserId ∧ community.IsUser toUserId then
        (.changed true, community.withRequest fromUserId toUserId .pending)
      else (.failed .sqlError, community)
    | some .rejected | some .canceled =>
      (.changed true, community.withRequest fromUserId toUserId .pending)
    | some .pending | some .accepted => (.changed false, community)

def acceptFriendRequest (fromUserId toUserId : User) : Answer × Community User :=
  if community.request (fromUserId, toUserId) = some .pending then
    (.changed true,
      (community.withRequest fromUserId toUserId .accepted).befriend fromUserId toUserId)
  else (.changed false, community)

def rejectFriendRequest (fromUserId toUserId : User) : Answer × Community User :=
  if community.request (fromUserId, toUserId) = some .pending then
    (.changed true, community.withRequest fromUserId toUserId .rejected)
  else (.changed false, community)

/-! ### Rooms -/

def withRoom (roomId : Int) (room : Option (ChatRoom User)) : Community User :=
  { community with room := Function.update community.room roomId room }

/-- A new room has its owner as the only member. -/
def createRoom (gap : Nat) (ownerUserId : User) (roomName : Bytes) : Answer × Community User :=
  if community.IsUser ownerUserId then
    let roomId := community.nextRoomId + gap
    (.created roomId,
      { community.withRoom roomId (some ⟨roomName, ownerUserId, {ownerUserId}, []⟩) with
        nextRoomId := roomId + 1 })
  else (.failed .sqlError, community)

/-- A room ends with its members and messages. -/
def deleteRoom (ownerUserId : User) (roomId : Int) : Answer × Community User :=
  match community.room roomId with
  | none => (.changed false, community)
  | some room =>
    if room.owner = ownerUserId then (.changed true, community.withRoom roomId none)
    else (.changed false, community)

/-- Members bring in their friends. -/
def inviteRoom (inviterUserId : User) (roomId : Int) (friendUserId : User) :
    Answer × Community User :=
  match community.room roomId with
  | none => (.invited .roomNotFoundOrNoPermission, community)
  | some room =>
    if inviterUserId ∉ room.members then (.invited .roomNotFoundOrNoPermission, community)
    else if ¬ community.friends.Adj inviterUserId friendUserId then
      (.invited .notFriend, community)
    else if friendUserId ∈ room.members then (.invited .alreadyMember, community)
    else
      (.invited .invited, community.withRoom roomId
        (some { room with members := insert friendUserId room.members }))

def createRoomMessage (now : Int) (gap : Nat) (roomId : Int) (senderUserId : User)
    (body : Bytes) : Answer × Community User :=
  match community.room roomId with
  | none => (.posted none, community)
  | some room =>
    if senderUserId ∉ room.members then (.posted none, community)
    else
      let id := community.nextMessageId + gap
      (.posted (some id),
        { community.withRoom roomId
            (some { room with messages := room.messages ++ [⟨id, senderUserId, body, now⟩] }) with
          nextMessageId := id + 1 })

/-- Whoever asks as the owner stays. -/
def leaveRoom (asked userId : User) (roomId : Int) : Answer × Community User :=
  match community.room roomId with
  | none => (.left .notMemberOrRoomNotFound, community)
  | some room =>
    if room.owner = asked then (.left .ownerCannotLeave, community)
    else if userId ∉ room.members then (.left .notMemberOrRoomNotFound, community)
    else
      (.left .left, community.withRoom roomId
        (some { room with members := room.members \ {userId} }))

/-! ### Transactions -/

/-- What a transaction answers and does. Timestamps only reach the messages. -/
def step (call : WriteCall User) (community : Community User) : Answer × Community User :=
  match call with
  | .signup id pw => community.signup id pw
  | .changeNickname id nickname => community.changeNickname id nickname
  | .addFriend _ userId friendId => community.addFriend userId friendId
  | .removeFriend userId friendId => community.removeFriend userId friendId
  | .requestFriend _ fromUserId toUserId => community.requestFriend fromUserId toUserId
  | .acceptFriendRequest _ fromUserId toUserId => community.acceptFriendRequest fromUserId toUserId
  | .rejectFriendRequest _ fromUserId toUserId => community.rejectFriendRequest fromUserId toUserId
  | .createRoom _ gap ownerUserId roomName => community.createRoom gap ownerUserId roomName
  | .deleteRoom ownerUserId roomId => community.deleteRoom ownerUserId roomId
  | .inviteRoom _ inviterUserId roomId friendUserId =>
    community.inviteRoom inviterUserId roomId friendUserId
  | .createRoomMessage now gap roomId senderUserId body =>
    community.createRoomMessage now gap roomId senderUserId body
  | .leaveRoom asked userId roomId => community.leaveRoom asked userId roomId

end

end Community

/-- The community as a machine that reads transactions. -/
noncomputable def communityMachine (User : Type) [DecidableEq User] :
    Machine (Community User) (WriteCall User) Answer where
  start := Community.empty User
  step := Community.step

end ChatServer
