import ChatServer.Database.Community
import ChatServer.Database.FriendRequests
import ChatServer.Database.Friendship
import ChatServer.Database.RoomQueries

/-!
# The service refines the community

`Database.community` reads a community off the tables: `Table.lookup` gives the accounts, the
requests and the rooms, the rows of `social.friendships` the graph, and `chat.room_members` with
`chat.messages` what is in a room. Each writing transaction has a lemma `_refines`: in a valid
database its answer, error or not, and what it commits are those of the community. The keys and
foreign keys of the schema carry this; without them a room could have members and no row.

`service_refines` puts the transactions together over every sequence of calls on the empty schema:
the community is the one that the transactions of the calls make.
-/

set_option autoImplicit false
set_option relaxedAutoImplicit false

namespace ChatServer

open Classical

variable {User : Type} [LinearOrder User] {db next : Database User}

/-! ### What the tables say -/

/-- The accounts in `auth.users`. -/
def accountsOf (users : List (UserRow User)) (id : User) : Option Account :=
  (Table.lookup UserRow.id users id).map fun row ↦ ⟨row.pw, row.nickname⟩

/-- The graph of `social.friendships`. -/
def friendsOf (friendships : List (FriendshipRow User)) : SimpleGraph User where
  Adj first second :=
    first ≠ second ∧ ∃ row ∈ friendships, row.key = (min first second, max first second)
  symm := ⟨fun first second hadj ↦
    ⟨hadj.1.symm, by rw [min_comm second first, max_comm second first]; exact hadj.2⟩⟩
  loopless := ⟨fun _ hadj ↦ hadj.1 rfl⟩

/-- The requests in `social.friend_requests`. -/
def requestsOf (rows : List (FriendRequestRow User)) (pair : User × User) :
    Option RequestStatus :=
  (Table.lookup FriendRequestRow.key rows pair).map FriendRequestRow.status

/-- What the rows of a room, its members and its messages make of it. -/
def roomsOf (rooms : List (RoomRow User)) (members : List (RoomMemberRow User))
    (messages : List (MessageRow User)) (roomId : Int) : Option (ChatRoom User) :=
  (Table.lookup RoomRow.id rooms roomId).map fun row ↦
    { name := row.name
      owner := row.ownerUserId
      members := {user | ∃ member ∈ members, member.key = (roomId, user)}
      messages := (ofRoom roomId messages).map MessageRow.info }

/-- The community that a database stores. -/
def Database.community (db : Database User) : Community User where
  account := accountsOf db.users
  friends := friendsOf db.friendships
  request := requestsOf db.friendRequests
  room := roomsOf db.rooms db.roomMembers db.messages
  nextRoomId := db.nextRoomId
  nextMessageId := db.nextMessageId

theorem community_empty : (Database.empty User).community = Community.empty User := by
  refine Community.ext rfl ?_ rfl rfl rfl rfl
  ext first second
  simp [Database.community, Database.empty, Community.empty, friendsOf]

/-! ### Accounts -/

theorem accountsOf_eq_none {users : List (UserRow User)} {id : User} :
    accountsOf users id = none ↔ ∀ row ∈ users, row.id ≠ id := by
  rw [accountsOf, Option.map_eq_none_iff, Table.lookup_eq_none]

theorem isUser_community {user : User} : db.community.IsUser user ↔ db.IsUser user := by
  rw [Community.IsUser, Ne, show db.community.account = accountsOf db.users from rfl,
    accountsOf_eq_none]
  push Not
  exact Iff.rfl

theorem accountsOf_concat {users : List (UserRow User)} {row : UserRow User}
    (hfresh : ∀ other ∈ users, other.id ≠ row.id) :
    accountsOf (users ++ [row]) =
      Function.update (accountsOf users) row.id (some ⟨row.pw, row.nickname⟩) := by
  funext id
  rw [accountsOf, Table.lookup_concat hfresh]
  by_cases hid : id = row.id
  · rw [hid, Function.update_self, Function.update_self]
    rfl
  · rw [Function.update_of_ne hid, Function.update_of_ne hid]
    rfl

/-- Renaming replaces the account of the user. -/
theorem accountsOf_rename {users : List (UserRow User)} {id : User} {account : Account}
    (haccount : accountsOf users id = some account) (nickname : Bytes) :
    accountsOf (Table.updateWhere (fun row ↦ decide (row.id = id))
        (fun row ↦ { row with nickname := nickname }) users).1 =
      Function.update (accountsOf users) id (some { account with nickname := nickname }) := by
  have hkey : ∀ row : UserRow User,
      ((fun row : UserRow User ↦ { row with nickname := nickname }) row).id = row.id :=
    fun _ ↦ rfl
  funext other
  rw [accountsOf, Table.lookup_updateWhere hkey]
  obtain ⟨row, hrow, rfl⟩ := Option.map_eq_some_iff.mp haccount
  by_cases hother : other = id
  · subst hother
    rw [Function.update_self, hrow]
    simp [(Table.mem_of_lookup hrow).2]
  · rw [Function.update_of_ne hother, accountsOf, Option.map_map]
    refine Option.map_congr fun found hfound ↦ ?_
    have hid := (Table.mem_of_lookup hfound).2
    simp [hid, hother]

/-! ### Friends -/

theorem adj_community (hvalid : db.Valid) {first second : User} :
    db.community.friends.Adj first second ↔ db.AreFriends first second :=
  ⟨fun hadj ↦ hadj.2, fun hfriends ↦ ⟨hvalid.friends_ne hfriends, hfriends⟩⟩

theorem isUser_of_areFriends (hvalid : db.Valid) {first second : User}
    (hfriends : db.AreFriends first second) : db.IsUser second := by
  obtain ⟨row, hrow, hkey⟩ := hfriends
  obtain ⟨hsmaller, hlarger⟩ := hvalid.friendshipUsers row hrow
  obtain ⟨hmin, hmax⟩ := Prod.mk.inj hkey
  rcases le_total first second with hle | hle
  · rwa [hmax, max_eq_right hle] at hlarger
  · rwa [hmin, min_eq_right hle] at hsmaller

theorem friendsOf_concat {friendships : List (FriendshipRow User)} {first second : User}
    (hne : first ≠ second) (now : Int) :
    friendsOf (friendships ++ [⟨min first second, max first second, now⟩]) =
      friendsOf friendships ⊔ SimpleGraph.edge first second := by
  ext a b
  rw [SimpleGraph.sup_adj, SimpleGraph.edge_adj]
  constructor
  · rintro ⟨hab, row, hrow, hkey⟩
    rcases List.mem_append.mp hrow with hold | hnew
    · exact Or.inl ⟨hab, row, hold, hkey⟩
    · obtain rfl := List.mem_singleton.mp hnew
      obtain ⟨hmin, hmax⟩ := Prod.mk.inj hkey
      rcases eq_or_swap_of_min_max hmin.symm hmax.symm with ⟨rfl, rfl⟩ | ⟨rfl, rfl⟩
      · exact Or.inr ⟨Or.inl ⟨rfl, rfl⟩, hab⟩
      · exact Or.inr ⟨Or.inr ⟨rfl, rfl⟩, hab⟩
  · rintro (⟨hab, row, hrow, hkey⟩ | ⟨⟨rfl, rfl⟩ | ⟨rfl, rfl⟩, hab⟩)
    · exact ⟨hab, row, List.mem_append_left _ hrow, hkey⟩
    · exact ⟨hab, _, List.mem_append_right _ (List.mem_singleton_self _), rfl⟩
    · exact ⟨hab, _, List.mem_append_right _ (List.mem_singleton_self _),
        Prod.ext (min_comm _ _) (max_comm _ _)⟩

theorem friendsOf_delete {friendships : List (FriendshipRow User)} (userId friendId : User) :
    friendsOf (Table.deleteWhere (fun row : FriendshipRow User ↦
        decide (row.userAId = min userId friendId ∧ row.userBId = max userId friendId))
        friendships).1 =
      (friendsOf friendships).deleteEdges {s(userId, friendId)} := by
  ext a b
  rw [SimpleGraph.deleteEdges_adj, Set.mem_singleton_iff, Sym2.eq_iff]
  constructor
  · rintro ⟨hab, row, hrow, hkey⟩
    obtain ⟨hold, hother⟩ := Table.mem_deleteWhere.mp hrow
    obtain ⟨hmin, hmax⟩ := Prod.mk.inj hkey
    refine ⟨⟨hab, row, hold, hkey⟩, ?_⟩
    rintro (⟨rfl, rfl⟩ | ⟨rfl, rfl⟩)
    · exact of_decide_eq_false hother ⟨hmin, hmax⟩
    · exact of_decide_eq_false hother ⟨hmin.trans (min_comm _ _), hmax.trans (max_comm _ _)⟩
  · rintro ⟨⟨hab, row, hrow, hkey⟩, hpair⟩
    obtain ⟨hmin, hmax⟩ := Prod.mk.inj hkey
    refine ⟨hab, row, Table.mem_deleteWhere.mpr ⟨hrow, decide_eq_false ?_⟩, hkey⟩
    rintro ⟨hfirst, hsecond⟩
    exact hpair (eq_or_swap_of_min_max (hmin.symm.trans hfirst) (hmax.symm.trans hsecond))

/-! ### Requests -/

theorem request_community (hvalid : db.Valid) {fromUserId toUserId : User}
    {status : RequestStatus} :
    db.community.request (fromUserId, toUserId) = some status ↔
      db.HasRequest fromUserId toUserId status := by
  rw [show db.community.request = requestsOf db.friendRequests from rfl, requestsOf,
    Option.map_eq_some_iff]
  refine exists_congr fun row ↦ ?_
  rw [hvalid.friendRequestsKey.lookup_eq_some, and_assoc]

theorem request_eq_none {pair : User × User} :
    db.community.request pair = none ↔ ∀ row ∈ db.friendRequests, row.key ≠ pair := by
  rw [show db.community.request = requestsOf db.friendRequests from rfl, requestsOf,
    Option.map_eq_none_iff, Table.lookup_eq_none]

theorem requestsOf_concat {rows : List (FriendRequestRow User)} {row : FriendRequestRow User}
    (hfresh : ∀ other ∈ rows, other.key ≠ row.key) :
    requestsOf (rows ++ [row]) =
      Function.update (requestsOf rows) row.key (some row.status) := by
  funext pair
  rw [requestsOf, Table.lookup_concat hfresh]
  by_cases hpair : pair = row.key
  · rw [hpair, Function.update_self, Function.update_self]
    rfl
  · rw [Function.update_of_ne hpair, Function.update_of_ne hpair]
    rfl

/-- The update of a status that asking and answering share: of the row of one pair, where its status
allows it. -/
def changeStatus (pair : User × User) (allowed : RequestStatus → Bool) (status : RequestStatus)
    (now : Int) (rows : List (FriendRequestRow User)) :
    List (FriendRequestRow User) × List (FriendRequestRow User) :=
  Table.updateWhere (fun row ↦ decide (row.key = pair) && allowed row.status)
    (fun row ↦ { row with status := status, updatedAt := now }) rows

theorem answerRequest_eq (status : RequestStatus) (now : Int) (fromUserId toUserId : User)
    (rows : List (FriendRequestRow User)) :
    Transaction.answerRequest status now fromUserId toUserId rows =
      changeStatus (fromUserId, toUserId) (fun old ↦ decide (old = .pending)) status now rows := by
  unfold Transaction.answerRequest changeStatus
  congr 1
  funext row
  rw [Bool.eq_iff_iff]
  simp [FriendRequestRow.key, and_assoc]

section Status

variable {rows : List (FriendRequestRow User)} {pair : User × User} {old : RequestStatus}
  (hunique : Table.KeyUnique FriendRequestRow.key rows) (hold : requestsOf rows pair = some old)

include hunique hold in
theorem changeStatus_isEmpty (allowed : RequestStatus → Bool) (status : RequestStatus) (now : Int) :
    (changeStatus pair allowed status now rows).2.isEmpty = !allowed old := by
  obtain ⟨row, hrow, rfl⟩ := Option.map_eq_some_iff.mp hold
  obtain ⟨hmem, hkey⟩ := Table.mem_of_lookup hrow
  rw [Bool.eq_iff_iff, List.isEmpty_iff, changeStatus, Table.updateWhere_returning_eq_nil,
    Bool.not_eq_true']
  constructor
  · intro hnone
    simpa [hkey] using hnone row hmem
  · intro hallowed other hother
    by_cases hpair : other.key = pair
    · rw [hunique.eq_of_key_eq hother hmem (hpair.trans hkey.symm), hallowed, Bool.and_false]
    · rw [decide_eq_false hpair, Bool.false_and]

include hold in
theorem requestsOf_changeStatus (allowed : RequestStatus → Bool) (status : RequestStatus)
    (now : Int) :
    requestsOf (changeStatus pair allowed status now rows).1 =
      if allowed old then Function.update (requestsOf rows) pair (some status)
      else requestsOf rows := by
  have hkey : ∀ row : FriendRequestRow User, ((fun row : FriendRequestRow User ↦
      { row with status := status, updatedAt := now }) row).key = row.key :=
    fun _ ↦ rfl
  funext other
  rw [requestsOf, changeStatus, Table.lookup_updateWhere hkey]
  obtain ⟨row, hrow, rfl⟩ := Option.map_eq_some_iff.mp hold
  by_cases hother : other = pair
  · subst hother
    have hpair := (Table.mem_of_lookup hrow).2
    rw [hrow]
    split_ifs with hallowed
    · simp [hpair, hallowed]
    · simp [hallowed, requestsOf, hrow]
  · have hkept : requestsOf rows other = ((Table.lookup FriendRequestRow.key rows other).map
        fun row ↦ if decide (row.key = pair) && allowed row.status then
          { row with status := status, updatedAt := now } else row).map
        FriendRequestRow.status := by
      rw [requestsOf, Option.map_map]
      refine Option.map_congr fun found hfound ↦ ?_
      have hfoundKey := (Table.mem_of_lookup hfound).2
      simp [hfoundKey, hother]
    rw [← hkept]
    split_ifs
    · rw [Function.update_of_ne hother]
    · rfl

end Status

/-! ### Rooms -/

section Rooms

variable {rooms rooms' : List (RoomRow User)} {members members' : List (RoomMemberRow User)}
  {messages messages' : List (MessageRow User)} {roomId : Int}

omit [LinearOrder User] in
theorem roomsOf_eq_none : roomsOf rooms members messages roomId = none ↔
    ∀ row ∈ rooms, row.id ≠ roomId := by
  rw [roomsOf, Option.map_eq_none_iff, Table.lookup_eq_none]

omit [LinearOrder User] in
/-- Tables that differ in one room only make communities that differ in this room only. -/
theorem roomsOf_eq_update {room : Option (ChatRoom User)}
    (hrooms : ∀ other ≠ roomId,
      Table.lookup RoomRow.id rooms' other = Table.lookup RoomRow.id rooms other)
    (hmembers : ∀ member : RoomMemberRow User, member.roomId ≠ roomId →
      (member ∈ members' ↔ member ∈ members))
    (hmessages : ∀ other ≠ roomId, ofRoom other messages' = ofRoom other messages)
    (hroom : roomsOf rooms' members' messages' roomId = room) :
    roomsOf rooms' members' messages' =
      Function.update (roomsOf rooms members messages) roomId room := by
  funext other
  by_cases hother : other = roomId
  · rw [hother, Function.update_self, hroom]
  · rw [Function.update_of_ne hother, roomsOf, roomsOf, hrooms other hother,
      hmessages other hother]
    refine Option.map_congr fun row _ ↦ ?_
    have hsame : {user | ∃ member ∈ members', member.key = (other, user)} =
        {user | ∃ member ∈ members, member.key = (other, user)} := by
      ext user
      refine exists_congr fun member ↦ and_congr_left fun hkey ↦ hmembers member ?_
      rw [(Prod.mk.inj hkey).1]
      exact hother
    rw [hsame]

omit [LinearOrder User] in
theorem roomsOf_create (row : RoomRow User) (hfresh : ∀ other ∈ rooms, other.id ≠ row.id)
    (hmembers : ∀ member ∈ members, member.roomId ≠ row.id)
    (hmessages : ∀ message ∈ messages, message.roomId ≠ row.id) (role : MemberRole) (now : Int) :
    roomsOf (rooms ++ [row]) (members ++ [⟨row.id, row.ownerUserId, role, now⟩]) messages =
      Function.update (roomsOf rooms members messages) row.id
        (some ⟨row.name, row.ownerUserId, {row.ownerUserId}, []⟩) := by
  refine roomsOf_eq_update (fun other hother ↦ ?_) (fun member hmember ↦ ?_)
    (fun _ _ ↦ rfl) ?_
  · rw [Table.lookup_concat hfresh, Function.update_of_ne hother]
  · rw [List.mem_append, List.mem_singleton, or_iff_left]
    rintro rfl
    exact hmember rfl
  · have hnone : ofRoom row.id messages = [] :=
      List.filter_eq_nil_iff.mpr fun message hmessage ↦ by simpa using hmessages message hmessage
    rw [roomsOf, Table.lookup_concat hfresh, Function.update_self, hnone, Option.map_some]
    refine congrArg some ?_
    congr 1
    ext user
    simp only [Set.mem_ofPred_eq, List.mem_append, List.mem_singleton, Set.mem_singleton_iff]
    constructor
    · rintro ⟨member, hmember | rfl, hkey⟩
      · exact absurd (Prod.mk.inj hkey).1 (hmembers member hmember)
      · exact (Prod.mk.inj hkey).2.symm
    · rintro rfl
      exact ⟨_, Or.inr rfl, rfl⟩

theorem roomsOf_delete (hunique : Table.KeyUnique RoomRow.id rooms) {row : RoomRow User}
    (hrow : Table.lookup RoomRow.id rooms roomId = some row) :
    roomsOf (Table.deleteWhere (fun other : RoomRow User ↦
          decide (other.id = roomId ∧ other.ownerUserId = row.ownerUserId)) rooms).1
        (Table.deleteWhere (fun member : RoomMemberRow User ↦
          decide (member.roomId = roomId)) members).1
        (Table.deleteWhere (fun message : MessageRow User ↦
          decide (message.roomId = roomId)) messages).1 =
      Function.update (roomsOf rooms members messages) roomId none := by
  refine roomsOf_eq_update (fun other hother ↦ ?_) (fun member hmember ↦ ?_)
    (fun other hother ↦ ?_) ?_
  · rw [hunique.lookup_deleteWhere]
    cases hfound : Table.lookup RoomRow.id rooms other with
    | none => rfl
    | some found =>
      have hid := (Table.mem_of_lookup hfound).2
      simp [hid, hother]
  · simp [hmember]
  · rw [ofRoom, Table.deleteWhere, List.filter_filter]
    refine List.filter_congr fun message _ ↦ ?_
    by_cases hroom : message.roomId = other
    · simp [hroom, hother]
    · simp [hroom]
  · rw [roomsOf, hunique.lookup_deleteWhere, hrow]
    simp [(Table.mem_of_lookup hrow).2]

omit [LinearOrder User] in
/-- A new member joins the room it has a row for. -/
theorem roomsOf_join {room : ChatRoom User}
    (hroom : roomsOf rooms members messages roomId = some room) (userId : User)
    (role : MemberRole) (now : Int) :
    roomsOf rooms (members ++ [⟨roomId, userId, role, now⟩]) messages =
      Function.update (roomsOf rooms members messages) roomId
        (some { room with members := insert userId room.members }) := by
  refine roomsOf_eq_update (fun _ _ ↦ rfl) (fun member hmember ↦ ?_) (fun _ _ ↦ rfl) ?_
  · rw [List.mem_append, List.mem_singleton, or_iff_left]
    rintro rfl
    exact hmember rfl
  · obtain ⟨row, hrow, rfl⟩ := Option.map_eq_some_iff.mp hroom
    rw [roomsOf, hrow, Option.map_some]
    refine congrArg some ?_
    congr 1
    ext user
    simp only [Set.mem_ofPred_eq, List.mem_append, List.mem_singleton, Set.mem_insert_iff]
    constructor
    · rintro ⟨member, hmember | rfl, hkey⟩
      · exact Or.inr ⟨member, hmember, hkey⟩
      · exact Or.inl (Prod.mk.inj hkey).2.symm
    · rintro (rfl | ⟨member, hmember, hkey⟩)
      · exact ⟨_, Or.inr rfl, rfl⟩
      · exact ⟨member, Or.inl hmember, hkey⟩

theorem roomsOf_leave {room : ChatRoom User}
    (hroom : roomsOf rooms members messages roomId = some room) (userId : User) :
    roomsOf rooms (Table.deleteWhere (fun member : RoomMemberRow User ↦
        decide (member.roomId = roomId ∧ member.userId = userId)) members).1 messages =
      Function.update (roomsOf rooms members messages) roomId
        (some { room with members := room.members \ {userId} }) := by
  refine roomsOf_eq_update (fun _ _ ↦ rfl) (fun member hmember ↦ ?_) (fun _ _ ↦ rfl) ?_
  · simp [hmember]
  · obtain ⟨row, hrow, rfl⟩ := Option.map_eq_some_iff.mp hroom
    rw [roomsOf, hrow, Option.map_some]
    refine congrArg some ?_
    congr 1
    ext user
    simp only [Set.mem_ofPred_eq, Table.mem_deleteWhere, decide_eq_false_iff_not, Set.mem_sdiff,
      Set.mem_singleton_iff]
    constructor
    · rintro ⟨member, ⟨hmember, hother⟩, hkey⟩
      obtain ⟨hid, rfl⟩ := Prod.mk.inj hkey
      exact ⟨⟨member, hmember, hkey⟩, fun huser ↦ hother ⟨hid, huser⟩⟩
    · rintro ⟨⟨member, hmember, hkey⟩, huser⟩
      obtain ⟨-, rfl⟩ := Prod.mk.inj hkey
      exact ⟨member, ⟨hmember, fun hboth ↦ huser hboth.2⟩, hkey⟩

omit [LinearOrder User] in
theorem roomsOf_post {room : ChatRoom User}
    (hroom : roomsOf rooms members messages roomId = some room) {message : MessageRow User}
    (hmessage : message.roomId = roomId) :
    roomsOf rooms members (messages ++ [message]) =
      Function.update (roomsOf rooms members messages) roomId
        (some { room with messages := room.messages ++ [message.info] }) := by
  refine roomsOf_eq_update (fun _ _ ↦ rfl) (fun _ _ ↦ Iff.rfl) (fun other hother ↦ ?_) ?_
  · have hne : message.roomId ≠ other := by
      rw [hmessage]
      exact hother.symm
    rw [ofRoom, List.filter_append, List.filter_singleton, decide_eq_false hne]
    simp [ofRoom]
  · obtain ⟨row, hrow, rfl⟩ := Option.map_eq_some_iff.mp hroom
    rw [roomsOf, hrow, ofRoom, List.filter_append, List.filter_singleton, decide_eq_true hmessage]
    simp [ofRoom]

end Rooms

/-! ### Operations -/

/-- What an operation answers. -/
def DbResult.answer {Result : Type} (wrap : Result → Answer) : DbResult User Result → Answer
  | .ok (result, _) => wrap result
  | .error error => .failed error

/-- The answer of an operation and the community it leaves. -/
def DbResult.seen {Result : Type} (wrap : Result → Answer) (db : Database User)
    (result : DbResult User Result) : Answer × Community User :=
  (DbResult.answer wrap result, (DbResult.committed db result).community)

theorem signup_refines (id : User) (pw : Bytes) :
    DbResult.seen .changed db (Transaction.signup id pw db) = db.community.signup id pw := by
  unfold Community.signup Transaction.signup
  dsimp only
  rcases Table.insertOrNothing_cases UserRow.id db.users ⟨id, pw, text "guest"⟩ with
    ⟨hconflict, hinsert⟩ | ⟨hfresh, hinsert⟩
  · obtain ⟨account, haccount⟩ :=
      Option.ne_none_iff_exists'.mp (isUser_community.mpr hconflict)
    rw [haccount, hinsert]
    rfl
  · rw [show db.community.account id = none from accountsOf_eq_none.mpr hfresh, hinsert]
    exact Prod.ext rfl (Community.ext (accountsOf_concat hfresh) rfl rfl rfl rfl rfl)

theorem changeNickname_refines (id : User) (nickname : Bytes) :
    DbResult.seen .changed db (Transaction.changeNickname id nickname db) =
      db.community.changeNickname id nickname := by
  unfold Community.changeNickname Transaction.changeNickname
  dsimp only
  cases haccount : db.community.account id with
  | none =>
    have hnone : ∀ row ∈ db.users, decide (row.id = id) = false :=
      fun row hrow ↦ decide_eq_false (accountsOf_eq_none.mp haccount row hrow)
    rw [Table.updateWhere_of_forall hnone]
    rfl
  | some account =>
    have huser : db.IsUser id := isUser_community.mp (by simp [Community.IsUser, haccount])
    have hsome : (Table.updateWhere (fun row : UserRow User ↦ decide (row.id = id))
        (fun row ↦ { row with nickname := nickname }) db.users).2.isEmpty = false := by
      rw [← Bool.not_eq_true, List.isEmpty_iff, Table.updateWhere_returning_eq_nil]
      intro hnone
      obtain ⟨row, hrow, hid⟩ := huser
      exact of_decide_eq_false (hnone row hrow) hid
    refine Prod.ext (congrArg (fun result ↦ Answer.changed (!result)) hsome) ?_
    exact Community.ext (accountsOf_rename haccount nickname) rfl rfl rfl rfl rfl

theorem addFriend_refines (hvalid : db.Valid) (now : Int) (userId friendId : User) :
    DbResult.seen .changed db (Transaction.addFriend now userId friendId db) =
      db.community.addFriend userId friendId := by
  unfold Community.addFriend Transaction.addFriend Transaction.insertFriendship
  dsimp only
  rw [isUser_community, isUser_community, adj_community hvalid]
  by_cases hne : userId = friendId
  · rw [if_pos hne, if_pos (min_lt_max.not.mpr (not_not.mpr hne))]
    rfl
  rw [if_neg hne, if_neg (not_not.mpr (min_lt_max.mpr hne))]
  rcases Table.insertOrNothing_cases FriendshipRow.key db.friendships
    ⟨min userId friendId, max userId friendId, now⟩ with ⟨hconflict, hinsert⟩ | ⟨hfresh, hinsert⟩
  · have hfriends : db.AreFriends userId friendId := hconflict
    rw [if_pos hfriends, hinsert, if_neg (by simp)]
    rfl
  · have hfriends : ¬ db.AreFriends userId friendId :=
      fun ⟨row, hrow, hkey⟩ ↦ hfresh row hrow hkey
    rw [if_neg hfriends, hinsert]
    by_cases husers : db.IsUser userId ∧ db.IsUser friendId
    · rw [if_pos husers, if_neg (fun hboth ↦ hboth.2 husers)]
      exact Prod.ext rfl (Community.ext rfl (friendsOf_concat hne now) rfl rfl rfl rfl)
    · rw [if_neg husers, if_pos ⟨by simp, husers⟩]
      rfl

theorem removeFriend_refines (hvalid : db.Valid) (userId friendId : User) :
    DbResult.seen .changed db (Transaction.removeFriend userId friendId db) =
      db.community.removeFriend userId friendId := by
  unfold Community.removeFriend Transaction.removeFriend
  dsimp only
  refine Prod.ext (congrArg Answer.changed ?_)
    (Community.ext rfl (friendsOf_delete userId friendId) rfl rfl rfl rfl)
  rw [Bool.eq_iff_iff, decide_eq_true_eq, adj_community hvalid, Bool.not_eq_true',
    Table.deleteWhere, ← Bool.not_eq_true, List.isEmpty_iff, List.filter_eq_nil_iff]
  push Not
  exact exists_congr fun row ↦ and_congr_right fun _ ↦ decide_eq_true_iff.trans Prod.mk_inj.symm

theorem requestFriend_refines (hvalid : db.Valid) (now : Int) (fromUserId toUserId : User) :
    DbResult.seen .changed db (Transaction.requestFriend now fromUserId toUserId db) =
      db.community.requestFriend fromUserId toUserId := by
  unfold Community.requestFriend Transaction.requestFriend
  dsimp only
  rw [isUser_community, isUser_community, adj_community hvalid]
  by_cases hfriends : db.AreFriends fromUserId toUserId
  · rw [if_pos hfriends, if_pos hfriends]
    rfl
  rw [if_neg hfriends, if_neg hfriends]
  by_cases hself : fromUserId = toUserId
  · rw [if_pos hself, if_pos hself]
    rfl
  rw [if_neg hself, if_neg hself]
  cases hrequest : db.community.request (fromUserId, toUserId) with
  | none =>
    have hfresh := request_eq_none.mp hrequest
    have hconflict : Table.conflict FriendRequestRow.key
        (⟨fromUserId, toUserId, .pending, now, now⟩ : FriendRequestRow User) db.friendRequests =
          false :=
      Table.conflict_eq_false.mpr hfresh
    rw [Table.insertOrUpdate, hconflict]
    by_cases husers : db.IsUser fromUserId ∧ db.IsUser toUserId
    · rw [if_neg (fun hboth ↦ hboth.2 husers)]
      dsimp only
      rw [if_pos husers]
      exact Prod.ext rfl (Community.ext rfl rfl (requestsOf_concat hfresh) rfl rfl rfl)
    · rw [if_pos ⟨Bool.false_ne_true, husers⟩]
      dsimp only
      rw [if_neg husers]
      rfl
  | some status =>
    have hconflict : Table.conflict FriendRequestRow.key
        (⟨fromUserId, toUserId, .pending, now, now⟩ : FriendRequestRow User) db.friendRequests =
          true := by
      obtain ⟨row, hrow, hkey, -⟩ := (request_community hvalid).mp hrequest
      exact Table.conflict_eq_true.mpr ⟨row, hrow, hkey⟩
    have hempty := changeStatus_isEmpty hvalid.friendRequestsKey hrequest
      (fun old ↦ decide (old = .rejected ∨ old = .canceled)) .pending now
    have hnext := requestsOf_changeStatus hrequest
      (fun old ↦ decide (old = .rejected ∨ old = .canceled)) .pending now
    rw [changeStatus] at hempty hnext
    rw [Table.insertOrUpdate, hconflict, if_neg (fun hboth ↦ hboth.1 rfl), if_pos rfl]
    cases status with
    | rejected | canceled =>
      exact Prod.ext (congrArg (fun empty ↦ Answer.changed (!empty)) hempty)
        (Community.ext rfl rfl hnext rfl rfl rfl)
    | pending | accepted =>
      exact Prod.ext (congrArg (fun empty ↦ Answer.changed (!empty)) hempty)
        (Community.ext rfl rfl hnext rfl rfl rfl)

/-- Answering with a status sets it where the request of the pair is pending. -/
theorem answerRequest_refines (hvalid : db.Valid) (status : RequestStatus) (now : Int)
    (fromUserId toUserId : User) :
    (Transaction.answerRequest status now fromUserId toUserId db.friendRequests).2.isEmpty =
        !decide (db.community.request (fromUserId, toUserId) = some .pending) ∧
      ({ db with friendRequests :=
          (Transaction.answerRequest status now fromUserId toUserId db.friendRequests).1 } :
        Database User).community =
        if db.community.request (fromUserId, toUserId) = some .pending then
          db.community.withRequest fromUserId toUserId status
        else db.community := by
  rw [answerRequest_eq]
  cases hrequest : db.community.request (fromUserId, toUserId) with
  | none =>
    have hnone : ∀ row ∈ db.friendRequests,
        (decide (row.key = (fromUserId, toUserId)) && decide (row.status = .pending)) = false := by
      intro row hrow
      rw [decide_eq_false (request_eq_none.mp hrequest row hrow), Bool.false_and]
    rw [changeStatus, Table.updateWhere_of_forall hnone]
    exact ⟨rfl, rfl⟩
  | some old =>
    rw [changeStatus_isEmpty hvalid.friendRequestsKey hrequest]
    refine ⟨by simp, ?_⟩
    have hnext := requestsOf_changeStatus hrequest (fun old ↦ decide (old = .pending)) status now
    by_cases hpending : old = .pending
    · rw [hpending, if_pos rfl]
      rw [if_pos (decide_eq_true hpending)] at hnext
      exact Community.ext rfl rfl hnext rfl rfl rfl
    · rw [if_neg (by simpa using hpending)]
      rw [if_neg (by simpa using hpending)] at hnext
      exact Community.ext rfl rfl hnext rfl rfl rfl

theorem rejectFriendRequest_refines (hvalid : db.Valid) (now : Int) (fromUserId toUserId : User) :
    DbResult.seen .changed db (Transaction.rejectFriendRequest now fromUserId toUserId db) =
      db.community.rejectFriendRequest fromUserId toUserId := by
  obtain ⟨hempty, hnext⟩ := answerRequest_refines hvalid .rejected now fromUserId toUserId
  unfold Community.rejectFriendRequest Transaction.rejectFriendRequest
  dsimp only
  rw [hempty]
  by_cases hpending : db.community.request (fromUserId, toUserId) = some .pending
  · rw [if_pos hpending] at hnext ⊢
    rw [decide_eq_true hpending]
    exact Prod.ext rfl hnext
  · rw [if_neg hpending] at hnext ⊢
    rw [decide_eq_false hpending]
    exact Prod.ext rfl hnext

/-- Between two distinct users the insertion succeeds, and they are friends after it, whether or not
they were before. -/
theorem insertFriendship_befriends (hvalid : db.Valid) (now : Int) {first second : User}
    (hne : first ≠ second) (hfirst : db.IsUser first) (hsecond : db.IsUser second) :
    ∃ inserted next, Transaction.insertFriendship now first second db = .ok (inserted, next) ∧
      next.community = db.community.befriend first second := by
  have hadd := addFriend_refines hvalid now first second
  have husers : db.community.IsUser first ∧ db.community.IsUser second :=
    ⟨isUser_community.mpr hfirst, isUser_community.mpr hsecond⟩
  rw [Community.addFriend, if_neg hne, if_pos husers] at hadd
  cases hinsert : Transaction.insertFriendship now first second db with
  | error error =>
    rw [Transaction.addFriend, hinsert] at hadd
    split_ifs at hadd <;> cases congrArg Prod.fst hadd
  | ok value =>
    rw [Transaction.addFriend, hinsert] at hadd
    refine ⟨value.1, value.2, rfl, ?_⟩
    split_ifs at hadd with hadj
    · refine (congrArg Prod.snd hadd).trans (Community.ext rfl ?_ rfl rfl rfl rfl)
      exact (SimpleGraph.sup_edge_of_adj _ hadj).symm
    · exact congrArg Prod.snd hadd

/-- Accepting cannot fail: whoever has a pending request is a user. -/
theorem acceptFriendRequest_refines (hvalid : db.Valid) (now : Int) (fromUserId toUserId : User) :
    DbResult.seen .changed db (Transaction.acceptFriendRequest now fromUserId toUserId db) =
      db.community.acceptFriendRequest fromUserId toUserId := by
  obtain ⟨hempty, hnext⟩ := answerRequest_refines hvalid .accepted now fromUserId toUserId
  unfold Community.acceptFriendRequest Transaction.acceptFriendRequest
  dsimp only
  rw [hempty]
  by_cases hpending : db.community.request (fromUserId, toUserId) = some .pending
  · rw [if_pos hpending] at hnext ⊢
    rw [decide_eq_true hpending, if_neg (by simp)]
    obtain ⟨row, hrow, hkey, -⟩ := (request_community hvalid).mp hpending
    obtain ⟨rfl, rfl⟩ := Prod.mk.inj hkey
    obtain ⟨inserted, next, hinsert, hcommunity⟩ := insertFriendship_befriends
      (valid_answerRequest hvalid .accepted now row.fromUserId row.toUserId) now
      (hvalid.friendRequestsDistinct row hrow) (hvalid.friendRequestUsers row hrow).1
      (hvalid.friendRequestUsers row hrow).2
    rw [hinsert]
    rw [hnext] at hcommunity
    exact Prod.ext rfl hcommunity
  · rw [if_neg hpending] at hnext ⊢
    rw [decide_eq_false hpending, Bool.not_false, if_pos rfl]
    exact Prod.ext rfl hnext

/-! ### Operations on rooms -/

/-- A room of the community is a row with the users that have a row in it. -/
theorem room_cases (db : Database User) (roomId : Int) :
    (db.community.room roomId = none ∧ ∀ row ∈ db.rooms, row.id ≠ roomId) ∨
      ∃ row room, Table.lookup RoomRow.id db.rooms roomId = some row ∧
        db.community.room roomId = some room ∧ room.owner = row.ownerUserId ∧
        ∀ user, user ∈ room.members ↔ db.IsMember roomId user := by
  cases hroom : db.community.room roomId with
  | none => exact Or.inl ⟨rfl, roomsOf_eq_none.mp hroom⟩
  | some room =>
    obtain ⟨row, hrow, rfl⟩ := Option.map_eq_some_iff.mp hroom
    exact Or.inr ⟨row, _, hrow, rfl, rfl, fun _ ↦ Iff.rfl⟩

theorem not_isMember_of_noRoom (hvalid : db.Valid) {roomId : Int}
    (hroom : ∀ row ∈ db.rooms, row.id ≠ roomId) (user : User) : ¬ db.IsMember roomId user := by
  rintro ⟨member, hmember, hkey⟩
  obtain ⟨row, hrow, hid⟩ := (hvalid.roomMemberRefs member hmember).1
  exact hroom row hrow (hid.trans (Prod.mk.inj hkey).1)

theorem createRoom_refines (hvalid : db.Valid) (now : Int) (gap : Nat) (ownerUserId : User)
    (roomName : Bytes) :
    DbResult.seen .created db (Transaction.createRoom now gap ownerUserId roomName db) =
      db.community.createRoom gap ownerUserId roomName := by
  unfold Community.createRoom Transaction.createRoom
  dsimp only
  rw [isUser_community]
  by_cases howner : db.IsUser ownerUserId
  · rw [if_pos howner, if_neg (not_not.mpr howner)]
    have hfresh : ∀ row ∈ db.rooms, row.id ≠ db.nextRoomId + gap := by
      intro row hrow
      have := hvalid.roomIds.2 row hrow
      omega
    have hmembers : ∀ member ∈ db.roomMembers, member.roomId ≠ db.nextRoomId + gap := by
      intro member hmember
      obtain ⟨row, hrow, hid⟩ := (hvalid.roomMemberRefs member hmember).1
      exact hid ▸ hfresh row hrow
    have hmessages : ∀ message ∈ db.messages, message.roomId ≠ db.nextRoomId + gap := by
      intro message hmessage
      obtain ⟨row, hrow, hid⟩ := (hvalid.messageRefs message hmessage).1
      exact hid ▸ hfresh row hrow
    have hinsert : Table.insertOrNothing RoomMemberRow.key
        ⟨db.nextRoomId + gap, ownerUserId, .owner, now⟩ db.roomMembers =
          (db.roomMembers ++ [⟨db.nextRoomId + gap, ownerUserId, .owner, now⟩],
            [⟨db.nextRoomId + gap, ownerUserId, .owner, now⟩]) := by
      rw [Table.insertOrNothing, if_neg]
      rw [Bool.not_eq_true, Table.conflict_eq_false]
      exact fun member hmember hkey ↦ hmembers member hmember (Prod.mk.inj hkey).1
    rw [hinsert]
    exact Prod.ext rfl (Community.ext rfl rfl rfl
      (roomsOf_create ⟨db.nextRoomId + gap, roomName, ownerUserId, now⟩ hfresh hmembers
        hmessages .owner now) rfl rfl)
  · rw [if_neg howner, if_pos howner]
    rfl

theorem deleteRoom_refines (hvalid : db.Valid) (ownerUserId : User) (roomId : Int) :
    DbResult.seen .changed db (Transaction.deleteRoom ownerUserId roomId db) =
      db.community.deleteRoom ownerUserId roomId := by
  unfold Community.deleteRoom Transaction.deleteRoom
  dsimp only
  have hempty : (Table.deleteWhere (fun row : RoomRow User ↦
      decide (row.id = roomId ∧ row.ownerUserId = ownerUserId)) db.rooms).2.isEmpty = true ↔
        ∀ row ∈ db.rooms, ¬ (row.id = roomId ∧ row.ownerUserId = ownerUserId) := by
    rw [List.isEmpty_iff, Table.deleteWhere, List.filter_eq_nil_iff]
    simp
  rcases room_cases db roomId with ⟨hroom, hnone⟩ | ⟨row, room, hrow, hroom, howner, -⟩
  · rw [hroom, if_pos (hempty.mpr fun row hrow hboth ↦ hnone row hrow hboth.1)]
    rfl
  · rw [hroom]
    obtain ⟨hmem, hid⟩ := Table.mem_of_lookup hrow
    by_cases hown : room.owner = ownerUserId
    · rw [howner] at hown
      subst hown
      rw [if_neg (fun hall ↦ hempty.mp hall row hmem ⟨hid, rfl⟩)]
      dsimp only
      rw [if_pos howner]
      exact Prod.ext rfl (Community.ext rfl rfl rfl (roomsOf_delete hvalid.roomsKey hrow) rfl rfl)
    · have hall : ∀ other ∈ db.rooms,
          ¬ (other.id = roomId ∧ other.ownerUserId = ownerUserId) := by
        rintro other hother ⟨hotherId, hotherOwner⟩
        have hsame := hvalid.roomsKey.eq_of_key_eq hother hmem (hotherId.trans hid.symm)
        exact hown (howner.trans (hsame ▸ hotherOwner))
      rw [if_pos (hempty.mpr hall)]
      dsimp only
      rw [if_neg hown]
      rfl

theorem inviteRoom_refines (hvalid : db.Valid) (now : Int) (inviterUserId : User) (roomId : Int)
    (friendUserId : User) :
    DbResult.seen .invited db (Transaction.inviteRoom now inviterUserId roomId friendUserId db) =
      db.community.inviteRoom inviterUserId roomId friendUserId := by
  unfold Community.inviteRoom Transaction.inviteRoom
  dsimp only
  rcases room_cases db roomId with ⟨hroom, hnone⟩ | ⟨row, room, hrow, hroom, -, hmembers⟩
  · rw [hroom, if_pos (not_isMember_of_noRoom hvalid hnone inviterUserId)]
    rfl
  rw [hroom]
  dsimp only
  rw [hmembers, hmembers, adj_community hvalid]
  by_cases hinviter : db.IsMember roomId inviterUserId
  swap
  · rw [if_pos hinviter, if_pos hinviter]
    rfl
  rw [if_neg (not_not.mpr hinviter), if_neg (not_not.mpr hinviter)]
  by_cases hfriends : db.AreFriends inviterUserId friendUserId
  swap
  · rw [if_pos hfriends, if_pos hfriends]
    rfl
  rw [if_neg (not_not.mpr hfriends), if_neg (not_not.mpr hfriends)]
  rcases Table.insertOrNothing_cases RoomMemberRow.key db.roomMembers
    ⟨roomId, friendUserId, .member, now⟩ with ⟨hconflict, hinsert⟩ | ⟨hfresh, hinsert⟩
  · have hmember : db.IsMember roomId friendUserId := hconflict
    rw [hinsert, if_pos hmember, if_neg (by simp)]
    rfl
  · have hmember : ¬ db.IsMember roomId friendUserId :=
      fun ⟨member, hmem, hkey⟩ ↦ hfresh member hmem hkey
    have hrefs : db.IsRoom roomId ∧ db.IsUser friendUserId :=
      ⟨⟨row, Table.mem_of_lookup hrow⟩, isUser_of_areFriends hvalid hfriends⟩
    rw [hinsert, if_neg hmember, if_neg (fun hboth ↦ hboth.2 hrefs)]
    exact Prod.ext rfl (Community.ext rfl rfl rfl
      (roomsOf_join hroom friendUserId .member now) rfl rfl)

theorem createRoomMessage_refines (hvalid : db.Valid) (now : Int) (gap : Nat) (roomId : Int)
    (senderUserId : User) (body : Bytes) :
    DbResult.seen .posted db
        (Transaction.createRoomMessage now gap roomId senderUserId body db) =
      db.community.createRoomMessage now gap roomId senderUserId body := by
  unfold Community.createRoomMessage Transaction.createRoomMessage
  dsimp only
  rcases room_cases db roomId with ⟨hroom, hnone⟩ | ⟨row, room, hrow, hroom, -, hmembers⟩
  · rw [hroom, if_pos (not_isMember_of_noRoom hvalid hnone senderUserId)]
    rfl
  rw [hroom]
  dsimp only
  rw [hmembers]
  by_cases hsender : db.IsMember roomId senderUserId
  · obtain ⟨member, hmember, hkey⟩ := hsender
    have hrefs := hvalid.roomMemberRefs member hmember
    obtain ⟨rfl, rfl⟩ := Prod.mk.inj hkey
    rw [if_neg (not_not.mpr ⟨member, hmember, rfl⟩), if_neg (not_not.mpr hrefs),
      if_neg (not_not.mpr ⟨member, hmember, rfl⟩)]
    exact Prod.ext rfl (Community.ext rfl rfl rfl (roomsOf_post hroom rfl) rfl rfl)
  · rw [if_pos hsender, if_pos hsender]
    rfl

theorem leaveRoom_refines (asked userId : User) (roomId : Int) :
    DbResult.seen .left db (Transaction.leaveRoom asked userId roomId db) =
      db.community.leaveRoom asked userId roomId := by
  unfold Community.leaveRoom Transaction.leaveRoom
  dsimp only
  rw [← Table.lookup]
  rcases room_cases db roomId with ⟨hroom, hnone⟩ | ⟨row, room, hrow, hroom, howner, hmembers⟩
  · rw [hroom, Table.lookup_eq_none.mpr hnone]
    rfl
  rw [hroom, hrow]
  dsimp only
  rw [← howner, hmembers]
  by_cases hown : room.owner = asked
  · rw [if_pos hown, if_pos hown]
    rfl
  rw [if_neg hown, if_neg hown]
  have hempty : (Table.deleteWhere (fun member : RoomMemberRow User ↦
      decide (member.roomId = roomId ∧ member.userId = userId)) db.roomMembers).2.isEmpty = true ↔
        ¬ db.IsMember roomId userId := by
    rw [List.isEmpty_iff, Table.deleteWhere, List.filter_eq_nil_iff]
    simp [Database.IsMember, RoomMemberRow.key]
  by_cases hmember : db.IsMember roomId userId
  · rw [if_neg (not_not.mpr hmember), if_neg (fun hnone ↦ hempty.mp hnone hmember)]
    exact Prod.ext rfl (Community.ext rfl rfl rfl (roomsOf_leave hroom userId) rfl rfl)
  · have hnone := hempty.mpr hmember
    rw [if_pos hmember, if_pos hnone, Table.deleteWhere_of_isEmpty hnone]
    rfl

/-! ### Transactions -/

/-- What a transaction answers. -/
def WriteCall.answer (call : WriteCall User) (db : Database User) : Answer :=
  match call with
  | .signup id pw => DbResult.answer .changed (Transaction.signup id pw db)
  | .changeNickname id nickname =>
    DbResult.answer .changed (Transaction.changeNickname id nickname db)
  | .addFriend now userId friendId =>
    DbResult.answer .changed (Transaction.addFriend now userId friendId db)
  | .removeFriend userId friendId =>
    DbResult.answer .changed (Transaction.removeFriend userId friendId db)
  | .requestFriend now fromUserId toUserId =>
    DbResult.answer .changed (Transaction.requestFriend now fromUserId toUserId db)
  | .acceptFriendRequest now fromUserId toUserId =>
    DbResult.answer .changed (Transaction.acceptFriendRequest now fromUserId toUserId db)
  | .rejectFriendRequest now fromUserId toUserId =>
    DbResult.answer .changed (Transaction.rejectFriendRequest now fromUserId toUserId db)
  | .createRoom now gap ownerUserId roomName =>
    DbResult.answer .created (Transaction.createRoom now gap ownerUserId roomName db)
  | .deleteRoom ownerUserId roomId =>
    DbResult.answer .changed (Transaction.deleteRoom ownerUserId roomId db)
  | .inviteRoom now inviterUserId roomId friendUserId =>
    DbResult.answer .invited (Transaction.inviteRoom now inviterUserId roomId friendUserId db)
  | .createRoomMessage now gap roomId senderUserId body =>
    DbResult.answer .posted (Transaction.createRoomMessage now gap roomId senderUserId body db)
  | .leaveRoom asked userId roomId =>
    DbResult.answer .left (Transaction.leaveRoom asked userId roomId db)

theorem call_refines (hvalid : db.Valid) (call : WriteCall User) :
    (call.answer db, (call.run db).community) = db.community.step call := by
  cases call with
  | signup id pw => exact signup_refines id pw
  | changeNickname id nickname => exact changeNickname_refines id nickname
  | addFriend now userId friendId => exact addFriend_refines hvalid now userId friendId
  | removeFriend userId friendId => exact removeFriend_refines hvalid userId friendId
  | requestFriend now fromUserId toUserId =>
    exact requestFriend_refines hvalid now fromUserId toUserId
  | acceptFriendRequest now fromUserId toUserId =>
    exact acceptFriendRequest_refines hvalid now fromUserId toUserId
  | rejectFriendRequest now fromUserId toUserId =>
    exact rejectFriendRequest_refines hvalid now fromUserId toUserId
  | createRoom now gap ownerUserId roomName =>
    exact createRoom_refines hvalid now gap ownerUserId roomName
  | deleteRoom ownerUserId roomId => exact deleteRoom_refines hvalid ownerUserId roomId
  | inviteRoom now inviterUserId roomId friendUserId =>
    exact inviteRoom_refines hvalid now inviterUserId roomId friendUserId
  | createRoomMessage now gap roomId senderUserId body =>
    exact createRoomMessage_refines hvalid now gap roomId senderUserId body
  | leaveRoom asked userId roomId => exact leaveRoom_refines asked userId roomId

/-! ### The service -/

section Service

variable [LinearOrder Bytes] {db : Database Bytes}

/-- What a call answers. -/
def ServiceCall.answer (call : ServiceCall) (db : Database Bytes) : Answer :=
  match call with
  | .signup id pw => DbResult.answer .changed (DbService.signup id pw db)
  | .changeNickname id nickname =>
    DbResult.answer .changed (DbService.changeNickname id nickname db)
  | .addFriend now userId friendId =>
    DbResult.answer .changed (DbService.addFriend now userId friendId db)
  | .removeFriend userId friendId =>
    DbResult.answer .changed (DbService.removeFriend userId friendId db)
  | .requestFriend now fromUserId toUserId =>
    DbResult.answer .changed (DbService.requestFriend now fromUserId toUserId db)
  | .acceptFriendRequest now fromUserId toUserId =>
    DbResult.answer .changed (DbService.acceptFriendRequest now fromUserId toUserId db)
  | .rejectFriendRequest now fromUserId toUserId =>
    DbResult.answer .changed (DbService.rejectFriendRequest now fromUserId toUserId db)
  | .createRoom now gap ownerUserId roomName =>
    DbResult.answer .created (DbService.createRoom now gap ownerUserId roomName db)
  | .deleteRoom ownerUserId roomId =>
    DbResult.answer .changed (DbService.deleteRoom ownerUserId roomId db)
  | .inviteRoom now inviterUserId roomId friendUserId =>
    DbResult.answer .invited (DbService.inviteRoom now inviterUserId roomId friendUserId db)
  | .createRoomMessage now gap roomId senderUserId body =>
    DbResult.answer .posted (DbService.createRoomMessage now gap roomId senderUserId body db)
  | .leaveRoom userId roomId => DbResult.answer .left (DbService.leaveRoom userId roomId db)

/-- A call answers what its transaction answers. -/
theorem ServiceCall.answer_eq (call : ServiceCall) (db : Database Bytes) :
    call.answer db = call.bind.answer db := by
  cases call <;> rfl

/-- `db_service` on the empty schema, as a machine that reads calls. -/
def serviceMachine : Machine (Database Bytes) ServiceCall Answer where
  start := Database.empty Bytes
  step call db := (call.answer db, call.run db)

theorem serviceMachine_refines :
    serviceMachine.Refines ((communityMachine Bytes).comap ServiceCall.bind) Database.Valid
      Database.community where
  start := ⟨Database.valid_empty Bytes, community_empty⟩
  keeps call db hvalid := by
    show (call.run db).Valid
    rw [call.run_eq]
    exact valid_run hvalid call.bind
  agrees call db hvalid := by
    show (call.answer db, (call.run db).community) = db.community.step call.bind
    rw [call.answer_eq, call.run_eq]
    -- the equality test on byte strings is the list's here and the order's there
    convert call_refines hvalid call.bind

/-- The databases of the machine are those after the calls. -/
theorem serviceMachine_run (calls : List ServiceCall) :
    (serviceMachine.run calls).2 = Database.served calls := by
  refine @Machine.run_induction _ _ _ serviceMachine
    (fun calls db ↦ db = Database.served calls) rfl (fun calls call hdb ↦ ?_) calls
  rw [Database.served_concat, ← hdb]
  rfl

theorem community_served (calls : List ServiceCall) :
    (Database.served calls).community =
      ((communityMachine Bytes).run (calls.map ServiceCall.bind)).2 := by
  rw [← Machine.run_comap, ← (serviceMachine_refines.run_eq calls).2, ← serviceMachine_run]
  rfl

/-- The service is the community. To every sequence of calls on the empty schema `db_service` gives
the answers that the community gives to their transactions, results and errors alike, and the tables
it leaves store the community that these transactions make. -/
theorem service_refines (calls : List ServiceCall) :
    (serviceMachine.run calls).1 =
        ((communityMachine Bytes).run (calls.map ServiceCall.bind)).1 ∧
      (Database.served calls).community =
        ((communityMachine Bytes).run (calls.map ServiceCall.bind)).2 := by
  refine ⟨?_, community_served calls⟩
  rw [← Machine.run_comap, ← (serviceMachine_refines.run_eq calls).2]
  rfl

end Service

end ChatServer
