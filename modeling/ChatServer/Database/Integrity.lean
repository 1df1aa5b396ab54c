import Mathlib.Data.List.Induction
import ChatServer.Database.Transactions

/-!
# Every transaction keeps the constraints

The model's transactions test the constraints PostgreSQL would test, in the places where the
statements could violate them. This module shows that nothing else is needed: whenever a writing
transaction commits, the database it leaves satisfies every primary key, check and foreign key of
the schema (`Database.Valid`), so every database after a sequence of them does (`valid_after`).
-/

set_option autoImplicit false
set_option relaxedAutoImplicit false

namespace ChatServer

variable {User : Type} [LinearOrder User] {db next : Database User}

/-! ### Users -/

omit [LinearOrder User] in
theorem Database.IsUser.mono {user : User} (hids : ∀ row ∈ db.users, ∃ new ∈ next.users,
    new.id = row.id) (huser : db.IsUser user) : next.IsUser user := by
  obtain ⟨row, hrow, rfl⟩ := huser
  exact hids row hrow

/-- A change of the users table that keeps the ids present and the key unique keeps the rest of
the constraints. -/
theorem Database.Valid.withUsers (hvalid : db.Valid) {users : List (UserRow User)}
    (hkey : Table.KeyUnique UserRow.id users)
    (hids : ∀ row ∈ db.users, ∃ new ∈ users, new.id = row.id) :
    ({ db with users := users } : Database User).Valid := by
  have huser : ∀ user, db.IsUser user → ({ db with users := users } : Database User).IsUser user :=
    fun user ↦ Database.IsUser.mono hids
  exact { hvalid with
    usersKey := hkey
    friendshipUsers := fun row hrow ↦ (hvalid.friendshipUsers row hrow).imp (huser _) (huser _)
    friendRequestUsers := fun row hrow ↦
      (hvalid.friendRequestUsers row hrow).imp (huser _) (huser _)
    roomOwner := fun row hrow ↦ huser _ (hvalid.roomOwner row hrow)
    roomMemberRefs := fun row hrow ↦ (hvalid.roomMemberRefs row hrow).imp id (huser _)
    messageRefs := fun row hrow ↦ (hvalid.messageRefs row hrow).imp id (huser _) }

theorem valid_signup (hvalid : db.Valid) {id : User} {pw : Bytes} {result : Bool}
    (hok : Transaction.signup id pw db = .ok (result, next)) : next.Valid := by
  simp only [Transaction.signup, Except.ok.injEq, Prod.mk.injEq] at hok
  obtain ⟨-, rfl⟩ := hok
  exact hvalid.withUsers (hvalid.usersKey.insertOrNothing _)
    fun row hrow ↦ ⟨row, Table.subset_insertOrNothing _ hrow, rfl⟩

theorem valid_changeNickname (hvalid : db.Valid) {id : User} {nickname : Bytes} {result : Bool}
    (hok : Transaction.changeNickname id nickname db = .ok (result, next)) : next.Valid := by
  simp only [Transaction.changeNickname, Except.ok.injEq, Prod.mk.injEq] at hok
  obtain ⟨-, rfl⟩ := hok
  refine hvalid.withUsers (hvalid.usersKey.updateWhere _ fun _ ↦ rfl) fun row hrow ↦ ?_
  by_cases hid : row.id = id
  · exact ⟨_, Table.mem_updateWhere.mpr (Or.inr ⟨row, hrow, by simp [hid], rfl⟩), rfl⟩
  · exact ⟨row, Table.mem_updateWhere.mpr (Or.inl ⟨hrow, by simp [hid]⟩), rfl⟩

/-! ### Friends -/

theorem valid_insertFriendship (hvalid : db.Valid) {now : Int} {first second : User}
    {result : Bool} (hok : Transaction.insertFriendship now first second db = .ok (result, next)) :
    next.Valid := by
  obtain ⟨hordered, ⟨-, -, rfl⟩ | ⟨hfresh, hfirst, hsecond, -, rfl⟩⟩ :=
    Transaction.insertFriendship_cases hok
  · exact hvalid
  · have husers : db.IsUser (min first second) ∧ db.IsUser (max first second) := by
      rcases le_total first second with hle | hle
      · rw [min_eq_left hle, max_eq_right hle]
        exact ⟨hfirst, hsecond⟩
      · rw [min_eq_right hle, max_eq_left hle]
        exact ⟨hsecond, hfirst⟩
    exact { hvalid with
      friendshipsKey := hvalid.friendshipsKey.concat fun row hrow hkey ↦ hfresh ⟨row, hrow, hkey⟩
      friendshipsOrdered := Table.forall_concat hvalid.friendshipsOrdered hordered
      friendshipUsers := Table.forall_concat hvalid.friendshipUsers husers }

theorem valid_removeFriend (hvalid : db.Valid) {userId friendId : User} {result : Bool}
    (hok : Transaction.removeFriend userId friendId db = .ok (result, next)) : next.Valid := by
  simp only [Transaction.removeFriend, Except.ok.injEq, Prod.mk.injEq] at hok
  obtain ⟨-, rfl⟩ := hok
  exact { hvalid with
    friendshipsKey := hvalid.friendshipsKey.deleteWhere _
    friendshipsOrdered := fun row hrow ↦
      hvalid.friendshipsOrdered row (Table.mem_deleteWhere.mp hrow).1
    friendshipUsers := fun row hrow ↦ hvalid.friendshipUsers row (Table.mem_deleteWhere.mp hrow).1 }

/-- A change of the requests table that keeps the key unique and adds no row between other users
keeps the rest of the constraints. -/
theorem Database.Valid.withFriendRequests (hvalid : db.Valid)
    {requests : List (FriendRequestRow User)}
    (hkey : Table.KeyUnique FriendRequestRow.key requests)
    (hrows : ∀ row ∈ requests, (∃ old ∈ db.friendRequests, old.key = row.key) ∨
      (row.fromUserId ≠ row.toUserId ∧ db.IsUser row.fromUserId ∧ db.IsUser row.toUserId)) :
    ({ db with friendRequests := requests } : Database User).Valid := by
  have hfacts : ∀ row ∈ requests, row.fromUserId ≠ row.toUserId ∧
      db.IsUser row.fromUserId ∧ db.IsUser row.toUserId := by
    intro row hrow
    rcases hrows row hrow with ⟨old, hold, heq⟩ | hnew
    · obtain ⟨hfrom, hto⟩ := Prod.mk.inj heq
      rw [← hfrom, ← hto]
      exact ⟨hvalid.friendRequestsDistinct old hold, hvalid.friendRequestUsers old hold⟩
    · exact hnew
  exact { hvalid with
    friendRequestsKey := hkey
    friendRequestsDistinct := fun row hrow ↦ (hfacts row hrow).1
    friendRequestUsers := fun row hrow ↦ (hfacts row hrow).2 }

omit [LinearOrder User] in
/-- Updates of the requests table change the status and the time of the last change only. -/
theorem exists_key_of_mem_updateWhere {condition : FriendRequestRow User → Bool}
    {status : RequestStatus} {now : Int} {rows : List (FriendRequestRow User)}
    {row : FriendRequestRow User}
    (hrow : row ∈ (Table.updateWhere condition
      (fun old ↦ { old with status := status, updatedAt := now }) rows).1) :
    ∃ old ∈ rows, old.key = row.key := by
  rcases Table.mem_updateWhere.mp hrow with ⟨hold, -⟩ | ⟨old, hold, -, rfl⟩
  · exact ⟨row, hold, rfl⟩
  · exact ⟨old, hold, rfl⟩

theorem valid_requestFriend (hvalid : db.Valid) {now : Int} {fromUserId toUserId : User}
    {result : Bool}
    (hok : Transaction.requestFriend now fromUserId toUserId db = .ok (result, next)) :
    next.Valid := by
  rcases Transaction.requestFriend_cases hok with ⟨-, -, rfl⟩ | ⟨-, hself,
    ⟨hfresh, hfrom, hto, -, rfl⟩ | ⟨-, revived, rfl, -, rfl⟩⟩
  · exact hvalid
  · refine hvalid.withFriendRequests (hvalid.friendRequestsKey.concat hfresh) fun row hrow ↦ ?_
    rcases List.mem_append.mp hrow with hold | hnew
    · exact Or.inl ⟨row, hold, rfl⟩
    · obtain rfl := List.mem_singleton.mp hnew
      exact Or.inr ⟨hself, hfrom, hto⟩
  · exact hvalid.withFriendRequests (hvalid.friendRequestsKey.updateWhere _ fun _ ↦ rfl)
      fun _ hrow ↦ Or.inl (exists_key_of_mem_updateWhere hrow)

theorem valid_answerRequest (hvalid : db.Valid) (status : RequestStatus) (now : Int)
    (fromUserId toUserId : User) :
    ({ db with friendRequests :=
        (Transaction.answerRequest status now fromUserId toUserId db.friendRequests).1 } :
      Database User).Valid :=
  hvalid.withFriendRequests (hvalid.friendRequestsKey.updateWhere _ fun _ ↦ rfl)
    fun _ hrow ↦ Or.inl (exists_key_of_mem_updateWhere hrow)

theorem valid_acceptFriendRequest (hvalid : db.Valid) {now : Int} {fromUserId toUserId : User}
    {result : Bool}
    (hok : Transaction.acceptFriendRequest now fromUserId toUserId db = .ok (result, next)) :
    next.Valid := by
  have hanswered := valid_answerRequest hvalid .accepted now fromUserId toUserId
  obtain ⟨answered, rfl, -, ⟨-, rfl⟩ | ⟨-, inserted, hinsert⟩⟩ :=
    Transaction.acceptFriendRequest_cases hok
  · exact hanswered
  · exact valid_insertFriendship hanswered hinsert

theorem valid_rejectFriendRequest (hvalid : db.Valid) {now : Int} {fromUserId toUserId : User}
    {result : Bool}
    (hok : Transaction.rejectFriendRequest now fromUserId toUserId db = .ok (result, next)) :
    next.Valid := by
  simp only [Transaction.rejectFriendRequest, Except.ok.injEq, Prod.mk.injEq] at hok
  exact hok.2 ▸ valid_answerRequest hvalid .rejected now fromUserId toUserId

/-! ### Rooms -/

theorem valid_createRoom (hvalid : db.Valid) {now : Int} {gap : Nat} {ownerUserId : User}
    {roomName : Bytes} {result : Int}
    (hok : Transaction.createRoom now gap ownerUserId roomName db = .ok (result, next)) :
    next.Valid := by
  obtain ⟨howner, rfl, rfl⟩ := Transaction.createRoom_cases hok
  have hpositive := hvalid.roomIds.1
  have hbelow := hvalid.roomIds.2
  have hroom : ∀ roomId, db.IsRoom roomId → ∃ row ∈ db.rooms ++
      [⟨db.nextRoomId + gap, roomName, ownerUserId, now⟩], row.id = roomId := by
    rintro roomId ⟨row, hrow, rfl⟩
    exact ⟨row, List.mem_append_left _ hrow, rfl⟩
  refine { hvalid with
    roomsKey := hvalid.roomsKey.concat fun row hrow ↦ ?_
    roomMembersKey := hvalid.roomMembersKey.insertOrNothing _
    roomOwner := Table.forall_concat hvalid.roomOwner howner
    roomMemberRefs := ?_
    messageRefs := fun row hrow ↦ (hvalid.messageRefs row hrow).imp (hroom _) id
    roomIds := ⟨by dsimp only; omega, ?_⟩ }
  · have hlt := (hbelow row hrow).2
    dsimp only
    omega
  · intro row hrow
    rcases Table.mem_insertOrNothing.mp hrow with hold | ⟨-, rfl⟩
    · exact (hvalid.roomMemberRefs row hold).imp (hroom _) id
    · exact ⟨⟨_, List.mem_append_right _ (List.mem_singleton_self _), rfl⟩, howner⟩
  · refine Table.forall_concat (fun row hrow ↦ ?_) ?_
    · have hlt := hbelow row hrow
      dsimp only
      omega
    · dsimp only
      omega

theorem valid_deleteRoom (hvalid : db.Valid) {ownerUserId : User} {roomId : Int} {result : Bool}
    (hok : Transaction.deleteRoom ownerUserId roomId db = .ok (result, next)) : next.Valid := by
  rcases Transaction.deleteRoom_cases hok with ⟨-, rfl⟩ | ⟨-, -, rfl⟩
  · exact hvalid
  · -- the cascades removed every row that referred to the room, so the others keep their room
    have hkept : ∀ other, other ≠ roomId → db.IsRoom other → ∃ row ∈ (Table.deleteWhere
        (fun row : RoomRow User ↦ decide (row.id = roomId ∧ row.ownerUserId = ownerUserId))
        db.rooms).1, row.id = other := by
      rintro other hne ⟨row, hrow, rfl⟩
      exact ⟨row, Table.mem_deleteWhere.mpr ⟨hrow, by simp [hne]⟩, rfl⟩
    refine { hvalid with
      roomsKey := hvalid.roomsKey.deleteWhere _
      roomMembersKey := hvalid.roomMembersKey.deleteWhere _
      messagesKey := hvalid.messagesKey.deleteWhere _
      roomOwner := Table.forall_deleteWhere hvalid.roomOwner _
      roomMemberRefs := ?_
      messageRefs := ?_
      roomIds := ⟨hvalid.roomIds.1, Table.forall_deleteWhere hvalid.roomIds.2 _⟩
      messageIds := Table.forall_deleteWhere hvalid.messageIds _ }
    · intro row hrow
      obtain ⟨hold, hother⟩ := Table.mem_deleteWhere.mp hrow
      exact (hvalid.roomMemberRefs row hold).imp (hkept _ (by simpa using hother)) id
    · intro row hrow
      obtain ⟨hold, hother⟩ := Table.mem_deleteWhere.mp hrow
      exact (hvalid.messageRefs row hold).imp (hkept _ (by simpa using hother)) id

theorem valid_inviteRoom (hvalid : db.Valid) {now : Int} {inviterUserId : User} {roomId : Int}
    {friendUserId : User} {result : InviteRoomResult}
    (hok : Transaction.inviteRoom now inviterUserId roomId friendUserId db = .ok (result, next)) :
    next.Valid := by
  rcases Transaction.inviteRoom_cases hok with ⟨-, rfl⟩ | ⟨-, -, hnew, hroom, huser, -, rfl⟩
  · exact hvalid
  · exact { hvalid with
      roomMembersKey := hvalid.roomMembersKey.concat fun row hrow hkey ↦ hnew ⟨row, hrow, hkey⟩
      roomMemberRefs := Table.forall_concat hvalid.roomMemberRefs ⟨hroom, huser⟩ }

theorem valid_createRoomMessage (hvalid : db.Valid) {now : Int} {gap : Nat} {roomId : Int}
    {senderUserId : User} {body : Bytes} {result : Option Int}
    (hok : Transaction.createRoomMessage now gap roomId senderUserId body db = .ok (result, next)) :
    next.Valid := by
  rcases Transaction.createRoomMessage_cases hok with ⟨-, rfl⟩ | ⟨-, hroom, huser, -, rfl⟩
  · exact hvalid
  · refine { hvalid with
      messagesKey := hvalid.messagesKey.concat fun row hrow ↦ ?_
      messageRefs := Table.forall_concat hvalid.messageRefs ⟨hroom, huser⟩
      messageIds := Table.forall_concat (fun row hrow ↦ ?_) ?_ }
    · have hlt := hvalid.messageIds row hrow
      dsimp only
      omega
    · have hlt := hvalid.messageIds row hrow
      dsimp only
      omega
    · dsimp only
      omega

theorem valid_leaveRoom (hvalid : db.Valid) {asked userId : User} {roomId : Int}
    {result : LeaveRoomResult}
    (hok : Transaction.leaveRoom asked userId roomId db = .ok (result, next)) : next.Valid := by
  rcases Transaction.leaveRoom_cases hok with ⟨-, rfl⟩ | ⟨-, -, -, rfl⟩
  · exact hvalid
  · exact { hvalid with
      roomMembersKey := hvalid.roomMembersKey.deleteWhere _
      roomMemberRefs := Table.forall_deleteWhere hvalid.roomMemberRefs _ }

/-! ### Sequences of transactions -/

omit [LinearOrder User] in
/-- What every successful outcome satisfies, and the old database too, the committed one does. -/
theorem DbResult.committed_of {Result : Type} {property : Database User → Prop}
    {outcome : DbResult User Result} (hold : property db)
    (hok : ∀ result next, outcome = .ok (result, next) → property next) :
    property (DbResult.committed db outcome) := by
  cases outcome with
  | error error => exact hold
  | ok value => exact hok value.1 value.2 rfl

/-- Every transaction keeps the constraints of the schema. -/
theorem valid_run (hvalid : db.Valid) (call : WriteCall User) : (call.run db).Valid := by
  cases call with
  | signup => exact DbResult.committed_of hvalid fun _ _ ↦ valid_signup hvalid
  | changeNickname => exact DbResult.committed_of hvalid fun _ _ ↦ valid_changeNickname hvalid
  | addFriend => exact DbResult.committed_of hvalid fun _ _ ↦ valid_insertFriendship hvalid
  | removeFriend => exact DbResult.committed_of hvalid fun _ _ ↦ valid_removeFriend hvalid
  | requestFriend => exact DbResult.committed_of hvalid fun _ _ ↦ valid_requestFriend hvalid
  | acceptFriendRequest =>
    exact DbResult.committed_of hvalid fun _ _ ↦ valid_acceptFriendRequest hvalid
  | rejectFriendRequest =>
    exact DbResult.committed_of hvalid fun _ _ ↦ valid_rejectFriendRequest hvalid
  | createRoom => exact DbResult.committed_of hvalid fun _ _ ↦ valid_createRoom hvalid
  | deleteRoom => exact DbResult.committed_of hvalid fun _ _ ↦ valid_deleteRoom hvalid
  | inviteRoom => exact DbResult.committed_of hvalid fun _ _ ↦ valid_inviteRoom hvalid
  | createRoomMessage =>
    exact DbResult.committed_of hvalid fun _ _ ↦ valid_createRoomMessage hvalid
  | leaveRoom => exact DbResult.committed_of hvalid fun _ _ ↦ valid_leaveRoom hvalid

/-- Every database after a sequence of transactions satisfies the constraints of the schema. -/
theorem valid_after (calls : List (WriteCall User)) : (Database.after calls).Valid := by
  induction calls using List.reverseRecOn with
  | nil => exact Database.valid_empty User
  | append_singleton calls call ih =>
    rw [Database.after_concat]
    exact valid_run ih call

/-! ### New users -/

/-- A user is there after a transaction who was there before, or signed up. -/
theorem isUser_run {call : WriteCall User} {user : User} (huser : (call.run db).IsUser user) :
    db.IsUser user ∨ ∃ pw, call = .signup user pw := by
  have hkept : ∀ {Result : Type} {outcome : DbResult User Result},
      (∀ result next, outcome = .ok (result, next) → next.users = db.users) →
      (DbResult.committed db outcome).IsUser user → db.IsUser user := by
    intro Result outcome hok hafter
    have husers : (DbResult.committed db outcome).users = db.users :=
      @DbResult.committed_of User db Result (fun next ↦ next.users = db.users) outcome rfl hok
    obtain ⟨row, hrow, hid⟩ := hafter
    exact ⟨row, husers ▸ hrow, hid⟩
  cases call with
  | signup id pw =>
    obtain ⟨row, hrow, rfl⟩ := huser
    rcases Table.mem_insertOrNothing.mp hrow with hold | ⟨-, rfl⟩
    · exact Or.inl ⟨row, hold, rfl⟩
    · exact Or.inr ⟨pw, rfl⟩
  | changeNickname id nickname =>
    obtain ⟨row, hrow, rfl⟩ := huser
    rcases Table.mem_updateWhere.mp hrow with ⟨hold, -⟩ | ⟨old, hold, -, rfl⟩
    · exact Or.inl ⟨row, hold, rfl⟩
    · exact Or.inl ⟨old, hold, rfl⟩
  | addFriend =>
    refine Or.inl (hkept (fun _ _ hok ↦ ?_) huser)
    obtain ⟨-, ⟨-, -, rfl⟩ | ⟨-, -, -, -, rfl⟩⟩ := Transaction.insertFriendship_cases hok
    all_goals rfl
  | removeFriend => exact Or.inl huser
  | requestFriend =>
    refine Or.inl (hkept (fun _ _ hok ↦ ?_) huser)
    rcases Transaction.requestFriend_cases hok with ⟨-, -, rfl⟩ | ⟨-, -,
      ⟨-, -, -, -, rfl⟩ | ⟨-, revived, -, -, rfl⟩⟩
    all_goals rfl
  | acceptFriendRequest =>
    refine Or.inl (hkept (fun _ _ hok ↦ ?_) huser)
    obtain ⟨answered, -, -, ⟨-, rfl⟩ | ⟨-, inserted, hinsert⟩⟩ :=
      Transaction.acceptFriendRequest_cases hok
    · rfl
    · obtain ⟨-, ⟨-, -, rfl⟩ | ⟨-, -, -, -, rfl⟩⟩ := Transaction.insertFriendship_cases hinsert
      all_goals rfl
  | rejectFriendRequest => exact Or.inl huser
  | createRoom =>
    refine Or.inl (hkept (fun _ _ hok ↦ ?_) huser)
    obtain ⟨-, -, rfl⟩ := Transaction.createRoom_cases hok
    rfl
  | deleteRoom =>
    refine Or.inl (hkept (fun _ _ hok ↦ ?_) huser)
    rcases Transaction.deleteRoom_cases hok with ⟨-, rfl⟩ | ⟨-, -, rfl⟩
    all_goals rfl
  | inviteRoom =>
    refine Or.inl (hkept (fun _ _ hok ↦ ?_) huser)
    rcases Transaction.inviteRoom_cases hok with ⟨-, rfl⟩ | ⟨-, -, -, -, -, -, rfl⟩
    all_goals rfl
  | createRoomMessage =>
    refine Or.inl (hkept (fun _ _ hok ↦ ?_) huser)
    rcases Transaction.createRoomMessage_cases hok with ⟨-, rfl⟩ | ⟨-, -, -, -, rfl⟩
    all_goals rfl
  | leaveRoom =>
    refine Or.inl (hkept (fun _ _ hok ↦ ?_) huser)
    rcases Transaction.leaveRoom_cases hok with ⟨-, rfl⟩ | ⟨-, -, -, rfl⟩
    all_goals rfl

end ChatServer
