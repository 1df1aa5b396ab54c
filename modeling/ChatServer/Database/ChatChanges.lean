import ChatServer.Database.Membership

/-!
# What transactions do to the rooms

A room is created with its owner as the first member, members who are friends bring others in, every
member but the owner may leave, and the owner may delete the room with all that belongs to it.
`ChatChange` says once what a transaction does to the rooms, their members and their messages:
nothing, or one of these five changes, each with the permission it takes. A transaction that is
refused changes nothing (`sameChat_run_of_refused`), and the owners of the rooms stay recorded among
their members as long as none of them leaves under another id (`Database.OwnersRecorded.change`).
-/

set_option autoImplicit false
set_option relaxedAutoImplicit false

namespace ChatServer

variable {User : Type} [LinearOrder User] {db next : Database User}

/-! ### What a transaction does to the rooms -/

/-- What a transaction does to the rooms, their members and their messages. -/
inductive ChatChange (db : Database User) : WriteCall User → Database User → Prop
  | none (call : WriteCall User) (next : Database User) (hsame : db.SameChat next) :
      ChatChange db call next
  | createRoom (now : Int) (gap : Nat) (ownerUserId : User) (roomName : Bytes)
      (next : Database User)
      (hok : Transaction.createRoom now gap ownerUserId roomName db =
        .ok (db.nextRoomId + gap, next))
      (hrooms : next.rooms = db.rooms ++ [⟨db.nextRoomId + gap, roomName, ownerUserId, now⟩])
      (hmembers : next.roomMembers =
        db.roomMembers ++ [⟨db.nextRoomId + gap, ownerUserId, .owner, now⟩])
      (hmessages : next.messages = db.messages) :
      ChatChange db (.createRoom now gap ownerUserId roomName) next
  | deleteRoom (ownerUserId : User) (roomId : Int) (next : Database User)
      (howner : ∃ room ∈ db.rooms, room.id = roomId ∧ room.ownerUserId = ownerUserId)
      (hrooms : next.rooms = db.rooms.filter fun row ↦ decide (row.id ≠ roomId))
      (hmembers : next.roomMembers = db.roomMembers.filter fun row ↦ decide (row.roomId ≠ roomId))
      (hmessages : next.messages = db.messages.filter fun row ↦ decide (row.roomId ≠ roomId)) :
      ChatChange db (.deleteRoom ownerUserId roomId) next
  | inviteRoom (now : Int) (inviterUserId : User) (roomId : Int) (friendUserId : User)
      (next : Database User) (hmember : db.IsMember roomId inviterUserId)
      (hfriends : db.AreFriends inviterUserId friendUserId)
      (hnew : ¬ db.IsMember roomId friendUserId) (hrooms : next.rooms = db.rooms)
      (hmembers : next.roomMembers = db.roomMembers ++ [⟨roomId, friendUserId, .member, now⟩])
      (hmessages : next.messages = db.messages) :
      ChatChange db (.inviteRoom now inviterUserId roomId friendUserId) next
  | createRoomMessage (now : Int) (gap : Nat) (roomId : Int) (senderUserId : User) (body : Bytes)
      (next : Database User) (hmember : db.IsMember roomId senderUserId)
      (hrooms : next.rooms = db.rooms) (hmembers : next.roomMembers = db.roomMembers)
      (hmessages : next.messages =
        db.messages ++ [⟨db.nextMessageId + gap, roomId, senderUserId, body, now⟩]) :
      ChatChange db (.createRoomMessage now gap roomId senderUserId body) next
  | leaveRoom (asked userId : User) (roomId : Int) (next : Database User)
      (hnotOwner : ∀ room ∈ db.rooms, room.id = roomId → room.ownerUserId ≠ asked)
      (hrooms : next.rooms = db.rooms)
      (hmembers : next.roomMembers =
        db.roomMembers.filter fun row ↦ decide (¬ (row.roomId = roomId ∧ row.userId = userId)))
      (hmessages : next.messages = db.messages) :
      ChatChange db (.leaveRoom asked userId roomId) next

/-- A room that is created has an id that no member row carries. -/
theorem chatChange_createRoom (hvalid : db.Valid) {now : Int} {gap : Nat} {ownerUserId : User}
    {roomName : Bytes} {result : Int}
    (hok : Transaction.createRoom now gap ownerUserId roomName db = .ok (result, next)) :
    ChatChange db (.createRoom now gap ownerUserId roomName) next := by
  obtain ⟨-, rfl, rfl⟩ := Transaction.createRoom_cases hok
  have hfresh : Table.conflict RoomMemberRow.key
      (⟨db.nextRoomId + gap, ownerUserId, .owner, now⟩ : RoomMemberRow User) db.roomMembers =
        false := by
    rw [Table.conflict_eq_false]
    intro member hmember hkey
    obtain ⟨room, hroom, hid⟩ := (hvalid.roomMemberRefs member hmember).1
    have hbelow := (hvalid.roomIds.2 room hroom).2
    have hsame : member.roomId = db.nextRoomId + gap := (Prod.mk.inj hkey).1
    omega
  refine .createRoom now gap ownerUserId roomName _ hok rfl ?_ rfl
  rw [Table.insertOrNothing, if_neg (Bool.eq_false_iff.mp hfresh)]

/-- A room that is deleted goes with its members and its messages, and nothing else goes. -/
theorem deleteRoom_tables (hvalid : db.Valid) {ownerUserId : User} {roomId : Int}
    (hok : Transaction.deleteRoom ownerUserId roomId db = .ok (true, next)) :
    next.rooms = db.rooms.filter (fun row ↦ decide (row.id ≠ roomId)) ∧
      next.roomMembers = db.roomMembers.filter (fun row ↦ decide (row.roomId ≠ roomId)) ∧
      next.messages = db.messages.filter fun row ↦ decide (row.roomId ≠ roomId) := by
  obtain ⟨⟨deleted, hdeleted, hid, howner⟩, rfl⟩ := deleteRoom_eq_ok hok
  refine ⟨List.filter_congr fun row hrow ↦ ?_, List.filter_congr fun row _ ↦ (decide_not).symm,
    List.filter_congr fun row _ ↦ (decide_not).symm⟩
  rw [← decide_not, decide_eq_decide]
  constructor
  · -- the room with this id is the one of the owner
    intro hother hsame
    have hrow' : row = deleted :=
      hvalid.roomsKey.eq_of_key_eq hrow hdeleted (hsame.trans hid.symm)
    exact hother ⟨hsame, hrow' ▸ howner⟩
  · exact fun hne hboth ↦ hne hboth.1

theorem chatChange_deleteRoom (hvalid : db.Valid) {ownerUserId : User} {roomId : Int}
    {result : Bool} (hok : Transaction.deleteRoom ownerUserId roomId db = .ok (result, next)) :
    ChatChange db (.deleteRoom ownerUserId roomId) next := by
  cases result with
  | false => exact .none _ _ (sameChat_deleteRoom_false hok)
  | true =>
    obtain ⟨hrooms, hmembers, hmessages⟩ := deleteRoom_tables hvalid hok
    exact .deleteRoom ownerUserId roomId _ (deleteRoom_eq_ok hok).1 hrooms hmembers hmessages

theorem chatChange_inviteRoom {now : Int} {inviterUserId friendUserId : User} {roomId : Int}
    {result : InviteRoomResult}
    (hok : Transaction.inviteRoom now inviterUserId roomId friendUserId db = .ok (result, next)) :
    ChatChange db (.inviteRoom now inviterUserId roomId friendUserId) next := by
  rcases Transaction.inviteRoom_cases hok with ⟨-, rfl⟩ | ⟨hmember, hfriends, hnew, -, -, -, rfl⟩
  · exact .none _ _ (Database.SameChat.refl _)
  · exact .inviteRoom now inviterUserId roomId friendUserId _ hmember hfriends hnew rfl rfl rfl

theorem chatChange_createRoomMessage {now : Int} {gap : Nat} {roomId : Int} {senderUserId : User}
    {body : Bytes} {result : Option Int}
    (hok : Transaction.createRoomMessage now gap roomId senderUserId body db = .ok (result, next)) :
    ChatChange db (.createRoomMessage now gap roomId senderUserId body) next := by
  rcases Transaction.createRoomMessage_cases hok with ⟨-, rfl⟩ | ⟨hmember, -, -, -, rfl⟩
  · exact .none _ _ (Database.SameChat.refl _)
  · exact .createRoomMessage now gap roomId senderUserId body _ hmember rfl rfl rfl

theorem chatChange_leaveRoom (hvalid : db.Valid) {asked userId : User} {roomId : Int}
    {result : LeaveRoomResult}
    (hok : Transaction.leaveRoom asked userId roomId db = .ok (result, next)) :
    ChatChange db (.leaveRoom asked userId roomId) next := by
  rcases Transaction.leaveRoom_cases hok with ⟨-, rfl⟩ | ⟨⟨room, hroom, hid, howner⟩, -, -, rfl⟩
  · exact .none _ _ (Database.SameChat.refl _)
  · refine .leaveRoom asked userId roomId _ (fun other hother hsame ↦ ?_) rfl ?_ rfl
    · rw [hvalid.roomsKey.eq_of_key_eq hother hroom (hsame.trans hid.symm)]
      exact howner
    · exact List.filter_congr fun row _ ↦ (decide_not).symm

/-- What a transaction does to the rooms, whether it commits or fails. -/
theorem chatChange_committed {Result : Type} {call : WriteCall User}
    {outcome : DbResult User Result}
    (hok : ∀ result next, outcome = .ok (result, next) → ChatChange db call next) :
    ChatChange db call (DbResult.committed db outcome) :=
  DbResult.committed_of (.none _ _ (Database.SameChat.refl db)) hok

/-- Every transaction changes the rooms in one of these ways. -/
theorem chatChange_run (hvalid : db.Valid) (call : WriteCall User) :
    ChatChange db call (call.run db) := by
  cases call with
  | signup id pw =>
    exact chatChange_committed fun _ _ hok ↦ .none _ _ (sameChat_signup hok)
  | changeNickname id nickname =>
    exact chatChange_committed fun _ _ hok ↦ .none _ _ (sameChat_changeNickname hok)
  | addFriend now userId friendId =>
    exact chatChange_committed fun _ _ hok ↦ .none _ _ (sameChat_insertFriendship hok)
  | removeFriend userId friendId =>
    exact chatChange_committed fun _ _ hok ↦ .none _ _ (sameChat_removeFriend hok)
  | requestFriend now fromUserId toUserId =>
    exact chatChange_committed fun _ _ hok ↦ .none _ _ (sameChat_requestFriend hok)
  | acceptFriendRequest now fromUserId toUserId =>
    exact chatChange_committed fun _ _ hok ↦ .none _ _ (sameChat_acceptFriendRequest hok)
  | rejectFriendRequest now fromUserId toUserId =>
    exact chatChange_committed fun _ _ hok ↦ .none _ _ (sameChat_rejectFriendRequest hok)
  | createRoom now gap ownerUserId roomName =>
    exact chatChange_committed fun _ _ ↦ chatChange_createRoom hvalid
  | deleteRoom ownerUserId roomId =>
    exact chatChange_committed fun _ _ ↦ chatChange_deleteRoom hvalid
  | inviteRoom now inviterUserId roomId friendUserId =>
    exact chatChange_committed fun _ _ ↦ chatChange_inviteRoom
  | createRoomMessage now gap roomId senderUserId body =>
    exact chatChange_committed fun _ _ ↦ chatChange_createRoomMessage
  | leaveRoom asked userId roomId =>
    exact chatChange_committed fun _ _ ↦ chatChange_leaveRoom hvalid

/-! ### Owners -/

/-- The user owns the room. -/
def Database.IsOwner (db : Database User) (roomId : Int) (userId : User) : Prop :=
  ∃ room ∈ db.rooms, room.id = roomId ∧ room.ownerUserId = userId

/-- The member rows of role `owner` are those of the owners that `chat.rooms` records. -/
structure Database.OwnersRecorded (db : Database User) : Prop where
  member : ∀ room ∈ db.rooms, ∃ row ∈ db.roomMembers,
    row.key = (room.id, room.ownerUserId) ∧ row.role = .owner
  room : ∀ row ∈ db.roomMembers, row.role = .owner →
    ∃ room ∈ db.rooms, room.id = row.roomId ∧ room.ownerUserId = row.userId

namespace Database.OwnersRecorded

variable {room : RoomRow User} {member : RoomMemberRow User} {roomId : Int}

omit [LinearOrder User] in
theorem of_same (howners : db.OwnersRecorded) (hrooms : next.rooms = db.rooms)
    (hmembers : next.roomMembers = db.roomMembers) : next.OwnersRecorded := by
  constructor
  · rw [hrooms, hmembers]
    exact howners.member
  · rw [hrooms, hmembers]
    exact howners.room

omit [LinearOrder User] in
/-- A room comes with the row of its owner. -/
theorem createRoom (howners : db.OwnersRecorded) (hrooms : next.rooms = db.rooms ++ [room])
    (hmembers : next.roomMembers = db.roomMembers ++ [member])
    (hkey : member.key = (room.id, room.ownerUserId)) (hrole : member.role = .owner) :
    next.OwnersRecorded := by
  obtain ⟨hid, huser⟩ := Prod.mk.inj hkey
  constructor
  · intro other hother
    rw [hrooms] at hother
    rw [hmembers]
    rcases List.mem_append.mp hother with hold | hnew
    · obtain ⟨row, hrow, hfacts⟩ := howners.member other hold
      exact ⟨row, List.mem_append_left _ hrow, hfacts⟩
    · rw [List.mem_singleton.mp hnew]
      exact ⟨member, List.mem_append_right _ (List.mem_singleton_self _), hkey, hrole⟩
  · intro row hrow hrowRole
    rw [hmembers] at hrow
    rw [hrooms]
    rcases List.mem_append.mp hrow with hold | hnew
    · obtain ⟨other, hother, hfacts⟩ := howners.room row hold hrowRole
      exact ⟨other, List.mem_append_left _ hother, hfacts⟩
    · rw [List.mem_singleton.mp hnew]
      exact ⟨room, List.mem_append_right _ (List.mem_singleton_self _), hid.symm, huser.symm⟩

omit [LinearOrder User] in
/-- A room goes with all its rows. -/
theorem deleteRoom (howners : db.OwnersRecorded)
    (hrooms : next.rooms = db.rooms.filter fun row ↦ decide (row.id ≠ roomId))
    (hmembers : next.roomMembers = db.roomMembers.filter fun row ↦ decide (row.roomId ≠ roomId)) :
    next.OwnersRecorded := by
  constructor
  · intro room hroom
    rw [hrooms, List.mem_filter, decide_eq_true_eq] at hroom
    obtain ⟨row, hrow, hkey, hrole⟩ := howners.member room hroom.1
    have hother : row.roomId ≠ roomId := by
      rw [show row.roomId = room.id from (Prod.mk.inj hkey).1]
      exact hroom.2
    refine ⟨row, ?_, hkey, hrole⟩
    rw [hmembers, List.mem_filter, decide_eq_true_eq]
    exact ⟨hrow, hother⟩
  · intro row hrow hrole
    rw [hmembers, List.mem_filter, decide_eq_true_eq] at hrow
    obtain ⟨room, hroom, hid, hroomOwner⟩ := howners.room row hrow.1 hrole
    refine ⟨room, ?_, hid, hroomOwner⟩
    rw [hrooms, List.mem_filter, decide_eq_true_eq, hid]
    exact ⟨hroom, hrow.2⟩

omit [LinearOrder User] in
/-- Somebody comes in who is no owner. -/
theorem inviteRoom (howners : db.OwnersRecorded) (hrooms : next.rooms = db.rooms)
    (hmembers : next.roomMembers = db.roomMembers ++ [member]) (hrole : member.role ≠ .owner) :
    next.OwnersRecorded := by
  constructor
  · intro room hroom
    rw [hrooms] at hroom
    rw [hmembers]
    obtain ⟨row, hrow, hfacts⟩ := howners.member room hroom
    exact ⟨row, List.mem_append_left _ hrow, hfacts⟩
  · intro row hrow hrowRole
    rw [hmembers] at hrow
    rw [hrooms]
    rcases List.mem_append.mp hrow with hold | hinvited
    · exact howners.room row hold hrowRole
    · rw [List.mem_singleton.mp hinvited] at hrowRole
      exact absurd hrowRole hrole

/-- Owners stay recorded as long as none of them leaves under another id. -/
theorem change (howners : db.OwnersRecorded) {call : WriteCall User}
    (hstays : ∀ asked userId roomId, call = .leaveRoom asked userId roomId →
      db.IsOwner roomId userId → db.IsMember roomId userId → asked = userId)
    (hchange : ChatChange db call next) : next.OwnersRecorded := by
  cases hchange with
  | none _ _ hsame => exact howners.of_same hsame.rooms hsame.roomMembers
  | createRoom now gap ownerUserId roomName _ hok hrooms hmembers hmessages =>
    exact howners.createRoom hrooms hmembers rfl rfl
  | deleteRoom ownerUserId roomId _ howner hrooms hmembers hmessages =>
    exact howners.deleteRoom hrooms hmembers
  | inviteRoom now inviterUserId roomId friendUserId _ hmember hfriends hnew hrooms hmembers
      hmessages =>
    exact howners.inviteRoom hrooms hmembers nofun
  | createRoomMessage now gap roomId senderUserId body _ hmember hrooms hmembers hmessages =>
    exact howners.of_same hrooms hmembers
  | leaveRoom asked userId roomId _ hnotOwner hrooms hmembers hmessages =>
    constructor
    · intro room hroom
      rw [hrooms] at hroom
      obtain ⟨row, hrow, hkey, hrole⟩ := howners.member room hroom
      obtain ⟨hid, huser⟩ := Prod.mk.inj hkey
      refine ⟨row, ?_, hkey, hrole⟩
      rw [hmembers, List.mem_filter, decide_eq_true_eq]
      refine ⟨hrow, fun hleft ↦ ?_⟩
      -- an owner who leaves has asked for it under the own id, and was refused
      obtain ⟨rfl, rfl⟩ := hleft
      refine hnotOwner room hroom hid.symm ?_
      rw [hstays asked row.userId row.roomId rfl ⟨room, hroom, hid.symm, huser.symm⟩
        ⟨row, hrow, rfl⟩]
      exact huser.symm
    · intro row hrow hrole
      rw [hmembers, List.mem_filter] at hrow
      rw [hrooms]
      exact howners.room row hrow.1 hrole

end Database.OwnersRecorded

/-- The member rows of role `owner` of a room are one row, that of the owner of the room. -/
theorem Database.OwnersRecorded.sole (howners : db.OwnersRecorded) (hvalid : db.Valid)
    {room : RoomRow User} (hroom : room ∈ db.rooms) :
    ∃ member, db.roomMembers.filter
        (fun row ↦ decide (row.roomId = room.id ∧ row.role = .owner)) = [member] ∧
      member.userId = room.ownerUserId := by
  obtain ⟨member, hmember, hkey, hrole⟩ := howners.member room hroom
  obtain ⟨hid, huser⟩ := Prod.mk.inj hkey
  refine ⟨member, ?_, huser⟩
  rw [← hvalid.roomMembersKey.filter_key_eq hmember]
  refine List.filter_congr fun row hrow ↦ decide_eq_decide.mpr ⟨?_, ?_⟩
  · rintro ⟨hrowRoom, hrowRole⟩
    obtain ⟨other, hother, hotherId, hotherUser⟩ := howners.room row hrow hrowRole
    have hsame : other = room :=
      hvalid.roomsKey.eq_of_key_eq hother hroom (hotherId.trans hrowRoom)
    rw [hkey, ← hsame, hotherId, hotherUser]
    rfl
  · intro hsame
    have hrow' : row = member := hvalid.roomMembersKey.eq_of_key_eq hrow hmember hsame
    rw [hrow']
    exact ⟨hid, hrole⟩

/-! ### Refusals -/

/-- The outcome is a refusal, or an error. -/
def DbResult.Refused {Result : Type} (refusal : Result → Prop) : DbResult User Result → Prop
  | .error _ => True
  | .ok (result, _) => refusal result

/-- The transaction reports a refusal, or fails. -/
def WriteCall.Refused (call : WriteCall User) (db : Database User) : Prop :=
  match call with
  | .signup id pw => DbResult.Refused (· = false) (Transaction.signup id pw db)
  | .changeNickname id nickname =>
    DbResult.Refused (· = false) (Transaction.changeNickname id nickname db)
  | .addFriend now userId friendId =>
    DbResult.Refused (· = false) (Transaction.addFriend now userId friendId db)
  | .removeFriend userId friendId =>
    DbResult.Refused (· = false) (Transaction.removeFriend userId friendId db)
  | .requestFriend now fromUserId toUserId =>
    DbResult.Refused (· = false) (Transaction.requestFriend now fromUserId toUserId db)
  | .acceptFriendRequest now fromUserId toUserId =>
    DbResult.Refused (· = false) (Transaction.acceptFriendRequest now fromUserId toUserId db)
  | .rejectFriendRequest now fromUserId toUserId =>
    DbResult.Refused (· = false) (Transaction.rejectFriendRequest now fromUserId toUserId db)
  | .createRoom now gap ownerUserId roomName =>
    DbResult.Refused (fun _ ↦ False) (Transaction.createRoom now gap ownerUserId roomName db)
  | .deleteRoom ownerUserId roomId =>
    DbResult.Refused (· = false) (Transaction.deleteRoom ownerUserId roomId db)
  | .inviteRoom now inviterUserId roomId friendUserId =>
    DbResult.Refused (· ≠ .invited)
      (Transaction.inviteRoom now inviterUserId roomId friendUserId db)
  | .createRoomMessage now gap roomId senderUserId body =>
    DbResult.Refused (· = none)
      (Transaction.createRoomMessage now gap roomId senderUserId body db)
  | .leaveRoom asked userId roomId =>
    DbResult.Refused (· ≠ .left) (Transaction.leaveRoom asked userId roomId db)

omit [LinearOrder User] in
theorem sameChat_of_refused {Result : Type} {refusal : Result → Prop}
    {outcome : DbResult User Result} (hrefused : outcome.Refused refusal)
    (hok : ∀ result next, refusal result → outcome = .ok (result, next) → db.SameChat next) :
    db.SameChat (DbResult.committed db outcome) := by
  cases outcome with
  | error error => exact Database.SameChat.refl db
  | ok value => exact hok value.1 value.2 hrefused rfl

/-- A transaction that is refused leaves the rooms, their members and their messages as they
were. -/
theorem sameChat_run_of_refused {call : WriteCall User} (hrefused : call.Refused db) :
    db.SameChat (call.run db) := by
  cases call with
  | signup => exact DbResult.committed_of (.refl db) fun _ _ ↦ sameChat_signup
  | changeNickname => exact DbResult.committed_of (.refl db) fun _ _ ↦ sameChat_changeNickname
  | addFriend => exact DbResult.committed_of (.refl db) fun _ _ ↦ sameChat_insertFriendship
  | removeFriend => exact DbResult.committed_of (.refl db) fun _ _ ↦ sameChat_removeFriend
  | requestFriend => exact DbResult.committed_of (.refl db) fun _ _ ↦ sameChat_requestFriend
  | acceptFriendRequest =>
    exact DbResult.committed_of (.refl db) fun _ _ ↦ sameChat_acceptFriendRequest
  | rejectFriendRequest =>
    exact DbResult.committed_of (.refl db) fun _ _ ↦ sameChat_rejectFriendRequest
  | createRoom => exact sameChat_of_refused hrefused fun _ _ hnever ↦ hnever.elim
  | deleteRoom =>
    refine sameChat_of_refused hrefused fun result next hresult hok ↦ ?_
    rw [hresult] at hok
    exact sameChat_deleteRoom_false hok
  | inviteRoom => exact sameChat_of_refused hrefused fun _ _ ↦ sameChat_inviteRoom
  | createRoomMessage =>
    refine sameChat_of_refused hrefused fun result next hresult hok ↦ ?_
    rw [hresult] at hok
    exact sameChat_createRoomMessage_none hok
  | leaveRoom => exact sameChat_of_refused hrefused fun _ _ ↦ sameChat_leaveRoom

/-! ### Permissions -/

/-- A membership is given to the creator of a room, or by a member to a friend. -/
theorem ChatChange.joins {call : WriteCall User} (hchange : ChatChange db call next) {roomId : Int}
    {userId : User} (hbefore : ¬ db.IsMember roomId userId) (hafter : next.IsMember roomId userId) :
    (∃ now gap roomName, call = .createRoom now gap userId roomName ∧
        Transaction.createRoom now gap userId roomName db = .ok (roomId, next)) ∨
      ∃ now inviterUserId, call = .inviteRoom now inviterUserId roomId userId ∧
        db.IsMember roomId inviterUserId ∧ db.AreFriends inviterUserId userId := by
  obtain ⟨row, hrow, hkey⟩ := hafter
  have hnew : row ∉ db.roomMembers := fun hold ↦ hbefore ⟨row, hold, hkey⟩
  cases hchange with
  | none _ _ hsame => exact absurd (hsame.roomMembers ▸ hrow) hnew
  | createRoom now gap ownerUserId roomName _ hok _ hmembers _ =>
    rw [hmembers] at hrow
    have hcreated := List.mem_singleton.mp ((List.mem_append.mp hrow).resolve_left hnew)
    rw [hcreated] at hkey
    obtain ⟨rfl, rfl⟩ := Prod.mk.inj hkey
    exact Or.inl ⟨now, gap, roomName, rfl, hok⟩
  | deleteRoom _ _ _ _ _ hmembers _ =>
    rw [hmembers] at hrow
    exact absurd (List.mem_of_mem_filter hrow) hnew
  | inviteRoom now inviterUserId invitedRoomId friendUserId _ hmember hfriends _ _ hmembers _ =>
    rw [hmembers] at hrow
    have hinvited := List.mem_singleton.mp ((List.mem_append.mp hrow).resolve_left hnew)
    rw [hinvited] at hkey
    obtain ⟨rfl, rfl⟩ := Prod.mk.inj hkey
    exact Or.inr ⟨now, inviterUserId, rfl, hmember, hfriends⟩
  | createRoomMessage _ _ _ _ _ _ _ _ hmembers _ => exact absurd (hmembers ▸ hrow) hnew
  | leaveRoom _ _ _ _ _ _ hmembers _ =>
    rw [hmembers] at hrow
    exact absurd (List.mem_of_mem_filter hrow) hnew

/-- A membership is given up under an id that is not the owner's, or ended by the owner. -/
theorem ChatChange.leaves {call : WriteCall User} (hchange : ChatChange db call next)
    {roomId : Int} {userId : User} (hbefore : db.IsMember roomId userId)
    (hafter : ¬ next.IsMember roomId userId) :
    (∃ asked, call = .leaveRoom asked userId roomId ∧ ¬ db.IsOwner roomId asked) ∨
      ∃ ownerUserId, call = .deleteRoom ownerUserId roomId ∧ db.IsOwner roomId ownerUserId := by
  obtain ⟨row, hrow, hkey⟩ := hbefore
  have hgone : row ∉ next.roomMembers := fun hkept ↦ hafter ⟨row, hkept, hkey⟩
  obtain ⟨hroomId, huserId⟩ := Prod.mk.inj hkey
  cases hchange with
  | none _ _ hsame => exact absurd (hsame.roomMembers.symm ▸ hrow) hgone
  | createRoom _ _ _ _ _ _ _ hmembers _ =>
    rw [hmembers] at hgone
    exact absurd (List.mem_append_left _ hrow) hgone
  | deleteRoom ownerUserId deletedRoomId _ howner _ hmembers _ =>
    rw [hmembers, List.mem_filter, decide_eq_true_eq] at hgone
    have hdeleted : row.roomId = deletedRoomId := not_not.mp fun hother ↦ hgone ⟨hrow, hother⟩
    rw [← hdeleted, hroomId] at howner ⊢
    exact Or.inr ⟨ownerUserId, rfl, howner⟩
  | inviteRoom _ _ _ _ _ _ _ _ _ hmembers _ =>
    rw [hmembers] at hgone
    exact absurd (List.mem_append_left _ hrow) hgone
  | createRoomMessage _ _ _ _ _ _ _ _ hmembers _ => exact absurd (hmembers.symm ▸ hrow) hgone
  | leaveRoom asked leaverId leftRoomId _ hnotOwner _ hmembers _ =>
    rw [hmembers, List.mem_filter, decide_eq_true_eq] at hgone
    obtain ⟨hleft, hleaver⟩ : row.roomId = leftRoomId ∧ row.userId = leaverId :=
      not_not.mp fun hother ↦ hgone ⟨hrow, hother⟩
    rw [← hleft, hroomId] at hnotOwner ⊢
    rw [← hleaver, huserId]
    refine Or.inl ⟨asked, rfl, ?_⟩
    rintro ⟨room, hroom, hid, howner⟩
    exact hnotOwner room hroom hid howner

/-- A message is added by a member of the room. -/
theorem ChatChange.posts {call : WriteCall User} (hchange : ChatChange db call next)
    {row : MessageRow User} (hafter : row ∈ next.messages) (hbefore : row ∉ db.messages) :
    (∃ now gap, call = .createRoomMessage now gap row.roomId row.senderUserId row.body) ∧
      db.IsMember row.roomId row.senderUserId := by
  cases hchange with
  | none _ _ hsame => exact absurd (hsame.messages ▸ hafter) hbefore
  | createRoom _ _ _ _ _ _ _ _ hmessages => exact absurd (hmessages ▸ hafter) hbefore
  | deleteRoom _ _ _ _ _ _ hmessages =>
    rw [hmessages] at hafter
    exact absurd (List.mem_of_mem_filter hafter) hbefore
  | inviteRoom _ _ _ _ _ _ _ _ _ _ hmessages => exact absurd (hmessages ▸ hafter) hbefore
  | createRoomMessage now gap roomId senderUserId body _ hmember _ _ hmessages =>
    rw [hmessages] at hafter
    have hposted := List.mem_singleton.mp ((List.mem_append.mp hafter).resolve_left hbefore)
    rw [hposted]
    exact ⟨⟨now, gap, rfl⟩, hmember⟩
  | leaveRoom _ _ _ _ _ _ _ hmessages => exact absurd (hmessages ▸ hafter) hbefore

end ChatServer
