import Mathlib.Data.List.Dedup
import ChatServer.Database.Integrity

/-!
# Members, rooms and messages

What each transaction of `db_service` does to the rooms, to their members and to the messages of a
room, in terms of `IsMember`, `IsRoom` and the next values of the identity sequences. Those on
accounts and friends keep all of it (`SameChat`), and so do those on rooms that refuse.
`mem_listRooms` is the query behind every refresh: the rooms a user is a member of.
-/

set_option autoImplicit false
set_option relaxedAutoImplicit false

namespace ChatServer

/-- The rooms, their members and their messages are as they were. -/
structure Database.SameChat {User : Type} (db next : Database User) : Prop where
  rooms : next.rooms = db.rooms
  roomMembers : next.roomMembers = db.roomMembers
  messages : next.messages = db.messages
  nextRoomId : next.nextRoomId = db.nextRoomId
  nextMessageId : next.nextMessageId = db.nextMessageId

theorem Database.SameChat.refl {User : Type} (db : Database User) : db.SameChat db :=
  ⟨rfl, rfl, rfl, rfl, rfl⟩

theorem Database.SameChat.isRoom {User : Type} {db next : Database User} (hsame : db.SameChat next)
    (roomId : Int) : next.IsRoom roomId ↔ db.IsRoom roomId := by
  unfold Database.IsRoom
  rw [hsame.rooms]

theorem Database.SameChat.isMember {User : Type} {db next : Database User}
    (hsame : db.SameChat next) (roomId : Int) (userId : User) :
    next.IsMember roomId userId ↔ db.IsMember roomId userId := by
  unfold Database.IsMember
  rw [hsame.roomMembers]

section Members

variable {User : Type} [LinearOrder User] {db next : Database User}

theorem sameChat_signup {id : User} {pw : Bytes} {result : Bool}
    (hok : Transaction.signup id pw db = .ok (result, next)) : db.SameChat next := by
  simp only [Transaction.signup, Except.ok.injEq, Prod.mk.injEq] at hok
  rw [← hok.2]
  exact ⟨rfl, rfl, rfl, rfl, rfl⟩

theorem sameChat_changeNickname {id : User} {nickname : Bytes} {result : Bool}
    (hok : Transaction.changeNickname id nickname db = .ok (result, next)) : db.SameChat next := by
  simp only [Transaction.changeNickname, Except.ok.injEq, Prod.mk.injEq] at hok
  rw [← hok.2]
  exact ⟨rfl, rfl, rfl, rfl, rfl⟩

theorem sameChat_removeFriend {userId friendId : User} {result : Bool}
    (hok : Transaction.removeFriend userId friendId db = .ok (result, next)) :
    db.SameChat next := by
  simp only [Transaction.removeFriend, Except.ok.injEq, Prod.mk.injEq] at hok
  rw [← hok.2]
  exact ⟨rfl, rfl, rfl, rfl, rfl⟩

theorem sameChat_requestFriend {now : Int} {fromUserId toUserId : User} {result : Bool}
    (hok : Transaction.requestFriend now fromUserId toUserId db = .ok (result, next)) :
    db.SameChat next := by
  rcases Transaction.requestFriend_cases hok with ⟨-, -, rfl⟩ | ⟨-, -,
    ⟨-, -, -, -, rfl⟩ | ⟨-, revived, -, -, rfl⟩⟩
  all_goals exact ⟨rfl, rfl, rfl, rfl, rfl⟩

theorem sameChat_insertFriendship {now : Int} {first second : User} {result : Bool}
    (hok : Transaction.insertFriendship now first second db = .ok (result, next)) :
    db.SameChat next := by
  obtain ⟨-, ⟨-, -, rfl⟩ | ⟨-, -, -, -, rfl⟩⟩ := Transaction.insertFriendship_cases hok
  all_goals exact ⟨rfl, rfl, rfl, rfl, rfl⟩

theorem sameChat_acceptFriendRequest {now : Int} {fromUserId toUserId : User} {result : Bool}
    (hok : Transaction.acceptFriendRequest now fromUserId toUserId db = .ok (result, next)) :
    db.SameChat next := by
  obtain ⟨answered, -, -, ⟨-, rfl⟩ | ⟨-, inserted, hinsert⟩⟩ :=
    Transaction.acceptFriendRequest_cases hok
  · exact ⟨rfl, rfl, rfl, rfl, rfl⟩
  · have hsame := sameChat_insertFriendship hinsert
    exact ⟨hsame.rooms, hsame.roomMembers, hsame.messages, hsame.nextRoomId, hsame.nextMessageId⟩

theorem sameChat_rejectFriendRequest {now : Int} {fromUserId toUserId : User} {result : Bool}
    (hok : Transaction.rejectFriendRequest now fromUserId toUserId db = .ok (result, next)) :
    db.SameChat next := by
  simp only [Transaction.rejectFriendRequest, Except.ok.injEq, Prod.mk.injEq] at hok
  rw [← hok.2]
  exact ⟨rfl, rfl, rfl, rfl, rfl⟩

theorem isMember_createRoom {now : Int} {gap : Nat} {ownerUserId : User} {roomName : Bytes}
    {newRoomId : Int}
    (hok : Transaction.createRoom now gap ownerUserId roomName db = .ok (newRoomId, next))
    (roomId : Int) (userId : User) :
    next.IsMember roomId userId ↔
      db.IsMember roomId userId ∨ (roomId = newRoomId ∧ userId = ownerUserId) := by
  obtain ⟨-, -, rfl⟩ := Transaction.createRoom_cases hok
  constructor
  · rintro ⟨row, hrow, hkey⟩
    rcases Table.mem_insertOrNothing.mp hrow with hold | ⟨-, rfl⟩
    · exact Or.inl ⟨row, hold, hkey⟩
    · obtain ⟨hroom, huser⟩ := Prod.mk.inj hkey
      exact Or.inr ⟨hroom.symm, huser.symm⟩
  · rintro (⟨row, hrow, hkey⟩ | ⟨rfl, rfl⟩)
    · exact ⟨row, Table.subset_insertOrNothing _ hrow, hkey⟩
    · exact Table.exists_key_insertOrNothing _

theorem isRoom_createRoom {now : Int} {gap : Nat} {ownerUserId : User} {roomName : Bytes}
    {newRoomId : Int}
    (hok : Transaction.createRoom now gap ownerUserId roomName db = .ok (newRoomId, next))
    (roomId : Int) : next.IsRoom roomId ↔ db.IsRoom roomId ∨ roomId = newRoomId := by
  obtain ⟨-, -, rfl⟩ := Transaction.createRoom_cases hok
  unfold Database.IsRoom
  simp only [List.mem_append, List.mem_singleton]
  constructor
  · rintro ⟨row, hold | rfl, hid⟩
    · exact Or.inl ⟨row, hold, hid⟩
    · exact Or.inr hid.symm
  · rintro (⟨row, hold, hid⟩ | rfl)
    · exact ⟨row, Or.inl hold, hid⟩
    · exact ⟨_, Or.inr rfl, rfl⟩

/-- Deleting a room takes its rows out of the three tables. -/
theorem deleteRoom_eq_ok {ownerUserId : User} {deletedRoomId : Int}
    (hok : Transaction.deleteRoom ownerUserId deletedRoomId db = .ok (true, next)) :
    (∃ row ∈ db.rooms, row.id = deletedRoomId ∧ row.ownerUserId = ownerUserId) ∧
      next = { db with
        rooms := (Table.deleteWhere (fun row ↦
          decide (row.id = deletedRoomId ∧ row.ownerUserId = ownerUserId)) db.rooms).1
        roomMembers :=
          (Table.deleteWhere (fun row ↦ decide (row.roomId = deletedRoomId)) db.roomMembers).1
        messages :=
          (Table.deleteWhere (fun row ↦ decide (row.roomId = deletedRoomId)) db.messages).1 } := by
  rcases Transaction.deleteRoom_cases hok with ⟨hfalse, -⟩ | ⟨howned, -, hnext⟩
  · cases hfalse
  · exact ⟨howned, hnext⟩

theorem isMember_deleteRoom {ownerUserId : User} {deletedRoomId : Int}
    (hok : Transaction.deleteRoom ownerUserId deletedRoomId db = .ok (true, next))
    (roomId : Int) (userId : User) :
    next.IsMember roomId userId ↔ db.IsMember roomId userId ∧ roomId ≠ deletedRoomId := by
  obtain ⟨-, rfl⟩ := deleteRoom_eq_ok hok
  constructor
  · rintro ⟨row, hrow, hkey⟩
    rw [Table.mem_deleteWhere, decide_eq_false_iff_not] at hrow
    exact ⟨⟨row, hrow.1, hkey⟩, (Prod.mk.inj hkey).1 ▸ hrow.2⟩
  · rintro ⟨⟨row, hrow, hkey⟩, hne⟩
    refine ⟨row, ?_, hkey⟩
    rw [Table.mem_deleteWhere, decide_eq_false_iff_not, (Prod.mk.inj hkey).1]
    exact ⟨hrow, hne⟩

/-- A deleted room is gone, and no room has come. -/
theorem isRoom_deleteRoom (hvalid : db.Valid) {ownerUserId : User} {deletedRoomId : Int}
    (hok : Transaction.deleteRoom ownerUserId deletedRoomId db = .ok (true, next)) {roomId : Int}
    (hroom : next.IsRoom roomId) : db.IsRoom roomId ∧ roomId ≠ deletedRoomId := by
  obtain ⟨⟨deleted, hdeleted, hid, howner⟩, rfl⟩ := deleteRoom_eq_ok hok
  obtain ⟨row, hrow, hrowId⟩ := hroom
  rw [Table.mem_deleteWhere, decide_eq_false_iff_not] at hrow
  refine ⟨⟨row, hrow.1, hrowId⟩, fun hsame ↦ hrow.2 ?_⟩
  have hrow' : row = deleted :=
    hvalid.roomsKey.eq_of_key_eq hrow.1 hdeleted (hrowId.trans (hsame.trans hid.symm))
  rw [hrow']
  exact ⟨hid, howner⟩

/-- An invitation changes no table but the members. -/
theorem inviteRoom_eq_ok {now : Int} {inviterUserId friendUserId : User} {roomId : Int}
    {result : InviteRoomResult}
    (hok : Transaction.inviteRoom now inviterUserId roomId friendUserId db = .ok (result, next)) :
    ∃ members, next = { db with roomMembers := members } := by
  rcases Transaction.inviteRoom_cases hok with ⟨-, rfl⟩ | ⟨-, -, -, -, -, -, rfl⟩
  · exact ⟨_, rfl⟩
  · exact ⟨_, rfl⟩

/-- Leaving changes no table but the members. -/
theorem leaveRoom_eq_ok {asked userId : User} {roomId : Int} {result : LeaveRoomResult}
    (hok : Transaction.leaveRoom asked userId roomId db = .ok (result, next)) :
    ∃ members, next = { db with roomMembers := members } := by
  rcases Transaction.leaveRoom_cases hok with ⟨-, rfl⟩ | ⟨-, -, -, rfl⟩
  · exact ⟨_, rfl⟩
  · exact ⟨_, rfl⟩

theorem isMember_inviteRoom {now : Int} {inviterUserId friendUserId : User} {invitedRoomId : Int}
    {result : InviteRoomResult}
    (hok : Transaction.inviteRoom now inviterUserId invitedRoomId friendUserId db =
      .ok (result, next)) (roomId : Int) (userId : User) :
    next.IsMember roomId userId ↔ db.IsMember roomId userId ∨
      (result = .invited ∧ roomId = invitedRoomId ∧ userId = friendUserId) := by
  rcases Transaction.inviteRoom_cases hok with ⟨hrefused, rfl⟩ | ⟨-, -, -, -, -, rfl, rfl⟩
  · exact ⟨Or.inl, fun hor ↦ hor.resolve_right fun hinvited ↦ hrefused hinvited.1⟩
  · unfold Database.IsMember
    simp only [List.mem_append, List.mem_singleton, true_and]
    constructor
    · rintro ⟨row, hold | rfl, hkey⟩
      · exact Or.inl ⟨row, hold, hkey⟩
      · obtain ⟨hroom, huser⟩ := Prod.mk.inj hkey
        exact Or.inr ⟨hroom.symm, huser.symm⟩
    · rintro (⟨row, hold, hkey⟩ | ⟨rfl, rfl⟩)
      · exact ⟨row, Or.inl hold, hkey⟩
      · exact ⟨_, Or.inr rfl, rfl⟩

theorem isMember_leaveRoom {asked leaver : User} {leftRoomId : Int} {result : LeaveRoomResult}
    (hok : Transaction.leaveRoom asked leaver leftRoomId db = .ok (result, next)) (roomId : Int)
    (userId : User) :
    next.IsMember roomId userId ↔ db.IsMember roomId userId ∧
      ¬ (result = .left ∧ roomId = leftRoomId ∧ userId = leaver) := by
  rcases Transaction.leaveRoom_cases hok with ⟨hrefused, rfl⟩ | ⟨-, -, rfl, rfl⟩
  · exact ⟨fun hmember ↦ ⟨hmember, fun hleft ↦ hrefused hleft.1⟩, And.left⟩
  · unfold Database.IsMember
    simp only [Table.mem_deleteWhere, decide_eq_false_iff_not, true_and]
    constructor
    · rintro ⟨row, ⟨hrow, hkept⟩, hkey⟩
      obtain ⟨rfl, rfl⟩ := Prod.mk.inj hkey
      exact ⟨⟨row, hrow, rfl⟩, hkept⟩
    · rintro ⟨⟨row, hrow, hkey⟩, hkept⟩
      obtain ⟨rfl, rfl⟩ := Prod.mk.inj hkey
      exact ⟨row, ⟨hrow, hkept⟩, rfl⟩

/-- The rooms that a refresh reads are those the user is a member of. -/
theorem mem_listRooms (hvalid : db.Valid) {userId : User} {roomId : Int} :
    (∃ info ∈ Transaction.listRooms userId db, info.id = roomId) ↔ db.IsMember roomId userId := by
  simp only [Transaction.listRooms, List.mem_insertionSort, List.mem_map, List.mem_dedup]
  constructor
  · rintro ⟨info, ⟨group, ⟨row, hrow, rfl⟩, rfl⟩, rfl⟩
    simp only [Transaction.joinedRooms, List.mem_flatMap, List.mem_filter, decide_eq_true_eq]
      at hrow
    obtain ⟨room, hroom, scope, ⟨hscope, hid, huser⟩, hrow⟩ := hrow
    have hsame : row.1 = room := by
      split at hrow
      · rw [List.mem_singleton.mp hrow]
      · obtain ⟨member, -, rfl⟩ := List.mem_map.mp hrow
        rfl
    exact ⟨scope, hscope, Prod.ext (hid.trans (by rw [hsame]; rfl)) huser⟩
  · rintro ⟨scope, hscope, hkey⟩
    obtain ⟨rfl, rfl⟩ := Prod.mk.inj hkey
    obtain ⟨room, hroom, hid⟩ := (hvalid.roomMemberRefs scope hscope).1
    have hmember : scope ∈ db.roomMembers.filter fun member ↦ decide (member.roomId = room.id) :=
      List.mem_filter.mpr ⟨hscope, decide_eq_true hid.symm⟩
    have hrow : (room, some scope) ∈ Transaction.joinedRooms scope.userId db := by
      simp only [Transaction.joinedRooms, List.mem_flatMap]
      refine ⟨room, hroom, scope, List.mem_filter.mpr ⟨hscope, by simp [hid]⟩, ?_⟩
      split
      · next hnil =>
        rw [hnil] at hmember
        cases hmember
      · exact List.mem_map.mpr ⟨scope, hmember, rfl⟩
    exact ⟨_, ⟨_, ⟨_, hrow, rfl⟩, rfl⟩, hid⟩

/-- A message is committed into a room that is there, under the next id. -/
theorem createRoomMessage_eq_ok {now : Int} {gap : Nat} {roomId : Int} {senderUserId : User}
    {body : Bytes} {id : Int}
    (hok : Transaction.createRoomMessage now gap roomId senderUserId body db =
      .ok (some id, next)) :
    db.IsRoom roomId ∧ id = db.nextMessageId + gap ∧
      next = { db with
        messages := db.messages ++ [⟨id, roomId, senderUserId, body, now⟩]
        nextMessageId := id + 1 } := by
  rcases Transaction.createRoomMessage_cases hok with ⟨hnone, -⟩ | ⟨-, hroom, -, hsome, rfl⟩
  · cases hnone
  · obtain rfl := Option.some.inj hsome
    exact ⟨hroom, rfl, rfl⟩

/-- The history of a room is reported by ascending id. -/
theorem pairwise_listRoomMessages (hunique : Table.KeyUnique MessageRow.id db.messages)
    {userId : User} {roomId : Int} {limit : Nat} {history : List (MessageInfo User)}
    (hhistory : Transaction.listRoomMessages userId roomId limit db = some history) :
    (history.map MessageInfo.id).Pairwise (· < ·) := by
  unfold Transaction.listRoomMessages at hhistory
  dsimp only at hhistory
  split_ifs at hhistory
  rw [← Option.some.inj hhistory, List.map_map]
  generalize hnewest : (db.messages.filter fun row ↦ decide (row.roomId = roomId)).insertionSort
    (fun first second ↦ first.createdAt > second.createdAt ∨
      (first.createdAt = second.createdAt ∧ first.id ≥ second.id)) = newest
  have hunique' : ((newest.take limit).map MessageRow.id).Nodup := by
    have hperm : newest.Perm (db.messages.filter fun row ↦ decide (row.roomId = roomId)) :=
      hnewest ▸ List.perm_insertionSort _ _
    have hall : (newest.map MessageRow.id).Nodup :=
      (hperm.map MessageRow.id).nodup_iff.mpr (hunique.sublist (List.filter_sublist.map _))
    exact hall.sublist ((List.take_sublist limit newest).map _)
  have hsorted := List.pairwise_insertionSort
    (fun first second : MessageRow User ↦ first.id ≤ second.id) (newest.take limit)
  have hdistinct : (((newest.take limit).insertionSort fun first second ↦ first.id ≤ second.id).map
      MessageRow.id).Nodup :=
    ((List.perm_insertionSort _ _).map MessageRow.id).nodup_iff.mpr hunique'
  rw [List.pairwise_map]
  rw [List.Nodup, List.pairwise_map] at hdistinct
  exact (hsorted.and hdistinct).imp fun hboth ↦ lt_of_le_of_ne hboth.1 hboth.2

theorem sameChat_createRoomMessage_none {now : Int} {gap : Nat} {roomId : Int}
    {senderUserId : User} {body : Bytes}
    (hok : Transaction.createRoomMessage now gap roomId senderUserId body db = .ok (none, next)) :
    db.SameChat next := by
  rcases Transaction.createRoomMessage_cases hok with ⟨-, rfl⟩ | ⟨-, -, -, hsome, -⟩
  · exact Database.SameChat.refl _
  · cases hsome

theorem sameChat_deleteRoom_false {ownerUserId : User} {roomId : Int}
    (hok : Transaction.deleteRoom ownerUserId roomId db = .ok (false, next)) :
    db.SameChat next := by
  rcases Transaction.deleteRoom_cases hok with ⟨-, rfl⟩ | ⟨-, htrue, -⟩
  · exact Database.SameChat.refl _
  · cases htrue

theorem sameChat_inviteRoom {now : Int} {inviterUserId friendUserId : User} {roomId : Int}
    {result : InviteRoomResult} (hresult : result ≠ .invited)
    (hok : Transaction.inviteRoom now inviterUserId roomId friendUserId db = .ok (result, next)) :
    db.SameChat next := by
  rcases Transaction.inviteRoom_cases hok with ⟨-, rfl⟩ | ⟨-, -, -, -, -, hinvited, -⟩
  · exact Database.SameChat.refl _
  · exact absurd hinvited hresult

theorem sameChat_leaveRoom {asked userId : User} {roomId : Int} {result : LeaveRoomResult}
    (hresult : result ≠ .left)
    (hok : Transaction.leaveRoom asked userId roomId db = .ok (result, next)) :
    db.SameChat next := by
  rcases Transaction.leaveRoom_cases hok with ⟨-, rfl⟩ | ⟨-, -, hleft, -⟩
  · exact Database.SameChat.refl _
  · exact absurd hleft hresult

end Members

end ChatServer
