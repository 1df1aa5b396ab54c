import ChatServer.Database.ChatChanges
import ChatServer.Database.DbService

/-!
# Who may change a room

What `ChatChange` says of transactions holds of calls, with one exception. `leave_room` keeps the
owner in by comparing the owner with the whole text it was called with, and then deletes the row of
the user that PostgreSQL reads in this text. For an owner `a`, a `leave_room` with `a`, a NUL and
anything behind it deletes the row of the owner (`leavingOwner`). `delete_room` tests the owner in
SQL and has no such case.

Two results are exact up to that. After every call of a sequence each room has exactly one member
row of role `owner`, the one of the user that `chat.rooms` records as its owner, if and only if no
call of the sequence is such a one (`roomsOwned_iff`). And in every database after a sequence of
calls, a call gives or takes a membership or adds a message only with the permission, and changes
none of the three tables when it is refused, if and only if it is not such a one. Taken to the
letter, so that a call is about the users whose ids are the very texts, this holds if and only if
the call has no effect under a text with a NUL (`permits_iff`).
-/

set_option autoImplicit false
set_option relaxedAutoImplicit false

namespace ChatServer

/-! ### Transactions that go through -/

section Transactions

variable {User : Type} [LinearOrder User] {db : Database User}

theorem exists_createRoom {now : Int} {gap : Nat} {ownerUserId : User} {roomName : Bytes}
    (huser : db.IsUser ownerUserId) :
    ∃ next, Transaction.createRoom now gap ownerUserId roomName db =
      .ok (db.nextRoomId + gap, next) := by
  unfold Transaction.createRoom
  dsimp only
  rw [if_neg (not_not.mpr huser)]
  exact ⟨_, rfl⟩

theorem exists_deleteRoom {ownerUserId : User} {roomId : Int}
    (howner : db.IsOwner roomId ownerUserId) :
    ∃ next, Transaction.deleteRoom ownerUserId roomId db = .ok (true, next) := by
  obtain ⟨room, hroom, hid, huser⟩ := howner
  unfold Transaction.deleteRoom
  dsimp only
  rw [if_neg]
  · exact ⟨_, rfl⟩
  · rw [List.isEmpty_iff, Table.deleteWhere, List.filter_eq_nil_iff]
    exact fun hnone ↦ hnone room hroom (decide_eq_true ⟨hid, huser⟩)

/-- A friend is a user, so that an invitation breaks no foreign key. -/
theorem exists_inviteRoom (hvalid : db.Valid) {now : Int} {inviterUserId friendUserId : User}
    {roomId : Int} (hmember : db.IsMember roomId inviterUserId)
    (hfriends : db.AreFriends inviterUserId friendUserId)
    (hnew : ¬ db.IsMember roomId friendUserId) :
    ∃ next, Transaction.inviteRoom now inviterUserId roomId friendUserId db =
      .ok (.invited, next) := by
  have hroom : db.IsRoom roomId := by
    obtain ⟨row, hrow, hkey⟩ := hmember
    exact (Prod.mk.inj hkey).1 ▸ (hvalid.roomMemberRefs row hrow).1
  have huser : db.IsUser friendUserId := by
    obtain ⟨row, hrow, hkey⟩ := hfriends
    obtain ⟨hmin, hmax⟩ := Prod.mk.inj hkey
    have husers := hvalid.friendshipUsers row hrow
    rw [hmin, hmax] at husers
    rcases le_total inviterUserId friendUserId with hle | hle
    · exact max_eq_right hle ▸ husers.2
    · exact min_eq_right hle ▸ husers.1
  unfold Transaction.inviteRoom
  rw [if_neg (not_not.mpr hmember), if_neg (not_not.mpr hfriends)]
  rcases Table.insertOrNothing_cases RoomMemberRow.key db.roomMembers
    ⟨roomId, friendUserId, .member, now⟩ with ⟨hconflict, -⟩ | ⟨-, hinsert⟩
  · exact absurd hconflict hnew
  · simp only [hinsert]
    rw [if_neg fun hmissing ↦ hmissing.2 ⟨hroom, huser⟩]
    exact ⟨_, rfl⟩

theorem exists_createRoomMessage (hvalid : db.Valid) {now : Int} {gap : Nat} {roomId : Int}
    {senderUserId : User} {body : Bytes} (hmember : db.IsMember roomId senderUserId) :
    ∃ next, Transaction.createRoomMessage now gap roomId senderUserId body db =
      .ok (some (db.nextMessageId + gap), next) := by
  have hrefs : db.IsRoom roomId ∧ db.IsUser senderUserId := by
    obtain ⟨row, hrow, hkey⟩ := hmember
    obtain ⟨hroom, huser⟩ := Prod.mk.inj hkey
    exact hroom ▸ huser ▸ hvalid.roomMemberRefs row hrow
  unfold Transaction.createRoomMessage
  rw [if_neg (not_not.mpr hmember), if_neg (not_not.mpr hrefs)]
  exact ⟨_, rfl⟩

/-- A member leaves under any id that is not the owner's. -/
theorem exists_leaveRoom (hvalid : db.Valid) {asked userId : User} {roomId : Int}
    (hmember : db.IsMember roomId userId) (howner : ¬ db.IsOwner roomId asked) :
    ∃ next, Transaction.leaveRoom asked userId roomId db = .ok (.left, next) := by
  obtain ⟨row, hrow, hkey⟩ := hmember
  obtain ⟨rfl, rfl⟩ := Prod.mk.inj hkey
  obtain ⟨room, hroom, hid⟩ := (hvalid.roomMemberRefs row hrow).1
  unfold Transaction.leaveRoom
  cases hfind : db.rooms.find? fun room ↦ decide (room.id = row.roomId) with
  | none => exact absurd (decide_eq_true hid) (List.find?_eq_none.mp hfind room hroom)
  | some found =>
    have hfound : found.id = row.roomId := by simpa using List.find?_some hfind
    dsimp only
    rw [if_neg fun hsame ↦ howner ⟨found, List.mem_of_find?_eq_some hfind, hfound, hsame⟩, if_neg]
    · exact ⟨_, rfl⟩
    · rw [List.isEmpty_iff, Table.deleteWhere, List.filter_eq_nil_iff]
      exact fun hnone ↦ hnone row hrow (decide_eq_true ⟨rfl, rfl⟩)

/-- A new room has no members yet. -/
theorem not_isMember_nextRoomId (hvalid : db.Valid) (gap : Nat) (userId : User) :
    ¬ db.IsMember (db.nextRoomId + gap) userId := by
  rintro ⟨row, hrow, hkey⟩
  obtain ⟨room, hroom, hid⟩ := (hvalid.roomMemberRefs row hrow).1
  have hbelow := (hvalid.roomIds.2 room hroom).2
  have hsame : row.roomId = db.nextRoomId + gap := (Prod.mk.inj hkey).1
  omega

end Transactions

/-! ### Calls behind a transaction -/

namespace ServiceCall

variable {call : ServiceCall}

theorem bind_eq_createRoom {now : Int} {gap : Nat} {ownerUserId roomName : Bytes}
    (hcall : call.bind = .createRoom now gap ownerUserId roomName) :
    ∃ owner name, call = .createRoom now gap owner name ∧ sqlText owner = ownerUserId ∧
      sqlText name = roomName := by
  cases call with
  | createRoom =>
    cases hcall
    exact ⟨_, _, rfl, rfl, rfl⟩
  | _ => cases hcall

theorem bind_eq_deleteRoom {ownerUserId : Bytes} {roomId : Int}
    (hcall : call.bind = .deleteRoom ownerUserId roomId) :
    ∃ owner, call = .deleteRoom owner roomId ∧ sqlText owner = ownerUserId := by
  cases call with
  | deleteRoom =>
    cases hcall
    exact ⟨_, rfl, rfl⟩
  | _ => cases hcall

theorem bind_eq_inviteRoom {now : Int} {inviterUserId friendUserId : Bytes} {roomId : Int}
    (hcall : call.bind = .inviteRoom now inviterUserId roomId friendUserId) :
    ∃ inviter friend, call = .inviteRoom now inviter roomId friend ∧
      sqlText inviter = inviterUserId ∧ sqlText friend = friendUserId := by
  cases call with
  | inviteRoom =>
    cases hcall
    exact ⟨_, _, rfl, rfl, rfl⟩
  | _ => cases hcall

theorem bind_eq_createRoomMessage {now : Int} {gap : Nat} {roomId : Int}
    {senderUserId body : Bytes}
    (hcall : call.bind = .createRoomMessage now gap roomId senderUserId body) :
    ∃ sender message, call = .createRoomMessage now gap roomId sender message ∧
      sqlText sender = senderUserId ∧ sqlText message = body := by
  cases call with
  | createRoomMessage =>
    cases hcall
    exact ⟨_, _, rfl, rfl, rfl⟩
  | _ => cases hcall

theorem bind_eq_leaveRoom {asked userId : Bytes} {roomId : Int}
    (hcall : call.bind = .leaveRoom asked userId roomId) :
    call = .leaveRoom asked roomId ∧ sqlText asked = userId := by
  cases call with
  | leaveRoom =>
    cases hcall
    exact ⟨rfl, rfl⟩
  | _ => cases hcall

end ServiceCall

variable [LinearOrder Bytes] {db : Database Bytes} {call : ServiceCall}

/-! ### Owners -/

/-- The call takes the owner out of a room: a `leave_room` under a text with a NUL in which
PostgreSQL reads the owner of the room, who is a member. -/
def Database.OwnerLeaves (db : Database Bytes) (call : ServiceCall) : Prop :=
  ∃ userId roomId, call = .leaveRoom userId roomId ∧ 0 ∈ userId ∧
    db.IsOwner roomId (sqlText userId) ∧ db.IsMember roomId (sqlText userId)

/-- Every room has one owner among its members, the one it records; members and messages are those
of rooms that exist; nobody is a member twice; and an invitation leaves every member as they are. -/
structure Database.RoomsOwned (db : Database Bytes) : Prop where
  owner : ∀ room ∈ db.rooms, ∃ member, db.roomMembers.filter
      (fun row ↦ decide (row.roomId = room.id ∧ row.role = .owner)) = [member] ∧
    member.userId = room.ownerUserId
  memberRooms : ∀ row ∈ db.roomMembers, db.IsRoom row.roomId
  messageRooms : ∀ row ∈ db.messages, db.IsRoom row.roomId
  membersOnce : db.roomMembers.Pairwise fun first second ↦
    ¬ (first.roomId = second.roomId ∧ first.userId = second.userId)
  invited : ∀ now inviterUserId roomId friendUserId result next,
    DbService.inviteRoom now inviterUserId roomId friendUserId db = .ok (result, next) →
      ∀ member ∈ db.roomMembers, member ∈ next.roomMembers ∧
        ∀ row ∈ next.roomMembers, row.key = member.key → row.role = member.role

/-- With the constraints of the schema, rooms are owned when their owners are recorded. -/
theorem roomsOwned_of_recorded (hvalid : db.Valid) (howners : db.OwnersRecorded) :
    db.RoomsOwned := by
  refine ⟨fun room hroom ↦ howners.sole hvalid hroom,
    fun row hrow ↦ (hvalid.roomMemberRefs row hrow).1,
    fun row hrow ↦ (hvalid.messageRefs row hrow).1, ?_, ?_⟩
  · refine (List.pairwise_map.mp hvalid.roomMembersKey).imp fun {first second} hne hsame ↦ hne ?_
    exact Prod.ext hsame.1 hsame.2
  · intro now inviterUserId roomId friendUserId result next hok member hmember
    have hkept : member ∈ next.roomMembers := by
      cases chatChange_inviteRoom hok with
      | none _ _ hsame => exact hsame.roomMembers ▸ hmember
      | inviteRoom _ _ _ _ _ _ _ _ _ hmembers _ =>
        rw [hmembers]
        exact List.mem_append_left _ hmember
    refine ⟨hkept, fun row hrow hkey ↦ ?_⟩
    have hunique := (valid_inviteRoom hvalid hok).roomMembersKey
    rw [hunique.eq_of_key_eq hrow hkept hkey]

/-- A call that takes no owner out keeps the owners recorded. -/
theorem ownersRecorded_run (hvalid : db.Valid) (howners : db.OwnersRecorded)
    (hstays : ¬ db.OwnerLeaves call) : (call.run db).OwnersRecorded := by
  rw [ServiceCall.run_eq]
  refine howners.change (fun asked userId roomId hcall howner hmember ↦ ?_)
    (chatChange_run hvalid call.bind)
  obtain ⟨rfl, rfl⟩ := ServiceCall.bind_eq_leaveRoom hcall
  by_contra hne
  have hnul : 0 ∈ asked := by
    by_contra hnone
    exact hne (sqlText_eq_self_iff.mpr hnone).symm
  exact hstays ⟨asked, roomId, rfl, hnul, howner, hmember⟩

/-- A text with a NUL is not the id of an owner. -/
theorem not_isOwner_of_mem (hvalid : db.Valid) (hwhole : db.IdsWhole)
    {userId : Bytes} (hnul : 0 ∈ userId) (roomId : Int) : ¬ db.IsOwner roomId userId := by
  rintro ⟨room, hroom, -, rfl⟩
  exact hwhole _ (hvalid.roomOwner room hroom) hnul

/-- A call that takes the owner out of a room does end the membership. -/
theorem not_isMember_of_ownerLeaves (hvalid : db.Valid)
    (hwhole : db.IdsWhole) (hleaves : db.OwnerLeaves call) :
    ∃ userId roomId, call = .leaveRoom userId roomId ∧ db.IsOwner roomId (sqlText userId) ∧
      db.IsMember roomId (sqlText userId) ∧ (call.run db).rooms = db.rooms ∧
      ¬ (call.run db).IsMember roomId (sqlText userId) := by
  obtain ⟨userId, roomId, rfl, hnul, howner, hmember⟩ := hleaves
  obtain ⟨next, hok⟩ :=
    exists_leaveRoom hvalid hmember (not_isOwner_of_mem hvalid hwhole hnul roomId)
  have hrun : (ServiceCall.leaveRoom userId roomId).run db = next := by
    rw [ServiceCall.run, DbService.leaveRoom, hok]
    rfl
  obtain ⟨members, hnext⟩ := leaveRoom_eq_ok hok
  refine ⟨userId, roomId, rfl, howner, hmember, ?_, ?_⟩
  · rw [hrun, hnext]
  · rw [hrun, isMember_leaveRoom hok]
    exact fun hkept ↦ hkept.2 ⟨rfl, rfl, rfl⟩

/-- Every room has its owner after each call of a sequence, if and only if none of them is a
`leave_room` that takes an owner out. -/
theorem roomsOwned_iff (calls : List ServiceCall) :
    (∀ earlier, earlier <+: calls → (Database.served earlier).RoomsOwned) ↔
      ∀ before call later, calls = before ++ call :: later →
        ¬ (Database.served before).OwnerLeaves call := by
  constructor
  · intro howned before call later hsplit hleaves
    obtain ⟨userId, roomId, -, ⟨room, hroom, rfl, huser⟩, -, hrooms, hgone⟩ :=
      not_isMember_of_ownerLeaves (valid_served before) (idsWhole_served before) hleaves
    -- the room is still there, and its owner no member
    have hafter := howned (before ++ [call]) ⟨later, by simp [hsplit]⟩
    rw [Database.served_concat] at hafter
    obtain ⟨member, hmembers, hmember⟩ := hafter.owner room (hrooms.symm ▸ hroom)
    have hrow := List.mem_filter.mp (hmembers.symm ▸ List.mem_singleton_self member)
    exact hgone ⟨member, hrow.1,
      Prod.ext (of_decide_eq_true hrow.2).1 (hmember.trans huser)⟩
  · intro hstays earlier hprefix
    refine roomsOwned_of_recorded (valid_served earlier) ?_
    induction earlier using List.reverseRecOn with
    | nil => constructor <;> simp [Database.empty]
    | append_singleton before call ih =>
      obtain ⟨later, hsplit⟩ := hprefix
      have hsplit' : calls = before ++ call :: later := by simp [← hsplit]
      rw [Database.served_concat]
      exact ownersRecorded_run (valid_served before) (ih ⟨call :: later, hsplit'.symm⟩)
        (hstays before call later hsplit')

/-- A user creates a room. -/
def ownedRoom : List ServiceCall :=
  [.signup (text "a") (text "p"), .createRoom 0 0 (text "a") (text "r")]

/-- The owner leaves under an id that goes on behind a NUL. -/
def leavingOwner : ServiceCall :=
  .leaveRoom (text "a" ++ 0 :: text "x") 1

omit [LinearOrder Bytes] in
/-- The room is left without an owner. -/
theorem leavingOwner_unowned :
    letI := bytewise
    ¬ (Database.served (ownedRoom ++ [leavingOwner])).RoomsOwned := by
  let order := bytewise
  intro howned
  have hrooms : (Database.served (ownedRoom ++ [leavingOwner])).rooms.map RoomRow.id = [1] := by
    decide
  have hmembers : (Database.served (ownedRoom ++ [leavingOwner])).roomMembers = [] := by decide
  obtain ⟨room, hroom, -⟩ := List.mem_map.mp (hrooms.symm ▸ List.mem_singleton_self (1 : Int))
  obtain ⟨member, hfilter, -⟩ := howned.owner room hroom
  rw [hmembers] at hfilter
  cases hfilter

/-! ### Permissions -/

/-- What a call may do to the members and the messages of rooms, where `names` says which texts name
which users. -/
structure Database.Permits (db : Database Bytes) (names : Bytes → Bytes → Prop)
    (call : ServiceCall) : Prop where
  /-- A membership is given to the creator of a room, or by a member to a friend. -/
  joins : ∀ roomId userId, ¬ db.IsMember roomId userId → (call.run db).IsMember roomId userId →
    (∃ now gap owner roomName next, call = .createRoom now gap owner roomName ∧
        names owner userId ∧ DbService.createRoom now gap owner roomName db = .ok (roomId, next)) ∨
      ∃ now inviter inviterUserId friend, call = .inviteRoom now inviter roomId friend ∧
        names inviter inviterUserId ∧ names friend userId ∧ db.IsMember roomId inviterUserId ∧
        db.AreFriends inviterUserId userId
  /-- A membership is given up by a member who is not the owner, or ended by the owner. -/
  leaves : ∀ roomId userId, db.IsMember roomId userId → ¬ (call.run db).IsMember roomId userId →
    (∃ leaver, call = .leaveRoom leaver roomId ∧ names leaver userId ∧
        ¬ db.IsOwner roomId userId) ∨
      ∃ owner ownerUserId, call = .deleteRoom owner roomId ∧ names owner ownerUserId ∧
        db.IsOwner roomId ownerUserId
  /-- Deleting a room removes it with all its members and messages, and nothing else. -/
  deletes : ∀ owner roomId next, call = .deleteRoom owner roomId →
    DbService.deleteRoom owner roomId db = .ok (true, next) →
      next.rooms = db.rooms.filter (fun row ↦ decide (row.id ≠ roomId)) ∧
        next.roomMembers = db.roomMembers.filter (fun row ↦ decide (row.roomId ≠ roomId)) ∧
        next.messages = db.messages.filter fun row ↦ decide (row.roomId ≠ roomId)
  /-- A message is added by a member of the room. -/
  posts : ∀ row ∈ (call.run db).messages, row ∉ db.messages →
    (∃ now gap sender body, call = .createRoomMessage now gap row.roomId sender body ∧
        names sender row.senderUserId ∧ row.body = sqlText body) ∧
      db.IsMember row.roomId row.senderUserId
  /-- A call that is refused changes nothing. -/
  refusals : call.bind.Refused db → (call.run db).rooms = db.rooms ∧
    (call.run db).roomMembers = db.roomMembers ∧ (call.run db).messages = db.messages

/-- The texts of a call on a room that are ids of users. -/
def ServiceCall.roomUsers : ServiceCall → List Bytes
  | .createRoom _ _ ownerUserId _ => [ownerUserId]
  | .deleteRoom ownerUserId _ => [ownerUserId]
  | .inviteRoom _ inviterUserId _ friendUserId => [inviterUserId, friendUserId]
  | .createRoomMessage _ _ _ senderUserId _ => [senderUserId]
  | .leaveRoom userId _ => [userId]
  | _ => []

/-- The tests a call has to pass to give or take a membership or to add a message. -/
def Database.Admits (db : Database Bytes) : ServiceCall → Prop
  | .createRoom _ _ ownerUserId _ => db.IsUser (sqlText ownerUserId)
  | .deleteRoom ownerUserId roomId =>
    db.IsOwner roomId (sqlText ownerUserId) ∧ ∃ userId, db.IsMember roomId userId
  | .inviteRoom _ inviterUserId roomId friendUserId =>
    db.IsMember roomId (sqlText inviterUserId) ∧
      db.AreFriends (sqlText inviterUserId) (sqlText friendUserId) ∧
      ¬ db.IsMember roomId (sqlText friendUserId)
  | .createRoomMessage _ _ roomId senderUserId _ => db.IsMember roomId (sqlText senderUserId)
  | .leaveRoom userId roomId => db.IsMember roomId (sqlText userId) ∧ ¬ db.IsOwner roomId userId
  | _ => False

/-- The call passes its tests under a text with a NUL. -/
def Database.Misreads (db : Database Bytes) (call : ServiceCall) : Prop :=
  db.Admits call ∧ ∃ userId ∈ call.roomUsers, 0 ∈ userId

/-- A call that takes no owner out keeps to the permissions, when the texts it passes its tests with
name the users that PostgreSQL reads in them. -/
theorem permits_of_names (hvalid : db.Valid) {names : Bytes → Bytes → Prop}
    (hstays : ¬ db.OwnerLeaves call)
    (hnames : db.Admits call → ∀ userId ∈ call.roomUsers, names userId (sqlText userId)) :
    db.Permits names call := by
  have hchange := chatChange_run hvalid call.bind
  rw [← ServiceCall.run_eq] at hchange
  constructor
  case joins =>
    intro roomId userId hbefore hafter
    rcases hchange.joins hbefore hafter with ⟨now, gap, roomName, hcall, hok⟩ |
      ⟨now, inviterUserId, hcall, hmember, hfriends⟩
    · obtain ⟨owner, name, rfl, rfl, rfl⟩ := ServiceCall.bind_eq_createRoom hcall
      have hadmits := (Transaction.createRoom_cases hok).1
      exact Or.inl ⟨now, gap, owner, name, _, rfl,
        hnames hadmits owner (List.mem_singleton_self _), hok⟩
    · obtain ⟨inviter, friend, rfl, rfl, rfl⟩ := ServiceCall.bind_eq_inviteRoom hcall
      have hnamed := hnames ⟨hmember, hfriends, hbefore⟩
      exact Or.inr ⟨now, inviter, _, friend, rfl, hnamed inviter (by simp [ServiceCall.roomUsers]),
        hnamed friend (by simp [ServiceCall.roomUsers]), hmember, hfriends⟩
  case leaves =>
    intro roomId userId hbefore hafter
    rcases hchange.leaves hbefore hafter with ⟨asked, hcall, hnotOwner⟩ |
      ⟨ownerUserId, hcall, howner⟩
    · obtain ⟨rfl, rfl⟩ := ServiceCall.bind_eq_leaveRoom hcall
      refine Or.inl ⟨asked, rfl,
        hnames ⟨hbefore, hnotOwner⟩ asked (List.mem_singleton_self _), fun howner ↦ ?_⟩
      by_cases hnul : 0 ∈ asked
      · exact hstays ⟨asked, roomId, rfl, hnul, howner, hbefore⟩
      · rw [sqlText_eq_self_iff.mpr hnul] at howner
        exact hnotOwner howner
    · obtain ⟨owner, rfl, rfl⟩ := ServiceCall.bind_eq_deleteRoom hcall
      exact Or.inr ⟨owner, _, rfl,
        hnames ⟨howner, userId, hbefore⟩ owner (List.mem_singleton_self _), howner⟩
  case deletes =>
    rintro owner roomId next rfl hok
    exact deleteRoom_tables hvalid hok
  case posts =>
    intro row hafter hbefore
    obtain ⟨⟨now, gap, hcall⟩, hmember⟩ := hchange.posts hafter hbefore
    obtain ⟨sender, body, hsame, hsender, hbody⟩ := ServiceCall.bind_eq_createRoomMessage hcall
    rw [hsame] at hnames
    have hadmits : db.Admits (.createRoomMessage now gap row.roomId sender body) := by
      rw [← hsender] at hmember
      exact hmember
    have hnamed := hnames hadmits sender (List.mem_singleton_self _)
    rw [hsender] at hnamed
    exact ⟨⟨now, gap, sender, body, hsame, hnamed, hbody.symm⟩, hmember⟩
  case refusals =>
    intro hrefused
    have hsame := sameChat_run_of_refused hrefused
    rw [← ServiceCall.run_eq] at hsame
    exact ⟨hsame.rooms, hsame.roomMembers, hsame.messages⟩

/-- A call that passes its tests under a text with a NUL is not about users of the very texts. -/
theorem not_permits_of_misreads (hvalid : db.Valid) (hwhole : db.IdsWhole)
    (hmisreads : db.Misreads call) : ¬ db.Permits Eq call := by
  have hread : ∀ {userId : Bytes}, userId = sqlText userId → 0 ∉ userId := fun hsame ↦
    sqlText_eq_self_iff.mp hsame.symm
  intro hpermits
  obtain ⟨hadmits, userId, hmem, hnul⟩ := hmisreads
  cases call with
  | createRoom now gap owner name =>
    obtain rfl := List.mem_singleton.mp hmem
    obtain ⟨next, hok⟩ := @exists_createRoom Bytes _ db now gap _ (sqlText name) hadmits
    have hafter : ((ServiceCall.createRoom now gap userId name).run db).IsMember
        (db.nextRoomId + gap) (sqlText userId) := by
      rw [ServiceCall.run, DbService.createRoom, hok]
      exact (isMember_createRoom hok _ _).mpr (Or.inr ⟨rfl, rfl⟩)
    rcases hpermits.joins _ _ (not_isMember_nextRoomId hvalid gap _) hafter with
      ⟨now', gap', owner', name', _, hcall, hnamed, -⟩ | ⟨now', inviter, -, friend, hcall, -⟩
    · obtain ⟨-, -, rfl, -⟩ := ServiceCall.createRoom.inj hcall
      exact hread hnamed hnul
    · cases hcall
  | deleteRoom owner roomId =>
    obtain rfl := List.mem_singleton.mp hmem
    obtain ⟨howner, member, hmember⟩ := hadmits
    obtain ⟨next, hok⟩ := exists_deleteRoom howner
    have hafter : ¬ ((ServiceCall.deleteRoom userId roomId).run db).IsMember roomId member := by
      rw [ServiceCall.run, DbService.deleteRoom, hok]
      exact fun hkept ↦ ((isMember_deleteRoom hok _ _).mp hkept).2 rfl
    rcases hpermits.leaves _ _ hmember hafter with ⟨leaver, hcall, -⟩ |
      ⟨owner', ownerUserId, hcall, rfl, howner'⟩
    · cases hcall
    · obtain ⟨rfl, -⟩ := ServiceCall.deleteRoom.inj hcall
      exact not_isOwner_of_mem hvalid hwhole hnul roomId howner'
  | inviteRoom now inviter roomId friend =>
    obtain ⟨hmember, hfriends, hnew⟩ := hadmits
    obtain ⟨next, hok⟩ := @exists_inviteRoom Bytes _ db hvalid now _ _ _ hmember hfriends hnew
    have hafter : ((ServiceCall.inviteRoom now inviter roomId friend).run db).IsMember roomId
        (sqlText friend) := by
      rw [ServiceCall.run, DbService.inviteRoom, hok]
      exact (isMember_inviteRoom hok _ _).mpr (Or.inr ⟨rfl, rfl, rfl⟩)
    rcases hpermits.joins _ _ hnew hafter with ⟨now', gap, owner, name, _, hcall, -⟩ |
      ⟨now', inviter', inviterUserId, friend', hcall, rfl, hfriend, hinviter, -⟩
    · cases hcall
    · obtain ⟨-, rfl, -, rfl⟩ := ServiceCall.inviteRoom.inj hcall
      rcases List.mem_cons.mp hmem with rfl | hmem
      · exact hwhole.of_isMember hvalid hinviter hnul
      · obtain rfl := List.mem_singleton.mp hmem
        exact hread hfriend hnul
  | createRoomMessage now gap roomId sender body =>
    obtain rfl := List.mem_singleton.mp hmem
    obtain ⟨next, hok⟩ :=
      @exists_createRoomMessage Bytes _ db hvalid now gap _ _ (sqlText body) hadmits
    have hmessages : ((ServiceCall.createRoomMessage now gap roomId userId body).run db).messages =
        db.messages ++
          [⟨db.nextMessageId + gap, roomId, sqlText userId, sqlText body, now⟩] := by
      rw [ServiceCall.run, DbService.createRoomMessage, hok, DbResult.committed,
        (createRoomMessage_eq_ok hok).2.2]
    have hfresh : (⟨db.nextMessageId + gap, roomId, sqlText userId, sqlText body, now⟩ :
        MessageRow Bytes) ∉ db.messages := by
      intro hrow
      have hbelow := hvalid.messageIds _ hrow
      dsimp only at hbelow
      omega
    obtain ⟨⟨now', gap', sender', body', hcall, hnamed, -⟩, -⟩ :=
      hpermits.posts _ (hmessages ▸ List.mem_append_right _ (List.mem_singleton_self _)) hfresh
    obtain ⟨-, -, -, rfl, -⟩ := ServiceCall.createRoomMessage.inj hcall
    exact hread hnamed hnul
  | leaveRoom leaver roomId =>
    obtain rfl := List.mem_singleton.mp hmem
    obtain ⟨next, hok⟩ := exists_leaveRoom hvalid hadmits.1 hadmits.2
    have hafter : ¬ ((ServiceCall.leaveRoom userId roomId).run db).IsMember roomId
        (sqlText userId) := by
      rw [ServiceCall.run, DbService.leaveRoom, hok]
      exact fun hkept ↦ ((isMember_leaveRoom hok _ _).mp hkept).2 ⟨rfl, rfl, rfl⟩
    rcases hpermits.leaves _ _ hadmits.1 hafter with ⟨leaver', hcall, hnamed, -⟩ |
      ⟨owner, ownerUserId, hcall, -⟩
    · obtain ⟨rfl, -⟩ := ServiceCall.leaveRoom.inj hcall
      exact hread hnamed hnul
    · cases hcall
  | _ => exact hadmits

/-- In every database after a sequence of calls, a call keeps to the permissions of the users that
PostgreSQL reads in its texts if and only if it takes no owner out of a room. It keeps to those of
the users whose ids are its texts if and only if it passes its tests under no text with a NUL. -/
theorem permits_iff (calls : List ServiceCall) (call : ServiceCall) :
    ((Database.served calls).Permits (fun given userId ↦ sqlText given = userId) call ↔
      ¬ (Database.served calls).OwnerLeaves call) ∧
    ((Database.served calls).Permits Eq call ↔ ¬ (Database.served calls).Misreads call) := by
  have hvalid := valid_served calls
  have hwhole := idsWhole_served calls
  refine ⟨⟨fun hpermits hleaves ↦ ?_, fun hstays ↦
      permits_of_names hvalid hstays fun _ _ _ ↦ rfl⟩,
    ⟨fun hpermits hmisreads ↦ not_permits_of_misreads hvalid hwhole hmisreads hpermits,
      fun hreads ↦ ?_⟩⟩
  · obtain ⟨userId, roomId, rfl, howner, hmember, -, hgone⟩ :=
      not_isMember_of_ownerLeaves hvalid hwhole hleaves
    rcases hpermits.leaves _ _ hmember hgone with ⟨leaver, -, -, hnotOwner⟩ |
      ⟨owner, ownerUserId, hcall, -⟩
    · exact hnotOwner howner
    · cases hcall
  · refine permits_of_names hvalid (fun hleaves ↦ ?_) fun hadmits userId hmem ↦ ?_
    · obtain ⟨userId, roomId, rfl, hnul, -, hmember⟩ := hleaves
      exact hreads ⟨⟨hmember, not_isOwner_of_mem hvalid hwhole hnul roomId⟩, userId,
        List.mem_singleton_self _, hnul⟩
    · exact (sqlText_eq_self_iff.mpr fun hnul ↦ hreads ⟨hadmits, userId, hmem, hnul⟩).symm

omit [LinearOrder Bytes] in
/-- The owner stops being a member by `leave_room`, whichever way its text is read. -/
theorem leavingOwner_unpermitted :
    letI := bytewise
    ¬ (Database.served ownedRoom).Permits (fun given userId ↦ sqlText given = userId) leavingOwner ∧
      ¬ (Database.served ownedRoom).Permits Eq leavingOwner := by
  let order := bytewise
  have hmember : (Database.served ownedRoom).IsMember 1 (text "a") := by decide
  have hgone : ¬ (leavingOwner.run (Database.served ownedRoom)).IsMember 1 (text "a") := by decide
  have howner : ((Database.served ownedRoom).rooms.map fun room ↦ (room.id, room.ownerUserId)) =
      [(1, text "a")] := by decide
  obtain ⟨room, hroom, hfacts⟩ := List.mem_map.mp (howner.symm ▸ List.mem_singleton_self _)
  obtain ⟨hid, huser⟩ := Prod.mk.inj hfacts
  have hbroken : ∀ names : Bytes → Bytes → Prop,
      ¬ (Database.served ownedRoom).Permits names leavingOwner := by
    intro names hkept
    rcases hkept.leaves 1 (text "a") hmember hgone with ⟨leaver, -, -, hnotOwner⟩ |
      ⟨owner, ownerUserId, hcall, -⟩
    · exact hnotOwner ⟨room, hroom, hid, huser⟩
    · cases hcall
  exact ⟨hbroken _, hbroken _⟩

end ChatServer
