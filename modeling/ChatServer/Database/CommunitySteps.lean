import ChatServer.Database.Community
import ChatServer.Database.FriendRequests

/-!
# What one call does to the community

Each kind of call touches one part of the community and leaves the others alone (`_step_of_not`).
For each fact about two users, or a user and a room, there is a lemma `_step` that says when it
holds after a call: when the call has begun it with its answer, or when it held before and the call
has not ended it. `room_step_cases` and the lemmas on accounts say what else a call can make of a
room and of an account.
-/

set_option autoImplicit false
set_option relaxedAutoImplicit false

namespace ChatServer

open Classical

/-! ### Kinds of calls -/

namespace WriteCall

variable {User : Type}

/-- The call may change who are friends. -/
def ChangesFriends : WriteCall User → Prop
  | .addFriend .. | .removeFriend .. | .acceptFriendRequest .. => True
  | _ => False

/-- The call may change the status of a request. -/
def ChangesRequests : WriteCall User → Prop
  | .requestFriend .. | .acceptFriendRequest .. | .rejectFriendRequest .. => True
  | _ => False

/-- The call may change a room. -/
def ChangesRooms : WriteCall User → Prop
  | .createRoom .. | .deleteRoom .. | .inviteRoom .. | .createRoomMessage .. | .leaveRoom .. => True
  | _ => False

/-- The call may change an account. -/
def ChangesAccounts : WriteCall User → Prop
  | .signup .. | .changeNickname .. => True
  | _ => False

/-- The call makes friends of the two users, when it succeeds. -/
def Befriends (call : WriteCall User) (a b : User) : Prop :=
  ∃ now, call = .addFriend now a b ∨ call = .addFriend now b a ∨
    call = .acceptFriendRequest now a b ∨ call = .acceptFriendRequest now b a

/-- The call answers the request of this direction. -/
def Settles (call : WriteCall User) (fromUserId toUserId : User) : Prop :=
  ∃ now, call = .acceptFriendRequest now fromUserId toUserId ∨
    call = .rejectFriendRequest now fromUserId toUserId

theorem befriends_addFriend {now : Int} {userId friendId a b : User} :
    (WriteCall.addFriend now userId friendId).Befriends a b ↔
      (a = userId ∧ b = friendId) ∨ (a = friendId ∧ b = userId) := by
  constructor
  · rintro ⟨_, hcall | hcall | hcall | hcall⟩ <;> cases hcall
    · exact Or.inl ⟨rfl, rfl⟩
    · exact Or.inr ⟨rfl, rfl⟩
  · rintro (⟨rfl, rfl⟩ | ⟨rfl, rfl⟩)
    · exact ⟨now, Or.inl rfl⟩
    · exact ⟨now, Or.inr (Or.inl rfl)⟩

theorem befriends_acceptFriendRequest {now : Int} {fromUserId toUserId a b : User} :
    (WriteCall.acceptFriendRequest now fromUserId toUserId).Befriends a b ↔
      (a = fromUserId ∧ b = toUserId) ∨ (a = toUserId ∧ b = fromUserId) := by
  constructor
  · rintro ⟨_, hcall | hcall | hcall | hcall⟩ <;> cases hcall
    · exact Or.inl ⟨rfl, rfl⟩
    · exact Or.inr ⟨rfl, rfl⟩
  · rintro (⟨rfl, rfl⟩ | ⟨rfl, rfl⟩)
    · exact ⟨now, Or.inr (Or.inr (Or.inl rfl))⟩
    · exact ⟨now, Or.inr (Or.inr (Or.inr rfl))⟩

theorem removes_removeFriend {userId friendId a b : User} :
    (WriteCall.removeFriend userId friendId).Removes a b ↔
      (a = userId ∧ b = friendId) ∨ (a = friendId ∧ b = userId) := by
  constructor
  · rintro (hcall | hcall) <;> cases hcall
    · exact Or.inl ⟨rfl, rfl⟩
    · exact Or.inr ⟨rfl, rfl⟩
  · rintro (⟨rfl, rfl⟩ | ⟨rfl, rfl⟩)
    · exact Or.inl rfl
    · exact Or.inr rfl

theorem Befriends.changesFriends {call : WriteCall User} {a b : User}
    (hcall : call.Befriends a b) : call.ChangesFriends := by
  obtain ⟨now, rfl | rfl | rfl | rfl⟩ := hcall <;> trivial

theorem Removes.changesFriends {call : WriteCall User} {a b : User} (hcall : call.Removes a b) :
    call.ChangesFriends := by
  rcases hcall with rfl | rfl <;> trivial

theorem Requests.changesRequests {call : WriteCall User} {a b : User}
    (hcall : call.Requests a b) : call.ChangesRequests := by
  obtain ⟨now, rfl⟩ := hcall
  trivial

theorem Settles.changesRequests {call : WriteCall User} {a b : User} (hcall : call.Settles a b) :
    call.ChangesRequests := by
  obtain ⟨now, rfl | rfl⟩ := hcall <;> trivial

/-- With this answer the call has made the user a member of the room. -/
def Enters (call : WriteCall User) (answer : Answer) (roomId : Int) (userId : User) : Prop :=
  (∃ now gap name, call = .createRoom now gap userId name ∧ answer = .created roomId) ∨
    ∃ now inviter, call = .inviteRoom now inviter roomId userId ∧ answer = .invited .invited

/-- With this answer the call has ended the membership, or the room. -/
def Exits (call : WriteCall User) (answer : Answer) (roomId : Int) (userId : User) : Prop :=
  (∃ asked, call = .leaveRoom asked userId roomId ∧ answer = .left .left) ∨
    ∃ owner, call = .deleteRoom owner roomId ∧ answer = .changed true

theorem Enters.changesRooms {call : WriteCall User} {answer : Answer} {roomId : Int}
    {userId : User} (hcall : call.Enters answer roomId userId) : call.ChangesRooms := by
  rcases hcall with ⟨now, gap, name, rfl, -⟩ | ⟨now, inviter, rfl, -⟩ <;> trivial

theorem Exits.changesRooms {call : WriteCall User} {answer : Answer} {roomId : Int}
    {userId : User} (hcall : call.Exits answer roomId userId) : call.ChangesRooms := by
  rcases hcall with ⟨asked, rfl, -⟩ | ⟨owner, rfl, -⟩ <;> trivial

/-- The name the call gives to the user. -/
def nicknameFor [DecidableEq User] (id : User) : WriteCall User → Option Bytes
  | .changeNickname user nickname => if user = id then some nickname else none
  | _ => none

/-- The call signs the user up. -/
def SignsUp (call : WriteCall User) (id : User) : Prop :=
  ∃ pw, call = .signup id pw

end WriteCall

/-! ### One call -/

namespace Community

variable {User : Type} [DecidableEq User] (community : Community User) {call : WriteCall User}

theorem friends_step_of_not (hcall : ¬ call.ChangesFriends) :
    (community.step call).2.friends = community.friends := by
  cases call with
  | addFriend | removeFriend | acceptFriendRequest => exact absurd trivial hcall
  | signup | changeNickname | requestFriend | rejectFriendRequest | createRoom | deleteRoom
  | inviteRoom | createRoomMessage | leaveRoom =>
    simp only [step, signup, changeNickname, requestFriend, rejectFriendRequest, createRoom,
      deleteRoom, inviteRoom, createRoomMessage, leaveRoom]
    repeat' split
    all_goals rfl

theorem request_step_of_not (hcall : ¬ call.ChangesRequests) :
    (community.step call).2.request = community.request := by
  cases call with
  | requestFriend | acceptFriendRequest | rejectFriendRequest => exact absurd trivial hcall
  | signup | changeNickname | addFriend | removeFriend | createRoom | deleteRoom | inviteRoom
  | createRoomMessage | leaveRoom =>
    simp only [step, signup, changeNickname, addFriend, removeFriend, createRoom, deleteRoom,
      inviteRoom, createRoomMessage, leaveRoom]
    repeat' split
    all_goals rfl

theorem room_step_of_not (hcall : ¬ call.ChangesRooms) :
    (community.step call).2.room = community.room := by
  cases call with
  | createRoom | deleteRoom | inviteRoom | createRoomMessage | leaveRoom =>
    exact absurd trivial hcall
  | signup | changeNickname | addFriend | removeFriend | requestFriend | acceptFriendRequest
  | rejectFriendRequest =>
    simp only [step, signup, changeNickname, addFriend, removeFriend, requestFriend,
      acceptFriendRequest, rejectFriendRequest]
    repeat' split
    all_goals rfl

theorem account_step_of_not (hcall : ¬ call.ChangesAccounts) :
    (community.step call).2.account = community.account := by
  cases call with
  | signup | changeNickname => exact absurd trivial hcall
  | addFriend | removeFriend | requestFriend | acceptFriendRequest | rejectFriendRequest
  | createRoom | deleteRoom | inviteRoom | createRoomMessage | leaveRoom =>
    simp only [step, addFriend, removeFriend, requestFriend, acceptFriendRequest,
      rejectFriendRequest, createRoom, deleteRoom, inviteRoom, createRoomMessage, leaveRoom]
    repeat' split
    all_goals rfl

omit [DecidableEq User] in
theorem adj_befriend {first second a b : User} :
    (community.befriend first second).friends.Adj a b ↔
      community.friends.Adj a b ∨
        (((a = first ∧ b = second) ∨ (a = second ∧ b = first)) ∧ a ≠ b) := by
  rw [befriend, SimpleGraph.sup_adj, SimpleGraph.edge_adj]

/-- Two users are friends after a call if it has made them friends, or they were and it does not
remove them. -/
theorem adj_step {a b : User} (hne : a ≠ b) : (community.step call).2.friends.Adj a b ↔
    (call.Befriends a b ∧ (community.step call).1 = .changed true) ∨
      (community.friends.Adj a b ∧ ¬ call.Removes a b) := by
  by_cases hcall : call.ChangesFriends
  swap
  · rw [friends_step_of_not community hcall]
    constructor
    · exact fun hadj ↦ Or.inr ⟨hadj, fun hremoves ↦ hcall hremoves.changesFriends⟩
    · rintro (⟨hbefriends, -⟩ | ⟨hadj, -⟩)
      · exact absurd hbefriends.changesFriends hcall
      · exact hadj
  cases call with
  | addFriend now userId friendId =>
    have hnot : ¬ (WriteCall.addFriend now userId friendId).Removes a b := by
      simp [WriteCall.Removes]
    rw [WriteCall.befriends_addFriend]
    simp only [step, addFriend]
    split_ifs
    · simp [hnot]
    · simp [hnot]
    · simp [hnot, adj_befriend, hne, or_comm]
    · simp [hnot]
  | removeFriend userId friendId =>
    have hnot : ¬ (WriteCall.removeFriend userId friendId).Befriends a b := by
      simp [WriteCall.Befriends]
    rw [WriteCall.removes_removeFriend]
    simp [step, removeFriend, hnot, SimpleGraph.deleteEdges_adj]
  | acceptFriendRequest now fromUserId toUserId =>
    have hnot : ¬ (WriteCall.acceptFriendRequest now fromUserId toUserId).Removes a b := by
      simp [WriteCall.Removes]
    rw [WriteCall.befriends_acceptFriendRequest]
    simp only [step, acceptFriendRequest]
    split_ifs
    · simp [hnot, adj_befriend, hne, or_comm, withRequest]
    · simp [hnot]
  | _ => exact hcall.elim

theorem request_withRequest {fromUserId toUserId : User} {status : RequestStatus}
    {pair : User × User} :
    (community.withRequest fromUserId toUserId status).request pair =
      if pair = (fromUserId, toUserId) then some status else community.request pair :=
  Function.update_apply _ _ _ _

/-- A pending request that is answered is pending no more. -/
theorem pending_settle {status : RequestStatus} (hstatus : status ≠ .pending)
    (fromUserId toUserId : User) (pair : User × User) :
    (if community.request (fromUserId, toUserId) = some .pending then
      community.withRequest fromUserId toUserId status else community).request pair =
        some .pending ↔
      community.request pair = some .pending ∧ ¬ pair = (fromUserId, toUserId) := by
  split_ifs with hpending
  · rw [request_withRequest]
    split_ifs with hpair
    · simp [hpair, hstatus]
    · simp [hpair]
  · constructor
    · intro hother
      exact ⟨hother, fun hpair ↦ hpending (hpair ▸ hother)⟩
    · exact And.left

/-- Asking makes the request pending, or is not granted and changes nothing. -/
theorem requestFriend_cases (fromUserId toUserId : User) :
    community.requestFriend fromUserId toUserId =
        (.changed true, community.withRequest fromUserId toUserId .pending) ∨
      ((community.requestFriend fromUserId toUserId).1 ≠ .changed true ∧
        (community.requestFriend fromUserId toUserId).2 = community) := by
  unfold requestFriend
  repeat' split
  all_goals first
    | exact Or.inl rfl
    | exact Or.inr ⟨by simp, rfl⟩

/-- A request is pending after a call that was granted it, or if it was and is not answered. -/
theorem pending_step {a b : User} : (community.step call).2.request (a, b) = some .pending ↔
    (call.Requests a b ∧ (community.step call).1 = .changed true) ∨
      (community.request (a, b) = some .pending ∧ ¬ call.Settles a b) := by
  by_cases hcall : call.ChangesRequests
  swap
  · rw [request_step_of_not community hcall]
    constructor
    · exact fun hpending ↦ Or.inr ⟨hpending, fun hsettles ↦ hcall hsettles.changesRequests⟩
    · rintro (⟨hrequests, -⟩ | ⟨hpending, -⟩)
      · exact absurd hrequests.changesRequests hcall
      · exact hpending
  cases call with
  | requestFriend now fromUserId toUserId =>
    have hnot : ¬ (WriteCall.requestFriend now fromUserId toUserId).Settles a b := by
      simp [WriteCall.Settles]
    have hrequests : (WriteCall.requestFriend now fromUserId toUserId).Requests a b ↔
        (a, b) = (fromUserId, toUserId) := by
      simp [WriteCall.Requests, eq_comm]
    rw [hrequests]
    rcases community.requestFriend_cases fromUserId toUserId with hgranted | ⟨hrefused, hsame⟩
    · rw [step, hgranted, request_withRequest]
      split_ifs with hpair
      · simp [hpair]
      · simp [hpair, hnot]
    · rw [step, hsame]
      simp [hrefused, hnot]
  | acceptFriendRequest now fromUserId toUserId =>
    have hnot : ¬ (WriteCall.acceptFriendRequest now fromUserId toUserId).Requests a b := by
      simp [WriteCall.Requests]
    have hsettles : (WriteCall.acceptFriendRequest now fromUserId toUserId).Settles a b ↔
        (a, b) = (fromUserId, toUserId) := by
      simp [WriteCall.Settles, eq_comm]
    rw [hsettles]
    have hsettled := community.pending_settle
      (show RequestStatus.accepted ≠ .pending by decide) fromUserId toUserId (a, b)
    simp only [step, acceptFriendRequest]
    rw [or_iff_right (fun hrequests ↦ hnot hrequests.1), ← hsettled]
    split_ifs <;> rfl
  | rejectFriendRequest now fromUserId toUserId =>
    have hnot : ¬ (WriteCall.rejectFriendRequest now fromUserId toUserId).Requests a b := by
      simp [WriteCall.Requests]
    have hsettles : (WriteCall.rejectFriendRequest now fromUserId toUserId).Settles a b ↔
        (a, b) = (fromUserId, toUserId) := by
      simp [WriteCall.Settles, eq_comm]
    rw [hsettles]
    have hsettled := community.pending_settle
      (show RequestStatus.rejected ≠ .pending by decide) fromUserId toUserId (a, b)
    simp only [step, rejectFriendRequest]
    rw [or_iff_right (fun hrequests ↦ hnot hrequests.1), ← hsettled]
    split_ifs <;> rfl
  | _ => exact hcall.elim

/-- The user is a member of the room. -/
def InRoom (community : Community User) (roomId : Int) (userId : User) : Prop :=
  ∃ room, community.room roomId = some room ∧ userId ∈ room.members

omit [DecidableEq User] in
theorem inRoom_withRoom_some {roomId other : Int} {room : ChatRoom User} {userId : User} :
    (community.withRoom roomId (some room)).InRoom other userId ↔
      if other = roomId then userId ∈ room.members else community.InRoom other userId := by
  unfold InRoom withRoom
  dsimp only
  rw [Function.update_apply]
  split_ifs <;> simp

omit [DecidableEq User] in
theorem inRoom_withRoom_none {roomId other : Int} {userId : User} :
    (community.withRoom roomId none).InRoom other userId ↔
      other ≠ roomId ∧ community.InRoom other userId := by
  unfold InRoom withRoom
  dsimp only
  rw [Function.update_apply]
  split_ifs with hsame <;> simp [hsame]

/-- A user is a member after a call that has brought them in, or if they were and it has not ended
that. The ids of new rooms are new. -/
theorem inRoom_step (hids : ∀ id, community.room id ≠ none → id < community.nextRoomId)
    {roomId : Int} {userId : User} :
    (community.step call).2.InRoom roomId userId ↔
      call.Enters (community.step call).1 roomId userId ∨
        (community.InRoom roomId userId ∧ ¬ call.Exits (community.step call).1 roomId userId) := by
  by_cases hcall : call.ChangesRooms
  swap
  · rw [InRoom, room_step_of_not community hcall]
    constructor
    · exact fun hmember ↦ Or.inr ⟨hmember, fun hexits ↦ hcall hexits.changesRooms⟩
    · rintro (henters | ⟨hmember, -⟩)
      · exact absurd henters.changesRooms hcall
      · exact hmember
  cases call with
  | createRoom now gap ownerUserId roomName =>
    simp only [step, createRoom]
    split_ifs
    · have hnew : ¬ community.InRoom (community.nextRoomId + gap) userId := by
        rintro ⟨room, hroom, -⟩
        have := hids _ (hroom ▸ Option.some_ne_none room)
        omega
      refine (community.inRoom_withRoom_some).trans ?_
      split_ifs with hroom
      · subst hroom
        simp [WriteCall.Enters, hnew, eq_comm]
      · simp [WriteCall.Enters, WriteCall.Exits, Ne.symm hroom]
    · simp [WriteCall.Enters, WriteCall.Exits]
  | deleteRoom ownerUserId deletedId =>
    simp only [step, deleteRoom]
    split
    · simp [WriteCall.Enters, WriteCall.Exits]
    split_ifs
    · rw [inRoom_withRoom_none]
      simp [WriteCall.Enters, WriteCall.Exits, and_comm, eq_comm]
    · simp [WriteCall.Enters, WriteCall.Exits]
  | inviteRoom now inviterUserId invitedId friendUserId =>
    simp only [step, inviteRoom]
    split
    · simp [WriteCall.Enters, WriteCall.Exits]
    next room hroom =>
    split_ifs
    · simp [WriteCall.Enters, WriteCall.Exits]
    · rw [inRoom_withRoom_some]
      split_ifs with hsame
      · simp [WriteCall.Enters, WriteCall.Exits, hsame, InRoom, hroom, eq_comm]
      · simp [WriteCall.Enters, WriteCall.Exits, Ne.symm hsame]
    · simp [WriteCall.Enters, WriteCall.Exits]
    · simp [WriteCall.Enters, WriteCall.Exits]
  | createRoomMessage now gap postedId senderUserId body =>
    simp only [step, createRoomMessage]
    split
    · simp [WriteCall.Enters, WriteCall.Exits]
    next room hroom =>
    split_ifs
    · refine (community.inRoom_withRoom_some).trans ?_
      split_ifs with hsame
      · simp [WriteCall.Enters, WriteCall.Exits, hsame, InRoom, hroom]
      · simp [WriteCall.Enters, WriteCall.Exits]
    · simp [WriteCall.Enters, WriteCall.Exits]
  | leaveRoom asked leaver leftId =>
    simp only [step, leaveRoom]
    split
    · simp [WriteCall.Enters, WriteCall.Exits]
    next room hroom =>
    split_ifs
    · simp [WriteCall.Enters, WriteCall.Exits]
    · rw [inRoom_withRoom_some]
      split_ifs with hsame
      · simp [WriteCall.Enters, WriteCall.Exits, hsame, InRoom, hroom, eq_comm]
      · simp [WriteCall.Enters, WriteCall.Exits, Ne.symm hsame]
    · simp [WriteCall.Enters, WriteCall.Exits]
  | _ => exact hcall.elim

/-- A room that is there after a call is new with its owner alone, or was there before with the same
owner and everyone in it except a friend of a member, whom the call has brought in. -/
theorem room_step_cases {roomId : Int} {room : ChatRoom User}
    (hroom : (community.step call).2.room roomId = some room) :
    room.members = {room.owner} ∨
      ∃ old, community.room roomId = some old ∧ room.owner = old.owner ∧
        ∀ user ∈ room.members, user ∈ old.members ∨
          ∃ now inviter, call = .inviteRoom now inviter roomId user ∧
            (community.step call).1 = .invited .invited ∧ inviter ∈ old.members ∧
            community.friends.Adj inviter user := by
  have hsame : community.room roomId = some room → ∃ old, community.room roomId = some old ∧
      room.owner = old.owner ∧ ∀ user ∈ room.members, user ∈ old.members ∨
        ∃ now inviter, call = .inviteRoom now inviter roomId user ∧
          (community.step call).1 = .invited .invited ∧ inviter ∈ old.members ∧
          community.friends.Adj inviter user :=
    fun hroom ↦ ⟨room, hroom, rfl, fun _ ↦ Or.inl⟩
  by_cases hcall : call.ChangesRooms
  swap
  · rw [room_step_of_not community hcall] at hroom
    exact Or.inr (hsame hroom)
  cases call with
  | createRoom now gap ownerUserId roomName =>
    simp only [step, createRoom] at hroom
    split_ifs at hroom
    · simp only [withRoom, Function.update_apply] at hroom
      split_ifs at hroom with hnew
      · obtain rfl := Option.some.inj hroom
        exact Or.inl rfl
      · exact Or.inr (hsame hroom)
    · exact Or.inr (hsame hroom)
  | deleteRoom ownerUserId deletedId =>
    simp only [step, deleteRoom] at hroom
    split at hroom
    · exact Or.inr (hsame hroom)
    split_ifs at hroom
    · simp only [withRoom, Function.update_apply] at hroom
      split_ifs at hroom
      exact Or.inr (hsame hroom)
    · exact Or.inr (hsame hroom)
  | inviteRoom now inviterUserId invitedId friendUserId =>
    unfold step inviteRoom at hroom ⊢
    dsimp only at hroom ⊢
    cases hold : community.room invitedId with
    | none =>
      rw [hold] at hroom
      exact Or.inr ⟨room, hroom, rfl, fun _ ↦ Or.inl⟩
    | some old =>
      rw [hold] at hroom
      dsimp only at hroom ⊢
      split_ifs at hroom ⊢ with hinviter hfriends hmember
      · exact Or.inr ⟨room, hroom, rfl, fun _ ↦ Or.inl⟩
      · simp only [withRoom, Function.update_apply] at hroom
        split_ifs at hroom with hinvited
        · subst hinvited
          obtain rfl := Option.some.inj hroom
          refine Or.inr ⟨old, hold, rfl, fun user huser ↦ ?_⟩
          rcases huser with rfl | hbefore
          · exact Or.inr ⟨now, inviterUserId, rfl, rfl, hinviter, hfriends⟩
          · exact Or.inl hbefore
        · exact Or.inr ⟨room, hroom, rfl, fun _ ↦ Or.inl⟩
      · exact Or.inr ⟨room, hroom, rfl, fun _ ↦ Or.inl⟩
      · exact Or.inr ⟨room, hroom, rfl, fun _ ↦ Or.inl⟩
  | createRoomMessage now gap postedId senderUserId body =>
    simp only [step, createRoomMessage] at hroom
    split at hroom
    · exact Or.inr (hsame hroom)
    next old hold =>
    split_ifs at hroom
    · simp only [withRoom, Function.update_apply] at hroom
      split_ifs at hroom with hposted
      · obtain rfl := Option.some.inj hroom
        exact Or.inr ⟨old, hposted ▸ hold, rfl, fun _ ↦ Or.inl⟩
      · exact Or.inr (hsame hroom)
    · exact Or.inr (hsame hroom)
  | leaveRoom asked leaver leftId =>
    simp only [step, leaveRoom] at hroom
    split at hroom
    · exact Or.inr (hsame hroom)
    next old hold =>
    split_ifs at hroom
    · exact Or.inr (hsame hroom)
    · simp only [withRoom, Function.update_apply] at hroom
      split_ifs at hroom with hleft
      · obtain rfl := Option.some.inj hroom
        exact Or.inr ⟨old, hleft ▸ hold, rfl, fun user huser ↦ Or.inl huser.1⟩
      · exact Or.inr (hsame hroom)
    · exact Or.inr (hsame hroom)
  | _ => exact hcall.elim

/-- Only signing up makes an account. -/
theorem account_step_of_none (call : WriteCall User) {id : User}
    (hnone : community.account id = none) :
    ((community.step call).2.account id = none ∧ ¬ call.SignsUp id) ∨
      ∃ pw, call = .signup id pw ∧
        (community.step call).2.account id = some ⟨pw, text "guest"⟩ := by
  by_cases hcall : call.ChangesAccounts
  swap
  · rw [account_step_of_not community hcall]
    refine Or.inl ⟨hnone, ?_⟩
    rintro ⟨pw, rfl⟩
    exact hcall trivial
  cases call with
  | signup user pw =>
    unfold step signup
    dsimp only
    by_cases huser : user = id
    · subst huser
      rw [hnone]
      exact Or.inr ⟨pw, rfl, Function.update_self _ _ _⟩
    · refine Or.inl ⟨?_, by simp [WriteCall.SignsUp, huser]⟩
      split
      · exact (Function.update_of_ne (Ne.symm huser) _ _).trans hnone
      · exact hnone
  | changeNickname user nickname =>
    unfold step changeNickname
    dsimp only
    refine Or.inl ⟨?_, by simp [WriteCall.SignsUp]⟩
    split
    · exact hnone
    next account haccount =>
      have huser : id ≠ user := by
        rintro rfl
        rw [hnone] at haccount
        cases haccount
      exact (Function.update_of_ne huser _ _).trans hnone
  | _ => exact hcall.elim

/-- An account stays, with the name last given to it. -/
theorem account_step_of_some {id : User} {account : Account}
    (hsome : community.account id = some account) :
    (community.step call).2.account id =
      some { account with nickname := (call.nicknameFor id).getD account.nickname } := by
  by_cases hcall : call.ChangesAccounts
  swap
  · rw [account_step_of_not community hcall, hsome]
    cases call with
    | changeNickname => exact absurd trivial hcall
    | _ => rfl
  cases call with
  | signup user pw =>
    unfold step signup
    dsimp only
    split
    next hnone =>
      have huser : id ≠ user := by
        rintro rfl
        rw [hsome] at hnone
        cases hnone
      exact (Function.update_of_ne huser _ _).trans hsome
    · exact hsome
  | changeNickname user nickname =>
    unfold step changeNickname WriteCall.nicknameFor
    dsimp only
    split_ifs with huser
    · subst huser
      rw [hsome]
      exact Function.update_self _ _ _
    · split
      · exact hsome
      · exact (Function.update_of_ne (Ne.symm huser) _ _).trans hsome
  | _ => exact hcall.elim

end Community

end ChatServer
