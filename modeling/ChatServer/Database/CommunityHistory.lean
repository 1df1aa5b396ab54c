import Mathlib.Logic.Relation
import ChatServer.Database.CommunitySteps
import ChatServer.Database.ServiceRefinement
import ChatServer.General.History

/-!
# The community and its history

What the database holds is decided by the transactions made and by the answers they were given. Each
result here is one induction over the transactions, on the community, and is then read off the
tables by the refinement.

Two users are friends by the consent of both (`friendship_by_consent`), and from the owner of a room
to every member leads a chain of friends who have invited each other (`members_invited`). A user is
in a room exactly since an answer has said so (`member_since`), and the first sign-up of an id
settles its password for good (`login_iff`). The last two speak of calls, and of the ids, passwords
and names that PostgreSQL reads in their texts.
-/

set_option autoImplicit false
set_option relaxedAutoImplicit false

namespace ChatServer

variable {User : Type} [LinearOrder User] {db : Database User}

/-- The answer to a call that comes after others. -/
def WriteCall.answerAfter (past : List (WriteCall User)) (call : WriteCall User) : Answer :=
  call.answer (Database.after past)

/-- One more call is a step of the community. -/
theorem community_after_concat (past : List (WriteCall User)) (call : WriteCall User) :
    call.answerAfter past = ((Database.after past).community.step call).1 ∧
      (Database.after (past ++ [call])).community =
        ((Database.after past).community.step call).2 := by
  have hstep := call_refines (valid_after past) call
  rw [Database.after_concat, ← hstep]
  exact ⟨rfl, rfl⟩

/-! ### Friendship -/

section Friendship

variable {a b : User}

/-- Two users are friends since a call has made them friends. -/
theorem areFriends_since (hne : a ≠ b) (calls : List (WriteCall User)) :
    (Database.after calls).AreFriends a b ↔
      Since (fun past call ↦ call.Befriends a b ∧ call.answerAfter past = .changed true)
        (fun _ call ↦ call.Removes a b) calls := by
  refine since_iff (fun calls ↦ (Database.after calls).AreFriends a b) (fun hfriends ↦ ?_)
    (fun past call ↦ ?_) calls
  · obtain ⟨row, hrow, -⟩ := hfriends
    cases hrow
  · obtain ⟨hanswer, hnext⟩ := community_after_concat past call
    rw [← adj_community (valid_after _), ← adj_community (valid_after past),
      hanswer, hnext]
    exact Community.adj_step _ hne

/-- A request is pending since it was granted. -/
theorem pending_since (calls : List (WriteCall User)) :
    (Database.after calls).HasRequest a b .pending ↔
      Since (fun past call ↦ call.Requests a b ∧ call.answerAfter past = .changed true)
        (fun _ call ↦ call.Settles a b) calls := by
  refine since_iff (fun calls ↦ (Database.after calls).HasRequest a b .pending)
    (fun hpending ↦ ?_) (fun past call ↦ ?_) calls
  · obtain ⟨row, hrow, -⟩ := hpending
    cases hrow
  · obtain ⟨hanswer, hnext⟩ := community_after_concat past call
    rw [← request_community (valid_after _), ← request_community (valid_after past),
      hanswer, hnext]
    exact Community.pending_step _

theorem answerAfter_acceptFriendRequest (past : List (WriteCall User)) (now : Int) :
    (WriteCall.acceptFriendRequest now a b).answerAfter past = .changed true ↔
      (Database.after past).HasRequest a b .pending := by
  rw [(community_after_concat past _).1, ← request_community (valid_after past), Community.step,
    Community.acceptFriendRequest]
  split_ifs with hpending <;> simp [hpending]

/-- Whoever are friends, one has asked and the other accepted, and neither has ended it since. -/
theorem exists_request_accept {calls : List (WriteCall User)}
    (hcalls : ∀ call ∈ calls, ∀ now first second, call ≠ .addFriend now first second)
    (hfriends : (Database.after calls).AreFriends a b) :
    ∃ asker asked, ((asker = a ∧ asked = b) ∨ (asker = b ∧ asked = a)) ∧
      ∃ before request between accept later,
        calls = before ++ request :: (between ++ accept :: later) ∧
        request.Requests asker asked ∧ request.answerAfter before = .changed true ∧
        (∀ call ∈ between, ¬ call.Settles asker asked) ∧
        accept.Accepts asker asked ∧ ∀ call ∈ later, ¬ call.Removes a b := by
  have hsince := (areFriends_since ((valid_after calls).friends_ne hfriends) calls).mp hfriends
  obtain ⟨past, accept, later, rfl, ⟨hbefriends, hanswer⟩, hlater⟩ := since_iff_split.mp hsince
  obtain ⟨asker, asked, hpair, haccepts⟩ : ∃ asker asked,
      ((asker = a ∧ asked = b) ∨ (asker = b ∧ asked = a)) ∧ accept.Accepts asker asked := by
    have hadd := hcalls accept (by simp)
    obtain ⟨now, hcall | hcall | hcall | hcall⟩ := hbefriends
    · exact absurd hcall (hadd now a b)
    · exact absurd hcall (hadd now b a)
    · exact ⟨a, b, Or.inl ⟨rfl, rfl⟩, now, hcall⟩
    · exact ⟨b, a, Or.inr ⟨rfl, rfl⟩, now, hcall⟩
  refine ⟨asker, asked, hpair, ?_⟩
  obtain ⟨now, rfl⟩ := haccepts
  rw [answerAfter_acceptFriendRequest, pending_since, since_iff_split] at hanswer
  obtain ⟨before, request, between, rfl, ⟨hrequests, hgranted⟩, hbetween⟩ := hanswer
  exact ⟨before, request, between, _, later, by simp, hrequests, hgranted, hbetween,
    ⟨now, rfl⟩, hlater⟩

/-- Friendship is by consent of both. Where no call adds a friend outright, as none of the server's
commands does, two users are friends if and only if one of them has asked and was granted the
request, the other has accepted it with no answer in between, and neither has removed the other
since. -/
theorem friendship_by_consent (calls : List (WriteCall User))
    (hcalls : ∀ call ∈ calls, ∀ now first second, call ≠ .addFriend now first second) :
    (Database.after calls).AreFriends a b ↔
      ∃ asker asked, ((asker = a ∧ asked = b) ∨ (asker = b ∧ asked = a)) ∧
        ∃ before request between accept later,
          calls = before ++ request :: (between ++ accept :: later) ∧
          request.Requests asker asked ∧ request.answerAfter before = .changed true ∧
          (∀ call ∈ between, ¬ call.Settles asker asked) ∧
          accept.Accepts asker asked ∧ ∀ call ∈ later, ¬ call.Removes a b := by
  constructor
  · exact exists_request_accept hcalls
  · rintro ⟨asker, asked, hpair, before, request, between, _, later, rfl, hrequests, hgranted,
      hbetween, ⟨now, rfl⟩, hlater⟩
    have hpending : (Database.after (before ++ request :: between)).HasRequest asker asked
        .pending := by
      rw [pending_since, since_iff_split]
      exact ⟨before, request, between, rfl, ⟨hrequests, hgranted⟩, hbetween⟩
    have hne : asker ≠ asked := by
      obtain ⟨row, hrow, hkey, -⟩ := hpending
      obtain ⟨rfl, rfl⟩ := Prod.mk.inj hkey
      exact (valid_after _).friendRequestsDistinct row hrow
    have hanswer := (answerAfter_acceptFriendRequest _ now).mpr hpending
    have hsplit : before ++ request :: (between ++ .acceptFriendRequest now asker asked :: later) =
        (before ++ request :: between) ++ .acceptFriendRequest now asker asked :: later := by simp
    rcases hpair with ⟨rfl, rfl⟩ | ⟨rfl, rfl⟩
    · rw [areFriends_since hne, since_iff_split]
      exact ⟨_, _, later, hsplit, ⟨⟨now, Or.inr (Or.inr (Or.inl rfl))⟩, hanswer⟩, hlater⟩
    · rw [areFriends_since hne.symm, since_iff_split]
      exact ⟨_, _, later, hsplit, ⟨⟨now, Or.inr (Or.inr (Or.inr rfl))⟩, hanswer⟩, hlater⟩

/-- Two users sign up, and the second accepts the request of the first. -/
def befriended : List (WriteCall Nat) :=
  [.signup 1 [], .signup 2 [], .requestFriend 0 1 2, .acceptFriendRequest 0 1 2]

theorem friendship_by_consent_befriended :
    (Database.after befriended).AreFriends 2 1 ∧
      ∃ asker asked, ((asker = 2 ∧ asked = 1) ∨ (asker = 1 ∧ asked = 2)) ∧
        ∃ before request between accept later,
          befriended = before ++ request :: (between ++ accept :: later) ∧
          request.Requests asker asked ∧ request.answerAfter before = .changed true ∧
          (∀ call ∈ between, ¬ call.Settles asker asked) ∧
          accept.Accepts asker asked ∧ ∀ call ∈ later, ¬ call.Removes 2 1 :=
  have hfriends : (Database.after befriended).AreFriends 2 1 := by decide
  ⟨hfriends, (friendship_by_consent befriended (by simp [befriended])).mp hfriends⟩

end Friendship

/-! ### Membership -/

theorem inRoom_community (hvalid : db.Valid) {roomId : Int} {userId : User} :
    db.community.InRoom roomId userId ↔ db.IsMember roomId userId := by
  rcases room_cases db roomId with ⟨hroom, hnone⟩ | ⟨row, room, -, hroom, -, hmembers⟩
  · refine iff_of_false ?_ (not_isMember_of_noRoom hvalid hnone userId)
    rintro ⟨room, hsome, -⟩
    rw [hroom] at hsome
    cases hsome
  · rw [Community.InRoom, hroom, ← hmembers]
    simp

theorem room_lt_nextRoomId (hvalid : db.Valid) {roomId : Int}
    (hroom : db.community.room roomId ≠ none) : roomId < db.nextRoomId := by
  rcases room_cases db roomId with ⟨hnone, -⟩ | ⟨row, room, hrow, -⟩
  · exact absurd hnone hroom
  · obtain ⟨hmem, rfl⟩ := Table.mem_of_lookup hrow
    exact (hvalid.roomIds.2 row hmem).2

/-- A user is a member after a transaction that has said so, or who was one and has not been told
the end of it. -/
theorem isMember_run_iff (hvalid : db.Valid) (call : WriteCall User) {roomId : Int}
    {userId : User} :
    (call.run db).IsMember roomId userId ↔ call.Enters (call.answer db) roomId userId ∨
      (db.IsMember roomId userId ∧ ¬ call.Exits (call.answer db) roomId userId) := by
  obtain ⟨hanswer, hnext⟩ := Prod.mk.inj (call_refines hvalid call)
  rw [← inRoom_community (valid_run hvalid call), ← inRoom_community hvalid, hanswer, hnext]
  exact Community.inRoom_step _ fun id ↦ room_lt_nextRoomId hvalid

/-- A transaction was told that it has brought a friend of the inviter into the room. -/
def Invited (calls : List (WriteCall User)) (roomId : Int) (inviter friend : User) : Prop :=
  ∃ past now later, calls = past ++ .inviteRoom now inviter roomId friend :: later ∧
    (WriteCall.inviteRoom now inviter roomId friend).answerAfter past = .invited .invited ∧
    (Database.after past).AreFriends inviter friend

theorem Invited.concat {calls : List (WriteCall User)} {roomId : Int} {inviter friend : User}
    (hinvited : Invited calls roomId inviter friend) (call : WriteCall User) :
    Invited (calls ++ [call]) roomId inviter friend := by
  obtain ⟨past, now, later, rfl, hanswer, hfriends⟩ := hinvited
  exact ⟨past, now, later ++ [call], by simp, hanswer, hfriends⟩

theorem chain_of_room (calls : List (WriteCall User)) {roomId : Int} {room : ChatRoom User}
    (hroom : (Database.after calls).community.room roomId = some room) :
    ∀ user ∈ room.members, Relation.ReflTransGen (Invited calls roomId) room.owner user := by
  induction calls using List.reverseRecOn generalizing room with
  | nil => cases hroom
  | append_singleton calls call ih =>
    obtain ⟨hanswer, hnext⟩ := community_after_concat calls call
    rw [hnext] at hroom
    intro user huser
    have hkept : ∀ {user old}, (Database.after calls).community.room roomId = some old →
        user ∈ old.members →
          Relation.ReflTransGen (Invited (calls ++ [call]) roomId) old.owner user :=
      fun hold huser ↦ Relation.ReflTransGen.mono
        (fun _ _ (hinvited : Invited calls roomId _ _) ↦ hinvited.concat call) _ _
        (ih hold _ huser)
    rcases Community.room_step_cases _ hroom with hnew | ⟨old, hold, howner, hmembers⟩
    · rw [hnew] at huser
      rw [Set.mem_singleton_iff.mp huser]
    · rw [howner]
      rcases hmembers user huser with hbefore | ⟨now, inviter, rfl, hinvited, hinviter, hfriends⟩
      · exact hkept hold hbefore
      · refine (hkept hold hinviter).tail ⟨calls, now, [], rfl, hanswer.trans hinvited, ?_⟩
        exact (adj_community (valid_after calls)).mp hfriends

/-- Nobody is in a room by chance. From the owner of a room to each of its members there is a chain
of invitations, in which each member has brought in the next and was their friend at the time. -/
theorem members_invited (calls : List (WriteCall User)) {row : RoomRow User}
    (hrow : row ∈ (Database.after calls).rooms) {userId : User}
    (hmember : (Database.after calls).IsMember row.id userId) :
    Relation.ReflTransGen (Invited calls row.id) row.ownerUserId userId := by
  rcases room_cases (Database.after calls) row.id with
    ⟨-, hnone⟩ | ⟨found, room, hfound, hroom, howner, hmembers⟩
  · exact absurd rfl (hnone row hrow)
  · obtain ⟨hmem, hid⟩ := Table.mem_of_lookup hfound
    obtain rfl := (valid_after calls).roomsKey.eq_of_key_eq hmem hrow hid
    rw [← howner]
    exact chain_of_room calls hroom userId ((hmembers userId).mpr hmember)

/-- The second user invites the third into the room of the first. -/
def invitedTwice : List (WriteCall Nat) :=
  [.signup 1 [], .signup 2 [], .signup 3 [], .addFriend 0 1 2, .addFriend 0 2 3,
    .createRoom 0 0 1 [], .inviteRoom 0 1 1 2, .inviteRoom 0 2 1 3]

theorem members_invited_invitedTwice :
    ¬ (Database.after invitedTwice).AreFriends 1 3 ∧
      Relation.ReflTransGen (Invited invitedTwice 1) 1 3 :=
  ⟨by decide, @members_invited Nat _ invitedTwice ⟨1, [], 1, 0⟩ (by decide) 3 (by decide)⟩

/-! ### Accounts -/

theorem login_community (hvalid : db.Valid) {id : User} {pw nickname : Bytes} :
    Transaction.login id pw db = some nickname ↔
      db.community.account id = some ⟨pw, nickname⟩ := by
  rw [Transaction.login, show db.community.account = accountsOf db.users from rfl, accountsOf,
    Option.map_eq_some_iff, Option.map_eq_some_iff]
  constructor
  · rintro ⟨row, hrow, rfl⟩
    obtain ⟨hid, rfl⟩ : row.id = id ∧ row.pw = pw := by simpa using List.find?_some hrow
    exact ⟨row, hvalid.usersKey.lookup_eq_some.mpr ⟨List.mem_of_find?_eq_some hrow, hid⟩, rfl⟩
  · rintro ⟨row, hrow, haccount⟩
    obtain ⟨hmem, hid⟩ := Table.mem_of_lookup hrow
    obtain ⟨rfl, rfl⟩ := Account.mk.inj haccount
    obtain ⟨found, hfound⟩ : ∃ found,
        (db.users.find? fun other ↦ decide (other.id = id ∧ other.pw = row.pw)) = some found := by
      rw [← Option.isSome_iff_exists, List.find?_isSome]
      exact ⟨row, hmem, decide_eq_true ⟨hid, rfl⟩⟩
    have hfoundId : found.id = id ∧ found.pw = row.pw := by simpa using List.find?_some hfound
    have hsame := hvalid.usersKey.eq_of_key_eq (List.mem_of_find?_eq_some hfound) hmem
      (hfoundId.1.trans hid.symm)
    exact ⟨found, hfound, congrArg UserRow.nickname hsame⟩

/-- Where nobody has signed the user up there is no account, and otherwise the first sign-up has
made it and the last renaming since has named it. -/
theorem account_after (calls : List (WriteCall User)) (id : User) :
    ((Database.after calls).community.account id = none ∧ ∀ call ∈ calls, ¬ call.SignsUp id) ∨
      ∃ before pw later, calls = before ++ .signup id pw :: later ∧
        (∀ call ∈ before, ¬ call.SignsUp id) ∧
        (Database.after calls).community.account id =
          some ⟨pw, (later.filterMap (WriteCall.nicknameFor id)).getLastD (text "guest")⟩ := by
  induction calls using List.reverseRecOn with
  | nil => exact Or.inl ⟨rfl, by simp⟩
  | append_singleton calls call ih =>
    rw [(community_after_concat calls call).2]
    rcases ih with ⟨hnone, hcalls⟩ | ⟨before, pw, later, rfl, hbefore, hsome⟩
    · rcases Community.account_step_of_none _ call hnone with
        ⟨hnext, hcall⟩ | ⟨pw, rfl, hnext⟩
      · refine Or.inl ⟨hnext, fun other hother ↦ ?_⟩
        rcases List.mem_append.mp hother with hbefore | hlast
        · exact hcalls other hbefore
        · rwa [List.mem_singleton.mp hlast]
      · exact Or.inr ⟨calls, pw, [], rfl, hcalls, hnext⟩
    · refine Or.inr ⟨before, pw, later ++ [call], by simp, hbefore, ?_⟩
      rw [Community.account_step_of_some _ hsome, List.filterMap_append]
      cases hname : call.nicknameFor id with
      | none => simp [hname]
      | some nickname => simp [hname]

/-- A user logs in with the password of the first sign-up of their id, and is shown under the name
that was last given to them since, or as a guest. -/
theorem login_after_iff (calls : List (WriteCall User)) (id : User) (pw nickname : Bytes) :
    Transaction.login id pw (Database.after calls) = some nickname ↔
      ∃ before later, calls = before ++ .signup id pw :: later ∧
        (∀ call ∈ before, ¬ call.SignsUp id) ∧
        nickname = (later.filterMap (WriteCall.nicknameFor id)).getLastD (text "guest") := by
  rw [login_community (valid_after calls)]
  rcases account_after calls id with ⟨hnone, hcalls⟩ | ⟨before, first, later, rfl, hbefore, hsome⟩
  · rw [hnone]
    refine iff_of_false (by simp) ?_
    rintro ⟨before, later, rfl, -, -⟩
    exact hcalls (.signup id pw) (by simp) ⟨pw, rfl⟩
  · rw [hsome]
    constructor
    · intro haccount
      obtain ⟨rfl, rfl⟩ := Account.mk.inj (Option.some.inj haccount)
      exact ⟨before, later, rfl, hbefore, rfl⟩
    · rintro ⟨before', later', hsame, hbefore', rfl⟩
      obtain ⟨-, hcall, rfl⟩ :=
        first_unique hsame hbefore ⟨first, rfl⟩ hbefore' ⟨pw, rfl⟩
      obtain ⟨-, rfl⟩ := WriteCall.signup.inj hcall
      rfl

/-! ### Calls -/

section Calls

variable [LinearOrder Bytes]

/-- The answer to a call that comes after others. -/
def ServiceCall.answerAfter (past : List ServiceCall) (call : ServiceCall) : Answer :=
  call.answer (Database.served past)

/-- Membership is what the answers say. A user is a member of a room if and only if a call was told
that it created the room for them or invited them into it, and since then no call was told that they
left or that the room was deleted. -/
theorem member_since (calls : List ServiceCall) (roomId : Int) (userId : Bytes) :
    (Database.served calls).IsMember roomId userId ↔
      Since (fun past call ↦ call.bind.Enters (call.answerAfter past) roomId userId)
        (fun past call ↦ call.bind.Exits (call.answerAfter past) roomId userId) calls := by
  refine since_iff (fun calls ↦ (Database.served calls).IsMember roomId userId) (fun hmember ↦ ?_)
    (fun past call ↦ ?_) calls
  · obtain ⟨row, hrow, -⟩ := hmember
    cases hrow
  · rw [Database.served_concat, ServiceCall.run_eq, ServiceCall.answerAfter, ServiceCall.answer_eq]
    exact isMember_run_iff (valid_served past) call.bind

/-- What it takes to log in. A login is accepted with the password of the first sign-up of the id,
no later one changes it, and reports the name that was last given to the id since, or `guest`. -/
theorem login_iff (calls : List ServiceCall) (id pw nickname : Bytes) :
    DbService.login id pw (Database.served calls) = some nickname ↔
      ∃ before registration later, calls = before ++ registration :: later ∧
        registration.bind = .signup (sqlText id) (sqlText pw) ∧
        (∀ call ∈ before, ¬ call.bind.SignsUp (sqlText id)) ∧
        nickname = (later.filterMap fun call ↦ call.bind.nicknameFor (sqlText id)).getLastD
          (text "guest") := by
  -- the equality test on byte strings is the list's here and the order's there
  have hname : ∀ first second : DecidableEq Bytes,
      @WriteCall.nicknameFor Bytes first (sqlText id) =
        @WriteCall.nicknameFor Bytes second (sqlText id) := by
    intro first second
    rw [Subsingleton.elim first second]
  rw [DbService.login, served_eq_after, login_after_iff]
  constructor
  · rintro ⟨before, later, hcalls, hbefore, hnickname⟩
    obtain ⟨first, registration, last, rfl, rfl, hregistration, rfl⟩ :=
      map_eq_append_cons.mp hcalls
    refine ⟨first, registration, last, rfl, hregistration,
      fun call hcall ↦ hbefore _ (List.mem_map_of_mem hcall), ?_⟩
    rw [hnickname, List.filterMap_map]
    exact congrArg (fun name ↦ (last.filterMap (name ∘ ServiceCall.bind)).getLastD (text "guest"))
      (hname _ _)
  · rintro ⟨before, registration, later, rfl, hregistration, hbefore, hnickname⟩
    refine ⟨before.map ServiceCall.bind, later.map ServiceCall.bind, ?_, ?_, ?_⟩
    · rw [List.map_append, List.map_cons, hregistration]
    · intro call hcall
      obtain ⟨given, hgiven, rfl⟩ := List.mem_map.mp hcall
      exact hbefore given hgiven
    · rw [hnickname, List.filterMap_map]
      exact congrArg
        (fun name ↦ (later.filterMap (name ∘ ServiceCall.bind)).getLastD (text "guest")) (hname _ _)

end Calls

end ChatServer
