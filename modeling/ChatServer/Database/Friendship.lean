import ChatServer.Database.FriendRequests
import ChatServer.Database.Membership

/-!
# Friendship

`social.friendships` stores an unordered pair of users as an ordered one, the smaller user first.
`db_service` writes it with `LEAST` and `GREATEST` and reads it from both sides, so being listed as
a friend is `Database.AreFriends`, which is symmetric (`mem_listFriends`). Whatever calls have been
made, the lists of friends are those of a symmetric and irreflexive relation, each in ascending
order and without repetition, and only accepting a pending request, `add_friend` and `remove_friend`
change them (`friendshipSymmetric_after`).
-/

set_option autoImplicit false
set_option relaxedAutoImplicit false

namespace ChatServer

variable {User : Type} [LinearOrder User] {db next : Database User}

/-! ### The list of friends -/

/-- A stored pair is in ascending order. -/
theorem Database.Valid.friends_ne (hvalid : db.Valid) {first second : User}
    (hfriends : db.AreFriends first second) : first ≠ second := by
  obtain ⟨row, hrow, hkey⟩ := hfriends
  obtain ⟨hmin, hmax⟩ := Prod.mk.inj hkey
  have hordered := hvalid.friendshipsOrdered row hrow
  rw [hmin, hmax] at hordered
  exact inf_lt_sup.mp hordered

/-- The friend that a row of a user names. -/
theorem friend_of_row {row : FriendshipRow User} (hordered : row.userAId < row.userBId)
    {userId friendId : User} :
    ((row.userAId = userId ∨ row.userBId = userId) ∧
        (if row.userAId = userId then row.userBId else row.userAId) = friendId) ↔
      userId ≠ friendId ∧ row.key = (min userId friendId, max userId friendId) := by
  unfold FriendshipRow.key
  rw [Prod.mk.injEq]
  constructor
  · rintro ⟨hside, hfriend⟩
    by_cases hfirst : row.userAId = userId
    · rw [if_pos hfirst] at hfriend
      rw [← hfirst, ← hfriend]
      exact ⟨hordered.ne, (min_eq_left hordered.le).symm, (max_eq_right hordered.le).symm⟩
    · rw [if_neg hfirst] at hfriend
      rw [← hside.resolve_left hfirst, ← hfriend]
      exact ⟨hordered.ne', (min_eq_right hordered.le).symm, (max_eq_left hordered.le).symm⟩
  · rintro ⟨hne, hmin, hmax⟩
    rcases le_total userId friendId with hle | hle
    · rw [min_eq_left hle] at hmin
      rw [max_eq_right hle] at hmax
      exact ⟨Or.inl hmin, by rw [if_pos hmin, hmax]⟩
    · rw [min_eq_right hle] at hmin
      rw [max_eq_left hle] at hmax
      refine ⟨Or.inr hmax, ?_⟩
      rw [if_neg, hmin]
      rw [hmin]
      exact hne.symm

/-- The friends listed for a user are the users who share a row with them. -/
theorem mem_listFriends (hvalid : db.Valid) {userId friendId : User} :
    friendId ∈ Transaction.listFriends userId db ↔ db.AreFriends userId friendId := by
  unfold Transaction.listFriends
  simp only [List.mem_insertionSort, List.mem_map, List.mem_filter, decide_eq_true_eq]
  constructor
  · rintro ⟨row, ⟨hrow, hside⟩, hfriend⟩
    exact ⟨row, hrow, ((friend_of_row (hvalid.friendshipsOrdered row hrow)).mp ⟨hside, hfriend⟩).2⟩
  · intro hfriends
    have hne := hvalid.friends_ne hfriends
    obtain ⟨row, hrow, hkey⟩ := hfriends
    obtain ⟨hside, hfriend⟩ :=
      (friend_of_row (hvalid.friendshipsOrdered row hrow)).mpr ⟨hne, hkey⟩
    exact ⟨row, ⟨hrow, hside⟩, hfriend⟩

/-- Each friend is listed once, in ascending order. -/
theorem pairwise_listFriends (hvalid : db.Valid) (userId : User) :
    (Transaction.listFriends userId db).Pairwise (· < ·) := by
  have hsorted := List.pairwise_insertionSort (· ≤ ·)
    ((db.friendships.filter fun row ↦ decide (row.userAId = userId ∨ row.userBId = userId)).map
      fun row ↦ if row.userAId = userId then row.userBId else row.userAId)
  have hnodup : ((db.friendships.filter fun row ↦
      decide (row.userAId = userId ∨ row.userBId = userId)).map
        fun row ↦ if row.userAId = userId then row.userBId else row.userAId).Nodup := by
    have hrows : db.friendships.Nodup := List.Nodup.of_map _ hvalid.friendshipsKey
    refine (hrows.filter _).map_on fun first hfirst second hsecond hsame ↦ ?_
    rw [List.mem_filter, decide_eq_true_eq] at hfirst hsecond
    -- two rows of the user that name the same friend have the same key
    have hfirstKey := ((friend_of_row (hvalid.friendshipsOrdered first hfirst.1)).mp
      ⟨hfirst.2, hsame⟩).2
    have hsecondKey := ((friend_of_row (hvalid.friendshipsOrdered second hsecond.1)).mp
      ⟨hsecond.2, rfl⟩).2
    exact hvalid.friendshipsKey.eq_of_key_eq hfirst.1 hsecond.1 (hfirstKey.trans hsecondKey.symm)
  have hdistinct := (List.perm_insertionSort (· ≤ ·) _).nodup_iff.mpr hnodup
  exact (hsorted.and hdistinct).imp fun hpair ↦ lt_of_le_of_ne hpair.1 hpair.2

/-! ### What changes friendships -/

/-- Calls that leave the friendships as they are. -/
theorem friendships_run {call : WriteCall User}
    (hadd : ∀ now userId friendId, call ≠ .addFriend now userId friendId)
    (haccept : ∀ now fromUserId toUserId, call ≠ .acceptFriendRequest now fromUserId toUserId)
    (hremove : ∀ userId friendId, call ≠ .removeFriend userId friendId) :
    (call.run db).friendships = db.friendships := by
  have hkept : ∀ {Result : Type} {outcome : DbResult User Result},
      (∀ result next, outcome = .ok (result, next) → next.friendships = db.friendships) →
        (DbResult.committed db outcome).friendships = db.friendships :=
    fun {_ outcome} ↦ @DbResult.committed_of User db _
      (fun next ↦ next.friendships = db.friendships) outcome rfl
  cases call with
  | addFriend now userId friendId => exact absurd rfl (hadd now userId friendId)
  | acceptFriendRequest now fromUserId toUserId =>
    exact absurd rfl (haccept now fromUserId toUserId)
  | removeFriend userId friendId => exact absurd rfl (hremove userId friendId)
  | signup id pw => rfl
  | changeNickname id nickname => rfl
  | rejectFriendRequest now fromUserId toUserId => rfl
  | requestFriend now fromUserId toUserId =>
    exact hkept fun _ _ hok ↦ (requestFriend_eq_ok hok).1
  | createRoom now gap ownerUserId roomName =>
    refine hkept fun _ _ hok ↦ ?_
    obtain ⟨-, -, rfl⟩ := Transaction.createRoom_cases hok
    rfl
  | deleteRoom ownerUserId roomId =>
    refine hkept fun _ _ hok ↦ ?_
    rcases Transaction.deleteRoom_cases hok with ⟨-, rfl⟩ | ⟨-, -, rfl⟩
    · rfl
    · rfl
  | inviteRoom now inviterUserId roomId friendUserId =>
    refine hkept fun _ _ hok ↦ ?_
    obtain ⟨members, rfl⟩ := inviteRoom_eq_ok hok
    rfl
  | createRoomMessage now gap roomId senderUserId body =>
    refine hkept fun _ _ hok ↦ ?_
    rcases Transaction.createRoomMessage_cases hok with ⟨-, rfl⟩ | ⟨-, -, -, -, rfl⟩
    · rfl
    · rfl
  | leaveRoom userId roomId =>
    refine hkept fun _ _ hok ↦ ?_
    obtain ⟨members, rfl⟩ := leaveRoom_eq_ok hok
    rfl

/-- Inserting a friendship ends none. -/
theorem areFriends_of_insertFriendship {now : Int} {first second : User} {result : Bool}
    (hok : Transaction.insertFriendship now first second db = .ok (result, next)) {a b : User}
    (hfriends : db.AreFriends a b) : next.AreFriends a b := by
  obtain ⟨-, ⟨-, -, rfl⟩ | ⟨-, -, -, -, rfl⟩⟩ := Transaction.insertFriendship_cases hok
  · exact hfriends
  · obtain ⟨row, hrow, hkey⟩ := hfriends
    exact ⟨row, List.mem_append_left _ hrow, hkey⟩

/-- Accepting a request ends no friendship. -/
theorem areFriends_of_acceptFriendRequest {now : Int} {fromUserId toUserId : User} {result : Bool}
    (hok : Transaction.acceptFriendRequest now fromUserId toUserId db = .ok (result, next))
    {a b : User} (hfriends : db.AreFriends a b) : next.AreFriends a b := by
  obtain ⟨answered, -, -, ⟨-, rfl⟩ | ⟨-, inserted, hinsert⟩⟩ :=
    Transaction.acceptFriendRequest_cases hok
  · exact hfriends
  · exact areFriends_of_insertFriendship hinsert hfriends

/-- A friendship comes from accepting a pending request between the two users or from adding it. -/
theorem areFriends_run_gain {call : WriteCall User} {first second : User}
    (hbefore : ¬ db.AreFriends first second) (hafter : (call.run db).AreFriends first second) :
    (∃ now fromUserId toUserId, call = .acceptFriendRequest now fromUserId toUserId ∧
        db.HasRequest fromUserId toUserId .pending ∧
        ((first = fromUserId ∧ second = toUserId) ∨ (first = toUserId ∧ second = fromUserId))) ∨
      ∃ now, call = .addFriend now first second ∨ call = .addFriend now second first := by
  by_cases hadd : ∃ now userId friendId, call = .addFriend now userId friendId
  · obtain ⟨now, userId, friendId, rfl⟩ := hadd
    cases hresult : Transaction.insertFriendship now userId friendId db with
    | error error =>
      simp only [WriteCall.run, Transaction.addFriend, hresult] at hafter
      exact absurd hafter hbefore
    | ok value =>
      simp only [WriteCall.run, Transaction.addFriend, hresult] at hafter
      rcases (insertFriendship_eq_ok hresult).2.2 first second hafter with hold | ⟨hmin, hmax⟩
      · exact absurd hold hbefore
      · rcases eq_or_swap_of_min_max hmin hmax with ⟨rfl, rfl⟩ | ⟨rfl, rfl⟩
        · exact Or.inr ⟨now, Or.inl rfl⟩
        · exact Or.inr ⟨now, Or.inr rfl⟩
  by_cases haccept : ∃ now fromUserId toUserId, call = .acceptFriendRequest now fromUserId toUserId
  · obtain ⟨now, fromUserId, toUserId, rfl⟩ := haccept
    cases hresult : Transaction.acceptFriendRequest now fromUserId toUserId db with
    | error error =>
      simp only [WriteCall.run, hresult] at hafter
      exact absurd hafter hbefore
    | ok value =>
      simp only [WriteCall.run, hresult] at hafter
      rcases (acceptFriendRequest_eq_ok hresult).2.2.2 first second hafter with hold | ⟨hreq, hpair⟩
      · exact absurd hold hbefore
      · exact Or.inl ⟨now, fromUserId, toUserId, rfl, hreq, hpair⟩
  by_cases hremove : ∃ userId friendId, call = .removeFriend userId friendId
  · obtain ⟨userId, friendId, rfl⟩ := hremove
    have hkept := (@areFriends_removeFriend User _ db _ userId friendId _ rfl first second).mp
      hafter
    exact absurd hkept.1 hbefore
  · have hsame := @friendships_run User _ db call
      (fun now userId friendId hcall ↦ hadd ⟨now, userId, friendId, hcall⟩)
      (fun now fromUserId toUserId hcall ↦ haccept ⟨now, fromUserId, toUserId, hcall⟩)
      (fun userId friendId hcall ↦ hremove ⟨userId, friendId, hcall⟩)
    unfold Database.AreFriends at hafter hbefore
    rw [hsame] at hafter
    exact absurd hafter hbefore

/-- A friendship is ended by removing it. -/
theorem areFriends_run_loss {call : WriteCall User} {first second : User}
    (hbefore : db.AreFriends first second) (hafter : ¬ (call.run db).AreFriends first second) :
    call = .removeFriend first second ∨ call = .removeFriend second first := by
  have hmono : ∀ {Result : Type} {outcome : DbResult User Result},
      (∀ result next, outcome = .ok (result, next) → next.AreFriends first second) →
        (DbResult.committed db outcome).AreFriends first second :=
    fun {_ outcome} ↦ @DbResult.committed_of User db _ (fun next ↦ next.AreFriends first second)
      outcome hbefore
  by_cases hadd : ∃ now userId friendId, call = .addFriend now userId friendId
  · obtain ⟨now, userId, friendId, rfl⟩ := hadd
    exact absurd (hmono fun _ _ hok ↦ areFriends_of_insertFriendship hok hbefore) hafter
  by_cases haccept : ∃ now fromUserId toUserId, call = .acceptFriendRequest now fromUserId toUserId
  · obtain ⟨now, fromUserId, toUserId, rfl⟩ := haccept
    exact absurd (hmono fun _ _ hok ↦ areFriends_of_acceptFriendRequest hok hbefore) hafter
  by_cases hremove : ∃ userId friendId, call = .removeFriend userId friendId
  · obtain ⟨userId, friendId, rfl⟩ := hremove
    have hkept := not_iff_not.mpr
      (@areFriends_removeFriend User _ db _ userId friendId _ rfl first second)
    obtain ⟨hmin, hmax⟩ := not_not.mp fun hother ↦ hkept.mp hafter ⟨hbefore, hother⟩
    rcases eq_or_swap_of_min_max hmin hmax with ⟨rfl, rfl⟩ | ⟨rfl, rfl⟩
    · exact Or.inl rfl
    · exact Or.inr rfl
  · have hsame := @friendships_run User _ db call
      (fun now userId friendId hcall ↦ hadd ⟨now, userId, friendId, hcall⟩)
      (fun now fromUserId toUserId hcall ↦ haccept ⟨now, fromUserId, toUserId, hcall⟩)
      (fun userId friendId hcall ↦ hremove ⟨userId, friendId, hcall⟩)
    unfold Database.AreFriends at hafter hbefore
    rw [hsame] at hafter
    exact absurd hbefore hafter

/-! ### The relation -/

/-- Friendship as `list_friends` reports it: a symmetric and irreflexive relation, listed once and
in ascending order, removed from either side alike, and changed by no other calls than these. -/
structure Database.FriendshipSymmetric (db : Database User) : Prop where
  listed : ∀ a b, b ∈ Transaction.listFriends a db ↔ db.AreFriends a b
  symmetric : ∀ a b, b ∈ Transaction.listFriends a db ↔ a ∈ Transaction.listFriends b db
  irreflexive : ∀ a, a ∉ Transaction.listFriends a db
  ascending : ∀ a, (Transaction.listFriends a db).Pairwise (· < ·)
  removes : ∀ a b, Transaction.removeFriend a b db = Transaction.removeFriend b a db
  gains : ∀ (call : WriteCall User) a b, b ∉ Transaction.listFriends a db →
    b ∈ Transaction.listFriends a (call.run db) →
      (∃ now fromUserId toUserId, call = .acceptFriendRequest now fromUserId toUserId ∧
          db.HasRequest fromUserId toUserId .pending ∧
          ((a = fromUserId ∧ b = toUserId) ∨ (a = toUserId ∧ b = fromUserId))) ∨
        ∃ now, call = .addFriend now a b ∨ call = .addFriend now b a
  loses : ∀ (call : WriteCall User) a b, b ∈ Transaction.listFriends a db →
    b ∉ Transaction.listFriends a (call.run db) →
      call = .removeFriend a b ∨ call = .removeFriend b a

/-- In every database after a sequence of calls friendship is symmetric. -/
theorem friendshipSymmetric_after (calls : List (WriteCall User)) :
    (Database.after calls).FriendshipSymmetric := by
  have hvalid := valid_after calls
  refine ⟨fun a b ↦ mem_listFriends hvalid, fun a b ↦ ?_, fun a hself ↦ ?_,
    pairwise_listFriends hvalid, fun a b ↦ ?_, fun call a b hbefore hafter ↦ ?_,
    fun call a b hbefore hafter ↦ ?_⟩
  · rw [mem_listFriends hvalid, mem_listFriends hvalid, Database.areFriends_comm]
  · exact hvalid.friends_ne ((mem_listFriends hvalid).mp hself) rfl
  · unfold Transaction.removeFriend
    rw [min_comm a b, max_comm a b]
  · rw [mem_listFriends hvalid] at hbefore
    rw [mem_listFriends (valid_run hvalid call)] at hafter
    exact areFriends_run_gain hbefore hafter
  · rw [mem_listFriends hvalid] at hbefore
    rw [mem_listFriends (valid_run hvalid call)] at hafter
    exact areFriends_run_loss hbefore hafter

end ChatServer
