import Mathlib.Data.List.DropRight
import Mathlib.Data.Set.Card
import ChatServer.Database.DbExecutor
import ChatServer.Database.ChatChanges

/-!
# What the room queries report

`list_room_messages` sorts the messages of a room by descending timestamp and id, cuts at the limit,
and sorts what is left by ascending id. The messages of a room stand in the table in the order in
which they were committed, by rising id and, when the clock does not go back, by timestamps that do
not fall (`Database.Logged`). Both sorts then only turn the list around, so that the history is the
end of what was committed to the room (`listRoomMessages_after`), ties of the timestamp or not. What
is committed is not always what was posted: a body that goes on behind a NUL is stored, and
reported, without the rest, although `say` has broadcast it whole. `historyFaithful_iff` says
exactly when the history has the messages as they were posted.

`list_rooms` joins the rooms with `chat.room_members` twice, once for the user and once for all
members, and groups the rows. The primary key of `chat.room_members` leaves one row of the user for
each room, so that the group of a room is its members, each once (`rows_of_group`), and the query
reports the rooms of the user with the number of all their members (`rooms_listed`).
-/

set_option autoImplicit false
set_option relaxedAutoImplicit false

namespace ChatServer

variable {User : Type} [LinearOrder User] {db : Database User}

/-! ### The messages that were committed -/

/-- The message that a transaction commits to this database, if it commits one. -/
def WriteCall.posted (call : WriteCall User) (db : Database User) : List (MessageRow User) :=
  match call with
  | .createRoomMessage now gap roomId senderUserId body =>
    match Transaction.createRoomMessage now gap roomId senderUserId body db with
    | .ok (some id, _) => [⟨id, roomId, senderUserId, body, now⟩]
    | _ => []
  | _ => []

/-- The messages that transactions commit, in order. -/
def postedMessages (calls : List (WriteCall User)) : List (MessageRow User) :=
  (calls.foldl (fun state call ↦ (call.run state.1, state.2 ++ call.posted state.1))
    (Database.empty User, [])).2

theorem postedMessages_concat (calls : List (WriteCall User)) (call : WriteCall User) :
    postedMessages (calls ++ [call]) =
      postedMessages calls ++ call.posted (Database.after calls) := by
  have hstate : (calls.foldl (fun state call ↦ (call.run state.1, state.2 ++ call.posted state.1))
      (Database.empty User, ([] : List (MessageRow User)))).1 = Database.after calls := by
    induction calls using List.reverseRecOn with
    | nil => rfl
    | append_singleton calls call ih => rw [List.foldl_concat, Database.after_concat, ih]
  rw [postedMessages, List.foldl_concat, hstate, postedMessages]

/-- The messages of a room. -/
def ofRoom (roomId : Int) (messages : List (MessageRow User)) : List (MessageRow User) :=
  messages.filter fun row ↦ decide (row.roomId = roomId)

/-- The table has the committed messages of the rooms that are there. Ids rise with the commits, and
rooms that are yet to be created have no messages. -/
structure Database.Logged (db : Database User) (log : List (MessageRow User)) : Prop where
  messages : ∀ roomId, db.IsRoom roomId → ofRoom roomId db.messages = ofRoom roomId log
  rooms : ∀ row ∈ log, row.roomId < db.nextRoomId
  ids : log.Pairwise fun first second ↦ first.id < second.id
  bound : ∀ row ∈ log, row.id < db.nextMessageId

omit [LinearOrder User] in
theorem logged_empty : (Database.empty User).Logged [] where
  messages _ _ := rfl
  rooms _ hrow := absurd hrow List.not_mem_nil
  ids := List.Pairwise.nil
  bound _ hrow := absurd hrow List.not_mem_nil

section Step

variable {next : Database User} {log : List (MessageRow User)}

omit [LinearOrder User] in
/-- A step that adds no room and no message and, where a room stays, takes no message of it. -/
theorem Database.Logged.keep (hlogged : db.Logged log)
    (hrooms : ∀ roomId, next.IsRoom roomId → db.IsRoom roomId ∧
      ofRoom roomId next.messages = ofRoom roomId db.messages)
    (hroomId : next.nextRoomId = db.nextRoomId)
    (hmessageId : next.nextMessageId = db.nextMessageId) : next.Logged log where
  messages roomId hroom := by
    obtain ⟨hbefore, hmessages⟩ := hrooms roomId hroom
    rw [hmessages, hlogged.messages roomId hbefore]
  rooms := by
    rw [hroomId]
    exact hlogged.rooms
  ids := hlogged.ids
  bound := by
    rw [hmessageId]
    exact hlogged.bound

omit [LinearOrder User] in
theorem Database.Logged.sameChat (hlogged : db.Logged log) (hsame : db.SameChat next) :
    next.Logged log := by
  refine hlogged.keep (fun roomId hroom ↦ ?_) hsame.nextRoomId hsame.nextMessageId
  rw [hsame.messages]
  exact ⟨(hsame.isRoom roomId).mp hroom, rfl⟩

/-- The room that is created has an id that no message was committed to. -/
theorem Database.Logged.createRoom (hvalid : db.Valid) (hlogged : db.Logged log) {now : Int}
    {gap : Nat} {ownerUserId : User} {roomName : Bytes} {newRoomId : Int}
    (hok : Transaction.createRoom now gap ownerUserId roomName db = .ok (newRoomId, next)) :
    next.Logged log := by
  have hroom := isRoom_createRoom hok
  obtain ⟨-, hid, rfl⟩ := Transaction.createRoom_cases hok
  refine ⟨fun roomId hbefore ↦ ?_, fun row hrow ↦ ?_, hlogged.ids, hlogged.bound⟩
  · rcases (hroom roomId).mp hbefore with hold | hnew
    · exact hlogged.messages roomId hold
    · have hnone : ∀ row ∈ db.messages, ¬ row.roomId = roomId := by
        intro row hrow hsame
        obtain ⟨room, hmem, hroomId⟩ := (hvalid.messageRefs row hrow).1
        have hbound := (hvalid.roomIds.2 room hmem).2
        omega
      have hunposted : ∀ row ∈ log, ¬ row.roomId = roomId := by
        intro row hrow hsame
        have hbound := hlogged.rooms row hrow
        omega
      rw [ofRoom, ofRoom, List.filter_eq_nil_iff.mpr fun row hrow ↦ by simpa using hnone row hrow,
        List.filter_eq_nil_iff.mpr fun row hrow ↦ by simpa using hunposted row hrow]
  · have hbound := hlogged.rooms row hrow
    show row.roomId < newRoomId + 1
    omega

theorem Database.Logged.deleteRoom (hvalid : db.Valid) (hlogged : db.Logged log)
    {ownerUserId : User} {deletedRoomId : Int} {result : Bool}
    (hok : Transaction.deleteRoom ownerUserId deletedRoomId db = .ok (result, next)) :
    next.Logged log := by
  cases result with
  | false => exact hlogged.sameChat (sameChat_deleteRoom_false hok)
  | true =>
    have hroom := @isRoom_deleteRoom User _ db next hvalid ownerUserId deletedRoomId hok
    obtain ⟨-, rfl⟩ := deleteRoom_eq_ok hok
    refine hlogged.keep (fun roomId hafter ↦ ?_) rfl rfl
    obtain ⟨hbefore, hne⟩ := hroom hafter
    refine ⟨hbefore, ?_⟩
    unfold ofRoom Table.deleteWhere
    rw [List.filter_filter]
    refine List.filter_congr fun row _ ↦ ?_
    by_cases hsame : row.roomId = roomId
    · have hkept : ¬ row.roomId = deletedRoomId := hsame ▸ hne
      simp only [hkept, decide_false, Bool.not_false, Bool.and_true]
    · simp only [hsame, decide_false, Bool.false_and]

/-- A message that is committed comes last, with the highest id. -/
theorem Database.Logged.createRoomMessage (hvalid : db.Valid) (hlogged : db.Logged log)
    {now : Int} {gap : Nat} {roomId : Int} {senderUserId : User} {body : Bytes} {id : Int}
    (hok : Transaction.createRoomMessage now gap roomId senderUserId body db =
      .ok (some id, next)) :
    next.Logged (log ++ [⟨id, roomId, senderUserId, body, now⟩]) := by
  obtain ⟨⟨room, hroom, hroomId⟩, rfl, rfl⟩ := createRoomMessage_eq_ok hok
  refine ⟨fun other hother ↦ ?_, fun row hrow ↦ ?_, ?_, fun row hrow ↦ ?_⟩
  · have hold : ofRoom other db.messages = ofRoom other log := hlogged.messages other hother
    unfold ofRoom at hold ⊢
    rw [List.filter_append, List.filter_append, hold]
  · rcases List.mem_append.mp hrow with hold | hnew
    · exact hlogged.rooms row hold
    · rw [List.mem_singleton.mp hnew]
      show roomId < db.nextRoomId
      rw [← hroomId]
      exact (hvalid.roomIds.2 room hroom).2
  · rw [List.pairwise_append]
    refine ⟨hlogged.ids, List.pairwise_singleton _ _, fun row hrow new hnew ↦ ?_⟩
    have hbound := hlogged.bound row hrow
    rw [List.mem_singleton.mp hnew]
    show row.id < db.nextMessageId + gap
    omega
  · show row.id < db.nextMessageId + gap + 1
    rcases List.mem_append.mp hrow with hold | hnew
    · have hbound := hlogged.bound row hold
      omega
    · rw [List.mem_singleton.mp hnew]
      exact Int.lt_succ _

omit [LinearOrder User] in
theorem Database.Logged.members (hlogged : db.Logged log) {members : List (RoomMemberRow User)}
    (hnext : next = { db with roomMembers := members }) : next.Logged log := by
  rw [hnext]
  exact hlogged.keep (fun _ hroom ↦ ⟨hroom, rfl⟩) rfl rfl

/-- One transaction commits at most the message it posts. -/
theorem Database.Logged.run (hvalid : db.Valid) (hlogged : db.Logged log) (call : WriteCall User) :
    (call.run db).Logged (log ++ call.posted db) := by
  have hquiet : db.Logged (log ++ []) := by
    rw [List.append_nil]
    exact hlogged
  cases call with
  | signup => exact DbResult.committed_of hquiet fun _ _ hok ↦ hquiet.sameChat (sameChat_signup hok)
  | changeNickname =>
    exact DbResult.committed_of hquiet fun _ _ hok ↦ hquiet.sameChat (sameChat_changeNickname hok)
  | addFriend =>
    exact DbResult.committed_of hquiet fun _ _ hok ↦
      hquiet.sameChat (sameChat_insertFriendship hok)
  | removeFriend =>
    exact DbResult.committed_of hquiet fun _ _ hok ↦ hquiet.sameChat (sameChat_removeFriend hok)
  | requestFriend =>
    exact DbResult.committed_of hquiet fun _ _ hok ↦ hquiet.sameChat (sameChat_requestFriend hok)
  | acceptFriendRequest =>
    exact DbResult.committed_of hquiet fun _ _ hok ↦
      hquiet.sameChat (sameChat_acceptFriendRequest hok)
  | rejectFriendRequest =>
    exact DbResult.committed_of hquiet fun _ _ hok ↦
      hquiet.sameChat (sameChat_rejectFriendRequest hok)
  | createRoom => exact DbResult.committed_of hquiet fun _ _ hok ↦ hquiet.createRoom hvalid hok
  | deleteRoom => exact DbResult.committed_of hquiet fun _ _ hok ↦ hquiet.deleteRoom hvalid hok
  | inviteRoom =>
    exact DbResult.committed_of hquiet fun _ _ hok ↦
      (inviteRoom_eq_ok hok).elim fun _ ↦ hquiet.members
  | leaveRoom =>
    exact DbResult.committed_of hquiet fun _ _ hok ↦
      (leaveRoom_eq_ok hok).elim fun _ ↦ hquiet.members
  | createRoomMessage now gap roomId senderUserId body =>
    unfold WriteCall.run WriteCall.posted
    dsimp only
    cases houtcome : Transaction.createRoomMessage now gap roomId senderUserId body db with
    | error error => exact hquiet
    | ok committed =>
      obtain ⟨result, next⟩ := committed
      cases result with
      | none => exact hquiet.sameChat (sameChat_createRoomMessage_none houtcome)
      | some id => exact hlogged.createRoomMessage hvalid houtcome

end Step

theorem logged_after (calls : List (WriteCall User)) :
    (Database.after calls).Logged (postedMessages calls) := by
  induction calls using List.reverseRecOn with
  | nil => exact logged_empty
  | append_singleton calls call ih =>
    rw [Database.after_concat, postedMessages_concat]
    exact ih.run (valid_after calls) call

/-! ### History -/

/-- `message_info` of a row. -/
def MessageRow.info (row : MessageRow User) : MessageInfo User :=
  ⟨row.id, row.senderUserId, row.body, row.createdAt⟩

/-- The query on a table that has the messages of the room in order: both sorts turn it around. -/
theorem listRoomMessages_eq {userId : User} {roomId : Int} {messages : List (MessageRow User)}
    (hmember : db.IsMember roomId userId) (hmessages : ofRoom roomId db.messages = messages)
    (hids : messages.Pairwise fun first second ↦ first.id < second.id)
    (htimes : messages.Pairwise fun first second ↦ first.createdAt ≤ second.createdAt)
    (limit : Nat) : Transaction.listRoomMessages userId roomId limit db =
      some ((messages.rtake limit).map MessageRow.info) := by
  have hnewest : (ofRoom roomId db.messages).insertionSort (fun first second ↦
      first.createdAt > second.createdAt ∨
        (first.createdAt = second.createdAt ∧ first.id ≥ second.id)) = messages.reverse := by
    rw [hmessages]
    refine Table.insertionSort_eq_reverse ((hids.and htimes).imp ?_)
    intro first second hboth
    omega
  have holdest : (messages.reverse.take limit).insertionSort (fun first second ↦
      first.id ≤ second.id) = (messages.reverse.take limit).reverse := by
    refine Table.insertionSort_eq_reverse ?_
    refine List.Pairwise.sublist (List.take_sublist limit _) (List.pairwise_reverse.mpr ?_)
    exact hids.imp fun hlt ↦ not_le_of_gt hlt
  unfold Transaction.listRoomMessages
  rw [if_neg (not_not.mpr hmember)]
  dsimp only
  rw [← ofRoom, hnewest, holdest, ← List.rtake_eq_reverse_take_reverse]
  rfl

/-- After any sequence of transactions in which the timestamps of committed messages do not fall, a
member of a room gets the last `limit` of the messages committed to the room, and anyone else
nothing. -/
theorem listRoomMessages_after (calls : List (WriteCall User))
    (htimes : (postedMessages calls).Pairwise fun first second ↦
      first.createdAt ≤ second.createdAt)
    (userId : User) (roomId : Int) (limit : Nat) :
    ((Database.after calls).IsMember roomId userId →
      Transaction.listRoomMessages userId roomId limit (Database.after calls) =
        some (((ofRoom roomId (postedMessages calls)).rtake limit).map MessageRow.info)) ∧
    (¬ (Database.after calls).IsMember roomId userId →
      Transaction.listRoomMessages userId roomId limit (Database.after calls) = none) := by
  have hlogged := logged_after calls
  constructor
  · rintro ⟨row, hrow, hkey⟩
    have hroom := ((valid_after calls).roomMemberRefs row hrow).1
    rw [(Prod.mk.inj hkey).1] at hroom
    exact listRoomMessages_eq ⟨row, hrow, hkey⟩ (hlogged.messages roomId hroom)
      (hlogged.ids.filter _) (htimes.filter _) limit
  · intro hmember
    rw [Transaction.listRoomMessages, if_pos hmember]

/-! ### The messages that were posted -/

/-- A message as it is stored. -/
def MessageRow.stored (row : MessageRow Bytes) : MessageRow Bytes :=
  { row with senderUserId := sqlText row.senderUserId, body := sqlText row.body }

section Posted

variable [LinearOrder Bytes]

/-- The message that a call commits, with the sender and the body it was called with. -/
def ServiceCall.posted (call : ServiceCall) (db : Database Bytes) : List (MessageRow Bytes) :=
  match call with
  | .createRoomMessage now gap roomId senderUserId body =>
    match DbService.createRoomMessage now gap roomId senderUserId body db with
    | .ok (some id, _) => [⟨id, roomId, senderUserId, body, now⟩]
    | _ => []
  | _ => []

/-- The messages that calls commit, in order and as they were posted. -/
def servedMessages (calls : List ServiceCall) : List (MessageRow Bytes) :=
  (calls.foldl (fun state call ↦ (call.run state.1, state.2 ++ call.posted state.1))
    (Database.empty Bytes, [])).2

theorem servedMessages_concat (calls : List ServiceCall) (call : ServiceCall) :
    servedMessages (calls ++ [call]) =
      servedMessages calls ++ call.posted (Database.served calls) := by
  have hstate : (calls.foldl (fun state call ↦ (call.run state.1, state.2 ++ call.posted state.1))
      (Database.empty Bytes, ([] : List (MessageRow Bytes)))).1 = Database.served calls := by
    induction calls using List.reverseRecOn with
    | nil => rfl
    | append_singleton calls call ih => rw [List.foldl_concat, Database.served_concat, ih]
  rw [servedMessages, List.foldl_concat, hstate, servedMessages]

/-- A transaction commits the message of its call as it is stored. -/
theorem posted_bind (call : ServiceCall) (db : Database Bytes) :
    call.bind.posted db = (call.posted db).map MessageRow.stored := by
  cases call with
  | createRoomMessage now gap roomId senderUserId body =>
    unfold ServiceCall.posted ServiceCall.bind WriteCall.posted DbService.createRoomMessage
    dsimp only
    cases Transaction.createRoomMessage now gap roomId (sqlText senderUserId) (sqlText body) db with
    | error error => rfl
    | ok committed =>
      obtain ⟨result, next⟩ := committed
      cases result <;> rfl
  | _ => rfl

theorem postedMessages_bind (calls : List ServiceCall) :
    postedMessages (calls.map ServiceCall.bind) =
      (servedMessages calls).map MessageRow.stored := by
  induction calls using List.reverseRecOn with
  | nil => rfl
  | append_singleton calls call ih =>
    rw [List.map_append, List.map_singleton, postedMessages_concat, ih, ← served_eq_after,
      posted_bind, servedMessages_concat, List.map_append]

omit [LinearOrder Bytes] in
theorem ofRoom_stored (roomId : Int) (messages : List (MessageRow Bytes)) :
    ofRoom roomId (messages.map MessageRow.stored) =
      (ofRoom roomId messages).map MessageRow.stored :=
  List.filter_map

/-- The history that a call asks for has the last messages that were posted to the room, with the
senders and bodies they were posted with, if it is a member who asks, and nothing otherwise. -/
def HistoryFaithful (calls : List ServiceCall) (userId : Bytes) (roomId : Int) (limit : Nat) :
    Prop :=
  ((Database.served calls).IsMember roomId userId →
    DbService.listRoomMessages userId roomId limit (Database.served calls) =
      some (((ofRoom roomId (servedMessages calls)).rtake limit).map MessageRow.info)) ∧
  (¬ (Database.served calls).IsMember roomId userId →
    DbService.listRoomMessages userId roomId limit (Database.served calls) = none)

/-- After any sequence of calls in which the timestamps of committed messages do not fall, the
history is that of the latest messages as they were posted, if and only if none of those a member
gets was posted with a NUL in its sender or body, and it is not asked for under a text with a NUL in
which PostgreSQL reads a member. -/
theorem historyFaithful_iff (calls : List ServiceCall)
    (htimes : (servedMessages calls).Pairwise fun first second ↦
      first.createdAt ≤ second.createdAt)
    (userId : Bytes) (roomId : Int) (limit : Nat) :
    HistoryFaithful calls userId roomId limit ↔
      ((Database.served calls).IsMember roomId userId →
        ∀ row ∈ (ofRoom roomId (servedMessages calls)).rtake limit,
          0 ∉ row.senderUserId ∧ 0 ∉ row.body) ∧
      ¬ (0 ∈ userId ∧ (Database.served calls).IsMember roomId (sqlText userId)) := by
  have htimes' : (postedMessages (calls.map ServiceCall.bind)).Pairwise fun first second ↦
      first.createdAt ≤ second.createdAt := by
    rw [postedMessages_bind, List.pairwise_map]
    exact htimes
  obtain ⟨hmembers, hothers⟩ :=
    listRoomMessages_after (calls.map ServiceCall.bind) htimes' (sqlText userId) roomId limit
  rw [← served_eq_after] at hmembers hothers
  have hstored : ((ofRoom roomId (postedMessages (calls.map ServiceCall.bind))).rtake limit).map
      MessageRow.info = ((ofRoom roomId (servedMessages calls)).rtake limit).map
        fun row ↦ row.stored.info := by
    rw [postedMessages_bind, ofRoom_stored, List.rtake, List.rtake, List.length_map,
      ← List.map_drop, List.map_map]
    rfl
  have hsame : ∀ row : MessageRow Bytes, row.stored.info = row.info ↔
      0 ∉ row.senderUserId ∧ 0 ∉ row.body := by
    intro row
    rw [← sqlText_eq_self_iff, ← sqlText_eq_self_iff]
    simp [MessageRow.stored, MessageRow.info]
  unfold HistoryFaithful
  by_cases hmember : (Database.served calls).IsMember roomId userId
  · -- the id of a member has no NUL, and is read as it is
    have hplain := (idsWhole_served calls).of_isMember (valid_served calls) hmember
    have hlist : DbService.listRoomMessages userId roomId limit (Database.served calls) = some
        (((ofRoom roomId (servedMessages calls)).rtake limit).map fun row ↦ row.stored.info) := by
      rw [← hstored]
      exact hmembers ((sqlText_eq_self_iff.mpr hplain).symm ▸ hmember)
    rw [hlist]
    simp only [hmember, hplain, forall_const, not_true, false_and, false_implies, and_true,
      not_false_eq_true, Option.some.injEq, List.map_inj_left, hsame]
  · by_cases hread : (Database.served calls).IsMember roomId (sqlText userId)
    · have hnul : 0 ∈ userId := by
        by_contra hnone
        rw [sqlText_eq_self_iff.mpr hnone] at hread
        exact hmember hread
      have hlist : DbService.listRoomMessages userId roomId limit (Database.served calls) ≠ none :=
        fun hnone ↦ by cases (hmembers hread).symm.trans hnone
      simp [hmember, hread, hnul, hlist]
    · have hlist : DbService.listRoomMessages userId roomId limit (Database.served calls) = none :=
        hothers hread
      simp [hmember, hread, hlist]

end Posted

/-- A room with three messages, two of them in one moment. -/
def threeMessages : List ServiceCall :=
  [.signup (text "a") [], .createRoom 0 0 (text "a") (text "lobby"),
    .createRoomMessage 5 0 1 (text "a") (text "first"),
    .createRoomMessage 5 0 1 (text "a") (text "second"),
    .createRoomMessage 6 2 1 (text "a") (text "third")]

theorem historyFaithful_iff_threeMessages :
    letI := bytewise
    DbService.listRoomMessages (text "a") 1 2 (Database.served threeMessages) =
      some [⟨2, text "a", text "second", 5⟩, ⟨5, text "a", text "third", 6⟩] := by
  let order := bytewise
  have hfaithful := (historyFaithful_iff threeMessages (by decide +kernel) (text "a") 1 2).mpr
    (by decide +kernel)
  exact (hfaithful.1 (by decide +kernel)).trans (by decide +kernel)

/-- A message whose body goes on behind a NUL. -/
def cutMessage : List ServiceCall :=
  [.signup (text "a") [], .createRoom 0 0 (text "a") (text "lobby"),
    .createRoomMessage 5 0 1 (text "a") (text "hi" ++ 0 :: text "x")]

/-- The member who asks gets the body without the rest. -/
theorem cutMessage_unfaithful :
    letI := bytewise
    ((servedMessages cutMessage).Pairwise fun first second ↦
        first.createdAt ≤ second.createdAt) ∧
      (Database.served cutMessage).IsMember 1 (text "a") ∧
      DbService.listRoomMessages (text "a") 1 1 (Database.served cutMessage) =
        some [⟨1, text "a", text "hi", 5⟩] ∧
      ¬ HistoryFaithful cutMessage (text "a") 1 1 := by
  let order := bytewise
  have hmember : (Database.served cutMessage).IsMember 1 (text "a") := by decide +kernel
  refine ⟨by decide +kernel, hmember, by decide +kernel, fun hfaithful ↦ ?_⟩
  exact absurd (hfaithful.1 hmember) (by decide +kernel)

/-! ### The rooms of a user -/

section Rooms

variable {userId : User}

/-- The member rows of a room. -/
def Database.membersOf (db : Database User) (roomId : Int) : List (RoomMemberRow User) :=
  db.roomMembers.filter fun member ↦ decide (member.roomId = roomId)

/-- A user has at most one row for a room. -/
theorem scope_of_isMember (hmembers : Table.KeyUnique RoomMemberRow.key db.roomMembers)
    {roomId : Int} (hmember : db.IsMember roomId userId) :
    ∃ scope ∈ db.membersOf roomId, db.roomMembers.filter (fun scope ↦
      decide (scope.roomId = roomId ∧ scope.userId = userId)) = [scope] := by
  obtain ⟨scope, hscope, hkey⟩ := hmember
  obtain ⟨rfl, rfl⟩ := Prod.mk.inj hkey
  refine ⟨scope, List.mem_filter.mpr ⟨hscope, decide_eq_true rfl⟩, ?_⟩
  rw [← hmembers.filter_key_eq hscope]
  refine List.filter_congr fun other _ ↦ decide_eq_decide.mpr ?_
  exact Prod.mk_inj.symm

theorem scope_of_not_isMember {roomId : Int} (hmember : ¬ db.IsMember roomId userId) :
    db.roomMembers.filter (fun scope ↦
      decide (scope.roomId = roomId ∧ scope.userId = userId)) = [] := by
  rw [List.filter_eq_nil_iff]
  intro scope hscope hkey
  rw [decide_eq_true_eq] at hkey
  exact hmember ⟨scope, hscope, Prod.ext hkey.1 hkey.2⟩

/-- The joined rows: each room of the user with each of its members. -/
theorem joinedRooms_eq (hmembers : Table.KeyUnique RoomMemberRow.key db.roomMembers) :
    Transaction.joinedRooms userId db = db.rooms.flatMap fun room ↦
      if db.IsMember room.id userId then
        (db.membersOf room.id).map fun member ↦ (room, some member)
      else [] := by
  unfold Transaction.joinedRooms
  refine List.flatMap_congr fun room _ ↦ ?_
  by_cases hmember : db.IsMember room.id userId
  · obtain ⟨scope, hscope, hrows⟩ := scope_of_isMember hmembers hmember
    rw [hrows, if_pos hmember, List.flatMap_singleton, ← Database.membersOf]
    split
    · next hnil =>
      rw [hnil] at hscope
      cases hscope
    · rfl
  · rw [scope_of_not_isMember hmember, if_neg hmember, List.flatMap_nil]

/-- The rows of the group of a room: its members, each once. -/
theorem rows_of_group (hrooms : Table.KeyUnique RoomRow.id db.rooms)
    (hmembers : Table.KeyUnique RoomMemberRow.key db.roomMembers) {room : RoomRow User}
    (hroom : room ∈ db.rooms) (hmember : db.IsMember room.id userId) :
    (Transaction.joinedRooms userId db).filter
        (fun row ↦ decide (Transaction.groupKey row.1 = Transaction.groupKey room)) =
      (db.membersOf room.id).map fun member ↦ (room, some member) := by
  have hgroup : ∀ other ∈ db.rooms,
      (if db.IsMember other.id userId then
        (db.membersOf other.id).map fun member ↦ (other, some member) else []).filter
          (fun row ↦ decide (Transaction.groupKey row.1 = Transaction.groupKey room)) =
      if other.id = room.id then
        (db.membersOf room.id).map fun member ↦ (room, some member) else [] := by
    intro other hother
    by_cases hsame : other.id = room.id
    · obtain rfl := hrooms.eq_of_key_eq hother hroom hsame
      rw [if_pos hmember, if_pos rfl, List.filter_eq_self]
      intro row hrow
      obtain ⟨member, -, rfl⟩ := List.mem_map.mp hrow
      exact decide_eq_true rfl
    · rw [if_neg hsame, List.filter_eq_nil_iff]
      intro row hrow
      rw [decide_eq_true_eq]
      split_ifs at hrow
      · obtain ⟨member, -, rfl⟩ := List.mem_map.mp hrow
        exact fun hkey ↦ hsame (Prod.mk.inj hkey).1
      · cases hrow
  rw [joinedRooms_eq hmembers, List.filter_flatMap, List.flatMap_congr hgroup, Table.flatMap_ite,
    hrooms.filter_key_eq hroom, List.flatMap_singleton]

/-- The member count of a group is the number of members of the room. -/
theorem memberCount_of_group (hrooms : Table.KeyUnique RoomRow.id db.rooms)
    (hmembers : Table.KeyUnique RoomMemberRow.key db.roomMembers) {room : RoomRow User}
    (hroom : room ∈ db.rooms) (hmember : db.IsMember room.id userId) :
    (Transaction.joinedRooms userId db).countP (fun row ↦
        Transaction.groupKey row.1 = Transaction.groupKey room ∧ row.2.isSome) =
      (db.membersOf room.id).length := by
  have hrows := rows_of_group hrooms hmembers hroom hmember
  have hcount : (Transaction.joinedRooms userId db).countP (fun row ↦
        Transaction.groupKey row.1 = Transaction.groupKey room ∧ row.2.isSome) =
      ((Transaction.joinedRooms userId db).filter fun row ↦
        decide (Transaction.groupKey row.1 = Transaction.groupKey room)).countP
          fun row ↦ row.2.isSome := by
    rw [List.countP_filter]
    refine List.countP_congr fun row _ ↦ ?_
    simp only [decide_eq_true_eq, Bool.and_eq_true]
    exact and_comm
  rw [hcount, hrows, List.countP_map]
  exact List.countP_eq_length.mpr fun _ _ ↦ rfl

/-- A member has one row, so that the rows of a room are as many as its members. -/
theorem length_membersOf (hmembers : Table.KeyUnique RoomMemberRow.key db.roomMembers)
    (roomId : Int) :
    (db.membersOf roomId).length = {member | db.IsMember roomId member}.ncard := by
  have hnodup : ((db.membersOf roomId).map RoomMemberRow.userId).Nodup := by
    refine ((List.Nodup.of_map _ hmembers).filter _).map_on ?_
    intro first hfirst second hsecond hsame
    obtain ⟨hfirst, hfirstRoom⟩ := List.mem_filter.mp hfirst
    obtain ⟨hsecond, hsecondRoom⟩ := List.mem_filter.mp hsecond
    rw [decide_eq_true_eq] at hfirstRoom hsecondRoom
    exact hmembers.eq_of_key_eq hfirst hsecond
      (Prod.ext (hfirstRoom.trans hsecondRoom.symm) hsame)
  have hset : {member | db.IsMember roomId member} =
      (((db.membersOf roomId).map RoomMemberRow.userId).toFinset : Set User) := by
    ext member
    rw [Set.mem_ofPred_eq, Finset.mem_coe, List.mem_toFinset, List.mem_map]
    constructor
    · rintro ⟨row, hrow, hkey⟩
      obtain ⟨hroom, huser⟩ := Prod.mk.inj hkey
      exact ⟨row, List.mem_filter.mpr ⟨hrow, decide_eq_true hroom⟩, huser⟩
    · rintro ⟨row, hrow, rfl⟩
      obtain ⟨hrow, hroom⟩ := List.mem_filter.mp hrow
      exact ⟨row, hrow, Prod.ext (of_decide_eq_true hroom) rfl⟩
  rw [hset, Set.ncard_coe_finset, List.toFinset_card_of_nodup hnodup, List.length_map]

/-- The groups are those of the rooms of the user. -/
theorem mem_groups (hmembers : Table.KeyUnique RoomMemberRow.key db.roomMembers)
    {group : Int × Bytes × User} :
    group ∈ ((Transaction.joinedRooms userId db).map fun row ↦
        Transaction.groupKey row.1).dedup ↔
      ∃ room ∈ db.rooms, db.IsMember room.id userId ∧ Transaction.groupKey room = group := by
  rw [List.mem_dedup, List.mem_map, joinedRooms_eq hmembers]
  constructor
  · rintro ⟨row, hrow, rfl⟩
    obtain ⟨room, hroom, hrow⟩ := List.mem_flatMap.mp hrow
    split_ifs at hrow with hmember
    · obtain ⟨member, -, rfl⟩ := List.mem_map.mp hrow
      exact ⟨room, hroom, hmember, rfl⟩
    · cases hrow
  · rintro ⟨room, hroom, hmember, rfl⟩
    obtain ⟨scope, hscope, -⟩ := scope_of_isMember hmembers hmember
    refine ⟨(room, some scope), List.mem_flatMap.mpr ⟨room, hroom, ?_⟩, rfl⟩
    rw [if_pos hmember]
    exact List.mem_map_of_mem hscope

/-- The entries that `list_rooms` reports. -/
theorem mem_listRooms_iff (hrooms : Table.KeyUnique RoomRow.id db.rooms)
    (hmembers : Table.KeyUnique RoomMemberRow.key db.roomMembers) {info : RoomInfo User} :
    info ∈ Transaction.listRooms userId db ↔
      ∃ room ∈ db.rooms, db.IsMember room.id userId ∧
        info = ⟨room.id, room.name, room.ownerUserId, (db.membersOf room.id).length⟩ := by
  unfold Transaction.listRooms
  rw [List.mem_insertionSort, List.mem_map]
  constructor
  · rintro ⟨group, hgroup, rfl⟩
    obtain ⟨room, hroom, hmember, rfl⟩ := (mem_groups hmembers).mp hgroup
    refine ⟨room, hroom, hmember, ?_⟩
    rw [memberCount_of_group hrooms hmembers hroom hmember]
    rfl
  · rintro ⟨room, hroom, hmember, rfl⟩
    refine ⟨Transaction.groupKey room, (mem_groups hmembers).mpr ⟨room, hroom, hmember, rfl⟩, ?_⟩
    rw [memberCount_of_group hrooms hmembers hroom hmember]
    rfl

/-- Each room is reported once, by ascending id. -/
theorem pairwise_listRooms (hrooms : Table.KeyUnique RoomRow.id db.rooms)
    (hmembers : Table.KeyUnique RoomMemberRow.key db.roomMembers) :
    ((Transaction.listRooms userId db).map RoomInfo.id).Pairwise (· < ·) := by
  have hdistinct : ((((Transaction.joinedRooms userId db).map fun row ↦
      Transaction.groupKey row.1).dedup).map Prod.fst).Nodup := by
    refine (List.nodup_dedup _).map_on fun first hfirst second hsecond hid ↦ ?_
    obtain ⟨room, hroom, -, rfl⟩ := (mem_groups hmembers).mp hfirst
    obtain ⟨other, hother, -, rfl⟩ := (mem_groups hmembers).mp hsecond
    rw [hrooms.eq_of_key_eq hroom hother hid]
  have hnodup : ((Transaction.listRooms userId db).map RoomInfo.id).Nodup := by
    unfold Transaction.listRooms
    refine ((List.perm_insertionSort _ _).map RoomInfo.id).nodup_iff.mpr ?_
    rw [List.map_map]
    exact hdistinct
  have hsorted : (Transaction.listRooms userId db).Pairwise fun first second ↦
      first.id ≤ second.id := List.pairwise_insertionSort _ _
  rw [List.pairwise_map]
  rw [List.Nodup, List.pairwise_map] at hnodup
  exact (hsorted.and hnodup).imp fun hboth ↦ lt_of_le_of_ne hboth.1 hboth.2

end Rooms

/-- `list_rooms` reports each room of the user once, by ascending id, with its name, its owner and
the number of its members, and no other room. The rooms a session is put into are the rooms of the
user, each once. The user is the one PostgreSQL reads in the text; an id that it stores has no NUL,
and is read as it is. -/
theorem rooms_listed [LinearOrder Bytes] {db : Database Bytes}
    (hrooms : Table.KeyUnique RoomRow.id db.rooms)
    (hmembers : Table.KeyUnique RoomMemberRow.key db.roomMembers)
    (hrefs : ∀ row ∈ db.roomMembers, db.IsRoom row.roomId) (userId : Bytes) :
    (∀ info, info ∈ DbService.listRooms userId db ↔
      ∃ room ∈ db.rooms, db.IsMember room.id (sqlText userId) ∧
        info = ⟨room.id, room.name, room.ownerUserId,
          {member | db.IsMember room.id member}.ncard⟩) ∧
    ((DbService.listRooms userId db).map RoomInfo.id).Pairwise (· < ·) ∧
    (DbExecutor.loadJoinedRoomIds userId db).Nodup ∧
    ∀ roomId, roomId ∈ DbExecutor.loadJoinedRoomIds userId db ↔
      db.IsMember roomId (sqlText userId) := by
  have hentries := @mem_listRooms_iff Bytes _ db (sqlText userId) hrooms hmembers
  have hascending := @pairwise_listRooms Bytes _ db (sqlText userId) hrooms hmembers
  rw [← DbService.listRooms] at hentries hascending
  refine ⟨fun info ↦ ?_, hascending, hascending.imp fun hlt ↦ ne_of_lt hlt, fun roomId ↦ ?_⟩
  · rw [hentries]
    simp only [length_membersOf hmembers]
  · unfold DbExecutor.loadJoinedRoomIds
    rw [List.mem_map]
    constructor
    · rintro ⟨info, hinfo, rfl⟩
      obtain ⟨room, -, hmember, rfl⟩ := hentries.mp hinfo
      exact hmember
    · intro hmember
      obtain ⟨row, hrow, hkey⟩ := hmember
      obtain ⟨room, hroom, hid⟩ := hrefs row hrow
      have hroomId : room.id = roomId := hid.trans (Prod.mk.inj hkey).1
      refine ⟨_, hentries.mpr ⟨room, hroom, ?_, rfl⟩, hroomId⟩
      rw [hroomId]
      exact ⟨row, hrow, hkey⟩

/-- Two rooms of alice, the first of which bob owns, and one room that she is not in. -/
def roomsOfAlice : Database Bytes :=
  { Database.empty Bytes with
    rooms := [⟨2, text "games", text "alice", 1⟩, ⟨1, text "lobby", text "bob", 0⟩,
      ⟨3, text "lobby", text "bob", 2⟩]
    roomMembers := [⟨1, text "bob", .owner, 0⟩, ⟨2, text "alice", .owner, 1⟩,
      ⟨3, text "bob", .owner, 2⟩, ⟨1, text "alice", .member, 3⟩] }

theorem rooms_listed_roomsOfAlice :
    @DbExecutor.loadJoinedRoomIds bytewise (text "alice") roomsOfAlice = [1, 2] ∧
    {member | roomsOfAlice.IsMember 1 member}.ncard = 2 := by
  have hrooms : (roomsOfAlice.rooms.map RoomRow.id).Nodup := by decide +kernel
  have hmembers : (roomsOfAlice.roomMembers.map RoomMemberRow.key).Nodup := by decide +kernel
  obtain ⟨hentries, -, -, -⟩ :=
    @rooms_listed bytewise roomsOfAlice hrooms hmembers (by decide +kernel) (text "alice")
  refine ⟨by decide +kernel, ?_⟩
  obtain ⟨room, -, -, hinfo⟩ :=
    (hentries ⟨1, text "lobby", text "bob", 2⟩).mp (by decide +kernel)
  obtain ⟨hid, -, -, hcount⟩ := RoomInfo.mk.inj hinfo
  rw [hcount, hid]

end ChatServer
