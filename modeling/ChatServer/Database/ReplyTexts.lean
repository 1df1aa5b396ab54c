import ChatServer.Database.ExecutorEffects

/-!
# What the worker writes to a client

The encoder escapes nothing, so a reply is one line only if no string in it has a delimiter. Every
string the server handles comes from a line it decoded, and the line parser and the decoder leave no
delimiter in the fields of a line. `Clean` says this of the rows of the database, of a task, and of
a command that the worker queues; `clean_execute` says that a task on a clean database leaves it
clean and queues clean commands. PostgreSQL writes the timestamps of a history, so that their texts
have no delimiter is a hypothesis on `DbEnv`.

A client takes two texts for the outcome of its login. Every reply of the worker that is put
together from strings of users has a colon in it, which neither of the two has, so only a login is
answered with one of them (`plain_execute`).
-/

set_option autoImplicit false
set_option relaxedAutoImplicit false

namespace ChatServer

/-! ### Texts of replies -/

/-- A text on which `chat_executor` sets or clears `logged_in`. -/
def IsLoginText (message : Bytes) : Prop :=
  message = text "login success" ∨ message = text "login failed"

instance (message : Bytes) : Decidable (IsLoginText message) :=
  inferInstanceAs (Decidable (message = text "login success" ∨ message = text "login failed"))

/-- The text of a reply to anything but a login. -/
structure IsPlainReply (message : Bytes) : Prop extends IsToken message where
  notLogin : ¬ IsLoginText message

instance (message : Bytes) : Decidable (IsPlainReply message) :=
  decidable_of_iff (IsToken message ∧ ¬ IsLoginText message)
    ⟨fun ⟨htoken, hplain⟩ ↦ ⟨htoken, hplain⟩, fun hreply ↦ ⟨hreply.toIsToken, hreply.notLogin⟩⟩

/-- `':'`. -/
def colon : UInt8 := 58

/-- The front of a text that is put together. -/
structure IsLabel (front : Bytes) : Prop extends Undelimited front where
  colon : colon ∈ front

instance (front : Bytes) : Decidable (IsLabel front) :=
  decidable_of_iff (Undelimited front ∧ colon ∈ front)
    ⟨fun ⟨hfront, hcolon⟩ ↦ ⟨hfront, hcolon⟩,
      fun hlabel ↦ ⟨hlabel.toUndelimited, hlabel.colon⟩⟩

theorem IsLabel.append {front rest : Bytes} (hfront : IsLabel front) (hrest : Undelimited rest) :
    IsLabel (front ++ rest) :=
  ⟨hfront.toUndelimited.append hrest, List.mem_append_left _ hfront.colon⟩

/-- A text with a colon in it is neither of the two. -/
theorem IsLabel.isPlainReply {message : Bytes} (hlabel : IsLabel message) :
    IsPlainReply message where
  nonempty := List.ne_nil_of_mem hlabel.colon
  noReturn := hlabel.noReturn
  noNewline := hlabel.noNewline
  notLogin hlogin := by
    have hcolon := hlabel.colon
    rcases hlogin with rfl | rfl
    · exact absurd hcolon (by decide)
    · exact absurd hcolon (by decide)

/-- The text that `namedPayload` puts together. -/
theorem isLabel_named {nickname message : Bytes} (hnickname : Undelimited nickname)
    (hmessage : Undelimited message) : IsLabel (nickname ++ text ": " ++ message) := by
  have hcolon : IsLabel (text ": ") := by decide
  refine IsLabel.append ⟨hnickname.append hcolon.toUndelimited, ?_⟩ hmessage
  exact List.mem_append_right _ hcolon.colon

/-! ### Clean data -/

/-- No string of the row has a delimiter. -/
def UserRow.Clean (row : UserRow Bytes) : Prop :=
  Undelimited row.id ∧ Undelimited row.pw ∧ Undelimited row.nickname

@[inherit_doc UserRow.Clean]
def FriendshipRow.Clean (row : FriendshipRow Bytes) : Prop :=
  Undelimited row.userAId ∧ Undelimited row.userBId

@[inherit_doc UserRow.Clean]
def FriendRequestRow.Clean (row : FriendRequestRow Bytes) : Prop :=
  Undelimited row.fromUserId ∧ Undelimited row.toUserId

@[inherit_doc UserRow.Clean]
def RoomRow.Clean (row : RoomRow Bytes) : Prop :=
  Undelimited row.name ∧ Undelimited row.ownerUserId

@[inherit_doc UserRow.Clean]
def RoomMemberRow.Clean (row : RoomMemberRow Bytes) : Prop :=
  Undelimited row.userId

@[inherit_doc UserRow.Clean]
def MessageRow.Clean (row : MessageRow Bytes) : Prop :=
  Undelimited row.senderUserId ∧ Undelimited row.body

/-- No string of the database has a delimiter. -/
structure Database.Clean (db : Database Bytes) : Prop where
  users : ∀ row ∈ db.users, row.Clean
  friendships : ∀ row ∈ db.friendships, row.Clean
  friendRequests : ∀ row ∈ db.friendRequests, row.Clean
  rooms : ∀ row ∈ db.rooms, row.Clean
  roomMembers : ∀ row ∈ db.roomMembers, row.Clean
  messages : ∀ row ∈ db.messages, row.Clean

/-- No string of the task has a delimiter, and only the user may be empty. -/
structure Task.Clean (task : Task) : Prop where
  cmd : task.cmd.FieldsAreTokens
  userId : Undelimited task.userId

/-- A command that queues replies of one kind, and whose other strings have no delimiter. -/
def RegistryCommand.Carries (kind : Bytes → Prop) : RegistryCommand → Prop
  | .sendOne _ cmd => ∃ message, cmd = .cmdResponse message ∧ kind message
  | .broadcast _ cmd | .roomBroadcast _ _ cmd =>
    ∃ message, cmd = .cmdResponse message ∧ Undelimited message
  | .changeNickname _ nick => Undelimited nick
  | .setUserId _ userId => Undelimited userId
  | .sendFriendList _ friendIds => ∀ friendId ∈ friendIds, Undelimited friendId
  | .register .. | .unregister _ | .setJoinedRooms .. | .setJoinedRoomsForUser .. => True

theorem RegistryCommand.Carries.mono {first second : Bytes → Prop} {command : RegistryCommand}
    (hcommand : command.Carries first) (hkind : ∀ message, first message → second message) :
    command.Carries second := by
  cases command with
  | sendOne fd cmd =>
    obtain ⟨message, hcmd, hmessage⟩ := hcommand
    exact ⟨message, hcmd, hkind message hmessage⟩
  | _ => exact hcommand

/-- What PostgreSQL reads in a text has no delimiter where the text has none. -/
theorem Undelimited.sqlText {value : Bytes} (hvalue : Undelimited value) :
    Undelimited (sqlText value) where
  noReturn hmem := hvalue.noReturn ((List.takeWhile_sublist _).subset hmem)
  noNewline hmem := hvalue.noNewline ((List.takeWhile_sublist _).subset hmem)

theorem clean_empty : (Database.empty Bytes).Clean where
  users := by simp [Database.empty]
  friendships := by simp [Database.empty]
  friendRequests := by simp [Database.empty]
  rooms := by simp [Database.empty]
  roomMembers := by simp [Database.empty]
  messages := by simp [Database.empty]

/-- The rooms listed are rows of the rooms table. -/
theorem row_of_listRooms {User : Type} [LinearOrder User] {db : Database User} {userId : User}
    {room : RoomInfo User} (hroom : room ∈ Transaction.listRooms userId db) :
    ∃ row ∈ db.rooms, row.name = room.name ∧ row.ownerUserId = room.ownerUserId := by
  unfold Transaction.listRooms at hroom
  dsimp only at hroom
  rw [List.mem_insertionSort, List.mem_map] at hroom
  obtain ⟨group, hgroup, rfl⟩ := hroom
  obtain ⟨joined, hjoined, rfl⟩ := List.mem_map.mp (List.mem_dedup.mp hgroup)
  refine ⟨joined.1, ?_, rfl, rfl⟩
  unfold Transaction.joinedRooms at hjoined
  obtain ⟨row, hrow, hjoined⟩ := List.mem_flatMap.mp hjoined
  obtain ⟨scope, -, hjoined⟩ := List.mem_flatMap.mp hjoined
  split at hjoined
  · rw [List.mem_singleton.mp hjoined]
    exact hrow
  · obtain ⟨member, -, rfl⟩ := List.mem_map.mp hjoined
    exact hrow

section Tasks

variable [LinearOrder Bytes] {db next : Database Bytes}

/-! ### Writing calls -/

theorem clean_signup (hclean : db.Clean) {id pw : Bytes} (hid : Undelimited id)
    (hpw : Undelimited pw) {result : Bool}
    (hok : Transaction.signup id pw db = .ok (result, next)) : next.Clean := by
  simp only [Transaction.signup, Except.ok.injEq, Prod.mk.injEq] at hok
  obtain ⟨-, rfl⟩ := hok
  have hguest : Undelimited (text "guest") := by decide
  exact { hclean with users := Table.forall_insertOrNothing hclean.users ⟨hid, hpw, hguest⟩ }

theorem clean_changeNickname (hclean : db.Clean) {id nickname : Bytes}
    (hnickname : Undelimited nickname) {result : Bool}
    (hok : Transaction.changeNickname id nickname db = .ok (result, next)) : next.Clean := by
  simp only [Transaction.changeNickname, Except.ok.injEq, Prod.mk.injEq] at hok
  obtain ⟨-, rfl⟩ := hok
  exact { hclean with
    users := Table.forall_updateWhere hclean.users _ fun row hrow ↦ ⟨hrow.1, hrow.2.1, hnickname⟩ }

theorem clean_insertFriendship (hclean : db.Clean) {now : Int} {first second : Bytes}
    (hfirst : Undelimited first) (hsecond : Undelimited second) {result : Bool}
    (hok : Transaction.insertFriendship now first second db = .ok (result, next)) : next.Clean := by
  have hmin : Undelimited (min first second) := by
    rcases min_choice first second with hsame | hsame <;> rw [hsame] <;> assumption
  have hmax : Undelimited (max first second) := by
    rcases max_choice first second with hsame | hsame <;> rw [hsame] <;> assumption
  obtain ⟨-, ⟨-, -, rfl⟩ | ⟨-, -, -, -, rfl⟩⟩ := Transaction.insertFriendship_cases hok
  · exact hclean
  · exact { hclean with friendships := Table.forall_concat hclean.friendships ⟨hmin, hmax⟩ }

theorem clean_removeFriend (hclean : db.Clean) {userId friendId : Bytes} {result : Bool}
    (hok : Transaction.removeFriend userId friendId db = .ok (result, next)) : next.Clean := by
  simp only [Transaction.removeFriend, Except.ok.injEq, Prod.mk.injEq] at hok
  obtain ⟨-, rfl⟩ := hok
  exact { hclean with friendships := Table.forall_deleteWhere hclean.friendships _ }

theorem clean_requestFriend (hclean : db.Clean) {now : Int} {fromUserId toUserId : Bytes}
    (hfrom : Undelimited fromUserId) (hto : Undelimited toUserId) {result : Bool}
    (hok : Transaction.requestFriend now fromUserId toUserId db = .ok (result, next)) :
    next.Clean := by
  rcases Transaction.requestFriend_cases hok with ⟨-, -, rfl⟩ | ⟨-, -,
    ⟨-, -, -, -, rfl⟩ | ⟨-, revived, rfl, -, rfl⟩⟩
  · exact hclean
  · exact { hclean with
      friendRequests := Table.forall_concat hclean.friendRequests ⟨hfrom, hto⟩ }
  · exact { hclean with
      friendRequests := Table.forall_updateWhere hclean.friendRequests _ fun _ hrow ↦ hrow }

theorem clean_answerRequest (hclean : db.Clean) (status : RequestStatus) (now : Int)
    (fromUserId toUserId : Bytes) :
    ({ db with friendRequests :=
        (Transaction.answerRequest status now fromUserId toUserId db.friendRequests).1 } :
      Database Bytes).Clean :=
  { hclean with
    friendRequests := Table.forall_updateWhere hclean.friendRequests _ fun _ hrow ↦ hrow }

theorem clean_acceptFriendRequest (hclean : db.Clean) {now : Int} {fromUserId toUserId : Bytes}
    (hfrom : Undelimited fromUserId) (hto : Undelimited toUserId) {result : Bool}
    (hok : Transaction.acceptFriendRequest now fromUserId toUserId db = .ok (result, next)) :
    next.Clean := by
  have hanswered := clean_answerRequest hclean .accepted now fromUserId toUserId
  obtain ⟨answered, rfl, -, ⟨-, rfl⟩ | ⟨-, inserted, hinsert⟩⟩ :=
    Transaction.acceptFriendRequest_cases hok
  · exact hanswered
  · exact clean_insertFriendship hanswered hfrom hto hinsert

theorem clean_rejectFriendRequest (hclean : db.Clean) {now : Int} {fromUserId toUserId : Bytes}
    {result : Bool}
    (hok : Transaction.rejectFriendRequest now fromUserId toUserId db = .ok (result, next)) :
    next.Clean := by
  simp only [Transaction.rejectFriendRequest, Except.ok.injEq, Prod.mk.injEq] at hok
  exact hok.2 ▸ clean_answerRequest hclean .rejected now fromUserId toUserId

theorem clean_createRoom (hclean : db.Clean) {now : Int} {gap : Nat} {ownerUserId roomName : Bytes}
    (howner : Undelimited ownerUserId) (hname : Undelimited roomName) {result : Int}
    (hok : Transaction.createRoom now gap ownerUserId roomName db = .ok (result, next)) :
    next.Clean := by
  obtain ⟨-, -, rfl⟩ := Transaction.createRoom_cases hok
  exact { hclean with
    rooms := Table.forall_concat hclean.rooms ⟨hname, howner⟩
    roomMembers := Table.forall_insertOrNothing hclean.roomMembers howner }

theorem clean_deleteRoom (hclean : db.Clean) {ownerUserId : Bytes} {roomId : Int} {result : Bool}
    (hok : Transaction.deleteRoom ownerUserId roomId db = .ok (result, next)) : next.Clean := by
  rcases Transaction.deleteRoom_cases hok with ⟨-, rfl⟩ | ⟨-, -, rfl⟩
  · exact hclean
  · exact { hclean with
      rooms := Table.forall_deleteWhere hclean.rooms _
      roomMembers := Table.forall_deleteWhere hclean.roomMembers _
      messages := Table.forall_deleteWhere hclean.messages _ }

theorem clean_inviteRoom (hclean : db.Clean) {now : Int} {inviterUserId friendUserId : Bytes}
    {roomId : Int} (hfriend : Undelimited friendUserId) {result : InviteRoomResult}
    (hok : Transaction.inviteRoom now inviterUserId roomId friendUserId db = .ok (result, next)) :
    next.Clean := by
  rcases Transaction.inviteRoom_cases hok with ⟨-, rfl⟩ | ⟨-, -, -, -, -, -, rfl⟩
  · exact hclean
  · exact { hclean with roomMembers := Table.forall_concat hclean.roomMembers hfriend }

theorem clean_createRoomMessage (hclean : db.Clean) {now : Int} {gap : Nat} {roomId : Int}
    {senderUserId body : Bytes} (hsender : Undelimited senderUserId) (hbody : Undelimited body)
    {result : Option Int}
    (hok : Transaction.createRoomMessage now gap roomId senderUserId body db =
      .ok (result, next)) : next.Clean := by
  rcases Transaction.createRoomMessage_cases hok with ⟨-, rfl⟩ | ⟨-, -, -, -, rfl⟩
  · exact hclean
  · exact { hclean with messages := Table.forall_concat hclean.messages ⟨hsender, hbody⟩ }

theorem clean_leaveRoom (hclean : db.Clean) {asked userId : Bytes} {roomId : Int}
    {result : LeaveRoomResult}
    (hok : Transaction.leaveRoom asked userId roomId db = .ok (result, next)) : next.Clean := by
  rcases Transaction.leaveRoom_cases hok with ⟨-, rfl⟩ | ⟨-, -, -, rfl⟩
  · exact hclean
  · exact { hclean with roomMembers := Table.forall_deleteWhere hclean.roomMembers _ }

/-! ### Reading calls -/

theorem clean_login (hclean : db.Clean) {id pw nickname : Bytes}
    (hlogin : Transaction.login id pw db = some nickname) : Undelimited nickname := by
  obtain ⟨row, hrow, rfl⟩ := Option.map_eq_some_iff.mp hlogin
  exact (hclean.users row (List.mem_of_find?_eq_some hrow)).2.2

theorem clean_listFriends (hclean : db.Clean) {userId friendId : Bytes}
    (hfriend : friendId ∈ Transaction.listFriends userId db) : Undelimited friendId := by
  unfold Transaction.listFriends at hfriend
  rw [List.mem_insertionSort, List.mem_map] at hfriend
  obtain ⟨row, hrow, rfl⟩ := hfriend
  have hrow := hclean.friendships row (List.mem_filter.mp hrow).1
  split_ifs
  · exact hrow.2
  · exact hrow.1

theorem clean_listFriendRequests (hclean : db.Clean) {userId fromUserId : Bytes}
    (hfrom : fromUserId ∈ Transaction.listFriendRequests userId db) : Undelimited fromUserId := by
  unfold Transaction.listFriendRequests at hfrom
  obtain ⟨row, hrow, rfl⟩ := List.mem_map.mp hfrom
  rw [List.mem_insertionSort] at hrow
  exact (hclean.friendRequests row (List.mem_filter.mp hrow).1).1

theorem clean_listRooms (hclean : db.Clean) {userId : Bytes} {room : RoomInfo Bytes}
    (hroom : room ∈ Transaction.listRooms userId db) :
    Undelimited room.name ∧ Undelimited room.ownerUserId := by
  obtain ⟨row, hrow, hname, howner⟩ := row_of_listRooms hroom
  rw [← hname, ← howner]
  exact hclean.rooms row hrow

theorem clean_listRoomMessages (hclean : db.Clean) {userId : Bytes} {roomId : Int} {limit : Nat}
    {history : List (MessageInfo Bytes)}
    (hhistory : Transaction.listRoomMessages userId roomId limit db = some history) :
    ∀ msg ∈ history, Undelimited msg.senderUserId ∧ Undelimited msg.body := by
  unfold Transaction.listRoomMessages at hhistory
  dsimp only at hhistory
  split_ifs at hhistory
  rw [← Option.some.inj hhistory]
  intro msg hmsg
  obtain ⟨row, hrow, rfl⟩ := List.mem_map.mp hmsg
  rw [List.mem_insertionSort] at hrow
  have hnewest := List.mem_of_mem_take hrow
  rw [List.mem_insertionSort] at hnewest
  exact hclean.messages row (List.mem_filter.mp hnewest).1

/-! ### What a task leaves and queues -/

/-- PostgreSQL writes a timestamp without delimiters. -/
def DbEnv.TimestampsUndelimited (env : DbEnv) : Prop :=
  ∀ createdAt, Undelimited (env.timestampText createdAt)

/-- A task leaves a clean database and queues clean commands with replies of one kind. -/
structure Cleanly (kind : Bytes → Prop) (executed : DbExecutor.Executed) : Prop where
  db : executed.1.Clean
  commands : ∀ command ∈ executed.2, command.Carries kind

variable {env : DbEnv} {kind : Bytes → Prop} {fd : Int}

omit [LinearOrder Bytes] in
theorem carries_reply {message : Bytes} (hmessage : kind message) :
    (DbExecutor.reply fd message).Carries kind :=
  ⟨message, rfl, hmessage⟩

omit [LinearOrder Bytes] in
theorem cleanly_reply (hclean : db.Clean) {message : Bytes} (hmessage : kind message) :
    Cleanly kind (db, [DbExecutor.reply fd message]) :=
  ⟨hclean, List.forall_mem_singleton.mpr (carries_reply hmessage)⟩

omit [LinearOrder Bytes] in
/-- A header and a line for each item. -/
theorem cleanly_list (hclean : db.Clean) {Item : Type} {header : Bytes} {line : Item → Bytes}
    {items : List Item} (hheader : kind header) (hline : ∀ item ∈ items, kind (line item)) :
    Cleanly kind (db, DbExecutor.reply fd header ::
      items.map fun item ↦ DbExecutor.reply fd (line item)) := by
  refine ⟨hclean, List.forall_mem_cons.mpr ⟨carries_reply hheader, fun command hcommand ↦ ?_⟩⟩
  obtain ⟨item, hitem, rfl⟩ := List.mem_map.mp hcommand
  exact carries_reply (hline item hitem)

omit [LinearOrder Bytes] in
/-- A refresh queues no string that a client reads. -/
theorem carries_refresh {make : List Int → RegistryCommand}
    (hmake : make = .setJoinedRooms fd ∨ ∃ userId, make = .setJoinedRoomsForUser userId)
    (rooms : Except DbError (List Int)) :
    ∀ command ∈ DbExecutor.refresh make rooms, command.Carries kind := by
  intro command hcommand
  obtain ⟨roomIds, rfl⟩ := mem_refresh hcommand
  rcases hmake with rfl | ⟨userId, rfl⟩ <;> exact trivial

omit [LinearOrder Bytes] in
theorem cleanly_replyResult {result : Except DbError Bool × Database Bytes}
    (hclean : result.2.Clean) {failed refused done : Bytes} (hfailed : kind failed)
    (hrefused : kind refused) (hdone : kind done) :
    Cleanly kind (DbExecutor.replyResult fd result failed refused done) := by
  unfold DbExecutor.replyResult
  cases result.1 with
  | error error => exact cleanly_reply hclean hfailed
  | ok value =>
    cases value
    · exact cleanly_reply hclean hrefused
    · exact cleanly_reply hclean hdone

omit [LinearOrder Bytes] in
/-- A text of the source, a number after it. -/
theorem isLabel_number {front : Bytes} (hfront : IsLabel front) (number : Int) :
    IsLabel (front ++ toText number) :=
  hfront.append (isToken_toText number).undelimited

theorem cleanly_login (hclean : db.Clean) {id pw : Bytes} (hid : Undelimited id) :
    Cleanly IsToken (DbExecutor.executeLogin env fd id pw db) := by
  have hguest : Undelimited (text "guest") := by decide
  have hfailed : IsToken (text "login failed") := by decide
  have hsuccess : IsToken (text "login success") := by decide
  have herror : Cleanly IsToken (db, DbExecutor.loginError fd) := by
    refine ⟨hclean, ?_⟩
    unfold DbExecutor.loginError
    simp only [List.forall_mem_cons]
    exact ⟨carries_reply hfailed, undelimited_nil, trivial, hguest, List.forall_mem_nil _⟩
  unfold DbExecutor.executeLogin
  cases hlogin : env.read 0 (DbService.login id pw db) with
  | error error => exact herror
  | ok found =>
    cases found with
    | none =>
      refine ⟨hclean, ?_⟩
      simp only [List.forall_mem_cons]
      exact ⟨undelimited_nil, trivial, hguest, carries_reply hfailed, List.forall_mem_nil _⟩
    | some nickname =>
      dsimp only
      cases env.read 1 (DbExecutor.loadJoinedRoomIds id db) with
      | error error => exact herror
      | ok roomIds =>
        have hnickname := clean_login hclean (read_eq_ok hlogin).2.symm
        refine ⟨hclean, ?_⟩
        simp only [List.forall_mem_cons]
        exact ⟨hid, trivial, hnickname, carries_reply hsuccess, List.forall_mem_nil _⟩

theorem cleanly_register (hclean : db.Clean) {id pw : Bytes} (hid : Undelimited id)
    (hpw : Undelimited pw) :
    Cleanly IsPlainReply (DbExecutor.executeRegister env fd id pw db) := by
  have hnext := @write_preserves env db _ hclean _ 0 _ fun _ _ ↦
    clean_signup hclean hid.sqlText hpw.sqlText
  unfold DbExecutor.executeRegister
  dsimp only
  cases (env.write 0 db (DbService.signup id pw db)).1 with
  | error error => exact cleanly_reply hnext (by decide)
  | ok created => cases created <;> exact cleanly_reply hnext (by decide)

theorem cleanly_nick (hclean : db.Clean) {userId nick : Bytes} (hnick : Undelimited nick) :
    Cleanly IsPlainReply (DbExecutor.executeNick env fd userId nick db) := by
  have hnext := @write_preserves env db _ hclean _ 0 _ fun _ _ ↦
    @clean_changeNickname _ _ _ hclean (sqlText userId) _ hnick.sqlText _
  unfold DbExecutor.executeNick
  dsimp only
  cases (env.write 0 db (DbService.changeNickname userId nick db)).1 with
  | error error => exact cleanly_reply hnext (by decide)
  | ok changed =>
    cases changed with
    | false => exact cleanly_reply hnext (by decide)
    | true =>
      refine ⟨hnext, List.forall_mem_cons.mpr ⟨hnick, ?_⟩⟩
      exact List.forall_mem_singleton.mpr (carries_reply (by decide))

theorem cleanly_listFriend (hclean : db.Clean) (userId : Bytes) :
    Cleanly IsPlainReply (DbExecutor.executeListFriend env fd userId db) := by
  unfold DbExecutor.executeListFriend
  cases hread : env.read 0 (DbService.listFriends userId db) with
  | error error => exact cleanly_reply hclean (by decide)
  | ok friendIds =>
    rw [(read_eq_ok hread).2]
    dsimp only
    split_ifs
    · exact cleanly_reply hclean (by decide)
    · exact ⟨hclean, List.forall_mem_singleton.mpr fun _ ↦ clean_listFriends hclean⟩

theorem cleanly_listFriendRequest (hclean : db.Clean) (userId : Bytes) :
    Cleanly IsPlainReply (DbExecutor.executeListFriendRequest env fd userId db) := by
  unfold DbExecutor.executeListFriendRequest
  cases hread : env.read 0 (DbService.listFriendRequests userId db) with
  | error error => exact cleanly_reply hclean (by decide)
  | ok fromUserIds =>
    rw [(read_eq_ok hread).2]
    dsimp only
    split_ifs
    · exact cleanly_reply hclean (by decide)
    · refine cleanly_list hclean (isLabel_number (by decide) _).isPlainReply
        fun fromUserId hfrom ↦ ?_
      have hlabel : IsLabel (text "from: ") := by decide
      exact (hlabel.append (clean_listFriendRequests hclean hfrom)).isPlainReply

/-! ### Rooms -/

theorem cleanly_say (hclean : db.Clean) {userId roomId message : Bytes}
    (huser : Undelimited userId) (hmessage : Undelimited message) :
    Cleanly IsPlainReply (DbExecutor.executeSay env fd userId roomId message db) := by
  unfold DbExecutor.executeSay
  cases DbExecutor.parseRoomId roomId with
  | none => exact cleanly_reply hclean (by decide)
  | some roomId =>
    have hnext := @write_preserves env db _ hclean _ 0 _ fun _ _ ↦
      @clean_createRoomMessage _ _ _ hclean env.now env.gap roomId _ _ huser.sqlText
        hmessage.sqlText _
    dsimp only
    cases (env.write 0 db
      (DbService.createRoomMessage env.now env.gap roomId userId message db)).1 with
    | error error => exact cleanly_reply hnext (by decide)
    | ok created =>
      cases created with
      | none => exact cleanly_reply hnext (by decide)
      | some id => exact ⟨hnext, List.forall_mem_singleton.mpr ⟨message, rfl, hmessage⟩⟩

theorem cleanly_createRoom (hclean : db.Clean) {userId roomName : Bytes}
    (huser : Undelimited userId) (hname : Undelimited roomName) :
    Cleanly IsPlainReply (DbExecutor.executeCreateRoom env fd userId roomName db) := by
  unfold DbExecutor.executeCreateRoom
  by_cases hempty : roomName = []
  · rw [if_pos hempty]
    exact cleanly_reply hclean (by decide)
  rw [if_neg hempty]
  have hnext := @write_preserves env db _ hclean _ 0 _ fun _ _ ↦
    @clean_createRoom _ _ _ hclean env.now env.gap _ _ huser.sqlText hname.sqlText _
  dsimp only
  cases (env.write 0 db (DbService.createRoom env.now env.gap userId roomName db)).1 with
  | error error => exact cleanly_reply hnext (by decide)
  | ok roomId =>
    have hlabel : IsLabel (text "room created: ") := by decide
    have hopen : Undelimited (text " (") := by decide
    have hclose : Undelimited (text ")") := by decide
    have hmessage := (((isLabel_number hlabel roomId).append hopen).append hname).append hclose
    exact ⟨hnext, List.forall_mem_cons.mpr
      ⟨carries_reply hmessage.isPlainReply, carries_refresh (Or.inl rfl) _⟩⟩

theorem cleanly_deleteRoom (hclean : db.Clean) (userId value : Bytes) :
    Cleanly IsPlainReply (DbExecutor.executeDeleteRoom env fd userId value db) := by
  unfold DbExecutor.executeDeleteRoom
  cases DbExecutor.parseRoomId value with
  | none => exact cleanly_reply hclean (by decide)
  | some roomId =>
    have hnext := @write_preserves env db _ hclean _ 0 _ fun _ _ ↦
      @clean_deleteRoom _ _ _ hclean (sqlText userId) roomId _
    dsimp only
    cases (env.write 0 db (DbService.deleteRoom userId roomId db)).1 with
    | error error => exact cleanly_reply hnext (by decide)
    | ok deleted =>
      cases deleted with
      | false => exact cleanly_reply hnext (by decide)
      | true =>
        refine ⟨hnext, List.forall_mem_append.mpr ⟨carries_refresh (Or.inl rfl) _, ?_⟩⟩
        refine List.forall_mem_singleton.mpr (carries_reply ?_)
        exact (isLabel_number (by decide) roomId).isPlainReply

theorem cleanly_inviteRoom (hclean : db.Clean) {userId value friendUserId : Bytes}
    (hfriend : Undelimited friendUserId) :
    Cleanly IsPlainReply (DbExecutor.executeInviteRoom env fd userId value friendUserId db) := by
  unfold DbExecutor.executeInviteRoom
  by_cases hself : userId = friendUserId
  · rw [if_pos hself]
    exact cleanly_reply hclean (by decide)
  rw [if_neg hself]
  cases DbExecutor.parseRoomId value with
  | none => exact cleanly_reply hclean (by decide)
  | some roomId =>
    have hnext := @write_preserves env db _ hclean _ 0 _ fun _ _ ↦
      @clean_inviteRoom _ _ _ hclean env.now (sqlText userId) _ roomId hfriend.sqlText _
    dsimp only
    cases (env.write 0 db (DbService.inviteRoom env.now userId roomId friendUserId db)).1 with
    | error error => exact cleanly_reply hnext (by decide)
    | ok result =>
      cases result with
      | invited =>
        have hlabel : IsLabel (text "room invite sent: room=") := by decide
        have huser : Undelimited (text " user=") := by decide
        have hmessage := ((isLabel_number hlabel roomId).append huser).append hfriend
        refine ⟨hnext, List.forall_mem_append.mpr ⟨List.forall_mem_append.mpr ⟨?_, ?_⟩, ?_⟩⟩
        · exact @carries_refresh _ fd _ (Or.inr ⟨_, rfl⟩) _
        · exact @carries_refresh _ fd _ (Or.inr ⟨_, rfl⟩) _
        · exact List.forall_mem_singleton.mpr (carries_reply hmessage.isPlainReply)
      | _ => exact cleanly_reply hnext (by decide)

theorem cleanly_leaveRoom (hclean : db.Clean) (userId value : Bytes) :
    Cleanly IsPlainReply (DbExecutor.executeLeaveRoom env fd userId value db) := by
  unfold DbExecutor.executeLeaveRoom
  cases DbExecutor.parseRoomId value with
  | none => exact cleanly_reply hclean (by decide)
  | some roomId =>
    have hnext := @write_preserves env db _ hclean _ 0 _ fun _ _ ↦
      @clean_leaveRoom _ _ _ hclean userId (sqlText userId) roomId _
    dsimp only
    cases (env.write 0 db (DbService.leaveRoom userId roomId db)).1 with
    | error error => exact cleanly_reply hnext (by decide)
    | ok result =>
      cases result with
      | left =>
        refine ⟨hnext, List.forall_mem_append.mpr ⟨@carries_refresh _ fd _ (Or.inr ⟨_, rfl⟩) _, ?_⟩⟩
        refine List.forall_mem_singleton.mpr (carries_reply ?_)
        exact (isLabel_number (by decide) roomId).isPlainReply
      | _ => exact cleanly_reply hnext (by decide)

theorem cleanly_listRoom (hclean : db.Clean) (userId : Bytes) :
    Cleanly IsPlainReply (DbExecutor.executeListRoom env fd userId db) := by
  unfold DbExecutor.executeListRoom
  cases hread : env.read 0 (DbService.listRooms userId db) with
  | error error => exact cleanly_reply hclean (by decide)
  | ok rooms =>
    rw [(read_eq_ok hread).2]
    dsimp only
    split_ifs
    · exact cleanly_reply hclean (by decide)
    · refine cleanly_list hclean (isLabel_number (by decide) _).isPlainReply fun room hroom ↦ ?_
      obtain ⟨hname, howner⟩ := clean_listRooms hclean hroom
      have hlabel : IsLabel (text "room: id=") := by decide
      have hnameLabel : Undelimited (text " name=") := by decide
      have hownerLabel : Undelimited (text " owner=") := by decide
      have hmembers : Undelimited (text " members=") := by decide
      have hfront := (((isLabel_number hlabel room.id).append hnameLabel).append hname).append
        hownerLabel
      exact (isLabel_number ((hfront.append howner).append hmembers) _).isPlainReply

theorem cleanly_history (henv : env.TimestampsUndelimited) (hclean : db.Clean)
    (userId value count : Bytes) :
    Cleanly IsPlainReply (DbExecutor.executeHistory env fd userId value count db) := by
  unfold DbExecutor.executeHistory
  cases DbExecutor.parseRoomId value with
  | none => exact cleanly_reply hclean (by decide)
  | some roomId =>
    cases DbExecutor.parseLimit count with
    | none => exact cleanly_reply hclean (by decide)
    | some limit =>
      dsimp only
      cases hread : env.read 0 (DbService.listRoomMessages userId roomId limit db) with
      | error error => exact cleanly_reply hclean (by decide)
      | ok found =>
        cases found with
        | none => exact cleanly_reply hclean (by decide)
        | some history =>
          have hlabel : IsLabel (text "history: room=") := by decide
          have hcount : Undelimited (text " count=") := by decide
          refine cleanly_list hclean
            (isLabel_number ((isLabel_number hlabel roomId).append hcount) _).isPlainReply
            fun msg hmsg ↦ ?_
          obtain ⟨hsender, hbody⟩ :=
            clean_listRoomMessages hclean (read_eq_ok hread).2.symm msg hmsg
          have hline : IsLabel (text "history: id=") := by decide
          have hat : Undelimited (text " at=") := by decide
          have hfrom : Undelimited (text " from=") := by decide
          have htext : Undelimited (text " text=") := by decide
          have hfront := ((isLabel_number hline msg.id).append hat).append (henv msg.createdAt)
          exact ((((hfront.append hfrom).append hsender).append htext).append hbody).isPlainReply

/-! ### Every command -/

variable {task : Task}

omit [LinearOrder Bytes] in
theorem cleanly_loginFirst (hclean : db.Clean) {executed : DbExecutor.Executed}
    (hexecuted : Cleanly IsPlainReply executed) :
    Cleanly IsPlainReply (DbExecutor.loginFirst task db executed) := by
  unfold DbExecutor.loginFirst
  split_ifs
  · exact cleanly_reply hclean (by decide)
  · exact hexecuted

/-- Everything but a login is answered with plain replies. -/
theorem plain_execute (henv : env.TimestampsUndelimited) (hclean : db.Clean) (htask : task.Clean)
    (hlogin : ∀ id pw, task.cmd ≠ .cmdLogin id pw) :
    Cleanly IsPlainReply (DbExecutor.execute env task db) := by
  rcases task with ⟨cmd, fd, userId⟩
  have huser : Undelimited userId := htask.userId
  have hfields : ∀ field ∈ cmd.fields, Undelimited field :=
    fun field hfield ↦ (htask.cmd field hfield).undelimited
  cases cmd with
  | cmdLogin id pw => exact absurd rfl (hlogin id pw)
  | cmdRegister id pw =>
    exact cleanly_register hclean (hfields id (by simp [Command.fields]))
      (hfields pw (by simp [Command.fields]))
  | cmdResponse message => exact ⟨hclean, List.forall_mem_nil _⟩
  | cmdSay roomId message =>
    exact cleanly_loginFirst hclean
      (cleanly_say hclean huser (hfields message (by simp [Command.fields])))
  | cmdNick nick =>
    exact cleanly_loginFirst hclean
      (cleanly_nick hclean (hfields nick (by simp [Command.fields])))
  | cmdFriendRequest toUserId =>
    refine cleanly_loginFirst hclean ?_
    unfold DbExecutor.executeFriendRequest
    split_ifs
    · exact cleanly_reply hclean (by decide)
    · have hto := hfields toUserId (by simp [Command.fields])
      exact cleanly_replyResult
        (write_preserves hclean fun _ _ ↦ clean_requestFriend hclean huser.sqlText hto.sqlText)
        (by decide) (by decide) (by decide)
  | cmdFriendAccept fromUserId =>
    have hfrom := hfields fromUserId (by simp [Command.fields])
    exact cleanly_loginFirst hclean (cleanly_replyResult
      (write_preserves hclean fun _ _ ↦
        clean_acceptFriendRequest hclean hfrom.sqlText huser.sqlText)
      (by decide) (by decide) (by decide))
  | cmdFriendReject fromUserId =>
    exact cleanly_loginFirst hclean (cleanly_replyResult
      (write_preserves hclean fun _ _ ↦ clean_rejectFriendRequest hclean)
      (by decide) (by decide) (by decide))
  | cmdFriendRemove friendUserId =>
    refine cleanly_loginFirst hclean ?_
    unfold DbExecutor.executeFriendRemove
    split_ifs
    · exact cleanly_reply hclean (by decide)
    · exact cleanly_replyResult (write_preserves hclean fun _ _ ↦ clean_removeFriend hclean)
        (by decide) (by decide) (by decide)
  | cmdListFriend => exact cleanly_loginFirst hclean (cleanly_listFriend hclean userId)
  | cmdListFriendRequest =>
    exact cleanly_loginFirst hclean (cleanly_listFriendRequest hclean userId)
  | cmdCreateRoom roomName =>
    exact cleanly_loginFirst hclean
      (cleanly_createRoom hclean huser (hfields roomName (by simp [Command.fields])))
  | cmdDeleteRoom roomId =>
    exact cleanly_loginFirst hclean (cleanly_deleteRoom hclean userId roomId)
  | cmdInviteRoom roomId friendUserId =>
    exact cleanly_loginFirst hclean
      (cleanly_inviteRoom hclean (hfields friendUserId (by simp [Command.fields])))
  | cmdLeaveRoom roomId => exact cleanly_loginFirst hclean (cleanly_leaveRoom hclean userId roomId)
  | cmdListRoom => exact cleanly_loginFirst hclean (cleanly_listRoom hclean userId)
  | cmdHistory roomId limit =>
    exact cleanly_loginFirst hclean (cleanly_history henv hclean userId roomId limit)

/-- A task on a clean database leaves it clean and queues clean commands. -/
theorem clean_execute (henv : env.TimestampsUndelimited) (hclean : db.Clean)
    (htask : task.Clean) : Cleanly IsToken (DbExecutor.execute env task db) := by
  by_cases hlogin : ∃ id pw, task.cmd = .cmdLogin id pw
  · obtain ⟨id, pw, hcmd⟩ := hlogin
    have hid : Undelimited id := by
      refine (htask.cmd id ?_).undelimited
      rw [hcmd]
      exact List.mem_cons_self
    unfold DbExecutor.execute
    rw [hcmd]
    exact cleanly_login hclean hid
  · have hplain := plain_execute henv hclean htask fun id pw hcmd ↦ hlogin ⟨id, pw, hcmd⟩
    exact ⟨hplain.db, fun command hcommand ↦
      (hplain.commands command hcommand).mono fun _ hreply ↦ hreply.toIsToken⟩

end Tasks

end ChatServer
