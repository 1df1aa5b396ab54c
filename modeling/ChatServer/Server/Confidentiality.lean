import ChatServer.Protocol.CodecGrammar
import ChatServer.Server.ExecutedIdentity
import ChatServer.Server.RoomViews

/-!
# Who receives the broadcasts of a room

A message may be sent to the members its room had when it was committed. The database decides who
they are, but the event loop delivers to the connections filed under the room. `Authorizes` says
that the rooms a connection is filed under are rooms its user is a member of, as far as they still
exist.

Three kinds of task break it. After `leave_room` is committed the rooms of the user are read again
to refresh its connections, and when that fails they stay filed under the room: in the run
`staleRefresh` the user who left receives the next message. The refresh of `create_room` and
`delete_room` gives the connection of the task the rooms of the user of the task, whoever is logged
in there by then. And a login under an id with a NUL is accepted as that of the user before the NUL,
but its connection keeps the whole text: in the run `cutLogin` it leaves the room as this user, and
the refresh misses the connections of the user. In every run without such tasks, and without the
reuse of a number that `FreshDescriptor` excludes, a broadcast reaches members only
(`confidential_of_refreshed`).
-/

set_option autoImplicit false
set_option relaxedAutoImplicit false

namespace ChatServer

/-- Every broadcast went to a user who was a member of the room when the message was committed. -/
def Ledger.Confidential (ledger : Ledger) : Prop :=
  ∀ delivery ∈ ledger.deliveries,
    delivery.userId ≠ [] ∧ delivery.userId ∈ delivery.message.members

/-- A task logs a user in only under an id that PostgreSQL reads whole; it creates or deletes a room
and refreshes its own connection only when the user of the task is the one logged in there; and the
refresh after a room is left does not fail while the user has a connection. -/
def RoomsRefreshed [LinearOrder Bytes] (state : ServerState) (label : ServerLabel) : Prop :=
  FreshDescriptor state label ∧
  match label with
  | .take env => ∀ entry ∈ state.tasks.head?,
      (∀ userId ∈ establishes env entry.task state.db, 0 ∉ userId) ∧
      (createsRoom env entry.task state.db ∨ deletesRoom env entry.task state.db →
        env.fails 1 = none →
          ∀ view ∈ state.pipeline.settled entry.task.fd, view.1 = entry.task.userId) ∧
      (leavesRoom env entry.task state.db →
        env.fails 1 = none ∨ state.pipeline.settledAs entry.task.userId = ∅)
  | _ => True

instance [LinearOrder Bytes] (state : ServerState) (label : ServerLabel) :
    Decidable (RoomsRefreshed state label) :=
  match label with
  | .take env => inferInstanceAs (Decidable (True ∧ ∀ entry ∈ state.tasks.head?,
      (∀ userId ∈ establishes env entry.task state.db, 0 ∉ userId) ∧
      (createsRoom env entry.task state.db ∨ deletesRoom env entry.task state.db →
        env.fails 1 = none →
          ∀ view ∈ state.pipeline.settled entry.task.fd, view.1 = entry.task.userId) ∧
      (leavesRoom env entry.task state.db →
        env.fails 1 = none ∨ state.pipeline.settledAs entry.task.userId = ∅)))
  | .requestRegister => inferInstanceAs (Decidable (FreshDescriptor state .requestRegister ∧ True))
  | .accept _ | .epollWait _ | .swap | .handle _ | .workDone | .dispatch _ | .dispatchDone
  | .push | .finish => isTrue ⟨trivial, trivial⟩

/-! ### Stale rooms -/

/-- The database calls of a task whose second call fails. -/
def DbEnv.secondFails : DbEnv :=
  { DbEnv.steady with fails := fun n ↦ if n = 1 then some .brokenConnection else none }

/-- Two users become friends and share a room. -/
def sharing : List ServerLabel :=
  connecting 5 ++ connecting 6 ++ round [] 2 [] ++
    sending 5 [.cmdRegister (text "a") (text "p"), .cmdLogin (text "a") (text "p")] ++
    sending 6 [.cmdRegister (text "b") (text "p"), .cmdLogin (text "b") (text "p")] ++
    executing 1 ++ executing 4 ++ executing 1 ++ executing 4 ++ round [] 10 [] ++
    sending 5 [.cmdFriendRequest (text "b")] ++ sending 6 [.cmdFriendAccept (text "a")] ++
    sending 5 [.cmdCreateRoom (text "r"), .cmdInviteRoom (text "1") (text "b")] ++
    executing 1 ++ executing 1 ++ executing 2 ++ executing 3 ++ round [] 7 []

/-- One of them leaves the room, in a task that queues so many commands, and the other says
something. -/
def leaving (env : DbEnv) (count : Nat) : List ServerLabel :=
  sharing ++ sending 6 [.cmdLeaveRoom (text "1")] ++ sending 5 [.cmdSay (text "1") (text "x")] ++
    .take env :: List.replicate count .push ++ [.finish] ++ executing 1 ++ round [] (count + 1) []

/-- The refresh of the user who left fails. -/
def staleRefresh : List ServerLabel :=
  leaving .secondFails 1

/-- A client of the accounts `a` and `b` is logged in as `a`, and sends a login as `b`, the creation
of a room and a message at once. -/
def pipelinedLogin : List ServerLabel :=
  connecting 5 ++ round [] 1 [] ++
    sending 5 [.cmdRegister (text "a") (text "p"), .cmdRegister (text "b") (text "p"),
      .cmdLogin (text "a") (text "p")] ++
    executing 1 ++ executing 1 ++ executing 4 ++ round [] 6 [] ++
    sending 5 [.cmdLogin (text "b") (text "p"), .cmdCreateRoom (text "r"),
      .cmdSay (text "1") (text "x")] ++
    executing 4 ++ executing 2 ++ executing 1 ++ round [] 7 []

/-- Somebody logs in as `b` with a NUL behind the name and leaves the room, and `a` says something.
-/
def cutLogin : List ServerLabel :=
  sharing ++ connecting 7 ++ round [] 1 [] ++
    sending 7 [.cmdLogin (text "b" ++ [0]) (text "p")] ++ executing 4 ++ round [] 4 [] ++
    sending 7 [.cmdLeaveRoom (text "1")] ++ sending 5 [.cmdSay (text "1") (text "x")] ++
    executing 2 ++ executing 1 ++ round [] 3 []

/-- In the three runs `b` receives a message of a room that only `a` is a member of. -/
theorem staleRooms_delivered :
    (∃ state, (@chatServer bytewise).run ServerState.start staleRefresh = some state ∧
      ¬ state.ledger.Confidential) ∧
    (∃ state, (@chatServer bytewise).run ServerState.start pipelinedLogin = some state ∧
      ¬ state.ledger.Confidential) ∧
    ∃ state, (@chatServer bytewise).run ServerState.start cutLogin = some state ∧
      ¬ state.ledger.Confidential := by
  let order := bytewise
  have hleak : ∀ labels, ((chatServer.run ServerState.start labels).map fun state ↦
      decide (∃ delivery ∈ state.ledger.deliveries,
        delivery.userId = text "b" ∧ delivery.message.members = [text "a"])) = some true →
      ∃ state, chatServer.run ServerState.start labels = some state ∧
        ¬ state.ledger.Confidential := by
    intro labels hrun
    obtain ⟨state, hstate, hdelivery⟩ := Option.map_eq_some_iff.mp hrun
    obtain ⟨delivery, hmem, huser, hmembers⟩ := of_decide_eq_true hdelivery
    refine ⟨state, hstate, fun hconfidential ↦ ?_⟩
    have hmember := (hconfidential delivery hmem).2
    rw [huser, hmembers] at hmember
    exact absurd hmember (by decide)
  exact ⟨hleak staleRefresh (by decide +kernel), hleak pipelinedLogin (by decide +kernel),
    hleak cutLogin (by decide +kernel)⟩

/-! ### Users read whole -/

/-- The tasks executed have established no user whose id has a NUL. -/
def Ledger.NamedWhole (ledger : Ledger) : Prop :=
  ∀ execution ∈ ledger.executed, ∀ userId ∈ execution.identity, 0 ∉ userId

section Whole

variable [LinearOrder Bytes] {state : ServerState}

theorem namedWhole_of_refreshed (hreach : chatServer.ReachableUnder RoomsRefreshed state) :
    state.ledger.NamedWhole := by
  have hstart : ServerState.start.pipeline.ledger.NamedWhole := by
    intro execution hexecution
    cases hexecution
  refine @pipeline_induction _ RoomsRefreshed (fun pipeline ↦ pipeline.ledger.NamedWhole) hstart ?_
    _ hreach
  intro state label next _ hnamed hcondition hstep
  cases hstep with
  | take env entry rest htodo htasks =>
    intro execution hexecution userId huser
    rcases List.mem_append.mp hexecution with hold | hnew
    · exact hnamed execution hold userId huser
    · obtain rfl := List.mem_singleton.mp hnew
      refine (hcondition.2 entry ?_).1 userId huser
      show entry ∈ state.pipeline.tasks.head?
      rw [htasks]
      rfl
  | _ => exact hnamed

omit [LinearOrder Bytes] in
/-- The user that a connection has from a login was established by a task. -/
theorem Ledger.NamedWhole.of_loggedIn {ledger : Ledger} (hnamed : ledger.NamedWhole)
    {userId : Bytes} (hlogged : userId ≠ [] → ∃ conn, ledger.LoggedIn conn userId) :
    0 ∉ userId := by
  by_cases huser : userId = []
  · rw [huser]
    exact List.not_mem_nil
  · obtain ⟨conn, ⟨execution, hexecution, -, hidentity⟩, -⟩ := hlogged huser
    exact hnamed execution hexecution userId hidentity

/-- PostgreSQL reads the user of a waiting task whole. -/
theorem whole_task (hreach : chatServer.ReachableUnder FreshDescriptor state)
    (hnamed : state.ledger.NamedWhole) {entry : TaskEntry} (hentry : entry ∈ state.tasks) :
    0 ∉ entry.task.userId := by
  obtain ⟨happlied, huser⟩ := (attributed_of_fresh hreach).tasks entry hentry
  rw [huser, lastIdentity]
  cases hlast : entry.applied.getLast? with
  | none => exact List.not_mem_nil
  | some last =>
    obtain ⟨execution, hexecution, hidentity⟩ :=
      List.mem_filterMap.mp (happlied.subset (List.mem_of_getLast? hlast))
    split_ifs at hidentity
    exact hnamed execution hexecution last hidentity

/-- PostgreSQL reads the user whole that a connection is going to have. -/
theorem whole_settled (hreach : chatServer.ReachableUnder FreshDescriptor state)
    (hnamed : state.ledger.NamedWhole) {fd : Int} {view : View}
    (hsettled : state.pipeline.settled fd = some view) : 0 ∉ view.1 := by
  have hrecorded := loginsRecorded_of_fresh hreach
  suffices hall : ∀ after ∈ state.pipeline.settled fd, 0 ∉ after.1 from hall view hsettled
  refine @QueuedActions.settle_preserves _ _ (viewActions fd) _ _
    (fun view ↦ ∀ after ∈ view, 0 ∉ after.1) (fun after hafter ↦ ?_)
    fun queued hqueued before hbefore after hafter ↦ ?_
  · obtain ⟨si, hinfo, rfl⟩ := Option.map_eq_some_iff.mp hafter
    refine hnamed.of_loggedIn fun huser ↦ ?_
    obtain ⟨conn, -, hlogged⟩ := hrecorded.registered fd si hinfo huser
    exact ⟨conn, hlogged⟩
  · rw [viewActions_act] at hafter
    cases before with
    | none =>
      rw [(RegistryCommand.act_none_eq_some hafter).2]
      exact List.not_mem_nil
    | some old =>
      rw [RegistryCommand.userId_act hafter]
      cases hsets : queued.command.setsUser fd with
      | none => exact hbefore old rfl
      | some userId =>
        exact hnamed.of_loggedIn fun huser ↦ ⟨queued.conn, hrecorded.commands queued hqueued fd
          userId (RegistryCommand.setsUser_eq_some.mp hsets) huser⟩

end Whole

/-! ### Views the database authorizes -/

/-- The rooms a connection is filed under are rooms its user is a member of, as far as they still
exist. -/
def Database.Authorizes (db : Database Bytes) (view : View) : Prop :=
  ∀ roomId ∈ view.2, view.1 ≠ [] ∧ roomId < db.nextRoomId ∧
    (db.IsRoom roomId → db.IsMember roomId view.1)

namespace Database.Authorizes

variable {db next : Database Bytes} {view : View}

/-- A connection without rooms. -/
theorem without_rooms (db : Database Bytes) (userId : Bytes) : db.Authorizes (userId, ∅) :=
  fun roomId hroom ↦ absurd hroom (Finset.notMem_empty roomId)

/-- The user keeps the rooms that remain, and new rooms have new ids. -/
theorem mono (hauthorizes : db.Authorizes view) (hid : db.nextRoomId ≤ next.nextRoomId)
    (hroom : ∀ roomId, roomId < db.nextRoomId → next.IsRoom roomId → db.IsRoom roomId)
    (hmember : ∀ roomId, next.IsRoom roomId → db.IsMember roomId view.1 →
      next.IsMember roomId view.1) : next.Authorizes view := by
  intro roomId hjoined
  obtain ⟨huser, hbound, hauth⟩ := hauthorizes roomId hjoined
  exact ⟨huser, hbound.trans_le hid, fun hnext ↦
    hmember roomId hnext (hauth (hroom roomId hbound hnext))⟩

/-- A connection that was refreshed. -/
theorem refreshed [LinearOrder Bytes] (hvalid : db.Valid) {userId : Bytes} (huser : userId ≠ [])
    (hwhole : 0 ∉ userId) :
    db.Authorizes (userId, positiveRooms (DbExecutor.loadJoinedRoomIds userId db)) := by
  intro roomId hjoined
  have hmember := (mem_positiveRooms_loadJoinedRoomIds hvalid).mp hjoined
  rw [sqlText_eq_self_iff.mpr hwhole] at hmember
  obtain ⟨row, hrow, hkey⟩ := id hmember
  obtain ⟨room, hroom, hid⟩ := (hvalid.roomMemberRefs row hrow).1
  have hbound := (hvalid.roomIds.2 room hroom).2
  rw [hid, (Prod.mk.inj hkey).1] at hbound
  exact ⟨huser, hbound, fun _ ↦ hmember⟩

/-- The refresh of the connections of a user. -/
theorem refreshForUser [LinearOrder Bytes] (hauthorizes : db.Authorizes view) (hvalid : db.Valid)
    (hwhole : 0 ∉ view.1) {userId : Bytes} {succeeds : Prop} [Decidable succeeds] :
    db.Authorizes (if (userId ≠ [] ∧ view.1 = userId) ∧ succeeds then
      (view.1, positiveRooms (DbExecutor.loadJoinedRoomIds userId db)) else view) := by
  split_ifs with hsame
  · rw [hsame.1.2] at hwhole ⊢
    exact refreshed hvalid hsame.1.1 hwhole
  · exact hauthorizes

/-- Creating a room takes no view away: its id is new. -/
theorem createRoom [LinearOrder Bytes] (hauthorizes : db.Authorizes view) {now : Int} {gap : Nat}
    {ownerUserId roomName : Bytes} {roomId : Int}
    (hwrite : DbService.createRoom now gap ownerUserId roomName db = .ok (roomId, next)) :
    next.Authorizes view := by
  obtain ⟨-, hid, hrooms⟩ := Transaction.createRoom_cases hwrite
  have hbound : next.nextRoomId = roomId + 1 := by rw [hrooms]
  refine hauthorizes.mono (by omega) (fun other hother hroom ↦ ?_) fun other _ hmember ↦ ?_
  · rcases (isRoom_createRoom hwrite other).mp hroom with hold | rfl
    · exact hold
    · omega
  · exact (isMember_createRoom hwrite other _).mpr (Or.inl hmember)

/-- Deleting a room takes its members, but the room is gone with them. -/
theorem deleteRoom [LinearOrder Bytes] (hauthorizes : db.Authorizes view) (hvalid : db.Valid)
    {ownerUserId : Bytes} {roomId : Int}
    (hwrite : DbService.deleteRoom ownerUserId roomId db = .ok (true, next)) :
    next.Authorizes view := by
  obtain ⟨-, hrooms⟩ := deleteRoom_eq_ok hwrite
  have hbound : next.nextRoomId = db.nextRoomId := by rw [hrooms]
  refine hauthorizes.mono (le_of_eq hbound.symm)
    (fun other _ hother ↦ (isRoom_deleteRoom hvalid hwrite hother).1) fun other hother hmember ↦ ?_
  exact (isMember_deleteRoom hwrite other _).mpr
    ⟨hmember, (isRoom_deleteRoom hvalid hwrite hother).2⟩

/-- An invitation only adds a member. -/
theorem inviteRoom [LinearOrder Bytes] (hauthorizes : db.Authorizes view) {now : Int}
    {inviterUserId friendUserId : Bytes} {roomId : Int} {result : InviteRoomResult}
    (hwrite : DbService.inviteRoom now inviterUserId roomId friendUserId db = .ok (result, next)) :
    next.Authorizes view := by
  obtain ⟨members, hrooms⟩ := inviteRoom_eq_ok hwrite
  refine hauthorizes.mono (le_of_eq (by rw [hrooms])) (fun other _ hother ↦ ?_)
    fun other _ hmember ↦ (isMember_inviteRoom hwrite other _).mpr (Or.inl hmember)
  rw [hrooms] at hother
  exact hother

/-- A leave takes nothing from the other users. -/
theorem leaveRoom [LinearOrder Bytes] (hauthorizes : db.Authorizes view) {userId : Bytes}
    {roomId : Int} {result : LeaveRoomResult}
    (hwrite : DbService.leaveRoom userId roomId db = .ok (result, next))
    (hne : view.1 ≠ sqlText userId) : next.Authorizes view := by
  obtain ⟨members, hrooms⟩ := leaveRoom_eq_ok hwrite
  refine hauthorizes.mono (le_of_eq (by rw [hrooms])) (fun other _ hother ↦ ?_)
    fun other _ hmember ↦ ?_
  · rw [hrooms] at hother
    exact hother
  · exact (isMember_leaveRoom hwrite other _).mpr ⟨hmember, fun hleft ↦ hne hleft.2.2⟩

end Database.Authorizes

section Tasks

variable [LinearOrder Bytes] {env : DbEnv} {task : Task} {db next : Database Bytes}
  {commands : List RegistryCommand} {identity : Option Bytes} {fd : Int} {view after : View}

/-- A task keeps the views authorized when its refreshes find the user they are for. -/
theorem Executes.authorizes (hexecutes : Executes env task db next commands identity)
    (hvalid : db.Valid) (hnext : next.Valid) (hfields : task.cmd.FieldsNonempty)
    (hlogin : ∀ userId ∈ identity, 0 ∉ userId) (htask : 0 ∉ task.userId) (hview : 0 ∉ view.1)
    (hown : (createsRoom env task db ∨ deletesRoom env task db) → env.fails 1 = none →
      task.fd = fd → view.1 = task.userId)
    (hleave : leavesRoom env task db → env.fails 1 = none ∨ view.1 ≠ task.userId)
    (hauthorizes : db.Authorizes view)
    (hafter : viewAfter fd commands (some view) = some after) : next.Authorizes after := by
  cases hexecutes with
  | quiet _ hsame =>
    obtain rfl := Option.some.inj hafter
    refine hauthorizes.mono (le_of_eq hsame.nextRoomId.symm)
      (fun roomId _ ↦ (hsame.isRoom roomId).mp) fun roomId _ ↦ (hsame.isMember roomId _).mpr
  | login id pw hcmd haccepted =>
    have hid : id ≠ [] := hfields id (by simp [hcmd, Command.fields])
    rw [viewAfter_login] at hafter
    split_ifs at hafter
    · obtain rfl := Option.some.inj hafter
      exact Database.Authorizes.refreshed hvalid hid (hlogin id rfl)
    · obtain rfl := Option.some.inj hafter
      exact hauthorizes
  | logout id pw hcmd =>
    rw [viewAfter_login] at hafter
    split_ifs at hafter
    · obtain rfl := Option.some.inj hafter
      exact Database.Authorizes.without_rooms db []
    · obtain rfl := Option.some.inj hafter
      exact hauthorizes
  | say roomId id message _ hwrite =>
    obtain rfl := Option.some.inj hafter
    obtain ⟨-, -, rfl⟩ := createRoomMessage_eq_ok hwrite
    exact hauthorizes
  | createRoom roomName roomId _ hcmd huser hok hwrite =>
    have hcreates := createsRoom_of_ok hcmd hok hwrite
    rw [viewAfter_refresh] at hafter
    split_ifs at hafter with hown'
    · obtain rfl := Option.some.inj hafter
      rw [hown (Or.inl hcreates) hown'.2 hown'.1]
      exact Database.Authorizes.refreshed hnext huser htask
    · obtain rfl := Option.some.inj hafter
      exact hauthorizes.createRoom hwrite
  | deleteRoom value roomId _ hcmd hroom huser hok hwrite =>
    have hdeletes := deletesRoom_of_ok hcmd hroom hok hwrite
    rw [viewAfter_refresh] at hafter
    split_ifs at hafter with hown'
    · obtain rfl := Option.some.inj hafter
      rw [hown (Or.inr hdeletes) hown'.2 hown'.1]
      exact Database.Authorizes.refreshed hnext huser htask
    · obtain rfl := Option.some.inj hafter
      exact hauthorizes.deleteRoom hvalid hwrite
  | inviteRoom value friendUserId roomId _ hcmd hroom hself huser hok hwrite =>
    rw [viewAfter_append, viewAfter_refreshForUser, viewAfter_refreshForUser] at hafter
    obtain rfl := Option.some.inj hafter
    refine ((hauthorizes.inviteRoom hwrite).refreshForUser hnext hview).refreshForUser hnext ?_
    split_ifs <;> exact hview
  | leaveRoom value roomId _ hcmd hroom huser hok hwrite =>
    have hleaves := leavesRoom_of_ok hcmd hroom hok hwrite
    rw [viewAfter_refreshForUser] at hafter
    split_ifs at hafter with hsame
    · obtain rfl := Option.some.inj hafter
      rw [hsame.1.2]
      exact Database.Authorizes.refreshed hnext huser htask
    · obtain rfl := Option.some.inj hafter
      have hne : view.1 ≠ task.userId := by
        rcases hleave hleaves with hreads | hne
        · exact fun huser' ↦ hsame ⟨⟨huser, huser'⟩, hreads⟩
        · exact hne
      rw [← sqlText_eq_self_iff.mpr htask] at hne
      exact hauthorizes.leaveRoom hwrite hne

end Tasks

/-! ### Runs with refreshed rooms -/

namespace Pipeline

variable {pipeline : Pipeline}

/-- The database authorizes the view that each connection is going to have, and the broadcasts went
and will go to members only. -/
structure Guarded (pipeline : Pipeline) : Prop where
  authorized : ∀ fd view, pipeline.settled fd = some view → pipeline.db.Authorizes view
  permitted : ∀ fd, pipeline.Permitted fd
  delivered : pipeline.ledger.Confidential

theorem Guarded.of_frames (hguarded : pipeline.Guarded) {next : Pipeline}
    (hframes : pipeline.Frames next) (hdelivered : next.ledger.Confidential) : next.Guarded := by
  refine ⟨fun fd view hsettled ↦ ?_, fun fd ↦ hframes.permitted fd (hguarded.permitted fd),
    hdelivered⟩
  rw [hframes.db]
  rcases hframes.settled fd view hsettled with hold | rfl
  · exact hguarded.authorized fd view hold
  · exact Database.Authorizes.without_rooms _ []

theorem guarded_start : ServerState.start.pipeline.Guarded where
  authorized fd view hsettled := by cases hsettled
  permitted fd := trivial
  delivered := by simp [Ledger.Confidential, ServerState.pipeline, ServerState.start]

/-- What the handling of a command delivers goes to members. -/
theorem Guarded.delivered_handled (hguarded : pipeline.Guarded) (howned : pipeline.Owned)
    (env : HandlerEnv) {queued : Queued} {rest : List Queued} (hreports : queued.Reports)
    (hqueued : pipeline.queued = queued :: rest) :
    (pipeline.handled env queued rest).ledger.Confidential := by
  intro delivery hdelivery
  rcases List.mem_append.mp hdelivery with hold | hnew
  · exact hguarded.delivered delivery hold
  unfold ChatServer.delivered at hnew
  cases hmessage : queued.message with
  | none =>
    rw [hmessage] at hnew
    cases hnew
  | some message =>
    rw [hmessage] at hnew
    obtain ⟨⟨fd, userId⟩, hrecipient, rfl⟩ := List.mem_map.mp hnew
    have hpermits : queued.Permits (pipeline.registry.view fd) := by
      have hpermitted := hguarded.permitted fd
      rw [Permitted, underWay, hqueued, List.cons_append] at hpermitted
      exact hpermitted.1
    unfold Queued.Reports at hreports
    split at hreports
    · next senderFd roomId cmd hcommand =>
      obtain ⟨reported, hreported, hroom, -⟩ := hreports
      obtain rfl : reported = message := Option.some.inj (hreported.symm.trans hmessage)
      rw [hcommand] at hrecipient
      obtain ⟨joined, hview, hjoined⟩ :=
        (EpollRegistry.mem_recipients_handleRoomBroadcast howned.consistent).mp hrecipient
      exact hpermits reported hmessage userId joined hview (hroom ▸ hjoined)
    · rw [hreports] at hmessage
      cases hmessage

/-- A task keeps its promise when its refreshes find the user they are for. -/
theorem Guarded.taken [LinearOrder Bytes] (hguarded : pipeline.Guarded) (env : DbEnv)
    {entry : TaskEntry} {rest : List TaskEntry} (htodo : pipeline.todo = [])
    (hvalid : pipeline.db.Valid) (hfields : entry.task.cmd.FieldsNonempty)
    (hlogin : ∀ userId ∈ establishes env entry.task pipeline.db, 0 ∉ userId)
    (htask : 0 ∉ entry.task.userId)
    (hwhole : ∀ fd view, pipeline.settled fd = some view → 0 ∉ view.1)
    (hown : createsRoom env entry.task pipeline.db ∨ deletesRoom env entry.task pipeline.db →
      env.fails 1 = none → ∀ view ∈ pipeline.settled entry.task.fd, view.1 = entry.task.userId)
    (hleave : leavesRoom env entry.task pipeline.db →
      env.fails 1 = none ∨ pipeline.settledAs entry.task.userId = ∅) :
    (pipeline.taken env entry rest).Guarded := by
  refine ⟨fun fd after hsettled ↦ ?_, fun fd ↦ ?_, hguarded.delivered⟩
  · rw [settled_taken env htodo] at hsettled
    cases hbefore : pipeline.settled fd with
    | none =>
      rw [hbefore, viewAfter_relevantOf_none] at hsettled
      cases hsettled
    | some view =>
      rw [hbefore] at hsettled
      refine executes_execute.authorizes hvalid (valid_execute hvalid) hfields hlogin htask
        (hwhole fd view hbefore) (fun hcreates hreads hfd ↦ hown hcreates hreads view ?_)
        (fun hleaves ↦ (hleave hleaves).imp_right fun hnone huser ↦ ?_)
        (hguarded.authorized fd view hbefore) hsettled
      · rw [hfd]
        exact hbefore
      · have hmem := mem_settledAs.mpr ⟨view.2, hbefore⟩
        rw [huser, hnone] at hmem
        exact absurd hmem (Finset.notMem_empty fd)
  · refine permitted_taken env htodo (hguarded.permitted fd) ?_
    intro roomId userId joined hroom hsettled hjoined
    obtain ⟨huser, -, hmember⟩ := hguarded.authorized fd _ hsettled roomId hjoined
    exact ⟨huser, hmember hroom⟩

end Pipeline

/-- In every run in which refreshes find the user they are for, a broadcast is delivered only to a
user who was a member of the room when the message was committed. -/
theorem confidential_of_refreshed [LinearOrder Bytes] {state : ServerState}
    (hreach : chatServer.ReachableUnder RoomsRefreshed state) : state.ledger.Confidential := by
  suffices hguarded : state.pipeline.Guarded from hguarded.delivered
  refine pipeline_induction Pipeline.guarded_start ?_ hreach
  intro state label next hreach hguarded hcondition hstep
  have howned := owned_of_reachable hreach
  have hfresh : label = .requestRegister → ∀ fd conn, state.pipeline.acceptor = some (fd, conn) →
      ∀ queued ∈ state.pipeline.todo, queued.command.target ≠ some fd := by
    rintro rfl fd conn hacceptor
    exact (hcondition.1 (fd, conn) hacceptor).2
  have hframes := Pipeline.frames_of_step howned hfresh hstep
  cases hstep with
  | take env entry rest htodo htasks =>
    have htask := hcondition.2 entry (by
      show entry ∈ state.pipeline.tasks.head?
      rw [htasks]
      rfl)
    have hfreshly : chatServer.ReachableUnder FreshDescriptor state :=
      hreach.mono fun _ _ hmeets ↦ hmeets.1
    have hnamed := namedWhole_of_refreshed hreach
    have hentry : entry ∈ state.pipeline.tasks := htasks ▸ List.mem_cons_self
    obtain ⟨line, -, hdecode⟩ := (loginsRecorded_of_fresh hfreshly).tasks entry hentry
    exact hguarded.taken env htodo (valid_of_reachable hreach) (fieldsNonempty_of_decode hdecode)
      htask.1 (whole_task hfreshly hnamed hentry) (fun _ _ ↦ whole_settled hfreshly hnamed)
      htask.2.1 htask.2.2
  | handle env queued rest hqueued =>
    refine hguarded.of_frames (hframes (by simp)) ?_
    have hreports := (ordered_of_reachable hreach.reachable).reports queued (by
      show queued ∈ state.pipeline.queued ++ state.pipeline.todo
      rw [hqueued]
      exact List.mem_append_left _ List.mem_cons_self)
    exact hguarded.delivered_handled howned env hreports hqueued
  | _ => exact hguarded.of_frames (hframes (by simp)) hguarded.delivered

theorem confidential_of_refreshed_leaving :
    ∃ state, (@chatServer bytewise).run ServerState.start (leaving .steady 2) = some state ∧
      state.ledger.deliveries.map Delivery.userId = [text "a"] ∧ state.ledger.Confidential := by
  have hmeets : (@chatServer bytewise).Meets (@RoomsRefreshed bytewise) ServerState.start
      (leaving .steady 2) := by decide +kernel
  let order := bytewise
  have hrun : ((chatServer.run ServerState.start (leaving .steady 2)).map fun state ↦
      state.ledger.deliveries.map Delivery.userId) = some [text "a"] := by decide +kernel
  obtain ⟨state, hstate, hdelivered⟩ := Option.map_eq_some_iff.mp hrun
  exact ⟨state, hstate, hdelivered, confidential_of_refreshed ⟨_, hmeets, hstate⟩⟩

end ChatServer
