import ChatServer.Database.ExecutedCalls
import ChatServer.Server.Confidentiality

/-!
# Whom the broadcasts of a room reach

Every connection of every member should be filed under the room once nothing is under way. After
`invite_room` and `leave_room` all connections of the users concerned are refreshed, but after
`create_room` only the connection of the task is: in the run `secondSession` the other connection of
the user who created the room is never filed under it. As the refresh of `create_room` and
`delete_room` gives a connection the rooms of the user of the task, a connection that is logged in
as somebody else by then loses its own. And `invite_room` refreshes the connections under the text
it was given, which need not be those of the user whom PostgreSQL reads in it and who comes into the
room: in the run `cutInvitation` the text has a NUL.

In every run in which no refresh fails, a user who creates a room has no other connection, and the
refreshes find the users they are for, every member is reached (`membersReached_of_served`).
-/

set_option autoImplicit false
set_option relaxedAutoImplicit false

namespace ChatServer

namespace ServerState

/-- Nothing is under way: no task waits, no command is to be handled, and the worker has none left
to queue. -/
def Idle (state : ServerState) : Prop :=
  state.tasks = [] ∧ state.queued = [] ∧ state.todo = []

/-- Every connection with a user is filed under every room of the user, so the broadcasts of these
rooms reach it. -/
def MembersReached (state : ServerState) : Prop :=
  ∀ fd si, state.registry.infos.lookup fd = some si → si.userId ≠ [] →
    ∀ roomId, state.db.IsMember roomId si.userId →
      roomId ∈ si.joinedRoomIds ∧ ∀ env senderFd cmd,
        (fd, si.userId) ∈
          recipients (state.registry.handleCommand env (.roomBroadcast senderFd roomId cmd)).2

end ServerState

/-- No refresh fails; a user who creates a room has no other connection; a task creates or deletes a
room only when the user of the task is the one logged in on its connection, or nobody is; and a text
that invites a friend has no NUL, or the friend has no connection. -/
def RoomsServed [LinearOrder Bytes] (state : ServerState) (label : ServerLabel) : Prop :=
  FreshDescriptor state label ∧
  match label with
  | .take env => (env.fails 1 = none ∧ env.fails 2 = none) ∧ ∀ entry ∈ state.tasks.head?,
      (createsRoom env entry.task state.db →
        state.pipeline.settledAs (sqlText entry.task.userId) ⊆ {entry.task.fd}) ∧
      (createsRoom env entry.task state.db ∨ deletesRoom env entry.task state.db →
        ∀ view ∈ state.pipeline.settled entry.task.fd,
          view.1 ≠ [] → view.1 = entry.task.userId) ∧
      ∀ friendUserId ∈ invitesFriend env entry.task state.db,
        0 ∉ friendUserId ∨ state.pipeline.settledAs (sqlText friendUserId) = ∅
  | _ => True

instance [LinearOrder Bytes] (state : ServerState) (label : ServerLabel) :
    Decidable (RoomsServed state label) :=
  match label with
  | .take env => inferInstanceAs (Decidable (True ∧ (env.fails 1 = none ∧ env.fails 2 = none) ∧
      ∀ entry ∈ state.tasks.head?,
        (createsRoom env entry.task state.db →
          state.pipeline.settledAs (sqlText entry.task.userId) ⊆ {entry.task.fd}) ∧
        (createsRoom env entry.task state.db ∨ deletesRoom env entry.task state.db →
          ∀ view ∈ state.pipeline.settled entry.task.fd,
            view.1 ≠ [] → view.1 = entry.task.userId) ∧
        ∀ friendUserId ∈ invitesFriend env entry.task state.db,
          0 ∉ friendUserId ∨ state.pipeline.settledAs (sqlText friendUserId) = ∅))
  | .requestRegister => inferInstanceAs (Decidable (FreshDescriptor state .requestRegister ∧ True))
  | .accept _ | .epollWait _ | .swap | .handle _ | .workDone | .dispatch _ | .dispatchDone
  | .push | .finish => isTrue ⟨trivial, trivial⟩

/-! ### Connections that are missed -/

/-- A user is logged in on two connections and creates a room on one of them. -/
def secondSession : List ServerLabel :=
  connecting 5 ++ connecting 6 ++ round [] 2 [] ++
    sending 5 [.cmdRegister (text "a") (text "p"), .cmdLogin (text "a") (text "p")] ++
    sending 6 [.cmdLogin (text "a") (text "p")] ++
    executing 1 ++ executing 4 ++ executing 4 ++ round [] 9 [] ++
    sending 5 [.cmdCreateRoom (text "r")] ++ executing 2 ++ round [] 2 []

/-- Two friends are logged in, and one invites the other to a room with a NUL behind the name. -/
def cutInvitation : List ServerLabel :=
  connecting 5 ++ connecting 6 ++ round [] 2 [] ++
    sending 5 [.cmdRegister (text "a") (text "p"), .cmdLogin (text "a") (text "p")] ++
    sending 6 [.cmdRegister (text "b") (text "p"), .cmdLogin (text "b") (text "p")] ++
    executing 1 ++ executing 4 ++ executing 1 ++ executing 4 ++ round [] 10 [] ++
    sending 5 [.cmdFriendRequest (text "b")] ++ sending 6 [.cmdFriendAccept (text "a")] ++
    sending 5 [.cmdCreateRoom (text "r"), .cmdInviteRoom (text "1") (text "b" ++ [0])] ++
    executing 1 ++ executing 1 ++ executing 2 ++ executing 3 ++ round [] 7 []

/-- In both runs nothing is under way, and a connection of a member is not filed under the room. -/
theorem secondSession_missed :
    (∃ state, (@chatServer bytewise).run ServerState.start secondSession = some state ∧
      state.Idle ∧ ¬ state.MembersReached) ∧
    ∃ state, (@chatServer bytewise).run ServerState.start cutInvitation = some state ∧
      state.Idle ∧ ¬ state.MembersReached := by
  let order := bytewise
  have hmissed : ∀ labels userId, userId ≠ [] →
      ((chatServer.run ServerState.start labels).map fun state ↦
        decide ((state.tasks = [] ∧ state.queued = [] ∧ state.todo = []) ∧
          state.registry.view 6 = some (userId, ∅) ∧ state.db.IsMember 1 userId)) = some true →
      ∃ state, chatServer.run ServerState.start labels = some state ∧
        state.Idle ∧ ¬ state.MembersReached := by
    intro labels userId hnonempty hrun
    obtain ⟨state, hstate, hfacts⟩ := Option.map_eq_some_iff.mp hrun
    obtain ⟨hidle, hview, hmember⟩ := of_decide_eq_true hfacts
    refine ⟨state, hstate, hidle, fun hreached ↦ ?_⟩
    obtain ⟨si, hinfo, hsame⟩ := Option.map_eq_some_iff.mp hview
    obtain ⟨huser, hjoined⟩ := Prod.mk.inj hsame
    have hroom := (hreached 6 si hinfo (by rw [huser]; exact hnonempty) 1
      (by rw [huser]; exact hmember)).1
    rw [hjoined] at hroom
    exact absurd hroom (Finset.notMem_empty 1)
  exact ⟨hmissed secondSession (text "a") (by decide) (by decide +kernel),
    hmissed cutInvitation (text "b") (by decide) (by decide +kernel)⟩

/-! ### Views that reach -/

/-- A connection is filed under every room of its user. -/
def Database.Reached (db : Database Bytes) (view : View) : Prop :=
  view.1 ≠ [] → ∀ roomId, db.IsMember roomId view.1 → roomId ∈ view.2

namespace Database.Reached

variable {db next : Database Bytes} {view : View}

theorem without_user (hnone : view.1 = []) : db.Reached view :=
  fun huser ↦ absurd hnone huser

/-- The user has come into no room. -/
theorem mono (hreached : db.Reached view)
    (hmember : ∀ roomId, next.IsMember roomId view.1 → db.IsMember roomId view.1) :
    next.Reached view :=
  fun huser roomId hnext ↦ hreached huser roomId (hmember roomId hnext)

/-- A connection that was refreshed: only a user whom PostgreSQL reads whole is a member. -/
theorem refreshed [LinearOrder Bytes] (hvalid : db.Valid) (hwhole : db.IdsWhole) (userId : Bytes) :
    db.Reached (userId, positiveRooms (DbExecutor.loadJoinedRoomIds userId db)) := by
  intro _ roomId hmember
  refine (mem_positiveRooms_loadJoinedRoomIds hvalid).mpr ?_
  rw [sqlText_eq_self_iff.mpr (hwhole.of_isMember hvalid hmember)]
  exact hmember

/-- A connection that was refreshed for the user it is logged in as, if it is logged in. -/
theorem refreshed_own [LinearOrder Bytes] (hvalid : db.Valid) (hwhole : db.IdsWhole)
    {viewUser userId : Bytes} (hown : viewUser ≠ [] → viewUser = userId) :
    db.Reached (viewUser, positiveRooms (DbExecutor.loadJoinedRoomIds userId db)) := by
  by_cases hnone : viewUser = []
  · exact without_user hnone
  · rw [hown hnone]
    exact refreshed hvalid hwhole userId

end Database.Reached

section Tasks

variable [LinearOrder Bytes] {env : DbEnv} {task : Task} {db next : Database Bytes}
  {commands : List RegistryCommand} {identity : Option Bytes} {fd : Int} {view after : View}

/-- A task keeps the members reached when its refreshes succeed and find all the connections of the
users they are for. -/
theorem Executes.reached (hexecutes : Executes env task db next commands identity)
    (hnext : next.Valid) (hwhole : next.IdsWhole) (hreads : env.fails 1 = none ∧ env.fails 2 = none)
    (hcreate : createsRoom env task db → view.1 = sqlText task.userId → task.fd = fd)
    (hown : (createsRoom env task db ∨ deletesRoom env task db) → task.fd = fd → view.1 ≠ [] →
      view.1 = task.userId)
    (hinvite : ∀ friendUserId ∈ invitesFriend env task db,
      0 ∉ friendUserId ∨ view.1 ≠ sqlText friendUserId)
    (hreached : db.Reached view) (hafter : viewAfter fd commands (some view) = some after) :
    next.Reached after := by
  cases hexecutes with
  | quiet _ hsame =>
    obtain rfl := Option.some.inj hafter
    exact hreached.mono fun roomId ↦ (hsame.isMember roomId _).mp
  | login id pw hcmd haccepted =>
    rw [viewAfter_login] at hafter
    split_ifs at hafter
    · obtain rfl := Option.some.inj hafter
      exact Database.Reached.refreshed hnext hwhole id
    · obtain rfl := Option.some.inj hafter
      exact hreached
  | logout id pw hcmd =>
    rw [viewAfter_login] at hafter
    split_ifs at hafter
    · obtain rfl := Option.some.inj hafter
      exact Database.Reached.without_user rfl
    · obtain rfl := Option.some.inj hafter
      exact hreached
  | say roomId id message _ hwrite =>
    obtain rfl := Option.some.inj hafter
    obtain ⟨-, -, rfl⟩ := createRoomMessage_eq_ok hwrite
    exact hreached
  | createRoom roomName roomId _ hcmd huser hok hwrite =>
    have hcreates := createsRoom_of_ok hcmd hok hwrite
    rw [viewAfter_refresh] at hafter
    split_ifs at hafter with hsame
    · obtain rfl := Option.some.inj hafter
      exact Database.Reached.refreshed_own hnext hwhole (hown (Or.inl hcreates) hsame.1)
    · obtain rfl := Option.some.inj hafter
      refine hreached.mono fun other hmember ↦ ?_
      refine ((isMember_createRoom hwrite other _).mp hmember).resolve_right fun hnew ↦ ?_
      exact hsame ⟨hcreate hcreates hnew.2, hreads.1⟩
  | deleteRoom value roomId _ hcmd hroom huser hok hwrite =>
    have hdeletes := deletesRoom_of_ok hcmd hroom hok hwrite
    rw [viewAfter_refresh] at hafter
    split_ifs at hafter with hsame
    · obtain rfl := Option.some.inj hafter
      exact Database.Reached.refreshed_own hnext hwhole (hown (Or.inr hdeletes) hsame.1)
    · obtain rfl := Option.some.inj hafter
      exact hreached.mono fun other hmember ↦ ((isMember_deleteRoom hwrite other _).mp hmember).1
  | inviteRoom value friendUserId roomId _ hcmd hroom hself huser hok hwrite =>
    have hinvites := invitesFriend_of_ok hcmd hroom hself hok hwrite
    rw [viewAfter_append, viewAfter_refreshForUser, viewAfter_refreshForUser] at hafter
    obtain rfl := Option.some.inj hafter
    -- the friend's refresh comes last; before it the view has the user it had
    split_ifs with hfirst hfriend hfriend
    · rw [hfriend.1.2]
      exact Database.Reached.refreshed hnext hwhole friendUserId
    · rw [hfirst.1.2]
      exact Database.Reached.refreshed hnext hwhole task.userId
    · rw [hfriend.1.2]
      exact Database.Reached.refreshed hnext hwhole friendUserId
    · by_cases hnone : view.1 = []
      · exact Database.Reached.without_user hnone
      · refine hreached.mono fun other hmember ↦ ?_
        refine ((isMember_inviteRoom hwrite other _).mp hmember).resolve_right fun hnew ↦ ?_
        rcases hinvite friendUserId hinvites with hplain | hother
        · rw [sqlText_eq_self_iff.mpr hplain] at hnew
          exact hfriend ⟨⟨hnew.2.2 ▸ hnone, hnew.2.2⟩, hreads.2⟩
        · exact hother hnew.2.2
  | leaveRoom value roomId _ hcmd hroom huser hok hwrite =>
    rw [viewAfter_refreshForUser] at hafter
    split_ifs at hafter with hsame
    · obtain rfl := Option.some.inj hafter
      rw [hsame.1.2]
      exact Database.Reached.refreshed hnext hwhole task.userId
    · obtain rfl := Option.some.inj hafter
      exact hreached.mono fun other hmember ↦ ((isMember_leaveRoom hwrite other _).mp hmember).1

end Tasks

/-! ### Runs with served rooms -/

/-- No id that the tables know has a NUL, in every state reached. -/
theorem idsWhole_of_reachable [LinearOrder Bytes] {condition : ServerState → ServerLabel → Prop}
    {state : ServerState} (hreach : chatServer.ReachableUnder condition state) :
    state.db.IdsWhole := by
  refine @pipeline_induction _ condition (fun pipeline ↦ pipeline.db.IdsWhole) idsWhole_empty ?_ _
    hreach
  intro state label next _ hwhole _ hstep
  cases hstep with
  | take env entry rest htodo htasks => exact idsWhole_execute env entry.task hwhole
  | _ => exact hwhole

/-- In every run with served rooms the views that the connections are going to have reach all
members. -/
theorem settled_reached_of_served [LinearOrder Bytes] {state : ServerState}
    (hreach : chatServer.ReachableUnder RoomsServed state) :
    ∀ fd view, state.pipeline.settled fd = some view → state.pipeline.db.Reached view := by
  have hstart : ∀ fd view, ServerState.start.pipeline.settled fd = some view →
      ServerState.start.pipeline.db.Reached view := by
    intro fd view hsettled
    cases hsettled
  refine @pipeline_induction _ RoomsServed
    (fun pipeline ↦ ∀ fd view, pipeline.settled fd = some view → pipeline.db.Reached view) hstart
    ?_ _ hreach
  intro state label next hreach hreached hcondition hstep
  have howned := owned_of_reachable hreach
  have hfresh : label = .requestRegister → ∀ fd conn, state.pipeline.acceptor = some (fd, conn) →
      ∀ queued ∈ state.pipeline.todo, queued.command.target ≠ some fd := by
    rintro rfl fd conn hacceptor
    exact (hcondition.1 (fd, conn) hacceptor).2
  have hframes := Pipeline.frames_of_step howned hfresh hstep
  have hbetween : (∀ env, label ≠ .take env) → ∀ fd view, next.settled fd = some view →
      next.db.Reached view := by
    intro hlabel fd view hsettled
    rw [(hframes hlabel).db]
    rcases (hframes hlabel).settled fd view hsettled with hold | rfl
    · exact hreached fd view hold
    · exact Database.Reached.without_user rfl
  cases hstep with
  | take env entry rest htodo htasks =>
    intro fd after hsettled
    obtain ⟨hreads, htask⟩ := hcondition.2
    obtain ⟨hcreate, hown, hinvite⟩ := htask entry (by
      show entry ∈ state.pipeline.tasks.head?
      rw [htasks]
      rfl)
    rw [Pipeline.settled_taken env htodo] at hsettled
    cases hbefore : state.pipeline.settled fd with
    | none =>
      rw [hbefore, viewAfter_relevantOf_none] at hsettled
      cases hsettled
    | some view =>
      rw [hbefore] at hsettled
      have hsettledAs : ∀ userId, view.1 = userId → fd ∈ state.pipeline.settledAs userId :=
        fun userId huser ↦ Pipeline.mem_settledAs.mpr ⟨view.2, hbefore.trans (by rw [← huser])⟩
      refine executes_execute.reached (valid_execute (valid_of_reachable hreach))
        (idsWhole_execute env entry.task (idsWhole_of_reachable hreach)) hreads
        (fun hcreates huser ↦ ?_) (fun hrefreshes hfd huser ↦ ?_)
        (fun friendUserId hinvites ↦ (hinvite friendUserId hinvites).imp_right
          fun hnone huser ↦ ?_) (hreached fd view hbefore) hsettled
      · exact (Finset.mem_singleton.mp (hcreate hcreates (hsettledAs _ huser))).symm
      · refine hown hrefreshes view ?_ huser
        rw [hfd]
        exact hbefore
      · have hmem := hsettledAs _ huser
        rw [hnone] at hmem
        exact absurd hmem (Finset.notMem_empty fd)
  | _ => exact hbetween (by simp)

/-- In every run with served rooms, once nothing is under way, every connection with a user is filed
under every room of the user, and the broadcasts of these rooms reach it. -/
theorem membersReached_of_served [LinearOrder Bytes] {state : ServerState}
    (hreach : chatServer.ReachableUnder RoomsServed state) (hidle : state.Idle) :
    state.MembersReached := by
  intro fd si hinfo huser roomId hmember
  have hview : state.registry.view fd = some (si.userId, si.joinedRoomIds) := by
    rw [EpollRegistry.view, hinfo, Option.map_some]
  have hsettled : state.pipeline.settled fd = some (si.userId, si.joinedRoomIds) := by
    have hunderWay : state.pipeline.underWay = [] := by
      show state.queued ++ state.todo = []
      rw [hidle.2.1, hidle.2.2, List.append_nil]
    rw [Pipeline.settled, hunderWay]
    exact hview
  have hjoined := settled_reached_of_served hreach fd _ hsettled huser roomId hmember
  refine ⟨hjoined, fun env senderFd cmd ↦ ?_⟩
  exact (EpollRegistry.mem_recipients_handleRoomBroadcast
    (owned_of_reachable hreach).consistent).mpr ⟨_, hview, hjoined⟩

theorem membersReached_of_served_sharing :
    ∃ state, (@chatServer bytewise).run ServerState.start sharing = some state ∧
      (state.db.IsMember 1 (text "a") ∧ state.db.IsMember 1 (text "b")) ∧
      state.MembersReached := by
  have hmeets : (@chatServer bytewise).Meets (@RoomsServed bytewise) ServerState.start sharing := by
    decide +kernel
  let order := bytewise
  have hrun : ((chatServer.run ServerState.start sharing).map fun state ↦
      decide ((state.tasks = [] ∧ state.queued = [] ∧ state.todo = []) ∧
        state.db.IsMember 1 (text "a") ∧ state.db.IsMember 1 (text "b"))) = some true := by
    decide +kernel
  obtain ⟨state, hstate, hfacts⟩ := Option.map_eq_some_iff.mp hrun
  obtain ⟨hidle, hmembers⟩ := of_decide_eq_true hfacts
  exact ⟨state, hstate, hmembers, membersReached_of_served ⟨_, hmeets, hstate⟩ hidle⟩

end ChatServer
