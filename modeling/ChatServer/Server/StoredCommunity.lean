import ChatServer.Database.CommunityHistory
import ChatServer.Database.ExecutedCalls
import ChatServer.Server.ExecutedIdentity

/-!
# The community of the server

The worker executes one task after the other, and each makes at most one writing call. The database
of a server that runs is therefore the one after the calls of its executed tasks, whatever the
interleaving of its threads and whichever calls fail, and all that is known of sequences of calls
holds of it. `CallRecord` keeps the executed tasks with their calls.

Two results need the tasks and not only the calls. Whoever is logged in as a user gave the password
with which the first successful `register` created the account (`login_registered`). And in the runs
with fresh numbers no two users are friends unless each of them has logged in on a connection on
which they asked for it, or accepted (`friends_logged_in`). Ids and passwords are those that
PostgreSQL reads in the texts of the commands.
-/

set_option autoImplicit false
set_option relaxedAutoImplicit false

namespace ChatServer

/-- The executed tasks, oldest first, each with the call it made. -/
abbrev CallRecord := List (Execution × Option ServiceCall)

section Server

variable [LinearOrder Bytes]

/-- The record after an action. -/
def callsAfter (state : ServerState) (label : ServerLabel) (_next : ServerState)
    (record : CallRecord) : CallRecord :=
  match label, state.tasks with
  | .take env, entry :: _ =>
    record ++ [(⟨entry, establishes env entry.task state.db⟩,
      DbExecutor.performs env entry.task)]
  | _, _ => record

/-- The server with its executed tasks and their calls. -/
def callingServer : TransitionSystem (ServerState × CallRecord) ServerLabel :=
  chatServer.withRecord [] callsAfter

/-- The calls of a record. -/
def CallRecord.calls (record : CallRecord) : List ServiceCall :=
  record.filterMap Prod.snd

/-- The database accepted the login with the calls made until then. -/
def LoginAccepted (before : CallRecord) (execution : Execution) (userId : Bytes) : Prop :=
  ∃ pw, execution.entry.task.cmd = .cmdLogin userId pw ∧
    (DbService.login userId pw (Database.served before.calls)).isSome

/-- The record is that of the state: its tasks are the executed ones, its calls made the database,
each call is that of its task, and a user is established by a login only. -/
structure ServerState.Stores (state : ServerState) (record : CallRecord) : Prop where
  executed : state.ledger.executed = record.map Prod.fst
  db : state.db = Database.served record.calls
  calls : ∀ item ∈ record, ∀ call, item.2 = some call →
    ∃ env, DbExecutor.performs env item.1.entry.task = some call
  logins : ∀ before item later, record = before ++ item :: later → ∀ userId ≠ [],
    item.1.identity = some userId → LoginAccepted before item.1 userId

/-! ### The record follows the server -/

variable {state next : ServerState} {record : CallRecord}

omit [LinearOrder Bytes] in
theorem CallRecord.calls_concat (record : CallRecord) (execution : Execution)
    (call : Option ServiceCall) :
    CallRecord.calls (record ++ [(execution, call)]) = record.calls ++ call.toList := by
  rw [CallRecord.calls, List.filterMap_append, CallRecord.calls]
  cases call <;> rfl

theorem served_append_toList (calls : List ServiceCall) (call : Option ServiceCall) :
    Database.served (calls ++ call.toList) = (Database.served calls).afterCall call := by
  cases call with
  | none => rw [Option.toList_none, List.append_nil, Database.afterCall]
  | some call => rw [Option.toList_some, Database.served_concat, Database.afterCall]

/-- A task establishes a user only by a login that the database accepts. -/
theorem login_of_establishes {env : DbEnv} {task : Task} {db : Database Bytes} {userId : Bytes}
    (hidentity : establishes env task db = some userId) (huser : userId ≠ []) :
    ∃ pw, task.cmd = .cmdLogin userId pw ∧ (DbService.login userId pw db).isSome := by
  unfold establishes at hidentity
  split at hidentity
  · next id pw hcmd =>
    split at hidentity
    · exact absurd (Option.some.inj hidentity).symm huser
    · exact absurd (Option.some.inj hidentity).symm huser
    · next nickname hread =>
      split at hidentity
      · exact absurd (Option.some.inj hidentity).symm huser
      · obtain rfl := Option.some.inj hidentity
        refine ⟨pw, hcmd, ?_⟩
        rw [← (read_eq_ok hread).2]
        rfl
  · cases hidentity

theorem ServerState.stores_start : ServerState.start.Stores [] where
  executed := rfl
  db := rfl
  calls item hitem := by cases hitem
  logins before item later hsplit := by simp at hsplit

theorem ServerState.Stores.taken (hstores : state.Stores record) (env : DbEnv)
    {entry : TaskEntry} (rest : List TaskEntry) :
    (state.taken env entry rest).Stores (record ++ [(⟨entry, establishes env entry.task state.db⟩,
      DbExecutor.performs env entry.task)]) := by
  refine ⟨?_, ?_, fun item hitem call hcall ↦ ?_, fun before item later hsplit userId huser
    hidentity ↦ ?_⟩
  · rw [List.map_append, ← hstores.executed]
    rfl
  · rw [CallRecord.calls_concat, served_append_toList, ← hstores.db]
    exact execute_db env entry.task state.db
  · rcases List.mem_append.mp hitem with hold | hnew
    · exact hstores.calls item hold call hcall
    · obtain rfl := List.mem_singleton.mp hnew
      exact ⟨env, hcall⟩
  · rcases List.eq_nil_or_concat later with rfl | ⟨later, last, rfl⟩
    · obtain ⟨rfl, hitem⟩ := List.append_inj' hsplit rfl
      obtain rfl := List.singleton_inj.mp hitem
      obtain ⟨pw, hcmd, haccepted⟩ := login_of_establishes hidentity huser
      exact ⟨pw, hcmd, hstores.db ▸ haccepted⟩
    · rw [List.concat_eq_append, ← List.cons_append, ← List.append_assoc] at hsplit
      exact hstores.logins before item later (List.append_inj' hsplit rfl).1 userId huser hidentity

theorem ServerState.Stores.step {label : ServerLabel} (hstores : state.Stores record)
    (hstep : chatServer.step state label = some next) :
    next.Stores (callsAfter state label next record) := by
  cases transition_of_step hstep with
  | take env entry rest hworker htasks =>
    simp only [callsAfter, htasks]
    exact hstores.taken env rest
  | _ => exact ⟨hstores.executed, hstores.db, hstores.calls, hstores.logins⟩

theorem stores_of_reachable {condition : ServerState × CallRecord → ServerLabel → Prop}
    {state : ServerState × CallRecord} (hreach : callingServer.ReachableUnder condition state) :
    state.1.Stores state.2 := by
  refine @TransitionSystem.ReachableUnder.induction _ _ callingServer _
    (fun state ↦ state.1.Stores state.2) ServerState.stores_start ?_ _ hreach
  intro before label next _ hstores _ hstep
  obtain ⟨hmoves, hrecord⟩ := TransitionSystem.withRecord_step_eq_some.mp hstep
  rw [hrecord]
  exact hstores.step hmoves

/-- The server keeps a community. In every state reached, under any interleaving and any failures of
the database, its tables store the community that the transactions of the calls of its executed
tasks make, and each of these calls is the one that the command of its task asks for on behalf of
its user. -/
theorem server_stores_community (hreach : callingServer.Reachable (state, record)) :
    record.map Prod.fst = state.ledger.executed ∧
      state.db.community =
        ((communityMachine Bytes).run (record.calls.map ServiceCall.bind)).2 ∧
      ∀ item ∈ record, ∀ call, item.2 = some call →
        ∃ env, DbExecutor.asksFor env item.1.entry.task = some call := by
  have hstores := stores_of_reachable hreach
  refine ⟨hstores.executed.symm, ?_, fun item hitem call hcall ↦ ?_⟩
  · have hdb : state.db.community = _ := congrArg Database.community hstores.db
    rw [hdb, community_served]
  · obtain ⟨env, hperforms⟩ := hstores.calls item hitem call hcall
    exact ⟨env, passed_eq_some hperforms⟩

/-- Two clients sign up and log in, one asks for the other's friendship and the other accepts. -/
def consenting : List ServerLabel :=
  connecting 5 ++ connecting 6 ++ round [] 2 [] ++
    sending 5 [.cmdRegister (text "a") (text "p"), .cmdLogin (text "a") (text "p")] ++
    sending 6 [.cmdRegister (text "b") (text "q"), .cmdLogin (text "b") (text "q")] ++
    executing 1 ++ executing 4 ++ executing 1 ++ executing 4 ++ round [] 10 [] ++
    sending 5 [.cmdFriendRequest (text "b")] ++ sending 6 [.cmdFriendAccept (text "a")] ++
    executing 1 ++ executing 1

end Server

theorem server_stores_community_consenting :
    ∃ state record, (@callingServer bytewise).run (@callingServer bytewise).start consenting =
        some (state, record) ∧
      record.length = 6 ∧
      (@Database.community Bytes bytewise state.db) =
        ((communityMachine Bytes).run (record.calls.map ServiceCall.bind)).2 := by
  let order := bytewise
  have hrun : ((callingServer.run callingServer.start consenting).map fun state ↦
      decide (state.2.length = 6)) = some true := by decide +kernel
  obtain ⟨⟨state, record⟩, hstate, hlength⟩ := Option.map_eq_some_iff.mp hrun
  have hreach : callingServer.Reachable (state, record) := .of_run hstate
  exact ⟨state, record, hstate, of_decide_eq_true hlength, (server_stores_community hreach).2.1⟩

section Server

variable [LinearOrder Bytes] {state : ServerState} {record : CallRecord}

omit [LinearOrder Bytes] in
/-- A call among those of a record is the call of one of its tasks. -/
theorem exists_made {calls later : List ServiceCall} {call : ServiceCall} {record : CallRecord}
    (hsplit : record.calls = calls ++ call :: later) :
    ∃ (before : CallRecord) (item : Execution × Option ServiceCall) (rest : CallRecord),
      record = before ++ item :: rest ∧ before.calls = calls ∧ item.2 = some call ∧
        rest.calls = later := by
  obtain ⟨first, second, rfl, hfirst, hsecond⟩ := List.filterMap_eq_append_iff.mp hsplit
  obtain ⟨skipped, item, rest, rfl, hskipped, hcall, hrest⟩ :=
    List.filterMap_eq_cons_iff.mp hsecond
  refine ⟨first ++ skipped, item, rest, by simp, ?_, hcall, hrest⟩
  show (first ++ skipped).filterMap Prod.snd = _
  rw [List.filterMap_append, hfirst, List.filterMap_eq_nil_iff.mpr hskipped, List.append_nil]

/-! ### Logging in -/

/-- Nobody logs in without the password of the account. In every state reached, under any
interleaving and any failures of the database: a user that a task has established had been given to
it by a login line, and PostgreSQL reads the user and the password of that line in the first
registration of the user that the database had carried out before. -/
theorem login_registered (hreach : callingServer.Reachable (state, record))
    {before later : CallRecord} {login : Execution × Option ServiceCall}
    (hsplit : record = before ++ login :: later) {userId : Bytes} (huser : userId ≠ [])
    (hidentity : login.1.identity = some userId) :
    ∃ pw, login.1.entry.task.cmd = .cmdLogin userId pw ∧
      ∃ earlier registration between id password,
        before = earlier ++ registration :: between ∧
        registration.1.entry.task.cmd = .cmdRegister id password ∧
        registration.2 = some (.signup id password) ∧
        sqlText id = sqlText userId ∧ sqlText password = sqlText pw ∧
        ∀ item ∈ earlier, ∀ other otherPw, item.2 = some (.signup other otherPw) →
          sqlText other ≠ sqlText userId := by
  have hstores := stores_of_reachable hreach
  obtain ⟨pw, hcmd, haccepted⟩ := hstores.logins before login later hsplit userId huser hidentity
  refine ⟨pw, hcmd, ?_⟩
  obtain ⟨nickname, hlogin⟩ := Option.isSome_iff_exists.mp haccepted
  rw [DbService.login, served_eq_after, login_after_iff] at hlogin
  obtain ⟨bound, rest, hbound, hfirst, -⟩ := hlogin
  obtain ⟨calls, call, made, hcalls, rfl, hbind, -⟩ := map_eq_append_cons.mp hbound
  obtain ⟨earlier, registration, between, rfl, rfl, hcall, -⟩ := exists_made hcalls
  have hmem : registration ∈ record := by
    rw [hsplit]
    simp
  obtain ⟨env, hperforms⟩ := hstores.calls registration hmem _ hcall
  cases call with
  | signup id password =>
    obtain ⟨hid, hpw⟩ := WriteCall.signup.inj hbind
    refine ⟨earlier, registration, between, id, password, rfl, signup_of_performs hperforms, hcall,
      hid, hpw, fun item hitem other otherPw hother hsame ↦ ?_⟩
    have hmade : .signup other otherPw ∈ earlier.calls :=
      List.mem_filterMap.mpr ⟨item, hitem, hother⟩
    exact hfirst _ (List.mem_map_of_mem hmade) ⟨sqlText otherPw, by rw [← hsame]; rfl⟩
  | _ => cases hbind

end Server

theorem login_registered_consenting :
    ∃ state record, (@callingServer bytewise).run (@callingServer bytewise).start consenting =
        some (state, record) ∧
      ∃ before login later, record = before ++ login :: later ∧
        login.1.identity = some (text "b") ∧
        ∃ pw, login.1.entry.task.cmd = .cmdLogin (text "b") pw ∧
          ∃ earlier registration between id password,
            before = earlier ++ registration :: between ∧
            registration.1.entry.task.cmd = .cmdRegister id password ∧
            registration.2 = some (.signup id password) ∧
            sqlText id = sqlText (text "b") ∧ sqlText password = sqlText pw ∧
            ∀ item ∈ earlier, ∀ other otherPw, item.2 = some (.signup other otherPw) →
              sqlText other ≠ sqlText (text "b") := by
  let order := bytewise
  have hrun : ((callingServer.run callingServer.start consenting).map fun state ↦
      decide ((state.2[3]?.map fun item ↦ item.1.identity) = some (some (text "b")))) =
      some true := by decide +kernel
  obtain ⟨⟨state, record⟩, hstate, hfact⟩ := Option.map_eq_some_iff.mp hrun
  obtain ⟨login, hlogin, hidentity⟩ := Option.map_eq_some_iff.mp (of_decide_eq_true hfact)
  obtain ⟨before, later, hsplit⟩ := List.append_of_mem (List.mem_of_getElem? hlogin)
  have hreach : callingServer.Reachable (state, record) := .of_run hstate
  exact ⟨state, record, hstate, before, login, later, hsplit, hidentity,
    login_registered hreach hsplit (by decide) hidentity⟩

section Server

variable [LinearOrder Bytes] {state : ServerState} {record : CallRecord}

/-! ### Friends -/

/-- A login on this connection is among these tasks, under a text that PostgreSQL reads as the
user. -/
def LoggedInOn (executed : List Execution) (conn : Nat) (userId : Bytes) : Prop :=
  ∃ login ∈ executed, login.entry.conn = conn ∧ ∃ id pw,
    login.entry.task.cmd = .cmdLogin id pw ∧ login.identity = some id ∧ sqlText id = userId

/-- With fresh numbers a task under a user comes from a connection on which that user has logged
in. -/
theorem loggedInOn_of_executed (hstores : state.Stores record)
    (hreach : chatServer.ReachableUnder FreshDescriptor state) {before later : CallRecord}
    {item : Execution × Option ServiceCall} (hsplit : record = before ++ item :: later)
    (huser : item.1.entry.task.userId ≠ []) :
    LoggedInOn (before.map Prod.fst) item.1.entry.conn (sqlText item.1.entry.task.userId) := by
  have hexecuted : state.pipeline.ledger.executed =
      before.map Prod.fst ++ item.1 :: later.map Prod.fst := by
    show state.ledger.executed = _
    rw [hstores.executed, hsplit, List.map_append, List.map_cons]
  have hrecorded := (attributed_of_fresh hreach).executed _ _ _ hexecuted
  have hlast : item.1.entry.task.userId ∈ item.1.entry.applied := by
    have huserId := hrecorded.userId
    unfold lastIdentity at huserId
    cases hget : item.1.entry.applied.getLast? with
    | none =>
      rw [hget] at huserId
      exact absurd huserId huser
    | some last =>
      rw [hget, Option.getD_some] at huserId
      exact huserId ▸ List.mem_of_getLast? hget
  obtain ⟨login, hlogin, hidentity⟩ :=
    List.mem_filterMap.mp (hrecorded.applied.subset hlast)
  split_ifs at hidentity with hconn
  obtain ⟨entry, hentry, rfl⟩ := List.mem_map.mp hlogin
  obtain ⟨first, second, hbefore⟩ := List.append_of_mem hentry
  obtain ⟨pw, hcmd, -⟩ := hstores.logins first entry (second ++ item :: later)
    (by rw [hsplit, hbefore, List.append_assoc, List.cons_append]) _ huser hidentity
  exact ⟨entry.1, hlogin, hconn, _, pw, hcmd, hidentity, rfl⟩

/-- No friendship without both. In every state reached with fresh numbers, if two users are friends
then one of them has asked on a connection on which they had logged in, and later the other has
accepted on a connection on which they had logged in. The users are those that PostgreSQL reads in
the texts of the commands. -/
theorem friends_logged_in {a b : Bytes}
    (hreach : callingServer.ReachableUnder (fun state label ↦ FreshDescriptor state.1 label)
      (state, record)) (hfriends : state.db.AreFriends a b) :
    ∃ asker asked, ((asker = a ∧ asked = b) ∨ (asker = b ∧ asked = a)) ∧
      ∃ before request between accept later,
        state.ledger.executed = before ++ request :: (between ++ accept :: later) ∧
        (∃ toUserId, request.entry.task.cmd = .cmdFriendRequest toUserId ∧
          sqlText toUserId = asked) ∧
        LoggedInOn before request.entry.conn asker ∧
        (∃ fromUserId, accept.entry.task.cmd = .cmdFriendAccept fromUserId ∧
          sqlText fromUserId = asker) ∧
        LoggedInOn (before ++ request :: between) accept.entry.conn asked := by
  have hstores := stores_of_reachable hreach
  have hfresh : chatServer.ReachableUnder FreshDescriptor state := hreach.of_withRecord
  have hcalls : ∀ call ∈ record.calls.map ServiceCall.bind, ∀ now first second,
      call ≠ .addFriend now first second := by
    intro call hcall
    obtain ⟨made, hmade, rfl⟩ := List.mem_map.mp hcall
    obtain ⟨item, hitem, hmade⟩ := List.mem_filterMap.mp hmade
    obtain ⟨env, hperforms⟩ := hstores.calls item hitem made hmade
    exact performs_ne_addFriend hperforms
  rw [hstores.db, served_eq_after] at hfriends
  obtain ⟨asker, asked, hpair, _, requestCall, _, acceptCall, _, hsplit, hrequests, -, -,
    haccepts, -⟩ := exists_request_accept hcalls hfriends
  obtain ⟨_, requesting, _, hcalled, -, rfl, hrest⟩ := map_eq_append_cons.mp hsplit
  obtain ⟨_, accepting, _, rfl, -, rfl, -⟩ := map_eq_append_cons.mp hrest
  obtain ⟨before, request, rest, hrecord, -, hrequest, hrest⟩ := exists_made hcalled
  obtain ⟨between, accept, later, rfl, -, haccept, -⟩ := exists_made hrest
  obtain ⟨env, hperforms⟩ := hstores.calls request (by simp [hrecord]) _ hrequest
  obtain ⟨env', hperforms'⟩ := hstores.calls accept (by simp [hrecord]) _ haccept
  obtain ⟨rfl, haskerUser, hasks⟩ := requests_of_performs hperforms hrequests
  obtain ⟨rfl, haskedUser, haccepted⟩ := accepts_of_performs hperforms' haccepts
  refine ⟨_, _, hpair, before.map Prod.fst, request.1, between.map Prod.fst, accept.1,
    later.map Prod.fst, ?_, hasks, loggedInOn_of_executed hstores hfresh hrecord haskerUser,
    haccepted, ?_⟩
  · rw [hstores.executed, hrecord]
    simp
  · have hsplit' : record = (before ++ request :: between) ++ accept :: later := by
      rw [hrecord, List.append_assoc, List.cons_append]
    have hlogged := loggedInOn_of_executed hstores hfresh hsplit' haskedUser
    rw [List.map_append, List.map_cons] at hlogged
    exact hlogged

end Server

theorem friends_logged_in_consenting :
    ∃ state record, (@callingServer bytewise).run (@callingServer bytewise).start consenting =
        some (state, record) ∧
      ∃ asker asked,
        ((asker = text "b" ∧ asked = text "a") ∨ (asker = text "a" ∧ asked = text "b")) ∧
        ∃ before request between accept later,
          state.ledger.executed = before ++ request :: (between ++ accept :: later) ∧
          (∃ toUserId, request.entry.task.cmd = .cmdFriendRequest toUserId ∧
            sqlText toUserId = asked) ∧
          LoggedInOn before request.entry.conn asker ∧
          (∃ fromUserId, accept.entry.task.cmd = .cmdFriendAccept fromUserId ∧
            sqlText fromUserId = asker) ∧
          LoggedInOn (before ++ request :: between) accept.entry.conn asked := by
  let order := bytewise
  have hrun : ((callingServer.run callingServer.start consenting).map fun state ↦
      decide (state.1.db.AreFriends (text "b") (text "a"))) = some true := by decide +kernel
  have hfresh : callingServer.Meets (fun state label ↦ FreshDescriptor state.1 label)
      callingServer.start consenting := by decide +kernel
  obtain ⟨⟨state, record⟩, hstate, hfriends⟩ := Option.map_eq_some_iff.mp hrun
  exact ⟨state, record, hstate,
    friends_logged_in ⟨consenting, hfresh, hstate⟩ (of_decide_eq_true hfriends)⟩

end ChatServer
